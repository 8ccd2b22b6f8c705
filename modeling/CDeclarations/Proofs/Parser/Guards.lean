import CDeclarations.Proofs.Parser.Placement

/-!
# `CDeclarations.Proofs.Parser.Guards`: what a parse takes for granted

The parser looks up nodes by their indices, climbs to parents, appends
nodes below places and counts braces, and takes each of these steps for
granted. A guarded step checks what it needs: a node has to be there, a
climb must not begin at the root, only an error or a warning carries a
message, and a count has to fit in 32 bits.

* `Trap`: why a guard stops the parser.
* `Tree.guardNode_eq`, `Tree.guardedParent_eq`, `Tree.guardChildren_eq`,
  `Tree.guardedAdd_eq`: when a guarded step on a tree passes.
* `digest?_eq`: a token is digested in a datatype below any node, and no
  guard is met.
-/

set_option autoImplicit false

namespace CDeclarations

/-- Why a guard stops the parser. -/
inductive Trap
  /-- A node is not there, or is of the wrong kind. -/
  | fault (fault : TreeFault)
  /-- A climb begins at a node without a parent. -/
  | aboveRoot (id : NodeId)
  /-- A count does not fit in 32 bits. -/
  | uncountable (count : Int)
deriving DecidableEq

/-- One more than the largest number in 32 bits with a sign. -/
def countLimit : Nat := 2147483648

/-- A count that has to fit in 32 bits. -/
def counted? (count : Int) : Except Trap Int :=
  if -(countLimit : Int) ≤ count ∧ count < countLimit then .ok count
  else .error (.uncountable count)

/-- A step that succeeded hands its result on. -/
theorem ok_bind {α β : Type} (a : α) (f : α → Except Trap β) : (Except.ok a >>= f) = f a :=
  rfl

/-- A choice that is made on both sides. -/
theorem ite_eq_ok {α : Type} {condition : Prop} [Decidable condition] {x y : Except Trap α}
    {a b : α} (hx : condition → x = .ok a) (hy : ¬condition → y = .ok b) :
    (if condition then x else y) = .ok (if condition then a else b) := by
  split
  · next h => exact hx h
  · next h => exact hy h

/-- Steps that all pass. -/
theorem forM_eq_ok {α : Type} {xs : List α} {step : α → Except Trap Unit}
    (h : ∀ x ∈ xs, step x = .ok ()) : forM xs step = .ok () := by
  induction xs with
  | nil => rfl
  | cons x xs ih =>
      rw [List.forM_cons, h x List.mem_cons_self]
      exact ih fun y hy => h y (List.mem_cons_of_mem _ hy)

/-- A count within 32 bits is kept as it is. -/
theorem counted?_eq {count : Int} (h : -1 ≤ count) (h' : count < countLimit) :
    counted? count = .ok count := by
  have hlimit : 1 ≤ countLimit := by decide
  exact if_pos ⟨by omega, h'⟩

namespace Tree

/-! ### Guarded look-ups -/

/-- A node has to be there. -/
def guardNode (t : Tree) (id : NodeId) : Except Trap Unit :=
  discard ((t.node? id).mapError .fault)

/-- The parent of a node, both of which have to be there. -/
def guardedParent (t : Tree) (id : NodeId) : Except Trap NodeId := do
  let n ← (t.node? id).mapError .fault
  match n.parent with
  | some parent => return parent
  | none => throw (.aboveRoot id)

/-- The node and all of its children have to be there. -/
def guardChildren (t : Tree) (id : NodeId) : Except Trap Unit := do
  let n ← (t.node? id).mapError .fault
  forM n.children.toList t.guardNode

variable {t : Tree} {id parent : NodeId} {kind : NodeKind}

/-- A node that is there can be indexed. -/
theorem guardNode_eq (h : id < t.size) : t.guardNode id = .ok () := by
  have hn : t.nodes[id]? = some t.nodes[id] := Array.getElem?_eq_getElem h
  simp only [guardNode, node?, hn]
  rfl

/-- A node with a parent has one to climb to. -/
theorem guardedParent_eq (h : t.Holds id kind parent) : t.guardedParent id = .ok parent := by
  obtain ⟨n, hn, -, hparent⟩ := h
  simp only [guardedParent, node?, hn]
  show (match n.parent with | some parent => Except.ok parent | none => _) = _
  rw [hparent]

/-- In a linked tree the children of a node are there. -/
theorem guardChildren_eq (ht : t.Linked) (h : id < t.size) : t.guardChildren id = .ok () := by
  have hn : t.nodes[id]? = some t.nodes[id] := Array.getElem?_eq_getElem h
  simp only [guardChildren, node?, hn]
  refine forM_eq_ok fun c hc => ?_
  have hmem : c ∈ t.children id := by
    rw [children, hn]
    exact Array.mem_def.2 hc
  obtain ⟨m, hm, -⟩ := ht.child hmem
  exact guardNode_eq (lt_size_of_getElem? hm)

/-! ### Guarded appends -/

/-- Appends a node; no message goes with it. -/
def guardedAdd (t : Tree) (parent : NodeId) (kind : NodeKind) (token : Token)
    (payload : Option String) : Except Trap Tree :=
  (t.add? parent kind token.position payload).mapError .fault

/-- Appends the error node of a refused token. -/
def guardedFailure (t : Tree) (parent : NodeId) (token : Token) (failure : Failure) :
    Except Trap Tree :=
  (t.addDiagnostic? parent .error token.position (some token.text) failure.message).mapError .fault

variable {token : Token}

/-- A node is added below one that is there. -/
theorem guardedAdd_eq (h : parent < t.size) (kind : NodeKind) (payload : Option String) :
    t.guardedAdd parent kind token payload =
      .ok (t.add parent kind token.position payload none) := by
  rw [guardedAdd, add?, if_pos (Nat.le_of_lt h)]
  rfl

/-- An error is added below a node that is there. -/
theorem guardedFailure_eq (h : parent < t.size) (failure : Failure) :
    t.guardedFailure parent token failure = .ok (t.addFailure parent token failure) := by
  rw [guardedFailure, addDiagnostic?, if_neg (by decide), if_pos (Nat.le_of_lt h)]
  rfl

end Tree

/-! ### Guarded digesting -/

/-- Digests a token; every look-up is guarded. -/
def digest? (t : Tree) (datatype : NodeId) (flags : Flags) (token : Token) :
    Except Trap Digestion := do
  t.guardChildren datatype
  let flags := flags.forSequence t datatype
  let id := t.size
  match flags.judge token with
  | .part kind after =>
      let u ← t.guardedAdd datatype kind token (some token.text)
      return ⟨u, after, .classified id⟩
  | .composed word after =>
      let u ← t.guardedAdd datatype .userType token none
      let u ← u.guardedAdd id word.nodeKind token (some token.text)
      return ⟨u, after, .classified (id + 1)⟩
  | .tag after =>
      t.guardChildren datatype
      let u ← t.guardedAdd (t.tagParent datatype) .identifier token (some token.text)
      return ⟨u, after, .classified id⟩
  | .name =>
      let enclosing ← t.guardedParent datatype
      let u ← t.guardedAdd enclosing .identifier token (some token.text)
      return ⟨u, flags, .declared id⟩
  | .refused failure =>
      let u ← t.guardedFailure datatype token failure
      return ⟨u, flags, .refused id failure⟩

/-- A token is digested without a panic into a datatype that has a parent. -/
theorem digest?_eq {t : Tree} (ht : t.Regular) {datatype parent : NodeId}
    (h : t.Holds datatype .datatype parent) (flags : Flags) (token : Token) :
    digest? t datatype flags token = .ok (digest t datatype flags token) := by
  have hstem : t.Stem datatype := h.stem rfl
  have hlt := hstem.lt_size
  have hchildren := Tree.guardChildren_eq ht.toLinked hlt
  -- Each verdict indexes the node it appends to.
  cases hj : (flags.forSequence t datatype).judge token with
  | part kind after =>
      simp only [digest?, digest, hj, hchildren, ok_bind, Tree.guardedAdd_eq hlt]
      rfl
  | composed word after =>
      have hnew := (Tree.holds_addContainer hlt .userType token).lt_size
      simp only [digest?, digest, hj, hchildren, ok_bind, Tree.guardedAdd_eq hlt,
        ← Tree.addContainer.eq_1, Tree.guardedAdd_eq hnew]
      rfl
  | tag after =>
      have htag := (Tree.Regular.stem_tagParent hstem).lt_size
      simp only [digest?, digest, hj, hchildren, ok_bind, Tree.guardedAdd_eq htag]
      rfl
  | name =>
      have hup := (ht.stem_parentOrSelf hstem).lt_size
      rw [h.parentOrSelf] at hup
      simp only [digest?, digest, hj, hchildren, ok_bind, Tree.guardedParent_eq h,
        h.parentOrSelf, Tree.guardedAdd_eq hup]
      rfl
  | refused failure =>
      simp only [digest?, digest, hj, hchildren, ok_bind, Tree.guardedFailure_eq hlt]
      rfl

end CDeclarations
