import CDeclarations.Proofs.Parser.View
import CDeclarations.Proofs.Specifier.UnderWay
import Mathlib.Order.Monotone.Basic
import Mathlib.Order.Nat

/-!
# `CDeclarations.Proofs.Specifier.Refusals`: a refused token leaves its error and no more

A digester may go on behind a refused token. The token is in the tree
then, as an error below the datatype, and it has begun the datatype. What
comes next is judged and stored as if the token had not come: an error is
no part of the sequence, and where it begins an unbegun datatype it
leaves the categories empty, as they would be found without it.

* `Tree.WithErrors`: a tree with errors put in, the other nodes being
  numbered anew.
* `Sequence.WithErrors.refused`, `Sequence.WithErrors.digest`: what one
  token does to a sequence with errors and to the one without.
* `Sequence.digestions_accepted`: the tokens that are taken are digested as
  if no other had come.
-/

set_option autoImplicit false

namespace CDeclarations

/-! ### Errors put into a tree -/

/-- The node `m` is `n` in a tree with further nodes, the `errors`. The
other nodes are renamed by `ν`. -/
structure Node.WithErrors (errors : List NodeId) (ν : NodeId → NodeId) (n m : Node) : Prop where
  kind : m.kind = n.kind
  parent : m.parent = n.parent.map ν
  children : m.children.toList.filter (· ∉ errors) = n.children.toList.map ν
  position : m.position = n.position
  payload : m.payload = n.payload
  diagnostic : m.diagnostic = n.diagnostic

namespace Node.WithErrors

variable {errors : List NodeId} {ν : NodeId → NodeId} {n m : Node} {child : NodeId}

/-- The same child below both nodes. -/
theorem withChild (h : n.WithErrors errors ν m) (hchild : ν child ∉ errors) :
    (n.withChild child).WithErrors errors ν (m.withChild (ν child)) where
  kind := h.kind
  parent := h.parent
  children := by
    rw [Node.withChild, Node.withChild, Array.toList_push, Array.toList_push, List.filter_append,
      List.map_append, h.children]
    simp [hchild]
  position := h.position
  payload := h.payload
  diagnostic := h.diagnostic

/-- An error below the second node is left out of its children. -/
theorem withError (h : n.WithErrors errors ν m) (herror : child ∈ errors) :
    n.WithErrors errors ν (m.withChild child) where
  kind := h.kind
  parent := h.parent
  children := by
    rw [Node.withChild, Array.toList_push, List.filter_append, h.children]
    simp [herror]
  position := h.position
  payload := h.payload
  diagnostic := h.diagnostic

end Node.WithErrors

namespace Tree

/-- The tree `u` is `t` with errors put in below the datatype, the nodes
`errors`. The node `id` of `t` is the node `ν id` of `u`. -/
structure WithErrors (datatype : NodeId) (errors : List NodeId) (ν : NodeId → NodeId)
    (t u : Tree) : Prop where
  mono : StrictMono ν
  /-- The nodes to come are numbered alike. -/
  size : ∀ k, ν (t.size + k) = u.size + k
  node : ∀ {id : NodeId} {n : Node}, t.nodes[id]? = some n →
    ∃ m, u.nodes[ν id]? = some m ∧ n.WithErrors errors ν m
  other : ∀ {id : NodeId}, id < u.size → id ∉ errors → ∃ k, k < t.size ∧ ν k = id
  apart : ∀ k, ν k ∉ errors
  error : ∀ {id : NodeId}, id ∈ errors →
    ∃ m, u.nodes[id]? = some m ∧ m.kind = .error ∧ m.parent = some datatype ∧ m.children = #[]

/-- A tree is itself with no errors. -/
theorem WithErrors.refl (datatype : NodeId) (t : Tree) : t.WithErrors datatype [] id t where
  mono := strictMono_id
  size _ := rfl
  node {_ n} hn := ⟨n, hn, rfl, by simp, by simp, rfl, rfl, rfl⟩
  other {id} hid _ := ⟨id, hid, rfl⟩
  apart _ := List.not_mem_nil
  error h := absurd h List.not_mem_nil

variable {t u : Tree} {datatype : NodeId} {errors : List NodeId} {ν : NodeId → NodeId}

namespace WithErrors

/-- A node of the smaller tree is one of the larger. -/
theorem lt_size (h : t.WithErrors datatype errors ν u) {id : NodeId} (hid : id < t.size) :
    ν id < u.size := by
  have hlt := h.mono hid
  rwa [← Nat.add_zero t.size, h.size] at hlt

/-- The next node of both trees is the same. -/
theorem size_eq (h : t.WithErrors datatype errors ν u) : ν t.size = u.size :=
  h.size 0

/-! ### What is looked up -/

/-- The nodes keep their kinds. -/
theorem kind? (h : t.WithErrors datatype errors ν u) {id : NodeId} (hid : id < t.size) :
    u.kind? (ν id) = t.kind? id := by
  have hn : t.nodes[id]? = some t.nodes[id] := Array.getElem?_eq_getElem hid
  obtain ⟨m, hm, hnm⟩ := h.node hn
  rw [Tree.kind?, Tree.kind?, hn, hm, Option.map_some, Option.map_some, hnm.kind]

/-- The nodes keep their parents. -/
theorem parentOrSelf (h : t.WithErrors datatype errors ν u) {id : NodeId} (hid : id < t.size) :
    u.parentOrSelf (ν id) = ν (t.parentOrSelf id) := by
  have hn : t.nodes[id]? = some t.nodes[id] := Array.getElem?_eq_getElem hid
  obtain ⟨m, hm, hnm⟩ := h.node hn
  rw [Tree.parentOrSelf, Tree.parentOrSelf, hn, hm, Option.bind_some, Option.bind_some,
    hnm.parent]
  cases t.nodes[id].parent <;> rfl

/-- The nodes keep their children but for the errors. -/
theorem children (h : t.WithErrors datatype errors ν u) {id : NodeId} (hid : id < t.size) :
    (u.children (ν id)).toList.filter (· ∉ errors) = (t.children id).toList.map ν := by
  have hn : t.nodes[id]? = some t.nodes[id] := Array.getElem?_eq_getElem hid
  obtain ⟨m, hm, hnm⟩ := h.node hn
  rw [Tree.children, Tree.children, hn, hm]
  exact hnm.children

/-- An error is none of the children of another kind. -/
theorem childrenOfKind (h : t.WithErrors datatype errors ν u) (ht : t.Closed) {id : NodeId}
    (hid : id < t.size) {kind : NodeKind} (hkind : kind ≠ .error) :
    (u.childrenOfKind (ν id) kind).toList = (t.childrenOfKind id kind).toList.map ν := by
  let isKind (v : Tree) (c : NodeId) : Bool := v.kind? c = some kind
  -- No error is of the kind that is looked for.
  have herror : ∀ c, (isKind u c && decide (c ∉ errors)) = isKind u c := by
    intro c
    cases hc : isKind u c with
    | false => rfl
    | true =>
        rw [Bool.true_and, decide_eq_true_eq]
        intro hmem
        obtain ⟨m, hm, hm', -⟩ := h.error hmem
        have hkind' := of_decide_eq_true hc
        rw [Tree.kind?, hm, Option.map_some, Option.some.injEq, hm'] at hkind'
        exact hkind hkind'.symm
  have hsame : ∀ c ∈ (t.children id).toList, isKind u (ν c) = isKind t c := by
    intro c hc
    simp only [isKind, h.kind? (ht.child (Array.mem_toList_iff.1 hc))]
  calc (u.childrenOfKind (ν id) kind).toList
      = (u.children (ν id)).toList.filter (isKind u) := Array.toList_filter ..
    _ = ((u.children (ν id)).toList.filter (· ∉ errors)).filter (isKind u) := by
        rw [List.filter_filter]
        simp only [herror]
    _ = ((t.children id).toList.filter (isKind t)).map ν := by
        rw [h.children hid, List.filter_map]
        congr 1
        exact List.filter_congr hsame
    _ = (t.childrenOfKind id kind).toList.map ν := by
        rw [Tree.childrenOfKind, Array.toList_filter]

/-- A tag goes under the same node. -/
theorem tagParent (h : t.WithErrors datatype errors ν u) (ht : t.Closed) {id : NodeId}
    (hid : id < t.size) : u.tagParent (ν id) = ν (t.tagParent id) := by
  have htypes : (u.childrenOfKind (ν id) .userType).toList =
      (t.childrenOfKind id .userType).toList.map ν := h.childrenOfKind ht hid nofun
  rw [Tree.tagParent, Tree.tagParent, ← Array.getLast?_toList, ← Array.getLast?_toList, htypes,
    List.getLast?_map]
  cases (t.childrenOfKind id .userType).toList.getLast? <;> rfl

/-! ### What is appended -/

variable {parent : NodeId} {kind : NodeKind} {position : Position}
  {payload diagnostic : Option String}

/-- The same append to both trees. -/
theorem add (h : t.WithErrors datatype errors ν u) (hlt : parent < t.size) :
    (t.add parent kind position payload diagnostic).WithErrors datatype errors ν
      (u.add (ν parent) kind position payload diagnostic) where
  mono := h.mono
  size k := by
    rw [size_add, size_add, Nat.add_assoc, h.size, Nat.add_assoc]
  node := by
    intro id n hn
    rw [getElem?_add kind position payload diagnostic hlt] at hn
    split at hn
    · next hid =>
      cases hn
      rw [hid, h.size_eq]
      exact ⟨_, getElem?_add_new kind position payload diagnostic (h.lt_size hlt),
        rfl, rfl, rfl, rfl, rfl, rfl⟩
    · obtain ⟨n', hn', rfl⟩ := Option.map_eq_some_iff.1 hn
      obtain ⟨m, hm, hnm⟩ := h.node hn'
      refine ⟨_, getElem?_add_old kind position payload diagnostic (h.lt_size hlt) hm, ?_⟩
      -- The parent gets the same child on both sides, and every other node is as
      -- before.
      by_cases hid : parent = id
      · rw [if_pos hid, if_pos (congrArg ν hid), ← h.size_eq]
        exact hnm.withChild (h.apart t.size)
      · rw [if_neg hid, if_neg (fun heq => hid (h.mono.injective heq))]
        exact hnm
  other := by
    intro id hid herror
    rw [size_add] at hid ⊢
    rcases Nat.lt_succ_iff_lt_or_eq.1 hid with hid | rfl
    · obtain ⟨k, hk, hkid⟩ := h.other hid herror
      exact ⟨k, Nat.lt_succ_of_lt hk, hkid⟩
    · exact ⟨t.size, Nat.lt_succ_self _, h.size_eq⟩
  apart := h.apart
  error := by
    intro id hid
    obtain ⟨m, hm, hm'⟩ := h.error hid
    rw [getElem?_add_old kind position payload diagnostic (h.lt_size hlt) hm,
      if_neg (fun heq : ν parent = id => h.apart parent (heq ▸ hid))]
    exact ⟨m, rfl, hm'⟩

end WithErrors

/-- The numbers of the nodes when one more error is put in behind
them. -/
def makeRoom (t : Tree) (ν : NodeId → NodeId) (id : NodeId) : NodeId :=
  if id < t.size then ν id else ν id + 1

/-- A node that is there keeps its number. -/
theorem makeRoom_of_lt {id : NodeId} (h : id < t.size) : t.makeRoom ν id = ν id :=
  if_pos h

/-- A node to come is numbered behind the error. -/
theorem makeRoom_of_le {id : NodeId} (h : t.size ≤ id) : t.makeRoom ν id = ν id + 1 :=
  if_neg (Nat.not_lt.2 h)

/-- Room for an error leaves the nodes in their order. -/
theorem strictMono_makeRoom (hν : StrictMono ν) : StrictMono (t.makeRoom ν) := by
  intro a b hab
  have hlt := hν hab
  rcases Nat.lt_or_ge b t.size with hb | hb
  · rwa [makeRoom_of_lt (Nat.lt_trans hab hb), makeRoom_of_lt hb]
  rw [makeRoom_of_le hb]
  rcases Nat.lt_or_ge a t.size with ha | ha
  · rw [makeRoom_of_lt ha]
    exact Nat.lt_succ_of_lt hlt
  · rw [makeRoom_of_le ha]
    exact Nat.succ_lt_succ hlt

namespace WithErrors

/-- No node is numbered like an error, the new one included. -/
theorem makeRoom_notMem (h : t.WithErrors datatype errors ν u) (id : NodeId) :
    t.makeRoom ν id ∉ errors ++ [u.size] := by
  rw [List.mem_append, List.mem_singleton, not_or]
  rcases Nat.lt_or_ge id t.size with hid | hid
  · rw [makeRoom_of_lt hid]
    exact ⟨h.apart id, Nat.ne_of_lt (h.lt_size hid)⟩
  · -- The number is beyond the second tree, and every old error is in it.
    have hle : u.size ≤ ν id := h.size_eq ▸ h.mono.monotone hid
    rw [makeRoom_of_le hid]
    refine ⟨fun hmem => ?_, Nat.ne_of_gt (Nat.lt_succ_of_le hle)⟩
    obtain ⟨m, hm, -⟩ := h.error hmem
    exact absurd (lt_size_of_getElem? hm) (Nat.not_lt.2 (Nat.le_succ_of_le hle))

/-- A node names none but nodes that were there before the new error. -/
theorem node_makeRoom (ht : t.Closed) (hu : u.Closed) {id : NodeId} {n m : Node}
    (hn : t.nodes[id]? = some n) (hm : u.nodes[ν id]? = some m) (hnm : n.WithErrors errors ν m) :
    n.WithErrors (errors ++ [u.size]) (t.makeRoom ν) m where
  kind := hnm.kind
  parent := by
    rw [hnm.parent]
    cases hparent : n.parent with
    | none => rfl
    | some parent => rw [Option.map_some, Option.map_some, makeRoom_of_lt (ht.parent hn hparent)]
  children := by
    have hnames : ∀ child ∈ n.children.toList, t.makeRoom ν child = ν child := by
      intro child hchild
      have hmem : child ∈ t.children id := by
        rw [Tree.children, hn]
        exact Array.mem_toList_iff.1 hchild
      exact makeRoom_of_lt (ht.child hmem)
    have hold : ∀ child ∈ m.children.toList,
        decide (child ∉ errors ++ [u.size]) = decide (child ∉ errors) := by
      intro child hchild
      have hmem : child ∈ u.children (ν id) := by
        rw [Tree.children, hm]
        exact Array.mem_toList_iff.1 hchild
      simp [Nat.ne_of_lt (hu.child hmem)]
    rw [List.filter_congr hold, List.map_congr_left hnames, hnm.children]
  position := hnm.position
  payload := hnm.payload
  diagnostic := hnm.diagnostic

/-- One more error in the second tree. -/
theorem addError (h : t.WithErrors datatype errors ν u) (ht : t.Closed) (hu : u.Closed)
    (hd : datatype < t.size) (hsame : ν datatype = datatype) (position : Position)
    (payload diagnostic : Option String) :
    t.WithErrors datatype (errors ++ [u.size]) (t.makeRoom ν)
      (u.add datatype .error position payload diagnostic) where
  mono := strictMono_makeRoom h.mono
  size k := by
    rw [makeRoom_of_le (Nat.le_add_right _ _), h.size, size_add]
    exact Nat.add_right_comm _ _ _
  node := by
    intro id n hn
    obtain ⟨m, hm, hnm⟩ := h.node hn
    have hroom := node_makeRoom ht hu hn hm hnm
    rw [makeRoom_of_lt (lt_size_of_getElem? hn)]
    refine ⟨_, getElem?_add_old .error position payload diagnostic (hsame ▸ h.lt_size hd) hm, ?_⟩
    split
    · exact hroom.withError (List.mem_append_right _ List.mem_cons_self)
    · exact hroom
  other := by
    intro id hid herror
    rw [size_add] at hid
    rw [List.mem_append, List.mem_singleton, not_or] at herror
    obtain ⟨k, hk, hkid⟩ := h.other (Nat.lt_of_le_of_ne (Nat.lt_succ_iff.1 hid) herror.2) herror.1
    exact ⟨k, hk, by rw [makeRoom_of_lt hk, hkid]⟩
  apart := h.makeRoom_notMem
  error := by
    intro id hid
    have hud : datatype < u.size := hsame ▸ h.lt_size hd
    rcases List.mem_append.1 hid with hid | hid
    · -- An old error is no datatype, and so it gets no child.
      obtain ⟨m, hm, hm'⟩ := h.error hid
      have hne : datatype ≠ id := fun heq => h.apart datatype (hsame.symm ▸ heq ▸ hid)
      rw [getElem?_add_old .error position payload diagnostic hud hm, if_neg hne]
      exact ⟨m, rfl, hm'⟩
    · rw [List.mem_singleton.1 hid]
      exact ⟨_, getElem?_add_new .error position payload diagnostic hud, rfl, rfl, rfl⟩

end WithErrors

end Tree

/-! ### A sequence with errors -/

/-- The second sequence is the first one with errors put into its
datatype. The next token is judged alike. -/
structure Sequence.WithErrors (errors : List NodeId) (ν : NodeId → NodeId) (s s' : Sequence) :
    Prop where
  datatype : s'.datatype = s.datatype
  same : ν s.datatype = s.datatype
  held : s'.held = s.held
  tree : s.tree.WithErrors s.datatype errors ν s'.tree

namespace Sequence.WithErrors

variable {s s' : Sequence} {errors : List NodeId} {ν : NodeId → NodeId} {token : Token}

/-- A refused token is one more error in the second sequence. -/
theorem refused (h : s.WithErrors errors ν s') {failure : Failure}
    (hj : s'.held.judge token = .refused failure) :
    s.WithErrors (errors ++ [s'.tree.size]) (s.tree.makeRoom ν) (s'.step token) where
  datatype := h.datatype
  same := by rw [Tree.makeRoom_of_lt s.datatype_lt, h.same]
  held := by rw [s'.held_step, digest_of_refused hj, h.held]
  tree := by
    rw [tree_step, digest_of_refused hj, h.datatype]
    exact h.tree.addError s.closed s'.closed s.datatype_lt h.same _ _ _

/-- A token that is taken is digested alike in both sequences. -/
theorem digest (h : s.WithErrors errors ν s')
    (hj : ∀ failure, s'.held.judge token ≠ .refused failure) :
    (s.digest token).tree.WithErrors s.datatype errors ν (s'.digest token).tree ∧
      (s'.digest token).flags = (s.digest token).flags ∧
      (s'.digest token).outcome = (s.digest token).outcome.map ν := by
  have hlt := s.datatype_lt
  have hsame : s'.datatype = ν s.datatype := h.datatype.trans h.same.symm
  -- Each verdict adds the same nodes on both sides, since the flags are the same.
  cases hj' : s'.held.judge token with
  | part kind after =>
      rw [digest_of_part hj', digest_of_part (h.held ▸ hj'), hsame]
      exact ⟨h.tree.add hlt, rfl, congrArg _ h.tree.size_eq.symm⟩
  | composed word after =>
      rw [digest_of_composed hj', digest_of_composed (h.held ▸ hj'), hsame]
      refine ⟨?_, rfl, congrArg _ (h.tree.size 1).symm⟩
      rw [← h.tree.size_eq]
      refine (h.tree.add hlt).add ?_
      rw [Tree.size_add]
      exact Nat.lt_succ_self _
  | tag after =>
      rw [digest_of_tag hj', digest_of_tag (h.held ▸ hj'), hsame, h.tree.tagParent s.closed hlt]
      exact ⟨h.tree.add (s.closed.tagParent_lt hlt), rfl, congrArg _ h.tree.size_eq.symm⟩
  | name =>
      rw [digest_of_name hj', digest_of_name (h.held ▸ hj'), hsame, h.tree.parentOrSelf hlt]
      exact ⟨h.tree.add (s.closed.parentOrSelf_lt hlt), h.held, congrArg _ h.tree.size_eq.symm⟩
  | refused failure => exact absurd hj' (hj failure)

/-- A token that is taken keeps the two sequences the same but for the errors.
-/
theorem taken (h : s.WithErrors errors ν s')
    (hj : ∀ failure, s'.held.judge token ≠ .refused failure) :
    (s.step token).WithErrors errors ν (s'.step token) where
  datatype := h.datatype
  same := h.same
  held := by rw [held_step, held_step, (h.digest hj).2.1]
  tree := (h.digest hj).1

end Sequence.WithErrors

/-! ### A run -/

/-- The node of a refused token. -/
def Digested.refusal? : Digested → Option NodeId
  | .refused id _ => some id
  | _ => none

namespace Sequence

/-- What becomes of the tokens, one after another. -/
def digestions (s : Sequence) : List Token → List Digestion
  | [] => []
  | token :: tokens => s.digest token :: (s.step token).digestions tokens

/-- The tokens that are not refused. -/
def accepted (s : Sequence) : List Token → List Token
  | [] => []
  | token :: tokens =>
      if (s.digest token).outcome.refusal?.isSome then (s.step token).accepted tokens
      else token :: (s.step token).accepted tokens

/-- The nodes of the tokens that are refused. -/
def errors (s : Sequence) (tokens : List Token) : List NodeId :=
  (s.digestions tokens).filterMap (·.outcome.refusal?)

variable {s s' : Sequence} {token : Token}

/-- The errors of a run are those of its first token and of the rest. -/
theorem errors_cons (s : Sequence) (token : Token) (tokens : List Token) :
    s.errors (token :: tokens) =
      (s.digest token).outcome.refusal?.toList ++ (s.step token).errors tokens := by
  rw [errors, digestions, List.filterMap_cons]
  cases (s.digest token).outcome.refusal? <;> rfl

/-- A refusal reports the node of its error, which is the next one. -/
theorem refusal?_of_refused {failure : Failure} (hj : s.held.judge token = .refused failure) :
    (s.digest token).outcome.refusal? = some s.tree.size := by
  rw [digest_of_refused hj]
  rfl

/-- A token that is taken reports no refusal. -/
theorem refusal?_of_taken (hj : ∀ failure, s.held.judge token ≠ .refused failure) :
    (s.digest token).outcome.refusal? = none := by
  cases hj' : s.held.judge token with
  | part kind after => rw [digest_of_part hj']; rfl
  | composed word after => rw [digest_of_composed hj']; rfl
  | tag after => rw [digest_of_tag hj']; rfl
  | name => rw [digest_of_name hj']; rfl
  | refused failure => exact absurd hj' (hj failure)

/-- The node of a digested token is there behind it. -/
theorem map_outcome_congr {ν ν' : NodeId → NodeId}
    (h : ∀ id < (s.digest token).tree.size, ν' id = ν id) :
    (s.digest token).outcome.map ν' = (s.digest token).outcome.map ν := by
  -- Each outcome names one node, which is the last of the tree.
  cases hj : s.held.judge token with
  | part kind after =>
      rw [digest_of_part hj] at h ⊢
      exact congrArg _ (h _ (by rw [Tree.size_addLeaf]; exact Nat.lt_succ_self _))
  | composed word after =>
      rw [digest_of_composed hj] at h ⊢
      refine congrArg _ (h _ ?_)
      rw [Tree.size_addLeaf, Tree.size_addContainer]
      exact Nat.lt_succ_self _
  | tag after =>
      rw [digest_of_tag hj] at h ⊢
      exact congrArg _ (h _ (by rw [Tree.size_addLeaf]; exact Nat.lt_succ_self _))
  | name =>
      rw [digest_of_name hj] at h ⊢
      exact congrArg _ (h _ (by rw [Tree.size_addLeaf]; exact Nat.lt_succ_self _))
  | refused failure =>
      rw [digest_of_refused hj] at h ⊢
      exact congrArg (Digested.refused · failure)
        (h _ (by rw [Tree.size_addFailure]; exact Nat.lt_succ_self _))

/-- Behind errors the tokens are digested as without them. -/
theorem WithErrors.run {errors : List NodeId} {ν : NodeId → NodeId}
    (h : s.WithErrors errors ν s') (tokens : List Token) :
    ∃ ν' : NodeId → NodeId, (∀ id < s.tree.size, ν' id = ν id) ∧
      ((s'.digestions tokens).filter (·.outcome.refusal?.isNone)).map
          (fun r => (r.outcome, r.flags)) =
        (s.digestions (s'.accepted tokens)).map (fun r => (r.outcome.map ν', r.flags)) ∧
      (s.run (s'.accepted tokens)).WithErrors (errors ++ s'.errors tokens) ν' (s'.run tokens) := by
  -- On the tokens: a refused one leaves an error on one side only, and any other is
  -- taken on both.
  induction tokens generalizing s s' errors ν with
  | nil =>
      refine ⟨ν, fun _ _ => rfl, rfl, ?_⟩
      rwa [Sequence.errors, digestions, List.filterMap_nil, List.append_nil]
  | cons token tokens ih =>
      by_cases hj : ∃ failure, s'.held.judge token = .refused failure
      · obtain ⟨failure, hj⟩ := hj
        have hrefusal := refusal?_of_refused hj
        obtain ⟨ν', hν, hdigestions, hrun⟩ := ih (h.refused hj)
        refine ⟨ν', fun id hid => (hν id hid).trans (Tree.makeRoom_of_lt hid), ?_, ?_⟩
        · rw [digestions, List.filter_cons_of_neg (by simp [hrefusal]), accepted,
            if_pos (by simp [hrefusal]), hdigestions]
        · rw [errors_cons, hrefusal, Option.toList_some, ← List.append_assoc, accepted,
            if_pos (by simp [hrefusal]), run_cons]
          exact hrun
      · rw [not_exists] at hj
        have hrefusal := refusal?_of_taken hj
        obtain ⟨-, hflags, houtcome⟩ := h.digest hj
        obtain ⟨ν', hν, hdigestions, hrun⟩ := ih (h.taken hj)
        refine ⟨ν', fun id hid => hν id (s.lt_size_digest token hid), ?_, ?_⟩
        · rw [digestions, List.filter_cons_of_pos (by simp [hrefusal]), accepted,
            if_neg (by simp [hrefusal]), List.map_cons, hdigestions, digestions, List.map_cons,
            hflags, houtcome, map_outcome_congr hν]
        · rw [errors_cons, hrefusal, Option.toList_none, List.nil_append, accepted,
            if_neg (by simp [hrefusal]), run_cons, run_cons]
          exact hrun

/-- Rejected tokens leave no trace but their errors. Of a token that is
refused the sequence keeps the categories that it was judged by and one node
more, an error below the datatype. What the other tokens of a list become, the
categories behind them and the nodes that they leave are those of the list
without the refused ones, the nodes being numbered anew. -/
theorem digestions_accepted (s : Sequence) (tokens : List Token) :
    (∀ token id failure, ((s.run tokens).digest token).outcome = .refused id failure →
      (s.run tokens).digest token =
        ⟨(s.run tokens).tree.addFailure s.datatype token failure, (s.run tokens).held,
          .refused (s.run tokens).tree.size failure⟩) ∧
    ∃ ν : NodeId → NodeId, (∀ id < s.tree.size, ν id = id) ∧
      ((s.digestions tokens).filter (·.outcome.refusal?.isNone)).map
          (fun r => (r.outcome, r.flags)) =
        (s.digestions (s.accepted tokens)).map (fun r => (r.outcome.map ν, r.flags)) ∧
      (s.run (s.accepted tokens)).tree.WithErrors s.datatype (s.errors tokens) ν
        (s.run tokens).tree := by
  constructor
  · intro token id failure houtcome
    have hrefusal : ((s.run tokens).digest token).outcome.refusal? = some id := by
      rw [houtcome]
      rfl
    cases hj : (s.run tokens).held.judge token with
    | refused failure' =>
        rw [digest_of_refused hj, Digested.refused.injEq] at houtcome
        obtain ⟨-, rfl⟩ := houtcome
        rw [digest_of_refused hj, datatype_run]
    | _ =>
        rw [refusal?_of_taken (by rw [hj]; nofun)] at hrefusal
        cases hrefusal
  -- The run without the refused tokens begins with no error.
  · have hself : s.WithErrors [] id s := ⟨rfl, rfl, rfl, .refl s.datatype s.tree⟩
    obtain ⟨ν, hν, hdigestions, hrun⟩ := hself.run tokens
    have htree := hrun.tree
    rw [datatype_run, List.nil_append] at htree
    exact ⟨ν, hν, hdigestions, htree⟩

end Sequence

end CDeclarations
