import CDeclarations.Tree.TokenNode

/-!
# `CDeclarations.Proofs.Tree.Growth`: what a look-up finds in a grown tree

`Tree.add` appends one node. The parser only ever appends under a node
that is already there, and the look-ups it makes (kind, parent,
children) then follow from the look-ups before the append:

* `kind?_add`, `parentOrSelf_add`, `children_add`: each look-up in the
  grown tree, in terms of the same look-up in the tree before.
* `Grows t u`: every node of `t` is in `u` with the same fields, but
  that `u` may have further children behind its own. An append is such
  a step (`grows_add`).
* `Linked t`: parents and children name each other, and a parent has a
  smaller index than its children. An append under a present node keeps
  it (`Linked.add`).
* `Regular t`: the tree is linked and nothing hangs below a comment.
  Every tree of the parser is regular; an append under a stem, a node
  that is no comment, keeps it (`Regular.add`).
-/

set_option autoImplicit false

namespace CDeclarations

/-- The node with one further child. -/
def Node.withChild (n : Node) (child : NodeId) : Node :=
  { n with children := n.children.push child }

/-- The fields of `n` are those of `m`, which may have further
children behind those of `n`. -/
structure Node.Grows (n m : Node) : Prop where
  kind : m.kind = n.kind
  parent : m.parent = n.parent
  children : n.children.toList <+: m.children.toList
  position : m.position = n.position
  payload : m.payload = n.payload
  diagnostic : m.diagnostic = n.diagnostic

/-- A node grows into itself. -/
theorem Node.Grows.refl (n : Node) : n.Grows n :=
  ⟨rfl, rfl, List.prefix_rfl, rfl, rfl, rfl⟩

/-- Growing twice is growing. -/
theorem Node.Grows.trans {n m k : Node} (h : n.Grows m) (h' : m.Grows k) : n.Grows k where
  kind := h'.kind.trans h.kind
  parent := h'.parent.trans h.parent
  children := h.children.trans h'.children
  position := h'.position.trans h.position
  payload := h'.payload.trans h.payload
  diagnostic := h'.diagnostic.trans h.diagnostic

namespace Tree

/-- Every node of `t` is in `u`, where it may have further children. -/
def Grows (t u : Tree) : Prop :=
  ∀ (id : NodeId) (n : Node), t.nodes[id]? = some n → ∃ m, u.nodes[id]? = some m ∧ n.Grows m

/-- The node `id` is of the kind `kind` and hangs below `parent`. -/
def Holds (t : Tree) (id : NodeId) (kind : NodeKind) (parent : NodeId) : Prop :=
  ∃ n, t.nodes[id]? = some n ∧ n.kind = kind ∧ n.parent = some parent

/-- The node `id` is there and is no comment, so that something may
hang below it. -/
def Stem (t : Tree) (id : NodeId) : Prop :=
  ∃ n, t.nodes[id]? = some n ∧ n.kind.isComment = false

/-- Parents and children name each other. The root is the one node
without a parent, and a parent has a smaller index than its
children. -/
structure Linked (t : Tree) : Prop where
  root : ∃ n, t.nodes[Tree.root]? = some n ∧ n.parent = none
  parent : ∀ {id : NodeId} {n : Node}, t.nodes[id]? = some n → id ≠ Tree.root →
    ∃ q, n.parent = some q ∧ q < id ∧ id ∈ t.children q
  child : ∀ {q c : NodeId}, c ∈ t.children q → ∃ n, t.nodes[c]? = some n ∧ n.parent = some q

/-- The tree is linked, and nothing hangs below a comment. -/
structure Regular (t : Tree) : Prop extends Linked t where
  stem_root : t.Stem Tree.root
  stem_parent : ∀ {id : NodeId} {n : Node} {q : NodeId}, t.nodes[id]? = some n →
    n.parent = some q → t.Stem q

/-- Trees with the same list of nodes are the same. -/
theorem eq_of_toList {t u : Tree} (h : t.nodes.toList = u.nodes.toList) : t = u :=
  congrArg Tree.mk (Array.toList_inj.1 h)

/-- Trees with the same node under every number are the same. -/
theorem eq_of_getElem? {t u : Tree} (h : ∀ id : Nat, t.nodes[id]? = u.nodes[id]?) : t = u :=
  congrArg Tree.mk (Array.ext_getElem? h)

/-- A number with a node is below the size. -/
theorem lt_size_of_getElem? {t : Tree} {id : NodeId} {n : Node} (h : t.nodes[id]? = some n) :
    id < t.size :=
  (Array.getElem?_eq_some_iff.1 h).1

/-! ### What is known of one node -/

section Holds

variable {t : Tree} {id parent : NodeId} {kind : NodeKind}

/-- A node that is held has its kind. -/
theorem Holds.kind? (h : t.Holds id kind parent) : t.kind? id = some kind := by
  obtain ⟨n, hn, hk, -⟩ := h
  rw [Tree.kind?, hn, Option.map_some, hk]

/-- A node that is held climbs to its parent. -/
theorem Holds.parentOrSelf (h : t.Holds id kind parent) : t.parentOrSelf id = parent := by
  obtain ⟨n, hn, -, hp⟩ := h
  rw [Tree.parentOrSelf, hn, Option.bind_some, hp, Option.getD_some]

/-- A node of a kind that is no comment can hold children. -/
theorem Holds.stem (h : t.Holds id kind parent) (hk : kind.isComment = false) : t.Stem id := by
  obtain ⟨n, hn, rfl, -⟩ := h
  exact ⟨n, hn, hk⟩

/-- A node that is held is a node of the tree. -/
theorem Holds.lt_size (h : t.Holds id kind parent) : id < t.size := by
  obtain ⟨n, hn, -, -⟩ := h
  exact lt_size_of_getElem? hn

/-- A node that can hold children is a node of the tree. -/
theorem Stem.lt_size (h : t.Stem id) : id < t.size := by
  obtain ⟨n, hn, -⟩ := h
  exact lt_size_of_getElem? hn

/-- A node whose kind is no comment can hold children. -/
theorem stem_of_kind? (h : t.kind? id = some kind) (hk : kind.isComment = false) :
    t.Stem id := by
  obtain ⟨n, hn, rfl⟩ := Option.map_eq_some_iff.1 h
  exact ⟨n, hn, hk⟩

/-- No node, no children. -/
theorem children_of_le (h : t.size ≤ id) : t.children id = #[] := by
  rw [children, Array.getElem?_eq_none h]

/-- A node that has children is there. -/
theorem lt_size_of_mem_children {c : NodeId} (h : c ∈ t.children id) : id < t.size := by
  apply Nat.lt_of_not_le
  intro hle
  rw [children_of_le hle] at h
  simp at h

/-- A tree that holds nothing but a root has no node but the root. -/
theorem eq_of_getElem?_ofRoot {filename : String} {n : Node}
    (hn : (ofRoot kind filename).nodes[id]? = some n) :
    id = root ∧ n = ⟨kind, none, #[], .nowhere, some filename, none⟩ := by
  have hlt : id < 1 := lt_size_of_getElem? hn
  obtain rfl := Nat.lt_one_iff.1 hlt
  exact ⟨rfl, (Option.some.inj hn).symm⟩

/-- A root alone has no children. -/
theorem children_ofRoot (kind : NodeKind) (filename : String) (id : NodeId) :
    (ofRoot kind filename).children id = #[] := by
  rcases Nat.lt_or_ge id 1 with hlt | hge
  · obtain rfl := Nat.lt_one_iff.1 hlt
    rfl
  · exact children_of_le hge

/-- A climb leads to a node that can hold children. -/
theorem Regular.stem_parentOrSelf (ht : t.Regular) (h : t.Stem id) :
    t.Stem (t.parentOrSelf id) := by
  obtain ⟨n, hn, hk⟩ := h
  rw [parentOrSelf, hn, Option.bind_some]
  cases hp : n.parent with
  | none => exact ⟨n, hn, hk⟩
  | some q => exact ht.stem_parent hn hp

end Holds

/-- A linked tree has its root. -/
theorem Linked.size_pos {t : Tree} (ht : t.Linked) : 0 < t.size := by
  obtain ⟨n, hn, -⟩ := ht.root
  exact lt_size_of_getElem? hn

/-- The root has no parent, so that a node that has one is another
node. -/
theorem Linked.ne_root {t : Tree} (ht : t.Linked) {id parent : NodeId} {kind : NodeKind}
    (h : t.Holds id kind parent) : id ≠ Tree.root := by
  rintro rfl
  obtain ⟨n, hn, -, hp⟩ := h
  obtain ⟨m, hm, hroot⟩ := ht.root
  obtain rfl : m = n := Option.some.inj (hm.symm.trans hn)
  rw [hroot] at hp
  cases hp

/-- A parent comes before its children. -/
theorem Holds.parent_lt {t : Tree} (ht : t.Linked) {id parent : NodeId} {kind : NodeKind}
    (h : t.Holds id kind parent) : parent < id := by
  have hne := ht.ne_root h
  obtain ⟨n, hn, -, hp⟩ := h
  obtain ⟨q, hq, hlt, -⟩ := ht.parent hn hne
  rw [hp] at hq
  exact Option.some.inj hq ▸ hlt

/-! ### Growth -/

/-- A tree grows into itself. -/
theorem Grows.refl (t : Tree) : t.Grows t :=
  fun _ n hn => ⟨n, hn, .refl n⟩

/-- Growing twice is growing. -/
theorem Grows.trans {t u v : Tree} (h : t.Grows u) (h' : u.Grows v) : t.Grows v := by
  intro id n hn
  obtain ⟨m, hm, hnm⟩ := h id n hn
  obtain ⟨k, hk, hmk⟩ := h' id m hm
  exact ⟨k, hk, hnm.trans hmk⟩

/-- A tree that grows keeps the kinds and parents of its nodes. -/
theorem Holds.mono {t u : Tree} {id q : NodeId} {k : NodeKind} (h : t.Holds id k q)
    (hg : t.Grows u) : u.Holds id k q := by
  obtain ⟨n, hn, hk, hq⟩ := h
  obtain ⟨m, hm, hnm⟩ := hg id n hn
  exact ⟨m, hm, hnm.kind.trans hk, hnm.parent.trans hq⟩

/-- A node that can hold children still can. -/
theorem Stem.mono {t u : Tree} {id : NodeId} (h : t.Stem id) (hg : t.Grows u) : u.Stem id := by
  obtain ⟨n, hn, hk⟩ := h
  obtain ⟨m, hm, hnm⟩ := hg id n hn
  exact ⟨m, hm, hnm.kind ▸ hk⟩

/-! ### Look-ups in a grown tree -/

section Add

variable {t : Tree} {parent : NodeId} (kind : NodeKind) (position : Position)
  (payload diagnostic : Option String)

/-- The nodes of a grown tree: the new one has no child yet, and its
parent has one more. -/
theorem getElem?_add (h : parent < t.size) (id : NodeId) :
    (t.add parent kind position payload diagnostic).nodes[id]? =
      if id = t.size then some ⟨kind, some parent, #[], position, payload, diagnostic⟩
      else t.nodes[id]?.map fun n => if parent = id then n.withChild t.size else n := by
  -- An old node, the new node, or no node at all.
  rcases Nat.lt_trichotomy id t.size with hlt | rfl | hgt
  · rw [getElem?_add_of_lt t parent kind position payload diagnostic hlt,
      if_neg (Nat.ne_of_lt hlt)]
    rfl
  · rw [getElem?_add_size, if_pos rfl, if_neg (Nat.ne_of_lt h)]
  · have hnew : (t.add parent kind position payload diagnostic).nodes[id]? = none := by
      apply Array.getElem?_eq_none
      have := size_add t parent kind position payload diagnostic
      unfold size at this hgt
      omega
    have hold : t.nodes[id]? = none := Array.getElem?_eq_none (Nat.le_of_lt hgt)
    rw [hnew, hold, if_neg (Nat.ne_of_gt hgt), Option.map_none]

/-- An old node of a grown tree, which may have one more child. -/
theorem getElem?_add_old (h : parent < t.size) {id : NodeId} {n : Node}
    (hn : t.nodes[id]? = some n) :
    (t.add parent kind position payload diagnostic).nodes[id]? =
      some (if parent = id then n.withChild t.size else n) := by
  rw [getElem?_add kind position payload diagnostic h,
    if_neg (Nat.ne_of_lt (lt_size_of_getElem? hn)), hn, Option.map_some]

/-- The new node of a grown tree. -/
theorem getElem?_add_new (h : parent < t.size) :
    (t.add parent kind position payload diagnostic).nodes[t.size]? =
      some ⟨kind, some parent, #[], position, payload, diagnostic⟩ := by
  rw [getElem?_add kind position payload diagnostic h, if_pos rfl]

/-- The nodes of a grown tree as a list. -/
theorem toList_add (h : parent < t.size) :
    (t.add parent kind position payload diagnostic).nodes.toList =
      t.nodes.toList.modify parent (·.withChild t.size) ++
        [⟨kind, some parent, #[], position, payload, diagnostic⟩] := by
  simp [add, Nat.ne_of_lt h, Node.withChild]

/-- The kinds in a tree with one node more. -/
theorem kind?_add (h : parent < t.size) (id : NodeId) :
    (t.add parent kind position payload diagnostic).kind? id =
      if id = t.size then some kind else t.kind? id := by
  rw [kind?, getElem?_add kind position payload diagnostic h]
  split
  · rfl
  · rw [kind?, Option.map_map]
    congr 1
    funext n
    show Node.kind (if parent = id then _ else n) = n.kind
    split <;> rfl

/-- The parents in a tree with one node more. -/
theorem parentOrSelf_add (h : parent < t.size) (id : NodeId) :
    (t.add parent kind position payload diagnostic).parentOrSelf id =
      if id = t.size then parent else t.parentOrSelf id := by
  rw [parentOrSelf, getElem?_add kind position payload diagnostic h]
  split
  · rfl
  · rw [parentOrSelf]
    cases t.nodes[id]? with
    | none => rfl
    | some n =>
        show (Node.parent (if parent = id then _ else n)).getD id = n.parent.getD id
        split <;> rfl

/-- The children in a tree with one node more, which is the last child of its
parent. -/
theorem children_add (h : parent < t.size) (id : NodeId) :
    (t.add parent kind position payload diagnostic).children id =
      if id = parent then (t.children id).push t.size else t.children id := by
  rw [children, getElem?_add kind position payload diagnostic h]
  rcases Nat.lt_or_ge id t.size with hlt | hge
  · obtain ⟨n, hn⟩ : ∃ n, t.nodes[id]? = some n := ⟨_, Array.getElem?_eq_getElem hlt⟩
    rw [if_neg (Nat.ne_of_lt hlt), children, hn]
    by_cases hid : id = parent
    · subst hid
      simp [Node.withChild]
    · simp [hid, Ne.symm hid]
  · have hne : id ≠ parent := fun hid => absurd (hid ▸ hge) (Nat.not_le.2 h)
    rw [if_neg hne, children_of_le hge]
    by_cases hid : id = t.size
    · rw [if_pos hid]
    · rw [if_neg hid, Array.getElem?_eq_none hge, Option.map_none]

/-- The new node is the only new child. -/
theorem mem_children_add (h : parent < t.size) {id c : NodeId} :
    c ∈ (t.add parent kind position payload diagnostic).children id ↔
      c ∈ t.children id ∨ (id = parent ∧ c = t.size) := by
  rw [children_add kind position payload diagnostic h]
  split
  · next hid => simp [hid]
  · next hid => simp [hid]

/-- The new node is of its kind and hangs below its parent. -/
theorem holds_add (h : parent < t.size) :
    (t.add parent kind position payload diagnostic).Holds t.size kind parent :=
  ⟨_, getElem?_add_new kind position payload diagnostic h, rfl, rfl⟩

variable {kind position payload diagnostic}

/-- A tree grows with a node added below one that is there. -/
theorem grows_add (h : parent < t.size) :
    t.Grows (t.add parent kind position payload diagnostic) := by
  intro id n hn
  refine ⟨_, getElem?_add_old kind position payload diagnostic h hn, ?_⟩
  split
  · exact ⟨rfl, rfl, by simp [Node.withChild], rfl, rfl, rfl⟩
  · exact Node.Grows.refl n

/-- An append under a present node leaves the tree linked. -/
theorem Linked.add (ht : t.Linked) (h : parent < t.size) :
    (t.add parent kind position payload diagnostic).Linked where
  root := by
    obtain ⟨n, hn, hp⟩ := ht.root
    obtain ⟨m, hm, hnm⟩ := grows_add h _ n hn
    exact ⟨m, hm, hnm.parent.trans hp⟩
  parent := by
    intro id m hm hid
    rw [getElem?_add kind position payload diagnostic h] at hm
    split at hm
    -- The new node has the parent it was added below.
    · next hsize =>
        cases hm
        exact ⟨parent, rfl, hsize ▸ h,
          (mem_children_add kind position payload diagnostic h).2 (Or.inr ⟨rfl, hsize⟩)⟩
    · obtain ⟨n, hn, rfl⟩ := Option.map_eq_some_iff.1 hm
      obtain ⟨q, hq, hlt, hmem⟩ := ht.parent hn hid
      refine ⟨q, ?_, hlt, (mem_children_add kind position payload diagnostic h).2 (Or.inl hmem)⟩
      split <;> exact hq
  child := by
    intro q c hc
    rcases (mem_children_add kind position payload diagnostic h).1 hc with hc | ⟨rfl, rfl⟩
    · obtain ⟨n, hn, hp⟩ := ht.child hc
      obtain ⟨m, hm, hnm⟩ := grows_add h _ n hn
      exact ⟨m, hm, hnm.parent.trans hp⟩
    · obtain ⟨n, hn, -, hp⟩ := holds_add kind position payload diagnostic h
      exact ⟨n, hn, hp⟩

/-- An append under a stem leaves the tree regular. -/
theorem Regular.add (ht : t.Regular) (h : t.Stem parent) :
    (t.add parent kind position payload diagnostic).Regular where
  toLinked := ht.toLinked.add h.lt_size
  stem_root := ht.stem_root.mono (grows_add h.lt_size)
  stem_parent := by
    intro id m q hm hq
    rw [getElem?_add kind position payload diagnostic h.lt_size] at hm
    split at hm
    -- The parent of the new node can hold children by `h`.
    · cases hm
      cases hq
      exact h.mono (grows_add h.lt_size)
    · obtain ⟨n, hn, rfl⟩ := Option.map_eq_some_iff.1 hm
      have hnq : n.parent = some q := by
        split at hq <;> exact hq
      exact (ht.stem_parent hn hnq).mono (grows_add h.lt_size)

end Add

/-! ### Nodes of tokens -/

section Token

variable {t : Tree} {parent : NodeId}

/-- A tree grows with a leaf. -/
theorem grows_addLeaf (h : parent < t.size) (kind : NodeKind) (token : Token) :
    t.Grows (t.addLeaf parent kind token) :=
  grows_add h

/-- A tree grows with a container. -/
theorem grows_addContainer (h : parent < t.size) (kind : NodeKind) (token : Token) :
    t.Grows (t.addContainer parent kind token) :=
  grows_add h

/-- A new container has its kind and its parent. -/
theorem holds_addContainer (h : parent < t.size) (kind : NodeKind) (token : Token) :
    (t.addContainer parent kind token).Holds t.size kind parent :=
  holds_add kind token.position none none h

/-- An opening bracket adds three nodes: a container, the bracket in it
and the container of what the bracket opens. -/
theorem Regular.addBracket (ht : t.Regular) (h : t.Stem parent) (outer : NodeKind)
    (houter : outer.isComment = false) (bracket inner : NodeKind) (token : Token) :
    let u := ((t.addContainer parent outer token).addLeaf t.size bracket token).addContainer
      t.size inner token
    u.Regular ∧ t.Grows u ∧ u.Holds t.size outer parent ∧ u.Holds (t.size + 2) inner t.size := by
  -- The outer container stays where it is while the other two are added below it.
  have h₁ := holds_addContainer h.lt_size outer token
  have h₂ := h₁.mono (grows_addLeaf h₁.lt_size bracket token)
  have hg := (grows_addContainer h.lt_size outer token).trans
    (grows_addLeaf h₁.lt_size bracket token)
  have h₃ := holds_addContainer h₂.lt_size inner token
  rw [size_addLeaf, size_addContainer] at h₃
  exact ⟨((ht.add h).add (h₁.stem houter)).add (h₂.stem houter),
    hg.trans (grows_addContainer h₂.lt_size inner token),
    h₂.mono (grows_addContainer h₂.lt_size inner token), h₃⟩

end Token

/-- The tree of a unit without declarations is regular. -/
theorem regular_ofUnit (kind : UnitKind) (filename : String) :
    (ofUnit kind filename).Regular := by
  -- The only node is the root, which has neither parent nor children.
  refine ⟨⟨⟨_, rfl, rfl⟩, ?_, ?_⟩, ⟨_, rfl, by cases kind <;> rfl⟩, ?_⟩
  · intro id n hn hid
    exact absurd (eq_of_getElem?_ofRoot hn).1 hid
  · intro q c hc
    rw [ofUnit, children_ofRoot] at hc
    exact absurd hc (Array.not_mem_empty c)
  · intro id n q hn hq
    obtain ⟨-, rfl⟩ := eq_of_getElem?_ofRoot hn
    cases hq

end Tree

end CDeclarations
