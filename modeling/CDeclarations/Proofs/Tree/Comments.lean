import CDeclarations.Proofs.Parser.View

/-!
# `CDeclarations.Proofs.Tree.Comments`: a tree without its comments

Nothing hangs below a comment, so a tree stays a tree when its comments
are taken out and the nodes left are numbered anew, in their order.

* `Tree.rank`: the new number of a node.
* `withoutComments_add`: an append of any other node is an append in
  the tree without comments.
* `withoutComments_add_comment`: an append of a comment is none.
* `View.withoutComments`: so a parse runs on its tree without comments
  as it runs on its tree.
-/

set_option autoImplicit false

namespace CDeclarations

/-- The node is no comment. -/
def Node.isKept (n : Node) : Bool :=
  !n.kind.isComment

/-- A node that is no comment is kept. -/
theorem Node.isKept_eq_true {n : Node} (h : n.kind.isComment = false) : n.isKept = true := by
  rw [Node.isKept, h]
  rfl

/-- A child more does not change whether a node is kept. -/
theorem Node.isKept_withChild (n : Node) (child : NodeId) :
    (n.withChild child).isKept = n.isKept :=
  rfl

namespace Tree

/-- The number of a node when comments are not counted. A node to come
is numbered behind those that are there. -/
def rank (t : Tree) (id : NodeId) : Nat :=
  (t.nodes.toList.take id).countP Node.isKept + (id - t.size)

/-- The numbers of some nodes, comments left out. -/
def ranks (t : Tree) (ids : Array NodeId) : Array NodeId :=
  (ids.filter fun id => (t.kind? id).any fun k => !k.isComment).map t.rank

/-- The node with its parent and its children by their numbers. -/
def renumber (t : Tree) (n : Node) : Node :=
  { n with parent := n.parent.map t.rank, children := t.ranks n.children }

/-- The tree with its comments taken out. -/
def withoutComments (t : Tree) : Tree :=
  ⟨(t.nodes.filter Node.isKept).map t.renumber⟩

/-! ### Selecting from a list -/

section Select

variable {α : Type} {p : α → Bool}

/-- A selected element is found behind the selected ones before it. -/
theorem getElem?_filter_countP_take {l : List α} {i : Nat} {x : α} (h : l[i]? = some x)
    (hx : p x = true) : (l.filter p)[(l.take i).countP p]? = some x := by
  -- Each element before the index counts for one place, if it is selected.
  induction l generalizing i with
  | nil => simp at h
  | cons a l ih =>
      cases i with
      | zero =>
          obtain rfl : a = x := by simpa using h
          simp [hx]
      | succ i =>
          have hl : l[i]? = some x := by simpa using h
          cases ha : p a with
          | true => simp [ha, ih hl]
          | false => simp [ha, ih hl]

/-- A change to a selected element that leaves it selected is a change
to the selection. -/
theorem filter_modify {f : α → α} (hf : ∀ x, p (f x) = p x) {l : List α} {i : Nat} {x : α}
    (h : l[i]? = some x) (hx : p x = true) :
    (l.modify i f).filter p = (l.filter p).modify ((l.take i).countP p) f := by
  induction l generalizing i with
  | nil => simp at h
  | cons a l ih =>
      -- The entry that is changed is the first one, or stands in the rest.
      cases i with
      | zero =>
          obtain rfl : a = x := by simpa using h
          simp [hx, hf]
      | succ i =>
          have hl : l[i]? = some x := by simpa using h
          cases ha : p a with
          | true => simp [ha, ih hl]
          | false => simp [ha, ih hl]

/-- A change that leaves an element selected or unselected leaves the
count. -/
theorem countP_take_modify {f : α → α} (hf : ∀ x, p (f x) = p x) (l : List α) (i k : Nat) :
    ((l.modify i f).take k).countP p = (l.take k).countP p := by
  induction l generalizing i k with
  | nil => simp
  | cons a l ih =>
      cases k with
      | zero => simp
      | succ k =>
          cases i with
          | zero => simp [List.countP_cons, hf]
          | succ i => simp [List.countP_cons, ih]

/-- A change before a map is a change behind it, where the maps agree
on what is not changed. -/
theorem map_modify_eq {β : Type} {f : α → α} {f' : β → β} {g g' : α → β} {l : List α} {i : Nat}
    (hg : ∀ x ∈ l, g' x = g x) (hf : ∀ x, l[i]? = some x → g' (f x) = f' (g x)) :
    (l.modify i f).map g' = (l.map g).modify i f' := by
  apply List.ext_getElem?
  intro j
  rw [List.getElem?_map, List.getElem?_modify, List.getElem?_modify, List.getElem?_map]
  cases hj : l[j]? with
  | none => rfl
  | some x =>
      show some (g' (if i = j then f x else x)) = some (if i = j then f' (g x) else g x)
      split
      · next hij => rw [hf x (hij ▸ hj)]
      · rw [hg x (List.mem_of_getElem? hj)]

end Select

/-! ### The numbers of the nodes -/

section Rank

variable {t : Tree} {parent : NodeId} {kind : NodeKind} {position : Position}
  {payload diagnostic : Option String}

/-- A node that is there is numbered by the nodes before it. -/
theorem rank_of_le {id : NodeId} (h : id ≤ t.size) :
    t.rank id = (t.nodes.toList.take id).countP Node.isKept := by
  rw [rank, Nat.sub_eq_zero_of_le h, Nat.add_zero]

/-- The nodes before `id` in a grown tree are those before it in the
tree, and the new node where it is before `id`. -/
theorem rank_add (h : parent < t.size) (id : NodeId) :
    (t.add parent kind position payload diagnostic).rank id =
      (t.nodes.toList.take id).countP Node.isKept +
        (if t.size < id ∧ kind.isComment = false then 1 else 0) + (id - (t.size + 1)) := by
  have hsize : t.nodes.toList.length = t.size := Array.length_toList
  rw [rank, size_add, toList_add _ _ _ _ h, List.take_append, List.countP_append,
    countP_take_modify (Node.isKept_withChild · _), List.length_modify, hsize]
  congr 2
  -- Behind the new node the numbers are one higher if it is kept.
  rcases Nat.lt_or_ge t.size id with hlt | hle
  · obtain ⟨k, hk⟩ := Nat.exists_eq_add_of_lt hlt
    have hsub : id - t.size = k + 1 := Nat.sub_eq_of_eq_add (by rw [hk]; omega)
    rw [hsub, List.take_succ_cons, List.take_nil, List.countP_singleton]
    simp [hlt, Node.isKept]
  · rw [Nat.sub_eq_zero_of_le hle]
    simp [Nat.not_lt.2 hle]

/-- A node that is no comment changes no number. -/
theorem rank_add_of_kept (h : parent < t.size) (hk : kind.isComment = false) :
    (t.add parent kind position payload diagnostic).rank = t.rank := by
  funext id
  rw [rank_add h, rank]
  rcases Nat.lt_or_ge t.size id with hlt | hle
  · rw [if_pos ⟨hlt, hk⟩]
    omega
  · rw [if_neg (fun hboth => Nat.not_lt.2 hle hboth.1)]
    omega

/-- An old node keeps its number whatever is appended. -/
theorem rank_add_of_le (h : parent < t.size) {id : NodeId} (hle : id ≤ t.size) :
    (t.add parent kind position payload diagnostic).rank id = t.rank id := by
  rw [rank_add h, rank, if_neg (fun hboth => Nat.not_lt.2 hle hboth.1),
    Nat.sub_eq_zero_of_le hle, Nat.sub_eq_zero_of_le (Nat.le_succ_of_le hle)]

end Rank

/-! ### Look-ups without comments -/

section LookUp

variable {t : Tree} {id : NodeId}

/-- Without comments the tree has the nodes that are kept. -/
theorem size_withoutComments : t.withoutComments.size = t.nodes.toList.countP Node.isKept := by
  rw [size, withoutComments, Array.size_map, ← Array.length_toList, Array.toList_filter,
    List.countP_eq_length_filter]

/-- Nodes to come are numbered behind the tree without comments. -/
theorem rank_size_add (t : Tree) (k : Nat) :
    t.rank (t.size + k) = t.withoutComments.size + k := by
  have hall : t.nodes.toList.take (t.size + k) = t.nodes.toList :=
    List.take_of_length_le (by rw [Array.length_toList]; exact Nat.le_add_right _ _)
  rw [rank, hall, size_withoutComments, Nat.add_sub_cancel_left]

/-- A node that is no comment is found at its number. -/
theorem getElem?_withoutComments {n : Node} (hn : t.nodes[id]? = some n)
    (hk : n.kind.isComment = false) :
    t.withoutComments.nodes[t.rank id]? = some (t.renumber n) := by
  have hlt := lt_size_of_getElem? hn
  have hfind := getElem?_filter_countP_take (p := Node.isKept) (l := t.nodes.toList)
    (by rw [Array.getElem?_toList]; exact hn) (Node.isKept_eq_true hk)
  rw [withoutComments, rank_of_le (Nat.le_of_lt hlt), Array.getElem?_map,
    ← Array.getElem?_toList, Array.toList_filter, hfind, Option.map_some]

/-- A node that is no comment keeps its kind. -/
theorem kind?_withoutComments (h : t.Stem id) :
    t.withoutComments.kind? (t.rank id) = t.kind? id := by
  obtain ⟨n, hn, hk⟩ := h
  rw [kind?, kind?, getElem?_withoutComments hn hk, hn]
  rfl

/-- A node that is no comment keeps its parent. -/
theorem parentOrSelf_withoutComments (h : t.Stem id) :
    t.withoutComments.parentOrSelf (t.rank id) = t.rank (t.parentOrSelf id) := by
  obtain ⟨n, hn, hk⟩ := h
  rw [parentOrSelf, parentOrSelf, getElem?_withoutComments hn hk, hn]
  show (n.parent.map t.rank).getD (t.rank id) = t.rank (n.parent.getD id)
  cases n.parent <;> rfl

/-- A node that is no comment keeps those children that are no comments. -/
theorem children_withoutComments (h : t.Stem id) :
    t.withoutComments.children (t.rank id) = t.ranks (t.children id) := by
  obtain ⟨n, hn, hk⟩ := h
  rw [children, children, getElem?_withoutComments hn hk, hn]
  rfl

/-- A kept child is a stem. -/
theorem stem_of_any {c : NodeId} (h : ((t.kind? c).any fun k => !k.isComment) = true) :
    t.Stem c := by
  cases hc : t.kind? c with
  | none => rw [hc] at h; cases h
  | some k =>
      rw [hc] at h
      exact stem_of_kind? hc (by simpa using h)

/-- Comments do not begin a datatype. -/
theorem isUnbegun_withoutComments (ht : t.Linked) (h : t.Stem id) :
    t.withoutComments.isUnbegun (t.rank id) = t.isUnbegun id := by
  rw [isUnbegun, isUnbegun, children_withoutComments h, ranks, Bool.eq_iff_iff, Array.all_eq_true',
    Array.all_eq_true']
  constructor
  · -- A child that is no comment would be left.
    intro hleft c hc
    obtain ⟨n, hn, -⟩ := ht.child hc
    have hkind : t.kind? c = some n.kind := by rw [kind?, hn, Option.map_some]
    cases hk : n.kind.isComment with
    | true => rw [hkind, Option.any_some, hk]
    | false =>
        have hstem : t.Stem c := ⟨n, hn, hk⟩
        have hmem := hleft (t.rank c) (Array.mem_map_of_mem (Array.mem_filter.2
          ⟨hc, by rw [hkind, Option.any_some, hk]; rfl⟩))
        rwa [kind?_withoutComments hstem] at hmem
  · -- Where all children are comments, none is left.
    intro hall c hc
    obtain ⟨d, hd, -⟩ := Array.mem_map.1 hc
    obtain ⟨hd, hkept⟩ := Array.mem_filter.1 hd
    have hcomment := hall d hd
    cases hkind : t.kind? d with
    | none => rw [hkind] at hkept; cases hkept
    | some k => rw [hkind] at hkept hcomment; simp_all

/-- A tag goes under the same node with or without comments. -/
theorem tagParent_withoutComments (h : t.Stem id) :
    t.withoutComments.tagParent (t.rank id) = t.rank (t.tagParent id) := by
  have htypes : t.withoutComments.childrenOfKind (t.rank id) .userType =
      (t.childrenOfKind id .userType).map t.rank := by
    rw [childrenOfKind, childrenOfKind, children_withoutComments h, ranks, Array.filter_map,
      Array.filter_filter]
    congr 2
    funext c
    show (decide (t.withoutComments.kind? (t.rank c) = some .userType) && _) = _
    cases hkept : (t.kind? c).any fun k => !k.isComment with
    | true => rw [Bool.and_true, kind?_withoutComments (stem_of_any hkept)]
    | false =>
        -- A node that is left out is a comment, and no type.
        rw [Bool.and_false, eq_comm, decide_eq_false_iff_not]
        intro htype
        rw [htype] at hkept
        cases hkept
  rw [tagParent, tagParent, htypes, Array.back?_map]
  cases (t.childrenOfKind id .userType).back? <;> rfl

end LookUp

/-! ### Appending -/

section Append

variable {t : Tree} {parent : NodeId} {kind : NodeKind} {position : Position}
  {payload diagnostic : Option String}

/-- Old nodes have the numbers that they had. -/
theorem ranks_add (kind : NodeKind) (h : parent < t.size) {ids : Array NodeId}
    (hids : ∀ id ∈ ids, id < t.size) :
    (t.add parent kind position payload diagnostic).ranks ids = t.ranks ids := by
  -- The numbers are of old nodes, whose kinds stay.
  have hkept : (ids.filter fun id =>
      ((t.add parent kind position payload diagnostic).kind? id).any fun k => !k.isComment) =
      ids.filter fun id => (t.kind? id).any fun k => !k.isComment := by
    rw [← Array.toList_inj, Array.toList_filter, Array.toList_filter]
    apply List.filter_congr
    intro id hid
    rw [kind?_add kind position payload diagnostic h,
      if_neg (Nat.ne_of_lt (hids id (Array.mem_toList_iff.1 hid)))]
  rw [ranks, ranks, hkept]
  apply Array.map_congr_left
  intro id hid
  exact rank_add_of_le h (Nat.le_of_lt (hids id (Array.mem_filter.1 hid).1))

/-- A child is a node of the tree. -/
theorem lt_size_of_mem_node_children (ht : t.Linked) {id : NodeId} {n : Node}
    (hn : t.nodes[id]? = some n) {c : NodeId} (hc : c ∈ n.children) : c < t.size := by
  have hmem : c ∈ t.children id := by rwa [children, hn]
  obtain ⟨m, hm, -⟩ := ht.child hmem
  exact lt_size_of_getElem? hm

/-- The parent of an old node has the number that it had. -/
theorem map_rank_parent_add (ht : t.Linked) (h : parent < t.size) {id : NodeId} {n : Node}
    (hn : t.nodes[id]? = some n) :
    n.parent.map (t.add parent kind position payload diagnostic).rank =
      n.parent.map t.rank := by
  cases hq : n.parent with
  | none => rfl
  | some q =>
      have hholds : t.Holds id n.kind q := ⟨n, hn, rfl, hq⟩
      -- A parent stands before its children, and so before the new node.
      obtain ⟨q', hq', hlt, -⟩ := ht.parent hn (ht.ne_root hholds)
      obtain rfl : q' = q := Option.some.inj (hq'.symm.trans hq)
      have hlt' := Nat.lt_trans hlt (lt_size_of_getElem? hn)
      rw [Option.map_some, Option.map_some, rank_add_of_le h (Nat.le_of_lt hlt')]

/-- An old node is renumbered as before. -/
theorem renumber_add (ht : t.Linked) (h : parent < t.size) {id : NodeId} {n : Node}
    (hn : t.nodes[id]? = some n) :
    (t.add parent kind position payload diagnostic).renumber n = t.renumber n := by
  rw [renumber, renumber, map_rank_parent_add ht h hn,
    ranks_add kind h fun c hc => lt_size_of_mem_node_children ht hn hc]

/-- The parent of a new node is renumbered as before, with the new node
as its last child unless that is a comment. -/
theorem renumber_add_parent (ht : t.Linked) (h : parent < t.size) {n : Node}
    (hn : t.nodes[parent]? = some n) :
    (t.add parent kind position payload diagnostic).renumber (n.withChild t.size) =
      if kind.isComment then t.renumber n
      else (t.renumber n).withChild t.withoutComments.size := by
  have hnew : (t.add parent kind position payload diagnostic).kind? t.size = some kind := by
    rw [kind?_add kind position payload diagnostic h, if_pos rfl]
  have hrank : (t.add parent kind position payload diagnostic).rank t.size =
      t.withoutComments.size := by
    rw [rank_add_of_le h (Nat.le_refl _)]
    exact rank_size_add t 0
  -- The new child is left out if it is a comment, and the last one otherwise.
  have hchildren : (t.add parent kind position payload diagnostic).ranks
      (n.children.push t.size) =
      if kind.isComment then t.ranks n.children
      else (t.ranks n.children).push t.withoutComments.size := by
    rw [← ranks_add kind h fun c hc => lt_size_of_mem_node_children ht hn hc]
    rw [ranks, Array.filter_push, hnew, Option.any_some]
    cases kind.isComment with
    | true => rfl
    | false => rw [Bool.not_false, if_pos rfl, Array.map_push, hrank]; rfl
  rw [renumber, Node.withChild, hchildren]
  show Node.mk _ (n.parent.map _) _ _ _ _ = _
  rw [map_rank_parent_add ht h hn]
  split <;> rfl

/-- The nodes without comments are those that are kept, renumbered. -/
theorem toList_withoutComments (t : Tree) :
    t.withoutComments.nodes.toList = (t.nodes.toList.filter Node.isKept).map t.renumber := by
  rw [withoutComments, Array.toList_map, Array.toList_filter]

/-- The nodes of a grown tree that are left: those left before, the
parent with its new child, and the new node. -/
theorem toList_withoutComments_add (ht : t.Linked) (h : t.Stem parent) :
    (t.add parent kind position payload diagnostic).withoutComments.nodes.toList =
      (t.withoutComments.nodes.toList.modify (t.rank parent) fun n =>
        if kind.isComment then n else n.withChild t.withoutComments.size) ++
      if kind.isComment then []
      else [⟨kind, some (t.rank parent), #[], position, payload, diagnostic⟩] := by
  obtain ⟨n, hn, hnk⟩ := h
  have hlt := lt_size_of_getElem? hn
  have hrank := rank_of_le (Nat.le_of_lt hlt)
  have hl : t.nodes.toList[parent]? = some n := by rw [Array.getElem?_toList, hn]
  have hkept := Node.isKept_eq_true hnk
  rw [toList_withoutComments, toList_withoutComments, toList_add _ _ _ _ hlt, List.filter_append,
    filter_modify (Node.isKept_withChild · _) hl hkept, List.map_append, hrank]
  congr 1
  · -- Of the old nodes only the parent is renumbered in another way.
    apply map_modify_eq
    · intro m hm
      obtain ⟨id, hid⟩ := List.mem_iff_getElem?.1 (List.mem_filter.1 hm).1
      exact renumber_add ht hlt (by rw [← Array.getElem?_toList, hid])
    · intro m hm
      rw [getElem?_filter_countP_take hl hkept] at hm
      obtain rfl : n = m := Option.some.inj hm
      exact renumber_add_parent ht hlt hn
  -- The new node is left out, or is the last of those that are kept.
  · cases hk : kind.isComment with
    | true => simp [Node.isKept, hk]
    | false =>
        rw [List.filter_cons_of_pos (Node.isKept_eq_true hk), List.filter_nil,
          List.map_singleton, renumber, Option.map_some,
          rank_add_of_le hlt (Nat.le_of_lt hlt), hrank, ranks, Array.filter_empty,
          Array.map_empty]
        rfl

/-- An append of a node that is no comment is an append in the tree
without comments. -/
theorem withoutComments_add (ht : t.Linked) (h : t.Stem parent) (hk : kind.isComment = false) :
    (t.add parent kind position payload diagnostic).withoutComments =
      t.withoutComments.add (t.rank parent) kind position payload diagnostic := by
  obtain ⟨n, hn, hnk⟩ := h
  have hlt : t.rank parent < t.withoutComments.size :=
    lt_size_of_getElem? (getElem?_withoutComments hn hnk)
  apply eq_of_toList
  rw [toList_withoutComments_add ht ⟨n, hn, hnk⟩, toList_add _ _ _ _ hlt, hk]
  rfl

/-- A comment is not seen in the tree without comments. -/
theorem withoutComments_add_comment (ht : t.Linked) (h : t.Stem parent)
    (hk : kind.isComment = true) :
    (t.add parent kind position payload diagnostic).withoutComments = t.withoutComments := by
  apply eq_of_toList
  rw [toList_withoutComments_add ht h, hk]
  show t.withoutComments.nodes.toList.modify (t.rank parent) id ++ [] = _
  rw [List.append_nil, List.modify_id]

end Append

/-- The tree of a unit without declarations has no comment. -/
theorem withoutComments_ofUnit (kind : UnitKind) (filename : String) :
    (ofUnit kind filename).withoutComments = ofUnit kind filename := by
  apply eq_of_toList
  rw [toList_withoutComments]
  cases kind <;> simp [ofUnit, ofRoot, Node.isKept, UnitKind.rootKind, renumber, ranks,
    NodeKind.isComment]

end Tree

/-- A tree seen without its comments. -/
def View.withoutComments : View where
  tree := Tree.withoutComments
  id := Tree.rank
  position := fun position => position
  id_size _ k := Tree.rank_size_add _ k
  kind? := fun _ _ h _ => Tree.kind?_withoutComments h
  parentOrSelf := fun _ _ h => Tree.parentOrSelf_withoutComments h
  isUnbegun := fun ht _ h _ => Tree.isUnbegun_withoutComments ht.toLinked h
  tagParent := fun _ _ h _ => Tree.tagParent_withoutComments h
  add := fun ht _ h _ hk _ _ _ => Tree.withoutComments_add ht.toLinked h hk
  id_add := fun _ _ h _ hk _ _ _ => Tree.rank_add_of_kept h.lt_size hk

end CDeclarations
