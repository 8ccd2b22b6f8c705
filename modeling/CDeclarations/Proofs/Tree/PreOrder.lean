import CDeclarations.Proofs.Tree.Growth
import CDeclarations.Tree.Rows
import Mathlib.Data.List.Nodup

/-!
# `CDeclarations.Proofs.Tree.PreOrder`: the rows of a linked tree

The rows of a tree are visited with a stack, and a count of the nodes
bounds the visit. In a tree whose lists of children increase, the visit
is the depth-first walk and meets every node once:

* `Ordered`: the tree is linked and its lists of children increase. An
  append keeps it (`Ordered.add`).
* `Below`: one node is another one or lies below it. The walk from a
  node meets the nodes below it (`mem_walk_iff`), each once
  (`Ordered.nodup_walk`).
* `Ordered.rows_eq_walk`: so the bound cuts no row off, and the rows are
  the nodes (`Ordered.rows_perm`).
* `Spine`: the node is met on the way from the root to the last node,
  always taking the last child. A node of the spine without children is
  the last row (`Spine.getLast?_rows`).
-/

set_option autoImplicit false

namespace CDeclarations.Tree

variable {t : Tree}

/-- The tree is linked, and its lists of children increase. -/
structure Ordered (t : Tree) : Prop extends Linked t where
  increasing : ∀ id, (t.children id).toList.Pairwise (· < ·)

/-- A new node is the last child of its parent, so the children stay in order.
-/
theorem Ordered.add (ht : t.Ordered) {parent : NodeId} (h : parent < t.size) {kind : NodeKind}
    {position : Position} {payload diagnostic : Option String} :
    (t.add parent kind position payload diagnostic).Ordered where
  toLinked := ht.toLinked.add h
  increasing := by
    intro id
    rw [children_add _ _ _ _ h]
    split
    · rw [Array.toList_push, List.pairwise_append]
      refine ⟨ht.increasing id, List.pairwise_singleton .., ?_⟩
      intro c hc new hnew
      obtain ⟨n, hn, -⟩ := ht.child (Array.mem_toList_iff.1 hc)
      rw [List.mem_singleton.1 hnew]
      exact lt_size_of_getElem? hn
    · exact ht.increasing id

/-- A new tree has no children to order. -/
theorem ordered_ofUnit (kind : UnitKind) (filename : String) : (ofUnit kind filename).Ordered where
  toLinked := (regular_ofUnit kind filename).toLinked
  increasing := by
    intro id
    rw [ofUnit, children_ofRoot]
    exact .nil

/-- A child comes behind its parent. -/
theorem Linked.lt_of_mem_children (ht : t.Linked) {q c : NodeId} (h : c ∈ t.children q) :
    q < c := by
  obtain ⟨n, hn, hp⟩ := ht.child h
  have hne : c ≠ Tree.root := ht.ne_root ⟨n, hn, rfl, hp⟩
  obtain ⟨q', hq', hlt, -⟩ := ht.parent hn hne
  rw [hp] at hq'
  exact Option.some.inj hq' ▸ hlt

/-- A node is the child of one parent only. -/
theorem Linked.eq_of_mem_children (ht : t.Linked) {q q' c : NodeId} (h : c ∈ t.children q)
    (h' : c ∈ t.children q') : q = q' := by
  obtain ⟨n, hn, hp⟩ := ht.child h
  obtain ⟨n', hn', hp'⟩ := ht.child h'
  rw [Option.some.inj (hn.symm.trans hn'), hp'] at hp
  exact (Option.some.inj hp).symm

/-- A child is a node of the tree. -/
theorem Linked.lt_size_of_mem_children (ht : t.Linked) {q c : NodeId} (h : c ∈ t.children q) :
    c < t.size := by
  obtain ⟨n, hn, -⟩ := ht.child h
  exact lt_size_of_getElem? hn

/-! ### What lies below a node -/

/-- The node `id` is `top` or lies below it. -/
inductive Below (t : Tree) (top : NodeId) : NodeId → Prop
  | self : Below t top top
  | child {q id : NodeId} (hq : Below t top q) (h : id ∈ t.children q) : Below t top id

namespace Below

variable {top top' id : NodeId}

/-- A node below another one does not come before it. -/
theorem le (ht : t.Linked) (h : t.Below top id) : top ≤ id := by
  induction h with
  | self => exact Nat.le_refl _
  | child _ h ih =>
      exact Nat.le_trans ih (Nat.le_of_lt (ht.lt_of_mem_children h))

/-- Being below is transitive. -/
theorem trans (h : t.Below top top') (h' : t.Below top' id) : t.Below top id := by
  induction h' with
  | self => exact h
  | child _ h ih => exact ih.child h

/-- What lies below a node is the node itself or lies below one of its
children. -/
theorem eq_or_exists_child (h : t.Below top id) :
    id = top ∨ ∃ c ∈ t.children top, t.Below c id := by
  induction h with
  | self => exact Or.inl rfl
  | @child q id _ h ih =>
      rcases ih with rfl | ⟨c, hc, hbelow⟩
      · exact Or.inr ⟨id, h, .self⟩
      · exact Or.inr ⟨c, hc, hbelow.child h⟩

/-- The nodes that a node lies below are in line. -/
theorem total (ht : t.Linked) (h : t.Below top id) (h' : t.Below top' id) :
    t.Below top top' ∨ t.Below top' top := by
  induction h with
  | self => exact Or.inr h'
  | @child q id hq h ih =>
      cases h' with
      | self => exact Or.inl (hq.child h)
      | @child q' _ hq' h' =>
          obtain rfl := ht.eq_of_mem_children h h'
          exact ih hq'

/-- Nothing lies below two children of one node. -/
theorem eq_of_siblings (ht : t.Linked) {q : NodeId} (hc : top ∈ t.children q)
    (hc' : top' ∈ t.children q) (h : t.Below top id) (h' : t.Below top' id) : top = top' := by
  -- One of the two is the other, or is below it and so below itself.
  have key : ∀ {a b : NodeId}, a ∈ t.children q → b ∈ t.children q → t.Below a b → a = b := by
    intro a b ha hb hab
    cases hab with
    | self => rfl
    | @child q' _ hq' hb' =>
        obtain rfl := ht.eq_of_mem_children hb hb'
        exact absurd (ht.lt_of_mem_children ha) (Nat.not_lt.2 (hq'.le ht))
  rcases total ht h h' with h | h
  · exact key hc hc' h
  · exact (key hc' hc h).symm

end Below

/-- Every node lies below the root. -/
theorem Linked.below_root (ht : t.Linked) {id : NodeId} (h : id < t.size) :
    t.Below Tree.root id := by
  induction id using Nat.strongRecOn with
  | ind id ih =>
      by_cases hroot : id = Tree.root
      · rw [hroot]
        exact .self
      · obtain ⟨q, -, hlt, hmem⟩ := ht.parent (Array.getElem?_eq_getElem h) hroot
        exact (ih q hlt (Nat.lt_trans hlt h)).child hmem

/-! ### The walk -/

/-- The depth-first walk from a row. Children have larger indexes than
their parents in a linked tree; the test is for other trees. -/
def walk (t : Tree) (row : Row) : List Row :=
  row :: (t.rowsBelow row).flatMap fun below =>
    if _h : row.id < below.id ∧ below.id < t.size then t.walk below else []
termination_by t.size - row.id
decreasing_by exact Nat.sub_lt_sub_left (Nat.lt_trans _h.1 _h.2) _h.1

/-- A walk lists its row, and then the walks over the rows below it. -/
theorem Linked.walk_eq (ht : t.Linked) (row : Row) :
    t.walk row = row :: (t.rowsBelow row).flatMap t.walk := by
  rw [Tree.walk]
  congr 1
  apply List.flatMap_congr
  intro below hbelow
  obtain ⟨c, hc, rfl⟩ := List.mem_map.1 hbelow
  rw [Array.mem_toList_iff] at hc
  rw [dif_pos ⟨ht.lt_of_mem_children hc, ht.lt_size_of_mem_children hc⟩]

/-- The rows below a row are its children, one level deeper. -/
theorem mem_rowsBelow {row below : Row} :
    below ∈ t.rowsBelow row ↔ ∃ c ∈ t.children row.id, ⟨row.depth + 1, c⟩ = below := by
  simp [rowsBelow]

/-- A property of rows holds when it passes from the rows of the children
to the row of the parent. -/
theorem Linked.row_induction (ht : t.Linked) {motive : Row → Prop}
    (step : ∀ row, (∀ below ∈ t.rowsBelow row, motive below) → motive row) (row : Row) :
    motive row := by
  refine walk.induct t motive ?_ row
  intro row ih
  apply step
  intro below hbelow
  obtain ⟨c, hc, rfl⟩ := mem_rowsBelow.1 hbelow
  exact ih _ ⟨ht.lt_of_mem_children hc, ht.lt_size_of_mem_children hc⟩

/-- The nodes that the walk from a row meets. -/
def walkIds (t : Tree) (row : Row) : List NodeId :=
  (t.walk row).map Row.id

/-- A walk meets its own node, and then those below it. -/
theorem Linked.walkIds_eq (ht : t.Linked) (row : Row) :
    t.walkIds row = row.id :: (t.rowsBelow row).flatMap t.walkIds := by
  rw [walkIds, ht.walk_eq, List.map_cons, List.map_flatMap]
  rfl

/-- The walk meets the nodes below its row. -/
theorem Linked.mem_walkIds_iff (ht : t.Linked) {row : Row} {id : NodeId} :
    id ∈ t.walkIds row ↔ t.Below row.id id := by
  -- On the row, whose children have rows of their own.
  induction row using ht.row_induction with
  | step row ih =>
      rw [ht.walkIds_eq, List.mem_cons, List.mem_flatMap]
      constructor
      · rintro (rfl | ⟨below, hbelow, hid⟩)
        · exact .self
        · obtain ⟨c, hc, rfl⟩ := mem_rowsBelow.1 hbelow
          have hbelow_c : t.Below c id := (ih _ hbelow).1 hid
          exact (Below.self.child hc).trans hbelow_c
      · intro h
        rcases h.eq_or_exists_child with rfl | ⟨c, hc, hbelow_c⟩
        · exact Or.inl rfl
        · have hmem := mem_rowsBelow.2 ⟨c, hc, rfl⟩
          exact Or.inr ⟨_, hmem, (ih _ hmem).2 hbelow_c⟩

/-- The walk meets no node twice. -/
theorem Ordered.nodup_walkIds (ht : t.Ordered) (row : Row) : (t.walkIds row).Nodup := by
  have hlinked := ht.toLinked
  -- The walks below two children meet no node in common.
  induction row using hlinked.row_induction with
  | step row ih =>
      rw [hlinked.walkIds_eq, List.nodup_cons, List.nodup_flatMap]
      refine ⟨?_, ih, ?_⟩
      · intro hmem
        obtain ⟨below, hbelow, hid⟩ := List.mem_flatMap.1 hmem
        obtain ⟨c, hc, rfl⟩ := mem_rowsBelow.1 hbelow
        have hle : c ≤ row.id := (hlinked.mem_walkIds_iff.1 hid).le hlinked
        exact absurd (hlinked.lt_of_mem_children hc) (Nat.not_lt.2 hle)
      · rw [rowsBelow, List.pairwise_map]
        refine List.Pairwise.imp_of_mem ?_ (ht.increasing row.id)
        intro c c' hc hc' hlt id hid hid'
        have heq : c = c' := Below.eq_of_siblings hlinked (Array.mem_toList_iff.1 hc)
          (Array.mem_toList_iff.1 hc') (hlinked.mem_walkIds_iff.1 hid)
          (hlinked.mem_walkIds_iff.1 hid')
        exact absurd hlt (heq ▸ Nat.lt_irrefl c)

/-! ### The rows -/

/-- The nodes that the walk from the root meets are all nodes, each met
once. -/
theorem Ordered.walkIds_perm (ht : t.Ordered) (depth : Nat) :
    (t.walkIds ⟨depth, Tree.root⟩).Perm (List.range t.size) := by
  rw [List.perm_ext_iff_of_nodup (ht.nodup_walkIds _) List.nodup_range]
  intro id
  rw [ht.toLinked.mem_walkIds_iff, List.mem_range]
  constructor
  · intro h
    cases h with
    | self => exact ht.toLinked.size_pos
    | child _ h => exact ht.toLinked.lt_size_of_mem_children h
  · exact ht.toLinked.below_root

/-- The rows are those of the depth-first walk. -/
theorem Ordered.rows_eq_walk (ht : t.Ordered) : t.rows = t.walk ⟨0, Tree.root⟩ := by
  refine rows_eq ht.toLinked.walk_eq ?_
  have hlength := (ht.walkIds_perm 0).length_eq
  rw [walkIds, List.length_map, List.length_range] at hlength
  exact Nat.le_of_eq hlength

/-- Every node has one row. -/
theorem Ordered.rows_perm (ht : t.Ordered) : (t.rows.map Row.id).Perm (List.range t.size) := by
  rw [ht.rows_eq_walk]
  exact ht.walkIds_perm 0

/-! ### The last row -/

/-- The node lies on the way from the root that always takes the last
child. -/
inductive Spine (t : Tree) : NodeId → Prop
  | root : Spine t Tree.root
  | last {q id : NodeId} (hq : Spine t q) (h : (t.children q).back? = some id) : Spine t id

namespace Spine

variable {id : NodeId}

/-- A node on the way to the last one is a node of the tree. -/
theorem lt_size (h : t.Spine id) (ht : t.Linked) : id < t.size := by
  cases h with
  | root => exact ht.size_pos
  | last _ h => exact ht.lt_size_of_mem_children (Array.mem_of_back? h)

/-- What is above the spine lies on it. -/
theorem parentOrSelf (h : t.Spine id) (ht : t.Linked) : t.Spine (t.parentOrSelf id) := by
  cases h with
  | root =>
      obtain ⟨n, hn, hp⟩ := ht.root
      rw [Tree.parentOrSelf, hn, Option.bind_some, hp]
      exact .root
  | @last q _ hq h =>
      obtain ⟨n, hn, hp⟩ := ht.child (Array.mem_of_back? h)
      rw [Tree.parentOrSelf, hn, Option.bind_some, hp]
      exact hq

/-- The spine down to a node is kept where a node is added under that
node or one behind it. -/
theorem add (h : t.Spine id) (ht : t.Linked) {parent : NodeId} (hle : id ≤ parent)
    (hlt : parent < t.size) (kind : NodeKind) (position : Position)
    (payload diagnostic : Option String) :
    (t.add parent kind position payload diagnostic).Spine id := by
  induction h with
  | root => exact .root
  | @last q id hq h ih =>
      have hqid := ht.lt_of_mem_children (Array.mem_of_back? h)
      have hqp := Nat.lt_of_lt_of_le hqid hle
      refine .last (ih (Nat.le_of_lt hqp)) ?_
      rw [children_add _ _ _ _ hlt, if_neg (Nat.ne_of_lt hqp)]
      exact h

/-- A node on that way stays on it when a child is added to it. -/
theorem add_self (h : t.Spine id) (ht : t.Linked) (kind : NodeKind) (position : Position)
    (payload diagnostic : Option String) :
    (t.add id kind position payload diagnostic).Spine id :=
  h.add ht (Nat.le_refl id) (h.lt_size ht) kind position payload diagnostic

/-- A node added under the spine lies on it. -/
theorem add_size (h : t.Spine id) (ht : t.Linked) (kind : NodeKind) (position : Position)
    (payload diagnostic : Option String) :
    (t.add id kind position payload diagnostic).Spine t.size := by
  have hlt := h.lt_size ht
  refine .last (h.add_self ht kind position payload diagnostic) ?_
  rw [children_add _ _ _ _ hlt, if_pos rfl]
  exact Array.back?_push

/-- The walk from the root ends with the walk from a node of the
spine. -/
theorem exists_suffix (h : t.Spine id) (ht : t.Linked) :
    ∃ depth, t.walk ⟨depth, id⟩ <:+ t.walk ⟨0, Tree.root⟩ := by
  -- The walk of the last child ends the walk of its parent.
  induction h with
  | root => exact ⟨0, List.suffix_rfl⟩
  | @last q id hq h ih =>
      obtain ⟨depth, hsuffix⟩ := ih
      obtain ⟨init, hinit⟩ : ∃ init : Array NodeId, t.children q = init.push id :=
        Array.back?_eq_some_iff.1 h
      refine ⟨depth + 1, List.IsSuffix.trans ?_ hsuffix⟩
      rw [ht.walk_eq ⟨depth, q⟩, rowsBelow, hinit, Array.toList_push, List.map_append,
        List.flatMap_append]
      have hlast : (([id] : List NodeId).map fun c => (⟨depth + 1, c⟩ : Row)).flatMap t.walk =
          t.walk ⟨depth + 1, id⟩ := by
        rw [List.map_singleton, List.flatMap_singleton]
      exact List.suffix_cons_iff.2 (Or.inr (List.suffix_append_of_suffix ⟨[], hlast.symm⟩))

/-- A node of the spine without children has the last row. -/
theorem getLast?_rows (h : t.Spine id) (ht : t.Ordered) (hleaf : t.children id = #[]) :
    t.rows.getLast?.map Row.id = some id := by
  obtain ⟨depth, before, hbefore⟩ := h.exists_suffix ht.toLinked
  rw [ht.rows_eq_walk, ← hbefore, ht.toLinked.walk_eq, rowsBelow, hleaf]
  simp

end Spine

end CDeclarations.Tree
