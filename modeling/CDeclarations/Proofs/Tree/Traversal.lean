import CDeclarations.Proofs.Tree.Built
import CDeclarations.Tree.Render
import Mathlib.Data.List.Flatten
import Mathlib.Data.List.Sort

/-!
# `CDeclarations.Proofs.Tree.Traversal`: what the rows of a tree list

The visit of a tree has no memory of where it was: it takes a row off a
stack and puts the rows of the children there. That it ends, and lists
every node once, rests on the tree.

* `Visits`: the visit of a stack comes to an end and lists these rows.
* `Links`: the number of parent links from a node up to the root.
* `PreOrder`: what a list of rows has to be as the pre-order of a tree.
* `ScansAgree`: what is counted over the rows is what is counted over the
  nodes as they are stored.
* `Built.preOrder_scansAgree`: the rows of every tree that appends build.
-/

set_option autoImplicit false

namespace CDeclarations.Tree

variable {t : Tree}

/-! ### The visit -/

/-- The visit of a stack comes to an end and lists `rows`. The row on
top is listed, and the rows of its children take its place. -/
inductive Visits (t : Tree) : List Row → List Row → Prop
  | done : Visits t [] []
  | step {row : Row} {stack rows : List Row} (h : Visits t (t.rowsBelow row ++ stack) rows) :
      Visits t (row :: stack) (row :: rows)

/-- The visit of a stack lists the walks from its rows, one behind the
other. -/
theorem Linked.visits_walk (ht : t.Linked) (stack : List Row) :
    t.Visits stack (stack.flatMap t.walk) := by
  -- Each step leaves one row less to be listed.
  induction hleft : (stack.flatMap t.walk).length using Nat.strongRecOn generalizing stack with
  | ind left ih =>
      subst hleft
      cases stack with
      | nil => exact .done
      | cons row stack =>
          have hstep : (row :: stack).flatMap t.walk =
              row :: (t.rowsBelow row ++ stack).flatMap t.walk := by
            rw [List.flatMap_cons, ht.walk_eq, List.cons_append, ← List.flatMap_append]
          rw [hstep] at ih ⊢
          exact .step (ih _ (Nat.lt_succ_self _) _ rfl)

/-! ### Families -/

/-- The parent that a node names. -/
def parent? (t : Tree) (id : NodeId) : Option NodeId :=
  t.nodes[id]?.bind Node.parent

/-- A node is a child exactly when it has the parent. -/
theorem Linked.mem_children_iff (ht : t.Linked) {q c : NodeId} :
    c ∈ t.children q ↔ c < t.size ∧ t.parent? c = some q := by
  constructor
  · intro h
    obtain ⟨n, hn, hp⟩ := ht.child h
    exact ⟨lt_size_of_getElem? hn, by rw [parent?, hn, Option.bind_some, hp]⟩
  · rintro ⟨-, hp⟩
    obtain ⟨n, hn, hp⟩ := Option.bind_eq_some_iff.1 hp
    have hne : c ≠ Tree.root := ht.ne_root ⟨n, hn, rfl, hp⟩
    obtain ⟨q', hq', -, hmem⟩ := ht.parent hn hne
    rwa [Option.some.inj (hp.symm.trans hq')]

/-- The children of a node are the nodes that name it as their parent, in
the order in which they came. -/
theorem Ordered.children_eq (ht : t.Ordered) (q : NodeId) :
    (t.children q).toList = (List.range t.size).filter fun c => t.parent? c = some q := by
  refine List.Pairwise.eq_of_mem_iff (ht.increasing q)
    (List.pairwise_lt_range.sublist List.filter_sublist) fun c => ?_
  rw [Array.mem_toList_iff, ht.toLinked.mem_children_iff, List.mem_filter, List.mem_range,
    decide_eq_true_iff]

/-- The walk from a row lists its node before the children, and these in
their order. -/
theorem Linked.family_sublist (ht : t.Linked) (row : Row) :
    (row.id :: (t.children row.id).toList).Sublist (t.walkIds row) := by
  have hids : (t.children row.id).toList = (t.rowsBelow row).flatMap fun below => [below.id] := by
    rw [rowsBelow, List.flatMap_map, List.flatMap_singleton']
  rw [ht.walkIds_eq, hids]
  refine (List.Sublist.flatMap_right _ fun below _ => ?_).cons_cons _
  -- The walk from a child begins with the child.
  rw [ht.walkIds_eq]
  exact List.singleton_sublist.2 List.mem_cons_self

/-- The walk from a node is part of the walk from every node above it. -/
theorem Linked.walk_sublist (ht : t.Linked) {top id : NodeId} (h : t.Below top id) (depth : Nat) :
    ∃ depth', (t.walk ⟨depth', id⟩).Sublist (t.walk ⟨depth, top⟩) := by
  induction h with
  | self => exact ⟨depth, List.Sublist.refl _⟩
  | @child q id _ hc ih =>
      obtain ⟨depth', hq⟩ := ih
      -- The walk from the parent is the parent and the walks from all of its children.
      refine ⟨depth' + 1, List.Sublist.trans ?_ hq⟩
      have hbelow : (⟨depth' + 1, id⟩ : Row) ∈ t.rowsBelow ⟨depth', q⟩ :=
        mem_rowsBelow.2 ⟨id, hc, rfl⟩
      rw [ht.walk_eq ⟨depth', q⟩]
      exact (List.sublist_flatten_of_mem (List.mem_map_of_mem hbelow)).cons _

/-! ### Depths -/

/-- So many parent links lead from the node up to the root, which has no
parent. -/
inductive Links (t : Tree) : Nat → NodeId → Prop
  | root (h : t.parent? Tree.root = none) : Links t 0 Tree.root
  | parent {links : Nat} {id q : NodeId} (h : t.parent? id = some q) (hq : Links t links q) :
      Links t (links + 1) id

/-- The walk from a row whose depth is the number of links lists such
rows only. -/
theorem Linked.links_walk (ht : t.Linked) {row row' : Row} (h : t.Links row.depth row.id)
    (hrow : row' ∈ t.walk row) : t.Links row'.depth row'.id := by
  induction row using ht.row_induction with
  | step row ih =>
      rw [ht.walk_eq, List.mem_cons, List.mem_flatMap] at hrow
      rcases hrow with rfl | ⟨below, hbelow, hrow⟩
      · exact h
      · -- One more link leads from a child to its parent.
        refine ih below hbelow ?_ hrow
        obtain ⟨c, hc, rfl⟩ := mem_rowsBelow.1 hbelow
        exact .parent (ht.mem_children_iff.1 hc).2 h

/-- The root is linked at depth zero. -/
theorem Linked.links_root (ht : t.Linked) : t.Links 0 Tree.root := by
  obtain ⟨n, hn, hp⟩ := ht.root
  exact .root (by rw [parent?, hn, Option.bind_some, hp])

/-! ### The rows -/

/-- The rows are the tree in pre-order. -/
structure PreOrder (t : Tree) (rows : List Row) : Prop where
  /-- The visit of the root comes to an end. -/
  visits : t.Visits [⟨0, root⟩] rows
  /-- The recursive walk lists a row before the walks of the children. -/
  walk_eq : ∀ row, t.walk row = row :: (t.rowsBelow row).flatMap t.walk
  walk : rows = t.walk ⟨0, root⟩
  /-- Every node has one row. -/
  once : (rows.map Row.id).Perm (List.range t.size)
  /-- A parent comes before its children, and these in their order. -/
  family : ∀ id < t.size, (id :: (t.children id).toList).Sublist (rows.map Row.id)
  /-- This is the order in which they were appended. -/
  children_eq : ∀ id,
    (t.children id).toList = (List.range t.size).filter fun c => t.parent? c = some id
  depth : ∀ row ∈ rows, t.Links row.depth row.id

/-- The rows of an ordered tree are its pre-order. -/
theorem Ordered.preOrder_rows (ht : t.Ordered) : t.PreOrder t.rows where
  visits := by
    have h := ht.toLinked.visits_walk [⟨0, root⟩]
    rwa [List.flatMap_singleton, ← ht.rows_eq_walk] at h
  walk_eq := ht.toLinked.walk_eq
  walk := ht.rows_eq_walk
  once := ht.rows_perm
  family := by
    intro id hid
    obtain ⟨depth, hwalk⟩ := ht.toLinked.walk_sublist (ht.toLinked.below_root hid) 0
    rw [ht.rows_eq_walk]
    exact (ht.toLinked.family_sublist ⟨depth, id⟩).trans (hwalk.map Row.id)
  children_eq := ht.children_eq
  depth := by
    intro row hrow
    rw [ht.rows_eq_walk] at hrow
    exact ht.toLinked.links_walk ht.toLinked.links_root hrow

/-! ### Rows and nodes -/

/-- What the nodes of the rows tell is what the stored nodes tell. -/
structure ScansAgree (t : Tree) : Prop where
  /-- Every row has its node, and its line in the outline. -/
  rows : t.rowNodes.map Prod.fst = t.rows
  length_rows : t.rows.length = t.size
  length_outline : t.outline.length = t.size
  nodes : (t.rowNodes.map Prod.snd).Perm t.nodes.toList
  diagnostics : t.diagnostics.Perm (t.nodes.toList.filter fun n => n.kind.isDiagnostic)
  count : ∀ kind, t.count kind = (t.rowNodes.map Prod.snd).countP fun n => n.kind = kind
  /-- The kinds that are counted are those of the rows. -/
  mem_counts : ∀ kind count, (kind, count) ∈ t.counts ↔
    count ≠ 0 ∧ count = (t.rowNodes.map Prod.snd).countP fun n => n.kind = kind
  hasErrors : t.hasErrors = t.diagnostics.any fun n => n.kind = .error

/-- The entries of a list, taken one by one under their numbers. -/
private theorem filterMap_getElem?_range {α : Type} (xs : List α) :
    ((List.range xs.length).filterMap fun i => xs[i]?) = xs := by
  induction xs with
  | nil => rfl
  | cons x xs ih =>
      rw [List.length_cons, List.range_succ_eq_map, List.filterMap_cons, List.filterMap_map]
      exact congrArg (x :: ·) ih

/-- The nodes of the rows are the stored nodes in another order. -/
theorem Ordered.rowNodes_perm (ht : t.Ordered) :
    (t.rowNodes.map Prod.snd).Perm t.nodes.toList := by
  have hids : t.rowNodes.map Prod.snd = (t.rows.map Row.id).filterMap fun id => t.nodes[id]? := by
    rw [rowNodes, List.map_filterMap, List.filterMap_map]
    refine List.filterMap_congr fun row _ => ?_
    show (t.nodes[row.id]?.map _).map _ = t.nodes[row.id]?
    rw [Option.map_map]
    exact Option.map_id'
  have hstored : ((List.range t.size).filterMap fun id => t.nodes[id]?) = t.nodes.toList := by
    have h := filterMap_getElem?_range t.nodes.toList
    simp only [Array.length_toList, Array.getElem?_toList] at h
    exact h
  -- The rows visit each number once, so they visit each node once.
  rw [hids, ← hstored]
  exact ht.rows_perm.filterMap _

/-- Every row has a node. -/
theorem Ordered.map_fst_rowNodes (ht : t.Ordered) : t.rowNodes.map Prod.fst = t.rows := by
  have hsome : ∀ row ∈ t.rows,
      (t.nodes[row.id]?.map fun n => (row, n)).map Prod.fst = some row := by
    intro row hrow
    have hlt : row.id < t.size :=
      List.mem_range.1 (ht.rows_perm.mem_iff.1 (List.mem_map_of_mem hrow))
    rw [Array.getElem?_eq_getElem hlt]
    rfl
  rw [rowNodes, List.map_filterMap, List.filterMap_congr hsome, List.filterMap_some]

/-- The nodes of a kind are counted along the rows as well. -/
theorem Ordered.count_eq_countP_rowNodes (ht : t.Ordered) (kind : NodeKind) :
    t.count kind = (t.rowNodes.map Prod.snd).countP fun n => n.kind = kind := by
  rw [count, ← Array.countP_toList]
  exact (ht.rowNodes_perm.countP_eq _).symm

/-- What is counted over the nodes of an ordered tree agrees with its rows. -/
theorem Ordered.scansAgree (ht : t.Ordered) : t.ScansAgree where
  rows := ht.map_fst_rowNodes
  length_rows := by
    have h := ht.rows_perm.length_eq
    rwa [List.length_map, List.length_range] at h
  length_outline := by
    rw [outline, List.length_map, ← List.length_map Prod.snd]
    exact ht.rowNodes_perm.length_eq
  nodes := ht.rowNodes_perm
  diagnostics := ht.rowNodes_perm.filter _
  count := ht.count_eq_countP_rowNodes
  mem_counts := by
    intro kind count
    rw [← ht.count_eq_countP_rowNodes, counts, List.mem_filter, List.mem_map]
    constructor
    · rintro ⟨⟨_, -, heq⟩, hne⟩
      cases heq
      exact ⟨of_decide_eq_true hne, rfl⟩
    · rintro ⟨hne, rfl⟩
      exact ⟨⟨kind, NodeKind.mem_all kind, rfl⟩, decide_eq_true hne⟩
  hasErrors := by
    rw [hasErrors, ← Array.any_toList, ← ht.rowNodes_perm.any_eq, diagnostics, List.any_filter]
    -- An error is a diagnostic, so that none is filtered out.
    refine List.any_congr rfl fun n => ?_
    by_cases h : n.kind = .error
    · rw [h]
      rfl
    · rw [decide_eq_false h, Bool.and_false]

/-- The rows of a tree that appends build are its nodes in pre-order, and
all that is counted over them is what is counted over the nodes. -/
theorem Built.preOrder_scansAgree (h : t.Built) : t.PreOrder t.rows ∧ t.ScansAgree :=
  ⟨h.ordered.preOrder_rows, h.ordered.scansAgree⟩

/-- A node that came late is listed with the early node that it hangs
below. -/
theorem Built.preOrder_scansAgree_pointer :
    let t := ((((ofUnit .source "unit.c").add 0 .datatype ⟨1, 1⟩ none none).add 1 .primitiveType
      ⟨1, 1⟩ (some "int") none).add 0 .error ⟨1, 7⟩ (some "[") (some "unexpected token")).add 1
      .pointer ⟨1, 5⟩ (some "*") none
    t.rows.map Row.id = [0, 1, 2, 4, 3] ∧ t.Built ∧ t.PreOrder t.rows ∧ t.ScansAgree := by
  intro t
  have hbuilt : t.Built := .add (.add (.add (.add (.unit .source "unit.c") (by decide) ..)
    (by decide) ..) (by decide) ..) (by decide) ..
  exact ⟨rfl, hbuilt, hbuilt.preOrder_scansAgree⟩

end CDeclarations.Tree
