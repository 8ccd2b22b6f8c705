import CDeclarations.Tree.Basic

/-!
# `CDeclarations.Tree.Rows`: a tree in reading order

The rows of a tree list its nodes in pre-order: a node before its
children, children in the order in which they came. Each row holds
the depth of its node below the root.

* `Tree.rows_eq`: the visit yields the depth-first walk, unless that
  has more rows than the tree has nodes.
* `Tree.rows_congr`: nothing but the children of the nodes is looked at.
* `Tree.rows_forall`: no row is listed but those that children lead to.
-/

set_option autoImplicit false

namespace CDeclarations

/-- A node at its depth below the root. -/
structure Row where
  depth : Nat
  id : NodeId
deriving DecidableEq

namespace Tree

/-- The rows of the children of a row. -/
def rowsBelow (t : Tree) (row : Row) : List Row :=
  (t.children row.id).toList.map fun c => ⟨row.depth + 1, c⟩

/-- Visits the rows of `stack`, each with all that is below it, after
those in `visited`; at most `fuel` rows are visited. -/
private def visit (t : Tree) : Nat → List Row → Array Row → Array Row
  | 0, _, visited => visited
  | _, [], visited => visited
  | fuel + 1, row :: stack, visited => visit t fuel (t.rowsBelow row ++ stack) (visited.push row)

/-- The nodes in pre-order. A tree has no more rows than nodes, so the
visit is never cut short. -/
def rows (t : Tree) : List Row :=
  (visit t t.size [⟨0, root⟩] #[]).toList

/-- The visit yields the depth-first walks of its stack, one behind the
other. -/
private theorem toList_visit {t : Tree} {walk : Row → List Row}
    (hwalk : ∀ row, walk row = row :: (t.rowsBelow row).flatMap walk) (fuel : Nat)
    (stack : List Row) (visited : Array Row) (h : (stack.flatMap walk).length ≤ fuel) :
    (visit t fuel stack visited).toList = visited.toList ++ stack.flatMap walk := by
  induction fuel generalizing stack visited with
  | zero =>
      rw [visit, List.eq_nil_of_length_eq_zero (Nat.le_zero.1 h), List.append_nil]
  | succ fuel ih =>
      cases stack with
      | nil => exact (List.append_nil _).symm
      | cons row stack =>
          -- The row on top is visited, and the rows below it are put on the stack in
          -- its place.
          rw [List.flatMap_cons, hwalk, List.cons_append, ← List.flatMap_append] at h ⊢
          rw [visit, ih _ _ (Nat.le_of_succ_le_succ h), Array.toList_push, List.append_assoc]
          rfl

/-- The nodes in pre-order, by any function that walks depth first. -/
theorem rows_eq {t : Tree} {walk : Row → List Row}
    (hwalk : ∀ row, walk row = row :: (t.rowsBelow row).flatMap walk)
    (h : (walk ⟨0, root⟩).length ≤ t.size) : t.rows = walk ⟨0, root⟩ := by
  have hstack : [(⟨0, root⟩ : Row)].flatMap walk = walk ⟨0, root⟩ := by
    rw [List.flatMap_singleton]
  rw [rows, toList_visit hwalk _ _ _ (hstack ▸ h), hstack]
  rfl

/-- A visit looks at nothing but the rows below each row. -/
private theorem visit_congr {t u : Tree} (h : t.rowsBelow = u.rowsBelow) (fuel : Nat)
    (stack : List Row) (visited : Array Row) :
    visit t fuel stack visited = visit u fuel stack visited := by
  induction fuel generalizing stack visited with
  | zero => rfl
  | succ fuel ih =>
      cases stack with
      | nil => rfl
      | cons row stack => rw [visit, visit, h, ih]

/-- Trees whose nodes have the same children have the same rows. -/
theorem rows_congr {t u : Tree} (hsize : t.size = u.size)
    (hchildren : ∀ id, t.children id = u.children id) : t.rows = u.rows := by
  have hbelow : t.rowsBelow = u.rowsBelow := funext fun row => by
    rw [rowsBelow, rowsBelow, hchildren]
  rw [rows, rows, visit_congr hbelow, hsize]

/-- What is passed on from a node to its children holds of all that is
visited if it holds of the stack. -/
private theorem visit_forall {t : Tree} {motive : NodeId → Prop}
    (step : ∀ q, motive q → ∀ c ∈ t.children q, motive c) (fuel : Nat) (stack : List Row)
    (visited : Array Row) (hstack : ∀ row ∈ stack, motive row.id)
    (hvisited : ∀ row ∈ visited, motive row.id) :
    ∀ row ∈ visit t fuel stack visited, motive row.id := by
  induction fuel generalizing stack visited with
  | zero => exact hvisited
  | succ fuel ih =>
      cases stack with
      | nil => exact hvisited
      | cons top stack =>
          have htop : motive top.id := hstack top List.mem_cons_self
          refine ih _ _ ?_ ?_
          -- What is pushed is a child of the row on top, or was on the stack before.
          · intro row hrow
            rcases List.mem_append.1 hrow with hbelow | hrow
            · obtain ⟨c, hc, rfl⟩ := List.mem_map.1 hbelow
              exact step top.id htop c (Array.mem_toList_iff.1 hc)
            · exact hstack row (List.mem_cons_of_mem _ hrow)
          · intro row hrow
            rcases Array.mem_push.1 hrow with hrow | rfl
            · exact hvisited row hrow
            · exact htop

/-- What holds of the root and is passed on from a node to its children
holds of every listed node. -/
theorem rows_forall {t : Tree} {motive : NodeId → Prop} (hroot : motive root)
    (step : ∀ q, motive q → ∀ c ∈ t.children q, motive c) : ∀ row ∈ t.rows, motive row.id := by
  intro row hrow
  refine visit_forall step t.size [⟨0, root⟩] #[] ?_ ?_ row (Array.mem_toList_iff.1 hrow)
  · rintro row hrow
    rw [List.mem_singleton.1 hrow]
    exact hroot
  · intro row hrow
    exact absurd hrow (Array.not_mem_empty row)

/-- The nodes of the rows in pre-order. -/
def rowNodes (t : Tree) : List (Row × Node) :=
  t.rows.filterMap fun row => t.nodes[row.id]?.map (row, ·)

/-- The errors and warnings in pre-order. -/
def diagnostics (t : Tree) : List Node :=
  (t.rowNodes.map Prod.snd).filter fun n => n.kind.isDiagnostic

end Tree

end CDeclarations
