import CDeclarations.Proofs.Tree.PreOrder

/-!
# `CDeclarations.Proofs.Tree.Tidy`: trees with one error at most

A parse grows a tree that holds no error, until it adds one and stops.

* `Tidy`: a tree without errors, warnings and messages. An append of
  another node keeps it (`Tidy.add`).
* `EndsWith`: the tree has one error, which is the last node and has the
  last row. An error added to the spine of a tidy tree is such a one
  (`Tidy.endsWith_add`).
* `count_add`: an append adds one node of its kind.
-/

set_option autoImplicit false

namespace CDeclarations.Tree

variable {t : Tree} {parent : NodeId}

/-- The tree is ordered, and no node of it is an error or a warning or
carries a message. -/
structure Tidy (t : Tree) : Prop extends Ordered t where
  clean : ∀ {id : NodeId} {n : Node}, t.nodes[id]? = some n →
    n.kind.isDiagnostic = false ∧ n.diagnostic = none

/-- A new tree has no diagnostic. -/
theorem tidy_ofUnit (kind : UnitKind) (filename : String) : (ofUnit kind filename).Tidy where
  toOrdered := ordered_ofUnit kind filename
  clean := by
    intro id n hn
    obtain ⟨-, rfl⟩ := eq_of_getElem?_ofRoot hn
    exact ⟨by cases kind <;> rfl, rfl⟩

/-- The nodes of a grown tree have the kinds and the messages of the
nodes before, but for the new one. -/
theorem eq_of_getElem?_add {kind : NodeKind} {position : Position}
    {payload diagnostic : Option String} (h : parent < t.size) {id : NodeId} {n : Node}
    (hn : (t.add parent kind position payload diagnostic).nodes[id]? = some n) :
    (n.kind = kind ∧ n.diagnostic = diagnostic) ∨
      ∃ m, t.nodes[id]? = some m ∧ n.kind = m.kind ∧ n.diagnostic = m.diagnostic := by
  rw [getElem?_add kind position payload diagnostic h] at hn
  split at hn
  · cases hn
    exact Or.inl ⟨rfl, rfl⟩
  · obtain ⟨m, hm, rfl⟩ := Option.map_eq_some_iff.1 hn
    refine Or.inr ⟨m, hm, ?_⟩
    split <;> exact ⟨rfl, rfl⟩

/-- A node that is no diagnostic leaves the tree tidy. -/
theorem Tidy.add (ht : t.Tidy) (h : parent < t.size) {kind : NodeKind}
    (hk : kind.isDiagnostic = false) {position : Position} {payload : Option String} :
    (t.add parent kind position payload none).Tidy where
  toOrdered := ht.toOrdered.add h
  clean := by
    intro id n hn
    rcases eq_of_getElem?_add h hn with ⟨hkind, hdiagnostic⟩ | ⟨m, hm, hkind, hdiagnostic⟩
    · rw [hkind, hdiagnostic]
      exact ⟨hk, rfl⟩
    · rw [hkind, hdiagnostic]
      exact ht.clean hm

/-! ### The nodes of one kind -/

/-- The nodes of a kind are counted in the order of the tree. -/
theorem count_eq_countP (t : Tree) (kind : NodeKind) :
    t.count kind = t.nodes.toList.countP fun n => n.kind = kind :=
  (Array.countP_toList ..).symm

/-- A node that gets a child keeps its kind. -/
theorem countP_kind_modify (nodes : List Node) (parent child : NodeId) (kind : NodeKind) :
    ((nodes.modify parent (·.withChild child)).countP fun n => n.kind = kind) =
      nodes.countP fun n => n.kind = kind := by
  induction nodes generalizing parent with
  | nil => simp
  | cons n nodes ih =>
      cases parent with
      | zero => rw [List.modify_zero_cons, List.countP_cons, List.countP_cons]; rfl
      | succ parent => rw [List.modify_succ_cons, List.countP_cons, List.countP_cons, ih]

/-- An append adds one node of its kind. -/
theorem count_add (h : parent < t.size) (kind kind' : NodeKind) (position : Position)
    (payload diagnostic : Option String) :
    (t.add parent kind position payload diagnostic).count kind' =
      t.count kind' + if kind = kind' then 1 else 0 := by
  rw [count_eq_countP, toList_add kind position payload diagnostic h, List.countP_append,
    countP_kind_modify, ← count_eq_countP, List.countP_singleton]
  simp

/-- A tree has no errors exactly when it counts none. -/
theorem hasErrors_eq_false_iff (t : Tree) : t.hasErrors = false ↔ t.count .error = 0 := by
  rw [count, Array.countP_eq_zero, hasErrors, Array.any_eq_false']

/-- A tidy tree counts no diagnostic. -/
theorem Tidy.count_eq_zero (ht : t.Tidy) {kind : NodeKind} (hk : kind.isDiagnostic = true) :
    t.count kind = 0 := by
  rw [count, Array.countP_eq_zero]
  intro n hn hkind
  obtain ⟨id, hid⟩ := Array.getElem?_of_mem hn
  have hclean := (ht.clean hid).1
  rw [of_decide_eq_true hkind, hk] at hclean
  cases hclean

/-! ### Trees with one error -/

/-- The one error of the tree is `error`, which is the last node and has
the last row. -/
structure EndsWith (t : Tree) (error : Node) : Prop where
  last : t.nodes.back? = some error
  last_row : t.rows.getLast?.map Row.id = some (t.size - 1)
  kind : error.kind = .error
  count : t.count .error = 1

/-- No node of the tree is a warning, and only errors carry messages. -/
structure OnlyErrors (t : Tree) : Prop where
  count_warning : t.count .warning = 0
  diagnostic : ∀ n ∈ t.nodes, n.kind ≠ .error → n.diagnostic = none

/-- A tidy tree has messages at errors only, for it has none. -/
theorem Tidy.onlyErrors (ht : t.Tidy) : t.OnlyErrors where
  count_warning := ht.count_eq_zero rfl
  diagnostic := by
    intro n hn _
    obtain ⟨id, hid⟩ := Array.getElem?_of_mem hn
    exact (ht.clean hid).2

/-- With one error added only that error has a message. -/
theorem Tidy.onlyErrors_add (ht : t.Tidy) (h : parent < t.size) (position : Position)
    (payload diagnostic : Option String) :
    (t.add parent .error position payload diagnostic).OnlyErrors where
  count_warning := by rw [count_add h, ht.count_eq_zero rfl, if_neg (by decide)]
  diagnostic := by
    intro n hn hkind
    obtain ⟨id, hid⟩ := Array.getElem?_of_mem hn
    rcases eq_of_getElem?_add h hid with ⟨herror, -⟩ | ⟨m, hm, -, hdiagnostic⟩
    · exact absurd herror hkind
    · rw [hdiagnostic]
      exact (ht.clean hm).2

/-- An error added to the spine of a tidy tree ends it. -/
theorem Tidy.endsWith_add (ht : t.Tidy) (h : t.Spine parent) (position : Position)
    (payload diagnostic : Option String) :
    (t.add parent .error position payload diagnostic).EndsWith
      ⟨.error, some parent, #[], position, payload, diagnostic⟩ := by
  have hlinked := ht.toLinked
  have hlt := h.lt_size hlinked
  have hordered : (t.add parent .error position payload diagnostic).Ordered := ht.toOrdered.add hlt
  have hnew := h.add_size hlinked .error position payload diagnostic
  have hleaf : (t.add parent .error position payload diagnostic).children t.size = #[] := by
    rw [children_add _ _ _ _ hlt, if_neg (Nat.ne_of_gt hlt), children_of_le (Nat.le_refl _)]
  have hsize := t.size_add parent .error position payload diagnostic
  -- The error is the last node of the tree, its last row, and the only one of its kind.
  refine ⟨?_, ?_, rfl, ?_⟩
  · rw [Array.back?_eq_getElem?]
    show (t.add parent .error position payload diagnostic).nodes[
      (t.add parent .error position payload diagnostic).size - 1]? = _
    rw [hsize, Nat.add_sub_cancel, getElem?_add _ _ _ _ hlt, if_pos rfl]
  · rw [hsize, Nat.add_sub_cancel]
    exact hnew.getLast?_rows hordered hleaf
  · rw [count_add hlt, ht.count_eq_zero rfl, if_pos rfl]

end CDeclarations.Tree
