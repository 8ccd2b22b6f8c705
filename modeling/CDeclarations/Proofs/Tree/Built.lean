import CDeclarations.Proofs.Tree.PreOrder

/-!
# `CDeclarations.Proofs.Tree.Built`: trees that appends build

A tree begins with the root of a unit and grows by one node after
another, each under a node that is there. Such trees are ordered
(`Built.ordered`), which is all that their pre-order needs.

`Legible` says besides what a tree needs to be read back from its
outline: units show no position, and a message fills the rest of its
line.
-/

set_option autoImplicit false

namespace CDeclarations.Tree

variable {t : Tree} {id : NodeId} {n : Node}

/-- The tree is the root of a unit with nodes appended to it one after
another, each under a node that was there before it. -/
inductive Built : Tree → Prop
  | unit (kind : UnitKind) (filename : String) : Built (ofUnit kind filename)
  | add {t : Tree} {parent : NodeId} (ht : Built t) (h : parent < t.size) (kind : NodeKind)
      (position : Position) (payload diagnostic : Option String) :
      Built (t.add parent kind position payload diagnostic)

/-- The children of every node of a built tree are in the order in which they
came. -/
theorem Built.ordered (h : t.Built) : t.Ordered := by
  induction h with
  | unit kind filename => exact ordered_ofUnit kind filename
  | add _ h _ _ _ _ ih => exact ih.add h

/-- The root stems from no token. -/
theorem Built.position_root (h : t.Built) (hn : t.nodes[root]? = some n) :
    n.position = .nowhere := by
  induction h generalizing n with
  | unit kind filename =>
      cases hn
      rfl
  | add ht h _ _ _ _ ih =>
      obtain ⟨m, hm, -⟩ := ht.ordered.root
      obtain ⟨k, hk, hgrows⟩ := grows_add h root m hm
      obtain rfl : k = n := Option.some.inj (hk.symm.trans hn)
      rw [hgrows.position]
      exact ih hm

/-- No node below the root is a unit, and every message fits on one
line. -/
structure Legible (t : Tree) : Prop where
  built : t.Built
  isUnit : ∀ {id : NodeId} {n : Node}, t.nodes[id]? = some n → id ≠ root → n.kind.isUnit = false
  message : ∀ {id : NodeId} {n : Node} {message : String}, t.nodes[id]? = some n →
    n.diagnostic = some message → '\n' ∉ message.toList

/-- A tree of a root alone is legible. -/
theorem legible_ofUnit (kind : UnitKind) (filename : String) :
    (ofUnit kind filename).Legible where
  built := .unit kind filename
  isUnit := by
    intro id n hn hid
    exact absurd (eq_of_getElem?_ofRoot hn).1 hid
  message := by
    intro id n message hn hmessage
    obtain ⟨-, rfl⟩ := eq_of_getElem?_ofRoot hn
    cases hmessage

/-- An append keeps a tree legible where it is no unit and its message is one
line. -/
theorem Legible.add (ht : t.Legible) {parent : NodeId} (h : parent < t.size) {kind : NodeKind}
    (hkind : kind.isUnit = false) (position : Position) (payload : Option String)
    {diagnostic : Option String}
    (hmessage : ∀ message, diagnostic = some message → '\n' ∉ message.toList) :
    (t.add parent kind position payload diagnostic).Legible where
  built := ht.built.add h kind position payload diagnostic
  isUnit := by
    intro id n hn hid
    rw [getElem?_add kind position payload diagnostic h] at hn
    split at hn
    -- The new node is no unit, and an old one is what it was.
    · cases hn
      exact hkind
    · obtain ⟨m, hm, rfl⟩ := Option.map_eq_some_iff.1 hn
      have hm' := ht.isUnit hm hid
      split <;> exact hm'
  message := by
    intro id n message hn hdiagnostic
    rw [getElem?_add kind position payload diagnostic h] at hn
    split at hn
    · cases hn
      exact hmessage message hdiagnostic
    · obtain ⟨m, hm, rfl⟩ := Option.map_eq_some_iff.1 hn
      have hdiagnostic' : m.diagnostic = some message := by
        split at hdiagnostic <;> exact hdiagnostic
      exact ht.message hm hdiagnostic'

end CDeclarations.Tree
