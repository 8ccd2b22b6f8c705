import CDeclarations.Proofs.Tree.Relabelled
import CDeclarations.Token.Cursor

/-!
# `CDeclarations.Proofs.Tree.Unplaced`: positions taken out of a tree

Nothing that a parse looks up in its tree depends on the positions of
the nodes, and no token depends on where its text begins. A text that
is read from another position gives the same tokens at other positions,
and so the same tree but for the positions.

* `Tree.unplaced`: the tree with all nodes at `0:0`.
* `View.unplaced`: a parse runs on it as it runs on the tree.
* `Cursor.next_unplaced`: a token is read the same wherever its text
  begins.
-/

set_option autoImplicit false

namespace CDeclarations

/-- The node without its position. -/
def Node.unplaced (n : Node) : Node :=
  { n with position := .nowhere }

/-- The token without its position. -/
def Token.unplaced (token : Token) : Token :=
  { token with position := .nowhere }

namespace Tree

/-- The tree without the positions of its nodes. -/
def unplaced (t : Tree) : Tree :=
  ⟨t.nodes.map Node.unplaced⟩

variable (t : Tree) (id : NodeId)

/-- Taking the position away changes nothing that the parser looks at. -/
theorem relabels_unplaced : Node.Relabels Node.unplaced :=
  ⟨fun _ => rfl, fun _ => rfl, fun _ => rfl, fun _ _ => rfl⟩

/-- Without positions the tree has as many nodes. -/
@[simp] theorem size_unplaced : t.unplaced.size = t.size :=
  size_relabel t Node.unplaced

/-- Without positions the kinds are the same. -/
@[simp] theorem kind?_unplaced : t.unplaced.kind? id = t.kind? id :=
  kind?_relabel t id relabels_unplaced

/-- Without positions the parents are the same. -/
@[simp] theorem parentOrSelf_unplaced : t.unplaced.parentOrSelf id = t.parentOrSelf id :=
  parentOrSelf_relabel t id relabels_unplaced

/-- Without positions a datatype has begun as before. -/
@[simp] theorem isUnbegun_unplaced : t.unplaced.isUnbegun id = t.isUnbegun id :=
  isUnbegun_relabel t id relabels_unplaced

/-- Without positions a tag goes under the same node. -/
@[simp] theorem tagParent_unplaced : t.unplaced.tagParent id = t.tagParent id :=
  tagParent_relabel t id relabels_unplaced

/-- An append to the tree is seen without its position. -/
theorem unplaced_add {t : Tree} {parent : NodeId} (h : parent < t.size) (kind : NodeKind)
    (position : Position) (payload diagnostic : Option String) :
    (t.add parent kind position payload diagnostic).unplaced =
      t.unplaced.add parent kind .nowhere payload diagnostic :=
  relabel_add relabels_unplaced h rfl

end Tree

/-- A tree seen without the positions of its nodes. -/
def View.unplaced : View where
  tree := Tree.unplaced
  id := fun _ id => id
  position := fun _ => .nowhere
  id_size := fun _ _ => by rw [Tree.size_unplaced]
  kind? := fun _ _ _ _ => Tree.kind?_unplaced _ _
  parentOrSelf := fun _ _ _ => Tree.parentOrSelf_unplaced _ _
  isUnbegun := fun _ _ _ _ => Tree.isUnbegun_unplaced _ _
  tagParent := fun _ _ _ _ => Tree.tagParent_unplaced _ _
  add := fun _ _ h _ _ _ _ _ => Tree.unplaced_add h.lt_size _ _ _ _
  id_add := fun _ _ _ _ _ _ _ _ => rfl

/-! ### Reading from another position -/

namespace Cursor

/-- What is read, without the positions. -/
def unplacedRead (read : Option Token × Cursor) : Option Token × List Char :=
  (read.1.map Token.unplaced, read.2.unread)

/-- The same is read of a text wherever it begins. -/
theorem next_unplaced {c d : Cursor} (h : c.unread = d.unread) (mode : TokenMode) :
    unplacedRead (c.next mode) = unplacedRead (d.next mode) := by
  cases mode with
  | normal =>
      simp only [next, nextNormal, h]
      split <;> rfl
  | includeName =>
      simp only [next, nextIncludeName, h]
      split <;> rfl
  | defineBody =>
      simp only [next, nextDefineBody, h]
      rfl

/-- Where one cursor reads nothing, neither does another one over the same
text. -/
theorem exists_next_none {c d e : Cursor} (h : c.unread = d.unread) {mode : TokenMode}
    (hnext : c.next mode = (none, e)) :
    ∃ e', d.next mode = (none, e') ∧ e.unread = e'.unread := by
  have hread := next_unplaced h mode
  rw [hnext] at hread
  cases hd : d.next mode with
  | mk found e' =>
      rw [hd] at hread
      obtain ⟨hfound, hunread⟩ := Prod.mk.inj hread
      have hnone : found = none := Option.map_eq_none_iff.1 hfound.symm
      exact ⟨e', by rw [hnone], hunread⟩

/-- Where one cursor reads a token, another one over the same text reads it at
its own position. -/
theorem exists_next_some {c d e : Cursor} (h : c.unread = d.unread) {mode : TokenMode}
    {token : Token} (hnext : c.next mode = (some token, e)) :
    ∃ token' e', d.next mode = (some token', e') ∧ token.unplaced = token'.unplaced ∧
      e.unread = e'.unread := by
  have hread := next_unplaced h mode
  rw [hnext] at hread
  cases hd : d.next mode with
  | mk found e' =>
      rw [hd] at hread
      obtain ⟨hfound, hunread⟩ := Prod.mk.inj hread
      obtain ⟨token', rfl, htoken⟩ := Option.map_eq_some_iff.1 hfound.symm
      exact ⟨token', e', rfl, htoken.symm, hunread⟩

end Cursor

end CDeclarations
