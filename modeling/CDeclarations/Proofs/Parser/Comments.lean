import CDeclarations.Proofs.Tree.Comments

/-!
# `CDeclarations.Proofs.Parser.Comments`: comments change nothing but the tree

A comment is kept at the place where it stands. Whether a parse is
handed the comments of a text or not, it ends in the same state with
the same categories, count of braces and mode, and its tree is the same
but for the comments (`feedAll_filter_comments`).

* `Sound.withoutComments_feed_comment`: a comment leaves the parse
  without comments as it is.
* `Sound.withoutComments_feedAll`: every other token is handed to it.
-/

set_option autoImplicit false

namespace CDeclarations.Parser

/-- The parse with the comments taken out of its tree. Its place is the
node that the place is numbered as. -/
def withoutComments (p : Parser) : Parser :=
  { p with tree := p.tree.withoutComments, place := p.tree.rank p.place }

variable {p : Parser} {token : Token}

/-- A comment at the place of a parse is not seen. -/
theorem Sound.withoutComments_leaf (hp : p.Sound) {kind : NodeKind} (hk : kind.isComment = true) :
    (p.leaf p.place kind token).withoutComments = p.withoutComments := by
  have hstem := hp.stem
  have htree : (p.tree.addLeaf p.place kind token).withoutComments = p.tree.withoutComments :=
    Tree.withoutComments_add_comment hp.regular.toLinked hstem hk
  have hplace : (p.tree.addLeaf p.place kind token).rank p.place = p.tree.rank p.place :=
    Tree.rank_add_of_le hstem.lt_size (Nat.le_of_lt hstem.lt_size)
  show Parser.mk (p.tree.addLeaf p.place kind token).withoutComments _
    ((p.tree.addLeaf p.place kind token).rank p.place) _ _ _ = _
  rw [htree, hplace]
  rfl

/-- A comment leaves the parse without comments as it is. -/
theorem Sound.withoutComments_feed_comment (hp : p.Sound) (hk : token.kind.isComment = true) :
    (p.feed token).withoutComments = p.withoutComments := by
  unfold Parser.feed
  split
  · rfl
  cases h : token.kind with
  | blockComment => exact hp.withoutComments_leaf rfl
  | lineComment => exact hp.withoutComments_leaf rfl
  | _ =>
      rw [h] at hk
      cases hk

/-- Without its comments, a parse is handed all tokens but the
comments. -/
theorem Sound.withoutComments_feedAll (hp : p.Sound) (tokens : List Token) :
    (p.feedAll tokens).withoutComments =
      p.withoutComments.feedAll (tokens.filter fun t => !t.kind.isComment) := by
  induction tokens generalizing p with
  | nil => rfl
  | cons token tokens ih =>
      show ((p.feed token).feedAll tokens).withoutComments = _
      rw [ih (hp.feed token)]
      -- A comment is dropped from the tokens and not seen in the parse.
      cases hk : token.kind.isComment with
      | true =>
          rw [hp.withoutComments_feed_comment hk, List.filter_cons_of_neg (by rw [hk]; simp)]
      | false =>
          have hfeed : (p.feed token).withoutComments = p.withoutComments.feed token :=
            hp.view_feed (v := .withoutComments) hk
          rw [hfeed, List.filter_cons_of_pos (by rw [hk]; rfl)]
          rfl

/-- Comments are transparent. A parse that is not handed the comments
ends as the one that is, but that the comments are not in its tree; the
place is a node that is left. -/
theorem feedAll_filter_comments (kind : UnitKind) (filename : String) (tokens : List Token) :
    (ofUnit kind filename).feedAll (tokens.filter fun t => !t.kind.isComment) =
        ((ofUnit kind filename).feedAll tokens).withoutComments ∧
      ((ofUnit kind filename).feedAll tokens).tree.Stem
        ((ofUnit kind filename).feedAll tokens).place := by
  have hsound : (ofUnit kind filename).Sound := sound_ofUnit kind filename
  have hstart : (ofUnit kind filename).withoutComments = ofUnit kind filename := by
    show Parser.mk (Tree.ofUnit kind filename).withoutComments _
      ((Tree.ofUnit kind filename).rank Tree.root) _ _ _ = _
    rw [Tree.withoutComments_ofUnit]
    rfl
  refine ⟨?_, (sound_feedAll hsound tokens).stem⟩
  rw [hsound.withoutComments_feedAll, hstart]

end CDeclarations.Parser
