import CDeclarations.Proofs.Parser.ErrorNode
import CDeclarations.Proofs.Parser.Tagging
import CDeclarations.Proofs.Tree.ReadingOrder

/-!
# `CDeclarations.Proofs.Parser.Attaching`: where a token's nodes go

A token adds its nodes one after another, all of them at its own
position. Each goes under the spine of the tree, but for the tag of a
composed type, which goes below the type that awaits it.

* `Tree.Attaches`: a tree that such steps lead to. They keep a tree
  ordered and straight (`Attaches.ordered`, `Attaches.straight`), and
  change no position (`Attaches.position`).
* `Growing.attaches_feed`: whatever a token does is such steps, with one
  lemma for each state's handler.
-/

set_option autoImplicit false

namespace CDeclarations

namespace Tree

/-- The token's nodes are added to `t`, one after another: each under
the spine, or as the tag of the type that awaits it. -/
inductive Attaches (token : Token) (t : Tree) : Tree → Prop
  | none : Attaches token t t
  | node {u : Tree} {parent : NodeId} (h : Attaches token t u) (hparent : u.Spine parent)
      (kind : NodeKind) (payload diagnostic : Option String) :
      Attaches token t (u.add parent kind token.position payload diagnostic)
  | tag {u : Tree} {datatype type : NodeId} (h : Attaches token t u) (hregular : u.Regular)
      (hspine : u.Spine datatype) (htype : u.AwaitsTag datatype type) :
      Attaches token t (u.addLeaf type .identifier token)

namespace Attaches

variable {token : Token} {t u : Tree}

/-- What is attached keeps the order of the tree. -/
theorem ordered (h : t.Attaches token u) (ht : t.Ordered) : u.Ordered := by
  induction h with
  | none => exact ht
  | node _ hparent _ _ _ ih => exact ih.add (hparent.lt_size ih.toLinked)
  | tag _ _ _ htype ih => exact ih.add htype.holds.lt_size

/-- What is attached keeps every node behind the nodes before it. -/
theorem straight (h : t.Attaches token u) (ht : t.Ordered) (hstraight : t.Straight) :
    u.Straight := by
  induction h with
  | none => exact hstraight
  | node h hparent _ _ _ ih => exact ih.add (h.ordered ht) hparent
  | tag h hregular hspine htype ih => exact ih.addTag (h.ordered ht) hregular hspine htype

/-- The tree does not lose nodes. -/
theorem size_le (h : t.Attaches token u) : t.size ≤ u.size := by
  induction h with
  | none => exact Nat.le_refl _
  | node _ _ _ _ _ ih =>
      rw [size_add]
      exact Nat.le_succ_of_le ih
  | tag _ _ _ _ ih =>
      rw [size_addLeaf]
      exact Nat.le_succ_of_le ih

/-- A node of a grown tree is an old one, at its old position, or the
new one. -/
theorem position_add {t : Tree} {parent : NodeId} (h : parent < t.size) {kind : NodeKind}
    {position : Position} {payload diagnostic : Option String} {id : NodeId} {m : Node}
    (hm : (t.add parent kind position payload diagnostic).nodes[id]? = some m) :
    (∃ n, t.nodes[id]? = some n ∧ m.position = n.position) ∨
      (id = t.size ∧ m.position = position) := by
  rw [getElem?_add kind position payload diagnostic h] at hm
  split at hm
  · next hid =>
    cases hm
    exact Or.inr ⟨hid, rfl⟩
  · obtain ⟨n, hn, rfl⟩ := Option.map_eq_some_iff.1 hm
    refine Or.inl ⟨n, hn, ?_⟩
    split <;> rfl

/-- The nodes of the tree are old ones, at their old positions, or new
ones at the position of the token. -/
theorem position (h : t.Attaches token u) (ht : t.Ordered) {id : NodeId} {m : Node}
    (hm : u.nodes[id]? = some m) :
    (∃ n, t.nodes[id]? = some n ∧ m.position = n.position) ∨
      (t.size ≤ id ∧ m.position = token.position) := by
  -- Over the nodes that were attached: the last one is new, and the others are looked
  -- at in the tree before it.
  induction h generalizing m with
  | none => exact Or.inl ⟨m, hm, rfl⟩
  | node h hparent _ _ _ ih =>
      rcases position_add (hparent.lt_size (h.ordered ht).toLinked) hm with
        ⟨n, hn, hposition⟩ | ⟨rfl, hposition⟩
      · rw [hposition]
        exact ih hn
      · exact Or.inr ⟨h.size_le, hposition⟩
  | tag h _ _ htype ih =>
      rcases position_add htype.holds.lt_size hm with ⟨n, hn, hposition⟩ | ⟨rfl, hposition⟩
      · rw [hposition]
        exact ih hn
      · exact Or.inr ⟨h.size_le, hposition⟩

end Attaches

end Tree

namespace Parser

variable {p : Parser} {token : Token}

/-- A digested token goes below the datatype or beside it, or is a
tag. -/
theorem attaches_digestAt {t : Tree} (h : t.Attaches token p.tree) (hp : p.tree.Regular)
    {datatype : NodeId} (hd : p.tree.Spine datatype)
    (htag : (p.flags.forSequence p.tree datatype).awaitsTag = true →
      p.tree.AwaitsTag datatype (p.tree.tagParent datatype)) (within behind : State) :
    t.Attaches token (p.digestAt datatype token within behind).tree := by
  have hlinked := hp.toLinked
  -- One case for each verdict on the word.
  cases hj : (p.flags.forSequence p.tree datatype).judge token with
  | part kind after =>
      simp only [digestAt, digest, hj]
      exact h.node hd _ _ _
  | composed word after =>
      simp only [digestAt, digest, hj]
      exact (h.node hd .userType none none).node (hd.add_size hlinked _ _ _ _) _ _ _
  | tag after =>
      simp only [digestAt, digest, hj]
      exact h.tag hp hd (htag (Flags.awaitsTag_of_judge hj))
  | name =>
      simp only [digestAt, digest, hj]
      exact h.node (hd.parentOrSelf hlinked) _ _ _
  | refused failure =>
      simp only [digestAt, digest, hj]
      exact h.node hd _ _ _

/-! ### The handlers -/

/-- An idle parser attaches a container and perhaps the first specifier. -/
theorem Growing.attaches_onIdle (hp : p.Growing) (hsound : p.Sound) :
    p.tree.Attaches token (p.onIdle token).tree := by
  rw [onIdle]
  split
  · exact .node .none hp.spine _ _ _
  split
  · refine attaches_digestAt (.node .none hp.spine _ _ _) (hsound.regular.add hsound.stem)
      (hp.spine.add_size hp.tidy.toLinked _ _ _ _) ?_ _ _
    -- The datatype is new, and nothing in it awaits a tag.
    intro hawaits
    have hnone := Flags.awaitsTag_addContainer hp.lt_size p.flags .datatype token
    exact Bool.noConfusion (hnone.symm.trans hawaits)
  · exact .node .none hp.spine _ _ _

/-- The word of a directive attaches one container. -/
theorem Growing.attaches_onPreprocessor (hp : p.Growing) :
    p.tree.Attaches token (p.onPreprocessor token).tree := by
  -- Three words open a directive, and any other token is refused.
  rw [onPreprocessor]
  split
  · exact .node .none hp.spine _ _ _
  split
  · exact .node .none hp.spine _ _ _
  split
  · exact .node .none hp.spine _ _ _
  · exact .node .none hp.spine _ _ _

/-- A container and the two nodes below it. -/
theorem Growing.attaches_bracket (hp : p.Growing) (outer bracket inner : NodeKind) :
    p.tree.Attaches token (((p.tree.addContainer p.place outer token).addLeaf p.tree.size bracket
      token).addContainer p.tree.size inner token) := by
  have hlinked := hp.tidy.toLinked
  have hnew : (p.tree.addContainer p.place outer token).Spine p.tree.size :=
    hp.spine.add_size hlinked _ _ _ _
  have hlinked' : (p.tree.addContainer p.place outer token).Linked := hlinked.add hp.lt_size
  have hfirst : p.tree.Attaches token (p.tree.addContainer p.place outer token) :=
    .node .none hp.spine _ _ _
  exact (hfirst.node hnew bracket (some token.text) none).node
    (hnew.add_self hlinked' _ _ _ _) _ _ _

/-- What follows a declared name is attached below the open container. -/
theorem Growing.attaches_onIdentifier (hp : p.Growing) :
    p.tree.Attaches token (p.onIdentifier token).tree := by
  have hlinked := hp.tidy.toLinked
  rw [onIdentifier]
  -- The end of a declaration, a length, parameters, an initializer, and two refusals.
  split
  · exact .node .none hp.spine _ _ _
  split
  · exact .node (.node .none hp.spine .arrayDefinition none none)
      (hp.spine.add_size hlinked _ _ _ _) _ _ _
  split
  · exact hp.attaches_bracket _ _ _
  split
  · exact .node .none hp.spine _ _ _
  split
  · exact .node .none hp.spine _ _ _
  · exact .node .none hp.spine _ _ _

/-- The content of a length is attached below it. -/
theorem Growing.attaches_onArrayDefinition (hp : p.Growing) :
    p.tree.Attaches token (p.onArrayDefinition token).tree := by
  rw [onArrayDefinition]
  split
  · exact .node .none hp.spine _ _ _
  split
  · exact .node .none hp.spine _ _ _
  · exact .node .none hp.spine _ _ _

/-- The content of an initializer is attached at the place or one level above
it. -/
theorem Growing.attaches_onInitialization (hp : p.Growing) :
    p.tree.Attaches token (p.onInitialization token).tree := by
  have hup := hp.spine.parentOrSelf hp.tidy.toLinked
  unfold onInitialization
  dsimp only
  generalize (if p.tree.kind? p.place = some .arrayItem then p.nesting else 0) = count
  -- The brackets open and close, the separators do or do not stand at the count zero,
  -- and any other token is content.
  split
  · exact hp.attaches_bracket _ _ _
  split
  · split
    · exact .node .none hup _ _ _
    · exact .node .none hp.spine _ _ _
  split
  · split
    · exact .node .none hup _ _ _
    · exact .node .none hp.spine _ _ _
  split
  · split
    · exact .node .none hup _ _ _
    · exact .node .none hp.spine _ _ _
  · exact .node .none hp.spine _ _ _

/-- The content of parameters is attached below them. -/
theorem Growing.attaches_onParameters (hp : p.Growing) (hsound : p.Sound) (htags : p.Tagging)
    (hs : p.state = .parameters) : p.tree.Attaches token (p.onParameters token).tree := by
  have hlinked := hp.tidy.toLinked
  -- The list of parameters is the place, or the container of the place inside a
  -- parameter.
  have hparams : p.tree.Spine
      (if p.tree.kind? p.place = some .datatype then p.up p.place else p.place) := by
    split
    · exact hp.spine.parentOrSelf hlinked
    · exact hp.spine
  rw [onParameters]
  split
  · exact .node .none hparams _ _ _
  split
  · exact .node (.node .none hparams .parameterSeparator (some token.text) none)
      (hparams.add_self hlinked _ _ _ _) _ _ _
  split
  · next hopen =>
    exact attaches_digestAt .none hsound.regular hp.spine
      (htags.awaitsTag_tagParent (Or.inr hs) hopen) _ _
  · exact .node .none hp.spine _ _ _

/-- In every state the token is attached on the way up from the place. -/
theorem Growing.attaches_handle (hp : p.Growing) (hsound : p.Sound) (htags : p.Tagging) :
    p.tree.Attaches token (p.handle token).tree := by
  -- State by state; only the two that read specifiers need the flags.
  rw [handle]
  split
  · exact hp.attaches_onIdle hsound
  · exact hp.attaches_onPreprocessor
  · exact .node .none hp.spine _ _ _
  · exact .node .none hp.spine _ _ _
  · exact .node .none hp.spine _ _ _
  · exact .node .none hp.spine _ _ _
  · next hs =>
    have hplace : p.tree.Holds p.place .datatype Tree.root := hsound.seats_of hs
    exact attaches_digestAt .none hsound.regular hp.spine
      (htags.awaitsTag_tagParent (Or.inl hs) hplace.kind?) _ _
  · exact hp.attaches_onIdentifier
  · exact hp.attaches_onArrayDefinition
  · exact hp.attaches_onInitialization
  · next hs => exact hp.attaches_onParameters hsound htags hs
  · exact .node .none hp.spine _ _ _
  · exact .none

/-- What a token does to a tree: its nodes are added where they may
be. -/
theorem Growing.attaches_feed (hp : p.Growing) (hsound : p.Sound) (htags : p.Tagging)
    (token : Token) : p.tree.Attaches token (p.feed token).tree := by
  rw [feed]
  split
  · exact .none
  split
  · exact .node .none hp.spine _ _ _
  · exact .node .none hp.spine _ _ _
  · exact .node .none hp.spine _ _ _
  · exact hp.attaches_handle hsound htags

end Parser

end CDeclarations
