import CDeclarations.Proofs.Specifier.Sequence

/-!
# `CDeclarations.Proofs.Parser.Footprint`: what one token leaves in the tree

A token that does not find the parse stopped adds one, two or three
nodes, all of them at its own position. Each goes below a node that is
added with it or below one that is near the place: the place itself, its
parent, or the open type of the place where a tag is due. None is a unit,
and the message of an error is the one of its failure.

* `Tree.Adds`: a tree with so many nodes added to it in this way.
* `Sound.appends_feed`: the nodes that a token adds, with one lemma for
  each state's handler.
-/

set_option autoImplicit false

namespace CDeclarations

namespace Tree

/-- So many nodes are added to `t` for a token, one after another. Each
goes below a node that is `near`, or below one that is new itself. -/
inductive Adds (token : Token) (near : NodeId → Prop) (t : Tree) : Nat → Tree → Prop
  | none : Adds token near t 0 t
  | node {count : Nat} {u : Tree} {parent : NodeId} {kind : NodeKind} {diagnostic : Option String}
      (h : Adds token near t count u) (hlt : parent < u.size)
      (hnear : t.size ≤ parent ∨ near parent) (hkind : kind.isUnit = false)
      (payload : Option String)
      (hmessage : ∀ message, diagnostic = some message →
        ∃ failure : Failure, message = failure.message) :
      Adds token near t (count + 1) (u.add parent kind token.position payload diagnostic)

namespace Adds

variable {token : Token} {near : NodeId → Prop} {t u : Tree} {count : Nat} {parent : NodeId}
  {kind : NodeKind}

/-- A leaf with the text of the token is one node more. -/
theorem leaf (h : t.Adds token near count u) (hlt : parent < u.size)
    (hnear : t.size ≤ parent ∨ near parent) (hkind : kind.isUnit = false) :
    t.Adds token near (count + 1) (u.addLeaf parent kind token) :=
  h.node hlt hnear hkind (some token.text) nofun

/-- A container without a text is one node more. -/
theorem container (h : t.Adds token near count u) (hlt : parent < u.size)
    (hnear : t.size ≤ parent ∨ near parent) (hkind : kind.isUnit = false) :
    t.Adds token near (count + 1) (u.addContainer parent kind token) :=
  h.node hlt hnear hkind Option.none nofun

/-- The node of an error is one node more. -/
theorem failure (h : t.Adds token near count u) (hlt : parent < u.size)
    (hnear : t.size ≤ parent ∨ near parent) (failure : Failure) :
    t.Adds token near (count + 1) (u.addFailure parent token failure) := by
  refine h.node hlt hnear rfl (some token.text) ?_
  rintro message ⟨⟩
  exact ⟨failure, rfl⟩

/-- As many nodes as were counted have been added. -/
theorem size_eq (h : t.Adds token near count u) : u.size = t.size + count := by
  induction h with
  | none => rfl
  | node _ _ _ _ _ _ ih => rw [size_add, ih, Nat.add_assoc]

/-- What is added leaves the old nodes where they are. -/
theorem grows (h : t.Adds token near count u) : t.Grows u := by
  induction h with
  | none => exact Grows.refl t
  | node _ hlt _ _ _ _ ih => exact ih.trans (grows_add hlt)

/-- The nodes that are added stand at the token, each below a node that was there
before it. -/
theorem node_of_le (h : t.Adds token near count u) {id : NodeId} {n : Node} (hle : t.size ≤ id)
    (hn : u.nodes[id]? = some n) :
    n.position = token.position ∧
      ∃ parent, n.parent = some parent ∧ parent < id ∧ (t.size ≤ parent ∨ near parent) := by
  -- The last node is the one that is asked for, or it may be taken away.
  induction h generalizing n with
  | none => exact absurd (lt_size_of_getElem? hn) (Nat.not_lt.2 hle)
  | @node count u parent kind diagnostic h hlt hnear _ payload _ ih =>
      rw [getElem?_add kind token.position payload diagnostic hlt] at hn
      split at hn
      · next hid =>
        cases hn
        exact ⟨rfl, parent, rfl, hid ▸ hlt, hnear⟩
      · -- An older node may have got a child, and is otherwise the same.
        obtain ⟨m, hm, rfl⟩ := Option.map_eq_some_iff.1 hn
        have hold := ih hm
        split <;> exact hold

/-- A container and the two nodes below it. -/
theorem bracket (hlt : parent < t.size) (hnear : near parent) {outer bracket inner : NodeKind}
    (houter : outer.isUnit = false) (hbracket : bracket.isUnit = false)
    (hinner : inner.isUnit = false) :
    t.Adds token near 3 (((t.addContainer parent outer token).addLeaf t.size bracket
      token).addContainer t.size inner token) := by
  have hnew := holds_addContainer hlt outer token
  have hnew' := hnew.mono (grows_addLeaf hnew.lt_size bracket token)
  have hfirst : t.Adds token near 1 (t.addContainer parent outer token) :=
    Adds.none.container hlt (Or.inr hnear) houter
  exact (hfirst.leaf hnew.lt_size (Or.inl (Nat.le_refl _)) hbracket).container hnew'.lt_size
    (Or.inl (Nat.le_refl _)) hinner

end Adds

end Tree

namespace Parser

variable {p : Parser} {token : Token}

/-- A parse stands at a datatype whose sequence is under way, and the tag of
its composed type is due. -/
def TagDue (p : Parser) : Prop :=
  (p.state = .datatype ∨ p.state = .parameters) ∧ p.tree.kind? p.place = some .datatype ∧
    (p.flags.forSequence p.tree p.place).awaitsTag = true

/-- The nodes that a token may add something to: the place, its parent and,
where a tag is due, the node that it goes under. -/
def Near (p : Parser) (id : NodeId) : Prop :=
  id = p.place ∨ id = p.up p.place ∨ (p.TagDue ∧ id = p.tree.tagParent p.place)

/-- A digested token adds one node or two, below the datatype, below its
open type or beside it. -/
theorem adds_digestAt {t : Tree} {near : NodeId → Prop} {count : Nat} {datatype : NodeId}
    (h : t.Adds token near count p.tree) (hp : p.tree.Regular) (hd : p.tree.Stem datatype)
    (hnear : t.size ≤ datatype ∨ near datatype)
    (hup : t.size ≤ p.up datatype ∨ near (p.up datatype))
    (htag : (p.flags.forSequence p.tree datatype).awaitsTag = true →
      t.size ≤ p.tree.tagParent datatype ∨ near (p.tree.tagParent datatype))
    (within behind : State) :
    ∃ more, 1 ≤ more ∧ more ≤ 2 ∧
      t.Adds token near (count + more) (p.digestAt datatype token within behind).tree := by
  have hlt := hd.lt_size
  -- A composed type takes two nodes, and every other verdict takes one.
  cases hj : (p.flags.forSequence p.tree datatype).judge token with
  | part kind after =>
      have hkinds : ∀ kind ∈ partKinds, kind.isUnit = false := by decide
      simp only [digestAt, digest, hj]
      have hkind := hkinds kind (Flags.mem_partKinds_of_judge hj)
      exact ⟨1, by decide, by decide, h.leaf hlt hnear hkind⟩
  | composed word after =>
      simp only [digestAt, digest, hj]
      have hnew := Tree.holds_addContainer hlt .userType token
      have hold : t.size ≤ p.tree.size := h.size_eq ▸ Nat.le_add_right _ _
      have hfirst : t.Adds token near (count + 1) (p.tree.addContainer datatype .userType token) :=
        h.container hlt hnear rfl
      have hkind : word.nodeKind.isUnit = false := by cases word <;> rfl
      exact ⟨2, by decide, by decide, hfirst.leaf hnew.lt_size (Or.inl hold) hkind⟩
  | tag after =>
      simp only [digestAt, digest, hj]
      have hparent := htag (Flags.awaitsTag_of_judge hj)
      exact ⟨1, by decide, by decide,
        h.leaf (Tree.Regular.stem_tagParent hd).lt_size hparent rfl⟩
  | name =>
      simp only [digestAt, digest, hj]
      exact ⟨1, by decide, by decide, h.leaf (hp.stem_parentOrSelf hd).lt_size hup rfl⟩
  | refused failure =>
      simp only [digestAt, digest, hj]
      exact ⟨1, by decide, by decide, h.failure hlt hnear failure⟩

/-! ### The handlers -/

/-- One, two or three nodes are added to the tree of the parse for a
token, below nodes that are near its place. -/
def Appends (p : Parser) (token : Token) (u : Tree) : Prop :=
  ∃ count, 1 ≤ count ∧ count ≤ 3 ∧ p.tree.Adds token p.Near count u

/-- The place is near. -/
theorem Near.place (p : Parser) : p.Near p.place :=
  Or.inl rfl

/-- The container of the place is near. -/
theorem Near.up (p : Parser) : p.Near (p.up p.place) :=
  Or.inr (Or.inl rfl)

/-- The parameters that a parse stands at or in are near. -/
theorem Near.parameters (p : Parser) :
    p.Near (if p.tree.kind? p.place = some .datatype then p.up p.place else p.place) := by
  split
  · exact Near.up p
  · exact Near.place p

/-- A single leaf is one node, with no more than three to add. -/
theorem appends_leaf {parent : NodeId} (hlt : parent < p.tree.size) (hnear : p.Near parent)
    {kind : NodeKind} (hkind : kind.isUnit = false) :
    p.Appends token (p.tree.addLeaf parent kind token) :=
  ⟨1, by decide, by decide, Tree.Adds.none.leaf hlt (Or.inr hnear) hkind⟩

/-- So is a single container. -/
theorem appends_container {parent : NodeId} (hlt : parent < p.tree.size) (hnear : p.Near parent)
    {kind : NodeKind} (hkind : kind.isUnit = false) :
    p.Appends token (p.tree.addContainer parent kind token) :=
  ⟨1, by decide, by decide, Tree.Adds.none.container hlt (Or.inr hnear) hkind⟩

/-- So is the node of an error. -/
theorem appends_refuse (hlt : p.place < p.tree.size) (failure : Failure) :
    p.Appends token (p.tree.addFailure p.place token failure) :=
  ⟨1, by decide, by decide, Tree.Adds.none.failure hlt (Or.inr (Near.place p)) failure⟩

/-- The sequence under way is the one at the place. -/
theorem appends_digestAt (hp : p.Sound) (hs : p.state = .datatype ∨ p.state = .parameters)
    (hk : p.tree.kind? p.place = some .datatype) (within behind : State) :
    p.Appends token (p.digestAt p.place token within behind).tree := by
  have htag : (p.flags.forSequence p.tree p.place).awaitsTag = true →
      p.Near (p.tree.tagParent p.place) :=
    fun hawaits => Or.inr (Or.inr ⟨⟨hs, hk, hawaits⟩, rfl⟩)
  obtain ⟨count, hone, htwo, hadds⟩ := adds_digestAt .none hp.regular hp.stem
    (Or.inr (Near.place p)) (Or.inr (Near.up p)) (fun hawaits => Or.inr (htag hawaits))
    within behind
  exact ⟨0 + count, by omega, by omega, hadds⟩

/-- An idle parser adds a container and up to two nodes of a specifier. -/
theorem Sound.appends_onIdle (hp : p.Sound) : p.Appends token (p.onIdle token).tree := by
  have hlt := hp.stem.lt_size
  rw [Parser.onIdle]
  split
  · exact appends_container hlt (Near.place p) rfl
  split
  · -- The datatype is new, so that it awaits no tag.
    have hnew := Tree.holds_addContainer hlt .datatype token
    have hreg : (p.container p.place .datatype token).tree.Regular := hp.regular.add hp.stem
    have hfirst : p.tree.Adds token p.Near 1 (p.container p.place .datatype token).tree :=
      Tree.Adds.none.container hlt (Or.inr (Near.place p)) rfl
    have hnone : (p.flags.forSequence (p.container p.place .datatype token).tree
        p.tree.size).awaitsTag = false := by
      rw [container, Flags.forSequence_addContainer hlt]
      rfl
    obtain ⟨count, hone, htwo, hadds⟩ := adds_digestAt hfirst hreg (hnew.stem rfl)
      (Or.inl (Nat.le_refl _)) (Or.inr (Or.inl hnew.parentOrSelf))
      (fun hawaits => Bool.noConfusion (hnone.symm.trans hawaits)) .datatype .identifier
    exact ⟨1 + count, by omega, by omega, hadds⟩
  · exact appends_refuse hlt _

/-- The word of a directive adds one node. -/
theorem Sound.appends_onPreprocessor (hp : p.Sound) :
    p.Appends token (p.onPreprocessor token).tree := by
  have hlt := hp.stem.lt_size
  rw [Parser.onPreprocessor]
  split
  · exact appends_container hlt (Near.place p) rfl
  split
  · exact appends_container hlt (Near.place p) rfl
  split
  · exact appends_container hlt (Near.place p) rfl
  · exact appends_refuse hlt _

/-- What follows a declared name adds up to three nodes, a pair of brackets
the most. -/
theorem Sound.appends_onIdentifier (hp : p.Sound) :
    p.Appends token (p.onIdentifier token).tree := by
  have hlt := hp.stem.lt_size
  rw [Parser.onIdentifier]
  split
  · exact appends_leaf hlt (Near.place p) rfl
  split
  · -- The bracket goes into the array, which is new.
    have hfirst : p.tree.Adds token p.Near 1 (p.container p.place .arrayDefinition token).tree :=
      Tree.Adds.none.container hlt (Or.inr (Near.place p)) rfl
    have hnew := Tree.holds_addContainer hlt .arrayDefinition token
    exact ⟨2, by decide, by decide, hfirst.leaf hnew.lt_size (Or.inl (Nat.le_refl _)) rfl⟩
  split
  · exact ⟨3, by decide, by decide, .bracket hlt (Near.place p) rfl rfl rfl⟩
  split
  · exact appends_container hlt (Near.place p) rfl
  split
  · exact appends_refuse hlt _
  · exact appends_refuse hlt _

/-- The content of a length adds one node. -/
theorem Sound.appends_onArrayDefinition (hp : p.Sound) :
    p.Appends token (p.onArrayDefinition token).tree := by
  have hlt := hp.stem.lt_size
  rw [Parser.onArrayDefinition]
  split
  · exact appends_leaf hlt (Near.place p) rfl
  split
  · exact appends_refuse hlt _
  · exact appends_leaf hlt (Near.place p) rfl

/-- The content of an initializer adds one node, or three where a list is
opened. -/
theorem Sound.appends_onInitialization (hp : p.Sound) :
    p.Appends token (p.onInitialization token).tree := by
  have hlt := hp.stem.lt_size
  have hup : p.up p.place < p.tree.size := (hp.regular.stem_parentOrSelf hp.stem).lt_size
  unfold Parser.onInitialization
  dsimp only
  generalize (if p.tree.kind? p.place = some .arrayItem then p.nesting else 0) = count
  split
  · exact ⟨3, by decide, by decide, .bracket hlt (Near.place p) rfl rfl rfl⟩
  split
  · split
    · exact appends_leaf hup (Near.up p) rfl
    · exact appends_refuse hlt _
  split
  · split
    · exact appends_container hup (Near.up p) rfl
    · exact appends_refuse hlt _
  split
  · split
    · exact appends_leaf hup (Near.up p) rfl
    · exact appends_refuse hlt _
  · exact appends_leaf hlt (Near.place p) rfl

/-- The content of parameters adds up to two nodes. -/
theorem Sound.appends_onParameters (hp : p.Sound) (hs : p.state = .parameters) :
    p.Appends token (p.onParameters token).tree := by
  have hlt := hp.stem_parameters.lt_size
  have hnear := Near.parameters p
  rw [Parser.onParameters]
  split
  · exact appends_leaf hlt hnear rfl
  split
  · have hstem := hp.stem_parameters.mono (Tree.grows_addLeaf hlt .parameterSeparator token)
    exact ⟨2, by decide, by decide,
      (Tree.Adds.none.leaf hlt (Or.inr hnear) rfl).container hstem.lt_size (Or.inr hnear) rfl⟩
  split
  · next hopen => exact appends_digestAt hp (Or.inr hs) hopen _ _
  · exact appends_refuse hp.stem.lt_size _

/-- In every state the token adds one to three nodes. -/
theorem Sound.appends_handle (hp : p.Sound) (hrun : p.isStopped = false) :
    p.Appends token (p.handle token).tree := by
  have hlt := hp.stem.lt_size
  rw [Parser.handle]
  split
  · exact hp.appends_onIdle
  · exact hp.appends_onPreprocessor
  · exact appends_leaf hlt (Near.place p) rfl
  · exact appends_leaf hlt (Near.place p) rfl
  · exact appends_leaf hlt (Near.place p) rfl
  · exact appends_leaf hlt (Near.place p) rfl
  · next hs =>
    have hplace : p.tree.Holds p.place .datatype Tree.root := hp.seats_of hs
    exact appends_digestAt hp (Or.inl hs) hplace.kind? _ _
  · exact hp.appends_onIdentifier
  · exact hp.appends_onArrayDefinition
  · exact hp.appends_onInitialization
  · next hs => exact hp.appends_onParameters hs
  · exact appends_refuse hlt _
  · next hs =>
    rw [isStopped, hs] at hrun
    cases hrun

/-- What a token does to the tree of a parse that goes on. -/
theorem Sound.appends_feed (hp : p.Sound) (hrun : p.isStopped = false) (token : Token) :
    p.Appends token (p.feed token).tree := by
  have hlt := hp.stem.lt_size
  rw [Parser.feed, if_neg (by rw [← isStopped, hrun]; exact Bool.false_ne_true)]
  split
  · exact appends_leaf hlt (Near.place p) rfl
  · exact appends_leaf hlt (Near.place p) rfl
  · exact appends_refuse hlt _
  · exact hp.appends_handle hrun

end Parser

end CDeclarations
