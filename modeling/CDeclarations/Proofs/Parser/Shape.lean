import CDeclarations.Proofs.Parser.Appending
import CDeclarations.Proofs.Parser.Comments
import CDeclarations.Proofs.Parser.Resumption
import CDeclarations.Proofs.Parser.Tagging
import CDeclarations.Proofs.Tree.Content

/-!
# `CDeclarations.Proofs.Parser.Shape`: the shape of an accepted tree

The shape of the tree of a unit is never checked. It results from where
the place of the parse is at each token. `Tree.OpenAt` says for each
state which nodes are open there, and with which children so far; a
token finds the innermost one and leaves it open or closes it.

* `Shaped`: the tree of the parse fits its open nodes, unless no unit can
  end well from its state. A token that is no comment keeps this
  (`Shaped.feed`), with one lemma for each state's handler.
* `conforms_of_completed`: so the tree of a unit without errors conforms,
  its comments taken out.
-/

set_option autoImplicit false

namespace CDeclarations

/-! ### The open nodes -/

/-- No unit ends well from the state: its functions have no shape. -/
def State.isLost : State → Bool
  | .parameters | .functionDeclared | .stopped _ => true
  | _ => false

namespace Content

/-- The children of the root while the specifiers of a declaration are
read. -/
def unitSpecifying : Language NodeKind :=
  unit * node .datatype

/-- The children of the root while the initializer of a declaration is
read. -/
def unitInitializing : Language NodeKind :=
  unitNamed * node .initialization

end Content

namespace Tree

open Content

variable {t : Tree}

/-- The open nodes around a place in an initializer: each list between
braces that is not closed, and the root. -/
inductive Encloses (t : Tree) : Drafts → NodeId → Prop
  | top {id : NodeId} : t.Holds id .initialization root →
      Encloses t [(root, unitInitializing)] id
  | item {id data outer : NodeId} {drafts : Drafts} : t.Holds id .arrayItem data →
      t.Holds data .arrayData outer → Encloses t drafts outer →
      Encloses t ((data, inBraces) :: drafts) id

/-- The nodes that are open where a parse stands, by its state. -/
def OpenAt (t : Tree) (flags : Flags) (place : NodeId) (drafts : Drafts) : State → Prop
  | .idle => drafts = [(root, unit)]
  | .preprocessor | .includeName | .defineName | .pragma => drafts = [(place, 1), (root, unit)]
  | .defineBody => drafts = [(place, node .defineName), (root, unit)]
  | .datatype => drafts =
      if (flags.forSequence t place).awaitsTag then
        [(t.tagParent place, marker), (root, unitSpecifying)]
      else [(root, unitSpecifying)]
  | .identifier => drafts = [(root, unitNamed)]
  | .arrayDefinition => drafts = [(place, inBrackets), (root, unitNamed)]
  | .initialization => t.Encloses drafts place
  | .parameters | .functionDeclared | .stopped _ => False

/-- In a datatype that awaits no tag only the root is open. -/
theorem openAt_datatype_of_not_awaitsTag {flags : Flags} {datatype : NodeId} {drafts : Drafts}
    (h : (flags.forSequence t datatype).awaitsTag = false) :
    t.OpenAt flags datatype drafts .datatype ↔ drafts = [(root, unitSpecifying)] := by
  rw [OpenAt, h, if_neg Bool.false_ne_true]

/-- In a datatype that awaits a tag the composed type is open as well. -/
theorem openAt_datatype_of_awaitsTag {flags : Flags} {datatype : NodeId} {drafts : Drafts}
    (h : (flags.forSequence t datatype).awaitsTag = true) :
    t.OpenAt flags datatype drafts .datatype ↔
      drafts = [(t.tagParent datatype, marker), (root, unitSpecifying)] := by
  rw [OpenAt, h, if_pos rfl]

/-- A tree that grows keeps the lists around a place open. -/
theorem Encloses.mono {u : Tree} {drafts : Drafts} {id : NodeId} (h : t.Encloses drafts id)
    (hg : t.Grows u) : u.Encloses drafts id := by
  induction h with
  | top hid => exact .top (hid.mono hg)
  | item hid hdata _ ih => exact .item (hid.mono hg) (hdata.mono hg) ih

/-- The nodes that are open around a place stand before it. -/
theorem Encloses.lt (ht : t.Linked) {drafts : Drafts} {id : NodeId} (h : t.Encloses drafts id) :
    ∀ draft ∈ drafts, draft.1 < id := by
  induction h with
  | top hid =>
      intro draft hdraft
      rw [List.mem_singleton.1 hdraft]
      exact hid.parent_lt ht
  | item hid hdata _ ih =>
      intro draft hdraft
      rcases List.mem_cons.1 hdraft with rfl | hdraft
      · exact hid.parent_lt ht
      · exact Nat.lt_trans (Nat.lt_trans (ih draft hdraft) (hdata.parent_lt ht)) (hid.parent_lt ht)

/-- The place is an initializer or an item, and is not open. -/
theorem Encloses.exists_node {drafts : Drafts} {id : NodeId} (h : t.Encloses drafts id) :
    ∃ n, t.nodes[id]? = some n ∧ ofNode n.kind n.payload = initializer := by
  cases h with
  | top hid =>
      obtain ⟨n, hn, hk, -⟩ := hid
      exact ⟨n, hn, by rw [hk]; rfl⟩
  | item hid _ _ =>
      obtain ⟨n, hn, hk, -⟩ := hid
      exact ⟨n, hn, by rw [hk]; rfl⟩

/-- Around the initializer itself only the root is open. -/
theorem Encloses.eq_of_top {drafts : Drafts} {id : NodeId} (h : t.Encloses drafts id)
    (hid : t.Holds id .initialization root) : drafts = [(root, unitInitializing)] := by
  cases h with
  | top _ => rfl
  | item hitem _ _ => cases hid.kind?.symm.trans hitem.kind?

/-- Around an item its list is open, and then what encloses the list. -/
theorem Encloses.exists_of_item {drafts : Drafts} {id data outer : NodeId}
    (h : t.Encloses drafts id) (hid : t.Holds id .arrayItem data)
    (hdata : t.Holds data .arrayData outer) :
    ∃ rest, drafts = (data, inBraces) :: rest ∧ t.Encloses rest outer := by
  cases h with
  | top htop => cases hid.kind?.symm.trans htop.kind?
  | item hid' hdata' houter =>
      obtain rfl := hid.parentOrSelf.symm.trans hid'.parentOrSelf
      obtain rfl := hdata.parentOrSelf.symm.trans hdata'.parentOrSelf
      exact ⟨_, rfl, houter⟩

/-- The place itself has no draft: the drafts are those of the nodes around
it. -/
theorem Encloses.lookup (ht : t.Linked) {drafts : Drafts} {id : NodeId}
    (h : t.Encloses drafts id) : drafts.lookup id = none :=
  lookup_eq_none fun draft hdraft => Nat.ne_of_lt (h.lt ht draft hdraft)

end Tree

namespace Parser

open Content

/-- The tree of the parse fits the nodes that are open where it
stands. -/
def Drafted (p : Parser) : Prop :=
  p.state.isLost = false →
    ∃ drafts, p.tree.OpenAt p.flags p.place drafts p.state ∧ p.tree.Fits drafts

/-- The place fits the state, an open type awaits its tag, and the tree
fits the open nodes. -/
structure Shaped (p : Parser) : Prop extends p.Sound where
  tagging : p.Tagging
  drafted : p.Drafted

variable {p : Parser} {token : Token}

/-- A parser that can no longer complete has nothing to draft. -/
theorem drafted_of_isLost (h : p.state.isLost = true) : p.Drafted := by
  intro hlost
  rw [h] at hlost
  cases hlost

/-- Neither has one that refused a token. -/
theorem drafted_refuse (failure : Failure) : (p.refuse token failure).Drafted :=
  drafted_of_isLost rfl

/-- The nodes that are open in the state that the parse is known to be
in. -/
theorem Shaped.exists_drafts (hp : p.Shaped) {state : State} (hs : p.state = state)
    (hlost : state.isLost = false) :
    ∃ drafts, p.tree.OpenAt p.flags p.place drafts state ∧ p.tree.Fits drafts := by
  subst hs
  exact hp.drafted hlost

/-- The tree of a shaped parser is linked. -/
theorem Shaped.linked (hp : p.Shaped) : p.tree.Linked :=
  hp.regular.toLinked

/-- The parse enters a state with these open nodes. -/
theorem drafted_enter {state : State} {place : NodeId} {drafts : Tree.Drafts}
    (hopen : p.tree.OpenAt p.flags place drafts state) (hfits : p.tree.Fits drafts) :
    (p.enter state place).Drafted :=
  fun _ => ⟨drafts, hopen, hfits⟩

/-! ### The handlers -/

/-- A part of a sequence, and the word of a composed type, have no
children, and any text. -/
theorem content_of_mem_partKinds {kind : NodeKind} (h : kind ∈ partKinds) (text : String) :
    [] ∈ ofNode kind (some text) ∧ Spelled kind (some text) := by
  simp only [partKinds, List.mem_cons, List.not_mem_nil, or_false] at h
  rcases h with rfl | rfl | rfl | rfl | rfl | rfl <;> exact ⟨Language.nil_mem_one, trivial⟩

/-- The marker of a composed type is a leaf, and the type may have it as its
only child. -/
theorem content_of_composed (word : Composed) (text : String) :
    [] ∈ ofNode word.nodeKind (some text) ∧ Spelled word.nodeKind (some text) ∧
      [word.nodeKind] ∈ marker := by
  cases word with
  | union => exact ⟨Language.nil_mem_one, trivial, Or.inl (Or.inl rfl)⟩
  | enum => exact ⟨Language.nil_mem_one, trivial, Or.inl (Or.inr rfl)⟩
  | struct => exact ⟨Language.nil_mem_one, trivial, Or.inr rfl⟩

/-- An identifier that is no reserved word. -/
theorem spelled_identifier (h : token.kind = .identifier ∧ token.keyword? = none) :
    Spelled .identifier (some token.text) := by
  obtain ⟨hidentifier, hkeyword⟩ := h
  rw [Token.keyword?, if_pos hidentifier] at hkeyword
  exact ⟨_, rfl, hkeyword⟩

section Digest

variable {datatype : NodeId} {kind : NodeKind} {word : Composed} {after : Flags}

/-- A part of the sequence goes below the datatype, which is not open. -/
theorem fits_part (hp : p.tree.Linked) (hd : p.tree.Holds datatype .datatype Tree.root)
    (hfits : p.tree.Fits [(Tree.root, unitSpecifying)]) (hk : kind ∈ partKinds) :
    (p.tree.addLeaf datatype kind token).Fits [(Tree.root, unitSpecifying)] := by
  obtain ⟨n, hn, hkind, -⟩ := id hd
  obtain ⟨hnil, hspelled⟩ := content_of_mem_partKinds hk token.text
  refine hfits.add_closed hp (Tree.opens_nil hnil) hn (Tree.lookup_cons_of_ne (hp.ne_root hd)) ?_
    hspelled
  rw [hkind]
  exact fun kinds hkinds => append_mem_part hkinds hk

/-- The node of a composed type goes below the datatype and is open. -/
theorem fits_composed (hp : p.tree.Regular) (hd : p.tree.Holds datatype .datatype Tree.root)
    (hfits : p.tree.Fits [(Tree.root, unitSpecifying)]) (word : Composed) :
    ((p.tree.addContainer datatype .userType token).addLeaf p.tree.size word.nodeKind token).Fits
      [(p.tree.size, marker), (Tree.root, unitSpecifying)] := by
  obtain ⟨n, hn, hkind, -⟩ := id hd
  obtain ⟨hnil, hspelled, hmarker⟩ := content_of_composed word token.text
  -- The container is complete with its marker, which is its only child for now.
  have htype : (p.tree.addContainer datatype .userType token).Fits
      [(p.tree.size, 1), (Tree.root, unitSpecifying)] := by
    refine hfits.add_closed hp.toLinked (Tree.opens_size _ _) hn
      (Tree.lookup_cons_of_ne (hp.toLinked.ne_root hd)) ?_ trivial
    rw [hkind]
    exact fun kinds hkinds => append_mem_part hkinds (by decide)
  refine htype.add_open (hp.add (hd.stem rfl)).toLinked (Tree.opens_nil hnil) ?_ hspelled
  rintro kinds rfl
  exact hmarker

/-- The tag goes below the type that is open, and closes it. -/
theorem fits_tag (hp : p.tree.Linked)
    (hopen : p.tree.AwaitsTag datatype (p.tree.tagParent datatype))
    (hfits : p.tree.Fits [(p.tree.tagParent datatype, marker), (Tree.root, unitSpecifying)])
    (hword : token.kind = .identifier ∧ token.keyword? = none) :
    (p.tree.addLeaf (p.tree.tagParent datatype) .identifier token).Fits
      [(Tree.root, unitSpecifying)] := by
  obtain ⟨n, hn, hkind, -, hpayload⟩ := hopen.node
  refine hfits.add_closing hp (Tree.opens_leaf .identifier _ rfl) hn ?_
    (spelled_identifier hword)
  rw [hkind, hpayload]
  exact fun kinds hkinds => append_mem hkinds

/-- The declared name goes beside its datatype. -/
theorem fits_name (hp : p.tree.Linked) (hfits : p.tree.Fits [(Tree.root, unitSpecifying)])
    (hword : token.kind = .identifier ∧ token.keyword? = none) :
    (p.tree.addLeaf Tree.root .identifier token).Fits [(Tree.root, unitNamed)] := by
  refine hfits.add_open hp (Tree.opens_leaf .identifier _ rfl) ?_ (spelled_identifier hword)
  intro kinds hkinds
  have hnamed : kinds ++ [.identifier] ∈ unit * named := by
    rw [named, ← mul_assoc]
    exact append_mem hkinds
  exact mem_mul_kstar hnamed _

/-- A digested token fits the datatype of a declaration. -/
theorem drafted_digestAt (hp : p.tree.Regular) (hd : p.tree.Holds datatype .datatype Tree.root)
    (htag : (p.flags.forSequence p.tree datatype).awaitsTag = true →
      p.tree.AwaitsTag datatype (p.tree.tagParent datatype))
    {drafts : Tree.Drafts} (hopen : p.tree.OpenAt p.flags datatype drafts .datatype)
    (hfits : p.tree.Fits drafts) :
    (p.digestAt datatype token .datatype .identifier).Drafted := by
  have hstem : p.tree.Stem datatype := hd.stem rfl
  have hlinked := hp.toLinked
  have hreg := (digest_regular_grows hp hstem p.flags token).1
  -- Behind a classified token the datatype has begun, so its categories stay.
  have hflags : ∀ id, (digest p.tree datatype p.flags token).outcome = .classified id →
      (digest p.tree datatype p.flags token).flags.forSequence
        (digest p.tree datatype p.flags token).tree datatype
        = (digest p.tree datatype p.flags token).flags :=
    fun id hid => Flags.forSequence_of_begun hreg.toLinked (begun_digest hp hstem hid) _
  -- Only a tag is taken where one is awaited.
  have hroot : ∀ {verdict}, (p.flags.forSequence p.tree datatype).judge token = verdict →
      (∀ after, verdict ≠ .tag after) → (∀ failure, verdict ≠ .refused failure) →
      drafts = [(Tree.root, unitSpecifying)] := by
    rintro _ rfl hnotTag hnotRefused
    exact (Tree.openAt_datatype_of_not_awaitsTag
      (Flags.awaitsTag_eq_false_of_judge rfl hnotTag hnotRefused)).1 hopen
  cases hj : (p.flags.forSequence p.tree datatype).judge token with
  | part kind after =>
      obtain rfl := hroot hj (by simp) (by simp)
      simp only [digest, hj] at hflags
      simp only [digestAt, digest, hj]
      refine drafted_enter ?_ (fits_part hlinked hd hfits (Flags.mem_partKinds_of_judge hj))
      refine (Tree.openAt_datatype_of_not_awaitsTag ?_).2 rfl
      exact (congrArg _ (hflags _ rfl)).trans (Flags.awaitsTag_of_part hj)
  | composed word after =>
      obtain rfl := hroot hj (by simp) (by simp)
      simp only [digest, hj] at hflags
      simp only [digestAt, digest, hj]
      refine drafted_enter ?_ (fits_composed hp hd hfits word)
      refine (Tree.openAt_datatype_of_awaitsTag ?_).2 ?_
      · exact (congrArg _ (hflags _ rfl)).trans (Flags.awaitsTag_of_composed hj)
      · show _ = [(Tree.tagParent _ datatype, _), _]
        rw [(Tree.awaitsTag_composed hp hstem word token).tagParent_eq]
  | tag after =>
      have hawaits := Flags.awaitsTag_of_judge hj
      obtain rfl := (Tree.openAt_datatype_of_awaitsTag hawaits).1 hopen
      simp only [digest, hj] at hflags
      simp only [digestAt, digest, hj]
      refine drafted_enter ?_ (fits_tag hlinked (htag hawaits) hfits (Flags.word_of_tag hj))
      refine (Tree.openAt_datatype_of_not_awaitsTag ?_).2 rfl
      exact (congrArg _ (hflags _ rfl)).trans (Flags.awaitsTag_of_tag hj)
  | name =>
      obtain rfl := hroot hj (by simp) (by simp)
      simp only [digestAt, digest, hj, hd.parentOrSelf]
      exact drafted_enter rfl (fits_name hlinked hfits (Flags.word_of_name hj))
  | refused failure =>
      simp only [digestAt, digest, hj]
      exact drafted_of_isLost rfl

end Digest

/-- An idle parser leaves the unit with a directive or a datatype under way.
-/
theorem Shaped.drafted_onIdle (hp : p.Shaped) (hs : p.state = .idle) :
    (p.onIdle token).Drafted := by
  obtain ⟨_, rfl, hfits⟩ := hp.exists_drafts hs rfl
  have hplace : p.place = Tree.root := hp.seats_of hs
  have hlt := hp.stem.lt_size
  have hlinked := hp.linked
  unfold Parser.onIdle
  dsimp only
  rw [hplace] at hlt ⊢
  split
  · refine drafted_enter rfl (hfits.add_open hlinked (Tree.opens_size _ _) ?_ trivial)
    exact fun kinds hkinds => append_mem_unit hkinds
  split
  · have hnew :
        (p.container Tree.root .datatype token).tree.Holds p.tree.size .datatype Tree.root :=
      Tree.holds_addContainer hlt .datatype token
    have hflags : ((p.container Tree.root .datatype token).flags.forSequence
        (p.container Tree.root .datatype token).tree p.tree.size).awaitsTag = false :=
      Flags.awaitsTag_addContainer hlt p.flags .datatype token
    have hfits' : (p.tree.addContainer Tree.root .datatype token).Fits
        [(Tree.root, unitSpecifying)] := by
      refine hfits.add_open hlinked (Tree.opens_nil (Language.nil_mem_kstar _)) ?_ trivial
      exact fun kinds hkinds => append_mem hkinds
    refine drafted_digestAt (hp.regular.add (hp.regular.stem_root)) hnew ?_ ?_ hfits'
    · intro hawaits
      rw [hflags] at hawaits
      cases hawaits
    · rw [Tree.OpenAt, hflags, if_neg Bool.false_ne_true]
  · exact drafted_refuse _

/-- The word of a directive closes it, with one child open below. -/
theorem Shaped.drafted_onPreprocessor (hp : p.Shaped) (hs : p.state = .preprocessor) :
    (p.onPreprocessor token).Drafted := by
  obtain ⟨_, rfl, hfits⟩ := hp.exists_drafts hs rfl
  have hplace : p.tree.Holds p.place .directive Tree.root := hp.seats_of hs
  obtain ⟨n, hn, hkind, -⟩ := hplace
  -- Each of the three words closes the directive and opens a node below it.
  have hopened : ∀ kind, [kind] ∈ ofNode .directive n.payload → Spelled kind none →
      (p.tree.addContainer p.place kind token).Fits [(p.tree.size, 1), (Tree.root, unit)] := by
    intro kind hmem hspelled
    refine hfits.add_closing hp.linked (Tree.opens_size _ _) hn ?_ hspelled
    rw [hkind]
    rintro kinds rfl
    exact hmem
  unfold Parser.onPreprocessor
  dsimp only
  split
  · exact drafted_enter rfl (hopened _ (Or.inl (Or.inl rfl)) trivial)
  split
  · exact drafted_enter rfl (hopened _ (Or.inl (Or.inr rfl)) trivial)
  split
  · exact drafted_enter rfl (hopened _ (Or.inr rfl) trivial)
  · exact drafted_refuse _

/-- The last token of a directive closes the node that the parse stands
at. -/
theorem Shaped.drafted_endDirective (hp : p.Shaped) {opened : NodeKind}
    (hplace : p.tree.InDirective p.place opened) {L : Language NodeKind}
    (hfits : p.tree.Fits [(p.place, L), (Tree.root, unit)]) {kind : NodeKind}
    (hleaf : ofNode kind (some token.text) = 1)
    (hmem : ∀ kinds ∈ L, ∀ payload, kinds ++ [kind] ∈ ofNode opened payload)
    (hspelled : Spelled kind (some token.text)) : (p.endDirective kind token).Drafted := by
  obtain ⟨directive, ⟨n, hn, hkind, -⟩, -⟩ := hplace
  have hfits' : (p.tree.addLeaf p.place kind token).Fits [(Tree.root, unit)] := by
    refine hfits.add_closing hp.linked (Tree.opens_leaf _ _ hleaf) hn ?_ hspelled
    rw [hkind]
    exact fun kinds hkinds => hmem kinds hkinds n.payload
  exact drafted_enter rfl hfits'

/-- The name of a definition is its first child. -/
theorem Shaped.drafted_onDefineName (hp : p.Shaped) (hs : p.state = .defineName) :
    (p.onDefineName token).Drafted := by
  obtain ⟨_, rfl, hfits⟩ := hp.exists_drafts hs rfl
  refine drafted_enter rfl (hfits.add_open hp.linked (Tree.opens_leaf .defineName _ rfl) ?_ trivial)
  rintro kinds rfl
  exact rfl

/-- What follows a declared name is a child of the unit that may stand behind
the name. -/
theorem Shaped.drafted_onIdentifier (hp : p.Shaped) (hs : p.state = .identifier) :
    (p.onIdentifier token).Drafted := by
  obtain ⟨_, rfl, hfits⟩ := hp.exists_drafts hs rfl
  have hplace : p.place = Tree.root := hp.seats_of hs
  have hlt := hp.stem.lt_size
  have hlinked := hp.linked
  unfold Parser.onIdentifier
  dsimp only
  rw [hplace] at hlt ⊢
  split
  · refine drafted_enter rfl
      (hfits.add_open hlinked (Tree.opens_leaf .sentenceEnd _ rfl) ?_ trivial)
    exact fun kinds hkinds => append_sentenceEnd_mem_unit hkinds
  split
  -- The length is drafted as a bracket with anything behind it.
  · have harray : (p.tree.addContainer Tree.root .arrayDefinition token).Fits
        [(p.tree.size, 1), (Tree.root, unitNamed)] := by
      refine hfits.add_open hlinked (Tree.opens_size _ _) ?_ trivial
      exact fun kinds hkinds => append_mem_mul_kstar hkinds rfl
    refine drafted_enter rfl (harray.add_open (hlinked.add hlt)
      (Tree.opens_leaf .openBracket _ rfl) ?_ trivial)
    rintro kinds rfl
    exact mem_mul_kstar (L := node .openBracket) rfl _
  split
  · exact drafted_of_isLost rfl
  split
  · have hnew : (p.tree.addContainer Tree.root .initialization token).Holds p.tree.size
        .initialization Tree.root := Tree.holds_addContainer hlt .initialization token
    have hfits' : (p.tree.addContainer Tree.root .initialization token).Fits
        [(Tree.root, unitInitializing)] := by
      refine hfits.add_open hlinked (Tree.opens_nil (Language.nil_mem_kstar _)) ?_ trivial
      exact fun kinds hkinds => append_mem hkinds
    exact drafted_enter (p := { p.container Tree.root .initialization token with nesting := 0 })
      (Tree.Encloses.top hnew) hfits'
  split
  · exact drafted_refuse _
  · exact drafted_refuse _

/-- The content of a length stands between its brackets. -/
theorem Shaped.drafted_onArrayDefinition (hp : p.Shaped) (hs : p.state = .arrayDefinition) :
    (p.onArrayDefinition token).Drafted := by
  obtain ⟨_, rfl, hfits⟩ := hp.exists_drafts hs rfl
  have hplace : p.tree.Holds p.place .arrayDefinition Tree.root := hp.seats_of hs
  obtain ⟨n, hn, hkind, -⟩ := hplace
  unfold Parser.onArrayDefinition
  dsimp only
  split
  · have hfits' : (p.tree.addLeaf p.place .closeBracket token).Fits [(Tree.root, unitNamed)] := by
      refine hfits.add_closing hp.linked (Tree.opens_leaf .closeBracket _ rfl) hn ?_ trivial
      rw [hkind]
      exact fun kinds hkinds => append_mem hkinds
    exact drafted_enter rfl hfits'
  split
  · exact drafted_refuse _
  · refine drafted_enter rfl (hfits.add_open hp.linked (Tree.opens_leaf .expressionToken _ rfl) ?_
      trivial)
    exact fun kinds hkinds => append_mem_mul_kstar hkinds rfl

/-- An opening brace goes below the place, which is not open, and opens
a list with its first item. -/
theorem Shaped.fits_openBrace (hp : p.Shaped) {drafts : Tree.Drafts}
    (hopen : p.tree.Encloses drafts p.place) (hfits : p.tree.Fits drafts) :
    (((p.tree.addContainer p.place .arrayData token).addLeaf p.tree.size .openBrace
      token).addContainer p.tree.size .arrayItem token).Fits
      ((p.tree.size, inBraces) :: drafts) := by
  have hstem := hp.stem
  have hlinked := hp.linked
  obtain ⟨n, hn, hinitializer⟩ := hopen.exists_node
  have hdata :
      (p.tree.addContainer p.place .arrayData token).Fits ((p.tree.size, 1) :: drafts) := by
    refine hfits.add_closed hlinked (Tree.opens_size _ _) hn (hopen.lookup hlinked) ?_ trivial
    rw [hinitializer]
    exact fun kinds hkinds => append_mem_initializer hkinds (Or.inr rfl)
  have hlinked₁ : (p.tree.addContainer p.place .arrayData token).Linked := hlinked.add hstem.lt_size
  have hlt : p.tree.size < (p.tree.addContainer p.place .arrayData token).size := by
    rw [Tree.size_addContainer]
    exact Nat.lt_succ_self _
  have hbrace : ((p.tree.addContainer p.place .arrayData token).addLeaf p.tree.size .openBrace
      token).Fits ((p.tree.size, node .openBrace) :: drafts) := by
    refine hdata.add_open hlinked₁ (Tree.opens_leaf .openBrace _ rfl) ?_ trivial
    rintro kinds rfl
    exact rfl
  -- The list now has its brace and its first item, and any more items may follow.
  refine hbrace.add_open (hlinked₁.add hlt) (Tree.opens_nil (Language.nil_mem_kstar _)) ?_ trivial
  exact fun kinds hkinds => mem_mul_kstar (append_mem hkinds) _

/-- A closing brace closes the innermost list. -/
theorem Shaped.fits_closeBrace (hp : p.Shaped) {drafts : Tree.Drafts} {data outer : NodeId}
    (hdata : p.tree.Holds data .arrayData outer)
    (hfits : p.tree.Fits ((data, inBraces) :: drafts)) :
    (p.tree.addLeaf data .closeBrace token).Fits drafts := by
  obtain ⟨n, hn, hkind, -⟩ := hdata
  refine hfits.add_closing hp.linked (Tree.opens_leaf .closeBrace _ rfl) hn ?_ trivial
  rw [hkind]
  exact fun kinds hkinds => append_mem hkinds

/-- A comma opens the next item of the innermost list. -/
theorem Shaped.fits_comma (hp : p.Shaped) {drafts : Tree.Drafts} {data : NodeId}
    (hfits : p.tree.Fits ((data, inBraces) :: drafts)) :
    (p.tree.addContainer data .arrayItem token).Fits ((data, inBraces) :: drafts) := by
  refine hfits.add_open hp.linked (Tree.opens_nil (Language.nil_mem_kstar _)) ?_ trivial
  exact fun kinds hkinds => append_mem_mul_kstar hkinds rfl

/-- A token of an expression goes below the place, which is not open. -/
theorem Shaped.fits_expressionToken (hp : p.Shaped) {drafts : Tree.Drafts}
    (hopen : p.tree.Encloses drafts p.place) (hfits : p.tree.Fits drafts) :
    (p.tree.addLeaf p.place .expressionToken token).Fits drafts := by
  obtain ⟨n, hn, hinitializer⟩ := hopen.exists_node
  refine hfits.add_closed hp.linked (Tree.opens_leaf .expressionToken _ rfl) hn
    (hopen.lookup hp.linked) ?_ trivial
  rw [hinitializer]
  exact fun kinds hkinds => append_mem_initializer hkinds (Or.inl rfl)

/-- Each step in an initializer keeps one draft for each list that is open:
an opening brace adds the draft of its list in front of the others, and the
closing brace takes it away. -/
theorem InitializerStep.drafted {q : Parser} (h : p.InitializerStep token q) (hp : p.Shaped)
    {drafts : Tree.Drafts} (hopen : p.tree.Encloses drafts p.place) (hfits : p.tree.Fits drafts) :
    q.Drafted := by
  cases h with
  | openBrace _ _ _ =>
      obtain ⟨-, hgrows, hdata, hnew⟩ := hp.regular.addBracket hp.stem .arrayData rfl .openBrace
        .arrayItem token
      exact drafted_enter (Tree.Encloses.item hnew hdata (hopen.mono hgrows))
        (hp.fits_openBrace hopen hfits)
  | closeBrace _ _ hitem hdata _ =>
      obtain ⟨rest, rfl, houter⟩ := hopen.exists_of_item hitem hdata
      exact drafted_enter (houter.mono (Tree.grows_addLeaf hdata.lt_size .closeBrace token))
        (hp.fits_closeBrace hdata hfits)
  | comma _ _ hitem hdata _ =>
      obtain ⟨rest, rfl, houter⟩ := hopen.exists_of_item hitem hdata
      have hgrows := Tree.grows_addContainer hdata.lt_size .arrayItem token
      exact drafted_enter (Tree.Encloses.item (Tree.holds_addContainer hdata.lt_size .arrayItem
        token) (hdata.mono hgrows) (houter.mono hgrows)) (hp.fits_comma hfits)
  | sentenceEnd _ _ htop =>
      obtain rfl := hopen.eq_of_top htop
      refine drafted_enter rfl (hfits.add_open hp.linked
        (Tree.opens_leaf .sentenceEnd _ rfl) ?_ trivial)
      exact fun kinds hkinds => append_sentenceEnd_mem_unit_of_initialization hkinds
  | expressionToken _ _ =>
      exact drafted_enter (hopen.mono (Tree.grows_addLeaf hp.stem.lt_size .expressionToken token))
        (hp.fits_expressionToken hopen hfits)
  | reject _ _ => exact drafted_refuse _

/-- The content of an initializer fits the lists that are open around it. -/
theorem Shaped.drafted_onInitialization (hp : p.Shaped) (hs : p.state = .initialization) :
    (p.onInitialization token).Drafted := by
  obtain ⟨drafts, hopen, hfits⟩ := hp.exists_drafts hs rfl
  exact (hp.initializerStep hs).drafted hp hopen hfits

/-- The functions of a unit have no shape, and what follows them has
none. -/
theorem drafted_onParameters : (p.onParameters token).Drafted := by
  apply drafted_of_isLost
  unfold Parser.onParameters
  dsimp only
  split
  · rfl
  split
  · rfl
  split
  · unfold digestAt
    dsimp only
    split <;> rfl
  · rfl

/-- A token that the state gives a meaning fits the open nodes. Where
the name of an included file is due, it has to be one. -/
theorem Shaped.drafted_handle (hp : p.Shaped)
    (hname : p.state = .includeName → IsFileName token.text) : (p.handle token).Drafted := by
  -- State by state, each with the drafts its seat comes with.
  unfold Parser.handle
  split
  · next hs => exact hp.drafted_onIdle hs
  · next hs => exact hp.drafted_onPreprocessor hs
  · next hs =>
    obtain ⟨_, rfl, hfits⟩ := hp.exists_drafts hs rfl
    refine hp.drafted_endDirective (hp.seats_of hs) hfits rfl ?_ ⟨_, rfl, hname hs⟩
    rintro kinds rfl payload
    exact rfl
  · next hs => exact hp.drafted_onDefineName hs
  · next hs =>
    obtain ⟨_, rfl, hfits⟩ := hp.exists_drafts hs rfl
    refine hp.drafted_endDirective (hp.seats_of hs) hfits rfl ?_ trivial
    exact fun kinds hkinds payload => append_mem hkinds
  · next hs =>
    obtain ⟨_, rfl, hfits⟩ := hp.exists_drafts hs rfl
    refine hp.drafted_endDirective (hp.seats_of hs) hfits rfl ?_ trivial
    rintro kinds rfl payload
    exact rfl
  · next hs =>
    obtain ⟨drafts, hopen, hfits⟩ := hp.exists_drafts hs rfl
    have hplace : p.tree.Holds p.place .datatype Tree.root := hp.seats_of hs
    exact drafted_digestAt hp.regular hplace
      (hp.tagging.awaitsTag_tagParent (Or.inl hs) hplace.kind?) hopen hfits
  · next hs => exact hp.drafted_onIdentifier hs
  · next hs => exact hp.drafted_onArrayDefinition hs
  · next hs => exact hp.drafted_onInitialization hs
  · exact drafted_onParameters
  · exact drafted_refuse _
  · exact hp.drafted

/-- A token that is no comment leaves a parse shaped. -/
theorem Shaped.feed (hp : p.Shaped) (hk : token.kind.isComment = false)
    (hname : p.state = .includeName → token.kind ≠ .invalid → IsFileName token.text) :
    (p.feed token).Shaped where
  toSound := hp.toSound.feed token
  tagging := hp.tagging_feed hp.tagging token
  drafted := by
    unfold Parser.feed
    split
    · exact hp.drafted
    split
    · next h =>
      rw [h] at hk
      cases hk
    · next h =>
      rw [h] at hk
      cases hk
    · exact drafted_refuse _
    · next hvalid => exact hp.drafted_handle fun hs => hname hs hvalid

end Parser

/-! ### The name of an included file -/

namespace Lexeme

/-- A file name that is closed is read to its closing mark, on one
line. -/
theorem read_of_closed {close : Char} (text : List Char)
    (h : (Reading.longest (nameRule close) false text).state = true) :
    ∃ name, '\n' ∉ name ∧ (Reading.longest (nameRule close) false text).read = name ++ [close] := by
  induction text with
  | nil => cases h
  | cons c after ih =>
      rw [Reading.longest_cons] at h ⊢
      by_cases hfeed : c = '\n'
      · subst hfeed
        cases h
      have hrule : nameRule close false c after = some (decide (c = close)) := by
        simp [nameRule, hfeed]
      rw [hrule] at h ⊢
      -- The closing mark ends the name, and any other character is part of it.
      by_cases hclose : c = close
      · subst hclose
        have hstop : Reading.longest (nameRule c) true after = ⟨[], true, after⟩ := by
          cases after with
          | nil => rfl
          | cons d after => rw [Reading.longest_cons]; rfl
        simp only [decide_true, hstop]
        exact ⟨[], List.not_mem_nil, rfl⟩
      · rw [decide_eq_false hclose] at h ⊢
        obtain ⟨name, hname, hread⟩ := ih h
        refine ⟨c :: name, ?_, congrArg (c :: ·) hread⟩
        rw [List.mem_cons, not_or]
        exact ⟨Ne.symm hfeed, hname⟩

/-- A valid lexeme where the name of an included file is due is one. -/
theorem isFileName_ofIncludeName {c : Char} {after : List Char}
    (hvalid : (ofIncludeName c after).kind ≠ .invalid) :
    Content.IsFileName (String.ofList (ofIncludeName c after).text) := by
  -- A token that is valid has met its closing mark.
  unfold ofIncludeName at hvalid ⊢
  split at hvalid
  · next hc =>
    subst hc
    rw [if_pos rfl]
    obtain ⟨name, hname, hread⟩ := read_of_closed after (closed_of_fileName_valid hvalid)
    refine ⟨name, hname, Or.inl ?_⟩
    rw [String.toList_ofList, fileName, hread]
  split at hvalid
  · next hangle hc =>
    subst hc
    rw [if_neg hangle, if_pos rfl]
    obtain ⟨name, hname, hread⟩ := read_of_closed after (closed_of_fileName_valid hvalid)
    refine ⟨name, hname, Or.inr ?_⟩
    rw [String.toList_ofList, fileName, hread]
  · exact absurd rfl hvalid

end Lexeme

/-- A valid token of the mode of file names is a file name. -/
theorem Cursor.isFileName_of_next {c d : Cursor} {token : Token}
    (h : c.next .includeName = (some token, d)) (hvalid : token.kind ≠ .invalid) :
    Content.IsFileName token.text := by
  obtain ⟨ch, after, -, h⟩ := next_includeName_eq_some_iff.1 h
  obtain ⟨rfl, -⟩ := take_eq_iff.1 h
  exact Lexeme.isFileName_ofIncludeName hvalid

/-! ### Runs -/

namespace Parser

variable {p : Parser}

/-- The mode has no part in the shape. -/
theorem Shaped.awaiting (hp : p.Shaped) (mode : TokenMode) : (p.awaiting mode).Shaped :=
  ⟨⟨hp.regular, hp.seats⟩, hp.tagging, hp.drafted⟩

/-- The tree of a unit without declarations has the shape of one. -/
theorem shaped_ofUnit (kind : UnitKind) (filename : String) : (ofUnit kind filename).Shaped := by
  refine ⟨sound_ofUnit kind filename, tagging_ofUnit kind filename, fun _ =>
    ⟨[(Tree.root, Content.unit)], rfl, ?_⟩⟩
  -- The only node is the root, and it has no children yet.
  refine ⟨List.pairwise_singleton _ _, ?_, ?_, ?_⟩
  · intro draft hdraft
    rw [List.mem_singleton.1 hdraft]
    exact Nat.zero_lt_one
  · intro id n hn
    obtain ⟨rfl, -⟩ := Tree.eq_of_getElem?_ofRoot hn
    exact Language.nil_mem_kstar _
  · intro id n hn
    obtain ⟨-, rfl⟩ := Tree.eq_of_getElem?_ofRoot hn
    cases kind <;> exact trivial

/-- A run leaves a parse shaped, its comments taken out. -/
theorem Sound.shaped_deliver (hp : p.Sound) (hmode : p.pending = p.state.mode?.getD .normal)
    (h : p.withoutComments.Shaped) (c : Cursor) :
    (p.deliver c).parser.withoutComments.Shaped := by
  induction p, c using deliver_induction with
  | stopped p c hstop =>
      rw [deliver_of_isStopped hstop]
      exact h
  | ended p c d hrun hnext =>
      rw [deliver_of_none hrun hnext]
      exact h.awaiting .normal
  | delivered p c token d hrun hnext ih =>
      rw [deliver_of_some hrun hnext]
      have hstep : Delivers p c [token] (p.receive token) d := .step hrun hnext .refl
      refine ih (hp.receive token) (hstep.pending_eq hmode) ?_
      have hfed : (p.feed token).withoutComments.Shaped := by
        cases hk : token.kind.isComment with
        | true =>
            rw [hp.withoutComments_feed_comment hk]
            exact h
        | false =>
            have hfeed : (p.feed token).withoutComments = p.withoutComments.feed token :=
              hp.view_feed (v := .withoutComments) hk
            rw [hfeed]
            refine h.feed hk fun hs hvalid => ?_
            -- The state asks for the mode, so that the token is read in it.
            have hstate : p.state = .includeName := hs
            rw [hstate] at hmode
            rw [hmode] at hnext
            exact Cursor.isFileName_of_next hnext hvalid
      rw [receive_eq]
      exact hfed.awaiting _

/-- A run over a whole text leaves a parse shaped, its comments taken
out. -/
theorem shaped_deliver_ofUnit (kind : UnitKind) (filename : String) (c : Cursor) :
    ((ofUnit kind filename).deliver c).parser.withoutComments.Shaped := by
  have hstart : (ofUnit kind filename).withoutComments = ofUnit kind filename := by
    show Parser.mk (Tree.ofUnit kind filename).withoutComments _ _ _ _ _ = _
    rw [Tree.withoutComments_ofUnit]
    rfl
  refine (sound_ofUnit kind filename).shaped_deliver rfl ?_ c
  rw [hstart]
  exact shaped_ofUnit kind filename

/-- The root of a tree is the one that its parse began with, also where its
comments are taken out. -/
theorem exists_root_deliver_ofUnit (kind : UnitKind) (filename : String) (c : Cursor) :
    ∃ n, ((ofUnit kind filename).deliver c).parser.tree.withoutComments.nodes[Tree.root]? =
      some n ∧ n.kind = kind.rootKind := by
  obtain ⟨m, hm, hgrows⟩ := (sound_ofUnit kind filename).grows_deliver c Tree.root _ rfl
  have hkind : m.kind = kind.rootKind := hgrows.kind
  have hkept : m.kind.isComment = false := by
    rw [hkind]
    cases kind <;> rfl
  have hrank : ((ofUnit kind filename).deliver c).parser.tree.rank Tree.root = Tree.root :=
    Tree.rank_of_le (Nat.zero_le _)
  refine ⟨((ofUnit kind filename).deliver c).parser.tree.renumber m, ?_, hkind⟩
  rw [← Tree.getElem?_withoutComments hm hkept, hrank]

/-- The shape of accepted trees: the tree of a unit without errors
conforms, its comments taken out. -/
theorem conforms_of_completed (kind : UnitKind) (filename text : String)
    (h : (parse kind filename text).status = .completed) :
    (parse kind filename text).tree.withoutComments.Conforms := by
  let d := (ofUnit kind filename).deliver (.ofString text)
  have hstate : d.parser.state = .idle := (close_status_eq_completed_iff d.parser d.cursor).1 h
  have htree : (parse kind filename text).tree = d.parser.tree := by
    show (d.parser.close d.cursor).tree = _
    rw [close, hstate]
  have hshaped := shaped_deliver_ofUnit kind filename (.ofString text)
  obtain ⟨_, rfl, hfits⟩ := hshaped.exists_drafts hstate rfl
  obtain ⟨n, hroot, hkind⟩ := exists_root_deliver_ofUnit kind filename (.ofString text)
  rw [htree]
  refine ⟨hshaped.linked, ⟨n, hroot, ?_⟩, ?_, fun hn => hfits.spelled hn⟩
  · rw [hkind]
    exact kind.isUnit_rootKind
  · intro id m hm
    have hcontent := hfits.content hm
    -- The root alone is open, and as a unit it may hold any declarations.
    by_cases hid : id = Tree.root
    · subst hid
      obtain rfl : m = n := Option.some.inj (hm.symm.trans hroot)
      have hunit : Content.ofNode m.kind m.payload = Content.unit := by
        rw [hkind]
        cases kind <;> rfl
      rw [hunit]
      rwa [List.lookup_cons_self] at hcontent
    · rwa [Tree.lookup_cons_of_ne hid] at hcontent

/-- An inclusion, and a structure with nested items. -/
theorem conforms_of_completed_struct :
    let text := "#include <a.h>\nstruct /* tag */ S *x[2] = \x7b 1, \x7b 2 \x7d \x7d;"
    (parse .source "unit.c" text).tree.withoutComments.Conforms :=
  conforms_of_completed _ _ _ (by cbv)

end Parser

end CDeclarations
