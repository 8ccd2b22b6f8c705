import CDeclarations.Parser.Run
import CDeclarations.Proofs.Tree.Growth

/-!
# `CDeclarations.Proofs.Parser.Placement`: the place fits the state

A parse holds a state and a place, the node that what comes next
belongs to, and the handlers rely on the place being the right node for
the state: they climb one or two levels from it without looking.
`Tree.Seats` says which node each state stands at, `Parser.Sound` that
the tree is regular and the place fits the state, and `sound_feedAll`
and `Sound.deliver` that this holds after every list of tokens and
every run.

* `Tree.Initializing t depth id`: `id` is an initializer (`depth = 0`)
  or an item with `depth` braces open around it. The count of braces
  that the parse keeps is this depth.
* `Sound.feed`: one token leaves a sound parse sound, one lemma for
  each state's handler.
* `InitializerStep`, `Sound.initializerStep`: all that a token can do in
  an initializer, which is the one state where the tests of the handler
  say where the place is.
* `Sound.feedAll_induction`: what each token keeps in a sound parse is
  kept by all of them.
-/

set_option autoImplicit false

namespace CDeclarations

namespace Tree

/-- The node is the initializer of a declaration, at depth 0, or an
item with `depth` braces open around it. -/
inductive Initializing (t : Tree) : Nat → NodeId → Prop
  | top {id : NodeId} : t.Holds id .initialization root → Initializing t 0 id
  | item {depth : Nat} {id data outer : NodeId} : t.Holds id .arrayItem data →
      t.Holds data .arrayData outer → Initializing t depth outer →
      Initializing t (depth + 1) id

/-- The node stands below a directive of the unit. -/
def InDirective (t : Tree) (id : NodeId) (kind : NodeKind) : Prop :=
  ∃ directive, t.Holds id kind directive ∧ t.Holds directive .directive root

/-- The node that a parse in a state stands at, and the count of open
braces that it keeps there. -/
def Seats (t : Tree) (nesting : Int) (place : NodeId) : State → Prop
  | .idle | .identifier | .functionDeclared => place = root
  | .preprocessor => t.Holds place .directive root
  | .includeName => t.InDirective place .includeDirective
  | .defineName | .defineBody => t.InDirective place .defineDirective
  | .pragma => t.InDirective place .pragmaDirective
  | .datatype => t.Holds place .datatype root
  | .arrayDefinition => t.Holds place .arrayDefinition root
  | .initialization => ∃ depth : Nat, nesting = depth ∧ t.Initializing depth place
  | .parameters => t.Holds place .parameters root ∨
      ∃ parameters, t.Holds place .datatype parameters ∧ t.Holds parameters .parameters root
  | .stopped _ => t.Stem place

/-- A tree that grows keeps the depth of an initializer. -/
theorem Initializing.mono {t u : Tree} {depth : Nat} {id : NodeId}
    (h : t.Initializing depth id) (hg : t.Grows u) : u.Initializing depth id := by
  induction h with
  | top hid => exact .top (hid.mono hg)
  | item hid hdata _ ih => exact .item (hid.mono hg) (hdata.mono hg) ih

/-- The place is an item exactly while braces are open. -/
theorem Initializing.kind?_eq_arrayItem_iff {t : Tree} {depth : Nat} {id : NodeId}
    (h : t.Initializing depth id) : t.kind? id = some .arrayItem ↔ depth ≠ 0 := by
  cases h with
  | top hid => simp [hid.kind?]
  | item hid _ _ => simp [hid.kind?]

/-- A place in an initializer can hold children. -/
theorem Initializing.stem {t : Tree} {depth : Nat} {id : NodeId} (h : t.Initializing depth id) :
    t.Stem id := by
  cases h with
  | top hid => exact hid.stem rfl
  | item hid _ _ => exact hid.stem rfl

/-- The place of an initializer has a parent. -/
theorem Initializing.exists_parent {t : Tree} {depth : Nat} {id : NodeId}
    (h : t.Initializing depth id) : ∃ kind parent, t.Holds id kind parent := by
  cases h with
  | top hid => exact ⟨_, _, hid⟩
  | item hid _ _ => exact ⟨_, _, hid⟩

/-- Inside braces the parent of the place holds the braces. -/
theorem Initializing.exists_data {t : Tree} {depth : Nat} {id : NodeId}
    (h : t.Initializing depth id) (hdepth : 0 < depth) :
    ∃ data outer, t.Holds id .arrayItem data ∧ t.Holds data .arrayData outer := by
  cases h with
  | top _ => exact absurd hdepth (Nat.lt_irrefl 0)
  | item hid hdata _ => exact ⟨_, _, hid, hdata⟩

/-- A tree that grows keeps the place where the state seats it. -/
theorem Seats.mono {t u : Tree} {nesting : Int} {place : NodeId} {state : State}
    (h : t.Seats nesting place state) (hg : t.Grows u) : u.Seats nesting place state := by
  cases state with
  | idle | identifier | functionDeclared => exact h
  | preprocessor | datatype | arrayDefinition => exact Holds.mono h hg
  | includeName | defineName | defineBody | pragma =>
      obtain ⟨d, hplace, hd⟩ := h
      exact ⟨d, hplace.mono hg, hd.mono hg⟩
  | initialization =>
      obtain ⟨depth, hdepth, hplace⟩ := h
      exact ⟨depth, hdepth, hplace.mono hg⟩
  | parameters =>
      rcases h with h | ⟨q, h, hq⟩
      · exact Or.inl (h.mono hg)
      · exact Or.inr ⟨q, h.mono hg, hq.mono hg⟩
  | stopped failure => exact Stem.mono h hg

/-- A node that a parse stands at may get children. -/
theorem Seats.stem {t : Tree} (ht : t.Regular) {nesting : Int} {place : NodeId} {state : State}
    (h : t.Seats nesting place state) : t.Stem place := by
  -- Every seat names the kind of its node, and each of these kinds can hold children.
  cases state with
  | idle | identifier | functionDeclared => exact h ▸ ht.stem_root
  | preprocessor | datatype | arrayDefinition => exact Holds.stem h rfl
  | includeName | defineName | defineBody | pragma =>
      obtain ⟨d, hplace, -⟩ := h
      exact hplace.stem rfl
  | initialization =>
      obtain ⟨depth, -, hplace⟩ := h
      exact hplace.stem
  | parameters =>
      rcases h with h | ⟨q, h, -⟩
      · exact h.stem rfl
      · exact h.stem rfl
  | stopped failure => exact h

end Tree

/-! ### Digesting -/

/-- The node a tag goes under can hold children. -/
theorem Tree.Regular.stem_tagParent {t : Tree} {datatype : NodeId} (h : t.Stem datatype) :
    t.Stem (t.tagParent datatype) := by
  rw [Tree.tagParent]
  cases hc : (t.childrenOfKind datatype .userType).back? with
  | none => exact h
  | some c =>
      have hmem := Array.mem_of_back? hc
      simp only [Tree.childrenOfKind, Array.mem_filter, decide_eq_true_eq] at hmem
      exact Tree.stem_of_kind? hmem.2 rfl

/-- A digested token only adds nodes to a regular tree. -/
theorem digest_regular_grows {t : Tree} (ht : t.Regular) {datatype : NodeId}
    (h : t.Stem datatype) (flags : Flags) (token : Token) :
    (digest t datatype flags token).tree.Regular ∧
      t.Grows (digest t datatype flags token).tree := by
  -- The five verdicts: part, composed type, tag, name and refusal.
  unfold digest
  dsimp only
  split
  · exact ⟨ht.add h, Tree.grows_add h.lt_size⟩
  · -- The marker goes under the container that is added with it.
    have hnew : (t.addContainer datatype .userType token).Stem t.size :=
      (Tree.holds_add _ _ _ _ h.lt_size).stem rfl
    exact ⟨(ht.add h).add hnew,
      (Tree.grows_add h.lt_size).trans (Tree.grows_add hnew.lt_size)⟩
  · have htag := Tree.Regular.stem_tagParent h
    exact ⟨ht.add htag, Tree.grows_add htag.lt_size⟩
  · have hup := ht.stem_parentOrSelf h
    exact ⟨ht.add hup, Tree.grows_add hup.lt_size⟩
  · exact ⟨ht.add h, Tree.grows_add h.lt_size⟩

namespace Parser

/-- The tree is regular and the place fits the state. -/
structure Sound (p : Parser) : Prop where
  regular : p.tree.Regular
  seats : p.tree.Seats p.nesting p.place p.state

/-- A new parse is sound. -/
theorem sound_ofUnit (kind : UnitKind) (filename : String) : (ofUnit kind filename).Sound :=
  ⟨Tree.regular_ofUnit kind filename, rfl⟩

variable {p : Parser} {token : Token}

/-- The place of a sound parse can hold children. -/
theorem Sound.stem (hp : p.Sound) : p.tree.Stem p.place :=
  hp.seats.stem hp.regular

/-- The place fits the state that the parse is known to be in. -/
theorem Sound.seats_of (hp : p.Sound) {state : State} (hs : p.state = state) :
    p.tree.Seats p.nesting p.place state :=
  hs ▸ hp.seats

/-- The parameters that a parse stands at or in are a stem. -/
theorem Sound.stem_parameters (hp : p.Sound) :
    p.tree.Stem (if p.tree.kind? p.place = some .datatype then p.tree.parentOrSelf p.place
      else p.place) := by
  split
  · exact hp.regular.stem_parentOrSelf hp.stem
  · exact hp.stem

/-- A refusal adds its error node at the place. -/
theorem Sound.refuse (hp : p.tree.Regular) (h : p.tree.Stem p.place) (failure : Failure) :
    (p.refuse token failure).Sound :=
  ⟨hp.add h, h.mono (Tree.grows_add h.lt_size)⟩

/-- Digesting leaves the parse at the datatype, or at its parent once
the sequence is closed. -/
theorem sound_digestAt (hp : p.tree.Regular) {datatype : NodeId} (hd : p.tree.Stem datatype)
    {within behind : State}
    (hwithin : ∀ u : Tree, p.tree.Grows u → u.Seats p.nesting datatype within)
    (hbehind : ∀ u : Tree, p.tree.Grows u →
      u.Seats p.nesting (u.parentOrSelf datatype) behind) :
    (p.digestAt datatype token within behind).Sound := by
  obtain ⟨hreg, hgrows⟩ := digest_regular_grows hp hd p.flags token
  unfold digestAt
  dsimp only
  split
  · exact ⟨hreg, hwithin _ hgrows⟩
  · exact ⟨hreg, hbehind _ hgrows⟩
  · exact ⟨hreg, hd.mono hgrows⟩

/-! ### The handlers -/

/-- An idle parser goes to the directive or the datatype it opened. -/
theorem Sound.onIdle (hp : p.Sound) (hs : p.state = .idle) : (p.onIdle token).Sound := by
  have hplace : p.place = Tree.root := hp.seats_of hs
  have hstem := hp.stem
  have hlt := hstem.lt_size
  unfold Parser.onIdle
  dsimp only
  split
  · exact ⟨hp.regular.add hstem, hplace ▸ Tree.holds_addContainer hlt .directive token⟩
  split
  · have hnew : (p.container p.place .datatype token).tree.Holds p.tree.size .datatype
        Tree.root := hplace ▸ Tree.holds_addContainer hlt .datatype token
    -- The first token may close the sequence at once, so that both states are reached.
    refine sound_digestAt (hp.regular.add hstem) (hnew.stem rfl) ?_ ?_
    · exact fun u hu => hnew.mono hu
    · exact fun u hu => (hnew.mono hu).parentOrSelf
  · exact Sound.refuse hp.regular hstem _

/-- The word of a directive opens a node below it. -/
theorem Sound.onPreprocessor (hp : p.Sound) (hs : p.state = .preprocessor) :
    (p.onPreprocessor token).Sound := by
  have hplace : p.tree.Holds p.place .directive Tree.root := hp.seats_of hs
  have hstem := hp.stem
  have hlt := hstem.lt_size
  -- Each of the three words opens a node below the directive.
  have hopen : ∀ kind, (p.container p.place kind token).tree.InDirective p.tree.size kind :=
    fun kind => ⟨p.place, Tree.holds_addContainer hlt kind token,
      hplace.mono (Tree.grows_addContainer hlt kind token)⟩
  unfold Parser.onPreprocessor
  dsimp only
  split
  · exact ⟨hp.regular.add hstem, hopen _⟩
  split
  · exact ⟨hp.regular.add hstem, hopen _⟩
  split
  · exact ⟨hp.regular.add hstem, hopen _⟩
  · exact Sound.refuse hp.regular hstem _

/-- The last token of a directive takes the parse back to the root. -/
theorem Sound.endDirective (hp : p.Sound) {opened : NodeKind}
    (hplace : p.tree.InDirective p.place opened) (kind : NodeKind) :
    (p.endDirective kind token).Sound := by
  obtain ⟨directive, hplace, hdirective⟩ := hplace
  have hgrows : p.tree.Grows (p.leaf p.place kind token).tree :=
    Tree.grows_addLeaf hplace.lt_size kind token
  refine ⟨hp.regular.add hp.stem, ?_⟩
  show (p.leaf p.place kind token).up ((p.leaf p.place kind token).up p.place) = Tree.root
  rw [up, up, (hplace.mono hgrows).parentOrSelf, (hdirective.mono hgrows).parentOrSelf]

/-- The name of a definition leaves the place as it is. -/
theorem Sound.onDefineName (hp : p.Sound) (hs : p.state = .defineName) :
    (p.onDefineName token).Sound := by
  obtain ⟨directive, hplace, hdirective⟩ := hp.seats_of hs
  have hgrows : p.tree.Grows (p.leaf p.place .defineName token).tree :=
    Tree.grows_addLeaf hplace.lt_size .defineName token
  exact ⟨hp.regular.add hp.stem, directive, hplace.mono hgrows, hdirective.mono hgrows⟩

/-- What follows a declared name opens a container below the unit, or ends the
declaration. -/
theorem Sound.onIdentifier (hp : p.Sound) (hs : p.state = .identifier) :
    (p.onIdentifier token).Sound := by
  have hplace : p.place = Tree.root := hp.seats_of hs
  have hstem := hp.stem
  have hlt := hstem.lt_size
  -- A container that is added at the place hangs below the root.
  have hnew : ∀ kind, (p.container p.place kind token).tree.Holds p.tree.size kind Tree.root :=
    fun kind => hplace ▸ Tree.holds_addContainer hlt kind token
  unfold Parser.onIdentifier
  dsimp only
  split
  · exact ⟨hp.regular.add hstem, hplace⟩
  split
  · have harray := hnew .arrayDefinition
    exact ⟨(hp.regular.add hstem).add (harray.stem rfl),
      harray.mono (Tree.grows_addLeaf harray.lt_size .openBracket token)⟩
  split
  · obtain ⟨hreg, -, hparams, hslot⟩ := hp.regular.addBracket hstem .parameters rfl
      .openParen .datatype token
    exact ⟨hreg, Or.inr ⟨_, hslot, hplace ▸ hparams⟩⟩
  split
  · exact ⟨hp.regular.add hstem, 0, rfl, .top (hnew .initialization)⟩
  split
  · exact Sound.refuse hp.regular hstem _
  · exact Sound.refuse hp.regular hstem _

/-- The closing bracket leads out of the length. -/
theorem Sound.onArrayDefinition (hp : p.Sound) (hs : p.state = .arrayDefinition) :
    (p.onArrayDefinition token).Sound := by
  have hplace : p.tree.Holds p.place .arrayDefinition Tree.root := hp.seats_of hs
  unfold Parser.onArrayDefinition
  dsimp only
  split
  · have hgrows := Tree.grows_addLeaf hplace.lt_size .closeBracket token
    exact ⟨hp.regular.add hp.stem, (hplace.mono hgrows).parentOrSelf⟩
  split
  · exact Sound.refuse hp.regular hp.stem _
  · have hgrows := Tree.grows_addLeaf hplace.lt_size .expressionToken token
    exact ⟨hp.regular.add hp.stem, hplace.mono hgrows⟩

/-- In an initializer the count of open braces is the depth of the
place, also where it is begun anew outside array items. -/
theorem Sound.exists_depth (hp : p.Sound) (hs : p.state = .initialization) :
    ∃ depth : Nat, p.nesting = depth ∧ p.tree.Initializing depth p.place ∧
      (if p.tree.kind? p.place = some .arrayItem then p.nesting else 0) = depth := by
  obtain ⟨depth, hdepth, hplace⟩ := hp.seats_of hs
  refine ⟨depth, hdepth, hplace, ?_⟩
  split
  · exact hdepth
  · next h =>
    rw [hplace.kind?_eq_arrayItem_iff, Decidable.not_not] at h
    rw [h]
    rfl

/-- What a token does in an initializer, with what its tests say about
the place: the braces and the comma move it, the semicolon leaves it,
and every other token is either part of an expression or refused. -/
inductive InitializerStep (p : Parser) (token : Token) : Parser → Prop
  | openBrace {depth : Nat} : token.isMark '{' → p.nesting = depth →
      p.tree.Initializing depth p.place →
      InitializerStep p token
        (((({ p with nesting := p.nesting + 1 }.container p.place .arrayData token).leaf p.tree.size
          .openBrace token).container p.tree.size .arrayItem token).enter .initialization
            (p.tree.size + 2))
  | closeBrace {depth : Nat} {data outer : NodeId} : token.isMark '}' →
      p.nesting - 1 = depth → p.tree.Holds p.place .arrayItem data →
      p.tree.Holds data .arrayData outer → p.tree.Initializing depth outer →
      InitializerStep p token
        (({ p with nesting := p.nesting - 1 }.leaf data .closeBrace token).enter .initialization
          outer)
  | comma {depth : Nat} {data outer : NodeId} : token.isMark ',' →
      p.nesting = (depth + 1 : Nat) → p.tree.Holds p.place .arrayItem data →
      p.tree.Holds data .arrayData outer → p.tree.Initializing depth outer →
      InitializerStep p token
        ((p.container data .arrayItem token).enter .initialization p.tree.size)
  | sentenceEnd : token.isMark ';' → p.nesting = 0 →
      p.tree.Holds p.place .initialization Tree.root →
      InitializerStep p token ((p.leaf Tree.root .sentenceEnd token).enter .idle Tree.root)
  | expressionToken {depth : Nat} : p.nesting = depth → p.tree.Initializing depth p.place →
      InitializerStep p token
        ((p.leaf p.place .expressionToken token).enter .initialization p.place)
  | reject (nesting : Int) (error : GrammarError) :
      InitializerStep p token ({ p with nesting := nesting }.reject token error)

/-- The handler of an initializer takes one of these steps. The count
of braces is the depth of the place, so that its tests tell an item
from the initializer. -/
theorem Sound.initializerStep (hp : p.Sound) (hs : p.state = .initialization) :
    p.InitializerStep token (p.onInitialization token) := by
  obtain ⟨depth, hdepth, hplace, hcount⟩ := hp.exists_depth hs
  unfold Parser.onInitialization
  dsimp only
  rw [hcount.trans hdepth.symm]
  split
  · next hmark => exact .openBrace hmark hdepth hplace
  split
  · next hmark =>
    split
    · next hpos =>
      cases hplace with
      | top _ => omega
      | @item depth _ data outer hitem hdata houter =>
          -- The two climbs lead from the item to what holds its list.
          have hup : up { p with nesting := p.nesting - 1 } p.place = data := hitem.parentOrSelf
          have hout : (p.tree.addLeaf data .closeBrace token).parentOrSelf data = outer :=
            (hdata.mono (Tree.grows_addLeaf hdata.lt_size .closeBrace token)).parentOrSelf
          have hstep := InitializerStep.closeBrace hmark (by omega) hitem hdata houter
          rw [hup]
          rwa [← hout] at hstep
    · exact .reject _ _
  split
  · next hmark =>
    split
    · next hpos =>
      cases hplace with
      | top _ => omega
      | @item depth _ data outer hitem hdata houter =>
          have hup : up p p.place = data := hitem.parentOrSelf
          have hstep := InitializerStep.comma hmark hdepth hitem hdata houter
          rwa [← hup] at hstep
    · exact .reject _ _
  split
  · next hmark =>
    split
    · next hzero =>
      cases hplace with
      | top hid =>
          have hup : up p p.place = Tree.root := hid.parentOrSelf
          have hstep := InitializerStep.sentenceEnd hmark hzero hid
          rwa [← hup] at hstep
      | item _ _ _ => omega
    · exact .reject _ _
  · exact .expressionToken hdepth hplace

/-- Each step in an initializer leaves the place at the depth that the
count says. -/
theorem InitializerStep.sound {q : Parser} (h : p.InitializerStep token q) (hp : p.Sound) :
    q.Sound := by
  have hstem := hp.stem
  have hlt := hstem.lt_size
  cases h with
  | @openBrace depth _ hdepth hplace =>
      obtain ⟨hreg, hgrows, hdata, hitem⟩ := hp.regular.addBracket hstem .arrayData rfl
        .openBrace .arrayItem token
      refine ⟨hreg, depth + 1, ?_, .item hitem hdata (hplace.mono hgrows)⟩
      show p.nesting + 1 = ((depth + 1 : Nat) : Int)
      rw [hdepth]
      rfl
  | @closeBrace depth data outer _ hdepth hitem hdata houter =>
      have hgrows := Tree.grows_addLeaf hdata.lt_size .closeBrace token
      exact ⟨hp.regular.add (hdata.stem rfl), depth, hdepth, houter.mono hgrows⟩
  | @comma depth data outer _ hdepth _ hdata houter =>
      have hgrows := Tree.grows_addContainer hdata.lt_size .arrayItem token
      exact ⟨hp.regular.add (hdata.stem rfl), depth + 1, hdepth,
        .item (Tree.holds_addContainer hdata.lt_size .arrayItem token) (hdata.mono hgrows)
          (houter.mono hgrows)⟩
  | sentenceEnd _ _ _ => exact ⟨hp.regular.add hp.regular.stem_root, rfl⟩
  | @expressionToken depth hdepth hplace =>
      exact ⟨hp.regular.add hstem, depth, hdepth, hplace.mono (Tree.grows_addLeaf hlt _ token)⟩
  | reject nesting error =>
      exact Sound.refuse (p := { p with nesting := nesting }) hp.regular hstem _

/-- The content of an initializer leaves the place in it, or leads out. -/
theorem Sound.onInitialization (hp : p.Sound) (hs : p.state = .initialization) :
    (p.onInitialization token).Sound :=
  (hp.initializerStep hs).sound hp

/-- The parameters that the parse stands at, or in a datatype of. -/
theorem Sound.holds_parameters (hp : p.Sound) (hs : p.state = .parameters) :
    p.tree.Holds (if p.tree.kind? p.place = some .datatype then p.up p.place else p.place)
      .parameters Tree.root := by
  rcases hp.seats_of hs with h | ⟨parameters, h, hparameters⟩
  · rwa [if_neg (by simp [h.kind?])]
  · have hup : p.up p.place = parameters := h.parentOrSelf
    rwa [if_pos h.kind?, hup]

/-- A datatype that the parse stands at is one of the parameters. -/
theorem Sound.holds_slot (hp : p.Sound) (hs : p.state = .parameters)
    (hopen : p.tree.kind? p.place = some .datatype) :
    p.tree.Holds p.place .datatype (p.up p.place) := by
  rcases hp.seats_of hs with h | ⟨parameters, h, -⟩
  · rw [h.kind?] at hopen
    cases hopen
  · have hup : p.up p.place = parameters := h.parentOrSelf
    rwa [hup]

/-- In parameters the place is the list or the datatype of one of them. -/
theorem Sound.onParameters (hp : p.Sound) (hs : p.state = .parameters) :
    (p.onParameters token).Sound := by
  have hstem := hp.stem
  have hparams := hp.holds_parameters hs
  unfold Parser.onParameters
  dsimp only
  generalize hplace : (if p.tree.kind? p.place = some .datatype then p.up p.place else p.place) =
    parameters at hparams ⊢
  split
  · exact ⟨hp.regular.add (hparams.stem rfl),
      (hparams.mono (Tree.grows_addLeaf hparams.lt_size _ token)).parentOrSelf⟩
  split
  -- Behind a comma the next datatype is opened below the same list.
  · have hcomma := hparams.mono
      (Tree.grows_addLeaf hparams.lt_size .parameterSeparator token)
    have hnew := Tree.holds_addContainer hcomma.lt_size .datatype token
    rw [Tree.size_addLeaf] at hnew
    exact ⟨(hp.regular.add (hparams.stem rfl)).add (hcomma.stem rfl), Or.inr ⟨parameters, hnew,
      hcomma.mono (Tree.grows_addContainer hcomma.lt_size .datatype token)⟩⟩
  split
  · next hopen =>
    -- The datatype of the sequence under way hangs below the parameters.
    have h := hp.holds_slot hs hopen
    rw [if_pos hopen] at hplace
    rw [hplace] at h
    refine sound_digestAt hp.regular hstem ?_ ?_
    · exact fun u hu => Or.inr ⟨parameters, h.mono hu, hparams.mono hu⟩
    · exact fun u hu => Or.inl ((h.mono hu).parentOrSelf.symm ▸ hparams.mono hu)
  · exact Sound.refuse hp.regular hstem _

/-- A token that the state gives a meaning leaves the place fitting the
state. -/
theorem Sound.handle (hp : p.Sound) : (p.handle token).Sound := by
  -- State by state, each with the seat that the state names.
  unfold Parser.handle
  split
  · next hs => exact hp.onIdle hs
  · next hs => exact hp.onPreprocessor hs
  · next hs => exact hp.endDirective (hp.seats_of hs) _
  · next hs => exact hp.onDefineName hs
  · next hs => exact hp.endDirective (hp.seats_of hs) _
  · next hs => exact hp.endDirective (hp.seats_of hs) _
  · next hs =>
    have hplace : p.tree.Holds p.place .datatype Tree.root := hp.seats_of hs
    exact sound_digestAt hp.regular hp.stem (fun u hu => hplace.mono hu)
      (fun u hu => (hplace.mono hu).parentOrSelf)
  · next hs => exact hp.onIdentifier hs
  · next hs => exact hp.onArrayDefinition hs
  · next hs => exact hp.onInitialization hs
  · next hs => exact hp.onParameters hs
  · exact Sound.refuse hp.regular hp.stem _
  · exact hp

/-- A comment is kept at the place, which stays. -/
theorem Sound.leaf_place (hp : p.Sound) (kind : NodeKind) :
    (p.leaf p.place kind token).Sound :=
  ⟨hp.regular.add hp.stem, hp.seats.mono (Tree.grows_addLeaf hp.stem.lt_size kind token)⟩

/-- A stopped parse ignores what it is handed. -/
theorem feed_of_isStopped (h : p.isStopped = true) (token : Token) : p.feed token = p := by
  rw [Parser.feed, ← isStopped, if_pos h]

/-- One token leaves a sound parse sound. -/
theorem Sound.feed (hp : p.Sound) (token : Token) : (p.feed token).Sound := by
  unfold Parser.feed
  split
  · exact hp
  split
  · exact hp.leaf_place _
  · exact hp.leaf_place _
  · exact Sound.refuse hp.regular hp.stem _
  · exact hp.handle

/-- Whatever tokens a parse is handed, its place fits its state. -/
theorem sound_feedAll (hp : p.Sound) (tokens : List Token) : (p.feedAll tokens).Sound := by
  induction tokens generalizing p with
  | nil => exact hp
  | cons token tokens ih => exact ih (hp.feed token)

/-- What each token leaves as it is holds behind all of them. -/
theorem Sound.feedAll_induction {P : Parser → Prop} (hp : p.Sound) (h : P p)
    (hfeed : ∀ {q : Parser}, q.Sound → P q → ∀ token, P (q.feed token)) (tokens : List Token) :
    P (p.feedAll tokens) := by
  induction tokens generalizing p with
  | nil => exact h
  | cons token tokens ih => exact ih (hp.feed token) (hfeed hp h token)

/-- The mode that is pending is no matter of soundness. -/
theorem Sound.spent (hp : p.Sound) : Sound { p with pending := .normal } :=
  ⟨hp.regular, hp.seats⟩

/-- A token that was handed over keeps the parse sound. -/
theorem Sound.receive (hp : p.Sound) (token : Token) : (p.receive token).Sound :=
  hp.spent.feed token

/-- A delivery keeps the parse sound. -/
theorem Sound.deliver (hp : p.Sound) (c : Cursor) : (p.deliver c).parser.Sound := by
  induction p, c using deliver_induction with
  | stopped p c h =>
      rw [deliver_of_isStopped h]
      exact hp
  | ended p c d h hnext =>
      rw [deliver_of_none h hnext]
      exact hp.spent
  | delivered p c token d h hnext ih =>
      rw [deliver_of_some h hnext]
      exact ih (hp.receive token)

end Parser

end CDeclarations
