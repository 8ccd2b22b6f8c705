import CDeclarations.Proofs.Parser.Guarded
import CDeclarations.Proofs.Parser.Recognition
import CDeclarations.Proofs.Tree.Braces

/-!
# `CDeclarations.Proofs.Parser.Braces`: the count of braces is the depth

In an initializer a parse keeps a count of braces beside the place where it
stands. An opening brace, a closing one and a comma change the two in different
ways, and the count begins anew outside items. The two agree all the same: the
lists that are open in the tree are those around the place, and the count is
their number. In all other states no list is open.

* `Parser.Braced`: the agreement, with one lemma for each state's handler. A new
  parse has it, and each token keeps it (`Sound.braced_feed`).
* `Sound.onInitialization_closeBrace`, `Sound.onInitialization_comma`,
  `onInitialization_sentenceEnd`: what the handler does with a mark, by the lists
  around the place and no longer by the count.
* `Sound.closesList`, `Sound.opensItem`, `accepts_sentenceEnd_iff`: the same in
  terms of the lists that are open.
* `braces_feedAll`: all of this throughout a parse.
-/

set_option autoImplicit false

namespace CDeclarations

/-- In an initializer the lists around the place are those that are open, and
there are as many of them as the count says. Elsewhere no list is open. -/
def Tree.Braces (t : Tree) (nesting : Int) (place : NodeId) : State → Prop
  | .initialization => ∃ lists, nesting = (lists.length : Nat) ∧ t.Nested lists place
  | .stopped _ => True
  | _ => t.AllClosed

/-- Outside of an initializer there is nothing but closed lists to keep. -/
theorem Tree.AllClosed.braces {t : Tree} (h : t.AllClosed) (nesting : Int) (place : NodeId)
    {state : State} (hs : state ≠ .initialization) : t.Braces nesting place state := by
  cases state with
  | initialization => exact absurd rfl hs
  | stopped _ => trivial
  | _ => exact h

/-- A digested token touches no list. -/
theorem allClosed_digest {t : Tree} (ht : t.Regular) {datatype : NodeId} (hd : t.Stem datatype)
    (h : t.AllClosed) (flags : Flags) (token : Token) :
    (digest t datatype flags token).tree.AllClosed := by
  have hlinked := ht.toLinked
  cases hj : (flags.forSequence t datatype).judge token with
  | part kind after =>
      have hkinds : ∀ kind ∈ partKinds, kind.isBrace = false := by decide
      simp only [digest, hj]
      exact h.add hlinked hd.lt_size (hkinds kind (Flags.mem_partKinds_of_judge hj))
  | composed word after =>
      have hnew := Tree.holds_addContainer hd.lt_size .userType token
      have hreg : (t.addContainer datatype .userType token).Regular := ht.add hd
      have hkind : word.nodeKind.isBrace = false := by cases word <;> rfl
      simp only [digest, hj]
      exact (h.add hlinked hd.lt_size rfl).add hreg.toLinked hnew.lt_size hkind
  | tag after =>
      simp only [digest, hj]
      exact h.add hlinked (Tree.Regular.stem_tagParent hd).lt_size rfl
  | name =>
      simp only [digest, hj]
      exact h.add hlinked (ht.stem_parentOrSelf hd).lt_size rfl
  | refused failure =>
      simp only [digest, hj]
      exact h.add hlinked hd.lt_size rfl

namespace Parser

/-- The count of braces and the place agree with the lists that are open. -/
def Braced (p : Parser) : Prop :=
  p.tree.Braces p.nesting p.place p.state

variable {p : Parser} {token : Token} {lists : List NodeId}

/-- The tree of a new parse has no list. -/
theorem braced_ofUnit (kind : UnitKind) (filename : String) : (ofUnit kind filename).Braced := by
  rintro id ⟨hkind, -⟩
  -- The only node is the root.
  obtain ⟨n, hn, hk⟩ := Option.map_eq_some_iff.1 hkind
  obtain ⟨-, rfl⟩ := Tree.eq_of_getElem?_ofRoot hn
  cases kind <;> cases hk

/-- The agreement in the state that the parse is known to be in. -/
theorem Braced.braces_of (h : p.Braced) {state : State} (hs : p.state = state) :
    p.tree.Braces p.nesting p.place state :=
  hs ▸ h

/-! ### The handlers -/

/-- A specifier adds no list, and the states around it are not that of an
initializer. -/
theorem braced_digestAt (hp : p.tree.Regular) {datatype : NodeId} (hd : p.tree.Stem datatype)
    (h : p.tree.AllClosed) {within behind : State} (hwithin : within ≠ .initialization)
    (hbehind : behind ≠ .initialization) : (p.digestAt datatype token within behind).Braced := by
  have hclosed := allClosed_digest hp hd h p.flags token
  unfold digestAt
  dsimp only
  split
  · exact hclosed.braces _ _ hwithin
  · exact hclosed.braces _ _ hbehind
  · trivial

/-- An idle parser opens no list. -/
theorem Sound.braced_onIdle (hp : p.Sound) (h : p.tree.AllClosed) : (p.onIdle token).Braced := by
  have hstem := hp.stem
  have hlt := hstem.lt_size
  rw [Parser.onIdle]
  split
  · exact h.add hp.regular.toLinked hlt rfl
  split
  · have hnew := Tree.holds_addContainer hlt .datatype token
    have hclosed : (p.container p.place .datatype token).tree.AllClosed :=
      h.add hp.regular.toLinked hlt rfl
    exact braced_digestAt (hp.regular.add hstem) (hnew.stem rfl) hclosed (by decide) (by decide)
  · trivial

/-- A directive opens no list. -/
theorem Sound.braced_onPreprocessor (hp : p.Sound) (h : p.tree.AllClosed) :
    (p.onPreprocessor token).Braced := by
  have hlt := hp.stem.lt_size
  rw [Parser.onPreprocessor]
  split
  · exact h.add hp.regular.toLinked hlt rfl
  split
  · exact h.add hp.regular.toLinked hlt rfl
  split
  · exact h.add hp.regular.toLinked hlt rfl
  · trivial

/-- Behind a declared name an initializer may begin, and then it has no list
yet. -/
theorem Sound.braced_onIdentifier (hp : p.Sound) (hs : p.state = .identifier)
    (h : p.tree.AllClosed) : (p.onIdentifier token).Braced := by
  have hplace : p.place = Tree.root := hp.seats_of hs
  have hstem := hp.stem
  have hlt := hstem.lt_size
  have hlinked := hp.regular.toLinked
  rw [Parser.onIdentifier]
  split
  · exact h.add hlinked hlt rfl
  split
  -- The length of an array takes a container and its bracket.
  · have hnew := Tree.holds_addContainer hlt .arrayDefinition token
    have hreg : (p.container p.place .arrayDefinition token).tree.Regular := hp.regular.add hstem
    have hfirst : (p.container p.place .arrayDefinition token).tree.AllClosed :=
      h.add hlinked hlt rfl
    exact hfirst.add hreg.toLinked hnew.lt_size rfl
  split
  · exact h.addBracket hp.regular hstem rfl rfl rfl rfl token
  split
  · -- An initializer begins, and no list stands around it.
    have hclosed : (p.tree.addContainer p.place .initialization token).AllClosed :=
      h.add hlinked hlt rfl
    have hnew := Tree.holds_addContainer hlt .initialization token
    rw [hplace] at hnew hclosed
    refine ⟨[], rfl, ?_⟩
    show (p.tree.addContainer p.place .initialization token).Nested [] p.tree.size
    rw [hplace]
    exact hclosed.nested hnew
  split
  · trivial
  · trivial

/-- A length has no list in it. -/
theorem Sound.braced_onArrayDefinition (hp : p.Sound) (h : p.tree.AllClosed) :
    (p.onArrayDefinition token).Braced := by
  have hlt := hp.stem.lt_size
  rw [Parser.onArrayDefinition]
  split
  · exact h.add hp.regular.toLinked hlt rfl
  split
  · trivial
  · exact h.add hp.regular.toLinked hlt rfl

/-- Parameters have no list in them. -/
theorem Sound.braced_onParameters (hp : p.Sound) (h : p.tree.AllClosed) :
    (p.onParameters token).Braced := by
  have hstem := hp.stem_parameters
  have hlt := hstem.lt_size
  rw [Parser.onParameters]
  split
  · exact h.add hp.regular.toLinked hlt rfl
  split
  · have hstem' := hstem.mono (Tree.grows_addLeaf hlt .parameterSeparator token)
    exact (h.add hp.regular.toLinked hlt rfl).add (hp.regular.add hstem).toLinked hstem'.lt_size rfl
  split
  · exact braced_digestAt hp.regular hp.stem h (by decide) (by decide)
  · trivial

/-- The count of braces where it begins anew outside items. -/
theorem count_eq (hn : p.nesting = (lists.length : Nat)) (h : p.tree.Nested lists p.place) :
    (if p.tree.kind? p.place = some .arrayItem then p.nesting else 0) = (lists.length : Nat) := by
  split
  · exact hn
  · next hitem =>
    rw [h.between.kind?_eq_arrayItem_iff, Decidable.not_not] at hitem
    rw [hitem]
    rfl

/-- A closing brace in an initializer, by the lists around the place. -/
def closing (p : Parser) (token : Token) : List NodeId → Parser
  | [] => { p with nesting := -1 }.reject token .unexpectedCloseBrace
  | data :: outer => ({ p with nesting := outer.length }.leaf data .closeBrace token).enter
      .initialization (p.up data)

/-- A comma in an initializer, by the lists around the place. -/
def parting (p : Parser) (token : Token) : List NodeId → Parser
  | [] => { p with nesting := 0 }.reject token .unexpectedComma
  | data :: outer => ({ p with nesting := outer.length + 1 }.container data .arrayItem
      token).enter .initialization p.tree.size

/-- A semicolon in an initializer, by the lists around the place. -/
def ending (p : Parser) (token : Token) : List NodeId → Parser
  | [] => ({ p with nesting := 0 }.leaf (p.up p.place) .sentenceEnd token).enter .idle
      (p.up p.place)
  | _ :: outer => { p with nesting := outer.length + 1 }.reject token .unexpectedSentenceEnd

/-- A closing brace closes the innermost list, whatever the count was said to
be. -/
theorem Sound.onInitialization_closeBrace (hp : p.Sound) (hn : p.nesting = (lists.length : Nat))
    (h : p.tree.Nested lists p.place) (hmark : token.isMark '}' = true) :
    p.onInitialization token = p.closing token lists := by
  have hopen : token.isMark '{' = false := Token.isMark_eq_false hmark (by decide)
  unfold Parser.onInitialization
  dsimp only
  rw [count_eq hn h, hopen, if_neg Bool.false_ne_true, if_pos hmark]
  cases lists with
  | nil => rfl
  | cons data outer =>
      obtain ⟨hitem, _, hdata, -⟩ := h.close hp.regular.toLinked token
      have hcount : ((data :: outer).length : Int) - 1 = outer.length := by
        rw [List.length_cons]
        omega
      have hup : up { p with nesting := (outer.length : Int) } p.place = data := hitem.parentOrSelf
      -- The list is below the same node when the brace stands in it.
      have hbehind : (leaf { p with nesting := (outer.length : Int) } data .closeBrace token).up
          data = p.up data :=
        (hdata.mono (Tree.grows_addLeaf hdata.lt_size .closeBrace token)).parentOrSelf.trans
          hdata.parentOrSelf.symm
      rw [hcount, if_pos (by omega), hup, hbehind, closing]

/-- A comma begins the next item of the innermost list. -/
theorem Sound.onInitialization_comma (hp : p.Sound) (hn : p.nesting = (lists.length : Nat))
    (h : p.tree.Nested lists p.place) (hmark : token.isMark ',' = true) :
    p.onInitialization token = p.parting token lists := by
  have hopen : token.isMark '{' = false := Token.isMark_eq_false hmark (by decide)
  have hclose : token.isMark '}' = false := Token.isMark_eq_false hmark (by decide)
  unfold Parser.onInitialization
  dsimp only
  rw [count_eq hn h, hopen, hclose, if_neg Bool.false_ne_true, if_neg Bool.false_ne_true,
    if_pos hmark]
  cases lists with
  | nil => rfl
  | cons data outer =>
      obtain ⟨hitem, -, -⟩ := h.next hp.regular.toLinked token
      have hcount : ((data :: outer).length : Int) = outer.length + 1 := by
        rw [List.length_cons]
        omega
      have hup : up { p with nesting := (outer.length : Int) + 1 } p.place = data :=
        hitem.parentOrSelf
      rw [hcount, if_pos (by omega), hup, parting]

/-- A semicolon ends the declaration outside of every list, and is refused in
one. -/
theorem onInitialization_sentenceEnd (hn : p.nesting = (lists.length : Nat))
    (h : p.tree.Nested lists p.place) (hmark : token.isMark ';' = true) :
    p.onInitialization token = p.ending token lists := by
  have hopen : token.isMark '{' = false := Token.isMark_eq_false hmark (by decide)
  have hclose : token.isMark '}' = false := Token.isMark_eq_false hmark (by decide)
  have hcomma : token.isMark ',' = false := Token.isMark_eq_false hmark (by decide)
  unfold Parser.onInitialization
  dsimp only
  rw [count_eq hn h, hopen, hclose, hcomma, if_neg Bool.false_ne_true, if_neg Bool.false_ne_true,
    if_neg Bool.false_ne_true, if_pos hmark]
  cases lists with
  | nil => rfl
  | cons data outer =>
      have hcount : ((data :: outer).length : Int) = outer.length + 1 := by
        rw [List.length_cons]
        omega
      rw [hcount, if_neg (by omega), ending]

/-- Each token of an initializer keeps the count the depth of the place. -/
theorem Sound.braced_onInitialization (hp : p.Sound) (hn : p.nesting = (lists.length : Nat))
    (h : p.tree.Nested lists p.place) : (p.onInitialization token).Braced := by
  have hlinked := hp.regular.toLinked
  have hlt := hp.stem.lt_size
  -- The three marks that look at the count come first.
  by_cases hclose : token.isMark '}' = true
  · rw [hp.onInitialization_closeBrace hn h hclose]
    cases lists with
    | nil => trivial
    | cons data lists =>
        obtain ⟨-, outer, hdata, hclosed⟩ := h.close hlinked token
        have hup : p.up data = outer := hdata.parentOrSelf
        rw [closing, hup]
        exact ⟨lists, rfl, hclosed⟩
  by_cases hcomma : token.isMark ',' = true
  · rw [hp.onInitialization_comma hn h hcomma]
    cases lists with
    | nil => trivial
    | cons data lists =>
        obtain ⟨-, -, hnext⟩ := h.next hlinked token
        exact ⟨data :: lists, rfl, hnext⟩
  by_cases hend : token.isMark ';' = true
  · rw [onInitialization_sentenceEnd hn h hend]
    cases lists with
    | nil =>
        have hclosed : p.tree.AllClosed := h.allClosed_iff.2 rfl
        exact hclosed.add hlinked (hp.regular.stem_parentOrSelf hp.stem).lt_size rfl
    | cons data lists => trivial
  · unfold Parser.onInitialization
    dsimp only
    rw [count_eq hn h, if_neg hclose, if_neg hcomma, if_neg hend]
    split
    -- An opening brace adds its list to those that are open.
    · exact ⟨p.tree.size :: lists, rfl, h.addBracket hp.regular token⟩
    · exact ⟨lists, rfl, h.add hlinked hlt rfl⟩

/-- In every state the token keeps the agreement. -/
theorem Sound.braced_handle (hp : p.Sound) (h : p.Braced) : (p.handle token).Braced := by
  have hlinked := hp.regular.toLinked
  have hlt := hp.stem.lt_size
  -- In all states but that of an initializer the agreement says that no list is open.
  have hadd : p.tree.AllClosed → ∀ kind : NodeKind, kind.isBrace = false →
      (p.tree.addLeaf p.place kind token).AllClosed :=
    fun hclosed kind hkind => hclosed.add hlinked hlt hkind
  rw [Parser.handle]
  split
  · next hs => exact hp.braced_onIdle (h.braces_of hs)
  · next hs => exact hp.braced_onPreprocessor (h.braces_of hs)
  · next hs => exact hadd (h.braces_of hs) .includeName rfl
  · next hs => exact hadd (h.braces_of hs) .defineName rfl
  · next hs => exact hadd (h.braces_of hs) .defineBody rfl
  · next hs => exact hadd (h.braces_of hs) .pragmaText rfl
  · next hs =>
    exact braced_digestAt hp.regular hp.stem (h.braces_of hs) (by decide) (by decide)
  · next hs => exact hp.braced_onIdentifier hs (h.braces_of hs)
  · next hs => exact hp.braced_onArrayDefinition (h.braces_of hs)
  · next hs =>
    obtain ⟨lists, hn, hnested⟩ := h.braces_of hs
    exact hp.braced_onInitialization hn hnested
  · next hs => exact hp.braced_onParameters (h.braces_of hs)
  · trivial
  · exact h

/-- A comment that is kept at the place touches no list. -/
theorem Sound.braced_leaf (hp : p.Sound) (h : p.Braced) {kind : NodeKind}
    (hkind : kind.isBrace = false) : (p.leaf p.place kind token).Braced := by
  have hlinked := hp.regular.toLinked
  have hlt := hp.stem.lt_size
  show (p.tree.addLeaf p.place kind token).Braces p.nesting p.place p.state
  rw [Braced] at h
  generalize p.state = state at h ⊢
  cases state with
  | initialization =>
      obtain ⟨lists, hn, hnested⟩ := h
      exact ⟨lists, hn, hnested.add hlinked hlt hkind⟩
  | stopped _ => trivial
  | _ => exact Tree.AllClosed.add h hlinked hlt hkind

/-- One token leaves the count and the lists in agreement. -/
theorem Sound.braced_feed (hp : p.Sound) (h : p.Braced) (token : Token) :
    (p.feed token).Braced := by
  unfold Parser.feed
  split
  · exact h
  split
  · exact hp.braced_leaf h rfl
  · exact hp.braced_leaf h rfl
  · trivial
  · exact hp.braced_handle h

/-- A run of tokens keeps the agreement. -/
theorem Sound.braced_feedAll (hp : p.Sound) (h : p.Braced) (tokens : List Token) :
    (p.feedAll tokens).Braced :=
  hp.feedAll_induction h Sound.braced_feed tokens

/-! ### What the marks of an initializer do -/

/-- The token closes the list `data`, which is the innermost one that is open:
its brace comes last in the list, which has the opening one, and the parse goes
on behind the list. -/
structure ClosesList (p q : Parser) (token : Token) (data : NodeId) : Prop where
  innermost : p.tree.Innermost data
  opened : p.tree.Opened data
  tree : q.tree = p.tree.addLeaf data .closeBrace token
  last : (q.tree.children data).back? = some p.tree.size
  outer : p.tree.Holds data .arrayData q.place
  state : q.state = .initialization

/-- The token opens an item of the list `data`, which is the innermost one that
is open, and the parse goes on in the item. -/
structure OpensItem (p q : Parser) (token : Token) (data : NodeId) : Prop where
  innermost : p.tree.Innermost data
  tree : q.tree = p.tree.addContainer data .arrayItem token
  place : q.place = p.tree.size
  state : q.state = .initialization

/-- In an initializer a mark means what the handler says. -/
theorem feed_initialization (hs : p.state = .initialization) {mark : Char}
    (hmark : token.isMark mark = true) : p.feed token = p.onInitialization token := by
  have hkind : token.kind = .singleChar := by
    simp only [Token.isMark, Bool.and_eq_true, decide_eq_true_eq] at hmark
    exact hmark.1.1
  have hrun : ¬(p.state.failure?.isSome = true) := by
    rw [hs]
    exact Bool.false_ne_true
  rw [Parser.feed, if_neg hrun, hkind]
  show p.handle token = p.onInitialization token
  rw [Parser.handle, hs]

/-- An accepted closing brace is the last child of the list it closes, and the
place moves out of it. -/
theorem Sound.closesList (hp : p.Sound) (hn : p.nesting = (lists.length : Nat))
    (h : p.tree.Nested lists p.place) (hmark : token.isMark '}' = true)
    (haccepted : (p.onInitialization token).isStopped = false) :
    ∃ data, p.ClosesList (p.onInitialization token) token data := by
  have hlinked := hp.regular.toLinked
  rw [hp.onInitialization_closeBrace hn h hmark] at haccepted ⊢
  cases lists with
  | nil => cases haccepted
  | cons data lists =>
      obtain ⟨-, outer, hdata, -⟩ := h.close hlinked token
      have hup : p.up data = outer := hdata.parentOrSelf
      rw [closing, hup]
      refine ⟨data, h.innermost hlinked, h.opened, rfl, ?_, hdata, rfl⟩
      show ((p.tree.addLeaf data .closeBrace token).children data).back? = some p.tree.size
      rw [Tree.addLeaf, Tree.children_add _ _ _ _ hdata.lt_size, if_pos rfl, Array.back?_push]

/-- An accepted comma is followed by a new item in the same list. -/
theorem Sound.opensItem (hp : p.Sound) (hn : p.nesting = (lists.length : Nat))
    (h : p.tree.Nested lists p.place) (hmark : token.isMark ',' = true)
    (haccepted : (p.onInitialization token).isStopped = false) :
    ∃ data, p.OpensItem (p.onInitialization token) token data := by
  rw [hp.onInitialization_comma hn h hmark] at haccepted ⊢
  cases lists with
  | nil => cases haccepted
  | cons data lists => exact ⟨data, h.innermost hp.regular.toLinked, rfl, rfl, rfl⟩

/-- A semicolon ends a declaration where no list is open. -/
theorem accepts_sentenceEnd_iff (hn : p.nesting = (lists.length : Nat))
    (h : p.tree.Nested lists p.place) (hmark : token.isMark ';' = true) :
    (p.onInitialization token).isStopped = false ↔ p.tree.AllClosed := by
  rw [onInitialization_sentenceEnd hn h hmark, h.allClosed_iff]
  cases lists with
  | nil => exact iff_of_true rfl rfl
  | cons data lists => exact iff_of_false Bool.noConfusion (List.cons_ne_nil data lists)

/-- Whatever tokens a new parse is handed, in an initializer the count of braces
is the number of items between the place and the initializer, and is zero where
the place is the initializer itself; it is at most the number of tokens. The
lists that are open are those on that way. A closing brace that is accepted
closes the innermost of them, a comma opens an item of it, and a semicolon is
accepted where there is none. -/
theorem braces_feedAll (kind : UnitKind) (filename : String) (tokens : List Token) :
    let p := (ofUnit kind filename).feedAll tokens
    p.state = .initialization →
      p.nesting = p.tree.itemsAbove p.place ∧
      (p.nesting = 0 ↔ p.tree.kind? p.place = some .initialization) ∧
      p.nesting ≤ tokens.length ∧
      (∀ id, p.tree.Unclosed id ↔
        id ∈ p.tree.climb .initialization p.place ∧ p.tree.kind? id = some .arrayData) ∧
      ∀ token : Token,
        (token.isMark '}' = true → (p.feed token).isStopped = false →
          ∃ data, p.ClosesList (p.feed token) token data) ∧
        (token.isMark ',' = true → (p.feed token).isStopped = false →
          ∃ data, p.OpensItem (p.feed token) token data) ∧
        (token.isMark ';' = true →
          ((p.feed token).isStopped = false ↔ ∀ id, ¬p.tree.Unclosed id)) := by
  intro p hs
  have hp : p.Sound := sound_feedAll (sound_ofUnit kind filename) tokens
  have hlinked := hp.regular.toLinked
  have hcount := (sound_ofUnit kind filename).counted_feedAll (counted_ofUnit kind filename) tokens
  rw [Nat.zero_add] at hcount
  have hbraced : p.Braced :=
    (sound_ofUnit kind filename).braced_feedAll (braced_ofUnit kind filename) tokens
  obtain ⟨lists, hn, h⟩ := hbraced.braces_of hs
  have hzero : p.nesting = 0 ↔ lists = [] := by
    rw [hn, ← List.length_eq_zero_iff]
    omega
  refine ⟨?_, ?_, hcount.upper, ?_, fun token => ⟨?_, ?_, ?_⟩⟩
  · rw [hn, h.between.itemsAbove_eq hlinked]
  · rw [hzero, h.between.kind?_eq_iff]
  · exact fun id => (h.unclosed id).trans (h.between.mem_climb hlinked id)
  · intro hmark haccepted
    rw [feed_initialization hs hmark] at haccepted ⊢
    exact hp.closesList hn h hmark haccepted
  · intro hmark haccepted
    rw [feed_initialization hs hmark] at haccepted ⊢
    exact hp.opensItem hn h hmark haccepted
  · intro hmark
    rw [feed_initialization hs hmark]
    exact accepts_sentenceEnd_iff hn h hmark

/-- Two braces are open in an initializer: a closing brace closes the second
list, a comma opens another item of it, and a semicolon is refused. -/
theorem braces_feedAll_two :
    let word := fun text => Token.mk .identifier ⟨1, 1⟩ text
    let mark := fun c => Token.mk .singleChar ⟨1, 1⟩ (String.singleton c)
    let p := (ofUnit .source "unit.c").feedAll
      [word "int", word "n", mark '=', mark '{', mark '{']
    p.state = .initialization ∧ p.nesting = p.tree.itemsAbove p.place ∧
      (mark '}').isMark '}' = true ∧ (p.feed (mark '}')).isStopped = false ∧
      (∃ data, p.ClosesList (p.feed (mark '}')) (mark '}') data) ∧
      (mark ',').isMark ',' = true ∧ (p.feed (mark ',')).isStopped = false ∧
      (∃ data, p.OpensItem (p.feed (mark ',')) (mark ',') data) ∧
      (mark ';').isMark ';' = true ∧
      ((p.feed (mark ';')).isStopped = false ↔ ∀ id, ¬p.tree.Unclosed id) := by
  intro word mark p
  have hs : p.state = .initialization := by decide +kernel
  obtain ⟨hnesting, -, -, -, hmarks⟩ := braces_feedAll .source "unit.c"
    [word "int", word "n", mark '=', mark '{', mark '{'] hs
  have hclose : (mark '}').isMark '}' = true ∧ (p.feed (mark '}')).isStopped = false := by
    decide +kernel
  have hcomma : (mark ',').isMark ',' = true ∧ (p.feed (mark ',')).isStopped = false := by
    decide +kernel
  have hend : (mark ';').isMark ';' = true := by decide +kernel
  exact ⟨hs, hnesting, hclose.1, hclose.2, (hmarks (mark '}')).1 hclose.1 hclose.2, hcomma.1,
    hcomma.2, (hmarks (mark ',')).2.1 hcomma.1 hcomma.2, hend, (hmarks (mark ';')).2.2 hend⟩

end Parser

end CDeclarations
