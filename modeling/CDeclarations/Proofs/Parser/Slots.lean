import CDeclarations.Proofs.Specifier.Sequence

/-!
# `CDeclarations.Proofs.Parser.Slots`: what holds of every datatype under way

The categories of a parse belong to the datatype that is under way, be it
that of a declaration or that of a parameter. Nothing says so in the parse
itself: the categories of the datatype before are still there when a new one
is added. So a property of a datatype and its categories has to hold of a new
datatype, whatever the categories are; it has to be kept by what the digester
classifies, and by comments. It then holds whenever the parse stands at a
datatype.

* `Lasting`: the three laws of such a property.
* `Parser.Upholds`: the property holds of the datatype under way.
* `Sound.upholds_feed`: every token keeps it, with one lemma for each state's
  handler. So it holds throughout a parse (`Sound.upholds_feedAll`).
-/

set_option autoImplicit false

namespace CDeclarations

/-- A property of a datatype and the categories held for it that lasts as long
as the datatype is under way. -/
structure Lasting (P : Tree → NodeId → Flags → Prop) : Prop where
  container {t : Tree} {parent : NodeId} (h : parent < t.size) (flags : Flags) (token : Token) :
    P (t.addContainer parent .datatype token) t.size flags
  comment {t : Tree} {datatype : NodeId} {flags : Flags} {kind : NodeKind} (ht : t.Regular)
    (hd : t.Stem datatype) (h : P t datatype flags) (hk : kind.isComment = true) (token : Token) :
    P (t.addLeaf datatype kind token) datatype flags
  digest {t : Tree} {datatype : NodeId} {flags : Flags} {token : Token} {id : NodeId}
    (ht : t.Regular) (hd : t.Stem datatype) (h : P t datatype flags)
    (houtcome : (digest t datatype flags token).outcome = .classified id) :
    P (digest t datatype flags token).tree datatype (digest t datatype flags token).flags

/-- In the states that digest at a datatype the property holds of it. -/
def Tree.Upholds (P : Tree → NodeId → Flags → Prop) (t : Tree) (flags : Flags) (place : NodeId) :
    State → Prop
  | .datatype | .parameters => t.kind? place = some .datatype → P t place flags
  | _ => True

variable {P : Tree → NodeId → Flags → Prop}

/-- What holds of the place is upheld in every state. -/
theorem Tree.upholds_of {t : Tree} {flags : Flags} {place : NodeId} (h : P t place flags)
    (state : State) : t.Upholds P flags place state := by
  cases state with
  | datatype | parameters => exact fun _ => h
  | _ => trivial

/-- Where the place is no datatype there is nothing to uphold. -/
theorem Tree.upholds_of_kind?_ne {t : Tree} {place : NodeId} (h : t.kind? place ≠ some .datatype)
    (flags : Flags) (state : State) : t.Upholds P flags place state := by
  cases state with
  | datatype | parameters => exact fun hk => absurd hk h
  | _ => trivial

/-- The kind above a node stays when the tree grows. -/
theorem Tree.Grows.kind?_parentOrSelf {t u : Tree} (hg : t.Grows u) {id : NodeId}
    (h : t.Stem id) (hup : t.Stem (t.parentOrSelf id)) :
    u.kind? (u.parentOrSelf id) = t.kind? (t.parentOrSelf id) := by
  obtain ⟨n, hn, -⟩ := h
  obtain ⟨m, hm, hnm⟩ := hg id n hn
  have hparent : u.parentOrSelf id = t.parentOrSelf id := by
    rw [parentOrSelf, parentOrSelf, hn, hm, Option.bind_some, Option.bind_some, hnm.parent]
  obtain ⟨n', hn', -⟩ := hup
  obtain ⟨m', hm', hnm'⟩ := hg _ n' hn'
  rw [hparent, Tree.kind?, Tree.kind?, hn', hm', Option.map_some, Option.map_some, hnm'.kind]

namespace Parser

/-- The property holds of the datatype under way. -/
def Upholds (P : Tree → NodeId → Flags → Prop) (p : Parser) : Prop :=
  p.tree.Upholds P p.flags p.place p.state

/-- A new parse has no sequence under way. -/
theorem upholds_ofUnit (kind : UnitKind) (filename : String) : (ofUnit kind filename).Upholds P :=
  trivial

variable {p : Parser} {token : Token}

/-- Behind a refusal there is no sequence under way. -/
theorem upholds_refuse (failure : Failure) : (p.refuse token failure).Upholds P :=
  trivial

/-- A specifier keeps the property of the sequence it is read into, or ends
that sequence. -/
theorem upholds_digestAt (hP : Lasting P) (hp : p.tree.Regular) {datatype : NodeId}
    (hd : p.tree.Stem datatype) (h : P p.tree datatype p.flags) (within : State) {behind : State}
    (hbehind : behind ≠ .identifier →
      p.tree.kind? (p.tree.parentOrSelf datatype) ≠ some .datatype) :
    (p.digestAt datatype token within behind).Upholds P := by
  unfold digestAt
  dsimp only
  split
  · next id houtcome => exact Tree.upholds_of (hP.digest hp hd h houtcome) within
  -- Behind a name no sequence is under way, and the list of parameters is no datatype
  -- either.
  · by_cases hname : behind = .identifier
    · rw [hname]
      exact trivial
    · have hgrows := (digest_regular_grows hp hd p.flags token).2
      have hkind := hgrows.kind?_parentOrSelf hd (hp.stem_parentOrSelf hd)
      exact Tree.upholds_of_kind?_ne (hkind ▸ hbehind hname) _ behind
  · exact trivial

/-- The property holds of a datatype that the parse enters. -/
theorem upholds_container (hP : Lasting P) {parent : NodeId} (h : parent < p.tree.size)
    (token : Token) (state : State) :
    ((p.container parent .datatype token).enter state p.tree.size).Upholds P :=
  Tree.upholds_of (hP.container h p.flags token) state

/-! ### The handlers -/

/-- An idle parser begins a sequence in a new datatype. -/
theorem Sound.upholds_onIdle (hP : Lasting P) (hp : p.Sound) : (p.onIdle token).Upholds P := by
  have hstem := hp.stem
  have hlt := hstem.lt_size
  rw [Parser.onIdle]
  split
  · trivial
  split
  · have hnew : (p.container p.place .datatype token).tree.Stem p.tree.size :=
      (Tree.holds_addContainer hlt .datatype token).stem rfl
    exact upholds_digestAt hP (hp.regular.add hstem) hnew (hP.container hlt p.flags token) .datatype
      (absurd rfl)
  · exact upholds_refuse _

/-- A directive has no sequence. -/
theorem upholds_onPreprocessor : (p.onPreprocessor token).Upholds P := by
  rw [Parser.onPreprocessor]
  split
  · trivial
  split
  · trivial
  split
  · trivial
  · exact upholds_refuse _

/-- An opening parenthesis begins the sequence of the first parameter. -/
theorem Sound.upholds_onIdentifier (hP : Lasting P) (hp : p.Sound) :
    (p.onIdentifier token).Upholds P := by
  have hlt := hp.stem.lt_size
  rw [Parser.onIdentifier]
  split
  · trivial
  split
  · trivial
  split
  · have hsize : ((p.container p.place .parameters token).leaf p.tree.size .openParen
        token).tree.size = p.tree.size + 2 := by
      rw [leaf, Tree.size_addLeaf, container, Tree.size_addContainer]
    have hparams : p.tree.size < ((p.container p.place .parameters token).leaf p.tree.size
        .openParen token).tree.size := by
      rw [hsize]
      exact Nat.lt_add_of_pos_right Nat.zero_lt_two
    have hnew := upholds_container hP hparams token .parameters
    rwa [hsize] at hnew
  split
  · trivial
  split
  · exact upholds_refuse _
  · exact upholds_refuse _

/-- A length has no sequence. -/
theorem upholds_onArrayDefinition : (p.onArrayDefinition token).Upholds P := by
  rw [Parser.onArrayDefinition]
  split
  · trivial
  split
  · exact upholds_refuse _
  · trivial

/-- An initializer has no sequence. -/
theorem upholds_onInitialization : (p.onInitialization token).Upholds P := by
  unfold Parser.onInitialization
  dsimp only
  generalize (if p.tree.kind? p.place = some .arrayItem then p.nesting else 0) = count
  split
  · trivial
  split
  · split
    · trivial
    · exact upholds_refuse (p := { p with nesting := count - 1 }) _
  split
  · split
    · trivial
    · exact upholds_refuse (p := { p with nesting := count }) _
  split
  · split
    · trivial
    · exact upholds_refuse (p := { p with nesting := count }) _
  · trivial

/-- In parameters a comma begins a new sequence, and a specifier goes on with
the one under way. -/
theorem Sound.upholds_onParameters (hP : Lasting P) (hp : p.Sound) (hs : p.state = .parameters)
    (h : p.Upholds P) : (p.onParameters token).Upholds P := by
  have hparams := hp.stem_parameters.lt_size
  rw [Upholds, hs] at h
  unfold Parser.onParameters
  dsimp only
  split
  · trivial
  split
  · have hnew := upholds_container hP (p := p.leaf (if p.tree.kind? p.place = some .datatype then
      p.up p.place else p.place) .parameterSeparator token)
      (Nat.lt_of_lt_of_eq (Nat.lt_succ_of_lt hparams) (Tree.size_addLeaf ..).symm) token .parameters
    rwa [leaf, Tree.size_addLeaf] at hnew
  split
  · next hopen =>
    refine upholds_digestAt hP hp.regular hp.stem (h hopen) .parameters fun _ => ?_
    -- The datatype is a parameter's, so that the node above it holds the parameters.
    rcases hp.seats_of hs with hseat | ⟨q, hseat, hq⟩
    · rw [hseat.kind?] at hopen
      cases hopen
    · rw [hseat.parentOrSelf, hq.kind?]
      decide
  · exact upholds_refuse _

/-- In every state the token keeps the property of the sequence under way. -/
theorem Sound.upholds_handle (hP : Lasting P) (hp : p.Sound) (h : p.Upholds P) :
    (p.handle token).Upholds P := by
  rw [Parser.handle]
  split
  · exact hp.upholds_onIdle hP
  · exact upholds_onPreprocessor
  · trivial
  · trivial
  · trivial
  · trivial
  · next hs =>
    have hopen : p.tree.kind? p.place = some .datatype := (hp.seats_of hs).kind?
    rw [Upholds, hs] at h
    exact upholds_digestAt hP hp.regular hp.stem (h hopen) .datatype (absurd rfl)
  · exact hp.upholds_onIdentifier hP
  · exact upholds_onArrayDefinition
  · exact upholds_onInitialization
  · next hs => exact hp.upholds_onParameters hP hs h
  · exact upholds_refuse _
  · exact h

/-- A comment is no part of a sequence. -/
theorem Sound.upholds_comment (hP : Lasting P) (hp : p.Sound) (h : p.Upholds P) {kind : NodeKind}
    (hk : kind.isComment = true) : (p.leaf p.place kind token).Upholds P := by
  have hlt := hp.stem.lt_size
  have hkind : (p.tree.addLeaf p.place kind token).kind? p.place = p.tree.kind? p.place := by
    rw [Tree.addLeaf, Tree.kind?_add _ _ _ _ hlt, if_neg (Nat.ne_of_lt hlt)]
  rw [Upholds] at h ⊢
  show Tree.Upholds P (p.tree.addLeaf p.place kind token) p.flags p.place p.state
  -- Only the two states that read specifiers ask for the property.
  cases hs : p.state with
  | datatype | parameters =>
      rw [hs] at h
      intro hdatatype
      rw [hkind] at hdatatype
      exact hP.comment hp.regular hp.stem (h hdatatype) hk token
  | _ => trivial

/-- Every token keeps the property. -/
theorem Sound.upholds_feed (hP : Lasting P) (hp : p.Sound) (h : p.Upholds P) (token : Token) :
    (p.feed token).Upholds P := by
  rw [Parser.feed]
  split
  · exact h
  split
  · exact hp.upholds_comment hP h rfl
  · exact hp.upholds_comment hP h rfl
  · exact upholds_refuse _
  · exact hp.upholds_handle hP h

/-- A run of tokens keeps it. -/
theorem Sound.upholds_feedAll (hP : Lasting P) (hp : p.Sound) (h : p.Upholds P)
    (tokens : List Token) : (p.feedAll tokens).Upholds P :=
  hp.feedAll_induction h (Sound.upholds_feed hP) tokens

/-- Where the parse stands at a datatype, the property holds of it. -/
theorem Upholds.elim (h : p.Upholds P) (hs : p.state = .datatype ∨ p.state = .parameters)
    (hk : p.tree.kind? p.place = some .datatype) : P p.tree p.place p.flags := by
  rw [Upholds] at h
  rcases hs with hs | hs <;> rw [hs] at h <;> exact h hk

end Parser

end CDeclarations
