import CDeclarations.Proofs.Parser.Lossless
import CDeclarations.Proofs.Parser.Pending
import CDeclarations.Proofs.Specifier.Sequence
import CDeclarations.Proofs.Tree.Tidy

/-!
# `CDeclarations.Proofs.Parser.ErrorNode`: the status and the tree agree

A parse that fails leaves one error node, and nothing behind it. The
node is the last of the tree and the last in pre-order, for the place of
a parse is always on the way from the root to the latest node.

* `Growing`: a parse in a tidy tree, with its place on the spine.
* `Growing.settled_feed`: one token leaves the parse so, or stops it with
  its error node, with one lemma for each state's handler.
* `StoppedBy.close`, `Growing.close`: what the closed parse leaves: the error
  of the refused token, or the one at the end of the text.
* `status_run_agrees_tree`: so the status of a run tells what the tree holds.
-/

set_option autoImplicit false

namespace CDeclarations

/-! ### Refusals -/

/-- A modifier is not refused for the end of the text. -/
theorem Modifier.judge_ne_end {m : Modifier} {flags : Flags} {error : GrammarError}
    (h : m.judge flags = .error error) : error ≠ .unexpectedEndOfInput := by
  rintro rfl
  rw [Modifier.judge] at h
  split at h
  · split at h <;> cases h
  repeat (split at h; · cases h)
  cases h

/-- No base type is refused for the end of the input. -/
theorem Primitive.judge_ne_end {p : Primitive} {flags : Flags} {error : GrammarError}
    (h : p.judge flags = .error error) : error ≠ .unexpectedEndOfInput := by
  rintro rfl
  rw [Primitive.judge] at h
  repeat (split at h; · cases h)
  cases h

namespace Flags

/-- No keyword is refused for the end of the input. -/
theorem judgeKeyword_ne_end {flags : Flags} {keyword : Keyword} {failure : Failure}
    (h : flags.judgeKeyword keyword = .refused failure) :
    failure ≠ .rejected .unexpectedEndOfInput := by
  rintro rfl
  cases keyword with
  | modifier m =>
      simp only [judgeKeyword] at h
      split at h
      · cases h
      · next error herror =>
        cases h
        exact Modifier.judge_ne_end herror rfl
  | primitive p =>
      simp only [judgeKeyword] at h
      split at h
      · cases h
      · next error herror =>
        cases h
        exact Primitive.judge_ne_end herror rfl
  | storage | qualifier | composed _ => simp only [judgeKeyword] at h; split at h <;> cases h

/-- A token of a sequence is not refused for the end of the text. -/
theorem judge_ne_end {flags : Flags} {token : Token} {failure : Failure}
    (h : flags.judge token = .refused failure) : failure ≠ .rejected .unexpectedEndOfInput := by
  -- Branch by branch of the judgement; no reason it gives is the end of the input.
  simp only [judge] at h
  split at h
  · cases h
    decide
  split at h
  · split at h <;> cases h
    decide
  split at h
  · exact judgeKeyword_ne_end h
  simp only [judgeOther] at h
  split at h
  · cases h
  split at h
  · split at h <;> cases h
  · cases h
    decide

/-- A part of a sequence is no error. -/
theorem isDiagnostic_of_judge {flags after : Flags} {token : Token} {kind : NodeKind}
    (h : flags.judge token = .part kind after) : kind.isDiagnostic = false := by
  have hkinds : ∀ kind ∈ partKinds, kind.isDiagnostic = false := by decide
  exact hkinds kind (Flags.mem_partKinds_of_judge h)

end Flags

namespace Parser

variable {p q : Parser} {token : Token}

/-- The parse goes on in a tidy tree, with its place on the spine. -/
structure Growing (p : Parser) : Prop where
  tidy : p.tree.Tidy
  spine : p.tree.Spine p.place

/-- The token stopped the parse and left its error node on the spine of
a tidy tree. -/
structure StoppedBy (token : Token) (failure : Failure) (p : Parser) : Prop where
  state : p.state = .stopped failure
  ne_end : failure ≠ .rejected .unexpectedEndOfInput
  tree : ∃ u : Tree, u.Tidy ∧ u.Spine p.place ∧ p.tree = u.addFailure p.place token failure

/-- What is left behind a token: a growing parse, or one that the token
stopped. -/
def Settled (token : Token) (p : Parser) : Prop :=
  (p.isStopped = false ∧ p.Growing) ∨ ∃ failure, p.StoppedBy token failure

/-- A new parser stands at the root of a tree with no diagnostic. -/
theorem growing_ofUnit (kind : UnitKind) (filename : String) : (ofUnit kind filename).Growing :=
  ⟨Tree.tidy_ofUnit kind filename, .root⟩

/-- The place is a node of the tree. -/
theorem Growing.lt_size (hp : p.Growing) : p.place < p.tree.size :=
  hp.spine.lt_size hp.tidy.toLinked

/-- A refusal stops the parse. -/
theorem settled_refuse (ht : p.tree.Tidy) (h : p.tree.Spine p.place) {failure : Failure}
    (hfailure : failure ≠ .rejected .unexpectedEndOfInput) :
    (p.refuse token failure).Settled token :=
  Or.inr ⟨failure, rfl, hfailure, p.tree, ht, h, rfl⟩

/-- The node that a tag goes under is the datatype or lies below it. -/
theorem le_tagParent {t : Tree} (ht : t.Linked) (datatype : NodeId) (h : datatype < t.size) :
    datatype ≤ t.tagParent datatype ∧ t.tagParent datatype < t.size := by
  rw [Tree.tagParent]
  cases hc : (t.childrenOfKind datatype .userType).back? with
  | none => exact ⟨Nat.le_refl _, h⟩
  | some c =>
      have hmem := (Array.mem_filter.1 (Array.mem_of_back? hc)).1
      exact ⟨Nat.le_of_lt (ht.lt_of_mem_children hmem), ht.lt_size_of_mem_children hmem⟩

/-- Another node in the tree: the parse goes on at a place that is on
its spine. -/
theorem settled_of_tidy {state : State} {place : NodeId} (hstate : state.failure? = none)
    (ht : p.tree.Tidy) (h : p.tree.Spine place) : (p.enter state place).Settled token := by
  refine Or.inl ⟨?_, ht, h⟩
  rw [isStopped, enter, hstate]
  rfl

/-- A digested token is settled as it is judged. -/
theorem settled_digestAt (ht : p.tree.Tidy) {datatype : NodeId} (hd : p.tree.Spine datatype)
    {within behind : State} (hwithin : within.failure? = none) (hbehind : behind.failure? = none) :
    (p.digestAt datatype token within behind).Settled token := by
  have hlinked := ht.toLinked
  have hlt := hd.lt_size hlinked
  unfold digestAt digest
  dsimp only
  cases hj : (p.flags.forSequence p.tree datatype).judge token with
  | part kind after =>
      refine settled_of_tidy hwithin (ht.add hlt (Flags.isDiagnostic_of_judge hj)) ?_
      exact hd.add_self hlinked _ _ _ _
  | composed word after =>
      have hnew : p.tree.size < (p.tree.addContainer datatype .userType token).size := by
        rw [Tree.size_addContainer]
        exact Nat.lt_succ_self _
      have hu : (p.tree.addContainer datatype .userType token).Tidy := ht.add hlt rfl
      have hspine : (p.tree.addContainer datatype .userType token).Spine datatype :=
        hd.add_self hlinked _ _ _ _
      refine settled_of_tidy hwithin (hu.add hnew (by cases word <;> rfl)) ?_
      exact hspine.add hu.toLinked (Nat.le_of_lt hlt) hnew _ _ _ _
  | tag after =>
      -- The tag may go below an older child, yet not above the datatype.
      obtain ⟨hle, htag⟩ := le_tagParent hlinked datatype hlt
      refine settled_of_tidy hwithin (ht.add htag rfl) ?_
      exact hd.add hlinked hle htag _ _ _ _
  | name =>
      have hup := hd.parentOrSelf hlinked
      have hupt := hup.lt_size hlinked
      have hu : (p.tree.addLeaf (p.tree.parentOrSelf datatype) .identifier token).Tidy :=
        ht.add hupt rfl
      have hstays : (p.tree.addLeaf (p.tree.parentOrSelf datatype) .identifier
          token).parentOrSelf datatype = p.tree.parentOrSelf datatype := by
        rw [Tree.addLeaf, Tree.parentOrSelf_add _ _ _ _ hupt, if_neg (Nat.ne_of_lt hlt)]
      refine settled_of_tidy hbehind hu ?_
      show Tree.Spine _ (Tree.parentOrSelf _ datatype)
      rw [hstays]
      exact hup.add_self hlinked _ _ _ _
  | refused failure => exact Or.inr ⟨failure, rfl, Flags.judge_ne_end hj, p.tree, ht, hd, rfl⟩

/-! ### The handlers -/

/-- A leaf at a place of the spine is settled where that place stays. -/
theorem settled_leaf {state : State} {parent : NodeId} (hstate : state.failure? = none)
    (ht : p.tree.Tidy) (h : p.tree.Spine parent) {kind : NodeKind}
    (hk : kind.isDiagnostic = false) :
    ((p.leaf parent kind token).enter state parent).Settled token := by
  have hlt := h.lt_size ht.toLinked
  exact settled_of_tidy hstate (ht.add hlt hk) (h.add_self ht.toLinked _ _ _ _)

/-- A leaf that closes its parent is settled above it. -/
theorem settled_closing {state : State} {parent : NodeId} (hstate : state.failure? = none)
    (ht : p.tree.Tidy) (h : p.tree.Spine parent) {kind : NodeKind}
    (hk : kind.isDiagnostic = false) :
    ((p.leaf parent kind token).enter state ((p.leaf parent kind token).up parent)).Settled
      token := by
  have hlt := h.lt_size ht.toLinked
  have hu : (p.leaf parent kind token).tree.Tidy := ht.add hlt hk
  have hspine : (p.leaf parent kind token).tree.Spine parent :=
    h.add_self ht.toLinked _ _ _ _
  exact settled_of_tidy hstate hu (hspine.parentOrSelf hu.toLinked)

/-- A container at a place of the spine is settled where the parse goes
into it. -/
theorem settled_container {state : State} {parent : NodeId} (hstate : state.failure? = none)
    (ht : p.tree.Tidy) (h : p.tree.Spine parent) {kind : NodeKind}
    (hk : kind.isDiagnostic = false) :
    ((p.container parent kind token).enter state p.tree.size).Settled token :=
  settled_of_tidy hstate (ht.add (h.lt_size ht.toLinked) hk) (h.add_size ht.toLinked _ _ _ _)

/-- An idle parser accepts the token, or appends one error and stops. -/
theorem Growing.settled_onIdle (hp : p.Growing) : (p.onIdle token).Settled token := by
  rw [onIdle]
  split
  · exact settled_container rfl hp.tidy hp.spine rfl
  split
  · have hu : (p.container p.place .datatype token).tree.Tidy := hp.tidy.add hp.lt_size rfl
    exact settled_digestAt hu (hp.spine.add_size hp.tidy.toLinked _ _ _ _) rfl rfl
  · exact settled_refuse hp.tidy hp.spine (by decide)

/-- The word of a directive is accepted, or leaves one error. -/
theorem Growing.settled_onPreprocessor (hp : p.Growing) :
    (p.onPreprocessor token).Settled token := by
  rw [onPreprocessor]
  split
  · exact settled_container rfl hp.tidy hp.spine rfl
  split
  · exact settled_container rfl hp.tidy hp.spine rfl
  split
  · exact settled_container rfl hp.tidy hp.spine rfl
  · exact settled_refuse hp.tidy hp.spine (by decide)

/-- The last token of a directive is accepted. -/
theorem Growing.settled_endDirective (hp : p.Growing) {kind : NodeKind}
    (hk : kind.isDiagnostic = false) : (p.endDirective kind token).Settled token := by
  have hu : (p.leaf p.place kind token).tree.Tidy := hp.tidy.add hp.lt_size hk
  have hspine : (p.leaf p.place kind token).tree.Spine p.place :=
    hp.spine.add_self hp.tidy.toLinked _ _ _ _
  rw [endDirective]
  exact settled_of_tidy rfl hu
    ((hspine.parentOrSelf hu.toLinked).parentOrSelf hu.toLinked)

/-- A container with two nodes in it: the bracket, and the container of
what the bracket opens, which the parse goes into. -/
theorem settled_bracket {state : State} (hstate : state.failure? = none) (ht : p.tree.Tidy)
    (h : p.tree.Spine p.place) {outer bracket inner : NodeKind}
    (houter : outer.isDiagnostic = false) (hbracket : bracket.isDiagnostic = false)
    (hinner : inner.isDiagnostic = false) :
    ((((p.container p.place outer token).leaf p.tree.size bracket token).container p.tree.size
      inner token).enter state (p.tree.size + 2)).Settled token := by
  -- The inner container is the third new node.
  have hsize : ((p.container p.place outer token).leaf p.tree.size bracket token).tree.size =
      p.tree.size + 2 := by
    rw [leaf, Tree.size_addLeaf, container, Tree.size_addContainer]
  have hu : (p.container p.place outer token).tree.Tidy := ht.add (h.lt_size ht.toLinked) houter
  have hspine : (p.container p.place outer token).tree.Spine p.tree.size :=
    h.add_size ht.toLinked _ _ _ _
  have hlt := hspine.lt_size hu.toLinked
  rw [← hsize]
  exact settled_container hstate (hu.add hlt hbracket)
    (hspine.add_self hu.toLinked _ _ _ _) hinner

/-- What follows a declared name is accepted, or leaves one error. -/
theorem Growing.settled_onIdentifier (hp : p.Growing) : (p.onIdentifier token).Settled token := by
  rw [onIdentifier]
  split
  · exact settled_leaf rfl hp.tidy hp.spine rfl
  split
  · have hu : (p.container p.place .arrayDefinition token).tree.Tidy :=
      hp.tidy.add hp.lt_size rfl
    exact settled_leaf rfl hu (hp.spine.add_size hp.tidy.toLinked _ _ _ _) rfl
  split
  · exact settled_bracket rfl hp.tidy hp.spine rfl rfl rfl
  split
  · exact settled_container (p := { p with nesting := 0 }) rfl hp.tidy hp.spine rfl
  split
  · exact settled_refuse hp.tidy hp.spine (by decide)
  · exact settled_refuse hp.tidy hp.spine (by decide)

/-- The content of a length is accepted, or leaves one error. -/
theorem Growing.settled_onArrayDefinition (hp : p.Growing) :
    (p.onArrayDefinition token).Settled token := by
  rw [onArrayDefinition]
  split
  · exact settled_closing rfl hp.tidy hp.spine rfl
  split
  · exact settled_refuse hp.tidy hp.spine (by decide)
  · exact settled_leaf rfl hp.tidy hp.spine rfl

/-- The content of an initializer is accepted, or leaves one error. -/
theorem Growing.settled_onInitialization (hp : p.Growing) :
    (p.onInitialization token).Settled token := by
  have hup := hp.spine.parentOrSelf hp.tidy.toLinked
  unfold onInitialization
  dsimp only
  generalize (if p.tree.kind? p.place = some .arrayItem then p.nesting else 0) = count
  -- A mark that looks at the count is accepted on one side of zero and refused on the
  -- other.
  split
  · exact settled_bracket (p := { p with nesting := count + 1 }) rfl hp.tidy hp.spine rfl rfl rfl
  split
  · split
    · exact settled_closing (p := { p with nesting := count - 1 }) rfl hp.tidy hup rfl
    · exact settled_refuse (p := { p with nesting := count - 1 }) hp.tidy hp.spine (by decide)
  split
  · split
    · exact settled_container (p := { p with nesting := count }) rfl hp.tidy hup rfl
    · exact settled_refuse (p := { p with nesting := count }) hp.tidy hp.spine (by decide)
  split
  · split
    · exact settled_leaf (p := { p with nesting := count }) rfl hp.tidy hup rfl
    · exact settled_refuse (p := { p with nesting := count }) hp.tidy hp.spine (by decide)
  · exact settled_leaf (p := { p with nesting := count }) rfl hp.tidy hp.spine rfl

/-- The content of parameters is accepted, or leaves one error. -/
theorem Growing.settled_onParameters (hp : p.Growing) : (p.onParameters token).Settled token := by
  have hparams : p.tree.Spine
      (if p.tree.kind? p.place = some .datatype then p.up p.place else p.place) := by
    split
    · exact hp.spine.parentOrSelf hp.tidy.toLinked
    · exact hp.spine
  rw [onParameters]
  split
  · exact settled_closing rfl hp.tidy hparams rfl
  split
  · -- The separator stands before the datatype that the parse goes into.
    have hlt := hparams.lt_size hp.tidy.toLinked
    have hu : (p.leaf _ .parameterSeparator token).tree.Tidy := hp.tidy.add hlt rfl
    dsimp only
    rw [← p.tree.size_addLeaf _ .parameterSeparator token]
    exact settled_container rfl hu
      (hparams.add_self hp.tidy.toLinked _ _ _ _) rfl
  split
  · exact settled_digestAt hp.tidy hp.spine rfl rfl
  · exact settled_refuse hp.tidy hp.spine (by decide)

/-- A token that the state gives a meaning is settled. -/
theorem Growing.settled_handle (hp : p.Growing) (hrun : p.isStopped = false) :
    (p.handle token).Settled token := by
  -- State by state. A parser that has stopped is excluded by `hrun`.
  rw [handle]
  split
  · exact hp.settled_onIdle
  · exact hp.settled_onPreprocessor
  · exact hp.settled_endDirective rfl
  · exact settled_leaf rfl hp.tidy hp.spine rfl
  · exact hp.settled_endDirective rfl
  · exact hp.settled_endDirective rfl
  · exact settled_digestAt hp.tidy hp.spine rfl rfl
  · exact hp.settled_onIdentifier
  · exact hp.settled_onArrayDefinition
  · exact hp.settled_onInitialization
  · exact hp.settled_onParameters
  -- A declared function is refused for one of three reasons, none of them the end of
  -- the input.
  · refine settled_refuse hp.tidy hp.spine ?_
    split
    · decide
    split <;> decide
  · next failure hs => simp [isStopped, hs, State.failure?] at hrun

/-- A comment is kept at the place. -/
theorem Growing.settled_comment (hp : p.Growing) (hrun : p.isStopped = false) {kind : NodeKind}
    (hk : kind.isDiagnostic = false) : (p.leaf p.place kind token).Settled token :=
  Or.inl ⟨hrun, hp.tidy.add hp.lt_size hk,
    hp.spine.add_self hp.tidy.toLinked _ _ _ _⟩

/-- One token leaves a parse growing, or it stops the parse with its
error node. -/
theorem Growing.settled_feed (hp : p.Growing) (hrun : p.isStopped = false) (token : Token) :
    (p.feed token).Settled token := by
  rw [feed, if_neg (not_isSome_of_isStopped_eq_false hrun)]
  split
  · exact hp.settled_comment hrun rfl
  · exact hp.settled_comment hrun rfl
  · exact settled_refuse hp.tidy hp.spine (by decide)
  · exact hp.settled_handle hrun

/-! ### Runs -/

/-- The first of the tokens that stops the parse. -/
def refused? (p : Parser) : List Token → Option Token
  | [] => none
  | token :: tokens =>
      if (p.feed token).isStopped then some token else (p.feed token).refused? tokens

/-- What is left behind many tokens, one of which may be refused. -/
def SettledBy (refused : Option Token) (p : Parser) : Prop :=
  match refused with
  | none => p.isStopped = false ∧ p.Growing
  | some token => ∃ failure, p.StoppedBy token failure

/-- A parser that was stopped by a token is stopped. -/
theorem StoppedBy.isStopped {failure : Failure} (h : p.StoppedBy token failure) :
    p.isStopped = true := by
  rw [Parser.isStopped, h.state]
  rfl

/-- Tokens leave a parse growing, or one of them stops it. -/
theorem Growing.settledBy_feedAll (hp : p.Growing) (hrun : p.isStopped = false)
    (tokens : List Token) : (p.feedAll tokens).SettledBy (p.refused? tokens) := by
  induction tokens generalizing p with
  | nil => exact ⟨hrun, hp⟩
  | cons token tokens ih =>
      rw [refused?]
      show ((p.feed token).feedAll tokens).SettledBy _
      rcases hp.settled_feed hrun token with ⟨hgoes, hgrowing⟩ | ⟨failure, hstopped⟩
      · rw [hgoes, if_neg Bool.false_ne_true]
        exact ih hgrowing hgoes
      · -- The tokens behind the refused one are ignored.
        rw [if_pos hstopped.isStopped, feedAll_of_isStopped hstopped.isStopped]
        exact ⟨failure, hstopped⟩

/-- The pending mode does not matter to what is left. -/
theorem SettledBy.of_sameButMode {refused : Option Token} (h : p.SettledBy refused)
    (hsame : p.SameButMode q) : q.SettledBy refused := by
  obtain ⟨mode, rfl⟩ := hsame
  cases refused with
  | none => exact ⟨h.1, h.2.tidy, h.2.spine⟩
  | some token =>
      obtain ⟨failure, hstopped⟩ := h
      exact ⟨failure, hstopped.state, hstopped.ne_end, hstopped.tree⟩

/-- The parse failed and left `error`, the one error of its tree, with the
message of the failure. -/
structure FailsWith (o : Outcome) (failure : Failure) (error : Node) : Prop where
  status : o.status = .failed failure
  endsWith : o.tree.EndsWith error
  onlyErrors : o.tree.OnlyErrors
  diagnostic : error.diagnostic = some failure.message

/-- A refused token leaves its error where it stands. -/
theorem StoppedBy.close {failure : Failure} (h : p.StoppedBy token failure) (c : Cursor) :
    ∃ error, FailsWith (p.close c) failure error ∧ error.payload = some token.text ∧
      error.position = token.position := by
  obtain ⟨hstate, -, u, hu, hspine, htree⟩ := h
  unfold Parser.close
  rw [hstate]
  dsimp only
  rw [htree]
  have hlt := hspine.lt_size hu.toLinked
  exact ⟨_, ⟨rfl, hu.endsWith_add hspine _ _ _, hu.onlyErrors_add hlt _ _ _, rfl⟩, rfl, rfl⟩

/-- A parse that goes on at the end of its text is complete there, or the
error stands there. -/
theorem Growing.close (hp : p.Growing) (hrun : p.isStopped = false) (c : Cursor) :
    ((p.close c).status = .completed ∧ (p.close c).tree.Tidy) ∨
      ∃ error, FailsWith (p.close c) (.rejected .unexpectedEndOfInput) error ∧
        error.payload = none ∧ error.position = c.position := by
  unfold Parser.close
  split
  · exact Or.inl ⟨rfl, hp.tidy⟩
  · next failure hs => simp [isStopped, hs, State.failure?] at hrun
  · exact Or.inr ⟨_, ⟨rfl, hp.tidy.endsWith_add hp.spine _ _ _,
      hp.tidy.onlyErrors_add hp.lt_size _ _ _, rfl⟩, rfl, rfl⟩

/-- A parse that is closed holds no error when it is complete. When it is
not, its one error tells of the refused token, or of the end of the
text. -/
theorem SettledBy.close {refused : Option Token} (h : p.SettledBy refused) (c : Cursor) :
    ((p.close c).status = .completed ∧ (p.close c).tree.Tidy ∧ refused = none) ∨
      ∃ failure error, (p.close c).status = .failed failure ∧ (p.close c).tree.EndsWith error ∧
        (p.close c).tree.OnlyErrors ∧ error.diagnostic = some failure.message ∧
        error.payload = refused.map Token.text ∧
        (refused = none ↔ failure = .rejected .unexpectedEndOfInput) ∧
        (refused = none → error.position = c.position) := by
  -- With no token refused the end of the text decides; with one the failure stands
  -- already.
  cases refused with
  | none =>
      obtain ⟨hrun, hp⟩ := h
      rcases hp.close hrun c with ⟨hstatus, htidy⟩ | ⟨error, hfails, hpayload, hposition⟩
      · exact Or.inl ⟨hstatus, htidy, rfl⟩
      · exact Or.inr ⟨_, error, hfails.status, hfails.endsWith, hfails.onlyErrors,
          hfails.diagnostic, hpayload, iff_of_true rfl rfl, fun _ => hposition⟩
  | some token =>
      obtain ⟨failure, hstopped⟩ := h
      obtain ⟨error, hfails, hpayload, -⟩ := hstopped.close c
      exact Or.inr ⟨failure, error, hfails.status, hfails.endsWith, hfails.onlyErrors,
        hfails.diagnostic, hpayload, iff_of_false (Option.some_ne_none token) hstopped.ne_end,
        fun hnone => absurd hnone (Option.some_ne_none token)⟩

/-- A run that no token stops ends where its text does. -/
theorem position_deliver {c : Cursor} (hrun : (p.deliver c).parser.isStopped = false) :
    (p.deliver c).cursor.position = c.position.past c.unread := by
  obtain ⟨read, hread, hposition⟩ := extends_deliver p c
  rw [unread_deliver p c hrun, List.append_nil] at hread
  rw [hposition, hread]

/-- The status of a run and its tree agree, whichever tokens were handed
to the parse before. The unit is complete exactly when the tree holds no
error. When it is not, the tree has one error, which stands last, with
the message of the failure and the text of the refused token. It has no
text exactly where the text ended too soon, and stands there. -/
theorem status_run_agrees_tree (kind : UnitKind) (filename : String) (tokens : List Token)
    (text : String) :
    let p := (ofUnit kind filename).feedAll tokens
    let o := p.run (.ofString text)
    let refused := (ofUnit kind filename).refused?
      (tokens ++ (p.deliver (.ofString text)).tokens.toList)
    (o.status = .completed ↔ o.tree.hasErrors = false) ∧ o.tree.OnlyErrors ∧
      ∀ failure, o.status = .failed failure →
        ∃ error, o.tree.EndsWith error ∧ error.diagnostic = some failure.message ∧
          error.payload = refused.map Token.text ∧
          (error.payload = none ↔ failure = .rejected .unexpectedEndOfInput) ∧
          (error.payload = none → error.position = Position.start.past text.toList) := by
  intro p o refused
  let d := p.deliver (.ofString text)
  -- What was fed and what was delivered are one list of tokens.
  have hsettled : d.parser.SettledBy refused := by
    have hall := (growing_ofUnit kind filename).settledBy_feedAll rfl (tokens ++ d.tokens.toList)
    have happend : (ofUnit kind filename).feedAll (tokens ++ d.tokens.toList) =
        p.feedAll d.tokens.toList := List.foldl_append
    rw [happend] at hall
    exact hall.of_sameButMode (feedAll_deliver p (.ofString text))
  have hended : refused = none → d.cursor.position = Position.start.past text.toList := by
    intro hnone
    rw [hnone] at hsettled
    exact position_deliver hsettled.1
  rcases hsettled.close d.cursor with ⟨hstatus, htidy, -⟩ |
    ⟨failure, error, hstatus, hends, honly, hdiagnostic, hpayload, hfailure, hposition⟩
  · refine ⟨iff_of_true hstatus ?_, htidy.onlyErrors, ?_⟩
    · rw [Tree.hasErrors_eq_false_iff]
      exact htidy.count_eq_zero rfl
    · intro failure hfailed
      cases hstatus.symm.trans hfailed
  · have hnone : error.payload = none ↔ refused = none := by
      rw [hpayload, Option.map_eq_none_iff]
    refine ⟨iff_of_false ?_ ?_, honly, ?_⟩
    · intro hcompleted
      cases hstatus.symm.trans hcompleted
    · rw [Tree.hasErrors_eq_false_iff]
      intro hzero
      cases hends.count.symm.trans hzero
    · intro failure' hfailed
      obtain rfl : failure' = failure := by
        cases hfailed.symm.trans hstatus
        rfl
      refine ⟨error, hends, hdiagnostic, hpayload, hnone.trans hfailure, ?_⟩
      intro hp
      have hrefused := hnone.1 hp
      exact (hposition hrefused).trans (hended hrefused)

end Parser

end CDeclarations
