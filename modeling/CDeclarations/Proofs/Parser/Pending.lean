import CDeclarations.Parser.Run

/-!
# `CDeclarations.Proofs.Parser.Pending`: who reads the pending mode

A state that is entered may ask for the mode of the next token. The
mode is written where a state is entered, and nothing that a token does
reads it: two parses that differ in the pending mode alone are told
apart by the text that is left, not by a token (`feed_awaiting`).

A run therefore hands its tokens to the parse as `feedAll` does, but for
the pending mode (`feedAll_deliver`). It ends where the text does, if no
token stops it (`extends_deliver`, `unread_deliver`).
-/

set_option autoImplicit false

namespace CDeclarations.Parser

/-- The parse with another mode pending. -/
def awaiting (p : Parser) (mode : TokenMode) : Parser :=
  { p with pending := mode }

variable {p q : Parser} {token : Token} {mode : TokenMode}

/-! ### One token -/

/-- In whichever mode is pending, `f` takes the parse to the same state
and leaves the mode that this state asks for, or else the old one. -/
def Enters (f : Parser → Parser) (p : Parser) : Prop :=
  ∀ mode, f (p.awaiting mode) = (f p).awaiting ((f p).state.mode?.getD mode)

/-- A specifier does not look at the mode. -/
theorem enters_digestAt (p : Parser) (datatype : NodeId) (token : Token) (within behind : State) :
    Enters (·.digestAt datatype token within behind) p := by
  intro mode
  unfold digestAt
  dsimp only [awaiting]
  split <;> rfl

/-- An idle parser does not look at the mode. -/
theorem enters_onIdle (p : Parser) (token : Token) : Enters (·.onIdle token) p := by
  intro mode
  unfold onIdle
  dsimp only
  split
  · rfl
  split
  · exact enters_digestAt (p.container p.place .datatype token) _ token _ _ mode
  · rfl

/-- The word of a directive is read whatever the mode was. -/
theorem enters_onPreprocessor (p : Parser) (token : Token) :
    Enters (·.onPreprocessor token) p := by
  intro mode
  unfold onPreprocessor
  dsimp only
  split
  · rfl
  split
  · rfl
  split <;> rfl

/-- What follows a declared name is read whatever the mode was. -/
theorem enters_onIdentifier (p : Parser) (token : Token) : Enters (·.onIdentifier token) p := by
  intro mode
  unfold onIdentifier
  dsimp only
  split
  · rfl
  split
  · rfl
  split
  · rfl
  split
  · rfl
  split <;> rfl

/-- The content of a length is read whatever the mode was. -/
theorem enters_onArrayDefinition (p : Parser) (token : Token) :
    Enters (·.onArrayDefinition token) p := by
  intro mode
  unfold onArrayDefinition
  dsimp only
  split
  · rfl
  split <;> rfl

/-- The content of an initializer is read whatever the mode was. -/
theorem enters_onInitialization (p : Parser) (token : Token) :
    Enters (·.onInitialization token) p := by
  intro mode
  unfold onInitialization
  dsimp only [awaiting]
  generalize (if p.tree.kind? p.place = some .arrayItem then p.nesting else 0) = count
  split
  · rfl
  split
  · split <;> rfl
  split
  · split <;> rfl
  split
  · split <;> rfl
  · rfl

/-- The content of parameters is read whatever the mode was. -/
theorem enters_onParameters (p : Parser) (token : Token) : Enters (·.onParameters token) p := by
  intro mode
  unfold onParameters
  dsimp only [awaiting]
  split
  · rfl
  split
  · rfl
  split
  · exact enters_digestAt p _ token _ _ mode
  · rfl

/-- A token means the same whichever mode is pending. -/
theorem enters_handle (p : Parser) (token : Token) : Enters (·.handle token) p := by
  intro mode
  -- State by state; the mode is handed through, or replaced by the one the new state
  -- asks for.
  unfold handle
  dsimp only [awaiting]
  split
  · exact enters_onIdle p token mode
  · exact enters_onPreprocessor p token mode
  · rfl
  · rfl
  · rfl
  · rfl
  · exact enters_digestAt p _ token _ _ mode
  · exact enters_onIdentifier p token mode
  · exact enters_onArrayDefinition p token mode
  · exact enters_onInitialization p token mode
  · exact enters_onParameters p token mode
  · rfl
  · next failure hs => rw [hs]; rfl

/-- The mode that a token asks for, if it takes the parse to a state
that has a word about the next token. -/
def requested? (p : Parser) (token : Token) : Option TokenMode :=
  if p.isStopped || token.kind.isComment then none else (p.feed token).state.mode?

/-- A parser that is not stopped has no failure. -/
theorem not_isSome_of_isStopped_eq_false (h : p.isStopped = false) :
    ¬(p.state.failure?.isSome = true) := by
  rw [← isStopped, h]
  exact Bool.false_ne_true

/-- A stopped parser is not idle. -/
theorem ne_idle_of_isStopped (h : p.isStopped = true) : p.state ≠ .idle := by
  intro hidle
  rw [isStopped, hidle] at h
  cases h

/-- A token does the same whichever mode is pending. It leaves the mode
that it asks for, or else the old one. -/
theorem feed_awaiting (p : Parser) (token : Token) (mode : TokenMode) :
    (p.awaiting mode).feed token =
      (p.feed token).awaiting ((p.requested? token).getD mode) := by
  cases hs : p.isStopped with
  | true =>
      have hstopped : (p.awaiting mode).isStopped = true := hs
      rw [requested?, hs, feed, ← isStopped, if_pos hstopped, feed, ← isStopped, if_pos hs]
      rfl
  | false =>
      have hstopped : (p.awaiting mode).isStopped = false := hs
      rw [requested?, hs, feed, if_neg (not_isSome_of_isStopped_eq_false hstopped), feed,
        if_neg (not_isSome_of_isStopped_eq_false hs), Bool.false_or]
      -- Comments and invalid tokens are not handed to the state.
      cases token.kind with
      | blockComment => rfl
      | lineComment => rfl
      | invalid => rfl
      | _ => exact enters_handle p token mode

/-- A delivered token does what a handed one does, and spends the mode
that it was read in. -/
theorem receive_eq (p : Parser) (token : Token) :
    p.receive token = (p.feed token).awaiting ((p.requested? token).getD .normal) :=
  feed_awaiting p token .normal

/-- An invalid token stops the run. -/
theorem isStopped_receive_invalid (hk : token.kind = .invalid) :
    (p.receive token).isStopped = true := by
  unfold receive Parser.feed
  split
  · next h => exact h
  · rw [hk]
    rfl

/-! ### Many tokens -/

/-- The parses differ in the pending mode at most. -/
def SameButMode (p q : Parser) : Prop :=
  ∃ mode, q = p.awaiting mode

/-- A token keeps two parsers the same but for the mode. -/
theorem sameButMode_feed (h : p.SameButMode q) (token : Token) :
    (p.feed token).SameButMode (q.feed token) := by
  obtain ⟨mode, rfl⟩ := h
  exact ⟨_, feed_awaiting p token mode⟩

/-- A run of tokens keeps them the same but for the mode. -/
theorem sameButMode_feedAll (h : p.SameButMode q) (tokens : List Token) :
    (p.feedAll tokens).SameButMode (q.feedAll tokens) := by
  induction tokens generalizing p q with
  | nil => exact h
  | cons token tokens ih => exact ih (sameButMode_feed h token)

/-- A run hands its tokens to the parse one after another. -/
theorem feedAll_deliver (p : Parser) (c : Cursor) :
    (p.feedAll (p.deliver c).tokens.toList).SameButMode (p.deliver c).parser := by
  induction p, c using deliver_induction with
  | stopped p c h =>
      rw [deliver_of_isStopped h]
      exact ⟨p.pending, rfl⟩
  | ended p c d h hnext =>
      rw [deliver_of_none h hnext]
      exact ⟨.normal, rfl⟩
  | delivered p c token d h hnext ih =>
      rw [deliver_of_some h hnext, Array.toList_append]
      obtain ⟨mode, hmode⟩ := ih
      have hfeed : (p.feed token).SameButMode (p.receive token) := ⟨_, receive_eq p token⟩
      -- The first token is fed and received alike, and the rest keeps the difference in
      -- the mode.
      obtain ⟨mode', hmode'⟩ :=
        sameButMode_feedAll hfeed ((p.receive token).deliver d).tokens.toList
      rw [hmode'] at hmode
      exact ⟨mode, hmode⟩

/-- A run reads on from where its text begins. -/
theorem extends_deliver (p : Parser) (c : Cursor) : c.Extends (p.deliver c).cursor := by
  induction p, c using deliver_induction with
  | stopped p c h =>
      rw [deliver_of_isStopped h]
      exact ⟨[], rfl, rfl⟩
  | ended p c d h hnext =>
      rw [deliver_of_none h hnext]
      have hext := c.extends_next p.pending
      rwa [hnext] at hext
  -- The cursor goes on with each token, and the first step is followed by the rest.
  | delivered p c token d h hnext ih =>
      rw [deliver_of_some h hnext]
      have hext := c.extends_next p.pending
      rw [hnext] at hext
      exact hext.trans ih

/-- A run that is not stopped reads the text to its end. -/
theorem unread_deliver (p : Parser) (c : Cursor)
    (hrun : (p.deliver c).parser.isStopped = false) : (p.deliver c).cursor.unread = [] := by
  induction p, c using deliver_induction with
  | stopped p c h =>
      rw [deliver_of_isStopped h] at hrun
      exact Bool.noConfusion (h.symm.trans hrun)
  | ended p c d h hnext =>
      rw [deliver_of_none h hnext]
      exact Cursor.unread_of_next_eq_none hnext
  | delivered p c token d h hnext ih =>
      rw [deliver_of_some h hnext] at hrun ⊢
      exact ih hrun

end CDeclarations.Parser
