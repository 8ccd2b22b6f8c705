import CDeclarations.Parser.Feed
import CDeclarations.Token.Cursor

/-!
# `CDeclarations.Parser.Run`: parsing a text to its end

A parse reads tokens from a cursor, each in the mode that is pending
for it, until the text ends or a token is refused. A mode is pending
for one token only: it is spent when that token is delivered. Where
the text ends inside a declaration, an error node marks the end.

The run comes to an end although the body of a definition may be empty
and take no character: such a token either stops the parse, or leaves
normal mode pending, or is the name of a definition, behind which only
one more token can be empty.

* `Parser.deliver_eq`: one step of a run, which the accumulator of the
  tail-recursive loop hides.
* `Parser.deliver_induction`: what holds at the end of a run and is
  kept by each step of it holds of the run.
-/

set_option autoImplicit false

namespace CDeclarations

/-- The tree of a unit and how its parse ended. -/
structure Outcome where
  tree : Tree
  status : Status

namespace Parser

/-- The parse is stopped. -/
def isStopped (p : Parser) : Bool :=
  p.state.failure?.isSome

/-- Hands a token to the parse that is read in the pending mode, which
is spent with it. -/
def receive (p : Parser) (token : Token) : Parser :=
  { p with pending := .normal }.feed token

/-! ### Why a run ends -/

/-- How many more tokens may be empty: none when the parse is stopped
or the next token is read in normal mode. -/
private def emptyRank (p : Parser) : Nat :=
  if p.isStopped then 0
  else if p.pending = .normal then 1
  else if p.state = .defineName then 3
  else 2

/-- No more than three tokens in a row are empty. -/
private theorem emptyRank_le (p : Parser) : p.emptyRank ≤ 3 := by
  unfold emptyRank
  repeat' split
  all_goals omega

/-- A refusal stops the parser, and no further token is asked for. -/
private theorem emptyRank_refuse (p : Parser) (token : Token) (failure : Failure) :
    (p.refuse token failure).emptyRank = 0 := by
  simp [emptyRank, isStopped, refuse, enter, State.failure?]

/-- In normal mode the next token has characters, and only the one behind it
may be empty. -/
private theorem emptyRank_le_one {p : Parser} (h : p.pending = .normal) : p.emptyRank ≤ 1 := by
  unfold emptyRank
  split
  · omega
  · simp

/-- A parser that is not stopped rejects an invalid token in every state. -/
private theorem feed_invalid {p : Parser} {token : Token} (hp : p.isStopped = false)
    (ht : token.kind = .invalid) : p.feed token = p.reject token .invalidToken := by
  have hp' : ¬(p.state.failure?.isSome = true) := by
    simpa [isStopped] using hp
  rw [feed, if_neg hp', ht]

/-- An invalid token stops the parse. -/
private theorem emptyRank_receive_invalid {p : Parser} {token : Token}
    (hp : p.isStopped = false) (ht : token.kind = .invalid) : (p.receive token).emptyRank = 0 := by
  rw [receive, feed_invalid (p := { p with pending := .normal }) hp ht, reject, emptyRank_refuse]

/-- A state that asks for no mode leaves the mode as it was. -/
private theorem pending_enter (p : Parser) (state : State) (place : NodeId)
    (h : state.mode? = none) : (p.enter state place).pending = p.pending := by
  simp [enter, h]

/-- A specifier read between two states that ask for no mode leaves the mode
as it was. -/
private theorem pending_digestAt (p : Parser) (datatype : NodeId) (token : Token)
    {within behind : State} (h : within.mode? = none) (h' : behind.mode? = none) :
    (p.digestAt datatype token within behind).pending = p.pending := by
  unfold digestAt
  dsimp only
  split
  · exact pending_enter _ _ _ h
  · exact pending_enter _ _ _ h'
  · exact pending_enter _ _ _ rfl

/-- The text of a definition is not a word of a directive, even where it is
spelled like one. -/
private theorem not_isWord {token : Token} (h : token.kind = .defineLiteral) (word : String) :
    token.isWord word = false := by
  simp [Token.isWord, h]

/-- The body of a definition leaves normal mode pending, but behind the
name of a definition. -/
private theorem pending_handle {p : Parser} {token : Token} (hp : p.pending = .normal)
    (hs : p.state ≠ .defineName) (ht : token.kind = .defineLiteral) :
    (p.handle token).pending = .normal := by
  have hm : ∀ c, token.isMark c = false := fun c => by simp [Token.isMark, ht]
  -- Of all states only the name of a definition asks for a mode behind such a token,
  -- and a body is neither a mark nor a word of a directive.
  unfold handle
  split
  · simp [onIdle, hm, ht, reject, refuse, enter, State.mode?, hp]
  · simp [onPreprocessor, not_isWord ht, reject, refuse, enter, State.mode?, hp]
  · simp [endDirective, leaf, enter, State.mode?, hp]
  · next h => exact absurd h hs
  · simp [endDirective, leaf, enter, State.mode?, hp]
  · simp [endDirective, leaf, enter, State.mode?, hp]
  · rw [pending_digestAt _ _ _ rfl rfl, hp]
  · simp [onIdentifier, hm, reject, refuse, enter, State.mode?, hp]
  · simp [onArrayDefinition, hm, leaf, enter, State.mode?, hp]
  · simp [onInitialization, hm, leaf, enter, State.mode?, hp]
  · simp only [onParameters, hm, Bool.false_eq_true, if_false]
    split
    · rw [pending_digestAt _ _ _ rfl rfl, hp]
    · simp [reject, refuse, enter, State.mode?, hp]
  · simp [onFunctionDeclared, refuse, enter, State.mode?, hp]
  · exact hp

/-- An empty definition body is spent: fewer tokens behind it may be empty. -/
private theorem emptyRank_receive_body {p : Parser} {token : Token} (hp : p.isStopped = false)
    (hm : p.pending ≠ .normal) (ht : token.kind = .defineLiteral) :
    (p.receive token).emptyRank < p.emptyRank := by
  have hp' : ¬(p.state.failure?.isSome = true) := by
    simpa [isStopped] using hp
  have hfeed : p.receive token = handle { p with pending := .normal } token := by
    rw [receive, feed, if_neg hp', ht]
  rw [hfeed]
  -- In front of the name the body is asked for once more; everywhere else it was the
  -- last.
  by_cases hs : p.state = .defineName
  · have h : p.emptyRank = 3 := by simp [emptyRank, hp, hm, hs]
    have h' : (handle { p with pending := .normal } token).state = .defineBody := by
      simp [handle, hs, onDefineName, enter]
    rw [h]
    simp [emptyRank, h']
    repeat' split
    all_goals omega
  · have h : p.emptyRank = 2 := by simp [emptyRank, hp, hm, hs]
    have h' := emptyRank_le_one
      (pending_handle (p := { p with pending := .normal }) rfl hs ht)
    omega

/-- What is left to be done shrinks with each delivered token. -/
private theorem receive_decreases {p : Parser} {c d : Cursor} {token : Token}
    (hp : p.isStopped = false) (h : c.next p.pending = (some token, d)) :
    4 * d.unread.length + (p.receive token).emptyRank < 4 * c.unread.length + p.emptyRank := by
  have hle : d.unread.length ≤ c.unread.length := by
    have := c.length_next_le p.pending
    rwa [h] at this
  have hrank := emptyRank_le (p.receive token)
  have hpos : 0 < p.emptyRank := by
    unfold emptyRank
    simp only [hp, Bool.false_eq_true, if_false]
    repeat' split
    all_goals omega
  -- Only a token that may be empty leaves the text as long as it was, and then the rank
  -- goes down.
  by_cases hinvalid : token.kind = .invalid
  · have := emptyRank_receive_invalid hp hinvalid
    omega
  · cases hmode : p.pending with
    | normal =>
        rw [hmode] at h
        have := Cursor.length_next_normal h
        omega
    | includeName =>
        rw [hmode] at h
        have := Cursor.length_next_includeName h hinvalid
        omega
    | defineBody =>
        rw [hmode] at h
        have hkind := (Cursor.kind_next_defineBody h).resolve_right hinvalid
        have := emptyRank_receive_body hp (by rw [hmode]; decide) hkind
        omega

/-! ### The run -/

/-- What a run leaves: the parse, the cursor where it ended, and the
tokens that were delivered. -/
structure Delivery where
  parser : Parser
  cursor : Cursor
  tokens : Array Token

/-- Delivers the tokens left at the cursor behind those in
`delivered`. -/
private def deliverLoop (p : Parser) (c : Cursor) (delivered : Array Token) : Delivery :=
  if _hp : p.isStopped then ⟨p, c, delivered⟩
  else
    match _h : c.next p.pending with
    -- The mode is spent here too, though the text has no token for it.
    | (none, d) => ⟨{ p with pending := .normal }, d, delivered⟩
    | (some token, d) => deliverLoop (p.receive token) d (delivered.push token)
termination_by 4 * c.unread.length + p.emptyRank
decreasing_by exact receive_decreases (Bool.eq_false_iff.2 _hp) _h

/-- Delivers tokens from the cursor to the parse until the text ends
or a token is refused. -/
def deliver (p : Parser) (c : Cursor) : Delivery :=
  p.deliverLoop c #[]

/-- What is delivered before a run changes nothing in it. -/
private theorem deliverLoop_append (p : Parser) (c : Cursor) (before delivered : Array Token) :
    p.deliverLoop c (before ++ delivered) =
      ⟨(p.deliverLoop c delivered).parser, (p.deliverLoop c delivered).cursor,
        before ++ (p.deliverLoop c delivered).tokens⟩ := by
  -- By the recursion of the loop: the tokens delivered so far are only pushed upon.
  fun_induction deliverLoop p c delivered with
  | case1 p c delivered hp => rw [deliverLoop, dif_pos hp]
  | case2 p c delivered hp d h =>
      rw [deliverLoop, dif_neg hp]
      split
      · next d' h' =>
        rw [h] at h'
        cases h'
        rfl
      · next token d' h' =>
        rw [h] at h'
        cases h'
  | case3 p c delivered hp token d h ih =>
      rw [deliverLoop, dif_neg hp]
      split
      · next d' h' =>
        rw [h] at h'
        cases h'
      · next token' d' h' =>
        rw [h] at h'
        cases h'
        rw [Array.push_append, ih]

/-- One step of a run: a stopped parse and a text without a token left
end it, and a token is delivered before the rest of the run. -/
theorem deliver_eq (p : Parser) (c : Cursor) :
    p.deliver c =
      if p.isStopped then ⟨p, c, #[]⟩
      else
        match c.next p.pending with
        | (none, d) => ⟨{ p with pending := .normal }, d, #[]⟩
        | (some token, d) =>
            ⟨((p.receive token).deliver d).parser, ((p.receive token).deliver d).cursor,
              #[token] ++ ((p.receive token).deliver d).tokens⟩ := by
  rw [deliver, deliverLoop]
  split
  · rfl
  · split
    · next d h => simp only [h]
    · next token d h =>
      simp only [h, deliver]
      exact deliverLoop_append (p.receive token) d #[token] #[]

section Step

variable {p : Parser} {c d : Cursor} {token : Token}

/-- A stopped parser takes no token. -/
theorem deliver_of_isStopped (h : p.isStopped = true) : p.deliver c = ⟨p, c, #[]⟩ := by
  rw [deliver_eq, if_pos h]

/-- At the end of the text the mode is taken and nothing is handed over. -/
theorem deliver_of_none (h : p.isStopped = false) (hnext : c.next p.pending = (none, d)) :
    p.deliver c = ⟨{ p with pending := .normal }, d, #[]⟩ := by
  rw [deliver_eq, if_neg (Bool.eq_false_iff.1 h), hnext]

/-- A token that was read is handed over before the rest of the text. -/
theorem deliver_of_some (h : p.isStopped = false)
    (hnext : c.next p.pending = (some token, d)) :
    p.deliver c =
      ⟨((p.receive token).deliver d).parser, ((p.receive token).deliver d).cursor,
        #[token] ++ ((p.receive token).deliver d).tokens⟩ := by
  rw [deliver_eq, if_neg (Bool.eq_false_iff.1 h), hnext]

/-- A run is decided by the first token at its cursor and what is left
behind it. -/
theorem deliver_congr (h : p.isStopped = false) (hnext : c.next p.pending = d.next p.pending) :
    p.deliver c = p.deliver d := by
  rw [deliver_eq, deliver_eq p d, if_neg (Bool.eq_false_iff.1 h), if_neg (Bool.eq_false_iff.1 h),
    hnext]

end Step

/-- A property of runs holds when it holds of a stopped parse, of a text
without a token left, and with the rest of a run of the whole run. -/
theorem deliver_induction {motive : Parser → Cursor → Prop}
    (stopped : ∀ p c, p.isStopped = true → motive p c)
    (ended : ∀ p c d, p.isStopped = false → c.next p.pending = (none, d) → motive p c)
    (delivered : ∀ p c token d, p.isStopped = false → c.next p.pending = (some token, d) →
      motive (p.receive token) d → motive p c)
    (p : Parser) (c : Cursor) : motive p c := by
  refine deliverLoop.induct (fun p c _ => motive p c) ?_ ?_ ?_ p c #[]
  · exact fun p c _ hp => stopped p c hp
  · exact fun p c _ hp d h => ended p c d (Bool.eq_false_iff.2 hp) h
  · exact fun p c _ hp token d h ih => delivered p c token d (Bool.eq_false_iff.2 hp) h ih

/-- Ends a parse at the end of the text, which has to be between
declarations. -/
def close (p : Parser) (c : Cursor) : Outcome :=
  match p.state with
  | .idle => ⟨p.tree, .completed⟩
  | .stopped failure => ⟨p.tree, .failed failure⟩
  | _ =>
      let failure := Failure.rejected .unexpectedEndOfInput
      ⟨p.tree.add p.place .error c.position none (some failure.message), .failed failure⟩

/-- A parse that is closed is complete exactly between declarations. -/
theorem close_status_eq_completed_iff (p : Parser) (c : Cursor) :
    (p.close c).status = .completed ↔ p.state = .idle := by
  unfold close
  cases p.state <;> simp

/-- Runs a parse over the text left at a cursor. -/
def run (p : Parser) (c : Cursor) : Outcome :=
  let d := p.deliver c
  d.parser.close d.cursor

end Parser

/-- Parses a unit. Its name is carried by the root of the tree. -/
def parse (kind : UnitKind) (filename text : String) : Outcome :=
  (Parser.ofUnit kind filename).run (.ofString text)

end CDeclarations
