import CDeclarations.Proofs.Parser.Resumption
import CDeclarations.Proofs.Token.Tiling

/-!
# `CDeclarations.Proofs.Parser.Calls`: how often a run asks for a token

A run calls the lexer until the text ends or a token is refused. In
normal mode a token takes a character, but the body of a definition, a
pragma's text and a refused file name may take none, so that the unread
text alone does not count the calls. The word of a directive has more
than one character, though, and pays for the token behind it.

* `Calls`: the calls of a run, one after another.
* `prepaid_receive`: what a token takes, and what is paid for it, is
  enough for the token and for what it promises.
* `Calls.length_le_size`, `Attuned.size_tokens_le`: there is one call for
  each token and one more, and the tokens of a run are bounded by the
  unread text, by induction on the run.
* `Calls.includeName_last`, `Calls.defineBody_next`: what follows a call
  that takes nothing.
* `parse_frugal`: all of it for a text that is parsed from its beginning.
-/

set_option autoImplicit false

namespace CDeclarations

/-- A call of the lexer: the mode that it is asked for and where it
reads. -/
structure Call where
  mode : TokenMode
  cursor : Cursor

namespace Call

/-- The token that the call returns, if the text has one left. -/
def token? (call : Call) : Option Token :=
  (call.cursor.next call.mode).1

/-- The number of characters that the call takes, blanks included. -/
def taken (call : Call) : Nat :=
  call.cursor.unread.length - (call.cursor.next call.mode).2.unread.length

/-- In normal mode a token takes at least one character. -/
theorem taken_pos_of_normal {call : Call} (hmode : call.mode = .normal)
    (h : call.token? ≠ none) : 0 < call.taken := by
  obtain ⟨token, htoken⟩ := Option.ne_none_iff_exists'.1 h
  have hnext : call.cursor.next .normal = (some token, (call.cursor.next call.mode).2) := by
    rw [← htoken, token?, hmode]
  have hlength := Cursor.length_next_normal hnext
  rw [taken]
  omega

end Call

namespace Parser

variable {p q : Parser} {c d : Cursor} {token : Token} {calls : List Call}

/-- The calls that the run from `p` and `c` makes, one after another. -/
inductive Calls : Parser → Cursor → List Call → Prop
  | stopped {p : Parser} {c : Cursor} (hstop : p.isStopped = true) : Calls p c []
  | ended {p : Parser} {c d : Cursor} (hrun : p.isStopped = false)
      (hnext : c.next p.pending = (none, d)) : Calls p c [⟨p.pending, c⟩]
  | read {p : Parser} {c d : Cursor} {token : Token} {calls : List Call}
      (hrun : p.isStopped = false) (hnext : c.next p.pending = (some token, d))
      (h : Calls (p.receive token) d calls) : Calls p c (⟨p.pending, c⟩ :: calls)

/-- Every delivery is a list of calls. -/
theorem exists_calls (p : Parser) (c : Cursor) : ∃ calls, p.Calls c calls := by
  induction p, c using deliver_induction with
  | stopped p c hstop => exact ⟨_, .stopped hstop⟩
  | ended p c d hrun hnext => exact ⟨_, .ended hrun hnext⟩
  | delivered p c token d hrun hnext ih =>
      obtain ⟨calls, h⟩ := ih
      exact ⟨_, .read hrun hnext h⟩

/-- The tokens that the calls return are those that are delivered. -/
theorem Calls.tokens_eq (h : p.Calls c calls) :
    calls.filterMap Call.token? = (p.deliver c).tokens.toList := by
  induction h with
  | stopped hstop => rw [deliver_of_isStopped hstop]; rfl
  | ended hrun hnext => rw [deliver_of_none hrun hnext]; simp [Call.token?, hnext]
  | read hrun hnext _ ih => rw [deliver_of_some hrun hnext]; simp [Call.token?, hnext, ih]

/-- A run ends with the one call that finds the text at its end, if it
makes such a call at all. -/
theorem Calls.length_le_size (h : p.Calls c calls) :
    calls.length ≤ (p.deliver c).tokens.size + 1 := by
  induction h with
  | stopped _ => exact Nat.zero_le _
  | ended _ _ => exact Nat.le_add_left 1 _
  | read hrun hnext _ ih =>
      rw [deliver_of_some hrun hnext, Array.size_append, List.length_cons]
      simp only [List.size_toArray, List.length_cons, List.length_nil]
      omega

/-! ### The mode of a call -/

/-- The mode that is pending is the one that the state asks for. -/
def Attuned (p : Parser) : Prop :=
  p.pending = p.state.mode?.getD .normal

/-- A token that was handed over leaves the mode the one the state asks for.
-/
theorem Attuned.receive (hp : p.Attuned) (hrun : p.isStopped = false)
    (hnext : c.next p.pending = (some token, d)) : (p.receive token).Attuned :=
  (Delivers.step hrun hnext .refl).pending_eq hp

/-- A mode other than the normal one is asked for by the state. -/
theorem Attuned.mode?_eq (hp : p.Attuned) (hmode : p.pending ≠ .normal) :
    p.state.mode? = some p.pending := by
  rw [Attuned] at hp
  cases h : p.state.mode? with
  | none =>
      rw [h] at hp
      exact absurd hp hmode
  | some mode =>
      rw [h] at hp
      rw [hp, Option.getD_some]

/-- The literal that a state asks for ends its directive. -/
theorem state_receive_literal {mode : TokenMode} (hs : p.state.mode? = some mode)
    (hk : token.kind = .includeLiteral ∨ token.kind = .defineLiteral) :
    (p.receive token).state = .idle := by
  cases hstate : p.state <;> rw [hstate] at hs <;> try cases hs
  all_goals
    rcases hk with hk | hk <;>
      simp [receive, Parser.feed, hstate, hk, State.failure?, Parser.handle, endDirective, enter]

/-- A token that is read in the mode that its state asks for ends the
directive, or it is invalid and stops the parse. -/
theorem Attuned.receive_cases (hp : p.Attuned) (hmode : p.pending ≠ .normal)
    (hnext : c.next p.pending = (some token, d)) :
    (p.receive token).state = .idle ∨ (p.receive token).isStopped = true := by
  have hasked := hp.mode?_eq hmode
  rcases kind_of_pending hnext hmode with hk | hk | hk
  · exact Or.inl (state_receive_literal hasked (Or.inl hk))
  · exact Or.inl (state_receive_literal hasked (Or.inr hk))
  · exact Or.inr (isStopped_receive_invalid hk)

end Parser

/-! ### What a directive's word pays for -/

/-- The tokens that are paid for before they are read: the one that has
to follow the word of a directive. -/
def State.prepaid : State → Nat
  | .includeName | .defineName | .defineBody | .pragma => 1
  | _ => 0

namespace State

/-- A state has one token paid for at most. -/
theorem prepaid_le_one (s : State) : s.prepaid ≤ 1 := by
  unfold prepaid
  split <;> decide

/-- What a state asks for in a mode of its own is paid for. -/
theorem prepaid_of_mode? {s : State} {mode : TokenMode} (h : s.mode? = some mode) :
    s.prepaid = 1 := by
  cases s <;> first | rfl | cases h

/-- Behind a refused token nothing is promised. -/
theorem prepaid_of_failure? {s : State} (h : s.failure?.isSome = true) : s.prepaid = 0 := by
  cases s <;> first | rfl | cases h

end State

namespace Parser

variable {p q : Parser} {c d : Cursor} {token : Token} {calls : List Call}

/-- Specifiers are read between states with nothing paid for. -/
theorem prepaid_digestAt (p : Parser) (datatype : NodeId) (token : Token) {within behind : State}
    (hwithin : within.prepaid = 0) (hbehind : behind.prepaid = 0) :
    (p.digestAt datatype token within behind).state.prepaid = 0 := by
  unfold digestAt
  dsimp only
  split
  · exact hwithin
  · exact hbehind
  · rfl

/-- What an idle parser enters has nothing paid for. -/
theorem prepaid_onIdle (p : Parser) (token : Token) : (p.onIdle token).state.prepaid = 0 := by
  unfold onIdle
  dsimp only
  split
  · rfl
  split
  · exact prepaid_digestAt _ _ _ rfl rfl
  · rfl

/-- A token that is a long word is as long as the word. -/
theorem two_le_length_of_isWord {word : String} (h : token.isWord word = true)
    (hword : 2 ≤ word.length) : 2 ≤ token.text.toList.length := by
  rw [Token.isWord, Bool.and_eq_true, decide_eq_true_eq, decide_eq_true_eq] at h
  rwa [h.2, String.length_toList]

/-- A directive's word has more than one character. -/
theorem prepaid_onPreprocessor (p : Parser) (token : Token) :
    (p.onPreprocessor token).state.prepaid = 0 ∨ 2 ≤ token.text.toList.length := by
  unfold onPreprocessor
  dsimp only
  split
  · next h => exact Or.inr (two_le_length_of_isWord h (by decide))
  split
  · next h => exact Or.inr (two_le_length_of_isWord h (by decide))
  split
  · next h => exact Or.inr (two_le_length_of_isWord h (by decide))
  · exact Or.inl rfl

/-- What follows a declared name has nothing paid for. -/
theorem prepaid_onIdentifier (p : Parser) (token : Token) :
    (p.onIdentifier token).state.prepaid = 0 := by
  unfold onIdentifier
  dsimp only
  repeat' split
  all_goals rfl

/-- The content of a length has nothing paid for. -/
theorem prepaid_onArrayDefinition (p : Parser) (token : Token) :
    (p.onArrayDefinition token).state.prepaid = 0 := by
  unfold onArrayDefinition
  dsimp only
  repeat' split
  all_goals rfl

/-- The content of an initializer has nothing paid for. -/
theorem prepaid_onInitialization (p : Parser) (token : Token) :
    (p.onInitialization token).state.prepaid = 0 := by
  unfold onInitialization
  dsimp only
  generalize (if p.tree.kind? p.place = some .arrayItem then p.nesting else 0) = count
  repeat' split
  all_goals rfl

/-- The content of parameters has nothing paid for. -/
theorem prepaid_onParameters (p : Parser) (token : Token) :
    (p.onParameters token).state.prepaid = 0 := by
  unfold onParameters
  dsimp only
  split
  · rfl
  split
  · rfl
  split
  · exact prepaid_digestAt _ _ _ rfl rfl
  · rfl

/-- Outside directives nothing is promised, but by a directive's word. -/
theorem prepaid_handle (hs : p.state.prepaid = 0) :
    (p.handle token).state.prepaid = 0 ∨ 2 ≤ token.text.toList.length := by
  -- Only the words of directives lead to such a state, and all of them are long.
  unfold Parser.handle
  split
  · exact Or.inl (prepaid_onIdle p token)
  · exact prepaid_onPreprocessor p token
  · exact Or.inl rfl
  -- The name of a definition has itself been paid for.
  · next hstate =>
    rw [hstate] at hs
    cases hs
  · exact Or.inl rfl
  · exact Or.inl rfl
  · exact Or.inl (prepaid_digestAt _ _ _ rfl rfl)
  · exact Or.inl (prepaid_onIdentifier p token)
  · exact Or.inl (prepaid_onArrayDefinition p token)
  · exact Or.inl (prepaid_onInitialization p token)
  · exact Or.inl (prepaid_onParameters p token)
  · exact Or.inl rfl
  · exact Or.inl hs

/-- Only a token of two characters or more leads to a state with a token paid
for. -/
theorem prepaid_feed (hs : p.state.prepaid = 0) (token : Token) :
    (p.feed token).state.prepaid = 0 ∨ 2 ≤ token.text.toList.length := by
  unfold Parser.feed
  split
  · exact Or.inl hs
  split
  · exact Or.inl hs
  · exact Or.inl hs
  · exact Or.inl rfl
  · exact prepaid_handle hs

/-- In normal mode a token takes all of its spelling, which is not
empty. -/
theorem length_le_of_next_normal (hnext : c.next .normal = (some token, d)) :
    d.unread.length + token.text.toList.length ≤ c.unread.length := by
  obtain ⟨gap, returns, -, -, -, hunread, -, -⟩ := Cursor.cut_next_normal hnext
  have hlength := congrArg List.length hunread
  simp only [List.length_append] at hlength
  omega

/-- What a token takes, and what is paid for it, is enough for the token
itself and for what it promises. -/
theorem prepaid_receive (hp : p.Attuned) (hnext : c.next p.pending = (some token, d)) :
    d.unread.length + 1 + (p.receive token).state.prepaid ≤ c.unread.length + p.state.prepaid := by
  have hle : d.unread.length ≤ c.unread.length := by
    have h := c.length_next_le p.pending
    rwa [hnext] at h
  by_cases hmode : p.pending = .normal
  · rw [hmode] at hnext
    have hlt := Cursor.length_next_normal hnext
    have hone := State.prepaid_le_one (p.receive token).state
    by_cases hs : p.state.prepaid = 0
    · -- A directive's word takes one character for itself and one for the token behind it.
      have hspelling := length_le_of_next_normal hnext
      have hword : (p.receive token).state.prepaid = 0 ∨ 2 ≤ token.text.toList.length :=
        prepaid_feed (p := { p with pending := .normal }) hs token
      omega
    · -- The name of a definition passes on what was paid for it.
      omega
  · -- The state asks for the token, which was paid for.
    have hs : p.state.prepaid = 1 := State.prepaid_of_mode? (hp.mode?_eq hmode)
    have hnone : (p.receive token).state.prepaid = 0 := by
      rcases hp.receive_cases hmode hnext with hidle | hstop
      · rw [hidle]
        rfl
      · exact State.prepaid_of_failure? hstop
    omega

/-! ### Runs -/

/-- A run delivers no more tokens than there are characters, and the one
that is paid for. -/
theorem Attuned.size_tokens_le (hp : p.Attuned) (c : Cursor) :
    (p.deliver c).tokens.size ≤ c.unread.length + p.state.prepaid := by
  induction p, c using deliver_induction with
  | stopped p c hstop =>
      rw [deliver_of_isStopped hstop]
      exact Nat.zero_le _
  | ended p c d hrun hnext =>
      rw [deliver_of_none hrun hnext]
      exact Nat.zero_le _
  | delivered p c token d hrun hnext ih =>
      -- What the first token leaves unpaid is a character of its own.
      have hrest := ih (hp.receive hrun hnext)
      have hstep := prepaid_receive hp hnext
      rw [deliver_of_some hrun hnext, Array.size_append]
      simp only [List.size_toArray, List.length_cons, List.length_nil]
      omega

/-- Each token adds three nodes at most. -/
theorem Sound.size_deliver_le (hp : p.Sound) (c : Cursor) :
    (p.deliver c).parser.tree.size ≤ p.tree.size + 3 * (p.deliver c).tokens.size := by
  induction p, c using deliver_induction with
  | stopped p c hstop =>
      rw [deliver_of_isStopped hstop]
      exact Nat.le_add_right _ _
  | ended p c d hrun hnext =>
      rw [deliver_of_none hrun hnext]
      exact Nat.le_add_right _ _
  | delivered p c token d hrun hnext ih =>
      have hrest := ih (hp.receive token)
      -- Each token adds three nodes at most.
      obtain ⟨count, -, hthree, hadds⟩ := hp.spent.appends_feed hrun token
      have hsize : (p.receive token).tree.size = p.tree.size + count := hadds.size_eq
      rw [deliver_of_some hrun hnext, Array.size_append]
      simp only [List.size_toArray, List.length_cons, List.length_nil]
      omega

/-- A text that ends too soon is marked by one node. -/
theorem size_close_le (p : Parser) (c : Cursor) : (p.close c).tree.size ≤ p.tree.size + 1 := by
  unfold close
  split
  · exact Nat.le_succ _
  · exact Nat.le_succ _
  · rw [Tree.size_add]

/-! ### Calls that take nothing -/

/-- A call of a run is the first one of what is left of the run. -/
theorem Calls.delivers {before after : List Call} {call : Call}
    (h : p.Calls c (before ++ call :: after)) :
    ∃ q tokens, Delivers p c tokens q call.cursor ∧ q.Calls call.cursor (call :: after) := by
  induction before generalizing p c with
  | nil =>
      -- The first call reads where the run begins.
      have hcursor : call.cursor = c := by
        cases h <;> rfl
      exact ⟨p, [], hcursor ▸ .refl, hcursor ▸ h⟩
  | cons first before ih =>
      generalize hcalls : first :: before ++ call :: after = calls at h
      cases h with
      | stopped _ => cases hcalls
      | ended _ _ => exact absurd (List.cons.inj hcalls).2 (by simp)
      | read hrun hnext h =>
          rw [← (List.cons.inj hcalls).2] at h
          obtain ⟨q, tokens, hdelivers, hrest⟩ := ih h
          exact ⟨q, _, .step hrun hnext hdelivers, hrest⟩

/-- A text that ends while the parser is not idle has failed. -/
theorem exists_failed_of_ne_idle (p : Parser) (c : Cursor) (h : p.state ≠ .idle) :
    ∃ failure, (p.close c).status = .failed failure := by
  cases hstatus : (p.close c).status with
  | completed => exact absurd ((p.close_status_eq_completed_iff c).1 hstatus) h
  | failed failure => exact ⟨failure, rfl⟩

/-- A file name that takes nothing is refused, or the text is at its end:
either way the run is, too, and the parse fails. -/
theorem Calls.includeName_last {call : Call} {after : List Call}
    (h : p.Calls c (call :: after)) (hp : p.Attuned) (hmode : call.mode = .includeName)
    (htaken : call.taken = 0) :
    after = [] ∧ ∃ failure, (p.run c).status = .failed failure := by
  cases h with
  | ended hrun hnext =>
      -- The text ends where a name is due, and the state still asks for it.
      have hpending : p.pending = .includeName := hmode
      have hstate : p.state ≠ .idle := by
        have hasked := hp.mode?_eq (by rw [hpending]; decide)
        rintro hidle
        rw [hidle] at hasked
        cases hasked
      refine ⟨rfl, ?_⟩
      rw [run, deliver_of_none hrun hnext]
      exact exists_failed_of_ne_idle { p with pending := .normal } _ hstate
  | @read _ _ d token _ hrun hnext h =>
      have hpending : p.pending = .includeName := hmode
      have hinvalid : token.kind = .invalid := by
        by_contra hvalid
        rw [hpending] at hnext
        have hlength := Cursor.length_next_includeName hnext hvalid
        rw [Call.taken, hpending, hnext] at htaken
        simp only at htaken
        omega
      have hstop := isStopped_receive_invalid (p := p) hinvalid
      refine ⟨?_, ?_⟩
      · cases h with
        | stopped _ => rfl
        | ended hrun' _ => exact Bool.noConfusion (hstop.symm.trans hrun')
        | read hrun' _ _ => exact Bool.noConfusion (hstop.symm.trans hrun')
      · rw [run, deliver_of_some hrun hnext, deliver_of_isStopped hstop]
        exact exists_failed_of_ne_idle _ _ (ne_idle_of_isStopped hstop)

/-- A body that takes nothing is empty, and therefore not too long. -/
theorem kind_of_next_defineBody (hnext : c.next .defineBody = (some token, d))
    (hlength : c.unread.length ≤ d.unread.length) : token.kind = .defineLiteral := by
  have hblanks : (Lexeme.lineBlanks c.unread).read ++ (Lexeme.lineBlanks c.unread).rest =
      c.unread := Reading.longest_read_append_rest _ _ _
  have hbody := Lexeme.ofDefineBody_read_append_rest (Lexeme.lineBlanks c.unread).rest
  rw [Cursor.next_defineBody] at hnext
  obtain ⟨rfl, rfl⟩ := Cursor.take_eq_iff.1 hnext
  -- Blanks and body together are as long as what was unread, so both are empty.
  have hread : (Lexeme.ofDefineBody (Lexeme.lineBlanks c.unread).rest).read = [] := by
    have hlength₁ := congrArg List.length hblanks
    have hlength₂ := congrArg List.length hbody
    rw [List.length_append] at hlength₁ hlength₂
    change _ ≤ (Lexeme.ofDefineBody (Lexeme.lineBlanks c.unread).rest).rest.length at hlength
    exact List.eq_nil_of_length_eq_zero (by omega)
  simp only [Lexeme.ofDefineBody] at hread ⊢
  rw [hread]
  rfl

/-- A body that takes nothing ends its directive, behind which the run
goes on in normal mode. -/
theorem Calls.defineBody_next {call : Call} {after : List Call}
    (h : p.Calls c (call :: after)) (hp : p.Attuned) (hmode : call.mode = .defineBody)
    (htaken : call.taken = 0) :
    ∃ next rest, after = next :: rest ∧ next.mode = .normal := by
  cases h with
  | @ended _ _ d hrun hnext =>
      -- A body is there even at the end of the text.
      have hpending : p.pending = .defineBody := hmode
      rw [hpending] at hnext
      cases hnext
  | @read _ _ d token _ hrun hnext h =>
      have hpending : p.pending = .defineBody := hmode
      have hasked := hp.mode?_eq (by rw [hpending]; decide)
      have hattuned := hp.receive hrun hnext
      rw [Call.taken, hnext] at htaken
      rw [hpending] at hnext
      have hkind := kind_of_next_defineBody hnext (by simpa [Nat.sub_eq_zero_iff_le] using htaken)
      have hidle := state_receive_literal hasked (Or.inr hkind)
      have hnormal : (p.receive token).pending = .normal := by
        rw [hattuned, hidle]
        rfl
      cases h with
      | stopped hstop => exact absurd hidle (ne_idle_of_isStopped hstop)
      | ended _ _ => exact ⟨_, _, rfl, hnormal⟩
      | read _ _ _ => exact ⟨_, _, rfl, hnormal⟩

/-! ### A whole text -/

/-- What the calls that the parse of a text makes keep to. -/
structure Frugal (kind : UnitKind) (filename text : String) (calls : List Call) : Prop where
  length_calls : calls.length ≤ text.length + 1
  /-- The tokens that the calls return are handed to the parse, and no others. -/
  tokens : calls.filterMap Call.token? =
    ((ofUnit kind filename).deliver (.ofString text)).tokens.toList
  length_tokens : (calls.filterMap Call.token?).length ≤ text.length
  normal : ∀ call ∈ calls, call.mode = .normal → call.token? ≠ none → 0 < call.taken
  /-- A file name that takes nothing is the end of a parse that fails. -/
  includeName : ∀ {before call after}, calls = before ++ call :: after →
    call.mode = .includeName → call.taken = 0 →
      after = [] ∧ ∃ failure, (parse kind filename text).status = .failed failure
  /-- Behind a body that takes nothing comes a call in normal mode. -/
  defineBody : ∀ {before call after}, calls = before ++ call :: after →
    call.mode = .defineBody → call.taken = 0 →
      ∃ next rest, after = next :: rest ∧ next.mode = .normal
  size_tree : (parse kind filename text).tree.size ≤ 3 * text.length + 2

/-- A new parser reads in the mode its state asks for. -/
theorem attuned_ofUnit (kind : UnitKind) (filename : String) : (ofUnit kind filename).Attuned :=
  rfl

/-- Whatever the text is, its parse comes to an end after no more calls
than it has characters, and one more. -/
theorem parse_frugal (kind : UnitKind) (filename text : String) :
    (∃ calls, (ofUnit kind filename).Calls (.ofString text) calls) ∧
      ∀ calls, (ofUnit kind filename).Calls (.ofString text) calls →
        Frugal kind filename text calls := by
  have hattuned := attuned_ofUnit kind filename
  have hsize : ((ofUnit kind filename).deliver (.ofString text)).tokens.size ≤ text.length := by
    have h := hattuned.size_tokens_le (.ofString text)
    rwa [Cursor.ofString, Cursor.ofList, String.length_toList] at h
  refine ⟨exists_calls _ _, fun calls hcalls => ?_⟩
  have hlength := hcalls.length_le_size
  have htokens := hcalls.tokens_eq
  refine ⟨by omega, htokens, ?_, ?_, ?_, ?_, ?_⟩
  · rwa [htokens, Array.length_toList]
  · exact fun call _ => Call.taken_pos_of_normal
  -- A file name without characters is the last token of the run.
  · rintro before call after rfl hmode htaken
    obtain ⟨q, tokens, hdelivers, hrest⟩ := hcalls.delivers
    obtain ⟨hlast, hfailed⟩ :=
      hrest.includeName_last (hdelivers.pending_eq hattuned) hmode htaken
    rw [← hdelivers.run_eq] at hfailed
    exact ⟨hlast, hfailed⟩
  · rintro before call after rfl hmode htaken
    obtain ⟨q, tokens, hdelivers, hrest⟩ := hcalls.delivers
    exact hrest.defineBody_next (hdelivers.pending_eq hattuned) hmode htaken
  -- Three nodes for each token, one for the root, and one for the end.
  · have hdeliver := (sound_ofUnit kind filename).size_deliver_le (.ofString text)
    have hclose := size_close_le ((ofUnit kind filename).deliver (.ofString text)).parser
      ((ofUnit kind filename).deliver (.ofString text)).cursor
    have hone : (ofUnit kind filename).tree.size = 1 := rfl
    show Tree.size (close _ _).tree ≤ _
    omega

end Parser

end CDeclarations
