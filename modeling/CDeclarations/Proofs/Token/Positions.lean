import CDeclarations.Proofs.Text.LineEnds
import CDeclarations.Proofs.Token.Seam
import CDeclarations.Proofs.Token.Tiling
import Mathlib.Data.List.Induction

/-!
# `CDeclarations.Proofs.Token.Positions`: where a reader stands, in every mode

A cursor carries its position from character to character and looks at
the consumed text no more. `Position.counted` looks at that text alone: it
counts the line feeds, and the characters behind the last of them. The two
agree behind every sequence of calls, whichever modes are asked for.

* `Skips`: the blanks that a mode skips, and that no further one follows.
* `Text.FeedsJoined`: every line feed ends a joint of two lines. The body
  of a definition is such a text, for at each of its characters what is
  owed to a backslash tells whether a line feed may be next (`Owing.step`).
* `Cursor.Moves`: how one call moves the cursor in its mode.
* `Cursor.position_after`: the positions behind a sequence of calls and
  around one more.
-/

set_option autoImplicit false

namespace CDeclarations

/-! ### Positions by counting -/

namespace Position

/-- The position behind a text that begins at `start`: the line counts its
line feeds, the column what stands behind the last of them. -/
def counted (text : List Char) : Position :=
  ⟨1 + text.count '\n', 1 + (text.reverse.takeWhile (· ≠ '\n')).length⟩

/-- The position behind a text is counted from its lines and the length of the
last one. -/
theorem past_start_eq_counted (text : List Char) : start.past text = counted text := by
  induction text using List.reverseRecOn with
  | nil => rfl
  | append_singleton text c ih =>
      rw [past_append, ih, past_cons, past_nil, next, counted, counted, List.count_append,
        List.reverse_append, List.reverse_singleton, List.singleton_append]
      -- A line feed begins an empty line, and every other character makes its line longer.
      by_cases hc : c = '\n'
      · subst hc
        rw [if_pos rfl, List.takeWhile_cons_of_neg (by decide)]
        rfl
      · have hcolumn : (c :: text.reverse).takeWhile (· ≠ '\n') =
            c :: text.reverse.takeWhile (· ≠ '\n') :=
          List.takeWhile_cons_of_pos (decide_eq_true hc)
        have hline : [c].count '\n' = 0 := List.count_eq_zero.2 (by simpa using Ne.symm hc)
        rw [if_neg hc, hcolumn, hline]
        rfl

end Position

/-! ### Blanks -/

open Text (IsGap)

/-- In the given mode, `gap` is skipped in front of `rest`, and what
stands there is skipped no more. Joints are skipped in normal mode
only; the other modes stay on the line. -/
inductive Skips : TokenMode → List Char → List Char → Prop
  | anywhere {gap rest : List Char} (hgap : IsGap gap)
      (hblank : ∀ c ∈ rest.head?, c ∉ [' ', '\t', '\r', '\n', '\x0b', '\x0c'])
      (hjoint : ¬['\\', '\n'] <+: rest) : Skips .normal gap rest
  | onLine {mode : TokenMode} {gap rest : List Char} (hmode : mode ≠ .normal)
      (hgap : ∀ c ∈ gap, c ∈ [' ', '\t', '\x0b', '\x0c'])
      (hblank : ∀ c ∈ rest.head?, c ∉ [' ', '\t', '\x0b', '\x0c']) : Skips mode gap rest

namespace Lexeme

/-- The six blanks are the blanks of normal mode. -/
theorem isTokenBlank_of_mem {c : Char} (h : c ∈ [' ', '\t', '\r', '\n', '\x0b', '\x0c']) :
    Text.isTokenBlank c = true := by
  have hall : [' ', '\t', '\r', '\n', '\x0b', '\x0c'].all Text.isTokenBlank = true := by decide
  exact List.all_eq_true.1 hall c h

/-- Four of them are the blanks of a line. -/
theorem isLineBlank_iff_mem (c : Char) :
    Text.isLineBlank c = true ↔ c ∈ [' ', '\t', '\x0b', '\x0c'] := by
  simp [Text.isLineBlank, or_assoc]

/-- Normal mode skips blanks and joints until neither follows. -/
theorem skips_blanks (text : List Char) : Skips .normal (blanks text).read (blanks text).rest := by
  refine .anywhere (isGap_blanks text) ?_ ?_
  · intro c hc hmem
    obtain ⟨after, hrest⟩ := List.head?_eq_some_iff.1 hc
    have hrefused := Reading.rule_of_rest_eq_cons hrest
    rw [isTokenBlank_of_mem hmem, Bool.true_or, if_pos rfl] at hrefused
    cases hrefused
  · rintro ⟨after, hrest⟩
    cases Reading.rule_of_rest_eq_cons hrest.symm

/-- The other two modes skip the blanks of the line. -/
theorem skips_lineBlanks {mode : TokenMode} (hmode : mode ≠ .normal) (text : List Char) :
    Skips mode (lineBlanks text).read (lineBlanks text).rest := by
  refine .onLine hmode ?_ ?_
  · intro c hc
    rw [lineBlanks, Reading.span_read] at hc
    exact (isLineBlank_iff_mem c).1 (List.mem_takeWhile_imp hc)
  · intro c hc hmem
    obtain ⟨after, hrest⟩ := List.head?_eq_some_iff.1 hc
    have hrefused := Reading.rule_of_rest_eq_cons hrest
    rw [(isLineBlank_iff_mem c).2 hmem, if_pos rfl] at hrefused
    cases hrefused

/-- Blanks on the line hold no line feed. -/
theorem newline_notMem_lineBlanks (text : List Char) : '\n' ∉ (lineBlanks text).read :=
  Reading.notMem_read (fun _ _ => rfl) () text

/-- The name of an included file stays on its line. -/
theorem newline_notMem_ofIncludeName (c : Char) (after : List Char) :
    '\n' ∉ (ofIncludeName c after).read := by
  -- A name of either form refuses the line feed, closed or not.
  have hname : ∀ close, c ≠ '\n' → '\n' ∉ (fileName c close after).read := by
    intro close hc
    have hrefused : ∀ (closed : Bool) (rest : List Char),
        nameRule close closed '\n' rest = none := by
      intro closed rest
      cases closed <;> rfl
    exact List.not_mem_cons_of_ne_of_not_mem hc.symm (Reading.notMem_read hrefused false after)
  unfold ofIncludeName
  split
  · next hc => exact hname '>' (by rw [hc]; decide)
  split
  · next hc => exact hname '"' (by rw [hc]; decide)
  · exact Reading.notMem_read (fun _ _ => rfl) () (c :: after)

end Lexeme

/-! ### The body of a definition -/

namespace Text

/-- A line feed that stands here ends a joint of two lines. -/
def EndsJoint (before : List Char) : Prop :=
  ['\\'] <:+ before ∨ ['\\', '\r'] <:+ before

/-- What holds of each character of a text with those before it goes on
to hold with one more character. -/
theorem follows_concat {Q : List Char → Char → Prop} {before : List Char} {c : Char}
    (h : ∀ front d, front ++ [d] <+: before → Q front d) (hc : Q before c) :
    ∀ front d, front ++ [d] <+: before ++ [c] → Q front d := by
  intro front d hfront
  rcases List.prefix_concat_iff.1 hfront with heq | hfront
  · obtain ⟨rfl, hd⟩ := List.append_inj' heq rfl
    obtain rfl := (List.cons.inj hd).1
    exact hc
  · exact h front d hfront

/-- Every line feed of the text ends a joint of two lines. -/
def FeedsJoined (text : List Char) : Prop :=
  ∀ before, before ++ ['\n'] <+: text → EndsJoint before

variable {text before : List Char} {c : Char}

/-- A text of one line has no line feed to join. -/
theorem feedsJoined_of_notMem (h : '\n' ∉ text) : FeedsJoined text := by
  rintro before ⟨rest, rfl⟩
  simp at h

/-- A text goes on with a line feed only behind a joint. -/
theorem FeedsJoined.concat (h : FeedsJoined before) (hc : c = '\n' → EndsJoint before) :
    FeedsJoined (before ++ [c]) := by
  have hbefore : ∀ front d, front ++ [d] <+: before → d = '\n' → EndsJoint front := by
    rintro front d hfront rfl
    exact h front hfront
  exact fun front hfront => follows_concat hbefore hc front '\n' hfront rfl

end Text

open Text (EndsJoint FeedsJoined)

namespace Lexeme

variable {before text after : List Char} {c : Char} {s s' : BodyState}

/-- Behind `before`, a body owes a backslash nothing or the rest of its
joint, of which the text left begins with the carriage return if two
characters are owed. A character that is owed inside quotes may be taken
for a joint's, as far as line feeds are concerned. -/
inductive Owing (before : List Char) (s : BodyState) (text : List Char) : Prop
  | nothing (h : s.owed = 0)
  | last (h : s.owed = 1) (hjoint : EndsJoint before)
  | both (h : s.owed = 2) (hback : ['\\'] <:+ before) (hreturn : text.head? = some '\r')

/-- A line feed is read only where it is owed to a joint. -/
theorem Owing.step (h : Owing before s (c :: after)) (hs : bodyRule s c after = some s') :
    Owing (before ++ [c]) s' after ∧ (c = '\n' → EndsJoint before) := by
  have hback : ['\\'] <:+ before ++ ['\\'] := List.suffix_append before _
  unfold bodyRule at hs
  -- One or two characters are owed to a joint, or none.
  cases h with
  | last howed hjoint =>
      rw [if_pos (by rw [howed]; decide)] at hs
      cases hs
      exact ⟨.nothing (by simp [howed]), fun _ => hjoint⟩
  | both howed hback hreturn =>
      rw [if_pos (by rw [howed]; decide)] at hs
      cases hs
      obtain rfl : c = '\r' := Option.some.inj hreturn
      obtain ⟨front, rfl⟩ := hback
      refine ⟨.last (by simp [howed]) (Or.inr ⟨front, ?_⟩), fun hfeed => absurd hfeed (by decide)⟩
      rw [List.append_assoc]
      rfl
  | nothing howed =>
      rw [if_neg (by simp [howed])] at hs
      split at hs
      · cases hs
      next hfeed =>
      refine ⟨?_, fun hc => absurd hc hfeed⟩
      split at hs
      · next hc =>
        subst hc
        split at hs
        · cases hs
          exact .last rfl (Or.inl hback)
        split at hs
        · next hjoint =>
          cases hs
          refine .both rfl hback ?_
          cases after with
          | nil => cases hjoint
          | cons d after => exact congrArg some (List.cons.inj hjoint).1
        · -- Inside quotes, one character is owed to any backslash.
          cases hs
          cases hquote : s.quote with
          | none => exact .nothing rfl
          | some quote => exact .last rfl (Or.inl hback)
      split at hs
      · cases hs
      · cases hs
        exact .nothing howed

/-- What is read of a body joins its lines. -/
theorem feedsJoined_longest_bodyRule (h : Owing before s text) (hbefore : FeedsJoined before) :
    FeedsJoined (before ++ (Reading.longest bodyRule s text).read) := by
  induction text generalizing before s with
  | nil =>
      rw [Reading.longest_nil, List.append_nil]
      exact hbefore
  | cons c after ih =>
      cases hs : bodyRule s c after with
      | none =>
          rw [Reading.longest_cons_of_none hs, List.append_nil]
          exact hbefore
      | some s' =>
          -- A line feed that is read was owed to a backslash before it.
          obtain ⟨howing, hfeed⟩ := h.step hs
          rw [Reading.longest_cons_of_some hs, ← List.singleton_append, ← List.append_assoc]
          exact ih howing (hbefore.concat hfeed)

/-- A body ends in front of a line feed or a line comment, or with the
text. -/
theorem ofDefineBody_rest_cases (text : List Char) :
    (ofDefineBody text).rest = [] ∨ ['\n'] <+: (ofDefineBody text).rest ∨
      ['/', '/'] <+: (ofDefineBody text).rest := by
  cases hrest : (ofDefineBody text).rest with
  | nil => exact Or.inl rfl
  | cons c after =>
      have hrefused := Reading.rule_of_rest_eq_cons hrest
      generalize (Reading.longest bodyRule ⟨none, 0⟩ text).state = s at hrefused
      -- The rule refuses a line feed and a comment, and nothing else.
      unfold bodyRule at hrefused
      split at hrefused
      · cases hrefused
      split at hrefused
      · next hc => exact Or.inr (Or.inl ⟨after, by rw [hc]; rfl⟩)
      split at hrefused
      · split at hrefused
        · cases hrefused
        split at hrefused <;> cases hrefused
      split at hrefused
      · next hcomment =>
        obtain ⟨hc, -, hslash⟩ := hcomment
        obtain ⟨rest, rfl⟩ := List.head?_eq_some_iff.1 hslash
        exact Or.inr (Or.inr ⟨rest, by rw [hc]; rfl⟩)
      · cases hrefused

end Lexeme

/-! ### Calls -/

namespace Cursor

/-- How one call moves a cursor: it skips the blanks `gap`, and reads
`read` behind them for the token, if the text has one left. -/
structure Moves (mode : TokenMode) (c : Cursor) (token? : Option Token) (d : Cursor)
    (gap read : List Char) : Prop where
  unread : c.unread = gap ++ (read ++ d.unread)
  position : d.position = c.position.past (gap ++ read)
  skips : Skips mode gap (read ++ d.unread)
  token : ∀ t ∈ token?, t.position = c.position.past gap
  includeName : mode = .includeName → '\n' ∉ gap ++ read
  defineBody : mode = .defineBody → FeedsJoined (gap ++ read) ∧
    (d.unread = [] ∨ ['\n'] <+: d.unread ∨ ['/', '/'] <+: d.unread)

variable {c : Cursor} {mode : TokenMode} {gap rest : List Char}

/-- A lexeme behind the blanks is taken as a token. -/
theorem moves_take {x : Lexeme} (hgap : gap ++ rest = c.unread) (hskips : Skips mode gap rest)
    (hx : x.read ++ x.rest = rest) (hname : mode = .includeName → '\n' ∉ gap ++ x.read)
    (hbody : mode = .defineBody → FeedsJoined (gap ++ x.read) ∧
      (x.rest = [] ∨ ['\n'] <+: x.rest ∨ ['/', '/'] <+: x.rest)) :
    Moves mode c ((c.past gap rest).take x).1 ((c.past gap rest).take x).2 gap x.read := by
  subst hx
  refine ⟨hgap.symm, (Position.past_append ..).symm, hskips, ?_, hname, hbody⟩
  rintro t ⟨⟩
  rfl

/-- Where nothing stands behind the blanks, only they are read. -/
theorem moves_none (hgap : gap ++ [] = c.unread) (hskips : Skips mode gap [])
    (hname : mode = .includeName → '\n' ∉ gap) (hbody : mode ≠ .defineBody) :
    Moves mode c none (c.past gap []) gap [] where
  unread := hgap.symm
  position := by rw [List.append_nil]; rfl
  skips := hskips
  token := nofun
  includeName := by rwa [List.append_nil]
  defineBody := fun hmode => absurd hmode hbody

/-- One call in any mode. -/
theorem exists_moves_next (c : Cursor) (mode : TokenMode) :
    ∃ gap read, Moves mode c (c.next mode).1 (c.next mode).2 gap read := by
  have hblank : (Lexeme.blanks c.unread).read ++ (Lexeme.blanks c.unread).rest = c.unread :=
    Reading.longest_read_append_rest _ _ _
  have hline : (Lexeme.lineBlanks c.unread).read ++ (Lexeme.lineBlanks c.unread).rest = c.unread :=
    Reading.longest_read_append_rest _ _ _
  have hfeed := Lexeme.newline_notMem_lineBlanks c.unread
  -- Each mode skips its blanks and then takes its lexeme, if there is one.
  cases mode with
  | normal =>
      have hskips := Lexeme.skips_blanks c.unread
      simp only [next, nextNormal]
      split
      · next hrest =>
        rw [hrest] at hblank hskips ⊢
        exact ⟨_, _, moves_none hblank hskips (by simp) (by decide)⟩
      · next ch after hrest =>
        rw [hrest] at hblank hskips ⊢
        have hx := Lexeme.ofNormal_read_append_rest ch after
        exact ⟨_, _, moves_take hblank hskips hx (by simp) (by simp)⟩
  | includeName =>
      have hskips : Skips .includeName _ _ := Lexeme.skips_lineBlanks (by decide) c.unread
      simp only [next, nextIncludeName]
      split
      · next hrest =>
        rw [hrest] at hline hskips ⊢
        exact ⟨_, _, moves_none hline hskips (fun _ => hfeed) (by decide)⟩
      · next ch after hrest =>
        rw [hrest] at hline hskips ⊢
        have hx := Lexeme.ofIncludeName_read_append_rest ch after
        refine ⟨_, _, moves_take hline hskips hx (fun _ => ?_) (by simp)⟩
        rw [List.mem_append, not_or]
        exact ⟨hfeed, Lexeme.newline_notMem_ofIncludeName ch after⟩
  | defineBody =>
      have hskips : Skips .defineBody _ _ := Lexeme.skips_lineBlanks (by decide) c.unread
      have hx := Lexeme.ofDefineBody_read_append_rest (Lexeme.lineBlanks c.unread).rest
      refine ⟨_, _, moves_take hline hskips hx (by simp)
        fun _ => ⟨?_, Lexeme.ofDefineBody_rest_cases _⟩⟩
      exact Lexeme.feedsJoined_longest_bodyRule (.nothing rfl) (Text.feedsJoined_of_notMem hfeed)

/-- The cursor behind a call in each of the modes, one after another. -/
def after (c : Cursor) (modes : List TokenMode) : Cursor :=
  modes.foldl (fun c mode => (c.next mode).2) c

/-- A cursor only goes forward, whichever modes were asked for. -/
theorem extends_after (c : Cursor) (modes : List TokenMode) : c.Extends (c.after modes) := by
  induction modes generalizing c with
  | nil => exact ⟨[], rfl, rfl⟩
  | cons mode modes ih => exact (c.extends_next mode).trans (ih (c.next mode).2)

/-- Behind any calls, the position of the reader is the one that is counted
in the text consumed so far, and one more call consumes blanks and what it
reads behind them. Its token stands between the two. The name of an included
file does not leave its line. The body of a definition leaves it over joints
only, and stops where the line, its text or its code ends. -/
theorem position_after (text : String) (modes : List TokenMode) (mode : TokenMode) :
    let c := (ofString text).after modes
    let d := (c.next mode).2
    ∃ consumed gap read,
      text.toList = consumed ++ c.unread ∧ c.position = .counted consumed ∧
      text.toList = consumed ++ gap ++ read ++ d.unread ∧
      d.position = .counted (consumed ++ gap ++ read) ∧
      Skips mode gap (read ++ d.unread) ∧
      (∀ t ∈ (c.next mode).1, t.position = .counted (consumed ++ gap)) ∧
      (mode = .includeName → '\n' ∉ gap ++ read) ∧
      (mode = .defineBody → FeedsJoined (gap ++ read) ∧
        (d.unread = [] ∨ ['\n'] <+: d.unread ∨ ['/', '/'] <+: d.unread)) := by
  intro c d
  obtain ⟨consumed, htext, hposition⟩ := (ofString text).extends_after modes
  obtain ⟨gap, read, hmoves⟩ := c.exists_moves_next mode
  -- Both positions are reached from the beginning of the text.
  have hpast : ∀ more, c.position.past more = Position.counted (consumed ++ more) := by
    intro more
    rw [← Position.past_start_eq_counted, Position.past_append]
    exact congrArg (Position.past · more) hposition
  have hunread : text.toList = consumed ++ c.unread := htext
  refine ⟨consumed, gap, read, hunread, ?_, ?_, ?_, hmoves.skips, ?_, hmoves.includeName,
    hmoves.defineBody⟩
  · rw [← Position.past_start_eq_counted]
    exact hposition
  · show text.toList = consumed ++ gap ++ read ++ (c.next mode).2.unread
    rw [hunread, hmoves.unread]
    simp only [List.append_assoc]
  · rw [hmoves.position, hpast, List.append_assoc]
  · intro t ht
    rw [hmoves.token t ht, hpast]

end Cursor

end CDeclarations
