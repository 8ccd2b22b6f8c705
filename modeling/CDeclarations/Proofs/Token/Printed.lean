import CDeclarations.Proofs.Token.Seam
import CDeclarations.Proofs.Token.Tiling
import Mathlib

/-!
# `CDeclarations.Proofs.Token.Printed`: tokens that are printed are read again

The class of a valid token is decided by its spelling: where a line ends
behind the spelling, it is read as the same token, whatever stood behind
it before. Tokens that are printed one on a line are therefore read
again as they were.

* `Reading.longest_read_append`: a stretch is read again from what was
  read of it.
* `Lexeme.ReadAgain`: the spelling of a lexeme is read again where a line
  ends behind it, one lemma for each class and `readAgain_ofNormal` for
  them all.
* `Cursor.Readable`: so is the spelling of a token, which no blank skips.
* `Token.spelled_ofString_printed`: the tokens of a text are those of the
  text that prints them.
-/

set_option autoImplicit false

namespace CDeclarations

/-! ### The end of a line -/

namespace Text

/-- A line ends here: the text is empty or begins with a line feed. -/
def AtLineEnd (text : List Char) : Prop :=
  ∀ c ∈ text.head?, c = '\n'

/-- The end of the text is the end of a line. -/
theorem atLineEnd_nil : AtLineEnd [] := nofun

/-- A line feed is the end of a line. -/
theorem atLineEnd_feed (text : List Char) : AtLineEnd ('\n' :: text) := by
  intro c hc
  exact (Option.some.inj hc).symm

/-- What stands in front of a text does so already in front of a part of
it, unless it holds the character behind that part. -/
theorem isPrefix_append_iff {v before rest : List Char} (h : ∀ c ∈ rest.head?, c ∉ v) :
    v <+: before ++ rest ↔ v <+: before := by
  constructor
  · intro hlong
    -- A spelling that reaches into the rest would have its first character.
    rcases List.prefix_or_prefix_of_prefix hlong (List.prefix_append before rest) with
      hshort | ⟨tail, rfl⟩
    · exact hshort
    · obtain ⟨more, hmore⟩ := (List.prefix_append_right_inj before).1 hlong
      cases tail with
      | nil => exact ⟨[], by simp⟩
      | cons c tail =>
          rw [← hmore] at h
          exact absurd (List.mem_append_right before List.mem_cons_self) (h c rfl)
  · exact fun hshort => hshort.trans (List.prefix_append before rest)

/-- A spelling without a line feed does not go on at the end of a line. -/
theorem AtLineEnd.notMem {rest : List Char} (h : AtLineEnd rest) {v : List Char} (hv : '\n' ∉ v) :
    ∀ c ∈ rest.head?, c ∉ v := by
  intro c hc
  rwa [h c hc]

/-- Nothing is dropped before a character that stays. -/
theorem dropEnd_cons_of_neg {p : Char → Bool} {c : Char} (h : p c = false) (cs : List Char) :
    dropEnd p (c :: cs) = c :: dropEnd p cs := by
  induction cs using List.reverseRecOn with
  | nil => exact List.rdropWhile_concat_neg p [] c (by rw [h]; exact Bool.false_ne_true)
  | append_singleton cs d ih =>
      cases hd : p d with
      | false =>
          have hneg : ¬p d = true := by rw [hd]; exact Bool.false_ne_true
          exact (List.rdropWhile_concat_neg p (c :: cs) d hneg).trans
            (congrArg (c :: ·) (List.rdropWhile_concat_neg p cs d hneg).symm)
      | true =>
          exact (List.rdropWhile_concat_pos p (c :: cs) d hd).trans
            (ih.trans (congrArg (c :: ·) (List.rdropWhile_concat_pos p cs d hd).symm))

/-- What is left of a text when its end is dropped has no such end. -/
theorem dropEnd_dropEnd (p : Char → Bool) (cs : List Char) :
    dropEnd p (dropEnd p cs) = dropEnd p cs :=
  List.rdropWhile_idempotent p cs

end Text

open Text (AtLineEnd)

/-! ### Stretches -/

namespace Reading

variable {σ : Type} {rule : σ → Char → List Char → Option σ} {s : σ} {text rest : List Char}

/-- A stretch that reads nothing stays in its state. -/
theorem state_of_read_eq_nil (h : (longest rule s text).read = []) :
    (longest rule s text).state = s := by
  cases text with
  | nil => rfl
  | cons c after =>
      rw [longest_cons] at h ⊢
      cases hs : rule s c after with
      | none => rfl
      | some s' =>
          rw [hs] at h
          cases h

/-- A stretch is read again from what was read of it, if the rule looks
no further than to the next character, not even there behind the
last one, and if the text behind is refused. -/
theorem longest_read_append (good : σ → Prop)
    (hnext : ∀ s c d after after', rule s c (d :: after) = rule s c (d :: after'))
    (hlast : ∀ s c after after' s', good s' → rule s c after = some s' →
      rule s c after' = some s')
    (hgood : good (longest rule s text).state)
    (hstop : ∀ c after, rest = c :: after → rule (longest rule s text).state c after = none) :
    longest rule s ((longest rule s text).read ++ rest) =
      ⟨(longest rule s text).read, (longest rule s text).state, rest⟩ := by
  induction text generalizing s with
  | nil =>
      cases rest with
      | nil => rfl
      | cons c after =>
          rw [longest_nil] at hstop ⊢
          rw [List.nil_append, longest_cons, hstop c after rfl]
  | cons c after ih =>
      rw [longest_cons] at hgood hstop ⊢
      cases hs : rule s c after with
      | none =>
          rw [hs] at hstop
          cases rest with
          | nil => rfl
          | cons d rest =>
              rw [List.nil_append, longest_cons, hstop d rest rfl]
      | some s' =>
          rw [hs] at hgood hstop
          have hagain : rule s c ((longest rule s' after).read ++ rest) = some s' := by
            -- The last character of the stretch, or one that has its neighbour again.
            cases hread : (longest rule s' after).read with
            | nil => exact hlast s c after _ s' (state_of_read_eq_nil hread ▸ hgood) hs
            | cons d read =>
                have hafter := longest_read_append_rest rule after s'
                rw [hread, List.cons_append] at hafter
                rw [List.cons_append, hnext s c d _ (read ++ (longest rule s' after).rest), hafter,
                  hs]
          show longest rule s (c :: ((longest rule s' after).read ++ rest)) = _
          rw [longest_cons, hagain]
          simp only [ih hgood hstop]

/-- A stretch whose rule looks at no other character is read again before
text that is refused. -/
theorem longest_read_append_of_local
    (hlocal : ∀ s c after after', rule s c after = rule s c after')
    (hstop : ∀ c after, rest = c :: after → rule (longest rule s text).state c after = none) :
    longest rule s ((longest rule s text).read ++ rest) =
      ⟨(longest rule s text).read, (longest rule s text).state, rest⟩ := by
  refine longest_read_append (fun _ => True) ?_ ?_ trivial hstop
  · exact fun s c d _ _ => hlocal s c _ _
  · intro s c after after' s' _ hs
    rw [hlocal s c after' after, hs]

end Reading

/-! ### Lexemes -/

namespace Lexeme

/-- The lexeme found in `body` behind `opening` is spelled by a front part
of the two, and is found again where a line ends behind its spelling. -/
def ReadAgain (opening : List Char) (find : List Char → Lexeme) (body : List Char) : Prop :=
  ∃ tail, tail <+: body ∧ (find body).text = opening ++ tail ∧
    ∀ rest, AtLineEnd rest →
      find (tail ++ rest) = ⟨(find body).kind, opening ++ tail, opening ++ tail, rest⟩

variable {c : Char} {after body : List Char}

/-- What a reading takes is a front part of the text. -/
theorem read_isPrefix {σ : Type} (rule : σ → Char → List Char → Option σ) (s : σ)
    (text : List Char) : (Reading.longest rule s text).read <+: text :=
  ⟨_, Reading.longest_read_append_rest rule text s⟩

/-- A comment is read again from its own spelling. -/
theorem readAgain_blockComment (body : List Char) (hvalid : (blockComment body).kind ≠ .invalid) :
    ReadAgain ['/', '*'] blockComment body := by
  have hclosed := closed_of_blockComment_valid hvalid
  refine ⟨_, read_isPrefix commentRule .inside body, rfl, fun rest hrest => ?_⟩
  have hagain : Reading.longest commentRule .inside
      ((Reading.longest commentRule .inside body).read ++ rest) =
      ⟨(Reading.longest commentRule .inside body).read,
        (Reading.longest commentRule .inside body).state, rest⟩ := by
    -- The slash that closes the comment is taken whatever is behind it.
    refine Reading.longest_read_append (· = .closed) ?_ ?_ hclosed ?_
    · intro s c d after after'
      cases s <;> rfl
    · intro s c after after' s' hs' hs
      subst hs'
      cases s with
      | inside =>
          simp only [commentRule, Option.some.injEq] at hs
          split at hs <;> cases hs
      | closing => rfl
      | closed => cases hs
    · intro c after _
      rw [hclosed]
      rfl
  unfold blockComment
  rw [hagain]
  rfl

/-- A line comment is read again at the end of a line. -/
theorem readAgain_lineComment (body : List Char) :
    ReadAgain ['/', '/'] (fun body => lineComment ('/' :: '/' :: body)) body := by
  -- The comment is spelled by its line without the carriage returns at its end.
  have hspelled : ∀ line : List Char, Text.dropEnd (· = '\r') ('/' :: '/' :: line) =
      '/' :: '/' :: Text.dropEnd (· = '\r') line := by
    intro line
    rw [Text.dropEnd_cons_of_neg (by decide), Text.dropEnd_cons_of_neg (by decide)]
  have hread : (Reading.span (· ≠ '\n') ('/' :: '/' :: body)).read =
      '/' :: '/' :: body.takeWhile (· ≠ '\n') := by
    rw [Reading.span_read]
    rfl
  obtain ⟨returns, hreturns, -⟩ :=
    Text.exists_eq_dropEnd_append (· = '\r') (body.takeWhile (· ≠ '\n'))
  generalize hline : Text.dropEnd (· = '\r') (body.takeWhile (· ≠ '\n')) = line at hreturns
  refine ⟨line, ?_, ?_, fun rest hrest => ?_⟩
  · exact List.IsPrefix.trans ⟨returns, hreturns.symm⟩ (List.takeWhile_prefix _)
  · simp only [lineComment, hread, hspelled, hline]
    rfl
  · have hfree : ∀ c ∈ '/' :: '/' :: line, decide (c ≠ '\n') = true := by
      intro c hc
      rcases List.mem_cons.1 hc with rfl | hc
      · rfl
      rcases List.mem_cons.1 hc with rfl | hc
      · rfl
      have hmem : c ∈ body.takeWhile (· ≠ '\n') := by
        rw [hreturns]
        exact List.mem_append_left returns hc
      exact List.mem_takeWhile_imp (p := (· ≠ '\n')) hmem
    have hagain : Reading.span (· ≠ '\n') ('/' :: '/' :: (line ++ rest)) =
        ⟨'/' :: '/' :: line, (), rest⟩ :=
      Reading.span_append hfree fun c hc => by rw [hrest c hc]; rfl
    have hdropped : Text.dropEnd (· = '\r') line = line := by
      rw [← hline, Text.dropEnd_dropEnd]
    simp only [lineComment, hread, hagain, hspelled, hline, hdropped]
    rfl

/-- A literal is read again from its own spelling. -/
theorem readAgain_quoted {quote : Char} {kind : TokenKind}
    (hvalid : (quoted quote kind body).kind ≠ .invalid) :
    ReadAgain [quote] (quoted quote kind) body := by
  have hclosed := closed_of_quoted_valid hvalid
  refine ⟨_, read_isPrefix (quoteRule quote) .inside body, rfl, fun rest hrest => ?_⟩
  have hagain : Reading.longest (quoteRule quote) .inside
      ((Reading.longest (quoteRule quote) .inside body).read ++ rest) =
      ⟨(Reading.longest (quoteRule quote) .inside body).read,
        (Reading.longest (quoteRule quote) .inside body).state, rest⟩ := by
    refine Reading.longest_read_append_of_local (fun s c _ _ => by cases s <;> rfl) ?_
    intro c after _
    rw [hclosed]
    rfl
  unfold quoted
  rw [hagain]
  rfl

/-- So is a character literal. -/
theorem readAgain_charLiteral (hvalid : (charLiteral body).kind ≠ .invalid) :
    ReadAgain ['\''] charLiteral body := by
  obtain ⟨hlength, heq⟩ := charLiteral_of_valid hvalid
  rw [heq] at hvalid
  obtain ⟨tail, hprefix, htext, hagain⟩ := readAgain_quoted hvalid
  refine ⟨tail, hprefix, by rw [heq, htext], fun rest hrest => ?_⟩
  rw [htext] at hlength
  rw [heq, charLiteral, hagain rest hrest]
  exact if_neg hlength

/-- An identifier is read again at the end of a line. -/
theorem readAgain_identifier (after : List Char) (hc : isIdentifierPart c = true) :
    ReadAgain [c] (fun after => identifier (c :: after)) after := by
  have hread : (Reading.span isIdentifierPart (c :: after)).read =
      c :: after.takeWhile isIdentifierPart := by
    rw [Reading.span_read, List.takeWhile_cons, hc, if_pos rfl]
  refine ⟨after.takeWhile isIdentifierPart, List.takeWhile_prefix _, hread, fun rest hrest => ?_⟩
  have hparts : ∀ d ∈ c :: after.takeWhile isIdentifierPart, isIdentifierPart d = true := by
    intro d hd
    rcases List.mem_cons.1 hd with rfl | hd
    · exact hc
    · exact List.mem_takeWhile_imp hd
  have hagain : Reading.span isIdentifierPart (c :: (after.takeWhile isIdentifierPart ++ rest)) =
      ⟨c :: after.takeWhile isIdentifierPart, (), rest⟩ :=
    Reading.span_append hparts fun d hd => by rw [hrest d hd]; rfl
  simp only [identifier, hread, hagain]
  rfl

/-- A number is hexadecimal when it begins with one of two marks. -/
theorem isHexMarked_iff (text : List Char) :
    Numeral.isHexMarked text = true ↔ ['0', 'x'] <+: text ∨ ['0', 'X'] <+: text := by
  unfold Numeral.isHexMarked
  split
  · simp
  · simp
  · next hx hX =>
    refine iff_of_false Bool.false_ne_true ?_
    rintro (⟨tail, rfl⟩ | ⟨tail, rfl⟩)
    · exact hx tail rfl
    · exact hX tail rfl

/-- The base mark of a number is among the characters of its run. -/
theorem isHexMarked_append (read : List Char) {rest : List Char}
    (hrest : ∀ d ∈ rest.head?, d ≠ '0' ∧ d ≠ 'x' ∧ d ≠ 'X') :
    Numeral.isHexMarked (read ++ rest) = Numeral.isHexMarked read := by
  rw [Bool.eq_iff_iff, isHexMarked_iff, isHexMarked_iff, Text.isPrefix_append_iff,
    Text.isPrefix_append_iff]
  · intro d hd
    simp [hrest d hd]
  · intro d hd
    simp [hrest d hd]

/-- The character opens the run of a number. -/
def opensRun (c : Char) : Bool :=
  c.isAlphanum || c = '_' || c = '.'

/-- A run goes on behind its first character. -/
theorem longest_runRule_cons (hex : Bool) (hc : opensRun c = true) (after : List Char) :
    Reading.longest (Numeral.runRule hex) ' ' (c :: after) =
      ⟨c :: (Reading.longest (Numeral.runRule hex) c after).read,
        (Reading.longest (Numeral.runRule hex) c after).state,
        (Reading.longest (Numeral.runRule hex) c after).rest⟩ := by
  have hfirst : Numeral.runRule hex ' ' c after = some c := by
    rw [opensRun] at hc
    rw [Numeral.runRule, hc, Bool.true_or, if_pos rfl]
  rw [Reading.longest_cons, hfirst]

/-- A number is read again at the end of a line. -/
theorem readAgain_number (after : List Char) (hc : opensRun c = true) :
    ReadAgain [c] (fun after => number (c :: after)) after := by
  let hex := Numeral.isHexMarked (c :: after)
  let run := Reading.longest (Numeral.runRule hex) c after
  have hrun : run.read ++ run.rest = after := Reading.longest_read_append_rest _ after c
  -- What ends the run is no part of a base mark, and neither is a line feed.
  have hmark : Numeral.isHexMarked (c :: run.read) = hex := by
    have hbehind : ∀ d ∈ run.rest.head?, d ≠ '0' ∧ d ≠ 'x' ∧ d ≠ 'X' := by
      intro d hd
      obtain ⟨rest, hrest⟩ := List.head?_eq_some_iff.1 hd
      have hrefused := Reading.rule_of_rest_eq_cons hrest
      refine ⟨?_, ?_, ?_⟩ <;> rintro rfl <;> cases hrefused
    rw [← isHexMarked_append (c :: run.read) hbehind, List.cons_append, hrun]
  refine ⟨run.read, read_isPrefix _ c after, ?_, fun rest hrest => ?_⟩
  · show (Reading.longest (Numeral.runRule hex) ' ' (c :: after)).read = _
    rw [longest_runRule_cons hex hc]
    rfl
  · have hmark' : Numeral.isHexMarked (c :: (run.read ++ rest)) = hex := by
      rw [← hmark, ← List.cons_append, isHexMarked_append]
      intro d hd
      rw [hrest d hd]
      decide
    have hagain : Reading.longest (Numeral.runRule hex) c (run.read ++ rest) =
        ⟨run.read, run.state, rest⟩ := by
      refine Reading.longest_read_append_of_local (fun _ _ _ _ => rfl) fun d more hmore => ?_
      rw [hrest d (by rw [hmore]; rfl)]
      rfl
    show number (c :: (run.read ++ rest)) = ⟨(number (c :: after)).kind, _, _, _⟩
    unfold number
    dsimp only
    rw [hmark', longest_runRule_cons hex hc, longest_runRule_cons _ hc, hagain]
    rfl

/-- A digit behind the character is in the run. -/
theorem text_number_ne (hc : opensRun c = true) (hdigit : after.head?.any Char.isDigit = true) :
    (number (c :: after)).text ≠ [c] := by
  show (Reading.longest (Numeral.runRule _) ' ' (c :: after)).read ≠ [c]
  rw [longest_runRule_cons _ hc]
  cases after with
  | nil => cases hdigit
  | cons d after =>
      have hrun : opensRun d = true := by
        have hd : d.isDigit = true := hdigit
        simp [opensRun, Char.isAlphanum, hd]
      rw [Reading.longest_cons, Numeral.runRule, ← opensRun, hrun]
      simp

/-- No operator holds a line feed. -/
theorem newline_notMem_longOperators : ∀ op ∈ longOperators, '\n' ∉ op := by
  decide

/-- An operator that opens a text does not reach over the end of its line. -/
theorem isPrefix_of_mem_longOperators {op text rest : List Char} (h : op ∈ longOperators)
    (hrest : AtLineEnd rest) (hop : op <+: text ++ rest) : op <+: text :=
  (Text.isPrefix_append_iff (hrest.notMem (newline_notMem_longOperators op h))).1 hop

/-- Where no operator begins, none begins either when the line ends behind
the mark. -/
theorem find?_longOperators_none (hop : longOperators.find? (·.isPrefixOf (c :: after)) = none)
    {rest : List Char} (hrest : AtLineEnd rest) :
    longOperators.find? (·.isPrefixOf (c :: rest)) = none := by
  rw [List.find?_eq_none] at hop ⊢
  intro op hmem hprefix
  have hshort : op <+: [c] :=
    isPrefix_of_mem_longOperators hmem hrest (List.isPrefixOf_iff_prefix.1 hprefix)
  exact hop op hmem (List.isPrefixOf_iff_prefix.2 (hshort.trans (List.prefix_append [c] after)))

/-- The operator that is found is found again when the line ends behind it:
a longer one would have been found before, too. -/
theorem find?_longOperators_some {op : List Char}
    (hop : longOperators.find? (·.isPrefixOf (c :: after)) = some op) {rest : List Char}
    (hrest : AtLineEnd rest) : longOperators.find? (·.isPrefixOf (op ++ rest)) = some op := by
  have hsome := List.find?_some hop
  obtain ⟨-, before, behind, hlist, hbefore⟩ := List.find?_eq_some_iff_append.1 hop
  refine List.find?_eq_some_iff_append.2 ⟨?_, before, behind, hlist, ?_⟩
  · exact List.isPrefixOf_iff_prefix.2 (List.prefix_append op rest)
  · intro longer hlonger
    have hmem : longer ∈ longOperators := hlist ▸ List.mem_append_left _ hlonger
    have hnot := hbefore longer hlonger
    rw [Bool.not_eq_true', Bool.eq_false_iff, Ne, List.isPrefixOf_iff_prefix] at hnot ⊢
    intro hlong
    exact hnot ((isPrefix_of_mem_longOperators hmem hrest hlong).trans
      (List.isPrefixOf_iff_prefix.1 hsome))

/-- No operator is empty: the one that is found begins with the first
character of the text. -/
theorem exists_of_find?_longOperators {op : List Char}
    (hop : longOperators.find? (·.isPrefixOf (c :: after)) = some op) :
    ∃ tail, op = c :: tail ∧ tail <+: after := by
  have hne : ∀ op ∈ longOperators, op ≠ [] := by decide
  have hsome := List.find?_some hop
  have hprefix : op <+: c :: after := List.isPrefixOf_iff_prefix.1 hsome
  cases op with
  | nil => exact absurd rfl (hne _ (List.mem_of_find?_eq_some hop))
  | cons d tail =>
      obtain ⟨rfl, htail⟩ := List.cons_prefix_cons.1 hprefix
      exact ⟨tail, rfl, htail⟩

/-- An operator or a mark is read again at the end of a line. -/
theorem readAgain_punctuator (c : Char) (after : List Char) :
    ReadAgain [c] (punctuator c) after := by
  -- A mark is one character, or the first operator of the table that matches.
  cases hop : longOperators.find? (·.isPrefixOf (c :: after)) with
  | none =>
      refine ⟨[], List.nil_prefix, ?_, fun rest hrest => ?_⟩
      · rw [punctuator, hop]
        rfl
      · rw [List.nil_append, punctuator, punctuator, hop, find?_longOperators_none hop hrest]
        rfl
  | some op =>
      obtain ⟨tail, rfl, htail⟩ := exists_of_find?_longOperators hop
      refine ⟨tail, htail, ?_, fun rest hrest => ?_⟩
      · rw [punctuator, hop]
        rfl
      · have hagain : longOperators.find? (·.isPrefixOf (c :: (tail ++ rest))) =
            some (c :: tail) := find?_longOperators_some hop hrest
        have hdrop : (c :: (tail ++ rest)).drop (c :: tail).length = rest :=
          show ((c :: tail) ++ rest).drop (c :: tail).length = rest from List.drop_left
        rw [punctuator, punctuator, hop, hagain]
        simp only [hdrop]
        rfl

/-- The character opens a number, alone or with a digit behind it. -/
def OpensNumber (c : Char) (after : List Char) : Prop :=
  c.isDigit ∨ (c = '.' ∧ after.head?.any Char.isDigit)

/-- What opens a number opens a run. -/
theorem OpensNumber.opensRun (h : OpensNumber c after) : opensRun c = true := by
  rcases h with h | ⟨rfl, -⟩
  · simp [Lexeme.opensRun, Char.isAlphanum, h]
  · rfl

/-- A digit, and a point with a digit behind it, are read as a number. -/
theorem ofNormal_of_opensNumber (h : OpensNumber c after) :
    ofNormal c after = number (c :: after) := by
  have hc : c ≠ '/' ∧ c ≠ '"' ∧ c ≠ '\'' := by
    refine ⟨?_, ?_, ?_⟩ <;> rintro rfl <;> rcases h with h | ⟨h, -⟩ <;> cases h
  rw [ofNormal, if_neg (fun hslash => hc.1 hslash.1), if_neg (fun hslash => hc.1 hslash.1),
    if_neg hc.2.1, if_neg hc.2.2]
  exact if_pos h

/-- A letter or an underscore is read as an identifier. -/
theorem ofNormal_of_isIdentifierStart (h : isIdentifierStart c = true) (after : List Char) :
    ofNormal c after = identifier (c :: after) := by
  have hc : c ≠ '/' ∧ c ≠ '"' ∧ c ≠ '\'' ∧ c ≠ '.' := by
    refine ⟨?_, ?_, ?_, ?_⟩ <;> rintro rfl <;> cases h
  have hdigit : c.isDigit = false := by
    rw [isIdentifierStart, Bool.or_eq_true, decide_eq_true_eq] at h
    rcases h with h | rfl
    · simp only [Char.isAlpha, Char.isUpper, Char.isLower, Char.isDigit] at *
      grind
    · rfl
  rw [ofNormal, if_neg (fun hslash => hc.1 hslash.1), if_neg (fun hslash => hc.1 hslash.1),
    if_neg hc.2.1, if_neg hc.2.2.1, if_neg (by simp [hdigit, hc.2.2.2]), if_pos h]

/-- Another character than those that open a longer lexeme opens an
operator or is a mark. -/
theorem ofNormal_of_other (hblock : ¬(c = '/' ∧ after.head? = some '*'))
    (hline : ¬(c = '/' ∧ after.head? = some '/')) (hstring : c ≠ '"') (hchar : c ≠ '\'')
    (hnumber : ¬OpensNumber c after) (hstart : isIdentifierStart c = false) :
    ofNormal c after = punctuator c after := by
  rw [ofNormal, if_neg hblock, if_neg hline, if_neg hstring, if_neg hchar, hstart]
  exact if_neg hnumber

/-- A number's spelling opens a number again: the digit behind a point is
part of it. -/
theorem OpensNumber.again (h : OpensNumber c after) {tail : List Char} (hfront : tail <+: after)
    (htext : (number (c :: after)).text = c :: tail) (rest : List Char) :
    OpensNumber c (tail ++ rest) := by
  rcases h with hdigit | ⟨hpoint, hdigit⟩
  · exact Or.inl hdigit
  · have hopens : OpensNumber c after := Or.inr ⟨hpoint, hdigit⟩
    refine Or.inr ⟨hpoint, ?_⟩
    have hne : tail ≠ [] := by
      rintro rfl
      exact text_number_ne hopens.opensRun hdigit htext
    obtain ⟨d, tail, rfl⟩ := List.exists_cons_of_ne_nil hne
    obtain ⟨more, rfl⟩ := hfront
    exact hdigit

/-- In normal mode a number is read again. -/
theorem readAgain_ofNormal_number (h : OpensNumber c after) : ReadAgain [c] (ofNormal c) after := by
  obtain ⟨tail, hprefix, htext, hagain⟩ := readAgain_number after h.opensRun
  have hfind := ofNormal_of_opensNumber h
  refine ⟨tail, hprefix, by rw [hfind, htext], fun rest hrest => ?_⟩
  rw [ofNormal_of_opensNumber (h.again hprefix htext rest), hfind]
  exact hagain rest hrest

/-- In normal mode an identifier is read again. -/
theorem readAgain_ofNormal_identifier (hstart : isIdentifierStart c = true) (after : List Char) :
    ReadAgain [c] (ofNormal c) after := by
  have hpart : isIdentifierPart c = true := by
    simp only [isIdentifierStart, isIdentifierPart, Char.isAlphanum, Bool.or_eq_true] at hstart ⊢
    exact hstart.imp_left Or.inl
  obtain ⟨tail, hprefix, htext, hagain⟩ := readAgain_identifier after hpart
  have hfind := ofNormal_of_isIdentifierStart hstart after
  refine ⟨tail, hprefix, by rw [hfind, htext], fun rest hrest => ?_⟩
  rw [ofNormal_of_isIdentifierStart hstart, hfind]
  exact hagain rest hrest

/-- Behind a spelling there is what was there before, or the end of the
line. -/
theorem head?_of_readAgain {tail rest : List Char} (hfront : tail <+: after)
    (hrest : AtLineEnd rest) {d : Char} (hd : d ≠ '\n') (hhead : (tail ++ rest).head? = some d) :
    after.head? = some d := by
  cases tail with
  | nil => exact absurd (hrest d hhead) hd
  | cons e tail =>
      obtain ⟨more, rfl⟩ := hfront
      exact hhead

/-- In normal mode an operator or a mark is read again: nothing that follows
its spelling makes it open a longer lexeme. -/
theorem readAgain_ofNormal_punctuator (hblock : ¬(c = '/' ∧ after.head? = some '*'))
    (hline : ¬(c = '/' ∧ after.head? = some '/')) (hstring : c ≠ '"') (hchar : c ≠ '\'')
    (hnumber : ¬OpensNumber c after) (hstart : isIdentifierStart c = false) :
    ReadAgain [c] (ofNormal c) after := by
  obtain ⟨tail, hprefix, htext, hagain⟩ := readAgain_punctuator c after
  have hfind := ofNormal_of_other hblock hline hstring hchar hnumber hstart
  refine ⟨tail, hprefix, by rw [hfind, htext], fun rest hrest => ?_⟩
  have hnext : ∀ d, d ≠ '\n' → (tail ++ rest).head? = some d → after.head? = some d :=
    fun _ hd hhead => head?_of_readAgain hprefix hrest hd hhead
  have hblock' : ¬(c = '/' ∧ (tail ++ rest).head? = some '*') :=
    fun h => hblock ⟨h.1, hnext _ (by decide) h.2⟩
  have hline' : ¬(c = '/' ∧ (tail ++ rest).head? = some '/') :=
    fun h => hline ⟨h.1, hnext _ (by decide) h.2⟩
  have hnumber' : ¬OpensNumber c (tail ++ rest) := by
    rintro (hdigit | ⟨hpoint, hdigit⟩)
    · exact hnumber (Or.inl hdigit)
    · obtain ⟨d, hhead, hd⟩ := (Option.any_eq_true _ _).1 hdigit
      have hfeed : d ≠ '\n' := by
        rintro rfl
        cases hd
      exact hnumber (Or.inr ⟨hpoint, by rw [hnext d hfeed hhead]; exact hd⟩)
  rw [ofNormal_of_other hblock' hline' hstring hchar hnumber' hstart, hfind]
  exact hagain rest hrest

/-- A valid lexeme of normal mode is read again from its spelling. -/
theorem readAgain_ofNormal (hvalid : (ofNormal c after).kind ≠ .invalid) :
    ReadAgain [c] (ofNormal c) after := by
  -- Class by class, in the order in which the classes are tried.
  by_cases hblock : c = '/' ∧ after.head? = some '*'
  · obtain ⟨rfl, hstar⟩ := hblock
    obtain ⟨body, rfl⟩ := List.head?_eq_some_iff.1 hstar
    obtain ⟨tail, hprefix, htext, hagain⟩ := readAgain_blockComment body hvalid
    exact ⟨'*' :: tail, (List.prefix_cons_inj '*').2 hprefix, htext, hagain⟩
  by_cases hline : c = '/' ∧ after.head? = some '/'
  · obtain ⟨rfl, hslash⟩ := hline
    obtain ⟨body, rfl⟩ := List.head?_eq_some_iff.1 hslash
    obtain ⟨tail, hprefix, htext, hagain⟩ := readAgain_lineComment body
    exact ⟨'/' :: tail, (List.prefix_cons_inj '/').2 hprefix, htext, hagain⟩
  by_cases hstring : c = '"'
  · subst hstring
    exact readAgain_quoted hvalid
  by_cases hchar : c = '\''
  · subst hchar
    exact readAgain_charLiteral hvalid
  by_cases hnumber : OpensNumber c after
  · exact readAgain_ofNormal_number hnumber
  cases hstart : isIdentifierStart c with
  | true => exact readAgain_ofNormal_identifier hstart after
  | false => exact readAgain_ofNormal_punctuator hblock hline hstring hchar hnumber hstart

end Lexeme

/-! ### Tokens -/

namespace Cursor

/-- The spelling of a token of the class: no blank skips its first
character, and it is read again where a line ends behind it. -/
structure Readable (kind : TokenKind) (text : List Char) : Prop where
  visible : ∀ c ∈ text.head?, Text.isTokenBlank c = false ∧ c ≠ '\\'
  again : ∃ c tail, text = c :: tail ∧ ∀ rest, AtLineEnd rest →
    Lexeme.ofNormal c (tail ++ rest) = ⟨kind, text, text, rest⟩

/-- A valid token can be read again. -/
theorem readable_of_next {c d : Cursor} {t : Token} (h : c.next .normal = (some t, d))
    (hvalid : t.kind ≠ .invalid) : Readable t.kind t.text.toList := by
  obtain ⟨ch, after, hrest, h⟩ := next_normal_eq_some_iff.1 h
  obtain ⟨rfl, -⟩ := take_eq_iff.1 h
  obtain ⟨tail, -, htext, hagain⟩ := Lexeme.readAgain_ofNormal hvalid
  have hrefused := Reading.rule_of_rest_eq_cons hrest
  rw [String.toList_ofList, htext]
  refine ⟨?_, ch, tail, rfl, hagain⟩
  intro c hc
  obtain rfl : ch = c := Option.some.inj hc
  -- The blanks were passed, so the token begins with none of them.
  refine ⟨?_, ?_⟩
  · rw [Bool.eq_false_iff]
    intro hblank
    rw [hblank, Bool.true_or, if_pos rfl] at hrefused
    cases hrefused
  · -- A backslash is no token, and where it opens a joint it is skipped.
    rintro rfl
    exact hvalid rfl

/-- Behind a line feed at most, a readable spelling is read. -/
theorem next_of_readable {kind : TokenKind} {text : List Char} (h : Readable kind text)
    {gap rest : List Char} (hgap : gap = [] ∨ gap = ['\n']) (hrest : AtLineEnd rest)
    (p : Position) :
    (Cursor.mk (gap ++ (text ++ rest)) p).next .normal =
      (some ⟨kind, p.past gap, String.ofList text⟩, ⟨rest, (p.past gap).past text⟩) := by
  obtain ⟨hvisible, c, tail, rfl, hagain⟩ := h
  obtain ⟨hblank, hjoint⟩ := hvisible c rfl
  -- The gap is at most one line feed, and the token ends it.
  have hstop : ∀ more, Lexeme.blanks (c :: more) = ⟨[], (), c :: more⟩ := by
    intro more
    rw [Lexeme.blanks, Reading.longest_cons, hblank, Bool.false_or, decide_eq_false hjoint,
      Bool.false_and]
    rfl
  have hblanks : Lexeme.blanks (gap ++ (c :: tail ++ rest)) =
      ⟨gap, (), c :: (tail ++ rest)⟩ := by
    rcases hgap with rfl | rfl
    · exact hstop (tail ++ rest)
    · have hbehind := hstop (tail ++ rest)
      rw [Lexeme.blanks] at hbehind
      rw [List.singleton_append, Lexeme.blanks, Reading.longest_cons]
      show Reading.mk _ _ _ = _
      rw [List.cons_append, hbehind]
  simp only [next, nextNormal, hblanks, hagain rest hrest, take, past]

end Cursor

namespace Token

/-- What is read of a token wherever it stands. -/
def spelled (t : Token) : TokenKind × String :=
  (t.kind, t.text)

/-- The spellings of tokens, each but the last on a line of its own. -/
def printed (tokens : List Token) : String :=
  "\n".intercalate (tokens.map text)

end Token

namespace Cursor

/-- Behind the first of some printed spellings there is a line feed, unless
it is the last. -/
theorem exists_intercalate_cons (text : List Char) (texts : List (List Char)) :
    ∃ gap, (gap = [] ∨ gap = ['\n']) ∧ AtLineEnd (gap ++ ['\n'].intercalate texts) ∧
      ['\n'].intercalate (text :: texts) = text ++ (gap ++ ['\n'].intercalate texts) := by
  cases texts with
  | nil => exact ⟨[], Or.inl rfl, Text.atLineEnd_nil, by simp⟩
  | cons next texts =>
      refine ⟨['\n'], Or.inr rfl, Text.atLineEnd_feed _, ?_⟩
      rw [List.intercalate_cons_cons, List.append_assoc]

/-- Readable spellings that are printed on lines of their own are read
one after another. -/
theorem spelled_tokens_intercalate (spellings : List (TokenKind × List Char))
    (h : ∀ s ∈ spellings, Readable s.1 s.2) {gap : List Char} (hgap : gap = [] ∨ gap = ['\n'])
    (p : Position) :
    ((Cursor.mk (gap ++ ['\n'].intercalate (spellings.map Prod.snd)) p).tokens.1.map
        fun t => t.1.spelled).toList =
      spellings.map fun s => (s.1, String.ofList s.2) := by
  induction spellings generalizing gap p with
  | nil =>
      -- With no spelling left, only the gap is left of the text.
      have hnone : ∃ d, (Cursor.mk (gap ++ ['\n'].intercalate []) p).next .normal = (none, d) := by
        rcases hgap with rfl | rfl
        · exact ⟨_, rfl⟩
        · exact ⟨_, rfl⟩
      obtain ⟨d, hnext⟩ := hnone
      rw [List.map_nil, List.map_nil, tokens_eq, hnext]
      simp
  | cons s spellings ih =>
      obtain ⟨gap', hgap', hend, hprinted⟩ :=
        exists_intercalate_cons s.2 (spellings.map Prod.snd)
      -- The first spelling is read again, and the line feed behind it is the next gap.
      have hnext := next_of_readable (h s List.mem_cons_self) hgap hend p
      have hrest := ih (fun s' hs' => h s' (List.mem_cons_of_mem s hs')) hgap'
        ((p.past gap).past s.2)
      rw [List.map_cons, List.map_cons, hprinted, tokens_eq, hnext]
      simp only [Array.map_append, Array.toList_append, hrest]
      simp [Token.spelled]

/-- The valid tokens left at a cursor can be read again. -/
theorem readable_of_mem_tokens (c : Cursor) {t : Token} (ht : t ∈ c.tokens.1.map Prod.fst)
    (hvalid : t.kind ≠ .invalid) : Readable t.kind t.text.toList := by
  -- On the unread text, which each token makes shorter.
  induction h : c.unread.length using Nat.strongRecOn generalizing c with
  | ind n ih =>
      subst h
      rw [tokens_eq] at ht
      cases hnext : c.next .normal with
      | mk found d =>
          rw [hnext] at ht
          cases found with
          | none => simp at ht
          | some first =>
              simp only [Array.map_append, Array.mem_append, List.map_toArray, List.map_cons,
                List.map_nil, List.mem_toArray, List.mem_singleton] at ht
              rcases ht with rfl | ht
              · exact readable_of_next hnext hvalid
              · exact ih d.unread.length (length_next_normal hnext) d ht rfl

end Cursor

namespace Token

/-- Tokens that are printed and read again are the same, wherever none of
them is invalid: the text that holds their spellings on lines of their
own has tokens of the same classes and spellings, in the same order. -/
theorem spelled_ofString_printed (text : String)
    (hvalid : ∀ t ∈ ofString text, t.kind ≠ .invalid) :
    (ofString (printed (ofString text))).map spelled = (ofString text).map spelled := by
  let spellings := (ofString text).map fun t => (t.kind, t.text.toList)
  have hreadable : ∀ s ∈ spellings, Cursor.Readable s.1 s.2 := by
    intro s hs
    obtain ⟨t, ht, rfl⟩ := List.mem_map.1 hs
    exact (Cursor.ofString text).readable_of_mem_tokens (Array.mem_toList_iff.1 ht) (hvalid t ht)
  -- A printed list is its spellings with a line feed between them.
  have hprinted : (printed (ofString text)).toList =
      [] ++ ['\n'].intercalate (spellings.map Prod.snd) := by
    rw [printed, String.toList_intercalate, List.map_map, List.map_map]
    rfl
  have hread := Cursor.spelled_tokens_intercalate spellings hreadable (Or.inl rfl) .start
  rw [← hprinted, List.map_map] at hread
  calc (ofString (printed (ofString text))).map spelled
      = ((Cursor.ofString (printed (ofString text))).tokens.1.map fun t => t.1.spelled).toList := by
        rw [ofString, Array.toList_map, Array.toList_map, List.map_map]
        rfl
    _ = (ofString text).map spelled := by
        rw [Cursor.ofString, Cursor.ofList, hread]
        apply List.map_congr_left
        intro t _
        simp [spelled]

/-- A directive, a comment and a declaration are read again from print. -/
theorem spelled_ofString_printed_directive :
    (ofString (printed (ofString "#pragma once\n/* a */ int *x[0x1F];"))).map spelled =
      (ofString "#pragma once\n/* a */ int *x[0x1F];").map spelled := by
  refine spelled_ofString_printed _ fun t ht => of_decide_eq_true ?_
  have hvalid : ((ofString "#pragma once\n/* a */ int *x[0x1F];").all fun t =>
      decide (t.kind ≠ .invalid)) = true := by cbv
  exact List.all_eq_true.1 hvalid t ht

end Token

end CDeclarations
