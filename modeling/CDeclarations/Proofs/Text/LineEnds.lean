import CDeclarations.Text.Blank
import CDeclarations.Text.Lines
import CDeclarations.Text.Position
import CDeclarations.Text.Reading
import Mathlib.Data.List.Basic

/-!
# `CDeclarations.Proofs.Text.LineEnds`: the two ways to end a line

`Text.crlf` writes a carriage return before each line feed of a text. It
moves no other character to another line or column (`Position.past_crlf`),
and a text without a line feed stays as it is (`Text.crlf_of_notMem`).

What is read of a text is read of the text with carriage returns, too, as
long as the rule does not tell the line ends apart:

* `Reading.longest_crlf`: a rule that stops at both characters of a line
  end reads the same stretch, on one line.
* `Reading.longest_crlf_closed`: so does a rule that has to be satisfied
  before the line ends, where it is satisfied.
* `Reading.span_crlf`: the rest of a line is read with the carriage return
  at its end.
-/

set_option autoImplicit false

namespace CDeclarations

namespace Text

/-- The text with a carriage return before each line feed. -/
def crlf (text : List Char) : List Char :=
  text.flatMap fun c => if c = '\n' then ['\r', '\n'] else [c]

/-- The empty text has no line to end. -/
@[simp] theorem crlf_nil : crlf [] = [] := rfl

/-- An end of a line gets its return. -/
@[simp] theorem crlf_feed (after : List Char) :
    crlf ('\n' :: after) = '\r' :: '\n' :: crlf after := rfl

/-- Any other character stays as it is. -/
theorem crlf_cons {c : Char} (h : c ≠ '\n') (after : List Char) :
    crlf (c :: after) = c :: crlf after := by
  rw [crlf, List.flatMap_cons, if_neg h]
  rfl

/-- Two texts get their returns apart from each other. -/
theorem crlf_append (text text' : List Char) : crlf (text ++ text') = crlf text ++ crlf text' :=
  List.flatMap_append

/-- A text of one line stays as it is. -/
theorem crlf_of_notMem {text : List Char} (h : '\n' ∉ text) : crlf text = text := by
  induction text with
  | nil => rfl
  | cons c after ih =>
      rw [crlf_cons (fun hc => h (hc ▸ List.mem_cons_self)),
        ih fun hmem => h (List.mem_cons_of_mem _ hmem)]

/-- A text grows by one character for each of its line ends. -/
theorem length_crlf (text : List Char) : (crlf text).length = text.length + text.count '\n' := by
  induction text with
  | nil => rfl
  | cons c after ih =>
      by_cases hc : c = '\n'
      · subst hc
        simp only [crlf_feed, List.length_cons, ih, List.count_cons_self]
        omega
      · simp only [crlf_cons hc, List.length_cons, ih, List.count_cons_of_ne hc]
        omega

/-- A line feed is never the first character. -/
theorem head?_crlf_ne (text : List Char) : (crlf text).head? ≠ some '\n' := by
  cases text with
  | nil => nofun
  | cons c after =>
      by_cases hc : c = '\n'
      · subst hc
        simp
      · simp [crlf_cons hc, hc]

/-- What the first character is does not depend on the line ends, unless
it ends a line. -/
theorem head?_crlf_iff {c : Char} (hreturn : c ≠ '\r') (hfeed : c ≠ '\n') (text : List Char) :
    (crlf text).head? = some c ↔ text.head? = some c := by
  cases text with
  | nil => rfl
  | cons d after =>
      by_cases hd : d = '\n'
      · subst hd
        simp [hreturn.symm, hfeed.symm]
      · simp [crlf_cons hd]

/-- A text begins with a word as it does with other line ends. -/
theorem isPrefixOf_crlf {word : List Char} (hreturn : '\r' ∉ word) (hfeed : '\n' ∉ word)
    {text : List Char} : word <+: crlf text ↔ word <+: text := by
  induction word generalizing text with
  | nil => simp
  | cons c word ih =>
      rw [List.mem_cons, not_or] at hreturn hfeed
      cases text with
      | nil => rfl
      | cons d after =>
          by_cases hd : d = '\n'
          · subst hd
            simp [List.cons_prefix_cons, Ne.symm hreturn.1, Ne.symm hfeed.1]
          · rw [crlf_cons hd, List.cons_prefix_cons, List.cons_prefix_cons, ih hreturn.2 hfeed.2]

/-- The text with a carriage return before each line feed. -/
def withReturns (text : String) : String :=
  String.ofList (crlf text.toList)

end Text

open Text (crlf crlf_feed crlf_cons crlf_of_notMem)

/-- A text leads to the same position, however its lines end. -/
theorem Position.past_crlf (p : Position) (text : List Char) :
    p.past (crlf text) = p.past text := by
  induction text generalizing p with
  | nil => rfl
  | cons c after ih =>
      by_cases hc : c = '\n'
      · subst hc
        rw [crlf_feed, past_cons, past_cons, past_cons, ih]
        rfl
      · rw [crlf_cons hc, past_cons, past_cons, ih]

namespace Reading

variable {σ : Type} {rule : σ → Char → List Char → Option σ}

/-- A character that the rule never takes is not read. -/
theorem notMem_read {c : Char} (h : ∀ s after, rule s c after = none) (s : σ) (text : List Char) :
    c ∉ (longest rule s text).read := by
  induction text generalizing s with
  | nil => exact List.not_mem_nil
  | cons d after ih =>
      cases hd : rule s d after with
      | none =>
          rw [longest_cons_of_none hd]
          exact List.not_mem_nil
      | some s' =>
          rw [longest_cons_of_some hd]
          refine List.not_mem_cons_of_ne_of_not_mem ?_ (ih s')
          rintro rfl
          cases (h s after).symm.trans hd

/-- A rule that stops at both characters of a line end, and does not look
ahead, reads the same stretch. -/
theorem longest_crlf (hahead : ∀ s c after after', rule s c after = rule s c after')
    (hreturn : ∀ s after, rule s '\r' after = none) (hfeed : ∀ s after, rule s '\n' after = none)
    (s : σ) (text : List Char) :
    longest rule s (crlf text) =
      ⟨(longest rule s text).read, (longest rule s text).state,
        crlf (longest rule s text).rest⟩ := by
  induction text generalizing s with
  | nil => rfl
  | cons c after ih =>
      by_cases hc : c = '\n'
      · subst hc
        rw [crlf_feed, longest_cons_of_none (hreturn ..), longest_cons_of_none (hfeed ..),
          crlf_feed]
      rw [crlf_cons hc]
      cases h : rule s c after with
      | none =>
          rw [longest_cons_of_none h, longest_cons_of_none ((hahead ..).trans h), crlf_cons hc]
      | some s' =>
          rw [longest_cons_of_some h, longest_cons_of_some ((hahead ..).trans h), ih s']

/-- A rule that has to be satisfied on its line reads the same stretch
where it is satisfied before the line ends. Where it is not, it is not
satisfied either when the line ends with a carriage return. -/
theorem longest_crlf_closed (rule : σ → Char → List Char → Option σ) {closed : σ → Prop}
    (hahead : ∀ s c after after', rule s c after = rule s c after')
    (hclosed : ∀ s c after, closed s → rule s c after = none)
    (hline : ∀ s s' after, rule s '\r' after = some s' →
      ¬closed s' ∧ ∀ after', rule s' '\n' after' = none)
    (s : σ) (text : List Char) :
    (closed (longest rule s text).state ∧ '\n' ∉ (longest rule s text).read ∧
        longest rule s (crlf text) =
          ⟨(longest rule s text).read, (longest rule s text).state,
            crlf (longest rule s text).rest⟩) ∨
      (¬closed (longest rule s (crlf text)).state ∧
        (closed (longest rule s text).state → '\n' ∈ (longest rule s text).read)) := by
  induction text generalizing s with
  -- A stretch that is closed reads nothing more on either side.
  | nil => by_cases hs : closed s <;> simp [hs]
  | cons c after ih =>
      by_cases hs : closed s
      · have hstop : ∀ text, longest rule s text = ⟨[], s, text⟩ := by
          intro text
          cases text with
          | nil => rfl
          | cons c after => exact longest_cons_of_none (hclosed s c after hs)
        rw [hstop, hstop]
        exact Or.inl ⟨hs, nofun, rfl⟩
      by_cases hc : c = '\n'
      · subst hc
        refine Or.inr ⟨?_, ?_⟩
        · -- The carriage return may be read, but the line feed behind it ends the stretch.
          rw [crlf_feed]
          cases hreturn : rule s '\r' ('\n' :: crlf after) with
          | none => rwa [longest_cons_of_none hreturn]
          | some s' =>
              obtain ⟨hopen, hstop⟩ := hline s s' _ hreturn
              rwa [longest_cons_of_some hreturn, longest_cons_of_none (hstop _)]
        · cases h : rule s '\n' after with
          | none =>
              rw [longest_cons_of_none h]
              exact fun hclosed => absurd hclosed hs
          | some s' =>
              rw [longest_cons_of_some h]
              exact fun _ => List.mem_cons_self
      rw [crlf_cons hc]
      cases h : rule s c after with
      | none =>
          rw [longest_cons_of_none h, longest_cons_of_none ((hahead ..).trans h)]
          exact Or.inr ⟨hs, fun hclosed => absurd hclosed hs⟩
      | some s' =>
          rw [longest_cons_of_some h, longest_cons_of_some ((hahead ..).trans h)]
          rcases ih s' with ⟨hclosed', hread, heq⟩ | ⟨hopen, hread⟩
          · refine Or.inl ⟨hclosed', ?_, by rw [heq]⟩
            exact List.not_mem_cons_of_ne_of_not_mem (Ne.symm hc) hread
          · exact Or.inr ⟨hopen, fun hclosed => List.mem_cons_of_mem _ (hread hclosed)⟩

/-- The rest of a line is read with the carriage return at its end. -/
theorem span_crlf (text : List Char) :
    '\n' ∉ (span (· ≠ '\n') text).read ∧
      (((span (· ≠ '\n') text).rest = [] ∧ (span (· ≠ '\n') (crlf text)).rest = [] ∧
          (span (· ≠ '\n') (crlf text)).read = (span (· ≠ '\n') text).read) ∨
        ∃ after, (span (· ≠ '\n') text).rest = '\n' :: after ∧
          (span (· ≠ '\n') (crlf text)).rest = '\n' :: crlf after ∧
          (span (· ≠ '\n') (crlf text)).read = (span (· ≠ '\n') text).read ++ ['\r']) := by
  simp only [span_read, span_rest]
  -- The line ends where the text does, or in front of its first end of line.
  induction text with
  | nil => exact ⟨nofun, Or.inl ⟨rfl, rfl, rfl⟩⟩
  | cons c after ih =>
      by_cases hc : c = '\n'
      · subst hc
        exact ⟨nofun, Or.inr ⟨after, rfl, rfl, rfl⟩⟩
      · rw [crlf_cons hc, List.takeWhile_cons_of_pos (by simpa using hc),
          List.takeWhile_cons_of_pos (by simpa using hc),
          List.dropWhile_cons_of_pos (by simpa using hc),
          List.dropWhile_cons_of_pos (by simpa using hc)]
        obtain ⟨hread, hrest⟩ := ih
        refine ⟨List.not_mem_cons_of_ne_of_not_mem (Ne.symm hc) hread, ?_⟩
        rcases hrest with ⟨hnil, hnil', hread⟩ | ⟨rest, hrest, hrest', hread⟩
        · exact Or.inl ⟨hnil, hnil', by rw [hread]⟩
        · exact Or.inr ⟨rest, hrest, hrest', by rw [hread]; rfl⟩

end Reading

end CDeclarations
