import CDeclarations.Proofs.Grammar.Numeral
import CDeclarations.Proofs.Token.LineEnds
import CDeclarations.Proofs.Token.Positions
import CDeclarations.Proofs.Token.Printed

/-!
# `CDeclarations.Proofs.Token.Number`: numbers are read whole and judged by their grammar

Where a number begins, the longest run of characters that may stand in one
is taken as a token, whether it spells a number or not. Whether a sign
belongs to the run is decided by the characters before it (`Continues`);
the reader of tokens looks at the base of the whole text and at the
previous character instead, which comes to the same
(`isSome_runRule_iff`).

* `Text.LongestPrefix`: the longest prefix with a property, and
  `Reading.longestPrefix_longest`: when a stretch is one.
* `Lexeme.longestPrefix_number`: a number is the longest run.
* `Cursor.next_of_skips`: the token behind given blanks.
* `Cursor.next_number`: a token that begins like a number is a number
  exactly when its spelling is in `Numeral.literal` and within its limit.
-/

set_option autoImplicit false

namespace CDeclarations

/-! ### Longest prefixes -/

namespace Text

/-- `front` is the longest prefix of the text that has the property. -/
structure LongestPrefix (P : List Char → Prop) (front text : List Char) : Prop where
  isPrefix : front <+: text
  holds : P front
  longest : ∀ more, more <+: text → P more → more.length ≤ front.length

variable {P : List Char → Prop} {front front' text : List Char}

/-- A text has one longest prefix of a kind. -/
theorem LongestPrefix.unique (h : LongestPrefix P front text)
    (h' : LongestPrefix P front' text) : front = front' := by
  have hlength := h.longest front' h'.isPrefix h'.holds
  have hlength' := h'.longest front h.isPrefix h.holds
  exact (List.prefix_of_prefix_length_le h.isPrefix h'.isPrefix hlength').eq_of_length
    (Nat.le_antisymm hlength' hlength)

end Text

open Text (LongestPrefix)

namespace Reading

variable {σ : Type} {rule : σ → Char → List Char → Option σ} {P : List Char → Prop}
  {text source : List Char} {s : σ}

/-- A stretch is the longest prefix with a property, if the property holds
behind every character that is read and fails behind one that is not. -/
theorem longestPrefix_longest (Inv : List Char → σ → Prop) (before : List Char)
    (hstep : ∀ {before s c after s'}, before ++ c :: after = source → Inv before s →
      rule s c after = some s' → Inv (before ++ [c]) s')
    (hstop : ∀ {before s c after}, before ++ c :: after = source → Inv before s →
      rule s c after = none → ∀ more, ¬P (before ++ c :: more))
    (hholds : ∀ {before s}, Inv before s → P before)
    (hsource : before ++ text = source) (h : Inv before s) :
    LongestPrefix P (before ++ (longest rule s text).read) source := by
  induction text generalizing before s with
  | nil =>
      rw [longest_nil, hsource]
      exact ⟨List.prefix_rfl, hsource ▸ by simpa using hholds h, fun _ hmore _ => hmore.length_le⟩
  | cons c after ih =>
      cases hs : rule s c after with
      | some s' =>
          rw [longest_cons_of_some hs]
          have hbehind := ih (before ++ [c]) (by simpa using hsource) (hstep hsource h hs)
          simpa using hbehind
      | none =>
          rw [longest_cons_of_none hs, List.append_nil]
          refine ⟨⟨c :: after, hsource⟩, hholds h, fun more hmore hP => ?_⟩
          -- A longer prefix goes on with the character that is not read.
          by_contra hlonger
          have hfront : before <+: source := ⟨c :: after, hsource⟩
          obtain ⟨tail, rfl⟩ := List.prefix_of_prefix_length_le hfront hmore (by omega)
          rw [← hsource, List.prefix_append_right_inj] at hmore
          cases tail with
          | nil => simp at hlonger
          | cons d tail =>
              obtain rfl := (List.cons_prefix_cons.1 hmore).1
              exact hstop hsource h hs tail hP

end Reading

/-! ### Runs -/

namespace Numeral

/-- The text opens with the mark of base sixteen. -/
def HexMarked (text : List Char) : Prop :=
  ['0', 'x'] <+: text ∨ ['0', 'X'] <+: text

/-- The character may follow `before` in a number: a letter, a digit, an
underscore or a point always may, and a sign does behind the letter of the
exponent, which is another one in base sixteen. -/
inductive Continues (before : List Char) (c : Char) : Prop
  | plain (h : c.isAlphanum = true ∨ c = '_' ∨ c = '.')
  | decimalSign (hsign : c = '+' ∨ c = '-') (hbase : ¬HexMarked before)
      (hmark : before.getLast? = some 'e' ∨ before.getLast? = some 'E')
  | hexSign (hsign : c = '+' ∨ c = '-') (hbase : HexMarked before)
      (hmark : before.getLast? = some 'p' ∨ before.getLast? = some 'P')

/-- Each character may follow those before it in a number. -/
def IsRun (text : List Char) : Prop :=
  ∀ before c, before ++ [c] <+: text → Continues before c

/-- No characters are a run. -/
theorem isRun_nil : IsRun [] := by
  intro before c h
  simp at h

/-- A run goes on with a character that continues it. -/
theorem IsRun.concat {before : List Char} {c : Char} (h : IsRun before) (hc : Continues before c) :
    IsRun (before ++ [c]) :=
  Text.follows_concat h hc

/-- The base is decided by the first two characters. Where fewer are read,
there is no letter of an exponent yet. -/
theorem isExponentMark_last_iff (before rest : List Char) :
    isExponentMark (isHexMarked (before ++ rest)) (before.getLast?.getD ' ') = true ↔
      (¬HexMarked before ∧ (before.getLast? = some 'e' ∨ before.getLast? = some 'E')) ∨
        (HexMarked before ∧ (before.getLast? = some 'p' ∨ before.getLast? = some 'P')) := by
  match before with
  | [] => cases isHexMarked ([] ++ rest) <;> simp [isExponentMark, HexMarked]
  | [a] =>
      cases hmarked : isHexMarked ([a] ++ rest) with
      | false =>
          have hmark : isExponentMark false a = true ↔ a = 'e' ∨ a = 'E' := by
            simp [isExponentMark]
          simpa [HexMarked] using hmark
      | true =>
          -- What is read is the leading zero, which marks no exponent.
          obtain rfl : a = '0' := by
            rw [Lexeme.isHexMarked_iff] at hmarked
            rcases hmarked with h | h <;> exact (List.cons_prefix_cons.1 h).1.symm
          simp [isExponentMark]
  | a :: b :: before =>
      have hbase : isHexMarked (a :: b :: before ++ rest) = true ↔
          HexMarked (a :: b :: before) := by
        rw [Lexeme.isHexMarked_iff]
        simp [HexMarked]
      obtain ⟨last, hlast⟩ : ∃ last, (a :: b :: before).getLast? = some last := by
        simp [List.getLast?_cons]
      rw [hlast, Option.getD_some, ← hbase]
      cases isHexMarked (a :: b :: before ++ rest) <;> simp [isExponentMark]

/-- The rule of the lexer takes a character exactly when it continues the run.
-/
theorem isSome_runRule_iff (before : List Char) (c : Char) (after rest : List Char) :
    (runRule (isHexMarked (before ++ c :: after)) (before.getLast?.getD ' ') c rest).isSome = true ↔
      Continues before c := by
  have hmark := isExponentMark_last_iff before (c :: after)
  have hsign : isSign c = true ↔ c = '+' ∨ c = '-' := by
    simp [isSign]
  have hsome : (runRule (isHexMarked (before ++ c :: after)) (before.getLast?.getD ' ') c
      rest).isSome = true ↔ (c.isAlphanum = true ∨ c = '_' ∨ c = '.') ∨ isSign c = true ∧
        isExponentMark (isHexMarked (before ++ c :: after)) (before.getLast?.getD ' ') = true := by
    unfold runRule
    split
    · next h => simpa [or_assoc] using h
    · next h => simpa [or_assoc] using h
  rw [hsome, hsign, hmark]
  -- A sign continues a run behind one of the marks of an exponent, which depend on the
  -- base.
  constructor
  · rintro (h | ⟨hsign, ⟨hbase, hmark⟩ | ⟨hbase, hmark⟩⟩)
    · exact .plain h
    · exact .decimalSign hsign hbase hmark
    · exact .hexSign hsign hbase hmark
  · rintro (h | ⟨hsign, hbase, hmark⟩ | ⟨hsign, hbase, hmark⟩)
    · exact Or.inl h
    · exact Or.inr ⟨hsign, Or.inl ⟨hbase, hmark⟩⟩
    · exact Or.inr ⟨hsign, Or.inr ⟨hbase, hmark⟩⟩

end Numeral

open Numeral (IsRun)

namespace Lexeme

/-- A number is the longest run of the text. -/
theorem longestPrefix_number (text : List Char) : LongestPrefix IsRun (number text).text text := by
  -- The reading remembers the last character, a blank before the first one.
  refine Reading.longestPrefix_longest
    (fun before previous => IsRun before ∧ before.getLast?.getD ' ' = previous) []
    ?_ ?_ (fun h => h.1) rfl ⟨Numeral.isRun_nil, rfl⟩
  · rintro before _ c after s' rfl ⟨hrun, rfl⟩ hs
    have hc := (Numeral.isSome_runRule_iff before c after after).1 (by rw [hs]; rfl)
    refine ⟨hrun.concat hc, ?_⟩
    unfold Numeral.runRule at hs
    split at hs
    · cases hs
      simp
    · cases hs
  · rintro before _ c after rfl ⟨hrun, rfl⟩ hs more hmore
    have hc := hmore before c (by simp)
    have hsome := (Numeral.isSome_runRule_iff before c after after).2 hc
    rw [hs] at hsome
    cases hsome

variable {c : Char} {after : List Char}

/-- A number is judged by its grammar and its limit. -/
theorem kind_number_eq_iff (hopens : OpensNumber c after) :
    (number (c :: after)).kind = .numberLiteral ↔
      (number (c :: after)).text.length ≤ 65534 ∧
        (number (c :: after)).text ∈ Numeral.literal := by
  -- A number opens with a digit or a point.
  have hhead : ∀ d ∈ (number (c :: after)).text.head?, Numeral.isExponentMark false d = false := by
    intro d hd
    obtain ⟨rest, htext⟩ := List.head?_eq_some_iff.1 hd
    have hfront := (longestPrefix_number (c :: after)).isPrefix
    rw [htext] at hfront
    obtain rfl := (List.cons_prefix_cons.1 hfront).1
    rw [Bool.eq_false_iff]
    intro hmark
    have hmem := Numeral.mem_of_isExponentMark_false hmark
    simp only [List.mem_cons, List.not_mem_nil, or_false] at hmem
    rcases hmem with rfl | rfl <;> rcases hopens with h | ⟨h, -⟩ <;> cases h
  rw [← Numeral.isValid_iff_mem_literal hhead]
  show (if Numeral.isValid (number (c :: after)).text = true then
    bounded lexemeLimit .numberLiteral (number (c :: after)).text else .invalid) = _ ↔ _
  unfold bounded lexemeLimit
  split
  · next hvalid => simp [hvalid]
  · next hvalid => simp [hvalid]

/-- What begins as a number is one, or is invalid. -/
theorem kind_number_eq_or (text : List Char) :
    (number text).kind = .numberLiteral ∨ (number text).kind = .invalid := by
  unfold number
  dsimp only
  split
  · exact bounded_eq_or ..
  · exact Or.inr rfl

/-! ### Blanks -/

/-- Blanks are skipped as far as they go. -/
theorem blanks_of_skips {gap rest : List Char} (h : Skips .normal gap rest) :
    blanks (gap ++ rest) = ⟨gap, (), rest⟩ := by
  cases h with
  | onLine hmode _ _ => exact absurd rfl hmode
  | anywhere hgap hblank hjoint =>
      -- Over the blanks and joints of the gap; behind it the text refuses both.
      induction hgap with
      | nil =>
          cases rest with
          | nil => rfl
          | cons d rest =>
              refine blanks_cons_of_other ?_ ?_
              · rw [Bool.eq_false_iff]
                exact fun hd => hblank d rfl (Text.mem_of_isTokenBlank hd)
              · rintro ⟨rfl, hfeed⟩
                obtain ⟨more, rfl⟩ := List.head?_eq_some_iff.1 hfeed
                exact hjoint ⟨more, rfl⟩
      | blank hc _ ih =>
          rw [List.cons_append, blanks_cons_of_blank (isTokenBlank_of_mem hc), ih]
      | joint _ ih =>
          rw [List.cons_append, List.cons_append, blanks_cons_of_joint,
            blanks_cons_of_blank rfl, ih]

end Lexeme

namespace Cursor

variable {k : Cursor} {gap after : List Char} {c : Char}

/-- The token behind given blanks. -/
theorem next_of_skips (hunread : k.unread = gap ++ c :: after)
    (hskips : Skips .normal gap (c :: after)) :
    k.next .normal = (k.past gap (c :: after)).take (Lexeme.ofNormal c after) := by
  simp only [next, nextNormal, hunread, Lexeme.blanks_of_skips hskips]

open Lexeme (OpensNumber)

/-- Where a number begins behind the blanks, the longest run is taken as
one token. It is a number exactly when it is in the language of numbers and
within the limit, and invalid otherwise. -/
theorem next_number (hunread : k.unread = gap ++ c :: after)
    (hskips : Skips .normal gap (c :: after)) (hopens : OpensNumber c after) :
    ∃ t d, k.next .normal = (some t, d) ∧ t.position = k.position.past gap ∧
      c :: after = t.text.toList ++ d.unread ∧
      LongestPrefix IsRun t.text.toList (c :: after) ∧
      (t.kind = .numberLiteral ↔
        t.text.toList.length ≤ 65534 ∧ t.text.toList ∈ Numeral.literal) ∧
      (t.kind ≠ .numberLiteral → t.kind = .invalid) := by
  -- The blanks are passed, and what opens a number is read as one.
  have hnext := next_of_skips hunread hskips
  rw [Lexeme.ofNormal_of_opensNumber hopens] at hnext
  refine ⟨_, _, hnext, rfl, ?_, ?_, ?_, ?_⟩
  · rw [String.toList_ofList]
    exact (Reading.longest_read_append_rest ..).symm
  · rw [String.toList_ofList]
    exact Lexeme.longestPrefix_number (c :: after)
  · rw [String.toList_ofList]
    exact Lexeme.kind_number_eq_iff hopens
  · exact (Lexeme.kind_number_eq_or (c :: after)).resolve_left

/-- A hexadecimal float with a sign in its exponent, behind a blank. -/
theorem next_number_hexFloat :
    ∃ t d, (ofString " 0x1.8p+3f;").next .normal = (some t, d) ∧ t.position = ⟨1, 2⟩ ∧
      "0x1.8p+3f;".toList = t.text.toList ++ d.unread ∧
      LongestPrefix IsRun t.text.toList "0x1.8p+3f;".toList ∧
      (t.kind = .numberLiteral ↔
        t.text.toList.length ≤ 65534 ∧ t.text.toList ∈ Numeral.literal) ∧
      (t.kind ≠ .numberLiteral → t.kind = .invalid) := by
  have hunread : (ofString " 0x1.8p+3f;").unread = [' '] ++ '0' :: "x1.8p+3f;".toList := rfl
  exact next_number hunread (.anywhere (.blank (by decide) .nil) (by simp) (by simp)) (Or.inl rfl)

end Cursor

end CDeclarations
