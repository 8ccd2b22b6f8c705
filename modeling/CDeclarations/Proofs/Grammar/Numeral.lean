import CDeclarations.Proofs.Text.Quoted
import CDeclarations.Token.Numeral
import Mathlib.Computability.Language
import Mathlib.Data.List.TakeWhile

/-!
# `CDeclarations.Proofs.Grammar.Numeral`: the language of numbers

`Numeral.literal` is the language of the spellings of numbers, form by
form. The judgement of a spelling (`Numeral.isValid`) cuts it up instead:
it splits the suffix off the end and the rest at its exponent mark and its
point. The two meet in two lemmas on how a product of languages is cut:

* `mem_mul_upTo_iff`: a suffix of letters that the words before it do not
  hold is the longest run of such letters at the end.
* `mem_mul_char_mul_iff`: a mark that the words before it do not hold is
  the first one.

`isValid_iff_mem_literal` holds of spellings that open with a digit, or
with a point and a digit, as all numbers do that are read from a text.
-/

set_option autoImplicit false

namespace CDeclarations.Numeral

/-! ### The forms of numbers -/

/-- One character in `p`. -/
def char (p : Char → Bool) : Language Char :=
  {w | ∃ c, w = [c] ∧ p c = true}

/-- Characters in `p`, in any number. -/
def run (p : Char → Bool) : Language Char :=
  {w | ∀ c ∈ w, p c = true}

/-- Characters in `p`, at least one. -/
def several (p : Char → Bool) : Language Char :=
  {w | w ≠ [] ∧ ∀ c ∈ w, p c = true}

/-- Characters in `p`, at most `n`. -/
def upTo (n : Nat) (p : Char → Bool) : Language Char :=
  {w | w.length ≤ n ∧ ∀ c ∈ w, p c = true}

/-- The value of an exponent. -/
def exponentValue : Language Char :=
  (1 + char isSign) * several Char.isDigit

/-- The exponent of a decimal number. -/
def exponent : Language Char :=
  char (isExponentMark false) * exponentValue

/-- A hexadecimal integer behind its base mark. -/
def hexInteger : Language Char :=
  several isHexDigit * upTo 3 isIntegerSuffix

/-- Hexadecimal digits, at least one, with at most one point. -/
def hexMantissa : Language Char :=
  {w | (∀ c ∈ w, isHexDigit c = true ∨ c = '.') ∧ w.count '.' ≤ 1 ∧ ∃ c ∈ w, isHexDigit c = true}

/-- A hexadecimal float behind its base mark. -/
def hexFloat : Language Char :=
  hexMantissa * (char (isExponentMark true) * (exponentValue * upTo 2 isFloatSuffix))

/-- A binary integer behind its base mark. -/
def binaryInteger : Language Char :=
  several isBinaryDigit * upTo 3 isIntegerSuffix

/-- The digits of an integer, which are octal behind a leading zero. -/
def wholeNumber : Language Char :=
  {w | w ∈ several Char.isDigit ∧
    (1 < w.length → w.head? = some '0' → ∀ c ∈ w, isOctalDigit c = true)}

/-- A decimal or octal integer. -/
def integer : Language Char :=
  wholeNumber * upTo 3 isIntegerSuffix

/-- Digits with a point among them. -/
def pointed : Language Char :=
  several Char.isDigit * (char (· = '.') * run Char.isDigit)
    + char (· = '.') * several Char.isDigit

/-- A decimal float with a point. -/
def pointedFloat : Language Char :=
  pointed * (1 + exponent) * upTo 3 isFloatSuffix

/-- A decimal float without a point. -/
def exponentFloat : Language Char :=
  several Char.isDigit * exponent * upTo 3 isFloatSuffix

/-- The letter of the base sixteen. -/
def isHexMark (c : Char) : Bool :=
  c = 'x' || c = 'X'

/-- The letter of the base two. -/
def isBinaryMark (c : Char) : Bool :=
  c = 'b' || c = 'B'

/-- The spellings of numbers. -/
def literal : Language Char :=
  char (· = '0') * (char isHexMark * (hexInteger + hexFloat))
    + char (· = '0') * (char isBinaryMark * binaryInteger)
    + (integer + (pointedFloat + exponentFloat))

/-! ### Products with a character -/

section Products

variable {p q : Char → Bool} {l m : Language Char} {c : Char} {text w : List Char}

/-- A run has only characters of its class. -/
@[simp] theorem mem_run : w ∈ run p ↔ ∀ c ∈ w, p c = true :=
  Iff.rfl

/-- Several characters of a class are a run that is not empty. -/
@[simp] theorem mem_several : w ∈ several p ↔ w ≠ [] ∧ ∀ c ∈ w, p c = true :=
  Iff.rfl

/-- A character of the class is taken from the front. -/
@[simp] theorem cons_mem_char_mul : c :: text ∈ char p * l ↔ p c = true ∧ text ∈ l := by
  rw [Language.mem_mul]
  constructor
  · rintro ⟨_, ⟨first, rfl, hp⟩, rest, hrest, h⟩
    obtain ⟨rfl, rfl⟩ := List.cons.inj h
    exact ⟨hp, hrest⟩
  · rintro ⟨hp, htext⟩
    exact ⟨[c], ⟨c, rfl, hp⟩, text, htext, rfl⟩

/-- A word with a character in front is not empty. -/
theorem nil_notMem_char_mul : [] ∉ char p * l := by
  rw [Language.mem_mul]
  rintro ⟨_, ⟨first, rfl, -⟩, rest, -, h⟩
  cases h

/-! ### Languages without a class of characters -/

/-- No word of the language holds a character in `p`. -/
def Free (p : Char → Bool) (l : Language Char) : Prop :=
  ∀ w ∈ l, ∀ c ∈ w, p c = false

/-- The words of two free languages are free. -/
theorem Free.add (hl : Free p l) (hm : Free p m) : Free p (l + m) := by
  intro w hw
  rcases (Language.mem_add l m w).1 hw with hw | hw
  · exact hl w hw
  · exact hm w hw

/-- Words put behind one another are free when both parts are. -/
theorem Free.mul (hl : Free p l) (hm : Free p m) : Free p (l * m) := by
  intro w hw c hc
  obtain ⟨before, hbefore, behind, hbehind, rfl⟩ := Language.mem_mul.1 hw
  rcases List.mem_append.1 hc with hc | hc
  · exact hl before hbefore c hc
  · exact hm behind hbehind c hc

/-- The empty word is free of every class. -/
theorem free_one : Free p 1 := by
  rintro w rfl c hc
  cases hc

/-- A word with a character of the class is not in a language that is free of
it. -/
theorem Free.notMem (h : Free p l) (hw : c ∈ w) (hc : p c = true) : w ∉ l := by
  intro hmem
  rw [h w hmem c hw] at hc
  cases hc

/-- Every word of the language holds a character in `p`. -/
def Marked (p : Char → Bool) (l : Language Char) : Prop :=
  ∀ w ∈ l, ∃ c ∈ w, p c = true

/-- The words of two marked languages are marked. -/
theorem Marked.add (hl : Marked p l) (hm : Marked p m) : Marked p (l + m) := by
  intro w hw
  rcases (Language.mem_add l m w).1 hw with hw | hw
  · exact hl w hw
  · exact hm w hw

/-- A mark in the first part marks the whole. -/
theorem Marked.mul_left (hl : Marked p l) (m : Language Char) : Marked p (l * m) := by
  intro w hw
  obtain ⟨before, hbefore, behind, -, rfl⟩ := Language.mem_mul.1 hw
  obtain ⟨c, hc, hp⟩ := hl before hbefore
  exact ⟨c, List.mem_append_left behind hc, hp⟩

/-- A mark in the second part marks the whole. -/
theorem Marked.mul_right (hm : Marked p m) (l : Language Char) : Marked p (l * m) := by
  intro w hw
  obtain ⟨before, -, behind, hbehind, rfl⟩ := Language.mem_mul.1 hw
  obtain ⟨c, hc, hp⟩ := hm behind hbehind
  exact ⟨c, List.mem_append_right before hc, hp⟩

/-- A single character of a smaller class is a mark. -/
theorem marked_char (h : ∀ c, q c = true → p c = true) : Marked p (char q) := by
  rintro w ⟨c, rfl, hc⟩
  exact ⟨c, List.mem_singleton_self c, h c hc⟩

/-- A word without a mark is not in a marked language. -/
theorem Marked.notMem (h : Marked p l) (hw : ∀ c ∈ w, p c = false) : w ∉ l := by
  intro hmem
  obtain ⟨c, hc, hp⟩ := h w hmem
  rw [hw c hc] at hp
  cases hp

/-- The classes have no character in common. -/
def Apart (p q : Char → Bool) : Prop :=
  ∀ c, q c = true → p c = false

/-- Being apart is symmetric. -/
theorem Apart.symm (h : Apart p q) : Apart q p := by
  intro c hp
  rw [Bool.eq_false_iff]
  intro hq
  rw [h c hq] at hp
  cases hp

/-- Whether a class is apart from one with few characters is seen by a
look at these. -/
theorem apart_of_mem {cs : List Char} (hp : ∀ c, p c = true → c ∈ cs)
    (hq : cs.all (fun c => !q c) = true) : Apart p q := by
  intro c hc
  rw [Bool.eq_false_iff]
  intro hpc
  have hno := List.all_eq_true.1 hq c (hp c hpc)
  rw [hc] at hno
  cases hno

/-- A character of one class is free of the other. -/
theorem Apart.free_char (h : Apart p q) : Free p (char q) := by
  rintro w ⟨c, rfl, hc⟩ d hd
  obtain rfl := List.mem_singleton.1 hd
  exact h d hc

/-- A run of one class is free of the other. -/
theorem Apart.free_run (h : Apart p q) : Free p (run q) :=
  fun _ hw c hc => h c (hw c hc)

/-- A run of one class that is not empty is free of the other as well. -/
theorem Apart.free_several (h : Apart p q) : Free p (several q) :=
  fun _ hw c hc => h c (hw.2 c hc)

/-- So is a run of limited length. -/
theorem Apart.free_upTo (h : Apart p q) (n : Nat) : Free p (upTo n q) :=
  fun _ hw c hc => h c (hw.2 c hc)

/-! ### The suffix -/

/-- The suffix is what was appended, when nothing in front of it has its
characters. -/
theorem splitSuffix_append {before suffix : List Char} (hbefore : ∀ c ∈ before, p c = false)
    (hsuffix : ∀ c ∈ suffix, p c = true) : splitSuffix p (before ++ suffix) = (before, suffix) := by
  -- Read from the back, the suffix is taken, and what stands before it stops the reading.
  have hback : ∀ c ∈ suffix.reverse, p c = true := fun c hc => hsuffix c (List.mem_reverse.1 hc)
  have hstop : before.reverse.takeWhile p = [] ∧ before.reverse.dropWhile p = before.reverse := by
    cases hb : before.reverse with
    | nil => exact ⟨rfl, rfl⟩
    | cons c rest =>
        have hc : ¬p c = true := by
          rw [hbefore c (List.mem_reverse.1 (hb ▸ List.mem_cons_self))]
          exact Bool.false_ne_true
        exact ⟨List.takeWhile_cons_of_neg hc, List.dropWhile_cons_of_neg hc⟩
  unfold splitSuffix
  dsimp only
  rw [List.reverse_append, List.dropWhile_append_of_pos hback, List.takeWhile_append_of_pos hback,
    hstop.1, hstop.2, List.append_nil, List.reverse_reverse, List.reverse_reverse]

/-- The two parts of a split are the text again. -/
theorem splitSuffix_fst_append_snd (p : Char → Bool) (text : List Char) :
    (splitSuffix p text).1 ++ (splitSuffix p text).2 = text := by
  show (text.reverse.dropWhile p).reverse ++ (text.reverse.takeWhile p).reverse = text
  rw [← List.reverse_append, List.takeWhile_append_dropWhile, List.reverse_reverse]

/-- A suffix has only characters of its class. -/
theorem of_mem_splitSuffix_snd (h : c ∈ (splitSuffix p text).2) : p c = true :=
  List.mem_takeWhile_imp (List.mem_reverse.1 h)

/-- A suffix of letters that the words before it do not hold is what is
split off the end. -/
theorem mem_mul_upTo_iff (hl : Free p l) (n : Nat) (text : List Char) :
    text ∈ l * upTo n p ↔ (splitSuffix p text).1 ∈ l ∧ (splitSuffix p text).2.length ≤ n := by
  constructor
  · intro h
    obtain ⟨before, hbefore, suffix, ⟨hlength, hsuffix⟩, rfl⟩ := Language.mem_mul.1 h
    rw [splitSuffix_append (hl before hbefore) hsuffix]
    exact ⟨hbefore, hlength⟩
  · rintro ⟨hbefore, hlength⟩
    rw [← splitSuffix_fst_append_snd p text]
    exact Language.append_mem_mul hbefore ⟨hlength, fun c => of_mem_splitSuffix_snd⟩

/-! ### The first mark -/

/-- A text is split at its first character in `p`, if it has one. -/
theorem splitAtFirst_cases (p : Char → Bool) (text : List Char) :
    ((∀ c ∈ text, p c = false) ∧ splitAtFirst p text = (text, none)) ∨
      ∃ before mark after, text = before ++ mark :: after ∧ (∀ c ∈ before, p c = false) ∧
        p mark = true ∧ splitAtFirst p text = (before, some after) := by
  induction text with
  | nil => exact Or.inl ⟨nofun, rfl⟩
  | cons c text ih =>
      -- The text is cut at its head, or where its tail is cut.
      cases hc : p c with
      | true =>
          refine Or.inr ⟨[], c, text, rfl, nofun, hc, ?_⟩
          simp [splitAtFirst, hc]
      | false =>
          have hcons : splitAtFirst p (c :: text) =
              (c :: (splitAtFirst p text).1, (splitAtFirst p text).2) := by
            simp only [splitAtFirst, List.takeWhile_cons, List.dropWhile_cons, hc, Bool.not_false,
              if_true]
            split <;> rfl
          rcases ih with ⟨hfree, hsplit⟩ | ⟨before, mark, after, rfl, hfree, hmark, hsplit⟩
          · exact Or.inl ⟨List.forall_mem_cons.2 ⟨hc, hfree⟩, by rw [hcons, hsplit]⟩
          · exact Or.inr ⟨c :: before, mark, after, rfl, List.forall_mem_cons.2 ⟨hc, hfree⟩,
              hmark, by rw [hcons, hsplit]⟩

/-- A mark that the words before it do not hold is the first one. -/
theorem mem_mul_char_mul_iff (hl : Free p l) {before after : List Char} {mark : Char}
    (hbefore : ∀ c ∈ before, p c = false) (hmark : p mark = true) :
    before ++ mark :: after ∈ l * (char p * m) ↔ before ∈ l ∧ after ∈ m := by
  constructor
  · intro h
    obtain ⟨word, hword, rest, hrest, heq⟩ := Language.mem_mul.1 h
    cases rest with
    | nil => exact absurd hrest nil_notMem_char_mul
    | cons first rest =>
        obtain ⟨hfirst, hrest⟩ := cons_mem_char_mul.1 hrest
        -- Both fronts go as far as the first mark.
        have hfree : ∀ c ∈ word, (!p c) = true := fun c hc => by rw [hl word hword c hc]; rfl
        have hfront : ∀ c ∈ before, (!p c) = true := fun c hc => by rw [hbefore c hc]; rfl
        obtain ⟨rfl, hbehind⟩ := Text.append_inj_of_class (fun c => !p c) hfree hfront
          (by simp [hfirst]) (by simp [hmark]) heq
        obtain ⟨-, rfl⟩ := List.cons.inj hbehind
        exact ⟨hword, hrest⟩
  · rintro ⟨hbefore, hafter⟩
    exact Language.append_mem_mul hbefore (cons_mem_char_mul.2 ⟨hmark, hafter⟩)

/-- A word without the mark is in no such product. -/
theorem notMem_mul_char_mul (h : ∀ c ∈ text, p c = false) : text ∉ l * (char p * m) :=
  ((marked_char fun _ hc => hc).mul_left m |>.mul_right l).notMem h

end Products

/-! ### The letters of suffixes, exponents and bases -/

section Letters

variable {q : Char → Bool}

/-- The letter of a base. -/
def isBaseMark (c : Char) : Bool :=
  isHexMark c || isBinaryMark c

/-- What makes a decimal number a float. -/
def isFloatMark (c : Char) : Bool :=
  c = '.' || isExponentMark false c

/-- The exponent of a decimal float begins with one of two letters. -/
theorem mem_of_isExponentMark_false {c : Char} (h : isExponentMark false c = true) :
    c ∈ ['e', 'E'] := by
  simpa [isExponentMark] using h

/-- The suffixes of an integer have four letters, and a class without them is
apart. -/
theorem apart_isIntegerSuffix (hq : ['u', 'U', 'l', 'L'].all (fun c => !q c) = true) :
    Apart isIntegerSuffix q :=
  apart_of_mem (fun c hc => by simpa [isIntegerSuffix, or_assoc] using hc) hq

/-- The suffixes of a float have four letters. -/
theorem apart_isFloatSuffix (hq : ['f', 'F', 'l', 'L'].all (fun c => !q c) = true) :
    Apart isFloatSuffix q :=
  apart_of_mem (fun c hc => by simpa [isFloatSuffix, or_assoc] using hc) hq

/-- A hexadecimal exponent begins with one of two letters. -/
theorem apart_isExponentMark_true (hq : ['p', 'P'].all (fun c => !q c) = true) :
    Apart (isExponentMark true) q :=
  apart_of_mem (fun c hc => by simpa [isExponentMark] using hc) hq

/-- A decimal exponent begins with one of two letters. -/
theorem apart_isExponentMark_false (hq : ['e', 'E'].all (fun c => !q c) = true) :
    Apart (isExponentMark false) q :=
  apart_of_mem (fun _ => mem_of_isExponentMark_false) hq

/-- A decimal float has a point or the letter of an exponent. -/
theorem apart_isFloatMark (hq : ['.', 'e', 'E'].all (fun c => !q c) = true) :
    Apart isFloatMark q :=
  apart_of_mem (fun c hc => by simpa [isFloatMark, isExponentMark] using hc) hq

/-- The point is one character. -/
theorem apart_point (hq : ['.'].all (fun c => !q c) = true) : Apart (· = '.') q :=
  apart_of_mem (fun c hc => by simpa using hc) hq

/-- The signs are two characters. -/
theorem apart_isSign (hq : ['+', '-'].all (fun c => !q c) = true) : Apart isSign q :=
  apart_of_mem (fun c hc => by simpa [isSign] using hc) hq

/-- The mark of a base is one of four letters. -/
theorem apart_isBaseMark (hq : ['x', 'X', 'b', 'B'].all (fun c => !q c) = true) :
    Apart isBaseMark q :=
  apart_of_mem (fun c hc => by simpa [isBaseMark, isHexMark, isBinaryMark, or_assoc] using hc) hq

end Letters

/-! ### The parts of a number -/

variable {text body : List Char}

/-- The validator's digits are the grammar's. -/
theorem isDigits_iff_mem_several (p : Char → Bool) (text : List Char) :
    isDigits p text = true ↔ text ∈ several p := by
  simp [isDigits]

/-- The validator's exponent value is the grammar's. -/
theorem isExponent_iff_mem_exponentValue (text : List Char) :
    isExponent text = true ↔ text ∈ exponentValue := by
  rw [exponentValue, add_mul, one_mul, Language.mem_add]
  cases text with
  | nil => exact iff_of_false Bool.false_ne_true (by simp [nil_notMem_char_mul])
  | cons c digits =>
      rw [isExponent, cons_mem_char_mul, ← isDigits_iff_mem_several, ← isDigits_iff_mem_several]
      cases hc : isSign c with
      | false => simp
      | true =>
          -- Behind a sign only the second form is left.
          have hdigit : c.isDigit = false := (apart_isSign (by decide)).symm c hc
          simp [isDigits, hdigit]

/-- An octal digit is a decimal digit. -/
theorem isDigit_of_isOctalDigit {c : Char} (h : isOctalDigit c = true) : c.isDigit = true := by
  simp only [isOctalDigit, Char.isDigit, Bool.and_eq_true, decide_eq_true_eq, Char.le_def] at *
  exact ⟨h.1, UInt32.le_trans h.2 (by decide)⟩

/-- A whole number, decimal or octal, is checked as the grammar writes it. -/
theorem isIntegerBody_iff_mem_wholeNumber (digits : List Char) :
    isIntegerBody digits = true ↔ digits ∈ wholeNumber := by
  unfold isIntegerBody
  split
  -- A leading zero with a digit behind it asks for octal digits.
  · next d rest =>
    rw [List.all_eq_true]
    constructor
    · intro hoctal
      have hall : ∀ c ∈ '0' :: d :: rest, isOctalDigit c = true :=
        List.forall_mem_cons.2 ⟨rfl, hoctal⟩
      exact ⟨⟨List.cons_ne_nil _ _, fun c hc => isDigit_of_isOctalDigit (hall c hc)⟩,
        fun _ _ => hall⟩
    · rintro ⟨-, hoctal⟩ c hc
      exact hoctal (by simp) rfl c (List.mem_cons_of_mem _ hc)
  · next hoctal =>
    rw [isDigits_iff_mem_several]
    refine ⟨fun h => ⟨h, fun hlength hzero => ?_⟩, fun h => h.1⟩
    -- A longer number with a leading zero is of the first form.
    obtain ⟨rest, rfl⟩ := List.head?_eq_some_iff.1 hzero
    cases rest with
    | nil => exact absurd hlength (Nat.lt_irrefl 1)
    | cons d rest => exact absurd rfl (hoctal d rest)

/-! ### Numbers behind a base mark -/

/-- What stands behind `0b` is checked as the grammar writes it. -/
theorem isBinaryBody_iff_mem_binaryInteger (body : List Char) :
    isBinaryBody body = true ↔ body ∈ binaryInteger := by
  rw [binaryInteger, mem_mul_upTo_iff (apart_isIntegerSuffix (by decide)).free_several,
    isBinaryBody, Bool.and_eq_true, isDigits_iff_mem_several, decide_eq_true_eq]

/-- A hexadecimal mantissa has one point at most, and a digit somewhere. -/
theorem mantissa_iff_mem_hexMantissa (text : List Char) :
    (text.count '.' ≤ 1 ∧ isDigits isHexDigit (text.filter (· ≠ '.')) = true) ↔
      text ∈ hexMantissa := by
  rw [isDigits_iff_mem_several]
  -- Without its points the mantissa is what the digits are counted in.
  constructor
  · rintro ⟨hcount, hne, hdigits⟩
    obtain ⟨c, hc⟩ := List.exists_mem_of_ne_nil _ hne
    refine ⟨fun c hc => ?_, hcount, c, (List.mem_filter.1 hc).1, hdigits c hc⟩
    by_cases hpoint : c = '.'
    · exact Or.inr hpoint
    · exact Or.inl (hdigits c (List.mem_filter.2 ⟨hc, decide_eq_true hpoint⟩))
  · rintro ⟨hall, hcount, c, hc, hdigit⟩
    have hpoint : c ≠ '.' := by
      rintro rfl
      cases hdigit
    refine ⟨hcount, List.ne_nil_of_mem (List.mem_filter.2 ⟨hc, decide_eq_true hpoint⟩), ?_⟩
    intro d hd
    obtain ⟨hd, hne⟩ := List.mem_filter.1 hd
    exact (hall d hd).resolve_right (of_decide_eq_true hne)

/-- No hexadecimal mantissa has the letter of an exponent. -/
theorem free_isExponentMark_hexMantissa : Free (isExponentMark true) hexMantissa := by
  intro w hw c hc
  rcases hw.1 c hc with hdigit | rfl
  · exact apart_isExponentMark_true (by decide) c hdigit
  · rfl

/-- No hexadecimal integer has the letter of an exponent. -/
theorem free_isExponentMark_hexInteger : Free (isExponentMark true) hexInteger :=
  (apart_isExponentMark_true (by decide)).free_several.mul
    ((apart_isExponentMark_true (by decide)).free_upTo 3)

/-- The value of an exponent has no letter of a suffix. -/
theorem free_isFloatSuffix_exponentValue : Free isFloatSuffix exponentValue :=
  (free_one.add (apart_isFloatSuffix (by decide)).free_char).mul
    (apart_isFloatSuffix (by decide)).free_several

/-- No hexadecimal integer has a point. -/
theorem free_point_hexInteger : Free (· = '.') hexInteger :=
  (apart_point (by decide)).free_several.mul
    ((apart_point (by decide)).free_upTo 3)

/-- What stands behind `0x` is checked as the grammar writes it, whether it is
an integer or a float. -/
theorem isHexBody_iff_mem (body : List Char) :
    isHexBody body = true ↔ body ∈ hexInteger + hexFloat := by
  rw [Language.mem_add]
  rcases splitAtFirst_cases (isExponentMark true) body with
    ⟨hfree, hsplit⟩ | ⟨before, mark, after, rfl, hbefore, hmark, hsplit⟩
  · -- Without an exponent the number is an integer.
    have hfloat : body ∉ hexFloat := notMem_mul_char_mul hfree
    have hpoint : body ∈ hexInteger → (!body.contains '.') = true := by
      intro h
      simpa using fun hmem => free_point_hexInteger.notMem hmem (decide_eq_true rfl) h
    have hinteger : body ∈ hexInteger ↔
        isDigits isHexDigit (splitSuffix isIntegerSuffix body).1 = true ∧
          (splitSuffix isIntegerSuffix body).2.length ≤ 3 := by
      rw [hexInteger, mem_mul_upTo_iff (apart_isIntegerSuffix (by decide)).free_several,
        isDigits_iff_mem_several]
    rw [or_iff_left hfloat, ← and_iff_right_of_imp hpoint, hinteger]
    simp only [isHexBody, hsplit, Bool.and_eq_true, decide_eq_true_eq, and_assoc]
  · -- With one it is a float, which is split where the words are.
    have hinteger : before ++ mark :: after ∉ hexInteger :=
      free_isExponentMark_hexInteger.notMem (by simp) hmark
    rw [or_iff_right hinteger, hexFloat,
      mem_mul_char_mul_iff free_isExponentMark_hexMantissa hbefore hmark,
      mem_mul_upTo_iff free_isFloatSuffix_exponentValue, ← mantissa_iff_mem_hexMantissa,
      ← isExponent_iff_mem_exponentValue]
    simp only [isHexBody, hsplit, Bool.and_eq_true, decide_eq_true_eq]
    tauto

/-! ### Decimal numbers -/

/-- The digits of a float, with at most one point among them. The empty text
passes the check and is no word. -/
theorem isMantissa_iff_mem {text : List Char} (hne : text ≠ []) :
    isMantissa text = true ↔ text ∈ pointed + several Char.isDigit := by
  -- Both words with a point take the form that is split at it.
  rw [pointed, ← one_mul (char (· = '.') * several Char.isDigit), Language.mem_add,
    Language.mem_add]
  rcases splitAtFirst_cases (· = '.') text with
    ⟨hfree, hsplit⟩ | ⟨before, mark, after, rfl, hbefore, hmark, hsplit⟩
  · rw [or_iff_left (notMem_mul_char_mul hfree), or_iff_right (notMem_mul_char_mul hfree),
      mem_several, and_iff_right hne]
    simp only [isMantissa, hsplit, List.all_eq_true]
  · have hpoint : Free (· = '.') (several Char.isDigit) :=
      (apart_point (by decide)).free_several
    have hdigits : before ++ mark :: after ∉ several Char.isDigit :=
      hpoint.notMem (by simp) hmark
    rw [or_iff_left hdigits, mem_mul_char_mul_iff hpoint hbefore hmark,
      mem_mul_char_mul_iff free_one hbefore hmark, Language.mem_one]
    simp only [isMantissa, hsplit, Bool.and_eq_true, List.all_eq_true, mem_several, mem_run,
      Bool.not_eq_true', Bool.and_eq_false_iff, List.isEmpty_eq_false_iff]
    cases before with
    | nil => simp [and_comm]
    | cons c before => simp

section Free

variable {p : Char → Bool}

/-- A number with a point is free of what is neither a digit nor the point. -/
theorem free_pointed (hdigit : Apart p Char.isDigit) (hpoint : Apart p (· = '.')) :
    Free p pointed :=
  (hdigit.free_several.mul (hpoint.free_char.mul hdigit.free_run)).add
    (hpoint.free_char.mul hdigit.free_several)

/-- An exponent is free of what is not one of its parts. -/
theorem free_exponent (hdigit : Apart p Char.isDigit) (hmark : Apart p (isExponentMark false))
    (hsign : Apart p isSign) : Free p exponent :=
  hmark.free_char.mul ((free_one.add hsign.free_char).mul hdigit.free_several)

/-- The words of decimal floats, suffixes apart. -/
theorem free_decimalFloat (hdigit : Apart p Char.isDigit) (hpoint : Apart p (· = '.'))
    (hmark : Apart p (isExponentMark false)) (hsign : Apart p isSign) :
    Free p (pointed * (1 + exponent) + several Char.isDigit * exponent) :=
  ((free_pointed hdigit hpoint).mul (free_one.add (free_exponent hdigit hmark hsign))).add
    (hdigit.free_several.mul (free_exponent hdigit hmark hsign))

end Free

/-- Decimal floats, suffixes apart. A number does not open with the mark of
an exponent, so that something stands before the first mark. -/
theorem isFloatBody_iff_mem (hhead : ∀ c ∈ body.head?, isExponentMark false c = false)
    (hmark : ∃ c ∈ body, isFloatMark c = true) :
    isFloatBody body = true ↔
      body ∈ pointed * (1 + exponent) + several Char.isDigit * exponent := by
  -- The grammar's words are told apart by their exponent first.
  rw [mul_add, mul_one, exponent, Language.mem_add, Language.mem_add]
  rcases splitAtFirst_cases (isExponentMark false) body with
    ⟨hfree, hsplit⟩ | ⟨before, mark, after, rfl, hbefore, hexponent, hsplit⟩
  · -- Without an exponent, the point is what makes it a float.
    have hpoint : body ∉ several Char.isDigit := by
      intro h
      obtain ⟨c, hc, hmark⟩ := hmark
      exact (apart_isFloatMark (by decide)).free_several.notMem hc hmark h
    rw [or_iff_left (notMem_mul_char_mul hfree), or_iff_left (notMem_mul_char_mul hfree),
      ← or_iff_left (a := body ∈ pointed) hpoint, ← Language.mem_add, ← isMantissa_iff_mem]
    · simp only [isFloatBody, hsplit]
    · rintro rfl
      obtain ⟨c, hc, -⟩ := hmark
      cases hc
  · -- With one, only the words that have it are left, and all are split at it.
    have hne : before ≠ [] := by
      rintro rfl
      rw [hhead mark rfl] at hexponent
      cases hexponent
    have hdigit : Apart (isExponentMark false) Char.isDigit :=
      apart_isExponentMark_false (by decide)
    have hfree : Free (isExponentMark false) pointed :=
      free_pointed hdigit (apart_isExponentMark_false (by decide))
    have hpointed : before ++ mark :: after ∉ pointed :=
      hfree.notMem (by simp) hexponent
    rw [or_iff_right hpointed, mem_mul_char_mul_iff hfree hbefore hexponent,
      mem_mul_char_mul_iff hdigit.free_several hbefore hexponent, ← or_and_right,
      ← Language.mem_add, ← isMantissa_iff_mem hne, ← isExponent_iff_mem_exponentValue]
    simp only [isFloatBody, hsplit, Bool.and_eq_true]

/-- An integer is free of what is neither a digit nor a suffix. -/
theorem free_integer {p : Char → Bool} (hdigit : Apart p Char.isDigit)
    (hsuffix : Apart p isIntegerSuffix) : Free p integer :=
  Free.mul (fun w hw => hdigit.free_several w hw.1) (hsuffix.free_upTo 3)

/-- Integers are told from decimal floats: they have neither a point nor an
exponent. -/
theorem free_isFloatMark_integer : Free isFloatMark integer :=
  free_integer (apart_isFloatMark (by decide)) (apart_isFloatMark (by decide))

/-- Every decimal float has a point or an exponent. -/
theorem marked_decimalFloat : Marked isFloatMark (pointedFloat + exponentFloat) := by
  have hpoint : Marked isFloatMark (char (· = '.')) := marked_char fun c hc => by
    rw [isFloatMark, hc, Bool.true_or]
  have hexponent : Marked isFloatMark exponent :=
    (marked_char fun c hc => by rw [isFloatMark, hc, Bool.or_true]).mul_left exponentValue
  have hpointed : Marked isFloatMark pointed :=
    ((hpoint.mul_left _).mul_right _).add (hpoint.mul_left _)
  exact ((hpointed.mul_left _).mul_left _).add ((hexponent.mul_right _).mul_left _)

/-- What makes a number a float stands before its suffix. -/
theorem mem_splitSuffix_fst {mark : Char} (hmem : mark ∈ text) (hmark : isFloatMark mark = true) :
    mark ∈ (splitSuffix isFloatSuffix text).1 := by
  rw [← splitSuffix_fst_append_snd isFloatSuffix text] at hmem
  refine (List.mem_append.1 hmem).resolve_right fun hsuffix => ?_
  have hno : isFloatMark mark = false :=
    (apart_isFloatSuffix (by decide)).symm mark (of_mem_splitSuffix_snd hsuffix)
  rw [hmark] at hno
  cases hno

/-- The body of a number opens as the number does. -/
theorem head?_splitSuffix_fst {p : Char → Bool} {c : Char}
    (h : c ∈ (splitSuffix p text).1.head?) : c ∈ text.head? := by
  rw [← splitSuffix_fst_append_snd p text]
  exact List.mem_head?_append_of_mem_head? h

/-- A number without a base mark is checked as the grammar writes it. -/
theorem isDecimal_iff_mem (hhead : ∀ c ∈ text.head?, isExponentMark false c = false) :
    isDecimal text = true ↔ text ∈ integer + (pointedFloat + exponentFloat) := by
  rw [Language.mem_add, isDecimal]
  split
  · -- With a point or an exponent the number is no integer.
    next hany =>
    obtain ⟨mark, hmem, hmark⟩ : ∃ c ∈ text, isFloatMark c = true := List.any_eq_true.1 hany
    have hbody := mem_splitSuffix_fst hmem hmark
    have hne : (!(splitSuffix isFloatSuffix text).1.isEmpty) = true := by
      simpa using List.ne_nil_of_mem hbody
    have hfree : Free isFloatSuffix
        (pointed * (1 + exponent) + several Char.isDigit * exponent) :=
      free_decimalFloat (apart_isFloatSuffix (by decide)) (apart_isFloatSuffix (by decide))
        (apart_isFloatSuffix (by decide)) (apart_isFloatSuffix (by decide))
    rw [or_iff_right (free_isFloatMark_integer.notMem hmem hmark), pointedFloat, exponentFloat,
      ← add_mul, mem_mul_upTo_iff hfree,
      ← isFloatBody_iff_mem (fun c hc => hhead c (head?_splitSuffix_fst hc)) ⟨mark, hbody, hmark⟩]
    simp only [hne, Bool.and_true, Bool.and_eq_true, decide_eq_true_eq, and_comm]
  · -- Without them it is no float.
    next hany =>
    have hfloat : text ∉ pointedFloat + exponentFloat := by
      refine marked_decimalFloat.notMem fun c hc => ?_
      rw [Bool.eq_false_iff]
      exact fun hmark => hany (List.any_eq_true.2 ⟨c, hc, hmark⟩)
    rw [or_iff_left hfloat, integer, mem_mul_upTo_iff, ← isIntegerBody_iff_mem_wholeNumber]
    · simp only [Bool.and_eq_true, decide_eq_true_eq, and_comm]
    · exact fun w hw => (apart_isIntegerSuffix (by decide)).free_several w hw.1

/-- No decimal number has the letter of another base. -/
theorem free_isBaseMark_decimal : Free isBaseMark (integer + (pointedFloat + exponentFloat)) := by
  have hfloat := free_decimalFloat (p := isBaseMark) (apart_isBaseMark (by decide))
    (apart_isBaseMark (by decide)) (apart_isBaseMark (by decide)) (apart_isBaseMark (by decide))
  rw [pointedFloat, exponentFloat, ← add_mul]
  exact (free_integer (apart_isBaseMark (by decide)) (apart_isBaseMark (by decide))).add
    (hfloat.mul ((apart_isBaseMark (by decide)).free_upTo 3))

/-! ### All numbers -/

/-- A number with the letter of a base behind a leading zero. -/
theorem mem_based_iff {p : Char → Bool} {l : Language Char} :
    text ∈ char (· = '0') * (char p * l) ↔
      ∃ mark rest, text = '0' :: mark :: rest ∧ p mark = true ∧ rest ∈ l := by
  constructor
  · intro h
    cases text with
    | nil => exact absurd h nil_notMem_char_mul
    | cons zero rest =>
        obtain ⟨hzero, hrest⟩ := cons_mem_char_mul.1 h
        cases rest with
        | nil => exact absurd hrest nil_notMem_char_mul
        | cons mark rest =>
            exact ⟨mark, rest, by rw [of_decide_eq_true hzero], cons_mem_char_mul.1 hrest⟩
  · rintro ⟨mark, rest, rfl, h⟩
    exact cons_mem_char_mul.2 ⟨decide_eq_true rfl, cons_mem_char_mul.2 h⟩

/-- A text is judged to be a number exactly when it is spelled like one. -/
theorem isValid_iff_mem_literal (hhead : ∀ c ∈ text.head?, isExponentMark false c = false) :
    isValid text = true ↔ text ∈ literal := by
  -- A number with a base mark is of no decimal form.
  have hdecimal : ∀ c rest, isBaseMark c = true →
      '0' :: c :: rest ∉ integer + (pointedFloat + exponentFloat) := fun c rest hc =>
    free_isBaseMark_decimal.notMem (by simp) hc
  rw [literal, Language.mem_add, Language.mem_add]
  unfold isValid
  split
  · rw [or_iff_left (hdecimal _ _ rfl), isHexBody_iff_mem]
    simp [isHexMark, isBinaryMark]
  · rw [or_iff_left (hdecimal _ _ rfl), isHexBody_iff_mem]
    simp [isHexMark, isBinaryMark]
  · rw [or_iff_left (hdecimal _ _ rfl), isBinaryBody_iff_mem_binaryInteger]
    simp [isHexMark, isBinaryMark]
  · rw [or_iff_left (hdecimal _ _ rfl), isBinaryBody_iff_mem_binaryInteger]
    simp [isHexMark, isBinaryMark]
  · next hx hX hb hB =>
    rw [isDecimal_iff_mem hhead, or_iff_right]
    rw [mem_based_iff, mem_based_iff]
    -- A word of a form with a base would have its mark as second character.
    rintro (⟨mark, rest, htext, hmark, -⟩ | ⟨mark, rest, htext, hmark, -⟩)
    · simp only [isHexMark, Bool.or_eq_true, decide_eq_true_eq] at hmark
      rcases hmark with rfl | rfl
      · exact hx rest htext
      · exact hX rest htext
    · simp only [isBinaryMark, Bool.or_eq_true, decide_eq_true_eq] at hmark
      rcases hmark with rfl | rfl
      · exact hb rest htext
      · exact hB rest htext

end CDeclarations.Numeral
