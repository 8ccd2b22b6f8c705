import CDeclarations.Browser.SourcePane
import CDeclarations.Proofs.Text.Bytes

/-!
# `CDeclarations.Proofs.Browser.Highlight`: colours that keep the text

`highlight` cuts a line into stretches by its characters. The same spans come
out of one loop over the characters that slices comments and literals out of
the line by their bytes. `highlight?` is that loop, and it gives nothing at
all if one slice begins or ends anywhere but between two characters of the
line. The loop collects a word character by character and lays it down before
whatever ends it, and behind a backslash it may step over the end of the line.

* `behindLiteral_eq`: the loop leaves a literal where the rule of literals
  does, also when no mark closes it.
* `slice_literal`: its slice is there.
* `Stretched.exists_wordSpans`: the word that is laid down is a stretch.
* `spansFrom?_eq`: from every character on, the loop gives the stretches of
  what is left, so no slice is missing.
* `Stretched.join_text`: stretches lose, repeat and alter nothing.
* `highlight?_eq`: the main result, about every line.
-/

set_option autoImplicit false

namespace CDeclarations.SourcePane

open Screen Text

/-! ### The loop -/

/-- Where the literal that `quote` closes ends, from character `index` on. A
backslash takes one more character with it, be it there or not. -/
def literalEnd (chars : List (Nat × Char)) (quote : Char) (index : Nat) : Nat :=
  match h : charAt? chars index with
  | none => index
  | some c =>
      if c = quote then index
      else literalEnd chars quote (index + if c = '\\' then 2 else 1)
termination_by chars.length - index
decreasing_by
  have hlt := lt_length_of_charAt? h
  split <;> omega

/-- The loop never moves back. -/
theorem le_literalEnd (chars : List (Nat × Char)) (quote : Char) (index : Nat) :
    index ≤ literalEnd chars quote index := by
  fun_induction literalEnd chars quote index with
  | case1 => exact Nat.le_refl _
  | case2 => exact Nat.le_refl _
  | case3 index c hc hne ih => exact Nat.le_trans (Nat.le_add_right _ _) ih

/-- The character behind the literal that `quote` closes, from character
`index` on. There is none if the literal is open at the end of the line. -/
def behindLiteral (chars : List (Nat × Char)) (quote : Char) (index : Nat) : Nat :=
  min (literalEnd chars quote index + 1) chars.length

/-- Behind a literal is not before it. -/
theorem le_behindLiteral {chars : List (Nat × Char)} {index : Nat} (h : index ≤ chars.length)
    (quote : Char) : index ≤ behindLiteral chars quote index :=
  Nat.le_min.2 ⟨Nat.le_succ_of_le (le_literalEnd chars quote index), h⟩

/-- The span of a word, if there is one. -/
def wordSpans (word : List Char) : List Span :=
  if word = [] then [] else [⟨String.ofList word, wordStyle word⟩]

/-- The spans of a line from character `index` on, where `word` is collected
but not laid down. There are none if a slice is cut through a character. -/
def spansFrom? (line : String) (chars : List (Nat × Char)) (word : List Char) (index : Nat) :
    Option (List Span) :=
  match h : chars[index]? with
  | none => some (wordSpans word)
  | some (offset, c) =>
      if c = '/' ∧
          (charAt? chars (index + 1) = some '/' ∨ charAt? chars (index + 1) = some '*') then
        (byteSlice? line offset line.utf8ByteSize).map fun text =>
          wordSpans word ++ [⟨text, .colored Palette.muted⟩]
      else if c = '"' ∨ c = '\'' then
        (byteSlice? line offset (offsetAt line chars (behindLiteral chars c (index + 1)))).bind
          fun text => (spansFrom? line chars [] (behindLiteral chars c (index + 1))).map
            fun spans => wordSpans word ++ ⟨text, .colored Palette.literal⟩ :: spans
      else if isWordPart c then spansFrom? line chars (word ++ [c]) (index + 1)
      else
        (spansFrom? line chars [] (index + 1)).map fun spans =>
          wordSpans word ++ ⟨String.ofList [c], markStyle c⟩ :: spans
termination_by chars.length - index
decreasing_by
  all_goals have hlt : index < chars.length := (List.getElem?_eq_some_iff.1 h).1
  · have hle : index + 1 ≤ behindLiteral chars c (index + 1) := le_behindLiteral hlt c
    omega
  all_goals omega

/-- The spans of a line, which `highlight` gives too, in one loop. -/
def highlight? (line : String) : Option (List Span) :=
  if (line.toList.dropWhile isWhiteSpace).head? = some '#' then
    some [⟨line, .colored Palette.directive⟩]
  else spansFrom? line (charIndices 0 line.toList) [] 0

/-! ### Literals -/

/-- What a literal reads, by its first character. -/
theorem longest_literalRule_cons (quote c : Char) (after : List Char) :
    (Reading.longest (literalRule quote) .inside (c :: after)).read =
      c :: if c = quote then []
        else if c = '\\' then
          after.take 1 ++ (Reading.longest (literalRule quote) .inside (after.drop 1)).read
        else (Reading.longest (literalRule quote) .inside after).read := by
  rw [Reading.longest_cons_of_some rfl]
  refine congrArg (c :: ·) ?_
  split
  -- The mark closes the literal, and a closed one reads no more.
  · cases after <;> rfl
  split
  -- Behind a backslash any character is read, so that the next two go together.
  · cases after with
    | nil => rfl
    | cons d after => rw [Reading.longest_cons_of_some rfl]; rfl
  · rfl

/-- The loop leaves a literal where the rule of literals does. The closing mark
belongs to the literal, and so does all of a line without one. -/
theorem behindLiteral_eq {chars : List (Nat × Char)} {before after : List Char}
    (h : chars.map Prod.snd = before ++ after) (quote : Char) :
    behindLiteral chars quote before.length =
      before.length + (Reading.longest (literalRule quote) .inside after).read.length := by
  unfold behindLiteral
  generalize hindex : before.length = index
  fun_induction literalEnd chars quote index generalizing before after with
  | case1 index hc =>
      subst hindex
      obtain rfl := List.head?_eq_none_iff.1 ((charAt?_length h).symm.trans hc)
      rw [length_eq_of_map_snd h]
      exact Nat.min_eq_right (Nat.le_succ _)
  | case2 index hc =>
      subst hindex
      obtain ⟨after, rfl⟩ := List.head?_eq_some_iff.1 ((charAt?_length h).symm.trans hc)
      rw [longest_literalRule_cons, if_pos rfl, length_eq_of_map_snd h, List.length_cons]
      exact Nat.min_eq_left (by omega)
  | case3 index c hc hne ih =>
      subst hindex
      obtain ⟨after, rfl⟩ := List.head?_eq_some_iff.1 ((charAt?_length h).symm.trans hc)
      rw [longest_literalRule_cons, if_neg hne]
      have hnext := h.trans (List.append_cons before c after)
      split_ifs at ih ⊢ with hbackslash
      · cases after with
        | nil =>
            -- The backslash is the last character, and the loop steps over the end of
            -- the line. The rule stops there, and `min` takes the loop back.
            have hle := le_literalEnd chars quote (before.length + 2)
            rw [length_eq_of_map_snd h]
            exact Nat.min_eq_right (Nat.le_succ_of_le (Nat.le_trans (Nat.le_succ _) hle))
        | cons d after =>
            rw [ih (hnext.trans (List.append_cons _ d after)) (by simp)]
            simp only [List.length_cons, List.take_succ_cons, List.take_zero, List.cons_append,
              List.nil_append, List.drop_succ_cons, List.drop_zero]
            omega
      · rw [ih hnext (by simp), List.length_cons]
        omega

/-- The slice of a literal on a line is there, and the loop goes on where the
rule of literals leaves it. -/
theorem slice_literal {line : String} {before after : List Char} {c : Char}
    (h : line.toList = before ++ c :: after) :
    let chars := charIndices 0 line.toList
    let literal := Reading.longest (literalRule c) .inside after
    line.toList = before ++ c :: literal.read ++ literal.rest ∧
      behindLiteral chars c (before.length + 1) = (before ++ c :: literal.read).length ∧
      byteSlice? line (byteSize before) (offsetAt line chars (before ++ c :: literal.read).length) =
        some (String.ofList (c :: literal.read)) := by
  intro chars literal
  have hline : line.toList = before ++ c :: literal.read ++ literal.rest := by
    rw [h, List.append_assoc, List.cons_append, Reading.longest_read_append_rest]
  have hchars : chars.map Prod.snd = before ++ [c] ++ after := by
    rw [map_snd_charIndices, h, List.append_cons]
  refine ⟨hline, ?_, ?_⟩
  · rw [List.append_cons, List.length_append, ← behindLiteral_eq hchars c, List.length_append,
      List.length_singleton]
  · rw [offsetAt_charIndices hline, byteSlice?_eq hline]

/-! ### Words -/

/-- The stretch that a word part opens ends where the word does. -/
theorem stretch_word {c : Char} {word rest : List Char} (hword : ∀ d ∈ c :: word, isWordPart d)
    (hrest : ∀ d ∈ rest.head?, ¬isWordPart d) :
    stretch c (word ++ rest) = ⟨wordStyle (c :: word), c :: word, rest⟩ := by
  obtain ⟨hc, hword⟩ := List.forall_mem_cons.1 hword
  have hslash : c ≠ '/' := by rintro rfl; revert hc; decide
  have hquote : ¬(c = '"' ∨ c = '\'') := by rintro (rfl | rfl) <;> revert hc <;> decide
  have hread : Reading.span isWordPart (word ++ rest) = ⟨word, (), rest⟩ :=
    Reading.span_append hword fun d hd => eq_false_of_ne_true (hrest d hd)
  rw [stretch, if_neg (fun hcomment => hslash hcomment.1), if_neg hquote, if_pos hc, hread]

/-- A line that begins with a stretch has its span in front. -/
theorem Stretched.exists_of_stretch {c : Char} {after : List Char} {spans : List Span}
    {s : Stretch} (h : Stretched (c :: after) spans) (hs : stretch c after = s) :
    ∃ spans', spans = ⟨String.ofList s.read, s.style⟩ :: spans' ∧ Stretched s.rest spans' := by
  subst hs
  cases h with
  | cons h => exact ⟨_, rfl, h⟩

/-- A word that nothing prolongs is the first stretch of a line, unless it has
no character. -/
theorem Stretched.exists_wordSpans {word rest : List Char} {spans : List Span}
    (h : Stretched (word ++ rest) spans) (hword : ∀ c ∈ word, isWordPart c)
    (hrest : ∀ c ∈ rest.head?, ¬isWordPart c) :
    ∃ spans', spans = wordSpans word ++ spans' ∧ Stretched rest spans' := by
  cases word with
  | nil => exact ⟨spans, rfl, h⟩
  | cons c word => exact h.exists_of_stretch (stretch_word hword hrest)

/-- Behind a word comes the stretch of the character that ends it. -/
theorem Stretched.exists_behind_word {word after : List Char} {c : Char} {spans : List Span}
    {s : Stretch} (h : Stretched (word ++ c :: after) spans) (hword : ∀ d ∈ word, isWordPart d)
    (hc : ¬isWordPart c) (hs : stretch c after = s) :
    ∃ spans', spans = wordSpans word ++ ⟨String.ofList s.read, s.style⟩ :: spans' ∧
      Stretched s.rest spans' := by
  obtain ⟨_, rfl, hcut⟩ := h.exists_wordSpans hword (by rintro _ ⟨⟩; exact hc)
  obtain ⟨spans', rfl, htail⟩ := hcut.exists_of_stretch hs
  exact ⟨spans', rfl, htail⟩

/-! ### Stretches -/

/-- From every character of a line on, the loop gives the stretches of the word
that it has collected and of what is left of the line. -/
theorem spansFrom?_eq {line : String} {before word rest : List Char} {spans : List Span}
    (h : line.toList = before ++ rest) (hword : ∀ c ∈ word, isWordPart c)
    (hspans : Stretched (word ++ rest) spans) :
    spansFrom? line (charIndices 0 line.toList) word before.length = some spans := by
  -- By the recursion of the loop. Its place in the line is the characters before
  -- it, which `exists_of_getElem?_charIndices` turns into numbers and bytes.
  generalize hindex : before.length = index
  fun_induction spansFrom? line (charIndices 0 line.toList) word index generalizing
    before rest spans with
  | case1 word index hc =>
      -- The line has ended, and only the word is left.
      subst hindex
      rw [h, getElem?_charIndices, Option.map_eq_none_iff, List.head?_eq_none_iff] at hc
      subst hc
      obtain ⟨_, rfl, hcut⟩ := hspans.exists_wordSpans hword (by rintro _ ⟨⟩)
      cases hcut
      rw [List.append_nil]
  | case2 word index offset c hc hcomment =>
      -- A comment, which is sliced out up to the end of the line.
      subst hindex
      obtain ⟨after, rfl, rfl, hnext⟩ := exists_of_getElem?_charIndices h hc
      rw [hnext] at hcomment
      have hpart : ¬isWordPart c := by rw [hcomment.1]; decide
      obtain ⟨_, rfl, hcut⟩ := hspans.exists_behind_word hword hpart (if_pos hcomment)
      cases hcut
      have hslice := byteSlice?_eq (h.trans (List.append_nil _).symm)
      rw [← h, byteSize_toList] at hslice
      rw [hslice]
      rfl
  | case3 word index offset c hc hcomment hquote ih =>
      -- A literal, behind which no word is collected.
      subst hindex
      obtain ⟨after, rfl, rfl, hnext⟩ := exists_of_getElem?_charIndices h hc
      rw [hnext] at hcomment
      have hpart : ¬isWordPart c := by rcases hquote with rfl | rfl <;> decide
      obtain ⟨_, rfl, hcut⟩ := hspans.exists_behind_word hword hpart
        ((if_neg hcomment).trans (if_pos hquote))
      obtain ⟨hline, hbehind, hslice⟩ := slice_literal h
      rw [ih hline (List.forall_mem_nil _) hcut hbehind.symm, hbehind, hslice]
      rfl
  | case4 word index offset c hc hcomment hquote hpart ih =>
      -- One more character of the word.
      subst hindex
      obtain ⟨after, rfl, -⟩ := exists_of_getElem?_charIndices h hc
      have hword' : ∀ d ∈ word ++ [c], isWordPart d :=
        List.forall_mem_append.2 ⟨hword, List.forall_mem_singleton.2 hpart⟩
      rw [List.append_cons] at h hspans
      exact ih h hword' hspans List.length_append
  | case5 word index offset c hc hcomment hquote hpart ih =>
      -- A character that stands alone.
      subst hindex
      obtain ⟨after, rfl, -, hnext⟩ := exists_of_getElem?_charIndices h hc
      rw [hnext] at hcomment
      obtain ⟨_, rfl, hcut⟩ := hspans.exists_behind_word hword hpart
        ((if_neg hcomment).trans ((if_neg hquote).trans (if_neg hpart)))
      rw [List.append_cons] at h
      rw [ih h (List.forall_mem_nil _) hcut List.length_append]
      rfl

/-- What a line is cut into makes it up. -/
theorem Stretched.join_text {line : List Char} {spans : List Span} (h : Stretched line spans) :
    String.join (spans.map Span.text) = String.ofList line := by
  induction h with
  | nil => rfl
  | @cons c after spans h ih =>
      rw [List.map_cons, String.join_cons, ih, ← String.ofList_append, stretch_read_append_rest]

/-- On every line the loop finds all its slices and gives the spans that the
pane draws, and their texts one after another are the line. -/
theorem highlight?_eq (line : String) :
    highlight? line = some (highlight line.toList) ∧
      String.join ((highlight line.toList).map Span.text) = line := by
  by_cases hline : (line.toList.dropWhile isWhiteSpace).head? = some '#'
  · rw [highlight?, highlight, if_pos hline, if_pos hline, String.ofList_toList]
    exact ⟨rfl, by simp⟩
  · have hcut := stretched_highlight hline
    refine ⟨?_, by rw [hcut.join_text, String.ofList_toList]⟩
    rw [highlight?, if_neg hline]
    exact spansFrom?_eq (List.nil_append _).symm (List.forall_mem_nil _) hcut

end CDeclarations.SourcePane
