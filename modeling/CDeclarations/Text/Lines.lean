/-!
# `CDeclarations.Text.Lines`: physical and logical lines

A backslash at the end of a line joins the line to the next one.
`joinLines` removes every such joint, in one pass from left to right;
the end of a line may be written with or without a carriage return.
`lines` cuts a text into the lines of a display.

* `length_lines`: how many these are.
-/

set_option autoImplicit false

namespace CDeclarations.Text

/-- Joins the lines of the text behind `joined`, the latest character
of which comes first. -/
private def joinLoop (joined : List Char) : List Char → List Char
  | [] => joined.reverse
  | '\\' :: '\n' :: after => joinLoop joined after
  | '\\' :: '\r' :: '\n' :: after => joinLoop joined after
  | c :: after => joinLoop (c :: joined) after

/-- The text with every backslash-newline pair removed. -/
def joinLines (text : List Char) : List Char :=
  joinLoop [] text

/-- What was joined before stays in front of the rest, reversed as it was
collected. -/
private theorem joinLoop_eq (joined text : List Char) :
    joinLoop joined text = joined.reverse ++ joinLines text := by
  induction h : text.length using Nat.strongRecOn generalizing joined text with
  | ind n ih =>
      subst h
      unfold joinLines joinLoop
      split
      · simp
      · exact ih _ (by simp only [List.length_cons]; omega) _ _ rfl
      · exact ih _ (by simp only [List.length_cons]; omega) _ _ rfl
      · rw [ih _ (by simp) _ _ rfl, ih _ (by simp) [_] _ rfl]
        simp

/-- Nothing joins to nothing. -/
@[simp] theorem joinLines_nil : joinLines [] = [] := rfl

/-- A joint at the front is dropped. -/
@[simp] theorem joinLines_joint (after : List Char) :
    joinLines ('\\' :: '\n' :: after) = joinLines after := rfl

/-- A joint with a carriage return is dropped as well. -/
@[simp] theorem joinLines_joint_carriage (after : List Char) :
    joinLines ('\\' :: '\r' :: '\n' :: after) = joinLines after := rfl

/-- A character that opens no joint stays. -/
theorem joinLines_cons {c : Char} {after : List Char}
    (h : c ≠ '\\' ∨ (after.head? ≠ some '\n' ∧ after.take 2 ≠ ['\r', '\n'])) :
    joinLines (c :: after) = c :: joinLines after := by
  rw [joinLines, joinLoop]
  · simp [joinLoop_eq]
  · rintro rest rfl rfl
    simp at h
  · rintro rest rfl rfl
    simp at h

/-- Cuts a text behind each line feed; the text behind the last one is
a line unless it is empty. `line` holds the characters of the current
line and `done` the finished lines, the latest first in both. -/
private def linesLoop (line : List Char) (done : List (List Char)) :
    List Char → List (List Char)
  | [] => (if line.isEmpty then done else line.reverse :: done).reverse
  | '\n' :: after =>
      -- Only a carriage return directly before the line feed belongs to it.
      let ended := match line with
        | '\r' :: rest => rest
        | _ => line
      linesLoop [] (ended.reverse :: done) after
  | c :: after => linesLoop (c :: line) done after

/-- The lines of a text as a display shows them: a line ends with a
line feed, which one carriage return may precede, or with the text. A
line feed at the end of the text opens no further line. -/
def lines (text : List Char) : List (List Char) :=
  linesLoop [] [] text

/-- No line is open behind the text, of which `line` is the part that was
read of its first line before. -/
private def Ended (line text : List Char) : Prop :=
  (line = [] ∧ text = []) ∨ text.getLast? = some '\n'

private instance (line text : List Char) : Decidable (Ended line text) :=
  inferInstanceAs (Decidable (_ ∨ _))

/-- Behind a line feed a new line is begun. -/
private theorem ended_feed_iff (line after : List Char) :
    Ended line ('\n' :: after) ↔ Ended [] after := by
  cases after with
  | nil => simp [Ended]
  | cons c after => simp [Ended, List.getLast?_cons_cons]

/-- Any other character goes into the line under way. -/
private theorem ended_cons_iff {c : Char} (hc : c ≠ '\n') (line after : List Char) :
    Ended line (c :: after) ↔ Ended (c :: line) after := by
  cases after with
  | nil => simp [Ended, hc]
  | cons d after => simp [Ended, List.getLast?_cons_cons]

/-- There is one line for each line feed, and one for a rest without a line
feed. -/
private theorem length_linesLoop (line : List Char) (done : List (List Char)) (text : List Char) :
    (linesLoop line done text).length =
      done.length + text.count '\n' + if Ended line text then 0 else 1 := by
  fun_induction linesLoop line done text with
  | case1 line done =>
      cases line with
      | nil => simp [Ended]
      | cons c line => simp [Ended]
  | case2 line done after ended ih =>
      simp only [ih, List.length_cons, List.count_cons_self, ended_feed_iff]
      omega
  | case3 line done c after hc ih =>
      have hfeed : c ≠ '\n' := fun h => hc h
      simp only [ih, List.count_cons_of_ne hfeed, ended_cons_iff hfeed]

/-- A text has a line for each line feed, and one for what stands behind the
last of them. -/
theorem length_lines (text : List Char) :
    (lines text).length =
      text.count '\n' + if text = [] ∨ text.getLast? = some '\n' then 0 else 1 := by
  have h := length_linesLoop [] [] text
  rw [List.length_nil, Nat.zero_add] at h
  rw [lines, h]
  congr 1
  simp [Ended]

end CDeclarations.Text
