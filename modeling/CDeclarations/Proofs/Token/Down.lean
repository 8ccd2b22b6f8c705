import CDeclarations.Token.Cursor

/-!
# `CDeclarations.Proofs.Token.Down`: the same text further down

The tokens of a text do not depend on the line where it begins: further
down they are the same, each as many lines further down
(`Cursor.next_down`). `Position.past_start` says where a text that ends
with a line feed leads to.
-/

set_option autoImplicit false

namespace CDeclarations

namespace Position

/-- The position some lines further down. -/
def down (p : Position) (lines : Nat) : Position :=
  ⟨p.line + lines, p.column⟩

/-- Moving a position down by lines leaves its next position moved down as
well. -/
theorem next_down (p : Position) (lines : Nat) (c : Char) :
    (p.down lines).next c = (p.next c).down lines := by
  unfold next
  split
  · show Position.mk (p.line + lines + 1) 1 = Position.mk (p.line + 1 + lines) 1
    rw [Nat.add_right_comm]
  · rfl

/-- A position moved down is moved down behind any text. -/
theorem past_down (p : Position) (lines : Nat) (cs : List Char) :
    (p.down lines).past cs = (p.past cs).down lines := by
  induction cs generalizing p with
  | nil => rfl
  | cons c cs ih => rw [past_cons, past_cons, next_down, ih]

/-- The lines of a text are counted by its line feeds. -/
theorem line_past (p : Position) (cs : List Char) :
    (p.past cs).line = p.line + cs.count '\n' := by
  induction cs generalizing p with
  | nil => rfl
  | cons c cs ih =>
      rw [past_cons, ih, next]
      by_cases hc : c = '\n'
      · rw [if_pos hc, hc, List.count_cons_self]
        show p.line + 1 + _ = _
        omega
      · rw [if_neg hc, List.count_cons_of_ne hc]

/-- Behind a line feed a new line begins. -/
theorem past_start {cs : List Char} (h : ['\n'] <:+ cs) :
    start.past cs = start.down (cs.count '\n') := by
  -- The line feeds give the line, and the last of them sets the column back.
  obtain ⟨before, rfl⟩ := h
  have hline := line_past start (before ++ ['\n'])
  have hcolumn : (start.past (before ++ ['\n'])).column = 1 := by
    rw [past_append]
    rfl
  cases hp : start.past (before ++ ['\n']) with
  | mk line column =>
      rw [hp] at hline hcolumn
      show Position.mk line column = Position.mk (start.line + _) 1
      rw [← hline, ← hcolumn]

end Position

/-- The token some lines further down. -/
def Token.down (t : Token) (lines : Nat) : Token :=
  { t with position := t.position.down lines }

namespace Cursor

/-- The cursor on the same text some lines further down. -/
def down (c : Cursor) (lines : Nat) : Cursor :=
  { c with position := c.position.down lines }

/-- A cursor moved down goes past a text as it would have. -/
theorem past_down (c : Cursor) (lines : Nat) (read rest : List Char) :
    (c.down lines).past read rest = (c.past read rest).down lines := by
  show Cursor.mk rest ((c.position.down lines).past read) = _
  rw [Position.past_down]
  rfl

/-- A cursor moved down takes the same lexeme, further down. -/
theorem take_down (c : Cursor) (lines : Nat) (x : Lexeme) :
    (c.down lines).take x = ((c.take x).1.map (·.down lines), (c.take x).2.down lines) := by
  rw [take, past_down]
  rfl

/-- A token is read further down as it is read here. -/
theorem next_down (c : Cursor) (lines : Nat) (mode : TokenMode) :
    (c.down lines).next mode =
      ((c.next mode).1.map (·.down lines), (c.next mode).2.down lines) := by
  have hunread : (c.down lines).unread = c.unread := rfl
  -- No mode looks at the position.
  cases mode with
  | normal =>
      simp only [next, nextNormal, hunread, past_down]
      split
      · rfl
      · exact take_down _ _ _
  | includeName =>
      simp only [next, nextIncludeName, hunread, past_down]
      split
      · rfl
      · exact take_down _ _ _
  | defineBody =>
      simp only [next, nextDefineBody, hunread, past_down]
      exact take_down _ _ _

end Cursor

end CDeclarations
