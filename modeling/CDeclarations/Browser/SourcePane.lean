import CDeclarations.Browser.Palette
import CDeclarations.Screen.Box
import CDeclarations.Text.Alphanumeric
import CDeclarations.Text.Blank
import CDeclarations.Text.Lines
import CDeclarations.Text.Reading

/-!
# `CDeclarations.Browser.SourcePane`: the text on the screen

The pane shows the lines of a unit with their numbers and marks one of
them. A line is coloured on its own: it is cut into words, literals,
comments and single characters, and what stands on other lines has no
bearing on it.

* `stretch_read_append_rest`, `stretch_read_ne_nil`: a line is cut
  without loss, and each cut takes something.
* `stretched_highlight`: a line that is no directive is cut into stretches.
* `highlight_forall`: what holds of a directive and of every stretch holds
  of the spans of a line.
-/

set_option autoImplicit false

namespace CDeclarations.SourcePane

open Screen

/-! ### Colouring -/

/-- The words that name built-in types. -/
def typeWords : List String :=
  ["int", "char", "void", "float", "double", "long", "short", "unsigned", "signed"]

/-- The other words with a meaning in a declaration. -/
def declarationWords : List String :=
  ["auto", "register", "static", "extern", "typedef", "const", "volatile", "restrict", "struct",
    "union", "enum"]

/-- How a word is drawn. -/
def wordStyle (word : List Char) : Style :=
  if typeWords.contains (String.ofList word) then .colored Palette.typeName
  else if declarationWords.contains (String.ofList word) then
    (Style.colored Palette.keyword).inBold
  else if word.head?.any Char.isDigit then .colored Palette.number
  else .colored Palette.text

/-- How a character outside words is drawn. -/
def markStyle (c : Char) : Style :=
  if ['\x7b', '\x7d', '(', ')', '[', ']'].contains c then .colored Palette.unit
  else .colored Palette.text

/-- The characters of words. -/
def isWordPart (c : Char) : Bool :=
  Text.isAlphanumeric c || c = '_'

/-- How far a literal is read behind its opening mark. -/
inductive LiteralState
  | inside
  | escaped
  | closed
deriving DecidableEq

/-- The rule of a literal on one line, which the mark `quote` closes
unless a backslash stands before it. -/
def literalRule (quote : Char) : LiteralState → Char → List Char → Option LiteralState
  | .inside, c, _ =>
      some (if c = quote then .closed else if c = '\\' then .escaped else .inside)
  | .escaped, _, _ => some .inside
  | .closed, _, _ => none

/-- A stretch of a line that is drawn in one style. -/
structure Stretch where
  style : Style
  read : List Char
  rest : List Char

/-- The stretch that `c` opens on a line: a comment up to the end of
the line, a literal, a word, or the character alone. -/
def stretch (c : Char) (after : List Char) : Stretch :=
  if c = '/' ∧ (after.head? = some '/' ∨ after.head? = some '*') then
    ⟨.colored Palette.muted, c :: after, []⟩
  else if c = '"' ∨ c = '\'' then
    let r := Reading.longest (literalRule c) .inside after
    ⟨.colored Palette.literal, c :: r.read, r.rest⟩
  else if isWordPart c then
    let r := Reading.span isWordPart after
    ⟨wordStyle (c :: r.read), c :: r.read, r.rest⟩
  else ⟨markStyle c, [c], after⟩

/-- A stretch and what follows it make up the line. -/
theorem stretch_read_append_rest (c : Char) (after : List Char) :
    (stretch c after).read ++ (stretch c after).rest = c :: after := by
  unfold stretch
  split
  · simp
  split
  · simp [Reading.longest_read_append_rest]
  split
  · simp
  · rfl

/-- A stretch takes at least one character. -/
theorem stretch_read_ne_nil (c : Char) (after : List Char) : (stretch c after).read ≠ [] := by
  unfold stretch
  repeat' split
  all_goals simp

/-- A stretch leaves less of the line than there was. -/
private theorem length_stretch_rest (c : Char) (after : List Char) :
    (stretch c after).rest.length < (c :: after).length := by
  have h := congrArg List.length (stretch_read_append_rest c after)
  have hpos := List.length_pos_iff.2 (stretch_read_ne_nil c after)
  simp only [List.length_append] at h
  omega

/-- The spans of the rest of a line behind those in `found`, the
latest of which comes first. -/
private def stretches (found : List Span) : List Char → List Span
  | [] => found.reverse
  | c :: after =>
      let s := stretch c after
      stretches (⟨String.ofList s.read, s.style⟩ :: found) s.rest
termination_by line => line.length
decreasing_by exact length_stretch_rest c after

/-- The spans of a line. A directive is drawn in one style. -/
def highlight (line : List Char) : List Span :=
  if (line.dropWhile Text.isWhiteSpace).head? = some '#' then
    [⟨String.ofList line, .colored Palette.directive⟩]
  else stretches [] line

/-- A line is cut into stretches, each of which fills a span. -/
inductive Stretched : List Char → List Span → Prop
  | nil : Stretched [] []
  | cons {c : Char} {after : List Char} {spans : List Span}
      (h : Stretched (stretch c after).rest spans) :
      Stretched (c :: after)
        (⟨String.ofList (stretch c after).read, (stretch c after).style⟩ :: spans)

/-- The spans in front are kept, and those behind them are the stretches of
the line. -/
private theorem exists_stretches_eq (found : List Span) (line : List Char) :
    ∃ spans, stretches found line = found.reverse ++ spans ∧ Stretched line spans := by
  fun_induction stretches found line with
  | case1 found => exact ⟨[], (List.append_nil _).symm, .nil⟩
  | case2 found c after s ih =>
      obtain ⟨spans, heq, h⟩ := ih
      refine ⟨⟨String.ofList s.read, s.style⟩ :: spans, ?_, .cons h⟩
      rw [heq, List.reverse_cons, List.append_assoc]
      rfl

/-- A line that is no directive is cut into stretches. -/
theorem stretched_highlight {line : List Char}
    (h : (line.dropWhile Text.isWhiteSpace).head? ≠ some '#') :
    Stretched line (highlight line) := by
  obtain ⟨spans, heq, hspans⟩ := exists_stretches_eq [] line
  rw [highlight, if_neg h, heq]
  exact hspans

/-- The spans of a line are a directive or stretches. -/
theorem highlight_forall {P : Span → Prop}
    (hdirective : ∀ text, P ⟨text, .colored Palette.directive⟩)
    (hstretch : ∀ c after, P ⟨String.ofList (stretch c after).read, (stretch c after).style⟩)
    (line : List Char) : ∀ s ∈ highlight line, P s := by
  by_cases hline : (line.dropWhile Text.isWhiteSpace).head? = some '#'
  · rw [highlight, if_pos hline]
    exact List.forall_mem_singleton.2 (hdirective _)
  · have hcut := stretched_highlight hline
    clear hline
    generalize highlight line = spans at hcut
    induction hcut with
    | nil => exact List.forall_mem_nil P
    | cons _ ih => exact List.forall_mem_cons.2 ⟨hstretch _ _, ih⟩

/-! ### The pane -/

/-- How the pane shows its marked line. -/
inductive Marking
  | selected
  /-- The line of an error or a warning. -/
  | faulty
deriving DecidableEq

/-- How the number of a line is drawn. -/
def numberStyle : Option Marking → Style
  | none => .colored Palette.muted
  | some .selected => (Style.colored Palette.highlight).inBold
  | some .faulty => (Style.colored Palette.error).inBold

/-- A span of a line that may be marked. -/
def mark (s : Span) : Option Marking → Span
  | none => s
  | some .selected => { s with style := s.style.on Palette.selection }
  | some .faulty => { s with style := ⟨.white, Palette.error, true⟩ }

/-- The number of a line, on the right of four columns or more. -/
def numberText (number : Nat) : String :=
  let digits := toString number
  String.ofList (List.replicate (4 - digits.length) ' ') ++ digits ++ " "

/-- The spans of a line with its number. -/
def lineSpans (number : Nat) (line : List Char) (marking : Option Marking) : List Span :=
  ⟨numberText number, numberStyle marking⟩ :: (highlight line).map (mark · marking)

/-- The first line, counted from zero, of the window of `visible` lines
that holds line number `line` of `total` and moves least from
`scroll`. A line that is not there moves nothing, and the window never
reaches beyond the last line if it can help it. -/
def follow (line total scroll visible : Nat) : Nat :=
  let moved :=
    if 0 < line ∧ line ≤ total then
      if line - 1 < scroll then line - 1
      else if scroll + visible ≤ line - 1 then line - visible
      else scroll
    else scroll
  min moved (total - visible)

/-- The pane with the window of lines that begins at `scroll` and with
line number `line` marked. -/
def draw (lines : List (List Char)) (line : Nat) (marking : Marking)
    (scroll width height : Nat) : Rows :=
  let box : Box := ⟨" Source ", .colored Palette.frame⟩
  let shown := (lines.drop scroll).take (Box.visibleRows height)
  -- Lines are numbered from one, the window from zero.
  box.draw width height <| shown.zipIdx (scroll + 1) |>.map fun (text, number) =>
    cells (lineSpans number text (if number = line then some marking else none))

end CDeclarations.SourcePane
