/-!
# `CDeclarations.Screen.Cell`: styled characters

A screen is a list of rows of cells; a cell shows one character in one
style. Text is drawn from spans, pieces of text in one style each, and
every character of a span is taken to fill one cell.

* `length_fit`: a fitted row has exactly the width asked for.
* `parts_beside`: what is drawn side by side is found again.
-/

set_option autoImplicit false

namespace CDeclarations.Screen

/-- A colour, or none of its own. -/
inductive Color
  | unset
  | black
  | white
  | rgb (red green blue : Nat)
deriving DecidableEq

/-- How a cell is drawn. -/
structure Style where
  foreground : Color
  background : Color
  bold : Bool
deriving DecidableEq

namespace Style

/-- The style of a cell that nothing is drawn on. -/
def plain : Style := ⟨.unset, .unset, false⟩

/-- The style that sets nothing but the colour of the character. -/
def colored (color : Color) : Style := { plain with foreground := color }

/-- The style with another background. -/
def on (s : Style) (color : Color) : Style := { s with background := color }

/-- The style in bold face. -/
def inBold (s : Style) : Style := { s with bold := true }

end Style

/-- A character in its style. -/
structure Cell where
  char : Char
  style : Style
deriving DecidableEq

/-- A cell that nothing is drawn on. -/
def Cell.blank : Cell := ⟨' ', .plain⟩

/-- A piece of text in one style. -/
structure Span where
  text : String
  style : Style
deriving DecidableEq

/-- The cells that a span fills, one for each of its characters. This is
what a terminal shows of characters that are one column wide. It gives two
columns to wide characters and none to combining ones, so behind them the
cells of a row are other ones than here. -/
def Span.cells (s : Span) : List Cell :=
  s.text.toList.map fun c => ⟨c, s.style⟩

/-- The cells that spans fill one after another. -/
def cells (spans : List Span) : List Cell :=
  spans.flatMap Span.cells

/-- Makes a row of the given width: cells beyond it are cut off on the
right, and missing ones are filled up. -/
def fit (width : Nat) (filler : Cell) (row : List Cell) : List Cell :=
  row.take width ++ List.replicate (width - row.length) filler

/-- Makes a row of the given width with its cells on the right; a row
that is too long is cut off on the right. -/
def fitRight (width : Nat) (filler : Cell) (row : List Cell) : List Cell :=
  List.replicate (width - row.length) filler ++ row.take width

/-- A fitted row is as wide as it was asked to be. -/
@[simp] theorem length_fit (width : Nat) (filler : Cell) (row : List Cell) :
    (fit width filler row).length = width := by
  rw [fit, List.length_append, List.length_replicate, List.length_take]
  omega

/-- A list of rows from the top down. -/
abbrev Rows := List (List Cell)

/-- Two lists of rows side by side. -/
def beside (left right : Rows) : Rows :=
  left.zipWith (· ++ ·) right

/-- Two panes side by side are parted again at the width of the left
one. -/
theorem map_parts_beside {left : Rows} {width : Nat} (hleft : ∀ row ∈ left, row.length = width)
    (right : Rows) :
    (beside left right).map (fun row => (row.take width, row.drop width)) = left.zip right := by
  induction left generalizing right with
  | nil => rfl
  | cons row left ih =>
      obtain ⟨hrow, hleft⟩ := List.forall_mem_cons.1 hleft
      cases right with
      | nil => rfl
      | cons row' right =>
          rw [beside, List.zipWith_cons_cons, List.map_cons, List.take_left' hrow,
            List.drop_left' hrow, List.zip_cons_cons]
          exact congrArg _ (ih hleft right)

/-- Two panes of one height are found again in what is drawn, whatever
stands below them. -/
theorem parts_beside {left right : Rows} {width height : Nat} (hleft : left.length = height)
    (hright : right.length = height) (hwidth : ∀ row ∈ left, row.length = width) (below : Rows) :
    ((beside left right ++ below).take height).map (·.take width) = left ∧
      ((beside left right ++ below).take height).map (·.drop width) = right := by
  have hlength : (beside left right).length = height := by
    rw [beside, List.length_zipWith, hleft, hright, Nat.min_self]
  have hparts := map_parts_beside hwidth right
  rw [List.take_left' hlength]
  constructor
  · have hfst := congrArg (List.map Prod.fst) hparts
    rwa [List.map_map, List.map_fst_zip (by omega)] at hfst
  · have hsnd := congrArg (List.map Prod.snd) hparts
    rwa [List.map_map, List.map_snd_zip (by omega)] at hsnd

end CDeclarations.Screen
