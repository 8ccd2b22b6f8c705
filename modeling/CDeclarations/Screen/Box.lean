import CDeclarations.Screen.Cell

/-!
# `CDeclarations.Screen.Box`: framed text

A box is a frame of lines with a title in its upper edge and text
inside. It fills its area whatever the text: lines are cut at the
right edge and never wrapped, and rows without text stay blank. A box
of one row shows its upper edge alone.

* `length_draw`, `length_of_mem_draw`: a box has the size of its area.
* `getElem?_draw`: where each line of text stands in it.
-/

set_option autoImplicit false

namespace CDeclarations.Screen

/-- A frame with a title. -/
structure Box where
  title : String
  style : Style

namespace Box

/-- The rows of text that a box of the given height is taken to show:
those inside the frame, and at least one. -/
def visibleRows (height : Nat) : Nat :=
  max 1 (height - 2)

/-- A row of a box: `left` in its first cell, `right` in its last one,
and the row `inner` between them, filled up with `filler`. -/
def row (b : Box) (width : Nat) (left right : Char) (filler : Cell) (inner : List Cell) :
    List Cell :=
  match width with
  | 0 => []
  | 1 => [⟨left, b.style⟩]
  | inside + 2 => ⟨left, b.style⟩ :: fit inside filler inner ++ [⟨right, b.style⟩]

/-- A cell of the horizontal line. -/
def horizontal (b : Box) : Cell := ⟨'─', b.style⟩

/-- The upper edge, with the title over the line. -/
def upperEdge (b : Box) (width : Nat) : List Cell :=
  b.row width '┌' '┐' b.horizontal (Span.cells ⟨b.title, b.style⟩)

/-- The lower edge. -/
def lowerEdge (b : Box) (width : Nat) : List Cell :=
  b.row width '└' '┘' b.horizontal []

/-- The rows of a box of the given width and height with lines of text
in it. -/
def draw (b : Box) (width height : Nat) (lines : Rows) : Rows :=
  match height with
  | 0 => []
  | 1 => [b.upperEdge width]
  | inside + 2 =>
      let shown := lines.take inside ++ List.replicate (inside - lines.length) []
      b.upperEdge width :: shown.map (b.row width '│' '│' .blank) ++ [b.lowerEdge width]

/-- A row of a box is as wide as the box. -/
theorem length_row (b : Box) (width : Nat) (left right : Char) (filler : Cell)
    (inner : List Cell) : (b.row width left right filler inner).length = width := by
  unfold row
  split <;> simp

/-- A box has as many rows as its area. -/
theorem length_draw (b : Box) (width height : Nat) (lines : Rows) :
    (b.draw width height lines).length = height := by
  unfold draw
  split
  · rfl
  · rfl
  · simp only [List.cons_append, List.length_cons, List.length_append, List.length_map,
      List.length_take, List.length_replicate, List.length_nil]
    omega

/-- Every row of a box is as wide as its area. -/
theorem length_of_mem_draw {b : Box} {width height : Nat} {lines : Rows} {row : List Cell}
    (h : row ∈ b.draw width height lines) : row.length = width := by
  unfold draw at h
  split at h
  · cases h
  · rw [List.mem_singleton.1 h]
    exact b.length_row ..
  · rcases List.mem_append.1 h with h | h
    · rcases List.mem_cons.1 h with rfl | h
      · exact b.length_row ..
      · obtain ⟨inner, -, rfl⟩ := List.mem_map.1 h
        exact b.length_row ..
    · rw [List.mem_singleton.1 h]
      exact b.length_row ..

/-- Of the items of a window, those that the lines of a box can show. -/
theorem getElem?_window {α : Type} (items : List α) (scroll : Nat) {height place : Nat}
    (hroom : place + 2 < height) :
    ((items.drop scroll).take (visibleRows height))[place]? = items[scroll + place]? := by
  have hinside : place < visibleRows height := by
    show place < max 1 (height - 2)
    omega
  rw [List.getElem?_take_of_lt hinside, List.getElem?_drop]

/-- The lines stand below the upper edge, each in a row of its own, as
far as there is room above the lower edge. -/
theorem getElem?_draw {b : Box} {width height place : Nat} {lines : Rows} {line : List Cell}
    (hroom : place + 2 < height) (hline : lines[place]? = some line) :
    (b.draw width height lines)[place + 1]? = some (b.row width '│' '│' .blank line) := by
  obtain ⟨inside, rfl⟩ : ∃ inside, height = inside + 2 := ⟨height - 2, by omega⟩
  have hinside : place < inside := Nat.lt_of_add_lt_add_right hroom
  have hplace : place < lines.length := (List.getElem?_eq_some_iff.1 hline).1
  -- The line is among those that fit, and the empty rows come behind these.
  have hshown : (lines.take inside ++ List.replicate (inside - lines.length) [])[place]? =
      some line := by
    rw [List.getElem?_append_left (by rw [List.length_take]; omega),
      List.getElem?_take_of_lt hinside, hline]
  have hlength : place < ((lines.take inside ++
      List.replicate (inside - lines.length) []).map (b.row width '│' '│' .blank)).length := by
    rw [List.length_map]
    exact (List.getElem?_eq_some_iff.1 hshown).1
  show (b.upperEdge width :: _ ++ [b.lowerEdge width])[place + 1]? = _
  rw [List.cons_append, List.getElem?_cons_succ, List.getElem?_append_left hlength,
    List.getElem?_map, hshown]
  rfl

end Box

end CDeclarations.Screen
