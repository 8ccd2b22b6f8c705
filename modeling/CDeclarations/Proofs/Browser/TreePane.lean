import CDeclarations.Browser.TreePane
import CDeclarations.Proofs.Tree.Traversal

/-!
# `CDeclarations.Proofs.Browser.TreePane`: what the tree pane shows

The pane makes a line of its own for each row, from spans that each have
their colour. The outline describes the same row as one text. Neither is
made from the other.

* `join_text_spans`: the spans of a row say what the outline says.
* `join_rowText_eq_render`: the lines of the pane, one behind the other, are
  the outline of the tree.
* `getElem?_draw`: where the pane shows a row.
-/

set_option autoImplicit false

namespace CDeclarations.TreePane

open Screen

variable {t : Tree} {row : Row} {rows : List Row}

/-! ### The text of a row -/

/-- The text of a row of the pane. -/
def rowText (t : Tree) (row : Row) : String :=
  String.join ((rowSpans t row).map Span.text)

/-- The spans of a node say what its description says, behind the
indentation. -/
theorem join_text_spans (row : Row) (n : Node) :
    String.join ((spans row n).map Span.text) = row.indent ++ n.describe := by
  unfold spans Node.describe
  -- Payload, position and message are there or not, each for itself.
  cases n.payload <;> cases n.kind.isUnit <;> cases n.diagnostic
  all_goals simp [String.append_assoc]

/-- The text of a row is the indentation with the description of its node. -/
theorem rowText_eq {n : Node} (hn : t.nodes[row.id]? = some n) :
    rowText t row = row.indent ++ n.describe := by
  rw [rowText, rowSpans, hn]
  exact join_text_spans row n

/-- The lines of the pane, one behind the other, are the outline of the
tree. -/
theorem join_rowText_eq_render (ht : t.Built) :
    String.join (t.rows.map fun row => rowText t row ++ "\n") = t.render := by
  have hlines : ∀ entry ∈ t.rowNodes,
      rowText t entry.1 ++ "\n" = entry.1.indent ++ entry.2.describe ++ "\n" := by
    rintro ⟨row, n⟩ hentry
    obtain ⟨row', -, hfound⟩ := List.mem_filterMap.1 hentry
    obtain ⟨n', hn, heq⟩ := Option.map_eq_some_iff.1 hfound
    cases heq
    rw [rowText_eq hn]
  -- Every row has its node, so that the outline has a line for each row.
  rw [← ht.ordered.map_fst_rowNodes, List.map_map, Tree.render, Tree.outline, List.map_map]
  exact congrArg String.join (List.map_congr_left hlines)

/-- A unit below the root shows no position, and the line feed of a payload
ends no line. -/
theorem join_rowText_eq_render_error :
    let t := ((Tree.ofUnit .source "a.c").add 0 .headerUnit ⟨3, 1⟩ none none).add 1 .error ⟨2, 5⟩
      (some "a\nb") (some "unexpected token")
    t.Built ∧ String.join (t.rows.map fun row => rowText t row ++ "\n") =
      "source-unit \"a.c\"\n  header-unit\n    error \"a\\nb\" @2:5 (unexpected token)\n" := by
  intro t
  have hbuilt : t.Built := .add (.add (.unit .source "a.c") (by decide) ..) (by decide) ..
  exact ⟨hbuilt, (join_rowText_eq_render hbuilt).trans (by decide +kernel)⟩

/-! ### The rows of the pane -/

/-- The frame of the pane of so many rows. -/
def box (count : Nat) : Box :=
  ⟨" Parse Tree (" ++ toString count ++ " nodes) ", (Style.colored Palette.focusedFrame).inBold⟩

/-- What the pane of so many rows shows of a row. -/
def lineRow (t : Tree) (count width : Nat) (row : Row) (isSelected : Bool) : List Cell :=
  let line := rowSpans t row
  (box count).row width '│' '│' .blank (cells (if isSelected then line.map markSelected else line))

/-- A row of the window stands as far below the upper edge as it is behind
the first row of the window. -/
theorem getElem?_draw {selected scroll width height index : Nat} (hrow : rows[index]? = some row)
    (hscroll : scroll ≤ index) (hvisible : index + 2 < scroll + height) :
    (draw t rows selected scroll width height)[index - scroll + 1]? =
      some (lineRow t rows.length width row (decide (index = selected))) := by
  obtain ⟨place, rfl⟩ := Nat.exists_eq_add_of_le hscroll
  have hroom : place + 2 < height := by omega
  have hplace : scroll + place - scroll = place := Nat.add_sub_cancel_left ..
  rw [hplace]
  refine Box.getElem?_draw hroom ?_
  rw [List.getElem?_map, List.getElem?_zipIdx, Box.getElem?_window rows scroll hroom, hrow]
  simp

end CDeclarations.TreePane
