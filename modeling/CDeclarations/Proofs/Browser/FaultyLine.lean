import CDeclarations.Proofs.Browser.Diagnostics
import CDeclarations.Proofs.Browser.Session
import CDeclarations.Proofs.Parser.ErrorLine
import CDeclarations.Proofs.Parser.Outline
import Mathlib.Data.List.Basic

/-!
# `CDeclarations.Proofs.Browser.FaultyLine`: the line of an error on the screen

The browser of a refused unit begins at the error, and its first frame
marks the line of the error in the text. The marked line is told from the
others by its colours, for nothing else in the source pane has them.

* `SourcePane.faultyRows_draw`: the rows of the pane in the colours of an
  error. There is one where the window holds the line, and none where it
  does not.
* `Browser.diagnosticRows_of_endsWith`: the one error of a tree is the one
  diagnostic of its browser, which is selected from the beginning.
* `Browser.marksLine_iff`: the first frame of a refused unit marks the
  line of its error, unless the text ends too soon and behind a line feed. The
  error is below the last line there, and nothing is marked.
-/

set_option autoImplicit false

namespace CDeclarations

namespace Screen

variable {width : Nat}

/-! ### Cells in the colour of errors -/

/-- What is drawn in this style has the colour of errors on it or behind
it. -/
def Style.isFaulty (s : Style) : Bool :=
  s.foreground = Palette.error || s.background = Palette.error

/-- A row without the colour of errors. -/
def Clean (row : List Cell) : Prop :=
  ∀ c ∈ row, c.style.isFaulty = false

/-- A row with the colour of errors in some cell. -/
def showsFault (row : List Cell) : Bool :=
  row.any (·.style.isFaulty)

/-- The rows that show the colour of errors. -/
def faultyRows (rows : Rows) : List Nat :=
  rows.findIdxs showsFault

/-- Clean cells show no fault. -/
theorem Clean.showsFault_eq {row : List Cell} (h : Clean row) : showsFault row = false := by
  rw [showsFault, List.any_eq_false]
  intro c hc
  rw [h c hc]
  exact Bool.false_ne_true

/-- Spans in the styles of the highlighter and of the frame make clean cells.
-/
theorem clean_cells {spans : List Span} (h : ∀ s ∈ spans, s.style.isFaulty = false) :
    Clean (cells spans) := by
  intro c hc
  obtain ⟨s, hs, hc⟩ := List.mem_flatMap.1 hc
  obtain ⟨ch, -, rfl⟩ := List.mem_map.1 hc
  exact h s hs

/-- A row of a box has its edges, the filler and what stands between the
edges. -/
theorem Box.clean_row {b : Box} {left right : Char} {filler : Cell} {inner : List Cell}
    (hb : b.style.isFaulty = false) (hfiller : filler.style.isFaulty = false) (h : Clean inner) :
    Clean (b.row width left right filler inner) := by
  -- The row is its left border, the inner cells up to their width, and its right
  -- border.
  unfold Box.row
  split
  · exact List.forall_mem_nil _
  · exact List.forall_mem_singleton.2 hb
  · refine List.forall_mem_cons.2 ⟨hb, ?_⟩
    intro c hc
    rcases List.mem_append.1 hc with hc | hc
    · rcases List.mem_append.1 hc with hc | hc
      · exact h c (List.mem_of_mem_take hc)
      · rw [List.eq_of_mem_replicate hc]
        exact hfiller
    · rw [List.mem_singleton.1 hc]
      exact hb

/-- What stands first between the edges is on the screen if there is room for
one cell. -/
theorem Box.mem_row {b : Box} {left right : Char} {filler c : Cell} {inner : List Cell}
    (hwidth : 3 ≤ width) : c ∈ b.row width left right filler (c :: inner) := by
  obtain ⟨inside, rfl⟩ : ∃ inside, width = inside + 3 := Nat.exists_eq_add_of_le' hwidth
  show c ∈ ⟨left, b.style⟩ :: fit (inside + 1) filler (c :: inner) ++ [⟨right, b.style⟩]
  simp [fit]

end Screen

open Screen

namespace SourcePane

variable {lines : List (List Char)} {line scroll width height : Nat}

/-! ### The marked line -/

/-- The frame of the pane. -/
def box : Box :=
  ⟨" Source ", .colored Palette.frame⟩

/-- The row of the pane that shows a line with its number. -/
def lineRow (width number : Nat) (text : List Char) (marking : Option Marking) : List Cell :=
  box.row width '│' '│' .blank (cells (lineSpans number text marking))

/-- A stretch of a line has a colour of its meaning. -/
theorem isFaulty_stretch (c : Char) (after : List Char) :
    (stretch c after).style.isFaulty = false := by
  -- No style the highlighter gives is the style of a diagnostic.
  unfold stretch
  split
  · rfl
  split
  · rfl
  split
  · show (wordStyle _).isFaulty = false
    unfold wordStyle
    repeat' split
    all_goals rfl
  · show (markStyle c).isFaulty = false
    unfold markStyle
    split <;> rfl

/-- A line without a mark is drawn clean, its number and its text. -/
theorem clean_lineRow (width number : Nat) (text : List Char) :
    Clean (lineRow width number text none) := by
  refine Box.clean_row rfl rfl (clean_cells ?_)
  refine List.forall_mem_cons.2 ⟨rfl, ?_⟩
  have hmark : (mark · none) = (id : Span → Span) := rfl
  rw [hmark, List.map_id]
  exact highlight_forall (fun _ => rfl) isFaulty_stretch text

/-- The number of a line is never empty. -/
theorem exists_numberText_eq_cons (number : Nat) :
    ∃ c text, (numberText number).toList = c :: text := by
  refine List.exists_cons_of_ne_nil ?_
  simp [numberText]

/-- Where there is room for one cell, the marked line shows the colour of
errors, if only in its number. No other line does. -/
theorem showsFault_lineRow (hwidth : 3 ≤ width) (number : Nat) (text : List Char) :
    showsFault (lineRow width number text (if number = line then some .faulty else none)) =
      decide (number = line) := by
  by_cases h : number = line
  · obtain ⟨c, digits, hnumber⟩ := exists_numberText_eq_cons number
    rw [if_pos h, decide_eq_true h, showsFault, List.any_eq_true]
    refine ⟨⟨c, numberStyle (some .faulty)⟩, ?_, rfl⟩
    rw [lineRow, lineSpans, cells, List.flatMap_cons, Span.cells, hnumber]
    exact Box.mem_row hwidth
  · rw [if_neg h, decide_eq_false h]
    exact (clean_lineRow width number text).showsFault_eq

/-- The rows of the pane that show no line. -/
theorem clean_frameRows (width : Nat) :
    Clean (box.upperEdge width) ∧ Clean (box.row width '│' '│' .blank []) ∧
      Clean (box.lowerEdge width) := by
  have hnil : Clean [] := List.forall_mem_nil _
  have htitle : Clean (Span.cells ⟨box.title, box.style⟩) := by
    intro c hc
    obtain ⟨ch, -, rfl⟩ := List.mem_map.1 hc
    rfl
  exact ⟨Box.clean_row rfl rfl htitle, Box.clean_row rfl rfl hnil, Box.clean_row rfl rfl hnil⟩

/-- A number is found once among numbers that follow one another. -/
theorem findIdxs_zipIdx {α : Type} (items : List α) (first start : Nat) :
    (items.zipIdx first).findIdxs (fun entry => decide (entry.2 = line)) start =
      if first ≤ line ∧ line < first + items.length then [start + (line - first)] else [] := by
  induction items generalizing first start with
  | nil => simp
  | cons item items ih =>
      rw [List.zipIdx_cons, List.findIdxs_cons, ih, List.length_cons]
      -- The number of the first item is the one looked for, or it is smaller and the
      -- rest decides.
      by_cases h : first = line
      · subst h
        simp
      · simp only [decide_eq_true_eq, if_neg h]
        by_cases hin : first + 1 ≤ line ∧ line < first + 1 + items.length
        · rw [if_pos hin, if_pos (by omega)]
          congr 1
          omega
        · rw [if_neg hin, if_neg (by omega)]

/-- The rows of the pane: the lines of its window stand between its edges,
with empty rows below them. -/
theorem draw_eq (lines : List (List Char)) (line : Nat) (marking : Marking) (scroll width : Nat)
    (hheight : 3 ≤ height) :
    let shown := (lines.drop scroll).take (height - 2)
    draw lines line marking scroll width height =
      box.upperEdge width ::
        (shown.zipIdx (scroll + 1)).map (fun entry => lineRow width entry.2 entry.1
          (if entry.2 = line then some marking else none)) ++
        (List.replicate (height - 2 - shown.length) (box.row width '│' '│' .blank []) ++
          [box.lowerEdge width]) := by
  obtain ⟨inside, rfl⟩ : ∃ inside, height = inside + 3 := Nat.exists_eq_add_of_le' hheight
  intro shown
  have hvisible : Box.visibleRows (inside + 3) = inside + 1 := by
    show max 1 (inside + 1) = inside + 1
    omega
  have hshown : shown.length ≤ inside + 1 := List.length_take_le _ _
  -- The window has no more lines than there are rows between the edges.
  have htake : ∀ {α : Type} (f : List Char × Nat → α),
      ((shown.zipIdx (scroll + 1)).map f).take (inside + 1) =
        (shown.zipIdx (scroll + 1)).map f := by
    intro α f
    exact List.take_of_length_le (by rwa [List.length_map, List.length_zipIdx])
  unfold draw
  rw [hvisible]
  show box.upperEdge width :: List.map _ (List.take (inside + 1) (List.map _
    (shown.zipIdx (scroll + 1))) ++ _) ++ _ = _
  rw [htake, List.map_append, List.map_map, List.map_replicate, List.length_map,
    List.length_zipIdx, List.cons_append, List.append_assoc, List.cons_append]
  rfl

/-- The one row in the colours of an error is that of the marked line, which
is there if the window holds it. -/
theorem faultyRows_draw (hwidth : 3 ≤ width) (hheight : 3 ≤ height) :
    faultyRows (draw lines line .faulty scroll width height) =
      if scroll < line ∧ line ≤ lines.length ∧ line ≤ scroll + (height - 2) then [line - scroll]
      else [] := by
  obtain ⟨hupper, hblank, hlower⟩ := clean_frameRows width
  have hbelow : ∀ count start, List.findIdxs showsFault
      (List.replicate count (box.row width '│' '│' .blank []) ++ [box.lowerEdge width]) start =
        [] := by
    intro count start
    rw [List.findIdxs_eq_nil_iff]
    intro row hrow
    rcases List.mem_append.1 hrow with hrow | hrow
    · rw [List.eq_of_mem_replicate hrow, hblank.showsFault_eq]
    · rw [List.mem_singleton.1 hrow, hlower.showsFault_eq]
  have hmarked : (showsFault ∘ fun entry : List Char × Nat => lineRow width entry.2 entry.1
      (if entry.2 = line then some .faulty else none)) = fun entry => decide (entry.2 = line) :=
    funext fun entry => showsFault_lineRow hwidth entry.2 entry.1
  rw [draw_eq _ _ _ _ _ hheight, faultyRows, List.findIdxs_append, List.findIdxs_cons,
    if_neg (by rw [hupper.showsFault_eq]; exact Bool.false_ne_true), List.findIdxs_map, hbelow,
    List.append_nil, hmarked, findIdxs_zipIdx, List.length_take, List.length_drop]
  -- The window begins below row zero of the pane, which is the upper edge.
  split
  · next hin =>
    rw [if_pos (by omega)]
    congr 1
    omega
  · next hout => rw [if_neg (by omega)]

/-- The row of the marked line shows its number and its text. -/
theorem getElem?_draw {text : List Char} (marking : Marking) (hscroll : scroll < line)
    (hvisible : line ≤ scroll + (height - 2)) (htext : lines[line - 1]? = some text) :
    (draw lines line marking scroll width height)[line - scroll]? =
      some (lineRow width line text (some marking)) := by
  obtain ⟨index, rfl⟩ : ∃ index, line = scroll + index + 1 := ⟨line - scroll - 1, by omega⟩
  have hroom : index + 2 < height := by omega
  have hindex : scroll + index + 1 - scroll = index + 1 := by omega
  have hnumber : scroll + 1 + index = scroll + index + 1 := Nat.add_right_comm ..
  have htext' : lines[scroll + index]? = some text := htext
  rw [hindex]
  refine Box.getElem?_draw hroom ?_
  rw [List.getElem?_map, List.getElem?_zipIdx, Box.getElem?_window lines scroll hroom, htext']
  simp [hnumber]

/-- One row of the pane is in the colours of an error. It shows the line of
this number. -/
def MarksLine (lines : List (List Char)) (line width : Nat) (pane : Rows) : Prop :=
  ∃ index text, 0 < line ∧ lines[line - 1]? = some text ∧ faultyRows pane = [index] ∧
    pane[index]? = some (lineRow width line text (some .faulty))

/-- A window that follows a line of the text marks it. -/
theorem marksLine_draw (hwidth : 3 ≤ width) (hheight : 3 ≤ height) (hline : 0 < line)
    (hthere : line ≤ lines.length) (hwindow : InWindow scroll (height - 2) (line - 1)) :
    MarksLine lines line width (draw lines line .faulty scroll width height) := by
  obtain ⟨habove, hbelow⟩ := hwindow
  have htext := List.getElem?_eq_getElem (l := lines) (show line - 1 < lines.length by omega)
  refine ⟨_, _, hline, htext, ?_, getElem?_draw .faulty (by omega) (by omega) htext⟩
  rw [faultyRows_draw hwidth hheight, if_pos (by omega)]

/-- A line that the text does not have is not marked. -/
theorem faultyRows_draw_of_lt (hwidth : 3 ≤ width) (hheight : 3 ≤ height)
    (hthere : lines.length < line) :
    faultyRows (draw lines line .faulty scroll width height) = [] := by
  rw [faultyRows_draw hwidth hheight, if_neg (by omega)]

end SourcePane

namespace Browser

variable {b : Browser} {error : Node} {width height : Nat}

/-- The part of a frame that is the source pane. -/
def sourcePart (width height : Nat) (frame : Rows) : Rows :=
  (frame.take (height - 1)).map (·.drop (treeWidth width))

/-- The right part of a frame is the drawing of the source pane. -/
theorem sourcePart_draw (b : Browser) (width height : Nat) :
    sourcePart width height (b.draw width height).2 =
      SourcePane.draw (Text.lines b.source.toList) b.selectedLine.1 b.selectedLine.2
        (b.draw width height).1.sourceScroll (width - treeWidth width) (height - 1) := by
  exact (parts_beside (Box.length_draw ..) (Box.length_draw ..)
    (fun row hrow => Box.length_of_mem_draw hrow) _).2

/-! ### The selected error -/

/-- A diagnostic is an error or a warning. -/
theorem countP_isDiagnostic (nodes : List Node) :
    (nodes.countP fun n => n.kind.isDiagnostic) =
      (nodes.countP fun n => n.kind = .error) + nodes.countP fun n => n.kind = .warning := by
  induction nodes with
  | nil => rfl
  | cons n nodes ih =>
      rw [List.countP_cons, List.countP_cons, List.countP_cons, ih]
      cases hkind : n.kind
      all_goals simp [NodeKind.isDiagnostic]
      all_goals omega

/-- The one error of a tree without warnings is its one diagnostic. -/
theorem diagnosticRows_of_endsWith (ht : b.outcome.tree.Ordered)
    (hends : b.outcome.tree.EndsWith error) (honly : b.outcome.tree.OnlyErrors) :
    ∃ index, b.diagnosticRows = [index] ∧ b.nodeAt? index = some error := by
  have hcount : b.diagnosticRows.length = 1 := by
    rw [length_diagnosticRows ht, ← Array.countP_toList, countP_isDiagnostic,
      ← Tree.count_eq_countP, ← Tree.count_eq_countP, hends.count, honly.count_warning]
  obtain ⟨index, hindex⟩ := List.length_eq_one_iff.1 hcount
  -- The last row holds a diagnostic, which is the one that is counted.
  obtain ⟨row, hrow, hid⟩ := Option.map_eq_some_iff.1 hends.last_row
  have hlast : b.nodeAt? (b.rows.length - 1) = some error := by
    rw [List.getLast?_eq_getElem?] at hrow
    rw [nodeAt?, rows, hrow, Option.bind_some, hid]
    exact Array.back?_eq_getElem?.symm.trans hends.last
  have hmem : b.rows.length - 1 ∈ b.diagnosticRows :=
    mem_diagnosticRows_iff.2 ⟨error, hlast, by rw [hends.kind]; rfl⟩
  rw [hindex, List.mem_singleton] at hmem
  exact ⟨index, hindex, hmem ▸ hlast⟩

/-- A new browser has the one diagnostic selected. -/
theorem nodeAt?_selected_new {outcome : Outcome} (source : String) (ht : outcome.tree.Ordered)
    (hends : outcome.tree.EndsWith error) (honly : outcome.tree.OnlyErrors) :
    (new outcome source).nodeAt? (new outcome source).selected = some error := by
  let b : Browser := ⟨outcome, source, 0, "Ready!", false, 10, 0, 0⟩
  obtain ⟨index, hindex, hnode⟩ := diagnosticRows_of_endsWith (b := b) ht hends honly
  -- The first diagnostic is the error, so the browser opens with its row selected.
  have hnew : new outcome source = b.selectFound (some index) := by
    have hfirst : b.diagnosticRows.head? = some index := by rw [hindex]; rfl
    unfold new
    dsimp only
    rw [hfirst]
    rfl
  have hselected : (new outcome source).selected = index := by
    rw [hnew]
    exact selected_selectFound (by simp [hindex])
  rw [hselected, hnew]
  exact hnode

/-- The line of a selected error is marked as faulty. -/
theorem selectedLine_of_kind (hb : b.nodeAt? b.selected = some error)
    (hkind : error.kind = .error) : b.selectedLine = (error.position.line, .faulty) := by
  rw [selectedLine, hb]
  dsimp only
  rw [hkind]
  rfl

/-- A frame marks the line of a selected error if the text has this line, and
nothing if it does not. -/
theorem sourcePart_of_error (hb : b.nodeAt? b.selected = some error) (hkind : error.kind = .error)
    (hline : 0 < error.position.line) (hwidth : 3 ≤ width - treeWidth width)
    (hheight : 4 ≤ height) :
    let lines := Text.lines b.source.toList
    let pane := sourcePart width height (b.draw width height).2
    (error.position.line ≤ lines.length →
      SourcePane.MarksLine lines error.position.line (width - treeWidth width) pane) ∧
    (lines.length < error.position.line → faultyRows pane = []) := by
  intro lines pane
  have hpane : pane = SourcePane.draw lines error.position.line .faulty
      (b.draw width height).1.sourceScroll (width - treeWidth width) (height - 1) := by
    show sourcePart width height _ = _
    rw [sourcePart_draw, selectedLine_of_kind hb hkind]
  rw [hpane]
  refine ⟨fun hthere => ?_, SourcePane.faultyRows_draw_of_lt hwidth (by omega)⟩
  -- The window of the frame has followed the line, so the line is inside of it.
  have hwindow := (b.framed_draw width height).line error hb hline hthere
  have hvisible : max 1 (height - 1 - 2) = height - 1 - 2 := by omega
  rw [hvisible] at hwindow
  exact SourcePane.marksLine_draw hwidth (by omega) hline hthere hwindow

/-! ### The first frame -/

/-- The browser of a refused unit has the error selected, and its first frame
marks the line of the error in the text. Where the text ends too soon and
behind a line feed, the error is below the last line, and nothing is
marked. -/
theorem marksLine_iff (kind : UnitKind) (filename text : String)
    (h : (parse kind filename text).status ≠ .completed) :
    let status := (parse kind filename text).status
    let b := new (parse kind filename text) text
    let lines := Text.lines text.toList
    ∃ error, b.nodeAt? b.selected = some error ∧ error.kind = .error ∧
      0 < error.position.line ∧ (error.position.line ≤ lines.length ↔ ¬EndsBelow status text) ∧
      ∀ width height, 3 ≤ width - treeWidth width → 4 ≤ height →
        let pane := sourcePart width height (b.draw width height).2
        (SourcePane.MarksLine lines error.position.line (width - treeWidth width) pane ↔
          ¬EndsBelow status text) ∧
        (faultyRows pane = [] ↔ EndsBelow status text) := by
  intro status b lines
  obtain ⟨error, hends, honly, hpos, hline⟩ := exists_error_of_parse kind filename text h
  have hordered : (parse kind filename text).tree.Ordered :=
    ((Parser.sound_ofUnit kind filename).legible_run (Tree.legible_ofUnit kind filename)
      _).built.ordered
  have hb := nodeAt?_selected_new text hordered hends honly
  have hrows : 0 < (parse kind filename text).tree.rows.length := by
    rw [hordered.scansAgree.length_rows]
    exact hordered.size_pos
  have hsource : b.source = text := (steady_new text hrows).source_eq
  refine ⟨error, hb, hends.kind, hpos, hline, ?_⟩
  intro width height hwidth hheight pane
  obtain ⟨hmarked, hmissing⟩ := sourcePart_of_error hb hends.kind hpos hwidth hheight
  rw [hsource] at hmarked hmissing
  -- A frame that marks a line does not leave all of them unmarked.
  by_cases hbelow : EndsBelow status text
  · have hnone := hmissing (Nat.lt_of_not_le fun hle => hline.1 hle hbelow)
    refine ⟨iff_of_false ?_ (not_not_intro hbelow), iff_of_true hnone hbelow⟩
    rintro ⟨index, -, -, -, hone, -⟩
    exact List.cons_ne_nil _ _ (hone.symm.trans hnone)
  · have hone := hmarked (hline.2 hbelow)
    refine ⟨iff_of_true hone hbelow, iff_of_false ?_ hbelow⟩
    obtain ⟨index, -, -, -, hone, -⟩ := hone
    rw [hone]
    exact List.cons_ne_nil _ _

/-- The number is refused on the last line, behind which a line feed makes no
difference. -/
theorem marksLine_iff_number :
    let text := "int\n5\n"
    let b := new (parse .source "unit.c" text) text
    b.outcome.status = .failed (.rejected .unexpectedToken) ∧
      ∃ error, b.nodeAt? b.selected = some error ∧
        SourcePane.MarksLine (Text.lines text.toList) error.position.line (40 - treeWidth 40)
          (sourcePart 40 7 (b.draw 40 7).2) := by
  intro text b
  have hstatus : (parse .source "unit.c" text).status = .failed (.rejected .unexpectedToken) := by
    decide +kernel
  have hrefused : (parse .source "unit.c" text).status ≠ .completed := by
    rw [hstatus]
    exact fun hcompleted => by cases hcompleted
  obtain ⟨error, hb, -, -, -, hframe⟩ := marksLine_iff .source "unit.c" text hrefused
  refine ⟨by decide +kernel, error, hb, ?_⟩
  refine (hframe 40 7 (by decide) (by decide)).1.2 ?_
  rintro ⟨hend, -⟩
  cases hstatus.symm.trans hend

/-- The declaration ends too soon on the second line of a text that has only
one line, and the first frame marks nothing. -/
theorem not_marksLine_feed :
    let text := "int\n"
    let b := new (parse .source "unit.c" text) text
    b.outcome.status = .failed (.rejected .unexpectedEndOfInput) ∧
      (b.nodeAt? b.selected).map (fun n => (n.kind, n.position.line)) = some (.error, 2) ∧
      (Text.lines text.toList).length = 1 ∧ 3 ≤ 40 - treeWidth 40 ∧
      faultyRows (sourcePart 40 7 (b.draw 40 7).2) = [] := by
  decide +kernel

end Browser

end CDeclarations
