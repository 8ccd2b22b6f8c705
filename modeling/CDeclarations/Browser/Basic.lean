import CDeclarations.Browser.SourcePane
import CDeclarations.Browser.StatusBar
import CDeclarations.Browser.TreePane
import CDeclarations.Parser.Run

/-!
# `CDeclarations.Browser.Basic`: browsing a parsed unit

A browser holds a parsed unit with its text and a selected row of its
tree. Keys move the selection; drawing a frame moves the windows of
both panes so that they hold the selected row and its line, and sets
the length of a page to what the tree pane shows.
-/

set_option autoImplicit false

namespace CDeclarations

open Screen

/-- A browser of a parsed unit. -/
structure Browser where
  outcome : Outcome
  /-- The text of the unit. -/
  source : String
  /-- The selected row, counted from zero. -/
  selected : Nat
  message : String
  done : Bool
  /-- The rows that a page key moves by. -/
  pageSize : Nat
  /-- The first row shown of the tree. -/
  treeScroll : Nat
  /-- The first line shown of the text, counted from zero. -/
  sourceScroll : Nat

/-- A key. -/
inductive Key
  | up
  | down
  | pageUp
  | pageDown
  | home
  | bottom
  | escape
  | char (c : Char)
  /-- A key that has no meaning here. -/
  | other
deriving DecidableEq

/-- A key, pressed alone or together with the control key. -/
structure KeyPress where
  key : Key
  control : Bool
deriving DecidableEq

namespace Browser

/-- The rows of the tree. -/
def rows (b : Browser) : List Row :=
  b.outcome.tree.rows

/-- The node of a row, if there is such a row. -/
def nodeAt? (b : Browser) (index : Nat) : Option Node :=
  b.rows[index]?.bind fun row => b.outcome.tree.nodes[row.id]?

/-- The numbers of the rows that hold an error or a warning. -/
def diagnosticRows (b : Browser) : List Nat :=
  b.rows.zipIdx.filterMap fun (row, index) =>
    if (b.outcome.tree.kind? row.id).any NodeKind.isDiagnostic then some index else none

/-- What there is to say about the selected row: the message of an
error or a warning, else the description of the node, with the status
of a parse that did not complete. -/
def selectedMessage (b : Browser) : String :=
  match b.nodeAt? b.selected with
  | none => ""
  | some n =>
      match n.diagnostic, b.outcome.status with
      | some message, _ => n.position.render ++ ": " ++ message
      | none, .completed => n.describe
      | none, status => n.describe ++ " [" ++ status.describe ++ "]"

/-! ### Moving the selection -/

/-- Selects a row, or the last one where there is no such row. -/
def select (b : Browser) (index : Nat) : Browser :=
  let moved := { b with selected := min index (b.rows.length - 1) }
  { moved with message := moved.selectedMessage }

/-- A browser of a parsed unit. The first error or warning is selected
if there is any. -/
def new (outcome : Outcome) (source : String) : Browser :=
  let b : Browser := {
    outcome, source, selected := 0, message := "Ready!", done := false, pageSize := 10,
    treeScroll := 0, sourceScroll := 0 }
  match b.diagnosticRows.head? with
  | some first => b.select first
  | none => b

/-- Selects a row that was searched for, if any was found. -/
def selectFound (b : Browser) : Option Nat → Browser
  | some index => b.select index
  | none => { b with message := "No diagnostics" }

/-- Selects the next error or warning; the first one follows the
last. -/
def nextDiagnostic (b : Browser) : Browser :=
  let found := b.diagnosticRows
  b.selectFound ((found.find? (b.selected < ·)).or found.head?)

/-- Selects the error or warning before the selected row; the last one
stands before the first. -/
def previousDiagnostic (b : Browser) : Browser :=
  let found := b.diagnosticRows
  b.selectFound ((found.reverse.find? (· < b.selected)).or found.getLast?)

/-- Acts on a key. The control key changes nothing. -/
def press (b : Browser) (press : KeyPress) : Browser :=
  match press.key with
  | .char 'q' | .char 'Q' | .escape => { b with done := true }
  | .up => b.select (b.selected - 1)
  | .down => b.select (b.selected + 1)
  | .pageUp => b.select (b.selected - b.pageSize)
  | .pageDown => b.select (b.selected + b.pageSize)
  | .home => b.select 0
  | .bottom => b.select b.rows.length
  | .char 'n' => b.nextDiagnostic
  | .char 'N' => b.previousDiagnostic
  | _ => b

/-! ### Frames -/

/-- The width of the tree pane, which has 55 % of the screen; the
source pane has the rest. On a screen whose width is a multiple of 20
both are exact. On any other the cut is moved to the nearest column,
and half a column falls to the tree pane. -/
def treeWidth (width : Nat) : Nat :=
  (width * 55 + 50) / 100

/-- The line of the selected row, and how it is marked. -/
def selectedLine (b : Browser) : Nat × SourcePane.Marking :=
  match b.nodeAt? b.selected with
  | some n => (n.position.line, if n.kind.isDiagnostic then .faulty else .selected)
  | none => (0, .selected)

/-- The browser with its windows moved for panes of the given
height. -/
def arrange (b : Browser) (height : Nat) : Browser :=
  let visible := Box.visibleRows height
  let total := (Text.lines b.source.toList).length
  { b with
    pageSize := visible
    treeScroll := TreePane.follow b.selected b.treeScroll visible
    sourceScroll := SourcePane.follow b.selectedLine.1 total b.sourceScroll visible }

/-- The status bar of a browser. -/
def statusBar (b : Browser) : StatusBar where
  message := b.message
  selected := b.selected
  nodes := b.rows.length
  diagnostics := b.outcome.tree.diagnostics.length
  status := b.outcome.status

/-- The screen of a browser whose windows are in place: both panes, and
the status bar in the last row. -/
def screen (b : Browser) (width height : Nat) : Rows :=
  let paneHeight := height - 1
  let (line, marking) := b.selectedLine
  let left := TreePane.draw b.outcome.tree b.rows b.selected b.treeScroll (treeWidth width)
    paneHeight
  let right := SourcePane.draw (Text.lines b.source.toList) line marking b.sourceScroll
    (width - treeWidth width) paneHeight
  beside left right ++ b.statusBar.draw width (height - paneHeight)

/-- Draws a frame: the browser with its windows in place, and its
screen. -/
def draw (b : Browser) (width height : Nat) : Browser × Rows :=
  let arranged := b.arrange (height - 1)
  (arranged, arranged.screen width height)

end Browser

end CDeclarations
