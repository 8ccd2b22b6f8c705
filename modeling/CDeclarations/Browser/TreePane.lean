import CDeclarations.Browser.Palette
import CDeclarations.Screen.Box
import CDeclarations.Tree.Render

/-!
# `CDeclarations.Browser.TreePane`: the outline on the screen

The pane shows the rows of a tree, each as it stands in the outline,
with its parts in the colours of their meaning. A window of rows is
shown; it moves no further than needed to hold the selected row.
-/

set_option autoImplicit false

namespace CDeclarations.TreePane

open Screen

/-- How the name of a kind is drawn. -/
def kindStyle : NodeKind → Style
  | .error => (Style.colored Palette.error).inBold
  | .warning => .colored Palette.warning
  | .headerUnit | .sourceUnit => (Style.colored Palette.unit).inBold
  | .blockComment | .lineComment => .colored Palette.muted
  | .directive | .includeDirective | .includeName | .defineDirective | .defineName
  | .defineBody | .pragmaDirective | .pragmaText => .colored Palette.directive
  | .datatype | .primitiveType | .userType | .union | .enum | .struct =>
      .colored Palette.typeName
  | .specifier | .qualifier | .modifier => .colored Palette.keyword
  | .identifier => .colored Palette.identifier
  | _ => .colored Palette.text

/-- The spans of a node at its depth: indentation, kind, payload,
position and message. -/
def spans (row : Row) (n : Node) : List Span :=
  [⟨row.indent, .plain⟩, ⟨n.kind.name, kindStyle n.kind⟩]
    ++ (match n.payload with
      | some payload => [⟨" " ++ Text.quoted payload, .colored Palette.literal⟩]
      | none => [])
    ++ (if n.kind.isUnit then []
      else [⟨" @" ++ n.position.render, .colored Palette.muted⟩])
    ++ (match n.diagnostic with
      | some message => [⟨" (" ++ message ++ ")", kindStyle n.kind⟩]
      | none => [])

/-- The spans of the row of a tree. -/
def rowSpans (t : Tree) (row : Row) : List Span :=
  match t.nodes[row.id]? with
  | some n => spans row n
  | none => []

/-- A span of the selected row. -/
def markSelected (s : Span) : Span :=
  { s with style := (s.style.on Palette.selection).inBold }

/-- The first row of the window of `visible` rows that holds the
selected row and moves least from `scroll`. -/
def follow (selected scroll visible : Nat) : Nat :=
  if selected < scroll then selected
  else if scroll + visible ≤ selected then selected + 1 - visible
  else scroll

/-- The pane with the window of rows that begins at `scroll`. -/
def draw (t : Tree) (rows : List Row) (selected scroll width height : Nat) : Rows :=
  let box : Box :=
    ⟨" Parse Tree (" ++ toString rows.length ++ " nodes) ",
      (Style.colored Palette.focusedFrame).inBold⟩
  let shown := (rows.drop scroll).take (Box.visibleRows height)
  let lines := shown.zipIdx scroll |>.map fun (row, index) =>
    let line := rowSpans t row
    cells (if index = selected then line.map markSelected else line)
  box.draw width height lines

end CDeclarations.TreePane
