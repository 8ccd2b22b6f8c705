import CDeclarations.Text.Quoted
import CDeclarations.Tree.Rows

/-!
# `CDeclarations.Tree.Render`: the outline of a tree

A node is described on one line: its kind, its payload in quotes, its
position unless it is a unit, and its message in parentheses. The
outline of a tree has one such line for each row, indented by two
spaces for each level.
-/

set_option autoImplicit false

namespace CDeclarations

/-- The description of a node on one line. -/
def Node.describe (n : Node) : String :=
  n.kind.name
    ++ (match n.payload with
      | some payload => " " ++ Text.quoted payload
      | none => "")
    ++ (if n.kind.isUnit then "" else " @" ++ n.position.render)
    ++ (match n.diagnostic with
      | some message => " (" ++ message ++ ")"
      | none => "")

/-- Two spaces for each level. -/
def Row.indent (row : Row) : String :=
  String.ofList (List.replicate (2 * row.depth) ' ')

namespace Tree

/-- The lines of the outline. -/
def outline (t : Tree) : List String :=
  t.rowNodes.map fun (row, n) => row.indent ++ n.describe

/-- The outline as one text, each line of it ended. -/
def render (t : Tree) : String :=
  String.join (t.outline.map fun line => line ++ "\n")

end Tree

end CDeclarations
