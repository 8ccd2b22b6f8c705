import CDeclarations.Tree.NodeKind

/-!
# `CDeclarations.Source.Path`: names of files

A path is a text whose components a slash parts. Paths are joined as
texts: nothing is looked up and nothing is made shorter. What kind of
unit a path names is told by its extension.
-/

set_option autoImplicit false

namespace CDeclarations

/-- The name of a file or of a directory. -/
structure Path where
  text : String
deriving DecidableEq

namespace Path

/-- The pieces of a text between the slashes. -/
def splitSlashes : List Char → List (List Char)
  | [] => [[]]
  | '/' :: rest => [] :: splitSlashes rest
  | c :: rest =>
      match splitSlashes rest with
      | [] => [[c]]
      | piece :: pieces => (c :: piece) :: pieces

/-- The pieces of a path between its slashes, empty ones included. -/
def pieces (p : Path) : List String :=
  (splitSlashes p.text.toList).map String.ofList

/-- The path begins at the root of all directories. -/
def isAbsolute (p : Path) : Bool :=
  p.text.toList.head? = some '/'

/-- The path `name` as seen from the directory `dir`. -/
def join (dir name : Path) : Path :=
  if name.isAbsolute then name
  else if dir.text.isEmpty ∨ dir.text.toList.getLast? = some '/' then ⟨dir.text ++ name.text⟩
  else ⟨dir.text ++ "/" ++ name.text⟩

/-- The last component. Empty components and the dot are none; a path
that ends in two dots has no name. -/
def fileName? (p : Path) : Option String :=
  match (p.pieces.filter fun piece => piece ≠ "" ∧ piece ≠ ".").getLast? with
  | some ".." => none
  | name => name

/-- What stands behind the last dot of the last component, if anything
stands before the dot. -/
def extension? (p : Path) : Option String :=
  match p.fileName? with
  | none => none
  | some name =>
      let backward := name.toList.reverse
      match backward.dropWhile (· ≠ '.') with
      -- The dot itself and something before it.
      | _ :: _ :: _ => some (String.ofList (backward.takeWhile (· ≠ '.')).reverse)
      | _ => none

end Path

/-- The kind of unit that a path names. -/
def UnitKind.ofPath? (p : Path) : Option UnitKind :=
  match p.extension? with
  | some "h" => some .header
  | some "c" => some .source
  | _ => none

end CDeclarations
