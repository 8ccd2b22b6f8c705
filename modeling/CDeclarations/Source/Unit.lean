import CDeclarations.Parser.Run
import CDeclarations.Source.Disk
import CDeclarations.Text.Lossy

/-!
# `CDeclarations.Source.Unit`: finding and reading a unit

A unit is a header or a source file, told apart by its extension, and
anything else is refused before a token is read. A source file is read
where its path leads. A header is looked for in the search directories
first, in order, and then where its path leads.

* `SearchPaths.resolve_eq_some_iff`: the candidate that is found is
  the first one that leads to a file.
-/

set_option autoImplicit false

namespace CDeclarations

/-- The directories in which headers are looked for, in order. -/
structure SearchPaths where
  dirs : List Path
deriving DecidableEq

namespace SearchPaths

/-- The paths that a header may be found at, in the order in which
they are tried. An absolute path is tried as it is. -/
def candidates (paths : SearchPaths) (name : Path) : List Path :=
  if name.isAbsolute then [name] else paths.dirs.map (·.join name) ++ [name]

/-- The first candidate that leads to a file. -/
def resolve (paths : SearchPaths) (disk : Disk) (name : Path) : Option Path :=
  (paths.candidates name).find? disk.isFile

/-- The found candidate leads to a file, and none before it does. -/
theorem resolve_eq_some_iff (paths : SearchPaths) (disk : Disk) (name found : Path) :
    paths.resolve disk name = some found ↔
      disk.isFile found = true ∧ ∃ before after,
        paths.candidates name = before ++ found :: after
          ∧ ∀ p ∈ before, disk.isFile p = false := by
  simp [resolve, List.find?_eq_some_iff_append]

end SearchPaths

/-- Why a unit cannot be opened. -/
inductive OpenError
  | notCFile (path : Path)
  /-- The path leads nowhere. A header was looked for in the
  directories `searched`. -/
  | notFound (path : Path) (searched : List Path)
  | unreadable (path : Path) (cause : ReadFailure)
deriving DecidableEq

/-- The message of a failure to open a unit. -/
def OpenError.message : OpenError → String
  | .notCFile path => "'" ++ path.text ++ "' is neither a C header file nor a C source file"
  | .notFound path [] => "cannot find '" ++ path.text ++ "'"
  | .notFound path searched =>
      "cannot find '" ++ path.text ++ "' (searched: "
        ++ ", ".intercalate (searched.map Path.text) ++ ")"
  | .unreadable path cause => "cannot read '" ++ path.text ++ "': " ++ cause.message

/-- A unit that is read into memory. -/
structure SourceFile where
  kind : UnitKind
  /-- The path that the unit was found at. -/
  path : Path
  bytes : ByteArray

namespace SourceFile

/-- The path that a unit of the given kind is read from. -/
def locate (disk : Disk) (paths : SearchPaths) (path : Path) :
    UnitKind → Except OpenError Path
  | .source => .ok path
  | .header =>
      match paths.resolve disk path with
      | some found => .ok found
      | none => .error (.notFound path paths.dirs)

/-- Finds and reads the unit that a path names. -/
def openPath (disk : Disk) (paths : SearchPaths) (path : Path) : Except OpenError SourceFile :=
  match UnitKind.ofPath? path with
  | none => .error (.notCFile path)
  | some kind =>
      match locate disk paths path kind with
      | .error error => .error error
      | .ok found =>
          match disk.read found with
          | .ok bytes => .ok ⟨kind, found, bytes⟩
          -- A header can be gone between the search and the reading.
          | .error .missing => .error (.notFound path [])
          | .error cause => .error (.unreadable found cause)

/-- The text of a unit. -/
def text (file : SourceFile) : String :=
  Text.Lossy.decode file.bytes

/-- Parses a unit under the name that its tree is to carry. -/
def parse (file : SourceFile) (filename : String) : Outcome :=
  CDeclarations.parse file.kind filename file.text

end SourceFile

/-- Finds, reads and parses the unit that a path names. -/
def parsePath (disk : Disk) (paths : SearchPaths) (path : Path) : Except OpenError Outcome :=
  (SourceFile.openPath disk paths path).map fun file => file.parse path.text

end CDeclarations
