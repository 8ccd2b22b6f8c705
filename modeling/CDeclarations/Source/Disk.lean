import CDeclarations.Source.Path

/-!
# `CDeclarations.Source.Disk`: what a path leads to

A disk answers two questions about a path: whether it leads to a file,
and what reading it gives. `MemoryDisk` is a disk held in memory: files,
directories, and the directory that relative paths begin at. A path is
followed component by component; only a directory can be passed
through, also where nothing follows but a slash or a dot.
-/

set_option autoImplicit false

namespace CDeclarations

/-- Why a path cannot be read. -/
inductive ReadFailure
  | missing
  | notDirectory
  | isDirectory
  | nameTooLong
  /-- The path holds a NUL character. -/
  | nulInName
  | other (text : String)
deriving DecidableEq

/-- The system's word for a failure. -/
def ReadFailure.message : ReadFailure → String
  | .missing => "No such file or directory (os error 2)"
  | .notDirectory => "Not a directory (os error 20)"
  | .isDirectory => "Is a directory (os error 21)"
  | .nameTooLong => "File name too long (os error 36)"
  | .nulInName => "file name contained an unexpected NUL byte"
  | .other text => text

/-- What paths lead to. -/
structure Disk where
  /-- The path leads to a file. -/
  isFile : Path → Bool
  read : Path → Except ReadFailure ByteArray

/-- A disk in memory. Files and directories are known by their
components from the root on. -/
structure MemoryDisk where
  files : List (List String × ByteArray)
  /-- Directories, of which some may hold no file. -/
  directories : List (List String)
  /-- The directory that relative paths begin at. -/
  home : List String

namespace MemoryDisk

/-- The longest component, in bytes. -/
def componentLimit : Nat := 255

/-- The longest path, in bytes. -/
def pathLimit : Nat := 4095

/-- A directory, or a directory on the way to something. -/
def isDirectory (disk : MemoryDisk) (path : List String) : Bool :=
  (disk.home :: disk.directories ++ disk.files.map Prod.fst).any path.isPrefixOf

/-- The contents of a file. -/
def file? (disk : MemoryDisk) (path : List String) : Option ByteArray :=
  disk.files.lookup path

/-- The place that relative paths begin at, or the root where the path
does. -/
def start (disk : MemoryDisk) (p : Path) : List String :=
  if p.isAbsolute then [] else disk.home

/-- The place that a piece of a path leads to: an empty piece and a dot
stay where they are, two dots go up, and the root is above itself. -/
def step (here : List String) (piece : String) : List String :=
  if piece = "" ∨ piece = "." then here
  else if piece = ".." then here.dropLast
  else here ++ [piece]

/-- The places that the pieces of a path lead to one after another. -/
def trail (here : List String) : List String → List (List String)
  | [] => []
  | piece :: pieces => step here piece :: trail (step here piece) pieces

/-- Follows the pieces of a path from the file or directory `here`. -/
def follow (disk : MemoryDisk) (here : List String) : List String → Except ReadFailure (List String)
  | [] => .ok here
  | piece :: pieces =>
      if (disk.file? here).isSome then .error .notDirectory
      else if componentLimit < piece.utf8ByteSize then .error .nameTooLong
      else
        let next := step here piece
        if (disk.file? next).isSome ∨ disk.isDirectory next then disk.follow next pieces
        else .error .missing

/-- What a path leads to, by its components from the root on. -/
def find (disk : MemoryDisk) (p : Path) : Except ReadFailure (List String) :=
  if p.text.toList.contains '\x00' then .error .nulInName
  else if p.text.isEmpty then .error .missing
  else if pathLimit < p.text.utf8ByteSize then .error .nameTooLong
  else disk.follow (disk.start p) p.pieces

/-- Reads the file that a path leads to. -/
def read (disk : MemoryDisk) (p : Path) : Except ReadFailure ByteArray :=
  match disk.find p with
  | .error failure => .error failure
  | .ok path =>
      match disk.file? path with
      | some bytes => .ok bytes
      | none => .error .isDirectory

/-- The answers that a disk in memory gives. -/
def disk (m : MemoryDisk) : Disk where
  isFile p :=
    match m.read p with
    | .ok _ => true
    | .error _ => false
  read := m.read

/-- Puts a directory where a path says, with every directory on the
way there. A directory that two dots leave again stays. -/
def addDirectory (m : MemoryDisk) (p : Path) : MemoryDisk :=
  { m with directories := trail (m.start p) p.pieces ++ m.directories }

/-- Puts a file where a path says, with every directory on the way
there. -/
def addFile (m : MemoryDisk) (p : Path) (bytes : ByteArray) : MemoryDisk :=
  let places := trail (m.start p) p.pieces
  { m with
    files := (places.getLastD (m.start p), bytes) :: m.files
    directories := places.dropLast ++ m.directories }

end MemoryDisk

end CDeclarations
