import CDeclarations.Browser.Basic
import CDeclarations.CommandLine

/-!
# `CDeclarations.Main`: the program

Reads what the arguments name, asks `CommandLine.run` what to do and
does it. A unit is browsed line by line: each line of standard input
names a key, and the screen is printed after it.
-/

set_option autoImplicit false

namespace CDeclarations.Main

/-- The name that the program is called by. -/
def program : String := "cdeclarations"

/-- Why reading a file failed. An error number may come with either
sign. -/
def readFailure (error : IO.Error) : ReadFailure :=
  match error with
  | .noFileOrDirectory .. => .missing
  | .inappropriateType _ code _ | .invalidArgument _ code _ =>
      match min code (0 - code) with
      | 20 => .notDirectory
      | 21 => .isDirectory
      | 36 => .nameTooLong
      | _ => .other (toString error)
  | _ => .other (toString error)

/-- What reading a path gives. -/
def readPath (p : Path) : IO (Except ReadFailure ByteArray) := do
  if p.text.toList.contains '\x00' then return .error .nulInName
  try
    return .ok (← IO.FS.readBinFile p.text)
  catch error => return .error (readFailure error)

/-- The answers to all questions that the arguments lead to. -/
def diskFor (args : List String) : IO Disk := do
  match Options.parse args with
  | .error _ => return ⟨fun _ => false, fun _ => .error .missing⟩
  | .ok options =>
      let found ← (options.searchPaths.candidates options.file).mapM fun p => do
        return (p, ← readPath p)
      let read (p : Path) : Except ReadFailure ByteArray :=
        (found.lookup p).getD (.error .missing)
      return ⟨fun p => (read p).toOption.isSome, read⟩

/-- The key that a line of input names. -/
def keyNamed (name : String) : Key :=
  match name with
  | "up" => .up
  | "down" => .down
  | "pageup" => .pageUp
  | "pagedown" => .pageDown
  | "home" => .home
  | "end" => .bottom
  | "esc" => .escape
  | _ =>
      match name.toList with
      | [c] => .char c
      | _ => .other

/-- Prints a screen without its colours. -/
def printScreen (rows : Screen.Rows) : IO Unit :=
  rows.forM fun row => IO.println (String.ofList (row.map (·.char)))

/-- Shows the browser and acts on keys until it is done. -/
partial def browse (b : Browser) (input : IO.FS.Stream) : IO Unit := do
  let (b, screen) := b.draw 80 24
  printScreen screen
  let line ← input.getLine
  if line.isEmpty then return
  let b := b.press ⟨keyNamed line.trimAscii.toString, false⟩
  if b.done then return
  browse b input

end CDeclarations.Main

open CDeclarations in
def main (args : List String) : IO UInt32 := do
  match CommandLine.run Main.program (← Main.diskFor args) args with
  | .ended code output errors =>
      IO.print output
      IO.eprint errors
      return code.toUInt32
  | .browsing outcome text =>
      Main.browse (.new outcome text) (← IO.getStdin)
      return 0
