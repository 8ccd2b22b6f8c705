import CDeclarations.Source.Unit
import CDeclarations.Tree.Render

/-!
# `CDeclarations.CommandLine`: arguments and what they ask for

The arguments name one unit, directories for headers, and whether the
tree is to be printed instead of browsed. `CommandLine.run` says what
the program does with them on a given disk: it ends with an exit code
and two texts, or begins to browse.
-/

set_option autoImplicit false

namespace CDeclarations

/-- What the arguments ask for. -/
structure Options where
  file : Path
  searchPaths : SearchPaths
  /-- The tree is printed instead of browsed. -/
  dump : Bool
deriving DecidableEq

/-- What is wrong with the arguments. -/
inductive UsageError
  | missingDirectory
  | unknownOption (option : String)
  | severalFiles
  | noFile
deriving DecidableEq

/-- The message of a usage error. -/
def UsageError.message : UsageError → String
  | .missingDirectory => "missing directory after -I"
  | .unknownOption option => "unknown option '" ++ option ++ "'"
  | .severalFiles => "only one input file can be given"
  | .noFile => "no input file provided"

namespace Options

/-- Reads the arguments that follow those behind `file`, `dirs` and
`dump`. -/
def parseFrom (file : Option Path) (dirs : List Path) (dump : Bool) :
    List String → Except UsageError Options
  | [] =>
      match file with
      | some file => .ok ⟨file, ⟨dirs⟩, dump⟩
      | none => .error .noFile
  | "--dump" :: rest => parseFrom file dirs true rest
  | "-I" :: dir :: rest => parseFrom file (dirs ++ [⟨dir⟩]) dump rest
  | "-I" :: [] => .error .missingDirectory
  | arg :: rest =>
      match arg.toList with
      | '-' :: 'I' :: dir => parseFrom file (dirs ++ [⟨String.ofList dir⟩]) dump rest
      | '-' :: _ => .error (.unknownOption arg)
      | _ =>
          match file with
          | some _ => .error .severalFiles
          | none => parseFrom (some ⟨arg⟩) dirs dump rest

/-- Reads the arguments that follow the program's name. -/
def parse (args : List String) : Except UsageError Options :=
  parseFrom none [] false args

end Options

namespace CommandLine

/-- How the program is called. -/
def usage (program : String) : String :=
  "Usage: " ++ program ++ " <file.c|file.h> [-I <dir>]... [--dump]\n"
    ++ "\n"
    ++ "Options:\n"
    ++ "  -I <dir>    Add a directory to the header search path (in order)\n"
    ++ "  --dump      Print the parse tree instead of starting the browser\n"
    ++ "\n"
    ++ "Set RUST_LOG=debug (or trace) to follow the parser state machine.\n"

/-- What the program does. -/
inductive Run
  /-- It ends with an exit code, having written two texts. -/
  | ended (code : Nat) (output errors : String)
  /-- It lets the user browse the tree beside the text. -/
  | browsing (outcome : Outcome) (text : String)

/-- The exit code of a dump. -/
def exitCode : Status → Nat
  | .completed => 0
  | .failed _ => 1

/-- What the program does when it is called by the given name with the
given arguments. -/
def run (program : String) (disk : Disk) (args : List String) : Run :=
  match Options.parse args with
  | .error error => .ended 2 "" ("Error: " ++ error.message ++ "\n\n" ++ usage program)
  | .ok options =>
      match SourceFile.openPath disk options.searchPaths options.file with
      | .error error => .ended 1 "" ("Error: " ++ error.message ++ "\n")
      | .ok file =>
          let outcome := file.parse options.file.text
          if options.dump then
            .ended (exitCode outcome.status) outcome.tree.render
              (options.file.text ++ ": " ++ outcome.status.describe ++ "\n")
          else .browsing outcome file.text

end CommandLine

end CDeclarations
