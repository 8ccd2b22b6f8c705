import CDeclarations.CommandLine
import CDeclarations.Proofs.Options
import CDeclarations.Proofs.Parser.ErrorNode
import CDeclarations.Proofs.Parser.Outline
import CDeclarations.Proofs.Tree.Lines

/-!
# `CDeclarations.Proofs.CommandLine`: what a dump tells its caller

A caller of the program sees an exit code and what is written to the
standard output. `CommandLine.run_dump` says what these two tell on any
disk, for all arguments that ask for a dump or are refused.

* `Options.AsksDump`: an argument asks for a dump, unless it names a
  directory of the search path.
* `status_parse_eq_completed_iff`: a parse is complete exactly when no line
  of the outline of its tree tells of an error.
-/

set_option autoImplicit false

namespace CDeclarations

open ArgumentGroup
open Text (TellsError)

/-! ### Arguments -/

namespace Options

/-- One of the arguments asks for a dump. The one behind a single `-I` is
the name of a directory, whatever it looks like. -/
inductive AsksDump : List String → Prop
  | here {arg : String} {rest : List String} (harg : arg = "--dump") : AsksDump (arg :: rest)
  | behindDirectory {arg dir : String} {rest : List String} (harg : arg = "-I")
      (h : AsksDump rest) : AsksDump (arg :: dir :: rest)
  | behind {arg : String} {rest : List String} (harg : arg ≠ "-I") (h : AsksDump rest) :
      AsksDump (arg :: rest)

variable {args rest : List String} {arg dir : String} {options : Options}

/-- No arguments ask for no dump. -/
theorem not_asksDump_nil : ¬AsksDump [] := nofun

/-- The value of `-I` is not looked at, even where it is spelled like the
option. -/
theorem asksDump_directory_iff : AsksDump ("-I" :: dir :: rest) ↔ AsksDump rest := by
  constructor
  · rintro (hdump | ⟨-, h⟩ | ⟨hne, -⟩)
    · exact absurd hdump (by decide)
    · exact h
    · exact absurd rfl hne
  · exact .behindDirectory rfl

/-- Any other argument leaves the question to the arguments behind it. -/
theorem asksDump_other_iff (hdump : arg ≠ "--dump") (hdir : arg ≠ "-I") :
    AsksDump (arg :: rest) ↔ AsksDump rest := by
  constructor
  · rintro (h | ⟨h, -⟩ | ⟨-, h⟩)
    · exact absurd h hdump
    · exact absurd h hdir
    · exact h
  · exact .behind hdir

/-- Groups of arguments ask for a dump if one of them does. -/
theorem asksDump_flatMap_arguments_iff (groups : List ArgumentGroup) :
    AsksDump (groups.flatMap arguments) ↔ groups.any isDump = true := by
  induction groups with
  | nil => exact iff_of_false not_asksDump_nil Bool.false_ne_true
  | cons group groups ih =>
      cases group with
      | dump => exact iff_of_true (.here rfl) rfl
      | directory dir => exact asksDump_directory_iff.trans ih
      | glued dir h => exact (asksDump_other_iff (glued_ne_dump dir) (glued_ne_single h)).trans ih
      | file name h => exact (asksDump_other_iff (file_ne h rfl) (file_ne h rfl)).trans ih

/-- Arguments that are understood ask for a dump exactly if one of them
does. -/
theorem dump_parse_iff (h : parse args = .ok options) : options.dump = true ↔ AsksDump args := by
  obtain ⟨groups, rfl, -, -, hdump⟩ := exists_groups_of_parse h
  rw [asksDump_flatMap_arguments_iff, hdump]

end Options

/-! ### The status of a parse -/

namespace Parser

/-- The tree of every parse has a dump that can be read back. -/
theorem legible_parse (kind : UnitKind) (filename text : String) :
    (parse kind filename text).tree.Legible :=
  (sound_ofUnit kind filename).legible_run (Tree.legible_ofUnit kind filename) _

/-- A run is complete exactly when no line of the outline tells of an
error: what stops a run leaves an error in its tree. -/
theorem status_parse_eq_completed_iff (kind : UnitKind) (filename text : String) :
    (parse kind filename text).status = .completed ↔
      ∀ line ∈ (parse kind filename text).tree.render.toList.splitOn '\n', ¬TellsError line := by
  let p := ofUnit kind filename
  let d := p.deliver (.ofString text)
  have hsettled : d.parser.SettledBy (p.refused? d.tokens.toList) :=
    ((growing_ofUnit kind filename).settledBy_feedAll rfl _).of_sameButMode
      (feedAll_deliver p (.ofString text))
  rw [← (legible_parse kind filename text).hasErrors_eq_false_iff, Tree.hasErrors_eq_false_iff]
  -- A parse that completed has no error, and every other one ends with exactly one.
  rcases hsettled.close d.cursor with ⟨hstatus, htidy, -⟩ |
    ⟨failure, error, hstatus, hends, -⟩
  · exact iff_of_true hstatus (htidy.count_eq_zero rfl)
  · refine iff_of_false ?_ ?_
    · intro hcompleted
      cases hstatus.symm.trans hcompleted
    · intro hzero
      cases hends.count.symm.trans hzero

end Parser

/-! ### Dumps -/

namespace CommandLine

variable (program : String) (disk : Disk) {args : List String} {options : Options}

/-- The exit code tells whether the parse completed. -/
theorem exitCode_eq (status : Status) : exitCode status = if status = .completed then 0 else 1 := by
  cases status with
  | completed => rfl
  | failed failure => rw [exitCode, if_neg nofun]

/-- Arguments that are refused end with code 2 and no output. -/
theorem run_of_refused {error : UsageError} (h : Options.parse args = .error error) :
    ∃ errors, run program disk args = .ended 2 "" errors := by
  simp only [run, h]
  exact ⟨_, rfl⟩

/-- A file that cannot be opened ends with code 1 and no output. -/
theorem run_of_unopened {error : OpenError} (h : Options.parse args = .ok options)
    (hopen : SourceFile.openPath disk options.searchPaths options.file = .error error) :
    ∃ errors, run program disk args = .ended 1 "" errors := by
  simp only [run, h, hopen]
  exact ⟨_, rfl⟩

/-- A file that was opened is parsed, and its dump is the output. -/
theorem run_of_opened {file : SourceFile} (h : Options.parse args = .ok options)
    (hdump : options.dump = true)
    (hopen : SourceFile.openPath disk options.searchPaths options.file = .ok file) :
    ∃ errors, run program disk args = .ended (exitCode (file.parse options.file.text).status)
      (file.parse options.file.text).tree.render errors := by
  simp only [run, h, hopen, hdump, if_true]
  exact ⟨_, rfl⟩

/-- A dump tells its caller what came of it. The exit code is two, and
nothing is written, exactly when the arguments are refused. Else nothing is
written exactly when the unit cannot be opened, with exit code one. Else
the outline is written, and the exit code tells whether the parse is
complete, as do the lines of the outline. -/
theorem run_dump (args : List String)
    (h : Options.AsksDump args ∨ ∃ error, Options.parse args = .error error) :
    ∃ code output errors, run program disk args = .ended code output errors ∧
      ((code = 2 ∧ output = "") ↔ ∃ error, Options.parse args = .error error) ∧
      ∀ options, Options.parse args = .ok options →
        (output = "" ↔ ∃ error,
          SourceFile.openPath disk options.searchPaths options.file = .error error) ∧
        (output = "" → code = 1) ∧
        ∀ file, SourceFile.openPath disk options.searchPaths options.file = .ok file →
          let outcome := file.parse options.file.text
          output = outcome.tree.render ∧
          (outcome.status = .completed ↔
            ∀ line ∈ output.toList.splitOn '\n', ¬TellsError line) ∧
          code = if outcome.status = .completed then 0 else 1 := by
  -- The run ends at the arguments, at the unit, or with the outline.
  cases hparse : Options.parse args with
  | error error =>
      obtain ⟨errors, hrun⟩ := run_of_refused program disk hparse
      refine ⟨2, "", errors, hrun, iff_of_true ⟨rfl, rfl⟩ ⟨error, rfl⟩, ?_⟩
      rintro options ⟨⟩
  | ok options =>
      have hnone : ¬∃ error : UsageError, Except.ok options = .error error := by
        rintro ⟨error, ⟨⟩⟩
      cases hopen : SourceFile.openPath disk options.searchPaths options.file with
      | error error =>
          obtain ⟨errors, hrun⟩ := run_of_unopened program disk hparse hopen
          refine ⟨1, "", errors, hrun, iff_of_false (fun h => absurd h.1 (by decide)) hnone, ?_⟩
          rintro _ ⟨⟩
          refine ⟨iff_of_true rfl ⟨error, hopen⟩, fun _ => rfl, fun file hfile => ?_⟩
          cases hopen.symm.trans hfile
      | ok file =>
          have hdump : options.dump = true :=
            (Options.dump_parse_iff hparse).2 (h.resolve_right (hparse ▸ hnone))
          obtain ⟨errors, hrun⟩ := run_of_opened program disk hparse hdump hopen
          have hwritten : (file.parse options.file.text).tree.render ≠ "" :=
            (Parser.legible_parse _ _ _).built.ordered.render_ne_empty
          refine ⟨_, _, errors, hrun, iff_of_false (fun h => hwritten h.2) hnone, ?_⟩
          rintro _ ⟨⟩
          refine ⟨iff_of_false hwritten ?_, fun h => absurd h hwritten, fun file' hfile => ?_⟩
          · rintro ⟨error, herror⟩
            cases hopen.symm.trans herror
          · obtain rfl : file = file' := by
              cases hopen.symm.trans hfile
              rfl
            exact ⟨rfl, Parser.status_parse_eq_completed_iff _ _ _, exitCode_eq _⟩

/-- A unit whose name looks like the line of an error, with a search path
that is named like the option: it is complete, and no line tells of an
error. -/
theorem run_dump_declaration :
    let name := "a\n  error.c"
    let disk := (MemoryDisk.addFile ⟨[], [], []⟩ ⟨name⟩ "int x;".toUTF8).disk
    ∃ output errors,
      run "cdeclarations" disk ["-I", "--dump", name, "--dump"] = .ended 0 output errors ∧
        output ≠ "" ∧ ∀ line ∈ output.toList.splitOn '\n', ¬TellsError line := by
  intro name disk
  have hasks : Options.AsksDump ["-I", "--dump", name, "--dump"] :=
    .behindDirectory rfl (.behind (by decide) (.here rfl))
  have hparse : Options.parse ["-I", "--dump", "a\n  error.c", "--dump"] =
      .ok ⟨⟨"a\n  error.c"⟩, ⟨[⟨"--dump"⟩]⟩, true⟩ := by rfl
  -- The exit code is evaluated; what the output says follows from the code.
  have hcode : (match run "cdeclarations" disk ["-I", "--dump", name, "--dump"] with
      | .ended 0 _ _ => true
      | _ => false) = true := by decide +kernel
  obtain ⟨code, output, errors, hrun, -, hunit⟩ :=
    run_dump "cdeclarations" disk ["-I", "--dump", name, "--dump"] (Or.inl hasks)
  obtain ⟨hempty, hone, hfile⟩ := hunit _ hparse
  obtain rfl : code = 0 := by
    rw [hrun] at hcode
    split at hcode
    · next h => exact (Run.ended.inj h).1
    · cases hcode
  have hwritten : output ≠ "" := fun h => absurd (hone h) (by decide)
  refine ⟨output, errors, hrun, hwritten, ?_⟩
  cases hopen : SourceFile.openPath disk ⟨[⟨"--dump"⟩]⟩ ⟨name⟩ with
  | error error => exact absurd (hempty.2 ⟨error, hopen⟩) hwritten
  | ok file =>
      obtain ⟨-, hcompleted, hexit⟩ := hfile file hopen
      refine hcompleted.1 ?_
      by_contra hfailed
      rw [if_neg hfailed] at hexit
      cases hexit

end CommandLine

end CDeclarations
