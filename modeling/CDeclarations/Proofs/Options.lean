import CDeclarations.CommandLine
import Mathlib.Data.List.Basic

/-!
# `CDeclarations.Proofs.Options`: the language of the arguments

Arguments are read from the left, and what an argument means is told by its
first characters, or by a single `-I` before it. So the arguments fall into
groups, each of which asks for one thing.

* `ArgumentGroup`: a group of each sort, with the arguments that spell it.
* `ArgumentGroup.arguments_append_inj`: where a group ends is told by the
  arguments of the group alone.
* `Options.parseFrom_arguments`: groups are read one by one.
* `Options.parse_eq_ok_iff`: what arguments are accepted, and what they ask
  for.
-/

set_option autoImplicit false

namespace CDeclarations

/-- Arguments that ask for one thing. -/
inductive ArgumentGroup
  | dump
  /-- What stands behind a single `-I` is a directory, whatever it looks
  like. -/
  | directory (dir : String)
  /-- A directory that is glued to its `-I`. -/
  | glued (dir : String) (h : dir ≠ "")
  | file (name : String) (h : name.toList.head? ≠ some '-')

namespace ArgumentGroup

/-- How a group is spelled. -/
def arguments : ArgumentGroup → List String
  | dump => ["--dump"]
  | directory dir => ["-I", dir]
  | glued dir _ => ["-I" ++ dir]
  | file name _ => [name]

/-- The group asks for a dump. -/
def isDump : ArgumentGroup → Bool
  | dump => true
  | _ => false

/-- The directory that a group puts on the search path. -/
def directory? : ArgumentGroup → Option Path
  | directory dir | glued dir _ => some ⟨dir⟩
  | _ => none

/-- The unit that a group names. -/
def file? : ArgumentGroup → Option Path
  | file name _ => some ⟨name⟩
  | _ => none

/-! ### One cut -/

/-- The characters of an option with its value glued to it. -/
theorem toList_glued (dir : String) : ("-I" ++ dir).toList = '-' :: 'I' :: dir.toList := by
  rw [String.toList_append]
  rfl

/-- The option with its value is never the dump option. -/
theorem glued_ne_dump (dir : String) : "-I" ++ dir ≠ "--dump" := by
  intro h
  have hchars : '-' :: 'I' :: dir.toList = "--dump".toList := by rw [← toList_glued, h]
  cases hchars

/-- With a value that is not empty it is never the bare option. -/
theorem glued_ne_single {dir : String} (h : dir ≠ "") : "-I" ++ dir ≠ "-I" := by
  intro heq
  have hchars : '-' :: 'I' :: dir.toList = "-I".toList := by rw [← toList_glued, heq]
  exact h (String.toList_eq_nil_iff.1 (List.cons.inj (List.cons.inj hchars).2).2)

/-- The name of a file is no option. -/
theorem file_ne {name option : String} (hname : name.toList.head? ≠ some '-')
    (hoption : option.toList.head? = some '-') : name ≠ option :=
  fun h => hname (h ▸ hoption)

/-- Where a group ends is told by its arguments alone. -/
theorem arguments_append_inj {group group' : ArgumentGroup} {rest rest' : List String}
    (h : group.arguments ++ rest = group'.arguments ++ rest') : group = group' ∧ rest = rest' := by
  -- Groups of different sorts differ in their first argument.
  cases group with
  | dump =>
      cases group' with
      | dump => exact ⟨rfl, (List.cons.inj h).2⟩
      | directory dir => exact absurd (List.cons.inj h).1 (by decide)
      | glued dir hdir => exact absurd (List.cons.inj h).1.symm (glued_ne_dump dir)
      | file name hname => exact absurd (List.cons.inj h).1.symm (file_ne hname rfl)
  | directory dir =>
      cases group' with
      | dump => exact absurd (List.cons.inj h).1 (by decide)
      | directory dir' =>
          cases h
          exact ⟨rfl, rfl⟩
      | glued dir' hdir => exact absurd (List.cons.inj h).1.symm (glued_ne_single hdir)
      | file name hname => exact absurd (List.cons.inj h).1.symm (file_ne hname rfl)
  | glued dir hdir =>
      have hoption : ("-I" ++ dir).toList.head? = some '-' := by rw [toList_glued, List.head?_cons]
      cases group' with
      | dump => exact absurd (List.cons.inj h).1 (glued_ne_dump dir)
      | directory dir' => exact absurd (List.cons.inj h).1 (glued_ne_single hdir)
      | glued dir' hdir' =>
          obtain ⟨hfirst, hrest⟩ := List.cons.inj h
          obtain rfl := (String.append_right_inj "-I").1 hfirst
          exact ⟨rfl, hrest⟩
      | file name hname => exact absurd (List.cons.inj h).1.symm (file_ne hname hoption)
  | file name hname =>
      cases group' with
      | dump => exact absurd (List.cons.inj h).1 (file_ne hname rfl)
      | directory dir => exact absurd (List.cons.inj h).1 (file_ne hname rfl)
      | glued dir hdir =>
          have hoption : ("-I" ++ dir).toList.head? = some '-' := by
            rw [toList_glued, List.head?_cons]
          exact absurd (List.cons.inj h).1 (file_ne hname hoption)
      | file name' hname' =>
          cases h
          exact ⟨rfl, rfl⟩

/-- Arguments fall into groups in one way only. -/
theorem flatMap_arguments_injective : Function.Injective (List.flatMap arguments) := by
  -- Every group has an argument, so the lists of groups end together.
  have hne : ∀ (group : ArgumentGroup) (rest : List String), group.arguments ++ rest ≠ [] := by
    intro group rest
    cases group <;> exact List.cons_ne_nil _ _
  intro groups
  induction groups with
  | nil =>
      intro groups' h
      cases groups' with
      | nil => rfl
      | cons group groups' => exact absurd h.symm (hne group _)
  | cons group groups ih =>
      intro groups' h
      cases groups' with
      | nil => exact absurd h (hne group _)
      | cons group' groups' =>
          obtain ⟨rfl, hrest⟩ := arguments_append_inj h
          rw [ih hrest]

end ArgumentGroup

open ArgumentGroup

namespace Options

variable {file : Option Path} {dirs : List Path} {dump : Bool} {args rest : List String}

/-! ### Groups one by one -/

/-- An argument that is no option by itself is told by its first
characters. -/
theorem parseFrom_other {arg : String} (hdump : arg ≠ "--dump") (hsingle : arg ≠ "-I") :
    parseFrom file dirs dump (arg :: rest) =
      match arg.toList with
      | '-' :: 'I' :: dir => parseFrom file (dirs ++ [⟨String.ofList dir⟩]) dump rest
      | '-' :: _ => .error (.unknownOption arg)
      | _ =>
          match file with
          | some _ => .error .severalFiles
          | none => parseFrom (some ⟨arg⟩) dirs dump rest := by
  -- The two clauses for the bare option do not apply.
  have hdirectory : ∀ (dir : String) (rest' : List String), arg = "-I" → rest = dir :: rest' →
      False := fun _ _ h _ => hsingle h
  have hmissing : arg = "-I" → rest = [] → False := fun h _ => hsingle h
  cases file with
  | none => exact parseFrom.eq_7 _ _ _ _ hdump hdirectory hmissing
  | some file => exact parseFrom.eq_6 _ _ _ _ _ hdump hdirectory hmissing

/-- A group is read as a whole. A second unit is refused, and what a group asks
for is kept. -/
theorem parseFrom_arguments (group : ArgumentGroup) :
    parseFrom file dirs dump (group.arguments ++ rest) =
      if (file.isSome && group.file?.isSome) = true then .error .severalFiles
      else parseFrom (file.or group.file?) (dirs ++ group.directory?.toList)
        (dump || group.isDump) rest := by
  -- Each group is read by the clause that is made for it, one or two arguments at a
  -- time.
  cases group with
  | dump => simp [arguments, file?, directory?, isDump, parseFrom]
  | directory dir => simp [arguments, file?, directory?, isDump, parseFrom]
  | glued dir hdir =>
      simp only [arguments, List.cons_append, List.nil_append]
      rw [parseFrom_other (glued_ne_dump dir) (glued_ne_single hdir), toList_glued]
      simp [file?, directory?, isDump]
  | file name hname =>
      simp only [arguments, List.cons_append, List.nil_append]
      rw [parseFrom_other (file_ne hname rfl) (file_ne hname rfl)]
      split
      · next hoption => simp [hoption] at hname
      · next hoption => simp [hoption] at hname
      · cases file <;> simp [file?, directory?, isDump]

/-- What units, directories and the wish for a dump ask for together. -/
def ofParts (files dirs : List Path) (dump : Bool) : Except UsageError Options :=
  match files with
  | [] => .error .noFile
  | [file] => .ok ⟨file, ⟨dirs⟩, dump⟩
  | _ :: _ :: _ => .error .severalFiles

/-- Parts make options exactly when there is one file among them. -/
theorem ofParts_eq_ok_iff {files dirs dirs' : List Path} {name : Path} {dump dump' : Bool} :
    ofParts files dirs dump = .ok ⟨name, ⟨dirs'⟩, dump'⟩ ↔
      files = [name] ∧ dirs = dirs' ∧ dump = dump' := by
  match files with
  | [] => simp [ofParts]
  | [file] => simp [ofParts]
  | _ :: _ :: _ => simp [ofParts]

/-- Groups are read in the order of each sort, and no group is taken for one of
another sort. -/
theorem parseFrom_flatMap_arguments (groups : List ArgumentGroup) :
    parseFrom file dirs dump (groups.flatMap arguments) =
      ofParts (file.toList ++ groups.filterMap file?) (dirs ++ groups.filterMap directory?)
        (dump || groups.any isDump) := by
  induction groups generalizing file dirs dump with
  | nil => cases file <;> simp [ofParts, parseFrom]
  | cons group groups ih =>
      -- What the first group adds is put in front of what the others do.
      have hparts : ∀ part : ArgumentGroup → Option Path,
          (group :: groups).filterMap part = (part group).toList ++ groups.filterMap part := by
        intro part
        rw [List.filterMap_eq_flatMap_toList, List.flatMap_cons, List.filterMap_eq_flatMap_toList]
      rw [List.flatMap_cons, parseFrom_arguments, ih, hparts, hparts, List.any_cons, Bool.or_assoc,
        List.append_assoc]
      cases file with
      | none => rfl
      | some file =>
          cases group.file? with
          | none => rfl
          | some name => rfl

/-- What is parsed depends on the files, the directories and the dump option
of the groups alone. -/
theorem parse_flatMap_arguments (groups : List ArgumentGroup) :
    parse (groups.flatMap arguments) =
      ofParts (groups.filterMap file?) (groups.filterMap directory?) (groups.any isDump) :=
  parseFrom_flatMap_arguments groups

/-- Arguments that are understood fall into groups. -/
theorem exists_flatMap_arguments_eq {options : Options}
    (h : parseFrom file dirs dump args = .ok options) :
    ∃ groups : List ArgumentGroup, groups.flatMap arguments = args := by
  have hcons : ∀ {rest : List String} (group : ArgumentGroup),
      (∃ groups : List ArgumentGroup, groups.flatMap arguments = rest) →
        ∃ groups : List ArgumentGroup, groups.flatMap arguments = group.arguments ++ rest := by
    rintro rest group ⟨groups, rfl⟩
    exact ⟨group :: groups, rfl⟩
  fun_induction parseFrom file dirs dump args with
  | case1 => exact ⟨[], rfl⟩
  | case2 => cases h
  | case3 file dirs dump rest ih => exact hcons .dump (ih h)
  | case4 file dirs dump dir rest ih => exact hcons (.directory dir) (ih h)
  | case5 => cases h
  | case6 file dirs dump arg rest hdump htaken hsingle dir hdir ih =>
      obtain rfl : arg = "-I" ++ String.ofList dir := by
        rw [← String.toList_inj, toList_glued, hdir, String.toList_ofList]
      -- The `-I` is not the whole argument.
      have hne : String.ofList dir ≠ "" := by
        intro hempty
        rw [hempty, String.append_empty] at htaken hsingle
        cases rest with
        | nil => exact hsingle rfl rfl
        | cons next rest => exact htaken next rest rfl rfl
      exact hcons (.glued _ hne) (ih h)
  | case7 => cases h
  | case8 => cases h
  | case9 dirs dump arg rest hdump htaken hsingle hdir hoption ih =>
      have hname : arg.toList.head? ≠ some '-' := by
        intro hhead
        obtain ⟨tail, htail⟩ := List.head?_eq_some_iff.1 hhead
        exact hoption tail htail
      exact hcons (.file arg hname) (ih h)

/-- Arguments that are understood fall into groups, which ask for what is
understood. -/
theorem exists_groups_of_parse {file : Path} (h : parse args = .ok ⟨file, ⟨dirs⟩, dump⟩) :
    ∃ groups : List ArgumentGroup, groups.flatMap arguments = args ∧
      groups.filterMap file? = [file] ∧ groups.filterMap directory? = dirs ∧
      groups.any isDump = dump := by
  obtain ⟨groups, rfl⟩ := exists_flatMap_arguments_eq h
  rw [parse_flatMap_arguments, ofParts_eq_ok_iff] at h
  exact ⟨groups, rfl, h⟩

/-- Arguments are accepted exactly if they fall into groups of which one names
a unit. They ask for this unit, with the directories in their order, and for a
dump if some group does. They fall into groups in one way only, and how groups
of different sorts are mixed makes no difference. -/
theorem parse_eq_ok_iff :
    (∀ args file dirs dump, parse args = .ok ⟨file, ⟨dirs⟩, dump⟩ ↔
      ∃ groups : List ArgumentGroup, groups.flatMap arguments = args ∧
        groups.filterMap file? = [file] ∧ groups.filterMap directory? = dirs ∧
        groups.any isDump = dump) ∧
    Function.Injective (List.flatMap arguments) ∧
    ∀ groups groups' : List ArgumentGroup, groups.filterMap file? = groups'.filterMap file? →
      groups.filterMap directory? = groups'.filterMap directory? →
      groups.any isDump = groups'.any isDump →
        parse (groups.flatMap arguments) = parse (groups'.flatMap arguments) := by
  -- The groups are found by reading, and reading groups gives back their parts.
  refine ⟨fun args file dirs dump => ⟨exists_groups_of_parse, ?_⟩, flatMap_arguments_injective, ?_⟩
  · rintro ⟨groups, rfl, hparts⟩
    rw [parse_flatMap_arguments, ofParts_eq_ok_iff]
    exact hparts
  · intro groups groups' hfiles hdirs hdump
    rw [parse_flatMap_arguments, parse_flatMap_arguments, hfiles, hdirs, hdump]

/-- The `-I` takes the option behind it for a directory. -/
example : parse ["-I", "--dump", "a.c", "-Iinc"] =
    .ok ⟨⟨"a.c"⟩, ⟨[⟨"--dump"⟩, ⟨"inc"⟩]⟩, false⟩ := by rfl

end Options

end CDeclarations
