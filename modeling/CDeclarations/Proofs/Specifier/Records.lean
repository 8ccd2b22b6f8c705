import CDeclarations.Proofs.Specifier.Categories
import CDeclarations.Specifier.Verdict
import Mathlib.Data.List.Pairwise

/-!
# `CDeclarations.Proofs.Specifier.Records`: one word behind others

The rules of a specifier sequence are written twice: a modifier looks
for the types before it, a type for the modifiers before it. Read as
one table they are symmetric. `Keyword.conflicts` says which two words
cannot stand in one sequence, whichever comes first.

One rule is about three words: the second `long` of `long long` looks
for a `double` before it, but `double` does not look for `long long`.
`Keyword.Fits` says so of a word and those before it.

* `Flags.Records`: the set of categories behind the words of a sequence.
* `Flags.Records.exists_judgeKeyword_iff`: a word is a part of the
  sequence when it fits the words before it.
* `Flags.Records.judgeKeyword`: the set that it leaves is that of the
  words with it.
-/

set_option autoImplicit false

namespace CDeclarations

/-! ### Words that do not go together -/

/-- Of these two modifiers a sequence can hold one only. The word `long`
alone may be repeated. -/
def Modifier.conflicts : Modifier → Modifier → Bool
  | .long, .long => false
  | .signed, .unsigned | .unsigned, .signed | .short, .long | .long, .short => true
  | a, b => a = b

/-- A built-in type takes the modifier. -/
def Primitive.takes : Primitive → Modifier → Bool
  | .int, _ => true
  | .char, m => m = .signed || m = .unsigned
  | .double, m => m = .long
  | .void, _ | .float, _ => false

namespace Keyword

/-- Of these two words a sequence can hold one only. -/
def conflicts : Keyword → Keyword → Bool
  | .storage, .storage | .qualifier, .qualifier => true
  | .modifier a, .modifier b => a.conflicts b
  | .primitive a, .primitive b => a = b
  | .modifier m, .primitive p | .primitive p, .modifier m => !p.takes m
  | _, _ => false

/-- The words can stand in one sequence. -/
def Agrees (w v : Keyword) : Prop := w.conflicts v = false

instance (w v : Keyword) : Decidable (w.Agrees v) :=
  inferInstanceAs (Decidable (w.conflicts v = false))

/-- Two words agree in either order. -/
theorem Agrees.symm {w v : Keyword} (h : w.Agrees v) : v.Agrees w := by
  unfold Agrees at *
  cases w with
  | composed c => cases v <;> rfl
  | storage => cases v <;> exact h
  | qualifier => cases v <;> exact h
  | modifier a =>
      cases v with
      | modifier b => cases a <;> cases b <;> exact h
      | primitive p => exact h
      | _ => rfl
  | primitive p =>
      cases v with
      | primitive q => cases p <;> cases q <;> exact h
      | modifier a => exact h
      | _ => rfl

/-- The word fits behind the words `seen`: it agrees with each of them,
and a repeated `long` is the second one and finds no `double`. -/
def Fits (seen : List Keyword) (w : Keyword) : Prop :=
  (∀ v ∈ seen, v.Agrees w) ∧
    (w = .modifier .long → w ∈ seen → seen.count w = 1 ∧ .primitive .double ∉ seen)

/-- Words agree with a word when none of those that conflict with it is
among them. -/
theorem forall_agrees_iff {seen : List Keyword} (h : ∀ v ∈ seen, v.isSimple = true)
    (w : Keyword) :
    (∀ v ∈ seen, v.Agrees w) ↔ ∀ v ∈ simple, v.conflicts w = true → v ∉ seen := by
  constructor
  · intro hagrees v _ hconflicts hv
    have hfalse := hagrees v hv
    rw [Agrees, hconflicts] at hfalse
    cases hfalse
  · intro hnone v hv
    rw [Agrees, Bool.eq_false_iff]
    intro hconflicts
    exact hnone v (mem_simple (h v hv)) hconflicts hv

end Keyword

open Keyword (Agrees Fits)

/-! ### The categories behind the words of a sequence -/

/-- The set holds the categories of the words `seen`, which agree with
one another. -/
structure Flags.Records (flags : Flags) (seen : List Keyword) : Prop where
  simple : ∀ w ∈ seen, w.isSimple = true
  agree : seen.Pairwise Agrees
  word : ∀ w, w.isSimple = true → (flags.contains w.flag = true ↔ w ∈ seen)
  longLong : flags.contains .longLong = true ↔ 2 ≤ seen.count (.modifier .long)
  userDefined : flags.contains .userDefined = false
  composed : flags.contains .composed = false

namespace Flags.Records

variable {flags : Flags} {seen : List Keyword}

/-- Empty flags record that no word was seen. -/
theorem empty : (∅ : Flags).Records [] where
  simple w hw := by cases hw
  agree := .nil
  word w _ := by simp [w.single_flag.contains_empty]
  longLong := by simp [single_longLong.contains_empty]
  userDefined := single_userDefined.contains_empty
  composed := single_composed.contains_empty

/-- A simple word is held exactly when it was seen. -/
theorem contains_eq (h : flags.Records seen) {w : Keyword} (hw : w.isSimple = true) :
    flags.contains w.flag = decide (w ∈ seen) := by
  rw [Bool.eq_iff_iff, h.word w hw, decide_eq_true_eq]

/-- A word that fits is recorded by its own category, unless it is the
second `long`. -/
theorem union_flag (h : flags.Records seen) {w : Keyword} (hw : w.isSimple = true)
    (hfits : Fits seen w) (hnew : w = .modifier .long → w ∉ seen) :
    (flags ∪ w.flag).Records (seen ++ [w]) where
  simple v hv := by
    rcases List.mem_append.1 hv with hv | hv
    · exact h.simple v hv
    · rw [List.mem_singleton.1 hv]
      exact hw
  agree := by
    rw [List.pairwise_append]
    refine ⟨h.agree, List.pairwise_singleton .., ?_⟩
    intro v hv w' hw'
    rw [List.mem_singleton.1 hw']
    exact hfits.1 v hv
  word v hv := by
    rw [w.single_flag.contains_union v.single_flag, h.word v hv, Keyword.flag_inj hv hw,
      List.mem_append, List.mem_singleton]
  longLong := by
    have hne := (Keyword.flag_ne hw).1
    rw [w.single_flag.contains_union single_longLong, h.longLong, or_iff_left hne.symm,
      List.count_append]
    by_cases hlong : w = .modifier .long
    · -- The first `long` leaves the count below two.
      have hzero : seen.count (.modifier .long) = 0 :=
        List.count_eq_zero.2 (hlong ▸ hnew hlong)
      rw [hlong, hzero, List.count_singleton_self]
      omega
    · rw [List.count_eq_zero.2 fun hmem => hlong (List.mem_singleton.1 hmem).symm]
      rfl
  userDefined := by
    rw [Bool.eq_false_iff, ne_eq, w.single_flag.contains_union single_userDefined, h.userDefined]
    rintro (hfalse | heq)
    · cases hfalse
    · exact (Keyword.flag_ne hw).2.1 heq.symm
  composed := by
    rw [Bool.eq_false_iff, ne_eq, w.single_flag.contains_union single_composed, h.composed]
    rintro (hfalse | heq)
    · cases hfalse
    · exact (Keyword.flag_ne hw).2.2 heq.symm

/-- A second `long` is recorded by a category of its own. -/
theorem union_longLong (h : flags.Records seen) (hlong : Keyword.modifier .long ∈ seen)
    (hfits : Fits seen (.modifier .long)) :
    (flags ∪ Flags.longLong).Records (seen ++ [.modifier .long]) where
  simple v hv := by
    rcases List.mem_append.1 hv with hv | hv
    · exact h.simple v hv
    · rw [List.mem_singleton.1 hv]
      rfl
  agree := by
    rw [List.pairwise_append]
    refine ⟨h.agree, List.pairwise_singleton .., ?_⟩
    intro v hv w' hw'
    rw [List.mem_singleton.1 hw']
    exact hfits.1 v hv
  word v hv := by
    rw [single_longLong.contains_union v.single_flag, h.word v hv,
      or_iff_left (Keyword.flag_ne hv).1, List.mem_append, List.mem_singleton]
    -- The words that are held are the same, since the first `long` is among them.
    constructor
    · exact Or.inl
    · rintro (hmem | rfl)
      · exact hmem
      · exact hlong
  longLong := by
    have hone := (hfits.2 rfl hlong).1
    rw [single_longLong.contains_union single_longLong, List.count_append, hone,
      List.count_singleton_self]
    simp
  userDefined := by
    rw [Bool.eq_false_iff, ne_eq, single_longLong.contains_union single_userDefined, h.userDefined]
    decide
  composed := by
    rw [Bool.eq_false_iff, ne_eq, single_longLong.contains_union single_composed, h.composed]
    decide

/-! ### One word -/

/-- Words that stand in one sequence agree, if they are different. -/
theorem agrees_of_mem (h : flags.Records seen) {w v : Keyword} (hw : w ∈ seen) (hv : v ∈ seen)
    (hne : w ≠ v) : w.Agrees v := by
  have : Std.Symm Agrees := ⟨fun _ _ => Agrees.symm⟩
  exact h.agree.forall hw hv hne

end Flags.Records

/-- A check that is passed leaves the rest of the checks. -/
theorem exists_ite_error {c : Prop} [Decidable c] {error : GrammarError}
    {rest : Except GrammarError Flags} :
    (∃ added, (if c then .error error else rest) = .ok added) ↔
      ¬c ∧ ∃ added, rest = .ok added := by
  by_cases h : c <;> simp [h]

namespace Flags.Records

variable {flags : Flags} {seen : List Keyword}

/-- The set tells of each simple word whether it is among those seen. -/
theorem contains_words (h : flags.Records seen) :
    ∀ w ∈ Keyword.simple, flags.contains w.flag = decide (w ∈ seen) ∧
      flags.intersects w.flag = decide (w ∈ seen) := by
  have hsimple : ∀ w ∈ Keyword.simple, w.isSimple = true := by decide
  intro w hw
  have hcontains := h.contains_eq (hsimple w hw)
  rw [w.single_flag.intersects_eq]
  exact ⟨hcontains, hcontains⟩

/-- Where `long` stands already, another one is judged by the count. -/
theorem intersects_longLong_double (h : flags.Records seen) :
    flags.intersects (Flags.longLong ∪ .double) = false ↔
      seen.count (.modifier .long) < 2 ∧ .primitive .double ∉ seen := by
  have hdouble : flags.intersects .double = decide (.primitive .double ∈ seen) :=
    (h.contains_words (.primitive .double) (by decide)).2
  rw [intersects_union, Bool.or_eq_false_iff, single_longLong.intersects_eq,
    Bool.eq_false_iff, ne_eq, h.longLong, Nat.not_le, hdouble, decide_eq_false_iff_not]

/-- A modifier is taken when it fits. -/
theorem exists_modifier_judge_iff (h : flags.Records seen) (m : Modifier) :
    (∃ added, m.judge flags = .ok added) ↔ Fits seen (.modifier m) := by
  have hwords := h.contains_words
  simp only [Keyword.simple, List.forall_mem_cons, Keyword.flag, Modifier.flag, Primitive.flag]
    at hwords
  rw [Fits, Keyword.forall_agrees_iff h.simple]
  -- Only `long` may come twice, so its test looks at what was seen of it.
  cases m with
  | signed | unsigned | short =>
      simp [Keyword.simple, Keyword.conflicts, Modifier.conflicts, Primitive.takes,
        Modifier.judge, Modifier.flag, exists_ite_error, h.userDefined, hwords]
      grind
  | long =>
      by_cases hlong : Keyword.modifier .long ∈ seen
      · -- The words that conflict with `long` are not there, for one `long` is.
        have hagrees : ∀ v : Keyword, v.conflicts (.modifier .long) = true →
            v ≠ .modifier .long → v ∉ seen := by
          intro v hconflicts hne hv
          have hfalse : v.conflicts (.modifier .long) = false := h.agrees_of_mem hv hlong hne
          rw [hconflicts] at hfalse
          cases hfalse
        have hone : seen.count (.modifier .long) < 2 ↔ seen.count (.modifier .long) = 1 := by
          have hpos := List.count_pos_iff.2 hlong
          omega
        have hmeets := h.intersects_longLong_double
        rw [hone] at hmeets
        have hshort := hagrees (.modifier .short) rfl nofun
        have hvoid := hagrees (.primitive .void) rfl nofun
        have hchar := hagrees (.primitive .char) rfl nofun
        have hfloat := hagrees (.primitive .float) rfl nofun
        simp [Keyword.simple, Keyword.conflicts, Modifier.conflicts, Primitive.takes,
          Modifier.judge, Modifier.flag, hwords, hlong, hshort, hvoid, hchar, hfloat]
        rw [← hmeets]
        by_cases hi : flags.intersects (Flags.longLong ∪ .double) = false <;> simp [hi]
      · simp [Keyword.simple, Keyword.conflicts, Modifier.conflicts, Primitive.takes,
          Modifier.judge, Modifier.flag, exists_ite_error, h.userDefined, hwords, hlong]
        grind

/-- A built-in type is taken when it fits. -/
theorem exists_primitive_judge_iff (h : flags.Records seen) (p : Primitive) :
    (∃ added, p.judge flags = .ok added) ↔ Fits seen (.primitive p) := by
  have hwords := h.contains_words
  simp only [Keyword.simple, List.forall_mem_cons, Keyword.flag, Modifier.flag, Primitive.flag]
    at hwords
  rw [Fits, Keyword.forall_agrees_iff h.simple]
  -- `int` takes every modifier, and the other four test for those they do not take.
  cases p with
  | int =>
      simp [Keyword.simple, Keyword.conflicts, Modifier.conflicts, Primitive.takes,
        Primitive.judge, Primitive.flag, exists_ite_error, h.userDefined, hwords]
  | void | char | float | double =>
      simp [Keyword.simple, Keyword.conflicts, Modifier.conflicts, Primitive.takes,
        Primitive.judge, Primitive.flag, exists_ite_error, h.userDefined, hwords,
        Flags.modifiers, Flags.intersects_union]
      grind

/-- A simple word is a part of the sequence when it fits. -/
theorem exists_judgeKeyword_iff (h : flags.Records seen) {w : Keyword} (hw : w.isSimple = true) :
    (∃ kind after, flags.judgeKeyword w = .part kind after) ↔ Fits seen w := by
  have hcontains := h.contains_eq hw
  -- A storage class and a qualifier look for themselves; the type words have their own
  -- judgement.
  cases w with
  | composed word => cases hw
  | storage =>
      rw [Fits, Keyword.forall_agrees_iff h.simple]
      simp only [Keyword.flag] at hcontains
      by_cases hmem : Keyword.storage ∈ seen <;>
        simp [judgeKeyword, hcontains, hmem, Keyword.simple, Keyword.conflicts]
  | qualifier =>
      rw [Fits, Keyword.forall_agrees_iff h.simple]
      simp only [Keyword.flag] at hcontains
      by_cases hmem : Keyword.qualifier ∈ seen <;>
        simp [judgeKeyword, hcontains, hmem, Keyword.simple, Keyword.conflicts]
  | modifier m =>
      rw [← h.exists_modifier_judge_iff, judgeKeyword]
      cases m.judge flags <;> simp
  | primitive p =>
      rw [← h.exists_primitive_judge_iff, judgeKeyword]
      cases p.judge flags <;> simp

/-- Behind a modifier that is taken the set holds its category, or that
of a second `long`. -/
theorem eq_of_modifier_judge {added : Flags} {m : Modifier} (hj : m.judge flags = .ok added) :
    (added = m.flag ∧ flags.contains m.flag = false) ∨
      (added = Flags.longLong ∧ m = .long ∧ flags.contains m.flag = true) := by
  rw [Modifier.judge] at hj
  -- A modifier that is held can only be the second `long`.
  split at hj
  · next hcontains =>
    split at hj
    · next hlong =>
      cases hj
      exact Or.inr ⟨rfl, hlong.1, hcontains⟩
    · cases hj
  · next hcontains =>
    refine Or.inl ⟨?_, Bool.eq_false_iff.2 hcontains⟩
    repeat (split at hj; · cases hj)
    cases hj
    rfl

/-- What a modifier adds is one category. -/
theorem single_of_modifier_judge {added : Flags} {m : Modifier} (hj : m.judge flags = .ok added) :
    added.Single := by
  rcases eq_of_modifier_judge hj with ⟨rfl, -⟩ | ⟨rfl, -⟩
  · exact m.single_flag
  · exact single_longLong

/-- A base type adds its own category. -/
theorem eq_of_primitive_judge {added : Flags} {p : Primitive} (hj : p.judge flags = .ok added) :
    added = p.flag := by
  rw [Primitive.judge] at hj
  repeat (split at hj; · cases hj)
  cases hj
  rfl

/-- A simple word that is a part of the sequence is recorded. -/
theorem judgeKeyword (h : flags.Records seen) {w : Keyword} (hw : w.isSimple = true)
    {kind : NodeKind} {after : Flags} (hj : flags.judgeKeyword w = .part kind after) :
    after.Records (seen ++ [w]) := by
  have hfits := (h.exists_judgeKeyword_iff hw).1 ⟨kind, after, hj⟩
  -- One case for each group of words; what is recorded is the word, or the second
  -- `long`.
  cases w with
  | composed word => cases hw
  | storage =>
      simp only [Flags.judgeKeyword] at hj
      split at hj
      · cases hj
      · cases hj
        exact h.union_flag hw hfits nofun
  | qualifier =>
      simp only [Flags.judgeKeyword] at hj
      split at hj
      · cases hj
      · cases hj
        exact h.union_flag hw hfits nofun
  | primitive p =>
      simp only [Flags.judgeKeyword] at hj
      split at hj
      · next added hadded =>
        cases hj
        rw [eq_of_primitive_judge hadded]
        exact h.union_flag hw hfits nofun
      · cases hj
  | modifier m =>
      simp only [Flags.judgeKeyword] at hj
      split at hj
      · next added hadded =>
        cases hj
        rcases eq_of_modifier_judge hadded with ⟨rfl, hcontains⟩ | ⟨rfl, rfl, hcontains⟩
        · refine h.union_flag hw hfits ?_
          intro _ hmem
          exact Bool.noConfusion (hcontains.symm.trans ((h.word _ hw).2 hmem))
        · exact h.union_longLong ((h.word _ hw).1 hcontains) hfits
      · cases hj

end Flags.Records

/-- A simple word is a part of a sequence or is refused. -/
theorem Flags.judgeKeyword_of_isSimple (flags : Flags) {w : Keyword} (hw : w.isSimple = true) :
    (∃ kind after, flags.judgeKeyword w = .part kind after) ∨
      ∃ failure, flags.judgeKeyword w = .refused failure := by
  cases w with
  | composed word => cases hw
  | storage => by_cases h : flags.contains storage = true <;> simp [judgeKeyword, h]
  | qualifier => by_cases h : flags.contains qualifier = true <;> simp [judgeKeyword, h]
  | modifier m => cases h : m.judge flags <;> simp [judgeKeyword, h]
  | primitive p => cases h : p.judge flags <;> simp [judgeKeyword, h]

end CDeclarations
