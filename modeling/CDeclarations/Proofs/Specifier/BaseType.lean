import CDeclarations.Proofs.Specifier.Replay

/-!
# `CDeclarations.Proofs.Specifier.BaseType`: the type that a closed sequence names

A sequence that is closed by the declared name names a type: the name of one
or a composed one, and then nothing else, or words of the built-in types. Its
pointers do not end the sequence. A word behind a pointer is judged together
with those before it, as if the pointer was not there.

* `Flags.judge_diff_qualifier`: behind a pointer only a qualifier is judged in
  another way. So a sequence closes without its pointers and qualifiers
  (`Flags.Closes.filter`), and a pointer may be put into it anywhere but before
  a tag (`Flags.Closes.insert_pointer`).
* `Flags.Names`: the categories tell which types the datatype names. Each token
  keeps it so, refused or not (`Sequence.names_step`).
* `Sequence.baseType_of_closes`: what a closed sequence names.
-/

set_option autoImplicit false

namespace CDeclarations

/-! ### Behind a pointer -/

/-- The verdict with the qualifier taken back that was judged before. -/
def Verdict.behindPointer : Verdict → Verdict
  | .part kind after => .part kind (after \ .qualifier)
  | .composed word after => .composed word (after \ .qualifier)
  | .tag after => .tag (after \ .qualifier)
  | .name => .name
  | .refused failure => .refused failure

/-- A pointer or a qualifier. -/
def Token.isPointerOrQualifier (token : Token) : Bool :=
  token.isMark '*' || token.keyword? = some .qualifier

/-- A mark is no word. -/
theorem Token.noWord_of_isMark {token : Token} {c : Char} (hmark : token.isMark c = true) :
    token.kind ≠ .identifier ∧ token.keyword? = none := by
  have hkind : token.kind ≠ .identifier := by
    intro hkind
    rw [isMark, hkind] at hmark
    cases hmark
  exact ⟨hkind, if_neg hkind⟩

namespace Flags

variable {f s : Flags}

/-- Clearing the qualifier twice is clearing it once. -/
theorem diff_qualifier_idem (f : Flags) : (f \ qualifier) \ qualifier = f \ qualifier := by
  show Flags.mk ((f.bits &&& ~~~qualifier.bits) &&& ~~~qualifier.bits) = _
  rw [BitVec.and_assoc, BitVec.and_self]
  rfl

/-- A qualifier that is set and cleared is cleared. -/
theorem union_qualifier_diff (f : Flags) : (f ∪ qualifier) \ qualifier = f \ qualifier := by
  have hnone : qualifier.bits &&& ~~~qualifier.bits = 0#16 := by decide
  show Flags.mk ((f.bits ||| qualifier.bits) &&& ~~~qualifier.bits) = _
  rw [BitVec.and_or_distrib_right, hnone, BitVec.or_zero]
  rfl

/-- Without a qualifier there is none to take back. -/
theorem diff_qualifier_of_contains (h : f.contains qualifier = false) : f \ qualifier = f := by
  have hbits : f.bits &&& ~~~qualifier.bits = f.bits := by
    have hclear : f.bits.getLsbD 1 = false := by
      rw [← contains_eq_getLsbD (s := qualifier) (by decide) (by decide), h]
    apply BitVec.eq_of_getLsbD_eq
    intro i hi
    rw [show f.bits &&& ~~~qualifier.bits = (f \ qualifier).bits from rfl, bit_diff]
    -- The qualifier is one bit, and that one is not set.
    rcases Nat.decEq i 1 with hne | rfl
    · have hother : qualifier.bits.getLsbD i = false := by
        rw [show qualifier.bits = BitVec.twoPow 16 1 by decide, BitVec.getLsbD_twoPow]
        simp only [Bool.and_eq_false_iff, decide_eq_false_iff_not]
        exact Or.inr (Ne.symm hne)
      rw [hother, Bool.not_false, Bool.and_true]
    · rw [hclear, Bool.false_and]
  exact congrArg Flags.mk hbits

section Apart

-- A set of categories without the qualifier is asked for, or added, as before.
variable (hs : s \ qualifier = s) (f : Flags)

include hs

/-- A category other than the qualifier can be added before or after it is
cleared. -/
theorem union_diff_qualifier : (f ∪ s) \ qualifier = (f \ qualifier) ∪ s := by
  have hbits : s.bits &&& ~~~qualifier.bits = s.bits := congrArg Flags.bits hs
  show Flags.mk ((f.bits ||| s.bits) &&& ~~~qualifier.bits) = _
  rw [BitVec.and_or_distrib_right, hbits]
  rfl

/-- The bits of other categories stay when the qualifier is cleared. -/
theorem bits_diff_qualifier_and : (f \ qualifier).bits &&& s.bits = f.bits &&& s.bits := by
  have hbits : s.bits &&& ~~~qualifier.bits = s.bits := congrArg Flags.bits hs
  show (f.bits &&& ~~~qualifier.bits) &&& s.bits = _
  rw [BitVec.and_assoc, BitVec.and_comm (~~~qualifier.bits), hbits]

/-- Other categories are contained as before. -/
theorem contains_diff_qualifier : (f \ qualifier).contains s = f.contains s := by
  rw [contains, bits_diff_qualifier_and hs f]
  rfl

/-- Other categories are met as before. -/
theorem intersects_diff_qualifier : (f \ qualifier).intersects s = f.intersects s := by
  rw [intersects, bits_diff_qualifier_and hs f]
  rfl

end Apart

end Flags

/-- A modifier is judged without a look at the qualifier. -/
theorem Modifier.judge_diff_qualifier (m : Modifier) (f : Flags) :
    m.judge (f \ .qualifier) = m.judge f := by
  have hflag : m.flag \ .qualifier = m.flag := by cases m <;> decide
  have hlongs : (Flags.longLong ∪ Flags.double) \ .qualifier = Flags.longLong ∪ Flags.double := by
    decide
  -- Every test of a modifier is about other categories.
  unfold Modifier.judge
  rw [Flags.contains_diff_qualifier hflag, Flags.intersects_diff_qualifier hlongs]
  simp only [Flags.contains_diff_qualifier (s := .userDefined) (by decide),
    Flags.contains_diff_qualifier (s := .void) (by decide),
    Flags.contains_diff_qualifier (s := .char) (by decide),
    Flags.contains_diff_qualifier (s := .float) (by decide),
    Flags.contains_diff_qualifier (s := .double) (by decide),
    Flags.contains_diff_qualifier (s := .signed) (by decide),
    Flags.contains_diff_qualifier (s := .unsigned) (by decide),
    Flags.contains_diff_qualifier (s := .short) (by decide),
    Flags.contains_diff_qualifier (s := .long) (by decide)]

/-- So is a built-in type. -/
theorem Primitive.judge_diff_qualifier (p : Primitive) (f : Flags) :
    p.judge (f \ .qualifier) = p.judge f := by
  have hflag : p.flag \ .qualifier = p.flag := by cases p <;> decide
  unfold Primitive.judge
  rw [Flags.contains_diff_qualifier hflag]
  simp only [Flags.contains_diff_qualifier (s := .userDefined) (by decide),
    Flags.intersects_diff_qualifier (s := .modifiers) (by decide),
    Flags.intersects_diff_qualifier (s := .short ∪ .long) (by decide),
    Flags.intersects_diff_qualifier (s := .signed ∪ .unsigned ∪ .short) (by decide)]

namespace Flags

variable {f : Flags} {token : Token} {tokens : List Token}

/-- A type is named with or without the qualifier. -/
theorem namesType_diff_qualifier (f : Flags) : (f \ qualifier).namesType = f.namesType :=
  intersects_diff_qualifier (s := types) (by decide) f

/-- A modifier or a type adds a category other than the qualifier. -/
theorem added_diff_qualifier {m : Modifier} {added : Flags} (hj : m.judge f = .ok added) :
    added \ qualifier = added := by
  rcases Records.eq_of_modifier_judge hj with ⟨rfl, -⟩ | ⟨rfl, -, -⟩
  · cases m <;> decide
  · decide

/-- A reserved word that is no qualifier is judged behind a pointer as before
it. -/
theorem judgeKeyword_diff_qualifier {w : Keyword} (hw : w ≠ .qualifier) (f : Flags) :
    (f \ qualifier).judgeKeyword w = (f.judgeKeyword w).behindPointer := by
  -- One case for each group of words; only the qualifier itself looks at its flag.
  cases w with
  | storage =>
      rw [judgeKeyword, judgeKeyword, contains_diff_qualifier (s := storage) (by decide)]
      split
      · rfl
      · exact congrArg _ (union_diff_qualifier (by decide) f).symm
  | qualifier => exact absurd rfl hw
  | modifier m =>
      rw [judgeKeyword, judgeKeyword, m.judge_diff_qualifier]
      cases hj : m.judge f with
      | ok added => exact congrArg _ (union_diff_qualifier (added_diff_qualifier hj) f).symm
      | error error => rfl
  | primitive p =>
      rw [judgeKeyword, judgeKeyword, p.judge_diff_qualifier]
      cases hj : p.judge f with
      | ok added =>
          have hadded : added \ qualifier = added := by
            rw [Records.eq_of_primitive_judge hj]
            cases p <;> decide
          exact congrArg _ (union_diff_qualifier hadded f).symm
      | error error => rfl
  | composed word =>
      rw [judgeKeyword, judgeKeyword, namesType_diff_qualifier,
        contains_diff_qualifier (s := composed) (by decide)]
      split
      · rfl
      · exact congrArg _ (union_diff_qualifier (by decide) f).symm

/-- A word that is no keyword is judged as if the qualifier were not there. -/
theorem judgeOther_diff_qualifier (f : Flags) (token : Token) :
    (f \ qualifier).judgeOther token = (f.judgeOther token).behindPointer := by
  rw [judgeOther, judgeOther, namesType_diff_qualifier]
  split
  · rfl
  split
  · split
    · rfl
    · exact congrArg _ (union_diff_qualifier (by decide) f).symm
  · rfl

/-- A token that is no qualifier is judged behind a pointer as before it. -/
theorem judge_diff_qualifier (hword : token.keyword? ≠ some .qualifier) (f : Flags) :
    (f \ qualifier).judge token = (f.judge token).behindPointer := by
  rw [judge, judge, awaitsTag_diff_qualifier]
  split
  · rfl
  split
  · split
    · exact congrArg _ (union_diff_qualifier (by decide) f).symm
    · rfl
  cases hkeyword : token.keyword? with
  | none => exact judgeOther_diff_qualifier f token
  | some w =>
      exact judgeKeyword_diff_qualifier (fun heq => hword (hkeyword.trans (congrArg some heq))) f

/-! ### Sequences with more or fewer pointers -/

instance decidableCloses : (flags : Flags) → (tokens : List Token) → Decidable (flags.Closes tokens)
  | _, [] => .isFalse not_false
  | flags, token :: tokens =>
      match hj : flags.judge token with
      | .part _ after | .composed _ after | .tag after =>
          have := decidableCloses after tokens
          decidable_of_iff (after.Closes tokens) (by rw [Closes, hj])
      | .name => decidable_of_iff (tokens = []) (by rw [Closes, hj])
      | .refused _ => .isFalse (by rw [Closes, hj]; exact not_false)

/-- A pointer takes the qualifier back, and is refused only where a tag is
due. -/
theorem judge_pointer (hmark : token.isMark '*' = true) (hawaits : f.awaitsTag = false) :
    f.judge token = .part .pointer (f \ qualifier) := by
  have hbrace : token.isMark '{' = false := by
    rw [Bool.eq_false_iff]
    intro hbrace
    simp only [Token.isMark, Bool.and_eq_true, decide_eq_true_eq] at hmark hbrace
    exact absurd (hmark.2.symm.trans hbrace.2) (by decide)
  rw [judge, hbrace, hawaits, (Token.noWord_of_isMark hmark).2]
  exact if_pos hmark

/-- Behind a pointer the sequence goes on without the qualifier. -/
theorem Closes.of_pointer (h : f.Closes (token :: tokens)) (hmark : token.isMark '*' = true) :
    f.awaitsTag = false ∧ (f \ qualifier).Closes tokens := by
  have hawaits : f.awaitsTag = false := by
    rw [Bool.eq_false_iff]
    intro hawaits
    rw [Closes] at h
    rcases judge_of_awaitsTag hawaits token with ⟨-, hword⟩ | ⟨failure, hj⟩
    · exact (Token.noWord_of_isMark hmark).1 hword.1
    · rw [hj] at h
      exact h
  rw [Closes, judge_pointer hmark hawaits] at h
  exact ⟨hawaits, h⟩

/-- A qualifier is taken where none stands. -/
theorem Closes.of_qualifier (h : f.Closes (token :: tokens))
    (hword : token.keyword? = some .qualifier) :
    f.contains qualifier = false ∧ (f ∪ qualifier).Closes tokens := by
  rw [Closes] at h
  have htakes : ∀ verdict, f.Takes token verdict →
      f.contains qualifier = false ∧ verdict = .part .qualifier (f ∪ qualifier) := by
    intro verdict htakes
    -- Of all verdicts that take a token only one takes this keyword.
    cases htakes with
    | qualifier _ hnew => exact ⟨hnew, rfl⟩
    | pointer hmark => rw [(Token.noWord_of_isMark hmark).2] at hword; cases hword
    | _ => simp_all
  cases hj : f.judge token with
  | refused failure => rw [hj] at h; exact h.elim
  | _ =>
      obtain ⟨hnew, hverdict⟩ := htakes _ (takes_of_judge hj (by intro failure h; cases h))
      rw [hj, hverdict] at h
      exact ⟨hnew, h⟩

/-- What closes a sequence closes it behind a pointer as well. -/
theorem Closes.diff_qualifier (h : f.Closes tokens) : (f \ qualifier).Closes tokens := by
  induction tokens generalizing f with
  | nil => exact h
  | cons token tokens ih =>
      by_cases hword : token.keyword? = some .qualifier
      · -- The qualifier found none before it, so that there is none to take back.
        rw [diff_qualifier_of_contains (h.of_qualifier hword).1]
        exact h
      rw [Closes, judge_diff_qualifier hword]
      rw [Closes] at h
      -- Behind any other word the sequence goes on as it would have.
      cases hj : f.judge token with
      | name => rw [hj] at h; exact h
      | refused failure => rw [hj] at h; exact h
      | _ => rw [hj] at h; exact ih h

/-- A sequence closes without its pointers and qualifiers. -/
theorem Closes.filter (h : f.Closes tokens) :
    (f \ qualifier).Closes (tokens.filter fun token => !token.isPointerOrQualifier) := by
  induction tokens generalizing f with
  | nil => exact h
  | cons token tokens ih =>
      by_cases hmark : token.isMark '*' = true
      · have hrest := ih (h.of_pointer hmark).2
        rw [diff_qualifier_idem] at hrest
        rwa [List.filter_cons_of_neg (by simp [Token.isPointerOrQualifier, hmark])]
      by_cases hword : token.keyword? = some .qualifier
      · have hrest := ih (h.of_qualifier hword).2
        rw [union_qualifier_diff] at hrest
        rwa [List.filter_cons_of_neg (by simp [Token.isPointerOrQualifier, hword])]
      -- A word that stays is judged by flags without the qualifier, as it was with it.
      rw [List.filter_cons_of_pos (by simp [Token.isPointerOrQualifier, hmark, hword]), Closes,
        judge_diff_qualifier hword]
      rw [Closes] at h
      cases hj : f.judge token with
      | name => rw [hj] at h; rw [h]; rfl
      | refused failure => rw [hj] at h; exact h
      | _ => rw [hj] at h; exact ih h

/-- A pointer may stand before any token of a sequence, but before a tag. -/
theorem Closes.insert_pointer {before after : List Token} {pointer : Token}
    (h : f.Closes (before ++ after)) (hafter : after ≠ []) (hmark : pointer.isMark '*' = true)
    (hlast : ∀ word, before.getLast?.bind Token.keyword? ≠ some (.composed word))
    (hawaits : before = [] → f.awaitsTag = false) : f.Closes (before ++ pointer :: after) := by
  -- Along the tokens before the pointer the categories are the same in both sequences.
  induction before generalizing f with
  | nil =>
      show f.Closes (pointer :: after)
      rw [Closes, judge_pointer hmark (hawaits rfl)]
      exact Closes.diff_qualifier h
  | cons token before ih =>
      rw [List.cons_append, Closes] at h ⊢
      have hrest : before ≠ [] →
          ∀ word, before.getLast?.bind Token.keyword? ≠ some (.composed word) := by
        intro hne word
        have hword := hlast word
        rwa [List.getLast?_cons_of_ne_nil hne] at hword
      have hfirst : before = [] → ∀ word, token.keyword? ≠ some (.composed word) := by
        rintro rfl word
        exact hlast word
      have hlast' : ∀ word, before.getLast?.bind Token.keyword? ≠ some (.composed word) := by
        intro word
        by_cases hne : before = []
        · rw [hne]; simp
        · exact hrest hne word
      cases hj : f.judge token with
      | part kind behind =>
          rw [hj] at h
          exact ih h hlast' fun _ => awaitsTag_of_part hj
      | composed word behind =>
          rw [hj] at h
          refine ih h hlast' fun hnil => ?_
          cases takes_of_composed hj with
          | composed hword _ _ => exact absurd hword (hfirst hnil word)
      | tag behind =>
          rw [hj] at h
          exact ih h hlast' fun _ => awaitsTag_of_tag hj
      | name =>
          rw [hj] at h
          exact absurd (List.append_eq_nil_iff.1 h).2 hafter
      | refused failure =>
          rw [hj] at h
          exact h.elim

end Flags

/-! ### The types that are named -/

/-- The kind of a word of a built-in type. -/
def NodeKind.isBuiltin : NodeKind → Bool
  | .modifier | .primitiveType => true
  | _ => false

namespace Flags

variable {f s : Flags} {token : Token}

/-- A word of a built-in type is held. -/
def Builtin (f : Flags) : Prop :=
  ∃ w : Keyword, w.isTypeWord = true ∧ f.contains w.flag = true

/-- A type word that is added makes the categories name a built-in type. -/
theorem builtin_union_word (f : Flags) {w : Keyword} (hw : w.isTypeWord = true) :
    (f ∪ w.flag).Builtin :=
  ⟨w, hw, w.single_flag.contains_union_self f⟩

/-- A word of a built-in type has a category of its own. -/
theorem flag_ne_of_isTypeWord {w : Keyword} (hw : w.isTypeWord = true) :
    w.flag ≠ storage ∧ w.flag ≠ qualifier ∧ w.flag ≠ longLong ∧ w.flag ≠ userDefined ∧
      w.flag ≠ composed := by
  cases w with
  | modifier m => cases m <;> decide
  | primitive p => cases p <;> decide
  | _ => cases hw

/-- A category that stands for no word of a built-in type. -/
theorem builtin_union_iff (hs : s.Single) (hne : ∀ w : Keyword, w.isTypeWord = true → w.flag ≠ s) :
    (f ∪ s).Builtin ↔ f.Builtin := by
  apply exists_congr
  intro w
  apply and_congr_right
  intro hw
  rw [hs.contains_union_of_ne w.single_flag (hne w hw)]

/-- The qualifier has no part in the type. -/
theorem builtin_diff_qualifier : (f \ qualifier).Builtin ↔ f.Builtin := by
  apply exists_congr
  intro w
  apply and_congr_right
  intro hw
  have hflag : w.flag \ qualifier = w.flag := by
    cases w with
    | modifier m => cases m <;> decide
    | primitive p => cases p <;> decide
    | _ => cases hw
  rw [contains_diff_qualifier hflag]

/-- A part of a sequence adds a word of a built-in type when it is one. -/
theorem builtin_of_part {kind : NodeKind} {after : Flags} (hj : f.judge token = .part kind after) :
    after.Builtin ↔ f.Builtin ∨ kind.isBuiltin = true := by
  have hother : ∀ {s : Flags}, s.Single → (∀ w : Keyword, w.isTypeWord = true → w.flag ≠ s) →
      ((f ∪ s).Builtin ↔ f.Builtin ∨ false = true) := by
    intro s hs hne
    rw [builtin_union_iff hs hne]
    simp
  -- One case for each word that is part of a type; three categories are no type words.
  cases takes_of_part hj with
  | storage _ _ => exact hother single_storage fun w hw => (flag_ne_of_isTypeWord hw).1
  | qualifier _ _ => exact hother single_qualifier fun w hw => (flag_ne_of_isTypeWord hw).2.1
  | @modifier m added _ hadded =>
      rcases Records.eq_of_modifier_judge hadded with ⟨rfl, -⟩ | ⟨rfl, rfl, hlong⟩
      · exact iff_of_true (builtin_union_word f (w := .modifier m) rfl) (Or.inr rfl)
      · -- The second `long` has a category of its own, and the first one is held.
        have hheld : f.Builtin := ⟨.modifier .long, rfl, hlong⟩
        refine iff_of_true ?_ (Or.inl hheld)
        exact (builtin_union_iff single_longLong
          fun w hw => (flag_ne_of_isTypeWord hw).2.2.1).2 hheld
  | @primitive p _ _ =>
      exact iff_of_true (builtin_union_word f (w := .primitive p) rfl) (Or.inr rfl)
  | pointer _ =>
      rw [builtin_diff_qualifier]
      simp [NodeKind.isBuiltin]
  | typeName _ _ _ =>
      exact hother single_userDefined fun w hw => (flag_ne_of_isTypeWord hw).2.2.2.1

/-- Composed types and their tags are no words of a built-in type. -/
theorem builtin_of_composed {word : Composed} {after : Flags}
    (hj : f.judge token = .composed word after) : after.Builtin ↔ f.Builtin := by
  cases takes_of_composed hj with
  | composed _ _ _ =>
      exact builtin_union_iff single_composed fun w hw => (flag_ne_of_isTypeWord hw).2.2.2.2

/-- A tag is no built-in type. -/
theorem builtin_of_tag {after : Flags} (hj : f.judge token = .tag after) :
    after.Builtin ↔ f.Builtin := by
  cases takes_of_tag hj with
  | tag _ _ _ =>
      exact builtin_union_iff single_userDefined fun w hw => (flag_ne_of_isTypeWord hw).2.2.2.1

end Flags

/-- The categories tell what the parts name: whether a word of a built-in type
stands among them, and how many other types. -/
structure Flags.Names (f : Flags) (parts : List (NodeKind × Option String)) : Prop where
  builtin : f.Builtin ↔ ∃ part ∈ parts, part.1.isBuiltin = true
  types : f.typeCount = parts.countP (·.1 = .userType)

namespace Flags.Names

variable {f f' : Flags} {parts : List (NodeKind × Option String)}

/-- Comments alone name no type, and neither do empty flags. -/
theorem of_comments (h : ∀ part ∈ parts, part.1.isComment = true) : (∅ : Flags).Names parts where
  builtin := by
    have hnone : ¬(∅ : Flags).Builtin := by
      rintro ⟨w, -, hheld⟩
      exact Bool.noConfusion (w.single_flag.contains_empty.symm.trans hheld)
    refine iff_of_false hnone ?_
    rintro ⟨⟨kind, payload⟩, hmem, hkind⟩
    have hcomment : kind.isComment = true := h _ hmem
    cases kind with
    | modifier | primitiveType => cases hcomment
    | _ => cases hkind
  types := by
    rw [List.countP_eq_zero.2]
    · rfl
    intro part hmem hkind
    have hcomment := h part hmem
    rw [of_decide_eq_true hkind] at hcomment
    cases hcomment

/-- One more part, and what the categories tell of it. -/
theorem concat (h : f.Names parts) {part : NodeKind × Option String}
    (hbuiltin : f'.Builtin ↔ f.Builtin ∨ part.1.isBuiltin = true)
    (htypes : f'.typeCount = f.typeCount + if part.1 = .userType then 1 else 0) :
    f'.Names (parts ++ [part]) where
  builtin := by
    rw [hbuiltin, h.builtin]
    simp only [List.mem_append, List.mem_singleton, or_and_right, exists_or, exists_eq_left]
  types := by
    rw [List.countP_append, List.countP_singleton, ← h.types, htypes]
    simp only [decide_eq_true_eq]

/-- Where the declared name comes, either one type is named that is not built
in, or words of the built-in types are. -/
theorem of_name (h : f.Names parts) (hcoherent : f.Coherent) {token : Token}
    (hj : f.judge token = .name) :
    (parts.countP (·.1 = .userType) = 1 ∧ ¬∃ part ∈ parts, part.1.isBuiltin = true) ∨
      (parts.countP (·.1 = .userType) = 0 ∧ ∃ part ∈ parts, part.1.isBuiltin = true) := by
  have hawaits : f.awaitsTag = false := awaitsTag_eq_false_of_judge hj nofun nofun
  have htyped : f.namesType = true := by
    cases takes_of_name hj with
    | name _ _ htyped => exact htyped
  rw [← h.types, ← h.builtin]
  cases huser : f.contains userDefined with
  | true =>
      refine Or.inl ⟨typeCount_eq_one (Or.inl huser), ?_⟩
      rintro ⟨w, hw, hheld⟩
      exact Bool.eq_false_iff.1 (hcoherent.named (Or.inl huser) w hw) hheld
  | false =>
      have hcomposed : f.contains composed = false := contains_composed_eq_false hawaits huser
      refine Or.inr ⟨by rw [typeCount, huser, hcomposed]; rfl, ?_⟩
      by_contra hnone
      have hword : ∀ w : Keyword, w.isTypeWord = true → f.contains w.flag = false :=
        fun w hw => Bool.eq_false_iff.2 fun hheld => hnone ⟨w, hw, hheld⟩
      -- A second `long` does not stand without the first one.
      have hlong : f.contains longLong = false := Bool.eq_false_iff.2 fun hlong =>
        Bool.eq_false_iff.1 (hword (.modifier .long) rfl) (hcoherent.longLong hlong)
      rw [namesType_eq_false (fun m => hword (.modifier m) rfl) hlong
        (fun p => hword (.primitive p) rfl) huser] at htyped
      cases htyped

end Flags.Names

namespace Sequence

variable {s : Sequence} {token : Token} {tokens : List Token}

/-- A node that is put elsewhere or names nothing. -/
theorem names_add (h : s.held.Names s.parts) {f : Flags} {parent : NodeId}
    (hlt : parent < s.tree.size) {kind : NodeKind} (position : Position)
    (payload diagnostic : Option String) (hkind : kind.isBuiltin = false) (hne : kind ≠ .userType)
    (hbuiltin : f.Builtin ↔ s.held.Builtin) (htypes : f.typeCount = s.held.typeCount) :
    f.Names ((s.tree.add parent kind position payload diagnostic).parts s.datatype) := by
  rw [Tree.parts_add s.closed hlt]
  split
  · refine h.concat ?_ ?_
    · rw [hbuiltin, hkind]
      simp
    · rw [htypes, if_neg hne, Nat.add_zero]
  · exact ⟨hbuiltin.trans h.builtin, htypes.trans h.types⟩

/-- The categories tell what the datatype names, behind each token. -/
theorem names_step (h : s.held.Names s.parts) (token : Token) :
    (s.step token).held.Names (s.step token).parts := by
  have hlt := s.datatype_lt
  rw [held_step, parts, tree_step, datatype_step]
  cases hj : s.held.judge token with
  | part kind after =>
      rw [digest_of_part hj, Tree.addLeaf, Tree.parts_add s.closed hlt, if_pos rfl]
      exact h.concat (Flags.builtin_of_part hj) (Flags.typeCount_of_part hj)
  | composed word after =>
      rw [digest_of_composed hj]
      have hnew : s.tree.size < (s.tree.addContainer s.datatype .userType token).size := by
        rw [Tree.size_addContainer]
        exact Nat.lt_succ_self _
      -- The marker goes under the type that is added with it.
      have hclosed : (s.tree.addContainer s.datatype .userType token).Closed := s.closed.add hlt
      show after.Names (((s.tree.addContainer s.datatype .userType token).addLeaf s.tree.size
        word.nodeKind token).parts s.datatype)
      rw [Tree.addLeaf, Tree.parts_add hclosed hnew, if_neg (Nat.ne_of_lt hlt), Tree.addContainer,
        Tree.parts_add s.closed hlt, if_pos rfl]
      refine h.concat ?_ (Flags.typeCount_of_composed hj)
      rw [Flags.builtin_of_composed hj]
      simp [NodeKind.isBuiltin]
  | tag after =>
      rw [digest_of_tag hj]
      exact names_add h (s.closed.tagParent_lt hlt) _ _ _ rfl (by decide) (Flags.builtin_of_tag hj)
        (Flags.typeCount_of_tag hj)
  | name =>
      rw [digest_of_name hj]
      exact names_add h (s.closed.parentOrSelf_lt hlt) _ _ _ rfl (by decide) Iff.rfl rfl
  | refused failure =>
      rw [digest_of_refused hj]
      exact names_add h hlt _ _ _ rfl (by decide) Iff.rfl rfl

/-- Throughout a sequence the flags name the type that the parts do. -/
theorem names_run (h : s.held.Names s.parts) (tokens : List Token) :
    (s.run tokens).held.Names (s.run tokens).parts := by
  induction tokens generalizing s with
  | nil => exact h
  | cons token tokens ih => exact ih (names_step h token)

/-- A sequence that has not begun names no type. -/
theorem names_of_isUnbegun (h : s.tree.isUnbegun s.datatype = true) : s.held.Names s.parts := by
  rw [s.held_of_isUnbegun h]
  exact .of_comments fun _ hmem => Tree.isComment_of_mem_parts h hmem

/-! ### A closed sequence -/

/-- A datatype is closed by what its categories accept. -/
theorem closes_iff_held :
    Closes s.datatype s.tree s.flags tokens ↔ s.held.Closes tokens := by
  induction tokens generalizing s with
  | nil =>
      refine iff_of_false ?_ id
      intro hclosed
      cases hclosed
  | cons token tokens ih =>
      have hdigest : CDeclarations.digest s.tree s.datatype s.flags token = s.digest token := rfl
      rw [closes_cons_iff, Flags.Closes, hdigest]
      have hrest := ih (s := s.step token)
      rw [held_step] at hrest
      change Closes s.datatype (s.digest token).tree (s.digest token).flags tokens ↔ _ at hrest
      -- The digest follows the verdict on the flags that are held.
      cases hj : s.held.judge token with
      | part kind after => rw [digest_of_part hj] at hrest ⊢; exact hrest
      | composed word after => rw [digest_of_composed hj] at hrest ⊢; exact hrest
      | tag after => rw [digest_of_tag hj] at hrest ⊢; exact hrest
      | name => rw [digest_of_name hj]
      | refused failure => rw [digest_of_refused hj]

/-- A closed sequence ends with the declared name, where a type is named and no
tag is due. -/
theorem name_of_closes (h : Closes s.datatype s.tree s.flags tokens) :
    ∃ before token, tokens = before ++ [token] ∧ (s.run before).held.judge token = .name := by
  induction tokens generalizing s with
  | nil => cases h
  | cons token tokens ih =>
      have hrest : Closes (s.step token).datatype (s.step token).tree (s.step token).flags tokens →
          ∃ before last, token :: tokens = before ++ [last] ∧
            (s.run before).held.judge last = .name := by
        intro hclosed
        obtain ⟨before, last, rfl, hj⟩ := ih hclosed
        exact ⟨token :: before, last, rfl, hj⟩
      -- The sequence closes with this token, or behind it.
      cases h with
      | name houtcome =>
          refine ⟨[], token, rfl, ?_⟩
          show s.held.judge token = .name
          change (s.digest token).outcome = _ at houtcome
          cases hj : s.held.judge token with
          | name => rfl
          | part kind after => rw [digest_of_part hj] at houtcome; cases houtcome
          | composed word after => rw [digest_of_composed hj] at houtcome; cases houtcome
          | tag after => rw [digest_of_tag hj] at houtcome; cases houtcome
          | refused failure => rw [digest_of_refused hj] at houtcome; cases houtcome
      | part _ hclosed => exact hrest hclosed

/-- The datatype of a closed sequence names one type, wherever its pointers
stand. It holds the name of a type or a composed one, and no word of a built-in
type, or it holds such words only, none of the types twice. A pointer does not
end a sequence. Without its pointers and qualifiers the sequence closes the
same datatype, and with a pointer more, put anywhere but before a tag, as
well. -/
theorem baseType_of_closes (s : Sequence) (hempty : s.tree.isUnbegun s.datatype = true)
    (tokens : List Token) (hclosed : Closes s.datatype s.tree s.flags tokens) :
    let parts := (s.run tokens).parts
    ((parts.countP (·.1 = .userType) = 1 ∧
        ∀ part ∈ parts, part.1 ≠ .modifier ∧ part.1 ≠ .primitiveType) ∨
      (parts.countP (·.1 = .userType) = 0 ∧
        ∃ part ∈ parts, part.1 = .modifier ∨ part.1 = .primitiveType)) ∧
      (∀ word, parts.count (.primitiveType, some word) ≤ 1) ∧
      Closes s.datatype s.tree s.flags (tokens.filter fun token => !token.isPointerOrQualifier) ∧
      ∀ before after pointer, tokens = before ++ after → after ≠ [] →
        pointer.isMark '*' = true →
        (∀ word, before.getLast?.bind Token.keyword? ≠ some (.composed word)) →
        Closes s.datatype s.tree s.flags (before ++ pointer :: after) := by
  intro parts
  have hheld : s.held = ∅ := s.held_of_isUnbegun hempty
  have hnames : (s.run tokens).held.Names parts := names_run (names_of_isUnbegun hempty) tokens
  have hconsistent := (consistent_of_isUnbegun hempty).run tokens
  have hclosed' : (∅ : Flags).Closes tokens := by
    rw [← hheld]
    exact closes_iff_held.1 hclosed
  refine ⟨?_, hconsistent.accounts.primitive, ?_, ?_⟩
  · have hbuiltin : ∀ part : NodeKind × Option String,
        part.1.isBuiltin = true ↔ part.1 = .modifier ∨ part.1 = .primitiveType := by
      rintro ⟨kind, payload⟩
      cases kind <;> simp [NodeKind.isBuiltin]
    simp only [← hbuiltin, ← not_or]
    obtain ⟨before, token, rfl, hj⟩ := name_of_closes hclosed
    -- The declared name changes nothing in the categories.
    have hlast : (s.run (before ++ [token])).held = (s.run before).held := by
      rw [run, List.foldl_append]
      show ((s.run before).step token).held = _
      rw [held_step, flags_digest, hj]
      rfl
    rw [← hlast] at hj
    rcases hnames.of_name hconsistent.coherent hj with ⟨hone, hnone⟩ | hwords
    · exact Or.inl ⟨hone, fun part hmem hkind => hnone ⟨part, hmem, hkind⟩⟩
    · exact Or.inr hwords
  · rw [closes_iff_held, hheld]
    exact hclosed'.filter
  · rintro before after pointer rfl hafter hmark hlast
    rw [closes_iff_held, hheld]
    exact hclosed'.insert_pointer hafter hmark hlast fun _ => rfl

/-- The pointer in `unsigned * int x` stands between two words of one type. -/
theorem baseType_of_closes_unsignedPointerInt :
    let s := Sequence.ofUnit ∅
    let word (text : String) : Token := ⟨.identifier, .nowhere, text⟩
    let tokens := [word "unsigned", ⟨.singleChar, .nowhere, "*"⟩, word "int", word "x"]
    s.tree.isUnbegun s.datatype = true ∧ Closes s.datatype s.tree s.flags tokens ∧
      (s.run tokens).parts.countP (·.1 = .userType) = 0 ∧
      Closes s.datatype s.tree s.flags [word "unsigned", word "int", word "x"] := by
  intro s word tokens
  have hempty : s.tree.isUnbegun s.datatype = true := by decide +kernel
  have hclosed : Closes s.datatype s.tree s.flags tokens := closes_iff_held.2 (by decide +kernel)
  obtain ⟨-, -, hrest, -⟩ := baseType_of_closes s hempty tokens hclosed
  exact ⟨hempty, hclosed, by decide +kernel, hrest⟩

/-- The words of `unsigned * int x` name one type, and one of them stands
behind the pointer. -/
theorem closes_unsignedPointerInt :
    let s := Sequence.ofUnit ∅
    let word (text : String) : Token := ⟨.identifier, .nowhere, text⟩
    let tokens := [word "unsigned", ⟨.singleChar, .nowhere, "*"⟩, word "int", word "x"]
    s.tree.isUnbegun s.datatype = true ∧ Closes s.datatype s.tree s.flags tokens ∧
      (s.run tokens).parts.countP (·.1 = .primitiveType) ≤ 1 ∧
      ¬∀ before after payload, (s.run tokens).parts = before ++ (.pointer, payload) :: after →
        ∀ part ∈ after, part.1 ∉
          [NodeKind.specifier, NodeKind.modifier, NodeKind.primitiveType, NodeKind.userType] := by
  intro s word tokens
  have hclosed : Closes s.datatype s.tree s.flags tokens := closes_iff_held.2 (by decide +kernel)
  -- The tree of the four tokens is evaluated: one base type, and it stands behind the
  -- pointer.
  have hparts : (s.run tokens).parts = [(.modifier, some "unsigned")] ++
      (.pointer, some "*") :: [(.primitiveType, some "int")] := by decide +kernel
  refine ⟨by decide +kernel, hclosed, by rw [hparts]; decide, ?_⟩
  intro hnone
  exact hnone _ _ _ hparts (.primitiveType, some "int") (List.mem_singleton.2 rfl) (by decide)

/-- The words of `char * int x` name two types, and one of them stands behind the
pointer. -/
theorem closes_charPointerInt :
    let s := Sequence.ofUnit ∅
    let word (text : String) : Token := ⟨.identifier, .nowhere, text⟩
    let tokens := [word "char", ⟨.singleChar, .nowhere, "*"⟩, word "int", word "x"]
    s.tree.isUnbegun s.datatype = true ∧ Closes s.datatype s.tree s.flags tokens ∧
      ¬(s.run tokens).parts.countP (·.1 = .primitiveType) ≤ 1 ∧
      ¬∀ before after payload, (s.run tokens).parts = before ++ (.pointer, payload) :: after →
        ∀ part ∈ after, part.1 ∉
          [NodeKind.specifier, NodeKind.modifier, NodeKind.primitiveType, NodeKind.userType] := by
  intro s word tokens
  have hclosed : Closes s.datatype s.tree s.flags tokens := closes_iff_held.2 (by decide +kernel)
  have hparts : (s.run tokens).parts = [(.primitiveType, some "char")] ++
      (.pointer, some "*") :: [(.primitiveType, some "int")] := by decide +kernel
  refine ⟨by decide +kernel, hclosed, by rw [hparts]; decide, ?_⟩
  intro hnone
  exact hnone _ _ _ hparts (.primitiveType, some "int") (List.mem_singleton.2 rfl) (by decide)

end Sequence

end CDeclarations
