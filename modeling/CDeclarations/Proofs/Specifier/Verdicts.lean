import CDeclarations.Proofs.Specifier.Records

/-!
# `CDeclarations.Proofs.Specifier.Verdicts`: the tokens that a sequence takes

A verdict is found through several functions, one for each class of
words. `Flags.Takes` lists the verdicts that refuse nothing, each with
what is known of the token and of the categories before it
(`Flags.takes_of_judge`).
-/

set_option autoImplicit false

namespace CDeclarations

/-- The class of a reserved word is that of its text. -/
theorem Token.ofWord?_of_keyword? {token : Token} {word : Keyword}
    (h : token.keyword? = some word) : Keyword.ofWord? token.text = some word := by
  rw [keyword?] at h
  split at h
  · exact h
  · cases h

namespace Flags

/-- A sequence that holds these categories takes the token, with this
verdict. -/
inductive Takes (flags : Flags) (token : Token) : Verdict → Prop
  | storage (hword : token.keyword? = some .storage)
      (hnew : flags.contains .storage = false) :
      Takes flags token (.part .specifier (flags ∪ storage))
  | qualifier (hword : token.keyword? = some .qualifier)
      (hnew : flags.contains .qualifier = false) :
      Takes flags token (.part .qualifier (flags ∪ qualifier))
  | modifier {m : Modifier} {added : Flags} (hword : token.keyword? = some (.modifier m))
      (hadded : m.judge flags = .ok added) :
      Takes flags token (.part .modifier (flags ∪ added))
  | primitive {p : Primitive} (hword : token.keyword? = some (.primitive p))
      (hadded : p.judge flags = .ok p.flag) :
      Takes flags token (.part .primitiveType (flags ∪ p.flag))
  | composed {w : Composed} (hword : token.keyword? = some (.composed w))
      (huntyped : flags.namesType = false) (hnew : flags.contains .composed = false) :
      Takes flags token (.composed w (flags ∪ composed))
  | pointer (hmark : token.isMark '*' = true) :
      Takes flags token (.part .pointer (flags \ qualifier))
  | typeName (hkind : token.kind = .identifier) (hword : token.keyword? = none)
      (huntyped : flags.namesType = false) :
      Takes flags token (.part .userType (flags ∪ userDefined))
  | tag (hkind : token.kind = .identifier) (hword : token.keyword? = none)
      (hopen : flags.awaitsTag = true) :
      Takes flags token (.tag (flags ∪ userDefined))
  | name (hkind : token.kind = .identifier) (hword : token.keyword? = none)
      (htyped : flags.namesType = true) :
      Takes flags token .name

variable {flags : Flags} {token : Token}

/-- A keyword that is not refused is taken as its group says. -/
theorem takes_of_judgeKeyword {keyword : Keyword} (hword : token.keyword? = some keyword)
    (hjudge : ∀ failure, flags.judgeKeyword keyword ≠ .refused failure) :
    flags.Takes token (flags.judgeKeyword keyword) := by
  cases keyword with
  | storage =>
      simp only [judgeKeyword] at hjudge ⊢
      split at hjudge
      · exact absurd rfl (hjudge _)
      · next hnew =>
        rw [if_neg hnew]
        exact .storage hword (Bool.eq_false_iff.2 hnew)
  | qualifier =>
      simp only [judgeKeyword] at hjudge ⊢
      split at hjudge
      · exact absurd rfl (hjudge _)
      · next hnew =>
        rw [if_neg hnew]
        exact .qualifier hword (Bool.eq_false_iff.2 hnew)
  | modifier m =>
      simp only [judgeKeyword] at hjudge ⊢
      cases hm : m.judge flags with
      | ok added => exact .modifier hword hm
      | error error =>
          rw [hm] at hjudge
          exact absurd rfl (hjudge _)
  | primitive p =>
      simp only [judgeKeyword] at hjudge ⊢
      cases hp : p.judge flags with
      | ok added =>
          obtain rfl := Records.eq_of_primitive_judge hp
          exact .primitive hword hp
      | error error =>
          rw [hp] at hjudge
          exact absurd rfl (hjudge _)
  | composed w =>
      simp only [judgeKeyword] at hjudge ⊢
      split at hjudge
      · exact absurd rfl (hjudge _)
      · next hnew =>
        rw [if_neg hnew]
        rw [Bool.not_eq_true, Bool.or_eq_false_iff] at hnew
        exact .composed hword hnew.1 hnew.2

/-- A token that is no keyword and not refused is a pointer, a name or the
name of a type. -/
theorem takes_of_judgeOther (hword : token.keyword? = none)
    (hjudge : ∀ failure, flags.judgeOther token ≠ .refused failure) :
    flags.Takes token (flags.judgeOther token) := by
  rw [judgeOther] at hjudge ⊢
  split at hjudge
  · next hmark =>
    rw [if_pos hmark]
    exact .pointer hmark
  next hmark =>
  rw [if_neg hmark]
  split at hjudge
  · next hkind =>
    rw [if_pos hkind]
    cases htyped : flags.namesType with
    | true => exact .name hkind hword htyped
    | false => exact .typeName hkind hword htyped
  · exact absurd rfl (hjudge _)

/-- Whatever is not refused is taken. -/
theorem takes_of_judge {verdict : Verdict} (hj : flags.judge token = verdict)
    (hjudge : ∀ failure, verdict ≠ .refused failure) : flags.Takes token verdict := by
  subst hj
  rw [judge] at hjudge ⊢
  split at hjudge
  · exact absurd rfl (hjudge _)
  -- A brace is refused, so the token is another one from here on.
  next hmark =>
  rw [if_neg hmark]
  split at hjudge
  · next hopen =>
    rw [if_pos hopen]
    split at hjudge
    · next hword =>
      rw [if_pos hword]
      exact .tag hword.1 hword.2 hopen
    · exact absurd rfl (hjudge _)
  next hopen =>
  rw [if_neg hopen]
  -- No tag is awaited, so keywords and other tokens have their own judgement.
  cases hword : token.keyword? with
  | some keyword =>
      rw [hword] at hjudge
      exact takes_of_judgeKeyword hword hjudge
  | none =>
      rw [hword] at hjudge
      exact takes_of_judgeOther hword hjudge

/-- What was judged a part was taken as one. -/
theorem takes_of_part {kind : NodeKind} {after : Flags}
    (hj : flags.judge token = .part kind after) : flags.Takes token (.part kind after) :=
  takes_of_judge hj nofun

/-- What was judged a composed type was taken as one. -/
theorem takes_of_composed {word : Composed} {after : Flags}
    (hj : flags.judge token = .composed word after) : flags.Takes token (.composed word after) :=
  takes_of_judge hj nofun

/-- What was judged a tag was taken as one. -/
theorem takes_of_tag {after : Flags} (hj : flags.judge token = .tag after) :
    flags.Takes token (.tag after) :=
  takes_of_judge hj nofun

/-- What was judged a name was taken as one. -/
theorem takes_of_name (hj : flags.judge token = .name) : flags.Takes token .name :=
  takes_of_judge hj nofun

end Flags

end CDeclarations
