import CDeclarations.Diagnosis
import CDeclarations.Specifier.Keyword

/-!
# `CDeclarations.Specifier.Verdict`: what a token means to a sequence

A token is judged by the categories that its specifier sequence
already holds, and by nothing else. The verdict tells which node the
token becomes and which categories the sequence holds afterwards, or
why the token is refused.

Contradictions are caught whichever word comes first: a modifier is
checked against the types that stand before it and a type against the
modifiers that stand before it.
-/

set_option autoImplicit false

namespace CDeclarations

/-- What a token means to a specifier sequence. -/
inductive Verdict
  /-- A part of the sequence, of the given kind. -/
  | part (kind : NodeKind) (flags : Flags)
  /-- The opening word of a composed type. -/
  | composed (word : Composed) (flags : Flags)
  /-- The tag of the composed type that is open. -/
  | tag (flags : Flags)
  /-- The declared name, which closes the sequence. -/
  | name
  /-- No token of the sequence. -/
  | refused (failure : Failure)
deriving DecidableEq

/-- The category that a modifier adds to a sequence, or why it cannot
stand there. A second `long` adds a category of its own. -/
def Modifier.judge (word : Modifier) (flags : Flags) : Except GrammarError Flags :=
  if flags.contains word.flag then
    if word = .long ∧ !flags.intersects (.longLong ∪ .double) then .ok .longLong
    else .error .repeatedModifier
  else if flags.contains .userDefined then .error .modifierOnUserDefined
  else if flags.contains .void then .error .modifierOnVoid
  else if flags.contains .char ∧ (word = .short ∨ word = .long) then .error .shortLongOnChar
  else if flags.contains .float then .error .modifierOnFloat
  else if flags.contains .double ∧ word ≠ .long then .error .modifierOnDouble
  else if (flags.contains .unsigned ∧ word = .signed) ∨ (flags.contains .signed ∧ word = .unsigned)
  then .error .signedAndUnsigned
  else if (flags.contains .long ∧ word = .short) ∨ (flags.contains .short ∧ word = .long)
  then .error .longAndShort
  else .ok word.flag

/-- The category that a built-in type adds to a sequence, or why it
cannot stand there. -/
def Primitive.judge (word : Primitive) (flags : Flags) : Except GrammarError Flags :=
  if flags.contains word.flag then .error .repeatedPrimitive
  else if flags.contains .userDefined then .error .primitiveAfterUserDefined
  else if word = .void ∧ flags.intersects .modifiers then .error .voidWithModifiers
  else if word = .char ∧ flags.intersects (.short ∪ .long) then .error .charWithShortLong
  else if word = .float ∧ flags.intersects .modifiers then .error .floatWithModifiers
  else if word = .double ∧ flags.intersects (.signed ∪ .unsigned ∪ .short)
  then .error .doubleWithModifiers
  else .ok word.flag

namespace Flags

/-- A composed type is open: its tag has to follow directly. -/
def awaitsTag (flags : Flags) : Bool :=
  flags.contains composed && !flags.contains userDefined

/-- The verdict on a reserved word where no tag is due. -/
def judgeKeyword (flags : Flags) : Keyword → Verdict
  | .storage =>
      if flags.contains storage then .refused (.rejected .specifierAlreadyDefined)
      else .part .specifier (flags ∪ storage)
  | .qualifier =>
      if flags.contains qualifier then .refused (.rejected .qualifierAlreadyDefined)
      else .part .qualifier (flags ∪ qualifier)
  | .modifier word =>
      match word.judge flags with
      | .ok added => .part .modifier (flags ∪ added)
      | .error error => .refused (.rejected error)
  | .primitive word =>
      match word.judge flags with
      | .ok added => .part .primitiveType (flags ∪ added)
      | .error error => .refused (.rejected error)
  | .composed word =>
      if flags.namesType || flags.contains composed then
        .refused (.rejected .composedOverDefinedType)
      else .composed word (flags ∪ composed)

/-- The verdict on a token that is no reserved word where no tag is
due. Behind a pointer a qualifier may stand again. -/
def judgeOther (flags : Flags) (t : Token) : Verdict :=
  if t.isMark '*' then .part .pointer (flags \ qualifier)
  else if t.kind = .identifier then
    if flags.namesType then .name else .part .userType (flags ∪ userDefined)
  else .refused (.rejected .unexpectedToken)

/-- The verdict on a token of a sequence that holds these
categories. -/
def judge (flags : Flags) (t : Token) : Verdict :=
  if t.isMark '{' then .refused (.unsupported .embeddedDefinition)
  else if flags.awaitsTag then
    if t.kind = .identifier ∧ t.keyword? = none then .tag (flags ∪ userDefined)
    else .refused (.rejected .expectedTagName)
  else
    match t.keyword? with
    | some keyword => flags.judgeKeyword keyword
    | none => flags.judgeOther t

end Flags

end CDeclarations
