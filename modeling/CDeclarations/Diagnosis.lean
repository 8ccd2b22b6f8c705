/-!
# `CDeclarations.Diagnosis`: why a unit is refused

A unit is refused for one of two reasons. A grammar error says that it
is no C of the supported subset; an unsupported construct is plausible
C that the tree has no shape for. `Status` tells how the parse of a
unit ended.
-/

set_option autoImplicit false

namespace CDeclarations

/-- What is wrong with a unit. -/
inductive GrammarError
  | specifierAlreadyDefined
  | qualifierAlreadyDefined
  | repeatedModifier
  | modifierOnUserDefined
  | modifierOnVoid
  | shortLongOnChar
  | modifierOnFloat
  | modifierOnDouble
  | signedAndUnsigned
  | longAndShort
  | repeatedPrimitive
  | primitiveAfterUserDefined
  | voidWithModifiers
  | charWithShortLong
  | floatWithModifiers
  | doubleWithModifiers
  | composedOverDefinedType
  | expectedTagName
  | unexpectedToken
  | invalidToken
  | unexpectedDirective
  | unexpectedTokenAfterIdentifier
  | unexpectedTokenAfterParameter
  | unexpectedOpenSquareBracket
  | unexpectedCloseBrace
  | unexpectedComma
  | unexpectedSentenceEnd
  | unexpectedEndOfInput
deriving DecidableEq

/-- The message of a grammar error. -/
def GrammarError.message : GrammarError → String
  | .specifierAlreadyDefined => "specifier already defined"
  | .qualifierAlreadyDefined => "qualifier already defined"
  | .repeatedModifier => "cannot apply the same modifier twice"
  | .modifierOnUserDefined => "cannot apply modifiers to user defined datatypes"
  | .modifierOnVoid => "cannot apply modifiers to void datatype"
  | .shortLongOnChar => "cannot apply modifier short nor long to char datatype"
  | .modifierOnFloat => "cannot apply modifiers to float datatype"
  | .modifierOnDouble => "cannot apply modifiers short, unsigned nor signed to double datatype"
  | .signedAndUnsigned => "cannot apply signed and unsigned modifiers at the same time"
  | .longAndShort => "cannot apply long and short modifiers at the same time"
  | .repeatedPrimitive => "cannot specify the same basic built in datatype twice"
  | .primitiveAfterUserDefined =>
      "cannot specify a basic built in datatype when a user defined datatype is already defined"
  | .voidWithModifiers => "cannot specify modifiers to void datatype"
  | .charWithShortLong => "cannot specify short nor long modifiers to char datatype"
  | .floatWithModifiers => "cannot specify modifiers to float datatype"
  | .doubleWithModifiers =>
      "cannot specify signed, unsigned nor short modifiers to double datatype"
  | .composedOverDefinedType =>
      "cannot declare a union, enum or struct over an already specified datatype"
  | .expectedTagName => "expected a tag name after union, enum or struct"
  | .unexpectedToken => "unexpected token"
  | .invalidToken => "unexpected invalid token"
  | .unexpectedDirective => "unexpected preprocessor directive"
  | .unexpectedTokenAfterIdentifier => "unexpected token after identifier"
  | .unexpectedTokenAfterParameter => "unexpected token after parameter identifier"
  | .unexpectedOpenSquareBracket => "unexpected open square bracket"
  | .unexpectedCloseBrace => "unexpected close bracket during variable initialization"
  | .unexpectedComma => "unexpected comma during variable initialization"
  | .unexpectedSentenceEnd => "unexpected sentence end during array variable initialization"
  | .unexpectedEndOfInput => "unexpected end of input"

/-- What a unit holds that the tree has no shape for. -/
inductive UnsupportedConstruct
  /-- Braces in a declaration's specifiers or behind a declared name. -/
  | embeddedDefinition
  /-- Braces behind a function's parameters. -/
  | functionBody
  /-- A semicolon behind a function's parameters. -/
  | functionForwardDeclaration
  /-- Anything else behind a function's parameters. -/
  | functionDeclarationSuffix
deriving DecidableEq

/-- The message of an unsupported construct. -/
def UnsupportedConstruct.message : UnsupportedConstruct → String
  | .embeddedDefinition => "not supported yet: embedded union, enum or struct definition"
  | .functionBody => "not supported yet: function body"
  | .functionForwardDeclaration => "not supported yet: function forward declaration"
  | .functionDeclarationSuffix => "not supported yet: function declaration suffix"

/-- Why a unit is refused. -/
inductive Failure
  | rejected (error : GrammarError)
  | unsupported (construct : UnsupportedConstruct)
deriving DecidableEq

/-- The message of the error node that a refusal leaves. -/
def Failure.message : Failure → String
  | .rejected error => error.message
  | .unsupported construct => construct.message

/-- How the parse of a unit ended. -/
inductive Status
  /-- All of the unit is read and every declaration is closed. -/
  | completed
  | failed (failure : Failure)
deriving DecidableEq

/-- The status in running text. -/
def Status.describe : Status → String
  | .completed => "completed"
  | .failed (.rejected error) => "rejected: " ++ error.message
  | .failed (.unsupported construct) => "unsupported: " ++ construct.message

end CDeclarations
