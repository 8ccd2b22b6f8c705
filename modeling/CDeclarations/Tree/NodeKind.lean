/-!
# `CDeclarations.Tree.NodeKind`: what a node of the tree stands for

The kinds are a closed set. Each has a short name, which the outline
of a tree shows.
-/

set_option autoImplicit false

namespace CDeclarations

/-- What a node of the tree stands for. -/
inductive NodeKind
  | headerUnit
  | sourceUnit
  | blockComment
  | lineComment
  | directive
  | includeDirective
  | includeName
  | defineDirective
  | defineName
  | defineBody
  | pragmaDirective
  | pragmaText
  | datatype
  | specifier
  | qualifier
  | modifier
  | primitiveType
  | userType
  | union
  | enum
  | struct
  | pointer
  | openParen
  | closeParen
  | openBracket
  | closeBracket
  | openBrace
  | closeBrace
  | identifier
  | arrayDefinition
  | parameters
  | parameterSeparator
  | initialization
  | arrayData
  | arrayItem
  | expressionToken
  | sentenceEnd
  | error
  /-- A diagnostic that does not end the parse; the grammar has none. -/
  | warning
deriving DecidableEq

namespace NodeKind

/-- Errors and warnings. -/
def isDiagnostic : NodeKind → Bool
  | .error | .warning => true
  | _ => false

/-- Block and line comments. -/
def isComment : NodeKind → Bool
  | .blockComment | .lineComment => true
  | _ => false

/-- The kinds of a root. -/
def isUnit : NodeKind → Bool
  | .headerUnit | .sourceUnit => true
  | _ => false

/-- The short name. -/
def name : NodeKind → String
  | .headerUnit => "header-unit"
  | .sourceUnit => "source-unit"
  | .blockComment => "block-comment"
  | .lineComment => "line-comment"
  | .directive => "directive"
  | .includeDirective => "include"
  | .includeName => "include-filename"
  | .defineDirective => "define"
  | .defineName => "define-identifier"
  | .defineBody => "define-expression"
  | .pragmaDirective => "pragma"
  | .pragmaText => "pragma-text"
  | .datatype => "datatype"
  | .specifier => "specifier"
  | .qualifier => "qualifier"
  | .modifier => "modifier"
  | .primitiveType => "primitive-type"
  | .userType => "user-defined-type"
  | .union => "union"
  | .enum => "enum"
  | .struct => "struct"
  | .pointer => "pointer"
  | .openParen => "open-parenthesis"
  | .closeParen => "close-parenthesis"
  | .openBracket => "open-bracket"
  | .closeBracket => "close-bracket"
  | .openBrace => "open-brace"
  | .closeBrace => "close-brace"
  | .identifier => "identifier"
  | .arrayDefinition => "array-definition"
  | .parameters => "function-parameters"
  | .parameterSeparator => "parameters-separator"
  | .initialization => "initialization"
  | .arrayData => "array-data"
  | .arrayItem => "array-item"
  | .expressionToken => "expression-token"
  | .sentenceEnd => "sentence-end"
  | .error => "error"
  | .warning => "warning"

/-- All kinds, in the order of their declaration. -/
def all : List NodeKind :=
  [.headerUnit, .sourceUnit, .blockComment, .lineComment, .directive, .includeDirective,
    .includeName, .defineDirective, .defineName, .defineBody, .pragmaDirective, .pragmaText,
    .datatype, .specifier, .qualifier, .modifier, .primitiveType, .userType, .union, .enum,
    .struct, .pointer, .openParen, .closeParen, .openBracket, .closeBracket, .openBrace,
    .closeBrace, .identifier, .arrayDefinition, .parameters, .parameterSeparator,
    .initialization, .arrayData, .arrayItem, .expressionToken, .sentenceEnd, .error, .warning]

/-- No kind is missing from the list. -/
theorem mem_all (k : NodeKind) : k ∈ all := by
  cases k <;> decide

end NodeKind

/-- The two kinds of translation units. -/
inductive UnitKind
  | header
  | source
deriving DecidableEq

/-- The kind of the root of a unit's tree. -/
def UnitKind.rootKind : UnitKind → NodeKind
  | .header => .headerUnit
  | .source => .sourceUnit

/-- The root of every kind of unit is a unit. -/
theorem UnitKind.isUnit_rootKind (k : UnitKind) : k.rootKind.isUnit = true := by
  cases k <;> rfl

end CDeclarations
