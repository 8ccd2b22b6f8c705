import CDeclarations.Text.Position

/-!
# `CDeclarations.Token.Basic`: tokens and their classes

A token is a classified piece of text with the position of its first
character. Trouble in the text never stops the reading of tokens: an
unclosed literal or a malformed number comes back as a token of class
`TokenKind.invalid`, and the reader of the tokens decides.
-/

set_option autoImplicit false

namespace CDeclarations

/-- The lexical classes. -/
inductive TokenKind
  /-- One of `{ } ( ) [ ] ; , # * =`. -/
  | singleChar
  | identifier
  | numberLiteral
  | stringLiteral
  | charLiteral
  /-- A `<...>` or `"..."` read as the name of an included file. -/
  | includeLiteral
  /-- The rest of a logical line read as the body of a definition. -/
  | defineLiteral
  | operator
  | blockComment
  | lineComment
  | invalid
deriving DecidableEq

namespace TokenKind

/-- Comments are kept in the tree and ignored by the grammar. -/
def isComment : TokenKind → Bool
  | .blockComment | .lineComment => true
  | _ => false

/-- The class in running text. -/
def describe : TokenKind → String
  | .singleChar => "single-char"
  | .identifier => "identifier"
  | .numberLiteral => "number literal"
  | .stringLiteral => "string literal"
  | .charLiteral => "char literal"
  | .includeLiteral => "include literal"
  | .defineLiteral => "define literal"
  | .operator => "operator"
  | .blockComment => "block comment"
  | .lineComment => "line comment"
  | .invalid => "invalid token"

/-- The class as it stands in log records. -/
def name : TokenKind → String
  | .singleChar => "SingleChar"
  | .identifier => "Identifier"
  | .numberLiteral => "NumberLiteral"
  | .stringLiteral => "StringLiteral"
  | .charLiteral => "CharLiteral"
  | .includeLiteral => "IncludeLiteral"
  | .defineLiteral => "DefineLiteral"
  | .operator => "Operator"
  | .blockComment => "BlockComment"
  | .lineComment => "LineComment"
  | .invalid => "Invalid"

/-- All classes, in the order of their declaration. -/
def all : List TokenKind :=
  [.singleChar, .identifier, .numberLiteral, .stringLiteral, .charLiteral, .includeLiteral,
    .defineLiteral, .operator, .blockComment, .lineComment, .invalid]

end TokenKind

/-- How the next token is read. Names of included files and bodies of
definitions are single tokens that only the grammar can ask for. -/
inductive TokenMode
  | normal
  | includeName
  | defineBody
deriving DecidableEq

/-- The mode as it stands in log records. -/
def TokenMode.name : TokenMode → String
  | .normal => "Normal"
  | .includeName => "IncludeFilename"
  | .defineBody => "DefineLiteral"

/-- A classified piece of text with the position of its first
character. -/
structure Token where
  kind : TokenKind
  position : Position
  text : String
deriving DecidableEq

namespace Token

/-- The token is the structural mark `c`. Marks are one byte long, so
no token is a mark outside ASCII. -/
def isMark (t : Token) (c : Char) : Bool :=
  t.kind = .singleChar && c.utf8Size = 1 && t.text = String.singleton c

/-- The token is an identifier spelled `word`. -/
def isWord (t : Token) (word : String) : Bool :=
  t.kind = .identifier && t.text = word

/-- The token in running text: class, spelling and position. -/
def describe (t : Token) : String :=
  t.kind.describe ++ " '" ++ t.text ++ "' at " ++ t.position.render

end Token

end CDeclarations
