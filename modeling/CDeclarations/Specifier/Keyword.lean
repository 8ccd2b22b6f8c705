import CDeclarations.Specifier.Flags
import CDeclarations.Token.Basic
import CDeclarations.Tree.NodeKind

/-!
# `CDeclarations.Specifier.Keyword`: the words of a specifier sequence

The reserved words of a declaration's specifiers fall into five
classes. A modifier, a primitive type and the opening word of a
composed type are told apart within their class; storage words and
qualifiers are not, for the rules treat them alike.
-/

set_option autoImplicit false

namespace CDeclarations

/-- The words that modify a built-in type. -/
inductive Modifier
  | signed
  | unsigned
  | short
  | long
deriving DecidableEq

/-- The built-in types. -/
inductive Primitive
  | void
  | char
  | int
  | float
  | double
deriving DecidableEq

/-- The words that a tag has to follow. -/
inductive Composed
  | union
  | enum
  | struct
deriving DecidableEq

/-- The reserved words, by their class. -/
inductive Keyword
  | storage
  | qualifier
  | modifier (word : Modifier)
  | primitive (word : Primitive)
  | composed (word : Composed)
deriving DecidableEq

/-- The category of a modifier. -/
def Modifier.flag : Modifier → Flags
  | .signed => .signed
  | .unsigned => .unsigned
  | .short => .short
  | .long => .long

/-- The category of a built-in type. -/
def Primitive.flag : Primitive → Flags
  | .void => .void
  | .char => .char
  | .int => .int
  | .float => .float
  | .double => .double

/-- The kind of the node that marks a composed type. -/
def Composed.nodeKind : Composed → NodeKind
  | .union => .union
  | .enum => .enum
  | .struct => .struct

namespace Keyword

/-- The reserved words and their classes. -/
def words : List (String × Keyword) :=
  [("static", .storage), ("extern", .storage), ("auto", .storage), ("register", .storage),
    ("typedef", .storage), ("const", .qualifier), ("volatile", .qualifier),
    ("signed", .modifier .signed), ("unsigned", .modifier .unsigned),
    ("short", .modifier .short), ("long", .modifier .long),
    ("void", .primitive .void), ("char", .primitive .char), ("int", .primitive .int),
    ("float", .primitive .float), ("double", .primitive .double),
    ("union", .composed .union), ("enum", .composed .enum), ("struct", .composed .struct)]

/-- The class of a word, if it is reserved. -/
def ofWord? (word : String) : Option Keyword :=
  words.lookup word

end Keyword

/-- The class of a token, if it is a reserved word. -/
def Token.keyword? (t : Token) : Option Keyword :=
  if t.kind = .identifier then Keyword.ofWord? t.text else none

end CDeclarations
