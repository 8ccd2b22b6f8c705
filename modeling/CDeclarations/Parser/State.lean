import CDeclarations.Diagnosis
import CDeclarations.Specifier.Flags
import CDeclarations.Token.Basic
import CDeclarations.Tree.Basic

/-!
# `CDeclarations.Parser.State`: where a parse stands

A parse grows a tree. Its state says what may come next, and its place
is the node that what comes next belongs to. Two states are entered
with a word about how the following token has to be read: the name of
an included file and the rest of a definition's line are tokens of
their own. A refused token stops the parse for good.
-/

set_option autoImplicit false

namespace CDeclarations

/-- What may come next. -/
inductive State
  /-- Between declarations. -/
  | idle
  /-- Behind the mark of a directive. -/
  | preprocessor
  | includeName
  | defineName
  | defineBody
  | pragma
  /-- Inside a specifier sequence. -/
  | datatype
  /-- Behind a declared name. -/
  | identifier
  | arrayDefinition
  | initialization
  /-- Inside the parameters of a function. -/
  | parameters
  /-- Behind the parameters of a function. -/
  | functionDeclared
  /-- A token is refused. -/
  | stopped (failure : Failure)
deriving DecidableEq

namespace State

/-- The state as it stands in log records. -/
def name : State → String
  | .idle => "Idle"
  | .preprocessor => "Preprocessor"
  | .includeName => "IncludeFilename"
  | .defineName => "DefineIdentifier"
  | .defineBody => "DefineLiteral"
  | .pragma => "Pragma"
  | .datatype => "Datatype"
  | .identifier => "Identifier"
  | .arrayDefinition => "ArrayDefinition"
  | .initialization => "Initialization"
  | .parameters => "FunctionParameters"
  | .functionDeclared => "FunctionDeclared"
  | .stopped _ => "Error"

/-- The failure that stopped the parse. -/
def failure? : State → Option Failure
  | .stopped failure => some failure
  | _ => none

/-- How the next token has to be read when the state is entered, if
the state has a word about it. -/
def mode? : State → Option TokenMode
  | .includeName => some .includeName
  | .defineBody | .pragma => some .defineBody
  | _ => none

end State

/-- A parse under way. -/
structure Parser where
  tree : Tree
  state : State
  /-- The node that what comes next belongs to. -/
  place : NodeId
  /-- The categories of the specifier sequence under way. -/
  flags : Flags
  /-- The braces of the initializer that are open. -/
  nesting : Int
  /-- How the next token has to be read. -/
  pending : TokenMode

namespace Parser

/-- A parse that has met no token of its unit. -/
def ofUnit (kind : UnitKind) (filename : String) : Parser where
  tree := .ofUnit kind filename
  state := .idle
  place := Tree.root
  flags := ∅
  nesting := 0
  pending := .normal

/-- Enters a state at a place. -/
def enter (p : Parser) (state : State) (place : NodeId) : Parser :=
  { p with state := state, place := place, pending := state.mode?.getD p.pending }

end Parser

end CDeclarations
