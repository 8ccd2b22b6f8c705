import CDeclarations.Parser.Run

/-!
# `CDeclarations.Parser.Log`: the record of a parse

A parse can be followed record by record. The records of a token tell
how it was read, which mode it asks for, why it is refused and which
state it leads to; they follow from the parse before and behind the
token, so that keeping a record changes nothing in the parse.
-/

set_option autoImplicit false

namespace CDeclarations

/-- How much a record matters. -/
inductive LogLevel
  | info
  | debug
  | warn
  | trace
deriving DecidableEq

/-- One record of a parse. -/
structure LogRecord where
  level : LogLevel
  message : String
deriving DecidableEq

/-- The record of a token that is read. -/
def Token.record (t : Token) : LogRecord :=
  ⟨.trace, "R" ++ toString t.position.line ++ ", C" ++ toString t.position.column ++ ", "
    ++ t.kind.name ++ ": " ++ t.text⟩

/-- The records of a change of state that a token brings about. -/
def State.changeRecords (before after : State) (t : Token) : List LogRecord :=
  let asked := match after.mode? with
    | some mode => [⟨.debug, "next token lexed in " ++ mode.name ++ " mode"⟩]
    | none => []
  let refused := match after.failure? with
    | some failure =>
        [⟨.warn, t.text ++ " at " ++ t.position.render ++ ": " ++ failure.message⟩]
    | none => []
  asked ++ refused
    ++ [⟨.debug, before.name ++ " -> " ++ after.name ++ " on '" ++ t.text ++ "'"⟩]

namespace Parser

/-- The records of the tokens that are delivered to a parse, behind
those in `found`, the latest of which comes first. -/
private def tokenRecords (p : Parser) (found : List LogRecord) : List Token → List LogRecord
  | [] => found.reverse
  | t :: tokens =>
      let before := p.state
      let q := p.receive t
      let changes := if q.state = before then [] else before.changeRecords q.state t
      tokenRecords q (changes.reverse ++ t.record :: found) tokens

/-- The name of the unit. -/
def filename (p : Parser) : String :=
  (p.tree.nodes[0]?.bind Node.payload).getD "<unnamed>"

/-- The record of a text that ends inside a declaration. -/
def endRecords (p : Parser) : List LogRecord :=
  match p.state with
  | .idle | .stopped _ => []
  | state => [⟨.warn, "end of input in state " ++ state.name⟩]

/-- The records of a run over the text left at a cursor. -/
def log (p : Parser) (c : Cursor) : List LogRecord :=
  let d := p.deliver c
  let outcome := d.parser.close d.cursor
  ⟨.info, "parsing " ++ p.filename⟩
    :: tokenRecords p [] d.tokens.toList
    ++ d.parser.endRecords
    ++ [⟨.info, "parse finished: " ++ outcome.status.describe ++ " ("
      ++ toString outcome.tree.size ++ " nodes)"⟩]

end Parser

end CDeclarations
