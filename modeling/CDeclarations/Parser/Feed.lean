import CDeclarations.Parser.State
import CDeclarations.Specifier.Digest

/-!
# `CDeclarations.Parser.Feed`: what a token does to a parse

`Parser.feed` hands one token to a parse. A comment is kept at the
place where it stands and changes nothing else; an invalid token stops
the parse; every other token means what the state says. There is no
way back and no look ahead: each token is settled when it comes, and a
refused one leaves an error node and stops the parse.
-/

set_option autoImplicit false

namespace CDeclarations.Parser

/-! ### Growing the tree -/

/-- Adds a node that carries the token's text. -/
def leaf (p : Parser) (parent : NodeId) (kind : NodeKind) (token : Token) : Parser :=
  { p with tree := p.tree.addLeaf parent kind token }

/-- Adds a node without text. It has the index `p.tree.size`. -/
def container (p : Parser) (parent : NodeId) (kind : NodeKind) (token : Token) : Parser :=
  { p with tree := p.tree.addContainer parent kind token }

/-- The parent of a node, or the node itself where it has none. -/
def up (p : Parser) (id : NodeId) : NodeId :=
  p.tree.parentOrSelf id

/-- Refuses a token: an error node is left at the place, and the parse
stops. -/
def refuse (p : Parser) (token : Token) (failure : Failure) : Parser :=
  { p with tree := p.tree.addFailure p.place token failure }.enter (.stopped failure) p.place

/-- Refuses a token that the grammar has no use for. -/
def reject (p : Parser) (token : Token) (error : GrammarError) : Parser :=
  p.refuse token (.rejected error)

/-- Digests a token of the sequence in `datatype`. The parse stays
there in state `within`, and goes to the parent in state `behind` when
the sequence is closed. -/
def digestAt (p : Parser) (datatype : NodeId) (token : Token) (within behind : State) : Parser :=
  let d := digest p.tree datatype p.flags token
  let q := { p with tree := d.tree, flags := d.flags }
  match d.outcome with
  | .classified _ => q.enter within datatype
  | .declared _ => q.enter behind (q.up datatype)
  | .refused _ failure => q.enter (.stopped failure) datatype

/-! ### The states -/

/-- Between declarations a directive or a specifier sequence may
begin. -/
def onIdle (p : Parser) (token : Token) : Parser :=
  let id := p.tree.size
  if token.isMark '#' then (p.container p.place .directive token).enter .preprocessor id
  else if token.kind = .identifier then
    (p.container p.place .datatype token).digestAt id token .datatype .identifier
  else p.reject token .unexpectedToken

/-- A directive is an inclusion, a definition or a pragma. -/
def onPreprocessor (p : Parser) (token : Token) : Parser :=
  let id := p.tree.size
  if token.isWord "include" then
    (p.container p.place .includeDirective token).enter .includeName id
  else if token.isWord "define" then
    (p.container p.place .defineDirective token).enter .defineName id
  else if token.isWord "pragma" then
    (p.container p.place .pragmaDirective token).enter .pragma id
  else p.reject token .unexpectedDirective

/-- The last token of a directive; the parse goes back above the
directive. -/
def endDirective (p : Parser) (kind : NodeKind) (token : Token) : Parser :=
  let q := p.leaf p.place kind token
  q.enter .idle (q.up (q.up p.place))

/-- The name of a definition, the body of which has to follow. -/
def onDefineName (p : Parser) (token : Token) : Parser :=
  (p.leaf p.place .defineName token).enter .defineBody p.place

/-- Behind a declared name an array, parameters, an initializer or the
end of the declaration may follow. -/
def onIdentifier (p : Parser) (token : Token) : Parser :=
  let id := p.tree.size
  if token.isMark ';' then (p.leaf p.place .sentenceEnd token).enter .idle p.place
  else if token.isMark '[' then
    ((p.container p.place .arrayDefinition token).leaf id .openBracket token).enter
      .arrayDefinition id
  else if token.isMark '(' then
    (((p.container p.place .parameters token).leaf id .openParen token).container id .datatype
      token).enter .parameters (id + 2)
  else if token.isMark '=' then
    { p.container p.place .initialization token with nesting := 0 }.enter .initialization id
  else if token.isMark '{' then p.refuse token (.unsupported .embeddedDefinition)
  else p.reject token .unexpectedTokenAfterIdentifier

/-- Between square brackets every token but a bracket is part of the
length. -/
def onArrayDefinition (p : Parser) (token : Token) : Parser :=
  if token.isMark ']' then
    let q := p.leaf p.place .closeBracket token
    q.enter .identifier (q.up p.place)
  else if token.isMark '[' then p.reject token .unexpectedOpenSquareBracket
  else (p.leaf p.place .expressionToken token).enter .arrayDefinition p.place

/-- In an initializer braces nest, commas part the items between
braces, and a semicolon outside braces ends the declaration. The count
of braces begins anew outside array items. -/
def onInitialization (p : Parser) (token : Token) : Parser :=
  -- Behind a closing brace the place is an item again only while braces are open.
  let nesting := if p.tree.kind? p.place = some .arrayItem then p.nesting else 0
  let id := p.tree.size
  if token.isMark '{' then
    (({ p with nesting := nesting + 1 }.container p.place .arrayData token).leaf id .openBrace
      token |>.container id .arrayItem token).enter .initialization (id + 2)
  else if token.isMark '}' then
    let q := { p with nesting := nesting - 1 }
    if 0 ≤ nesting - 1 then
      let data := q.up q.place
      let closed := q.leaf data .closeBrace token
      closed.enter .initialization (closed.up data)
    else q.reject token .unexpectedCloseBrace
  else
    let q := { p with nesting := nesting }
    if token.isMark ',' then
      if 0 < nesting then
        (q.container (q.up q.place) .arrayItem token).enter .initialization id
      else q.reject token .unexpectedComma
    else if token.isMark ';' then
      if nesting = 0 then
        let enclosing := q.up q.place
        (q.leaf enclosing .sentenceEnd token).enter .idle enclosing
      else q.reject token .unexpectedSentenceEnd
    else (q.leaf q.place .expressionToken token).enter .initialization q.place

/-- Between parentheses commas part specifier sequences, each with at
most one name. The place is the datatype of the sequence under way, or
the parameters once the sequence is closed by its name. -/
def onParameters (p : Parser) (token : Token) : Parser :=
  let slotOpen := p.tree.kind? p.place = some .datatype
  let parameters := if slotOpen then p.up p.place else p.place
  if token.isMark ')' then
    let q := p.leaf parameters .closeParen token
    q.enter .functionDeclared (q.up parameters)
  else if token.isMark ',' then
    let id := p.tree.size
    ((p.leaf parameters .parameterSeparator token).container parameters .datatype token).enter
      .parameters (id + 1)
  else if slotOpen then p.digestAt p.place token .parameters .parameters
  else p.reject token .unexpectedTokenAfterParameter

/-- Whatever follows the parameters of a function has no shape in the
tree. -/
def onFunctionDeclared (p : Parser) (token : Token) : Parser :=
  p.refuse token <| .unsupported <|
    if token.isMark '{' then .functionBody
    else if token.isMark ';' then .functionForwardDeclaration
    else .functionDeclarationSuffix

/-- What a token means in the state of the parse. -/
def handle (p : Parser) (token : Token) : Parser :=
  match p.state with
  | .idle => p.onIdle token
  | .preprocessor => p.onPreprocessor token
  | .includeName => p.endDirective .includeName token
  | .defineName => p.onDefineName token
  | .defineBody => p.endDirective .defineBody token
  | .pragma => p.endDirective .pragmaText token
  | .datatype => p.digestAt p.place token .datatype .identifier
  | .identifier => p.onIdentifier token
  | .arrayDefinition => p.onArrayDefinition token
  | .initialization => p.onInitialization token
  | .parameters => p.onParameters token
  | .functionDeclared => p.onFunctionDeclared token
  | .stopped _ => p

/-- Hands a token to the parse. A parse that is stopped ignores it. -/
def feed (p : Parser) (token : Token) : Parser :=
  if p.state.failure?.isSome then p
  else
    match token.kind with
    | .blockComment => p.leaf p.place .blockComment token
    | .lineComment => p.leaf p.place .lineComment token
    | .invalid => p.reject token .invalidToken
    | _ => p.handle token

/-- Hands tokens to the parse, one after another. -/
def feedAll (p : Parser) (tokens : List Token) : Parser :=
  tokens.foldl feed p

end CDeclarations.Parser
