import CDeclarations.Proofs.Parser.Guards

/-!
# `CDeclarations.Proofs.Parser.Guarded`: a parse meets none of its guards

The guarded parser takes the steps of the parser and checks each of
them. It stops at none: in a sound parse the place is a node that fits
the state, so that all look-ups and climbs find what they need, and a
token opens one brace at most, so that the count of braces fits as long
as there are not too many tokens.

* `Sound.feed?_eq`: from a sound parse the guarded parser does what the
  parser does, one lemma for each guarded step and each state's handler.
* `Sound.counted_feed`: a token opens one brace at most.
* `guarded_feedAll`: no guard is met, whatever tokens a new parse is
  handed, and the place fits the state behind each of them.
-/

set_option autoImplicit false

namespace CDeclarations

namespace Parser

/-! ### The guarded parser -/

/-- Adds a node that carries the token's text. -/
def leaf? (p : Parser) (parent : NodeId) (kind : NodeKind) (token : Token) :
    Except Trap Parser := do
  let tree ← p.tree.guardedAdd parent kind token (some token.text)
  return { p with tree := tree }

/-- Adds a node without text. -/
def container? (p : Parser) (parent : NodeId) (kind : NodeKind) (token : Token) :
    Except Trap Parser := do
  let tree ← p.tree.guardedAdd parent kind token none
  return { p with tree := tree }

/-- The parent of a node. -/
def up? (p : Parser) (id : NodeId) : Except Trap NodeId :=
  p.tree.guardedParent id

/-- Refuses a token. -/
def refuse? (p : Parser) (token : Token) (failure : Failure) : Except Trap Parser := do
  let tree ← p.tree.guardedFailure p.place token failure
  return { p with tree := tree }.enter (.stopped failure) p.place

/-- Refuses a token that the grammar has no use for. -/
def reject? (p : Parser) (token : Token) (error : GrammarError) : Except Trap Parser :=
  p.refuse? token (.rejected error)

def digestAt? (p : Parser) (datatype : NodeId) (token : Token) (within behind : State) :
    Except Trap Parser := do
  let d ← digest? p.tree datatype p.flags token
  let q := { p with tree := d.tree, flags := d.flags }
  match d.outcome with
  | .classified _ => return q.enter within datatype
  | .declared _ =>
      let enclosing ← q.up? datatype
      return q.enter behind enclosing
  | .refused _ failure => return q.enter (.stopped failure) datatype

def onIdle? (p : Parser) (token : Token) : Except Trap Parser :=
  let id := p.tree.size
  if token.isMark '#' then do
    let q ← p.container? p.place .directive token
    return q.enter .preprocessor id
  else if token.kind = .identifier then do
    let q ← p.container? p.place .datatype token
    q.digestAt? id token .datatype .identifier
  else p.reject? token .unexpectedToken

def onPreprocessor? (p : Parser) (token : Token) : Except Trap Parser :=
  let id := p.tree.size
  if token.isWord "include" then do
    let q ← p.container? p.place .includeDirective token
    return q.enter .includeName id
  else if token.isWord "define" then do
    let q ← p.container? p.place .defineDirective token
    return q.enter .defineName id
  else if token.isWord "pragma" then do
    let q ← p.container? p.place .pragmaDirective token
    return q.enter .pragma id
  else p.reject? token .unexpectedDirective

/-- The last token of a directive, from which the parse climbs two
levels. -/
def endDirective? (p : Parser) (kind : NodeKind) (token : Token) : Except Trap Parser := do
  let q ← p.leaf? p.place kind token
  let directive ← q.up? p.place
  let enclosing ← q.up? directive
  return q.enter .idle enclosing

def onDefineName? (p : Parser) (token : Token) : Except Trap Parser := do
  let q ← p.leaf? p.place .defineName token
  return q.enter .defineBody p.place

def onIdentifier? (p : Parser) (token : Token) : Except Trap Parser :=
  let id := p.tree.size
  if token.isMark ';' then do
    let q ← p.leaf? p.place .sentenceEnd token
    return q.enter .idle p.place
  else if token.isMark '[' then do
    let q ← p.container? p.place .arrayDefinition token
    let q ← q.leaf? id .openBracket token
    return q.enter .arrayDefinition id
  else if token.isMark '(' then do
    let q ← p.container? p.place .parameters token
    let q ← q.leaf? id .openParen token
    let q ← q.container? id .datatype token
    return q.enter .parameters (id + 2)
  else if token.isMark '=' then do
    let q ← p.container? p.place .initialization token
    return { q with nesting := 0 }.enter .initialization id
  else if token.isMark '{' then p.refuse? token (.unsupported .embeddedDefinition)
  else p.reject? token .unexpectedTokenAfterIdentifier

def onArrayDefinition? (p : Parser) (token : Token) : Except Trap Parser :=
  if token.isMark ']' then do
    let q ← p.leaf? p.place .closeBracket token
    let enclosing ← q.up? p.place
    return q.enter .identifier enclosing
  else if token.isMark '[' then p.reject? token .unexpectedOpenSquareBracket
  else do
    let q ← p.leaf? p.place .expressionToken token
    return q.enter .arrayDefinition p.place

def onInitialization? (p : Parser) (token : Token) : Except Trap Parser := do
  p.tree.guardNode p.place
  let nesting := if p.tree.kind? p.place = some .arrayItem then p.nesting else 0
  let id := p.tree.size
  if token.isMark '{' then
    let q ← p.container? p.place .arrayData token
    let q ← q.leaf? id .openBrace token
    let q ← q.container? id .arrayItem token
    let nesting ← counted? (nesting + 1)
    return { q with nesting := nesting }.enter .initialization (id + 2)
  else if token.isMark '}' then
    let nesting ← counted? (nesting - 1)
    let q := { p with nesting := nesting }
    if 0 ≤ nesting then
      let data ← q.up? q.place
      let closed ← q.leaf? data .closeBrace token
      let outer ← closed.up? data
      return closed.enter .initialization outer
    else q.reject? token .unexpectedCloseBrace
  else
    let q := { p with nesting := nesting }
    if token.isMark ',' then
      if 0 < nesting then
        let data ← q.up? q.place
        let r ← q.container? data .arrayItem token
        return r.enter .initialization id
      else q.reject? token .unexpectedComma
    else if token.isMark ';' then
      if nesting = 0 then
        let enclosing ← q.up? q.place
        let r ← q.leaf? enclosing .sentenceEnd token
        return r.enter .idle enclosing
      else q.reject? token .unexpectedSentenceEnd
    else
      let r ← q.leaf? q.place .expressionToken token
      return r.enter .initialization q.place

/-- The parameters that the parse stands at, or climbs to. -/
def parameters? (p : Parser) : Except Trap NodeId := do
  p.tree.guardNode p.place
  if p.tree.kind? p.place = some .datatype then p.up? p.place else return p.place

def onParameters? (p : Parser) (token : Token) : Except Trap Parser := do
  let slotOpen := p.tree.kind? p.place = some .datatype
  let parameters ← p.parameters?
  if token.isMark ')' then
    let q ← p.leaf? parameters .closeParen token
    let enclosing ← q.up? parameters
    return q.enter .functionDeclared enclosing
  else if token.isMark ',' then
    let id := p.tree.size
    let q ← p.leaf? parameters .parameterSeparator token
    let q ← q.container? parameters .datatype token
    return q.enter .parameters (id + 1)
  else if slotOpen then p.digestAt? p.place token .parameters .parameters
  else p.reject? token .unexpectedTokenAfterParameter

def onFunctionDeclared? (p : Parser) (token : Token) : Except Trap Parser :=
  p.refuse? token <| .unsupported <|
    if token.isMark '{' then .functionBody
    else if token.isMark ';' then .functionForwardDeclaration
    else .functionDeclarationSuffix

def handle? (p : Parser) (token : Token) : Except Trap Parser :=
  match p.state with
  | .idle => p.onIdle? token
  | .preprocessor => p.onPreprocessor? token
  | .includeName => p.endDirective? .includeName token
  | .defineName => p.onDefineName? token
  | .defineBody => p.endDirective? .defineBody token
  | .pragma => p.endDirective? .pragmaText token
  | .datatype => p.digestAt? p.place token .datatype .identifier
  | .identifier => p.onIdentifier? token
  | .arrayDefinition => p.onArrayDefinition? token
  | .initialization => p.onInitialization? token
  | .parameters => p.onParameters? token
  | .functionDeclared => p.onFunctionDeclared? token
  | .stopped _ => .ok p

/-- Hands a token to the guarded parser. -/
def feed? (p : Parser) (token : Token) : Except Trap Parser :=
  if p.state.failure?.isSome then .ok p
  else
    match token.kind with
    | .blockComment => p.leaf? p.place .blockComment token
    | .lineComment => p.leaf? p.place .lineComment token
    | .invalid => p.reject? token .invalidToken
    | _ => p.handle? token

/-- Hands tokens to the guarded parser, one after another. -/
def feedAll? (p : Parser) (tokens : List Token) : Except Trap Parser :=
  tokens.foldlM feed? p

/-- A guarded parse that has met no token of its unit; the root of its
tree has to be a unit. -/
def ofUnit? (kind : UnitKind) (filename : String) : Except Trap Parser := do
  let tree ← (Tree.ofRoot? kind.rootKind filename).mapError .fault
  return { ofUnit kind filename with tree := tree }

/-! ### No guard is met -/

section Steps

variable {p : Parser} {token : Token} {id parent : NodeId} {kind : NodeKind}

/-- A leaf is added without a panic below a node that is there. -/
theorem leaf?_eq (h : parent < p.tree.size) (kind : NodeKind) :
    p.leaf? parent kind token = .ok (p.leaf parent kind token) := by
  rw [leaf?, Tree.guardedAdd_eq h]
  rfl

/-- A container is added without a panic below a node that is there. -/
theorem container?_eq (h : parent < p.tree.size) (kind : NodeKind) :
    p.container? parent kind token = .ok (p.container parent kind token) := by
  rw [container?, Tree.guardedAdd_eq h]
  rfl

/-- A climb succeeds from a node that has a parent. -/
theorem up?_eq (h : p.tree.Holds id kind parent) : p.up? id = .ok (p.up id) := by
  rw [up?, Tree.guardedParent_eq h, up, h.parentOrSelf]

/-- A failure is recorded without a panic at a place that is there. -/
theorem refuse?_eq (h : p.place < p.tree.size) (failure : Failure) :
    p.refuse? token failure = .ok (p.refuse token failure) := by
  rw [refuse?, Tree.guardedFailure_eq h]
  rfl

/-- A token is rejected without a panic at a place that is there. -/
theorem reject?_eq (h : p.place < p.tree.size) (error : GrammarError) :
    p.reject? token error = .ok (p.reject token error) :=
  refuse?_eq h _

/-- A specifier is digested without a panic into a datatype that has a parent.
-/
theorem digestAt?_eq (hp : p.tree.Regular) (h : p.tree.Holds id .datatype parent)
    (within behind : State) :
    p.digestAt? id token within behind = .ok (p.digestAt id token within behind) := by
  have hgrows := (digest_regular_grows hp (h.stem rfl) p.flags token).2
  rw [digestAt?, digest?_eq hp h, ok_bind, digestAt]
  -- Whatever the token became, the datatype is still below its parent.
  generalize digest p.tree id p.flags token = d at hgrows ⊢
  have hup := up?_eq (p := { p with tree := d.tree, flags := d.flags }) (h.mono hgrows)
  cases d.outcome with
  | classified _ => rfl
  | declared _ =>
      simp only [hup]
      rfl
  | refused _ failure => rfl

/-- A container is there once it is added. -/
theorem lt_size_container (p : Parser) (parent : NodeId) (kind : NodeKind) (token : Token) :
    p.tree.size < (p.container parent kind token).tree.size := by
  rw [container, Tree.size_addContainer]
  exact Nat.lt_succ_self _

/-- A node is still there when a leaf is added. -/
theorem lt_size_leaf (h : id < p.tree.size) : id < (p.leaf parent kind token).tree.size := by
  rw [leaf, Tree.size_addLeaf]
  exact Nat.lt_succ_of_lt h

end Steps

/-! ### The handlers -/

/-- The braces that are open are not more than the tokens so far. The
count is negative behind a closing brace without a partner. -/
structure Counted (tokens : Nat) (p : Parser) : Prop where
  lower : -1 ≤ p.nesting
  upper : p.nesting ≤ tokens

section Handlers

variable {p : Parser} {token : Token}

/-- An idle parser does not panic. -/
theorem Sound.onIdle?_eq (hp : p.Sound) : p.onIdle? token = .ok (p.onIdle token) := by
  have hlt := hp.stem.lt_size
  refine ite_eq_ok (fun _ => ?_) fun _ => ite_eq_ok (fun _ => ?_) fun _ => reject?_eq hlt _
  · rw [container?_eq hlt]
    rfl
  · have hnew := Tree.holds_addContainer hlt .datatype token
    rw [container?_eq hlt, ok_bind, digestAt?_eq (hp.regular.add hp.stem) hnew]

/-- The word of a directive is read without a panic. -/
theorem Sound.onPreprocessor?_eq (hp : p.Sound) :
    p.onPreprocessor? token = .ok (p.onPreprocessor token) := by
  have hlt := hp.stem.lt_size
  refine ite_eq_ok (fun _ => ?_) fun _ => ite_eq_ok (fun _ => ?_) fun _ =>
    ite_eq_ok (fun _ => ?_) fun _ => reject?_eq hlt _
  · rw [container?_eq hlt]
    rfl
  · rw [container?_eq hlt]
    rfl
  · rw [container?_eq hlt]
    rfl

/-- The two climbs out of a directive do not go above the root. -/
theorem Sound.endDirective?_eq (hp : p.Sound) {opened : NodeKind}
    (hplace : p.tree.InDirective p.place opened) (kind : NodeKind) :
    p.endDirective? kind token = .ok (p.endDirective kind token) := by
  have hlt := hp.stem.lt_size
  obtain ⟨directive, hplace, hdirective⟩ := hplace
  have hgrows : p.tree.Grows (p.leaf p.place kind token).tree := Tree.grows_addLeaf hlt kind token
  -- The first climb leads to the directive, from which the second one begins.
  have hup : (p.leaf p.place kind token).up p.place = directive :=
    (hplace.mono hgrows).parentOrSelf
  rw [endDirective?, leaf?_eq hlt, ok_bind, up?_eq (hplace.mono hgrows), ok_bind, hup,
    up?_eq (hdirective.mono hgrows), ← hup]
  rfl

/-- The name of a definition is read without a panic. -/
theorem Sound.onDefineName?_eq (hp : p.Sound) :
    p.onDefineName? token = .ok (p.onDefineName token) := by
  rw [onDefineName?, leaf?_eq hp.stem.lt_size]
  rfl

/-- What follows a declared name is read without a panic. -/
theorem Sound.onIdentifier?_eq (hp : p.Sound) :
    p.onIdentifier? token = .ok (p.onIdentifier token) := by
  have hlt := hp.stem.lt_size
  have hnew := fun kind => lt_size_container p p.place kind token
  refine ite_eq_ok (fun _ => ?_) fun _ => ite_eq_ok (fun _ => ?_) fun _ =>
    ite_eq_ok (fun _ => ?_) fun _ => ite_eq_ok (fun _ => ?_) fun _ =>
      ite_eq_ok (fun _ => refuse?_eq hlt _) fun _ => reject?_eq hlt _
  · rw [leaf?_eq hlt]
    rfl
  · rw [container?_eq hlt, ok_bind, leaf?_eq (hnew _)]
    rfl
  · rw [container?_eq hlt, ok_bind, leaf?_eq (hnew _), ok_bind,
      container?_eq (lt_size_leaf (hnew _))]
    rfl
  · rw [container?_eq hlt]
    rfl

/-- The content of a length is read without a panic. -/
theorem Sound.onArrayDefinition?_eq (hp : p.Sound) (hs : p.state = .arrayDefinition) :
    p.onArrayDefinition? token = .ok (p.onArrayDefinition token) := by
  have hplace : p.tree.Holds p.place .arrayDefinition Tree.root := hp.seats_of hs
  have hlt := hplace.lt_size
  -- The closing bracket climbs out of the array; an item is one leaf.
  refine ite_eq_ok (fun _ => ?_) fun _ => ite_eq_ok (fun _ => reject?_eq hlt _) fun _ => ?_
  · have hup := hplace.mono (Tree.grows_addLeaf hlt .closeBracket token)
    rw [leaf?_eq hlt, ok_bind, up?_eq hup]
    rfl
  · rw [leaf?_eq hlt]
    rfl

/-- The content of an initializer is read without a panic, and its count of
braces stays within 32 bits. -/
theorem Sound.onInitialization?_eq (hp : p.Sound) (hs : p.state = .initialization) {tokens : Nat}
    (hcount : p.Counted tokens) (hlimit : tokens + 1 < countLimit) :
    p.onInitialization? token = .ok (p.onInitialization token) := by
  -- Each climb is from a place whose depth is the count, and so is the subtraction.
  obtain ⟨depth, hdepth, hplace, hnesting⟩ := hp.exists_depth hs
  have hlt := hp.stem.lt_size
  have hupper := hcount.upper
  have hnew := fun kind => lt_size_container p p.place kind token
  obtain ⟨_, _, hparent⟩ := hplace.exists_parent
  rw [onInitialization?, Tree.guardNode_eq hlt, ok_bind]
  unfold Parser.onInitialization
  dsimp only
  rw [hnesting]
  refine ite_eq_ok (fun _ => ?_) fun _ => ite_eq_ok (fun _ => ?_) fun _ =>
    ite_eq_ok (fun _ => ?_) fun _ => ite_eq_ok (fun _ => ?_) fun _ => ?_
  · -- The depth is at most the number of tokens so far, and this one adds one to both.
    rw [container?_eq hlt, ok_bind, leaf?_eq (hnew _), ok_bind,
      container?_eq (lt_size_leaf (hnew _)), ok_bind, counted?_eq (by omega) (by omega)]
    rfl
  · -- The place is an item, so that the braces around it can be closed.
    let q : Parser := { p with nesting := (depth : Int) - 1 }
    rw [counted?_eq (by omega) (by omega), ok_bind]
    refine ite_eq_ok (fun hpos => ?_) fun _ => reject?_eq (p := q) hlt _
    obtain ⟨data, outer, hitem, hdata⟩ := hplace.exists_data (by omega)
    have hup : q.up p.place = data := hitem.parentOrSelf
    have hdata' := hdata.mono (Tree.grows_addLeaf hdata.lt_size .closeBrace token)
    rw [up?_eq (p := q) hitem, ok_bind, hup, leaf?_eq (p := q) hdata.lt_size, ok_bind,
      up?_eq hdata']
    rfl
  · let q : Parser := { p with nesting := (depth : Int) }
    refine ite_eq_ok (fun hpos => ?_) fun _ => reject?_eq (p := q) hlt _
    obtain ⟨data, outer, hitem, hdata⟩ := hplace.exists_data (by omega)
    have hup : q.up p.place = data := hitem.parentOrSelf
    rw [up?_eq (p := q) hitem, ok_bind, hup, container?_eq (p := q) hdata.lt_size]
    rfl
  · let q : Parser := { p with nesting := (depth : Int) }
    refine ite_eq_ok (fun _ => ?_) fun _ => reject?_eq (p := q) hlt _
    have hup : q.up p.place < q.tree.size := (hp.regular.stem_parentOrSelf hp.stem).lt_size
    rw [up?_eq (p := q) hparent, ok_bind, leaf?_eq (p := q) hup]
    rfl
  · rw [leaf?_eq (p := { p with nesting := (depth : Int) }) hlt]
    rfl

/-- The climb to the list of parameters succeeds. -/
theorem Sound.parameters?_eq (hp : p.Sound) (hs : p.state = .parameters) :
    p.parameters? =
      .ok (if p.tree.kind? p.place = some .datatype then p.up p.place else p.place) := by
  rw [parameters?, Tree.guardNode_eq hp.stem.lt_size]
  refine ite_eq_ok (fun hopen => ?_) fun _ => rfl
  exact up?_eq (hp.holds_slot hs hopen)

/-- The content of parameters is read without a panic. -/
theorem Sound.onParameters?_eq (hp : p.Sound) (hs : p.state = .parameters) :
    p.onParameters? token = .ok (p.onParameters token) := by
  have hparams := hp.holds_parameters hs
  rw [onParameters?, hp.parameters?_eq hs]
  unfold Parser.onParameters
  dsimp only
  rw [ok_bind]
  -- From here on only the list of parameters matters, not how it was reached.
  generalize (if p.tree.kind? p.place = some .datatype then p.up p.place else p.place) =
    parameters at hparams ⊢
  have hlt := hparams.lt_size
  refine ite_eq_ok (fun _ => ?_) fun _ => ite_eq_ok (fun _ => ?_) fun _ =>
    ite_eq_ok (fun hopen => ?_) fun _ => reject?_eq hp.stem.lt_size _
  · have hup := hparams.mono (Tree.grows_addLeaf hlt .closeParen token)
    rw [leaf?_eq hlt, ok_bind, up?_eq hup]
    rfl
  · rw [leaf?_eq hlt, ok_bind, container?_eq (lt_size_leaf hlt)]
    rfl
  · exact digestAt?_eq hp.regular (hp.holds_slot hs hopen) _ _

/-- A token behind the parameters is refused without a panic. -/
theorem Sound.onFunctionDeclared?_eq (hp : p.Sound) :
    p.onFunctionDeclared? token = .ok (p.onFunctionDeclared token) :=
  refuse?_eq hp.stem.lt_size _

/-- In every state the token is handled without a panic. -/
theorem Sound.handle?_eq (hp : p.Sound) {tokens : Nat} (hcount : p.Counted tokens)
    (hlimit : tokens + 1 < countLimit) : p.handle? token = .ok (p.handle token) := by
  unfold handle? Parser.handle
  cases hs : p.state with
  | idle => exact hp.onIdle?_eq
  | preprocessor => exact hp.onPreprocessor?_eq
  | includeName => exact hp.endDirective?_eq (hp.seats_of hs) _
  | defineName => exact hp.onDefineName?_eq
  | defineBody => exact hp.endDirective?_eq (hp.seats_of hs) _
  | pragma => exact hp.endDirective?_eq (hp.seats_of hs) _
  | datatype => exact digestAt?_eq hp.regular (hp.seats_of hs) _ _
  | identifier => exact hp.onIdentifier?_eq
  | arrayDefinition => exact hp.onArrayDefinition?_eq hs
  | initialization => exact hp.onInitialization?_eq hs hcount hlimit
  | parameters => exact hp.onParameters?_eq hs
  | functionDeclared => exact hp.onFunctionDeclared?_eq
  | stopped failure => rfl

/-- The guarded parser does with a token what the parser does. -/
theorem Sound.feed?_eq (hp : p.Sound) {tokens : Nat} (hcount : p.Counted tokens)
    (hlimit : tokens + 1 < countLimit) (token : Token) :
    p.feed? token = .ok (p.feed token) := by
  have hlt := hp.stem.lt_size
  refine ite_eq_ok (fun _ => rfl) fun _ => ?_
  cases token.kind with
  | blockComment => exact leaf?_eq hlt _
  | lineComment => exact leaf?_eq hlt _
  | invalid => exact reject?_eq hlt _
  | _ => exact hp.handle?_eq hcount hlimit

end Handlers

/-! ### The count of open braces -/

section Count

variable {p q : Parser} {token : Token} {count : Nat}

/-- A new parser has counted no brace. -/
theorem counted_ofUnit (kind : UnitKind) (filename : String) :
    (ofUnit kind filename).Counted 0 where
  lower := by
    show (-1 : Int) ≤ 0
    decide
  upper := Int.le_refl 0

/-- A token that opens no brace leaves the count in its bounds. -/
theorem Counted.of_eq (h : p.Counted count) (hq : q.nesting = p.nesting ∨ q.nesting = 0) :
    q.Counted (count + 1) := by
  have hlower := h.lower
  have hupper := h.upper
  rcases hq with hq | hq
  · exact ⟨by omega, by omega⟩
  · exact ⟨by omega, by omega⟩

/-- A specifier leaves the count of braces as it is. -/
theorem nesting_digestAt (p : Parser) (datatype : NodeId) (token : Token) (within behind : State) :
    (p.digestAt datatype token within behind).nesting = p.nesting := by
  unfold digestAt
  dsimp only
  split <;> rfl

/-- An idle parser leaves the count as it is. -/
theorem nesting_onIdle (p : Parser) (token : Token) : (p.onIdle token).nesting = p.nesting := by
  unfold onIdle
  dsimp only
  split
  · rfl
  split
  · exact nesting_digestAt _ _ _ _ _
  · rfl

/-- The word of a directive leaves the count as it is. -/
theorem nesting_onPreprocessor (p : Parser) (token : Token) :
    (p.onPreprocessor token).nesting = p.nesting := by
  unfold onPreprocessor
  dsimp only
  repeat' split
  all_goals rfl

/-- An initializer begins with no brace open. -/
theorem nesting_onIdentifier (p : Parser) (token : Token) :
    (p.onIdentifier token).nesting = p.nesting ∨ (p.onIdentifier token).nesting = 0 := by
  unfold onIdentifier
  dsimp only
  repeat' split
  all_goals first | exact Or.inl rfl | exact Or.inr rfl

/-- The content of a length leaves the count as it is. -/
theorem nesting_onArrayDefinition (p : Parser) (token : Token) :
    (p.onArrayDefinition token).nesting = p.nesting := by
  unfold onArrayDefinition
  dsimp only
  repeat' split
  all_goals rfl

/-- The content of parameters leaves the count as it is. -/
theorem nesting_onParameters (p : Parser) (token : Token) :
    (p.onParameters token).nesting = p.nesting := by
  unfold onParameters
  dsimp only
  split
  · rfl
  split
  · rfl
  split
  · exact nesting_digestAt _ _ _ _ _
  · rfl

/-- In an initializer the count changes by one at most. -/
theorem Sound.counted_onInitialization (hp : p.Sound) (hs : p.state = .initialization)
    (h : p.Counted count) : (p.onInitialization token).Counted (count + 1) := by
  obtain ⟨depth, hdepth, -, hnesting⟩ := hp.exists_depth hs
  have hupper := h.upper
  -- What the count may become; the rest of the parse does not matter here.
  have hopened : ∀ q : Parser, q.nesting = (depth : Int) + 1 → q.Counted (count + 1) :=
    fun q hq => ⟨by omega, by omega⟩
  have hclosed : ∀ q : Parser, q.nesting = (depth : Int) - 1 → q.Counted (count + 1) :=
    fun q hq => ⟨by omega, by omega⟩
  have hkept : ∀ q : Parser, q.nesting = (depth : Int) → q.Counted (count + 1) :=
    fun q hq => ⟨by omega, by omega⟩
  unfold Parser.onInitialization
  dsimp only
  rw [hnesting]
  split
  · exact hopened _ rfl
  split
  · split
    · exact hclosed _ rfl
    · exact hclosed _ rfl
  split
  · split
    · exact hkept _ rfl
    · exact hkept _ rfl
  split
  · split
    · exact hkept _ rfl
    · exact hkept _ rfl
  · exact hkept _ rfl

/-- In every state the count changes by one at most. -/
theorem Sound.counted_handle (hp : p.Sound) (h : p.Counted count) :
    (p.handle token).Counted (count + 1) := by
  -- Behind a declared name the count may begin anew, and only an initializer changes it
  -- by one.
  unfold Parser.handle
  split
  · exact h.of_eq (Or.inl (nesting_onIdle p token))
  · exact h.of_eq (Or.inl (nesting_onPreprocessor p token))
  · exact h.of_eq (Or.inl rfl)
  · exact h.of_eq (Or.inl rfl)
  · exact h.of_eq (Or.inl rfl)
  · exact h.of_eq (Or.inl rfl)
  · exact h.of_eq (Or.inl (nesting_digestAt _ _ _ _ _))
  · exact h.of_eq (nesting_onIdentifier p token)
  · exact h.of_eq (Or.inl (nesting_onArrayDefinition p token))
  · next hs => exact hp.counted_onInitialization hs h
  · exact h.of_eq (Or.inl (nesting_onParameters p token))
  · exact h.of_eq (Or.inl rfl)
  · exact h.of_eq (Or.inl rfl)

/-- A token opens one brace at most. -/
theorem Sound.counted_feed (hp : p.Sound) (h : p.Counted count) (token : Token) :
    (p.feed token).Counted (count + 1) := by
  unfold Parser.feed
  split
  · exact h.of_eq (Or.inl rfl)
  split
  · exact h.of_eq (Or.inl rfl)
  · exact h.of_eq (Or.inl rfl)
  · exact h.of_eq (Or.inl rfl)
  · exact hp.counted_handle h

/-- Over a run of tokens the count stays between minus one and their number.
-/
theorem Sound.counted_feedAll (hp : p.Sound) (h : p.Counted count) (tokens : List Token) :
    (p.feedAll tokens).Counted (count + tokens.length) := by
  induction tokens generalizing p count with
  | nil => exact h
  | cons token tokens ih =>
      have hrest := ih (hp.feed token) (hp.counted_feed h token)
      rwa [Nat.add_right_comm, Nat.add_assoc] at hrest

end Count

/-! ### All tokens -/

/-- A run of fewer tokens than the count can hold is fed without a panic. -/
theorem Sound.feedAll?_eq {p : Parser} (hp : p.Sound) {count : Nat} (hcount : p.Counted count)
    (tokens : List Token) (hlimit : count + tokens.length < countLimit) :
    p.feedAll? tokens = .ok (p.feedAll tokens) := by
  induction tokens generalizing p count with
  | nil => rfl
  | cons token tokens ih =>
      -- The limit pays for one token with each step.
      rw [List.length_cons] at hlimit
      rw [feedAll?, List.foldlM_cons, hp.feed?_eq hcount (by omega) token]
      exact ih (hp.feed token) (hp.counted_feed hcount token) (by omega)

/-- Whatever tokens a new parse is handed, it meets none of its guards,
and behind each of them the place fits the state. -/
theorem guarded_feedAll (kind : UnitKind) (filename : String) (tokens : List Token)
    (h : tokens.length < countLimit) :
    (ofUnit? kind filename >>= fun p => p.feedAll? tokens) =
        .ok ((ofUnit kind filename).feedAll tokens) ∧
      ∀ before, before <+: tokens →
        let p := (ofUnit kind filename).feedAll before
        p.tree.Seats p.nesting p.place p.state ∧ -1 ≤ p.nesting ∧ p.nesting ≤ before.length := by
  have hsound := sound_ofUnit kind filename
  have hcount := counted_ofUnit kind filename
  have hunit : ofUnit? kind filename = .ok (ofUnit kind filename) := by
    rw [ofUnit?, Tree.ofRoot?, if_pos kind.isUnit_rootKind]
    rfl
  refine ⟨?_, fun before _ => ?_⟩
  · rw [hunit]
    exact hsound.feedAll?_eq hcount tokens (by rwa [Nat.zero_add])
  -- The seats and the bounds hold behind every list of tokens, prefix or not.
  · have hbounds := hsound.counted_feedAll hcount before
    rw [Nat.zero_add] at hbounds
    exact ⟨(sound_feedAll hsound before).seats, hbounds.lower, hbounds.upper⟩

/-- A closing brace without a partner takes the count below zero, and is
refused. -/
theorem guarded_feedAll_unopened :
    let word := fun text => Token.mk .identifier ⟨1, 1⟩ text
    let mark := fun c => Token.mk .singleChar ⟨1, 1⟩ (String.singleton c)
    let tokens := [word "size", word "n", mark '=', mark '{', mark '}', mark '}']
    let p := (ofUnit .source "unit.c").feedAll tokens
    tokens.length < countLimit ∧ p.nesting = -1 ∧
      (ofUnit? .source "unit.c" >>= fun p => p.feedAll? tokens) = .ok p ∧
      p.tree.Seats p.nesting p.place p.state := by
  intro word mark tokens p
  have hlength : tokens.length < countLimit := by decide
  obtain ⟨hguarded, hbehind⟩ := guarded_feedAll .source "unit.c" tokens hlength
  exact ⟨hlength, by decide +kernel, hguarded, (hbehind tokens List.prefix_rfl).1⟩

end Parser

end CDeclarations
