import CDeclarations.Parser.Run
import CDeclarations.Proofs.Grammar.Language

/-!
# `CDeclarations.Proofs.Parser.Recognition`: a parse accepts its grammar

A parse ends between declarations exactly when the tokens it is handed
are in the language of the grammar. `Parser.residual` is the language
of what may still come: it depends on the state, and inside an
initializer on the count of open braces, inside a specifier sequence on
its categories.

* `Sound.residual_handle`: a token may come first exactly when the rest
  may follow in the parse that the token leaves, one lemma for each
  state's handler.
* `Sound.completes_feed`: the same for any token, where comments are
  skipped and invalid tokens stop the parse.
* `ends_idle_iff_accepts`: the whole parse, for any list of tokens and
  for the tokens of any text.
-/

set_option autoImplicit false

namespace CDeclarations

/-- A token is one mark at most. -/
theorem Token.isMark_eq_false {token : Token} {c d : Char} (h : token.isMark c = true)
    (hne : c ≠ d) : token.isMark d = false := by
  rw [Token.isMark, Bool.and_eq_true, decide_eq_true_eq] at h
  rw [Token.isMark, h.2, Bool.and_eq_false_iff, decide_eq_false_iff_not]
  refine Or.inr fun heq => hne ?_
  have := congrArg String.toList heq
  simpa using this

namespace Parser

open Grammar

/-- The tokens that may still come in a parse until its unit is
complete, comments left out. -/
def residual (p : Parser) : Language Token :=
  match p.state with
  | .idle => Grammar.unit
  | .preprocessor => directiveBody * Grammar.unit
  | .includeName | .defineBody | .pragma => anyToken * Grammar.unit
  | .defineName => anyToken * (anyToken * Grammar.unit)
  | .datatype => closing (p.flags.forSequence p.tree p.place) * afterName
  | .identifier => afterName
  | .arrayDefinition => inLength
  | .initialization => inInitializer p.nesting.toNat
  | .parameters | .functionDeclared | .stopped _ => 0

/-- The tokens complete the unit of the parse: none is invalid, and
without the comments they may still come. -/
def Completes (p : Parser) (tokens : List Token) : Prop :=
  (∀ token ∈ tokens, token.kind ≠ .invalid) ∧
    tokens.filter (fun token => !token.kind.isComment) ∈ p.residual

variable {p : Parser} {token : Token} {tokens : List Token}

/-- Nothing is accepted behind a refusal. -/
theorem notMem_residual_refuse (failure : Failure) :
    tokens ∉ (p.refuse token failure).residual :=
  Language.notMem_zero tokens

/-- A refusal is the handler's side of a token that the grammar does
not know. -/
theorem false_iff_mem_residual_refuse (failure : Failure) :
    False ↔ tokens ∈ (p.refuse token failure).residual :=
  (iff_false_intro (notMem_residual_refuse failure)).symm

/-! ### The handlers -/

/-- A token is digested as the categories of the sequence judge it. -/
theorem residual_digestAt (hp : p.tree.Regular) {datatype : NodeId} (hd : p.tree.Stem datatype) :
    token :: tokens ∈ closing (p.flags.forSequence p.tree datatype) * afterName ↔
      tokens ∈ (p.digestAt datatype token .datatype .identifier).residual := by
  have hreg := (digest_regular_grows hp hd p.flags token).1
  -- Behind a classified token the datatype has begun, so its categories stay.
  have hwithin : ∀ id, (digest p.tree datatype p.flags token).outcome = .classified id →
      (digest p.tree datatype p.flags token).flags.forSequence
        (digest p.tree datatype p.flags token).tree datatype
        = (digest p.tree datatype p.flags token).flags :=
    fun id hid => Flags.forSequence_of_begun hreg.toLinked (begun_digest hp hd hid) _
  rw [cons_mem_closing_mul]
  cases hj : (p.flags.forSequence p.tree datatype).judge token with
  | part kind after =>
      simp only [digest, hj] at hwithin
      simp only [digestAt, digest, hj, enter, residual, hwithin _ rfl]
  | composed word after =>
      simp only [digest, hj] at hwithin
      simp only [digestAt, digest, hj, enter, residual, hwithin _ rfl]
  | tag after =>
      simp only [digest, hj] at hwithin
      simp only [digestAt, digest, hj, enter, residual, hwithin _ rfl]
  | name => simp only [digestAt, digest, hj, enter, residual]
  | refused failure =>
      simp only [digestAt, digest, hj, enter, residual]
      exact (iff_false_intro (Language.notMem_zero _)).symm

/-- In front of a declaration the unit leaves what its first token opens. -/
theorem Sound.residual_onIdle (hp : p.Sound) (hs : p.state = .idle) :
    token :: tokens ∈ p.residual ↔ tokens ∈ (p.onIdle token).residual := by
  have hstem := hp.stem
  have hreg : (p.container p.place .datatype token).tree.Regular := hp.regular.add hstem
  have hnew : (p.container p.place .datatype token).tree.Stem p.tree.size :=
    (Tree.holds_addContainer hstem.lt_size .datatype token).stem rfl
  have hempty : p.flags.forSequence (p.container p.place .datatype token).tree p.tree.size = ∅ :=
    Flags.forSequence_addContainer hstem.lt_size p.flags .datatype token
  rw [residual, hs, cons_mem_unit_iff, cons_mem_specifiers_mul, Parser.onIdle]
  split
  · next hmark =>
    -- A mark begins no sequence, and an identifier no directive.
    have hkind : token.kind ≠ .identifier := by
      intro h
      simp [Token.isMark, h] at hmark
    simp only [hmark, hkind, true_and, false_and, or_false]
    rfl
  split
  · next hmark hkind =>
    rw [← residual_digestAt hreg hnew]
    show _ ↔ _ ∈ closing (p.flags.forSequence _ _) * afterName
    rw [hempty]
    simp [hmark, hkind]
  · next hmark hkind =>
    simp only [hmark, hkind, Bool.false_eq_true, false_and, or_false]
    exact false_iff_mem_residual_refuse _

/-- Each of the three words leaves the rest of its directive, and no other
token leaves anything. -/
theorem residual_onPreprocessor (hs : p.state = .preprocessor) :
    token :: tokens ∈ p.residual ↔ tokens ∈ (p.onPreprocessor token).residual := by
  -- A token is one word at most.
  have hword : ∀ w v, token.isWord w = true → w ≠ v → token.isWord v = false := by
    intro w v hw hne
    simp only [Token.isWord, Bool.and_eq_true, decide_eq_true_eq] at hw
    simp [Token.isWord, hw.2, hne]
  rw [residual, hs, cons_mem_directiveBody_mul, Parser.onPreprocessor]
  split
  · next h =>
    have hdefine := hword _ "define" h (by decide)
    have hpragma := hword _ "pragma" h (by decide)
    simp only [h, hdefine, hpragma, Bool.false_eq_true, true_and, false_and, or_false]
    rfl
  split
  · next hinclude h =>
    have hpragma := hword _ "pragma" h (by decide)
    simp only [h, hinclude, hpragma, Bool.false_eq_true, true_and, false_and, or_false, false_or]
    rfl
  split
  · next hinclude hdefine h =>
    simp only [h, hinclude, hdefine, Bool.false_eq_true, true_and, false_and, false_or]
    rfl
  · next hinclude hdefine hpragma =>
    simp only [hinclude, hdefine, hpragma, Bool.false_eq_true, false_and, or_false]
    exact false_iff_mem_residual_refuse _

/-- Behind a declared name the next mark says what is left of the declaration.
-/
theorem residual_onIdentifier (hs : p.state = .identifier) :
    token :: tokens ∈ p.residual ↔ tokens ∈ (p.onIdentifier token).residual := by
  rw [residual, hs, cons_mem_afterName_iff, Parser.onIdentifier]
  dsimp only
  split
  · next h =>
    have heq : token.isMark '=' = false := Token.isMark_eq_false h (by decide)
    have hbracket : token.isMark '[' = false := Token.isMark_eq_false h (by decide)
    simp only [h, heq, hbracket, Bool.false_eq_true, true_and, false_and, or_false]
    rfl
  split
  · next hsemicolon h =>
    have heq : token.isMark '=' = false := Token.isMark_eq_false h (by decide)
    simp only [h, hsemicolon, heq, Bool.false_eq_true, true_and, false_and, false_or]
    rfl
  split
  · next hsemicolon hbracket h =>
    -- A function has no shape in the grammar.
    have heq : token.isMark '=' = false := Token.isMark_eq_false h (by decide)
    simp only [hsemicolon, hbracket, heq, Bool.false_eq_true, false_and, or_false]
    exact (iff_false_intro (Language.notMem_zero _)).symm
  split
  · next hsemicolon hbracket hparen h =>
    simp only [h, hsemicolon, hbracket, Bool.false_eq_true, true_and, false_and, or_false, false_or]
    rfl
  -- Any other token is refused, whichever failure it is refused with.
  · next hsemicolon hbracket hparen heq =>
    simp only [hsemicolon, hbracket, heq, Bool.false_eq_true, false_and, or_false]
    split
    · exact false_iff_mem_residual_refuse _
    · exact false_iff_mem_residual_refuse _

/-- In a length a closing bracket leads back to the name, and an opening one
is refused. -/
theorem residual_onArrayDefinition (hs : p.state = .arrayDefinition) :
    token :: tokens ∈ p.residual ↔ tokens ∈ (p.onArrayDefinition token).residual := by
  rw [residual, hs, cons_mem_inLength_iff, IsLengthToken, Parser.onArrayDefinition]
  dsimp only
  split
  · next h =>
    simp only [h, Bool.true_eq_false, and_false, true_and, false_and, or_false]
    rfl
  split
  · next hclose h =>
    simp only [h, hclose, Bool.true_eq_false, Bool.false_eq_true, false_and, or_false]
    exact false_iff_mem_residual_refuse _
  · next hclose hopen =>
    simp only [hclose, hopen, Bool.false_eq_true, and_self, true_and, false_and, false_or]
    rfl

/-! ### The handler of initializers

What may come behind each token, where `depth` braces are open. -/

section Initializer

variable {depth : Nat}
  (hdepth : (if p.tree.kind? p.place = some .arrayItem then p.nesting else 0) = depth)

include hdepth

/-- An opening brace is one brace more. -/
theorem residual_openBrace (h : token.isMark '{' = true) :
    (p.onInitialization token).residual = inInitializer (depth + 1) := by
  rw [Parser.onInitialization, hdepth]
  simp only [if_pos h]
  rfl

/-- A closing brace is one brace less, and out of place where none is
open. -/
theorem residual_closeBrace (h : token.isMark '}' = true) :
    (p.onInitialization token).residual =
      if depth = 0 then 0 else inInitializer (depth - 1) := by
  have hopen : token.isMark '{' = false := Token.isMark_eq_false h (by decide)
  rw [Parser.onInitialization, hdepth]
  simp only [hopen, Bool.false_eq_true, if_false, if_pos h]
  cases depth with
  | zero => rfl
  | succ inner =>
      rw [if_pos (by omega)]
      have hcount : ((↑(inner + 1) : Int) - 1).toNat = inner := by omega
      show inInitializer ((↑(inner + 1) : Int) - 1).toNat = inInitializer inner
      rw [hcount]

/-- A comma parts the items of braces, and is out of place where none
is open. -/
theorem residual_comma (h : token.isMark ',' = true) :
    (p.onInitialization token).residual = if depth = 0 then 0 else inInitializer depth := by
  have hopen : token.isMark '{' = false := Token.isMark_eq_false h (by decide)
  have hclose : token.isMark '}' = false := Token.isMark_eq_false h (by decide)
  rw [Parser.onInitialization, hdepth]
  simp only [hopen, hclose, Bool.false_eq_true, if_false, if_pos h]
  cases depth with
  | zero => rfl
  | succ inner =>
      rw [if_pos (by omega)]
      rfl

/-- A semicolon ends the declaration where no brace is open, and is out
of place in braces. -/
theorem residual_semicolon (h : token.isMark ';' = true) :
    (p.onInitialization token).residual = if depth = 0 then Grammar.unit else 0 := by
  have hopen : token.isMark '{' = false := Token.isMark_eq_false h (by decide)
  have hclose : token.isMark '}' = false := Token.isMark_eq_false h (by decide)
  have hcomma : token.isMark ',' = false := Token.isMark_eq_false h (by decide)
  rw [Parser.onInitialization, hdepth]
  simp only [hopen, hclose, hcomma, Bool.false_eq_true, if_false, if_pos h]
  cases depth with
  | zero => rfl
  | succ inner =>
      rw [if_neg (by omega)]
      rfl

/-- Any other token is part of the expression. -/
theorem residual_expressionToken (h : IsExpressionToken token) :
    (p.onInitialization token).residual = inInitializer depth := by
  obtain ⟨hopen, hclose, hcomma, hsemicolon⟩ := h
  rw [Parser.onInitialization, hdepth]
  simp only [hopen, hclose, hcomma, hsemicolon, Bool.false_eq_true, if_false]
  rfl

end Initializer

/-- The count of braces is the depth of the place, so that the tokens
that may come are those of the grammar at that depth. -/
theorem Sound.residual_onInitialization (hp : p.Sound) (hs : p.state = .initialization) :
    token :: tokens ∈ p.residual ↔ tokens ∈ (p.onInitialization token).residual := by
  obtain ⟨depth, hdepth, -, hcount⟩ := hp.exists_depth hs
  have hresidual : p.residual = inInitializer depth := by
    rw [residual, hs, hdepth]
    rfl
  have hclash : ∀ {c}, token.isMark c = true → ∀ d, c ≠ d → token.isMark d = false :=
    fun h _ hne => Token.isMark_eq_false h hne
  rw [hresidual]
  -- Each token is of one class, and the grammar has a summand for it or none.
  by_cases hopen : token.isMark '{' = true
  · have hclose := hclash hopen '}' (by decide)
    have hcomma := hclash hopen ',' (by decide)
    have hsemicolon := hclash hopen ';' (by decide)
    rw [residual_openBrace hcount hopen]
    cases depth with
    | zero => simp [cons_mem_inInitializer_zero_iff, IsExpressionToken, hopen, hsemicolon]
    | succ depth => simp [cons_mem_inInitializer_succ_iff, IsExpressionToken, hopen, hclose, hcomma]
  by_cases hclose : token.isMark '}' = true
  · have hcomma := hclash hclose ',' (by decide)
    have hsemicolon := hclash hclose ';' (by decide)
    rw [residual_closeBrace hcount hclose]
    cases depth with
    | zero => simp [cons_mem_inInitializer_zero_iff, IsExpressionToken, hopen, hclose, hsemicolon,
        Language.notMem_zero]
    | succ depth => simp [cons_mem_inInitializer_succ_iff, IsExpressionToken, hopen, hclose, hcomma]
  by_cases hcomma : token.isMark ',' = true
  · have hsemicolon := hclash hcomma ';' (by decide)
    rw [residual_comma hcount hcomma]
    cases depth with
    | zero => simp [cons_mem_inInitializer_zero_iff, IsExpressionToken, hopen, hcomma, hsemicolon,
        Language.notMem_zero]
    | succ depth => simp [cons_mem_inInitializer_succ_iff, IsExpressionToken, hopen, hclose, hcomma]
  by_cases hsemicolon : token.isMark ';' = true
  · rw [residual_semicolon hcount hsemicolon]
    cases depth with
    | zero => simp [cons_mem_inInitializer_zero_iff, IsExpressionToken, hopen, hsemicolon]
    | succ depth => simp [cons_mem_inInitializer_succ_iff, IsExpressionToken, hopen, hclose, hcomma,
        hsemicolon, Language.notMem_zero]
  rw [Bool.not_eq_true] at hopen hclose hcomma hsemicolon
  have hexpression : IsExpressionToken token := ⟨hopen, hclose, hcomma, hsemicolon⟩
  rw [residual_expressionToken hcount hexpression]
  cases depth with
  | zero => simp [cons_mem_inInitializer_zero_iff, hexpression, hopen, hsemicolon]
  | succ depth => simp [cons_mem_inInitializer_succ_iff, hexpression, hopen, hclose, hcomma]

/-- No token behind the opening parenthesis of a function leads back
between declarations. -/
theorem residual_onParameters : tokens ∉ (p.onParameters token).residual := by
  rw [Parser.onParameters]
  split
  · exact Language.notMem_zero _
  split
  · exact Language.notMem_zero _
  split
  · rw [digestAt]
    split <;> exact Language.notMem_zero _
  · exact notMem_residual_refuse _

/-! ### Any token -/

/-- A token that the grammar knows may come first exactly when the rest
may follow in the parse that the token leaves. -/
theorem Sound.residual_handle (hp : p.Sound) :
    token :: tokens ∈ p.residual ↔ tokens ∈ (p.handle token).residual := by
  have hseats := hp.seats
  -- State by state; behind parameters nothing is left, since no function is accepted.
  rw [Parser.handle]
  split
  · next hs => exact hp.residual_onIdle hs
  · next hs => exact residual_onPreprocessor hs
  · next hs => rw [residual, hs]; exact cons_mem_anyToken_mul
  · next hs => rw [residual, hs]; exact cons_mem_anyToken_mul
  · next hs => rw [residual, hs]; exact cons_mem_anyToken_mul
  · next hs => rw [residual, hs]; exact cons_mem_anyToken_mul
  · next hs => rw [residual, hs]; exact residual_digestAt hp.regular hp.stem
  · next hs => exact residual_onIdentifier hs
  · next hs => exact residual_onArrayDefinition hs
  · next hs => exact hp.residual_onInitialization hs
  · next hs =>
    rw [residual, hs]
    exact iff_of_false (Language.notMem_zero _) residual_onParameters
  · next hs =>
    rw [residual, hs]
    exact iff_of_false (Language.notMem_zero _) (notMem_residual_refuse _)
  · next failure hs =>
    rw [residual, hs]
    exact iff_of_false (Language.notMem_zero _) (Language.notMem_zero _)

/-- A comment changes nothing in what may still come. -/
theorem Sound.residual_comment (hp : p.Sound) {kind : NodeKind} (hk : kind.isComment = true) :
    (p.leaf p.place kind token).residual = p.residual := by
  simp only [residual, leaf,
    Flags.forSequence_addLeaf_comment hp.regular.toLinked hp.stem.lt_size hk]

/-- Nothing is left to come exactly between declarations. -/
theorem nil_mem_residual_iff : [] ∈ p.residual ↔ p.state = .idle := by
  rw [residual]
  cases p.state with
  | idle => exact iff_of_true nil_mem_unit rfl
  | preprocessor => exact iff_of_false (fun h => nil_notMem_directiveBody (nil_mem_mul.1 h).1) nofun
  | includeName | defineName | defineBody | pragma =>
      exact iff_of_false (fun h => nil_notMem_single (nil_mem_mul.1 h).1) nofun
  | datatype => exact iff_of_false (fun h => nil_notMem_closing (nil_mem_mul.1 h).1) nofun
  | identifier => exact iff_of_false nil_notMem_afterName nofun
  | arrayDefinition => exact iff_of_false nil_notMem_inLength nofun
  | initialization => exact iff_of_false (nil_notMem_inInitializer _) nofun
  | parameters | functionDeclared | stopped failure =>
      exact iff_of_false (Language.notMem_zero _) nofun

/-- The tokens complete a unit exactly when all but the first complete
it behind the first. -/
theorem Sound.completes_feed (hp : p.Sound) :
    p.Completes (token :: tokens) ↔ (p.feed token).Completes tokens := by
  rw [Completes, Completes, List.forall_mem_cons, and_assoc, Parser.feed]
  split
  · next hstopped =>
    -- A stopped parse completes nothing, whatever the token is.
    obtain ⟨failure, hs⟩ : ∃ failure, p.state = .stopped failure := by
      cases hs : p.state with
      | stopped failure => exact ⟨failure, rfl⟩
      | _ => simp [hs, State.failure?] at hstopped
    have hnone : ∀ rest, rest ∉ p.residual := by
      intro rest
      rw [residual, hs]
      exact Language.notMem_zero rest
    simp [hnone]
  split
  -- A comment is left out of the tokens, and changes nothing in the parse.
  · next hkind =>
    rw [hp.residual_comment rfl]
    simp [hkind, TokenKind.isComment]
  · next hkind =>
    rw [hp.residual_comment rfl]
    simp [hkind, TokenKind.isComment]
  · next hkind =>
    have hnone : ∀ rest, rest ∉ (p.reject token .invalidToken).residual :=
      fun rest => notMem_residual_refuse _
    simp [hkind, hnone]
  · next hblock hline hinvalid =>
    have hcomment : token.kind.isComment = false := by
      unfold TokenKind.isComment
      split <;> simp_all
    rw [List.filter_cons_of_pos (by simp [hcomment]), hp.residual_handle]
    exact and_iff_right hinvalid

/-- The tokens complete a unit exactly when they take its parse between
declarations. -/
theorem Sound.completes_iff (hp : p.Sound) :
    p.Completes tokens ↔ (p.feedAll tokens).state = .idle := by
  induction tokens generalizing p with
  | nil => simp [Completes, nil_mem_residual_iff, feedAll]
  | cons token tokens ih => rw [hp.completes_feed, ih (hp.feed token)]; rfl

/-- The tokens that a run delivers complete the unit of its parse
exactly when the run ends between declarations. -/
theorem Sound.completes_deliver (hp : p.Sound) (c : Cursor) :
    p.Completes (p.deliver c).tokens.toList ↔ (p.deliver c).parser.state = .idle := by
  induction p, c using deliver_induction with
  | stopped p c h =>
      rw [deliver_of_isStopped h]
      simp [Completes, nil_mem_residual_iff]
  | ended p c d h hnext =>
      rw [deliver_of_none h hnext]
      simp [Completes, nil_mem_residual_iff]
  | delivered p c token d h hnext ih =>
      -- The pending mode is no part of what may still come.
      rw [deliver_of_some h hnext]
      simp only [Array.toList_append, List.singleton_append]
      rw [← ih (hp.receive token)]
      exact hp.spent.completes_feed

/-- A parse accepts its grammar. Whatever tokens it is handed, it ends
between declarations exactly when they are those of a unit, and a text
is parsed completely exactly when the tokens read from it are. -/
theorem ends_idle_iff_accepts (kind : UnitKind) (filename : String) :
    (∀ tokens, ((ofUnit kind filename).feedAll tokens).state = .idle ↔ Accepts tokens) ∧
      ∀ text, (parse kind filename text).status = .completed ↔
        Accepts ((ofUnit kind filename).deliver (.ofString text)).tokens.toList := by
  have hstart : (ofUnit kind filename).Sound := sound_ofUnit kind filename
  constructor
  · intro tokens
    exact hstart.completes_iff.symm
  · intro text
    exact (close_status_eq_completed_iff _ _).trans (hstart.completes_deliver _).symm

end Parser

end CDeclarations
