import CDeclarations.Proofs.Specifier.Sequence
import Mathlib.Computability.Language

/-!
# `CDeclarations.Proofs.Grammar.Language`: the grammar, and what may follow a first token

`Grammar.unit` is the language of the tokens of a unit, comments left
out: directives and declarations in any number. The grammar is context
free, for the braces of an initializer nest. `Grammar.Accepts` says of
tokens with comments that they are in the language without them, and
that none is invalid.

A parse reads the grammar from left to right, so the language of each
thing it may still expect is taken apart by its first token:

* `cons_mem_unit_iff`: a unit begins with a directive or a sequence of
  specifiers.
* `cons_mem_afterName_iff`, `cons_mem_inLength_iff`: the rest of a
  declaration behind its name, and behind an opening bracket.
* `cons_mem_inInitializer_zero_iff`, `cons_mem_inInitializer_succ_iff`:
  the rest of a declaration inside its initializer, where a number of
  braces is open.
-/

set_option autoImplicit false

namespace CDeclarations.Grammar

open Computability

/-! ### The grammar -/

/-- One token that satisfies `p`. -/
def single (p : Token → Prop) : Language Token :=
  {tokens | ∃ token, tokens = [token] ∧ p token}

/-- The structural mark `c`. -/
def mark (c : Char) : Language Token :=
  single fun token => token.isMark c = true

/-- The identifier spelled `word`. -/
def word (word : String) : Language Token :=
  single fun token => token.isWord word = true

/-- Any token. -/
def anyToken : Language Token :=
  single fun _ => True

/-- A directive behind its mark. -/
def directiveBody : Language Token :=
  word "include" * anyToken + word "define" * (anyToken * anyToken) + word "pragma" * anyToken

/-- An inclusion, a definition or a pragma. -/
def directive : Language Token :=
  mark '#' * directiveBody

/-- A specifier sequence and the name it declares. -/
def specifiers : Language Token :=
  {tokens | IsSpecifiers tokens}

/-- The token is a part of an array's length. -/
def IsLengthToken (token : Token) : Prop :=
  token.isMark '[' = false ∧ token.isMark ']' = false

/-- The token is a part of an expression in an initializer. -/
def IsExpressionToken (token : Token) : Prop :=
  token.isMark '{' = false ∧ token.isMark '}' = false ∧ token.isMark ',' = false ∧
    token.isMark ';' = false

/-- The lengths of an array, each between brackets. -/
def arrays : Language Token :=
  (mark '[' * ((single IsLengthToken)∗ * mark ']'))∗

mutual

/-- An initializer: tokens of expressions and lists of items between
braces, in any number. -/
inductive IsInitializer : List Token → Prop
  | nil : IsInitializer []
  | token {token : Token} {rest : List Token} : IsExpressionToken token → IsInitializer rest →
      IsInitializer (token :: rest)
  | braces {opening closing : Token} {items rest : List Token} : opening.isMark '{' = true →
      IsItems items → closing.isMark '}' = true → IsInitializer rest →
      IsInitializer (opening :: (items ++ closing :: rest))

/-- Initializers with commas between them, at least one. -/
inductive IsItems : List Token → Prop
  | one {item : List Token} : IsInitializer item → IsItems item
  | more {comma : Token} {item rest : List Token} : IsInitializer item →
      comma.isMark ',' = true → IsItems rest → IsItems (item ++ comma :: rest)

end

/-- An initializer. -/
def initializer : Language Token :=
  {tokens | IsInitializer tokens}

/-- The items between two braces. -/
def items : Language Token :=
  {tokens | IsItems tokens}

/-- A declaration. -/
def declaration : Language Token :=
  specifiers * (arrays * ((1 + mark '=' * initializer) * mark ';'))

/-- The tokens of a unit without its comments. -/
def unit : Language Token :=
  (directive + declaration)∗

/-- None of the tokens is invalid, and without the comments they are
those of a unit. -/
def Accepts (tokens : List Token) : Prop :=
  (∀ token ∈ tokens, token.kind ≠ .invalid) ∧
    tokens.filter (fun token => !token.kind.isComment) ∈ unit

/-! ### The rest of a declaration -/

/-- What may follow a declared name, up to the end of the unit. -/
def afterName : Language Token :=
  arrays * ((1 + mark '=' * initializer) * (mark ';' * unit))

/-- What may follow inside the length of an array. -/
def inLength : Language Token :=
  (single IsLengthToken)∗ * (mark ']' * afterName)

/-- What may follow inside an initializer where `depth` braces are
open. -/
def inInitializer : Nat → Language Token
  | 0 => initializer * (mark ';' * unit)
  | depth + 1 => items * (mark '}' * inInitializer depth)

/-- The tokens that the categories accept as the rest of a sequence. -/
def closing (flags : Flags) : Language Token :=
  {tokens | flags.Closes tokens}

/-! ### The first token of a language -/

section First

variable {p : Token → Prop} {L : Language Token} {token : Token} {tokens : List Token}

/-- The language begins with a token that satisfies `p`. -/
@[simp] theorem cons_mem_single_mul :
    token :: tokens ∈ single p * L ↔ p token ∧ tokens ∈ L := by
  rw [Language.mem_mul]
  constructor
  · rintro ⟨_, ⟨first, rfl, hp⟩, rest, hrest, h⟩
    obtain ⟨rfl, rfl⟩ := List.cons.inj h
    exact ⟨hp, hrest⟩
  · rintro ⟨hp, htokens⟩
    exact ⟨[token], ⟨token, rfl, hp⟩, tokens, htokens, rfl⟩

/-- A single token is not the empty sequence. -/
@[simp] theorem nil_notMem_single : [] ∉ single p := by
  rintro ⟨first, h, -⟩
  cases h

/-- A mark is not the empty sequence. -/
@[simp] theorem nil_notMem_mark {c : Char} : [] ∉ mark c :=
  nil_notMem_single

/-- No token is in a product exactly when none is in either factor. -/
theorem nil_mem_mul {M : Language Token} : [] ∈ L * M ↔ [] ∈ L ∧ [] ∈ M := by
  rw [Language.mem_mul]
  constructor
  · rintro ⟨before, hbefore, behind, hbehind, h⟩
    obtain ⟨rfl, rfl⟩ := List.append_eq_nil_iff.1 h
    exact ⟨hbefore, hbehind⟩
  · rintro ⟨hl, hm⟩
    exact ⟨[], hl, [], hm, rfl⟩

/-- A mark is taken from the front. -/
@[simp] theorem cons_mem_mark_mul {c : Char} :
    token :: tokens ∈ mark c * L ↔ token.isMark c = true ∧ tokens ∈ L :=
  cons_mem_single_mul

/-- A word is taken from the front. -/
@[simp] theorem cons_mem_word_mul {w : String} :
    token :: tokens ∈ word w * L ↔ token.isWord w = true ∧ tokens ∈ L :=
  cons_mem_single_mul

/-- Whatever the first token is, it is taken. -/
@[simp] theorem cons_mem_anyToken_mul : token :: tokens ∈ anyToken * L ↔ tokens ∈ L := by
  rw [anyToken, cons_mem_single_mul, true_and]

/-- The empty sequence has no first token. -/
theorem cons_notMem_one : token :: tokens ∉ (1 : Language Token) :=
  List.cons_ne_nil token tokens

end First

/-! ### Repetition -/

/-- A language behind any number of copies of another one begins with
such a copy or not. -/
theorem kstar_mul_eq (M L : Language Token) : M∗ * L = L + M * (M∗ * L) := by
  calc M∗ * L = (1 + M * M∗) * L := by rw [Language.one_add_self_mul_kstar_eq_kstar]
    _ = L + M * (M∗ * L) := by rw [add_mul, one_mul, mul_assoc]

/-- A unit begins with a directive or a declaration. -/
theorem cons_mem_unit_iff {token : Token} {tokens : List Token} :
    token :: tokens ∈ unit ↔
      (token.isMark '#' = true ∧ tokens ∈ directiveBody * unit) ∨
        token :: tokens ∈ specifiers * afterName := by
  -- The star is unfolded once, and the unit is taken into what follows a declaration.
  have hunit : unit = 1 + (mark '#' * (directiveBody * unit) + specifiers * afterName) := by
    calc unit = 1 + (directive + declaration) * unit :=
          (Language.one_add_self_mul_kstar_eq_kstar _).symm
      _ = _ := by rw [add_mul, directive, declaration, afterName]; simp only [mul_assoc]
  rw [hunit, Language.mem_add, Language.mem_add, cons_mem_mark_mul, ← hunit]
  exact or_iff_right cons_notMem_one

/-- Behind its mark a directive is told by its word. -/
theorem cons_mem_directiveBody_mul {L : Language Token} {token : Token} {tokens : List Token} :
    token :: tokens ∈ directiveBody * L ↔
      (token.isWord "include" = true ∧ tokens ∈ anyToken * L) ∨
        (token.isWord "define" = true ∧ tokens ∈ anyToken * (anyToken * L)) ∨
          (token.isWord "pragma" = true ∧ tokens ∈ anyToken * L) := by
  rw [directiveBody, add_mul, add_mul, Language.mem_add, Language.mem_add, or_assoc]
  simp only [mul_assoc, cons_mem_word_mul]

/-! ### The tokens of a specifier sequence -/

/-- What the categories accept is taken apart by the verdict on the
first token. -/
theorem cons_mem_closing_mul {flags : Flags} {L : Language Token} {token : Token}
    {tokens : List Token} :
    token :: tokens ∈ closing flags * L ↔
      match flags.judge token with
      | .part _ after | .composed _ after | .tag after => tokens ∈ closing after * L
      | .name => tokens ∈ L
      | .refused _ => False := by
  -- The first of the two words is not empty, for no sequence is closed by no token.
  have hsplit : token :: tokens ∈ closing flags * L ↔
      ∃ rest, flags.Closes (token :: rest) ∧ ∃ tail ∈ L, rest ++ tail = tokens := by
    rw [Language.mem_mul]
    constructor
    · rintro ⟨sequence, hsequence, tail, htail, h⟩
      cases sequence with
      | nil => exact hsequence.elim
      | cons first rest =>
          obtain ⟨rfl, rfl⟩ := List.cons.inj h
          exact ⟨rest, hsequence, tail, htail, rfl⟩
    · rintro ⟨rest, hrest, tail, htail, rfl⟩
      exact ⟨token :: rest, hrest, tail, htail, rfl⟩
  rw [hsplit]
  cases hj : flags.judge token with
  | part kind after => simp only [Flags.Closes, hj]; exact Language.mem_mul.symm
  | composed opening after => simp only [Flags.Closes, hj]; exact Language.mem_mul.symm
  | tag after => simp only [Flags.Closes, hj]; exact Language.mem_mul.symm
  | name => simp [Flags.Closes, hj]
  | refused failure => simp [Flags.Closes, hj]

/-- A sequence with its name begins with an identifier and is accepted
from no category. -/
theorem cons_mem_specifiers_mul {L : Language Token} {token : Token} {tokens : List Token} :
    token :: tokens ∈ specifiers * L ↔
      token.kind = .identifier ∧ token :: tokens ∈ closing ∅ * L := by
  rw [Language.mem_mul, Language.mem_mul]
  constructor
  · rintro ⟨sequence, hsequence, tail, htail, h⟩
    obtain ⟨⟨first, rest, rfl, hfirst⟩, hclosing⟩ := isSpecifiers_iff.1 hsequence
    obtain ⟨rfl, rfl⟩ := List.cons.inj h
    exact ⟨hfirst, first :: rest, hclosing, tail, htail, rfl⟩
  · rintro ⟨hfirst, sequence, hclosing, tail, htail, h⟩
    cases sequence with
    | nil => exact (hclosing : False).elim
    | cons first rest =>
        obtain ⟨rfl, rfl⟩ := List.cons.inj h
        exact ⟨first :: rest, isSpecifiers_iff.2 ⟨⟨first, rest, rfl, hfirst⟩, hclosing⟩, tail,
          htail, rfl⟩

/-! ### Behind the name -/

/-- Behind a declared name comes an array's length, an initializer or
the end. -/
theorem cons_mem_afterName_iff {token : Token} {tokens : List Token} :
    token :: tokens ∈ afterName ↔
      (token.isMark ';' = true ∧ tokens ∈ unit) ∨
        (token.isMark '=' = true ∧ tokens ∈ inInitializer 0) ∨
          (token.isMark '[' = true ∧ tokens ∈ inLength) := by
  have hafter : afterName = mark ';' * unit + mark '=' * inInitializer 0 + mark '[' * inLength := by
    rw [afterName, arrays, kstar_mul_eq, add_mul, one_mul, inLength, inInitializer, afterName,
      arrays]
    simp only [add_mul, one_mul, mul_assoc]
  rw [hafter, Language.mem_add, Language.mem_add, cons_mem_mark_mul, cons_mem_mark_mul,
    cons_mem_mark_mul, or_assoc]

/-- Between brackets the length goes on or ends. -/
theorem cons_mem_inLength_iff {token : Token} {tokens : List Token} :
    token :: tokens ∈ inLength ↔
      (token.isMark ']' = true ∧ tokens ∈ afterName) ∨
        (IsLengthToken token ∧ tokens ∈ inLength) := by
  have hlength : inLength = mark ']' * afterName + single IsLengthToken * inLength :=
    kstar_mul_eq _ _
  rw [hlength, Language.mem_add, cons_mem_mark_mul, cons_mem_single_mul, ← hlength]

/-! ### Initializers -/

/-- An initializer begins with a token of an expression or with a
brace, or is empty. -/
theorem initializer_eq :
    initializer = single IsExpressionToken * initializer +
      (mark '{' * (items * (mark '}' * initializer)) + 1) := by
  apply Language.ext
  intro tokens
  rw [Language.mem_add, Language.mem_add]
  constructor
  · intro h
    cases h with
    | nil => exact Or.inr (Or.inr rfl)
    | token htoken hrest => exact Or.inl (cons_mem_single_mul.2 ⟨htoken, hrest⟩)
    | braces hopening hitems hclosing hrest =>
        refine Or.inr (Or.inl (cons_mem_mark_mul.2 ⟨hopening, ?_⟩))
        exact Language.append_mem_mul hitems (cons_mem_mark_mul.2 ⟨hclosing, hrest⟩)
  · intro h
    cases tokens with
    | nil => exact IsInitializer.nil
    | cons first rest =>
        rcases h with h | h | h
        · obtain ⟨hfirst, hrest⟩ := cons_mem_single_mul.1 h
          exact IsInitializer.token hfirst hrest
        · obtain ⟨hfirst, hrest⟩ := cons_mem_mark_mul.1 h
          obtain ⟨between, hbetween, behind, hbehind, rfl⟩ := Language.mem_mul.1 hrest
          -- The closing brace is the first token behind the items.
          cases behind with
          | nil => exact absurd (nil_mem_mul.1 hbehind).1 nil_notMem_mark
          | cons closing behind =>
              obtain ⟨hclosing, hbehind⟩ := cons_mem_mark_mul.1 hbehind
              exact IsInitializer.braces hfirst hbetween hclosing hbehind
        · exact absurd h cons_notMem_one

/-- The items are an initializer, with a comma and further items behind
it or not. -/
theorem items_eq : items = initializer * (1 + mark ',' * items) := by
  apply Language.ext
  intro tokens
  rw [Language.mem_mul]
  -- Items are one initializer, and behind a comma items again.
  constructor
  · intro h
    cases h with
    | one hitem => exact ⟨_, hitem, [], Or.inl rfl, List.append_nil _⟩
    | more hitem hcomma hrest =>
        exact ⟨_, hitem, _, Or.inr (cons_mem_mark_mul.2 ⟨hcomma, hrest⟩), rfl⟩
  · rintro ⟨item, hitem, behind, hbehind, rfl⟩
    cases behind with
    | nil => exact (List.append_nil item).symm ▸ IsItems.one hitem
    | cons comma rest =>
        rcases hbehind with h | h
        · exact absurd h cons_notMem_one
        · obtain ⟨hcomma, hrest⟩ := cons_mem_mark_mul.1 h
          exact IsItems.more hitem hcomma hrest

/-- The first token where an initializer has begun. -/
theorem cons_mem_initializer_mul {L : Language Token} {token : Token} {tokens : List Token} :
    token :: tokens ∈ initializer * L ↔
      (IsExpressionToken token ∧ tokens ∈ initializer * L) ∨
        (token.isMark '{' = true ∧ tokens ∈ items * (mark '}' * (initializer * L))) ∨
          token :: tokens ∈ L := by
  have heq : initializer * L = single IsExpressionToken * (initializer * L) +
      (mark '{' * (items * (mark '}' * (initializer * L))) + L) := by
    calc initializer * L = (single IsExpressionToken * initializer +
          (mark '{' * (items * (mark '}' * initializer)) + 1)) * L := by rw [← initializer_eq]
      _ = _ := by simp only [add_mul, one_mul, mul_assoc]
  rw [heq, Language.mem_add, Language.mem_add, cons_mem_single_mul, cons_mem_mark_mul, ← heq]

/-- Outside braces the initializer goes on, a brace opens, or the
declaration ends. -/
theorem cons_mem_inInitializer_zero_iff {token : Token} {tokens : List Token} :
    token :: tokens ∈ inInitializer 0 ↔
      (IsExpressionToken token ∧ tokens ∈ inInitializer 0) ∨
        (token.isMark '{' = true ∧ tokens ∈ inInitializer 1) ∨
          (token.isMark ';' = true ∧ tokens ∈ unit) := by
  rw [inInitializer, cons_mem_initializer_mul, cons_mem_mark_mul]
  rfl

/-- Inside braces the item goes on, a brace opens, the latest brace
closes, or the next item begins. -/
theorem cons_mem_inInitializer_succ_iff {depth : Nat} {token : Token} {tokens : List Token} :
    token :: tokens ∈ inInitializer (depth + 1) ↔
      (IsExpressionToken token ∧ tokens ∈ inInitializer (depth + 1)) ∨
        (token.isMark '{' = true ∧ tokens ∈ inInitializer (depth + 2)) ∨
          (token.isMark '}' = true ∧ tokens ∈ inInitializer depth) ∨
            (token.isMark ',' = true ∧ tokens ∈ inInitializer (depth + 1)) := by
  -- What is left of an open list is one initializer, and then the brace that closes the
  -- list or a comma.
  have hitems : inInitializer (depth + 1) = initializer *
      (mark '}' * inInitializer depth + mark ',' * inInitializer (depth + 1)) := by
    calc inInitializer (depth + 1)
        = initializer * (1 + mark ',' * items) * (mark '}' * inInitializer depth) := by
          rw [← items_eq, inInitializer]
      _ = _ := by rw [inInitializer, mul_assoc, add_mul, one_mul, mul_assoc]
  rw [hitems, cons_mem_initializer_mul, ← hitems, Language.mem_add, cons_mem_mark_mul,
    cons_mem_mark_mul]
  rfl

/-! ### The end of the tokens -/

/-- A unit may be empty. -/
theorem nil_mem_unit : [] ∈ unit :=
  Language.nil_mem_kstar _

/-- The body of a directive is not empty. -/
theorem nil_notMem_directiveBody : [] ∉ directiveBody := by
  -- Each directive begins with its word.
  rintro ((h | h) | h)
  · exact nil_notMem_single (nil_mem_mul.1 h).1
  · exact nil_notMem_single (nil_mem_mul.1 h).1
  · exact nil_notMem_single (nil_mem_mul.1 h).1

/-- A sequence of specifiers is not closed without a token. -/
theorem nil_notMem_closing {flags : Flags} : [] ∉ closing flags :=
  id

/-- Something has to follow a declared name. -/
theorem nil_notMem_afterName : [] ∉ afterName := by
  simp [afterName, nil_mem_mul]

/-- An open bracket has to be closed. -/
theorem nil_notMem_inLength : [] ∉ inLength := by
  simp [inLength, nil_mem_mul]

/-- An initializer has to be ended. -/
theorem nil_notMem_inInitializer (depth : Nat) : [] ∉ inInitializer depth := by
  cases depth with
  | zero => simp [inInitializer, nil_mem_mul]
  | succ depth => simp [inInitializer, nil_mem_mul]

end CDeclarations.Grammar
