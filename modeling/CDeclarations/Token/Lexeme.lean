import CDeclarations.Text.Blank
import CDeclarations.Text.Lines
import CDeclarations.Text.Reading
import CDeclarations.Token.Basic
import CDeclarations.Token.Numeral

/-!
# `CDeclarations.Token.Lexeme`: the lexical class at the front of a text

A lexeme is found at the front of a text by the text alone, without
its position. Each class reads the longest stretch its rule accepts
and then judges it: an unclosed comment or literal, a malformed number
and a stretch over the limit of its class are invalid lexemes.

* `Lexeme.ofNormal_read_append_rest`, `Lexeme.ofIncludeName_read_append_rest`,
  `Lexeme.ofDefineBody_read_append_rest`: what a lexeme reads and what
  it leaves make up the text.
* `Lexeme.ofNormal_read_ne_nil`: in normal mode a lexeme reads
  something.
-/

set_option autoImplicit false

namespace CDeclarations

/-- A classified stretch at the front of a text: its class, its
spelling, the characters read for it and the text left. -/
structure Lexeme where
  kind : TokenKind
  text : List Char
  read : List Char
  rest : List Char

namespace Lexeme

/-- The longest identifier. -/
def identifierLimit : Nat := 1023

/-- The longest comment, its marks included. -/
def commentLimit : Nat := 65534

/-- The longest lexeme of every other class. -/
def lexemeLimit : Nat := 65534

/-- A class that has at most `limit` characters; a longer lexeme is
invalid. -/
def bounded (limit : Nat) (kind : TokenKind) (text : List Char) : TokenKind :=
  if text.length ≤ limit then kind else .invalid

/-! ### Comments -/

/-- How far a block comment is read behind its opening mark. -/
inductive CommentState
  | inside
  /-- The star of the closing mark is read. -/
  | closing
  | closed
deriving DecidableEq

/-- The rule of a block comment behind its opening mark: the first
star with a slash behind it opens the closing mark. -/
def commentRule : CommentState → Char → List Char → Option CommentState
  | .inside, c, after => some (if c = '*' ∧ after.head? = some '/' then .closing else .inside)
  | .closing, _, _ => some .closed
  | .closed, _, _ => none

/-- A block comment whose opening mark has `body` behind it. -/
def blockComment (body : List Char) : Lexeme :=
  let r := Reading.longest commentRule .inside body
  let read := '/' :: '*' :: r.read
  ⟨if r.state = .closed then bounded commentLimit .blockComment read else .invalid,
    read, read, r.rest⟩

/-- A line comment: the text up to the line feed, of which trailing
carriage returns are not part of the spelling. -/
def lineComment (text : List Char) : Lexeme :=
  let r := Reading.span (· ≠ '\n') text
  -- The carriage returns are read with the comment all the same.
  let spelled := Text.dropEnd (· = '\r') r.read
  ⟨bounded commentLimit .lineComment spelled, spelled, r.read, r.rest⟩

/-! ### Quoted literals -/

/-- How far a quoted literal is read behind its opening mark. -/
inductive QuoteState
  | inside
  /-- A backslash is read; the next character belongs to it. -/
  | escaped
  | closed
deriving DecidableEq

/-- The rule of a literal that `quote` closes: a backslash takes any
character with it, and a line feed without one ends the stretch. -/
def quoteRule (quote : Char) : QuoteState → Char → List Char → Option QuoteState
  | .inside, c, _ =>
      if c = '\n' then none
      else if c = '\\' then some .escaped
      else if c = quote then some .closed
      else some .inside
  | .escaped, _, _ => some .inside
  | .closed, _, _ => none

/-- A literal that `quote` opens and closes, with `body` behind the
opening mark. -/
def quoted (quote : Char) (kind : TokenKind) (body : List Char) : Lexeme :=
  let r := Reading.longest (quoteRule quote) .inside body
  let read := quote :: r.read
  ⟨if r.state = .closed then bounded lexemeLimit kind read else .invalid, read, read, r.rest⟩

/-- A string literal with `body` behind its opening mark. -/
def stringLiteral (body : List Char) : Lexeme :=
  quoted '"' .stringLiteral body

/-- A character literal with `body` behind its opening mark; it may
not be empty. -/
def charLiteral (body : List Char) : Lexeme :=
  let x := quoted '\'' .charLiteral body
  if x.text.length = 2 then { x with kind := .invalid } else x

/-! ### Words, numbers and operators -/

/-- The characters that open an identifier. -/
def isIdentifierStart (c : Char) : Bool :=
  c.isAlpha || c = '_'

/-- The characters of an identifier. -/
def isIdentifierPart (c : Char) : Bool :=
  c.isAlphanum || c = '_'

/-- An identifier, or the word a keyword is recognised in. -/
def identifier (text : List Char) : Lexeme :=
  let r := Reading.span isIdentifierPart text
  ⟨bounded identifierLimit .identifier r.read, r.read, r.read, r.rest⟩

/-- A number: the longest run of characters that may stand in one, if
it spells a number. -/
def number (text : List Char) : Lexeme :=
  -- The blank is no exponent mark, so that a sign cannot open the run.
  let r := Reading.longest (Numeral.runRule (Numeral.isHexMarked text)) ' ' text
  ⟨if Numeral.isValid r.read then bounded lexemeLimit .numberLiteral r.read else .invalid,
    r.read, r.read, r.rest⟩

/-- The operators of more than one character, longest first. -/
def longOperators : List (List Char) :=
  ["...", "<<=", ">>=", "->", "++", "--", "<<", ">>", "<=", ">=", "==", "!=", "&&", "||", "*=",
    "/=", "%=", "+=", "-=", "&=", "^=", "|=", "##"].map String.toList

/-- The structural marks. -/
def structuralMarks : List Char :=
  ['\x7b', '\x7d', '(', ')', '[', ']', ';', ',', '#', '*', '=']

/-- The operators of one character. -/
def shortOperators : List Char :=
  ['+', '-', '/', '%', '<', '>', '!', '&', '|', '^', '~', '?', ':', '.']

/-- The class of a character that opens no longer lexeme. -/
def markKind (c : Char) : TokenKind :=
  if structuralMarks.contains c then .singleChar
  else if shortOperators.contains c then .operator
  else .invalid

/-- The longest operator or mark; a character that is neither is an
invalid lexeme of its own. -/
def punctuator (c : Char) (after : List Char) : Lexeme :=
  match longOperators.find? (·.isPrefixOf (c :: after)) with
  | some op => ⟨.operator, op, op, (c :: after).drop op.length⟩
  | none => ⟨markKind c, [c], [c], after⟩

/-! ### The three modes -/

/-- The blanks before a token: the ASCII blanks and backslash-newline
joints. -/
def blanks (text : List Char) : Reading Unit :=
  Reading.longest
    (fun _ c after =>
      if Text.isTokenBlank c || (c = '\\' && after.head? = some '\n') then some () else none)
    () text

/-- The blanks before a token that has to stand on the same line. -/
def lineBlanks (text : List Char) : Reading Unit :=
  Reading.span Text.isLineBlank text

/-- The lexeme that `c` opens in normal mode. -/
def ofNormal (c : Char) (after : List Char) : Lexeme :=
  if c = '/' ∧ after.head? = some '*' then blockComment after.tail
  else if c = '/' ∧ after.head? = some '/' then lineComment (c :: after)
  else if c = '"' then stringLiteral after
  else if c = '\'' then charLiteral after
  else if c.isDigit ∨ (c = '.' ∧ after.head?.any Char.isDigit) then number (c :: after)
  else if isIdentifierStart c then identifier (c :: after)
  else punctuator c after

/-- The rule of a file name behind its opening mark; the state tells
whether the closing mark is read. -/
def nameRule (close : Char) (closed : Bool) (c : Char) (_ : List Char) : Option Bool :=
  if closed || c = '\n' then none else some (c = close)

/-- A file name that `c` opens and `close` closes on the same line. -/
def fileName (c close : Char) (after : List Char) : Lexeme :=
  let r := Reading.longest (nameRule close) false after
  let read := c :: r.read
  ⟨if r.state then bounded lexemeLimit .includeLiteral read else .invalid, read, read, r.rest⟩

/-- The lexeme that `c` opens where the name of an included file is
due. Anything but a name in angle brackets or double quotes makes the
rest of the line invalid. -/
def ofIncludeName (c : Char) (after : List Char) : Lexeme :=
  if c = '<' then fileName c '>' after
  else if c = '"' then fileName c '"' after
  else
    let r := Reading.span (· ≠ '\n') (c :: after)
    ⟨.invalid, Text.trimEnd r.read, r.read, r.rest⟩

/-- How far the body of a definition is read: the quote that is open,
and how many of the next characters belong to a backslash. -/
structure BodyState where
  quote : Option Char
  owed : Nat
deriving DecidableEq

/-- The quote that is open behind a character that no backslash
protects. -/
def quoteBehind (quote : Option Char) (c : Char) : Option Char :=
  if c = '"' ∨ c = '\'' then
    match quote with
    | none => some c
    | some q => if q = c then none else some q
  else quote

/-- The rule of a definition's body. A joint between lines is read on
over; a line feed, and a line comment outside quotes, end the body;
inside quotes a backslash takes one character with it. -/
def bodyRule (s : BodyState) (c : Char) (after : List Char) : Option BodyState :=
  if s.owed ≠ 0 then some { s with owed := s.owed - 1 }
  else if c = '\n' then none
  else if c = '\\' then
    if after.head? = some '\n' then some { s with owed := 1 }
    else if after.take 2 = ['\r', '\n'] then some { s with owed := 2 }
    else some { s with owed := if s.quote.isSome then 1 else 0 }
  else if c = '/' ∧ s.quote = none ∧ after.head? = some '/' then none
  else some { s with quote := quoteBehind s.quote c }

/-- The body of a definition: the rest of the logical line, its joints
removed and its end trimmed. It may be empty. -/
def ofDefineBody (text : List Char) : Lexeme :=
  let r := Reading.longest bodyRule ⟨none, 0⟩ text
  let spelled := Text.trimEnd (Text.joinLines r.read)
  ⟨bounded lexemeLimit .defineLiteral spelled, spelled, r.read, r.rest⟩

/-! ### What lexemes read -/

/-- Of a quoted text nothing is lost. -/
private theorem quoted_read_append_rest (quote : Char) (kind : TokenKind) (body : List Char) :
    (quoted quote kind body).read ++ (quoted quote kind body).rest = quote :: body := by
  simp [quoted, Reading.longest_read_append_rest]

/-- Of an operator or a mark nothing is lost. -/
private theorem punctuator_read_append_rest (c : Char) (after : List Char) :
    (punctuator c after).read ++ (punctuator c after).rest = c :: after := by
  unfold punctuator
  split
  · next op h =>
      have hp := List.find?_some h
      obtain ⟨r, hr⟩ := List.isPrefixOf_iff_prefix.1 hp
      simp [← hr]
  · rfl

/-- In normal mode a lexeme and the text it leaves make up the text. -/
theorem ofNormal_read_append_rest (c : Char) (after : List Char) :
    (ofNormal c after).read ++ (ofNormal c after).rest = c :: after := by
  unfold ofNormal
  split
  · next h =>
      obtain ⟨rfl, h⟩ := h
      -- A block comment begins with two characters, of which the second is not part of
      -- the rule.
      cases after with
      | nil => simp at h
      | cons d body =>
          simp only [List.head?_cons, Option.some.injEq] at h
          simp [blockComment, Reading.longest_read_append_rest, h]
  split
  · simp [lineComment, Reading.span, Reading.longest_read_append_rest]
  split
  · next h => rw [stringLiteral, quoted_read_append_rest, h]
  split
  · next h =>
      rw [charLiteral]
      split <;> simp [quoted_read_append_rest, h]
  split
  · simp [number, Reading.longest_read_append_rest]
  split
  · simp [identifier, Reading.span, Reading.longest_read_append_rest]
  · exact punctuator_read_append_rest c after

/-- In normal mode a lexeme reads something. -/
theorem ofNormal_read_ne_nil (c : Char) (after : List Char) : (ofNormal c after).read ≠ [] := by
  unfold ofNormal
  split
  · simp [blockComment]
  split
  · next h => simp [lineComment, h]
  split
  · simp [stringLiteral, quoted]
  split
  · rw [charLiteral]
    split <;> simp [quoted]
  split
  · next h =>
      -- A number and an identifier have their first character in the run, since it
      -- opened it.
      have hrun : (c.isAlphanum || c = '_' || c = '.') = true := by
        rcases h with h | h
        · simp [Char.isAlphanum, h]
        · simp [h]
      simp [number, Reading.longest_cons, Numeral.runRule, hrun]
  split
  · next h =>
      have hpart : isIdentifierPart c = true := by
        simp only [isIdentifierStart, isIdentifierPart, Char.isAlphanum, Bool.or_eq_true] at h ⊢
        exact h.imp_left Or.inl
      simp [identifier, hpart]
  · unfold punctuator
    split
    · next op h =>
        -- No operator of the tables is empty.
        have hm := List.mem_of_find?_eq_some h
        rintro rfl
        revert hm
        decide
    · simp

/-- Where a file name is due, a lexeme and the text it leaves make up
the text. -/
theorem ofIncludeName_read_append_rest (c : Char) (after : List Char) :
    (ofIncludeName c after).read ++ (ofIncludeName c after).rest = c :: after := by
  unfold ofIncludeName
  split
  · simp [fileName, Reading.longest_read_append_rest]
  split
  · simp [fileName, Reading.longest_read_append_rest]
  · simp [Reading.span, Reading.longest_read_append_rest]

/-- A file name lexeme that reads nothing is invalid. -/
theorem ofIncludeName_invalid_of_read_eq_nil {c : Char} {after : List Char}
    (h : (ofIncludeName c after).read = []) : (ofIncludeName c after).kind = .invalid := by
  revert h
  unfold ofIncludeName
  split
  · simp [fileName]
  split
  · simp [fileName]
  · simp

/-- The body of a definition and the text it leaves make up the
text. -/
theorem ofDefineBody_read_append_rest (text : List Char) :
    (ofDefineBody text).read ++ (ofDefineBody text).rest = text := by
  simp [ofDefineBody, Reading.longest_read_append_rest]

/-! ### What valid lexemes have met -/

/-- A valid comment was closed. -/
theorem closed_of_blockComment_valid {body : List Char}
    (hvalid : (blockComment body).kind ≠ .invalid) :
    (Reading.longest commentRule .inside body).state = .closed := by
  apply Decidable.byContradiction
  intro hopen
  exact hvalid (if_neg hopen)

/-- A valid literal was closed. -/
theorem closed_of_quoted_valid {quote : Char} {kind : TokenKind} {body : List Char}
    (hvalid : (quoted quote kind body).kind ≠ .invalid) :
    (Reading.longest (quoteRule quote) .inside body).state = .closed := by
  apply Decidable.byContradiction
  intro hopen
  exact hvalid (if_neg hopen)

/-- A valid name of a file was closed. -/
theorem closed_of_fileName_valid {c close : Char} {after : List Char}
    (hvalid : (fileName c close after).kind ≠ .invalid) :
    (Reading.longest (nameRule close) false after).state = true := by
  apply Decidable.byContradiction
  intro hopen
  exact hvalid (if_neg hopen)

/-- A valid character literal is not empty, and as such a quoted one. -/
theorem charLiteral_of_valid {body : List Char} (hvalid : (charLiteral body).kind ≠ .invalid) :
    (quoted '\'' .charLiteral body).text.length ≠ 2 ∧
      charLiteral body = quoted '\'' .charLiteral body := by
  have hlength : (quoted '\'' .charLiteral body).text.length ≠ 2 := by
    intro hlength
    exact hvalid (by rw [charLiteral, if_pos hlength])
  exact ⟨hlength, if_neg hlength⟩

end Lexeme

end CDeclarations
