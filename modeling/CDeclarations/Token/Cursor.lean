import CDeclarations.Token.Lexeme

/-!
# `CDeclarations.Token.Cursor`: reading tokens with their positions

A cursor holds the unread text and the position of its first
character. `Cursor.next` reads one token in the mode it is asked for.

* `Cursor.next_normal_eq_some_iff`, `next_includeName_eq_some_iff`,
  `next_defineBody`: what a call reads, mode by mode: blanks first, then
  the lexeme that the next character opens.
* `Cursor.Extends`: one cursor lies behind another one on the same
  text, at the position that the text between them leads to; every
  read token moves the cursor that way (`Cursor.extends_next`).
* `Cursor.length_next_normal`: in normal mode a token takes at least
  one character, so that reading all tokens comes to an end.
* `Cursor.tokens_eq`: the tokens of a text, one at a time.
-/

set_option autoImplicit false

namespace CDeclarations

/-- The unread text and the position of its first character. -/
structure Cursor where
  unread : List Char
  position : Position

namespace Cursor

/-- The cursor in front of a whole text. -/
def ofList (text : List Char) : Cursor :=
  ⟨text, .start⟩

/-- The cursor in front of a whole text. -/
def ofString (text : String) : Cursor :=
  ofList text.toList

/-- The cursor behind the characters `read`, with `rest` left. -/
def past (c : Cursor) (read rest : List Char) : Cursor :=
  ⟨rest, c.position.past read⟩

/-- The token that a lexeme becomes at the cursor, and the cursor
behind it. -/
def take (c : Cursor) (x : Lexeme) : Option Token × Cursor :=
  (some ⟨x.kind, c.position, String.ofList x.text⟩, c.past x.read x.rest)

/-- Reads a token in normal mode, blanks before it skipped. -/
def nextNormal (c : Cursor) : Option Token × Cursor :=
  let blank := Lexeme.blanks c.unread
  let start := c.past blank.read blank.rest
  match blank.rest with
  | [] => (none, start)
  | ch :: after => start.take (Lexeme.ofNormal ch after)

/-- Reads the name of an included file on the current line. -/
def nextIncludeName (c : Cursor) : Option Token × Cursor :=
  let blank := Lexeme.lineBlanks c.unread
  let start := c.past blank.read blank.rest
  match blank.rest with
  | [] => (none, start)
  | ch :: after => start.take (Lexeme.ofIncludeName ch after)

/-- Reads the body of a definition, which is there even at the end of
the text. -/
def nextDefineBody (c : Cursor) : Option Token × Cursor :=
  let blank := Lexeme.lineBlanks c.unread
  let start := c.past blank.read blank.rest
  start.take (Lexeme.ofDefineBody blank.rest)

/-- Reads the next token in the given mode: the token, or `none` where
the text has none left, and the cursor behind what is read. -/
def next (c : Cursor) : TokenMode → Option Token × Cursor
  | .normal => c.nextNormal
  | .includeName => c.nextIncludeName
  | .defineBody => c.nextDefineBody

/-! ### What a call reads -/

section Next

variable {c d : Cursor} {t : Token}

/-- In normal mode there is a token where a character is left behind the
blanks, and it is the one that this character opens. -/
theorem next_normal_eq_some_iff : c.next .normal = (some t, d) ↔
    ∃ ch after, (Lexeme.blanks c.unread).rest = ch :: after ∧
      (c.past (Lexeme.blanks c.unread).read (ch :: after)).take (Lexeme.ofNormal ch after) =
        (some t, d) := by
  rw [next, nextNormal]
  cases hrest : (Lexeme.blanks c.unread).rest with
  | nil => exact ⟨nofun, nofun⟩
  | cons ch after =>
      refine ⟨fun h => ⟨ch, after, rfl, h⟩, ?_⟩
      rintro ⟨_, _, hcons, h⟩
      cases hcons
      exact h

/-- In normal mode there is no token left where only blanks are. -/
theorem next_normal_eq_none_iff : c.next .normal = (none, d) ↔
    (Lexeme.blanks c.unread).rest = [] ∧ c.past (Lexeme.blanks c.unread).read [] = d := by
  rw [next, nextNormal]
  cases hrest : (Lexeme.blanks c.unread).rest with
  | nil => simp
  | cons ch after => exact ⟨nofun, fun h => absurd h.1 (List.cons_ne_nil ch after)⟩

/-- Where a file name is due, there is a token where a character is left
behind the blanks of the line, and it is the one that this character
opens. -/
theorem next_includeName_eq_some_iff : c.next .includeName = (some t, d) ↔
    ∃ ch after, (Lexeme.lineBlanks c.unread).rest = ch :: after ∧
      (c.past (Lexeme.lineBlanks c.unread).read (ch :: after)).take
        (Lexeme.ofIncludeName ch after) = (some t, d) := by
  rw [next, nextIncludeName]
  cases hrest : (Lexeme.lineBlanks c.unread).rest with
  | nil => exact ⟨nofun, nofun⟩
  | cons ch after =>
      refine ⟨fun h => ⟨ch, after, rfl, h⟩, ?_⟩
      rintro ⟨_, _, hcons, h⟩
      cases hcons
      exact h

/-- Where a file name is due, there is no token left at the end of the
text. -/
theorem next_includeName_eq_none_iff : c.next .includeName = (none, d) ↔
    (Lexeme.lineBlanks c.unread).rest = [] ∧
      c.past (Lexeme.lineBlanks c.unread).read [] = d := by
  rw [next, nextIncludeName]
  cases hrest : (Lexeme.lineBlanks c.unread).rest with
  | nil => simp
  | cons ch after => exact ⟨nofun, fun h => absurd h.1 (List.cons_ne_nil ch after)⟩

/-- The body of a definition is there whatever is left behind the blanks
of the line. -/
theorem next_defineBody (c : Cursor) : c.next .defineBody =
    (c.past (Lexeme.lineBlanks c.unread).read (Lexeme.lineBlanks c.unread).rest).take
      (Lexeme.ofDefineBody (Lexeme.lineBlanks c.unread).rest) :=
  rfl

/-- A taken token has the kind and the text of its lexeme and stands at the
cursor, which goes past what the lexeme reads. -/
theorem take_eq_iff {x : Lexeme} : c.take x = (some t, d) ↔
    ⟨x.kind, c.position, String.ofList x.text⟩ = t ∧ c.past x.read x.rest = d := by
  simp [take]

end Next

/-! ### How a cursor moves -/

/-- The cursor `d` lies behind `c` on the same text. -/
def Extends (c d : Cursor) : Prop :=
  ∃ read, c.unread = read ++ d.unread ∧ d.position = c.position.past read

/-- Reading on from where reading came to is reading on. -/
theorem Extends.trans {c d e : Cursor} (h : c.Extends d) (h' : d.Extends e) : c.Extends e := by
  obtain ⟨r, hr, hp⟩ := h
  obtain ⟨s, hs, hq⟩ := h'
  exact ⟨r ++ s, by rw [hr, hs, List.append_assoc], by rw [hq, hp, Position.past_append]⟩

/-- No text comes back when a cursor reads on. -/
theorem Extends.length_le {c d : Cursor} (h : c.Extends d) : d.unread.length ≤ c.unread.length := by
  obtain ⟨r, hr, -⟩ := h
  simp [hr]

/-- Going past the front of the text is reading on. -/
theorem extends_past (c : Cursor) {read rest : List Char} (h : read ++ rest = c.unread) :
    c.Extends (c.past read rest) :=
  ⟨read, h.symm, rfl⟩

/-- The blanks and what is behind them are the text. -/
private theorem blanks_read_append_rest (text : List Char) :
    (Lexeme.blanks text).read ++ (Lexeme.blanks text).rest = text :=
  Reading.longest_read_append_rest _ _ _

/-- The blanks of a line and what is behind them are the text. -/
private theorem lineBlanks_read_append_rest (text : List Char) :
    (Lexeme.lineBlanks text).read ++ (Lexeme.lineBlanks text).rest = text :=
  Reading.longest_read_append_rest _ _ _

/-- Every read token moves the cursor on over the text it reads. -/
theorem extends_next (c : Cursor) (mode : TokenMode) : c.Extends (c.next mode).2 := by
  -- In each mode the blanks come first and the lexeme behind them.
  cases mode with
  | normal =>
      have hb := c.extends_past (blanks_read_append_rest c.unread)
      simp only [next, nextNormal]
      split
      · exact hb
      · next ch after h =>
          exact hb.trans (extends_past _ (by
            rw [Lexeme.ofNormal_read_append_rest]; exact h.symm))
  | includeName =>
      have hb := c.extends_past (lineBlanks_read_append_rest c.unread)
      simp only [next, nextIncludeName]
      split
      · exact hb
      · next ch after h =>
          exact hb.trans (extends_past _ (by
            rw [Lexeme.ofIncludeName_read_append_rest]; exact h.symm))
  | defineBody =>
      have hb := c.extends_past (lineBlanks_read_append_rest c.unread)
      simp only [next, nextDefineBody]
      exact hb.trans (extends_past _ (Lexeme.ofDefineBody_read_append_rest _))

/-- No token makes the unread text longer. -/
theorem length_next_le (c : Cursor) (mode : TokenMode) :
    (c.next mode).2.unread.length ≤ c.unread.length :=
  (c.extends_next mode).length_le

/-- A text without a token left is read to its end. -/
theorem unread_of_next_eq_none {c d : Cursor} {mode : TokenMode} (h : c.next mode = (none, d)) :
    d.unread = [] := by
  -- A definition body is a token even where it is empty.
  cases mode with
  | normal =>
      obtain ⟨-, rfl⟩ := next_normal_eq_none_iff.1 h
      rfl
  | includeName =>
      obtain ⟨-, rfl⟩ := next_includeName_eq_none_iff.1 h
      rfl
  | defineBody => cases h

/-- In normal mode a token takes at least one character. -/
theorem length_next_normal {c d : Cursor} {t : Token} (h : c.next .normal = (some t, d)) :
    d.unread.length < c.unread.length := by
  obtain ⟨ch, after, hrest, h⟩ := next_normal_eq_some_iff.1 h
  obtain ⟨-, rfl⟩ := take_eq_iff.1 h
  have hb := congrArg List.length (blanks_read_append_rest c.unread)
  have hx := congrArg List.length (Lexeme.ofNormal_read_append_rest ch after)
  -- A lexeme of normal mode has a character, whichever class it is of.
  have hne := List.length_pos_iff.2 (Lexeme.ofNormal_read_ne_nil ch after)
  simp only [List.length_append, hrest, List.length_cons] at hb hx
  simp only [past]
  omega

/-- Where a file name is due, a valid token takes at least one
character. -/
theorem length_next_includeName {c d : Cursor} {t : Token}
    (h : c.next .includeName = (some t, d)) (ht : t.kind ≠ .invalid) :
    d.unread.length < c.unread.length := by
  obtain ⟨ch, after, hrest, h⟩ := next_includeName_eq_some_iff.1 h
  obtain ⟨rfl, rfl⟩ := take_eq_iff.1 h
  have hb := congrArg List.length (lineBlanks_read_append_rest c.unread)
  have hx := congrArg List.length (Lexeme.ofIncludeName_read_append_rest ch after)
  -- Only an invalid lexeme has no characters in this mode.
  have hne : (Lexeme.ofIncludeName ch after).read ≠ [] := fun hnil =>
    ht (Lexeme.ofIncludeName_invalid_of_read_eq_nil hnil)
  have hpos := List.length_pos_iff.2 hne
  simp only [List.length_append, hrest, List.length_cons] at hb hx
  simp only [past]
  omega

/-- A name of an included file is a file name's literal or invalid. -/
theorem kind_next_includeName {c d : Cursor} {t : Token}
    (h : c.next .includeName = (some t, d)) : t.kind = .includeLiteral ∨ t.kind = .invalid := by
  -- A name of either form is valid, or too long, or not closed.
  have hname : ∀ ch close after, (Lexeme.fileName ch close after).kind = .includeLiteral ∨
      (Lexeme.fileName ch close after).kind = .invalid := by
    intro ch close after
    simp only [Lexeme.fileName, Lexeme.bounded]
    split
    · split <;> simp
    · simp
  obtain ⟨ch, after, -, h⟩ := next_includeName_eq_some_iff.1 h
  obtain ⟨rfl, -⟩ := take_eq_iff.1 h
  simp only [Lexeme.ofIncludeName]
  split
  · exact hname ..
  split
  · exact hname ..
  · exact Or.inr rfl

/-- A body of a definition is a definition's literal or invalid. -/
theorem kind_next_defineBody {c d : Cursor} {t : Token} (h : c.next .defineBody = (some t, d)) :
    t.kind = .defineLiteral ∨ t.kind = .invalid := by
  rw [next_defineBody] at h
  obtain ⟨rfl, -⟩ := take_eq_iff.1 h
  simp only [Lexeme.ofDefineBody, Lexeme.bounded]
  split <;> simp

/-! ### All tokens of a text -/

/-- Reads the tokens left at the cursor behind those in `found`, each
with the position behind it. -/
private def tokensLoop (c : Cursor) (found : Array (Token × Position)) :
    Array (Token × Position) × Cursor :=
  match _h : c.next .normal with
  | (none, d) => (found, d)
  | (some t, d) => tokensLoop d (found.push (t, d.position))
termination_by c.unread.length
decreasing_by exact length_next_normal _h

/-- The tokens left at the cursor, read in normal mode, each with the
position behind it; and the cursor behind the text. -/
def tokens (c : Cursor) : Array (Token × Position) × Cursor :=
  c.tokensLoop #[]

/-- What is found before the rest of the tokens changes nothing in
them. -/
private theorem tokensLoop_append (c : Cursor) (before found : Array (Token × Position)) :
    c.tokensLoop (before ++ found) =
      (before ++ (c.tokensLoop found).1, (c.tokensLoop found).2) := by
  -- By the recursion of the loop: the tokens found so far are only pushed upon.
  fun_induction tokensLoop c found with
  | case1 c found d h =>
      rw [tokensLoop]
      split
      · next d' h' =>
        rw [h] at h'
        cases h'
        rfl
      · next t d' h' =>
        rw [h] at h'
        cases h'
  | case2 c found t d h ih =>
      rw [tokensLoop]
      split
      · next d' h' =>
        rw [h] at h'
        cases h'
      · next t' d' h' =>
        rw [h] at h'
        cases h'
        rw [← Array.append_push, ih]

/-- The first token, and those behind it. -/
theorem tokens_eq (c : Cursor) :
    c.tokens =
      match c.next .normal with
      | (none, d) => (#[], d)
      | (some t, d) => (#[(t, d.position)] ++ d.tokens.1, d.tokens.2) := by
  rw [tokens, tokensLoop]
  split
  · next d h => simp only [h]
  · next t d h =>
    simp only [h, tokens]
    exact tokensLoop_append d #[(t, d.position)] #[]

end Cursor

/-- The tokens of a text read in normal mode. -/
def Token.ofString (text : String) : List Token :=
  ((Cursor.ofString text).tokens.1.map Prod.fst).toList

end CDeclarations
