/-!
# `CDeclarations.Text.Blank`: blank characters and trimming

Three sets of blank characters are in use. Tokens are set apart by
the six ASCII blanks; inside one line only space, tab, vertical tab
and form feed are skipped; the ends of a body are trimmed of every
character with the White_Space property.
-/

set_option autoImplicit false

namespace CDeclarations.Text

/-- Space, tab, vertical tab and form feed: the blanks that stay on
the line. -/
def isLineBlank (c : Char) : Bool :=
  c = ' ' || c = '\t' || c = '\x0b' || c = '\x0c'

/-- The six ASCII blanks that set tokens apart. -/
def isTokenBlank (c : Char) : Bool :=
  isLineBlank c || c = '\r' || c = '\n'

/-- The characters with the White_Space property. -/
def isWhiteSpace (c : Char) : Bool :=
  isTokenBlank c || c = '\x85' || c = '\xa0' || c = '\u1680'
    || ('\u2000' ≤ c && c ≤ '\u200a')
    || c = '\u2028' || c = '\u2029' || c = '\u202f' || c = '\u205f' || c = '\u3000'

/-- Drops the characters in `p` from the end of a text. -/
def dropEnd (p : Char → Bool) (cs : List Char) : List Char :=
  (cs.reverse.dropWhile p).reverse

/-- Drops white space from the end of a text. -/
def trimEnd (cs : List Char) : List Char :=
  dropEnd isWhiteSpace cs

end CDeclarations.Text
