/-!
# `CDeclarations.Token.Numeral`: the spellings of numbers

A number is read as the longest run of characters that may stand in
one and is judged afterwards. Four forms are valid: hexadecimal
integers and floats, binary integers, decimal and octal integers, and
decimal floats. A suffix of type letters is split off the end first;
a float's letters are `f` and `l`, an integer's are `u` and `l`.
-/

set_option autoImplicit false

namespace CDeclarations.Numeral

/-- The base mark of a hexadecimal number. -/
def isHexMarked : List Char → Bool
  | '0' :: 'x' :: _ | '0' :: 'X' :: _ => true
  | _ => false

/-- The letter that opens an exponent: `p` in hexadecimal numbers,
`e` in all others. -/
def isExponentMark (hex : Bool) (c : Char) : Bool :=
  if hex then c = 'p' || c = 'P' else c = 'e' || c = 'E'

/-- Plus or minus. -/
def isSign (c : Char) : Bool :=
  c = '+' || c = '-'

/-- The rule of the run that is read as a number: letters, digits,
underscores and dots, and a sign directly behind an exponent mark. The
state is the previous character. -/
def runRule (hex : Bool) (previous : Char) (c : Char) (_ : List Char) : Option Char :=
  if c.isAlphanum || c = '_' || c = '.' || (isSign c && isExponentMark hex previous) then some c
  else none

/-- The digits of base eight. -/
def isOctalDigit (c : Char) : Bool :=
  '0' ≤ c && c ≤ '7'

/-- The digits of base sixteen. -/
def isHexDigit (c : Char) : Bool :=
  c.isDigit || ('a' ≤ c && c ≤ 'f') || ('A' ≤ c && c ≤ 'F')

/-- The digits of base two. -/
def isBinaryDigit (c : Char) : Bool :=
  c = '0' || c = '1'

/-- Letters that mark an integer's type. -/
def isIntegerSuffix (c : Char) : Bool :=
  c = 'u' || c = 'U' || c = 'l' || c = 'L'

/-- Letters that mark a float's type. -/
def isFloatSuffix (c : Char) : Bool :=
  c = 'f' || c = 'F' || c = 'l' || c = 'L'

/-- Splits the longest run of suffix letters off the end: what stands
before it, and the run. -/
def splitSuffix (isSuffix : Char → Bool) (text : List Char) : List Char × List Char :=
  let backward := text.reverse
  ((backward.dropWhile isSuffix).reverse, (backward.takeWhile isSuffix).reverse)

/-- A list of digits that is not empty. -/
def isDigits (isDigit : Char → Bool) (text : List Char) : Bool :=
  !text.isEmpty && text.all isDigit

/-- An exponent's value: digits, with at most one sign before them. -/
def isExponent (text : List Char) : Bool :=
  match text with
  | c :: digits => if isSign c then isDigits Char.isDigit digits else isDigits Char.isDigit text
  | [] => false

/-- Splits at the first character in `p`, which is dropped; `none` when
there is no such character. -/
def splitAtFirst (p : Char → Bool) (text : List Char) : List Char × Option (List Char) :=
  let before := text.takeWhile (fun c => !p c)
  match text.dropWhile (fun c => !p c) with
  | [] => (before, none)
  | _ :: after => (before, some after)

/-- What may follow `0x`. A point needs an exponent; an exponent takes
a suffix of at most two letters, an integer one of at most three. -/
def isHexBody (body : List Char) : Bool :=
  match splitAtFirst (isExponentMark true) body with
  | (mantissa, some exponent) =>
      let (value, suffix) := splitSuffix isFloatSuffix exponent
      suffix.length ≤ 2
        && mantissa.count '.' ≤ 1
        && isDigits isHexDigit (mantissa.filter (· ≠ '.'))
        && isExponent value
  | (mantissa, none) =>
      let (digits, suffix) := splitSuffix isIntegerSuffix mantissa
      !mantissa.contains '.' && isDigits isHexDigit digits && suffix.length ≤ 3

/-- What may follow `0b`. -/
def isBinaryBody (body : List Char) : Bool :=
  let (digits, suffix) := splitSuffix isIntegerSuffix body
  isDigits isBinaryDigit digits && suffix.length ≤ 3

/-- The digits of a decimal or octal integer: a leading zero makes the
number octal. -/
def isIntegerBody (digits : List Char) : Bool :=
  match digits with
  | '0' :: d :: rest => (d :: rest).all isOctalDigit
  | _ => isDigits Char.isDigit digits

/-- The mantissa of a decimal float: digits with at most one point and
at least one digit, all on either side of it. -/
def isMantissa (text : List Char) : Bool :=
  match splitAtFirst (· = '.') text with
  | (whole, some fraction) =>
      whole.all Char.isDigit && fraction.all Char.isDigit
        && !(whole.isEmpty && fraction.isEmpty)
  | (whole, none) => whole.all Char.isDigit

/-- The body of a decimal float, its suffix split off. -/
def isFloatBody (body : List Char) : Bool :=
  match splitAtFirst (isExponentMark false) body with
  | (mantissa, some exponent) => isMantissa mantissa && isExponent exponent
  | (mantissa, none) => isMantissa mantissa

/-- A decimal number is a float when it holds a point or an exponent
mark. -/
def isDecimal (text : List Char) : Bool :=
  if text.any (fun c => c = '.' || isExponentMark false c) then
    let (body, suffix) := splitSuffix isFloatSuffix text
    suffix.length ≤ 3 && !body.isEmpty && isFloatBody body
  else
    let (body, suffix) := splitSuffix isIntegerSuffix text
    suffix.length ≤ 3 && isIntegerBody body

/-- The text spells a number. -/
def isValid : List Char → Bool
  | '0' :: 'x' :: body | '0' :: 'X' :: body => isHexBody body
  | '0' :: 'b' :: body | '0' :: 'B' :: body => isBinaryBody body
  | text => isDecimal text

end CDeclarations.Numeral
