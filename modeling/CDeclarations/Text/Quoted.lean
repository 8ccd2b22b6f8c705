import CDeclarations.Text.Unprintable

/-!
# `CDeclarations.Text.Quoted`: texts written on one line

A text is written between double quotes with every character escaped
that would not show as itself. Backslash and double quote take a
backslash; line feed, carriage return, tab and NUL have letters; every
other unprintable character is written as its code point in
hexadecimal digits.
-/

set_option autoImplicit false

namespace CDeclarations.Text

/-- The written form of one character between quotes. -/
def escape (c : Char) : List Char :=
  if c = '\\' ∨ c = '"' then ['\\', c]
  else if c = '\n' then ['\\', 'n']
  else if c = '\r' then ['\\', 'r']
  else if c = '\t' then ['\\', 't']
  else if c = '\x00' then ['\\', '0']
  else if isUnprintable c then
    ['\\', 'u', '\x7b'] ++ Nat.toDigits 16 c.toNat ++ ['\x7d']
  else [c]

/-- The text between double quotes, escaped. -/
def quoted (text : String) : String :=
  String.ofList ('"' :: text.toList.flatMap escape ++ ['"'])

end CDeclarations.Text
