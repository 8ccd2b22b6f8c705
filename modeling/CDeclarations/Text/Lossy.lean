/-!
# `CDeclarations.Text.Lossy`: bytes read as UTF-8

Bytes are decoded as UTF-8, and what is no UTF-8 is replaced: each
longest run of bytes that could still have become a character, cut
short or followed by a byte that does not continue it, is read as one
replacement character. A byte order mark is a character like any
other.
-/

set_option autoImplicit false

namespace CDeclarations.Text.Lossy

/-- The character that stands for bytes that are no character. -/
def replacement : Char :=
  '\ufffd'

/-- What a leading byte announces: how many bytes continue it, the
range of the first of them, and the bits that the leading byte gives
to the code point. -/
structure Lead where
  continuations : Nat
  lowest : Nat
  highest : Nat
  bits : Nat

/-- The leading bytes of characters of more than one byte. The range
of the second byte leaves out overlong forms, surrogates and code
points that are too large. -/
def lead? (b : Nat) : Option Lead :=
  if 0xC2 ≤ b ∧ b ≤ 0xDF then some ⟨1, 0x80, 0xBF, b - 0xC0⟩
  else if b = 0xE0 then some ⟨2, 0xA0, 0xBF, 0⟩
  else if b = 0xED then some ⟨2, 0x80, 0x9F, 0xD⟩
  else if 0xE1 ≤ b ∧ b ≤ 0xEF then some ⟨2, 0x80, 0xBF, b - 0xE0⟩
  else if b = 0xF0 then some ⟨3, 0x90, 0xBF, 0⟩
  else if b = 0xF4 then some ⟨3, 0x80, 0x8F, 4⟩
  else if 0xF1 ≤ b ∧ b ≤ 0xF3 then some ⟨3, 0x80, 0xBF, b - 0xF0⟩
  else none

/-- What is read so far: the finished characters, the latest first,
and the character that is still open, if any. -/
structure State where
  done : List Char
  pending : Option Lead

/-- Takes the next byte where no character is open. -/
def State.opened (done : List Char) (b : Nat) : State :=
  if b < 0x80 then ⟨Char.ofNat b :: done, none⟩
  else
    match lead? b with
    | some lead => ⟨done, some lead⟩
    | none => ⟨replacement :: done, none⟩

/-- Takes the next byte. A byte that does not continue the open
character ends it as a replacement and is read afresh. -/
def State.next (s : State) (byte : UInt8) : State :=
  let b := byte.toNat
  match s.pending with
  | none => State.opened s.done b
  | some ⟨continuations, lowest, highest, bits⟩ =>
      if lowest ≤ b ∧ b ≤ highest then
        let code := bits * 0x40 + (b - 0x80)
        if continuations = 1 then ⟨Char.ofNat code :: s.done, none⟩
        else ⟨s.done, some ⟨continuations - 1, 0x80, 0xBF, code⟩⟩
      else State.opened (replacement :: s.done) b

/-- The characters read when the bytes end; a character that is still
open ends as a replacement. -/
def State.finish (s : State) : List Char :=
  match s.pending with
  | none => s.done.reverse
  | some _ => (replacement :: s.done).reverse

/-- The characters that the bytes stand for. -/
def decodeList (bytes : List UInt8) : List Char :=
  (bytes.foldl State.next ⟨[], none⟩).finish

/-- The text that the bytes stand for. -/
def decode (bytes : ByteArray) : String :=
  String.ofList (decodeList bytes.toList)

end CDeclarations.Text.Lossy
