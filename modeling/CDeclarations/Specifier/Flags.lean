/-!
# `CDeclarations.Specifier.Flags`: what a specifier sequence holds

The words of a declaration's specifier sequence are remembered as a
set of flags, one for each category. A set is a word of bits, so that
sets are joined, met and compared bit by bit.

* `Flags.bit_union`, `Flags.bit_diff`: what an operation does to each
  bit of a set.
-/

set_option autoImplicit false

namespace CDeclarations

/-- A set of categories, one bit each. -/
structure Flags where
  bits : BitVec 16
deriving DecidableEq

namespace Flags

/-- The set with no category. -/
def empty : Flags := ⟨0⟩

instance : EmptyCollection Flags := ⟨empty⟩

/-- A storage specifier stands in the sequence. -/
def storage : Flags := ⟨1 <<< 0⟩

/-- A qualifier stands in the sequence, with no pointer behind it. -/
def qualifier : Flags := ⟨1 <<< 1⟩

def signed : Flags := ⟨1 <<< 2⟩

def unsigned : Flags := ⟨1 <<< 3⟩

def short : Flags := ⟨1 <<< 4⟩

def long : Flags := ⟨1 <<< 5⟩

/-- The word `long` stands in the sequence twice. -/
def longLong : Flags := ⟨1 <<< 6⟩

def void : Flags := ⟨1 <<< 7⟩

def char : Flags := ⟨1 <<< 8⟩

def int : Flags := ⟨1 <<< 9⟩

def float : Flags := ⟨1 <<< 10⟩

def double : Flags := ⟨1 <<< 11⟩

/-- The sequence names a type that is not built in. -/
def userDefined : Flags := ⟨1 <<< 12⟩

/-- The word `union`, `enum` or `struct` stands in the sequence. -/
def composed : Flags := ⟨1 <<< 13⟩

/-- The union of two sets. -/
def union (a b : Flags) : Flags := ⟨a.bits ||| b.bits⟩

instance : Union Flags := ⟨union⟩

/-- The members of `a` that are not in `b`. -/
def diff (a b : Flags) : Flags := ⟨a.bits &&& ~~~b.bits⟩

instance : SDiff Flags := ⟨diff⟩

/-- The four words that modify a built-in type. -/
def modifiers : Flags := signed ∪ unsigned ∪ short ∪ long

/-- With any of these the sequence names a type, and the next
identifier is the declared name. -/
def types : Flags :=
  modifiers ∪ longLong ∪ void ∪ char ∪ int ∪ float ∪ double ∪ userDefined

/-- The set has no member. -/
def isEmpty (a : Flags) : Bool := a.bits = 0

/-- The sets have a member in common. -/
def intersects (a b : Flags) : Bool := a.bits &&& b.bits ≠ 0

/-- Every member of `b` is in `a`. -/
def contains (a b : Flags) : Bool := a.bits &&& b.bits = b.bits

/-- The sequence names a type. -/
def namesType (a : Flags) : Bool := a.intersects types

/-- A bit of a union is set in one of the two sets. -/
theorem bit_union (a b : Flags) (i : Nat) :
    (a ∪ b).bits.getLsbD i = (a.bits.getLsbD i || b.bits.getLsbD i) :=
  BitVec.getLsbD_or

/-- A bit of a difference is set in the first set and clear in the
second one. -/
theorem bit_diff (a b : Flags) (i : Nat) :
    (a \ b).bits.getLsbD i = (a.bits.getLsbD i && !b.bits.getLsbD i) := by
  show (a.bits &&& ~~~b.bits).getLsbD i = _
  by_cases h : i < 16
  · simp [h]
  · simp [BitVec.getLsbD_of_ge a.bits i (by omega)]

end Flags

end CDeclarations
