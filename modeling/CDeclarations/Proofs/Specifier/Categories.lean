import CDeclarations.Specifier.Keyword

/-!
# `CDeclarations.Proofs.Specifier.Categories`: single categories in a set

The rules of a specifier sequence ask of a set whether it holds one
category, or one of several. Sets are words of bits, and a category is
one bit; the lemmas here say what the questions mean without speaking
of bits.

* `Single.contains_union`, `Single.contains_diff`: which categories a set
  holds when one is added or taken away. The other ones stay
  (`contains_union_of_ne`, `contains_diff_of_ne`).
* `Single.intersects_eq`, `intersects_union`: a set meets a union when
  it holds one of its categories.
* `Keyword.single_flag`: each reserved word stands for one category.
-/

set_option autoImplicit false

namespace CDeclarations

namespace Flags

/-- The set is one category. -/
def Single (s : Flags) : Prop :=
  ∃ i, i < 16 ∧ s.bits = BitVec.twoPow 16 i

variable {a b c s x : Flags}

/-- A set holds a category when the category's bit is set. -/
theorem contains_eq_getLsbD {i : Nat} (hi : i < 16) (hs : s.bits = BitVec.twoPow 16 i)
    (a : Flags) : a.contains s = a.bits.getLsbD i := by
  rw [contains, hs, BitVec.and_twoPow]
  cases a.bits.getLsbD i with
  | true => simp
  | false =>
      rw [if_neg Bool.false_ne_true, decide_eq_false_iff_not]
      intro hzero
      have hbit := congrArg (·.getLsbD i) hzero
      simp [hi] at hbit

/-- No flags hold no category. -/
theorem Single.contains_empty (hs : s.Single) : (∅ : Flags).contains s = false := by
  obtain ⟨i, hi, hs⟩ := hs
  rw [contains_eq_getLsbD hi hs]
  show (0#16).getLsbD i = false
  exact BitVec.getLsbD_zero

/-- Categories of one bit are equal exactly when the bits are. -/
theorem eq_iff_of_bits {i j : Nat} (hi : i < 16) (hj : j < 16) (hs : s.bits = BitVec.twoPow 16 i)
    (hx : x.bits = BitVec.twoPow 16 j) : x = s ↔ i = j := by
  constructor
  · rintro rfl
    have hbit := congrArg (·.getLsbD i) (hs.symm.trans hx)
    simp only [BitVec.getLsbD_twoPow, hi, hj, decide_true, Bool.true_and] at hbit
    exact (of_decide_eq_true hbit.symm).symm
  · rintro rfl
    obtain ⟨x⟩ := x
    obtain ⟨s⟩ := s
    exact congrArg Flags.mk (hx.trans hs.symm)

/-- A set that a category is added to holds that category and those
that it held. -/
theorem Single.contains_union (hs : s.Single) (hx : x.Single) (a : Flags) :
    (a ∪ s).contains x = true ↔ a.contains x = true ∨ x = s := by
  obtain ⟨i, hi, hs⟩ := hs
  obtain ⟨j, hj, hx⟩ := hx
  rw [contains_eq_getLsbD hj hx, contains_eq_getLsbD hj hx, bit_union, hs, BitVec.getLsbD_twoPow,
    eq_iff_of_bits hi hj hs hx, Bool.or_eq_true]
  simp [hi]

/-- A category that was added is held. -/
theorem Single.contains_union_self (hs : s.Single) (a : Flags) : (a ∪ s).contains s = true :=
  (hs.contains_union hs a).2 (Or.inr rfl)

/-- Adding a category leaves the others. -/
theorem Single.contains_union_of_ne (hs : s.Single) (hx : x.Single) (hne : x ≠ s) (a : Flags) :
    (a ∪ s).contains x = a.contains x := by
  rw [Bool.eq_iff_iff, hs.contains_union hx]
  exact or_iff_left hne

/-- A set that a category is taken from holds the others that it held. -/
theorem Single.contains_diff (hs : s.Single) (hx : x.Single) (a : Flags) :
    (a \ s).contains x = true ↔ a.contains x = true ∧ x ≠ s := by
  obtain ⟨i, hi, hs⟩ := hs
  obtain ⟨j, hj, hx⟩ := hx
  rw [contains_eq_getLsbD hj hx, contains_eq_getLsbD hj hx, bit_diff, hs, BitVec.getLsbD_twoPow,
    Ne, eq_iff_of_bits hi hj hs hx, Bool.and_eq_true]
  simp [hi]

/-- Clearing a category leaves the others. -/
theorem Single.contains_diff_of_ne (hs : s.Single) (hx : x.Single) (hne : x ≠ s) (a : Flags) :
    (a \ s).contains x = a.contains x := by
  rw [Bool.eq_iff_iff, hs.contains_diff hx]
  exact and_iff_left hne

/-- A set meets a category when it holds it. -/
theorem Single.intersects_eq (hs : s.Single) (a : Flags) : a.intersects s = a.contains s := by
  obtain ⟨i, hi, hs⟩ := hs
  have hne : BitVec.twoPow 16 i ≠ 0#16 := by
    intro hzero
    have hbit := congrArg (·.getLsbD i) hzero
    simp [hi] at hbit
  rw [contains_eq_getLsbD hi hs, intersects, hs, BitVec.and_twoPow]
  cases a.bits.getLsbD i with
  | true => simp [hne]
  | false => simp

/-- A set meets a union when it meets one of its parts. -/
theorem intersects_union (a b c : Flags) :
    a.intersects (b ∪ c) = (a.intersects b || a.intersects c) := by
  have hbits : (b ∪ c).bits = b.bits ||| c.bits := rfl
  rw [Bool.eq_iff_iff, Bool.or_eq_true]
  simp only [intersects, hbits, BitVec.and_or_distrib_left, decide_eq_true_eq, ne_eq]
  rw [← Decidable.not_and_iff_not_or_not]
  exact not_congr BitVec.or_eq_zero_iff

/-- A set that is apart from another one holds none of its categories. -/
theorem Single.contains_eq_false (hx : x.Single) (hb : b.contains x = true)
    (h : a.intersects b = false) : a.contains x = false := by
  obtain ⟨i, hi, hx⟩ := hx
  rw [contains_eq_getLsbD hi hx] at hb ⊢
  have hzero : a.bits &&& b.bits = 0 := by simpa [intersects] using h
  have hbit := congrArg (·.getLsbD i) hzero
  simpa [hb] using hbit

/-- The storage class is one bit. -/
theorem single_storage : storage.Single := ⟨0, by decide, by decide⟩

/-- The qualifier is one bit. -/
theorem single_qualifier : qualifier.Single := ⟨1, by decide, by decide⟩

/-- The second `long` is one bit. -/
theorem single_longLong : longLong.Single := ⟨6, by decide, by decide⟩

/-- The user-defined type is one bit. -/
theorem single_userDefined : userDefined.Single := ⟨12, by decide, by decide⟩

/-- The composed type is one bit. -/
theorem single_composed : composed.Single := ⟨13, by decide, by decide⟩

end Flags

/-! ### The categories of the reserved words -/

/-- Each modifier has a bit of its own. -/
theorem Modifier.single_flag (m : Modifier) : m.flag.Single := by
  cases m with
  | signed => exact ⟨2, by decide, by decide⟩
  | unsigned => exact ⟨3, by decide, by decide⟩
  | short => exact ⟨4, by decide, by decide⟩
  | long => exact ⟨5, by decide, by decide⟩

/-- Each base type has a bit of its own. -/
theorem Primitive.single_flag (p : Primitive) : p.flag.Single := by
  cases p with
  | void => exact ⟨7, by decide, by decide⟩
  | char => exact ⟨8, by decide, by decide⟩
  | int => exact ⟨9, by decide, by decide⟩
  | float => exact ⟨10, by decide, by decide⟩
  | double => exact ⟨11, by decide, by decide⟩

namespace Keyword

/-- The category that a reserved word stands for. -/
def flag : Keyword → Flags
  | .storage => .storage
  | .qualifier => .qualifier
  | .modifier m => m.flag
  | .primitive p => p.flag
  | .composed _ => .composed

/-- Each keyword has one bit; the composed words share theirs. -/
theorem single_flag (w : Keyword) : w.flag.Single := by
  cases w with
  | storage => exact Flags.single_storage
  | qualifier => exact Flags.single_qualifier
  | modifier m => exact m.single_flag
  | primitive p => exact p.single_flag
  | composed _ => exact Flags.single_composed

/-- The words that no tag has to follow. -/
def isSimple : Keyword → Bool
  | .composed _ => false
  | _ => true

/-- The simple words, one for each category. -/
def simple : List Keyword :=
  [.storage, .qualifier, .modifier .signed, .modifier .unsigned, .modifier .short,
    .modifier .long, .primitive .void, .primitive .char, .primitive .int, .primitive .float,
    .primitive .double]

/-- The list of simple words is complete. -/
theorem mem_simple {w : Keyword} (h : w.isSimple = true) : w ∈ simple := by
  cases w with
  | storage => decide
  | qualifier => decide
  | modifier m => cases m <;> decide
  | primitive p => cases p <;> decide
  | composed _ => cases h

/-- Simple words stand for different categories. -/
theorem flag_inj {w v : Keyword} (hw : w.isSimple = true) (hv : v.isSimple = true) :
    w.flag = v.flag ↔ w = v := by
  have h : ∀ w ∈ simple, ∀ v ∈ simple, w.flag = v.flag → w = v := by decide
  exact ⟨h w (mem_simple hw) v (mem_simple hv), congrArg flag⟩

/-- The categories that stand for no simple word. -/
theorem flag_ne {w : Keyword} (hw : w.isSimple = true) :
    w.flag ≠ .longLong ∧ w.flag ≠ .userDefined ∧ w.flag ≠ .composed := by
  have h : ∀ w ∈ simple,
      w.flag ≠ .longLong ∧ w.flag ≠ .userDefined ∧ w.flag ≠ .composed := by decide
  exact h w (mem_simple hw)

end Keyword

end CDeclarations
