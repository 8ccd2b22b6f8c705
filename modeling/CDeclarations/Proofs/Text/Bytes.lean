import Mathlib.Data.List.Basic

/-!
# `CDeclarations.Proofs.Text.Bytes`: lines counted in bytes

A line of text is looked at by its characters but sliced by its bytes, and a
slice is there only if it begins and ends between two characters. Here the
place between two characters is given by the characters before it, whose
bytes `byteSize` counts, whatever the length of each.

* `byteSlice?_eq`: between two such places the slice is there and holds the
  characters between.
* `getElem?_charIndices`, `offsetAt_charIndices`: the list of a line's
  characters with their bytes gives just such places.
-/

set_option autoImplicit false

namespace CDeclarations.Text

/-! ### Slices -/

/-- The number of bytes of characters. -/
def byteSize (text : List Char) : Nat :=
  (String.ofList text).utf8ByteSize

/-- The bytes of two texts add up. -/
theorem byteSize_append (before after : List Char) :
    byteSize (before ++ after) = byteSize before + byteSize after := by
  rw [byteSize, String.ofList_append, String.utf8ByteSize_append]
  rfl

/-- A character in front adds its bytes. -/
theorem byteSize_cons (c : Char) (after : List Char) :
    byteSize (c :: after) = c.utf8Size + byteSize after := by
  have hone : byteSize [c] = c.utf8Size := by simp [byteSize]
  rw [← hone]
  exact byteSize_append [c] after

/-- The characters of a string have the bytes of the string. -/
theorem byteSize_toList (line : String) : byteSize line.toList = line.utf8ByteSize := by
  rw [byteSize, String.ofList_toList]

/-- The part of a line from byte `first` up to byte `stop`, which both have
to be boundaries of characters inside the line. -/
def byteSlice? (line : String) (first stop : Nat) : Option String :=
  if h : (⟨first⟩ : String.Pos.Raw).IsValid line ∧ (⟨stop⟩ : String.Pos.Raw).IsValid line ∧
      first ≤ stop then
    some (line.slice (line.pos ⟨first⟩ h.1) (line.pos ⟨stop⟩ h.2.1) h.2.2).copy
  else none

/-- The bytes of the characters up to a place lead to a boundary. -/
theorem isValid_byteSize {line : String} {before after : List Char}
    (h : line.toList = before ++ after) :
    (⟨byteSize before⟩ : String.Pos.Raw).IsValid line := by
  rw [String.Pos.Raw.isValid_iff_exists_append]
  refine ⟨String.ofList before, String.ofList after, ?_, rfl⟩
  rw [← String.ofList_append, ← h, String.ofList_toList]

/-- A slice between two characters is there, and holds those between. -/
theorem byteSlice?_eq {line : String} {before middle after : List Char}
    (h : line.toList = before ++ middle ++ after) :
    byteSlice? line (byteSize before) (byteSize (before ++ middle)) =
      some (String.ofList middle) := by
  have hfirst := isValid_byteSize (h.trans (List.append_assoc ..))
  have hstop := isValid_byteSize h
  -- Both ends of the slice are boundaries of characters, in this order.
  have hle : byteSize before ≤ byteSize (before ++ middle) := by
    rw [byteSize_append]
    exact Nat.le_add_right _ _
  have hline : line = String.ofList before ++ String.ofList middle ++ String.ofList after := by
    rw [← String.ofList_append, ← String.ofList_append, ← h, String.ofList_toList]
  obtain ⟨_, hcopy⟩ : ∃ hpos : line.pos _ hfirst ≤ line.pos _ hstop,
      (line.slice _ _ hpos).copy = String.ofList middle := by
    rw [String.copy_slice_eq_iff_splits]
    refine ⟨String.ofList before, String.ofList after, ⟨?_, rfl⟩, hline, ?_⟩
    · rw [hline, String.append_assoc]
    · rw [← String.ofList_append]
      rfl
  rw [byteSlice?, dif_pos ⟨hfirst, hstop, hle⟩]
  exact congrArg some hcopy

/-! ### Characters with their bytes -/

/-- Characters, each with the number of the byte that it begins at. -/
def charIndices (offset : Nat) : List Char → List (Nat × Char)
  | [] => []
  | c :: after => (offset, c) :: charIndices (offset + c.utf8Size) after

/-- Numbered by their bytes the characters are the text. -/
theorem map_snd_charIndices (offset : Nat) (text : List Char) :
    (charIndices offset text).map Prod.snd = text := by
  induction text generalizing offset with
  | nil => rfl
  | cons c after ih => rw [charIndices, List.map_cons, ih]

/-- The character with number `index`. -/
def charAt? (chars : List (Nat × Char)) (index : Nat) : Option Char :=
  chars[index]?.map Prod.snd

/-- The byte at which the character with number `index` begins, or where the
line ends. -/
def offsetAt (line : String) (chars : List (Nat × Char)) (index : Nat) : Nat :=
  (chars[index]?.map Prod.fst).getD line.utf8ByteSize

/-- A character is found only inside of the text. -/
theorem lt_length_of_charAt? {chars : List (Nat × Char)} {index : Nat} {c : Char}
    (h : charAt? chars index = some c) : index < chars.length := by
  obtain ⟨_, hc, -⟩ := Option.map_eq_some_iff.1 h
  exact (List.getElem?_eq_some_iff.1 hc).1

section
variable {chars : List (Nat × Char)} {before after : List Char}

/-- The character behind a first part is the head of the rest. -/
theorem charAt?_length (h : chars.map Prod.snd = before ++ after) :
    charAt? chars before.length = after.head? := by
  rw [charAt?, ← List.getElem?_map, h, List.getElem?_append_right (Nat.le_refl _), Nat.sub_self,
    List.head?_eq_getElem?]

/-- The numbered characters are as many as those of both parts. -/
theorem length_eq_of_map_snd (h : chars.map Prod.snd = before ++ after) :
    chars.length = before.length + after.length := by
  rw [← List.length_map Prod.snd, h, List.length_append]

end

/-- Behind some characters stands the next one, at the byte that their bytes
lead to. -/
theorem getElem?_charIndices (offset : Nat) (before after : List Char) :
    (charIndices offset (before ++ after))[before.length]? =
      after.head?.map (offset + byteSize before, ·) := by
  induction before generalizing offset with
  | nil => cases after <;> rfl
  | cons c before ih =>
      rw [List.cons_append, charIndices, List.length_cons, List.getElem?_cons_succ, ih,
        byteSize_cons, Nat.add_assoc]

/-- The character of a line behind some others, with the byte that they lead
to and the character that follows. -/
theorem exists_of_getElem?_charIndices {line : String} {before rest : List Char} {offset : Nat}
    {c : Char} (h : line.toList = before ++ rest)
    (hc : (charIndices 0 line.toList)[before.length]? = some (offset, c)) :
    ∃ after, rest = c :: after ∧ offset = byteSize before ∧
      charAt? (charIndices 0 line.toList) (before.length + 1) = after.head? := by
  rw [h, getElem?_charIndices, Nat.zero_add, Option.map_eq_some_iff] at hc
  obtain ⟨_, hhead, heq⟩ := hc
  obtain ⟨rfl, rfl⟩ := Prod.mk.inj heq
  obtain ⟨after, rfl⟩ := List.head?_eq_some_iff.1 hhead
  have hnext := charAt?_length ((map_snd_charIndices 0 _).trans (h.trans (List.append_cons ..)))
  rw [List.length_append] at hnext
  exact ⟨after, rfl, rfl, hnext⟩

/-- Behind some characters of a line begins the next one, or the line ends. -/
theorem offsetAt_charIndices {line : String} {before after : List Char}
    (h : line.toList = before ++ after) :
    offsetAt line (charIndices 0 line.toList) before.length = byteSize before := by
  rw [offsetAt, h, getElem?_charIndices]
  cases after with
  | nil => rw [← byteSize_toList, h, List.append_nil]; rfl
  | cons c after => exact Nat.zero_add _

end CDeclarations.Text
