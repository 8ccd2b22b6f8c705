import CDeclarations.Text.Quoted

/-!
# `CDeclarations.Proofs.Text.Quoted`: what is read back from a written form

A written form that stands in front of a text can be read back if it
tells where it ends. A stretch of characters of one class tells so where
none of that class follows (`append_inj_of_class`); a text between quotes
does by itself, for the quotes inside it are escaped
(`quoted_append_inj`).

* `toDigits_inj`: different numbers have different digits.
* `Escapes`: the three ways in which a character is written between
  quotes. Each of them tells the character (`escape_append_inj`).
* `newline_notMem_quoted`: a text between quotes stays on its line.
-/

set_option autoImplicit false

namespace CDeclarations.Text

variable {r s : List Char}

/-- A stretch of characters of one class ends where none of that class
follows. -/
theorem append_inj_of_class (p : Char → Bool) {xs ys : List Char} (hxs : ∀ c ∈ xs, p c = true)
    (hys : ∀ c ∈ ys, p c = true) (hr : r.head?.any p = false) (hs : s.head?.any p = false)
    (h : xs ++ r = ys ++ s) : xs = ys ∧ r = s := by
  -- What stands behind a stretch does not begin with a character of the class.
  have hstop : ∀ {zs : List Char} {c : Char} {cs t : List Char}, t.head?.any p = false →
      p c = true → zs ++ t = c :: cs → zs ≠ [] := by
    rintro _ c cs t ht hc hzs rfl
    rw [List.nil_append] at hzs
    rw [hzs, List.head?_cons, Option.any_some, hc] at ht
    cases ht
  induction xs generalizing ys with
  | nil =>
      cases ys with
      | nil => exact ⟨rfl, h⟩
      | cons y ys => exact absurd rfl (hstop hr (hys y List.mem_cons_self) h)
  | cons x xs ih =>
      cases ys with
      | nil => exact absurd rfl (hstop hs (hxs x List.mem_cons_self) h.symm)
      | cons y ys =>
          obtain ⟨rfl, htail⟩ := List.cons.inj h
          obtain ⟨rfl, hrest⟩ := ih (fun c hc => hxs c (List.mem_cons_of_mem _ hc))
            (fun c hc => hys c (List.mem_cons_of_mem _ hc)) htail
          exact ⟨rfl, hrest⟩

/-! ### Numbers -/

/-- Digits below sixteen are told apart. -/
theorem digitChar_inj {m n : Nat} (hm : m < 16) (hn : n < 16)
    (h : Nat.digitChar m = Nat.digitChar n) : m = n := by
  have hall : ∀ m < 16, ∀ n < 16, Nat.digitChar m = Nat.digitChar n → m = n := by decide
  exact hall m hm n hn h

/-- Different numbers have different digits in every base that has
digits. -/
theorem toDigits_inj {b : Nat} (hb : 1 < b) (hb' : b ≤ 16) {m n : Nat}
    (h : Nat.toDigits b m = Nat.toDigits b n) : m = n := by
  induction m using Nat.strongRecOn generalizing n with
  | ind m ih =>
      rw [Nat.toDigits_eq_if hb, Nat.toDigits_eq_if (n := n) hb] at h
      split at h
      · next hm =>
        split at h
        · next hn => exact digitChar_inj (by omega) (by omega) (List.singleton_inj.1 h)
        · -- One digit on one side, more than one on the other.
          have hlength := congrArg List.length h
          have hpos := List.length_pos_iff.2 (Nat.toDigits_ne_nil (n := n / b) (b := b))
          simp only [List.length_append, List.length_singleton] at hlength
          omega
      · next hm =>
        split at h
        · have hlength := congrArg List.length h
          have hpos := List.length_pos_iff.2 (Nat.toDigits_ne_nil (n := m / b) (b := b))
          simp only [List.length_append, List.length_singleton] at hlength
          omega
        -- Both have a last digit, and the number in front of it is smaller.
        · obtain ⟨hdiv, hmod⟩ := List.append_inj' h rfl
          have hquot : m / b = n / b := ih (m / b) (Nat.div_lt_self (by omega) hb) hdiv
          have hrem : m % b = n % b := by
            have hm' := Nat.mod_lt m (by omega : 0 < b)
            have hn' := Nat.mod_lt n (by omega : 0 < b)
            exact digitChar_inj (by omega) (by omega) (List.singleton_inj.1 hmod)
          rw [← Nat.div_add_mod m b, hquot, hrem, Nat.div_add_mod]

/-! ### Characters between quotes -/

/-- The letters behind a backslash, and the characters that they stand
for. -/
def letters : List (Char × Char) :=
  [('\\', '\\'), ('"', '"'), ('n', '\n'), ('r', '\r'), ('t', '\t'), ('0', '\x00')]

/-- How a character is written between quotes: as itself, by a letter or
by its code point. -/
inductive Escapes (c : Char) : List Char → Prop
  | plain (h : c ≠ '\\') (h' : c ≠ '"') : Escapes c [c]
  | letter {l : Char} (h : (l, c) ∈ letters) : Escapes c ['\\', l]
  | code : Escapes c (['\\', 'u', '\x7b'] ++ Nat.toDigits 16 c.toNat ++ ['\x7d'])

/-- What a character is escaped to has one of the three forms. -/
theorem escapes_escape (c : Char) : Escapes c (escape c) := by
  unfold escape
  split
  · next h =>
    refine .letter ?_
    rcases h with rfl | rfl <;> decide
  · next h =>
    split
    · next h => exact .letter (h ▸ by decide)
    split
    · next h => exact .letter (h ▸ by decide)
    split
    · next h => exact .letter (h ▸ by decide)
    split
    · next h => exact .letter (h ▸ by decide)
    split
    · exact .code
    · rw [not_or] at h
      exact .plain h.1 h.2

/-- A character that is no digit is not in a number. -/
theorem notMem_toDigits {c : Char} (hc : ∀ n, Nat.digitChar n ≠ c) (n : Nat) :
    c ∉ Nat.toDigits 16 n := by
  induction n using Nat.strongRecOn with
  | ind n ih =>
      rw [Nat.toDigits_eq_if (by decide)]
      split
      · exact fun h => hc n (List.mem_singleton.1 h).symm
      · intro h
        rcases List.mem_append.1 h with h | h
        · exact ih (n / 16) (by omega) h
        · exact hc (n % 16) (List.mem_singleton.1 h).symm

/-- A character that is written in front of a text can be read back. -/
theorem escape_append_inj {c d : Char} (h : escape c ++ r = escape d ++ s) : c = d ∧ r = s := by
  -- The first character tells an escape from a plain character, the second one which escape it is.
  have hfunctional : ∀ x ∈ letters, ∀ y ∈ letters, x.1 = y.1 → x.2 = y.2 := by decide
  have hcode : ∀ x ∈ letters, x.1 ≠ 'u' := by decide
  generalize hx : escape c = x at h
  generalize hy : escape d = y at h
  have hc : Escapes c x := hx ▸ escapes_escape c
  have hd : Escapes d y := hy ▸ escapes_escape d
  cases hc with
  | plain hback _ =>
      cases hd with
      | plain _ _ => exact List.cons.inj h
      | letter _ => exact absurd (List.cons.inj h).1 hback
      | code => exact absurd (List.cons.inj h).1 hback
  | letter hl =>
      cases hd with
      | plain hback _ => exact absurd (List.cons.inj h).1.symm hback
      | letter hl' =>
          obtain ⟨-, h⟩ := List.cons.inj h
          obtain ⟨hletter, h⟩ := List.cons.inj h
          exact ⟨hfunctional _ hl _ hl' hletter, h⟩
      | code =>
          obtain ⟨-, h⟩ := List.cons.inj h
          exact absurd (List.cons.inj h).1 (hcode _ hl)
  | code =>
      cases hd with
      | plain hback _ => exact absurd (List.cons.inj h).1.symm hback
      | letter hl =>
          obtain ⟨-, h⟩ := List.cons.inj h
          exact absurd (List.cons.inj h).1.symm (hcode _ hl)
      | code =>
          simp only [List.cons_append, List.nil_append, List.append_assoc, List.cons.injEq,
            true_and] at h
          -- The digits end at the closing brace.
          have hdigits : ∀ n : Nat, ∀ e ∈ Nat.toDigits 16 n, (e != '\x7d') = true := by
            intro n e he
            have hbrace : ∀ n, Nat.digitChar n ≠ '\x7d' := fun n => Nat.digitChar_ne '\x7d' rfl
            exact bne_iff_ne.2 fun heq => notMem_toDigits hbrace n (heq ▸ he)
          obtain ⟨hsame, hrest⟩ :=
            append_inj_of_class (· != '\x7d') (hdigits _) (hdigits _) rfl rfl h
          exact ⟨Char.toNat_inj.1 (toDigits_inj (by decide) (by decide) hsame),
            (List.cons.inj hrest).2⟩

/-- No character is written with a line feed. -/
theorem newline_notMem_escape (c : Char) : '\n' ∉ escape c := by
  -- Escape by escape; a line end itself is written with a letter.
  unfold escape
  split
  · next h => rcases h with rfl | rfl <;> decide
  split
  · decide
  next hfeed =>
  split
  · decide
  split
  · decide
  split
  · decide
  split
  · have hdigits : '\n' ∉ Nat.toDigits 16 c.toNat :=
      notMem_toDigits (fun n => Nat.digitChar_ne '\n' rfl) c.toNat
    simpa using hdigits
  · simpa using Ne.symm hfeed

/-- No escaped character begins with a quote. -/
theorem head?_escape_ne (c : Char) : ∃ d cs, escape c = d :: cs ∧ d ≠ '"' := by
  generalize hx : escape c = x
  have hc : Escapes c x := hx ▸ escapes_escape c
  cases hc with
  | plain _ h => exact ⟨c, [], rfl, h⟩
  | letter _ => exact ⟨_, _, rfl, by decide⟩
  | code => exact ⟨_, _, rfl, by decide⟩

/-! ### Texts between quotes -/

/-- A text and what follows its closing quote can be read back from the
escaped text. -/
private theorem flatMap_escape_append_inj {cs ds : List Char}
    (h : cs.flatMap escape ++ '"' :: r = ds.flatMap escape ++ '"' :: s) : cs = ds ∧ r = s := by
  -- The closing quote cannot be taken for a character of the text.
  have hend : ∀ (c : Char) (t u : List Char), escape c ++ t ≠ '"' :: u := by
    intro c t u heq
    obtain ⟨d, rest, hd, hne⟩ := head?_escape_ne c
    rw [hd] at heq
    exact hne (List.cons.inj heq).1
  -- One character at a time, since no escape is the beginning of another.
  induction cs generalizing ds with
  | nil =>
      cases ds with
      | nil => exact ⟨rfl, (List.cons.inj h).2⟩
      | cons d ds =>
          rw [List.flatMap_cons, List.append_assoc] at h
          exact absurd h.symm (hend d _ _)
  | cons c cs ih =>
      cases ds with
      | nil =>
          rw [List.flatMap_cons, List.append_assoc] at h
          exact absurd h (hend c _ _)
      | cons d ds =>
          rw [List.flatMap_cons, List.flatMap_cons, List.append_assoc, List.append_assoc] at h
          obtain ⟨rfl, htail⟩ := escape_append_inj h
          obtain ⟨rfl, hrest⟩ := ih htail
          exact ⟨rfl, hrest⟩

/-- A text between quotes in front of another text can be read back,
whatever characters it holds. -/
theorem quoted_append_inj {a b : String}
    (h : (quoted a).toList ++ r = (quoted b).toList ++ s) : a = b ∧ r = s := by
  simp only [quoted, String.toList_ofList, List.cons_append, List.append_assoc, List.nil_append,
    List.cons.injEq, true_and] at h
  obtain ⟨htext, hrest⟩ := flatMap_escape_append_inj h
  exact ⟨String.toList_inj.1 htext, hrest⟩

/-- A text between quotes stays on its line. -/
theorem newline_notMem_quoted (a : String) : '\n' ∉ (quoted a).toList := by
  simp only [quoted, String.toList_ofList, List.mem_append, List.mem_cons, List.mem_flatMap,
    List.not_mem_nil, or_false, not_or, not_exists, not_and]
  exact ⟨⟨by decide, fun c _ => newline_notMem_escape c⟩, by decide⟩

end CDeclarations.Text
