/-!
# `CDeclarations.Text.Reading`: the longest stretch a rule accepts

A lexical class is given by a rule that says, from the state reached
so far, whether one more character belongs to the stretch and which
state follows. The rule may look at the text behind the character, so
that a two-character closer can be told from a lone first character.
`Reading.longest` reads while the rule accepts.

* `Reading.longest_read_append_rest`: what is read and what is left
  make up the text; nothing is lost, repeated or altered.
* `Reading.longest_cons`: the step equation, which the accumulator of
  the tail-recursive loop hides.
* `Reading.span_append`: a stretch of one class of characters is told by
  the character that stops it.
-/

set_option autoImplicit false

namespace CDeclarations

/-- The outcome of reading a stretch: the characters read, the state
reached with them, and the text left. -/
structure Reading (σ : Type) where
  read : List Char
  state : σ
  rest : List Char

namespace Reading

variable {σ : Type}

/-- Reads on from state `s`; `taken` holds what is already read, the
latest character first. -/
private def loop (rule : σ → Char → List Char → Option σ) (s : σ) (taken : List Char) :
    List Char → Reading σ
  | [] => ⟨taken.reverse, s, []⟩
  | c :: after =>
      match rule s c after with
      | some s' => loop rule s' (c :: taken) after
      | none => ⟨taken.reverse, s, c :: after⟩

/-- Reads the longest stretch whose characters the rule accepts one
after another, beginning in state `s`. -/
def longest (rule : σ → Char → List Char → Option σ) (s : σ) (text : List Char) : Reading σ :=
  loop rule s [] text

/-- What was taken before stays in front of the rest, reversed as it was
collected. -/
private theorem loop_eq (rule : σ → Char → List Char → Option σ) (text : List Char) :
    ∀ (s : σ) (taken : List Char),
      loop rule s taken text =
        ⟨taken.reverse ++ (longest rule s text).read, (longest rule s text).state,
          (longest rule s text).rest⟩ := by
  induction text with
  | nil => intro s taken; simp [longest, loop]
  | cons c after ih =>
      intro s taken
      simp only [longest, loop]
      cases rule s c after with
      | none => simp
      | some s' => simp [ih s' (c :: taken), ih s' [c]]

/-- Nothing is read from an empty text. -/
@[simp] theorem longest_nil (rule : σ → Char → List Char → Option σ) (s : σ) :
    longest rule s [] = ⟨[], s, []⟩ := rfl

/-- One step of reading: an accepted character is read and the reading
goes on behind it; a refused one ends the stretch. -/
theorem longest_cons (rule : σ → Char → List Char → Option σ) (s : σ) (c : Char)
    (after : List Char) :
    longest rule s (c :: after) =
      match rule s c after with
      | some s' =>
          ⟨c :: (longest rule s' after).read, (longest rule s' after).state,
            (longest rule s' after).rest⟩
      | none => ⟨[], s, c :: after⟩ := by
  rw [longest, loop]
  cases rule s c after with
  | none => rfl
  | some s' => simp [loop_eq]

/-- A character the rule takes is read before the rest. -/
theorem longest_cons_of_some {rule : σ → Char → List Char → Option σ} {s s' : σ} {c : Char}
    {after : List Char} (h : rule s c after = some s') :
    longest rule s (c :: after) =
      ⟨c :: (longest rule s' after).read, (longest rule s' after).state,
        (longest rule s' after).rest⟩ := by
  rw [longest_cons, h]

/-- A character the rule refuses ends the reading. -/
theorem longest_cons_of_none {rule : σ → Char → List Char → Option σ} {s : σ} {c : Char}
    {after : List Char} (h : rule s c after = none) :
    longest rule s (c :: after) = ⟨[], s, c :: after⟩ := by
  rw [longest_cons, h]

/-- What is read and what is left make up the text. -/
theorem longest_read_append_rest (rule : σ → Char → List Char → Option σ) (text : List Char) :
    ∀ s : σ, (longest rule s text).read ++ (longest rule s text).rest = text := by
  induction text with
  | nil => intro s; rfl
  | cons c after ih =>
      intro s
      rw [longest_cons]
      cases rule s c after with
      | none => rfl
      | some s' => simp [ih s']

/-- Reads the longest stretch of characters in `p`. -/
def span (p : Char → Bool) (text : List Char) : Reading Unit :=
  longest (fun _ c _ => if p c then some () else none) () text

/-- A span reads the characters of its class at the front. -/
@[simp] theorem span_read (p : Char → Bool) (text : List Char) :
    (span p text).read = text.takeWhile p := by
  induction text with
  | nil => rfl
  | cons c after ih =>
      rw [span] at ih ⊢
      cases h : p c <;> simp [longest_cons, h, ih]

/-- A span leaves what stands behind them. -/
@[simp] theorem span_rest (p : Char → Bool) (text : List Char) :
    (span p text).rest = text.dropWhile p := by
  induction text with
  | nil => rfl
  | cons c after ih =>
      rw [span] at ih ⊢
      cases h : p c <;> simp [longest_cons, h, ih]

/-- The longest stretch of characters in `p` is one that ends before a
character that is not. -/
theorem span_append {p : Char → Bool} {before rest : List Char}
    (hbefore : ∀ c ∈ before, p c = true) (hrest : ∀ c ∈ rest.head?, p c = false) :
    span p (before ++ rest) = ⟨before, (), rest⟩ := by
  induction before with
  | nil =>
      cases rest with
      | nil => rfl
      | cons c rest => rw [List.nil_append, span, longest_cons, hrest c rfl]; rfl
  | cons c before ih =>
      have hbehind := ih fun d hd => hbefore d (List.mem_cons_of_mem c hd)
      rw [span] at hbehind
      rw [List.cons_append, span, longest_cons, hbefore c List.mem_cons_self, if_pos rfl]
      simp only [hbehind]

end Reading

end CDeclarations
