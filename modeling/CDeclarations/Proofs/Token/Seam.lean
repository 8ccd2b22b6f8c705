import CDeclarations.Token.Cursor
import Mathlib.Data.List.Find

/-!
# `CDeclarations.Proofs.Token.Seam`: no token reaches over a blank line

A text that ends with two line feeds may be followed by any other text:
the tokens read from it stay the same. One line feed would not do, for
a backslash before it joins the lines.

* `Text.EndsBlank`: the text is a line feed or ends with two of them.
  Every tail of it that is not empty is such a text again, so that it
  is the invariant of reading on.
* `Reading.longest_append`, `Reading.longest_rest_ne_nil`: a stretch
  that ends inside such a text is the same when the text goes on.
* `Cursor.next_append`: a valid token is the same in all three modes.
* `Cursor.next_append_of_none`: where the text has no token left, the
  next one is that of the text behind it.
-/

set_option autoImplicit false

namespace CDeclarations

/-! ### Texts that end with a blank line -/

namespace Text

/-- The text is a line feed, or ends with two of them. -/
def EndsBlank (text : List Char) : Prop :=
  text = ['\n'] ∨ ['\n', '\n'] <:+ text

variable {c : Char} {text after rest : List Char}

/-- A text that ends blank is not empty. -/
theorem EndsBlank.ne_nil (h : EndsBlank text) : text ≠ [] := by
  rintro rfl
  rcases h with h | h
  · cases h
  · exact absurd (List.suffix_nil.1 h) (List.cons_ne_nil _ _)

/-- A tail that is not empty ends in the same way. -/
theorem EndsBlank.suffix (h : EndsBlank text) (hs : rest <:+ text) (hne : rest ≠ []) :
    EndsBlank rest := by
  rcases h with rfl | h
  · rcases List.suffix_cons_iff.1 hs with rfl | hs
    · exact Or.inl rfl
    · exact absurd (List.suffix_nil.1 hs) hne
  -- Both are the end of the text, and one of them is the longer.
  · rcases List.suffix_or_suffix_of_suffix h hs with h | h
    · exact Or.inr h
    · -- The tail is one of the two line feeds, or both.
      rcases List.suffix_cons_iff.1 h with rfl | h
      · exact Or.inr List.suffix_rfl
      rcases List.suffix_cons_iff.1 h with rfl | h
      · exact Or.inl rfl
      · exact absurd (List.suffix_nil.1 h) hne

/-- Behind another character than a line feed there are two of them. -/
theorem EndsBlank.suffix_of_ne (h : EndsBlank (c :: after)) (hc : c ≠ '\n') :
    ['\n', '\n'] <:+ after := by
  rcases h with h | h
  · exact absurd (List.cons.inj h).1 hc
  · rcases List.suffix_cons_iff.1 h with h | h
    · exact absurd (List.cons.inj h).1.symm hc
    · exact h

/-- Behind any character but the line feed the text still ends blank. -/
theorem EndsBlank.tail_of_ne (h : EndsBlank (c :: after)) (hc : c ≠ '\n') : EndsBlank after :=
  Or.inr (h.suffix_of_ne hc)

/-- What stands directly behind another character than a line feed is
seen whether the text goes on or not. -/
theorem EndsBlank.head?_append (h : EndsBlank (c :: after)) (hc : c ≠ '\n') (more : List Char) :
    (after ++ more).head? = after.head? := by
  obtain ⟨d, rest, rfl⟩ := List.exists_cons_of_ne_nil (h.tail_of_ne hc).ne_nil
  rfl

/-- A text that ends blank has a line feed. -/
theorem EndsBlank.mem (h : EndsBlank text) : '\n' ∈ text := by
  rcases h with rfl | h
  · exact List.mem_singleton_self _
  · exact h.subset (List.mem_cons_self ..)

/-- The last character is a line feed. -/
theorem EndsBlank.eq_of_singleton (h : EndsBlank [c]) : c = '\n' :=
  Decidable.byContradiction fun hc => (h.tail_of_ne hc).ne_nil rfl

end Text

open Text (EndsBlank)

/-! ### Readings -/

namespace Reading

variable {σ : Type} {rule : σ → Char → List Char → Option σ} {s : σ} {text : List Char}

/-- The reading with more text left behind it. -/
def extend (r : Reading σ) (more : List Char) : Reading σ :=
  { r with rest := r.rest ++ more }

/-- What a reading leaves of a text that ends blank ends blank. -/
theorem endsBlank_rest (h : EndsBlank text) (hrest : (longest rule s text).rest ≠ []) :
    EndsBlank (longest rule s text).rest :=
  h.suffix ⟨_, longest_read_append_rest rule text s⟩ hrest

/-- The character that a reading stops at is refused. -/
theorem rule_of_rest_eq_cons {c : Char} {after : List Char}
    (h : (longest rule s text).rest = c :: after) :
    rule (longest rule s text).state c after = none := by
  induction text generalizing s with
  | nil => cases h
  | cons d text ih =>
      rw [longest_cons] at h ⊢
      cases hs : rule s d text with
      | none =>
          rw [hs] at h
          cases h
          exact hs
      | some s' =>
          rw [hs] at h
          exact ih h

/-- A reading that ends before the text does is the same where the text
goes on, if its rule does not look over the end. -/
theorem longest_append {more : List Char}
    (hrule : ∀ s c after, EndsBlank (c :: after) → rule s c (after ++ more) = rule s c after)
    (h : EndsBlank text) (hrest : (longest rule s text).rest ≠ []) :
    longest rule s (text ++ more) = (longest rule s text).extend more := by
  induction text generalizing s with
  | nil => exact absurd rfl h.ne_nil
  | cons c after ih =>
      rw [List.cons_append, longest_cons, longest_cons, hrule s c after h]
      rw [longest_cons] at hrest
      cases hs : rule s c after with
      | none => rfl
      | some s' =>
          rw [hs] at hrest
          -- A reading that takes the last character leaves nothing.
          have hafter : after ≠ [] := by
            rintro rfl
            exact hrest rfl
          have hblank := h.suffix (List.suffix_cons c after) hafter
          simp only [ih hblank hrest, extend]

/-- A reading that takes the whole text goes on into the text behind
it. -/
theorem longest_append_of_rest_eq_nil {more : List Char}
    (hrule : ∀ s c after, EndsBlank (c :: after) → rule s c (after ++ more) = rule s c after)
    (h : text = [] ∨ EndsBlank text) (hrest : (longest rule s text).rest = []) :
    longest rule s (text ++ more) =
      ⟨text ++ (longest rule (longest rule s text).state more).read,
        (longest rule (longest rule s text).state more).state,
        (longest rule (longest rule s text).state more).rest⟩ := by
  induction text generalizing s with
  | nil => rfl
  | cons c after ih =>
      have hblank := h.resolve_left (List.cons_ne_nil c after)
      rw [List.cons_append, longest_cons, longest_cons, hrule s c after hblank]
      rw [longest_cons] at hrest
      -- All of the first text is read, so the rule takes each of its characters.
      cases hs : rule s c after with
      | none =>
          rw [hs] at hrest
          exact absurd hrest (List.cons_ne_nil c after)
      | some s' =>
          rw [hs] at hrest
          have hafter : after = [] ∨ EndsBlank after :=
            (Decidable.em (after = [])).imp_right (hblank.suffix (List.suffix_cons c after))
          simp only [ih hafter hrest, List.cons_append]

/-- A reading ends before the text does where the rule leaves no good
state with the last line feed. The invariant `I` may look at the text
left. -/
theorem longest_rest_ne_nil (I : σ → List Char → Prop) (good : σ → Prop)
    (hstep : ∀ s c after s', EndsBlank (c :: after) → after ≠ [] → I s (c :: after) →
      rule s c after = some s' → I s' after)
    (hlast : ∀ s s', I s ['\n'] → rule s '\n' [] = some s' → ¬good s')
    (h : EndsBlank text) (hI : I s text) (hgood : good (longest rule s text).state) :
    (longest rule s text).rest ≠ [] := by
  induction text generalizing s with
  | nil => exact absurd rfl h.ne_nil
  | cons c after ih =>
      rw [longest_cons] at hgood ⊢
      cases hs : rule s c after with
      | none => exact List.cons_ne_nil c after
      | some s' =>
          rw [hs] at hgood
          cases after with
          | nil =>
              -- The last line feed is taken, and no good state comes of it.
              obtain rfl := h.eq_of_singleton
              exact absurd hgood (hlast s s' hI hs)
          | cons d after =>
              have hblank := h.suffix (List.suffix_cons c (d :: after)) (List.cons_ne_nil d after)
              exact ih hblank (hstep s c (d :: after) s' h (List.cons_ne_nil d after) hI hs) hgood

/-- A rule that refuses the last line feed ends before the text
does. -/
theorem longest_rest_ne_nil_of_refused (hlast : ∀ s, rule s '\n' [] = none) (h : EndsBlank text) :
    (longest rule s text).rest ≠ [] := by
  refine longest_rest_ne_nil (fun _ _ => True) (fun _ => True) ?_ ?_ h trivial trivial
  · exact fun _ _ _ _ _ _ _ _ => trivial
  · intro s s' _ hs
    rw [hlast s] at hs
    cases hs

end Reading

/-! ### Lexemes -/

namespace Lexeme

/-- The lexeme with more text left behind it. -/
def extend (x : Lexeme) (more : List Char) : Lexeme :=
  { x with rest := x.rest ++ more }

/-- The lexeme found in `text` ends before the text does, and is the
same where the text goes on with `more`. -/
def Settled (find : List Char → Lexeme) (text more : List Char) : Prop :=
  (find text).rest ≠ [] ∧ find (text ++ more) = (find text).extend more

variable {c : Char} {text after body more : List Char}

/-- A valid comment is closed before the end of the text. -/
theorem settled_blockComment (h : EndsBlank body) (hvalid : (blockComment body).kind ≠ .invalid) :
    Settled blockComment body more := by
  have hclosed := closed_of_blockComment_valid hvalid
  -- A star is taken for the closing mark only where the slash is behind it.
  have hrest : (Reading.longest commentRule .inside body).rest ≠ [] := by
    refine Reading.longest_rest_ne_nil
      (fun s text => s = .closing → text.head? = some '/') (· = .closed) ?_ ?_ h nofun hclosed
    · intro s c after s' _ _ hI hs hclosing
      subst hclosing
      cases s with
      | inside =>
          simp only [commentRule, Option.some.injEq] at hs
          split at hs
          · next hstar => exact hstar.2
          · cases hs
      | closing => cases hs
      | closed => cases hs
    · intro s s' hI hs
      cases s with
      | inside =>
          simp [commentRule] at hs
          simp [← hs]
      | closing => exact absurd (hI rfl) (by simp)
      | closed => cases hs
  have happend : Reading.longest commentRule .inside (body ++ more) =
      (Reading.longest commentRule .inside body).extend more := by
    refine Reading.longest_append (fun s c after hblank => ?_) h hrest
    cases s with
    | inside =>
        by_cases hc : c = '\n'
        · subst hc
          rfl
        · simp only [commentRule, hblank.head?_append hc]
    | closing => rfl
    | closed => rfl
  refine ⟨hrest, ?_⟩
  unfold blockComment
  rw [happend]
  rfl

/-- A line comment ends before the line feed. -/
theorem settled_lineComment (h : EndsBlank text) : Settled lineComment text more := by
  have hrest : (Reading.span (· ≠ '\n') text).rest ≠ [] :=
    Reading.longest_rest_ne_nil_of_refused (fun _ => rfl) h
  have happend : Reading.span (· ≠ '\n') (text ++ more) =
      (Reading.span (· ≠ '\n') text).extend more :=
    Reading.longest_append (fun _ _ _ _ => rfl) h hrest
  refine ⟨hrest, ?_⟩
  unfold lineComment
  rw [happend]
  rfl

/-- A literal that is closed ends before the last line feed, which
closes none. -/
theorem settled_quoted {quote : Char} {kind : TokenKind} (h : EndsBlank body)
    (hvalid : (quoted quote kind body).kind ≠ .invalid) :
    Settled (quoted quote kind) body more := by
  have hclosed := closed_of_quoted_valid hvalid
  have hrest : (Reading.longest (quoteRule quote) .inside body).rest ≠ [] := by
    -- No state of a literal is closed by a line feed, so that nothing need be known of it.
    refine Reading.longest_rest_ne_nil (fun _ _ => True) (· = .closed) ?_ ?_ h trivial hclosed
    · exact fun _ _ _ _ _ _ _ _ => trivial
    · intro s s' _ hs hs'
      subst hs'
      cases s with
      | inside => cases hs
      | escaped => cases hs
      | closed => cases hs
  have happend : Reading.longest (quoteRule quote) .inside (body ++ more) =
      (Reading.longest (quoteRule quote) .inside body).extend more :=
    Reading.longest_append (fun s c after _ => by cases s <;> rfl) h hrest
  refine ⟨hrest, ?_⟩
  unfold quoted
  rw [happend]
  rfl

/-- A valid character literal is closed before the end of the text. -/
theorem settled_charLiteral (h : EndsBlank body) (hvalid : (charLiteral body).kind ≠ .invalid) :
    Settled charLiteral body more := by
  obtain ⟨hlength, heq⟩ := charLiteral_of_valid hvalid
  rw [heq] at hvalid
  obtain ⟨hrest, happend⟩ : Settled (quoted '\'' .charLiteral) body more :=
    settled_quoted h hvalid
  refine ⟨by rw [heq]; exact hrest, ?_⟩
  rw [heq, charLiteral, happend]
  exact if_neg hlength

/-- An identifier ends before the line feed. -/
theorem settled_identifier (h : EndsBlank text) : Settled identifier text more := by
  have hrest : (Reading.span isIdentifierPart text).rest ≠ [] :=
    Reading.longest_rest_ne_nil_of_refused (fun _ => rfl) h
  have happend : Reading.span isIdentifierPart (text ++ more) =
      (Reading.span isIdentifierPart text).extend more :=
    Reading.longest_append (fun _ _ _ _ => rfl) h hrest
  refine ⟨hrest, ?_⟩
  unfold identifier
  rw [happend]
  rfl

/-- A number ends before the line feed. -/
theorem settled_number (h : EndsBlank (c :: after)) (hc : c ≠ '\n') :
    Settled number (c :: after) more := by
  -- The base mark is among the first two characters.
  have hhex : Numeral.isHexMarked (c :: after ++ more) = Numeral.isHexMarked (c :: after) := by
    obtain ⟨d, rest, rfl⟩ := List.exists_cons_of_ne_nil (h.tail_of_ne hc).ne_nil
    show Numeral.isHexMarked (c :: d :: (rest ++ more)) = Numeral.isHexMarked (c :: d :: rest)
    unfold Numeral.isHexMarked
    split <;> simp_all
  have hrest : (Reading.longest (Numeral.runRule (Numeral.isHexMarked (c :: after))) ' '
      (c :: after)).rest ≠ [] :=
    Reading.longest_rest_ne_nil_of_refused (fun _ => rfl) h
  have happend : Reading.longest (Numeral.runRule (Numeral.isHexMarked (c :: after))) ' '
      (c :: after ++ more) = (Reading.longest (Numeral.runRule
        (Numeral.isHexMarked (c :: after))) ' ' (c :: after)).extend more :=
    Reading.longest_append (fun _ _ _ _ => rfl) h hrest
  refine ⟨hrest, ?_⟩
  unfold number
  rw [hhex, happend]
  rfl

/-- No operator holds a line feed, so that none reaches over the end. -/
theorem settled_punctuator (h : EndsBlank (c :: after)) (hc : c ≠ '\n') :
    Settled (punctuator c) after more := by
  have hfeed : ∀ op ∈ longOperators, '\n' ∉ op := by decide
  -- The same operators match, since none has the line feed that ends the text.
  have hprefix : ∀ op ∈ longOperators,
      op.isPrefixOf (c :: (after ++ more)) = op.isPrefixOf (c :: after) := by
    intro op hop
    rw [Bool.eq_iff_iff, List.isPrefixOf_iff_prefix, List.isPrefixOf_iff_prefix]
    constructor
    · intro hlong
      rcases List.prefix_or_prefix_of_prefix hlong (List.prefix_append (c :: after) more) with
        hshort | hover
      · exact hshort
      · -- An operator that reaches over the end holds the last line feed.
        exact absurd (hover.subset h.mem) (hfeed op hop)
    · exact fun hshort => hshort.trans (List.prefix_append (c :: after) more)
  have hfind : longOperators.find? (·.isPrefixOf (c :: (after ++ more))) =
      longOperators.find? (·.isPrefixOf (c :: after)) :=
    List.find?_congr hprefix
  unfold Settled punctuator
  rw [hfind]
  cases hop : longOperators.find? (·.isPrefixOf (c :: after)) with
  | none => exact ⟨(h.tail_of_ne hc).ne_nil, rfl⟩
  | some op =>
      have hmem := List.mem_of_find?_eq_some hop
      have hsome := List.find?_some hop
      obtain ⟨rest, hrest⟩ := List.isPrefixOf_iff_prefix.1 hsome
      have hdrop : (c :: after).drop op.length = rest := by rw [← hrest, List.drop_left]
      have hne : rest ≠ [] := by
        rintro rfl
        rw [List.append_nil] at hrest
        exact hfeed op hmem (hrest ▸ h.mem)
      have hmore : (c :: (after ++ more)).drop op.length = rest ++ more := by
        rw [← List.cons_append, ← hrest, List.append_assoc, List.drop_left]
      refine ⟨?_, ?_⟩
      · show (c :: after).drop op.length ≠ []
        rwa [hdrop]
      · show Lexeme.mk _ _ _ ((c :: (after ++ more)).drop op.length) =
          Lexeme.mk _ _ _ ((c :: after).drop op.length ++ more)
        rw [hdrop, hmore]

/-- In normal mode a valid lexeme is settled. -/
theorem settled_ofNormal (h : EndsBlank (c :: after)) (hc : c ≠ '\n')
    (hvalid : (ofNormal c after).kind ≠ .invalid) : Settled (ofNormal c) after more := by
  have hafter := h.tail_of_ne hc
  have hhead := h.head?_append hc more
  unfold Settled ofNormal at *
  rw [hhead]
  split
  · next hcomment =>
    obtain ⟨d, body, rfl⟩ := List.exists_cons_of_ne_nil hafter.ne_nil
    -- The character behind the slash is a star, and the body behind it ends blank, too.
    have hd : d ≠ '\n' := by
      rintro rfl
      simp at hcomment
    rw [if_pos hcomment] at hvalid
    exact settled_blockComment (hafter.tail_of_ne hd) hvalid
  next hblock =>
  rw [if_neg hblock] at hvalid
  split
  · exact settled_lineComment h
  next hline =>
  rw [if_neg hline] at hvalid
  split
  · next hquote =>
    rw [if_pos hquote] at hvalid
    exact settled_quoted hafter hvalid
  next hstring =>
  rw [if_neg hstring] at hvalid
  split
  · next hquote =>
    rw [if_pos hquote] at hvalid
    exact settled_charLiteral hafter hvalid
  split
  · exact settled_number h hc
  split
  · exact settled_identifier h
  · exact settled_punctuator h hc

/-- The name of a file ends before the line feed. -/
theorem settled_fileName {close : Char} (h : EndsBlank after) :
    Settled (fileName c close) after more := by
  have hrest : (Reading.longest (nameRule close) false after).rest ≠ [] := by
    refine Reading.longest_rest_ne_nil_of_refused (fun closed => ?_) h
    cases closed <;> rfl
  have happend : Reading.longest (nameRule close) false (after ++ more) =
      (Reading.longest (nameRule close) false after).extend more :=
    Reading.longest_append (fun _ _ _ _ => rfl) h hrest
  refine ⟨hrest, ?_⟩
  unfold fileName
  rw [happend]
  rfl

/-- Where a file name is due, a valid lexeme is settled. -/
theorem settled_ofIncludeName (h : EndsBlank (c :: after))
    (hvalid : (ofIncludeName c after).kind ≠ .invalid) :
    Settled (ofIncludeName c) after more := by
  unfold Settled ofIncludeName at *
  split
  · next hopen => exact settled_fileName (h.tail_of_ne (by rw [hopen]; decide))
  next hangle =>
  rw [if_neg hangle] at hvalid
  split
  · next hopen => exact settled_fileName (h.tail_of_ne (by rw [hopen]; decide))
  next hquote =>
  rw [if_neg hquote] at hvalid
  exact absurd rfl hvalid

/-- How many characters the body of a definition may still owe to a
backslash, with the text left: a joint takes one line feed only, so
that the second of the last two is never owed. -/
def Owes (s : BodyState) (text : List Char) : Prop :=
  s.owed = 0 ∨ (s.owed = 1 ∧ 2 ≤ text.length) ∨ (s.owed = 2 ∧ 3 ≤ text.length)

/-- One character of a body keeps what is owed below what is left. -/
theorem Owes.step {s s' : BodyState} (h : EndsBlank (c :: after)) (howes : Owes s (c :: after))
    (hs : bodyRule s c after = some s') : Owes s' after := by
  unfold bodyRule at hs
  split at hs
  · next howed =>
    cases hs
    rcases howes with h0 | ⟨h1, -⟩ | ⟨h2, hlength⟩
    · exact absurd h0 howed
    · exact Or.inl (by simp [h1])
    · exact Or.inr (Or.inl ⟨by simp [h2], by simpa using hlength⟩)
  next howed =>
  rw [Decidable.not_not] at howed
  split at hs
  · cases hs
  next hc =>
  have hfeeds := h.suffix_of_ne hc
  have hlength : 2 ≤ after.length := hfeeds.length_le
  split at hs
  · split at hs
    · cases hs
      exact Or.inr (Or.inl ⟨rfl, hlength⟩)
    split at hs
    · next hjoint =>
      cases hs
      refine Or.inr (Or.inr ⟨rfl, Nat.lt_of_le_of_ne hlength fun hshort => ?_⟩)
      -- The two characters taken would be the two line feeds.
      have hall : after.take 2 = after := List.take_of_length_le (by omega)
      have heq := hfeeds.eq_of_length hshort
      rw [hall, ← heq] at hjoint
      cases hjoint
    · cases hs
      cases s.quote with
      | none => exact Or.inl rfl
      | some quote => exact Or.inr (Or.inl ⟨rfl, hlength⟩)
  split at hs
  · cases hs
  · cases hs
    exact Or.inl howed

/-- The body of a definition is settled, and may take the first of two
last line feeds but not both. -/
theorem settled_ofDefineBody (h : EndsBlank text) : Settled ofDefineBody text more := by
  have hrest : (Reading.longest bodyRule ⟨none, 0⟩ text).rest ≠ [] := by
    refine Reading.longest_rest_ne_nil Owes (fun _ => True) ?_ ?_ h (Or.inl rfl) trivial
    · exact fun s c after s' hblank _ howes hs => howes.step hblank hs
    · intro s s' howes hs
      -- Nothing can be owed to the one character left, and a line feed ends a body.
      have howed : s.owed = 0 := by
        rcases howes with h0 | ⟨-, hlength⟩ | ⟨-, hlength⟩
        · exact h0
        · simp at hlength
        · simp at hlength
      simp [bodyRule, howed] at hs
  have happend : Reading.longest bodyRule ⟨none, 0⟩ (text ++ more) =
      (Reading.longest bodyRule ⟨none, 0⟩ text).extend more := by
    refine Reading.longest_append (fun s c after hblank => ?_) h hrest
    unfold bodyRule
    by_cases hc : c = '\n'
    · simp only [hc, if_true]
    · -- A joint looks at two characters, and two line feeds are left behind this one.
      have htake : (after ++ more).take 2 = after.take 2 :=
        List.take_append_of_le_length (hblank.suffix_of_ne hc).length_le
      rw [hblank.head?_append hc, htake]
  refine ⟨hrest, ?_⟩
  unfold ofDefineBody
  rw [happend]
  rfl

/-! ### Blanks -/

/-- Blanks before a text that ends blank: either a token follows, and
they are the same where the text goes on, or they take the whole text
and go on into what follows. -/
theorem blanks_append (h : EndsBlank text) (more : List Char) :
    ((blanks text).rest ≠ [] ∧ blanks (text ++ more) = (blanks text).extend more) ∨
      ((blanks text).rest = [] ∧
        blanks (text ++ more) = ⟨text ++ (blanks more).read, (), (blanks more).rest⟩) := by
  -- The rule looks one character ahead, and in front of the line feed it need not.
  have hrule : ∀ (s : Unit) (c : Char) (after : List Char), EndsBlank (c :: after) →
      (if Text.isTokenBlank c || (c = '\\' && (after ++ more).head? = some '\n') then some ()
        else none) =
      if Text.isTokenBlank c || (c = '\\' && after.head? = some '\n') then some () else none := by
    intro s c after hblank
    by_cases hc : c = '\n'
    · subst hc
      rfl
    · rw [hblank.head?_append hc]
  by_cases hrest : (blanks text).rest = []
  · exact Or.inr ⟨hrest, Reading.longest_append_of_rest_eq_nil hrule (Or.inr h) hrest⟩
  · exact Or.inl ⟨hrest, Reading.longest_append hrule h hrest⟩

/-- Blanks that stay on the line end before the text does. -/
theorem lineBlanks_append (h : EndsBlank text) (more : List Char) :
    (lineBlanks text).rest ≠ [] ∧ lineBlanks (text ++ more) = (lineBlanks text).extend more := by
  have hrest : (lineBlanks text).rest ≠ [] :=
    Reading.longest_rest_ne_nil_of_refused (fun _ => rfl) h
  exact ⟨hrest, Reading.longest_append (fun _ _ _ _ => rfl) h hrest⟩

/-- What stands behind blanks is no blank. -/
theorem ne_of_blanks_rest {c : Char} {after : List Char} (h : (blanks text).rest = c :: after) :
    c ≠ '\n' := by
  rintro rfl
  cases Reading.rule_of_rest_eq_cons h

end Lexeme

/-! ### Tokens -/

namespace Cursor

/-- The cursor with more text behind what is unread. -/
def extend (c : Cursor) (more : List Char) : Cursor :=
  { c with unread := c.unread ++ more }

variable {c d : Cursor} {token : Token} {mode : TokenMode}

/-- A settled lexeme is taken as the same token where the text goes
on, and leaves a text that ends blank. -/
theorem take_of_settled {start : Cursor} {find : List Char → Lexeme} {whole text more : List Char}
    (hblank : EndsBlank whole) (hread : (find text).rest <:+ whole)
    (h : Lexeme.Settled find text more) (htake : start.take (find text) = (some token, d)) :
    EndsBlank d.unread ∧ (start.extend more).take (find (text ++ more)) =
      (some token, d.extend more) := by
  obtain ⟨hrest, heq⟩ := h
  obtain ⟨rfl, rfl⟩ := take_eq_iff.1 htake
  rw [heq]
  exact ⟨hblank.suffix hread hrest, rfl⟩

/-- A taken token is of the kind of its lexeme. -/
theorem kind_of_take {start : Cursor} {x : Lexeme} (h : start.take x = (some token, d)) :
    token.kind = x.kind := by
  obtain ⟨rfl, -⟩ := take_eq_iff.1 h
  rfl

/-- In normal mode a valid token before a blank end is the same where the
text goes on, and leaves a text that ends blank. -/
theorem next_normal_append (h : EndsBlank c.unread) (hnext : c.next .normal = (some token, d))
    (hvalid : token.kind ≠ .invalid) (more : List Char) :
    EndsBlank d.unread ∧ (c.extend more).next .normal = (some token, d.extend more) := by
  obtain ⟨ch, after, hrest, htake⟩ := next_normal_eq_some_iff.1 hnext
  have hne : (Lexeme.blanks c.unread).rest ≠ [] := by
    rw [hrest]
    exact List.cons_ne_nil ch after
  -- There is a token behind the blanks, so that they end before the text does.
  obtain ⟨-, happend⟩ := (Lexeme.blanks_append h more).resolve_right (hne ·.1)
  have hblank : EndsBlank (ch :: after) := hrest ▸ Reading.endsBlank_rest h hne
  have hsuffix : (Lexeme.ofNormal ch after).rest <:+ ch :: after :=
    ⟨_, Lexeme.ofNormal_read_append_rest ch after⟩
  have hsettled : Lexeme.Settled (Lexeme.ofNormal ch) after more :=
    Lexeme.settled_ofNormal hblank (Lexeme.ne_of_blanks_rest hrest) (kind_of_take htake ▸ hvalid)
  obtain ⟨hends, hagain⟩ := take_of_settled hblank hsuffix hsettled htake
  refine ⟨hends, next_normal_eq_some_iff.2 ⟨ch, after ++ more, ?_, ?_⟩⟩
  · rw [extend, happend, Reading.extend, hrest, List.cons_append]
  · rw [extend, happend]
    exact hagain

/-- So is a valid file name, and the blanks before it end before the line
feed. -/
theorem next_includeName_append (h : EndsBlank c.unread)
    (hnext : c.next .includeName = (some token, d)) (hvalid : token.kind ≠ .invalid)
    (more : List Char) :
    EndsBlank d.unread ∧ (c.extend more).next .includeName = (some token, d.extend more) := by
  obtain ⟨hne, happend⟩ := Lexeme.lineBlanks_append h more
  obtain ⟨ch, after, hrest, htake⟩ := next_includeName_eq_some_iff.1 hnext
  have hblank : EndsBlank (ch :: after) := hrest ▸ Reading.endsBlank_rest h hne
  have hsuffix : (Lexeme.ofIncludeName ch after).rest <:+ ch :: after :=
    ⟨_, Lexeme.ofIncludeName_read_append_rest ch after⟩
  have hsettled : Lexeme.Settled (Lexeme.ofIncludeName ch) after more :=
    Lexeme.settled_ofIncludeName hblank (kind_of_take htake ▸ hvalid)
  obtain ⟨hends, hagain⟩ := take_of_settled hblank hsuffix hsettled htake
  refine ⟨hends, next_includeName_eq_some_iff.2 ⟨ch, after ++ more, ?_, ?_⟩⟩
  · rw [extend, happend, Reading.extend, hrest, List.cons_append]
  · rw [extend, happend]
    exact hagain

/-- The body of a definition is the same wherever the text goes on. -/
theorem next_defineBody_append (h : EndsBlank c.unread)
    (hnext : c.next .defineBody = (some token, d)) (more : List Char) :
    EndsBlank d.unread ∧ (c.extend more).next .defineBody = (some token, d.extend more) := by
  obtain ⟨hne, happend⟩ := Lexeme.lineBlanks_append h more
  have hblank := Reading.endsBlank_rest h hne
  have hsuffix : (Lexeme.ofDefineBody (Lexeme.lineBlanks c.unread).rest).rest <:+
      (Lexeme.lineBlanks c.unread).rest :=
    ⟨_, Lexeme.ofDefineBody_read_append_rest _⟩
  have hsettled : Lexeme.Settled Lexeme.ofDefineBody (Lexeme.lineBlanks c.unread).rest more :=
    Lexeme.settled_ofDefineBody hblank
  rw [next_defineBody, extend, happend]
  exact take_of_settled hblank hsuffix hsettled hnext

/-- A valid token before a blank end is the same where the text goes
on, and leaves a text that ends blank. -/
theorem next_append (h : EndsBlank c.unread) (hnext : c.next mode = (some token, d))
    (hvalid : token.kind ≠ .invalid) (more : List Char) :
    EndsBlank d.unread ∧ (c.extend more).next mode = (some token, d.extend more) := by
  cases mode with
  | normal => exact next_normal_append h hnext hvalid more
  | includeName => exact next_includeName_append h hnext hvalid more
  | defineBody => exact next_defineBody_append h hnext more

/-- Where a text that ends blank has no token left, the next one is
that of the text behind it. -/
theorem next_append_of_none (h : EndsBlank c.unread) (hnext : c.next mode = (none, d))
    (more : List Char) :
    mode = .normal ∧ (c.extend more).next mode =
      (Cursor.mk more (c.position.past c.unread)).next .normal := by
  cases mode with
  | normal =>
      refine ⟨rfl, ?_⟩
      obtain ⟨hrest, -⟩ := next_normal_eq_none_iff.1 hnext
      obtain ⟨-, happend⟩ := (Lexeme.blanks_append h more).resolve_left (·.1 hrest)
      simp only [next, nextNormal]
      rw [extend, happend]
      simp only [past, Position.past_append]
  | includeName =>
      -- Blanks do not take the line feed, so that there is a token, if an invalid one.
      obtain ⟨hne, -⟩ := Lexeme.lineBlanks_append h more
      exact absurd (next_includeName_eq_none_iff.1 hnext).1 hne
  | defineBody => cases hnext

end Cursor

end CDeclarations
