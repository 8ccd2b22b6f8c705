import CDeclarations.Token.Cursor
import Mathlib.Data.List.TakeWhile

/-!
# `CDeclarations.Proofs.Token.Tiling`: the tokens of a text tile it

The tokens of a text, read in normal mode, are cut out of it in order.
Each one's spelling stands in the text at the token's position, and
what stands before, between and behind the spellings are blanks and
backslash-newline joints alone. Invalid tokens are no exception: an
unclosed literal or a stray character is cut out like any other.

* `Text.IsGap`: a run of blanks and joints.
* `Tiles p text tokens`: the text, which begins at `p`, is cut into
  gaps and the spellings of the tokens.
* `Lexeme.exists_ofNormal_read_eq`: a lexeme reads its spelling and, in
  a line comment, the carriage returns behind it.
* `Cursor.tiles_tokens`: what is left at any cursor is tiled by the
  tokens left there.
* `Position.seek_past`: a position names one place of a text, so that
  the spelling of a token is found where its position says
  (`Tiles.seek_eq`).
-/

set_option autoImplicit false

namespace CDeclarations

/-! ### Gaps -/

namespace Text

/-- A run of blanks and backslash-newline joints, which sets tokens
apart. -/
inductive IsGap : List Char → Prop
  | nil : IsGap []
  | blank {c : Char} {cs : List Char} :
      c ∈ [' ', '\t', '\r', '\n', '\x0b', '\x0c'] → IsGap cs → IsGap (c :: cs)
  | joint {cs : List Char} : IsGap cs → IsGap ('\\' :: '\n' :: cs)

/-- Two gaps are a gap. -/
theorem IsGap.append {cs ds : List Char} (h : IsGap cs) (h' : IsGap ds) : IsGap (cs ++ ds) := by
  induction h with
  | nil => exact h'
  | blank hc _ ih => exact .blank hc ih
  | joint _ ih => exact .joint ih

/-- The blanks of normal mode are these six. -/
theorem mem_of_isTokenBlank {c : Char} (h : isTokenBlank c = true) :
    c ∈ [' ', '\t', '\r', '\n', '\x0b', '\x0c'] := by
  simp only [isTokenBlank, isLineBlank, Bool.or_eq_true, decide_eq_true_eq] at h
  rcases h with ((((rfl | rfl) | rfl) | rfl) | rfl) | rfl <;> decide

/-- Carriage returns are blanks. -/
theorem isGap_of_forall_eq {cs : List Char} (h : ∀ c ∈ cs, c = '\r') : IsGap cs := by
  induction cs with
  | nil => exact .nil
  | cons c cs ih =>
      obtain rfl : c = '\r' := h c List.mem_cons_self
      exact .blank (by decide) (ih fun d hd => h d (List.mem_cons_of_mem _ hd))

/-- Dropping the end of a text splits the text. -/
theorem exists_eq_dropEnd_append (p : Char → Bool) (cs : List Char) :
    ∃ tail, cs = dropEnd p cs ++ tail ∧ ∀ c ∈ tail, p c = true := by
  refine ⟨(cs.reverse.takeWhile p).reverse, ?_, ?_⟩
  · have h := List.takeWhile_append_dropWhile (p := p) (l := cs.reverse)
    rw [dropEnd, ← List.reverse_append, h, List.reverse_reverse]
  · intro c hc
    exact List.mem_takeWhile_imp (List.mem_reverse.1 hc)

end Text

open Text (IsGap)

/-! ### What a lexeme reads -/

namespace Lexeme

/-- The blanks before a token are a gap. -/
theorem isGap_blanks (text : List Char) : IsGap (blanks text).read := by
  induction h : text.length using Nat.strongRecOn generalizing text with
  | ind n ih =>
      subst h
      cases text with
      | nil => exact .nil
      | cons c after =>
          unfold blanks
          rw [Reading.longest_cons]
          by_cases hc : Text.isTokenBlank c = true
          · rw [hc, Bool.true_or, if_pos rfl]
            exact .blank (Text.mem_of_isTokenBlank hc) (ih _ (Nat.lt_succ_self _) after rfl)
          · rw [Bool.eq_false_iff.2 hc, Bool.false_or]
            split
            · next s hs =>
              split at hs
              · next hjoint =>
                -- A backslash is read only where the line feed behind it is read, too.
                simp only [Bool.and_eq_true, decide_eq_true_eq] at hjoint
                obtain ⟨rfl, hfeed⟩ := hjoint
                obtain ⟨rest, rfl⟩ : ∃ rest, after = '\n' :: rest := by
                  cases after with
                  | nil => cases hfeed
                  | cons d rest =>
                      obtain rfl : d = '\n' := Option.some.inj hfeed
                      exact ⟨rest, rfl⟩
                rw [Reading.longest_cons]
                exact .joint (ih _ (by simp only [List.length_cons]; omega) rest rfl)
              · cases hs
            · exact .nil

/-- Every lexeme but a line comment is spelled as it is read. -/
theorem ofNormal_text_eq_read {c : Char} {after : List Char}
    (h : ¬(c = '/' ∧ after.head? = some '/')) :
    (ofNormal c after).text = (ofNormal c after).read := by
  -- Only the line comment drops something of what it read.
  unfold ofNormal
  split
  · rfl
  split
  · rfl
  split
  · unfold charLiteral
    dsimp only
    split <;> rfl
  split
  · rfl
  split
  · rfl
  · unfold punctuator
    split <;> rfl

/-- A lexeme reads its spelling, which is not empty, and nothing else
but carriage returns. -/
theorem exists_ofNormal_read_eq (c : Char) (after : List Char) :
    ∃ returns, (ofNormal c after).read = (ofNormal c after).text ++ returns ∧
      (∀ d ∈ returns, d = '\r') ∧ (ofNormal c after).text ≠ [] := by
  by_cases h : c = '/' ∧ after.head? = some '/'
  · have hcomment : ofNormal c after = lineComment (c :: after) := by
      unfold ofNormal
      rw [if_neg (by rw [h.2]; simp), if_pos h]
    obtain ⟨returns, hread, hreturns⟩ :=
      Text.exists_eq_dropEnd_append (· = '\r') (lineComment (c :: after)).read
    rw [hcomment]
    refine ⟨returns, hread, fun d hd => of_decide_eq_true (hreturns d hd), ?_⟩
    -- The comment begins with a slash, which is no carriage return.
    intro hnil
    have hslash : c ∈ (lineComment (c :: after)).read := by
      simp [lineComment, h.1]
    have hspelled : (lineComment (c :: after)).read = returns := by
      have htext : Text.dropEnd (· = '\r') (lineComment (c :: after)).read = [] := hnil
      rw [htext, List.nil_append] at hread
      exact hread
    rw [hspelled] at hslash
    have hreturn := hreturns c hslash
    rw [h.1] at hreturn
    exact absurd hreturn (by decide)
  · have htext := ofNormal_text_eq_read h
    refine ⟨[], ?_, ?_, ?_⟩
    · rw [htext, List.append_nil]
    · intro d hd
      cases hd
    · rw [htext]
      exact ofNormal_read_ne_nil c after

end Lexeme

/-! ### Tiles -/

/-- The text, which begins at `p`, is cut into gaps and the spellings of
the tokens. Each token stands at the position of its first character
and is spelled by at least one character. -/
inductive Tiles : Position → List Char → List Token → Prop
  | gap {p : Position} {gap : List Char} : IsGap gap → Tiles p gap []
  | token {p : Position} {gap rest : List Char} {t : Token} {ts : List Token} :
      IsGap gap → t.position = p.past gap → t.text.toList ≠ [] →
      Tiles (t.position.past t.text.toList) rest ts →
      Tiles p (gap ++ t.text.toList ++ rest) (t :: ts)

/-- A gap may stand before a tiled text. -/
theorem Tiles.gap_append {p : Position} {gap text : List Char} {ts : List Token}
    (hgap : IsGap gap) (h : Tiles (p.past gap) text ts) : Tiles p (gap ++ text) ts := by
  cases h with
  | gap hgap' => exact .gap (hgap.append hgap')
  | token hgap' hposition htext hrest =>
      rw [← Position.past_append] at hposition
      rw [← List.append_assoc, ← List.append_assoc]
      exact .token (hgap.append hgap') hposition htext hrest

namespace Cursor

/-- Where the text has no token left, only blanks are left. -/
theorem isGap_of_next_normal {c d : Cursor} (h : c.next .normal = (none, d)) :
    IsGap c.unread := by
  have hgap := Lexeme.isGap_blanks c.unread
  have hblank : (Lexeme.blanks c.unread).read ++ (Lexeme.blanks c.unread).rest = c.unread :=
    Reading.longest_read_append_rest _ _ _
  obtain ⟨hrest, -⟩ := next_normal_eq_none_iff.1 h
  rw [hrest, List.append_nil] at hblank
  rwa [hblank] at hgap

/-- A token is cut out of the text behind a gap, and what is read with
it besides its spelling is a gap again. -/
theorem cut_next_normal {c d : Cursor} {t : Token} (h : c.next .normal = (some t, d)) :
    ∃ gap returns, IsGap gap ∧ IsGap returns ∧ t.text.toList ≠ [] ∧
      c.unread = gap ++ t.text.toList ++ (returns ++ d.unread) ∧
      t.position = c.position.past gap ∧
      d.position = (t.position.past t.text.toList).past returns := by
  have hgap := Lexeme.isGap_blanks c.unread
  have hblank : (Lexeme.blanks c.unread).read ++ (Lexeme.blanks c.unread).rest = c.unread :=
    Reading.longest_read_append_rest _ _ _
  obtain ⟨ch, after, hrest, h⟩ := next_normal_eq_some_iff.1 h
  obtain ⟨returns, hread, hreturns, hne⟩ := Lexeme.exists_ofNormal_read_eq ch after
  have hlexeme := Lexeme.ofNormal_read_append_rest ch after
  obtain ⟨rfl, rfl⟩ := take_eq_iff.1 h
  refine ⟨_, returns, hgap, Text.isGap_of_forall_eq hreturns, ?_, ?_, rfl, ?_⟩
  · rw [String.toList_ofList]
    exact hne
  · show c.unread = _ ++ _ ++ (returns ++ (Lexeme.ofNormal ch after).rest)
    rw [String.toList_ofList, List.append_assoc, ← List.append_assoc _ returns, ← hread, hlexeme,
      ← hrest, hblank]
  · show (c.position.past _).past (Lexeme.ofNormal ch after).read = _
    rw [String.toList_ofList, hread, Position.past_append]
    rfl

/-- What is left at a cursor is tiled by the tokens left there. -/
theorem tiles_tokens (c : Cursor) :
    Tiles c.position c.unread (c.tokens.1.map Prod.fst).toList := by
  induction h : c.unread.length using Nat.strongRecOn generalizing c with
  | ind n ih =>
      subst h
      rw [tokens_eq]
      cases hnext : c.next .normal with
      | mk found d =>
          -- The text ends in a gap, or a gap and a token stand in front of the rest.
          cases found with
          | none =>
              rw [Array.map_empty]
              exact .gap (isGap_of_next_normal hnext)
          | some t =>
              obtain ⟨gap, returns, hgap, hreturns, hne, hunread, hposition, hbehind⟩ :=
                cut_next_normal hnext
              have hrest := ih d.unread.length (length_next_normal hnext) d rfl
              rw [hbehind] at hrest
              rw [hunread]
              simp only [Array.map_append, Array.toList_append, List.map_toArray, List.map_cons,
                List.map_nil, List.singleton_append]
              exact .token hgap hposition hne (.gap_append hreturns hrest)

end Cursor

/-! ### Positions -/

namespace Position

/-- The part of a text from position `p` on, where the text begins at
`q`. -/
def seek (p q : Position) : List Char → List Char
  | [] => []
  | c :: cs => if q = p then c :: cs else p.seek (q.next c) cs

/-- The position `p` stands before `q`: on an earlier line, or on the
same line further left. -/
def Precedes (p q : Position) : Prop :=
  p.line < q.line ∨ p.line = q.line ∧ p.column < q.column

/-- A position precedes the one behind its next character. -/
theorem precedes_next (p : Position) (c : Char) : p.Precedes (p.next c) := by
  unfold next
  split
  · exact Or.inl (Nat.lt_succ_self _)
  · exact Or.inr ⟨rfl, Nat.lt_succ_self _⟩

/-- The order of positions is transitive. -/
theorem Precedes.trans {p q r : Position} (h : p.Precedes q) (h' : q.Precedes r) :
    p.Precedes r := by
  unfold Precedes at *
  omega

/-- A position precedes the one behind a text that is not empty. -/
theorem precedes_past (p : Position) (c : Char) (cs : List Char) :
    p.Precedes (p.past (c :: cs)) := by
  induction cs generalizing p c with
  | nil => exact p.precedes_next c
  | cons d cs ih => exact (p.precedes_next c).trans (ih (p.next c) d)

/-- A position names one place of a text: what is found there is what
stands behind the characters that lead to it. -/
theorem seek_past (q : Position) (before text : List Char) :
    (q.past before).seek q (before ++ text) = text := by
  induction before generalizing q with
  | nil =>
      cases text with
      | nil => rfl
      | cons c cs => exact if_pos rfl
  | cons c before ih =>
      -- The position behind the text is reached once only.
      have hne : q ≠ q.past (c :: before) := by
        intro heq
        have hprecedes := q.precedes_past c before
        rw [← heq] at hprecedes
        unfold Precedes at hprecedes
        omega
      show (if q = q.past (c :: before) then _ else _) = text
      rw [if_neg hne]
      exact ih (q.next c)

end Position

/-- The spelling of a token of a tiled text stands where its position
says. -/
theorem Tiles.seek_eq {p : Position} {text : List Char} {ts : List Token} (h : Tiles p text ts)
    {t : Token} (ht : t ∈ ts) : ∃ rest, t.position.seek p text = t.text.toList ++ rest := by
  -- Behind the tokens before it, the text is again the part from a position on.
  have hgeneral : ∀ (q : Position) (before : List Char), p = q.past before →
      ∃ rest, t.position.seek q (before ++ text) = t.text.toList ++ rest := by
    induction h with
    | gap _ => cases ht
    | @token p gap rest s ts hgap hposition htext hrest ih =>
        intro q before hp
        rcases List.mem_cons.1 ht with rfl | ht
        · refine ⟨rest, ?_⟩
          rw [hposition, hp, ← Position.past_append, List.append_assoc, ← List.append_assoc]
          exact Position.seek_past q (before ++ gap) _
        · have hlater := ih ht q (before ++ gap ++ s.text.toList) (by
            rw [hposition, hp, Position.past_append, Position.past_append])
          rwa [List.append_assoc, List.append_assoc, ← List.append_assoc gap] at hlater
  exact hgeneral p [] rfl

namespace Token

/-- The tokens of a text tile it: their spellings are cut out of it in
order, each at its token's position, and all that is left are blanks
and joints. -/
theorem tiles_ofString (text : String) :
    Tiles .start text.toList (ofString text) ∧
      ∀ t ∈ ofString text, ∃ rest,
        t.position.seek .start text.toList = t.text.toList ++ rest := by
  have h : Tiles .start text.toList (ofString text) := Cursor.tiles_tokens (.ofString text)
  exact ⟨h, fun t ht => h.seek_eq ht⟩

end Token

end CDeclarations
