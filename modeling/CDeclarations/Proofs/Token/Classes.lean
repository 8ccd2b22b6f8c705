import CDeclarations.Proofs.Token.Number

/-!
# `CDeclarations.Proofs.Token.Classes`: the tokens of running text, class by class

What a text begins with is settled by the forms of the lexical classes
alone (`Lexeme.Matches`): which spelling a class takes at the front of a
text, without a word on how it is found. Each form has one lemma for what
is read where it stands (`Lexeme.ofNormal_of_matches` for them all), and
where no form stands the lexeme is invalid (`Lexeme.matches_ofNormal`).

* `Lexeme.QuotedBody`: what stands between the quotes of a literal.
* `Lexeme.OpensOther`: comments and numbers come before the operators that
  they begin with.
* `Lexeme.Begins`: a form within the limit of its class.
* `Cursor.next_normal_iff_begins`: the token that is read is the one that
  the text begins with, and invalid where it begins with none.
-/

set_option autoImplicit false

namespace CDeclarations

open Numeral (IsRun)
open Text (AtLineEnd LongestPrefix)

namespace Text

/-- The end is dropped as far as its characters are in `p`. -/
theorem dropEnd_append {p : Char → Bool} {before tail : List Char}
    (hbefore : ∀ c ∈ before.getLast?, p c = false) (htail : ∀ c ∈ tail, p c = true) :
    dropEnd p (before ++ tail) = before := by
  -- From the back: the last character of the tail is dropped first.
  induction tail using List.reverseRecOn with
  | nil =>
      rw [List.append_nil]
      refine List.rdropWhile_eq_self_iff.2 fun hne => ?_
      rw [hbefore _ (List.getLast?_eq_some_getLast hne)]
      exact Bool.false_ne_true
  | append_singleton tail c ih =>
      have hc : p c = true := htail c (by simp)
      rw [← List.append_assoc]
      exact (List.rdropWhile_concat_pos p _ c hc).trans
        (ih fun d hd => htail d (List.mem_append_left _ hd))

/-- No such character is left at the end. -/
theorem getLast?_dropEnd {p : Char → Bool} {cs : List Char} {c : Char}
    (h : c ∈ (dropEnd p cs).getLast?) : p c = false := by
  have hstop := List.head?_dropWhile_not p cs.reverse
  rw [dropEnd, List.getLast?_reverse] at h
  rw [h] at hstop
  exact hstop

end Text

namespace Lexeme

/-! ### The forms -/

/-- What stands between the quotes of a literal: pairs of a backslash and
any character, and other characters of the line. -/
inductive QuotedBody (quote : Char) : List Char → Prop
  | nil : QuotedBody quote []
  | plain {c : Char} {body : List Char} (hquote : c ≠ quote) (hback : c ≠ '\\') (hfeed : c ≠ '\n')
      (hbody : QuotedBody quote body) : QuotedBody quote (c :: body)
  | pair {c : Char} {body : List Char} (hbody : QuotedBody quote body) :
      QuotedBody quote ('\\' :: c :: body)

/-- The table of structural marks. -/
def structurals : List (List Char) :=
  structuralMarks.map ([·])

/-- The table of operators. -/
def operators : List (List Char) :=
  longOperators ++ shortOperators.map ([·])

/-- The text opens with a comment's mark, or with a point and a digit,
which are not looked up in the tables. -/
def OpensOther (text : List Char) : Prop :=
  ['/', '*'] <+: text ∨ ['/', '/'] <+: text ∨ ∃ d, d.isDigit = true ∧ ['.', d] <+: text

/-- The text begins with the spelling, which has the form of the class. -/
inductive Matches : TokenKind → List Char → List Char → Prop
  | blockComment {body rest : List Char} (hbody : ¬['*', '/'] <:+: body) :
      Matches .blockComment ('/' :: '*' :: (body ++ ['*', '/']))
        ('/' :: '*' :: (body ++ '*' :: '/' :: rest))
  | lineComment {line returns rest : List Char} (hline : '\n' ∉ line)
      (hend : line.getLast? ≠ some '\r') (hreturns : ∀ c ∈ returns, c = '\r')
      (hrest : AtLineEnd rest) :
      Matches .lineComment ('/' :: '/' :: line) ('/' :: '/' :: (line ++ returns ++ rest))
  | stringLiteral {body rest : List Char} (hbody : QuotedBody '"' body) :
      Matches .stringLiteral ('"' :: (body ++ ['"'])) ('"' :: (body ++ '"' :: rest))
  | charLiteral {body rest : List Char} (hbody : QuotedBody '\'' body) (hne : body ≠ []) :
      Matches .charLiteral ('\'' :: (body ++ ['\''])) ('\'' :: (body ++ '\'' :: rest))
  | numberLiteral {spelling after : List Char} {c : Char} (hopens : OpensNumber c after)
      (hrun : LongestPrefix IsRun spelling (c :: after)) (hliteral : spelling ∈ Numeral.literal) :
      Matches .numberLiteral spelling (c :: after)
  | identifier {spelling after : List Char} {c : Char} (hstart : isIdentifierStart c = true)
      (hrun : LongestPrefix (∀ d ∈ ·, isIdentifierPart d = true) spelling (c :: after)) :
      Matches .identifier spelling (c :: after)
  | singleChar {spelling text : List Char} (hother : ¬OpensOther text)
      (hlongest : LongestPrefix (· ∈ structurals ++ operators) spelling text)
      (hmem : spelling ∈ structurals) : Matches .singleChar spelling text
  | operator {spelling text : List Char} (hother : ¬OpensOther text)
      (hlongest : LongestPrefix (· ∈ structurals ++ operators) spelling text)
      (hmem : spelling ∈ operators) : Matches .operator spelling text

/-- The longest spelling of each class. -/
def limit : TokenKind → Nat
  | .identifier => 1023
  | _ => 65534

/-- The text begins with a token of the class. -/
def Begins (kind : TokenKind) (spelling text : List Char) : Prop :=
  Matches kind spelling text ∧ spelling.length ≤ limit kind

/-- The lexeme has the spelling, and the class if that is within its
limit. -/
def Spells (x : Lexeme) (kind : TokenKind) (spelling : List Char) : Prop :=
  x.kind = bounded (limit kind) kind spelling ∧ x.text = spelling

/-! ### Comments -/

variable {body text spelling after : List Char} {c : Char} {kind : TokenKind}

/-- A comment that was closed has a closing mark, and none before it. -/
theorem exists_of_closed_comment
    (h : (Reading.longest commentRule .inside body).state = .closed) :
    ∃ inner rest, body = inner ++ '*' :: '/' :: rest ∧ ¬['*', '/'] <:+: inner := by
  induction body with
  | nil => cases h
  | cons c after ih =>
      by_cases hmark : c = '*' ∧ after.head? = some '/'
      · obtain ⟨rfl, hslash⟩ := hmark
        obtain ⟨rest, rfl⟩ := List.head?_eq_some_iff.1 hslash
        exact ⟨[], rest, rfl, by simp⟩
      · rw [Reading.longest_cons_of_some (commentRule_of_open hmark)] at h
        obtain ⟨inner, rest, rfl, hinner⟩ := ih h
        refine ⟨c :: inner, rest, rfl, ?_⟩
        rw [List.infix_cons_iff, not_or]
        refine ⟨?_, hinner⟩
        -- A closing mark at the front would have been found there.
        rintro ⟨more, hmore⟩
        obtain ⟨rfl, hslash⟩ := List.cons.inj hmore
        cases inner with
        | nil => cases hslash
        | cons d inner =>
            obtain ⟨rfl, -⟩ := List.cons.inj hslash
            exact hmark ⟨rfl, rfl⟩

/-- A body without a closing mark is spelled as it is written. -/
theorem spells_blockComment (hbody : ¬['*', '/'] <:+: body) (rest : List Char) :
    (blockComment (body ++ '*' :: '/' :: rest)).Spells .blockComment
      ('/' :: '*' :: (body ++ ['*', '/'])) := by
  unfold blockComment
  rw [longest_commentRule_append_mark hbody]
  exact ⟨rfl, rfl⟩

/-- A line is spelled without the returns at its end. -/
theorem spells_lineComment {line returns rest : List Char} (hline : '\n' ∉ line)
    (hend : line.getLast? ≠ some '\r') (hreturns : ∀ c ∈ returns, c = '\r')
    (hrest : AtLineEnd rest) :
    (lineComment ('/' :: '/' :: (line ++ returns ++ rest))).Spells .lineComment
      ('/' :: '/' :: line) := by
  have hfree : ∀ c ∈ '/' :: '/' :: line ++ returns, decide (c ≠ '\n') = true := by
    intro c hc
    rw [List.mem_append, List.mem_cons, List.mem_cons] at hc
    refine decide_eq_true ?_
    rintro rfl
    rcases hc with (h | h | h) | h
    · cases h
    · cases h
    · exact hline h
    · cases hreturns _ h
  have hread : Reading.span (· ≠ '\n') ('/' :: '/' :: (line ++ returns ++ rest)) =
      ⟨'/' :: '/' :: line ++ returns, (), rest⟩ :=
    Reading.span_append hfree fun c hc => by rw [hrest c hc]; rfl
  have hspelled : Text.dropEnd (· = '\r') ('/' :: '/' :: line ++ returns) = '/' :: '/' :: line := by
    refine Text.dropEnd_append (fun c hc => decide_eq_false ?_) fun c hc =>
      decide_eq_true (hreturns c hc)
    rintro rfl
    cases line with
    | nil => cases hc
    | cons d line => exact hend hc
  unfold lineComment
  rw [hread]
  dsimp only
  rw [hspelled]
  exact ⟨rfl, rfl⟩

/-- Every text begins with a line, carriage returns at its end apart. -/
theorem exists_line (text : List Char) :
    ∃ line returns rest, text = line ++ returns ++ rest ∧ '\n' ∉ line ∧
      line.getLast? ≠ some '\r' ∧ (∀ c ∈ returns, c = '\r') ∧ AtLineEnd rest := by
  -- The line is what stands before the first line feed, less the returns at its end.
  obtain ⟨returns, hline, hreturns⟩ :=
    Text.exists_eq_dropEnd_append (· = '\r') (text.takeWhile (· ≠ '\n'))
  refine ⟨Text.dropEnd (· = '\r') (text.takeWhile (· ≠ '\n')), returns,
    text.dropWhile (· ≠ '\n'), ?_, ?_, ?_, fun c hc => of_decide_eq_true (hreturns c hc), ?_⟩
  · rw [← hline, List.takeWhile_append_dropWhile]
  · intro hmem
    have hfeed : '\n' ∈ text.takeWhile (· ≠ '\n') := by
      rw [hline]
      exact List.mem_append_left _ hmem
    exact absurd (List.mem_takeWhile_imp hfeed) (by decide)
  · intro hlast
    cases Text.getLast?_dropEnd hlast
  · intro c hc
    have hstop := List.head?_dropWhile_not (· ≠ '\n') text
    rw [hc] at hstop
    simpa using hstop

/-! ### Literals -/

/-- What is read of a closed literal behind its opening mark, or behind a
backslash. -/
theorem exists_of_closed_quoted {quote : Char} {s : QuoteState}
    (h : (Reading.longest (quoteRule quote) s text).state = .closed) :
    (s = .inside → ∃ body rest, text = body ++ quote :: rest ∧ QuotedBody quote body) ∧
      (s = .escaped → ∃ c body rest, text = c :: (body ++ quote :: rest) ∧
        QuotedBody quote body) := by
  induction text generalizing s with
  | nil =>
      obtain rfl : s = .closed := h
      exact ⟨nofun, nofun⟩
  | cons c after ih =>
      cases hs : quoteRule quote s c after with
      | none =>
          rw [Reading.longest_cons_of_none hs] at h
          obtain rfl : s = .closed := h
          exact ⟨nofun, nofun⟩
      | some s' =>
          rw [Reading.longest_cons_of_some hs] at h
          obtain ⟨hinside, hescaped⟩ := ih h
          unfold quoteRule at hs
          cases s with
          | closed => cases hs
          | escaped =>
              cases hs
              obtain ⟨body, rest, rfl, hbody⟩ := hinside rfl
              exact ⟨nofun, fun _ => ⟨c, body, rest, rfl, hbody⟩⟩
          | inside =>
              -- Inside of the quotes a character is a feed, a backslash, the quote or a
              -- plain one.
              refine ⟨fun _ => ?_, nofun⟩
              dsimp only at hs
              split at hs
              · cases hs
              next hfeed =>
              split at hs
              · next hback =>
                cases hs
                obtain ⟨d, body, rest, rfl, hbody⟩ := hescaped rfl
                exact ⟨'\\' :: d :: body, rest, by rw [hback]; rfl, .pair hbody⟩
              next hback =>
              split at hs
              · next hquote => exact ⟨[], after, by rw [hquote]; rfl, .nil⟩
              next hquote =>
              cases hs
              obtain ⟨body, rest, rfl, hbody⟩ := hinside rfl
              exact ⟨c :: body, rest, rfl, .plain hquote hback hfeed hbody⟩

/-- The body of a literal is read up to its closing quote. -/
theorem longest_quoteRule_append {quote : Char} (hback : quote ≠ '\\') (hfeed : quote ≠ '\n')
    (hbody : QuotedBody quote body) (rest : List Char) :
    Reading.longest (quoteRule quote) .inside (body ++ quote :: rest) =
      ⟨body ++ [quote], .closed, rest⟩ := by
  induction hbody with
  | nil =>
      have hclosed : quoteRule quote .inside quote rest = some .closed := by
        rw [quoteRule, if_neg hfeed, if_neg hback, if_pos rfl]
      rw [List.nil_append, Reading.longest_cons_of_some hclosed]
      cases rest with
      | nil => rfl
      | cons c rest => rw [Reading.longest_cons_of_none rfl]; rfl
  | @plain d body hquote hback' hfeed' _ ih =>
      have hinside : quoteRule quote .inside d (body ++ quote :: rest) = some .inside := by
        rw [quoteRule, if_neg hfeed', if_neg hback', if_neg hquote]
      rw [List.cons_append, Reading.longest_cons_of_some hinside, ih]
      rfl
  | pair _ ih =>
      rw [List.cons_append, List.cons_append, Reading.longest_cons_of_some rfl,
        Reading.longest_cons_of_some rfl, ih]
      rfl

/-- A literal is spelled with its quotes. -/
theorem spells_quoted {quote : Char} (hback : quote ≠ '\\') (hfeed : quote ≠ '\n')
    (hlimit : limit kind = lexemeLimit) (hbody : QuotedBody quote body) (rest : List Char) :
    (quoted quote kind (body ++ quote :: rest)).Spells kind (quote :: (body ++ [quote])) := by
  unfold quoted
  rw [longest_quoteRule_append hback hfeed hbody, Spells, hlimit]
  exact ⟨rfl, rfl⟩

/-- A valid literal has a closing quote. -/
theorem exists_of_quoted_valid {quote : Char} (hvalid : (quoted quote kind body).kind ≠ .invalid) :
    ∃ inner rest, body = inner ++ quote :: rest ∧ QuotedBody quote inner :=
  (exists_of_closed_quoted (closed_of_quoted_valid hvalid)).1 rfl

/-- A character literal that is not empty is spelled with its quotes. -/
theorem spells_charLiteral (hbody : QuotedBody '\'' body) (hne : body ≠ []) (rest : List Char) :
    (charLiteral (body ++ '\'' :: rest)).Spells .charLiteral ('\'' :: (body ++ ['\''])) := by
  have hspells : (quoted '\'' .charLiteral (body ++ '\'' :: rest)).Spells .charLiteral
      ('\'' :: (body ++ ['\''])) := spells_quoted (by decide) (by decide) rfl hbody rest
  have hlength : (quoted '\'' .charLiteral (body ++ '\'' :: rest)).text.length ≠ 2 := by
    rw [hspells.2]
    simpa using hne
  rw [charLiteral, if_neg hlength]
  exact hspells

/-- A valid character literal has a closing quote and something before it. -/
theorem exists_of_charLiteral_valid (hvalid : (charLiteral body).kind ≠ .invalid) :
    ∃ inner rest, body = inner ++ '\'' :: rest ∧ QuotedBody '\'' inner ∧ inner ≠ [] := by
  obtain ⟨hlength, heq⟩ := charLiteral_of_valid hvalid
  rw [heq] at hvalid
  obtain ⟨inner, rest, rfl, hinner⟩ := exists_of_quoted_valid hvalid
  refine ⟨inner, rest, rfl, hinner, ?_⟩
  rintro rfl
  exact hlength (congrArg List.length (spells_quoted (by decide) (by decide) rfl hinner rest).2)

/-! ### Words and operators -/

/-- A span is the longest prefix of characters of its class. -/
theorem longestPrefix_span (p : Char → Bool) (text : List Char) :
    LongestPrefix (∀ c ∈ ·, p c = true) (Reading.span p text).read text := by
  refine Reading.longestPrefix_longest (fun before _ => ∀ c ∈ before, p c = true) []
    ?_ ?_ id rfl nofun
  · intro before _ c after _ _ h hs d hd
    split at hs
    · next hc =>
      rcases List.mem_append.1 hd with hd | hd
      · exact h d hd
      · rwa [List.mem_singleton.1 hd]
    · cases hs
  · intro before _ c after _ _ hs more hmore
    rw [if_pos (hmore c (by simp))] at hs
    cases hs

/-- An entry of the tables is one of the longer operators, or one
character. -/
theorem mem_tables_iff (op : List Char) :
    op ∈ structurals ++ operators ↔
      op ∈ longOperators ∨ ∃ c, op = [c] ∧ (c ∈ structuralMarks ∨ c ∈ shortOperators) := by
  simp only [structurals, operators, List.mem_append, List.mem_map]
  constructor
  · rintro (⟨c, hc, rfl⟩ | hlong | ⟨c, hc, rfl⟩)
    · exact Or.inr ⟨c, rfl, Or.inl hc⟩
    · exact Or.inl hlong
    · exact Or.inr ⟨c, rfl, Or.inr hc⟩
  · rintro (hlong | ⟨c, rfl, hc | hc⟩)
    · exact Or.inr (Or.inl hlong)
    · exact Or.inl ⟨c, hc, rfl⟩
    · exact Or.inr (Or.inr ⟨c, hc, rfl⟩)

/-- The table of the longer operators is read from the longest ones on. -/
theorem longestPrefix_longOperator {op : List Char}
    (hop : longOperators.find? (·.isPrefixOf text) = some op) :
    LongestPrefix (· ∈ structurals ++ operators) op text := by
  have hdescending : longOperators.Pairwise fun op op' => op'.length ≤ op.length := by decide
  have hpos : ∀ op ∈ longOperators, 1 ≤ op.length := by decide
  have hmem := List.mem_of_find?_eq_some hop
  obtain ⟨hfront, before, behind, hlist, hbefore⟩ := List.find?_eq_some_iff_append.1 hop
  refine ⟨List.isPrefixOf_iff_prefix.1 hfront, (mem_tables_iff op).2 (Or.inl hmem), ?_⟩
  intro more hmore htable
  -- An entry before it does not stand here, and one behind it is not longer.
  rcases (mem_tables_iff more).1 htable with hlong | ⟨c, rfl, -⟩
  · rw [hlist, List.mem_append, List.mem_cons] at hlong
    rcases hlong with hlong | rfl | hlong
    · have hnot := hbefore more hlong
      rw [List.isPrefixOf_iff_prefix.2 hmore] at hnot
      cases hnot
    · exact Nat.le_refl _
    · rw [hlist, List.pairwise_append, List.pairwise_cons] at hdescending
      exact hdescending.2.1.1 more hlong
  · exact hpos op hmem

/-- Where no longer operator stands, an entry is the next character. -/
theorem eq_singleton_of_mem_tables {op : List Char}
    (hop : longOperators.find? (·.isPrefixOf (c :: after)) = none)
    (hmem : op ∈ structurals ++ operators) (hfront : op <+: c :: after) :
    op = [c] ∧ (c ∈ structuralMarks ∨ c ∈ shortOperators) := by
  rcases (mem_tables_iff op).1 hmem with hlong | ⟨d, rfl, hd⟩
  · have hnot := List.find?_eq_none.1 hop op hlong
    exact absurd (List.isPrefixOf_iff_prefix.2 hfront) hnot
  · obtain rfl := (List.cons_prefix_cons.1 hfront).1
    exact ⟨rfl, hd⟩

/-- The longest entry of the tables is found with the class of its table,
or none stands here. -/
theorem punctuator_cases (c : Char) (after : List Char) :
    (LongestPrefix (· ∈ structurals ++ operators) (punctuator c after).text (c :: after) ∧
      ((punctuator c after).kind = .singleChar ∧ (punctuator c after).text ∈ structurals ∨
        (punctuator c after).kind = .operator ∧ (punctuator c after).text ∈ operators)) ∨
    ((punctuator c after).kind = .invalid ∧
      ∀ op ∈ structurals ++ operators, ¬op <+: c :: after) := by
  cases hop : longOperators.find? (·.isPrefixOf (c :: after)) with
  | some op =>
      rw [punctuator, hop]
      exact Or.inl ⟨longestPrefix_longOperator hop,
        Or.inr ⟨rfl, List.mem_append_left _ (List.mem_of_find?_eq_some hop)⟩⟩
  | none =>
      rw [punctuator, hop]
      -- With the longer operators out of the way, one character is the longest.
      have hlongest : c ∈ structuralMarks ∨ c ∈ shortOperators →
          LongestPrefix (· ∈ structurals ++ operators) [c] (c :: after) := by
        intro hc
        refine ⟨⟨after, rfl⟩, (mem_tables_iff [c]).2 (Or.inr ⟨c, rfl, hc⟩), ?_⟩
        intro more hmore htable
        rw [(eq_singleton_of_mem_tables hop htable hmore).1]
      dsimp only
      unfold markKind
      split
      · next hc =>
        have hmem : c ∈ structuralMarks := List.contains_iff_mem.1 hc
        exact Or.inl ⟨hlongest (Or.inl hmem), Or.inl ⟨rfl, List.mem_map_of_mem hmem⟩⟩
      next hmark =>
      split
      · next hc =>
        have hmem : c ∈ shortOperators := List.contains_iff_mem.1 hc
        exact Or.inl ⟨hlongest (Or.inr hmem),
          Or.inr ⟨rfl, List.mem_append_right _ (List.mem_map_of_mem hmem)⟩⟩
      next hshort =>
      refine Or.inr ⟨rfl, fun op hmem hfront => ?_⟩
      rcases (eq_singleton_of_mem_tables hop hmem hfront).2 with hc | hc
      · exact hmark (List.contains_iff_mem.2 hc)
      · exact hshort (List.contains_iff_mem.2 hc)

/-- A mark is the longest spelling of the tables that the text begins with. -/
theorem punctuator_of_longest
    (hlongest : LongestPrefix (· ∈ structurals ++ operators) spelling (c :: after)) :
    (punctuator c after).text = spelling ∧
      ((punctuator c after).kind = .singleChar ∧ spelling ∈ structurals ∨
        (punctuator c after).kind = .operator ∧ spelling ∈ operators) := by
  rcases punctuator_cases c after with ⟨hfound, hkind⟩ | ⟨-, hnone⟩
  · have htext := hfound.unique hlongest
    rw [htext] at hkind
    exact ⟨htext, hkind⟩
  · exact absurd hlongest.isPrefix (hnone spelling hlongest.holds)

/-- What opens an entry of the tables opens no other class, comments and
numbers behind a point apart. -/
theorem ofNormal_of_mem_tables {op : List Char} (hother : ¬OpensOther (c :: after))
    (hmem : op ∈ structurals ++ operators) (hfront : op <+: c :: after) :
    ofNormal c after = punctuator c after := by
  -- No mark begins with a quote, a digit or a character of an identifier.
  have hopening : (structurals ++ operators).all (fun op => op.head?.any fun d =>
      d ≠ '"' && d ≠ '\'' && !d.isDigit && !isIdentifierStart d) = true := by decide
  obtain ⟨d, hd, hopens⟩ := (Option.any_eq_true _ _).1 (List.all_eq_true.1 hopening op hmem)
  obtain ⟨tail, rfl⟩ := List.head?_eq_some_iff.1 hd
  obtain rfl := (List.cons_prefix_cons.1 hfront).1
  simp only [Bool.and_eq_true, decide_eq_true_eq, Bool.not_eq_true'] at hopens
  obtain ⟨⟨⟨hstring, hchar⟩, hdigit⟩, hstart⟩ := hopens
  refine ofNormal_of_other ?_ ?_ hstring hchar ?_ hstart
  -- The other tokens that begin with a mark are two comments and a number.
  · rintro ⟨rfl, hstar⟩
    obtain ⟨body, rfl⟩ := List.head?_eq_some_iff.1 hstar
    exact hother (Or.inl ⟨body, rfl⟩)
  · rintro ⟨rfl, hslash⟩
    obtain ⟨body, rfl⟩ := List.head?_eq_some_iff.1 hslash
    exact hother (Or.inr (Or.inl ⟨body, rfl⟩))
  · rintro (h | ⟨rfl, h⟩)
    · rw [hdigit] at h
      cases h
    · obtain ⟨e, he, hdigit⟩ := (Option.any_eq_true _ _).1 h
      obtain ⟨body, rfl⟩ := List.head?_eq_some_iff.1 he
      exact hother (Or.inr (Or.inr ⟨e, hdigit, body, rfl⟩))

/-- No mark comes near the limit of a lexeme. -/
theorem length_le_of_mem_tables {op : List Char} (hmem : op ∈ structurals ++ operators) :
    op.length ≤ 65534 := by
  have hall : ∀ op ∈ structurals ++ operators, op.length ≤ 3 := by decide
  exact (hall op hmem).trans (by decide)

/-- No structural mark is an operator. -/
theorem notMem_operators {op : List Char} (hmem : op ∈ structurals) : op ∉ operators := by
  have hlong : ∀ op ∈ longOperators, op.length ≠ 1 := by decide
  have hshort : ∀ c ∈ structuralMarks, c ∉ shortOperators := by
    simp [structuralMarks, shortOperators]
  obtain ⟨c, hc, rfl⟩ := List.mem_map.1 hmem
  intro hoperator
  rcases List.mem_append.1 hoperator with h | h
  · exact hlong [c] h rfl
  · obtain ⟨d, hd, heq⟩ := List.mem_map.1 h
    obtain rfl := (List.cons.inj heq).1
    exact hshort d hc hd

/-! ### All classes -/

/-- Where a form stands, its spelling is found. -/
theorem spells_ofNormal (h : Matches kind spelling (c :: after)) :
    (ofNormal c after).Spells kind spelling := by
  cases h with
  | blockComment hbody => exact spells_blockComment hbody _
  | lineComment hline hend hreturns hrest => exact spells_lineComment hline hend hreturns hrest
  | stringLiteral hbody => exact spells_quoted (by decide) (by decide) rfl hbody _
  | charLiteral hbody hne => exact spells_charLiteral hbody hne _
  | numberLiteral hopens hrun hliteral =>
      -- The run is the one that is read, and its limit alone is left open.
      have htext := (longestPrefix_number (c :: after)).unique hrun
      have hkind := kind_number_eq_iff hopens
      rw [htext] at hkind
      rw [ofNormal_of_opensNumber hopens]
      refine ⟨?_, htext⟩
      unfold bounded
      split
      · next hlength => exact hkind.2 ⟨hlength, hliteral⟩
      · next hlength =>
        exact (kind_number_eq_or (c :: after)).resolve_left fun h => hlength (hkind.1 h).1
  | identifier hstart hrun =>
      have htext := (longestPrefix_span isIdentifierPart (c :: after)).unique hrun
      rw [ofNormal_of_isIdentifierStart hstart, ← htext]
      exact ⟨rfl, rfl⟩
  | singleChar hother hlongest hmem =>
      rw [ofNormal_of_mem_tables hother hlongest.holds hlongest.isPrefix]
      obtain ⟨htext, ⟨hkind, -⟩ | ⟨-, hoperator⟩⟩ := punctuator_of_longest hlongest
      · exact ⟨hkind.trans (if_pos (length_le_of_mem_tables hlongest.holds)).symm, htext⟩
      · exact absurd hoperator (notMem_operators hmem)
  | operator hother hlongest hmem =>
      rw [ofNormal_of_mem_tables hother hlongest.holds hlongest.isPrefix]
      obtain ⟨htext, ⟨-, hmark⟩ | ⟨hkind, -⟩⟩ := punctuator_of_longest hlongest
      · exact absurd hmem (notMem_operators hmark)
      · exact ⟨hkind.trans (if_pos (length_le_of_mem_tables hlongest.holds)).symm, htext⟩

/-- Where no form stands, the lexeme is invalid. -/
theorem exists_matches (hvalid : (ofNormal c after).kind ≠ .invalid) :
    ∃ kind spelling, Matches kind spelling (c :: after) := by
  -- In the order of precedence: the tables come last.
  by_cases hblock : c = '/' ∧ after.head? = some '*'
  · obtain ⟨rfl, hstar⟩ := hblock
    obtain ⟨body, rfl⟩ := List.head?_eq_some_iff.1 hstar
    obtain ⟨inner, rest, rfl, hinner⟩ :=
      exists_of_closed_comment (closed_of_blockComment_valid hvalid)
    exact ⟨_, _, .blockComment hinner⟩
  by_cases hline : c = '/' ∧ after.head? = some '/'
  · obtain ⟨rfl, hslash⟩ := hline
    obtain ⟨body, rfl⟩ := List.head?_eq_some_iff.1 hslash
    obtain ⟨line, returns, rest, rfl, hline, hend, hreturns, hrest⟩ := exists_line body
    exact ⟨_, _, .lineComment hline hend hreturns hrest⟩
  by_cases hstring : c = '"'
  · subst hstring
    obtain ⟨inner, rest, rfl, hinner⟩ := exists_of_quoted_valid hvalid
    exact ⟨_, _, .stringLiteral hinner⟩
  by_cases hchar : c = '\''
  · subst hchar
    obtain ⟨inner, rest, rfl, hinner, hne⟩ := exists_of_charLiteral_valid hvalid
    exact ⟨_, _, .charLiteral hinner hne⟩
  by_cases hnumber : OpensNumber c after
  · rw [ofNormal_of_opensNumber hnumber] at hvalid
    have hkind := (kind_number_eq_or (c :: after)).resolve_right hvalid
    exact ⟨_, _, .numberLiteral hnumber (longestPrefix_number _)
      ((kind_number_eq_iff hnumber).1 hkind).2⟩
  cases hstart : isIdentifierStart c with
  | true => exact ⟨_, _, .identifier hstart (longestPrefix_span _ _)⟩
  | false =>
      rw [ofNormal_of_other hblock hline hstring hchar hnumber hstart] at hvalid
      have hother : ¬OpensOther (c :: after) := by
        rintro (⟨body, h⟩ | ⟨body, h⟩ | ⟨d, hd, body, h⟩)
        · obtain ⟨rfl, rfl⟩ := List.cons.inj h
          exact hblock ⟨rfl, rfl⟩
        · obtain ⟨rfl, rfl⟩ := List.cons.inj h
          exact hline ⟨rfl, rfl⟩
        · obtain ⟨rfl, rfl⟩ := List.cons.inj h
          exact hnumber (Or.inr ⟨rfl, hd⟩)
      rcases punctuator_cases c after with ⟨hlongest, ⟨-, hmem⟩ | ⟨-, hmem⟩⟩ | ⟨hinvalid, -⟩
      · exact ⟨_, _, .singleChar hother hlongest hmem⟩
      · exact ⟨_, _, .operator hother hlongest hmem⟩
      · exact absurd hinvalid hvalid

/-- The class and the spelling that are found are those that the text begins
with. -/
theorem ofNormal_iff_begins (c : Char) (after : List Char) {kind : TokenKind}
    (hkind : kind ≠ .invalid) (spelling : List Char) :
    ((ofNormal c after).kind = kind ∧ (ofNormal c after).text = spelling) ↔
      Begins kind spelling (c :: after) := by
  -- What is read matches one class, and within the limit it keeps the kind of that
  -- class.
  constructor
  · rintro ⟨rfl, rfl⟩
    obtain ⟨kind, spelling, hmatches⟩ := exists_matches hkind
    obtain ⟨hbounded, htext⟩ := spells_ofNormal hmatches
    unfold bounded at hbounded
    split at hbounded
    · next hlength =>
      rw [hbounded, htext]
      exact ⟨hmatches, hlength⟩
    · exact absurd hbounded hkind
  · rintro ⟨hmatches, hlength⟩
    obtain ⟨hbounded, htext⟩ := spells_ofNormal hmatches
    exact ⟨hbounded.trans (if_pos hlength), htext⟩

/-- No text begins with an invalid token. -/
theorem Begins.kind_ne (h : Begins kind spelling text) : kind ≠ .invalid := by
  rintro rfl
  cases h.1

/-- A token is invalid exactly when nothing begins with the text. -/
theorem kind_ofNormal_eq_invalid_iff (c : Char) (after : List Char) :
    (ofNormal c after).kind = .invalid ↔
      ∀ kind spelling, ¬Begins kind spelling (c :: after) := by
  constructor
  · intro hinvalid kind spelling hbegins
    have hfound := (ofNormal_iff_begins c after hbegins.kind_ne spelling).2 hbegins
    exact hbegins.kind_ne (hfound.1.symm.trans hinvalid)
  · intro hnone
    by_contra hvalid
    exact hnone _ _ ((ofNormal_iff_begins c after hvalid _).1 ⟨rfl, rfl⟩)

end Lexeme

namespace Cursor

open Lexeme (Begins)

/-- In running text, the blanks are skipped, and where they end the text
the reader finds no token. Else it finds one there. Its class and its
spelling are those that the text begins with, and it is invalid exactly
where the text begins with no token. -/
theorem next_normal_iff_begins (k : Cursor) :
    ∃ gap text, k.unread = gap ++ text ∧ Skips .normal gap text ∧
      ((k.next .normal).1 = none ↔ text = []) ∧
      ∀ t ∈ (k.next .normal).1, t.position = k.position.past gap ∧
        (∀ kind spelling, kind ≠ .invalid →
          (t.kind = kind ∧ t.text.toList = spelling ↔ Begins kind spelling text)) ∧
        (t.kind = .invalid ↔ ∀ kind spelling, ¬Begins kind spelling text) := by
  have hunread : (Lexeme.blanks k.unread).read ++ (Lexeme.blanks k.unread).rest = k.unread :=
    Reading.longest_read_append_rest _ _ _
  refine ⟨(Lexeme.blanks k.unread).read, (Lexeme.blanks k.unread).rest, hunread.symm,
    Lexeme.skips_blanks k.unread, ?_⟩
  simp only [next, nextNormal]
  -- Behind the blanks the text ends, or a token begins.
  cases hrest : (Lexeme.blanks k.unread).rest with
  | nil => simp
  | cons c after =>
      refine ⟨by simp [take], fun t ht => ?_⟩
      obtain rfl := Option.some.inj ht
      refine ⟨rfl, fun kind spelling hkind => ?_, Lexeme.kind_ofNormal_eq_invalid_iff c after⟩
      rw [String.toList_ofList]
      exact Lexeme.ofNormal_iff_begins c after hkind spelling

end Cursor

end CDeclarations
