import CDeclarations.Proofs.Token.DefineBody
import CDeclarations.Proofs.Token.Seam
import Mathlib.Data.List.DropRight
import Mathlib.Data.List.Find

/-!
# `CDeclarations.Proofs.Token.LineEnds`: tokens do not depend on how the lines end

The tokens of a text are those of the text with carriage returns at its
line ends (`Text.crlf`), one after another and in all three modes. Most
lexemes stay on their line and see nothing of its end. The others:

* A block comment takes the carriage returns in it (`blockComment_crlf`).
  They count for its limit, which can make it invalid.
* A line comment takes the carriage return at its end, and so does the
  body of a definition, which joins its lines in either way
  (`lineComment_crlf`, `ofDefineBody_crlf`). The spelling is the same, for
  trailing carriage returns are not part of it.
* A literal may hold a line feed behind a backslash, but not a carriage
  return and a line feed. Blanks hold such joints of two lines, too. Both
  are left out here (`BearsReturns`, `blanks_crlf`).

`Cursor.next_crlf` puts these together: the same token is next, unless it
is a block comment or invalid with the same text. The cursor may then
stand behind the carriage return of a line feed that is due, which does
not matter between tokens (`Cursor.Returned.next_normal`).
-/

set_option autoImplicit false

namespace CDeclarations

open Text (crlf crlf_feed crlf_cons crlf_append crlf_of_notMem)

namespace Lexeme

variable {c : Char} {text after body : List Char}

/-- What becomes of a lexeme `x` when carriage returns are written at the
line ends of the text. -/
inductive SameButReturns (x x' : Lexeme) : Prop
  /-- There is no telling where an invalid lexeme ends. -/
  | invalid (h : x.kind = .invalid) (h' : x'.kind = .invalid)
  /-- The lexeme ends at the same place. -/
  | even (hkind : x'.kind = x.kind) (htext : x.kind ≠ .blockComment → x'.text = x.text)
      (hread : x'.read = crlf x.read) (hrest : x'.rest = crlf x.rest)
  /-- The lexeme ends its line and takes the carriage return along. -/
  | returned (after : List Char) (hline : x.kind = .lineComment ∨ x.kind = .defineLiteral)
      (hkind : x'.kind = x.kind) (htext : x'.text = x.text)
      (hread : x'.read = crlf x.read ++ ['\r']) (hrest : x.rest = '\n' :: after)
      (hrest' : x'.rest = '\n' :: crlf after)

/-- The lexeme with carriage returns behind it. -/
def returns (x : Lexeme) : Lexeme :=
  { x with rest := crlf x.rest }

/-- A lexeme on one line. -/
theorem sameButReturns_returns {x : Lexeme} (h : '\n' ∉ x.read) : x.SameButReturns x.returns :=
  .even rfl (fun _ => rfl) (crlf_of_notMem h).symm rfl

/-- A token within its limit keeps its kind, and beyond it is invalid. -/
theorem bounded_eq_or (limit : Nat) (kind : TokenKind) (text : List Char) :
    bounded limit kind text = kind ∨ bounded limit kind text = .invalid := by
  unfold bounded
  split
  · exact Or.inl rfl
  · exact Or.inr rfl

/-! ### Lexemes on one line -/

/-- An identifier has no end of a line in it. -/
theorem identifier_crlf (text : List Char) :
    identifier (crlf text) = (identifier text).returns ∧ '\n' ∉ (identifier text).read := by
  have heq : Reading.span isIdentifierPart (crlf text) = _ :=
    Reading.longest_crlf (fun _ _ _ _ => rfl) (fun _ _ => rfl) (fun _ _ => rfl) () text
  refine ⟨?_, Reading.notMem_read (fun _ _ => rfl) () text⟩
  rw [identifier, heq]
  rfl

/-- The mark of a base is the same with returns. -/
theorem isHexMarked_crlf (text : List Char) :
    Numeral.isHexMarked (crlf text) = Numeral.isHexMarked text := by
  cases text with
  | nil => rfl
  | cons c after =>
      by_cases hc : c = '\n'
      · subst hc
        rfl
      rw [crlf_cons hc]
      cases after with
      | nil => rfl
      | cons d after =>
          by_cases hd : d = '\n'
          · subst hd
            simp [Numeral.isHexMarked]
          · rw [crlf_cons hd]
            unfold Numeral.isHexMarked
            split <;> simp_all

/-- A number has no end of a line in it. -/
theorem number_crlf (text : List Char) :
    number (crlf text) = (number text).returns ∧ '\n' ∉ (number text).read := by
  refine ⟨?_, Reading.notMem_read (fun _ _ => rfl) ' ' text⟩
  rw [number, isHexMarked_crlf, Reading.longest_crlf (fun _ _ _ _ => rfl) (fun _ _ => rfl)
    (fun _ _ => rfl) ' ' text]
  rfl

/-- No operator reaches over the end of a line. -/
theorem punctuator_crlf (hc : c ≠ '\n') (after : List Char) :
    punctuator c (crlf after) = (punctuator c after).returns ∧
      '\n' ∉ (punctuator c after).read := by
  have hends : ∀ op ∈ longOperators, '\r' ∉ op ∧ '\n' ∉ op := by decide
  -- The same operator is found, since none has the end of a line in it.
  have hfind : longOperators.find? (·.isPrefixOf (c :: crlf after)) =
      longOperators.find? (·.isPrefixOf (c :: after)) := by
    refine List.find?_congr fun op hop => ?_
    rw [Bool.eq_iff_iff, List.isPrefixOf_iff_prefix, List.isPrefixOf_iff_prefix, ← crlf_cons hc]
    exact Text.isPrefixOf_crlf (hends op hop).1 (hends op hop).2
  rw [punctuator, punctuator, hfind]
  cases hop : longOperators.find? (·.isPrefixOf (c :: after)) with
  | none => exact ⟨rfl, by simpa using Ne.symm hc⟩
  | some op =>
      have hmem := List.mem_of_find?_eq_some hop
      have hprefix := List.find?_some hop
      obtain ⟨rest, hrest⟩ := List.isPrefixOf_iff_prefix.1 hprefix
      refine ⟨?_, (hends op hmem).2⟩
      have hcrlf : c :: crlf after = op ++ crlf rest := by
        rw [← crlf_cons hc, ← hrest, crlf_append, crlf_of_notMem (hends op hmem).2]
      simp only [returns]
      rw [hcrlf, ← hrest, List.drop_left, List.drop_left]

/-- A literal that is closed on its line is found again, and one that is
not is left open. -/
theorem quoted_crlf {quote : Char} (hquote : quote ≠ '\r' ∧ quote ≠ '\n') (kind : TokenKind)
    (body : List Char)
    (hline : (quoted quote kind body).kind = kind → '\n' ∉ (quoted quote kind body).text) :
    ((quoted quote kind body).kind = .invalid ∧ (quoted quote kind (crlf body)).kind = .invalid) ∨
      (quoted quote kind (crlf body) = (quoted quote kind body).returns ∧
        '\n' ∉ (quoted quote kind body).read) := by
  -- A return may be read inside of a literal, but the line feed behind it is not.
  have hline' : ∀ s s' after, quoteRule quote s '\r' after = some s' →
      s' ≠ .closed ∧ ∀ after', quoteRule quote s' '\n' after' = none := by
    intro s s' after hs
    cases s with
    | inside =>
        simp only [quoteRule, if_neg (Ne.symm hquote.1)] at hs
        cases hs
        exact ⟨nofun, fun _ => rfl⟩
    | escaped =>
        cases hs
        exact ⟨nofun, fun _ => rfl⟩
    | closed => cases hs
  have hends := Reading.longest_crlf_closed (quoteRule quote) (fun s _ _ _ => by cases s <;> rfl)
    (fun s _ _ h => by rw [h]; rfl) hline' .inside body
  rcases hends with ⟨-, hread, heq⟩ | ⟨hopen, hclosed⟩
  · refine Or.inr ⟨?_, List.not_mem_cons_of_ne_of_not_mem (Ne.symm hquote.2) hread⟩
    rw [quoted, heq]
    rfl
  · refine Or.inl ⟨?_, if_neg hopen⟩
    -- A literal that was closed has a line feed in it here, so it was not valid by
    -- `hline`.
    by_cases hstate : (Reading.longest (quoteRule quote) .inside body).state = .closed
    · have hkind : (quoted quote kind body).kind = bounded lexemeLimit kind _ := if_pos hstate
      rcases bounded_eq_or lexemeLimit kind (quoted quote kind body).text with hvalid | hinvalid
      · exact absurd (List.mem_cons_of_mem _ (hclosed hstate)) (hline (hkind.trans hvalid))
      · exact hkind.trans hinvalid
    · exact if_neg hstate

/-- A string literal of one line is the same with returns. -/
theorem stringLiteral_crlf (body : List Char)
    (hline : (stringLiteral body).kind = .stringLiteral → '\n' ∉ (stringLiteral body).text) :
    (stringLiteral body).SameButReturns (stringLiteral (crlf body)) := by
  rcases quoted_crlf (by decide) .stringLiteral body hline with ⟨h, h'⟩ | ⟨heq, hread⟩
  · exact .invalid h h'
  · rw [stringLiteral, stringLiteral, heq]
    exact sameButReturns_returns hread

/-- No literal begins with the end of a line. -/
theorem notMem_quoted_of_length {quote : Char} (hquote : quote ≠ '\n') {kind : TokenKind}
    {body : List Char} (h : (quoted quote kind body).text.length = 2) :
    '\n' ∉ (quoted quote kind body).text := by
  have hlength : (Reading.longest (quoteRule quote) .inside body).read.length = 1 :=
    Nat.succ.inj h
  obtain ⟨d, hd⟩ := List.length_eq_one_iff.1 hlength
  refine List.not_mem_cons_of_ne_of_not_mem (Ne.symm hquote) ?_
  rw [hd, List.mem_singleton]
  rintro rfl
  have hbody := Reading.longest_read_append_rest (quoteRule quote) body .inside
  rw [hd, List.singleton_append] at hbody
  rw [← hbody, Reading.longest_cons_of_none rfl] at hd
  cases hd

/-- A character literal of one line is the same with returns. -/
theorem charLiteral_crlf (body : List Char)
    (hline : (charLiteral body).kind = .charLiteral → '\n' ∉ (charLiteral body).text) :
    (charLiteral body).SameButReturns (charLiteral (crlf body)) := by
  have hquoted : (quoted '\'' .charLiteral body).kind = .charLiteral →
      '\n' ∉ (quoted '\'' .charLiteral body).text := by
    intro hvalid
    by_cases hlength : (quoted '\'' .charLiteral body).text.length = 2
    · exact notMem_quoted_of_length (by decide) hlength
    · rw [charLiteral, if_neg hlength] at hline
      exact hline hvalid
  rw [charLiteral, charLiteral]
  rcases quoted_crlf (by decide) .charLiteral body hquoted with ⟨h, h'⟩ | ⟨heq, hread⟩
  · refine .invalid ?_ ?_ <;> split <;> first | rfl | assumption
  · have htext : (quoted '\'' .charLiteral body).returns.text =
        (quoted '\'' .charLiteral body).text := rfl
    rw [heq, htext]
    by_cases hlength : (quoted '\'' .charLiteral body).text.length = 2
    · rw [if_pos hlength, if_pos hlength]
      exact .invalid rfl rfl
    · rw [if_neg hlength, if_neg hlength]
      exact sameButReturns_returns hread

/-- A file name never goes on behind the end of its line. -/
theorem fileName_crlf {close : Char} (hclose : close ≠ '\r') (hc : c ≠ '\n') (after : List Char) :
    (fileName c close after).SameButReturns (fileName c close (crlf after)) := by
  -- A return may be read inside of a name, and the line feed behind it ends the name.
  have hline : ∀ closed closed' after, nameRule close closed '\r' after = some closed' →
      ¬closed' = true ∧ ∀ after', nameRule close closed' '\n' after' = none := by
    intro closed closed' after hs
    cases closed with
    | false =>
        simp only [nameRule, Bool.false_or, Option.ite_none_left_eq_some] at hs
        simp [← Option.some.inj hs.2, Ne.symm hclose, nameRule]
    | true => cases hs
  have hends := Reading.longest_crlf_closed (nameRule close) (fun _ _ _ _ => rfl)
    (fun s _ _ h => by rw [h]; rfl) hline false after
  have hfeed : '\n' ∉ (Reading.longest (nameRule close) false after).read :=
    Reading.notMem_read (fun s _ => by cases s <;> rfl) false after
  rcases hends with ⟨-, -, heq⟩ | ⟨hopen, hclosed⟩
  · have hreturns : fileName c close (crlf after) = (fileName c close after).returns := by
      rw [fileName, heq]
      rfl
    exact hreturns ▸ sameButReturns_returns
      (List.not_mem_cons_of_ne_of_not_mem (Ne.symm hc) hfeed)
  · exact .invalid (if_neg fun hstate => hfeed (hclosed hstate)) (if_neg hopen)

/-- The name of a file is the same with returns. -/
theorem ofIncludeName_crlf (hc : c ≠ '\n') (after : List Char) :
    (ofIncludeName c after).SameButReturns (ofIncludeName c (crlf after)) := by
  rw [ofIncludeName, ofIncludeName]
  split
  · exact fileName_crlf (by decide) hc after
  split
  · exact fileName_crlf (by decide) hc after
  · exact .invalid rfl rfl

/-! ### Comments -/

/-- A comment goes on with any character that does not close it. -/
theorem commentRule_of_open {c : Char} {after : List Char}
    (h : ¬(c = '*' ∧ after.head? = some '/')) : commentRule .inside c after = some .inside := by
  rw [commentRule, if_neg h]

/-- The closing mark ends a comment whatever stands behind it. -/
theorem longest_commentRule_mark (rest : List Char) :
    Reading.longest commentRule .inside ('*' :: '/' :: rest) = ⟨['*', '/'], .closed, rest⟩ := by
  rw [Reading.longest_cons_of_some rfl, Reading.longest_cons_of_some rfl]
  cases rest with
  | nil => rfl
  | cons c after => rw [Reading.longest_cons_of_none rfl]

/-- A comment is read over all that stands before its first closing mark. -/
theorem longest_commentRule_append_mark {body : List Char} (h : ¬['*', '/'] <:+: body)
    (rest : List Char) :
    Reading.longest commentRule .inside (body ++ '*' :: '/' :: rest) =
      ⟨body ++ ['*', '/'], .closed, rest⟩ := by
  induction body with
  | nil => exact longest_commentRule_mark rest
  | cons c body ih =>
      have hopen : ¬(c = '*' ∧ (body ++ '*' :: '/' :: rest).head? = some '/') := by
        rintro ⟨rfl, hslash⟩
        cases body with
        | nil => exact absurd hslash (by simp)
        | cons d body =>
            obtain rfl : d = '/' := by simpa using hslash
            exact h ⟨[], body, rfl⟩
      rw [List.cons_append, Reading.longest_cons_of_some (commentRule_of_open hopen),
        ih fun hmark => h (hmark.trans (List.suffix_cons c body).isInfix)]
      rfl

/-- A block comment takes the line ends that stand in it. -/
theorem longest_commentRule_crlf (body : List Char) :
    Reading.longest commentRule .inside (crlf body) =
      ⟨crlf (Reading.longest commentRule .inside body).read,
        (Reading.longest commentRule .inside body).state,
        crlf (Reading.longest commentRule .inside body).rest⟩ := by
  induction body with
  | nil => rfl
  | cons c after ih =>
      by_cases hc : c = '\n'
      · subst hc
        have hopen : ∀ {c : Char} {after : List Char}, c ≠ '*' →
            commentRule .inside c after = some .inside :=
          fun hc => commentRule_of_open fun hmark => hc hmark.1
        rw [crlf_feed, Reading.longest_cons_of_some (hopen (by decide)),
          Reading.longest_cons_of_some (hopen (by decide)),
          Reading.longest_cons_of_some (hopen (by decide)), ih]
        rfl
      rw [crlf_cons hc]
      -- The closing mark stays together, and every other character keeps the comment
      -- open.
      by_cases hmark : c = '*' ∧ after.head? = some '/'
      · obtain ⟨rfl, hslash⟩ := hmark
        obtain ⟨rest, rfl⟩ := List.head?_eq_some_iff.1 hslash
        rw [crlf_cons (by decide), longest_commentRule_mark, longest_commentRule_mark]
        rfl
      · have hmark' : ¬(c = '*' ∧ (crlf after).head? = some '/') := by
          rwa [Text.head?_crlf_iff (by decide) (by decide)]
        rw [Reading.longest_cons_of_some (commentRule_of_open hmark),
          Reading.longest_cons_of_some (commentRule_of_open hmark'), ih, crlf_cons hc]

/-- A block comment is valid when it was closed within its limit. -/
theorem kind_blockComment_eq_iff (body : List Char) :
    (blockComment body).kind = .blockComment ↔
      (Reading.longest commentRule .inside body).state = .closed ∧
        (blockComment body).text.length ≤ commentLimit := by
  simp only [blockComment, bounded]
  split
  · next hclosed => simp [hclosed]
  · next hopen => simp [hopen]

/-- What begins as a block comment is one, or is invalid. -/
theorem kind_blockComment_eq_or (body : List Char) :
    (blockComment body).kind = .blockComment ∨ (blockComment body).kind = .invalid := by
  unfold blockComment
  dsimp only
  split
  · exact bounded_eq_or ..
  · exact Or.inr rfl

/-- A block comment is found again, if its limit leaves room for the
carriage returns. -/
theorem blockComment_crlf (body : List Char)
    (hroom : (blockComment body).kind = .blockComment →
      (blockComment body).text.length + (blockComment body).text.count '\n' ≤ commentLimit) :
    (blockComment body).SameButReturns (blockComment (crlf body)) := by
  have htext : (blockComment (crlf body)).text = crlf (blockComment body).text := by
    simp only [blockComment, longest_commentRule_crlf]
    rfl
  have hiff := kind_blockComment_eq_iff (crlf body)
  rw [longest_commentRule_crlf, htext, Text.length_crlf] at hiff
  rcases kind_blockComment_eq_or body with hvalid | hinvalid
  · have hclosed := ((kind_blockComment_eq_iff body).1 hvalid).1
    have hvalid' := hiff.2 ⟨hclosed, hroom hvalid⟩
    refine .even (hvalid'.trans hvalid.symm) (fun hne => absurd hvalid hne) htext ?_
    simp only [blockComment, longest_commentRule_crlf]
  · refine .invalid hinvalid ((kind_blockComment_eq_or _).resolve_left fun hvalid' => ?_)
    -- A longer comment is not within the limit where the shorter one is not.
    obtain ⟨hclosed, hlength⟩ := hiff.1 hvalid'
    have hvalid := (kind_blockComment_eq_iff body).2 ⟨hclosed, Nat.le_of_add_right_le hlength⟩
    rw [hinvalid] at hvalid
    cases hvalid

/-- A line comment takes the carriage return at its end, which is not
part of its spelling. -/
theorem lineComment_crlf (text : List Char) :
    (lineComment text).SameButReturns (lineComment (crlf text)) := by
  obtain ⟨hread, hrest⟩ := Reading.span_crlf text
  have hspelled : Text.dropEnd (· = '\r') ((Reading.span (· ≠ '\n') text).read ++ ['\r']) =
      Text.dropEnd (· = '\r') (Reading.span (· ≠ '\n') text).read :=
    List.rdropWhile_concat_pos _ _ _ rfl
  -- The text ends with the comment, or its line ends with a return on one side.
  rcases hrest with ⟨hnil, hnil', heq⟩ | ⟨after, hrest, hrest', heq⟩
  · refine .even ?_ (fun _ => ?_) ?_ ?_
    · simp only [lineComment, heq]
    · simp only [lineComment, heq]
    · show (Reading.span (· ≠ '\n') (crlf text)).read = crlf (Reading.span (· ≠ '\n') text).read
      rw [heq, crlf_of_notMem hread]
    · show (Reading.span (· ≠ '\n') (crlf text)).rest = crlf (Reading.span (· ≠ '\n') text).rest
      rw [hnil, hnil', Text.crlf_nil]
  · have hkind : (lineComment (crlf text)).kind = (lineComment text).kind := by
      simp only [lineComment, heq, hspelled]
    rcases bounded_eq_or commentLimit .lineComment (lineComment text).text with hline | hinvalid
    · refine .returned after (Or.inl hline) hkind ?_ ?_ hrest hrest'
      · simp only [lineComment, heq, hspelled]
      · show (Reading.span (· ≠ '\n') (crlf text)).read =
          crlf (Reading.span (· ≠ '\n') text).read ++ ['\r']
        rw [heq, crlf_of_notMem hread]
    · exact .invalid hinvalid (hkind.trans hinvalid)

/-! ### Bodies of definitions -/

/-- The body of a definition takes the carriage return at its end, which
is trimmed off. -/
theorem ofDefineBody_crlf (hreturn : '\r' ∉ text) :
    (ofDefineBody text).SameButReturns (ofDefineBody (crlf text)) := by
  have hbody := sameBody none text hreturn
  -- The body ends with the text, or its line ends with a return, which is trimmed.
  cases hbody with
  | even hread hrest hjoined =>
      refine .even ?_ (fun _ => ?_) hread hrest
      · simp only [ofDefineBody, hjoined]
      · simp only [ofDefineBody, hjoined]
  | returned after hread hrest hrest' hjoined =>
      have htext : (ofDefineBody (crlf text)).text = (ofDefineBody text).text := by
        show Text.trimEnd _ = Text.trimEnd _
        rw [hjoined]
        exact List.rdropWhile_concat_pos _ _ _ rfl
      have hkind : (ofDefineBody (crlf text)).kind = (ofDefineBody text).kind :=
        congrArg (bounded lexemeLimit .defineLiteral) htext
      rcases bounded_eq_or lexemeLimit .defineLiteral (ofDefineBody text).text with
        hdefine | hinvalid
      · exact .returned after (Or.inr hdefine) hkind htext hread hrest hrest'
      · exact .invalid hinvalid (hkind.trans hinvalid)

/-! ### Normal mode -/

/-- A spelling of the class stays one when carriage returns are written at
its line ends: a block comment that stays within its limit, and a literal
on one line. -/
def BearsReturns (kind : TokenKind) (text : List Char) : Prop :=
  (kind = .blockComment → text.length + text.count '\n' ≤ commentLimit) ∧
    (kind = .stringLiteral ∨ kind = .charLiteral → '\n' ∉ text)

instance (kind : TokenKind) (text : List Char) : Decidable (BearsReturns kind text) :=
  inferInstanceAs (Decidable (_ ∧ _))

/-- A limit does not change the kind to any other than the invalid one. -/
theorem bounded_ne {limit : Nat} {kind other : TokenKind} {text : List Char} (h : kind ≠ other)
    (hinvalid : .invalid ≠ other) : bounded limit kind text ≠ other := by
  rcases bounded_eq_or limit kind text with hkind | hkind <;> rw [hkind] <;> assumption

/-- A quoted text is of its class or invalid. -/
theorem kind_quoted_ne {quote : Char} {kind other : TokenKind} {body : List Char}
    (h : kind ≠ other) (hinvalid : .invalid ≠ other) : (quoted quote kind body).kind ≠ other := by
  unfold quoted
  dsimp only
  split
  · exact bounded_ne h hinvalid
  · exact hinvalid

/-- The body of a definition is no lexeme of normal mode. -/
theorem kind_ofNormal_ne (c : Char) (after : List Char) :
    (ofNormal c after).kind ≠ .defineLiteral := by
  -- Class by class: two comments, two literals, numbers, identifiers and marks.
  unfold ofNormal
  split
  · unfold blockComment
    dsimp only
    split
    · exact bounded_ne nofun nofun
    · nofun
  split
  · exact bounded_ne nofun nofun
  split
  · exact kind_quoted_ne nofun nofun
  split
  · unfold charLiteral
    dsimp only
    split
    · nofun
    · exact kind_quoted_ne nofun nofun
  split
  · unfold number
    dsimp only
    split
    · exact bounded_ne nofun nofun
    · nofun
  split
  · exact bounded_ne nofun nofun
  · unfold punctuator markKind
    split
    · nofun
    · dsimp only
      split
      · nofun
      split <;> nofun

/-- A text begins with a digit with or without returns. -/
theorem head?_any_isDigit_crlf (after : List Char) :
    (crlf after).head?.any Char.isDigit = after.head?.any Char.isDigit := by
  cases after with
  | nil => rfl
  | cons d after =>
      by_cases hd : d = '\n'
      · subst hd
        rfl
      · rw [crlf_cons hd]
        rfl

/-- A lexeme of normal mode is found again. -/
theorem ofNormal_crlf (hc : c ≠ '\n')
    (hbears : BearsReturns (ofNormal c after).kind (ofNormal c after).text) :
    (ofNormal c after).SameButReturns (ofNormal c (crlf after)) := by
  have hstar : (crlf after).head? = some '*' ↔ after.head? = some '*' :=
    Text.head?_crlf_iff (by decide) (by decide) after
  have hslash : (crlf after).head? = some '/' ↔ after.head? = some '/' :=
    Text.head?_crlf_iff (by decide) (by decide) after
  -- Both sides look at the same two characters, so they branch alike.
  unfold ofNormal at hbears ⊢
  simp only [hstar, hslash, head?_any_isDigit_crlf]
  by_cases hblock : c = '/' ∧ after.head? = some '*'
  · rw [if_pos hblock] at hbears
    rw [if_pos hblock, if_pos hblock]
    obtain ⟨body, rfl⟩ := List.head?_eq_some_iff.1 hblock.2
    rw [crlf_cons (by decide)]
    exact blockComment_crlf body hbears.1
  rw [if_neg hblock] at hbears
  rw [if_neg hblock, if_neg hblock]
  by_cases hline : c = '/' ∧ after.head? = some '/'
  · rw [if_pos hline, if_pos hline, ← crlf_cons hc]
    exact lineComment_crlf _
  rw [if_neg hline] at hbears
  rw [if_neg hline, if_neg hline]
  by_cases hstring : c = '"'
  · rw [if_pos hstring] at hbears
    rw [if_pos hstring, if_pos hstring]
    exact stringLiteral_crlf after fun hvalid => hbears.2 (Or.inl hvalid)
  rw [if_neg hstring] at hbears
  rw [if_neg hstring, if_neg hstring]
  by_cases hchar : c = '\''
  · rw [if_pos hchar] at hbears
    rw [if_pos hchar, if_pos hchar]
    exact charLiteral_crlf after fun hvalid => hbears.2 (Or.inr hvalid)
  rw [if_neg hchar, if_neg hchar, ← crlf_cons hc]
  split
  · rw [(number_crlf _).1]
    exact sameButReturns_returns (number_crlf _).2
  split
  · rw [(identifier_crlf _).1]
    exact sameButReturns_returns (identifier_crlf _).2
  · rw [(punctuator_crlf hc after).1]
    exact sameButReturns_returns (punctuator_crlf hc after).2

/-! ### Blanks -/

/-- A blank in front is passed. -/
theorem blanks_cons_of_blank (hc : Text.isTokenBlank c = true) (after : List Char) :
    blanks (c :: after) = ⟨c :: (blanks after).read, (), (blanks after).rest⟩ :=
  Reading.longest_cons_of_some (if_pos (by rw [hc, Bool.true_or]))

/-- The backslash of a joint is passed, and its line feed is a blank. -/
theorem blanks_cons_of_joint (after : List Char) :
    blanks ('\\' :: '\n' :: after) =
      ⟨'\\' :: (blanks ('\n' :: after)).read, (), (blanks ('\n' :: after)).rest⟩ :=
  Reading.longest_cons_of_some rfl

/-- Any other character ends the blanks. -/
theorem blanks_cons_of_other (hc : Text.isTokenBlank c = false)
    (hjoint : ¬(c = '\\' ∧ after.head? = some '\n')) :
    blanks (c :: after) = ⟨[], (), c :: after⟩ :=
  Reading.longest_cons_of_none (if_neg (by simpa [hc] using hjoint))

/-- Blanks without a joint are skipped with their carriage returns. -/
theorem blanks_crlf (hjoint : '\\' ∉ (blanks text).read) :
    blanks (crlf text) = ⟨crlf (blanks text).read, (), crlf (blanks text).rest⟩ := by
  induction text with
  | nil => rfl
  | cons c after ih =>
      -- Joints are excluded, so a character that is no blank ends the blanks on both
      -- sides.
      cases hblank : Text.isTokenBlank c with
      | true =>
          rw [blanks_cons_of_blank hblank] at hjoint ⊢
          have hrest := ih fun h => hjoint (List.mem_cons_of_mem _ h)
          by_cases hc : c = '\n'
          · subst hc
            rw [crlf_feed, blanks_cons_of_blank rfl, blanks_cons_of_blank rfl, hrest]
            rfl
          · rw [crlf_cons hc, blanks_cons_of_blank hblank, hrest, crlf_cons hc]
      | false =>
          have hc : c ≠ '\n' := by
            rintro rfl
            cases hblank
          have hopen : ¬(c = '\\' ∧ after.head? = some '\n') := by
            rintro ⟨rfl, hfeed⟩
            obtain ⟨rest, rfl⟩ := List.head?_eq_some_iff.1 hfeed
            rw [blanks_cons_of_joint] at hjoint
            exact hjoint List.mem_cons_self
          rw [blanks_cons_of_other hblank hopen, crlf_cons hc, blanks_cons_of_other hblank
            fun h => Text.head?_crlf_ne after h.2]
          rfl

/-- The blanks of a line end before the line does. -/
theorem lineBlanks_crlf (text : List Char) :
    lineBlanks (crlf text) = ⟨(lineBlanks text).read, (), crlf (lineBlanks text).rest⟩ :=
  Reading.longest_crlf (fun _ _ _ _ => rfl) (fun _ _ => rfl) (fun _ _ => rfl) () text

end Lexeme

/-! ### Tokens -/

/-- The tokens differ in the carriage returns of their text at most; the
text of an invalid token may end elsewhere. -/
structure Token.SameButReturns (token token' : Token) : Prop where
  kind : token'.kind = token.kind
  position : token'.position = token.position
  text : token.kind ≠ .blockComment → token.kind ≠ .invalid → token'.text = token.text

namespace Cursor

variable {c d : Cursor} {token : Token} {mode : TokenMode}

/-- The body of a definition is not read in normal mode. -/
theorem kind_next_normal_ne (hnext : c.next .normal = (some token, d)) :
    token.kind ≠ .defineLiteral := by
  obtain ⟨ch, after, -, htake⟩ := next_normal_eq_some_iff.1 hnext
  rw [kind_of_take htake]
  exact Lexeme.kind_ofNormal_ne ch after

/-- The cursor at the same place of the text with carriage returns. -/
def crlf (c : Cursor) : Cursor :=
  ⟨Text.crlf c.unread, c.position⟩

/-- A line feed is due at `c`, and `c'` is the cursor in front of it in the
text with carriage returns. -/
def Returned (c c' : Cursor) : Prop :=
  ∃ after, c.unread = '\n' :: after ∧ c' = ⟨'\n' :: Text.crlf after, c.position.next '\r'⟩

/-- Between tokens it does not matter on which side of the carriage return
a cursor stands. -/
theorem Returned.next_normal {c' : Cursor} (h : c.Returned c') :
    c'.next .normal = c.crlf.next .normal := by
  obtain ⟨after, hafter, rfl⟩ := h
  have hblank := Lexeme.blanks_cons_of_blank (c := '\r') rfl ('\n' :: Text.crlf after)
  simp only [next, nextNormal, crlf, hafter, crlf_feed, hblank]
  rfl

/-- Where a cursor stands behind a token in the text with carriage
returns. -/
def GoesOn (token : Token) (d d' : Cursor) : Prop :=
  token.kind = .invalid ∨ d' = d.crlf ∨
    ((token.kind = .lineComment ∨ token.kind = .defineLiteral) ∧ d.Returned d')

/-- A lexeme that is found again becomes the same token. -/
theorem take_sameButReturns {start start' : Cursor} (hposition : start'.position = start.position)
    {x x' : Lexeme} (h : x.SameButReturns x') (htake : start.take x = (some token, d)) :
    ∃ token' d', start'.take x' = (some token', d') ∧ token.SameButReturns token' ∧
      GoesOn token d d' := by
  obtain ⟨rfl, rfl⟩ := take_eq_iff.1 htake
  refine ⟨_, _, rfl, ?_⟩
  -- The three ways in which lexemes can be the same but for returns.
  cases h with
  | invalid hinvalid hinvalid' =>
      exact ⟨⟨hinvalid'.trans hinvalid.symm, hposition, fun _ h => absurd hinvalid h⟩,
        Or.inl hinvalid⟩
  | even hkind htext hread hrest =>
      refine ⟨⟨hkind, hposition, fun hblock _ => congrArg String.ofList (htext hblock)⟩,
        Or.inr (Or.inl ?_)⟩
      simp only [past, crlf, hrest, hread, Position.past_crlf, hposition]
  | returned after hline hkind htext hread hrest hrest' =>
      refine ⟨⟨hkind, hposition, fun _ _ => congrArg String.ofList htext⟩,
        Or.inr (Or.inr ⟨hline, after, hrest, ?_⟩)⟩
      simp only [past, hrest', hread, Position.past_append, Position.past_crlf, hposition]
      rfl

/-- In the text with carriage returns the same token is next in normal
mode. -/
theorem next_normal_crlf (hjoint : '\\' ∉ (Lexeme.blanks c.unread).read)
    (hnext : c.next .normal = (some token, d))
    (hbears : Lexeme.BearsReturns token.kind token.text.toList) :
    ∃ token' d', c.crlf.next .normal = (some token', d') ∧ token.SameButReturns token' ∧
      GoesOn token d d' := by
  obtain ⟨ch, after, hrest, htake⟩ := next_normal_eq_some_iff.1 hnext
  have hch := Lexeme.ne_of_blanks_rest hrest
  have hblanks := Lexeme.blanks_crlf hjoint
  have hrest' : (Lexeme.blanks c.crlf.unread).rest = ch :: Text.crlf after := by
    rw [crlf, hblanks, hrest, crlf_cons hch]
  have hposition :
      (c.crlf.past (Lexeme.blanks c.crlf.unread).read (ch :: Text.crlf after)).position =
        (c.past (Lexeme.blanks c.unread).read (ch :: after)).position := by
    simp only [crlf, past, hblanks, Position.past_crlf]
  have hlexeme : Lexeme.BearsReturns (Lexeme.ofNormal ch after).kind
      (Lexeme.ofNormal ch after).text := by
    obtain ⟨rfl, -⟩ := take_eq_iff.1 htake
    rwa [String.toList_ofList] at hbears
  obtain ⟨token', d', htake', hsame⟩ :=
    take_sameButReturns hposition (Lexeme.ofNormal_crlf hch hlexeme) htake
  exact ⟨token', d', next_normal_eq_some_iff.2 ⟨ch, Text.crlf after, hrest', htake'⟩, hsame⟩

/-- Behind the blanks of a line the position is the same in the text with
carriage returns. -/
theorem position_lineBlanks_crlf (c : Cursor) (after after' : List Char) :
    (c.crlf.past (Lexeme.lineBlanks c.crlf.unread).read after').position =
      (c.past (Lexeme.lineBlanks c.unread).read after).position := by
  simp only [crlf, past, Lexeme.lineBlanks_crlf]

/-- So is it where the name of an included file is due. -/
theorem next_includeName_crlf (hnext : c.next .includeName = (some token, d)) :
    ∃ token' d', c.crlf.next .includeName = (some token', d') ∧ token.SameButReturns token' ∧
      GoesOn token d d' := by
  obtain ⟨ch, after, hrest, htake⟩ := next_includeName_eq_some_iff.1 hnext
  by_cases hch : ch = '\n'
  · -- No name is on the line, whichever character ends it.
    subst hch
    have hrest' : (Lexeme.lineBlanks c.crlf.unread).rest = '\r' :: '\n' :: Text.crlf after := by
      rw [crlf, Lexeme.lineBlanks_crlf, hrest, crlf_feed]
    have hinvalid : (Lexeme.ofIncludeName '\n' after).SameButReturns
        (Lexeme.ofIncludeName '\r' ('\n' :: Text.crlf after)) := .invalid rfl rfl
    obtain ⟨token', d', htake', hsame⟩ :=
      take_sameButReturns (position_lineBlanks_crlf c _ _) hinvalid htake
    exact ⟨token', d', next_includeName_eq_some_iff.2 ⟨'\r', _, hrest', htake'⟩, hsame⟩
  · have hrest' : (Lexeme.lineBlanks c.crlf.unread).rest = ch :: Text.crlf after := by
      rw [crlf, Lexeme.lineBlanks_crlf, hrest, crlf_cons hch]
    obtain ⟨token', d', htake', hsame⟩ := take_sameButReturns (position_lineBlanks_crlf c _ _)
      (Lexeme.ofIncludeName_crlf hch after) htake
    exact ⟨token', d', next_includeName_eq_some_iff.2 ⟨ch, _, hrest', htake'⟩, hsame⟩

/-- So is it where the body of a definition is due. -/
theorem next_defineBody_crlf (hreturn : '\r' ∉ c.unread)
    (hnext : c.next .defineBody = (some token, d)) :
    ∃ token' d', c.crlf.next .defineBody = (some token', d') ∧ token.SameButReturns token' ∧
      GoesOn token d d' := by
  have hrest : '\r' ∉ (Lexeme.lineBlanks c.unread).rest := by
    have hsuffix : (Lexeme.lineBlanks c.unread).rest <:+ c.unread :=
      ⟨_, Reading.longest_read_append_rest _ c.unread ()⟩
    exact fun h => hreturn (hsuffix.subset h)
  have hrest' : (Lexeme.lineBlanks c.crlf.unread).rest =
      Text.crlf (Lexeme.lineBlanks c.unread).rest := by
    rw [crlf, Lexeme.lineBlanks_crlf]
  rw [next_defineBody] at hnext ⊢
  rw [hrest']
  exact take_sameButReturns (position_lineBlanks_crlf c _ _) (Lexeme.ofDefineBody_crlf hrest) hnext

/-- In the text with carriage returns the same token is next. -/
theorem next_crlf (hreturn : '\r' ∉ c.unread)
    (hjoint : mode = .normal → '\\' ∉ (Lexeme.blanks c.unread).read)
    (hnext : c.next mode = (some token, d))
    (hbears : Lexeme.BearsReturns token.kind token.text.toList) :
    ∃ token' d', c.crlf.next mode = (some token', d') ∧ token.SameButReturns token' ∧
      GoesOn token d d' := by
  cases mode with
  | normal => exact next_normal_crlf (hjoint rfl) hnext hbears
  | includeName => exact next_includeName_crlf hnext
  | defineBody => exact next_defineBody_crlf hreturn hnext

/-- Where the text has no token left, the text with carriage returns has
none either. -/
theorem next_crlf_of_none
    (hjoint : mode = .normal → '\\' ∉ (Lexeme.blanks c.unread).read)
    (hnext : c.next mode = (none, d)) : c.crlf.next mode = (none, d.crlf) := by
  cases mode with
  | normal =>
      obtain ⟨hrest, rfl⟩ := next_normal_eq_none_iff.1 hnext
      refine next_normal_eq_none_iff.2 ?_
      simp only [crlf, past, Lexeme.blanks_crlf (hjoint rfl), hrest, Text.crlf_nil,
        Position.past_crlf, and_self]
  | includeName =>
      obtain ⟨hrest, rfl⟩ := next_includeName_eq_none_iff.1 hnext
      refine next_includeName_eq_none_iff.2 ?_
      simp only [crlf, past, Lexeme.lineBlanks_crlf, hrest, Text.crlf_nil, and_self]
  | defineBody => cases hnext

end Cursor

end CDeclarations
