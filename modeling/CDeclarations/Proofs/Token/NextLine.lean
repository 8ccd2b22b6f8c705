import CDeclarations.Proofs.Token.Seam

/-!
# `CDeclarations.Proofs.Token.NextLine`: no valid token reaches into the next line

A text may break off anywhere, and further lines may follow it. A valid token
read from the text is the same then, for no look-ahead takes the line feed for
what it looks for. Two readings do: the blanks take a backslash before it, and
so does the body of a definition. Behind such blanks stands no valid token, and
such a body leaves nothing of the text unread.

* `Reading.longest_append_of_rest`: a stretch is the same where the text goes
  on, if its rule sees the same along the stretch.
* `Lexeme.ofNormal_append`, `ofIncludeName_append`, `ofDefineBody_append`: so is
  a valid lexeme, in each of the modes.
* `Cursor.next_extend`: so is a valid token.
-/

set_option autoImplicit false

namespace CDeclarations

/-! ### Readings -/

/-- A stretch is the same where the text goes on with `tail`, if no character of
the stretch and not the one behind it is judged in another way there. The rule
has to be looked at only where what it leads to leaves the same rest. -/
theorem Reading.longest_append_of_rest {σ : Type} {rule : σ → Char → List Char → Option σ}
    {s : σ} {text tail : List Char}
    (hrule : ∀ s' c after, (longest rule s' (c :: after)).rest = (longest rule s text).rest →
      rule s' c (after ++ tail) = rule s' c after)
    (hend : (longest rule s text).rest = [] →
      (longest rule (longest rule s text).state tail) = ⟨[], (longest rule s text).state, tail⟩) :
    longest rule s (text ++ tail) = (longest rule s text).extend tail := by
  induction text generalizing s with
  | nil => exact hend rfl
  | cons c after ih =>
      -- The rule may look ahead, and sees the same with the tail behind the text.
      rw [List.cons_append, longest_cons, longest_cons, hrule s c after rfl]
      cases hs : rule s c after with
      | none => rfl
      | some s' =>
          have hlongest := longest_cons_of_some hs
          rw [hlongest] at hrule hend
          simp only [ih hrule hend, extend]

/-- A rule that sees the same before a line feed as at the end, and refuses the
line feed itself. -/
theorem Reading.longest_append_newline {σ : Type} {rule : σ → Char → List Char → Option σ} {s : σ}
    {text more : List Char}
    (hrule : ∀ s c after, rule s c (after ++ '\n' :: more) = rule s c after)
    (hend : (longest rule s text).rest = [] →
      rule (longest rule s text).state '\n' more = none) :
    longest rule s (text ++ '\n' :: more) = (longest rule s text).extend ('\n' :: more) :=
  longest_append_of_rest (fun s' c after _ => hrule s' c after)
    fun hrest => longest_cons_of_none (hend hrest)

/-! ### Lexemes -/

namespace Lexeme

variable {c : Char} {text after body more : List Char}

/-- What stands behind a character is seen whether a line feed follows or not,
unless it is looked for. -/
theorem head?_append_newline (after more : List Char) {d : Char} (hd : d ≠ '\n') :
    (after ++ '\n' :: more).head? = some d ↔ after.head? = some d := by
  cases after with
  | nil => simp [Ne.symm hd]
  | cons e after => exact Iff.rfl

/-- A comment that was closed is read as before with a line behind it. -/
theorem blockComment_append (hvalid : (blockComment body).kind ≠ .invalid) :
    blockComment (body ++ '\n' :: more) = (blockComment body).extend ('\n' :: more) := by
  have hclosed := closed_of_blockComment_valid hvalid
  have happend : Reading.longest commentRule .inside (body ++ '\n' :: more) =
      (Reading.longest commentRule .inside body).extend ('\n' :: more) := by
    refine Reading.longest_append_newline (fun s c after => ?_) fun _ => by rw [hclosed]; rfl
    cases s with
    | inside => simp only [commentRule, head?_append_newline after more (by decide : '/' ≠ '\n')]
    | closing => rfl
    | closed => rfl
  unfold blockComment
  rw [happend]
  rfl

/-- A line comment ends with its line. -/
theorem lineComment_append (text : List Char) : lineComment (text ++ '\n' :: more) =
    (lineComment text).extend ('\n' :: more) := by
  have happend : Reading.span (· ≠ '\n') (text ++ '\n' :: more) =
      (Reading.span (· ≠ '\n') text).extend ('\n' :: more) :=
    Reading.longest_append_newline (fun _ _ _ => rfl) fun _ => rfl
  unfold lineComment
  rw [happend]
  rfl

/-- A literal that was closed is read as before with a line behind it. -/
theorem quoted_append {quote : Char} {kind : TokenKind}
    (hvalid : (quoted quote kind body).kind ≠ .invalid) :
    quoted quote kind (body ++ '\n' :: more) =
      (quoted quote kind body).extend ('\n' :: more) := by
  have hclosed := closed_of_quoted_valid hvalid
  have happend : Reading.longest (quoteRule quote) .inside (body ++ '\n' :: more) =
      (Reading.longest (quoteRule quote) .inside body).extend ('\n' :: more) :=
    Reading.longest_append_newline (fun s _ _ => by cases s <;> rfl)
      fun _ => by rw [hclosed]; rfl
  unfold quoted
  rw [happend]
  rfl

/-- So is a character literal. -/
theorem charLiteral_append (hvalid : (charLiteral body).kind ≠ .invalid) :
    charLiteral (body ++ '\n' :: more) = (charLiteral body).extend ('\n' :: more) := by
  obtain ⟨hlength, heq⟩ := charLiteral_of_valid hvalid
  rw [heq] at hvalid ⊢
  rw [charLiteral, quoted_append hvalid]
  exact if_neg hlength

/-- A number ends with its line. -/
theorem number_append : number (c :: after ++ '\n' :: more) =
    (number (c :: after)).extend ('\n' :: more) := by
  -- The base mark is among the first two characters, and is no line feed.
  have hhex : Numeral.isHexMarked (c :: after ++ '\n' :: more) =
      Numeral.isHexMarked (c :: after) := by
    cases after with
    | nil =>
        show Numeral.isHexMarked (c :: '\n' :: more) = Numeral.isHexMarked [c]
        unfold Numeral.isHexMarked
        split <;> simp_all
    | cons d after =>
        show Numeral.isHexMarked (c :: d :: (after ++ _)) = Numeral.isHexMarked (c :: d :: after)
        unfold Numeral.isHexMarked
        split <;> simp_all
  have happend : Reading.longest (Numeral.runRule (Numeral.isHexMarked (c :: after))) ' '
      (c :: after ++ '\n' :: more) = (Reading.longest (Numeral.runRule
        (Numeral.isHexMarked (c :: after))) ' ' (c :: after)).extend ('\n' :: more) :=
    Reading.longest_append_newline (fun _ _ _ => rfl) fun _ => rfl
  unfold number
  rw [hhex, happend]
  rfl

/-- An identifier ends with its line. -/
theorem identifier_append (text : List Char) : identifier (text ++ '\n' :: more) =
    (identifier text).extend ('\n' :: more) := by
  have happend : Reading.span isIdentifierPart (text ++ '\n' :: more) =
      (Reading.span isIdentifierPart text).extend ('\n' :: more) :=
    Reading.longest_append_newline (fun _ _ _ => rfl) fun _ => rfl
  unfold identifier
  rw [happend]
  rfl

/-- What holds no line feed does not reach over one. -/
theorem prefix_of_prefix_append_newline {op : List Char} (text : List Char) (hop : '\n' ∉ op)
    (h : op <+: text ++ '\n' :: more) : op <+: text := by
  rcases List.prefix_or_prefix_of_prefix h (List.prefix_append text _) with hshort | hover
  · exact hshort
  obtain ⟨rest, rfl⟩ := hover
  cases rest with
  | nil => simp
  | cons d rest =>
      have hrest := (List.prefix_append_right_inj text).1 h
      obtain ⟨rfl, -⟩ := List.cons_prefix_cons.1 hrest
      exact absurd (List.mem_append_right text List.mem_cons_self) hop

/-- A mark ends with its line, since none has a line feed in it. -/
theorem punctuator_append : punctuator c (after ++ '\n' :: more) =
    (punctuator c after).extend ('\n' :: more) := by
  have hfeed : ∀ op ∈ longOperators, '\n' ∉ op := by decide
  have hfind : longOperators.find? (·.isPrefixOf (c :: (after ++ '\n' :: more))) =
      longOperators.find? (·.isPrefixOf (c :: after)) := by
    refine List.find?_congr fun op hop => ?_
    rw [Bool.eq_iff_iff, List.isPrefixOf_iff_prefix, List.isPrefixOf_iff_prefix]
    constructor
    · exact fun hlong => prefix_of_prefix_append_newline (c :: after) (hfeed op hop) hlong
    · exact fun hshort => hshort.trans (List.prefix_append (c :: after) _)
  unfold punctuator
  rw [hfind]
  cases hop : longOperators.find? (·.isPrefixOf (c :: after)) with
  | none => rfl
  | some op =>
      have hsome := List.find?_some hop
      obtain ⟨rest, hrest⟩ := List.isPrefixOf_iff_prefix.1 hsome
      have hdrop : (c :: after).drop op.length = rest := by rw [← hrest, List.drop_left]
      have hmore : (c :: (after ++ '\n' :: more)).drop op.length = rest ++ '\n' :: more := by
        rw [← List.cons_append, ← hrest, List.append_assoc, List.drop_left]
      show Lexeme.mk _ _ _ ((c :: (after ++ '\n' :: more)).drop op.length) =
        Lexeme.mk _ _ _ ((c :: after).drop op.length ++ '\n' :: more)
      rw [hdrop, hmore]

/-- In normal mode a valid lexeme is the same where a line feed follows. -/
theorem ofNormal_append (hvalid : (ofNormal c after).kind ≠ .invalid) :
    ofNormal c (after ++ '\n' :: more) = (ofNormal c after).extend ('\n' :: more) := by
  have hdigit : (after ++ '\n' :: more).head?.any Char.isDigit = after.head?.any Char.isDigit := by
    cases after <;> rfl
  -- Class by class. The characters that decide on the class are followed by the same
  -- ones as before.
  unfold ofNormal at *
  simp only [head?_append_newline after more (by decide : '*' ≠ '\n'),
    head?_append_newline after more (by decide : '/' ≠ '\n'), hdigit]
  split
  · next hcomment =>
    rw [if_pos hcomment] at hvalid
    obtain ⟨body, rfl⟩ := List.head?_eq_some_iff.1 hcomment.2
    exact blockComment_append hvalid
  next hblock =>
  rw [if_neg hblock] at hvalid
  split
  · exact lineComment_append (c :: after)
  next hline =>
  rw [if_neg hline] at hvalid
  split
  · next hquote =>
    rw [if_pos hquote] at hvalid
    exact quoted_append hvalid
  next hstring =>
  rw [if_neg hstring] at hvalid
  split
  · next hquote =>
    rw [if_pos hquote] at hvalid
    exact charLiteral_append hvalid
  split
  · exact number_append
  split
  · exact identifier_append (c :: after)
  · exact punctuator_append

/-- A name of a file that was closed is read as before with a line behind it.
-/
theorem fileName_append {close : Char} (hvalid : (fileName c close after).kind ≠ .invalid) :
    fileName c close (after ++ '\n' :: more) =
      (fileName c close after).extend ('\n' :: more) := by
  have hclosed := closed_of_fileName_valid hvalid
  have happend : Reading.longest (nameRule close) false (after ++ '\n' :: more) =
      (Reading.longest (nameRule close) false after).extend ('\n' :: more) :=
    Reading.longest_append_newline (fun _ _ _ => rfl) fun _ => by rw [hclosed]; rfl
  unfold fileName
  rw [happend]
  rfl

/-- So is a valid file name. -/
theorem ofIncludeName_append (hvalid : (ofIncludeName c after).kind ≠ .invalid) :
    ofIncludeName c (after ++ '\n' :: more) =
      (ofIncludeName c after).extend ('\n' :: more) := by
  unfold ofIncludeName at *
  split
  · next hopen =>
    rw [if_pos hopen] at hvalid
    exact fileName_append hvalid
  next hangle =>
  rw [if_neg hangle] at hvalid
  split
  · next hopen =>
    rw [if_pos hopen] at hvalid
    exact fileName_append hvalid
  -- No other character opens a name.
  next hquote =>
  rw [if_neg hquote] at hvalid
  exact absurd rfl hvalid

/-- A body that leaves something of the text has seen all that it looked for. -/
theorem bodyRule_append {s : BodyState}
    (hrest : (Reading.longest bodyRule s (c :: after)).rest ≠ []) :
    bodyRule s c (after ++ '\n' :: more) = bodyRule s c after := by
  -- The last character is taken by every rule but that of the line feed.
  have hlast : ∀ s c, (Reading.longest bodyRule s [c]).rest ≠ [] → s.owed = 0 ∧ c = '\n' := by
    intro s c hrest
    have hnone : bodyRule s c [] = none := by
      cases hs : bodyRule s c [] with
      | none => rfl
      | some s' =>
          rw [Reading.longest_cons_of_some hs] at hrest
          exact absurd rfl hrest
    unfold bodyRule at hnone
    simp only [List.head?_nil, List.take_nil] at hnone
    split_ifs at hnone <;> simp_all
  match after with
  | [] =>
      obtain ⟨howed, rfl⟩ := hlast s c hrest
      simp [bodyRule, howed]
  | [d] =>
      by_cases hjoint : s.owed = 0 ∧ c = '\\' ∧ d = '\r'
      · -- The carriage return is taken, and nothing is left.
        obtain ⟨howed, rfl, rfl⟩ := hjoint
        have hs : bodyRule s '\\' ['\r'] =
            some { s with owed := if s.quote.isSome then 1 else 0 } := by
          simp [bodyRule, howed]
        rw [Reading.longest_cons_of_some hs] at hrest
        exact absurd (hlast _ _ hrest).2 (by decide)
      · unfold bodyRule
        simp only [List.cons_append, List.nil_append, List.head?_cons, List.take_succ_cons,
          List.take_zero, List.take_nil]
        split_ifs <;> simp_all
  | d :: e :: after => rfl

/-- The body of a definition that does not end with the text is the same where
a line feed follows. -/
theorem ofDefineBody_append (hrest : (ofDefineBody text).rest ≠ []) :
    ofDefineBody (text ++ '\n' :: more) = (ofDefineBody text).extend ('\n' :: more) := by
  have hrest' : (Reading.longest bodyRule ⟨none, 0⟩ text).rest ≠ [] := hrest
  have happend : Reading.longest bodyRule ⟨none, 0⟩ (text ++ '\n' :: more) =
      (Reading.longest bodyRule ⟨none, 0⟩ text).extend ('\n' :: more) :=
    Reading.longest_append_of_rest
      (fun s c after heq => bodyRule_append (by rw [heq]; exact hrest'))
      fun hnil => absurd hnil hrest'
  unfold ofDefineBody
  rw [happend]
  rfl

/-! ### Blanks -/

/-- Blanks are the same where a line feed follows, if a token stands behind them
that is not a lone backslash. -/
theorem blanks_append_newline (hrest : (blanks text).rest ≠ [])
    (hbackslash : (blanks text).rest ≠ ['\\']) :
    blanks (text ++ '\n' :: more) = (blanks text).extend ('\n' :: more) := by
  refine Reading.longest_append_of_rest (fun s c after heq => ?_) fun hnil => absurd hnil hrest
  by_cases hc : c = '\\'
  · subst hc
    cases after with
    | cons d after => rfl
    | nil => exact absurd heq.symm hbackslash
  · have hne : ∀ text : List Char, (decide (c = '\\') && decide (text.head? = some '\n')) = false :=
      fun text => by rw [decide_eq_false hc, Bool.false_and]
    rw [hne, hne]

/-- The blanks of a line end before the line behind it. -/
theorem lineBlanks_append_newline :
    lineBlanks (text ++ '\n' :: more) = (lineBlanks text).extend ('\n' :: more) :=
  Reading.longest_append_newline (fun _ _ _ => rfl) fun _ => rfl

end Lexeme

/-! ### Tokens -/

namespace Cursor

variable {c d : Cursor} {token : Token} {mode : TokenMode}

/-- A cursor with more text behind it takes the same lexeme. -/
theorem take_extend {start : Cursor} {x : Lexeme} {more : List Char}
    (h : start.take x = (some token, d)) :
    (start.extend more).take (x.extend more) = (some token, d.extend more) := by
  obtain ⟨rfl, rfl⟩ := take_eq_iff.1 h
  rfl

/-- A lone backslash is no token. -/
theorem kind_ofNormal_backslash : (Lexeme.ofNormal '\\' []).kind = .invalid := by
  decide +kernel

/-- In normal mode a valid token is the same where a line feed and more text
follow. -/
theorem next_normal_extend (hnext : c.next .normal = (some token, d))
    (hvalid : token.kind ≠ .invalid) (more : List Char) :
    (c.extend ('\n' :: more)).next .normal = (some token, d.extend ('\n' :: more)) := by
  obtain ⟨ch, after, hrest, htake⟩ := next_normal_eq_some_iff.1 hnext
  have hlexeme : (Lexeme.ofNormal ch after).kind ≠ .invalid := kind_of_take htake ▸ hvalid
  -- The blanks end before the token, and a backslash that ends the text is none.
  have hblanks : Lexeme.blanks (c.unread ++ '\n' :: more) =
      (Lexeme.blanks c.unread).extend ('\n' :: more) := by
    refine Lexeme.blanks_append_newline (by rw [hrest]; exact List.cons_ne_nil ch after) ?_
    rw [hrest]
    intro hback
    cases hback
    exact hlexeme kind_ofNormal_backslash
  refine next_normal_eq_some_iff.2 ⟨ch, after ++ '\n' :: more, ?_, ?_⟩
  · rw [extend, hblanks, Reading.extend, hrest, List.cons_append]
  · rw [extend, hblanks, Lexeme.ofNormal_append hlexeme]
    exact take_extend htake

/-- So is a valid file name. -/
theorem next_includeName_extend (hnext : c.next .includeName = (some token, d))
    (hvalid : token.kind ≠ .invalid) (more : List Char) :
    (c.extend ('\n' :: more)).next .includeName = (some token, d.extend ('\n' :: more)) := by
  obtain ⟨ch, after, hrest, htake⟩ := next_includeName_eq_some_iff.1 hnext
  have hlexeme : (Lexeme.ofIncludeName ch after).kind ≠ .invalid := kind_of_take htake ▸ hvalid
  refine next_includeName_eq_some_iff.2 ⟨ch, after ++ '\n' :: more, ?_, ?_⟩
  · rw [extend, Lexeme.lineBlanks_append_newline, Reading.extend, hrest, List.cons_append]
  · rw [extend, Lexeme.lineBlanks_append_newline, Lexeme.ofIncludeName_append hlexeme]
    exact take_extend htake

/-- So is the body of a definition that ends before the text does. -/
theorem next_defineBody_extend (hnext : c.next .defineBody = (some token, d))
    (hrest : d.unread ≠ []) (more : List Char) :
    (c.extend ('\n' :: more)).next .defineBody = (some token, d.extend ('\n' :: more)) := by
  rw [next_defineBody] at hnext ⊢
  have hbody : (Lexeme.ofDefineBody (Lexeme.lineBlanks c.unread).rest).rest ≠ [] := by
    obtain ⟨-, rfl⟩ := take_eq_iff.1 hnext
    exact hrest
  rw [extend, Lexeme.lineBlanks_append_newline]
  simp only [Reading.extend]
  rw [Lexeme.ofDefineBody_append hbody]
  exact take_extend hnext

/-- A valid token is the same where a line feed and more text follow, but for
the body of a definition that ends with the text. -/
theorem next_extend (hnext : c.next mode = (some token, d)) (hvalid : token.kind ≠ .invalid)
    (hbody : mode = .defineBody → d.unread ≠ []) (more : List Char) :
    (c.extend ('\n' :: more)).next mode = (some token, d.extend ('\n' :: more)) := by
  cases mode with
  | normal => exact next_normal_extend hnext hvalid more
  | includeName => exact next_includeName_extend hnext hvalid more
  | defineBody => exact next_defineBody_extend hnext (hbody rfl) more

end Cursor

end CDeclarations
