import CDeclarations.Proofs.Parser.Calls
import CDeclarations.Proofs.Parser.ErrorNode
import CDeclarations.Proofs.Token.Positions

/-!
# `CDeclarations.Proofs.Parser.ErrorLine`: the line of an error

The reader of a text counts line feeds, and a display cuts the text into
lines. Both agree on every character of the text: its line is one of those
of the display (`Position.counted_line_le`). They disagree about the place
behind the text, where no line is displayed if the text ends with a line
feed (`Position.counted_line_le_iff`).

* `Cursor.position_of_next`: a token stands at a character, but for the body
  of a definition that the text has no character left for.
* `settled_deliver`: a run refuses no such body, so that the token which it
  refuses stands at a character, by induction on the run.
* `exists_error_of_parse`: the error of a unit is on a line of the text
  unless it marks the end of a text that ends with a line feed.
-/

set_option autoImplicit false

namespace CDeclarations

/-! ### Lines that are counted and lines that are displayed -/

namespace Position

/-- A character of the text stands on one of its lines. -/
theorem counted_line_le {text : List Char} (before : List Char) (h : text ≠ []) :
    (counted before).line ≤ (Text.lines (before ++ text)).length := by
  rw [Text.length_lines, List.count_append]
  show 1 + before.count '\n' ≤ _
  have hnil : before ++ text ≠ [] := List.append_ne_nil_of_right_ne_nil before h
  split
  · next hended =>
    -- The line feed at the end of the text is that character or stands behind it.
    have hlast := hended.resolve_left hnil
    rw [List.getLast?_append_of_ne_nil before h] at hlast
    have hpos : 0 < text.count '\n' := List.count_pos_iff.2 (List.mem_of_getLast? hlast)
    omega
  · omega

/-- The place behind the text is on one of its lines, unless the text has
none or ends the last one. -/
theorem counted_line_le_iff (text : List Char) :
    (counted text).line ≤ (Text.lines text).length ↔
      ¬(text = [] ∨ text.getLast? = some '\n') := by
  rw [Text.length_lines]
  show 1 + text.count '\n' ≤ _ ↔ _
  split
  · next hended => exact iff_of_false (by omega) (not_not_intro hended)
  · next hopen => exact iff_of_true (by omega) hopen

end Position

/-! ### Where a token stands -/

/-- A token stands at a character of the text. Only the body of a definition
may be there without one, and is valid then. -/
theorem Cursor.position_of_next {c d : Cursor} {mode : TokenMode} {token : Token}
    (h : c.next mode = (some token, d)) :
    ∃ gap rest, c.unread = gap ++ rest ∧ token.position = c.position.past gap ∧
      (rest = [] → mode = .defineBody ∧ token.kind = .defineLiteral) := by
  have hblank : (Lexeme.blanks c.unread).read ++ (Lexeme.blanks c.unread).rest = c.unread :=
    Reading.longest_read_append_rest _ _ _
  have hline : (Lexeme.lineBlanks c.unread).read ++ (Lexeme.lineBlanks c.unread).rest = c.unread :=
    Reading.longest_read_append_rest _ _ _
  -- In two modes a token needs a character to begin with. The body of a definition is
  -- there also at the end of the text.
  cases mode with
  | normal =>
      obtain ⟨ch, after, hrest, h⟩ := next_normal_eq_some_iff.1 h
      rw [hrest] at hblank
      obtain ⟨rfl, -⟩ := take_eq_iff.1 h
      exact ⟨_, _, hblank.symm, rfl, fun hnil => absurd hnil (List.cons_ne_nil ch after)⟩
  | includeName =>
      obtain ⟨ch, after, hrest, h⟩ := next_includeName_eq_some_iff.1 h
      rw [hrest] at hline
      obtain ⟨rfl, -⟩ := take_eq_iff.1 h
      exact ⟨_, _, hline.symm, rfl, fun hnil => absurd hnil (List.cons_ne_nil ch after)⟩
  | defineBody =>
      rw [next_defineBody] at h
      obtain ⟨rfl, -⟩ := take_eq_iff.1 h
      refine ⟨_, _, hline.symm, rfl, fun hrest => ⟨rfl, ?_⟩⟩
      show (Lexeme.ofDefineBody (Lexeme.lineBlanks c.unread).rest).kind = _
      rw [hrest]
      rfl

namespace Parser

variable {p : Parser} {c d : Cursor} {token : Token} {failure : Failure}

/-- The position is that of a character which is left at the cursor. -/
def InText (c : Cursor) (position : Position) : Prop :=
  ∃ before text, c.unread = before ++ text ∧ text ≠ [] ∧ position = c.position.past before

/-- What is read before the rest of a text is in the text as well. -/
theorem InText.of_extends {position : Position} (h : InText d position) (hcd : c.Extends d) :
    InText c position := by
  obtain ⟨before, text, hunread, htext, rfl⟩ := h
  obtain ⟨read, hread, hposition⟩ := hcd
  refine ⟨read ++ before, text, ?_, htext, ?_⟩
  · rw [hread, hunread, List.append_assoc]
  · rw [hposition, Position.past_append]

/-- A token that stops the parse stands at a character. -/
theorem Attuned.inText_of_isStopped (hp : p.Attuned)
    (hnext : c.next p.pending = (some token, d)) (hstop : (p.receive token).isStopped = true) :
    InText c token.position := by
  obtain ⟨gap, rest, hunread, hposition, hempty⟩ := Cursor.position_of_next hnext
  refine ⟨gap, rest, hunread, fun hrest => ?_, hposition⟩
  -- An empty body ends its directive, and the parse goes on.
  obtain ⟨hmode, hkind⟩ := hempty hrest
  have hasked := hp.mode?_eq (by rw [hmode]; decide)
  rw [isStopped, state_receive_literal hasked (Or.inr hkind)] at hstop
  cases hstop

/-- A run leaves the parse growing, or a token that stands at a character
stops it. -/
theorem settled_deliver (hp : p.Growing) (ha : p.Attuned) (hrun : p.isStopped = false) :
    ((p.deliver c).parser.isStopped = false ∧ (p.deliver c).parser.Growing) ∨
      ∃ token failure, (p.deliver c).parser.StoppedBy token failure ∧ InText c token.position := by
  induction p, c using deliver_induction with
  | stopped p c hstop => cases hstop.symm.trans hrun
  | ended p c d _ hnext =>
      rw [deliver_of_none hrun hnext]
      exact Or.inl ⟨hrun, hp.tidy, hp.spine⟩
  | delivered p c token d _ hnext ih =>
      rw [deliver_of_some hrun hnext]
      have hspent : Growing { p with pending := .normal } := ⟨hp.tidy, hp.spine⟩
      -- A token leaves the parse going, and then the next ones decide, or it stops it
      -- where it stands.
      rcases hspent.settled_feed hrun token with ⟨hgoes, hgrowing⟩ | ⟨failure, hstopped⟩
      · have hext : c.Extends d := by
          have hext := c.extends_next p.pending
          rwa [hnext] at hext
        exact (ih hgrowing (ha.receive hrun hnext) hgoes).imp_right
          fun ⟨token, failure, hstopped, hin⟩ => ⟨token, failure, hstopped, hin.of_extends hext⟩
      · have hstop : (p.receive token).isStopped = true := hstopped.isStopped
        rw [deliver_of_isStopped hstop]
        exact Or.inr ⟨token, failure, hstopped, ha.inText_of_isStopped hnext hstop⟩

end Parser

/-- The text ends too soon, behind a line feed. -/
def EndsBelow (status : Status) (text : String) : Prop :=
  status = .failed (.rejected .unexpectedEndOfInput) ∧ text.toList.getLast? = some '\n'

/-- An empty text is a complete unit. -/
theorem status_parse_of_empty (kind : UnitKind) (filename : String) {text : String}
    (h : text.toList = []) : (parse kind filename text).status = .completed := by
  have hnext : (Cursor.ofList []).next .normal = (none, .ofList []) := rfl
  rw [parse, Parser.run, Cursor.ofString, h, Parser.deliver_of_none rfl hnext]
  rfl

/-- A unit that is not complete has one error. It stands on a line of the
text as a display cuts it, unless the text ends too soon and behind a line
feed. -/
theorem exists_error_of_parse (kind : UnitKind) (filename text : String)
    (h : (parse kind filename text).status ≠ .completed) :
    ∃ error, (parse kind filename text).tree.EndsWith error ∧
      (parse kind filename text).tree.OnlyErrors ∧ 1 ≤ error.position.line ∧
      (error.position.line ≤ (Text.lines text.toList).length ↔
        ¬EndsBelow (parse kind filename text).status text) := by
  have hrun : (Parser.ofUnit kind filename).isStopped = false := rfl
  let d := (Parser.ofUnit kind filename).deliver (.ofString text)
  rcases Parser.settled_deliver (c := .ofString text) (Parser.growing_ofUnit kind filename)
    (Parser.attuned_ofUnit kind filename) hrun with ⟨hgoes, hgrowing⟩ |
    ⟨token, failure, hstopped, before, rest, htext, hrest, hposition⟩
  · -- No token is refused, and the error stands behind the whole text.
    rcases hgrowing.close hgoes d.cursor with ⟨hcompleted, -⟩ | ⟨error, hfails, -, herror⟩
    · exact absurd hcompleted h
    have hcounted : error.position = .counted text.toList := by
      rw [herror, Parser.position_deliver hgoes]
      exact Position.past_start_eq_counted text.toList
    have hnil : text.toList ≠ [] := fun hempty => h (status_parse_of_empty kind filename hempty)
    refine ⟨error, hfails.endsWith, hfails.onlyErrors, ?_, ?_⟩
    · rw [hcounted]
      exact Nat.le_add_right 1 _
    · rw [hcounted, Position.counted_line_le_iff, EndsBelow, or_iff_right hnil]
      exact not_congr (and_iff_right hfails.status).symm
  · -- The refused token stands at a character, and its error does.
    obtain ⟨error, hfails, -, herror⟩ := hstopped.close d.cursor
    have htext' : text.toList = before ++ rest := htext
    have hcounted : error.position = .counted before := by
      rw [herror, hposition]
      exact Position.past_start_eq_counted before
    refine ⟨error, hfails.endsWith, hfails.onlyErrors, ?_, iff_of_true ?_ ?_⟩
    · rw [hcounted]
      exact Nat.le_add_right 1 _
    · rw [hcounted, htext']
      exact Position.counted_line_le before hrest
    · rintro ⟨hend, -⟩
      exact hstopped.ne_end (Status.failed.inj (hfails.status.symm.trans hend))

end CDeclarations
