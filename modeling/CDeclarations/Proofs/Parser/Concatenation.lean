import CDeclarations.Proofs.Parser.Alike
import CDeclarations.Proofs.Parser.Pending
import CDeclarations.Proofs.Token.Seam
import CDeclarations.Proofs.Tree.Graft
import Mathlib

/-!
# `CDeclarations.Proofs.Parser.Concatenation`: one unit behind another

Nothing of a declaration leaks into the next one. A unit that ends with
a blank line and is parsed completely may be followed by any other
text, and the text is parsed as it is parsed alone: its status is the
same, and its nodes stand behind those of the unit, as many lines
further down as the unit has (`parse_append`).

* `deliver_append`: a run that ends between declarations goes on where
  the text does.
* `Sound.deliver_graft`: a run behind another tree and further down is
  the same run.
* `Sound.eq_graft_ofUnit`: a parse between declarations is that of a
  unit that begins behind the tree so far, but for what is left over.
-/

set_option autoImplicit false

namespace CDeclarations.Parser

open Text

variable {p q : Parser} {c d : Cursor} {token : Token}

/-! ### A run where the text goes on -/

/-- A run that ends between declarations leaves no mode pending. -/
theorem pending_deliver (p : Parser) (c : Cursor) (hidle : (p.deliver c).parser.state = .idle) :
    (p.deliver c).parser.pending = .normal := by
  induction p, c using deliver_induction with
  | stopped p c h =>
      rw [deliver_of_isStopped h] at hidle
      exact absurd hidle (ne_idle_of_isStopped h)
  | ended p c d h hnext => rw [deliver_of_none h hnext]
  | delivered p c token d h hnext ih =>
      rw [deliver_of_some h hnext] at hidle ⊢
      exact ih hidle

/-- A run over a text that ends blank, and ends between declarations
itself, goes on where the text does. -/
theorem deliver_append (p : Parser) (c : Cursor) (hblank : EndsBlank c.unread)
    (hidle : (p.deliver c).parser.state = .idle) (more : List Char) :
    p.deliver (c.extend more) =
      let behind := (p.deliver c).parser.deliver ⟨more, c.position.past c.unread⟩
      ⟨behind.parser, behind.cursor, (p.deliver c).tokens ++ behind.tokens⟩ := by
  induction p, c using deliver_induction with
  | stopped p c h =>
      rw [deliver_of_isStopped h] at hidle
      exact absurd hidle (ne_idle_of_isStopped h)
  | ended p c d h hnext =>
      -- The text ends in normal mode, so that no mode is spent with its end.
      obtain ⟨hmode, happend⟩ := Cursor.next_append_of_none hblank hnext more
      have hsame : { p with pending := .normal } = p := by
        rw [← hmode]
      have hagain : p.deliver (c.extend more) = p.deliver ⟨more, c.position.past c.unread⟩ :=
        deliver_congr h (happend.trans (by rw [hmode]))
      rw [deliver_of_none h hnext, hsame, hagain]
      simp only [Array.empty_append]
  | delivered p c token d h hnext ih =>
      rw [deliver_of_some h hnext] at hidle
      -- An invalid token would have stopped the run for good.
      have hvalid : token.kind ≠ .invalid := by
        intro hk
        have hstopped := isStopped_receive_invalid (p := p) hk
        rw [deliver_of_isStopped hstopped] at hidle
        exact absurd hidle (ne_idle_of_isStopped hstopped)
      obtain ⟨hd, happend⟩ := Cursor.next_append hblank hnext hvalid more
      have hend : d.position.past d.unread = c.position.past c.unread := by
        obtain ⟨read, hread, hposition⟩ := c.extends_next p.pending
        rw [hnext] at hread hposition
        rw [hread, Position.past_append, ← hposition]
      rw [deliver_of_some h happend, deliver_of_some h hnext, ih hd hidle, hend]
      simp only [Array.append_assoc]

/-! ### A run behind another tree -/

section Graft

variable {t : Tree} (ht : t.Linked) (lines : Nat)

/-- A comment stands behind another tree, too. -/
theorem Sound.graft_leaf (hp : p.Sound) (kind : NodeKind) :
    (p.leaf p.place kind token).view (.graft t ht lines) =
      (p.view (.graft t ht lines)).leaf (t.behind p.place) kind (token.down lines) := by
  show Parser.mk (t.graft lines (p.tree.addLeaf p.place kind token)) _ _ _ _ _ = _
  rw [Tree.addLeaf, Tree.graft_add lines ht hp.regular.toLinked hp.stem.lt_size]
  rfl

/-- A token does behind another tree what it does alone. -/
theorem Sound.graft_feed (hp : p.Sound) :
    (p.feed token).view (.graft t ht lines) =
      (p.view (.graft t ht lines)).feed (token.down lines) :=
  hp.view_feed_of_leaf fun kind => hp.graft_leaf ht lines kind

/-- A parse that is grafted receives each token as the parse alone does,
further down. -/
theorem Sound.graft_receive (hp : p.Sound) :
    (p.receive token).view (.graft t ht lines) =
      (p.view (.graft t ht lines)).receive (token.down lines) :=
  hp.spent.graft_feed ht lines

/-- A run behind another tree and on a text further down is the same
run. -/
theorem Sound.deliver_graft (hp : p.Sound) (c : Cursor) :
    (p.view (.graft t ht lines)).deliver (c.down lines) =
      ⟨(p.deliver c).parser.view (.graft t ht lines), (p.deliver c).cursor.down lines,
        (p.deliver c).tokens.map (·.down lines)⟩ := by
  induction p, c using deliver_induction with
  | stopped p c h =>
      rw [deliver_of_isStopped h, deliver_of_isStopped (p := p.view _) h]
      simp only [Array.map_empty]
  | ended p c d h hnext =>
      have hdown : (c.down lines).next p.pending = (none, d.down lines) := by
        rw [Cursor.next_down, hnext]
        rfl
      rw [deliver_of_none h hnext, deliver_of_none (p := p.view _) h hdown]
      simp only [Array.map_empty]
      rfl
  | delivered p c token d h hnext ih =>
      -- The cursor reads the same token in the same mode, but lower.
      have hdown : (c.down lines).next p.pending = (some (token.down lines), d.down lines) := by
        rw [Cursor.next_down, hnext]
        rfl
      rw [deliver_of_some h hnext, deliver_of_some (p := p.view _) h hdown,
        ← hp.graft_receive ht lines, ih (hp.receive token)]
      simp only [Array.map_append, List.map_toArray, List.map_cons, List.map_nil]

/-- A parse that stands behind another tree is closed as it is closed
alone. -/
theorem Sound.close_graft (hp : p.Sound) (c : Cursor) :
    (p.view (.graft t ht lines)).close (c.down lines) =
      ⟨t.graft lines (p.close c).tree, (p.close c).status⟩ := by
  have hfailure := Tree.graft_add lines ht hp.regular.toLinked hp.stem.lt_size
    .error c.position none (some (Failure.rejected .unexpectedEndOfInput).message)
  have hstate : (p.view (.graft t ht lines)).state = p.state := rfl
  unfold close
  rw [hstate]
  -- Any state but these two is left with an error, which is appended on both sides.
  cases p.state with
  | idle => rfl
  | stopped failure => rfl
  | _ =>
      dsimp only
      rw [hfailure]
      rfl

end Graft

/-! ### A run behind an earlier one -/

/-- A parse between declarations is that of a unit that begins behind
the tree so far, but for what is left over. -/
theorem Sound.eq_graft_ofUnit (hp : p.Sound) (hidle : p.state = .idle)
    (hpending : p.pending = .normal) (kind : UnitKind) (filename : String) (lines : Nat) :
    p = ((ofUnit kind filename).withLeftovers p.flags p.nesting).view
      (.graft p.tree hp.regular.toLinked lines) := by
  have hplace : p.place = Tree.root := hp.seats_of hidle
  have htree := Tree.graft_ofUnit p.tree lines kind filename
  obtain ⟨tree, state, place, flags, nesting, pending⟩ := p
  obtain rfl : state = .idle := hidle
  obtain rfl : place = Tree.root := hplace
  obtain rfl : pending = .normal := hpending
  show _ = Parser.mk (tree.graft lines (Tree.ofUnit kind filename)) _ _ _ _ _
  rw [htree]
  rfl

/-- A parse between declarations goes on as a unit of its own is parsed,
whatever is left over from the declarations before. -/
theorem Sound.run_down (hp : p.Sound) (hidle : p.state = .idle) (hpending : p.pending = .normal)
    (kind : UnitKind) (filename text : String) (lines : Nat) :
    p.run ((Cursor.ofString text).down lines) =
      ⟨p.tree.graft lines (parse kind filename text).tree,
        (parse kind filename text).status⟩ := by
  have hstart : (ofUnit kind filename).Sound := sound_ofUnit kind filename
  -- The new unit is parsed with the leftovers of `p`, which no token tells from none.
  have halike : (ofUnit kind filename).Alike
      ((ofUnit kind filename).withLeftovers p.flags p.nesting) :=
    alike_withLeftovers nofun nofun nofun
  have hleft : ((ofUnit kind filename).withLeftovers p.flags p.nesting).Sound :=
    ⟨hstart.regular, rfl⟩
  obtain ⟨hparser, hcursor⟩ := hstart.alike_deliver halike (.ofString text)
  have hbehind := hp.eq_graft_ofUnit hidle hpending kind filename lines
  rw [run]
  conv_lhs => rw [hbehind]
  rw [hleft.deliver_graft, (hleft.deliver _).close_graft, hparser.close, hcursor]
  rfl

/-- Parsing goes through the concatenation of units. Behind a text that
ends with a blank line and is parsed completely, any text is parsed as
it is parsed alone: it ends with the same status, and its nodes stand
behind those of the first text, as many lines further down as that
has. -/
theorem parse_append (kind : UnitKind) (filename first second : String)
    (hblank : ['\n', '\n'] <:+ first.toList)
    (hcompleted : (parse kind filename first).status = .completed) :
    parse kind filename (first ++ second) =
      ⟨(parse kind filename first).tree.graft (first.toList.count '\n')
        (parse kind filename second).tree, (parse kind filename second).status⟩ := by
  have hidle : ((ofUnit kind filename).deliver (.ofString first)).parser.state = .idle :=
    (close_status_eq_completed_iff _ _).1 hcompleted
  have hsound := (sound_ofUnit kind filename).deliver (.ofString first)
  have hpending := pending_deliver _ _ hidle
  have htree : (parse kind filename first).tree =
      ((ofUnit kind filename).deliver (.ofString first)).parser.tree := by
    show (close _ _).tree = _
    unfold close
    rw [hidle]
  have hwhole : Cursor.ofString (first ++ second) =
      (Cursor.ofString first).extend second.toList :=
    congrArg Cursor.ofList String.toList_append
  have hend : Cursor.mk second.toList (Position.start.past first.toList) =
      (Cursor.ofString second).down (first.toList.count '\n') := by
    have hline : ['\n'] <:+ first.toList := (List.suffix_cons '\n' ['\n']).trans hblank
    rw [Position.past_start hline]
    rfl
  -- The first text is read to its end, and the second one from there on.
  have happend := deliver_append _ (.ofString first) (Or.inr hblank) hidle second.toList
  calc parse kind filename (first ++ second)
      = ((ofUnit kind filename).deliver (.ofString first)).parser.run
          ⟨second.toList, Position.start.past first.toList⟩ := by
        rw [parse, run, hwhole, happend]
        rfl
    _ = _ := by
        rw [hend, hsound.run_down hidle hpending kind filename, htree]

/-- An initializer that is never closed, two lines below a
declaration. -/
theorem parse_append_unclosed :
    ['\n', '\n'] <:+ "int a;\n\n".toList ∧
      (parse .source "unit.c" "int a;\n\n").status = .completed ∧
      parse .source "unit.c" ("int a;\n\n" ++ "char b[] = \x7b") =
        ⟨(parse .source "unit.c" "int a;\n\n").tree.graft 2
          (parse .source "unit.c" "char b[] = \x7b").tree,
          (parse .source "unit.c" "char b[] = \x7b").status⟩ := by
  have hblank : ['\n', '\n'] <:+ "int a;\n\n".toList := by decide
  have hcompleted : (parse .source "unit.c" "int a;\n\n").status = .completed := by cbv
  exact ⟨hblank, hcompleted, parse_append .source "unit.c" _ _ hblank hcompleted⟩

end CDeclarations.Parser
