import CDeclarations.Proofs.Parser.Appending
import CDeclarations.Proofs.Parser.Pending
import CDeclarations.Proofs.Tree.Unplaced
import Mathlib

/-!
# `CDeclarations.Proofs.Parser.Resumption`: a parse that is cut and resumed

A run over a text can be cut behind some of its tokens: a new parse is
handed these tokens and runs over the rest of the text. The rest then
begins at another position, which the tokens do not depend on
(`Sound.deliver_sameButPositions`).

A run spends the pending mode with the token that is read in it, and a
parse that is handed tokens keeps it. The two agree at a cut where no
token of a directive's text stands before, or where a mode is due
(`resume_agrees`). Behind the name of an included file they do not
(`resume_not_agrees`).

* `Delivers`: the steps of a run, one for each token.
* `parseFirst`, `feedFirst`: the two sides of a cut.
* `resume_agrees_awaiting`: a parse is resumed in the mode that the handed
  tokens left pending.
* `Delivers.pending_eq`: in a run the mode is that of the state.
* `Delivers.pending_feedAll`, `Delivers.feedAll_eq`: when the parse that
  is handed the tokens has the same mode pending.
-/

set_option autoImplicit false

namespace CDeclarations.Parser

variable {p q : Parser} {c d : Cursor} {token : Token}

/-! ### Runs from different positions -/

/-- The parses differ in the positions of their nodes at most. -/
def SameButPositions (p q : Parser) : Prop :=
  p.view .unplaced = q.view .unplaced

/-- Both parsers have stopped, or neither has. -/
theorem SameButPositions.isStopped (h : p.SameButPositions q) : p.isStopped = q.isStopped := by
  have hview := congrArg Parser.isStopped h
  exact hview

/-- Both parsers ask for the same mode. -/
theorem SameButPositions.pending (h : p.SameButPositions q) : p.pending = q.pending := by
  have hview := congrArg Parser.pending h
  exact hview

/-- A token does to the parse without positions what it does to the
parse. -/
theorem Sound.unplaced_feed (hp : p.Sound) (token : Token) :
    (p.feed token).view .unplaced = (p.view .unplaced).feed token.unplaced := by
  refine hp.view_feed_of_leaf fun kind => ?_
  show Parser.mk (p.tree.addLeaf p.place kind token).unplaced _ _ _ _ _ = _
  rw [Tree.addLeaf, Tree.unplaced_add hp.stem.lt_size]
  rfl

/-- Without its positions a parser receives the token without its position. -/
theorem Sound.unplaced_receive (hp : p.Sound) (token : Token) :
    (p.receive token).view .unplaced = (p.view .unplaced).receive token.unplaced :=
  hp.spent.unplaced_feed token

/-- Parses that differ in positions alone are handed the same tokens by
texts that differ in their position alone. -/
theorem Sound.deliver_sameButPositions (hp : p.Sound) (hq : q.Sound) (hsame : p.SameButPositions q)
    (h : c.unread = d.unread) :
    (p.deliver c).parser.SameButPositions (q.deliver d).parser := by
  -- Both parsers read the same characters in the same mode, so the lexer gives both the
  -- same token but for its position.
  induction p, c using deliver_induction generalizing q d with
  | stopped p c hstop =>
      rw [deliver_of_isStopped hstop, deliver_of_isStopped (hsame.isStopped.symm.trans hstop)]
      exact hsame
  | ended p c e hrun hnext =>
      have hrun' := hsame.isStopped.symm.trans hrun
      obtain ⟨e', hnext', -⟩ := Cursor.exists_next_none h hnext
      rw [hsame.pending] at hnext'
      rw [deliver_of_none hrun hnext, deliver_of_none hrun' hnext']
      exact congrArg (·.awaiting .normal) hsame
  | delivered p c token e hrun hnext ih =>
      have hrun' := hsame.isStopped.symm.trans hrun
      obtain ⟨token', e', hnext', htoken, hunread⟩ := Cursor.exists_next_some h hnext
      rw [hsame.pending] at hnext'
      rw [deliver_of_some hrun hnext, deliver_of_some hrun' hnext']
      refine ih (hp.receive token) (hq.receive token') ?_ hunread
      rw [SameButPositions, hp.unplaced_receive, hq.unplaced_receive, htoken, hsame]

/-- The parses end with the same status, and in the same tree but for the
positions. -/
theorem Sound.close_sameButPositions (hp : p.Sound) (hq : q.Sound) (hsame : p.SameButPositions q)
    (c d : Cursor) :
    (p.close c).status = (q.close d).status ∧
      (p.close c).tree.unplaced = (q.close d).tree.unplaced := by
  have hstate : p.state = q.state := by
    have hview := congrArg Parser.state hsame
    exact hview
  have htree : p.tree.unplaced = q.tree.unplaced := by
    have hview := congrArg Parser.tree hsame
    exact hview
  have hplace : p.place = q.place := by
    have hview := congrArg Parser.place hsame
    exact hview
  have hp' := Tree.unplaced_add hp.stem.lt_size .error c.position none
    (some (Failure.rejected .unexpectedEndOfInput).message)
  have hq' := Tree.unplaced_add hq.stem.lt_size .error d.position none
    (some (Failure.rejected .unexpectedEndOfInput).message)
  unfold close
  rw [← hstate]
  cases p.state with
  | idle => exact ⟨rfl, htree⟩
  | stopped failure => exact ⟨rfl, htree⟩
  -- The error stands at two positions and is the same without them.
  | _ =>
      dsimp only
      rw [hp', hq', htree, hplace]
      exact ⟨rfl, rfl⟩

/-- Runs over the same text from parsers that differ in positions end the same
but for positions. -/
theorem Sound.run_sameButPositions (hp : p.Sound) (hq : q.Sound) (hsame : p.SameButPositions q)
    (h : c.unread = d.unread) :
    (p.run c).status = (q.run d).status ∧ (p.run c).tree.unplaced = (q.run d).tree.unplaced :=
  (hp.deliver c).close_sameButPositions (hq.deliver d) (hp.deliver_sameButPositions hq hsame h) _ _

/-! ### Cutting a run -/

/-- The first tokens of a run, `count` at most, and where it stands then.
The text behind the last of them is unread. -/
def deliverFirst (p : Parser) (c : Cursor) : Nat → Delivery
  | 0 => ⟨p, c, #[]⟩
  | count + 1 =>
      if p.isStopped then ⟨p, c, #[]⟩
      else
        match c.next p.pending with
        | (none, _) => ⟨p, c, #[]⟩
        | (some token, d) =>
            let rest := (p.receive token).deliverFirst d count
            ⟨rest.parser, rest.cursor, #[token] ++ rest.tokens⟩

/-- The run delivers the tokens from `p` and `c`, one after another, and
stands at `q` and `e` then. -/
inductive Delivers : Parser → Cursor → List Token → Parser → Cursor → Prop
  | refl {p : Parser} {c : Cursor} : Delivers p c [] p c
  | step {p q : Parser} {c d e : Cursor} {token : Token} {tokens : List Token}
      (hrun : p.isStopped = false) (hnext : c.next p.pending = (some token, d))
      (h : Delivers (p.receive token) d tokens q e) : Delivers p c (token :: tokens) q e

/-- The first tokens of a delivery are delivered. -/
theorem delivers_deliverFirst (p : Parser) (c : Cursor) (count : Nat) :
    Delivers p c (p.deliverFirst c count).tokens.toList (p.deliverFirst c count).parser
      (p.deliverFirst c count).cursor := by
  induction count generalizing p c with
  | zero => exact .refl
  | succ count ih =>
      rw [deliverFirst]
      split
      · exact .refl
      · next hrun =>
        split
        · exact .refl
        · next token d hnext =>
          rw [Array.toList_append]
          exact .step (Bool.eq_false_iff.2 hrun) hnext (ih _ d)

namespace Delivers

variable {e : Cursor} {tokens : List Token}

/-- The rest of the run begins where the delivered tokens end. -/
theorem run_eq (h : Delivers p c tokens q e) : p.run c = q.run e := by
  induction h with
  | refl => rfl
  | step hrun hnext _ ih =>
      rw [← ih, run, run, deliver_of_some hrun hnext]

/-- A parse that is stopped is delivered nothing more. -/
theorem eq_of_isStopped (h : Delivers p c tokens q e) (hstop : p.isStopped = true) : q = p := by
  cases h with
  | refl => rfl
  | step hrun _ _ => exact Bool.noConfusion (hstop.symm.trans hrun)

/-- A parse that is handed the tokens stands where the run does, but for
the pending mode. -/
theorem sameButMode (h : Delivers p c tokens q e) {p' : Parser} (hp : p.SameButMode p') :
    q.SameButMode (p'.feedAll tokens) := by
  induction h generalizing p' with
  | refl => exact hp
  | @step p _ _ _ _ token _ _ _ _ ih =>
      obtain ⟨mode, rfl⟩ := hp
      apply ih
      rw [receive_eq, feed_awaiting]
      exact ⟨_, rfl⟩

end Delivers

/-! ### The pending mode -/

/-- A comment leaves the state as it is. -/
theorem state_feed_comment (hk : token.kind.isComment = true) :
    (p.feed token).state = p.state := by
  unfold Parser.feed
  split
  · rfl
  cases h : token.kind with
  | blockComment => rfl
  | lineComment => rfl
  | _ =>
      rw [h] at hk
      cases hk

/-- A token that is no comment asks for what its state asks for. -/
theorem requested?_of_not_comment (hrun : p.isStopped = false) (hk : token.kind.isComment = false) :
    p.requested? token = (p.feed token).state.mode? := by
  rw [requested?, hrun, hk]
  rfl

/-- Where a mode is pending, the next token is the literal that is read
in it, or is invalid. -/
theorem kind_of_pending (hnext : c.next p.pending = (some token, d))
    (hpending : p.pending ≠ .normal) :
    token.kind = .includeLiteral ∨ token.kind = .defineLiteral ∨ token.kind = .invalid := by
  cases hmode : p.pending with
  | normal => exact absurd hmode hpending
  | includeName =>
      rw [hmode] at hnext
      exact (Cursor.kind_next_includeName hnext).imp_right Or.inr
  | defineBody =>
      rw [hmode] at hnext
      exact Or.inr (Cursor.kind_next_defineBody hnext)

/-- The mode that is pending in a run is the one that the state asks
for. -/
theorem Delivers.pending_eq {e : Cursor} {tokens : List Token} (h : Delivers p c tokens q e)
    (hp : p.pending = p.state.mode?.getD .normal) : q.pending = q.state.mode?.getD .normal := by
  induction h with
  | refl => exact hp
  | @step p q c d e token tokens hrun hnext h ih =>
      apply ih
      rw [receive_eq]
      show (p.requested? token).getD .normal = (p.feed token).state.mode?.getD .normal
      cases hk : token.kind.isComment with
      | false => rw [requested?_of_not_comment hrun hk]
      | true =>
          -- A comment is read in normal mode only, where the state asks for none.
          have hnormal : p.pending = .normal := by
            by_contra hpending
            rcases kind_of_pending hnext hpending with h | h | h <;> rw [h] at hk <;> cases hk
          rw [requested?, hk, Bool.or_true, if_pos rfl, state_feed_comment hk, ← hp, hnormal]
          rfl

/-- A mode that is pending behind a delivered token is pending behind the
handed token, too. -/
theorem Delivers.pending_feedAll {e : Cursor} {tokens : List Token} (h : Delivers p c tokens q e)
    (mode : TokenMode) (hmode : p.pending ≠ .normal → mode = p.pending)
    (hq : q.pending ≠ .normal) : ((p.awaiting mode).feedAll tokens).pending = q.pending := by
  induction h generalizing mode with
  | refl => exact hmode hq
  | @step p q c d e token tokens hrun hnext h ih =>
      show (((p.awaiting mode).feed token).feedAll tokens).pending = q.pending
      have hsame : ∀ mode, (p.feed token).awaiting mode = (p.receive token).awaiting mode := by
        intro mode
        rw [receive_eq]
        rfl
      rw [feed_awaiting, hsame]
      refine ih _ ?_ hq
      -- What the token asks for is pending on both sides; a mode from before is spent by the run.
      rw [receive_eq]
      show (p.requested? token).getD .normal ≠ .normal →
        (p.requested? token).getD mode = (p.requested? token).getD .normal
      cases p.requested? token with
      | none => exact fun hne => absurd rfl hne
      | some mode' => exact fun _ => rfl

/-- A run that meets no literal of a directive, and ends with no mode
pending, hands its tokens to the parse as `feedAll` does. -/
theorem Delivers.feedAll_eq {e : Cursor} {tokens : List Token} (h : Delivers p c tokens q e)
    (hliteral : ∀ token ∈ tokens, token.kind ≠ .includeLiteral ∧ token.kind ≠ .defineLiteral)
    (hrun : q.isStopped = false) (hp : p.pending = .normal) (hq : q.pending = .normal) :
    p.feedAll tokens = q := by
  induction h with
  | refl => rfl
  | @step p q c d e token tokens _ _ h ih =>
      have hreceive : p.receive token = p.feed token := by
        rw [receive, ← hp]
      have hrest : ∀ token ∈ tokens,
          token.kind ≠ .includeLiteral ∧ token.kind ≠ .defineLiteral := by
        intro token' hmem
        exact hliteral token' (List.mem_cons_of_mem _ hmem)
      -- A mode that is asked for is pending in the end, or spent by a literal.
      have hnormal : (p.receive token).pending = .normal := by
        by_contra hpending
        cases h with
        | refl => exact hpending hq
        | @step _ _ _ _ _ next _ _ hnext h =>
            obtain ⟨hinclude, hdefine⟩ := hrest next List.mem_cons_self
            rcases kind_of_pending hnext hpending with hk | hk | hk
            · exact hinclude hk
            · exact hdefine hk
            · have hstop := isStopped_receive_invalid (p := p.receive token) hk
              rw [h.eq_of_isStopped hstop, hstop] at hrun
              cases hrun
      have hall := ih hrest hrun hnormal hq
      rwa [hreceive] at hall

/-! ### Cutting and resuming -/

/-- The parse of a text, cut behind its first tokens, `count` at most. -/
def parseFirst (kind : UnitKind) (filename text : String) (count : Nat) : Delivery :=
  (ofUnit kind filename).deliverFirst (.ofString text) count

/-- A new parse that is handed the first tokens of a text, `count` at
most. -/
def feedFirst (kind : UnitKind) (filename text : String) (count : Nat) : Parser :=
  (ofUnit kind filename).feedAll (parseFirst kind filename text count).tokens.toList

/-- The parse of a text that is cut behind its first tokens and resumed:
the parse that is handed these tokens runs over the rest of the text, as
a text of its own. -/
def resume (kind : UnitKind) (filename text : String) (count : Nat) : Outcome :=
  (feedFirst kind filename text count).run
    (.ofList (parseFirst kind filename text count).cursor.unread)

/-- The outcomes agree, but for the positions of the nodes behind the
first `size` ones. -/
structure AgreesBehind (size : Nat) (o o' : Outcome) : Prop where
  status : o.status = o'.status
  tree : o.tree.unplaced = o'.tree.unplaced
  position : ∀ id < size, o.tree.nodes[id]?.map Node.position = o'.tree.nodes[id]?.map Node.position

/-- A parse goes on from another position as it goes on where it
stands. -/
theorem Sound.agreesBehind_run (hp : p.Sound) (h : c.unread = d.unread) :
    AgreesBehind p.tree.size (p.run c) (p.run d) := by
  obtain ⟨hstatus, htree⟩ := hp.run_sameButPositions hp rfl h
  refine ⟨hstatus, htree, ?_⟩
  intro id hid
  have hnode := Array.getElem?_eq_getElem hid
  obtain ⟨m, hm, hgrows⟩ := hp.grows_run c id _ hnode
  obtain ⟨m', hm', hgrows'⟩ := hp.grows_run d id _ hnode
  rw [hm, hm', Option.map_some, Option.map_some, hgrows.position, hgrows'.position]

/-- A parse that is stopped ends as it stands, whichever mode is
pending. -/
theorem run_awaiting_of_isStopped (h : p.isStopped = true) (mode : TokenMode) (c : Cursor) :
    (p.awaiting mode).run c = p.run c := by
  have h' : (p.awaiting mode).isStopped = true := h
  rw [run, run, deliver_of_isStopped h, deliver_of_isStopped h']
  rfl

section Cut

variable (kind : UnitKind) (filename text : String) (count : Nat)

/-- The first tokens of a parse are delivered to a new parser. -/
theorem delivers_parseFirst :
    Delivers (ofUnit kind filename) (.ofString text)
      (parseFirst kind filename text count).tokens.toList
      (parseFirst kind filename text count).parser
      (parseFirst kind filename text count).cursor :=
  delivers_deliverFirst _ _ count

/-- Feeding the first tokens gives the same parser as delivering them, but for
the mode. -/
theorem feedFirst_eq_awaiting :
    feedFirst kind filename text count =
      (parseFirst kind filename text count).parser.awaiting
        (feedFirst kind filename text count).pending := by
  obtain ⟨mode, hmode⟩ : (parseFirst kind filename text count).parser.SameButMode
      (feedFirst kind filename text count) :=
    (delivers_parseFirst kind filename text count).sameButMode ⟨.normal, rfl⟩
  rw [hmode]
  rfl

/-- A parse that is resumed goes on as the run does at the cut, but in
the mode that the handed tokens left pending. -/
theorem resume_agrees_awaiting :
    AgreesBehind (parseFirst kind filename text count).parser.tree.size
      (resume kind filename text count)
      (((parseFirst kind filename text count).parser.awaiting
        (feedFirst kind filename text count).pending).run
          (parseFirst kind filename text count).cursor) := by
  have hfed := feedFirst_eq_awaiting kind filename text count
  have hsound : (feedFirst kind filename text count).Sound :=
    sound_feedAll (sound_ofUnit kind filename) _
  have htree : (feedFirst kind filename text count).tree =
      (parseFirst kind filename text count).parser.tree := by
    rw [hfed]
    rfl
  -- The parser that was fed runs over the rest, once from the start of a text and once
  -- from the cursor.
  rw [← hfed, ← htree]
  exact hsound.agreesBehind_run rfl

/-- A parse that is resumed ends as the parse of the whole text does,
unless the mode of a directive's text is left pending behind that text.
So it does where the parse is stopped, where a mode is pending at the
cut, and where no text of a directive stands before the cut. At the cut
the mode is that of the state, for the run has spent all others. -/
theorem resume_agrees
    (h : (parseFirst kind filename text count).parser.isStopped = true ∨
      (parseFirst kind filename text count).parser.pending ≠ .normal ∨
      ∀ token ∈ (parseFirst kind filename text count).tokens.toList,
        token.kind ≠ .includeLiteral ∧ token.kind ≠ .defineLiteral) :
    AgreesBehind (parseFirst kind filename text count).parser.tree.size
        (resume kind filename text count) (parse kind filename text) ∧
      (parseFirst kind filename text count).parser.pending =
        (parseFirst kind filename text count).parser.state.mode?.getD .normal := by
  have hcut := delivers_parseFirst kind filename text count
  have hagrees := resume_agrees_awaiting kind filename text count
  refine ⟨?_, hcut.pending_eq rfl⟩
  rw [parse, hcut.run_eq]
  cases hstop : (parseFirst kind filename text count).parser.isStopped with
  | true => rwa [run_awaiting_of_isStopped hstop] at hagrees
  | false =>
      -- The mode that the tokens left pending is that of the cut.
      have hmode : (feedFirst kind filename text count).pending =
          (parseFirst kind filename text count).parser.pending := by
        by_cases hpending : (parseFirst kind filename text count).parser.pending = .normal
        · rcases h with hstop' | hpending' | hliteral
          · exact Bool.noConfusion (hstop.symm.trans hstop')
          · exact absurd hpending hpending'
          · rw [feedFirst, hcut.feedAll_eq hliteral hstop rfl hpending]
        · exact hcut.pending_feedAll .normal (fun hne => absurd rfl hne) hpending
      rw [hmode] at hagrees
      exact hagrees

end Cut

/-- Behind the word `include` the name of the file is due, whether the
text is read on or resumed there. -/
theorem resume_agrees_include :
    (parseFirst .source "unit.c" "#include <a.h>\nint x;" 2).parser.pending ≠ .normal ∧
      AgreesBehind (parseFirst .source "unit.c" "#include <a.h>\nint x;" 2).parser.tree.size
        (resume .source "unit.c" "#include <a.h>\nint x;" 2)
        (parse .source "unit.c" "#include <a.h>\nint x;") ∧
      (parseFirst .source "unit.c" "#include <a.h>\nint x;" 2).parser.pending =
        (parseFirst .source "unit.c" "#include <a.h>\nint x;" 2).parser.state.mode?.getD
          .normal := by
  -- The cut is in front of a file name, whose mode is pending.
  have hpending :
      (parseFirst .source "unit.c" "#include <a.h>\nint x;" 2).parser.pending ≠ .normal := by
    have hmode : (parseFirst .source "unit.c" "#include <a.h>\nint x;" 2).parser.pending =
        .includeName := by cbv
    rw [hmode]
    decide
  exact ⟨hpending, resume_agrees .source "unit.c" _ 2 (Or.inr (Or.inl hpending))⟩

/-- Behind the name of the file its mode is pending still in the parse
that is handed the tokens, and the next line is read in it. -/
theorem resume_not_agrees :
    ¬∀ (kind : UnitKind) (filename text : String) (count : Nat),
      AgreesBehind (parseFirst kind filename text count).parser.tree.size
        (resume kind filename text count) (parse kind filename text) := by
  intro h
  have hstatus := (h .source "unit.c" "#include <a.h>\nint x;" 3).status
  have hresumed : (resume .source "unit.c" "#include <a.h>\nint x;" 3).status =
      .failed (.rejected .invalidToken) := by cbv
  have hparsed : (parse .source "unit.c" "#include <a.h>\nint x;").status = .completed := by cbv
  rw [hresumed, hparsed] at hstatus
  cases hstatus

end CDeclarations.Parser
