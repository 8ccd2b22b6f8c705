import CDeclarations.Proofs.Parser.Resumption
import CDeclarations.Proofs.Token.LineEnds

/-!
# `CDeclarations.Proofs.Parser.LineEnds`: a parse does not depend on how the lines end

A text and the text with carriage returns at its line ends are read in
step. Each token is the same but for the text of a block comment, which
nothing in a parse depends on, and an invalid token stops both parses at
the same position. So both end with the same status, and in the same tree
but for the texts of comments and errors (`Sound.sameButReturns_run`).

Three kinds of text are read otherwise. Between tokens, and inside string
and character literals, a backslash belongs to the line feed behind it but
not to a carriage return and a line feed. And a carriage return counts for
the length of a comment.

* `layout_parse_withReturns`: a text of none of these kinds has the same
  status and the same nodes in pre-order, with the same depths, kinds and
  lines, however its lines end.
* `not_layout_parse_withReturns`: a comment can be as long as a comment may
  be and one character too long with a carriage return.
-/

set_option autoImplicit false

namespace CDeclarations

/-- A tree seen without the texts of its comments. -/
def View.muted : View :=
  (Node.relabels_muted NodeKind.isComment).view (fun position => position) <| by
    intro kind hk parent children at' payload diagnostic
    rw [Node.muted, hk]
    rfl

/-- The kinds of the nodes that show the text of a token with its line
ends: comments, and errors at a token that is not valid. -/
def NodeKind.showsLineEnds (kind : NodeKind) : Bool :=
  kind.isComment || kind = .error

/-- The outcomes differ in the texts of comments and errors at most. -/
structure Outcome.SameButReturns (o o' : Outcome) : Prop where
  status : o'.status = o.status
  tree : o'.tree.muted NodeKind.showsLineEnds = o.tree.muted NodeKind.showsLineEnds

/-- Outcomes that differ in returns only have the same layout. -/
theorem Outcome.SameButReturns.layout {o o' : Outcome} (h : o.SameButReturns o') :
    o'.tree.layout = o.tree.layout := by
  rw [← Tree.layout_muted NodeKind.showsLineEnds, h.tree, Tree.layout_muted]

namespace Parser

variable {p q : Parser} {c d : Cursor} {token token' : Token}

/-! ### One token -/

/-- The parses differ in the texts of their comments at most. -/
def SameButReturns (p q : Parser) : Prop :=
  q.view .muted = p.view .muted

namespace SameButReturns

/-- Both parsers have stopped, or neither has. -/
theorem isStopped (h : p.SameButReturns q) : q.isStopped = p.isStopped := by
  have hview := congrArg Parser.isStopped h
  exact hview

/-- Both parsers are in the same state. -/
theorem state (h : p.SameButReturns q) : q.state = p.state := by
  have hview := congrArg Parser.state h
  exact hview

/-- Both parsers ask for the same mode. -/
theorem pending (h : p.SameButReturns q) : q.pending = p.pending := by
  have hview := congrArg Parser.pending h
  exact hview

/-- Both parsers stand at the same node. -/
theorem place (h : p.SameButReturns q) : q.place = p.place := by
  have hview := congrArg Parser.place h
  exact hview

/-- The trees are the same once the texts that show line ends are muted. -/
theorem tree (h : p.SameButReturns q) :
    q.tree.muted NodeKind.showsLineEnds = p.tree.muted NodeKind.showsLineEnds := by
  have hcover : ∀ kind : NodeKind, kind.isComment → kind.showsLineEnds :=
    fun kind hk => by rw [NodeKind.showsLineEnds, hk, Bool.true_or]
  have hview : q.tree.muted NodeKind.isComment = p.tree.muted NodeKind.isComment :=
    congrArg Parser.tree h
  rw [← Tree.muted_muted hcover, hview, Tree.muted_muted hcover]

end SameButReturns

/-- A comment is seen without its text. -/
theorem Sound.muted_leaf (hp : p.Sound) {kind : NodeKind} (hk : kind.isComment = true)
    (token : Token) :
    (p.leaf p.place kind token).view .muted =
      { p.view .muted with
        tree := (p.view .muted).tree.add p.place kind token.position none none } := by
  have hadd : (p.tree.addLeaf p.place kind token).muted NodeKind.isComment = _ :=
    Tree.muted_add _ hp.stem.lt_size kind token.position (some token.text) none
  rw [hk, if_pos rfl] at hadd
  show Parser.mk ((p.tree.addLeaf p.place kind token).muted NodeKind.isComment) _ _ _ _ _ = _
  rw [hadd]
  rfl

/-- A comment that differs in its text does the same to both parses. -/
theorem Sound.sameButReturns_leaf (hp : p.Sound) (hq : q.Sound) (h : p.SameButReturns q)
    (hposition : token'.position = token.position) {kind : NodeKind}
    (hk : kind.isComment = true) :
    (p.leaf p.place kind token).SameButReturns (q.leaf q.place kind token') := by
  have hview : q.view .muted = p.view .muted := h
  rw [SameButReturns, hq.muted_leaf hk, hp.muted_leaf hk, hview, hposition, h.place]

/-- A valid token does the same to both parses. -/
theorem Sound.sameButReturns_feed (hp : p.Sound) (hq : q.Sound) (h : p.SameButReturns q)
    (hrun : p.isStopped = false) (htoken : token.SameButReturns token')
    (hvalid : token.kind ≠ .invalid) : (p.feed token).SameButReturns (q.feed token') := by
  -- A token that is no comment is the same on both sides; a comment adds one leaf,
  -- whose text is muted.
  cases hk : token.kind.isComment with
  | false =>
      have heq : token' = token := by
        have htext := htoken.text (fun hblock => by rw [hblock] at hk; cases hk) hvalid
        cases token'
        cases token
        cases htoken.kind
        cases htoken.position
        cases htext
        rfl
      rw [SameButReturns, heq, hq.view_feed hk, hp.view_feed hk, h]
  | true =>
      have hrun' : q.isStopped = false := h.isStopped.trans hrun
      rw [Parser.feed, Parser.feed, if_neg (not_isSome_of_isStopped_eq_false hrun),
        if_neg (not_isSome_of_isStopped_eq_false hrun'), htoken.kind]
      cases hkind : token.kind with
      | blockComment => exact hp.sameButReturns_leaf hq h htoken.position rfl
      | lineComment => exact hp.sameButReturns_leaf hq h htoken.position rfl
      | _ =>
          rw [hkind] at hk
          cases hk

/-- A token that differs in returns only is received alike. -/
theorem Sound.sameButReturns_receive (hp : p.Sound) (hq : q.Sound) (h : p.SameButReturns q)
    (hrun : p.isStopped = false) (htoken : token.SameButReturns token')
    (hvalid : token.kind ≠ .invalid) : (p.receive token).SameButReturns (q.receive token') := by
  have hspent := congrArg (·.awaiting .normal) h
  exact hp.spent.sameButReturns_feed hq.spent hspent hrun htoken hvalid

/-! ### The run -/

/-- A parse that is stopped ends as it stands, wherever the text is
read. -/
theorem run_of_isStopped (h : p.isStopped = true) (c d : Cursor) : p.run c = p.run d := by
  have hfailure : p.state.failure?.isSome = true := h
  rw [run, run, deliver_of_isStopped h, deliver_of_isStopped h]
  unfold close
  generalize p.state = state at hfailure
  cases state with
  | stopped failure => rfl
  | _ => cases hfailure

/-- Between tokens it does not matter on which side of a carriage return
the run stands. -/
theorem run_of_returned {c' : Cursor} (h : c.Returned c') (hq : q.pending = .normal) :
    q.run c' = q.run c.crlf := by
  cases hrun : q.isStopped with
  | true => exact run_of_isStopped hrun c' c.crlf
  | false =>
      have hnext : c'.next q.pending = c.crlf.next q.pending := by rw [hq, h.next_normal]
      rw [run, run, deliver_congr hrun hnext]

/-- An invalid token ends the run. -/
theorem run_receive_invalid (hrun : p.isStopped = false) (hk : token.kind = .invalid)
    (c : Cursor) :
    (p.receive token).run c =
      ⟨p.tree.addFailure p.place token (.rejected .invalidToken),
        .failed (.rejected .invalidToken)⟩ := by
  rw [run, deliver_of_isStopped (isStopped_receive_invalid hk), receive, Parser.feed,
    if_neg (not_isSome_of_isStopped_eq_false hrun), hk]
  rfl

/-- An invalid token stops both runs with the same error, whatever its text
is. -/
theorem Sound.sameButReturns_run_invalid (hp : p.Sound) (hq : q.Sound) (h : p.SameButReturns q)
    (hrun : p.isStopped = false) (htoken : token.SameButReturns token')
    (hinvalid : token.kind = .invalid) (c d : Cursor) :
    ((p.receive token).run c).SameButReturns ((q.receive token').run d) := by
  rw [run_receive_invalid hrun hinvalid,
    run_receive_invalid (h.isStopped.trans hrun) (htoken.kind.trans hinvalid)]
  refine ⟨rfl, ?_⟩
  show (Tree.add _ _ _ _ _ _).muted _ = (Tree.add _ _ _ _ _ _).muted _
  rw [Tree.muted_add _ hq.stem.lt_size, Tree.muted_add _ hp.stem.lt_size, h.tree, h.place,
    htoken.position]
  rfl

/-- The end of the text is handled alike at the same position. -/
theorem Sound.sameButReturns_close (hp : p.Sound) (hq : q.Sound) (h : p.SameButReturns q)
    (hposition : d.position = c.position) : (p.close c).SameButReturns (q.close d) := by
  have hadd := Tree.muted_add NodeKind.showsLineEnds hp.stem.lt_size .error c.position none
    (some (Failure.rejected .unexpectedEndOfInput).message)
  have hadd' := Tree.muted_add NodeKind.showsLineEnds hq.stem.lt_size .error d.position none
    (some (Failure.rejected .unexpectedEndOfInput).message)
  unfold close
  rw [h.state]
  cases p.state with
  | idle => exact ⟨rfl, h.tree⟩
  | stopped failure => exact ⟨rfl, h.tree⟩
  -- In every other state the declaration is cut off, and one error is added on both
  -- sides.
  | _ =>
      refine ⟨rfl, ?_⟩
      dsimp only
      rw [hadd, hadd', h.tree, h.place, hposition]

/-- A token that may end with its line leaves normal mode pending. -/
theorem pending_receive_of_line (hrun : p.isStopped = false)
    (hmode : p.pending = p.state.mode?.getD .normal) (hnext : c.next p.pending = (some token, d))
    (hline : token.kind = .lineComment ∨ token.kind = .defineLiteral) :
    (p.receive token).pending = .normal := by
  have hrequested : (p.receive token).pending = (p.requested? token).getD .normal := by
    rw [receive_eq]
    rfl
  rw [hrequested]
  -- A line comment leaves a mode that is normal already.
  rcases hline with hk | hk
  · rw [requested?, hk, hrun]
    rfl
  · -- A body is read only where one is due, and ends its directive.
    have hbody : p.pending = .defineBody := by
      cases hpending : p.pending with
      | normal =>
          rw [hpending] at hnext
          exact absurd hk (Cursor.kind_next_normal_ne hnext)
      | includeName =>
          rw [hpending] at hnext
          rcases Cursor.kind_next_includeName hnext with hkind | hkind <;> rw [hkind] at hk <;>
            cases hk
      | defineBody => rfl
    have hfeed : (p.feed token).state.mode? = none := by
      rw [Parser.feed, if_neg (not_isSome_of_isStopped_eq_false hrun), hk]
      rw [hbody] at hmode
      unfold handle
      cases hs : p.state with
      | defineBody | pragma => rfl
      | _ =>
          rw [hs] at hmode
          cases hmode
    rw [requested?_of_not_comment hrun (by rw [hk]; rfl), hfeed]
    rfl

/-- The run over a text and the run over the text with carriage returns
end alike, token by token. -/
theorem Sound.sameButReturns_run (hp : p.Sound) (hq : q.Sound) (h : p.SameButReturns q)
    (hmode : p.pending = p.state.mode?.getD .normal) (hreturn : '\r' ∉ c.unread)
    (hjoint : ∀ tokens p' d, Delivers p c tokens p' d → p'.isStopped = false →
      p'.pending = .normal → '\\' ∉ (Lexeme.blanks d.unread).read)
    (htokens : ∀ token ∈ (p.deliver c).tokens,
      Lexeme.BearsReturns token.kind token.text.toList) :
    (p.run c).SameButReturns (q.run c.crlf) := by
  induction p, c using deliver_induction generalizing q with
  | stopped p c hstop =>
      rw [run, run, deliver_of_isStopped hstop, deliver_of_isStopped (h.isStopped.trans hstop)]
      exact hp.sameButReturns_close hq h rfl
  | ended p c d hrun hnext =>
      have hnext' := Cursor.next_crlf_of_none (hjoint _ _ _ .refl hrun) hnext
      rw [← h.pending] at hnext'
      rw [run, run, deliver_of_none hrun hnext, deliver_of_none (h.isStopped.trans hrun) hnext']
      have hspent := congrArg (·.awaiting .normal) h
      exact hp.spent.sameButReturns_close hq.spent hspent rfl
  | delivered p c token d hrun hnext ih =>
      have hdeliver := deliver_of_some hrun hnext
      rw [hdeliver] at htokens
      obtain ⟨token', d', hnext', htoken, hgoes⟩ := Cursor.next_crlf hreturn
        (hjoint _ _ _ .refl hrun) hnext (htokens token (by simp))
      rw [← h.pending] at hnext'
      have hrun' := h.isStopped.trans hrun
      rw [run, run, hdeliver, deliver_of_some hrun' hnext']
      show ((p.receive token).run d).SameButReturns ((q.receive token').run d')
      -- An invalid token may end at different places of the text, but nothing is read
      -- behind it.
      by_cases hinvalid : token.kind = .invalid
      · exact hp.sameButReturns_run_invalid hq h hrun htoken hinvalid d d'
      have hreceive := hp.sameButReturns_receive hq h hrun htoken hinvalid
      -- The rest of the text keeps the three conditions.
      have hrest : ((p.receive token).run d).SameButReturns ((q.receive token').run d.crlf) := by
        refine ih (hp.receive token) (hq.receive token') hreceive ?_ ?_ ?_ ?_
        · exact (Delivers.step hrun hnext .refl).pending_eq hmode
        · have hext := c.extends_next p.pending
          rw [hnext] at hext
          obtain ⟨read, hread, -⟩ := hext
          rw [hread] at hreturn
          exact fun hmem => hreturn (List.mem_append_right _ hmem)
        · exact fun tokens p' e hdelivers => hjoint _ p' e (.step hrun hnext hdelivers)
        · exact fun token hmem => htokens token (Array.mem_append_right _ hmem)
      -- The cursors agree behind the token, or a return was left in front of the end of
      -- the line.
      rcases hgoes with hkind | rfl | ⟨hline, hreturned⟩
      · exact absurd hkind hinvalid
      · exact hrest
      · have hpending := pending_receive_of_line hrun hmode hnext hline
        rwa [run_of_returned hreturned (hreceive.pending.trans hpending)]

/-- A run reads on from where it begins. -/
theorem Delivers.extends {tokens : List Token} (h : Delivers p c tokens q d) : c.Extends d := by
  induction h with
  | refl => exact ⟨[], rfl, rfl⟩
  | @step p _ c _ _ _ _ _ hnext _ ih =>
      have hext := c.extends_next p.pending
      rw [hnext] at hext
      exact hext.trans ih

/-- A text without a backslash has no joints. -/
theorem Delivers.notMem_blanks {tokens : List Token} (h : Delivers p c tokens q d)
    (hbackslash : '\\' ∉ c.unread) : '\\' ∉ (Lexeme.blanks d.unread).read := by
  intro hmem
  obtain ⟨read, hread, -⟩ := h.extends
  have hblanks : (Lexeme.blanks d.unread).read ++ (Lexeme.blanks d.unread).rest = d.unread :=
    Reading.longest_read_append_rest _ _ _
  rw [hread, ← hblanks] at hbackslash
  exact hbackslash (List.mem_append_right _ (List.mem_append_left _ hmem))

/-! ### Whole texts -/

/-- The lines of a text may end with carriage returns as well: the parse
ends with the same status, and the nodes in pre-order have the same
depths, kinds and lines. This holds of a text without backslash-newline
joints between its tokens and without line feeds in its literals, if the
block comments stay within their limit when each line feed in them counts
for two characters. -/
theorem layout_parse_withReturns (kind : UnitKind) (filename text : String)
    (hreturn : '\r' ∉ text.toList)
    (hjoint : ∀ tokens p c, Delivers (ofUnit kind filename) (.ofString text) tokens p c →
      p.isStopped = false → p.pending = .normal → '\\' ∉ (Lexeme.blanks c.unread).read)
    (htokens : ∀ token ∈ ((ofUnit kind filename).deliver (.ofString text)).tokens,
      Lexeme.BearsReturns token.kind token.text.toList) :
    (parse kind filename (Text.withReturns text)).status = (parse kind filename text).status ∧
      (parse kind filename (Text.withReturns text)).tree.layout =
        (parse kind filename text).tree.layout := by
  have hsound := sound_ofUnit kind filename
  have hcursor : Cursor.ofString (Text.withReturns text) = (Cursor.ofString text).crlf := by
    rw [Cursor.ofString, Text.withReturns, String.toList_ofList]
    rfl
  have hrun := hsound.sameButReturns_run hsound rfl rfl hreturn hjoint htokens
  rw [parse, parse, hcursor]
  exact ⟨hrun.status, hrun.layout⟩

/-- A unit with a line comment behind a file name and a block comment on
two lines. -/
theorem layout_parse_withReturns_unit :
    ∃ text, text = "#include <a.h> // one\nchar *s = \"t\"; /* two\nthree */\n" ∧
      '\r' ∉ text.toList ∧
      (∀ tokens p c, Delivers (ofUnit .source "unit.c") (.ofString text) tokens p c →
        p.isStopped = false → p.pending = .normal → '\\' ∉ (Lexeme.blanks c.unread).read) ∧
      (∀ token ∈ ((ofUnit .source "unit.c").deliver (.ofString text)).tokens,
        Lexeme.BearsReturns token.kind token.text.toList) ∧
      (parse .source "unit.c" (Text.withReturns text)).status =
        (parse .source "unit.c" text).status ∧
      (parse .source "unit.c" (Text.withReturns text)).tree.layout =
        (parse .source "unit.c" text).tree.layout := by
  refine ⟨_, rfl, ?_⟩
  have hreturn : '\r' ∉ "#include <a.h> // one\nchar *s = \"t\"; /* two\nthree */\n".toList := by
    decide
  have hjoint : ∀ tokens p c, Delivers (ofUnit .source "unit.c")
      (.ofString "#include <a.h> // one\nchar *s = \"t\"; /* two\nthree */\n") tokens p c →
      p.isStopped = false → p.pending = .normal → '\\' ∉ (Lexeme.blanks c.unread).read :=
    fun _ _ _ h _ _ => h.notMem_blanks (by decide)
  -- The text is lexed once, and each of its tokens is looked at.
  have htokens : (((ofUnit .source "unit.c").deliver
      (.ofString "#include <a.h> // one\nchar *s = \"t\"; /* two\nthree */\n")).tokens.all
      fun token => decide (Lexeme.BearsReturns token.kind token.text.toList)) = true := by
    cbv
  rw [Array.all_eq_true'] at htokens
  have htokens := fun token hmem => of_decide_eq_true (htokens token hmem)
  exact ⟨hreturn, hjoint, htokens,
    layout_parse_withReturns .source "unit.c" _ hreturn hjoint htokens⟩

/-! ### The limit of comments -/

/-- A comment is the first token of its text, and the only one. -/
theorem exists_next_comment {body : List Char} (h : '*' ∉ body) :
    ∃ token d, (Cursor.ofList ('/' :: '*' :: (body ++ ['*', '/']))).next .normal = (some token, d) ∧
      token.kind = Lexeme.bounded Lexeme.commentLimit .blockComment
        ('/' :: '*' :: (body ++ ['*', '/'])) ∧
      d.unread = [] := by
  have hblanks : Lexeme.blanks ('/' :: '*' :: (body ++ ['*', '/'])) =
      ⟨[], (), '/' :: '*' :: (body ++ ['*', '/'])⟩ :=
    Lexeme.blanks_cons_of_other rfl fun hjoint => absurd hjoint.1 (by decide)
  have hlexeme : Lexeme.ofNormal '/' ('*' :: (body ++ ['*', '/'])) =
      Lexeme.blockComment (body ++ ['*', '/']) := rfl
  -- The first closing mark is the one at the end.
  have hmark : ¬['*', '/'] <:+: body := fun hcloses =>
    h (hcloses.subset List.mem_cons_self)
  simp only [Cursor.next, Cursor.nextNormal, Cursor.ofList, hblanks, hlexeme, Lexeme.blockComment,
    Lexeme.longest_commentRule_append_mark hmark]
  exact ⟨_, _, rfl, rfl, rfl⟩

/-- A text that is one block comment is accepted when the comment is
within its limit. -/
theorem status_parse_comment (kind : UnitKind) (filename : String) {body : List Char}
    (h : '*' ∉ body) :
    (parse kind filename (String.ofList ('/' :: '*' :: (body ++ ['*', '/'])))).status =
      if body.length + 4 ≤ Lexeme.commentLimit then .completed
      else .failed (.rejected .invalidToken) := by
  have hlength : ('/' :: '*' :: (body ++ ['*', '/'])).length = body.length + 4 := by simp
  obtain ⟨token, ⟨unread, position⟩, hnext, hkind, hunread⟩ := exists_next_comment h
  cases hunread
  have hstep := Delivers.step (p := ofUnit kind filename) rfl hnext .refl
  rw [Lexeme.bounded, hlength] at hkind
  rw [parse, Cursor.ofString, String.toList_ofList, hstep.run_eq]
  -- Up to the limit the comment is one leaf below the unit, and beyond it the token is
  -- invalid.
  split at hkind
  · next hlimit =>
    have hreceive : (ofUnit kind filename).receive token =
        (ofUnit kind filename).leaf Tree.root .blockComment token := by
      rw [receive, Parser.feed, hkind]
      rfl
    rw [hreceive, run, deliver_of_none rfl rfl, if_pos hlimit]
    rfl
  · next hlimit => rw [run_receive_invalid rfl hkind, if_neg hlimit]

/-- A comment whose only line feed, with `count` letters before it, is
written as `ending`. -/
def commentText (count : Nat) (ending : List Char) : String :=
  String.ofList ('/' :: '*' :: (List.replicate count 'a' ++ ending ++ ['*', '/']))

/-- Only the end of the line in front of the mark gets a return. -/
theorem withReturns_commentText (count : Nat) :
    Text.withReturns (commentText count ['\n']) = commentText count ['\r', '\n'] := by
  rw [Text.withReturns, commentText, String.toList_ofList, Text.crlf_cons (by decide),
    Text.crlf_cons (by decide), Text.crlf_append, Text.crlf_append, Text.crlf_of_notMem (by simp)]
  rfl

/-- Such a comment completes up to the limit and is rejected above it. -/
theorem status_parse_commentText (count : Nat) {ending : List Char} (h : '*' ∉ ending) :
    (parse .source "test.c" (commentText count ending)).status =
      if count + ending.length + 4 ≤ Lexeme.commentLimit then .completed
      else .failed (.rejected .invalidToken) := by
  rw [commentText, status_parse_comment _ _ (by simp [h]), List.length_append,
    List.length_replicate]

/-- Carriage returns can take a comment over its limit. -/
theorem not_layout_parse_withReturns :
    ¬∀ (kind : UnitKind) (filename text : String), '\r' ∉ text.toList →
      (parse kind filename (Text.withReturns text)).status = (parse kind filename text).status ∧
        (parse kind filename (Text.withReturns text)).tree.layout =
          (parse kind filename text).tree.layout := by
  intro h
  have hreturn : ∀ count, '\r' ∉ (commentText count ['\n']).toList := by
    intro count
    simp [commentText]
  -- With the line feed alone the comment is as long as a comment may be.
  have hfeed := status_parse_commentText 65529 (show '*' ∉ ['\n'] by decide)
  have hreturns := status_parse_commentText 65529 (show '*' ∉ ['\r', '\n'] by decide)
  obtain ⟨hstatus, -⟩ := h .source "test.c" _ (hreturn 65529)
  rw [withReturns_commentText, hfeed, hreturns, if_neg (by decide), if_pos (by decide)] at hstatus
  cases hstatus

end Parser

end CDeclarations
