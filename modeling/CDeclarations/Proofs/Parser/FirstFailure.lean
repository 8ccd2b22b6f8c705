import CDeclarations.Proofs.Parser.Calls
import CDeclarations.Proofs.Token.NextLine

/-!
# `CDeclarations.Proofs.Parser.FirstFailure`: nothing matters behind a refused token

A run that refuses a token reads no further, so that lines which follow the text
change nothing, if the tokens up to the refused one are the same with them. They
are: each is valid, and a valid token does not reach into the next line. The one
token that may do so is the body of a definition, which ends its directive; where
it ends with the text, no token is left to be refused.

* `Attuned.deliver_extend`: the run over a text to which lines are added.
* `parse_append_newline`: a refused unit stays as it is when lines follow it. An
  invalid token is left out, which may become a valid one, and so is the end of
  the text.
-/

set_option autoImplicit false

namespace CDeclarations.Parser

variable {p : Parser} {c d : Cursor} {token : Token} {failure : Failure}

/-- An invalid token is refused as such. -/
theorem state_receive_invalid (hrun : p.isStopped = false) (hk : token.kind = .invalid) :
    (p.receive token).state = .stopped (.rejected .invalidToken) := by
  have hgoes : ¬(({ p with pending := .normal } : Parser).state.failure?.isSome = true) :=
    not_isSome_of_isStopped_eq_false hrun
  rw [receive, Parser.feed, if_neg hgoes, hk]
  rfl

/-- Between declarations, with nothing left to be read, a run refuses nothing. -/
theorem Attuned.not_stopped_of_idle (hp : p.Attuned) (hidle : p.state = .idle)
    (hend : c.unread = []) : (p.deliver c).parser.state ≠ .stopped failure := by
  have hrun : p.isStopped = false := by
    rw [isStopped, hidle]
    rfl
  have hpending : p.pending = .normal := by
    rw [Attuned, hidle] at hp
    exact hp
  -- In normal mode nothing is read at the end of the text, so nothing is refused.
  have hnext : c.next p.pending = (none, c) := by
    obtain ⟨unread, position⟩ := c
    obtain rfl : unread = [] := hend
    rw [hpending]
    rfl
  rw [deliver_of_none hrun hnext]
  show p.state ≠ _
  rw [hidle]
  intro hstopped
  cases hstopped

/-- A run that refuses a valid token is the same where lines are added to the
text; only more of it is left unread. -/
theorem Attuned.deliver_extend (hp : p.Attuned)
    (hstate : (p.deliver c).parser.state = .stopped failure)
    (hvalid : failure ≠ .rejected .invalidToken) (more : List Char) :
    p.deliver (c.extend ('\n' :: more)) =
      { p.deliver c with cursor := (p.deliver c).cursor.extend ('\n' :: more) } := by
  induction p, c using deliver_induction with
  | stopped p c h => rw [deliver_of_isStopped h, deliver_of_isStopped h]
  | ended p c d hrun hnext =>
      -- The text ends, and no token was refused.
      rw [deliver_of_none hrun hnext] at hstate
      change p.state = _ at hstate
      rw [isStopped, hstate] at hrun
      cases hrun
  | delivered p c token d hrun hnext ih =>
      have hattuned := hp.receive hrun hnext
      have hrest := deliver_of_some hrun hnext
      rw [hrest] at hstate
      have hkind : token.kind ≠ .invalid := by
        intro hk
        have hinvalid := state_receive_invalid hrun hk
        have hstop : (p.receive token).isStopped = true := by rw [isStopped, hinvalid]; rfl
        rw [deliver_of_isStopped hstop] at hstate
        exact hvalid (State.stopped.inj (hstate.symm.trans hinvalid))
      have hbody : p.pending = .defineBody → d.unread ≠ [] := by
        intro hmode hend
        have hnormal : p.pending ≠ .normal := by rw [hmode]; decide
        rcases hp.receive_cases hnormal hnext with hidle | hstop
        · exact hattuned.not_stopped_of_idle hidle hend hstate
        · -- The body of a definition is refused only where it is invalid.
          have hliteral : token.kind = .includeLiteral ∨ token.kind = .defineLiteral :=
            (kind_of_pending hnext hnormal).imp_right fun h => h.resolve_right hkind
          rw [isStopped, state_receive_literal (hp.mode?_eq hnormal) hliteral] at hstop
          cases hstop
      have hnext' := Cursor.next_extend hnext hkind hbody more
      rw [deliver_of_some hrun hnext', hrest, ih hattuned hstate]

/-- A run fails with what stopped it, or because the text ends too soon. -/
theorem state_of_status_run (hstatus : (p.run c).status = .failed failure)
    (hend : failure ≠ .rejected .unexpectedEndOfInput) :
    (p.deliver c).parser.state = .stopped failure := by
  unfold run Parser.close at hstatus
  dsimp only at hstatus
  split at hstatus
  · cases hstatus
  · next hstate =>
    cases hstatus
    exact hstate
  · cases hstatus
    exact absurd rfl hend

/-- Nothing behind the first refused token matters. A unit that is refused for a
valid token is refused in the same way, with the same tree, whatever lines follow
it. -/
theorem parse_append_newline (kind : UnitKind) (filename text more : String) (failure : Failure)
    (hstatus : (parse kind filename text).status = .failed failure)
    (hend : failure ≠ .rejected .unexpectedEndOfInput)
    (hvalid : failure ≠ .rejected .invalidToken) :
    parse kind filename (text ++ "\n" ++ more) = parse kind filename text := by
  have htext : Cursor.ofString (text ++ "\n" ++ more) =
      (Cursor.ofString text).extend ('\n' :: more.toList) := by
    simp [Cursor.ofString, Cursor.ofList, Cursor.extend]
  have hstate := state_of_status_run hstatus hend
  have hdeliver := (attuned_ofUnit kind filename).deliver_extend hstate hvalid more.toList
  unfold parse run
  dsimp only
  rw [htext, hdeliver]
  -- What stops a parse closes it, wherever the cursor is.
  simp only [Parser.close, hstate]

/-- `int 5` is refused, and so it is with a declaration on the next line. -/
theorem parse_append_newline_number :
    (parse .source "" "int 5").status = .failed (.rejected .unexpectedToken) ∧
      parse .source "" ("int 5" ++ "\n" ++ "int x;") = parse .source "" "int 5" := by
  have hstatus : (parse .source "" "int 5").status = .failed (.rejected .unexpectedToken) := by
    decide +kernel
  exact ⟨hstatus, parse_append_newline .source "" "int 5" "int x;" _ hstatus nofun nofun⟩

end CDeclarations.Parser
