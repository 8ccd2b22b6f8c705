import CDeclarations.Browser.Basic
import CDeclarations.Proofs.Tree.Traversal
import Mathlib.Data.List.Iterate
import Mathlib.Order.RelClasses

/-!
# `CDeclarations.Proofs.Browser.Diagnostics`: from one diagnostic to the next

Two keys go through the errors and warnings of a unit, one forwards and one
backwards. Each looks for the nearest one on its side of the selection and
begins anew where it finds none. Both are the same search, over the rows
of the diagnostics and over these rows in reverse (`nextStop`).

* `iterate_nextStop`: the stops ahead are met one after another, by
  induction on them.
* `iterate_nextStop_length`: as many steps as there are stops go round: first
  come the stops ahead and then the others.
* `nextStop_nextStop`: from a stop, a step and a step back return.
* `goesRound`: what this means for the browser of any tree.
-/

set_option autoImplicit false

namespace CDeclarations

/-! ### Stops -/

/-- The first stop ahead of the place, or the first of all where none is
ahead. Without stops the place stays. -/
def nextStop (ahead : Nat → Nat → Prop) [DecidableRel ahead] (stops : List Nat) (place : Nat) :
    Nat :=
  ((stops.find? (ahead place ·)).or stops.head?).getD place

section Stops

variable {ahead behind : Nat → Nat → Prop} [DecidableRel ahead] [DecidableRel behind]
  {passed left rest stops : List Nat} {place stop : Nat}

/-- Behind the stops that are passed, the first one ahead is the next. -/
theorem nextStop_of_ahead (hpassed : ∀ x ∈ passed, ¬ahead place x) (hstop : ahead place stop) :
    nextStop ahead (passed ++ stop :: rest) place = stop := by
  have hnone : passed.find? (ahead place ·) = none := by
    rw [List.find?_eq_none]
    intro x hx
    simpa using hpassed x hx
  rw [nextStop, List.find?_append, hnone, Option.none_or,
    List.find?_cons_of_pos (by simpa using hstop)]
  rfl

/-- With no stop ahead the first of all is the next. -/
theorem nextStop_of_not_ahead (h : ∀ x ∈ stop :: rest, ¬ahead place x) :
    nextStop ahead (stop :: rest) place = stop := by
  have hnone : (stop :: rest).find? (ahead place ·) = none := by
    rw [List.find?_eq_none]
    intro x hx
    simpa using h x hx
  rw [nextStop, hnone]
  rfl

omit [DecidableRel ahead] in
/-- From a stop, no stop up to it is ahead. -/
theorem not_ahead_of_pairwise [IsStrictOrder Nat ahead]
    (hstops : (passed ++ stop :: rest).Pairwise ahead) : ∀ x ∈ passed ++ [stop], ¬ahead stop x := by
  intro x hx hahead
  rcases List.mem_append.1 hx with hx | hx
  · exact asymm hahead (List.pairwise_append.1 hstops |>.2.2 x hx stop List.mem_cons_self)
  · rw [List.mem_singleton.1 hx] at hahead
    exact irrefl stop hahead

omit [DecidableRel ahead] in
/-- The stop is not ahead of any stop behind it. -/
theorem not_stop_ahead_of_pairwise [IsStrictOrder Nat ahead]
    (hstops : (stop :: rest).Pairwise ahead) : ∀ x ∈ stop :: rest, ¬ahead x stop := by
  intro x hx hahead
  rcases List.mem_cons.1 hx with rfl | hx
  · exact irrefl x hahead
  · exact asymm hahead (List.rel_of_pairwise_cons hstops hx)

/-- The stops ahead are met one after another, until all of these are
passed. -/
theorem iterate_nextStop [IsStrictOrder Nat ahead] (passed left rest : List Nat)
    (hstops : (passed ++ (left ++ rest)).Pairwise ahead) (hpassed : ∀ x ∈ passed, ¬ahead place x)
    (hleft : ∀ x ∈ left, ahead place x) :
    let step := nextStop ahead (passed ++ (left ++ rest))
    List.iterate step (step place) left.length = left ∧
      ∀ x ∈ passed ++ left, ¬ahead (step^[left.length] place) x := by
  intro step
  -- One step moves the first stop that is left to those that are passed.
  induction left generalizing passed place with
  | nil =>
      rw [List.append_nil]
      exact ⟨rfl, hpassed⟩
  | cons stop left ih =>
      have hstep : step place = stop := nextStop_of_ahead hpassed (hleft stop List.mem_cons_self)
      have hmoved : passed ++ (stop :: left ++ rest) = passed ++ [stop] ++ (left ++ rest) := by
        simp
      have hbehind : ∀ x ∈ left, ahead stop x := by
        intro x hx
        have htail := (List.pairwise_append.1 hstops).2.1
        exact List.rel_of_pairwise_cons htail (List.mem_append_left _ hx)
      have hrest := ih (passed ++ [stop]) (hmoved ▸ hstops) (not_ahead_of_pairwise hstops) hbehind
      rw [← hmoved] at hrest
      obtain ⟨hround, hend⟩ := hrest
      rw [List.length_cons, List.iterate, Function.iterate_succ_apply, hstep]
      refine ⟨congrArg (stop :: ·) hround, ?_⟩
      rwa [List.append_assoc] at hend

/-- The stops ahead stand behind the others. -/
theorem filter_append_filter_of_pairwise [IsStrictOrder Nat ahead] (hstops : stops.Pairwise ahead)
    (place : Nat) :
    stops.filter (¬ahead place ·) ++ stops.filter (ahead place ·) = stops := by
  induction stops with
  | nil => rfl
  | cons stop stops ih =>
      obtain ⟨hstop, htail⟩ := List.pairwise_cons.1 hstops
      -- The list is cut at the first stop that is ahead.
      by_cases hahead : ahead place stop
      · -- What is behind a stop that is ahead is ahead as well.
        have hall : ∀ x ∈ stop :: stops, ahead place x := by
          intro x hx
          rcases List.mem_cons.1 hx with rfl | hx
          · exact hahead
          · exact trans_of ahead hahead (hstop x hx)
        rw [List.filter_eq_nil_iff.2 (by simpa using hall), List.nil_append,
          List.filter_eq_self.2 (by simpa using hall)]
      · rw [List.filter_cons_of_pos (by simpa using hahead),
          List.filter_cons_of_neg (by simpa using hahead), List.cons_append, ih htail]

/-- As many steps as there are stops go round. -/
theorem iterate_nextStop_length [IsStrictOrder Nat ahead] (hstops : stops.Pairwise ahead)
    (place : Nat) :
    List.iterate (nextStop ahead stops) (nextStop ahead stops place) stops.length =
      stops.filter (ahead place ·) ++ stops.filter (¬ahead place ·) := by
  have hsplit := filter_append_filter_of_pairwise hstops place
  generalize hpassed : stops.filter (¬ahead place ·) = passed at hsplit
  generalize hleft : stops.filter (ahead place ·) = left at hsplit
  have hnot : ∀ x ∈ passed, ¬ahead place x := by
    intro x hx
    rw [← hpassed] at hx
    simpa using List.of_mem_filter hx
  have hahead : ∀ x ∈ left, ahead place x := by
    intro x hx
    rw [← hleft] at hx
    simpa using List.of_mem_filter hx
  subst hsplit
  obtain ⟨hround, hend⟩ := iterate_nextStop passed left [] (by rwa [List.append_nil]) hnot hahead
  rw [List.append_nil] at hround hend
  generalize hstep : nextStop ahead (passed ++ left) = step at hround hend
  rw [List.length_append, Nat.add_comm, List.iterate_add, hround,
    ← Function.iterate_succ_apply, Function.iterate_succ_apply']
  congr 1
  -- Nothing is ahead any more, and the round begins anew.
  cases passed with
  | nil => rfl
  | cons stop passed =>
      have hfirst : step (step^[left.length] place) = stop := by
        rw [← hstep] at hend ⊢
        exact nextStop_of_not_ahead hend
      obtain ⟨hstop, -⟩ := List.pairwise_cons.1 hstops
      have hnext := iterate_nextStop [stop] passed left hstops
        (by simpa using irrefl stop) fun x hx => hstop x (List.mem_append_left _ hx)
      rw [List.length_cons, List.iterate, hfirst]
      rw [List.singleton_append, ← List.cons_append, hstep] at hnext
      exact congrArg (stop :: ·) hnext.1

/-- From a stop, a step ahead and a step back over the same stops
return. -/
theorem nextStop_nextStop [IsStrictOrder Nat ahead] (hback : ∀ x y, behind x y ↔ ahead y x)
    (hstops : stops.Pairwise ahead) (hplace : place ∈ stops) :
    nextStop behind stops.reverse (nextStop ahead stops place) = place := by
  obtain ⟨passed, left, rfl⟩ := List.append_of_mem hplace
  have hpassed := not_ahead_of_pairwise hstops
  cases left with
  | cons stop left =>
      -- The step ahead leads to the stop behind the place.
      have hsplit : passed ++ place :: stop :: left = passed ++ [place] ++ stop :: left := by simp
      have hreverse : (passed ++ place :: stop :: left).reverse =
          (stop :: left).reverse ++ place :: passed.reverse := by simp
      obtain ⟨-, htail, -⟩ := List.pairwise_append.1 hstops
      have hahead : ahead place stop := List.rel_of_pairwise_cons htail List.mem_cons_self
      have hstep : nextStop ahead (passed ++ place :: stop :: left) place = stop := by
        rw [hsplit]
        exact nextStop_of_ahead hpassed hahead
      rw [hstep, hreverse]
      refine nextStop_of_ahead ?_ ((hback stop place).2 hahead)
      intro x hx
      rw [hback]
      exact not_stop_ahead_of_pairwise (List.pairwise_cons.1 htail).2 x (List.mem_reverse.1 hx)
  | nil =>
      -- The step ahead begins anew, and the step back ends where it began.
      have hreverse : (passed ++ [place]).reverse = place :: passed.reverse := by simp
      obtain ⟨stop, rest, hrest⟩ : ∃ stop rest, passed ++ [place] = stop :: rest :=
        List.exists_cons_of_ne_nil
          (List.append_ne_nil_of_right_ne_nil passed (List.cons_ne_nil place []))
      have hstep : nextStop ahead (passed ++ [place]) place = stop := by
        rw [hrest] at hpassed ⊢
        exact nextStop_of_not_ahead hpassed
      rw [hstep, hreverse]
      refine nextStop_of_not_ahead fun x hx => ?_
      rw [← hreverse, List.mem_reverse, hrest] at hx
      rw [hback]
      exact not_stop_ahead_of_pairwise (hrest ▸ hstops) x hx

end Stops

namespace Browser

variable {b : Browser} {index : Nat}

/-! ### The rows of the diagnostics -/

/-- The rows of the diagnostics are numbered from the top down. -/
theorem pairwise_diagnosticRows (b : Browser) : b.diagnosticRows.Pairwise (· < ·) := by
  have hnumbers : (b.rows.zipIdx.map Prod.snd).Pairwise (· < ·) := by
    rw [List.zipIdx_map_snd]
    exact List.pairwise_lt_range'
  rw [diagnosticRows, List.pairwise_filterMap]
  refine (List.pairwise_map.1 hnumbers).imp ?_
  rintro ⟨row, index⟩ ⟨row', index'⟩ hlt found hfound found' hfound'
  obtain ⟨-, heq⟩ := Option.ite_none_right_eq_some.1 hfound
  obtain ⟨-, heq'⟩ := Option.ite_none_right_eq_some.1 hfound'
  rw [← Option.some.inj heq, ← Option.some.inj heq']
  exact hlt

/-- These are the rows of errors and warnings. -/
theorem mem_diagnosticRows_iff :
    index ∈ b.diagnosticRows ↔ ∃ n, b.nodeAt? index = some n ∧ n.kind.isDiagnostic = true := by
  have hnode : ∀ row : Row, (b.outcome.tree.kind? row.id).any NodeKind.isDiagnostic = true ↔
      ∃ n, b.outcome.tree.nodes[row.id]? = some n ∧ n.kind.isDiagnostic = true := by
    intro row
    rw [Tree.kind?, Option.any_map, Option.any_eq_true]
  rw [diagnosticRows, List.mem_filterMap]
  constructor
  · rintro ⟨⟨row, found⟩, hrow, hfound⟩
    obtain ⟨hkind, heq⟩ := Option.ite_none_right_eq_some.1 hfound
    obtain rfl : found = index := Option.some.inj heq
    obtain ⟨n, hn, hdiagnostic⟩ := (hnode row).1 hkind
    exact ⟨n, by rw [nodeAt?, List.mk_mem_zipIdx_iff_getElem?.1 hrow, Option.bind_some, hn],
      hdiagnostic⟩
  · rintro ⟨n, hn, hdiagnostic⟩
    obtain ⟨row, hrow, hn⟩ := Option.bind_eq_some_iff.1 hn
    exact ⟨⟨row, index⟩, List.mk_mem_zipIdx_iff_getElem?.2 hrow,
      if_pos ((hnode row).2 ⟨n, hn, hdiagnostic⟩)⟩

/-- The row of a diagnostic is one of the rows of the tree. -/
theorem lt_length_rows_of_mem (h : index ∈ b.diagnosticRows) : index < b.rows.length := by
  obtain ⟨n, hn, -⟩ := mem_diagnosticRows_iff.1 h
  obtain ⟨row, hrow, -⟩ := Option.bind_eq_some_iff.1 hn
  exact (List.getElem?_eq_some_iff.1 hrow).1

/-- There are as many such rows as there are errors and warnings in the
tree. -/
theorem length_diagnosticRows (ht : b.outcome.tree.Ordered) :
    b.diagnosticRows.length = b.outcome.tree.nodes.countP fun n => n.kind.isDiagnostic := by
  generalize htree : b.outcome.tree = t at ht
  have hnodes : t.rowNodes.map Prod.snd = t.rows.filterMap fun row => t.nodes[row.id]? := by
    rw [Tree.rowNodes, List.map_filterMap]
    refine List.filterMap_congr fun row _ => ?_
    rw [Option.map_map]
    exact Option.map_id'
  -- The rows are counted as rows, then as nodes in the order of the rows, then as nodes
  -- of the tree.
  calc
    b.diagnosticRows.length
      = t.rows.zipIdx.countP fun entry => (t.kind? entry.1.id).any NodeKind.isDiagnostic := by
        rw [diagnosticRows, List.length_filterMap_eq_countP, rows, htree]
        refine List.countP_congr fun entry _ => ?_
        split
        all_goals simp [*]
    _ = t.rows.countP fun row => (t.kind? row.id).any NodeKind.isDiagnostic := by
        conv_rhs => rw [← List.zipIdx_map_fst 0 t.rows, List.countP_map]
        rfl
    _ = (t.rowNodes.map Prod.snd).countP fun n => n.kind.isDiagnostic := by
        rw [hnodes, List.countP_filterMap]
        refine List.countP_congr fun row _ => ?_
        rw [Tree.kind?]
        cases t.nodes[row.id]? <;> rfl
    _ = t.nodes.toList.countP fun n => n.kind.isDiagnostic := ht.rowNodes_perm.countP_eq _
    _ = t.nodes.countP fun n => n.kind.isDiagnostic := Array.countP_toList ..

/-! ### The keys -/

/-- A search moves the selection only, and the diagnostics stay where they
are. -/
theorem diagnosticRows_selectFound (b : Browser) (found : Option Nat) :
    (b.selectFound found).diagnosticRows = b.diagnosticRows := by
  cases found <;> rfl

/-- A row that is found among the diagnostics is selected, and where there
is none the selection stays. -/
theorem selected_selectFound {found : Option Nat} (h : ∀ index ∈ found, index ∈ b.diagnosticRows) :
    (b.selectFound found).selected = found.getD b.selected := by
  cases found with
  | none => rfl
  | some index =>
      have hlt := lt_length_rows_of_mem (h index rfl)
      show min index (b.rows.length - 1) = index
      omega

/-- The key `n` selects the next stop below the selected row. -/
theorem selected_nextDiagnostic (b : Browser) :
    b.nextDiagnostic.selected = nextStop (· < ·) b.diagnosticRows b.selected := by
  refine selected_selectFound fun index hindex => ?_
  rcases Option.or_eq_some_iff.1 hindex with hfound | ⟨-, hfirst⟩
  · exact List.mem_of_find?_eq_some hfound
  · exact List.mem_of_head? hfirst

/-- The key `N` selects the next stop above it, in the order of the reversed
list. -/
theorem selected_previousDiagnostic (b : Browser) :
    b.previousDiagnostic.selected = nextStop (· > ·) b.diagnosticRows.reverse b.selected := by
  have hlast : b.diagnosticRows.getLast? = b.diagnosticRows.reverse.head? := List.head?_reverse.symm
  rw [previousDiagnostic, hlast]
  refine selected_selectFound fun index hindex => ?_
  rw [← List.mem_reverse]
  rcases Option.or_eq_some_iff.1 hindex with hfound | ⟨-, hfirst⟩
  · exact List.mem_of_find?_eq_some hfound
  · exact List.mem_of_head? hfirst

/-- Where a step of the browser takes the selection to the next stop, many
steps take it from stop to stop. -/
theorem map_selected_iterate {step : Browser → Browser} {next : Nat → Nat} {stops : List Nat}
    (hrows : ∀ b, (step b).diagnosticRows = b.diagnosticRows)
    (hstep : ∀ b, b.diagnosticRows = stops → (step b).selected = next b.selected) (count : Nat)
    (hb : b.diagnosticRows = stops) :
    (List.iterate step b count).map selected = List.iterate next b.selected count := by
  induction count generalizing b with
  | zero => rfl
  | succ count ih =>
      have hnext : (step b).diagnosticRows = stops := (hrows b).trans hb
      rw [List.iterate, List.iterate, List.map_cons, ih hnext, hstep b hb]

/-- The keys `next` and `previous` go through the errors and warnings of
the tree, in pre-order and in reverse, and round again. -/
structure GoesRound (b : Browser) (next previous : KeyPress) : Prop where
  increasing : b.diagnosticRows.Pairwise (· < ·)
  mem_iff : ∀ index, index ∈ b.diagnosticRows ↔
    ∃ n, b.nodeAt? index = some n ∧ n.kind.isDiagnostic = true
  length_eq : b.diagnosticRows.length = b.outcome.tree.nodes.countP fun n => n.kind.isDiagnostic
  /-- The rows below the selection come first, each from the top down. -/
  forwards : (List.iterate (·.press next) (b.press next) b.diagnosticRows.length).map selected =
    b.diagnosticRows.filter (b.selected < ·) ++ b.diagnosticRows.filter (· ≤ b.selected)
  /-- The rows above the selection come first, each from the bottom up. -/
  backwards : (List.iterate (·.press previous) (b.press previous) b.diagnosticRows.length).map
      selected =
    (b.diagnosticRows.filter (· < b.selected)).reverse ++
      (b.diagnosticRows.filter (b.selected ≤ ·)).reverse
  next_previous : b.selected ∈ b.diagnosticRows →
    ((b.press next).press previous).selected = b.selected
  previous_next : b.selected ∈ b.diagnosticRows →
    ((b.press previous).press next).selected = b.selected
  stays : b.diagnosticRows = [] →
    (b.press next).selected = b.selected ∧ (b.press previous).selected = b.selected

/-- In the browser of any tree, with any row selected, the two keys of the
diagnostics go round. -/
theorem goesRound (b : Browser) (ht : b.outcome.tree.Built) (control : Bool) :
    b.GoesRound ⟨.char 'n', control⟩ ⟨.char 'N', control⟩ := by
  have hup := b.pairwise_diagnosticRows
  have hdown : b.diagnosticRows.reverse.Pairwise (· > ·) := List.pairwise_reverse.2 hup
  -- Each key is a step to the next stop, and a step leaves the list of stops as it is.
  have hnext : ∀ c : Browser, c.diagnosticRows = b.diagnosticRows →
      (c.press ⟨.char 'n', control⟩).selected =
        nextStop (· < ·) b.diagnosticRows c.selected := by
    intro c hc
    rw [← hc]
    exact c.selected_nextDiagnostic
  have hprevious : ∀ c : Browser, c.diagnosticRows = b.diagnosticRows →
      (c.press ⟨.char 'N', control⟩).selected =
        nextStop (· > ·) b.diagnosticRows.reverse c.selected := by
    intro c hc
    rw [← hc]
    exact c.selected_previousDiagnostic
  have hrows : ∀ c : Browser, (c.press ⟨.char 'n', control⟩).diagnosticRows = c.diagnosticRows :=
    fun c => c.diagnosticRows_selectFound _
  have hrows' : ∀ c : Browser, (c.press ⟨.char 'N', control⟩).diagnosticRows = c.diagnosticRows :=
    fun c => c.diagnosticRows_selectFound _
  refine ⟨hup, fun _ => mem_diagnosticRows_iff, length_diagnosticRows ht.ordered, ?_, ?_, ?_, ?_,
    ?_⟩
  · rw [map_selected_iterate hrows hnext _ (hrows b), hnext b rfl, iterate_nextStop_length hup]
    simp only [Nat.not_lt]
  · rw [map_selected_iterate hrows' hprevious _ (hrows' b), hprevious b rfl,
      ← List.length_reverse, iterate_nextStop_length hdown, List.filter_reverse,
      List.filter_reverse]
    simp only [gt_iff_lt, Nat.not_lt]
  -- From a diagnostic one step back leads to where the step forward began.
  · intro hselected
    rw [hprevious _ (hrows b), hnext b rfl]
    exact nextStop_nextStop (fun _ _ => Iff.rfl) hup hselected
  · intro hselected
    have hreturn : nextStop (· < ·) b.diagnosticRows.reverse.reverse
        (nextStop (· > ·) b.diagnosticRows.reverse b.selected) = b.selected :=
      nextStop_nextStop (fun _ _ => Iff.rfl) hdown (List.mem_reverse.2 hselected)
    rw [hnext _ (hrows' b), hprevious b rfl]
    rwa [List.reverse_reverse] at hreturn
  -- Without a diagnostic there is no stop, and the selection stays.
  · intro hnone
    rw [hnext b rfl, hprevious b rfl, hnone]
    exact ⟨rfl, rfl⟩

/-- The warning was appended last and stands above the error. From the root
it comes first, and from the error it comes next. -/
theorem goesRound_warning_above_error :
    let t := (((Tree.ofUnit .source "unit.c").add 0 .datatype ⟨1, 1⟩ none none).add 0
      .error ⟨2, 1⟩ (some ";") (some "unexpected token")).add 1 .warning ⟨1, 1⟩ (some "int")
        (some "unusual")
    let b (row : Nat) : Browser := ⟨⟨t, .failed (.rejected .unexpectedToken)⟩, "int\n;", row, "",
      false, 10, 0, 0⟩
    let next := fun b : Browser => b.press ⟨.char 'n', false⟩
    t.Built ∧ (b 0).diagnosticRows = [2, 3] ∧
      [next (b 0), next (next (b 0))].map selected = [2, 3] ∧
      [next (b 3), next (next (b 3))].map selected = [2, 3] := by
  intro t b next
  have hbuilt : t.Built := .add (.add (.add (.unit .source "unit.c") (by decide) ..)
    (by decide) ..) (by decide) ..
  have hrows : ∀ row, (b row).diagnosticRows = [2, 3] := fun _ => rfl
  refine ⟨hbuilt, hrows 0, ?_, ?_⟩
  · have hround := (goesRound (b 0) hbuilt false).forwards
    rw [hrows] at hround
    exact hround
  · have hround := (goesRound (b 3) hbuilt false).forwards
    rw [hrows] at hround
    exact hround

end Browser

end CDeclarations
