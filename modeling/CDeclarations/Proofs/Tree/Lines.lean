import CDeclarations.Proofs.Tree.Outline
import CDeclarations.Proofs.Tree.Traversal

/-!
# `CDeclarations.Proofs.Tree.Lines`: the lines of an outline that tell of an error

A reader of the outline looks for lines that begin with the word of an
error behind their indent. No payload can put such a line into the outline,
for it holds no line feed as it is written, and no other kind has a name
that begins so.

* `Shown.newline_notMem_body`: what the outline shows of a row stays on one
  line, so that the outline is cut into its rows again
  (`Legible.splitOn_render`).
* `Shown.tellsError_body_iff`: the line of an error, and no other, begins
  with the word.
* `Legible.hasErrors_eq_false_iff`: a tree holds no error exactly when no
  line tells of one.
-/

set_option autoImplicit false

namespace CDeclarations

namespace Text

/-- The line begins, behind its indent, with the word of an error. -/
def TellsError (line : List Char) : Prop :=
  "error".toList <+: line.dropWhile (· = ' ')

/-- Ended lines one behind the other are cut apart again. -/
theorem splitOn_flatMap_ended {bodies : List (List Char)} (h : ∀ body ∈ bodies, '\n' ∉ body) :
    (bodies.flatMap (· ++ ['\n'])).splitOn '\n' = bodies ++ [[]] := by
  induction bodies with
  | nil => exact List.splitOn_nil '\n'
  | cons body bodies ih =>
      have hbody : ∀ c ∈ body, (c == '\n') = false := fun c hc =>
        beq_eq_false_iff_ne.2 fun heq => h body List.mem_cons_self (heq ▸ hc)
      have hrest := ih fun body hmem => h body (List.mem_cons_of_mem _ hmem)
      rw [List.splitOn] at hrest
      rw [List.flatMap_cons, List.append_assoc, List.singleton_append, List.splitOn,
        List.splitOnP_append_cons_of_forall_mem hbody '\n' (beq_self_eq_true _), hrest]
      rfl

end Text

open Text (TellsError)

/-- Only the name of errors begins with their word. -/
theorem NodeKind.error_isPrefix_iff (k : NodeKind) (r : List Char) :
    "error".toList <+: k.name.toList ++ r ↔ k = .error := by
  constructor
  · intro h
    by_contra hk
    have hnot : "error".toList.isPrefixOf (k.name.toList ++ r) = false := by
      cases k <;> first | rfl | exact absurd rfl hk
    rw [List.isPrefixOf_iff_prefix.2 h] at hnot
    cases hnot
  · rintro rfl
    exact List.prefix_append _ _

/-- A position is shown on one line. -/
theorem Position.newline_notMem_render (p : Position) : '\n' ∉ p.render.toList := by
  have hdigits : ∀ n : Nat, '\n' ∉ Nat.toDigits 10 n := fun n h =>
    absurd (Nat.isDigit_of_mem_toDigits (by decide) (by decide) h) (by decide)
  simp [render, hdigits]

namespace Shown

variable {x : Shown}

/-- The line of a row without its end. -/
def body (x : Shown) : List Char :=
  List.replicate (2 * x.depth) ' ' ++ (x.kind.name.toList ++ (payloadText x.payload
    ++ (positionText x.kind x.position ++ messageText x.diagnostic)))

/-- A line of the outline is its body with a line feed behind it. -/
theorem line_eq_body_append (x : Shown) : x.line = x.body ++ ['\n'] := by
  simp only [line, tailText, body, List.append_assoc]

/-- No part of a line holds a line feed: a payload has its own escaped, and a
message is one line. -/
theorem Legible.newline_notMem_body (hx : x.Legible) : '\n' ∉ x.body := by
  have hindent : '\n' ∉ List.replicate (2 * x.depth) ' ' := fun h =>
    absurd (List.eq_of_mem_replicate h) (by decide)
  have hname : '\n' ∉ x.kind.name.toList := fun h =>
    absurd (x.kind.ne_of_mem_name '\n' h) (by decide)
  have hpayload : '\n' ∉ payloadText x.payload := by
    cases x.payload with
    | none => exact List.not_mem_nil
    | some payload =>
        exact List.not_mem_cons_of_ne_of_not_mem (by decide) (Text.newline_notMem_quoted payload)
  have hposition : '\n' ∉ positionText x.kind x.position := by
    unfold positionText
    split
    · exact List.not_mem_nil
    · simpa using x.position.newline_notMem_render
  have hmessage : '\n' ∉ messageText x.diagnostic := by
    cases hdiagnostic : x.diagnostic with
    | none => exact List.not_mem_nil
    | some message => simpa [messageText] using hx.message message hdiagnostic
  simp only [body, List.mem_append, not_or]
  exact ⟨hindent, hname, hpayload, hposition, hmessage⟩

/-- The line of an error begins with its word, and no other line does. -/
theorem tellsError_body_iff (x : Shown) : TellsError x.body ↔ x.kind = .error := by
  -- Behind the indent stands the name, which does not begin with a blank.
  have hindent : ∀ c ∈ List.replicate (2 * x.depth) ' ', decide (c = ' ') = true := fun c hc =>
    decide_eq_true (List.eq_of_mem_replicate hc)
  obtain ⟨c, cs, hname, hc⟩ := x.kind.exists_name_eq_cons
  have hstop : ∀ rest, (c :: rest).dropWhile (· = ' ') = c :: rest := fun rest =>
    List.dropWhile_cons_of_neg (by simpa using hc)
  rw [TellsError, body, List.dropWhile_append_of_pos hindent, hname, List.cons_append, hstop,
    ← List.cons_append, ← hname, NodeKind.error_isPrefix_iff]

end Shown

namespace Tree

variable {t : Tree}

/-- The outline is cut into the lines of its rows. -/
theorem Legible.splitOn_render (ht : t.Legible) :
    t.render.toList.splitOn '\n' = t.listing.map Shown.body ++ [[]] := by
  have hlines : t.listing.flatMap Shown.line =
      (t.listing.map Shown.body).flatMap (· ++ ['\n']) := by
    rw [List.flatMap_map]
    exact List.flatMap_congr fun x _ => x.line_eq_body_append
  rw [toList_render, hlines]
  refine Text.splitOn_flatMap_ended fun body hbody => ?_
  obtain ⟨x, hx, rfl⟩ := List.mem_map.1 hbody
  exact (ht.of_mem_listing hx).newline_notMem_body

/-- The outline shows every node. -/
theorem Ordered.map_kind_listing_perm (ht : t.Ordered) :
    (t.listing.map Shown.kind).Perm (t.nodes.toList.map Node.kind) := by
  have hkinds : t.listing.map Shown.kind = (t.rowNodes.map Prod.snd).map Node.kind := by
    rw [listing, List.map_map, List.map_map]
    rfl
  rw [hkinds]
  exact ht.rowNodes_perm.map Node.kind

/-- A tree holds no error exactly when no line of its outline tells of
one. -/
theorem Legible.hasErrors_eq_false_iff (ht : t.Legible) :
    t.hasErrors = false ↔ ∀ line ∈ t.render.toList.splitOn '\n', ¬TellsError line := by
  -- The listing shows each node once, so that it has an error when the tree has one.
  have hkinds : t.hasErrors = true ↔ .error ∈ t.listing.map Shown.kind := by
    rw [ht.built.ordered.map_kind_listing_perm.mem_iff, hasErrors, ← Array.any_toList,
      List.any_eq_true, List.mem_map]
    simp only [decide_eq_true_eq]
  have hline : t.hasErrors = true ↔ ∃ line ∈ t.render.toList.splitOn '\n', TellsError line := by
    rw [hkinds, ht.splitOn_render]
    constructor
    · intro herror
      obtain ⟨x, hx, hkind⟩ := List.mem_map.1 herror
      exact ⟨x.body, List.mem_append_left _ (List.mem_map_of_mem hx),
        x.tellsError_body_iff.2 hkind⟩
    · rintro ⟨line, hmem, herror⟩
      rcases List.mem_append.1 hmem with hmem | hmem
      · obtain ⟨x, hx, rfl⟩ := List.mem_map.1 hmem
        exact List.mem_map.2 ⟨x, hx, x.tellsError_body_iff.1 herror⟩
      · -- Behind the last line feed there is nothing.
        obtain rfl := List.mem_singleton.1 hmem
        exact absurd herror (by simp [TellsError])
  rw [← Bool.not_eq_true, hline]
  simp only [not_exists, not_and]

/-- The outline has a line for the root at least. -/
theorem Ordered.render_ne_empty (ht : t.Ordered) : t.render ≠ "" := by
  intro hempty
  have hpos := ht.size_pos
  have hlines : t.listing.flatMap Shown.line = [] := by
    rw [← toList_render, hempty]
    rfl
  -- The root has a line, and no line is empty.
  have hlength := ht.map_kind_listing_perm.length_eq
  cases hlisting : t.listing with
  | nil =>
      rw [hlisting] at hlength
      simp only [List.map_nil, List.length_nil, List.length_map, Array.length_toList] at hlength
      exact absurd hlength (Nat.ne_of_lt hpos)
  | cons x listing =>
      rw [hlisting, List.flatMap_cons, Shown.line_eq_body_append] at hlines
      simp at hlines

end Tree

end CDeclarations
