import CDeclarations.Proofs.Text.Quoted
import CDeclarations.Proofs.Tree.Built
import CDeclarations.Tree.Render

/-!
# `CDeclarations.Proofs.Tree.Outline`: the outline tells the tree

The outline shows a node on a line of its own: its depth as the indent,
then its kind, payload, position and message. The payload is a text that
the author of a unit chose, and may look like anything; between quotes it
cannot be taken for another field or another line.

* `Shown`: what the outline shows of a row.
* `Shown.line_append_inj`: a line tells what it shows, and where it ends.
  It is read from left to right, one lemma for each field.
* `Legible.listing_eq_of_render_eq`: trees with the same outline show the
  same rows.
-/

set_option autoImplicit false

namespace CDeclarations

variable {r s : List Char}

/-! ### Kinds and positions -/

/-- What is checked of a text character by character. -/
theorem forall_mem_of_all {check : Char → Bool} {cs : List Char} (h : cs.all check = true) :
    ∀ c ∈ (String.ofList cs).toList, check c = true := by
  rw [String.toList_ofList]
  exact List.all_eq_true.1 h

namespace NodeKind

/-- Kinds are told apart by their names. -/
theorem name_inj {k k' : NodeKind} (h : k.name = k'.name) : k = k' := by
  have hnodup : (all.map name).Nodup := by decide +kernel
  exact List.inj_on_of_nodup_map hnodup (mem_all k) (mem_all k') h

/-- Names are words without blanks. -/
theorem ne_of_mem_name (k : NodeKind) :
    ∀ c ∈ k.name.toList, (c != ' ' && c != '\n') = true := by
  cases k <;> exact forall_mem_of_all rfl

/-- No name begins with a blank. -/
theorem exists_name_eq_cons (k : NodeKind) :
    ∃ c cs, k.name.toList = c :: cs ∧ (c == ' ') = false := by
  cases k <;> exact ⟨_, _, rfl, by decide⟩

/-- A name in front of a blank or the end of the line can be read
back. -/
theorem name_append_inj {k k' : NodeKind}
    (hr : (r.head?.any fun c => c != ' ' && c != '\n') = false)
    (hs : (s.head?.any fun c => c != ' ' && c != '\n') = false)
    (h : k.name.toList ++ r = k'.name.toList ++ s) : k = k' ∧ r = s := by
  obtain ⟨hname, hrest⟩ := Text.append_inj_of_class _ k.ne_of_mem_name k'.ne_of_mem_name hr hs h
  exact ⟨name_inj (String.toList_inj.1 hname), hrest⟩

end NodeKind

/-- A position in front of no digit can be read back. -/
theorem Position.render_append_inj {p q : Position} (hr : r.head?.any Char.isDigit = false)
    (hs : s.head?.any Char.isDigit = false)
    (h : p.render.toList ++ r = q.render.toList ++ s) : p = q ∧ r = s := by
  have hdigits : ∀ n : Nat, ∀ c ∈ Nat.toDigits 10 n, c.isDigit = true := fun n c hc =>
    Nat.isDigit_of_mem_toDigits (by decide) (by decide) hc
  simp only [render, Nat.toString_eq_ofList_toDigits, String.toList_append, String.toList_ofList,
    List.append_assoc] at h
  -- A number ends where its digits do, in front of the colon and behind the column.
  obtain ⟨hline, hcolon⟩ := Text.append_inj_of_class Char.isDigit (hdigits _) (hdigits _) rfl rfl h
  obtain ⟨hcolumn, hrest⟩ := Text.append_inj_of_class Char.isDigit (hdigits _) (hdigits _) hr hs
    (List.append_cancel_left hcolon)
  have hline' := Text.toDigits_inj (by decide) (by decide) hline
  have hcolumn' := Text.toDigits_inj (by decide) (by decide) hcolumn
  cases p
  cases q
  cases hline'
  cases hcolumn'
  exact ⟨rfl, hrest⟩

/-! ### Lines -/

/-- What the outline shows of a row. -/
structure Shown where
  depth : Nat
  kind : NodeKind
  payload : Option String
  position : Position
  diagnostic : Option String
deriving DecidableEq

namespace Shown

/-- The payload on a line. -/
def payloadText : Option String → List Char
  | some payload => ' ' :: (Text.quoted payload).toList
  | none => []

/-- The position on a line, which units do without. -/
def positionText (kind : NodeKind) (position : Position) : List Char :=
  if kind.isUnit then [] else ' ' :: '@' :: position.render.toList

/-- The message on a line. -/
def messageText : Option String → List Char
  | some message => ' ' :: '(' :: (message.toList ++ [')'])
  | none => []

/-- What stands on a line behind the payload. -/
def tailText (x : Shown) : List Char :=
  positionText x.kind x.position ++ (messageText x.diagnostic ++ ['\n'])

/-- The line of a row, which is ended. -/
def line (x : Shown) : List Char :=
  List.replicate (2 * x.depth) ' '
    ++ (x.kind.name.toList ++ (payloadText x.payload ++ x.tailText))

/-- A unit is nowhere, and the message has no line feed. -/
structure Legible (x : Shown) : Prop where
  position : x.kind.isUnit = true → x.position = .nowhere
  message : ∀ message, x.diagnostic = some message → '\n' ∉ message.toList

variable {x y : Shown}

/-- A message fills the rest of its line. -/
theorem messageText_append_inj {a b : Option String}
    (ha : ∀ message, a = some message → '\n' ∉ message.toList)
    (hb : ∀ message, b = some message → '\n' ∉ message.toList)
    (h : messageText a ++ '\n' :: r = messageText b ++ '\n' :: s) : a = b ∧ r = s := by
  -- A message has no line end in it, so the line ends behind the message.
  have hline : ∀ d : Option String, (∀ message, d = some message → '\n' ∉ message.toList) →
      ∀ c ∈ messageText d, (c != '\n') = true := by
    intro d hd c hc
    cases d with
    | none => cases hc
    | some message =>
        have hmessage := hd message rfl
        simp only [messageText, List.mem_cons, List.mem_append, List.not_mem_nil, or_false] at hc
        rcases hc with rfl | rfl | hc | rfl
        · rfl
        · rfl
        · exact bne_iff_ne.2 fun heq => hmessage (heq ▸ hc)
        · rfl
  obtain ⟨htext, hrest⟩ := Text.append_inj_of_class _ (hline a ha) (hline b hb) rfl rfl h
  refine ⟨?_, (List.cons.inj hrest).2⟩
  cases a with
  | none =>
      cases b with
      | none => rfl
      | some message => cases htext
  | some message =>
      cases b with
      | none => cases htext
      | some message' =>
          have hinner := (List.cons.inj (List.cons.inj htext).2).2
          rw [String.toList_inj.1 (List.append_cancel_right hinner)]

/-- What stands behind a position is no digit. -/
theorem any_isDigit_messageText (a : Option String) (t : List Char) :
    (messageText a ++ '\n' :: t).head?.any Char.isDigit = false := by
  cases a <;> rfl

/-- Behind the payload of a node of one kind, its position and its
message can be read back. -/
theorem tailText_append_inj (hx : x.Legible) (hy : y.Legible) (hkind : x.kind = y.kind)
    (h : x.tailText ++ r = y.tailText ++ s) :
    x.position = y.position ∧ x.diagnostic = y.diagnostic ∧ r = s := by
  simp only [tailText, List.append_assoc, List.singleton_append, positionText, hkind] at h
  split at h
  · next hunit =>
    obtain ⟨hmessage, hrest⟩ := messageText_append_inj hx.message hy.message h
    exact ⟨(hx.position (hkind ▸ hunit)).trans (hy.position hunit).symm, hmessage, hrest⟩
  · simp only [List.cons_append, List.cons.injEq, true_and] at h
    obtain ⟨hposition, hbehind⟩ := Position.render_append_inj (any_isDigit_messageText ..)
      (any_isDigit_messageText ..) h
    obtain ⟨hmessage, hrest⟩ := messageText_append_inj hx.message hy.message hbehind
    exact ⟨hposition, hmessage, hrest⟩

/-- No position and no message begins as a payload does. -/
theorem tailText_append_ne (x : Shown) (t u : List Char) : x.tailText ++ t ≠ ' ' :: '"' :: u := by
  simp only [tailText, positionText, List.append_assoc]
  intro h
  split at h
  · -- A unit shows no position, so that its message comes first.
    cases hd : x.diagnostic with
    | none =>
        rw [hd] at h
        exact absurd (List.cons.inj h).1 (by decide)
    | some message =>
        rw [hd] at h
        exact absurd (List.cons.inj (List.cons.inj h).2).1 (by decide)
  · exact absurd (List.cons.inj (List.cons.inj h).2).1 (by decide)

/-- A quoted text begins with its quote. -/
theorem exists_quoted_eq_cons (a : String) : ∃ cs, (Text.quoted a).toList = '"' :: cs :=
  ⟨_, String.toList_ofList⟩

/-- A payload is read back between its quotes. -/
theorem payloadText_append_inj {a b : Option String} (hr : ∀ u, r ≠ ' ' :: '"' :: u)
    (hs : ∀ u, s ≠ ' ' :: '"' :: u) (h : payloadText a ++ r = payloadText b ++ s) :
    a = b ∧ r = s := by
  -- A payload is told from what follows it by its blank and quote.
  cases a with
  | none =>
      cases b with
      | none => exact ⟨rfl, h⟩
      | some payload =>
          obtain ⟨cs, hcs⟩ := exists_quoted_eq_cons payload
          simp only [payloadText, hcs, List.nil_append, List.cons_append] at h
          exact absurd h (hr _)
  | some payload =>
      cases b with
      | none =>
          obtain ⟨cs, hcs⟩ := exists_quoted_eq_cons payload
          simp only [payloadText, hcs, List.nil_append, List.cons_append] at h
          exact absurd h.symm (hs _)
      | some payload' =>
          obtain ⟨htext, hrest⟩ := Text.quoted_append_inj (List.cons.inj h).2
          exact ⟨congrArg some htext, hrest⟩

/-- Behind the name of the kind stands a blank or the end of the
line. -/
theorem any_head?_behind_name (x : Shown) (t : List Char) :
    ((payloadText x.payload ++ (x.tailText ++ t)).head?.any fun c => c != ' ' && c != '\n') =
      false := by
  simp only [tailText, positionText]
  cases x.payload with
  | some payload => rfl
  | none =>
      -- The position, or the message of a unit, or the end of the line.
      split
      · cases x.diagnostic <;> rfl
      · rfl

/-- A line in front of other lines can be read back. -/
theorem line_append_inj (hx : x.Legible) (hy : y.Legible) (h : x.line ++ r = y.line ++ s) :
    x = y ∧ r = s := by
  simp only [line, List.append_assoc] at h
  -- The indent ends where the name begins.
  have hindent : ∀ n : Nat, ∀ c ∈ List.replicate n ' ', (c == ' ') = true := fun n c hc =>
    beq_iff_eq.2 (List.eq_of_mem_replicate hc)
  have hname : ∀ (k : NodeKind) (t : List Char),
      ((k.name.toList ++ t).head?.any fun c => c == ' ') = false := by
    intro k t
    obtain ⟨c, cs, hcs, hc⟩ := k.exists_name_eq_cons
    rw [hcs, List.cons_append, List.head?_cons, Option.any_some, hc]
  obtain ⟨hdepth, h⟩ := Text.append_inj_of_class (· == ' ') (hindent _) (hindent _) (hname ..)
    (hname ..) h
  obtain ⟨hkind, h⟩ := NodeKind.name_append_inj (any_head?_behind_name ..)
    (any_head?_behind_name ..) h
  obtain ⟨hpayload, h⟩ := payloadText_append_inj (tailText_append_ne x r)
    (tailText_append_ne y s) h
  obtain ⟨hposition, hdiagnostic, hrest⟩ := tailText_append_inj hx hy hkind h
  have hdepth' : x.depth = y.depth := by
    have hlength := congrArg List.length hdepth
    simp only [List.length_replicate] at hlength
    omega
  refine ⟨?_, hrest⟩
  cases x
  cases y
  cases hdepth'
  cases hkind
  cases hpayload
  cases hposition
  cases hdiagnostic
  rfl

/-- Lines one behind the other tell what they show. -/
theorem flatMap_line_inj {xs ys : List Shown} (hxs : ∀ x ∈ xs, x.Legible)
    (hys : ∀ y ∈ ys, y.Legible) (h : xs.flatMap line = ys.flatMap line) : xs = ys := by
  have hne : ∀ (x : Shown) (t : List Char), x.line ++ t ≠ [] := by
    intro x t
    simp [line, tailText]
  -- Line by line, since no line is empty.
  induction xs generalizing ys with
  | nil =>
      cases ys with
      | nil => rfl
      | cons y ys => exact absurd h.symm (hne y _)
  | cons x xs ih =>
      cases ys with
      | nil => exact absurd h (hne x _)
      | cons y ys =>
          rw [List.flatMap_cons, List.flatMap_cons] at h
          obtain ⟨rfl, hrest⟩ := line_append_inj (hxs x List.mem_cons_self)
            (hys y List.mem_cons_self) h
          rw [ih (fun z hz => hxs z (List.mem_cons_of_mem _ hz))
            (fun z hz => hys z (List.mem_cons_of_mem _ hz)) hrest]

end Shown

/-! ### Outlines -/

namespace Tree

variable {t u : Tree}

/-- What the outline shows, row by row. -/
def listing (t : Tree) : List Shown :=
  t.rowNodes.map fun (row, n) => ⟨row.depth, n.kind, n.payload, n.position, n.diagnostic⟩

/-- The outline is the lines of what it shows. -/
theorem toList_render (t : Tree) : t.render.toList = t.listing.flatMap Shown.line := by
  have hline : ∀ entry : Row × Node, (entry.1.indent ++ entry.2.describe ++ "\n").toList =
      Shown.line ⟨entry.1.depth, entry.2.kind, entry.2.payload, entry.2.position,
        entry.2.diagnostic⟩ := by
    rintro ⟨row, kind, parent, children, position, payload, diagnostic⟩
    simp only [Row.indent, Node.describe, Shown.line, Shown.tailText, Shown.positionText,
      String.toList_append, String.toList_ofList, List.append_assoc]
    cases payload <;> cases diagnostic <;> cases kind.isUnit <;>
      simp [Shown.payloadText, Shown.messageText]
  rw [render, String.toList_join, outline, listing, List.map_map, List.flatMap_map,
    List.flatMap_map]
  exact List.flatMap_congr fun entry _ => hline entry

/-- Every entry of a legible tree's listing is legible. -/
theorem Legible.of_mem_listing (ht : t.Legible) {x : Shown} (hx : x ∈ t.listing) : x.Legible := by
  obtain ⟨⟨row, n⟩, hentry, rfl⟩ := List.mem_map.1 hx
  obtain ⟨row', -, hrow'⟩ := List.mem_filterMap.1 hentry
  obtain ⟨n', hn', heq⟩ := Option.map_eq_some_iff.1 hrow'
  cases heq
  refine ⟨fun hunit => ?_, fun message => ht.message hn'⟩
  -- The one unit is the root.
  by_cases hroot : row.id = root
  · rw [hroot] at hn'
    exact ht.built.position_root hn'
  · exact Bool.noConfusion (hunit.symm.trans (ht.isUnit hn' hroot))

/-- The outline determines what it shows. -/
theorem Legible.listing_eq_of_render_eq (ht : t.Legible) (hu : u.Legible)
    (h : t.render = u.render) : t.listing = u.listing := by
  have hlines : t.listing.flatMap Shown.line = u.listing.flatMap Shown.line := by
    rw [← toList_render, ← toList_render, h]
  exact Shown.flatMap_line_inj (fun _ => ht.of_mem_listing) (fun _ => hu.of_mem_listing) hlines

end Tree

end CDeclarations
