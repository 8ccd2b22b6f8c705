import CDeclarations.Proofs.Parser.Attaching
import CDeclarations.Proofs.Parser.Resumption
import CDeclarations.Proofs.Token.Tiling

/-!
# `CDeclarations.Proofs.Parser.ReadingOrder`: pre-order reads the text downwards

Tokens come in the order of the text, and so do the nodes of a tree.
Pre-order lists the nodes in this order, too, but for one case: a tag
is listed below its composed type, and so before the comments that
stand between the word of the type and the tag
(`pairwise_position_parse`).

* `Position.le_past`, `Cursor.le_next`: reading moves on.
* `Tree.Dated`: a node that came first stands first in the text.
* `Tree.Descending`: the tree is straight and dated. Pre-order lists its
  nodes as they stand in the text (`Descending.pairwise_rowNodes`).
* `descending_deliver`, `descending_close`: the tree of a run is such a
  tree.
-/

set_option autoImplicit false

namespace CDeclarations

/-! ### Positions -/

namespace Position

/-- Positions are ordered by the line and then by the column. -/
instance : LE Position :=
  ⟨fun p q => p.line < q.line ∨ p.line = q.line ∧ p.column ≤ q.column⟩

/-- Positions are ordered by lines, and in a line by columns. -/
theorem le_def {p q : Position} :
    p ≤ q ↔ p.line < q.line ∨ p.line = q.line ∧ p.column ≤ q.column :=
  Iff.rfl

instance (p q : Position) : Decidable (p ≤ q) :=
  decidable_of_iff _ le_def.symm

/-- A position is not behind itself. -/
theorem le_refl (p : Position) : p ≤ p :=
  Or.inr ⟨rfl, Nat.le_refl _⟩

/-- The order of positions is transitive. -/
theorem le_trans {p q r : Position} (h : p ≤ q) (h' : q ≤ r) : p ≤ r := by
  rw [le_def] at *
  omega

/-- No text leads back. -/
theorem le_past (p : Position) (text : List Char) : p ≤ p.past text := by
  cases text with
  | nil => exact le_refl p
  | cons c text => exact (precedes_past p c text).imp_right (And.imp_right Nat.le_of_lt)

end Position

/-- A token stands behind the cursor that it is read from, and before the
one that it leaves. -/
theorem Cursor.le_next {c d : Cursor} {token : Token} {mode : TokenMode}
    (h : c.next mode = (some token, d)) :
    c.position ≤ token.position ∧ token.position ≤ d.position := by
  -- In every mode blanks are passed first, and then the token itself.
  cases mode with
  | normal =>
      obtain ⟨_, _, -, h⟩ := next_normal_eq_some_iff.1 h
      obtain ⟨rfl, rfl⟩ := take_eq_iff.1 h
      exact ⟨Position.le_past _ _, Position.le_past _ _⟩
  | includeName =>
      obtain ⟨_, _, -, h⟩ := next_includeName_eq_some_iff.1 h
      obtain ⟨rfl, rfl⟩ := take_eq_iff.1 h
      exact ⟨Position.le_past _ _, Position.le_past _ _⟩
  | defineBody =>
      rw [next_defineBody] at h
      obtain ⟨rfl, rfl⟩ := take_eq_iff.1 h
      exact ⟨Position.le_past _ _, Position.le_past _ _⟩

/-- Reading goes on in the text. -/
theorem Cursor.Extends.le {c d : Cursor} (h : c.Extends d) : c.position ≤ d.position := by
  obtain ⟨read, -, hposition⟩ := h
  rw [hposition]
  exact Position.le_past _ _

/-! ### The dates of the nodes -/

namespace Tree

/-- All nodes but the root stand before `now`, and a node that came first
stands first in the text. -/
structure Dated (t : Tree) (now : Position) : Prop where
  le_now : ∀ {id : NodeId} {n : Node}, t.nodes[id]? = some n → id ≠ root → n.position ≤ now
  monotone : ∀ {id id' : NodeId} {n n' : Node}, t.nodes[id]? = some n → t.nodes[id']? = some n' →
    id ≠ root → id ≤ id' → n.position ≤ n'.position

variable {t u : Tree} {now later : Position} {token : Token}

/-- What is dated now is dated later. -/
theorem Dated.mono (h : t.Dated now) (hle : now ≤ later) : t.Dated later where
  le_now := fun hn hid => Position.le_trans (h.le_now hn hid) hle
  monotone := h.monotone

/-- A token that comes later dates its nodes. -/
theorem Dated.attaches (ht : t.Ordered) (h : t.Dated now) (hu : t.Attaches token u)
    (hle : now ≤ token.position) : u.Dated token.position where
  le_now := by
    intro id m hm hid
    rcases hu.position ht hm with ⟨n, hn, hposition⟩ | ⟨-, hposition⟩
    · rw [hposition]
      exact Position.le_trans (h.le_now hn hid) hle
    · rw [hposition]
      exact Position.le_refl _
  monotone := by
    intro id id' m m' hm hm' hid hlt
    -- Two old nodes, an old one and a new one, and two new ones.
    rcases hu.position ht hm with ⟨n, hn, hposition⟩ | ⟨hnew, hposition⟩ <;>
      rcases hu.position ht hm' with ⟨n', hn', hposition'⟩ | ⟨hnew', hposition'⟩ <;>
      rw [hposition, hposition']
    · exact h.monotone hn hn' hid hlt
    · exact Position.le_trans (h.le_now hn hid) hle
    · -- An old node behind a new one: there is none.
      exact absurd (lt_size_of_getElem? hn') (Nat.not_lt.2 (Nat.le_trans hnew hlt))
    · exact Position.le_refl _

/-- The tree of a new parse has no node but the root to date. -/
theorem dated_ofUnit (kind : UnitKind) (filename : String) (now : Position) :
    (ofUnit kind filename).Dated now := by
  exact ⟨fun hn hid => absurd (eq_of_getElem?_ofRoot hn).1 hid,
    fun hn _ hid => absurd (eq_of_getElem?_ofRoot hn).1 hid⟩

/-- The tree is straight, and its nodes stand in the text before `now`, in
the order in which they came. -/
structure Descending (t : Tree) (now : Position) : Prop extends Ordered t where
  straight : t.Straight
  dated : t.Dated now

/-- What descends now descends later. -/
theorem Descending.mono (h : t.Descending now) (hle : now ≤ later) : t.Descending later :=
  ⟨h.toOrdered, h.straight, h.dated.mono hle⟩

/-- Nodes attached at a later position keep the order of the rows. -/
theorem Descending.attaches (h : t.Descending now) (hu : t.Attaches token u)
    (hle : now ≤ token.position) : u.Descending token.position :=
  ⟨hu.ordered h.toOrdered, hu.straight h.toOrdered h.straight,
    h.dated.attaches h.toOrdered hu hle⟩

/-- A new parse has its rows in order. -/
theorem descending_ofUnit (kind : UnitKind) (filename : String) (now : Position) :
    (ofUnit kind filename).Descending now :=
  ⟨ordered_ofUnit kind filename, straight_ofUnit kind filename, dated_ofUnit kind filename now⟩

/-- A row is followed by rows that stand behind it in the text, but for a
tag and the comments before it. -/
theorem Descending.pairwise_rowNodes (h : t.Descending now) :
    (t.rowNodes.filter fun entry => entry.1.id ≠ root).Pairwise fun entry entry' =>
      entry.2.position ≤ entry'.2.position ∨ t.TagBefore entry.1.id entry'.1.id := by
  have hrows : t.rows.Pairwise fun row row' =>
      t.Below row.id row'.id ∨ t.LeftOf row.id row'.id := by
    have hwalk := h.toOrdered.pairwise_walkIds ⟨0, root⟩
    rw [walkIds, ← h.toOrdered.rows_eq_walk, List.pairwise_map] at hwalk
    exact hwalk
  have hentries : t.rowNodes.Pairwise fun entry entry' =>
      t.Below entry.1.id entry'.1.id ∨ t.LeftOf entry.1.id entry'.1.id := by
    rw [rowNodes, List.pairwise_filterMap]
    refine hrows.imp ?_
    intro row row' hbelow entry hentry entry' hentry'
    obtain ⟨n, -, rfl⟩ := Option.map_eq_some_iff.1 hentry
    obtain ⟨n', -, rfl⟩ := Option.map_eq_some_iff.1 hentry'
    exact hbelow
  have hnode : ∀ entry ∈ t.rowNodes, t.nodes[entry.1.id]? = some entry.2 := by
    intro entry hentry
    obtain ⟨row, -, hrow⟩ := List.mem_filterMap.1 hentry
    obtain ⟨n, hn, rfl⟩ := Option.map_eq_some_iff.1 hrow
    exact hn
  refine List.Pairwise.imp_of_mem ?_ (hentries.filter _)
  intro entry entry' hentry hentry' hbelow
  obtain ⟨hmem, hid⟩ := List.mem_filter.1 hentry
  obtain ⟨hmem', -⟩ := List.mem_filter.1 hentry'
  have hdated : entry.1.id ≤ entry'.1.id → entry.2.position ≤ entry'.2.position :=
    h.dated.monotone (hnode entry hmem) (hnode entry' hmem') (of_decide_eq_true hid)
  -- A row below another one has the later number; a row to the right of it has too, or
  -- is behind a tag.
  rcases hbelow with hbelow | hleft
  · exact Or.inl (hdated (hbelow.le h.toLinked))
  · exact (h.straight _ _ hleft).imp_left fun hlt => hdated (Nat.le_of_lt hlt)

end Tree

/-! ### Runs -/

namespace Parser

variable {p : Parser} {token : Token}

/-- The parse goes on where its place is on the spine. -/
theorem Growing.growing_receive (hp : p.Growing) (hrun : p.isStopped = false) (token : Token)
    (hgoes : (p.receive token).isStopped = false) : (p.receive token).Growing := by
  rw [receive_eq] at hgoes ⊢
  rcases hp.settled_feed hrun token with ⟨-, hgrowing⟩ | ⟨failure, hstopped⟩
  · exact ⟨hgrowing.tidy, hgrowing.spine⟩
  · exact Bool.noConfusion (hstopped.isStopped.symm.trans hgoes)

/-- The tree of a run stands in the text as it came, and the parse goes on
at the spine unless it is stopped. -/
theorem descending_deliver (hsound : p.Sound) (htags : p.Tagging)
    (hgrowing : p.isStopped = false → p.Growing) (c : Cursor) (h : p.tree.Descending c.position) :
    (p.deliver c).parser.tree.Descending (p.deliver c).cursor.position ∧
      ((p.deliver c).parser.isStopped = false → (p.deliver c).parser.Growing) := by
  induction p, c using deliver_induction with
  | stopped p c hstop =>
      rw [deliver_of_isStopped hstop]
      exact ⟨h, hgrowing⟩
  | ended p c d hrun hnext =>
      rw [deliver_of_none hrun hnext]
      have hext := c.extends_next p.pending
      rw [hnext] at hext
      exact ⟨h.mono hext.le, fun _ => ⟨(hgrowing hrun).tidy, (hgrowing hrun).spine⟩⟩
  | delivered p c token d hrun hnext ih =>
      rw [deliver_of_some hrun hnext]
      -- The token stands between the two cursors, so its nodes are dated in between.
      obtain ⟨hbefore, hbehind⟩ := Cursor.le_next hnext
      have hp := hgrowing hrun
      have hattaches : p.tree.Attaches token (p.receive token).tree := by
        rw [receive_eq]
        exact hp.attaches_feed hsound htags token
      refine ih (hsound.receive token) ?_ (hp.growing_receive hrun token)
        ((h.attaches hattaches hbefore).mono hbehind)
      rw [receive_eq]
      exact hsound.tagging_feed htags token

/-- The error node at the end of a text goes under the spine, too. -/
theorem descending_close (hgrowing : p.isStopped = false → p.Growing) (c : Cursor)
    (h : p.tree.Descending c.position) : (p.close c).tree.Descending c.position := by
  unfold close
  cases hs : p.state with
  | idle => exact h
  | stopped failure => exact h
  -- The error is attached where the text ended, as a token without text would be.
  | _ =>
      have hp : p.Growing := by
        apply hgrowing
        rw [isStopped, hs]
        rfl
      let ending : Token := ⟨.invalid, c.position, ""⟩
      have hattaches : p.tree.Attaches ending (p.tree.add p.place .error c.position none
          (some (Failure.rejected .unexpectedEndOfInput).message)) :=
        .node .none hp.spine _ _ _
      exact h.attaches hattaches (Position.le_refl _)

/-- Pre-order reads the text from top to bottom: of two nodes the first
stands first, unless it is a tag and the other one a comment between the
word of the composed type and the tag. -/
theorem pairwise_position_parse (kind : UnitKind) (filename text : String) :
    let t := (parse kind filename text).tree
    (t.rowNodes.filter fun entry => entry.1.id ≠ Tree.root).Pairwise fun entry entry' =>
      entry.2.position ≤ entry'.2.position ∨ t.TagBefore entry.1.id entry'.1.id := by
  intro t
  obtain ⟨hend, hgrowing⟩ := descending_deliver (sound_ofUnit kind filename)
    (tagging_ofUnit kind filename) (fun _ => growing_ofUnit kind filename) (.ofString text)
    (Tree.descending_ofUnit kind filename _)
  exact (descending_close hgrowing _ hend).pairwise_rowNodes

/-- A tag is listed before a comment that stands before it. -/
theorem not_pairwise_position_struct :
    ¬((parse .source "test.c" "struct /*c*/ S x;").tree.rowNodes.filter fun entry =>
        entry.1.id ≠ Tree.root).Pairwise fun entry entry' =>
      entry.2.position ≤ entry'.2.position := by
  intro hpairwise
  have hpositions : ((parse .source "test.c" "struct /*c*/ S x;").tree.rowNodes.filter fun entry =>
      entry.1.id ≠ Tree.root).map (fun entry => entry.2.position) =
      [⟨1, 1⟩, ⟨1, 1⟩, ⟨1, 1⟩, ⟨1, 14⟩, ⟨1, 8⟩, ⟨1, 16⟩, ⟨1, 17⟩] := by
    cbv
  have hmapped := List.pairwise_map.2 hpairwise
  rw [hpositions] at hmapped
  revert hmapped
  decide

end Parser

end CDeclarations
