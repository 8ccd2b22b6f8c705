import CDeclarations.Proofs.Browser.Session
import CDeclarations.Proofs.Browser.TreePane
import Mathlib.Data.Nat.Find

/-!
# `CDeclarations.Proofs.Browser.Paging`: a tree read page by page

A key that moves by a page is pressed between frames of one height. The
length of a page comes from the height of the pane, and so does the window
of the next frame, but the window also depends on where it was before. Keys
never move the window, and frames never move the selection.

* `Touch`: two windows with no row between them. The window follows a
  selection that moves by a page at most, and touches the window before
  (`TreePane.touch_follow`).
* `exists_inWindow_of_touch`: windows that touch one another one by one leave
  no row out between the first and the last.
* `Browser.Pages`: a run of frames from a selected row to another one, which
  shows every row of the tree.
* `Browser.exists_pages`: from the first row down and from the last row up.
-/

set_option autoImplicit false

namespace CDeclarations

open Screen

/-! ### Windows that touch -/

/-- No row is between two windows of `visible` rows. -/
def Touch (visible first next : Nat) : Prop :=
  next ≤ first + visible ∧ first ≤ next + visible

/-- A row that is not above both of two windows and not below both. -/
def Spanned (visible first last index : Nat) : Prop :=
  first ≤ index ∧ index < last + visible ∨ last ≤ index ∧ index < first + visible

/-- Windows that touch one another one by one leave no row out between the
first and the last. -/
theorem exists_inWindow_of_touch {visible count index : Nat} {first : Nat → Nat}
    (htouch : ∀ k < count, Touch visible (first k) (first (k + 1)))
    (h : Spanned visible (first 0) (first count) index) :
    ∃ k ≤ count, InWindow (first k) visible index := by
  -- On the number of windows: the last one is looked at first.
  induction count with
  | zero => exact ⟨0, Nat.le_refl 0, h.elim id id⟩
  | succ count ih =>
      by_cases hlast : InWindow (first (count + 1)) visible index
      · exact ⟨count + 1, Nat.le_refl _, hlast⟩
      · -- The row is beyond the last window, on the side of the window before.
        have hbefore : Spanned visible (first 0) (first count) index := by
          obtain ⟨hnext, hfirst⟩ := htouch count (Nat.lt_succ_self count)
          unfold Spanned at h ⊢
          unfold InWindow at hlast
          omega
        obtain ⟨k, hk, hin⟩ := ih (fun k hk => htouch k (Nat.lt_succ_of_lt hk)) hbefore
        exact ⟨k, Nat.le_succ_of_le hk, hin⟩

/-- A window that follows a selection which moves by as many rows as it shows
touches the window before. -/
theorem TreePane.touch_follow {selected moved scroll visible : Nat}
    (hbefore : InWindow scroll visible selected) (hmoved : Touch visible selected moved) :
    Touch visible scroll (follow moved scroll visible) := by
  obtain ⟨hfirst, hlast⟩ := hbefore
  obtain ⟨hdown, hup⟩ := hmoved
  unfold Touch follow
  split
  · omega
  split <;> omega

namespace Browser

variable {b : Browser} {key : KeyPress} {widths : Nat → Nat} {height last : Nat}

/-! ### Frames between keys -/

/-- The part of a frame that is the tree pane. -/
def treePart (width height : Nat) (frame : Rows) : Rows :=
  (frame.take (height - 1)).map (·.take (treeWidth width))

/-- The left part of a frame is the drawing of the tree pane. -/
theorem treePart_draw (b : Browser) (width height : Nat) :
    treePart width height (b.draw width height).2 =
      TreePane.draw b.outcome.tree b.rows b.selected (b.draw width height).1.treeScroll
        (treeWidth width) (height - 1) := by
  exact (parts_beside (Box.length_draw ..) (Box.length_draw ..)
    (fun row hrow => Box.length_of_mem_draw hrow) _).1

/-- A frame has row `index` of the tree inside the edges of its tree pane, as
far below the upper edge as the row is behind the first one of the window. -/
def ShowsRow (t : Tree) (width height index : Nat) (frame : Browser × Rows) : Prop :=
  ∃ row, t.rows[index]? = some row ∧ InWindow frame.1.treeScroll (height - 3) index ∧
    (treePart width height frame.2)[index - frame.1.treeScroll + 1]? =
      some (TreePane.lineRow t t.rows.length (treeWidth width) row
        (decide (index = frame.1.selected)))

/-- A frame shows the rows of its window. -/
theorem showsRow_draw (b : Browser) {width height index : Nat} (hrow : index < b.rows.length)
    (hwindow : InWindow (b.draw width height).1.treeScroll (height - 3) index) :
    ShowsRow b.outcome.tree width height index (b.draw width height) := by
  refine ⟨b.rows[index], List.getElem?_eq_getElem hrow, hwindow, ?_⟩
  obtain ⟨hfirst, hlast⟩ := hwindow
  rw [treePart_draw]
  exact TreePane.getElem?_draw (List.getElem?_eq_getElem hrow) hfirst (by omega)

/-- The frames that are drawn one behind the other, with `key` pressed before
each but the first. Frames may differ in their width. -/
def frames (b : Browser) (key : KeyPress) (widths : Nat → Nat) (height : Nat) :
    Nat → Browser × Rows
  | 0 => b.draw (widths 0) height
  | k + 1 => ((b.frames key widths height k).1.press key).draw (widths (k + 1)) height

/-- A key moves neither the tree nor the window. -/
theorem outcome_treeScroll_press (b : Browser) (key : KeyPress) :
    (b.press key).outcome = b.outcome ∧ (b.press key).treeScroll = b.treeScroll := by
  rcases b.press_cases key with ⟨index, heq⟩ | ⟨message, done, heq⟩
  · rw [heq]
    exact ⟨rfl, rfl⟩
  · rw [heq]
    exact ⟨rfl, rfl⟩

/-- Each frame is drawn of a browser of the same tree. -/
theorem exists_frames_eq_draw (b : Browser) (key : KeyPress) (widths : Nat → Nat)
    (height k : Nat) :
    ∃ c : Browser, c.outcome = b.outcome ∧
      b.frames key widths height k = c.draw (widths k) height := by
  induction k with
  | zero => exact ⟨b, rfl, rfl⟩
  | succ k ih =>
      obtain ⟨c, hc, hframe⟩ := ih
      refine ⟨(b.frames key widths height k).1.press key, ?_, rfl⟩
      rw [(outcome_treeScroll_press _ key).1, hframe]
      exact hc

/-- Frames and keys leave the rows as they are. -/
theorem rows_frames (b : Browser) (key : KeyPress) (widths : Nat → Nat) (height k : Nat) :
    (b.frames key widths height k).1.rows = b.rows := by
  obtain ⟨c, hc, hframe⟩ := b.exists_frames_eq_draw key widths height k
  rw [hframe]
  exact congrArg (·.tree.rows) hc

/-- A pane of three rows or more shows those between its edges. -/
theorem visibleRows_eq (hheight : 3 ≤ height - 1) : Box.visibleRows (height - 1) = height - 3 := by
  show max 1 (height - 1 - 2) = height - 3
  omega

/-- A page is what a frame shows. -/
theorem pageSize_frames (hheight : 3 ≤ height - 1) (k : Nat) :
    (b.frames key widths height k).1.pageSize = height - 3 := by
  obtain ⟨c, -, hframe⟩ := b.exists_frames_eq_draw key widths height k
  rw [hframe]
  exact visibleRows_eq hheight

/-- The window of a frame holds the selected row. -/
theorem inWindow_frames (b : Browser) (key : KeyPress) (widths : Nat → Nat)
    (hheight : 3 ≤ height - 1) (k : Nat) :
    InWindow (b.frames key widths height k).1.treeScroll (height - 3)
      (b.frames key widths height k).1.selected := by
  obtain ⟨c, -, hframe⟩ := b.exists_frames_eq_draw key widths height k
  rw [hframe, ← visibleRows_eq hheight]
  exact (c.framed_draw (widths k) height).tree

/-- A row in the window of a frame is drawn in that frame. -/
theorem showsRow_frames {index k : Nat} (hrow : index < b.rows.length)
    (hwindow : InWindow (b.frames key widths height k).1.treeScroll (height - 3) index) :
    ShowsRow b.outcome.tree (widths k) height index (b.frames key widths height k) := by
  obtain ⟨c, hc, hframe⟩ := b.exists_frames_eq_draw key widths height k
  rw [hframe] at hwindow ⊢
  rw [← hc]
  refine c.showsRow_draw ?_ hwindow
  rw [rows, hc]
  exact hrow

/-- The window of the next frame follows the selection from where it was. -/
theorem treeScroll_frames_succ (hheight : 3 ≤ height - 1) (k : Nat) :
    (b.frames key widths height (k + 1)).1.treeScroll =
      TreePane.follow (b.frames key widths height (k + 1)).1.selected
        (b.frames key widths height k).1.treeScroll (height - 3) := by
  rw [← (outcome_treeScroll_press (b.frames key widths height k).1 key).2, ← visibleRows_eq hheight]
  rfl

/-! ### Pages -/

/-- The key is pressed until row `last` is selected, which takes so many
presses, and the frames up to then show every row of the tree. -/
structure Pages (b : Browser) (key : KeyPress) (widths : Nat → Nat) (height last presses : Nat) :
    Prop where
  reaches : (b.frames key widths height presses).1.selected = last
  before : ∀ k < presses, (b.frames key widths height k).1.selected ≠ last
  presses_le : presses ≤ b.rows.length
  shows : ∀ index < b.rows.length, ∃ k ≤ presses,
    ShowsRow b.outcome.tree (widths k) height index (b.frames key widths height k)

/-- A key that moves the selection by a page at most leaves no row out on its
way from the row that is selected to row `last`. -/
theorem exists_pages_of_touch (hheight : 3 ≤ height - 1)
    (hmoves : ∀ k, Touch (height - 3) (b.frames key widths height k).1.selected
      (b.frames key widths height (k + 1)).1.selected)
    (hreach : ∃ k ≤ b.rows.length, (b.frames key widths height k).1.selected = last)
    (hbetween : ∀ index < b.rows.length,
      b.selected ≤ index ∧ index ≤ last ∨ last ≤ index ∧ index ≤ b.selected) :
    ∃ presses, b.Pages key widths height last presses := by
  obtain ⟨k, hk, hlast⟩ := hreach
  have hex : ∃ k, (b.frames key widths height k).1.selected = last := ⟨k, hlast⟩
  have hreaches := Nat.find_spec hex
  refine ⟨Nat.find hex, hreaches, fun k hk => Nat.find_min hex hk,
    (Nat.find_min' hex hlast).trans hk, fun index hindex => ?_⟩
  have htouch : ∀ k, Touch (height - 3) (b.frames key widths height k).1.treeScroll
      (b.frames key widths height (k + 1)).1.treeScroll := by
    intro k
    rw [treeScroll_frames_succ hheight]
    exact TreePane.touch_follow (b.inWindow_frames key widths hheight k) (hmoves k)
  -- The first window holds the row that was selected, and the last one row `last`.
  have hspanned : Spanned (height - 3) (b.frames key widths height 0).1.treeScroll
      (b.frames key widths height (Nat.find hex)).1.treeScroll index := by
    have hfirst : InWindow _ (height - 3) b.selected := b.inWindow_frames key widths hheight 0
    have hend := b.inWindow_frames key widths hheight (Nat.find hex)
    have hrow := hbetween index hindex
    rw [hreaches] at hend
    unfold InWindow at hfirst hend
    unfold Spanned
    omega
  obtain ⟨k, hk, hwindow⟩ := exists_inWindow_of_touch (fun k _ => htouch k) hspanned
  exact ⟨k, hk, showsRow_frames hindex hwindow⟩

/-- A page down leads on by a page, but not beyond the last row. -/
theorem selected_pageDown (hheight : 3 ≤ height - 1) (control : Bool) (k : Nat) :
    (b.frames ⟨.pageDown, control⟩ widths height (k + 1)).1.selected =
      min ((b.frames ⟨.pageDown, control⟩ widths height k).1.selected + (height - 3))
        (b.rows.length - 1) := by
  rw [← rows_frames b ⟨.pageDown, control⟩ widths height k, ← pageSize_frames hheight k]
  rfl

/-- A page up leads back by a page, but not above the first row. -/
theorem selected_pageUp (hheight : 3 ≤ height - 1) (control : Bool) (k : Nat) :
    (b.frames ⟨.pageUp, control⟩ widths height (k + 1)).1.selected =
      min ((b.frames ⟨.pageUp, control⟩ widths height k).1.selected - (height - 3))
        (b.rows.length - 1) := by
  rw [← rows_frames b ⟨.pageUp, control⟩ widths height k, ← pageSize_frames hheight k]
  rfl

/-- From the first row, pages lead down to the last one. -/
theorem exists_pages_pageDown (hheight : 3 ≤ height - 1) (control : Bool) (widths : Nat → Nat)
    (hfirst : b.selected = 0) :
    ∃ presses, b.Pages ⟨.pageDown, control⟩ widths height (b.rows.length - 1) presses := by
  let selected k := (b.frames ⟨.pageDown, control⟩ widths height k).1.selected
  have hstep : ∀ k, selected (k + 1) = min (selected k + (height - 3)) (b.rows.length - 1) :=
    selected_pageDown hheight control
  -- A page is one row at least.
  have hbounds : ∀ k, min k (b.rows.length - 1) ≤ selected k ∧ selected k ≤ b.rows.length - 1 := by
    intro k
    induction k with
    | zero =>
        have hzero : selected 0 = 0 := hfirst
        omega
    | succ k ih =>
        rw [hstep]
        omega
  refine exists_pages_of_touch hheight (fun k => ?_) ⟨b.rows.length, Nat.le_refl _, ?_⟩ ?_
  · obtain ⟨-, hle⟩ := hbounds k
    show Touch _ (selected k) (selected (k + 1))
    rw [hstep]
    unfold Touch
    omega
  · obtain ⟨hge, hle⟩ := hbounds b.rows.length
    show selected b.rows.length = _
    omega
  · intro index hindex
    omega

/-- From the last row, pages lead up to the first one. -/
theorem exists_pages_pageUp (hheight : 3 ≤ height - 1) (control : Bool) (widths : Nat → Nat)
    (hlast : b.selected = b.rows.length - 1) :
    ∃ presses, b.Pages ⟨.pageUp, control⟩ widths height 0 presses := by
  let selected k := (b.frames ⟨.pageUp, control⟩ widths height k).1.selected
  have hstep : ∀ k, selected (k + 1) = min (selected k - (height - 3)) (b.rows.length - 1) :=
    selected_pageUp hheight control
  -- Each page moves up by one row at least, so as many pages as rows reach the first.
  have hbound : ∀ k, selected k ≤ b.rows.length - 1 - k := by
    intro k
    induction k with
    | zero =>
        have hend : selected 0 = b.rows.length - 1 := hlast
        omega
    | succ k ih =>
        rw [hstep]
        omega
  refine exists_pages_of_touch hheight (fun k => ?_) ⟨b.rows.length, Nat.le_refl _, ?_⟩ ?_
  · have hle := hbound k
    show Touch _ (selected k) (selected (k + 1))
    rw [hstep]
    unfold Touch
    omega
  · have hle := hbound b.rows.length
    show selected b.rows.length = _
    omega
  · intro index hindex
    omega

/-- Whatever the browser was doing, pages lead from the first row down to the
last and from the last row up to the first. In frames of one height, with a
tree pane of three rows or more, either way every row is shown, and there are
no more presses than rows. -/
theorem exists_pages (b : Browser) (hheight : 3 ≤ height - 1) (control : Bool)
    (widths : Nat → Nat) :
    (∃ presses, (b.press ⟨.home, control⟩).Pages ⟨.pageDown, control⟩ widths height
      (b.rows.length - 1) presses) ∧
    ∃ presses, (b.press ⟨.bottom, control⟩).Pages ⟨.pageUp, control⟩ widths height 0 presses := by
  constructor
  · have hfirst : (b.press ⟨.home, control⟩).selected = 0 := Nat.zero_min _
    exact exists_pages_pageDown hheight control widths hfirst
  · have hlast : (b.press ⟨.bottom, control⟩).selected = b.rows.length - 1 :=
      Nat.min_eq_right (Nat.sub_le _ _)
    exact exists_pages_pageUp hheight control widths hlast

/-- Selection, page and window are left over from a larger tree. Frames with
two rows of it show the third row on the way down and the second on the way
up. -/
theorem exists_pages_leftover :
    let t := (((Tree.ofUnit .source "unit.c").add 0 .datatype ⟨1, 1⟩ none none).add 1
      .primitiveType ⟨1, 1⟩ (some "int") none).add 1 .error ⟨2, 1⟩ (some ";")
        (some "unexpected token")
    let outcome : Outcome := ⟨t, .failed (.rejected .unexpectedToken)⟩
    let b : Browser := ⟨outcome, "int\n;", 9, "", false, 100, 7, 0⟩
    3 ≤ 5 - 1 ∧ b.rows.length = 4 ∧
      (∃ presses ≤ 4, ∃ k ≤ presses, ShowsRow t 80 5 2
        ((b.press ⟨.home, false⟩).frames ⟨.pageDown, false⟩ (fun _ => 80) 5 k)) ∧
      ∃ presses ≤ 4, ∃ k ≤ presses, ShowsRow t 80 5 1
        ((b.press ⟨.bottom, false⟩).frames ⟨.pageUp, false⟩ (fun _ => 80) 5 k) := by
  intro t outcome b
  have hheight : 3 ≤ 5 - 1 := by decide
  obtain ⟨⟨down, hdown⟩, up, hup⟩ := b.exists_pages hheight false fun _ => 80
  exact ⟨hheight, rfl, ⟨down, hdown.presses_le, hdown.shows 2 (by decide)⟩,
    up, hup.presses_le, hup.shows 1 (by decide)⟩

end Browser

end CDeclarations
