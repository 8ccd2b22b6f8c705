import CDeclarations.Browser.Basic
import CDeclarations.Proofs.Tree.Traversal
import Mathlib.Data.Nat.PSub

/-!
# `CDeclarations.Proofs.Browser.Session`: a browser at work

A browser is moved by keys and by frames of any size, in any order. Keys
move the selection and know nothing of the windows; a frame moves both
windows after the selection, whatever the size of the frame before was.

* `TreePane.inWindow_follow`, `SourcePane.inWindow_follow`: a window that
  follows holds what it follows.
* `press_cases`: what a key can do to a browser.
* `Browser.arrange?`: a frame whose subtractions have to be possible. They
  are (`arrange?_eq`).
* `Steady`: the selection is on a row of the unit that the browser was made
  for. Each event keeps it (`Steady.after`).
* `Framed`: the windows hold the selected row and its line. They do behind
  every frame (`framed_draw`).
* `steady_afterAll`: all of it for a whole session.
-/

set_option autoImplicit false

namespace CDeclarations

open Screen

/-- The window of `visible` rows from `first` on holds the row `index`. -/
def InWindow (first visible index : Nat) : Prop :=
  first ≤ index ∧ index < first + visible

/-! ### Windows that follow -/

namespace TreePane

/-- A window of one row or more follows the selected row. -/
theorem inWindow_follow (selected scroll : Nat) {visible : Nat} (h : 0 < visible) :
    InWindow (follow selected scroll visible) visible selected := by
  unfold InWindow follow
  split
  · omega
  split <;> omega

/-- As `follow`, with a subtraction that has to be possible. -/
def follow? (selected scroll visible : Nat) : Option Nat :=
  if selected < scroll then some selected
  else if scroll + visible ≤ selected then (selected + 1).psub visible
  else some scroll

/-- The subtraction in the tree's window is made only where it does not go
below zero. -/
theorem follow?_eq (selected scroll visible : Nat) :
    follow? selected scroll visible = some (follow selected scroll visible) := by
  unfold follow? follow
  split
  · rfl
  split
  · next hbelow =>
    have hle : visible ≤ selected + 1 := by omega
    exact Nat.psub_eq_sub hle
  · rfl

end TreePane

namespace SourcePane

/-- The window of the source ends with the last line at most. -/
theorem follow_le (line total scroll visible : Nat) :
    follow line total scroll visible ≤ total - visible :=
  Nat.min_le_right _ _

/-- A window of one line or more follows a line of the text: where it
would reach beyond the last line it is moved up, and the line stays in
it. -/
theorem inWindow_follow {line total : Nat} (scroll : Nat) {visible : Nat} (h : 0 < visible)
    (hline : 0 < line) (htotal : line ≤ total) :
    InWindow (follow line total scroll visible) visible (line - 1) := by
  have hthere : 0 < line ∧ line ≤ total := ⟨hline, htotal⟩
  unfold InWindow follow
  rw [if_pos hthere]
  dsimp only
  split
  · omega
  split <;> omega

/-- As `follow`, with subtractions that have to be possible but for the
one that gives the last window. -/
def follow? (line total scroll visible : Nat) : Option Nat :=
  let moved? :=
    if 0 < line ∧ line ≤ total then
      (line.psub 1).bind fun index =>
        if index < scroll then some index
        else if scroll + visible ≤ index then (index + 1).psub visible
        else some scroll
    else some scroll
  moved?.map (min · (total - visible))

/-- The two subtractions in the source's window are made only where they do
not go below zero. -/
theorem follow?_eq (line total scroll visible : Nat) :
    follow? line total scroll visible = some (follow line total scroll visible) := by
  unfold follow? follow
  dsimp only
  split
  · next hthere =>
    obtain ⟨index, rfl⟩ : ∃ index, line = index + 1 := Nat.exists_eq_add_one.2 hthere.1
    have hindex : (index + 1).psub 1 = some index := Nat.psub_eq_sub (Nat.le_add_left 1 index)
    rw [hindex, Option.bind_some, Nat.add_sub_cancel]
    split
    · rfl
    split
    · next hbelow =>
      have hle : visible ≤ index + 1 := by omega
      rw [Nat.psub_eq_sub hle]
      rfl
    · rfl
  · rfl

end SourcePane

namespace Browser

variable {b : Browser} {outcome : Outcome} {source : String}

/-! ### Keys -/

/-- What a key can do: it selects a row, or it only says something or ends
the session. -/
theorem press_cases (b : Browser) (press : KeyPress) :
    (∃ index, b.press press = b.select index) ∨
      ∃ message done, b.press press = { b with message := message, done := done } := by
  -- A search selects the row it found, or leaves a message.
  have hfound : ∀ found : Option Nat, (∃ index, b.selectFound found = b.select index) ∨
      ∃ message done, b.selectFound found = { b with message := message, done := done } := by
    intro found
    cases found with
    | some index => exact Or.inl ⟨index, rfl⟩
    | none => exact Or.inr ⟨_, b.done, rfl⟩
  -- Key by key: three that end, six that move, two that search, and the rest.
  unfold Browser.press
  split
  · exact Or.inr ⟨b.message, true, rfl⟩
  · exact Or.inr ⟨b.message, true, rfl⟩
  · exact Or.inr ⟨b.message, true, rfl⟩
  · exact Or.inl ⟨_, rfl⟩
  · exact Or.inl ⟨_, rfl⟩
  · exact Or.inl ⟨_, rfl⟩
  · exact Or.inl ⟨_, rfl⟩
  · exact Or.inl ⟨_, rfl⟩
  · exact Or.inl ⟨_, rfl⟩
  · exact hfound _
  · exact hfound _
  · exact Or.inr ⟨b.message, b.done, rfl⟩

/-! ### Sessions -/

/-- What a browser is moved by. -/
inductive Event
  | key (press : KeyPress)
  | frame (width height : Nat)

/-- The browser behind an event. -/
def after (b : Browser) : Event → Browser
  | .key press => b.press press
  | .frame width height => (b.draw width height).1

/-- The browser behind one event after another. -/
def afterAll (b : Browser) (events : List Event) : Browser :=
  events.foldl after b

/-- As `arrange`, with subtractions that have to be possible. -/
def arrange? (b : Browser) (height : Nat) : Option Browser := do
  let visible := Box.visibleRows height
  let total := (Text.lines b.source.toList).length
  let treeScroll ← TreePane.follow? b.selected b.treeScroll visible
  let sourceScroll ← SourcePane.follow? b.selectedLine.1 total b.sourceScroll visible
  return { b with pageSize := visible, treeScroll := treeScroll, sourceScroll := sourceScroll }

/-- As `after`, with subtractions that have to be possible. Those of keys
stop at zero on purpose. -/
def after? (b : Browser) : Event → Option Browser
  | .key press => some (b.press press)
  | .frame _ height => b.arrange? (height - 1)

def afterAll? (b : Browser) (events : List Event) : Option Browser :=
  events.foldlM after? b

/-- No subtraction of a frame goes below zero. -/
theorem arrange?_eq (b : Browser) (height : Nat) : b.arrange? height = some (b.arrange height) := by
  simp only [arrange?, TreePane.follow?_eq, SourcePane.follow?_eq]
  rfl

/-- No event makes a subtraction go below zero. -/
theorem after?_eq (b : Browser) (event : Event) : b.after? event = some (b.after event) := by
  cases event with
  | key press => rfl
  | frame width height => exact b.arrange?_eq (height - 1)

/-- No run of events does. -/
theorem afterAll?_eq (b : Browser) (events : List Event) :
    b.afterAll? events = some (b.afterAll events) := by
  induction events generalizing b with
  | nil => rfl
  | cons event events ih =>
      rw [afterAll?, List.foldlM_cons, after?_eq]
      exact ih (b.after event)

/-! ### What a session keeps -/

/-- The browser shows the unit that it was made for and has one of its
rows selected, and a page has a row. -/
structure Steady (outcome : Outcome) (source : String) (b : Browser) : Prop where
  outcome_eq : b.outcome = outcome
  source_eq : b.source = source
  rows_eq : b.rows = outcome.tree.rows
  selected_lt : b.selected < b.rows.length
  pageSize_pos : 1 ≤ b.pageSize

/-- Selecting a row keeps the browser steady: the row is clamped to the rows
there are. -/
theorem Steady.select (h : b.Steady outcome source) (index : Nat) :
    (b.select index).Steady outcome source where
  outcome_eq := h.outcome_eq
  source_eq := h.source_eq
  rows_eq := h.rows_eq
  selected_lt := by
    have hlt : 0 < b.rows.length := Nat.zero_lt_of_lt h.selected_lt
    show min index (b.rows.length - 1) < b.rows.length
    omega
  pageSize_pos := h.pageSize_pos

/-- Every key keeps the browser steady. -/
theorem Steady.press (h : b.Steady outcome source) (press : KeyPress) :
    (b.press press).Steady outcome source := by
  rcases b.press_cases press with ⟨index, heq⟩ | ⟨message, done, heq⟩
  · rw [heq]
    exact h.select index
  · rw [heq]
    exact ⟨h.outcome_eq, h.source_eq, h.rows_eq, h.selected_lt, h.pageSize_pos⟩

/-- A frame shows a row at least. -/
theorem Steady.draw (h : b.Steady outcome source) (width height : Nat) :
    (b.draw width height).1.Steady outcome source where
  outcome_eq := h.outcome_eq
  source_eq := h.source_eq
  rows_eq := h.rows_eq
  selected_lt := h.selected_lt
  pageSize_pos := Nat.le_max_left 1 _

/-- Every event keeps the browser steady. -/
theorem Steady.after (h : b.Steady outcome source) (event : Event) :
    (b.after event).Steady outcome source := by
  cases event with
  | key press => exact h.press press
  | frame width height => exact h.draw width height

/-- A run of events keeps the browser steady. -/
theorem Steady.afterAll (h : b.Steady outcome source) (events : List Event) :
    (b.afterAll events).Steady outcome source := by
  induction events generalizing b with
  | nil => exact h
  | cons event events ih => exact ih (h.after event)

/-- A tree with a row has one selected from the beginning. -/
theorem steady_new (source : String) (h : 0 < outcome.tree.rows.length) :
    (new outcome source).Steady outcome source := by
  have hfirst : Steady outcome source ⟨outcome, source, 0, "Ready!", false, 10, 0, 0⟩ :=
    ⟨rfl, rfl, rfl, h, Nat.le_add_left 1 9⟩
  unfold new
  dsimp only
  split
  · exact hfirst.select _
  · exact hfirst

/-! ### What a frame shows -/

/-- The windows of panes of the given height hold the selected row and its
line, if the text has this line. The window of lines does not reach beyond
the last line unless it shows them all. -/
structure Framed (b : Browser) (height : Nat) : Prop where
  tree : InWindow b.treeScroll (max 1 (height - 2)) b.selected
  source : b.sourceScroll ≤ (Text.lines b.source.toList).length - max 1 (height - 2)
  line : ∀ n, b.nodeAt? b.selected = some n → 1 ≤ n.position.line →
    n.position.line ≤ (Text.lines b.source.toList).length →
      InWindow b.sourceScroll (max 1 (height - 2)) (n.position.line - 1)

/-- The line that is followed is the line of the selected node. -/
theorem selectedLine_eq {n : Node} (h : b.nodeAt? b.selected = some n) :
    b.selectedLine.1 = n.position.line := by
  rw [selectedLine, h]

/-- Whatever the windows were before, a frame puts them in place. Its panes
leave the last row to the status bar. -/
theorem framed_draw (b : Browser) (width height : Nat) :
    (b.draw width height).1.Framed (height - 1) := by
  have hvisible : 0 < Box.visibleRows (height - 1) := Nat.le_max_left 1 _
  refine ⟨TreePane.inWindow_follow _ _ hvisible, SourcePane.follow_le _ _ _ _, ?_⟩
  intro n hn hline htotal
  have hselected : b.selectedLine.1 = n.position.line := selectedLine_eq hn
  show InWindow (SourcePane.follow b.selectedLine.1 _ _ _) _ _
  rw [hselected]
  exact SourcePane.inWindow_follow b.sourceScroll hvisible hline htotal

/-- A row of a tree has a node. -/
theorem exists_nodeAt? (ht : b.outcome.tree.Ordered) {index : Nat} (h : index < b.rows.length) :
    ∃ n, b.nodeAt? index = some n := by
  have hmem : b.rows[index].id ∈ b.outcome.tree.rows.map Row.id :=
    List.mem_map_of_mem (List.getElem_mem h)
  have hlt : b.rows[index].id < b.outcome.tree.size :=
    List.mem_range.1 (ht.rows_perm.mem_iff.1 hmem)
  refine ⟨b.outcome.tree.nodes[b.rows[index].id], ?_⟩
  rw [nodeAt?, List.getElem?_eq_getElem h, Option.bind_some]
  exact Array.getElem?_eq_getElem hlt

/-- Whatever keys are pressed and whatever frames are drawn, all
subtractions are possible, and the browser shows its unit with one of the
rows selected, which has its node. Whatever frame is drawn next, its
windows hold the selected row and its line. -/
theorem steady_afterAll (ht : outcome.tree.Built) (source : String) (events : List Event) :
    let b := (new outcome source).afterAll events
    (new outcome source).afterAll? events = some b ∧ b.Steady outcome source ∧
      (∃ n, b.nodeAt? b.selected = some n) ∧
      ∀ width height, (b.after (.frame width height)).Framed (height - 1) := by
  intro b
  -- A built tree has its unit as a row, so there is something to select.
  have hrows : 0 < outcome.tree.rows.length := by
    rw [ht.ordered.scansAgree.length_rows]
    exact ht.ordered.size_pos
  have hsteady : b.Steady outcome source := (steady_new source hrows).afterAll events
  have hordered : b.outcome.tree.Ordered := by
    rw [hsteady.outcome_eq]
    exact ht.ordered
  exact ⟨afterAll?_eq _ events, hsteady, exists_nodeAt? hordered hsteady.selected_lt,
    b.framed_draw⟩

/-- The page of a large frame takes the selection beyond a small one, which
has room for a single row and shows the selected one. -/
theorem steady_afterAll_shrunk :
    let t := (((Tree.ofUnit .source "unit.c").add 0 .datatype ⟨1, 1⟩ none none).add 1
      .primitiveType ⟨1, 1⟩ (some "int") none).add 1 .error ⟨2, 1⟩ (some ";")
        (some "unexpected token")
    let outcome : Outcome := ⟨t, .failed (.rejected .unexpectedToken)⟩
    let b := (new outcome "int\n;").afterAll
      [.frame 80 24, .key ⟨.home, false⟩, .key ⟨.pageDown, true⟩]
    outcome.tree.Built ∧ b.selected < 4 ∧ (b.after (.frame 80 4)).treeScroll = b.selected := by
  intro t outcome b
  have hbuilt : outcome.tree.Built := .add (.add (.add (.unit .source "unit.c") (by decide) ..)
    (by decide) ..) (by decide) ..
  obtain ⟨-, hsteady, -, hframed⟩ := steady_afterAll hbuilt "int\n;"
    [.frame 80 24, .key ⟨.home, false⟩, .key ⟨.pageDown, true⟩]
  have hrows : outcome.tree.rows.length = 4 := rfl
  have hlt := hsteady.selected_lt
  rw [hsteady.rows_eq, hrows] at hlt
  obtain ⟨hle, hbefore⟩ := (hframed 80 4).tree
  refine ⟨hbuilt, hlt, Nat.le_antisymm hle (Nat.le_of_lt_succ hbefore)⟩

end Browser

end CDeclarations
