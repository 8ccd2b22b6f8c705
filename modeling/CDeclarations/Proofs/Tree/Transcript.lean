import CDeclarations.Proofs.Tree.Growth
import Mathlib.Data.List.Basic

/-!
# `CDeclarations.Proofs.Tree.Transcript`: the tokens that a tree records

Every node but the root stems from a token. Most nodes of a token carry
its text; for the rest the kind says it: a directive stands for its
mark, an item behind the first one for the comma before it. Some nodes
stand for no token of their own. `Tree.transcript` reads the tokens off
the nodes, in the order of the nodes.

* `transcript_add`: an append leaves what is recorded and records at
  most one further token.
* `transcript_addLeaf`, `transcript_addFailure`, `transcript_addContainer`,
  `transcript_addItem`: which one, for each way of appending.
-/

set_option autoImplicit false

namespace CDeclarations

/-- The text of the token that a node of this kind stands for without
carrying it. -/
def NodeKind.word? : NodeKind → Option String
  | .directive => some "#"
  | .includeDirective => some "include"
  | .defineDirective => some "define"
  | .pragmaDirective => some "pragma"
  | .initialization => some "="
  | _ => none

namespace Tree

/-- The node is the first item below its parent. -/
def isFirstItem (t : Tree) (id : NodeId) : Bool :=
  (t.childrenOfKind (t.parentOrSelf id) .arrayItem)[0]? = some id

/-- The text of the token that a node stands for, if it stands for
one. An item stands for the comma before it. -/
def spelling? (t : Tree) (id : NodeId) (n : Node) : Option String :=
  match n.payload with
  | some text => some text
  | none =>
      if n.kind = .arrayItem then
        if t.isFirstItem id then none else some ","
      else n.kind.word?

/-- The position and the text of the token that a node stands for. -/
def placedSpelling? (t : Tree) (id : NodeId) : Option (Position × String) :=
  t.nodes[id]?.bind fun n => (t.spelling? id n).map fun text => (n.position, text)

/-- The tokens that the nodes behind the root stand for. -/
def transcript (t : Tree) : List (Position × String) :=
  (List.range' 1 (t.size - 1)).filterMap t.placedSpelling?

/-! ### Items -/

section Items

variable {t : Tree} {id parent : NodeId} {kind : NodeKind} {position : Position}
  {payload diagnostic : Option String}

/-- A node is among the children of its parent that are of its kind. -/
theorem Linked.mem_childrenOfKind (ht : t.Linked) (h : t.Holds id kind parent) :
    id ∈ t.childrenOfKind parent kind := by
  have hne := ht.ne_root h
  obtain ⟨n, hn, hk, hp⟩ := h
  obtain ⟨q, hq, -, hmem⟩ := ht.parent hn hne
  obtain rfl : q = parent := Option.some.inj (hq.symm.trans hp)
  rw [childrenOfKind, Array.mem_filter]
  exact ⟨hmem, by rw [kind?, hn, Option.map_some, hk, decide_eq_true rfl]⟩

/-- The children of one kind in a grown tree: those before, and the new
node where it is such a child. -/
theorem childrenOfKind_add (ht : t.Linked) (h : parent < t.size) (id : NodeId)
    (k : NodeKind) :
    (t.add parent kind position payload diagnostic).childrenOfKind id k =
      if id = parent ∧ kind = k then (t.childrenOfKind id k).push t.size
      else t.childrenOfKind id k := by
  -- The children that were there are old nodes, and keep their kind.
  have hold : (t.children id).filter (fun c =>
      (t.add parent kind position payload diagnostic).kind? c = some k) =
      t.childrenOfKind id k := by
    rw [childrenOfKind, ← Array.toList_inj, Array.toList_filter, Array.toList_filter]
    apply List.filter_congr
    intro c hc
    obtain ⟨n, hn, -⟩ := ht.child (Array.mem_toList_iff.1 hc)
    rw [kind?_add kind position payload diagnostic h,
      if_neg (Nat.ne_of_lt (lt_size_of_getElem? hn))]
  rw [childrenOfKind, children_add kind position payload diagnostic h]
  by_cases hid : id = parent
  · rw [if_pos hid, Array.filter_push, hold, kind?_add kind position payload diagnostic h,
      if_pos rfl]
    simp [hid]
  · rw [if_neg hid, hold, if_neg (fun hboth => hid hboth.1)]

end Items

/-! ### What an append records -/

section Add

variable {t : Tree} {parent : NodeId} {kind : NodeKind} {position : Position}
  {payload diagnostic : Option String}

/-- An old node keeps its place among the items of its parent. -/
theorem isFirstItem_add (ht : t.Linked) (h : parent < t.size) {id : NodeId} {n : Node}
    (hn : t.nodes[id]? = some n) (hid : id ≠ Tree.root) (hk : n.kind = .arrayItem) :
    (t.add parent kind position payload diagnostic).isFirstItem id = t.isFirstItem id := by
  have hlt := lt_size_of_getElem? hn
  obtain ⟨q, hq, -, -⟩ := ht.parent hn hid
  have hholds : t.Holds id .arrayItem q := ⟨n, hn, hk, hq⟩
  -- The list has an item already, which is the one that is asked about.
  have hitems : 0 < (t.childrenOfKind q .arrayItem).size :=
    Array.size_pos_of_mem (ht.mem_childrenOfKind hholds)
  rw [isFirstItem, isFirstItem, parentOrSelf_add kind position payload diagnostic h,
    if_neg (Nat.ne_of_lt hlt), hholds.parentOrSelf, childrenOfKind_add ht h]
  split
  · -- The new node goes behind the items, of which there is one already.
    rw [Array.getElem?_push, if_neg (Nat.ne_of_lt hitems)]
  · rfl

/-- An old node stands for the same token as before. -/
theorem placedSpelling?_add_of_lt (ht : t.Linked) (h : parent < t.size) {id : NodeId}
    (hlt : id < t.size) (hid : id ≠ Tree.root) :
    (t.add parent kind position payload diagnostic).placedSpelling? id = t.placedSpelling? id := by
  obtain ⟨n, hn⟩ : ∃ n, t.nodes[id]? = some n := ⟨_, Array.getElem?_eq_getElem hlt⟩
  have hg : t.Grows (t.add parent kind position payload diagnostic) := grows_add h
  obtain ⟨m, hm, hnm⟩ := hg id n hn
  have hspelling : (t.add parent kind position payload diagnostic).spelling? id m =
      t.spelling? id n := by
    rw [spelling?, spelling?, hnm.payload, hnm.kind]
    -- Only the spelling of an item looks at other nodes.
    by_cases hk : n.kind = .arrayItem
    · rw [isFirstItem_add ht h hn hid hk]
    · rw [if_neg hk, if_neg hk]
  rw [placedSpelling?, placedSpelling?, hm, hn, Option.bind_some, Option.bind_some, hspelling,
    hnm.position]

/-- The token that a new node stands for. -/
theorem placedSpelling?_add_size (ht : t.Linked) (h : parent < t.size) :
    (t.add parent kind position payload diagnostic).placedSpelling? t.size =
      Option.map (fun text => (position, text)) (match payload with
        | some text => some text
        | none =>
            if kind = .arrayItem then
              if t.childrenOfKind parent .arrayItem = #[] then none else some ","
            else kind.word?) := by
  have hfirst : (t.add parent .arrayItem position payload diagnostic).isFirstItem t.size =
      decide (t.childrenOfKind parent .arrayItem = #[]) := by
    rw [isFirstItem, parentOrSelf_add _ position payload diagnostic h, if_pos rfl,
      childrenOfKind_add ht h, if_pos ⟨rfl, rfl⟩, decide_eq_decide, Array.getElem?_push]
    constructor
    · intro hsome
      apply Array.eq_empty_of_size_eq_zero
      apply Decidable.byContradiction
      intro hne
      -- The first item would be an old node.
      rw [if_neg (Ne.symm hne)] at hsome
      have hmem := Array.mem_of_getElem? hsome
      rw [childrenOfKind, Array.mem_filter] at hmem
      obtain ⟨n, hn, -⟩ := ht.child hmem.1
      exact absurd (lt_size_of_getElem? hn) (Nat.lt_irrefl _)
    · intro hempty
      rw [if_pos (by rw [hempty]; rfl)]
  rw [placedSpelling?, getElem?_add kind position payload diagnostic h, if_pos rfl,
    Option.bind_some, spelling?]
  cases payload with
  | some text => rfl
  | none =>
      by_cases hk : kind = .arrayItem
      · subst hk
        simp [hfirst]
      · simp [hk]

/-- An append leaves what is recorded, and adds what the new node
stands for. -/
theorem transcript_add (ht : t.Linked) (h : parent < t.size) :
    (t.add parent kind position payload diagnostic).transcript =
      t.transcript ++
        ((t.add parent kind position payload diagnostic).placedSpelling? t.size).toList := by
  have hpos : 0 < t.size := Nat.zero_lt_of_lt h
  have hsize : t.size + 1 - 1 = (t.size - 1) + 1 := by omega
  have hlast : 1 + (t.size - 1) = t.size := by omega
  -- The root is not recorded, so that the new node comes last of `t.size - 1` others.
  have hold : (List.range' 1 (t.size - 1)).filterMap
      (t.add parent kind position payload diagnostic).placedSpelling? = t.transcript := by
    apply List.filterMap_congr
    intro id hid
    rw [List.mem_range'_1, hlast] at hid
    exact placedSpelling?_add_of_lt ht h hid.2 (Nat.ne_of_gt hid.1)
  rw [transcript, size_add, hsize, List.range'_1_concat, hlast, List.filterMap_append, hold]
  cases h : (t.add parent kind position payload diagnostic).placedSpelling? t.size with
  | none => simp [h]
  | some entry => simp [h]

/-- A leaf records its token. -/
theorem transcript_addLeaf (ht : t.Linked) (h : parent < t.size) (kind : NodeKind)
    (token : Token) :
    (t.addLeaf parent kind token).transcript =
      t.transcript ++ [(token.position, token.text)] := by
  rw [addLeaf, transcript_add ht h, placedSpelling?_add_size ht h]
  rfl

/-- An error records the token that is refused. -/
theorem transcript_addFailure (ht : t.Linked) (h : parent < t.size) (token : Token)
    (failure : Failure) :
    (t.addFailure parent token failure).transcript =
      t.transcript ++ [(token.position, token.text)] := by
  rw [addFailure, transcript_add ht h, placedSpelling?_add_size ht h]
  rfl

/-- A container that is no item records the token that its kind stands
for. -/
theorem transcript_addContainer (ht : t.Linked) (h : parent < t.size) (kind : NodeKind)
    (hk : kind ≠ .arrayItem) (token : Token) :
    (t.addContainer parent kind token).transcript =
      t.transcript ++ (kind.word?.map fun text => (token.position, text)).toList := by
  rw [addContainer, transcript_add ht h, placedSpelling?_add_size ht h]
  simp only [if_neg hk]

/-- An item records the comma before it, if it is not the first. -/
theorem transcript_addItem (ht : t.Linked) (h : parent < t.size) (token : Token) :
    (t.addContainer parent .arrayItem token).transcript =
      t.transcript ++
        if t.childrenOfKind parent .arrayItem = #[] then [] else [(token.position, ",")] := by
  rw [addContainer, transcript_add ht h, placedSpelling?_add_size ht h]
  simp only [if_true]
  split <;> rfl

/-- The tree of a unit without declarations records nothing. -/
theorem transcript_ofUnit (kind : UnitKind) (filename : String) :
    (ofUnit kind filename).transcript = [] :=
  rfl

end Add

end Tree

end CDeclarations
