import CDeclarations.Proofs.Tree.Transcript

/-!
# `CDeclarations.Proofs.Tree.Braces`: the lists between braces that are open

An initializer may hold lists between braces, and their items may hold further
ones. A list is open until the node of its closing brace stands in it. Which
lists are open can be told from the nodes alone, and so can the lists around an
item.

* `Tree.climb`: the way up from a node to the initializer that it stands in.
* `Tree.Unclosed`: the list has no closing brace yet. `unclosed_add_iff` says
  what an append changes, and `unclosed_add_other` that most change nothing.
* `Tree.Between`: the lists around an item, innermost first. They are those on
  the way up (`Between.mem_climb`), one for each item there
  (`Between.itemsAbove_eq`), and each stands before those inside it
  (`Between.lt_head`).
* `Tree.Nested`: the lists around a node are the open ones. An opening brace
  puts a list in front of them (`Nested.addBracket`), a closing one takes the
  first away (`Nested.close`), and a comma leaves them (`Nested.next`).
-/

set_option autoImplicit false

namespace CDeclarations

/-- The kind of a node that opens a list between braces or closes it. -/
def NodeKind.isBrace : NodeKind → Bool
  | .arrayData | .closeBrace => true
  | _ => false

namespace Tree

/-- The nodes on the way up from `id` to the first one of the kind, both of them
counted in. A parent stands before its children. -/
def climb (t : Tree) (kind : NodeKind) (id : NodeId) : List NodeId :=
  match t.nodes[id]? with
  | none => []
  | some n =>
      if n.kind = kind then [id]
      else
        match n.parent with
        | none => [id]
        | some parent => if parent < id then id :: t.climb kind parent else [id]
termination_by id

/-- The number of items on the way up from a node to its initializer. -/
def itemsAbove (t : Tree) (id : NodeId) : Nat :=
  (t.climb .initialization id).countP fun a => t.kind? a = some .arrayItem

/-- The node is a list between braces that has no closing brace yet. -/
def Unclosed (t : Tree) (id : NodeId) : Prop :=
  t.kind? id = some .arrayData ∧ t.childrenOfKind id .closeBrace = #[]

/-- The first child of the node is an opening brace. -/
def Opened (t : Tree) (id : NodeId) : Prop :=
  ∃ brace rest, (t.children id).toList = brace :: rest ∧ t.kind? brace = some .openBrace

variable {t u : Tree} {id data outer parent : NodeId} {kind : NodeKind} {position : Position}
  {payload diagnostic : Option String}

/-! ### The way up -/

/-- A climb that begins at its top ends there. -/
theorem climb_of_kind? (h : t.kind? id = some kind) : t.climb kind id = [id] := by
  obtain ⟨n, hn, rfl⟩ := Option.map_eq_some_iff.1 h
  rw [climb, hn]
  exact if_pos rfl

/-- A climb goes on with the parent where the node is not its top. -/
theorem Holds.climb_of_ne (h : t.Holds id kind parent) (ht : t.Linked) (top : NodeKind)
    (hne : kind ≠ top) : t.climb top id = id :: t.climb top parent := by
  have hlt := h.parent_lt ht
  obtain ⟨n, hn, rfl, hparent⟩ := h
  rw [climb, hn]
  simp only [if_neg hne, hparent, if_pos hlt]

/-! ### Open lists -/

/-- A node with a kind is a node of the tree. -/
theorem lt_size_of_kind? (h : t.kind? id = some kind) : id < t.size := by
  obtain ⟨n, hn, -⟩ := Option.map_eq_some_iff.1 h
  exact lt_size_of_getElem? hn

/-- A list that is open is a node of the tree. -/
theorem Unclosed.lt_size (h : t.Unclosed id) : id < t.size :=
  lt_size_of_kind? h.1

/-- A list opens when its node is added, and closes when a closing brace is added
to it. -/
theorem unclosed_add_iff (ht : t.Linked) (hlt : parent < t.size) (id : NodeId) :
    (t.add parent kind position payload diagnostic).Unclosed id ↔
      (id = t.size ∧ kind = .arrayData) ∨
        (t.Unclosed id ∧ ¬(id = parent ∧ kind = .closeBrace)) := by
  rw [Unclosed, kind?_add kind position payload diagnostic hlt, childrenOfKind_add ht hlt]
  by_cases hnew : id = t.size
  · -- The node is new, and has no child yet.
    have hne : ¬(id = parent ∧ kind = .closeBrace) := fun h => Nat.ne_of_gt hlt (hnew ▸ h.1)
    have hold : ¬t.Unclosed t.size := fun h => Nat.lt_irrefl _ h.lt_size
    have hnone : t.childrenOfKind id .closeBrace = #[] := by
      rw [childrenOfKind, children_of_le (Nat.le_of_eq hnew.symm), Array.filter_empty]
    rw [if_pos hnew, if_neg hne, hnone]
    simp [hnew, hold]
  · rw [if_neg hnew]
    -- An old list is closed by a brace below it, and by nothing else.
    by_cases hclose : id = parent ∧ kind = .closeBrace
    · rw [if_pos hclose]
      simp [hclose]
    · rw [if_neg hclose]
      simp [hclose, hnew, Unclosed]

/-- A node that is neither a list nor a closing brace leaves all lists as they
are. -/
theorem unclosed_add_other (ht : t.Linked) (hlt : parent < t.size) (hkind : kind.isBrace = false)
    (id : NodeId) :
    (t.add parent kind position payload diagnostic).Unclosed id ↔ t.Unclosed id := by
  have hdata : kind ≠ .arrayData := by rintro rfl; cases hkind
  have hclose : kind ≠ .closeBrace := by rintro rfl; cases hkind
  rw [unclosed_add_iff ht hlt]
  simp [hdata, hclose]

/-- A tree that grows adds children behind those that were there. -/
theorem Grows.children_prefix (hg : t.Grows u) (id : NodeId) :
    (t.children id).toList <+: (u.children id).toList := by
  cases hn : t.nodes[id]? with
  | none =>
      rw [children, hn]
      exact List.nil_prefix
  | some n =>
      obtain ⟨m, hm, hnm⟩ := hg id n hn
      rw [children, children, hn, hm]
      exact hnm.children

/-- A list that has its opening brace keeps it as its first child. -/
theorem Opened.mono (h : t.Opened id) (hg : t.Grows u) : u.Opened id := by
  obtain ⟨brace, rest, hchildren, hkind⟩ := h
  obtain ⟨more, hmore⟩ := hg.children_prefix id
  obtain ⟨n, hn, hopen⟩ := Option.map_eq_some_iff.1 hkind
  obtain ⟨m, hm, hnm⟩ := hg brace n hn
  refine ⟨brace, rest ++ more, ?_, ?_⟩
  · rw [← hmore, hchildren, List.cons_append]
  · rw [kind?, hm, Option.map_some, hnm.kind, hopen]

/-- A list and its opening brace are added together. -/
theorem opened_addBracket (hlt : parent < t.size) (inner : NodeKind) (token : Token) :
    (((t.addContainer parent .arrayData token).addLeaf t.size .openBrace token).addContainer
      t.size inner token).Opened t.size := by
  have hnew := holds_addContainer hlt .arrayData token
  have hbrace : ((t.addContainer parent .arrayData token).addLeaf t.size .openBrace token).Opened
      t.size := by
    refine ⟨t.size + 1, [], ?_, ?_⟩
    · rw [addLeaf, children_add _ _ _ _ hnew.lt_size, if_pos rfl, addContainer,
        children_add _ _ _ _ hlt, if_neg (Nat.ne_of_gt hlt), children_of_le (Nat.le_refl _),
        size_add]
      rfl
    · rw [addLeaf, kind?_add _ _ _ _ hnew.lt_size, if_pos (by rw [size_addContainer])]
  have hnew' := hnew.mono (grows_addLeaf hnew.lt_size .openBrace token)
  exact hbrace.mono (grows_addContainer hnew'.lt_size inner token)

/-! ### The lists around an item -/

/-- The lists between braces around a node of an initializer, innermost first:
none around the initializer itself, and one more around each item. -/
inductive Between (t : Tree) : List NodeId → NodeId → Prop
  | top {id : NodeId} (h : t.Holds id .initialization root) : Between t [] id
  | item {lists : List NodeId} {id data outer : NodeId} (h : t.Holds id .arrayItem data)
      (hdata : t.Holds data .arrayData outer) (hopened : t.Opened data)
      (houter : Between t lists outer) : Between t (data :: lists) id

namespace Between

variable {lists : List NodeId}

/-- A tree that grows keeps the lists between a place and its initializer. -/
theorem mono (h : t.Between lists id) (hg : t.Grows u) : u.Between lists id := by
  induction h with
  | top hid => exact .top (hid.mono hg)
  | item hid hdata hopened _ ih => exact .item (hid.mono hg) (hdata.mono hg) (hopened.mono hg) ih

/-- The lists around a node stand before it. -/
theorem lt (h : t.Between lists id) (ht : t.Linked) : ∀ list ∈ lists, list < id := by
  induction h with
  | top _ => exact nofun
  | @item lists id data outer hid hdata _ _ ih =>
      intro list hlist
      have hinner : data < id := hid.parent_lt ht
      rcases List.mem_cons.1 hlist with rfl | hlist
      · exact hinner
      · exact Nat.lt_trans (Nat.lt_trans (ih list hlist) (hdata.parent_lt ht)) hinner

/-- The outer lists stand before the innermost one. -/
theorem lt_head (h : t.Between (data :: lists) id) (ht : t.Linked) :
    ∀ list ∈ lists, list < data := by
  cases h with
  | item _ hdata _ houter =>
      intro list hlist
      exact Nat.lt_trans (houter.lt ht list hlist) (hdata.parent_lt ht)

/-- The lists around a node are those on the way up to the initializer. -/
theorem mem_climb (h : t.Between lists id) (ht : t.Linked) (list : NodeId) :
    list ∈ lists ↔ list ∈ t.climb .initialization id ∧ t.kind? list = some .arrayData := by
  induction h with
  | top hid =>
      rw [climb_of_kind? hid.kind?]
      refine iff_of_false nofun ?_
      rintro ⟨hmem, hkind⟩
      rw [List.mem_singleton.1 hmem, hid.kind?] at hkind
      cases hkind
  | @item lists id data outer hid hdata _ _ ih =>
      -- The way leads from the item to its list and on to what the list stands in.
      rw [hid.climb_of_ne ht .initialization (by decide),
        hdata.climb_of_ne ht .initialization (by decide), List.mem_cons, List.mem_cons,
        List.mem_cons, ih]
      constructor
      · rintro (rfl | ⟨hmem, hkind⟩)
        · exact ⟨Or.inr (Or.inl rfl), hdata.kind?⟩
        · exact ⟨Or.inr (Or.inr hmem), hkind⟩
      · rintro ⟨rfl | rfl | hmem, hkind⟩
        · rw [hid.kind?] at hkind
          cases hkind
        · exact Or.inl rfl
        · exact Or.inr ⟨hmem, hkind⟩

/-- There is one item on the way up for each list. -/
theorem itemsAbove_eq (h : t.Between lists id) (ht : t.Linked) :
    t.itemsAbove id = lists.length := by
  induction h with
  | top hid =>
      rw [itemsAbove, climb_of_kind? hid.kind?]
      simp [hid.kind?]
  | item hid hdata _ _ ih =>
      rw [itemsAbove, hid.climb_of_ne ht .initialization (by decide),
        hdata.climb_of_ne ht .initialization (by decide)]
      simp only [List.countP_cons, hid.kind?, hdata.kind?]
      rw [itemsAbove] at ih
      simp [ih]

/-- The node is the initializer exactly where no list is around it. -/
theorem kind?_eq_iff (h : t.Between lists id) :
    t.kind? id = some .initialization ↔ lists = [] := by
  cases h with
  | top hid => simp [hid.kind?]
  | item hid _ _ _ => simp [hid.kind?]

/-- The place is an item exactly when a list is around it. -/
theorem kind?_eq_arrayItem_iff (h : t.Between lists id) :
    t.kind? id = some .arrayItem ↔ lists ≠ [] := by
  cases h with
  | top hid => simp [hid.kind?]
  | item hid _ _ _ => simp [hid.kind?]

/-- A node that lists stand around may get children. -/
theorem stem (h : t.Between lists id) : t.Stem id := by
  cases h with
  | top hid => exact hid.stem rfl
  | item hid _ _ _ => exact hid.stem rfl

end Between

/-! ### The lists that are open -/

/-- No list is open in the tree. -/
def AllClosed (t : Tree) : Prop :=
  ∀ id, ¬t.Unclosed id

/-- The lists around the node are those that are open in the tree. -/
structure Nested (t : Tree) (lists : List NodeId) (id : NodeId) : Prop where
  between : t.Between lists id
  unclosed : ∀ list, t.Unclosed list ↔ list ∈ lists

/-- The list is open, and every other one that is was opened before it. -/
structure Innermost (t : Tree) (data : NodeId) : Prop where
  unclosed : t.Unclosed data
  last : ∀ list, t.Unclosed list → list ≤ data

/-- Closed lists stay closed when no brace is added. -/
theorem AllClosed.add (h : t.AllClosed) (ht : t.Linked) (hlt : parent < t.size)
    (hkind : kind.isBrace = false) :
    (t.add parent kind position payload diagnostic).AllClosed :=
  fun id hopen => h id ((unclosed_add_other ht hlt hkind id).1 hopen)

/-- A bracket that is no brace touches no list. -/
theorem AllClosed.addBracket (h : t.AllClosed) (ht : t.Regular) (hstem : t.Stem parent)
    {outer bracket inner : NodeKind} (houter : outer.isBrace = false)
    (hbracket : bracket.isBrace = false) (hinner : inner.isBrace = false)
    (hcomment : outer.isComment = false) (token : Token) :
    (((t.addContainer parent outer token).addLeaf t.size bracket token).addContainer t.size inner
      token).AllClosed := by
  have hnew := holds_addContainer hstem.lt_size outer token
  have hnew' := hnew.mono (grows_addLeaf hnew.lt_size bracket token)
  have hreg : (t.addContainer parent outer token).Regular := ht.add hstem
  have hreg' : ((t.addContainer parent outer token).addLeaf t.size bracket token).Regular :=
    hreg.add (hnew.stem hcomment)
  -- Three nodes are added, and none of them is a brace.
  have hfirst : (t.addContainer parent outer token).AllClosed :=
    h.add ht.toLinked hstem.lt_size houter
  have hsecond : ((t.addContainer parent outer token).addLeaf t.size bracket token).AllClosed :=
    hfirst.add hreg.toLinked hnew.lt_size hbracket
  exact hsecond.add hreg'.toLinked hnew'.lt_size hinner

/-- An initializer begins without lists. -/
theorem AllClosed.nested (h : t.AllClosed) (hid : t.Holds id .initialization root) :
    t.Nested [] id where
  between := .top hid
  unclosed list := iff_of_false (h list) nofun

namespace Nested

variable {lists : List NodeId} {token : Token}

/-- All lists are closed exactly when none is around the place. -/
theorem allClosed_iff (h : t.Nested lists id) : t.AllClosed ↔ lists = [] := by
  rw [List.eq_nil_iff_forall_not_mem]
  exact forall_congr' fun list => not_congr (h.unclosed list)

/-- The first list around the place is the last one that is open. -/
theorem innermost (h : t.Nested (data :: lists) id) (ht : t.Linked) : t.Innermost data where
  unclosed := (h.unclosed data).2 List.mem_cons_self
  last list hopen := by
    rcases List.mem_cons.1 ((h.unclosed list).1 hopen) with rfl | hlist
    · exact Nat.le_refl _
    · exact Nat.le_of_lt (h.between.lt_head ht list hlist)

/-- A node that is no brace leaves the lists around the place as they are. -/
theorem add (h : t.Nested lists id) (ht : t.Linked) (hlt : parent < t.size)
    (hkind : kind.isBrace = false) :
    (t.add parent kind position payload diagnostic).Nested lists id where
  between := h.between.mono (grows_add hlt)
  unclosed list := (unclosed_add_other ht hlt hkind list).trans (h.unclosed list)

/-- An opening brace opens one more list around what comes next. -/
theorem addBracket (h : t.Nested lists id) (ht : t.Regular) (token : Token) :
    (((t.addContainer id .arrayData token).addLeaf t.size .openBrace token).addContainer t.size
      .arrayItem token).Nested (t.size :: lists) (t.size + 2) := by
  have hstem := h.between.stem
  have hlt := hstem.lt_size
  have hnew := holds_addContainer hlt .arrayData token
  have hnew' := hnew.mono (grows_addLeaf hnew.lt_size .openBrace token)
  have hfirst : (t.addContainer id .arrayData token).Regular := ht.add hstem
  have hsecond : ((t.addContainer id .arrayData token).addLeaf t.size .openBrace token).Regular :=
    hfirst.add (hnew.stem rfl)
  obtain ⟨-, hgrows, hdata, hitem⟩ := ht.addBracket hstem .arrayData rfl .openBrace .arrayItem token
  refine ⟨.item hitem hdata (opened_addBracket hlt .arrayItem token) (h.between.mono hgrows), ?_⟩
  intro list
  -- Of the three nodes only the first is a list, and none of them closes one.
  rw [addContainer, unclosed_add_other hsecond.toLinked hnew'.lt_size rfl, addLeaf,
    unclosed_add_other hfirst.toLinked hnew.lt_size rfl, addContainer,
    unclosed_add_iff ht.toLinked hlt, h.unclosed, List.mem_cons]
  simp

/-- A closing brace closes the innermost list, and those around it stay. -/
theorem close (h : t.Nested (data :: lists) id) (ht : t.Linked) (token : Token) :
    t.Holds id .arrayItem data ∧ ∃ outer, t.Holds data .arrayData outer ∧
      (t.addLeaf data .closeBrace token).Nested lists outer := by
  cases h.between with
  | @item _ _ _ outer hitem hdata _ houter =>
      have hlt := hdata.lt_size
      refine ⟨hitem, outer, hdata, houter.mono (grows_addLeaf hlt .closeBrace token), ?_⟩
      intro list
      rw [addLeaf, unclosed_add_iff ht hlt, h.unclosed, List.mem_cons]
      constructor
      · rintro (⟨-, hkind⟩ | ⟨rfl | hlist, hne⟩)
        · cases hkind
        · exact absurd ⟨rfl, rfl⟩ hne
        · exact hlist
      · intro hlist
        -- The outer lists are older than the one that is closed.
        have hbefore := h.between.lt_head ht list hlist
        exact Or.inr ⟨Or.inr hlist, fun heq => absurd heq.1 (Nat.ne_of_lt hbefore)⟩

/-- A comma leaves the lists as they are and goes on to the next item. -/
theorem next (h : t.Nested (data :: lists) id) (ht : t.Linked) (token : Token) :
    t.Holds id .arrayItem data ∧ data < t.size ∧
      (t.addContainer data .arrayItem token).Nested (data :: lists) t.size := by
  cases h.between with
  | item hitem hdata hopened houter =>
      have hlt := hdata.lt_size
      have hgrows := grows_addContainer hlt .arrayItem token
      refine ⟨hitem, hlt, .item (holds_addContainer hlt .arrayItem token) (hdata.mono hgrows)
        (hopened.mono hgrows) (houter.mono hgrows), ?_⟩
      intro list
      exact (unclosed_add_other ht hlt rfl list).trans (h.unclosed list)

/-- The innermost list begins with its opening brace. -/
theorem opened (h : t.Nested (data :: lists) id) : t.Opened data := by
  cases h.between with
  | item _ _ hopened _ => exact hopened

end Nested

end Tree

end CDeclarations
