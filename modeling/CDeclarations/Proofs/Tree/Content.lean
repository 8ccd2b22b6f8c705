import CDeclarations.Proofs.Tree.PreOrder
import CDeclarations.Proofs.Specifier.Sequence
import Mathlib.Computability.Language

/-!
# `CDeclarations.Proofs.Tree.Content`: what stands below the nodes of a unit

The tree of a unit without errors has a shape that no function looks
at: the children of each node, read as a list of kinds, are in a
language that depends on the node. `Tree.Conforms` says so of a tree
without comments.

A tree that is still growing conforms but for a few open nodes, whose
children are only the first of those that they will have. `Tree.Fits`
lists the open nodes, the innermost first, with the languages that their
children are in so far:

* `Fits.add_open`: a node is added below the innermost open node, which
  stays open.
* `Fits.add_closing`: a node is added below the innermost open node,
  which needs no further one.
* `Fits.add_closed`: a node is added below a node that is not open.
-/

set_option autoImplicit false

namespace CDeclarations

open Computability

/-! ### The languages of the children -/

namespace Content

/-- One node of the kind. -/
def node (kind : NodeKind) : Language NodeKind :=
  {[kind]}

/-- A part of a specifier sequence. -/
def part : Language NodeKind :=
  {kinds | ∃ kind ∈ partKinds, kinds = [kind]}

/-- The word that opens a composed type. -/
def marker : Language NodeKind :=
  node .union + node .enum + node .struct

/-- A specifier sequence and the name that it declares. -/
def named : Language NodeKind :=
  node .datatype * node .identifier

/-- A declaration. -/
def declaration : Language NodeKind :=
  named * (node .arrayDefinition)∗ * (1 + node .initialization) * node .sentenceEnd

/-- The directives and declarations of a unit. -/
def unit : Language NodeKind :=
  (node .directive + declaration)∗

/-- An initializer, or an item between its braces. -/
def initializer : Language NodeKind :=
  (node .expressionToken + node .arrayData)∗

/-- An array's length behind the opening bracket. -/
def inBrackets : Language NodeKind :=
  node .openBracket * (node .expressionToken)∗

/-- The items of a list behind the opening brace, one at least. -/
def inBraces : Language NodeKind :=
  node .openBrace * node .arrayItem * (node .arrayItem)∗

/-- What may stand below a node of the kind with the payload. There are
no parentheses, parameters, errors and warnings, and no comments. -/
def ofNode (kind : NodeKind) (payload : Option String) : Language NodeKind :=
  match kind with
  | .headerUnit | .sourceUnit => unit
  | .directive => node .includeDirective + node .defineDirective + node .pragmaDirective
  | .includeDirective => node .includeName
  | .defineDirective => node .defineName * node .defineBody
  | .pragmaDirective => node .pragmaText
  | .datatype => part∗
  | .userType => if payload = none then marker * node .identifier else 1
  | .arrayDefinition => inBrackets * node .closeBracket
  | .initialization | .arrayItem => initializer
  | .arrayData => inBraces * node .closeBrace
  | .blockComment | .lineComment | .parameters | .parameterSeparator | .openParen | .closeParen
  | .error | .warning => 0
  | .includeName | .defineName | .defineBody | .pragmaText | .specifier | .qualifier | .modifier
  | .primitiveType | .union | .enum | .struct | .pointer | .openBracket | .closeBracket
  | .openBrace | .closeBrace | .identifier | .expressionToken | .sentenceEnd => 1

/-- The name of a file between angle brackets or double quotes, on one
line. -/
def IsFileName (text : String) : Prop :=
  ∃ name, '\n' ∉ name ∧
    (text.toList = '<' :: (name ++ ['>']) ∨ text.toList = '"' :: (name ++ ['"']))

/-- The payload suits the kind: an identifier is no reserved word, and
the name of an included file is the name of a file. -/
def Spelled (kind : NodeKind) (payload : Option String) : Prop :=
  match kind with
  | .identifier => ∃ word, payload = some word ∧ Keyword.ofWord? word = none
  | .includeName => ∃ text, payload = some text ∧ IsFileName text
  | _ => True

/-! ### One more child -/

section Append

variable {kinds before : List NodeKind} {kind : NodeKind} {L L' : Language NodeKind}

/-- A child of one kind may follow words of a language. -/
theorem append_mem (h : kinds ∈ L) : kinds ++ [kind] ∈ L * node kind :=
  Language.append_mem_mul h rfl

/-- One more repetition may follow any number of them. -/
theorem append_mem_kstar (h : before ∈ L∗) (h' : kinds ∈ L) : before ++ kinds ∈ L∗ := by
  have hle : L∗ * L ≤ L∗ := kstar_mul_le_kstar
  exact hle (Language.append_mem_mul h h')

/-- It may also follow them behind a beginning. -/
theorem append_mem_mul_kstar (h : before ∈ L' * L∗) (h' : kinds ∈ L) :
    before ++ kinds ∈ L' * L∗ := by
  obtain ⟨first, hfirst, rest, hrest, rfl⟩ := Language.mem_mul.1 h
  rw [List.append_assoc]
  exact Language.append_mem_mul hfirst (append_mem_kstar hrest h')

/-- A language is that with nothing further behind it. -/
theorem mem_mul_kstar (h : kinds ∈ L) (L' : Language NodeKind) : kinds ∈ L * L'∗ := by
  rw [← List.append_nil kinds]
  exact Language.append_mem_mul h (Language.nil_mem_kstar L')

/-- A part of a type may follow parts of a type. -/
theorem append_mem_part (h : kinds ∈ part∗) (hk : kind ∈ partKinds) : kinds ++ [kind] ∈ part∗ :=
  append_mem_kstar h ⟨kind, hk, rfl⟩

/-- A directive may follow anything that is complete in a unit. -/
theorem append_mem_unit (h : kinds ∈ unit) : kinds ++ [.directive] ∈ unit :=
  append_mem_kstar h (Or.inl rfl)

/-- An expression token or a list may follow the content of an initializer. -/
theorem append_mem_initializer (h : kinds ∈ initializer)
    (hk : kind = .expressionToken ∨ kind = .arrayData) : kinds ++ [kind] ∈ initializer := by
  refine append_mem_kstar h ?_
  rcases hk with rfl | rfl
  · exact Or.inl rfl
  · exact Or.inr rfl

/-- A unit, the name of a further declaration and its arrays. -/
def unitNamed : Language NodeKind :=
  unit * named * (node .arrayDefinition)∗

/-- The end of a declaration without an initializer, or with one. -/
theorem append_mem_unit_of_named (h : kinds ∈ unitNamed) {init : List NodeKind}
    (hinit : init ∈ 1 + node .initialization) :
    kinds ++ (init ++ [.sentenceEnd]) ∈ unit := by
  rw [unitNamed, mul_assoc] at h
  obtain ⟨before, hbefore, last, hlast, rfl⟩ := Language.mem_mul.1 h
  rw [List.append_assoc]
  refine append_mem_kstar hbefore (Or.inr ?_)
  rw [← List.append_assoc]
  exact append_mem (Language.append_mem_mul hlast hinit)

/-- A semicolon completes a declaration behind its name. -/
theorem append_sentenceEnd_mem_unit (h : kinds ∈ unitNamed) :
    kinds ++ [.sentenceEnd] ∈ unit :=
  append_mem_unit_of_named h (Or.inl Language.nil_mem_one)

/-- A semicolon completes a declaration behind its initializer. -/
theorem append_sentenceEnd_mem_unit_of_initialization
    (h : kinds ∈ unitNamed * node .initialization) : kinds ++ [.sentenceEnd] ∈ unit := by
  obtain ⟨before, hbefore, _, rfl, rfl⟩ := Language.mem_mul.1 h
  rw [List.append_assoc]
  exact append_mem_unit_of_named hbefore (Or.inr rfl)

end Append

end Content

/-! ### The shape of a tree -/

namespace Tree

variable {t : Tree}

/-- The kinds of the children of a node, in their order. -/
def kinds (t : Tree) (id : NodeId) : List NodeKind :=
  (t.children id).toList.filterMap t.kind?

/-- The tree of a unit without errors, its comments taken out: the root
is a unit, the children of each node are such as its kind may have, and
so is its payload. -/
structure Conforms (t : Tree) : Prop extends Linked t where
  unit : ∃ n, t.nodes[Tree.root]? = some n ∧ n.kind.isUnit = true
  content : ∀ {id : NodeId} {n : Node}, t.nodes[id]? = some n →
    t.kinds id ∈ Content.ofNode n.kind n.payload
  spelled : ∀ {id : NodeId} {n : Node}, t.nodes[id]? = some n → Content.Spelled n.kind n.payload

/-- The nodes that are open, the innermost first, with the languages
that their children are in so far. -/
abbrev Drafts :=
  List (NodeId × Language NodeKind)

/-- The children of each node are such as its kind may have, but that
those of the open nodes are in their languages so far. Open nodes stand
before those that are open inside them. -/
structure Fits (t : Tree) (drafts : Drafts) : Prop where
  decreasing : drafts.Pairwise fun inner outer => outer.1 < inner.1
  lt_size : ∀ draft ∈ drafts, draft.1 < t.size
  content : ∀ {id : NodeId} {n : Node}, t.nodes[id]? = some n →
    t.kinds id ∈ (drafts.lookup id).getD (Content.ofNode n.kind n.payload)
  spelled : ∀ {id : NodeId} {n : Node}, t.nodes[id]? = some n → Content.Spelled n.kind n.payload

section Lookup

variable {drafts : Drafts} {id q : NodeId} {L : Language NodeKind}

/-- A node is not drafted by the draft of another one. -/
theorem lookup_cons_of_ne (h : id ≠ q) : ((q, L) :: drafts).lookup id = drafts.lookup id := by
  rw [List.lookup_cons, beq_false_of_ne h]

/-- A node without a draft of its own is not drafted. -/
theorem lookup_eq_none (h : ∀ draft ∈ drafts, draft.1 ≠ id) : drafts.lookup id = none := by
  rw [List.lookup_eq_none_iff]
  intro draft hdraft
  rw [bne_iff_ne]
  exact Ne.symm (h draft hdraft)

/-- A node behind the open ones is not open. -/
theorem Fits.lookup_of_le (h : t.Fits drafts) (hle : t.size ≤ id) : drafts.lookup id = none :=
  lookup_eq_none fun draft hdraft =>
    Nat.ne_of_lt (Nat.lt_of_lt_of_le (h.lt_size draft hdraft) hle)

/-- The innermost open node is open once. -/
theorem Fits.lookup_outer (h : t.Fits ((q, L) :: drafts)) : drafts.lookup q = none :=
  lookup_eq_none fun _ hdraft => Nat.ne_of_lt (List.rel_of_pairwise_cons h.decreasing hdraft)

end Lookup

/-! ### Appending -/

section Add

variable {drafts drafts' : Drafts} {parent q : NodeId} {kind : NodeKind} {position : Position}
  {payload diagnostic : Option String} {L L' : Language NodeKind}

/-- The kinds of the children in a grown tree. -/
theorem kinds_add (ht : t.Linked) (h : parent < t.size) (id : NodeId) :
    (t.add parent kind position payload diagnostic).kinds id =
      if id = parent then t.kinds id ++ [kind] else t.kinds id := by
  have hold : ∀ c ∈ (t.children id).toList,
      (t.add parent kind position payload diagnostic).kind? c = t.kind? c := by
    intro c hc
    rw [kind?_add kind position payload diagnostic h,
      if_neg (Nat.ne_of_lt (ht.lt_size_of_mem_children (Array.mem_toList_iff.1 hc)))]
  have hnew : (t.add parent kind position payload diagnostic).kind? t.size = some kind := by
    rw [kind?_add kind position payload diagnostic h, if_pos rfl]
  rw [kinds, children_add kind position payload diagnostic h]
  split
  · rw [Array.toList_push, List.filterMap_append, List.filterMap_congr hold, kinds]
    simp [hnew]
  · exact List.filterMap_congr hold

/-- A node that is not there has no children. -/
theorem kinds_of_le {id : NodeId} (h : t.size ≤ id) : t.kinds id = [] := by
  rw [kinds, children_of_le h]
  rfl

/-- The nodes that are open in a grown tree are the old ones, but that
the parent may be open no more or the new node may be open, too. -/
theorem Fits.add (ht : t.Linked) (h : t.Fits drafts) (hlt : parent < t.size)
    (hspelled : Content.Spelled kind payload)
    (hdecreasing : drafts'.Pairwise fun inner outer => outer.1 < inner.1)
    (hsize : ∀ draft ∈ drafts', draft.1 < t.size + 1)
    (hother : ∀ id, id < t.size → id ≠ parent → drafts'.lookup id = drafts.lookup id)
    (hparent : ∀ {n : Node}, t.nodes[parent]? = some n →
      t.kinds parent ∈ (drafts.lookup parent).getD (Content.ofNode n.kind n.payload) →
      t.kinds parent ++ [kind] ∈ (drafts'.lookup parent).getD (Content.ofNode n.kind n.payload))
    (hnew : [] ∈ (drafts'.lookup t.size).getD (Content.ofNode kind payload)) :
    (t.add parent kind position payload diagnostic).Fits drafts' where
  decreasing := hdecreasing
  lt_size := by
    rw [size_add]
    exact hsize
  content := by
    intro id m hm
    rw [kinds_add ht hlt]
    rw [getElem?_add kind position payload diagnostic hlt] at hm
    split at hm
    · next hid =>
      cases hm
      rw [hid, if_neg (Nat.ne_of_gt hlt), kinds_of_le (Nat.le_refl _)]
      exact hnew
    · obtain ⟨n, hn, rfl⟩ := Option.map_eq_some_iff.1 hm
      have hcontent := h.content hn
      -- Of the old nodes only the parent has a child more.
      by_cases hid : id = parent
      · subst hid
        rw [if_pos rfl, if_pos rfl]
        exact hparent (n := n) hn hcontent
      · rw [if_neg hid, if_neg (Ne.symm hid), hother id (lt_size_of_getElem? hn) hid]
        exact hcontent
  spelled := by
    intro id m hm
    rw [getElem?_add kind position payload diagnostic hlt] at hm
    split at hm
    · cases hm
      exact hspelled
    · obtain ⟨n, hn, rfl⟩ := Option.map_eq_some_iff.1 hm
      have hold := h.spelled hn
      split <;> exact hold

/-- What a new node adds to the open ones: it may do without children,
or it is open. -/
def Opens (t : Tree) (kind : NodeKind) (payload : Option String) (opened : Drafts) : Prop :=
  (opened = [] ∧ [] ∈ Content.ofNode kind payload) ∨ opened = [(t.size, 1)]

/-- A node that may do without children adds nothing. -/
theorem opens_nil (h : [] ∈ Content.ofNode kind payload) : t.Opens kind payload [] :=
  Or.inl ⟨rfl, h⟩

/-- A node that has no children adds nothing. -/
theorem opens_leaf (kind : NodeKind) (payload : Option String)
    (h : Content.ofNode kind payload = 1) : t.Opens kind payload [] :=
  opens_nil (h ▸ Language.nil_mem_one)

/-- A node is open as long as it has no children. -/
theorem opens_size (kind : NodeKind) (payload : Option String) :
    t.Opens kind payload [(t.size, 1)] :=
  Or.inr rfl

/-- What a new node opens is no draft of an old node. -/
theorem Opens.lookup_of_lt {opened : Drafts} (h : t.Opens kind payload opened) {id : NodeId}
    (hlt : id < t.size) : (opened ++ drafts).lookup id = drafts.lookup id := by
  rcases h with ⟨rfl, -⟩ | rfl
  · rfl
  · exact lookup_cons_of_ne (Nat.ne_of_lt hlt)

/-- The draft of a new node stands in front of the older ones. -/
theorem Opens.decreasing {opened : Drafts} (h : t.Opens kind payload opened)
    (hdrafts : drafts.Pairwise fun inner outer => outer.1 < inner.1)
    (hsize : ∀ draft ∈ drafts, draft.1 < t.size) :
    (opened ++ drafts).Pairwise fun inner outer => outer.1 < inner.1 := by
  rcases h with ⟨rfl, -⟩ | rfl
  · exact hdrafts
  · exact List.pairwise_cons.2 ⟨hsize, hdrafts⟩

/-- The draft of a new node is that of the last one. -/
theorem Opens.lt_size {opened : Drafts} (h : t.Opens kind payload opened)
    (hsize : ∀ draft ∈ drafts, draft.1 < t.size) :
    ∀ draft ∈ opened ++ drafts, draft.1 < t.size + 1 := by
  intro draft hdraft
  rcases List.mem_append.1 hdraft with hdraft | hdraft
  · rcases h with ⟨rfl, -⟩ | rfl
    · cases hdraft
    · rw [List.mem_singleton.1 hdraft]
      exact Nat.lt_succ_self _
  · exact Nat.lt_succ_of_lt (hsize draft hdraft)

/-- A new node may have no children yet. -/
theorem Opens.nil_mem {opened : Drafts} (h : t.Opens kind payload opened)
    (hdrafts : drafts.lookup t.size = none) :
    [] ∈ ((opened ++ drafts).lookup t.size).getD (Content.ofNode kind payload) := by
  rcases h with ⟨rfl, hnil⟩ | rfl
  · rw [List.nil_append, hdrafts]
    exact hnil
  · rw [List.singleton_append, List.lookup_cons_self]
    exact Language.nil_mem_one

/-- A node is added below the innermost open node, which stays open. -/
theorem Fits.add_open (ht : t.Linked) (h : t.Fits ((q, L) :: drafts)) {opened : Drafts}
    (hopened : t.Opens kind payload opened) (hmem : ∀ kinds ∈ L, kinds ++ [kind] ∈ L')
    (hspelled : Content.Spelled kind payload) :
    (t.add q kind position payload diagnostic).Fits (opened ++ (q, L') :: drafts) := by
  have hq : q < t.size := h.lt_size (q, L) List.mem_cons_self
  have hsize : ∀ draft ∈ (q, L') :: drafts, draft.1 < t.size := by
    intro draft hdraft
    rcases List.mem_cons.1 hdraft with rfl | hdraft
    · exact hq
    · exact h.lt_size draft (List.mem_cons_of_mem _ hdraft)
  have hdecreasing : ((q, L') :: drafts).Pairwise fun inner outer => outer.1 < inner.1 :=
    List.pairwise_cons.2 (List.pairwise_cons.1 h.decreasing)
  -- The parent stays drafted, by the language behind its new child.
  refine h.add ht hq hspelled (hopened.decreasing hdecreasing hsize) (hopened.lt_size hsize)
    ?_ ?_ ?_
  · intro id hid hne
    rw [hopened.lookup_of_lt hid, lookup_cons_of_ne hne, lookup_cons_of_ne hne]
  · intro n _ hkinds
    rw [hopened.lookup_of_lt hq, List.lookup_cons_self]
    rw [List.lookup_cons_self] at hkinds
    exact hmem _ hkinds
  · refine hopened.nil_mem ?_
    rw [lookup_cons_of_ne (Nat.ne_of_gt hq), ← lookup_cons_of_ne (L := L) (Nat.ne_of_gt hq)]
    exact h.lookup_of_le (Nat.le_refl _)

/-- A node is added below the innermost open node, which needs no
further one. -/
theorem Fits.add_closing (ht : t.Linked) (h : t.Fits ((q, L) :: drafts)) {opened : Drafts}
    (hopened : t.Opens kind payload opened) {n : Node} (hn : t.nodes[q]? = some n)
    (hmem : ∀ kinds ∈ L, kinds ++ [kind] ∈ Content.ofNode n.kind n.payload)
    (hspelled : Content.Spelled kind payload) :
    (t.add q kind position payload diagnostic).Fits (opened ++ drafts) := by
  have hq : q < t.size := h.lt_size (q, L) List.mem_cons_self
  have hsize : ∀ draft ∈ drafts, draft.1 < t.size :=
    fun draft hdraft => h.lt_size draft (List.mem_cons_of_mem _ hdraft)
  have hdecreasing := (List.pairwise_cons.1 h.decreasing).2
  -- The parent is complete with its new child, so its draft is dropped.
  refine h.add ht hq hspelled (hopened.decreasing hdecreasing hsize) (hopened.lt_size hsize)
    ?_ ?_ ?_
  · intro id hid hne
    rw [hopened.lookup_of_lt hid, lookup_cons_of_ne hne]
  · intro m hm hkinds
    obtain rfl : n = m := Option.some.inj (hn.symm.trans hm)
    rw [hopened.lookup_of_lt hq, h.lookup_outer]
    rw [List.lookup_cons_self] at hkinds
    exact hmem _ hkinds
  · refine hopened.nil_mem ?_
    rw [← lookup_cons_of_ne (L := L) (Nat.ne_of_gt hq)]
    exact h.lookup_of_le (Nat.le_refl _)

/-- A node is added below a node that is not open. -/
theorem Fits.add_closed (ht : t.Linked) (h : t.Fits drafts) {opened : Drafts}
    (hopened : t.Opens kind payload opened) {n : Node} (hn : t.nodes[q]? = some n)
    (hq : drafts.lookup q = none)
    (hmem : ∀ kinds ∈ Content.ofNode n.kind n.payload,
      kinds ++ [kind] ∈ Content.ofNode n.kind n.payload)
    (hspelled : Content.Spelled kind payload) :
    (t.add q kind position payload diagnostic).Fits (opened ++ drafts) := by
  have hlt : q < t.size := lt_size_of_getElem? hn
  -- The parent has no draft, and stays complete with its new child.
  refine h.add ht hlt hspelled (hopened.decreasing h.decreasing h.lt_size)
    (hopened.lt_size h.lt_size) ?_ ?_ ?_
  · exact fun id hid _ => hopened.lookup_of_lt hid
  · intro m hm hkinds
    obtain rfl : n = m := Option.some.inj (hn.symm.trans hm)
    rw [hopened.lookup_of_lt hlt, hq]
    rw [hq] at hkinds
    exact hmem _ hkinds
  · exact hopened.nil_mem (h.lookup_of_le (Nat.le_refl _))

end Add

end Tree

end CDeclarations
