import CDeclarations.Proofs.Parser.Tagging
import CDeclarations.Proofs.Tree.PreOrder

/-!
# `CDeclarations.Proofs.Tree.ReadingOrder`: nodes that pre-order turns round

Nodes are numbered in the order in which they come. Pre-order lists
them in this order, too, as long as each comes at the right edge of the
tree, under a node of its spine. One kind of node does not: a tag goes
below the composed type that awaits it, and comments may stand behind
that type already.

* `LeftOf`: one node hangs further left than another one. In pre-order a
  node is followed by those below it and by those right of it
  (`Ordered.pairwise_walkIds`).
* `TagBefore`: a tag and a comment that came before it, behind its type.
* `Straight`: only such a tag is left of a node that came earlier. It is
  kept by an append under the spine (`Straight.add`), and by that of a
  tag (`Straight.addTag`).
-/

set_option autoImplicit false

namespace CDeclarations.Tree

variable {t u : Tree}

/-- The nodes are two children of one node or hang below them, `id`
below the child that came first. -/
def LeftOf (t : Tree) (id id' : NodeId) : Prop :=
  ∃ q c c', c ∈ t.children q ∧ c' ∈ t.children q ∧ c < c' ∧ t.Below c id ∧ t.Below c' id'

/-! ### Pre-order -/

/-- The walk from a row meets the nodes below a node, and those that
hang right of it, behind that node. -/
theorem Ordered.pairwise_walkIds (ht : t.Ordered) (row : Row) :
    (t.walkIds row).Pairwise fun id id' => t.Below id id' ∨ t.LeftOf id id' := by
  have hlinked := ht.toLinked
  induction row using hlinked.row_induction with
  | step row ih =>
      rw [hlinked.walkIds_eq, List.pairwise_cons, List.pairwise_flatMap]
      refine ⟨?_, ih, ?_⟩
      -- A row comes before what is below it.
      · intro id hid
        obtain ⟨below, hbelow, hid⟩ := List.mem_flatMap.1 hid
        obtain ⟨c, hc, rfl⟩ := mem_rowsBelow.1 hbelow
        exact Or.inl ((Below.self.child hc).trans (hlinked.mem_walkIds_iff.1 hid))
      -- What is below two children is left and right of one another, as the children
      -- are.
      · rw [rowsBelow, List.pairwise_map]
        refine List.Pairwise.imp_of_mem ?_ (ht.increasing row.id)
        intro c c' hc hc' hlt id hid id' hid'
        exact Or.inr ⟨row.id, c, c', Array.mem_toList_iff.1 hc, Array.mem_toList_iff.1 hc', hlt,
          hlinked.mem_walkIds_iff.1 hid, hlinked.mem_walkIds_iff.1 hid'⟩

/-! ### Tags and comments -/

/-- The tag of a composed type, and a comment that came before it and
stands behind the type in its datatype. -/
def TagBefore (t : Tree) (tag comment : NodeId) : Prop :=
  ∃ type datatype kind, t.Holds type .userType datatype ∧ t.Holds tag .identifier type ∧
    t.Holds comment kind datatype ∧ kind.isComment = true ∧ type < comment ∧ comment < tag

/-- A tag before a comment is there in every later tree. -/
theorem TagBefore.mono {tag comment : NodeId} (h : t.TagBefore tag comment) (hg : t.Grows u) :
    u.TagBefore tag comment := by
  obtain ⟨type, datatype, kind, htype, htag, hcomment, hk, hlt, hlt'⟩ := h
  exact ⟨type, datatype, kind, htype.mono hg, htag.mono hg, hcomment.mono hg, hk, hlt, hlt'⟩

/-- A node that is left of another one came first, unless it is a tag
and the other one a comment behind its type. -/
def Straight (t : Tree) : Prop :=
  ∀ id id', t.LeftOf id id' → id < id' ∨ t.TagBefore id id'

/-! ### What an append changes -/

section Add

variable {parent : NodeId} {kind : NodeKind} {position : Position}
  {payload diagnostic : Option String} {top id : NodeId}

/-- An append puts no old node below another one. -/
theorem below_add_of_lt (h : parent < t.size) (hlt : id < t.size)
    (hbelow : (t.add parent kind position payload diagnostic).Below top id) : t.Below top id := by
  induction hbelow with
  | self => exact .self
  | @child q id _ hc ih =>
      rcases (mem_children_add kind position payload diagnostic h).1 hc with hc | ⟨-, rfl⟩
      · exact (ih (lt_size_of_mem_children hc)).child hc
      · exact absurd hlt (Nat.lt_irrefl _)

/-- The new node lies below what its parent lies below. -/
theorem below_add_size (ht : t.Linked) (h : parent < t.size) (hlt : top < t.size)
    (hbelow : (t.add parent kind position payload diagnostic).Below top t.size) :
    t.Below top parent := by
  cases hbelow with
  | self => exact absurd hlt (Nat.lt_irrefl _)
  | @child q _ hq hc =>
      rcases (mem_children_add kind position payload diagnostic h).1 hc with hc | ⟨rfl, -⟩
      · exact absurd (ht.lt_size_of_mem_children hc) (Nat.lt_irrefl _)
      · exact below_add_of_lt h h hq

/-- What is below a node is in the tree. -/
theorem Linked.lt_size_of_below (ht : t.Linked) {q : NodeId} (hc : top ∈ t.children q)
    (h : t.Below top id) : id < t.size := by
  cases h with
  | self => exact ht.lt_size_of_mem_children hc
  | child _ h => exact ht.lt_size_of_mem_children h

/-- What is above a node of the spine lies on it. -/
theorem Spine.of_below (ht : t.Linked) (h : t.Spine id) (hbelow : t.Below top id) :
    t.Spine top := by
  induction hbelow with
  | self => exact h
  | @child q id _ hc ih =>
      apply ih
      cases h with
      | root => exact absurd (ht.lt_of_mem_children hc) (Nat.not_lt_zero _)
      | last hq hlast => rwa [ht.eq_of_mem_children hc (Array.mem_of_back? hlast)]

/-- A child on the spine is the last one. -/
theorem Spine.not_lt (ht : t.Ordered) (h : t.Spine id) {q c : NodeId} (hid : id ∈ t.children q)
    (hc : c ∈ t.children q) : ¬id < c := by
  cases h with
  | root => exact absurd (ht.toLinked.lt_of_mem_children hid) (Nat.not_lt_zero _)
  | @last q' _ hq hlast =>
      obtain rfl := ht.toLinked.eq_of_mem_children hid (Array.mem_of_back? hlast)
      obtain ⟨init, hinit⟩ : ∃ init : Array NodeId, t.children q = init.push id :=
        Array.back?_eq_some_iff.1 hlast
      have hincreasing := ht.increasing q
      rw [hinit, Array.toList_push, List.pairwise_append] at hincreasing
      rw [hinit, Array.mem_push] at hc
      -- The last child is the largest of them.
      rcases hc with hc | rfl
      · exact Nat.not_lt.2 (Nat.le_of_lt (hincreasing.2.2 c (Array.mem_toList_iff.2 hc) id
          (List.mem_singleton_self id)))
      · exact Nat.lt_irrefl _

/-- A new node turns pre-order round at most where it is left of an old
one: where the branch that its parent lies in has a branch behind it. -/
theorem Straight.add_of_left (ht : t.Linked) (h : t.Straight) (hlt : parent < t.size)
    (hleft : ∀ q c c' id', c ∈ t.children q → c' ∈ t.children q → c < c' → t.Below c parent →
      t.Below c' id' →
      (t.add parent kind position payload diagnostic).TagBefore t.size id') :
    (t.add parent kind position payload diagnostic).Straight := by
  have hnew : (t.add parent kind position payload diagnostic).Linked := ht.add hlt
  intro id id' hid
  obtain ⟨q, c, c', hc, hc', hcc, hbelow, hbelow'⟩ := hid
  rcases Nat.lt_or_ge id id' with hid | hge
  · exact Or.inl hid
  right
  have hne : id' ≠ id := by
    rintro rfl
    exact Nat.ne_of_lt hcc (Below.eq_of_siblings hnew hc hc' hbelow hbelow')
  have hid : id ≤ t.size := by
    have hlast := hnew.lt_size_of_below hc hbelow
    rw [size_add] at hlast
    exact Nat.le_of_lt_succ hlast
  have hid' : id' < t.size := Nat.lt_of_lt_of_le (Nat.lt_of_le_of_ne hge hne) hid
  have hc'size : c' < t.size := Nat.lt_of_le_of_lt (hbelow'.le hnew) hid'
  have hcsize := Nat.lt_trans hcc hc'size
  -- All but the first node are old ones, and hang where they hung before.
  have hold : ∀ {c}, c ∈ (t.add parent kind position payload diagnostic).children q →
      c < t.size → c ∈ t.children q := by
    intro c hc hcsize
    rcases (mem_children_add kind position payload diagnostic hlt).1 hc with hc | ⟨-, rfl⟩
    · exact hc
    · exact absurd hcsize (Nat.lt_irrefl _)
  have hleft' := hleft q c c' id' (hold hc hcsize) (hold hc' hc'size) hcc
  rcases Nat.lt_or_eq_of_le hid with hidsize | rfl
  · have hstraight := h id id' ⟨q, c, c', hold hc hcsize, hold hc' hc'size, hcc,
      below_add_of_lt hlt hidsize hbelow, below_add_of_lt hlt hid' hbelow'⟩
    rcases hstraight with hid | htag
    · exact absurd hid (Nat.not_lt.2 hge)
    · exact htag.mono (grows_add hlt)
  · exact hleft' (below_add_size ht hlt hcsize hbelow) (below_add_of_lt hlt hid' hbelow')

/-- An append under the spine: no branch is behind the one that the new
node is in. -/
theorem Straight.add (ht : t.Ordered) (h : t.Straight) (hparent : t.Spine parent) :
    (t.add parent kind position payload diagnostic).Straight := by
  refine h.add_of_left ht.toLinked (hparent.lt_size ht.toLinked) ?_
  intro q c c' id' hc hc' hcc hbelow _
  exact absurd hcc ((hparent.of_below ht.toLinked hbelow).not_lt ht hc hc')

/-- What stands behind an open type in its datatype is a comment. -/
theorem AwaitsTag.comment_of_lt (ht : t.Ordered) {datatype type c : NodeId}
    (h : t.AwaitsTag datatype type) (hc : c ∈ t.children datatype) (hlt : type < c) :
    ∃ kind, t.Holds c kind datatype ∧ kind.isComment = true := by
  obtain ⟨before, after, hchildren, hcomments⟩ := h.last
  have hincreasing := ht.increasing datatype
  have hmem : c ∈ (t.children datatype).toList := Array.mem_toList_iff.2 hc
  rw [hchildren] at hincreasing hmem
  have hafter : c ∈ after := by
    -- What stands before the type has a smaller number, so the child is behind it.
    rcases List.mem_append.1 hmem with hbefore | hbehind
    · have hfirst := (List.pairwise_append.1 hincreasing).2.2 c hbefore type List.mem_cons_self
      exact absurd hlt (Nat.not_lt.2 (Nat.le_of_lt hfirst))
    · rcases List.mem_cons.1 hbehind with rfl | hafter
      · exact absurd hlt (Nat.lt_irrefl _)
      · exact hafter
  obtain ⟨n, hn, hp⟩ := ht.toLinked.child hc
  have hcomment := hcomments c hafter
  rw [kind?, hn, Option.map_some, Option.any_some] at hcomment
  exact ⟨n.kind, ⟨n, hn, rfl, hp⟩, hcomment⟩

/-- Nothing hangs below a comment. -/
theorem Regular.eq_of_below_comment (ht : t.Regular) {c q : NodeId} (hc : t.Holds c kind q)
    (hk : kind.isComment = true) (h : t.Below c id) : id = c := by
  rcases h.eq_or_exists_child with rfl | ⟨d, hd, -⟩
  · rfl
  · obtain ⟨n, hn, hp⟩ := ht.child hd
    obtain ⟨m, hm, hkept⟩ := ht.stem_parent hn hp
    obtain ⟨m', hm', rfl, -⟩ := hc
    obtain rfl : m = m' := Option.some.inj (hm.symm.trans hm')
    rw [hk] at hkept
    cases hkept

/-- The tag of a type that awaits it: there are but comments behind the
type. -/
theorem Straight.addTag (ht : t.Ordered) (hregular : t.Regular) (h : t.Straight)
    {datatype type : NodeId} (hspine : t.Spine datatype) (htype : t.AwaitsTag datatype type) :
    (t.add type .identifier position payload diagnostic).Straight := by
  have hlinked := ht.toLinked
  have hholds := htype.holds
  have hlt := hholds.lt_size
  have hchild : type ∈ t.children datatype := by
    obtain ⟨n, hn, -, hp⟩ := hholds
    obtain ⟨q, hq, -, hmem⟩ := hlinked.parent hn (hlinked.ne_root htype.holds)
    rw [hp] at hq
    exact Option.some.inj hq ▸ hmem
  refine h.add_of_left hlinked hlt ?_
  intro q c c' id' hc hc' hcc hbelow hbelow'
  -- The tag goes below the open type, so the left one of two siblings is this type or
  -- holds it.
  cases hbelow with
  | self =>
      obtain rfl := hlinked.eq_of_mem_children hchild hc
      obtain ⟨kind, hcomment, hk⟩ := htype.comment_of_lt ht hc' hcc
      obtain rfl := hregular.eq_of_below_comment hcomment hk hbelow'
      have hgrows : t.Grows (t.add type .identifier position payload diagnostic) := grows_add hlt
      exact ⟨type, datatype, kind, hholds.mono hgrows, holds_add _ _ _ _ hlt,
        hcomment.mono hgrows, hk, hcc, hcomment.lt_size⟩
  | @child q' _ hq' hmem =>
      obtain rfl := hlinked.eq_of_mem_children hchild hmem
      exact absurd hcc ((hspine.of_below hlinked hq').not_lt ht hc hc')

end Add

/-- A tree that holds nothing but a root has nothing that is left of
another node. -/
theorem straight_ofUnit (kind : UnitKind) (filename : String) :
    (ofUnit kind filename).Straight := by
  rintro id id' ⟨q, c, c', hc, -, -, -, -⟩
  have hlinked := (ordered_ofUnit kind filename).toLinked
  have hlt : c < 1 := hlinked.lt_size_of_mem_children hc
  exact absurd (Nat.lt_of_lt_of_le (hlinked.lt_of_mem_children hc) (Nat.le_of_lt_succ hlt))
    (Nat.not_lt_zero _)

end CDeclarations.Tree
