import CDeclarations.Proofs.Parser.View
import CDeclarations.Proofs.Token.Down

/-!
# `CDeclarations.Proofs.Tree.Graft`: a tree behind another one

The declarations of one unit may stand behind those of another. The
nodes of the second tree but its root then come behind the nodes of the
first one, and what hangs below the second root hangs below the first.

* `Tree.graft`: the two trees as one.
* `getElem?_graft_of_lt`, `getElem?_graft`: where the nodes of either
  tree are found.
* `graft_add`: an append to the second tree is an append to both.
* `View.graft`: so a parse runs behind another tree as it runs alone.
-/

set_option autoImplicit false

namespace CDeclarations

namespace Tree

/-- The index behind the tree `t` of a node of another tree. The roots
are one. -/
def behind (t : Tree) (id : NodeId) : Nat :=
  if id = root then root else id + (t.size - 1)

/-- A node of another tree behind the tree `t` and some lines further
down. -/
def moved (t : Tree) (lines : Nat) (n : Node) : Node :=
  { n with
    parent := n.parent.map t.behind
    children := n.children.map t.behind
    position := n.position.down lines }

/-- The tree `t` with the nodes of `u` but its root behind its own,
some lines further down. -/
def graft (t : Tree) (lines : Nat) (u : Tree) : Tree :=
  ⟨(t.nodes.modify root fun n =>
      { n with children := n.children ++ (u.children root).map t.behind }) ++
    (u.nodes.drop 1).map (t.moved lines)⟩

section Graft

variable {t u : Tree} {lines : Nat}

/-- The root of the second tree is the root of the first. -/
theorem behind_root : t.behind root = root :=
  if_pos rfl

/-- The other nodes of the second tree stand behind the first. -/
theorem behind_succ (ht : 0 < t.size) (k : Nat) : t.behind (k + 1) = t.size + k := by
  have h : t.behind (k + 1) = k + 1 + (t.size - 1) := if_neg (Nat.succ_ne_zero k)
  omega

/-- Nodes that stand behind the tree at one index are one. -/
theorem behind_inj (ht : 0 < t.size) : ∀ {id id' : Nat}, t.behind id = t.behind id' ↔ id = id'
  | 0, 0 => Iff.rfl
  | 0, k + 1 => by
      rw [behind_succ ht]
      show 0 = t.size + k ↔ 0 = k + 1
      omega
  | k + 1, 0 => by
      rw [behind_succ ht]
      show t.size + k = 0 ↔ k + 1 = 0
      omega
  | k + 1, l + 1 => by
      rw [behind_succ ht, behind_succ ht]
      omega

/-- Of the first tree only the root is a node behind it. -/
theorem behind_ne (ht : 0 < t.size) {index : Nat} (h : index < t.size) (hroot : root ≠ index) :
    ∀ id : Nat, t.behind id ≠ index
  | 0 => hroot
  | k + 1 => by
      rw [behind_succ ht]
      omega

/-- What is not in the first tree is a node of the second one, if
any. -/
theorem exists_behind (ht : 0 < t.size) {index : NodeId} (h : t.size ≤ index) :
    ∃ id, id ≠ root ∧ index = t.behind id := by
  obtain ⟨k, rfl⟩ := Nat.exists_eq_add_of_le h
  exact ⟨k + 1, Nat.succ_ne_zero k, (behind_succ ht k).symm⟩

/-- The two trees share one node. -/
theorem size_graft : (t.graft lines u).size = t.size + (u.size - 1) := by
  simp [graft, size]

/-- Nodes to come are behind both trees. -/
theorem behind_size_add (ht : 0 < t.size) (hu : 0 < u.size) (k : Nat) :
    t.behind (u.size + k) = (t.graft lines u).size + k := by
  have h : u.size + k = u.size - 1 + k + 1 := by omega
  rw [h, behind_succ ht, size_graft, Nat.add_assoc]

/-- The nodes of the second tree are nodes of the graft. -/
theorem behind_lt (ht : 0 < t.size) : ∀ {id : Nat}, id < u.size →
    t.behind id < (t.graft lines u).size
  | 0, _ => by
      rw [size_graft]
      exact Nat.lt_of_lt_of_le ht (Nat.le_add_right _ _)
  | k + 1, h => by
      rw [behind_succ ht, size_graft]
      omega

/-- A node of the first tree, where its root has the children of both
roots. -/
theorem getElem?_graft_of_lt {id : NodeId} (h : id < t.size) :
    (t.graft lines u).nodes[id]? = t.nodes[id]?.map fun n =>
      if root = id then { n with children := n.children ++ (u.children root).map t.behind }
      else n := by
  rw [graft, Array.getElem?_append_left (by rw [Array.size_modify]; exact h),
    Array.getElem?_modify]
  split
  · rfl
  · rw [Option.map_id']

/-- A node of the second tree. -/
theorem getElem?_graft (ht : 0 < t.size) {id : NodeId} (h : id ≠ root) :
    (t.graft lines u).nodes[t.behind id]? = u.nodes[id]?.map (t.moved lines) := by
  obtain ⟨k, rfl⟩ : ∃ k, id = k + 1 := Nat.exists_eq_succ_of_ne_zero h
  have hle : ∀ f : Node → Node, (t.nodes.modify root f).size ≤ t.size + k := fun f => by
    rw [Array.size_modify]
    exact Nat.le_add_right _ _
  -- The root of the second tree is dropped, so that node `k + 1` comes at `k`.
  have hdrop : (u.nodes.drop 1)[k]? = u.nodes[k + 1]? := by
    rw [Array.drop, Array.getElem?_extract, Nat.add_comm 1 k]
    split
    · rfl
    · next hk =>
      rw [Nat.min_self] at hk
      exact (Array.getElem?_eq_none (by omega)).symm
  rw [behind_succ ht, graft, Array.getElem?_append_right (hle _), Array.size_modify,
    Array.getElem?_map]
  show Option.map _ (u.nodes.drop 1)[t.size + k - t.size]? = _
  rw [Nat.add_sub_cancel_left, hdrop]

/-! ### Look-ups behind another tree -/

/-- A child is not the root. -/
theorem Linked.child_ne_root (hu : u.Linked) {id c : NodeId} (h : c ∈ u.children id) :
    c ≠ Tree.root := by
  obtain ⟨n, hn, hp⟩ := hu.child h
  exact hu.ne_root ⟨n, hn, rfl, hp⟩

/-- A node of the second tree keeps its kind. -/
theorem kind?_graft (ht : 0 < t.size) {id : NodeId} (h : id ≠ root) :
    (t.graft lines u).kind? (t.behind id) = u.kind? id := by
  rw [kind?, kind?, getElem?_graft ht h, Option.map_map]
  rfl

/-- A node of the second tree keeps its children. -/
theorem children_graft (ht : 0 < t.size) {id : NodeId} (h : id ≠ root) :
    (t.graft lines u).children (t.behind id) = (u.children id).map t.behind := by
  rw [children, children, getElem?_graft ht h]
  cases u.nodes[id]? with
  | none => exact Array.map_empty.symm
  | some n => rfl

/-- A node of the second tree keeps its parent, the root included. -/
theorem parentOrSelf_graft (ht : t.Linked) (hu : u.Linked) (id : NodeId) :
    (t.graft lines u).parentOrSelf (t.behind id) = t.behind (u.parentOrSelf id) := by
  by_cases h : id = root
  · -- Neither root has a parent, so that each is found itself.
    subst h
    obtain ⟨n, hn, hp⟩ := ht.root
    obtain ⟨m, hm, hq⟩ := hu.root
    rw [parentOrSelf, parentOrSelf, behind_root,
      getElem?_graft_of_lt (lt_size_of_getElem? hn), hn, hm,
      Option.map_some, if_pos rfl, Option.bind_some, Option.bind_some, hp, hq]
    exact behind_root.symm
  · rw [parentOrSelf, parentOrSelf, getElem?_graft ht.size_pos h]
    cases u.nodes[id]? with
    | none => rfl
    | some n =>
        show (n.parent.map t.behind).getD (t.behind id) = t.behind (n.parent.getD id)
        rw [Option.getD_map]

/-- A datatype of the second tree has begun in the graft when it had begun
before. -/
theorem isUnbegun_graft (ht : 0 < t.size) (hu : u.Linked) {id : NodeId} (h : id ≠ root) :
    (t.graft lines u).isUnbegun (t.behind id) = u.isUnbegun id := by
  rw [isUnbegun, isUnbegun, children_graft ht h, Array.all_map, Bool.eq_iff_iff,
    Array.all_eq_true', Array.all_eq_true']
  refine forall₂_congr fun c hc => ?_
  show (((t.graft lines u).kind? (t.behind c)).any _ = true ↔ _)
  rw [kind?_graft ht (hu.child_ne_root hc)]

/-- A tag goes under the same node in the graft. -/
theorem tagParent_graft (ht : 0 < t.size) (hu : u.Linked) {id : NodeId} (h : id ≠ root) :
    (t.graft lines u).tagParent (t.behind id) = t.behind (u.tagParent id) := by
  have htypes : (t.graft lines u).childrenOfKind (t.behind id) .userType =
      (u.childrenOfKind id .userType).map t.behind := by
    rw [childrenOfKind, childrenOfKind, children_graft ht h, Array.filter_map]
    congr 1
    rw [← Array.toList_inj, Array.toList_filter, Array.toList_filter]
    refine List.filter_congr fun c hc => ?_
    show decide ((t.graft lines u).kind? (t.behind c) = some .userType) = _
    rw [kind?_graft ht (hu.child_ne_root (Array.mem_toList_iff.1 hc))]
  rw [tagParent, tagParent, htypes, Array.back?_map]
  cases (u.childrenOfKind id .userType).back? <;> rfl

/-! ### Appending behind another tree -/

/-- A node that is moved gets its child moved as well. -/
theorem moved_withChild (n : Node) (child : NodeId) :
    t.moved lines (n.withChild child) = (t.moved lines n).withChild (t.behind child) := by
  simp [moved, Node.withChild]

/-- An append to the second tree is an append to both. -/
theorem graft_add (lines : Nat) (ht : t.Linked) (hu : u.Linked) {parent : NodeId}
    (h : parent < u.size) (kind : NodeKind) (at' : Position) (payload diagnostic : Option String) :
    t.graft lines (u.add parent kind at' payload diagnostic) =
      (t.graft lines u).add (t.behind parent) kind (at'.down lines) payload diagnostic := by
  have hnew : t.behind u.size = (t.graft lines u).size :=
    behind_size_add ht.size_pos hu.size_pos 0
  have hparent : t.behind parent < (t.graft lines u).size := behind_lt ht.size_pos h
  refine eq_of_getElem? fun index => ?_
  rw [getElem?_add _ _ _ _ hparent]
  rcases Nat.lt_or_ge index t.size with hlt | hge
  · -- A node of the first tree: only the root may have one more child.
    have hne : index ≠ (t.graft lines u).size := by
      rw [size_graft]
      exact Nat.ne_of_lt (Nat.lt_of_lt_of_le hlt (Nat.le_add_right _ _))
    rw [getElem?_graft_of_lt hlt, getElem?_graft_of_lt hlt, if_neg hne, Option.map_map]
    congr 1
    funext n
    rw [Function.comp_apply, children_add _ _ _ _ h]
    by_cases hindex : root = index
    · subst hindex
      have hinj : t.behind parent = t.behind root ↔ parent = root := behind_inj ht.size_pos
      have hroot : t.behind parent = root ↔ root = parent := hinj.trans eq_comm
      simp only [if_true, hroot]
      split
      · rw [Array.map_push, hnew, Array.append_push]
        rfl
      · rfl
    · rw [if_neg hindex, if_neg hindex, if_neg (behind_ne ht.size_pos hlt hindex parent)]
  · -- A node of the second tree: it is seen behind the first one on both sides.
    obtain ⟨id, hid, rfl⟩ := exists_behind ht.size_pos hge
    rw [getElem?_graft ht.size_pos hid, getElem?_graft ht.size_pos hid, getElem?_add _ _ _ _ h,
      ← hnew]
    simp only [behind_inj ht.size_pos]
    split
    · simp [moved]
    · rw [Option.map_map, Option.map_map]
      congr 1
      funext n
      show t.moved lines (if parent = id then _ else n) = if parent = id then _ else _
      split
      · rw [moved_withChild]
      · rfl

/-- Behind a tree, a unit without declarations adds nothing. -/
theorem graft_ofUnit (t : Tree) (lines : Nat) (kind : UnitKind) (filename : String) :
    t.graft lines (ofUnit kind filename) = t := by
  refine eq_of_toList ?_
  have hsame : t.nodes.toList.modify 0 (fun n => n) = t.nodes.toList := List.modify_id 0 _
  simpa [graft, ofUnit, ofRoot, children, root] using hsame

end Graft

end Tree

/-- A tree seen behind another one. -/
def View.graft (t : Tree) (ht : t.Linked) (lines : Nat) : View where
  tree := t.graft lines
  id := fun _ => t.behind
  position := (·.down lines)
  id_size := fun hu k => Tree.behind_size_add ht.size_pos hu.size_pos k
  kind? := fun _ _ _ hn => Tree.kind?_graft ht.size_pos hn
  parentOrSelf := fun hu _ _ => Tree.parentOrSelf_graft ht hu.toLinked _
  isUnbegun := fun hu _ _ hn => Tree.isUnbegun_graft ht.size_pos hu.toLinked hn
  tagParent := fun hu _ _ hn => Tree.tagParent_graft ht.size_pos hu.toLinked hn
  add := fun hu _ h _ _ _ _ _ => Tree.graft_add lines ht hu.toLinked h.lt_size _ _ _ _
  id_add := fun _ _ _ _ _ _ _ _ => rfl

end CDeclarations
