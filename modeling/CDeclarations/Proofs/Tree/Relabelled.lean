import CDeclarations.Proofs.Parser.View
import CDeclarations.Tree.Rows

/-!
# `CDeclarations.Proofs.Tree.Relabelled`: what is written on the nodes of a tree

A node has a kind and its place in the tree, and besides these a position,
a text and perhaps a message, which nothing that is looked up in a tree
depends on. `Tree.relabel` changes them on every node:

* `Node.Relabels`: the function leaves a node its kind and its place.
* `Tree.relabel_add`: an append is seen as an append.
* `Node.Relabels.view`: a parse runs on the relabelled tree as it runs on the
  tree, if the function leaves the nodes of the grammar their texts.
* `Tree.muted`: the nodes of some kinds lose their texts.
* `Tree.layout_muted`: the nodes in pre-order are the same then, with the
  same depth, kind and line.
-/

set_option autoImplicit false

namespace CDeclarations

/-- The function leaves a node its kind and its place in the tree. -/
structure Node.Relabels (f : Node → Node) : Prop where
  kind (n : Node) : (f n).kind = n.kind
  parent (n : Node) : (f n).parent = n.parent
  children (n : Node) : (f n).children = n.children
  withChild (n : Node) (child : NodeId) : f (n.withChild child) = (f n).withChild child

namespace Tree

/-- The tree with other labels on its nodes. -/
def relabel (f : Node → Node) (t : Tree) : Tree :=
  ⟨t.nodes.map f⟩

variable {f g : Node → Node} (t : Tree) (id : NodeId)

/-- Relabelling keeps the number of nodes. -/
@[simp] theorem size_relabel (f : Node → Node) : (t.relabel f).size = t.size := by
  simp [relabel, size]

/-- Each node is relabelled where it stands. -/
theorem getElem?_relabel (f : Node → Node) : (t.relabel f).nodes[id]? = t.nodes[id]?.map f := by
  rw [relabel, Array.getElem?_map]

/-- What a label that is written over was does not matter. -/
theorem relabel_relabel (h : ∀ n, g (f n) = g n) : (t.relabel f).relabel g = t.relabel g := by
  rw [relabel, relabel, relabel, Array.map_map]
  congr 2
  exact funext h

/-- Relabelling keeps the kinds. -/
theorem kind?_relabel (hf : Node.Relabels f) : (t.relabel f).kind? id = t.kind? id := by
  rw [kind?, kind?, getElem?_relabel, Option.map_map]
  exact congrArg (t.nodes[id]?.map ·) (funext hf.kind)

/-- Relabelling keeps the children. -/
theorem children_relabel (hf : Node.Relabels f) : (t.relabel f).children id = t.children id := by
  rw [children, children, getElem?_relabel]
  cases t.nodes[id]? with
  | none => rfl
  | some n => exact hf.children n

/-- Relabelling keeps the parents. -/
theorem parentOrSelf_relabel (hf : Node.Relabels f) :
    (t.relabel f).parentOrSelf id = t.parentOrSelf id := by
  rw [parentOrSelf, parentOrSelf, getElem?_relabel]
  cases t.nodes[id]? with
  | none => rfl
  | some n => exact congrArg (·.getD id) (hf.parent n)

/-- Relabelling does not begin a datatype. -/
theorem isUnbegun_relabel (hf : Node.Relabels f) :
    (t.relabel f).isUnbegun id = t.isUnbegun id := by
  simp only [isUnbegun, children_relabel _ _ hf, kind?_relabel _ _ hf]

/-- A tag goes under the same node. -/
theorem tagParent_relabel (hf : Node.Relabels f) :
    (t.relabel f).tagParent id = t.tagParent id := by
  simp only [tagParent, childrenOfKind, children_relabel _ _ hf, kind?_relabel _ _ hf]

/-- An append to the tree is seen with the new label. -/
theorem relabel_add (hf : Node.Relabels f) {t : Tree} {parent : NodeId} (h : parent < t.size)
    {kind : NodeKind} {position position' : Position}
    {payload diagnostic payload' diagnostic' : Option String}
    (hnew : f ⟨kind, some parent, #[], position, payload, diagnostic⟩ =
      ⟨kind, some parent, #[], position', payload', diagnostic'⟩) :
    (t.add parent kind position payload diagnostic).relabel f =
      (t.relabel f).add parent kind position' payload' diagnostic' := by
  have h' : parent < (t.relabel f).size := by rwa [size_relabel]
  refine eq_of_getElem? fun id => ?_
  rw [getElem?_relabel, getElem?_add _ _ _ _ h, getElem?_add _ _ _ _ h', getElem?_relabel,
    size_relabel]
  -- The new node is relabelled by hypothesis, and an old one before or behind its new
  -- child.
  split
  · exact congrArg some hnew
  · rw [Option.map_map, Option.map_map]
    congr 1
    funext n
    show f (if parent = id then _ else n) = if parent = id then _ else _
    split
    · exact hf.withChild n t.size
    · rfl

end Tree

/-- A tree seen with other labels. The nodes of the grammar keep their
texts and messages, and are seen at positions of their own. -/
def Node.Relabels.view {f : Node → Node} (hf : Node.Relabels f) (position : Position → Position)
    (hnew : ∀ {kind : NodeKind}, kind.isComment = false → ∀ parent children at' payload diagnostic,
      f ⟨kind, parent, children, at', payload, diagnostic⟩ =
        ⟨kind, parent, children, position at', payload, diagnostic⟩) : View where
  tree := Tree.relabel f
  id := fun _ => id
  position := position
  id_size := fun _ _ => by rw [id_eq, Tree.size_relabel]
  kind? := fun _ _ _ _ => Tree.kind?_relabel _ _ hf
  parentOrSelf := fun _ _ _ => Tree.parentOrSelf_relabel _ _ hf
  isUnbegun := fun _ _ _ _ => Tree.isUnbegun_relabel _ _ hf
  tagParent := fun _ _ _ _ => Tree.tagParent_relabel _ _ hf
  add := fun _ _ h _ hk _ _ _ => Tree.relabel_add hf h.lt_size (hnew hk ..)
  id_add := fun _ _ _ _ _ _ _ _ => rfl

/-! ### Nodes without their texts -/

/-- The node without its text, if it is of one of the muted kinds. -/
def Node.muted (mute : NodeKind → Bool) (n : Node) : Node :=
  if mute n.kind then { n with payload := none } else n

/-- Muting takes a text away, and changes nothing that the parser looks at. -/
theorem Node.relabels_muted (mute : NodeKind → Bool) : Node.Relabels (Node.muted mute) where
  kind n := by
    rw [muted]
    split <;> rfl
  parent n := by
    rw [muted]
    split <;> rfl
  children n := by
    rw [muted]
    split <;> rfl
  withChild n child := by
    rw [muted, muted]
    show (if mute n.kind then _ else _) = _
    split <;> rfl

/-- A muted node keeps its position. -/
theorem Node.position_muted (mute : NodeKind → Bool) (n : Node) :
    (n.muted mute).position = n.position := by
  rw [muted]
  split <;> rfl

namespace Tree

/-- The tree without the texts of the nodes of the muted kinds. -/
def muted (mute : NodeKind → Bool) (t : Tree) : Tree :=
  t.relabel (Node.muted mute)

/-- Muting more kinds covers muting some of them. -/
theorem muted_muted {mute mute' : NodeKind → Bool} (h : ∀ kind, mute kind → mute' kind)
    (t : Tree) : (t.muted mute).muted mute' = t.muted mute' := by
  refine relabel_relabel t fun n => ?_
  cases hmute : mute n.kind with
  | false => rw [Node.muted, Node.muted, hmute, if_neg Bool.false_ne_true]; rfl
  | true => simp [Node.muted, hmute, h _ hmute]

/-- A node is muted when it is added, or afterwards. -/
theorem muted_add (mute : NodeKind → Bool) {t : Tree} {parent : NodeId} (h : parent < t.size)
    (kind : NodeKind) (position : Position) (payload diagnostic : Option String) :
    (t.add parent kind position payload diagnostic).muted mute =
      (t.muted mute).add parent kind position (if mute kind then none else payload) diagnostic := by
  refine relabel_add (Node.relabels_muted mute) h ?_
  rw [Node.muted]
  split <;> rfl

end Tree

/-! ### Reading order -/

/-- The depth, kind and line of the nodes in pre-order. -/
def Tree.layout (t : Tree) : List (Nat × NodeKind × Nat) :=
  t.rowNodes.map fun entry => (entry.1.depth, entry.2.kind, entry.2.position.line)

/-- The rows are the same, with their nodes relabelled. -/
theorem Tree.rowNodes_relabel {f : Node → Node} (hf : Node.Relabels f) (t : Tree) :
    (t.relabel f).rowNodes = t.rowNodes.map fun entry => (entry.1, f entry.2) := by
  have hrows : (t.relabel f).rows = t.rows :=
    rows_congr (size_relabel t f) fun id => children_relabel t id hf
  rw [rowNodes, rowNodes, hrows, List.map_filterMap]
  congr 1
  funext row
  rw [getElem?_relabel, Option.map_map, Option.map_map]
  rfl

/-- The layout shows no texts. -/
theorem Tree.layout_muted (mute : NodeKind → Bool) (t : Tree) :
    (t.muted mute).layout = t.layout := by
  rw [layout, layout, muted, rowNodes_relabel (Node.relabels_muted mute), List.map_map]
  congr 1
  funext entry
  simp only [Function.comp_apply, (Node.relabels_muted mute).kind, Node.position_muted]

end CDeclarations
