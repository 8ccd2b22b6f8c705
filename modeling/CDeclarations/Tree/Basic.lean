import CDeclarations.Text.Position
import CDeclarations.Tree.NodeKind

/-!
# `CDeclarations.Tree.Basic`: an append-only tree of nodes

A tree is an array of nodes; a node is known by its index and names
its parent and its children by theirs. Nothing is ever removed or
reordered: a new node goes to the end of the array and to the end of
its parent's children, so that children stand in the order in which
they came.

* `Tree.size_add`: an appended node is the only new one.
* `Tree.getElem?_add_of_lt`: a node that was there before keeps all
  its fields but its children, and those only grow at the end.
-/

set_option autoImplicit false

namespace CDeclarations

/-- The index of a node in its tree. -/
abbrev NodeId := Nat

/-- One node of a tree. -/
structure Node where
  kind : NodeKind
  /-- The root alone has no parent. -/
  parent : Option NodeId
  /-- The children, in the order in which they came. -/
  children : Array NodeId
  position : Position
  /-- The text of the token that the node stands for. -/
  payload : Option String
  /-- The message of an error or a warning. -/
  diagnostic : Option String
deriving DecidableEq

/-- A tree of nodes, the root first. -/
structure Tree where
  nodes : Array Node

/-- Why an operation on a tree is refused. -/
inductive TreeFault
  /-- There is no node of this index among so many nodes. -/
  | missing (size index : Nat)
  /-- Only errors and warnings carry a message. -/
  | notDiagnostic
  /-- Only a unit can be a root. -/
  | notUnit
deriving DecidableEq

namespace Tree

/-- The index of the root. -/
def root : NodeId := 0

/-- A tree that holds nothing but a root of the given kind, which
carries the name of the unit. -/
def ofRoot (kind : NodeKind) (filename : String) : Tree :=
  ⟨#[⟨kind, none, #[], .nowhere, some filename, none⟩]⟩

/-- A tree that holds nothing but the root of a unit. -/
def ofUnit (kind : UnitKind) (filename : String) : Tree :=
  ofRoot kind.rootKind filename

/-- A tree that holds nothing but a root, which has to be a unit. -/
def ofRoot? (kind : NodeKind) (filename : String) : Except TreeFault Tree :=
  if kind.isUnit then .ok (ofRoot kind filename) else .error .notUnit

/-- The number of nodes. -/
def size (t : Tree) : Nat :=
  t.nodes.size

/-- The tree holds nothing but a root. -/
def isBare (t : Tree) : Bool :=
  t.size ≤ 1

/-- Appends a node under `parent`. The new node has the index
`t.size`; its parent may be the node itself, which is then its own
child. -/
def add (t : Tree) (parent : NodeId) (kind : NodeKind) (position : Position)
    (payload diagnostic : Option String) : Tree :=
  let id := t.size
  -- A node that is its own parent is not in the array yet; its child is set below.
  let nodes := t.nodes.modify parent fun n => { n with children := n.children.push id }
  let children := if parent = id then #[id] else #[]
  ⟨nodes.push ⟨kind, some parent, children, position, payload, diagnostic⟩⟩

/-- Appends a node under a parent that has to be there; the new node
itself counts as there. -/
def add? (t : Tree) (parent : NodeId) (kind : NodeKind) (position : Position)
    (payload : Option String) : Except TreeFault Tree :=
  if parent ≤ t.size then .ok (t.add parent kind position payload none)
  else .error (.missing (t.size + 1) parent)

/-- Appends an error or a warning under a parent that has to be
there. -/
def addDiagnostic? (t : Tree) (parent : NodeId) (kind : NodeKind) (position : Position)
    (payload : Option String) (message : String) : Except TreeFault Tree :=
  if !kind.isDiagnostic then .error .notDiagnostic
  else if parent ≤ t.size then .ok (t.add parent kind position payload (some message))
  else .error (.missing (t.size + 1) parent)

/-- The node of an index that has to be there. -/
def node? (t : Tree) (id : NodeId) : Except TreeFault Node :=
  match t.nodes[id]? with
  | some n => .ok n
  | none => .error (.missing t.size id)

/-- The kind of a node, if it is there. -/
def kind? (t : Tree) (id : NodeId) : Option NodeKind :=
  t.nodes[id]?.map Node.kind

/-- The children of a node; a node that is not there has none. -/
def children (t : Tree) (id : NodeId) : Array NodeId :=
  match t.nodes[id]? with
  | some n => n.children
  | none => #[]

/-- The children of a node that are of one kind. -/
def childrenOfKind (t : Tree) (id : NodeId) (kind : NodeKind) : Array NodeId :=
  (t.children id).filter fun c => t.kind? c = some kind

/-- The parent of a node, or the node itself where it has none. -/
def parentOrSelf (t : Tree) (id : NodeId) : NodeId :=
  (t.nodes[id]?.bind Node.parent).getD id

/-- Some node is an error. -/
def hasErrors (t : Tree) : Bool :=
  t.nodes.any fun n => n.kind = .error

/-- The number of nodes of one kind. -/
def count (t : Tree) (kind : NodeKind) : Nat :=
  t.nodes.countP fun n => n.kind = kind

/-- The kinds that occur, each with its number of nodes. -/
def counts (t : Tree) : List (NodeKind × Nat) :=
  (NodeKind.all.map fun kind => (kind, t.count kind)).filter fun entry => entry.2 ≠ 0

/-! ### What an append changes -/

/-- An append makes the tree one node larger. -/
@[simp] theorem size_add (t : Tree) (parent : NodeId) (kind : NodeKind) (position : Position)
    (payload diagnostic : Option String) :
    (t.add parent kind position payload diagnostic).size = t.size + 1 := by
  simp [add, size]

/-- The new node is the last one and has no child but itself. -/
theorem getElem?_add_size (t : Tree) (parent : NodeId) (kind : NodeKind) (position : Position)
    (payload diagnostic : Option String) :
    (t.add parent kind position payload diagnostic).nodes[t.size]? =
      some ⟨kind, some parent, if parent = t.size then #[t.size] else #[], position, payload,
        diagnostic⟩ := by
  simp only [add, size, Array.getElem?_push, Array.size_modify, if_true]

/-- A node that was there before keeps all its fields, but that the
new node is the last of its parent's children. -/
theorem getElem?_add_of_lt (t : Tree) {id : NodeId} (parent : NodeId) (kind : NodeKind)
    (position : Position) (payload diagnostic : Option String) (h : id < t.size) :
    (t.add parent kind position payload diagnostic).nodes[id]? =
      t.nodes[id]?.map fun n =>
        if parent = id then { n with children := n.children.push t.size } else n := by
  have hne : id ≠ t.nodes.size := Nat.ne_of_lt h
  simp only [add, size, Array.getElem?_push, Array.size_modify, hne, if_false,
    Array.getElem?_modify]
  split <;> simp

end Tree

end CDeclarations
