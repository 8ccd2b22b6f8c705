import CDeclarations.Specifier.Verdict
import CDeclarations.Tree.TokenNode

/-!
# `CDeclarations.Specifier.Digest`: a specifier sequence in the tree

A specifier sequence fills one datatype node. A digested token is
judged and becomes a node: a part of the sequence goes under the
datatype, a tag under the composed type it names, the declared name
beside the datatype, and a refused token becomes an error under the
datatype. A sequence begins with no category: while the datatype
holds nothing but comments, the categories are forgotten before the
token is judged.
-/

set_option autoImplicit false

namespace CDeclarations

/-- What became of a digested token, and its node. -/
inductive Digested
  /-- A token of the sequence. -/
  | classified (id : NodeId)
  /-- The declared name, which closes the sequence. -/
  | declared (id : NodeId)
  /-- A refused token; its node is an error. -/
  | refused (id : NodeId) (failure : Failure)
deriving DecidableEq

/-- The tree and the categories behind a digested token, and what
became of it. -/
structure Digestion where
  tree : Tree
  flags : Flags
  outcome : Digested

namespace Tree

/-- The sequence of a datatype has not begun: the node holds nothing
but comments. -/
def isUnbegun (t : Tree) (datatype : NodeId) : Bool :=
  (t.children datatype).all fun c => (t.kind? c).any NodeKind.isComment

/-- The node that a tag goes under: the latest type that the datatype
names, or the datatype itself. -/
def tagParent (t : Tree) (datatype : NodeId) : NodeId :=
  (t.childrenOfKind datatype .userType).back?.getD datatype

end Tree

/-- The categories that the next token of a datatype is judged by. -/
def Flags.forSequence (flags : Flags) (t : Tree) (datatype : NodeId) : Flags :=
  if t.isUnbegun datatype then ∅ else flags

/-- Digests the next token of the sequence in `datatype`, which holds
the categories in `flags`. -/
def digest (t : Tree) (datatype : NodeId) (flags : Flags) (token : Token) : Digestion :=
  let flags := flags.forSequence t datatype
  let id := t.size
  match flags.judge token with
  | .part kind after => ⟨t.addLeaf datatype kind token, after, .classified id⟩
  | .composed word after =>
      ⟨(t.addContainer datatype .userType token).addLeaf id word.nodeKind token, after,
        .classified (id + 1)⟩
  | .tag after => ⟨t.addLeaf (t.tagParent datatype) .identifier token, after, .classified id⟩
  | .name => ⟨t.addLeaf (t.parentOrSelf datatype) .identifier token, flags, .declared id⟩
  | .refused failure => ⟨t.addFailure datatype token failure, flags, .refused id failure⟩

end CDeclarations
