import CDeclarations.Diagnosis
import CDeclarations.Token.Basic
import CDeclarations.Tree.Basic

/-!
# `CDeclarations.Tree.TokenNode`: nodes that stand for tokens

Every node but the root stems from a token and takes its position. A
leaf carries the token's text; a container carries none, its text
being clear from its kind or carried by a node below it; the node of a
refused token carries the text and the reason.
-/

set_option autoImplicit false

namespace CDeclarations.Tree

/-- Appends a node that carries the token's text. -/
def addLeaf (t : Tree) (parent : NodeId) (kind : NodeKind) (token : Token) : Tree :=
  t.add parent kind token.position (some token.text) none

/-- Appends a node without text at the token's position. -/
def addContainer (t : Tree) (parent : NodeId) (kind : NodeKind) (token : Token) : Tree :=
  t.add parent kind token.position none none

/-- Appends the error node of a refused token. -/
def addFailure (t : Tree) (parent : NodeId) (token : Token) (failure : Failure) : Tree :=
  t.add parent .error token.position (some token.text) (some failure.message)

/-- A leaf is one node. -/
@[simp] theorem size_addLeaf (t : Tree) (parent : NodeId) (kind : NodeKind) (token : Token) :
    (t.addLeaf parent kind token).size = t.size + 1 :=
  t.size_add ..

/-- So is a container, which is appended empty. -/
@[simp] theorem size_addContainer (t : Tree) (parent : NodeId) (kind : NodeKind)
    (token : Token) : (t.addContainer parent kind token).size = t.size + 1 :=
  t.size_add ..

/-- So is the error or the warning of a failure. -/
@[simp] theorem size_addFailure (t : Tree) (parent : NodeId) (token : Token)
    (failure : Failure) : (t.addFailure parent token failure).size = t.size + 1 :=
  t.size_add ..

end CDeclarations.Tree
