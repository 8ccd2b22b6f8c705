/-!
# `CDeclarations.Text.Position`: lines and columns

A position names a character of a text by its line and column, both
counted from one. `Position.next` is the position behind one
character and `Position.past` the position behind a stretch of text;
only a line feed begins a new line.
-/

set_option autoImplicit false

namespace CDeclarations

/-- A line and a column, both counted from one in a text. Nodes that
stem from no token sit at `0:0`. -/
structure Position where
  line : Nat
  column : Nat
deriving DecidableEq

namespace Position

/-- The position of nodes that stem from no token. -/
def nowhere : Position := ⟨0, 0⟩

/-- The first character of a text. -/
def start : Position := ⟨1, 1⟩

/-- The position behind a character: a line feed ends its line, every
other character takes one column. -/
def next (p : Position) (c : Char) : Position :=
  if c = '\n' then ⟨p.line + 1, 1⟩ else ⟨p.line, p.column + 1⟩

/-- The position behind a stretch of text that begins at `p`. -/
def past (p : Position) (cs : List Char) : Position :=
  cs.foldl next p

/-- The written form `line:column`. -/
def render (p : Position) : String :=
  toString p.line ++ ":" ++ toString p.column

/-- Nothing is gone past. -/
@[simp] theorem past_nil (p : Position) : p.past [] = p := rfl

/-- The first character is gone past first. -/
@[simp] theorem past_cons (p : Position) (c : Char) (cs : List Char) :
    p.past (c :: cs) = (p.next c).past cs := rfl

/-- Texts are gone past one after another. -/
theorem past_append (p : Position) (cs ds : List Char) :
    p.past (cs ++ ds) = (p.past cs).past ds :=
  List.foldl_append

end Position

end CDeclarations
