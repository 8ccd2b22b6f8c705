import CDeclarations.Browser.Palette
import CDeclarations.Diagnosis
import CDeclarations.Screen.Cell

/-!
# `CDeclarations.Browser.StatusBar`: the state of the browser in a row

The left half of the bar shows how the parse ended, where the
selection is and a message; the right half shows the keys.
-/

set_option autoImplicit false

namespace CDeclarations

open Screen

/-- What the bar shows. -/
structure StatusBar where
  message : String
  /-- The selected row, counted from zero. -/
  selected : Nat
  nodes : Nat
  diagnostics : Nat
  status : Status

namespace StatusBar

/-- How the parse ended, in one word. -/
def label : Status → String
  | .completed => " COMPLETED "
  | .failed (.rejected _) => " REJECTED "
  | .failed (.unsupported _) => " UNSUPPORTED "

/-- The background of that word. -/
def labelColor : Status → Color
  | .completed => Palette.success
  | .failed (.rejected _) => Palette.error
  | .failed (.unsupported _) => Palette.highlight

/-- Text on the bar in a colour of its own. -/
def onBar (color : Color) : Style := ⟨color, Palette.selection, false⟩

/-- A cell of the bar without text. -/
def filler : Cell := ⟨' ', onBar .unset⟩

/-- The left half of the bar. -/
def leftSpans (b : StatusBar) : List Span :=
  [⟨label b.status, ⟨.black, labelColor b.status, true⟩⟩,
    ⟨" Node " ++ toString (b.selected + 1) ++ "/" ++ toString b.nodes ++ " | "
      ++ toString b.diagnostics ++ " diagnostic(s) ", onBar Palette.muted⟩,
    ⟨" " ++ b.message ++ " ", onBar Palette.text⟩]

/-- The name of a key and what it does. -/
def keySpans (key action : String) : List Span :=
  [⟨key, ⟨.black, Palette.muted, false⟩⟩, ⟨action, onBar Palette.text⟩]

/-- What parts two keys. -/
def separator : List Span :=
  [⟨"│", onBar Palette.muted⟩, ⟨" ", onBar Palette.text⟩]

/-- The right half of the bar. -/
def rightSpans : List Span :=
  keySpans " ↑/↓ " " select " ++ separator
    ++ keySpans " PgUp/PgDn " " page " ++ separator
    ++ keySpans " n/N " " diagnostic " ++ separator
    ++ keySpans "q" " quit "

/-- The row of the bar that holds text: the left half begins on the
left and the right half ends on the right, each cut within its own
half. The halves are exact on a screen of even width; else the column
in the middle falls to the left one. -/
def textRow (b : StatusBar) (width : Nat) : List Cell :=
  let half := (width + 1) / 2
  fit half filler (cells b.leftSpans) ++ fitRight (width - half) filler (cells rightSpans)

/-- The bar; rows below the first one hold no text. -/
def draw (b : StatusBar) (width height : Nat) : Rows :=
  match height with
  | 0 => []
  | below + 1 => b.textRow width :: List.replicate below (List.replicate width filler)

end StatusBar

end CDeclarations
