import CDeclarations.Screen.Cell

/-!
# `CDeclarations.Browser.Palette`: the colours of the browser

Every colour of the browser is named here for what it is used for.
-/

set_option autoImplicit false

namespace CDeclarations.Palette

open Screen (Color)

/-- Text without a meaning of its own. -/
def text : Color := .rgb 205 214 244

/-- Units, and the brackets of the source. -/
def unit : Color := .rgb 137 180 250

/-- The number of the selected line, and unsupported units. -/
def highlight : Color := .rgb 250 179 135

/-- Comments, positions and line numbers. -/
def muted : Color := .rgb 108 112 134

/-- Completed units. -/
def success : Color := .rgb 166 227 161

/-- Errors and rejected units. -/
def error : Color := .rgb 243 139 168

def warning : Color := .rgb 249 226 175

/-- Storage words, qualifiers and modifiers. -/
def keyword : Color := .rgb 137 180 250

/-- String literals and payloads. -/
def literal : Color := .rgb 250 179 135

def number : Color := .rgb 250 179 135

/-- The frame of the pane that keys act on. -/
def focusedFrame : Color := .rgb 249 226 175

/-- The frame of the other pane. -/
def frame : Color := .rgb 108 112 134

/-- The background of the selected row. -/
def selection : Color := .rgb 50 50 70

/-- Directives and their parts. -/
def directive : Color := .rgb 203 166 247

def typeName : Color := .rgb 148 226 213

/-- Declared names. -/
def identifier : Color := .rgb 249 226 175

end CDeclarations.Palette
