import Mathlib
import Hnmos.CString

/-!
# The bitmap font

Letters, digits and a few marks as eight rows of eight bits; every other
character is drawn as the fallback glyph.
-/

set_option autoImplicit false

namespace Hnmos.Font

abbrev Glyph := List UInt8

def upper : List Glyph := [
  [0x00, 0x1C, 0x22, 0x22, 0x3E, 0x22, 0x22, 0x00],
  [0x00, 0x3C, 0x22, 0x22, 0x3C, 0x22, 0x3C, 0x00],
  [0x00, 0x1C, 0x22, 0x20, 0x20, 0x22, 0x1C, 0x00],
  [0x00, 0x3C, 0x22, 0x22, 0x22, 0x22, 0x3C, 0x00],
  [0x00, 0x3E, 0x20, 0x20, 0x3C, 0x20, 0x3E, 0x00],
  [0x00, 0x3E, 0x20, 0x20, 0x3C, 0x20, 0x20, 0x00],
  [0x00, 0x1C, 0x22, 0x20, 0x26, 0x22, 0x1E, 0x00],
  [0x00, 0x22, 0x22, 0x22, 0x3E, 0x22, 0x22, 0x00],
  [0x00, 0x1C, 0x08, 0x08, 0x08, 0x08, 0x1C, 0x00],
  [0x00, 0x0E, 0x04, 0x04, 0x04, 0x24, 0x18, 0x00],
  [0x00, 0x22, 0x24, 0x28, 0x30, 0x28, 0x26, 0x00],
  [0x00, 0x20, 0x20, 0x20, 0x20, 0x20, 0x3E, 0x00],
  [0x00, 0x22, 0x36, 0x2A, 0x2A, 0x22, 0x22, 0x00],
  [0x00, 0x22, 0x32, 0x2A, 0x26, 0x22, 0x22, 0x00],
  [0x00, 0x1C, 0x22, 0x22, 0x22, 0x22, 0x1C, 0x00],
  [0x00, 0x3C, 0x22, 0x22, 0x3C, 0x20, 0x20, 0x00],
  [0x00, 0x1C, 0x22, 0x22, 0x2A, 0x24, 0x1A, 0x00],
  [0x00, 0x3C, 0x22, 0x22, 0x3C, 0x28, 0x26, 0x00],
  [0x00, 0x1E, 0x20, 0x20, 0x1C, 0x02, 0x3C, 0x00],
  [0x00, 0x3E, 0x08, 0x08, 0x08, 0x08, 0x08, 0x00],
  [0x00, 0x22, 0x22, 0x22, 0x22, 0x22, 0x1C, 0x00],
  [0x00, 0x22, 0x22, 0x22, 0x22, 0x14, 0x08, 0x00],
  [0x00, 0x22, 0x22, 0x2A, 0x2A, 0x2A, 0x14, 0x00],
  [0x00, 0x22, 0x22, 0x14, 0x08, 0x14, 0x22, 0x00],
  [0x00, 0x22, 0x22, 0x14, 0x08, 0x08, 0x08, 0x00],
  [0x00, 0x3E, 0x02, 0x04, 0x08, 0x10, 0x3E, 0x00]]

def lower : List Glyph := [
  [0x00, 0x00, 0x1C, 0x02, 0x1E, 0x22, 0x1E, 0x00],
  [0x00, 0x20, 0x20, 0x3C, 0x22, 0x22, 0x3C, 0x00],
  [0x00, 0x00, 0x1C, 0x22, 0x20, 0x22, 0x1C, 0x00],
  [0x00, 0x02, 0x02, 0x1E, 0x22, 0x22, 0x1E, 0x00],
  [0x00, 0x00, 0x1C, 0x22, 0x3E, 0x20, 0x1C, 0x00],
  [0x00, 0x0C, 0x12, 0x10, 0x3C, 0x10, 0x10, 0x00],
  [0x00, 0x00, 0x1E, 0x22, 0x22, 0x1E, 0x02, 0x1C],
  [0x00, 0x20, 0x20, 0x3C, 0x22, 0x22, 0x22, 0x00],
  [0x00, 0x08, 0x00, 0x18, 0x08, 0x08, 0x1C, 0x00],
  [0x00, 0x04, 0x00, 0x0C, 0x04, 0x04, 0x24, 0x18],
  [0x00, 0x20, 0x24, 0x28, 0x30, 0x28, 0x26, 0x00],
  [0x00, 0x18, 0x08, 0x08, 0x08, 0x08, 0x1C, 0x00],
  [0x00, 0x00, 0x34, 0x2A, 0x2A, 0x22, 0x22, 0x00],
  [0x00, 0x00, 0x3C, 0x22, 0x22, 0x22, 0x22, 0x00],
  [0x00, 0x00, 0x1C, 0x22, 0x22, 0x22, 0x1C, 0x00],
  [0x00, 0x00, 0x3C, 0x22, 0x22, 0x3C, 0x20, 0x20],
  [0x00, 0x00, 0x1E, 0x22, 0x22, 0x1E, 0x02, 0x02],
  [0x00, 0x00, 0x2C, 0x32, 0x20, 0x20, 0x20, 0x00],
  [0x00, 0x00, 0x1E, 0x20, 0x1C, 0x02, 0x3C, 0x00],
  [0x00, 0x10, 0x3C, 0x10, 0x10, 0x12, 0x0C, 0x00],
  [0x00, 0x00, 0x22, 0x22, 0x22, 0x26, 0x1A, 0x00],
  [0x00, 0x00, 0x22, 0x22, 0x22, 0x14, 0x08, 0x00],
  [0x00, 0x00, 0x22, 0x22, 0x2A, 0x2A, 0x14, 0x00],
  [0x00, 0x00, 0x22, 0x14, 0x08, 0x14, 0x22, 0x00],
  [0x00, 0x00, 0x22, 0x22, 0x22, 0x1E, 0x02, 0x1C],
  [0x00, 0x00, 0x3E, 0x04, 0x08, 0x10, 0x3E, 0x00]]

def digits : List Glyph := [
  [0x00, 0x1C, 0x22, 0x26, 0x2A, 0x32, 0x1C, 0x00],
  [0x00, 0x08, 0x18, 0x08, 0x08, 0x08, 0x1C, 0x00],
  [0x00, 0x1C, 0x22, 0x02, 0x04, 0x10, 0x3E, 0x00],
  [0x00, 0x3C, 0x02, 0x02, 0x1C, 0x02, 0x3C, 0x00],
  [0x00, 0x04, 0x0C, 0x14, 0x24, 0x3E, 0x04, 0x00],
  [0x00, 0x3E, 0x20, 0x20, 0x3C, 0x02, 0x3C, 0x00],
  [0x00, 0x1C, 0x20, 0x20, 0x3C, 0x22, 0x1C, 0x00],
  [0x00, 0x3E, 0x02, 0x04, 0x08, 0x10, 0x10, 0x00],
  [0x00, 0x1C, 0x22, 0x22, 0x1C, 0x22, 0x1C, 0x00],
  [0x00, 0x1C, 0x22, 0x22, 0x1E, 0x02, 0x1C, 0x00]]

def space : Glyph := [0, 0, 0, 0, 0, 0, 0, 0]

def colon : Glyph := [0x00, 0x00, 0x08, 0x08, 0x00, 0x08, 0x08, 0x00]

def dot : Glyph := [0x00, 0x00, 0x00, 0x00, 0x00, 0x18, 0x18, 0x00]

def dash : Glyph := [0x00, 0x00, 0x00, 0x00, 0x3E, 0x00, 0x00, 0x00]

def slash : Glyph := [0x00, 0x02, 0x04, 0x08, 0x10, 0x20, 0x00, 0x00]

def greater : Glyph := [0x00, 0x20, 0x10, 0x08, 0x04, 0x08, 0x10, 0x20]

def fallback : Glyph := [0x00, 0x3E, 0x22, 0x0C, 0x08, 0x00, 0x08, 0x00]

def glyph (character : UInt8) : Glyph :=
  if 65 ≤ character ∧ character ≤ 90 then upper.getD (character - 65).toNat []
  else if 97 ≤ character ∧ character ≤ 122 then lower.getD (character - 97).toNat []
  else if 48 ≤ character ∧ character ≤ 57 then digits.getD (character - 48).toNat []
  else if character = 32 then space
  else if character = 58 then colon
  else if character = 46 then dot
  else if character = 45 then dash
  else if character = 47 then slash
  else if character = 62 then greater
  else fallback

def glyphBit (g : Glyph) (row col : ℕ) : Bool := (g.getD row 0).toNat.testBit (7 - col)

end Hnmos.Font
