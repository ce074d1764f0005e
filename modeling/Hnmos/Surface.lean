import Mathlib
import Hnmos.CString

/-!
# The drawing surface

Drawing is recorded as the list of operations asked of the framebuffer; a
rectangle outline is the four fills it is made of and a string is one
character cell after the other. The graphical console keeps its cell cursor
and colours here as well. Coordinates are 32-bit and wrap as in the source.
-/

set_option autoImplicit false

namespace Hnmos.Surface
open Hnmos.CString

abbrev Color := UInt32

def colorRgb (red green blue : UInt8) : Color :=
  (red.toUInt32 <<< 16) ||| (green.toUInt32 <<< 8) ||| blue.toUInt32

inductive DrawOp where
  | fillRect (x y width height : UInt32) (color : Color)
  | char (x y : UInt32) (character : UInt8) (fg bg : Color)
  | clear (color : Color)
  | scrollRows (rows : UInt32)
  deriving DecidableEq

structure Framebuffer where
  width : UInt32
  height : UInt32
  bpp : UInt8
  available : Bool
  deriving DecidableEq

def fillRect (x y width height : UInt32) (color : Color) : List DrawOp :=
  [.fillRect x y width height color]

def drawRect (x y width height : UInt32) (color : Color) : List DrawOp :=
  if width = 0 ∨ height = 0 then []
  else
    fillRect x y width 1 color ++ fillRect x (y + height - 1) width 1 color ++
      fillRect x y 1 height color ++ fillRect (x + width - 1) y 1 height color

def drawString (x y : UInt32) (text : List UInt8) (fg bg : Color) : List DrawOp :=
  text.zipIdx.map fun (c, i) => .char (x + UInt32.ofNat i * 8) y c fg bg

def stringWidth (text : List UInt8) : UInt32 := UInt32.ofNat text.length * 8

structure Console where
  cursorX : UInt32
  cursorY : UInt32
  columns : UInt32
  rows : UInt32
  foreground : Color
  background : Color
  ready : Bool
  deriving DecidableEq

structure Screen where
  fb : Framebuffer
  console : Console
  ops : List DrawOp
  deriving DecidableEq

def Screen.draw (s : Screen) (ops : List DrawOp) : Screen := { s with ops := s.ops ++ ops }

def Console.pixelX (c : Console) : UInt32 := c.cursorX * 8

def Console.pixelY (c : Console) : UInt32 := c.cursorY * 8

def Screen.setColors (s : Screen) (foreground background : Color) : Screen :=
  { s with console := { s.console with foreground := foreground, background := background } }

def Screen.setCursor (s : Screen) (column row : UInt32) : Screen :=
  if s.console.ready then
    { s with console := { s.console with
        cursorX := if column ≥ s.console.columns then s.console.columns - 1 else column
        cursorY := if row ≥ s.console.rows then s.console.rows - 1 else row } }
  else s

def Screen.clear (s : Screen) : Screen :=
  if s.console.ready then
    { s.draw [.clear s.console.background] with
      console := { s.console with cursorX := 0, cursorY := 0 } }
  else s

def Screen.scroll (s : Screen) : Screen :=
  if s.console.ready = false ∨ s.fb.height ≤ 8 then s
  else
    s.draw (.scrollRows 8 ::
      fillRect 0 (s.fb.height - 8) s.fb.width 8 s.console.background)

def Screen.newline (s : Screen) : Screen :=
  if s.console.ready then
    let s := { s with console := { s.console with cursorX := 0 } }
    if s.console.cursorY + 1 ≥ s.console.rows then
      let s := s.scroll
      { s with console := { s.console with cursorY := s.console.rows - 1 } }
    else { s with console := { s.console with cursorY := s.console.cursorY + 1 } }
  else s

def Screen.backspace (s : Screen) : Screen :=
  if s.console.ready = false ∨ (s.console.cursorX = 0 ∧ s.console.cursorY = 0) then s
  else
    let s :=
      if s.console.cursorX = 0 then
        { s with console := { s.console with
            cursorY := s.console.cursorY - 1, cursorX := s.console.columns - 1 } }
      else { s with console := { s.console with cursorX := s.console.cursorX - 1 } }
    s.draw (fillRect s.console.pixelX s.console.pixelY 8 8 s.console.background)

def Screen.putGlyph (s : Screen) (c : UInt8) : Screen :=
  let s := if s.console.cursorX ≥ s.console.columns then s.newline else s
  let s := s.draw
    [.char s.console.pixelX s.console.pixelY c s.console.foreground s.console.background]
  let s := { s with console := { s.console with cursorX := s.console.cursorX + 1 } }
  if s.console.cursorX ≥ s.console.columns then s.newline else s

def Screen.putChar (s : Screen) (c : UInt8) : Screen :=
  if s.console.ready then
    if c = 10 then s.newline
    else if c = 13 then { s with console := { s.console with cursorX := 0 } }
    else if c = 8 then s.backspace
    else if c = 9 then (List.replicate 4 32).foldl Screen.putGlyph s
    else s.putGlyph c
  else s

def Screen.write (s : Screen) (text : List UInt8) : Screen := text.foldl Screen.putChar s

def Screen.writeLine (s : Screen) (text : List UInt8) : Screen := (s.write text).newline

section
variable (s : Screen)

@[simp] theorem draw_fb (ops : List DrawOp) : (s.draw ops).fb = s.fb := rfl

@[simp] theorem setColors_fb (fg bg : Color) : (s.setColors fg bg).fb = s.fb := rfl

@[simp] theorem setCursor_fb (column row : UInt32) : (s.setCursor column row).fb = s.fb := by
  unfold Screen.setCursor
  split_ifs <;> rfl

@[simp] theorem clear_fb : s.clear.fb = s.fb := by
  unfold Screen.clear
  split_ifs <;> rfl

@[simp] theorem scroll_fb : s.scroll.fb = s.fb := by
  unfold Screen.scroll
  split_ifs <;> rfl

@[simp] theorem newline_fb : s.newline.fb = s.fb := by
  unfold Screen.newline
  simp only
  split_ifs
  · exact scroll_fb _
  · rfl
  · rfl

@[simp] theorem backspace_fb : s.backspace.fb = s.fb := by
  unfold Screen.backspace
  simp only
  split_ifs <;> rfl

@[simp] theorem putGlyph_fb (c : UInt8) : (s.putGlyph c).fb = s.fb := by
  unfold Screen.putGlyph
  simp only
  split_ifs <;> simp

@[simp] theorem putChar_fb (c : UInt8) : (s.putChar c).fb = s.fb := by
  unfold Screen.putChar
  split_ifs <;> simp [List.replicate]

@[simp] theorem write_fb (text : List UInt8) : (s.write text).fb = s.fb := by
  unfold Screen.write
  induction text generalizing s with
  | nil => rfl
  | cons c text ih => rw [List.foldl_cons, ih, putChar_fb]

@[simp] theorem writeLine_fb (text : List UInt8) : (s.writeLine text).fb = s.fb := by
  rw [Screen.writeLine, newline_fb, write_fb]

end

/-- Append to a text of at most `capacity - 1` characters. -/
def appendText (capacity : ℕ) (text value : List UInt8) : List UInt8 :=
  value.foldl (fun text c => if text.length + 1 ≥ capacity then text else text ++ [c]) text

def digitLoop : ℕ → UInt32 → List UInt8
  | 0, _ => []
  | room + 1, value =>
    if value = 0 then [] else digitLoop room (value / 10) ++ [48 + (value % 10).toUInt8]

def decimal (value : UInt32) : List UInt8 := if value = 0 then [48] else digitLoop 10 value

def Screen.writeU32 (s : Screen) (value : UInt32) : Screen := s.write (decimal value)

@[simp] theorem writeU32_fb (s : Screen) (value : UInt32) : (s.writeU32 value).fb = s.fb :=
  write_fb s _

def statText (capacity : ℕ) (before : List UInt8) (value : UInt32) (after : List UInt8) :
    List UInt8 :=
  appendText capacity (appendText capacity (appendText capacity [] before) (decimal value)) after

example : decimal 4294967295 = ascii "4294967295" := by decide

end Hnmos.Surface
