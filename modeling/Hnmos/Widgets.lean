import Mathlib
import Hnmos.Surface

/-!
# Widgets

Rectangles, buttons, panels, windows and the colours they share. A widget is
a record of its geometry and colours; rendering it gives drawing operations.
-/

set_option autoImplicit false

namespace Hnmos.Widgets
open Hnmos.CString Hnmos.Surface

structure Theme where
  background : Color
  topBar : Color
  panel : Color
  panelAlt : Color
  border : Color
  accent : Color
  accentAlt : Color
  text : Color
  mutedText : Color
  button : Color
  buttonHover : Color
  buttonPressed : Color
  buttonText : Color

def themeDefault : Theme where
  background := 0x060A10
  topBar := 0x0F1824
  panel := 0x101C29
  panelAlt := 0x162435
  border := 0x43DCD2
  accent := 0x847AFF
  accentAlt := 0x6AE88B
  text := 0xE8EEF5
  mutedText := 0x94A6B2
  button := 0x1B2F44
  buttonHover := 0x244965
  buttonPressed := 0x43DCD2
  buttonText := 0xE8EEF5

structure Rect where
  x : UInt32
  y : UInt32
  width : UInt32
  height : UInt32
  deriving DecidableEq

def Rect.hits (rect : Rect) (x y : UInt32) : Bool :=
  if rect.width = 0 ∨ rect.height = 0 then false
  else
    let endX := rect.x + rect.width
    let endY := rect.y + rect.height
    if endX < rect.x ∨ endY < rect.y then false
    else decide (x ≥ rect.x) && decide (x < endX) && decide (y ≥ rect.y) && decide (y < endY)

structure Button where
  rect : Rect
  text : List UInt8
  normalBackground : Color
  hoverBackground : Color
  pressedBackground : Color
  border : Color
  textColor : Color
  hovered : Bool
  pressed : Bool
  deriving DecidableEq

def Button.zero : Button := ⟨⟨0, 0, 0, 0⟩, [], 0, 0, 0, 0, 0, false, false⟩

def Button.background (b : Button) : Color :=
  if b.pressed then b.pressedBackground
  else if b.hovered then b.hoverBackground
  else b.normalBackground

def Button.render (b : Button) : List DrawOp :=
  let textWidth := stringWidth b.text
  let textX :=
    if b.rect.width > textWidth then b.rect.x + (b.rect.width - textWidth) / 2 else b.rect.x + 8
  let textY := b.rect.y + (b.rect.height - 8) / 2
  fillRect b.rect.x b.rect.y b.rect.width b.rect.height b.background ++
    drawRect b.rect.x b.rect.y b.rect.width b.rect.height b.border ++
    drawString textX textY b.text b.textColor b.background

def Button.hitTest (b : Button) (x y : UInt32) : Bool := b.rect.hits x y

/-- Place a button in the colours of the theme; its state stays. -/
def Button.place (b : Button) (x y width height : UInt32) (text : List UInt8) : Button :=
  { b with
    rect := ⟨x, y, width, height⟩
    text := text
    normalBackground := themeDefault.button
    hoverBackground := themeDefault.buttonHover
    pressedBackground := themeDefault.buttonPressed
    border := themeDefault.border
    textColor := themeDefault.buttonText }

def label (x y : UInt32) (text : List UInt8) (foreground background : Color) : List DrawOp :=
  drawString x y text foreground background

structure Panel where
  rect : Rect
  background : Color
  border : Color

def Panel.render (p : Panel) : List DrawOp :=
  fillRect p.rect.x p.rect.y p.rect.width p.rect.height p.background ++
    drawRect p.rect.x p.rect.y p.rect.width p.rect.height p.border

structure Window where
  rect : Rect
  title : List UInt8
  titleBackground : Color
  titleText : Color
  bodyBackground : Color
  border : Color

def windowTitleHeight : UInt32 := 24

def Window.render (w : Window) : List DrawOp :=
  let bodyY := w.rect.y + windowTitleHeight
  let bodyHeight :=
    if w.rect.height > windowTitleHeight then w.rect.height - windowTitleHeight else 0
  fillRect w.rect.x w.rect.y w.rect.width windowTitleHeight w.titleBackground ++
    fillRect w.rect.x bodyY w.rect.width bodyHeight w.bodyBackground ++
    drawRect w.rect.x w.rect.y w.rect.width w.rect.height w.border ++
    drawString (w.rect.x + 8) (w.rect.y + 8) w.title w.titleText w.titleBackground

end Hnmos.Widgets
