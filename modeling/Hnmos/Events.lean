import Mathlib
import Hnmos.CString

/-!
# Interface events and the keyboard

The events the drivers queue, and the keyboard driver that makes them from
scancodes: a printable key gives a key-down event and a character event, the
control keys a key-down event only.
-/

set_option autoImplicit false

namespace Hnmos.Events
open Hnmos.CString

inductive EventType where
  | none | keyDown | keyChar | mouseMove | mouseButtonDown | mouseButtonUp
  deriving DecidableEq, Repr

def keyNone : UInt32 := 0
def keyEnter : UInt32 := 13
def keyBackspace : UInt32 := 8
def keyEscape : UInt32 := 27
def keyF1 : UInt32 := 0x3B

def mouseButtonLeft : UInt8 := 1
def mouseButtonRight : UInt8 := 2
def mouseButtonMiddle : UInt8 := 3

structure UiEvent where
  type : EventType
  sequence : UInt32
  x : UInt32
  y : UInt32
  dx : Int32
  dy : Int32
  keyCode : UInt32
  scancode : UInt8
  button : UInt8
  buttons : UInt8
  character : UInt8
  deriving DecidableEq

def UiEvent.init (type : EventType) : UiEvent where
  type := type
  sequence := 0
  x := 0
  y := 0
  dx := 0
  dy := 0
  keyCode := keyNone
  scancode := 0
  button := 0
  buttons := 0
  character := 0

/-- Consecutive scancodes and the characters on their keys. -/
def keymapRow (first : UInt8) (keys : String) : List (UInt8 × UInt8) :=
  (ascii keys).zipIdx.map fun (c, i) => (first + UInt8.ofNat i, c)

def keymap : List (UInt8 × UInt8) :=
  keymapRow 0x02 "1234567890-=" ++ keymapRow 0x10 "qwertyuiop" ++ keymapRow 0x1E "asdfghjkl" ++
    keymapRow 0x2C "zxcvbnm" ++ keymapRow 0x34 "./" ++ keymapRow 0x39 " "

def scancodeToChar (scancode : UInt8) : UInt8 := (keymap.lookup scancode).getD 0

def applyShift (shiftPressed : Bool) (c : UInt8) : UInt8 :=
  if shiftPressed = false then c
  else if 97 ≤ c ∧ c ≤ 122 then c - 32
  else if c = 45 then 95
  else if c = 61 then 43
  else c

def keyDown (scancode : UInt8) (keyCode : UInt32) (c : UInt8) : UiEvent :=
  { UiEvent.init .keyDown with scancode := scancode, keyCode := keyCode, character := c }

def keyChar (scancode : UInt8) (c : UInt8) : UiEvent :=
  { UiEvent.init .keyChar with scancode := scancode, keyCode := c.toUInt32, character := c }

/-- The shift state after a scancode and the events pushed for it. -/
def handleScancode (shiftPressed : Bool) (scancode : UInt8) : Bool × List UiEvent :=
  if scancode &&& 0x80 ≠ 0 then
    let released := scancode &&& 0x7F
    (if released = 0x2A ∨ released = 0x36 then false else shiftPressed, [])
  else if scancode = 0x2A ∨ scancode = 0x36 then (true, [])
  else if scancode = 0x1C then (shiftPressed, [keyDown scancode keyEnter 10])
  else if scancode = 0x0E then (shiftPressed, [keyDown scancode keyBackspace 8])
  else if scancode = 0x01 then (shiftPressed, [keyDown scancode keyEscape 0])
  else if scancode = 0x3B then (shiftPressed, [keyDown scancode keyF1 0])
  else
    let c := applyShift shiftPressed (scancodeToChar scancode)
    if c ≠ 0 then (shiftPressed, [keyDown scancode c.toUInt32 c, keyChar scancode c])
    else (shiftPressed, [])

def Producible (c : UInt8) : Prop :=
  ∃ shiftPressed scancode, c = applyShift shiftPressed (scancodeToChar scancode) ∧ c ≠ 0 ∧ c ≠ 32

instance (c : UInt8) : Decidable (Producible c) :=
  decidable_of_iff (∃ shiftPressed ∈ [false, true], ∃ scancode : Fin 256,
    c = applyShift shiftPressed (scancodeToChar (UInt8.ofNat scancode.val)) ∧ c ≠ 0 ∧ c ≠ 32) (by
      constructor
      · rintro ⟨shiftPressed, -, scancode, h⟩
        exact ⟨shiftPressed, UInt8.ofNat scancode.val, h⟩
      · rintro ⟨shiftPressed, scancode, h⟩
        refine ⟨shiftPressed, by cases shiftPressed <;> simp,
          ⟨scancode.toNat, scancode.toNat_lt⟩, ?_⟩
        simpa using h)

theorem keymap_char (scancode : UInt8) :
    scancodeToChar scancode = 0 ∨ scancodeToChar scancode ∈ keymap.map Prod.snd := by
  unfold scancodeToChar
  cases h : keymap.lookup scancode with
  | none => exact Or.inl rfl
  | some c =>
    right
    obtain ⟨front, back, hsplit, -⟩ := List.lookup_eq_some_iff.mp h
    rw [hsplit]
    simp

/-- The keys give printable characters, and none of them is mistaken for a
control key: not for F1, whose code is the character 59. -/
theorem producible_range (c : UInt8) (h : Producible c) :
    33 ≤ c.toNat ∧ c.toNat ≤ 126 ∧ c.toUInt32 ≠ keyF1 := by
  obtain ⟨shiftPressed, scancode, rfl, hne, hspace⟩ := h
  -- a boolean test of the whole table
  have hall : [false, true].all (fun shiftPressed => (keymap.map Prod.snd).all fun c =>
      decide (applyShift shiftPressed c ≠ 32 → 33 ≤ (applyShift shiftPressed c).toNat ∧
        (applyShift shiftPressed c).toNat ≤ 126 ∧
        (applyShift shiftPressed c).toUInt32 ≠ keyF1)) = true := by
    decide
  simp only [List.all_eq_true, decide_eq_true_eq] at hall
  rcases keymap_char scancode with hzero | hmem
  · rw [hzero] at hne
    cases shiftPressed <;> simp [applyShift] at hne
  · exact hall shiftPressed (by cases shiftPressed <;> simp) _ hmem hspace

end Hnmos.Events
