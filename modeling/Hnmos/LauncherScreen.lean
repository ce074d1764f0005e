import Mathlib
import Hnmos.Router

/-!
# The launcher's events

Shortcuts and buttons open a screen or halt the machine.
-/

set_option autoImplicit false

namespace Hnmos
open Hnmos.CString Hnmos.Surface Hnmos.Widgets Hnmos.Events

def System.setLauncherPressed (s : System) (pressedIndex : Option LauncherItem) : System :=
  { s with launcher := { s.launcher with pressedIndex := pressedIndex } }

def openedText : ScreenId → Option (List UInt8)
  | .terminal => some (ascii "launcher: terminal screen opened.")
  | .system => some (ascii "launcher: system screen opened.")
  | .memory => some (ascii "launcher: memory screen opened.")
  | .aiStudio => some (ascii "launcher: AI Studio opened.")
  | .launcher => none

def Kernel.launcherOpen (k : Kernel) (screen : ScreenId) : Kernel :=
  let k := (k.onSystem (·.setLauncherPressed none)).setScreen screen.code
  match openedText screen with
  | none => k
  | some text => k.onSystem (·.logLine text)

def System.launcherShutdown (s : System) : System :=
  (s.logLine (ascii "launcher: shutdown selected.")).halt

def Kernel.activateItem (k : Kernel) : LauncherItem → Kernel
  | .terminal => k.launcherOpen .terminal
  | .system => k.launcherOpen .system
  | .memory => k.launcherOpen .memory
  | .ai => k.launcherOpen .aiStudio
  | .shutdown => k.onSystem System.launcherShutdown

def Kernel.launcherShortcut (k : Kernel) (c : UInt8) : Kernel :=
  if c = 49 then k.launcherOpen .terminal
  else if c = 50 then k.launcherOpen .system
  else if c = 51 then k.launcherOpen .memory
  else if c = 52 then k.onSystem System.launcherShutdown
  else if c = 53 then k.launcherOpen .aiStudio
  else k

def System.drawLauncherItems (s : System) : System := s.draw s.launcher.renderItems

def System.launcherUpdateHover (s : System) (x y : UInt32) : System :=
  let changed := LauncherItem.all.any fun i =>
    (s.launcher.items i).hovered != (s.launcher.items i).hitTest x y
  let s := { s with launcher := { s.launcher with
    items := fun i =>
      { s.launcher.items i with hovered := (s.launcher.items i).hitTest x y } } }
  if changed then s.drawLauncherItems else s

def System.launcherMouseDown (s : System) (x y : UInt32) : System :=
  let s := (s.setLauncherPressed none).launcherUpdateHover x y
  let items := s.launcher.items
  let changed := LauncherItem.all.any fun i => (items i).pressed != (items i).hovered
  let s := { s with launcher := { s.launcher with
    items := fun i => { items i with pressed := (items i).hovered }
    pressedIndex := LauncherItem.all.foldl
      (fun found i => if (items i).hovered then some i else found) s.launcher.pressedIndex } }
  if changed then s.drawLauncherItems else s

def System.launcherRelease (s : System) : System :=
  { s with launcher := { s.launcher with
      items := fun i => { s.launcher.items i with pressed := false } } }

def Kernel.launcherMouseUp (k : Kernel) (x y : UInt32) : Kernel :=
  let pressedIndex := k.system.launcher.pressedIndex
  let k := k.onSystem fun s =>
    ((s.setLauncherPressed none).launcherUpdateHover x y).launcherRelease
  match pressedIndex with
  | none => k.onSystem System.drawLauncherItems
  | some item =>
    if (k.system.launcher.items item).hitTest x y then k.activateItem item
    else k.onSystem System.drawLauncherItems

def Kernel.launcherHandleEvent (k : Kernel) (event : UiEvent) : Kernel :=
  if k.system.launcher.ready then
    match event.type with
    | .keyChar => k.launcherShortcut event.character
    | .mouseMove => k.onSystem (·.launcherUpdateHover event.x event.y)
    | .mouseButtonDown =>
      if event.button = mouseButtonLeft then k.onSystem (·.launcherMouseDown event.x event.y)
      else k
    | .mouseButtonUp =>
      if event.button = mouseButtonLeft then k.launcherMouseUp event.x event.y else k
    | _ => k
  else k

end Hnmos
