import Mathlib
import Hnmos.Terminal
import Hnmos.LauncherScreen

/-!
# Dispatching events and the main loop

Each queued event is shown in the corner, unless a secret is being typed, and
then handed to the router: escape, help and the global shortcuts first, the
current screen after them. An iteration of the main loop dispatches the
queued events, polls the bridge and yields.
-/

set_option autoImplicit false

namespace Hnmos
open Hnmos.CString Hnmos.Surface Hnmos.Events Hnmos.TaskScheduler Hnmos.Transition
open Hnmos.AiAssembly Hnmos.AiBridge Hnmos.SerialTransport Hnmos.Workspace

def buttonText (button : UInt8) : List UInt8 :=
  if button = mouseButtonLeft then ascii " left"
  else if button = mouseButtonRight then ascii " right"
  else if button = mouseButtonMiddle then ascii " middle"
  else []

def eventText (event : UiEvent) : List UInt8 :=
  match event.type with
  | .keyChar =>
    appendText 64 (appendText 64 [] (ascii "event key char "))
      (if event.character = 32 then ascii "space" else [event.character])
  | .keyDown => appendText 64 [] (ascii "event key down")
  | .mouseMove =>
    appendText 64 (statText 64 (ascii "event mouse move ") event.x (ascii " ")) (decimal event.y)
  | .mouseButtonDown =>
    appendText 64 (appendText 64 [] (ascii "event button down")) (buttonText event.button)
  | .mouseButtonUp =>
    appendText 64 (appendText 64 [] (ascii "event button up")) (buttonText event.button)
  | .none => appendText 64 [] (ascii "event none")

def recentEvent (fb : Framebuffer) (event : UiEvent) : List DrawOp :=
  let background := colorRgb 15 24 36
  let panelX := if fb.width > 320 + 8 * 2 then fb.width - 320 - 8 else 8
  fillRect panelX 36 320 20 background ++ drawRect panelX 36 320 20 (colorRgb 132 122 255) ++
    drawString (panelX + 8) 42 (cstr (eventText event)) (colorRgb 232 238 245) background

def System.drawRecentEvent (s : System) (event : UiEvent) : System :=
  if s.display.fb.available then s.draw (recentEvent s.display.fb event) else s

def Kernel.globalShortcut (k : Kernel) (event : UiEvent) : Option Kernel :=
  if k.system.current = .terminal ∨ k.system.current = .launcher ∨
      k.system.current = .aiStudio ∨ event.type ≠ .keyChar then none
  else if event.character = 49 then some (k.setScreen ScreenId.terminal.code)
  else if event.character = 50 then some (k.setScreen ScreenId.system.code)
  else if event.character = 51 then some (k.setScreen ScreenId.memory.code)
  else if event.character = 52 then
    some (k.onSystem fun s => (s.logLine (ascii "router: shutdown shortcut selected.")).halt)
  else if event.character = 53 then some (k.setScreen ScreenId.aiStudio.code)
  else none

def Kernel.screenHandleEvent (k : Kernel) (event : UiEvent) : Kernel :=
  match k.system.current with
  | .launcher => k.launcherHandleEvent event
  | .terminal => k.terminalHandleEvent event
  | .system => k
  | .memory => k
  | .aiStudio => k.studioHandleEvent event

def Kernel.dispatchEventToCurrentScreen (k : Kernel) (event : UiEvent) : Kernel :=
  if k.system.routerReady then
    if event.type = .keyDown ∧ event.keyCode = keyEscape ∧ k.system.current ≠ .launcher then
      k.back
    else if event.type = .keyDown ∧ event.keyCode = keyF1 then
      k.renderCurrentScreen.onSystem System.renderHelpOverlay
    else
      match k.globalShortcut event with
      | some k => k
      | none => k.screenHandleEvent event
  else k

def Kernel.dispatchEvent (k : Kernel) (event : UiEvent) : Kernel :=
  let k :=
    if k.session.isCapturingSecret then k else k.onSystem (·.drawRecentEvent event)
  k.dispatchEventToCurrentScreen event

/-- Poll the bridge; a finished request is shown when AI Studio is open. -/
def Kernel.pollBridge (k : Kernel) (arrived : List UInt8) : Kernel :=
  match k.system.poll arrived with
  | (true, s) =>
    if s.current = .aiStudio then { k with system := s }.renderCurrentScreen
    else { k with system := s }
  | (false, s) => { k with system := s }

def System.yieldScheduler (s : System) : System := { s with scheduler := s.scheduler.yield }

def System.captureRx (s : System) (arrived : List UInt8) : System :=
  { s with transport := s.transport.captureRx arrived }

def System.startServices (s : System) : System :=
  let sync := (SyncSnapshot.init s.memory s.display.fb).capture s.memory s.display.fb
  { s with
    files := Files.init
    scheduler := Scheduler.init
    sync := sync
    bridge := Bridge.init
    transport := Transport.init
    program := Program.init s.registers sync
    halted := false }

/-- The state in which the main loop is entered, from whatever the memory
held. Without a framebuffer the kernel halts before it gets here. -/
def Kernel.boot (k : Kernel) : Kernel :=
  ((k.onSystem System.startServices).onSystem System.terminalInit).routerInit

/-- What the machine does next: an event taken from the queue, the poll at
the end of an iteration with the bytes waiting at the port, and the receive
interrupt between iterations. -/
inductive Input where
  | event (event : UiEvent)
  | service (arrived : List UInt8)
  | receive (arrived : List UInt8)

def Kernel.step (k : Kernel) (input : Input) : Kernel :=
  if k.system.halted then k
  else
    match input with
    | .event event => k.dispatchEvent event
    | .service arrived => (k.pollBridge arrived).onSystem System.yieldScheduler
    | .receive arrived => k.onSystem (·.captureRx arrived)

end Hnmos
