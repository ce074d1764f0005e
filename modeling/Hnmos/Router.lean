import Mathlib
import Hnmos.Screens
import Hnmos.AiStudio

/-!
# The screen router

The router owns the current screen. A change of screen runs the exit hook of
the old screen, then the entry hook of the new one, then renders it.
-/

set_option autoImplicit false

namespace Hnmos
open Hnmos.CString Hnmos.Surface Hnmos.Widgets Hnmos.Events

def routerScreens : List ScreenId := [.launcher, .terminal, .system, .memory, .aiStudio]

def findScreen (screenId : UInt32) : Option ScreenId :=
  routerScreens.find? fun screen => screen.code == screenId

@[simp] theorem findScreen_code (screen : ScreenId) : findScreen screen.code = some screen := by
  cases screen <;> rfl

def topBar (fb : Framebuffer) (screenName : List UInt8) : List DrawOp :=
  let theme := themeDefault
  fillRect 0 0 fb.width 84 theme.topBar ++
    fillRect 0 (84 - 2) fb.width 2 theme.border ++
    label 32 18 (ascii "HNMos") theme.text theme.topBar ++
    label 32 42 (ascii "Current screen:") theme.mutedText theme.topBar ++
    label 160 42 screenName theme.text theme.topBar ++
    label 256 42 (ascii "1 Terminal 2 System 3 Memory 5 AI Studio ESC Launcher F1 Help")
      theme.accentAlt theme.topBar ++
    label (if fb.width > 248 then fb.width - 248 else 32) 18 (ascii "tick: no timer yet")
      theme.mutedText theme.topBar

def System.renderTopBar (s : System) : System :=
  if s.display.fb.available then s.draw (topBar s.display.fb s.current.name) else s

def helpOverlay (fb : Framebuffer) : List DrawOp :=
  let theme := themeDefault
  let width := if fb.width > 24 * 2 then fb.width - 24 * 2 else fb.width
  let x := if fb.width > width then (fb.width - width) / 2 else 0
  let y := if fb.height > 84 + 24 then fb.height - 84 - 24 else 24
  Panel.render ⟨⟨x, y, width, 84⟩, theme.panel, theme.accentAlt⟩ ++
    label (x + 16) (y + 14) (ascii "Help") theme.text theme.panel ++
    label (x + 16) (y + 38)
      (ascii "Launcher: 1 Terminal 2 System 3 Memory 5 AI Studio 4 Shutdown") theme.mutedText
      theme.panel ++
    label (x + 16) (y + 60)
      (ascii "ESC returns to Launcher. Terminal commands: back exit launcher.")
      theme.accentAlt theme.panel

def System.renderHelpOverlay (s : System) : System :=
  if s.display.fb.available then s.draw (helpOverlay s.display.fb) else s

def Kernel.screenRender (k : Kernel) : ScreenId → Kernel
  | .launcher => k.onSystem System.renderLauncher
  | .terminal => k.onSystem System.terminalShowScreen
  | .system => k.onSystem System.renderSystem
  | .memory => k.onSystem System.renderMemory
  | .aiStudio => k.renderStudio

def System.recordHook (s : System) (hook : ScreenHook) : System :=
  { s with hooks := s.hooks ++ [hook] }

def Kernel.screenOnEnter (k : Kernel) (screen : ScreenId) : Kernel :=
  (k.onSystem fun s =>
    match screen with
    | .launcher => s.launcherOnEnter
    | .terminal => s.logLine (ascii "router: terminal screen entered.")
    | .system => s.logLine (ascii "router: system screen entered.")
    | .memory => s.logLine (ascii "router: memory screen entered.")
    | .aiStudio => s.studioOnEnter).onSystem (·.recordHook (.enter screen))

def Kernel.screenOnExit (k : Kernel) (screen : ScreenId) : Kernel :=
  (match screen with
    | .launcher => k.onSystem System.launcherOnExit
    | .terminal => k.onSystem (·.logLine (ascii "router: terminal screen exited."))
    | .system => k.onSystem (·.logLine (ascii "router: system screen exited."))
    | .memory => k.onSystem (·.logLine (ascii "router: memory screen exited."))
    | .aiStudio => k.studioOnExit).onSystem (·.recordHook (.exit screen))

def Kernel.renderCurrentScreen (k : Kernel) : Kernel :=
  if k.system.routerReady then
    let k :=
      if k.system.current ≠ .launcher ∧ k.system.current ≠ .terminal then
        k.onSystem System.renderTopBar
      else k
    k.screenRender k.system.current
  else k

def System.setCurrent (s : System) (screen : ScreenId) : System := { s with current := screen }

def Kernel.changeScreen (k : Kernel) (next : ScreenId) : Kernel :=
  let k := k.screenOnExit k.system.current
  let k := k.onSystem (·.setCurrent next)
  (k.screenOnEnter next).renderCurrentScreen

def Kernel.setScreen (k : Kernel) (screenId : UInt32) : Kernel :=
  if k.system.routerReady then
    match findScreen screenId with
    | none => k.onSystem (·.logLine (ascii "router: invalid screen requested."))
    | some next =>
      if next = k.system.current then k.renderCurrentScreen else k.changeScreen next
  else k

def Kernel.back (k : Kernel) : Kernel :=
  if k.system.current = .launcher then k.renderCurrentScreen
  else k.setScreen ScreenId.launcher.code

/-- The other screens have nothing to initialise. -/
def Kernel.routerInit (k : Kernel) : Kernel :=
  let k := (k.onSystem System.launcherInit).studioInit
  let k := k.onSystem fun s => { s with current := .launcher, routerReady := true, hooks := [] }
  let k := (k.screenOnEnter .launcher).renderCurrentScreen
  k.onSystem (·.logLine (ascii "router: screen router ready."))

end Hnmos
