import Mathlib
import Hnmos.InputDispatcher

/-!
# The core of the kernel

`Core` keeps what the requests, the credential and the draft depend on and
drops what is only shown. Every input amounts to a short list of acts on the
core; `Kernel.acts` says which, and `step_core` that the kernel's step is the
run of these acts. What all runs of the kernel have in common can then be
proved one act at a time.
-/

set_option autoImplicit false

namespace Hnmos
open Hnmos.CString Hnmos.Task Hnmos.SerialPort Hnmos.SerialTransport Hnmos.AiBridge
open Hnmos.AiSession Hnmos.Workspace Hnmos.Events Hnmos.Transition Hnmos.Surface
open Hnmos.Widgets

structure Core where
  session : Session
  port : Uart
  transport : Transport
  bridge : Bridge
  files : Files
  prompt : CText 160
  savedTaskId : UInt32
  capturingPrompt : Bool
  renders : Bool
  current : ScreenId
  hooks : List ScreenHook
  halted : Bool

def Kernel.core (k : Kernel) : Core where
  session := k.session
  port := k.port
  transport := k.system.transport
  bridge := k.system.bridge
  files := k.system.files
  prompt := k.system.studio.prompt
  savedTaskId := k.system.studio.savedTaskId
  capturingPrompt := k.system.studio.capturingPrompt
  renders := k.system.studioReady
  current := k.system.current
  hooks := k.system.hooks
  halted := k.system.halted

inductive Act where
  | subscription
  | apiKey
  | generate
  | secretChar (c : UInt8)
  | secretBackspace
  | secretEnter
  | promptChar (c : UInt8)
  | promptBackspace
  | promptEnter
  | cancelTask
  | sync
  | goto (screen : ScreenId)
  | request (taskType : TaskType) (input : List UInt8) (contextFlags : UInt32)
  | poll (arrived : List UInt8)
  | receive (arrived : List UInt8)
  | halt

/-- A provider result that is to be written to the workspace. -/
def Core.unsaved (c : Core) : Bool :=
  c.bridge.lastTask.taskType == .hnlang && c.bridge.lastTask.taskId != 0 &&
    c.bridge.lastTask.status == .done && c.bridge.lastTask.taskId != c.savedTaskId

def Core.sync (c : Core) : Core :=
  if c.renders = true ∧ c.unsaved = true ∧
      (c.files.writeHnlangDraft mainPath c.bridge.lastTask.output.chars).1 = true then
    { c with
      files := (c.files.writeHnlangDraft mainPath c.bridge.lastTask.output.chars).2
      savedTaskId := c.bridge.lastTask.taskId }
  else c

def Core.cancelCapture (c : Core) : Core :=
  if c.session.isCapturingSecret then { c with session := c.session.cancel } else c

def Core.submit (c : Core) (taskType : TaskType) (input : List UInt8)
    (contextFlags : UInt32) : Bool × Core :=
  match c.bridge.submit c.transport c.port taskType (some input) contextFlags with
  | (accepted, bridge, port) => (accepted, { c with bridge := bridge, port := port })

def Core.poll (c : Core) (arrived : List UInt8) : Core :=
  match c.bridge.poll c.transport arrived with
  | (_, bridge, transport) => { c with bridge := bridge, transport := transport }

def Core.leave (c : Core) : Core :=
  if c.current = .aiStudio then { c.cancelCapture with capturingPrompt := false } else c

def Core.exitHook (c : Core) (screen : ScreenId) : Core :=
  { c with hooks := c.hooks ++ [.exit screen] }

def Core.enter (c : Core) (screen : ScreenId) : Core :=
  { c with current := screen, hooks := c.hooks ++ [.enter screen] }

def Core.act (c : Core) : Act → Core
  | .subscription =>
    { c with capturingPrompt := false, session := c.session.beginSubscriptionLogin }
  | .apiKey => { c with capturingPrompt := false, session := c.session.beginApiKey }
  | .generate =>
    if c.bridge.lastTask.status = .running then c
    else { c.cancelCapture with prompt := CText.empty 160 input_room, capturingPrompt := true }
  | .secretChar ch => { c with session := (c.session.captureCharacter ch).2 }
  | .secretBackspace => { c with session := c.session.backspace }
  | .secretEnter =>
    { c with
      session := (c.session.submitApiKey c.transport c.port).1
      port := (c.session.submitApiKey c.transport c.port).2 }
  | .promptChar ch => { c with prompt := Hnmos.promptChar c.prompt ch }
  | .promptBackspace => { c with prompt := Hnmos.promptBackspace c.prompt }
  | .promptEnter =>
    if c.prompt.chars = [] then c
    else
      match c.submit .hnlang c.prompt.chars 16 with
      | (true, c) => { c with capturingPrompt := false }
      | (false, c) => c
  | .cancelTask => { c with bridge := c.bridge.cancel.2 }
  | .sync => c.sync
  | .goto screen => (c.leave.exitHook c.current).enter screen
  | .request taskType input contextFlags =>
    match c.submit taskType input contextFlags with
    | (true, c) => c.poll []
    | (false, c) => c
  | .poll arrived => c.poll arrived
  | .receive arrived => { c with transport := c.transport.captureRx arrived }
  | .halt => { c with halted := true }

/-- Rendering matters only where it may save a result. -/
def renderActs (screen : ScreenId) : List Act := if screen = .aiStudio then [.sync] else []

def changeActs (next : ScreenId) : List Act :=
  .goto next :: renderActs next

def Kernel.setScreenActs (k : Kernel) (screenId : UInt32) : List Act :=
  if k.system.routerReady then
    match findScreen screenId with
    | none => []
    | some next =>
      if next = k.system.current then renderActs next else changeActs next
  else []

def Kernel.backActs (k : Kernel) : List Act :=
  if k.system.current = .launcher then [] else k.setScreenActs ScreenId.launcher.code

def pressAct : StudioButton → List Act
  | .subscription => [.subscription]
  | .apiKey => [.apiKey]
  | .generate => [.generate]
  | .review => []
  | .build => []

def Kernel.studioKeyDownActs (k : Kernel) (keyCode : UInt32) : List Act :=
  if keyCode = keyBackspace ∧ k.session.isCapturingSecret = true then [.secretBackspace, .sync]
  else if keyCode = keyBackspace ∧ k.system.studio.capturingPrompt = true then
    [.promptBackspace, .sync]
  else if keyCode = keyEnter ∧ k.session.isCapturingSecret = true then [.secretEnter, .sync]
  else if keyCode = keyEnter ∧ k.system.studio.capturingPrompt = true then
    [.promptEnter, .sync]
  else []

def commandActs (c : UInt8) : List Act :=
  if c = 108 then [.subscription, .sync]
  else if c = 107 then [.apiKey, .sync]
  else if c = 103 then [.generate, .sync]
  else if c = 114 then [.sync]
  else if c = 98 then [.sync]
  else if c = 120 then [.cancelTask, .sync]
  else []

def Kernel.studioKeyCharActs (k : Kernel) (c : UInt8) : List Act :=
  if k.session.isCapturingSecret then [.secretChar c, .sync]
  else if k.system.studio.capturingPrompt then [.promptChar c, .sync]
  else commandActs c

def Kernel.hoverActs (k : Kernel) (x y : UInt32) : List Act :=
  if k.system.studio.hoverChanges x y then [.sync] else []

def Kernel.releasedButton (k : Kernel) (x y : UInt32) : Option StudioButton :=
  match k.system.studio.pressedIndex with
  | none => none
  | some button => if (k.system.studio.buttons button).hitTest x y then some button else none

def Kernel.mouseUpActs (k : Kernel) (x y : UInt32) : List Act :=
  match k.releasedButton x y with
  | none => [.sync]
  | some button => pressAct button ++ [.sync]

def Kernel.studioActs (k : Kernel) (event : UiEvent) : List Act :=
  if k.system.studio.ready then
    match event.type with
    | .keyDown => k.studioKeyDownActs event.keyCode
    | .keyChar => k.studioKeyCharActs event.character
    | .mouseMove => k.hoverActs event.x event.y
    | .mouseButtonDown =>
      if event.button = mouseButtonLeft then k.hoverActs event.x event.y ++ [.sync] else []
    | .mouseButtonUp =>
      if event.button = mouseButtonLeft then k.mouseUpActs event.x event.y else []
    | .none => []
  else []

def itemActs (k : Kernel) : LauncherItem → List Act
  | .terminal => k.setScreenActs ScreenId.terminal.code
  | .system => k.setScreenActs ScreenId.system.code
  | .memory => k.setScreenActs ScreenId.memory.code
  | .ai => k.setScreenActs ScreenId.aiStudio.code
  | .shutdown => [.halt]

def Kernel.launcherShortcutActs (k : Kernel) (c : UInt8) : List Act :=
  if c = 49 then itemActs k .terminal
  else if c = 50 then itemActs k .system
  else if c = 51 then itemActs k .memory
  else if c = 52 then itemActs k .shutdown
  else if c = 53 then itemActs k .ai
  else []

/-- The item a release of the mouse activates; the hover update before the
test leaves the rectangles alone. -/
def Kernel.releasedItem (k : Kernel) (x y : UInt32) : Option LauncherItem :=
  match k.system.launcher.pressedIndex with
  | none => none
  | some item => if (k.system.launcher.items item).hitTest x y then some item else none

def Kernel.launcherActs (k : Kernel) (event : UiEvent) : List Act :=
  if k.system.launcher.ready then
    match event.type with
    | .keyChar => k.launcherShortcutActs event.character
    | .mouseButtonUp =>
      if event.button = mouseButtonLeft then
        match k.releasedItem event.x event.y with
        | none => []
        | some item => itemActs k item
      else []
    | _ => []
  else []

def aiActs (argument : List UInt8) : List Act :=
  if argument = ascii "help" then [.request .help (ascii "ai help") 1]
  else if argument = ascii "sysinfo" then [.request .sysinfo (ascii "ai sysinfo") 1]
  else if argument = ascii "status" then [.request .status (ascii "ai status") 1]
  else if argument = ascii "asm" ∨ argument = ascii "assembly" then
    [.request .assembly (ascii "ai asm") 32]
  else if argument = ascii "sync" then [.request .sync (ascii "ai sync") (32 ||| 64)]
  else []

def localActs (command : List UInt8) : List Act :=
  if command = ascii "halt" ∨ command = ascii "reboot" then [.halt] else []

def Kernel.commandActs (k : Kernel) (command : List UInt8) : List Act :=
  if command = [] then []
  else if command = ascii "help" then []
  else if commandMatches command (ascii "ai") then
    aiActs (commandArgument command (ascii "ai"))
  else if command = ascii "back" ∨ command = ascii "exit" ∨ command = ascii "launcher" then
    k.setScreenActs ScreenId.launcher.code
  else localActs command

def Kernel.terminalActs (k : Kernel) (event : UiEvent) : List Act :=
  if event.type = .keyChar then []
  else if event.type = .keyDown ∧ event.keyCode = keyBackspace then []
  else if event.type = .keyDown ∧ event.keyCode = keyEnter then
    k.commandActs (cstr k.system.terminalInput)
  else []

def Kernel.shortcutActs (k : Kernel) (event : UiEvent) : Option (List Act) :=
  if k.system.current = .terminal ∨ k.system.current = .launcher ∨
      k.system.current = .aiStudio ∨ event.type ≠ .keyChar then none
  else if event.character = 49 then some (k.setScreenActs ScreenId.terminal.code)
  else if event.character = 50 then some (k.setScreenActs ScreenId.system.code)
  else if event.character = 51 then some (k.setScreenActs ScreenId.memory.code)
  else if event.character = 52 then some [.halt]
  else if event.character = 53 then some (k.setScreenActs ScreenId.aiStudio.code)
  else none

def Kernel.screenActs (k : Kernel) (event : UiEvent) : List Act :=
  match k.system.current with
  | .launcher => k.launcherActs event
  | .terminal => k.terminalActs event
  | .system => []
  | .memory => []
  | .aiStudio => k.studioActs event

def Kernel.eventActs (k : Kernel) (event : UiEvent) : List Act :=
  if k.system.routerReady then
    if event.type = .keyDown ∧ event.keyCode = keyEscape ∧ k.system.current ≠ .launcher then
      k.backActs
    else if event.type = .keyDown ∧ event.keyCode = keyF1 then renderActs k.system.current
    else
      match k.shortcutActs event with
      | some acts => acts
      | none => k.screenActs event
  else []

def Kernel.pollActs (k : Kernel) (arrived : List UInt8) : List Act :=
  .poll arrived ::
    if (k.system.bridge.poll k.system.transport arrived).1 ∧ k.system.current = .aiStudio ∧
      k.system.routerReady then [.sync] else []

def Kernel.acts (k : Kernel) (input : Input) : List Act :=
  if k.system.halted then []
  else
    match input with
    | .event event => k.eventActs event
    | .service arrived => k.pollActs arrived
    | .receive arrived => [.receive arrived]

end Hnmos
