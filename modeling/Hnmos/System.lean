import Mathlib
import Hnmos.AiBridge
import Hnmos.AiSession
import Hnmos.AiAssembly
import Hnmos.TaskScheduler
import Hnmos.Widgets
import Hnmos.Workspace

/-!
# The state of the kernel

`System` is everything the interface works on except the credential session
and the second serial port; most of the code is a function of `System` alone
and cannot touch the other two. `Kernel` adds them. Requests go through the
bridge, log what they do and derive the assembly program. `hooks` records the
screen hooks in the order they were run.
-/

set_option autoImplicit false

namespace Hnmos
open Hnmos.CString Hnmos.Task Hnmos.SerialPort Hnmos.SerialTransport Hnmos.AiBridge
open Hnmos.AiSession Hnmos.AiAssembly Hnmos.TaskScheduler Hnmos.Surface Hnmos.Widgets
open Hnmos.Workspace

inductive ScreenId where
  | launcher | terminal | system | memory | aiStudio
  deriving DecidableEq, Repr

def ScreenId.code : ScreenId → UInt32
  | .launcher => 0
  | .terminal => 1
  | .system => 2
  | .memory => 3
  | .aiStudio => 4

def ScreenId.name : ScreenId → List UInt8
  | .launcher => ascii "Launcher"
  | .terminal => ascii "Terminal"
  | .system => ascii "System"
  | .memory => ascii "Memory"
  | .aiStudio => ascii "AI Studio"

inductive LauncherItem where
  | terminal | system | memory | ai | shutdown
  deriving DecidableEq

def LauncherItem.all : List LauncherItem := [.terminal, .system, .memory, .ai, .shutdown]

structure Launcher where
  items : LauncherItem → Button
  pressedIndex : Option LauncherItem
  ready : Bool

inductive StudioButton where
  | subscription | apiKey | generate | review | build
  deriving DecidableEq

def StudioButton.all : List StudioButton := [.subscription, .apiKey, .generate, .review, .build]

structure Studio where
  buttons : StudioButton → Button
  pressedIndex : Option StudioButton
  ready : Bool
  activity : List UInt8
  prompt : CText 160
  savedTaskId : UInt32
  capturingPrompt : Bool

inductive ScreenHook where
  | enter (screen : ScreenId)
  | exit (screen : ScreenId)
  deriving DecidableEq

structure System where
  display : Screen
  log : List UInt8
  bridge : Bridge
  program : Program
  transport : Transport
  files : Files
  sync : SyncSnapshot
  scheduler : Scheduler
  memory : MemoryStats
  registers : Registers
  mouseReady : Bool
  halted : Bool
  current : ScreenId
  routerReady : Bool
  hooks : List ScreenHook
  launcher : Launcher
  terminalInput : List UInt8
  studio : Studio

structure Kernel where
  system : System
  session : Session
  port : Uart

def System.logText (s : System) (text : List UInt8) : System := { s with log := s.log ++ text }

def System.logLine (s : System) (text : List UInt8) : System := s.logText (text ++ [10])

def System.draw (s : System) (ops : List DrawOp) : System :=
  { s with display := s.display.draw ops }

def System.print (s : System) (change : Screen → Screen) : System :=
  { s with display := change s.display }

def System.writeLine (s : System) (text : List UInt8) : System := s.print (·.writeLine text)

def System.halt (s : System) : System := { s with halted := true }

def Kernel.onSystem (k : Kernel) (change : System → System) : Kernel :=
  { k with system := change k.system }

def System.recordSubmission (s : System) (task : AiTask) : System :=
  let built := Program.build s.registers s.memory s.display.fb s.sync task
  let s := { s with program := built.1, sync := built.2 }
  let s := s.logText (ascii "ai bridge: submit " ++ task.taskType.name ++ ascii " context ")
  let s := s.logLine (contextSummary task.contextFlags)
  s.logLine (ascii "ai bridge: " ++ s.program.machine.summary)

def Kernel.submit (k : Kernel) (taskType : TaskType) (input : Option (List UInt8))
    (contextFlags : UInt32) : Bool × Kernel :=
  let bridge := k.system.bridge
  match bridge.route taskType with
  | none => (false, k)
  | some _ =>
    let system := k.system.recordSubmission (bridge.prepared taskType input contextFlags)
    match bridge.submit k.system.transport k.port taskType input contextFlags with
    | (accepted, bridge, port) =>
      (accepted, { k with system := { system with bridge := bridge }, port := port })

def System.poll (s : System) (arrived : List UInt8) : Bool × System :=
  match s.bridge.poll s.transport arrived with
  | (answered, bridge, transport) =>
    (answered, { s with bridge := bridge, transport := transport })

def System.cancelTask (s : System) : Bool × System :=
  (s.bridge.cancel.1, { s with bridge := s.bridge.cancel.2 })

def Kernel.request (k : Kernel) (taskType : TaskType) (input : List UInt8)
    (contextFlags : UInt32) (failed : List UInt8) : List UInt8 × Kernel :=
  match k.submit taskType (some input) contextFlags with
  | (false, k) => (failed, k)
  | (true, k) =>
    let k := k.onSystem fun s => (s.poll []).2
    (k.system.bridge.result, k)

def Kernel.requestHelp (k : Kernel) : List UInt8 × Kernel :=
  k.request .help (ascii "ai help") 1 (ascii "AI bridge: help request submit failed.")

def Kernel.requestAssembly (k : Kernel) : List UInt8 × Kernel :=
  k.request .assembly (ascii "ai asm") 32 (ascii "AI bridge: assembly request submit failed.")

def Kernel.requestSync (k : Kernel) : List UInt8 × Kernel :=
  k.request .sync (ascii "ai sync") (32 ||| 64)
    (ascii "AI bridge: sync request submit failed.")

def Kernel.requestSysinfo (k : Kernel) : List UInt8 × Kernel :=
  k.request .sysinfo (ascii "ai sysinfo") 1
    (ascii "AI bridge: sysinfo request submit failed.")

def Kernel.requestStatus (k : Kernel) : List UInt8 × Kernel :=
  k.request .status (ascii "ai status") 1 (ascii "AI bridge: status request submit failed.")

def System.syncSummary (s : System) : List UInt8 × System :=
  let sync := s.sync.capture s.memory s.display.fb
  (sync.summary, { s with sync := sync, program := { s.program with sync := sync } })

end Hnmos
