import Mathlib
import Hnmos.Router

/-!
# The terminal

The terminal collects one line of at most 79 characters and runs it as a
command. Most commands only print; the assistant commands go through the
bridge and the leaving commands through the router.
-/

set_option autoImplicit false

namespace Hnmos
open Hnmos.CString Hnmos.Surface Hnmos.AiAssembly Hnmos.TaskScheduler Hnmos.Workspace
open Hnmos.Events Hnmos.AiBridge

/-- A command is its name, alone or followed by a space. -/
def commandMatches (command name : List UInt8) : Bool :=
  name.isPrefixOf command &&
    ((command.drop name.length).isEmpty || (command.drop name.length).head? == some 32)

def commandArgument (command name : List UInt8) : List UInt8 :=
  (command.drop name.length).dropWhile (· == 32)

/-- The path in an argument: absolute, up to the first space and cut at 63
characters. -/
def copyPath (argument : List UInt8) : List UInt8 :=
  if argument = [] then ascii "/"
  else
    let front := if argument.head? = some 47 then [] else ascii "/"
    (front ++ argument.takeWhile (· ≠ 32)).take 63

def printNodeLine (d : Screen) (node : Node) : Screen :=
  ((d.write node.type.name).write (ascii " ")).writeLine node.name

def printAiAssemblyProgram (d : Screen) (p : Program) : Screen :=
  let d := (d.writeLine p.machine.summary).writeLine (ascii "ai asm plan:")
  p.instructions.zipIdx.foldl (fun d (instruction, i) =>
    ((d.writeU32 (UInt32.ofNat i)).write (ascii " ")).writeLine instruction.1.name) d

def printSyncSnapshot (d : Screen) (s : SyncSnapshot) : Screen :=
  let d := (d.writeLine s.summary).writeLine s.gpuSummary
  let d := ((d.write (ascii "sync sequence: ")).writeU32 s.sequence).newline
  let d := (d.write (ascii "cpu fences: ")).writeU32 s.cpuFenceCount
  let d := (d.write (ascii " ram fences: ")).writeU32 s.ramFenceCount
  let d := ((d.write (ascii " fb barriers: ")).writeU32 s.gpuFenceCount).newline
  let d := (d.write (ascii "free pages: ")).writeU32 s.pmmFreePages
  let d := ((d.write (ascii " heap used: ")).writeU32 s.heapUsedBytes).newline
  let d := (d.write (ascii "framebuffer: ")).writeU32 s.framebufferWidth
  let d := (d.write (ascii "x")).writeU32 s.framebufferHeight
  ((d.write (ascii "x")).writeU32 s.framebufferBpp).newline

def System.terminalLs (s : System) (argument : List UInt8) : System :=
  let s := s.logLine (ascii "terminal command: ls")
  let path := copyPath argument
  match s.files.list path with
  | none =>
    (s.print fun d => (d.write (ascii "ls: not found: ")).writeLine path).terminalPrompt
  | some (nodes, truncated) =>
    let s := s.print fun d => (d.write path).writeLine (ascii ":")
    let s := if nodes = [] then s.writeLine (ascii "empty") else s
    let s := s.print fun d => nodes.foldl printNodeLine d
    let s := if truncated then s.writeLine (ascii "list truncated") else s
    s.terminalPrompt

def System.terminalCat (s : System) (argument : List UInt8) : System :=
  let s := s.logLine (ascii "terminal command: cat")
  if argument = [] then (s.writeLine (ascii "cat: missing path")).terminalPrompt
  else
    let path := copyPath argument
    match s.files.read path with
    | none =>
      (s.print fun d => (d.write (ascii "cat: not found: ")).writeLine path).terminalPrompt
    | some node =>
      if node.type ≠ .file then
        (s.print fun d => (d.write (ascii "cat: not a file: ")).writeLine path).terminalPrompt
      else
        let data := node.data.getD []
        if data ≠ [] then
          let s := s.print (·.write data)
          (if data.getLast? ≠ some 10 then s.print (·.newline) else s).terminalPrompt
        else (s.print (·.newline)).terminalPrompt

def printTaskLine (d : Screen) (task : Task) : Screen :=
  let d := (d.writeU32 task.id).write (ascii " ")
  let d := (d.write task.name).write (ascii " ")
  let d := (d.write task.state.name).write (ascii " yields ")
  (d.writeU32 task.yieldCount).newline

def System.terminalTasks (s : System) : System :=
  let s := (s.logLine (ascii "terminal command: tasks")).writeLine (ascii "tasks:")
  (s.print fun d =>
    let d := d.write (ascii "scheduler: ")
    let d := d.write (if s.scheduler.ready then ascii "ready" else ascii "not ready")
    let d := ((d.write (ascii " yields ")).writeU32 s.scheduler.yieldTotal).newline
    s.scheduler.registry.tasks.foldl printTaskLine d).terminalPrompt

def System.terminalSync (s : System) : System :=
  let s := s.logLine (ascii "terminal command: sync")
  let sync := s.sync.checkpoint s.memory s.display.fb
  ({ s with sync := sync }.print (printSyncSnapshot · sync)).terminalPrompt

def System.showResponse (s : System) (response : List UInt8) : System :=
  (s.writeLine response).logLine response

def System.showProvider (s : System) : System :=
  s.print fun d =>
    let d := (d.write (ascii "provider: ")).writeLine s.bridge.providerName
    (d.write (ascii "provider type: ")).writeLine s.bridge.providerTypeName

def System.showProgram (s : System) : System := s.print (printAiAssemblyProgram · s.program)

def System.showSyncSummary (s : System) : System :=
  match s.syncSummary with
  | (summary, s) => s.writeLine summary

def Kernel.showRequest (answer : List UInt8 × Kernel) (shown : System → System) : Kernel :=
  answer.2.onSystem fun s => (shown (s.showResponse answer.1)).terminalPrompt

def System.logAiCommand (s : System) (argument : List UInt8) : System :=
  (s.logText (ascii "terminal command: ai ")).logLine
    (if argument ≠ [] then argument else ascii "unknown")

def Kernel.runAi (k : Kernel) (argument : List UInt8) : Kernel :=
  if argument = ascii "help" then Kernel.showRequest k.requestHelp id
  else if argument = ascii "sysinfo" then Kernel.showRequest k.requestSysinfo id
  else if argument = ascii "status" then Kernel.showRequest k.requestStatus System.showProvider
  else if argument = ascii "asm" ∨ argument = ascii "assembly" then
    Kernel.showRequest k.requestAssembly System.showProgram
  else if argument = ascii "sync" then
    Kernel.showRequest k.requestSync fun s => s.showSyncSummary.showProgram
  else k.onSystem fun s => (s.writeLine terminalAiCommands).terminalPrompt

def Kernel.executeAi (k : Kernel) (argument : List UInt8) : Kernel :=
  (k.onSystem (·.logAiCommand argument)).runAi argument

def Kernel.returnToLauncher (k : Kernel) (command : List UInt8) : Kernel :=
  (k.onSystem fun s => (s.logText (ascii "terminal command: ")).logLine command).setScreen
    ScreenId.launcher.code

def System.terminalHelp (s : System) : System :=
  let s := s.logLine (ascii "terminal command: help")
  ((s.writeLine terminalCommands).writeLine terminalAiCommands).terminalPrompt

def System.terminalVersion (s : System) : System :=
  ((s.logLine (ascii "terminal command: version")).writeLine
    (ascii "HNMos v0.4 keyboard terminal")).terminalPrompt

def System.terminalClear (s : System) : System :=
  ((s.logLine (ascii "terminal command: clear")).print (·.clear)).terminalPrompt

def System.terminalHalt (s : System) : System :=
  ((s.logLine (ascii "terminal command: halt")).writeLine (ascii "halting")).halt

/-- The reset ends the run like a halt. -/
def System.terminalReboot (s : System) : System :=
  let s := (s.logLine (ascii "terminal command: reboot")).writeLine (ascii "rebooting")
  (s.logLine (ascii "terminal reboot: triple fault reset")).halt

def System.terminalUnknown (s : System) (command : List UInt8) : System :=
  let s := s.logLine (ascii "terminal command: unknown")
  (s.print fun d => (d.write (ascii "unknown command: ")).writeLine command).terminalPrompt

def System.executeLocal (s : System) (command : List UInt8) : System :=
  if command = ascii "tasks" then s.terminalTasks
  else if command = ascii "sync" then s.terminalSync
  else if commandMatches command (ascii "ls") then
    s.terminalLs (commandArgument command (ascii "ls"))
  else if commandMatches command (ascii "cat") then
    s.terminalCat (commandArgument command (ascii "cat"))
  else if command = ascii "version" then s.terminalVersion
  else if command = ascii "clear" then s.terminalClear
  else if command = ascii "halt" then s.terminalHalt
  else if command = ascii "reboot" then s.terminalReboot
  else s.terminalUnknown command

def Kernel.executeCommand (k : Kernel) (command : List UInt8) : Kernel :=
  if command = [] then k.onSystem System.terminalPrompt
  else if command = ascii "help" then k.onSystem System.terminalHelp
  else if commandMatches command (ascii "ai") then
    k.executeAi (commandArgument command (ascii "ai"))
  else if command = ascii "back" ∨ command = ascii "exit" ∨ command = ascii "launcher" then
    k.returnToLauncher command
  else k.onSystem (·.executeLocal command)

def System.clearInput (s : System) : System := { s with terminalInput := [] }

def Kernel.submitLine (k : Kernel) : Kernel :=
  let command := cstr k.system.terminalInput
  ((k.onSystem (·.print (·.newline))).executeCommand command).onSystem System.clearInput

def System.terminalHandleChar (s : System) (c : UInt8) : System :=
  if s.terminalInput.length + 1 ≥ 80 then s
  else { s with terminalInput := s.terminalInput ++ [c] }.print (·.putChar c)

def System.terminalHandleBackspace (s : System) : System :=
  if s.terminalInput = [] then s
  else { s with terminalInput := s.terminalInput.dropLast }.print (·.backspace)

def Kernel.terminalHandleEvent (k : Kernel) (event : UiEvent) : Kernel :=
  if event.type = .keyChar then k.onSystem (·.terminalHandleChar event.character)
  else if event.type = .keyDown ∧ event.keyCode = keyBackspace then
    k.onSystem System.terminalHandleBackspace
  else if event.type = .keyDown ∧ event.keyCode = keyEnter then k.submitLine
  else k

end Hnmos
