import Mathlib
import Hnmos.AiTask
import Hnmos.Surface

/-!
# Snapshots and assembly programs

What the kernel observes of itself when a request is made: the machine
registers, the synchronisation counters, and the short program derived from
the request. The program is shown and logged; it decides nothing.
-/

set_option autoImplicit false

namespace Hnmos.AiAssembly
open Hnmos.CString Hnmos.Task Hnmos.Surface

structure MemoryStats where
  pmmInitialized : Bool
  heapInitialized : Bool
  totalMemoryKib : UInt32
  usableMemoryKib : UInt32
  reservedMemoryKib : UInt32
  freePages : UInt32
  regionCount : UInt32
  heapUsedBytes : UInt32
  heapPageCount : UInt32
  heapSupportsFree : Bool

structure Registers where
  cr0 : UInt32
  eflags : UInt32

structure MachineSnapshot where
  stateFlags : UInt32
  cr0SafeBits : UInt32
  eflagsSafeBits : UInt32
  deriving DecidableEq

def machineCapture (r : Registers) : MachineSnapshot where
  stateFlags :=
    (if r.cr0 &&& 0x00000001 ≠ 0 then 1 else 0) |||
      (if r.cr0 &&& 0x80000000 ≠ 0 then 2 else 0) |||
      (if r.eflags &&& 0x00000200 ≠ 0 then 4 else 0)
  cr0SafeBits := r.cr0 &&& (0x00000001 ||| 0x80000000)
  eflagsSafeBits := r.eflags &&& 0x00000200

def MachineSnapshot.hasFlag (m : MachineSnapshot) (flag : UInt32) : Bool :=
  m.stateFlags &&& flag != 0

def MachineSnapshot.summary (m : MachineSnapshot) : List UInt8 :=
  match m.hasFlag 1, m.hasFlag 2, m.hasFlag 4 with
  | true, true, true => ascii "machine: protected on, paging on, irq on"
  | true, true, false => ascii "machine: protected on, paging on, irq off"
  | true, false, true => ascii "machine: protected on, paging off, irq on"
  | true, false, false => ascii "machine: protected on, paging off, irq off"
  | false, true, true => ascii "machine: protected off, paging on, irq on"
  | false, true, false => ascii "machine: protected off, paging on, irq off"
  | false, false, true => ascii "machine: protected off, paging off, irq on"
  | false, false, false => ascii "machine: protected off, paging off, irq off"

structure SyncSnapshot where
  sequence : UInt32
  stateFlags : UInt32
  cpuFenceCount : UInt32
  ramFenceCount : UInt32
  gpuFenceCount : UInt32
  pmmFreePages : UInt32
  heapUsedBytes : UInt32
  framebufferWidth : UInt32
  framebufferHeight : UInt32
  framebufferBpp : UInt32
  deriving DecidableEq

def syncCurrentFlags (memory : MemoryStats) (fb : Framebuffer) : UInt32 :=
  (1 ||| 16) ||| (if memory.pmmInitialized ∧ memory.heapInitialized then 2 else 0) |||
    (if fb.available then 4 else 0)

def SyncSnapshot.cpuRamFence (s : SyncSnapshot) : SyncSnapshot :=
  { s with cpuFenceCount := s.cpuFenceCount + 1, ramFenceCount := s.ramFenceCount + 1 }

def SyncSnapshot.gpuFence (s : SyncSnapshot) (fb : Framebuffer) : SyncSnapshot :=
  if fb.available then { s with gpuFenceCount := s.gpuFenceCount + 1 } else s

def SyncSnapshot.fullFence (s : SyncSnapshot) (fb : Framebuffer) : SyncSnapshot :=
  let s := s.cpuRamFence.gpuFence fb
  { s with sequence := s.sequence + 1 }

/-- The snapshot a capture stores and hands out. -/
def SyncSnapshot.capture (s : SyncSnapshot) (memory : MemoryStats) (fb : Framebuffer) :
    SyncSnapshot :=
  { s with
    stateFlags := syncCurrentFlags memory fb
    pmmFreePages := if memory.pmmInitialized then memory.freePages else 0
    heapUsedBytes := if memory.heapInitialized then memory.heapUsedBytes else 0
    framebufferWidth := if fb.available then fb.width else 0
    framebufferHeight := if fb.available then fb.height else 0
    framebufferBpp := if fb.available then fb.bpp.toUInt32 else 0 }

def SyncSnapshot.checkpoint (s : SyncSnapshot) (memory : MemoryStats) (fb : Framebuffer) :
    SyncSnapshot := (s.fullFence fb).capture memory fb

def SyncSnapshot.init (memory : MemoryStats) (fb : Framebuffer) : SyncSnapshot :=
  ({ sequence := 0, stateFlags := syncCurrentFlags memory fb, cpuFenceCount := 0,
     ramFenceCount := 0, gpuFenceCount := 0, pmmFreePages := 0, heapUsedBytes := 0,
     framebufferWidth := 0, framebufferHeight := 0, framebufferBpp := 0 } :
    SyncSnapshot).checkpoint memory fb

def SyncSnapshot.summary (s : SyncSnapshot) : List UInt8 :=
  match s.stateFlags &&& 2 != 0, s.stateFlags &&& 4 != 0 with
  | true, true => ascii "sync: cpu serialized, ram fenced, framebuffer writes ordered"
  | true, false => ascii "sync: cpu serialized, ram fenced, framebuffer unavailable"
  | false, true => ascii "sync: cpu serialized, ram pending, framebuffer writes ordered"
  | false, false => ascii "sync: cpu serialized, ram pending, framebuffer unavailable"

def SyncSnapshot.gpuSummary (s : SyncSnapshot) : List UInt8 :=
  if s.stateFlags &&& 8 ≠ 0 then ascii "gpu sync: driver completion fence ready"
  else if s.stateFlags &&& 4 ≠ 0 then ascii "framebuffer sync: cpu write barrier ready"
  else ascii "framebuffer sync: unavailable"

inductive Opcode where
  | nop | observeMachine | routeContext | boundTask | draftResponse | waitPermission
  | syncCpu | syncRam | syncGpu | returnResult
  deriving DecidableEq

def Opcode.name : Opcode → List UInt8
  | .observeMachine => ascii "observe_machine"
  | .routeContext => ascii "route_context"
  | .boundTask => ascii "bound_task"
  | .draftResponse => ascii "draft_response"
  | .waitPermission => ascii "wait_permission"
  | .syncCpu => ascii "sync_cpu"
  | .syncRam => ascii "sync_ram"
  | .syncGpu => ascii "sync_gpu"
  | .returnResult => ascii "return_result"
  | .nop => ascii "nop"

structure Program where
  taskType : TaskType
  contextFlags : UInt32
  machine : MachineSnapshot
  sync : SyncSnapshot
  instructions : List (Opcode × UInt32)
  deriving DecidableEq

def Program.append (p : Program) (opcode : Opcode) (operand : UInt32) : Program :=
  if p.instructions.length ≥ 6 then p
  else { p with instructions := p.instructions ++ [(opcode, operand)] }

def Program.init (registers : Registers) (sync : SyncSnapshot) : Program where
  taskType := .none
  contextFlags := 0
  machine := machineCapture registers
  sync := sync
  instructions := []

/-- Build the program for a task. A synchronisation request takes a
checkpoint on the way; the counters after the build are returned as well. -/
def Program.build (registers : Registers) (memory : MemoryStats) (fb : Framebuffer)
    (sync : SyncSnapshot) (task : AiTask) : Program × SyncSnapshot :=
  let sync := sync.capture memory fb
  let p := { Program.init registers sync with
    taskType := task.taskType, contextFlags := task.contextFlags }
  if task.taskType = .sync then
    let sync := sync.checkpoint memory fb
    let p := { p with sync := sync }
    let p := p.append .observeMachine p.machine.stateFlags
    let p := p.append .syncCpu p.sync.cpuFenceCount
    let p := p.append .syncRam p.sync.ramFenceCount
    let p := p.append .syncGpu p.sync.gpuFenceCount
    let p := p.append .routeContext task.contextFlags
    (p.append .returnResult 0, sync)
  else
    let p := p.append .observeMachine p.machine.stateFlags
    let p := p.append .routeContext task.contextFlags
    let p := p.append .boundTask task.taskType.code.toUInt32
    let p := p.append .draftResponse 0
    let p := p.append .waitPermission 0
    (p.append .returnResult 0, sync)

def contextSummary (contextFlags : UInt32) : List UInt8 :=
  if contextFlags = 0 then ascii "none"
  else if contextFlags &&& 16 ≠ 0 then ascii "hnlang task"
  else if contextFlags &&& 64 ≠ 0 then ascii "sync state"
  else if contextFlags &&& 32 ≠ 0 then ascii "machine state"
  else if contextFlags &&& 1 ≠ 0 then ascii "system info"
  else if contextFlags &&& 2 ≠ 0 then ascii "memory info"
  else if contextFlags &&& 4 ≠ 0 then ascii "graphics info"
  else if contextFlags &&& 8 ≠ 0 then ascii "input info"
  else ascii "mixed"

end Hnmos.AiAssembly
