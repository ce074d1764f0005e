import Mathlib
import Hnmos.CString

/-!
# Assistant tasks

A task carries a bounded prompt, the language profile sent with it and a
bounded answer. Preparing a task overwrites every field of the single task
slot; setting the output cuts the text to what the slot can hold.
-/

set_option autoImplicit false

namespace Hnmos.Task
open Hnmos.CString

inductive TaskType where
  | none | help | sysinfo | status | assembly | sync | hnlang | generic
  deriving DecidableEq, Repr

inductive TaskStatus where
  | empty | pending | running | done | cancelled | error
  deriving DecidableEq, Repr

/-- The enumerator as it is sent in a request. -/
def TaskType.code : TaskType → UInt8
  | .none => 0
  | .help => 1
  | .sysinfo => 2
  | .status => 3
  | .assembly => 4
  | .sync => 5
  | .hnlang => 6
  | .generic => 7

def TaskType.name : TaskType → List UInt8
  | .help => ascii "help"
  | .sysinfo => ascii "sysinfo"
  | .status => ascii "status"
  | .assembly => ascii "assembly"
  | .sync => ascii "sync"
  | .hnlang => ascii "hnlang"
  | .generic => ascii "generic"
  | .none => ascii "none"

def TaskStatus.name : TaskStatus → List UInt8
  | .empty => ascii "empty"
  | .pending => ascii "pending"
  | .running => ascii "running"
  | .done => ascii "done"
  | .cancelled => ascii "cancelled"
  | .error => ascii "error"

structure AiTask where
  taskId : UInt32
  taskType : TaskType
  input : CText 160
  languageProfile : Option (List UInt8)
  contextFlags : UInt32
  status : TaskStatus
  output : CText 1024
  deriving DecidableEq

theorem input_room : 0 < 160 := by decide

def AiTask.init : AiTask where
  taskId := 0
  taskType := .none
  input := CText.empty 160 input_room
  languageProfile := Option.none
  contextFlags := 0
  status := .empty
  output := CText.empty 1024

def AiTask.prepare (taskId : UInt32) (taskType : TaskType) (input : Option (List UInt8))
    (contextFlags : UInt32) : AiTask where
  taskId := taskId
  taskType := taskType
  input := CText.copy input
  languageProfile := Option.none
  contextFlags := contextFlags
  status := .pending
  output := CText.empty 1024

def AiTask.setOutput (task : AiTask) (output : List UInt8) : AiTask :=
  { task with output := CText.copy (some output) }

@[simp] theorem setOutput_taskId (task : AiTask) (output : List UInt8) :
    (task.setOutput output).taskId = task.taskId := rfl

@[simp] theorem setOutput_taskType (task : AiTask) (output : List UInt8) :
    (task.setOutput output).taskType = task.taskType := rfl

@[simp] theorem setOutput_status (task : AiTask) (output : List UInt8) :
    (task.setOutput output).status = task.status := rfl

@[simp] theorem setOutput_output (task : AiTask) (output : List UInt8) :
    (task.setOutput output).output = CText.copy (some output) := rfl

def hnlangAiSystemContract : List UInt8 :=
  ascii "HNLang v0 is HNMos' typed task/UI language. Grammar: print STRING; let ID = EXPR; " ++
  ascii "route STRING; ai task STRING \x7b input EXPR mode STRING output EXPR \x7d; app STRING \x7b " ++
  ascii "title STRING screen STRING \x7b panel STRING \x7b text EXPR \x7d button STRING \x7b route " ++
  ascii "STRING \x7d \x7d \x7d. Read-only names: kernel.version, kernel.ticks, kernel.memory.total, " ++
  ascii "graphics.width, graphics.height, system.info. Return plain HNLang for /workspace " ++
  ascii "only; never modify kernel, boot, policy, drivers, or audit."

theorem append_length {xs ys : List UInt8} {m n : ℕ} (hxs : xs.length = m)
    (hys : ys.length = n) : (xs ++ ys).length = m + n := by
  rw [List.length_append, hxs, hys]

theorem contract_length : hnlangAiSystemContract.length = 464 := by
  rw [hnlangAiSystemContract,
    append_length (append_length (append_length (append_length (append_length (ascii_length _)
      (ascii_length _)) (ascii_length _)) (ascii_length _)) (ascii_length _)) (ascii_length _)]
  simp only [List.length_cons, List.length_nil]

end Hnmos.Task
