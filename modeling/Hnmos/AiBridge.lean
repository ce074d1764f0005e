import Mathlib
import Hnmos.SerialTransport

/-!
# The assistant bridge

One task slot is shared by two providers: HNLang requests go out over the
serial transport, everything else is answered by the local stub. A submission
overwrites the slot before the provider is asked; a poll lets the provider
that took the last submission finish it; a cancellation is local.
-/

set_option autoImplicit false

namespace Hnmos.AiBridge
open Hnmos.CString Hnmos.Task Hnmos.SerialPort Hnmos.SerialTransport

inductive Provider where
  | serial | stub
  deriving DecidableEq

def Provider.providerName : Provider → List UInt8
  | .serial => ascii "HNMos OpenAI Serial Bridge"
  | .stub => ascii "HNMos Stub Provider"

def Provider.typeName : Provider → List UInt8
  | .serial => ascii "external_bridge"
  | .stub => ascii "stub"

structure Bridge where
  activeProvider : Option Provider
  localProvider : Option Provider
  lastProvider : Option Provider
  lastTask : AiTask
  nextTaskId : UInt32
  ready : Bool
  deriving DecidableEq

def Bridge.init : Bridge where
  activeProvider := some .serial
  localProvider := some .stub
  lastProvider := some .stub
  lastTask := AiTask.init
  nextTaskId := 1
  ready := true

def serialSubmitTask (t : Transport) (task : AiTask) (u : Uart) : Bool × AiTask × Uart :=
  if task.status = .empty then (false, task, u)
  else if task.taskType = .hnlang ∧ task.languageProfile = none then
    (false, { task.setOutput (ascii "HNLang profile missing; request denied.") with
      status := .error }, u)
  else
    match t.send task u with
    | (false, u) =>
      (false, { task.setOutput (ascii "AI transport send failed.") with status := .error }, u)
    | (true, u) => (true, { task with status := .running }, u)

def serialPollTask (t : Transport) (arrived : List UInt8) (task : AiTask) :
    Bool × Transport × AiTask :=
  if task.status ≠ .running then (false, t, task) else t.poll arrived task

def serialGetResult (task : AiTask) : List UInt8 :=
  if task.status = .running ∨ task.status = .pending then
    ascii "AI bridge: waiting for provider response."
  else if task.output.chars = [] then ascii "AI bridge: provider returned no output."
  else task.output.chars

def stubClosed (status : TaskStatus) : Bool :=
  status == .empty || status == .done || status == .cancelled || status == .error

def stubSubmitTask (task : AiTask) : Bool × AiTask :=
  if stubClosed task.status then (false, task)
  else if task.taskType = .hnlang ∧ task.languageProfile = none then
    (false, { task.setOutput (ascii "AI Stub: HNLang language profile is required.") with
      status := .error })
  else (true, { task with status := .pending })

def stubResponse : TaskType → List UInt8
  | .help => ascii
    "AI Stub: Future HNMos assistant will help with system tasks, scripts, and diagnostics."
  | .sysinfo => ascii
    "AI Stub: Kernel status summary is available. Real AI runtime is not enabled yet."
  | .status => ascii "AI Stub: provider active. Real AI runtime is not enabled yet."
  | .assembly => ascii
    ("AI Stub: AI assembly plan ready. Kernel snapshot observed; external actions remain " ++
      "gated.")
  | .sync => ascii
    ("AI Stub: Kernel-owned CPU/RAM/framebuffer checkpoint executed; external actions " ++
      "remain gated.")
  | .hnlang => ascii "AI Stub: HNlang AI task accepted as a placeholder. No model executed."
  | _ => ascii
    "AI Stub: deterministic placeholder response. Real AI runtime is not enabled yet."

def stubPollTask (task : AiTask) : Bool × AiTask :=
  if stubClosed task.status then (false, task)
  else (true, { task.setOutput (stubResponse task.taskType) with status := .done })

def stubGetResult (task : AiTask) : List UInt8 :=
  if task.status ≠ .done then ascii "AI Stub: task is not complete." else task.output.chars

def Provider.submitTask : Provider → Transport → AiTask → Uart → Bool × AiTask × Uart
  | .serial, t, task, u => serialSubmitTask t task u
  | .stub, _, task, u => ((stubSubmitTask task).1, (stubSubmitTask task).2, u)

def Provider.pollTask : Provider → Transport → List UInt8 → AiTask → Bool × Transport × AiTask
  | .serial, t, arrived, task => serialPollTask t arrived task
  | .stub, t, _, task => ((stubPollTask task).1, t, (stubPollTask task).2)

def Provider.getResult : Provider → AiTask → List UInt8
  | .serial, task => serialGetResult task
  | .stub, task => stubGetResult task

/-- The task a submission puts into the slot before the provider sees it. -/
def Bridge.prepared (b : Bridge) (taskType : TaskType) (input : Option (List UInt8))
    (contextFlags : UInt32) : AiTask :=
  let task := AiTask.prepare b.nextTaskId taskType input contextFlags
  if taskType = .hnlang then { task with languageProfile := some hnlangAiSystemContract }
  else task

def Bridge.route (b : Bridge) (taskType : TaskType) : Option Provider :=
  if b.ready then (if taskType = .hnlang then b.activeProvider else b.localProvider) else none

def Bridge.submit (b : Bridge) (t : Transport) (u : Uart) (taskType : TaskType)
    (input : Option (List UInt8)) (contextFlags : UInt32) : Bool × Bridge × Uart :=
  match b.route taskType with
  | none => (false, b, u)
  | some provider =>
    let b := { b with
      lastTask := b.prepared taskType input contextFlags
      nextTaskId := b.nextTaskId + 1
      lastProvider := some provider }
    match provider.submitTask t b.lastTask u with
    | (accepted, task, u) => (accepted, { b with lastTask := task }, u)

def Bridge.poll (b : Bridge) (t : Transport) (arrived : List UInt8) :
    Bool × Bridge × Transport :=
  if b.ready then
    match b.lastProvider with
    | none => (false, b, t)
    | some provider =>
      match provider.pollTask t arrived b.lastTask with
      | (answered, t, task) => (answered, { b with lastTask := task }, t)
  else (false, b, t)

def Bridge.cancel (b : Bridge) : Bool × Bridge :=
  if b.lastTask.status ≠ .running ∧ b.lastTask.status ≠ .pending then (false, b)
  else
    let task := { b.lastTask with status := .cancelled }
    (true, { b with lastTask := task.setOutput (ascii "AI request cancelled locally.") })

def Bridge.result (b : Bridge) : List UInt8 :=
  match b.ready, b.lastProvider with
  | true, some provider => provider.getResult b.lastTask
  | _, _ => ascii "AI bridge: no provider active."

def Bridge.providerName (b : Bridge) : List UInt8 :=
  match b.ready, b.activeProvider with
  | true, some provider => provider.providerName
  | _, _ => ascii "none"

def Bridge.providerTypeName (b : Bridge) : List UInt8 :=
  match b.ready, b.activeProvider with
  | true, some provider => provider.typeName
  | _, _ => ascii "none"

def Bridge.statusText (b : Bridge) : List UInt8 :=
  if b.ready then ascii "AI bridge: external provider transport active."
  else ascii "AI bridge: inactive."

/-- A provider works on the task it is given; it never replaces it. -/
theorem serialSubmitTask_taskId (t : Transport) (task : AiTask) (u : Uart) :
    (serialSubmitTask t task u).2.1.taskId = task.taskId := by
  rw [serialSubmitTask]
  split_ifs
  · rfl
  · rfl
  · rcases t.send task u with ⟨accepted, v⟩
    cases accepted <;> rfl

theorem submit_hnlang (b : Bridge) (t : Transport) (u : Uart) (input : Option (List UInt8))
    (contextFlags : UInt32) (hb : b.ready = true) (ha : b.activeProvider = some .serial) :
    b.submit t u .hnlang input contextFlags =
      ((serialSubmitTask t (b.prepared .hnlang input contextFlags) u).1,
        { b with
          lastTask := (serialSubmitTask t (b.prepared .hnlang input contextFlags) u).2.1
          nextTaskId := b.nextTaskId + 1
          lastProvider := some .serial },
        (serialSubmitTask t (b.prepared .hnlang input contextFlags) u).2.2) := by
  simp only [Bridge.submit, Bridge.route, hb, ha, if_true, Provider.submitTask]

theorem prepared_taskId (b : Bridge) (taskType : TaskType) (input : Option (List UInt8))
    (contextFlags : UInt32) : (b.prepared taskType input contextFlags).taskId = b.nextTaskId := by
  simp only [Bridge.prepared]
  split_ifs <;> rfl

end Hnmos.AiBridge
