import Mathlib
import Hnmos.AiBridge

/-!
# What the bridge does to its slot

One lemma for each operation: a submission that reaches a provider replaces
the task, a poll closes an open task or leaves everything, a cancellation
closes an open task. The lemmas hold for every bridge and every transport.
-/

set_option autoImplicit false

namespace Hnmos.AiBridge
open Hnmos.CString Hnmos.Task Hnmos.SerialPort Hnmos.SerialTransport

def Pending (task : AiTask) : Prop := task.status = .running ∨ task.status = .pending

def closeTask (task : AiTask) (output : List UInt8) (status : TaskStatus) : AiTask :=
  { task.setOutput output with status := status }

theorem parseResponse_closed (line : List UInt8) (task t : AiTask)
    (h : parseResponse line task = some t) :
    ∃ output status, (status = .done ∨ status = .error) ∧ t = closeTask task output status := by
  obtain ⟨decoded, rfl⟩ := parseResponse_some line task t h
  refine ⟨decoded, _, ?_, rfl⟩
  split_ifs
  · exact Or.inl rfl
  · exact Or.inr rfl

theorem pollChar_closed (l : LineBuffer) (task t : AiTask) (c : UInt8) (line : LineBuffer)
    (h : pollChar l task c = (line, some t)) :
    ∃ output status, (status = .done ∨ status = .error) ∧ t = closeTask task output status := by
  unfold pollChar at h
  split_ifs at h
  · exact absurd (Prod.mk.inj h).2 (by simp)
  · exact parseResponse_closed _ task t (Prod.mk.inj h).2
  · exact absurd (Prod.mk.inj h).2 (by simp)

/-- The polling loop either closes the task or returns it as it was. -/
theorem pollLoop_closed (fuel : ℕ) (t : Transport) (task : AiTask) :
    ((pollLoop fuel t task).1 = false ∧ (pollLoop fuel t task).2.2 = task) ∨
      ((pollLoop fuel t task).1 = true ∧ ∃ output status,
        (status = .done ∨ status = .error) ∧
          (pollLoop fuel t task).2.2 = closeTask task output status) := by
  induction fuel generalizing t with
  | zero => exact Or.inl ⟨rfl, rfl⟩
  | succ fuel ih =>
    rw [pollLoop]
    cases hpop : t.rx.pop with
    | none => exact Or.inl ⟨rfl, rfl⟩
    | some popped =>
      obtain ⟨c, rx⟩ := popped
      rcases hchar : pollChar t.line task c with ⟨line, answered⟩
      cases answered with
      | none => simpa [hchar] using ih { t with rx := rx, line := line }
      | some answered =>
        right
        simp only [hchar]
        exact ⟨trivial, pollChar_closed _ _ _ _ _ hchar⟩

theorem pollLoop_ready (fuel : ℕ) (t : Transport) (task : AiTask) :
    (pollLoop fuel t task).2.1.ready = t.ready := by
  induction fuel generalizing t with
  | zero => rfl
  | succ fuel ih =>
    rw [pollLoop]
    cases hpop : t.rx.pop with
    | none => rfl
    | some popped =>
      obtain ⟨c, rx⟩ := popped
      rcases hchar : pollChar t.line task c with ⟨line, answered⟩
      cases answered with
      | none => simpa [hchar] using ih { t with rx := rx, line := line }
      | some answered => simp only [hchar]

theorem poll_slot (b : Bridge) (t : Transport) (arrived : List UInt8) :
    ((b.poll t arrived).1 = false ∧ (b.poll t arrived).2.1 = b) ∨
      ((b.poll t arrived).1 = true ∧ Pending b.lastTask ∧ ∃ output status,
        (status = .done ∨ status = .error) ∧
          (b.poll t arrived).2.1 =
            { b with lastTask := closeTask b.lastTask output status }) := by
  obtain ⟨active, localProvider, last, task, next, ready⟩ := b
  unfold Bridge.poll
  cases ready with
  | false => exact Or.inl ⟨rfl, rfl⟩
  | true =>
    cases last with
    | none => exact Or.inl ⟨rfl, rfl⟩
    | some provider =>
      cases provider with
      | serial =>
        simp only [if_true, Provider.pollTask, serialPollTask]
        by_cases hrun : task.status = .running
        · rw [if_neg (by simp [hrun]), Transport.poll]
          by_cases ht : t.ready = true
          · rw [if_pos ht]
            rcases hloop : pollLoop 4096 (t.captureRx arrived) task with ⟨answered, t', task'⟩
            have hclosed := pollLoop_closed 4096 (t.captureRx arrived) task
            rw [hloop] at hclosed
            simp only at hclosed ⊢
            rcases hclosed with ⟨hno, hsame⟩ | ⟨hyes, output, status, hstatus, hsame⟩
            · exact Or.inl ⟨hno, by rw [hsame]⟩
            · exact Or.inr ⟨hyes, Or.inl hrun, output, status, hstatus, by rw [hsame]⟩
          · rw [if_neg ht]
            exact Or.inl ⟨rfl, rfl⟩
        · rw [if_pos hrun]
          exact Or.inl ⟨rfl, rfl⟩
      | stub =>
        simp only [if_true, Provider.pollTask, stubPollTask]
        by_cases hclosed : stubClosed task.status = true
        · rw [if_pos hclosed]
          exact Or.inl ⟨rfl, rfl⟩
        · rw [if_neg hclosed]
          refine Or.inr ⟨rfl, ?_, _, .done, Or.inl rfl, rfl⟩
          cases hs : task.status <;> simp_all [stubClosed, Pending]

theorem poll_ready (b : Bridge) (t : Transport) (arrived : List UInt8) :
    (b.poll t arrived).2.2.ready = t.ready := by
  unfold Bridge.poll
  by_cases hready : b.ready = true
  · rw [if_pos hready]
    cases b.lastProvider with
    | none => rfl
    | some provider =>
      cases provider with
      | serial =>
        simp only [Provider.pollTask, serialPollTask, Transport.poll]
        split_ifs
        · rfl
        · exact pollLoop_ready _ _ _
        · rfl
      | stub => rfl
  · rw [if_neg hready]

theorem cancel_slot (b : Bridge) :
    (¬ Pending b.lastTask ∧ b.cancel = (false, b)) ∨
      (Pending b.lastTask ∧ b.cancel = (true, { b with
        lastTask := closeTask b.lastTask (ascii "AI request cancelled locally.")
          .cancelled })) := by
  unfold Bridge.cancel Pending
  by_cases hopen : b.lastTask.status = .running ∨ b.lastTask.status = .pending
  · right
    rw [if_neg (by tauto)]
    exact ⟨hopen, rfl⟩
  · left
    rw [if_pos (by tauto)]
    exact ⟨hopen, rfl⟩

/-- What a provider returns from a submission: the task it was given, with a
new status and perhaps an error text. -/
def Submitted (task task' : AiTask) (accepted : Bool) : Prop :=
  (accepted = true ∧ task' = { task with status := .running }) ∨
    (accepted = true ∧ task' = { task with status := .pending }) ∨
    (accepted = false ∧ ∃ output, task' = closeTask task output .error)

theorem submitTask_submitted (provider : Provider) (t : Transport) (task : AiTask) (u : Uart)
    (h : task.status = .pending) :
    Submitted task (provider.submitTask t task u).2.1 (provider.submitTask t task u).1 := by
  cases provider with
  | serial =>
    simp only [Provider.submitTask, serialSubmitTask]
    rw [if_neg (by simp [h])]
    split_ifs
    · exact Or.inr (Or.inr ⟨rfl, _, rfl⟩)
    · rcases t.send task u with ⟨accepted, v⟩
      cases accepted with
      | false => exact Or.inr (Or.inr ⟨rfl, _, rfl⟩)
      | true => exact Or.inl ⟨rfl, rfl⟩
  | stub =>
    have hopen : stubClosed task.status = false := by rw [h]; rfl
    simp only [Provider.submitTask, stubSubmitTask, hopen, Bool.false_eq_true, if_false]
    split_ifs
    · exact Or.inr (Or.inr ⟨rfl, _, rfl⟩)
    · exact Or.inr (Or.inl ⟨rfl, rfl⟩)

@[simp] theorem prepared_status (b : Bridge) (taskType : TaskType) (input : Option (List UInt8))
    (contextFlags : UInt32) : (b.prepared taskType input contextFlags).status = .pending := by
  simp only [Bridge.prepared]
  split_ifs <;> rfl

@[simp] theorem prepared_taskType (b : Bridge) (taskType : TaskType)
    (input : Option (List UInt8)) (contextFlags : UInt32) :
    (b.prepared taskType input contextFlags).taskType = taskType := by
  simp only [Bridge.prepared]
  split_ifs <;> rfl

theorem submit_slot (b : Bridge) (t : Transport) (u : Uart) (taskType : TaskType)
    (input : Option (List UInt8)) (contextFlags : UInt32) :
    (b.route taskType = none ∧ b.submit t u taskType input contextFlags = (false, b, u)) ∨
      ∃ provider task, b.route taskType = some provider ∧
        Submitted (b.prepared taskType input contextFlags) task
          (b.submit t u taskType input contextFlags).1 ∧
        (b.submit t u taskType input contextFlags).2.1 =
          { b with lastTask := task, nextTaskId := b.nextTaskId + 1,
                   lastProvider := some provider } := by
  cases hroute : b.route taskType with
  | none => exact Or.inl ⟨rfl, by simp only [Bridge.submit, hroute]⟩
  | some provider =>
    right
    have htask := submitTask_submitted provider t (b.prepared taskType input contextFlags) u
      (prepared_status b taskType input contextFlags)
    have hsubmit : b.submit t u taskType input contextFlags =
        ((provider.submitTask t (b.prepared taskType input contextFlags) u).1,
          { b with
            lastTask := (provider.submitTask t (b.prepared taskType input contextFlags) u).2.1
            nextTaskId := b.nextTaskId + 1
            lastProvider := some provider },
          (provider.submitTask t (b.prepared taskType input contextFlags) u).2.2) := by
      simp only [Bridge.submit, hroute]
    rw [hsubmit]
    exact ⟨provider, _, rfl, htask, rfl⟩

end Hnmos.AiBridge
