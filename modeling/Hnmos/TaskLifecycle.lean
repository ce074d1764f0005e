import Mathlib
import Hnmos.BridgeSlot
import Hnmos.Transition

/-!
# The life of a task

A station is the bridge with its transport and port, the number of
submissions so far and the identifiers they were given. `Progress` is what
can happen to one task while it stays in the slot; `Older` compares two
states of the bridge and is transitive, so that one step gives every run.
-/

set_option autoImplicit false

namespace Hnmos.TaskLifecycle
open Hnmos.CString Hnmos.Task Hnmos.SerialPort Hnmos.SerialTransport Hnmos.AiBridge
open Hnmos.Transition

structure Station where
  bridge : Bridge
  transport : Transport
  port : Uart
  submissions : ℕ
  ids : List UInt32

def Station.init (port : Uart) : Station := ⟨Bridge.init, Transport.init, port, 0, []⟩

inductive StationOp where
  | submit (taskType : TaskType) (input : Option (List UInt8)) (contextFlags : UInt32)
  | poll (arrived : List UInt8)
  | cancel
  | receive (arrived : List UInt8)

/-- A submission reaches a provider when the bridge finds one for its type. -/
def Station.submit (s : Station) (taskType : TaskType) (input : Option (List UInt8))
    (contextFlags : UInt32) : Station :=
  { s with
    bridge := (s.bridge.submit s.transport s.port taskType input contextFlags).2.1
    port := (s.bridge.submit s.transport s.port taskType input contextFlags).2.2
    submissions := s.submissions + 1
    ids := if (s.bridge.route taskType).isSome then s.ids ++ [s.bridge.nextTaskId] else s.ids }

def Station.poll (s : Station) (arrived : List UInt8) : Bool × Station :=
  ((s.bridge.poll s.transport arrived).1,
    { s with
      bridge := (s.bridge.poll s.transport arrived).2.1
      transport := (s.bridge.poll s.transport arrived).2.2 })

def step (s : Station) : StationOp → Station
  | .submit taskType input contextFlags => s.submit taskType input contextFlags
  | .poll arrived => (s.poll arrived).2
  | .cancel => { s with bridge := s.bridge.cancel.2 }
  | .receive arrived => { s with transport := s.transport.captureRx arrived }

def Final (status : TaskStatus) : Prop :=
  status = .done ∨ status = .error ∨ status = .cancelled

inductive Forward : TaskStatus → TaskStatus → Prop
  | start : Forward .pending .running
  | finish {status final : TaskStatus} (hopen : status = .pending ∨ status = .running)
      (hfinal : Final final) : Forward status final

/-- What happens to a task that stays in the slot: nothing, or it is closed
once. -/
def Progress (task task' : AiTask) : Prop :=
  task' = task ∨ (Pending task ∧ ∃ output status, Final status ∧
    task' = closeTask task output status)

theorem progress_trans (t u v : AiTask) (h : Progress t u) (h' : Progress u v) :
    Progress t v := by
  rcases h with rfl | ⟨hopen, output, status, hfinal, rfl⟩
  · exact h'
  · rcases h' with rfl | ⟨hopen', -⟩
    · exact Or.inr ⟨hopen, output, status, hfinal, rfl⟩
    · exfalso
      have hstatus : (closeTask t output status).status = status := rfl
      rw [Pending, hstatus] at hopen'
      rcases hfinal with rfl | rfl | rfl <;> simp at hopen'

theorem progress_forward (t u : AiTask) (h : Progress t u) :
    Relation.ReflTransGen Forward t.status u.status := by
  rcases h with rfl | ⟨hopen, output, status, hfinal, rfl⟩
  · exact Relation.ReflTransGen.refl
  · exact Relation.ReflTransGen.single (Forward.finish hopen.symm hfinal)

theorem progress_final (t u : AiTask) (h : Progress t u) (ht : Final t.status) : u = t := by
  rcases h with rfl | ⟨hopen, -⟩
  · rfl
  · exfalso
    rcases hopen with hopen | hopen <;> rcases ht with ht | ht | ht <;> simp [hopen] at ht

structure Older (b b' : Bridge) : Prop where
  id : b.lastTask.taskId.toNat ≤ b'.lastTask.taskId.toNat
  same : b.lastTask.taskId = b'.lastTask.taskId → Progress b.lastTask b'.lastTask

theorem older_refl (b : Bridge) : Older b b := ⟨le_refl _, fun _ => Or.inl rfl⟩

theorem older_trans (a b c : Bridge) (h : Older a b) (h' : Older b c) : Older a c where
  id := h.id.trans h'.id
  same := by
    intro hsame
    have hab : a.lastTask.taskId = b.lastTask.taskId := by
      apply UInt32.toNat.inj
      have hle := h'.id
      rw [← hsame] at hle
      exact Nat.le_antisymm h.id hle
    exact progress_trans _ _ _ (h.same hab) (h'.same (hab ▸ hsame))

/-- The counter is one ahead of the identifiers given out, which are the
numbers from one on; the slot holds the last of them. -/
structure Numbered (s : Station) : Prop where
  ids : s.ids.map UInt32.toNat = List.range' 1 s.ids.length
  next : s.bridge.nextTaskId.toNat = s.ids.length + 1
  last : s.bridge.lastTask.taskId.toNat = s.ids.length
  counted : s.ids.length ≤ s.submissions
  cleared : Pending s.bridge.lastTask → s.bridge.lastTask.output = CText.empty 1024

def Bounded (s : Station) : Prop := s.submissions < 2 ^ 32 - 1

theorem init_numbered (port : Uart) : Numbered (Station.init port) where
  ids := rfl
  next := rfl
  last := rfl
  counted := le_refl _
  cleared := fun _ => rfl

@[simp] theorem prepared_output (b : Bridge) (taskType : TaskType)
    (input : Option (List UInt8)) (contextFlags : UInt32) :
    (b.prepared taskType input contextFlags).output = CText.empty 1024 := by
  simp only [Bridge.prepared]
  split_ifs <;> rfl

theorem submitted_taskId (task task' : AiTask) (accepted : Bool)
    (h : Submitted task task' accepted) : task'.taskId = task.taskId := by
  rcases h with ⟨-, rfl⟩ | ⟨-, rfl⟩ | ⟨-, output, rfl⟩ <;> rfl

theorem submitted_output (task task' : AiTask) (accepted : Bool)
    (h : Submitted task task' accepted) (hopen : Pending task') :
    task'.output = task.output := by
  rcases h with ⟨-, rfl⟩ | ⟨-, rfl⟩ | ⟨-, output, rfl⟩
  · rfl
  · rfl
  · simp [Pending, closeTask] at hopen

theorem submit_numbered (s : Station) (taskType : TaskType) (input : Option (List UInt8))
    (contextFlags : UInt32) (h : Numbered s)
    (hb : Bounded (s.submit taskType input contextFlags)) :
    Numbered (s.submit taskType input contextFlags) := by
  have hcounted := h.counted
  have hbound : s.submissions + 1 < 2 ^ 32 - 1 := hb
  unfold Station.submit
  rcases submit_slot s.bridge s.transport s.port taskType input contextFlags with
    ⟨hroute, hsubmit⟩ | ⟨provider, task, hroute, hsubmitted, hbridge⟩
  · rw [hsubmit, hroute]
    exact ⟨h.ids, h.next, h.last, by simp only [Option.isSome_none, Bool.false_eq_true, if_false]; omega,
      h.cleared⟩
  · have hid := submitted_taskId _ _ _ hsubmitted
    rw [prepared_taskId] at hid
    rw [hbridge, hroute]
    simp only [Option.isSome_some, if_true]
    refine ⟨?_, ?_, ?_, ?_, ?_⟩
    · rw [List.map_append, h.ids, List.length_append, List.length_singleton, List.range'_concat,
        List.map_singleton, h.next]
      congr 2
      omega
    · have hnext := h.next
      simp only [UInt32.toNat_add, List.length_append, List.length_singleton]
      rw [hnext, UInt32.toNat_one]
      omega
    · simp only [hid, h.next, List.length_append, List.length_singleton]
    · simp only [List.length_append, List.length_singleton]
      omega
    · intro hopen
      exact (submitted_output _ _ _ hsubmitted hopen).trans (prepared_output _ _ _ _)

theorem closed_not_pending (task : AiTask) (output : List UInt8) (status : TaskStatus)
    (h : Final status) : ¬ Pending (closeTask task output status) := by
  rcases h with rfl | rfl | rfl <;> simp [Pending, closeTask]

theorem step_numbered (s : Station) (op : StationOp) (h : Numbered s) (hb : Bounded (step s op)) :
    Numbered (step s op) := by
  cases op with
  | submit taskType input contextFlags => exact submit_numbered s _ _ _ h hb
  | poll arrived =>
    simp only [step, Station.poll]
    rcases poll_slot s.bridge s.transport arrived with
      ⟨-, hbridge⟩ | ⟨-, -, output, status, hstatus, hbridge⟩
    · rw [hbridge]
      exact ⟨h.ids, h.next, h.last, h.counted, h.cleared⟩
    · have hfinal : Final status := by
        rcases hstatus with rfl | rfl
        · exact Or.inl rfl
        · exact Or.inr (Or.inl rfl)
      rw [hbridge]
      exact ⟨h.ids, h.next, h.last, h.counted,
        fun hopen => absurd hopen (closed_not_pending _ _ _ hfinal)⟩
  | cancel =>
    simp only [step]
    rcases cancel_slot s.bridge with ⟨-, hcancel⟩ | ⟨-, hcancel⟩
    · rw [hcancel]
      exact ⟨h.ids, h.next, h.last, h.counted, h.cleared⟩
    · rw [hcancel]
      exact ⟨h.ids, h.next, h.last, h.counted,
        fun hopen => absurd hopen (closed_not_pending _ _ _ (Or.inr (Or.inr rfl)))⟩
  | receive arrived => exact ⟨h.ids, h.next, h.last, h.counted, h.cleared⟩

theorem step_submissions (s : Station) (op : StationOp) :
    s.submissions ≤ (step s op).submissions := by
  cases op with
  | submit taskType input contextFlags => exact Nat.le_succ _
  | poll arrived => exact le_refl _
  | cancel => exact le_refl _
  | receive arrived => exact le_refl _

theorem bounded_back (s : Station) (op : StationOp) (h : Bounded (step s op)) : Bounded s :=
  Nat.lt_of_le_of_lt (step_submissions s op) h

theorem run_numbered (port : Uart) (ops : List StationOp)
    (hb : Bounded (run step (Station.init port) ops)) :
    Numbered (run step (Station.init port) ops) :=
  run_invariant_until step (fun _ => True) Bounded Numbered bounded_back
    (fun s op h _ hb => step_numbered s op h hb) _ ops (init_numbered port)
    (fun _ _ => trivial) hb

theorem step_older (s : Station) (op : StationOp) (h : Numbered s) (hb : Bounded (step s op)) :
    Older s.bridge (step s op).bridge := by
  cases op with
  | submit taskType input contextFlags =>
    simp only [step, Station.submit]
    rcases submit_slot s.bridge s.transport s.port taskType input contextFlags with
      ⟨-, hsubmit⟩ | ⟨provider, task, -, hsubmitted, hbridge⟩
    · rw [hsubmit]
      exact older_refl _
    · have hid := submitted_taskId _ _ _ hsubmitted
      rw [prepared_taskId] at hid
      have hlt : s.bridge.lastTask.taskId.toNat < task.taskId.toNat := by
        rw [hid, h.next, h.last]
        omega
      rw [hbridge]
      refine ⟨hlt.le, ?_⟩
      intro hsame
      exact absurd (congrArg UInt32.toNat hsame) hlt.ne
  | poll arrived =>
    simp only [step, Station.poll]
    rcases poll_slot s.bridge s.transport arrived with
      ⟨-, hbridge⟩ | ⟨-, hopen, output, status, hstatus, hbridge⟩
    · rw [hbridge]
      exact older_refl _
    · rw [hbridge]
      refine ⟨le_refl _, fun _ => Or.inr ⟨hopen, output, status, ?_, rfl⟩⟩
      rcases hstatus with rfl | rfl
      · exact Or.inl rfl
      · exact Or.inr (Or.inl rfl)
  | cancel =>
    simp only [step]
    rcases cancel_slot s.bridge with ⟨-, hcancel⟩ | ⟨hopen, hcancel⟩
    · rw [hcancel]
      exact older_refl _
    · rw [hcancel]
      exact ⟨le_refl _, fun _ => Or.inr ⟨hopen, _, _, Or.inr (Or.inr rfl), rfl⟩⟩
  | receive arrived => exact older_refl _

theorem run_older (s : Station) (ops : List StationOp) (h : Numbered s)
    (hb : Bounded (run step s ops)) : Older s.bridge (run step s ops).bridge := by
  induction ops generalizing s with
  | nil => exact older_refl _
  | cons op ops ih =>
    rw [run_cons] at hb ⊢
    have hnext : Bounded (step s op) := run_back step Bounded bounded_back _ ops hb
    exact older_trans _ _ _ (step_older s op h hnext)
      (ih _ (step_numbered s op h hnext) hb)

/-- In every run with fewer than `2^32 - 1` submissions: the identifiers of
the submissions that reach a provider increase; a submission takes the status
of its task forward from pending; while an identifier stays in the slot its
status only moves forward, nothing changes once it is final, and the output
is empty until then; and a poll returns 1 exactly when it makes the task done
or failed. -/
theorem task_lifecycle (port : Uart) (ops : List StationOp)
    (hb : Bounded (run step (Station.init port) ops)) :
    ((run step (Station.init port) ops).ids.map UInt32.toNat).Pairwise (· < ·) ∧
    (∀ before after taskType input contextFlags,
      ops = before ++ .submit taskType input contextFlags :: after →
      let s := run step (Station.init port) before
      (s.bridge.route taskType).isSome →
      (s.submit taskType input contextFlags).bridge.lastTask.taskId = s.bridge.nextTaskId ∧
      (s.submit taskType input contextFlags).ids = s.ids ++ [s.bridge.nextTaskId] ∧
      Relation.ReflTransGen Forward .pending
        (s.submit taskType input contextFlags).bridge.lastTask.status) ∧
    (∀ before between after, ops = before ++ between ++ after →
      let task := (run step (Station.init port) before).bridge.lastTask
      let task' := (run step (Station.init port) (before ++ between)).bridge.lastTask
      task'.taskId = task.taskId →
      Relation.ReflTransGen Forward task.status task'.status ∧
      (Final task.status → task' = task) ∧
      (Pending task' → task'.output = CText.empty 1024)) ∧
    (∀ before after arrived, ops = before ++ .poll arrived :: after →
      let s := run step (Station.init port) before
      ((s.poll arrived).1 = true ↔
        (¬ Final s.bridge.lastTask.status ∧
          ((s.poll arrived).2.bridge.lastTask.status = .done ∨
            (s.poll arrived).2.bridge.lastTask.status = .error)))) := by
  have hinitial : ∀ before after, ops = before ++ after →
      Bounded (run step (Station.init port) before) := by
    intro before after hsplit
    rw [hsplit, run_append] at hb
    exact run_back step Bounded bounded_back _ after hb
  refine ⟨?_, ?_, ?_, ?_⟩
  · rw [(run_numbered port ops hb).ids]
    exact List.pairwise_lt_range'
  · intro before after taskType input contextFlags hsplit s hroute
    unfold Station.submit
    rcases submit_slot s.bridge s.transport s.port taskType input contextFlags with
      ⟨hnone, -⟩ | ⟨provider, task, -, hsubmitted, hbridge⟩
    · rw [hnone] at hroute
      exact absurd hroute (by decide)
    · have hid := submitted_taskId _ _ _ hsubmitted
      rw [prepared_taskId] at hid
      rw [hbridge]
      refine ⟨hid, by rw [if_pos hroute], ?_⟩
      rcases hsubmitted with ⟨-, rfl⟩ | ⟨-, rfl⟩ | ⟨-, output, rfl⟩
      · exact Relation.ReflTransGen.single Forward.start
      · exact Relation.ReflTransGen.refl
      · exact Relation.ReflTransGen.single
          (Forward.finish (Or.inl rfl) (Or.inr (Or.inl rfl)))
  · intro before between after hsplit task task' hsame
    have hnumbered := run_numbered port before (hinitial before (between ++ after)
      (by rw [hsplit, List.append_assoc]))
    have hbound := hinitial (before ++ between) after hsplit
    have holder := run_older (run step (Station.init port) before) between hnumbered
      (by rwa [← run_append])
    rw [← run_append] at holder
    have hprogress := holder.same hsame.symm
    exact ⟨progress_forward _ _ hprogress, progress_final _ _ hprogress,
      (run_numbered port (before ++ between) hbound).cleared⟩
  · intro before after arrived hsplit s
    unfold Station.poll
    rcases poll_slot s.bridge s.transport arrived with
      ⟨hno, hbridge⟩ | ⟨hyes, hopen, output, status, hstatus, hbridge⟩
    · simp only [hno, hbridge, Bool.false_eq_true, false_iff, not_and]
      intro hfinal hdone
      rcases hdone with hdone | herror
      · exact hfinal (Or.inl hdone)
      · exact hfinal (Or.inr (Or.inl herror))
    · simp only [hyes, hbridge, true_iff]
      refine ⟨?_, hstatus⟩
      intro hfinal
      rcases hopen with hopen | hopen <;> simp [Final, hopen] at hfinal

def helpRun : List StationOp := [.submit .help (some (ascii "ai help")) 1, .poll []]

theorem helpRun_bounded : Bounded (run step (Station.init readyUart) helpRun) := by
  show 1 < 2 ^ 32 - 1
  norm_num

theorem task_lifecycle_help :
    ((run step (Station.init readyUart) helpRun).ids.map UInt32.toNat).Pairwise (· < ·) :=
  (task_lifecycle readyUart helpRun helpRun_bounded).1

end Hnmos.TaskLifecycle
