import Mathlib
import Hnmos.RoundRobin

/-!
# Yields among blocked and stopped tasks

Tasks may also be blocked, stopped or restarted from outside. A yield has two
places that make a task run: the cyclic search, which takes only ready tasks,
and the return to the previous task when the search fails. The search fails
only when that task is itself blocked or stopped, so a yield is safe exactly
when there is a task that may run.
-/

set_option autoImplicit false

namespace Hnmos.YieldSafety
open Hnmos.CString Hnmos.NextFit Hnmos.RoundRobin Hnmos.TaskScheduler Hnmos.Transition

inductive TaskOp where
  | addTask (name : Option (List UInt8))
  | setState (id : UInt32) (state : RunState)
  | yield

def step (s : Scheduler) : TaskOp → Scheduler
  | .addTask name => (s.addTask name).2
  | .setState id state => { s with registry := s.registry.setState id state }
  | .yield => s.yield

def Runnable (s : Scheduler) : Prop :=
  (∃ task ∈ s.registry.tasks, task.state = .ready) ∨
    ∃ current, s.registry.tasks[s.currentIndex]? = some current ∧ current.state = .running

structure YieldSafe (s : Scheduler) : Prop where
  kept : ∀ (i : ℕ) (task : Task), s.registry.tasks[i]? = some task →
    task.state = .blocked ∨ task.state = .stopped →
    ∃ later : Task, s.yield.registry.tasks[i]? = some later ∧ later.state ≠ .running
  selects : Runnable s → ∃ task later : Task,
    s.registry.tasks[s.yield.currentIndex]? = some task ∧
    (task.state = .ready ∨ task.state = .running) ∧
    s.yield.registry.tasks[s.yield.currentIndex]? = some later ∧ later.state = .running
  rests : ¬ Runnable s →
    s.yield.registry.tasks.map Task.state = s.registry.tasks.map Task.state

/-- The tasks as the search sees them: a running current task is ready again. -/
def cleared (s : Scheduler) : List Task :=
  s.registry.tasks.modify s.currentIndex fun task =>
    if task.state = .running then { task with state := .ready } else task

def Scheduler.selected (s : Scheduler) (tasks : List Task) (index : ℕ) : Scheduler :=
  { s with
    registry := { s.registry with tasks := tasks.modify index toRunning }
    currentIndex := index
    yieldTotal := s.yieldTotal + 1 }

theorem searchFrom_cases (s : Scheduler) (start left offset : ℕ)
    (hn : Numbered s.registry.tasks) :
    (∃ index task, s.registry.tasks[index]? = some task ∧ task.state = .ready ∧
      s.searchFrom start left offset =
        some (Scheduler.selected s s.registry.tasks index)) ∨
    s.searchFrom start left offset = none ∧ ∀ k < left, ∀ task,
      s.registry.tasks[(start + (offset + k)) % s.registry.tasks.length]? = some task →
        task.state ≠ .ready := by
  induction left generalizing offset with
  | zero =>
    right
    exact ⟨rfl, fun k hk => absurd hk (Nat.not_lt_zero k)⟩
  | succ left ih =>
    -- the tasks tried after this one are those of the rest of the search
    have hrest (hskip : s.searchFrom start (left + 1) offset =
          s.searchFrom start left (offset + 1))
        (hfirst : ∀ task, s.registry.tasks[(start + offset) % s.registry.tasks.length]? =
          some task → task.state ≠ .ready) :
        (∃ index task, s.registry.tasks[index]? = some task ∧ task.state = .ready ∧
          s.searchFrom start (left + 1) offset =
            some (Scheduler.selected s s.registry.tasks index)) ∨
        s.searchFrom start (left + 1) offset = none ∧ ∀ k < left + 1, ∀ task,
          s.registry.tasks[(start + (offset + k)) % s.registry.tasks.length]? = some task →
            task.state ≠ .ready := by
      rw [hskip]
      refine (ih (offset + 1)).imp_right ?_
      rintro ⟨hnone, hothers⟩
      refine ⟨hnone, ?_⟩
      intro k hk
      cases k with
      | zero => exact hfirst
      | succ k =>
        have hlater := hothers k (Nat.lt_of_succ_lt_succ hk)
        rwa [show offset + 1 + k = offset + (k + 1) by omega] at hlater
    cases hcandidate : s.registry.tasks[(start + offset) % s.registry.tasks.length]? with
    | none =>
      apply hrest
      · rw [Scheduler.searchFrom]
        simp only [hcandidate]
      · intro task htask
        rw [hcandidate] at htask
        exact absurd htask.symm (Option.some_ne_none task)
    | some candidate =>
      by_cases hready : candidate.state = .ready
      · left
        refine ⟨_, candidate, hcandidate, hready, ?_⟩
        rw [Scheduler.searchFrom]
        simp only [hcandidate, hready, if_true]
        rw [setRunning_eq s.registry _ candidate hn hcandidate, Scheduler.selected]
      · apply hrest
        · rw [Scheduler.searchFrom]
          simp only [hcandidate, if_neg hready]
        · intro task htask
          rw [hcandidate] at htask
          exact Option.some.inj htask ▸ hready

theorem selectTask_cases (s : Scheduler) (start : ℕ) (hn : Numbered s.registry.tasks) :
    (∃ index task, s.registry.tasks[index]? = some task ∧ task.state = .ready ∧
      s.selectTask start = some (Scheduler.selected s s.registry.tasks index)) ∨
    s.selectTask start = none ∧ ∀ task ∈ s.registry.tasks, task.state ≠ .ready := by
  refine (searchFrom_cases s start s.registry.tasks.length 1 hn).imp_right ?_
  rintro ⟨hnone, htried⟩
  refine ⟨hnone, ?_⟩
  intro task hmem
  obtain ⟨i, hi, hget⟩ := List.mem_iff_getElem.mp hmem
  obtain ⟨k, hk, hindex⟩ := visits (start + 1) s.registry.tasks.length i hi
  apply htried k hk task
  rw [← Nat.add_assoc, hindex, List.getElem?_eq_getElem hi, hget]

theorem cleared_current (s : Scheduler) (current : Task) (h : Registered s)
    (hcurrent : s.registry.tasks[s.currentIndex]? = some current) :
    (if current.state = .running then
        { s with registry := s.registry.setState current.id .ready } else s) =
      { s with registry := { s.registry with tasks := cleared s } } := by
  by_cases hrunning : current.state = .running
  · have hset : s.registry.setState current.id .ready = { s.registry with
        tasks := s.registry.tasks.modify s.currentIndex fun task =>
          { task with state := .ready } } := modify_at s.registry _ current _ h.numbered hcurrent
    have hsame : (s.registry.tasks.modify s.currentIndex fun task =>
        { task with state := .ready }) = cleared s := by
      apply List.ext_getElem?
      intro i
      rw [cleared, List.getElem?_modify, List.getElem?_modify]
      by_cases hi : s.currentIndex = i
      · rw [← hi, hcurrent]
        simp [hrunning]
      · simp [hi]
    rw [if_pos hrunning, hset, hsame]
  · have hsame : cleared s = s.registry.tasks := by
      apply List.ext_getElem?
      intro i
      rw [cleared, List.getElem?_modify]
      by_cases hi : s.currentIndex = i
      · rw [← hi, hcurrent]
        simp [hrunning]
      · simp [hi]
    rw [if_neg hrunning, hsame]

theorem cleared_get (s : Scheduler) (i : ℕ) (task : Task) (h : s.registry.tasks[i]? = some task) :
    (cleared s)[i]? =
      some (if s.currentIndex = i ∧ task.state = .running then { task with state := .ready }
        else task) := by
  rw [cleared, List.getElem?_modify, h]
  by_cases hi : s.currentIndex = i <;> simp [hi]

theorem cleared_length (s : Scheduler) : (cleared s).length = s.registry.tasks.length :=
  List.length_modify ..

theorem cleared_numbered (s : Scheduler) (h : Registered s) : Numbered (cleared s) := by
  apply numbered_modify _ _ _ ?_ h.numbered
  intro task
  split_ifs <;> rfl

theorem cleared_ready (s : Scheduler) (index : ℕ) (task : Task)
    (hget : (cleared s)[index]? = some task) (hready : task.state = .ready) :
    ∃ old : Task, s.registry.tasks[index]? = some old ∧
      (old.state = .ready ∨ s.currentIndex = index ∧ old.state = .running) := by
  have hindex : index < s.registry.tasks.length := by
    rw [← cleared_length s]
    exact (List.getElem?_eq_some_iff.mp hget).1
  have hold := List.getElem?_eq_getElem hindex
  have hclear := cleared_get s index _ hold
  rw [hget] at hclear
  refine ⟨_, hold, ?_⟩
  by_cases hrun : s.currentIndex = index ∧ s.registry.tasks[index].state = .running
  · exact Or.inr hrun
  · rw [if_neg hrun] at hclear
    left
    rw [← Option.some.inj hclear]
    exact hready

/-- A yield makes a ready task of the cleared list run, or finds no ready task
and returns to the current one, which was not running. -/
theorem yield_cases (s : Scheduler) (h : Registered s) :
    (∃ index task, (cleared s)[index]? = some task ∧ task.state = .ready ∧
      s.yield = Scheduler.selected s (cleared s) index) ∨
    ¬ Runnable s ∧ s.yield = { s with registry := { s.registry with
      tasks := s.registry.tasks.modify s.currentIndex fun task =>
        { task with state := .running } } } := by
  obtain ⟨current, hcurrent⟩ : ∃ task, s.registry.tasks[s.currentIndex]? = some task :=
    ⟨_, List.getElem?_eq_getElem h.current⟩
  have hne : s.registry.tasks ≠ [] := List.ne_nil_of_length_pos (Nat.zero_lt_of_lt h.current)
  have hyield : s.yield = (Scheduler.selectTask
      { s with registry := { s.registry with tasks := cleared s } } s.currentIndex).getD
        { s with registry :=
          ({ s.registry with tasks := cleared s } : Registry).setState current.id .running } := by
    rw [Scheduler.yield, if_neg (by simp [h.ready, hne])]
    simp only [hcurrent]
    rw [cleared_current s current h hcurrent]
  rw [hyield]
  rcases selectTask_cases { s with registry := { s.registry with tasks := cleared s } }
    s.currentIndex (cleared_numbered s h) with ⟨index, task, hget, hready, hfound⟩ | ⟨hnone, hothers⟩
  · left
    exact ⟨index, task, hget, hready, by rw [hfound, Option.getD_some]; rfl⟩
  · right
    have hget := cleared_get s _ current hcurrent
    have hidle : current.state ≠ .running := by
      intro hrunning
      rw [if_pos ⟨rfl, hrunning⟩] at hget
      exact hothers _ (List.mem_of_getElem? hget) rfl
    have hsame : cleared s = s.registry.tasks := by
      have hclear := cleared_current s current h hcurrent
      rw [if_neg hidle] at hclear
      exact (congrArg (fun t => t.registry.tasks) hclear).symm
    rw [hsame] at hothers
    constructor
    · rintro (⟨task, hmem, hready⟩ | ⟨task, htask, hrunning⟩)
      · exact hothers task hmem hready
      · rw [hcurrent] at htask
        exact hidle (Option.some.inj htask ▸ hrunning)
    · have hset := modify_at s.registry _ current (fun task => { task with state := .running })
        h.numbered hcurrent
      rw [hnone, Option.getD_none, hsame, Registry.setState, hset]

theorem yield_safe (s : Scheduler) (h : Registered s) (hrunnable : Runnable s) : YieldSafe s := by
  rcases yield_cases s h with ⟨index, task, hget, hready, hyield⟩ | ⟨hno, _⟩
  swap
  · exact absurd hrunnable hno
  obtain ⟨old, hold, hmay⟩ := cleared_ready s index task hget hready
  constructor
  · intro i other hi hdown
    have hdown' : other.state ≠ .ready ∧ other.state ≠ .running := by
      rcases hdown with hstate | hstate <;> rw [hstate] <;> exact ⟨by decide, by decide⟩
    have hclear := cleared_get s i other hi
    rw [if_neg fun hboth => hdown'.2 hboth.2] at hclear
    have hother : index ≠ i := by
      rintro rfl
      rw [hget] at hclear
      exact hdown'.1 (Option.some.inj hclear ▸ hready)
    refine ⟨other, ?_, hdown'.2⟩
    rw [hyield, Scheduler.selected]
    simp only [List.getElem?_modify, hclear, if_neg hother]
    rfl
  · intro _
    rw [hyield]
    refine ⟨old, toRunning task, hold, hmay.imp_right And.right, ?_, rfl⟩
    show ((cleared s).modify index toRunning)[index]? = _
    rw [List.getElem?_modify_eq, hget]
    rfl
  · intro hno
    exact absurd hrunnable hno

theorem yield_unsafe (s : Scheduler) (h : Registered s) (hno : ¬ Runnable s) : ¬ YieldSafe s := by
  intro hsafe
  obtain ⟨current, hcurrent⟩ : ∃ task, s.registry.tasks[s.currentIndex]? = some task :=
    ⟨_, List.getElem?_eq_getElem h.current⟩
  have hdown : current.state = .blocked ∨ current.state = .stopped := by
    cases hstate : current.state with
    | ready => exact absurd (Or.inl ⟨current, List.mem_of_getElem? hcurrent, hstate⟩) hno
    | running => exact absurd (Or.inr ⟨current, hcurrent, hstate⟩) hno
    | blocked => exact Or.inl rfl
    | stopped => exact Or.inr rfl
  obtain ⟨later, hlater, hnot⟩ := hsafe.kept _ current hcurrent hdown
  rcases yield_cases s h with ⟨index, task, hget, hready, _⟩ | ⟨_, htasks⟩
  · obtain ⟨old, hold, hstate | ⟨rfl, hrunning⟩⟩ := cleared_ready s index task hget hready
    · exact hno (Or.inl ⟨old, List.mem_of_getElem? hold, hstate⟩)
    · exact hno (Or.inr ⟨old, hold, hrunning⟩)
  · rw [htasks] at hlater
    simp only [List.getElem?_modify_eq, hcurrent] at hlater
    exact hnot (by rw [← Option.some.inj hlater])

theorem registered_of_modify (s t : Scheduler) (tasks : List Task) (h : Registered s)
    (hready : t.ready = true) (hid : t.registry.nextId = s.registry.nextId)
    (htasks : t.registry.tasks = tasks) (hlength : tasks.length = s.registry.tasks.length)
    (hcurrent : t.currentIndex < tasks.length) (hn : Numbered tasks) : Registered t := by
  refine ⟨hready, by rw [htasks]; exact hcurrent, ?_, ?_, htasks ▸ hn⟩
  · rw [htasks, hlength]
    exact h.room
  · rw [hid, htasks, hlength]
    exact h.nextId

theorem setState_registered (s : Scheduler) (id : UInt32) (state : RunState) (h : Registered s) :
    Registered { s with registry := s.registry.setState id state } := by
  rw [Registry.setState, Registry.modify]
  cases s.registry.indexById id with
  | none => exact h
  | some index =>
    have hlength : (s.registry.tasks.modify index fun task =>
        { task with state := state }).length = s.registry.tasks.length := List.length_modify ..
    exact registered_of_modify s _ _ h h.ready rfl rfl hlength (hlength.symm ▸ h.current)
      (numbered_modify _ _ _ (fun _ => rfl) h.numbered)

theorem step_registered (s : Scheduler) (op : TaskOp) (h : Registered s) :
    Registered (step s op) := by
  cases op with
  | addTask name => exact addTask_registered s name h
  | setState id state => exact setState_registered s id state h
  | yield =>
    rw [step]
    rcases yield_cases s h with ⟨index, task, hget, _, hyield⟩ | ⟨_, hyield⟩
    · have hindex := (List.getElem?_eq_some_iff.mp hget).1
      have hlength : ((cleared s).modify index toRunning).length = s.registry.tasks.length :=
        (List.length_modify ..).trans (cleared_length s)
      rw [hyield]
      exact registered_of_modify s _ _ h h.ready rfl rfl hlength
        (Nat.lt_of_lt_of_eq hindex ((cleared_length s).trans hlength.symm))
        (numbered_modify _ _ toRunning (fun _ => rfl) (cleared_numbered s h))
    · have hlength : (s.registry.tasks.modify s.currentIndex fun task =>
          { task with state := .running }).length = s.registry.tasks.length :=
        List.length_modify ..
      rw [hyield]
      exact registered_of_modify s _ _ h h.ready rfl rfl hlength
        (Nat.lt_of_lt_of_eq h.current hlength.symm)
        (numbered_modify _ _ _ (fun _ => rfl) h.numbered)

/-- After any added tasks, changes of state and yields, the next yield is safe
exactly when some task is ready or the current one is running. -/
theorem yield_safe_iff (ops : List TaskOp) :
    YieldSafe (run step Scheduler.init ops) ↔ Runnable (run step Scheduler.init ops) := by
  have h : Registered (run step Scheduler.init ops) :=
    run_invariant_all step Registered step_registered _ ops init_scheduled.registered
  constructor
  · intro hsafe
    by_contra hno
    exact yield_unsafe _ h hno hsafe
  · exact yield_safe _ h

/-- With both internal tasks stopped the yield starts the user interface task
again. -/
theorem stopped_revived :
    ¬ YieldSafe (run step Scheduler.init [.setState 1 .stopped, .setState 2 .stopped]) := by
  have h : Registered (run step Scheduler.init [.setState 1 .stopped, .setState 2 .stopped]) :=
    run_invariant_all step Registered step_registered _ _ init_scheduled.registered
  have htasks : (run step Scheduler.init [.setState 1 .stopped,
      .setState 2 .stopped]).registry.tasks =
        [⟨1, ascii "idle", .stopped, 0⟩, ⟨2, ascii "ui", .stopped, 0⟩] := by decide
  have hstopped : ∀ task ∈ (run step Scheduler.init [.setState 1 .stopped,
      .setState 2 .stopped]).registry.tasks, task.state = .stopped := by
    rw [htasks]
    simp
  apply yield_unsafe _ h
  rintro (⟨task, hmem, hready⟩ | ⟨current, hget, hrunning⟩)
  · exact absurd (hready.symm.trans (hstopped task hmem)) (by decide)
  · exact absurd (hrunning.symm.trans (hstopped current (List.mem_of_getElem? hget))) (by decide)

end Hnmos.YieldSafety
