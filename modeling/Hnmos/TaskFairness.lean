import Mathlib
import Hnmos.YieldSafety

/-!
# No ready task is passed over twice

Tasks are added, blocked, stopped and restarted between the yields. The search
of a yield begins behind the current task and stops at the first ready one, so
it never runs past a task that waits: each yield comes nearer to it, whatever
else happens, and no other task has a second turn before its own.
-/

set_option autoImplicit false

namespace Hnmos.TaskFairness
open Hnmos.CString Hnmos.TaskScheduler Hnmos.Transition Hnmos.YieldSafety
open Hnmos.RoundRobin hiding step

def turn (s : Scheduler) : TaskOp → List ℕ
  | .yield => [s.yield.currentIndex]
  | _ => []

def turns (s : Scheduler) (ops : List TaskOp) : List ℕ := translate step turn s ops

structure Waits (s : Scheduler) (i : ℕ) (id : UInt32) : Prop where
  registered : Registered s
  ready : ∃ task, s.registry.tasks[i]? = some task ∧ task.id = id ∧ task.state = .ready

def Runs (s : Scheduler) (i : ℕ) : Prop :=
  s.currentIndex = i ∧ ∃ task, s.registry.tasks[i]? = some task ∧ task.state = .running

/-- How far the task at an index is behind the current one in a full registry. -/
def distance (current i : ℕ) : ℕ := if current < i then i - current else i + 8 - current

theorem searchFrom_stops (s : Scheduler) (start left offset k : ℕ) (task : Task)
    (hn : Numbered s.registry.tasks) (hk : k < left)
    (hget : s.registry.tasks[(start + (offset + k)) % s.registry.tasks.length]? = some task)
    (hready : task.state = .ready) :
    ∃ j ≤ k, s.searchFrom start left offset = some (Scheduler.selected s s.registry.tasks
      ((start + (offset + j)) % s.registry.tasks.length)) := by
  induction left generalizing offset k with
  | zero => exact absurd hk (Nat.not_lt_zero k)
  | succ left ih =>
    have hlater (hskip : s.searchFrom start (left + 1) offset =
          s.searchFrom start left (offset + 1)) (hpos : k ≠ 0) :
        ∃ j ≤ k, s.searchFrom start (left + 1) offset = some (Scheduler.selected s
          s.registry.tasks ((start + (offset + j)) % s.registry.tasks.length)) := by
      have hplace : offset + 1 + (k - 1) = offset + k := by omega
      obtain ⟨j, hj, hfound⟩ := ih (offset + 1) (k - 1) (by omega) (by rw [hplace]; exact hget)
      refine ⟨j + 1, by omega, ?_⟩
      rw [hskip, hfound, show offset + 1 + j = offset + (j + 1) by omega]
    cases hfirst : s.registry.tasks[(start + offset) % s.registry.tasks.length]? with
    | none =>
      apply hlater
      · rw [Scheduler.searchFrom]
        simp only [hfirst]
      · rintro rfl
        rw [Nat.add_zero, hfirst] at hget
        exact Option.some_ne_none task hget.symm
    | some candidate =>
      by_cases hnow : candidate.state = .ready
      · refine ⟨0, Nat.zero_le k, ?_⟩
        rw [Scheduler.searchFrom]
        simp only [hfirst, hnow, if_true]
        rw [setRunning_eq s.registry _ candidate hn hfirst, Nat.add_zero, Scheduler.selected]
      · apply hlater
        · rw [Scheduler.searchFrom]
          simp only [hfirst, if_neg hnow]
        · rintro rfl
          rw [Nat.add_zero, hfirst] at hget
          exact hnow (Option.some.inj hget ▸ hready)

theorem reached_at (current i n : ℕ) (hc : current < n) (hi : i < n) :
    ∃ k < n, (current + (1 + k)) % n = i ∧
      1 + k = if current < i then i - current else i + n - current := by
  by_cases hlt : current < i
  · refine ⟨i - current - 1, by omega, ?_, by rw [if_pos hlt]; omega⟩
    rw [show current + (1 + (i - current - 1)) = i by omega, Nat.mod_eq_of_lt hi]
  · refine ⟨i + n - current - 1, by omega, ?_, by rw [if_neg hlt]; omega⟩
    rw [show current + (1 + (i + n - current - 1)) = i + n by omega, Nat.add_mod_right,
      Nat.mod_eq_of_lt hi]

theorem distance_lt (current i n j : ℕ) (hc : current < n) (hi : i < n) (hn : n ≤ 8)
    (hj : 1 + j ≤ if current < i then i - current else i + n - current) :
    (current + (1 + j)) % n = i ∨
      distance ((current + (1 + j)) % n) i < distance current i := by
  unfold distance
  by_cases hlt : current < i
  · rw [if_pos hlt] at hj
    rw [Nat.mod_eq_of_lt (by omega)]
    split_ifs <;> omega
  · rw [if_neg hlt] at hj
    by_cases hwrap : current + (1 + j) < n
    · rw [Nat.mod_eq_of_lt hwrap]
      split_ifs <;> omega
    · rw [Nat.mod_eq_sub_mod (by omega), Nat.mod_eq_of_lt (by omega)]
      split_ifs <;> omega

/-- A yield gives the waiting task its turn, or it goes on waiting and is
nearer to it. -/
theorem yield_waits (s : Scheduler) (i : ℕ) (id : UInt32) (h : Waits s i id) :
    Runs s.yield i ∨ Waits s.yield i id ∧ s.yield.currentIndex ≠ i ∧
      distance s.yield.currentIndex i < distance s.currentIndex i := by
  obtain ⟨hregistered, task, htask, hid, hready⟩ := h
  have hi := (List.getElem?_eq_some_iff.mp htask).1
  have hclear := cleared_get s i task htask
  rw [if_neg (by rw [hready]; exact fun hboth => absurd hboth.2 (by decide))] at hclear
  obtain ⟨k, hk, hplace, hoffset⟩ :=
    reached_at s.currentIndex i s.registry.tasks.length hregistered.current hi
  obtain ⟨current, hcurrent⟩ : ∃ task, s.registry.tasks[s.currentIndex]? = some task :=
    ⟨_, List.getElem?_eq_getElem hregistered.current⟩
  have hlength := cleared_length s
  obtain ⟨j, hj, hfound⟩ := searchFrom_stops
    { s with registry := { s.registry with tasks := cleared s } } s.currentIndex
    s.registry.tasks.length 1 k task (cleared_numbered s hregistered) hk
    (by rw [hlength, hplace]; exact hclear) hready
  have hne : s.registry.tasks ≠ [] := List.ne_nil_of_length_pos (Nat.zero_lt_of_lt hi)
  have hyield : s.yield = Scheduler.selected s (cleared s)
      ((s.currentIndex + (1 + j)) % s.registry.tasks.length) := by
    rw [Scheduler.yield, if_neg (by simp [hregistered.ready, hne])]
    simp only [hcurrent]
    rw [cleared_current s current hregistered hcurrent, Scheduler.selectTask]
    simp only [hlength] at hfound ⊢
    rw [hfound]
    rfl
  have hindex : s.yield.currentIndex = (s.currentIndex + (1 + j)) % s.registry.tasks.length := by
    rw [hyield]
    rfl
  have hget : s.yield.registry.tasks[i]? =
      some (if s.yield.currentIndex = i then toRunning task else task) := by
    rw [hindex, hyield]
    show ((cleared s).modify _ toRunning)[i]? = _
    rw [List.getElem?_modify, hclear]
    split_ifs <;> rfl
  rcases distance_lt s.currentIndex i s.registry.tasks.length j hregistered.current hi
    hregistered.room (by omega) with hhere | hnearer
  · left
    rw [← hindex] at hhere
    rw [if_pos hhere] at hget
    exact ⟨hhere, _, hget, rfl⟩
  · by_cases hhere : s.yield.currentIndex = i
    · left
      rw [if_pos hhere] at hget
      exact ⟨hhere, _, hget, rfl⟩
    · right
      rw [if_neg hhere] at hget
      refine ⟨⟨step_registered s .yield hregistered, task, hget, hid, hready⟩, hhere, ?_⟩
      rw [hindex]
      exact hnearer

theorem other_waits (s : Scheduler) (i : ℕ) (id : UInt32) (op : TaskOp) (h : Waits s i id)
    (hyield : op ≠ .yield) (hother : ∀ state, op ≠ .setState id state) :
    Waits (step s op) i id ∧ (step s op).currentIndex = s.currentIndex := by
  obtain ⟨hregistered, task, htask, hid, hready⟩ := h
  have hi := (List.getElem?_eq_some_iff.mp htask).1
  have hnext := step_registered s op hregistered
  cases op with
  | yield => exact absurd rfl hyield
  | addTask name =>
    rcases addTask_cases s name with ⟨-, hrefused⟩ | ⟨text, rfl, hlt, hadded⟩
    · have hsame : step s (.addTask name) = s := congrArg Prod.snd hrefused
      rw [hsame]
      exact ⟨⟨hregistered, task, htask, hid, hready⟩, rfl⟩
    · have hstep := congrArg Prod.snd hadded
      refine ⟨⟨hnext, task, ?_, hid, hready⟩, ?_⟩
      · rw [step, hstep]
        exact (List.getElem?_append_left hi).trans htask
      · rw [step, hstep]
  | setState other state =>
    refine ⟨⟨hnext, task, ?_, hid, hready⟩, rfl⟩
    show (s.registry.setState other state).tasks[i]? = some task
    rw [Registry.setState, Registry.modify]
    cases hindex : s.registry.indexById other with
    | none => exact htask
    | some index =>
      have hne : index ≠ i := by
        rintro rfl
        obtain ⟨hlt, hsame, -⟩ := List.findIdx?_eq_some_iff_getElem.mp hindex
        rw [List.getElem?_eq_getElem hlt] at htask
        rw [Option.some.inj htask, hid, beq_iff_eq] at hsame
        exact hother state (by rw [hsame])
      show (s.registry.tasks.modify index _)[i]? = some task
      rw [List.getElem?_modify, htask]
      simp only [if_neg hne]
      rfl

theorem step_length (s : Scheduler) (op : TaskOp) (h : Registered s) :
    s.registry.tasks.length ≤ (step s op).registry.tasks.length := by
  cases op with
  | addTask name =>
    rcases addTask_cases s name with ⟨-, hrefused⟩ | ⟨text, rfl, -, hadded⟩
    · rw [step, hrefused]
    · rw [step, hadded, List.length_append]
      exact Nat.le_add_right _ _
  | setState id state =>
    rw [step, Registry.setState, Registry.modify]
    cases s.registry.indexById id with
    | none => exact Nat.le_refl _
    | some index => exact (List.length_modify ..).ge
  | yield =>
    rw [step]
    rcases yield_cases s h with ⟨index, task, -, -, hyield⟩ | ⟨-, hyield⟩
    · rw [hyield]
      exact ((List.length_modify ..).trans (cleared_length s)).ge
    · rw [hyield]
      exact (List.length_modify ..).ge

theorem run_length (s : Scheduler) (ops : List TaskOp) (h : Registered s) :
    s.registry.tasks.length ≤ (run step s ops).registry.tasks.length := by
  induction ops generalizing s with
  | nil => exact Nat.le_refl _
  | cons op ops ih => exact (step_length s op h).trans (ih _ (step_registered s op h))

/-- What others had while a task waited: none of them a second turn. -/
structure Passed (s : Scheduler) (i : ℕ) (ops : List TaskOp) : Prop where
  other : i ∉ turns s ops
  once : (turns s ops).Nodup
  few : (turns s ops).length < (run step s ops).registry.tasks.length

theorem waiting_turns (s : Scheduler) (i : ℕ) (id : UInt32) (later : List TaskOp)
    (h : Waits s i id) (hlater : ∀ op ∈ later, ∀ state, op ≠ .setState id state)
    (hnot : i ∉ turns s later) :
    Waits (run step s later) i id ∧ (turns s later).Nodup ∧
      ∀ j ∈ turns s later, j < (run step s later).registry.tasks.length ∧
        distance j i < distance s.currentIndex i := by
  induction later generalizing s with
  | nil => exact ⟨h, List.nodup_nil, fun j hj => absurd hj List.not_mem_nil⟩
  | cons op later ih =>
    have hrest : ∀ op ∈ later, ∀ state, op ≠ .setState id state :=
      fun other hmem => hlater other (List.mem_cons_of_mem op hmem)
    rw [turns, translate_cons, List.mem_append, not_or] at hnot
    by_cases hyield : op = .yield
    · subst hyield
      rcases yield_waits s i id h with hturn | ⟨hwaits, -, hnearer⟩
      · exact absurd (List.mem_singleton.mpr hturn.1.symm) hnot.1
      · obtain ⟨hend, hnodup, hturns⟩ := ih s.yield hwaits hrest hnot.2
        have hlength := run_length s.yield later hwaits.registered
        refine ⟨hend, List.nodup_cons.mpr ⟨?_, hnodup⟩, ?_⟩
        · intro hagain
          exact absurd (hturns _ hagain).2 (Nat.lt_irrefl _)
        · intro j hj
          rcases List.mem_cons.mp hj with rfl | hj
          · exact ⟨Nat.lt_of_lt_of_le hwaits.registered.current hlength, hnearer⟩
          · exact ⟨(hturns j hj).1, (hturns j hj).2.trans hnearer⟩
    · obtain ⟨hwaits, hcurrent⟩ :=
        other_waits s i id op h hyield (hlater op List.mem_cons_self)
      have hnone : turn s op = [] := by
        cases op with
        | yield => exact absurd rfl hyield
        | addTask name => rfl
        | setState other state => rfl
      obtain ⟨hend, hnodup, hturns⟩ := ih (step s op) hwaits hrest hnot.2
      rw [hcurrent] at hturns
      rw [turns, translate_cons, hnone, List.nil_append]
      exact ⟨hend, hnodup, hturns⟩

theorem waiting_passed (s : Scheduler) (i : ℕ) (id : UInt32) (later : List TaskOp)
    (h : Waits s i id) (hlater : ∀ op ∈ later, ∀ state, op ≠ .setState id state)
    (hnot : i ∉ turns s later) : Passed s i later := by
  obtain ⟨hend, hnodup, hturns⟩ := waiting_turns s i id later h hlater hnot
  obtain ⟨-, task, htask, -, -⟩ := hend
  have hi := (List.getElem?_eq_some_iff.mp htask).1
  refine ⟨hnot, hnodup, ?_⟩
  -- the waiting task has an index of its own
  have hall : i :: turns s later ⊆ List.range (run step s later).registry.tasks.length := by
    intro j hj
    rcases List.mem_cons.mp hj with rfl | hj
    · exact List.mem_range.mpr hi
    · exact List.mem_range.mpr (hturns j hj).1
  have hle := (List.subperm_of_subset (List.nodup_cons.mpr ⟨hnot, hnodup⟩) hall).length_le
  rw [List.length_cons, List.length_range] at hle
  exact hle

theorem first_turn (s : Scheduler) (i : ℕ) (ops : List TaskOp) (h : i ∈ turns s ops) :
    ∃ before rest, ops = before ++ .yield :: rest ∧ i ∉ turns s before ∧
      (run step s before).yield.currentIndex = i := by
  induction ops generalizing s with
  | nil => exact absurd h List.not_mem_nil
  | cons op ops ih =>
    by_cases hnow : i ∈ turn s op
    · cases op with
      | yield =>
        exact ⟨[], ops, rfl, List.not_mem_nil, (List.mem_singleton.mp hnow).symm⟩
      | addTask name => exact absurd hnow List.not_mem_nil
      | setState id state => exact absurd hnow List.not_mem_nil
    · rw [turns, translate_cons, List.mem_append] at h
      obtain ⟨before, rest, rfl, hnot, hindex⟩ := ih (step s op) (h.resolve_left hnow)
      refine ⟨op :: before, rest, rfl, ?_, hindex⟩
      rw [turns, translate_cons, List.mem_append, not_or]
      exact ⟨hnow, hnot⟩

/-- From every reachable state a ready task has its turn before any other task
has two, and so within as many yields as there are tasks, whatever is added,
blocked, stopped or restarted meanwhile, as long as its own state is left to
the scheduler. -/
theorem waiting_is_bounded (ops later : List TaskOp) (i : ℕ) (task : Task)
    (htask : (run step Scheduler.init ops).registry.tasks[i]? = some task)
    (hready : task.state = .ready)
    (hlater : ∀ op ∈ later, ∀ state, op ≠ .setState task.id state) :
    let s := run step Scheduler.init ops
    Passed s i later ∨ ∃ before rest, later = before ++ .yield :: rest ∧ Passed s i before ∧
      Runs (run step s before).yield i := by
  intro s
  have hwaits : Waits s i task.id :=
    ⟨run_invariant_all step Registered step_registered _ ops init_scheduled.registered,
      task, htask, rfl, hready⟩
  by_cases hturn : i ∈ turns s later
  · right
    obtain ⟨before, rest, rfl, hnot, hindex⟩ := first_turn s i later hturn
    have hbefore : ∀ op ∈ before, ∀ state, op ≠ .setState task.id state :=
      fun op hmem => hlater op (List.mem_append_left _ hmem)
    have hstill := (waiting_turns s i task.id before hwaits hbefore hnot).1
    refine ⟨before, rest, rfl, waiting_passed s i task.id before hwaits hbefore hnot, ?_⟩
    rcases yield_waits _ i task.id hstill with hruns | ⟨-, hother, -⟩
    · exact hruns
    · exact absurd hindex hother
  · exact Or.inl (waiting_passed s i task.id later hwaits hlater hturn)

def idleWaits : Scheduler :=
  run step Scheduler.init [.addTask (some [97]), .addTask (some [98])]

def idlePassed : List TaskOp := [.yield, .setState 2 .stopped, .yield, .yield, .yield]

theorem waiting_is_bounded_idle :
    Passed idleWaits 0 idlePassed ∨ ∃ before rest, idlePassed = before ++ .yield :: rest ∧
      Passed idleWaits 0 before ∧ Runs (run step idleWaits before).yield 0 := by
  have hlater : ∀ op ∈ idlePassed, ∀ state, op ≠ .setState 1 state := by
    unfold idlePassed
    simp
  exact waiting_is_bounded [.addTask (some [97]), .addTask (some [98])] idlePassed 0
    ⟨1, ascii "idle", .ready, 0⟩ (by decide) rfl hlater

end Hnmos.TaskFairness
