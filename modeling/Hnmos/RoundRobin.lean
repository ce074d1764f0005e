import Mathlib
import Hnmos.NextFit
import Hnmos.TaskScheduler
import Hnmos.Transition

/-!
# Round-robin scheduling

In every reachable state the task with the current index runs and the others
are ready. A yield therefore finds the very next task ready, so that in a
window of as many yields as there are tasks each of them has its turn.
-/

set_option autoImplicit false

namespace Hnmos.RoundRobin
open Hnmos.CString Hnmos.NextFit Hnmos.TaskScheduler Hnmos.Transition

inductive SchedulerOp where
  | addTask (name : Option (List UInt8))
  | yield

def step (s : Scheduler) : SchedulerOp → Scheduler
  | .addTask name => (s.addTask name).2
  | .yield => s.yield

def selections (s : Scheduler) : ℕ → List ℕ
  | 0 => []
  | count + 1 => s.yield.currentIndex :: selections s.yield count

/-- The identifiers of a registry are its positions, counted from one. -/
def Numbered (tasks : List Task) : Prop :=
  ∀ i task, tasks[i]? = some task → task.id.toNat = i + 1

def OneRunning (tasks : List Task) (current : ℕ) : Prop :=
  ∀ i task, tasks[i]? = some task → task.state = if i = current then .running else .ready

def yields (tasks : List Task) : UInt32 := (tasks.map Task.yieldCount).sum

structure Scheduled (s : Scheduler) : Prop where
  ready : s.ready = true
  current : s.currentIndex < s.registry.tasks.length
  room : s.registry.tasks.length ≤ 8
  nextId : s.registry.nextId.toNat = s.registry.tasks.length + 1
  numbered : Numbered s.registry.tasks
  oneRunning : OneRunning s.registry.tasks s.currentIndex
  total : s.yieldTotal = yields s.registry.tasks

/-- What the registry keeps whatever the states of the tasks: identifiers are
positions and the current index is one of them. -/
structure Registered (s : Scheduler) : Prop where
  ready : s.ready = true
  current : s.currentIndex < s.registry.tasks.length
  room : s.registry.tasks.length ≤ 8
  nextId : s.registry.nextId.toNat = s.registry.tasks.length + 1
  numbered : Numbered s.registry.tasks

theorem Scheduled.registered {s : Scheduler} (h : Scheduled s) : Registered s :=
  ⟨h.ready, h.current, h.room, h.nextId, h.numbered⟩

theorem numbered_modify (tasks : List Task) (i : ℕ) (change : Task → Task)
    (hchange : ∀ task, (change task).id = task.id) (h : Numbered tasks) :
    Numbered (tasks.modify i change) := by
  intro j task hj
  rw [List.getElem?_modify] at hj
  obtain ⟨old, hold, rfl⟩ := Option.map_eq_some_iff.mp hj
  split_ifs
  · rw [hchange]
    exact h j old hold
  · exact h j old hold

theorem modify_at (r : Registry) (i : ℕ) (task : Task) (change : Task → Task)
    (hn : Numbered r.tasks) (hi : r.tasks[i]? = some task) :
    r.modify task.id change = { r with tasks := r.tasks.modify i change } := by
  have hindex : r.indexById task.id = some i := by
    obtain ⟨hlt, hget⟩ := List.getElem?_eq_some_iff.mp hi
    rw [Registry.indexById, List.findIdx?_eq_some_iff_getElem]
    refine ⟨hlt, by simp [hget], ?_⟩
    intro j hj
    have hearlier : j < r.tasks.length := hj.trans hlt
    have hother := hn j _ (List.getElem?_eq_getElem hearlier)
    have hthis := hn i task hi
    have hne : r.tasks[j].id ≠ task.id := by
      intro heq
      rw [heq] at hother
      omega
    simpa using hne
  rw [Registry.modify, hindex]

theorem yields_modify_same (tasks : List Task) (i : ℕ) (change : Task → Task)
    (hchange : ∀ task, (change task).yieldCount = task.yieldCount) :
    yields (tasks.modify i change) = yields tasks := by
  induction tasks generalizing i with
  | nil => simp
  | cons task tasks ih =>
    cases i with
    | zero => simp [yields, hchange]
    | succ i => simpa [yields] using ih i

theorem yields_modify_succ (tasks : List Task) (i : ℕ) (change : Task → Task)
    (hi : i < tasks.length) (hchange : ∀ task, (change task).yieldCount = task.yieldCount + 1) :
    yields (tasks.modify i change) = yields tasks + 1 := by
  induction tasks generalizing i with
  | nil => exact absurd hi (Nat.not_lt_zero i)
  | cons task tasks ih =>
    cases i with
    | zero =>
      simp only [yields, List.modify_zero_cons, List.map_cons, List.sum_cons, hchange]
      exact add_right_comm _ _ _
    | succ i =>
      have hrest := ih i (by simpa using hi)
      simp only [yields, List.modify_succ_cons, List.map_cons, List.sum_cons] at hrest ⊢
      rw [hrest, add_assoc]

def toReady (task : Task) : Task := { task with state := .ready }

def toRunning (task : Task) : Task :=
  { task with state := .running, yieldCount := task.yieldCount + 1 }

def Scheduler.turned (s : Scheduler) : Scheduler :=
  let next := (s.currentIndex + 1) % s.registry.tasks.length
  { s with
    registry := { s.registry with
      tasks := (s.registry.tasks.modify s.currentIndex toReady).modify next toRunning }
    currentIndex := next
    yieldTotal := s.yieldTotal + 1 }

theorem setRunning_eq (r : Registry) (i : ℕ) (candidate : Task) (hn : Numbered r.tasks)
    (hi : r.tasks[i]? = some candidate) :
    (r.setState candidate.id .running).incrementYieldCount candidate.id =
      { r with tasks := r.tasks.modify i toRunning } := by
  have hset : r.setState candidate.id .running = { r with
      tasks := r.tasks.modify i fun task => { task with state := .running } } :=
    modify_at r i candidate _ hn hi
  have hrunning : (r.tasks.modify i fun task => { task with state := .running })[i]? =
      some { candidate with state := .running } := by
    rw [List.getElem?_modify_eq, hi]
    rfl
  have hcount := modify_at { r with
      tasks := r.tasks.modify i fun task => { task with state := .running } } i _
    (fun task => { task with yieldCount := task.yieldCount + 1 })
    (numbered_modify _ _ _ (fun _ => rfl) hn) hrunning
  rw [hset, Registry.incrementYieldCount]
  rw [show candidate.id = ({ candidate with state := .running } : Task).id from rfl, hcount,
    List.modify_modify_eq]
  rfl

theorem searchFrom_first (s : Scheduler) (start left : ℕ) (candidate : Task)
    (hn : Numbered s.registry.tasks)
    (hcandidate : s.registry.tasks[(start + 1) % s.registry.tasks.length]? = some candidate)
    (hready : candidate.state = .ready) :
    s.searchFrom start (left + 1) 1 = some { s with
      registry := { s.registry with
        tasks := s.registry.tasks.modify ((start + 1) % s.registry.tasks.length) toRunning }
      currentIndex := (start + 1) % s.registry.tasks.length
      yieldTotal := s.yieldTotal + 1 } := by
  rw [Scheduler.searchFrom]
  simp only [hcandidate, hready, if_true]
  rw [setRunning_eq s.registry _ candidate hn hcandidate]

theorem yield_turned (s : Scheduler) (h : Scheduled s) : s.yield = Scheduler.turned s := by
  obtain ⟨current, hcurrent⟩ : ∃ task, s.registry.tasks[s.currentIndex]? = some task :=
    ⟨_, List.getElem?_eq_getElem h.current⟩
  have hne : s.registry.tasks ≠ [] := List.ne_nil_of_length_pos (Nat.zero_lt_of_lt h.current)
  have hrunning : current.state = .running := by
    rw [h.oneRunning _ current hcurrent, if_pos rfl]
  have hready : s.registry.setState current.id .ready =
      { s.registry with tasks := s.registry.tasks.modify s.currentIndex toReady } :=
    modify_at s.registry _ current _ h.numbered hcurrent
  have hlength : (s.registry.tasks.modify s.currentIndex toReady).length =
      s.registry.tasks.length := List.length_modify ..
  have hpos : 0 < s.registry.tasks.length := List.length_pos_iff.mpr hne
  obtain ⟨candidate, hcandidate⟩ : ∃ task, (s.registry.tasks.modify s.currentIndex toReady)[
      (s.currentIndex + 1) % s.registry.tasks.length]? = some task :=
    ⟨_, List.getElem?_eq_getElem (by rw [hlength]; exact Nat.mod_lt _ hpos)⟩
  have hcandidate_ready : candidate.state = .ready := by
    rw [List.getElem?_modify] at hcandidate
    obtain ⟨old, hold, rfl⟩ := Option.map_eq_some_iff.mp hcandidate
    split_ifs with hsame
    · rfl
    · rw [h.oneRunning _ old hold, if_neg fun heq => hsame heq.symm]
  obtain ⟨left, hleft⟩ := Nat.exists_eq_add_of_lt hpos
  rw [Nat.zero_add] at hleft
  have hsearch := searchFrom_first { s with registry := { s.registry with
      tasks := s.registry.tasks.modify s.currentIndex toReady } } s.currentIndex left candidate
    (numbered_modify _ _ _ (fun _ => rfl) h.numbered) (by rw [hlength]; exact hcandidate)
    hcandidate_ready
  rw [Scheduler.yield, if_neg (by simp [h.ready, hne])]
  simp only [hcurrent, hrunning, if_true, hready, Scheduler.selectTask, hlength]
  simp only [hlength] at hsearch
  rw [hleft, hsearch, Option.getD_some, Scheduler.turned]

theorem turned_scheduled (s : Scheduler) (h : Scheduled s) : Scheduled (Scheduler.turned s) := by
  have hpos : 0 < s.registry.tasks.length := Nat.lt_of_le_of_lt (Nat.zero_le _) h.current
  have hlength : (Scheduler.turned s).registry.tasks.length = s.registry.tasks.length := by
    rw [Scheduler.turned, List.length_modify, List.length_modify]
  have hnext := Nat.mod_lt (s.currentIndex + 1) hpos
  refine ⟨h.ready, by rw [hlength]; exact hnext, by rw [hlength]; exact h.room,
    by rw [hlength]; exact h.nextId, ?_, ?_, ?_⟩
  · apply numbered_modify _ _ toRunning fun _ => rfl
    exact numbered_modify _ _ toReady (fun _ => rfl) h.numbered
  · intro i task hi
    rw [Scheduler.turned, List.getElem?_modify, List.getElem?_modify] at hi
    obtain ⟨middle, hmiddle, rfl⟩ := Option.map_eq_some_iff.mp hi
    obtain ⟨old, hold, rfl⟩ := Option.map_eq_some_iff.mp hmiddle
    have hstate := h.oneRunning i old hold
    show _ = if i = (s.currentIndex + 1) % s.registry.tasks.length then RunState.running else .ready
    by_cases hnow : i = (s.currentIndex + 1) % s.registry.tasks.length
    · rw [if_pos hnow.symm, if_pos hnow]
      rfl
    · rw [if_neg fun heq => hnow heq.symm, if_neg hnow]
      by_cases hwas : i = s.currentIndex
      · rw [if_pos hwas.symm]
        rfl
      · rw [if_neg fun heq => hwas heq.symm, hstate, if_neg hwas]
  · show s.yieldTotal + 1 = _
    rw [Scheduler.turned, yields_modify_succ _ _ toRunning
      (by rw [List.length_modify]; exact hnext) fun _ => rfl,
      yields_modify_same _ _ toReady fun _ => rfl, h.total]

theorem addTask_cases (s : Scheduler) (name : Option (List UInt8)) :
    ((name = none ∨ 8 ≤ s.registry.tasks.length) ∧ s.addTask name = (none, s)) ∨
      ∃ text, name = some text ∧ s.registry.tasks.length < 8 ∧
        s.addTask name = (some s.registry.nextId, { s with
          registry := ⟨s.registry.tasks ++ [⟨s.registry.nextId, text, .ready, 0⟩],
            s.registry.nextId + 1⟩ }) := by
  cases name with
  | none => exact Or.inl ⟨Or.inl rfl, rfl⟩
  | some text =>
    by_cases hfull : 8 ≤ s.registry.tasks.length
    · left
      refine ⟨Or.inr hfull, ?_⟩
      simp only [Scheduler.addTask, Registry.register, if_pos hfull]
    · right
      refine ⟨text, rfl, by omega, ?_⟩
      simp only [Scheduler.addTask, Registry.register, if_neg hfull]

theorem getElem?_snoc_cases {α : Type*} (as : List α) (a b : α) (i : ℕ)
    (h : (as ++ [a])[i]? = some b) : as[i]? = some b ∨ i = as.length ∧ a = b := by
  rw [List.getElem?_append] at h
  split_ifs at h with hlt
  · exact Or.inl h
  · have hmem := List.getElem?_eq_some_iff.mp h
    obtain ⟨hlast, hget⟩ := hmem
    rw [List.length_singleton] at hlast
    right
    refine ⟨by omega, ?_⟩
    rwa [List.getElem_singleton] at hget

theorem addTask_registered (s : Scheduler) (name : Option (List UInt8)) (h : Registered s) :
    Registered (s.addTask name).2 := by
  rcases addTask_cases s name with ⟨_, hrefused⟩ | ⟨text, _, hroom, hadded⟩
  · rw [hrefused]
    exact h
  · rw [hadded]
    have hid := h.nextId
    refine ⟨h.ready, ?_, ?_, ?_, ?_⟩
    · rw [List.length_append, List.length_singleton]
      exact Nat.lt_succ_of_lt h.current
    · rw [List.length_append, List.length_singleton]
      omega
    · rw [List.length_append, List.length_singleton, UInt32.toNat_add, hid]
      show (s.registry.tasks.length + 1 + 1) % 2 ^ 32 = _
      omega
    · intro i task hi
      rcases getElem?_snoc_cases _ _ task i hi with hold | ⟨rfl, rfl⟩
      · exact h.numbered i task hold
      · exact hid

theorem addTask_scheduled (s : Scheduler) (name : Option (List UInt8)) (h : Scheduled s) :
    Scheduled (s.addTask name).2 := by
  have hnext := addTask_registered s name h.registered
  refine ⟨hnext.ready, hnext.current, hnext.room, hnext.nextId, hnext.numbered, ?_, ?_⟩
  all_goals rcases addTask_cases s name with ⟨_, hrefused⟩ | ⟨text, _, _, hadded⟩
  · rw [hrefused]
    exact h.oneRunning
  · rw [hadded]
    intro i task hi
    rcases getElem?_snoc_cases _ _ task i hi with hold | ⟨rfl, rfl⟩
    · exact h.oneRunning i task hold
    · exact (if_neg h.current.ne').symm
  · rw [hrefused]
    exact h.total
  · rw [hadded, yields, List.map_append, List.sum_append, List.map_singleton, List.sum_singleton,
      add_zero]
    exact h.total

theorem init_scheduled : Scheduled Scheduler.init := by
  have htasks : Scheduler.init.registry.tasks =
      [⟨1, ascii "idle", .ready, 0⟩, ⟨2, ascii "ui", .running, 0⟩] := by decide
  refine ⟨by decide, by decide, by decide, by decide, ?_, ?_, by decide⟩
  · rw [htasks]
    rintro (_ | _ | i) task hi
    · obtain rfl := Option.some.inj hi
      rfl
    · obtain rfl := Option.some.inj hi
      rfl
    · exact absurd hi (by simp)
  · have hcurrent : Scheduler.init.currentIndex = 1 := by decide
    rw [htasks, hcurrent]
    rintro (_ | _ | i) task hi
    · obtain rfl := Option.some.inj hi
      rfl
    · obtain rfl := Option.some.inj hi
      rfl
    · exact absurd hi (by simp)

theorem step_scheduled (s : Scheduler) (op : SchedulerOp) (h : Scheduled s) :
    Scheduled (step s op) := by
  cases op with
  | addTask name => exact addTask_scheduled s name h
  | yield =>
    rw [step, yield_turned s h]
    exact turned_scheduled s h

/-- The selected indices go round from the current one. -/
theorem selections_eq (s : Scheduler) (h : Scheduled s) (count : ℕ) :
    selections s count =
      (List.range count).map fun k => (s.currentIndex + 1 + k) % s.registry.tasks.length := by
  induction count generalizing s with
  | zero => rfl
  | succ count ih =>
    have hlength : (Scheduler.turned s).registry.tasks.length = s.registry.tasks.length := by
      rw [Scheduler.turned, List.length_modify, List.length_modify]
    rw [selections, yield_turned s h, ih _ (turned_scheduled s h), hlength, List.range_succ_eq_map,
      List.map_cons, List.map_map]
    congr 1
    apply List.map_congr_left
    intro k _
    show ((s.currentIndex + 1) % _ + 1 + k) % _ = (s.currentIndex + 1 + (k + 1)) % _
    rw [Nat.add_assoc, Nat.mod_add_mod, Nat.add_comm 1 k]

/-- After every sequence of added tasks and yields: the current task runs and
all others are ready, identifiers are positions counted from one, a refused
task changes nothing, the total is the sum of the tasks' counts, and in the
next yields, as many as there are tasks, each task is selected once. -/
theorem round_robin (ops : List SchedulerOp) :
    let s := run step Scheduler.init ops
    (∃ current, s.currentTask = some current ∧ current.state = .running ∧
      s.registry.tasks[s.currentIndex]? = some current) ∧
    (∀ i task, s.registry.tasks[i]? = some task → i ≠ s.currentIndex → task.state = .ready) ∧
    (∀ i task, s.registry.tasks[i]? = some task → task.id.toNat = i + 1) ∧
    (∀ name, (s.addTask name).1 = none ↔ name = none ∨ s.registry.tasks.length = 8) ∧
    (∀ name, (s.addTask name).1 = none → (s.addTask name).2 = s) ∧
    s.yieldTotal = (s.registry.tasks.map Task.yieldCount).sum ∧
    (selections s s.registry.tasks.length).Perm (List.range s.registry.tasks.length) := by
  intro s
  have h : Scheduled s := run_invariant_all step Scheduled step_scheduled _ ops init_scheduled
  obtain ⟨current, hcurrent⟩ : ∃ task, s.registry.tasks[s.currentIndex]? = some task :=
    ⟨_, List.getElem?_eq_getElem h.current⟩
  refine ⟨⟨current, ?_, ?_, hcurrent⟩, ?_, h.numbered, ?_, ?_, h.total, ?_⟩
  · rw [Scheduler.currentTask, if_pos h.ready, hcurrent]
  · rw [h.oneRunning _ current hcurrent, if_pos rfl]
  · intro i task hi hother
    rw [h.oneRunning i task hi, if_neg hother]
  · intro name
    have hroom := h.room
    rcases addTask_cases s name with ⟨hwhy, hrefused⟩ | ⟨text, rfl, hlt, hadded⟩
    · rw [hrefused]
      exact ⟨fun _ => hwhy.imp_right fun hfull => le_antisymm hroom hfull, fun _ => rfl⟩
    · rw [hadded]
      constructor
      · exact fun hnone => absurd hnone (Option.some_ne_none _)
      · rintro (hnone | hfull)
        · exact absurd hnone (Option.some_ne_none _)
        · omega
  · intro name hnone
    rcases addTask_cases s name with ⟨_, hrefused⟩ | ⟨text, _, _, hadded⟩
    · rw [hrefused]
    · rw [hadded] at hnone
      exact absurd hnone (Option.some_ne_none _)
  · rw [selections_eq s h]
    exact cycle_perm _ _

end Hnmos.RoundRobin
