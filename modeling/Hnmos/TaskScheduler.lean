import Mathlib
import Hnmos.CString

/-!
# The cooperative scheduler

A registry of at most eight tasks and a round-robin choice of the next ready
one. Entry points and saved contexts are never run and are left out.
-/

set_option autoImplicit false

namespace Hnmos.TaskScheduler
open Hnmos.CString

inductive RunState where
  | ready | running | blocked | stopped
  deriving DecidableEq

def RunState.name : RunState → List UInt8
  | .ready => ascii "ready"
  | .running => ascii "running"
  | .blocked => ascii "blocked"
  | .stopped => ascii "stopped"

structure Task where
  id : UInt32
  name : List UInt8
  state : RunState
  yieldCount : UInt32
  deriving DecidableEq

structure Registry where
  tasks : List Task
  nextId : UInt32
  deriving DecidableEq

def Registry.init : Registry := ⟨[], 1⟩

def Registry.register (r : Registry) (name : Option (List UInt8)) (initial : RunState) :
    Option UInt32 × Registry :=
  match name with
  | none => (none, r)
  | some name =>
    if 8 ≤ r.tasks.length then (none, r)
    else (some r.nextId, ⟨r.tasks ++ [⟨r.nextId, name, initial, 0⟩], r.nextId + 1⟩)

def Registry.indexById (r : Registry) (id : UInt32) : Option ℕ :=
  r.tasks.findIdx? fun task => task.id == id

def Registry.modify (r : Registry) (id : UInt32) (change : Task → Task) : Registry :=
  match r.indexById id with
  | none => r
  | some index => { r with tasks := r.tasks.modify index change }

def Registry.setState (r : Registry) (id : UInt32) (state : RunState) : Registry :=
  r.modify id fun task => { task with state := state }

def Registry.incrementYieldCount (r : Registry) (id : UInt32) : Registry :=
  r.modify id fun task => { task with yieldCount := task.yieldCount + 1 }

structure Scheduler where
  registry : Registry
  ready : Bool
  currentIndex : ℕ
  yieldTotal : UInt32
  deriving DecidableEq

/-- The search for the next ready task: `left` offsets are still to be tried,
the next of them is `offset`. -/
def Scheduler.searchFrom (s : Scheduler) (start : ℕ) : ℕ → ℕ → Option Scheduler
  | 0, _ => none
  | left + 1, offset =>
    let index := (start + offset) % s.registry.tasks.length
    match s.registry.tasks[index]? with
    | some candidate =>
      if candidate.state = .ready then
        some { s with
          currentIndex := index
          registry := (s.registry.setState candidate.id .running).incrementYieldCount candidate.id
          yieldTotal := s.yieldTotal + 1 }
      else s.searchFrom start left (offset + 1)
    | none => s.searchFrom start left (offset + 1)

def Scheduler.selectTask (s : Scheduler) (start : ℕ) : Option Scheduler :=
  s.searchFrom start s.registry.tasks.length 1

def Scheduler.addTask (s : Scheduler) (name : Option (List UInt8)) : Option UInt32 × Scheduler :=
  match s.registry.register name .ready with
  | (id, registry) => (id, { s with registry := registry })

def Scheduler.init : Scheduler :=
  let s : Scheduler := ⟨Registry.init, true, 0, 0⟩
  let s := (s.addTask (some (ascii "idle"))).2
  match s.addTask (some (ascii "ui")) with
  | (none, s) => s
  | (some id, s) =>
    match s.registry.indexById id with
    | none => s
    | some index => { s with currentIndex := index, registry := s.registry.setState id .running }

def Scheduler.yield (s : Scheduler) : Scheduler :=
  if s.ready = false ∨ s.registry.tasks = [] then s
  else
    match s.registry.tasks[s.currentIndex]? with
    | none => (s.selectTask s.currentIndex).getD s
    | some current =>
      let s :=
        if current.state = .running then
          { s with registry := s.registry.setState current.id .ready }
        else s
      (s.selectTask s.currentIndex).getD
        { s with registry := s.registry.setState current.id .running }

def Scheduler.currentTask (s : Scheduler) : Option Task :=
  if s.ready then s.registry.tasks[s.currentIndex]? else none

end Hnmos.TaskScheduler
