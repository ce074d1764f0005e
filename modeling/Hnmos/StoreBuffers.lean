import Mathlib
import Hnmos.Processor

/-!
# Processors that share a memory

Every processor puts its stores into a buffer of its own, from which they go to
the memory one after another at any later time. It sees its own stores at once.
A locked or serialising instruction waits until its processor's buffer is empty
and works on the memory itself.
-/

set_option autoImplicit false

namespace Hnmos.StoreBuffers
open Hnmos.ByteMemory Hnmos.Processor

/-- Instructions that wait for the stores before them. -/
def drains : Instr → Bool
  | .xchg _ _ => true
  | .lockAdd _ _ => true
  | .cpuid => true
  | .iret => true
  | _ => false

structure Shared (ι : Type*) where
  cores : ι → Core
  buffers : ι → List Store
  memory : Memory

variable {ι : Type*} [DecidableEq ι]

/-- The memory as a processor sees it. -/
def Shared.view (s : Shared ι) (i : ι) : Memory := apply s.memory (s.buffers i)

def Shared.setCore (s : Shared ι) (i : ι) (core : Core) : Shared ι :=
  { s with cores := Function.update s.cores i core }

def Shared.put (s : Shared ι) (i : ι) (stores : List Store) : Shared ι :=
  { s with buffers := Function.update s.buffers i (s.buffers i ++ stores) }

/-- The oldest store of a processor reaches the memory. -/
def Shared.flush (s : Shared ι) (i : ι) : Shared ι :=
  match s.buffers i with
  | [] => s
  | oldest :: rest =>
    { s with
      buffers := Function.update s.buffers i rest
      memory := store s.memory oldest.1 oldest.2 }

def Shared.execute (p : Features) (code : Code) (s : Shared ι) (i : ι) : Shared ι :=
  match code (s.cores i).eip with
  | none => s
  | some (instr, next) =>
    if drains instr then
      if s.buffers i = [] then
        let done := exec p next instr (s.cores i) s.memory
        { s.setCore i done.1 with memory := apply s.memory done.2 }
      else s
    else
      let done := exec p next instr (s.cores i) (s.view i)
      (s.setCore i done.1).put i done.2

@[simp] theorem setCore_buffers (s : Shared ι) (i : ι) (core : Core) :
    (s.setCore i core).buffers = s.buffers := rfl

@[simp] theorem setCore_memory (s : Shared ι) (i : ι) (core : Core) :
    (s.setCore i core).memory = s.memory := rfl

@[simp] theorem setCore_same (s : Shared ι) (i : ι) (core : Core) :
    (s.setCore i core).cores i = core := by
  unfold Shared.setCore
  exact Function.update_self i core s.cores

@[simp] theorem setCore_other (s : Shared ι) (i j : ι) (core : Core) (h : j ≠ i) :
    (s.setCore i core).cores j = s.cores j := by
  unfold Shared.setCore
  exact Function.update_of_ne h core s.cores

@[simp] theorem put_cores (s : Shared ι) (i : ι) (stores : List Store) :
    (s.put i stores).cores = s.cores := rfl

@[simp] theorem put_memory (s : Shared ι) (i : ι) (stores : List Store) :
    (s.put i stores).memory = s.memory := rfl

@[simp] theorem put_same (s : Shared ι) (i : ι) (stores : List Store) :
    (s.put i stores).buffers i = s.buffers i ++ stores := by
  unfold Shared.put
  exact Function.update_self i _ s.buffers

@[simp] theorem put_other (s : Shared ι) (i j : ι) (stores : List Store) (h : j ≠ i) :
    (s.put i stores).buffers j = s.buffers j := by
  unfold Shared.put
  exact Function.update_of_ne h _ s.buffers

theorem put_view (s : Shared ι) (i : ι) (stores : List Store) :
    (s.put i stores).view i = apply (s.view i) stores := by
  unfold Shared.view
  rw [put_same, put_memory, apply_append]

theorem put_view_other (s : Shared ι) (i j : ι) (stores : List Store) (h : j ≠ i) :
    (s.put i stores).view j = s.view j := by
  unfold Shared.view
  rw [put_other s i j stores h, put_memory]

@[simp] theorem flush_cores (s : Shared ι) (i : ι) : (s.flush i).cores = s.cores := by
  unfold Shared.flush
  cases s.buffers i <;> rfl

theorem flush_nil (s : Shared ι) (i : ι) (h : s.buffers i = []) : s.flush i = s := by
  rw [Shared.flush, h]

theorem flush_cons (s : Shared ι) (i : ι) (oldest : Store) (rest : List Store)
    (h : s.buffers i = oldest :: rest) :
    s.flush i = { s with
      buffers := Function.update s.buffers i rest
      memory := store s.memory oldest.1 oldest.2 } := by
  rw [Shared.flush, h]

theorem flush_view (s : Shared ι) (i : ι) : (s.flush i).view i = s.view i := by
  cases hbuffer : s.buffers i with
  | nil => rw [flush_nil s i hbuffer]
  | cons oldest rest =>
    rw [flush_cons s i oldest rest hbuffer]
    unfold Shared.view
    simp only [Function.update_self]
    rw [hbuffer, apply_cons]

theorem flush_view_other (s : Shared ι) (i j : ι) (x : UInt32) (h : j ≠ i)
    (hx : ∀ st ∈ s.buffers i, ¬ Covers st.1 x) : (s.flush i).view j x = s.view j x := by
  cases hbuffer : s.buffers i with
  | nil => rw [flush_nil s i hbuffer]
  | cons oldest rest =>
    rw [flush_cons s i oldest rest hbuffer]
    unfold Shared.view
    simp only [Function.update_of_ne h]
    apply apply_agree
    apply store_outside
    apply hx
    rw [hbuffer]
    exact List.mem_cons_self

theorem flush_memory (s : Shared ι) (i : ι) (x : UInt32)
    (hx : ∀ st ∈ s.buffers i, ¬ Covers st.1 x) : (s.flush i).memory x = s.memory x := by
  cases hbuffer : s.buffers i with
  | nil => rw [flush_nil s i hbuffer]
  | cons oldest rest =>
    rw [flush_cons s i oldest rest hbuffer]
    apply store_outside
    apply hx
    rw [hbuffer]
    exact List.mem_cons_self

theorem flush_subset (s : Shared ι) (i j : ι) (st : Store) (h : st ∈ (s.flush i).buffers j) :
    st ∈ s.buffers j := by
  cases hbuffer : s.buffers i with
  | nil => rwa [flush_nil s i hbuffer] at h
  | cons oldest rest =>
    rw [flush_cons s i oldest rest hbuffer] at h
    by_cases hj : j = i
    · subst hj
      simp only [Function.update_self] at h
      rw [hbuffer]
      exact List.mem_cons_of_mem oldest h
    · simp only [Function.update_of_ne hj] at h
      exact h

theorem execute_plain (p : Features) (code : Code) (s : Shared ι) (i : ι) (instr : Instr)
    (next : UInt32) (hcode : code (s.cores i).eip = some (instr, next))
    (hplain : drains instr = false) :
    s.execute p code i = (s.setCore i (exec p next instr (s.cores i) (s.view i)).1).put i
      (exec p next instr (s.cores i) (s.view i)).2 := by
  rw [Shared.execute, hcode]
  simp only
  rw [hplain, if_neg Bool.false_ne_true]

theorem execute_drained (p : Features) (code : Code) (s : Shared ι) (i : ι) (instr : Instr)
    (next : UInt32) (hcode : code (s.cores i).eip = some (instr, next))
    (hdrains : drains instr = true) (hempty : s.buffers i = []) :
    s.execute p code i =
      { s.setCore i (exec p next instr (s.cores i) s.memory).1 with
        memory := apply s.memory (exec p next instr (s.cores i) s.memory).2 } := by
  rw [Shared.execute, hcode]
  simp only
  rw [if_pos hdrains, if_pos hempty]

theorem execute_waiting (p : Features) (code : Code) (s : Shared ι) (i : ι) (instr : Instr)
    (next : UInt32) (hcode : code (s.cores i).eip = some (instr, next))
    (hdrains : drains instr = true) (hbusy : s.buffers i ≠ []) : s.execute p code i = s := by
  rw [Shared.execute, hcode]
  simp only
  rw [if_pos hdrains, if_neg hbusy]

end Hnmos.StoreBuffers
