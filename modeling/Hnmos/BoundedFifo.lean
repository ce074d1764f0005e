import Mathlib

/-!
# A bounded first-in first-out queue

The queue is said by its history: what it has accepted and how much of that has
been taken. The pending elements are the accepted ones not yet taken, at most
`capacity` of them; a history that takes too much or holds too much cannot be
built. Elements may carry the number of their acceptance.
-/

set_option autoImplicit false

namespace Hnmos.BoundedFifo

variable {α : Type*} {capacity : ℕ}

structure Fifo (α : Type*) (capacity : ℕ) where
  accepted : List α
  taken : ℕ
  taken_le : taken ≤ accepted.length
  fits : accepted.length ≤ taken + capacity

def Fifo.empty (α : Type*) (capacity : ℕ) : Fifo α capacity := ⟨[], 0, le_rfl, Nat.zero_le _⟩

def Fifo.count (f : Fifo α capacity) : ℕ := f.accepted.length - f.taken

def Fifo.push (f : Fifo α capacity) (a : α) : Bool × Fifo α capacity :=
  if h : f.count < capacity then
    (true, ⟨f.accepted ++ [a], f.taken, by
      have hle := f.taken_le
      rw [List.length_append]
      omega, by
      have hle := f.taken_le
      rw [Fifo.count] at h
      rw [List.length_append, List.length_singleton]
      omega⟩)
  else (false, f)

/-- The accepted elements, each with its number put in by `stamp`. -/
def numbered (stamp : ℕ → α → α) (as : List α) : List α := as.mapIdx stamp

def Fifo.polled (stamp : ℕ → α → α) (f : Fifo α capacity) : List α :=
  (numbered stamp f.accepted).take f.taken

def Fifo.pending (stamp : ℕ → α → α) (f : Fifo α capacity) : List α :=
  (numbered stamp f.accepted).drop f.taken

def Fifo.poll (stamp : ℕ → α → α) (f : Fifo α capacity) : Option α × Fifo α capacity :=
  if h : f.taken < f.accepted.length then
    ((numbered stamp f.accepted)[f.taken]?, ⟨f.accepted, f.taken + 1, h, by
      have hfits := f.fits
      omega⟩)
  else (none, f)

section
variable (stamp : ℕ → α → α) (f : Fifo α capacity)

@[simp] theorem numbered_length (as : List α) : (numbered stamp as).length = as.length :=
  List.length_mapIdx

theorem numbered_snoc (as : List α) (a : α) :
    numbered stamp (as ++ [a]) = numbered stamp as ++ [stamp as.length a] :=
  List.mapIdx_concat

@[simp] theorem pending_length : (f.pending stamp).length = f.count := by
  rw [Fifo.pending, List.length_drop, numbered_length, Fifo.count]

theorem count_le : f.count ≤ capacity := by
  have hfits := f.fits
  rw [Fifo.count]
  omega

theorem push_room (a : α) (h : f.count < capacity) :
    (f.push a).1 = true ∧
      (f.push a).2.pending stamp = f.pending stamp ++ [stamp f.accepted.length a] ∧
      (f.push a).2.accepted = f.accepted ++ [a] ∧ (f.push a).2.taken = f.taken := by
  rw [Fifo.push, dif_pos h]
  refine ⟨rfl, ?_, rfl, rfl⟩
  rw [Fifo.pending, numbered_snoc, List.drop_append_of_le_length]
  · rfl
  · rw [numbered_length]
    exact f.taken_le

theorem push_full (a : α) (h : ¬ f.count < capacity) : f.push a = (false, f) := dif_neg h

theorem poll_some (h : 0 < f.count) : ∃ a, f.poll stamp = (some a, (f.poll stamp).2) ∧
    f.pending stamp = a :: (f.poll stamp).2.pending stamp ∧
    (f.poll stamp).2.accepted = f.accepted ∧ (f.poll stamp).2.taken = f.taken + 1 := by
  have hlt : f.taken < f.accepted.length := by
    rw [Fifo.count] at h
    omega
  have hin : f.taken < (numbered stamp f.accepted).length := by rwa [numbered_length]
  rw [Fifo.poll, dif_pos hlt, List.getElem?_eq_getElem hin]
  exact ⟨_, rfl, List.drop_eq_getElem_cons hin, rfl, rfl⟩

theorem poll_none (h : f.count = 0) : f.poll stamp = (none, f) := by
  rw [Fifo.count] at h
  exact dif_neg (by omega)

end

end Hnmos.BoundedFifo
