import Mathlib

/-!
# Circular buffers as bounded queues

The head is the next cell to be written, the tail the next cell to be read.
One cell stays free, so equal indices mean an empty buffer and a full buffer
holds one element less than it has cells. A push into a full buffer only
counts the loss. Both indices are `Fin n`: an index outside the array cannot
be built. Everything a client needs is stated about the list of pending
elements.
-/

set_option autoImplicit false

namespace Hnmos.RingBuffer

structure Ring (α : Type*) (n : ℕ) where
  cells : Fin n → α
  head : Fin n
  tail : Fin n
  dropped : UInt32

variable {α : Type*} {n : ℕ}

def Ring.pending (r : Ring α n) : ℕ := (r.head - r.tail).val

theorem pending_lt (r : Ring α n) : r.pending < n := (r.head - r.tail).isLt

theorem sub_val (i j : Fin n) :
    (i - j).val = if j.val ≤ i.val then i.val - j.val else n - j.val + i.val := by
  have hi := i.isLt
  have hj := j.isLt
  rw [Fin.sub_def]
  split_ifs with h
  · have hs : n - j.val + i.val = i.val - j.val + n := by omega
    simp only [hs, Nat.add_mod_right]
    exact Nat.mod_eq_of_lt (by omega)
  · exact Nat.mod_eq_of_lt (by omega)

variable [NeZero n]

def Ring.full (r : Ring α n) : Bool := r.head + 1 == r.tail

def Ring.push (r : Ring α n) (a : α) : Ring α n :=
  if r.full then { r with dropped := r.dropped + 1 }
  else { r with cells := Function.update r.cells r.head a, head := r.head + 1 }

def Ring.pop (r : Ring α n) : Option (α × Ring α n) :=
  if r.tail = r.head then none
  else some (r.cells r.tail, { r with tail := r.tail + 1 })

def Ring.slot (r : Ring α n) (i : ℕ) : Fin n := r.tail + Fin.ofNat n i

def Ring.contents (r : Ring α n) : List α :=
  (List.range r.pending).map fun i => r.cells (r.slot i)

theorem succ_val (i : Fin n) :
    (i + 1).val = if i.val + 1 = n then 0 else i.val + 1 := by
  have hi := i.isLt
  rw [Fin.val_add, Fin.val_one', Nat.add_mod_mod]
  split_ifs with h
  · rw [h, Nat.mod_self]
  · exact Nat.mod_eq_of_lt (by omega)

theorem slot_val (r : Ring α n) (i : ℕ) (hi : i < n) :
    (r.slot i).val = if r.tail.val + i < n then r.tail.val + i else r.tail.val + i - n := by
  have ht := r.tail.isLt
  rw [Ring.slot, Fin.val_add, Fin.val_ofNat, Nat.add_mod_mod]
  split_ifs with h
  · exact Nat.mod_eq_of_lt h
  · rw [Nat.mod_eq_sub_mod (by omega)]
    exact Nat.mod_eq_of_lt (by omega)

@[simp] theorem contents_length (r : Ring α n) : r.contents.length = r.pending := by
  simp [Ring.contents]

theorem full_iff (r : Ring α n) : r.full = true ↔ r.pending + 1 = n := by
  have hh := r.head.isLt
  have ht := r.tail.isLt
  rw [Ring.full, beq_iff_eq, Fin.ext_iff, succ_val, Ring.pending, sub_val]
  split_ifs <;> omega

theorem push_full (r : Ring α n) (a : α) (h : r.full = true) :
    r.push a = { r with dropped := r.dropped + 1 } := if_pos h

theorem push_full_contents (r : Ring α n) (a : α) (h : r.full = true) :
    (r.push a).contents = r.contents := by
  rw [push_full r a h]
  rfl

theorem push_pending (r : Ring α n) (a : α) (h : r.full = false) :
    (r.push a).pending = r.pending + 1 := by
  have hh := r.head.isLt
  have ht := r.tail.isLt
  have hf : ¬ r.pending + 1 = n := fun e => by simp [(full_iff r).mpr e] at h
  simp only [Ring.pending, sub_val] at hf
  simp only [Ring.push, h, Ring.pending, sub_val, succ_val, Bool.false_eq_true, if_false]
  split_ifs at hf ⊢ <;> omega

/-- A push with a free cell appends to the queue. The written cell is the
head, which no pending slot reaches. -/
theorem push_contents (r : Ring α n) (a : α) (h : r.full = false) :
    (r.push a).contents = r.contents ++ [a] := by
  have hh := r.head.isLt
  have ht := r.tail.isLt
  have hp := pending_lt r
  have hslot : ∀ i, (r.push a).slot i = r.slot i := by
    intro i
    simp [Ring.push, h, Ring.slot]
  rw [Ring.contents, push_pending r a h, List.range_succ, List.map_append]
  congr 1
  · apply List.map_congr_left
    intro i hi
    have hi' : i < r.pending := List.mem_range.mp hi
    have hne : r.slot i ≠ r.head := by
      intro he
      have hv := congrArg Fin.val he
      rw [slot_val r i (by omega)] at hv
      simp only [Ring.pending, sub_val] at hi'
      split_ifs at hv hi' <;> omega
    rw [hslot]
    simp [Ring.push, h, hne]
  · have he : r.slot r.pending = r.head := by
      apply Fin.ext
      rw [slot_val r _ hp]
      simp only [Ring.pending, sub_val]
      split_ifs <;> omega
    simp only [List.map_cons, List.map_nil, hslot, he]
    simp [Ring.push, h]

theorem pop_none_iff (r : Ring α n) : r.pop = none ↔ r.contents = [] := by
  have hh := r.head.isLt
  have ht := r.tail.isLt
  have hz : r.contents = [] ↔ r.pending = 0 := by
    rw [← List.length_eq_zero_iff, contents_length]
  rw [hz, Ring.pending, sub_val, Ring.pop]
  split_ifs with h h'
  · simp [h]
  · omega
  · have hv : r.tail.val ≠ r.head.val := fun e => h (Fin.ext e)
    simp only [false_iff]
    omega
  · simp only [false_iff]
    omega

theorem pop_pending (r s : Ring α n) (a : α) (h : r.pop = some (a, s)) :
    s.pending + 1 = r.pending := by
  have hh := r.head.isLt
  have ht := r.tail.isLt
  simp only [Ring.pop] at h
  split_ifs at h with he
  have hv : r.tail.val ≠ r.head.val := fun e => he (Fin.ext e)
  obtain ⟨_, rfl⟩ := Prod.mk.injEq _ _ _ _ ▸ Option.some.inj h
  simp only [Ring.pending, sub_val, succ_val]
  split_ifs <;> omega

theorem pop_contents (r s : Ring α n) (a : α) (h : r.pop = some (a, s)) :
    r.contents = a :: s.contents := by
  have ht := r.tail.isLt
  have hp := pop_pending r s a h
  have hr := pending_lt r
  simp only [Ring.pop] at h
  split_ifs at h
  obtain ⟨rfl, rfl⟩ := Prod.mk.injEq _ _ _ _ ▸ Option.some.inj h
  rw [Ring.contents, ← hp, List.range_succ_eq_map, List.map_cons, List.map_map]
  congr 1
  · simp [Ring.slot]
  · apply List.map_congr_left
    intro i hi
    have hi' := List.mem_range.mp hi
    have he : r.slot (i + 1) = ({ r with tail := r.tail + 1 } : Ring α n).slot i := by
      apply Fin.ext
      rw [slot_val r _ (by omega), slot_val _ i (by omega)]
      simp only [succ_val]
      split_ifs <;> omega
    simp only [Function.comp_apply, Nat.succ_eq_add_one, he]

theorem pop_dropped (r s : Ring α n) (a : α) (h : r.pop = some (a, s)) :
    s.dropped = r.dropped := by
  simp only [Ring.pop] at h
  split_ifs at h
  obtain ⟨_, rfl⟩ := Prod.mk.injEq _ _ _ _ ▸ Option.some.inj h
  rfl

def Ring.cleared (cells : Fin n → α) : Ring α n := ⟨cells, 0, 0, 0⟩

@[simp] theorem cleared_contents (cells : Fin n → α) : (Ring.cleared cells).contents = [] := by
  simp [Ring.cleared, Ring.contents, Ring.pending]

def Ring.pushAll (r : Ring α n) (as : List α) : Ring α n := as.foldl Ring.push r

@[simp] theorem pushAll_nil (r : Ring α n) : r.pushAll [] = r := rfl

@[simp] theorem pushAll_cons (r : Ring α n) (a : α) (as : List α) :
    r.pushAll (a :: as) = (r.push a).pushAll as := rfl

theorem push_contents_take (r : Ring α n) (a : α) :
    (r.push a).contents = (r.contents ++ [a]).take (n - 1) := by
  have hp := pending_lt r
  have hl := contents_length r
  cases h : r.full with
  | true =>
    have hf := (full_iff r).mp h
    rw [push_full_contents r a h, List.take_append_of_le_length (by omega),
      List.take_of_length_le (by omega)]
  | false =>
    have hf : ¬ r.pending + 1 = n := fun e => by simp [(full_iff r).mpr e] at h
    rw [push_contents r a h, List.take_of_length_le (by simp; omega)]

/-- A burst of pushes keeps what fits and loses the rest. -/
theorem pushAll_contents (r : Ring α n) (as : List α) :
    (r.pushAll as).contents = (r.contents ++ as).take (n - 1) := by
  induction as generalizing r with
  | nil =>
    have hp := pending_lt r
    have hl := contents_length r
    rw [pushAll_nil, List.append_nil, List.take_of_length_le (by omega)]
  | cons a as ih =>
    rw [pushAll_cons, ih, push_contents_take]
    rcases Nat.lt_or_ge (r.contents ++ [a]).length n with h | h
    · have hall : (r.contents ++ [a]).take (n - 1) = r.contents ++ [a] :=
        List.take_of_length_le (by omega)
      rw [hall, List.append_assoc]
      rfl
    · have hsplit : r.contents ++ a :: as = (r.contents ++ [a]) ++ as := by simp
      have hcut : ((r.contents ++ [a]) ++ as).take (n - 1) = (r.contents ++ [a]).take (n - 1) :=
        List.take_append_of_le_length (by omega)
      rw [hsplit, List.take_append_of_le_length (by simp only [List.length_take]; omega),
        List.take_take, Nat.min_self, hcut]

def Ring.storing : Ring α n → List α → List (α × Bool)
  | _, [] => []
  | r, a :: as => (a, !r.full) :: (r.push a).storing as

def stored (marks : List (α × Bool)) : List α := (marks.filter Prod.snd).map Prod.fst

theorem stored_append (ms ns : List (α × Bool)) : stored (ms ++ ns) = stored ms ++ stored ns := by
  simp [stored]

theorem stored_of_all (ms : List (α × Bool)) (h : ∀ m ∈ ms, m.2 = true) :
    stored ms = ms.map Prod.fst := by
  rw [stored, List.filter_eq_self.mpr h]

theorem stored_split (ms : List (α × Bool)) (as : List α) (a : α) (bs : List α)
    (h : stored ms = as ++ a :: bs) :
    ∃ front rest, ms = front ++ (a, true) :: rest ∧ stored front = as ∧ stored rest = bs := by
  induction ms generalizing as with
  | nil => simp [stored] at h
  | cons m ms ih =>
    obtain ⟨c, kept⟩ := m
    cases kept with
    | false =>
      have hskip : stored ((c, false) :: ms) = stored ms := by simp [stored]
      obtain ⟨front, rest, hms, hfront, hrest⟩ := ih as (hskip ▸ h)
      exact ⟨(c, false) :: front, rest, by rw [hms, List.cons_append],
        by simpa [stored] using hfront, hrest⟩
    | true =>
      have hkeep : stored ((c, true) :: ms) = c :: stored ms := by simp [stored]
      rw [hkeep] at h
      cases as with
      | nil =>
        obtain ⟨rfl, htail⟩ := List.cons.inj h
        exact ⟨[], ms, rfl, rfl, htail⟩
      | cons b as =>
        obtain ⟨rfl, htail⟩ := List.cons.inj h
        obtain ⟨front, rest, hms, hfront, hrest⟩ := ih as htail
        exact ⟨(c, true) :: front, rest, by rw [hms, List.cons_append],
          by simpa [stored] using hfront, hrest⟩

theorem storing_fst (r : Ring α n) (as : List α) : (r.storing as).map Prod.fst = as := by
  induction as generalizing r with
  | nil => rfl
  | cons a as ih => rw [Ring.storing, List.map_cons, ih]

theorem storing_contents (r : Ring α n) (as : List α) :
    (r.pushAll as).contents = r.contents ++ stored (r.storing as) := by
  induction as generalizing r with
  | nil => simp [Ring.storing, stored]
  | cons a as ih =>
    rw [pushAll_cons, ih, Ring.storing]
    cases h : r.full with
    | true => rw [push_full_contents r a h]; simp [stored]
    | false => rw [push_contents r a h]; simp [stored]

theorem storing_fits (r : Ring α n) (as : List α) (h : r.contents.length + as.length < n) :
    ∀ m ∈ r.storing as, m.2 = true := by
  have hstored := storing_contents r as
  rw [pushAll_contents, List.take_of_length_le (by rw [List.length_append]; omega)] at hstored
  have hlength := congrArg List.length (List.append_cancel_left hstored)
  have hall := congrArg List.length (storing_fst r as)
  rw [List.length_map] at hall
  rw [stored, List.length_map, ← hall, eq_comm, List.length_filter_eq_length_iff] at hlength
  exact hlength

theorem storing_dropped (r : Ring α n) (as : List α) :
    (r.pushAll as).dropped =
      r.dropped + UInt32.ofNat ((r.storing as).countP fun m => !m.2) := by
  induction as generalizing r with
  | nil => simp [Ring.storing]
  | cons a as ih =>
    rw [pushAll_cons, ih, Ring.storing]
    cases h : r.full with
    | true =>
      rw [push_full r a h]
      simp only [Bool.not_true, List.countP_cons, Bool.not_false, if_true, UInt32.ofNat_add]
      grind
    | false =>
      have hsame : (r.push a).dropped = r.dropped := by simp [Ring.push, h]
      rw [hsame]
      simp

end Hnmos.RingBuffer
