import Mathlib

/-!
# Pools of interchangeable resources

A pool is the set of resources that may be granted. What it is for is one
sentence: a granted resource is not granted again before it is released. The
next-fit search looks for a member of a decidable set below a bound, starting
at an arbitrary cursor and wrapping once around.
-/

set_option autoImplicit false

namespace Hnmos.NextFit

variable {α : Type*}

inductive Event (α : Type*) where
  | granted (a : α)
  | refused
  | released (a : α)

def after (free : Set α) : Event α → Set α
  | .granted a => free \ {a}
  | .refused => free
  | .released a => insert a free

def Allowed (free : Set α) : Event α → Prop
  | .granted a => a ∈ free
  | .refused => free = ∅
  | .released _ => True

def Trace : Set α → List (Event α) → Prop
  | _, [] => True
  | free, e :: es => Allowed free e ∧ Trace (after free e) es

theorem not_granted_before_release (a : α) (free : Set α) (es : List (Event α))
    (ht : Trace free es) (ha : a ∉ free) (hr : Event.released a ∉ es) :
    Event.granted a ∉ es := by
  induction es generalizing free with
  | nil => exact List.not_mem_nil
  | cons e es ih =>
    rw [List.mem_cons, not_or] at hr ⊢
    cases e with
    | granted b =>
      refine ⟨?_, ih _ ht.2 (fun h => ha h.1) hr.2⟩
      intro h
      cases h
      exact ha ht.1
    | refused => exact ⟨nofun, ih _ ht.2 ha hr.2⟩
    | released b =>
      refine ⟨nofun, ih _ ht.2 ?_ hr.2⟩
      rintro (h | h)
      · exact hr.1 (by rw [h])
      · exact ha h

theorem trace_append (free : Set α) (es fs : List (Event α)) :
    Trace free (es ++ fs) ↔ Trace free es ∧ Trace (es.foldl after free) fs := by
  induction es generalizing free with
  | nil => simp [Trace]
  | cons e es ih => simp [Trace, ih, and_assoc]

/-- Between two grants of one resource there is a release of it. -/
theorem released_between (a : α) (free : Set α) (es fs gs : List (Event α))
    (ht : Trace free (es ++ .granted a :: fs ++ .granted a :: gs)) :
    Event.released a ∈ fs := by
  induction es generalizing free with
  | cons e es ih => exact ih _ ht.2
  | nil =>
    by_contra hr
    have hnone : Event.released a ∉ fs ++ [Event.granted a] := by simp [hr]
    have htail : Trace (free \ {a}) ((fs ++ [.granted a]) ++ gs) := by
      have h := ht.2
      rw [List.append_assoc, List.singleton_append]
      exact h
    have hnot := not_granted_before_release a _ _ ((trace_append _ _ gs).mp htail).1 (by simp) hnone
    exact hnot (by simp)

def nextFit (member : ℕ → Bool) (cursor n : ℕ) : Option ℕ :=
  ((List.range n).map fun k => (cursor + k) % n).find? member

theorem nextFit_sound (member : ℕ → Bool) (cursor n p : ℕ)
    (h : nextFit member cursor n = some p) : p < n ∧ member p = true := by
  refine ⟨?_, List.find?_some h⟩
  obtain ⟨k, hk, rfl⟩ := List.mem_map.mp (List.mem_of_find?_eq_some h)
  have hk' := List.mem_range.mp hk
  exact Nat.mod_lt _ (by omega)

/-- The search visits every index, whatever the cursor. -/
theorem visits (cursor n p : ℕ) (hp : p < n) : ∃ k < n, (cursor + k) % n = p := by
  refine ⟨(p + (n - cursor % n)) % n, Nat.mod_lt _ (by omega), ?_⟩
  have hc : cursor % n < n := Nat.mod_lt _ (by omega)
  have hsum : cursor % n + (p + (n - cursor % n)) = p + n := by omega
  rw [Nat.add_mod_mod, Nat.add_mod, ← Nat.mod_mod cursor n, ← Nat.add_mod, Nat.mod_mod, hsum,
    Nat.add_mod_right, Nat.mod_eq_of_lt hp]

theorem cycle_perm (cursor n : ℕ) :
    ((List.range n).map fun k => (cursor + k) % n).Perm (List.range n) := by
  have hsubset : List.range n ⊆ (List.range n).map fun k => (cursor + k) % n := by
    intro p hp
    obtain ⟨k, hk, hkp⟩ := visits cursor n p (List.mem_range.mp hp)
    exact List.mem_map.mpr ⟨k, List.mem_range.mpr hk, hkp⟩
  have hsubperm := List.subperm_of_subset List.nodup_range hsubset
  exact (hsubperm.perm_of_length_le (by simp)).symm

theorem nextFit_none_iff (member : ℕ → Bool) (cursor n : ℕ) :
    nextFit member cursor n = none ↔ ∀ p < n, member p = false := by
  rw [nextFit, List.find?_eq_none]
  constructor
  · intro h p hp
    obtain ⟨k, hk, hkp⟩ := visits cursor n p hp
    have hmem := h p (List.mem_map.mpr ⟨k, List.mem_range.mpr hk, hkp⟩)
    simpa using hmem
  · rintro h p hp
    obtain ⟨k, hk, rfl⟩ := List.mem_map.mp hp
    have hk' := List.mem_range.mp hk
    simp [h _ (Nat.mod_lt (cursor + k) (by omega : 0 < n))]

def size (member : ℕ → Bool) (n : ℕ) : ℕ := Nat.count (fun i => member i = true) n

theorem size_congr (s t : ℕ → Bool) (n : ℕ) (h : ∀ i < n, s i = t i) : size s n = size t n := by
  induction n with
  | zero => rfl
  | succ n ih =>
    have ih' := ih fun i hi => h i (by omega)
    rw [size, size] at ih' ⊢
    rw [Nat.count_succ, Nat.count_succ, ih', h n (by omega)]

theorem size_insert (s t : ℕ → Bool) (n p : ℕ) (hp : p < n) (hs : s p = false)
    (ht : t p = true) (h : ∀ i, i ≠ p → s i = t i) : size t n = size s n + 1 := by
  induction n with
  | zero => omega
  | succ n ih =>
    rcases Nat.lt_or_ge p n with hlt | hge
    · have ih' := ih hlt
      rw [size, size] at ih' ⊢
      rw [Nat.count_succ, Nat.count_succ, ih', h n (by omega)]
      omega
    · obtain rfl : p = n := by omega
      have hsame := size_congr s t p fun i hi => h i (by omega)
      rw [size, size] at hsame ⊢
      rw [Nat.count_succ, Nat.count_succ, hsame, if_pos ht, if_neg (by simp [hs])]

theorem size_le (s : ℕ → Bool) (n : ℕ) : size s n ≤ n := Nat.count_le _

theorem size_eq_zero_iff (s : ℕ → Bool) (n : ℕ) : size s n = 0 ↔ ∀ p < n, s p = false := by
  induction n with
  | zero => simp [size]
  | succ n ih =>
    have hcount : size s (n + 1) = size s n + if s n = true then 1 else 0 := Nat.count_succ ..
    rw [hcount]
    constructor
    · intro h p hp
      rcases Nat.lt_or_ge p n with hlt | hge
      · exact ih.mp (by omega) p hlt
      · obtain rfl : p = n := by omega
        by_contra hne
        simp [hne] at h
    · intro h
      rw [ih.mpr fun p hp => h p (by omega), h n (by omega)]
      rfl

end Hnmos.NextFit
