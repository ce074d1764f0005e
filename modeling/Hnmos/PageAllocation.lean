import Mathlib
import Hnmos.PageInvariant

/-!
# The allocator as a pool

The scanning loop is a next-fit search from the cursor, so a valid allocator
refuses exactly when no page is free. Each call is then at most one event of
the abstract pool of free pages, and the history of a run is a trace of it.
-/

set_option autoImplicit false

namespace Hnmos.PageAllocator
open Hnmos.NextFit Hnmos.Transition

def Pmm.search (s : Pmm) : Option ℕ := nextFit s.free s.nextSearchPage.toNat s.total

def Pmm.grant (s : Pmm) (page : UInt32) : Pmm :=
  { s.markPageUsed page with nextSearchPage := page + 1 }

def granted (s : Pmm) : Option ℕ → UInt32 × Pmm
  | none => (0, s)
  | some p => (UInt32.ofNat p * 4096, s.grant (UInt32.ofNat p))

theorem allocScan_eq (s : Pmm) (h : Counted s) (hc : s.nextSearchPage.toNat ≤ s.total)
    (passes : ℕ) (scanned : UInt32) (hb : scanned.toNat + passes ≤ s.total) :
    s.allocScan passes scanned = granted s (((List.range' scanned.toNat passes).map
      fun k => (s.nextSearchPage.toNat + k) % s.total).find? s.free) := by
  have htotal := h.total_le
  induction passes generalizing scanned with
  | zero => rfl
  | succ passes ih =>
    have hpage : ((s.nextSearchPage + scanned) % s.stats.totalPages).toNat =
        (s.nextSearchPage.toNat + scanned.toNat) % s.total := by
      have hsum : s.nextSearchPage.toNat + scanned.toNat < 2 ^ 32 := by omega
      rw [UInt32.toNat_mod, UInt32.toNat_add, Nat.mod_eq_of_lt hsum]
      rfl
    have hnext : (scanned + 1).toNat = scanned.toNat + 1 := by
      rw [UInt32.toNat_add]
      exact Nat.mod_eq_of_lt (by change scanned.toNat + 1 < 2 ^ 32; omega)
    rw [Pmm.allocScan, pageIsUsed_eq, List.range'_succ, List.map_cons, List.find?_cons, ← hpage]
    by_cases hused : s.used ((s.nextSearchPage + scanned) % s.stats.totalPages).toNat = false
    · simp only [hused, if_true, Pmm.free, Bool.not_false, granted, UInt32.ofNat_toNat]
      rfl
    · have hnot : s.used ((s.nextSearchPage + scanned) % s.stats.totalPages).toNat = true := by
        simpa using hused
      simp only [hnot, Bool.true_eq_false, if_false, Pmm.free, Bool.not_true]
      rw [ih (scanned + 1) (by omega), hnext]

theorem allocPage_eq (s : Pmm) (h : Valid s) : s.allocPage = granted s s.search := by
  have hscan := allocScan_eq s h.toCounted h.cursor s.stats.totalPages.toNat 0
    (by change 0 + s.total ≤ s.total; omega)
  have hsearch : ((List.range' (0 : UInt32).toNat s.stats.totalPages.toNat).map
      fun k => (s.nextSearchPage.toNat + k) % s.total).find? s.free = s.search := by
    rw [Pmm.search, nextFit, List.range_eq_range']
    rfl
  rw [Pmm.allocPage]
  split_ifs with hguard
  · have hnone : s.search = none := by
      rw [Pmm.search, nextFit_none_iff, ← size_eq_zero_iff, ← h.freePages]
      rcases hguard with hi | hf
      · exact absurd hi (by simp [h.initialized])
      · rw [hf]
        rfl
    rw [hnone, granted]
  · rw [hscan, hsearch]

theorem search_sound (s : Pmm) (p : ℕ) (h : s.search = some p) :
    p < s.total ∧ s.used p = false := by
  have hs := nextFit_sound s.free _ _ p h
  exact ⟨hs.1, by simpa [Pmm.free] using hs.2⟩

theorem search_none_iff (s : Pmm) : s.search = none ↔ ∀ p < s.total, s.used p = true := by
  rw [Pmm.search, nextFit_none_iff]
  simp [Pmm.free]

theorem grant_used (s : Pmm) (p q : ℕ) (h : s.total ≤ 2 ^ 18) (hp : p < s.total) :
    (s.grant (UInt32.ofNat p)).used q = (s.used q || q == p) := by
  have hpage : (UInt32.ofNat p).toNat = p := UInt32.toNat_ofNat_of_lt' (by
    change p < 2 ^ 32
    omega)
  have hmark := markPageUsed_used s (UInt32.ofNat p) q
  rw [hpage] at hmark
  change (s.markPageUsed (UInt32.ofNat p)).used q = _
  rw [hmark]
  by_cases hq : q = p
  · simp [hq, hp]
  · have hne : (q == p) = false := by simpa using hq
    simp [hne]

theorem grant_total (s : Pmm) (page : UInt32) : (s.grant page).total = s.total :=
  (markPageUsed_frame s page).total

theorem grant_valid (s : Pmm) (p : ℕ) (h : Valid s) (hp : p < s.total) :
    Valid (s.grant (UInt32.ofNat p)) := by
  have htotal := h.total_le
  have hcounted := markPageUsed_counted s (UInt32.ofNat p) h.toCounted
  refine ⟨⟨hcounted.total_le, hcounted.freePages⟩, ?_, ?_, ?_⟩
  · exact (markPageUsed_frame s _).initialized.trans h.initialized
  · have hcursor : (UInt32.ofNat p + 1).toNat = p + 1 := by
      rw [UInt32.toNat_add, UInt32.toNat_ofNat_of_lt' (by change p < 2 ^ 32; omega)]
      exact Nat.mod_eq_of_lt (by change p + 1 < 2 ^ 32; omega)
    rw [grant_total]
    change (UInt32.ofNat p + 1).toNat ≤ s.total
    omega
  · intro hpos
    rw [grant_total] at hpos
    rw [grant_used s p 0 htotal hp, h.pageZero hpos, Bool.true_or]

theorem address_toNat (p : ℕ) (h : p < 2 ^ 18) : (UInt32.ofNat p * 4096).toNat = p * 4096 := by
  rw [UInt32.toNat_mul, UInt32.toNat_ofNat_of_lt' (by change p < 2 ^ 32; omega)]
  exact Nat.mod_eq_of_lt (by change p * 4096 < 2 ^ 32; omega)

theorem granted_address (s : Pmm) (p : ℕ) (h : Valid s) (hs : s.search = some p) :
    s.allocPage = (UInt32.ofNat p * 4096, s.grant (UInt32.ofNat p)) ∧
      (UInt32.ofNat p * 4096).toNat = p * 4096 ∧ 0 < p := by
  have hsound := search_sound s p hs
  have htotal := h.total_le
  refine ⟨by rw [allocPage_eq s h, hs, granted], address_toNat p (by omega), ?_⟩
  rw [Nat.pos_iff_ne_zero]
  rintro rfl
  simp [h.pageZero (by omega)] at hsound

theorem allocPage_zero_iff (s : Pmm) (h : Valid s) : s.allocPage.1 = 0 ↔ s.search = none := by
  cases hs : s.search with
  | none => simp [allocPage_eq s h, hs, granted]
  | some p =>
    obtain ⟨halloc, haddress, hpos⟩ := granted_address s p h hs
    rw [halloc]
    simp only [reduceCtorEq, iff_false]
    intro hzero
    rw [hzero, UInt32.toNat_zero] at haddress
    omega

theorem freePage_used (s : Pmm) (address : UInt32) (q : ℕ) (h : s.stats.initialized = true) :
    (s.freePage address).used q =
      (s.used q && !decide (address ≠ 0 ∧ address.toNat = 4096 * q ∧ q < s.total)) := by
  have hmod : (address % 4096).toNat = address.toNat % 4096 := by
    rw [UInt32.toNat_mod]
    rfl
  have hdiv : (address / 4096).toNat = address.toNat / 4096 := by
    rw [UInt32.toNat_div]
    rfl
  rw [Pmm.freePage]
  split_ifs with hguard
  · have hno : ¬ (address ≠ 0 ∧ address.toNat = 4096 * q ∧ q < s.total) := by
      rintro ⟨hne, hq, _⟩
      rcases hguard with hi | hz | ha
      · exact absurd hi (by simp [h])
      · exact hne hz
      · apply ha
        apply UInt32.toNat_inj.mp
        rw [hmod, UInt32.toNat_zero]
        omega
    simp [hno]
  · push Not at hguard
    have haligned : address.toNat % 4096 = 0 := by
      rw [← hmod, hguard.2.2, UInt32.toNat_zero]
    have hiff : (q = address.toNat / 4096 ∧ q < s.total) ↔
        (address ≠ 0 ∧ address.toNat = 4096 * q ∧ q < s.total) := by
      constructor
      · rintro ⟨rfl, hq⟩
        exact ⟨hguard.2.1, by omega, hq⟩
      · rintro ⟨_, hq, hlt⟩
        exact ⟨by omega, hlt⟩
    rw [markPageFree_used, hdiv]
    congr 2
    rw [Bool.eq_iff_iff, decide_eq_true_iff, ← hiff, Bool.and_eq_true, beq_iff_eq,
      decide_eq_true_iff]

theorem freePage_frame (s : Pmm) (address : UInt32) : SameFrame s (s.freePage address) := by
  rw [Pmm.freePage]
  split_ifs
  · exact SameFrame.refl s
  · exact markPageFree_frame s _

theorem freePage_valid (s : Pmm) (address : UInt32) (h : Valid s) :
    Valid (s.freePage address) := by
  have hframe := freePage_frame s address
  refine ⟨?_, hframe.initialized.trans h.initialized, ?_, ?_⟩
  · rw [Pmm.freePage]
    split_ifs
    · exact h.toCounted
    · exact markPageFree_counted s _ h.toCounted
  · rw [hframe.total, hframe.nextSearchPage]
    exact h.cursor
  · intro hpos
    rw [hframe.total] at hpos
    rw [freePage_used s address 0 h.initialized, h.pageZero hpos]
    have hno : ¬ (address ≠ 0 ∧ address.toNat = 4096 * 0 ∧ 0 < s.total) := by
      rintro ⟨hne, hz, _⟩
      exact hne (UInt32.toNat_inj.mp (by simpa using hz))
    simp only [hno, decide_false, Bool.not_false, Bool.and_self]

theorem step_valid (s : Pmm) (op : PmmOp) (h : Valid s) : Valid (step s op) := by
  cases op with
  | allocPage =>
    rw [step, allocPage_eq s h]
    cases hs : s.search with
    | none => exact h
    | some p => exact grant_valid s p h (search_sound s p hs).1
  | freePage address => exact freePage_valid s address h

theorem run_valid (s : Pmm) (ops : List PmmOp) (h : Valid s) : Valid (run step s ops) :=
  run_invariant_all step Valid step_valid s ops h

def Pmm.pool (s : Pmm) : Set ℕ := {p | p < s.total ∧ s.used p = false}

/-- The pool event of a call, read off what the call returns. -/
def events (s : Pmm) : PmmOp → List (Event ℕ)
  | .allocPage =>
    if s.allocPage.1 = 0 then [.refused] else [.granted (s.allocPage.1.toNat / 4096)]
  | .freePage address =>
    if address ≠ 0 ∧ address.toNat % 4096 = 0 ∧ address.toNat / 4096 < s.total then
      [.released (address.toNat / 4096)]
    else []

theorem events_granted (s : Pmm) (p : ℕ) (h : Valid s) (hs : s.search = some p) :
    events s .allocPage = [.granted p] := by
  obtain ⟨halloc, haddress, _⟩ := granted_address s p h hs
  have hne : s.allocPage.1 ≠ 0 := by
    rw [Ne, allocPage_zero_iff s h, hs]
    exact nofun
  have hp : s.allocPage.1.toNat / 4096 = p := by
    rw [halloc, haddress]
    omega
  rw [events, if_neg hne, hp]

/-- Every call is allowed by the pool and has the pool's effect. -/
theorem step_pool (s : Pmm) (op : PmmOp) (h : Valid s) :
    Trace s.pool (events s op) ∧ (step s op).pool = (events s op).foldl after s.pool := by
  cases op with
  | allocPage =>
    cases hs : s.search with
    | none =>
      have hz := (allocPage_zero_iff s h).mpr hs
      have hsame : step s .allocPage = s := by rw [step, allocPage_eq s h, hs, granted]
      rw [events, if_pos hz, hsame]
      refine ⟨⟨?_, trivial⟩, rfl⟩
      ext p
      simp only [Pmm.pool, Set.mem_ofPred_eq, Set.mem_empty_iff_false, iff_false, not_and]
      intro hp
      simp [(search_none_iff s).mp hs p hp]
    | some p =>
      have hsound := search_sound s p hs
      have hstep : step s .allocPage = s.grant (UInt32.ofNat p) := by
        rw [step, allocPage_eq s h, hs, granted]
      rw [events_granted s p h hs, hstep]
      refine ⟨⟨hsound, trivial⟩, ?_⟩
      ext q
      simp only [Pmm.pool, Set.mem_ofPred_eq, grant_total, grant_used s p q h.total_le hsound.1,
        List.foldl_cons, List.foldl_nil, after, Set.mem_sdiff, Set.mem_singleton_iff,
        Bool.or_eq_false_iff, beq_eq_false_iff_ne]
      exact and_assoc.symm
  | freePage address =>
    have hframe := freePage_frame s address
    have hused := fun q => freePage_used s address q h.initialized
    rw [events]
    split_ifs with hreal
    · refine ⟨⟨trivial, trivial⟩, ?_⟩
      ext q
      have hiff : (address ≠ 0 ∧ address.toNat = 4096 * q ∧ q < s.total) ↔
          q = address.toNat / 4096 := by
        constructor
        · rintro ⟨_, hq, _⟩
          omega
        · rintro rfl
          exact ⟨hreal.1, by omega, hreal.2.2⟩
      simp only [step, Pmm.pool, Set.mem_ofPred_eq, hframe.total, hused, hiff, List.foldl_cons,
        List.foldl_nil, after, Set.mem_insert_iff, Bool.and_eq_false_iff,
        Bool.not_eq_false', decide_eq_true_eq]
      constructor
      · rintro ⟨hq, hfree | rfl⟩
        · exact Or.inr ⟨hq, hfree⟩
        · exact Or.inl rfl
      · rintro (rfl | ⟨hq, hfree⟩)
        · exact ⟨hreal.2.2, Or.inr rfl⟩
        · exact ⟨hq, Or.inl hfree⟩
    · refine ⟨trivial, ?_⟩
      ext q
      have hno : ¬ (address ≠ 0 ∧ address.toNat = 4096 * q ∧ q < s.total) := by
        rintro ⟨hne, hq, hlt⟩
        exact hreal ⟨hne, by omega, by omega⟩
      simp only [step, Pmm.pool, Set.mem_ofPred_eq, hframe.total, hused, hno, decide_false,
        Bool.not_false, Bool.and_true, List.foldl_nil]

theorem run_trace (s : Pmm) (ops : List PmmOp) (h : Valid s) :
    Trace s.pool (translate step events s ops) := by
  induction ops generalizing s with
  | nil => trivial
  | cons op ops ih =>
    have hstep := step_pool s op h
    rw [translate_cons, trace_append, ← hstep.2]
    exact ⟨hstep.1, ih _ (step_valid s op h)⟩

theorem released_mem (s : Pmm) (ops : List PmmOp) (p : ℕ)
    (h : Event.released p ∈ translate step events s ops) :
    ∃ address, PmmOp.freePage address ∈ ops ∧ address.toNat = p * 4096 := by
  induction ops generalizing s with
  | nil => exact absurd h List.not_mem_nil
  | cons op ops ih =>
    rcases List.mem_append.mp h with hop | hops
    · cases op with
      | allocPage =>
        rw [events] at hop
        split_ifs at hop <;> simp at hop
      | freePage address =>
        rw [events] at hop
        split_ifs at hop with hreal
        · obtain rfl : p = address.toNat / 4096 := by simpa using hop
          exact ⟨address, List.mem_cons_self, by omega⟩
        · exact absurd hop List.not_mem_nil
    · obtain ⟨address, hmem, ha⟩ := ih _ hops
      exact ⟨address, List.mem_cons_of_mem _ hmem, ha⟩

theorem freed_between (s : Pmm) (h : Valid s) (p q : ℕ) (hp : s.search = some p)
    (later : List PmmOp) (hq : (run step (step s .allocPage) later).search = some q)
    (heq : q = p) : ∃ address, PmmOp.freePage address ∈ later ∧ address.toNat = p * 4096 := by
  subst heq
  have hlater := run_valid _ later (step_valid s .allocPage h)
  have htrace := run_trace s (.allocPage :: (later ++ [.allocPage])) h
  rw [translate_cons, events_granted s q h hp, translate_append, translate_cons, translate_nil,
    events_granted _ q hlater hq] at htrace
  have hreleased := released_between q s.pool [] (translate step events (step s .allocPage) later)
    [] (by simpa using htrace)
  exact released_mem _ later q hreleased

/-- After every initialisation that returns and every history of calls, the
allocator refuses exactly when every page is used; otherwise it returns the
address of a free page, marks that page and no other, and does not return the
address again before it has been freed. -/
theorem allocPage_correct (s₀ s : Pmm) (m : Memory) (kernelEnd infoAddr : UInt32) (fuel : ℕ)
    (hinit : s₀.init m kernelEnd infoAddr fuel = some s) (ops : List PmmOp) :
    ((run step s ops).allocPage.1 = 0 ↔
      ∀ p < (run step s ops).total, (run step s ops).used p = true) ∧
    ((run step s ops).allocPage.1 ≠ 0 →
      (∃ p < (run step s ops).total, (run step s ops).allocPage.1.toNat = p * 4096 ∧
        (run step s ops).used p = false ∧
        ∀ q, (run step s ops).allocPage.2.used q = ((run step s ops).used q || q == p)) ∧
      ∀ later, (run step (run step s ops).allocPage.2 later).allocPage.1 =
          (run step s ops).allocPage.1 →
        PmmOp.freePage (run step s ops).allocPage.1 ∈ later) := by
  have h := run_valid s ops (init_valid s₀ s m kernelEnd infoAddr fuel hinit)
  generalize run step s ops = t at h
  refine ⟨(allocPage_zero_iff t h).trans (search_none_iff t), ?_⟩
  intro hne
  obtain ⟨p, hp⟩ := Option.ne_none_iff_exists'.mp (fun e => hne ((allocPage_zero_iff t h).mpr e))
  have hsound := search_sound t p hp
  obtain ⟨halloc, haddress, hpos⟩ := granted_address t p h hp
  constructor
  · rw [halloc]
    exact ⟨p, hsound.1, haddress, hsound.2, fun q => grant_used t p q h.total_le hsound.1⟩
  · intro later hagain
    have hlater : Valid (run step t.allocPage.2 later) :=
      run_valid _ later (step_valid t .allocPage h)
    cases hq : (run step t.allocPage.2 later).search with
    | none => exact absurd (hagain ▸ (allocPage_zero_iff _ hlater).mpr hq) hne
    | some q =>
      obtain ⟨halloc', haddress', _⟩ := granted_address _ q hlater hq
      have heq : q = p := by
        have hsame : UInt32.ofNat q * 4096 = UInt32.ofNat p * 4096 := by
          rw [halloc', halloc] at hagain
          exact hagain
        rw [hsame] at haddress'
        omega
      obtain ⟨address, hmem, ha⟩ := freed_between t h p q hp later hq heq
      have hfound : address = t.allocPage.1 := by
        apply UInt32.toNat_inj.mp
        rw [ha, halloc, haddress]
      exact hfound ▸ hmem

def bootMemory : Memory := fun address =>
  ([64, 0, 0, 0] ++ List.replicate 40 0 ++ [24, 0, 0, 0] ++ [64, 0x90, 0, 0] ++
    List.replicate 12 0 ++ [20, 0, 0, 0] ++ [0, 0, 0x10, 0] ++ [0, 0, 0, 0] ++
    [0, 0x40, 0, 0] ++ [0, 0, 0, 0] ++ [1, 0, 0, 0] : List UInt8).getD
    (address - 0x9000).toNat 0

def emptyPmm : Pmm := ⟨fun _ => 0, ⟨0, 0, 0, 0, 0, 0, 0, 0, 0, false, false⟩, 0⟩

theorem boot_first_page :
    (emptyPmm.init bootMemory 0x101000 0x9000 2).map (fun s => s.allocPage.1) =
      some 0x101000 := by
  decide +kernel

theorem allocPage_correct_boot :
    ∃ s, emptyPmm.init bootMemory 0x101000 0x9000 2 = some s ∧ s.allocPage.1 = 0x101000 ∧
      s.used 257 = false ∧ s.allocPage.2.used 257 = true := by
  obtain ⟨s, hs, hfirst⟩ := Option.map_eq_some_iff.mp boot_first_page
  have hne : (run step s []).allocPage.1 ≠ 0 := by
    rw [run_nil, hfirst]
    decide
  obtain ⟨⟨p, _, haddress, hfree, hmark⟩, _⟩ :=
    (allocPage_correct emptyPmm s bootMemory 0x101000 0x9000 2 hs []).2 hne
  rw [run_nil] at haddress hfree hmark
  rw [hfirst] at haddress
  obtain rfl : p = 257 := by
    change 0x101000 = p * 4096 at haddress
    omega
  exact ⟨s, hs, hfirst, hfree, by rw [hmark]; simp⟩

end Hnmos.PageAllocator
