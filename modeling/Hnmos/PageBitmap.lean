import Mathlib
import Hnmos.PageAllocator

/-!
# The bitmap as a set of page numbers

A page is used when its bit is set. The bit operations of the allocator are
restated about page numbers: each marking changes at most one page, and only
below the page limit. The loops over address ranges are described by the
pages they cover.
-/

set_option autoImplicit false

namespace Hnmos.PageAllocator

def Pmm.used (s : Pmm) (page : ℕ) : Bool := (s.bitmap (page / 8)).toNat.testBit (page % 8)

def Pmm.total (s : Pmm) : ℕ := s.stats.totalPages.toNat

theorem bitMask_toNat (page : UInt32) : (bitMask page).toNat = 2 ^ (page.toNat % 8) := by
  have hlt : page.toNat % 8 < 8 := Nat.mod_lt _ (by decide)
  have hpow : 2 ^ (page.toNat % 8) < 2 ^ 8 := Nat.pow_lt_pow_right (by decide) hlt
  have hshift : (page % 8).toUInt8.toNat % 8 = page.toNat % 8 := by
    rw [UInt32.toNat_toUInt8, UInt32.toNat_mod]
    change page.toNat % 8 % 256 % 8 = page.toNat % 8
    omega
  rw [bitMask, UInt8.toNat_shiftLeft, hshift, Nat.shiftLeft_eq]
  simpa using hpow

theorem and_bitMask (b : UInt8) (page : UInt32) :
    (b &&& bitMask page != 0) = b.toNat.testBit (page.toNat % 8) := by
  have hand : (b &&& bitMask page).toNat =
      (b.toNat.testBit (page.toNat % 8)).toNat * 2 ^ (page.toNat % 8) := by
    rw [UInt8.toNat_and, bitMask_toNat, Nat.and_two_pow]
  cases hbit : b.toNat.testBit (page.toNat % 8) with
  | false =>
    have hzero : b &&& bitMask page = 0 := by
      apply UInt8.toNat_inj.mp
      simpa [hbit] using hand
    simp [hzero]
  | true =>
    have hne : b &&& bitMask page ≠ 0 := by
      intro hzero
      have hpos : 0 < 2 ^ (page.toNat % 8) := by positivity
      rw [hzero, hbit, Bool.toNat_true, Nat.one_mul, UInt8.toNat_zero] at hand
      omega
    simpa using hne

theorem index_toNat (page : UInt32) : (page / 8).toNat = page.toNat / 8 := by
  rw [UInt32.toNat_div]
  rfl

theorem pageIsUsed_eq (s : Pmm) (page : UInt32) : s.pageIsUsed page = s.used page.toNat := by
  rw [Pmm.pageIsUsed, Pmm.used, and_bitMask, index_toNat]

theorem same_page (p q : ℕ) (h : q / 8 = p / 8) : q % 8 = p % 8 ↔ q = p := by
  omega

theorem setPageUsed_used (s : Pmm) (page : UInt32) (q : ℕ) :
    (s.setPageUsed page).used q = (s.used q || q == page.toNat) := by
  simp only [Pmm.used, Pmm.setPageUsed, index_toNat]
  by_cases hbyte : q / 8 = page.toNat / 8
  · rw [hbyte, Function.update_self, UInt8.toNat_or, bitMask_toNat, Nat.testBit_or,
      Nat.testBit_two_pow]
    have hsame := same_page page.toNat q hbyte
    by_cases hq : q = page.toNat
    · simp [hq]
    · have hbit : page.toNat % 8 ≠ q % 8 := fun e => hq (hsame.mp e.symm)
      simp [hq, hbit]
  · have hq : q ≠ page.toNat := fun e => hbyte (by rw [e])
    rw [Function.update_of_ne hbyte]
    simp [hq]

theorem setPageFree_used (s : Pmm) (page : UInt32) (q : ℕ) :
    (s.setPageFree page).used q = (s.used q && q != page.toNat) := by
  have hmod : q % 8 < 8 := Nat.mod_lt _ (by decide)
  simp only [Pmm.used, Pmm.setPageFree, index_toNat]
  by_cases hbyte : q / 8 = page.toNat / 8
  · have hmask : (~~~bitMask page).toNat = 2 ^ 8 - (2 ^ (page.toNat % 8) + 1) := by
      rw [UInt8.toNat_not, bitMask_toNat, UInt8.size]
      omega
    have hlt : 2 ^ (page.toNat % 8) < 2 ^ 8 :=
      Nat.pow_lt_pow_right (by decide) (Nat.mod_lt _ (by decide))
    rw [hbyte, Function.update_self, UInt8.toNat_and, hmask, Nat.testBit_and,
      Nat.testBit_two_pow_sub_succ hlt, Nat.testBit_two_pow]
    have hsame := same_page page.toNat q hbyte
    by_cases hq : q = page.toNat
    · simp [hq]
    · have hbit : page.toNat % 8 ≠ q % 8 := fun e => hq (hsame.mp e.symm)
      have hne : (q != page.toNat) = true := by simpa using hq
      simp [hne, hbit, hmod]
  · have hq : q ≠ page.toNat := fun e => hbyte (by rw [e])
    rw [Function.update_of_ne hbyte]
    simp [hq]

structure SameFrame (s t : Pmm) : Prop where
  totalPages : t.stats.totalPages = s.stats.totalPages
  nextSearchPage : t.nextSearchPage = s.nextSearchPage
  initialized : t.stats.initialized = s.stats.initialized

theorem SameFrame.refl (s : Pmm) : SameFrame s s := ⟨rfl, rfl, rfl⟩

theorem SameFrame.trans {s t v : Pmm} (h : SameFrame s t) (k : SameFrame t v) : SameFrame s v :=
  ⟨k.totalPages.trans h.totalPages, k.nextSearchPage.trans h.nextSearchPage,
    k.initialized.trans h.initialized⟩

theorem SameFrame.total {s t : Pmm} (h : SameFrame s t) : t.total = s.total :=
  congrArg UInt32.toNat h.totalPages

theorem markPageUsed_frame (s : Pmm) (page : UInt32) : SameFrame s (s.markPageUsed page) := by
  rw [Pmm.markPageUsed]
  split_ifs <;> exact ⟨rfl, rfl, rfl⟩

theorem markPageFree_frame (s : Pmm) (page : UInt32) : SameFrame s (s.markPageFree page) := by
  rw [Pmm.markPageFree]
  split_ifs <;> exact ⟨rfl, rfl, rfl⟩

theorem total_le_iff (s : Pmm) (page : UInt32) :
    s.stats.totalPages ≤ page ↔ s.total ≤ page.toNat := UInt32.le_iff_toNat_le

theorem markPageUsed_used (s : Pmm) (page : UInt32) (q : ℕ) :
    (s.markPageUsed page).used q = (s.used q || q == page.toNat && decide (q < s.total)) := by
  rw [Pmm.markPageUsed]
  split_ifs with h <;> rw [total_le_iff, pageIsUsed_eq] at h
  · by_cases hq : q = page.toNat
    · subst hq
      rcases h with h | h
      · simp [Nat.not_lt.mpr h]
      · simp [h]
    · simp [hq]
  · push Not at h
    have hset := setPageUsed_used s page q
    change (s.setPageUsed page).used q = _
    rw [hset]
    by_cases hq : q = page.toNat
    · subst hq
      simp [h.1]
    · have hne : (q == page.toNat) = false := by simpa using hq
      simp [hne]

theorem markPageFree_used (s : Pmm) (page : UInt32) (q : ℕ) :
    (s.markPageFree page).used q = (s.used q && !(q == page.toNat && decide (q < s.total))) := by
  rw [Pmm.markPageFree]
  split_ifs with h <;> rw [total_le_iff, pageIsUsed_eq] at h
  · by_cases hq : q = page.toNat
    · subst hq
      rcases h with h | h
      · simp [Nat.not_lt.mpr h]
      · simp [h]
    · simp [hq]
  · push Not at h
    have hset := setPageFree_used s page q
    change (s.setPageFree page).used q = _
    rw [hset]
    by_cases hq : q = page.toNat
    · subst hq
      simp [h.1]
    · have hne : (q == page.toNat) = false := by simpa using hq
      simp [hne, bne]

theorem markPages_preserves (P : Pmm → Prop) (mark : Pmm → UInt32 → Pmm)
    (h : ∀ s page, P s → P (mark s page)) (limit : UInt32) (passes : ℕ) (address : UInt32)
    (s : Pmm) (hs : P s) : P (markPages mark limit passes address s) := by
  induction passes generalizing address s with
  | zero => exact hs
  | succ passes ih =>
    rw [markPages]
    split_ifs
    · exact ih _ _ (h s _ hs)
    · exact hs

theorem markRangeUsed_preserves (P : Pmm → Prop) (h : ∀ s page, P s → P (s.markPageUsed page))
    (s : Pmm) (base length : UInt32) (hs : P s) : P (s.markRangeUsed base length) := by
  rw [Pmm.markRangeUsed]
  split_ifs
  · exact hs
  all_goals exact markPages_preserves P _ h _ _ _ _ hs

theorem markRangeFree_preserves (P : Pmm → Prop) (h : ∀ s page, P s → P (s.markPageFree page))
    (s : Pmm) (base length : UInt32) (hs : P s) : P (s.markRangeFree base length) := by
  rw [Pmm.markRangeFree]
  split_ifs
  · exact hs
  all_goals exact markPages_preserves P _ h _ _ _ _ hs

/-- A mask that clears the low bits of a word rounds it down. -/
theorem and_highMask (k n : ℕ) (h : n < 2 ^ 32) :
    n &&& (2 ^ (32 - k) - 1) * 2 ^ k = n / 2 ^ k * 2 ^ k := by
  apply Nat.eq_of_testBit_eq
  intro i
  rw [Nat.testBit_and, Nat.testBit_mul_two_pow, Nat.testBit_two_pow_sub_one,
    Nat.testBit_mul_two_pow, Nat.testBit_div_two_pow]
  by_cases hlow : k ≤ i
  · by_cases hhigh : i - k < 32 - k
    · simp [hlow, hhigh]
    · have hbit : n.testBit i = false := Nat.testBit_lt_two_pow
        (lt_of_lt_of_le h (Nat.pow_le_pow_right (by decide) (by omega)))
      simp [hlow, hhigh, hbit]
  · simp [hlow]

theorem and_pageMask (n : ℕ) (h : n < 2 ^ 32) : n &&& 0xFFFFF000 = n / 4096 * 4096 :=
  and_highMask 12 n h

theorem alignDown_toNat (value : UInt32) :
    (alignDown value).toNat = value.toNat / 4096 * 4096 := by
  rw [alignDown, UInt32.toNat_and]
  exact and_pageMask _ value.toNat_lt

theorem alignUp_toNat (value : UInt32) (h : value.toNat + 4095 < 2 ^ 32) :
    (alignUp value).toNat = (value.toNat + 4095) / 4096 * 4096 := by
  have hsum : (value + 4096 - 1).toNat = value.toNat + 4095 := by
    have hv : value + 4096 - 1 = value + 4095 := by grind
    rw [hv, UInt32.toNat_add]
    exact Nat.mod_eq_of_lt h
  rw [alignUp, UInt32.toNat_and, hsum]
  exact and_pageMask _ h

theorem next_address (address limit : UInt32) (hlimit : limit.toNat ≤ 2 ^ 30)
    (h : address.toNat < limit.toNat) : (address + 4096).toNat = address.toNat + 4096 := by
  rw [UInt32.toNat_add]
  exact Nat.mod_eq_of_lt (by change address.toNat + 4096 < 4294967296; omega)

theorem page_toNat (address : UInt32) : (address / 4096).toNat = address.toNat / 4096 := by
  rw [UInt32.toNat_div]
  rfl

/-- A marking loop gives every page of its range the value that one marking
gives its page and that no other marking takes away. -/
theorem markPages_hits (mark : Pmm → UInt32 → Pmm) (v : Bool) (limit : UInt32)
    (hframe : ∀ s page, SameFrame s (mark s page))
    (hkeep : ∀ s page q, s.used q = v → (mark s page).used q = v)
    (hset : ∀ s page, page.toNat < s.total → (mark s page).used page.toNat = v)
    (hlimit : limit.toNat ≤ 2 ^ 30) (passes : ℕ) (address : UInt32) (s : Pmm)
    (ha : address.toNat % 4096 = 0) (hpasses : limit.toNat ≤ address.toNat + 4096 * passes)
    (q : ℕ) (hq : q < s.total) (hlow : address.toNat ≤ 4096 * q)
    (hhigh : 4096 * q < limit.toNat) :
    (markPages mark limit passes address s).used q = v := by
  induction passes generalizing address s with
  | zero => omega
  | succ passes ih =>
    have hlt : address.toNat < limit.toNat := by omega
    have hpage := page_toNat address
    rw [markPages, if_pos (UInt32.lt_iff_toNat_lt.mpr hlt)]
    by_cases hfirst : 4096 * q = address.toNat
    · have heq : q = (address / 4096).toNat := by omega
      refine markPages_preserves (fun t => t.used q = v) mark ?_ _ _ _ _ ?_
      · exact fun t page ht => hkeep t page q ht
      · rw [heq] at hq ⊢
        exact hset s _ hq
    · have hnext := next_address address limit hlimit hlt
      have htotal := (hframe s (address / 4096)).total
      exact ih (address + 4096) _ (by omega) (by omega) (by omega) (by omega)

theorem markPages_misses (mark : Pmm → UInt32 → Pmm) (limit : UInt32)
    (hother : ∀ s page q, q ≠ page.toNat → (mark s page).used q = s.used q)
    (hlimit : limit.toNat ≤ 2 ^ 30) (passes : ℕ) (address : UInt32) (s : Pmm)
    (ha : address.toNat % 4096 = 0) (q : ℕ)
    (hq : 4096 * q < address.toNat ∨ limit.toNat ≤ 4096 * q) :
    (markPages mark limit passes address s).used q = s.used q := by
  induction passes generalizing address s with
  | zero => rfl
  | succ passes ih =>
    rw [markPages]
    split_ifs with hlt
    · rw [UInt32.lt_iff_toNat_lt] at hlt
      have hpage := page_toNat address
      have hnext := next_address address limit hlimit hlt
      rw [ih (address + 4096) _ (by omega) (by omega)]
      exact hother s _ q (by omega)
    · rfl

theorem markPageUsed_other (s : Pmm) (page : UInt32) (q : ℕ) (h : q ≠ page.toNat) :
    (s.markPageUsed page).used q = s.used q := by
  have hne : (q == page.toNat) = false := by simpa using h
  rw [markPageUsed_used, hne, Bool.false_and, Bool.or_false]

theorem markPageFree_other (s : Pmm) (page : UInt32) (q : ℕ) (h : q ≠ page.toNat) :
    (s.markPageFree page).used q = s.used q := by
  have hne : (q == page.toNat) = false := by simpa using h
  rw [markPageFree_used, hne, Bool.false_and, Bool.not_false, Bool.and_true]

theorem markPages_reaches (limit : UInt32) (hlimit : limit.toNat ≤ 2 ^ 30) (passes : ℕ)
    (address : UInt32) (s : Pmm) (ha : address.toNat % 4096 = 0)
    (hpasses : limit.toNat ≤ address.toNat + 4096 * passes) (q : ℕ) (hq : q < s.total)
    (hlow : address.toNat ≤ 4096 * q) (hhigh : 4096 * q < limit.toNat) :
    (markPages Pmm.markPageUsed limit passes address s).used q = true := by
  apply markPages_hits Pmm.markPageUsed true limit markPageUsed_frame _ _ hlimit passes address s
    ha hpasses q hq hlow hhigh
  · intro t page p ht
    rw [markPageUsed_used, ht, Bool.true_or]
  · intro t page ht
    simp [markPageUsed_used, ht]

theorem markPages_frees (limit : UInt32) (hlimit : limit.toNat ≤ 2 ^ 30) (address : UInt32)
    (s : Pmm) (ha : address.toNat % 4096 = 0) (q : ℕ) :
    (markPages Pmm.markPageFree limit (2 ^ 18) address s).used q =
      (s.used q && !decide (q < s.total ∧ address.toNat ≤ 4096 * q ∧ 4096 * q < limit.toNat)) := by
  by_cases hq : q < s.total ∧ address.toNat ≤ 4096 * q ∧ 4096 * q < limit.toNat
  · have hfreed := markPages_hits Pmm.markPageFree false limit markPageFree_frame
      (by intro t page p ht; rw [markPageFree_used, ht, Bool.false_and])
      (by intro t page ht; simp [markPageFree_used, ht])
      hlimit (2 ^ 18) address s ha (by omega) q hq.1 hq.2.1 hq.2.2
    rw [hfreed, decide_eq_true hq, Bool.not_true, Bool.and_false]
  · rw [decide_eq_false hq, Bool.not_false, Bool.and_true]
    by_cases hrange : 4096 * q < address.toNat ∨ limit.toNat ≤ 4096 * q
    · exact markPages_misses _ limit markPageFree_other hlimit _ address s ha q hrange
    · have hout : s.total ≤ q := by omega
      refine (markPages_preserves (fun t => t.total = s.total ∧ t.used q = s.used q) _ ?_ _ _ _ s
        ⟨rfl, rfl⟩).2
      intro t page ht
      have hskip : decide (q < t.total) = false := by
        rw [ht.1]
        simpa using hout
      refine ⟨(markPageFree_frame t page).total.trans ht.1, ?_⟩
      rw [markPageFree_used, hskip, Bool.and_false, Bool.not_false, Bool.and_true, ht.2]

theorem markRangeUsed_reaches (s : Pmm) (base length : UInt32) (hlength : length ≠ 0)
    (hwrap : base.toNat + length.toNat + 4095 < 2 ^ 32) (htotal : s.total ≤ 2 ^ 18) (q : ℕ)
    (hq : q < s.total) (hlow : base.toNat / 4096 ≤ q)
    (hhigh : 4096 * q < base.toNat + length.toNat) :
    (s.markRangeUsed base length).used q = true := by
  have hsum : (base + length).toNat = base.toNat + length.toNat := by
    rw [UInt32.toNat_add]
    exact Nat.mod_eq_of_lt (by omega)
  have hnowrap : ¬ base + length < base := by
    rw [UInt32.lt_iff_toNat_lt]
    omega
  have hstart := alignDown_toNat base
  have hend := alignUp_toNat (base + length) (by omega)
  have hmax : maxTrackedMemory.toNat = 2 ^ 30 := rfl
  simp only [Pmm.markRangeUsed, if_neg hlength, if_neg hnowrap]
  split_ifs with hclip
  · exact markPages_reaches _ (by omega) _ _ _ (by omega) (by omega) q hq (by omega) (by omega)
  · rw [UInt32.lt_iff_toNat_lt] at hclip
    exact markPages_reaches _ (by omega) _ _ _ (by omega) (by omega) q hq (by omega) (by omega)

end Hnmos.PageAllocator
