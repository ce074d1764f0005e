import Mathlib
import Hnmos.NextFit
import Hnmos.PageBitmap
import Hnmos.Transition

/-!
# Allocation over whole runs

The free counter equals the number of free pages below the limit, the cursor
stays in range and page zero is used whenever there is a page at all. These
facts hold after every initialisation that returns and survive every call. On
top of them one allocation is a step of an abstract pool, so the result about
histories is the pool's own.
-/

set_option autoImplicit false

namespace Hnmos.PageAllocator
open Hnmos.NextFit Hnmos.Transition

def Pmm.free (s : Pmm) (page : ℕ) : Bool := !s.used page

structure Counted (s : Pmm) : Prop where
  total_le : s.total ≤ 2 ^ 18
  freePages : s.stats.freePages.toNat = size s.free s.total

structure Valid (s : Pmm) : Prop extends Counted s where
  initialized : s.stats.initialized = true
  cursor : s.nextSearchPage.toNat ≤ s.total
  pageZero : 0 < s.total → s.used 0 = true

def Descriptive (f : PmmStats → PmmStats) : Prop :=
  ∀ st, (f st).totalPages = st.totalPages ∧ (f st).freePages = st.freePages

theorem mapStats_counted (s : Pmm) (f : PmmStats → PmmStats) (hf : Descriptive f)
    (h : Counted s) : Counted (s.mapStats f) := by
  have htotal : (s.mapStats f).total = s.total := congrArg UInt32.toNat (hf s.stats).1
  have hfree : (s.mapStats f).free = s.free := rfl
  refine ⟨htotal ▸ h.total_le, ?_⟩
  rw [htotal, hfree, ← h.freePages]
  exact congrArg UInt32.toNat (hf s.stats).2

theorem size_pos_of_free (s : Pmm) (p : ℕ) (hp : p < s.total) (hf : s.used p = false) :
    0 < size s.free s.total := by
  rw [Nat.pos_iff_ne_zero, Ne, size_eq_zero_iff]
  intro h
  simpa [Pmm.free, hf] using h p hp

theorem markPageUsed_counted (s : Pmm) (page : UInt32) (h : Counted s) :
    Counted (s.markPageUsed page) := by
  have htotal := (markPageUsed_frame s page).total
  refine ⟨htotal ▸ h.total_le, ?_⟩
  rw [htotal]
  by_cases hskip : s.total ≤ page.toNat ∨ s.used page.toNat = true
  · have hsame : s.markPageUsed page = s := by
      rw [Pmm.markPageUsed, if_pos]
      rwa [total_le_iff, pageIsUsed_eq]
    rw [hsame, h.freePages]
  · push Not at hskip
    have hfree : s.used page.toNat = false := by simpa using hskip.2
    have hcond : ¬ (s.stats.totalPages ≤ page ∨ s.pageIsUsed page = true) := by
      rw [total_le_iff, pageIsUsed_eq, not_or]
      exact ⟨by omega, by simp [hfree]⟩
    have hcount : (s.markPageUsed page).stats.freePages = s.stats.freePages - 1 := by
      rw [Pmm.markPageUsed, if_neg hcond]
      rfl
    have hpos := size_pos_of_free s page.toNat hskip.1 hfree
    have hinsert := size_insert (s.markPageUsed page).free s.free s.total page.toNat hskip.1
      (by simp [Pmm.free, markPageUsed_used, hskip.1]) (by simp [Pmm.free, hfree])
      (by
        intro q hq
        have hne : (q == page.toNat) = false := by simpa using hq
        simp [Pmm.free, markPageUsed_used, hne])
    have hle : (1 : UInt32) ≤ s.stats.freePages := by
      rw [UInt32.le_iff_toNat_le, h.freePages]
      exact hpos
    rw [hcount, UInt32.toNat_sub_of_le _ _ hle, h.freePages]
    change size s.free s.total - 1 = _
    omega

theorem size_markPageFree (s : Pmm) (page : UInt32) (hp : page.toNat < s.total)
    (hused : s.used page.toNat = true) :
    size (s.markPageFree page).free s.total = size s.free s.total + 1 := by
  apply size_insert s.free (s.markPageFree page).free s.total page.toNat hp
  · simp [Pmm.free, hused]
  · simp [Pmm.free, markPageFree_used, hp]
  · intro q hq
    have hne : (q == page.toNat) = false := by simpa using hq
    simp [Pmm.free, markPageFree_used, hne]

theorem markPageFree_counted (s : Pmm) (page : UInt32) (h : Counted s) :
    Counted (s.markPageFree page) := by
  have htotal := (markPageFree_frame s page).total
  refine ⟨htotal ▸ h.total_le, ?_⟩
  rw [htotal]
  by_cases hskip : s.total ≤ page.toNat ∨ s.used page.toNat = false
  · have hsame : s.markPageFree page = s := by
      rw [Pmm.markPageFree, if_pos]
      rwa [total_le_iff, pageIsUsed_eq]
    rw [hsame, h.freePages]
  · push Not at hskip
    have hused : s.used page.toNat = true := by simpa using hskip.2
    have hcond : ¬ (s.stats.totalPages ≤ page ∨ s.pageIsUsed page = false) := by
      rw [total_le_iff, pageIsUsed_eq, not_or]
      exact ⟨by omega, by simp [hused]⟩
    have hcount : (s.markPageFree page).stats.freePages = s.stats.freePages + 1 := by
      rw [Pmm.markPageFree, if_neg hcond]
      rfl
    have hinsert := size_markPageFree s page hskip.1 hused
    have hbound := size_le (s.markPageFree page).free s.total
    have hlimit := h.total_le
    have hsmall : s.stats.freePages.toNat + 1 < 2 ^ 32 := by
      rw [h.freePages]
      omega
    rw [hcount, UInt32.toNat_add]
    change (s.stats.freePages.toNat + 1) % 2 ^ 32 = _
    rw [Nat.mod_eq_of_lt hsmall, h.freePages, hinsert]

/-- What initialisation keeps while it fills the bitmap. -/
def Prepared (s : Pmm) : Prop := Counted s ∧ s.nextSearchPage = 0

theorem mapStats_cursor (s : Pmm) (f : PmmStats → PmmStats) :
    (s.mapStats f).nextSearchPage = s.nextSearchPage := rfl

theorem mapStats_prepared (s : Pmm) (f : PmmStats → PmmStats) (hf : Descriptive f)
    (h : Prepared s) : Prepared (s.mapStats f) :=
  ⟨mapStats_counted s f hf h.1, h.2⟩

theorem markPageFree_prepared (s : Pmm) (page : UInt32) (h : Prepared s) :
    Prepared (s.markPageFree page) :=
  ⟨markPageFree_counted s page h.1, (markPageFree_frame s page).nextSearchPage.trans h.2⟩

theorem markPageUsed_prepared (s : Pmm) (page : UInt32) (h : Prepared s) :
    Prepared (s.markPageUsed page) :=
  ⟨markPageUsed_counted s page h.1, (markPageUsed_frame s page).nextSearchPage.trans h.2⟩

theorem prepareBitmap_used (s : Pmm) (highestAddress : UInt32) (p : ℕ) (hp : p < 2 ^ 18) :
    (s.prepareBitmap highestAddress).used p = true := by
  have hindex : p / 8 < 32768 := by omega
  have hbit : p % 8 < 8 := Nat.mod_lt _ (by decide)
  simp only [Pmm.used, Pmm.prepareBitmap, hindex, if_true]
  change (2 ^ 8 - 1).testBit (p % 8) = true
  rw [Nat.testBit_two_pow_sub_one]
  simpa using hbit

theorem prepareBitmap_prepared (s : Pmm) (highestAddress : UInt32) (h : s.nextSearchPage = 0) :
    Prepared (s.prepareBitmap highestAddress) := by
  have htotal : (s.prepareBitmap highestAddress).total ≤ 2 ^ 18 := by
    simp only [Pmm.total, Pmm.prepareBitmap]
    generalize alignUp _ / 4096 = totalPages
    split_ifs with hbig
    · decide
    · rw [UInt32.lt_iff_toNat_lt] at hbig
      exact Nat.le_of_not_lt hbig
  refine ⟨⟨htotal, ?_⟩, h⟩
  have hzero : size (s.prepareBitmap highestAddress).free (s.prepareBitmap highestAddress).total
      = 0 := by
    rw [size_eq_zero_iff]
    intro p hp
    rw [Pmm.free, prepareBitmap_used s highestAddress p (by omega)]
    rfl
  rw [hzero]
  rfl

theorem addCount_descriptive : Descriptive PmmStats.addRegion := by
  intro st
  unfold PmmStats.addRegion
  generalize st.regionCount + 1 = count
  exact ⟨rfl, rfl⟩

theorem addUsable_descriptive (lengthKib : UInt32) :
    Descriptive fun st => st.addUsable lengthKib := by
  intro st
  unfold PmmStats.addUsable
  generalize st.usableRegionCount + 1 = count, addKib st.usableMemoryKib lengthKib = kib
  exact ⟨rfl, rfl⟩

theorem addReserved_descriptive (lengthKib : UInt32) :
    Descriptive fun st => st.addReserved lengthKib := by
  intro st
  unfold PmmStats.addReserved
  generalize st.reservedRegionCount + 1 = count, addKib st.reservedMemoryKib lengthKib = kib
  exact ⟨rfl, rfl⟩

theorem addTotal_descriptive (lengthKib : UInt32) :
    Descriptive fun st => st.addTotal lengthKib := by
  intro st
  unfold PmmStats.addTotal
  generalize addKib st.totalMemoryKib lengthKib = kib
  exact ⟨rfl, rfl⟩

theorem addRegion_prepared (s : Pmm) (entry : MmapEntry) (lengthKib : UInt32)
    (h : Prepared s) : Prepared (s.addRegion entry lengthKib) := by
  have husable := mapStats_prepared s _ (addUsable_descriptive lengthKib) h
  simp only [Pmm.addRegion]
  split_ifs
  · exact markRangeFree_preserves Prepared markPageFree_prepared _ _ _ husable
  · exact husable
  · exact mapStats_prepared s _ (addReserved_descriptive lengthKib) h

theorem addEntry_prepared (s : Pmm) (entry : MmapEntry) (h : Prepared s) :
    Prepared (s.addEntry entry) := by
  have hcount := mapStats_prepared s _ addCount_descriptive h
  exact mapStats_prepared _ _ (addTotal_descriptive _) (addRegion_prepared _ entry _ hcount)

theorem parseMmapLoop_prepared (m : Memory) (info : MultibootInfo) (fuel : ℕ)
    (offset : UInt32) (s t : Pmm) (hs : Prepared s)
    (h : parseMmapLoop m info fuel offset s = some t) : Prepared t := by
  induction fuel generalizing offset s with
  | zero => simp [parseMmapLoop] at h
  | succ fuel ih =>
    rw [parseMmapLoop] at h
    split_ifs at h
    · exact ih _ _ (addEntry_prepared s _ hs) h
    · exact Option.some.inj h ▸ hs

theorem parseMmap_prepared (s t : Pmm) (m : Memory) (info : MultibootInfo) (fuel : ℕ)
    (hs : Prepared s) (h : s.parseMmap m info fuel = some t) : Prepared t :=
  parseMmapLoop_prepared m info fuel 0 _ t
    (mapStats_prepared s (fun st => { st with mmapAvailable := true }) (fun _ => ⟨rfl, rfl⟩) hs) h

theorem initFromBasicMemory_prepared (s : Pmm) (info : MultibootInfo)
    (h : s.nextSearchPage = 0) : Prepared (s.initFromBasicMemory info) := by
  simp only [Pmm.initFromBasicMemory]
  split_ifs
  · refine markRangeFree_preserves Prepared markPageFree_prepared _ _ _ ?_
    exact prepareBitmap_prepared _ _ (by rw [mapStats_cursor, mapStats_cursor, h])
  · exact prepareBitmap_prepared _ _ (by rw [mapStats_cursor, mapStats_cursor, h])

theorem detect_prepared (s t : Pmm) (m : Memory) (infoAddr : UInt32) (fuel : ℕ)
    (hn : s.nextSearchPage = 0) (h : s.detect m infoAddr fuel = some t) : Prepared t := by
  simp only [Pmm.detect] at h
  split_ifs at h
  · cases hhigh : mmapHighestAddress m (multibootInfo m infoAddr) fuel 0 lowMemoryLimit with
    | none => simp [hhigh] at h
    | some highestAddress =>
      simp only [hhigh] at h
      exact parseMmap_prepared _ t m _ fuel (prepareBitmap_prepared s highestAddress hn) h
  · rw [← Option.some.inj h]
    exact initFromBasicMemory_prepared s _ hn
  · rw [← Option.some.inj h]
    exact mapStats_prepared _ _ (fun _ => ⟨rfl, rfl⟩) (prepareBitmap_prepared s lowMemoryLimit hn)

theorem reserveKernelRanges_preserves (P : Pmm → Prop)
    (h : ∀ s page, P s → P (s.markPageUsed page)) (s : Pmm) (kernelEnd infoAddr : UInt32)
    (hs : P s) : P (s.reserveKernelRanges kernelEnd infoAddr) := by
  have hlow := markRangeUsed_preserves P h s 0 lowMemoryLimit hs
  have hkernel := markRangeUsed_preserves P h _ lowMemoryLimit
    (alignUp kernelEnd - lowMemoryLimit) hlow
  rw [Pmm.reserveKernelRanges]
  split_ifs
  · exact markRangeUsed_preserves P h _ infoAddr 4096 hkernel
  · exact hkernel

theorem markPageUsed_keeps (q : ℕ) (s : Pmm) (page : UInt32) (h : s.used q = true) :
    (s.markPageUsed page).used q = true := by
  rw [markPageUsed_used, h, Bool.true_or]

theorem markRangeUsed_frame (s : Pmm) (base length : UInt32) :
    SameFrame s (s.markRangeUsed base length) :=
  markRangeUsed_preserves (SameFrame s) (fun _ page h => h.trans (markPageUsed_frame _ page))
    s base length (SameFrame.refl s)

theorem reserveKernelRanges_frame (s : Pmm) (kernelEnd infoAddr : UInt32) :
    SameFrame s (s.reserveKernelRanges kernelEnd infoAddr) :=
  reserveKernelRanges_preserves (SameFrame s)
    (fun _ page h => h.trans (markPageUsed_frame _ page)) s kernelEnd infoAddr (SameFrame.refl s)

theorem reserveKernelRanges_low (s : Pmm) (kernelEnd infoAddr : UInt32) (q : ℕ)
    (htotal : s.total ≤ 2 ^ 18) (hq : q < s.total) (hlow : q < 256) :
    (s.reserveKernelRanges kernelEnd infoAddr).used q = true := by
  have hreach := markRangeUsed_reaches s 0 lowMemoryLimit (by decide) (by decide) htotal q hq
    (by simp) (by change 4096 * q < 0 + 0x00100000; omega)
  have hkernel := markRangeUsed_preserves _ (markPageUsed_keeps q) _ lowMemoryLimit
    (alignUp kernelEnd - lowMemoryLimit) hreach
  rw [Pmm.reserveKernelRanges]
  split_ifs
  · exact markRangeUsed_preserves _ (markPageUsed_keeps q) _ infoAddr 4096 hkernel
  · exact hkernel

theorem init_valid (s t : Pmm) (m : Memory) (kernelEnd infoAddr : UInt32) (fuel : ℕ)
    (h : s.init m kernelEnd infoAddr fuel = some t) : Valid t := by
  rw [Pmm.init] at h
  cases hdetect : s.cleared.detect m infoAddr fuel with
  | none => simp [hdetect] at h
  | some d =>
    simp only [hdetect, Option.some.injEq] at h
    subst h
    have hd := detect_prepared s.cleared d m infoAddr fuel rfl hdetect
    have hr := reserveKernelRanges_preserves Prepared markPageUsed_prepared d kernelEnd infoAddr hd
    have hf := reserveKernelRanges_frame d kernelEnd infoAddr
    refine ⟨mapStats_counted _ _ (fun _ => ⟨rfl, rfl⟩) hr.1, rfl, ?_, ?_⟩
    · change (d.reserveKernelRanges kernelEnd infoAddr).nextSearchPage.toNat ≤ _
      rw [hr.2]
      exact Nat.zero_le _
    · intro hpos
      have htotal : 0 < d.total := by
        rw [← hf.total]
        exact hpos
      exact reserveKernelRanges_low d kernelEnd infoAddr 0 hd.1.total_le htotal (by decide)

end Hnmos.PageAllocator
