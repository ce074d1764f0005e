import Mathlib
import Hnmos.PageAllocation

/-!
# Counters and bits

Markings change the counters and the bitmap by separate statements. A property
that every marking and every change of the descriptive counters keeps, and
that a fresh bitmap has, holds after every initialisation and every history of
calls. One such property is the accounting: both counters are exact, every bit
beyond the last page is set, and no marking ever takes a page from a counter
that is zero.
-/

set_option autoImplicit false

namespace Hnmos.PageAllocator
open Hnmos.NextFit Hnmos.Transition

/-- A change of the counters that describe memory, not pages. -/
def Neutral (f : PmmStats → PmmStats) : Prop :=
  Descriptive f ∧ ∀ st, (f st).usedPages = st.usedPages

structure Kept (P : Pmm → Prop) : Prop where
  free : ∀ (s : Pmm) (page : UInt32), P s → P (s.markPageFree page)
  used : ∀ (s : Pmm) (page : UInt32), P s → P (s.markPageUsed page)
  stats : ∀ (s : Pmm) (f : PmmStats → PmmStats), Neutral f → P s → P (s.mapStats f)
  cursor : ∀ (s : Pmm) (page : UInt32), P s → P { s with nextSearchPage := page }
  prepared : ∀ (s : Pmm) (highestAddress : UInt32), P (s.prepareBitmap highestAddress)

theorem addRegion_neutral : Neutral PmmStats.addRegion := by
  refine ⟨addCount_descriptive, ?_⟩
  intro st
  unfold PmmStats.addRegion
  generalize st.regionCount + 1 = count
  rfl

theorem addUsable_neutral (lengthKib : UInt32) : Neutral fun st => st.addUsable lengthKib := by
  refine ⟨addUsable_descriptive lengthKib, ?_⟩
  intro st
  unfold PmmStats.addUsable
  generalize st.usableRegionCount + 1 = count, addKib st.usableMemoryKib lengthKib = kib
  rfl

theorem addReserved_neutral (lengthKib : UInt32) : Neutral fun st => st.addReserved lengthKib := by
  refine ⟨addReserved_descriptive lengthKib, ?_⟩
  intro st
  unfold PmmStats.addReserved
  generalize st.reservedRegionCount + 1 = count, addKib st.reservedMemoryKib lengthKib = kib
  rfl

theorem addTotal_neutral (lengthKib : UInt32) : Neutral fun st => st.addTotal lengthKib := by
  refine ⟨addTotal_descriptive lengthKib, ?_⟩
  intro st
  unfold PmmStats.addTotal
  generalize addKib st.totalMemoryKib lengthKib = kib
  rfl

section Kept
variable {P : Pmm → Prop}

theorem Kept.addEntry (h : Kept P) (s : Pmm) (entry : MmapEntry) (hs : P s) :
    P (s.addEntry entry) := by
  have hcount := h.stats s _ addRegion_neutral hs
  apply h.stats _ _ (addTotal_neutral _)
  rw [Pmm.addRegion]
  split_ifs
  · exact markRangeFree_preserves P h.free _ _ _ (h.stats _ _ (addUsable_neutral _) hcount)
  · exact h.stats _ _ (addUsable_neutral _) hcount
  · exact h.stats _ _ (addReserved_neutral _) hcount

theorem Kept.parseMmapLoop (h : Kept P) (m : Memory) (info : MultibootInfo) (fuel : ℕ)
    (offset : UInt32) (s t : Pmm) (hs : P s)
    (hparse : parseMmapLoop m info fuel offset s = some t) : P t := by
  induction fuel generalizing offset s with
  | zero => simp [PageAllocator.parseMmapLoop] at hparse
  | succ fuel ih =>
    rw [PageAllocator.parseMmapLoop] at hparse
    split_ifs at hparse
    · exact ih _ _ (h.addEntry s _ hs) hparse
    · exact Option.some.inj hparse ▸ hs

theorem Kept.initFromBasicMemory (h : Kept P) (s : Pmm) (info : MultibootInfo) :
    P (s.initFromBasicMemory info) := by
  simp only [Pmm.initFromBasicMemory]
  split_ifs
  · exact markRangeFree_preserves P h.free _ _ _ (h.prepared _ _)
  · exact h.prepared _ _

theorem Kept.detect (h : Kept P) (s t : Pmm) (m : Memory) (infoAddr : UInt32) (fuel : ℕ)
    (hdetect : s.detect m infoAddr fuel = some t) : P t := by
  simp only [Pmm.detect] at hdetect
  split_ifs at hdetect
  · cases hhigh : mmapHighestAddress m (multibootInfo m infoAddr) fuel 0 lowMemoryLimit with
    | none => simp [hhigh] at hdetect
    | some highestAddress =>
      simp only [hhigh] at hdetect
      apply h.parseMmapLoop m _ fuel 0 _ t _ hdetect
      exact h.stats _ _ ⟨fun _ => ⟨rfl, rfl⟩, fun _ => rfl⟩ (h.prepared s highestAddress)
  · rw [← Option.some.inj hdetect]
    exact h.initFromBasicMemory s _
  · rw [← Option.some.inj hdetect]
    exact h.stats _ _ ⟨fun _ => ⟨rfl, rfl⟩, fun _ => rfl⟩ (h.prepared s lowMemoryLimit)

theorem Kept.init (h : Kept P) (s t : Pmm) (m : Memory) (kernelEnd infoAddr : UInt32) (fuel : ℕ)
    (hinit : s.init m kernelEnd infoAddr fuel = some t) : P t := by
  rw [Pmm.init] at hinit
  cases hdetect : s.cleared.detect m infoAddr fuel with
  | none => simp [hdetect] at hinit
  | some d =>
    simp only [hdetect, Option.some.injEq] at hinit
    subst hinit
    have hd := h.detect _ d m infoAddr fuel hdetect
    have hreserved := reserveKernelRanges_preserves P h.used d kernelEnd infoAddr hd
    exact h.stats _ (fun st => { st with initialized := true })
      ⟨fun _ => ⟨rfl, rfl⟩, fun _ => rfl⟩ hreserved

theorem Kept.allocScan (h : Kept P) (s : Pmm) (hs : P s) (passes : ℕ) (scanned : UInt32) :
    P (s.allocScan passes scanned).2 := by
  induction passes generalizing scanned with
  | zero => exact hs
  | succ passes ih =>
    rw [Pmm.allocScan]
    simp only
    split_ifs
    · exact h.cursor _ _ (h.used s _ hs)
    · exact ih _

theorem Kept.call (h : Kept P) (s : Pmm) (op : PmmOp) (hs : P s) : P (step s op) := by
  cases op with
  | allocPage =>
    show P s.allocPage.2
    rw [Pmm.allocPage]
    split_ifs
    · exact hs
    · exact h.allocScan s hs _ _
  | freePage address =>
    show P (s.freePage address)
    rw [Pmm.freePage]
    split_ifs
    · exact hs
    · exact h.free s _ hs

theorem Kept.history (h : Kept P) (s : Pmm) (ops : List PmmOp) (hs : P s) : P (run step s ops) :=
  run_invariant_all step P h.call s ops hs

end Kept

/-- Both counters are exact and the bits beyond the last page are set. -/
structure Accounts (s : Pmm) : Prop extends Counted s where
  usedPages : s.stats.usedPages.toNat + s.stats.freePages.toNat = s.total
  beyond : ∀ p, s.total ≤ p → p < 2 ^ 18 → s.used p = true

/-- A state reached from another by markings, none of which takes a page from
a counter that is zero. -/
inductive Marked (s : Pmm) : Pmm → Prop
  | start : Marked s s
  | free {t : Pmm} (page : UInt32) (h : Marked s t)
      (hpos : page < t.stats.totalPages → t.pageIsUsed page = true → 0 < t.stats.usedPages) :
      Marked s (t.markPageFree page)
  | used {t : Pmm} (page : UInt32) (h : Marked s t)
      (hpos : page < t.stats.totalPages → t.pageIsUsed page = false → 0 < t.stats.freePages) :
      Marked s (t.markPageUsed page)
  | other {t v : Pmm} (h : Marked s t) (hbitmap : v.bitmap = t.bitmap)
      (htotal : v.stats.totalPages = t.stats.totalPages)
      (hfree : v.stats.freePages = t.stats.freePages)
      (hused : v.stats.usedPages = t.stats.usedPages) : Marked s v

theorem markPageUsed_skip (s : Pmm) (page : UInt32)
    (h : s.total ≤ page.toNat ∨ s.used page.toNat = true) : s.markPageUsed page = s := by
  rw [Pmm.markPageUsed, if_pos]
  rwa [total_le_iff, pageIsUsed_eq]

theorem markPageFree_skip (s : Pmm) (page : UInt32)
    (h : s.total ≤ page.toNat ∨ s.used page.toNat = false) : s.markPageFree page = s := by
  rw [Pmm.markPageFree, if_pos]
  rwa [total_le_iff, pageIsUsed_eq]

theorem markPageUsed_counters (s : Pmm) (page : UInt32) (hp : page.toNat < s.total)
    (hfree : s.used page.toNat = false) :
    (s.markPageUsed page).stats.freePages = s.stats.freePages - 1 ∧
      (s.markPageUsed page).stats.usedPages = s.stats.usedPages + 1 := by
  have hcond : ¬ (s.stats.totalPages ≤ page ∨ s.pageIsUsed page = true) := by
    rw [total_le_iff, pageIsUsed_eq, not_or]
    exact ⟨by omega, by simp [hfree]⟩
  rw [Pmm.markPageUsed, if_neg hcond]
  exact ⟨rfl, rfl⟩

theorem markPageFree_counters (s : Pmm) (page : UInt32) (hp : page.toNat < s.total)
    (hused : s.used page.toNat = true) :
    (s.markPageFree page).stats.freePages = s.stats.freePages + 1 ∧
      (s.markPageFree page).stats.usedPages = s.stats.usedPages - 1 := by
  have hcond : ¬ (s.stats.totalPages ≤ page ∨ s.pageIsUsed page = false) := by
    rw [total_le_iff, pageIsUsed_eq, not_or]
    exact ⟨by omega, by simp [hused]⟩
  rw [Pmm.markPageFree, if_neg hcond]
  exact ⟨rfl, rfl⟩

theorem freePages_pos (s : Pmm) (h : Accounts s) (page : UInt32) (hp : page.toNat < s.total)
    (hfree : s.used page.toNat = false) : 0 < s.stats.freePages.toNat := by
  rw [h.freePages]
  exact size_pos_of_free s _ hp hfree

theorem usedPages_pos (s : Pmm) (h : Accounts s) (page : UInt32) (hp : page.toNat < s.total)
    (hused : s.used page.toNat = true) : 0 < s.stats.usedPages.toNat := by
  have hinsert := size_markPageFree s page hp hused
  have hbound := size_le (s.markPageFree page).free s.total
  have hsum := h.usedPages
  have hcount := h.freePages
  omega

theorem markPageUsed_accounts (s : Pmm) (page : UInt32) (h : Accounts s) :
    Accounts (s.markPageUsed page) := by
  have htotal := (markPageUsed_frame s page).total
  refine ⟨markPageUsed_counted s page h.toCounted, ?_, ?_⟩
  · by_cases hskip : s.total ≤ page.toNat ∨ s.used page.toNat = true
    · rw [markPageUsed_skip s page hskip]
      exact h.usedPages
    · push Not at hskip
      have hfree : s.used page.toNat = false := by simpa using hskip.2
      have hpos := freePages_pos s h page hskip.1 hfree
      have hsum := h.usedPages
      have hlimit := h.total_le
      obtain ⟨hf, hu⟩ := markPageUsed_counters s page hskip.1 hfree
      have hone : (1 : UInt32) ≤ s.stats.freePages := UInt32.le_iff_toNat_le.mpr hpos
      have hless := UInt32.toNat_sub_of_le _ _ hone
      have hmore : (s.stats.usedPages + 1).toNat = s.stats.usedPages.toNat + 1 := by
        rw [UInt32.toNat_add]
        exact Nat.mod_eq_of_lt (by change s.stats.usedPages.toNat + 1 < 2 ^ 32; omega)
      change (s.stats.freePages - 1).toNat = s.stats.freePages.toNat - 1 at hless
      rw [htotal, hf, hu, hless, hmore]
      omega
  · intro p hp hlt
    rw [htotal] at hp
    rw [markPageUsed_used, h.beyond p hp hlt, Bool.true_or]

theorem markPageFree_accounts (s : Pmm) (page : UInt32) (h : Accounts s) :
    Accounts (s.markPageFree page) := by
  have htotal := (markPageFree_frame s page).total
  refine ⟨markPageFree_counted s page h.toCounted, ?_, ?_⟩
  · by_cases hskip : s.total ≤ page.toNat ∨ s.used page.toNat = false
    · rw [markPageFree_skip s page hskip]
      exact h.usedPages
    · push Not at hskip
      have hused : s.used page.toNat = true := by simpa using hskip.2
      have hpos := usedPages_pos s h page hskip.1 hused
      have hsum := h.usedPages
      have hlimit := h.total_le
      obtain ⟨hf, hu⟩ := markPageFree_counters s page hskip.1 hused
      have hone : (1 : UInt32) ≤ s.stats.usedPages := UInt32.le_iff_toNat_le.mpr hpos
      have hless := UInt32.toNat_sub_of_le _ _ hone
      have hmore : (s.stats.freePages + 1).toNat = s.stats.freePages.toNat + 1 := by
        rw [UInt32.toNat_add]
        exact Nat.mod_eq_of_lt (by change s.stats.freePages.toNat + 1 < 2 ^ 32; omega)
      change (s.stats.usedPages - 1).toNat = s.stats.usedPages.toNat - 1 at hless
      rw [htotal, hf, hu, hless, hmore]
      omega
  · intro p hp hlt
    rw [htotal] at hp
    have hout : decide (p < s.total) = false := by simpa using hp
    rw [markPageFree_used, h.beyond p hp hlt, hout, Bool.and_false, Bool.not_false, Bool.and_self]

theorem prepareBitmap_accounts (s : Pmm) (highestAddress : UInt32) :
    Accounts (s.prepareBitmap highestAddress) := by
  have hprepared := prepareBitmap_prepared { s with nextSearchPage := 0 } highestAddress rfl
  refine ⟨⟨hprepared.1.total_le, hprepared.1.freePages⟩, ?_, ?_⟩
  · exact Nat.add_zero _
  · intro p _ hp
    exact prepareBitmap_used s highestAddress p hp

/-- The accounting together with the markings it has come from, which start
at a bitmap with every bit set. -/
def Audited (s : Pmm) : Prop :=
  Accounts s ∧ ∃ start : Pmm, (∀ p < 2 ^ 18, start.used p = true) ∧ Marked start s

theorem audited_kept : Kept Audited where
  free := by
    intro s page h
    obtain ⟨haccounts, start, hfull, hmarked⟩ := h
    refine ⟨markPageFree_accounts s page haccounts, start, hfull, .free page hmarked ?_⟩
    intro hlt hused
    rw [UInt32.lt_iff_toNat_lt] at hlt ⊢
    rw [pageIsUsed_eq] at hused
    exact usedPages_pos s haccounts page hlt hused
  used := by
    intro s page h
    obtain ⟨haccounts, start, hfull, hmarked⟩ := h
    refine ⟨markPageUsed_accounts s page haccounts, start, hfull, .used page hmarked ?_⟩
    intro hlt hfree
    rw [UInt32.lt_iff_toNat_lt] at hlt ⊢
    rw [pageIsUsed_eq] at hfree
    exact freePages_pos s haccounts page hlt hfree
  stats := by
    intro s f hf h
    obtain ⟨haccounts, start, hfull, hmarked⟩ := h
    have htotal : (s.mapStats f).total = s.total := congrArg UInt32.toNat (hf.1 s.stats).1
    refine ⟨⟨mapStats_counted s f hf.1 haccounts.toCounted, ?_, ?_⟩, start, hfull,
      .other hmarked rfl (hf.1 s.stats).1 (hf.1 s.stats).2 (hf.2 s.stats)⟩
    · rw [htotal, ← haccounts.usedPages]
      show (f s.stats).usedPages.toNat + (f s.stats).freePages.toNat = _
      rw [hf.2, (hf.1 s.stats).2]
    · intro p hp
      rw [htotal] at hp
      exact haccounts.beyond p hp
  cursor := by
    intro s page h
    obtain ⟨haccounts, start, hfull, hmarked⟩ := h
    exact ⟨⟨⟨haccounts.total_le, haccounts.freePages⟩, haccounts.usedPages, haccounts.beyond⟩,
      start, hfull, .other hmarked rfl rfl rfl rfl⟩
  prepared := by
    intro s highestAddress
    exact ⟨prepareBitmap_accounts s highestAddress, _, prepareBitmap_used s highestAddress, .start⟩

/-- After every initialisation that returns, on any of its three paths, and
every history of calls with any arguments: at most 2 ^ 18 pages, both counters
exact, the bits beyond the last page set, and no counter has underflowed. -/
theorem pages_accounted (s₀ s : Pmm) (m : Memory) (kernelEnd infoAddr : UInt32) (fuel : ℕ)
    (hinit : s₀.init m kernelEnd infoAddr fuel = some s) (ops : List PmmOp) :
    Accounts (run step s ops) ∧
      ∃ start : Pmm, (∀ p < 2 ^ 18, start.used p = true) ∧ Marked start (run step s ops) :=
  audited_kept.history s ops (audited_kept.init s₀ s m kernelEnd infoAddr fuel hinit)

theorem pages_accounted_boot :
    ∃ s, emptyPmm.init bootMemory 0x101000 0x9000 2 = some s ∧
      Accounts (run step s [.allocPage, .freePage 0x101000, .freePage 0x101000]) := by
  obtain ⟨s, hs, _⟩ := Option.map_eq_some_iff.mp boot_first_page
  exact ⟨s, hs, (pages_accounted emptyPmm s bootMemory 0x101000 0x9000 2 hs
    [.allocPage, .freePage 0x101000, .freePage 0x101000]).1⟩

end Hnmos.PageAllocator
