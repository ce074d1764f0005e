import Mathlib
import Hnmos.MemoryMap

/-!
# The sizes without a memory map

Without a memory map the boot information gives two sizes in kilobytes. The
total that sizes the bitmap and the length of the range that is freed are
multiplied by 1024 in 32 bits, each on its own; a sum of four gigabytes or more
loses the pages between where the wrapped and the true sizes end.
-/

set_option autoImplicit false

namespace Hnmos.PageAllocator

def Sized (m : Memory) (infoAddr : UInt32) : Prop :=
  infoAddr ≠ 0 ∧ ¬ Mapped m infoAddr ∧ (multibootInfo m infoAddr).flags &&& 1 ≠ 0

/-- A whole page of the upper memory, cut at one gigabyte. -/
def MultibootInfo.Upper (info : MultibootInfo) (page : ℕ) : Prop :=
  0x100000 ≤ 4096 * page ∧
    4096 * (page + 1) ≤ min (0x100000 + 1024 * info.memUpper.toNat) 0x40000000

/-- The page where the sizes in 32 bits end. -/
def MultibootInfo.wrappedEnd (info : MultibootInfo) : ℕ :=
  min ((1024 * (info.memLower.toNat + info.memUpper.toNat + 1024) % 2 ^ 32 + 4095) / 4096)
    ((2 ^ 20 + 1024 * info.memUpper.toNat % 2 ^ 32) / 4096)

theorem sizes_toNat (lower upper : UInt32) :
    ((lower + upper + 1024) * 1024).toNat =
      1024 * (lower.toNat + upper.toNat + 1024) % 2 ^ 32 ∧
    (upper * 1024).toNat = 1024 * upper.toNat % 2 ^ 32 := by
  have hk : (1024 : UInt32).toNat = 1024 := rfl
  constructor
  · rw [UInt32.toNat_mul, UInt32.toNat_add, UInt32.toNat_add, hk]
    omega
  · rw [UInt32.toNat_mul, hk, Nat.mul_comm]

theorem initFromBasicMemory_frees (s : Pmm) (info : MultibootInfo)
    (hflag : info.flags &&& 1 ≠ 0) (page : ℕ) (hpage : 256 ≤ page) :
    (page < (s.initFromBasicMemory info).total ↔ 4096 * page <
      min (1024 * (info.memLower.toNat + info.memUpper.toNat + 1024) % 2 ^ 32) (2 ^ 30)) ∧
    (page < (s.initFromBasicMemory info).total →
      ((s.initFromBasicMemory info).used page = false ↔ page < info.wrappedEnd)) := by
  obtain ⟨htotal, hupper⟩ := sizes_toNat info.memLower info.memUpper
  have hbase : lowMemoryLimit.toNat = 2 ^ 20 := rfl
  obtain ⟨u, hu⟩ : ∃ u : Pmm, s.initFromBasicMemory info =
      (u.prepareBitmap ((info.memLower + info.memUpper + 1024) * 1024)).markRangeFree
        lowMemoryLimit (info.memUpper * 1024) := by
    simp only [Pmm.initFromBasicMemory, if_pos hflag]
    exact ⟨_, rfl⟩
  have hiff := prepareBitmap_total_iff u ((info.memLower + info.memUpper + 1024) * 1024)
  have hused := fun q => prepareBitmap_used u ((info.memLower + info.memUpper + 1024) * 1024) q
  generalize u.prepareBitmap ((info.memLower + info.memUpper + 1024) * 1024) = v at hu hiff hused
  have hle : v.total ≤ 2 ^ 18 := by
    by_contra hover
    have hlast := (hiff (2 ^ 18)).mp (by omega)
    omega
  have hframe := (markRangeFree_frame v lowMemoryLimit (info.memUpper * 1024)).total
  rw [hu, hframe, hiff page, htotal]
  refine ⟨Iff.rfl, fun hbelow => ?_⟩
  have hpage' : page < v.total := (hiff page).mpr (by rw [htotal]; exact hbelow)
  rw [markRangeFree_used v _ _ hle page, hused page (by omega), hbase, hupper,
    MultibootInfo.wrappedEnd]
  simp only [Bool.true_eq_false, false_or, hpage', true_and]
  -- the two products by themselves: neither their factors nor 2 ^ 32 matter here
  generalize 1024 * (info.memLower.toNat + info.memUpper.toNat + 1024) % 2 ^ 32 =
    highest at hbelow ⊢
  generalize 1024 * info.memUpper.toNat % 2 ^ 32 = length
  omega

theorem detect_sized (s : Pmm) (m : Memory) (infoAddr : UInt32) (fuel : ℕ)
    (hsized : Sized m infoAddr) :
    s.detect m infoAddr fuel = some (s.initFromBasicMemory (multibootInfo m infoAddr)) := by
  obtain ⟨hne, hmap, _⟩ := hsized
  have hcond : ¬ (infoAddr ≠ 0 ∧ (multibootInfo m infoAddr).flags &&& 64 ≠ 0 ∧
      (multibootInfo m infoAddr).mmapAddr ≠ 0 ∧ (multibootInfo m infoAddr).mmapLength ≠ 0) := hmap
  simp only [Pmm.detect]
  rw [if_neg hcond, if_pos hne]

theorem init_sized (s₀ : Pmm) (m : Memory) (kernelEnd infoAddr : UInt32) (fuel : ℕ)
    (hsized : Sized m infoAddr) : ∃ t, s₀.init m kernelEnd infoAddr fuel = some t := by
  rw [Pmm.init, detect_sized s₀.cleared m infoAddr fuel hsized]
  exact ⟨_, rfl⟩

theorem basic_free (s₀ t : Pmm) (m : Memory) (kernelEnd infoAddr : UInt32) (fuel : ℕ)
    (hlow : 0x100000 < kernelEnd.toNat) (hhigh : kernelEnd.toNat < 0x40000000)
    (hsized : Sized m infoAddr) (hinit : s₀.init m kernelEnd infoAddr fuel = some t) (p : ℕ) :
    (p < t.total ∧ t.used p = false) ↔ p < 2 ^ 18 ∧
      p < (multibootInfo m infoAddr).wrappedEnd ∧ ¬ Protected kernelEnd infoAddr p := by
  have hreserved := init_reserved s₀ t m kernelEnd infoAddr fuel hlow hhigh hinit
  have hfrees := initFromBasicMemory_frees s₀.cleared (multibootInfo m infoAddr) hsized.2.2 p
  rw [Pmm.init, detect_sized _ m infoAddr fuel hsized] at hinit
  simp only [Option.some.injEq] at hinit
  generalize s₀.cleared.initFromBasicMemory (multibootInfo m infoAddr) = d at hinit hfrees
  have htotal : t.total = d.total := by
    rw [← hinit]
    exact (reserveKernelRanges_frame d kernelEnd infoAddr).total
  have hused : t.used p = (d.reserveKernelRanges kernelEnd infoAddr).used p := by
    rw [← hinit]
    rfl
  by_cases hopen : Protected kernelEnd infoAddr p
  · constructor
    · rintro ⟨hp, hclear⟩
      rw [hreserved p hp hopen] at hclear
      exact absurd hclear (by decide)
    · rintro ⟨_, _, hclosed⟩
      exact absurd hopen hclosed
  · have hpage : 256 ≤ p := by
      by_contra hsmall
      exact hopen (.low (by omega))
    obtain ⟨hbelow, hclear⟩ := hfrees hpage
    rw [htotal, hused]
    constructor
    · rintro ⟨hp, hfree⟩
      have hlt := hbelow.mp hp
      rw [reserve_unprotected d kernelEnd infoAddr hlow hhigh p (by omega) hopen,
        hclear hp] at hfree
      exact ⟨by omega, hfree, hopen⟩
    · rintro ⟨hp, hwrapped, _⟩
      have hlt : p < d.total := by
        rw [hbelow]
        rw [MultibootInfo.wrappedEnd] at hwrapped
        omega
      refine ⟨hlt, ?_⟩
      rw [reserve_unprotected d kernelEnd infoAddr hlow hhigh p hp hopen, hclear hlt]
      exact hwrapped

/-- After every initialisation from the two sizes, the free pages are exactly
the unprotected whole pages of the upper memory below one gigabyte if and only
if the sizes fit in 32 bits, or the pages of it from the end of the wrapped
sizes on are all protected. -/
theorem basic_free_iff (s₀ t : Pmm) (m : Memory) (kernelEnd infoAddr : UInt32) (fuel : ℕ)
    (hlow : 0x100000 < kernelEnd.toNat) (hhigh : kernelEnd.toNat < 0x40000000)
    (hsized : Sized m infoAddr) (hinit : s₀.init m kernelEnd infoAddr fuel = some t) :
    let info := multibootInfo m infoAddr
    (∀ p, (p < t.total ∧ t.used p = false) ↔ info.Upper p ∧ ¬ Protected kernelEnd infoAddr p) ↔
      info.memLower.toNat + info.memUpper.toNat + 1024 < 2 ^ 22 ∨
        ∀ p, info.wrappedEnd ≤ p → info.Upper p → Protected kernelEnd infoAddr p := by
  intro info
  have hfree := basic_free s₀ t m kernelEnd infoAddr fuel hlow hhigh hsized hinit
  constructor
  · intro hexact
    right
    intro p hwrapped hupper
    by_contra hopen
    obtain ⟨_, hlt, _⟩ := (hfree p).mp ((hexact p).mpr ⟨hupper, hopen⟩)
    exact absurd hlt (Nat.not_lt.mpr hwrapped)
  · intro hcondition p
    rw [hfree p]
    constructor
    · rintro ⟨hp, hwrapped, hopen⟩
      have hpage : 256 ≤ p := by
        by_contra hsmall
        exact hopen (.low (by omega))
      refine ⟨⟨by omega, ?_⟩, hopen⟩
      change p < info.wrappedEnd at hwrapped
      rw [MultibootInfo.wrappedEnd] at hwrapped
      omega
    · rintro ⟨hupper, hopen⟩
      have hend := hupper.2
      refine ⟨by omega, ?_, hopen⟩
      show p < info.wrappedEnd
      rcases hcondition with hsmall | hprotected
      · rw [MultibootInfo.wrappedEnd]
        omega
      · by_contra hbeyond
        exact hopen (hprotected p (Nat.not_lt.mp hbeyond) hupper)

def sizedMemory (lower upper : UInt32) : Memory := fun address =>
  ([1, 0, 0, 0] ++ wordBytes lower ++ wordBytes upper).getD (address - 0x9000).toNat 0

theorem sizedMemory_sized (lower upper : UInt32)
    (hwords : (multibootInfo (sizedMemory lower upper) 0x9000).flags = 1) :
    Sized (sizedMemory lower upper) 0x9000 := by
  refine ⟨by decide, ?_, ?_⟩
  · rintro ⟨_, hflag, _⟩
    rw [hwords] at hflag
    exact hflag (by decide)
  · rw [hwords]
    decide

theorem basic_free_small :
    ∃ t, emptyPmm.init (sizedMemory 640 130048) 0x101000 0x9000 0 = some t ∧
      ∀ p, (p < t.total ∧ t.used p = false) ↔
        (multibootInfo (sizedMemory 640 130048) 0x9000).Upper p ∧
          ¬ Protected 0x101000 0x9000 p := by
  have hsized := sizedMemory_sized 640 130048 (by decide)
  obtain ⟨t, ht⟩ := init_sized emptyPmm _ 0x101000 0x9000 0 hsized
  refine ⟨t, ht, (basic_free_iff emptyPmm t _ 0x101000 0x9000 0 (by decide) (by decide) hsized
    ht).mpr (Or.inl ?_)⟩
  decide

/-- A machine of four gigabytes: the wrapped total is 640 kilobytes, and no page
of the upper memory is free, the one at two megabytes included. -/
theorem four_gigabytes_lost :
    Sized (sizedMemory 640 4193280) 0x9000 ∧
      ∃ t, emptyPmm.init (sizedMemory 640 4193280) 0x101000 0x9000 0 = some t ∧
        ¬ ∀ p, (p < t.total ∧ t.used p = false) ↔
          (multibootInfo (sizedMemory 640 4193280) 0x9000).Upper p ∧
            ¬ Protected 0x101000 0x9000 p := by
  have hsized := sizedMemory_sized 640 4193280 (by decide)
  obtain ⟨t, ht⟩ := init_sized emptyPmm _ 0x101000 0x9000 0 hsized
  refine ⟨hsized, t, ht, fun hexact => ?_⟩
  have hupper : (multibootInfo (sizedMemory 640 4193280) 0x9000).Upper 512 := by
    rw [MultibootInfo.Upper]
    decide
  have hup : (alignUp 0x101000).toNat = 0x101000 := by decide
  have hinfo : (0x9000 : UInt32).toNat = 0x9000 := rfl
  have hopen : ¬ Protected 0x101000 0x9000 512 :=
    unprotected _ _ 512 (by decide) (by omega) (by omega)
  obtain ⟨_, hend, _⟩ := (basic_free emptyPmm t _ 0x101000 0x9000 0 (by decide) (by decide)
    hsized ht 512).mp ((hexact 512).mpr ⟨hupper, hopen⟩)
  exact absurd hend (by decide)

end Hnmos.PageAllocator
