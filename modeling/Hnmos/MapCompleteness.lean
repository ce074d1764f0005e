import Mathlib
import Hnmos.MemoryMap

/-!
# Usable pages that are lost

The walk over the memory map frees a range of the low word of a region's length
only. A region of four gigabytes or more that starts below one gigabyte loses
every page beyond that range.
-/

set_option autoImplicit false

namespace Hnmos.PageAllocator

def Usable (entries : List MmapEntry) (page : ℕ) : Prop :=
  ∃ e ∈ entries, e.type = 1 ∧ e.base ≤ 4096 * page ∧ 4096 * (page + 1) ≤ e.base + e.length

def MmapEntry.Apart (e f : MmapEntry) : Prop :=
  ∀ address, ¬ (e.contains address ∧ f.contains address)

/-- An available region below four gigabytes whose length needs its high word. -/
def MmapEntry.Long (e : MmapEntry) : Prop :=
  e.type = 1 ∧ e.baseAddrHigh = 0 ∧ e.lengthHigh ≠ 0

/-- The pages of the first gigabyte from the base on that the low word of the
length covers. -/
def MmapEntry.Covers (e : MmapEntry) (page : ℕ) : Prop :=
  4096 ≤ e.lengthLow.toNat ∧ 4096 * (page + 1) ≤ e.baseAddrLow.toNat + e.lengthLow.toNat

theorem apart_symm (e f : MmapEntry) (h : e.Apart f) : f.Apart e :=
  fun address hboth => h address ⟨hboth.2, hboth.1⟩

theorem same_entry (entries : List MmapEntry) (hapart : entries.Pairwise MmapEntry.Apart)
    (e f : MmapEntry) (he : e ∈ entries) (hf : f ∈ entries) (address : ℕ)
    (hin : e.contains address) (hin' : f.contains address) : e = f := by
  by_contra hne
  have hsymm : Std.Symm MmapEntry.Apart := ⟨apart_symm⟩
  exact hapart.forall he hf hne address ⟨hin, hin'⟩

theorem base_low (e : MmapEntry) (h : e.baseAddrHigh = 0) : e.base = e.baseAddrLow.toNat := by
  rw [MmapEntry.base, h, UInt32.toNat_zero]
  omega

theorem long_length (e : MmapEntry) (h : e.Long) : 2 ^ 32 ≤ e.length := by
  have hne : e.lengthHigh.toNat ≠ 0 := fun hzero => h.2.2 (UInt32.toNat_inj.mp hzero)
  rw [MmapEntry.length]
  omega

theorem usable_cases (e : MmapEntry) (page : ℕ) (hp : page < 2 ^ 18) (htype : e.type = 1)
    (hbase : e.base ≤ 4096 * page) (hend : 4096 * (page + 1) ≤ e.base + e.length)
    (hcovers : e.Long → e.Covers page) : e.Frees page := by
  have hhigh : e.baseAddrHigh = 0 := by
    apply UInt32.toNat_inj.mp
    rw [MmapEntry.base] at hbase
    show _ = 0
    omega
  have hlow := base_low e hhigh
  by_cases hlong : e.lengthHigh = 0
  · have hlength : e.length = e.lengthLow.toNat := by
      rw [MmapEntry.length, hlong, UInt32.toNat_zero]
      omega
    exact ⟨htype, hhigh, by omega, Or.inr ⟨by omega, by omega⟩⟩
  · obtain ⟨hshort, hcover⟩ := hcovers ⟨htype, hhigh, hlong⟩
    exact ⟨htype, hhigh, hshort, Or.inr ⟨by omega, hcover⟩⟩

/-- After every initialisation from a memory map without overlaps, every usable
unprotected page of the first gigabyte is free exactly when an entry wraps and
frees them all, or every long region covers the unprotected pages from its base
on. -/
theorem map_complete_iff (s₀ t : Pmm) (m : Memory) (kernelEnd infoAddr : UInt32) (fuel : ℕ)
    (entries : List MmapEntry) (hlow : 0x100000 < kernelEnd.toNat)
    (hhigh : kernelEnd.toNat < 0x40000000) (hmap : Mapped m infoAddr)
    (hentries : mapEntries m (multibootInfo m infoAddr) fuel 0 = some entries)
    (hapart : entries.Pairwise MmapEntry.Apart)
    (hinit : s₀.init m kernelEnd infoAddr fuel = some t) :
    (∀ p < 2 ^ 18, Usable entries p → ¬ Protected kernelEnd infoAddr p →
        p < t.total ∧ t.used p = false) ↔
      (∃ e ∈ entries, e.Wraps) ∨
        ∀ e ∈ entries, e.Long → ∀ p < 2 ^ 18, e.baseAddrLow.toNat ≤ 4096 * p →
          ¬ Protected kernelEnd infoAddr p → e.Covers p := by
  have hfree := init_free_iff s₀ t m kernelEnd infoAddr fuel entries hlow hhigh hmap hentries hinit
  constructor
  · intro hcomplete
    by_cases hwraps : ∃ e ∈ entries, e.Wraps
    · exact Or.inl hwraps
    right
    intro e he hlong p hp hbase hopen
    have hstart := base_low e hlong.2.1
    have hlength := long_length e hlong
    have husable : Usable entries p := ⟨e, he, hlong.1, by omega, by omega⟩
    obtain ⟨_, ⟨f, hf, htype, hfhigh, hflength, hfpage⟩, _⟩ :=
      (hfree p).mp (hcomplete p hp husable hopen)
    rcases hfpage with hwrap | ⟨hfbase, hfend⟩
    · exact absurd ⟨f, hf, htype, hfhigh, hflength, hwrap⟩ hwraps
    · have hfstart := base_low f hfhigh
      have hflong : f.lengthLow.toNat ≤ f.length := Nat.le_add_left _ _
      have hsame : e = f := same_entry entries hapart e f he hf (4096 * p)
        ⟨by omega, by omega⟩ ⟨by omega, by omega⟩
      rw [hsame]
      exact ⟨hflength, hfend⟩
  · intro hcondition p hp husable hopen
    obtain ⟨e, he, htype, hbase, hend⟩ := husable
    apply (hfree p).mpr
    rcases hcondition with ⟨f, hf, hwraps⟩ | hcovers
    · obtain ⟨hftype, hfhigh, hflength, hwrap⟩ := hwraps
      exact ⟨hp, ⟨f, hf, hftype, hfhigh, hflength, Or.inl hwrap⟩, hopen⟩
    · refine ⟨hp, ⟨e, he, usable_cases e p hp htype hbase hend fun hlong => ?_⟩, hopen⟩
      exact hcovers e he hlong p hp (base_low e hlong.2.1 ▸ hbase) hopen

theorem map_complete_plain :
    ∃ t, emptyPmm.init (mapMemory 0x105000 [plainEntry]) 0x101000 0x9000 2 = some t ∧
      ∀ p < 2 ^ 18, Usable [plainEntry] p → ¬ Protected 0x101000 0x9000 p →
        p < t.total ∧ t.used p = false := by
  obtain ⟨t, ht⟩ := init_mapped emptyPmm _ 0x101000 0x9000 2 _ plain_mapped plain_entries
  refine ⟨t, ht, (map_complete_iff emptyPmm t _ 0x101000 0x9000 2 _ (by decide) (by decide)
    plain_mapped plain_entries (List.pairwise_singleton _ _) ht).mpr (Or.inr ?_)⟩
  intro e he hlong
  rw [List.mem_singleton.mp he] at hlong
  exact absurd rfl hlong.2.2

def longEntry : MmapEntry := ⟨20, 0x100000, 0, 0, 1, 1⟩

theorem long_region_lost :
    ∃ t, emptyPmm.init (mapMemory 0x105000 [longEntry]) 0x101000 0x9000 2 = some t ∧
      mapEntries (mapMemory 0x105000 [longEntry])
        (multibootInfo (mapMemory 0x105000 [longEntry]) 0x9000) 2 0 = some [longEntry] ∧
      [longEntry].Pairwise MmapEntry.Apart ∧ Usable [longEntry] 512 ∧
      ¬ Protected 0x101000 0x9000 512 ∧ ¬ (512 < t.total ∧ t.used 512 = false) := by
  have hmap : Mapped (mapMemory 0x105000 [longEntry]) 0x9000 := by
    refine ⟨?_, ?_, ?_, ?_⟩ <;> decide
  have hentries : mapEntries (mapMemory 0x105000 [longEntry])
      (multibootInfo (mapMemory 0x105000 [longEntry]) 0x9000) 2 0 = some [longEntry] := by
    decide
  obtain ⟨t, ht⟩ := init_mapped emptyPmm _ 0x101000 0x9000 2 _ hmap hentries
  have hup : (alignUp 0x101000).toNat = 0x101000 := by decide
  have hinfo : (0x9000 : UInt32).toNat = 0x9000 := rfl
  have hlength : longEntry.lengthLow.toNat = 0 := rfl
  have husable : Usable [longEntry] 512 :=
    ⟨longEntry, List.mem_singleton_self _, rfl, by decide, by decide⟩
  refine ⟨t, ht, hentries, List.pairwise_singleton _ _, husable,
    unprotected _ _ 512 (by decide) (by omega) (by omega), ?_⟩
  intro hfree
  obtain ⟨_, ⟨e, he, _, _, hshort, _⟩, _⟩ := (init_free_iff emptyPmm t _ 0x101000 0x9000 2 _
    (by decide) (by decide) hmap hentries ht 512).mp hfree
  rw [List.mem_singleton.mp he, hlength] at hshort
  omega

end Hnmos.PageAllocator
