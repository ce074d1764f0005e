import Mathlib
import Hnmos.PageReservation

/-!
# From the memory map to the bitmap

The walk over the memory map is a list of entries. Which pages are free after
initialisation is said exactly: those an available entry frees, less the
protected ones. An entry whose base lies in the last page of the 32-bit space
beyond its first byte has its start rounded up to address 0 and frees every
tracked page.
-/

set_option autoImplicit false

namespace Hnmos.PageAllocator

def mapEntries (m : Memory) (info : MultibootInfo) : ℕ → UInt32 → Option (List MmapEntry)
  | 0, _ => none
  | fuel + 1, offset =>
    if offset < info.mmapLength then
      let entry := mmapEntry m (info.mmapAddr + offset)
      (mapEntries m info fuel (offset + (entry.size + 4))).map fun entries => entry :: entries
    else some []

def Mapped (m : Memory) (infoAddr : UInt32) : Prop :=
  infoAddr ≠ 0 ∧ (multibootInfo m infoAddr).flags &&& 64 ≠ 0 ∧
    (multibootInfo m infoAddr).mmapAddr ≠ 0 ∧ (multibootInfo m infoAddr).mmapLength ≠ 0

def MmapEntry.base (e : MmapEntry) : ℕ := 2 ^ 32 * e.baseAddrHigh.toNat + e.baseAddrLow.toNat

def MmapEntry.length (e : MmapEntry) : ℕ := 2 ^ 32 * e.lengthHigh.toNat + e.lengthLow.toNat

def MmapEntry.contains (e : MmapEntry) (address : ℕ) : Prop :=
  e.base ≤ address ∧ address < e.base + e.length

def InPage (page address : ℕ) : Prop := 4096 * page ≤ address ∧ address < 4096 * (page + 1)

/-- Every byte of the page lies in some available region. -/
def Inside (entries : List MmapEntry) (page : ℕ) : Prop :=
  ∀ address, InPage page address → ∃ e ∈ entries, e.type = 1 ∧ e.contains address

/-- The page shares a byte with a region that is not available or with the
memory map itself. -/
def Touches (entries : List MmapEntry) (info : MultibootInfo) (page : ℕ) : Prop :=
  (∃ e ∈ entries, e.type ≠ 1 ∧ ∃ address, InPage page address ∧ e.contains address) ∨
    ∃ address, InPage page address ∧ info.mmapAddr.toNat ≤ address ∧
      address < info.mmapAddr.toNat + info.mmapLength.toNat

/-- An available entry whose start is rounded up beyond 32 bits. -/
def MmapEntry.Wraps (e : MmapEntry) : Prop :=
  e.type = 1 ∧ e.baseAddrHigh = 0 ∧ 4096 ≤ e.lengthLow.toNat ∧ 0xFFFFF000 < e.baseAddrLow.toNat

def MmapEntry.Frees (e : MmapEntry) (page : ℕ) : Prop :=
  e.type = 1 ∧ e.baseAddrHigh = 0 ∧ 4096 ≤ e.lengthLow.toNat ∧
    (0xFFFFF000 < e.baseAddrLow.toNat ∨
      e.baseAddrLow.toNat ≤ 4096 * page ∧
        4096 * (page + 1) ≤ e.baseAddrLow.toNat + e.lengthLow.toNat)

theorem frees_inside (entries : List MmapEntry) (e : MmapEntry) (page : ℕ) (he : e ∈ entries)
    (hw : ¬ e.Wraps) (h : e.Frees page) : Inside entries page := by
  obtain ⟨htype, hhigh, hlength, hpage⟩ := h
  rcases hpage with hwrap | ⟨hlow, hend⟩
  · exact absurd ⟨htype, hhigh, hlength, hwrap⟩ hw
  · intro address ha
    have hbase : e.base = e.baseAddrLow.toNat := by
      rw [MmapEntry.base, hhigh, UInt32.toNat_zero]
      omega
    have hlong : e.lengthLow.toNat ≤ e.length := Nat.le_add_left _ _
    refine ⟨e, he, htype, ?_, ?_⟩
    · rw [hbase]
      exact le_trans hlow ha.1
    · rw [hbase]
      have hlt := ha.2
      omega

theorem parseMmapLoop_entries (m : Memory) (info : MultibootInfo) (fuel : ℕ) (offset : UInt32)
    (s : Pmm) : parseMmapLoop m info fuel offset s =
      (mapEntries m info fuel offset).map fun entries => entries.foldl Pmm.addEntry s := by
  induction fuel generalizing offset s with
  | zero => rfl
  | succ fuel ih =>
    rw [parseMmapLoop, mapEntries]
    split_ifs
    · rw [ih, Option.map_map]
      rfl
    · rfl

def raise (highest : UInt32) (entry : MmapEntry) : UInt32 :=
  if highest < entryEnd entry then entryEnd entry else highest

theorem mmapHighestAddress_entries (m : Memory) (info : MultibootInfo) (fuel : ℕ)
    (offset highest : UInt32) : mmapHighestAddress m info fuel offset highest =
      (mapEntries m info fuel offset).map fun entries => entries.foldl raise highest := by
  induction fuel generalizing offset highest with
  | zero => rfl
  | succ fuel ih =>
    rw [mmapHighestAddress, mapEntries]
    split_ifs
    · rw [ih, Option.map_map]
      rfl
    · rfl

theorem raise_le (highest : UInt32) (entry : MmapEntry) :
    highest.toNat ≤ (raise highest entry).toNat ∧
      (entryEnd entry).toNat ≤ (raise highest entry).toNat := by
  rw [raise]
  split_ifs with h <;> rw [UInt32.lt_iff_toNat_lt] at h <;> omega

theorem foldl_raise_le (entries : List MmapEntry) (highest : UInt32) :
    highest.toNat ≤ (entries.foldl raise highest).toNat ∧
      ∀ e ∈ entries, (entryEnd e).toNat ≤ (entries.foldl raise highest).toNat := by
  induction entries generalizing highest with
  | nil => exact ⟨le_rfl, nofun⟩
  | cons e entries ih =>
    obtain ⟨hhigh, hentries⟩ := ih (raise highest e)
    obtain ⟨hold, hnew⟩ := raise_le highest e
    rw [List.foldl_cons]
    refine ⟨le_trans hold hhigh, ?_⟩
    intro f hf
    rcases List.mem_cons.mp hf with rfl | hf
    · exact le_trans hnew hhigh
    · exact hentries f hf

/-- A page that an entry frees ends below the limit of the entry, or the limit
is the tracked memory. -/
theorem frees_below (e : MmapEntry) (page : ℕ) (hp : page < 2 ^ 18) (h : e.Frees page) :
    4096 * (page + 1) ≤ (entryEnd e).toNat := by
  obtain ⟨_, hhigh, hlength, hpage⟩ := h
  have hmax : maxTrackedMemory.toNat = 2 ^ 30 := rfl
  have hb := e.baseAddrLow.toNat_lt
  have hl := e.lengthLow.toNat_lt
  have hsum := UInt32.toNat_add e.baseAddrLow e.lengthLow
  simp only [entryEnd]
  split_ifs with hlow hwrap
  · omega
  · rw [UInt32.lt_iff_toNat_lt, hsum] at hwrap
    rw [hsum]
    have hnowrap : e.baseAddrLow.toNat + e.lengthLow.toNat < 2 ^ 32 := by
      by_contra hover
      rw [Nat.mod_eq_sub_mod (by omega), Nat.mod_eq_of_lt (by omega)] at hwrap
      omega
    rw [Nat.mod_eq_of_lt hnowrap]
    omega
  · omega

theorem alignUp_wraps (value : UInt32) (h : 0xFFFFF000 < value.toNat) :
    (alignUp value).toNat = 0 := by
  have hv := value.toNat_lt
  have hsum : (value + 4096 - 1).toNat = value.toNat + 4095 - 2 ^ 32 := by
    have hplain : value + 4096 - 1 = value + 4095 := by grind
    rw [hplain, UInt32.toNat_add]
    change (value.toNat + 4095) % 2 ^ 32 = _
    omega
  have hmask : (value + 4096 - 1).toNat &&& (0xFFFFF000 : UInt32).toNat =
      (value + 4096 - 1).toNat / 4096 * 4096 := and_pageMask _ (value + 4096 - 1).toNat_lt
  rw [alignUp, UInt32.toNat_and, hmask, hsum]
  omega

theorem add_wraps_iff (base length : UInt32) :
    base + length < base ↔ 2 ^ 32 ≤ base.toNat + length.toNat := by
  have hb := base.toNat_lt
  have hl := length.toNat_lt
  rw [UInt32.lt_iff_toNat_lt, UInt32.toNat_add]
  omega

theorem add_plain (base length : UInt32) (h : ¬ base + length < base) :
    (base + length).toNat = base.toNat + length.toNat := by
  rw [add_wraps_iff] at h
  rw [UInt32.toNat_add]
  exact Nat.mod_eq_of_lt (by omega)

/-- The limit of a range as the range operations compute it. -/
def clip (limit : UInt32) : UInt32 := if maxTrackedMemory < limit then maxTrackedMemory else limit

theorem clip_toNat (limit : UInt32) : (clip limit).toNat = min limit.toNat (2 ^ 30) := by
  have hmax : maxTrackedMemory.toNat = 2 ^ 30 := rfl
  rw [clip]
  split_ifs with h <;> rw [UInt32.lt_iff_toNat_lt] at h <;> omega

theorem prepareBitmap_total_iff (s : Pmm) (highestAddress : UInt32) (page : ℕ) :
    page < (s.prepareBitmap highestAddress).total ↔
      4096 * page < min highestAddress.toNat (2 ^ 30) := by
  have hlimit : (0x40000 : UInt32).toNat = 2 ^ 18 := rfl
  have hclip := clip_toNat highestAddress
  have hup := alignUp_toNat (clip highestAddress) (by omega)
  have hdiv : (alignUp (clip highestAddress) / 4096).toNat =
      (alignUp (clip highestAddress)).toNat / 4096 := by
    rw [UInt32.toNat_div]
    rfl
  have htotal : (s.prepareBitmap highestAddress).total =
      (if 0x40000 < alignUp (clip highestAddress) / 4096 then 0x40000
        else alignUp (clip highestAddress) / 4096 : UInt32).toNat := rfl
  rw [htotal]
  split_ifs with hmax
  · rw [UInt32.lt_iff_toNat_lt, hdiv] at hmax
    omega
  · rw [hdiv]
    omega

theorem markRangeFree_used (s : Pmm) (base length : UInt32) (htotal : s.total ≤ 2 ^ 18) (q : ℕ) :
    (s.markRangeFree base length).used q = false ↔ s.used q = false ∨
      q < s.total ∧ 4096 ≤ length.toNat ∧ (0xFFFFF000 < base.toNat ∨
        base.toNat ≤ 4096 * q ∧ 4096 * (q + 1) ≤ base.toNat + length.toNat) := by
  have hb := base.toNat_lt
  have hmax : maxTrackedMemory.toNat = 2 ^ 30 := rfl
  have hfour : (4096 : UInt32).toNat = 4096 := rfl
  by_cases hshort : length < 4096
  · have hsame : s.markRangeFree base length = s := by
      simp only [Pmm.markRangeFree, if_pos hshort]
    rw [UInt32.lt_iff_toNat_lt, hfour] at hshort
    rw [hsame]
    constructor
    · exact Or.inl
    · rintro (h | h)
      · exact h
      · omega
  · have hrange : s.markRangeFree base length = markPages Pmm.markPageFree
        (clip (if base + length < base then maxTrackedMemory else alignDown (base + length)))
        (2 ^ 18) (alignUp base) s := by
      simp only [Pmm.markRangeFree, if_neg hshort, clip]
    rw [UInt32.lt_iff_toNat_lt, hfour] at hshort
    have hclip := clip_toNat
      (if base + length < base then maxTrackedMemory else alignDown (base + length))
    have haligned : (alignUp base).toNat % 4096 = 0 := by
      by_cases hwrap : 0xFFFFF000 < base.toNat
      · rw [alignUp_wraps base hwrap]
      · rw [alignUp_toNat base (by omega)]
        omega
    rw [hrange, markPages_frees _ (by rw [hclip]; exact Nat.min_le_right _ _) _ s haligned,
      Bool.and_eq_false_iff, Bool.not_eq_false', decide_eq_true_iff]
    refine or_congr_right (and_congr_right fun hq => ?_)
    rw [hclip]
    by_cases hwrap : 0xFFFFF000 < base.toNat
    · have hover : base + length < base := (add_wraps_iff base length).mpr (by omega)
      rw [alignUp_wraps base hwrap, if_pos hover, hmax]
      omega
    · rw [alignUp_toNat base (by omega)]
      split_ifs with hover
      · rw [add_wraps_iff] at hover
        rw [hmax]
        omega
      · rw [alignDown_toNat, add_plain base length hover]
        omega

theorem mapStats_used (s : Pmm) (f : PmmStats → PmmStats) (q : ℕ) :
    (s.mapStats f).used q = s.used q := rfl

theorem mapStats_total (s : Pmm) (f : PmmStats → PmmStats) (hf : Descriptive f) :
    (s.mapStats f).total = s.total := congrArg UInt32.toNat (hf s.stats).1

theorem markRangeFree_frame (s : Pmm) (base length : UInt32) :
    SameFrame s (s.markRangeFree base length) :=
  markRangeFree_preserves (SameFrame s) (fun _ page h => h.trans (markPageFree_frame _ page))
    s base length (SameFrame.refl s)

def FreesOnly (s t : Pmm) (P : ℕ → Prop) : Prop :=
  t.total = s.total ∧ ∀ q, t.used q = false ↔ s.used q = false ∨ q < s.total ∧ P q

theorem freesOnly_stats (s t : Pmm) (P : ℕ → Prop) (f : PmmStats → PmmStats) (hf : Descriptive f)
    (h : FreesOnly s t P) : FreesOnly s (t.mapStats f) P :=
  ⟨(mapStats_total t f hf).trans h.1, h.2⟩

theorem freesOnly_before (s t : Pmm) (P : ℕ → Prop) (f : PmmStats → PmmStats) (hf : Descriptive f)
    (h : FreesOnly (s.mapStats f) t P) : FreesOnly s t P := by
  have htotal := mapStats_total s f hf
  rw [FreesOnly, htotal] at h
  exact h

theorem freesOnly_none (s : Pmm) (P : ℕ → Prop) (h : ∀ q, ¬ P q) : FreesOnly s s P := by
  refine ⟨rfl, fun q => ?_⟩
  simp [h q]

theorem addRegion_frees (s : Pmm) (e : MmapEntry) (kib : UInt32) (htotal : s.total ≤ 2 ^ 18) :
    FreesOnly s (s.addRegion e kib) e.Frees := by
  by_cases htype : e.type = 1
  · have husable := addUsable_descriptive kib
    have htotal' := mapStats_total s _ husable
    by_cases hhigh : e.baseAddrHigh = 0
    · have hregion : s.addRegion e kib =
          (s.mapStats fun st => st.addUsable kib).markRangeFree e.baseAddrLow e.lengthLow := by
        simp only [Pmm.addRegion, if_pos htype, if_pos hhigh]
      rw [hregion]
      apply freesOnly_before s _ _ _ husable
      generalize (s.mapStats fun st => st.addUsable kib) = t at htotal'
      refine ⟨(markRangeFree_frame t _ _).total, fun q => ?_⟩
      rw [markRangeFree_used t _ _ (by rw [htotal']; exact htotal)]
      simp only [MmapEntry.Frees, htype, hhigh, true_and]
    · have hregion : s.addRegion e kib = s.mapStats fun st => st.addUsable kib := by
        simp only [Pmm.addRegion, if_pos htype, if_neg hhigh]
      rw [hregion]
      exact freesOnly_stats s s _ _ husable (freesOnly_none s _ fun q h => hhigh h.2.1)
  · have hregion : s.addRegion e kib = s.mapStats fun st => st.addReserved kib := by
      simp only [Pmm.addRegion, if_neg htype]
    rw [hregion]
    exact freesOnly_stats s s _ _ (addReserved_descriptive kib)
      (freesOnly_none s _ fun q h => htype h.1)

theorem addEntry_frees (s : Pmm) (e : MmapEntry) (htotal : s.total ≤ 2 ^ 18) :
    FreesOnly s (s.addEntry e) e.Frees := by
  have hcount := mapStats_total s _ addCount_descriptive
  have hregion := addRegion_frees (s.mapStats PmmStats.addRegion) e
    (clipLengthToKib e.lengthLow e.lengthHigh) (by rw [hcount]; exact htotal)
  have hentry := freesOnly_before s _ _ _ addCount_descriptive hregion
  exact freesOnly_stats s _ _ _ (addTotal_descriptive _) hentry

theorem foldl_addEntry_frees (entries : List MmapEntry) (s : Pmm) (htotal : s.total ≤ 2 ^ 18) :
    FreesOnly s (entries.foldl Pmm.addEntry s) fun q => ∃ e ∈ entries, e.Frees q := by
  induction entries generalizing s with
  | nil => exact freesOnly_none s _ fun q h => by simp at h
  | cons e entries ih =>
    obtain ⟨htotal', hused⟩ := addEntry_frees s e htotal
    obtain ⟨hfold, hall⟩ := ih (s.addEntry e) (by rw [htotal']; exact htotal)
    rw [List.foldl_cons]
    refine ⟨hfold.trans htotal', ?_⟩
    intro q
    rw [hall q, hused q, htotal']
    simp only [List.mem_cons, exists_eq_or_imp, and_or_left, or_assoc]

theorem markRangeUsed_outside (s : Pmm) (base length : UInt32) (q : ℕ)
    (h : 4096 * q < (alignDown base).toNat ∨
      ¬ base + length < base ∧ (alignUp (base + length)).toNat ≤ 4096 * q) :
    (s.markRangeUsed base length).used q = s.used q := by
  by_cases hlength : length = 0
  · simp only [Pmm.markRangeUsed, if_pos hlength]
  · have hrange : s.markRangeUsed base length = markPages Pmm.markPageUsed
        (clip (if base + length < base then maxTrackedMemory else alignUp (base + length)))
        (2 ^ 18) (alignDown base) s := by
      simp only [Pmm.markRangeUsed, if_neg hlength, clip]
    have hclip := clip_toNat
      (if base + length < base then maxTrackedMemory else alignUp (base + length))
    have haligned : (alignDown base).toNat % 4096 = 0 := by
      rw [alignDown_toNat]
      omega
    rw [hrange]
    apply markPages_misses _ _ markPageUsed_other _ _ _ s haligned
    · rcases h with hlow | ⟨hplain, hend⟩
      · exact Or.inl hlow
      · rw [if_neg hplain] at hclip ⊢
        rw [hclip]
        omega
    · rw [hclip]
      exact Nat.min_le_right _ _

theorem low_outside (s : Pmm) (q : ℕ) (hq : 256 ≤ q) :
    (s.markRangeUsed 0 lowMemoryLimit).used q = s.used q := by
  apply markRangeUsed_outside
  refine Or.inr ⟨by decide, ?_⟩
  have hup : (alignUp (0 + lowMemoryLimit)).toNat = 0x100000 := by decide
  rw [hup]
  omega

theorem kernel_outside (s : Pmm) (kernelEnd : UInt32) (q : ℕ) (hlow : 0x100000 < kernelEnd.toNat)
    (hhigh : kernelEnd.toNat < 0x40000000)
    (hq : q < 256 ∨ (alignUp kernelEnd).toNat ≤ 4096 * q) :
    (s.markRangeUsed lowMemoryLimit (alignUp kernelEnd - lowMemoryLimit)).used q = s.used q := by
  have hbase : lowMemoryLimit.toNat = 0x100000 := rfl
  have hup := alignUp_toNat kernelEnd (by omega)
  have hsum : lowMemoryLimit + (alignUp kernelEnd - lowMemoryLimit) = alignUp kernelEnd := by grind
  have hagain := alignUp_toNat (alignUp kernelEnd) (by omega)
  apply markRangeUsed_outside
  rw [hsum, alignDown_toNat, hbase, hagain, UInt32.lt_iff_toNat_lt, hbase]
  omega

theorem info_outside (s : Pmm) (infoAddr : UInt32) (q : ℕ) (hq : q < 2 ^ 18)
    (h : ∀ k < 4096, q ≠ (infoAddr + UInt32.ofNat k).toNat / 4096) :
    (s.markRangeUsed infoAddr 4096).used q = s.used q := by
  have hi := infoAddr.toNat_lt
  have hfour : (4096 : UInt32).toNat = 4096 := rfl
  apply markRangeUsed_outside
  by_cases hlate : infoAddr.toNat + 4096 + 4095 < 2 ^ 32
  · have hplain : ¬ infoAddr + 4096 < infoAddr := by
      rw [add_wraps_iff, hfour]
      omega
    have hsum := add_plain infoAddr 4096 hplain
    rw [hfour] at hsum
    have hup := alignUp_toNat (infoAddr + 4096) (by omega)
    have hfirst := h 0 (by decide)
    rw [add_offset_toNat infoAddr 0 (by decide)] at hfirst
    have hrange : 4096 * q < infoAddr.toNat / 4096 * 4096 ∨
        (infoAddr.toNat + 4096 + 4095) / 4096 * 4096 ≤ 4096 * q := by
      by_cases haligned : infoAddr.toNat % 4096 = 0
      · omega
      · have hsecond := h (4096 - infoAddr.toNat % 4096) (by omega)
        rw [add_offset_toNat infoAddr _ (by omega)] at hsecond
        omega
    rw [alignDown_toNat, hup, hsum]
    exact hrange.imp_right fun hend => ⟨hplain, hend⟩
  · rw [alignDown_toNat]
    omega

theorem reserve_unprotected (s : Pmm) (kernelEnd infoAddr : UInt32)
    (hlow : 0x100000 < kernelEnd.toNat) (hhigh : kernelEnd.toNat < 0x40000000) (q : ℕ)
    (hq : q < 2 ^ 18) (h : ¬ Protected kernelEnd infoAddr q) :
    (s.reserveKernelRanges kernelEnd infoAddr).used q = s.used q := by
  have hlarge : 256 ≤ q := by
    by_contra hsmall
    exact h (.low (by omega))
  have hkernel : (alignUp kernelEnd).toNat ≤ 4096 * q := by
    by_contra hinside
    exact h (.kernel hlarge (by omega))
  have hinfo := info_outside ((s.markRangeUsed 0 lowMemoryLimit).markRangeUsed lowMemoryLimit
    (alignUp kernelEnd - lowMemoryLimit)) infoAddr q hq fun k hk hpage => h (.info k hk hpage)
  rw [Pmm.reserveKernelRanges]
  split_ifs
  · rw [hinfo, kernel_outside _ kernelEnd q hlow hhigh (Or.inr hkernel), low_outside s q hlarge]
  · rw [kernel_outside _ kernelEnd q hlow hhigh (Or.inr hkernel), low_outside s q hlarge]

theorem available_total (s : Pmm) :
    (s.mapStats fun st => { st with mmapAvailable := true }).total = s.total := rfl

theorem detect_mapped (s d : Pmm) (m : Memory) (infoAddr : UInt32) (fuel : ℕ)
    (entries : List MmapEntry) (hmap : Mapped m infoAddr)
    (hentries : mapEntries m (multibootInfo m infoAddr) fuel 0 = some entries)
    (h : s.detect m infoAddr fuel = some d) :
    ∃ highest : UInt32, (∀ e ∈ entries, (entryEnd e).toNat ≤ highest.toNat) ∧
      d = entries.foldl Pmm.addEntry
        ((s.prepareBitmap highest).mapStats fun st => { st with mmapAvailable := true }) := by
  have hhigh := mmapHighestAddress_entries m (multibootInfo m infoAddr) fuel 0 lowMemoryLimit
  have hcond : infoAddr ≠ 0 ∧ (multibootInfo m infoAddr).flags &&& 64 ≠ 0 ∧
    (multibootInfo m infoAddr).mmapAddr ≠ 0 ∧ (multibootInfo m infoAddr).mmapLength ≠ 0 := hmap
  rw [hentries, Option.map_some] at hhigh
  simp only [Pmm.detect, if_pos hcond, hhigh, Pmm.parseMmap, parseMmapLoop_entries, hentries,
    Option.map_some, Option.some.injEq] at h
  exact ⟨_, (foldl_raise_le entries lowMemoryLimit).2, h.symm⟩

/-- The free pages after an initialisation from a memory map: those an
available entry frees, less the protected ones. -/
theorem init_free_iff (s₀ t : Pmm) (m : Memory) (kernelEnd infoAddr : UInt32) (fuel : ℕ)
    (entries : List MmapEntry) (hlow : 0x100000 < kernelEnd.toNat)
    (hhigh : kernelEnd.toNat < 0x40000000) (hmap : Mapped m infoAddr)
    (hentries : mapEntries m (multibootInfo m infoAddr) fuel 0 = some entries)
    (hinit : s₀.init m kernelEnd infoAddr fuel = some t) (p : ℕ) :
    (p < t.total ∧ t.used p = false) ↔
      p < 2 ^ 18 ∧ (∃ e ∈ entries, e.Frees p) ∧ ¬ Protected kernelEnd infoAddr p := by
  have hvalid := init_valid s₀ t m kernelEnd infoAddr fuel hinit
  have hreserved := init_reserved s₀ t m kernelEnd infoAddr fuel hlow hhigh hinit
  have htotal := hvalid.total_le
  rw [Pmm.init] at hinit
  cases hdetect : s₀.cleared.detect m infoAddr fuel with
  | none => simp [hdetect] at hinit
  | some d =>
    simp only [hdetect, Option.some.injEq] at hinit
    obtain ⟨highest, hends, hd⟩ :=
      detect_mapped s₀.cleared d m infoAddr fuel entries hmap hentries hdetect
    have hprepared := prepareBitmap_prepared s₀.cleared highest rfl
    obtain ⟨hframe, hfree⟩ := foldl_addEntry_frees entries
      ((s₀.cleared.prepareBitmap highest).mapStats fun st => { st with mmapAvailable := true })
      hprepared.1.total_le
    rw [← hd] at hframe hfree
    have hsame : t.total = (s₀.cleared.prepareBitmap highest).total := by
      rw [← hinit]
      exact (reserveKernelRanges_frame d kernelEnd infoAddr).total.trans hframe
    have hused : t.used p = (d.reserveKernelRanges kernelEnd infoAddr).used p := by
      rw [← hinit]
      rfl
    have hbefore : ∀ q < 2 ^ 18, (s₀.cleared.prepareBitmap highest).used q = true :=
      fun q hq => prepareBitmap_used _ highest q hq
    constructor
    · rintro ⟨hp, hclear⟩
      have hopen : ¬ Protected kernelEnd infoAddr p := by
        intro hprotected
        rw [hreserved p hp hprotected] at hclear
        exact absurd hclear (by decide)
      rw [hused, reserve_unprotected d kernelEnd infoAddr hlow hhigh p (by omega) hopen,
        hfree p] at hclear
      rcases hclear with hold | ⟨_, hentry⟩
      · rw [mapStats_used, hbefore p (by omega)] at hold
        exact absurd hold (by decide)
      · exact ⟨by omega, hentry, hopen⟩
    · rintro ⟨hp, ⟨e, he, hfrees⟩, hopen⟩
      have hbelow : p < t.total := by
        have hend := le_trans (frees_below e p hp hfrees) (hends e he)
        rw [hsame]
        exact (prepareBitmap_total_iff _ highest p).mpr (by omega)
      refine ⟨hbelow, ?_⟩
      rw [hused, reserve_unprotected d kernelEnd infoAddr hlow hhigh p hp hopen, hfree p]
      refine Or.inr ⟨?_, e, he, hfrees⟩
      rw [available_total, ← hsame]
      exact hbelow

theorem init_mapped (s₀ : Pmm) (m : Memory) (kernelEnd infoAddr : UInt32) (fuel : ℕ)
    (entries : List MmapEntry) (hmap : Mapped m infoAddr)
    (hentries : mapEntries m (multibootInfo m infoAddr) fuel 0 = some entries) :
    ∃ t, s₀.init m kernelEnd infoAddr fuel = some t := by
  have hhigh := mmapHighestAddress_entries m (multibootInfo m infoAddr) fuel 0 lowMemoryLimit
  have hcond : infoAddr ≠ 0 ∧ (multibootInfo m infoAddr).flags &&& 64 ≠ 0 ∧
    (multibootInfo m infoAddr).mmapAddr ≠ 0 ∧ (multibootInfo m infoAddr).mmapLength ≠ 0 := hmap
  rw [hentries, Option.map_some] at hhigh
  simp only [Pmm.init, Pmm.detect, if_pos hcond, hhigh, Pmm.parseMmap, parseMmapLoop_entries,
    hentries, Option.map_some, Option.some.injEq, exists_eq']

theorem unprotected (kernelEnd infoAddr : UInt32) (page : ℕ) (hpage : 256 ≤ page)
    (hkernel : (alignUp kernelEnd).toNat ≤ 4096 * page)
    (hinfo : infoAddr.toNat + 4096 ≤ 4096 * page) : ¬ Protected kernelEnd infoAddr page := by
  intro h
  cases h with
  | low h => omega
  | kernel _ h => omega
  | info k hk h =>
    have hi := infoAddr.toNat_lt
    rw [add_offset_toNat infoAddr k hk] at h
    omega

/-- After every initialisation from a memory map, every free page lies inside
the available regions exactly when no available entry wraps, or when one does
and the available regions hold every page that is not protected anyway. -/
theorem free_inside_iff (s₀ t : Pmm) (m : Memory) (kernelEnd infoAddr : UInt32) (fuel : ℕ)
    (entries : List MmapEntry) (hlow : 0x100000 < kernelEnd.toNat)
    (hhigh : kernelEnd.toNat < 0x40000000) (hmap : Mapped m infoAddr)
    (hentries : mapEntries m (multibootInfo m infoAddr) fuel 0 = some entries)
    (hinit : s₀.init m kernelEnd infoAddr fuel = some t) :
    (∀ p < t.total, t.used p = false → Inside entries p) ↔
      (∀ e ∈ entries, ¬ e.Wraps) ∨
        ∀ p < 2 ^ 18, ¬ Protected kernelEnd infoAddr p → Inside entries p := by
  have hfree := init_free_iff s₀ t m kernelEnd infoAddr fuel entries hlow hhigh hmap hentries hinit
  constructor
  · intro hinside
    by_cases hwraps : ∀ e ∈ entries, ¬ e.Wraps
    · exact Or.inl hwraps
    · push Not at hwraps
      obtain ⟨e, he, htype, hbase, hlength, hwrap⟩ := hwraps
      right
      intro p hp hopen
      obtain ⟨hbelow, hclear⟩ :=
        (hfree p).mpr ⟨hp, ⟨e, he, htype, hbase, hlength, Or.inl hwrap⟩, hopen⟩
      exact hinside p hbelow hclear
  · intro hcondition p hp hclear
    obtain ⟨hlt, ⟨e, he, hfrees⟩, hopen⟩ := (hfree p).mp ⟨hp, hclear⟩
    rcases hcondition with hplain | hall
    · exact frees_inside entries e p he (hplain e he) hfrees
    · exact hall p hlt hopen

def wordBytes (v : UInt32) : List UInt8 :=
  [v.toUInt8, (v >>> 8).toUInt8, (v >>> 16).toUInt8, (v >>> 24).toUInt8]

def MmapEntry.bytes (e : MmapEntry) : List UInt8 :=
  wordBytes e.size ++ wordBytes e.baseAddrLow ++ wordBytes e.baseAddrHigh ++
    wordBytes e.lengthLow ++ wordBytes e.lengthHigh ++ wordBytes e.type

/-- Boot information at `0x9000` that announces a memory map of the given
entries at the given address above one megabyte. -/
def mapMemory (mmapAddr : UInt32) (entries : List MmapEntry) : Memory := fun address =>
  if address < 0x100000 then
    ([64, 0, 0, 0] ++ List.replicate 40 0 ++ wordBytes (24 * UInt32.ofNat entries.length) ++
      wordBytes mmapAddr).getD (address - 0x9000).toNat 0
  else (entries.flatMap MmapEntry.bytes).getD (address - mmapAddr).toNat 0

def plainEntry : MmapEntry := ⟨20, 0x100000, 0, 0x10000, 0, 1⟩

theorem plain_mapped : Mapped (mapMemory 0x105000 [plainEntry]) 0x9000 := by
  refine ⟨?_, ?_, ?_, ?_⟩ <;> decide

theorem plain_entries : mapEntries (mapMemory 0x105000 [plainEntry])
    (multibootInfo (mapMemory 0x105000 [plainEntry]) 0x9000) 2 0 = some [plainEntry] := by
  decide

theorem free_inside_iff_plain :
    ∃ t, emptyPmm.init (mapMemory 0x105000 [plainEntry]) 0x101000 0x9000 2 = some t ∧
      ((∀ p < t.total, t.used p = false → Inside [plainEntry] p) ↔
        (∀ e ∈ [plainEntry], ¬ e.Wraps) ∨
          ∀ p < 2 ^ 18, ¬ Protected 0x101000 0x9000 p → Inside [plainEntry] p) := by
  obtain ⟨t, ht⟩ := init_mapped emptyPmm _ 0x101000 0x9000 2 _ plain_mapped plain_entries
  exact ⟨t, ht, free_inside_iff emptyPmm t _ 0x101000 0x9000 2 _ (by decide) (by decide)
    plain_mapped plain_entries ht⟩

def lateEntry : MmapEntry := ⟨20, 0xFFFFF800, 0, 0x1000, 0, 1⟩

theorem late_frees_all :
    ∃ t, emptyPmm.init (mapMemory 0x105000 [lateEntry]) 0x101000 0x9000 2 = some t ∧
      mapEntries (mapMemory 0x105000 [lateEntry])
        (multibootInfo (mapMemory 0x105000 [lateEntry]) 0x9000) 2 0 = some [lateEntry] ∧
      (∀ p, 257 ≤ p → p < 2 ^ 18 → p < t.total ∧ t.used p = false) ∧
      ¬ ∀ p < t.total, t.used p = false → Inside [lateEntry] p := by
  have hmap : Mapped (mapMemory 0x105000 [lateEntry]) 0x9000 := by
    refine ⟨?_, ?_, ?_, ?_⟩ <;> decide
  have hentries : mapEntries (mapMemory 0x105000 [lateEntry])
      (multibootInfo (mapMemory 0x105000 [lateEntry]) 0x9000) 2 0 = some [lateEntry] := by
    decide
  obtain ⟨t, ht⟩ := init_mapped emptyPmm _ 0x101000 0x9000 2 _ hmap hentries
  have hup : (alignUp 0x101000).toNat = 0x101000 := by decide
  have hinfo : (0x9000 : UInt32).toNat = 0x9000 := rfl
  have hall : ∀ p, 257 ≤ p → p < 2 ^ 18 → p < t.total ∧ t.used p = false := by
    intro p hlow hp
    apply (init_free_iff emptyPmm t _ 0x101000 0x9000 2 _ (by decide) (by decide) hmap hentries ht
      p).mpr
    refine ⟨hp, ⟨lateEntry, List.mem_singleton_self _, rfl, rfl, by decide, Or.inl (by decide)⟩, ?_⟩
    exact unprotected _ _ p (by omega) (by omega) (by omega)
  refine ⟨t, ht, hentries, hall, ?_⟩
  intro hinside
  obtain ⟨hbelow, hclear⟩ := hall 257 (by decide) (by decide)
  obtain ⟨e, he, _, hcontains⟩ := hinside 257 hbelow hclear (4096 * 257) ⟨by decide, by decide⟩
  rw [List.mem_singleton.mp he] at hcontains
  have hbase : lateEntry.base = 0xFFFFF800 := by decide
  have hle := hcontains.1
  omega

/-- After every initialisation from a memory map, no free page touches a
region that is not available or the memory map itself exactly when no page
that an available entry frees, less the protected ones, does. -/
theorem reserved_wins_iff (s₀ t : Pmm) (m : Memory) (kernelEnd infoAddr : UInt32) (fuel : ℕ)
    (entries : List MmapEntry) (hlow : 0x100000 < kernelEnd.toNat)
    (hhigh : kernelEnd.toNat < 0x40000000) (hmap : Mapped m infoAddr)
    (hentries : mapEntries m (multibootInfo m infoAddr) fuel 0 = some entries)
    (hinit : s₀.init m kernelEnd infoAddr fuel = some t) :
    (∀ p < t.total, t.used p = false → ¬ Touches entries (multibootInfo m infoAddr) p) ↔
      ∀ e ∈ entries, ∀ p < 2 ^ 18, e.Frees p → ¬ Protected kernelEnd infoAddr p →
        ¬ Touches entries (multibootInfo m infoAddr) p := by
  have hfree := init_free_iff s₀ t m kernelEnd infoAddr fuel entries hlow hhigh hmap hentries hinit
  constructor
  · intro hwins e he p hp hfrees hopen
    obtain ⟨hbelow, hclear⟩ := (hfree p).mpr ⟨hp, ⟨e, he, hfrees⟩, hopen⟩
    exact hwins p hbelow hclear
  · intro hcondition p hp hclear
    obtain ⟨hlt, ⟨e, he, hfrees⟩, hopen⟩ := (hfree p).mp ⟨hp, hclear⟩
    exact hcondition e he p hlt hfrees hopen

def holedMap : List MmapEntry := [plainEntry, ⟨20, 0x102000, 0, 0x1000, 0, 2⟩]

theorem holedMap_mapped : Mapped (mapMemory 0x105000 holedMap) 0x9000 := by
  refine ⟨?_, ?_, ?_, ?_⟩ <;> decide

theorem holedMap_entries : mapEntries (mapMemory 0x105000 holedMap)
    (multibootInfo (mapMemory 0x105000 holedMap) 0x9000) 3 0 = some holedMap := by
  decide

theorem reserved_wins_iff_holed :
    ∃ t, emptyPmm.init (mapMemory 0x105000 holedMap) 0x101000 0x9000 3 = some t ∧
      ((∀ p < t.total, t.used p = false →
          ¬ Touches holedMap (multibootInfo (mapMemory 0x105000 holedMap) 0x9000) p) ↔
        ∀ e ∈ holedMap, ∀ p < 2 ^ 18, e.Frees p → ¬ Protected 0x101000 0x9000 p →
          ¬ Touches holedMap (multibootInfo (mapMemory 0x105000 holedMap) 0x9000) p) := by
  obtain ⟨t, ht⟩ := init_mapped emptyPmm _ 0x101000 0x9000 3 _ holedMap_mapped holedMap_entries
  exact ⟨t, ht, reserved_wins_iff emptyPmm t _ 0x101000 0x9000 3 _ (by decide) (by decide)
    holedMap_mapped holedMap_entries ht⟩

/-- The reserved page and the page of the memory map itself are both free. -/
theorem reserved_freed :
    ∃ t, emptyPmm.init (mapMemory 0x105000 holedMap) 0x101000 0x9000 3 = some t ∧
      (258 < t.total ∧ t.used 258 = false) ∧ (261 < t.total ∧ t.used 261 = false) ∧
      ¬ ∀ p < t.total, t.used p = false →
        ¬ Touches holedMap (multibootInfo (mapMemory 0x105000 holedMap) 0x9000) p := by
  obtain ⟨t, ht⟩ := init_mapped emptyPmm _ 0x101000 0x9000 3 _ holedMap_mapped holedMap_entries
  have hup : (alignUp 0x101000).toNat = 0x101000 := by decide
  have hinfo : (0x9000 : UInt32).toNat = 0x9000 := rfl
  have hbase : plainEntry.baseAddrLow.toNat = 0x100000 := rfl
  have hlength : plainEntry.lengthLow.toNat = 0x10000 := rfl
  have hfree : ∀ p, 257 ≤ p → p < 272 → p < t.total ∧ t.used p = false := by
    intro p hlow hp
    apply (init_free_iff emptyPmm t _ 0x101000 0x9000 3 _ (by decide) (by decide) holedMap_mapped
      holedMap_entries ht p).mpr
    refine ⟨by omega, ⟨plainEntry, List.mem_cons_self, rfl, rfl, by decide,
      Or.inr ⟨by omega, by omega⟩⟩, ?_⟩
    exact unprotected _ _ p (by omega) (by omega) (by omega)
  obtain ⟨hbelow, hclear⟩ := hfree 258 (by decide) (by decide)
  refine ⟨t, ht, ⟨hbelow, hclear⟩, hfree 261 (by decide) (by decide), ?_⟩
  intro hwins
  apply hwins 258 hbelow hclear
  left
  refine ⟨⟨20, 0x102000, 0, 0x1000, 0, 2⟩, by simp [holedMap], by decide, 4096 * 258,
    ⟨by decide, by decide⟩, ?_, ?_⟩ <;> decide

end Hnmos.PageAllocator
