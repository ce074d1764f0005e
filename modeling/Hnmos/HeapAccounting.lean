import Mathlib
import Hnmos.KernelHeap
import Hnmos.PageAccounting

/-!
# The accounts of the kernel heap

After the initialisation of the heap and any requests, the counters of the heap
agree with the pages it has taken and the blocks it has returned. The invariant
keeps the room left in the current page inside the unused part of the total:
the tails of earlier pages only widen that part. A page the heap takes is one
page less in the allocator, which bounds the page counter.
-/

set_option autoImplicit false

namespace Hnmos.KernelHeap
open Hnmos.NextFit Hnmos.PageAllocator Hnmos.Transition

/-- A state the allocator can be in: not initialised, or initialised from any
contents and used by any calls since. -/
inductive Reachable : Pmm → Prop
  | fresh (s : Pmm) (h : s.stats.initialized = false) : Reachable s
  | booted (s₀ s : Pmm) (m : Memory) (kernelEnd infoAddr : UInt32) (fuel : ℕ)
      (h : s₀.init m kernelEnd infoAddr fuel = some s) (ops : List PmmOp) :
      Reachable (run PageAllocator.step s ops)

def Clients.heapInit (s : Pmm) : Clients := step (Clients.start s) .heapInit

def rounded (blocks : List Block) : ℕ := (blocks.map fun b => (heapAlign b.size).toNat).sum

/-- The counters of the heap against the blocks it has returned. -/
structure Ledger (c : Clients) : Prop where
  total : c.heap.stats.totalBytes.toNat = 4096 * c.heap.stats.pageCount.toNat
  offset : c.heap.currentOffset.toNat ≤ 4096 ∧ c.heap.currentOffset.toNat % 8 = 0
  used : c.heap.stats.usedBytes.toNat = rounded c.blocks
  used_le : c.heap.stats.usedBytes.toNat ≤ c.heap.stats.totalBytes.toNat

structure Refused (h h' : Heap) (size : UInt32) : Prop where
  page : h'.currentPage = h.currentPage
  offset : h'.currentOffset = h.currentOffset
  used : h'.stats.usedBytes = h.stats.usedBytes
  total : h'.stats.totalBytes = h.stats.totalBytes
  pages : h'.stats.pageCount = h.stats.pageCount
  allocations : h'.stats.allocationCount = h.stats.allocationCount
  failed : h'.stats.failedAllocations =
    h.stats.failedAllocations + if h.stats.initialized = true ∧ size ≠ 0 then 1 else 0

/-- What the ledger needs to be kept: the pages still to be taken, and the room
in the current page. -/
structure Solvent (c : Clients) : Prop extends Ledger c where
  valid : c.heap.stats.initialized = true → Valid c.pmm
  pages : c.heap.stats.initialized = true →
    c.heap.stats.pageCount.toNat + c.pmm.stats.freePages.toNat ≤ 2 ^ 18
  page_le : c.heap.currentPage.toNat + 4096 ≤ 2 ^ 30
  room : c.heap.currentPage ≠ 0 →
    c.heap.stats.usedBytes.toNat + (4096 - c.heap.currentOffset.toNat) ≤
      c.heap.stats.totalBytes.toNat

theorem heapAlign_multiple (size : UInt32) : (heapAlign size).toNat % 8 = 0 := by
  by_cases h : size.toNat ≤ 2 ^ 32 - 8
  · rw [heapAlign_toNat size h]
    omega
  · rw [heapAlign_wraps size (Nat.lt_of_not_le h)]
    rfl

theorem allocPage_freePages (s : Pmm) (h : Valid s) (hgot : s.allocPage.1 ≠ 0) :
    s.allocPage.1.toNat + 4096 ≤ 2 ^ 30 ∧
      s.allocPage.2.stats.freePages.toNat + 1 = s.stats.freePages.toNat := by
  obtain ⟨p, hs⟩ := Option.ne_none_iff_exists'.mp (fun e => hgot ((allocPage_zero_iff s h).mpr e))
  obtain ⟨hp, hfree⟩ := search_sound s p hs
  obtain ⟨halloc, haddress, _⟩ := granted_address s p h hs
  have hbound := h.total_le
  have hpage : (UInt32.ofNat p).toNat = p :=
    UInt32.toNat_ofNat_of_lt' (by change p < 2 ^ 32; omega)
  have hpos : 0 < s.stats.freePages.toNat := by
    rw [h.freePages]
    exact size_pos_of_free s p hp hfree
  have hcount : (s.grant (UInt32.ofNat p)).stats.freePages = s.stats.freePages - 1 :=
    (markPageUsed_counters s (UInt32.ofNat p) (hpage.symm ▸ hp) (hpage.symm ▸ hfree)).1
  have hle : (1 : UInt32) ≤ s.stats.freePages := UInt32.le_iff_toNat_le.mpr hpos
  have hone : (1 : UInt32).toNat = 1 := rfl
  rw [halloc, haddress, hcount, UInt32.toNat_sub_of_le _ _ hle, hone]
  omega

theorem freePages_le (s : Pmm) (h : Valid s) : s.stats.freePages.toNat ≤ 2 ^ 18 := by
  rw [h.freePages]
  exact (size_le s.free s.total).trans h.total_le

/-- How a request is answered, with everything it reads and leaves. -/
inductive Answer (h : Heap) (s : Pmm) (size : UInt32) : UInt32 × Heap × Pmm → Prop where
  | ignored (hskip : h.stats.initialized = false ∨ size = 0) : Answer h s size (0, h, s)
  | failed (hready : h.stats.initialized = true) (hsize : size ≠ 0) :
      Answer h s size (0, h.fail, s)
  | current (hne : h.currentPage ≠ 0)
      (hroom : h.currentOffset.toNat + (heapAlign size).toNat ≤ 4096) :
      Answer h s size ((h.cut (heapAlign size)).1, (h.cut (heapAlign size)).2, s)
  | fresh (hready : h.stats.initialized = true) (hroom : (heapAlign size).toNat ≤ 4096)
      (hne : s.allocPage.1 ≠ 0) :
      Answer h s size (((h.addPage s.allocPage.1).cut (heapAlign size)).1,
        ((h.addPage s.allocPage.1).cut (heapAlign size)).2, s.allocPage.2)

theorem kmalloc_answer (h : Heap) (s : Pmm) (size : UInt32)
    (hs : h.stats.initialized = true → Valid s) (hoffset : h.currentOffset.toNat ≤ 4096) :
    Answer h s size (h.kmalloc s size) := by
  by_cases hskip : h.stats.initialized = false ∨ size = 0
  · rw [Heap.kmalloc, if_pos hskip]
    exact .ignored hskip
  rw [Heap.kmalloc, if_neg hskip]
  obtain ⟨hinit, hne⟩ := not_or.mp hskip
  have hready : h.stats.initialized = true := by simpa using hinit
  by_cases hlarge : 4096 < heapAlign size
  · simp only [if_pos hlarge]
    exact .failed hready hne
  simp only [if_neg hlarge]
  have hfits : (heapAlign size).toNat ≤ 4096 := Nat.le_of_not_lt hlarge
  by_cases hnew : h.currentPage = 0 ∨ 4096 < h.currentOffset + heapAlign size
  · rw [if_pos hnew, Heap.newPage]
    rcases allocPage_cases s (hs hready) with ⟨hzero, hsame⟩ | ⟨hgot, _⟩
    · simp only [hzero, hsame, if_true]
      exact .failed hready hne
    · simp only [if_neg hgot]
      exact .fresh hready hfits hgot
  · rw [if_neg hnew]
    obtain ⟨hpage, hroom⟩ := not_or.mp hnew
    exact .current hpage (rest_of_page _ _ hoffset hfits hroom)

theorem fail_solvent (c : Clients) (h : Solvent c) : Solvent { c with heap := c.heap.fail } :=
  ⟨⟨h.total, h.offset, h.used, h.used_le⟩, h.valid, h.pages, h.page_le, h.room⟩

theorem addPage_solvent (c : Clients) (h : Solvent c) (hready : c.heap.stats.initialized = true)
    (hgot : c.pmm.allocPage.1 ≠ 0) :
    Solvent { c with heap := c.heap.addPage c.pmm.allocPage.1, pmm := c.pmm.allocPage.2 } := by
  obtain ⟨hend, hfree⟩ := allocPage_freePages c.pmm (h.valid hready) hgot
  have hpages := h.pages hready
  have htotal := h.total
  have hused := h.used_le
  have hcount : (c.heap.stats.pageCount + 1).toNat = c.heap.stats.pageCount.toNat + 1 := by
    rw [UInt32.toNat_add]
    exact Nat.mod_eq_of_lt (by change c.heap.stats.pageCount.toNat + 1 < 2 ^ 32; omega)
  have hsum : (c.heap.stats.totalBytes + 4096).toNat =
      c.heap.stats.totalBytes.toNat + 4096 := by
    rw [UInt32.toNat_add]
    exact Nat.mod_eq_of_lt (by change c.heap.stats.totalBytes.toNat + 4096 < 2 ^ 32; omega)
  constructor
  · constructor
    · show (c.heap.stats.totalBytes + 4096).toNat = 4096 * (c.heap.stats.pageCount + 1).toNat
      omega
    · exact ⟨Nat.zero_le _, rfl⟩
    · simp only [Heap.addPage]
      exact h.used
    · simp only [Heap.addPage]
      omega
  · intro _
    rcases allocPage_cases c.pmm (h.valid hready) with ⟨hzero, _⟩ | ⟨_, hvalid, _⟩
    · exact absurd hzero hgot
    · exact hvalid
  · intro _
    show (c.heap.stats.pageCount + 1).toNat + c.pmm.allocPage.2.stats.freePages.toNat ≤ 2 ^ 18
    omega
  · exact hend
  · intro _
    simp only [Heap.addPage, UInt32.toNat_zero]
    omega

theorem cut_solvent (c : Clients) (size : UInt32) (h : Solvent c) (hne : c.heap.currentPage ≠ 0)
    (hroom : c.heap.currentOffset.toNat + (heapAlign size).toNat ≤ 4096) :
    (c.heap.cut (heapAlign size)).1 ≠ 0 ∧
      Solvent { c with
        heap := (c.heap.cut (heapAlign size)).2
        blocks := ⟨(c.heap.cut (heapAlign size)).1, size⟩ :: c.blocks } := by
  have hfree := h.room hne
  have hbound := c.heap.stats.totalBytes.toNat_lt
  have hoffset := h.offset
  have hmultiple := heapAlign_multiple size
  have hpage := h.page_le
  have haddress : (c.heap.currentPage + c.heap.currentOffset).toNat =
      c.heap.currentPage.toNat + c.heap.currentOffset.toNat := by
    rw [UInt32.toNat_add]
    exact Nat.mod_eq_of_lt (by omega)
  have hnext : (c.heap.currentOffset + heapAlign size).toNat =
      c.heap.currentOffset.toNat + (heapAlign size).toNat := by
    rw [UInt32.toNat_add]
    exact Nat.mod_eq_of_lt (by omega)
  have hsum : (c.heap.stats.usedBytes + heapAlign size).toNat =
      c.heap.stats.usedBytes.toNat + (heapAlign size).toNat := by
    rw [UInt32.toNat_add]
    exact Nat.mod_eq_of_lt (by omega)
  constructor
  · intro hzero
    have hnull : c.heap.currentPage + c.heap.currentOffset = 0 := hzero
    rw [hnull, UInt32.toNat_zero] at haddress
    exact hne (UInt32.toNat_inj.mp (by rw [UInt32.toNat_zero]; omega))
  constructor
  · constructor
    · exact h.total
    · show (c.heap.currentOffset + heapAlign size).toNat ≤ 4096 ∧
        (c.heap.currentOffset + heapAlign size).toNat % 8 = 0
      omega
    · show (c.heap.stats.usedBytes + heapAlign size).toNat =
        (heapAlign size).toNat + rounded c.blocks
      rw [hsum, h.used, Nat.add_comm]
    · show (c.heap.stats.usedBytes + heapAlign size).toNat ≤ c.heap.stats.totalBytes.toNat
      omega
  · exact h.valid
  · exact h.pages
  · exact hpage
  · intro _
    show (c.heap.stats.usedBytes + heapAlign size).toNat +
      (4096 - (c.heap.currentOffset + heapAlign size).toNat) ≤ c.heap.stats.totalBytes.toNat
    omega

theorem pages_solvent (c : Clients) (pages : List UInt32) (h : Solvent c) :
    Solvent { c with heapPages := pages } :=
  ⟨⟨h.total, h.offset, h.used, h.used_le⟩, h.valid, h.pages, h.page_le, h.room⟩

theorem kmalloc_solvent (c : Clients) (size : UInt32) (h : Solvent c) :
    Solvent (c.kmalloc size) := by
  have hanswer := kmalloc_answer c.heap c.pmm size h.valid h.offset.1
  rw [Clients.kmalloc]
  generalize c.heap.kmalloc c.pmm size = result at hanswer ⊢
  cases hanswer with
  | ignored hskip => exact pages_solvent c _ h
  | failed hready hsize => exact pages_solvent _ _ (fail_solvent c h)
  | current hne hroom =>
    obtain ⟨haddress, hcut⟩ := cut_solvent c size h hne hroom
    simp only [if_neg haddress]
    exact pages_solvent _ _ hcut
  | fresh hready hroom hne =>
    have hopen := addPage_solvent c h hready hne
    obtain ⟨haddress, hcut⟩ := cut_solvent _ size hopen hne (by simpa [Heap.addPage] using hroom)
    simp only at haddress hcut
    simp only [if_neg haddress]
    exact pages_solvent _ _ hcut

theorem heapInit_solvent (s : Pmm) (h : Reachable s) : Solvent (Clients.heapInit s) := by
  have hvalid : s.stats.initialized = true → Valid s := by
    intro hready
    cases h with
    | fresh s hfresh => rw [hfresh] at hready; exact absurd hready Bool.false_ne_true
    | booted s₀ s m kernelEnd infoAddr fuel hinit ops =>
      exact run_valid s ops (init_valid s₀ s m kernelEnd infoAddr fuel hinit)
  constructor
  · exact ⟨rfl, ⟨Nat.zero_le _, rfl⟩, rfl, Nat.le_refl _⟩
  · exact hvalid
  · intro hready
    have hfree := freePages_le s (hvalid hready)
    show (0 : UInt32).toNat + s.stats.freePages.toNat ≤ 2 ^ 18
    rw [UInt32.toNat_zero]
    omega
  · show (0 : UInt32).toNat + 4096 ≤ 2 ^ 30
    decide
  · intro hne
    exact absurd rfl hne

theorem kmalloc_refused (c : Clients) (size : UInt32) (h : Solvent c)
    (hzero : (c.heap.kmalloc c.pmm size).1 = 0) :
    Refused c.heap (c.heap.kmalloc c.pmm size).2.1 size := by
  have hanswer := kmalloc_answer c.heap c.pmm size h.valid h.offset.1
  generalize c.heap.kmalloc c.pmm size = result at hanswer hzero ⊢
  cases hanswer with
  | ignored hskip =>
    have hno : ¬ (c.heap.stats.initialized = true ∧ size ≠ 0) := by
      rintro ⟨hready, hne⟩
      rcases hskip with hidle | hnull
      · exact absurd (hidle.symm.trans hready) Bool.false_ne_true
      · exact hne hnull
    exact ⟨rfl, rfl, rfl, rfl, rfl, rfl, by rw [if_neg hno, UInt32.add_zero]⟩
  | failed hready hsize =>
    exact ⟨rfl, rfl, rfl, rfl, rfl, rfl, by rw [if_pos ⟨hready, hsize⟩]; rfl⟩
  | current hne hroom => exact absurd hzero (cut_solvent c size h hne hroom).1
  | fresh hready hroom hne =>
    have hopen := addPage_solvent c h hready hne
    exact absurd hzero (cut_solvent _ size hopen hne (by simpa [Heap.addPage] using hroom)).1

/-- After the initialisation of the heap over any state of the allocator and
any requests, the counters agree with the returned blocks, and a request that
gets no block changes only the counter of failures. -/
theorem kmalloc_accounts (s : Pmm) (h : Reachable s) (sizes : List UInt32) :
    Ledger (run Clients.kmalloc (Clients.heapInit s) sizes) ∧
      ∀ size, ((run Clients.kmalloc (Clients.heapInit s) sizes).heap.kmalloc
          (run Clients.kmalloc (Clients.heapInit s) sizes).pmm size).1 = 0 →
        Refused (run Clients.kmalloc (Clients.heapInit s) sizes).heap
          ((run Clients.kmalloc (Clients.heapInit s) sizes).heap.kmalloc
            (run Clients.kmalloc (Clients.heapInit s) sizes).pmm size).2.1 size := by
  have hrun := run_invariant_all Clients.kmalloc Solvent kmalloc_solvent (Clients.heapInit s) sizes
    (heapInit_solvent s h)
  exact ⟨hrun.toLedger, fun size hzero => kmalloc_refused _ size hrun hzero⟩

theorem kmalloc_accounts_boot :
    ∃ s, emptyPmm.init bootMemory 0x101000 0x9000 2 = some s ∧
      Ledger (run Clients.kmalloc (Clients.heapInit s) [24, 4096, 5000]) := by
  obtain ⟨s, hs, _⟩ := Option.map_eq_some_iff.mp boot_first_page
  have hreach : Reachable s := .booted emptyPmm s bootMemory 0x101000 0x9000 2 hs []
  exact ⟨s, hs, (kmalloc_accounts s hreach [24, 4096, 5000]).1⟩

end Hnmos.KernelHeap
