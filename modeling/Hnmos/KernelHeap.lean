import Mathlib
import Hnmos.PageAllocation

/-!
# The kernel heap

A bump allocator over pages of the physical allocator: a request is rounded up
to eight bytes and cut from the current page, or from a new one when the page
has no room. The rounding is 32-bit: a request within seven bytes of 2 ^ 32 is
rounded to nothing and granted. All smaller requests get blocks that lie in a
page of the heap, apart from each other and from the pages of other clients.
-/

set_option autoImplicit false

namespace Hnmos.KernelHeap
open Hnmos.PageAllocator Hnmos.Transition

structure HeapStats where
  totalBytes : UInt32
  usedBytes : UInt32
  pageCount : UInt32
  allocationCount : UInt32
  failedAllocations : UInt32
  initialized : Bool
  supportsFree : Bool

/-- A null page is the address 0. -/
structure Heap where
  stats : HeapStats
  currentPage : UInt32
  currentOffset : UInt32

def Heap.zero : Heap := ⟨⟨0, 0, 0, 0, 0, false, false⟩, 0, 0⟩

def heapAlign (value : UInt32) : UInt32 := (value + 8 - 1) &&& 0xFFFFFFF8

def Heap.fail (h : Heap) : Heap :=
  { h with stats := { h.stats with failedAllocations := h.stats.failedAllocations + 1 } }

def Heap.addPage (h : Heap) (page : UInt32) : Heap where
  currentPage := page
  currentOffset := 0
  stats := { h.stats with
    pageCount := h.stats.pageCount + 1
    totalBytes := h.stats.totalBytes + 4096 }

def Heap.newPage (h : Heap) (s : Pmm) : Bool × Heap × Pmm :=
  match s.allocPage with
  | (page, s) => if page = 0 then (false, h.fail, s) else (true, h.addPage page, s)

def Heap.init (s : Pmm) : Heap := ⟨⟨0, 0, 0, 0, 0, s.stats.initialized, false⟩, 0, 0⟩

def Heap.cut (h : Heap) (alignedSize : UInt32) : UInt32 × Heap :=
  (h.currentPage + h.currentOffset,
    { h with
      currentOffset := h.currentOffset + alignedSize
      stats := { h.stats with
        usedBytes := h.stats.usedBytes + alignedSize
        allocationCount := h.stats.allocationCount + 1 } })

def Heap.kmalloc (h : Heap) (s : Pmm) (size : UInt32) : UInt32 × Heap × Pmm :=
  if h.stats.initialized = false ∨ size = 0 then (0, h, s)
  else
    let alignedSize := heapAlign size
    if 4096 < alignedSize then (0, h.fail, s)
    else if h.currentPage = 0 ∨ 4096 < h.currentOffset + alignedSize then
      match h.newPage s with
      | (false, h, s) => (0, h, s)
      | (true, h, s) => ((h.cut alignedSize).1, (h.cut alignedSize).2, s)
    else ((h.cut alignedSize).1, (h.cut alignedSize).2, s)

structure Block where
  address : UInt32
  size : UInt32

def Block.span (b : Block) : Set ℕ :=
  Set.Ico b.address.toNat (b.address.toNat + b.size.toNat)

def pageSpan (page : UInt32) : Set ℕ := Set.Ico page.toNat (page.toNat + 4096)

/-- The allocator with its users: the pages the heap has obtained, the pages
other clients hold and the blocks the heap has returned. -/
structure Clients where
  pmm : Pmm
  heap : Heap
  heapPages : List UInt32
  held : List UInt32
  blocks : List Block

inductive ClientOp where
  | heapInit
  | kmalloc (size : UInt32)
  | allocPage
  | freePage (address : UInt32)

def Clients.kmalloc (c : Clients) (size : UInt32) : Clients :=
  match c.heap.kmalloc c.pmm size with
  | (address, heap, pmm) =>
    { c with
      pmm := pmm
      heap := heap
      heapPages :=
        if heap.stats.pageCount = c.heap.stats.pageCount then c.heapPages
        else heap.currentPage :: c.heapPages
      blocks := if address = 0 then c.blocks else ⟨address, size⟩ :: c.blocks }

def step (c : Clients) : ClientOp → Clients
  | .heapInit => { c with heap := Heap.init c.pmm }
  | .kmalloc size => c.kmalloc size
  | .allocPage =>
    { c with
      pmm := c.pmm.allocPage.2
      held := if c.pmm.allocPage.1 = 0 then c.held else c.pmm.allocPage.1 :: c.held }
  | .freePage address =>
    { c with pmm := c.pmm.freePage address, held := c.held.erase address }

def Clients.start (s : Pmm) : Clients := ⟨s, Heap.zero, [], [], []⟩

/-- The heap can answer a request that fits: it has a page or can get one. -/
def Serves (h : Heap) (s : Pmm) : Prop :=
  h.stats.initialized = true ∧ (h.currentPage ≠ 0 ∨ ∃ p < s.total, s.used p = false)

def FreesHeld (c : Clients) : ClientOp → Prop
  | .freePage address => address ∈ c.held
  | _ => True

/-- No request that a serving heap gets is within seven bytes of 2 ^ 32. -/
def Fits (c : Clients) : ClientOp → Prop
  | .kmalloc size => Serves c.heap c.pmm → size.toNat ≤ 2 ^ 32 - 8
  | _ => True

/-- Every returned block is aligned, lies in one page of the heap and shares no
byte with another block or with a page of another client. -/
structure Sound (c : Clients) : Prop where
  aligned : ∀ b ∈ c.blocks, b.address.toNat % 8 = 0
  inside : ∀ b ∈ c.blocks, ∃ page ∈ c.heapPages, b.span ⊆ pageSpan page
  apart : c.blocks.Pairwise fun b b' => Disjoint b.span b'.span
  unheld : ∀ b ∈ c.blocks, ∀ page ∈ c.held, Disjoint b.span (pageSpan page)

def Taken (s : Pmm) (page : UInt32) : Prop :=
  ∃ p < s.total, page.toNat = p * 4096 ∧ s.used p = true

def Block.Within (b : Block) (page : UInt32) : Prop :=
  page.toNat ≤ b.address.toNat ∧ b.address.toNat + b.size.toNat ≤ page.toNat + 4096

structure Owned (c : Clients) : Prop where
  valid : Valid c.pmm
  taken : ∀ page ∈ c.heapPages ++ c.held, Taken c.pmm page
  distinct : (c.heapPages ++ c.held).Nodup
  current : c.heap.currentPage ≠ 0 → c.heap.currentPage ∈ c.heapPages ∧
    c.heap.currentOffset.toNat ≤ 4096 ∧ c.heap.currentOffset.toNat % 8 = 0 ∧
    ∀ b ∈ c.blocks, b.Within c.heap.currentPage →
      b.address.toNat + b.size.toNat ≤ c.heap.currentPage.toNat + c.heap.currentOffset.toNat
  aligned : ∀ b ∈ c.blocks, b.address.toNat % 8 = 0 ∧ 0 < b.size.toNat
  within : ∀ b ∈ c.blocks, ∃ page ∈ c.heapPages, b.Within page
  apart : c.blocks.Pairwise fun b b' => Disjoint b.span b'.span

theorem within_subset (b : Block) (page : UInt32) (h : b.Within page) :
    b.span ⊆ pageSpan page := Set.Ico_subset_Ico h.1 h.2

theorem taken_disjoint (s : Pmm) (page other : UInt32) (hp : Taken s page) (ho : Taken s other)
    (hne : page ≠ other) : Disjoint (pageSpan page) (pageSpan other) := by
  obtain ⟨p, _, hpage, _⟩ := hp
  obtain ⟨q, _, hother, _⟩ := ho
  have hpq : p ≠ q := by
    rintro rfl
    exact hne (UInt32.toNat_inj.mp (hpage.trans hother.symm))
  rw [pageSpan, pageSpan, Set.Ico_disjoint_Ico, hpage, hother]
  omega

theorem owned_sound (c : Clients) (h : Owned c) : Sound c where
  aligned := fun b hb => (h.aligned b hb).1
  inside := by
    intro b hb
    obtain ⟨page, hpage, hwithin⟩ := h.within b hb
    exact ⟨page, hpage, within_subset b page hwithin⟩
  apart := h.apart
  unheld := by
    intro b hb other hother
    obtain ⟨page, hpage, hwithin⟩ := h.within b hb
    have hne : page ≠ other := by
      rintro rfl
      exact List.disjoint_of_nodup_append h.distinct hpage hother
    exact Set.disjoint_of_subset_left (within_subset b page hwithin)
      (taken_disjoint c.pmm page other (h.taken page (List.mem_append_left _ hpage))
        (h.taken other (List.mem_append_right _ hother)) hne)

theorem heapAlign_toNat (size : UInt32) (h : size.toNat ≤ 2 ^ 32 - 8) :
    (heapAlign size).toNat = (size.toNat + 7) / 8 * 8 := by
  have hsum : (size + 8 - 1).toNat = size.toNat + 7 := by
    have hplain : size + 8 - 1 = size + 7 := by grind
    rw [hplain, UInt32.toNat_add]
    exact Nat.mod_eq_of_lt (by change size.toNat + 7 < 2 ^ 32; omega)
  have hmask : (size + 8 - 1).toNat &&& (0xFFFFFFF8 : UInt32).toNat =
      (size + 8 - 1).toNat / 8 * 8 := and_highMask 3 _ (size + 8 - 1).toNat_lt
  rw [heapAlign, UInt32.toNat_and, hmask, hsum]

theorem allocPage_cases (s : Pmm) (h : Valid s) :
    (s.allocPage.1 = 0 ∧ s.allocPage.2 = s) ∨
      s.allocPage.1 ≠ 0 ∧ Valid s.allocPage.2 ∧ ¬ Taken s s.allocPage.1 ∧
        Taken s.allocPage.2 s.allocPage.1 ∧
        ∀ page, Taken s page → Taken s.allocPage.2 page := by
  cases hs : s.search with
  | none =>
    left
    rw [allocPage_eq s h, hs]
    exact ⟨rfl, rfl⟩
  | some p =>
    right
    obtain ⟨hp, hfree⟩ := search_sound s p hs
    obtain ⟨halloc, haddress, hpos⟩ := granted_address s p h hs
    have hvalid := grant_valid s p h hp
    have htotal := grant_total s (UInt32.ofNat p)
    have hused := fun q => grant_used s p q h.total_le hp
    rw [halloc]
    refine ⟨?_, hvalid, ?_, ⟨p, by rw [htotal]; exact hp, haddress, by rw [hused]; simp⟩, ?_⟩
    · intro hzero
      have hnull : UInt32.ofNat p * 4096 = 0 := hzero
      rw [hnull, UInt32.toNat_zero] at haddress
      omega
    · rintro ⟨q, _, hq, htaken⟩
      obtain rfl : q = p := by
        rw [haddress] at hq
        omega
      rw [hfree] at htaken
      exact absurd htaken (by decide)
    · rintro page ⟨q, hq, hpage, htaken⟩
      exact ⟨q, by rw [htotal]; exact hq, hpage, by rw [hused, htaken, Bool.true_or]⟩

theorem freePage_taken (s : Pmm) (address page : UInt32) (h : Valid s) (hp : Taken s page)
    (hne : page ≠ address) : Taken (s.freePage address) page := by
  obtain ⟨p, hlt, hpage, hused⟩ := hp
  have hno : ¬ (address ≠ 0 ∧ address.toNat = 4096 * p ∧ p < s.total) := by
    rintro ⟨_, haddress, _⟩
    apply hne
    apply UInt32.toNat_inj.mp
    omega
  refine ⟨p, by rw [(freePage_frame s address).total]; exact hlt, hpage, ?_⟩
  rw [freePage_used s address p h.initialized, hused, decide_eq_false hno]
  rfl

/-- What a request comes to: a refusal, a block from the current page or a
block at the start of a new one. -/
inductive Outcome (h : Heap) (s : Pmm) (size : UInt32) : UInt32 × Heap × Pmm → Prop where
  | refused (h' : Heap) (hpage : h'.currentPage = h.currentPage)
      (hoffset : h'.currentOffset = h.currentOffset)
      (hcount : h'.stats.pageCount = h.stats.pageCount) : Outcome h s size (0, h', s)
  | current (alignedSize : UInt32) (h' : Heap) (hpos : 0 < size.toNat)
      (hsize : size.toNat ≤ alignedSize.toNat) (haligned : alignedSize.toNat % 8 = 0)
      (hroom : h.currentOffset.toNat + alignedSize.toNat ≤ 4096)
      (hne : h.currentPage ≠ 0) (hpage : h'.currentPage = h.currentPage)
      (hoffset : h'.currentOffset = h.currentOffset + alignedSize)
      (hcount : h'.stats.pageCount = h.stats.pageCount) :
      Outcome h s size (h.currentPage + h.currentOffset, h', s)
  | fresh (alignedSize : UInt32) (h' : Heap) (hpos : 0 < size.toNat)
      (hsize : size.toNat ≤ alignedSize.toNat) (haligned : alignedSize.toNat % 8 = 0)
      (hroom : alignedSize.toNat ≤ 4096) (hne : s.allocPage.1 ≠ 0)
      (hpage : h'.currentPage = s.allocPage.1) (hoffset : h'.currentOffset = alignedSize)
      (hcount : h'.stats.pageCount ≠ h.stats.pageCount) :
      Outcome h s size (s.allocPage.1, h', s.allocPage.2)

theorem free_of_granted (s : Pmm) (h : Valid s) (hne : s.allocPage.1 ≠ 0) :
    ∃ p < s.total, s.used p = false := by
  cases hs : s.search with
  | none => exact absurd ((allocPage_zero_iff s h).mpr hs) hne
  | some p => exact ⟨p, search_sound s p hs⟩

theorem rest_of_page (offset size : UInt32) (hoffset : offset.toNat ≤ 4096)
    (hsize : size.toNat ≤ 4096) (hroom : ¬ 4096 < offset + size) :
    offset.toNat + size.toNat ≤ 4096 := by
  have hsum : (offset + size).toNat = offset.toNat + size.toNat := by
    rw [UInt32.toNat_add]
    exact Nat.mod_eq_of_lt (by omega)
  rw [UInt32.lt_iff_toNat_lt, hsum] at hroom
  exact Nat.le_of_not_lt hroom

theorem kmalloc_outcome (h : Heap) (s : Pmm) (size : UInt32) (hs : Valid s)
    (hoffset : h.currentPage ≠ 0 → h.currentOffset.toNat ≤ 4096)
    (hsize : Serves h s → size.toNat ≤ 2 ^ 32 - 8) :
    Outcome h s size (h.kmalloc s size) := by
  by_cases hrefuse : h.stats.initialized = false ∨ size = 0
  · rw [Heap.kmalloc, if_pos hrefuse]
    exact .refused h rfl rfl rfl
  rw [Heap.kmalloc, if_neg hrefuse]
  obtain ⟨hinit, hne⟩ := not_or.mp hrefuse
  have hready : h.stats.initialized = true := by simpa using hinit
  have hpos : 0 < size.toNat := by
    apply Nat.pos_of_ne_zero
    intro hzero
    exact hne (UInt32.toNat_inj.mp hzero)
  by_cases hlarge : 4096 < heapAlign size
  · simp only [if_pos hlarge]
    exact .refused h.fail rfl rfl rfl
  simp only [if_neg hlarge]
  have hfits : (heapAlign size).toNat ≤ 4096 := Nat.le_of_not_lt hlarge
  by_cases hnew : h.currentPage = 0 ∨ 4096 < h.currentOffset + heapAlign size
  · rw [if_pos hnew, Heap.newPage]
    rcases allocPage_cases s hs with ⟨hzero, hsame⟩ | ⟨hgot, _⟩
    · simp only [hzero, hsame, if_true]
      exact .refused h.fail rfl rfl rfl
    · have hround := heapAlign_toNat size (hsize ⟨hready, .inr (free_of_granted s hs hgot)⟩)
      simp only [if_neg hgot]
      have hcut : Outcome h s size (s.allocPage.1,
          ((h.addPage s.allocPage.1).cut (heapAlign size)).2, s.allocPage.2) :=
        .fresh (heapAlign size) _ hpos (by omega) (by omega) hfits hgot rfl (UInt32.zero_add _)
          (by simp [Heap.cut, Heap.addPage])
      have haddress : ((h.addPage s.allocPage.1).cut (heapAlign size)).1 = s.allocPage.1 :=
        UInt32.add_zero _
      rw [haddress]
      exact hcut
  · rw [if_neg hnew]
    obtain ⟨hpage, hroom⟩ := not_or.mp hnew
    have hround := heapAlign_toNat size (hsize ⟨hready, .inl hpage⟩)
    exact .current (heapAlign size) (h.cut (heapAlign size)).2 hpos (by omega) (by omega)
      (rest_of_page _ _ (hoffset hpage) hfits hroom) hpage rfl rfl rfl

theorem within_unique (s : Pmm) (b : Block) (page other : UInt32) (hp : Taken s page)
    (ho : Taken s other) (hpos : 0 < b.size.toNat) (hpage : b.Within page)
    (hother : b.Within other) : page = other := by
  by_contra hne
  have hdisjoint := taken_disjoint s page other hp ho hne
  have hmem : b.address.toNat ∈ b.span := ⟨Nat.le_refl _, Nat.lt_add_of_pos_right hpos⟩
  exact Set.disjoint_left.mp hdisjoint (within_subset b page hpage hmem)
    (within_subset b other hother hmem)

theorem openPage_owned (c : Clients) (heap : Heap) (h : Owned c) (hgot : c.pmm.allocPage.1 ≠ 0)
    (hpage : heap.currentPage = c.pmm.allocPage.1) (hoffset : heap.currentOffset = 0) :
    Owned { c with
      pmm := c.pmm.allocPage.2
      heap := heap
      heapPages := c.pmm.allocPage.1 :: c.heapPages } := by
  rcases allocPage_cases c.pmm h.valid with ⟨hzero, _⟩ | ⟨_, hvalid, hfresh, htaken, hkeep⟩
  · exact absurd hzero hgot
  have hnew : c.pmm.allocPage.1 ∉ c.heapPages ++ c.held := fun hmem => hfresh (h.taken _ hmem)
  refine ⟨hvalid, ?_, List.nodup_cons.mpr ⟨hnew, h.distinct⟩, ?_, h.aligned, ?_, h.apart⟩
  · intro page hmem
    rcases List.mem_cons.mp hmem with rfl | hmem
    · exact htaken
    · exact hkeep page (h.taken page hmem)
  · intro _
    refine ⟨hpage ▸ List.mem_cons_self, by simp [hoffset], by simp [hoffset], ?_⟩
    intro b hb hin
    obtain ⟨page, hmem, hwithin⟩ := h.within b hb
    have hmine := List.mem_append_left c.held hmem
    have heq : page = c.pmm.allocPage.1 := within_unique _ b page _
      (hkeep page (h.taken page hmine)) htaken (h.aligned b hb).2 hwithin (hpage ▸ hin)
    exact absurd (heq ▸ hmine) hnew
  · intro b hb
    obtain ⟨page, hmem, hwithin⟩ := h.within b hb
    exact ⟨page, List.mem_cons_of_mem _ hmem, hwithin⟩

theorem taken_toNat (s : Pmm) (page : UInt32) (h : Valid s) (hp : Taken s page) :
    page.toNat % 4096 = 0 ∧ page.toNat + 4096 ≤ 2 ^ 30 := by
  obtain ⟨p, hlt, hpage, _⟩ := hp
  have hsize := h.total_le
  omega

theorem cut_address (c : Clients) (h : Owned c) (hne : c.heap.currentPage ≠ 0) :
    (c.heap.currentPage + c.heap.currentOffset).toNat =
      c.heap.currentPage.toNat + c.heap.currentOffset.toNat := by
  obtain ⟨hmem, hbound, _⟩ := h.current hne
  have hend := (taken_toNat c.pmm _ h.valid (h.taken _ (List.mem_append_left _ hmem))).2
  rw [UInt32.toNat_add]
  exact Nat.mod_eq_of_lt (by omega)

theorem cut_ne (c : Clients) (h : Owned c) (hne : c.heap.currentPage ≠ 0) :
    c.heap.currentPage + c.heap.currentOffset ≠ 0 := by
  have haddress := cut_address c h hne
  intro hnull
  rw [hnull, UInt32.toNat_zero] at haddress
  exact hne (UInt32.toNat_inj.mp (by rw [UInt32.toNat_zero]; omega))

theorem cut_owned (c : Clients) (heap : Heap) (size alignedSize : UInt32) (h : Owned c)
    (hne : c.heap.currentPage ≠ 0) (hpos : 0 < size.toNat)
    (hsize : size.toNat ≤ alignedSize.toNat) (haligned : alignedSize.toNat % 8 = 0)
    (hroom : c.heap.currentOffset.toNat + alignedSize.toNat ≤ 4096)
    (hpage : heap.currentPage = c.heap.currentPage)
    (hoffset : heap.currentOffset = c.heap.currentOffset + alignedSize) :
    Owned { c with
      heap := heap
      blocks := ⟨c.heap.currentPage + c.heap.currentOffset, size⟩ :: c.blocks } := by
  obtain ⟨hmem, hbound, hmultiple, habove⟩ := h.current hne
  have hmine := List.mem_append_left c.held hmem
  have hstart := (taken_toNat c.pmm _ h.valid (h.taken _ hmine)).1
  have haddress := cut_address c h hne
  have hnext : heap.currentOffset.toNat = c.heap.currentOffset.toNat + alignedSize.toNat := by
    rw [hoffset, UInt32.toNat_add]
    exact Nat.mod_eq_of_lt (by omega)
  have hin : Block.Within ⟨c.heap.currentPage + c.heap.currentOffset, size⟩
      c.heap.currentPage := by
    simp only [Block.Within, haddress]
    omega
  refine ⟨h.valid, h.taken, h.distinct, ?_, ?_, ?_, ?_⟩
  · intro _
    simp only [hpage, hnext]
    refine ⟨hmem, hroom, by omega, ?_⟩
    intro b hb hwithin
    rcases List.mem_cons.mp hb with rfl | hb
    · simp only [haddress]
      omega
    · have hbelow := habove b hb hwithin
      omega
  · intro b hb
    rcases List.mem_cons.mp hb with rfl | hb
    · simp only [haddress]
      omega
    · exact h.aligned b hb
  · intro b hb
    rcases List.mem_cons.mp hb with rfl | hb
    · exact ⟨c.heap.currentPage, hmem, hin⟩
    · exact h.within b hb
  · refine List.pairwise_cons.mpr ⟨?_, h.apart⟩
    intro b hb
    obtain ⟨page, hother, hwithin⟩ := h.within b hb
    by_cases hsame : page = c.heap.currentPage
    · have hbelow := habove b hb (hsame ▸ hwithin)
      rw [Block.span, Block.span, Set.Ico_disjoint_Ico, haddress]
      omega
    · exact Set.disjoint_of_subset (within_subset _ _ hin) (within_subset b page hwithin)
        (taken_disjoint c.pmm _ page (h.taken _ hmine)
          (h.taken page (List.mem_append_left _ hother)) (Ne.symm hsame))

theorem kmalloc_owned (c : Clients) (size : UInt32) (h : Owned c)
    (hsize : Serves c.heap c.pmm → size.toNat ≤ 2 ^ 32 - 8) : Owned (c.kmalloc size) := by
  have hout := kmalloc_outcome c.heap c.pmm size h.valid (fun hne => (h.current hne).2.1) hsize
  rw [Clients.kmalloc]
  generalize c.heap.kmalloc c.pmm size = result at hout ⊢
  cases hout with
  | refused heap hpage hoffset hcount =>
    simp only [hcount, if_true]
    exact ⟨h.valid, h.taken, h.distinct, by simpa only [hpage, hoffset] using h.current,
      h.aligned, h.within, h.apart⟩
  | current alignedSize heap hpos hsize haligned hroom hne hpage hoffset hcount =>
    simp only [hcount, if_true, if_neg (cut_ne c h hne)]
    exact cut_owned c heap size alignedSize h hne hpos hsize haligned hroom hpage hoffset
  | fresh alignedSize heap hpos hsize haligned hroom hne hpage hoffset hcount =>
    have hopen := openPage_owned c ⟨heap.stats, c.pmm.allocPage.1, 0⟩ h hne rfl rfl
    have hcut := cut_owned _ heap size alignedSize hopen hne hpos hsize haligned
      (by simpa using hroom) hpage (by simpa using hoffset)
    simp only [UInt32.add_zero] at hcut
    simp only [if_neg hcount, if_neg hne, hpage]
    exact hcut

theorem allocPage_owned (c : Clients) (h : Owned c) : Owned (step c .allocPage) := by
  rw [step]
  rcases allocPage_cases c.pmm h.valid with ⟨hzero, hsame⟩ | ⟨hgot, hvalid, hfresh, htaken, hkeep⟩
  · simp only [hzero, hsame, if_true]
    exact h
  have hnew : c.pmm.allocPage.1 ∉ c.heapPages ++ c.held := fun hmem => hfresh (h.taken _ hmem)
  simp only [if_neg hgot]
  refine ⟨hvalid, ?_, List.nodup_middle.mpr (List.nodup_cons.mpr ⟨hnew, h.distinct⟩),
    h.current, h.aligned, h.within, h.apart⟩
  intro page hmem
  rcases List.mem_cons.mp (List.perm_middle.mem_iff.mp hmem) with rfl | hmem
  · exact htaken
  · exact hkeep page (h.taken page hmem)

theorem freePage_owned (c : Clients) (address : UInt32) (h : Owned c) (hheld : address ∈ c.held) :
    Owned (step c (.freePage address)) := by
  have hsub : (c.heapPages ++ c.held.erase address).Sublist (c.heapPages ++ c.held) :=
    List.Sublist.append_left List.erase_sublist _
  refine ⟨freePage_valid c.pmm address h.valid, ?_, h.distinct.sublist hsub, h.current,
    h.aligned, h.within, h.apart⟩
  intro page hmem
  apply freePage_taken c.pmm address page h.valid (h.taken page (hsub.subset hmem))
  rintro rfl
  rcases List.mem_append.mp hmem with hmine | hother
  · exact List.disjoint_of_nodup_append h.distinct hmine hheld
  · have hdistinct := (List.nodup_append'.mp h.distinct).2.1
    exact (List.Nodup.mem_erase_iff hdistinct).mp hother |>.1 rfl

theorem step_owned (c : Clients) (op : ClientOp) (h : Owned c) (hheld : FreesHeld c op)
    (hfits : Fits c op) : Owned (step c op) := by
  cases op with
  | heapInit =>
    exact ⟨h.valid, h.taken, h.distinct, fun hne => absurd rfl hne, h.aligned, h.within, h.apart⟩
  | kmalloc size => exact kmalloc_owned c size h hfits
  | allocPage => exact allocPage_owned c h
  | freePage address => exact freePage_owned c address h hheld

theorem start_owned (s : Pmm) (h : Valid s) : Owned (Clients.start s) :=
  ⟨h, nofun, List.nodup_nil, fun hne => absurd rfl hne, nofun, nofun, List.Pairwise.nil⟩

theorem heapAlign_wraps (size : UInt32) (h : 2 ^ 32 - 8 < size.toNat) : heapAlign size = 0 := by
  have hplain : size + 8 - 1 = size + 7 := by grind
  have hsum : (size + 8 - 1).toNat = size.toNat + 7 - 2 ^ 32 := by
    have hlt := size.toNat_lt
    rw [hplain, UInt32.toNat_add]
    change (size.toNat + 7) % 2 ^ 32 = _
    omega
  have hmask : (size + 8 - 1).toNat &&& (0xFFFFFFF8 : UInt32).toNat =
      (size + 8 - 1).toNat / 8 * 8 := and_highMask 3 _ (size + 8 - 1).toNat_lt
  have hlt := size.toNat_lt
  apply UInt32.toNat_inj.mp
  rw [heapAlign, UInt32.toNat_and, hmask, hsum, UInt32.toNat_zero]
  omega

theorem wrapped_granted (c : Clients) (size : UInt32) (h : Owned c) (hserves : Serves c.heap c.pmm)
    (hlarge : 2 ^ 32 - 8 < size.toNat) : ∃ b ∈ (step c (.kmalloc size)).blocks, b.size = size := by
  obtain ⟨hinit, hsource⟩ := hserves
  have hne : size ≠ 0 := by
    rintro rfl
    exact absurd hlarge (by decide)
  have haccept : ¬ (c.heap.stats.initialized = false ∨ size = 0) := by simp [hinit, hne]
  show ∃ b ∈ (c.kmalloc size).blocks, b.size = size
  rw [Clients.kmalloc, Heap.kmalloc, if_neg haccept]
  simp only [heapAlign_wraps size hlarge, UInt32.add_zero]
  have hfits : ¬ (4096 : UInt32) < 0 := by decide
  rw [if_neg hfits]
  by_cases hnew : c.heap.currentPage = 0 ∨ 4096 < c.heap.currentOffset
  · have hgot : c.pmm.allocPage.1 ≠ 0 := by
      intro hzero
      have hfull := (search_none_iff c.pmm).mp ((allocPage_zero_iff c.pmm h.valid).mp hzero)
      rcases hsource with hpage | ⟨p, hp, hfree⟩
      · have hbound := (h.current hpage).2.1
        rcases hnew with hnone | hpast
        · exact hpage hnone
        · rw [UInt32.lt_iff_toNat_lt] at hpast
          exact absurd hpast (Nat.not_lt.mpr hbound)
      · rw [hfull p hp] at hfree
        exact absurd hfree (by decide)
    rw [if_pos hnew, Heap.newPage]
    simp only [if_neg hgot, Heap.cut, Heap.addPage, UInt32.add_zero]
    exact ⟨_, List.mem_cons_self, rfl⟩
  · have hcut := cut_ne c h (not_or.mp hnew).1
    rw [if_neg hnew]
    show ∃ b ∈ if c.heap.currentPage + c.heap.currentOffset = 0 then c.blocks
      else ⟨c.heap.currentPage + c.heap.currentOffset, size⟩ :: c.blocks, b.size = size
    rw [if_neg hcut]
    exact ⟨_, List.mem_cons_self, rfl⟩

theorem blocks_grow (b : Block) (c : Clients) (op : ClientOp) (h : b ∈ c.blocks) :
    b ∈ (step c op).blocks := by
  cases op with
  | kmalloc size =>
    show b ∈ (c.kmalloc size).blocks
    rw [Clients.kmalloc]
    generalize c.heap.kmalloc c.pmm size = result
    rcases result with ⟨address, heap, pmm⟩
    show b ∈ if address = 0 then c.blocks else ⟨address, size⟩ :: c.blocks
    split_ifs
    · exact h
    · exact List.mem_cons_of_mem _ h
  | heapInit => exact h
  | allocPage => exact h
  | freePage address => exact h

theorem sound_small (c : Clients) (b : Block) (h : Sound c) (hb : b ∈ c.blocks) :
    b.size.toNat ≤ 4096 := by
  obtain ⟨page, _, hsub⟩ := h.inside b hb
  by_contra hlarge
  have hin := (Set.Ico_subset_Ico_iff (by omega)).mp hsub
  omega

theorem fits_of_sound (c : Clients) (ops : List ClientOp) (h : Owned c)
    (hheld : Along step FreesHeld c ops) (hsound : Sound (run step c ops)) :
    Along step Fits c ops := by
  induction ops generalizing c with
  | nil => trivial
  | cons op ops ih =>
    have hfits : Fits c op := by
      cases op with
      | kmalloc size =>
        intro hserves
        by_contra hlarge
        obtain ⟨b, hb, hsize⟩ := wrapped_granted c size h hserves (Nat.lt_of_not_le hlarge)
        have hlast := run_invariant_all step (b ∈ ·.blocks) (blocks_grow b) _ ops hb
        have hsmall := sound_small _ b hsound hlast
        rw [hsize] at hsmall
        omega
      | heapInit => trivial
      | allocPage => trivial
      | freePage address => trivial
    exact ⟨hfits, ih (step c op) (step_owned c op h hheld.1 hfits) hheld.2 hsound⟩

/-- In a run over an initialised allocator whose clients free only what they
hold, every returned block is aligned, inside a page of the heap and apart
exactly when no serving heap was asked for more than 2 ^ 32 - 8 bytes. -/
theorem blocks_sound_iff (s₀ s : Pmm) (m : Memory) (kernelEnd infoAddr : UInt32) (fuel : ℕ)
    (hinit : s₀.init m kernelEnd infoAddr fuel = some s) (ops : List ClientOp)
    (hheld : Along step FreesHeld (Clients.start s) ops) :
    Sound (run step (Clients.start s) ops) ↔ Along step Fits (Clients.start s) ops := by
  have hstart := start_owned s (init_valid s₀ s m kernelEnd infoAddr fuel hinit)
  constructor
  · exact fits_of_sound (Clients.start s) ops hstart hheld
  · intro hfits
    apply owned_sound
    exact run_invariant step (fun c op => FreesHeld c op ∧ Fits c op) Owned
      (fun c op h hop => step_owned c op h hop.1 hop.2) (Clients.start s) ops hstart
      ((along_and step FreesHeld Fits _ ops).mpr ⟨hheld, hfits⟩)

theorem blocks_sound_iff_boot :
    ∃ s, emptyPmm.init bootMemory 0x101000 0x9000 2 = some s ∧
      Sound (run step (Clients.start s) [.heapInit, .kmalloc 24, .kmalloc 4096, .kmalloc 24]) := by
  obtain ⟨s, hs, _⟩ := Option.map_eq_some_iff.mp boot_first_page
  have hsmall : (24 : UInt32).toNat ≤ 2 ^ 32 - 8 := by decide
  have hpage : (4096 : UInt32).toNat ≤ 2 ^ 32 - 8 := by decide
  exact ⟨s, hs, (blocks_sound_iff emptyPmm s bootMemory 0x101000 0x9000 2 hs
    [.heapInit, .kmalloc 24, .kmalloc 4096, .kmalloc 24]
    ⟨trivial, trivial, trivial, trivial, trivial⟩).mpr
    ⟨trivial, fun _ => hsmall, fun _ => hpage, fun _ => hsmall, trivial⟩⟩

/-- The heap grants a request for all but one byte of the address space. -/
theorem wrapped_block :
    ∃ s, emptyPmm.init bootMemory 0x101000 0x9000 2 = some s ∧
      Along step FreesHeld (Clients.start s) [.heapInit, .kmalloc 0xFFFFFFFF] ∧
      ¬ Sound (run step (Clients.start s) [.heapInit, .kmalloc 0xFFFFFFFF]) := by
  obtain ⟨s, hs, hfirst⟩ := Option.map_eq_some_iff.mp boot_first_page
  have hvalid := init_valid emptyPmm s bootMemory 0x101000 0x9000 2 hs
  have hheld : Along step FreesHeld (Clients.start s) [.heapInit, .kmalloc 0xFFFFFFFF] :=
    ⟨trivial, trivial, trivial⟩
  refine ⟨s, hs, hheld, ?_⟩
  intro hsound
  have hfits := fits_of_sound (Clients.start s) _ (start_owned s hvalid) hheld hsound
  have hfree : ∃ p < s.total, s.used p = false := by
    apply free_of_granted s hvalid
    rw [hfirst]
    decide
  have hsize := hfits.2.1 ⟨hvalid.initialized, .inr hfree⟩
  exact absurd hsize (by decide)

end Hnmos.KernelHeap
