import Mathlib
import Hnmos.PageAllocation

/-!
# Reserved pages are never handed out

The low megabyte, the kernel image and the boot information are marked used
after all free ranges have been marked, whatever the boot information says. A
used page is not granted, and a client that frees only what it was granted
cannot free a reserved page, so the reservation survives every history.
-/

set_option autoImplicit false

namespace Hnmos.PageAllocator
open Hnmos.Transition

inductive Protected (kernelEnd infoAddr : UInt32) (page : ℕ) : Prop where
  | low (h : page < 256)
  | kernel (hlow : 256 ≤ page) (hhigh : 4096 * page < (alignUp kernelEnd).toNat)
  | info (k : ℕ) (hk : k < 4096) (h : page = (infoAddr + UInt32.ofNat k).toNat / 4096)

def Reserved (kernelEnd infoAddr : UInt32) (s : Pmm) : Prop :=
  ∀ p < s.total, Protected kernelEnd infoAddr p → s.used p = true

theorem kernel_reserved (s : Pmm) (kernelEnd : UInt32) (htotal : s.total ≤ 2 ^ 18)
    (hlow : 0x100000 < kernelEnd.toNat) (hhigh : kernelEnd.toNat < 0x40000000) (q : ℕ)
    (hq : q < s.total) (hq' : 256 ≤ q) (hlt : 4096 * q < (alignUp kernelEnd).toNat) :
    (s.markRangeUsed lowMemoryLimit (alignUp kernelEnd - lowMemoryLimit)).used q = true := by
  have hbase : lowMemoryLimit.toNat = 0x100000 := rfl
  have hend := alignUp_toNat kernelEnd (by omega)
  have hlength : (alignUp kernelEnd - lowMemoryLimit).toNat =
      (alignUp kernelEnd).toNat - 0x100000 := by
    rw [UInt32.toNat_sub_of_le, hbase]
    rw [UInt32.le_iff_toNat_le]
    omega
  refine markRangeUsed_reaches s _ _ ?_ (by omega) htotal q hq (by omega) (by omega)
  intro hzero
  rw [hzero, UInt32.toNat_zero] at hlength
  omega

theorem add_offset_toNat (address : UInt32) (k : ℕ) (hk : k < 4096) :
    (address + UInt32.ofNat k).toNat = (address.toNat + k) % 2 ^ 32 := by
  rw [UInt32.toNat_add, UInt32.toNat_ofNat_of_lt' (by change k < 2 ^ 32; omega)]

/-- A block of 4096 bytes near the end of the address space touches pages
beyond the tracked ones, and page zero when it wraps. -/
theorem info_page (infoAddr : UInt32) (k q : ℕ) (hk : k < 4096) (hq : q < 2 ^ 18)
    (h : q = (infoAddr + UInt32.ofNat k).toNat / 4096) :
    q = 0 ∨ (infoAddr.toNat + 4096 + 4095 < 2 ^ 32 ∧ infoAddr.toNat / 4096 ≤ q ∧
      4096 * q < infoAddr.toNat + 4096) := by
  have hlt := infoAddr.toNat_lt
  rw [add_offset_toNat infoAddr k hk] at h
  omega

theorem info_reserved (s : Pmm) (infoAddr : UInt32) (htotal : s.total ≤ 2 ^ 18) (q : ℕ)
    (hq : q < s.total) (hwrap : infoAddr.toNat + 4096 + 4095 < 2 ^ 32)
    (hlow : infoAddr.toNat / 4096 ≤ q) (hhigh : 4096 * q < infoAddr.toNat + 4096) :
    (s.markRangeUsed infoAddr 4096).used q = true :=
  markRangeUsed_reaches s infoAddr 4096 (by decide) hwrap htotal q hq hlow hhigh

theorem reserveKernelRanges_reserved (s : Pmm) (kernelEnd infoAddr : UInt32)
    (htotal : s.total ≤ 2 ^ 18) (hlow : 0x100000 < kernelEnd.toNat)
    (hhigh : kernelEnd.toNat < 0x40000000) :
    Reserved kernelEnd infoAddr (s.reserveKernelRanges kernelEnd infoAddr) := by
  intro q hq hprotected
  have hframe := reserveKernelRanges_frame s kernelEnd infoAddr
  rw [hframe.total] at hq
  by_cases hq256 : q < 256
  · exact reserveKernelRanges_low s kernelEnd infoAddr q htotal hq hq256
  · have hfirst := markRangeUsed_frame s 0 lowMemoryLimit
    have hsecond := hfirst.trans
      (markRangeUsed_frame _ lowMemoryLimit (alignUp kernelEnd - lowMemoryLimit))
    simp only [Pmm.reserveKernelRanges]
    generalize s.markRangeUsed 0 lowMemoryLimit = t at hfirst hsecond
    have htotal₁ : t.total ≤ 2 ^ 18 := by rwa [hfirst.total]
    have hq₁ : q < t.total := by rwa [hfirst.total]
    cases hprotected with
    | low h => exact absurd h hq256
    | kernel hq' hlt =>
      have hkernel := kernel_reserved t kernelEnd htotal₁ hlow hhigh q hq₁ hq' hlt
      split_ifs
      · exact markRangeUsed_preserves _ (markPageUsed_keeps q) _ infoAddr 4096 hkernel
      · exact hkernel
    | info k hk hpage =>
      rcases info_page infoAddr k q hk (by omega) hpage with hzero | ⟨hwrap, hfrom, hto⟩
      · omega
      · have hne : infoAddr ≠ 0 := by
          rintro rfl
          rw [UInt32.toNat_zero] at hto
          omega
        generalize t.markRangeUsed lowMemoryLimit (alignUp kernelEnd - lowMemoryLimit) = v
          at hsecond ⊢
        have htotal₂ : v.total ≤ 2 ^ 18 := by rwa [hsecond.total]
        have hq₂ : q < v.total := by rwa [hsecond.total]
        rw [if_pos hne]
        exact info_reserved v infoAddr htotal₂ q hq₂ hwrap hfrom hto

theorem init_reserved (s t : Pmm) (m : Memory) (kernelEnd infoAddr : UInt32) (fuel : ℕ)
    (hlow : 0x100000 < kernelEnd.toNat) (hhigh : kernelEnd.toNat < 0x40000000)
    (h : s.init m kernelEnd infoAddr fuel = some t) : Reserved kernelEnd infoAddr t := by
  rw [Pmm.init] at h
  cases hdetect : s.cleared.detect m infoAddr fuel with
  | none => simp [hdetect] at h
  | some d =>
    simp only [hdetect, Option.some.injEq] at h
    subst h
    have hd := detect_prepared s.cleared d m infoAddr fuel rfl hdetect
    exact reserveKernelRanges_reserved d kernelEnd infoAddr hd.1.total_le hlow hhigh

/-- A client with the addresses it has been given. -/
def clientStep (c : Pmm × List UInt32) : PmmOp → Pmm × List UInt32
  | .allocPage => (c.1.allocPage.2, c.1.allocPage.1 :: c.2)
  | .freePage address => (c.1.freePage address, c.2)

def FreesReturned (c : Pmm × List UInt32) : PmmOp → Prop
  | .allocPage => True
  | .freePage address => address ∈ c.2

structure ClientInv (kernelEnd infoAddr : UInt32) (c : Pmm × List UInt32) : Prop where
  valid : Valid c.1
  reserved : Reserved kernelEnd infoAddr c.1
  returned : ∀ a ∈ c.2, a = 0 ∨ ¬ Protected kernelEnd infoAddr (a.toNat / 4096)

theorem allocPage_unprotected (kernelEnd infoAddr : UInt32) (s : Pmm) (h : Valid s)
    (hr : Reserved kernelEnd infoAddr s) (hne : s.allocPage.1 ≠ 0) :
    s.allocPage.1.toNat % 4096 = 0 ∧
      ¬ Protected kernelEnd infoAddr (s.allocPage.1.toNat / 4096) := by
  obtain ⟨p, hp⟩ := Option.ne_none_iff_exists'.mp (fun e => hne ((allocPage_zero_iff s h).mpr e))
  have hsound := search_sound s p hp
  obtain ⟨halloc, haddress, _⟩ := granted_address s p h hp
  have hpage : s.allocPage.1.toNat / 4096 = p := by
    rw [halloc, haddress]
    omega
  refine ⟨by rw [halloc, haddress]; omega, ?_⟩
  rw [hpage]
  intro hprotected
  simp [hr p hsound.1 hprotected] at hsound

theorem clientStep_inv (kernelEnd infoAddr : UInt32) (c : Pmm × List UInt32) (op : PmmOp)
    (h : ClientInv kernelEnd infoAddr c) (hop : FreesReturned c op) :
    ClientInv kernelEnd infoAddr (clientStep c op) := by
  cases op with
  | allocPage =>
    refine ⟨step_valid c.1 .allocPage h.valid, ?_, ?_⟩
    · change Reserved kernelEnd infoAddr c.1.allocPage.2
      rw [allocPage_eq c.1 h.valid]
      cases hs : c.1.search with
      | none => exact h.reserved
      | some p =>
        intro q hq hprotected
        have hp := (search_sound c.1 p hs).1
        have hq' : q < c.1.total := (grant_total c.1 _) ▸ hq
        change (c.1.grant (UInt32.ofNat p)).used q = true
        rw [grant_used c.1 p q h.valid.total_le hp, h.reserved q hq' hprotected, Bool.true_or]
    · intro a ha
      rcases List.mem_cons.mp ha with rfl | ha
      · by_cases hz : c.1.allocPage.1 = 0
        · exact Or.inl hz
        · exact Or.inr (allocPage_unprotected kernelEnd infoAddr c.1 h.valid h.reserved hz).2
      · exact h.returned a ha
  | freePage address =>
    refine ⟨freePage_valid c.1 address h.valid, ?_, h.returned⟩
    intro q hq hprotected
    have hq' : q < c.1.total := (freePage_frame c.1 address).total ▸ hq
    change (c.1.freePage address).used q = true
    rw [freePage_used c.1 address q h.valid.initialized, h.reserved q hq' hprotected]
    have hno : ¬ (address ≠ 0 ∧ address.toNat = 4096 * q ∧ q < c.1.total) := by
      rintro ⟨hne, haddress, _⟩
      have hpage : address.toNat / 4096 = q := by omega
      rcases h.returned address hop with hz | hn
      · exact hne hz
      · exact hn (hpage ▸ hprotected)
    simp only [hno, decide_false, Bool.not_false, Bool.and_self]

/-- Whatever the boot information says, no allocation of a client that frees
only what it was given returns an address in the low megabyte, in the
page-rounded kernel image or in a page of the boot information. -/
theorem reserved_never_allocated (s₀ s : Pmm) (m : Memory) (kernelEnd infoAddr : UInt32)
    (fuel : ℕ) (hlow : 0x100000 < kernelEnd.toNat) (hhigh : kernelEnd.toNat < 0x40000000)
    (hinit : s₀.init m kernelEnd infoAddr fuel = some s) (ops : List PmmOp)
    (hops : Along clientStep FreesReturned (s, []) ops)
    (hne : (run clientStep (s, []) ops).1.allocPage.1 ≠ 0) :
    0x100000 ≤ (run clientStep (s, []) ops).1.allocPage.1.toNat ∧
    (alignUp kernelEnd).toNat ≤ (run clientStep (s, []) ops).1.allocPage.1.toNat ∧
    ∀ k < 4096, (infoAddr + UInt32.ofNat k).toNat / 4096 ≠
      (run clientStep (s, []) ops).1.allocPage.1.toNat / 4096 := by
  have hstart : ClientInv kernelEnd infoAddr (s, []) :=
    ⟨init_valid s₀ s m kernelEnd infoAddr fuel hinit,
      init_reserved s₀ s m kernelEnd infoAddr fuel hlow hhigh hinit, nofun⟩
  have h := run_invariant clientStep FreesReturned (ClientInv kernelEnd infoAddr)
    (fun c op => clientStep_inv kernelEnd infoAddr c op) (s, []) ops hstart hops
  obtain ⟨haligned, hfree⟩ := allocPage_unprotected kernelEnd infoAddr _ h.valid h.reserved hne
  generalize (run clientStep (s, []) ops).1.allocPage.1.toNat = a at haligned hfree
  have halow : 0x100000 ≤ a := by
    by_contra hlt
    exact hfree (.low (by omega))
  refine ⟨halow, ?_, ?_⟩
  · by_contra hlt
    exact hfree (.kernel (by omega) (by omega))
  · intro k hk heq
    exact hfree (.info k hk heq.symm)

def bootOps : List PmmOp := [.allocPage, .allocPage, .freePage 0x101000, .allocPage]

theorem boot_history : (emptyPmm.init bootMemory 0x101000 0x9000 2).map
    (fun s => (s.allocPage.1, (run clientStep (s, []) bootOps).1.allocPage.1)) =
      some (0x101000, 0x101000) := by
  decide +kernel

theorem reserved_never_allocated_boot :
    ∃ s, emptyPmm.init bootMemory 0x101000 0x9000 2 = some s ∧
      (run clientStep (s, []) bootOps).1.allocPage.1 = 0x101000 ∧
      (alignUp 0x101000).toNat ≤ (run clientStep (s, []) bootOps).1.allocPage.1.toNat ∧
      ∀ k < 4096, ((0x9000 : UInt32) + UInt32.ofNat k).toNat / 4096 ≠
        (run clientStep (s, []) bootOps).1.allocPage.1.toNat / 4096 := by
  obtain ⟨s, hs, hpages⟩ := Option.map_eq_some_iff.mp boot_history
  obtain ⟨hfirst, hagain⟩ := Prod.mk.inj hpages
  have hops : Along clientStep FreesReturned (s, []) bootOps := by
    refine ⟨trivial, trivial, ?_, trivial, trivial⟩
    show (0x101000 : UInt32) ∈ [s.allocPage.2.allocPage.1, s.allocPage.1]
    rw [hfirst]
    exact List.mem_cons_of_mem _ List.mem_cons_self
  have hne : (run clientStep (s, []) bootOps).1.allocPage.1 ≠ 0 := by
    rw [hagain]
    decide
  exact ⟨s, hs, hagain, (reserved_never_allocated emptyPmm s bootMemory 0x101000 0x9000 2
    (by decide) (by decide) hs bootOps hops hne).2⟩

end Hnmos.PageAllocator
