import Mathlib
import Hnmos.GuidedWalk
import Hnmos.MemoryMap

/-!
# The two walks over the memory map

Both walks step from entry to entry by the size that the entry itself gives,
added in 32 bits. They visit the same offsets; they end and stay inside the
table when it is made of whole entries, and on no other table whose sizes do
not add up to four gigabytes.
-/

set_option autoImplicit false

namespace Hnmos.PageAllocator
open Hnmos.GuidedWalk

section
variable (m : Memory) (info : MultibootInfo)

def entryAt (offset : UInt32) : MmapEntry := mmapEntry m (info.mmapAddr + offset)

def nextOffset (offset : UInt32) : UInt32 := offset + ((entryAt m info offset).size + 4)

def InLength (offset : UInt32) : Prop := offset < info.mmapLength

instance : DecidablePred (InLength info) := fun offset =>
  inferInstanceAs (Decidable (offset < info.mmapLength))

def mapOffsets (fuel : ℕ) : Option (List UInt32) := walk (nextOffset m info) (InLength info) fuel 0

def InTable (offset : UInt32) : Prop :=
  ∀ k < 24, info.mmapAddr.toNat ≤ (info.mmapAddr + offset + UInt32.ofNat k).toNat ∧
    (info.mmapAddr + offset + UInt32.ofNat k).toNat < info.mmapAddr.toNat + info.mmapLength.toNat

/-- Both walks end, over the same entries, and every entry is inside the table. -/
def WalksWell : Prop :=
  ∃ fuel offsets, mapOffsets m info fuel = some offsets ∧
    (∀ highest, mmapHighestAddress m info fuel 0 highest =
      some ((offsets.map (entryAt m info)).foldl raise highest)) ∧
    (∀ s, parseMmapLoop m info fuel 0 s =
      some ((offsets.map (entryAt m info)).foldl Pmm.addEntry s)) ∧
    ∀ offset ∈ offsets, InTable info offset

/-- Whole entries, one behind the other from an offset of the table on: the 24
bytes of each lie in the table and below four gigabytes, and the next one begins
four bytes and its own size behind it. -/
def Chain : ℕ → List MmapEntry → Prop
  | _, [] => True
  | offset, e :: entries =>
    entryAt m info (UInt32.ofNat offset) = e ∧ offset + 24 ≤ info.mmapLength.toNat ∧
      info.mmapAddr.toNat + offset + 24 ≤ 2 ^ 32 ∧ Chain (offset + (e.size.toNat + 4)) entries

def extent (entries : List MmapEntry) : ℕ := (entries.map fun e => e.size.toNat + 4).sum

@[simp] theorem extent_nil : extent [] = 0 := rfl

theorem extent_cons (e : MmapEntry) (entries : List MmapEntry) :
    extent (e :: entries) = e.size.toNat + 4 + extent entries := by
  rw [extent, List.map_cons, List.sum_cons, extent]

/-- The table consists of whole entries up to its end. -/
def Whole : Prop :=
  ∃ entries, Chain m info 0 entries ∧ info.mmapLength.toNat ≤ extent entries ∧
    extent entries < 2 ^ 32

/-- The sizes of whole entries add up to four gigabytes or more. -/
def Overflows : Prop := ∃ entries, Chain m info 0 entries ∧ 2 ^ 32 ≤ extent entries

theorem byte_toNat (offset : UInt32) (k : ℕ) (hk : k < 24) :
    (info.mmapAddr + offset + UInt32.ofNat k).toNat =
      (info.mmapAddr.toNat + offset.toNat + k) % 2 ^ 32 := by
  have hsmall : (UInt32.ofNat k).toNat = k := UInt32.toNat_ofNat_of_lt' (by
    change k < 2 ^ 32
    omega)
  rw [UInt32.toNat_add, UInt32.toNat_add, hsmall]
  omega

theorem inTable_iff (offset : UInt32) (h : InLength info offset) :
    InTable info offset ↔ offset.toNat + 24 ≤ info.mmapLength.toNat ∧
      info.mmapAddr.toNat + offset.toNat + 24 ≤ 2 ^ 32 := by
  have haddr := info.mmapAddr.toNat_lt
  have hoffset := offset.toNat_lt
  have hlength := info.mmapLength.toNat_lt
  rw [InLength, UInt32.lt_iff_toNat_lt] at h
  constructor
  · intro hin
    have hbyte : ∀ k < 24, info.mmapAddr.toNat ≤
        (info.mmapAddr.toNat + offset.toNat + k) % 2 ^ 32 ∧
        (info.mmapAddr.toNat + offset.toNat + k) % 2 ^ 32 <
          info.mmapAddr.toNat + info.mmapLength.toNat := by
      intro k hk
      rw [← byte_toNat info offset k hk]
      exact hin k hk
    have hwrap : info.mmapAddr.toNat + offset.toNat + 24 ≤ 2 ^ 32 := by
      by_contra hover
      by_cases hfirst : 2 ^ 32 ≤ info.mmapAddr.toNat + offset.toNat
      · have hzero := hbyte 0 (by decide)
        omega
      · -- the byte at address 0, or the last one when the table starts there
        by_cases hstart : info.mmapAddr.toNat = 0
        · have hlast := hbyte (2 ^ 32 - 1 - offset.toNat) (by omega)
          omega
        · have hbottom := hbyte (2 ^ 32 - info.mmapAddr.toNat - offset.toNat) (by omega)
          omega
    have hend := hbyte 23 (by decide)
    omega
  · rintro ⟨hend, hwrap⟩ k hk
    rw [byte_toNat info offset k hk]
    omega

theorem mapEntries_offsets (fuel : ℕ) (offset : UInt32) :
    mapEntries m info fuel offset =
      (walk (nextOffset m info) (InLength info) fuel offset).map
        fun offsets => offsets.map (entryAt m info) := by
  induction fuel generalizing offset with
  | zero => rfl
  | succ fuel ih =>
    rw [mapEntries, walk]
    by_cases h : offset < info.mmapLength
    · have hlive : InLength info offset := h
      rw [if_pos h, if_pos hlive]
      simp only
      rw [show offset + ((mmapEntry m (info.mmapAddr + offset)).size + 4) =
        nextOffset m info offset from rfl, ih, Option.map_map, Option.map_map]
      rfl
    · have hlive : ¬ InLength info offset := h
      rw [if_neg h, if_neg hlive]
      rfl

theorem next_ofNat (offset : ℕ) : nextOffset m info (UInt32.ofNat offset) =
    UInt32.ofNat (offset + ((entryAt m info (UInt32.ofNat offset)).size.toNat + 4)) := by
  rw [UInt32.ofNat_add, UInt32.ofNat_add, UInt32.ofNat_toNat]
  rfl

theorem offset_toNat (offset : ℕ) (h : offset < 2 ^ 32) :
    (UInt32.ofNat offset).toNat = offset := UInt32.toNat_ofNat_of_lt' h

theorem inLength_iff (offset : ℕ) (h : offset < 2 ^ 32) :
    InLength info (UInt32.ofNat offset) ↔ offset < info.mmapLength.toNat := by
  rw [InLength, UInt32.lt_iff_toNat_lt, offset_toNat offset h]

theorem chain_linked (offset : ℕ) (entries : List MmapEntry) (h : Chain m info offset entries) :
    ∃ offsets, Linked (nextOffset m info) (InLength info) (UInt32.ofNat offset) offsets
        (UInt32.ofNat (offset + extent entries)) ∧
      ∀ o ∈ offsets, InTable info o := by
  have hlength := info.mmapLength.toNat_lt
  induction entries generalizing offset with
  | nil => exact ⟨[], .nil _, fun o ho => absurd ho List.not_mem_nil⟩
  | cons e entries ih =>
    obtain ⟨hentry, hend, hwrap, hrest⟩ := h
    obtain ⟨offsets, hlinked, hin⟩ := ih _ hrest
    have hoffset := offset_toNat offset (by omega)
    have hlive : InLength info (UInt32.ofNat offset) :=
      (inLength_iff info offset (by omega)).mpr (by omega)
    rw [← hentry, ← next_ofNat] at hlinked
    have hextent : offset + extent (e :: entries) =
        offset + ((entryAt m info (UInt32.ofNat offset)).size.toNat + 4) + extent entries := by
      rw [extent_cons, hentry]
      omega
    rw [hextent]
    refine ⟨UInt32.ofNat offset :: offsets, .cons _ _ _ hlive hlinked, ?_⟩
    rw [List.forall_mem_cons]
    exact ⟨(inTable_iff info _ hlive).mpr (by rw [hoffset]; exact ⟨hend, hwrap⟩), hin⟩

/-- A walk that ends without having left the table has gone along entries, up
to the end of the table or to a sum that wraps. -/
theorem linked_chain (offset : ℕ) (offsets : List UInt32) (a b : UInt32)
    (ha : a = UInt32.ofNat offset) (hoffset : offset < 2 ^ 32)
    (h : Linked (nextOffset m info) (InLength info) a offsets b) (hb : ¬ InLength info b)
    (hin : ∀ o ∈ offsets, InTable info o) :
    ∃ entries, Chain m info offset entries ∧ info.mmapLength.toNat ≤ offset + extent entries := by
  induction h generalizing offset with
  | nil a =>
    rw [ha, inLength_iff info offset hoffset, not_lt] at hb
    exact ⟨[], trivial, hb⟩
  | cons a b offsets hlive hrest ih =>
    subst ha
    rw [List.forall_mem_cons] at hin
    have hinside := (inTable_iff info _ hlive).mp hin.1
    rw [offset_toNat offset hoffset] at hinside
    by_cases hnext :
        offset + ((entryAt m info (UInt32.ofNat offset)).size.toNat + 4) < 2 ^ 32
    · obtain ⟨entries, hchain, hlong⟩ := ih _ (next_ofNat m info offset) hnext hb hin.2
      refine ⟨entryAt m info (UInt32.ofNat offset) :: entries,
        ⟨rfl, hinside.1, hinside.2, hchain⟩, ?_⟩
      rw [extent_cons, ← Nat.add_assoc]
      exact hlong
    · refine ⟨[entryAt m info (UInt32.ofNat offset)], ⟨rfl, hinside.1, hinside.2, trivial⟩, ?_⟩
      have hlength := info.mmapLength.toNat_lt
      rw [extent_cons, extent_nil]
      omega

/-- For every table: both walks end, visit the same entries and stay inside the
table when it consists of whole entries; and where they do so otherwise, the
sizes of the entries add up to four gigabytes. -/
theorem whole_walks_well :
    (Whole m info → WalksWell m info) ∧ (WalksWell m info → Whole m info ∨ Overflows m info) := by
  constructor
  · rintro ⟨entries, hchain, hlong, hshort⟩
    obtain ⟨offsets, hlinked, hin⟩ := chain_linked m info 0 entries hchain
    rw [Nat.zero_add] at hlinked
    have hend : ¬ InLength info (UInt32.ofNat (extent entries)) := by
      rw [inLength_iff info _ hshort, not_lt]
      exact hlong
    have hwalk : walk (nextOffset m info) (InLength info) (offsets.length + 1) 0 = some offsets :=
      walk_of_linked _ _ offsets hlinked hend
    refine ⟨offsets.length + 1, offsets, hwalk, ?_, ?_, hin⟩
    · intro highest
      rw [mmapHighestAddress_entries, mapEntries_offsets, hwalk]
      rfl
    · intro s
      rw [parseMmapLoop_entries, mapEntries_offsets, hwalk]
      rfl
  · rintro ⟨fuel, offsets, hwalk, _, _, hin⟩
    obtain ⟨b, hlinked, hb⟩ := linked_of_walk fuel 0 offsets hwalk
    obtain ⟨entries, hchain, hlong⟩ :=
      linked_chain m info 0 offsets 0 b rfl (by decide) hlinked hb hin
    rw [Nat.zero_add] at hlong
    by_cases hshort : extent entries < 2 ^ 32
    · exact Or.inl ⟨entries, hchain, hlong, hshort⟩
    · exact Or.inr ⟨entries, hchain, not_lt.mp hshort⟩

end

theorem whole_walks_well_pair :
    WalksWell (mapMemory 0x105000 [⟨20, 0, 0, 0x9FC00, 0, 1⟩, plainEntry])
      (multibootInfo (mapMemory 0x105000 [⟨20, 0, 0, 0x9FC00, 0, 1⟩, plainEntry]) 0x9000) := by
  apply (whole_walks_well _ _).1
  refine ⟨[⟨20, 0, 0, 0x9FC00, 0, 1⟩, plainEntry], ⟨?_, ?_, ?_, ?_, ?_, ?_, trivial⟩, ?_, ?_⟩ <;> decide

/-- An entry whose size steps back to itself. -/
def loopEntry : MmapEntry := ⟨0xFFFFFFFC, 0x100000, 0, 0x10000, 0, 1⟩

theorem hostile_size_loops :
    let m := mapMemory 0x105000 [loopEntry]
    let info := multibootInfo m 0x9000
    (∀ fuel highest, mmapHighestAddress m info fuel 0 highest = none) ∧
      (∀ fuel s, parseMmapLoop m info fuel 0 s = none) ∧ ¬ WalksWell m info := by
  intro m info
  have hnext : nextOffset m info 0 = 0 := by decide
  have hlive : InLength info 0 := by decide
  have hnever (fuel : ℕ) : walk (nextOffset m info) (InLength info) fuel 0 = none :=
    walk_stuck 0 hlive hnext fuel
  refine ⟨?_, ?_, ?_⟩
  · intro fuel highest
    rw [mmapHighestAddress_entries, mapEntries_offsets, hnever, Option.map_none, Option.map_none]
  · intro fuel s
    rw [parseMmapLoop_entries, mapEntries_offsets, hnever, Option.map_none, Option.map_none]
  · rintro ⟨fuel, offsets, hwalk, _⟩
    rw [mapOffsets, hnever] at hwalk
    exact absurd hwalk (Option.some_ne_none offsets).symm

end Hnmos.PageAllocator
