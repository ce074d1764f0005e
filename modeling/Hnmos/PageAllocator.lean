import Mathlib

/-!
# The physical page allocator

One bit per page of the first gigabyte, counters kept beside the bitmap and a
next-fit cursor. Initialisation reads the boot information through a view of
physical memory: the memory map when there is one, else the basic sizes, else
nothing. Address arithmetic is 32-bit and wraps as it does on the machine. A
walk of the memory map may fail to end, so it takes fuel and reports `none`
when the fuel is used up.
-/

set_option autoImplicit false

namespace Hnmos.PageAllocator

structure PmmStats where
  totalMemoryKib : UInt32
  usableMemoryKib : UInt32
  reservedMemoryKib : UInt32
  totalPages : UInt32
  usedPages : UInt32
  freePages : UInt32
  regionCount : UInt32
  usableRegionCount : UInt32
  reservedRegionCount : UInt32
  mmapAvailable : Bool
  initialized : Bool

structure Pmm where
  bitmap : ℕ → UInt8
  stats : PmmStats
  nextSearchPage : UInt32

def Pmm.mapStats (s : Pmm) (f : PmmStats → PmmStats) : Pmm := { s with stats := f s.stats }

abbrev Memory := UInt32 → UInt8

def Memory.u32 (m : Memory) (address : UInt32) : UInt32 :=
  (m address).toUInt32 ||| (m (address + 1)).toUInt32 <<< 8 |||
    (m (address + 2)).toUInt32 <<< 16 ||| (m (address + 3)).toUInt32 <<< 24

structure MultibootInfo where
  flags : UInt32
  memLower : UInt32
  memUpper : UInt32
  mmapLength : UInt32
  mmapAddr : UInt32

/-- The packed information block; the fields between the ones used here only
take up room. -/
def multibootInfo (m : Memory) (address : UInt32) : MultibootInfo where
  flags := m.u32 address
  memLower := m.u32 (address + 4)
  memUpper := m.u32 (address + 8)
  mmapLength := m.u32 (address + 44)
  mmapAddr := m.u32 (address + 48)

structure MmapEntry where
  size : UInt32
  baseAddrLow : UInt32
  baseAddrHigh : UInt32
  lengthLow : UInt32
  lengthHigh : UInt32
  type : UInt32
  deriving DecidableEq

def mmapEntry (m : Memory) (address : UInt32) : MmapEntry where
  size := m.u32 address
  baseAddrLow := m.u32 (address + 4)
  baseAddrHigh := m.u32 (address + 8)
  lengthLow := m.u32 (address + 12)
  lengthHigh := m.u32 (address + 16)
  type := m.u32 (address + 20)

def maxTrackedMemory : UInt32 := 0x40000000

def lowMemoryLimit : UInt32 := 0x00100000

def alignUp (value : UInt32) : UInt32 := (value + 4096 - 1) &&& 0xFFFFF000

def alignDown (value : UInt32) : UInt32 := value &&& 0xFFFFF000

def clipLengthToKib (lengthLow lengthHigh : UInt32) : UInt32 :=
  if lengthHigh ≠ 0 then 0xFFFFFFFF else lengthLow / 1024

def addKib (target amount : UInt32) : UInt32 :=
  if 0xFFFFFFFF - target < amount then 0xFFFFFFFF else target + amount

def bitMask (page : UInt32) : UInt8 := 1 <<< (page % 8).toUInt8

def Pmm.pageIsUsed (s : Pmm) (page : UInt32) : Bool :=
  s.bitmap (page / 8).toNat &&& bitMask page != 0

def Pmm.setPageUsed (s : Pmm) (page : UInt32) : Pmm :=
  let index := (page / 8).toNat
  { s with bitmap := Function.update s.bitmap index (s.bitmap index ||| bitMask page) }

def Pmm.setPageFree (s : Pmm) (page : UInt32) : Pmm :=
  let index := (page / 8).toNat
  { s with bitmap := Function.update s.bitmap index (s.bitmap index &&& ~~~bitMask page) }

def Pmm.markPageFree (s : Pmm) (page : UInt32) : Pmm :=
  if s.stats.totalPages ≤ page ∨ s.pageIsUsed page = false then s
  else
    (s.setPageFree page).mapStats fun st =>
      { st with freePages := st.freePages + 1, usedPages := st.usedPages - 1 }

def Pmm.markPageUsed (s : Pmm) (page : UInt32) : Pmm :=
  if s.stats.totalPages ≤ page ∨ s.pageIsUsed page = true then s
  else
    (s.setPageUsed page).mapStats fun st =>
      { st with freePages := st.freePages - 1, usedPages := st.usedPages + 1 }

/-- The address loop of both range operations. The limit never exceeds the
tracked memory, so 2 ^ 18 passes always reach it. -/
def markPages (mark : Pmm → UInt32 → Pmm) (limit : UInt32) : ℕ → UInt32 → Pmm → Pmm
  | 0, _, s => s
  | passes + 1, address, s =>
    if address < limit then markPages mark limit passes (address + 4096) (mark s (address / 4096))
    else s

def Pmm.markRangeFree (s : Pmm) (base length : UInt32) : Pmm :=
  let start := alignUp base
  if length < 4096 then s
  else
    let limit := if base + length < base then maxTrackedMemory else alignDown (base + length)
    let limit := if maxTrackedMemory < limit then maxTrackedMemory else limit
    markPages Pmm.markPageFree limit (2 ^ 18) start s

def Pmm.markRangeUsed (s : Pmm) (base length : UInt32) : Pmm :=
  let start := alignDown base
  if length = 0 then s
  else
    let limit := if base + length < base then maxTrackedMemory else alignUp (base + length)
    let limit := if maxTrackedMemory < limit then maxTrackedMemory else limit
    markPages Pmm.markPageUsed limit (2 ^ 18) start s

def Pmm.prepareBitmap (s : Pmm) (highestAddress : UInt32) : Pmm :=
  let highestAddress :=
    if maxTrackedMemory < highestAddress then maxTrackedMemory else highestAddress
  let highestAddress := alignUp highestAddress
  let totalPages := highestAddress / 4096
  let totalPages := if 0x40000 < totalPages then 0x40000 else totalPages
  { s with
    bitmap := fun i => if i < 32768 then 0xFF else s.bitmap i
    stats := { s.stats with totalPages := totalPages, usedPages := totalPages, freePages := 0 } }

def entryEnd (entry : MmapEntry) : UInt32 :=
  if entry.baseAddrHigh = 0 ∧ entry.lengthHigh = 0 then
    let limit := entry.baseAddrLow + entry.lengthLow
    if limit < entry.baseAddrLow then maxTrackedMemory else limit
  else maxTrackedMemory

def mmapHighestAddress (m : Memory) (info : MultibootInfo) :
    ℕ → UInt32 → UInt32 → Option UInt32
  | 0, _, _ => none
  | fuel + 1, offset, highest =>
    if offset < info.mmapLength then
      let entry := mmapEntry m (info.mmapAddr + offset)
      let limit := entryEnd entry
      mmapHighestAddress m info fuel (offset + (entry.size + 4))
        (if highest < limit then limit else highest)
    else some highest

def PmmStats.addRegion (st : PmmStats) : PmmStats :=
  { st with regionCount := st.regionCount + 1 }

def PmmStats.addUsable (st : PmmStats) (lengthKib : UInt32) : PmmStats :=
  { st with usableRegionCount := st.usableRegionCount + 1
            usableMemoryKib := addKib st.usableMemoryKib lengthKib }

def PmmStats.addReserved (st : PmmStats) (lengthKib : UInt32) : PmmStats :=
  { st with reservedRegionCount := st.reservedRegionCount + 1
            reservedMemoryKib := addKib st.reservedMemoryKib lengthKib }

def PmmStats.addTotal (st : PmmStats) (lengthKib : UInt32) : PmmStats :=
  { st with totalMemoryKib := addKib st.totalMemoryKib lengthKib }

def Pmm.addRegion (s : Pmm) (entry : MmapEntry) (lengthKib : UInt32) : Pmm :=
  if entry.type = 1 then
    let s := s.mapStats fun st => st.addUsable lengthKib
    if entry.baseAddrHigh = 0 then s.markRangeFree entry.baseAddrLow entry.lengthLow else s
  else s.mapStats fun st => st.addReserved lengthKib

def Pmm.addEntry (s : Pmm) (entry : MmapEntry) : Pmm :=
  let lengthKib := clipLengthToKib entry.lengthLow entry.lengthHigh
  let s := s.mapStats PmmStats.addRegion
  let s := s.addRegion entry lengthKib
  s.mapStats fun st => st.addTotal lengthKib

def parseMmapLoop (m : Memory) (info : MultibootInfo) : ℕ → UInt32 → Pmm → Option Pmm
  | 0, _, _ => none
  | fuel + 1, offset, s =>
    if offset < info.mmapLength then
      let entry := mmapEntry m (info.mmapAddr + offset)
      parseMmapLoop m info fuel (offset + (entry.size + 4)) (s.addEntry entry)
    else some s

def Pmm.parseMmap (s : Pmm) (m : Memory) (info : MultibootInfo) (fuel : ℕ) : Option Pmm :=
  parseMmapLoop m info fuel 0 (s.mapStats fun st => { st with mmapAvailable := true })

def Pmm.initFromBasicMemory (s : Pmm) (info : MultibootInfo) : Pmm :=
  let s := s.mapStats fun st => { st with mmapAvailable := false }
  if info.flags &&& 1 ≠ 0 then
    let totalKib := info.memLower + info.memUpper + 1024
    let s := s.mapStats fun st => { st with
      totalMemoryKib := totalKib
      usableMemoryKib := info.memUpper
      reservedMemoryKib := totalKib - info.memUpper
      regionCount := 2
      usableRegionCount := 1
      reservedRegionCount := 1 }
    (s.prepareBitmap (totalKib * 1024)).markRangeFree lowMemoryLimit (info.memUpper * 1024)
  else
    let totalKib := 1024
    let s := s.mapStats fun st => { st with
      totalMemoryKib := totalKib
      usableMemoryKib := 0
      reservedMemoryKib := totalKib }
    s.prepareBitmap (totalKib * 1024)

def Pmm.reserveKernelRanges (s : Pmm) (kernelEnd infoAddr : UInt32) : Pmm :=
  let kernelEndAddress := alignUp kernelEnd
  let s := s.markRangeUsed 0 lowMemoryLimit
  let s := s.markRangeUsed lowMemoryLimit (kernelEndAddress - lowMemoryLimit)
  if infoAddr ≠ 0 then s.markRangeUsed infoAddr 4096 else s

def Pmm.cleared (s : Pmm) : Pmm where
  bitmap := s.bitmap
  stats := ⟨0, 0, 0, 0, 0, 0, 0, 0, 0, false, false⟩
  nextSearchPage := 0

def Pmm.detect (s : Pmm) (m : Memory) (infoAddr : UInt32) (fuel : ℕ) : Option Pmm :=
  let info := multibootInfo m infoAddr
  if infoAddr ≠ 0 ∧ info.flags &&& 64 ≠ 0 ∧ info.mmapAddr ≠ 0 ∧ info.mmapLength ≠ 0 then
    match mmapHighestAddress m info fuel 0 lowMemoryLimit with
    | none => none
    | some highestAddress => (s.prepareBitmap highestAddress).parseMmap m info fuel
  else if infoAddr ≠ 0 then some (s.initFromBasicMemory info)
  else
    some ((s.prepareBitmap lowMemoryLimit).mapStats fun st =>
      { st with totalMemoryKib := 1024, reservedMemoryKib := 1024 })

/-- Initialisation over any earlier contents of the bitmap. -/
def Pmm.init (s : Pmm) (m : Memory) (kernelEnd infoAddr : UInt32) (fuel : ℕ) : Option Pmm :=
  match s.cleared.detect m infoAddr fuel with
  | none => none
  | some s =>
    some ((s.reserveKernelRanges kernelEnd infoAddr).mapStats fun st =>
      { st with initialized := true })

def Pmm.allocScan (s : Pmm) : ℕ → UInt32 → UInt32 × Pmm
  | 0, _ => (0, s)
  | passes + 1, scanned =>
    let page := (s.nextSearchPage + scanned) % s.stats.totalPages
    if s.pageIsUsed page = false then
      (page * 4096, { s.markPageUsed page with nextSearchPage := page + 1 })
    else s.allocScan passes (scanned + 1)

/-- A null pointer is the address 0. -/
def Pmm.allocPage (s : Pmm) : UInt32 × Pmm :=
  if s.stats.initialized = false ∨ s.stats.freePages = 0 then (0, s)
  else s.allocScan s.stats.totalPages.toNat 0

def Pmm.freePage (s : Pmm) (address : UInt32) : Pmm :=
  if s.stats.initialized = false ∨ address = 0 ∨ address % 4096 ≠ 0 then s
  else s.markPageFree (address / 4096)

inductive PmmOp where
  | allocPage
  | freePage (address : UInt32)

def step (s : Pmm) : PmmOp → Pmm
  | .allocPage => s.allocPage.2
  | .freePage address => s.freePage address

end Hnmos.PageAllocator
