import Mathlib
import Hnmos.Graphics
import Hnmos.PitchedRows

/-!
# The framebuffer the boot loader describes

The description is taken over when its fields are present and the format is
one that can be drawn; the pitch and the colour masks are not compared with
the rest. Said exactly: pixels stay inside the buffer and apart from each
other, and colours are packed by shifts below 32, when the rows fit the pitch
and the address space and the masks are short enough.
-/

set_option autoImplicit false

namespace Hnmos.FramebufferAcceptance
open Hnmos.Surface Hnmos.Graphics Hnmos.PitchedRows
open Hnmos.PageAllocator (Memory)

structure BootGraphics where
  flags : UInt32
  addrLow : UInt32
  addrHigh : UInt32
  pitch : UInt32
  width : UInt32
  height : UInt32
  bpp : UInt8
  type : UInt8
  redPosition : UInt8
  redMaskSize : UInt8
  greenPosition : UInt8
  greenMaskSize : UInt8
  bluePosition : UInt8
  blueMaskSize : UInt8
  deriving DecidableEq

/-- The packed information block, read as the graphics code declares it. -/
def bootGraphics (m : Memory) (address : UInt32) : BootGraphics where
  flags := m.u32 address
  addrLow := m.u32 (address + 88)
  addrHigh := m.u32 (address + 92)
  pitch := m.u32 (address + 96)
  width := m.u32 (address + 100)
  height := m.u32 (address + 104)
  bpp := m (address + 108)
  type := m (address + 109)
  redPosition := m (address + 110)
  redMaskSize := m (address + 111)
  greenPosition := m (address + 112)
  greenMaskSize := m (address + 113)
  bluePosition := m (address + 114)
  blueMaskSize := m (address + 115)

def supportedBpp (bpp : UInt8) : Bool := bpp == 16 || bpp == 24 || bpp == 32

theorem supportedBpp_cases (bpp : UInt8) (h : supportedBpp bpp = true) :
    bpp = 16 ∨ bpp = 24 ∨ bpp = 32 := by
  simpa [supportedBpp, or_assoc] using h

def setDefaultMasks (v : Video) : Video :=
  if v.bpp = 16 then
    { v with
      redPosition := 11
      redMaskSize := 5
      greenPosition := 5
      greenMaskSize := 6
      bluePosition := 0
      blueMaskSize := 5 }
  else
    { v with
      redPosition := 16
      redMaskSize := 8
      greenPosition := 8
      greenMaskSize := 8
      bluePosition := 0
      blueMaskSize := 8 }

def BootGraphics.video (info : BootGraphics) (h : supportedBpp info.bpp = true) : Video where
  width := info.width
  height := info.height
  bpp := info.bpp
  available := true
  address := info.addrLow
  pitch := info.pitch
  redPosition := info.redPosition
  redMaskSize := info.redMaskSize
  greenPosition := info.greenPosition
  greenMaskSize := info.greenMaskSize
  bluePosition := info.bluePosition
  blueMaskSize := info.blueMaskSize
  supported := fun _ => supportedBpp_cases info.bpp h

/-- A description is refused, or taken over with the default masks in place of
incomplete ones. -/
def BootGraphics.accept (info : BootGraphics) : Option Video :=
  if info.flags &&& 4096 = 0 then none
  else if info.addrHigh ≠ 0 then none
  else if info.type ≠ 1 then none
  else if h : supportedBpp info.bpp = true then
    if info.addrLow = 0 ∨ info.width = 0 ∨ info.height = 0 ∨ info.pitch = 0 then none
    else if info.redMaskSize = 0 ∨ info.greenMaskSize = 0 ∨ info.blueMaskSize = 0 then
      some (setDefaultMasks (info.video h))
    else some (info.video h)
  else none

def initMultiboot (m : Memory) (infoAddr : UInt32) : Option Video :=
  if infoAddr = 0 then none else (bootGraphics m infoAddr).accept

def writes (v : Video) (p : Pixel) : Set UInt32 := {a | ∃ m : Memory, v.putPixel m p a ≠ m a}

def componentShift (maskSize : UInt8) : ℕ :=
  if maskSize = 0 then 0
  else if maskSize ≥ 8 then maskSize.toNat - 8
  else 8 - maskSize.toNat

def packShifts (v : Video) : List ℕ :=
  [componentShift v.redMaskSize, v.redPosition.toNat, componentShift v.greenMaskSize,
    v.greenPosition.toNat, componentShift v.blueMaskSize, v.bluePosition.toNat]

structure SafeToDraw (v : Video) : Prop where
  inside : ∀ p : Pixel, v.onScreen p.x p.y = true → ∀ a ∈ writes v p,
    v.address.toNat ≤ a.toNat ∧ a.toNat < v.address.toNat + v.pitch.toNat * v.height.toNat
  apart : ∀ p q : Pixel, v.onScreen p.x p.y = true → v.onScreen q.x q.y = true →
    ¬ (p.x = q.x ∧ p.y = q.y) → Disjoint (writes v p) (writes v q)
  shifts : ∀ n ∈ packShifts v, n < 32

def rowBytes (v : Video) : ℕ := v.width.toNat * v.bytesPerPixel.toNat

theorem bytesPerPixel_bounds (v : Video) (h : v.available = true) :
    0 < v.bytesPerPixel.toNat ∧ v.bytesPerPixel.toNat ≤ 4 := by
  rw [Video.bytesPerPixel]
  rcases v.supported h with hbpp | hbpp | hbpp
  · rw [hbpp]
    decide
  · rw [hbpp]
    decide
  · rw [hbpp]
    decide

theorem writes_eq_footprint (v : Video) (p : Pixel) : writes v p = v.footprint p.x p.y := by
  ext a
  constructor
  · rintro ⟨m, hm⟩
    by_contra hout
    exact hm (putPixel_confined v p m a hout)
  · rintro ⟨hon, i, hi, rfl⟩
    have ha := ((onScreen_iff v p.x p.y).mp hon).1
    have hlength := pixelBytes_length v p.color ha
    have hfour := (bytesPerPixel_bounds v ha).2
    have hbyte : i < (v.pixelBytes p.color).length := hlength ▸ hi
    refine ⟨fun _ => (v.pixelBytes p.color)[i] + 1, ?_⟩
    rw [Video.putPixel, if_pos hon, store_at _ _ _ i hbyte (by omega)]
    intro heq
    have hne := UInt8.toNat_inj.mpr heq
    rw [UInt8.toNat_add] at hne
    have hlt := ((v.pixelBytes p.color)[i]).toNat_lt
    change _ = (_ + 1) % 2 ^ 8 at hne
    omega

theorem pixelAddress_row (v : Video) (x y : UInt32) (i : ℕ) :
    (v.pixelAddress x y + UInt32.ofNat i).toNat =
      address (2 ^ 32) v.address.toNat v.pitch.toNat y.toNat
        (x.toNat * v.bytesPerPixel.toNat + i) := by
  simp only [Video.pixelAddress, UInt32.toNat_add, UInt32.toNat_mul, UInt32.toNat_ofNat', address]
  generalize y.toNat * v.pitch.toNat = rowStart
  generalize x.toNat * v.bytesPerPixel.toNat = column
  omega

theorem byte_in_row (v : Video) (x y : UInt32) (i : ℕ) (hon : v.onScreen x y = true)
    (hi : i < v.bytesPerPixel.toNat) :
    y.toNat < v.height.toNat ∧ x.toNat * v.bytesPerPixel.toNat + i < rowBytes v := by
  obtain ⟨_, hx, hy⟩ := (onScreen_iff v x y).mp hon
  have hnext : (x.toNat + 1) * v.bytesPerPixel.toNat ≤ rowBytes v :=
    Nat.mul_le_mul_right v.bytesPerPixel.toNat hx
  rw [Nat.add_mul, Nat.one_mul] at hnext
  exact ⟨hy, by omega⟩

theorem pixel_of_byte (v : Video) (ha : v.available = true) (y j : ℕ) (hy : y < v.height.toNat)
    (hj : j < rowBytes v) :
    ∃ p : Pixel, v.onScreen p.x p.y = true ∧ p.y.toNat = y ∧ ∃ i < v.bytesPerPixel.toNat,
      p.x.toNat * v.bytesPerPixel.toNat + i = j := by
  have hbytes := (bytesPerPixel_bounds v ha).1
  have hx : j / v.bytesPerPixel.toNat < v.width.toNat := (Nat.div_lt_iff_lt_mul hbytes).mpr hj
  have hwidth := v.width.toNat_lt
  have hheight := v.height.toNat_lt
  have hcolumn : (UInt32.ofNat (j / v.bytesPerPixel.toNat)).toNat = j / v.bytesPerPixel.toNat :=
    UInt32.toNat_ofNat_of_lt' (hx.trans hwidth)
  have hrow : (UInt32.ofNat y).toNat = y := UInt32.toNat_ofNat_of_lt' (hy.trans hheight)
  refine ⟨⟨UInt32.ofNat (j / v.bytesPerPixel.toNat), UInt32.ofNat y, 0⟩, ?_, hrow,
    j % v.bytesPerPixel.toNat, Nat.mod_lt _ hbytes, ?_⟩
  · rw [onScreen_iff, hcolumn, hrow]
    exact ⟨ha, hx, hy⟩
  · rw [hcolumn]
    exact Nat.div_add_mod' j v.bytesPerPixel.toNat

section
variable (v : Video)

theorem inside_iff (ha : v.available = true) :
    (∀ p : Pixel, v.onScreen p.x p.y = true → ∀ a ∈ writes v p,
      v.address.toNat ≤ a.toNat ∧ a.toNat < v.address.toNat + v.pitch.toNat * v.height.toNat) ↔
    Inside (2 ^ 32) v.address.toNat v.pitch.toNat (rowBytes v) v.height.toNat := by
  constructor
  · intro h y j hy hj
    obtain ⟨p, hon, hrow, i, hi, hbyte⟩ := pixel_of_byte v ha y j hy hj
    have hwritten : v.pixelAddress p.x p.y + UInt32.ofNat i ∈ writes v p := by
      rw [writes_eq_footprint]
      exact ⟨hon, i, hi, rfl⟩
    have hinside := h p hon _ hwritten
    rwa [pixelAddress_row, hrow, hbyte] at hinside
  · intro h p hon a hwritten
    rw [writes_eq_footprint] at hwritten
    obtain ⟨_, i, hi, rfl⟩ := hwritten
    obtain ⟨hy, hj⟩ := byte_in_row v p.x p.y i hon hi
    rw [pixelAddress_row]
    exact h _ _ hy hj

theorem apart_iff (ha : v.available = true) :
    (∀ p q : Pixel, v.onScreen p.x p.y = true → v.onScreen q.x q.y = true →
      ¬ (p.x = q.x ∧ p.y = q.y) → Disjoint (writes v p) (writes v q)) ↔
    Apart (2 ^ 32) v.address.toNat v.pitch.toNat (rowBytes v) v.height.toNat := by
  obtain ⟨hbytes, hfour⟩ := bytesPerPixel_bounds v ha
  constructor
  · intro h y j y' j' hy hj hy' hj' heq
    obtain ⟨p, hon, rfl, i, hi, rfl⟩ := pixel_of_byte v ha y j hy hj
    obtain ⟨q, hon', rfl, i', hi', rfl⟩ := pixel_of_byte v ha y' j' hy' hj'
    rw [← pixelAddress_row, ← pixelAddress_row] at heq
    have hshared := UInt32.toNat_inj.mp heq
    have hsame : p.x = q.x ∧ p.y = q.y := by
      by_contra hdifferent
      have hdisjoint := h p q hon hon' hdifferent
      rw [writes_eq_footprint, writes_eq_footprint] at hdisjoint
      exact Set.disjoint_left.mp hdisjoint ⟨hon, i, hi, rfl⟩ ⟨hon', i', hi', hshared⟩
    rw [hsame.1, hsame.2] at hshared ⊢
    have hbyte := congrArg UInt32.toNat ((UInt32.add_right_inj _).mp hshared)
    rw [UInt32.toNat_ofNat_of_lt' (by change i < 2 ^ 32; omega),
      UInt32.toNat_ofNat_of_lt' (by change i' < 2 ^ 32; omega)] at hbyte
    exact ⟨rfl, by rw [hbyte]⟩
  · intro h p q hon hon' hdifferent
    rw [writes_eq_footprint, writes_eq_footprint, Set.disjoint_left]
    rintro a ⟨_, i, hi, rfl⟩ ⟨_, i', hi', heq⟩
    obtain ⟨hy, hj⟩ := byte_in_row v p.x p.y i hon hi
    obtain ⟨hy', hj'⟩ := byte_in_row v q.x q.y i' hon' hi'
    have haddress := congrArg UInt32.toNat heq
    rw [pixelAddress_row, pixelAddress_row] at haddress
    obtain ⟨hrow, hbyte⟩ := h _ _ _ _ hy hj hy' hj' haddress
    have hcolumn := congrArg (· / v.bytesPerPixel.toNat) hbyte
    simp only [Nat.mul_comm _ v.bytesPerPixel.toNat, Nat.mul_add_div hbytes, Nat.div_eq_of_lt hi,
      Nat.div_eq_of_lt hi', Nat.add_zero] at hcolumn
    exact hdifferent ⟨UInt32.toNat_inj.mp hcolumn, UInt32.toNat_inj.mp hrow⟩

end

/-- Masks that make no shift reach 32. -/
def ShallowMasks (sizes positions : List UInt8) : Prop :=
  (∀ maskSize ∈ sizes, maskSize.toNat < 40) ∧ ∀ position ∈ positions, position.toNat < 32

def Shallow (v : Video) : Prop :=
  ShallowMasks [v.redMaskSize, v.greenMaskSize, v.blueMaskSize]
    [v.redPosition, v.greenPosition, v.bluePosition]

theorem componentShift_lt (maskSize : UInt8) :
    componentShift maskSize < 32 ↔ maskSize.toNat < 40 := by
  have hge : maskSize ≥ 8 ↔ 8 ≤ maskSize.toNat := UInt8.le_iff_toNat_le
  rw [componentShift]
  by_cases hzero : maskSize = 0
  · rw [if_pos hzero, hzero]
    decide
  · rw [if_neg hzero]
    by_cases hwide : maskSize ≥ 8
    · rw [if_pos hwide]
      have hlow := hge.mp hwide
      omega
    · rw [if_neg hwide]
      rw [hge] at hwide
      omega

theorem shifts_iff (v : Video) : (∀ n ∈ packShifts v, n < 32) ↔ Shallow v := by
  simp only [packShifts, Shallow, ShallowMasks, List.forall_mem_cons, List.not_mem_nil,
    false_imp_iff, implies_true, and_true, componentShift_lt]
  tauto

theorem setDefaultMasks_shallow (v : Video) : Shallow (setDefaultMasks v) := by
  have hsixteen : ShallowMasks [5, 6, 5] [11, 5, 0] := ⟨by decide +kernel, by decide +kernel⟩
  have hdeep : ShallowMasks [8, 8, 8] [16, 8, 0] := ⟨by decide +kernel, by decide +kernel⟩
  rw [setDefaultMasks]
  split_ifs
  · exact hsixteen
  · exact hdeep

theorem setDefaultMasks_rest (v : Video) :
    (setDefaultMasks v).toFramebuffer = v.toFramebuffer ∧
      (setDefaultMasks v).address = v.address ∧ (setDefaultMasks v).pitch = v.pitch := by
  rw [setDefaultMasks]
  split_ifs
  · exact ⟨rfl, rfl, rfl⟩
  · exact ⟨rfl, rfl, rfl⟩

theorem safeToDraw_iff (v : Video) (ha : v.available = true) (haddress : v.address ≠ 0)
    (hwidth : v.width ≠ 0) (hheight : v.height ≠ 0) :
    SafeToDraw v ↔
      Fits (2 ^ 32) v.address.toNat v.pitch.toNat (rowBytes v) v.height.toNat ∧ Shallow v := by
  have hpos : ∀ n : UInt32, n ≠ 0 → 0 < n.toNat := by
    intro n hn
    exact Nat.pos_of_ne_zero fun hzero => hn (UInt32.toNat_inj.mp hzero)
  have hrow : 0 < rowBytes v := Nat.mul_pos (hpos _ hwidth) (bytesPerPixel_bounds v ha).1
  rw [← fits_iff (hpos _ haddress) v.address.toNat_lt hrow (hpos _ hheight) v.pitch.toNat_lt,
    ← inside_iff v ha, ← apart_iff v ha, ← shifts_iff]
  constructor
  · rintro ⟨hinside, hapart, hshifts⟩
    exact ⟨⟨hinside, hapart⟩, hshifts⟩
  · rintro ⟨⟨hinside, hapart⟩, hshifts⟩
    exact ⟨hinside, hapart, hshifts⟩

def BootGraphics.rowBytes (info : BootGraphics) : ℕ := info.width.toNat * (info.bpp.toNat / 8)

/-- A mask size is missing, and the default masks are used. -/
def BootGraphics.Unmasked (info : BootGraphics) : Prop :=
  info.redMaskSize = 0 ∨ info.greenMaskSize = 0 ∨ info.blueMaskSize = 0

structure BootGraphics.Sound (info : BootGraphics) : Prop where
  rows : Fits (2 ^ 32) info.addrLow.toNat info.pitch.toNat info.rowBytes info.height.toNat
  masks : info.Unmasked ∨
    ShallowMasks [info.redMaskSize, info.greenMaskSize, info.blueMaskSize]
      [info.redPosition, info.greenPosition, info.bluePosition]

theorem accept_some (info : BootGraphics) (v : Video) (h : info.accept = some v) :
    info.addrLow ≠ 0 ∧ info.width ≠ 0 ∧ info.height ≠ 0 ∧
      v.toFramebuffer = ⟨info.width, info.height, info.bpp, true⟩ ∧
      v.address = info.addrLow ∧ v.pitch = info.pitch ∧
      (Shallow v ↔ info.Unmasked ∨
        ShallowMasks [info.redMaskSize, info.greenMaskSize, info.blueMaskSize]
          [info.redPosition, info.greenPosition, info.bluePosition]) := by
  rw [BootGraphics.accept] at h
  split_ifs at h with hflags hhigh htype hbpp hzero hmasks
  · obtain rfl := Option.some.inj h
    simp only [not_or] at hzero
    obtain ⟨hrest, haddress, hpitch⟩ := setDefaultMasks_rest (info.video hbpp)
    exact ⟨hzero.1, hzero.2.1, hzero.2.2.1, hrest, haddress, hpitch, fun _ => Or.inl hmasks,
      fun _ => setDefaultMasks_shallow _⟩
  · obtain rfl := Option.some.inj h
    simp only [not_or] at hzero
    refine ⟨hzero.1, hzero.2.1, hzero.2.2.1, rfl, rfl, rfl, Or.inr, ?_⟩
    intro hgood
    rcases hgood with hunmasked | hshallow
    · exact absurd hunmasked hmasks
    · exact hshallow

theorem rowBytes_of_description (info : BootGraphics) (v : Video)
    (h : v.toFramebuffer = ⟨info.width, info.height, info.bpp, true⟩) :
    rowBytes v = info.rowBytes := by
  rw [rowBytes, Video.bytesPerPixel, h, BootGraphics.rowBytes, UInt32.toNat_div]
  rfl

theorem accept_safe_iff (info : BootGraphics) (v : Video) (h : info.accept = some v) :
    SafeToDraw v ↔ info.Sound := by
  obtain ⟨haddr, hwidth, hheight, hframe, haddress, hpitch, hmasks⟩ := accept_some info v h
  have ha : v.available = true := by rw [hframe]
  have hw : v.width = info.width := by rw [hframe]
  have hh : v.height = info.height := by rw [hframe]
  rw [safeToDraw_iff v ha (haddress ▸ haddr) (hw ▸ hwidth) (hh ▸ hheight), hmasks,
    rowBytes_of_description info v hframe, haddress, hpitch, hh]
  constructor
  · rintro ⟨hrows, hgood⟩
    exact ⟨hrows, hgood⟩
  · rintro ⟨hrows, hgood⟩
    exact ⟨hrows, hgood⟩

/-- An accepted framebuffer is safe to draw on exactly when the description is
sound: a row of pixels is no longer than the pitch, the rows stay inside the
address space and clear of the first one, and the masks are shallow or not
used. -/
theorem accepted_safe_iff (m : Memory) (infoAddr : UInt32) (v : Video)
    (h : initMultiboot m infoAddr = some v) :
    SafeToDraw v ↔ (bootGraphics m infoAddr).Sound := by
  rw [initMultiboot] at h
  split_ifs at h
  exact accept_safe_iff _ v h

def describedMemory (pitch : List UInt8) : Memory := fun address =>
  ([0, 16, 0, 0] ++ List.replicate 84 0 ++ [0, 0, 0, 0xFD] ++ [0, 0, 0, 0] ++ pitch ++
    [0, 4, 0, 0] ++ [0, 3, 0, 0] ++ [32, 1, 16, 8, 8, 8, 0, 8] : List UInt8).getD
    (address - 0x9000).toNat 0

def described (pitch : UInt32) : BootGraphics :=
  ⟨4096, 0xFD000000, 0, pitch, 1024, 768, 32, 1, 16, 8, 8, 8, 0, 8⟩

theorem accepted_safe_full :
    ∃ v, initMultiboot (describedMemory [0, 16, 0, 0]) 0x9000 = some v ∧ SafeToDraw v := by
  have hinfo : bootGraphics (describedMemory [0, 16, 0, 0]) 0x9000 = described 4096 := by
    decide
  have haccepted : (described 4096).accept.isSome = true := by decide
  obtain ⟨v, hv⟩ := Option.isSome_iff_exists.mp haccepted
  have hinit : initMultiboot (describedMemory [0, 16, 0, 0]) 0x9000 = some v := by
    rw [initMultiboot, if_neg (by decide), hinfo, hv]
  refine ⟨v, hinit, (accepted_safe_iff _ _ v hinit).mpr ?_⟩
  rw [hinfo]
  refine ⟨(fits_flat_iff ?_ ?_ ?_).mpr ?_, Or.inr ⟨?_, ?_⟩⟩ <;> decide +kernel

/-- A pitch of a quarter of a row is accepted, and pixels overlap. -/
theorem narrow_pitch_accepted :
    ∃ v, initMultiboot (describedMemory [0, 4, 0, 0]) 0x9000 = some v ∧ ¬ SafeToDraw v := by
  have hinfo : bootGraphics (describedMemory [0, 4, 0, 0]) 0x9000 = described 1024 := by
    decide
  have haccepted : (described 1024).accept.isSome = true := by decide
  obtain ⟨v, hv⟩ := Option.isSome_iff_exists.mp haccepted
  refine ⟨v, ?_, ?_⟩
  · rw [initMultiboot, if_neg (by decide), hinfo, hv]
  · intro hsafe
    have hrow := ((accept_safe_iff _ v hv).mp hsafe).rows.row
    exact absurd hrow (by decide)

end Hnmos.FramebufferAcceptance
