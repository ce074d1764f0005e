import Mathlib

/-!
# Rows in an address space that wraps around

Rows of equal length start at multiples of a pitch from a base, and addresses
are taken modulo the size of the address space. The bytes of the rows lie
between the base and the end of the last row, and no two of them coincide,
exactly when a row is no longer than the pitch, every row ends inside the
address space, and no row but the first starts within a row's length of the
base.
-/

set_option autoImplicit false

namespace Hnmos.PitchedRows

variable (size base pitch length rows : ℕ)

def address (y i : ℕ) : ℕ := (base + y * pitch + i) % size

/-- Every byte lies between the base and the end of the rows, computed without
wrapping. -/
def Inside : Prop :=
  ∀ y i, y < rows → i < length →
    base ≤ address size base pitch y i ∧ address size base pitch y i < base + pitch * rows

def Apart : Prop :=
  ∀ y i y' i', y < rows → i < length → y' < rows → i' < length →
    address size base pitch y i = address size base pitch y' i' → y = y' ∧ i = i'

def offset (y : ℕ) : ℕ := y * pitch % size

structure Fits : Prop where
  row : length ≤ pitch
  ends : ∀ y, y < rows → base + offset size pitch y + length ≤ size
  clear : ∀ y, 0 < y → y < rows → length ≤ offset size pitch y

variable {size base pitch length rows}

theorem address_offset (y i : ℕ) :
    address size base pitch y i = (base + offset size pitch y + i) % size := by
  rw [address, offset]
  have h := Nat.mod_add_div (y * pitch) size
  conv_lhs => rw [← h]
  have harrange : base + (y * pitch % size + size * (y * pitch / size)) + i =
      base + y * pitch % size + i + size * (y * pitch / size) := by omega
  rw [harrange, Nat.add_mul_mod_self_left]

theorem offset_lt (hsize : 0 < size) (y : ℕ) : offset size pitch y < size := Nat.mod_lt _ hsize

theorem address_of_ends (y i : ℕ) (h : base + offset size pitch y + length ≤ size)
    (hi : i < length) : address size base pitch y i = base + offset size pitch y + i := by
  rw [address_offset, Nat.mod_eq_of_lt (by omega)]

theorem ends_of_inside (hbase : 0 < base) (hlt : base < size) (hlength : 0 < length)
    (h : Inside size base pitch length rows) (y : ℕ) (hy : y < rows) :
    base + offset size pitch y + length ≤ size := by
  have hoffset : offset size pitch y < size := offset_lt (Nat.zero_lt_of_lt hlt) y
  by_contra hover
  by_cases hstart : size ≤ base + offset size pitch y
  · -- the first byte falls before the base
    have hfirst := (h y 0 hy hlength).1
    rw [address_offset, Nat.add_zero, Nat.mod_eq_sub_mod hstart,
      Nat.mod_eq_of_lt (by omega)] at hfirst
    omega
  · -- the byte after the end of the address space falls on 0
    have hwrapped := (h y (size - (base + offset size pitch y)) hy (by omega)).1
    rw [address_offset, Nat.add_sub_cancel' (by omega), Nat.mod_self] at hwrapped
    omega

theorem offset_zero : offset size pitch 0 = 0 := by rw [offset, Nat.zero_mul, Nat.zero_mod]

theorem fits_of_apart (hbase : 0 < base) (hlt : base < size) (hlength : 0 < length)
    (hrows : 0 < rows) (hpitch : pitch < size) (hinside : Inside size base pitch length rows)
    (hapart : Apart size base pitch length rows) : Fits size base pitch length rows := by
  have hends := ends_of_inside hbase hlt hlength hinside
  have hfirst := hends 0 hrows
  rw [offset_zero] at hfirst
  have hclear : ∀ y, 0 < y → y < rows → length ≤ offset size pitch y := by
    intro y hpos hy
    by_contra hshort
    -- the first byte of the row is a byte of the first row
    have hsame : address size base pitch 0 (offset size pitch y) = address size base pitch y 0 := by
      rw [address_of_ends 0 _ (hends 0 hrows) (by omega), address_of_ends y 0 (hends y hy) hlength,
        offset_zero, Nat.add_zero, Nat.add_zero]
    have hzero := (hapart 0 _ y 0 hrows (by omega) hy hlength hsame).1
    omega
  refine ⟨?_, hends, hclear⟩
  by_cases hone : 1 < rows
  · have hsecond := hclear 1 Nat.one_pos hone
    rwa [offset, Nat.one_mul, Nat.mod_eq_of_lt hpitch] at hsecond
  · -- a single row ends where the buffer does
    have hrows : rows = 1 := by omega
    by_contra hlong
    have hlast := (hinside 0 pitch (by omega) (by omega)).2
    rw [address_of_ends 0 _ (hends 0 (by omega)) (by omega), offset_zero, hrows] at hlast
    omega

theorem inside_of_fits (h : Fits size base pitch length rows) :
    Inside size base pitch length rows := by
  intro y i hy hi
  have hends := h.ends y hy
  rw [address_of_ends y i hends hi]
  refine ⟨by omega, ?_⟩
  by_cases hflat : pitch * rows < size
  · have hrow : y * pitch + pitch ≤ pitch * rows := by
      rw [← Nat.succ_mul, Nat.mul_comm]
      exact Nat.mul_le_mul_left pitch hy
    have hrowpitch := h.row
    rw [offset, Nat.mod_eq_of_lt (by omega)]
    omega
  · omega

theorem offset_add (y d : ℕ) :
    offset size pitch (y + d) = (offset size pitch y + offset size pitch d) % size := by
  rw [offset, offset, offset, Nat.add_mul, Nat.add_mod]

theorem rows_apart (h : Fits size base pitch length rows) (y d i i' : ℕ) (hd : 0 < d)
    (hy : y + d < rows) (hi : i < length) (hi' : i' < length) :
    address size base pitch y i ≠ address size base pitch (y + d) i' := by
  have hfirst := h.ends y (by omega)
  have hsecond := h.ends (y + d) hy
  have hends := h.ends d (by omega)
  have hclear := h.clear d hd (by omega)
  rw [address_of_ends y i hfirst hi, address_of_ends (y + d) i' hsecond hi', offset_add]
  by_cases hwrap : offset size pitch y + offset size pitch d < size
  · rw [Nat.mod_eq_of_lt hwrap]
    omega
  · rw [Nat.mod_eq_sub_mod (Nat.not_lt.mp hwrap), Nat.mod_eq_of_lt (by omega)]
    omega

theorem apart_of_fits (h : Fits size base pitch length rows) :
    Apart size base pitch length rows := by
  intro y i y' i' hy hi hy' hi' heq
  rcases Nat.lt_trichotomy y y' with hlt | rfl | hgt
  · obtain ⟨d, rfl⟩ := Nat.exists_eq_add_of_lt hlt
    exact absurd heq (rows_apart h y (d + 1) i i' (Nat.succ_pos d) hy' hi hi')
  · rw [address_of_ends y i (h.ends y hy) hi, address_of_ends y i' (h.ends y hy) hi'] at heq
    exact ⟨rfl, by omega⟩
  · obtain ⟨d, rfl⟩ := Nat.exists_eq_add_of_lt hgt
    exact absurd heq.symm (rows_apart h y' (d + 1) i' i (Nat.succ_pos d) hy hi' hi)

theorem fits_iff (hbase : 0 < base) (hlt : base < size) (hlength : 0 < length) (hrows : 0 < rows)
    (hpitch : pitch < size) :
    Inside size base pitch length rows ∧ Apart size base pitch length rows ↔
      Fits size base pitch length rows :=
  ⟨fun h => fits_of_apart hbase hlt hlength hrows hpitch h.1 h.2,
    fun h => ⟨inside_of_fits h, apart_of_fits h⟩⟩

/-- Rows that do not come round fit when the last one ends inside. -/
theorem fits_flat_iff (hrows : 0 < rows) (hflat : (rows - 1) * pitch < size)
    (hrow : length ≤ pitch) :
    Fits size base pitch length rows ↔ base + (rows - 1) * pitch + length ≤ size := by
  have hoffset : ∀ y, y < rows →
      offset size pitch y = y * pitch ∧ y * pitch ≤ (rows - 1) * pitch := by
    intro y hy
    have hle : y * pitch ≤ (rows - 1) * pitch := Nat.mul_le_mul_right pitch (by omega)
    exact ⟨Nat.mod_eq_of_lt (by omega), hle⟩
  constructor
  · intro h
    have hlast := h.ends (rows - 1) (by omega)
    rwa [(hoffset (rows - 1) (by omega)).1] at hlast
  · intro hlast
    refine ⟨hrow, ?_, ?_⟩
    · intro y hy
      obtain ⟨hsame, hle⟩ := hoffset y hy
      omega
    · intro y hpos hy
      rw [(hoffset y hy).1]
      exact hrow.trans (Nat.le_mul_of_pos_left pitch hpos)

end Hnmos.PitchedRows
