import Mathlib
import Hnmos.Graphics

/-!
# The picture on the screen

The picture is read off the framebuffer: the bytes of the pixel at a position.
Painting puts the bytes of a colour at the pixels it covers, and scrolling
moves every line up by eight.
-/

set_option autoImplicit false

namespace Hnmos.PixelRows
open Hnmos.Surface Hnmos.Font Hnmos.Overwrite Hnmos.PageAllocator Hnmos.Graphics

def picture (v : Video) (m : Memory) (x y : ℕ) : List UInt8 :=
  (List.range v.bytesPerPixel.toNat).map fun i =>
    m (v.pixelAddress (UInt32.ofNat x) (UInt32.ofNat y) + UInt32.ofNat i)

theorem toNat_ofNat (v : Video) (x : ℕ) (h : x < v.width.toNat ∨ x < v.height.toNat) :
    (UInt32.ofNat x).toNat = x := by
  have hwidth := v.width.toNat_lt
  have hheight := v.height.toNat_lt
  exact UInt32.toNat_ofNat_of_lt' (by
    change x < 2 ^ 32
    omega)

theorem onScreen_ofNat (v : Video) (hs : v.Separate) (x y : ℕ) (hx : x < v.width.toNat)
    (hy : y < v.height.toNat) : v.onScreen (UInt32.ofNat x) (UInt32.ofNat y) = true := by
  rw [onScreen_iff, toNat_ofNat v x (Or.inl hx), toNat_ofNat v y (Or.inr hy)]
  exact ⟨hs.available, hx, hy⟩

/-- A list of pixels leaves the bytes of the last colour put at a position, or
the pixel as it was. -/
theorem picture_putPixels (v : Video) (hs : v.Separate) (m : Memory) (ps : List Pixel) (x y : ℕ)
    (hx : x < v.width.toNat) (hy : y < v.height.toNat) :
    picture v (ps.foldl v.putPixel m) x y =
      ((lastColor ps (UInt32.ofNat x) (UInt32.ofNat y)).map v.pixelBytes).getD
        (picture v m x y) := by
  have hon := onScreen_ofNat v hs x y hx hy
  have hbyte : ∀ i < v.bytesPerPixel.toNat,
      ps.foldl v.putPixel m (v.pixelAddress (UInt32.ofNat x) (UInt32.ofNat y) + UInt32.ofNat i) =
        v.byteOf (lastColor ps (UInt32.ofNat x) (UInt32.ofNat y)) i
          (m (v.pixelAddress (UInt32.ofNat x) (UInt32.ofNat y) + UInt32.ofNat i)) :=
    fun i hi => putPixels_at v hs m ps _ _ i hon hi
  cases hcolor : lastColor ps (UInt32.ofNat x) (UInt32.ofNat y) with
  | none =>
    apply List.map_congr_left
    intro i hi
    rw [hbyte i (List.mem_range.mp hi), hcolor]
    rfl
  | some color =>
    have hlength := pixelBytes_length v color hs.available
    apply List.ext_getElem
    · rw [picture, List.length_map, List.length_range]
      exact hlength.symm
    · intro i hi _
      rw [picture, List.length_map, List.length_range] at hi
      simp only [picture, List.getElem_map, List.getElem_range]
      rw [hbyte i hi, hcolor]
      exact List.getD_eq_getElem _ _ (hlength ▸ hi)

theorem picture_shape (v : Video) (hs : v.Separate) (m : Memory) (ps : List Pixel) (color : Color)
    (shape : ℕ → ℕ → Prop) [DecidableRel shape]
    (hps : ∀ p : Pixel, p ∈ ps ↔
      (v.onScreen p.x p.y = true ∧ shape p.x.toNat p.y.toNat) ∧ p.color = color)
    (x y : ℕ) (hx : x < v.width.toNat) (hy : y < v.height.toNat) :
    picture v (ps.foldl v.putPixel m) x y =
      if shape x y then v.pixelBytes color else picture v m x y := by
  have hcol := toNat_ofNat v x (Or.inl hx)
  have hrow := toNat_ofNat v y (Or.inr hy)
  rw [picture_putPixels v hs m ps x y hx hy]
  by_cases hin : shape x y
  · have hput : (⟨UInt32.ofNat x, UInt32.ofNat y, color⟩ : Pixel) ∈ ps := by
      apply (hps _).mpr
      exact ⟨⟨onScreen_ofNat v hs x y hx hy, by rwa [hcol, hrow]⟩, rfl⟩
    rw [if_pos hin, lastColor_some ps _ _ color (fun p hp _ => ((hps p).mp hp).2) _ hput ⟨rfl, rfl⟩]
    rfl
  · rw [if_neg hin, lastColor_none]
    · rfl
    · rintro p hp ⟨hpx, hpy⟩
      have hshape := ((hps p).mp hp).1.2
      rw [hpx, hpy, hcol, hrow] at hshape
      exact hin hshape

theorem picture_paint (v : Video) (hs : v.Separate) (m : Memory) (op : DrawOp) (x y : ℕ)
    (hx : x < v.width.toNat) (hy : y < v.height.toNat) (hop : ∀ rows, op ≠ .scrollRows rows) :
    picture v (v.apply m op) x y =
      ((v.paintedColor (UInt32.ofNat x) (UInt32.ofNat y) op).map v.pixelBytes).getD
        (picture v m x y) := by
  have happly : v.apply m op = (v.pixels op).foldl v.putPixel m := by
    cases op with
    | scrollRows rows => exact absurd rfl (hop rows)
    | _ => rfl
  rw [happly, picture_putPixels v hs m _ x y hx hy, lastColor_pixels]

def Within (left top width height x y : ℕ) : Prop :=
  (left ≤ x ∧ x < left + width) ∧ top ≤ y ∧ y < top + height

instance (left top width height x y : ℕ) : Decidable (Within left top width height x y) :=
  inferInstanceAs (Decidable (_ ∧ _))

theorem distance_lt (p start : UInt32) (h : start.toNat + 8 < 2 ^ 32) :
    p - start < 8 ↔ start.toNat ≤ p.toNat ∧ p.toNat < start.toNat + 8 := by
  have hp := p.toNat_lt
  rw [UInt32.lt_iff_toNat_lt, UInt32.toNat_sub]
  show (2 ^ 32 - start.toNat + p.toNat) % 2 ^ 32 < 8 ↔ _
  omega

/-- The end is cut to the screen, also when its 32-bit sum has wrapped. -/
theorem clipEnd_toNat (start length size : UInt32) (h : start.toNat < size.toNat) :
    (clipEnd start length size).toNat = min (start.toNat + length.toNat) size.toNat := by
  have hstart := start.toNat_lt
  have hlength := length.toNat_lt
  have hsize := size.toNat_lt
  have hsum : (start + length).toNat = (start.toNat + length.toNat) % 2 ^ 32 :=
    UInt32.toNat_add _ _
  unfold clipEnd
  split_ifs with hclip
  · rw [gt_iff_lt, UInt32.lt_iff_toNat_lt, UInt32.lt_iff_toNat_lt] at hclip
    omega
  · rw [gt_iff_lt, UInt32.lt_iff_toNat_lt, UInt32.lt_iff_toNat_lt] at hclip
    omega

theorem picture_char (v : Video) (hs : v.Separate) (m : Memory) (left top : UInt32) (c : UInt8)
    (fg bg : Color) (x y : ℕ) (hx : x < v.width.toNat) (hy : y < v.height.toNat)
    (hleft : left.toNat + 8 ≤ v.width.toNat) (htop : top.toNat + 8 ≤ v.height.toNat) :
    picture v (v.apply m (.char left top c fg bg)) x y =
      if Within left.toNat top.toNat 8 8 x y then
        v.pixelBytes (if glyphBit (glyph c) (y - top.toNat) (x - left.toNat) then fg else bg)
      else picture v m x y := by
  have hwidth := v.width.toNat_lt
  have hheight := v.height.toNat_lt
  have hcol := toNat_ofNat v x (Or.inl hx)
  have hrow := toNat_ofNat v y (Or.inr hy)
  rw [picture_paint v hs m _ x y hx hy (fun _ => DrawOp.noConfusion)]
  have hin : UInt32.ofNat x - left < 8 ∧ UInt32.ofNat y - top < 8 ↔
      Within left.toNat top.toNat 8 8 x y := by
    rw [distance_lt _ left (by omega), distance_lt _ top (by omega), hcol, hrow]
    rfl
  by_cases h : Within left.toNat top.toNat 8 8 x y
  · rw [Video.paintedColor, if_pos (hin.mpr h), if_pos h]
    rw [Within] at h
    rw [UInt32.toNat_sub_of_le _ _ (UInt32.le_iff_toNat_le.mpr (hrow.symm ▸ h.2.1)),
      UInt32.toNat_sub_of_le _ _ (UInt32.le_iff_toNat_le.mpr (hcol.symm ▸ h.1.1)), hcol, hrow]
    rfl
  · rw [Video.paintedColor, if_neg (fun hall => h (hin.mp hall)), if_neg h]
    rfl

theorem mem_fillPixels (v : Video) (x y width height : UInt32) (color : Color) (p : Pixel) :
    p ∈ v.fillPixels x y width height color ↔
      (v.onScreen p.x p.y = true ∧
        Within x.toNat y.toNat width.toNat height.toNat p.x.toNat p.y.toNat) ∧
      p.color = color := by
  rw [onScreen_iff]
  unfold Video.fillPixels
  split_ifs with hempty hout
  · refine iff_of_false List.not_mem_nil ?_
    rintro ⟨⟨⟨ha, -⟩, hcol, hrow⟩, -⟩
    rcases hempty with hoff | rfl | rfl
    · exact Bool.false_ne_true (hoff.symm.trans ha)
    · exact absurd hcol.2 (Nat.not_lt.mpr hcol.1)
    · exact absurd hrow.2 (Nat.not_lt.mpr hrow.1)
  · refine iff_of_false List.not_mem_nil ?_
    rintro ⟨⟨⟨-, hx, hy⟩, hcol, hrow⟩, -⟩
    rw [ge_iff_le, ge_iff_le, UInt32.le_iff_toNat_le, UInt32.le_iff_toNat_le] at hout
    omega
  · have ha : v.available = true := by
      have hne := (not_or.mp hempty).1
      simpa using hne
    rw [ge_iff_le, ge_iff_le, UInt32.le_iff_toNat_le, UInt32.le_iff_toNat_le] at hout
    rw [mem_block, clipEnd_toNat x width v.width (by omega),
      clipEnd_toNat y height v.height (by omega), Within]
    constructor
    · rintro ⟨hcol, hrow, hcolor⟩
      exact ⟨⟨⟨ha, by omega, by omega⟩, by omega, by omega⟩, hcolor⟩
    · rintro ⟨⟨⟨-, hx, hy⟩, hcol, hrow⟩, hcolor⟩
      exact ⟨by omega, by omega, hcolor⟩

/-- A filled rectangle shows where it meets the screen, whatever its size. -/
theorem picture_fillRect (v : Video) (hs : v.Separate) (m : Memory)
    (left top width height : UInt32) (color : Color) (x y : ℕ) (hx : x < v.width.toNat)
    (hy : y < v.height.toNat) :
    picture v (v.apply m (.fillRect left top width height color)) x y =
      if Within left.toNat top.toNat width.toNat height.toNat x y then v.pixelBytes color
      else picture v m x y := by
  exact picture_shape v hs m _ color (Within left.toNat top.toNat width.toNat height.toNat)
    (mem_fillPixels v left top width height color) x y hx hy

theorem picture_clear (v : Video) (hs : v.Separate) (m : Memory) (color : Color) (x y : ℕ)
    (hx : x < v.width.toNat) (hy : y < v.height.toNat) :
    picture v (v.apply m (.clear color)) x y = v.pixelBytes color := by
  rw [picture_paint v hs m _ x y hx hy (fun _ => DrawOp.noConfusion), Video.paintedColor,
    if_pos (onScreen_ofNat v hs x y hx hy)]
  rfl

def lineAddress (v : Video) (y byte : UInt32) : UInt32 := v.address + y * v.pitch + byte

theorem lineAddress_toNat (v : Video) (hs : v.Separate) (y byte : UInt32)
    (hy : y.toNat < v.height.toNat) (hbyte : byte.toNat < v.width.toNat * v.bytesPerPixel.toNat) :
    (lineAddress v y byte).toNat = v.address.toNat + y.toNat * v.pitch.toNat + byte.toNat := by
  have hbuffer := hs.buffer
  have hrow := hs.row
  have hrows : (y.toNat + 1) * v.pitch.toNat ≤ v.height.toNat * v.pitch.toNat :=
    Nat.mul_le_mul_right _ hy
  have hsum : v.address.toNat + y.toNat * v.pitch.toNat + byte.toNat < 2 ^ 32 := by
    rw [Nat.add_mul, Nat.one_mul] at hrows
    omega
  simp only [lineAddress, UInt32.toNat_add, UInt32.toNat_mul]
  have hline : y.toNat * v.pitch.toNat < 2 ^ 32 := by omega
  rw [Nat.mod_eq_of_lt hline]
  omega

theorem lineAddress_ne (v : Video) (hs : v.Separate) (y byte y' byte' : UInt32)
    (hy : y.toNat < v.height.toNat) (hbyte : byte.toNat < v.width.toNat * v.bytesPerPixel.toNat)
    (hy' : y'.toNat < v.height.toNat) (hbyte' : byte'.toNat < v.width.toNat * v.bytesPerPixel.toNat)
    (h : y.toNat < y'.toNat ∨ y.toNat = y'.toNat ∧ byte.toNat < byte'.toNat) :
    lineAddress v y byte ≠ lineAddress v y' byte' := by
  intro heq
  have haddress := congrArg UInt32.toNat heq
  rw [lineAddress_toNat v hs y byte hy hbyte,
    lineAddress_toNat v hs y' byte' hy' hbyte'] at haddress
  have hrow := hs.row
  rcases h with hlt | ⟨hsame, hlt⟩
  · have hlines : (y.toNat + 1) * v.pitch.toNat ≤ y'.toNat * v.pitch.toNat :=
      Nat.mul_le_mul_right _ hlt
    rw [Nat.add_mul, Nat.one_mul] at hlines
    omega
  · rw [hsame] at haddress
    omega

theorem counter_pairwise (first last : UInt32) :
    (counter first last).Pairwise fun i j => i.toNat < j.toNat := by
  have hlast := last.toNat_lt
  rw [counter, List.pairwise_map]
  apply List.Pairwise.imp_of_mem _ List.pairwise_lt_range'
  intro i j hi hj hlt
  rw [List.mem_range'_1] at hi hj
  rw [UInt32.toNat_ofNat_of_lt' (by change i < 2 ^ 32; omega),
    UInt32.toNat_ofNat_of_lt' (by change j < 2 ^ 32; omega)]
  exact hlt

def scrolledBytes (v : Video) (rows : UInt32) : List (UInt32 × UInt32) :=
  (counter 0 (v.height - rows)).flatMap fun y =>
    (counter 0 (v.width * v.bytesPerPixel)).map fun byte => (y, byte)

theorem scrollRows_copy (v : Video) (rows : UInt32) (m : Memory) :
    v.scrollRows rows m =
      copy (fun b : UInt32 × UInt32 => lineAddress v b.1 b.2)
        (fun b => lineAddress v (b.1 + rows) b.2) m (scrolledBytes v rows) := by
  rw [copy, scrolledBytes, List.foldl_flatMap]
  simp only [List.foldl_map]
  rfl

theorem below_toNat (v : Video) (y rows : UInt32) (h : y.toNat + rows.toNat < v.height.toNat) :
    (y + rows).toNat = y.toNat + rows.toNat := by
  have hheight := v.height.toNat_lt
  rw [UInt32.toNat_add]
  omega

section
variable (v : Video) (hs : v.Separate) (rows : UInt32)
include hs

theorem mem_scrolledBytes (hrows : rows.toNat ≤ v.height.toNat) (y byte : UInt32) :
    (y, byte) ∈ scrolledBytes v rows ↔ y.toNat + rows.toNat < v.height.toNat ∧
      byte.toNat < v.width.toNat * v.bytesPerPixel.toNat := by
  have hwidth : (v.width * v.bytesPerPixel).toNat = v.width.toNat * v.bytesPerPixel.toNat := by
    rw [UInt32.toNat_mul]
    exact Nat.mod_eq_of_lt (Nat.lt_of_le_of_lt hs.row v.pitch.toNat_lt)
  have hheight : (v.height - rows).toNat = v.height.toNat - rows.toNat :=
    UInt32.toNat_sub_of_le _ _ (UInt32.le_iff_toNat_le.mpr hrows)
  simp only [scrolledBytes, List.mem_flatMap, List.mem_map, Prod.mk.injEq, mem_counter, hheight,
    hwidth]
  constructor
  · rintro ⟨line, hline, place, hplace, rfl, rfl⟩
    omega
  · rintro ⟨hline, hplace⟩
    exact ⟨y, ⟨Nat.zero_le _, by omega⟩, byte, ⟨Nat.zero_le _, hplace⟩, rfl, rfl⟩

theorem scrolledBytes_apart (hrows : rows.toNat ≤ v.height.toNat) :
    (scrolledBytes v rows).Pairwise fun b c => lineAddress v b.1 b.2 ≠ lineAddress v c.1 c.2 ∧
      lineAddress v b.1 b.2 ≠ lineAddress v (c.1 + rows) c.2 := by
  have hpairs : (scrolledBytes v rows).Pairwise fun b c =>
      b.1.toNat < c.1.toNat ∨ b.1.toNat = c.1.toNat ∧ b.2.toNat < c.2.toNat := by
    rw [scrolledBytes, List.pairwise_flatMap]
    constructor
    · intro y _
      rw [List.pairwise_map]
      exact (counter_pairwise _ _).imp fun hlt => Or.inr ⟨rfl, hlt⟩
    · apply (counter_pairwise _ _).imp
      intro y y' hlt b hb c hc
      obtain ⟨_, _, rfl⟩ := List.mem_map.mp hb
      obtain ⟨_, _, rfl⟩ := List.mem_map.mp hc
      exact Or.inl hlt
  apply List.Pairwise.imp_of_mem _ hpairs
  rintro ⟨y, byte⟩ ⟨y', byte'⟩ hb hc hlt
  rw [mem_scrolledBytes v hs rows hrows] at hb hc
  have hbelow := below_toNat v y' rows hc.1
  change y.toNat < y'.toNat ∨ y.toNat = y'.toNat ∧ byte.toNat < byte'.toNat at hlt
  have hy : y.toNat < v.height.toNat := by omega
  have hy' : y'.toNat < v.height.toNat := by omega
  have hfrom : (y' + rows).toNat < v.height.toNat := hbelow ▸ hc.1
  constructor
  · exact lineAddress_ne v hs _ _ _ _ hy hb.2 hy' hc.2 hlt
  · apply lineAddress_ne v hs _ _ _ _ hy hb.2 hfrom hc.2
    rw [hbelow]
    omega

theorem scrollRows_at (m : Memory) (hrows : rows.toNat ≤ v.height.toNat) (y byte : UInt32)
    (hy : y.toNat < v.height.toNat) (hbyte : byte.toNat < v.width.toNat * v.bytesPerPixel.toNat) :
    v.scrollRows rows m (lineAddress v y byte) =
      if y.toNat + rows.toNat < v.height.toNat then m (lineAddress v (y + rows) byte)
      else m (lineAddress v y byte) := by
  rw [scrollRows_copy]
  by_cases hbelow : y.toNat + rows.toNat < v.height.toNat
  · rw [if_pos hbelow]
    exact copy_inside (fun b : UInt32 × UInt32 => lineAddress v b.1 b.2) _ m _
      (scrolledBytes_apart v hs rows hrows) (y, byte)
      ((mem_scrolledBytes v hs rows hrows y byte).mpr ⟨hbelow, hbyte⟩)
  · rw [if_neg hbelow]
    apply copy_outside
    rintro ⟨y', byte'⟩ hin
    rw [mem_scrolledBytes v hs rows hrows] at hin
    have hlt : y'.toNat < y.toNat := by omega
    exact lineAddress_ne v hs y' byte' y byte (hlt.trans hy) hin.2 hy hbyte (Or.inl hlt)

/-- Scrolling moves the picture up. -/
theorem picture_scroll (m : Memory) (hrows : rows.toNat ≤ v.height.toNat) (x y : ℕ)
    (hx : x < v.width.toNat) (hy : y < v.height.toNat) :
    picture v (v.apply m (.scrollRows rows)) x y =
      if y + rows.toNat < v.height.toNat then picture v m x (y + rows.toNat)
      else picture v m x y := by
  have hline := toNat_ofNat v y (Or.inr hy)
  have hon : (UInt32.ofNat y).toNat < v.height.toNat := by rwa [hline]
  have hbyte : ∀ i < v.bytesPerPixel.toNat,
      (UInt32.ofNat x * v.bytesPerPixel + UInt32.ofNat i).toNat <
        v.width.toNat * v.bytesPerPixel.toNat := by
    intro i hi
    have hpixels : (x + 1) * v.bytesPerPixel.toNat ≤ v.width.toNat * v.bytesPerPixel.toNat :=
      Nat.mul_le_mul_right _ hx
    have hrow := hs.row
    have hpitch := v.pitch.toNat_lt
    have hsmall : (UInt32.ofNat i).toNat = i :=
      UInt32.toNat_ofNat_of_lt' (Nat.lt_trans hi v.bytesPerPixel.toNat_lt)
    rw [Nat.add_mul, Nat.one_mul] at hpixels
    rw [UInt32.toNat_add, UInt32.toNat_mul, hsmall, toNat_ofNat v x (Or.inl hx)]
    omega
  have haddress : ∀ (line : UInt32) (i : ℕ), v.pixelAddress (UInt32.ofNat x) line + UInt32.ofNat i =
      lineAddress v line (UInt32.ofNat x * v.bytesPerPixel + UInt32.ofNat i) := by
    intro line i
    rw [Video.pixelAddress, lineAddress, UInt32.add_assoc]
  by_cases hbelow : y + rows.toNat < v.height.toNat
  · rw [if_pos hbelow]
    apply List.map_congr_left
    intro i hi
    rw [haddress, haddress]
    show v.scrollRows rows m _ = _
    rw [scrollRows_at v hs rows m hrows _ _ hon (hbyte i (List.mem_range.mp hi)), hline,
      if_pos hbelow]
    congr 2
    rw [UInt32.ofNat_add, UInt32.ofNat_toNat]
  · rw [if_neg hbelow]
    apply List.map_congr_left
    intro i hi
    rw [haddress]
    show v.scrollRows rows m _ = _
    rw [scrollRows_at v hs rows m hrows _ _ hon (hbyte i (List.mem_range.mp hi)), hline,
      if_neg hbelow]

end

end Hnmos.PixelRows
