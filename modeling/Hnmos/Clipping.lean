import Mathlib
import Hnmos.PixelRows
import Hnmos.Widgets

/-!
# Clipping

A rectangle is given by a corner and a size of 32 bits each, so its ends are
sums that may wrap. Filling cuts both ends to the screen, also the wrapped
ones. The outline computes its far edges before anything cuts them, and the
hit test refuses a rectangle whose end has wrapped.
-/

set_option autoImplicit false

namespace Hnmos.Clipping
open Hnmos.Surface Hnmos.Graphics Hnmos.PixelRows Hnmos.Widgets Hnmos.PageAllocator

/-- The border of a rectangle, one pixel wide: what its interior leaves. -/
def Border (left top width height x y : ℕ) : Prop :=
  Within left top width height x y ∧ ¬ Within (left + 1) (top + 1) (width - 2) (height - 2) x y

instance border_decidable (left top width height x y : ℕ) :
    Decidable (Border left top width height x y) :=
  inferInstanceAs (Decidable (_ ∧ _))

theorem border_iff_edges (left top width height x y : ℕ) (hwidth : 0 < width)
    (hheight : 0 < height) :
    Border left top width height x y ↔
      Within left top width 1 x y ∨ Within left (top + height - 1) width 1 x y ∨
        Within left top 1 height x y ∨ Within (left + width - 1) top 1 height x y := by
  simp only [Border, Within]
  constructor
  · rintro ⟨⟨hcol, hrow⟩, hinterior⟩
    by_contra hnone
    apply hinterior
    omega
  · rintro (h | h | h | h) <;> omega

def position (p : Pixel) : UInt32 × UInt32 := (p.x, p.y)

def puts (v : Video) (ops : List DrawOp) : List Pixel := ops.flatMap v.pixels

theorem puts_append (v : Video) (ops more : List DrawOp) :
    puts v (ops ++ more) = puts v ops ++ puts v more := List.flatMap_append

theorem puts_fillRect (v : Video) (x y width height : UInt32) (color : Color) :
    puts v (fillRect x y width height color) = v.fillPixels x y width height color :=
  List.append_nil _

/-- Painting does nothing but put these pixels. -/
theorem draw_puts (v : Video) (m : Memory) (ops : List DrawOp) (h : Painting ops) :
    v.draw m ops = (puts v ops).foldl v.putPixel m := by
  induction ops generalizing m with
  | nil => rfl
  | cons op ops ih =>
    have happly := apply_paints v m op (h op List.mem_cons_self)
    have hrest := ih (v.apply m op) fun o ho => h o (List.mem_cons_of_mem op ho)
    rw [puts, List.flatMap_cons, List.foldl_append, ← happly]
    exact hrest

/-- The counter of a loop from `first` to below `last`: the loop's own step. -/
theorem counter_step (first last : UInt32) :
    counter first last =
      if first < last then first :: counter (first + 1) last else [] := by
  have hlast := last.toNat_lt
  by_cases h : first < last
  · have hlt : first.toNat < last.toNat := UInt32.lt_iff_toNat_lt.mp h
    have hnext : (first + 1).toNat = first.toNat + 1 := by
      rw [UInt32.toNat_add]
      exact Nat.mod_eq_of_lt (by show first.toNat + 1 < _; omega)
    have hlength : last.toNat - first.toNat = (last.toNat - (first.toNat + 1)) + 1 := by omega
    rw [if_pos h, counter, counter, hnext, hlength, List.range'_succ, List.map_cons,
      UInt32.ofNat_toNat]
  · have hle : last.toNat ≤ first.toNat := UInt32.le_iff_toNat_le.mp (UInt32.not_lt.mp h)
    rw [if_neg h, counter, Nat.sub_eq_zero_of_le hle]
    rfl

theorem block_nodup (x y endX endY : UInt32) (color : Color) :
    ((block x y endX endY color).map position).Nodup := by
  have hnodup (first last : UInt32) : (counter first last).Nodup := by
    apply (counter_pairwise first last).imp
    rintro i j hlt rfl
    exact Nat.lt_irrefl _ hlt
  rw [block, List.map_flatMap, List.nodup_flatMap]
  constructor
  · intro row _
    rw [List.map_map]
    apply (hnodup x endX).map
    intro col col' heq
    exact (Prod.mk.inj heq).1
  · apply (hnodup y endY).imp
    intro row row' hne place hrow hrow'
    simp only [List.map_map] at hrow hrow'
    obtain ⟨col, -, rfl⟩ := List.mem_map.mp hrow
    obtain ⟨col', -, heq⟩ := List.mem_map.mp hrow'
    exact hne (Prod.mk.inj heq).2.symm

theorem fillPixels_nodup (v : Video) (x y width height : UInt32) (color : Color) :
    ((v.fillPixels x y width height color).map position).Nodup := by
  unfold Video.fillPixels
  split_ifs
  · exact List.nodup_nil
  · exact List.nodup_nil
  · exact block_nodup _ _ _ _ color

theorem mem_positions (v : Video) (x y width height : UInt32) (color : Color) (px py : UInt32) :
    (px, py) ∈ (v.fillPixels x y width height color).map position ↔
      v.onScreen px py = true ∧
        Within x.toNat y.toNat width.toNat height.toNat px.toNat py.toNat := by
  rw [List.mem_map]
  constructor
  · rintro ⟨p, hp, heq⟩
    obtain ⟨rfl, rfl⟩ := Prod.mk.inj heq
    exact ((mem_fillPixels v x y width height color p).mp hp).1
  · intro h
    exact ⟨⟨px, py, color⟩, (mem_fillPixels v x y width height color _).mpr ⟨h, rfl⟩, rfl⟩

/-- Filling puts each pixel of the screen that lies in the rectangle once, and
no other. -/
theorem fill_clipped (v : Video) (x y width height : UInt32) (color : Color) :
    (∀ p ∈ v.fillPixels x y width height color, p.color = color) ∧
      ∀ px py : UInt32, ((v.fillPixels x y width height color).map position).count (px, py) =
        if v.onScreen px py = true ∧
            Within x.toNat y.toNat width.toNat height.toNat px.toNat py.toNat then 1
        else 0 := by
  constructor
  · intro p hp
    exact ((mem_fillPixels v x y width height color p).mp hp).2
  · intro px py
    rw [(fillPixels_nodup v x y width height color).count]
    exact if_congr (mem_positions v x y width height color px py) rfl rfl

/-- The last position of a span, reduced to 32 bits, comes round to a screen of
this size. -/
def ComesRound (start length size : UInt32) : Prop :=
  2 ^ 32 < start.toNat + length.toNat ∧ start.toNat + length.toNat ≤ 2 ^ 32 + size.toNat

instance comesRound_decidable (start length size : UInt32) :
    Decidable (ComesRound start length size) :=
  inferInstanceAs (Decidable (_ ∧ _))

theorem last_toNat (start length : UInt32) (h : length ≠ 0) :
    (start + length - 1).toNat =
      if start.toNat + length.toNat ≤ 2 ^ 32 then start.toNat + length.toNat - 1
      else start.toNat + length.toNat - 1 - 2 ^ 32 := by
  have hstart := start.toNat_lt
  have hlength := length.toNat_lt
  have hpos : length.toNat ≠ 0 := fun hzero => h (UInt32.toNat_inj.mp hzero)
  have hlast : (start + length - 1).toNat =
      (2 ^ 32 - 1 + (start.toNat + length.toNat) % 2 ^ 32) % 2 ^ 32 := by
    rw [UInt32.toNat_sub, UInt32.toNat_add]
    rfl
  rw [hlast]
  split_ifs <;> omega

theorem last_round (start length size : UInt32) (h : ComesRound start length size) :
    (start + length - 1).toNat + 1 + 2 ^ 32 = start.toNat + length.toNat := by
  have hstart := start.toNat_lt
  have hround := h.1
  have hne : length ≠ 0 := by
    rintro rfl
    exact absurd hround (Nat.not_lt.mpr (Nat.le_of_lt hstart))
  rw [last_toNat start length hne, if_neg (Nat.not_le.mpr hround)]
  omega

theorem last_span (start length size p : UInt32) (h : length ≠ 0) (hp : p.toNat < size.toNat)
    (hround : ¬ ComesRound start length size) :
    ((start + length - 1).toNat ≤ p.toNat ∧ p.toNat < (start + length - 1).toNat + 1) ↔
      start.toNat + length.toNat - 1 ≤ p.toNat ∧ p.toNat < start.toNat + length.toNat - 1 + 1 := by
  have hsize := size.toNat_lt
  rw [ComesRound] at hround
  rw [last_toNat start length h]
  split_ifs with hplain
  · exact Iff.rfl
  · omega

theorem mem_outline (v : Video) (x y width height : UInt32) (color : Color) (hwidth : width ≠ 0)
    (hheight : height ≠ 0) (p : Pixel) :
    p ∈ puts v (drawRect x y width height color) ↔
      (v.onScreen p.x p.y = true ∧
        (Within x.toNat y.toNat width.toNat 1 p.x.toNat p.y.toNat ∨
          Within x.toNat (y + height - 1).toNat width.toNat 1 p.x.toNat p.y.toNat ∨
          Within x.toNat y.toNat 1 height.toNat p.x.toNat p.y.toNat ∨
          Within (x + width - 1).toNat y.toNat 1 height.toNat p.x.toNat p.y.toNat)) ∧
      p.color = color := by
  have hone : (1 : UInt32).toNat = 1 := rfl
  rw [drawRect, if_neg (not_or.mpr ⟨hwidth, hheight⟩)]
  simp only [puts_append, puts_fillRect, List.mem_append, mem_fillPixels, hone]
  tauto

/-- The outline colours the border where it meets the screen and nothing else,
and an edge beyond the screen is not drawn at all. -/
structure OutlineExact (v : Video) (x y width height : UInt32) (color : Color) : Prop where
  border : ∀ p : Pixel, p ∈ puts v (drawRect x y width height color) ↔
    (v.onScreen p.x p.y = true ∧
      Border x.toNat y.toNat width.toNat height.toNat p.x.toNat p.y.toNat) ∧ p.color = color
  bottom : v.height.toNat < y.toNat + height.toNat →
    v.fillPixels x (y + height - 1) width 1 color = []
  right : v.width.toNat < x.toNat + width.toNat →
    v.fillPixels (x + width - 1) y 1 height color = []

/-- No far edge comes round to a place where its other coordinate is on the
screen as well. -/
def EdgesStay (v : Video) (x y width height : UInt32) : Prop :=
  v.available = true →
    (x < v.width → ¬ ComesRound y height v.height) ∧ (y < v.height → ¬ ComesRound x width v.width)

theorem outline_exact (v : Video) (x y width height : UInt32) (color : Color)
    (hwidth : width ≠ 0) (hheight : height ≠ 0) (hstay : EdgesStay v x y width height) :
    OutlineExact v x y width height color := by
  have hone : (1 : UInt32).toNat = 1 := rfl
  have hposw : width.toNat ≠ 0 := fun hzero => hwidth (UInt32.toNat_inj.mp hzero)
  have hposh : height.toNat ≠ 0 := fun hzero => hheight (UInt32.toNat_inj.mp hzero)
  -- the computed edges, seen from the screen
  have hbottom (px py : UInt32) (hon : v.onScreen px py = true) (hcol : x.toNat ≤ px.toNat) :=
    have hin := (onScreen_iff v px py).mp hon
    last_span y height v.height py hheight hin.2.2
      ((hstay hin.1).1 (UInt32.lt_iff_toNat_lt.mpr (Nat.lt_of_le_of_lt hcol hin.2.1)))
  have hright (px py : UInt32) (hon : v.onScreen px py = true) (hrow : y.toNat ≤ py.toNat) :=
    have hin := (onScreen_iff v px py).mp hon
    last_span x width v.width px hwidth hin.2.1
      ((hstay hin.1).2 (UInt32.lt_iff_toNat_lt.mpr (Nat.lt_of_le_of_lt hrow hin.2.2)))
  refine ⟨?_, ?_, ?_⟩
  · intro p
    rw [mem_outline v x y width height color hwidth hheight p]
    apply and_congr_left
    intro _
    apply and_congr_right
    intro hon
    rw [border_iff_edges _ _ _ _ _ _ (Nat.pos_of_ne_zero hposw) (Nat.pos_of_ne_zero hposh)]
    apply or_congr_right
    apply or_congr
    · exact and_congr_right fun hcol => hbottom p.x p.y hon hcol.1
    · exact or_congr_right (and_congr_left fun hrow => hright p.x p.y hon hrow.1)
  · intro hbeyond
    apply List.eq_nil_iff_forall_not_mem.mpr
    intro p hp
    obtain ⟨⟨hon, hcol, hrow⟩, -⟩ := (mem_fillPixels _ _ _ _ _ _ _).mp hp
    rw [hone] at hrow
    have hfar := (hbottom p.x p.y hon hcol.1).mp hrow
    have hin := ((onScreen_iff v p.x p.y).mp hon).2.2
    omega
  · intro hbeyond
    apply List.eq_nil_iff_forall_not_mem.mpr
    intro p hp
    obtain ⟨⟨hon, hcol, hrow⟩, -⟩ := (mem_fillPixels _ _ _ _ _ _ _).mp hp
    rw [hone] at hcol
    have hfar := (hright p.x p.y hon hrow.1).mp hcol
    have hin := ((onScreen_iff v p.x p.y).mp hon).2.1
    omega

theorem edges_stay (v : Video) (x y width height : UInt32) (color : Color)
    (hwidth : width ≠ 0) (hheight : height ≠ 0) (hexact : OutlineExact v x y width height color) :
    EdgesStay v x y width height := by
  have hposw : 0 < width.toNat :=
    Nat.pos_of_ne_zero fun hzero => hwidth (UInt32.toNat_inj.mp hzero)
  have hposh : 0 < height.toNat :=
    Nat.pos_of_ne_zero fun hzero => hheight (UInt32.toNat_inj.mp hzero)
  have hlimw := width.toNat_lt
  have hlimh := height.toNat_lt
  have hinside (px py : UInt32) (hon : v.onScreen px py = true)
      (hedge : Within x.toNat (y + height - 1).toNat width.toNat 1 px.toNat py.toNat ∨
        Within (x + width - 1).toNat y.toNat 1 height.toNat px.toNat py.toNat) :
      Within x.toNat y.toNat width.toNat height.toNat px.toNat py.toNat := by
    have hput : (⟨px, py, color⟩ : Pixel) ∈ puts v (drawRect x y width height color) :=
      (mem_outline v x y width height color hwidth hheight _).mpr
        ⟨⟨hon, Or.inr (hedge.imp_right Or.inr)⟩, rfl⟩
    exact ((hexact.border _).mp hput).1.2.1
  intro ha
  constructor
  · intro hx hround
    have hlast := last_round y height v.height hround
    have hreach := hround.2
    have hon : v.onScreen x (y + height - 1) = true :=
      (onScreen_iff _ _ _).mpr ⟨ha, UInt32.lt_iff_toNat_lt.mp hx, by omega⟩
    have hin := hinside x (y + height - 1) hon
      (Or.inl ⟨⟨Nat.le_refl _, Nat.lt_add_of_pos_right hposw⟩, Nat.le_refl _, Nat.lt_succ_self _⟩)
    have hbelow : y.toNat ≤ (y + height - 1).toNat := hin.2.1
    omega
  · intro hy hround
    have hlast := last_round x width v.width hround
    have hreach := hround.2
    have hon : v.onScreen (x + width - 1) y = true :=
      (onScreen_iff _ _ _).mpr ⟨ha, by omega, UInt32.lt_iff_toNat_lt.mp hy⟩
    have hin := hinside (x + width - 1) y hon
      (Or.inr ⟨⟨Nat.le_refl _, Nat.lt_succ_self _⟩, Nat.le_refl _, Nat.lt_add_of_pos_right hposh⟩)
    have hbeyond : x.toNat ≤ (x + width - 1).toNat := hin.1.1
    omega

/-- The outline is exact exactly when no far edge comes round to the screen. -/
theorem outline_exact_iff (v : Video) (x y width height : UInt32) (color : Color)
    (hwidth : width ≠ 0) (hheight : height ≠ 0) :
    OutlineExact v x y width height color ↔ EdgesStay v x y width height :=
  ⟨edges_stay v x y width height color hwidth hheight,
    outline_exact v x y width height color hwidth hheight⟩

def panorama : Video :=
  ⟨⟨1024, 768, 32, true⟩, 0xFD000000, 4096, 16, 8, 8, 8, 0, 8, deep_supported true⟩

theorem outline_exact_iff_inside : OutlineExact panorama 10 700 2000 30 0x43DCD2 := by
  apply (outline_exact_iff panorama 10 700 2000 30 0x43DCD2 (by decide) (by decide)).mpr
  exact fun _ => ⟨fun _ => by decide, fun _ => by decide⟩

/-- The bottom edge, in row 2 ^ 32 + 99, is drawn in row 99. -/
theorem outline_comes_round :
    (⟨10, 99, 0x43DCD2⟩ : Pixel) ∈ puts panorama (drawRect 10 700 20 0xFFFFFDA8 0x43DCD2) ∧
      ¬ Border 10 700 20 0xFFFFFDA8 10 99 ∧
      ¬ OutlineExact panorama 10 700 20 0xFFFFFDA8 0x43DCD2 := by
  have hput : (⟨10, 99, 0x43DCD2⟩ : Pixel) ∈
      puts panorama (drawRect 10 700 20 0xFFFFFDA8 0x43DCD2) :=
    (mem_outline panorama 10 700 20 0xFFFFFDA8 0x43DCD2 (by decide) (by decide) _).mpr (by decide)
  have houtside : ¬ Border 10 700 20 0xFFFFFDA8 10 99 := by decide
  refine ⟨hput, houtside, ?_⟩
  intro hexact
  exact houtside ((hexact.border _).mp hput).1.2

def backgroundFill (b : Button) : List DrawOp :=
  fillRect b.rect.x b.rect.y b.rect.width b.rect.height b.background

theorem render_fill (b : Button) : ∃ rest, b.render = backgroundFill b ++ rest :=
  ⟨_, List.append_assoc _ _ _⟩

theorem end_toNat (start length : UInt32) :
    (start + length).toNat =
      if start.toNat + length.toNat < 2 ^ 32 then start.toNat + length.toNat
      else start.toNat + length.toNat - 2 ^ 32 := by
  have hstart := start.toNat_lt
  have hlength := length.toNat_lt
  rw [UInt32.toNat_add]
  split_ifs <;> omega

theorem hits_iff (rect : Rect) (x y : UInt32) :
    rect.hits x y = true ↔
      Within rect.x.toNat rect.y.toNat rect.width.toNat rect.height.toNat x.toNat y.toNat ∧
        rect.x.toNat + rect.width.toNat < 2 ^ 32 ∧ rect.y.toNat + rect.height.toNat < 2 ^ 32 := by
  have hendx := end_toNat rect.x rect.width
  have hendy := end_toNat rect.y rect.height
  have hx := rect.x.toNat_lt
  have hy := rect.y.toNat_lt
  have hwidth := rect.width.toNat_lt
  have hheight := rect.height.toNat_lt
  unfold Rect.hits
  simp only
  split_ifs with hempty hwraps
  · refine iff_of_false not_false ?_
    rintro ⟨⟨hcol, hrow⟩, -⟩
    rcases hempty with hzero | hzero
    · rw [hzero] at hcol
      exact absurd hcol.2 (Nat.not_lt.mpr hcol.1)
    · rw [hzero] at hrow
      exact absurd hrow.2 (Nat.not_lt.mpr hrow.1)
  · refine iff_of_false not_false ?_
    rintro ⟨-, hplainx, hplainy⟩
    rw [UInt32.lt_iff_toNat_lt, UInt32.lt_iff_toNat_lt, hendx, hendy, if_pos hplainx,
      if_pos hplainy] at hwraps
    omega
  · rw [UInt32.lt_iff_toNat_lt, UInt32.lt_iff_toNat_lt, hendx, hendy] at hwraps
    have hplain : rect.x.toNat + rect.width.toNat < 2 ^ 32 ∧
        rect.y.toNat + rect.height.toNat < 2 ^ 32 := by
      split_ifs at hwraps <;> omega
    rw [if_pos hplain.1] at hendx
    rw [if_pos hplain.2] at hendy
    simp only [Bool.and_eq_true, decide_eq_true_eq, ge_iff_le, UInt32.le_iff_toNat_le,
      UInt32.lt_iff_toNat_lt, hendx, hendy, Within, hplain, and_true]
    tauto

/-- On the screen a button is hit where its background is painted, provided
that both its ends are 32-bit numbers; else it is hit nowhere. -/
theorem hit_iff_painted (v : Video) (b : Button) (px py : UInt32)
    (hon : v.onScreen px py = true) :
    b.hitTest px py = true ↔
      (px, py) ∈ (puts v (backgroundFill b)).map position ∧
        b.rect.x.toNat + b.rect.width.toNat < 2 ^ 32 ∧
        b.rect.y.toNat + b.rect.height.toNat < 2 ^ 32 := by
  rw [backgroundFill, puts_fillRect, mem_positions, Button.hitTest, hits_iff]
  simp only [hon, true_and]

def startButton : Button := { Button.zero with rect := ⟨100, 100, 120, 32⟩ }

theorem hit_iff_painted_start :
    startButton.hitTest 150 110 = true ↔
      (150, 110) ∈ (puts panorama (backgroundFill startButton)).map position ∧
        100 + 120 < 2 ^ 32 ∧ 100 + 32 < 2 ^ 32 :=
  hit_iff_painted panorama startButton 150 110 (by decide)

def endlessButton : Button := { Button.zero with rect := ⟨1000, 10, 0xFFFFFFFF, 20⟩ }

/-- Its corner is painted and not hit. -/
theorem painted_not_hit :
    ¬ ∀ px py : UInt32, panorama.onScreen px py = true →
      (endlessButton.hitTest px py = true ↔
        (px, py) ∈ (puts panorama (backgroundFill endlessButton)).map position) := by
  intro hsame
  have hpainted : (1000, 10) ∈ (puts panorama (backgroundFill endlessButton)).map position := by
    rw [backgroundFill, puts_fillRect, mem_positions]
    decide
  exact absurd ((hsame 1000 10 (by decide)).mpr hpainted) (by decide)

end Hnmos.Clipping
