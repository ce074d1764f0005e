import Mathlib
import Hnmos.Font
import Hnmos.Overwrite
import Hnmos.PageAllocator
import Hnmos.Surface

/-!
# Pixels

The framebuffer is a range of the memory. A drawing operation is the sequence
of pixels it puts, each written as two, three or four bytes at an address
computed in 32 bits; scrolling copies bytes. Painting never looks at what is
there, so it is a blind write.
-/

set_option autoImplicit false

namespace Hnmos.Graphics
open Hnmos.Surface Hnmos.Font Hnmos.Overwrite Hnmos.PageAllocator

structure Video extends Framebuffer where
  address : UInt32
  pitch : UInt32
  redPosition : UInt8
  redMaskSize : UInt8
  greenPosition : UInt8
  greenMaskSize : UInt8
  bluePosition : UInt8
  blueMaskSize : UInt8
  supported : available = true → bpp = 16 ∨ bpp = 24 ∨ bpp = 32

theorem deep_supported (available : Bool) :
    available = true → (32 : UInt8) = 16 ∨ (32 : UInt8) = 24 ∨ (32 : UInt8) = 32 :=
  fun _ => .inr (.inr rfl)

def colorRed (color : Color) : UInt8 := ((color >>> 16) &&& 0xFF).toUInt8

def colorGreen (color : Color) : UInt8 := ((color >>> 8) &&& 0xFF).toUInt8

def colorBlue (color : Color) : UInt8 := (color &&& 0xFF).toUInt8

/-- A shift by 32 or more is taken modulo 32, as the processor does. -/
def component (value maskSize : UInt8) : UInt32 :=
  if maskSize = 0 then 0
  else if maskSize ≥ 8 then value.toUInt32 <<< (maskSize - 8).toUInt32
  else (value >>> (8 - maskSize)).toUInt32

def Video.packColor (v : Video) (color : Color) : UInt32 :=
  (component (colorRed color) v.redMaskSize <<< v.redPosition.toUInt32) |||
    (component (colorGreen color) v.greenMaskSize <<< v.greenPosition.toUInt32) |||
    (component (colorBlue color) v.blueMaskSize <<< v.bluePosition.toUInt32)

def Video.bytesPerPixel (v : Video) : UInt32 := v.bpp.toUInt32 / 8

def Video.pixelAddress (v : Video) (x y : UInt32) : UInt32 :=
  v.address + y * v.pitch + x * v.bytesPerPixel

def Video.pixelBytes (v : Video) (color : Color) : List UInt8 :=
  let packed := v.packColor color
  if v.bpp = 32 then
    [packed.toUInt8, (packed >>> 8).toUInt8, (packed >>> 16).toUInt8, (packed >>> 24).toUInt8]
  else if v.bpp = 24 then [packed.toUInt8, (packed >>> 8).toUInt8, (packed >>> 16).toUInt8]
  else if v.bpp = 16 then [packed.toUInt8, (packed >>> 8).toUInt8]
  else []

def store (m : Memory) (address : UInt32) (bytes : List UInt8) : Memory :=
  bytes.zipIdx.foldl (fun m (b, i) => Function.update m (address + UInt32.ofNat i) b) m

def Video.onScreen (v : Video) (x y : UInt32) : Bool :=
  v.available && decide (x < v.width) && decide (y < v.height)

structure Pixel where
  x : UInt32
  y : UInt32
  color : Color

def Video.putPixel (v : Video) (m : Memory) (p : Pixel) : Memory :=
  if v.onScreen p.x p.y then store m (v.pixelAddress p.x p.y) (v.pixelBytes p.color) else m

/-- The values of a loop counter that runs from `first` up to `last`. -/
def counter (first last : UInt32) : List UInt32 :=
  (List.range' first.toNat (last.toNat - first.toNat)).map UInt32.ofNat

def block (x y endX endY : UInt32) (color : Color) : List Pixel :=
  (counter y endY).flatMap fun row => (counter x endX).map fun col => ⟨col, row, color⟩

def clipEnd (start length size : UInt32) : UInt32 :=
  if start + length > size ∨ start + length < start then size else start + length

def Video.fillPixels (v : Video) (x y width height : UInt32) (color : Color) : List Pixel :=
  if v.available = false ∨ width = 0 ∨ height = 0 then []
  else if x ≥ v.width ∨ y ≥ v.height then []
  else block x y (clipEnd x width v.width) (clipEnd y height v.height) color

def charPixels (x y : UInt32) (character : UInt8) (fg bg : Color) : List Pixel :=
  (List.range 8).flatMap fun row => (List.range 8).map fun col =>
    ⟨x + UInt32.ofNat col, y + UInt32.ofNat row,
      if glyphBit (glyph character) row col then fg else bg⟩

/-- The pixels an operation puts, in order. -/
def Video.pixels (v : Video) : DrawOp → List Pixel
  | .fillRect x y width height color => v.fillPixels x y width height color
  | .char x y character fg bg => charPixels x y character fg bg
  | .clear color => if v.available then block 0 0 v.width v.height color else []
  | .scrollRows _ => []

/-- Copy the visible part of every row from the row `rows` further down. -/
def Video.scrollRows (v : Video) (rows : UInt32) (m : Memory) : Memory :=
  (counter 0 (v.height - rows)).foldl (fun m y =>
    (counter 0 (v.width * v.bytesPerPixel)).foldl (fun m byte =>
      Function.update m (v.address + y * v.pitch + byte)
        (m (v.address + (y + rows) * v.pitch + byte))) m) m

def Video.apply (v : Video) (m : Memory) (op : DrawOp) : Memory :=
  match op with
  | .scrollRows rows => v.scrollRows rows m
  | op => (v.pixels op).foldl v.putPixel m

def Video.draw (v : Video) (m : Memory) (ops : List DrawOp) : Memory := ops.foldl v.apply m

/-- Every operation but scrolling and clearing, which belong to the console. -/
def paints : DrawOp → Bool
  | .fillRect .. => true
  | .char .. => true
  | .clear _ => false
  | .scrollRows _ => false

def Painting (ops : List DrawOp) : Prop := ∀ op ∈ ops, paints op = true

def Video.footprint (v : Video) (x y : UInt32) : Set UInt32 :=
  {a | v.onScreen x y = true ∧ ∃ i < v.bytesPerPixel.toNat, a = v.pixelAddress x y + UInt32.ofNat i}

theorem pixelBytes_length_le (v : Video) (color : Color) :
    (v.pixelBytes color).length ≤ v.bytesPerPixel.toNat := by
  unfold Video.pixelBytes Video.bytesPerPixel
  simp only
  split_ifs with h32 h24 h16
  · rw [h32]
    exact Nat.le_refl 4
  · rw [h24]
    exact Nat.le_refl 3
  · rw [h16]
    exact Nat.le_refl 2
  · exact Nat.zero_le _

theorem store_blind (address : UInt32) (bytes : List UInt8) :
    Blind fun m => store m address bytes :=
  blind_foldl _ bytes.zipIdx fun (b, i) _ => blind_update (address + UInt32.ofNat i) b

theorem store_confined (address : UInt32) (bytes : List UInt8) (S : Set UInt32)
    (h : ∀ i < bytes.length, address + UInt32.ofNat i ∈ S) :
    Confined S fun m => store m address bytes := by
  apply confined_foldl S _ bytes.zipIdx
  rintro ⟨b, i⟩ hmem
  have hi : i < bytes.length := by
    have hrange := List.snd_lt_of_mem_zipIdx hmem
    simpa using hrange
  exact confined_update S _ b (h i hi)

theorem putPixel_blind (v : Video) (p : Pixel) : Blind fun m => v.putPixel m p := by
  by_cases h : v.onScreen p.x p.y = true
  · simp only [Video.putPixel, if_pos h]
    exact store_blind _ _
  · simp only [Video.putPixel, if_neg h]
    exact blind_id

theorem putPixel_confined (v : Video) (p : Pixel) :
    Confined (v.footprint p.x p.y) fun m => v.putPixel m p := by
  by_cases h : v.onScreen p.x p.y = true
  · simp only [Video.putPixel, if_pos h]
    apply store_confined
    intro i hi
    exact ⟨h, i, Nat.lt_of_lt_of_le hi (pixelBytes_length_le v p.color), rfl⟩
  · simp only [Video.putPixel, if_neg h]
    exact confined_id _

theorem apply_paints (v : Video) (m : Memory) (op : DrawOp) (h : paints op = true) :
    v.apply m op = (v.pixels op).foldl v.putPixel m := by
  cases op with
  | scrollRows rows => exact absurd h Bool.false_ne_true
  | _ => rfl

theorem draw_blind (v : Video) (ops : List DrawOp) (h : Painting ops) :
    Blind fun m => v.draw m ops := by
  apply blind_foldl v.apply ops
  intro op hop
  have hpaints := h op hop
  cases op with
  | fillRect x y width height color => exact blind_foldl v.putPixel _ fun p _ => putPixel_blind v p
  | char x y c fg bg => exact blind_foldl v.putPixel _ fun p _ => putPixel_blind v p
  | clear color => exact absurd hpaints Bool.false_ne_true
  | scrollRows rows => exact absurd hpaints Bool.false_ne_true

@[simp] theorem painting_nil : Painting [] := fun _ hop => absurd hop List.not_mem_nil

@[simp] theorem painting_append (ops more : List DrawOp) :
    Painting (ops ++ more) ↔ Painting ops ∧ Painting more := List.forall_mem_append

@[simp] theorem painting_fillRect (x y width height : UInt32) (color : Color) :
    Painting (fillRect x y width height color) := by
  intro op hop
  rw [List.mem_singleton.mp hop]
  rfl

@[simp] theorem painting_drawRect (x y width height : UInt32) (color : Color) :
    Painting (drawRect x y width height color) := by
  rw [drawRect]
  split_ifs
  · exact painting_nil
  · simp only [painting_append, painting_fillRect, and_self]

@[simp] theorem painting_drawString (x y : UInt32) (text : List UInt8) (fg bg : Color) :
    Painting (drawString x y text fg bg) := by
  intro op hop
  obtain ⟨_, _, rfl⟩ := List.mem_map.mp hop
  rfl

/-- Rows do not overlap and the buffer does not wrap around the address space. -/
structure Video.Separate (v : Video) : Prop where
  available : v.available = true
  row : v.width.toNat * v.bytesPerPixel.toNat ≤ v.pitch.toNat
  buffer : v.address.toNat + v.height.toNat * v.pitch.toNat ≤ 2 ^ 32

def lastColor (ps : List Pixel) (x y : UInt32) : Option Color :=
  ps.foldl (fun found p => if p.x = x ∧ p.y = y then some p.color else found) none

theorem onScreen_iff (v : Video) (x y : UInt32) :
    v.onScreen x y = true ↔
      v.available = true ∧ x.toNat < v.width.toNat ∧ y.toNat < v.height.toNat := by
  simp only [Video.onScreen, Bool.and_eq_true, decide_eq_true_iff, UInt32.lt_iff_toNat_lt,
    and_assoc]

theorem pixelBytes_length (v : Video) (color : Color) (h : v.available = true) :
    (v.pixelBytes color).length = v.bytesPerPixel.toNat := by
  unfold Video.pixelBytes Video.bytesPerPixel
  simp only
  rcases v.supported h with hbpp | hbpp | hbpp
  · rw [hbpp, if_neg (by decide), if_neg (by decide), if_pos rfl]
    show 2 = _
    decide
  · rw [hbpp, if_neg (by decide), if_pos rfl]
    show 3 = _
    decide
  · rw [hbpp, if_pos rfl]
    show 4 = _
    decide

def Video.offset (v : Video) (x y : UInt32) (i : ℕ) : ℕ :=
  y.toNat * v.pitch.toNat + x.toNat * v.bytesPerPixel.toNat + i

theorem offset_lt (v : Video) (hs : v.Separate) (x y : UInt32) (i : ℕ)
    (hon : v.onScreen x y = true) (hi : i < v.bytesPerPixel.toNat) :
    v.address.toNat + v.offset x y i < 2 ^ 32 := by
  obtain ⟨_, hx, hy⟩ := (onScreen_iff v x y).mp hon
  have hbuffer := hs.buffer
  have hrow := hs.row
  have hinrow : x.toNat * v.bytesPerPixel.toNat + i < v.pitch.toNat := by nlinarith
  have hrows : (y.toNat + 1) * v.pitch.toNat ≤ v.height.toNat * v.pitch.toNat :=
    Nat.mul_le_mul_right _ hy
  rw [Video.offset]
  linarith

theorem pixelAddress_toNat (v : Video) (hs : v.Separate) (x y : UInt32) (i : ℕ)
    (hon : v.onScreen x y = true) (hi : i < v.bytesPerPixel.toNat) :
    (v.pixelAddress x y + UInt32.ofNat i).toNat = v.address.toNat + v.offset x y i := by
  have hlt := offset_lt v hs x y i hon hi
  rw [Video.offset] at hlt ⊢
  have hsmall : (UInt32.ofNat i).toNat = i := UInt32.toNat_ofNat_of_lt' (by
    change i < 2 ^ 32
    omega)
  simp only [Video.pixelAddress, UInt32.toNat_add, UInt32.toNat_mul, hsmall]
  have hy : y.toNat * v.pitch.toNat < 2 ^ 32 := by omega
  have hx : x.toNat * v.bytesPerPixel.toNat < 2 ^ 32 := by omega
  rw [Nat.mod_eq_of_lt hy, Nat.mod_eq_of_lt hx]
  omega

theorem pixelAddress_inj (v : Video) (hs : v.Separate) (x y x' y' : UInt32) (i i' : ℕ)
    (hon : v.onScreen x y = true) (hon' : v.onScreen x' y' = true)
    (hi : i < v.bytesPerPixel.toNat) (hi' : i' < v.bytesPerPixel.toNat)
    (h : v.pixelAddress x y + UInt32.ofNat i = v.pixelAddress x' y' + UInt32.ofNat i') :
    x = x' ∧ y = y' ∧ i = i' := by
  have hoffset : v.offset x y i = v.offset x' y' i' := by
    have haddress := congrArg UInt32.toNat h
    rw [pixelAddress_toNat v hs x y i hon hi, pixelAddress_toNat v hs x' y' i' hon' hi'] at haddress
    omega
  obtain ⟨_, hx, _⟩ := (onScreen_iff v x y).mp hon
  obtain ⟨_, hx', _⟩ := (onScreen_iff v x' y').mp hon'
  have hrow := hs.row
  have hin : x.toNat * v.bytesPerPixel.toNat + i < v.pitch.toNat := by nlinarith
  have hin' : x'.toNat * v.bytesPerPixel.toNat + i' < v.pitch.toNat := by nlinarith
  rw [Video.offset, Video.offset, Nat.add_assoc, Nat.add_assoc] at hoffset
  have hy : y.toNat = y'.toNat := by
    have hdiv := congrArg (· / v.pitch.toNat) hoffset
    simpa only [Nat.mul_comm _ v.pitch.toNat, Nat.mul_add_div (by omega : 0 < v.pitch.toNat),
      Nat.div_eq_of_lt hin, Nat.div_eq_of_lt hin', Nat.add_zero] using hdiv
  rw [hy] at hoffset
  have hcol : x.toNat * v.bytesPerPixel.toNat + i = x'.toNat * v.bytesPerPixel.toNat + i' := by
    omega
  have hxx : x.toNat = x'.toNat := by
    have hdiv := congrArg (· / v.bytesPerPixel.toNat) hcol
    simpa only [Nat.mul_comm _ v.bytesPerPixel.toNat,
      Nat.mul_add_div (by omega : 0 < v.bytesPerPixel.toNat), Nat.div_eq_of_lt hi,
      Nat.div_eq_of_lt hi', Nat.add_zero] using hdiv
  rw [hxx] at hcol
  exact ⟨UInt32.toNat_inj.mp hxx, UInt32.toNat_inj.mp hy, by omega⟩

theorem store_snoc (m : Memory) (address : UInt32) (bytes : List UInt8) (b : UInt8) :
    store m address (bytes ++ [b]) =
      Function.update (store m address bytes) (address + UInt32.ofNat bytes.length) b := by
  simp [store, List.zipIdx_append, List.foldl_append]

theorem store_at (m : Memory) (address : UInt32) (bytes : List UInt8) (i : ℕ)
    (hi : i < bytes.length) (hlength : bytes.length ≤ 2 ^ 32) :
    store m address bytes (address + UInt32.ofNat i) = bytes[i] := by
  induction bytes using List.reverseRecOn generalizing i with
  | nil => exact absurd hi (Nat.not_lt_zero i)
  | append_singleton bytes b ih =>
    rw [store_snoc]
    rw [List.length_append, List.length_singleton] at hi hlength
    by_cases hlast : i = bytes.length
    · subst hlast
      rw [Function.update_self, List.getElem_concat_length rfl]
    · have hlt : i < bytes.length := by omega
      have hne : address + UInt32.ofNat i ≠ address + UInt32.ofNat bytes.length := by
        intro heq
        have hsame := congrArg UInt32.toNat ((UInt32.add_right_inj address).mp heq)
        rw [UInt32.toNat_ofNat_of_lt' (by change i < 2 ^ 32; omega),
          UInt32.toNat_ofNat_of_lt' (by change bytes.length < 2 ^ 32; omega)] at hsame
        exact hlast hsame
      rw [Function.update_of_ne hne, ih i hlt (by omega), List.getElem_append_left hlt]

theorem putPixel_at (v : Video) (hs : v.Separate) (m : Memory) (p : Pixel) (x y : UInt32) (i : ℕ)
    (hon : v.onScreen x y = true) (hi : i < v.bytesPerPixel.toNat) :
    v.putPixel m p (v.pixelAddress x y + UInt32.ofNat i) =
      if p.x = x ∧ p.y = y then (v.pixelBytes p.color).getD i 0
      else m (v.pixelAddress x y + UInt32.ofNat i) := by
  split_ifs with hhere
  · have hlength := pixelBytes_length v p.color hs.available
    have hfour : (v.pixelBytes p.color).length ≤ 2 ^ 32 :=
      hlength ▸ Nat.le_of_lt v.bytesPerPixel.toNat_lt
    have hin : i < (v.pixelBytes p.color).length := hlength ▸ hi
    rw [Video.putPixel, hhere.1, hhere.2, if_pos hon, store_at m _ _ i hin hfour,
      List.getD_eq_getElem _ _ hin]
  · apply putPixel_confined v p
    rintro ⟨hon', i', hi', heq⟩
    obtain ⟨hx, hy, _⟩ := pixelAddress_inj v hs x y p.x p.y i i' hon hon' hi hi' heq
    exact hhere ⟨hx.symm, hy.symm⟩

theorem lastColor_snoc (ps : List Pixel) (p : Pixel) (x y : UInt32) :
    lastColor (ps ++ [p]) x y =
      if p.x = x ∧ p.y = y then some p.color else lastColor ps x y := by
  simp [lastColor]

def Video.byteOf (v : Video) (found : Option Color) (i : ℕ) (old : UInt8) : UInt8 :=
  match found with
  | some color => (v.pixelBytes color).getD i 0
  | none => old

theorem putPixels_at (v : Video) (hs : v.Separate) (m : Memory) (ps : List Pixel) (x y : UInt32)
    (i : ℕ) (hon : v.onScreen x y = true) (hi : i < v.bytesPerPixel.toNat) :
    ps.foldl v.putPixel m (v.pixelAddress x y + UInt32.ofNat i) =
      v.byteOf (lastColor ps x y) i (m (v.pixelAddress x y + UInt32.ofNat i)) := by
  induction ps using List.reverseRecOn with
  | nil => rfl
  | append_singleton ps p ih =>
    rw [List.foldl_concat, putPixel_at v hs _ p x y i hon hi, lastColor_snoc, ih]
    split_ifs <;> rfl

theorem lastColor_none (ps : List Pixel) (x y : UInt32)
    (h : ∀ p ∈ ps, ¬ (p.x = x ∧ p.y = y)) : lastColor ps x y = none := by
  induction ps using List.reverseRecOn with
  | nil => rfl
  | append_singleton ps p ih =>
    rw [lastColor_snoc, if_neg (h p (List.mem_append_right _ List.mem_cons_self))]
    exact ih fun q hq => h q (List.mem_append_left _ hq)

theorem lastColor_some (ps : List Pixel) (x y : UInt32) (color : Color)
    (hall : ∀ p ∈ ps, p.x = x ∧ p.y = y → p.color = color) (p : Pixel) (hp : p ∈ ps)
    (hhere : p.x = x ∧ p.y = y) : lastColor ps x y = some color := by
  induction ps using List.reverseRecOn with
  | nil => exact absurd hp List.not_mem_nil
  | append_singleton ps q ih =>
    rw [lastColor_snoc]
    by_cases hq : q.x = x ∧ q.y = y
    · rw [if_pos hq, hall q (List.mem_append_right _ List.mem_cons_self) hq]
    · rw [if_neg hq]
      apply ih fun r hr => hall r (List.mem_append_left _ hr)
      rcases List.mem_append.mp hp with hin | hlast
      · exact hin
      · exact absurd ((List.mem_singleton.mp hlast) ▸ hhere) hq

theorem mem_counter (first last i : UInt32) :
    i ∈ counter first last ↔ first.toNat ≤ i.toNat ∧ i.toNat < last.toNat := by
  have hlast := last.toNat_lt
  simp only [counter, List.mem_map, List.mem_range'_1]
  constructor
  · rintro ⟨n, hn, rfl⟩
    rw [UInt32.toNat_ofNat_of_lt' (by change n < 2 ^ 32; omega)]
    omega
  · intro h
    exact ⟨i.toNat, by omega, UInt32.ofNat_toNat⟩

theorem mem_block (x y endX endY : UInt32) (color : Color) (p : Pixel) :
    p ∈ block x y endX endY color ↔
      (x.toNat ≤ p.x.toNat ∧ p.x.toNat < endX.toNat) ∧
        (y.toNat ≤ p.y.toNat ∧ p.y.toNat < endY.toNat) ∧ p.color = color := by
  rcases p with ⟨px, py, pcolor⟩
  simp only [block, List.mem_flatMap, List.mem_map, mem_counter, Pixel.mk.injEq]
  constructor
  · rintro ⟨row, hrow, col, hcol, rfl, rfl, rfl⟩
    exact ⟨hcol, hrow, rfl⟩
  · rintro ⟨hcol, hrow, rfl⟩
    exact ⟨py, hrow, px, hcol, rfl, rfl, rfl⟩

theorem lastColor_block (x y endX endY : UInt32) (color : Color) (px py : UInt32) :
    lastColor (block x y endX endY color) px py =
      if (x.toNat ≤ px.toNat ∧ px.toNat < endX.toNat) ∧ y.toNat ≤ py.toNat ∧ py.toNat < endY.toNat
      then some color else none := by
  split_ifs with hin
  · exact lastColor_some _ px py color
      (fun p hp _ => ((mem_block x y endX endY color p).mp hp).2.2) ⟨px, py, color⟩
      ((mem_block x y endX endY color _).mpr ⟨hin.1, hin.2, rfl⟩) ⟨rfl, rfl⟩
  · apply lastColor_none
    rintro p hp ⟨rfl, rfl⟩
    obtain ⟨hx, hy, _⟩ := (mem_block x y endX endY color p).mp hp
    exact hin ⟨hx, hy⟩

theorem mem_charPixels (x y : UInt32) (c : UInt8) (fg bg : Color) (p : Pixel) :
    p ∈ charPixels x y c fg bg ↔ (p.x - x).toNat < 8 ∧ (p.y - y).toNat < 8 ∧
      p.color = if glyphBit (glyph c) (p.y - y).toNat (p.x - x).toNat then fg else bg := by
  rcases p with ⟨px, py, color⟩
  simp only [charPixels, List.mem_flatMap, List.mem_map, List.mem_range, Pixel.mk.injEq]
  constructor
  · rintro ⟨row, hrow, col, hcol, rfl, rfl, rfl⟩
    have hx : (x + UInt32.ofNat col - x).toNat = col := by
      rw [UInt32.add_comm, UInt32.add_sub_cancel]
      exact UInt32.toNat_ofNat_of_lt' (by change col < 2 ^ 32; omega)
    have hy : (y + UInt32.ofNat row - y).toNat = row := by
      rw [UInt32.add_comm, UInt32.add_sub_cancel]
      exact UInt32.toNat_ofNat_of_lt' (by change row < 2 ^ 32; omega)
    rw [hx, hy]
    exact ⟨hcol, hrow, rfl⟩
  · rintro ⟨hcol, hrow, hcolor⟩
    refine ⟨(py - y).toNat, hrow, (px - x).toNat, hcol, ?_, ?_, hcolor.symm⟩
    · rw [UInt32.ofNat_toNat]
      grind
    · rw [UInt32.ofNat_toNat]
      grind

def Video.paintedColor (v : Video) (px py : UInt32) : DrawOp → Option Color
  | .fillRect x y width height color =>
    if (v.available = true ∧ width ≠ 0 ∧ height ≠ 0) ∧ (x < v.width ∧ y < v.height) ∧
        (x ≤ px ∧ px < clipEnd x width v.width) ∧ y ≤ py ∧ py < clipEnd y height v.height then
      some color
    else none
  | .char x y c fg bg =>
    if px - x < 8 ∧ py - y < 8 then
      some (if glyphBit (glyph c) (py - y).toNat (px - x).toNat then fg else bg)
    else none
  | .clear color => if v.onScreen px py then some color else none
  | .scrollRows _ => none

theorem lastColor_pixels (v : Video) (px py : UInt32) (op : DrawOp) :
    lastColor (v.pixels op) px py = v.paintedColor px py op := by
  cases op with
  | fillRect x y width height color =>
    simp only [Video.pixels, Video.fillPixels, Video.paintedColor]
    by_cases hempty : v.available = false ∨ width = 0 ∨ height = 0
    · rw [if_pos hempty, if_neg]
      · rfl
      · rintro ⟨⟨ha, hw, hh⟩, _⟩
        simp [ha, hw, hh] at hempty
    by_cases hout : x ≥ v.width ∨ y ≥ v.height
    · rw [if_neg hempty, if_pos hout, if_neg]
      · rfl
      · rintro ⟨_, ⟨hx, hy⟩, _⟩
        rw [ge_iff_le, ge_iff_le, UInt32.le_iff_toNat_le, UInt32.le_iff_toNat_le] at hout
        rw [UInt32.lt_iff_toNat_lt] at hx hy
        omega
    rw [if_neg hempty, if_neg hout, lastColor_block]
    congr 1
    simp only [not_or, Bool.not_eq_false, ge_iff_le, UInt32.not_le] at hempty hout
    simp only [hempty, hout, ne_eq, not_false_eq_true, and_self, true_and, UInt32.le_iff_toNat_le,
      UInt32.lt_iff_toNat_lt]
  | char x y c fg bg =>
    have height : (8 : UInt32).toNat = 8 := rfl
    simp only [Video.pixels, Video.paintedColor, UInt32.lt_iff_toNat_lt, height]
    by_cases hin : (px - x).toNat < 8 ∧ (py - y).toNat < 8
    · rw [if_pos hin]
      have hmem := (mem_charPixels x y c fg bg ⟨px, py,
        if glyphBit (glyph c) (py - y).toNat (px - x).toNat then fg else bg⟩).mpr
        ⟨hin.1, hin.2, rfl⟩
      apply lastColor_some _ px py _ _ _ hmem ⟨rfl, rfl⟩
      rintro p hp ⟨rfl, rfl⟩
      exact ((mem_charPixels x y c fg bg p).mp hp).2.2
    · rw [if_neg hin]
      apply lastColor_none
      rintro p hp ⟨rfl, rfl⟩
      obtain ⟨hx, hy, _⟩ := (mem_charPixels x y c fg bg p).mp hp
      exact hin ⟨hx, hy⟩
  | clear color =>
    simp only [Video.pixels, Video.paintedColor]
    by_cases ha : v.available = true
    · rw [if_pos ha, lastColor_block]
      congr 1
      simp [onScreen_iff, ha]
    · rw [if_neg ha, if_neg]
      · rfl
      · intro hon
        exact ha ((onScreen_iff v px py).mp hon).1
  | scrollRows rows => rfl

def Video.drawnColor (v : Video) (ops : List DrawOp) (px py : UInt32) : Option Color :=
  ops.foldl (fun found op => (v.paintedColor px py op).or found) none

theorem draw_at (v : Video) (hs : v.Separate) (m : Memory) (ops : List DrawOp) (x y : UInt32)
    (i : ℕ) (hon : v.onScreen x y = true) (hi : i < v.bytesPerPixel.toNat)
    (hops : Painting ops) :
    v.draw m ops (v.pixelAddress x y + UInt32.ofNat i) =
      v.byteOf (v.drawnColor ops x y) i (m (v.pixelAddress x y + UInt32.ofNat i)) := by
  induction ops using List.reverseRecOn with
  | nil => rfl
  | append_singleton ops op ih =>
    have happly := apply_paints v (v.draw m ops) op
      (hops op (List.mem_append_right _ List.mem_cons_self))
    rw [Video.draw, List.foldl_concat, ← Video.draw, happly, putPixels_at v hs _ _ x y i hon hi,
      lastColor_pixels, ih fun o ho => hops o (List.mem_append_left _ ho), Video.drawnColor,
      Video.drawnColor, List.foldl_concat]
    cases v.paintedColor x y op <;> rfl

end Hnmos.Graphics
