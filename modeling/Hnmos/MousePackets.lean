import Mathlib
import Hnmos.MouseDriver

/-!
# Packets of the mouse

A packet carries two nine-bit movements: the low bytes in its second and third
byte, the signs in its first. The driver takes the sign of a movement from the
top bit of its low byte instead. A run whose packets have both signs where the
driver looks for them, and whose sums stay in the range of an `int`, moves the
mouse as the packets say; the position is inside the screen in every run.
-/

set_option autoImplicit false

namespace Hnmos.MouseDriver
open Hnmos.Events Hnmos.Graphics Hnmos.Transition

/-- A packet with the marker bit and without overflow. -/
structure Packet where
  first : UInt8
  second : UInt8
  third : UInt8
  marked : first &&& 0x08 ≠ 0
  inRange : first &&& 0xC0 = 0

def Packet.bytes (p : Packet) : List UInt8 := [p.first, p.second, p.third]

/-- A nine-bit two's complement number by its sign and its low byte. -/
def movement (negative : Bool) (low : UInt8) : ℤ :=
  if negative then (low.toNat : ℤ) - 256 else low.toNat

def Packet.dx (p : Packet) : ℤ := movement (p.first &&& 0x10 ≠ 0) p.second

def Packet.dy (p : Packet) : ℤ := movement (p.first &&& 0x20 ≠ 0) p.third

def Packet.moves (p : Packet) : List (ℤ × ℤ) :=
  if p.dx = 0 ∧ p.dy = 0 then [] else [(p.dx, -p.dy)]

def clamp (size : UInt32) (value : ℤ) : ℤ := max 0 (min value (size.toNat - 1))

def follow (v : Video) (position : ℤ × ℤ) (p : Packet) : ℤ × ℤ :=
  (clamp v.width (position.1 + p.dx), clamp v.height (position.2 - p.dy))

def Mouse.position (m : Mouse) : ℤ × ℤ := (m.x.toNat, m.y.toNat)

def stepByte (v : Video) (s : Mouse × List UiEvent) (value : UInt8) : Mouse × List UiEvent :=
  ((s.1.handleByte v value).1, s.2 ++ (s.1.handleByte v value).2)

def moves (events : List UiEvent) : List (ℤ × ℤ) :=
  (events.filter fun event => event.type = .mouseMove).map fun event =>
    (event.dx.toInt, event.dy.toInt)

/-- Each sign is also the top bit of its low byte, and the sums do not leave
the range of an `int`. -/
structure Decodes (position : ℤ × ℤ) (p : Packet) : Prop where
  xSign : p.first &&& 0x10 ≠ 0 ↔ p.second &&& 0x80 ≠ 0
  ySign : p.first &&& 0x20 ≠ 0 ↔ p.third &&& 0x80 ≠ 0
  xRange : position.1 + p.dx < 2 ^ 31
  yRange : position.2 - p.dy < 2 ^ 31

def Inside (v : Video) (m : Mouse) : Prop :=
  m.x.toNat < v.width.toNat ∧ m.y.toNat < v.height.toNat

structure Spans (v : Video) : Prop where
  available : v.available = true
  width_pos : 1 ≤ v.width.toNat
  width_le : v.width.toNat ≤ 2 ^ 31
  height_pos : 1 ≤ v.height.toNat
  height_le : v.height.toNat ≤ 2 ^ 31

theorem signExtend_toInt (value : UInt8) :
    (signExtend value).toInt = movement (value &&& 0x80 ≠ 0) value := by
  have hall : ∀ n : Fin 256, (signExtend (UInt8.ofFin n)).toInt =
      movement (UInt8.ofFin n &&& 0x80 ≠ 0) (UInt8.ofFin n) := by decide +kernel
  exact hall value.toFin

theorem movement_range (negative : Bool) (low : UInt8) :
    -256 ≤ movement negative low ∧ movement negative low ≤ 255 := by
  have hlow := low.toNat_lt
  cases negative <;> simp only [movement, if_true, Bool.false_eq_true, if_false] <;> omega

/-- The driver reads a movement right exactly when its sign is the top bit. -/
theorem signExtend_eq_iff (negative : Bool) (value : UInt8) :
    (signExtend value).toInt = movement negative value ↔
      (negative = true ↔ value &&& 0x80 ≠ 0) := by
  rw [signExtend_toInt]
  by_cases hbit : value &&& 0x80 ≠ 0 <;> cases negative <;> simp [movement, hbit]
  omega

theorem toInt32_toInt (value : UInt32) : value.toInt32.toInt = (value.toNat : ℤ).bmod (2 ^ 32) :=
  BitVec.toInt_eq_toNat_bmod value.toBitVec

theorem bmod_small (n : ℤ) (hlo : -2 ^ 31 ≤ n) (hhi : n < 2 ^ 31) : n.bmod (2 ^ 32) = n :=
  Int.bmod_eq_of_le (by simpa using hlo) (by simpa using hhi)

theorem add_toInt (x : UInt32) (d : Int32) (hlo : -2 ^ 31 ≤ (x.toNat : ℤ) + d.toInt)
    (hhi : (x.toNat : ℤ) + d.toInt < 2 ^ 31) : (x.toInt32 + d).toInt = x.toNat + d.toInt := by
  rw [Int32.toInt_add, toInt32_toInt, Int.bmod_add_bmod, bmod_small _ hlo hhi]

theorem sub_toInt (x : UInt32) (d : Int32) (hlo : -2 ^ 31 ≤ (x.toNat : ℤ) - d.toInt)
    (hhi : (x.toNat : ℤ) - d.toInt < 2 ^ 31) : (x.toInt32 - d).toInt = x.toNat - d.toInt := by
  rw [Int32.toInt_sub, toInt32_toInt, Int.bmod_sub_bmod, bmod_small _ hlo hhi]

theorem limit_toInt (size : UInt32) (hpos : 1 ≤ size.toNat) (hle : size.toNat ≤ 2 ^ 31) :
    (size.toInt32 - 1).toInt = size.toNat - 1 := by
  have hone : (1 : Int32).toInt = 1 := rfl
  rw [sub_toInt size 1 (by omega) (by omega), hone]

theorem clamp_toInt (size : UInt32) (value : Int32) (hpos : 1 ≤ size.toNat)
    (hle : size.toNat ≤ 2 ^ 31) :
    ((if value < 0 then 0 else if value > size.toInt32 - 1 then size.toInt32 - 1
      else value : Int32).toUInt32.toNat : ℤ) = clamp size value.toInt := by
  have hlimit := limit_toInt size hpos hle
  have hzero : (0 : Int32).toInt = 0 := rfl
  have hnat (c : Int32) (hc : 0 ≤ c.toInt) : (c.toUInt32.toNat : ℤ) = c.toInt := by
    have hle : 0 ≤ c := Int32.le_iff_toInt_le.mpr hc
    rw [Int32.toNat_toUInt32_of_le hle, Int32.cast_toNatClampNeg c hle]
  unfold clamp
  by_cases hneg : value < 0
  · have hlt := Int32.lt_iff_toInt_lt.mp hneg
    rw [if_pos hneg, hnat 0 (by rw [hzero]), hzero]
    omega
  · have hge : ¬ value.toInt < 0 := by
      rw [← hzero, ← Int32.lt_iff_toInt_lt]
      exact hneg
    rw [if_neg hneg]
    by_cases hlarge : value > size.toInt32 - 1
    · have hgt := Int32.lt_iff_toInt_lt.mp hlarge
      rw [if_pos hlarge, hnat _ (by omega)]
      omega
    · have hsmall : ¬ (size.toInt32 - 1).toInt < value.toInt := by
        rw [← Int32.lt_iff_toInt_lt]
        exact hlarge
      rw [if_neg hlarge, hnat _ (by omega)]
      omega

theorem clamp_inside (size : UInt32) (value : ℤ) (hpos : 1 ≤ size.toNat) :
    0 ≤ clamp size value ∧ clamp size value < size.toNat := by
  unfold clamp
  omega

theorem clampPosition_toNat (v : Video) (x y : Int32) (h : Spans v) :
    ((clampPosition v x y).1.toUInt32.toNat : ℤ) = clamp v.width x.toInt ∧
      ((clampPosition v x y).2.toUInt32.toNat : ℤ) = clamp v.height y.toInt := by
  have hwidth : v.width ≠ 0 := by
    intro hzero
    have hpos := h.width_pos
    rw [hzero, UInt32.toNat_zero] at hpos
    omega
  have hheight : v.height ≠ 0 := by
    intro hzero
    have hpos := h.height_pos
    rw [hzero, UInt32.toNat_zero] at hpos
    omega
  rw [clampPosition, if_neg (by simp [h.available, hwidth, hheight])]
  exact ⟨clamp_toInt v.width x h.width_pos h.width_le,
    clamp_toInt v.height y h.height_pos h.height_le⟩

theorem applyPacket_inside (v : Video) (m : Mouse) (h : Spans v) (hin : Inside v m) :
    Inside v (m.applyPacket v).1 := by
  rw [Mouse.applyPacket]
  split_ifs
  · exact hin
  · obtain ⟨hx, hy⟩ := clampPosition_toNat v (m.x.toInt32 + signExtend (m.packet 1))
      (m.y.toInt32 - signExtend (m.packet 2)) h
    have hwidth := (clamp_inside v.width (m.x.toInt32 + signExtend (m.packet 1)).toInt
      h.width_pos).2
    have hheight := (clamp_inside v.height (m.y.toInt32 - signExtend (m.packet 2)).toInt
      h.height_pos).2
    rw [← hx] at hwidth
    rw [← hy] at hheight
    exact ⟨Int.ofNat_lt.mp hwidth, Int.ofNat_lt.mp hheight⟩

/-- No byte leads outside the screen, whatever the packets say. -/
theorem handleByte_inside (v : Video) (m : Mouse) (value : UInt8) (h : Spans v)
    (hin : Inside v m) : Inside v (m.handleByte v value).1 := by
  rw [Mouse.handleByte]
  split_ifs
  · exact hin
  · exact hin
  · exact applyPacket_inside v _ h hin

theorem moves_append (events more : List UiEvent) :
    moves (events ++ more) = moves events ++ moves more := by
  rw [moves, List.filter_append, List.map_append]
  rfl

theorem buttonChange_moves (m : Mouse) (old new : Bool) (button buttons : UInt8) :
    moves (m.buttonChange old new button buttons) = [] := by
  rw [Mouse.buttonChange]
  cases old <;> cases new <;> rfl

theorem moveEvent_moves (m : Mouse) (dx dy : Int32) (buttons : UInt8) :
    moves (m.moveEvent dx dy buttons) =
      if dx = 0 ∧ dy = 0 then [] else [(dx.toInt, dy.toInt)] := by
  rw [Mouse.moveEvent]
  split_ifs <;> rfl

theorem applyPacket_moves (v : Video) (m : Mouse) (hrange : m.packet 0 &&& 0xC0 = 0) :
    moves (m.applyPacket v).2 =
      if signExtend (m.packet 1) = 0 ∧ -signExtend (m.packet 2) = 0 then []
      else [((signExtend (m.packet 1)).toInt, (-signExtend (m.packet 2)).toInt)] := by
  rw [Mouse.applyPacket, if_neg (not_not.mpr hrange)]
  simp only [moves_append, buttonChange_moves, moveEvent_moves, List.append_nil]

theorem applyPacket_decodes (v : Video) (m : Mouse) (p : Packet) (h : Spans v)
    (hd : Decodes m.position p) (hfirst : m.packet 0 = p.first) (hsecond : m.packet 1 = p.second)
    (hthird : m.packet 2 = p.third) :
    (m.applyPacket v).1.position = follow v m.position p ∧
      moves (m.applyPacket v).2 = p.moves := by
  have hdx : (signExtend (m.packet 1)).toInt = p.dx := by
    rw [hsecond, Packet.dx, signExtend_eq_iff, decide_eq_true_iff]
    exact hd.xSign
  have hdy : (signExtend (m.packet 2)).toInt = p.dy := by
    rw [hthird, Packet.dy, signExtend_eq_iff, decide_eq_true_iff]
    exact hd.ySign
  have hxlow := movement_range (p.first &&& 0x10 ≠ 0) p.second
  have hylow := movement_range (p.first &&& 0x20 ≠ 0) p.third
  rw [← Packet.dx] at hxlow
  rw [← Packet.dy] at hylow
  have hxhigh : (m.x.toNat : ℤ) + p.dx < 2 ^ 31 := hd.xRange
  have hyhigh : (m.y.toNat : ℤ) - p.dy < 2 ^ 31 := hd.yRange
  have hsumx := add_toInt m.x (signExtend (m.packet 1)) (by omega) (by omega)
  have hsumy := sub_toInt m.y (signExtend (m.packet 2)) (by omega) (by omega)
  have hrange : m.packet 0 &&& 0xC0 = 0 := hfirst ▸ p.inRange
  have hnegdy : (-signExtend (m.packet 2)).toInt = -p.dy := by
    rw [Int32.toInt_neg, hdy, bmod_small _ (by omega) (by omega)]
  constructor
  · obtain ⟨hx, hy⟩ := clampPosition_toNat v (m.x.toInt32 + signExtend (m.packet 1))
      (m.y.toInt32 - signExtend (m.packet 2)) h
    rw [hsumx, hdx] at hx
    rw [hsumy, hdy] at hy
    rw [Mouse.applyPacket, if_neg (not_not.mpr hrange)]
    exact Prod.ext hx hy
  · have hzero : (0 : Int32).toInt = 0 := rfl
    rw [applyPacket_moves v m hrange, hdx, hnegdy, Packet.moves]
    simp only [← Int32.toInt_inj, hdx, hnegdy, hzero, neg_eq_zero]

theorem stepByte_run (v : Video) (m : Mouse) (events : List UiEvent) (bytes : List UInt8) :
    run (stepByte v) (m, events) bytes =
      ((run (stepByte v) (m, []) bytes).1, events ++ (run (stepByte v) (m, []) bytes).2) := by
  induction bytes generalizing m events with
  | nil => simp
  | cons value bytes ih =>
    rw [run_cons, run_cons, stepByte, stepByte, ih, ih _ ([] ++ _)]
    simp [List.append_assoc]

theorem packet_run (v : Video) (m : Mouse) (p : Packet) (hindex : m.packetIndex = 0) :
    ∃ packet : Fin 3 → UInt8, packet 0 = p.first ∧ packet 1 = p.second ∧ packet 2 = p.third ∧
      run (stepByte v) (m, []) p.bytes =
        { m with packet := packet, packetIndex := 0 }.applyPacket v := by
  refine ⟨Function.update (Function.update (Function.update m.packet 0 p.first) 1 p.second) 2
    p.third, rfl, rfl, rfl, ?_⟩
  have hstart : m.handleByte v p.first =
      ({ m with packet := Function.update m.packet 0 p.first, packetIndex := 1 }, []) := by
    rw [Mouse.handleByte, if_neg fun hboth => p.marked hboth.2, hindex]
    rfl
  simp only [Packet.bytes, run_cons, run_nil, stepByte, hstart]
  rfl

theorem applyPacket_index (v : Video) (m : Mouse) :
    (m.applyPacket v).1.packetIndex = m.packetIndex := by
  rw [Mouse.applyPacket]
  split_ifs <;> rfl

theorem packets_run (v : Video) (m : Mouse) (h : Spans v) (hindex : m.packetIndex = 0)
    (hin : Inside v m) (packets : List Packet)
    (hd : Along (follow v) Decodes m.position packets) :
    (run (stepByte v) (m, []) (packets.flatMap Packet.bytes)).1.position =
        run (follow v) m.position packets ∧
      moves (run (stepByte v) (m, []) (packets.flatMap Packet.bytes)).2 =
        packets.flatMap Packet.moves := by
  induction packets generalizing m with
  | nil => exact ⟨rfl, rfl⟩
  | cons p packets ih =>
    obtain ⟨packet, hfirst, hsecond, hthird, hrun⟩ := packet_run v m p hindex
    obtain ⟨hposition, hmoves⟩ := applyPacket_decodes v
      { m with packet := packet, packetIndex := 0 } p h hd.1 hfirst hsecond hthird
    have hinside := applyPacket_inside v { m with packet := packet, packetIndex := 0 } h hin
    have hnext := applyPacket_index v { m with packet := packet, packetIndex := 0 }
    rw [List.flatMap_cons, run_append, hrun]
    generalize ({ m with packet := packet, packetIndex := 0 } : Mouse).applyPacket v = applied at *
    rcases applied with ⟨m', events⟩
    have hrest : Along (follow v) Decodes m'.position packets := by
      have htail := hd.2
      rw [hposition]
      exact htail
    obtain ⟨hlast, hreported⟩ := ih m' hnext hinside hrest
    rw [stepByte_run, run_cons, moves_append, hlast, hreported, hposition, hmoves,
      List.flatMap_cons]
    exact ⟨rfl, rfl⟩

theorem bytes_inside (v : Video) (m : Mouse) (h : Spans v) (hin : Inside v m)
    (bytes : List UInt8) : Inside v (run (stepByte v) (m, []) bytes).1 := by
  apply run_invariant_all (stepByte v) (fun s => Inside v s.1)
  · intro s value hs
    exact handleByte_inside v s.1 value h hs
  · exact hin

/-- In every run whose packets the driver can decode, the position is the one
the packets lead to, the events of movement carry the movements of the packets
and the position is inside the screen after every byte. -/
theorem packets_decoded (v : Video) (m : Mouse) (h : Spans v) (hindex : m.packetIndex = 0)
    (hin : Inside v m) (packets : List Packet)
    (hd : Along (follow v) Decodes m.position packets) :
    (run (stepByte v) (m, []) (packets.flatMap Packet.bytes)).1.position =
        run (follow v) m.position packets ∧
      moves (run (stepByte v) (m, []) (packets.flatMap Packet.bytes)).2 =
        packets.flatMap Packet.moves ∧
      ∀ front, front <+: packets.flatMap Packet.bytes →
        Inside v (run (stepByte v) (m, []) front).1 := by
  obtain ⟨hposition, hmoves⟩ := packets_run v m h hindex hin packets hd
  exact ⟨hposition, hmoves, fun front _ => bytes_inside v m h hin front⟩

theorem screen_spans : Spans screen := ⟨rfl, by decide, by decide, by decide, by decide⟩

def centred : Mouse := { mouse with x := 800, y := 450 }

theorem slowLeft_marked : (0x18 : UInt8) &&& 0x08 ≠ 0 := by decide

theorem slowLeft_inRange : (0x18 : UInt8) &&& 0xC0 = 0 := by decide

def slowLeft : Packet := ⟨0x18, 0xFF, 0, slowLeft_marked, slowLeft_inRange⟩

def fastLeft : Packet := ⟨0x18, 0x01, 0, slowLeft_marked, slowLeft_inRange⟩

theorem packets_decoded_slow :
    (run (stepByte screen) (centred, []) ([slowLeft, slowLeft].flatMap Packet.bytes)).1.position =
        (798, 450) ∧
      moves (run (stepByte screen) (centred, [])
        ([slowLeft, slowLeft].flatMap Packet.bytes)).2 = [(-1, 0), (-1, 0)] := by
  have hin : Inside screen centred := ⟨by decide, by decide⟩
  have hd : Along (follow screen) Decodes centred.position [slowLeft, slowLeft] := by
    refine ⟨⟨?_, ?_, ?_, ?_⟩, ⟨?_, ?_, ?_, ?_⟩, trivial⟩ <;> decide
  obtain ⟨hposition, hmoves, _⟩ :=
    packets_decoded screen centred screen_spans rfl hin [slowLeft, slowLeft] hd
  exact ⟨hposition.trans (by decide), hmoves.trans (by decide)⟩

/-- A fast movement to the left is taken for a slow one to the right. -/
theorem fastLeft_goes_right :
    (run (stepByte screen) (centred, []) fastLeft.bytes).1.position ≠
        run (follow screen) centred.position [fastLeft] ∧
      (run (stepByte screen) (centred, []) fastLeft.bytes).1.position = (801, 450) ∧
      moves (run (stepByte screen) (centred, []) fastLeft.bytes).2 = [(1, 0)] ∧
      fastLeft.moves = [(-255, 0)] := by
  decide

end Hnmos.MouseDriver
