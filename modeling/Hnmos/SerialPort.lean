import Mathlib
import Hnmos.Hex

/-!
# Writing to the second serial port

The transmitter reports through its status register whether it takes a byte.
The register is an oracle indexed by the number of reads; a byte that finds
the transmitter busy on every permitted read is lost. What a write does to
the read counter depends on the oracle only, never on the byte.
-/

set_option autoImplicit false

namespace Hnmos.SerialPort

structure Uart where
  canWrite : ℕ → Bool
  reads : ℕ
  written : List UInt8

def Uart.attemptWrite : ℕ → Uart → UInt8 → Uart
  | 0, u, _ => u
  | attempts + 1, u, c =>
    if u.canWrite u.reads then { u with reads := u.reads + 1, written := u.written ++ [c] }
    else Uart.attemptWrite attempts { u with reads := u.reads + 1 } c

def Uart.writeChar (u : Uart) (c : UInt8) : Uart := u.attemptWrite 100000 c

def Uart.writeText (u : Uart) (text : List UInt8) : Uart := text.foldl Uart.writeChar u

def Uart.writeHexByte (u : Uart) (b : UInt8) : Uart :=
  (u.writeChar (Hex.digit (b >>> 4))).writeChar (Hex.digit (b &&& 0x0F))

def Uart.writeHexU32 (u : Uart) (v : UInt32) : Uart :=
  [28, 24, 20, 16, 12, 8, 4, 0].foldl
    (fun u (shift : UInt32) => u.writeChar (Hex.digit ((v >>> shift) &&& 0x0F).toUInt8)) u

def Uart.writeHexText (u : Uart) (text : Option (List UInt8)) : Uart :=
  (text.getD []).foldl Uart.writeHexByte u

@[simp] theorem writeText_nil (u : Uart) : u.writeText [] = u := rfl

@[simp] theorem writeText_cons (u : Uart) (c : UInt8) (text : List UInt8) :
    u.writeText (c :: text) = (u.writeChar c).writeText text := rfl

theorem writeText_append (u : Uart) (s t : List UInt8) :
    u.writeText (s ++ t) = (u.writeText s).writeText t := List.foldl_append

theorem writeChar_eq (u : Uart) (c : UInt8) : u.writeChar c = u.writeText [c] := by
  rw [writeText_cons, writeText_nil]

theorem writeHexByte_eq (u : Uart) (b : UInt8) :
    u.writeHexByte b = u.writeText (Hex.encodeByte b) := by
  simp only [Uart.writeHexByte, Hex.encodeByte, writeText_cons, writeText_nil]

theorem writeHexU32_eq (u : Uart) (v : UInt32) :
    u.writeHexU32 v = u.writeText (Hex.encode32 v) := by
  rw [Uart.writeHexU32, Uart.writeText, Hex.encode32, List.foldl_map]

theorem writeHexText_eq (u : Uart) (text : Option (List UInt8)) :
    u.writeHexText text = u.writeText (Hex.encode (text.getD [])) := by
  rw [Uart.writeHexText]
  generalize text.getD [] = bs
  induction bs generalizing u with
  | nil => rw [List.foldl_nil, Hex.encode_nil, writeText_nil]
  | cons b bs ih =>
    have hcons : Hex.encode (b :: bs) = Hex.encodeByte b ++ Hex.encode bs := rfl
    rw [List.foldl_cons, ih, writeHexByte_eq, hcons, writeText_append]

/-- The status register reports ready within the permitted reads, from
every point on. -/
def Uart.Reliable (u : Uart) : Prop :=
  ∀ n, ∃ k < 100000, u.canWrite (n + k) = true

def readyUart : Uart := ⟨fun _ => true, 0, []⟩

theorem readyUart_reliable : readyUart.Reliable := fun _ => ⟨0, by decide, rfl⟩

theorem attemptWrite_canWrite (attempts : ℕ) (u : Uart) (c : UInt8) :
    (u.attemptWrite attempts c).canWrite = u.canWrite := by
  induction attempts generalizing u with
  | zero => rfl
  | succ attempts ih =>
    rw [Uart.attemptWrite]
    split_ifs
    · rfl
    · exact ih _

@[simp] theorem writeText_canWrite (u : Uart) (text : List UInt8) :
    (u.writeText text).canWrite = u.canWrite := by
  induction text generalizing u with
  | nil => rfl
  | cons c text ih =>
    rw [writeText_cons, ih]
    exact attemptWrite_canWrite _ u c

theorem attemptWrite_written (attempts : ℕ) (u : Uart) (c : UInt8)
    (h : ∃ k < attempts, u.canWrite (u.reads + k) = true) :
    (u.attemptWrite attempts c).written = u.written ++ [c] := by
  induction attempts generalizing u with
  | zero => simp at h
  | succ attempts ih =>
    rw [Uart.attemptWrite]
    split_ifs with hready
    · rfl
    · refine ih { u with reads := u.reads + 1 } ?_
      obtain ⟨k, hk, hk'⟩ := h
      cases k with
      | zero => exact absurd hk' hready
      | succ k => exact ⟨k, by omega, by rwa [Nat.add_right_comm, Nat.add_assoc]⟩

theorem reliable_writeText (u : Uart) (text : List UInt8) (h : u.Reliable) :
    (u.writeText text).Reliable := by
  intro n
  rw [writeText_canWrite]
  exact h n

theorem writeText_written (u : Uart) (text : List UInt8) (h : u.Reliable) :
    (u.writeText text).written = u.written ++ text := by
  induction text generalizing u with
  | nil => simp
  | cons c text ih =>
    have hc := attemptWrite_written 100000 u c (h u.reads)
    have hr : (u.writeChar c).Reliable := by
      rw [writeChar_eq]
      exact reliable_writeText u [c] h
    rw [writeText_cons, ih _ hr, Uart.writeChar, hc, List.append_assoc, List.singleton_append]

def SameState (u v : Uart) : Prop := u.canWrite = v.canWrite ∧ u.reads = v.reads

theorem attemptWrite_related (R : List UInt8 → List UInt8 → Prop) (attempts : ℕ) (u v : Uart)
    (c d : UInt8) (hs : SameState u v) (hr : R u.written v.written)
    (hcd : R (u.written ++ [c]) (v.written ++ [d])) :
    SameState (u.attemptWrite attempts c) (v.attemptWrite attempts d) ∧
      R (u.attemptWrite attempts c).written (v.attemptWrite attempts d).written := by
  induction attempts generalizing u v with
  | zero => exact ⟨hs, hr⟩
  | succ attempts ih =>
    obtain ⟨hw, hn⟩ := hs
    simp only [Uart.attemptWrite, hw, hn]
    split_ifs
    · exact ⟨⟨rfl, rfl⟩, hcd⟩
    · exact ih _ _ ⟨rfl, rfl⟩ hr hcd

end Hnmos.SerialPort
