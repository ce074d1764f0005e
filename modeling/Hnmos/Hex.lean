import Mathlib

/-!
# Hexadecimal text

Upper-case encoding of bytes and of 32-bit words, and a decoder that takes
both cases. Decoding inverts encoding, and encoded text is free of every
byte that is not a digit, so it can be embedded in a delimited frame.
-/

set_option autoImplicit false

namespace Hnmos.Hex

def digit (v : UInt8) : UInt8 := if v < 10 then 48 + v else 65 + (v - 10)

def value (c : UInt8) : Option UInt8 :=
  if 48 ≤ c ∧ c ≤ 57 then some (c - 48)
  else if 65 ≤ c ∧ c ≤ 70 then some (10 + (c - 65))
  else if 97 ≤ c ∧ c ≤ 102 then some (10 + (c - 97))
  else none

def encodeByte (b : UInt8) : List UInt8 := [digit (b >>> 4), digit (b &&& 0x0F)]

def encode (bs : List UInt8) : List UInt8 := bs.flatMap encodeByte

def decode : List UInt8 → Option (List UInt8)
  | [] => some []
  | [_] => none
  | a :: b :: rest =>
    match value a, value b, decode rest with
    | some high, some low, some tail => some ((high <<< 4 ||| low) :: tail)
    | _, _, _ => none

theorem forall_byte {P : UInt8 → Prop} (h : ∀ i : Fin 256, P (UInt8.ofNat i.val)) (b : UInt8) :
    P b := by
  have hb := h ⟨b.toNat, b.toNat_lt⟩
  simpa using hb

theorem value_high (b : UInt8) : value (digit (b >>> 4)) = some (b >>> 4) := by
  revert b
  apply forall_byte
  decide +kernel

theorem value_low (b : UInt8) : value (digit (b &&& 0x0F)) = some (b &&& 0x0F) := by
  revert b
  apply forall_byte
  decide +kernel

theorem join_nibbles (b : UInt8) : (b >>> 4) <<< 4 ||| (b &&& 0x0F) = b := by
  revert b
  apply forall_byte
  decide +kernel

theorem decode_encode_append (bs rest tail : List UInt8) (h : decode rest = some tail) :
    decode (encode bs ++ rest) = some (bs ++ tail) := by
  induction bs with
  | nil => simpa [encode] using h
  | cons b bs ih =>
    simp only [encode, List.flatMap_cons, encodeByte, List.cons_append, List.nil_append] at *
    simp only [decode, value_high, value_low, ih, join_nibbles]

theorem decode_encode (bs : List UInt8) : decode (encode bs) = some bs := by
  simpa using decode_encode_append bs [] [] rfl

@[simp] theorem encode_length (bs : List UInt8) : (encode bs).length = 2 * bs.length := by
  induction bs with
  | nil => rfl
  | cons b bs ih =>
    simp only [encode, List.flatMap_cons, encodeByte, List.length_append, List.length_cons,
      List.length_nil] at *
    omega

@[simp] theorem encode_nil : encode [] = [] := rfl

theorem value_of_mem_encode (bs : List UInt8) (c : UInt8) (h : c ∈ encode bs) :
    (value c).isSome = true := by
  obtain ⟨b, _, hb⟩ := List.mem_flatMap.mp h
  simp only [encodeByte, List.mem_cons, List.not_mem_nil, or_false] at hb
  rcases hb with rfl | rfl
  · rw [value_high, Option.isSome_some]
  · rw [value_low, Option.isSome_some]

theorem not_mem_encode (bs : List UInt8) (c : UInt8) (h : value c = none) : c ∉ encode bs := by
  intro hc
  have hv := value_of_mem_encode bs c hc
  simp [h] at hv

/-- The eight digits of a word, most significant first. -/
def encode32 (v : UInt32) : List UInt8 :=
  [28, 24, 20, 16, 12, 8, 4, 0].map fun shift : UInt32 =>
    digit ((v >>> shift) &&& 0x0F).toUInt8

def decode32 (text : List UInt8) : Option UInt32 :=
  text.foldl (fun acc c => acc.bind fun r => (value c).map fun d => r <<< 4 ||| d.toUInt32)
    (some 0)

@[simp] theorem encode32_length (v : UInt32) : (encode32 v).length = 8 := rfl

theorem value_nibble (d : UInt32) :
    value (digit (d &&& 0x0F).toUInt8) = some (d &&& 0x0F).toUInt8 := by
  have h : (d &&& 0x0F).toUInt8 = d.toUInt8 &&& 0x0F := by
    apply UInt8.toNat_inj.mp
    simp
  rw [h, value_low]

theorem value_of_mem_encode32 (v : UInt32) (c : UInt8) (h : c ∈ encode32 v) :
    (value c).isSome = true := by
  obtain ⟨shift, _, rfl⟩ := List.mem_map.mp h
  rw [value_nibble, Option.isSome_some]

theorem nibble_toNat (v s : UInt32) (hs : s.toNat < 32) :
    ((v >>> s) &&& 0x0F).toUInt8.toUInt32.toNat = v.toNat / 2 ^ s.toNat % 16 := by
  have h15 : ∀ n : ℕ, n &&& 15 = n % 16 := fun n => Nat.and_two_pow_sub_one_eq_mod n 4
  simp only [UInt8.toNat_toUInt32, UInt32.toNat_toUInt8, UInt32.toNat_and,
    UInt32.toNat_shiftRight, Nat.mod_eq_of_lt hs, UInt32.reduceToNat, h15,
    Nat.shiftRight_eq_div_pow]
  omega

theorem append_nibble_toNat (r d : UInt32) (hr : r.toNat < 2 ^ 28) (hd : d.toNat < 16) :
    (r <<< 4 ||| d).toNat = 16 * r.toNat + d.toNat := by
  have hshift : (r <<< 4).toNat = r.toNat <<< 4 := by
    rw [UInt32.toNat_shiftLeft, show (4 : UInt32).toNat % 32 = 4 from rfl, Nat.shiftLeft_eq,
      Nat.mod_eq_of_lt (by omega)]
  rw [UInt32.toNat_or, hshift, ← Nat.shiftLeft_add_eq_or_of_lt (by omega), Nat.shiftLeft_eq]
  omega

/-- One more digit turns the word's leading part above bit `s + 4` into the
part above bit `s`. -/
theorem append_nibble_part (v r s : UInt32) (hs : s.toNat ≤ 28)
    (hr : r.toNat = v.toNat / 2 ^ (s.toNat + 4)) :
    (r <<< 4 ||| ((v >>> s) &&& 0x0F).toUInt8.toUInt32).toNat = v.toNat / 2 ^ s.toNat := by
  have hv := v.toNat_lt
  have hn := nibble_toNat v s (by omega)
  have hr' : r.toNat = v.toNat / 2 ^ s.toNat / 16 := by
    rw [hr, pow_add, Nat.div_div_eq_div_mul]
    norm_num
  have hle : v.toNat / 2 ^ s.toNat ≤ v.toNat := Nat.div_le_self _ _
  rw [append_nibble_toNat r _ (by omega) (by omega), hn]
  omega

theorem decode_nibbles (v : UInt32) (shifts : List UInt32) (r : UInt32) :
    (shifts.map fun shift => digit ((v >>> shift) &&& 0x0F).toUInt8).foldl
        (fun (acc : Option UInt32) c =>
          acc.bind fun r => (value c).map fun d => r <<< 4 ||| d.toUInt32) (some r) =
      some (shifts.foldl
        (fun (r : UInt32) shift => r <<< 4 ||| ((v >>> shift) &&& 0x0F).toUInt8.toUInt32) r) := by
  induction shifts generalizing r with
  | nil => rfl
  | cons shift shifts ih =>
    rw [List.map_cons, List.foldl_cons, Option.bind_some, value_nibble, Option.map_some, ih,
      List.foldl_cons]

theorem decode32_encode32 (v : UInt32) : decode32 (encode32 v) = some v := by
  have hv := v.toNat_lt
  rw [decode32, encode32, decode_nibbles]
  congr 1
  apply UInt32.toNat_inj.mp
  have h28 := append_nibble_part v 0 28 (by decide) (by simpa using (Nat.div_eq_of_lt hv).symm)
  have h24 := append_nibble_part v _ 24 (by decide) h28
  have h20 := append_nibble_part v _ 20 (by decide) h24
  have h16 := append_nibble_part v _ 16 (by decide) h20
  have h12 := append_nibble_part v _ 12 (by decide) h16
  have h8 := append_nibble_part v _ 8 (by decide) h12
  have h4 := append_nibble_part v _ 4 (by decide) h8
  have h0 := append_nibble_part v _ 0 (by decide) h4
  simpa using h0

end Hnmos.Hex
