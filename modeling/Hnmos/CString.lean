import Mathlib

/-!
# Bounded C strings

A `char` array that is only read up to its terminator is modelled by the text
before the terminator. `CText n` is such a text together with the facts that
make it fit an array of `n` bytes: it holds no zero byte and leaves room for
the terminator. Copying never builds an overlong text; it cuts.
-/

set_option autoImplicit false

namespace Hnmos.CString

def ascii (text : String) : List UInt8 := text.toList.map fun c => UInt8.ofNat c.toNat

theorem ascii_length (cs : List Char) : (ascii (String.ofList cs)).length = cs.length := by
  rw [ascii, String.toList_ofList, List.length_map]

/-- The value of a `char` on a target where `char` is signed. -/
def charValue (c : UInt8) : ℤ := if c.toNat < 128 then c.toNat else (c.toNat : ℤ) - 256

theorem charValue_range (c : UInt8) (lo hi : ℕ) (hlo : 0 < lo) (hhi : hi < 128) :
    ((lo : ℤ) ≤ charValue c ∧ charValue c ≤ hi) ↔ lo ≤ c.toNat ∧ c.toNat ≤ hi := by
  have hc := c.toNat_lt
  unfold charValue
  split_ifs <;> omega

/-- What a reader sees from the start of `memory`: the bytes before the first
zero byte. -/
def cstr (memory : List UInt8) : List UInt8 := memory.takeWhile (· != 0)

theorem cstr_noNul (memory : List UInt8) : 0 ∉ cstr memory := by
  intro h
  simpa using List.mem_takeWhile_imp h

theorem cstr_of_noNul (text rest : List UInt8) (h : 0 ∉ text) :
    cstr (text ++ 0 :: rest) = text := by
  have ht : ∀ c ∈ text, (c != 0) = true := by
    intro c hc
    have hne : c ≠ 0 := fun e => h (e ▸ hc)
    simpa using hne
  simp [cstr, List.takeWhile_append_of_pos ht]

theorem cstr_self (text : List UInt8) (h : 0 ∉ text) : cstr text = text := by
  apply List.takeWhile_eq_self_iff.mpr
  intro c hc
  have hne : c ≠ 0 := fun e => h (e ▸ hc)
  simpa using hne

structure CText (capacity : ℕ) where
  chars : List UInt8
  noNul : 0 ∉ chars
  fits : chars.length < capacity
  deriving DecidableEq

@[ext] theorem CText.ext {capacity : ℕ} {s t : CText capacity} (h : s.chars = t.chars) :
    s = t := by
  cases s
  cases t
  simpa using h

def CText.empty (capacity : ℕ) (h : 0 < capacity := by decide) : CText capacity :=
  ⟨[], by simp, h⟩

/-- A copy loop over at most `room` bytes that stops at the terminator. -/
def copyLoop : ℕ → List UInt8 → List UInt8
  | 0, _ => []
  | _ + 1, [] => []
  | room + 1, c :: source => if c = 0 then [] else c :: copyLoop room source

theorem copyLoop_eq (room : ℕ) (source : List UInt8) :
    copyLoop room source = (cstr source).take room := by
  induction room generalizing source with
  | zero => simp [copyLoop]
  | succ room ih =>
    cases source with
    | nil => simp [copyLoop, cstr]
    | cons c source =>
      by_cases hc : c = 0
      · simp [copyLoop, cstr, hc]
      · simpa [copyLoop, cstr, hc] using ih source

theorem copyLoop_noNul (room : ℕ) (source : List UInt8) : 0 ∉ copyLoop room source := by
  rw [copyLoop_eq]
  exact fun h => cstr_noNul source (List.mem_of_mem_take h)

theorem copyLoop_length (room : ℕ) (source : List UInt8) :
    (copyLoop room source).length ≤ room := by
  rw [copyLoop_eq, List.length_take]
  exact Nat.min_le_left _ _

theorem copyLoop_self (room : ℕ) (source : List UInt8) (h : 0 ∉ source)
    (hl : source.length ≤ room) : copyLoop room source = source := by
  rw [copyLoop_eq, cstr_self source h, List.take_of_length_le hl]

/-- Fill an array of `room + 1` bytes from a C string, cutting what does not
fit; a null source leaves the empty string. -/
def CText.copy {room : ℕ} (source : Option (List UInt8)) : CText (room + 1) where
  chars := copyLoop room (source.getD [])
  noNul := copyLoop_noNul _ _
  fits := Nat.lt_succ_of_le (copyLoop_length _ _)

theorem copy_chars_self {room : ℕ} (source : List UInt8) (h : 0 ∉ source)
    (hl : source.length ≤ room) :
    (CText.copy (some source) : CText (room + 1)).chars = source :=
  copyLoop_self room source h hl

theorem copy_of_ctext {room : ℕ} (t : CText (room + 1)) :
    (CText.copy (some t.chars) : CText (room + 1)) = t :=
  CText.ext (copyLoop_self room t.chars t.noNul (Nat.lt_succ_iff.mp t.fits))

end Hnmos.CString
