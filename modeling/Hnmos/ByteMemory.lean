import Mathlib

/-!
# Bytes and words

A memory of bytes under 32-bit addresses that wrap. A word is four bytes, low
byte first, at any address. A list of stores is carried out in order.
-/

set_option autoImplicit false

namespace Hnmos.ByteMemory

abbrev Memory := UInt32 → UInt8

def byteOf (v : UInt32) (i : ℕ) : UInt8 := UInt8.ofNat (v.toNat / 256 ^ i)

/-- `x` is one of the four bytes at `a`. -/
def Covers (a x : UInt32) : Prop := (x - a).toNat < 4

instance decidableCovers (a x : UInt32) : Decidable (Covers a x) :=
  inferInstanceAs (Decidable (_ < _))

def load (m : Memory) (a : UInt32) : UInt32 :=
  UInt32.ofNat ((m a).toNat + 256 * (m (a + 1)).toNat + 65536 * (m (a + 2)).toNat +
    16777216 * (m (a + 3)).toNat)

def store (m : Memory) (a v : UInt32) : Memory :=
  fun x => if Covers a x then byteOf v (x - a).toNat else m x

abbrev Store := UInt32 × UInt32

def apply (m : Memory) (stores : List Store) : Memory :=
  stores.foldl (fun m s => store m s.1 s.2) m

@[simp] theorem apply_nil (m : Memory) : apply m [] = m := rfl

@[simp] theorem apply_cons (m : Memory) (s : Store) (stores : List Store) :
    apply m (s :: stores) = apply (store m s.1 s.2) stores := rfl

theorem apply_append (m : Memory) (stores more : List Store) :
    apply m (stores ++ more) = apply (apply m stores) more := List.foldl_append

theorem covers_iff (a x : UInt32) :
    Covers a x ↔ x = a ∨ x = a + 1 ∨ x = a + 2 ∨ x = a + 3 := by
  unfold Covers
  rw [UInt32.toNat_sub, ← UInt32.toNat_inj, ← UInt32.toNat_inj, ← UInt32.toNat_inj,
    ← UInt32.toNat_inj, UInt32.toNat_add, UInt32.toNat_add, UInt32.toNat_add]
  have hx := x.toNat_lt
  have ha := a.toNat_lt
  have h1 : UInt32.toNat 1 = 1 := rfl
  have h2 : UInt32.toNat 2 = 2 := rfl
  have h3 : UInt32.toNat 3 = 3 := rfl
  omega

theorem covers_self (a : UInt32) : Covers a a := (covers_iff a a).mpr (.inl rfl)

theorem load_congr (m m' : Memory) (a : UInt32) (h : ∀ x, Covers a x → m x = m' x) :
    load m a = load m' a := by
  unfold load
  rw [h a ((covers_iff a _).mpr (.inl rfl)), h (a + 1) ((covers_iff a _).mpr (.inr (.inl rfl))),
    h (a + 2) ((covers_iff a _).mpr (.inr (.inr (.inl rfl)))),
    h (a + 3) ((covers_iff a _).mpr (.inr (.inr (.inr rfl))))]

theorem store_outside (m : Memory) (a v x : UInt32) (h : ¬ Covers a x) : store m a v x = m x :=
  if_neg h

theorem byteOf_toNat (v : UInt32) (i : ℕ) : (byteOf v i).toNat = v.toNat / 256 ^ i % 256 := by
  rw [byteOf, UInt8.toNat_ofNat']

theorem add_sub_self (a i : UInt32) : a + i - a = i := by grind

theorem store_byte (m : Memory) (a v i : UInt32) (h : i.toNat < 4) :
    store m a v (a + i) = byteOf v i.toNat := by
  have hcover : Covers a (a + i) := by
    unfold Covers
    rwa [add_sub_self]
  rw [store, if_pos hcover, add_sub_self]

theorem load_store (m : Memory) (a v : UInt32) : load (store m a v) a = v := by
  have h0 : store m a v a = byteOf v 0 := by
    have hfirst := store_byte m a v 0 (by decide)
    rwa [UInt32.add_zero] at hfirst
  have h1 := store_byte m a v 1 (by decide)
  have h2 := store_byte m a v 2 (by decide)
  have h3 := store_byte m a v 3 (by decide)
  have hv := v.toNat_lt
  unfold load
  rw [h0, h1, h2, h3, ← UInt32.toNat_inj, UInt32.toNat_ofNat']
  simp only [byteOf_toNat]
  show (v.toNat / 256 ^ 0 % 256 + 256 * (v.toNat / 256 ^ 1 % 256) +
    65536 * (v.toNat / 256 ^ 2 % 256) + 16777216 * (v.toNat / 256 ^ 3 % 256)) % 2 ^ 32 = v.toNat
  omega

/-- The words at two addresses have no byte in common. -/
def Apart (a b : UInt32) : Prop := ∀ x, ¬ (Covers a x ∧ Covers b x)

theorem apart_of_le (a b : UInt32) (h : a.toNat + 4 ≤ b.toNat) (hb : b.toNat + 4 ≤ 2 ^ 32) :
    Apart a b := by
  rintro x ⟨hax, hbx⟩
  unfold Covers at hax hbx
  rw [UInt32.toNat_sub] at hax hbx
  have hx := x.toNat_lt
  omega

theorem load_store_apart (m : Memory) (a b v : UInt32) (h : Apart a b) :
    load (store m a v) b = load m b :=
  load_congr _ _ b fun x hx => store_outside m a v x fun ha => h x ⟨ha, hx⟩

theorem apply_outside (m : Memory) (stores : List Store) (x : UInt32)
    (h : ∀ s ∈ stores, ¬ Covers s.1 x) : apply m stores x = m x := by
  induction stores generalizing m with
  | nil => rfl
  | cons s stores ih =>
    rw [apply_cons, ih _ fun t ht => h t (List.mem_cons_of_mem s ht)]
    exact store_outside m s.1 s.2 x (h s List.mem_cons_self)

theorem load_apply_apart (m : Memory) (stores : List Store) (a : UInt32)
    (h : ∀ s ∈ stores, Apart s.1 a) : load (apply m stores) a = load m a :=
  load_congr _ _ a fun x hx => apply_outside m stores x fun s hs hcover =>
    h s hs x ⟨hcover, hx⟩

/-- Two memories that agree at an address agree there after the same stores. -/
theorem apply_agree (m m' : Memory) (stores : List Store) (x : UInt32) (h : m x = m' x) :
    apply m stores x = apply m' stores x := by
  induction stores generalizing m m' with
  | nil => exact h
  | cons s stores ih =>
    apply ih
    show store m s.1 s.2 x = store m' s.1 s.2 x
    unfold store
    split_ifs
    · rfl
    · exact h

theorem apply_covered (m m' : Memory) (stores : List Store) (x : UInt32)
    (h : ∃ s ∈ stores, Covers s.1 x) : apply m stores x = apply m' stores x := by
  induction stores generalizing m m' with
  | nil =>
    obtain ⟨s, hs, -⟩ := h
    exact absurd hs List.not_mem_nil
  | cons s stores ih =>
    by_cases hcover : Covers s.1 x
    · rw [apply_cons, apply_cons]
      apply apply_agree
      show store m s.1 s.2 x = store m' s.1 s.2 x
      rw [store, store, if_pos hcover, if_pos hcover]
    · apply ih
      obtain ⟨t, ht, htx⟩ := h
      rcases List.mem_cons.mp ht with rfl | ht
      · exact absurd htx hcover
      · exact ⟨t, ht, htx⟩

def pushes (esp : UInt32) : List UInt32 → List Store
  | [] => []
  | v :: vs => (esp - 4, v) :: pushes (esp - 4) vs

/-- The stack pointer after `n` words have been pushed. -/
def below (esp : UInt32) (n : ℕ) : UInt32 := esp - UInt32.ofNat (4 * n)

theorem below_toNat (esp : UInt32) (n : ℕ) (h : 4 * n ≤ esp.toNat) :
    (below esp n).toNat = esp.toNat - 4 * n := by
  have hesp := esp.toNat_lt
  rw [below, UInt32.toNat_sub, UInt32.toNat_ofNat', Nat.mod_eq_of_lt (a := 4 * n) (by omega)]
  omega

theorem below_succ (esp : UInt32) (n : ℕ) : below (esp - 4) n = below esp (n + 1) := by
  have hfour : UInt32.ofNat (4 * (n + 1)) = 4 + UInt32.ofNat (4 * n) := by
    rw [Nat.mul_add, Nat.add_comm, UInt32.ofNat_add]
    rfl
  rw [below, below, hfour]
  grind

theorem sub_four_toNat (esp : UInt32) (h : 4 ≤ esp.toNat) : (esp - 4).toNat = esp.toNat - 4 := by
  have hone := below_toNat esp 1 h
  exact hone

theorem pushes_range (esp : UInt32) (vs : List UInt32) (h : 4 * vs.length ≤ esp.toNat)
    (s : Store) (hs : s ∈ pushes esp vs) :
    esp.toNat - 4 * vs.length ≤ s.1.toNat ∧ s.1.toNat + 4 ≤ esp.toNat := by
  induction vs generalizing esp with
  | nil => exact absurd hs List.not_mem_nil
  | cons v vs ih =>
    rw [List.length_cons] at h ⊢
    have hfour := sub_four_toNat esp (by omega)
    rcases List.mem_cons.mp hs with rfl | hs
    · show esp.toNat - _ ≤ (esp - 4).toNat ∧ (esp - 4).toNat + 4 ≤ _
      omega
    · have hrest := ih (esp - 4) (by omega) hs
      omega

theorem covers_range (a x : UInt32) (h : a.toNat + 4 ≤ 2 ^ 32) (hx : Covers a x) :
    a.toNat ≤ x.toNat ∧ x.toNat < a.toNat + 4 := by
  unfold Covers at hx
  rw [UInt32.toNat_sub] at hx
  have hlt := x.toNat_lt
  omega

theorem pushes_outside (m : Memory) (esp : UInt32) (vs : List UInt32) (x : UInt32)
    (h : 4 * vs.length ≤ esp.toNat)
    (hx : x.toNat < esp.toNat - 4 * vs.length ∨ esp.toNat ≤ x.toNat) :
    apply m (pushes esp vs) x = m x := by
  apply apply_outside
  intro s hs hcover
  have hrange := pushes_range esp vs h s hs
  have hesp := esp.toNat_lt
  have hcovered := covers_range s.1 x (by omega) hcover
  omega

theorem pushes_load (m : Memory) (esp : UInt32) (vs : List UInt32) (i : ℕ) (v : UInt32)
    (h : 4 * vs.length ≤ esp.toNat) (hi : vs[i]? = some v) :
    load (apply m (pushes esp vs)) (below esp (i + 1)) = v := by
  induction vs generalizing m esp i with
  | nil => exact absurd hi (Option.some_ne_none v).symm
  | cons w vs ih =>
    rw [List.length_cons] at h
    have hesp := esp.toNat_lt
    have hfour := sub_four_toNat esp (by omega)
    cases i with
    | zero =>
      obtain rfl : w = v := Option.some.inj hi
      rw [pushes, apply_cons, load_apply_apart]
      · exact load_store m (esp - 4) w
      · intro s hs
        have hrange := pushes_range (esp - 4) vs (by omega) s hs
        apply apart_of_le
        · exact hrange.2
        · show (esp - 4).toNat + 4 ≤ _
          omega
    | succ i =>
      rw [pushes, apply_cons, ← below_succ]
      exact ih _ (esp - 4) i (by omega) hi

end Hnmos.ByteMemory
