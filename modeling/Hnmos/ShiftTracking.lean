import Mathlib
import Hnmos.Events
import Hnmos.Transition

/-!
# Two shift keys and one flag

The keyboard driver keeps one flag that a press of either shift key sets and a
release of either clears, so the flag says what the last shift code was. It
misses a key that is still held when the other is released. A sequence is
decoded as by a decoder that knows both keys exactly when no key with a shifted
character is pressed at such a moment.
-/

set_option autoImplicit false

namespace Hnmos.ShiftTracking
open Hnmos.Events Hnmos.Transition

def lastWhere {α : Type*} (p : α → Bool) (codes : List α) : Option α := codes.reverse.find? p

theorem lastWhere_snoc {α : Type*} (p : α → Bool) (codes : List α) (code : α) :
    lastWhere p (codes ++ [code]) = if p code then some code else lastWhere p codes := by
  rw [lastWhere, List.reverse_append, List.reverse_singleton, List.singleton_append,
    List.find?_cons]
  cases hp : p code <;> rfl

/-- Where the last element with a weak property has a strong one, it is also
the last with the strong one. -/
theorem lastWhere_of_imp {α : Type*} (p q : α → Bool) (himp : ∀ a, q a = true → p a = true)
    (codes : List α) (a : α) (hlast : lastWhere p codes = some a) (hq : q a = true) :
    lastWhere q codes = some a := by
  induction codes using List.reverseRecOn with
  | nil => exact absurd hlast.symm (Option.some_ne_none a)
  | append_singleton codes code ih =>
    rw [lastWhere_snoc] at hlast ⊢
    by_cases hp : p code = true
    · rw [if_pos hp] at hlast
      obtain rfl := Option.some.inj hlast
      rw [if_pos hq]
    · rw [if_neg hp] at hlast
      rw [if_neg fun hcode => hp (himp code hcode)]
      exact ih hlast

theorem lastWhere_none_of_imp {α : Type*} (p q : α → Bool) (himp : ∀ a, q a = true → p a = true)
    (codes : List α) (hnone : lastWhere p codes = none) : lastWhere q codes = none := by
  rw [lastWhere, List.find?_eq_none] at hnone ⊢
  intro a ha hq
  exact hnone a ha (himp a hq)

def leftShift : UInt8 := 0x2A

def rightShift : UInt8 := 0x36

def isRelease (code : UInt8) : Bool := code &&& 0x80 != 0

def isKey (key code : UInt8) : Bool := code &&& 0x7F == key

def isShift (code : UInt8) : Bool := isKey leftShift code || isKey rightShift code

/-- A key has been pressed more recently than it was released. -/
def held (key : UInt8) (codes : List UInt8) : Bool :=
  (lastWhere (isKey key) codes).any fun code => !isRelease code

def shiftHeld (codes : List UInt8) : Bool := held leftShift codes || held rightShift codes

/-- What the decoder that knows both keys pushes for a code. -/
def referenceEvents (codes : List UInt8) (code : UInt8) : List UiEvent :=
  (handleScancode (shiftHeld codes) code).2

def shiftPressed (codes : List UInt8) : Bool :=
  run (fun shift code => (handleScancode shift code).1) false codes

def driverEvents (codes : List UInt8) (code : UInt8) : List UiEvent :=
  (handleScancode (shiftPressed codes) code).2

/-- A key whose character depends on shift: a letter, the minus or the equals
sign. -/
def Shiftable (code : UInt8) : Prop :=
  applyShift true (scancodeToChar code) ≠ scancodeToChar code

def ShiftReleased (codes : List UInt8) : Prop :=
  ∃ code, lastWhere isShift codes = some code ∧ isRelease code = true

theorem low_code (code : UInt8) (h : code &&& 0x80 = 0) : code &&& 0x7F = code := by
  have hall : ∀ n : Fin 256, UInt8.ofFin n &&& 0x80 = 0 →
      UInt8.ofFin n &&& 0x7F = UInt8.ofFin n := by decide +kernel
  exact hall code.toFin h

theorem isShift_iff (code : UInt8) :
    isShift code = true ↔ code &&& 0x7F = 0x2A ∨ code &&& 0x7F = 0x36 := by
  rw [isShift, isKey, isKey, Bool.or_eq_true, beq_iff_eq, beq_iff_eq]
  exact Iff.rfl

theorem handleScancode_shift (shift : Bool) (code : UInt8) :
    (handleScancode shift code).1 = if isShift code then !isRelease code else shift := by
  have hshift := isShift_iff code
  unfold handleScancode
  by_cases hrelease : code &&& 0x80 = 0
  · have hpress : isRelease code = false := by
      rw [isRelease, hrelease]
      rfl
    rw [low_code code hrelease] at hshift
    rw [if_neg (not_not.mpr hrelease), hpress]
    by_cases hkey : code = 0x2A ∨ code = 0x36
    · rw [if_pos hkey, if_pos (hshift.mpr hkey)]
      rfl
    · rw [if_neg hkey, if_neg fun h => hkey (hshift.mp h)]
      simp only
      split_ifs <;> rfl
  · have hrelease' : isRelease code = true := bne_iff_ne.mpr hrelease
    rw [if_pos hrelease, hrelease']
    simp only
    by_cases hkey : code &&& 0x7F = 0x2A ∨ code &&& 0x7F = 0x36
    · rw [if_pos hkey, if_pos (hshift.mpr hkey)]
      rfl
    · rw [if_neg hkey, if_neg fun h => hkey (hshift.mp h)]

theorem handleScancode_events_iff (code : UInt8) :
    (handleScancode true code).2 = (handleScancode false code).2 ↔ ¬ Shiftable code := by
  have hall : ∀ n : Fin 256,
      (handleScancode true (UInt8.ofFin n)).2 = (handleScancode false (UInt8.ofFin n)).2 ↔
        ¬ applyShift true (scancodeToChar (UInt8.ofFin n)) ≠ scancodeToChar (UInt8.ofFin n) := by
    decide +kernel
  exact hall code.toFin

theorem shiftPressed_eq (codes : List UInt8) :
    shiftPressed codes = (lastWhere isShift codes).any fun code => !isRelease code := by
  induction codes using List.reverseRecOn with
  | nil => rfl
  | append_singleton codes code ih =>
    rw [shiftPressed, run_concat, handleScancode_shift, lastWhere_snoc, ← shiftPressed, ih]
    cases hshift : isShift code <;> simp

theorem held_none (key : UInt8) (codes : List UInt8)
    (himp : ∀ code, isKey key code = true → isShift code = true)
    (hnone : lastWhere isShift codes = none) : held key codes = false := by
  rw [held, lastWhere_none_of_imp isShift (isKey key) himp codes hnone]
  rfl

theorem held_last (key code : UInt8) (codes : List UInt8)
    (himp : ∀ code, isKey key code = true → isShift code = true)
    (hlast : lastWhere isShift codes = some code) (hkey : isKey key code = true) :
    held key codes = !isRelease code := by
  rw [held, lastWhere_of_imp isShift (isKey key) himp codes code hlast hkey]
  rfl

theorem shiftPressed_eq_iff (codes : List UInt8) :
    shiftPressed codes = shiftHeld codes ↔ (ShiftReleased codes → shiftHeld codes = false) := by
  have hleft : ∀ code, isKey leftShift code = true → isShift code = true := by
    intro code hkey
    rw [isShift, hkey, Bool.true_or]
  have hright : ∀ code, isKey rightShift code = true → isShift code = true := by
    intro code hkey
    rw [isShift, hkey, Bool.or_true]
  rw [shiftPressed_eq]
  cases hlast : lastWhere isShift codes with
  | none =>
    have hidle : shiftHeld codes = false := by
      rw [shiftHeld, held_none leftShift codes hleft hlast, held_none rightShift codes hright hlast]
      rfl
    rw [hidle]
    exact ⟨fun _ _ => rfl, fun _ => rfl⟩
  | some code =>
    cases hrelease : isRelease code with
    | false =>
      have hshift : isShift code = true := List.find?_some hlast
      have hheld : shiftHeld codes = true := by
        rcases Bool.or_eq_true_iff.mp hshift with hkey | hkey
        · rw [shiftHeld, held_last leftShift code codes hleft hlast hkey, hrelease]
          rfl
        · rw [shiftHeld, held_last rightShift code codes hright hlast hkey, hrelease, Bool.or_comm]
          rfl
      rw [hheld]
      constructor
      · rintro _ ⟨other, hother, hreleased⟩
        rw [hlast] at hother
        rw [← Option.some.inj hother, hrelease] at hreleased
        exact absurd hreleased Bool.false_ne_true
      · intro _
        simp [hrelease]
    | true =>
      have hreleased : ShiftReleased codes := ⟨code, hlast, hrelease⟩
      constructor
      · intro heq _
        rw [← heq]
        simp [hrelease]
      · intro hfree
        rw [hfree hreleased]
        simp [hrelease]

theorem events_eq_iff (codes : List UInt8) (code : UInt8) :
    driverEvents codes code = referenceEvents codes code ↔
      (Shiftable code → ShiftReleased codes → shiftHeld codes = false) := by
  rw [driverEvents, referenceEvents, ← shiftPressed_eq_iff]
  by_cases hsame : shiftPressed codes = shiftHeld codes
  · rw [hsame]
    exact ⟨fun _ _ => rfl, fun _ => rfl⟩
  · have hdiffer : (handleScancode (shiftPressed codes) code).2 =
        (handleScancode (shiftHeld codes) code).2 ↔ ¬ Shiftable code := by
      rw [← handleScancode_events_iff]
      cases hpressed : shiftPressed codes <;> cases hheld : shiftHeld codes
      · exact absurd (hpressed.trans hheld.symm) hsame
      · exact eq_comm
      · exact Iff.rfl
      · exact absurd (hpressed.trans hheld.symm) hsame
    rw [hdiffer]
    exact ⟨fun hplain hshift => absurd hshift hplain, fun h hshift => hsame (h hshift)⟩

/-- In a sequence from the initialisation on, every code pushes the events of
the decoder that knows both keys exactly when no key with a shifted character
is pressed while one shift key is held and the other was the last released. -/
theorem shift_tracked_iff (codes : List UInt8) :
    (∀ front code, front ++ [code] <+: codes →
      driverEvents front code = referenceEvents front code) ↔
    ∀ front code, front ++ [code] <+: codes → Shiftable code → ShiftReleased front →
      shiftHeld front = false := by
  simp only [events_eq_iff]

/-- Both shift keys are pressed, the left one is released and a letter is typed. -/
theorem held_shift_missed :
    ¬ ∀ front code, front ++ [code] <+: [0x2A, 0x36, 0xAA, 0x1E] →
      driverEvents front code = referenceEvents front code := by
  intro htracked
  have hletter := htracked [0x2A, 0x36, 0xAA] 0x1E (List.prefix_refl _)
  exact absurd hletter (by decide)

end Hnmos.ShiftTracking
