import Mathlib
import Hnmos.SerialTransport

/-!
# Outputs that differ in key payloads only

Whether a byte gets onto the line depends on the status register and on how
often it has been read, never on the byte. Two texts of one length therefore
lose the same positions, and two key frames for keys of one length differ in
their payloads only.
-/

set_option autoImplicit false

namespace Hnmos.SerialTransport
open Hnmos.CString Hnmos.SerialPort Hnmos.Task

def survivors : List Bool → List UInt8 → List UInt8
  | kept :: keeps, c :: text => if kept then c :: survivors keeps text else survivors keeps text
  | _, _ => []

/-- The same bytes, apart from key frames for keys of one length, of which the
same positions got through. -/
inductive SameButKeys : List UInt8 → List UInt8 → Prop
  | nil : SameButKeys [] []
  | text {w w' : List UInt8} (sent : List UInt8) (h : SameButKeys w w') :
    SameButKeys (w ++ sent) (w' ++ sent)
  | key {w w' : List UInt8} (kept : List Bool) (apiKey apiKey' : List UInt8)
    (hlength : apiKey.length = apiKey'.length) (h : SameButKeys w w') :
    SameButKeys (w ++ survivors kept (keyFrame apiKey)) (w' ++ survivors kept (keyFrame apiKey'))

theorem sameButKeys_refl (w : List UInt8) : SameButKeys w w :=
  SameButKeys.text w SameButKeys.nil

def Alike (u v : Uart) : Prop := SameState u v ∧ SameButKeys u.written v.written

theorem writeChar_position (u v : Uart) (c d : UInt8) (h : SameState u v) :
    SameState (u.writeChar c) (v.writeChar d) ∧ ∃ kept : Bool,
      (u.writeChar c).written = u.written ++ (if kept then [c] else []) ∧
      (v.writeChar d).written = v.written ++ (if kept then [d] else []) := by
  have hrelated := attemptWrite_related
    (fun w w' => (w = u.written ∧ w' = v.written) ∨
      (w = u.written ++ [c] ∧ w' = v.written ++ [d])) 100000 u v c d h
    (.inl ⟨rfl, rfl⟩) (.inr ⟨rfl, rfl⟩)
  obtain ⟨hstate, hwritten⟩ := hrelated
  refine ⟨hstate, ?_⟩
  rcases hwritten with ⟨hu, hv⟩ | ⟨hu, hv⟩
  · refine ⟨false, ?_, ?_⟩
    · rw [if_neg Bool.false_ne_true, List.append_nil]
      exact hu
    · rw [if_neg Bool.false_ne_true, List.append_nil]
      exact hv
  · exact ⟨true, hu, hv⟩

/-- Texts of one length lose the same positions. -/
theorem writeText_positions (u v : Uart) (text text' : List UInt8) (h : SameState u v)
    (hlength : text.length = text'.length) :
    SameState (u.writeText text) (v.writeText text') ∧ ∃ kept,
      (u.writeText text).written = u.written ++ survivors kept text ∧
      (v.writeText text').written = v.written ++ survivors kept text' := by
  induction text generalizing u v text' with
  | nil =>
    have hnil : text' = [] := List.length_eq_zero_iff.mp hlength.symm
    rw [hnil]
    exact ⟨h, [], (List.append_nil _).symm, (List.append_nil _).symm⟩
  | cons c text ih =>
    cases text' with
    | nil => exact absurd hlength (Nat.succ_ne_zero _)
    | cons d text' =>
      obtain ⟨hstate, kept, hu, hv⟩ := writeChar_position u v c d h
      obtain ⟨hfinal, keeps, hu', hv'⟩ := ih (u.writeChar c) (v.writeChar d) text' hstate
        (Nat.succ.inj hlength)
      refine ⟨hfinal, kept :: keeps, ?_, ?_⟩
      · rw [writeText_cons, hu', hu, survivors]
        cases kept <;> simp
      · rw [writeText_cons, hv', hv, survivors]
        cases kept <;> simp

theorem writeText_alike (u v : Uart) (text : List UInt8) (h : Alike u v) :
    Alike (u.writeText text) (v.writeText text) := by
  obtain ⟨hstate, kept, hu, hv⟩ := writeText_positions u v text text h.1 rfl
  refine ⟨hstate, ?_⟩
  rw [hu, hv]
  exact SameButKeys.text _ h.2

theorem keyFrame_length (apiKey apiKey' : List UInt8) (h : apiKey.length = apiKey'.length) :
    (keyFrame apiKey).length = (keyFrame apiKey').length := by
  simp only [keyFrame, List.length_append, Hex.encode_length, h]

theorem writeKey_alike (u v : Uart) (apiKey apiKey' : List UInt8) (h : Alike u v)
    (hlength : apiKey.length = apiKey'.length) :
    Alike (u.writeText (keyFrame apiKey)) (v.writeText (keyFrame apiKey')) := by
  obtain ⟨hstate, kept, hu, hv⟩ := writeText_positions u v _ _ h.1
    (keyFrame_length apiKey apiKey' hlength)
  refine ⟨hstate, ?_⟩
  rw [hu, hv]
  exact SameButKeys.key kept apiKey apiKey' hlength h.2

theorem send_text (t : Transport) (task : AiTask) :
    ∃ accepted text, ∀ u, t.send task u = (accepted, u.writeText text) := by
  by_cases hsend : t.ready = true ∧ task.input.chars ≠ []
  · exact ⟨true, _, fun u => send_eq t task u hsend.1 hsend.2⟩
  · refine ⟨false, [], ?_⟩
    intro u
    rw [Transport.send, if_pos]
    · rfl
    · rw [Decidable.not_and_iff_or_not] at hsend
      rcases hsend with hready | hinput
      · exact .inl (Bool.eq_false_iff.mpr hready)
      · exact .inr (not_not.mp hinput)

end Hnmos.SerialTransport
