import Mathlib
import Hnmos.SerialTransport
import Hnmos.Transition

/-!
# The credential session

The session owns a static array for one API key. The operations are
translated one by one, including what each leaves in the array. The invariant
`Wiped` describes the array through the text being entered: outside the
editing state there is none and every cell is zero, inside it the text is
followed by zeros only. `entry` is the editor the session is meant to be; it
looks at the operations since the last `beginApiKey` and at nothing else.
-/

set_option autoImplicit false

namespace Hnmos.AiSession
open Hnmos.CString Hnmos.SerialPort Hnmos.SerialTransport Hnmos.Transition

inductive AuthMethod where
  | none | subscriptionOauth | apiKey
  deriving DecidableEq, Repr

inductive SessionStatus where
  | disconnected | enteringApiKey | waitingDeviceLogin | subscriptionUnsupported
  | waitingProvider | invalidKey
  deriving DecidableEq, Repr

structure Session where
  secret : List UInt8
  secretIndex : ℕ
  method : AuthMethod
  state : SessionStatus
  deriving DecidableEq

def Session.wipeSecret (s : Session) : Session :=
  { s with secret := List.replicate 192 0, secretIndex := 0 }

/-- The operations start from whatever the memory holds. -/
def Session.init (s : Session) : Session :=
  { s with method := .none, state := .disconnected }.wipeSecret

def Session.beginSubscriptionLogin (s : Session) : Session :=
  { s.wipeSecret with method := .subscriptionOauth, state := .subscriptionUnsupported }

def Session.beginApiKey (s : Session) : Session :=
  { s.wipeSecret with method := .apiKey, state := .enteringApiKey }

def Session.captureCharacter (s : Session) (c : UInt8) : Bool × Session :=
  if s.state ≠ .enteringApiKey ∨ charValue c < 33 ∨ 126 < charValue c ∨
      192 ≤ s.secretIndex + 1 then (false, s)
  else
    (true, { s with secret := (s.secret.set s.secretIndex c).set (s.secretIndex + 1) 0,
                    secretIndex := s.secretIndex + 1 })

def Session.backspace (s : Session) : Session :=
  if s.state ≠ .enteringApiKey ∨ s.secretIndex = 0 then s
  else
    { s with secret := s.secret.set (s.secretIndex - 1) 0,
             secretIndex := s.secretIndex - 1 }

def Session.submitApiKey (s : Session) (t : Transport) (u : Uart) : Session × Uart :=
  if s.state ≠ .enteringApiKey then (s, u)
  else if s.secretIndex < 8 then ({ s.wipeSecret with state := .invalidKey }, u)
  else
    match t.sendApiKey (cstr s.secret) u with
    | (false, u) => ({ s.wipeSecret with state := .invalidKey }, u)
    | (true, u) => ({ s.wipeSecret with state := .waitingProvider }, u)

def Session.cancel (s : Session) : Session :=
  { s.wipeSecret with method := .none, state := .disconnected }

def Session.isCapturingSecret (s : Session) : Bool := s.state == .enteringApiKey

def Session.authMethodName (s : Session) : List UInt8 :=
  match s.method with
  | .subscriptionOauth => ascii "subscription OAuth"
  | .apiKey => ascii "API key"
  | .none => ascii "none"

def Session.statusText (s : Session) : List UInt8 :=
  match s.state with
  | .enteringApiKey => ascii "type key, ENTER submits; secret is volatile"
  | .waitingDeviceLogin => ascii "device login staged; network runtime required"
  | .subscriptionUnsupported => ascii "ChatGPT subscription does not authorize API usage"
  | .waitingProvider => ascii "credential handed off; local buffer cleared"
  | .invalidKey => ascii "key rejected and cleared"
  | .disconnected => ascii "offline; local stub available"

def Session.maskedSecret (s : Session) (capacity : ℕ) : List UInt8 :=
  List.replicate (min (min s.secretIndex 24) (capacity - 1)) 42

inductive SessionOp where
  | init
  | beginSubscriptionLogin
  | beginApiKey
  | captureCharacter (c : UInt8)
  | backspace
  | submitApiKey (t : Transport) (u : Uart)
  | cancel

def apply (s : Session) : SessionOp → Session
  | .init => s.init
  | .beginSubscriptionLogin => s.beginSubscriptionLogin
  | .beginApiKey => s.beginApiKey
  | .captureCharacter c => (s.captureCharacter c).2
  | .backspace => s.backspace
  | .submitApiKey t u => (s.submitApiKey t u).1
  | .cancel => s.cancel

def keyCharacter (c : UInt8) : Bool := 33 ≤ c.toNat && c.toNat ≤ 126

def entryStep (text : Option (List UInt8)) : SessionOp → Option (List UInt8)
  | .beginApiKey => some []
  | .captureCharacter c =>
    text.map fun t => if keyCharacter c && t.length < 191 then t ++ [c] else t
  | .backspace => text.map List.dropLast
  | .init | .beginSubscriptionLogin | .submitApiKey _ _ | .cancel => none

structure Wiped (s : Session) (text : Option (List UInt8)) : Prop where
  state : s.state = .enteringApiKey ↔ text.isSome = true
  index : s.secretIndex = (text.getD []).length
  cells : s.secret = text.getD [] ++ List.replicate (192 - (text.getD []).length) 0
  bound : (text.getD []).length ≤ 191
  range : ∀ c ∈ text.getD [], keyCharacter c = true

theorem keyCharacter_iff (c : UInt8) :
    keyCharacter c = true ↔ ¬ (charValue c < 33 ∨ 126 < charValue c) := by
  have hrange := charValue_range c 33 126 (by decide) (by decide)
  simp only [Nat.cast_ofNat] at hrange
  simp only [keyCharacter, Bool.and_eq_true, decide_eq_true_eq, ← hrange]
  omega

theorem keyCharacter_ne_zero (c : UInt8) (h : keyCharacter c = true) : c ≠ 0 := by
  rintro rfl
  simp [keyCharacter] at h

theorem wiped_of_zeros (s : Session) (hs : s.secret = List.replicate 192 0)
    (hi : s.secretIndex = 0) (hk : s.state ≠ .enteringApiKey) : Wiped s none where
  state := by simp [hk]
  index := by simp [hi]
  cells := by simp [hs]
  bound := by simp
  range := by simp

theorem beginApiKey_wiped (s : Session) : Wiped s.beginApiKey (some []) where
  state := by simp [Session.beginApiKey]
  index := rfl
  cells := by simp [Session.beginApiKey, Session.wipeSecret]
  bound := by simp
  range := by simp

theorem set_zero_tail (text : List UInt8) (c : UInt8) (h : text.length < 191) :
    ((text ++ List.replicate (192 - text.length) 0).set text.length c).set (text.length + 1) 0 =
      (text ++ [c]) ++ List.replicate (192 - (text ++ [c]).length) 0 := by
  have hsplit : 192 - text.length = (190 - text.length) + 1 + 1 := by omega
  have hlen : 192 - (text ++ [c]).length = (190 - text.length) + 1 := by
    simp only [List.length_append, List.length_singleton]
    omega
  rw [hsplit, hlen, List.replicate_succ, List.replicate_succ]
  simp [List.set_append_right]

theorem capture_wiped (s : Session) (text : Option (List UInt8)) (c : UInt8)
    (h : Wiped s text) : Wiped (s.captureCharacter c).2 (entryStep text (.captureCharacter c)) := by
  cases text with
  | none =>
    have hk : s.state ≠ .enteringApiKey := fun e => by simpa using h.state.mp e
    simpa [Session.captureCharacter, hk, entryStep] using h
  | some text =>
    have hk : s.state = .enteringApiKey := h.state.mpr rfl
    have hi : s.secretIndex = text.length := h.index
    have hkc := keyCharacter_iff c
    by_cases haccept : keyCharacter c = true ∧ text.length < 191
    · have hc : ¬ (s.state ≠ .enteringApiKey ∨ charValue c < 33 ∨ 126 < charValue c ∨
          192 ≤ s.secretIndex + 1) := by
        rintro (h1 | h2 | h3 | h4)
        · exact h1 hk
        · exact hkc.mp haccept.1 (Or.inl h2)
        · exact hkc.mp haccept.1 (Or.inr h3)
        · omega
      have hstep : entryStep (some text) (.captureCharacter c) = some (text ++ [c]) := by
        simp [entryStep, haccept.1, haccept.2]
      rw [hstep, Session.captureCharacter, if_neg hc]
      refine ⟨by simp [hk], by simp [hi], ?_, ?_, ?_⟩
      · rw [Option.getD_some, ← set_zero_tail text c haccept.2]
        simp only [hi, h.cells, Option.getD_some]
      · rw [Option.getD_some, List.length_append, List.length_singleton]
        omega
      · intro d hd
        rcases List.mem_append.mp hd with hd | hd
        · exact h.range d hd
        · rw [List.mem_singleton.mp hd]
          exact haccept.1
    · have hc : s.state ≠ .enteringApiKey ∨ charValue c < 33 ∨ 126 < charValue c ∨
          192 ≤ s.secretIndex + 1 := by
        by_contra hn
        push Not at hn
        exact haccept ⟨hkc.mpr (by omega), by omega⟩
      have hstep : entryStep (some text) (.captureCharacter c) = some text := by
        simp only [entryStep, Option.map_some, Bool.and_eq_true, decide_eq_true_eq, if_neg haccept]
      rw [hstep, Session.captureCharacter, if_pos hc]
      exact h

theorem backspace_wiped (s : Session) (text : Option (List UInt8)) (h : Wiped s text) :
    Wiped s.backspace (entryStep text .backspace) := by
  cases text with
  | none =>
    have hk : s.state ≠ .enteringApiKey := fun e => by simpa using h.state.mp e
    simpa [Session.backspace, hk, entryStep] using h
  | some text =>
    have hk : s.state = .enteringApiKey := h.state.mpr rfl
    have hi : s.secretIndex = text.length := h.index
    rcases List.eq_nil_or_concat' text with rfl | ⟨front, last, rfl⟩
    · simpa [Session.backspace, hi, entryStep] using h
    · have hb : (front ++ [last]).length ≤ 191 := h.bound
      have hr := h.range
      have hcells := h.cells
      simp only [List.length_append, List.length_singleton, Option.getD_some] at hi hb hr hcells
      have hn : ¬ (s.state ≠ .enteringApiKey ∨ s.secretIndex = 0) := by simp [hk, hi]
      rw [Session.backspace, if_neg hn]
      refine ⟨by simp [hk, entryStep], by simp [hi, entryStep], ?_, ?_, ?_⟩
      · have hsplit : 192 - front.length = (192 - (front.length + 1)) + 1 := by omega
        simp [entryStep, hi, hcells, hsplit, List.replicate_succ]
      · simp only [entryStep, Option.map_some, List.dropLast_concat, Option.getD_some]
        omega
      · intro d hd
        refine hr d (List.mem_append_left _ ?_)
        simpa [entryStep] using hd

theorem submit_wiped (s : Session) (text : Option (List UInt8)) (t : Transport) (u : Uart)
    (h : Wiped s text) : Wiped (s.submitApiKey t u).1 none := by
  have hz : ∀ status, status ≠ SessionStatus.enteringApiKey →
      Wiped { s.wipeSecret with state := status } none :=
    fun status hs => wiped_of_zeros _ rfl rfl hs
  rw [Session.submitApiKey]
  split_ifs with hk hshort
  · cases text with
    | none => exact h
    | some text => exact absurd (h.state.mpr rfl) hk
  · exact hz _ (by decide)
  · rcases t.sendApiKey (cstr s.secret) u with ⟨accepted, v⟩
    cases accepted with
    | false => exact hz _ (by decide)
    | true => exact hz _ (by decide)

/-- Every operation keeps the array in step with the editor. -/
theorem apply_wiped (s : Session) (text : Option (List UInt8)) (op : SessionOp)
    (h : Wiped s text) : Wiped (apply s op) (entryStep text op) := by
  cases op with
  | init => exact wiped_of_zeros _ rfl rfl (by simp [apply, Session.init, Session.wipeSecret])
  | beginSubscriptionLogin =>
    exact wiped_of_zeros _ rfl rfl (by simp [apply, Session.beginSubscriptionLogin])
  | beginApiKey => exact beginApiKey_wiped s
  | captureCharacter c => exact capture_wiped s text c h
  | backspace => exact backspace_wiped s text h
  | submitApiKey t u => exact submit_wiped s text t u h
  | cancel => exact wiped_of_zeros _ rfl rfl (by simp [apply, Session.cancel])

def sessionAfter (memory : Session) (ops : List SessionOp) : Session :=
  run apply memory.init ops

def entryAfter (ops : List SessionOp) : Option (List UInt8) := run entryStep none ops

theorem session_wiped (memory : Session) (ops : List SessionOp) :
    Wiped (sessionAfter memory ops) (entryAfter ops) := by
  have hinit : Wiped memory.init none :=
    wiped_of_zeros _ rfl rfl (by simp [Session.init, Session.wipeSecret])
  unfold sessionAfter entryAfter
  generalize memory.init = s, (none : Option (List UInt8)) = text at hinit
  induction ops generalizing s text with
  | nil => exact hinit
  | cons op ops ih => exact ih _ _ (apply_wiped s text op hinit)

theorem wiped_cstr (s : Session) (text : List UInt8) (h : Wiped s (some text)) :
    cstr s.secret = text := by
  have hz : (0 : UInt8) ∉ text := fun hmem => keyCharacter_ne_zero 0 (h.range 0 hmem) rfl
  have hb : text.length ≤ 191 := h.bound
  have hsplit : 192 - text.length = (191 - text.length) + 1 := by omega
  rw [h.cells, Option.getD_some, hsplit, List.replicate_succ, cstr_of_noNul text _ hz]

theorem submit_port (s : Session) (text : List UInt8) (t : Transport) (u : Uart)
    (h : Wiped s (some text)) :
    (s.submitApiKey t u).2 =
      if 8 ≤ text.length ∧ t.ready = true then u.writeText (keyFrame text) else u := by
  have hk : s.state = .enteringApiKey := h.state.mpr rfl
  have hi : s.secretIndex = text.length := h.index
  rw [Session.submitApiKey, if_neg (by simp [hk]), hi, wiped_cstr s text h]
  by_cases hshort : text.length < 8
  · rw [if_pos hshort, if_neg (by omega)]
  · have hne : text ≠ [] := by
      rintro rfl
      simp at hshort
    rw [if_neg hshort]
    cases hready : t.ready with
    | false => simp [Transport.sendApiKey, hready]
    | true =>
      rw [sendApiKey_eq t text u hready hne]
      simp only [and_true, if_pos (Nat.le_of_not_lt hshort)]

theorem submit_port_idle (s : Session) (t : Transport) (u : Uart) (h : Wiped s none) :
    (s.submitApiKey t u).2 = u := by
  have hk : s.state ≠ .enteringApiKey := fun e => by simpa using h.state.mp e
  rw [Session.submitApiKey, if_pos hk]

def Zeroised (s : Session) : Prop :=
  s.secretIndex = 0 ∧ s.secret.length = 192 ∧ ∀ i < 192, s.secret.getD i 0 = 0

def Edited (s : Session) : Prop :=
  s.secretIndex ≤ 191 ∧ s.secret.length = 192 ∧
    (∀ i < s.secretIndex, keyCharacter (s.secret.getD i 0) = true) ∧
    ∀ i < 192, s.secretIndex ≤ i → s.secret.getD i 0 = 0

theorem wiped_zeroised (s : Session) (h : Wiped s none) : Zeroised s := by
  have hcells : s.secret = List.replicate 192 0 := by simpa using h.cells
  refine ⟨h.index, by rw [hcells, List.length_replicate], ?_⟩
  intro i hi
  rw [hcells, List.getD_eq_getElem _ _ (by rwa [List.length_replicate]), List.getElem_replicate]

theorem wiped_edited (s : Session) (text : List UInt8) (h : Wiped s (some text)) : Edited s := by
  have hi : s.secretIndex = text.length := h.index
  have hb : text.length ≤ 191 := h.bound
  have hcells : s.secret = text ++ List.replicate (192 - text.length) 0 := h.cells
  have hlen : s.secret.length = 192 := by
    rw [hcells, List.length_append, List.length_replicate]
    omega
  refine ⟨by omega, hlen, ?_, ?_⟩
  · intro i hlt
    have hlt' : i < text.length := hi ▸ hlt
    rw [hcells, List.getD_append _ _ _ _ hlt', List.getD_eq_getElem _ _ hlt']
    exact h.range _ (List.getElem_mem hlt')
  · intro i hlt hle
    have hge : text.length ≤ i := hi ▸ hle
    rw [hcells, List.getD_append_right _ _ _ _ hge,
      List.getD_eq_getElem _ _ (by rw [List.length_replicate]; omega), List.getElem_replicate]

/-- In every reachable state the array is zero unless a key is being edited,
and then it is zero from the index on. The state after `beginApiKey` and all
that follows does not depend on what came before it, and a submission hands
out the text of the current entry and no other byte. -/
theorem secret_lifecycle (memory : Session) (ops : List SessionOp) :
    ((sessionAfter memory ops).state ≠ .enteringApiKey → Zeroised (sessionAfter memory ops)) ∧
    ((sessionAfter memory ops).state = .enteringApiKey → Edited (sessionAfter memory ops)) ∧
    (∀ (memory' : Session) (before before' during : List SessionOp),
      ops = before ++ .beginApiKey :: during →
      sessionAfter memory ops = sessionAfter memory' (before' ++ .beginApiKey :: during) ∧
      entryAfter ops = entryAfter (.beginApiKey :: during)) ∧
    ∀ (t : Transport) (u : Uart),
      ((sessionAfter memory ops).submitApiKey t u).2 =
        match entryAfter ops with
        | none => u
        | some text =>
          if 8 ≤ text.length ∧ t.ready = true then u.writeText (keyFrame text) else u := by
  have h := session_wiped memory ops
  refine ⟨?_, ?_, ?_, ?_⟩
  · intro hk
    cases he : entryAfter ops with
    | none => exact wiped_zeroised _ (he ▸ h)
    | some text => exact absurd (h.state.mpr (by rw [he]; rfl)) hk
  · intro hk
    cases he : entryAfter ops with
    | none => simpa [he] using h.state.mp hk
    | some text => exact wiped_edited _ text (he ▸ h)
  · rintro memory' before before' during rfl
    constructor
    · rw [sessionAfter, sessionAfter, run_append, run_append, run_cons, run_cons]
      rfl
    · rw [entryAfter, entryAfter, run_append, run_cons, run_cons]
      rfl
  · intro t u
    cases he : entryAfter ops with
    | none => exact submit_port_idle _ t u (he ▸ h)
    | some text => exact submit_port _ text t u (he ▸ h)

end Hnmos.AiSession
