import Mathlib
import Hnmos.System

/-!
# The reference line editor

A line editor of two modes says what leaves the machine over the second serial
port. It sees gestures, which say what an input means on the screen it meets,
and whether a request is running; it has its own mode, its own text and its
own count of the submissions, and knows nothing else of the kernel.
-/

set_option autoImplicit false

namespace Hnmos
open Hnmos.CString Hnmos.Task Hnmos.SerialTransport Hnmos.AiSession

inductive Gesture where
  | none
  | key (c : UInt8)
  | backspace
  | enter
  | button (b : StudioButton)
  | leave
  | request
  deriving DecidableEq

inductive Mode where
  | idle
  | secret (text : List UInt8)
  | prompt (text : List UInt8)
  deriving DecidableEq

/-- A frame on the port. A prompt carries the number of its submission, which
goes out as an identifier of 32 bits. -/
inductive Sent where
  | key (text : List UInt8)
  | request (number : ℕ) (text : List UInt8)
  deriving DecidableEq

def Sent.bytes : Sent → List UInt8
  | .key text => keyFrame text
  | .request number text =>
    requestFrame (UInt32.ofNat number) .hnlang text hnlangAiSystemContract

def Sent.number : Sent → Option ℕ
  | .key _ => none
  | .request number _ => some number

/-- `submissions` counts the prompts sent and the requests answered on the
machine itself. -/
structure Editor where
  mode : Mode
  submissions : ℕ
  sent : List Sent
  deriving DecidableEq

def Editor.init : Editor := ⟨.idle, 0, []⟩

def promptCharacter (c : UInt8) : Bool := 32 ≤ c.toNat && c.toNat ≤ 126

def typed (accepted : UInt8 → Bool) (room : ℕ) (text : List UInt8) (c : UInt8) : List UInt8 :=
  if accepted c && text.length < room then text ++ [c] else text

def commandButton (c : UInt8) : Option StudioButton :=
  if c = 108 then some .subscription
  else if c = 107 then some .apiKey
  else if c = 103 then some .generate
  else if c = 114 then some .review
  else if c = 98 then some .build
  else none

def Editor.press (running : Bool) (e : Editor) : StudioButton → Editor
  | .subscription => { e with mode := .idle }
  | .apiKey => { e with mode := .secret [] }
  | .generate => if running then e else { e with mode := .prompt [] }
  | .review => e
  | .build => e

/-- Outside both modes a letter stands for a button. -/
def Editor.type (running : Bool) (e : Editor) (c : UInt8) : Editor :=
  match e.mode with
  | .idle =>
    match commandButton c with
    | none => e
    | some b => e.press running b
  | .secret text => { e with mode := .secret (typed keyCharacter 191 text c) }
  | .prompt text => { e with mode := .prompt (typed promptCharacter 159 text c) }

def Editor.backspace (e : Editor) : Editor :=
  match e.mode with
  | .idle => e
  | .secret text => { e with mode := .secret text.dropLast }
  | .prompt text => { e with mode := .prompt text.dropLast }

def Editor.enter (e : Editor) : Editor :=
  match e.mode with
  | .idle => e
  | .secret text =>
    { e with mode := .idle, sent := if 8 ≤ text.length then e.sent ++ [.key text] else e.sent }
  | .prompt text =>
    if text = [] then e
    else ⟨.idle, e.submissions + 1, e.sent ++ [.request (e.submissions + 1) text]⟩

def Editor.step (running : Bool) (e : Editor) : Gesture → Editor
  | .none => e
  | .key c => e.type running c
  | .backspace => e.backspace
  | .enter => e.enter
  | .button b => e.press running b
  | .leave => { e with mode := .idle }
  | .request => { e with submissions := e.submissions + 1 }

/-- The numbers sent so far increase and are those of submissions. -/
structure Editor.Numbered (e : Editor) : Prop where
  sorted : (e.sent.filterMap Sent.number).Pairwise (· < ·)
  range : ∀ n ∈ e.sent.filterMap Sent.number, 1 ≤ n ∧ n ≤ e.submissions

theorem editor_numbered : Editor.init.Numbered := ⟨List.Pairwise.nil, nofun⟩

theorem numbered_kept (e : Editor) (mode : Mode) (submissions : ℕ) (sent : List Sent)
    (h : e.Numbered) (hle : e.submissions ≤ submissions)
    (hsent : sent.filterMap Sent.number = e.sent.filterMap Sent.number) :
    (Editor.mk mode submissions sent).Numbered := by
  constructor
  · rw [hsent]
    exact h.sorted
  · rw [hsent]
    intro n hn
    exact ⟨(h.range n hn).1, (h.range n hn).2.trans hle⟩

theorem press_numbered (running : Bool) (e : Editor) (b : StudioButton) (h : e.Numbered) :
    (e.press running b).Numbered := by
  cases b with
  | subscription => exact numbered_kept e _ _ _ h (le_refl _) rfl
  | apiKey => exact numbered_kept e _ _ _ h (le_refl _) rfl
  | generate =>
    unfold Editor.press
    simp only
    split_ifs
    · exact h
    · exact numbered_kept e _ _ _ h (le_refl _) rfl
  | review => exact h
  | build => exact h

theorem type_numbered (running : Bool) (e : Editor) (c : UInt8) (h : e.Numbered) :
    (e.type running c).Numbered := by
  unfold Editor.type
  cases e.mode with
  | idle =>
    cases commandButton c with
    | none => exact h
    | some b => exact press_numbered running e b h
  | secret text => exact numbered_kept e _ _ _ h (le_refl _) rfl
  | prompt text => exact numbered_kept e _ _ _ h (le_refl _) rfl

theorem enter_numbered (e : Editor) (h : e.Numbered) : e.enter.Numbered := by
  unfold Editor.enter
  cases e.mode with
  | idle => exact h
  | secret text =>
    refine numbered_kept e _ _ _ h (le_refl _) ?_
    split_ifs
    · rw [List.filterMap_append]
      exact List.append_nil _
    · rfl
  | prompt text =>
    simp only
    split_ifs
    · exact h
    · have hnew : (e.sent ++ [Sent.request (e.submissions + 1) text]).filterMap Sent.number =
          e.sent.filterMap Sent.number ++ [e.submissions + 1] := by
        rw [List.filterMap_append]
        rfl
      constructor
      · rw [hnew, List.pairwise_append]
        refine ⟨h.sorted, List.pairwise_singleton _ _, ?_⟩
        intro n hn m hm
        rw [List.mem_singleton.mp hm]
        exact Nat.lt_succ_of_le (h.range n hn).2
      · rw [hnew]
        intro n hn
        rcases List.mem_append.mp hn with hn | hn
        · exact ⟨(h.range n hn).1, Nat.le_succ_of_le (h.range n hn).2⟩
        · rw [List.mem_singleton.mp hn]
          exact ⟨Nat.succ_pos _, le_refl _⟩

theorem gesture_numbered (running : Bool) (e : Editor) (g : Gesture) (h : e.Numbered) :
    (e.step running g).Numbered := by
  cases g with
  | none => exact h
  | key c => exact type_numbered running e c h
  | backspace =>
    show e.backspace.Numbered
    unfold Editor.backspace
    cases e.mode with
    | idle => exact h
    | secret text => exact numbered_kept e _ _ _ h (le_refl _) rfl
    | prompt text => exact numbered_kept e _ _ _ h (le_refl _) rfl
  | enter => exact enter_numbered e h
  | button b => exact press_numbered running e b h
  | leave => exact numbered_kept e _ _ _ h (le_refl _) rfl
  | request => exact numbered_kept e _ _ _ h (Nat.le_succ _) rfl

def Editor.ids (e : Editor) : List UInt32 := (e.sent.filterMap Sent.number).map UInt32.ofNat

/-- The identifiers differ as long as the counter has not come round. -/
theorem ids_nodup (e : Editor) (h : e.Numbered) (hbound : e.submissions ≤ 2 ^ 32) :
    e.ids.Nodup := by
  have hsorted := h.sorted
  have hrange := h.range
  unfold Editor.ids
  generalize e.sent.filterMap Sent.number = numbers at hsorted hrange
  have hdistinct : numbers.Nodup := hsorted.imp Nat.ne_of_lt
  apply List.Nodup.map_on _ hdistinct
  intro a ha b hb heq
  have hmod := congrArg UInt32.toNat heq
  have hlow := hrange a ha
  have hhigh := hrange b hb
  rw [UInt32.toNat_ofNat', UInt32.toNat_ofNat'] at hmod
  omega

end Hnmos
