import Mathlib
import Hnmos.KernelInvariant

/-!
# The capture modes and the screens

Beside the kernel's inputs, other code may call the router at any time. In
every run of inputs and calls the two capture modes exclude each other, are
confined to AI Studio and leave no prompt open under a running request, and
the screen hooks form one walk through the screens.
-/

set_option autoImplicit false

namespace Hnmos
open Hnmos.CString Hnmos.Task Hnmos.AiBridge Hnmos.AiSession Hnmos.Transition

inductive Call where
  | input (input : Input)
  | setScreen (screenId : UInt32)
  | back

def Kernel.call (k : Kernel) : Call → Kernel
  | .input input => k.step input
  | .setScreen screenId => if k.system.halted then k else k.setScreen screenId
  | .back => if k.system.halted then k else k.back

theorem core_back_always (k : Kernel) : k.back.core = run Core.act k.core k.backActs := by
  by_cases h : k.system.routerReady = true
  · exact core_back k h
  · unfold Kernel.back Kernel.backActs Kernel.renderCurrentScreen
    split_ifs
    · rfl
    · exact core_setScreen k _

/-- An invariant of the guarded acts is an invariant of inputs and calls. -/
theorem call_invariant (I : Core → Prop)
    (hact : ∀ c act, I c → Guarded c act → I (c.act act)) (k : Kernel) (call : Call)
    (h : I k.core) : I (k.call call).core := by
  cases call with
  | input input => exact step_invariant I hact k input h
  | setScreen screenId =>
    unfold Kernel.call
    simp only
    split_ifs
    · exact h
    · rw [core_setScreen]
      exact run_invariant Core.act Guarded I hact _ _ h (setScreenActs_guarded k screenId)
  | back =>
    unfold Kernel.call
    simp only
    split_ifs
    · exact h
    · rw [core_back_always]
      exact run_invariant Core.act Guarded I hact _ _ h (backActs_guarded k)

def Core.capturesSecret (c : Core) : Bool := c.session.isCapturingSecret

structure Modes (c : Core) : Prop where
  exclusive : ¬ (c.capturesSecret = true ∧ c.capturingPrompt = true)
  confined : c.capturesSecret = true ∨ c.capturingPrompt = true → c.current = .aiStudio
  idle : c.capturingPrompt = true → c.bridge.lastTask.status ≠ .running

theorem modes_idle (c : Core) (hs : c.capturesSecret = false) (hp : c.capturingPrompt = false) :
    Modes c where
  exclusive := by simp [hs]
  confined := by simp [hs, hp]
  idle := by simp [hp]

theorem captureCharacter_state (s : Session) (c : UInt8) :
    (s.captureCharacter c).2.isCapturingSecret = s.isCapturingSecret := by
  unfold Session.captureCharacter
  split_ifs <;> rfl

theorem backspace_state (s : Session) : s.backspace.isCapturingSecret = s.isCapturingSecret := by
  unfold Session.backspace
  split_ifs <;> rfl

theorem submitApiKey_state (s : Session) (t : SerialTransport.Transport) (u : SerialPort.Uart) :
    (s.submitApiKey t u).1.isCapturingSecret = false := by
  unfold Session.submitApiKey
  split_ifs with hstate
  · simpa [Session.isCapturingSecret] using hstate
  · rfl
  · rcases t.sendApiKey (cstr s.secret) u with ⟨accepted, v⟩
    cases accepted <;> rfl

theorem cancelCapture_secret (c : Core) : c.cancelCapture.capturesSecret = false := by
  unfold Core.cancelCapture Core.capturesSecret
  split_ifs with h
  · rfl
  · exact Bool.eq_false_iff.mpr h

theorem cancelCapture_rest (c : Core) :
    c.cancelCapture.current = c.current ∧ c.cancelCapture.bridge = c.bridge ∧
      c.cancelCapture.hooks = c.hooks := by
  unfold Core.cancelCapture
  split_ifs <;> exact ⟨rfl, rfl, rfl⟩

theorem leave_modes (c : Core) (h : Modes c) :
    c.leave.capturesSecret = false ∧ c.leave.capturingPrompt = false := by
  unfold Core.leave
  split_ifs with hstudio
  · exact ⟨cancelCapture_secret c, rfl⟩
  · constructor
    · exact Bool.eq_false_iff.mpr fun hn => hstudio (h.confined (Or.inl hn))
    · exact Bool.eq_false_iff.mpr fun hn => hstudio (h.confined (Or.inr hn))

theorem modes_kept (c d : Core) (h : Modes c) (hs : d.capturesSecret = c.capturesSecret)
    (hp : d.capturingPrompt = c.capturingPrompt) (hc : d.current = c.current)
    (hb : d.bridge.lastTask.status = .running → c.bridge.lastTask.status = .running) :
    Modes d where
  exclusive := by rw [hs, hp]; exact h.exclusive
  confined := by rw [hs, hp, hc]; exact h.confined
  idle := by
    rw [hp]
    exact fun hprompt hrun => h.idle hprompt (hb hrun)

theorem poll_running_back (c : Core) (arrived : List UInt8)
    (h : (c.poll arrived).bridge.lastTask.status = .running) :
    c.bridge.lastTask.status = .running := by
  unfold Core.poll at h
  have hslot := poll_slot c.bridge c.transport arrived
  rcases hpoll : c.bridge.poll c.transport arrived with ⟨answered, bridge, transport⟩
  rw [hpoll] at hslot h
  simp only at hslot h
  rcases hslot with ⟨-, rfl⟩ | ⟨-, -, output, status, hstatus, rfl⟩
  · exact h
  · have hclosed : status = .running := h
    rcases hstatus with rfl | rfl <;> exact absurd hclosed (by decide)

theorem submit_rest (c : Core) (taskType : TaskType) (input : List UInt8) (contextFlags : UInt32) :
    (c.submit taskType input contextFlags).2.session = c.session ∧
      (c.submit taskType input contextFlags).2.capturingPrompt = c.capturingPrompt ∧
      (c.submit taskType input contextFlags).2.current = c.current ∧
      (c.submit taskType input contextFlags).2.hooks = c.hooks := by
  unfold Core.submit
  rcases c.bridge.submit c.transport c.port taskType (some input) contextFlags
    with ⟨accepted, bridge, port⟩
  exact ⟨rfl, rfl, rfl, rfl⟩

theorem poll_rest (c : Core) (arrived : List UInt8) :
    (c.poll arrived).session = c.session ∧
      (c.poll arrived).capturingPrompt = c.capturingPrompt ∧
      (c.poll arrived).current = c.current ∧ (c.poll arrived).hooks = c.hooks := by
  unfold Core.poll
  rcases c.bridge.poll c.transport arrived with ⟨answered, bridge, transport⟩
  exact ⟨rfl, rfl, rfl, rfl⟩

theorem request_rest (c : Core) (taskType : TaskType) (input : List UInt8)
    (contextFlags : UInt32) :
    (c.act (.request taskType input contextFlags)).session = c.session ∧
      (c.act (.request taskType input contextFlags)).capturingPrompt = c.capturingPrompt ∧
      (c.act (.request taskType input contextFlags)).current = c.current ∧
      (c.act (.request taskType input contextFlags)).hooks = c.hooks := by
  have hsubmit := submit_rest c taskType input contextFlags
  unfold Core.act
  simp only
  rcases hs : c.submit taskType input contextFlags with ⟨accepted, d⟩
  rw [hs] at hsubmit
  cases accepted with
  | true =>
    obtain ⟨hsession, hcapturing, hcurrent, hhooks⟩ := poll_rest d []
    exact ⟨hsession.trans hsubmit.1, hcapturing.trans hsubmit.2.1, hcurrent.trans hsubmit.2.2.1,
      hhooks.trans hsubmit.2.2.2⟩
  | false => exact hsubmit

theorem promptEnter_rest (c : Core) :
    (c.act .promptEnter).session = c.session ∧ (c.act .promptEnter).current = c.current ∧
      (c.act .promptEnter).hooks = c.hooks := by
  have hsubmit := submit_rest c .hnlang c.prompt.chars 16
  unfold Core.act
  simp only
  split_ifs
  · exact ⟨rfl, rfl, rfl⟩
  · rcases hs : c.submit .hnlang c.prompt.chars 16 with ⟨accepted, d⟩
    rw [hs] at hsubmit
    cases accepted with
    | true => exact ⟨hsubmit.1, hsubmit.2.2.1, hsubmit.2.2.2⟩
    | false => exact ⟨hsubmit.1, hsubmit.2.2.1, hsubmit.2.2.2⟩

theorem submit_refused (c : Core) (taskType : TaskType) (input : List UInt8)
    (contextFlags : UInt32) (h : (c.submit taskType input contextFlags).1 = false)
    (hrun : (c.submit taskType input contextFlags).2.bridge.lastTask.status = .running) :
    c.bridge.lastTask.status = .running := by
  unfold Core.submit at h hrun
  have hslot := submit_slot c.bridge c.transport c.port taskType (some input) contextFlags
  rcases hsubmit : c.bridge.submit c.transport c.port taskType (some input) contextFlags
    with ⟨accepted, bridge, port⟩
  rw [hsubmit] at hslot h hrun
  simp only at hslot h hrun
  rcases hslot with ⟨-, hrefused⟩ | ⟨provider, task, -, hsubmitted, hbridge⟩
  · have hsame : bridge = c.bridge := (Prod.mk.inj (Prod.mk.inj hrefused).2).1
    rwa [hsame] at hrun
  · rw [hbridge] at hrun
    rcases hsubmitted with ⟨hyes, -⟩ | ⟨hyes, -⟩ | ⟨-, output, rfl⟩
    · exact absurd (h.symm.trans hyes) (by decide)
    · exact absurd (h.symm.trans hyes) (by decide)
    · exact absurd hrun (by simp [closeTask])

theorem act_modes (c : Core) (act : Act) (h : Modes c) (hg : Guarded c act) :
    Modes (c.act act) := by
  cases act with
  | subscription => exact modes_idle _ rfl rfl
  | apiKey => exact ⟨fun hn => Bool.noConfusion hn.2, fun _ => hg, fun hn => Bool.noConfusion hn⟩
  | generate =>
    unfold Core.act
    simp only
    split_ifs with hrun
    · exact h
    · obtain ⟨hcurrent, hbridge, -⟩ := cancelCapture_rest c
      have hsecret : ¬ (c.cancelCapture.session.isCapturingSecret = true) :=
        Bool.eq_false_iff.mp (cancelCapture_secret c)
      exact ⟨fun hn => hsecret hn.1, fun _ => hcurrent.trans hg, fun _ => by rwa [hbridge]⟩
  | secretChar ch => exact modes_kept c _ h (captureCharacter_state _ _) rfl rfl id
  | secretBackspace => exact modes_kept c _ h (backspace_state _) rfl rfl id
  | secretEnter =>
    have hprompt : c.capturingPrompt = false :=
      Bool.eq_false_iff.mpr fun hn => h.exclusive ⟨hg, hn⟩
    exact modes_idle _ (submitApiKey_state _ _ _) hprompt
  | promptChar ch => exact modes_kept c _ h rfl rfl rfl id
  | promptBackspace => exact modes_kept c _ h rfl rfl rfl id
  | promptEnter =>
    unfold Core.act
    simp only
    split_ifs with hempty
    · exact h
    · obtain ⟨hsession, hcapturing, hcurrent, -⟩ := submit_rest c .hnlang c.prompt.chars 16
      have hrefused := submit_refused c .hnlang c.prompt.chars 16
      rcases hs : c.submit .hnlang c.prompt.chars 16 with ⟨accepted, d⟩
      rw [hs] at hsession hcapturing hcurrent hrefused
      simp only at hsession hcapturing hcurrent hrefused
      cases accepted with
      | true =>
        refine modes_idle _ ?_ rfl
        show d.session.isCapturingSecret = false
        rw [hsession]
        exact hg.1
      | false =>
        exact modes_kept c d h (by rw [Core.capturesSecret, Core.capturesSecret, hsession])
          hcapturing hcurrent (hrefused rfl)
  | cancelTask =>
    refine modes_kept c _ h rfl rfl rfl ?_
    unfold Core.act
    intro hrun
    rcases cancel_slot c.bridge with ⟨-, hcancel⟩ | ⟨-, hcancel⟩
    · simpa only [hcancel] using hrun
    · simp [hcancel, closeTask] at hrun
  | sync =>
    unfold Core.act Core.sync
    simp only
    split_ifs
    · exact modes_kept c _ h rfl rfl rfl id
    · exact h
  | goto screen =>
    obtain ⟨hsecret, hprompt⟩ := leave_modes c h
    exact modes_idle _ hsecret hprompt
  | request taskType input contextFlags =>
    have hnot : ¬ (c.current = .aiStudio) := by rw [hg.2]; decide
    obtain ⟨hsession, hcapturing, -, -⟩ := request_rest c taskType input contextFlags
    refine modes_idle _ ?_ ?_
    · rw [Core.capturesSecret, hsession]
      exact Bool.eq_false_iff.mpr fun hn => hnot (h.confined (Or.inl hn))
    · rw [hcapturing]
      exact Bool.eq_false_iff.mpr fun hn => hnot (h.confined (Or.inr hn))
  | poll arrived =>
    obtain ⟨hsession, hcapturing, hcurrent, -⟩ := poll_rest c arrived
    exact modes_kept c (c.poll arrived) h (by rw [Core.capturesSecret, hsession]; rfl)
      hcapturing hcurrent (poll_running_back c arrived)
  | receive arrived => exact modes_kept c _ h rfl rfl rfl id
  | halt => exact modes_kept c _ h rfl rfl rfl id

/-- The hooks of a walk: each change leaves one screen and enters the next. -/
def hookTrace : ScreenId → List ScreenId → List ScreenHook
  | _, [] => []
  | screen, next :: screens => .exit screen :: .enter next :: hookTrace next screens

theorem hookTrace_concat (screen next : ScreenId) (screens : List ScreenId) :
    hookTrace screen (screens ++ [next]) =
      hookTrace screen screens ++ [.exit ((screen :: screens).getLast (by simp)), .enter next] := by
  induction screens generalizing screen with
  | nil => rfl
  | cons first screens ih =>
    rw [List.cons_append, hookTrace, ih, hookTrace]
    simp

/-- The hooks so far are those of a walk from the launcher to the current
screen that never stays where it is. -/
def Walked (c : Core) : Prop :=
  ∃ screens : List ScreenId, c.hooks = .enter .launcher :: hookTrace .launcher screens ∧
    (ScreenId.launcher :: screens).getLast (by simp) = c.current ∧
    (ScreenId.launcher :: screens).IsChain (· ≠ ·)

theorem goto_walked (c : Core) (next : ScreenId) (h : Walked c) (hg : next ≠ c.current) :
    Walked (c.act (.goto next)) := by
  obtain ⟨screens, hhooks, hlast, hchain⟩ := h
  have hleave : c.leave.hooks = c.hooks := by
    unfold Core.leave
    split_ifs
    · exact (cancelCapture_rest c).2.2
    · rfl
  refine ⟨screens ++ [next], ?_, by simp [Core.act, Core.enter], ?_⟩
  · show (c.leave.hooks ++ [.exit c.current]) ++ [.enter next] = _
    rw [hleave, hhooks, hookTrace_concat, hlast]
    simp
  · rw [← List.cons_append, List.isChain_append]
    refine ⟨hchain, List.isChain_singleton next, ?_⟩
    intro x hx y hy
    have hx' : c.current = x := by
      rw [List.getLast?_eq_getLast_of_ne_nil (by simp), hlast] at hx
      exact Option.some.inj hx
    have hy' : next = y := Option.some.inj hy
    rw [← hx', ← hy']
    exact hg.symm

theorem walked_kept (c d : Core) (h : Walked c) (hhooks : d.hooks = c.hooks)
    (hcurrent : d.current = c.current) : Walked d := by
  obtain ⟨screens, h1, h2, h3⟩ := h
  exact ⟨screens, hhooks.trans h1, h2.trans hcurrent.symm, h3⟩

theorem act_walked (c : Core) (act : Act) (h : Walked c) (hg : Guarded c act) :
    Walked (c.act act) := by
  cases act with
  | goto screen => exact goto_walked c screen h hg
  | generate =>
    unfold Core.act
    simp only
    split_ifs
    · exact h
    · exact walked_kept c _ h (cancelCapture_rest c).2.2 (cancelCapture_rest c).1
  | promptEnter => exact walked_kept c _ h (promptEnter_rest c).2.2 (promptEnter_rest c).2.1
  | request taskType input contextFlags =>
    obtain ⟨-, -, hcurrent, hhooks⟩ := request_rest c taskType input contextFlags
    exact walked_kept c _ h hhooks hcurrent
  | sync =>
    unfold Core.act Core.sync
    simp only
    split_ifs
    · exact walked_kept c _ h rfl rfl
    · exact h
  | poll arrived => exact walked_kept c _ h (poll_rest c arrived).2.2.2 (poll_rest c arrived).2.2.1
  | subscription | apiKey | secretChar | secretBackspace | secretEnter | promptChar
  | promptBackspace | cancelTask | receive | halt => exact walked_kept c _ h rfl rfl

/-- In every state reached from the initialised router by inputs and calls,
the capture modes exclude each other, are confined to AI Studio, and no
prompt is open while a request is running; and the hooks run so far are those
of a walk through the screens, each left once before the next is entered. -/
theorem modes_confined (k : Kernel) (calls : List Call) :
    let s := run Kernel.call k.boot calls
    ¬ (s.session.isCapturingSecret = true ∧ s.system.studio.capturingPrompt = true) ∧
    (s.session.isCapturingSecret = true ∨ s.system.studio.capturingPrompt = true →
      s.system.current = .aiStudio) ∧
    (s.system.studio.capturingPrompt = true → s.system.bridge.lastTask.status ≠ .running) ∧
    ∃ screens : List ScreenId,
      s.system.hooks = .enter .launcher :: hookTrace .launcher screens ∧
      (ScreenId.launcher :: screens).getLast (by simp) = s.system.current ∧
      (ScreenId.launcher :: screens).IsChain (· ≠ ·) := by
  intro s
  have hboot : Modes k.boot.core ∧ Walked k.boot.core := by
    rw [boot_core]
    refine ⟨modes_idle _ rfl rfl, [], rfl, rfl, List.isChain_singleton _⟩
  have hrun : Modes s.core ∧ Walked s.core :=
    run_invariant_all Kernel.call (fun k => Modes k.core ∧ Walked k.core)
      (call_invariant (fun c => Modes c ∧ Walked c) fun c act h hg =>
        ⟨act_modes c act h.1 hg, act_walked c act h.2 hg⟩) k.boot calls hboot
  exact ⟨hrun.1.exclusive, hrun.1.confined, hrun.1.idle, hrun.2⟩

end Hnmos
