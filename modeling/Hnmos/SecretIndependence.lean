import Mathlib
import Hnmos.PortTrace
import Hnmos.RequestRetention

/-!
# The key influences only its frame

Two kernels are twins when they differ in the characters of the key and in
the payloads of the key frames already sent, and in nothing else. The
handlers, one by one, keep twins twins: none of them reads the array of the
session except to send it.
-/

set_option autoImplicit false

namespace Hnmos
open Hnmos.CString Hnmos.Task Hnmos.SerialPort Hnmos.SerialTransport Hnmos.AiBridge
open Hnmos.AiSession Hnmos.Workspace Hnmos.Events Hnmos.Transition Hnmos.Surface
open Hnmos.Widgets

/-- Two sessions that differ in the characters of the key only. -/
structure Masked (s s' : Session) : Prop where
  state : s'.state = s.state
  method : s'.method = s.method
  texts : ∃ text text', Wiped s text ∧ Wiped s' text' ∧
    text.map List.length = text'.map List.length

structure Twin (k k' : Kernel) : Prop where
  system : k'.system = k.system
  session : Masked k.session k'.session
  port : Alike k.port k'.port

section
variable {s s' : Session}

theorem masked_index (h : Masked s s') : s'.secretIndex = s.secretIndex := by
  obtain ⟨text, text', hwiped, hwiped', hlength⟩ := h.texts
  rw [hwiped'.index, hwiped.index]
  cases text with
  | none =>
    cases text' with
    | none => rfl
    | some text' => exact nomatch hlength
  | some text =>
    cases text' with
    | none => exact nomatch hlength
    | some text' => exact (Option.some.inj hlength).symm

theorem masked_capturing (h : Masked s s') : s'.isCapturingSecret = s.isCapturingSecret := by
  unfold Session.isCapturingSecret
  rw [h.state]

theorem masked_none (hstate : s'.state = s.state) (hmethod : s'.method = s.method)
    (hwiped : Wiped s none) (hwiped' : Wiped s' none) : Masked s s' :=
  ⟨hstate, hmethod, none, none, hwiped, hwiped', rfl⟩

theorem masked_subscription (h : Masked s s') :
    Masked s.beginSubscriptionLogin s'.beginSubscriptionLogin := by
  obtain ⟨text, text', hwiped, hwiped', -⟩ := h.texts
  exact masked_none rfl rfl (apply_wiped s text .beginSubscriptionLogin hwiped)
    (apply_wiped s' text' .beginSubscriptionLogin hwiped')

theorem masked_cancel (h : Masked s s') : Masked s.cancel s'.cancel := by
  obtain ⟨text, text', hwiped, hwiped', -⟩ := h.texts
  exact masked_none rfl rfl (apply_wiped s text .cancel hwiped)
    (apply_wiped s' text' .cancel hwiped')

theorem masked_apiKey (s s' : Session) : Masked s.beginApiKey s'.beginApiKey :=
  ⟨rfl, rfl, some [], some [], beginApiKey_wiped s, beginApiKey_wiped s', rfl⟩

theorem captureCharacter_kept (s : Session) (c : UInt8) :
    (s.captureCharacter c).2.state = s.state ∧ (s.captureCharacter c).2.method = s.method := by
  unfold Session.captureCharacter
  split_ifs <;> exact ⟨rfl, rfl⟩

theorem backspace_kept (s : Session) :
    s.backspace.state = s.state ∧ s.backspace.method = s.method := by
  unfold Session.backspace
  split_ifs <;> exact ⟨rfl, rfl⟩

theorem masked_character (c d : UInt8) (h : Masked s s')
    (hkind : keyCharacter d = keyCharacter c) :
    Masked (s.captureCharacter c).2 (s'.captureCharacter d).2 := by
  obtain ⟨text, text', hwiped, hwiped', hlength⟩ := h.texts
  obtain ⟨hstate, hmethod⟩ := captureCharacter_kept s c
  obtain ⟨hstate', hmethod'⟩ := captureCharacter_kept s' d
  refine ⟨?_, ?_, _, _, capture_wiped s text c hwiped, capture_wiped s' text' d hwiped', ?_⟩
  · rw [hstate, hstate', h.state]
  · rw [hmethod, hmethod', h.method]
  · cases text with
    | none =>
      cases text' with
      | none => rfl
      | some text' => exact nomatch hlength
    | some text =>
      cases text' with
      | none => exact nomatch hlength
      | some text' =>
        have hsame : text.length = text'.length := Option.some.inj hlength
        simp only [entryStep, Option.map_some, hkind, hsame]
        split_ifs
        · simp [hsame]
        · rw [hsame]

theorem masked_backspace (h : Masked s s') : Masked s.backspace s'.backspace := by
  obtain ⟨text, text', hwiped, hwiped', hlength⟩ := h.texts
  obtain ⟨hstate, hmethod⟩ := backspace_kept s
  obtain ⟨hstate', hmethod'⟩ := backspace_kept s'
  refine ⟨?_, ?_, _, _, backspace_wiped s text hwiped, backspace_wiped s' text' hwiped', ?_⟩
  · rw [hstate, hstate', h.state]
  · rw [hmethod, hmethod', h.method]
  · cases text with
    | none =>
      cases text' with
      | none => rfl
      | some text' => exact nomatch hlength
    | some text =>
      cases text' with
      | none => exact nomatch hlength
      | some text' =>
        have hsame : text.length = text'.length := Option.some.inj hlength
        simp [entryStep, hsame]

theorem submit_state (s : Session) (text : List UInt8) (t : Transport) (u : Uart)
    (h : Wiped s (some text)) :
    (s.submitApiKey t u).1.method = s.method ∧ (s.submitApiKey t u).1.state =
      if 8 ≤ text.length ∧ t.ready = true then .waitingProvider else .invalidKey := by
  have hstate : s.state = .enteringApiKey := h.state.mpr rfl
  have hindex : s.secretIndex = text.length := h.index
  rw [Session.submitApiKey, if_neg (not_not.mpr hstate), hindex, wiped_cstr s text h]
  by_cases hshort : text.length < 8
  · rw [if_pos hshort, if_neg (by omega)]
    exact ⟨rfl, rfl⟩
  · have hne : text ≠ [] := by
      rintro rfl
      exact hshort (by decide)
    rw [if_neg hshort]
    cases hready : t.ready with
    | false =>
      have hsend : t.sendApiKey text u = (false, u) := if_pos (.inl hready)
      rw [hsend]
      exact ⟨rfl, (if_neg fun hn => Bool.false_ne_true hn.2).symm⟩
    | true =>
      rw [sendApiKey_eq t text u hready hne]
      have hlong : 8 ≤ text.length := Nat.le_of_not_lt hshort
      exact ⟨rfl, (if_pos ⟨hlong, rfl⟩).symm⟩

theorem masked_submit (t : Transport) (u v : Uart) (h : Masked s s') (hport : Alike u v) :
    Masked (s.submitApiKey t u).1 (s'.submitApiKey t v).1 ∧
      Alike (s.submitApiKey t u).2 (s'.submitApiKey t v).2 := by
  obtain ⟨text, text', hwiped, hwiped', hlength⟩ := h.texts
  cases text with
  | none =>
    cases text' with
    | none =>
      have hidle : s.state ≠ .enteringApiKey := fun e => nomatch hwiped.state.mp e
      have hidle' : s'.state ≠ .enteringApiKey := fun e => nomatch hwiped'.state.mp e
      have hsame : s.submitApiKey t u = (s, u) := if_pos hidle
      have hsame' : s'.submitApiKey t v = (s', v) := if_pos hidle'
      rw [hsame, hsame']
      exact ⟨h, hport⟩
    | some text' => exact nomatch hlength
  | some text =>
    cases text' with
    | none => exact nomatch hlength
    | some text' =>
      have hequal : text.length = text'.length := Option.some.inj hlength
      obtain ⟨hmethod, hstate⟩ := submit_state s text t u hwiped
      obtain ⟨hmethod', hstate'⟩ := submit_state s' text' t v hwiped'
      constructor
      · refine masked_none ?_ ?_ (submit_wiped s _ t u hwiped) (submit_wiped s' _ t v hwiped')
        · rw [hstate, hstate', hequal]
        · rw [hmethod, hmethod', h.method]
      · rw [submit_port s text t u hwiped, submit_port s' text' t v hwiped', hequal]
        split_ifs
        · exact writeKey_alike u v text text' hport hequal
        · exact hport

end

section
variable {k k' : Kernel}

theorem twin_onSystem (h : Twin k k') (change : System → System) :
    Twin (k.onSystem change) (k'.onSystem change) :=
  ⟨congrArg change h.system, h.session, h.port⟩

theorem twin_session (h : Twin k k') {session session' : Session}
    (hsession : Masked session session') :
    Twin { k with session := session } { k' with session := session' } :=
  ⟨h.system, hsession, h.port⟩

theorem twin_capturing (h : Twin k k') :
    k'.session.isCapturingSecret = k.session.isCapturingSecret := masked_capturing h.session

theorem twin_face (h : Twin k k') : k'.face = k.face := by
  have hname : k'.session.authMethodName = k.session.authMethodName := by
    unfold Session.authMethodName
    rw [h.session.method]
  have hmasked : k'.session.maskedSecret 32 = k.session.maskedSecret 32 := by
    unfold Session.maskedSecret
    rw [masked_index h.session]
  unfold Kernel.face
  rw [h.session.state, hname, hmasked]

theorem renderStudio_twin (h : Twin k k') : Twin k.renderStudio k'.renderStudio := by
  unfold Kernel.renderStudio
  rw [twin_face h]
  exact twin_onSystem h _

theorem screenRender_twin (h : Twin k k') (screen : ScreenId) :
    Twin (k.screenRender screen) (k'.screenRender screen) := by
  cases screen with
  | launcher => exact twin_onSystem h _
  | terminal => exact twin_onSystem h _
  | system => exact twin_onSystem h _
  | memory => exact twin_onSystem h _
  | aiStudio => exact renderStudio_twin h

theorem renderCurrentScreen_twin (h : Twin k k') :
    Twin k.renderCurrentScreen k'.renderCurrentScreen := by
  unfold Kernel.renderCurrentScreen
  simp only [h.system]
  split_ifs
  · have hbar := twin_onSystem h System.renderTopBar
    rw [hbar.system]
    exact screenRender_twin hbar _
  · rw [h.system]
    exact screenRender_twin h _
  · exact h

theorem cancelCapture_twin (h : Twin k k') : Twin k.cancelCapture k'.cancelCapture := by
  unfold Kernel.cancelCapture
  rw [twin_capturing h]
  split_ifs
  · exact twin_session h (masked_cancel h.session)
  · exact h

theorem screenOnExit_twin (h : Twin k k') (screen : ScreenId) :
    Twin (k.screenOnExit screen) (k'.screenOnExit screen) := by
  cases screen with
  | aiStudio => exact twin_onSystem (twin_onSystem (cancelCapture_twin h) _) _
  | _ => exact twin_onSystem (twin_onSystem h _) _

theorem screenOnEnter_twin (h : Twin k k') (screen : ScreenId) :
    Twin (k.screenOnEnter screen) (k'.screenOnEnter screen) :=
  twin_onSystem (twin_onSystem h _) _

theorem changeScreen_twin (h : Twin k k') (next : ScreenId) :
    Twin (k.changeScreen next) (k'.changeScreen next) := by
  unfold Kernel.changeScreen
  rw [h.system]
  exact renderCurrentScreen_twin
    (screenOnEnter_twin (twin_onSystem (screenOnExit_twin h _) _) next)

theorem setScreen_twin (h : Twin k k') (screenId : UInt32) :
    Twin (k.setScreen screenId) (k'.setScreen screenId) := by
  unfold Kernel.setScreen
  rw [h.system]
  split_ifs
  · cases findScreen screenId with
    | none => exact twin_onSystem h _
    | some next =>
      simp only
      split_ifs
      · exact renderCurrentScreen_twin h
      · exact changeScreen_twin h next
  · exact h

theorem back_twin (h : Twin k k') : Twin k.back k'.back := by
  unfold Kernel.back
  rw [h.system]
  split_ifs
  · exact renderCurrentScreen_twin h
  · exact setScreen_twin h _

theorem submitTask_text (provider : Provider) (t : Transport) (task : AiTask) :
    ∃ accepted task' text, ∀ u,
      provider.submitTask t task u = (accepted, task', u.writeText text) := by
  cases provider with
  | stub => exact ⟨_, _, [], fun u => rfl⟩
  | serial =>
    obtain ⟨accepted, text, hsend⟩ := send_text t task
    simp only [Provider.submitTask, serialSubmitTask]
    split_ifs
    · exact ⟨_, _, [], fun u => rfl⟩
    · exact ⟨_, _, [], fun u => rfl⟩
    · simp only [hsend]
      cases accepted with
      | true => exact ⟨_, _, text, fun u => rfl⟩
      | false => exact ⟨_, _, text, fun u => rfl⟩

theorem submit_text_eq (b : Bridge) (t : Transport) (taskType : TaskType)
    (input : Option (List UInt8)) (contextFlags : UInt32) :
    ∃ accepted bridge text, ∀ u,
      b.submit t u taskType input contextFlags = (accepted, bridge, u.writeText text) := by
  unfold Bridge.submit
  cases b.route taskType with
  | none => exact ⟨false, b, [], fun u => rfl⟩
  | some provider =>
    obtain ⟨accepted, task, text, hsubmit⟩ :=
      submitTask_text provider t (b.prepared taskType input contextFlags)
    simp only [hsubmit]
    exact ⟨_, _, text, fun u => rfl⟩

theorem submit_twin (h : Twin k k') (taskType : TaskType) (input : Option (List UInt8))
    (contextFlags : UInt32) :
    (k'.submit taskType input contextFlags).1 = (k.submit taskType input contextFlags).1 ∧
      Twin (k.submit taskType input contextFlags).2 (k'.submit taskType input contextFlags).2 := by
  obtain ⟨accepted, bridge, text, hsubmit⟩ :=
    submit_text_eq k.system.bridge k.system.transport taskType input contextFlags
  unfold Kernel.submit
  rw [h.system]
  simp only [hsubmit]
  cases k.system.bridge.route taskType with
  | none => exact ⟨rfl, h⟩
  | some provider => exact ⟨rfl, rfl, h.session, writeText_alike _ _ text h.port⟩

theorem request_twin (h : Twin k k') (taskType : TaskType) (input : List UInt8)
    (contextFlags : UInt32) (failed : List UInt8) :
    (k'.request taskType input contextFlags failed).1 =
        (k.request taskType input contextFlags failed).1 ∧
      Twin (k.request taskType input contextFlags failed).2
        (k'.request taskType input contextFlags failed).2 := by
  obtain ⟨haccepted, hsubmit⟩ := submit_twin h taskType (some input) contextFlags
  unfold Kernel.request
  rcases hresult : k.submit taskType (some input) contextFlags with ⟨accepted, j⟩
  rcases hresult' : k'.submit taskType (some input) contextFlags with ⟨accepted', j'⟩
  rw [hresult, hresult'] at haccepted hsubmit
  simp only at haccepted hsubmit
  rw [haccepted]
  cases accepted with
  | true =>
    have hpoll := twin_onSystem hsubmit fun s => (s.poll []).2
    refine ⟨?_, hpoll⟩
    show (j'.onSystem fun s => (s.poll []).2).system.bridge.result = _
    rw [hpoll.system]
  | false => exact ⟨rfl, hsubmit⟩

theorem showRequest_twin (h : Twin k k') (taskType : TaskType) (input : List UInt8)
    (contextFlags : UInt32) (failed : List UInt8) (shown : System → System) :
    Twin (Kernel.showRequest (k.request taskType input contextFlags failed) shown)
      (Kernel.showRequest (k'.request taskType input contextFlags failed) shown) := by
  obtain ⟨hanswer, hrequest⟩ := request_twin h taskType input contextFlags failed
  unfold Kernel.showRequest
  rw [hanswer]
  exact twin_onSystem hrequest _

theorem runAi_twin (h : Twin k k') (argument : List UInt8) :
    Twin (k.runAi argument) (k'.runAi argument) := by
  unfold Kernel.runAi
  split_ifs
  · exact showRequest_twin h _ _ _ _ _
  · exact showRequest_twin h _ _ _ _ _
  · exact showRequest_twin h _ _ _ _ _
  · exact showRequest_twin h _ _ _ _ _
  · exact showRequest_twin h _ _ _ _ _
  · exact twin_onSystem h _

theorem executeCommand_twin (h : Twin k k') (command : List UInt8) :
    Twin (k.executeCommand command) (k'.executeCommand command) := by
  unfold Kernel.executeCommand
  split_ifs
  · exact twin_onSystem h _
  · exact twin_onSystem h _
  · exact runAi_twin (twin_onSystem h _) _
  · exact setScreen_twin (twin_onSystem h _) _
  · exact twin_onSystem h _

theorem submitLine_twin (h : Twin k k') : Twin k.submitLine k'.submitLine := by
  unfold Kernel.submitLine
  rw [h.system]
  exact twin_onSystem (executeCommand_twin (twin_onSystem h _) _) _

theorem terminalHandleEvent_twin (h : Twin k k') (event : UiEvent) :
    Twin (k.terminalHandleEvent event) (k'.terminalHandleEvent event) := by
  unfold Kernel.terminalHandleEvent
  split_ifs
  · exact twin_onSystem h _
  · exact twin_onSystem h _
  · exact submitLine_twin h
  · exact h

theorem launcherOpen_twin (h : Twin k k') (screen : ScreenId) :
    Twin (k.launcherOpen screen) (k'.launcherOpen screen) := by
  have hset := setScreen_twin (twin_onSystem h (·.setLauncherPressed none)) screen.code
  unfold Kernel.launcherOpen
  cases openedText screen with
  | none => exact hset
  | some text => exact twin_onSystem hset _

theorem activateItem_twin (h : Twin k k') (item : LauncherItem) :
    Twin (k.activateItem item) (k'.activateItem item) := by
  cases item with
  | terminal => exact launcherOpen_twin h .terminal
  | system => exact launcherOpen_twin h .system
  | memory => exact launcherOpen_twin h .memory
  | ai => exact launcherOpen_twin h .aiStudio
  | shutdown => exact twin_onSystem h _

theorem launcherShortcut_twin (h : Twin k k') (c : UInt8) :
    Twin (k.launcherShortcut c) (k'.launcherShortcut c) := by
  unfold Kernel.launcherShortcut
  split_ifs
  · exact launcherOpen_twin h _
  · exact launcherOpen_twin h _
  · exact launcherOpen_twin h _
  · exact twin_onSystem h _
  · exact launcherOpen_twin h _
  · exact h

theorem launcherMouseUp_twin (h : Twin k k') (x y : UInt32) :
    Twin (k.launcherMouseUp x y) (k'.launcherMouseUp x y) := by
  have hreleased := twin_onSystem h fun s =>
    ((s.setLauncherPressed none).launcherUpdateHover x y).launcherRelease
  unfold Kernel.launcherMouseUp
  rw [h.system]
  cases k.system.launcher.pressedIndex with
  | none => exact twin_onSystem hreleased _
  | some item =>
    simp only
    rw [hreleased.system]
    split_ifs
    · exact activateItem_twin hreleased item
    · exact twin_onSystem hreleased _

theorem launcherHandleEvent_twin (h : Twin k k') (event : UiEvent) :
    Twin (k.launcherHandleEvent event) (k'.launcherHandleEvent event) := by
  unfold Kernel.launcherHandleEvent
  rw [h.system]
  by_cases hready : k.system.launcher.ready = true
  · rw [if_pos hready, if_pos hready]
    cases event.type with
    | none => exact h
    | keyDown => exact h
    | keyChar => exact launcherShortcut_twin h _
    | mouseMove => exact twin_onSystem h _
    | mouseButtonDown =>
      simp only
      split_ifs
      · exact twin_onSystem h _
      · exact h
    | mouseButtonUp =>
      simp only
      split_ifs
      · exact launcherMouseUp_twin h _ _
      · exact h
  · rw [if_neg hready, if_neg hready]
    exact h

theorem generate_twin (h : Twin k k') : Twin k.generate k'.generate := by
  unfold Kernel.generate
  rw [h.system]
  split_ifs
  · exact twin_onSystem h _
  · exact twin_onSystem (cancelCapture_twin h) _

theorem submitPrompt_twin (h : Twin k k') : Twin k.submitPrompt k'.submitPrompt := by
  obtain ⟨haccepted, hsubmit⟩ := submit_twin h .hnlang (some k.system.studio.prompt.chars) 16
  unfold Kernel.submitPrompt
  rw [h.system]
  split_ifs
  · exact twin_onSystem h _
  · exact twin_onSystem h _
  · rcases hresult : k.submit .hnlang (some k.system.studio.prompt.chars) 16 with ⟨accepted, j⟩
    rcases hresult' : k'.submit .hnlang (some k.system.studio.prompt.chars) 16 with ⟨accepted', j'⟩
    rw [hresult, hresult'] at haccepted hsubmit
    simp only at haccepted hsubmit
    rw [haccepted]
    cases accepted with
    | true => exact twin_onSystem hsubmit _
    | false => exact twin_onSystem hsubmit _

theorem press_twin (h : Twin k k') (button : StudioButton) :
    Twin (k.press button) (k'.press button) := by
  cases button with
  | subscription => exact twin_session (twin_onSystem h _) (masked_subscription h.session)
  | apiKey => exact twin_session (twin_onSystem h _) (masked_apiKey k.session k'.session)
  | generate => exact generate_twin h
  | review => exact twin_onSystem h _
  | build => exact twin_onSystem h _

theorem activate_twin (h : Twin k k') (button : StudioButton) :
    Twin (k.activate button) (k'.activate button) :=
  renderStudio_twin (press_twin h button)

theorem studioUpdateHover_twin (h : Twin k k') (x y : UInt32) :
    Twin (k.studioUpdateHover x y) (k'.studioUpdateHover x y) := by
  have hhover := twin_onSystem h fun s => { s with studio := s.studio.hover x y }
  unfold Kernel.studioUpdateHover
  rw [h.system]
  simp only
  split_ifs
  · exact renderStudio_twin hhover
  · exact hhover

theorem studioMouseDown_twin (h : Twin k k') (x y : UInt32) :
    Twin (k.studioMouseDown x y) (k'.studioMouseDown x y) := by
  have hhover := studioUpdateHover_twin (twin_onSystem h (·.setPressed none)) x y
  exact renderStudio_twin (twin_onSystem hhover System.pressHovered)

theorem studioMouseUp_twin (h : Twin k k') (x y : UInt32) :
    Twin (k.studioMouseUp x y) (k'.studioMouseUp x y) := by
  have hreleased := twin_onSystem h fun s => (s.setPressed none).releaseButtons
  unfold Kernel.studioMouseUp
  rw [h.system]
  cases k.system.studio.pressedIndex with
  | none => exact renderStudio_twin hreleased
  | some button =>
    simp only
    rw [hreleased.system]
    split_ifs
    · exact activate_twin hreleased button
    · exact renderStudio_twin hreleased

theorem studioKeyDown_twin (h : Twin k k') (keyCode : UInt32) :
    Twin (k.studioKeyDown keyCode) (k'.studioKeyDown keyCode) := by
  unfold Kernel.studioKeyDown
  rw [h.system, twin_capturing h]
  split_ifs
  · have htwin : Twin ⟨k.system, k.session.backspace, k.port⟩
        ⟨k.system, k'.session.backspace, k'.port⟩ :=
      ⟨rfl, masked_backspace h.session, h.port⟩
    exact renderStudio_twin htwin
  · exact renderStudio_twin (twin_onSystem h _)
  · obtain ⟨hsession, hport⟩ :=
      masked_submit k.system.transport k.port k'.port h.session h.port
    rcases hresult : k.session.submitApiKey k.system.transport k.port with ⟨session, port⟩
    rcases hresult' : k'.session.submitApiKey k.system.transport k'.port with ⟨session', port'⟩
    rw [hresult, hresult'] at hsession hport
    have htwin : Twin ⟨k.system, session, port⟩ ⟨k.system, session', port'⟩ :=
      ⟨rfl, hsession, hport⟩
    exact renderStudio_twin (twin_onSystem htwin
      (·.setActivity (ascii "API key handed to bridge; HNMos copy cleared")))
  · exact renderStudio_twin (submitPrompt_twin h)
  · exact h

theorem studioCancel_twin (h : Twin k k') : Twin k.studioCancel k'.studioCancel := by
  unfold Kernel.studioCancel
  rw [h.system]
  rcases k.system.cancelTask with ⟨accepted, s⟩
  cases accepted with
  | true => exact renderStudio_twin ⟨rfl, h.session, h.port⟩
  | false => exact renderStudio_twin ⟨rfl, h.session, h.port⟩

theorem studioCommand_twin (h : Twin k k') (c : UInt8) :
    Twin (k.studioCommand c) (k'.studioCommand c) := by
  unfold Kernel.studioCommand
  split_ifs
  · exact activate_twin h _
  · exact activate_twin h _
  · exact activate_twin h _
  · exact activate_twin h _
  · exact activate_twin h _
  · exact studioCancel_twin h
  · exact h

theorem studioKeyChar_twin (h : Twin k k') (c : UInt8) :
    Twin (k.studioKeyChar c) (k'.studioKeyChar c) := by
  unfold Kernel.studioKeyChar
  rw [h.system, twin_capturing h]
  split_ifs
  · have htwin : Twin ⟨k.system, (k.session.captureCharacter c).2, k.port⟩
        ⟨k.system, (k'.session.captureCharacter c).2, k'.port⟩ :=
      ⟨rfl, masked_character c c h.session rfl, h.port⟩
    exact renderStudio_twin htwin
  · exact renderStudio_twin (twin_onSystem h _)
  · exact studioCommand_twin h c

theorem studioHandleEvent_twin (h : Twin k k') (event : UiEvent) :
    Twin (k.studioHandleEvent event) (k'.studioHandleEvent event) := by
  unfold Kernel.studioHandleEvent
  rw [h.system]
  by_cases hready : k.system.studio.ready = true
  · rw [if_pos hready, if_pos hready]
    cases event.type with
    | none => exact h
    | keyDown => exact studioKeyDown_twin h _
    | keyChar => exact studioKeyChar_twin h _
    | mouseMove => exact studioUpdateHover_twin h _ _
    | mouseButtonDown =>
      simp only
      split_ifs
      · exact studioMouseDown_twin h _ _
      · exact h
    | mouseButtonUp =>
      simp only
      split_ifs
      · exact studioMouseUp_twin h _ _
      · exact h
  · rw [if_neg hready, if_neg hready]
    exact h

theorem screenHandleEvent_twin (h : Twin k k') (event : UiEvent) :
    Twin (k.screenHandleEvent event) (k'.screenHandleEvent event) := by
  unfold Kernel.screenHandleEvent
  rw [h.system]
  cases k.system.current with
  | launcher => exact launcherHandleEvent_twin h event
  | terminal => exact terminalHandleEvent_twin h event
  | system => exact h
  | memory => exact h
  | aiStudio => exact studioHandleEvent_twin h event

theorem globalShortcut_twin (h : Twin k k') (event : UiEvent) :
    (k.globalShortcut event = none ∧ k'.globalShortcut event = none) ∨
      ∃ j j', k.globalShortcut event = some j ∧ k'.globalShortcut event = some j' ∧
        Twin j j' := by
  unfold Kernel.globalShortcut
  rw [h.system]
  split_ifs
  · exact .inl ⟨rfl, rfl⟩
  · exact .inr ⟨_, _, rfl, rfl, setScreen_twin h _⟩
  · exact .inr ⟨_, _, rfl, rfl, setScreen_twin h _⟩
  · exact .inr ⟨_, _, rfl, rfl, setScreen_twin h _⟩
  · exact .inr ⟨_, _, rfl, rfl, twin_onSystem h _⟩
  · exact .inr ⟨_, _, rfl, rfl, setScreen_twin h _⟩
  · exact .inl ⟨rfl, rfl⟩

theorem dispatchEventToCurrentScreen_twin (h : Twin k k') (event : UiEvent) :
    Twin (k.dispatchEventToCurrentScreen event) (k'.dispatchEventToCurrentScreen event) := by
  unfold Kernel.dispatchEventToCurrentScreen
  rw [h.system]
  split_ifs
  · exact back_twin h
  · exact twin_onSystem (renderCurrentScreen_twin h) _
  · rcases globalShortcut_twin h event with ⟨hnone, hnone'⟩ | ⟨j, j', hsome, hsome', htwin⟩
    · rw [hnone, hnone']
      exact screenHandleEvent_twin h event
    · rw [hsome, hsome']
      exact htwin
  · exact h

theorem dispatchEvent_twin (h : Twin k k') (event : UiEvent) :
    Twin (k.dispatchEvent event) (k'.dispatchEvent event) := by
  unfold Kernel.dispatchEvent
  rw [twin_capturing h]
  by_cases hsecret : k.session.isCapturingSecret = true
  · rw [if_pos hsecret, if_pos hsecret]
    exact dispatchEventToCurrentScreen_twin h event
  · rw [if_neg hsecret, if_neg hsecret]
    exact dispatchEventToCurrentScreen_twin (twin_onSystem h _) event

theorem pollBridge_twin (h : Twin k k') (arrived : List UInt8) :
    Twin (k.pollBridge arrived) (k'.pollBridge arrived) := by
  unfold Kernel.pollBridge
  rw [h.system]
  rcases k.system.poll arrived with ⟨answered, s⟩
  have hpolled : Twin { k with system := s } { k' with system := s } :=
    ⟨rfl, h.session, h.port⟩
  cases answered with
  | true =>
    simp only
    split_ifs
    · exact renderCurrentScreen_twin hpolled
    · exact hpolled
  | false => exact hpolled

theorem step_twin (h : Twin k k') (input : Input) : Twin (k.step input) (k'.step input) := by
  unfold Kernel.step
  rw [h.system]
  split_ifs
  · exact h
  · cases input with
    | event event => exact dispatchEvent_twin h event
    | service arrived => exact twin_onSystem (pollBridge_twin h arrived) _
    | receive arrived => exact twin_onSystem h _

end

/-- An event of a key with a character: the key going down, or the character. -/
def Presses (c : UInt8) (event : UiEvent) : Prop :=
  (event.type = .keyDown ∧ event.keyCode = c.toUInt32) ∨
    (event.type = .keyChar ∧ event.character = c)

/-- The inputs of the two runs agree, except that while a secret is being
typed the keys may be different ones. -/
def Varied (k : Kernel) (input input' : Input) : Prop :=
  input = input' ∨
    (k.session.isCapturingSecret = true ∧ ∃ c d event event',
      Producible c ∧ Producible d ∧ Presses c event ∧ Presses d event' ∧
      event.type = event'.type ∧ input = .event event ∧ input' = .event event')

/-- What a key does while a secret is being typed: going down, nothing; its
character goes into the array. -/
theorem secret_step (k : Kernel) (c : UInt8) (event : UiEvent) (hc : Producible c)
    (hpress : Presses c event) (hrun : k.system.halted = false)
    (hready : k.system.routerReady = true) (hcurrent : k.system.current = .aiStudio)
    (hsecret : k.session.isCapturingSecret = true) :
    k.step (.event event) =
      if k.system.studio.ready = true ∧ event.type = .keyChar then
        { k with session := (k.session.captureCharacter c).2 }.renderStudio
      else k := by
  obtain ⟨hlow, hhigh, hhelp⟩ := producible_range c hc
  have hcode : c.toUInt32.toNat = c.toNat := UInt8.toNat_toUInt32 c
  have hescape : c.toUInt32 ≠ keyEscape := by
    intro hn
    have h27 : c.toNat = 27 := hcode.symm.trans (congrArg UInt32.toNat hn)
    omega
  have hback : c.toUInt32 ≠ keyBackspace := by
    intro hn
    have h8 : c.toNat = 8 := hcode.symm.trans (congrArg UInt32.toNat hn)
    omega
  have henter : c.toUInt32 ≠ keyEnter := by
    intro hn
    have h13 : c.toNat = 13 := hcode.symm.trans (congrArg UInt32.toNat hn)
    omega
  have hnotControl : event.type = .keyDown →
      event.keyCode ≠ keyEscape ∧ event.keyCode ≠ keyF1 := by
    intro hdown
    rcases hpress with ⟨-, hkey⟩ | ⟨hchar, -⟩
    · rw [hkey]
      exact ⟨hescape, hhelp⟩
    · exact nomatch hdown.symm.trans hchar
  have hshortcut : k.globalShortcut event = none := if_pos (.inr (.inr (.inl hcurrent)))
  have hdispatch : k.step (.event event) = k.studioHandleEvent event := by
    unfold Kernel.step Kernel.dispatchEvent Kernel.dispatchEventToCurrentScreen
      Kernel.screenHandleEvent
    rw [if_neg (by rw [hrun]; exact Bool.false_ne_true)]
    simp only
    rw [if_pos hsecret, if_pos hready, if_neg (fun hn => (hnotControl hn.1).1 hn.2.1),
      if_neg (fun hn => (hnotControl hn.1).2 hn.2), hshortcut, hcurrent]
  rw [hdispatch]
  by_cases hstudio : k.system.studio.ready = true
  · rcases hpress with ⟨hdown, hkey⟩ | ⟨hchar, hcharacter⟩
    · have hnot : ¬ (k.system.studio.ready = true ∧ event.type = .keyChar) :=
        fun hn => nomatch hdown.symm.trans hn.2
      have hhandle : k.studioHandleEvent event = k.studioKeyDown event.keyCode := by
        rw [Kernel.studioHandleEvent, if_pos hstudio, hdown]
      rw [if_neg hnot, hhandle, hkey]
      unfold Kernel.studioKeyDown
      rw [if_neg (fun hn => hback hn.1), if_neg (fun hn => hback hn.1),
        if_neg (fun hn => henter hn.1), if_neg (fun hn => henter hn.1)]
    · have hhandle : k.studioHandleEvent event = k.studioKeyChar event.character := by
        rw [Kernel.studioHandleEvent, if_pos hstudio, hchar]
      rw [if_pos ⟨hstudio, hchar⟩, hhandle, hcharacter]
      unfold Kernel.studioKeyChar
      rw [if_pos hsecret]
  · have hhandle : k.studioHandleEvent event = k := if_neg hstudio
    rw [if_neg (fun hn => hstudio hn.1), hhandle]

theorem producible_keyCharacter (c : UInt8) (h : Producible c) : keyCharacter c = true := by
  obtain ⟨hlow, hhigh, -⟩ := producible_range c h
  unfold keyCharacter
  simp only [Bool.and_eq_true, decide_eq_true_eq]
  exact ⟨hlow, hhigh⟩

theorem varied_twin (k k' : Kernel) (input input' : Input) (h : Twin k k') (htracked : Tracked k)
    (hvaried : Varied k input input') : Twin (k.step input) (k'.step input') := by
  rcases hvaried with rfl | ⟨hsecret, c, d, event, event', hc, hd, hpress, hpress', htype, rfl, rfl⟩
  · exact step_twin h input
  by_cases hhalted : k.system.halted = true
  · have hhalted' : k'.system.halted = true := h.system.symm ▸ hhalted
    have hstep : k.step (.event event) = k := if_pos hhalted
    have hstep' : k'.step (.event event') = k' := if_pos hhalted'
    rw [hstep, hstep']
    exact h
  have hcurrent : k.system.current = .aiStudio := htracked.modes.confined (.inl hsecret)
  have hstep := secret_step k c event hc hpress (Bool.eq_false_iff.mpr hhalted) htracked.ready
    hcurrent hsecret
  have hstep' := secret_step k' d event' hd hpress' (h.system ▸ Bool.eq_false_iff.mpr hhalted)
    (h.system ▸ htracked.ready) (h.system ▸ hcurrent) ((twin_capturing h).trans hsecret)
  have hkind : keyCharacter d = keyCharacter c := by
    rw [producible_keyCharacter c hc, producible_keyCharacter d hd]
  rw [hstep, hstep', h.system, htype]
  split_ifs
  · have htwin : Twin ⟨k.system, (k.session.captureCharacter c).2, k.port⟩
        ⟨k.system, (k'.session.captureCharacter d).2, k'.port⟩ :=
      ⟨rfl, masked_character c d h.session hkind, h.port⟩
    exact renderStudio_twin htwin
  · exact h

theorem boot_twin (k : Kernel) : Twin k.boot k.boot := by
  have hsession : k.boot.session = k.session.init := congrArg Core.session (boot_core k)
  have hwiped : Wiped k.boot.session none := by
    rw [hsession]
    exact session_wiped k.session []
  exact ⟨rfl, masked_none rfl rfl hwiped hwiped, ⟨rfl, rfl⟩, sameButKeys_refl _⟩

/-- Two runs from boot whose inputs differ in nothing but the keys typed while
a secret is captured: after every input the system, the session apart from its
array, what is shown of it and the state of the port are the same, and so are
the bytes sent, but for the payloads of key frames. -/
theorem key_independence (k : Kernel) (inputs inputs' : List Input)
    (h : Matched Kernel.step Varied k.boot inputs inputs') (n : ℕ) :
    let s := run Kernel.step k.boot (inputs.take n)
    let t := run Kernel.step k.boot (inputs'.take n)
    t.system = s.system ∧ t.session.state = s.session.state ∧
      t.session.method = s.session.method ∧ t.session.secretIndex = s.session.secretIndex ∧
      (∀ capacity, t.session.maskedSecret capacity = s.session.maskedSecret capacity) ∧
      SameState s.port t.port ∧ SameButKeys s.port.written t.port.written := by
  intro s t
  have hrelated : Twin s t ∧ Tracked s :=
    run_related Kernel.step Varied (fun k k' => Twin k k' ∧ Tracked k)
      (fun i j input input' hij hvaried =>
        ⟨varied_twin i j input input' hij.1 hij.2 hvaried, step_tracked i input hij.2⟩)
      k.boot k.boot _ _ ⟨boot_twin k, boot_tracked k⟩
      (matched_take Kernel.step Varied k.boot inputs inputs' h n)
  obtain ⟨htwin, -⟩ := hrelated
  have hindex := masked_index htwin.session
  refine ⟨htwin.system, htwin.session.state, htwin.session.method, hindex, ?_, htwin.port⟩
  intro capacity
  unfold Session.maskedSecret
  rw [hindex]

def keyInputs (c : UInt8) : List Input :=
  (keyEvents 53 ++ keyEvents 107).map Input.event ++ ((keyEvents c).map Input.event ++
    ((List.replicate 7 (keyEvents 97)).flatten ++ enterEvents).map Input.event)

theorem varied_keys (k : Kernel) (c d : UInt8) (hc : Producible c) (hd : Producible d)
    (hsecret : k.session.isCapturingSecret = true)
    (hstill : (k.step (.event { UiEvent.init .keyDown with
      keyCode := c.toUInt32 })).session.isCapturingSecret = true) :
    Matched Kernel.step Varied k ((keyEvents c).map Input.event)
      ((keyEvents d).map Input.event) := by
  have hdown : Varied k (.event { UiEvent.init .keyDown with keyCode := c.toUInt32 })
      (.event { UiEvent.init .keyDown with keyCode := d.toUInt32 }) :=
    .inr ⟨hsecret, c, d, { UiEvent.init .keyDown with keyCode := c.toUInt32 },
      { UiEvent.init .keyDown with keyCode := d.toUInt32 }, hc, hd, .inl ⟨rfl, rfl⟩,
      .inl ⟨rfl, rfl⟩, rfl, rfl, rfl⟩
  have hchar : Varied (k.step (.event { UiEvent.init .keyDown with keyCode := c.toUInt32 }))
      (.event { UiEvent.init .keyChar with character := c })
      (.event { UiEvent.init .keyChar with character := d }) :=
    .inr ⟨hstill, c, d, { UiEvent.init .keyChar with character := c },
      { UiEvent.init .keyChar with character := d }, hc, hd, .inr ⟨rfl, rfl⟩,
      .inr ⟨rfl, rfl⟩, rfl, rfl, rfl⟩
  exact Matched.cons hdown (Matched.cons hchar (Matched.nil _))

theorem varied_refl (k : Kernel) (input : Input) : Varied k input input := .inl rfl

theorem keyInputs_matched :
    Matched Kernel.step Varied powerOn.boot (keyInputs 97) (keyInputs 98) := by
  have hsecret : (run Kernel.step powerOn.boot
      ((keyEvents 53 ++ keyEvents 107).map Input.event)).session.isCapturingSecret = true := by
    decide
  have hstill : ((run Kernel.step powerOn.boot
      ((keyEvents 53 ++ keyEvents 107).map Input.event)).step (.event
        { UiEvent.init .keyDown with keyCode := (97 : UInt8).toUInt32 })).session.isCapturingSecret =
      true := by
    decide
  have hletters : Producible 97 ∧ Producible 98 :=
    ⟨⟨false, 0x1E, by decide⟩, ⟨false, 0x30, by decide⟩⟩
  apply matched_append
  · exact matched_refl Kernel.step Varied varied_refl _ _
  · apply matched_append
    · exact varied_keys _ 97 98 hletters.1 hletters.2 hsecret hstill
    · exact matched_refl Kernel.step Varied varied_refl _ _

theorem key_independence_letter :
    (run Kernel.step powerOn.boot ((keyInputs 98).take 21)).system =
        (run Kernel.step powerOn.boot ((keyInputs 97).take 21)).system ∧
      (run Kernel.step powerOn.boot ((keyInputs 98).take 21)).port.written ≠
        (run Kernel.step powerOn.boot ((keyInputs 97).take 21)).port.written := by
  have hdiffer : (run Kernel.step powerOn.boot ((keyInputs 98).take 21)).port.written ≠
      (run Kernel.step powerOn.boot ((keyInputs 97).take 21)).port.written := by
    decide
  exact ⟨(key_independence powerOn (keyInputs 97) (keyInputs 98) keyInputs_matched 21).1, hdiffer⟩

end Hnmos
