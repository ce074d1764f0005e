import Mathlib
import Hnmos.KernelActs

/-!
# What no input changes

The router stays ready, AI Studio keeps its readiness and the framebuffer its
geometry: followed through the handlers one by one up to the kernel's step.
-/

set_option autoImplicit false

namespace Hnmos
open Hnmos.CString Hnmos.Task Hnmos.SerialTransport Hnmos.AiBridge Hnmos.AiSession
open Hnmos.Workspace Hnmos.Events Hnmos.Surface Hnmos.Widgets

structure Steady (s t : System) : Prop where
  router : t.routerReady = s.routerReady
  studio : t.studio.ready = s.studio.ready
  fb : t.display.fb = s.display.fb

theorem steady_refl (s : System) : Steady s s := ⟨rfl, rfl, rfl⟩

theorem steady_trans {s t u : System} (h : Steady s t) (h' : Steady t u) : Steady s u :=
  ⟨h'.router.trans h.router, h'.studio.trans h.studio, h'.fb.trans h.fb⟩

theorem steady_quiet {s t : System} (h : Quiet s t) : Steady s t :=
  ⟨quiet_ready h, congrArg (fun kept => kept.2.2.2.2.2.2.1) h.rest, h.fb⟩

theorem renderStudio_steady (s : System) (face : Face) : Steady s (s.renderStudio face) := by
  unfold System.renderStudio
  split_ifs
  · have hsync : Steady s s.syncProviderResult := by
      unfold System.syncProviderResult
      simp only
      split_ifs
      · exact steady_refl s
      · exact ⟨rfl, rfl, rfl⟩
      · exact ⟨rfl, rfl, rfl⟩
      · exact ⟨rfl, rfl, rfl⟩
      · split <;> exact ⟨rfl, rfl, rfl⟩
      · exact steady_refl s
    exact steady_trans hsync (steady_quiet (quiet_drawStudio _ face))
  · exact steady_refl s

theorem screenRender_steady (k : Kernel) (screen : ScreenId) :
    Steady k.system (k.screenRender screen).system := by
  cases screen with
  | launcher => exact steady_quiet (quiet_renderLauncher k.system)
  | terminal => exact steady_quiet (quiet_showScreen k.system)
  | system => exact steady_quiet (quiet_renderSystem k.system)
  | memory => exact steady_quiet (quiet_renderMemory k.system)
  | aiStudio => exact renderStudio_steady k.system k.face

theorem renderCurrentScreen_steady (k : Kernel) :
    Steady k.system k.renderCurrentScreen.system := by
  unfold Kernel.renderCurrentScreen
  simp only
  split_ifs
  · exact steady_trans (steady_quiet (quiet_topBar k.system))
      (screenRender_steady (k.onSystem System.renderTopBar) _)
  · exact screenRender_steady k _
  · exact steady_refl k.system

theorem screenOnExit_steady (k : Kernel) (screen : ScreenId) :
    Steady k.system (k.screenOnExit screen).system := by
  cases screen with
  | aiStudio =>
    unfold Kernel.screenOnExit Kernel.studioOnExit Kernel.cancelCapture
    simp only
    split_ifs <;> exact ⟨rfl, rfl, rfl⟩
  | _ => exact ⟨rfl, rfl, rfl⟩

theorem screenOnEnter_steady (k : Kernel) (screen : ScreenId) :
    Steady k.system (k.screenOnEnter screen).system := by
  cases screen with
  | launcher =>
    show Steady k.system (k.system.launcherOnEnter.recordHook _)
    unfold System.launcherOnEnter
    exact ⟨rfl, rfl, rfl⟩
  | _ => exact ⟨rfl, rfl, rfl⟩

theorem setScreen_steady (k : Kernel) (screenId : UInt32) :
    Steady k.system (k.setScreen screenId).system := by
  unfold Kernel.setScreen
  split_ifs
  · cases findScreen screenId with
    | none => exact steady_quiet (quiet_logLine k.system _)
    | some next =>
      simp only
      split_ifs
      · exact renderCurrentScreen_steady k
      · have hexit := screenOnExit_steady k k.system.current
        unfold Kernel.changeScreen
        simp only
        generalize k.screenOnExit k.system.current = j at hexit ⊢
        have hset : Steady j.system (j.onSystem (·.setCurrent next)).system := ⟨rfl, rfl, rfl⟩
        have henter := screenOnEnter_steady (j.onSystem (·.setCurrent next)) next
        exact steady_trans (steady_trans (steady_trans hexit hset) henter)
          (renderCurrentScreen_steady _)
  · exact steady_refl k.system

theorem back_steady (k : Kernel) : Steady k.system k.back.system := by
  unfold Kernel.back
  split_ifs
  · exact renderCurrentScreen_steady k
  · exact setScreen_steady k _

theorem submit_steady (k : Kernel) (taskType : TaskType) (input : Option (List UInt8))
    (contextFlags : UInt32) :
    Steady k.system (k.submit taskType input contextFlags).2.system := by
  unfold Kernel.submit
  simp only
  cases k.system.bridge.route taskType with
  | none => exact steady_refl k.system
  | some provider => exact ⟨rfl, rfl, rfl⟩

theorem request_steady (k : Kernel) (taskType : TaskType) (input : List UInt8)
    (contextFlags : UInt32) (failed : List UInt8) :
    Steady k.system (k.request taskType input contextFlags failed).2.system := by
  have hsubmit := submit_steady k taskType (some input) contextFlags
  unfold Kernel.request
  rcases hresult : k.submit taskType (some input) contextFlags with ⟨accepted, j⟩
  rw [hresult] at hsubmit
  cases accepted with
  | true => exact steady_trans hsubmit ⟨rfl, rfl, rfl⟩
  | false => exact hsubmit

theorem submitPrompt_steady (k : Kernel) : Steady k.system k.submitPrompt.system := by
  have hsubmit := submit_steady k .hnlang (some k.system.studio.prompt.chars) 16
  unfold Kernel.submitPrompt
  split_ifs
  · exact steady_quiet (quiet_activity k.system _)
  · exact steady_quiet (quiet_activity k.system _)
  · rcases hresult : k.submit .hnlang (some k.system.studio.prompt.chars) 16 with ⟨accepted, j⟩
    rw [hresult] at hsubmit
    cases accepted with
    | true => exact steady_trans hsubmit ⟨rfl, rfl, rfl⟩
    | false => exact steady_trans hsubmit ⟨rfl, rfl, rfl⟩

theorem cancelCapture_steady (k : Kernel) : Steady k.system k.cancelCapture.system := by
  unfold Kernel.cancelCapture
  split_ifs <;> exact steady_refl k.system

theorem press_steady (k : Kernel) (button : StudioButton) :
    Steady k.system (k.press button).system := by
  cases button with
  | subscription => exact ⟨rfl, rfl, rfl⟩
  | apiKey => exact ⟨rfl, rfl, rfl⟩
  | generate =>
    show Steady k.system k.generate.system
    unfold Kernel.generate
    split_ifs
    · exact steady_quiet (quiet_activity k.system _)
    · exact steady_trans (cancelCapture_steady k) ⟨rfl, rfl, rfl⟩
  | review => exact steady_quiet (quiet_activity k.system _)
  | build => exact ⟨rfl, rfl, rfl⟩

theorem activate_steady (k : Kernel) (button : StudioButton) :
    Steady k.system (k.activate button).system :=
  steady_trans (press_steady k button) (renderStudio_steady _ _)

theorem then_render_steady (k j : Kernel) (h : Steady k.system j.system) :
    Steady k.system j.renderStudio.system := steady_trans h (renderStudio_steady _ _)

theorem studioKeyDown_steady (k : Kernel) (keyCode : UInt32) :
    Steady k.system (k.studioKeyDown keyCode).system := by
  unfold Kernel.studioKeyDown
  split_ifs
  · exact then_render_steady k { k with session := k.session.backspace } (steady_refl _)
  · exact then_render_steady k (k.onSystem (·.editPrompt promptBackspace)) ⟨rfl, rfl, rfl⟩
  · rcases k.session.submitApiKey k.system.transport k.port with ⟨session, port⟩
    exact then_render_steady k ({ k with session := session, port := port }.onSystem
      (·.setActivity (ascii "API key handed to bridge; HNMos copy cleared"))) ⟨rfl, rfl, rfl⟩
  · exact then_render_steady k k.submitPrompt (submitPrompt_steady k)
  · exact steady_refl k.system

theorem studioCancel_steady (k : Kernel) : Steady k.system k.studioCancel.system := by
  unfold Kernel.studioCancel System.cancelTask
  rcases k.system.bridge.cancel with ⟨accepted, bridge⟩
  cases accepted with
  | true => exact then_render_steady k ⟨_, k.session, k.port⟩ ⟨rfl, rfl, rfl⟩
  | false => exact then_render_steady k ⟨_, k.session, k.port⟩ ⟨rfl, rfl, rfl⟩

theorem studioKeyChar_steady (k : Kernel) (c : UInt8) :
    Steady k.system (k.studioKeyChar c).system := by
  unfold Kernel.studioKeyChar Kernel.studioCommand
  split_ifs
  · exact then_render_steady k { k with session := (k.session.captureCharacter c).2 }
      (steady_refl _)
  · exact then_render_steady k (k.onSystem (·.editPrompt (promptChar · c))) ⟨rfl, rfl, rfl⟩
  · exact activate_steady k _
  · exact activate_steady k _
  · exact activate_steady k _
  · exact activate_steady k _
  · exact activate_steady k _
  · exact studioCancel_steady k
  · exact steady_refl k.system

theorem studioUpdateHover_steady (k : Kernel) (x y : UInt32) :
    Steady k.system (k.studioUpdateHover x y).system := by
  unfold Kernel.studioUpdateHover
  simp only
  split_ifs
  · exact then_render_steady k (k.onSystem fun s => { s with studio := s.studio.hover x y })
      ⟨rfl, rfl, rfl⟩
  · exact ⟨rfl, rfl, rfl⟩

theorem studioMouseDown_steady (k : Kernel) (x y : UInt32) :
    Steady k.system (k.studioMouseDown x y).system := by
  unfold Kernel.studioMouseDown
  simp only
  have hhover := studioUpdateHover_steady (k.onSystem (·.setPressed none)) x y
  generalize (k.onSystem (·.setPressed none)).studioUpdateHover x y = j at hhover ⊢
  have hpressed : Steady k.system (k.onSystem (·.setPressed none)).system := ⟨rfl, rfl, rfl⟩
  exact then_render_steady k (j.onSystem System.pressHovered)
    (steady_trans (steady_trans hpressed hhover) ⟨rfl, rfl, rfl⟩)

theorem studioMouseUp_steady (k : Kernel) (x y : UInt32) :
    Steady k.system (k.studioMouseUp x y).system := by
  have hreleased : Steady k.system
      (k.onSystem fun s => (s.setPressed none).releaseButtons).system := ⟨rfl, rfl, rfl⟩
  unfold Kernel.studioMouseUp
  simp only
  generalize (k.onSystem fun s => (s.setPressed none).releaseButtons) = j at hreleased ⊢
  cases k.system.studio.pressedIndex with
  | none => exact then_render_steady k j hreleased
  | some button =>
    simp only
    split_ifs
    · exact steady_trans hreleased (activate_steady j button)
    · exact then_render_steady k j hreleased

theorem studioHandleEvent_steady (k : Kernel) (event : UiEvent) :
    Steady k.system (k.studioHandleEvent event).system := by
  unfold Kernel.studioHandleEvent
  by_cases hready : k.system.studio.ready = true
  · rw [if_pos hready]
    cases event.type with
    | none => exact steady_refl k.system
    | keyDown => exact studioKeyDown_steady k _
    | keyChar => exact studioKeyChar_steady k _
    | mouseMove => exact studioUpdateHover_steady k _ _
    | mouseButtonDown =>
      simp only
      split_ifs
      · exact studioMouseDown_steady k _ _
      · exact steady_refl k.system
    | mouseButtonUp =>
      simp only
      split_ifs
      · exact studioMouseUp_steady k _ _
      · exact steady_refl k.system
  · rw [if_neg hready]
    exact steady_refl k.system

theorem launcherOpen_steady (k : Kernel) (screen : ScreenId) :
    Steady k.system (k.launcherOpen screen).system := by
  have hset := setScreen_steady (k.onSystem (·.setLauncherPressed none)) screen.code
  unfold Kernel.launcherOpen
  simp only
  generalize (k.onSystem (·.setLauncherPressed none)).setScreen screen.code = j at hset ⊢
  have hpressed : Steady k.system (k.onSystem (·.setLauncherPressed none)).system :=
    ⟨rfl, rfl, rfl⟩
  cases openedText screen with
  | none => exact steady_trans hpressed hset
  | some text => exact steady_trans (steady_trans hpressed hset) ⟨rfl, rfl, rfl⟩

theorem activateItem_steady (k : Kernel) (item : LauncherItem) :
    Steady k.system (k.activateItem item).system := by
  cases item with
  | shutdown => exact ⟨rfl, rfl, rfl⟩
  | _ => exact launcherOpen_steady k _

theorem launcherShortcut_steady (k : Kernel) (c : UInt8) :
    Steady k.system (k.launcherShortcut c).system := by
  unfold Kernel.launcherShortcut
  split_ifs
  · exact launcherOpen_steady k _
  · exact launcherOpen_steady k _
  · exact launcherOpen_steady k _
  · exact ⟨rfl, rfl, rfl⟩
  · exact launcherOpen_steady k _
  · exact steady_refl k.system

theorem launcherMouseUp_steady (k : Kernel) (x y : UInt32) :
    Steady k.system (k.launcherMouseUp x y).system := by
  have hreleased : Steady k.system (k.onSystem fun s =>
      ((s.setLauncherPressed none).launcherUpdateHover x y).launcherRelease).system :=
    steady_trans (t := k.system.setLauncherPressed none) ⟨rfl, rfl, rfl⟩
      (steady_trans (steady_quiet (quiet_launcherHover _ x y)) ⟨rfl, rfl, rfl⟩)
  unfold Kernel.launcherMouseUp
  simp only
  generalize (k.onSystem fun s =>
    ((s.setLauncherPressed none).launcherUpdateHover x y).launcherRelease) = j at hreleased ⊢
  cases k.system.launcher.pressedIndex with
  | none => exact steady_trans hreleased ⟨rfl, rfl, rfl⟩
  | some item =>
    simp only
    split_ifs
    · exact steady_trans hreleased (activateItem_steady j item)
    · exact steady_trans hreleased ⟨rfl, rfl, rfl⟩

theorem launcherHandleEvent_steady (k : Kernel) (event : UiEvent) :
    Steady k.system (k.launcherHandleEvent event).system := by
  unfold Kernel.launcherHandleEvent
  by_cases hready : k.system.launcher.ready = true
  · rw [if_pos hready]
    cases event.type with
    | none => exact steady_refl k.system
    | keyDown => exact steady_refl k.system
    | keyChar => exact launcherShortcut_steady k _
    | mouseMove => exact steady_quiet (quiet_launcherHover k.system _ _)
    | mouseButtonDown =>
      simp only
      split_ifs
      · exact steady_quiet (quiet_launcherMouseDown k.system _ _)
      · exact steady_refl k.system
    | mouseButtonUp =>
      simp only
      split_ifs
      · exact launcherMouseUp_steady k _ _
      · exact steady_refl k.system
  · rw [if_neg hready]
    exact steady_refl k.system

theorem showRequest_steady (k : Kernel) (taskType : TaskType) (input : List UInt8)
    (contextFlags : UInt32) (failed : List UInt8) (shown : System → System)
    (h : ∀ s, Quiet s (shown s)) :
    Steady k.system
      (Kernel.showRequest (k.request taskType input contextFlags failed) shown).system := by
  have hrequest := request_steady k taskType input contextFlags failed
  generalize k.request taskType input contextFlags failed = answer at hrequest ⊢
  have hshown : Quiet answer.2.system (shown (answer.2.system.showResponse answer.1)) :=
    quiet_trans (quiet_showResponse answer.2.system answer.1) (h _)
  exact steady_trans hrequest (steady_quiet (quiet_trans hshown (quiet_prompt _)))

theorem runAi_steady (k : Kernel) (argument : List UInt8) :
    Steady k.system (k.runAi argument).system := by
  unfold Kernel.runAi
  split_ifs
  · exact showRequest_steady k _ _ _ _ _ quiet_refl
  · exact showRequest_steady k _ _ _ _ _ quiet_refl
  · exact showRequest_steady k _ _ _ _ _ quiet_showProvider
  · exact showRequest_steady k _ _ _ _ _ quiet_showProgram
  · exact showRequest_steady k _ _ _ _ _ fun s =>
      quiet_trans (quiet_showSyncSummary s) (quiet_showProgram _)
  · exact steady_quiet (quiet_trans (quiet_writeLine k.system _) (quiet_prompt _))

theorem executeLocal_steady (s : System) (command : List UInt8) :
    Steady s (s.executeLocal command) := by
  by_cases hhalt : command = ascii "halt"
  · rw [hhalt, executeLocal_halt]
    have hquiet := quiet_trans (quiet_logLine s (ascii "terminal command: halt"))
      (quiet_writeLine _ (ascii "halting"))
    exact steady_trans (steady_quiet hquiet) ⟨rfl, rfl, rfl⟩
  by_cases hreboot : command = ascii "reboot"
  · rw [hreboot, executeLocal_reboot]
    have hquiet := quiet_trans (quiet_logLine s (ascii "terminal command: reboot"))
      (quiet_writeLine _ (ascii "rebooting"))
    exact steady_trans (steady_quiet hquiet) ⟨rfl, rfl, rfl⟩
  · exact steady_quiet (quiet_executeLocal s command hhalt hreboot)

theorem executeCommand_steady (k : Kernel) (command : List UInt8) :
    Steady k.system (k.executeCommand command).system := by
  unfold Kernel.executeCommand
  split_ifs
  · exact steady_quiet (quiet_prompt k.system)
  · have hhelp : Quiet k.system k.system.terminalHelp :=
      quiet_trans (quiet_trans (quiet_trans (quiet_logLine k.system _) (quiet_writeLine _ _))
        (quiet_writeLine _ _)) (quiet_prompt _)
    exact steady_quiet hhelp
  · have hlog : Steady k.system (k.onSystem (·.logAiCommand
        (commandArgument command (ascii "ai")))).system := ⟨rfl, rfl, rfl⟩
    exact steady_trans hlog (runAi_steady _ _)
  · have hlog : Steady k.system (k.onSystem fun s =>
        (s.logText (ascii "terminal command: ")).logLine command).system := ⟨rfl, rfl, rfl⟩
    exact steady_trans hlog (setScreen_steady _ _)
  · exact executeLocal_steady k.system command

theorem terminalHandleEvent_steady (k : Kernel) (event : UiEvent) :
    Steady k.system (k.terminalHandleEvent event).system := by
  unfold Kernel.terminalHandleEvent
  split_ifs
  · show Steady k.system (k.system.terminalHandleChar event.character)
    unfold System.terminalHandleChar
    split_ifs
    · exact steady_refl k.system
    · exact ⟨rfl, rfl, putChar_fb _ _⟩
  · show Steady k.system k.system.terminalHandleBackspace
    unfold System.terminalHandleBackspace
    split_ifs
    · exact steady_refl k.system
    · exact ⟨rfl, rfl, backspace_fb _⟩
  · have hnewline : Quiet k.system (k.system.print (·.newline)) :=
      quiet_print k.system _ (newline_fb _)
    have hcommand := executeCommand_steady (k.onSystem (·.print (·.newline)))
      (cstr k.system.terminalInput)
    unfold Kernel.submitLine
    simp only
    generalize (k.onSystem (·.print (·.newline))).executeCommand (cstr k.system.terminalInput) =
      j at hcommand ⊢
    exact steady_trans (steady_trans (steady_quiet hnewline) hcommand) ⟨rfl, rfl, rfl⟩
  · exact steady_refl k.system

theorem globalShortcut_steady (k j : Kernel) (event : UiEvent)
    (h : k.globalShortcut event = some j) : Steady k.system j.system := by
  unfold Kernel.globalShortcut at h
  split_ifs at h
  · exact Option.some.inj h ▸ setScreen_steady k _
  · exact Option.some.inj h ▸ setScreen_steady k _
  · exact Option.some.inj h ▸ setScreen_steady k _
  · exact Option.some.inj h ▸ ⟨rfl, rfl, rfl⟩
  · exact Option.some.inj h ▸ setScreen_steady k _

theorem screenHandleEvent_steady (k : Kernel) (event : UiEvent) :
    Steady k.system (k.screenHandleEvent event).system := by
  unfold Kernel.screenHandleEvent
  cases k.system.current with
  | launcher => exact launcherHandleEvent_steady k event
  | terminal => exact terminalHandleEvent_steady k event
  | system => exact steady_refl k.system
  | memory => exact steady_refl k.system
  | aiStudio => exact studioHandleEvent_steady k event

theorem dispatchEventToCurrentScreen_steady (k : Kernel) (event : UiEvent) :
    Steady k.system (k.dispatchEventToCurrentScreen event).system := by
  unfold Kernel.dispatchEventToCurrentScreen
  split_ifs
  · exact back_steady k
  · exact steady_trans (renderCurrentScreen_steady k) (steady_quiet (quiet_helpOverlay _))
  · cases hshortcut : k.globalShortcut event with
    | none => exact screenHandleEvent_steady k event
    | some j => exact globalShortcut_steady k j event hshortcut
  · exact steady_refl k.system

theorem dispatchEvent_steady (k : Kernel) (event : UiEvent) :
    Steady k.system (k.dispatchEvent event).system := by
  unfold Kernel.dispatchEvent
  by_cases hsecret : k.session.isCapturingSecret = true
  · simp only [hsecret, if_true]
    exact dispatchEventToCurrentScreen_steady k event
  · simp only [hsecret, Bool.false_eq_true, if_false]
    exact steady_trans (steady_quiet (quiet_recentEvent k.system event))
      (dispatchEventToCurrentScreen_steady (k.onSystem (·.drawRecentEvent event)) event)

theorem pollBridge_steady (k : Kernel) (arrived : List UInt8) :
    Steady k.system (k.pollBridge arrived).system := by
  have hpoll : Steady k.system (k.system.poll arrived).2 := ⟨rfl, rfl, rfl⟩
  unfold Kernel.pollBridge
  rcases hresult : k.system.poll arrived with ⟨answered, s⟩
  rw [hresult] at hpoll
  cases answered with
  | false => exact hpoll
  | true =>
    simp only
    split_ifs
    · exact steady_trans hpoll (renderCurrentScreen_steady { k with system := s })
    · exact hpoll

/-- No input changes whether the router is ready or how large the screen is. -/
theorem step_steady (k : Kernel) (input : Input) : Steady k.system (k.step input).system := by
  unfold Kernel.step
  split_ifs
  · exact steady_refl k.system
  · cases input with
    | event event => exact dispatchEvent_steady k event
    | service arrived => exact steady_trans (pollBridge_steady k arrived) ⟨rfl, rfl, rfl⟩
    | receive arrived => exact ⟨rfl, rfl, rfl⟩

end Hnmos
