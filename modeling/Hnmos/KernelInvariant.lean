import Mathlib
import Hnmos.KernelActs
import Hnmos.BridgeSlot

/-!
# What every run of the kernel keeps

The services stay as they were started, and an act only happens where its
guard holds: editing in the mode it edits, a change of screen to another
screen, a local request on the terminal.
-/

set_option autoImplicit false

namespace Hnmos
open Hnmos.CString Hnmos.Task Hnmos.SerialPort Hnmos.SerialTransport Hnmos.AiBridge
open Hnmos.AiSession Hnmos.Workspace Hnmos.Events Hnmos.Transition Hnmos.Surface
open Hnmos.Widgets

structure Serviced (c : Core) : Prop where
  ready : c.bridge.ready = true
  active : c.bridge.activeProvider = some .serial
  localProvider : c.bridge.localProvider = some .stub
  files : c.files.ready = true
  transport : c.transport.ready = true

def bootCore (k : Kernel) : Core where
  session := k.session.init
  port := k.port
  transport := Transport.init
  bridge := Bridge.init
  files := Files.init
  prompt := CText.empty 160 input_room
  savedTaskId := 0
  capturingPrompt := false
  renders := k.system.display.fb.available && decide (48 < k.system.display.fb.width) &&
    decide (132 < k.system.display.fb.height)
  current := .launcher
  hooks := [.enter .launcher]
  halted := false

theorem launcherInit_quiet (s : System) : Quiet s s.launcherInit := by
  unfold System.launcherInit
  split_ifs <;> exact ⟨rfl, rfl⟩

theorem routerInit_core (k : Kernel) :
    k.routerInit.core =
      { k.core with
        session := k.session.init
        prompt := CText.empty 160 input_room
        savedTaskId := 0
        capturingPrompt := false
        renders := k.system.display.fb.available && decide (48 < k.system.display.fb.width) &&
          decide (132 < k.system.display.fb.height)
        current := .launcher
        hooks := [.enter .launcher] } := by
  have hinit := launcherInit_quiet k.system
  have hfb := hinit.fb
  have hcore := core_of_quiet hinit k.session k.port
  unfold Kernel.routerInit
  show (let j := (Kernel.mk k.system.launcherInit k.session k.port).studioInit
    let j := j.onSystem fun s => { s with current := .launcher, routerReady := true, hooks := [] }
    let j := (j.screenOnEnter .launcher).renderCurrentScreen
    j.onSystem (·.logLine (ascii "router: screen router ready.")) : Kernel).core = _
  have hk : (Kernel.mk k.system k.session k.port).core = k.core := rfl
  rw [← hk, ← hcore, ← hfb]
  generalize k.system.launcherInit = s
  simp only
  generalize hj : ((((Kernel.mk s k.session k.port).studioInit).onSystem
    fun s => { s with current := .launcher, routerReady := true, hooks := [] }).screenOnEnter
      .launcher) = j
  have hready : j.system.routerReady = true := by rw [← hj]; rfl
  have hcurrent : j.system.current = .launcher := by rw [← hj]; rfl
  have hlog : (j.renderCurrentScreen.onSystem
      (·.logLine (ascii "router: screen router ready."))).core = j.renderCurrentScreen.core := rfl
  rw [hlog, core_renderCurrentScreen j hready, hcurrent, ← hj]
  rfl

theorem boot_core (k : Kernel) : k.boot.core = bootCore k := by
  unfold Kernel.boot
  rw [routerInit_core]
  rfl

theorem boot_serviced (k : Kernel) : Serviced k.boot.core := by
  rw [boot_core]
  exact ⟨rfl, rfl, rfl, rfl, rfl⟩

/-- Where an act may happen. -/
def Guarded (c : Core) : Act → Prop
  | .apiKey | .generate => c.current = .aiStudio
  | .secretChar _ | .secretBackspace | .secretEnter => c.session.isCapturingSecret = true
  | .promptChar _ | .promptBackspace | .promptEnter =>
    c.session.isCapturingSecret = false ∧ c.capturingPrompt = true
  | .goto screen => screen ≠ c.current
  | .request taskType _ _ => taskType ≠ .hnlang ∧ c.current = .terminal
  | _ => True

theorem guarded_then_sync (c : Core) (act : Act) (h : Guarded c act) :
    Along Core.act Guarded c [act, .sync] := ⟨h, trivial, trivial⟩

theorem renderActs_guarded (c : Core) (screen : ScreenId) :
    Along Core.act Guarded c (renderActs screen) := by
  unfold renderActs
  split_ifs
  · exact ⟨trivial, trivial⟩
  · trivial

theorem setScreenActs_guarded (k : Kernel) (screenId : UInt32) :
    Along Core.act Guarded k.core (k.setScreenActs screenId) := by
  unfold Kernel.setScreenActs
  by_cases hready : k.system.routerReady = true
  · rw [if_pos hready]
    cases findScreen screenId with
    | none => trivial
    | some next =>
      simp only
      by_cases hsame : next = k.system.current
      · rw [if_pos hsame]
        exact renderActs_guarded _ next
      · rw [if_neg hsame]
        exact ⟨hsame, renderActs_guarded _ next⟩
  · rw [if_neg hready]
    trivial

theorem backActs_guarded (k : Kernel) : Along Core.act Guarded k.core k.backActs := by
  unfold Kernel.backActs
  split_ifs
  · trivial
  · exact setScreenActs_guarded k _

theorem pressAct_guarded (c : Core) (button : StudioButton) (h : c.current = .aiStudio) :
    Along Core.act Guarded c (pressAct button ++ [.sync]) := by
  cases button with
  | subscription => exact guarded_then_sync c _ trivial
  | apiKey => exact guarded_then_sync c _ h
  | generate => exact guarded_then_sync c _ h
  | review => exact ⟨trivial, trivial⟩
  | build => exact ⟨trivial, trivial⟩

theorem commandActs_guarded (c : Core) (ch : UInt8) (h : c.current = .aiStudio) :
    Along Core.act Guarded c (commandActs ch) := by
  unfold commandActs
  split_ifs
  · exact pressAct_guarded c .subscription h
  · exact pressAct_guarded c .apiKey h
  · exact pressAct_guarded c .generate h
  · exact pressAct_guarded c .review h
  · exact pressAct_guarded c .build h
  · exact guarded_then_sync c _ trivial
  · trivial

theorem studioActs_guarded (k : Kernel) (event : UiEvent) (h : k.core.current = .aiStudio) :
    Along Core.act Guarded k.core (k.studioActs event) := by
  unfold Kernel.studioActs
  by_cases hready : k.system.studio.ready = true
  · rw [if_pos hready]
    have hover : ∀ c x y, Along Core.act Guarded c (k.hoverActs x y) := by
      intro c x y
      unfold Kernel.hoverActs
      split_ifs
      · exact ⟨trivial, trivial⟩
      · trivial
    cases event.type with
    | none => trivial
    | keyDown =>
      unfold Kernel.studioKeyDownActs
      simp only
      split_ifs with h1 h2 h3 h4
      · exact guarded_then_sync _ _ h1.2
      · have hsecret : k.session.isCapturingSecret = false :=
          Bool.eq_false_iff.mpr fun hn => h1 ⟨h2.1, hn⟩
        exact guarded_then_sync _ _ ⟨hsecret, h2.2⟩
      · exact guarded_then_sync _ _ h3.2
      · have hsecret : k.session.isCapturingSecret = false :=
          Bool.eq_false_iff.mpr fun hn => h3 ⟨h4.1, hn⟩
        exact guarded_then_sync _ _ ⟨hsecret, h4.2⟩
      · trivial
    | keyChar =>
      unfold Kernel.studioKeyCharActs
      simp only
      split_ifs with h1 h2
      · exact guarded_then_sync _ _ h1
      · exact guarded_then_sync _ _ ⟨Bool.eq_false_iff.mpr h1, h2⟩
      · exact commandActs_guarded _ _ h
    | mouseMove => exact hover _ _ _
    | mouseButtonDown =>
      simp only
      split_ifs
      · rw [along_append]
        exact ⟨hover _ _ _, trivial, trivial⟩
      · trivial
    | mouseButtonUp =>
      simp only
      split_ifs
      · unfold Kernel.mouseUpActs
        cases k.releasedButton event.x event.y with
        | none => exact ⟨trivial, trivial⟩
        | some button => exact pressAct_guarded _ button h
      · trivial
  · rw [if_neg hready]
    trivial

theorem itemActs_guarded (k : Kernel) (item : LauncherItem) :
    Along Core.act Guarded k.core (itemActs k item) := by
  cases item with
  | terminal => exact setScreenActs_guarded k ScreenId.terminal.code
  | system => exact setScreenActs_guarded k ScreenId.system.code
  | memory => exact setScreenActs_guarded k ScreenId.memory.code
  | ai => exact setScreenActs_guarded k ScreenId.aiStudio.code
  | shutdown => exact ⟨trivial, trivial⟩

theorem launcherActs_guarded (k : Kernel) (event : UiEvent) :
    Along Core.act Guarded k.core (k.launcherActs event) := by
  unfold Kernel.launcherActs
  by_cases hready : k.system.launcher.ready = true
  · rw [if_pos hready]
    cases event.type with
    | none => trivial
    | keyDown => trivial
    | keyChar =>
      unfold Kernel.launcherShortcutActs
      simp only
      split_ifs
      · exact itemActs_guarded k .terminal
      · exact itemActs_guarded k .system
      · exact itemActs_guarded k .memory
      · exact itemActs_guarded k .shutdown
      · exact itemActs_guarded k .ai
      · trivial
    | mouseMove => trivial
    | mouseButtonDown => trivial
    | mouseButtonUp =>
      simp only
      split_ifs
      · cases k.releasedItem event.x event.y with
        | none => trivial
        | some item => exact itemActs_guarded k item
      · trivial
  · rw [if_neg hready]
    trivial

theorem aiActs_guarded (c : Core) (argument : List UInt8) (h : c.current = .terminal) :
    Along Core.act Guarded c (aiActs argument) := by
  have hrequest : ∀ taskType input contextFlags, taskType ≠ TaskType.hnlang →
      Along Core.act Guarded c [.request taskType input contextFlags] :=
    fun taskType input contextFlags htype => ⟨⟨htype, h⟩, trivial⟩
  unfold aiActs
  split_ifs
  · exact hrequest _ _ _ (by decide)
  · exact hrequest _ _ _ (by decide)
  · exact hrequest _ _ _ (by decide)
  · exact hrequest _ _ _ (by decide)
  · exact hrequest _ _ _ (by decide)
  · trivial

theorem terminalCommand_guarded (k : Kernel) (command : List UInt8)
    (h : k.core.current = .terminal) : Along Core.act Guarded k.core (k.commandActs command) := by
  unfold Kernel.commandActs localActs
  split_ifs
  · trivial
  · trivial
  · exact aiActs_guarded _ _ h
  · exact setScreenActs_guarded k _
  · exact ⟨trivial, trivial⟩
  · trivial

theorem terminalActs_guarded (k : Kernel) (event : UiEvent) (h : k.core.current = .terminal) :
    Along Core.act Guarded k.core (k.terminalActs event) := by
  unfold Kernel.terminalActs
  split_ifs
  · trivial
  · trivial
  · exact terminalCommand_guarded k _ h
  · trivial

theorem eventActs_guarded (k : Kernel) (event : UiEvent) :
    Along Core.act Guarded k.core (k.eventActs event) := by
  unfold Kernel.eventActs
  split_ifs
  · exact backActs_guarded k
  · exact renderActs_guarded _ _
  · cases hshortcut : k.shortcutActs event with
    | none =>
      show Along Core.act Guarded k.core (k.screenActs event)
      unfold Kernel.screenActs
      cases hcurrent : k.system.current with
      | launcher => exact launcherActs_guarded k event
      | terminal => exact terminalActs_guarded k event hcurrent
      | system => trivial
      | memory => trivial
      | aiStudio => exact studioActs_guarded k event hcurrent
    | some acts =>
      unfold Kernel.shortcutActs at hshortcut
      split_ifs at hshortcut <;> cases hshortcut
      · exact setScreenActs_guarded k _
      · exact setScreenActs_guarded k _
      · exact setScreenActs_guarded k _
      · exact ⟨trivial, trivial⟩
      · exact setScreenActs_guarded k _
  · trivial

theorem acts_guarded (k : Kernel) (input : Input) :
    Along Core.act Guarded k.core (k.acts input) := by
  unfold Kernel.acts
  split_ifs
  · trivial
  · cases input with
    | event event => exact eventActs_guarded k event
    | service arrived =>
      refine ⟨trivial, ?_⟩
      split_ifs
      · exact ⟨trivial, trivial⟩
      · trivial
    | receive arrived => exact ⟨trivial, trivial⟩

/-- An invariant of the guarded acts is an invariant of the kernel. -/
theorem step_invariant (I : Core → Prop)
    (hact : ∀ c act, I c → Guarded c act → I (c.act act)) (k : Kernel) (input : Input)
    (h : I k.core) : I (k.step input).core := by
  rw [step_core]
  exact run_invariant Core.act Guarded I hact _ _ h (acts_guarded k input)

theorem cancelCapture_serviced (c : Core) (h : Serviced c) : Serviced c.cancelCapture := by
  unfold Core.cancelCapture
  split_ifs
  · exact ⟨h.ready, h.active, h.localProvider, h.files, h.transport⟩
  · exact h

theorem write_ready (f : Files) (path data : List UInt8) (h : f.ready = true) :
    (f.writeHnlangDraft path data).2.ready = true := by
  unfold Files.writeHnlangDraft Files.writeWorkspaceHnlang
  split_ifs <;> exact h

theorem submit_serviced (c : Core) (taskType : TaskType) (input : List UInt8)
    (contextFlags : UInt32) (h : Serviced c) :
    Serviced (c.submit taskType input contextFlags).2 := by
  unfold Core.submit
  rcases hsubmit : c.bridge.submit c.transport c.port taskType (some input) contextFlags
    with ⟨accepted, bridge, port⟩
  rcases submit_slot c.bridge c.transport c.port taskType (some input) contextFlags with
    ⟨-, hrefused⟩ | ⟨provider, task, -, -, hbridge⟩
  · rw [hsubmit] at hrefused
    obtain ⟨-, hrest⟩ := Prod.mk.inj hrefused
    obtain ⟨hsame, -⟩ := Prod.mk.inj hrest
    simp only [hsame]
    exact ⟨h.ready, h.active, h.localProvider, h.files, h.transport⟩
  · rw [hsubmit] at hbridge
    simp only at hbridge ⊢
    rw [hbridge]
    exact ⟨h.ready, h.active, h.localProvider, h.files, h.transport⟩

theorem poll_serviced (c : Core) (arrived : List UInt8) (h : Serviced c) :
    Serviced (c.poll arrived) := by
  unfold Core.poll
  have hready := poll_ready c.bridge c.transport arrived
  have hslot := poll_slot c.bridge c.transport arrived
  rcases hpoll : c.bridge.poll c.transport arrived with ⟨answered, bridge, transport⟩
  rw [hpoll] at hready hslot
  simp only at hready hslot ⊢
  rcases hslot with ⟨-, hsame⟩ | ⟨-, -, output, status, -, hsame⟩
  · rw [hsame]
    exact ⟨h.ready, h.active, h.localProvider, h.files, hready.trans h.transport⟩
  · rw [hsame]
    exact ⟨h.ready, h.active, h.localProvider, h.files, hready.trans h.transport⟩

theorem act_serviced (c : Core) (act : Act) (h : Serviced c) : Serviced (c.act act) := by
  cases act with
  | generate =>
    unfold Core.act
    have hcancel := cancelCapture_serviced c h
    simp only
    split_ifs
    · exact h
    · exact ⟨hcancel.ready, hcancel.active, hcancel.localProvider, hcancel.files,
        hcancel.transport⟩
  | promptEnter =>
    have hsubmit := submit_serviced c .hnlang c.prompt.chars 16 h
    unfold Core.act
    simp only
    split_ifs
    · exact h
    · rcases hs : c.submit .hnlang c.prompt.chars 16 with ⟨accepted, d⟩
      rw [hs] at hsubmit
      cases accepted with
      | true => exact ⟨hsubmit.ready, hsubmit.active, hsubmit.localProvider, hsubmit.files,
          hsubmit.transport⟩
      | false => exact hsubmit
  | cancelTask =>
    unfold Core.act
    rcases cancel_slot c.bridge with ⟨-, hcancel⟩ | ⟨-, hcancel⟩
    · simp only [hcancel]
      exact ⟨h.ready, h.active, h.localProvider, h.files, h.transport⟩
    · simp only [hcancel]
      exact ⟨h.ready, h.active, h.localProvider, h.files, h.transport⟩
  | sync =>
    unfold Core.act Core.sync
    simp only
    split_ifs
    · exact ⟨h.ready, h.active, h.localProvider, write_ready _ _ _ h.files, h.transport⟩
    · exact h
  | goto screen =>
    have hcancel := cancelCapture_serviced c h
    unfold Core.act Core.leave
    simp only
    split_ifs
    · exact ⟨hcancel.ready, hcancel.active, hcancel.localProvider, hcancel.files,
        hcancel.transport⟩
    · exact ⟨h.ready, h.active, h.localProvider, h.files, h.transport⟩
  | request taskType input contextFlags =>
    have hsubmit := submit_serviced c taskType input contextFlags h
    unfold Core.act
    simp only
    rcases hs : c.submit taskType input contextFlags with ⟨accepted, d⟩
    rw [hs] at hsubmit
    cases accepted with
    | true => exact poll_serviced d [] hsubmit
    | false => exact hsubmit
  | poll arrived => exact poll_serviced c arrived h
  | subscription | apiKey | secretChar | secretBackspace | secretEnter | promptChar
  | promptBackspace | receive | halt =>
    exact ⟨h.ready, h.active, h.localProvider, h.files, h.transport⟩

end Hnmos
