import Mathlib
import Hnmos.KernelCore

/-!
# Every input is a list of acts

The functions that only draw, print or log are quiet: they leave the core as
it is. The others change it by the acts listed for them; the proofs follow
the handlers one by one up to the kernel's step.
-/

set_option autoImplicit false

namespace Hnmos
open Hnmos.CString Hnmos.Task Hnmos.SerialPort Hnmos.SerialTransport Hnmos.AiBridge
open Hnmos.AiSession Hnmos.Workspace Hnmos.Events Hnmos.Transition Hnmos.Surface
open Hnmos.Widgets

/-- What the core and the router keep of the system, apart from the size of
the framebuffer. -/
def System.kept (s : System) :=
  (s.transport, s.bridge, s.files, s.studio.prompt, s.studio.savedTaskId,
    s.studio.capturingPrompt, s.studio.ready, s.current, s.routerReady, s.hooks, s.halted)

structure Quiet (s t : System) : Prop where
  fb : t.display.fb = s.display.fb
  rest : t.kept = s.kept

theorem quiet_refl (s : System) : Quiet s s := ⟨rfl, rfl⟩

theorem quiet_trans {s t u : System} (h : Quiet s t) (h' : Quiet t u) : Quiet s u :=
  ⟨h'.fb.trans h.fb, h'.rest.trans h.rest⟩

theorem core_of_quiet {s t : System} (h : Quiet s t) (session : Session) (port : Uart) :
    (Kernel.mk t session port).core = (Kernel.mk s session port).core := by
  have hrest := h.rest
  simp only [System.kept, Prod.mk.injEq] at hrest
  obtain ⟨htransport, hbridge, hfiles, hprompt, hsaved, hcapturing, hready, hcurrent, -, hhooks,
    hhalted⟩ := hrest
  have hrenders : t.studioReady = s.studioReady := by
    rw [System.studioReady, System.studioReady, hready, h.fb]
  simp only [Kernel.core, htransport, hbridge, hfiles, hprompt, hsaved, hcapturing, hcurrent,
    hhooks, hhalted, hrenders]

theorem quiet_core (k : Kernel) (change : System → System)
    (h : Quiet k.system (change k.system)) : (k.onSystem change).core = k.core :=
  core_of_quiet h k.session k.port

theorem quiet_ready {s t : System} (h : Quiet s t) : t.routerReady = s.routerReady :=
  congrArg (fun kept => kept.2.2.2.2.2.2.2.2.1) h.rest

theorem quiet_current {s t : System} (h : Quiet s t) : t.current = s.current :=
  congrArg (fun kept => kept.2.2.2.2.2.2.2.1) h.rest

section
variable (s : System)

theorem quiet_print (change : Screen → Screen) (h : (change s.display).fb = s.display.fb) :
    Quiet s (s.print change) := ⟨h, rfl⟩

theorem quiet_writeLine (text : List UInt8) : Quiet s (s.writeLine text) :=
  quiet_print s _ (writeLine_fb s.display text)

theorem quiet_logLine (text : List UInt8) : Quiet s (s.logLine text) := ⟨rfl, rfl⟩

theorem quiet_activity (activity : List UInt8) : Quiet s (s.setActivity activity) := ⟨rfl, rfl⟩

theorem quiet_draw (ops : List DrawOp) : Quiet s (s.draw ops) := ⟨rfl, rfl⟩

theorem quiet_prompt : Quiet s s.terminalPrompt := quiet_print s _ (by simp)

theorem quiet_renderLauncher : Quiet s s.renderLauncher := by
  unfold System.renderLauncher
  split_ifs
  · exact ⟨rfl, rfl⟩
  · exact quiet_refl s

theorem quiet_renderMemory : Quiet s s.renderMemory := by
  unfold System.renderMemory
  split_ifs
  · exact quiet_draw s _
  · exact quiet_refl s

theorem quiet_renderSystem : Quiet s s.renderSystem := by
  unfold System.renderSystem
  split_ifs
  · exact ⟨rfl, rfl⟩
  · exact quiet_refl s

theorem quiet_topBar : Quiet s s.renderTopBar := by
  unfold System.renderTopBar
  split_ifs
  · exact quiet_draw s _
  · exact quiet_refl s

theorem quiet_helpOverlay : Quiet s s.renderHelpOverlay := by
  unfold System.renderHelpOverlay
  split_ifs
  · exact quiet_draw s _
  · exact quiet_refl s

theorem quiet_recentEvent (event : UiEvent) : Quiet s (s.drawRecentEvent event) := by
  unfold System.drawRecentEvent
  split_ifs
  · exact quiet_draw s _
  · exact quiet_refl s

theorem quiet_showScreen : Quiet s s.terminalShowScreen := by
  unfold System.terminalShowScreen
  refine quiet_trans ?_ (quiet_prompt _)
  refine quiet_trans ?_ (quiet_print _ _ (newline_fb _))
  refine quiet_trans ?_ (quiet_writeLine _ _)
  refine quiet_trans ?_ (quiet_writeLine _ _)
  refine quiet_trans ?_ (quiet_writeLine _ _)
  refine quiet_trans ?_ (quiet_writeLine _ _)
  refine quiet_trans ?_ (quiet_print _ _ (by simp))
  exact ⟨rfl, rfl⟩

theorem nodeLines_fb (nodes : List Node) (d : Screen) :
    (nodes.foldl printNodeLine d).fb = d.fb := by
  induction nodes generalizing d with
  | nil => rfl
  | cons node nodes ih =>
    rw [List.foldl_cons, ih]
    simp [printNodeLine]

theorem taskLines_fb (tasks : List TaskScheduler.Task) (d : Screen) :
    (tasks.foldl printTaskLine d).fb = d.fb := by
  induction tasks generalizing d with
  | nil => rfl
  | cons task tasks ih =>
    rw [List.foldl_cons, ih]
    simp [printTaskLine]

theorem program_fb (d : Screen) (p : AiAssembly.Program) :
    (printAiAssemblyProgram d p).fb = d.fb := by
  unfold printAiAssemblyProgram
  simp only
  generalize hstart : (d.writeLine p.machine.summary).writeLine (ascii "ai asm plan:") = start
  have hfb : start.fb = d.fb := by simp [← hstart]
  rw [← hfb]
  clear hfb hstart
  induction p.instructions.zipIdx generalizing start with
  | nil => rfl
  | cons instruction instructions ih =>
    rw [List.foldl_cons, ih]
    simp

theorem quiet_terminalLs (argument : List UInt8) : Quiet s (s.terminalLs argument) := by
  unfold System.terminalLs
  refine quiet_trans (quiet_logLine s (ascii "terminal command: ls")) ?_
  generalize s.logLine (ascii "terminal command: ls") = t
  simp only
  cases t.files.list (copyPath argument) with
  | none => exact quiet_trans (quiet_print t _ (by simp)) (quiet_prompt _)
  | some listing =>
    refine quiet_trans ?_ (quiet_prompt _)
    split_ifs <;> exact ⟨by simp [System.print, System.writeLine, nodeLines_fb], rfl⟩

theorem quiet_terminalCat (argument : List UInt8) : Quiet s (s.terminalCat argument) := by
  unfold System.terminalCat
  refine quiet_trans (quiet_logLine s (ascii "terminal command: cat")) ?_
  generalize s.logLine (ascii "terminal command: cat") = t
  simp only
  split_ifs
  · exact quiet_trans (quiet_writeLine t _) (quiet_prompt _)
  · cases t.files.read (copyPath argument) with
    | none => exact quiet_trans (quiet_print t _ (by simp)) (quiet_prompt _)
    | some node =>
      simp only
      split_ifs
      · exact quiet_trans (quiet_print t _ (by simp)) (quiet_prompt _)
      · exact quiet_trans (quiet_trans (quiet_print t _ (write_fb _ _))
          (quiet_print _ _ (newline_fb _))) (quiet_prompt _)
      · exact quiet_trans (quiet_print t _ (write_fb _ _)) (quiet_prompt _)
      · exact quiet_trans (quiet_print t _ (newline_fb _)) (quiet_prompt _)

theorem quiet_terminalTasks : Quiet s s.terminalTasks := by
  unfold System.terminalTasks
  refine quiet_trans ?_ (quiet_prompt _)
  refine quiet_trans ?_ (quiet_print _ _ (by simp [taskLines_fb]))
  exact quiet_trans (quiet_logLine s _) (quiet_writeLine _ _)

theorem quiet_terminalSync : Quiet s s.terminalSync := by
  unfold System.terminalSync
  refine quiet_trans ?_ (quiet_prompt _)
  refine quiet_trans ?_ (quiet_print _ _ (by simp [printSyncSnapshot]))
  exact ⟨rfl, rfl⟩

theorem quiet_showSyncSummary : Quiet s s.showSyncSummary :=
  ⟨by simp [System.showSyncSummary, System.syncSummary, System.writeLine, System.print], rfl⟩

theorem quiet_showProvider : Quiet s s.showProvider := quiet_print s _ (by simp)

theorem quiet_showProgram : Quiet s s.showProgram := quiet_print s _ (program_fb _ _)

theorem quiet_showResponse (response : List UInt8) : Quiet s (s.showResponse response) :=
  quiet_trans (quiet_writeLine s response) (quiet_logLine _ response)

theorem quiet_drawStudio (face : Face) : Quiet s (s.drawStudio face) := by
  unfold System.drawStudio
  simp only
  split_ifs <;> exact ⟨rfl, rfl⟩

theorem quiet_launcherHover (x y : UInt32) : Quiet s (s.launcherUpdateHover x y) := by
  unfold System.launcherUpdateHover
  simp only
  split_ifs <;> exact ⟨rfl, rfl⟩

theorem quiet_launcherMouseDown (x y : UInt32) : Quiet s (s.launcherMouseDown x y) := by
  unfold System.launcherMouseDown
  refine quiet_trans (t := s.setLauncherPressed none) ⟨rfl, rfl⟩ ?_
  refine quiet_trans (quiet_launcherHover (s.setLauncherPressed none) x y) ?_
  generalize (s.setLauncherPressed none).launcherUpdateHover x y = t
  simp only
  split_ifs <;> exact ⟨rfl, rfl⟩

end

/-- A result that waits to be written. -/
def System.Waiting (s : System) : Prop :=
  s.bridge.lastTask.taskType = .hnlang ∧ s.bridge.lastTask.taskId ≠ 0 ∧
    s.bridge.lastTask.status = .done ∧ s.bridge.lastTask.taskId ≠ s.studio.savedTaskId

theorem waiting_iff (k : Kernel) : k.core.unsaved = true ↔ k.system.Waiting := by
  simp [Core.unsaved, Kernel.core, System.Waiting, and_assoc]

theorem syncProviderResult_saves (s : System) (files : Files) (h : s.Waiting)
    (hw : s.files.writeHnlangDraft mainPath s.bridge.lastTask.output.chars = (true, files)) :
    s.syncProviderResult =
      { s with
        files := files
        studio := { s.studio with
          savedTaskId := s.bridge.lastTask.taskId
          activity := ascii "Provider draft saved to /workspace/main.hn" } } := by
  obtain ⟨htype, hid, hdone, hsaved⟩ := h
  unfold System.syncProviderResult
  simp only [htype, hid, hdone, hsaved, ne_eq, not_true_eq_false, not_false_eq_true, false_or,
    if_false, and_self, if_true, hw, reduceCtorEq]

theorem write_refused (f files : Files) (path data : List UInt8)
    (h : f.writeHnlangDraft path data = (false, files)) : files = f := by
  unfold Files.writeHnlangDraft Files.writeWorkspaceHnlang at h
  split_ifs at h
  · exact (Prod.mk.inj h).2.symm
  · exact (Prod.mk.inj h).2.symm
  · exact absurd (Prod.mk.inj h).1 (by decide)

theorem syncProviderResult_quiet (s : System)
    (h : ¬ (s.Waiting ∧
      (s.files.writeHnlangDraft mainPath s.bridge.lastTask.output.chars).1 = true)) :
    Quiet s s.syncProviderResult := by
  unfold System.syncProviderResult
  simp only
  split_ifs with hskip hrun herror hcancel hdone
  · exact quiet_refl s
  · exact quiet_activity s _
  · exact quiet_activity s _
  · exact quiet_activity s _
  · obtain ⟨htype, hid⟩ := not_or.mp hskip
    have hwaiting : s.Waiting := ⟨not_not.mp htype, hid, hdone.1, hdone.2⟩
    rcases hwrite : s.files.writeHnlangDraft mainPath s.bridge.lastTask.output.chars
      with ⟨written, files⟩
    cases written with
    | true => exact absurd ⟨hwaiting, by rw [hwrite]⟩ h
    | false =>
      rw [write_refused _ _ _ _ hwrite]
      exact quiet_activity s _
  · exact quiet_refl s

theorem core_syncProviderResult (k : Kernel) (h : k.system.studioReady = true) :
    (k.onSystem System.syncProviderResult).core = k.core.sync := by
  have hrenders : k.core.renders = true := h
  unfold Core.sync
  by_cases hsave : k.system.Waiting ∧
      (k.system.files.writeHnlangDraft mainPath k.system.bridge.lastTask.output.chars).1 = true
  · rcases hwrite : k.system.files.writeHnlangDraft mainPath k.system.bridge.lastTask.output.chars
      with ⟨written, files⟩
    have hwritten : written = true := by simpa [hwrite] using hsave.2
    rw [if_pos ⟨hrenders, (waiting_iff k).mpr hsave.1, hsave.2⟩, Kernel.onSystem,
      syncProviderResult_saves k.system files hsave.1 (by rw [hwrite, hwritten])]
    have hfiles : (k.core.files.writeHnlangDraft mainPath k.core.bridge.lastTask.output.chars).2 =
        files := congrArg Prod.snd hwrite
    rw [hfiles]
    rfl
  · rw [if_neg (fun hn => hsave ⟨(waiting_iff k).mp hn.2.1, hn.2.2⟩)]
    exact quiet_core k _ (syncProviderResult_quiet k.system hsave)

theorem core_renderStudio (k : Kernel) : k.renderStudio.core = k.core.act .sync := by
  by_cases h : k.system.studioReady = true
  · have hrender : k.system.renderStudio k.face =
        k.system.syncProviderResult.drawStudio k.face := if_pos h
    show (Kernel.mk (k.system.renderStudio k.face) k.session k.port).core = k.core.act .sync
    rw [hrender]
    exact (core_of_quiet (quiet_drawStudio k.system.syncProviderResult k.face) _ _).trans
      (core_syncProviderResult k h)
  · have hrender : k.system.renderStudio k.face = k.system := if_neg h
    have hrenders : ¬ (k.core.renders = true) := h
    show (Kernel.mk (k.system.renderStudio k.face) k.session k.port).core = k.core.act .sync
    rw [hrender]
    simp [Core.act, Core.sync, hrenders]

theorem core_screenRender (k : Kernel) (screen : ScreenId) :
    (k.screenRender screen).core = run Core.act k.core (renderActs screen) := by
  cases screen with
  | launcher => exact quiet_core k _ (quiet_renderLauncher k.system)
  | terminal => exact quiet_core k _ (quiet_showScreen k.system)
  | system => exact quiet_core k _ (quiet_renderSystem k.system)
  | memory => exact quiet_core k _ (quiet_renderMemory k.system)
  | aiStudio => exact core_renderStudio k

theorem core_renderCurrentScreen (k : Kernel) (h : k.system.routerReady = true) :
    k.renderCurrentScreen.core = run Core.act k.core (renderActs k.system.current) := by
  unfold Kernel.renderCurrentScreen
  rw [if_pos h]
  by_cases hbar : k.system.current ≠ .launcher ∧ k.system.current ≠ .terminal
  · simp only [if_pos hbar]
    have hcurrent : (k.onSystem System.renderTopBar).system.current = k.system.current :=
      congrArg Core.current (quiet_core k _ (quiet_topBar k.system))
    rw [core_screenRender, quiet_core k _ (quiet_topBar k.system), hcurrent]
  · simp only [if_neg hbar]
    exact core_screenRender k _

theorem core_cancelCapture (k : Kernel) : k.cancelCapture.core = k.core.cancelCapture := by
  unfold Kernel.cancelCapture Core.cancelCapture
  have hsession : k.core.session = k.session := rfl
  rw [hsession]
  split_ifs <;> rfl

theorem core_screenOnExit (k : Kernel) :
    (k.screenOnExit k.system.current).core = k.core.leave.exitHook k.system.current := by
  show _ = Core.exitHook (if k.system.current = .aiStudio then
    { k.core.cancelCapture with capturingPrompt := false } else k.core) k.system.current
  cases k.system.current with
  | launcher => rfl
  | terminal => rfl
  | system => rfl
  | memory => rfl
  | aiStudio =>
    rw [if_pos rfl, ← core_cancelCapture k]
    rfl

theorem screenOnExit_ready (k : Kernel) (screen : ScreenId) :
    (k.screenOnExit screen).system.routerReady = k.system.routerReady := by
  cases screen with
  | launcher => rfl
  | terminal => rfl
  | system => rfl
  | memory => rfl
  | aiStudio =>
    unfold Kernel.screenOnExit Kernel.studioOnExit Kernel.cancelCapture
    simp only
    split_ifs <;> rfl

theorem core_screenOnEnter (k : Kernel) (screen : ScreenId) :
    ((k.onSystem (·.setCurrent screen)).screenOnEnter screen).core = k.core.enter screen := by
  cases screen <;> rfl

theorem core_changeScreen (k : Kernel) (next : ScreenId) (h : k.system.routerReady = true) :
    (k.changeScreen next).core = run Core.act k.core (changeActs next) := by
  have hexit := core_screenOnExit k
  have hready : (k.screenOnExit k.system.current).system.routerReady = true := by
    rw [← h]
    exact screenOnExit_ready k _
  unfold Kernel.changeScreen changeActs
  rw [run_cons]
  generalize k.screenOnExit k.system.current = j at hexit hready ⊢
  have henter := core_screenOnEnter j next
  have hready' :
      ((j.onSystem (·.setCurrent next)).screenOnEnter next).system.routerReady = true := by
    cases next <;> exact hready
  have hcurrent : ((j.onSystem (·.setCurrent next)).screenOnEnter next).system.current = next := by
    cases next <;> rfl
  rw [core_renderCurrentScreen _ hready', henter, hcurrent, hexit]
  rfl

theorem core_setScreen (k : Kernel) (screenId : UInt32) :
    (k.setScreen screenId).core = run Core.act k.core (k.setScreenActs screenId) := by
  unfold Kernel.setScreen Kernel.setScreenActs
  by_cases h : k.system.routerReady = true
  · rw [if_pos h, if_pos h]
    cases findScreen screenId with
    | none => exact quiet_core k _ (quiet_logLine k.system _)
    | some next =>
      simp only
      by_cases hsame : next = k.system.current
      · rw [if_pos hsame, if_pos hsame, core_renderCurrentScreen k h, hsame]
      · rw [if_neg hsame, if_neg hsame]
        exact core_changeScreen k next h
  · rw [if_neg h, if_neg h]
    rfl

theorem core_back (k : Kernel) (h : k.system.routerReady = true) :
    k.back.core = run Core.act k.core k.backActs := by
  unfold Kernel.back Kernel.backActs
  by_cases hlauncher : k.system.current = .launcher
  · rw [if_pos hlauncher, if_pos hlauncher, core_renderCurrentScreen k h, hlauncher]
    rfl
  · rw [if_neg hlauncher, if_neg hlauncher]
    exact core_setScreen k _

theorem core_then_render (k j : Kernel) (acts : List Act)
    (h : j.core = run Core.act k.core acts) :
    j.renderStudio.core = run Core.act k.core (acts ++ [.sync]) := by
  rw [run_concat, core_renderStudio, h]

theorem core_submit (k : Kernel) (taskType : TaskType) (input : List UInt8)
    (contextFlags : UInt32) :
    (k.submit taskType (some input) contextFlags).1 =
        (k.core.submit taskType input contextFlags).1 ∧
      (k.submit taskType (some input) contextFlags).2.core =
        (k.core.submit taskType input contextFlags).2 := by
  cases hroute : k.system.bridge.route taskType with
  | none =>
    have hkernel : k.submit taskType (some input) contextFlags = (false, k) := by
      simp only [Kernel.submit, hroute]
    have hbridge : k.system.bridge.submit k.system.transport k.port taskType (some input)
        contextFlags = (false, k.system.bridge, k.port) := by
      simp only [Bridge.submit, hroute]
    have hsame : k.core.bridge.submit k.core.transport k.core.port taskType (some input)
        contextFlags = (false, k.system.bridge, k.port) := hbridge
    have hcore : k.core.submit taskType input contextFlags = (false, k.core) := by
      rw [Core.submit, hsame]
      rfl
    rw [hkernel, hcore]
    exact ⟨rfl, rfl⟩
  | some provider =>
    rcases hbridge : k.system.bridge.submit k.system.transport k.port taskType (some input)
      contextFlags with ⟨accepted, bridge, port⟩
    have hkernel : k.submit taskType (some input) contextFlags = (accepted, { k with
        system := { k.system.recordSubmission (k.system.bridge.prepared taskType (some input)
          contextFlags) with bridge := bridge }
        port := port }) := by
      simp only [Kernel.submit, hroute, hbridge]
    have hsame : k.core.bridge.submit k.core.transport k.core.port taskType (some input)
        contextFlags = (accepted, bridge, port) := hbridge
    have hcore : k.core.submit taskType input contextFlags =
        (accepted, { k.core with bridge := bridge, port := port }) := by
      rw [Core.submit, hsame]
    rw [hkernel, hcore]
    exact ⟨rfl, rfl⟩

theorem core_submitPrompt (k : Kernel) : k.submitPrompt.core = k.core.act .promptEnter := by
  unfold Kernel.submitPrompt Core.act
  have hprompt : k.core.prompt = k.system.studio.prompt := rfl
  rw [hprompt]
  by_cases hempty : k.system.studio.prompt.chars = []
  · rw [if_pos hempty, if_pos hempty]
    exact quiet_core k _ (quiet_activity k.system _)
  · rw [if_neg hempty, if_neg hempty, if_neg (by simp [draft_allowed])]
    obtain ⟨haccepted, hcore⟩ := core_submit k .hnlang k.system.studio.prompt.chars 16
    rcases hsubmit : k.submit .hnlang (some k.system.studio.prompt.chars) 16 with ⟨accepted, j⟩
    rcases hcsubmit : k.core.submit .hnlang k.system.studio.prompt.chars 16 with ⟨accepted', c⟩
    rw [hsubmit, hcsubmit] at haccepted hcore
    simp only at haccepted hcore
    rw [← haccepted, ← hcore]
    cases accepted with
    | true => rfl
    | false => exact quiet_core j _ (quiet_activity j.system _)

theorem core_press (k : Kernel) (button : StudioButton) :
    (k.press button).core = run Core.act k.core (pressAct button) := by
  cases button with
  | subscription => rfl
  | apiKey => rfl
  | generate =>
    show k.generate.core = if k.system.bridge.lastTask.status = .running then k.core
      else { k.core.cancelCapture with prompt := CText.empty 160 input_room, capturingPrompt := true }
    rw [← core_cancelCapture k, Kernel.generate]
    split_ifs
    · exact quiet_core k _ (quiet_activity k.system _)
    · rfl
  | review => exact quiet_core k _ (quiet_activity k.system _)
  | build => exact quiet_core k _ (quiet_activity k.system _)

theorem core_activate (k : Kernel) (button : StudioButton) :
    (k.activate button).core = run Core.act k.core (pressAct button ++ [.sync]) :=
  core_then_render k _ _ (core_press k button)

theorem core_studioKeyDown (k : Kernel) (keyCode : UInt32) :
    (k.studioKeyDown keyCode).core = run Core.act k.core (k.studioKeyDownActs keyCode) := by
  unfold Kernel.studioKeyDown Kernel.studioKeyDownActs
  split_ifs
  · exact core_then_render k _ [.secretBackspace] rfl
  · exact core_then_render k _ [.promptBackspace] rfl
  · exact core_then_render k _ [.secretEnter] rfl
  · exact core_then_render k _ [.promptEnter] (core_submitPrompt k)
  · rfl

theorem core_studioCancel (k : Kernel) :
    k.studioCancel.core = run Core.act k.core [.cancelTask, .sync] := by
  unfold Kernel.studioCancel System.cancelTask
  have hact : run Core.act k.core [.cancelTask] =
      { k.core with bridge := k.system.bridge.cancel.2 } := rfl
  rcases hcancel : k.system.bridge.cancel with ⟨cancelled, bridge⟩
  cases cancelled with
  | true =>
    refine core_then_render k _ [.cancelTask] ?_
    rw [hact, hcancel]
    rfl
  | false =>
    refine core_then_render k _ [.cancelTask] ?_
    rw [hact, hcancel]
    rfl

theorem core_studioCommand (k : Kernel) (c : UInt8) :
    (k.studioCommand c).core = run Core.act k.core (commandActs c) := by
  unfold Kernel.studioCommand commandActs
  split_ifs
  · exact core_activate k .subscription
  · exact core_activate k .apiKey
  · exact core_activate k .generate
  · exact core_activate k .review
  · exact core_activate k .build
  · exact core_studioCancel k
  · rfl

theorem core_studioKeyChar (k : Kernel) (c : UInt8) :
    (k.studioKeyChar c).core = run Core.act k.core (k.studioKeyCharActs c) := by
  unfold Kernel.studioKeyChar Kernel.studioKeyCharActs
  split_ifs
  · exact core_then_render k _ [.secretChar c] rfl
  · exact core_then_render k _ [.promptChar c] rfl
  · exact core_studioCommand k c

theorem core_hover (k : Kernel) (x y : UInt32) :
    (k.studioUpdateHover x y).core = run Core.act k.core (k.hoverActs x y) := by
  unfold Kernel.studioUpdateHover Kernel.hoverActs
  simp only
  split_ifs
  · exact core_then_render k _ [] rfl
  · rfl

theorem core_studioMouseDown (k : Kernel) (x y : UInt32) :
    (k.studioMouseDown x y).core = run Core.act k.core (k.hoverActs x y ++ [.sync]) := by
  have hhover := core_hover (k.onSystem (·.setPressed none)) x y
  refine core_then_render k _ _ ?_
  generalize (k.onSystem (·.setPressed none)).studioUpdateHover x y = j at hhover
  exact hhover

theorem core_studioMouseUp (k : Kernel) (x y : UInt32) :
    (k.studioMouseUp x y).core = run Core.act k.core (k.mouseUpActs x y) := by
  have hrender := core_renderStudio (k.onSystem fun s => (s.setPressed none).releaseButtons)
  have hcore : (k.onSystem fun s => (s.setPressed none).releaseButtons).core = k.core := rfl
  rw [hcore] at hrender
  unfold Kernel.studioMouseUp Kernel.mouseUpActs Kernel.releasedButton
  cases k.system.studio.pressedIndex with
  | none => exact hrender
  | some button =>
    have hhit : ((k.onSystem fun s =>
        (s.setPressed none).releaseButtons).system.studio.buttons button).hitTest x y =
        (k.system.studio.buttons button).hitTest x y := rfl
    simp only [hhit]
    by_cases hpressed : (k.system.studio.buttons button).hitTest x y = true
    · simp only [hpressed, if_true]
      exact core_activate _ button
    · simp only [hpressed, Bool.false_eq_true, if_false]
      exact hrender

theorem core_studioHandleEvent (k : Kernel) (event : UiEvent) :
    (k.studioHandleEvent event).core = run Core.act k.core (k.studioActs event) := by
  unfold Kernel.studioHandleEvent Kernel.studioActs
  by_cases hready : k.system.studio.ready = true
  · rw [if_pos hready, if_pos hready]
    cases event.type with
    | none => rfl
    | keyDown => exact core_studioKeyDown k _
    | keyChar => exact core_studioKeyChar k _
    | mouseMove => exact core_hover k _ _
    | mouseButtonDown =>
      simp only
      split_ifs
      · exact core_studioMouseDown k _ _
      · rfl
    | mouseButtonUp =>
      simp only
      split_ifs
      · exact core_studioMouseUp k _ _
      · rfl
  · rw [if_neg hready, if_neg hready]
    rfl

theorem core_launcherOpen (k : Kernel) (screen : ScreenId) :
    (k.launcherOpen screen).core = run Core.act k.core (k.setScreenActs screen.code) := by
  have hset := core_setScreen (k.onSystem (·.setLauncherPressed none)) screen.code
  unfold Kernel.launcherOpen
  simp only
  generalize (k.onSystem (·.setLauncherPressed none)).setScreen screen.code = j at hset ⊢
  cases openedText screen with
  | none => exact hset
  | some text => exact (quiet_core j _ (quiet_logLine j.system text)).trans hset

theorem core_activateItem (k : Kernel) (item : LauncherItem) :
    (k.activateItem item).core = run Core.act k.core (itemActs k item) := by
  cases item with
  | terminal => exact core_launcherOpen k _
  | system => exact core_launcherOpen k _
  | memory => exact core_launcherOpen k _
  | ai => exact core_launcherOpen k _
  | shutdown => rfl

theorem core_launcherShortcut (k : Kernel) (c : UInt8) :
    (k.launcherShortcut c).core = run Core.act k.core (k.launcherShortcutActs c) := by
  unfold Kernel.launcherShortcut Kernel.launcherShortcutActs
  split_ifs
  · exact core_launcherOpen k _
  · exact core_launcherOpen k _
  · exact core_launcherOpen k _
  · rfl
  · exact core_launcherOpen k _
  · rfl

theorem hover_rect (s : System) (x y : UInt32) (item : LauncherItem) :
    ((s.launcherUpdateHover x y).launcher.items item).rect = (s.launcher.items item).rect := by
  unfold System.launcherUpdateHover
  simp only
  split_ifs <;> rfl

theorem core_launcherMouseUp (k : Kernel) (x y : UInt32) :
    (k.launcherMouseUp x y).core = run Core.act k.core
      (match k.releasedItem x y with
        | none => []
        | some item => itemActs k item) := by
  unfold Kernel.launcherMouseUp Kernel.releasedItem
  have hrelease : Quiet k.system
      (((k.system.setLauncherPressed none).launcherUpdateHover x y).launcherRelease) :=
    quiet_trans (t := k.system.setLauncherPressed none) ⟨rfl, rfl⟩
      (quiet_trans (quiet_launcherHover _ x y) ⟨rfl, rfl⟩)
  have hcore := quiet_core k (fun s =>
    ((s.setLauncherPressed none).launcherUpdateHover x y).launcherRelease) hrelease
  have hready := quiet_ready hrelease
  have hcurrent := quiet_current hrelease
  cases k.system.launcher.pressedIndex with
  | none => exact hcore
  | some item =>
    have hhit : ((k.onSystem fun s =>
        ((s.setLauncherPressed none).launcherUpdateHover x y).launcherRelease).system.launcher.items
          item).hitTest x y = (k.system.launcher.items item).hitTest x y := by
      have hrect := hover_rect (k.system.setLauncherPressed none) x y item
      exact congrArg (fun rect => Rect.hits rect x y) hrect
    simp only [hhit]
    by_cases hpressed : (k.system.launcher.items item).hitTest x y = true
    · simp only [hpressed, if_true]
      rw [core_activateItem, hcore]
      have hacts : itemActs (k.onSystem fun s =>
          ((s.setLauncherPressed none).launcherUpdateHover x y).launcherRelease) item =
          itemActs k item := by
        cases item <;> simp only [itemActs, Kernel.setScreenActs, Kernel.onSystem, hready,
          hcurrent]
      rw [hacts]
    · simp only [hpressed, Bool.false_eq_true, if_false]
      exact hcore

theorem core_launcherHandleEvent (k : Kernel) (event : UiEvent) :
    (k.launcherHandleEvent event).core = run Core.act k.core (k.launcherActs event) := by
  unfold Kernel.launcherHandleEvent Kernel.launcherActs
  by_cases hready : k.system.launcher.ready = true
  · rw [if_pos hready, if_pos hready]
    cases event.type with
    | none => rfl
    | keyDown => rfl
    | keyChar => exact core_launcherShortcut k _
    | mouseMove => exact quiet_core k _ (quiet_launcherHover k.system _ _)
    | mouseButtonDown =>
      simp only
      split_ifs
      · exact quiet_core k _ (quiet_launcherMouseDown k.system _ _)
      · rfl
    | mouseButtonUp =>
      simp only
      split_ifs
      · exact core_launcherMouseUp k _ _
      · rfl
  · rw [if_neg hready, if_neg hready]
    rfl

theorem core_poll (k : Kernel) (arrived : List UInt8) :
    (k.onSystem fun s => (s.poll arrived).2).core = k.core.poll arrived := by
  rcases hpoll : k.system.bridge.poll k.system.transport arrived with
    ⟨answered, bridge, transport⟩
  have hsame : k.core.bridge.poll k.core.transport arrived = (answered, bridge, transport) := hpoll
  show (Kernel.mk (k.system.poll arrived).2 k.session k.port).core = k.core.poll arrived
  rw [System.poll, hpoll, Core.poll, hsame]
  rfl

theorem core_request (k : Kernel) (taskType : TaskType) (input : List UInt8)
    (contextFlags : UInt32) (failed : List UInt8) :
    (k.request taskType input contextFlags failed).2.core =
      k.core.act (.request taskType input contextFlags) := by
  obtain ⟨haccepted, hcore⟩ := core_submit k taskType input contextFlags
  rcases hkernel : k.submit taskType (some input) contextFlags with ⟨accepted, j⟩
  rcases hsubmit : k.core.submit taskType input contextFlags with ⟨accepted', c⟩
  rw [hkernel, hsubmit] at haccepted hcore
  simp only at haccepted hcore
  simp only [Kernel.request, Core.act, hkernel, hsubmit]
  rw [← haccepted, ← hcore]
  cases accepted with
  | true => exact core_poll j []
  | false => rfl

theorem core_showRequest (answer : List UInt8 × Kernel) (shown : System → System)
    (h : ∀ s, Quiet s (shown s)) : (Kernel.showRequest answer shown).core = answer.2.core :=
  quiet_core answer.2 _ (quiet_trans (quiet_trans (quiet_showResponse answer.2.system answer.1)
    (h _)) (quiet_prompt _))

theorem core_runAi (k : Kernel) (argument : List UInt8) :
    (k.runAi argument).core = run Core.act k.core (aiActs argument) := by
  unfold Kernel.runAi aiActs
  split_ifs
  · exact (core_showRequest _ _ quiet_refl).trans (core_request k _ _ _ _)
  · exact (core_showRequest _ _ quiet_refl).trans (core_request k _ _ _ _)
  · exact (core_showRequest _ _ quiet_showProvider).trans (core_request k _ _ _ _)
  · exact (core_showRequest _ _ quiet_showProgram).trans (core_request k _ _ _ _)
  · exact (core_showRequest _ _ fun s =>
      quiet_trans (quiet_showSyncSummary s) (quiet_showProgram _)).trans (core_request k _ _ _ _)
  · exact quiet_core k _ (quiet_trans (quiet_writeLine k.system _) (quiet_prompt _))

theorem core_executeAi (k : Kernel) (argument : List UInt8) :
    (k.executeAi argument).core = run Core.act k.core (aiActs argument) :=
  core_runAi (k.onSystem (·.logAiCommand argument)) argument

theorem core_of_halt {s t : System} (h : Quiet s t) (session : Session) (port : Uart) :
    (Kernel.mk t.halt session port).core = (Kernel.mk s session port).core.act .halt := by
  show { (Kernel.mk t session port).core with halted := true } =
    { (Kernel.mk s session port).core with halted := true }
  rw [core_of_quiet h]

theorem executeLocal_halt (s : System) : s.executeLocal (ascii "halt") = s.terminalHalt := by
  rw [System.executeLocal, if_neg (by decide), if_neg (by decide), if_neg (by decide),
    if_neg (by decide), if_neg (by decide), if_neg (by decide), if_pos rfl]

theorem executeLocal_reboot (s : System) :
    s.executeLocal (ascii "reboot") = s.terminalReboot := by
  rw [System.executeLocal, if_neg (by decide), if_neg (by decide), if_neg (by decide),
    if_neg (by decide), if_neg (by decide), if_neg (by decide), if_neg (by decide), if_pos rfl]

theorem quiet_executeLocal (s : System) (command : List UInt8) (hhalt : command ≠ ascii "halt")
    (hreboot : command ≠ ascii "reboot") : Quiet s (s.executeLocal command) := by
  unfold System.executeLocal
  split_ifs
  · exact quiet_terminalTasks s
  · exact quiet_terminalSync s
  · exact quiet_terminalLs s _
  · exact quiet_terminalCat s _
  · exact quiet_trans (quiet_trans (quiet_logLine s _) (quiet_writeLine _ _)) (quiet_prompt _)
  · exact quiet_trans (quiet_trans (quiet_logLine s _) (quiet_print _ _ (clear_fb _)))
      (quiet_prompt _)
  · exact quiet_trans (quiet_trans (quiet_logLine s _) (quiet_print _ _ (by simp)))
      (quiet_prompt _)

theorem core_executeLocal (k : Kernel) (command : List UInt8) :
    (k.onSystem (·.executeLocal command)).core = run Core.act k.core (localActs command) := by
  show (Kernel.mk (k.system.executeLocal command) k.session k.port).core = _
  unfold localActs
  by_cases hhalt : command = ascii "halt"
  · rw [hhalt, if_pos (Or.inl rfl), executeLocal_halt]
    exact core_of_halt (quiet_trans (quiet_logLine k.system _) (quiet_writeLine _ _)) _ _
  by_cases hreboot : command = ascii "reboot"
  · rw [hreboot, if_pos (Or.inr rfl), executeLocal_reboot]
    exact core_of_halt (quiet_trans (quiet_trans (quiet_logLine k.system _)
      (quiet_writeLine _ _)) (quiet_logLine _ _)) _ _
  · rw [if_neg (by simp [hhalt, hreboot])]
    exact core_of_quiet (quiet_executeLocal k.system command hhalt hreboot) _ _

theorem core_executeCommand (k : Kernel) (command : List UInt8) :
    (k.executeCommand command).core = run Core.act k.core (k.commandActs command) := by
  unfold Kernel.executeCommand Kernel.commandActs
  split_ifs
  · exact quiet_core k _ (quiet_prompt k.system)
  · exact quiet_core k _ (quiet_trans (quiet_trans (quiet_trans (quiet_logLine k.system _)
      (quiet_writeLine _ _)) (quiet_writeLine _ _)) (quiet_prompt _))
  · exact core_executeAi k _
  · exact core_setScreen (k.onSystem fun s =>
      (s.logText (ascii "terminal command: ")).logLine command) _
  · exact core_executeLocal k command

theorem core_terminalHandleEvent (k : Kernel) (event : UiEvent) :
    (k.terminalHandleEvent event).core = run Core.act k.core (k.terminalActs event) := by
  unfold Kernel.terminalHandleEvent Kernel.terminalActs
  split_ifs
  · refine quiet_core k _ ?_
    unfold System.terminalHandleChar
    split_ifs
    · exact quiet_refl _
    · exact ⟨putChar_fb _ _, rfl⟩
  · refine quiet_core k _ ?_
    unfold System.terminalHandleBackspace
    split_ifs
    · exact quiet_refl _
    · exact ⟨backspace_fb _, rfl⟩
  · have hnewline : Quiet k.system (k.system.print (·.newline)) :=
      quiet_print k.system _ (newline_fb _)
    have hcommand := core_executeCommand (k.onSystem (·.print (·.newline)))
      (cstr k.system.terminalInput)
    have hacts : (k.onSystem (·.print (·.newline))).commandActs (cstr k.system.terminalInput) =
        k.commandActs (cstr k.system.terminalInput) := rfl
    rw [quiet_core k _ hnewline, hacts] at hcommand
    rw [← hcommand]
    rfl
  · rfl

theorem core_globalShortcut (k : Kernel) (event : UiEvent) :
    (k.globalShortcut event).map Kernel.core =
      (k.shortcutActs event).map fun acts => run Core.act k.core acts := by
  unfold Kernel.globalShortcut Kernel.shortcutActs
  split_ifs
  · rfl
  · exact congrArg some (core_setScreen k _)
  · exact congrArg some (core_setScreen k _)
  · exact congrArg some (core_setScreen k _)
  · rfl
  · exact congrArg some (core_setScreen k _)
  · rfl

theorem core_screenHandleEvent (k : Kernel) (event : UiEvent) :
    (k.screenHandleEvent event).core = run Core.act k.core (k.screenActs event) := by
  unfold Kernel.screenHandleEvent Kernel.screenActs
  cases k.system.current with
  | launcher => exact core_launcherHandleEvent k event
  | terminal => exact core_terminalHandleEvent k event
  | system => rfl
  | memory => rfl
  | aiStudio => exact core_studioHandleEvent k event

theorem core_dispatchEventToCurrentScreen (k : Kernel) (event : UiEvent) :
    (k.dispatchEventToCurrentScreen event).core = run Core.act k.core (k.eventActs event) := by
  unfold Kernel.dispatchEventToCurrentScreen Kernel.eventActs
  split_ifs with hready hescape hhelp
  · exact core_back k hready
  · exact (quiet_core _ _ (quiet_helpOverlay _)).trans (core_renderCurrentScreen k hready)
  · have hshortcut := core_globalShortcut k event
    cases hkernel : k.globalShortcut event with
    | none =>
      rw [hkernel] at hshortcut
      cases hacts : k.shortcutActs event with
      | none => exact core_screenHandleEvent k event
      | some acts => simp [hacts] at hshortcut
    | some j =>
      rw [hkernel] at hshortcut
      cases hacts : k.shortcutActs event with
      | none => simp [hacts] at hshortcut
      | some acts => simpa [hacts] using hshortcut
  · rfl

theorem core_dispatchEvent (k : Kernel) (event : UiEvent) :
    (k.dispatchEvent event).core = run Core.act k.core (k.eventActs event) := by
  unfold Kernel.dispatchEvent
  by_cases hsecret : k.session.isCapturingSecret = true
  · simp only [hsecret, if_true]
    exact core_dispatchEventToCurrentScreen k event
  · have hquiet := quiet_recentEvent k.system event
    have hcore := quiet_core k (·.drawRecentEvent event) hquiet
    have hacts : (k.onSystem (·.drawRecentEvent event)).eventActs event = k.eventActs event := by
      have hdraw : ∃ ops, k.system.drawRecentEvent event = k.system.draw ops := by
        unfold System.drawRecentEvent
        split_ifs
        · exact ⟨_, rfl⟩
        · exact ⟨[], by simp [System.draw, Screen.draw]⟩
      obtain ⟨ops, hops⟩ := hdraw
      show (Kernel.mk (k.system.drawRecentEvent event) k.session k.port).eventActs event = _
      rw [hops]
      rfl
    simp only [hsecret, Bool.false_eq_true, if_false]
    rw [core_dispatchEventToCurrentScreen, hcore, hacts]

theorem core_pollBridge (k : Kernel) (arrived : List UInt8) :
    (k.pollBridge arrived).core = run Core.act k.core (k.pollActs arrived) := by
  have hpoll := core_poll k arrived
  have hready : (k.system.poll arrived).2.routerReady = k.system.routerReady := rfl
  have hcurrent : (k.system.poll arrived).2.current = k.system.current := rfl
  have hanswered : (k.system.poll arrived).1 =
      (k.system.bridge.poll k.system.transport arrived).1 := rfl
  unfold Kernel.pollBridge Kernel.pollActs
  rw [run_cons, ← hanswered]
  have hact : k.core.act (.poll arrived) = k.core.poll arrived := rfl
  rw [hact, ← hpoll]
  rcases hresult : k.system.poll arrived with ⟨answered, s⟩
  rw [hresult] at hready hcurrent
  have hsystem : (k.onSystem fun s => (s.poll arrived).2) = { k with system := s } := by
    show Kernel.mk (k.system.poll arrived).2 k.session k.port = _
    rw [hresult]
  rw [hsystem]
  simp only at hready hcurrent
  cases answered with
  | false => simp
  | true =>
    simp only [true_and, hcurrent]
    by_cases hstudio : k.system.current = .aiStudio
    · rw [if_pos hstudio]
      by_cases hr : k.system.routerReady = true
      · rw [if_pos ⟨hstudio, hr⟩, core_renderCurrentScreen _ (hready.trans hr)]
        simp only [hcurrent, hstudio]
        rfl
      · rw [if_neg (fun hn => hr hn.2), Kernel.renderCurrentScreen, if_neg (hready ▸ hr)]
        rfl
    · rw [if_neg hstudio, if_neg (fun hn => hstudio hn.1)]
      rfl

/-- The kernel's step is the run of its acts. -/
theorem step_core (k : Kernel) (input : Input) :
    (k.step input).core = run Core.act k.core (k.acts input) := by
  unfold Kernel.step Kernel.acts
  by_cases hhalted : k.system.halted = true
  · rw [if_pos hhalted, if_pos hhalted]
    rfl
  · rw [if_neg hhalted, if_neg hhalted]
    cases input with
    | event event => exact core_dispatchEvent k event
    | service arrived =>
      have hyield : ((k.pollBridge arrived).onSystem System.yieldScheduler).core =
          (k.pollBridge arrived).core := rfl
      exact hyield.trans (core_pollBridge k arrived)
    | receive arrived => rfl

end Hnmos
