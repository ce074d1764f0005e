import Mathlib
import Hnmos.RequestReply
import Hnmos.RequestRetention

/-!
# One step of the kernel at the slot

An event of the user reads nothing from the second port: it leaves the slot
alone, cancels its task, puts a prompt in it that is on its way, or puts a
request in it that is answered on the machine. The polls and the interrupts
of the port are the only inputs that capture bytes.
-/

set_option autoImplicit false

namespace Hnmos
open Hnmos.CString Hnmos.Task Hnmos.SerialPort Hnmos.SerialTransport Hnmos.AiBridge
open Hnmos.AiSession Hnmos.Workspace Hnmos.Events Hnmos.Transition

def Act.deaf : Act → Bool
  | .poll _ => false
  | .receive _ => false
  | _ => true

def Deaf (acts : List Act) : Prop := ∀ act ∈ acts, act.deaf = true

theorem deaf_nil : Deaf [] := fun _ h => absurd h List.not_mem_nil

theorem deaf_one (act : Act) (h : act.deaf = true) : Deaf [act] :=
  fun _ hmem => List.mem_singleton.mp hmem ▸ h

theorem deaf_append (acts more : List Act) (h : Deaf acts) (h' : Deaf more) :
    Deaf (acts ++ more) := fun act hmem =>
  (List.mem_append.mp hmem).elim (h act) (h' act)

theorem deaf_sync (act : Act) (h : act.deaf = true) : Deaf [act, .sync] :=
  deaf_append [act] [.sync] (deaf_one act h) (deaf_one .sync rfl)

theorem renderActs_deaf (screen : ScreenId) : Deaf (renderActs screen) := by
  unfold renderActs
  split_ifs
  · exact deaf_one .sync rfl
  · exact deaf_nil

theorem setScreenActs_deaf (k : Kernel) (screenId : UInt32) : Deaf (k.setScreenActs screenId) := by
  unfold Kernel.setScreenActs
  split_ifs
  · cases findScreen screenId with
    | none => exact deaf_nil
    | some next =>
      simp only
      split_ifs
      · exact renderActs_deaf next
      · exact deaf_append [.goto next] _ (deaf_one _ rfl) (renderActs_deaf next)
  · exact deaf_nil

theorem pressAct_deaf (b : StudioButton) : Deaf (pressAct b) := by
  cases b with
  | subscription => exact deaf_one _ rfl
  | apiKey => exact deaf_one _ rfl
  | generate => exact deaf_one _ rfl
  | review => exact deaf_nil
  | build => exact deaf_nil

theorem hoverActs_deaf (k : Kernel) (x y : UInt32) : Deaf (k.hoverActs x y) := by
  unfold Kernel.hoverActs
  split_ifs
  · exact deaf_one .sync rfl
  · exact deaf_nil

theorem studioActs_deaf (k : Kernel) (event : UiEvent) : Deaf (k.studioActs event) := by
  unfold Kernel.studioActs
  by_cases hready : k.system.studio.ready = true
  · rw [if_pos hready]
    cases event.type with
    | none => exact deaf_nil
    | keyDown =>
      show Deaf (k.studioKeyDownActs event.keyCode)
      unfold Kernel.studioKeyDownActs
      split_ifs
      · exact deaf_sync .secretBackspace rfl
      · exact deaf_sync .promptBackspace rfl
      · exact deaf_sync .secretEnter rfl
      · exact deaf_sync .promptEnter rfl
      · exact deaf_nil
    | keyChar =>
      show Deaf (k.studioKeyCharActs event.character)
      unfold Kernel.studioKeyCharActs commandActs
      split_ifs
      · exact deaf_sync (.secretChar _) rfl
      · exact deaf_sync (.promptChar _) rfl
      · exact deaf_sync .subscription rfl
      · exact deaf_sync .apiKey rfl
      · exact deaf_sync .generate rfl
      · exact deaf_one .sync rfl
      · exact deaf_one .sync rfl
      · exact deaf_sync .cancelTask rfl
      · exact deaf_nil
    | mouseMove => exact hoverActs_deaf k event.x event.y
    | mouseButtonDown =>
      simp only
      split_ifs
      · exact deaf_append _ _ (hoverActs_deaf k _ _) (deaf_one .sync rfl)
      · exact deaf_nil
    | mouseButtonUp =>
      simp only
      split_ifs
      · unfold Kernel.mouseUpActs
        cases k.releasedButton event.x event.y with
        | none => exact deaf_one .sync rfl
        | some b => exact deaf_append _ _ (pressAct_deaf b) (deaf_one .sync rfl)
      · exact deaf_nil
  · rw [if_neg hready]
    exact deaf_nil

theorem itemActs_deaf (k : Kernel) (item : LauncherItem) : Deaf (itemActs k item) := by
  cases item with
  | terminal => exact setScreenActs_deaf k ScreenId.terminal.code
  | system => exact setScreenActs_deaf k ScreenId.system.code
  | memory => exact setScreenActs_deaf k ScreenId.memory.code
  | ai => exact setScreenActs_deaf k ScreenId.aiStudio.code
  | shutdown => exact deaf_one .halt rfl

theorem launcherActs_deaf (k : Kernel) (event : UiEvent) : Deaf (k.launcherActs event) := by
  unfold Kernel.launcherActs
  by_cases hready : k.system.launcher.ready = true
  · rw [if_pos hready]
    cases event.type with
    | keyChar =>
      show Deaf (k.launcherShortcutActs event.character)
      unfold Kernel.launcherShortcutActs
      split_ifs
      · exact itemActs_deaf k .terminal
      · exact itemActs_deaf k .system
      · exact itemActs_deaf k .memory
      · exact itemActs_deaf k .shutdown
      · exact itemActs_deaf k .ai
      · exact deaf_nil
    | mouseButtonUp =>
      simp only
      split_ifs
      · cases k.releasedItem event.x event.y with
        | none => exact deaf_nil
        | some item => exact itemActs_deaf k item
      · exact deaf_nil
    | _ => exact deaf_nil
  · rw [if_neg hready]
    exact deaf_nil

theorem commandActs_deaf (k : Kernel) (command : List UInt8) : Deaf (k.commandActs command) := by
  unfold Kernel.commandActs aiActs localActs
  split_ifs
  all_goals first
    | exact deaf_nil
    | exact deaf_one _ rfl
    | exact setScreenActs_deaf k _

theorem terminalActs_deaf (k : Kernel) (event : UiEvent) : Deaf (k.terminalActs event) := by
  unfold Kernel.terminalActs
  split_ifs
  · exact deaf_nil
  · exact deaf_nil
  · exact commandActs_deaf k _
  · exact deaf_nil

theorem shortcutActs_deaf (k : Kernel) (event : UiEvent) (acts : List Act)
    (h : k.shortcutActs event = some acts) : Deaf acts := by
  unfold Kernel.shortcutActs at h
  split_ifs at h <;> cases h
  · exact setScreenActs_deaf k _
  · exact setScreenActs_deaf k _
  · exact setScreenActs_deaf k _
  · exact deaf_one .halt rfl
  · exact setScreenActs_deaf k _

theorem eventActs_deaf (k : Kernel) (event : UiEvent) : Deaf (k.eventActs event) := by
  unfold Kernel.eventActs Kernel.backActs
  split_ifs
  · exact deaf_nil
  · exact setScreenActs_deaf k _
  · exact renderActs_deaf _
  · cases hshortcut : k.shortcutActs event with
    | some acts => exact shortcutActs_deaf k event acts hshortcut
    | none =>
      simp only
      unfold Kernel.screenActs
      cases k.system.current with
      | launcher => exact launcherActs_deaf k event
      | terminal => exact terminalActs_deaf k event
      | system => exact deaf_nil
      | memory => exact deaf_nil
      | aiStudio => exact studioActs_deaf k event
  · exact deaf_nil

theorem event_deaf (k : Kernel) (event : UiEvent) : Deaf (k.acts (.event event)) := by
  unfold Kernel.acts
  split_ifs
  · exact deaf_nil
  · exact eventActs_deaf k event

/-- The slot as it is, or with its task cancelled. -/
structure Spared (c d : Core) : Prop where
  transport : d.transport = c.transport
  bridge : d.bridge = c.bridge ∨ d.bridge = c.bridge.cancel.2

theorem spared_same (c d : Core) (htransport : d.transport = c.transport)
    (hbridge : d.bridge = c.bridge) : Spared c d := ⟨htransport, .inl hbridge⟩

theorem sync_spared (c : Core) : c.sync.transport = c.transport ∧ c.sync.bridge = c.bridge := by
  unfold Core.sync
  split_ifs <;> exact ⟨rfl, rfl⟩

theorem cancelCapture_transport (c : Core) : c.cancelCapture.transport = c.transport := by
  unfold Core.cancelCapture
  split_ifs <;> rfl

theorem leave_transport (c : Core) : c.leave.transport = c.transport := by
  unfold Core.leave
  split_ifs
  · exact cancelCapture_transport c
  · rfl

theorem act_spared (c : Core) (act : Act) (hdeaf : act.deaf = true)
    (hsubmits : act.submits = false) : Spared c (c.act act) := by
  cases act with
  | generate =>
    unfold Core.act
    simp only
    split_ifs
    · exact spared_same c _ rfl rfl
    · exact spared_same c _ (cancelCapture_transport c) (cancelCapture_kept c).1
  | cancelTask => exact ⟨rfl, .inr rfl⟩
  | sync => exact spared_same c _ (sync_spared c).1 (sync_spared c).2
  | goto screen => exact spared_same c _ (leave_transport c) (leave_kept c).1
  | promptEnter => exact absurd hsubmits.symm Bool.false_ne_true
  | request taskType input contextFlags => exact absurd hsubmits.symm Bool.false_ne_true
  | poll arrived => exact absurd hdeaf Bool.false_ne_true
  | receive arrived => exact absurd hdeaf Bool.false_ne_true
  | subscription | apiKey | secretChar | secretBackspace | secretEnter | promptChar
  | promptBackspace | halt => exact spared_same c _ rfl rfl

theorem spared_sync (c d : Core) (h : Spared c d) : Spared c d.sync := by
  obtain ⟨htransport, hbridge⟩ := sync_spared d
  refine ⟨htransport.trans h.transport, ?_⟩
  rw [hbridge]
  exact h.bridge

theorem batch_spared (c : Core) (acts : List Act) (h : Batch acts) (hdeaf : Deaf acts) :
    Spared c (run Core.act c acts) := by
  cases h with
  | none => exact spared_same c c rfl rfl
  | halt => exact spared_same c _ rfl rfl
  | leave screen => exact act_spared c (.goto screen) rfl rfl
  | shown => exact act_spared c .sync rfl rfl
  | edit act hsubmits =>
    exact spared_sync c _ (act_spared c act (hdeaf act List.mem_cons_self) hsubmits)

def Core.asked (c : Core) : Bridge :=
  { c.bridge with
    lastTask := { c.bridge.prepared .hnlang (some c.prompt.chars) 16 with status := .running }
    nextTaskId := c.bridge.nextTaskId + 1
    lastProvider := some .serial }

theorem promptEnter_asked (c : Core) (h : Serviced c) (hne : c.prompt.chars ≠ []) :
    (c.act .promptEnter).bridge = c.asked ∧ (c.act .promptEnter).transport = c.transport := by
  have hfits := c.prompt.fits
  have hsubmit := RequestReply.submit_text c.bridge c.transport c.port c.prompt.chars 16 h.ready
    h.active h.transport hne c.prompt.noNul (by omega)
  unfold Core.act Core.submit
  simp only
  rw [if_neg hne, hsubmit]
  exact ⟨rfl, rfl⟩

/-- The stub answers a task that is not for the host at the first poll. -/
theorem stub_answers (task : AiTask) (htype : task.taskType ≠ .hnlang)
    (hstatus : task.status = .pending) :
    (stubSubmitTask task).1 = true ∧
      (stubPollTask (stubSubmitTask task).2).2.taskType = task.taskType ∧
      (stubPollTask (stubSubmitTask task).2).2.status = .done := by
  have hopen : stubClosed TaskStatus.pending = false := rfl
  have hsubmit : stubSubmitTask task = (true, { task with status := .pending }) := by
    unfold stubSubmitTask
    rw [hstatus, hopen, if_neg Bool.false_ne_true, if_neg (fun hn => htype hn.1)]
  rw [hsubmit]
  unfold stubPollTask
  simp only [hopen, Bool.false_eq_true, if_false, setOutput_taskType, and_self]

theorem request_local (c : Core) (taskType : TaskType) (input : List UInt8)
    (contextFlags : UInt32) (h : Serviced c) (htype : taskType ≠ .hnlang) :
    (c.act (.request taskType input contextFlags)).transport = c.transport ∧
      (c.act (.request taskType input contextFlags)).bridge.lastTask.taskType ≠ .hnlang ∧
      (c.act (.request taskType input contextFlags)).bridge.lastTask.status = .done := by
  have hroute := route_serviced c taskType h
  rw [if_neg htype] at hroute
  have hprepared := prepared_taskType c.bridge taskType (some input) contextFlags
  obtain ⟨haccepted, hkind, hdone⟩ := stub_answers
    (c.bridge.prepared taskType (some input) contextFlags) (by rw [hprepared]; exact htype)
    (prepared_status c.bridge taskType (some input) contextFlags)
  unfold Core.act Core.submit Bridge.submit
  simp only [hroute, Provider.submitTask, haccepted]
  unfold Core.poll Bridge.poll
  simp only [h.ready, if_true, Provider.pollTask, hkind, hdone, hprepared]
  exact ⟨trivial, htype, trivial⟩

inductive EventEffect (k : Kernel) (event : UiEvent) (d : Core) : Prop
  | spared (h : Spared k.core d)
  | asked (h : k.prompts (.event event)) (hne : k.core.prompt.chars ≠ [])
      (bridge : d.bridge = k.core.asked) (transport : d.transport = k.core.transport)
  | answered (transport : d.transport = k.core.transport)
      (type : d.bridge.lastTask.taskType ≠ .hnlang) (done : d.bridge.lastTask.status = .done)

theorem event_effect (k : Kernel) (event : UiEvent) (h : Serviced k.core) :
    EventEffect k event (k.step (.event event)).core := by
  rw [step_core]
  have hdeaf := event_deaf k event
  have hguard := acts_guarded k (.event event)
  have hacts := acts_cases k (.event event)
  generalize k.acts (.event event) = acts at hdeaf hguard hacts
  cases hacts with
  | batch hbatch => exact .spared (batch_spared k.core acts hbatch hdeaf)
  | asked taskType text contextFlags hasks =>
    obtain ⟨htransport, htype, hdone⟩ :=
      request_local k.core taskType text contextFlags h hguard.1.1
    exact .answered htransport htype hdone
  | prompted hprompts =>
    obtain ⟨htransport, hbridge⟩ := sync_spared (k.core.act .promptEnter)
    by_cases hne : k.core.prompt.chars = []
    · rw [promptEnter_empty k.core hne] at htransport hbridge
      apply EventEffect.spared
      apply spared_same
      · show ((k.core.act .promptEnter).sync).transport = _
        rw [promptEnter_empty k.core hne, htransport]
      · show ((k.core.act .promptEnter).sync).bridge = _
        rw [promptEnter_empty k.core hne, hbridge]
    · obtain ⟨hasked, hsame⟩ := promptEnter_asked k.core h hne
      exact .asked hprompts hne (hbridge.trans hasked) (htransport.trans hsame)
  | received arrived => exact absurd (hdeaf _ List.mem_cons_self) Bool.false_ne_true
  | polled arrived => exact absurd (hdeaf _ List.mem_cons_self) Bool.false_ne_true

/-- A poll of the main loop does to the slot what the bridge's poll does. -/
theorem service_effect (k : Kernel) (arrived : List UInt8) (h : k.system.halted = false) :
    (k.step (.service arrived)).system.bridge =
        (k.system.bridge.poll k.system.transport arrived).2.1 ∧
      (k.step (.service arrived)).system.transport =
        (k.system.bridge.poll k.system.transport arrived).2.2 := by
  have hacts : k.acts (.service arrived) = k.pollActs arrived := by
    unfold Kernel.acts
    rw [h, if_neg Bool.false_ne_true]
  have hcore := step_core k (.service arrived)
  rw [hacts] at hcore
  have hpoll : (k.core.poll arrived).bridge =
        (k.system.bridge.poll k.system.transport arrived).2.1 ∧
      (k.core.poll arrived).transport =
        (k.system.bridge.poll k.system.transport arrived).2.2 := by
    unfold Core.poll
    exact ⟨rfl, rfl⟩
  have hrun : (run Core.act k.core (k.pollActs arrived)).bridge = (k.core.poll arrived).bridge ∧
      (run Core.act k.core (k.pollActs arrived)).transport =
        (k.core.poll arrived).transport := by
    unfold Kernel.pollActs
    split_ifs
    · obtain ⟨htransport, hbridge⟩ := sync_spared (k.core.poll arrived)
      exact ⟨hbridge, htransport⟩
    · exact ⟨rfl, rfl⟩
  rw [← hcore] at hrun
  exact ⟨hrun.1.trans hpoll.1, hrun.2.trans hpoll.2⟩

theorem act_submissions (c : Core) (act : Act) (h : act.submits = false) :
    c.submissions act = 0 := by
  cases act with
  | promptEnter => exact absurd h.symm Bool.false_ne_true
  | request taskType input contextFlags => exact absurd h.symm Bool.false_ne_true
  | _ => rfl

theorem submissionsOf_le (k : Kernel) (input : Input) :
    k.core.submissionsOf (k.acts input) ≤ 1 := by
  have hacts := acts_cases k input
  generalize k.acts input = acts at hacts
  cases hacts with
  | batch hbatch =>
    cases hbatch with
    | edit act hsubmits =>
      rw [Core.submissionsOf, act_submissions _ act hsubmits]
      exact Nat.zero_le 1
    | _ => exact Nat.zero_le 1
  | asked => exact le_refl 1
  | prompted =>
    show k.core.submissions .promptEnter + 0 ≤ 1
    rw [Core.submissions]
    split_ifs <;> decide
  | received => exact Nat.zero_le 1
  | polled => exact Nat.zero_le 1

end Hnmos
