import Mathlib
import Hnmos.KernelSteady
import Hnmos.CaptureModes
import Hnmos.DraftProvenance

/-!
# How long a request stays in the slot

An HNLang request is owed while it runs and until its answer is written. The
studio starts no prompt over a running request and saves a finished one before
the next prompt can be sent; the assistant commands of the terminal submit
without looking at the slot.
-/

set_option autoImplicit false

namespace Hnmos
open Hnmos.CString Hnmos.Task Hnmos.SerialTransport Hnmos.AiBridge Hnmos.AiSession
open Hnmos.Workspace Hnmos.Events Hnmos.Transition Hnmos.TaskLifecycle

def Core.writtenAfter (c : Core) (written : Bool) (act : Act) : Bool :=
  if c.submissions act ≠ 0 then false
  else written || (c.act act).files.stored.length != c.files.stored.length

def Core.written (c : Core) (written : Bool) : List Act → Bool
  | [] => written
  | act :: acts => (c.act act).written (c.writtenAfter written act) acts

/-- The kernel, and whether the output of the task in the slot has been
written. -/
structure Watched where
  kernel : Kernel
  written : Bool

def Watched.step (w : Watched) (input : Input) : Watched where
  kernel := w.kernel.step input
  written := w.kernel.core.written w.written (w.kernel.acts input)

def Watched.task (w : Watched) : AiTask := w.kernel.system.bridge.lastTask

def Owed (w : Watched) : Prop :=
  w.task.taskType = .hnlang ∧
    (w.task.status = .running ∨ (w.task.status = .done ∧ w.written = false))

/-- An owed task is still in the slot after the step, as it was or closed. -/
def Keeps (w : Watched) (input : Input) : Prop :=
  Owed w → Progress w.task (w.step input).task

/-- While a task is owed no assistant command is entered at the terminal, and
a prompt is sent only where the studio has room to draw itself and takes the
task for one not saved yet. -/
def Safe (w : Watched) (input : Input) : Prop :=
  Owed w → ¬ w.kernel.asks input ∧
    (w.kernel.prompts input → w.kernel.system.studio.prompt.chars ≠ [] →
      w.kernel.system.studioReady = true ∧ w.task.taskId ≠ 0 ∧
        w.task.taskId ≠ w.kernel.system.studio.savedTaskId)

structure Kept (b b' : Bridge) : Prop where
  progress : Progress b.lastTask b'.lastTask
  next : b'.nextTaskId = b.nextTaskId

structure Replaced (b b' : Bridge) : Prop where
  id : b'.lastTask.taskId = b.nextTaskId
  next : b'.nextTaskId = b.nextTaskId + 1

theorem kept_same {b b' : Bridge} (h : b' = b) : Kept b b' := by
  rw [h]
  exact ⟨.inl rfl, rfl⟩

theorem kept_trans {a b c : Bridge} (h : Kept a b) (h' : Kept b c) : Kept a c :=
  ⟨progress_trans _ _ _ h.progress h'.progress, h'.next.trans h.next⟩

theorem progress_taskId (t u : AiTask) (h : Progress t u) : u.taskId = t.taskId := by
  rcases h with rfl | ⟨-, output, status, -, rfl⟩
  · rfl
  · rfl

theorem poll_kept (c : Core) (arrived : List UInt8) : Kept c.bridge (c.poll arrived).bridge := by
  have hsame : (c.poll arrived).bridge = (c.bridge.poll c.transport arrived).2.1 := by
    unfold Core.poll
    rfl
  rw [hsame]
  rcases poll_slot c.bridge c.transport arrived with
    ⟨-, hbridge⟩ | ⟨-, hopen, output, status, hstatus, hbridge⟩
  · exact kept_same hbridge
  · have hfinal : Final status := hstatus.imp id Or.inl
    rw [hbridge]
    exact ⟨.inr ⟨hopen, output, status, hfinal, rfl⟩, rfl⟩

theorem cancel_kept (b : Bridge) : Kept b b.cancel.2 := by
  rcases cancel_slot b with ⟨-, hcancel⟩ | ⟨hopen, hcancel⟩
  · rw [hcancel]
    exact kept_same rfl
  · rw [hcancel]
    exact ⟨.inr ⟨hopen, _, _, .inr (.inr rfl), rfl⟩, rfl⟩

theorem act_kept (c : Core) (act : Act) (h : act.submits = false) :
    Kept c.bridge (c.act act).bridge := by
  cases act with
  | generate =>
    unfold Core.act
    simp only
    split_ifs
    · exact kept_same rfl
    · exact kept_same (cancelCapture_kept c).1
  | cancelTask => exact cancel_kept c.bridge
  | sync =>
    show Kept c.bridge c.sync.bridge
    unfold Core.sync
    split_ifs <;> exact kept_same rfl
  | goto screen => exact kept_same (leave_kept c).1
  | poll arrived => exact poll_kept c arrived
  | promptEnter => exact absurd h (by decide)
  | request taskType input contextFlags => exact Bool.noConfusion h
  | subscription | apiKey | secretChar | secretBackspace | secretEnter | promptChar
  | promptBackspace | receive | halt => exact kept_same rfl

theorem batch_kept (c : Core) (acts : List Act) (h : Batch acts) :
    Kept c.bridge (run Core.act c acts).bridge := by
  cases h with
  | none => exact kept_same rfl
  | halt => exact act_kept c .halt rfl
  | leave screen => exact act_kept c (.goto screen) rfl
  | shown => exact act_kept c .sync rfl
  | edit act hact => exact kept_trans (act_kept c act hact) (act_kept (c.act act) .sync rfl)

theorem submit_replaced (c : Core) (taskType : TaskType) (input : List UInt8)
    (contextFlags : UInt32) (h : Serviced c) :
    Replaced c.bridge (c.submit taskType input contextFlags).2.bridge := by
  have hsame : (c.submit taskType input contextFlags).2.bridge =
      (c.bridge.submit c.transport c.port taskType (some input) contextFlags).2.1 := by
    unfold Core.submit
    rfl
  rw [hsame]
  rcases submit_slot c.bridge c.transport c.port taskType (some input) contextFlags with
    ⟨hnone, -⟩ | ⟨provider, task, -, hsubmitted, hbridge⟩
  · rw [route_serviced c taskType h] at hnone
    exact absurd hnone (by simp)
  · rw [hbridge]
    have hid := submitted_taskId _ _ _ hsubmitted
    rw [prepared_taskId] at hid
    exact ⟨hid, rfl⟩

theorem replaced_kept {a b c : Bridge} (h : Replaced a b) (h' : Kept b c) : Replaced a c :=
  ⟨(progress_taskId _ _ h'.progress).trans h.id, h'.next.trans h.next⟩

theorem request_replaced (c : Core) (taskType : TaskType) (input : List UInt8)
    (contextFlags : UInt32) (h : Serviced c) :
    Replaced c.bridge (c.act (.request taskType input contextFlags)).bridge := by
  have hsubmit := submit_replaced c taskType input contextFlags h
  unfold Core.act
  simp only
  rcases hresult : c.submit taskType input contextFlags with ⟨accepted, d⟩
  rw [hresult] at hsubmit
  cases accepted with
  | true => exact replaced_kept hsubmit (poll_kept d [])
  | false => exact hsubmit

theorem promptEnter_replaced (c : Core) (h : Serviced c) (hprompt : c.prompt.chars ≠ []) :
    Replaced c.bridge (c.act .promptEnter).bridge := by
  have hsubmit := submit_replaced c .hnlang c.prompt.chars 16 h
  unfold Core.act
  simp only
  rw [if_neg hprompt]
  rcases hresult : c.submit .hnlang c.prompt.chars 16 with ⟨accepted, d⟩
  rw [hresult] at hsubmit
  cases accepted with
  | true => exact hsubmit
  | false => exact hsubmit

theorem promptEnter_empty (c : Core) (hprompt : c.prompt.chars = []) :
    c.act .promptEnter = c := if_pos hprompt

theorem step_slot (k : Kernel) (input : Input) (h : Serviced k.core) :
    Kept k.system.bridge (k.step input).system.bridge ∨
      ((k.asks input ∨ (k.prompts input ∧ k.system.studio.prompt.chars ≠ [])) ∧
        Replaced k.system.bridge (k.step input).system.bridge) := by
  have hstep : (k.step input).system.bridge = (run Core.act k.core (k.acts input)).bridge :=
    congrArg Core.bridge (step_core k input)
  rw [hstep]
  have hacts := acts_cases k input
  generalize k.acts input = acts at hacts
  cases hacts with
  | batch hbatch => exact .inl (batch_kept k.core acts hbatch)
  | asked taskType text contextFlags hasks =>
    exact .inr ⟨.inl hasks, request_replaced k.core taskType text contextFlags h⟩
  | prompted hprompts =>
    have hsync := act_kept (k.core.act .promptEnter) .sync rfl
    by_cases hprompt : k.system.studio.prompt.chars = []
    · left
      rw [promptEnter_empty k.core hprompt] at hsync
      show Kept k.core.bridge ((k.core.act .promptEnter).act .sync).bridge
      rw [promptEnter_empty k.core hprompt]
      exact hsync
    · exact .inr ⟨.inr ⟨hprompts, hprompt⟩,
        replaced_kept (promptEnter_replaced k.core h hprompt) hsync⟩
  | received arrived => exact .inl (act_kept k.core (.receive arrived) rfl)
  | polled arrived => exact .inl (act_kept k.core (.poll arrived) rfl)

def Synced (c : Core) : Prop := c.current = .aiStudio → c.renders = true → c.unsaved = false

theorem sync_synced (c : Core) (h : Serviced c) : Synced c.sync := by
  have hwrite := write_main c.files c.bridge.lastTask.output h.files
  intro _ hrenders
  unfold Core.sync at hrenders ⊢
  rw [hwrite] at hrenders ⊢
  by_cases hunsaved : c.renders = true ∧ c.unsaved = true
  · rw [if_pos ⟨hunsaved.1, hunsaved.2, rfl⟩]
    simp [Core.unsaved]
  · rw [if_neg (fun hn => hunsaved ⟨hn.1, hn.2.1⟩)] at hrenders ⊢
    exact Bool.eq_false_iff.mpr fun hn => hunsaved ⟨hrenders, hn⟩

theorem batch_synced (c : Core) (acts : List Act) (hbatch : Batch acts) (h : Serviced c)
    (hsynced : Synced c) : Synced (run Core.act c acts) := by
  cases hbatch with
  | none => exact hsynced
  | halt => exact hsynced
  | leave screen hscreen => exact fun hcurrent => absurd hcurrent hscreen
  | shown => exact sync_synced c h
  | edit act => exact sync_synced (c.act act) (act_serviced c act h)

/-- What every run keeps of the kernel, between inputs. -/
structure Tracked (k : Kernel) : Prop where
  ready : k.system.routerReady = true
  serviced : Serviced k.core
  modes : Modes k.core
  next : k.system.bridge.nextTaskId = k.system.bridge.lastTask.taskId + 1
  synced : Synced k.core

theorem step_synced (k : Kernel) (input : Input) (h : Tracked k) :
    Synced (k.step input).core := by
  rw [step_core]
  have hacts := acts_cases k input
  generalize k.acts input = acts at hacts
  cases hacts with
  | batch hbatch => exact batch_synced k.core acts hbatch h.serviced h.synced
  | asked taskType text contextFlags hasks =>
    have hterminal : k.core.current = .terminal := by
      cases input with
      | event event => exact hasks.2.1
      | service arrived => exact hasks.elim
      | receive arrived => exact hasks.elim
    intro hcurrent
    have hrest := (request_rest k.core taskType text contextFlags).2.2.1
    exact absurd ((hrest.symm.trans hcurrent).symm.trans hterminal) (by decide)
  | prompted => exact sync_synced _ (act_serviced k.core .promptEnter h.serviced)
  | received arrived => exact h.synced
  | polled arrived hquiet =>
    show Synced (k.core.poll arrived)
    intro hcurrent hrenders
    rw [(poll_rest k.core arrived).2.2.1] at hcurrent
    rcases hquiet with hother | hrouter | hanswer
    · exact absurd hcurrent hother
    · exact absurd (hrouter.symm.trans h.ready) Bool.false_ne_true
    · rcases poll_slot k.system.bridge k.system.transport arrived with
        ⟨-, hbridge⟩ | ⟨hyes, -⟩
      · have hsame : (k.core.poll arrived).bridge = k.core.bridge := hbridge
        have hunsaved : (k.core.poll arrived).unsaved = k.core.unsaved := by
          unfold Core.unsaved
          rw [hsame, (poll_files k.core arrived).2]
        exact hunsaved.trans (h.synced hcurrent hrenders)
      · exact absurd (hanswer.symm.trans hyes) Bool.false_ne_true

theorem boot_ready (k : Kernel) : k.boot.system.routerReady = true := by
  have hready : ∀ j : Kernel, j.routerInit.system.routerReady = true := by
    intro j
    unfold Kernel.routerInit
    simp only
    generalize (j.onSystem System.launcherInit).studioInit = l
    have henter := screenOnEnter_steady
      (l.onSystem fun s => { s with current := .launcher, routerReady := true, hooks := [] })
      .launcher
    have hrender := renderCurrentScreen_steady
      ((l.onSystem fun s => { s with current := .launcher, routerReady := true, hooks := [] })
        |>.screenOnEnter .launcher)
    exact hrender.router.trans henter.router
  exact hready _

theorem boot_tracked (k : Kernel) : Tracked k.boot := by
  have hmodes : Modes k.boot.core := by
    rw [boot_core]
    exact modes_idle _ rfl rfl
  have hbridge : k.boot.system.bridge = Bridge.init := congrArg Core.bridge (boot_core k)
  have hcurrent : k.boot.core.current = .launcher := congrArg Core.current (boot_core k)
  refine ⟨boot_ready k, boot_serviced k, hmodes, ?_, ?_⟩
  · rw [hbridge]
    rfl
  · intro hstudio
    exact absurd (hcurrent.symm.trans hstudio) (by decide)

theorem step_tracked (k : Kernel) (input : Input) (h : Tracked k) : Tracked (k.step input) where
  ready := (step_steady k input).router.trans h.ready
  serviced := step_invariant Serviced (fun c act hc _ => act_serviced c act hc) k input h.serviced
  modes := step_invariant Modes act_modes k input h.modes
  next := by
    rcases step_slot k input h.serviced with hkept | ⟨-, hreplaced⟩
    · rw [hkept.next, progress_taskId _ _ hkept.progress]
      exact h.next
    · rw [hreplaced.next, hreplaced.id]
  synced := step_synced k input h

theorem enter_acts (k : Kernel) (event : UiEvent) (hrun : k.system.halted = false)
    (hready : k.system.routerReady = true) (henter : event.keyCode = keyEnter)
    (hshortcut : k.shortcutActs event = none) : k.acts (.event event) = k.screenActs event := by
  show (if k.system.halted = true then [] else k.eventActs event) = _
  rw [hrun, if_neg Bool.false_ne_true, Kernel.eventActs, if_pos hready, if_neg, if_neg, hshortcut]
  · rw [henter]
    exact fun hn => absurd hn.2 (by decide)
  · rw [henter]
    exact fun hn => absurd hn.2.1 (by decide)

theorem asks_acts (k : Kernel) (input : Input) (hready : k.system.routerReady = true)
    (h : k.asks input) : ∃ taskType text contextFlags,
      k.acts input = [.request taskType text contextFlags] := by
  cases input with
  | service arrived => exact h.elim
  | receive arrived => exact h.elim
  | event event =>
    obtain ⟨hrun, hcurrent, hdown, henter, hai, hmem⟩ := h
    have hrequest : ∃ taskType text contextFlags,
        aiActs (commandArgument (cstr k.system.terminalInput) (ascii "ai")) =
          [.request taskType text contextFlags] := by
      rcases aiActs_cases (commandArgument (cstr k.system.terminalInput) (ascii "ai")) with
        ⟨hnot, -⟩ | ⟨-, hrequest⟩
      · exact absurd hmem hnot
      · exact hrequest
    have hcommand : k.commandActs (cstr k.system.terminalInput) =
        aiActs (commandArgument (cstr k.system.terminalInput) (ascii "ai")) := by
      have hempty : cstr k.system.terminalInput ≠ [] := by
        intro hn
        rw [hn] at hai
        exact absurd hai (by decide)
      have hhelp : cstr k.system.terminalInput ≠ ascii "help" := by
        intro hn
        rw [hn] at hai
        exact absurd hai (by decide)
      rw [Kernel.commandActs, if_neg hempty, if_neg hhelp, if_pos hai]
    have hshortcut : k.shortcutActs event = none := if_pos (.inl hcurrent)
    have hevent : k.acts (.event event) = k.commandActs (cstr k.system.terminalInput) := by
      rw [enter_acts k event hrun hready henter hshortcut, Kernel.screenActs, hcurrent]
      show k.terminalActs event = _
      rw [Kernel.terminalActs, if_neg, if_neg, if_pos ⟨hdown, henter⟩]
      · rw [henter]
        exact fun hn => absurd hn.2 (by decide)
      · rw [hdown]
        decide
    rw [hevent, hcommand]
    exact hrequest

theorem prompts_acts (k : Kernel) (input : Input) (hready : k.system.routerReady = true)
    (h : k.prompts input) : k.acts input = [.promptEnter, .sync] := by
  cases input with
  | service arrived => exact h.elim
  | receive arrived => exact h.elim
  | event event =>
    obtain ⟨hrun, hcurrent, hstudio, hdown, henter, hsecret, hprompt⟩ := h
    have hshortcut : k.shortcutActs event = none := if_pos (.inr (.inr (.inl hcurrent)))
    rw [enter_acts k event hrun hready henter hshortcut, Kernel.screenActs, hcurrent]
    show k.studioActs event = _
    rw [Kernel.studioActs, if_pos hstudio, hdown]
    show k.studioKeyDownActs event.keyCode = _
    rw [henter, Kernel.studioKeyDownActs, hsecret, hprompt]
    rfl

theorem replaced_not_progress (b b' : Bridge) (hnext : b.nextTaskId = b.lastTask.taskId + 1)
    (h : Replaced b b') : ¬ Progress b.lastTask b'.lastTask := by
  intro hprogress
  have hid := progress_taskId _ _ hprogress
  rw [h.id, hnext] at hid
  have hone : (1 : UInt32) = 0 := by
    rwa [add_eq_left] at hid
  exact absurd hone (by decide)

/-- One step keeps an owed task exactly when it is safe. -/
theorem keeps_iff_safe (w : Watched) (input : Input) (h : Tracked w.kernel) :
    Keeps w input ↔ Safe w input := by
  constructor
  · intro hkeeps howed
    have hlost : ∀ hreplaced : Replaced w.kernel.system.bridge
        (w.kernel.step input).system.bridge, False :=
      fun hreplaced => replaced_not_progress _ _ h.next hreplaced (hkeeps howed)
    have hstep : (w.kernel.step input).system.bridge =
        (run Core.act w.kernel.core (w.kernel.acts input)).bridge :=
      congrArg Core.bridge (step_core w.kernel input)
    constructor
    · intro hasks
      obtain ⟨taskType, text, contextFlags, hacts⟩ := asks_acts w.kernel input h.ready hasks
      apply hlost
      rw [hstep, hacts]
      exact request_replaced w.kernel.core taskType text contextFlags h.serviced
    · intro hprompts hprompt
      exfalso
      apply hlost
      rw [hstep, prompts_acts w.kernel input h.ready hprompts]
      exact replaced_kept (promptEnter_replaced w.kernel.core h.serviced hprompt)
        (act_kept _ .sync rfl)
  · intro hsafe howed
    obtain ⟨hasks, hprompts⟩ := hsafe howed
    rcases step_slot w.kernel input h.serviced with hkept | ⟨hsubmits, -⟩
    · exact hkept.progress
    · exfalso
      rcases hsubmits with hask | ⟨hsend, hprompt⟩
      · exact hasks hask
      · obtain ⟨hrenders, hid, hsaved⟩ := hprompts hsend hprompt
        have hstudio :
            w.kernel.core.current = .aiStudio ∧ w.kernel.core.capturingPrompt = true := by
          cases input with
          | event event => exact ⟨hsend.2.1, hsend.2.2.2.2.2.2⟩
          | service arrived => exact hsend.elim
          | receive arrived => exact hsend.elim
        rcases howed.2 with hrunning | ⟨hdone, -⟩
        · exact h.modes.idle hstudio.2 hrunning
        · have hunsaved : w.kernel.core.unsaved = true := by
            unfold Core.unsaved
            simp only [Bool.and_eq_true, beq_iff_eq, bne_iff_ne]
            exact ⟨⟨⟨howed.1, hid⟩, hdone⟩, hsaved⟩
          have hsynced := h.synced hstudio.1 hrenders
          exact absurd (hsynced.symm.trans hunsaved) Bool.false_ne_true

/-- In every run of the kernel, the owed tasks stay in the slot at every step
exactly when every step is safe. -/
theorem no_request_lost_iff (k : Kernel) (inputs : List Input) :
    Along Watched.step Keeps ⟨k.boot, false⟩ inputs ↔
      Along Watched.step Safe ⟨k.boot, false⟩ inputs := by
  have hstep : ∀ (P : Watched → Input → Prop) w input, Tracked w.kernel → P w input →
      Tracked (w.step input).kernel := fun _ w input h _ => step_tracked w.kernel input h
  constructor
  · exact along_of_invariant Watched.step Keeps Safe (fun w => Tracked w.kernel) (hstep Keeps)
      (fun w input h => (keeps_iff_safe w input h).mp) _ inputs (boot_tracked k)
  · exact along_of_invariant Watched.step Safe Keeps (fun w => Tracked w.kernel) (hstep Safe)
      (fun w input h => (keeps_iff_safe w input h).mpr) _ inputs (boot_tracked k)

theorem run_kernel (w : Watched) (inputs : List Input) :
    (run Watched.step w inputs).kernel = run Kernel.step w.kernel inputs := by
  induction inputs generalizing w with
  | nil => rfl
  | cons input inputs ih => exact ih (w.step input)

def askingInputs : List Input :=
  (keyEvents 53 ++ keyEvents 103 ++ keyEvents 97 ++ enterEvents ++
    [{ UiEvent.init .keyDown with keyCode := keyEscape }] ++ keyEvents 49 ++
    (ascii "ai help").flatMap keyEvents).map Input.event

def enterInput : Input := .event { UiEvent.init .keyDown with keyCode := keyEnter }

theorem request_lost :
    let w := run Watched.step ⟨powerOn.boot, false⟩ askingInputs
    w.task.taskType = .hnlang ∧ w.task.status = .running ∧
      (w.step enterInput).task.taskType = .help ∧
      ¬ Along Watched.step Keeps ⟨powerOn.boot, false⟩ (askingInputs ++ [enterInput]) := by
  have hrunning : (run Kernel.step powerOn.boot askingInputs).system.bridge.lastTask.taskType =
        .hnlang ∧
      (run Kernel.step powerOn.boot askingInputs).system.bridge.lastTask.status = .running ∧
      (run Kernel.step powerOn.boot askingInputs).system.bridge.lastTask.taskId = 1 := by
    decide +kernel
  have hlost : ((run Kernel.step powerOn.boot askingInputs).step
        enterInput).system.bridge.lastTask.taskType = .help ∧
      ((run Kernel.step powerOn.boot askingInputs).step
        enterInput).system.bridge.lastTask.taskId = 2 := by
    decide +kernel
  intro w
  have hw : run Watched.step ⟨powerOn.boot, false⟩ askingInputs = w := rfl
  have hkernel : w.kernel = run Kernel.step powerOn.boot askingInputs := run_kernel _ _
  clear_value w
  rw [← hkernel] at hrunning hlost
  refine ⟨hrunning.1, hrunning.2.1, hlost.1, ?_⟩
  intro hkeeps
  rw [along_append, hw] at hkeeps
  have hprogress : Progress w.task (w.step enterInput).task :=
    hkeeps.2.1 ⟨hrunning.1, .inl hrunning.2.1⟩
  have hsame : (w.step enterInput).task.taskId = w.task.taskId := progress_taskId _ _ hprogress
  have hafter : (w.step enterInput).task.taskId = 2 := hlost.2
  have hbefore : w.task.taskId = 1 := hrunning.2.2
  rw [hafter, hbefore] at hsame
  exact absurd hsame (by decide)

end Hnmos
