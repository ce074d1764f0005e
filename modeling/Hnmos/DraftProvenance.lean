import Mathlib
import Hnmos.ActBatches
import Hnmos.Desktop
import Hnmos.TaskLifecycle

/-!
# Where the draft comes from

The draft is written when AI Studio is rendered and the slot holds a finished
HNLang task that has not been saved. While fewer than 2 ^ 32 - 1 requests have
been submitted the identifiers of the tasks increase, so the identifier saved
last is never ahead of the slot and no task is saved twice.
-/

set_option autoImplicit false

namespace Hnmos
open Hnmos.CString Hnmos.Task Hnmos.SerialTransport Hnmos.AiBridge Hnmos.AiSession
open Hnmos.Workspace Hnmos.Events Hnmos.Transition

def Core.submissions (c : Core) : Act → ℕ
  | .promptEnter => if c.prompt.chars = [] then 0 else 1
  | .request .. => 1
  | _ => 0

def Core.submissionsOf (c : Core) : List Act → ℕ
  | [] => 0
  | act :: acts => c.submissions act + (c.act act).submissionsOf acts

def Kernel.submissions (k : Kernel) : List Input → ℕ
  | [] => 0
  | input :: inputs => k.core.submissionsOf (k.acts input) + (k.step input).submissions inputs

/-- The step has written the complete answer of the finished HNLang task that
is in the slot. -/
structure Saved (k k' : Kernel) : Prop where
  hnlang : k'.system.bridge.lastTask.taskType = .hnlang
  done : k'.system.bridge.lastTask.status = .done
  provider : k'.system.bridge.lastProvider = some .serial
  draft : k'.system.files.draft = k'.system.bridge.lastTask.output
  stored : k'.system.files.stored =
    k.system.files.stored ++ [k'.system.bridge.lastTask.output]

def Kernel.savedIds (k : Kernel) : List Input → List UInt32
  | [] => []
  | input :: inputs =>
    if (k.step input).system.files.stored.length = k.system.files.stored.length then
      (k.step input).savedIds inputs
    else (k.step input).system.bridge.lastTask.taskId :: (k.step input).savedIds inputs

/-- The slot and the last saved identifier after a number of submissions. -/
structure Provenance (submitted : ℕ) (c : Core) : Prop where
  serviced : Serviced c
  next : c.bridge.nextTaskId.toNat = submitted + 1
  last : c.bridge.lastTask.taskId.toNat ≤ submitted
  saved : c.savedTaskId.toNat ≤ c.bridge.lastTask.taskId.toNat
  provider : c.bridge.lastTask.taskType = .hnlang → c.bridge.lastProvider = some .serial

theorem boot_provenance (k : Kernel) : Provenance 0 k.boot.core := by
  have hserviced := boot_serviced k
  rw [boot_core] at hserviced ⊢
  exact ⟨hserviced, rfl, le_refl _, le_refl _, fun h => nomatch h⟩

theorem provenance_kept (n : ℕ) (c d : Core) (h : Provenance n c) (hserviced : Serviced d)
    (hbridge : d.bridge = c.bridge) (hsaved : d.savedTaskId = c.savedTaskId) : Provenance n d := by
  refine ⟨hserviced, ?_, ?_, ?_, ?_⟩
  · rw [hbridge]
    exact h.next
  · rw [hbridge]
    exact h.last
  · rw [hbridge, hsaved]
    exact h.saved
  · rw [hbridge]
    exact h.provider

theorem submit_files (c : Core) (taskType : TaskType) (input : List UInt8) (contextFlags : UInt32) :
    (c.submit taskType input contextFlags).2.files = c.files ∧
      (c.submit taskType input contextFlags).2.savedTaskId = c.savedTaskId := by
  unfold Core.submit
  rcases c.bridge.submit c.transport c.port taskType (some input) contextFlags
    with ⟨accepted, bridge, port⟩
  exact ⟨rfl, rfl⟩

theorem poll_files (c : Core) (arrived : List UInt8) :
    (c.poll arrived).files = c.files ∧ (c.poll arrived).savedTaskId = c.savedTaskId := by
  unfold Core.poll
  rcases c.bridge.poll c.transport arrived with ⟨answered, bridge, transport⟩
  exact ⟨rfl, rfl⟩

theorem route_serviced (c : Core) (taskType : TaskType) (h : Serviced c) :
    c.bridge.route taskType = some (if taskType = .hnlang then .serial else .stub) := by
  rw [Bridge.route, if_pos h.ready, h.active, h.localProvider]
  split_ifs <;> rfl

theorem submit_provenance (n : ℕ) (c : Core) (taskType : TaskType) (input : List UInt8)
    (contextFlags : UInt32) (h : Provenance n c) (hn : n + 1 < 2 ^ 32 - 1) :
    Provenance (n + 1) (c.submit taskType input contextFlags).2 := by
  have hserviced := submit_serviced c taskType input contextFlags h.serviced
  have hfiles := submit_files c taskType input contextFlags
  have hroute := route_serviced c taskType h.serviced
  have hnext := h.next
  have hlast := h.last
  have hsaved := h.saved
  rcases submit_slot c.bridge c.transport c.port taskType (some input) contextFlags with
    ⟨hnone, -⟩ | ⟨provider, task, hsome, hsubmitted, hbridge⟩
  · rw [hroute] at hnone
    exact absurd hnone (by simp)
  · have hsame : (c.submit taskType input contextFlags).2.bridge =
        (c.bridge.submit c.transport c.port taskType (some input) contextFlags).2.1 := by
      unfold Core.submit
      rfl
    have hid : task.taskId = c.bridge.nextTaskId := by
      rw [TaskLifecycle.submitted_taskId _ _ _ hsubmitted, prepared_taskId]
    have htype : task.taskType = taskType := by
      rcases hsubmitted with ⟨-, rfl⟩ | ⟨-, rfl⟩ | ⟨-, output, rfl⟩
      · exact prepared_taskType _ _ _ _
      · exact prepared_taskType _ _ _ _
      · exact prepared_taskType _ _ _ _
    refine ⟨hserviced, ?_, ?_, ?_, ?_⟩
    · rw [hsame, hbridge]
      show (c.bridge.nextTaskId + 1).toNat = n + 1 + 1
      rw [UInt32.toNat_add, hnext]
      exact Nat.mod_eq_of_lt (by change n + 1 + 1 < 2 ^ 32; omega)
    · rw [hsame, hbridge]
      show task.taskId.toNat ≤ n + 1
      rw [hid, hnext]
    · rw [hsame, hbridge, hfiles.2]
      show c.savedTaskId.toNat ≤ task.taskId.toNat
      rw [hid, hnext]
      omega
    · rw [hsame, hbridge]
      show task.taskType = .hnlang → some provider = some .serial
      rw [htype, ← hsome, hroute]
      intro hhnlang
      rw [if_pos hhnlang]

theorem poll_provenance (n : ℕ) (c : Core) (arrived : List UInt8) (h : Provenance n c) :
    Provenance n (c.poll arrived) := by
  have hserviced := poll_serviced c arrived h.serviced
  have hfiles := poll_files c arrived
  have hsame : (c.poll arrived).bridge = (c.bridge.poll c.transport arrived).2.1 := by
    unfold Core.poll
    rfl
  rcases poll_slot c.bridge c.transport arrived with
    ⟨-, hbridge⟩ | ⟨-, -, output, status, -, hbridge⟩
  · exact provenance_kept n c _ h hserviced (hsame.trans hbridge) hfiles.2
  · rw [hbridge] at hsame
    refine ⟨hserviced, ?_, ?_, ?_, ?_⟩
    · rw [hsame]
      exact h.next
    · rw [hsame]
      exact h.last
    · rw [hsame, hfiles.2]
      exact h.saved
    · rw [hsame]
      exact h.provider

theorem cancel_provenance (n : ℕ) (c : Core) (h : Provenance n c) :
    Provenance n (c.act .cancelTask) := by
  have hserviced := act_serviced c .cancelTask h.serviced
  have hsame : (c.act .cancelTask).bridge = c.bridge.cancel.2 := rfl
  rcases cancel_slot c.bridge with ⟨-, hcancel⟩ | ⟨-, hcancel⟩
  · rw [hcancel] at hsame
    exact provenance_kept n c _ h hserviced hsame rfl
  · rw [hcancel] at hsame
    refine ⟨hserviced, ?_, ?_, ?_, ?_⟩
    · rw [hsame]
      exact h.next
    · rw [hsame]
      exact h.last
    · rw [hsame]
      exact h.saved
    · rw [hsame]
      exact h.provider

theorem cancelCapture_kept (c : Core) :
    c.cancelCapture.bridge = c.bridge ∧ c.cancelCapture.savedTaskId = c.savedTaskId ∧
      c.cancelCapture.files = c.files := by
  unfold Core.cancelCapture
  split_ifs <;> exact ⟨rfl, rfl, rfl⟩

theorem leave_kept (c : Core) :
    c.leave.bridge = c.bridge ∧ c.leave.savedTaskId = c.savedTaskId ∧ c.leave.files = c.files := by
  unfold Core.leave
  split_ifs
  · exact cancelCapture_kept c
  · exact ⟨rfl, rfl, rfl⟩

theorem sync_provenance (n : ℕ) (c : Core) (h : Provenance n c) : Provenance n c.sync := by
  have hserviced := act_serviced c .sync h.serviced
  have hsame : c.act .sync = c.sync := rfl
  rw [hsame] at hserviced
  unfold Core.sync at hserviced ⊢
  split_ifs at hserviced ⊢
  · exact ⟨hserviced, h.next, h.last, le_refl _, h.provider⟩
  · exact h

theorem act_provenance (n : ℕ) (c : Core) (act : Act) (h : Provenance n c)
    (hn : n + c.submissions act < 2 ^ 32 - 1) :
    Provenance (n + c.submissions act) (c.act act) := by
  have hserviced := act_serviced c act h.serviced
  cases act with
  | generate =>
    unfold Core.act at hserviced ⊢
    simp only at hserviced ⊢
    split_ifs at hserviced ⊢
    · exact h
    · obtain ⟨hbridge, hsaved, -⟩ := cancelCapture_kept c
      exact provenance_kept n c _ h hserviced hbridge hsaved
  | promptEnter =>
    unfold Core.act at hserviced ⊢
    simp only [Core.submissions] at hn hserviced ⊢
    by_cases hempty : c.prompt.chars = []
    · simp only [if_pos hempty]
      exact h
    · simp only [if_neg hempty] at hn hserviced ⊢
      have hsubmit := submit_provenance n c .hnlang c.prompt.chars 16 h hn
      rcases hs : c.submit .hnlang c.prompt.chars 16 with ⟨accepted, d⟩
      rw [hs] at hsubmit hserviced
      cases accepted with
      | true => exact provenance_kept (n + 1) d _ hsubmit hserviced rfl rfl
      | false => exact hsubmit
  | cancelTask => exact cancel_provenance n c h
  | sync => exact sync_provenance n c h
  | goto screen =>
    obtain ⟨hbridge, hsaved, -⟩ := leave_kept c
    exact provenance_kept n c _ h hserviced hbridge hsaved
  | request taskType input contextFlags =>
    have hsubmit := submit_provenance n c taskType input contextFlags h hn
    unfold Core.act
    simp only [Core.submissions]
    rcases hs : c.submit taskType input contextFlags with ⟨accepted, d⟩
    rw [hs] at hsubmit
    cases accepted with
    | true => exact poll_provenance (n + 1) d [] hsubmit
    | false => exact hsubmit
  | poll arrived => exact poll_provenance n c arrived h
  | subscription | apiKey | secretChar | secretBackspace | secretEnter | promptChar
  | promptBackspace | receive | halt => exact provenance_kept n c _ h hserviced rfl rfl

theorem act_files (c : Core) (act : Act) (h : act ≠ .sync) :
    (c.act act).files = c.files ∧ (c.act act).savedTaskId = c.savedTaskId := by
  cases act with
  | sync => exact absurd rfl h
  | generate =>
    unfold Core.act
    simp only
    split_ifs
    · exact ⟨rfl, rfl⟩
    · exact ⟨(cancelCapture_kept c).2.2, (cancelCapture_kept c).2.1⟩
  | promptEnter =>
    have hsubmit := submit_files c .hnlang c.prompt.chars 16
    unfold Core.act
    simp only
    split_ifs
    · exact ⟨rfl, rfl⟩
    · rcases hs : c.submit .hnlang c.prompt.chars 16 with ⟨accepted, d⟩
      rw [hs] at hsubmit
      cases accepted with
      | true => exact hsubmit
      | false => exact hsubmit
  | goto screen => exact ⟨(leave_kept c).2.2, (leave_kept c).2.1⟩
  | request taskType input contextFlags =>
    have hsubmit := submit_files c taskType input contextFlags
    unfold Core.act
    simp only
    rcases hs : c.submit taskType input contextFlags with ⟨accepted, d⟩
    rw [hs] at hsubmit
    cases accepted with
    | true =>
      obtain ⟨hfiles, hsaved⟩ := poll_files d []
      exact ⟨hfiles.trans hsubmit.1, hsaved.trans hsubmit.2⟩
    | false => exact hsubmit
  | poll arrived => exact poll_files c arrived
  | subscription | apiKey | secretChar | secretBackspace | secretEnter | promptChar
  | promptBackspace | cancelTask | receive | halt => exact ⟨rfl, rfl⟩

def Act.isSync : Act → Bool
  | .sync => true
  | _ => false

/-- An input renders last. -/
def syncsLast : List Act → Bool
  | [] => true
  | act :: acts => if act.isSync then acts.all Act.isSync else syncsLast acts

theorem syncsLast_pair (act : Act) : syncsLast [act, .sync] = true := by
  cases act <;> rfl

theorem batch_last (acts : List Act) (h : Batch acts) : syncsLast acts = true := by
  cases h with
  | none => rfl
  | halt => rfl
  | leave screen => rfl
  | shown => rfl
  | edit act => exact syncsLast_pair act

theorem acts_last (k : Kernel) (input : Input) : syncsLast (k.acts input) = true := by
  have hacts := acts_cases k input
  generalize k.acts input = acts at hacts
  cases hacts with
  | batch h => exact batch_last acts h
  | asked => rfl
  | prompted => rfl
  | received => rfl
  | polled => rfl

structure Wrote (c d : Core) : Prop where
  hnlang : d.bridge.lastTask.taskType = .hnlang
  done : d.bridge.lastTask.status = .done
  draft : d.files.draft = d.bridge.lastTask.output
  stored : d.files.stored = c.files.stored ++ [d.bridge.lastTask.output]
  id : d.savedTaskId = d.bridge.lastTask.taskId
  later : c.savedTaskId.toNat < d.savedTaskId.toNat

theorem sync_wrote (n : ℕ) (c : Core) (h : Provenance n c) : c.sync = c ∨ Wrote c c.sync := by
  have hwrite := write_main c.files c.bridge.lastTask.output h.serviced.files
  rw [Core.sync, hwrite]
  by_cases hsync : c.renders = true ∧ c.unsaved = true ∧ (true, { c.files with
      draft := c.bridge.lastTask.output
      stored := c.files.stored ++ [c.bridge.lastTask.output] }).1 = true
  · right
    rw [if_pos hsync]
    have hunsaved := hsync.2.1
    simp only [Core.unsaved, Bool.and_eq_true, beq_iff_eq, bne_iff_ne] at hunsaved
    obtain ⟨⟨⟨htype, _⟩, hdone⟩, hne⟩ := hunsaved
    refine ⟨htype, hdone, rfl, rfl, rfl, ?_⟩
    have hle := h.saved
    have hneq : c.savedTaskId.toNat ≠ c.bridge.lastTask.taskId.toNat :=
      fun heq => hne (UInt32.toNat_inj.mp heq).symm
    show c.savedTaskId.toNat < c.bridge.lastTask.taskId.toNat
    omega
  · left
    rw [if_neg hsync]

theorem sync_sync (c : Core) : c.sync.sync = c.sync := by
  by_cases h : c.renders = true ∧ c.unsaved = true ∧
      (c.files.writeHnlangDraft mainPath c.bridge.lastTask.output.chars).1 = true
  · have hsync : c.sync = { c with
        files := (c.files.writeHnlangDraft mainPath c.bridge.lastTask.output.chars).2
        savedTaskId := c.bridge.lastTask.taskId } := if_pos h
    have hsaved : c.sync.unsaved = false := by
      rw [hsync]
      simp [Core.unsaved]
    rw [Core.sync, if_neg]
    intro hagain
    rw [hsaved] at hagain
    exact absurd hagain.2.1 Bool.false_ne_true
  · have hsync : c.sync = c := if_neg h
    rw [hsync, hsync]

theorem run_syncs (c : Core) (acts : List Act) (h : acts.all Act.isSync = true) :
    run Core.act c.sync acts = c.sync := by
  induction acts with
  | nil => rfl
  | cons act acts ih =>
    rw [List.all_cons, Bool.and_eq_true] at h
    have hact : act = .sync := by
      cases act <;> first | rfl | exact absurd h.1 Bool.false_ne_true
    rw [run_cons, hact]
    show run Core.act c.sync.sync acts = c.sync
    rw [sync_sync]
    exact ih h.2

theorem syncs_submit (c : Core) (acts : List Act) (h : acts.all Act.isSync = true) :
    c.submissionsOf acts = 0 := by
  induction acts generalizing c with
  | nil => rfl
  | cons act acts ih =>
    rw [List.all_cons, Bool.and_eq_true] at h
    have hact : c.submissions act = 0 := by
      cases act <;> first | rfl | exact absurd h.1 Bool.false_ne_true
    rw [Core.submissionsOf, hact, ih _ h.2]

/-- What the acts of one input do to the draft. -/
theorem run_wrote (n : ℕ) (c : Core) (acts : List Act) (hlast : syncsLast acts = true)
    (h : Provenance n c) (hn : n + c.submissionsOf acts < 2 ^ 32 - 1) :
    Provenance (n + c.submissionsOf acts) (run Core.act c acts) ∧
      (((run Core.act c acts).files = c.files ∧
          (run Core.act c acts).savedTaskId = c.savedTaskId) ∨
        Wrote c (run Core.act c acts)) := by
  induction acts generalizing c n with
  | nil => exact ⟨h, .inl ⟨rfl, rfl⟩⟩
  | cons act acts ih =>
    rw [syncsLast] at hlast
    split_ifs at hlast with hsync
    · have hact : act = .sync := by
        cases act <;> first | rfl | exact absurd hsync Bool.false_ne_true
      subst hact
      have hrun : run Core.act c (.sync :: acts) = c.sync := run_syncs c acts hlast
      have hnone : c.submissionsOf (.sync :: acts) = 0 :=
        syncs_submit c (.sync :: acts) (by simpa [Act.isSync] using hlast)
      rw [hrun, hnone]
      refine ⟨sync_provenance n c h, ?_⟩
      rcases sync_wrote n c h with hsame | hwrote
      · rw [hsame]
        exact .inl ⟨rfl, rfl⟩
      · exact .inr hwrote
    · rw [Core.submissionsOf] at hn ⊢
      have hact := act_provenance n c act h (by omega)
      have hne : act ≠ .sync := by
        rintro rfl
        exact hsync rfl
      obtain ⟨hfiles, hsaved⟩ := act_files c act hne
      obtain ⟨hprovenance, hwrote⟩ := ih (n + c.submissions act) (c.act act) hlast hact (by omega)
      rw [run_cons, ← Nat.add_assoc]
      refine ⟨hprovenance, ?_⟩
      rcases hwrote with ⟨hsame, hid⟩ | hwrote
      · exact .inl ⟨hsame.trans hfiles, hid.trans hsaved⟩
      · right
        exact ⟨hwrote.hnlang, hwrote.done, hwrote.draft, hfiles ▸ hwrote.stored, hwrote.id,
          hsaved ▸ hwrote.later⟩

theorem step_wrote (n : ℕ) (k : Kernel) (input : Input) (h : Provenance n k.core)
    (hn : n + k.core.submissionsOf (k.acts input) < 2 ^ 32 - 1) :
    Provenance (n + k.core.submissionsOf (k.acts input)) (k.step input).core ∧
      (((k.step input).core.files = k.core.files ∧
          (k.step input).core.savedTaskId = k.core.savedTaskId) ∨
        Wrote k.core (k.step input).core) := by
  rw [step_core]
  exact run_wrote n k.core (k.acts input) (acts_last k input) h hn

theorem submissions_append (k : Kernel) (inputs more : List Input) :
    k.submissions (inputs ++ more) =
      k.submissions inputs + (run Kernel.step k inputs).submissions more := by
  induction inputs generalizing k with
  | nil => exact (Nat.zero_add _).symm
  | cons input inputs ih =>
    rw [List.cons_append, Kernel.submissions, ih, Kernel.submissions, run_cons, Nat.add_assoc]

theorem run_provenance (n : ℕ) (k : Kernel) (inputs : List Input) (h : Provenance n k.core)
    (hn : n + k.submissions inputs < 2 ^ 32 - 1) :
    Provenance (n + k.submissions inputs) (run Kernel.step k inputs).core := by
  induction inputs generalizing k n with
  | nil => exact h
  | cons input inputs ih =>
    rw [Kernel.submissions, ← Nat.add_assoc] at hn ⊢
    have hstep := (step_wrote n k input h (by omega)).1
    exact ih _ _ hstep hn

theorem wrote_saved (n : ℕ) (k k' : Kernel) (h : Provenance n k'.core)
    (hwrote : Wrote k.core k'.core) : Saved k k' :=
  ⟨hwrote.hnlang, hwrote.done, h.provider hwrote.hnlang, hwrote.draft, hwrote.stored⟩

theorem savedIds_increase (n : ℕ) (k : Kernel) (inputs : List Input) (h : Provenance n k.core)
    (hn : n + k.submissions inputs < 2 ^ 32 - 1) :
    (k.savedIds inputs).Pairwise (fun a b => a.toNat < b.toNat) ∧
      ∀ id ∈ k.savedIds inputs, k.system.studio.savedTaskId.toNat < id.toNat := by
  induction inputs generalizing k n with
  | nil => exact ⟨List.Pairwise.nil, nofun⟩
  | cons input inputs ih =>
    rw [Kernel.submissions, ← Nat.add_assoc] at hn
    obtain ⟨hstep, hwrote⟩ := step_wrote n k input h (by omega)
    obtain ⟨hsorted, hlater⟩ := ih _ _ hstep hn
    rw [Kernel.savedIds]
    rcases hwrote with ⟨hfiles, hsaved⟩ | hwrote
    · have hsame : (k.step input).system.files.stored.length = k.system.files.stored.length :=
        congrArg (fun f => f.stored.length) hfiles
      have hid : (k.step input).system.studio.savedTaskId = k.system.studio.savedTaskId := hsaved
      rw [if_pos hsame]
      rw [hid] at hlater
      exact ⟨hsorted, hlater⟩
    · have hgrown : (k.step input).system.files.stored = k.system.files.stored ++
          [(k.step input).system.bridge.lastTask.output] := hwrote.stored
      have hid : (k.step input).system.studio.savedTaskId =
          (k.step input).system.bridge.lastTask.taskId := hwrote.id
      have hnext : k.system.studio.savedTaskId.toNat <
          (k.step input).system.studio.savedTaskId.toNat := hwrote.later
      rw [if_neg (by rw [hgrown, List.length_append]; simp)]
      rw [hid] at hlater hnext
      refine ⟨List.pairwise_cons.mpr ⟨hlater, hsorted⟩, ?_⟩
      intro id hmem
      rcases List.mem_cons.mp hmem with rfl | hmem
      · exact hnext
      · exact hnext.trans (hlater id hmem)

/-- In every run with fewer than 2 ^ 32 - 1 submissions, a step leaves the
file system as it is or writes the complete answer of the finished HNLang task
in the slot, which came over the serial provider; and no task is written twice. -/
theorem draft_provenance (k : Kernel) (inputs : List Input)
    (hbound : k.boot.submissions inputs < 2 ^ 32 - 1) :
    (∀ before input after, inputs = before ++ input :: after →
      let s := run Kernel.step k.boot before
      (s.step input).system.files = s.system.files ∨ Saved s (s.step input)) ∧
    (k.boot.savedIds inputs).Nodup := by
  have hboot := boot_provenance k
  constructor
  · intro before input after hsplit s
    rw [hsplit, submissions_append, Kernel.submissions] at hbound
    have hbefore := run_provenance 0 k.boot before hboot (by omega)
    rw [Nat.zero_add] at hbefore
    obtain ⟨hstep, hwrote⟩ := step_wrote _ s input hbefore (by
      rw [← Nat.add_assoc] at hbound
      exact Nat.lt_of_le_of_lt (Nat.le_add_right _ _) hbound)
    rcases hwrote with ⟨hfiles, _⟩ | hwrote
    · exact .inl hfiles
    · exact .inr (wrote_saved _ s (s.step input) hstep hwrote)
  · have hsorted := (savedIds_increase 0 k.boot inputs hboot (by omega)).1
    exact hsorted.imp fun {a b} hlt heq => absurd (congrArg UInt32.toNat heq) hlt.ne

def answeredInputs : List Input :=
  (keyEvents 53 ++ keyEvents 103 ++ keyEvents 97 ++ enterEvents).map Input.event ++
    [.service (ascii "HNAI1|RES|00000001|S|61\n"), .event (UiEvent.init .mouseMove)]

theorem draft_provenance_answered :
    (powerOn.boot.savedIds answeredInputs).Nodup ∧
      powerOn.boot.savedIds answeredInputs = [1] := by
  have hone : powerOn.boot.submissions answeredInputs = 1 := by decide +kernel
  refine ⟨(draft_provenance powerOn answeredInputs (by rw [hone]; norm_num)).2, ?_⟩
  decide +kernel

end Hnmos
