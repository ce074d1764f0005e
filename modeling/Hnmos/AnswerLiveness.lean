import Mathlib
import Hnmos.AnswerProvenance

/-!
# Every request is answered

Once the user leaves the machine alone, the reads of the host and the polls of
the main loop can only bring a request nearer to its end: the reads empty the
line to the host, the polls the line from it, and a poll that finds it empty
has found the answer on it. In whatever order they come, enough of both
finish the request.
-/

set_option autoImplicit false

namespace Hnmos.ClosedLoop
open Hnmos.AiBridge Hnmos.HostServe Hnmos.HostBridge Hnmos.HostService Hnmos.Task
open Hnmos.Transition Hnmos.RingBuffer Hnmos.SerialPort Hnmos.SerialLink Hnmos.Events

/-- An event of the machinery that moves at least one byte where there is one. -/
def Working : WorldEvent → Prop
  | .user _ => False
  | .service n => 0 < n
  | .receive _ => True
  | .host n _ => 0 < n

def isRead : WorldEvent → Bool
  | .host _ _ => true
  | _ => false

def isPoll : WorldEvent → Bool
  | .service _ => true
  | _ => false

structure Finished (task later : AiTask) : Prop where
  id : later.taskId = task.taskId
  status : later.status = .done ∨ later.status = .error

theorem halted_stays (w : World) (e : WorldEvent) (h : w.kernel.system.halted = true) :
    (w.step e).kernel.system.halted = true := by
  cases e with
  | user event => exact (congrArg (·.kernel.system.halted) (halted_guest w _ h)).trans h
  | service n => exact (congrArg (·.kernel.system.halted) (halted_guest w _ h)).trans h
  | receive n => exact (congrArg (·.kernel.system.halted) (halted_guest w _ h)).trans h
  | host n call => exact (congrArg (·.system.halted) (host_same w n call).1).trans h

theorem awake_back (w : World) (e : WorldEvent) (h : (w.step e).kernel.system.halted = false) :
    w.kernel.system.halted = false := by
  by_contra hhalted
  exact Bool.false_ne_true (h.symm.trans (halted_stays w e (Bool.eq_true_of_not_eq_false hhalted)))

theorem working_task (w : World) (e : WorldEvent) (hwork : Working e) :
    (w.step e).task = w.task ∨ Finished w.task (w.step e).task := by
  cases hhalted : w.kernel.system.halted with
  | true =>
    left
    cases e with
    | user event => exact hwork.elim
    | service n => exact congrArg World.task (halted_guest w _ hhalted)
    | receive n => exact congrArg World.task (halted_guest w _ hhalted)
    | host n call => exact congrArg (·.system.bridge.lastTask) (host_same w n call).1
  | false =>
    cases e with
    | user event => exact hwork.elim
    | service n =>
      have heffect := (service_effect w.kernel (w.wire.take n) hhalted).1
      rcases poll_slot w.kernel.system.bridge w.kernel.system.transport (w.wire.take n) with
        ⟨-, hsame⟩ | ⟨-, -, output, status, hstatus, hclosed⟩
      · exact .inl (congrArg Bridge.lastTask (heffect.trans hsame))
      · right
        have htask : (w.step (.service n)).task = closeTask w.task output status :=
          congrArg Bridge.lastTask (heffect.trans hclosed)
        rw [htask]
        exact ⟨rfl, hstatus⟩
    | receive n =>
      left
      show (w.kernel.step (.receive (w.wire.take n))).system.bridge.lastTask = _
      rw [Kernel.step, hhalted]
      rfl
    | host n call => exact .inl (congrArg (·.system.bridge.lastTask) (host_same w n call).1)

theorem working_run (w : World) (es : List WorldEvent) (hwork : ∀ e ∈ es, Working e) :
    (run World.step w es).task = w.task ∨ Finished w.task (run World.step w es).task := by
  induction es generalizing w with
  | nil => exact .inl rfl
  | cons e es ih =>
    have hlater := ih (w.step e) fun f hf => hwork f (List.mem_cons_of_mem e hf)
    rw [run_cons]
    rcases working_task w e (hwork e List.mem_cons_self) with hsame | hdone
    · rwa [hsame] at hlater
    · right
      rcases hlater with hsame | hagain
      · rw [hsame]
        exact hdone
      · exact ⟨hagain.id.trans hdone.id, hagain.status⟩

theorem running_unfinished (task later : AiTask) (hrun : later.status = .running) :
    ¬ Finished task later := by
  intro hdone
  rcases hdone.status with hstatus | hstatus <;>
    exact absurd (hstatus.symm.trans hrun) (by decide)

theorem running_task (w : World) (es : List WorldEvent) (hwork : ∀ e ∈ es, Working e)
    (hrun : (run World.step w es).task.status = .running) :
    (run World.step w es).task = w.task :=
  (working_run w es hwork).resolve_right (running_unfinished _ _ hrun)

theorem guest_unread (start : List UInt8) (apiKey : Str) (w : World) (input : Input)
    (hkept : Kept start apiKey w) (hnext : Kept start apiKey (w.guest input))
    (hgesture : w.kernel.gesture input = .none) : (w.guest input).unread = w.unread := by
  obtain ⟨_, _, hloop, -⟩ := hkept
  obtain ⟨_, _, hloop', -⟩ := hnext
  have heditor : (w.guest input).editor = w.editor := by
    show w.editor.step w.kernel.running (w.kernel.gesture input) = _
    rw [hgesture]
    rfl
  have hwritten := hloop'.edits.written
  rw [heditor, ← hloop.edits.written] at hwritten
  show (w.guest input).kernel.port.written.drop w.taken = _
  rw [show (w.guest input).kernel.port.written = w.kernel.port.written from hwritten]
  rfl

theorem working_unread (start : List UInt8) (apiKey : Str) (w : World) (e : WorldEvent)
    (hwork : Working e) (hkept : Kept start apiKey w) (hend : Undisturbed (w.step e)) :
    (w.step e).unread.length ≤ w.unread.length - if isRead e then 1 else 0 := by
  have hnext := step_kept start apiKey w e hkept hend
  cases e with
  | user event => exact hwork.elim
  | service n =>
    have hsame := guest_unread start apiKey w (.service (w.wire.take n)) hkept hnext (ite_self _)
    exact (congrArg List.length hsame).le
  | receive n =>
    have hsame := guest_unread start apiKey w (.receive (w.wire.take n)) hkept hnext (ite_self _)
    exact (congrArg List.length hsame).le
  | host n call =>
    have hmoved : 0 < min n 1024 := Nat.lt_min.mpr ⟨hwork, by decide⟩
    show (w.host n call).unread.length ≤ w.unread.length - 1
    rw [host_unread, List.length_drop]
    omega

theorem reads_empty (start : List UInt8) (apiKey : Str) (w : World) (es : List WorldEvent)
    (hwork : ∀ e ∈ es, Working e) (hkept : Kept start apiKey w)
    (hend : Undisturbed (run World.step w es)) :
    Kept start apiKey (run World.step w es) ∧
      (run World.step w es).unread.length ≤ w.unread.length - es.countP isRead := by
  induction es generalizing w with
  | nil => exact ⟨hkept, Nat.le_refl _⟩
  | cons e es ih =>
    have hmiddle : Undisturbed (w.step e) :=
      run_back World.step Undisturbed undisturbed_back (w.step e) es hend
    have he := hwork e List.mem_cons_self
    have hless := working_unread start apiKey w e he hkept hmiddle
    obtain ⟨hlast, hle⟩ := ih (w.step e) (fun f hf => hwork f (List.mem_cons_of_mem e hf))
      (step_kept start apiKey w e hkept hmiddle) hend
    refine ⟨hlast, hle.trans ?_⟩
    rw [List.countP_cons]
    omega

theorem poll_wire (start : List UInt8) (apiKey : Str) (w : World) (n : ℕ)
    (hkept : Kept start apiKey w) (hawake : w.kernel.system.halted = false)
    (hrun : w.task.status = .running) : (w.step (.service n)).wire = w.wire.drop n := by
  obtain ⟨done, waiting, hloop, htraced⟩ := hkept
  have hserviced := hloop.tracked.serviced
  have hprovider := htraced.provenance.provider (htraced.live hrun)
  have hlistens : listens w.kernel = true := by
    simp only [listens, Bool.and_eq_true, beq_iff_eq, Bool.not_eq_true']
    exact ⟨⟨⟨⟨hawake, hserviced.ready⟩, hprovider⟩, hrun⟩, hserviced.transport⟩
  have hcaptures : captures w.kernel (.service (w.wire.take n)) =
      w.kernel.system.transport.rx.storing (w.wire.take n) := if_pos hlistens
  show w.server.sent.drop (w.captured ++ captures w.kernel (.service (w.wire.take n))).length = _
  rw [hcaptures]
  exact wire_drop w _ n (storing_fst _ _)

theorem receive_wire (w : World) (n : ℕ) : (w.step (.receive n)).wire.length ≤ w.wire.length := by
  show (w.server.sent.drop (w.captured ++ _).length).length ≤ _
  rw [List.length_append, ← List.drop_drop, List.length_drop]
  exact Nat.sub_le _ _

theorem host_idle (w : World) (n : ℕ) (call : CallProvider) (hread : w.unread = []) :
    w.host n call = w := by
  apply dif_neg
  rw [hread, List.take_nil]
  exact not_not.mpr rfl

/-- When the host has nothing left to read, more polls than there are bytes on
the way finish a request, whatever comes between them. -/
theorem polls_finish (start : List UInt8) (apiKey : Str) (w : World) (es : List WorldEvent)
    (hwork : ∀ e ∈ es, Working e) (hkept : Kept start apiKey w)
    (hend : Undisturbed (run World.step w es))
    (hawake : (run World.step w es).kernel.system.halted = false) (hread : w.unread = [])
    (hpolls : w.wire.length < es.countP isPoll)
    (hrun : (run World.step w es).task.status = .running) :
    ∀ c ∈ (run World.step w es).task.input.chars, c = 32 := by
  induction es generalizing w with
  | nil => exact absurd hpolls (Nat.not_lt_zero _)
  | cons e es ih =>
    have he := hwork e List.mem_cons_self
    have hrest : ∀ f ∈ es, Working f := fun f hf => hwork f (List.mem_cons_of_mem e hf)
    have hmiddle : Undisturbed (w.step e) :=
      run_back World.step Undisturbed undisturbed_back (w.step e) es hend
    have hrunning : (w.step e).task.status = .running := by
      rw [← running_task (w.step e) es hrest hrun]
      exact hrun
    have hbefore : w.kernel.system.halted = false :=
      awake_back w e (run_back World.step (·.kernel.system.halted = false) awake_back _ es hawake)
    have hnext := step_kept start apiKey w e hkept hmiddle
    have hunread : (w.step e).unread = [] := by
      have hless := working_unread start apiKey w e he hkept hmiddle
      rw [hread] at hless
      exact List.eq_nil_of_length_eq_zero (Nat.le_zero.mp (hless.trans (Nat.sub_le _ _)))
    rw [List.countP_cons] at hpolls
    cases e with
    | user event => exact he.elim
    | service n =>
      have hstarted : w.task.status = .running := by
        rw [← (still_running w n [] hbefore hrunning).1]
        exact hrunning
      have hwire := poll_wire start apiKey w n hkept hbefore hstarted
      by_cases hempty : (w.step (.service n)).wire = []
      · rw [run_cons, running_task _ es hrest hrun]
        exact unanswered_blank start apiKey w n hkept hmiddle hbefore hread hempty hrunning
      · apply ih (w.step (.service n)) hrest hnext hend hawake hunread _ hrun
        have htaken : 0 < n := he
        have hlength := List.length_pos_iff.mpr hempty
        rw [hwire, List.length_drop] at hlength ⊢
        rw [show isPoll (.service n) = true from rfl, if_pos rfl] at hpolls
        omega
    | receive n =>
      apply ih (w.step (.receive n)) hrest hnext hend hawake hunread _ hrun
      exact (receive_wire w n).trans_lt hpolls
    | host n call =>
      have hsame : w.step (.host n call) = w := host_idle w n call hread
      rw [run_cons, hsame] at hend hawake hrun ⊢
      exact ih w hrest hkept hend hawake hread hpolls hrun

/-- Let a request be running when the user leaves the machine alone, and let
the receive buffer store every byte. If there come as many reads of the host as
it has bytes to read, and then more polls of the main loop than there are bytes
on the way back, in any order and with any interrupts between them, the request
is finished, unless its prompt is blank. -/
theorem answer_arrives (k : Kernel) (apiKey : Str) (es fs gs : List WorldEvent)
    (h : k.port.Reliable) (hwork : ∀ e ∈ fs ++ gs, Working e)
    (hend : Undisturbed (run World.step (World.boot k apiKey) (es ++ fs ++ gs)))
    (hawake : (run World.step (World.boot k apiKey) (es ++ fs ++ gs)).kernel.system.halted = false)
    (hreads : (run World.step (World.boot k apiKey) es).unread.length ≤ fs.countP isRead)
    (hpolls : (run World.step (World.boot k apiKey) (es ++ fs)).wire.length < gs.countP isPoll)
    (hrun : (run World.step (World.boot k apiKey) es).task.status = .running)
    (hblank : ¬ ∀ c ∈ (run World.step (World.boot k apiKey) es).task.input.chars, c = 32) :
    Finished (run World.step (World.boot k apiKey) es).task
      (run World.step (World.boot k apiKey) (es ++ fs ++ gs)).task := by
  rw [run_append] at hpolls
  rw [run_append, run_append] at hend hawake ⊢
  have hreading : ∀ e ∈ fs, Working e := fun e he => hwork e (List.mem_append_left _ he)
  have hpolling : ∀ e ∈ gs, Working e := fun e he => hwork e (List.mem_append_right _ he)
  have hmiddle := run_back World.step Undisturbed undisturbed_back _ gs hend
  have hstart := run_back World.step Undisturbed undisturbed_back _ fs hmiddle
  obtain ⟨hkept, hread⟩ :=
    reads_empty _ apiKey _ fs hreading (run_kept k apiKey es h hstart) hmiddle
  have hnone := List.eq_nil_of_length_eq_zero (Nat.le_zero.mp (hread.trans_eq
    (Nat.sub_eq_zero_of_le hreads)))
  have hall := working_run (run World.step (World.boot k apiKey) es) (fs ++ gs) hwork
  rw [run_append] at hall
  rcases hall with hsame | hdone
  · apply absurd _ hblank
    rw [← hsame] at hrun ⊢
    exact polls_finish _ apiKey _ gs hpolling hkept hend hawake hnone hpolls hrun
  · exact hdone

def heardWorld : World := (servedWorld 97).step (.receive 64)

theorem heard_run : run World.step (World.boot powerOn [])
    (typedPrompt 97 ++ [.host 1024 echoCall] ++ [.receive 64]) = heardWorld := by
  rw [run_append, served_run]
  rfl

theorem heard_wires : (servedWorld 97).wire = letterReply := by
  have hcaptured : (servedWorld 97).captured = [] := (host_same (typedWorld 97) 1024 echoCall).2.2
  rw [World.wire, hcaptured, (served_world 97 typed_letter).2, letter_reply]
  rfl

theorem heard_guest : heardWorld = (servedWorld 97).guest (.receive letterReply) := by
  have hlength : letterReply.length ≤ 64 := by decide +kernel
  rw [heardWorld, World.step, heard_wires, List.take_of_length_le hlength]

theorem receive_unread (w : World) (arrived : List UInt8) :
    (w.guest (.receive arrived)).unread = w.unread := by
  show (w.kernel.step (.receive arrived)).port.written.drop w.taken = _
  rw [Kernel.step]
  split_ifs <;> rfl

theorem heard_unread : heardWorld.unread = [] := by
  rw [heard_guest, receive_unread]
  exact (served_world 97 typed_letter).1

theorem heard_wire : heardWorld.wire = [] := by
  obtain ⟨-, -, hcaptured⟩ := served_guest 97 (.receive letterReply)
  have hall : ((typedWorld 97).guest (.receive letterReply)).captured.length =
      letterReply.length := by decide +kernel
  have hserver (w : World) (input : Input) : (w.guest input).server = w.server := rfl
  rw [World.wire, heard_guest, hserver, hcaptured, hall, (served_world 97 typed_letter).2,
    letter_reply, List.drop_length]

theorem heard_service :
    (heardWorld.step (.service 1)).kernel =
        (((typedWorld 97).guest (.receive letterReply)).guest (.service [])).kernel ∧
      (heardWorld.step (.service 1)).editor =
        (((typedWorld 97).guest (.receive letterReply)).guest (.service [])).editor ∧
      (heardWorld.step (.service 1)).captured =
        (((typedWorld 97).guest (.receive letterReply)).guest (.service [])).captured := by
  obtain ⟨hkernel, heditor, hcaptured⟩ := served_guest 97 (.receive letterReply)
  rw [World.step, heard_wire, heard_guest, List.take_nil]
  unfold World.guest at hkernel heditor hcaptured ⊢
  simp only at hkernel heditor hcaptured ⊢
  rw [hkernel, heditor, hcaptured]
  exact ⟨rfl, rfl, rfl⟩

theorem answer_arrives_letter :
    Finished heardWorld.task (heardWorld.step (.service 1)).task := by
  obtain ⟨hkernel, heditor, hcaptured⟩ := heard_service
  have hguest := (served_guest 97 (.receive letterReply)).1
  have harrives := answer_arrives powerOn []
    (typedPrompt 97 ++ [.host 1024 echoCall] ++ [.receive 64]) [] [.service 1] readyUart_reliable
  simp only [List.append_nil, run_append _ _ _ [WorldEvent.service 1], heard_run, run_cons,
    run_nil] at harrives
  apply harrives
  · intro e he
    rw [List.mem_singleton.mp he]
    exact Nat.one_pos
  · constructor
    · rw [heditor]
      decide +kernel
    · rw [hcaptured]
      decide +kernel
  · rw [hkernel]
    decide +kernel
  · rw [heard_unread]
    exact Nat.le_refl _
  · rw [heard_wire]
    exact Nat.one_pos
  · rw [heard_guest, World.task, hguest]
    decide +kernel
  · rw [heard_guest, World.task, hguest]
    decide +kernel

end Hnmos.ClosedLoop
