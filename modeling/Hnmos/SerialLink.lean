import Mathlib
import Hnmos.ResponseFrame
import Hnmos.Transition

/-!
# Guest and host on one line

The bridge with its transport, the host that answers requests in order, and
the bytes between them. A captured byte is recorded with a flag that says
whether the receive buffer stored or dropped it; `base` is the number of
frames the host had sent when the task slot was last filled. `Wired` holds in
every run, `Booked` as long as task identifiers have not wrapped.
-/

set_option autoImplicit false

namespace Hnmos.SerialLink
open Hnmos.CString Hnmos.RingBuffer Hnmos.Task Hnmos.SerialPort Hnmos.SerialTransport
open Hnmos.AiBridge Hnmos.HostBridge Hnmos.ResponseFrame Hnmos.Transition

structure Link where
  bridge : Bridge
  transport : Transport
  port : Uart
  requests : List UInt32
  sent : List Frame
  wire : List UInt8
  captured : List (UInt8 × Bool)
  submissions : ℕ
  base : ℕ

def Link.init (u : Uart) : Link :=
  ⟨Bridge.init, Transport.init, u, [], [], [], [], 0, 0⟩

inductive LinkOp where
  | submit (input : Option (List UInt8)) (contextFlags : UInt32)
  | cancel
  | answer (success : Bool) (text : Str)
  | errorFrame (text : Str)
  | capture (n : ℕ)
  | poll (n : ℕ)

/-- A successful submission has put a request on the line, and the host will
answer it in its turn. -/
def Link.submit (s : Link) (input : Option (List UInt8)) (contextFlags : UInt32) : Link :=
  match s.bridge.submit s.transport s.port .hnlang input contextFlags with
  | (accepted, bridge, port) =>
    { s with
      bridge := bridge
      port := port
      requests := if accepted then s.requests ++ [bridge.lastTask.taskId] else s.requests
      submissions := s.submissions + 1
      base := s.sent.length }

def Link.send (s : Link) (f : Frame) : Link :=
  { s with sent := s.sent ++ [f], wire := s.wire ++ f.bytes }

def Link.answer (s : Link) (success : Bool) (text : Str) : Link :=
  match s.requests with
  | [] => s
  | id :: requests => ({ s with requests := requests } : Link).send ⟨id, success, text⟩

def Link.capture (s : Link) (n : ℕ) : Link :=
  { s with
    transport := s.transport.captureRx (s.wire.take n)
    wire := s.wire.drop n
    captured := s.captured ++ s.transport.rx.storing (s.wire.take n) }

def Link.reaches (s : Link) : Bool :=
  s.bridge.ready && s.bridge.lastProvider == some .serial &&
    s.bridge.lastTask.status == .running && s.transport.ready

/-- A poll captures the bytes it finds on the line before it looks at the
buffer. -/
def Link.poll (s : Link) (n : ℕ) : Bool × Link :=
  match s.bridge.poll s.transport (s.wire.take n) with
  | (answered, bridge, transport) =>
    let t := if s.reaches then s.capture n else s
    (answered, { t with bridge := bridge, transport := transport })

def step (s : Link) : LinkOp → Link
  | .submit input contextFlags => s.submit input contextFlags
  | .cancel => { s with bridge := s.bridge.cancel.2 }
  | .answer success text => s.answer success text
  | .errorFrame text => s.send ⟨0, false, text⟩
  | .capture n => s.capture n
  | .poll n => (s.poll n).2

def NulFree : LinkOp → Prop
  | .answer _ text => 0 ∉ text
  | .errorFrame text => 0 ∉ text
  | _ => True

def sentIds (fs : List Frame) : List UInt32 := (fs.map Frame.id).filter (· != 0)

structure Wired (s : Link) : Prop where
  bridgeReady : s.bridge.ready = true
  active : s.bridge.activeProvider = some .serial
  transportReady : s.transport.ready = true
  provider : s.bridge.lastProvider = some .serial ∨ s.bridge.lastTask.status = .empty
  issued : s.base ≤ s.sent.length

structure Booked (s : Link) : Prop extends Wired s where
  next : s.bridge.nextTaskId.toNat = s.submissions + 1
  current : s.bridge.lastTask.taskId.toNat = s.submissions
  started : s.bridge.lastTask.status = .running → 0 < s.submissions
  unique : (sentIds s.sent ++ s.requests).Nodup
  range : ∀ id ∈ sentIds s.sent ++ s.requests, 1 ≤ id.toNat ∧ id.toNat ≤ s.submissions
  earlier : ∀ f ∈ s.sent.take s.base, f.id.toNat < s.submissions
  texts : ∀ f ∈ s.sent, 0 ∉ f.text

theorem init_wired (u : Uart) : Wired (Link.init u) where
  bridgeReady := rfl
  active := rfl
  transportReady := rfl
  provider := Or.inr rfl
  issued := le_rfl

theorem init_booked (u : Uart) : Booked (Link.init u) where
  toWired := init_wired u
  next := rfl
  current := rfl
  started := nofun
  unique := List.nodup_nil
  range := nofun
  earlier := nofun
  texts := nofun

theorem submit_wired (s : Link) (input : Option (List UInt8)) (contextFlags : UInt32)
    (h : Wired s) : Wired (s.submit input contextFlags) := by
  rw [Link.submit, submit_hnlang _ _ _ _ _ h.bridgeReady h.active]
  exact ⟨h.bridgeReady, h.active, h.transportReady, Or.inl rfl, le_rfl⟩

theorem sent_range (s : Link) (h : Booked s) (f : Frame) (hf : f ∈ s.sent) :
    f.id.toNat ≤ s.submissions := by
  by_cases hz : f.id = 0
  · rw [hz, UInt32.toNat_zero]
    exact Nat.zero_le _
  · have hmem : f.id ∈ sentIds s.sent :=
      List.mem_filter.mpr ⟨List.mem_map_of_mem hf, by simpa using hz⟩
    exact (h.range _ (List.mem_append_left _ hmem)).2

theorem submit_booked (s : Link) (input : Option (List UInt8)) (contextFlags : UInt32)
    (h : Booked s) (hbound : s.submissions + 1 < 2 ^ 32 - 1) :
    Booked (s.submit input contextFlags) := by
  have hwired := submit_wired s input contextFlags h.toWired
  have hcount : (s.bridge.nextTaskId + 1).toNat = s.submissions + 1 + 1 := by
    rw [UInt32.toNat_add, h.next]
    exact Nat.mod_eq_of_lt (by change s.submissions + 1 + 1 < 2 ^ 32; omega)
  have hid := (serialSubmitTask_taskId s.transport (s.bridge.prepared .hnlang input contextFlags)
    s.port).trans (prepared_taskId s.bridge .hnlang input contextFlags)
  rw [Link.submit, submit_hnlang _ _ _ _ _ h.bridgeReady h.active] at hwired ⊢
  generalize serialSubmitTask s.transport (s.bridge.prepared .hnlang input contextFlags) s.port =
    result at hid hwired ⊢
  obtain ⟨accepted, task, port⟩ := result
  simp only at hid hwired ⊢
  have hfresh : task.taskId ∉ sentIds s.sent ++ s.requests := by
    intro hmem
    have hle := (h.range _ hmem).2
    rw [hid, h.next] at hle
    omega
  refine ⟨hwired, hcount, ?_, fun _ => Nat.succ_pos _, ?_, ?_, ?_, h.texts⟩
  · simp only [hid, h.next]
  · cases accepted with
    | false => exact h.unique
    | true =>
      simp only [if_true]
      rw [← List.append_assoc]
      exact List.Nodup.append h.unique (List.nodup_singleton _)
        (by simpa [List.disjoint_singleton] using hfresh)
  · intro id hmem
    have hcases : id ∈ sentIds s.sent ++ s.requests ∨ id = task.taskId := by
      cases accepted with
      | false => exact Or.inl hmem
      | true =>
        simp only [if_true] at hmem
        rw [← List.append_assoc, List.mem_append, List.mem_singleton] at hmem
        exact hmem
    rcases hcases with hold | rfl
    · have hrange := h.range id hold
      simp only
      omega
    · simp only [hid, h.next]
      omega
  · intro f hf
    exact Nat.lt_succ_of_le (sent_range s h f (List.mem_of_mem_take hf))

theorem cancel_wired (s : Link) (h : Wired s) :
    Wired { s with bridge := s.bridge.cancel.2 } := by
  rw [Bridge.cancel]
  split_ifs with hidle
  · exact h
  · refine ⟨h.bridgeReady, h.active, h.transportReady, Or.inl ?_, h.issued⟩
    rcases h.provider with hp | he
    · exact hp
    · exact absurd (by simp [he]) hidle

theorem cancel_booked (s : Link) (h : Booked s) :
    Booked { s with bridge := s.bridge.cancel.2 } := by
  have hwired := cancel_wired s h.toWired
  rw [Bridge.cancel] at hwired ⊢
  split_ifs at hwired ⊢
  · exact h
  · exact ⟨hwired, h.next, h.current, nofun, h.unique, h.range, h.earlier, h.texts⟩

theorem send_wired (s : Link) (f : Frame) (h : Wired s) : Wired (s.send f) :=
  ⟨h.bridgeReady, h.active, h.transportReady, h.provider, by
    rw [Link.send, List.length_append]
    exact le_trans h.issued (Nat.le_add_right _ _)⟩

theorem send_earlier (s : Link) (f : Frame) (h : Wired s) :
    (s.send f).sent.take (s.send f).base = s.sent.take s.base :=
  List.take_append_of_le_length h.issued

theorem answer_wired (s : Link) (success : Bool) (text : Str) (h : Wired s) :
    Wired (s.answer success text) := by
  rw [Link.answer]
  cases s.requests with
  | nil => exact h
  | cons id requests =>
    exact send_wired _ _ ⟨h.bridgeReady, h.active, h.transportReady, h.provider, h.issued⟩

theorem capture_wired (s : Link) (n : ℕ) (h : Wired s) : Wired (s.capture n) :=
  ⟨h.bridgeReady, h.active, h.transportReady, h.provider, h.issued⟩

theorem sentIds_append (fs : List Frame) (f : Frame) :
    sentIds (fs ++ [f]) = sentIds fs ++ if f.id = 0 then [] else [f.id] := by
  simp only [sentIds, List.map_append, List.filter_append, List.map_cons, List.map_nil]
  by_cases h : f.id = 0 <;> simp [h]

theorem answer_booked (s : Link) (success : Bool) (text : Str) (h : Booked s)
    (ht : 0 ∉ text) : Booked (s.answer success text) := by
  rw [Link.answer]
  cases hrequests : s.requests with
  | nil => exact h
  | cons id requests =>
    have hmem : id ∈ sentIds s.sent ++ s.requests := by simp [hrequests]
    have hrange := h.range id hmem
    have hne : id ≠ 0 := by
      rintro rfl
      simp at hrange
    have hids : sentIds (s.sent ++ [⟨id, success, text⟩]) ++ requests =
        sentIds s.sent ++ s.requests := by
      rw [sentIds_append, if_neg hne, hrequests, List.append_assoc, List.singleton_append]
    have hwired := answer_wired s success text h.toWired
    rw [Link.answer, hrequests] at hwired
    refine ⟨hwired, h.next, h.current, h.started, ?_, ?_, ?_, ?_⟩
    · change (sentIds (s.sent ++ [⟨id, success, text⟩]) ++ requests).Nodup
      rw [hids]
      exact h.unique
    · change ∀ i ∈ sentIds (s.sent ++ [⟨id, success, text⟩]) ++ requests, _
      rw [hids]
      exact h.range
    · change ∀ f ∈ (s.sent ++ [(⟨id, success, text⟩ : Frame)]).take s.base, _
      rw [List.take_append_of_le_length h.issued]
      exact h.earlier
    · intro f hf
      rcases List.mem_append.mp hf with hf | hf
      · exact h.texts f hf
      · rw [List.mem_singleton.mp hf]
        exact ht

theorem errorFrame_booked (s : Link) (text : Str) (h : Booked s) (ht : 0 ∉ text) :
    Booked (s.send ⟨0, false, text⟩) := by
  have hids : sentIds (s.send ⟨0, false, text⟩).sent = sentIds s.sent := by
    simp [Link.send, sentIds_append]
  refine ⟨send_wired s _ h.toWired, h.next, h.current, h.started, ?_, ?_, ?_, ?_⟩
  · rw [hids]
    exact h.unique
  · rw [hids]
    exact h.range
  · rw [send_earlier s _ h.toWired]
    exact h.earlier
  · intro f hf
    rcases List.mem_append.mp hf with hf | hf
    · exact h.texts f hf
    · rw [List.mem_singleton.mp hf]
      exact ht

theorem reaches_iff (s : Link) (h : Wired s) :
    s.reaches = true ↔ s.bridge.lastTask.status = .running := by
  rw [Link.reaches, h.bridgeReady, h.transportReady]
  constructor
  · intro hr
    simp only [Bool.true_and, Bool.and_true, Bool.and_eq_true, beq_iff_eq] at hr
    exact hr.2
  · intro hr
    rcases h.provider with hp | he
    · simp [hp, hr]
    · simp [he] at hr

theorem poll_idle (s : Link) (n : ℕ) (h : Wired s)
    (hidle : s.bridge.lastTask.status ≠ .running) : s.poll n = (false, s) := by
  have hreach : s.reaches = false := by
    rw [Bool.eq_false_iff, Ne, reaches_iff s h]
    exact hidle
  have hpoll : s.bridge.poll s.transport (s.wire.take n) = (false, s.bridge, s.transport) := by
    rw [Bridge.poll, if_pos h.bridgeReady]
    cases hp : s.bridge.lastProvider with
    | none => rfl
    | some provider =>
      cases provider with
      | serial =>
        simp only [Provider.pollTask, serialPollTask, if_pos hidle]
        rw [← hp]
      | stub =>
        rcases h.provider with hs | he
        · simp [hp] at hs
        · have hstub : stubPollTask s.bridge.lastTask = (false, s.bridge.lastTask) := by
            simp [stubPollTask, stubClosed, he]
          simp only [Provider.pollTask, hstub]
          rw [← hp]
  rw [Link.poll, hpoll, hreach]
  rfl

/-- A poll for a running task captures, then lets the loop consume what is
pending. -/
theorem poll_running (s : Link) (n : ℕ) (h : Wired s)
    (hrun : s.bridge.lastTask.status = .running) :
    ∃ rx : Ring UInt8 4096,
      rx.contents = (consume s.bridge.lastTask s.transport.line
        (s.capture n).transport.rx.contents).2.2 ∧
      s.poll n =
        ((consume s.bridge.lastTask s.transport.line
            (s.capture n).transport.rx.contents).1.isSome,
          { s.capture n with
            bridge := { s.bridge with
              lastTask := (consume s.bridge.lastTask s.transport.line
                (s.capture n).transport.rx.contents).1.getD s.bridge.lastTask }
            transport := { (s.capture n).transport with
              rx := rx
              line := (consume s.bridge.lastTask s.transport.line
                (s.capture n).transport.rx.contents).2.1 } }) := by
  have hp : s.bridge.lastProvider = some .serial := by
    rcases h.provider with hp | he
    · exact hp
    · simp [he] at hrun
  have hreach := (reaches_iff s h).mpr hrun
  have hpending := pending_lt (s.capture n).transport.rx
  obtain ⟨rx, hrx, _, hloop⟩ := pollLoop_consume 4096 (s.capture n).transport s.bridge.lastTask
    (by omega)
  refine ⟨rx, hrx, ?_⟩
  have hpoll : s.bridge.poll s.transport (s.wire.take n) =
      ((pollLoop 4096 (s.capture n).transport s.bridge.lastTask).1,
        { s.bridge with
          lastTask := (pollLoop 4096 (s.capture n).transport s.bridge.lastTask).2.2 },
        (pollLoop 4096 (s.capture n).transport s.bridge.lastTask).2.1) := by
    simp only [Bridge.poll, h.bridgeReady, hp, if_true, Provider.pollTask, serialPollTask, hrun,
      ne_eq, not_true_eq_false, if_false, Transport.poll, h.transportReady]
    rfl
  rw [Link.poll, hpoll, hreach, hloop]
  rfl

end Hnmos.SerialLink
