import Mathlib
import Hnmos.RequestParsing
import Hnmos.ResponseFrame

/-!
# From a prompt to its answer

One request goes out, the host handles its line, and the guest receives the
reply. The reply carries the identifier of the task unless the prompt is made
of spaces: the guest submits such a prompt, the host refuses it before it
knows the identifier, and the task waits for an answer that will not come.
-/

set_option autoImplicit false

namespace Hnmos.RequestReply
open Hnmos.CString Hnmos.RingBuffer Hnmos.Task Hnmos.SerialPort Hnmos.SerialTransport
open Hnmos.AiBridge Hnmos.HostBridge Hnmos.ResponseFrame

def Submittable (prompt : List UInt8) : Prop :=
  prompt ≠ [] ∧ prompt.length ≤ 159 ∧ ∀ c ∈ prompt, 32 ≤ c ∧ c ≤ 126

def outcome (call : CallProvider) (apiKey : Str) (prompt : List UInt8) : Except Str Str :=
  call (decodeUtf8 prompt) (decodeUtf8 hnlangAiSystemContract) apiKey

def replyFrame (call : CallProvider) (apiKey : Str) (taskId : UInt32) (prompt : List UInt8) :
    Frame :=
  if ∀ c ∈ prompt, c = 32 then ⟨0, false, str "empty prompt"⟩
  else
    match outcome call apiKey prompt with
    | .error e => ⟨taskId, false, e⟩
    | .ok output => ⟨taskId, true, output⟩

/-- The receiving side stands between two lines, whatever stale lines are
still pending, and has room for one more frame. -/
structure Receptive (t : Transport) (task : AiTask) : Prop where
  ready : t.ready = true
  boundary : (t.rx.contents.foldl lineStep t.line).text = []
  unanswered : (consume task t.line t.rx.contents).1 = none
  room : t.rx.contents.length + 1822 ≤ 4095

theorem strip_prompt (prompt : List UInt8) (h : ∀ c ∈ prompt, 32 ≤ c ∧ c ≤ 126) :
    strip (decodeUtf8 prompt) = [] ↔ ∀ c ∈ prompt, c = 32 := by
  have hspace : ∀ c : UInt8, 32 ≤ c ∧ c ≤ 126 → (isSpace c.toNat = true ↔ c = 32) := by
    apply Hex.forall_byte
    decide +kernel
  have hascii : ∀ c ∈ prompt, c < 128 := fun c hc =>
    UInt8.lt_of_le_of_lt (h c hc).2 (by decide)
  rw [decodeUtf8_ascii prompt hascii, strip_eq_nil]
  constructor
  · intro hall c hc
    exact (hspace c (h c hc)).mp (hall _ (List.mem_map_of_mem hc))
  · intro hall cp hcp
    obtain ⟨c, hc, rfl⟩ := List.mem_map.mp hcp
    exact (hspace c (h c hc)).mpr (hall c hc)

theorem handleFrame_request (call : CallProvider) (apiKey : Str) (taskId : UInt32)
    (prompt : List UInt8) (hp : Submittable prompt) :
    handleFrame call (requestLine taskId .hnlang prompt hnlangAiSystemContract) apiKey =
      (replyFrame call apiKey taskId prompt).bytes := by
  obtain ⟨_, hlength, hrange⟩ := hp
  have hcontract := contract_length
  rw [handleFrame, parseRequest_requestLine _ _ _ _ (by omega) (by omega), replyFrame]
  by_cases hspaces : ∀ c ∈ prompt, c = 32
  · rw [if_pos ((strip_prompt prompt hrange).mpr hspaces), if_pos hspaces,
      bytes_eq_responseFrame]
    rfl
  · have htype : ((TaskType.hnlang.code.toNat : ℤ) ∈ [(1 : ℤ), 2, 3, 4, 5, 6, 7]) := by decide
    rw [if_neg fun hstrip => hspaces ((strip_prompt prompt hrange).mp hstrip), if_neg hspaces]
    simp only [htype, if_true, outcome]
    cases call (decodeUtf8 prompt) (decodeUtf8 hnlangAiSystemContract) apiKey with
    | error e => exact (bytes_eq_responseFrame ⟨taskId, false, e⟩).symm
    | ok output => exact (bytes_eq_responseFrame ⟨taskId, true, output⟩).symm

theorem submit_text (b : Bridge) (t : Transport) (u : Uart) (prompt : List UInt8)
    (contextFlags : UInt32) (hb : b.ready = true) (ha : b.activeProvider = some .serial)
    (ht : t.ready = true) (hne : prompt ≠ []) (hnul : 0 ∉ prompt) (hlength : prompt.length ≤ 159) :
    b.submit t u .hnlang (some prompt) contextFlags =
      (true,
        { b with
          lastTask := { b.prepared .hnlang (some prompt) contextFlags with status := .running }
          nextTaskId := b.nextTaskId + 1
          lastProvider := some .serial },
        u.writeText (requestFrame b.nextTaskId .hnlang prompt hnlangAiSystemContract)) := by
  have hinput : (b.prepared .hnlang (some prompt) contextFlags).input.chars = prompt :=
    copy_chars_self prompt hnul hlength
  have hsend := send_eq t (b.prepared .hnlang (some prompt) contextFlags) u ht
    (by rw [hinput]; exact hne)
  rw [hinput] at hsend
  have hsubmit : serialSubmitTask t (b.prepared .hnlang (some prompt) contextFlags) u =
      (true, { b.prepared .hnlang (some prompt) contextFlags with status := .running },
        u.writeText (requestFrame b.nextTaskId .hnlang prompt hnlangAiSystemContract)) := by
    rw [serialSubmitTask, if_neg (by simp [Bridge.prepared, AiTask.prepare]),
      if_neg (by simp [Bridge.prepared]), hsend]
    rfl
  rw [submit_hnlang b t u _ _ hb ha, hsubmit]

theorem submit_prompt (b : Bridge) (t : Transport) (u : Uart) (prompt : List UInt8)
    (contextFlags : UInt32) (hb : b.ready = true) (ha : b.activeProvider = some .serial)
    (ht : t.ready = true) (hp : Submittable prompt) :
    b.submit t u .hnlang (some prompt) contextFlags =
      (true,
        { b with
          lastTask := { b.prepared .hnlang (some prompt) contextFlags with status := .running }
          nextTaskId := b.nextTaskId + 1
          lastProvider := some .serial },
        u.writeText (requestFrame b.nextTaskId .hnlang prompt hnlangAiSystemContract)) := by
  obtain ⟨hne, hlength, hrange⟩ := hp
  have hnul : 0 ∉ prompt := fun hmem => absurd (hrange 0 hmem).1 (by decide)
  exact submit_text b t u prompt contextFlags hb ha ht hne hnul hlength

theorem poll_reply (b : Bridge) (t : Transport) (f : Frame) (hb : b.ready = true)
    (hp : b.lastProvider = some .serial) (hrun : b.lastTask.status = .running)
    (hr : Receptive t b.lastTask) :
    (b.poll t f.bytes).2.1.lastTask =
      if f.id = b.lastTask.taskId then answered b.lastTask f else b.lastTask := by
  have hlength := body_length f
  have hbytes : f.bytes.length ≤ 1822 := by
    rw [Frame.bytes, List.length_append, List.length_singleton]
    omega
  have hcontents : (t.captureRx f.bytes).rx.contents = t.rx.contents ++ f.bytes := by
    have hroom := hr.room
    rw [Transport.captureRx, pushAll_contents, List.take_of_length_le]
    rw [List.length_append]
    omega
  have hconsume : consume b.lastTask t.line (t.rx.contents ++ f.bytes) =
      if f.id = b.lastTask.taskId then
        (some (answered b.lastTask f),
          (f.body.foldl lineStep (t.rx.contents.foldl lineStep t.line)).terminate, [])
      else (none, (f.body.foldl lineStep (t.rx.contents.foldl lineStep t.line)).terminate, []) := by
    rw [consume_append _ _ _ _ hr.unanswered, Frame.bytes,
      consume_frame _ _ f f.body [] (by rw [hr.boundary, List.nil_append])]
    rfl
  have hpending := pending_lt (t.captureRx f.bytes).rx
  obtain ⟨rx, _, _, hloop⟩ := pollLoop_consume 4096 (t.captureRx f.bytes) b.lastTask (by omega)
  have hline : (t.captureRx f.bytes).line = t.line := rfl
  rw [hcontents, hline, hconsume] at hloop
  simp only [Bridge.poll, hb, hp, if_true, Provider.pollTask, serialPollTask, hrun, ne_eq,
    not_true_eq_false, if_false, Transport.poll, hr.ready, hloop]
  split_ifs <;> rfl

/-- The request leaves as one line, the reply to that line carries the task's
identifier, and receiving it closes the task with the outcome of the call. -/
def Answered (call : CallProvider) (apiKey : Str) (b : Bridge) (t t' : Transport) (u : Uart)
    (prompt : List UInt8) (contextFlags : UInt32) : Prop :=
  ∃ line, (b.submit t u .hnlang (some prompt) contextFlags).2.2.written =
      u.written ++ (line ++ [10]) ∧
    (∃ rest, handleFrame call line apiKey = ascii "HNAI1|RES|" ++
      Hex.encode32 (b.submit t u .hnlang (some prompt) contextFlags).2.1.lastTask.taskId ++ rest) ∧
    ((b.submit t u .hnlang (some prompt) contextFlags).2.1.poll t'
        (handleFrame call line apiKey)).2.1.lastTask.status =
      if (outcome call apiKey prompt).isOk then .done else .error

theorem bytes_header (f : Frame) (taskId : UInt32) :
    (∃ rest, f.bytes = ascii "HNAI1|RES|" ++ Hex.encode32 taskId ++ rest) ↔ f.id = taskId := by
  constructor
  · rintro ⟨rest, hrest⟩
    have hbytes : f.bytes = ascii "HNAI1|RES|" ++ Hex.encode32 f.id ++
        (124 :: (if f.success then 83 else 69) :: 124 :: Hex.encode f.output ++ [10]) := by
      simp [Frame.bytes, Frame.body, Frame.header]
    have hid := header_parse f.id
      (124 :: (if f.success then 83 else 69) :: 124 :: Hex.encode f.output ++ [10])
    rw [← hbytes, hrest, header_parse] at hid
    exact (Option.some.inj hid).symm
  · rintro rfl
    exact ⟨124 :: (if f.success then 83 else 69) :: 124 :: Hex.encode f.output ++ [10], by
      simp [Frame.bytes, Frame.body, Frame.header]⟩

theorem replyFrame_spaces (call : CallProvider) (apiKey : Str) (taskId : UInt32)
    (prompt : List UInt8) (h : ∀ c ∈ prompt, c = 32) :
    replyFrame call apiKey taskId prompt = ⟨0, false, str "empty prompt"⟩ := if_pos h

theorem replyFrame_text (call : CallProvider) (apiKey : Str) (taskId : UInt32)
    (prompt : List UInt8) (h : ¬ ∀ c ∈ prompt, c = 32) :
    (replyFrame call apiKey taskId prompt).id = taskId ∧
      (replyFrame call apiKey taskId prompt).success = (outcome call apiKey prompt).isOk := by
  rw [replyFrame, if_neg h]
  cases outcome call apiKey prompt <;> exact ⟨rfl, rfl⟩

/-- A submitted prompt is answered exactly when it is not all spaces, or when
the identifier has wrapped to the one of the host's refusal and the call would
have failed as well. -/
theorem answered_iff (call : CallProvider) (apiKey : Str) (b : Bridge) (t t' : Transport)
    (u : Uart) (prompt : List UInt8) (contextFlags : UInt32) (hb : b.ready = true)
    (ha : b.activeProvider = some .serial) (ht : t.ready = true) (hu : u.Reliable)
    (hp : Submittable prompt)
    (hr : Receptive t' (b.submit t u .hnlang (some prompt) contextFlags).2.1.lastTask) :
    Answered call apiKey b t t' u prompt contextFlags ↔
      (∃ c ∈ prompt, c ≠ 32) ∨
        (b.nextTaskId = 0 ∧ (outcome call apiKey prompt).isOk = false) := by
  have hsubmit := submit_prompt b t u prompt contextFlags hb ha ht hp
  have htask : (b.submit t u .hnlang (some prompt) contextFlags).2.1.lastTask.taskId =
      b.nextTaskId := by
    rw [hsubmit]
    exact prepared_taskId b .hnlang (some prompt) contextFlags
  have hwritten : (b.submit t u .hnlang (some prompt) contextFlags).2.2.written = u.written ++
      (requestLine b.nextTaskId .hnlang prompt hnlangAiSystemContract ++ [10]) := by
    rw [hsubmit]
    exact writeText_written u _ hu
  have hpoll := poll_reply (b.submit t u .hnlang (some prompt) contextFlags).2.1 t'
    (replyFrame call apiKey b.nextTaskId prompt) (by rw [hsubmit]; exact hb) (by rw [hsubmit])
    (by rw [hsubmit]) hr
  have hline : Answered call apiKey b t t' u prompt contextFlags ↔
      (replyFrame call apiKey b.nextTaskId prompt).id = b.nextTaskId ∧
        (if (replyFrame call apiKey b.nextTaskId prompt).success then TaskStatus.done
          else .error) = if (outcome call apiKey prompt).isOk then .done else .error := by
    simp only [Answered, hwritten, List.append_cancel_left_eq, List.append_cancel_right_eq,
      exists_eq_left', handleFrame_request call apiKey b.nextTaskId prompt hp, hpoll, htask,
      bytes_header]
    constructor
    · rintro ⟨hid, hstatus⟩
      rw [if_pos hid] at hstatus
      exact ⟨hid, hstatus⟩
    · rintro ⟨hid, hstatus⟩
      rw [if_pos hid]
      exact ⟨hid, hstatus⟩
  rw [hline]
  by_cases hspaces : ∀ c ∈ prompt, c = 32
  · have hnone : ¬ ∃ c ∈ prompt, c ≠ 32 := by simpa using hspaces
    rw [replyFrame_spaces _ _ _ _ hspaces]
    cases (outcome call apiKey prompt).isOk <;> simp [hnone, eq_comm]
  · have hsome : ∃ c ∈ prompt, c ≠ 32 := by simpa using hspaces
    obtain ⟨hid, hsuccess⟩ := replyFrame_text call apiKey b.nextTaskId prompt hspaces
    simp [hid, hsuccess, hsome]

theorem init_receptive (task : AiTask) : Receptive Transport.init task where
  ready := rfl
  boundary := by
    rw [show Transport.init.rx.contents = [] from cleared_contents _]
    rfl
  unanswered := by
    rw [show Transport.init.rx.contents = [] from cleared_contents _]
    rfl
  room := by
    rw [show Transport.init.rx.contents = [] from cleared_contents _]
    decide

def echoCall : CallProvider := fun prompt _ _ => .ok prompt

theorem answered_iff_letter :
    Answered echoCall [] Bridge.init Transport.init Transport.init readyUart [97] 0 ↔
      (∃ c ∈ ([97] : List UInt8), c ≠ 32) ∨
        (Bridge.init.nextTaskId = 0 ∧ (outcome echoCall [] [97]).isOk = false) :=
  answered_iff echoCall [] Bridge.init Transport.init Transport.init readyUart [97] 0 rfl rfl rfl
    readyUart_reliable ⟨by decide, by decide, by decide +kernel⟩ (init_receptive _)

/-- A prompt of one space: the reply names no task, and the guest's task is
still running after it. -/
theorem space_unanswered :
    Submittable [32] ∧
      ¬ Answered echoCall [] Bridge.init Transport.init Transport.init readyUart [32] 0 ∧
      ((Bridge.init.submit Transport.init readyUart .hnlang (some [32]) 0).2.1.poll Transport.init
        (handleFrame echoCall
          (requestLine 1 .hnlang [32] hnlangAiSystemContract) [])).2.1.lastTask.status =
        .running := by
  have hp : Submittable [32] := ⟨by decide, by decide, by decide +kernel⟩
  have hsubmit := submit_prompt Bridge.init Transport.init readyUart [32] 0 rfl rfl rfl hp
  have hreply : replyFrame echoCall [] 1 [32] = ⟨0, false, str "empty prompt"⟩ :=
    replyFrame_spaces echoCall [] 1 [32] (by simp)
  have hrequest := handleFrame_request echoCall [] 1 [32] hp
  have hpoll := poll_reply (Bridge.init.submit Transport.init readyUart .hnlang (some [32]) 0).2.1
    Transport.init (replyFrame echoCall [] 1 [32]) (by rw [hsubmit]; rfl) (by rw [hsubmit])
    (by rw [hsubmit]) (init_receptive _)
  have hid :
      (Bridge.init.submit Transport.init readyUart .hnlang (some [32]) 0).2.1.lastTask.taskId =
        1 := by
    rw [hsubmit]
    rfl
  refine ⟨hp, ?_, ?_⟩
  · rintro ⟨line, hwritten, ⟨rest, hrest⟩, _⟩
    rw [hsubmit, writeText_written _ _ readyUart_reliable, requestFrame_eq] at hwritten
    have hline : line = requestLine 1 .hnlang [32] hnlangAiSystemContract :=
      (List.append_cancel_right (List.append_cancel_left hwritten)).symm
    rw [hline, hrequest, hid] at hrest
    have hzero := (bytes_header _ 1).mp ⟨rest, hrest⟩
    rw [hreply] at hzero
    exact absurd hzero (by decide)
  · rw [hrequest, hpoll, hid, hreply, if_neg (by decide), hsubmit]

end Hnmos.RequestReply
