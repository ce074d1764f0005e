import Mathlib
import Hnmos.SerialStream
import Hnmos.RequestReply

/-!
# Overflow of the receive buffer

Any number of bytes may arrive between two polls, and what does not fit is
dropped. A line that lost nothing after its first stored byte still is one
whole frame, and a frame stored whole at the start of a line still completes
its task. Two runs show that neither condition can go: a lost pair of digits
shortens an answer, and the rest of a cut frame swallows the next one.
-/

set_option autoImplicit false

namespace Hnmos.SerialLink
open Hnmos.CString Hnmos.RingBuffer Hnmos.Task Hnmos.SerialTransport Hnmos.AiBridge
open Hnmos.HostBridge Hnmos.ResponseFrame Hnmos.RequestReply Hnmos.Transition
open SerialPort (readyUart)

/-- The loss counter of the receive buffer counts the bytes marked as lost. -/
def Counting (s : Link) : Prop :=
  s.transport.rx.dropped = UInt32.ofNat (s.captured.countP fun m => !m.2)

theorem capture_counting (s : Link) (n : ℕ) (h : Counting s) : Counting (s.capture n) := by
  have hdropped := storing_dropped s.transport.rx (s.wire.take n)
  rw [h, ← UInt32.ofNat_add, ← List.countP_append] at hdropped
  exact hdropped

theorem pollLoop_dropped (fuel : ℕ) (t : Transport) (task : AiTask) :
    (pollLoop fuel t task).2.1.rx.dropped = t.rx.dropped := by
  induction fuel generalizing t with
  | zero => rfl
  | succ fuel ih =>
    rw [pollLoop]
    cases hpop : t.rx.pop with
    | none => rfl
    | some popped =>
      obtain ⟨c, rx⟩ := popped
      have hrx := pop_dropped t.rx rx c hpop
      rcases hchar : pollChar t.line task c with ⟨line, _ | answer⟩
      · simp only [hchar]
        exact (ih { t with rx := rx, line := line }).trans hrx
      · simp only [hchar]
        exact hrx

theorem poll_dropped (s : Link) (n : ℕ) :
    (s.poll n).2.transport.rx.dropped =
      (if s.reaches then s.capture n else s).transport.rx.dropped := by
  rw [Link.poll, Bridge.poll]
  by_cases hready : s.bridge.ready = true
  · rw [if_pos hready]
    cases hp : s.bridge.lastProvider with
    | none => simp [Link.reaches, hp]
    | some provider =>
      cases provider with
      | stub => simp [Link.reaches, hp, Provider.pollTask]
      | serial =>
        by_cases hrun : s.bridge.lastTask.status = .running
        · by_cases ht : s.transport.ready = true
          · have hreach : s.reaches = true := by simp [Link.reaches, hready, hp, hrun, ht]
            simp only [hreach, if_true, Provider.pollTask, serialPollTask, hrun, ne_eq,
              not_true_eq_false, if_false, Transport.poll, ht, pollLoop_dropped]
            rfl
          · simp [Link.reaches, ht, Provider.pollTask, serialPollTask, hrun, Transport.poll]
        · simp [Link.reaches, hrun, Provider.pollTask, serialPollTask]
  · simp [Link.reaches, hready]

theorem step_counting (s : Link) (op : LinkOp) (h : Counting s) : Counting (step s op) := by
  cases op with
  | submit input contextFlags => exact h
  | cancel => exact h
  | answer success text =>
    rw [step, Link.answer]
    cases s.requests <;> exact h
  | errorFrame text => exact h
  | capture n => exact capture_counting s n h
  | poll n =>
    have hcaptured : (s.poll n).2.captured = (if s.reaches then s.capture n else s).captured := by
      rw [Link.poll]
    rw [Counting, step, poll_dropped, hcaptured]
    split_ifs
    · exact capture_counting s n h
    · exact h

theorem run_counting (u : SerialPort.Uart) (ops : List LinkOp) :
    Counting (run step (Link.init u) ops) :=
  run_invariant_all step Counting step_counting _ ops rfl

/-- In every run, with any bytes dropped: a poll that reports an answer took
it from the line that ends at the last eaten newline, and the task is what the
parser makes of that line; when no byte of it was dropped after its first
stored one, it is the body of one sent frame with the task's identifier and the
task holds its answer. A running task whose frame is stored whole at the start
of a line is completed. The driver's own counter tells how many bytes were
dropped. -/
theorem overflow_contained (u : SerialPort.Uart) (ops : List LinkOp) (n : ℕ) :
    (((run step (Link.init u) ops).poll n).1 = true →
      ∃ pre own post,
        ((run step (Link.init u) ops).poll n).2.captured = pre ++ own ++ (10, true) :: post ∧
        stored post = ((run step (Link.init u) ops).poll n).2.transport.rx.contents ∧
        AtLineStart pre ∧ 10 ∉ stored own ∧ (∀ m ∈ own.head?, m.2 = true) ∧
        Parsed (run step (Link.init u) ops).bridge.lastTask
          ((run step (Link.init u) ops).poll n).2.bridge.lastTask pre own ∧
        ((∀ m ∈ own, m.2 = true) →
          WholeFrame (run step (Link.init u) ops) pre own
            ((run step (Link.init u) ops).poll n).2.bridge.lastTask)) ∧
    ((run step (Link.init u) ops).bridge.lastTask.status = .running →
      ∀ before f behind, (run step (Link.init u) ops).sent = before ++ f :: behind →
        (run step (Link.init u) ops).base ≤ before.length →
        f.id = (run step (Link.init u) ops).bridge.lastTask.taskId →
        WholeLine ((run step (Link.init u) ops).poll n).2.captured before f →
        ((run step (Link.init u) ops).poll n).1 = true) ∧
    Counting (run step (Link.init u) ops) ∧
    Counting ((run step (Link.init u) ops).poll n).2 := by
  have hinv := run_inv u ops
  have hcounting := run_counting u ops
  refine ⟨poll_source _ n hinv, ?_, hcounting, step_counting _ (.poll n) hcounting⟩
  intro hrun before f behind hsent hbase hid hwhole
  exact poll_completes _ n hinv hrun before behind f hsent hbase hid hwhole

def longText : Str := List.replicate 900 65

def longFrame (k : ℕ) : Frame := ⟨UInt32.ofNat k, true, longText⟩

def cancelledRound : List LinkOp := [.submit (some [97]) 0, .cancel, .answer true longText]

theorem letter_submittable : Submittable [97] := ⟨by decide, by decide, by decide +kernel⟩

theorem submit_letter (s : Link) (h : Wired s) :
    s.submit (some [97]) 0 =
      { s with
        bridge := { s.bridge with
          lastTask := { s.bridge.prepared .hnlang (some [97]) 0 with status := .running }
          nextTaskId := s.bridge.nextTaskId + 1
          lastProvider := some .serial }
        port := s.port.writeText
          (requestFrame s.bridge.nextTaskId .hnlang [97] hnlangAiSystemContract)
        requests := s.requests ++ [s.bridge.nextTaskId]
        submissions := s.submissions + 1
        base := s.sent.length } := by
  have hid := prepared_taskId s.bridge .hnlang (some [97]) 0
  rw [Link.submit, submit_prompt s.bridge s.transport s.port [97] 0 h.bridgeReady h.active
    h.transportReady letter_submittable]
  simp only [if_true, hid]

theorem submit_facts (s : Link) (h : Wired s) :
    (s.submit (some [97]) 0).bridge.lastTask.status = .running ∧
      (s.submit (some [97]) 0).bridge.lastTask.taskId = s.bridge.nextTaskId ∧
      (s.submit (some [97]) 0).requests = s.requests ++ [s.bridge.nextTaskId] ∧
      (s.submit (some [97]) 0).base = s.sent.length ∧
      (s.submit (some [97]) 0).transport = s.transport ∧
      (s.submit (some [97]) 0).sent = s.sent ∧ (s.submit (some [97]) 0).wire = s.wire ∧
      (s.submit (some [97]) 0).captured = s.captured := by
  have hid := prepared_taskId s.bridge .hnlang (some [97]) 0
  rw [submit_letter s h]
  exact ⟨rfl, hid, rfl, rfl, rfl, rfl, rfl, rfl⟩

theorem answer_facts (s : Link) (id : UInt32) (success : Bool) (text : Str)
    (h : s.requests = [id]) :
    (s.answer success text).sent = s.sent ++ [⟨id, success, text⟩] ∧
      (s.answer success text).wire = s.wire ++ (⟨id, success, text⟩ : Frame).bytes ∧
      (s.answer success text).base = s.base ∧ (s.answer success text).bridge = s.bridge ∧
      (s.answer success text).transport = s.transport ∧
      (s.answer success text).captured = s.captured := by
  rw [Link.answer, h]
  exact ⟨rfl, rfl, rfl, rfl, rfl, rfl⟩

structure Cancelled (s : Link) (k : ℕ) : Prop where
  wired : Wired s
  requests : s.requests = []
  sent : s.sent = (List.range k).map fun i => longFrame (i + 1)
  wire : s.wire = s.sent.flatMap Frame.bytes
  transport : s.transport = Transport.init
  captured : s.captured = []
  next : s.bridge.nextTaskId = UInt32.ofNat (k + 1)

theorem init_cancelled (u : SerialPort.Uart) : Cancelled (Link.init u) 0 where
  wired := init_wired u
  requests := rfl
  sent := rfl
  wire := rfl
  transport := rfl
  captured := rfl
  next := rfl

theorem round_cancelled (s : Link) (k : ℕ) (h : Cancelled s k) :
    Cancelled (run step s cancelledRound) (k + 1) := by
  have hwired := submit_wired s (some [97]) 0 h.wired
  have hsubmit := submit_letter s h.wired
  have hfinal : Wired (run step s cancelledRound) :=
    answer_wired _ true longText (cancel_wired _ hwired)
  simp only [cancelledRound, run_cons, run_nil, step, hsubmit, Link.answer, h.requests,
    List.nil_append, Link.send, Bridge.cancel] at hfinal ⊢
  have hframe : (⟨s.bridge.nextTaskId, true, longText⟩ : Frame) = longFrame (k + 1) := by
    rw [h.next]
    rfl
  refine ⟨hfinal, rfl, ?_, ?_, h.transport, h.captured, ?_⟩
  · simp only [hframe, h.sent, List.range_succ, List.map_append, List.map_cons, List.map_nil]
  · simp only [h.wire, List.flatMap_append, List.flatMap_cons, List.flatMap_nil, List.append_nil]
  · simp only [ne_eq, reduceCtorEq, not_false_eq_true, not_true_eq_false, false_and, if_false]
    rw [h.next]
    exact (UInt32.ofNat_add (k + 1) 1).symm

theorem poll_dry (s : Link) (n : ℕ) (h : Wired s) (hrun : s.bridge.lastTask.status = .running)
    (l : LineBuffer) (hc : consume s.bridge.lastTask s.transport.line
      (s.capture n).transport.rx.contents = (none, l, [])) :
    ∃ rx : Ring UInt8 4096, rx.contents = [] ∧
      s.poll n = (false, { s.capture n with
        transport := { (s.capture n).transport with rx := rx, line := l } }) := by
  obtain ⟨rx, hrx, hpoll⟩ := poll_running s n h hrun
  rw [hc] at hrx hpoll
  exact ⟨rx, hrx, hpoll⟩

theorem consume_plain (task : AiTask) (l : LineBuffer) (cs : List UInt8) (h : 10 ∉ cs) :
    consume task l cs = (none, cs.foldl lineStep l, []) := by
  rcases consume_used task l cs with hdry | ⟨front, rest, t, hcs, _, _⟩
  · exact hdry
  · exact absurd (hcs ▸ by simp) h

theorem consume_stale (task : AiTask) (l : LineBuffer) (f g k : Frame) (part missing : List UInt8)
    (hl : l.text = []) (hf : f.id ≠ task.taskId) (hg : g.id ≠ task.taskId)
    (hk : k.body = part ++ missing) :
    ∃ m : LineBuffer, m.text = part ∧
      consume task l (f.bytes ++ (g.bytes ++ part)) = (none, m, []) := by
  have hlength := body_length k
  have hnewline := newline_not_mem_body k
  have hreturn := return_not_mem_body k
  rw [hk] at hlength hnewline hreturn
  simp only [List.mem_append, not_or, List.length_append] at hlength hnewline hreturn
  refine ⟨part.foldl lineStep (g.body.foldl lineStep
    (f.body.foldl lineStep l).terminate).terminate, ?_, ?_⟩
  · rw [fold_text _ _ hnewline.1 hreturn.1 (by rw [terminate_text, List.length_nil]; omega),
      terminate_text, List.nil_append]
  · rw [Frame.bytes, Frame.bytes, List.append_assoc, List.append_assoc, List.singleton_append,
      List.singleton_append, consume_frame task l f f.body _ (by rw [hl, List.nil_append]),
      if_neg hf, consume_frame task _ g g.body _ (by rw [terminate_text, List.nil_append]),
      if_neg hg, consume_plain _ _ _ hnewline.1]

theorem longFrame_output (k : ℕ) : (longFrame k).output.length = 900 := by
  have ht : longText.length = 900 := List.length_replicate
  rw [Frame.output, asciiBytes, List.length_take, List.length_map]
  exact congrArg (min 900) ht

theorem longFrame_length (k : ℕ) : (longFrame k).bytes.length = 1822 := by
  have ho := longFrame_output k
  simp only [Frame.bytes, Frame.body, List.length_append, header_length, List.length_cons,
    Hex.encode_length, ho, List.length_nil]

def keptPart : List UInt8 := (longFrame 3).body.take 451

def holedFrame : Frame := ⟨3, true, List.replicate 899 65⟩

theorem holedFrame_bytes :
    holedFrame.body = keptPart ++ (longFrame 3).body.drop 453 := by
  decide +kernel

theorem three_frames : ((List.range 3).map fun i => longFrame (i + 1)).flatMap Frame.bytes =
    (longFrame 1).bytes ++ ((longFrame 2).bytes ++ (longFrame 3).bytes) := by
  simp [List.range_succ]

theorem three_frames_take :
    ((longFrame 1).bytes ++ ((longFrame 2).bytes ++ (longFrame 3).bytes)).take 4095 =
      (longFrame 1).bytes ++ ((longFrame 2).bytes ++ keptPart) := by
  have h1 := longFrame_length 1
  have h2 := longFrame_length 2
  have hbody : 451 ≤ (longFrame 3).body.length := by
    have h3 := longFrame_length 3
    rw [Frame.bytes, List.length_append, List.length_singleton] at h3
    omega
  have hkept : (longFrame 3).bytes.take (4095 - 1822 - 1822) = keptPart :=
    List.take_append_of_le_length hbody
  rw [List.take_append, List.take_of_length_le (by omega), h1, List.take_append,
    List.take_of_length_le (by omega), h2, hkept]

theorem capture_full (s : Link) (n : ℕ) (ht : s.transport = Transport.init) (rest : List UInt8)
    (hn : s.wire.take n =
      ((longFrame 1).bytes ++ ((longFrame 2).bytes ++ (longFrame 3).bytes)).take 4095 ++ rest) :
    (s.capture n).transport.rx.contents =
      (longFrame 1).bytes ++ ((longFrame 2).bytes ++ keptPart) := by
  have hlength : (((longFrame 1).bytes ++ ((longFrame 2).bytes ++ (longFrame 3).bytes)).take
      4095).length = 4095 := by
    have h1 := longFrame_length 1
    have h2 := longFrame_length 2
    have h3 := longFrame_length 3
    rw [List.length_take, List.length_append, List.length_append]
    omega
  have hempty : Transport.init.rx.contents = [] := cleared_contents _
  rw [Link.capture, Transport.captureRx, pushAll_contents, ht, hempty, List.nil_append, hn,
    List.take_append_of_le_length (by omega), List.take_take, Nat.min_eq_left (by decide)]
  exact three_frames_take

/-- Three answers arrive while the third request is waiting; the buffer has
no room for two bytes of the last. -/
def holeRun : List LinkOp :=
  cancelledRound ++ cancelledRound ++
    [.submit (some [97]) 0, .answer true longText, .capture 4097, .poll 0, .capture 1369]

theorem holeRun_tail (s : Link) :
    run step s [.submit (some [97]) 0, .answer true longText, .capture 4097, .poll 0,
      .capture 1369] =
      ((((s.submit (some [97]) 0).answer true longText).capture 4097).poll 0).2.capture 1369 := rfl

/-- Three cancelled answers arrive while nothing is running; the fourth
request is answered after the buffer has been drained. -/
def stuckRun : List LinkOp :=
  (cancelledRound ++ (cancelledRound ++ cancelledRound)) ++
    [.capture 5466, .submit (some [97]) 0, .poll 0, .answer true (str "ok")]

theorem stuckRun_tail (s : Link) :
    run step s [.capture 5466, .submit (some [97]) 0, .poll 0, .answer true (str "ok")] =
      (((s.capture 5466).submit (some [97]) 0).poll 0).2.answer true (str "ok") := rfl

structure Waiting (s : Link) : Prop where
  wired : Wired s
  running : s.bridge.lastTask.status = .running
  taskId : s.bridge.lastTask.taskId = 3
  sent : s.sent = (List.range 3).map fun i => longFrame (i + 1)
  wire : s.wire = (longFrame 1).bytes ++ ((longFrame 2).bytes ++ (longFrame 3).bytes)
  transport : s.transport = Transport.init

theorem third_waiting (s : Link) (h : Cancelled s 2) :
    Waiting ((s.submit (some [97]) 0).answer true longText) := by
  have hwired := answer_wired _ true longText (submit_wired s (some [97]) 0 h.wired)
  have hid := (prepared_taskId s.bridge .hnlang (some [97]) 0).trans h.next
  have hframe : (⟨s.bridge.nextTaskId, true, longText⟩ : Frame) = longFrame 3 := by
    rw [h.next]
    rfl
  simp only [submit_letter s h.wired, Link.answer, h.requests, List.nil_append, Link.send,
    hframe] at hwired ⊢
  refine ⟨hwired, rfl, hid, ?_, ?_, h.transport⟩
  · simp only [h.sent, List.range_succ, List.map_append, List.map_cons, List.map_nil]
  · rw [← three_frames]
    simp only [h.wire, h.sent, List.range_succ, List.map_append, List.map_cons, List.map_nil,
      List.flatMap_append, List.flatMap_cons, List.flatMap_nil, List.append_nil]

theorem frames_length : ((longFrame 1).bytes ++ ((longFrame 2).bytes ++
    (longFrame 3).bytes)).length = 5466 := by
  rw [List.length_append, List.length_append, longFrame_length, longFrame_length,
    longFrame_length]

theorem frames_drop : ((longFrame 1).bytes ++ ((longFrame 2).bytes ++ (longFrame 3).bytes)).drop
    4097 = (longFrame 3).body.drop 453 ++ [10] := by
  have h1 := longFrame_length 1
  have h2 := longFrame_length 2
  have h3 := longFrame_length 3
  have hbody : 453 ≤ (longFrame 3).body.length := by
    rw [Frame.bytes, List.length_append, List.length_singleton] at h3
    omega
  have htail : (longFrame 3).bytes.drop (4097 - 1822 - 1822) =
      (longFrame 3).body.drop 453 ++ [10] := List.drop_append_of_le_length hbody
  rw [List.drop_append, List.drop_eq_nil_of_le (by omega), h1, List.drop_append,
    List.drop_eq_nil_of_le (by omega), h2, htail, List.nil_append, List.nil_append]

theorem missing_length : ((longFrame 3).body.drop 453).length = 1368 := by
  have h3 := longFrame_length 3
  rw [Frame.bytes, List.length_append, List.length_singleton] at h3
  rw [List.length_drop]
  omega

theorem init_line_text : Transport.init.line.text = [] := rfl

theorem capture_wire (s : Link) (n : ℕ) : (s.capture n).wire = s.wire.drop n := rfl

theorem capture_bridge (s : Link) (n : ℕ) : (s.capture n).bridge = s.bridge := rfl

theorem capture_requests (s : Link) (n : ℕ) : (s.capture n).requests = s.requests := rfl

theorem capture_sent (s : Link) (n : ℕ) : (s.capture n).sent = s.sent := rfl

theorem capture_line (s : Link) (n : ℕ) : (s.capture n).transport.line = s.transport.line := rfl

theorem capture_zero (s : Link) : (s.capture 0).transport = s.transport := by
  simp only [Link.capture, List.take_zero, Transport.captureRx, pushAll_nil]

theorem poll_closing (s : Link) (n : ℕ) (h : Wired s) (hrun : s.bridge.lastTask.status = .running)
    (task : AiTask) (l : LineBuffer) (rest : List UInt8)
    (hc : consume s.bridge.lastTask s.transport.line (s.capture n).transport.rx.contents =
      (some task, l, rest)) :
    (s.poll n).1 = true ∧ (s.poll n).2.bridge.lastTask = task := by
  obtain ⟨rx, _, hpoll⟩ := poll_running s n h hrun
  rw [hpoll, hc]
  exact ⟨rfl, rfl⟩

structure Partial (s : Link) (taskId : UInt32) : Prop where
  wired : Wired s
  running : s.bridge.lastTask.status = .running
  taskId : s.bridge.lastTask.taskId = taskId
  pending : s.transport.rx.contents = []
  text : s.transport.line.text = keptPart

theorem poll_partial (s : Link) (taskId : UInt32) (h : Wired s)
    (hrun : s.bridge.lastTask.status = .running) (hid : s.bridge.lastTask.taskId = taskId)
    (h1 : (longFrame 1).id ≠ taskId) (h2 : (longFrame 2).id ≠ taskId)
    (hline : s.transport.line.text = [])
    (hrx : s.transport.rx.contents = (longFrame 1).bytes ++ ((longFrame 2).bytes ++ keptPart)) :
    Partial (s.poll 0).2 taskId ∧ (s.poll 0).2.sent = s.sent ∧ (s.poll 0).2.wire = s.wire ∧
      (s.poll 0).2.requests = s.requests ∧ (s.poll 0).2.captured = s.captured ∧
      (s.poll 0).2.base = s.base := by
  obtain ⟨m, hm, hconsume⟩ := consume_stale s.bridge.lastTask s.transport.line (longFrame 1)
    (longFrame 2) (longFrame 3) keptPart _ hline (by rwa [hid]) (by rwa [hid])
    (List.take_append_drop 451 (longFrame 3).body).symm
  have hwired := poll_wired s 0 h
  obtain ⟨rx, hempty, hpoll⟩ := poll_dry s 0 h hrun m (by rw [capture_zero, hrx]; exact hconsume)
  rw [hpoll] at hwired ⊢
  refine ⟨⟨hwired, hrun, hid, hempty, hm⟩, rfl, rfl, rfl, ?_, rfl⟩
  simp only [Link.capture, List.take_zero, Ring.storing, List.append_nil]

theorem hole_accepted :
    ((run step (Link.init readyUart) holeRun).poll 0).1 = true ∧
      ((run step (Link.init readyUart) holeRun).poll 0).2.bridge.lastTask =
        answered (run step (Link.init readyUart) holeRun).bridge.lastTask holedFrame ∧
      (run step (Link.init readyUart) holeRun).bridge.lastTask.taskId = 3 ∧
      (run step (Link.init readyUart) holeRun).sent =
        (List.range 3).map fun i => longFrame (i + 1) := by
  have hholed := holedFrame_bytes
  have hdropped := frames_drop
  have hmissing := missing_length
  generalize (longFrame 3).body.drop 453 = missing at hholed hdropped hmissing
  have h2 := round_cancelled _ 1 (round_cancelled _ 0 (init_cancelled readyUart))
  rw [← run_append] at h2
  rw [holeRun, run_append, holeRun_tail]
  generalize run step (Link.init readyUart) (cancelledRound ++ cancelledRound) = s at h2
  have ht := third_waiting s h2
  generalize (s.submit (some [97]) 0).answer true longText = t at ht
  -- the first burst fills the buffer and loses two bytes
  have hfull : (t.capture 4097).transport.rx.contents =
      (longFrame 1).bytes ++ ((longFrame 2).bytes ++ keptPart) := by
    have hsplit := (List.take_append_drop 4095 (t.wire.take 4097)).symm
    rw [List.take_take, Nat.min_eq_left (by decide), ht.wire] at hsplit
    exact capture_full t 4097 ht.transport _ (by rw [ht.wire]; exact hsplit)
  have hline : (t.capture 4097).transport.line.text = [] := by
    rw [Link.capture, Transport.captureRx, ht.transport]
    exact init_line_text
  obtain ⟨hp, hsent, hwire, _, _, _⟩ := poll_partial (t.capture 4097) 3
    (capture_wired t 4097 ht.wired) ht.running ht.taskId (by decide) (by decide) hline hfull
  have hwire' : ((t.capture 4097).poll 0).2.wire = missing ++ [10] := by
    have hdrop : (t.capture 4097).wire = t.wire.drop 4097 := capture_wire t 4097
    rw [hwire, hdrop, ht.wire, hdropped]
  have hsent' : ((t.capture 4097).poll 0).2.sent = (List.range 3).map fun i => longFrame (i + 1) :=
    hsent.trans ht.sent
  generalize ((t.capture 4097).poll 0).2 = v at hp hwire' hsent'
  -- the second burst brings the rest of the third frame
  have hrest : ((v.capture 1369).capture 0).transport.rx.contents = missing ++ 10 :: [] := by
    have hlength : (missing ++ [10]).length = 1369 := by
      rw [List.length_append, hmissing, List.length_singleton]
    rw [capture_zero, Link.capture, Transport.captureRx, pushAll_contents, hp.pending, hwire',
      List.nil_append, List.take_of_length_le (l := missing ++ [10]) (by omega),
      List.take_of_length_le (by omega)]
  have hwired := capture_wired v 1369 hp.wired
  have hrun := hp.running
  have hid := hp.taskId
  have htext := hp.text
  rw [← capture_bridge v 1369] at hrun hid
  rw [← capture_line v 1369] at htext
  rw [← capture_sent v 1369] at hsent'
  generalize v.capture 1369 = w at hwired hrun hid htext hrest hsent'
  have hclose := consume_frame w.bridge.lastTask w.transport.line holedFrame missing []
    (by rw [htext]; exact hholed)
  rw [if_pos (by rw [hid]; rfl)] at hclose
  obtain ⟨hdone, htask⟩ := poll_closing w 0 hwired hrun _ _ _ (by rw [hrest]; exact hclose)
  exact ⟨hdone, htask, hid, hsent'⟩

theorem consume_merged (task : AiTask) (l : LineBuffer) (cs rest : List UInt8) (id : UInt32)
    (hn : 10 ∉ cs) (hr : 13 ∉ cs) (hl : l.text.length + cs.length < 2304)
    (htext : l.text = ascii "HNAI1|RES|" ++ Hex.encode32 id ++ rest) (hid : id ≠ task.taskId) :
    consume task l (cs ++ [10]) = (none, (cs.foldl lineStep l).terminate, []) := by
  have hline := fold_text l cs hn hr hl
  have hparse : parseResponse (cs.foldl lineStep l).terminate.cells task = none := by
    rw [terminate_cells, hline, htext, List.append_assoc, List.append_assoc]
    exact parse_other_id id _ task hid
  rw [consume_append task l cs [10] (by rw [consume_plain task l cs hn]), consume, pollChar,
    if_neg (by decide), if_pos rfl, hparse]
  rfl

theorem keptPart_header : ∃ rest, keptPart = ascii "HNAI1|RES|" ++ Hex.encode32 3 ++ rest := by
  have hheader : (longFrame 3).body.take 18 = (longFrame 3).header :=
    List.take_left' (header_length _)
  refine ⟨((longFrame 3).body.drop 18).take 433, ?_⟩
  rw [keptPart, show 451 = 18 + 433 from rfl, List.take_add, hheader]
  rfl

theorem keptPart_length : keptPart.length ≤ 451 := List.length_take_le _ _

theorem partial_discards (s : Link) (f : Frame) (n : ℕ) (h : Partial s f.id) (hid : f.id ≠ 3)
    (hwire : s.wire = f.bytes) (hshort : f.bytes.length ≤ 1000) (hn : f.bytes.length ≤ n) :
    (s.poll n).1 = false ∧ (s.poll n).2.bridge.lastTask.status = .running ∧
      (s.poll n).2.transport.rx.contents = [] ∧
      ∃ own, (s.poll n).2.captured = s.captured ++ own ∧ own.map Prod.fst = f.bytes ∧
        ∀ m ∈ own, m.2 = true := by
  have hkept := keptPart_length
  have hlength : f.bytes.length = f.body.length + 1 := by
    rw [Frame.bytes, List.length_append, List.length_singleton]
  have htake : s.wire.take n = f.bytes := by rw [hwire, List.take_of_length_le hn]
  obtain ⟨rest, hheader⟩ := keptPart_header
  have hconsume := consume_merged s.bridge.lastTask s.transport.line f.body rest 3
    (newline_not_mem_body f) (return_not_mem_body f) (by rw [h.text]; omega)
    (by rw [h.text, hheader]) (by rw [h.taskId]; exact hid.symm)
  have hrx : (s.capture n).transport.rx.contents = f.body ++ [10] := by
    rw [Link.capture, Transport.captureRx, pushAll_contents, h.pending, List.nil_append, htake,
      List.take_of_length_le (by omega), Frame.bytes]
  obtain ⟨rx, hempty, hpoll⟩ := poll_dry s n h.wired h.running _ (by rw [hrx]; exact hconsume)
  rw [hpoll]
  refine ⟨rfl, h.running, hempty, s.transport.rx.storing f.bytes, ?_, storing_fst _ _,
    storing_fits _ _ (by rw [h.pending, List.length_nil]; omega)⟩
  rw [Link.capture, htake]

def okFrame : Frame := ⟨4, true, str "ok"⟩

theorem okFrame_length : okFrame.bytes.length = 26 := by decide

theorem whole_discarded :
    (∃ before f, (run step (Link.init readyUart) stuckRun).sent = before ++ [f] ∧
      (run step (Link.init readyUart) stuckRun).base ≤ before.length ∧
      f.id = (run step (Link.init readyUart) stuckRun).bridge.lastTask.taskId ∧
      ∃ pre own, ((run step (Link.init readyUart) stuckRun).poll 26).2.captured = pre ++ own ∧
        pre.map Prod.fst = before.flatMap Frame.bytes ∧ own.map Prod.fst = f.bytes ∧
        ∀ m ∈ own, m.2 = true) ∧
    ((run step (Link.init readyUart) stuckRun).poll 26).2.transport.rx.contents = [] ∧
    ((run step (Link.init readyUart) stuckRun).poll 26).1 = false ∧
    ((run step (Link.init readyUart) stuckRun).poll 26).2.bridge.lastTask.status = .running := by
  have hlength := okFrame_length
  have h3 := round_cancelled _ 2 (round_cancelled _ 1 (round_cancelled _ 0
    (init_cancelled readyUart)))
  rw [← run_append, ← run_append] at h3
  rw [stuckRun, run_append, stuckRun_tail]
  generalize run step (Link.init readyUart) _ = s at h3
  have hwire3 : s.wire = (longFrame 1).bytes ++ ((longFrame 2).bytes ++ (longFrame 3).bytes) := by
    rw [h3.wire, h3.sent, three_frames]
  have hall := frames_length
  -- the burst fills the buffer, and a task starts after it
  have hfull : (s.capture 5466).transport.rx.contents =
      (longFrame 1).bytes ++ ((longFrame 2).bytes ++ keptPart) := by
    refine capture_full s 5466 h3.transport (s.wire.drop 4095) ?_
    rw [hwire3, List.take_append_drop, List.take_of_length_le (by omega)]
  have hline : (s.capture 5466).transport.line.text = [] := by
    rw [capture_line, h3.transport]
    exact init_line_text
  have hwire : (s.capture 5466).wire = [] := by
    rw [capture_wire, hwire3, List.drop_eq_nil_of_le (by omega)]
  have hcaptured : (s.capture 5466).captured.map Prod.fst = s.sent.flatMap Frame.bytes := by
    rw [Link.capture, h3.captured, List.nil_append, storing_fst, h3.wire.symm,
      List.take_of_length_le (by rw [hwire3]; omega)]
  have ha := capture_wired s 5466 h3.wired
  have hnext : (s.capture 5466).bridge.nextTaskId = 4 := by
    rw [capture_bridge, h3.next]
    rfl
  have hrequests : (s.capture 5466).requests = [] := (capture_requests s 5466).trans h3.requests
  rw [← capture_sent s 5466] at hcaptured
  generalize s.capture 5466 = a at hfull hline hwire hcaptured ha hnext hrequests
  have hb := submit_wired a (some [97]) 0 ha
  obtain ⟨hrun, hid, hrequests', hbase, hsame, hkept⟩ := submit_facts a ha
  rw [hnext] at hid
  rw [hrequests, hnext, List.nil_append] at hrequests'
  obtain ⟨hsent, hwire', hcaptured'⟩ := hkept
  generalize a.submit (some [97]) 0 = b
    at hb hrun hid hrequests' hbase hsame hsent hwire' hcaptured'
  rw [← hsame] at hline hfull
  rw [← hsent] at hbase hcaptured
  rw [← hcaptured'] at hcaptured
  rw [hwire] at hwire'
  -- the poll leaves the part of the third frame in the line
  obtain ⟨hp, hsentv, hwirev, hrequestsv, hcapturedv, hbasev⟩ := poll_partial b 4 hb hrun hid
    (by decide) (by decide) hline hfull
  rw [← hsentv, ← hbasev] at hbase
  rw [← hsentv, ← hcapturedv] at hcaptured
  rw [hrequests'] at hrequestsv
  rw [hwire'] at hwirev
  generalize (b.poll 0).2 = v at hp hbase hcaptured hrequestsv hwirev
  -- the fourth frame arrives behind it
  have hwired := answer_wired v true (str "ok") hp.wired
  obtain ⟨hsent', hwire', hbase', hbridge', htransport', hcaptured'⟩ :=
    answer_facts v 4 true (str "ok") hrequestsv
  rw [hwirev, List.nil_append] at hwire'
  have hok : (⟨4, true, str "ok"⟩ : Frame) = okFrame := rfl
  rw [hok] at hsent' hwire'
  generalize v.answer true (str "ok") = w at *
  have hpw : Partial w okFrame.id := ⟨hwired, hbridge' ▸ hp.running, hbridge' ▸ hp.taskId,
    htransport' ▸ hp.pending, htransport' ▸ hp.text⟩
  obtain ⟨hpoll, hrunning, hempty, own, hown, hbytes, hstored⟩ := partial_discards w okFrame 26 hpw
    (by decide) hwire' (by omega) (by omega)
  refine ⟨⟨v.sent, okFrame, hsent', ?_, hpw.taskId.symm, w.captured, own, hown, ?_, hbytes,
    hstored⟩, hempty, hpoll, hrunning⟩
  · rw [hbase', hbase]
  · rw [hcaptured', hcaptured]

/-- Both halves of the wish fail: a poll stores a text that no frame for the
task carries, and a frame stored whole leaves its task running although the
buffer has been drained. -/
theorem overflow_harms :
    (((run step (Link.init readyUart) holeRun).poll 0).1 = true ∧
      ∀ f ∈ (run step (Link.init readyUart) holeRun).sent,
        f.id = (run step (Link.init readyUart) holeRun).bridge.lastTask.taskId →
        ((run step (Link.init readyUart) holeRun).poll 0).2.bridge.lastTask.output.chars ≠
          f.output) ∧
    (∃ before f, (run step (Link.init readyUart) stuckRun).sent = before ++ [f] ∧
      (run step (Link.init readyUart) stuckRun).base ≤ before.length ∧
      f.id = (run step (Link.init readyUart) stuckRun).bridge.lastTask.taskId ∧
      ∃ pre own, ((run step (Link.init readyUart) stuckRun).poll 26).2.captured = pre ++ own ∧
        pre.map Prod.fst = before.flatMap Frame.bytes ∧ own.map Prod.fst = f.bytes ∧
        ∀ m ∈ own, m.2 = true) ∧
    ((run step (Link.init readyUart) stuckRun).poll 26).2.transport.rx.contents = [] ∧
    ((run step (Link.init readyUart) stuckRun).poll 26).1 = false ∧
    ((run step (Link.init readyUart) stuckRun).poll 26).2.bridge.lastTask.status = .running := by
  obtain ⟨hpoll, htask, hid, hsent⟩ := hole_accepted
  refine ⟨⟨hpoll, ?_⟩, whole_discarded⟩
  intro f hf _ houtput
  have hholed : 0 ∉ holedFrame.text := fun h => absurd (List.eq_of_mem_replicate h) (by decide)
  have hshort : holedFrame.output.length = 899 := by
    have ht : holedFrame.text.length = 899 := List.length_replicate
    rw [Frame.output, asciiBytes, List.length_take, List.length_map, ht]
    rfl
  rw [hsent] at hf
  obtain ⟨k, _, rfl⟩ := List.mem_map.mp hf
  have hlength := congrArg List.length houtput
  rw [htask, answered_output _ _ hholed, hshort, longFrame_output] at hlength
  exact absurd hlength (by decide)

end Hnmos.SerialLink
