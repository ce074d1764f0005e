import Mathlib
import Hnmos.BridgeSlot
import Hnmos.ResponseFrame
import Hnmos.Transition

/-!
# Lines assembled from a stream

The receiver records beside the transport what it has captured, which lines it
has handed to the parser and which of them completed a task. A newline hands
over the bytes since the last newline, or since the last overflow of the line
array: the bytes of a long line that follow the overflow are assembled like a
line of their own. So the lines handed over are the lines of the stream exactly
as long as every line fits the array.
-/

set_option autoImplicit false

namespace Hnmos.LineAssembly
open Hnmos.CString Hnmos.RingBuffer Hnmos.Task Hnmos.SerialTransport Hnmos.ResponseFrame
open Hnmos.AiBridge Hnmos.Transition

/-- The lines of a stream that a newline has ended, without carriage returns. -/
def completeLines (bytes : List UInt8) : List (List UInt8) :=
  ((bytes.filter (· != 13)).splitOn 10).dropLast

/-- The lines the polling loop hands to the parser, pass by pass. -/
def handedLoop : ℕ → Transport → AiTask → List (List UInt8)
  | 0, _, _ => []
  | fuel + 1, t, task =>
    match t.rx.pop with
    | none => []
    | some (c, rx) =>
      match pollChar t.line task c with
      | (_, some _) => [t.line.text]
      | (line, none) =>
        if c = 10 then t.line.text :: handedLoop fuel { t with rx := rx, line := line } task
        else handedLoop fuel { t with rx := rx, line := line } task

structure Receiver where
  transport : Transport
  received : List UInt8
  handed : List (List UInt8)
  accepted : List (List UInt8)

def Receiver.init : Receiver := ⟨Transport.init, [], [], []⟩

inductive ReceiverOp where
  | capture (arrived : List UInt8)
  | poll (arrived : List UInt8) (task : AiTask)

def ReceiverOp.arrived : ReceiverOp → List UInt8
  | .capture arrived => arrived
  | .poll arrived _ => arrived

def Receiver.poll (s : Receiver) (arrived : List UInt8) (task : AiTask) : Receiver :=
  if s.transport.ready then
    let lines := handedLoop 4096 (s.transport.captureRx arrived) task
    { transport := (s.transport.poll arrived task).2.1
      received := s.received ++ arrived
      handed := s.handed ++ lines
      accepted :=
        if (s.transport.poll arrived task).1 then s.accepted ++ lines.getLast?.toList
        else s.accepted }
  else s

def step (s : Receiver) : ReceiverOp → Receiver
  | .capture arrived =>
    { s with
      transport := s.transport.captureRx arrived
      received := s.received ++ arrived }
  | .poll arrived task => s.poll arrived task

def Fits (s : Receiver) (op : ReceiverOp) : Prop :=
  s.transport.rx.contents.length + op.arrived.length < 4096

def Receiver.taken (s : Receiver) : List UInt8 :=
  s.received.take (s.received.length - s.transport.rx.contents.length)

/-- Every line handed over is a whole line of the stream, no fitting line is
missing, and what completed a task was a whole line. -/
def Whole (s : Receiver) : Prop :=
  s.handed = (completeLines s.taken).filter (·.length < 2304) ∧
    ∀ line ∈ s.accepted, line ∈ completeLines s.taken

def assembled : LineBuffer → List UInt8 → List (List UInt8)
  | _, [] => []
  | l, c :: bytes =>
    if c = 10 then l.text :: assembled (lineStep l c) bytes else assembled (lineStep l c) bytes

theorem assembled_append (l : LineBuffer) (xs ys : List UInt8) :
    assembled l (xs ++ ys) = assembled l xs ++ assembled (xs.foldl lineStep l) ys := by
  induction xs generalizing l with
  | nil => rfl
  | cons c xs ih =>
    simp only [List.cons_append, assembled, List.foldl_cons, ih]
    split_ifs <;> rfl

theorem assembled_length (l : LineBuffer) (bytes : List UInt8) :
    (assembled l bytes).length = bytes.count 10 := by
  induction bytes generalizing l with
  | nil => rfl
  | cons c bytes ih =>
    rw [assembled]
    by_cases hc : c = 10
    · rw [if_pos hc, List.length_cons, ih, hc, List.count_cons_self]
    · rw [if_neg hc, ih, List.count_cons_of_ne hc]

theorem assembled_nil (l : LineBuffer) (bytes : List UInt8) (h : 10 ∉ bytes) :
    assembled l bytes = [] := by
  rw [← List.length_eq_zero_iff, assembled_length, List.count_eq_zero_of_not_mem h]

def linesAfter (current bytes : List UInt8) : List (List UInt8) :=
  ((current ++ bytes.filter (· != 13)).splitOn 10).dropLast

theorem linesAfter_nil (current bytes : List UInt8) (hcurrent : 10 ∉ current) (h : 10 ∉ bytes) :
    linesAfter current bytes = [] := by
  have hmem : 10 ∉ current ++ bytes.filter (· != 13) := by
    rw [List.mem_append, not_or]
    exact ⟨hcurrent, fun hb => h (List.mem_of_mem_filter hb)⟩
  rw [linesAfter, List.splitOn_eq_singleton hmem]
  rfl

theorem linesAfter_newline (current bytes : List UInt8) (hcurrent : 10 ∉ current) :
    linesAfter current (10 :: bytes) = current :: linesAfter [] bytes := by
  have hfilter : (10 :: bytes).filter (· != 13) = 10 :: bytes.filter (· != 13) := rfl
  rw [linesAfter, hfilter, List.splitOn_append_cons_self_of_not_mem hcurrent, linesAfter,
    List.nil_append, List.dropLast_cons_of_ne_nil (List.splitOn_ne_nil _ _)]

theorem linesAfter_return (current bytes : List UInt8) :
    linesAfter current (13 :: bytes) = linesAfter current bytes := rfl

theorem linesAfter_put (current bytes : List UInt8) (c : UInt8) (hc : c ≠ 13) :
    linesAfter current (c :: bytes) = linesAfter (current ++ [c]) bytes := by
  have hfilter : (c :: bytes).filter (· != 13) = c :: bytes.filter (· != 13) :=
    List.filter_cons_of_pos (by simpa using hc)
  rw [linesAfter, hfilter, linesAfter, List.append_assoc, List.singleton_append]

theorem linesAfter_length (current bytes : List UInt8) (hcurrent : 10 ∉ current) :
    (linesAfter current bytes).length = bytes.count 10 := by
  induction bytes generalizing current with
  | nil => rw [linesAfter_nil current [] hcurrent List.not_mem_nil]; rfl
  | cons c bytes ih =>
    by_cases hnewline : c = 10
    · rw [hnewline, linesAfter_newline current bytes hcurrent, List.length_cons,
        ih [] List.not_mem_nil, List.count_cons_self]
    · rw [List.count_cons_of_ne hnewline]
      by_cases hreturn : c = 13
      · rw [hreturn, linesAfter_return, ih current hcurrent]
      · have hput : 10 ∉ current ++ [c] := by
          simp only [List.mem_append, List.mem_singleton, not_or]
          exact ⟨hcurrent, fun e => hnewline e.symm⟩
        rw [linesAfter_put current bytes c hreturn, ih _ hput]

theorem current_fits (current bytes : List UInt8) (hcurrent : 10 ∉ current) (h : 10 ∈ bytes)
    (hshort : ∀ line ∈ linesAfter current bytes, line.length < 2304) :
    current.length < 2304 := by
  induction bytes generalizing current with
  | nil => exact absurd h List.not_mem_nil
  | cons c bytes ih =>
    by_cases hnewline : c = 10
    · rw [hnewline, linesAfter_newline current bytes hcurrent] at hshort
      exact hshort current List.mem_cons_self
    · have hmem : 10 ∈ bytes := (List.mem_cons.mp h).resolve_left fun e => hnewline e.symm
      by_cases hreturn : c = 13
      · rw [hreturn, linesAfter_return] at hshort
        exact ih current hcurrent hmem hshort
      · have hput : 10 ∉ current ++ [c] := by
          simp only [List.mem_append, List.mem_singleton, not_or]
          exact ⟨hcurrent, fun e => hnewline e.symm⟩
        rw [linesAfter_put current bytes c hreturn] at hshort
        have hlength := ih (current ++ [c]) hput hmem hshort
        rw [List.length_append, List.length_singleton] at hlength
        omega

theorem assembled_lines (l : LineBuffer) (bytes : List UInt8) (hl : 10 ∉ l.text)
    (hshort : ∀ line ∈ linesAfter l.text bytes, line.length < 2304) :
    assembled l bytes = linesAfter l.text bytes := by
  induction bytes generalizing l with
  | nil => rw [linesAfter_nil l.text [] hl List.not_mem_nil, assembled]
  | cons c bytes ih =>
    rw [assembled]
    by_cases hnewline : c = 10
    · have hstep : lineStep l 10 = l.terminate := rfl
      have hlines := linesAfter_newline l.text bytes hl
      rw [hnewline] at hshort ⊢
      rw [hlines] at hshort
      have hnext := ih l.terminate (by rw [terminate_text]; exact List.not_mem_nil)
        (fun line hline => hshort line (List.mem_cons_of_mem _ hline))
      rw [if_pos rfl, hstep, hlines, hnext, terminate_text]
    · rw [if_neg hnewline]
      by_cases hreturn : c = 13
      · have hstep : lineStep l 13 = l := rfl
        rw [hreturn] at hshort ⊢
        rw [linesAfter_return] at hshort ⊢
        rw [hstep]
        exact ih l hl hshort
      · have hstep : lineStep l c = l.put c := by
          rw [lineStep, if_neg hreturn, if_neg hnewline]
        have hput : 10 ∉ l.text ++ [c] := by
          simp only [List.mem_append, List.mem_singleton, not_or]
          exact ⟨hl, fun e => hnewline e.symm⟩
        rw [linesAfter_put l.text bytes c hreturn] at hshort ⊢
        rw [hstep]
        by_cases hmem : 10 ∈ bytes
        · have hfits := current_fits _ bytes hput hmem hshort
          rw [List.length_append, List.length_singleton, text_length] at hfits
          have htext := put_text l c hfits
          rw [← htext] at hput hshort ⊢
          exact ih (l.put c) hput hshort
        · rw [assembled_nil _ bytes hmem, linesAfter_nil _ bytes hput hmem]

theorem pollChar_some (l m : LineBuffer) (task t : AiTask) (c : UInt8)
    (h : pollChar l task c = (m, some t)) :
    c = 10 ∧ parseResponse (l.text ++ 0 :: l.cells.drop (l.length + 1)) task = some t := by
  rw [pollChar] at h
  split_ifs at h with hreturn hnewline
  · simp at h
  · rw [← terminate_cells]
    exact ⟨hnewline, (Prod.mk.inj h).2⟩
  · simp at h

/-- The loop takes a stretch off the buffer, hands over its lines and, when it
completes the task, does so by the last of them. -/
theorem pollLoop_handed (fuel : ℕ) (t : Transport) (task : AiTask) :
    ∃ eaten, t.rx.contents = eaten ++ (pollLoop fuel t task).2.1.rx.contents ∧
      (pollLoop fuel t task).2.1.line = eaten.foldl lineStep t.line ∧
      handedLoop fuel t task = assembled t.line eaten ∧
      ((pollLoop fuel t task).1 = true → ∃ front line stale,
        handedLoop fuel t task = front ++ [line] ∧
        parseResponse (line ++ 0 :: stale) task = some (pollLoop fuel t task).2.2) := by
  induction fuel generalizing t with
  | zero => exact ⟨[], rfl, rfl, rfl, fun hdone => absurd hdone Bool.false_ne_true⟩
  | succ fuel ih =>
    rw [pollLoop, handedLoop]
    cases hpop : t.rx.pop with
    | none => exact ⟨[], rfl, rfl, rfl, fun hdone => absurd hdone Bool.false_ne_true⟩
    | some popped =>
      obtain ⟨c, rx⟩ := popped
      have hcontents := pop_contents t.rx rx c hpop
      have hline := pollChar_line t.line task c
      cases hchar : pollChar t.line task c with
      | mk line result =>
        rw [hchar] at hline
        cases result with
        | some answer =>
          obtain ⟨hnewline, hparse⟩ := pollChar_some t.line line task answer c hchar
          refine ⟨[c], by simp only [hchar, hcontents, List.singleton_append], ?_, ?_, ?_⟩
          · simpa only [hchar, List.foldl_cons, List.foldl_nil] using hline
          · simp only [hchar, assembled, if_pos hnewline]
          · intro _
            exact ⟨[], t.line.text, _, by simp only [hchar, List.nil_append],
              by simpa only [hchar] using hparse⟩
        | none =>
          simp only [hchar]
          obtain ⟨eaten, hsplit, hfold, hlines, hlast⟩ := ih { t with rx := rx, line := line }
          simp only at hsplit hfold hlines
          refine ⟨c :: eaten, ?_, ?_, ?_, ?_⟩
          · rw [hcontents, hsplit, List.cons_append]
          · rw [List.foldl_cons, ← hline, hfold]
          · rw [assembled, ← hline, hlines]
          · intro hdone
            obtain ⟨front, last, stale, hfront, hparse⟩ := hlast hdone
            by_cases hc : c = 10
            · rw [if_pos hc, hfront]
              exact ⟨t.line.text :: front, last, stale, rfl, hparse⟩
            · rw [if_neg hc, hfront]
              exact ⟨front, last, stale, rfl, hparse⟩

structure Assembling (s : Receiver) : Prop where
  ready : s.transport.ready = true
  split : s.received = s.taken ++ s.transport.rx.contents
  line : s.transport.line = s.taken.foldl lineStep Transport.init.line
  handed : s.handed = assembled Transport.init.line s.taken
  accepted : ∀ line ∈ s.accepted, line ∈ s.handed

theorem taken_eq (s : Receiver) (eaten : List UInt8)
    (h : s.received = eaten ++ s.transport.rx.contents) : s.taken = eaten := by
  rw [Receiver.taken, h, List.length_append, Nat.add_sub_cancel]
  exact List.take_left' rfl

theorem init_assembling : Assembling Receiver.init where
  ready := rfl
  split := (cleared_contents _).symm
  line := rfl
  handed := rfl
  accepted := nofun

theorem capture_contents (s : Receiver) (arrived : List UInt8)
    (h : s.transport.rx.contents.length + arrived.length < 4096) :
    (s.transport.captureRx arrived).rx.contents = s.transport.rx.contents ++ arrived := by
  have hpush := pushAll_contents s.transport.rx arrived
  rw [List.take_of_length_le (by rw [List.length_append]; omega)] at hpush
  exact hpush

theorem capture_assembling (s : Receiver) (arrived : List UInt8) (h : Assembling s)
    (hfits : Fits s (.capture arrived)) : Assembling (step s (.capture arrived)) := by
  have hcontents := capture_contents s arrived hfits
  have hsplit : (step s (.capture arrived)).received =
      s.taken ++ (step s (.capture arrived)).transport.rx.contents := by
    show s.received ++ arrived = s.taken ++ (s.transport.captureRx arrived).rx.contents
    rw [hcontents, ← List.append_assoc, ← h.split]
  have htaken := taken_eq _ _ hsplit
  exact ⟨h.ready, by rw [htaken]; exact hsplit, by rw [htaken]; exact h.line,
    by rw [htaken]; exact h.handed, h.accepted⟩

theorem poll_assembling (s : Receiver) (arrived : List UInt8) (task : AiTask) (h : Assembling s)
    (hfits : Fits s (.poll arrived task)) : Assembling (step s (.poll arrived task)) := by
  have hcontents := capture_contents s arrived hfits
  obtain ⟨eaten, heaten, hline, hlines, hlast⟩ :=
    pollLoop_handed 4096 (s.transport.captureRx arrived) task
  have hready := pollLoop_ready 4096 (s.transport.captureRx arrived) task
  have hpoll : s.transport.poll arrived task =
      pollLoop 4096 (s.transport.captureRx arrived) task := if_pos h.ready
  show Assembling (s.poll arrived task)
  rw [Receiver.poll, if_pos h.ready, hpoll]
  generalize hloop : pollLoop 4096 (s.transport.captureRx arrived) task = result at *
  generalize handedLoop 4096 (s.transport.captureRx arrived) task = lines at *
  obtain ⟨answered, t, task'⟩ := result
  simp only at heaten hline hlast hready ⊢
  have hold : (s.transport.captureRx arrived).line = s.transport.line := rfl
  rw [hold, h.line, ← List.foldl_append] at hline
  have hsplit : s.received ++ arrived = (s.taken ++ eaten) ++ t.rx.contents := by
    rw [List.append_assoc, ← heaten, hcontents, ← List.append_assoc, ← h.split]
  have htaken : ∀ handed accepted,
      (⟨t, s.received ++ arrived, handed, accepted⟩ : Receiver).taken = s.taken ++ eaten :=
    fun handed accepted => taken_eq _ _ hsplit
  refine ⟨hready.trans h.ready, by rw [htaken]; exact hsplit, by rw [htaken]; exact hline, ?_, ?_⟩
  · rw [htaken, assembled_append, ← h.handed, ← h.line]
    exact congrArg (s.handed ++ ·) hlines
  · intro line hmem
    simp only at hmem ⊢
    rw [List.mem_append]
    cases answered with
    | false => exact Or.inl (h.accepted line hmem)
    | true =>
      obtain ⟨front, last, stale, hfront, _⟩ := hlast rfl
      rw [if_pos rfl, hfront, List.getLast?_concat, Option.toList_some, List.mem_append,
        List.mem_singleton] at hmem
      rcases hmem with hmem | rfl
      · exact Or.inl (h.accepted line hmem)
      · exact Or.inr (by rw [hfront]; exact List.mem_append_right _ List.mem_cons_self)

theorem run_assembling (ops : List ReceiverOp) (h : Along step Fits Receiver.init ops) :
    Assembling (run step Receiver.init ops) := by
  apply run_invariant step Fits Assembling _ Receiver.init ops init_assembling h
  intro s op hs hfits
  cases op with
  | capture arrived => exact capture_assembling s arrived hs hfits
  | poll arrived task => exact poll_assembling s arrived task hs hfits

theorem completeLines_eq (bytes : List UInt8) : completeLines bytes = linesAfter [] bytes := rfl

theorem whole_iff (s : Receiver) (h : Assembling s) :
    Whole s ↔ ∀ line ∈ completeLines s.taken, line.length < 2304 := by
  constructor
  · intro hwhole
    have hcount : ((completeLines s.taken).filter (·.length < 2304)).length =
        (completeLines s.taken).length := by
      rw [← hwhole.1, h.handed, assembled_length, completeLines_eq,
        linesAfter_length [] s.taken List.not_mem_nil]
    rw [List.length_filter_eq_length_iff] at hcount
    simpa using hcount
  · intro hshort
    have hlines : s.handed = completeLines s.taken :=
      h.handed.trans (assembled_lines _ s.taken List.not_mem_nil hshort)
    constructor
    · rw [hlines, eq_comm, List.filter_eq_self]
      simpa using hshort
    · intro line hline
      rw [← hlines]
      exact h.accepted line hline

theorem init_fits (arrived : List UInt8) (task : AiTask) (h : arrived.length < 4096) :
    Along step Fits Receiver.init [.poll arrived task] := by
  have hempty : Receiver.init.transport.rx.contents = [] := cleared_contents _
  refine ⟨?_, trivial⟩
  show Receiver.init.transport.rx.contents.length + arrived.length < 4096
  rw [hempty, List.length_nil, Nat.zero_add]
  exact h

theorem fold_reset (l : LineBuffer) (waste : List UInt8) (hn : 10 ∉ waste) (hr : 13 ∉ waste)
    (hl : l.text.length + waste.length = 2304) (hne : waste ≠ []) :
    (waste.foldl lineStep l).text = [] := by
  rcases List.eq_nil_or_concat' waste with hnil | ⟨front, c, rfl⟩
  · exact absurd hnil hne
  · simp only [List.mem_append, List.mem_singleton, not_or] at hn hr
    rw [List.length_append, List.length_singleton] at hl
    have htext := congrArg List.length (fold_text l front hn.1 hr.1 (by omega))
    rw [List.length_append, text_length] at htext
    have hstep : lineStep (front.foldl lineStep l) c = (front.foldl lineStep l).put c := by
      rw [lineStep, if_neg fun e => hr.2 e.symm, if_neg fun e => hn.2 e.symm]
    have hput : ((front.foldl lineStep l).put c).length = 0 := by
      rw [LineBuffer.put, dif_neg (by omega)]
    rw [List.foldl_append, List.foldl_cons, List.foldl_nil, hstep, LineBuffer.text, hput,
      List.take_zero]

theorem completeLines_line (line : List UInt8) (hn : 10 ∉ line) (hr : 13 ∉ line) :
    completeLines (line ++ [10]) = [line] := by
  have hkeep : line.filter (· != 13) = line := by
    rw [List.filter_eq_self]
    intro c hc
    have hne : c ≠ 13 := fun e => hr (e ▸ hc)
    simpa using hne
  have hsplit : (line ++ 10 :: []).splitOn 10 = line :: List.splitOn 10 [] :=
    List.splitOn_append_cons_self_of_not_mem hn []
  rw [completeLines, List.filter_append, hkeep]
  exact congrArg List.dropLast hsplit

theorem init_poll (arrived : List UInt8) (task : AiTask) (h : arrived.length < 4096)
    (hdry : (consume task Transport.init.line arrived).2.2 = []) :
    (Transport.init.poll arrived task).2.2 =
        (consume task Transport.init.line arrived).1.getD task ∧
      (run step Receiver.init [.poll arrived task]).taken = arrived ∧
      (run step Receiver.init [.poll arrived task]).accepted =
        if (consume task Transport.init.line arrived).1.isSome then
          (assembled Transport.init.line arrived).getLast?.toList
        else [] := by
  have hcontents : (Transport.init.captureRx arrived).rx.contents = arrived := by
    have hempty : Receiver.init.transport.rx.contents = [] := cleared_contents _
    have hcapture := capture_contents Receiver.init arrived (init_fits arrived task h).1
    rwa [hempty, List.nil_append] at hcapture
  obtain ⟨rx, hrx, _, hloop⟩ :=
    pollLoop_consume 4096 (Transport.init.captureRx arrived) task (pending_lt _).le
  obtain ⟨eaten, heaten, _, hlines, _⟩ :=
    pollLoop_handed 4096 (Transport.init.captureRx arrived) task
  have hline : (Transport.init.captureRx arrived).line = Transport.init.line := rfl
  rw [hline, hcontents] at hrx hloop
  rw [hline] at hlines
  rw [hdry] at hrx
  rw [hloop, hcontents] at heaten
  simp only [hrx, List.append_nil] at heaten
  have hpoll : Transport.init.poll arrived task =
      pollLoop 4096 (Transport.init.captureRx arrived) task := if_pos rfl
  have hready : Receiver.init.transport.ready = true := rfl
  have hstate : run step Receiver.init [.poll arrived task] = Receiver.init.poll arrived task := rfl
  refine ⟨by rw [hpoll, hloop], ?_, ?_⟩
  · apply taken_eq
    rw [hstate, Receiver.poll, if_pos hready]
    show [] ++ arrived = arrived ++ (Transport.init.poll arrived task).2.1.rx.contents
    rw [hpoll, hloop, List.nil_append]
    simp only [hrx, List.append_nil]
  · rw [hstate, Receiver.poll, if_pos hready]
    show (if (Transport.init.poll arrived task).1 = true then
      [] ++ (handedLoop 4096 (Transport.init.captureRx arrived) task).getLast?.toList else []) = _
    rw [hpoll, hloop, hlines, ← heaten, List.nil_append]

/-- In every run without an overflow of the receive buffer, whatever the bytes
and however captures and polls divide them: the lines handed to the parser are
the fitting lines of the stream, and only whole lines complete a task, exactly
when no complete line of the bytes taken so far is too long for the array. -/
theorem lines_whole_iff (ops : List ReceiverOp) (h : Along step Fits Receiver.init ops) :
    Whole (run step Receiver.init ops) ↔
      ∀ line ∈ completeLines (run step Receiver.init ops).taken, line.length < 2304 :=
  whole_iff _ (run_assembling ops h)

def okFrame : Frame := ⟨1, true, HostBridge.str "ok"⟩

def waitingTask : AiTask := { AiTask.init with taskId := 1, status := .running }

theorem lines_whole_iff_ok : waitingTask.status = .running ∧
    (Transport.init.poll okFrame.bytes waitingTask).2.2 = answered waitingTask okFrame ∧
    Whole (run step Receiver.init [.poll okFrame.bytes waitingTask]) := by
  have hfits := init_fits okFrame.bytes waitingTask (by decide)
  have hid : okFrame.id = waitingTask.taskId := rfl
  have hconsume : consume waitingTask Transport.init.line okFrame.bytes =
      (some (answered waitingTask okFrame),
        (okFrame.body.foldl lineStep Transport.init.line).terminate, []) := by
    rw [Frame.bytes, consume_frame waitingTask _ okFrame okFrame.body [] rfl, if_pos hid]
  obtain ⟨htask, htaken, -⟩ :=
    init_poll okFrame.bytes waitingTask (by decide) (by rw [hconsume])
  rw [hconsume] at htask
  refine ⟨rfl, htask, (lines_whole_iff _ hfits).mpr ?_⟩
  rw [htaken, Frame.bytes, completeLines_line _ (newline_not_mem_body okFrame)
    (return_not_mem_body okFrame)]
  intro line hline
  rw [List.mem_singleton.mp hline]
  have hbody := body_length okFrame
  omega

theorem tail_accepted (waste : List UInt8) (f : Frame) (task : AiTask)
    (hlength : waste.length = 2304)
    (hn : 10 ∉ waste) (hr : 13 ∉ waste) (hbytes : f.bytes.length < 1792)
    (hid : f.id = task.taskId) :
    (Transport.init.poll (waste ++ f.bytes) task).2.2 = answered task f ∧
      completeLines (run step Receiver.init [.poll (waste ++ f.bytes) task]).taken =
        [waste ++ f.body] ∧
      (run step Receiver.init [.poll (waste ++ f.bytes) task]).accepted = [f.body] := by
  have hne : waste ≠ [] := by
    intro hnil
    rw [hnil, List.length_nil] at hlength
    omega
  have htext : (waste.foldl lineStep Transport.init.line).text = [] :=
    fold_reset _ waste hn hr (by rw [hlength]; rfl) hne
  have hnewline := newline_not_mem_body f
  have hreturn := return_not_mem_body f
  have hbody := body_length f
  have hconsume : consume task Transport.init.line (waste ++ f.bytes) =
      (some (answered task f),
        (f.body.foldl lineStep (waste.foldl lineStep Transport.init.line)).terminate, []) := by
    have hdry : (consume task Transport.init.line waste).1 = none := by
      rcases consume_used task Transport.init.line waste with hc | ⟨front, rest, t, hm, _, _⟩
      · rw [hc]
      · exact absurd (hm ▸ by simp) hn
    have hstart : f.body = (waste.foldl lineStep Transport.init.line).text ++ f.body := by
      rw [htext, List.nil_append]
    rw [consume_append task _ _ _ hdry, Frame.bytes, consume_frame task _ f f.body [] hstart,
      if_pos hid]
  have hlines : linesAfter [] f.bytes = [f.body] := completeLines_line f.body hnewline hreturn
  have hassembled : assembled Transport.init.line (waste ++ f.bytes) = [f.body] := by
    have hfold := assembled_lines (waste.foldl lineStep Transport.init.line) f.bytes
      (by rw [htext]; exact List.not_mem_nil)
      (by
        rw [htext, hlines]
        intro line hline
        rw [List.mem_singleton.mp hline]
        omega)
    rw [assembled_append, assembled_nil _ waste hn, hfold, htext, hlines, List.nil_append]
  have hcomplete : completeLines (waste ++ f.bytes) = [waste ++ f.body] := by
    rw [Frame.bytes, ← List.append_assoc]
    apply completeLines_line
    · exact fun h => (List.mem_append.mp h).elim hn hnewline
    · exact fun h => (List.mem_append.mp h).elim hr hreturn
  obtain ⟨htask, htaken, haccepted⟩ := init_poll (waste ++ f.bytes) task
    (by rw [List.length_append]; omega) (by rw [hconsume])
  rw [hconsume] at htask haccepted
  rw [hassembled] at haccepted
  exact ⟨htask, by rw [htaken, hcomplete], haccepted⟩

/-- The end of a line of 2329 bytes completes a running task. -/
def suffixRun : List ReceiverOp :=
  [.poll (List.replicate 2304 65 ++ okFrame.bytes) waitingTask]

theorem suffix_accepted :
    Along step Fits Receiver.init suffixRun ∧ waitingTask.status = .running ∧
      (Transport.init.poll (List.replicate 2304 65 ++ okFrame.bytes) waitingTask).2.2 =
        answered waitingTask okFrame ∧
      completeLines (run step Receiver.init suffixRun).taken =
        [List.replicate 2304 65 ++ okFrame.body] ∧
      (run step Receiver.init suffixRun).accepted = [okFrame.body] ∧
      ¬ Whole (run step Receiver.init suffixRun) := by
  have hframe : okFrame.bytes.length = 26 := by decide
  have hlength : (List.replicate 2304 (65 : UInt8)).length = 2304 := List.length_replicate
  have hmem : ∀ c ∈ List.replicate 2304 (65 : UInt8), c = 65 :=
    fun c hc => List.eq_of_mem_replicate hc
  rw [suffixRun]
  generalize List.replicate 2304 (65 : UInt8) = waste at hlength hmem
  have hfits : Along step Fits Receiver.init [.poll (waste ++ okFrame.bytes) waitingTask] :=
    init_fits _ waitingTask (by rw [List.length_append]; omega)
  have hn : 10 ∉ waste := fun h => absurd (hmem 10 h) (by decide)
  have hr : 13 ∉ waste := fun h => absurd (hmem 13 h) (by decide)
  obtain ⟨htask, hcomplete, haccepted⟩ :=
    tail_accepted waste okFrame waitingTask hlength hn hr (by omega) rfl
  refine ⟨hfits, rfl, htask, hcomplete, haccepted, ?_⟩
  rw [whole_iff _ (run_assembling _ hfits), hcomplete]
  intro hshort
  have hlong := hshort _ List.mem_cons_self
  rw [List.length_append] at hlong
  omega

end Hnmos.LineAssembly
