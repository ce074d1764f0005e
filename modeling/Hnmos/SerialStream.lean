import Mathlib
import Hnmos.SerialLink

/-!
# The byte stream between host and guest

The invariant splits the captured bytes into an eaten and a pending part. The
fact about one poll is proved here for any pattern of dropped bytes: a
running task whose frame was stored whole at the start of a line is completed.
-/

set_option autoImplicit false

namespace Hnmos.SerialLink
open Hnmos.RingBuffer Hnmos.Task Hnmos.SerialTransport Hnmos.AiBridge Hnmos.HostBridge
open Hnmos.ResponseFrame Hnmos.Transition

/-- The last byte stored so far, if there is one, is a newline. -/
def AtLineStart (pre : List (UInt8 × Bool)) : Prop :=
  stored pre = [] ∨ (stored pre).getLast? = some 10

/-- The frame sent after `before` lies in the captured bytes, stored whole,
and nothing of an unfinished line was stored before it. -/
def WholeLine (captured : List (UInt8 × Bool)) (before : List Frame) (f : Frame) : Prop :=
  ∃ pre own post, captured = pre ++ own ++ post ∧
    pre.map Prod.fst = before.flatMap Frame.bytes ∧ own.map Prod.fst = f.bytes ∧
    (∀ m ∈ own, m.2 = true) ∧ AtLineStart pre

structure Framed (s : Link) (eaten pending : List (UInt8 × Bool)) : Prop where
  captured : s.captured = eaten ++ pending
  buffer : stored pending = s.transport.rx.contents
  line : s.transport.line = (stored eaten).foldl lineStep Transport.init.line
  stream : s.sent.flatMap Frame.bytes = s.captured.map Prod.fst ++ s.wire
  fresh : s.bridge.lastTask.status = .running → ∀ before f behind,
    s.sent = before ++ f :: behind → s.base ≤ before.length →
      f.id = s.bridge.lastTask.taskId → ¬ WholeLine eaten before f

theorem init_framed (u : SerialPort.Uart) : Framed (Link.init u) [] [] where
  captured := rfl
  buffer := (cleared_contents _).symm
  line := rfl
  stream := rfl
  fresh := nofun

theorem fold_boundary (pre : List (UInt8 × Bool)) (h : AtLineStart pre) :
    ((stored pre).foldl lineStep Transport.init.line).text = [] := by
  rcases h with hnil | hlast
  · rw [hnil]
    rfl
  · exact fold_newline _ _ hlast

theorem whole_completes (task : AiTask) (eaten pending : List (UInt8 × Bool))
    (before : List Frame) (f : Frame) (hid : f.id = task.taskId)
    (hfresh : ¬ WholeLine eaten before f) (hwhole : WholeLine (eaten ++ pending) before f) :
    (consume task ((stored eaten).foldl lineStep Transport.init.line) (stored pending)).1 ≠
      none := by
  obtain ⟨pre, own, post, hc, hpre, hown, hall, hstart⟩ := hwhole
  have hown' : stored own = f.bytes := by rw [stored_of_all own hall, hown]
  rcases List.append_eq_append_iff.mp hc with ⟨c, hcut, hpending⟩ | ⟨a, heaten, _⟩
  · rcases List.append_eq_append_iff.mp hcut with ⟨d, hd, hcd⟩ | ⟨d, hd, hcd⟩
    · -- the eaten part ends inside the frame
      have hne : c ≠ [] := by
        rintro rfl
        exact hfresh ⟨pre, own, [], by rw [List.append_nil, hcut, List.append_nil], hpre, hown,
          hall, hstart⟩
      have hkept : ∀ m ∈ c, m.2 = true := fun m hm => hall m (hcd ▸ List.mem_append_right _ hm)
      have hkept' : ∀ m ∈ d, m.2 = true := fun m hm => hall m (hcd ▸ List.mem_append_left _ hm)
      have hbytes : f.bytes = d.map Prod.fst ++ c.map Prod.fst := by
        rw [← hown, hcd, List.map_append]
      obtain ⟨missing, hmissing, hbody⟩ := bytes_split f _ _ (by simpa using hne) hbytes
      have hnewline := newline_not_mem_body f
      have hreturn := return_not_mem_body f
      have hlength := body_length f
      rw [hbody] at hnewline hreturn hlength
      simp only [List.mem_append, not_or, List.length_append] at hnewline hreturn hlength
      have htext : ((stored eaten).foldl lineStep Transport.init.line).text =
          d.map Prod.fst := by
        have hboundary := fold_boundary pre hstart
        rw [hd, stored_append, List.foldl_append, stored_of_all d hkept',
          fold_text _ _ hnewline.1 hreturn.1 (by rw [hboundary, List.length_nil]; omega),
          hboundary, List.nil_append]
      have hstored : stored pending = missing ++ 10 :: stored post := by
        rw [hpending, stored_append, stored_of_all c hkept, hmissing, List.append_assoc,
          List.singleton_append]
      rw [hstored, consume_frame task _ f missing _ (by rw [htext, hbody]), if_pos hid]
      exact Option.some_ne_none _
    · -- the eaten part ends before the frame: run the loop up to it
      have hstored : stored pending = stored d ++ (f.body ++ 10 :: stored post) := by
        rw [hpending, hcd, stored_append, stored_append, hown', Frame.bytes, List.append_assoc,
          List.append_assoc, List.singleton_append]
      rw [hstored]
      by_cases hdry : (consume task ((stored eaten).foldl lineStep Transport.init.line)
          (stored d)).1 = none
      · have htext := fold_boundary pre hstart
        rw [hd, stored_append, List.foldl_append] at htext
        rw [consume_append task _ _ _ hdry,
          consume_frame task _ f f.body _ (by rw [htext, List.nil_append]), if_pos hid]
        exact Option.some_ne_none _
      · exact consume_append_some task _ _ _ hdry
  · exact absurd ⟨pre, own, a, heaten, hpre, hown, hall, hstart⟩ hfresh

theorem capture_framed (s : Link) (n : ℕ) (eaten pending : List (UInt8 × Bool))
    (h : Framed s eaten pending) :
    Framed (s.capture n) eaten (pending ++ s.transport.rx.storing (s.wire.take n)) where
  captured := by rw [Link.capture, h.captured, List.append_assoc]
  buffer := by
    rw [stored_append, h.buffer]
    exact (storing_contents _ _).symm
  line := h.line
  stream := by
    simp only [Link.capture, List.map_append, storing_fst, List.append_assoc,
      List.take_append_drop]
    exact h.stream
  fresh := h.fresh

theorem poll_framed (s : Link) (n : ℕ) (eaten pending : List (UInt8 × Bool)) (hb : Wired s)
    (h : Framed s eaten pending) : ∃ eaten' pending', Framed (s.poll n).2 eaten' pending' := by
  by_cases hrun : s.bridge.lastTask.status = .running
  · have hc := capture_framed s n eaten pending h
    obtain ⟨rx, hrx, hpoll⟩ := poll_running s n hb hrun
    generalize pending ++ s.transport.rx.storing (s.wire.take n) = pending₁ at hc
    rw [hpoll]
    rcases consume_used s.bridge.lastTask s.transport.line (s.capture n).transport.rx.contents with
      hdry | ⟨front, rest, t, hsplit, hsome, hparse⟩
    · rw [hdry] at hrx ⊢
      refine ⟨eaten ++ pending₁, [], by simp [hc.captured], by simpa [stored] using hrx.symm, ?_,
        hc.stream, ?_⟩
      · rw [stored_append, List.foldl_append, hc.buffer, ← h.line]
      · intro _ before f behind hsent hbase hid hwhole
        have hnone := whole_completes s.bridge.lastTask eaten pending₁ before f hid
          (h.fresh hrun before f behind hsent hbase hid) hwhole
        rw [← h.line, hc.buffer, hdry] at hnone
        exact hnone rfl
    · rw [hsome] at hrx ⊢
      obtain ⟨first, last, hpending, hfirst, hlast⟩ :=
        stored_split pending₁ front 10 rest (hc.buffer.trans hsplit)
      refine ⟨eaten ++ first ++ [(10, true)], last, by simp [hc.captured, hpending],
        hlast.trans hrx.symm, ?_, hc.stream, ?_⟩
      · rw [stored_append, stored_append, hfirst, List.foldl_append, List.foldl_append, ← h.line]
        rfl
      · intro hrunning
        exact absurd hrunning (parseResponse_status _ _ t hparse).1
  · rw [poll_idle s n hb hrun]
    exact ⟨eaten, pending, h⟩

theorem send_framed (s : Link) (f : Frame) (eaten pending : List (UInt8 × Bool))
    (h : Framed s eaten pending) : Framed (s.send f) eaten pending where
  captured := h.captured
  buffer := h.buffer
  line := h.line
  stream := by
    simp only [Link.send, List.flatMap_append, h.stream, List.flatMap_cons, List.flatMap_nil,
      List.append_nil, List.append_assoc]
  fresh := by
    intro hrun before g behind hsent hbase hid hwhole
    have hsent' : s.sent ++ [f] = before ++ g :: behind := hsent
    rcases List.eq_nil_or_concat' behind with rfl | ⟨behind', x, rfl⟩
    · -- the new frame is not captured yet
      obtain ⟨rfl, _⟩ := List.append_inj' hsent' rfl
      obtain ⟨pre, own, post, hc, hpre, hown, _, _⟩ := hwhole
      have hlength := congrArg List.length h.stream
      have hpre' := congrArg List.length hpre
      have hown' := congrArg List.length hown
      rw [h.captured, hc] at hlength
      simp only [List.length_append, List.length_map, Frame.bytes, List.length_singleton]
        at hlength hpre' hown'
      omega
    · rw [← List.cons_append, ← List.append_assoc] at hsent'
      obtain ⟨hold, _⟩ := List.append_inj' hsent' rfl
      exact h.fresh hrun before g behind' hold hbase hid hwhole

theorem answer_framed (s : Link) (success : Bool) (text : Str)
    (eaten pending : List (UInt8 × Bool)) (h : Framed s eaten pending) :
    Framed (s.answer success text) eaten pending := by
  rw [Link.answer]
  cases s.requests with
  | nil => exact h
  | cons id requests =>
    exact send_framed _ _ _ _ ⟨h.captured, h.buffer, h.line, h.stream, h.fresh⟩

theorem submit_framed (s : Link) (input : Option (List UInt8)) (contextFlags : UInt32)
    (eaten pending : List (UInt8 × Bool)) (hb : Wired s) (h : Framed s eaten pending) :
    Framed (s.submit input contextFlags) eaten pending := by
  rw [Link.submit, submit_hnlang _ _ _ _ _ hb.bridgeReady hb.active]
  refine ⟨h.captured, h.buffer, h.line, h.stream, ?_⟩
  intro _ before f behind hsent hbase
  have hlength := congrArg List.length hsent
  simp only [List.length_append, List.length_cons] at hlength hbase
  omega

theorem cancel_framed (s : Link) (eaten pending : List (UInt8 × Bool))
    (h : Framed s eaten pending) :
    Framed { s with bridge := s.bridge.cancel.2 } eaten pending := by
  rw [Bridge.cancel]
  split_ifs
  · exact h
  · have hended : TaskStatus.cancelled ≠ .running := by decide
    exact ⟨h.captured, h.buffer, h.line, h.stream, fun hrun => absurd hrun hended⟩

def LinkInv (s : Link) : Prop := Wired s ∧ ∃ eaten pending, Framed s eaten pending

theorem poll_wired (s : Link) (n : ℕ) (h : Wired s) : Wired (s.poll n).2 := by
  by_cases hrun : s.bridge.lastTask.status = .running
  · obtain ⟨rx, _, hpoll⟩ := poll_running s n h hrun
    have hp : s.bridge.lastProvider = some .serial := by
      rcases h.provider with hp | he
      · exact hp
      · simp [he] at hrun
    rw [hpoll]
    exact ⟨h.bridgeReady, h.active, h.transportReady, Or.inl hp, h.issued⟩
  · rw [poll_idle s n h hrun]
    exact h

theorem step_inv (s : Link) (op : LinkOp) (h : LinkInv s) : LinkInv (step s op) := by
  obtain ⟨hwired, eaten, pending, hframed⟩ := h
  cases op with
  | submit input contextFlags =>
    exact ⟨submit_wired s input contextFlags hwired, eaten, pending,
      submit_framed s input contextFlags eaten pending hwired hframed⟩
  | cancel => exact ⟨cancel_wired s hwired, eaten, pending, cancel_framed s _ _ hframed⟩
  | answer success text =>
    exact ⟨answer_wired s success text hwired, eaten, pending,
      answer_framed s success text _ _ hframed⟩
  | errorFrame text =>
    exact ⟨send_wired s _ hwired, eaten, pending, send_framed s _ _ _ hframed⟩
  | capture n =>
    exact ⟨capture_wired s n hwired, eaten, _, capture_framed s n eaten pending hframed⟩
  | poll n => exact ⟨poll_wired s n hwired, poll_framed s n eaten pending hwired hframed⟩

theorem run_inv (u : SerialPort.Uart) (ops : List LinkOp) :
    LinkInv (run step (Link.init u) ops) :=
  run_invariant_all step LinkInv step_inv _ ops ⟨init_wired u, [], [], init_framed u⟩

theorem split_line (ms : List (UInt8 × Bool)) :
    ∃ pre own, ms = pre ++ own ∧ AtLineStart pre ∧ 10 ∉ stored own ∧
      ∀ m ∈ own.head?, m.2 = true := by
  induction ms with
  | nil => exact ⟨[], [], rfl, Or.inl rfl, List.not_mem_nil, nofun⟩
  | cons m ms ih =>
    obtain ⟨pre, own, rfl, hpre, hown, hhead⟩ := ih
    obtain ⟨c, kept⟩ := m
    have hsplit : (c, kept) :: (pre ++ own) = ((c, kept) :: pre) ++ own := rfl
    cases kept with
    | false =>
      have hskip : stored ((c, false) :: pre) = stored pre := by simp [stored]
      exact ⟨(c, false) :: pre, own, hsplit, by rwa [AtLineStart, hskip], hown, hhead⟩
    | true =>
      have hkeep : stored ((c, true) :: pre) = c :: stored pre := by simp [stored]
      rcases hpre with hnil | hlast
      · by_cases hc : c = 10
        · exact ⟨(c, true) :: pre, own, hsplit, Or.inr (by rw [hkeep, hnil, hc]; rfl), hown, hhead⟩
        · refine ⟨[], (c, true) :: (pre ++ own), rfl, Or.inl rfl, ?_, by simp⟩
          have hline : stored ((c, true) :: (pre ++ own)) = c :: stored own := by
            rw [hsplit, stored_append, hkeep, hnil, List.singleton_append]
          rw [hline, List.mem_cons, not_or]
          exact ⟨fun e => hc e.symm, hown⟩
      · refine ⟨(c, true) :: pre, own, hsplit, Or.inr ?_, hown, hhead⟩
        rw [hkeep, List.getLast?_cons, hlast]
        rfl

/-- The line buffer behind the stored bytes of a line and those before it. -/
def assembled (pre own : List (UInt8 × Bool)) : LineBuffer :=
  (stored own).foldl lineStep ((stored pre).foldl lineStep Transport.init.line)

/-- The task is what the parser makes of the terminated line, which is the
stored bytes of `own` as long as the line array holds them. -/
structure Parsed (waiting task : AiTask) (pre own : List (UInt8 × Bool)) : Prop where
  text : (stored own).length < 2304 → (assembled pre own).text = stored own
  answer : parseResponse (assembled pre own).terminate.cells waiting = some task

def WholeFrame (s : Link) (pre own : List (UInt8 × Bool)) (task : AiTask) : Prop :=
  ∃ before f behind, s.sent = before ++ f :: behind ∧
    pre.map Prod.fst = before.flatMap Frame.bytes ∧ own.map Prod.fst = f.body ∧
    f.id = s.bridge.lastTask.taskId ∧ task = answered s.bridge.lastTask f

theorem return_not_mem_bytes (fs : List Frame) : 13 ∉ fs.flatMap Frame.bytes := by
  intro hmem
  obtain ⟨f, _, hf⟩ := List.mem_flatMap.mp hmem
  rcases List.mem_append.mp hf with hbody | hnewline
  · exact return_not_mem_body f hbody
  · exact absurd (List.mem_singleton.mp hnewline) (by decide)

theorem assembled_text (pre own : List (UInt8 × Bool)) (hstart : AtLineStart pre)
    (hnewline : 10 ∉ stored own) (hreturn : 13 ∉ stored own) (h : (stored own).length < 2304) :
    (assembled pre own).text = stored own := by
  have hboundary := fold_boundary pre hstart
  rw [assembled, fold_text _ _ hnewline hreturn (by rw [hboundary, List.length_nil]; omega),
    hboundary, List.nil_append]

theorem stored_subset (ms : List (UInt8 × Bool)) (c : UInt8) (h : c ∈ stored ms) :
    c ∈ ms.map Prod.fst := by
  obtain ⟨m, hm, rfl⟩ := List.mem_map.mp h
  exact List.mem_map_of_mem (List.mem_of_mem_filter hm)

/-- A poll that reports an answer took it from the line that ends at the last
eaten newline. If no byte was lost after the first stored byte of that line,
the line is one whole frame for the current task. -/
theorem poll_source (s : Link) (n : ℕ) (h : LinkInv s) (hpoll : (s.poll n).1 = true) :
    ∃ pre own post, (s.poll n).2.captured = pre ++ own ++ (10, true) :: post ∧
      stored post = (s.poll n).2.transport.rx.contents ∧
      AtLineStart pre ∧ 10 ∉ stored own ∧ (∀ m ∈ own.head?, m.2 = true) ∧
      Parsed s.bridge.lastTask (s.poll n).2.bridge.lastTask pre own ∧
      ((∀ m ∈ own, m.2 = true) → WholeFrame s pre own (s.poll n).2.bridge.lastTask) := by
  obtain ⟨hb, eaten, pending, hf⟩ := h
  by_cases hrun : s.bridge.lastTask.status = .running
  · have hc := capture_framed s n eaten pending hf
    obtain ⟨rx, hrx, heq⟩ := poll_running s n hb hrun
    generalize pending ++ s.transport.rx.storing (s.wire.take n) = pending₁ at hc
    rw [heq] at hpoll ⊢
    rcases consume_used s.bridge.lastTask s.transport.line (s.capture n).transport.rx.contents with
      hdry | ⟨front, rest, t, hsplit, hsome, hparse⟩
    · rw [hdry] at hpoll
      exact absurd hpoll (by simp)
    · rw [hsome] at hrx ⊢
      obtain ⟨first, last, hpending, hfirst, hlast⟩ :=
        stored_split pending₁ front 10 rest (hc.buffer.trans hsplit)
      obtain ⟨pre, own, hcut, hpre, hown, hhead⟩ := split_line (eaten ++ first)
      have hcaptured : (s.capture n).captured = pre ++ own ++ (10, true) :: last := by
        rw [hc.captured, hpending, ← List.append_assoc, hcut]
      have hstream : s.sent.flatMap Frame.bytes = pre.map Prod.fst ++
          (own.map Prod.fst ++ 10 :: (last.map Prod.fst ++ (s.capture n).wire)) := by
        rw [show s.sent = (s.capture n).sent from rfl, hc.stream, hcaptured]
        simp
      have hreturn : 13 ∉ stored own := by
        intro hmem
        apply return_not_mem_bytes s.sent
        rw [hstream]
        exact List.mem_append_right _ (List.mem_append_left _ (stored_subset own 13 hmem))
      have hline : front.foldl lineStep s.transport.line = assembled pre own := by
        rw [hf.line, ← List.foldl_append, ← hfirst, ← stored_append, hcut, stored_append,
          List.foldl_append]
        rfl
      rw [hline] at hparse
      refine ⟨pre, own, last, hcaptured, hlast.trans hrx.symm, hpre, hown, hhead,
        ⟨assembled_text pre own hpre hown hreturn, hparse⟩, ?_⟩
      intro hall
      have hwhole := stored_of_all own hall
      rw [hwhole] at hown hreturn
      obtain ⟨before, f, behind, skipped, hsent, hbefore, hbody⟩ :=
        line_in_stream s.sent _ _ _ hown hstream
      have htext : (assembled pre own).text = own.map Prod.fst := by
        have hlength := body_length f
        rw [hbody, List.length_append] at hlength
        rw [← hwhole]
        exact assembled_text pre own hpre (hwhole ▸ hown) (hwhole ▸ hreturn)
          (by rw [hwhole]; omega)
      rw [terminate_cells, htext] at hparse
      obtain rfl := accepted_whole f skipped _ _ _ _ hbody hparse
      rw [List.nil_append] at hbody
      rw [List.append_nil] at hbefore
      rw [← hbody, parse_body] at hparse
      split_ifs at hparse with hid
      exact ⟨before, f, behind, hsent, hbefore, hbody.symm, hid, (Option.some.inj hparse).symm⟩
  · rw [poll_idle s n hb hrun] at hpoll
    exact absurd hpoll (by simp)

theorem poll_completes (s : Link) (n : ℕ) (h : LinkInv s)
    (hrun : s.bridge.lastTask.status = .running) (before behind : List Frame) (f : Frame)
    (hsent : s.sent = before ++ f :: behind) (hbase : s.base ≤ before.length)
    (hid : f.id = s.bridge.lastTask.taskId)
    (hwhole : WholeLine (s.poll n).2.captured before f) : (s.poll n).1 = true := by
  obtain ⟨hb, eaten, pending, hf⟩ := h
  have hc := capture_framed s n eaten pending hf
  obtain ⟨rx, _, heq⟩ := poll_running s n hb hrun
  rw [heq] at hwhole ⊢
  have hwhole' : WholeLine (s.capture n).captured before f := hwhole
  rw [hc.captured] at hwhole'
  have hne := whole_completes s.bridge.lastTask eaten _ before f hid
    (hf.fresh hrun before f behind hsent hbase hid) hwhole'
  rw [← hf.line, hc.buffer] at hne
  simpa [Option.isSome_iff_ne_none] using hne

theorem poll_sent (s : Link) (n : ℕ) : (s.poll n).2.sent = s.sent := by
  rw [Link.poll]
  rcases s.bridge.poll s.transport (s.wire.take n) with ⟨answered, bridge, transport⟩
  simp only
  split_ifs <;> rfl

end Hnmos.SerialLink
