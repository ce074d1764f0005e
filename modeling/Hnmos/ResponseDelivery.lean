import Mathlib
import Hnmos.SerialStream

/-!
# Delivery of responses

In a run without wrapped identifiers exactly one frame answers a task. The
delivery theorem reads the facts about one poll for runs in which the receive
buffer stored every byte.
-/

set_option autoImplicit false

namespace Hnmos.SerialLink
open Hnmos.RingBuffer Hnmos.Task Hnmos.SerialTransport Hnmos.AiBridge Hnmos.HostBridge
open Hnmos.ResponseFrame Hnmos.Transition
open SerialPort (readyUart)

def Bounded (s : Link) : Prop := s.submissions < 2 ^ 32 - 1

theorem poll_submissions (s : Link) (n : ℕ) : (s.poll n).2.submissions = s.submissions := by
  rw [Link.poll]
  rcases s.bridge.poll s.transport (s.wire.take n) with ⟨answered, bridge, transport⟩
  simp only
  split_ifs <;> rfl

theorem step_submissions (s : Link) (op : LinkOp) : s.submissions ≤ (step s op).submissions := by
  cases op with
  | submit input contextFlags => exact Nat.le_succ _
  | cancel => exact le_rfl
  | answer success text =>
    rw [step, Link.answer]
    cases s.requests <;> exact le_rfl
  | errorFrame text => exact le_rfl
  | capture n => exact le_rfl
  | poll n => exact (poll_submissions s n).ge

theorem bounded_back (s : Link) (op : LinkOp) (h : Bounded (step s op)) : Bounded s :=
  lt_of_le_of_lt (step_submissions s op) h

theorem poll_booked (s : Link) (n : ℕ) (h : Booked s) : Booked (s.poll n).2 := by
  have hwired := poll_wired s n h.toWired
  by_cases hrun : s.bridge.lastTask.status = .running
  · obtain ⟨rx, _, hpoll⟩ := poll_running s n h.toWired hrun
    rw [hpoll] at hwired ⊢
    rcases consume_used s.bridge.lastTask s.transport.line (s.capture n).transport.rx.contents with
      hdry | ⟨front, rest, t, _, hsome, hparse⟩
    · rw [hdry] at hwired ⊢
      exact ⟨hwired, h.next, h.current, h.started, h.unique, h.range, h.earlier, h.texts⟩
    · obtain ⟨decoded, ht⟩ := parseResponse_some _ _ t hparse
      have hstatus := parseResponse_status _ _ t hparse
      have hid : t.taskId = s.bridge.lastTask.taskId := by
        rw [ht]
        rfl
      rw [hsome] at hwired ⊢
      exact ⟨hwired, h.next, (congrArg UInt32.toNat hid).trans h.current,
        fun hrunning => absurd hrunning hstatus.1, h.unique, h.range, h.earlier, h.texts⟩
  · rw [poll_idle s n h.toWired hrun]
    exact h

theorem step_booked (s : Link) (op : LinkOp) (h : Booked s) (hop : NulFree op)
    (hb : Bounded (step s op)) : Booked (step s op) := by
  cases op with
  | submit input contextFlags => exact submit_booked s input contextFlags h hb
  | cancel => exact cancel_booked s h
  | answer success text => exact answer_booked s success text h hop
  | errorFrame text => exact errorFrame_booked s text h hop
  | capture n =>
    exact ⟨capture_wired s n h.toWired, h.next, h.current, h.started, h.unique, h.range,
      h.earlier, h.texts⟩
  | poll n => exact poll_booked s n h

theorem run_booked (u : SerialPort.Uart) (ops : List LinkOp) (hops : ∀ op ∈ ops, NulFree op)
    (hb : Bounded (run step (Link.init u) ops)) : Booked (run step (Link.init u) ops) :=
  run_invariant_until step NulFree Bounded Booked bounded_back step_booked _ ops
    (init_booked u) hops hb

theorem poll_unanswered (s : Link) (n : ℕ) (h : Wired s) (hpoll : (s.poll n).1 = false) :
    (s.poll n).2.bridge = s.bridge := by
  by_cases hrun : s.bridge.lastTask.status = .running
  · obtain ⟨rx, _, heq⟩ := poll_running s n h hrun
    rw [heq] at hpoll ⊢
    have hnone := Option.isSome_eq_false_iff.mp hpoll
    rw [Option.isNone_iff_eq_none] at hnone
    simp only [hnone, Option.getD_none]
  · rw [poll_idle s n h hrun]

theorem frame_unique (s : Link) (h : Booked s) (f g : Frame) (hf : f ∈ s.sent) (hg : g ∈ s.sent)
    (hid : f.id = g.id) (hne : f.id ≠ 0) : f = g := by
  have hnodup : (sentIds s.sent).Nodup := (List.nodup_append.mp h.unique).1
  have hfilter : ((s.sent.filter fun f => f.id != 0).map Frame.id).Nodup := by
    rw [sentIds, List.filter_map] at hnodup
    exact hnodup
  exact List.inj_on_of_nodup_map hfilter (List.mem_filter.mpr ⟨hf, by simpa using hne⟩)
    (List.mem_filter.mpr ⟨hg, by simpa [← hid] using hne⟩) hid

theorem current_ne_zero (s : Link) (h : Booked s)
    (hrun : s.bridge.lastTask.status = .running) : s.bridge.lastTask.taskId ≠ 0 := by
  intro hz
  have hcurrent := h.current
  have hstarted := h.started hrun
  rw [hz, UInt32.toNat_zero] at hcurrent
  omega

/-- The frame of the current task was sent after the slot was filled. -/
theorem current_after_base (s : Link) (h : Booked s) (before behind : List Frame) (f : Frame)
    (hsent : s.sent = before ++ f :: behind) (hid : f.id = s.bridge.lastTask.taskId) :
    s.base ≤ before.length := by
  by_contra hlt
  have hmem : f ∈ s.sent.take s.base := by
    rw [hsent, List.take_append, List.mem_append]
    right
    rw [show s.base - before.length = s.base - before.length - 1 + 1 by omega,
      List.take_succ_cons]
    exact List.mem_cons_self
  have hearlier := h.earlier f hmem
  rw [hid, h.current] at hearlier
  omega

theorem poll_answered_running (s : Link) (n : ℕ) (h : Wired s) (hpoll : (s.poll n).1 = true) :
    s.bridge.lastTask.status = .running := by
  by_contra hrun
  rw [poll_idle s n h hrun] at hpoll
  exact absurd hpoll (by simp)

theorem wholeLine_of_lossless (s : Link) (captured : List (UInt8 × Bool)) (wire : List UInt8)
    (hall : ∀ m ∈ captured, m.2 = true) (before behind : List Frame) (f : Frame)
    (hsent : s.sent = before ++ f :: behind)
    (hstream : s.sent.flatMap Frame.bytes = captured.map Prod.fst ++ wire)
    (hwire : wire.length ≤ (behind.flatMap Frame.bytes).length) :
    WholeLine captured before f := by
  rw [hsent, List.flatMap_append, List.flatMap_cons, ← List.append_assoc] at hstream
  have hshort :
      (before.flatMap Frame.bytes ++ f.bytes).length ≤ (captured.map Prod.fst).length := by
    have hlength := congrArg List.length hstream
    simp only [List.length_append] at hlength ⊢
    omega
  obtain ⟨tail, htail⟩ := List.prefix_of_prefix_length_le (List.prefix_append _ _)
    ⟨wire, hstream.symm⟩ hshort
  obtain ⟨front, post, rfl, hfront, _⟩ := List.map_eq_append_iff.mp htail.symm
  obtain ⟨pre, own, rfl, hpre, hown⟩ := List.map_eq_append_iff.mp hfront
  refine ⟨pre, own, post, rfl, hpre, hown, fun m hm => hall m (by simp [hm]), ?_⟩
  have hkept : stored pre = before.flatMap Frame.bytes := by
    rw [stored_of_all pre fun m hm => hall m (by simp [hm]), hpre]
  rcases List.eq_nil_or_concat' before with rfl | ⟨front, g, rfl⟩
  · exact Or.inl hkept
  · right
    rw [hkept, List.flatMap_append, List.flatMap_cons, List.flatMap_nil, List.append_nil,
      Frame.bytes, ← List.append_assoc, List.getLast?_concat]

def Lossless (s : Link) : Prop := ∀ m ∈ s.captured, m.2 = true

/-- The frame of the current task has been sent, and what is still on the
wire belongs to later frames. -/
def FrameCaptured (s : Link) (wire : List UInt8) : Prop :=
  ∃ before f behind, s.sent = before ++ f :: behind ∧ f.id = s.bridge.lastTask.taskId ∧
    wire.length ≤ (behind.flatMap Frame.bytes).length

/-- In every run without a lost byte, a poll that reports an answer has
stored status and text of the one frame for the current task, a poll that
does not leaves the task alone, and the task is completed by the first poll
after the last byte of its frame has been captured. -/
theorem responses_delivered (u : SerialPort.Uart) (ops : List LinkOp) (n : ℕ)
    (hops : ∀ op ∈ ops, NulFree op) (hb : Bounded (run step (Link.init u) ops))
    (hl : Lossless ((run step (Link.init u) ops).poll n).2) :
    (((run step (Link.init u) ops).poll n).1 = true →
      ∃ f ∈ (run step (Link.init u) ops).sent,
        f.id = (run step (Link.init u) ops).bridge.lastTask.taskId ∧
        f.id.toNat = (run step (Link.init u) ops).submissions ∧
        (∀ g ∈ (run step (Link.init u) ops).sent, g.id = f.id → g = f) ∧
        ((run step (Link.init u) ops).poll n).2.bridge.lastTask.taskId = f.id ∧
        ((run step (Link.init u) ops).poll n).2.bridge.lastTask.status =
          (if f.success then .done else .error) ∧
        ((run step (Link.init u) ops).poll n).2.bridge.lastTask.output.chars = f.output) ∧
    (((run step (Link.init u) ops).poll n).1 = false →
      ((run step (Link.init u) ops).poll n).2.bridge.lastTask =
        (run step (Link.init u) ops).bridge.lastTask) ∧
    ((run step (Link.init u) ops).bridge.lastTask.status = .running →
      FrameCaptured (run step (Link.init u) ops) ((run step (Link.init u) ops).poll n).2.wire →
      ((run step (Link.init u) ops).poll n).1 = true) := by
  have h := run_inv u ops
  have hbooked := run_booked u ops hops hb
  generalize run step (Link.init u) ops = s at h hl hb hbooked
  refine ⟨?_, ?_, ?_⟩
  · intro hpoll
    have hrun := poll_answered_running s n h.1 hpoll
    obtain ⟨pre, own, post, hcaptured, _, _, _, _, _, hwhole⟩ := poll_source s n h hpoll
    obtain ⟨before, f, behind, hsent, _, _, hid, htask⟩ := hwhole fun m hm => hl m (by
      rw [hcaptured]
      simp [hm])
    have hmem : f ∈ s.sent := by
      rw [hsent]
      simp
    have hne : f.id ≠ 0 := hid ▸ current_ne_zero s hbooked hrun
    refine ⟨f, hmem, hid, by rw [hid, hbooked.current], ?_, ?_, ?_, ?_⟩
    · exact fun g hg hgid => frame_unique s hbooked g f hg hmem hgid (hgid ▸ hne)
    · rw [htask, hid]
      rfl
    · rw [htask]
      rfl
    · rw [htask, answered_output _ f (hbooked.texts f hmem)]
  · intro hpoll
    rw [poll_unanswered s n h.1 hpoll]
  · rintro hrun ⟨before, f, behind, hsent, hid, hwire⟩
    obtain ⟨_, eaten, pending, hf⟩ := step_inv s (.poll n) h
    have hwhole := wholeLine_of_lossless (s.poll n).2 _ _ hl before behind f
      (by rw [poll_sent, hsent]) hf.stream hwire
    have hbase := current_after_base s hbooked before behind f hsent hid
    exact poll_completes s n h hrun before behind f hsent hbase hid hwhole

def okRun : List LinkOp := [.submit (some [97]) 0, .answer true (str "ok")]

theorem okRun_bounded : Bounded (run step (Link.init readyUart) okRun) := by
  change (run step (Link.init readyUart) okRun).submissions < 2 ^ 32 - 1
  decide

theorem okRun_lossless : ∀ m ∈ ((run step (Link.init readyUart) okRun).poll 26).2.captured,
    m.2 = true := by
  decide +kernel

theorem okRun_answered : ((run step (Link.init readyUart) okRun).poll 26).1 = true := by
  decide +kernel

theorem responses_delivered_ok :
    ∃ f ∈ (run step (Link.init readyUart) okRun).sent,
      ((run step (Link.init readyUart) okRun).poll 26).2.bridge.lastTask.output.chars =
        f.output := by
  obtain ⟨f, hf, _, _, _, _, _, houtput⟩ :=
    (responses_delivered readyUart okRun 26 (by simp [okRun, NulFree, str]) okRun_bounded
      okRun_lossless).1 okRun_answered
  exact ⟨f, hf, houtput⟩

end Hnmos.SerialLink
