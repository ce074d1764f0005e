import Mathlib
import Hnmos.ClosedLoop
import Hnmos.ResponseDelivery
import Hnmos.SlotSteps

/-!
# Where an answer comes from

The stream from the host back to the guest is that of the link, with the
frames of the abstract host on it. While identifiers have not come round and
the receive buffer has stored every byte, a finished request holds the outcome
of the remote call that was made for its own prompt, and what is saved as the
draft is such an outcome.
-/

set_option autoImplicit false

namespace Hnmos.ClosedLoop
open Hnmos.CString Hnmos.RingBuffer Hnmos.Task Hnmos.SerialPort Hnmos.SerialTransport
open Hnmos.AiBridge Hnmos.AiSession Hnmos.HostBridge Hnmos.HostServe Hnmos.HostService
open Hnmos.ResponseFrame Hnmos.RequestReply Hnmos.Transition Hnmos.Events Hnmos.SerialLink
open Hnmos.Workspace

def World.task (w : World) : AiTask := w.kernel.system.bridge.lastTask

def World.link (w : World) (frames : List Frame) : Link where
  bridge := w.kernel.system.bridge
  transport := w.kernel.system.transport
  port := w.kernel.port
  requests := []
  sent := frames
  wire := w.wire
  captured := w.captured
  submissions := 0
  base := 0

def shown (text : Str) : CText 1024 := CText.copy (some ((asciiBytes text).take 900))

/-- The call was made for the task, and the task holds what came of it. -/
structure Answers (task : AiTask) (made : RemoteCall) : Prop where
  id : made.request.requestId = Hex.encode32 task.taskId
  prompt : made.request.prompt = codes task.input.chars
  profile : made.request.profile = decodeUtf8 hnlangAiSystemContract
  outcome : match made.outcome with
    | .ok text => task.status = .done ∧ task.output = shown text
    | .error text => task.status = .error ∧ task.output = shown text

/-- A draft that the provider wrote for a prompt of the user. -/
structure Drafted (w : World) (text : CText 1024) (made : RemoteCall) : Prop where
  called : made ∈ w.calls
  typed : ∃ number prompt, Sent.request number prompt ∈ w.editor.sent ∧
    made.request.prompt = codes prompt
  text : ∃ answer, made.outcome = .ok answer ∧ text = shown answer

/-- Identifiers have not come round, and no byte from the host was lost. -/
structure Undisturbed (w : World) : Prop where
  bounded : w.editor.submissions < 2 ^ 32 - 2
  lossless : ∀ m ∈ w.captured, m.2 = true

/-- The stream to the guest, and what is in the slot. -/
structure Heard (apiKey : Str) (w : World) (done : List Order) : Prop where
  framed : ∃ eaten pending, Framed (w.link (replies apiKey done)) eaten pending
  settled : w.task.status ≠ .pending
  live : w.task.status = .running → w.task.taskType = .hnlang
  typed : w.task.taskType = .hnlang → ∃ number,
    Sent.request number w.task.input.chars ∈ w.editor.sent ∧
      w.task.taskId = UInt32.ofNat number
  answered : w.task.taskType = .hnlang → w.task.status = .done ∨ w.task.status = .error →
    ∃ made ∈ w.calls, Answers w.task made

structure Traced (apiKey : Str) (w : World) (done : List Order) : Prop
    extends Heard apiKey w done where
  provenance : Provenance w.editor.submissions w.kernel.core
  numbered : w.editor.Numbered
  drafts : ∀ text ∈ w.kernel.system.files.stored, ∃ made, Drafted w text made
  draft : w.kernel.system.files.draft = Files.init.draft ∨
    w.kernel.system.files.draft ∈ w.kernel.system.files.stored

theorem mem_translate {σ ε φ : Type*} (step : σ → ε → σ) (tr : σ → ε → List φ) (s : σ)
    (es : List ε) (x : φ) : x ∈ translate step tr s es ↔
      ∃ front e back, es = front ++ e :: back ∧ x ∈ tr (run step s front) e := by
  induction es generalizing s with
  | nil => simp
  | cons e es ih =>
    rw [translate_cons, List.mem_append, ih]
    constructor
    · rintro (hx | ⟨front, f, back, rfl, hx⟩)
      · exact ⟨[], e, es, rfl, hx⟩
      · exact ⟨e :: front, f, back, rfl, hx⟩
    · rintro ⟨front, f, back, hsplit, hx⟩
      cases front with
      | nil =>
        obtain ⟨rfl, rfl⟩ := List.cons.inj hsplit
        exact .inl hx
      | cons g front =>
        obtain ⟨rfl, rfl⟩ := List.cons.inj hsplit
        exact .inr ⟨front, f, back, rfl, hx⟩

theorem reply_source (apiKey : Str) (done : List Order) (f : Frame) (h : f ∈ replies apiKey done) :
    ∃ front number text call back, done = front ++ (.request number text, call) :: back ∧
      f = replyFrame call (keyAfter apiKey front) (UInt32.ofNat number) text := by
  obtain ⟨front, ⟨order, call⟩, back, hsplit, hmem⟩ :=
    (mem_translate hostStep hostReply apiKey done f).mp h
  cases order with
  | key text => exact absurd hmem List.not_mem_nil
  | request number text => exact ⟨front, number, text, call, back, hsplit, List.mem_singleton.mp hmem⟩

def Apart (order other : Sent) : Prop :=
  ∀ n, order.number = some n → ∀ m, other.number = some m → n ≠ m

instance apart_symm : Std.Symm Apart := ⟨fun _ _ h n hn m hm => (h m hm n hn).symm⟩

theorem number_text (e : Editor) (h : e.Numbered) (number : ℕ) (text other : List UInt8)
    (htext : Sent.request number text ∈ e.sent) (hother : Sent.request number other ∈ e.sent) :
    text = other := by
  have hapart : e.sent.Pairwise Apart :=
    (List.pairwise_filterMap.mp h.sorted).imp fun hab n hn m hm => (hab n hn m hm).ne
  by_contra hne
  exact hapart.forall htext hother (fun heq => hne (Sent.request.inj heq).2) number rfl
    number rfl rfl

theorem number_range (e : Editor) (h : e.Numbered) (number : ℕ) (text : List UInt8)
    (hmem : Sent.request number text ∈ e.sent) : 1 ≤ number ∧ number ≤ e.submissions :=
  h.range number (List.mem_filterMap.mpr ⟨_, hmem, rfl⟩)

theorem ofNat_inj (m n : ℕ) (hm : m < 2 ^ 32) (hn : n < 2 ^ 32)
    (h : UInt32.ofNat m = UInt32.ofNat n) : m = n := by
  have hnat := congrArg UInt32.toNat h
  rwa [UInt32.toNat_ofNat', UInt32.toNat_ofNat', Nat.mod_eq_of_lt hm, Nat.mod_eq_of_lt hn] at hnat

theorem reply_id (apiKey : Str) (e : Editor) (done : List Order) (waiting : List Sent)
    (horders : e.sent = done.map Prod.fst ++ waiting) (hnumbered : e.Numbered)
    (hbound : e.submissions < 2 ^ 32 - 2) (f : Frame) (hf : f ∈ replies apiKey done) :
    f.id.toNat ≤ e.submissions := by
  obtain ⟨front, number, text, call, back, rfl, rfl⟩ := reply_source apiKey done f hf
  have hmem : Sent.request number text ∈ e.sent := by
    rw [horders]
    simp
  have hrange := number_range e hnumbered number text hmem
  by_cases hspaces : ∀ c ∈ text, c = 32
  · rw [replyFrame_spaces _ _ _ _ hspaces]
    exact Nat.zero_le _
  · rw [(replyFrame_text _ _ _ _ hspaces).1, UInt32.toNat_ofNat', Nat.mod_eq_of_lt (by omega)]
    exact hrange.2

/-- A reply that carries the identifier of a prompt is what came of the call
made for that prompt. -/
theorem reply_call (apiKey : Str) (e : Editor) (done : List Order) (waiting : List Sent)
    (horders : e.sent = done.map Prod.fst ++ waiting) (hnumbered : e.Numbered)
    (hbound : e.submissions < 2 ^ 32 - 2) (f : Frame) (hf : f ∈ replies apiKey done)
    (number : ℕ) (prompt : List UInt8) (hprompt : Sent.request number prompt ∈ e.sent)
    (hproper : Proper (.request number prompt)) (hid : f.id = UInt32.ofNat number) :
    ∃ made ∈ calls apiKey done, made.request = ⟨Hex.encode32 (UInt32.ofNat number), 6,
        codes prompt, decodeUtf8 hnlangAiSystemContract⟩ ∧
      match made.outcome with
      | .ok text => f = ⟨UInt32.ofNat number, true, text⟩
      | .error text => f = ⟨UInt32.ofNat number, false, text⟩ := by
  obtain ⟨front, other, text, call, back, hdone, rfl⟩ := reply_source apiKey done f hf
  have hmem : Sent.request other text ∈ e.sent := by
    rw [horders, hdone]
    simp
  have hrange := number_range e hnumbered other text hmem
  have hrange' := number_range e hnumbered number prompt hprompt
  by_cases hspaces : ∀ c ∈ text, c = 32
  · rw [replyFrame_spaces _ _ _ _ hspaces] at hid
    have hzero := ofNat_inj 0 number (by decide) (by omega) hid
    omega
  · rw [(replyFrame_text _ _ _ _ hspaces).1] at hid
    obtain rfl := ofNat_inj other number (by omega) (by omega) hid
    obtain rfl := number_text e hnumbered other text prompt hmem hprompt
    have hascii := decodeUtf8_ascii text (prompt_ascii text hproper)
    refine ⟨⟨⟨Hex.encode32 (UInt32.ofNat other), 6, codes text,
        decodeUtf8 hnlangAiSystemContract⟩, keyAfter apiKey front,
      call (codes text) (decodeUtf8 hnlangAiSystemContract) (keyAfter apiKey front)⟩, ?_, rfl, ?_⟩
    · apply (mem_translate hostStep hostCall apiKey done _).mpr
      refine ⟨front, (.request other text, call), back, hdone, ?_⟩
      rw [hostCall, if_neg hspaces]
      exact List.mem_singleton.mpr rfl
    · rw [replyFrame, if_neg hspaces, outcome, hascii]
      cases call (codes text) (decodeUtf8 hnlangAiSystemContract) (keyAfter apiKey front) <;> rfl

theorem framed_kept (s t : Link) (eaten pending : List (UInt8 × Bool))
    (h : Framed s eaten pending) (htransport : t.transport = s.transport)
    (hcaptured : t.captured = s.captured) (hsent : t.sent = s.sent) (hwire : t.wire = s.wire)
    (hfresh : t.bridge.lastTask.status = .running → ∀ before f behind,
      t.sent = before ++ f :: behind → t.base ≤ before.length →
        f.id = t.bridge.lastTask.taskId → ¬ WholeLine eaten before f) :
    Framed t eaten pending where
  captured := hcaptured.trans h.captured
  buffer := h.buffer.trans (by rw [htransport])
  line := by rw [htransport, h.line]
  stream := by rw [hsent, hcaptured, hwire, h.stream]
  fresh := hfresh

theorem framed_slot (s t : Link) (eaten pending : List (UInt8 × Bool))
    (h : Framed s eaten pending) (htransport : t.transport = s.transport)
    (hcaptured : t.captured = s.captured) (hsent : t.sent = s.sent) (hwire : t.wire = s.wire)
    (hbase : t.base = s.base) (hbridge : t.bridge = s.bridge) : Framed t eaten pending := by
  apply framed_kept s t eaten pending h htransport hcaptured hsent hwire
  rw [hbridge, hsent, hbase]
  exact h.fresh

theorem framed_idle (s t : Link) (eaten pending : List (UInt8 × Bool))
    (h : Framed s eaten pending) (htransport : t.transport = s.transport)
    (hcaptured : t.captured = s.captured) (hsent : t.sent = s.sent) (hwire : t.wire = s.wire)
    (hidle : t.bridge.lastTask.status ≠ .running) : Framed t eaten pending :=
  framed_kept s t eaten pending h htransport hcaptured hsent hwire fun hrun => absurd hrun hidle

theorem sends_framed (s : Link) (more : List Frame) (eaten pending : List (UInt8 × Bool))
    (h : Framed s eaten pending) : Framed (more.foldl Link.send s) eaten pending := by
  induction more generalizing s with
  | nil => exact h
  | cons f more ih => exact ih (s.send f) (send_framed s f eaten pending h)

theorem sends_eq (s : Link) (more : List Frame) : more.foldl Link.send s =
    { s with sent := s.sent ++ more, wire := s.wire ++ more.flatMap Frame.bytes } := by
  induction more generalizing s with
  | nil => simp
  | cons f more ih =>
    rw [List.foldl_cons, ih]
    simp [Link.send]

theorem captured_length (s : Link) (eaten pending : List (UInt8 × Bool))
    (h : Framed s eaten pending) : s.captured.length ≤ (s.sent.flatMap Frame.bytes).length := by
  rw [h.stream, List.length_append, List.length_map]
  exact Nat.le_add_right _ _

theorem wire_drop (w : World) (more : List (UInt8 × Bool)) (n : ℕ)
    (h : more.map Prod.fst = w.wire.take n) :
    w.server.sent.drop (w.captured ++ more).length = w.wire.drop n := by
  have hlength := congrArg List.length h
  rw [List.length_map, List.length_take] at hlength
  rw [List.length_append, hlength, ← List.drop_drop]
  show w.wire.drop _ = _
  rcases Nat.le_total n w.wire.length with hle | hle
  · rw [Nat.min_eq_left hle]
  · rw [Nat.min_eq_right hle, List.drop_length, List.drop_eq_nil_of_le hle]

theorem listens_reaches (w : World) (frames : List Frame) (h : w.kernel.system.halted = false) :
    listens w.kernel = (w.link frames).reaches := by
  unfold listens Link.reaches World.link
  rw [h]
  rfl

theorem service_link (w : World) (n : ℕ) (frames : List Frame)
    (h : w.kernel.system.halted = false) :
    ((w.step (.service n)).link frames).transport = ((w.link frames).poll n).2.transport ∧
      ((w.step (.service n)).link frames).bridge = ((w.link frames).poll n).2.bridge ∧
      ((w.step (.service n)).link frames).captured = ((w.link frames).poll n).2.captured ∧
      ((w.step (.service n)).link frames).wire = ((w.link frames).poll n).2.wire ∧
      ((w.link frames).poll n).2.sent = frames ∧ ((w.link frames).poll n).2.base = 0 := by
  obtain ⟨hbridge, htransport⟩ := service_effect w.kernel (w.wire.take n) h
  have hlistens := listens_reaches w frames h
  have hcaptures : (w.step (.service n)).captured = w.captured ++
      if (w.link frames).reaches then w.kernel.system.transport.rx.storing (w.wire.take n)
      else [] := by
    rw [← hlistens]
    rfl
  have hwire : (w.step (.service n)).wire =
      if (w.link frames).reaches then w.wire.drop n else w.wire := by
    show w.server.sent.drop (w.step (.service n)).captured.length = _
    rw [hcaptures]
    split_ifs
    · exact wire_drop w _ n (storing_fst _ _)
    · rw [List.append_nil]
      rfl
  rw [Link.poll]
  show (w.step (.service n)).kernel.system.transport =
      (w.kernel.system.bridge.poll w.kernel.system.transport (w.wire.take n)).2.2 ∧
    (w.step (.service n)).kernel.system.bridge =
      (w.kernel.system.bridge.poll w.kernel.system.transport (w.wire.take n)).2.1 ∧
    (w.step (.service n)).captured =
      (if (w.link frames).reaches then (w.link frames).capture n else w.link frames).captured ∧
    (w.step (.service n)).wire =
      (if (w.link frames).reaches then (w.link frames).capture n else w.link frames).wire ∧
    (if (w.link frames).reaches then (w.link frames).capture n else w.link frames).sent = frames ∧
    (if (w.link frames).reaches then (w.link frames).capture n else w.link frames).base = 0
  refine ⟨htransport, hbridge, ?_, ?_, ?_, ?_⟩
  · rw [hcaptures]
    split_ifs
    · rfl
    · exact List.append_nil _
  · rw [hwire]
    split_ifs <;> rfl
  · split_ifs <;> rfl
  · split_ifs <;> rfl

theorem halted_guest (w : World) (input : Input) (h : w.kernel.system.halted = true) :
    w.guest input = w := by
  have hstep : w.kernel.step input = w.kernel := if_pos h
  have hgesture : w.kernel.gesture input = .none := if_pos h
  have hcaptures : captures w.kernel input = [] := by
    cases input with
    | event event => rfl
    | service arrived =>
      have hlistens : listens w.kernel = false := by
        unfold listens
        rw [h]
        rfl
      exact if_neg (fun hn => Bool.false_ne_true (hlistens.symm.trans hn))
    | receive arrived => exact if_pos h
  unfold World.guest
  rw [hstep, hgesture, hcaptures, List.append_nil]
  rfl

theorem running_wired (apiKey : Str) (w : World) (done : List Order) (frames : List Frame)
    (htracked : Tracked w.kernel) (h : Traced apiKey w done) (hrun : w.task.status = .running) :
    Wired (w.link frames) where
  bridgeReady := htracked.serviced.ready
  active := htracked.serviced.active
  transportReady := htracked.serviced.transport
  provider := .inl (h.provenance.provider (h.live hrun))
  issued := Nat.zero_le _

theorem poll_quiet (b : Bridge) (t : Transport) (arrived : List UInt8)
    (hrun : b.lastTask.status ≠ .running) (hpending : b.lastTask.status ≠ .pending) :
    (b.poll t arrived).2 = (b, t) := by
  have hclosed : stubPollTask b.lastTask = (false, b.lastTask) := by
    unfold stubPollTask
    rw [if_pos]
    cases hstatus : b.lastTask.status with
    | running => exact absurd hstatus hrun
    | pending => exact absurd hstatus hpending
    | _ => rfl
  unfold Bridge.poll
  split_ifs with hready
  · cases hprovider : b.lastProvider with
    | none => rfl
    | some provider =>
      cases provider with
      | serial =>
        simp only [Provider.pollTask, serialPollTask, if_pos hrun]
        rw [← hprovider]
      | stub =>
        simp only [Provider.pollTask, hclosed]
        rw [← hprovider]
  · rfl

theorem typed_kept (w : World) (input : Input) (task : AiTask) (hid : task.taskId = w.task.taskId)
    (hinput : task.input = w.task.input)
    (h : ∃ number, Sent.request number w.task.input.chars ∈ w.editor.sent ∧
      w.task.taskId = UInt32.ofNat number) :
    ∃ number, Sent.request number task.input.chars ∈ (w.guest input).editor.sent ∧
      task.taskId = UInt32.ofNat number := by
  obtain ⟨new, hnew⟩ := gesture_sent w.kernel.running w.editor (w.kernel.gesture input)
  obtain ⟨number, hmem, hnumber⟩ := h
  refine ⟨number, ?_, hid.trans hnumber⟩
  show _ ∈ (w.editor.step w.kernel.running (w.kernel.gesture input)).sent
  rw [hnew, hinput]
  exact List.mem_append_left _ hmem

theorem heard_kept (apiKey : Str) (w : World) (done : List Order) (input : Input)
    (h : Heard apiKey w done)
    (hbridge : (w.guest input).kernel.system.bridge = w.kernel.system.bridge)
    (hframed : ∃ eaten pending, Framed ((w.guest input).link (replies apiKey done)) eaten pending) :
    Heard apiKey (w.guest input) done := by
  have htask : (w.guest input).task = w.task := congrArg Bridge.lastTask hbridge
  refine ⟨hframed, ?_, ?_, ?_, ?_⟩
  · rw [htask]
    exact h.settled
  · rw [htask]
    exact h.live
  · rw [htask]
    intro htype
    exact typed_kept w input w.task rfl rfl (h.typed htype)
  · rw [htask]
    exact h.answered

theorem answered_heard (start : List UInt8) (apiKey : Str) (w : World) (done : List Order)
    (waiting : List Sent) (input : Input) (hloop : Loop start apiKey w done waiting)
    (h : Traced apiKey w done) (hbound : w.editor.submissions < 2 ^ 32 - 2)
    (hrun : w.task.status = .running) (f : Frame) (hf : f ∈ replies apiKey done)
    (hid : f.id = w.task.taskId)
    (htask : (w.guest input).task = ResponseFrame.answered w.task f)
    (hframed : ∃ eaten pending, Framed ((w.guest input).link (replies apiKey done)) eaten pending) :
    Heard apiKey (w.guest input) done := by
  have htype := h.live hrun
  obtain ⟨number, hmem, hnumber⟩ := h.typed htype
  obtain ⟨made, hmade, hrequest, houtcome⟩ := reply_call apiKey w.editor done waiting hloop.orders
    h.numbered hbound f hf number w.task.input.chars hmem (hloop.typed.sent _ hmem)
    (hid.trans hnumber)
  have hstatus : (w.guest input).task.status = if f.success then .done else .error := by
    rw [htask]
    rfl
  refine ⟨hframed, ?_, ?_, ?_, ?_⟩
  · rw [hstatus]
    split_ifs <;> decide
  · rw [hstatus]
    intro hrunning
    split_ifs at hrunning
  · intro _
    apply typed_kept w input
    · rw [htask]
      rfl
    · rw [htask]
      rfl
    · exact ⟨number, hmem, hnumber⟩
  · intro _ _
    refine ⟨made, ?_, ?_, ?_, ?_, ?_⟩
    · show made ∈ w.calls
      rw [hloop.made]
      exact hmade
    · rw [htask, hrequest]
      show _ = Hex.encode32 w.task.taskId
      rw [hnumber]
    · rw [htask, hrequest]
      rfl
    · rw [hrequest]
    · rw [htask]
      cases hresult : made.outcome with
      | ok text =>
        rw [hresult] at houtcome
        simp only at houtcome ⊢
        rw [houtcome]
        exact ⟨rfl, rfl⟩
      | error text =>
        rw [hresult] at houtcome
        simp only at houtcome ⊢
        rw [houtcome]
        exact ⟨rfl, rfl⟩

theorem service_heard (start : List UInt8) (apiKey : Str) (w : World) (done : List Order)
    (waiting : List Sent) (n : ℕ) (hloop : Loop start apiKey w done waiting)
    (h : Traced apiKey w done) (hbound : w.editor.submissions < 2 ^ 32 - 2)
    (hlossless : ∀ m ∈ (w.step (.service n)).captured, m.2 = true) :
    Heard apiKey (w.step (.service n)) done := by
  by_cases hhalted : w.kernel.system.halted = true
  · show Heard apiKey (w.guest _) done
    rw [halted_guest w _ hhalted]
    exact h.toHeard
  have hawake := Bool.eq_false_iff.mpr hhalted
  obtain ⟨hbridge, htransport⟩ := service_effect w.kernel (w.wire.take n) hawake
  obtain ⟨eaten, pending, hframed⟩ := h.framed
  by_cases hrun : w.task.status = .running
  · have hwired := running_wired apiKey w done (replies apiKey done) hloop.tracked h hrun
    obtain ⟨htransport', hbridge', hcaptured', hwire', hsent', hbase'⟩ :=
      service_link w n (replies apiKey done) hawake
    obtain ⟨eaten', pending', hpolled⟩ :=
      poll_framed (w.link (replies apiKey done)) n eaten pending hwired hframed
    have hlater : Framed ((w.step (.service n)).link (replies apiKey done)) eaten' pending' :=
      framed_slot _ _ eaten' pending' hpolled htransport' hcaptured' hsent'.symm hwire'
        hbase'.symm hbridge'
    cases hpoll : ((w.link (replies apiKey done)).poll n).1 with
    | false =>
      have hsame := poll_unanswered (w.link (replies apiKey done)) n hwired hpoll
      exact heard_kept apiKey w done _ h.toHeard (hbridge'.trans hsame) ⟨eaten', pending', hlater⟩
    | true =>
      obtain ⟨pre, own, post, hcaptured, -, -, -, -, -, hwhole⟩ :=
        poll_source (w.link (replies apiKey done)) n ⟨hwired, eaten, pending, hframed⟩ hpoll
      have hstored : ∀ m ∈ own, m.2 = true := by
        intro m hm
        apply hlossless m
        have hall : (w.step (.service n)).captured = _ := hcaptured'.trans hcaptured
        rw [hall]
        simp [hm]
      obtain ⟨before, f, behind, hsent, -, -, hid, htask⟩ := hwhole hstored
      have hmem : f ∈ replies apiKey done := by
        have hframes : replies apiKey done = before ++ f :: behind := hsent
        rw [hframes]
        simp
      exact answered_heard start apiKey w done waiting _ hloop h hbound hrun f hmem hid
        ((congrArg Bridge.lastTask hbridge').trans htask) ⟨eaten', pending', hlater⟩
  · have hquiet := poll_quiet w.kernel.system.bridge w.kernel.system.transport (w.wire.take n)
      hrun h.settled
    rw [hquiet] at hbridge htransport
    have hcaptures : captures w.kernel (.service (w.wire.take n)) = [] := by
      apply if_neg
      intro hn
      simp only [listens, Bool.and_eq_true, beq_iff_eq] at hn
      exact hrun hn.1.2
    have hcaptured : (w.step (.service n)).captured = w.captured := by
      show w.captured ++ captures w.kernel (.service (w.wire.take n)) = _
      rw [hcaptures, List.append_nil]
    have hwire : (w.step (.service n)).wire = w.wire := by
      show w.server.sent.drop (w.step (.service n)).captured.length = _
      rw [hcaptured]
      rfl
    exact heard_kept apiKey w done _ h.toHeard hbridge
      ⟨eaten, pending, framed_slot _ _ eaten pending hframed htransport hcaptured rfl hwire rfl
        hbridge⟩

theorem receive_heard (apiKey : Str) (w : World) (done : List Order) (n : ℕ)
    (h : Heard apiKey w done) : Heard apiKey (w.step (.receive n)) done := by
  by_cases hhalted : w.kernel.system.halted = true
  · show Heard apiKey (w.guest _) done
    rw [halted_guest w _ hhalted]
    exact h
  obtain ⟨eaten, pending, hframed⟩ := h.framed
  have hcaptures : captures w.kernel (.receive (w.wire.take n)) =
      w.kernel.system.transport.rx.storing (w.wire.take n) := if_neg hhalted
  have hstep : w.kernel.step (.receive (w.wire.take n)) =
      w.kernel.onSystem (·.captureRx (w.wire.take n)) := if_neg hhalted
  have hbridge : (w.step (.receive n)).kernel.system.bridge = w.kernel.system.bridge := by
    show (w.kernel.step (.receive (w.wire.take n))).system.bridge = _
    rw [hstep]
    rfl
  have htransport : (w.step (.receive n)).kernel.system.transport =
      w.kernel.system.transport.captureRx (w.wire.take n) := by
    show (w.kernel.step (.receive (w.wire.take n))).system.transport = _
    rw [hstep]
    rfl
  have hcaptured : (w.step (.receive n)).captured =
      w.captured ++ w.kernel.system.transport.rx.storing (w.wire.take n) :=
    congrArg (w.captured ++ ·) hcaptures
  have hwire : (w.step (.receive n)).wire = w.wire.drop n := by
    show w.server.sent.drop (w.step (.receive n)).captured.length = _
    rw [hcaptured]
    exact wire_drop w _ n (storing_fst _ _)
  have hnext := capture_framed _ n eaten pending hframed
  exact heard_kept apiKey w done _ h hbridge
    ⟨_, _, framed_slot _ _ _ _ hnext htransport hcaptured rfl hwire rfl hbridge⟩

theorem prompted_sent (start : List UInt8) (k : Kernel) (e : Editor) (event : UiEvent)
    (h : Edits start k.core e) (hprompts : k.prompts (.event event))
    (hne : k.core.prompt.chars ≠ []) :
    Sent.request (e.submissions + 1) k.core.prompt.chars ∈
      (e.step k.running (k.gesture (.event event))).sent := by
  obtain ⟨hawake, hcurrent, hready, htype, henter, hsecret, hcapturing⟩ := hprompts
  have hasks : ¬ k.asks (.event event) := by
    intro hn
    exact absurd (hcurrent.symm.trans hn.2.1) (by decide)
  have hescape : ¬ (event.type = .keyDown ∧ event.keyCode = keyEscape) := by
    rw [henter]
    exact fun hn => absurd hn.2 (by decide)
  have hgesture : k.gesture (.event event) = .enter := by
    unfold Kernel.gesture
    rw [hawake, if_neg Bool.false_ne_true, if_neg hasks]
    simp only
    rw [if_pos hcurrent, if_neg hescape, if_pos hready]
    unfold Kernel.studioGesture
    rw [htype]
    simp only
    rw [henter, if_neg (by decide), if_pos rfl]
  have hmode := h.mode
  rw [hgesture]
  show _ ∈ e.enter.sent
  unfold Editor.enter
  cases hm : e.mode with
  | idle =>
    rw [hm] at hmode
    exact absurd (hmode.2.symm.trans hcapturing) Bool.false_ne_true
  | secret text =>
    rw [hm] at hmode
    exact absurd (hmode.2.symm.trans hcapturing) Bool.false_ne_true
  | prompt text =>
    rw [hm] at hmode
    obtain ⟨-, -, htext⟩ := hmode
    simp only
    rw [htext] at hne ⊢
    rw [if_neg hne]
    exact List.mem_append_right _ (List.mem_singleton.mpr rfl)

theorem asked_heard (start : List UInt8) (apiKey : Str) (w : World) (done : List Order)
    (waiting : List Sent) (event : UiEvent) (hloop : Loop start apiKey w done waiting)
    (h : Traced apiKey w done) (hbound : w.editor.submissions < 2 ^ 32 - 2)
    (hprompts : w.kernel.prompts (.event event)) (hne : w.kernel.core.prompt.chars ≠ [])
    (hbridge : (w.step (.user event)).kernel.system.bridge = w.kernel.core.asked)
    (htransport : (w.step (.user event)).kernel.system.transport = w.kernel.system.transport)
    (hcaptured : (w.step (.user event)).captured = w.captured)
    (hwire : (w.step (.user event)).wire = w.wire) :
    Heard apiKey (w.step (.user event)) done := by
  obtain ⟨eaten, pending, hframed⟩ := h.framed
  have hnext := h.provenance.next
  have hsent := prompted_sent start w.kernel w.editor event hloop.edits hprompts hne
  have hfits := w.kernel.core.prompt.fits
  have htask : (w.step (.user event)).task = w.kernel.core.asked.lastTask :=
    congrArg Bridge.lastTask hbridge
  have hid : w.kernel.core.asked.lastTask.taskId = w.kernel.core.bridge.nextTaskId :=
    prepared_taskId _ _ _ _
  have hinput : w.kernel.core.asked.lastTask.input.chars = w.kernel.core.prompt.chars :=
    copy_chars_self _ w.kernel.core.prompt.noNul (by omega)
  refine ⟨⟨eaten, pending, ?_⟩, ?_, ?_, ?_, ?_⟩
  · apply framed_kept _ ((w.step (.user event)).link (replies apiKey done)) eaten pending hframed
      htransport hcaptured rfl hwire
    intro _ before f behind hframes _ hfid
    -- no reply carries an identifier that has just been given out
    have hf : f ∈ replies apiKey done := by
      have hall : replies apiKey done = before ++ f :: behind := hframes
      rw [hall]
      simp
    have hle := reply_id apiKey w.editor done waiting hloop.orders h.numbered hbound f hf
    have heq : f.id = w.kernel.core.bridge.nextTaskId := by
      rw [← hid, ← htask]
      exact hfid
    rw [heq, hnext] at hle
    omega
  · rw [htask]
    exact fun hn => nomatch hn
  · intro _
    rw [htask]
    exact prepared_taskType _ _ _ _
  · intro _
    refine ⟨w.editor.submissions + 1, ?_, ?_⟩
    · rw [htask, hinput]
      exact hsent
    · rw [htask, hid]
      exact hloop.edits.number
  · intro _ hclosed
    rw [htask] at hclosed
    rcases hclosed with hn | hn <;> exact nomatch hn

theorem user_heard (start : List UInt8) (apiKey : Str) (w : World) (done : List Order)
    (waiting : List Sent) (event : UiEvent) (hloop : Loop start apiKey w done waiting)
    (h : Traced apiKey w done) (hbound : w.editor.submissions < 2 ^ 32 - 2) :
    Heard apiKey (w.step (.user event)) done := by
  obtain ⟨eaten, pending, hframed⟩ := h.framed
  have hcaptured : (w.step (.user event)).captured = w.captured := List.append_nil _
  have hwire : (w.step (.user event)).wire = w.wire := by
    show w.server.sent.drop (w.step (.user event)).captured.length = _
    rw [hcaptured]
    rfl
  cases event_effect w.kernel event hloop.tracked.serviced with
  | spared hspared =>
    have htransport : (w.step (.user event)).kernel.system.transport =
        w.kernel.system.transport := hspared.transport
    rcases hspared.bridge with hsame | hcancel
    · exact heard_kept apiKey w done _ h.toHeard hsame ⟨eaten, pending,
        framed_slot _ _ eaten pending hframed htransport hcaptured rfl hwire rfl hsame⟩
    · rcases cancel_slot w.kernel.system.bridge with ⟨-, hcancelled⟩ | ⟨hopen, hcancelled⟩
      · have hsame : (w.step (.user event)).kernel.system.bridge = w.kernel.system.bridge :=
          hcancel.trans (congrArg Prod.snd hcancelled)
        exact heard_kept apiKey w done _ h.toHeard hsame ⟨eaten, pending,
          framed_slot _ _ eaten pending hframed htransport hcaptured rfl hwire rfl hsame⟩
      · have htask : (w.step (.user event)).task = closeTask w.task
            (ascii "AI request cancelled locally.") .cancelled := by
          have hsame : (w.step (.user event)).kernel.system.bridge = _ :=
            hcancel.trans (congrArg Prod.snd hcancelled)
          exact congrArg Bridge.lastTask hsame
        have hstatus : (w.step (.user event)).task.status = .cancelled := by
          rw [htask]
          rfl
        have hclosed : TaskStatus.cancelled ≠ .running := by decide
        refine ⟨⟨eaten, pending, framed_idle _ _ eaten pending hframed htransport hcaptured rfl
          hwire ?_⟩, ?_, ?_, ?_, ?_⟩
        · show (w.step (.user event)).task.status ≠ .running
          rw [hstatus]
          exact hclosed
        · rw [hstatus]
          decide
        · intro hrun
          exact absurd (hstatus.symm.trans hrun) hclosed
        · rw [htask]
          intro htype
          exact typed_kept w _ _ rfl rfl (h.typed htype)
        · rw [hstatus]
          intro _ hn
          rcases hn with hn | hn <;> exact nomatch hn
  | asked hprompts hne hbridge htransport =>
    exact asked_heard start apiKey w done waiting event hloop h hbound hprompts hne hbridge
      htransport hcaptured hwire
  | answered htransport htype hdone =>
    have hnot : (w.step (.user event)).task.taskType ≠ .hnlang := htype
    have hstatus : (w.step (.user event)).task.status = .done := hdone
    have hclosed : (w.step (.user event)).task.status ≠ .running := by
      rw [hstatus]
      decide
    refine ⟨⟨eaten, pending, framed_idle _ _ eaten pending hframed htransport hcaptured rfl hwire
      hclosed⟩, ?_, fun hrun => absurd hrun hclosed, fun hn => absurd hn hnot,
      fun hn => absurd hn hnot⟩
    rw [hstatus]
    decide

theorem host_heard (start : List UInt8) (apiKey : Str) (w : World) (done now : List Order)
    (waiting later : List Sent) (n : ℕ) (call : CallProvider)
    (hloop : Loop start apiKey w done waiting)
    (hnext : Loop start apiKey (w.host n call) (done ++ now) later)
    (h : Heard apiKey w done) : Heard apiKey (w.host n call) (done ++ now) := by
  obtain ⟨eaten, pending, hframed⟩ := h.framed
  have hsame : (w.host n call).kernel = w.kernel ∧ (w.host n call).editor = w.editor ∧
      (w.host n call).captured = w.captured := by
    unfold World.host
    split_ifs <;> exact ⟨rfl, rfl, rfl⟩
  obtain ⟨hkernel, heditor, hcaptured⟩ := hsame
  have htask : (w.host n call).task = w.task := by
    unfold World.task
    rw [hkernel]
  have hreplies := replies_append apiKey done now
  have hlength := captured_length _ eaten pending hframed
  have hsent : (w.host n call).server.sent = w.server.sent ++
      (replies (keyAfter apiKey done) now).flatMap Frame.bytes := by
    rw [hnext.sent, hreplies, List.flatMap_append, ← hloop.sent]
  have hcalls : (w.host n call).calls = w.calls ++ calls (keyAfter apiKey done) now := by
    rw [hnext.made, calls_append, ← hloop.made]
  have hlink : (w.host n call).link (replies apiKey (done ++ now)) =
      (replies (keyAfter apiKey done) now).foldl Link.send (w.link (replies apiKey done)) := by
    have hwire : (w.host n call).wire = w.wire ++
        (replies (keyAfter apiKey done) now).flatMap Frame.bytes := by
      show (w.host n call).server.sent.drop (w.host n call).captured.length = _
      rw [hsent, hcaptured, List.drop_append_of_le_length]
      · rfl
      · rw [hloop.sent]
        exact hlength
    rw [sends_eq]
    unfold World.link
    rw [hkernel, hcaptured, hwire, hreplies]
  refine ⟨⟨eaten, pending, ?_⟩, ?_, ?_, ?_, ?_⟩
  · rw [hlink]
    exact sends_framed _ _ eaten pending hframed
  · rw [htask]
    exact h.settled
  · rw [htask]
    exact h.live
  · rw [htask, heditor]
    exact h.typed
  · rw [htask, hcalls]
    intro htype hclosed
    obtain ⟨made, hmade, hanswers⟩ := h.answered htype hclosed
    exact ⟨made, List.mem_append_left _ hmade, hanswers⟩

theorem gesture_submissions (running : Bool) (e : Editor) (g : Gesture) :
    e.submissions ≤ (e.step running g).submissions := by
  have hpress (b : StudioButton) : (e.press running b).submissions = e.submissions := by
    cases b with
    | generate =>
      unfold Editor.press
      simp only
      split_ifs <;> rfl
    | subscription | apiKey | review | build => rfl
  cases g with
  | key c =>
    show e.submissions ≤ (e.type running c).submissions
    unfold Editor.type
    cases e.mode with
    | idle =>
      cases commandButton c with
      | none => exact le_refl _
      | some b => exact (hpress b).ge
    | secret text => exact le_refl _
    | prompt text => exact le_refl _
  | backspace =>
    show e.submissions ≤ e.backspace.submissions
    unfold Editor.backspace
    cases e.mode <;> exact le_refl _
  | enter =>
    show e.submissions ≤ e.enter.submissions
    unfold Editor.enter
    cases e.mode with
    | idle => exact le_refl _
    | secret text => exact le_refl _
    | prompt text =>
      simp only
      split_ifs
      · exact le_refl _
      · exact Nat.le_succ _
  | button b => exact (hpress b).ge
  | request => exact Nat.le_succ _
  | none | leave => exact le_refl _

theorem guest_provenance (start : List UInt8) (apiKey : Str) (w : World) (done : List Order)
    (waiting : List Sent) (input : Input) (hloop : Loop start apiKey w done waiting)
    (h : Provenance w.editor.submissions w.kernel.core)
    (hbound : (w.guest input).editor.submissions < 2 ^ 32 - 2) :
    Provenance (w.guest input).editor.submissions (w.guest input).kernel.core ∧
      ((w.guest input).kernel.core.files = w.kernel.core.files ∨
        Wrote w.kernel.core (w.guest input).kernel.core) := by
  have hedits := step_edits start w.kernel w.editor input hloop.tracked hloop.edits
  have hle : w.editor.submissions ≤ (w.guest input).editor.submissions :=
    gesture_submissions w.kernel.running w.editor (w.kernel.gesture input)
  have hone := submissionsOf_le w.kernel input
  obtain ⟨hnext, hfiles⟩ := step_wrote w.editor.submissions w.kernel input h (by omega)
  have hcount : w.editor.submissions + w.kernel.core.submissionsOf (w.kernel.acts input) =
      (w.guest input).editor.submissions := by
    have hnumber := congrArg UInt32.toNat hedits.number
    rw [hnext.next, UInt32.toNat_ofNat'] at hnumber
    have hsmall : (w.guest input).editor.submissions + 1 < 2 ^ 32 := by omega
    have hmod : w.editor.submissions + w.kernel.core.submissionsOf (w.kernel.acts input) + 1 =
        ((w.guest input).editor.submissions + 1) % 2 ^ 32 := hnumber
    rw [Nat.mod_eq_of_lt hsmall] at hmod
    omega
  rw [hcount] at hnext
  exact ⟨hnext, hfiles.imp And.left id⟩

theorem drafted_kept (w v : World) (text : CText 1024) (made : RemoteCall) (h : Drafted w text made)
    (hcalls : ∃ more, v.calls = w.calls ++ more)
    (hsent : ∃ more, v.editor.sent = w.editor.sent ++ more) : Drafted v text made := by
  obtain ⟨moreCalls, hcalls⟩ := hcalls
  obtain ⟨moreSent, hsent⟩ := hsent
  obtain ⟨number, prompt, hmem, hprompt⟩ := h.typed
  refine ⟨?_, ⟨number, prompt, ?_, hprompt⟩, h.text⟩
  · rw [hcalls]
    exact List.mem_append_left _ h.called
  · rw [hsent]
    exact List.mem_append_left _ hmem

theorem wrote_drafted (apiKey : Str) (w : World) (done : List Order) (h : Heard apiKey w done)
    (htype : w.task.taskType = .hnlang) (hdone : w.task.status = .done) :
    ∃ made, Drafted w w.task.output made := by
  obtain ⟨number, hmem, -⟩ := h.typed htype
  obtain ⟨made, hmade, hanswers⟩ := h.answered htype (.inl hdone)
  refine ⟨made, hmade, ⟨number, _, hmem, hanswers.prompt⟩, ?_⟩
  have houtcome := hanswers.outcome
  cases hresult : made.outcome with
  | ok text =>
    rw [hresult] at houtcome
    exact ⟨text, rfl, houtcome.2⟩
  | error text =>
    rw [hresult] at houtcome
    exact absurd (hdone.symm.trans houtcome.1) (by decide)

theorem guest_traced (start : List UInt8) (apiKey : Str) (w : World) (done : List Order)
    (waiting : List Sent) (input : Input) (hloop : Loop start apiKey w done waiting)
    (h : Traced apiKey w done) (hbound : (w.guest input).editor.submissions < 2 ^ 32 - 2)
    (hheard : Heard apiKey (w.guest input) done) : Traced apiKey (w.guest input) done := by
  obtain ⟨hprovenance, hfiles⟩ :=
    guest_provenance start apiKey w done waiting input hloop h.provenance hbound
  have hsent := gesture_sent w.kernel.running w.editor (w.kernel.gesture input)
  have hold : ∀ text ∈ w.kernel.system.files.stored,
      ∃ made, Drafted (w.guest input) text made := by
    intro text htext
    obtain ⟨made, hmade⟩ := h.drafts text htext
    exact ⟨made, drafted_kept w _ text made hmade ⟨[], (List.append_nil _).symm⟩ hsent⟩
  rcases hfiles with hsame | hwrote
  · have hstored : (w.guest input).kernel.system.files = w.kernel.system.files := hsame
    refine ⟨hheard, hprovenance, gesture_numbered _ _ _ h.numbered, ?_, ?_⟩
    · rw [hstored]
      exact hold
    · rw [hstored]
      exact h.draft
  · have hdraft : (w.guest input).kernel.system.files.draft = (w.guest input).task.output :=
      hwrote.draft
    have hstored : (w.guest input).kernel.system.files.stored =
        w.kernel.system.files.stored ++ [(w.guest input).task.output] := hwrote.stored
    refine ⟨hheard, hprovenance, gesture_numbered _ _ _ h.numbered, ?_, ?_⟩
    · rw [hstored]
      intro text htext
      rcases List.mem_append.mp htext with htext | htext
      · exact hold text htext
      · rw [List.mem_singleton.mp htext]
        exact wrote_drafted apiKey _ done hheard hwrote.hnlang hwrote.done
    · rw [hstored, hdraft]
      exact .inr (List.mem_append_right _ List.mem_cons_self)

def Kept (start : List UInt8) (apiKey : Str) (w : World) : Prop :=
  ∃ done waiting, Loop start apiKey w done waiting ∧ Traced apiKey w done

theorem boot_kept (k : Kernel) (apiKey : Str) (h : k.port.Reliable) :
    Kept k.port.written apiKey (World.boot k apiKey) := by
  have hbridge : k.boot.system.bridge = Bridge.init := congrArg Core.bridge (boot_core k)
  have htransport : k.boot.system.transport = Transport.init :=
    congrArg Core.transport (boot_core k)
  have hfiles : k.boot.system.files = Files.init := congrArg Core.files (boot_core k)
  have hempty : (World.boot k apiKey).task.status = .empty := by
    show k.boot.system.bridge.lastTask.status = _
    rw [hbridge]
    rfl
  have hnone : (World.boot k apiKey).task.taskType ≠ .hnlang := by
    show k.boot.system.bridge.lastTask.taskType ≠ _
    rw [hbridge]
    decide
  have hidle : TaskStatus.empty ≠ .running := by decide
  refine ⟨[], [], boot_loop k apiKey h, ⟨⟨[], [], ?_⟩, ?_, ?_, fun hn => absurd hn hnone,
    fun hn => absurd hn hnone⟩, boot_provenance k, editor_numbered, ?_, ?_⟩
  · apply framed_idle (Link.init k.port) ((World.boot k apiKey).link (replies apiKey [])) [] []
      (init_framed k.port) htransport rfl rfl rfl
    show (World.boot k apiKey).task.status ≠ _
    rw [hempty]
    exact hidle
  · rw [hempty]
    decide
  · rw [hempty]
    exact fun hn => absurd hn hidle
  · show ∀ text ∈ k.boot.system.files.stored, _
    rw [hfiles]
    exact fun text htext => absurd htext List.not_mem_nil
  · show k.boot.system.files.draft = _ ∨ _
    rw [hfiles]
    exact .inl rfl

theorem undisturbed_back (w : World) (e : WorldEvent) (h : Undisturbed (w.step e)) :
    Undisturbed w := by
  have hguest (input : Input) (h : Undisturbed (w.guest input)) : Undisturbed w :=
    ⟨lt_of_le_of_lt (gesture_submissions w.kernel.running w.editor (w.kernel.gesture input))
      h.bounded, fun m hm => h.lossless m (List.mem_append_left _ hm)⟩
  cases e with
  | user event => exact hguest _ h
  | service n => exact hguest _ h
  | receive n => exact hguest _ h
  | host n call =>
    have hsame : (w.host n call).editor = w.editor ∧ (w.host n call).captured = w.captured := by
      unfold World.host
      split_ifs <;> exact ⟨rfl, rfl⟩
    obtain ⟨heditor, hcaptured⟩ := hsame
    exact ⟨heditor ▸ h.bounded, hcaptured ▸ h.lossless⟩

theorem step_kept (start : List UInt8) (apiKey : Str) (w : World) (e : WorldEvent)
    (h : Kept start apiKey w) (hnext : Undisturbed (w.step e)) : Kept start apiKey (w.step e) := by
  obtain ⟨done, waiting, hloop, htraced⟩ := h
  have hbound := (undisturbed_back w e hnext).bounded
  have hguest (input : Input) (hlater : (w.guest input).editor.submissions < 2 ^ 32 - 2)
      (hheard : Heard apiKey (w.guest input) done) : Kept start apiKey (w.guest input) := by
    obtain ⟨new, -, hnextLoop⟩ := guest_loop start apiKey w done waiting input hloop
    exact ⟨done, waiting ++ new, hnextLoop,
      guest_traced start apiKey w done waiting input hloop htraced hlater hheard⟩
  cases e with
  | user event =>
    exact hguest _ hnext.bounded
      (user_heard start apiKey w done waiting event hloop htraced hbound)
  | service n =>
    exact hguest _ hnext.bounded
      (service_heard start apiKey w done waiting n hloop htraced hbound hnext.lossless)
  | receive n => exact hguest _ hnext.bounded (receive_heard apiKey w done n htraced.toHeard)
  | host n call =>
    obtain ⟨now, later, -, hnextLoop⟩ := host_loop start apiKey w done waiting n call hloop
    have hheard := host_heard start apiKey w done _ waiting later n call hloop hnextLoop
      htraced.toHeard
    have hkernel : (w.host n call).kernel = w.kernel ∧ (w.host n call).editor = w.editor := by
      unfold World.host
      split_ifs <;> exact ⟨rfl, rfl⟩
    obtain ⟨hkernel, heditor⟩ := hkernel
    refine ⟨_, later, hnextLoop, hheard, ?_, ?_, ?_, ?_⟩
    · show Provenance (w.host n call).editor.submissions (w.host n call).kernel.core
      rw [hkernel, heditor]
      exact htraced.provenance
    · show (w.host n call).editor.Numbered
      rw [heditor]
      exact htraced.numbered
    · intro text htext
      have hmem : text ∈ w.kernel.system.files.stored := hkernel ▸ htext
      obtain ⟨made, hmade⟩ := htraced.drafts text hmem
      refine ⟨made, drafted_kept w _ text made hmade ?_ ⟨[], ?_⟩⟩
      · refine ⟨calls (keyAfter apiKey done) (now.map (·, call)), ?_⟩
        rw [hloop.made, ← calls_append]
        exact hnextLoop.made
      · rw [List.append_nil]
        exact congrArg Editor.sent heditor
    · have hfiles : (w.host n call).kernel.system.files = w.kernel.system.files := by
        rw [hkernel]
      show (w.host n call).kernel.system.files.draft = Files.init.draft ∨
        (w.host n call).kernel.system.files.draft ∈ (w.host n call).kernel.system.files.stored
      rw [hfiles]
      exact htraced.draft

theorem run_kept (k : Kernel) (apiKey : Str) (es : List WorldEvent) (h : k.port.Reliable)
    (hend : Undisturbed (run World.step (World.boot k apiKey) es)) :
    Kept k.port.written apiKey (run World.step (World.boot k apiKey) es) :=
  run_invariant_until World.step (fun _ => True) Undisturbed (Kept k.port.written apiKey)
    undisturbed_back (fun w e hkept _ hnext => step_kept k.port.written apiKey w e hkept hnext)
    _ es (boot_kept k apiKey h) (fun _ _ => trivial) hend

theorem answered_run (c : UInt8) (n : ℕ) :
    run World.step (World.boot powerOn [])
      (typedPrompt c ++ [.host 1024 echoCall] ++ [.service n]) =
      (servedWorld c).step (.service n) := by
  rw [run_append, served_run]
  rfl

theorem served_service (c : UInt8) (n : ℕ)
    (hsent : (typedWorld c).editor.sent = [.request 1 [c]])
    (hn : (replyFrame echoCall [] 1 [c]).bytes.length ≤ n) :
    (servedWorld c).step (.service n) =
      (servedWorld c).guest (.service (replyFrame echoCall [] 1 [c]).bytes) := by
  have hcaptured : (servedWorld c).captured = [] := (host_same (typedWorld c) 1024 echoCall).2.2
  have hwire : (servedWorld c).wire = (replyFrame echoCall [] 1 [c]).bytes := by
    rw [World.wire, hcaptured, (served_world c hsent).2]
    rfl
  rw [World.step, hwire, List.take_of_length_le hn]

theorem served_guest (c : UInt8) (input : Input) :
    ((servedWorld c).guest input).kernel = ((typedWorld c).guest input).kernel ∧
      ((servedWorld c).guest input).editor = ((typedWorld c).guest input).editor ∧
      ((servedWorld c).guest input).captured = ((typedWorld c).guest input).captured := by
  obtain ⟨hkernel, heditor, hcaptured⟩ := host_same (typedWorld c) 1024 echoCall
  unfold World.guest servedWorld
  rw [hkernel, heditor, hcaptured]
  exact ⟨rfl, rfl, rfl⟩

def letterReply : List UInt8 := Frame.bytes ⟨1, true, [97]⟩

theorem letter_reply : (replyFrame echoCall [] 1 [97]).bytes = letterReply := by decide +kernel

theorem letter_service :
    (servedWorld 97).step (.service 64) = (servedWorld 97).guest (.service letterReply) := by
  have hlength : (replyFrame echoCall [] 1 [97]).bytes.length ≤ 64 := by
    rw [letter_reply]
    decide +kernel
  rw [served_service 97 64 typed_letter hlength, letter_reply]

theorem letter_undisturbed : Undisturbed ((servedWorld 97).step (.service 64)) := by
  obtain ⟨-, heditor, hcaptured⟩ := served_guest 97 (.service letterReply)
  rw [letter_service]
  constructor
  · rw [heditor]
    decide +kernel
  · rw [hcaptured]
    decide +kernel

theorem letter_done : ((servedWorld 97).step (.service 64)).task.taskType = .hnlang ∧
    ((servedWorld 97).step (.service 64)).task.status = .done := by
  obtain ⟨hkernel, -, -⟩ := served_guest 97 (.service letterReply)
  rw [letter_service, World.task, hkernel]
  decide +kernel

/-- In every run without a lost byte, a request that is finished, well or
not, was passed to the provider with its own prompt, and its status and its
text are what came of that call. -/
theorem answers_are_own (k : Kernel) (apiKey : Str) (es : List WorldEvent) (h : k.port.Reliable)
    (hend : Undisturbed (run World.step (World.boot k apiKey) es)) :
    let w := run World.step (World.boot k apiKey) es
    w.task.taskType = .hnlang → w.task.status = .done ∨ w.task.status = .error →
      ∃ made ∈ w.calls, Answers w.task made := by
  intro w
  obtain ⟨done, waiting, -, htraced⟩ := run_kept k apiKey es h hend
  exact htraced.answered

theorem answers_are_own_letter :
    ∃ made ∈ ((servedWorld 97).step (.service 64)).calls,
      Answers ((servedWorld 97).step (.service 64)).task made := by
  have hanswers := answers_are_own powerOn []
    (typedPrompt 97 ++ [.host 1024 echoCall] ++ [.service 64]) readyUart_reliable
    (by
      rw [answered_run]
      exact letter_undisturbed)
  simp only [answered_run] at hanswers
  exact hanswers letter_done.1 (.inl letter_done.2)

/-- In every run without a lost byte, the draft in the workspace is the one
the kernel started with or has been saved, and everything that was ever saved
is a text the provider returned for a prompt typed in this run. -/
theorem drafts_from_provider (k : Kernel) (apiKey : Str) (es : List WorldEvent)
    (h : k.port.Reliable) (hend : Undisturbed (run World.step (World.boot k apiKey) es)) :
    let w := run World.step (World.boot k apiKey) es
    (w.kernel.system.files.draft = Files.init.draft ∨
      w.kernel.system.files.draft ∈ w.kernel.system.files.stored) ∧
    ∀ text ∈ w.kernel.system.files.stored, ∃ made, Drafted w text made := by
  intro w
  obtain ⟨done, waiting, -, htraced⟩ := run_kept k apiKey es h hend
  exact ⟨htraced.draft, htraced.drafts⟩

def savedWorld : World :=
  ((servedWorld 97).step (.service 64)).step (.user (UiEvent.init .mouseMove))

theorem saved_run : run World.step (World.boot powerOn [])
    (typedPrompt 97 ++ [.host 1024 echoCall] ++ [.service 64] ++
      [.user (UiEvent.init .mouseMove)]) = savedWorld := by
  rw [run_append, answered_run]
  rfl

theorem saved_undisturbed : Undisturbed savedWorld := by
  obtain ⟨hkernel, heditor, -⟩ := served_guest 97 (.service letterReply)
  rw [savedWorld]
  constructor
  · rw [letter_service, World.step, World.guest, hkernel, heditor]
    decide +kernel
  · rw [World.step, World.guest, captures, List.append_nil]
    exact letter_undisturbed.lossless

theorem saved_once : savedWorld.kernel.system.files.stored.length = 1 := by
  obtain ⟨hkernel, -, -⟩ := served_guest 97 (.service letterReply)
  rw [savedWorld, letter_service, World.step, World.guest, hkernel]
  decide +kernel

theorem drafts_from_provider_letter :
    ∃ text ∈ savedWorld.kernel.system.files.stored, ∃ made, Drafted savedWorld text made := by
  have hdrafts := drafts_from_provider powerOn []
    (typedPrompt 97 ++ [.host 1024 echoCall] ++ [.service 64] ++
      [.user (UiEvent.init .mouseMove)]) readyUart_reliable
    (by
      rw [saved_run]
      exact saved_undisturbed)
  simp only [saved_run] at hdrafts
  obtain ⟨text, htext⟩ := List.length_pos_iff_exists_mem.mp (saved_once ▸ Nat.one_pos)
  exact ⟨text, htext, hdrafts.2 text htext⟩

theorem replied (apiKey : Str) (done : List Order) (number : ℕ) (prompt : List UInt8)
    (hmem : Sent.request number prompt ∈ done.map Prod.fst)
    (hblank : ¬ ∀ c ∈ prompt, c = 32) :
    ∃ before f behind, replies apiKey done = before ++ f :: behind ∧
      f.id = UInt32.ofNat number := by
  obtain ⟨⟨order, call⟩, hserved, horder⟩ := List.mem_map.mp hmem
  obtain rfl : order = .request number prompt := horder
  obtain ⟨front, back, hsplit⟩ := List.append_of_mem hserved
  have hreply : replyFrame call (keyAfter apiKey front) (UInt32.ofNat number) prompt ∈
      replies apiKey done := by
    apply (mem_translate hostStep hostReply apiKey done _).mpr
    exact ⟨front, _, back, hsplit, List.mem_singleton.mpr rfl⟩
  obtain ⟨before, behind, hframes⟩ := List.append_of_mem hreply
  exact ⟨before, _, behind, hframes, (replyFrame_text _ _ _ _ hblank).1⟩

theorem still_running (w : World) (n : ℕ) (frames : List Frame)
    (hawake : w.kernel.system.halted = false)
    (hrun : (w.step (.service n)).task.status = .running) :
    (w.step (.service n)).task = w.task ∧ ((w.link frames).poll n).1 = false := by
  have heffect := (service_effect w.kernel (w.wire.take n) hawake).1
  rcases poll_slot w.kernel.system.bridge w.kernel.system.transport (w.wire.take n) with
    ⟨hno, hsame⟩ | ⟨-, -, output, status, hstatus, hclosed⟩
  · refine ⟨congrArg Bridge.lastTask (heffect.trans hsame), ?_⟩
    rw [Link.poll]
    exact hno
  · have htask : (w.step (.service n)).task = closeTask w.task output status :=
      congrArg Bridge.lastTask (heffect.trans hclosed)
    have hfinal : (w.step (.service n)).task.status = status := by
      rw [htask]
      rfl
    rw [hfinal] at hrun
    rcases hstatus with rfl | rfl <;> exact absurd hrun (by decide)

/-- Once the reply to a running task has been captured, a poll of the main
loop takes it. -/
theorem captured_completes (start : List UInt8) (apiKey : Str) (w : World) (done : List Order)
    (waiting : List Sent) (n : ℕ) (hloop : Loop start apiKey w done waiting)
    (htraced : Traced apiKey w done) (hawake : w.kernel.system.halted = false)
    (hlossless : ∀ m ∈ (w.step (.service n)).captured, m.2 = true)
    (hrun : w.task.status = .running) (before behind : List Frame) (f : Frame)
    (hframes : replies apiKey done = before ++ f :: behind) (hid : f.id = w.task.taskId)
    (hwire : (w.step (.service n)).wire.length ≤ (behind.flatMap Frame.bytes).length) :
    ((w.link (replies apiKey done)).poll n).1 = true := by
  obtain ⟨eaten, pending, hframed⟩ := htraced.framed
  have hwired := running_wired apiKey w done (replies apiKey done) hloop.tracked htraced hrun
  obtain ⟨-, -, hcaptured, hwires, -, -⟩ := service_link w n (replies apiKey done) hawake
  have hcaptured : (w.step (.service n)).captured = _ := hcaptured
  have hwires : (w.step (.service n)).wire = _ := hwires
  rw [hcaptured] at hlossless
  rw [hwires] at hwire
  obtain ⟨eaten', pending', hpolled⟩ :=
    poll_framed (w.link (replies apiKey done)) n eaten pending hwired hframed
  have hwhole := wholeLine_of_lossless ((w.link (replies apiKey done)).poll n).2 _ _ hlossless
    before behind f (by rw [poll_sent]; exact hframes) hpolled.stream hwire
  exact poll_completes (w.link (replies apiKey done)) n ⟨hwired, eaten, pending, hframed⟩ hrun
    before behind f hframes (Nat.zero_le _) hid hwhole

theorem unanswered_blank (start : List UInt8) (apiKey : Str) (w : World) (n : ℕ)
    (hkept : Kept start apiKey w) (hend : Undisturbed (w.step (.service n)))
    (hawake : w.kernel.system.halted = false) (hread : w.unread = [])
    (hwire : (w.step (.service n)).wire = [])
    (hrun : (w.step (.service n)).task.status = .running) :
    ∀ c ∈ (w.step (.service n)).task.input.chars, c = 32 := by
  obtain ⟨done, waiting, hloop, htraced⟩ := hkept
  obtain ⟨htask, hunanswered⟩ := still_running w n (replies apiKey done) hawake hrun
  rw [htask] at hrun ⊢
  obtain ⟨number, hmem, hnumber⟩ := htraced.typed (htraced.live hrun)
  by_contra hblank
  have horders := hloop.orders
  rw [all_read _ _ w done waiting hloop hread, List.append_nil] at horders
  rw [horders] at hmem
  obtain ⟨before, f, behind, hframes, hid⟩ := replied apiKey done number _ hmem hblank
  have hdone := captured_completes start apiKey w done waiting n hloop htraced hawake hend.lossless
    hrun before behind f hframes (hid.trans hnumber.symm) (by rw [hwire]; exact Nat.zero_le _)
  exact Bool.false_ne_true (hunanswered.symm.trans hdone)

/-- When the lines are empty in both directions after a poll of the main loop,
no request is left waiting, except for a blank prompt, which the host refuses
without saying whose it is. -/
theorem nothing_left_waiting (k : Kernel) (apiKey : Str) (es : List WorldEvent) (n : ℕ)
    (h : k.port.Reliable)
    (hend : Undisturbed ((run World.step (World.boot k apiKey) es).step (.service n)))
    (hawake : (run World.step (World.boot k apiKey) es).kernel.system.halted = false)
    (hread : (run World.step (World.boot k apiKey) es).unread = [])
    (hwire : ((run World.step (World.boot k apiKey) es).step (.service n)).wire = [])
    (hrun : ((run World.step (World.boot k apiKey) es).step (.service n)).task.status =
      .running) :
    ∀ c ∈ ((run World.step (World.boot k apiKey) es).step (.service n)).task.input.chars,
      c = 32 := by
  have hkept := run_kept k apiKey es h (undisturbed_back _ _ hend)
  exact unanswered_blank _ apiKey _ n hkept hend hawake hread hwire hrun

theorem typed_space : (typedWorld 32).editor.sent = [.request 1 [32]] := by decide +kernel

def spaceReply : List UInt8 := Frame.bytes ⟨0, false, str "empty prompt"⟩

theorem space_reply : (replyFrame echoCall [] 1 [32]).bytes = spaceReply := by
  have hspaces : ∀ c ∈ [(32 : UInt8)], c = 32 := fun c hc => List.mem_singleton.mp hc
  rw [replyFrame_spaces echoCall [] 1 [32] hspaces, spaceReply]

theorem space_service :
    (servedWorld 32).step (.service 64) = (servedWorld 32).guest (.service spaceReply) := by
  have hlength : (replyFrame echoCall [] 1 [32]).bytes.length ≤ 64 := by
    rw [space_reply]
    decide +kernel
  rw [served_service 32 64 typed_space hlength, space_reply]

theorem space_undisturbed : Undisturbed ((servedWorld 32).step (.service 64)) := by
  obtain ⟨-, heditor, hcaptured⟩ := served_guest 32 (.service spaceReply)
  rw [space_service]
  constructor
  · rw [heditor]
    decide +kernel
  · rw [hcaptured]
    decide +kernel

theorem space_wire : ((servedWorld 32).step (.service 64)).wire = [] := by
  obtain ⟨-, -, hcaptured⟩ := served_guest 32 (.service spaceReply)
  have hall : ((typedWorld 32).guest (.service spaceReply)).captured.length =
      spaceReply.length := by decide +kernel
  have hserver (w : World) (input : Input) : (w.guest input).server = w.server := rfl
  rw [World.wire, space_service, hserver, hcaptured, hall, (served_world 32 typed_space).2,
    space_reply, List.drop_length]

theorem nothing_left_waiting_space :
    ((servedWorld 32).step (.service 64)).task.status = .running ∧
      ((servedWorld 32).step (.service 64)).task.input.chars.all (· == 32) = true := by
  obtain ⟨hkernel, -, -⟩ := served_guest 32 (.service spaceReply)
  have hrun : ((servedWorld 32).step (.service 64)).task.status = .running := by
    rw [space_service, World.task, hkernel]
    decide +kernel
  have hawake : (servedWorld 32).kernel.system.halted = false := by
    rw [servedWorld, (host_same (typedWorld 32) 1024 echoCall).1]
    decide +kernel
  have hwaiting := nothing_left_waiting powerOn [] (typedPrompt 32 ++ [.host 1024 echoCall]) 64
    readyUart_reliable
  rw [served_run] at hwaiting
  have hspaces := hwaiting space_undisturbed hawake (served_world 32 typed_space).1 space_wire hrun
  exact ⟨hrun, List.all_eq_true.mpr fun c hc => beq_iff_eq.mpr (hspaces c hc)⟩

end Hnmos.ClosedLoop
