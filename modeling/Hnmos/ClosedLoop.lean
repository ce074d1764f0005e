import Mathlib
import Hnmos.HostService

/-!
# The guest and its host together

The whole machine runs against the whole host. A user's events, the polls of
the main loop, the interrupts of the second port and the reads of the host
come in any order and take any number of bytes; the remote call may answer
differently at every read. The editor runs beside the machine and records what
was typed. In every run the host has done for a first part of the orders
exactly what the abstract host does for them.
-/

set_option autoImplicit false

namespace Hnmos.ClosedLoop
open Hnmos.CString Hnmos.RingBuffer Hnmos.Task Hnmos.SerialPort Hnmos.SerialTransport
open Hnmos.AiBridge Hnmos.AiSession Hnmos.HostBridge Hnmos.HostServe Hnmos.HostService
open Hnmos.ResponseFrame Hnmos.RequestReply Hnmos.Transition Hnmos.Events

/-- `taken` bytes of the guest's output have reached the host. A captured byte
is recorded with whether the receive buffer stored it. -/
structure World where
  kernel : Kernel
  editor : Editor
  server : Server
  taken : ℕ
  captured : List (UInt8 × Bool)
  calls : List RemoteCall

inductive WorldEvent where
  | user (event : UiEvent)
  | service (n : ℕ)
  | receive (n : ℕ)
  | host (n : ℕ) (call : CallProvider)

def World.boot (k : Kernel) (apiKey : Str) : World :=
  ⟨k.boot, Editor.init, Server.start apiKey, k.port.written.length, [], []⟩

/-- What the guest has sent and the host has not read. -/
def World.unread (w : World) : List UInt8 := w.kernel.port.written.drop w.taken

/-- What the host has sent and the guest has not captured. -/
def World.wire (w : World) : List UInt8 := w.server.sent.drop w.captured.length

def listens (k : Kernel) : Bool :=
  !k.system.halted && k.system.bridge.ready && k.system.bridge.lastProvider == some .serial &&
    k.system.bridge.lastTask.status == .running && k.system.transport.ready

def captures (k : Kernel) : Input → List (UInt8 × Bool)
  | .event _ => []
  | .service arrived => if listens k then k.system.transport.rx.storing arrived else []
  | .receive arrived =>
    if k.system.halted then [] else k.system.transport.rx.storing arrived

def World.guest (w : World) (input : Input) : World :=
  { w with
    kernel := w.kernel.step input
    editor := w.editor.step w.kernel.running (w.kernel.gesture input)
    captured := w.captured ++ captures w.kernel input }

theorem recv_fits (unread : List UInt8) (n : ℕ) : (unread.take (min n 1024)).length ≤ 1024 :=
  (List.length_take_le _ _).trans (min_le_right _ _)

def World.read (w : World) (call : CallProvider) (chunk : Chunk) : World :=
  { w with
    server := w.server.receive call chunk
    taken := w.taken + chunk.bytes.length
    calls := w.calls ++ receiveCalls call w.server chunk }

/-- The host reads what has come, and waits while there is nothing. -/
def World.host (w : World) (n : ℕ) (call : CallProvider) : World :=
  if h : w.unread.take (min n 1024) ≠ [] then
    w.read call ⟨w.unread.take (min n 1024), h, recv_fits w.unread n⟩
  else w

def World.step (w : World) : WorldEvent → World
  | .user event => w.guest (.event event)
  | .service n => w.guest (.service (w.wire.take n))
  | .receive n => w.guest (.receive (w.wire.take n))
  | .host n call => w.host n call

def TypedMode : Mode → Prop
  | .idle => True
  | .secret text => text.length ≤ 191 ∧ ∀ c ∈ text, keyCharacter c = true
  | .prompt text => text.length ≤ 159 ∧ ∀ c ∈ text, promptCharacter c = true

structure Typed (e : Editor) : Prop where
  mode : TypedMode e.mode
  sent : ∀ order ∈ e.sent, Proper order

theorem typed_text (accepted : UInt8 → Bool) (room : ℕ) (text : List UInt8) (c : UInt8)
    (h : text.length ≤ room ∧ ∀ c ∈ text, accepted c = true) :
    (typed accepted room text c).length ≤ room ∧
      ∀ d ∈ typed accepted room text c, accepted d = true := by
  unfold typed
  split_ifs with hroom
  · simp only [Bool.and_eq_true, decide_eq_true_eq] at hroom
    constructor
    · rw [List.length_append, List.length_singleton]
      exact hroom.2
    · intro d hd
      rcases List.mem_append.mp hd with hd | hd
      · exact h.2 d hd
      · rw [List.mem_singleton.mp hd]
        exact hroom.1
  · exact h

theorem dropLast_text (accepted : UInt8 → Bool) (room : ℕ) (text : List UInt8)
    (h : text.length ≤ room ∧ ∀ c ∈ text, accepted c = true) :
    text.dropLast.length ≤ room ∧ ∀ c ∈ text.dropLast, accepted c = true := by
  refine ⟨?_, fun c hc => h.2 c (List.mem_of_mem_dropLast hc)⟩
  rw [List.length_dropLast]
  exact (Nat.sub_le _ _).trans h.1

theorem press_typed (running : Bool) (e : Editor) (b : StudioButton) (h : Typed e) :
    Typed (e.press running b) := by
  have hempty (accepted : UInt8 → Bool) : ∀ c ∈ ([] : List UInt8), accepted c = true :=
    fun c hc => absurd hc List.not_mem_nil
  cases b with
  | subscription => exact ⟨trivial, h.sent⟩
  | apiKey => exact ⟨⟨Nat.zero_le _, hempty _⟩, h.sent⟩
  | generate =>
    unfold Editor.press
    simp only
    split_ifs
    · exact h
    · exact ⟨⟨Nat.zero_le _, hempty _⟩, h.sent⟩
  | review => exact h
  | build => exact h

theorem enter_typed (e : Editor) (h : Typed e) : Typed e.enter := by
  have hmode := h.mode
  unfold Editor.enter
  cases hm : e.mode with
  | idle => exact h
  | secret text =>
    rw [hm] at hmode
    refine ⟨trivial, ?_⟩
    simp only
    split_ifs with hlong
    · intro order horder
      rcases List.mem_append.mp horder with horder | horder
      · exact h.sent order horder
      · rw [List.mem_singleton.mp horder]
        exact ⟨hlong, hmode⟩
    · exact h.sent
  | prompt text =>
    rw [hm] at hmode
    simp only
    split_ifs with hempty
    · exact h
    · refine ⟨trivial, ?_⟩
      intro order horder
      rcases List.mem_append.mp horder with horder | horder
      · exact h.sent order horder
      · rw [List.mem_singleton.mp horder]
        refine ⟨hempty, hmode.1, ?_⟩
        intro c hc
        have hrange := hmode.2 c hc
        simp only [promptCharacter, Bool.and_eq_true, decide_eq_true_eq] at hrange
        exact ⟨UInt8.le_iff_toNat_le.mpr hrange.1, UInt8.le_iff_toNat_le.mpr hrange.2⟩

theorem gesture_typed (running : Bool) (e : Editor) (g : Gesture) (h : Typed e) :
    Typed (e.step running g) := by
  have hmode := h.mode
  cases g with
  | none => exact h
  | key c =>
    show Typed (e.type running c)
    unfold Editor.type
    cases hm : e.mode with
    | idle =>
      cases commandButton c with
      | none => exact h
      | some b => exact press_typed running e b h
    | secret text =>
      rw [hm] at hmode
      exact ⟨typed_text keyCharacter 191 text c hmode, h.sent⟩
    | prompt text =>
      rw [hm] at hmode
      exact ⟨typed_text promptCharacter 159 text c hmode, h.sent⟩
  | backspace =>
    show Typed e.backspace
    unfold Editor.backspace
    cases hm : e.mode with
    | idle => exact h
    | secret text =>
      rw [hm] at hmode
      exact ⟨dropLast_text keyCharacter 191 text hmode, h.sent⟩
    | prompt text =>
      rw [hm] at hmode
      exact ⟨dropLast_text promptCharacter 159 text hmode, h.sent⟩
  | enter => exact enter_typed e h
  | button b => exact press_typed running e b h
  | leave => exact ⟨trivial, h.sent⟩
  | request => exact ⟨h.mode, h.sent⟩

theorem press_sent (running : Bool) (e : Editor) (b : StudioButton) :
    (e.press running b).sent = e.sent := by
  cases b with
  | generate =>
    unfold Editor.press
    simp only
    split_ifs <;> rfl
  | subscription | apiKey | review | build => rfl

theorem gesture_sent (running : Bool) (e : Editor) (g : Gesture) :
    ∃ new, (e.step running g).sent = e.sent ++ new := by
  have hsame {sent : List Sent} (h : sent = e.sent) : ∃ new, sent = e.sent ++ new :=
    ⟨[], h.trans (List.append_nil _).symm⟩
  cases g with
  | none => exact hsame rfl
  | key c =>
    show ∃ new, (e.type running c).sent = e.sent ++ new
    unfold Editor.type
    cases e.mode with
    | idle =>
      cases commandButton c with
      | none => exact hsame rfl
      | some b => exact hsame (press_sent running e b)
    | secret text => exact hsame rfl
    | prompt text => exact hsame rfl
  | backspace =>
    show ∃ new, e.backspace.sent = e.sent ++ new
    unfold Editor.backspace
    cases e.mode <;> exact hsame rfl
  | enter =>
    show ∃ new, e.enter.sent = e.sent ++ new
    unfold Editor.enter
    cases e.mode with
    | idle => exact hsame rfl
    | secret text =>
      simp only
      split_ifs
      · exact ⟨_, rfl⟩
      · exact hsame rfl
    | prompt text =>
      simp only
      split_ifs
      · exact hsame rfl
      · exact ⟨_, rfl⟩
  | button b => exact hsame (press_sent running e b)
  | leave => exact hsame rfl
  | request => exact hsame rfl

/-- The orders `done` have been served with what the remote calls were then;
the orders in `waiting` are on their way to the host. -/
structure Loop (start : List UInt8) (apiKey : Str) (w : World) (done : List Order)
    (waiting : List Sent) : Prop where
  tracked : Tracked w.kernel
  edits : Edits start w.kernel.core w.editor
  typed : Typed w.editor
  orders : w.editor.sent = done.map Prod.fst ++ waiting
  taken : w.taken ≤ w.kernel.port.written.length
  stream : w.server.pending ++ w.unread = waiting.flatMap Sent.bytes
  free : 10 ∉ w.server.pending
  key : w.server.sessionApiKey = keyAfter apiKey done
  sent : w.server.sent = (replies apiKey done).flatMap Frame.bytes
  made : w.calls = calls apiKey done

theorem boot_loop (k : Kernel) (apiKey : Str) (h : k.port.Reliable) :
    Loop k.port.written apiKey (World.boot k apiKey) [] [] := by
  have hedits := boot_edits k h
  have hwritten : k.boot.port.written = k.port.written := by
    have hport := hedits.written
    rwa [show Editor.init.sent = [] from rfl, List.flatMap_nil, List.append_nil] at hport
  refine ⟨boot_tracked k, hedits, ⟨trivial, nofun⟩, rfl, ?_, ?_, List.not_mem_nil, rfl, rfl, rfl⟩
  · show k.port.written.length ≤ k.boot.port.written.length
    rw [hwritten]
  · show [] ++ k.boot.port.written.drop k.port.written.length = []
    rw [hwritten, List.drop_length, List.append_nil]

theorem guest_loop (start : List UInt8) (apiKey : Str) (w : World) (done : List Order)
    (waiting : List Sent) (input : Input) (h : Loop start apiKey w done waiting) :
    ∃ new, (w.guest input).editor.sent = w.editor.sent ++ new ∧
      Loop start apiKey (w.guest input) done (waiting ++ new) := by
  have hedits := step_edits start w.kernel w.editor input h.tracked h.edits
  obtain ⟨new, hnew⟩ := gesture_sent w.kernel.running w.editor (w.kernel.gesture input)
  have hwritten : (w.kernel.step input).port.written =
      w.kernel.port.written ++ new.flatMap Sent.bytes := by
    have hbefore : w.kernel.port.written = _ := h.edits.written
    have hafter : (w.kernel.step input).port.written = _ := hedits.written
    rw [hafter, hnew, List.flatMap_append, ← List.append_assoc, ← hbefore]
  refine ⟨new, hnew, step_tracked w.kernel input h.tracked, hedits,
    gesture_typed w.kernel.running w.editor (w.kernel.gesture input) h.typed, ?_, ?_, ?_, h.free,
    h.key, h.sent, h.made⟩
  · show (w.editor.step w.kernel.running (w.kernel.gesture input)).sent = _
    rw [hnew, h.orders, List.append_assoc]
  · show w.taken ≤ (w.kernel.step input).port.written.length
    rw [hwritten, List.length_append]
    exact h.taken.trans (Nat.le_add_right _ _)
  · show w.server.pending ++ (w.kernel.step input).port.written.drop w.taken = _
    rw [hwritten, List.drop_append_of_le_length h.taken, List.flatMap_append,
      ← List.append_assoc]
    exact congrArg (· ++ _) h.stream

/-- A read of the host serves the orders it completes. -/
theorem read_loop (start : List UInt8) (apiKey : Str) (w : World) (done : List Order)
    (waiting : List Sent) (call : CallProvider) (chunk : Chunk) (rest : List UInt8)
    (h : Loop start apiKey w done waiting) (hunread : w.unread = chunk.bytes ++ rest) :
    ∃ now later, waiting = now ++ later ∧
      Loop start apiKey (w.read call chunk) (done ++ now.map (·, call)) later := by
  have hproper : ∀ order ∈ waiting, Proper order := by
    intro order horder
    apply h.typed.sent order
    rw [h.orders]
    exact List.mem_append_right _ horder
  have hstream : w.server.pending ++ chunk.bytes ++ rest = waiting.flatMap Sent.bytes := by
    rw [List.append_assoc, ← hunread, h.stream]
  obtain ⟨now, later, hwaiting, hserved, hlater⟩ :=
    receive_orders call w.server chunk waiting rest hproper h.free hstream
  have hrest : (w.read call chunk).unread = rest := by
    show w.kernel.port.written.drop (w.taken + chunk.bytes.length) = rest
    rw [← List.drop_drop]
    show w.unread.drop chunk.bytes.length = rest
    rw [hunread, List.drop_left]
  have hlength : chunk.bytes.length ≤ w.kernel.port.written.length - w.taken := by
    rw [← List.length_drop]
    show _ ≤ w.unread.length
    rw [hunread, List.length_append]
    exact Nat.le_add_right _ _
  refine ⟨now, later, hwaiting, h.tracked, h.edits, h.typed, ?_, ?_, ?_, hserved.free, ?_, ?_, ?_⟩
  · show w.editor.sent = _
    rw [h.orders, hwaiting, List.map_append, List.map_map, List.append_assoc]
    show _ = _ ++ (now.map id ++ later)
    rw [List.map_id]
  · show w.taken + chunk.bytes.length ≤ w.kernel.port.written.length
    have htaken := h.taken
    omega
  · rw [hrest]
    exact hlater
  · rw [keyAfter_append, ← h.key]
    exact hserved.key
  · rw [replies_append, List.flatMap_append, ← h.key, ← h.sent]
    exact hserved.sent
  · rw [calls_append, ← h.key, ← h.made]
    exact congrArg (w.calls ++ ·) hserved.made

theorem host_loop (start : List UInt8) (apiKey : Str) (w : World) (done : List Order)
    (waiting : List Sent) (n : ℕ) (call : CallProvider) (h : Loop start apiKey w done waiting) :
    ∃ now later, waiting = now ++ later ∧
      Loop start apiKey (w.host n call) (done ++ now.map (·, call)) later := by
  unfold World.host
  split_ifs with hchunk
  · exact read_loop start apiKey w done waiting call _ (w.unread.drop (min n 1024)) h
      (List.take_append_drop _ _).symm
  · refine ⟨[], waiting, rfl, ?_⟩
    rw [List.map_nil, List.append_nil]
    exact h

theorem step_loop (start : List UInt8) (apiKey : Str) (w : World) (e : WorldEvent)
    (h : ∃ done waiting, Loop start apiKey w done waiting) :
    ∃ done waiting, Loop start apiKey (w.step e) done waiting := by
  obtain ⟨done, waiting, hloop⟩ := h
  have hguest (input : Input) : ∃ done waiting, Loop start apiKey (w.guest input) done waiting := by
    obtain ⟨new, -, hnext⟩ := guest_loop start apiKey w done waiting input hloop
    exact ⟨done, waiting ++ new, hnext⟩
  cases e with
  | user event => exact hguest _
  | service n => exact hguest _
  | receive n => exact hguest _
  | host n call =>
    obtain ⟨now, later, -, hnext⟩ := host_loop start apiKey w done waiting n call hloop
    exact ⟨_, later, hnext⟩

theorem run_loop (k : Kernel) (apiKey : Str) (es : List WorldEvent) (h : k.port.Reliable) :
    ∃ done waiting,
      Loop k.port.written apiKey (run World.step (World.boot k apiKey) es) done waiting :=
  run_invariant_all World.step (fun w => ∃ done waiting, Loop k.port.written apiKey w done waiting)
    (step_loop k.port.written apiKey) _ es ⟨[], [], boot_loop k apiKey h⟩

theorem all_read (start : List UInt8) (apiKey : Str) (w : World) (done : List Order)
    (waiting : List Sent) (h : Loop start apiKey w done waiting) (hread : w.unread = []) :
    waiting = [] := by
  have hstream := h.stream
  rw [hread, List.append_nil] at hstream
  cases waiting with
  | nil => rfl
  | cons order later =>
    apply absurd _ h.free
    rw [hstream, List.flatMap_cons, bytes_line]
    simp

theorem host_same (w : World) (n : ℕ) (call : CallProvider) :
    (w.host n call).kernel = w.kernel ∧ (w.host n call).editor = w.editor ∧
      (w.host n call).captured = w.captured := by
  unfold World.host
  split_ifs <;> exact ⟨rfl, rfl, rfl⟩

theorem host_unread (w : World) (n : ℕ) (call : CallProvider) :
    (w.host n call).unread = w.unread.drop (min n 1024) := by
  unfold World.host
  split_ifs with hchunk
  · show w.kernel.port.written.drop (w.taken + (w.unread.take (min n 1024)).length) = _
    rw [← List.drop_drop]
    show w.unread.drop _ = _
    rw [List.length_take]
    rcases Nat.le_total (min n 1024) w.unread.length with hle | hle
    · rw [Nat.min_eq_left hle]
    · rw [Nat.min_eq_right hle, List.drop_length, List.drop_eq_nil_of_le hle]
  · have hsplit := List.take_append_drop (min n 1024) w.unread
    rw [not_not.mp hchunk, List.nil_append] at hsplit
    exact hsplit.symm

def typedPrompt (c : UInt8) : List WorldEvent :=
  (keyEvents 53 ++ keyEvents 103 ++ keyEvents c ++ enterEvents).map WorldEvent.user

def typedWorld (c : UInt8) : World := run World.step (World.boot powerOn []) (typedPrompt c)

def echoCall : CallProvider := fun prompt _ _ => .ok prompt

def servedWorld (c : UInt8) : World := (typedWorld c).host 1024 echoCall

theorem served_run (c : UInt8) :
    run World.step (World.boot powerOn []) (typedPrompt c ++ [.host 1024 echoCall]) =
      servedWorld c := by
  rw [run_append]
  rfl

theorem typed_loop (c : UInt8) (hsent : (typedWorld c).editor.sent = [.request 1 [c]]) :
    Loop [] [] (typedWorld c) [] [.request 1 [c]] := by
  obtain ⟨done, waiting, hloop⟩ := run_loop powerOn [] (typedPrompt c) readyUart_reliable
  have hloop : Loop [] [] (typedWorld c) done waiting := hloop
  have hunread : (typedWorld c).unread = [Sent.request 1 [c]].flatMap Sent.bytes := by
    show (typedWorld c).kernel.port.written = _
    rw [← hsent]
    exact hloop.edits.written
  exact ⟨hloop.tracked, hloop.edits, hloop.typed, hsent, Nat.zero_le _, hunread, List.not_mem_nil,
    rfl, rfl, rfl⟩

theorem served_world (c : UInt8) (hsent : (typedWorld c).editor.sent = [.request 1 [c]]) :
    (servedWorld c).unread = [] ∧
      (servedWorld c).server.sent = (replyFrame echoCall [] 1 [c]).bytes := by
  have hloop := typed_loop c hsent
  have hstream : (typedWorld c).unread = [Sent.request 1 [c]].flatMap Sent.bytes := hloop.stream
  have hunread : (servedWorld c).unread = [] := by
    have hcontract := contract_length
    show ((typedWorld c).host 1024 echoCall).unread = []
    rw [host_unread, hstream]
    apply List.drop_eq_nil_of_le
    rw [List.flatMap_singleton, bytes_line, orderLine, List.length_append, requestLine_length,
      hcontract]
    show 23 + 2 * 1 + 2 * 464 + 1 ≤ min 1024 1024
    decide
  obtain ⟨now, later, hwaiting, hnext⟩ :=
    host_loop [] [] (typedWorld c) [] [.request 1 [c]] 1024 echoCall hloop
  have hlater := all_read [] [] (servedWorld c) _ later hnext hunread
  rw [hlater, List.append_nil] at hwaiting
  refine ⟨hunread, hnext.sent.trans ?_⟩
  rw [← hwaiting]
  exact List.append_nil _

theorem typed_letter : (typedWorld 97).editor.sent = [.request 1 [97]] := by decide +kernel

/-- In every run of the machine against its host, whatever the order of events
and however the bytes are cut: the host has answered a first part of what was
typed, order by order, with one remote call for each prompt that is not blank,
made with the key typed last before it; and all of it as soon as nothing is
left unread. -/
theorem host_follows_typing (k : Kernel) (apiKey : Str) (es : List WorldEvent)
    (h : k.port.Reliable) :
    let w := run World.step (World.boot k apiKey) es
    ∃ done : List Order,
      done.map Prod.fst <+: w.editor.sent ∧ w.calls = calls apiKey done ∧
      w.server.sent = (replies apiKey done).flatMap Frame.bytes ∧
      w.server.sessionApiKey = keyAfter apiKey done ∧
      (w.unread = [] → done.map Prod.fst = w.editor.sent) := by
  intro w
  obtain ⟨done, waiting, hloop⟩ := run_loop k apiKey es h
  refine ⟨done, ⟨waiting, hloop.orders.symm⟩, hloop.made, hloop.sent, hloop.key, ?_⟩
  intro hread
  have hnone := all_read _ _ _ done waiting hloop hread
  have horders := hloop.orders
  rw [hnone, List.append_nil] at horders
  exact horders.symm

theorem host_follows_letter :
    ∃ done : List Order, done.map Prod.fst = [.request 1 [97]] ∧
      (servedWorld 97).calls = calls [] done := by
  have hfollows := host_follows_typing powerOn [] (typedPrompt 97 ++ [.host 1024 echoCall])
    readyUart_reliable
  simp only [served_run] at hfollows
  obtain ⟨done, -, hcalls, -, -, hall⟩ := hfollows
  refine ⟨done, (hall (served_world 97 typed_letter).1).trans ?_, hcalls⟩
  rw [servedWorld, (host_same (typedWorld 97) 1024 echoCall).2.1, typed_letter]

theorem step_numbered (w : World) (e : WorldEvent) (h : w.editor.Numbered) :
    (w.step e).editor.Numbered := by
  cases e with
  | user event => exact gesture_numbered _ _ _ h
  | service n => exact gesture_numbered _ _ _ h
  | receive n => exact gesture_numbered _ _ _ h
  | host n call =>
    show (w.host n call).editor.Numbered
    unfold World.host
    split_ifs <;> exact h

theorem run_numbered (k : Kernel) (apiKey : Str) (es : List WorldEvent) :
    (run World.step (World.boot k apiKey) es).editor.Numbered :=
  run_invariant_all World.step (·.editor.Numbered) step_numbered _ es editor_numbered

theorem encode32_injective : Function.Injective Hex.encode32 := by
  intro a b h
  have hdecode := congrArg Hex.decode32 h
  rw [Hex.decode32_encode32, Hex.decode32_encode32] at hdecode
  exact Option.some.inj hdecode

/-- Every remote call is made for a prompt that was typed and is not blank, and
while identifiers have not come round no prompt is passed on twice, however
often the host is woken and whatever its calls return. -/
theorem calls_once (k : Kernel) (apiKey : Str) (es : List WorldEvent) (h : k.port.Reliable)
    (hbound : (run World.step (World.boot k apiKey) es).editor.submissions ≤ 2 ^ 32) :
    let w := run World.step (World.boot k apiKey) es
    (w.calls.map (·.request.requestId)).Nodup ∧
    ∀ made ∈ w.calls, ∃ number prompt, Sent.request number prompt ∈ w.editor.sent ∧
      (¬ ∀ c ∈ prompt, c = 32) ∧
      made.request = ⟨Hex.encode32 (UInt32.ofNat number), 6, codes prompt,
        decodeUtf8 hnlangAiSystemContract⟩ := by
  intro w
  obtain ⟨done, waiting, hloop⟩ := run_loop k apiKey es h
  have hserved : (done.map Prod.fst).Sublist w.editor.sent := by
    rw [hloop.orders]
    exact List.sublist_append_left _ _
  constructor
  · have hids : (w.editor.ids.map Hex.encode32).Nodup :=
      (ids_nodup w.editor (run_numbered k apiKey es) hbound).map encode32_injective
    rw [Editor.ids, List.map_map] at hids
    rw [hloop.made]
    apply ((calls_ids apiKey done).trans _).nodup hids
    exact (hserved.filterMap Sent.number).map _
  · intro made hmade
    rw [hloop.made] at hmade
    obtain ⟨number, prompt, hmem, hrest⟩ := mem_calls apiKey done made hmade
    exact ⟨number, prompt, hserved.subset hmem, hrest⟩

theorem calls_once_letter : ((servedWorld 97).calls.map (·.request.requestId)).Nodup := by
  have hbound : (typedWorld 97).editor.submissions ≤ 2 ^ 32 := by decide +kernel
  have honce := calls_once powerOn [] (typedPrompt 97 ++ [.host 1024 echoCall]) readyUart_reliable
    (by
      rw [served_run, servedWorld, (host_same (typedWorld 97) 1024 echoCall).2.1]
      exact hbound)
  simp only [served_run] at honce
  exact honce.1

end Hnmos.ClosedLoop
