import Mathlib
import Hnmos.FrameRoundTrip
import Hnmos.HostServe
import Hnmos.RequestReply
import Hnmos.TypedOutput

/-!
# The host at work on what was typed

The abstract host takes whole orders: a key replaces the key in force, a
prompt is passed on with that key and answered by one frame. The receiving
loop sees chunks of bytes. However the stream of orders is cut into chunks,
the loop does what the abstract host does for the orders that are complete,
and an order is never too long for its buffer.
-/

set_option autoImplicit false

namespace Hnmos.HostService
open Hnmos.CString Hnmos.Task Hnmos.SerialPort Hnmos.SerialTransport Hnmos.AiSession
open Hnmos.HostBridge Hnmos.HostServe Hnmos.ResponseFrame Hnmos.RequestReply Hnmos.Transition
open Hnmos.Workspace

/-- A remote call that was made, with what came of it. -/
structure RemoteCall where
  request : Request
  apiKey : Str
  outcome : Except Str Str

def lineCalls (call : CallProvider) (line : List UInt8) (apiKey : Str) : List RemoteCall :=
  if hasPrefix line (ascii "HNAI1|KEY|") then []
  else
    match parseRequest line with
    | .error _ => []
    | .ok request =>
      if request.taskType ∈ [1, 2, 3, 4, 5, 6, 7] then
        [⟨request, apiKey, call request.prompt request.profile apiKey⟩]
      else []

def drainCalls (call : CallProvider) : ℕ → Server → List RemoteCall
  | 0, _ => []
  | passes + 1, s =>
    match partitionLine s.pending with
    | none => []
    | some (line, remainder) =>
      lineCalls call line s.sessionApiKey ++
        drainCalls call passes ({ s with pending := remainder }.passLine call line)

def receiveCalls (call : CallProvider) (s : Server) (chunk : Chunk) : List RemoteCall :=
  let pending := s.pending ++ chunk.bytes
  if 8192 < pending.length then []
  else drainCalls call pending.length { s with pending := pending }

def Proper : Sent → Prop
  | .key text => 8 ≤ text.length ∧ text.length ≤ 191 ∧ ∀ c ∈ text, keyCharacter c = true
  | .request _ text => Submittable text

def orderLine : Sent → List UInt8
  | .key text => keyLine text
  | .request number text =>
    requestLine (UInt32.ofNat number) .hnlang text hnlangAiSystemContract

/-- An order as the host takes it: with the remote call as it is at the time. -/
abbrev Order := Sent × CallProvider

def hostStep (apiKey : Str) : Order → Str
  | (.key text, _) => codes text
  | (.request _ _, _) => apiKey

def hostReply (apiKey : Str) : Order → List Frame
  | (.key _, _) => []
  | (.request number text, call) => [replyFrame call apiKey (UInt32.ofNat number) text]

def hostCall (apiKey : Str) : Order → List RemoteCall
  | (.key _, _) => []
  | (.request number text, call) =>
    if ∀ c ∈ text, c = 32 then []
    else
      [⟨⟨Hex.encode32 (UInt32.ofNat number), 6, codes text, decodeUtf8 hnlangAiSystemContract⟩,
        apiKey, call (codes text) (decodeUtf8 hnlangAiSystemContract) apiKey⟩]

def keyAfter (apiKey : Str) (orders : List Order) : Str := run hostStep apiKey orders

def replies (apiKey : Str) (orders : List Order) : List Frame :=
  translate hostStep hostReply apiKey orders

def calls (apiKey : Str) (orders : List Order) : List RemoteCall :=
  translate hostStep hostCall apiKey orders

theorem keyAfter_append (apiKey : Str) (orders more : List Order) :
    keyAfter apiKey (orders ++ more) = keyAfter (keyAfter apiKey orders) more :=
  run_append hostStep apiKey orders more

theorem replies_append (apiKey : Str) (orders more : List Order) :
    replies apiKey (orders ++ more) = replies apiKey orders ++
      replies (keyAfter apiKey orders) more :=
  translate_append hostStep hostReply apiKey orders more

theorem calls_append (apiKey : Str) (orders more : List Order) :
    calls apiKey (orders ++ more) = calls apiKey orders ++ calls (keyAfter apiKey orders) more :=
  translate_append hostStep hostCall apiKey orders more

theorem replies_cons (apiKey : Str) (order : Order) (orders : List Order) :
    replies apiKey (order :: orders) =
      hostReply apiKey order ++ replies (hostStep apiKey order) orders := rfl

theorem calls_cons (apiKey : Str) (order : Order) (orders : List Order) :
    calls apiKey (order :: orders) =
      hostCall apiKey order ++ calls (hostStep apiKey order) orders := rfl

theorem prompt_call (apiKey : Str) (order : Order) (made : RemoteCall)
    (h : made ∈ hostCall apiKey order) :
    ∃ number text, order.1 = .request number text ∧ (¬ ∀ c ∈ text, c = 32) ∧
      made.request = ⟨Hex.encode32 (UInt32.ofNat number), 6, codes text,
        decodeUtf8 hnlangAiSystemContract⟩ := by
  obtain ⟨order, call⟩ := order
  cases order with
  | key text => exact absurd h List.not_mem_nil
  | request number text =>
    rw [hostCall] at h
    split_ifs at h with hspaces
    · exact absurd h List.not_mem_nil
    · rw [List.mem_singleton.mp h]
      exact ⟨number, text, rfl, hspaces, rfl⟩

theorem mem_calls (apiKey : Str) (orders : List Order) (made : RemoteCall)
    (h : made ∈ calls apiKey orders) :
    ∃ number text, Sent.request number text ∈ orders.map Prod.fst ∧ (¬ ∀ c ∈ text, c = 32) ∧
      made.request = ⟨Hex.encode32 (UInt32.ofNat number), 6, codes text,
        decodeUtf8 hnlangAiSystemContract⟩ := by
  induction orders generalizing apiKey with
  | nil => exact absurd h List.not_mem_nil
  | cons order orders ih =>
    rw [calls_cons] at h
    rw [List.map_cons]
    rcases List.mem_append.mp h with hnow | hlater
    · obtain ⟨number, text, horder, hrest⟩ := prompt_call apiKey order made hnow
      rw [horder]
      exact ⟨number, text, List.mem_cons_self, hrest⟩
    · obtain ⟨number, text, hmem, hrest⟩ := ih (hostStep apiKey order) hlater
      exact ⟨number, text, List.mem_cons_of_mem _ hmem, hrest⟩

/-- The calls are made in the order of the prompts, at most one for each. -/
theorem calls_ids (apiKey : Str) (orders : List Order) :
    ((calls apiKey orders).map (·.request.requestId)).Sublist
      (((orders.map Prod.fst).filterMap Sent.number).map
        fun number => Hex.encode32 (UInt32.ofNat number)) := by
  induction orders generalizing apiKey with
  | nil => exact List.Sublist.slnil
  | cons order orders ih =>
    obtain ⟨order, call⟩ := order
    have hlater := ih (hostStep apiKey (order, call))
    rw [calls_cons, List.map_append]
    cases order with
    | key text => exact hlater
    | request number text =>
      show ((hostCall apiKey (.request number text, call)).map _ ++ _).Sublist
        (Hex.encode32 (UInt32.ofNat number) :: _)
      rw [hostCall]
      split_ifs with hspaces
      · exact List.Sublist.cons _ hlater
      · exact List.Sublist.cons_cons _ hlater

theorem bytes_line (order : Sent) : order.bytes = orderLine order ++ [10] := by
  cases order with
  | key text => exact keyFrame_eq text
  | request number text => exact requestFrame_eq _ _ _ _

theorem orderLine_free (order : Sent) : 10 ∉ orderLine order := by
  cases order with
  | key text =>
    have hkey := Hex.not_mem_encode text 10 (by decide)
    have hheader : (10 : UInt8) ∉ ascii "HNAI1|KEY|" := by decide
    intro hmem
    exact (List.mem_append.mp hmem).elim hheader hkey
  | request number text => exact newline_not_mem_requestLine _ _ _ _

theorem orderLine_length (order : Sent) (h : Proper order) : (orderLine order).length ≤ 1269 := by
  cases order with
  | key text =>
    obtain ⟨-, hlength, -⟩ := h
    have hheader : (ascii "HNAI1|KEY|").length = 10 := by decide
    rw [orderLine, keyLine, List.length_append, hheader, Hex.encode_length]
    omega
  | request number text =>
    obtain ⟨-, hlength, -⟩ := h
    have hcontract := contract_length
    rw [orderLine, requestLine_length]
    omega

theorem keyLine_front (text : List UInt8) : hasPrefix (keyLine text) (ascii "HNAI1|KEY|") = true :=
  List.isPrefixOf_iff_prefix.mpr (List.prefix_append _ _)

theorem requestLine_front (taskId : UInt32) (taskType : TaskType) (input profile : List UInt8) :
    hasPrefix (requestLine taskId taskType input profile) (ascii "HNAI1|KEY|") = false := by
  rw [Bool.eq_false_iff]
  intro h
  obtain ⟨rest, hrest⟩ := List.isPrefixOf_iff_prefix.mp h
  have hseventh := congrArg (fun xs => xs[6]?) hrest
  have hkey : (ascii "HNAI1|KEY|" ++ rest)[6]? = some 75 := rfl
  have hrequest : (requestLine taskId taskType input profile)[6]? = some 82 := rfl
  simp only [hkey, hrequest] at hseventh
  exact absurd hseventh (by decide)

theorem parseApiKey_typed (text : List UInt8) (h : Proper (.key text)) :
    parseApiKey (keyLine text) = .ok (codes text) := by
  obtain ⟨hlow, hhigh, hrange⟩ := h
  apply parseApiKey_keyLine text hlow (by omega)
  intro c hc
  have hkey := hrange c hc
  simp only [keyCharacter, Bool.and_eq_true, decide_eq_true_eq] at hkey
  exact UInt8.lt_iff_toNat_lt.mpr (by change c.toNat < 128; omega)

theorem prompt_ascii (text : List UInt8) (h : Submittable text) : ∀ c ∈ text, c < 128 :=
  fun c hc => UInt8.lt_of_le_of_lt (h.2.2 c hc).2 (by decide)

theorem passLine_order (call : CallProvider) (s : Server) (order : Sent) (h : Proper order) :
    s.passLine call (orderLine order) =
      { s with
        sessionApiKey := hostStep s.sessionApiKey (order, call)
        sent := s.sent ++ (hostReply s.sessionApiKey (order, call)).flatMap Frame.bytes
        passed := s.passed ++ [orderLine order] } := by
  cases order with
  | key text =>
    rw [orderLine, Server.passLine, if_pos (keyLine_front text), parseApiKey_typed text h]
    simp [hostStep, hostReply]
  | request number text =>
    have hprefix := requestLine_front (UInt32.ofNat number) .hnlang text hnlangAiSystemContract
    rw [orderLine, Server.passLine, hprefix, if_neg Bool.false_ne_true,
      handleFrame_request call s.sessionApiKey _ text h]
    simp [hostStep, hostReply]

theorem lineCalls_order (call : CallProvider) (apiKey : Str) (order : Sent) (h : Proper order) :
    lineCalls call (orderLine order) apiKey = hostCall apiKey (order, call) := by
  cases order with
  | key text => exact if_pos (keyLine_front text)
  | request number text =>
    have hprefix := requestLine_front (UInt32.ofNat number) .hnlang text hnlangAiSystemContract
    have hcontract := contract_length
    have hlength : text.length ≤ 159 := h.2.1
    have htype : ((TaskType.hnlang.code.toNat : ℤ) ∈ [(1 : ℤ), 2, 3, 4, 5, 6, 7]) := by decide
    rw [lineCalls, orderLine, hprefix, if_neg Bool.false_ne_true,
      parseRequest_requestLine _ _ _ _ (by omega) (by omega), hostCall]
    by_cases hspaces : ∀ c ∈ text, c = 32
    · rw [if_pos ((strip_prompt text h.2.2).mpr hspaces), if_pos hspaces]
    · rw [if_neg fun hstrip => hspaces ((strip_prompt text h.2.2).mp hstrip), if_neg hspaces]
      simp only [htype, if_true, decodeUtf8_ascii text (prompt_ascii text h)]
      rfl

/-- What the loop has done when it has taken the orders `now` out of its
buffer. -/
structure Served (call : CallProvider) (s : Server) (now : List Sent) (t : Server)
    (made : List RemoteCall) : Prop where
  pending : s.pending = now.flatMap Sent.bytes ++ t.pending
  free : 10 ∉ t.pending
  key : t.sessionApiKey = keyAfter s.sessionApiKey (now.map (·, call))
  sent : t.sent =
    s.sent ++ (replies s.sessionApiKey (now.map (·, call))).flatMap Frame.bytes
  made : made = calls s.sessionApiKey (now.map (·, call))

theorem served_none (call : CallProvider) (s : Server) (h : 10 ∉ s.pending) :
    Served call s [] s [] :=
  ⟨rfl, h, rfl, (List.append_nil _).symm, rfl⟩

theorem front_order (waiting : List Sent) (line more : List UInt8) (hfree : 10 ∉ line)
    (h : line ++ 10 :: more = waiting.flatMap Sent.bytes) :
    ∃ order later, waiting = order :: later ∧ line = orderLine order ∧
      more = later.flatMap Sent.bytes := by
  cases waiting with
  | nil => exact absurd h (List.append_ne_nil_of_right_ne_nil line (List.cons_ne_nil _ _))
  | cons order later =>
    rw [List.flatMap_cons, bytes_line, List.append_assoc, List.singleton_append] at h
    have hline := first_newline hfree (orderLine_free order) h
    rw [hline] at h
    exact ⟨order, later, rfl, hline, (List.cons.inj (List.append_cancel_left h)).2⟩

theorem drain_orders (call : CallProvider) (passes : ℕ) (s : Server) (waiting : List Sent)
    (rest : List UInt8) (hproper : ∀ order ∈ waiting, Proper order)
    (hpasses : s.pending.length ≤ passes)
    (hstream : s.pending ++ rest = waiting.flatMap Sent.bytes) :
    ∃ now later, waiting = now ++ later ∧
      Served call s now (s.drain call passes) (drainCalls call passes s) ∧
      (s.drain call passes).pending ++ rest = later.flatMap Sent.bytes := by
  induction passes generalizing s waiting with
  | zero =>
    have hnil : s.pending = [] := List.eq_nil_of_length_eq_zero (Nat.le_zero.mp hpasses)
    have hfree : 10 ∉ s.pending := by
      rw [hnil]
      exact List.not_mem_nil
    exact ⟨[], waiting, rfl, served_none call s hfree, hstream⟩
  | succ passes ih =>
    rw [Server.drain, drainCalls]
    cases hline : partitionLine s.pending with
    | none =>
      exact ⟨[], waiting, rfl, served_none call s (partitionLine_none _ hline), hstream⟩
    | some found =>
      obtain ⟨line, remainder⟩ := found
      obtain ⟨hfree, hsplit⟩ := partitionLine_some _ line remainder hline
      rw [hsplit, List.append_assoc, List.cons_append] at hstream
      obtain ⟨order, later, rfl, rfl, hmore⟩ := front_order waiting line _ hfree hstream
      have horder : Proper order := hproper order List.mem_cons_self
      have hshort : remainder.length ≤ passes := by
        rw [hsplit, List.length_append, List.length_cons] at hpasses
        omega
      simp only
      rw [passLine_order call _ order horder, lineCalls_order call _ order horder]
      obtain ⟨now, last, hlater, hserved, hrest⟩ := ih
        { s with
          pending := remainder
          sessionApiKey := hostStep s.sessionApiKey (order, call)
          sent := s.sent ++ (hostReply s.sessionApiKey (order, call)).flatMap Frame.bytes
          passed := s.passed ++ [orderLine order] }
        later (fun other hother => hproper other (List.mem_cons_of_mem order hother)) hshort hmore
      refine ⟨order :: now, last, by rw [hlater, List.cons_append], ?_, hrest⟩
      refine ⟨?_, hserved.free, hserved.key, ?_, ?_⟩
      · rw [hsplit, List.flatMap_cons, bytes_line, List.append_assoc, List.append_assoc,
          List.singleton_append, ← hserved.pending]
      · rw [hserved.sent, List.map_cons, replies_cons, List.flatMap_append, List.append_assoc]
      · rw [hserved.made, List.map_cons, calls_cons]

theorem unfinished_length (waiting : List Sent) (pending rest : List UInt8)
    (hproper : ∀ order ∈ waiting, Proper order) (hfree : 10 ∉ pending)
    (hstream : pending ++ rest = waiting.flatMap Sent.bytes) : pending.length ≤ 1269 := by
  cases waiting with
  | nil =>
    rw [(List.append_eq_nil_iff.mp hstream).1]
    exact Nat.zero_le _
  | cons order later =>
    have hlength := orderLine_length order (hproper order List.mem_cons_self)
    rw [List.flatMap_cons, bytes_line, List.append_assoc, List.singleton_append] at hstream
    by_contra hlong
    -- the newline of the first order would be pending
    have hleading : orderLine order ++ [10] <+: pending := by
      have horder : orderLine order ++ [10] <+: pending ++ rest := by
        rw [hstream]
        exact ⟨later.flatMap Sent.bytes, List.append_assoc _ _ _⟩
      apply List.prefix_of_prefix_length_le horder (List.prefix_append _ _)
      rw [List.length_append, List.length_singleton]
      omega
    exact hfree (hleading.subset (List.mem_append_right _ List.mem_cons_self))

/-- A chunk never fills the buffer, and the orders it completes are served. -/
theorem receive_orders (call : CallProvider) (s : Server) (chunk : Chunk) (waiting : List Sent)
    (rest : List UInt8) (hproper : ∀ order ∈ waiting, Proper order) (hfree : 10 ∉ s.pending)
    (hstream : s.pending ++ chunk.bytes ++ rest = waiting.flatMap Sent.bytes) :
    ∃ now later, waiting = now ++ later ∧
      Served call { s with pending := s.pending ++ chunk.bytes } now (s.receive call chunk)
        (receiveCalls call s chunk) ∧
      (s.receive call chunk).pending ++ rest = later.flatMap Sent.bytes := by
  have hpending := unfinished_length waiting s.pending (chunk.bytes ++ rest) hproper hfree
    (by rw [← List.append_assoc, hstream])
  have hchunk := chunk.fits
  have hroom : ¬ 8192 < (s.pending ++ chunk.bytes).length := by
    rw [List.length_append]
    omega
  rw [Server.receive, receiveCalls, if_neg hroom, if_neg hroom]
  exact drain_orders call _ { s with pending := s.pending ++ chunk.bytes } waiting rest hproper
    (le_refl _) hstream

end Hnmos.HostService
