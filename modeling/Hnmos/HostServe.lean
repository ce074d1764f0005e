import Mathlib
import Hnmos.HostBridge
import Hnmos.LineSplitting
import Hnmos.Transition
import Hnmos.Workspace

/-!
# The host's receiving loop

The host collects the bytes of the guest in a pending buffer, takes complete
lines out of it and passes each to one of two parsers. The size check comes
first and looks at the whole buffer: complete lines included, so that a legal
line can be dropped with what arrives in the same chunk.
-/

set_option autoImplicit false

namespace Hnmos.HostServe
open Hnmos.CString Hnmos.HostBridge Hnmos.LineSplitting Hnmos.Transition Hnmos.Workspace

/-- What one call of `recv` returns while the connection is open. -/
structure Chunk where
  bytes : List UInt8
  nonempty : bytes ≠ []
  fits : bytes.length ≤ 1024

/-- The loop's variables, what it has sent, and the lines it has passed to a
parser. -/
structure Server where
  pending : List UInt8
  sessionApiKey : Str
  sent : List UInt8
  passed : List (List UInt8)

def Server.start (apiKey : Str) : Server := ⟨[], apiKey, [], []⟩

def partitionLine : List UInt8 → Option (List UInt8 × List UInt8)
  | [] => none
  | c :: rest =>
    if c = 10 then some ([], rest)
    else (partitionLine rest).map fun (line, remainder) => (c :: line, remainder)

def Server.passLine (call : CallProvider) (s : Server) (line : List UInt8) : Server :=
  if hasPrefix line (ascii "HNAI1|KEY|") then
    match parseApiKey line with
    | .ok apiKey => { s with sessionApiKey := apiKey, passed := s.passed ++ [line] }
    | .error e =>
      { s with
        sent := s.sent ++ responseFrame (ascii "00000000") false e
        passed := s.passed ++ [line] }
  else
    { s with
      sent := s.sent ++ handleFrame call line s.sessionApiKey
      passed := s.passed ++ [line] }

def Server.drain (call : CallProvider) : ℕ → Server → Server
  | 0, s => s
  | passes + 1, s =>
    match partitionLine s.pending with
    | none => s
    | some (line, remainder) =>
      Server.drain call passes ({ s with pending := remainder }.passLine call line)

def Server.receive (call : CallProvider) (s : Server) (chunk : Chunk) : Server :=
  let pending := s.pending ++ chunk.bytes
  if 8192 < pending.length then
    { s with
      pending := []
      sent := s.sent ++ responseFrame (ascii "00000000") false (str "frame too large") }
  else { s with pending := pending }.drain call pending.length

def stream (chunks : List Chunk) : List UInt8 := (chunks.map Chunk.bytes).flatten

theorem partitionLine_none (pending : List UInt8) (h : partitionLine pending = none) :
    10 ∉ pending := by
  induction pending with
  | nil => exact List.not_mem_nil
  | cons c rest ih =>
    rw [partitionLine] at h
    by_cases hc : c = 10
    · rw [if_pos hc] at h
      exact absurd h (Option.some_ne_none _)
    · rw [if_neg hc, Option.map_eq_none_iff] at h
      rw [List.mem_cons, not_or]
      exact ⟨Ne.symm hc, ih h⟩

theorem partitionLine_some (pending line remainder : List UInt8)
    (h : partitionLine pending = some (line, remainder)) :
    10 ∉ line ∧ pending = line ++ 10 :: remainder := by
  induction pending generalizing line with
  | nil => exact absurd h.symm (Option.some_ne_none _)
  | cons c rest ih =>
    rw [partitionLine] at h
    by_cases hc : c = 10
    · rw [if_pos hc] at h
      obtain ⟨rfl, rfl⟩ := Prod.mk.inj (Option.some.inj h)
      exact ⟨List.not_mem_nil, by rw [hc, List.nil_append]⟩
    · rw [if_neg hc] at h
      obtain ⟨found, hfound, hsame⟩ := Option.map_eq_some_iff.mp h
      obtain ⟨rfl, hrest⟩ := Prod.mk.inj hsame
      obtain ⟨hfree, hsplit⟩ := ih found.1 (hrest ▸ hfound)
      rw [List.mem_cons, not_or]
      exact ⟨⟨Ne.symm hc, hfree⟩, by rw [hsplit, List.cons_append]⟩

theorem passLine_frame (call : CallProvider) (s : Server) (line : List UInt8) :
    (s.passLine call line).pending = s.pending ∧
      (s.passLine call line).passed = s.passed ++ [line] := by
  rw [Server.passLine]
  by_cases hkey : hasPrefix line (ascii "HNAI1|KEY|") = true
  · rw [if_pos hkey]
    cases parseApiKey line <;> exact ⟨rfl, rfl⟩
  · rw [if_neg hkey]
    exact ⟨rfl, rfl⟩

theorem drain_eq (call : CallProvider) (passes : ℕ) (s : Server)
    (h : s.pending.length ≤ passes) :
    (s.drain call passes).pending = unfinished 10 s.pending ∧
      (s.drain call passes).passed = s.passed ++ lines 10 s.pending := by
  induction passes generalizing s with
  | zero =>
    have hnil : s.pending = [] := List.eq_nil_of_length_eq_zero (Nat.le_zero.mp h)
    obtain ⟨hlines, hrest⟩ := lines_of_not_mem (10 : UInt8) [] List.not_mem_nil
    rw [Server.drain, hnil, hlines, hrest, List.append_nil]
    exact ⟨rfl, rfl⟩
  | succ passes ih =>
    rw [Server.drain]
    cases hline : partitionLine s.pending with
    | none =>
      obtain ⟨hlines, hrest⟩ := lines_of_not_mem 10 s.pending (partitionLine_none _ hline)
      rw [hlines, hrest, List.append_nil]
      exact ⟨rfl, rfl⟩
    | some found =>
      obtain ⟨line, remainder⟩ := found
      obtain ⟨hfree, hsplit⟩ := partitionLine_some _ line remainder hline
      obtain ⟨hpending, hpassed⟩ := passLine_frame call { s with pending := remainder } line
      obtain ⟨hlines, hrest⟩ := lines_line 10 line remainder hfree
      have hshort : remainder.length ≤ passes := by
        rw [hsplit, List.length_append, List.length_cons] at h
        omega
      obtain ⟨hleft, hall⟩ := ih ({ s with pending := remainder }.passLine call line)
        (by rw [hpending]; exact hshort)
      rw [hpending] at hleft hall
      simp only
      rw [hleft, hall, hpassed, hsplit, hlines, hrest, List.append_assoc]
      exact ⟨rfl, rfl⟩

theorem receive_passed (call : CallProvider) (s : Server) (chunks : List Chunk) :
    (run (Server.receive call) s chunks).passed =
      s.passed ++ received 10 8192 s.pending (chunks.map Chunk.bytes) := by
  induction chunks generalizing s with
  | nil => exact (List.append_nil _).symm
  | cons chunk chunks ih =>
    rw [run_cons, ih, List.map_cons, received, Server.receive]
    by_cases hover : 8192 < (s.pending ++ chunk.bytes).length
    · simp only [if_pos hover]
    · obtain ⟨hpending, hpassed⟩ := drain_eq call (s.pending ++ chunk.bytes).length
        { s with pending := s.pending ++ chunk.bytes } (Nat.le_refl _)
      simp only [if_neg hover]
      rw [hpending, hpassed, List.append_assoc]

theorem passed_lines_iff (call : CallProvider) (apiKey : Str) (chunks : List Chunk) :
    (run (Server.receive call) (Server.start apiKey) chunks).passed = lines 10 (stream chunks) ↔
      Roomy 10 8192 [] (chunks.map Chunk.bytes) := by
  have hnonempty : ∀ bytes ∈ chunks.map Chunk.bytes, bytes ≠ [] := by
    intro bytes hbytes
    obtain ⟨chunk, _, rfl⟩ := List.mem_map.mp hbytes
    exact chunk.nonempty
  rw [receive_passed, ← received_eq_iff 10 8192 [] _ List.not_mem_nil hnonempty]
  rfl

/-- The lines passed to the parsers are those of the stream exactly when every
chunk that has a newline in it or after it fits into the buffer together with
the unfinished line in front of it. -/
theorem serve_lines_iff (call : CallProvider) (apiKey : Str) (chunks : List Chunk) :
    (run (Server.receive call) (Server.start apiKey) chunks).passed =
        ((stream chunks).splitOn 10).dropLast ↔
      ∀ front chunk back, chunks = front ++ chunk :: back → 10 ∈ stream (chunk :: back) →
        (unfinished 10 (stream front)).length + chunk.bytes.length ≤ 8192 := by
  have hiff := passed_lines_iff call apiKey chunks
  rw [lines] at hiff
  rw [hiff]
  constructor
  · rintro h front chunk back rfl hmem
    exact h (front.map Chunk.bytes) chunk.bytes (back.map Chunk.bytes)
      (by rw [List.map_append, List.map_cons]) hmem
  · intro h front bytes back hsplit hmem
    obtain ⟨first, rest, rfl, rfl, hrest⟩ := List.map_eq_append_iff.mp hsplit
    obtain ⟨chunk, later, rfl, rfl, rfl⟩ := List.map_eq_cons_iff.mp hrest
    exact h first chunk later rfl hmem

theorem letters_nonempty (n : ℕ) (h : 0 < n) : List.replicate n (65 : UInt8) ≠ [] := by
  intro hnil
  have hlength := congrArg List.length hnil
  rw [List.length_replicate, List.length_nil] at hlength
  omega

theorem letters_fits (n : ℕ) (h : n ≤ 1024) : (List.replicate n (65 : UInt8)).length ≤ 1024 := by
  rwa [List.length_replicate]

def letters (n : ℕ) (hpos : 0 < n) (hle : n ≤ 1024) : Chunk :=
  ⟨List.replicate n 65, letters_nonempty n hpos, letters_fits n hle⟩

theorem full_pos : 0 < 1024 := by decide

theorem rest_pos : 0 < 1023 := by decide

theorem rest_le : 1023 ≤ 1024 := by decide

theorem lineEnd_fits : [(10 : UInt8), 66].length ≤ 1024 := by decide

/-- A line of 8191 letters; its newline comes with the first letter of the next. -/
def longLine : List Chunk :=
  List.replicate 7 (letters 1024 full_pos le_rfl) ++ [letters 1023 rest_pos rest_le]

def lineEnd : Chunk := ⟨[10, 66], List.cons_ne_nil _ _, lineEnd_fits⟩

theorem longLine_stream : stream longLine = List.replicate 8191 65 := by
  rw [stream, longLine, List.map_append, List.map_replicate, List.flatten_append, letters, letters,
    List.flatten_replicate_replicate, List.map_singleton, List.flatten_singleton,
    List.replicate_append_replicate]

def offlineProvider : CallProvider := fun _ _ _ => .error (str "offline")

theorem legal_line_lost :
    (∀ line ∈ lines 10 (stream (longLine ++ [lineEnd])), line.length < 8192) ∧
      (run (Server.receive offlineProvider) (Server.start []) (longLine ++ [lineEnd])).passed ≠
        ((stream (longLine ++ [lineEnd])).splitOn 10).dropLast := by
  have hletters : (10 : UInt8) ∉ List.replicate 8191 (65 : UInt8) := by
    intro hmem
    exact absurd (List.eq_of_mem_replicate hmem) (by decide)
  constructor
  · have hstream : stream (longLine ++ [lineEnd]) = List.replicate 8191 65 ++ 10 :: [66] := by
      rw [← longLine_stream, stream, List.map_append, List.flatten_append]
      rfl
    have hlast : (10 : UInt8) ∉ [(66 : UInt8)] := by decide
    intro line hline
    rw [hstream, (lines_line 10 _ _ hletters).1, (lines_of_not_mem 10 _ hlast).1,
      List.mem_singleton] at hline
    rw [hline, List.length_replicate]
    decide
  · intro hpassed
    have hroomy := (passed_lines_iff offlineProvider [] _).mp hpassed
    have hroom := hroomy (longLine.map Chunk.bytes) lineEnd.bytes [] (List.map_append ..)
      List.mem_cons_self
    rw [List.nil_append] at hroom
    have hfront : (longLine.map Chunk.bytes).flatten = List.replicate 8191 65 := longLine_stream
    rw [hfront, (lines_of_not_mem 10 _ hletters).2, List.length_replicate] at hroom
    exact absurd hroom (by decide)

end Hnmos.HostServe
