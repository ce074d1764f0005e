import Mathlib
import Hnmos.RingBuffer
import Hnmos.SerialPort
import Hnmos.AiTask

/-!
# The framed serial transport

Received bytes wait in a circular buffer until a poll assembles them into
lines. The line array is static: a terminator is written after the assembled
bytes, and whatever an earlier longer line left behind it stays readable to
the fixed offsets of the response parser. Requests and credentials leave as
one newline-terminated frame each.
-/

set_option autoImplicit false

namespace Hnmos.SerialTransport
open Hnmos.CString Hnmos.RingBuffer Hnmos.SerialPort Hnmos.Task

structure LineBuffer where
  cells : List UInt8
  length : ℕ
  size : cells.length = 2304
  fits : length < 2304

instance rxCells : NeZero 4096 := ⟨by decide⟩

structure Transport where
  rx : Ring UInt8 4096
  line : LineBuffer
  ready : Bool

/-- Store one byte of a line. A line that would leave no room for its
terminator is abandoned. -/
def LineBuffer.put (l : LineBuffer) (c : UInt8) : LineBuffer :=
  if h : l.length + 1 < 2304 then
    ⟨l.cells.set l.length c, l.length + 1, by simp [l.size], h⟩
  else ⟨l.cells, 0, l.size, by decide⟩

def LineBuffer.terminate (l : LineBuffer) : LineBuffer :=
  ⟨l.cells.set l.length 0, 0, by simp [l.size], by decide⟩

def LineBuffer.text (l : LineBuffer) : List UInt8 := l.cells.take l.length

def prefixMatches : List UInt8 → List UInt8 → Bool
  | _, [] => true
  | [], _ :: _ => false
  | c :: line, p :: expected => c == p && prefixMatches line expected

def parseU32 (text : List UInt8) : Option UInt32 := Hex.decode32 (text.take 8)

/-- Decode pairs of digits, keeping at most `capacity - 1` bytes but checking
every pair. -/
def decodeText (capacity : ℕ) : List UInt8 → List UInt8 → Option (List UInt8)
  | [], decoded => some decoded
  | [_], _ => none
  | a :: b :: encoded, decoded =>
    match Hex.value a, Hex.value b with
    | some high, some low =>
      decodeText capacity encoded
        (if decoded.length + 1 < capacity then decoded ++ [high <<< 4 ||| low] else decoded)
    | _, _ => none

def parseResponse (line : List UInt8) (task : AiTask) : Option AiTask :=
  if prefixMatches line (ascii "HNAI1|RES|") then
    match parseU32 (line.drop 10) with
    | none => none
    | some taskId =>
      if line.getD 18 0 = 124 ∧ line.getD 20 0 = 124 ∧ taskId = task.taskId then
        match decodeText 1024 (cstr (line.drop 21)) [] with
        | none => none
        | some decoded =>
          some { task.setOutput decoded with
            status := if line.getD 19 0 = 83 then .done else .error }
      else none
  else none

def Transport.captureRx (t : Transport) (arrived : List UInt8) : Transport :=
  { t with rx := t.rx.pushAll arrived }

/-- One pass of the polling loop over a popped byte: the line buffer after it
and the task when the byte completed its answer. -/
def pollChar (l : LineBuffer) (task : AiTask) (c : UInt8) : LineBuffer × Option AiTask :=
  if c = 13 then (l, none)
  else if c = 10 then (l.terminate, parseResponse l.terminate.cells task)
  else (l.put c, none)

/-- The polling loop. Every pass removes a pending byte, so a pass for each
cell of the buffer is enough. -/
def pollLoop : ℕ → Transport → AiTask → Bool × Transport × AiTask
  | 0, t, task => (false, t, task)
  | fuel + 1, t, task =>
    match t.rx.pop with
    | none => (false, t, task)
    | some (c, rx) =>
      match pollChar t.line task c with
      | (line, some answered) => (true, { t with rx := rx, line := line }, answered)
      | (line, none) => pollLoop fuel { t with rx := rx, line := line } task

def Transport.poll (t : Transport) (arrived : List UInt8) (task : AiTask) :
    Bool × Transport × AiTask :=
  if t.ready then pollLoop 4096 (t.captureRx arrived) task else (false, t, task)

def Transport.init : Transport where
  rx := Ring.cleared fun _ => 0
  line := ⟨List.replicate 2304 0, 0, List.length_replicate, by decide⟩
  ready := true

def Transport.send (t : Transport) (task : AiTask) (u : Uart) : Bool × Uart :=
  if t.ready = false ∨ task.input.chars = [] then (false, u)
  else
    let u := u.writeText (ascii "HNAI1|REQ|")
    let u := u.writeHexU32 task.taskId
    let u := u.writeChar 124
    let u := u.writeHexByte task.taskType.code
    let u := u.writeChar 124
    let u := u.writeHexText (some task.input.chars)
    let u := u.writeChar 124
    let u := u.writeHexText task.languageProfile
    (true, u.writeChar 10)

def Transport.sendApiKey (t : Transport) (apiKey : List UInt8) (u : Uart) : Bool × Uart :=
  if t.ready = false ∨ apiKey = [] then (false, u)
  else
    let u := u.writeText (ascii "HNAI1|KEY|")
    let u := u.writeHexText (some apiKey)
    (true, u.writeChar 10)

def requestFrame (taskId : UInt32) (taskType : TaskType) (input profile : List UInt8) :
    List UInt8 :=
  ascii "HNAI1|REQ|" ++ Hex.encode32 taskId ++ 124 :: Hex.encodeByte taskType.code ++
    124 :: Hex.encode input ++ 124 :: Hex.encode profile ++ [10]

def keyFrame (apiKey : List UInt8) : List UInt8 :=
  ascii "HNAI1|KEY|" ++ Hex.encode apiKey ++ [10]

theorem send_eq (t : Transport) (task : AiTask) (u : Uart) (hr : t.ready = true)
    (hi : task.input.chars ≠ []) :
    t.send task u = (true, u.writeText (requestFrame task.taskId task.taskType
      task.input.chars (task.languageProfile.getD []))) := by
  simp only [Transport.send, hr, hi, Bool.true_eq_false, or_false, if_false, writeHexU32_eq,
    writeChar_eq, writeHexByte_eq, writeHexText_eq, ← writeText_append, requestFrame,
    List.append_assoc, List.cons_append, Option.getD_some, List.nil_append]

theorem sendApiKey_eq (t : Transport) (apiKey : List UInt8) (u : Uart) (hr : t.ready = true)
    (hk : apiKey ≠ []) : t.sendApiKey apiKey u = (true, u.writeText (keyFrame apiKey)) := by
  simp only [Transport.sendApiKey, hr, hk, Bool.true_eq_false, or_false, if_false, writeChar_eq,
    writeHexText_eq, ← writeText_append, keyFrame, List.append_assoc, Option.getD_some]

theorem decodeText_eq (capacity : ℕ) (encoded decoded : List UInt8)
    (h : decoded.length < capacity) :
    decodeText capacity encoded decoded =
      (Hex.decode encoded).map fun bs => (decoded ++ bs).take (capacity - 1) := by
  induction encoded, decoded using decodeText.induct capacity with
  | case1 decoded =>
    rw [decodeText, Hex.decode, Option.map_some, List.append_nil,
      List.take_of_length_le (by omega)]
  | case2 decoded c => rw [decodeText, Hex.decode, Option.map_none]
  | case3 a b encoded decoded high low hhigh hlow ih =>
    simp only [decodeText, Hex.decode, hhigh, hlow]
    by_cases hroom : decoded.length + 1 < capacity
    · rw [if_pos hroom] at ih ⊢
      rw [ih (by simpa using hroom)]
      cases Hex.decode encoded <;> simp
    · rw [if_neg hroom] at ih ⊢
      rw [ih h]
      cases Hex.decode encoded with
      | none => rfl
      | some bs =>
        have hfull : capacity - 1 = decoded.length := by omega
        simp [hfull]
  | case4 a b encoded decoded hbad =>
    simp only [decodeText, Hex.decode]
    cases hhigh : Hex.value a with
    | none => rfl
    | some high =>
      cases hlow : Hex.value b with
      | none => rfl
      | some low => exact absurd hlow (hbad high low hhigh)

theorem prefixMatches_append (expected rest : List UInt8) :
    prefixMatches (expected ++ rest) expected = true := by
  induction expected with
  | nil => cases rest <;> rfl
  | cons p expected ih => simpa [prefixMatches] using ih

theorem prefixMatches_iff (line expected : List UInt8) :
    prefixMatches line expected = true ↔ ∃ rest, line = expected ++ rest := by
  constructor
  · intro h
    induction expected generalizing line with
    | nil => exact ⟨line, rfl⟩
    | cons p expected ih =>
      cases line with
      | nil => simp [prefixMatches] at h
      | cons c line =>
        simp only [prefixMatches, Bool.and_eq_true, beq_iff_eq] at h
        obtain ⟨rest, hrest⟩ := ih line h.2
        exact ⟨rest, by rw [h.1, hrest, List.cons_append]⟩
  · rintro ⟨rest, rfl⟩
    exact prefixMatches_append expected rest

theorem parseResponse_some (line : List UInt8) (task t : AiTask)
    (h : parseResponse line task = some t) :
    ∃ decoded, t = { task.setOutput decoded with
      status := if line.getD 19 0 = 83 then .done else .error } := by
  rw [parseResponse] at h
  by_cases hmatches : prefixMatches line (ascii "HNAI1|RES|") = true
  · rw [if_pos hmatches] at h
    cases hid : parseU32 (line.drop 10) with
    | none => simp [hid] at h
    | some taskId =>
      simp only [hid] at h
      by_cases hmatch : line.getD 18 0 = 124 ∧ line.getD 20 0 = 124 ∧ taskId = task.taskId
      · rw [if_pos hmatch] at h
        cases hdecode : decodeText 1024 (cstr (line.drop 21)) [] with
        | none => simp [hdecode] at h
        | some decoded =>
          simp only [hdecode, Option.some.injEq] at h
          exact ⟨decoded, h.symm⟩
      · rw [if_neg hmatch] at h
        exact absurd h nofun
  · rw [if_neg hmatches] at h
    exact absurd h nofun

theorem parseResponse_status (line : List UInt8) (task t : AiTask)
    (h : parseResponse line task = some t) : t.status ≠ .running ∧ t.status ≠ .empty := by
  obtain ⟨decoded, rfl⟩ := parseResponse_some line task t h
  simp only
  split_ifs <;> simp

theorem put_text (l : LineBuffer) (c : UInt8) (h : l.length + 1 < 2304) :
    (l.put c).text = l.text ++ [c] := by
  have hs := l.size
  simp only [LineBuffer.put, h, dif_pos, LineBuffer.text]
  rw [List.set_eq_take_append_cons_drop, if_pos (by omega), List.take_append,
    List.length_take, Nat.min_eq_left (by omega), Nat.add_sub_cancel_left]
  simp [List.take_take]

theorem text_length (l : LineBuffer) : l.text.length = l.length := by
  have hs := l.size
  have hf := l.fits
  rw [LineBuffer.text, List.length_take]
  omega

/-- A terminated line is its text, the terminator and stale bytes. -/
theorem terminate_cells (l : LineBuffer) :
    l.terminate.cells = l.text ++ 0 :: l.cells.drop (l.length + 1) := by
  have hs := l.size
  have hf := l.fits
  have hset : l.cells.set l.length 0 = if l.length < l.cells.length then
      l.cells.take l.length ++ 0 :: l.cells.drop (l.length + 1) else l.cells :=
    List.set_eq_take_append_cons_drop
  rw [if_pos (by omega)] at hset
  exact hset

@[simp] theorem terminate_text (l : LineBuffer) : l.terminate.text = [] := rfl

end Hnmos.SerialTransport
