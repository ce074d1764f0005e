import Mathlib
import Hnmos.ResponseFrame

/-!
# What the response parser accepts

The parser looks at fixed positions of the terminated line array. For a line
that reaches position 20 these positions lie in the line, and the parser
accepts the response grammar. A line that ends right behind the bar after the
identifier is judged by what an earlier line left behind its terminator.
-/

set_option autoImplicit false

namespace Hnmos.ResponseGrammar
open Hnmos.CString Hnmos.Task Hnmos.SerialTransport Hnmos.ResponseFrame

/-- A line of the response grammar: the digits of the identifier, a status
character and pairs of digits for the payload. -/
def Response (line : List UInt8) (taskId : UInt32) (status : UInt8) (payload : List UInt8) :
    Prop :=
  ∃ id encoded, line = ascii "HNAI1|RES|" ++ id ++ 124 :: status :: 124 :: encoded ∧
    id.length = 8 ∧ Hex.decode32 id = some taskId ∧ Hex.decode encoded = some payload

/-- The task with the answer a response carries: the payload up to its first
zero byte, cut to what the task can hold. -/
def completed (task : AiTask) (status : UInt8) (payload : List UInt8) : AiTask :=
  { task with
    output := CText.copy (some payload)
    status := if status = 83 then .done else .error }

def Meets (l : LineBuffer) (task : AiTask) : Prop :=
  ∀ t, parseResponse l.terminate.cells task = some t ↔
    ∃ status payload, Response l.text task.taskId status payload ∧ t = completed task status payload

/-- A line that stops behind the bar after the task's identifier, with the rest
of a response left behind its terminator. -/
def Truncated (l : LineBuffer) (task : AiTask) : Prop :=
  (∃ id, l.text = ascii "HNAI1|RES|" ++ id ++ [124] ∧ id.length = 8 ∧
      Hex.decode32 id = some task.taskId) ∧
    l.cells.getD 20 0 = 124 ∧ (Hex.decode (cstr (l.cells.drop 21))).isSome = true

theorem cstr_take (n : ℕ) (bytes : List UInt8) : cstr (bytes.take n) = (cstr bytes).take n := by
  induction bytes generalizing n with
  | nil => simp [cstr]
  | cons c bytes ih =>
    cases n with
    | zero => simp [cstr]
    | succ n =>
      by_cases hc : c = 0
      · simp [cstr, hc]
      · simpa [cstr, hc] using ih n

theorem setOutput_take (task : AiTask) (payload : List UInt8) :
    task.setOutput (payload.take 1023) = task.setOutput payload := by
  have hcopy :
      (CText.copy (some (payload.take 1023)) : CText 1024) = CText.copy (some payload) := by
    apply CText.ext
    show copyLoop 1023 (payload.take 1023) = copyLoop 1023 payload
    rw [copyLoop_eq, copyLoop_eq, cstr_take, List.take_take, Nat.min_self]
  show { task with output := CText.copy (some (payload.take 1023)) } =
    { task with output := CText.copy (some payload) }
  rw [hcopy]

theorem parse_fields (id rest : List UInt8) (task : AiTask) (hid : id.length = 8) :
    parseResponse (ascii "HNAI1|RES|" ++ id ++ rest) task =
      if Hex.decode32 id = some task.taskId ∧ rest.getD 0 0 = 124 ∧ rest.getD 2 0 = 124 then
        (Hex.decode (cstr (rest.drop 3))).map (completed task (rest.getD 1 0))
      else none := by
  have hlength : (ascii "HNAI1|RES|" ++ id).length = 18 := by
    rw [List.length_append, hid]
    rfl
  have hmatches : prefixMatches (ascii "HNAI1|RES|" ++ id ++ rest) (ascii "HNAI1|RES|") = true := by
    rw [List.append_assoc]
    exact prefixMatches_append _ _
  have hparse : parseU32 ((ascii "HNAI1|RES|" ++ id ++ rest).drop 10) = Hex.decode32 id := by
    have hdrop : (ascii "HNAI1|RES|" ++ id ++ rest).drop 10 = id ++ rest := by
      rw [List.append_assoc]
      exact List.drop_left' rfl
    rw [hdrop, parseU32, List.take_left' hid]
  have hat : ∀ i, (ascii "HNAI1|RES|" ++ id ++ rest).getD (18 + i) 0 = rest.getD i 0 := by
    intro i
    rw [List.getD_append_right _ _ _ _ (by omega), hlength, Nat.add_sub_cancel_left]
  have htail : (ascii "HNAI1|RES|" ++ id ++ rest).drop 21 = rest.drop 3 := by
    have hdrop : ((ascii "HNAI1|RES|" ++ id ++ rest).drop 18).drop 3 = rest.drop 3 := by
      rw [List.drop_left' hlength]
    rw [List.drop_drop] at hdrop
    exact hdrop
  have hdecode : ∀ encoded, decodeText 1024 encoded [] =
      (Hex.decode encoded).map fun payload => payload.take 1023 := by
    intro encoded
    rw [decodeText_eq 1024 encoded [] (by decide)]
    rfl
  rw [parseResponse, hmatches, if_pos rfl, hparse, hat 0, hat 1, hat 2, htail, hdecode]
  generalize cstr (rest.drop 3) = encoded
  generalize rest.getD 1 0 = status
  cases Hex.decode32 id with
  | none => simp
  | some taskId =>
    by_cases hmatch : rest.getD 0 0 = 124 ∧ rest.getD 2 0 = 124 ∧ taskId = task.taskId
    · have hall : some taskId = some task.taskId ∧ rest.getD 0 0 = 124 ∧ rest.getD 2 0 = 124 :=
        ⟨congrArg some hmatch.2.2, hmatch.1, hmatch.2.1⟩
      rw [if_pos hall]
      simp only [if_pos hmatch]
      cases Hex.decode encoded with
      | none => rfl
      | some payload =>
        simp only [Option.map_some, setOutput_take]
        rfl
    · have hnot : ¬ (some taskId = some task.taskId ∧ rest.getD 0 0 = 124 ∧
          rest.getD 2 0 = 124) := fun h => hmatch ⟨h.2.1, h.2.2, Option.some.inj h.1⟩
      rw [if_neg hnot]
      simp only [if_neg hmatch]

theorem start_in_text (text stale p rest : List UInt8) (hp : 0 ∉ p)
    (h : text ++ 0 :: stale = p ++ rest) :
    ∃ tail, text = p ++ tail ∧ rest = tail ++ 0 :: stale := by
  rcases List.append_eq_append_iff.mp h with ⟨a, ha, hstale⟩ | ⟨tail, htext, hrest⟩
  · cases a with
    | nil => exact ⟨[], by rw [ha, List.append_nil, List.append_nil], hstale.symm⟩
    | cons c a =>
      obtain ⟨rfl, _⟩ := List.cons.inj hstale
      exact absurd (ha ▸ by simp) hp
  · exact ⟨tail, htext, hrest⟩

theorem decode32_digits (text : List UInt8) (v : UInt32) (h : Hex.decode32 text = some v) :
    0 ∉ text := by
  have hfold : ∀ (cs : List UInt8) (start : Option UInt32),
      cs.foldl (fun acc c => acc.bind fun r => (Hex.value c).map fun d =>
        r <<< 4 ||| d.toUInt32) start ≠ none → start ≠ none ∧ 0 ∉ cs := by
    intro cs
    induction cs with
    | nil => exact fun start hs => ⟨hs, List.not_mem_nil⟩
    | cons c cs ih =>
      intro start hs
      obtain ⟨hnext, hmem⟩ := ih _ hs
      cases start with
      | none => exact absurd rfl hnext
      | some r =>
        refine ⟨nofun, ?_⟩
        rw [List.mem_cons, not_or]
        refine ⟨?_, hmem⟩
        rintro rfl
        exact hnext rfl
  exact (hfold text (some 0) (by rw [Hex.decode32] at h; rw [h]; exact nofun)).2

theorem accepted_shape (text stale : List UInt8) (task t : AiTask)
    (h : parseResponse (text ++ 0 :: stale) task = some t) :
    ∃ id tail, text = ascii "HNAI1|RES|" ++ id ++ 124 :: tail ∧ id.length = 8 ∧
      Hex.decode32 id = some task.taskId := by
  have hmatches := accepted_header _ task t h
  obtain ⟨rest, hrest⟩ := (prefixMatches_iff _ _).mp hmatches
  obtain ⟨after, htext, hafter⟩ := start_in_text text stale _ rest (by decide) hrest
  have hdrop : (text ++ 0 :: stale).drop 10 = rest := by
    rw [hrest]
    exact List.drop_left' rfl
  have hparsed : ∃ v, Hex.decode32 (rest.take 8) = some v := by
    cases hid : Hex.decode32 (rest.take 8) with
    | some v => exact ⟨v, rfl⟩
    | none =>
      rw [parseResponse, if_pos hmatches, hdrop, parseU32, hid] at h
      exact absurd h (Option.some_ne_none t).symm
  obtain ⟨v, hv⟩ := hparsed
  have hsplit : after ++ 0 :: stale = rest.take 8 ++ rest.drop 8 := by
    rw [List.take_append_drop, hafter]
  obtain ⟨tail, hafter', htail⟩ := start_in_text after stale _ _ (decode32_digits _ v hv) hsplit
  have hlength : (rest.take 8).length = 8 := by
    by_contra hshort
    rw [List.length_take] at hshort
    have hall : rest.take 8 = rest := List.take_of_length_le (by omega)
    have hzero : 0 ∉ rest := hall ▸ decode32_digits _ v hv
    exact hzero (hafter ▸ by simp)
  have hcells : text ++ 0 :: stale = ascii "HNAI1|RES|" ++ rest.take 8 ++ (tail ++ 0 :: stale) := by
    rw [htext, hafter']
    simp only [List.append_assoc]
  rw [hcells, parse_fields _ _ task hlength] at h
  split_ifs at h with hmatch
  cases tail with
  | nil =>
    have hzero : (0 : UInt8) = 124 := hmatch.2.1
    exact absurd hzero (by decide)
  | cons c tail =>
    have hc : c = 124 := hmatch.2.1
    refine ⟨rest.take 8, tail, ?_, hlength, hmatch.1⟩
    rw [htext, hafter', hc, List.append_assoc]

theorem parse_cases (id tail stale : List UInt8) (task : AiTask) (hid : id.length = 8)
    (hv : Hex.decode32 id = some task.taskId) (hz : 0 ∉ tail) :
    parseResponse (ascii "HNAI1|RES|" ++ id ++ 124 :: (tail ++ 0 :: stale)) task =
      match tail with
      | [] =>
        if stale.getD 0 0 = 124 then
          (Hex.decode (cstr (stale.drop 1))).map (completed task 0)
        else none
      | [_] => none
      | status :: bar :: encoded =>
        if bar = 124 then (Hex.decode encoded).map (completed task status) else none := by
  rw [parse_fields id _ task hid]
  match tail with
  | [] => simp [hv]
  | [status] => simp
  | status :: bar :: encoded =>
    have hencoded : 0 ∉ encoded := fun h => hz (by simp [h])
    simp [hv, cstr_of_noNul encoded stale hencoded]

theorem terminate_shape (l : LineBuffer) (id tail : List UInt8)
    (h : l.text = ascii "HNAI1|RES|" ++ id ++ 124 :: tail) :
    l.terminate.cells =
      ascii "HNAI1|RES|" ++ id ++ 124 :: (tail ++ 0 :: l.cells.drop (l.length + 1)) := by
  rw [terminate_cells, h, List.append_assoc, List.cons_append]

theorem response_length (line : List UInt8) (taskId : UInt32) (status : UInt8)
    (payload : List UInt8) (h : Response line taskId status payload) : 21 ≤ line.length := by
  obtain ⟨id, encoded, rfl, hid, _, _⟩ := h
  have hheader : (ascii "HNAI1|RES|").length = 10 := rfl
  simp only [List.length_append, List.length_cons, hheader, hid]
  omega

theorem truncated_length (l : LineBuffer) (id : List UInt8) (hid : id.length = 8)
    (h : l.text = ascii "HNAI1|RES|" ++ id ++ [124]) : l.length = 19 := by
  have hheader : (ascii "HNAI1|RES|").length = 10 := rfl
  rw [← text_length, h]
  simp only [List.length_append, List.length_singleton, hheader, hid]

/-- The bytes behind the terminator of a truncated line are those the parser
reads at positions 20 and 21. -/
theorem truncated_stale (l : LineBuffer) (hl : l.length = 19) :
    (l.cells.drop (l.length + 1)).getD 0 0 = l.cells.getD 20 0 ∧
      (l.cells.drop (l.length + 1)).drop 1 = l.cells.drop 21 := by
  rw [hl, List.drop_drop]
  refine ⟨?_, rfl⟩
  simp only [List.getD_eq_getElem?_getD, List.getElem?_drop]

theorem truncated_parse (l : LineBuffer) (task : AiTask) (h : Truncated l task) :
    ∃ payload, parseResponse l.terminate.cells task = some (completed task 0 payload) := by
  obtain ⟨⟨id, htext, hid, hv⟩, hbar, hdecode⟩ := h
  obtain ⟨payload, hpayload⟩ := Option.isSome_iff_exists.mp hdecode
  obtain ⟨hat, hdrop⟩ := truncated_stale l (truncated_length l id hid htext)
  refine ⟨payload, ?_⟩
  rw [terminate_shape l id [] htext, parse_cases id [] _ task hid hv List.not_mem_nil]
  simp only [hat, hbar, hdrop, if_true, hpayload, Option.map_some]

/-- For every line without zero bytes in the buffer, whatever earlier lines
left in the array: the parser accepts exactly the grammar, unless the line is
the truncated one. -/
theorem grammar_iff (l : LineBuffer) (task : AiTask) (h : 0 ∉ l.text) :
    Meets l task ↔ ¬ Truncated l task := by
  constructor
  · intro hmeets htruncated
    obtain ⟨payload, hparse⟩ := truncated_parse l task htruncated
    obtain ⟨status, payload', hresponse, _⟩ := (hmeets _).mp hparse
    obtain ⟨⟨id, htext, hid, _⟩, _⟩ := htruncated
    have hlength := response_length _ _ _ _ hresponse
    rw [text_length, truncated_length l id hid htext] at hlength
    omega
  · intro hwhole t
    constructor
    · intro hparse
      obtain ⟨id, tail, htext, hid, hv⟩ :=
        accepted_shape l.text _ task t (by rwa [← terminate_cells])
      have hz : 0 ∉ tail := fun hmem => h (htext ▸ by simp [hmem])
      have hcases := parse_cases id tail (l.cells.drop (l.length + 1)) task hid hv hz
      rw [← terminate_shape l id tail htext, hparse] at hcases
      rcases tail with _ | ⟨status, _ | ⟨bar, encoded⟩⟩
      · obtain ⟨hat, hdrop⟩ := truncated_stale l (truncated_length l id hid htext)
        simp only [hat, hdrop] at hcases
        split_ifs at hcases with hbar
        obtain ⟨payload, hpayload, _⟩ := Option.map_eq_some_iff.mp hcases.symm
        exact absurd ⟨⟨id, htext, hid, hv⟩, hbar, by rw [hpayload]; rfl⟩ hwhole
      · exact absurd hcases nofun
      · simp only at hcases
        split_ifs at hcases with hbar
        obtain ⟨payload, hpayload, ht⟩ := Option.map_eq_some_iff.mp hcases.symm
        exact ⟨status, payload, ⟨id, encoded, by rw [htext, hbar], hid, hv, hpayload⟩, ht.symm⟩
    · intro hgrammar
      obtain ⟨status, payload, ⟨id, encoded, htext, hid, hv, hpayload⟩, ht⟩ := hgrammar
      have hz : 0 ∉ status :: 124 :: encoded := fun hmem => h (htext ▸ by simp [hmem])
      rw [terminate_shape l id _ htext, parse_cases id _ _ task hid hv hz]
      simp only [if_true, hpayload, Option.map_some, ht]

def earlierFrame : List UInt8 := ascii "HNAI1|RES|00000001|S|4F4B\n"

def secondTask : AiTask := { AiTask.init with taskId := 2, status := .running }

def shorterBuffer : LineBuffer :=
  (earlierFrame ++ ascii "HNAI1|RES|00000002|E|4E").foldl lineStep Transport.init.line

theorem grammar_iff_shorter :
    shorterBuffer.cells.getD 24 0 = 66 ∧
      parseResponse shorterBuffer.terminate.cells secondTask =
        some (completed secondTask 69 (ascii "N")) := by
  have htext : shorterBuffer.text = ascii "HNAI1|RES|00000002|E|4E" := by decide +kernel
  have hnul : 0 ∉ shorterBuffer.text := by
    rw [htext]
    decide
  have hwhole : ¬ Truncated shorterBuffer secondTask := by
    rintro ⟨⟨id, hid, hlength, -⟩, -⟩
    have htruncated := truncated_length shorterBuffer id hlength hid
    rw [← text_length, htext] at htruncated
    exact absurd htruncated (by decide)
  have hmeets := (grammar_iff shorterBuffer secondTask hnul).mpr hwhole
  have hresponse : Response shorterBuffer.text secondTask.taskId 69 (ascii "N") :=
    ⟨ascii "00000002", ascii "4E", htext, by decide, by decide, by decide⟩
  exact ⟨by decide +kernel, (hmeets _).mpr ⟨69, ascii "N", hresponse, rfl⟩⟩

def truncatedLine : List UInt8 := ascii "HNAI1|RES|00000002|"

def freshBuffer : LineBuffer := truncatedLine.foldl lineStep Transport.init.line

def staleBuffer : LineBuffer :=
  (earlierFrame ++ truncatedLine).foldl lineStep Transport.init.line

/-- The answer to task 1 completes task 2 when its own answer is cut off. -/
theorem truncated_accepted :
    freshBuffer.text = truncatedLine ∧ staleBuffer.text = truncatedLine ∧
      (parseResponse freshBuffer.terminate.cells secondTask).isSome = false ∧
      (parseResponse staleBuffer.terminate.cells secondTask).map
        (fun t => (t.status, t.output.chars)) = some (.error, ascii "OK") ∧
      ¬ Meets staleBuffer secondTask := by
  have hfresh : freshBuffer.text = truncatedLine := by decide
  have hstale : staleBuffer.text = truncatedLine := by decide +kernel
  have haccepted : (parseResponse staleBuffer.terminate.cells secondTask).map
      (fun t => (t.status, t.output.chars)) = some (.error, ascii "OK") := by decide +kernel
  refine ⟨hfresh, hstale, by decide, haccepted, ?_⟩
  intro hmeets
  obtain ⟨t, hparse, _⟩ := Option.map_eq_some_iff.mp haccepted
  obtain ⟨status, payload, hresponse, _⟩ := (hmeets t).mp hparse
  have hlength := response_length _ _ _ _ hresponse
  rw [hstale] at hlength
  exact absurd hlength (by decide)

end Hnmos.ResponseGrammar
