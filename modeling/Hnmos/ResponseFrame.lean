import Mathlib
import Hnmos.AiBridge
import Hnmos.HostBridge

/-!
# Response frames on the line

The polling loop is a fold over the pending bytes that stops at the first
line answering the task. A response frame of the host fits the line array,
holds no line break and no zero byte, and is accepted exactly by the task
whose identifier it carries, whatever stale bytes the array holds behind it.
-/

set_option autoImplicit false

namespace Hnmos.ResponseFrame
open Hnmos.CString Hnmos.RingBuffer Hnmos.Task Hnmos.SerialTransport Hnmos.HostBridge

structure Frame where
  id : UInt32
  success : Bool
  text : Str
  deriving DecidableEq

/-- The text a guest receives: ASCII replacement, then the cut. -/
def Frame.output (f : Frame) : List UInt8 := (asciiBytes f.text).take 900

def Frame.header (f : Frame) : List UInt8 := ascii "HNAI1|RES|" ++ Hex.encode32 f.id

def Frame.body (f : Frame) : List UInt8 :=
  f.header ++ 124 :: (if f.success then 83 else 69) :: 124 :: Hex.encode f.output

def Frame.bytes (f : Frame) : List UInt8 := f.body ++ [10]

theorem bytes_eq_responseFrame (f : Frame) :
    f.bytes = responseFrame (Hex.encode32 f.id) f.success f.text := by
  simp [Frame.bytes, Frame.body, Frame.header, responseFrame, encodeHex, Frame.output]

def answered (task : AiTask) (f : Frame) : AiTask :=
  { task.setOutput f.output with status := if f.success then .done else .error }

theorem header_length (f : Frame) : f.header.length = 18 := rfl

theorem body_length (f : Frame) : f.body.length ≤ 1821 := by
  have ho : f.output.length ≤ 900 := List.length_take_le _ _
  simp only [Frame.body, List.length_append, header_length, List.length_cons, Hex.encode_length]
  omega

theorem not_mem_body (f : Frame) (c : UInt8) (hp : c ∉ ascii "HNAI1|RES|") (hv : Hex.value c = none)
    (hbar : c ≠ 124) (hs : c ≠ 83) (he : c ≠ 69) : c ∉ f.body := by
  have hid : c ∉ Hex.encode32 f.id := by
    intro h
    have hsome := Hex.value_of_mem_encode32 f.id c h
    simp [hv] at hsome
  have henc := Hex.not_mem_encode f.output c hv
  simp only [Frame.body, Frame.header, List.mem_append, List.mem_cons, not_or]
  refine ⟨⟨hp, hid⟩, hbar, ?_, hbar, henc⟩
  split_ifs
  · exact hs
  · exact he

theorem newline_not_mem_body (f : Frame) : 10 ∉ f.body :=
  not_mem_body f 10 (by decide) (by decide) (by decide) (by decide) (by decide)

theorem return_not_mem_body (f : Frame) : 13 ∉ f.body :=
  not_mem_body f 13 (by decide) (by decide) (by decide) (by decide) (by decide)

theorem output_noNul (f : Frame) (h : 0 ∉ f.text) : 0 ∉ f.output := by
  intro hmem
  obtain ⟨cp, hcp, hzero⟩ := List.mem_map.mp (List.mem_of_mem_take hmem)
  split_ifs at hzero with hascii
  · have hnat := congrArg UInt8.toNat hzero
    rw [UInt8.toNat_ofNat_of_lt' (by change cp < 256; omega), UInt8.toNat_zero] at hnat
    exact h (hnat ▸ hcp)
  · exact absurd hzero (by decide)

theorem answered_output (task : AiTask) (f : Frame) (h : 0 ∉ f.text) :
    (answered task f).output.chars = f.output := by
  have ho : f.output.length ≤ 900 := List.length_take_le _ _
  exact copy_chars_self f.output (output_noNul f h) (by omega)

theorem header_prefix (id : UInt32) (rest : List UInt8) :
    prefixMatches (ascii "HNAI1|RES|" ++ Hex.encode32 id ++ rest) (ascii "HNAI1|RES|") = true := by
  rw [List.append_assoc]
  exact prefixMatches_append _ _

theorem header_parse (id : UInt32) (rest : List UInt8) :
    parseU32 ((ascii "HNAI1|RES|" ++ Hex.encode32 id ++ rest).drop 10) = some id := by
  have hdrop : (ascii "HNAI1|RES|" ++ Hex.encode32 id ++ rest).drop 10 =
      Hex.encode32 id ++ rest := by
    rw [List.append_assoc]
    exact List.drop_left' rfl
  rw [hdrop, parseU32, List.take_left' (Hex.encode32_length id), Hex.decode32_encode32]

theorem parse_other_id (id : UInt32) (rest : List UInt8) (task : AiTask) (h : id ≠ task.taskId) :
    parseResponse (ascii "HNAI1|RES|" ++ Hex.encode32 id ++ rest) task = none := by
  rw [parseResponse, header_prefix, if_pos rfl, header_parse]
  exact if_neg fun hall => h hall.2.2

/-- A whole frame in the line array is accepted by its own task only. The
stale bytes behind the terminator are never read. -/
theorem parse_body (f : Frame) (stale : List UInt8) (task : AiTask) :
    parseResponse (f.body ++ 0 :: stale) task =
      if f.id = task.taskId then some (answered task f) else none := by
  have hlength := header_length f
  have hcells : f.body ++ 0 :: stale = f.header ++ (124 :: (if f.success then 83 else 69) ::
      124 :: (Hex.encode f.output ++ 0 :: stale)) := by
    simp [Frame.body]
  have h18 : (f.body ++ 0 :: stale).getD 18 0 = 124 := by
    rw [hcells, List.getD_append_right _ _ _ _ (by omega), hlength]
    rfl
  have h19 : (f.body ++ 0 :: stale).getD 19 0 = if f.success then 83 else 69 := by
    rw [hcells, List.getD_append_right _ _ _ _ (by omega), hlength]
    rfl
  have h20 : (f.body ++ 0 :: stale).getD 20 0 = 124 := by
    rw [hcells, List.getD_append_right _ _ _ _ (by omega), hlength]
    rfl
  have h21 : cstr ((f.body ++ 0 :: stale).drop 21) = Hex.encode f.output := by
    have hsplit : f.body ++ 0 :: stale = (f.header ++ [124, if f.success then 83 else 69, 124]) ++
        (Hex.encode f.output ++ 0 :: stale) := by
      simp [Frame.body]
    rw [hsplit, List.drop_left' (by simp [hlength]), cstr_of_noNul]
    exact Hex.not_mem_encode f.output 0 (by decide)
  have hdecode : decodeText 1024 (Hex.encode f.output) [] = some f.output := by
    have ho : f.output.length ≤ 900 := List.length_take_le _ _
    rw [decodeText_eq _ _ _ (by simp), Hex.decode_encode, Option.map_some, List.nil_append,
      List.take_of_length_le (by omega)]
  rw [parseResponse, h18, h19, h20, h21, hdecode, hcells, Frame.header, header_prefix, if_pos rfl,
    header_parse]
  by_cases hid : f.id = task.taskId
  · simp only [hid, and_self, if_true, answered]
    cases f.success <;> simp
  · simp [hid]

/-- The polling loop as a function of the pending bytes: the answered task if
a line completed it, the line buffer and the bytes left in the buffer. -/
def consume (task : AiTask) : LineBuffer → List UInt8 → Option AiTask × LineBuffer × List UInt8
  | l, [] => (none, l, [])
  | l, c :: pending =>
    match pollChar l task c with
    | (l, some t) => (some t, l, pending)
    | (l, none) => consume task l pending

theorem pollLoop_consume (fuel : ℕ) (t : Transport) (task : AiTask) (h : t.rx.pending ≤ fuel) :
    ∃ rx : Ring UInt8 4096, rx.contents = (consume task t.line t.rx.contents).2.2 ∧
      rx.dropped = t.rx.dropped ∧
      pollLoop fuel t task =
        ((consume task t.line t.rx.contents).1.isSome,
          { t with rx := rx, line := (consume task t.line t.rx.contents).2.1 },
          (consume task t.line t.rx.contents).1.getD task) := by
  induction fuel generalizing t with
  | zero =>
    have hempty : t.rx.contents = [] := by
      rw [← List.length_eq_zero_iff, contents_length]
      omega
    rw [hempty]
    exact ⟨t.rx, hempty, rfl, rfl⟩
  | succ fuel ih =>
    rw [pollLoop]
    cases hpop : t.rx.pop with
    | none =>
      have hempty := (pop_none_iff t.rx).mp hpop
      rw [hempty]
      exact ⟨t.rx, hempty, rfl, rfl⟩
    | some popped =>
      obtain ⟨c, rx⟩ := popped
      have hcontents := pop_contents t.rx rx c hpop
      have hpending := pop_pending t.rx rx c hpop
      have hdropped := pop_dropped t.rx rx c hpop
      rw [hcontents]
      cases hchar : pollChar t.line task c with
      | mk line result =>
        cases result with
        | some answer => exact ⟨rx, by simp [consume, hchar], hdropped, by simp [consume, hchar]⟩
        | none =>
          have hrest := ih { t with rx := rx, line := line } (by simp only; omega)
          simpa only [consume, hchar, hdropped] using hrest

theorem bytes_split (f : Frame) (a c : List UInt8) (hc : c ≠ []) (h : f.bytes = a ++ c) :
    ∃ missing, c = missing ++ [10] ∧ f.body = a ++ missing := by
  rcases List.eq_nil_or_concat' c with rfl | ⟨missing, x, rfl⟩
  · exact absurd rfl hc
  · rw [Frame.bytes, ← List.append_assoc] at h
    obtain ⟨hbody, hx⟩ := List.append_inj' h rfl
    exact ⟨missing, by rw [List.singleton_inj.mp hx], hbody⟩

theorem first_newline {xs ys zs ws : List UInt8} (hx : 10 ∉ xs) (hz : 10 ∉ zs)
    (h : xs ++ 10 :: ys = zs ++ 10 :: ws) : xs = zs := by
  rcases List.append_eq_append_iff.mp h with ⟨a, hzs, ha⟩ | ⟨a, hxs, ha⟩
  · cases a with
    | nil => rw [hzs, List.append_nil]
    | cons x a =>
      obtain ⟨rfl, _⟩ := List.cons.inj ha
      exact absurd (hzs ▸ by simp) hz
  · cases a with
    | nil => rw [hxs, List.append_nil]
    | cons x a =>
      obtain ⟨rfl, _⟩ := List.cons.inj ha
      exact absurd (hxs ▸ by simp) hx

theorem line_in_stream (fs : List Frame) (P text Q : List UInt8) (hn : 10 ∉ text)
    (h : fs.flatMap Frame.bytes = P ++ (text ++ 10 :: Q)) :
    ∃ before f behind front, fs = before ++ f :: behind ∧
      P = before.flatMap Frame.bytes ++ front ∧ f.body = front ++ text := by
  induction fs generalizing P with
  | nil => simp at h
  | cons f fs ih =>
    have hlater : ∀ a, P = f.bytes ++ a → fs.flatMap Frame.bytes = a ++ (text ++ 10 :: Q) →
        ∃ before g behind front, f :: fs = before ++ g :: behind ∧
          P = before.flatMap Frame.bytes ++ front ∧ g.body = front ++ text := by
      intro a hP ha
      obtain ⟨before, g, behind, front, hfs, hpre, hbody⟩ := ih a ha
      exact ⟨f :: before, g, behind, front, by rw [hfs, List.cons_append],
        by rw [hP, hpre, List.flatMap_cons, List.append_assoc], hbody⟩
    rw [List.flatMap_cons] at h
    rcases List.append_eq_append_iff.mp h with ⟨a, hP, ha⟩ | ⟨c, hc, hx⟩
    · exact hlater a hP ha
    · by_cases hnil : c = []
      · exact hlater [] (by rw [hc, hnil, List.append_nil, List.append_nil])
          (by rw [hx, hnil]; rfl)
      · obtain ⟨last, rfl, hbody⟩ := bytes_split f P c hnil hc
        have hlast : 10 ∉ last := fun hmem =>
          newline_not_mem_body f (hbody ▸ List.mem_append_right _ hmem)
        rw [List.append_assoc, List.singleton_append] at hx
        rw [← first_newline hn hlast hx] at hbody
        exact ⟨[], f, fs, P, rfl, rfl, hbody⟩

theorem body_head (f : Frame) : ∃ tail, f.body = 72 :: tail ∧ 72 ∉ tail := by
  refine ⟨ascii "NAI1|RES|" ++ Hex.encode32 f.id ++
    124 :: (if f.success then 83 else 69) :: 124 :: Hex.encode f.output, rfl, ?_⟩
  have hid : (72 : UInt8) ∉ Hex.encode32 f.id := fun h =>
    absurd (Hex.value_of_mem_encode32 f.id 72 h) (by decide)
  have hencode := Hex.not_mem_encode f.output 72 (by decide)
  simp only [List.mem_append, List.mem_cons, not_or]
  refine ⟨⟨by decide, hid⟩, by decide, ?_, by decide, hencode⟩
  split_ifs <;> decide

theorem accepted_header (line : List UInt8) (task t : AiTask)
    (h : parseResponse line task = some t) : prefixMatches line (ascii "HNAI1|RES|") = true := by
  by_contra hno
  rw [parseResponse, if_neg hno] at h
  exact absurd h (Option.some_ne_none t).symm

/-- The end of a body is accepted as a line only when it is all of it. -/
theorem accepted_whole (f : Frame) (front text stale : List UInt8) (task t : AiTask)
    (hbody : f.body = front ++ text) (h : parseResponse (text ++ 0 :: stale) task = some t) :
    front = [] := by
  obtain ⟨rest, hrest⟩ := (prefixMatches_iff _ _).mp (accepted_header _ task t h)
  have hrest' : text ++ 0 :: stale = 72 :: (ascii "NAI1|RES|" ++ rest) := hrest
  obtain ⟨tail, htail, hnot⟩ := body_head f
  cases text with
  | nil => exact absurd (List.cons.inj hrest').1 (by decide)
  | cons c text =>
    obtain rfl := (List.cons.inj hrest').1
    cases front with
    | nil => rfl
    | cons d front =>
      rw [hbody, List.cons_append] at htail
      exact absurd ((List.cons.inj htail).2 ▸ by simp) hnot

def lineStep (l : LineBuffer) (c : UInt8) : LineBuffer :=
  if c = 13 then l else if c = 10 then l.terminate else l.put c

theorem pollChar_line (l : LineBuffer) (task : AiTask) (c : UInt8) :
    (pollChar l task c).1 = lineStep l c := by
  rw [pollChar, lineStep]
  split_ifs <;> rfl

theorem fold_newline (l : LineBuffer) (bytes : List UInt8) (h : bytes.getLast? = some 10) :
    (bytes.foldl lineStep l).text = [] := by
  obtain ⟨front, rfl⟩ := List.getLast?_eq_some_iff.mp h
  rw [List.foldl_append]
  exact terminate_text _

theorem fold_text (l : LineBuffer) (bytes : List UInt8) (hn : 10 ∉ bytes) (hr : 13 ∉ bytes)
    (hl : l.text.length + bytes.length < 2304) :
    (bytes.foldl lineStep l).text = l.text ++ bytes := by
  induction bytes generalizing l with
  | nil => simp
  | cons c bytes ih =>
    rw [List.mem_cons, not_or] at hn hr
    have hlen := text_length l
    simp only [List.length_cons] at hl
    have hput := put_text l c (by omega)
    have hstep : lineStep l c = l.put c := by
      rw [lineStep, if_neg fun e => hr.1 e.symm, if_neg fun e => hn.1 e.symm]
    rw [List.foldl_cons, hstep, ih _ hn.2 hr.2 (by rw [hput]; simp; omega), hput]
    simp

/-- The loop stops at the newline whose line answers the task, or runs dry. -/
theorem consume_used (task : AiTask) (l : LineBuffer) (cs : List UInt8) :
    (consume task l cs = (none, cs.foldl lineStep l, [])) ∨
    ∃ front rest t, cs = front ++ 10 :: rest ∧
      consume task l cs = (some t, (front.foldl lineStep l).terminate, rest) ∧
      parseResponse (front.foldl lineStep l).terminate.cells task = some t := by
  induction cs generalizing l with
  | nil => exact Or.inl rfl
  | cons c cs ih =>
    have hline := pollChar_line l task c
    cases hchar : pollChar l task c with
    | mk m result =>
      rw [hchar] at hline
      cases result with
      | none =>
        simp only [consume, hchar, List.foldl_cons, ← hline]
        rcases ih m with hdry | ⟨front, rest, t, hcs, hc, hparse⟩
        · exact Or.inl hdry
        · exact Or.inr ⟨c :: front, rest, t, by rw [hcs, List.cons_append],
            by rw [hc, List.foldl_cons, ← hline], by rw [List.foldl_cons, ← hline, hparse]⟩
      | some t =>
        rw [pollChar] at hchar
        split_ifs at hchar with hreturn hnewline
        · simp at hchar
        · obtain ⟨rfl, hparse⟩ := Prod.mk.inj hchar
          exact Or.inr ⟨[], cs, t, by rw [hnewline]; rfl,
            by rw [consume, pollChar, if_neg hreturn, if_pos hnewline, hparse]; rfl, hparse⟩
        · simp at hchar

theorem consume_append (task : AiTask) (l : LineBuffer) (xs ys : List UInt8)
    (h : (consume task l xs).1 = none) :
    consume task l (xs ++ ys) = consume task (xs.foldl lineStep l) ys := by
  induction xs generalizing l with
  | nil => rfl
  | cons c xs ih =>
    have hline := pollChar_line l task c
    cases hchar : pollChar l task c with
    | mk m result =>
      rw [hchar] at hline
      simp only [consume, hchar, List.cons_append, List.foldl_cons, ← hline] at h ⊢
      cases result with
      | none => exact ih m h
      | some t => simp at h

theorem consume_append_some (task : AiTask) (l : LineBuffer) (xs ys : List UInt8)
    (h : (consume task l xs).1 ≠ none) : (consume task l (xs ++ ys)).1 ≠ none := by
  induction xs generalizing l with
  | nil => exact absurd rfl h
  | cons c xs ih =>
    cases hchar : pollChar l task c with
    | mk m result =>
      simp only [consume, hchar, List.cons_append] at h ⊢
      cases result with
      | none => exact ih m h
      | some t => simp

theorem consume_frame (task : AiTask) (l : LineBuffer) (f : Frame) (missing rest : List UInt8)
    (hbody : f.body = l.text ++ missing) :
    consume task l (missing ++ 10 :: rest) =
      if f.id = task.taskId then
        (some (answered task f), (missing.foldl lineStep l).terminate, rest)
      else consume task (missing.foldl lineStep l).terminate rest := by
  have hlength := body_length f
  have hnewline := newline_not_mem_body f
  have hreturn := return_not_mem_body f
  rw [hbody] at hlength hnewline hreturn
  simp only [List.mem_append, not_or, List.length_append] at hlength hnewline hreturn
  have htext := fold_text l missing hnewline.2 hreturn.2 (by omega)
  have hdry : (consume task l missing).1 = none := by
    rcases consume_used task l missing with hc | ⟨front, tail, t, hm, _, _⟩
    · rw [hc]
    · exact absurd (hm ▸ by simp : (10 : UInt8) ∈ missing) hnewline.2
  have hparse : parseResponse (missing.foldl lineStep l).terminate.cells task =
      if f.id = task.taskId then some (answered task f) else none := by
    rw [terminate_cells, htext, ← hbody]
    exact parse_body f _ task
  have hchar : pollChar (missing.foldl lineStep l) task 10 =
      ((missing.foldl lineStep l).terminate,
        parseResponse (missing.foldl lineStep l).terminate.cells task) := by
    rw [pollChar, if_neg (by decide), if_pos rfl]
  rw [consume_append task l missing _ hdry, consume, hchar, hparse]
  split_ifs <;> rfl

end Hnmos.ResponseFrame
