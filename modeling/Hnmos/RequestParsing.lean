import Mathlib
import Hnmos.HostBridge
import Hnmos.SerialTransport

/-!
# Requests as the host reads them

The host cuts the stream at newlines and parses each line. Every line the
guest sends for a task parses back into the identifier, the type, the prompt
and the profile it was built from; the only refusal left is the check for a
prompt of white space.
-/

set_option autoImplicit false

namespace Hnmos.HostBridge
open Hnmos.CString Hnmos.Task Hnmos.SerialTransport

/-- A request frame without its newline. -/
def requestLine (taskId : UInt32) (taskType : TaskType) (input profile : List UInt8) :
    List UInt8 :=
  ascii "HNAI1|REQ|" ++ Hex.encode32 taskId ++ 124 :: Hex.encodeByte taskType.code ++
    124 :: Hex.encode input ++ 124 :: Hex.encode profile

theorem requestFrame_eq (taskId : UInt32) (taskType : TaskType) (input profile : List UInt8) :
    requestFrame taskId taskType input profile =
      requestLine taskId taskType input profile ++ [10] := rfl

def codes (bs : List UInt8) : Str := bs.map UInt8.toNat

theorem codes_append (as bs : List UInt8) : codes (as ++ bs) = codes as ++ codes bs :=
  List.map_append

theorem codes_bar (bs : List UInt8) : codes (124 :: bs) = 124 :: codes bs := rfl

theorem not_mem_codes (bs : List UInt8) (c : UInt8) (h : c ∉ bs) : c.toNat ∉ codes bs := by
  intro hmem
  obtain ⟨d, hd, he⟩ := List.mem_map.mp hmem
  exact h (UInt8.toNat_inj.mp he ▸ hd)

theorem digit_range (c : UInt8) (h : (Hex.value c).isSome = true) :
    48 ≤ c.toNat ∧ c.toNat ≤ 102 ∧ c.toNat ≠ 88 ∧ c.toNat ≠ 95 := by
  revert c
  apply Hex.forall_byte
  decide +kernel

theorem hexDigit_code (c v : UInt8) (h : Hex.value c = some v) :
    hexDigit c.toNat = some v.toNat := by
  have hc := digit_range c (by rw [h, Option.isSome_some])
  rw [hexDigit, if_pos (by omega), UInt8.ofNat_toNat, h, Option.map_some]

theorem isAsciiSpace_digit (cp : ℕ) (hlo : 48 ≤ cp) (hhi : cp ≤ 102) :
    isAsciiSpace cp = false := by
  simp only [isAsciiSpace, Bool.or_eq_false_iff, Bool.and_eq_false_iff, beq_eq_false_iff_ne,
    decide_eq_false_iff_not]
  omega

theorem byte_of_nibbles (b : UInt8) :
    UInt8.ofNat (16 * (b >>> 4).toNat + (b &&& 0x0F).toNat) = b := by
  revert b
  apply Hex.forall_byte
  decide +kernel

theorem fromHex_encode (bs : List UInt8) : fromHex (codes (Hex.encode bs)) = some bs := by
  induction bs with
  | nil => rfl
  | cons b bs ih =>
    have hhigh := digit_range _ (by rw [Hex.value_high b, Option.isSome_some])
    have hspace := isAsciiSpace_digit _ hhigh.1 hhigh.2.1
    have hcodes : codes (Hex.encode (b :: bs)) = (Hex.digit (b >>> 4)).toNat ::
        (Hex.digit (b &&& 0x0F)).toNat :: codes (Hex.encode bs) := rfl
    rw [hcodes, fromHex, hspace, hexDigit_code _ _ (Hex.value_high b),
      hexDigit_code _ _ (Hex.value_low b), ih]
    simp only [Bool.false_eq_true, if_false, byte_of_nibbles]

theorem decodeHex_encode (bs : List UInt8) (limit : ℕ) (h : bs.length ≤ limit) :
    decodeHex (codes (Hex.encode bs)) limit = .ok (decodeUtf8 bs) := by
  have heven : (codes (Hex.encode bs)).length % 2 = 0 := by
    rw [codes, List.length_map, Hex.encode_length, Nat.mul_mod_right]
  rw [decodeHex, heven, if_neg (by decide), fromHex_encode]
  exact if_neg (by omega)

theorem decodeLoop_ascii (bs : List UInt8) (h : ∀ c ∈ bs, c < 128) (passes : ℕ)
    (hp : bs.length ≤ passes) : decodeLoop passes bs = codes bs := by
  induction bs generalizing passes with
  | nil => cases passes <;> rfl
  | cons c bs ih =>
    cases passes with
    | zero => simp at hp
    | succ passes =>
      have hone : decodeOne c bs = (c.toNat, bs) := if_pos (h c List.mem_cons_self)
      rw [decodeLoop, hone]
      simp only
      rw [ih (fun d hd => h d (List.mem_cons_of_mem _ hd)) passes (by simpa using hp)]
      rfl

theorem decodeUtf8_ascii (bs : List UInt8) (h : ∀ c ∈ bs, c < 128) : decodeUtf8 bs = codes bs :=
  decodeLoop_ascii bs h _ le_rfl

theorem strip_eq_nil (text : Str) : strip text = [] ↔ ∀ cp ∈ text, isSpace cp = true := by
  rw [strip, trim, List.reverse_eq_nil_iff, List.dropWhile_eq_nil_iff]
  simp only [List.mem_reverse]
  constructor
  · intro h cp hcp
    rw [← List.takeWhile_append_dropWhile (p := isSpace) (l := text)] at hcp
    rcases List.mem_append.mp hcp with htake | hdrop
    · exact List.mem_takeWhile_imp htake
    · exact h cp hdrop
  · intro h cp hcp
    exact h cp ((List.dropWhile_sublist _).mem hcp)

theorem trim_self (kind : ℕ → Bool) (text : Str) (h : ∀ cp ∈ text, kind cp = false) :
    trim kind text = text := by
  have hdrop : ∀ t : Str, (∀ cp ∈ t, kind cp = false) → t.dropWhile kind = t := by
    intro t ht
    cases t with
    | nil => rfl
    | cons cp t => rw [List.dropWhile_cons, ht cp List.mem_cons_self]; simp
  rw [trim, hdrop text h, hdrop _ (by simpa using h), List.reverse_reverse]

theorem intDigits_codes (cs : List UInt8) (h : ∀ c ∈ cs, (Hex.value c).isSome = true) (acc : ℕ) :
    intDigits (codes cs) acc =
      some (cs.foldl (fun n c => 16 * n + ((Hex.value c).getD 0).toNat) acc) := by
  induction cs generalizing acc with
  | nil => rfl
  | cons c cs ih =>
    obtain ⟨v, hv⟩ := Option.isSome_iff_exists.mp (h c List.mem_cons_self)
    have hdigit := hexDigit_code c v hv
    have ih' := ih (fun d hd => h d (List.mem_cons_of_mem _ hd)) (16 * acc + v.toNat)
    cases cs with
    | nil => simp [codes, intDigits, hdigit, hv]
    | cons d cs =>
      have hd := digit_range d (h d (by simp))
      simp only [codes, List.map_cons, intDigits, hdigit, if_neg hd.2.2.2, List.foldl_cons, hv,
        Option.getD_some] at ih' ⊢
      exact ih'

theorem intMagnitude_plain (text : Str) (hne : text ≠ [])
    (h : ∀ cp ∈ text, cp ≠ 88 ∧ cp ≠ 120) : intMagnitude text = intDigits text 0 := by
  have hskip : skipPrefix text = text := by
    unfold skipPrefix
    split
    · rename_i x rest
      have hx := h x (by simp)
      exact if_neg (by omega)
    · rfl
  rw [intMagnitude, hskip, if_neg hne]

theorem int16_codes (cs : List UInt8) (h : ∀ c ∈ cs, (Hex.value c).isSome = true) (hne : cs ≠ []) :
    int16 (codes cs) =
      some ((cs.foldl (fun n c => 16 * n + ((Hex.value c).getD 0).toNat) 0 : ℕ) : ℤ) := by
  have hrange : ∀ cp ∈ codes cs, 48 ≤ cp ∧ cp ≤ 102 ∧ cp ≠ 88 ∧ cp ≠ 95 ∧ cp ≠ 120 := by
    intro cp hcp
    obtain ⟨c, hc, rfl⟩ := List.mem_map.mp hcp
    have hdigit := digit_range c (h c hc)
    omega
  have htrim : trim isAsciiSpace (codes cs) = codes cs :=
    trim_self _ _ fun cp hcp => isAsciiSpace_digit cp (hrange cp hcp).1 (hrange cp hcp).2.1
  have hmagnitude := intMagnitude_plain (codes cs) (by simpa [codes] using hne)
    fun cp hcp => ⟨(hrange cp hcp).2.2.1, (hrange cp hcp).2.2.2.2⟩
  have hdigits := intDigits_codes cs h 0
  rw [int16, htrim]
  split
  · rename_i rest heq
    have hsign := hrange 45 (heq ▸ by simp)
    omega
  · rename_i rest heq
    have hsign := hrange 43 (heq ▸ by simp)
    omega
  · rw [hmagnitude, hdigits, Option.map_some]

theorem encode32_nibbles (v : UInt32) :
    (Hex.encode32 v).map (fun c => ((Hex.value c).getD 0).toNat) =
      [28, 24, 20, 16, 12, 8, 4, 0].map fun shift => v.toNat / 2 ^ shift % 16 := by
  have hn : ∀ s : UInt32, s.toNat < 32 →
      ((v >>> s) &&& 0x0F).toUInt8.toNat = v.toNat / 2 ^ s.toNat % 16 := fun s hs =>
    Hex.nibble_toNat v s hs
  simp only [Hex.encode32, List.map_cons, List.map_nil, Hex.value_nibble, Option.getD_some,
    hn 28 (by decide), hn 24 (by decide), hn 20 (by decide), hn 16 (by decide),
    hn 12 (by decide), hn 8 (by decide), hn 4 (by decide), hn 0 (by decide),
    UInt32.reduceToNat]

/-- A word read digit by digit, from the top. -/
theorem nibbles_value (n : ℕ) (h : n < 2 ^ 32) :
    ([28, 24, 20, 16, 12, 8, 4, 0].map fun shift => n / 2 ^ shift % 16).foldl
      (fun acc digit => 16 * acc + digit) 0 = n := by
  have htop : 16 * 0 + n / 2 ^ 28 % 16 = n / 2 ^ 28 := by omega
  -- one more digit read
  have hnext : ∀ k, 16 * (n / 2 ^ (k + 4)) + n / 2 ^ k % 16 = n / 2 ^ k := by
    intro k
    rw [pow_add, ← Nat.div_div_eq_div_mul]
    omega
  simp only [List.map_cons, List.map_nil, List.foldl_cons, List.foldl_nil]
  rw [htop, hnext 24, hnext 20, hnext 16, hnext 12, hnext 8, hnext 4, hnext 0, pow_zero,
    Nat.div_one]

theorem int16_encode32 (v : UInt32) : int16 (codes (Hex.encode32 v)) = some (v.toNat : ℤ) := by
  have hne : Hex.encode32 v ≠ [] := by simp [Hex.encode32]
  have hvalue : (Hex.encode32 v).foldl (fun n c => 16 * n + ((Hex.value c).getD 0).toNat) 0 =
      v.toNat := by
    rw [← nibbles_value v.toNat v.toNat_lt, ← encode32_nibbles, List.foldl_map]
  rw [int16_codes _ (Hex.value_of_mem_encode32 v) hne, hvalue]

theorem hexWidth_le (n : ℕ) (h : n < 16 ^ 8) : hexWidth n ≤ 8 := by
  rw [hexWidth]
  split_ifs with hz
  · decide
  · have hlog : Nat.log 16 n < 8 := Nat.log_lt_of_lt_pow hz h
    omega

theorem format08X_toNat (v : UInt32) : format08X (v.toNat : ℤ) = Hex.encode32 v := by
  have hv := v.toNat_lt
  have hwidth := hexWidth_le v.toNat (by omega)
  have hnibble : ∀ s : UInt32, s.toNat < 32 →
      ((v >>> s) &&& 0x0F).toUInt8 = UInt8.ofNat (v.toNat / 2 ^ s.toNat % 16) := by
    intro s hs
    apply UInt8.toNat_inj.mp
    have hn : ((v >>> s) &&& 0x0F).toUInt8.toNat = v.toNat / 2 ^ s.toNat % 16 :=
      Hex.nibble_toNat v s hs
    rw [hn, UInt8.toNat_ofNat_of_lt' (by change _ < 256; omega)]
  rw [format08X, if_neg (by omega), Int.natAbs_natCast, max_eq_left hwidth]
  simp only [hexDigits, Hex.encode32, List.map_cons, List.map_nil, List.nil_append,
    List.cons_append, hnibble 28 (by decide), hnibble 24 (by decide), hnibble 20 (by decide),
    hnibble 16 (by decide), hnibble 12 (by decide), hnibble 8 (by decide), hnibble 4 (by decide),
    hnibble 0 (by decide), UInt32.reduceToNat, Nat.div_div_eq_div_mul, Nat.reducePow,
    Nat.reduceMul, Nat.div_one]

theorem codes_header : codes (ascii "HNAI1|REQ|") = str "HNAI1" ++ 124 :: (str "REQ" ++ [124]) := by
  decide

theorem splitBar_requestLine (taskId : UInt32) (taskType : TaskType) (input profile : List UInt8) :
    splitBar (codes (requestLine taskId taskType input profile)) =
      [str "HNAI1", str "REQ", codes (Hex.encode32 taskId), codes (Hex.encodeByte taskType.code),
        codes (Hex.encode input), codes (Hex.encode profile)] := by
  have hid : (124 : ℕ) ∉ codes (Hex.encode32 taskId) := by
    refine not_mem_codes _ 124 fun hmem => ?_
    exact absurd (Hex.value_of_mem_encode32 taskId 124 hmem) (by decide)
  have htype : (124 : ℕ) ∉ codes (Hex.encodeByte taskType.code) := by
    cases taskType <;> decide
  have hinput : (124 : ℕ) ∉ codes (Hex.encode input) :=
    not_mem_codes _ 124 (Hex.not_mem_encode input 124 (by decide))
  have hprofile : (124 : ℕ) ∉ codes (Hex.encode profile) :=
    not_mem_codes _ 124 (Hex.not_mem_encode profile 124 (by decide))
  have hline : codes (requestLine taskId taskType input profile) =
      str "HNAI1" ++ 124 :: (str "REQ" ++ 124 :: (codes (Hex.encode32 taskId) ++
        124 :: (codes (Hex.encodeByte taskType.code) ++ 124 :: (codes (Hex.encode input) ++
          124 :: codes (Hex.encode profile))))) := by
    simp only [requestLine, codes_append, codes_header, codes_bar, List.append_assoc,
      List.cons_append, List.nil_append]
  rw [splitBar, hline, List.splitOn_append_cons_self_of_not_mem (by decide),
    List.splitOn_append_cons_self_of_not_mem (by decide),
    List.splitOn_append_cons_self_of_not_mem hid,
    List.splitOn_append_cons_self_of_not_mem htype,
    List.splitOn_append_cons_self_of_not_mem hinput, List.splitOn_eq_singleton hprofile]

theorem digit_lt (cs : List UInt8) (h : ∀ c ∈ cs, (Hex.value c).isSome = true) :
    ∀ c ∈ cs, c < 128 := by
  intro c hc
  have hrange := digit_range c (h c hc)
  exact UInt8.lt_iff_toNat_lt.mpr (by change c.toNat < 128; omega)

theorem requestLine_ascii (taskId : UInt32) (taskType : TaskType) (input profile : List UInt8) :
    ∀ c ∈ requestLine taskId taskType input profile, c < 128 := by
  have hheader : ∀ c ∈ ascii "HNAI1|REQ|", c < 128 := by decide +kernel
  have hid := digit_lt _ (Hex.value_of_mem_encode32 taskId)
  have htype := digit_lt _ (Hex.value_of_mem_encode [taskType.code])
  have hinput := digit_lt _ (Hex.value_of_mem_encode input)
  have hprofile := digit_lt _ (Hex.value_of_mem_encode profile)
  have hbar : (124 : UInt8) < 128 := by decide
  simp only [requestLine, List.forall_mem_append, List.forall_mem_cons]
  exact ⟨⟨⟨⟨hheader, hid⟩, hbar, htype⟩, hbar, hinput⟩, hbar, hprofile⟩

theorem requestLine_length (taskId : UInt32) (taskType : TaskType) (input profile : List UInt8) :
    (requestLine taskId taskType input profile).length =
      23 + 2 * input.length + 2 * profile.length := by
  have hheader : (ascii "HNAI1|REQ|").length = 10 := by decide
  have htype : (Hex.encodeByte taskType.code).length = 2 := rfl
  simp only [requestLine, List.length_append, List.length_cons, hheader, htype,
    Hex.encode32_length, Hex.encode_length]
  omega

theorem rstrip_last (front : List UInt8) (c : UInt8) (hreturn : c ≠ 13) (hnewline : c ≠ 10) :
    rstripNewlines (codes (front ++ [c])) = codes (front ++ [c]) := by
  have hcodes : codes (front ++ [c]) = codes front ++ [c.toNat] := codes_append front [c]
  have hr : c.toNat ≠ 13 := fun e => hreturn (UInt8.toNat_inj.mp e)
  have hn : c.toNat ≠ 10 := fun e => hnewline (UInt8.toNat_inj.mp e)
  rw [rstripNewlines, hcodes, List.reverse_append, List.reverse_singleton,
    List.singleton_append, List.dropWhile_cons_of_neg (by simp [hr, hn]),
    List.reverse_cons, List.reverse_reverse]

theorem rstrip_encoded (front bs : List UInt8) :
    rstripNewlines (codes (front ++ 124 :: Hex.encode bs)) =
      codes (front ++ 124 :: Hex.encode bs) := by
  rcases List.eq_nil_or_concat' (Hex.encode bs) with hnil | ⟨tail, c, hc⟩
  · rw [hnil]
    exact rstrip_last front 124 (by decide) (by decide)
  · have hdigit := digit_range c (Hex.value_of_mem_encode bs c (hc ▸ by simp))
    have hsplit : front ++ 124 :: (tail ++ [c]) = (front ++ 124 :: tail) ++ [c] := by simp
    rw [hc, hsplit]
    apply rstrip_last
    · rintro rfl
      exact absurd hdigit.1 (by decide)
    · rintro rfl
      exact absurd hdigit.1 (by decide)

theorem rstrip_requestLine (taskId : UInt32) (taskType : TaskType) (input profile : List UInt8) :
    rstripNewlines (codes (requestLine taskId taskType input profile)) =
      codes (requestLine taskId taskType input profile) := rstrip_encoded _ profile

/-- Every request line parses back, except that a prompt of white space is
refused. -/
theorem parseRequest_requestLine (taskId : UInt32) (taskType : TaskType)
    (input profile : List UInt8) (hi : input.length ≤ 512) (hp : profile.length ≤ 512) :
    parseRequest (requestLine taskId taskType input profile) =
      if strip (decodeUtf8 input) = [] then .error (str "empty prompt")
      else .ok ⟨Hex.encode32 taskId, taskType.code.toNat, decodeUtf8 input,
        decodeUtf8 profile⟩ := by
  have hlength := requestLine_length taskId taskType input profile
  have hascii : (requestLine taskId taskType input profile).any (128 ≤ ·) = false := by
    rw [List.any_eq_false]
    intro c hc
    have hlt := requestLine_ascii taskId taskType input profile c hc
    simpa using hlt
  have htype : int16 (codes (Hex.encodeByte taskType.code)) = some (taskType.code.toNat : ℤ) := by
    cases taskType <;> decide
  have hidLength : (codes (Hex.encode32 taskId)).length = 8 := by
    rw [codes, List.length_map, Hex.encode32_length]
  have htypeLength : (codes (Hex.encodeByte taskType.code)).length = 2 := by
    rw [codes, List.length_map]
    rfl
  rw [parseRequest, if_neg (by omega), hascii, if_neg (by decide)]
  change parseFields (splitBar (rstripNewlines (codes _))) = _
  rw [rstrip_requestLine, splitBar_requestLine, parseFields, if_neg (by simp),
    if_neg (by simp [hidLength, htypeLength]), int16_encode32, htype, decodeHex_encode _ _ hi,
    decodeHex_encode _ _ hp]
  simp only [format08X_toNat]

end Hnmos.HostBridge
