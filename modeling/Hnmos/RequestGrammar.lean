import Mathlib
import Hnmos.RequestParsing

/-!
# What the request parser accepts

The parser checks the lengths of the fields and leaves their digits to `int`
and `bytes.fromhex`, which take signs, a prefix, underscores and white space as
well. An accepted line is a frame of the protocol exactly when it contains none
of these; otherwise the identifier that is answered need not be the one sent.
-/

set_option autoImplicit false

namespace Hnmos.HostBridge
open Hnmos.CString

def isHexDigit (cp : ℕ) : Bool :=
  (48 ≤ cp && cp ≤ 57) || (65 ≤ cp && cp ≤ 70) || (97 ≤ cp && cp ≤ 102)

def upper (c : UInt8) : UInt8 := if 97 ≤ c ∧ c ≤ 122 then c - 32 else c

/-- A frame of the protocol and the identifier to answer it with. -/
def WellFormed (text : Str) (requestId : List UInt8) : Prop :=
  ∃ id type prompt profile : Str,
    text = str "HNAI1|REQ|" ++ id ++ 124 :: type ++ 124 :: prompt ++ 124 :: profile ∧
    id.length = 8 ∧ type.length = 2 ∧ Even prompt.length ∧ Even profile.length ∧
    (∀ cp ∈ id ++ type ++ prompt ++ profile, isHexDigit cp = true) ∧
    requestId = id.map fun cp => upper (UInt8.ofNat cp)

/-- What the readers of digits take besides digits: signs, the letter of a
prefix, underscores and white space. -/
def isLenient (cp : ℕ) : Bool :=
  cp == 43 || cp == 45 || cp == 88 || cp == 120 || cp == 95 || isAsciiSpace cp

def Strict (text : Str) : Prop := ∀ cp ∈ text, isLenient cp = false

theorem strict_append (text more : Str) : Strict (text ++ more) ↔ Strict text ∧ Strict more :=
  List.forall_mem_append

theorem strict_cons (cp : ℕ) (text : Str) :
    Strict (cp :: text) ↔ isLenient cp = false ∧ Strict text := List.forall_mem_cons

theorem lenient_none (cp : ℕ) (h : isLenient cp = false) :
    cp ≠ 43 ∧ cp ≠ 45 ∧ cp ≠ 88 ∧ cp ≠ 120 ∧ cp ≠ 95 ∧ isAsciiSpace cp = false := by
  simpa [isLenient, and_assoc] using h

theorem value_digit (c : UInt8) :
    (Hex.value c).isSome = isHexDigit c.toNat ∧
      ((Hex.value c).isSome = true → ((Hex.value c).getD 0).toNat < 16 ∧
        Hex.digit (UInt8.ofNat ((Hex.value c).getD 0).toNat) = upper c) := by
  revert c
  apply Hex.forall_byte
  decide +kernel

theorem isHexDigit_lt (cp : ℕ) (h : isHexDigit cp = true) : cp < 128 := by
  simp only [isHexDigit, Bool.or_eq_true, Bool.and_eq_true, decide_eq_true_eq] at h
  omega

theorem hexDigit_isSome (cp : ℕ) : (hexDigit cp).isSome = isHexDigit cp := by
  rw [hexDigit]
  by_cases hascii : cp < 128
  · have hcp : (UInt8.ofNat cp).toNat = cp :=
      UInt8.toNat_ofNat_of_lt' (by change cp < 256; omega)
    rw [if_pos hascii, Option.isSome_map, (value_digit _).1, hcp]
  · rw [if_neg hascii]
    exact (Bool.eq_false_iff.mpr fun h => hascii (isHexDigit_lt cp h)).symm

theorem hexDigit_strict (cp : ℕ) (h : isHexDigit cp = true) : isLenient cp = false := by
  simp only [isHexDigit, isLenient, isAsciiSpace, Bool.or_eq_true, Bool.and_eq_true,
    decide_eq_true_eq, Bool.or_eq_false_iff, Bool.and_eq_false_iff, beq_eq_false_iff_ne,
    decide_eq_false_iff_not] at h ⊢
  omega

theorem wellFormed_strict (text : Str) (requestId : List UInt8) (h : WellFormed text requestId) :
    Strict text := by
  obtain ⟨id, type, prompt, profile, rfl, _, _, _, _, hdigits, _⟩ := h
  have hheader : Strict (str "HNAI1|REQ|") := by
    rw [Strict]
    decide
  have hbar : isLenient 124 = false := by decide
  have hall : Strict (id ++ type ++ prompt ++ profile) := by
    intro cp hcp
    exact hexDigit_strict cp (hdigits cp hcp)
  simp only [strict_append, strict_cons, hheader, hbar, true_and] at hall ⊢
  tauto

theorem intDigits_digits (text : Str) (acc n : ℕ) (hs : Strict text)
    (h : intDigits text acc = some n) : ∀ cp ∈ text, isHexDigit cp = true := by
  induction text generalizing acc with
  | nil => exact fun cp hcp => absurd hcp List.not_mem_nil
  | cons cp text ih =>
    have hrest := ((strict_cons cp text).mp hs).2
    cases hdigit : hexDigit cp with
    | none =>
      cases text with
      | nil =>
        rw [intDigits, hdigit, Option.map_none] at h
        exact absurd h.symm (Option.some_ne_none n)
      | cons cq text =>
        simp only [intDigits, hdigit] at h
        exact absurd h.symm (Option.some_ne_none n)
    | some d =>
      have hfirst : isHexDigit cp = true := by
        rw [← hexDigit_isSome, hdigit]
        rfl
      rw [List.forall_mem_cons]
      refine ⟨hfirst, ?_⟩
      cases text with
      | nil => exact fun cq hcq => absurd hcq List.not_mem_nil
      | cons cq text =>
        have hplain := (lenient_none cq ((strict_cons cq text).mp hrest).1).2.2.2.2.1
        simp only [intDigits, hdigit, if_neg hplain] at h
        exact ih _ hrest h

theorem int16_digits (text : Str) (n : ℤ) (hs : Strict text) (h : int16 text = some n) :
    ∀ cp ∈ text, isHexDigit cp = true := by
  have htrim : trim isAsciiSpace text = text :=
    trim_self _ text fun cp hcp => (lenient_none cp (hs cp hcp)).2.2.2.2.2
  rw [int16, htrim] at h
  have hmagnitude (hne : text ≠ []) : intMagnitude text = intDigits text 0 :=
    intMagnitude_plain text hne fun cp hcp =>
      ⟨(lenient_none cp (hs cp hcp)).2.2.1, (lenient_none cp (hs cp hcp)).2.2.2.1⟩
  split at h
  · rename_i rest
    exact absurd rfl (lenient_none 45 (hs 45 List.mem_cons_self)).2.1
  · rename_i rest
    exact absurd rfl (lenient_none 43 (hs 43 List.mem_cons_self)).1
  · obtain ⟨value, hvalue, _⟩ := Option.map_eq_some_iff.mp h
    by_cases hne : text = []
    · rw [hne]
      exact fun cp hcp => absurd hcp List.not_mem_nil
    · rw [hmagnitude hne] at hvalue
      exact intDigits_digits text 0 value hs hvalue

theorem fromHex_digits (text : Str) (raw : List UInt8) (hs : Strict text)
    (h : fromHex text = some raw) : ∀ cp ∈ text, isHexDigit cp = true := by
  have hspace (cp : ℕ) (hcp : isLenient cp = false) := (lenient_none cp hcp).2.2.2.2.2
  induction text using List.twoStepInduction generalizing raw with
  | nil => exact fun cp hcp => absurd hcp List.not_mem_nil
  | singleton cp =>
    rw [fromHex, hspace cp (hs cp List.mem_cons_self)] at h
    exact absurd h.symm (Option.some_ne_none raw)
  | cons_cons cp cq rest ih _ =>
    have hcp := hs cp List.mem_cons_self
    have htail := ((strict_cons cq rest).mp ((strict_cons cp _).mp hs).2).2
    rw [fromHex, hspace cp hcp, if_neg Bool.false_ne_true] at h
    cases hhigh : hexDigit cp with
    | none => simp [hhigh] at h
    | some high =>
      cases hlow : hexDigit cq with
      | none => simp [hhigh, hlow] at h
      | some low =>
        cases hrest : fromHex rest with
        | none => simp [hhigh, hlow, hrest] at h
        | some tail =>
          have hfirst : isHexDigit cp = true := by rw [← hexDigit_isSome, hhigh]; rfl
          have hsecond : isHexDigit cq = true := by rw [← hexDigit_isSome, hlow]; rfl
          rw [List.forall_mem_cons, List.forall_mem_cons]
          exact ⟨hfirst, hsecond, ih tail htail hrest⟩

theorem decodeHex_digits (text decoded : Str) (limit : ℕ) (hs : Strict text)
    (h : decodeHex text limit = .ok decoded) :
    Even text.length ∧ ∀ cp ∈ text, isHexDigit cp = true := by
  rw [decodeHex] at h
  by_cases hodd : text.length % 2 = 1
  · rw [if_pos hodd] at h
    cases h
  · rw [if_neg hodd] at h
    cases hraw : fromHex text with
    | none =>
      rw [hraw] at h
      cases h
    | some raw =>
      have heven : Even text.length := Nat.even_iff.mpr (by omega)
      exact ⟨heven, fromHex_digits text raw hs hraw⟩

theorem hexDigits_read (cs : List UInt8) (h : ∀ c ∈ cs, (Hex.value c).isSome = true) :
    hexDigits cs.length (cs.foldl (fun n c => 16 * n + ((Hex.value c).getD 0).toNat) 0) =
        cs.map upper ∧
      cs.foldl (fun n c => 16 * n + ((Hex.value c).getD 0).toNat) 0 < 16 ^ cs.length := by
  induction cs using List.reverseRecOn with
  | nil => exact ⟨rfl, Nat.one_pos⟩
  | append_singleton cs c ih =>
    obtain ⟨hsmall, hupper⟩ := (value_digit c).2 (h c (by simp))
    obtain ⟨hdigits, hlt⟩ := ih fun d hd => h d (by simp [hd])
    rw [List.foldl_append, List.foldl_cons, List.foldl_nil, List.length_append,
      List.length_singleton, hexDigits, List.map_append, List.map_singleton]
    generalize cs.foldl (fun n c => 16 * n + ((Hex.value c).getD 0).toNat) 0 = n at *
    have hhigh : (16 * n + ((Hex.value c).getD 0).toNat) / 16 = n := by omega
    have hlow : (16 * n + ((Hex.value c).getD 0).toNat) % 16 = ((Hex.value c).getD 0).toNat := by
      omega
    rw [hhigh, hlow, hdigits, hupper, pow_succ]
    exact ⟨rfl, by omega⟩

theorem codes_ofNat (text : Str) (h : ∀ cp ∈ text, isHexDigit cp = true) :
    ∃ cs : List UInt8, text = codes cs ∧ (∀ c ∈ cs, (Hex.value c).isSome = true) ∧
      cs = text.map UInt8.ofNat := by
  have hbyte : ∀ cp ∈ text, (UInt8.ofNat cp).toNat = cp := by
    intro cp hcp
    have hlt := isHexDigit_lt cp (h cp hcp)
    exact UInt8.toNat_ofNat_of_lt' (by change cp < 256; omega)
  refine ⟨text.map UInt8.ofNat, ?_, ?_, rfl⟩
  · rw [codes, List.map_map]
    conv_lhs => rw [← List.map_id text]
    apply List.map_congr_left
    intro cp hcp
    exact (hbyte cp hcp).symm
  · intro c hc
    obtain ⟨cp, hcp, rfl⟩ := List.mem_map.mp hc
    rw [(value_digit _).1, hbyte cp hcp]
    exact h cp hcp

theorem format08X_digits (id : Str) (n : ℤ) (hlength : id.length = 8)
    (hdigits : ∀ cp ∈ id, isHexDigit cp = true) (h : int16 id = some n) :
    format08X n = id.map fun cp => upper (UInt8.ofNat cp) := by
  obtain ⟨cs, hcodes, hvalues, hcs⟩ := codes_ofNat id hdigits
  have hlen : cs.length = 8 := by rw [hcs, List.length_map, hlength]
  have hne : cs ≠ [] := by
    rintro rfl
    exact absurd hlen (by decide)
  obtain ⟨hread, hlt⟩ := hexDigits_read cs hvalues
  rw [hcodes, int16_codes cs hvalues hne] at h
  obtain rfl := Option.some.inj h
  have hid : (id.map fun cp => upper (UInt8.ofNat cp)) = cs.map upper := by
    rw [hcs, List.map_map]
    rfl
  rw [hid, ← hread, hlen]
  rw [hlen] at hlt
  generalize cs.foldl (fun n c => 16 * n + ((Hex.value c).getD 0).toNat) 0 = v at hlt
  rw [format08X, if_neg (Int.not_lt.mpr (Int.natCast_nonneg v)), Int.natAbs_natCast,
    max_eq_left (hexWidth_le v hlt)]

/-- An accepted line has six fields, and the readers have taken each of them. -/
theorem parseFields_ok (fields : List Str) (r : Request) (h : parseFields fields = .ok r) :
    ∃ id type prompt profile : Str, ∃ n k : ℤ,
      fields = [str "HNAI1", str "REQ", id, type, prompt, profile] ∧
      id.length = 8 ∧ type.length = 2 ∧ int16 id = some n ∧ int16 type = some k ∧
      decodeHex prompt 512 = .ok r.prompt ∧ decodeHex profile 512 = .ok r.profile ∧
      r.requestId = format08X n := by
  unfold parseFields at h
  split at h
  · rename_i protocol kind id type prompt profile
    by_cases hframe : protocol ≠ str "HNAI1" ∨ kind ≠ str "REQ"
    · rw [if_pos hframe] at h
      cases h
    rw [if_neg hframe] at h
    by_cases hlength : id.length ≠ 8 ∨ type.length ≠ 2
    · rw [if_pos hlength] at h
      cases h
    rw [if_neg hlength] at h
    obtain ⟨hprotocol, hkind⟩ := not_or.mp hframe
    obtain ⟨hid, htype⟩ := not_or.mp hlength
    cases hn : int16 id with
    | none => simp [hn] at h
    | some n =>
      cases hk : int16 type with
      | none => simp [hn, hk] at h
      | some k =>
        cases hp : decodeHex prompt 512 with
        | error e => simp [hn, hk, hp] at h
        | ok decoded =>
          cases hq : decodeHex profile 512 with
          | error e => simp [hn, hk, hp, hq] at h
          | ok language =>
            simp only [hn, hk, hp, hq] at h
            by_cases hempty : strip decoded = []
            · rw [if_pos hempty] at h
              cases h
            · rw [if_neg hempty] at h
              obtain rfl := Except.ok.inj h
              exact ⟨id, type, prompt, profile, n, k, by rw [not_not.mp hprotocol, not_not.mp hkind],
                not_not.mp hid, not_not.mp htype, hn, hk, hp, hq, rfl⟩
  · cases h

/-- An accepted line is a frame of the protocol, answered under the identifier
it was sent with, exactly when it holds no sign, no `x`, no underscore and no
white space. -/
theorem accepted_wellFormed_iff (line : List UInt8) (r : Request)
    (h : parseRequest line = .ok r) :
    WellFormed (rstripNewlines (codes line)) r.requestId ↔
      Strict (rstripNewlines (codes line)) := by
  constructor
  · exact wellFormed_strict _ _
  intro hs
  rw [parseRequest] at h
  split_ifs at h
  obtain ⟨id, type, prompt, profile, n, k, hfields, hid, htype, hn, hk, hp, hq, hr⟩ :=
    parseFields_ok _ r h
  have htext : rstripNewlines (codes line) =
      str "HNAI1|REQ|" ++ id ++ 124 :: type ++ 124 :: prompt ++ 124 :: profile := by
    have hjoin : [124].intercalate (splitBar (rstripNewlines (codes line))) =
        rstripNewlines (codes line) := List.intercalate_splitOn 124
    have hheader : str "HNAI1|REQ|" = str "HNAI1" ++ 124 :: (str "REQ" ++ [124]) := by decide
    rw [← hjoin, hheader]
    show [124].intercalate (splitBar (rstripNewlines (line.map UInt8.toNat))) = _
    rw [hfields]
    simp [List.intercalate]
  rw [htext] at hs
  simp only [strict_append, strict_cons] at hs
  have hiddigits := int16_digits id n (by tauto) hn
  have htypedigits := int16_digits type k (by tauto) hk
  obtain ⟨hpeven, hpdigits⟩ := decodeHex_digits prompt r.prompt 512 (by tauto) hp
  obtain ⟨hqeven, hqdigits⟩ := decodeHex_digits profile r.profile 512 (by tauto) hq
  refine ⟨id, type, prompt, profile, htext, hid, htype, hpeven, hqeven, ?_, ?_⟩
  · simp only [List.forall_mem_append]
    exact ⟨⟨⟨hiddigits, htypedigits⟩, hpdigits⟩, hqdigits⟩
  · rw [hr]
    exact format08X_digits id n hid hiddigits hn

theorem accepted_wellFormed_sample :
    WellFormed (codes (ascii "HNAI1|REQ|0000002a|06|68656C6C6F|70726F66696C65"))
      (ascii "0000002A") := by
  have haccepted : parseRequest (ascii "HNAI1|REQ|0000002a|06|68656C6C6F|70726F66696C65") =
      .ok ⟨ascii "0000002A", 6, str "hello", str "profile"⟩ := by rfl
  have hstrip : rstripNewlines (codes (ascii
      "HNAI1|REQ|0000002a|06|68656C6C6F|70726F66696C65")) =
        codes (ascii "HNAI1|REQ|0000002a|06|68656C6C6F|70726F66696C65") := by rfl
  have hwell := (accepted_wellFormed_iff _ _ haccepted).mpr (by
    rw [hstrip, Strict]
    decide)
  rwa [hstrip] at hwell

/-- A sign is taken for a digit, and the answer goes to another identifier. -/
theorem signed_identifier :
    parseRequest (ascii "HNAI1|REQ|+000002A|06|68656C6C6F|") =
        .ok ⟨ascii "0000002A", 6, str "hello", []⟩ ∧
      ¬ WellFormed (rstripNewlines (codes (ascii "HNAI1|REQ|+000002A|06|68656C6C6F|")))
        (ascii "0000002A") := by
  refine ⟨by rfl, ?_⟩
  intro hwell
  have hsign : 43 ∈ rstripNewlines (codes (ascii "HNAI1|REQ|+000002A|06|68656C6C6F|")) := by
    decide
  exact absurd (wellFormed_strict _ _ hwell 43 hsign) (by decide)

end Hnmos.HostBridge
