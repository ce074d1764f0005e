import Mathlib
import Hnmos.RequestParsing
import Hnmos.AiSession

/-!
# Frames from the guest to the host

What the guest puts on the line for a task or a credential, the host reads
back: the identifier, the type, the prompt and the profile of a request, and
the text of a key.
-/

set_option autoImplicit false

namespace Hnmos.HostBridge
open Hnmos.CString Hnmos.Task Hnmos.SerialPort Hnmos.SerialTransport Hnmos.AiSession

def keyLine (apiKey : List UInt8) : List UInt8 := ascii "HNAI1|KEY|" ++ Hex.encode apiKey

theorem keyFrame_eq (apiKey : List UInt8) : keyFrame apiKey = keyLine apiKey ++ [10] := rfl

theorem keyLine_codes (apiKey : List UInt8) : codes (keyLine apiKey) =
    str "HNAI1" ++ 124 :: (str "KEY" ++ 124 :: codes (Hex.encode apiKey)) := by
  have hheader : codes (ascii "HNAI1|KEY|") = str "HNAI1" ++ 124 :: (str "KEY" ++ [124]) := by
    decide
  rw [keyLine, codes_append, hheader]
  simp only [List.append_assoc, List.cons_append, List.nil_append]

theorem splitBar_keyLine (apiKey : List UInt8) :
    splitBar (codes (keyLine apiKey)) =
      [str "HNAI1", str "KEY", codes (Hex.encode apiKey)] := by
  have hkey : (124 : ℕ) ∉ codes (Hex.encode apiKey) :=
    not_mem_codes _ 124 (Hex.not_mem_encode apiKey 124 (by decide))
  rw [splitBar, keyLine_codes, List.splitOn_append_cons_self_of_not_mem (by decide),
    List.splitOn_append_cons_self_of_not_mem (by decide), List.splitOn_eq_singleton hkey]

theorem keyLine_ascii (apiKey : List UInt8) : (keyLine apiKey).any (128 ≤ ·) = false := by
  have hheader : ∀ c ∈ ascii "HNAI1|KEY|", c < 128 := by decide +kernel
  have hkey := digit_lt _ (Hex.value_of_mem_encode apiKey)
  rw [List.any_eq_false]
  intro c hc
  have hlt : c < 128 := (List.mem_append.mp hc).elim (hheader c) (hkey c)
  simpa using hlt

theorem parseApiKey_keyLine (apiKey : List UInt8) (hlow : 8 ≤ apiKey.length)
    (hhigh : apiKey.length ≤ 256) (hascii : ∀ c ∈ apiKey, c < 128) :
    parseApiKey (keyLine apiKey) = .ok (codes apiKey) := by
  have hstrip : rstripNewlines ((keyLine apiKey).map UInt8.toNat) = codes (keyLine apiKey) :=
    rstrip_encoded (ascii "HNAI1|KEY") apiKey
  have hlength : ¬ (codes apiKey).length < 8 := by
    rw [codes, List.length_map]
    omega
  rw [parseApiKey, keyLine_ascii, hstrip, splitBar_keyLine]
  simp only [Bool.false_eq_true, if_false, parseKeyFields, decodeHex_encode apiKey 256 hhigh,
    decodeUtf8_ascii apiKey hascii, if_neg hlength]
  rfl

theorem newline_not_mem_requestLine (taskId : UInt32) (taskType : TaskType)
    (input profile : List UInt8) : 10 ∉ requestLine taskId taskType input profile := by
  have hid : (10 : UInt8) ∉ Hex.encode32 taskId := fun h =>
    absurd (Hex.value_of_mem_encode32 taskId 10 h) (by decide)
  have htype : (10 : UInt8) ∉ Hex.encodeByte taskType.code := by
    cases taskType <;> decide
  have hinput := Hex.not_mem_encode input 10 (by decide)
  have hprofile := Hex.not_mem_encode profile 10 (by decide)
  have hheader : (10 : UInt8) ∉ ascii "HNAI1|REQ|" := by decide
  simp only [requestLine, List.mem_append, List.mem_cons, not_or]
  exact ⟨⟨⟨⟨hheader, hid⟩, by decide, htype⟩, by decide, hinput⟩, by decide, hprofile⟩

/-- The texts a request is built from: ASCII bytes, a prompt that is not made
of white space and a profile that fits the host's limit. -/
structure Sendable (input profile : List UInt8) : Prop where
  inputAscii : ∀ c ∈ input, c < 128
  inputText : ∃ c ∈ input, isSpace c.toNat = false
  profileAscii : ∀ c ∈ profile, c ≠ 0 ∧ c < 128
  profileFits : profile.length ≤ 512

end Hnmos.HostBridge
