import Mathlib
import Hnmos.Hex
import Hnmos.CString

/-!
# The host side of the bridge

The host program is written in Python; its strings are lists of code points
and its byte strings lists of bytes. Library calls follow their documented
behaviour: `bytes.fromhex` skips white space between pairs, `int` takes a
sign, a prefix and single underscores, UTF-8 decoding replaces malformed
parts. The call to the remote provider is a parameter: it returns a text or
raises an exception with a text.
-/

set_option autoImplicit false

namespace Hnmos.HostBridge
open Hnmos.CString

abbrev Str := List ℕ

def str (text : String) : Str := text.toList.map Char.toNat

def asciiBytes (text : Str) : List UInt8 :=
  text.map fun cp => if cp < 128 then UInt8.ofNat cp else 63

def encodeHex (value : Str) : List UInt8 := Hex.encode ((asciiBytes value).take 900)

def responseFrame (requestId : List UInt8) (success : Bool) (text : Str) : List UInt8 :=
  ascii "HNAI1|RES|" ++ requestId ++ 124 :: (if success then 83 else 69) :: 124 ::
    encodeHex text ++ [10]

def isAsciiSpace (cp : ℕ) : Bool := cp == 32 || (9 ≤ cp && cp ≤ 13)

/-- The code points `str.strip` removes. -/
def isSpace (cp : ℕ) : Bool :=
  isAsciiSpace cp || (28 ≤ cp && cp ≤ 31) || cp == 0x85 || cp == 0xA0 || cp == 0x1680 ||
    (0x2000 ≤ cp && cp ≤ 0x200A) || cp == 0x2028 || cp == 0x2029 || cp == 0x202F ||
    cp == 0x205F || cp == 0x3000

def trim (kind : ℕ → Bool) (text : Str) : Str :=
  ((text.dropWhile kind).reverse.dropWhile kind).reverse

def strip (text : Str) : Str := trim isSpace text

def rstripNewlines (text : Str) : Str :=
  (text.reverse.dropWhile fun cp => cp == 13 || cp == 10).reverse

def splitBar (text : Str) : List Str := text.splitOn 124

def hexDigit (cp : ℕ) : Option ℕ :=
  if cp < 128 then (Hex.value (UInt8.ofNat cp)).map UInt8.toNat else none

/-- `bytes.fromhex`: white space may stand between pairs, not inside one. -/
def fromHex : Str → Option (List UInt8)
  | [] => some []
  | [cp] => if isAsciiSpace cp then some [] else none
  | cp :: cq :: rest =>
    if isAsciiSpace cp then fromHex (cq :: rest)
    else
      match hexDigit cp, hexDigit cq, fromHex rest with
      | some high, some low, some tail => some (UInt8.ofNat (16 * high + low) :: tail)
      | _, _, _ => none

def isContinuation (b : UInt8) : Bool := 0x80 ≤ b && b ≤ 0xBF

/-- The second bytes a three- or four-byte lead admits. -/
def secondByte (lead b : UInt8) : Bool :=
  if lead = 0xE0 then 0xA0 ≤ b && b ≤ 0xBF
  else if lead = 0xED then 0x80 ≤ b && b ≤ 0x9F
  else if lead = 0xF0 then 0x90 ≤ b && b ≤ 0xBF
  else if lead = 0xF4 then 0x80 ≤ b && b ≤ 0x8F
  else isContinuation b

def low6 (b : UInt8) : ℕ := b.toNat % 64

/-- One code point and the bytes after it; a maximal malformed part becomes
U+FFFD. -/
def decodeOne (a : UInt8) (rest : List UInt8) : ℕ × List UInt8 :=
  if a < 0x80 then (a.toNat, rest)
  else if 0xC2 ≤ a ∧ a ≤ 0xDF then
    match rest with
    | b :: rest' =>
      if isContinuation b then (a.toNat % 32 * 64 + low6 b, rest') else (0xFFFD, rest)
    | [] => (0xFFFD, [])
  else if 0xE0 ≤ a ∧ a ≤ 0xEF then
    match rest with
    | b :: c :: rest' =>
      if secondByte a b then
        if isContinuation c then
          (a.toNat % 16 * 4096 + low6 b * 64 + low6 c, rest')
        else (0xFFFD, c :: rest')
      else (0xFFFD, rest)
    | [b] => if secondByte a b then (0xFFFD, []) else (0xFFFD, rest)
    | [] => (0xFFFD, [])
  else if 0xF0 ≤ a ∧ a ≤ 0xF4 then
    match rest with
    | b :: c :: d :: rest' =>
      if secondByte a b then
        if isContinuation c then
          if isContinuation d then
            (a.toNat % 8 * 262144 + low6 b * 4096 + low6 c * 64 + low6 d, rest')
          else (0xFFFD, d :: rest')
        else (0xFFFD, c :: d :: rest')
      else (0xFFFD, rest)
    | [b, c] =>
      if secondByte a b then (if isContinuation c then (0xFFFD, []) else (0xFFFD, [c]))
      else (0xFFFD, rest)
    | [b] => if secondByte a b then (0xFFFD, []) else (0xFFFD, rest)
    | [] => (0xFFFD, [])
  else (0xFFFD, rest)

def decodeLoop : ℕ → List UInt8 → Str
  | 0, _ => []
  | _, [] => []
  | passes + 1, a :: rest =>
    match decodeOne a rest with
    | (cp, rest) => cp :: decodeLoop passes rest

/-- UTF-8 decoding; every pass takes at least one byte. -/
def decodeUtf8 (raw : List UInt8) : Str := decodeLoop raw.length raw

def decodeHex (value : Str) (limit : ℕ) : Except Str Str :=
  if value.length % 2 = 1 then .error (str "odd-length hex field")
  else
    match fromHex value with
    | none => .error (str "invalid hex field")
    | some raw =>
      if limit < raw.length then .error (str "field exceeds protocol limit")
      else .ok (decodeUtf8 raw)

/-- Digits with single underscores between them. -/
def intDigits : Str → ℕ → Option ℕ
  | [], acc => some acc
  | [cp], acc => (hexDigit cp).map fun d => 16 * acc + d
  | cp :: cq :: rest, acc =>
    match hexDigit cp with
    | none => none
    | some d =>
      if cq = 95 then (if rest = [] then none else intDigits rest (16 * acc + d))
      else intDigits (cq :: rest) (16 * acc + d)

/-- The digits after an optional `0x`, which an underscore may follow. -/
def skipPrefix (text : Str) : Str :=
  match text with
  | 48 :: x :: rest =>
    if x = 120 ∨ x = 88 then
      match rest with
      | 95 :: rest' => rest'
      | _ => rest
    else text
  | _ => text

def intMagnitude (text : Str) : Option ℕ :=
  if skipPrefix text = [] then none else intDigits (skipPrefix text) 0

/-- `int(text, 16)` for an ASCII text: unlike `str.strip`, it takes only the
white space of C off the ends. -/
def int16 (text : Str) : Option ℤ :=
  match trim isAsciiSpace text with
  | 45 :: rest => (intMagnitude rest).map fun n : ℕ => -(n : ℤ)
  | 43 :: rest => (intMagnitude rest).map fun n : ℕ => (n : ℤ)
  | rest => (intMagnitude rest).map fun n : ℕ => (n : ℤ)

def hexDigits : ℕ → ℕ → List UInt8
  | 0, _ => []
  | width + 1, n => hexDigits width (n / 16) ++ [Hex.digit (UInt8.ofNat (n % 16))]

def hexWidth (n : ℕ) : ℕ := if n = 0 then 1 else Nat.log 16 n + 1

def format08X (n : ℤ) : List UInt8 :=
  if n < 0 then 45 :: hexDigits (max 7 (hexWidth n.natAbs)) n.natAbs
  else hexDigits (max 8 (hexWidth n.natAbs)) n.natAbs

structure Request where
  requestId : List UInt8
  taskType : ℤ
  prompt : Str
  profile : Str

def parseFields (fields : List Str) : Except Str Request :=
  match fields with
  | [protocol, kind, idText, typeText, promptHex, profileHex] =>
    if protocol ≠ str "HNAI1" ∨ kind ≠ str "REQ" then .error (str "invalid request frame")
    else if idText.length ≠ 8 ∨ typeText.length ≠ 2 then
      .error (str "invalid request identifiers")
    else
      match int16 idText, int16 typeText with
      | some requestId, some taskType =>
        match decodeHex promptHex 512 with
        | .error e => .error e
        | .ok prompt =>
          match decodeHex profileHex 512 with
          | .error e => .error e
          | .ok profile =>
            if strip prompt = [] then .error (str "empty prompt")
            else .ok ⟨format08X requestId, taskType, prompt, profile⟩
      | _, _ => .error (str "invalid request identifiers")
  | _ => .error (str "invalid request frame")

def parseRequest (line : List UInt8) : Except Str Request :=
  if 8192 < line.length then .error (str "frame too large")
  else if line.any (128 ≤ ·) then .error (str "frame must be ASCII")
  else parseFields (splitBar (rstripNewlines (line.map UInt8.toNat)))

def parseKeyFields (fields : List Str) : Except Str Str :=
  match fields with
  | [protocol, kind, keyHex] =>
    if protocol ≠ str "HNAI1" ∨ kind ≠ str "KEY" then .error (str "invalid key frame")
    else
      match decodeHex keyHex 256 with
      | .error e => .error e
      | .ok apiKey =>
        if apiKey.length < 8 then .error (str "API key is too short") else .ok apiKey
  | _ => .error (str "invalid key frame")

def parseApiKey (line : List UInt8) : Except Str Str :=
  if line.any (128 ≤ ·) then .error (str "key frame must be ASCII")
  else parseKeyFields (splitBar (rstripNewlines (line.map UInt8.toNat)))

/-- The remote call: prompt, profile and credential to a text or an exception
text. -/
abbrev CallProvider := Str → Str → Str → Except Str Str

/-- The identifier is known to the answer only once the request has parsed. -/
def handleFrame (call : CallProvider) (line : List UInt8) (apiKey : Str) : List UInt8 :=
  match parseRequest line with
  | .error e => responseFrame (ascii "00000000") false e
  | .ok request =>
    if request.taskType ∈ [1, 2, 3, 4, 5, 6, 7] then
      match call request.prompt request.profile apiKey with
      | .error e => responseFrame request.requestId false e
      | .ok output => responseFrame request.requestId true output
    else responseFrame request.requestId false (str "unsupported task type")

end Hnmos.HostBridge
