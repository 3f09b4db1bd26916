import Cjet.Ws.Handshake
import Cjet.Ws.Sha1
import Mathlib.Tactic.IntervalCases

/-!
# The accept value (`send_upgrade_response`)

A client knows from it that the server has read its key.

* `b64Decode`            what a text of base64 stands for;
* `b64Decode_encode`     `b64_encode_buffer` writes a text that stands for its input;
* `computeAccept`        how the value is computed, on a stack that holds anything;
* `accept_value`         it stands for the digest of the key.
-/

set_option linter.unusedVariables false

namespace Cjet
open Stateful Prog

namespace Websocket

/-! ## base64 -/

def padding : UInt8 := 61

/-- the six bits that a letter stands for -/
def decode6 (c : UInt8) : Option UInt8 :=
  if 65 ≤ c ∧ c ≤ 90 then some (c - 65)
  else if 97 ≤ c ∧ c ≤ 122 then some (c - 97 + 26)
  else if 48 ≤ c ∧ c ≤ 57 then some (c - 48 + 52)
  else if c = 43 then some 62
  else if c = 47 then some 63
  else none

/-- Four letters stand for three bytes, the last ones for fewer where they are padded. -/
def b64Decode : List UInt8 → Option (List UInt8)
  | [] => some []
  | p :: q :: r :: s :: rest => do
    let p ← decode6 p
    let q ← decode6 q
    if r = padding then
      if s = padding ∧ rest = [] ∧ q <<< 4 = 0 then return [p <<< 2 ||| q >>> 4]
      else none
    else
      let r ← decode6 r
      if s = padding then
        if rest = [] ∧ r <<< 6 = 0 then return [p <<< 2 ||| q >>> 4, q <<< 4 ||| r >>> 2]
        else none
      else
        let s ← decode6 s
        let bytes ← b64Decode rest
        return (p <<< 2 ||| q >>> 4) :: (q <<< 4 ||| r >>> 2) :: (r <<< 6 ||| s) :: bytes
  | _ => none

set_option maxRecDepth 4000 in
theorem decode6_encode6 {n : UInt8} (hn : n < 64) : decode6 (encode6 n) = some n := by
  have hall : ∀ i : Fin 64, decode6 (encode6 (UInt8.ofNat i.val)) = some (UInt8.ofNat i.val) := by decide
  have h := hall ⟨n.toNat, hn⟩
  rwa [UInt8.ofNat_toNat] at h

theorem encode6_ne_padding {n : UInt8} (hn : n < 64) : encode6 n ≠ padding := by
  intro h
  have hdecode := decode6_encode6 hn
  rw [h] at hdecode
  exact Option.some_ne_none n hdecode.symm

theorem ext_bits {x y : UInt8} (h : ∀ i, i < 8 → x.toBitVec.getLsbD i = y.toBitVec.getLsbD i) : x = y :=
  UInt8.toBitVec_inj.mp (BitVec.eq_of_getLsbD_eq h)

theorem lt_64 {x : UInt8} (h₆ : x.toBitVec[6] = false) (h₇ : x.toBitVec[7] = false) : x < 64 := by
  have hmask : x = x &&& 0x3f := by
    apply ext_bits
    intro i hi
    interval_cases i <;> simp [h₆, h₇]
  have hle : x.toNat ≤ 0x3f := by
    rw [hmask, UInt8.toNat_and]
    exact Nat.and_le_right
  exact Nat.lt_succ_of_le hle

section
variable (a b c : UInt8)

theorem first_lt : a >>> 2 < 64 := lt_64 (by simp) (by simp)

theorem second_lt : (a &&& 0x03) <<< 4 ||| (b &&& 0xf0) >>> 4 < 64 := lt_64 (by simp) (by simp)

theorem third_lt : (b &&& 0x0f) <<< 2 ||| (c &&& 0xc0) >>> 6 < 64 := lt_64 (by simp) (by simp)

theorem fourth_lt : c &&& 0x3f < 64 := lt_64 (by simp) (by simp)

theorem first_byte : (a >>> 2) <<< 2 ||| ((a &&& 0x03) <<< 4 ||| (b &&& 0xf0) >>> 4) >>> 4 = a := by
  apply ext_bits
  intro i hi
  interval_cases i <;> simp

theorem second_byte :
    ((a &&& 0x03) <<< 4 ||| (b &&& 0xf0) >>> 4) <<< 4 ||| ((b &&& 0x0f) <<< 2 ||| (c &&& 0xc0) >>> 6) >>> 2 = b := by
  apply ext_bits
  intro i hi
  interval_cases i <;> simp

theorem third_byte : ((b &&& 0x0f) <<< 2 ||| (c &&& 0xc0) >>> 6) <<< 6 ||| (c &&& 0x3f) = c := by
  apply ext_bits
  intro i hi
  interval_cases i <;> simp

end

/-- The text stands for the bytes that have been encoded. -/
theorem b64Decode_encode (l : List UInt8) : b64Decode (b64EncodeBuffer l) = some l := by
  induction l using b64EncodeBuffer.induct with
  | case1 => rfl
  | case2 a =>
    have hbyte := first_byte a 0
    have hlt := second_lt a 0
    have hzero := second_byte a 0 0
    simp at hbyte hlt hzero
    show b64Decode [encode6 (a >>> 2), encode6 ((a &&& 0x03) <<< 4), padding, padding] = some [a]
    simp [b64Decode, decode6_encode6 (first_lt a), decode6_encode6 hlt, hbyte, hzero]
  | case3 a b =>
    have hfirst := first_byte a b
    have hsecond := second_byte a b 0
    have hlt := third_lt b 0
    have hzero := third_byte b 0
    simp at hsecond hlt hzero
    show b64Decode [encode6 (a >>> 2), encode6 ((a &&& 0x03) <<< 4 ||| (b &&& 0xf0) >>> 4),
      encode6 ((b &&& 0x0f) <<< 2), padding] = some [a, b]
    simp [b64Decode, decode6_encode6 (first_lt a), decode6_encode6 (second_lt a b), decode6_encode6 hlt, hfirst, hsecond,
      hzero, encode6_ne_padding hlt]
  | case4 a b c rest ih =>
    simp [b64EncodeBuffer, b64Decode, decode6_encode6 (first_lt a), decode6_encode6 (second_lt a b),
      decode6_encode6 (third_lt b c), decode6_encode6 (fourth_lt c), first_byte a b, second_byte a b c, third_byte b c,
      encode6_ne_padding (third_lt b c), encode6_ne_padding (fourth_lt c), ih]

/-! ## the digest of the key -/

/-- what `send_upgrade_response` does for the value; `buffer` is what `sha1_buffer` holds before -/
def computeAccept (first second : Vector UInt32 80) (buffer : Vector UInt8 20) (key : List UInt8) :
    Prog SHA1Context (List UInt8) := do
  let _ ← sha1Reset
  let _ ← sha1Input first key
  let (_, digest) ← sha1Result second
  return b64EncodeBuffer (digest.getD buffer).toList

theorem acceptValue_eq {E : Type} (srv : Upgrader E) (sha1 : List UInt8 → Vector UInt8 20) (key : List UInt8) :
    acceptValue { srv with sha1 := sha1 } key = b64EncodeBuffer (sha1 key).toList := rfl

/-- A server whose digest is that of the standard sends this value, whatever the stack has held before: 28 letters
from which the client reads the digest of its key. -/
theorem accept_value {E : Type} (srv : Upgrader E) (c : SHA1Context) (first second : Vector UInt32 80)
    (buffer : Vector UInt8 20) {at' : List UInt8} (h : at'.length = SEC_WEB_SOCKET_KEY_LENGTH) :
    ∃ text d, computeAccept first second buffer (at' ++ wsGuid) c = some (text, d) ∧
      text = acceptValue { srv with sha1 := sha1Digest } (at' ++ wsGuid) ∧ text.length = 28 ∧
      b64Decode text = some (sha1Digest (at' ++ wsGuid)).toList := by
  have hlength : ([] ++ (at' ++ wsGuid)).length < 2 ^ 61 := by
    rw [List.nil_append, List.length_append, h]
    decide
  have hrun : Ends (computeAccept first second buffer (at' ++ wsGuid)) c fun text _ =>
      text = b64EncodeBuffer (sha1Digest (at' ++ wsGuid)).toList := by
    refine (sha1Reset_absorbs c).bind fun _ c hc => ?_
    refine (sha1Input_absorbs first hc.2 (at' ++ wsGuid)).bind fun _ c hc => ?_
    have habsorbing := hc.2
    rw [Hashing.after_input hlength, List.nil_append] at habsorbing
    refine (sha1Result_absorbing second habsorbing).bind fun answer c hanswer => Ends.pure ?_
    rw [hanswer.1]
    rfl
  obtain ⟨text, d, hrun, htext⟩ := hrun
  have haccept : text = acceptValue { srv with sha1 := sha1Digest } (at' ++ wsGuid) := by rw [htext, acceptValue_eq]
  refine ⟨text, d, hrun, haccept, ?_, ?_⟩
  · rw [haccept, length_acceptValue]
  · rw [htext, b64Decode_encode]

/-- the value of an example key -/
theorem accept_value_sample : ∃ text d,
    computeAccept (Vector.replicate 80 0) (Vector.replicate 80 7) (Vector.replicate 20 0)
      (ascii "dGhlIHNhbXBsZSBub25jZQ==" ++ wsGuid)
      { intermediateHash := Vector.replicate 5 1, lengthLow := 3, lengthHigh := 4, messageBlockIndex := 99
        messageBlock := Vector.replicate 64 5, computed := true, corrupted := 2 } = some (text, d) ∧
    text = acceptValue
      { name := none, init := (), checkWebsocketExtensions := fun _ _ => (), extension := fun _ => none
        sha1 := sha1Digest, writes := true } (ascii "dGhlIHNhbXBsZSBub25jZQ==" ++ wsGuid) ∧ text.length = 28 ∧
    b64Decode text = some (sha1Digest (ascii "dGhlIHNhbXBsZSBub25jZQ==" ++ wsGuid)).toList :=
  accept_value
    { name := none, init := (), checkWebsocketExtensions := fun _ _ => (), extension := fun _ => none
      sha1 := sha1Digest, writes := true } _ _ _ _ (by decide)

example : ((computeAccept (Vector.replicate 80 0) (Vector.replicate 80 7) (Vector.replicate 20 0)
    (ascii "dGhlIHNhbXBsZSBub25jZQ==" ++ wsGuid)
    { intermediateHash := Vector.replicate 5 1, lengthLow := 3, lengthHigh := 4, messageBlockIndex := 99
      messageBlock := Vector.replicate 64 5, computed := true, corrupted := 2 }).map Prod.fst)
    = some (ascii "s3pPLMBiTxaQ9kYGzzhZRbK+xOo=") := by
  decide +kernel

end Websocket
end Cjet
