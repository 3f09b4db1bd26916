import Cjet.Ws.Mask
import Mathlib.Logic.Function.Basic

/-!
# Unmasking in the memory (`websocket.c`)

`unmask_payload` works on the buffer that the payload was read into.  Its loops walk over addresses.

* `unmaskFrom`, `unmaskWordsFrom`   the loops over bytes and over words;
* `unmaskBuffer`             the code;
* `unmaskBuffer_bytes`       the buffer holds what `unmaskPayload` makes of its bytes;
* `unmaskBuffer_masks`       each byte of the buffer is masked with its own byte of the mask, the other bytes
                             of the memory stay.
-/

set_option linter.unusedVariables false

namespace Cjet
open Stateful

namespace Websocket

/-- the byte at each address -/
abbrev Memory := Nat → UInt8

/-- the bytes from an address on -/
def Memory.bytes (m : Memory) (a count : Nat) : List UInt8 := (List.range count).map fun j => m (a + j)

/-- a store of several bytes -/
def Memory.store : (a : Nat) → List UInt8 → Memory → Memory
  | _, [], m => m
  | a, b :: l, m => Memory.store (a + 1) l (Function.update m a b)

/-- `buffer[i] ^= mask[i % 4]` for `count` bytes from `i` on -/
def unmaskFrom (buffer : Nat) (mask : Vector UInt8 4) : (i count : Nat) → Memory → Memory
  | _, 0, m => m
  | i, count + 1, m =>
    unmaskFrom buffer mask (i + 1) count (Function.update m (buffer + i) (m (buffer + i) ^^^ maskAt mask i))

/-- `*buffer_aligned ^= aligned_mask` for `count` words from the address on -/
def unmaskWordsFrom (wordSize alignedMask : Nat) : (bufferAligned count : Nat) → Memory → Memory
  | _, 0, m => m
  | bufferAligned, count + 1, m =>
    unmaskWordsFrom wordSize alignedMask (bufferAligned + wordSize) count
      (Memory.store bufferAligned (bytesLE wordSize (natLE (m.bytes bufferAligned wordSize) ^^^ alignedMask)) m)

/-- `unmask_payload` -/
def unmaskBuffer (wordSize buffer length : Nat) (mask : Vector UInt8 4) (m : Memory) : Memory :=
  if length < wordSize then unmaskFrom buffer mask 0 length m
  else
    let preLength := (wordSize - buffer % wordSize) % wordSize
    let mainLength := (length - preLength) / wordSize
    let postLength := length - preLength - mainLength * wordSize
    let alignedMask := natLE (alignedMaskBytes wordSize preLength mask)
    let m := unmaskFrom buffer mask 0 preLength m
    let m := unmaskWordsFrom wordSize alignedMask (buffer + preLength) mainLength m
    unmaskFrom buffer mask (length - postLength) postLength m

/-! ## the bytes of the memory -/

section
variable (m : Memory)

theorem Memory.length_bytes (a count : Nat) : (m.bytes a count).length = count := by
  rw [Memory.bytes, List.length_map, List.length_range]

theorem Memory.getElem?_bytes {a count j : Nat} (h : j < count) : (m.bytes a count)[j]? = some (m (a + j)) := by
  rw [Memory.bytes, List.getElem?_map, List.getElem?_range h]
  rfl

theorem Memory.store_apply (a : Nat) (l : List UInt8) (x : Nat) :
    Memory.store a l m x = if a ≤ x then (l[x - a]?).getD (m x) else m x := by
  induction l generalizing a m with
  | nil => simp [Memory.store]
  | cons b l ih =>
    rw [Memory.store, ih]
    by_cases hlater : a + 1 ≤ x
    · have hsub : x - a = x - (a + 1) + 1 := by omega
      rw [if_pos hlater, if_pos (by omega), hsub, List.getElem?_cons_succ, Function.update_of_ne (by omega)]
    · rw [if_neg hlater]
      by_cases hhere : x = a
      · rw [hhere, Function.update_self, if_pos (Nat.le_refl a), Nat.sub_self, List.getElem?_cons_zero]
        rfl
      · rw [Function.update_of_ne hhere, if_neg (by omega)]

end

/-! ## the loops -/

section
variable (mask : Vector UInt8 4)

/-- The loop over bytes masks the bytes that it walks over. -/
theorem unmaskFrom_apply (buffer i count : Nat) (m : Memory) (x : Nat) :
    unmaskFrom buffer mask i count m x
      = if buffer + i ≤ x ∧ x < buffer + i + count then m x ^^^ maskAt mask (x - buffer) else m x := by
  induction count generalizing i m with
  | zero => rw [unmaskFrom, if_neg (by omega)]
  | succ count ih =>
    rw [unmaskFrom, ih]
    by_cases hhere : x = buffer + i
    · have hsub : buffer + i - buffer = i := by omega
      rw [if_neg (by omega), if_pos (by omega), hhere, Function.update_self, hsub]
    · rw [Function.update_of_ne hhere]
      by_cases hin : buffer + (i + 1) ≤ x ∧ x < buffer + (i + 1) + count
      · rw [if_pos hin, if_pos (by omega)]
      · rw [if_neg hin, if_neg (by omega)]

/-- one word: its bytes are masked one by one -/
theorem store_word_apply (a : Nat) (l : List UInt8) (m : Memory) (x : Nat) :
    Memory.store a (bytesLE l.length (natLE (m.bytes a l.length) ^^^ natLE l)) m x
      = if a ≤ x ∧ x < a + l.length then m x ^^^ l.getD (x - a) 0 else m x := by
  have hbytes : bytesLE l.length (natLE (m.bytes a l.length)) = m.bytes a l.length := by
    have h := bytesLE_natLE (m.bytes a l.length)
    rwa [Memory.length_bytes] at h
  rw [bytesLE_xor, hbytes, bytesLE_natLE, Memory.store_apply]
  by_cases hin : a ≤ x ∧ x < a + l.length
  · have hj : x - a < l.length := by omega
    have hx : a + (x - a) = x := by omega
    rw [if_pos hin.1, if_pos hin, List.getElem?_zipWith, Memory.getElem?_bytes m hj, hx, List.getD_eq_getElem?_getD,
      List.getElem?_eq_getElem hj]
    rfl
  · rw [if_neg hin]
    by_cases hle : a ≤ x
    · have hj : l.length ≤ x - a := by omega
      rw [if_pos hle, List.getElem?_zipWith, List.getElem?_eq_none hj]
      cases (m.bytes a l.length)[x - a]? <;> rfl
    · rw [if_neg hle]

/-- The loop over words masks with the bytes of the word, over and over. -/
theorem unmaskWordsFrom_apply {word : List UInt8} (hpos : 0 < word.length) (a count : Nat) (m : Memory) (x : Nat) :
    unmaskWordsFrom word.length (natLE word) a count m x
      = if a ≤ x ∧ x < a + count * word.length then m x ^^^ word.getD ((x - a) % word.length) 0 else m x := by
  induction count generalizing a m with
  | zero => rw [unmaskWordsFrom, if_neg (by omega)]
  | succ count ih =>
    have hsucc : (count + 1) * word.length = word.length + count * word.length := by rw [Nat.succ_mul, Nat.add_comm]
    rw [unmaskWordsFrom, ih, store_word_apply]
    by_cases hlater : a + word.length ≤ x
    · have hmod : (x - a) % word.length = (x - (a + word.length)) % word.length := by
        rw [← Nat.sub_sub, ← Nat.mod_eq_sub_mod (by omega)]
      rw [if_neg (c := a ≤ x ∧ x < a + word.length) (by omega), hmod]
      by_cases hin : a + word.length ≤ x ∧ x < a + word.length + count * word.length
      · rw [if_pos hin, if_pos (by omega)]
      · rw [if_neg hin, if_neg (by omega)]
    · rw [if_neg (by omega)]
      by_cases hin : a ≤ x ∧ x < a + word.length
      · rw [if_pos hin, if_pos (by omega), Nat.mod_eq_of_lt (by omega)]
      · rw [if_neg hin, if_neg (by omega)]

/-! ## all of it -/

theorem length_alignedMaskBytes (wordSize preLength : Nat) :
    (alignedMaskBytes wordSize preLength mask).length = wordSize := by
  rw [alignedMaskBytes, List.length_map, List.length_range]

theorem getD_alignedMaskBytes {wordSize j : Nat} (preLength : Nat) (h : j < wordSize) :
    (alignedMaskBytes wordSize preLength mask).getD j 0 = maskAt mask (j + preLength) := by
  rw [alignedMaskBytes, List.getD_eq_getElem?_getD, List.getElem?_map, List.getElem?_range h]
  rfl

/-- The head, the words and the tail cover the buffer, and the words use the bytes of the mask in turn. -/
theorem unmaskBuffer_apply {wordSize : Nat} (hword : wordSize = 4 ∨ wordSize = 8) (buffer length : Nat) (m : Memory)
    (x : Nat) :
    unmaskBuffer wordSize buffer length mask m x
      = if buffer ≤ x ∧ x < buffer + length then m x ^^^ maskAt mask (x - buffer) else m x := by
  have hpos : 0 < wordSize := by omega
  have hdvd : 4 ∣ wordSize := by
    rcases hword with rfl | rfl
    · decide
    · decide
  unfold unmaskBuffer
  by_cases hshort : length < wordSize
  · rw [if_pos hshort, unmaskFrom_apply, Nat.add_zero]
  rw [if_neg hshort]
  have hpre : (wordSize - buffer % wordSize) % wordSize < wordSize := Nat.mod_lt _ hpos
  generalize (wordSize - buffer % wordSize) % wordSize = preLength at hpre
  have hmain := Nat.div_mul_le_self (length - preLength) wordSize
  generalize (length - preLength) / wordSize = mainLength at hmain
  have hlen := length_alignedMaskBytes mask wordSize preLength
  have hwords : ∀ (m : Memory) (x : Nat),
      unmaskWordsFrom wordSize (natLE (alignedMaskBytes wordSize preLength mask)) (buffer + preLength) mainLength m x
        = if buffer + preLength ≤ x ∧ x < buffer + preLength + mainLength * wordSize
          then m x ^^^ maskAt mask (x - buffer) else m x := by
    intro m x
    have h := unmaskWordsFrom_apply (show 0 < (alignedMaskBytes wordSize preLength mask).length by omega)
      (buffer + preLength) mainLength m x
    rw [hlen] at h
    rw [h]
    by_cases hin : buffer + preLength ≤ x ∧ x < buffer + preLength + mainLength * wordSize
    · rw [if_pos hin, if_pos hin, getD_alignedMaskBytes mask preLength (Nat.mod_lt _ hpos)]
      have hturn : ((x - (buffer + preLength)) % wordSize + preLength) % 4 = (x - buffer) % 4 := by
        have h4 := Nat.mod_mod_of_dvd (x - (buffer + preLength)) hdvd
        omega
      rw [maskAt_congr hturn]
    · rw [if_neg hin, if_neg hin]
  rw [unmaskFrom_apply, hwords, unmaskFrom_apply]
  by_cases hbefore : x < buffer
  · rw [if_neg (by omega), if_neg (by omega), if_neg (by omega), if_neg (by omega)]
  by_cases hhead : x < buffer + preLength
  · rw [if_neg (by omega), if_neg (by omega), if_pos (by omega), if_pos (by omega)]
  by_cases hbody : x < buffer + preLength + mainLength * wordSize
  · rw [if_neg (by omega), if_pos (by omega), if_neg (by omega), if_pos (by omega)]
  by_cases htail : x < buffer + length
  · rw [if_pos (by omega), if_neg (by omega), if_neg (by omega), if_pos (by omega)]
  · rw [if_neg (by omega), if_neg (by omega), if_neg (by omega), if_neg (by omega)]

theorem getElem?_unmaskBytes (start : Nat) (l : List UInt8) (j : Nat) :
    (unmaskBytes mask start l)[j]? = (l[j]?).map fun b => b ^^^ maskAt mask (start + j) := by
  induction l generalizing start j with
  | nil => rfl
  | cons b l ih =>
    cases j with
    | zero => rfl
    | succ j =>
      rw [unmaskBytes, List.getElem?_cons_succ, List.getElem?_cons_succ, ih, Nat.add_right_comm, Nat.add_assoc]

/-- The buffer holds what `unmaskPayload` makes of its bytes. -/
theorem unmaskBuffer_bytes {wordSize : Nat} (hword : wordSize = 4 ∨ wordSize = 8) (buffer length : Nat) (m : Memory) :
    (unmaskBuffer wordSize buffer length mask m).bytes buffer length
      = unmaskPayload wordSize buffer (m.bytes buffer length) mask := by
  rw [unmaskPayload_eq mask hword]
  apply List.ext_getElem?
  intro j
  rw [getElem?_unmaskBytes, Nat.zero_add]
  by_cases hj : j < length
  · have hsub : buffer + j - buffer = j := by omega
    rw [Memory.getElem?_bytes _ hj, Memory.getElem?_bytes _ hj, unmaskBuffer_apply mask hword, if_pos (by omega), hsub]
    rfl
  · rw [List.getElem?_eq_none (by rw [Memory.length_bytes]; omega),
      List.getElem?_eq_none (by rw [Memory.length_bytes]; omega)]
    rfl

/-- **Each byte of the buffer is masked with its own byte of the mask**, at any address, the other bytes of the
memory stay, and unmasking again restores the memory. -/
theorem unmaskBuffer_masks (wordSize : Nat) (hword : wordSize = 4 ∨ wordSize = 8) (buffer length : Nat) (m : Memory) :
    (∀ i, i < length → unmaskBuffer wordSize buffer length mask m (buffer + i) = m (buffer + i) ^^^ maskAt mask i) ∧
      (∀ a, a < buffer ∨ buffer + length ≤ a → unmaskBuffer wordSize buffer length mask m a = m a) ∧
      unmaskBuffer wordSize buffer length mask (unmaskBuffer wordSize buffer length mask m) = m := by
  refine ⟨fun i hi => ?_, fun a ha => ?_, ?_⟩
  · have hsub : buffer + i - buffer = i := by omega
    rw [unmaskBuffer_apply mask hword, if_pos (by omega), hsub]
  · rw [unmaskBuffer_apply mask hword, if_neg (by omega)]
  · funext x
    rw [unmaskBuffer_apply mask hword, unmaskBuffer_apply mask hword]
    by_cases hin : buffer ≤ x ∧ x < buffer + length
    · rw [if_pos hin, if_pos hin, UInt8.xor_assoc, UInt8.xor_self, UInt8.xor_zero]
    · rw [if_neg hin, if_neg hin]

theorem unaligned_masked :
    unmaskBuffer 4 3 9 #v[1, 2, 3, 4] (fun _ => 0) (3 + 8) = 0 ^^^ maskAt #v[1, 2, 3, 4] 8 :=
  (unmaskBuffer_masks #v[1, 2, 3, 4] 4 (by decide) 3 9 fun _ => 0).1 8 (by decide)

end
end Websocket
end Cjet
