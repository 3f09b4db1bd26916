import Cjet.Lib.Bytes

/-!
# Unmasking a payload (`websocket.c`)

The payload of a frame is unmasked in place, byte by byte up to an aligned address, then by words, then
byte by byte again.

* `unmaskPayload`            the code;
* `unmaskPayload_eq`         all of it is one loop over the bytes;
* `unmaskBytes_unmaskBytes`   unmasking undoes masking.
-/

set_option linter.unusedVariables false

namespace Cjet
open Stateful

namespace Websocket

/-- `mask[i % 4]` -/
def maskAt (mask : Vector UInt8 4) (i : Nat) : UInt8 := mask.get ⟨i % 4, Nat.mod_lt i (by decide)⟩

/-- `buffer[i] ^= mask[i % 4]` for the bytes from `start` on -/
def unmaskBytes (mask : Vector UInt8 4) : (start : Nat) → List UInt8 → List UInt8
  | _, [] => []
  | start, b :: l => (b ^^^ maskAt mask start) :: unmaskBytes mask (start + 1) l

/-- `*buffer_aligned ^= aligned_mask` for `count` words -/
def unmaskWords (wordSize alignedMask : Nat) : (count : Nat) → List UInt8 → List UInt8
  | 0, l => l
  | count + 1, l =>
    bytesLE wordSize (natLE (l.take wordSize) ^^^ alignedMask) ++ unmaskWords wordSize alignedMask count (l.drop wordSize)

/-- the bytes of `aligned_mask` -/
def alignedMaskBytes (wordSize preLength : Nat) (mask : Vector UInt8 4) : List UInt8 :=
  (List.range wordSize).map fun i => maskAt mask (i + preLength)

/-- `unmask_payload`; the word is a `uint_fast32_t`, the buffer is at `address` -/
def unmaskPayload (wordSize address : Nat) (buffer : List UInt8) (mask : Vector UInt8 4) : List UInt8 :=
  if buffer.length < wordSize then unmaskBytes mask 0 buffer
  else
    let preLength := (wordSize - address % wordSize) % wordSize
    let mainLength := (buffer.length - preLength) / wordSize
    let postLength := buffer.length - preLength - mainLength * wordSize
    let alignedMask := natLE (alignedMaskBytes wordSize preLength mask)
    unmaskBytes mask 0 (buffer.take preLength) ++
      unmaskWords wordSize alignedMask mainLength ((buffer.drop preLength).take (mainLength * wordSize)) ++
      unmaskBytes mask (buffer.length - postLength) (buffer.drop (buffer.length - postLength))

section
variable (mask : Vector UInt8 4)

theorem length_unmaskBytes (start : Nat) (l : List UInt8) : (unmaskBytes mask start l).length = l.length := by
  induction l generalizing start with
  | nil => rfl
  | cons b l ih => rw [unmaskBytes, List.length_cons, List.length_cons, ih]

theorem unmaskBytes_append (start : Nat) (l m : List UInt8) :
    unmaskBytes mask start (l ++ m) = unmaskBytes mask start l ++ unmaskBytes mask (start + l.length) m := by
  induction l generalizing start with
  | nil => rfl
  | cons b l ih =>
    have hstart : start + 1 + l.length = start + (b :: l).length := by
      rw [List.length_cons]
      omega
    rw [List.cons_append, unmaskBytes, unmaskBytes, ih, hstart, List.cons_append]

theorem unmaskBytes_unmaskBytes (start : Nat) (l : List UInt8) :
    unmaskBytes mask start (unmaskBytes mask start l) = l := by
  induction l generalizing start with
  | nil => rfl
  | cons b l ih => rw [unmaskBytes, unmaskBytes, ih, UInt8.xor_assoc, UInt8.xor_self, UInt8.xor_zero]

theorem maskAt_congr {mask : Vector UInt8 4} {i j : Nat} (h : i % 4 = j % 4) : maskAt mask i = maskAt mask j := by
  unfold maskAt
  congr 2

/-- the bytes of a word, at a position that the word size divides up to the alignment -/
theorem zipWith_alignedMask (l : List UInt8) (start preLength : Nat) (h : start % 4 = preLength % 4) :
    List.zipWith (· ^^^ ·) l (alignedMaskBytes l.length preLength mask) = unmaskBytes mask start l := by
  unfold alignedMaskBytes
  induction l generalizing start preLength with
  | nil => rfl
  | cons b l ih =>
    have hnext : (start + 1) % 4 = (preLength + 1) % 4 := by omega
    have htail : (List.range l.length).map (fun i => maskAt mask (i + 1 + preLength))
        = (List.range l.length).map fun i => maskAt mask (i + (preLength + 1)) := by
      refine List.map_congr_left fun i _ => ?_
      rw [Nat.add_assoc, Nat.add_comm 1 preLength]
    rw [List.length_cons, List.range_succ_eq_map, List.map_cons, List.map_map, List.zipWith_cons_cons, unmaskBytes]
    show (b ^^^ maskAt mask (0 + preLength)) ::
      List.zipWith (· ^^^ ·) l ((List.range l.length).map fun i => maskAt mask (i + 1 + preLength)) = _
    rw [htail, ih (start + 1) (preLength + 1) hnext, Nat.zero_add, maskAt_congr h]

theorem unmaskWords_eq {wordSize : Nat} (hword : 4 ∣ wordSize) (preLength : Nat) {count : Nat}
    {l : List UInt8} (start : Nat)
    (hl : l.length = count * wordSize) (h : start % 4 = preLength % 4) :
    unmaskWords wordSize (natLE (alignedMaskBytes wordSize preLength mask)) count l = unmaskBytes mask start l := by
  induction count generalizing l start with
  | zero =>
    have hnil : l = [] := by
      apply List.eq_nil_of_length_eq_zero
      omega
    rw [hnil]
    rfl
  | succ count ih =>
    have hfirst : (l.take wordSize).length = wordSize := by
      rw [List.length_take, hl, Nat.succ_mul]
      omega
    have hrest : (l.drop wordSize).length = count * wordSize := by
      rw [List.length_drop, hl, Nat.succ_mul]
      omega
    have hmask : (alignedMaskBytes wordSize preLength mask).length = wordSize := by
      rw [alignedMaskBytes, List.length_map, List.length_range]
    have hword4 : (start + wordSize) % 4 = preLength % 4 := by omega
    have hxor : bytesLE wordSize (natLE (l.take wordSize) ^^^ natLE (alignedMaskBytes wordSize preLength mask))
        = unmaskBytes mask start (l.take wordSize) := by
      have h1 := bytesLE_natLE (l.take wordSize)
      have h2 := bytesLE_natLE (alignedMaskBytes wordSize preLength mask)
      have h3 := zipWith_alignedMask mask (l.take wordSize) start preLength h
      rw [hfirst] at h1 h3
      rw [hmask] at h2
      rw [bytesLE_xor, h1, h2, h3]
    rw [unmaskWords, hxor, ih (start + wordSize) hrest hword4]
    have hall := unmaskBytes_append mask start (l.take wordSize) (l.drop wordSize)
    rw [List.take_append_drop, hfirst] at hall
    exact hall.symm

/-- **Word-wise unmasking is byte-wise unmasking**, at any address. -/
theorem unmaskPayload_eq {wordSize : Nat} (hword : wordSize = 4 ∨ wordSize = 8) (address : Nat) (buffer : List UInt8) :
    unmaskPayload wordSize address buffer mask = unmaskBytes mask 0 buffer := by
  have hdvd : 4 ∣ wordSize := by
    rcases hword with rfl | rfl
    · decide
    · decide
  have hpos : 0 < wordSize := by omega
  unfold unmaskPayload
  by_cases hshort : buffer.length < wordSize
  · rw [if_pos hshort]
  rw [if_neg hshort]
  dsimp only
  have hpre : (wordSize - address % wordSize) % wordSize < wordSize := Nat.mod_lt _ hpos
  generalize (wordSize - address % wordSize) % wordSize = preLength at hpre
  have hmain := Nat.div_mul_le_self (buffer.length - preLength) wordSize
  generalize (buffer.length - preLength) / wordSize = mainLength at hmain
  have hend : buffer.length - (buffer.length - preLength - mainLength * wordSize)
      = preLength + mainLength * wordSize := by
    omega
  have htake : (buffer.take preLength).length = preLength := by
    rw [List.length_take]
    omega
  have hwords : ((buffer.drop preLength).take (mainLength * wordSize)).length = mainLength * wordSize := by
    rw [List.length_take, List.length_drop]
    omega
  rw [hend, unmaskWords_eq mask hdvd preLength preLength hwords rfl]
  have hsplit : buffer.take preLength ++ (buffer.drop preLength).take (mainLength * wordSize)
      ++ buffer.drop (preLength + mainLength * wordSize) = buffer := by
    rw [← List.drop_drop, List.append_assoc, List.take_append_drop, List.take_append_drop]
  have hall : unmaskBytes mask 0 buffer
      = unmaskBytes mask 0 (buffer.take preLength) ++
          unmaskBytes mask preLength ((buffer.drop preLength).take (mainLength * wordSize)) ++
          unmaskBytes mask (preLength + mainLength * wordSize) (buffer.drop (preLength + mainLength * wordSize)) := by
    conv_lhs => rw [← hsplit]
    rw [unmaskBytes_append, unmaskBytes_append, List.length_append, htake, hwords, Nat.zero_add, Nat.zero_add]
  exact hall.symm

end
end Websocket
end Cjet
