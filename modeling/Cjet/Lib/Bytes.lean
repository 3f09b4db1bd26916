import Mathlib.Algebra.Group.Nat.Defs
import Mathlib.Data.List.Basic

/-!
# Numbers as bytes in memory

* `bytesLE`, `natLE`   a number as a word of the machine, its least significant byte first, and back;
* `bytesBE`, `natBE`   the other byte order, that of the network;
* `bytesLE_xor`, `bytesLE_and`   a word operation on words is an operation on their bytes.
-/

set_option linter.unusedVariables false

namespace Stateful

/-- the first `w` bytes of the number -/
def bytesLE : Nat → Nat → List UInt8
  | 0, _ => []
  | w + 1, n => UInt8.ofNat n :: bytesLE w (n / 256)

def natLE : List UInt8 → Nat
  | [] => 0
  | b :: l => b.toNat + 256 * natLE l

def bytesBE (w n : Nat) : List UInt8 := (bytesLE w n).reverse
def natBE (l : List UInt8) : Nat := natLE l.reverse

theorem bytesLE_succ (w n : Nat) : bytesLE (w + 1) n = UInt8.ofNat n :: bytesLE w (n / 256) := rfl
theorem natLE_nil : natLE [] = 0 := rfl
theorem natLE_cons (b : UInt8) (l : List UInt8) : natLE (b :: l) = b.toNat + 256 * natLE l := rfl

theorem length_bytesLE (w n : Nat) : (bytesLE w n).length = w := by
  induction w generalizing n with
  | zero => rfl
  | succ w ih => rw [bytesLE_succ, List.length_cons, ih]

theorem length_bytesBE (w n : Nat) : (bytesBE w n).length = w := by
  rw [bytesBE, List.length_reverse, length_bytesLE]

theorem natLE_bytesLE {w n : Nat} (h : n < 256 ^ w) : natLE (bytesLE w n) = n := by
  induction w generalizing n with
  | zero =>
    have h0 : n = 0 := by omega
    rw [h0]
    rfl
  | succ w ih =>
    have hdiv : n / 256 < 256 ^ w := by
      rw [Nat.pow_succ] at h
      exact Nat.div_lt_of_lt_mul (by omega)
    have hmod : (UInt8.ofNat n).toNat = n % 256 := UInt8.toNat_ofNat'
    rw [bytesLE_succ, natLE_cons, ih hdiv, hmod]
    omega

theorem bytesLE_natLE (l : List UInt8) : bytesLE l.length (natLE l) = l := by
  induction l with
  | nil => rfl
  | cons b l ih =>
    have hb : b.toNat < 256 := b.toNat_lt
    have hdiv : (b.toNat + 256 * natLE l) / 256 = natLE l := by omega
    have hofNat : UInt8.ofNat (b.toNat + 256 * natLE l) = b := by
      apply UInt8.toNat_inj.mp
      rw [UInt8.toNat_ofNat']
      omega
    rw [List.length_cons, natLE_cons, bytesLE_succ, hdiv, hofNat, ih]

theorem natBE_bytesBE {w n : Nat} (h : n < 256 ^ w) : natBE (bytesBE w n) = n := by
  rw [natBE, bytesBE, List.reverse_reverse, natLE_bytesLE h]

theorem bytesLE_xor (w m n : Nat) : bytesLE w (m ^^^ n) = List.zipWith (· ^^^ ·) (bytesLE w m) (bytesLE w n) := by
  induction w generalizing m n with
  | zero => rfl
  | succ w ih =>
    have hdiv : (m ^^^ n) / 256 = m / 256 ^^^ n / 256 := Nat.xor_div_two_pow (n := 8)
    rw [bytesLE_succ, bytesLE_succ, bytesLE_succ, List.zipWith_cons_cons, UInt8.ofNat_xor, hdiv, ih]

theorem bytesLE_and (w m n : Nat) : bytesLE w (m &&& n) = List.zipWith (· &&& ·) (bytesLE w m) (bytesLE w n) := by
  induction w generalizing m n with
  | zero => rfl
  | succ w ih =>
    have hdiv : (m &&& n) / 256 = m / 256 &&& n / 256 := Nat.and_div_two_pow (n := 8)
    rw [bytesLE_succ, bytesLE_succ, bytesLE_succ, List.zipWith_cons_cons, UInt8.ofNat_and, hdiv, ih]

theorem bytesLE_inj {w m n : Nat} (hm : m < 256 ^ w) (hn : n < 256 ^ w) : bytesLE w m = bytesLE w n ↔ m = n := by
  constructor
  · intro h
    rw [← natLE_bytesLE hm, h, natLE_bytesLE hn]
  · intro h
    rw [h]

end Stateful
