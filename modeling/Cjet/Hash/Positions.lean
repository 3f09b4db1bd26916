import Cjet.Hash.Hopscotch
import Mathlib.Data.Nat.ModEq

/-!
# Slots and bits of the hash table

The slots of the bucket `h` are `slotAt h 0`, `slotAt h 1`, ...; the positions wrap at the end of the table.

* `slotAt`         the slot at a distance, and how the arithmetic of the code computes it;
* `hops`           the distances that a bitmap says, and the loop of the lookup as a walk over them.
-/

set_option linter.unusedVariables false

namespace Cjet
namespace Hopscotch

section
variable {order : Nat}

/-! ## positions -/

/-- the slot at the distance `i` from `h` -/
def slotAt (h : Pos order) (i : Nat) : Pos order := wrapPos (h + i)

theorem slotAt_zero (h : Pos order) : slotAt h 0 = h :=
  Fin.ext (Nat.mod_eq_of_lt h.isLt)

/-- the next slot -/
theorem wrapPos_slotAt (h : Pos order) (i j : Nat) : wrapPos ((slotAt h i : Pos order) + j) = slotAt h (i + j) := by
  refine Fin.ext ?_
  show ((h + i) % tableSize order + j) % tableSize order = (h + (i + j)) % tableSize order
  rw [Nat.mod_add_mod, Nat.add_assoc]

theorem slotAt_slotAt (h : Pos order) (i j : Nat) : slotAt (slotAt h i) j = slotAt h (i + j) := wrapPos_slotAt h i j

/-- a bucket does not meet itself before the end of the table -/
theorem slotAt_inj {h : Pos order} {i j : Nat} (hi : i < tableSize order) (hj : j < tableSize order)
    (h1 : slotAt h i = slotAt h j) : i = j := by
  have e : (h + i) % tableSize order = (h + j) % tableSize order := congrArg Fin.val h1
  have e1 : i % tableSize order = j % tableSize order := Nat.ModEq.add_left_cancel' h e
  rwa [Nat.mod_eq_of_lt hi, Nat.mod_eq_of_lt hj] at e1

theorem tableSize_le (ho : order ≤ 30) : tableSize order ≤ 2 ^ 30 := Nat.pow_le_pow_right (by omega) ho

/-- the slots of a bucket do not meet in the table -/
theorem tableSize_ge (ho : 5 ≤ order) : 32 ≤ tableSize order := by
  have h : 2 ^ 5 ≤ 2 ^ order := Nat.pow_le_pow_right (by omega) ho
  exact h

theorem sub32_mod (ho : order ≤ 30) (a b : Nat) :
    sub32 a b % tableSize order = (a + 2 ^ 32 - b) % tableSize order := by
  unfold sub32
  have hdvd : tableSize order ∣ 2 ^ 32 := Nat.pow_dvd_pow 2 (by omega)
  exact Nat.mod_mod_of_dvd _ hdvd

/-- going back and forth -/
theorem slotAt_back (ho : order ≤ 30) (p : Pos order) {d : Nat} (hd : d ≤ 2 ^ 32) :
    slotAt (wrapPos (sub32 p d) : Pos order) d = p := by
  refine Fin.ext ?_
  show (sub32 p d % tableSize order + d) % tableSize order = p
  have hdvd : tableSize order ∣ 2 ^ 32 := Nat.pow_dvd_pow 2 (by omega)
  obtain ⟨m, hm⟩ := hdvd
  have hp := p.isLt
  have e : (p + 2 ^ 32 - d) + d = p + tableSize order * m := by omega
  rw [sub32_mod ho, Nat.mod_add_mod, e, Nat.add_mul_mod_self_left, Nat.mod_eq_of_lt hp]

/-- the distance of a slot from its bucket -/
theorem distance_slotAt (ho : order ≤ 30) (h : Pos order) {d : Nat} (hd : d < tableSize order) :
    ((wrapPos (sub32 (slotAt h d) h) : Pos order) : Nat) = d := by
  have hsize := tableSize_le ho
  have hh := h.isLt
  have hback := slotAt_back ho (slotAt h d) (d := h) (by omega)
  have e : slotAt (wrapPos (sub32 (slotAt h d) h) : Pos order) h = slotAt (⟨d, hd⟩ : Pos order) h := by
    rw [hback]
    refine Fin.ext ?_
    show (h + d) % tableSize order = (d + h) % tableSize order
    rw [Nat.add_comm]
  have e1 : ((wrapPos (sub32 (slotAt h d) h) : Pos order) + h) % tableSize order = (d + h) % tableSize order :=
    congrArg Fin.val e
  have e2 := Nat.ModEq.add_right_cancel' h e1
  have e3 : ((wrapPos (sub32 (slotAt h d) h) : Pos order) : Nat) % tableSize order = d % tableSize order := e2
  rwa [Nat.mod_eq_of_lt (Fin.isLt _), Nat.mod_eq_of_lt hd] at e3

/-- the slot behind another one -/
theorem back_slotAt (ho : order ≤ 30) (h : Pos order) {d i : Nat} (hi : i ≤ d) (hd : d < tableSize order) :
    wrapPos (sub32 (slotAt h d) i) = slotAt h (d - i) := by
  have hsize := tableSize_le ho
  have hback := slotAt_back ho (slotAt h d) (d := i) (by omega)
  have e : slotAt (wrapPos (sub32 (slotAt h d) i) : Pos order) i = slotAt (slotAt h (d - i)) i := by
    rw [hback, slotAt_slotAt, Nat.sub_add_cancel hi]
  have e1 : ((wrapPos (sub32 (slotAt h d) i) : Pos order) + i) % tableSize order
      = ((slotAt h (d - i) : Pos order) + i) % tableSize order := congrArg Fin.val e
  have e2 := Nat.ModEq.add_right_cancel' i e1
  refine Fin.ext ?_
  have e3 : ((wrapPos (sub32 (slotAt h d) i) : Pos order) : Nat) % tableSize order
      = ((slotAt h (d - i) : Pos order) : Nat) % tableSize order := e2
  rwa [Nat.mod_eq_of_lt (Fin.isLt _), Nat.mod_eq_of_lt (Fin.isLt _)] at e3

end

/-! ## bits -/

theorem bit_set (x : BitVec 32) {d j : Nat} (hj : j < 32) :
    (x ||| 1#32 <<< d).getLsbD j = (x.getLsbD j || decide (j = d)) := by
  rw [BitVec.getLsbD_or, BitVec.getLsbD_shiftLeft, BitVec.getLsbD_one]
  by_cases e : j = d
  · subst e
    simp [hj]
  · by_cases hlt : j < d
    · simp [hlt, e]
    · have : ¬ (j - d = 0) := by omega
      simp [hlt, e, this]

theorem bit_clear (x : BitVec 32) {d j : Nat} (hj : j < 32) :
    (x &&& ~~~(1#32 <<< d)).getLsbD j = (x.getLsbD j && !decide (j = d)) := by
  have h := bit_set 0#32 (d := d) hj
  rw [BitVec.getLsbD_or, BitVec.getLsbD_zero, Bool.false_or, Bool.false_or] at h
  rw [BitVec.getLsbD_and, BitVec.getLsbD_not, h]
  simp [hj]

theorem bit_test (x : BitVec 32) {i : Nat} (hi : i < 32) : (1#32 <<< i &&& x != 0) = x.getLsbD i := by
  have h := fun j (hj : j < 32) => bit_set 0#32 (d := i) hj
  cases hx : x.getLsbD i with
  | true =>
    rw [bne_iff_ne]
    intro e
    have e1 := congrArg (fun y => y.getLsbD i) e
    have h1 := h i hi
    rw [BitVec.getLsbD_or, BitVec.getLsbD_zero, Bool.false_or] at h1
    simp [BitVec.getLsbD_and, h1, hx] at e1
  | false =>
    rw [bne_eq_false_iff_eq]
    refine BitVec.eq_of_getLsbD_eq fun j hj => ?_
    have h1 := h j hj
    rw [BitVec.getLsbD_or, BitVec.getLsbD_zero, Bool.false_or] at h1
    rw [BitVec.getLsbD_and, h1]
    by_cases e : j = i
    · subst e
      simp [hx]
    · simp [e]

theorem bit_low (x : BitVec 32) : x &&& 1 = 1 ↔ x.getLsbD 0 = true := by
  have h1 : ∀ i, (1 : BitVec 32).getLsbD i = decide (i = 0) := fun i => by
    show (1#32).getLsbD i = _
    rw [BitVec.getLsbD_one]
    simp
  constructor
  · intro e
    have e1 := congrArg (fun y => y.getLsbD 0) e
    have e2 : (x &&& 1).getLsbD 0 = (1 : BitVec 32).getLsbD 0 := e1
    rw [BitVec.getLsbD_and, h1] at e2
    simpa using e2
  · intro h
    refine BitVec.eq_of_getLsbD_eq fun i hi => ?_
    rw [BitVec.getLsbD_and, h1]
    by_cases e : i = 0
    · rw [e, h]
      rfl
    · simp [e]

/-- the distances in a bitmap, in the order in which they are looked at -/
def hops (x : BitVec 32) : List Nat := (List.range 32).filter fun i => x.getLsbD i

theorem mem_hops (x : BitVec 32) (i : Nat) : i ∈ hops x ↔ x.getLsbD i = true := by
  unfold hops
  rw [List.mem_filter, List.mem_range]
  constructor
  · exact fun h => h.2
  · intro h
    exact ⟨BitVec.lt_of_getLsbD h, h⟩

end Hopscotch
end Cjet
