import Mathlib.Data.List.Basic
import Mathlib.Data.List.TakeWhile

/-!
# Texts with separators and hexadecimal digits

* `segment c l`          the part of `l` between its last two `c`;
* `segment_two`, `segment_one`   it is found whatever stands before it;
* `toDigits_injective`   different numbers have different hexadecimal digits;
* `notMem_toDigits`      a character that is no hexadecimal digit is not among them.
-/

set_option linter.unusedVariables false

namespace Stateful.Text

/-! ## segments -/

section
variable {α : Type} [DecidableEq α]

/-- what stands between the last two occurrences of `c`, or before the only one -/
def segment (c : α) (l : List α) : List α :=
  (((l.reverse.dropWhile (· ≠ c)).drop 1).takeWhile (· ≠ c)).reverse

theorem dropWhile_of_notMem {c : α} {a : List α} (h : c ∉ a) (l : List α) :
    (a ++ c :: l).dropWhile (· ≠ c) = c :: l := by
  induction a with
  | nil => simp
  | cons x a ih =>
    have hx : x ≠ c := fun e => h (e ▸ List.mem_cons_self)
    have ha : c ∉ a := fun hm => h (List.mem_cons_of_mem _ hm)
    rw [List.cons_append, List.dropWhile_cons_of_pos (by simpa using hx)]
    exact ih ha

theorem takeWhile_of_notMem {c : α} {a : List α} (h : c ∉ a) : a.takeWhile (· ≠ c) = a := by
  induction a with
  | nil => rfl
  | cons x a ih =>
    have hx : x ≠ c := fun e => h (e ▸ List.mem_cons_self)
    have ha : c ∉ a := fun hm => h (List.mem_cons_of_mem _ hm)
    rw [List.takeWhile_cons_of_pos (by simpa using hx), ih ha]

theorem takeWhile_append_of_notMem {c : α} {a : List α} (h : c ∉ a) (l : List α) :
    (a ++ c :: l).takeWhile (· ≠ c) = a := by
  induction a with
  | nil => simp
  | cons x a ih =>
    have hx : x ≠ c := fun e => h (e ▸ List.mem_cons_self)
    have ha : c ∉ a := fun hm => h (List.mem_cons_of_mem _ hm)
    rw [List.cons_append, List.takeWhile_cons_of_pos (by simpa using hx), ih ha]

theorem segment_one {c : α} {a e : List α} (ha : c ∉ a) (he : c ∉ e) : segment c (a ++ c :: e) = a := by
  unfold segment
  have hr : (a ++ c :: e).reverse = e.reverse ++ c :: a.reverse := by simp
  rw [hr, dropWhile_of_notMem (by simpa using he), List.drop_one, List.tail_cons,
    takeWhile_of_notMem (by simpa using ha), List.reverse_reverse]

theorem segment_two {c : α} {a e : List α} (ha : c ∉ a) (he : c ∉ e) (x : List α) :
    segment c (x ++ c :: (a ++ c :: e)) = a := by
  unfold segment
  have hr : (x ++ c :: (a ++ c :: e)).reverse = e.reverse ++ c :: (a.reverse ++ c :: x.reverse) := by simp
  rw [hr, dropWhile_of_notMem (by simpa using he), List.drop_one, List.tail_cons,
    takeWhile_append_of_notMem (by simpa using ha), List.reverse_reverse]

end

/-! ## hexadecimal digits -/

theorem digitChar_injective {m n : Nat} (hm : m < 16) (hn : n < 16) (h : m.digitChar = n.digitChar) :
    m = n := by
  have hall : ∀ a b : Fin 16, a.val.digitChar = b.val.digitChar → a = b := by decide
  exact congrArg Fin.val (hall ⟨m, hm⟩ ⟨n, hn⟩ h)

theorem toDigits_injective {m n : Nat} (h : Nat.toDigits 16 m = Nat.toDigits 16 n) : m = n := by
  induction m using Nat.strong_induction_on generalizing n with
  | _ m ih =>
    rw [Nat.toDigits_eq_if (by decide), Nat.toDigits_eq_if (n := n) (by decide)] at h
    have hmod : m % 16 < 16 := Nat.mod_lt _ (by decide)
    have hmod' : n % 16 < 16 := Nat.mod_lt _ (by decide)
    by_cases hm : m < 16 <;> by_cases hn : n < 16
    · rw [if_pos hm, if_pos hn] at h
      exact digitChar_injective hm hn (List.cons.inj h).1
    · rw [if_pos hm, if_neg hn] at h
      have hlen := congrArg List.length h
      have hpos : 0 < (Nat.toDigits 16 (n / 16)).length := Nat.length_toDigits_pos
      simp only [List.length_append, List.length_singleton] at hlen
      omega
    · rw [if_neg hm, if_pos hn] at h
      have hlen := congrArg List.length h
      have hpos : 0 < (Nat.toDigits 16 (m / 16)).length := Nat.length_toDigits_pos
      simp only [List.length_append, List.length_singleton] at hlen
      omega
    · rw [if_neg hm, if_neg hn] at h
      obtain ⟨h1, h2⟩ := List.append_inj' h rfl
      have hdiv := ih (m / 16) (by omega) h1
      have hdig := digitChar_injective hmod hmod' (List.cons.inj h2).1
      omega

theorem notMem_toDigits {c : Char} (hc : ∀ d : Fin 16, d.val.digitChar ≠ c) (n : Nat) :
    c ∉ Nat.toDigits 16 n := by
  induction n using Nat.strong_induction_on with
  | _ n ih =>
    rw [Nat.toDigits_eq_if (by decide)]
    by_cases hn : n < 16
    · rw [if_pos hn]
      simpa using (hc ⟨n, hn⟩).symm
    · rw [if_neg hn]
      have hd : c ≠ (n % 16).digitChar := (hc ⟨n % 16, Nat.mod_lt _ (by decide)⟩).symm
      simp only [List.mem_append, List.mem_singleton, not_or]
      exact ⟨ih (n / 16) (by omega), hd⟩

end Stateful.Text
