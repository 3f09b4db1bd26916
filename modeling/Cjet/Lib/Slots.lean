import Mathlib.Data.List.Basic
import Mathlib.Data.List.Count
import Mathlib.Data.List.Nodup

/-!
# Tables of slots with holes

A table is a list of optional entries.  An entry goes into the first free slot (`Slots.insert`),
which a full table gets by growing (`Slots.grow`), and leaves its slot free again when it is
removed (`Slots.erase`): a table represents the multiset of its entries whatever its length and
the position of its holes.

* `Slots.perm_insert`, `Slots.entries_erase`   what the operations do to the entries;
* `Slots.exists_insert_grow`   a table that has grown takes an entry.
-/

set_option linter.unusedVariables false

namespace Stateful
namespace Slots
variable {α : Type}

/-- the entries in slot order -/
def entries (t : List (Option α)) : List α := t.filterMap id

/-- puts `a` into the first free slot -/
def insert : List (Option α) → α → Option (List (Option α))
  | [], _ => none
  | none :: t, a => some (some a :: t)
  | some b :: t, a => (insert t a).map (some b :: ·)

/-- a longer table with the same entries -/
def grow (size : Nat) (t : List (Option α)) : List (Option α) :=
  t ++ List.replicate (size - t.length) none

/-- frees the slots that hold `a` -/
def erase [DecidableEq α] (t : List (Option α)) (a : α) : List (Option α) :=
  t.map fun s => if s = some a then none else s

theorem entries_none (t : List (Option α)) : entries (none :: t) = entries t := rfl
theorem entries_some (a : α) (t : List (Option α)) : entries (some a :: t) = a :: entries t := rfl

theorem entries_append (s t : List (Option α)) : entries (s ++ t) = entries s ++ entries t :=
  List.filterMap_append

theorem entries_replicate (n : Nat) : entries (List.replicate n (none : Option α)) = [] := by
  induction n with
  | zero => rfl
  | succ n ih => rw [List.replicate_succ, entries_none, ih]

theorem entries_grow (size : Nat) (t : List (Option α)) : entries (grow size t) = entries t := by
  unfold grow
  rw [entries_append, entries_replicate, List.append_nil]

theorem mem_entries (t : List (Option α)) (a : α) : a ∈ entries t ↔ some a ∈ t := by
  simp [entries]

/-! ## insertion -/

theorem insert_eq_none {t : List (Option α)} {a : α} (h : insert t a = none) : none ∉ t := by
  induction t with
  | nil => simp
  | cons s t ih =>
    cases s with
    | none => exact absurd h (by simp [insert])
    | some b =>
      have h' : insert t a = none := by simpa [insert] using h
      simpa using ih h'

theorem exists_insert {t : List (Option α)} (h : none ∈ t) (a : α) : ∃ t', insert t a = some t' := by
  cases e : insert t a with
  | some t' => exact ⟨t', rfl⟩
  | none => exact absurd h (insert_eq_none e)

/-- an insertion adds one entry and keeps the others -/
theorem perm_insert {t t' : List (Option α)} {a : α} (h : insert t a = some t') :
    (entries t').Perm (a :: entries t) := by
  induction t generalizing t' with
  | nil => exact absurd h (by simp [insert])
  | cons s t ih =>
    cases s with
    | none =>
      obtain rfl : some a :: t = t' := by simpa [insert] using h
      exact List.Perm.refl _
    | some b =>
      obtain ⟨u, hu, rfl⟩ : ∃ u, insert t a = some u ∧ some b :: u = t' := by
        simpa [insert] using h
      rw [entries_some, entries_some]
      exact ((ih hu).cons b).trans (List.Perm.swap a b _)

theorem perm_insert_grow {size : Nat} {t t' : List (Option α)} {a : α}
    (h : insert (grow size t) a = some t') : (entries t').Perm (a :: entries t) := by
  have := perm_insert h
  rwa [entries_grow] at this

/-- a table that is enlarged has a free slot -/
theorem exists_insert_grow {size : Nat} {t : List (Option α)} (h : t.length < size) (a : α) :
    ∃ t', insert (grow size t) a = some t' := by
  apply exists_insert
  unfold grow
  rw [List.mem_append, List.mem_replicate]
  exact Or.inr ⟨by omega, rfl⟩

/-! ## removal -/

theorem entries_erase [DecidableEq α] (t : List (Option α)) (a : α) :
    entries (erase t a) = (entries t).filter (fun b => decide (b ≠ a)) := by
  induction t with
  | nil => rfl
  | cons s t ih =>
    have ih' : entries (t.map fun s => if s = some a then none else s)
        = (entries t).filter fun b => decide (b ≠ a) := ih
    unfold erase
    rw [List.map_cons]
    cases s with
    | none => rw [if_neg (by simp), entries_none, entries_none, ih']
    | some b =>
      rw [entries_some, List.filter_cons]
      by_cases e : b = a
      · rw [if_pos (by rw [e]), entries_none, if_neg (by simp [e]), ih']
      · rw [if_neg (by simpa using e), entries_some, if_pos (by simp [e]), ih']

theorem erase_of_notMem [DecidableEq α] {t : List (Option α)} {a : α} (h : a ∉ entries t) :
    erase t a = t := by
  unfold erase
  conv_rhs => rw [← List.map_id t]
  apply List.map_congr_left
  intro s hs
  rw [if_neg]
  · rfl
  · intro e
    rw [e] at hs
    exact h ((mem_entries t a).mpr hs)

theorem count_erase [DecidableEq α] (t : List (Option α)) (a b : α) :
    (entries (erase t a)).count b = if b = a then 0 else (entries t).count b := by
  rw [entries_erase]
  by_cases e : b = a
  · rw [if_pos e, e, List.count_eq_zero]
    simp
  · rw [if_neg e, List.count_filter (by simp [e])]

end Slots
end Stateful
