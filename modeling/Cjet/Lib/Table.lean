import Mathlib.Algebra.Group.Nat.Defs
import Mathlib.Data.List.Basic

/-!
# Tables that may refuse an entry

`HashTable T` says what the code relies on of a string-keyed hash table of fixed size: it is a
finite map whose `put` may refuse a new key because it finds no room for it (and then changes
nothing that a lookup sees), and whose slots can be visited one by one.

* `HashTable.get_slot`   every stored key stands in one of the slots;
* `HashTable.slot_remove`   removing a key leaves the slots of other keys as they were;
* `HashTable.get_drain_range`   removing the key of one slot after the other empties the table;
* `SlotTable`   the plainest such table: an array of entries, searched from its start.
-/

set_option linter.unusedVariables false

namespace Stateful

class HashTable (T : Type) where
  /-- an empty table of `2 ^ order` slots -/
  create : Nat → T
  get : T → String → Option Nat
  /-- `false`: the table is full -/
  put : T → String → Nat → Bool × T
  remove : T → String → Option Nat × T
  size : T → Nat
  /-- the key that stands in a slot -/
  slot : T → Nat → Option String
  get_create : ∀ o k, get (create o) k = none
  get_put_ok : ∀ t k v k', (put t k v).1 = true →
    get (put t k v).2 k' = if k' = k then some v else get t k'
  get_put_full : ∀ t k v k', (put t k v).1 = false → get (put t k v).2 k' = get t k'
  remove_fst : ∀ t k, (remove t k).1 = get t k
  get_remove : ∀ t k k', get (remove t k).2 k' = if k' = k then none else get t k'
  get_slot : ∀ t k v, get t k = some v → ∃ i, i < size t ∧ slot t i = some k
  slot_remove : ∀ t k i, slot t i ≠ some k → slot (remove t k).2 i = slot t i

/-! ## draining a table slot by slot -/

namespace HashTable
variable {T : Type} [HashTable T]

/-- removes the key that stands in slot `i`, if there is one -/
def drainSlot (t : T) (i : Nat) : T :=
  match slot t i with
  | none => t
  | some k => (remove t k).2

def drain (t : T) (l : List Nat) : T := l.foldl drainSlot t

theorem drain_nil (t : T) : drain t [] = t := rfl
theorem drain_cons (t : T) (i : Nat) (l : List Nat) : drain t (i :: l) = drain (drainSlot t i) l := rfl

theorem get_drainSlot_none {t : T} {k : String} (i : Nat) (h : get t k = none) :
    get (drainSlot t i) k = none := by
  unfold drainSlot
  cases slot t i with
  | none => exact h
  | some k' =>
    show get (remove t k').2 k = none
    rw [get_remove, h]
    exact ite_self _

theorem get_drain_none {t : T} {k : String} (l : List Nat) (h : get t k = none) :
    get (drain t l) k = none := by
  induction l generalizing t with
  | nil => exact h
  | cons i l ih => exact ih (get_drainSlot_none i h)

/-- a key that stands in a visited slot stays there until it is removed -/
theorem get_drain_of_slot {t : T} {k : String} {i : Nat} {l : List Nat} (hs : slot t i = some k)
    (hi : i ∈ l) : get (drain t l) k = none := by
  induction l generalizing t with
  | nil => exact absurd hi (by simp)
  | cons j l ih =>
    rw [drain_cons]
    unfold drainSlot
    cases hj : slot t j with
    | none =>
      rcases List.mem_cons.mp hi with e | hl
      · rw [e, hj] at hs; cases hs
      · exact ih hs hl
    | some k' =>
      show get (drain (remove t k').2 l) k = none
      by_cases e : k = k'
      · exact get_drain_none l (by rw [get_remove, if_pos e])
      · have hs' : slot (remove t k').2 i = some k := by
          rw [slot_remove t k' i (by rw [hs]; simpa using e), hs]
        rcases List.mem_cons.mp hi with e' | hl
        · rw [← e', hs] at hj
          exact absurd (Option.some.inj hj) e
        · exact ih hs' hl

/-- a loop over all slots empties the table, although it removes while it goes -/
theorem get_drain_range (t : T) (k : String) : get (drain t (List.range (size t))) k = none := by
  cases h : get t k with
  | none => exact get_drain_none _ h
  | some v =>
    obtain ⟨i, hi, hs⟩ := get_slot t k v h
    exact get_drain_of_slot hs (List.mem_range.mpr hi)

end HashTable

/-! ## an array of entries -/

structure SlotTable where
  slots : List (Option (String × Nat))

namespace SlotTable

def holds (k : String) : Option (String × Nat) → Bool
  | some e => e.1 == k
  | none => false

def find (k : String) (l : List (Option (String × Nat))) : Option Nat :=
  ((l.find? (holds k)).bind id).map (·.2)

/-- overwrites the first slot that `c` accepts -/
def setFirst (c : Option (String × Nat) → Bool) (e : Option (String × Nat)) :
    List (Option (String × Nat)) → List (Option (String × Nat))
  | [] => []
  | x :: xs => if c x then e :: xs else x :: setFirst c e xs

def put (t : SlotTable) (k : String) (v : Nat) : Bool × SlotTable :=
  if (find k t.slots).isSome then (true, ⟨setFirst (holds k) (some (k, v)) t.slots⟩)
  else if t.slots.any (·.isNone) then (true, ⟨setFirst (·.isNone) (some (k, v)) t.slots⟩)
  else (false, t)

/-- empties every slot that holds `k` -/
def remove (t : SlotTable) (k : String) : Option Nat × SlotTable :=
  (find k t.slots, ⟨t.slots.map fun e => if holds k e then none else e⟩)

theorem find_nil (k : String) : find k [] = none := rfl

theorem find_cons (k : String) (x : Option (String × Nat)) (xs : List (Option (String × Nat))) :
    find k (x :: xs) = if holds k x then x.map (·.2) else find k xs := by
  unfold find
  rw [List.find?_cons]
  cases holds k x <;> rfl

theorem holds_some (k : String) (e : String × Nat) : holds k (some e) = true ↔ e.1 = k := by
  simp [holds]

theorem find_setFirst_holds (k k' : String) (v : Nat) (l : List (Option (String × Nat)))
    (h : (find k l).isSome = true) :
    find k' (setFirst (holds k) (some (k, v)) l) = if k' = k then some v else find k' l := by
  induction l with
  | nil => exact absurd h (by simp [find_nil])
  | cons x xs ih =>
    unfold setFirst
    rw [find_cons] at h
    by_cases hx : holds k x = true
    · rw [if_pos hx, find_cons, find_cons]
      by_cases e : k' = k
      · subst e; simp [holds]
      · have h1 : holds k' (some (k, v)) = false := by simp [holds, Ne.symm e]
        have h2 : holds k' x = false := by
          cases x with
          | none => rfl
          | some y =>
            have hy := (holds_some k y).mp hx
            simp [holds, hy, Ne.symm e]
        simp [h1, h2, e]
    · rw [if_neg hx] at h ⊢
      rw [find_cons, find_cons, ih h]
      by_cases e : k' = k
      · subst e; simp [hx]
      · simp [e]

theorem find_setFirst_none (k k' : String) (v : Nat) (l : List (Option (String × Nat)))
    (hk : find k l = none) (h : l.any (·.isNone) = true) :
    find k' (setFirst (·.isNone) (some (k, v)) l) = if k' = k then some v else find k' l := by
  induction l with
  | nil => exact absurd h (by simp)
  | cons x xs ih =>
    unfold setFirst
    rw [find_cons] at hk
    cases x with
    | none =>
      rw [if_pos (by rfl), find_cons, find_cons]
      by_cases e : k' = k
      · subst e; simp [holds]
      · simp [holds, Ne.symm e, e]
    | some y =>
      have hy : holds k (some y) = false := by
        by_contra hc
        rw [if_pos (by simpa using hc)] at hk
        exact absurd hk (by simp)
      rw [hy] at hk
      have ha : xs.any (·.isNone) = true := by simpa using h
      rw [if_neg (by simp), find_cons, find_cons, ih hk ha]
      by_cases e : k' = k
      · subst e; simp [hy]
      · simp [e]

theorem find_remove (k k' : String) (l : List (Option (String × Nat))) :
    find k' (l.map fun e => if holds k e then none else e)
      = if k' = k then none else find k' l := by
  induction l with
  | nil => simp [find_nil]
  | cons x xs ih =>
    rw [List.map_cons, find_cons, find_cons, ih]
    by_cases hx : holds k x = true
    · rw [if_pos hx]
      by_cases e : k' = k
      · simp [e, holds]
      · have h2 : holds k' x = false := by
          cases x with
          | none => rfl
          | some y =>
            have hy := (holds_some k y).mp hx
            simp [holds, hy, Ne.symm e]
        rw [h2]
        simp [holds, e]
    · rw [if_neg hx]
      by_cases e : k' = k
      · subst e; simp [hx]
      · simp [e]

theorem exists_slot (k : String) (v : Nat) (l : List (Option (String × Nat)))
    (h : find k l = some v) : ∃ i, i < l.length ∧ (l[i]?.bind id).map (·.1) = some k := by
  induction l with
  | nil => exact absurd h (by simp [find_nil])
  | cons x xs ih =>
    rw [find_cons] at h
    by_cases hx : holds k x = true
    · cases x with
      | none => exact absurd hx (by simp [holds])
      | some y => exact ⟨0, by simp, by simp [(holds_some k y).mp hx]⟩
    · rw [if_neg hx] at h
      obtain ⟨i, hi, e⟩ := ih h
      exact ⟨i + 1, by simpa using hi, by simpa using e⟩

instance : HashTable SlotTable where
  create o := ⟨List.replicate (2 ^ o) none⟩
  get t k := find k t.slots
  put := put
  remove := remove
  size t := t.slots.length
  slot t i := (t.slots[i]?.bind id).map (·.1)
  get_create o k := by
    generalize 2 ^ o = n
    induction n with
    | zero => rfl
    | succ n ih => rw [List.replicate_succ, find_cons]; simpa [holds] using ih
  get_put_ok t k v k' h := by
    unfold put at h ⊢
    by_cases h1 : (find k t.slots).isSome = true
    · rw [if_pos h1]; exact find_setFirst_holds k k' v _ h1
    · rw [if_neg h1] at h ⊢
      by_cases h2 : t.slots.any (·.isNone) = true
      · rw [if_pos h2]; exact find_setFirst_none k k' v _ (by simpa using h1) h2
      · rw [if_neg h2] at h; exact absurd h (by simp)
  get_put_full t k v k' h := by
    unfold put at h ⊢
    by_cases h1 : (find k t.slots).isSome = true
    · rw [if_pos h1] at h; exact absurd h (by simp)
    · rw [if_neg h1] at h ⊢
      by_cases h2 : t.slots.any (·.isNone) = true
      · rw [if_pos h2] at h; exact absurd h (by simp)
      · rw [if_neg h2]
  remove_fst t k := rfl
  get_remove t k k' := find_remove k k' t.slots
  get_slot t k v h := exists_slot k v t.slots h
  slot_remove t k i h := by
    show (((t.slots.map fun e => if holds k e then none else e)[i]?.bind id).map fun e => e.1)
      = (t.slots[i]?.bind id).map fun e => e.1
    rw [List.getElem?_map]
    cases hi : t.slots[i]? with
    | none => rfl
    | some x =>
      by_cases hx : holds k x = true
      · cases x with
        | none => exact absurd hx (by simp [holds])
        | some y =>
          have hy := (holds_some k y).mp hx
          rw [hi] at h
          exact absurd (by simp [hy]) h
      · simp [hx]

end SlotTable

end Stateful
