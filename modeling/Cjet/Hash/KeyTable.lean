import Cjet.Hash.Map
import Cjet.Lib.Table

/-!
# Tables with strings for keys (`DECLARE_HASHTABLE_STRING`)

The routing tables and the table of the elements are hopscotch tables whose values are pointers.
They have the laws of `HashTable`, so that all what is said of a broker with some such table is said
of one with these.

* `hsHash32`, `hashFuncString`   the hash function;
* `KeyTable`                     a table that the operations can reach.
-/

set_option linter.unusedVariables false

namespace Cjet
open Stateful

namespace Hopscotch

/-- `hs_hash32`, before its last shift -/
def hsHash32 (key : BitVec 32) : BitVec 32 :=
  let key := (key ^^^ 61) ^^^ (key >>> 16)
  let key := key + (key <<< 3)
  let key := key ^^^ (key >>> 4)
  let key := key * 0x27d4eb2d
  key ^^^ (key >>> 15)

/-- a `char`, which has a sign, as a number of 32 bits -/
def ofChar (c : UInt8) : BitVec 32 := c.toBitVec.signExtend 32

/-- `hash_func`: the characters of the key up to the zero at its end -/
def hashFuncString (order : Nat) (key : String) : Pos order :=
  let hash : BitVec 32 := (key.toUTF8.toList.takeWhile (· != 0)).foldl
    (fun hash c => ((ofChar c + (hash <<< 6)) + (hash <<< 16)) - hash) 0
  wrapPos (hsHash32 hash >>> (32 - order)).toNat

structure KeyTable where
  order : Nat
  h5 : 5 ≤ order
  h30 : order ≤ 30
  entries : Table order String Nat
  sound : Sound (hashFuncString order) entries

namespace KeyTable

/-- the nearest order that a table may have is taken -/
def create (order : Nat) : KeyTable where
  order := max 5 (min order 30)
  h5 := Nat.le_max_left ..
  h30 := Nat.max_le.mpr ⟨by decide, Nat.min_le_right ..⟩
  entries := Hopscotch.create _ _ _
  sound := sound_create _ _

def get (t : KeyTable) (k : String) : Option Nat := lookup (hashFuncString t.order) t.entries k

/-- the stores of an operation on the table -/
def writeAll (t : KeyTable) (stores : List (Store t.order String Nat))
    (sound : Sound (hashFuncString t.order) (Hopscotch.writeAll t.entries stores)) : KeyTable :=
  { t with entries := Hopscotch.writeAll t.entries stores, sound := sound }

theorem exists_put (t : KeyTable) (k : String) (v : Nat) :
    ∃ r, Hopscotch.put (hashFuncString t.order) t.entries (some k) v = some r ∧
      Puts (hashFuncString t.order) t.entries k v r := puts_put t.sound t.h5 t.h30 k v

theorem exists_remove (t : KeyTable) (k : String) :
    ∃ r, Hopscotch.remove (hashFuncString t.order) t.entries k = some r ∧
      Removes (hashFuncString t.order) t.entries k r := removes_remove t.sound t.h5 t.h30 k

theorem puts {t : KeyTable} {k : String} {v : Nat} {r : PutResult t.order String Nat}
    (h : Hopscotch.put (hashFuncString t.order) t.entries (some k) v = some r) :
    Puts (hashFuncString t.order) t.entries k v r := by
  obtain ⟨r', h1, h2⟩ := t.exists_put k v
  rw [h] at h1
  cases h1
  exact h2

theorem removes {t : KeyTable} {k : String} {r : Option Nat × List (Store t.order String Nat)}
    (h : Hopscotch.remove (hashFuncString t.order) t.entries k = some r) :
    Removes (hashFuncString t.order) t.entries k r := by
  obtain ⟨r', h1, h2⟩ := t.exists_remove k
  rw [h] at h1
  cases h1
  exact h2

def put (t : KeyTable) (k : String) (v : Nat) : Bool × KeyTable :=
  match h : Hopscotch.put (hashFuncString t.order) t.entries (some k) v with
  | none => (false, t)
  | some r => (r.status = .success, t.writeAll r.stores ((puts h).sound t.sound))

def remove (t : KeyTable) (k : String) : Option Nat × KeyTable :=
  match h : Hopscotch.remove (hashFuncString t.order) t.entries k with
  | none => (none, t)
  | some r => (r.1, t.writeAll r.2 ((removes h).sound t.sound t.h5))

/-- the key that a walk over the entries meets at a position -/
def slot (t : KeyTable) (i : Nat) : Option String :=
  if h : i < tableSize t.order then (t.entries ⟨i, h⟩).key else none

theorem put_eq (t : KeyTable) (k : String) (v : Nat) : ∃ r sound, Puts (hashFuncString t.order) t.entries k v r ∧
    t.put k v = (decide (r.status = .success), t.writeAll r.stores sound) := by
  obtain ⟨r, h1, h2⟩ := t.exists_put k v
  refine ⟨r, h2.sound t.sound, h2, ?_⟩
  unfold put
  split
  · rename_i h
    rw [h1] at h
    cases h
  · rename_i r' h
    rw [h1] at h
    cases h
    rfl

theorem remove_eq (t : KeyTable) (k : String) : ∃ r sound, Removes (hashFuncString t.order) t.entries k r ∧
    t.remove k = (r.1, t.writeAll r.2 sound) := by
  obtain ⟨r, h1, h2⟩ := t.exists_remove k
  refine ⟨r, h2.sound t.sound t.h5, h2, ?_⟩
  unfold remove
  split
  · rename_i h
    rw [h1] at h
    cases h
  · rename_i r' h
    rw [h1] at h
    cases h
    rfl

/-- the laws that the broker relies on -/
instance : HashTable KeyTable where
  create := create
  get := get
  put := put
  remove := remove
  size t := tableSize t.order
  slot := slot
  get_create o k := lookup_create k
  get_put_ok t k v k' h := by
    obtain ⟨r, sound, h1, h2⟩ := t.put_eq k v
    rw [h2] at h ⊢
    have hs : r.status = .success := of_decide_eq_true h
    show lookup (hashFuncString t.order) (Hopscotch.writeAll t.entries r.stores) k' = _
    rw [h1.lookup t.sound, hs]
    simp [get]
  get_put_full t k v k' h := by
    obtain ⟨r, sound, h1, h2⟩ := t.put_eq k v
    rw [h2] at h ⊢
    have hs : r.status ≠ .success := of_decide_eq_false h
    show lookup (hashFuncString t.order) (Hopscotch.writeAll t.entries r.stores) k' = _
    rw [h1.lookup t.sound, if_neg fun h => hs h.1]
    rfl
  remove_fst t k := by
    obtain ⟨r, sound, h1, h2⟩ := t.remove_eq k
    rw [h2]
    exact h1.result t.sound
  get_remove t k k' := by
    obtain ⟨r, sound, h1, h2⟩ := t.remove_eq k
    rw [h2]
    exact h1.lookup t.sound t.h5 k'
  get_slot t k v h := by
    obtain ⟨p, hp, _⟩ := (lookup_eq_some t.sound k v).mp h
    exact ⟨p, p.isLt, (dif_pos p.isLt).trans hp.2⟩
  slot_remove t k i h := by
    obtain ⟨r, sound, h1, h2⟩ := t.remove_eq k
    rw [h2]
    unfold slot at h ⊢
    by_cases hi : i < tableSize t.order
    · rw [dif_pos hi] at h
      have hkey := h1.key h
      exact ((dif_pos hi).trans hkey).trans (dif_pos hi).symm
    · rw [dif_neg hi]
      exact dif_neg hi

end KeyTable
end Hopscotch
end Cjet
