import Cjet.Hash.KeyTable
import Cjet.Hash.Capacity

/-!
# Readers that interrupt a put or a remove

The header promises that `HASHTABLE_GET` may interrupt `HASHTABLE_PUT` and `HASHTABLE_REMOVE` at any time.
A put writes an entry before the bit that names it.  A remove writes the invalid-entry marker to the
key while the bitmap still names the slot, and a reader of the bucket then compares with the marker.

* `Readable`               what a reader may find between two stores of a call;
* `readable_put`           a put, with all its displacements;
* `not_readable_remove`    a remove of a key that is in the table;
* `readable_iff`           all reachable tables.
-/

set_option linter.unusedVariables false
set_option linter.unusedSectionVars false

namespace Cjet
open Stateful

namespace Hopscotch

/-- the key of a call -/
def Op.key {K V : Type} : Op K V → K
  | .get k => k
  | .put k _ => k
  | .remove k => k

section
variable {order : Nat} {K V : Type} [DecidableEq K] [Zero V] {hash : K → Pos order} {t : Table order K V}

/-- A get that comes before, between or after the stores of a call compares with no marker.  It finds other
keys unchanged, and the key of the call as it was before or as it is afterwards. -/
def Readable (hash : K → Pos order) (t : Table order K V) (op : Op K V) : Prop :=
  ∀ out stores, call hash t op = some (out, stores) →
    Throughout (fun u => (∀ k, get hash u k ≠ none) ∧ Between hash t (writeAll t stores) op.key u) t stores

/-- a reader between two tables compares with no marker -/
theorem Between.get_ne_none {t' u : Table order K V} {k : K} (hS : Sound hash t) (hS' : Sound hash t')
    (h : Between hash t t' k u) (k' : K) : get hash u k' ≠ none := by
  by_cases e : k' = k
  · subst e
    rcases h.own with e1 | e1
    · rw [e1, get_sound hS]
      exact Option.some_ne_none _
    · rw [e1, get_sound hS']
      exact Option.some_ne_none _
  · rw [h.others k' e, get_sound hS]
    exact Option.some_ne_none _

theorem readable_put (hS : Sound hash t) (h5 : 5 ≤ order) (h30 : order ≤ 30) (k : K) (v : V) :
    Readable hash t (.put k v) := by
  intro out stores h
  obtain ⟨r, hr, hputs⟩ := puts_put hS h5 h30 k v
  have e : call hash t (.put k v) = some (.put r.status r.prevValue, r.stores) := by
    show (put hash t (some k) v).map _ = _
    rw [hr]
    rfl
  rw [e] at h
  cases h
  exact (hputs.readers hS).mono fun u hu => ⟨hu.get_ne_none hS (hputs.sound hS), hu⟩

/-- a call without stores -/
theorem readable_nil (hS : Sound hash t) {op : Op K V} {out : Out V} (h : call hash t op = some (out, [])) :
    Readable hash t op := by
  intro out' stores e
  rw [h] at e
  cases e
  have hb : Between hash t t op.key t := ⟨fun _ _ => rfl, Or.inl rfl⟩
  exact ⟨hb.get_ne_none hS hS, hb⟩

/-! ## the marker in a slot that a bitmap names -/

/-- a walk that does not end before it meets the marker -/
theorem walk_marker {h : Pos order} {k : K} {l : List Nat} (hl : ∀ i ∈ l, (t (slotAt h i)).key ≠ some k) {j : Nat}
    (hj : j ∈ l) (hkey : (t (slotAt h j)).key = none) : walk t h k l = none := by
  induction l with
  | nil => cases hj
  | cons i l ih =>
    rw [walk_cons]
    cases hi : (t (slotAt h i)).key with
    | none => rfl
    | some k' =>
      have hne : k' ≠ k := fun e => hl i List.mem_cons_self (by rw [hi, e])
      have hj' : j ∈ l := by
        rcases List.mem_cons.mp hj with rfl | hj
        · rw [hkey] at hi
          cases hi
        · exact hj
      exact (if_neg hne).trans (ih (fun i hi => hl i (List.mem_cons_of_mem _ hi)) hj')

/-- after the first store of a remove a reader of the key meets the marker -/
theorem get_marker (hS : Sound hash t) {k : K} {i : Nat} (hc : Covers t (hash k) i)
    (hp : Stored hash t k (slotAt (hash k) i)) :
    get hash (Store.write t (.key (slotAt (hash k) i) none)) k = none := by
  have hsearch : search hash (Store.write t (.key (slotAt (hash k) i) none)) k = none := by
    rw [search_eq, hopInfo_writeKey]
    refine walk_marker (fun j hj => ?_) ((mem_hops _ i).mpr hc) (by rw [key_writeKey, if_pos rfl])
    have hcj := (mem_hops _ j).mp hj
    rw [key_writeKey]
    by_cases e : slotAt (hash k) j = slotAt (hash k) i
    · rw [if_pos e]
      exact (Option.some_ne_none k).symm
    · rw [if_neg e]
      exact fun hk => e (hS.stored_unique ⟨⟨j, hcj, rfl⟩, hk⟩ hp)
  unfold get
  rw [hsearch]
  rfl

theorem not_readable_remove (hS : Sound hash t) (h5 : 5 ≤ order) (h30 : order ≤ 30) {k : K}
    (hk : get hash t k ≠ some none) : ¬ Readable hash t (.remove k) := by
  intro h
  obtain ⟨r, hr, hremoves⟩ := removes_remove hS h5 h30 k
  have e : call hash t (.remove k) = some (.removed r.1, r.2) := by
    show (remove hash t k).map _ = _
    rw [hr]
    rfl
  have hread := h _ _ e
  cases hremoves with
  | absent hno =>
    rw [get_sound hS, (lookup_eq_none hS k).mpr hno] at hk
    exact hk rfl
  | stored i hc hp =>
    obtain ⟨_, ⟨hdefined, _⟩, _⟩ := hread
    exact hdefined k (get_marker hS hc hp)

theorem readable_iff_sound (hS : Sound hash t) (h5 : 5 ≤ order) (h30 : order ≤ 30) (op : Op K V) :
    Readable hash t op ↔ ∀ k, op = .remove k → get hash t k = some none := by
  cases op with
  | get k =>
    have hcall : call hash t (.get k) = some (.found (lookup hash t k), []) := by
      show (get hash t k).map _ = _
      rw [get_sound hS]
      rfl
    exact iff_of_true (readable_nil hS hcall) fun k' e => by cases e
  | put k v => exact iff_of_true (readable_put hS h5 h30 k v) fun k' e => by cases e
  | remove k =>
    constructor
    · intro h k' e
      cases e
      exact not_not.mp fun hk => not_readable_remove hS h5 h30 hk h
    · intro h
      have hget := h k rfl
      obtain ⟨r, hr, hremoves⟩ := removes_remove hS h5 h30 k
      have hcall : call hash t (.remove k) = some (.removed none, []) := by
        show (remove hash t k).map _ = _
        rw [hr]
        cases hremoves with
        | absent hno => rfl
        | stored i hc hp => exact absurd hp (not_stored_of_get hS hget _)
      exact readable_nil hS hcall

/-- **A reader may interrupt any call on any reachable table, but a remove of a key that is in the table.** -/
theorem readable_iff (h5 : 5 ≤ order) (h30 : order ≤ 30) (hash : K → Pos order) (ops : List (Op K V)) (op : Op K V) :
    ∃ t, run (step hash) (create order K V) ops = some t ∧
      (Readable hash t op ↔ ∀ k, op = .remove k → get hash t k = some none) := by
  obtain ⟨t, ht, hS⟩ := run_sound (sound_create order hash) h5 h30 ops
  exact ⟨t, ht, readable_iff_sound hS h5 h30 op⟩

end

theorem readable_iff_strings : ∃ t, run (step (hashFuncString 5)) (create 5 String Nat) [.put "a" 1] = some t ∧
    (Readable (hashFuncString 5) t (.put "b" 2) ↔
      ∀ k, Op.put "b" 2 = .remove k → get (hashFuncString 5) t k = some none) :=
  readable_iff (by decide) (by decide) (hashFuncString 5) [.put "a" 1] (.put "b" 2)

theorem stored_a : (run (step (hashFuncString 5)) (create 5 String Nat) [.put "a" 1]).map
    (fun t => get (hashFuncString 5) t "a") = some (some (some 1)) := by decide +kernel

/-- a remove that is interrupted by a get of the same key -/
theorem interrupted_remove : ∃ t, run (step (hashFuncString 5)) (create 5 String Nat) [.put "a" 1] = some t ∧
    ¬ Readable (hashFuncString 5) t (.remove "a") := by
  have hS : Sound (hashFuncString 5) (create 5 String Nat) := sound_create 5 _
  obtain ⟨t, ht, hSt⟩ := run_sound hS (by decide) (by decide) [.put "a" 1]
  have ha := stored_a
  rw [ht] at ha
  refine ⟨t, ht, not_readable_remove hSt (by decide) (by decide) fun e => ?_⟩
  have ha' : get (hashFuncString 5) t "a" = some (some 1) := Option.some.inj ha
  rw [e] at ha'
  cases ha'

end Hopscotch
end Cjet
