import Cjet.Hash.Map
import Cjet.Lib.Run
import Mathlib.Data.Fintype.Card

/-!
# Free slots

A slot is free for the search of `hashtable_put` if it holds the invalid-entry marker.  A put that gives
up after it has moved entries leaves a key behind in a slot that no bitmap names.

* `NoLeak`, `Capacity`    a slot is free just if no bitmap names it, and removing all keys empties the table;
* `LeavesKey`             the puts that give up after they moved an entry;
* `noLeak_put`, `leak_put`, `noLeak_remove`   one call;
* `capacity_kept_iff`     runs.
-/

set_option linter.unusedVariables false
set_option linter.unusedSectionVars false

namespace Cjet
open Stateful

namespace Hopscotch

section
variable {order : Nat} {K V : Type} [DecidableEq K] [Zero V] {hash : K → Pos order} {t : Table order K V}

/-- a slot holds the marker just if it belongs to no bucket -/
def NoLeak (t : Table order K V) : Prop := ∀ p, (t p).key = none ↔ ¬ Covered t p

def IsEmpty (t : Table order K V) : Prop := ∀ p, (t p).hopInfo = 0 ∧ (t p).key = none

def freeSlots (t : Table order K V) : Nat := (Finset.univ.filter fun p => (t p).key = none).card

/-- the table after a call -/
def step (hash : K → Pos order) (t : Table order K V) (op : Op K V) : Option (Table order K V) :=
  (exec hash t op).map fun r => r.2

/-- a put of a new key that moves entries to bring the free slot nearer, and does not bring it near enough -/
def LeavesKey (hash : K → Pos order) (t : Table order K V) : Op K V → Prop
  | .put k _ => get hash t k = some none ∧ ∃ D, NearestFree t (hash k) D ∧ MovesStuck t (hash k) D
  | _ => False

theorem noLeak_of (hS : Sound hash t) (h : ∀ p, ¬ Covered t p → (t p).key = none) : NoLeak t := by
  refine fun p => ⟨fun hk hc => ?_, h p⟩
  obtain ⟨k, hp⟩ := hS.key_of_covered hc
  have hkey := hp.2
  rw [hk] at hkey
  cases hkey

theorem not_stored_of_get (hS : Sound hash t) {k : K} (h : get hash t k = some none) (q : Pos order) :
    ¬ Stored hash t k q := by
  rw [get_sound hS] at h
  exact (lookup_eq_none hS k).mp (Option.some.inj h) q

theorem NearestFree.unique {h : Pos order} {D D' : Nat} (hD : NearestFree t h D)
    (hD' : NearestFree t h D') : D = D' := by
  rcases Nat.lt_trichotomy D D' with hlt | e | hlt
  · exact absurd hD.free (hD'.nearest D hlt)
  · exact e
  · exact absurd hD'.free (hD.nearest D' hlt)

/-! ## one call -/

section
variable {k : K} {v : V} {r : PutResult order K V}

theorem noLeak_writeValue (h : NoLeak t) (p : Pos order) (v : V) : NoLeak (Store.write t (.value p v)) := by
  intro q
  unfold Covered
  simp only [key_writeValue, covers_writeValue]
  exact h q

/-- a put that leaves no key behind keeps the free slots, and writes nothing if it finds no room -/
theorem noLeak_put (hS : Sound hash t) (h : NoLeak t) (hr : Puts hash t k v r) (hk : ¬ LeavesKey hash t (.put k v)) :
    NoLeak (writeAll t r.stores) ∧ (r.status = .full → r.stores = []) := by
  cases hr with
  | stored p hp => exact ⟨noLeak_writeValue h p v, fun e => by cases e⟩
  | crowded hno hfull => exact ⟨h, fun _ => rfl⟩
  | placed D ok stores hno hfree hplaced =>
    cases ok with
    | true =>
      refine ⟨noLeak_of hplaced.sound fun q hq => ?_, fun e => by cases e⟩
      rw [hplaced.covered rfl] at hq
      have hcov : ¬ Covered t q := fun h1 => hq (Or.inl h1)
      exact (hplaced.keys rfl q hcov fun e => hq (Or.inr e)).trans ((h q).mpr hcov)
    | false =>
      have hget : get hash t k = some none := by
        rw [get_sound hS, (lookup_eq_none hS k).mpr hno]
      have hmoves : ¬ MovesStuck t (hash k) D := fun hm => hk ⟨hget, D, hfree, hm⟩
      have hstuck := (endsStuck_iff.mp (hplaced.full.mp rfl)).resolve_right hmoves
      have hnil : stores = [] := hplaced.still hstuck
      subst hnil
      exact ⟨h, fun _ => rfl⟩

/-- any other put leaves a key in a slot that no bitmap names -/
theorem leak_put (hS : Sound hash t) (hr : Puts hash t k v r) (hk : LeavesKey hash t (.put k v)) :
    ¬ NoLeak (writeAll t r.stores) := by
  obtain ⟨hget, D, hD, hm⟩ := hk
  have hno := not_stored_of_get hS hget
  intro hleak
  cases hr with
  | stored p hp => exact hno p hp
  | crowded _ hfull => exact hfull D hD
  | placed D' ok stores _ hfree hplaced =>
    obtain rfl := hD.unique hfree
    obtain ⟨q, h1, h2⟩ := hplaced.leaves hm
    exact h2 ((hleak q).mpr h1)

end

theorem noLeak_remove (hS : Sound hash t) (h5 : 5 ≤ order) (h : NoLeak t) {k : K}
    {r : Option V × List (Store order K V)}
    (hr : Removes hash t k r) : NoLeak (writeAll t r.2) := by
  refine noLeak_of (hr.sound hS h5) fun q hq => ?_
  cases hr with
  | absent hno => exact (h q).mpr hq
  | stored i hc hp =>
    show (writeAll t (removeStores t (hash k) i) q).key = none
    rw [key_removeStores]
    by_cases e : q = slotAt (hash k) i
    · rw [if_pos e]
    · rw [if_neg e]
      refine (h q).mpr fun hcov => hq ?_
      exact ((sameView_remove hS h5 hc).covered q).mpr ((covered_bitCleared hS h5 hc q).mpr ⟨hcov, e⟩)

/-! ## removing all keys -/

/-- nothing is stored, and no slot holds a key -/
theorem isEmpty_of (hS : Sound hash t) (h : NoLeak t) (hnone : ∀ k, lookup hash t k = none) : IsEmpty t := by
  have hcov : ∀ p, ¬ Covered t p := fun p hc => by
    obtain ⟨k, hk⟩ := hS.key_of_covered hc
    exact (lookup_eq_none hS k).mp (hnone k) p hk
  refine fun p => ⟨BitVec.eq_of_getLsbD_eq fun i hi => ?_, (h p).mpr (hcov p)⟩
  have hbit : ¬ Covers t p i := fun hc => hcov _ ⟨p, i, hc, rfl⟩
  show _ = (0#32).getLsbD i
  rw [BitVec.getLsbD_zero]
  exact Bool.eq_false_iff.mpr hbit

theorem run_removes (hS : Sound hash t) (h5 : 5 ≤ order) (h30 : order ≤ 30) (h : NoLeak t) (l : List K) :
    ∃ t', run (step hash) t (l.map Op.remove) = some t' ∧ Sound hash t' ∧ NoLeak t' ∧
      ∀ k, lookup hash t' k = if k ∈ l then none else lookup hash t k := by
  induction l generalizing t with
  | nil => exact ⟨t, rfl, hS, h, fun k => by simp⟩
  | cons k l ih =>
    obtain ⟨r, hr, hremoves⟩ := removes_remove hS h5 h30 k
    obtain ⟨t', h1, hS', h', h2⟩ := ih (hremoves.sound hS h5) (noLeak_remove hS h5 h hremoves)
    refine ⟨t', ?_, hS', h', fun k' => ?_⟩
    · have hstep : step hash t (.remove k) = some (writeAll t r.2) := by
        show (((remove hash t k).map _).map _).map _ = _
        rw [hr]
        rfl
      rw [List.map_cons, run_cons, hstep]
      exact h1
    · rw [h2, hremoves.lookup hS h5]
      by_cases e : k' = k
      · simp [e]
      · simp [e]

/-! ## runs -/

/-- the table uses all its slots -/
structure Capacity (hash : K → Pos order) (t : Table order K V) : Prop where
  marker : NoLeak t
  drained : ∀ l : List K, (∀ k, get hash t k ≠ some none → k ∈ l) →
    ∃ t', run (step hash) t (l.map Op.remove) = some t' ∧ IsEmpty t'

/-- a call keeps the slots of the table; a put that finds no room changes none of them -/
def KeepsCapacity (hash : K → Pos order) (t : Table order K V) (op : Op K V) : Prop :=
  ∀ out t', exec hash t op = some (out, t') →
    Capacity hash t' ∧ (out = .put .full 0 → freeSlots t' = freeSlots t)

theorem capacity_of (hS : Sound hash t) (h5 : 5 ≤ order) (h30 : order ≤ 30) (h : NoLeak t) : Capacity hash t := by
  refine ⟨h, fun l hl => ?_⟩
  obtain ⟨t', h1, hS', h', h2⟩ := run_removes hS h5 h30 h l
  refine ⟨t', h1, isEmpty_of hS' h' fun k => ?_⟩
  rw [h2]
  by_cases hk : k ∈ l
  · rw [if_pos hk]
  · rw [if_neg hk]
    have hget : get hash t k = some none := not_not.mp fun h3 => hk (hl k h3)
    rw [get_sound hS] at hget
    exact Option.some.inj hget

theorem keepsCapacity_iff (hS : Sound hash t) (h5 : 5 ≤ order) (h30 : order ≤ 30) (h : NoLeak t) (op : Op K V) :
    KeepsCapacity hash t op ↔ ¬ LeavesKey hash t op := by
  cases op with
  | get k =>
    refine iff_of_true (fun out t' e => ?_) id
    have e1 : exec hash t (.get k) = some (.found (lookup hash t k), t) := by
      show ((get hash t k).map _).map _ = _
      rw [get_sound hS]
      rfl
    rw [e1] at e
    cases e
    exact ⟨capacity_of hS h5 h30 h, fun _ => rfl⟩
  | put k v =>
    obtain ⟨r, hr, hputs⟩ := puts_put hS h5 h30 k v
    have e1 : exec hash t (.put k v) = some (.put r.status r.prevValue, writeAll t r.stores) := by
      show ((put hash t (some k) v).map _).map _ = _
      rw [hr]
      rfl
    constructor
    · intro hkeeps hk
      exact leak_put hS hputs hk (hkeeps _ _ e1).1.marker
    · intro hk out t' e
      obtain ⟨h1, h2⟩ := noLeak_put hS h hputs hk
      rw [e1] at e
      cases e
      refine ⟨capacity_of (hputs.sound hS) h5 h30 h1, fun e2 => ?_⟩
      injection e2 with e3
      rw [h2 e3, writeAll_nil]
  | remove k =>
    refine iff_of_true (fun out t' e => ?_) id
    obtain ⟨r, hr, hremoves⟩ := removes_remove hS h5 h30 k
    have e1 : exec hash t (.remove k) = some (.removed r.1, writeAll t r.2) := by
      show ((remove hash t k).map _).map _ = _
      rw [hr]
      rfl
    rw [e1] at e
    cases e
    exact ⟨capacity_of (hremoves.sound hS h5) h5 h30 (noLeak_remove hS h5 h hremoves), fun e2 => by cases e2⟩

theorem step_sound (hS : Sound hash t) (h5 : 5 ≤ order) (h30 : order ≤ 30) (op : Op K V) :
    ∃ t', step hash t op = some t' ∧ Sound hash t' := by
  obtain ⟨out, t', h1, hS', _⟩ := mapStep_exec hS h5 h30 op
  refine ⟨t', ?_, hS'⟩
  unfold step
  rw [h1]
  rfl

theorem run_sound (hS : Sound hash t) (h5 : 5 ≤ order) (h30 : order ≤ 30) (ops : List (Op K V)) :
    ∃ t', run (step hash) t ops = some t' ∧ Sound hash t' := by
  induction ops generalizing t with
  | nil => exact ⟨t, rfl, hS⟩
  | cons op ops ih =>
    obtain ⟨u, h1, hSu⟩ := step_sound hS h5 h30 op
    obtain ⟨t', h2, hS'⟩ := ih hSu
    refine ⟨t', ?_, hS'⟩
    rw [run_cons, h1]
    exact h2

theorem noLeak_create (order : Nat) (hash : K → Pos order) : NoLeak (create order K V) := by
  refine noLeak_of (sound_create order hash) fun p _ => rfl

/-- **A run keeps the slots of the table just if no put leaves a key behind.** -/
theorem capacity_kept_iff (h5 : 5 ≤ order) (h30 : order ≤ 30) (hash : K → Pos order) (ops : List (Op K V)) :
    Capacity hash (create order K V) ∧ (∃ t, run (step hash) (create order K V) ops = some t) ∧
      (Along (step hash) (KeepsCapacity hash) (create order K V) ops ↔
        Along (step hash) (fun t op => ¬ LeavesKey hash t op) (create order K V) ops) := by
  have hS : Sound hash (create order K V) := sound_create order hash
  have hleak : NoLeak (create order K V) := noLeak_create order hash
  obtain ⟨t, ht, _⟩ := run_sound hS h5 h30 ops
  refine ⟨capacity_of hS h5 h30 hleak, ⟨t, ht⟩, ?_⟩
  refine Along.congr (I := fun t => Sound hash t ∧ NoLeak t) (fun t op t' ⟨hS, hleak⟩ hop ht => ?_)
    (fun t op ⟨hS, hleak⟩ => keepsCapacity_iff hS h5 h30 hleak op) ⟨hS, hleak⟩ ops
  obtain ⟨u, h1, hS'⟩ := step_sound hS h5 h30 op
  rw [h1] at ht
  obtain rfl := Option.some.inj ht
  obtain ⟨⟨out, u⟩, h2, rfl⟩ := Option.map_eq_some_iff.mp h1
  exact ⟨hS', ((keepsCapacity_iff hS h5 h30 hleak op).mpr hop out u h2).1.marker⟩

end

/-- the bucket of a number, for tables of the order 7 -/
def thousands (k : Nat) : Pos 7 := wrapPos (k / 1000)

/-- a run of a few calls -/
theorem capacity_kept_iff_seven : Capacity thousands (create 7 Nat Nat) ∧
    (∃ t, run (step thousands) (create 7 Nat Nat) [.put 5000 1, .put 5001 2, .remove 5000] = some t) ∧
      (Along (step thousands) (KeepsCapacity thousands) (create 7 Nat Nat) [.put 5000 1, .put 5001 2, .remove 5000] ↔
        Along (step thousands) (fun t op => ¬ LeavesKey thousands t op) (create 7 Nat Nat)
          [.put 5000 1, .put 5001 2, .remove 5000]) :=
  capacity_kept_iff (by decide) (by decide) thousands _

/-! ## a put that leaves a key behind -/

/-- a key in a slot where the lookup does not find it -/
theorem not_noLeak_of_twice {order : Nat} {K V : Type} [DecidableEq K] {hash : K → Pos order} {t : Table order K V}
    (hS : Sound hash t) {k : K} {p q : Pos order} (hkey : (t p).key = some k) (hq : search hash t k = some (some q))
    (hne : p ≠ q) : ¬ NoLeak t := by
  intro h
  have hcov : Covered t p := not_not.mp fun hc => by
    rw [(h p).mpr hc] at hkey
    cases hkey
  obtain ⟨k', hk'⟩ := hS.key_of_covered hcov
  obtain rfl : k' = k := Option.some.inj (hk'.2.symm.trans hkey)
  obtain ⟨r, h1, h2⟩ := search_sound hS k'
  rw [hq] at h1
  obtain rfl := Option.some.inj h1
  exact hne (hS.stored_unique hk' ((h2 q).mp rfl))

/-- 32 keys fill the bucket 5, and one more key stands in the slot behind them -/
def crowd : List (Op Nat Nat) := (List.range 32).map (fun i => .put (5000 + i) i) ++ [.put 37000 1]

set_option maxRecDepth 20000 in
/-- the entry of 37000 moves by one slot, which does not suffice for 5999 -/
theorem crowd_full : (run (step thousands) (create 7 Nat Nat) (crowd ++ [.put 5999 2])).map
    (fun t => ((t (thousands 37000)).key, search thousands t 37000)) =
      some (some 37000, some (some (slotAt (thousands 37000) 1))) := by decide +kernel

theorem capacity_lost :
    ¬ Along (step thousands) (KeepsCapacity thousands) (create 7 Nat Nat) (crowd ++ [.put 5999 2]) := by
  intro h
  have hS : Sound thousands (create 7 Nat Nat) := sound_create 7 thousands
  obtain ⟨t, ht, hSt⟩ := run_sound hS (by decide) (by decide) crowd
  obtain ⟨out, u, hu, hSu, _⟩ := mapStep_exec hSt (by decide) (by decide) (.put 5999 2)
  have hleak := ((h.right ht).1 out u hu).1.marker
  have hrun : run (step thousands) (create 7 Nat Nat) (crowd ++ [.put 5999 2]) = some u := by
    have hstep : step thousands t (.put 5999 2) = some u := congrArg (fun r => r.map Prod.snd) hu
    rw [run_append, ht, Option.bind_some, run_cons, hstep]
    rfl
  have hfull := crowd_full
  rw [hrun] at hfull
  obtain ⟨hkey, hsearch⟩ := Prod.mk.inj (Option.some.inj hfull)
  exact not_noLeak_of_twice hSu hkey hsearch (by decide) hleak

end Hopscotch
end Cjet
