import Cjet.Hash.Positions

/-!
# Well-formed hash tables

The slots that a bitmap names hold keys of its bucket, and no key stands in two of them.  In such a
table the lookup finds what is stored.

* `Covers`, `Sound`, `Stored`   the invariant, and where a key is stored;
* `search_sound`, `get_sound`   the lookup;
* `SameView.search`             a reader sees only the slots that a bitmap names;
* `lookup`, `lookup_eq_some`, `lookup_eq_none`   the table as a finite map.
-/

set_option linter.unusedVariables false

namespace Cjet
namespace Hopscotch

section
variable {order : Nat} {K V : Type}

/-! ## single stores -/

section
variable (t : Table order K V) (p q : Pos order)

/-- the word that is stored to, or what stood there -/
theorem update_word {β : Type} (f : Entry K V → β) (x : Entry K V) :
    f (Function.update t p x q) = if q = p then f x else f (t q) := by
  by_cases e : q = p
  · rw [e, Function.update_self, if_pos rfl]
  · rw [Function.update_of_ne e, if_neg e]

/-- another word of the slot -/
theorem update_other {β : Type} (f : Entry K V → β) {x : Entry K V} (hx : f x = f (t p)) :
    f (Function.update t p x q) = f (t q) := by
  refine (update_word t p q f x).trans ?_
  by_cases e : q = p
  · rw [if_pos e, e, hx]
  · exact if_neg e

@[simp] theorem hopInfo_writeHopInfo (x : BitVec 32) :
    (Store.write t (.hopInfo p x) q).hopInfo = if q = p then x else (t q).hopInfo :=
  update_word t p q Entry.hopInfo _

@[simp] theorem key_writeHopInfo (x : BitVec 32) : (Store.write t (.hopInfo p x) q).key = (t q).key :=
  update_other t p q Entry.key rfl

@[simp] theorem value_writeHopInfo (x : BitVec 32) : (Store.write t (.hopInfo p x) q).value = (t q).value :=
  update_other t p q Entry.value rfl

@[simp] theorem hopInfo_writeKey (x : Option K) : (Store.write t (.key p x) q).hopInfo = (t q).hopInfo :=
  update_other t p q Entry.hopInfo rfl

@[simp] theorem key_writeKey (x : Option K) :
    (Store.write t (.key p x) q).key = if q = p then x else (t q).key :=
  update_word t p q Entry.key _

@[simp] theorem value_writeKey (x : Option K) : (Store.write t (.key p x) q).value = (t q).value :=
  update_other t p q Entry.value rfl

@[simp] theorem hopInfo_writeValue (x : V) : (Store.write t (.value p x) q).hopInfo = (t q).hopInfo :=
  update_other t p q Entry.hopInfo rfl

@[simp] theorem key_writeValue (x : V) : (Store.write t (.value p x) q).key = (t q).key :=
  update_other t p q Entry.key rfl

@[simp] theorem value_writeValue (x : V) :
    (Store.write t (.value p x) q).value = if q = p then x else (t q).value :=
  update_word t p q Entry.value _

end

/-! ## the lookup as a walk over the bitmap -/

section
variable [DecidableEq K]

def walk (t : Table order K V) (h : Pos order) (k : K) : List Nat → Option (Option (Pos order))
  | [] => some none
  | i :: l =>
    match (t (slotAt h i)).key with
    | none => none
    | some k' => if k' = k then some (some (slotAt h i)) else walk t h k l

theorem walk_cons (t : Table order K V) (h : Pos order) (k : K) (i : Nat) (l : List Nat) :
    walk t h k (i :: l) = match (t (slotAt h i)).key with
      | none => none
      | some k' => if k' = k then some (some (slotAt h i)) else walk t h k l := rfl

theorem searchFrom_eq (t : Table order K V) (h : Pos order) (k : K) (x : BitVec 32) {fuel j : Nat}
    (hj : fuel + j = 32) : searchFrom t k fuel (x >>> j) (slotAt h j)
      = walk t h k ((List.range' j fuel).filter fun i => x.getLsbD i) := by
  induction fuel generalizing j with
  | zero => rfl
  | succ fuel ih =>
    have hnext := ih (j := j + 1) (by omega)
    have hstep : wrapPos ((slotAt h j : Pos order) + 1) = slotAt h (j + 1) := wrapPos_slotAt h j 1
    have hshift : x >>> j >>> 1 = x >>> (j + 1) := (BitVec.shiftRight_add x j 1).symm
    have hbit : x >>> j &&& 1 = 1 ↔ x.getLsbD j = true := by
      rw [bit_low, BitVec.getLsbD_ushiftRight, Nat.add_zero]
    unfold searchFrom
    rw [List.range'_succ, List.filter_cons, hstep, hshift]
    by_cases hzero : x >>> j = 0
    · rw [if_pos hzero]
      have hnone : ∀ i, j ≤ i → x.getLsbD i = false := fun i hi => by
        have h1 := congrArg (fun y => y.getLsbD (i - j)) hzero
        have h2 : (x >>> j).getLsbD (i - j) = false := h1.trans BitVec.getLsbD_zero
        rwa [BitVec.getLsbD_ushiftRight, Nat.add_sub_cancel' hi] at h2
      rw [if_neg (by rw [hnone j (Nat.le_refl j)]; decide), List.filter_eq_nil_iff.mpr]
      · rfl
      · intro i hi
        rw [hnone i (by have := List.mem_range'.mp hi; omega)]
        decide
    · rw [if_neg hzero]
      by_cases hb : x.getLsbD j = true
      · rw [if_pos (hbit.mpr hb), if_pos hb, hnext]
        exact (walk_cons t h k j _).symm
      · rw [if_neg fun h1 => hb (hbit.mp h1), if_neg hb, hnext]

theorem search_eq (hash : K → Pos order) (t : Table order K V) (k : K) :
    search hash t k = walk t (hash k) k (hops (t (hash k)).hopInfo) := by
  have h := @searchFrom_eq _ _ _ _ t (hash k) k (t (hash k)).hopInfo 32 0 rfl
  rw [slotAt_zero, BitVec.ushiftRight_zero] at h
  unfold search hops
  rw [h, List.range_eq_range']

/-- the walk goes over slots with keys -/
theorem walk_of_keys {t : Table order K V} {h : Pos order} {k : K} {l : List Nat}
    (hl : ∀ i ∈ l, (t (slotAt h i)).key.isSome = true) :
    ∃ r, walk t h k l = some r ∧
      (∀ p, r = some p → ∃ i ∈ l, p = slotAt h i ∧ (t p).key = some k) ∧
      (r = none → ∀ i ∈ l, (t (slotAt h i)).key ≠ some k) := by
  induction l with
  | nil => exact ⟨none, rfl, fun p e => (by cases e), fun _ i hi => (by cases hi)⟩
  | cons i l ih =>
    obtain ⟨k', hk'⟩ := Option.isSome_iff_exists.mp (hl i List.mem_cons_self)
    obtain ⟨r, h1, h2, h3⟩ := ih fun j hj => hl j (List.mem_cons_of_mem i hj)
    rw [walk_cons, hk']
    by_cases e : k' = k
    · refine ⟨some (slotAt h i), if_pos e, fun p e1 => ?_, fun e1 => (by cases e1)⟩
      obtain rfl := Option.some.inj e1
      exact ⟨i, List.mem_cons_self, rfl, by rw [hk', e]⟩
    · refine ⟨r, (if_neg e).trans h1, fun p e1 => ?_, fun e1 j hj => ?_⟩
      · obtain ⟨j, hj, h4⟩ := h2 p e1
        exact ⟨j, List.mem_cons_of_mem i hj, h4⟩
      · rcases List.mem_cons.mp hj with rfl | hj
        · rw [hk']
          exact fun e2 => e (Option.some.inj e2)
        · exact h3 e1 j hj

/-- the same keys in the slots that are looked at -/
theorem walk_congr {t t' : Table order K V} {h : Pos order} {k : K} {l : List Nat}
    (hl : ∀ i ∈ l, (t' (slotAt h i)).key = (t (slotAt h i)).key) : walk t' h k l = walk t h k l := by
  induction l with
  | nil => rfl
  | cons i l ih =>
    rw [walk_cons, walk_cons, hl i List.mem_cons_self, ih fun j hj => hl j (List.mem_cons_of_mem i hj)]

end

/-! ## the invariant -/

/-- the bitmap of the bucket `h` names the slot at the distance `i` -/
def Covers (t : Table order K V) (h : Pos order) (i : Nat) : Prop := (t h).hopInfo.getLsbD i = true

def Covered (t : Table order K V) (p : Pos order) : Prop := ∃ h i, Covers t h i ∧ p = slotAt h i

theorem Covers.lt {t : Table order K V} {h : Pos order} {i : Nat} (hc : Covers t h i) : i < 32 :=
  BitVec.lt_of_getLsbD hc

structure Sound (hash : K → Pos order) (t : Table order K V) : Prop where
  /-- what a bitmap names is a key of the bucket -/
  keyed : ∀ h i, Covers t h i → ∃ k, (t (slotAt h i)).key = some k ∧ hash k = h
  /-- no key stands in two slots -/
  once : ∀ h i j, Covers t h i → Covers t h j → (t (slotAt h i)).key = (t (slotAt h j)).key → i = j

/-- `k` is stored in the slot `p` -/
def Stored (hash : K → Pos order) (t : Table order K V) (k : K) (p : Pos order) : Prop :=
  (∃ i, Covers t (hash k) i ∧ p = slotAt (hash k) i) ∧ (t p).key = some k

section
variable {hash : K → Pos order} {t t' : Table order K V}

theorem Stored.covered {k : K} {p : Pos order} (h : Stored hash t k p) : Covered t p := by
  obtain ⟨⟨i, hc, hp⟩, _⟩ := h
  exact ⟨hash k, i, hc, hp⟩

namespace Sound

theorem stored_of_covers (hS : Sound hash t) {h : Pos order} {i : Nat} (hc : Covers t h i) :
    ∃ k, Stored hash t k (slotAt h i) ∧ hash k = h := by
  obtain ⟨k, hk, rfl⟩ := hS.keyed h i hc
  exact ⟨k, ⟨⟨i, hc, rfl⟩, hk⟩, rfl⟩

theorem key_of_covered (hS : Sound hash t) {p : Pos order} (hc : Covered t p) : ∃ k, Stored hash t k p := by
  obtain ⟨h, i, hc, rfl⟩ := hc
  obtain ⟨k, hk, _⟩ := hS.stored_of_covers hc
  exact ⟨k, hk⟩

theorem stored_unique (hS : Sound hash t) {k : K} {p q : Pos order} (hp : Stored hash t k p)
    (hq : Stored hash t k q) : p = q := by
  obtain ⟨⟨i, hi, rfl⟩, hk⟩ := hp
  obtain ⟨⟨j, hj, rfl⟩, hk'⟩ := hq
  rw [hS.once (hash k) i j hi hj (hk.trans hk'.symm)]

/-- a slot belongs to one bucket -/
theorem covers_unique (hS : Sound hash t) (h5 : 5 ≤ order) {h h' : Pos order} {i i' : Nat} (hc : Covers t h i)
    (hc' : Covers t h' i') (e : slotAt h i = slotAt h' i') : h = h' ∧ i = i' := by
  obtain ⟨k, hk, hh⟩ := hS.keyed h i hc
  obtain ⟨k', hk', hh'⟩ := hS.keyed h' i' hc'
  rw [e, hk'] at hk
  obtain rfl := Option.some.inj hk
  have e1 : h = h' := hh.symm.trans hh'
  subst e1
  have hsize : 32 ≤ tableSize order := tableSize_ge h5
  exact ⟨rfl, slotAt_inj (Nat.lt_of_lt_of_le hc.lt hsize) (Nat.lt_of_lt_of_le hc'.lt hsize) e⟩

end Sound

section
variable [DecidableEq K]

/-- the lookup finds the key where it is stored, and compares no marker -/
theorem search_sound (hS : Sound hash t) (k : K) :
    ∃ r, search hash t k = some r ∧ ∀ p, r = some p ↔ Stored hash t k p := by
  have hkeys : ∀ i ∈ hops (t (hash k)).hopInfo, (t (slotAt (hash k) i)).key.isSome = true := fun i hi => by
    obtain ⟨k', hk', _⟩ := hS.keyed (hash k) i ((mem_hops _ i).mp hi)
    rw [hk']
    rfl
  obtain ⟨r, h1, h2, h3⟩ := walk_of_keys (k := k) hkeys
  refine ⟨r, (search_eq hash t k).trans h1, fun p => ⟨fun e => ?_, fun hp => ?_⟩⟩
  · obtain ⟨i, hi, hp, hk⟩ := h2 p e
    exact ⟨⟨i, (mem_hops _ i).mp hi, hp⟩, hk⟩
  · cases r with
    | none =>
      obtain ⟨⟨i, hi, rfl⟩, hk⟩ := hp
      exact absurd hk (h3 rfl i ((mem_hops _ i).mpr hi))
    | some q =>
      obtain ⟨i, hi, hq, hk⟩ := h2 q rfl
      rw [hS.stored_unique ⟨⟨i, (mem_hops _ i).mp hi, hq⟩, hk⟩ hp]

/-- the value of the key, as far as the lookup is defined -/
def lookup (hash : K → Pos order) (t : Table order K V) (k : K) : Option V := (get hash t k).join

theorem get_sound (hS : Sound hash t) (k : K) : get hash t k = some (lookup hash t k) := by
  obtain ⟨r, h1, _⟩ := search_sound hS k
  unfold lookup get
  rw [h1]
  rfl

theorem lookup_eq_some (hS : Sound hash t) (k : K) (v : V) :
    lookup hash t k = some v ↔ ∃ p, Stored hash t k p ∧ (t p).value = v := by
  obtain ⟨r, h1, h2⟩ := search_sound hS k
  unfold lookup get
  rw [h1]
  show r.map (fun p => (t p).value) = some v ↔ _
  rw [Option.map_eq_some_iff]
  constructor
  · rintro ⟨p, hp, hv⟩
    exact ⟨p, (h2 p).mp hp, hv⟩
  · rintro ⟨p, hp, hv⟩
    exact ⟨p, (h2 p).mpr hp, hv⟩

theorem lookup_eq_none (hS : Sound hash t) (k : K) : lookup hash t k = none ↔ ∀ p, ¬ Stored hash t k p := by
  rw [Option.eq_none_iff_forall_ne_some]
  constructor
  · exact fun h p hp => h _ ((lookup_eq_some hS k _).mpr ⟨p, hp, rfl⟩)
  · intro h v hv
    obtain ⟨p, hp, _⟩ := (lookup_eq_some hS k v).mp hv
    exact h p hp

/-- what a lookup finds is decided by where the keys stand and what they have for values -/
theorem lookup_ext (hS : Sound hash t) (hS' : Sound hash t') {k : K}
    (h : ∀ v, (∃ p, Stored hash t' k p ∧ (t' p).value = v) ↔ ∃ p, Stored hash t k p ∧ (t p).value = v) :
    lookup hash t' k = lookup hash t k := by
  refine Option.ext fun v => ?_
  have e := (lookup_eq_some hS' k v).trans ((h v).trans (lookup_eq_some hS k v).symm)
  exact e

end

/-! ## slots that no bitmap names -/

/-- the tables differ at most in slots that no bitmap names -/
structure SameView (t t' : Table order K V) : Prop where
  hopInfo : ∀ p, (t' p).hopInfo = (t p).hopInfo
  slot : ∀ p, Covered t p → (t' p).key = (t p).key ∧ (t' p).value = (t p).value

namespace SameView

theorem refl (t : Table order K V) : SameView t t := ⟨fun _ => rfl, fun _ _ => ⟨rfl, rfl⟩⟩

theorem covers (h : SameView t t') (p : Pos order) (i : Nat) : Covers t' p i ↔ Covers t p i := by
  unfold Covers
  rw [h.hopInfo]

theorem covered (h : SameView t t') (p : Pos order) : Covered t' p ↔ Covered t p := by
  unfold Covered
  simp only [h.covers]

theorem trans {t2 : Table order K V} (h : SameView t t') (h2 : SameView t' t2) : SameView t t2 :=
  ⟨fun p => (h2.hopInfo p).trans (h.hopInfo p), fun p hc => by
    obtain ⟨h3, h4⟩ := h2.slot p ((h.covered p).mpr hc)
    obtain ⟨h5, h6⟩ := h.slot p hc
    exact ⟨h3.trans h5, h4.trans h6⟩⟩

/-- a key is written to a slot that no bitmap names -/
theorem writeKey {p : Pos order} (hp : ¬ Covered t p) (x : Option K) : SameView t (Store.write t (.key p x)) :=
  ⟨fun q => hopInfo_writeKey t p q x, fun q hq => by
    have hne : q ≠ p := fun e => hp (by rwa [← e])
    exact ⟨by rw [key_writeKey, if_neg hne], value_writeKey t p q x⟩⟩

theorem writeValue {p : Pos order} (hp : ¬ Covered t p) (x : V) : SameView t (Store.write t (.value p x)) :=
  ⟨fun q => hopInfo_writeValue t p q x, fun q hq => by
    have hne : q ≠ p := fun e => hp (by rwa [← e])
    exact ⟨key_writeValue t p q x, by rw [value_writeValue, if_neg hne]⟩⟩

theorem sound (h : SameView t t') (hS : Sound hash t) : Sound hash t' := by
  have hkey : ∀ h' i, Covers t h' i → (t' (slotAt h' i)).key = (t (slotAt h' i)).key := fun h' i hc =>
    (h.slot _ ⟨h', i, hc, rfl⟩).1
  refine ⟨fun h' i hc => ?_, fun h' i j hi hj e => ?_⟩
  · have hc := (h.covers h' i).mp hc
    rw [hkey h' i hc]
    exact hS.keyed h' i hc
  · have hi := (h.covers h' i).mp hi
    have hj := (h.covers h' j).mp hj
    rw [hkey h' i hi, hkey h' j hj] at e
    exact hS.once h' i j hi hj e

theorem search [DecidableEq K] (h : SameView t t') (k : K) :
    Hopscotch.search hash t' k = Hopscotch.search hash t k := by
  rw [search_eq, search_eq, h.hopInfo]
  refine walk_congr fun i hi => ?_
  exact (h.slot _ ⟨hash k, i, (mem_hops _ i).mp hi, rfl⟩).1

/-- a reader notices nothing -/
theorem get [DecidableEq K] (h : SameView t t') (hS : Sound hash t) (k : K) :
    Hopscotch.get hash t' k = Hopscotch.get hash t k := by
  obtain ⟨r, h1, h2⟩ := search_sound hS k
  unfold Hopscotch.get
  rw [h.search, h1]
  cases r with
  | none => rfl
  | some p =>
    have hcov := ((h2 p).mp rfl).covered
    show some (some (t' p).value) = some (some (t p).value)
    rw [(h.slot p hcov).2]

end SameView

end

end

end Hopscotch
end Cjet
