import Cjet.Hash.Displace

/-!
# What put and remove do to the table

* `Between`                    what a reader may find while the entry of one key is written;
* `Displaces`, `EndsStuck`     the chain of displacements, as the table before the put decides it;
* `placed_place`               the loop that brings the free slot closer;
* `Puts`, `puts_put`           the ways of a put, and what follows in each of them;
* `Removes`, `removes_remove`  the same for remove.
-/

set_option linter.unusedVariables false
set_option linter.unusedSectionVars false

namespace Cjet
namespace Hopscotch

section
variable {order : Nat} {K V : Type} [DecidableEq K] {hash : K → Pos order} {t t' u : Table order K V}

/-! ## readers -/

/-- a reader of `u` finds what it finds in `t`, and for `k` perhaps what it finds in `t'` -/
structure Between (hash : K → Pos order) (t t' : Table order K V) (k : K) (u : Table order K V) : Prop where
  others : ∀ k', k' ≠ k → get hash u k' = get hash t k'
  own : get hash u k = get hash t k ∨ get hash u k = get hash t' k

theorem SameGets.between (h : SameGets hash t u) (t' : Table order K V) (k : K) : Between hash t t' k u :=
  ⟨fun k' _ => h k', Or.inl (h k)⟩

/-- the reader may start from a table with the same entries -/
theorem Between.of_sameGets {k : K} {w : Table order K V} (h : SameGets hash t u) (hb : Between hash u t' k w) :
    Between hash t t' k w :=
  ⟨fun k' hk' => (hb.others k' hk').trans (h k'), hb.own.imp (fun e => e.trans (h k)) id⟩

/-! ## the chain of displacements -/

/-- an entry can be moved to the slot at the distance `D`, and comes from the one at `D'` -/
def Displaces (t : Table order K V) (h : Pos order) (D D' : Nat) : Prop :=
  hopRange ≤ D ∧ ∃ c, closerFrom t (slotAt h D) (hopRange - 1) = some c ∧ D' = D - c.checkDistance + c.hop

/-- no entry can be moved to the slot at the distance `D` -/
def Stuck (t : Table order K V) (h : Pos order) (D : Nat) : Prop :=
  hopRange ≤ D ∧ closerFrom t (slotAt h D) (hopRange - 1) = none

/-- the displacements end before the free slot is in the range of the bucket -/
def EndsStuck (t : Table order K V) (h : Pos order) (D : Nat) : Prop :=
  ∃ D', Relation.ReflTransGen (Displaces t h) D D' ∧ Stuck t h D'

/-- so they do after at least one of them -/
def MovesStuck (t : Table order K V) (h : Pos order) (D : Nat) : Prop :=
  ∃ D', Relation.TransGen (Displaces t h) D D' ∧ Stuck t h D'

theorem movesStuck_iff {h : Pos order} {D : Nat} :
    MovesStuck t h D ↔ ∃ D', Displaces t h D D' ∧ EndsStuck t h D' := by
  constructor
  · rintro ⟨E, hE, hs⟩
    obtain ⟨D', h1, h2⟩ := Relation.TransGen.head'_iff.mp hE
    exact ⟨D', h1, E, h2, hs⟩
  · rintro ⟨D', h1, E, h2, hs⟩
    exact ⟨E, Relation.TransGen.head'_iff.mpr ⟨D', h1, h2⟩, hs⟩

theorem endsStuck_iff {h : Pos order} {D : Nat} : EndsStuck t h D ↔ Stuck t h D ∨ MovesStuck t h D := by
  rw [movesStuck_iff]
  constructor
  · rintro ⟨E, hE, hs⟩
    rcases Relation.ReflTransGen.cases_head hE with rfl | ⟨D', h1, h2⟩
    · exact Or.inl hs
    · exact Or.inr ⟨D', h1, E, h2, hs⟩
  · rintro (hs | ⟨D', h1, E, h2, hs⟩)
    · exact ⟨D, .refl, hs⟩
    · exact ⟨E, .head h1 h2, hs⟩

/-- the displacements after `D` are decided by the choices at the distances up to `D` -/
theorem endsStuck_congr (h30 : order ≤ 30) {h : Pos order} {D : Nat} (hD : D < tableSize order)
    (hc : ∀ E, hopRange ≤ E → E ≤ D → closerFrom u (slotAt h E) (hopRange - 1)
      = closerFrom t (slotAt h E) (hopRange - 1)) :
    EndsStuck u h D ↔ EndsStuck t h D := by
  induction D using Nat.strong_induction_on with
  | _ D ih =>
    rw [endsStuck_iff, endsStuck_iff, movesStuck_iff, movesStuck_iff]
    refine or_congr (and_congr_right fun h32 => by rw [hc D h32 (Nat.le_refl D)]) (exists_congr fun D' => ?_)
    unfold Displaces
    constructor
    · rintro ⟨⟨h32, c, h1, rfl⟩, h2⟩
      obtain ⟨hlt, _, _⟩ := distance_closer h30 hD h32 h1
      rw [hc D h32 (Nat.le_refl D)] at h1
      exact ⟨⟨h32, c, h1, rfl⟩, (ih _ hlt (by omega) fun E h3 h4 => hc E h3 (by omega)).mp h2⟩
    · rintro ⟨⟨h32, c, h1, rfl⟩, h2⟩
      obtain ⟨hlt, _, _⟩ := distance_closer h30 hD h32 h1
      refine ⟨⟨h32, c, by rw [hc D h32 (Nat.le_refl D), h1], rfl⟩, ?_⟩
      exact (ih _ hlt (by omega) fun E h3 h4 => hc E h3 (by omega)).mpr h2

/-! ## the loop of put -/

/-- an entry for `k` has been placed, or there was no room for it -/
structure Placed (hash : K → Pos order) (t : Table order K V) (k : K) (v : V) (D : Nat) (ok : Bool)
    (stores : List (Store order K V)) : Prop where
  sound : Sound hash (writeAll t stores)
  lookup : ∀ k', lookup hash (writeAll t stores) k' = if ok = true ∧ k' = k then some v else lookup hash t k'
  readers : Throughout (Between hash t (writeAll t stores) k) t stores
  full : ok = false ↔ EndsStuck t (hash k) D
  /-- the slot that was free is the only one that is used in addition -/
  covered : ok = true → ∀ q, Covered (writeAll t stores) q ↔ Covered t q ∨ q = slotAt (hash k) D
  keys : ok = true → ∀ q, ¬ Covered t q → q ≠ slotAt (hash k) D → (writeAll t stores q).key = (t q).key
  still : Stuck t (hash k) D → stores = []
  /-- the entry that was moved last has left its key behind -/
  leaves : MovesStuck t (hash k) D → ∃ q, ¬ Covered (writeAll t stores) q ∧ (writeAll t stores q).key ≠ none

/-- the slot is near enough -/
theorem placed_near (hS : Sound hash t) {k : K} (hno : ∀ q, ¬ Stored hash t k q) (v : V) {D : Nat} (hD : D < hopRange)
    (hfree : ¬ Covered t (slotAt (hash k) D)) :
    Placed hash t k v D true [.value (slotAt (hash k) D) v, .key (slotAt (hash k) D) (some k),
      .hopInfo (hash k) ((t (hash k)).hopInfo ||| 1#32 <<< D)] := by
  generalize hp : slotAt (hash k) D = p at hfree
  -- value and key go to a slot that no bitmap names
  have v1 : SameView t (Store.write t (.value p v)) := .writeValue hfree v
  have v2 := v1.trans (.writeKey (p := p) (fun h => hfree ((v1.covered p).mp h)) (some k))
  generalize hu1 : Store.write t (.value p v) = u1 at v1 v2
  generalize hu2 : Store.write u1 (.key p (some k)) = u2 at v2
  have hkey2 : ∀ q, (u2 q).key = if q = p then some k else (t q).key := fun q => by
    rw [← hu2, ← hu1, key_writeKey, key_writeValue]
  have hvalue2 : (u2 p).value = v := by
    rw [← hu2, ← hu1, value_writeKey, value_writeValue, if_pos rfl]
  -- with its bit the entry is in the table
  have hS2 := v2.sound hS
  have hkey : (u2 p).key = some k := (hkey2 p).trans (if_pos rfl)
  have hno2 : ∀ q, ¬ Stored hash u2 k q := fun q hq => by
    obtain ⟨⟨i, hc, hqi⟩, hk⟩ := hq
    have hc := (v2.covers _ _).mp hc
    have hcov : Covered t q := ⟨hash k, i, hc, hqi⟩
    exact hno q ⟨⟨i, hc, hqi⟩, by rw [← (v2.slot q hcov).1, hk]⟩
  have hlast : writeAll t [.value p v, .key p (some k), .hopInfo (hash k) ((t (hash k)).hopInfo ||| 1#32 <<< D)]
      = bitSet u2 (hash k) D := by
    unfold bitSet
    rw [writeAll_cons, writeAll_cons, writeAll_cons, writeAll_nil, hu1, hu2, v2.hopInfo]
  have hsound := sound_bitSet hS2 hD hp.symm hkey hno2
  have hlookup : ∀ k', lookup hash (bitSet u2 (hash k) D) k' = if k' = k then some v else lookup hash t k' := fun k' => by
    rw [lookup_bitSet hS2 hD hp.symm hkey hno2, hvalue2]
    unfold lookup
    rw [v2.get hS]
  have hnear : ¬ Stuck t (hash k) D := fun h => Nat.not_le_of_lt hD h.1
  have hnear' : ¬ MovesStuck t (hash k) D := fun h => by
    obtain ⟨D', h1, _⟩ := movesStuck_iff.mp h
    exact Nat.not_le_of_lt hD h1.1
  refine ⟨?_, fun k' => ?_, ?_, ?_, fun _ q => ?_, fun _ q hq hqp => ?_, fun h => absurd h hnear,
    fun h => absurd h hnear'⟩
  · rw [hlast]
    exact hsound
  · rw [hlast, hlookup]
    simp
  · rw [hlast]
    refine ⟨SameGets.between (fun _ => rfl) _ k, SameGets.between (fun k' => ?_) _ k,
      SameGets.between (fun k' => ?_) _ k, ?_⟩
    · rw [hu1]
      exact v1.get hS k'
    · rw [hu1, hu2]
      exact v2.get hS k'
    · show Between hash t _ k (writeAll t [.value p v, .key p (some k), .hopInfo (hash k) _])
      rw [hlast]
      refine ⟨fun k' hk' => ?_, Or.inr rfl⟩
      rw [get_sound hsound, get_sound hS, hlookup, if_neg hk']
  · rw [endsStuck_iff]
    simp [hnear, hnear']
  · rw [hlast, covered_bitSet hD, v2.covered]
  · rw [hlast]
    show (bitSet u2 (hash k) D q).key = _
    unfold bitSet
    rw [hp] at hqp
    rw [key_writeHopInfo, hkey2, if_neg hqp]

/-- no entry can be moved to the free slot -/
theorem placed_none (hS : Sound hash t) {k : K} {v : V} {D : Nat} (hs : Stuck t (hash k) D) :
    Placed hash t k v D false [] := by
  have hno : ¬ MovesStuck t (hash k) D := fun h => by
    obtain ⟨D', ⟨_, c, hc, _⟩, _⟩ := movesStuck_iff.mp h
    rw [hs.2] at hc
    cases hc
  refine ⟨hS, fun k' => ?_, SameGets.between (fun _ => rfl) _ k, ?_, fun h => (by cases h), fun h => (by cases h),
    fun _ => rfl, fun h => absurd h hno⟩
  · simp [writeAll_nil]
  · rw [endsStuck_iff]
    simp [hs]

/-- an entry is moved, and the loop goes on in the table after that -/
theorem placed_cons (hS : Sound hash t) (h30 : order ≤ 30) {k : K} {v : V} {D : Nat} (hD : D < tableSize order)
    (h32 : hopRange ≤ D) (hno : ¬ Covered t (slotAt (hash k) D)) {c : Closer order}
    (hc : closerFrom t (slotAt (hash k) D) (hopRange - 1) = some c)
    (hm : Moved hash t (slotAt (hash k) D) c.hopPosition (c.moveStores t (slotAt (hash k) D))) {ok : Bool}
    {stores : List (Store order K V)}
    (hrest : Placed hash (writeAll t (c.moveStores t (slotAt (hash k) D))) k v
      (D - c.checkDistance + c.hop) ok stores) :
    Placed hash t k v D ok (c.moveStores t (slotAt (hash k) D) ++ stores) := by
  obtain ⟨hlt, _, hhop⟩ := distance_closer h30 hD h32 hc
  have hsame := fun E hE hED => closerFrom_move (E := E) h30 hD h32 hc hE hED (slotAt (hash k) D)
  generalize hfree : slotAt (hash k) D = free at *
  generalize hu : writeAll t (c.moveStores t free) = u at hrest
  have hgets : SameGets hash t u := fun k' => by
    have hsound := hm.sound
    have hlookup := hm.lookup k'
    rw [hu] at hsound hlookup
    rw [get_sound hsound, get_sound hS, hlookup]
  have hcov : ∀ q, Covered u q ↔ (Covered t q ∧ q ≠ c.hopPosition) ∨ q = free := by
    rw [← hu]
    exact hm.covered
  have hkeys : ∀ q, q ≠ free → (u q).key = (t q).key := by
    rw [← hu]
    exact hm.keys
  have hstuck : EndsStuck u (hash k) (D - c.checkDistance + c.hop) ↔
    EndsStuck t (hash k) (D - c.checkDistance + c.hop) :=
    endsStuck_congr h30 (by omega) fun E hE hED => by
      rw [← hu]
      exact hsame E hE hED
  have hmoves : MovesStuck t (hash k) D ↔ EndsStuck t (hash k) (D - c.checkDistance + c.hop) := by
    rw [movesStuck_iff]
    constructor
    · rintro ⟨D', ⟨_, c', hc', rfl⟩, h2⟩
      rw [hfree, hc] at hc'
      cases hc'
      exact h2
    · intro h2
      exact ⟨_, ⟨h32, c, by rw [hfree, hc], rfl⟩, h2⟩
  have hnot : ¬ Stuck t (hash k) D := fun h => by
    have e := h.2
    rw [hfree, hc] at e
    cases e
  have hlast : writeAll t (c.moveStores t free ++ stores) = writeAll u stores := by
    rw [writeAll_append, hu]
  refine ⟨?_, fun k' => ?_, ?_, ?_, fun hok q => ?_, fun hok q hq hqf => ?_, fun h => absurd h hnot, fun h => ?_⟩
  · rw [hlast]
    exact hrest.sound
  · have hlookup := hm.lookup k'
    rw [hu] at hlookup
    rw [hlast, hrest.lookup, hlookup]
  · rw [hlast]
    refine (hm.readers.mono fun w hw => hw.between _ k).append ?_
    rw [hu]
    exact hrest.readers.mono fun w hw => hw.of_sameGets hgets
  · rw [hrest.full, hstuck, ← hmoves, endsStuck_iff, or_iff_right hnot]
  · have hold : Covered t c.hopPosition := hm.old
    rw [hlast, hrest.covered hok, hcov, hhop, hfree]
    by_cases e : q = slotAt (hash k) (D - c.checkDistance + c.hop)
    · rw [hhop, ← e] at hold
      exact iff_of_true (Or.inr e) (Or.inl hold)
    · simp [e]
  · rw [hlast]
    have hne : q ≠ c.hopPosition := fun e => hq (by rw [e]; exact hm.old)
    have hqf' : q ≠ free := by rwa [← hfree]
    have hqu : ¬ Covered u q := fun h => by
      rcases (hcov q).mp h with h1 | h1
      · exact hq h1.1
      · exact hqf' h1
    rw [hrest.keys hok q hqu (by rwa [← hhop]), hkeys q hqf']
  · rw [hlast]
    have hends := hstuck.mpr (hmoves.mp h)
    rcases endsStuck_iff.mp hends with hs | hs
    · rw [hrest.still hs, writeAll_nil]
      obtain ⟨k', hk'⟩ := hS.key_of_covered hm.old
      have hne : c.hopPosition ≠ free := fun e => hno (by rw [← e]; exact hm.old)
      refine ⟨c.hopPosition, fun h1 => ?_, ?_⟩
      · rcases (hcov _).mp h1 with h2 | h2
        · exact h2.2 rfl
        · exact hne h2
      · rw [hkeys _ hne, hk'.2]
        exact Option.some_ne_none k'
    · exact hrest.leaves hs

theorem placed_place (hS : Sound hash t) (h5 : 5 ≤ order) (h30 : order ≤ 30) {k : K} (hno : ∀ q, ¬ Stored hash t k q)
    (v : V) {fuel D : Nat} (hfuel : D < fuel) (hD : D < tableSize order) (hfree : ¬ Covered t (slotAt (hash k) D)) :
    ∃ ok stores, place (hash k) k v fuel t (slotAt (hash k) D) D = some (ok, stores) ∧
      Placed hash t k v D ok stores := by
  induction fuel generalizing t D with
  | zero => exact absurd hfuel (Nat.not_lt_zero D)
  | succ fuel ih =>
    unfold place
    by_cases h32 : D < hopRange
    · rw [if_pos h32]
      exact ⟨true, _, rfl, placed_near hS hno v h32 hfree⟩
    · rw [if_neg h32]
      have h32 := Nat.le_of_not_lt h32
      unfold findCloserEntry
      cases hc : closerFrom t (slotAt (hash k) D) (hopRange - 1) with
      | none => exact ⟨false, [], rfl, placed_none hS ⟨h32, hc⟩⟩
      | some c =>
        have hm := moved_closer hS h5 h30 hfree hc
        obtain ⟨hlt, _, hhop⟩ := distance_closer h30 hD h32 hc
        have hno' : ∀ q, ¬ Stored hash (writeAll t (c.moveStores t (slotAt (hash k) D))) k q := by
          rw [← lookup_eq_none hm.sound, hm.lookup, lookup_eq_none hS]
          exact hno
        have hfree' : ¬ Covered (writeAll t (c.moveStores t (slotAt (hash k) D)))
            (slotAt (hash k) (D - c.checkDistance + c.hop)) := by
          rw [hm.covered, ← hhop]
          rintro (h | h)
          · exact h.2 rfl
          · exact hfree (h ▸ hm.old)
        obtain ⟨ok, stores, h1, h2⟩ := ih hm.sound hno' (by omega) (by omega) hfree'
        refine ⟨ok, _, ?_, placed_cons hS h30 hD h32 hfree hc hm h2⟩
        show (place (hash k) k v fuel _ c.hopPosition _).map _ = _
        rw [hhop, distance_slotAt h30 (hash k) (by omega), h1]
        rfl

/-! ## the search for a free slot -/

/-- the first free slot of `hashtable_put` is the one at the distance `D` -/
structure NearestFree (t : Table order K V) (h : Pos order) (D : Nat) : Prop where
  inRange : D < addRange order
  free : (t (slotAt h D)).key = none
  nearest : ∀ E < D, (t (slotAt h E)).key ≠ none

theorem findFree_spec (t : Table order K V) (h : Pos order) {left d : Nat} (hd : d + left = addRange order)
    (hbefore : ∀ E < d, (t (slotAt h E)).key ≠ none) :
    (findFree t left d (slotAt h d) = none ∧ ∀ D, ¬ NearestFree t h D) ∨
      ∃ D, findFree t left d (slotAt h d) = some (D, slotAt h D) ∧ NearestFree t h D := by
  induction left generalizing d with
  | zero =>
    refine Or.inl ⟨rfl, fun D hD => hbefore D ?_ hD.free⟩
    have := hD.inRange
    omega
  | succ left ih =>
    have hstep : wrapPos ((slotAt h d : Pos order) + 1) = slotAt h (d + 1) := wrapPos_slotAt h d 1
    unfold findFree
    rw [hstep]
    cases hkey : (t (slotAt h d)).key with
    | none => exact Or.inr ⟨d, rfl, by omega, hkey, hbefore⟩
    | some k =>
      refine ih (by omega) fun E hE => ?_
      rcases Nat.lt_succ_iff_lt_or_eq.mp hE with hlt | rfl
      · exact hbefore E hlt
      · rw [hkey]
        exact Option.some_ne_none k

theorem addRange_le (h5 : 5 ≤ order) : 2 * addRange order = tableSize order := by
  unfold addRange tableSize
  obtain ⟨n, rfl⟩ : ∃ n, order = n + 1 := ⟨order - 1, by omega⟩
  rw [Nat.add_sub_cancel, Nat.pow_succ, Nat.mul_comm]

theorem NearestFree.not_covered (hS : Sound hash t) {h : Pos order} {D : Nat} (hD : NearestFree t h D) :
    ¬ Covered t (slotAt h D) := by
  intro hc
  obtain ⟨k, hk⟩ := hS.key_of_covered hc
  have hkey := hk.2
  rw [hD.free] at hkey
  cases hkey

/-! ## put -/

section
variable [Zero V]

/-- the three ways of a put -/
inductive Puts (hash : K → Pos order) (t : Table order K V) (k : K) (v : V) : PutResult order K V → Prop where
  | stored (p : Pos order) (hp : Stored hash t k p) : Puts hash t k v ⟨.success, (t p).value, [.value p v]⟩
  | crowded (hno : ∀ q, ¬ Stored hash t k q) (hfull : ∀ D, ¬ NearestFree t (hash k) D) : Puts hash t k v ⟨.full, 0, []⟩
  | placed (D : Nat) (ok : Bool) (stores : List (Store order K V)) (hno : ∀ q, ¬ Stored hash t k q)
      (hfree : NearestFree t (hash k) D) (hplaced : Placed hash t k v D ok stores) :
      Puts hash t k v ⟨if ok then .success else .full, 0, stores⟩

theorem puts_put (hS : Sound hash t) (h5 : 5 ≤ order) (h30 : order ≤ 30) (k : K) (v : V) :
    ∃ r, put hash t (some k) v = some r ∧ Puts hash t k v r := by
  obtain ⟨found, h1, h2⟩ := search_sound hS k
  unfold put
  dsimp only
  rw [h1]
  cases found with
  | some p => exact ⟨_, rfl, .stored p ((h2 p).mp rfl)⟩
  | none =>
    have hno : ∀ q, ¬ Stored hash t k q := fun q hq => by
      have e := (h2 q).mpr hq
      cases e
    have hsearch := findFree_spec t (hash k) (Nat.zero_add (addRange order)) fun E hE => absurd hE (Nat.not_lt_zero E)
    rw [slotAt_zero] at hsearch
    rcases hsearch with ⟨hf, hfull⟩ | ⟨D, hf, hfree⟩
    · rw [hf]
      exact ⟨_, rfl, .crowded hno hfull⟩
    · have hrange := hfree.inRange
      have hsize := addRange_le h5
      obtain ⟨ok, stores, h3, h4⟩ := placed_place hS h5 h30 hno v hrange (by omega) (hfree.not_covered hS)
      rw [hf]
      show ∃ r, (place (hash k) k v (addRange order) t (slotAt (hash k) D) D).map _ = some r ∧ _
      rw [h3]
      exact ⟨_, rfl, .placed D ok stores hno hfree h4⟩

namespace Puts
variable {k : K} {v : V} {r : PutResult order K V}

theorem sound (hS : Sound hash t) (h : Puts hash t k v r) : Sound hash (writeAll t r.stores) := by
  cases h with
  | stored p hp => exact sound_writeValue hS p v
  | crowded hno hfull => exact hS
  | placed D ok stores hno hfree hplaced => exact hplaced.sound

/-- what a put leaves in the table -/
theorem lookup (hS : Sound hash t) (h : Puts hash t k v r) (k' : K) :
    lookup hash (writeAll t r.stores) k' = if r.status = .success ∧ k' = k then some v else lookup hash t k' := by
  cases h with
  | stored p hp =>
    show Hopscotch.lookup hash (Store.write t (.value p v)) k' = _
    rw [lookup_writeValue hS hp]
    simp
  | crowded hno hfull => simp [writeAll_nil]
  | placed D ok stores hno hfree hplaced =>
    rw [hplaced.lookup]
    cases ok <;> simp

/-- `prev_value` -/
theorem prevValue (hS : Sound hash t) (h : Puts hash t k v r) : r.prevValue = (Hopscotch.lookup hash t k).getD 0 := by
  cases h with
  | stored p hp => rw [(lookup_eq_some hS k _).mpr ⟨p, hp, rfl⟩, Option.getD_some]
  | crowded hno hfull => rw [(lookup_eq_none hS k).mpr hno, Option.getD_none]
  | placed D ok stores hno hfree hplaced => rw [(lookup_eq_none hS k).mpr hno, Option.getD_none]

/-- the table is full for new keys only -/
theorem status (hS : Sound hash t) (h : Puts hash t k v r) :
    r.status = .success ∨ r.status = .full ∧ Hopscotch.lookup hash t k = none := by
  cases h with
  | stored p hp => exact Or.inl rfl
  | crowded hno hfull => exact Or.inr ⟨rfl, (lookup_eq_none hS k).mpr hno⟩
  | placed D ok stores hno hfree hplaced =>
    cases ok with
    | true => exact Or.inl rfl
    | false => exact Or.inr ⟨rfl, (lookup_eq_none hS k).mpr hno⟩

/-- a reader may come at any time -/
theorem readers (hS : Sound hash t) (h : Puts hash t k v r) :
    Throughout (Between hash t (writeAll t r.stores) k) t r.stores := by
  cases h with
  | stored p hp =>
    refine ⟨SameGets.between (fun _ => rfl) _ k, fun k' hk' => ?_, Or.inr rfl⟩
    have hsound := sound_writeValue hS p v
    rw [get_sound hsound, get_sound hS, lookup_writeValue hS hp, if_neg hk']
  | crowded hno hfull => exact SameGets.between (fun _ => rfl) _ k
  | placed D ok stores hno hfree hplaced => exact hplaced.readers

end Puts

/-! ## remove -/

/-- the stores of `hashtable_remove` -/
def removeStores (t : Table order K V) (h : Pos order) (i : Nat) : List (Store order K V) :=
  [.key (slotAt h i) none, .value (slotAt h i) 0, .hopInfo h ((t h).hopInfo &&& ~~~(1#32 <<< i))]

/-- the two ways of a remove -/
inductive Removes (hash : K → Pos order) (t : Table order K V) (k : K) : Option V × List (Store order K V) → Prop where
  | absent (hno : ∀ q, ¬ Stored hash t k q) : Removes hash t k (none, [])
  | stored (i : Nat) (hc : Covers t (hash k) i) (hp : Stored hash t k (slotAt (hash k) i)) :
      Removes hash t k (some (t (slotAt (hash k) i)).value, removeStores t (hash k) i)

theorem removes_remove (hS : Sound hash t) (h5 : 5 ≤ order) (h30 : order ≤ 30) (k : K) :
    ∃ r, remove hash t k = some r ∧ Removes hash t k r := by
  obtain ⟨found, h1, h2⟩ := search_sound hS k
  unfold remove
  rw [h1]
  cases found with
  | none =>
    refine ⟨_, rfl, .absent fun q hq => ?_⟩
    have e := (h2 q).mpr hq
    cases e
  | some p =>
    have hp := (h2 p).mp rfl
    obtain ⟨i, hc, rfl⟩ := hp.1
    have hi := hc.lt
    have hsize := tableSize_ge h5
    refine ⟨_, ?_, .stored i hc hp⟩
    show some (_, [_, _, Store.hopInfo _ _]) = _
    rw [distance_slotAt h30 (hash k) (by omega)]
    rfl

theorem key_removeStores (h : Pos order) (i : Nat) (q : Pos order) :
    (writeAll t (removeStores t h i) q).key = if q = slotAt h i then none else (t q).key := by
  unfold removeStores
  rw [writeAll_cons, writeAll_cons, writeAll_cons, writeAll_nil, key_writeHopInfo, key_writeValue, key_writeKey]

/-- the entry disappears with its bit, and the slot becomes free -/
theorem sameView_remove (hS : Sound hash t) (h5 : 5 ≤ order) {h : Pos order} {i : Nat} (hc : Covers t h i) :
    SameView (bitCleared t h i) (writeAll t (removeStores t h i)) := by
  refine ⟨fun q => ?_, fun q hq => ?_⟩
  · unfold removeStores bitCleared
    rw [writeAll_cons, writeAll_cons, writeAll_cons, writeAll_nil, hopInfo_writeHopInfo, hopInfo_writeHopInfo,
      hopInfo_writeValue, hopInfo_writeKey]
  · have hne := ((covered_bitCleared hS h5 hc q).mp hq).2
    rw [key_removeStores, if_neg hne]
    unfold removeStores bitCleared
    rw [key_writeHopInfo, writeAll_cons, writeAll_cons, writeAll_cons, writeAll_nil, value_writeHopInfo,
      value_writeHopInfo, value_writeValue, value_writeKey, if_neg hne]
    exact ⟨rfl, rfl⟩

namespace Removes
variable {k : K} {r : Option V × List (Store order K V)}

theorem sound (hS : Sound hash t) (h5 : 5 ≤ order) (h : Removes hash t k r) : Sound hash (writeAll t r.2) := by
  cases h with
  | absent hno => exact hS
  | stored i hc hp => exact (sameView_remove hS h5 hc).sound (sound_bitCleared hS (hash k) i)

theorem result (hS : Sound hash t) (h : Removes hash t k r) : r.1 = Hopscotch.lookup hash t k := by
  cases h with
  | absent hno => exact ((lookup_eq_none hS k).mpr hno).symm
  | stored i hc hp => exact ((lookup_eq_some hS k _).mpr ⟨_, hp, rfl⟩).symm

/-- what a remove leaves in the table -/
theorem lookup (hS : Sound hash t) (h5 : 5 ≤ order) (h : Removes hash t k r) (k' : K) :
    lookup hash (writeAll t r.2) k' = if k' = k then none else lookup hash t k' := by
  cases h with
  | absent hno =>
    show Hopscotch.lookup hash t k' = _
    by_cases e : k' = k
    · rw [if_pos e, e, (lookup_eq_none hS k).mpr hno]
    · rw [if_neg e]
  | stored i hc hp =>
    have hget := (sameView_remove hS h5 hc).get (sound_bitCleared hS (hash k) i) k'
    show (get hash (writeAll t (removeStores t (hash k) i)) k').join = _
    rw [hget]
    exact lookup_bitCleared hS h5 hc hp.2 k'

/-- other keys stay where they are -/
theorem key (h : Removes hash t k r) {q : Pos order} (hq : (t q).key ≠ some k) :
    (writeAll t r.2 q).key = (t q).key := by
  cases h with
  | absent hno => rfl
  | stored i hc hp =>
    have hne : q ≠ slotAt (hash k) i := fun e => hq (by rw [e, hp.2])
    show (writeAll t (removeStores t (hash k) i) q).key = _
    rw [key_removeStores, if_neg hne]

end Removes

end

end

end Hopscotch
end Cjet
