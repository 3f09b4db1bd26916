import Cjet.Hash.Capacity
import Cjet.Lib.Descent

/-!
# The rounds of the last loop of put

Each round either ends the loop or displaces one entry, and the free slot comes closer to the bucket of
the new key.

* `Round`, `firstRound`, `Round.next`   the loop without a bound on its rounds;
* `place_turns`           the loop is that of `hashtable_put`;
* `MovesEntry`, `Displacement`   what a successful call of `find_closer_entry` does;
* `Round.Good`, `displacement_next`   one round;
* `put_ends`              the loop of any put on any table that a run of calls leaves.
-/

set_option linter.unusedVariables false
set_option linter.unusedSectionVars false

namespace Cjet
open Stateful Descent

namespace Hopscotch

section
variable {order : Nat} {K V : Type}

/-! ## the loop -/

/-- how far the slot is behind the hash position, as `free_distance` is computed -/
def distance (h p : Pos order) : Nat := (wrapPos (sub32 p h) : Pos order)

/-- the state of the loop at the head of a round -/
structure Round (order : Nat) (K V : Type) where
  table : Table order K V
  freePos : Pos order
  freeDistance : Nat

/-- the round after one with a successful call of `find_closer_entry` -/
def Round.next (h : Pos order) (s : Round order K V) : Option (Round order K V) :=
  if s.freeDistance < hopRange then none
  else (findCloserEntry s.table s.freePos).map fun r => ⟨writeAll s.table r.2, r.1, distance h r.1⟩

/-- the stores of the round that ends the loop -/
def Round.lastStores (h : Pos order) (k : K) (value : V) (s : Round order K V) : List (Store order K V) :=
  if s.freeDistance < hopRange then
    [.value s.freePos value, .key s.freePos (some k), .hopInfo h ((s.table h).hopInfo ||| 1#32 <<< s.freeDistance)]
  else []

/-- a new key enters the loop with the first free slot -/
def firstRound [DecidableEq K] (hash : K → Pos order) (t : Table order K V) (k : K) : Option (Round order K V) :=
  match search hash t k with
  | some none => (findFree t (addRange order) 0 (hash k)).map fun r => ⟨t, r.2, r.1⟩
  | _ => none

section
variable {h : Pos order} {s s' u : Round order K V}

theorem next_some (hnext : s.next h = some s') :
    ∃ c, hopRange ≤ s.freeDistance ∧ closerFrom s.table s.freePos (hopRange - 1) = some c ∧
      s' = ⟨writeAll s.table (c.moveStores s.table s.freePos), c.hopPosition, distance h c.hopPosition⟩ := by
  unfold Round.next findCloserEntry at hnext
  by_cases hnear : s.freeDistance < hopRange
  · rw [if_pos hnear] at hnext
    cases hnext
  · rw [if_neg hnear, Option.map_map, Option.map_eq_some_iff] at hnext
    obtain ⟨c, hc, rfl⟩ := hnext
    exact ⟨c, Nat.le_of_not_lt hnear, hc, rfl⟩

theorem next_none (hnext : s.next h = none) (hfar : ¬ s.freeDistance < hopRange) :
    findCloserEntry s.table s.freePos = none := by
  unfold Round.next at hnext
  rw [if_neg hfar] at hnext
  exact Option.map_eq_none_iff.mp hnext

/-- any bound above the number of the rounds serves for `place` -/
theorem place_turns (k : K) (v : V) {n : Nat} (hrun : Turns (Round.next h) n s u) (hlast : u.next h = none) {fuel : Nat}
    (hfuel : n < fuel) :
    ∃ stores, place h k v fuel s.table s.freePos s.freeDistance = some (decide (u.freeDistance < hopRange), stores) ∧
      writeAll s.table stores = writeAll u.table (u.lastStores h k v) := by
  induction hrun generalizing fuel with
  | refl s =>
    obtain ⟨fuel, rfl⟩ : ∃ m, fuel = m + 1 := ⟨fuel - 1, by omega⟩
    unfold place Round.lastStores
    by_cases hnear : s.freeDistance < hopRange
    · rw [if_pos hnear, if_pos hnear, decide_eq_true hnear]
      exact ⟨_, rfl, rfl⟩
    · rw [if_neg hnear, if_neg hnear, decide_eq_false hnear, next_none hlast hnear]
      exact ⟨[], rfl, rfl⟩
  | @cons n s s' u hnext hrest ih =>
    obtain ⟨fuel, rfl⟩ : ∃ m, fuel = m + 1 := ⟨fuel - 1, by omega⟩
    obtain ⟨c, hfar, hc, rfl⟩ := next_some hnext
    obtain ⟨stores, h1, h2⟩ := ih hlast (Nat.lt_of_succ_lt_succ hfuel)
    refine ⟨c.moveStores s.table s.freePos ++ stores, ?_, ?_⟩
    · unfold place findCloserEntry
      rw [if_neg (Nat.not_lt.mpr hfar), hc]
      show (place h k v fuel _ c.hopPosition (distance h c.hopPosition)).map _ = _
      rw [h1]
      rfl
    · rw [writeAll_append]
      exact h2

end

/-! ## one displacement -/

/-- the entry of `k` goes from the slot `free'` to the slot `free`, and all the rest stays -/
structure MovesEntry (hash : K → Pos order) (t u : Table order K V) (k : K) (free free' : Pos order) : Prop where
  old : Stored hash t k free'
  new : Stored hash u k free
  value : (u free).value = (t free').value
  slots : ∀ q, q ≠ free → (u q).key = (t q).key ∧ (u q).value = (t q).value
  bits : ∀ h i, Covers u h i ↔
    (Covers t h i ∧ ¬ (h = hash k ∧ i = distance h free')) ∨ h = hash k ∧ i = distance h free

/-- a successful call of `find_closer_entry` in the loop for the key `k` -/
structure Displacement (hash : K → Pos order) (k : K) (s s' : Round order K V) : Prop where
  free : ¬ Covered s'.table s'.freePos
  noMarker : (s'.freePos : Nat) ≠ 0xffffffff
  measured : s.freeDistance = distance (hash k) s.freePos ∧ s'.freeDistance = distance (hash k) s'.freePos
  closer : 1 ≤ s'.freeDistance ∧ s'.freeDistance < s.freeDistance
  /-- on the way back to it the home position is not passed -/
  back : distance s'.freePos s.freePos + s'.freeDistance = s.freeDistance
  moves : ∃ k', MovesEntry hash s.table s'.table k' s.freePos s'.freePos ∧ distance (hash k') s.freePos < hopRange

section
variable {t : Table order K V} {free : Pos order} {c : Closer order}

variable (t free) in
theorem covers_moveStores (h31 : c.checkDistance ≤ 31) (h : Pos order) (i : Nat) :
    Covers (writeAll t (c.moveStores t free)) h i ↔
      (Covers t h i ∧ ¬ (h = c.checkPosition ∧ i = c.hop)) ∨ h = c.checkPosition ∧ i = c.checkDistance := by
  generalize hu : Store.write (Store.write t (.key free (t c.hopPosition).key))
    (.value free (t c.hopPosition).value) = u
  have hhop : ∀ q, (u q).hopInfo = (t q).hopInfo := fun q => by
    rw [← hu, hopInfo_writeValue, hopInfo_writeKey]
  have hlast : writeAll t (c.moveStores t free) = bitMoved u c.checkPosition c.hop c.checkDistance := by
    unfold Closer.moveStores bitMoved
    rw [writeAll_cons, writeAll_cons, writeAll_cons, writeAll_nil, hu, hhop]
  rw [hlast, covers_bitMoved (Nat.lt_succ_of_le h31)]
  unfold Covers
  rw [hhop]

theorem key_moveStores (q : Pos order) :
    (writeAll t (c.moveStores t free) q).key = if q = free then (t c.hopPosition).key else (t q).key := by
  unfold Closer.moveStores
  rw [writeAll_cons, writeAll_cons, writeAll_cons, writeAll_nil, key_writeHopInfo, key_writeValue, key_writeKey]

theorem value_moveStores (q : Pos order) :
    (writeAll t (c.moveStores t free) q).value = if q = free then (t c.hopPosition).value else (t q).value := by
  unfold Closer.moveStores
  rw [writeAll_cons, writeAll_cons, writeAll_cons, writeAll_nil, value_writeHopInfo, value_writeValue, value_writeKey]

theorem movesEntry_closer {hash : K → Pos order} (hS : Sound hash t) (h5 : 5 ≤ order) (h30 : order ≤ 30)
    (hc : closerFrom t free (hopRange - 1) = some c) :
    ∃ k, MovesEntry hash t (writeAll t (c.moveStores t free)) k free c.hopPosition ∧
      distance (hash k) free < hopRange := by
  obtain ⟨hpos, hle, hlt, hcheck, hcov⟩ := closerFrom_some (by decide) hc
  have hle : c.checkDistance ≤ 31 := hle
  have hsize := tableSize_ge h5
  have hslot : free = slotAt c.checkPosition c.checkDistance := by
    rw [hcheck]
    exact (slotAt_back h30 free (by omega)).symm
  have hnew : distance c.checkPosition free = c.checkDistance := by
    rw [hslot]
    exact distance_slotAt h30 _ (by omega)
  have hold : distance c.checkPosition c.hopPosition = c.hop := distance_slotAt h30 _ (by omega)
  obtain ⟨k, hstored, hhome⟩ := hS.stored_of_covers hcov
  have hbits := covers_moveStores t free hle
  refine ⟨k, ⟨hstored, ⟨⟨c.checkDistance, ?_, ?_⟩, ?_⟩, ?_, fun q hq => ⟨?_, ?_⟩, fun h i => ?_⟩, ?_⟩
  · rw [hhome, hbits]
    exact Or.inr ⟨rfl, rfl⟩
  · rw [hhome]
    exact hslot
  · rw [key_moveStores, if_pos rfl]
    exact hstored.2
  · rw [value_moveStores, if_pos rfl]
  · rw [key_moveStores, if_neg hq]
  · rw [value_moveStores, if_neg hq]
  · rw [hbits, hhome]
    constructor
    · rintro (⟨h1, h2⟩ | ⟨rfl, rfl⟩)
      · refine Or.inl ⟨h1, ?_⟩
        rintro ⟨rfl, rfl⟩
        exact h2 ⟨rfl, hold⟩
      · exact Or.inr ⟨rfl, hnew.symm⟩
    · rintro (⟨h1, h2⟩ | ⟨rfl, rfl⟩)
      · refine Or.inl ⟨h1, ?_⟩
        rintro ⟨rfl, rfl⟩
        exact h2 ⟨rfl, hold.symm⟩
      · exact Or.inr ⟨rfl, hnew⟩
  · rw [hhome, hnew]
    exact Nat.lt_succ_of_le hle

end

section
variable [DecidableEq K] {hash : K → Pos order} {k : K} {s s' u : Round order K V}

/-- what every round of the loop for the key `k` starts from -/
structure Round.Good (hash : K → Pos order) (k : K) (s : Round order K V) : Prop where
  sound : Sound hash s.table
  position : s.freePos = slotAt (hash k) s.freeDistance
  inTable : s.freeDistance < tableSize order
  free : ¬ Covered s.table s.freePos

theorem displacement_next (h5 : 5 ≤ order) (h30 : order ≤ 30) (hs : s.Good hash k) (hnext : s.next (hash k) = some s') :
    s'.Good hash k ∧ Displacement hash k s s' := by
  obtain ⟨c, hfar, hc, rfl⟩ := next_some hnext
  have hfar : 32 ≤ s.freeDistance := hfar
  have hm := moved_closer hs.sound h5 h30 hs.free hc
  obtain ⟨k', hmoves, hnear⟩ := movesEntry_closer hs.sound h5 h30 hc
  obtain ⟨hpos, hle, hlt, _, _⟩ := closerFrom_some (by decide) hc
  have hle : c.checkDistance ≤ 31 := hle
  rw [hs.position] at hc
  obtain ⟨hcloser, _, hhop⟩ := distance_closer h30 hs.inTable hfar hc
  generalize hD : s.freeDistance - c.checkDistance + c.hop = D at hcloser hhop
  have hin : D < tableSize order := Nat.lt_trans hcloser hs.inTable
  have hdist : distance (hash k) c.hopPosition = D := by
    rw [hhop]
    exact distance_slotAt h30 (hash k) hin
  have hfree : ¬ Covered (writeAll s.table (c.moveStores s.table s.freePos)) c.hopPosition := by
    rw [hm.covered]
    rintro (h | h)
    · exact h.2 rfl
    · exact hs.free (h ▸ hm.old)
  have hback : distance c.hopPosition s.freePos = s.freeDistance - D := by
    have e : s.freePos = slotAt c.hopPosition (s.freeDistance - D) := by
      rw [hs.position, hhop, slotAt_slotAt, Nat.add_sub_cancel' (Nat.le_of_lt hcloser)]
    rw [e]
    exact distance_slotAt h30 _ (Nat.lt_of_le_of_lt (Nat.sub_le _ _) hs.inTable)
  refine ⟨⟨hm.sound, ?_, ?_, hfree⟩, ⟨hfree, ?_, ⟨?_, rfl⟩, ⟨?_, ?_⟩, ?_, k', hmoves, hnear⟩⟩
  · rw [hdist]
    exact hhop
  · rw [hdist]
    exact hin
  · have hmarker : tableSize order ≤ 0xffffffff := Nat.le_trans (tableSize_le h30) (by decide)
    exact Nat.ne_of_lt (Nat.lt_of_lt_of_le c.hopPosition.isLt hmarker)
  · rw [hs.position]
    exact (distance_slotAt h30 (hash k) hs.inTable).symm
  · show 1 ≤ distance (hash k) c.hopPosition
    rw [hdist]
    omega
  · rw [hdist]
    exact hcloser
  · rw [hback, hdist]
    exact Nat.sub_add_cancel (Nat.le_of_lt hcloser)

/-! ## all rounds -/

/-- the first round stands at the first free slot -/
theorem good_firstRound {t : Table order K V} (hS : Sound hash t) (h5 : 5 ≤ order)
    (hfirst : firstRound hash t k = some s) :
    s.Good hash k ∧ s.table = t ∧ s.freeDistance < addRange order ∧ search hash t k = some none ∧
      findFree t (addRange order) 0 (hash k) = some (s.freeDistance, s.freePos) := by
  obtain ⟨found, h1, _⟩ := search_sound hS k
  unfold firstRound at hfirst
  rw [h1] at hfirst
  cases found with
  | some p => cases hfirst
  | none =>
    obtain ⟨r, hr, rfl⟩ := Option.map_eq_some_iff.mp hfirst
    have hsearch := findFree_spec t (hash k) (Nat.zero_add (addRange order)) fun E hE => absurd hE (Nat.not_lt_zero E)
    rw [slotAt_zero, hr] at hsearch
    rcases hsearch with ⟨e, _⟩ | ⟨D, e, hfree⟩
    · cases e
    · obtain rfl := Option.some.inj e
      have hrange := hfree.inRange
      have hsize := addRange_le h5
      have hin : D < tableSize order := by omega
      exact ⟨⟨hS, rfl, hin, hfree.not_covered hS⟩, rfl, hrange, h1, hr⟩

section
variable [Zero V]

/-- the loop that starts with the round `s` for the key `k` and the value `v` -/
structure LoopEnds (hash : K → Pos order) (t : Table order K V) (k : K) (v : V) (s : Round order K V) : Prop where
  displacement : ∀ n u u', Turns (Round.next (hash k)) n s u → u.next (hash k) = some u' → Displacement hash k u u'
  bounded : ∀ n u, Turns (Round.next (hash k)) n s u → n ≤ addRange order
  /-- after the last round the put returns -/
  ends : ∃ n u r, Turns (Round.next (hash k)) n s u ∧ u.next (hash k) = none ∧ put hash t (some k) v = some r ∧
    r.status = (if u.freeDistance < hopRange then .success else .full) ∧
    writeAll t r.stores = writeAll u.table (u.lastStores (hash k) k v)

theorem loopEnds_firstRound {t : Table order K V} (hS : Sound hash t) (h5 : 5 ≤ order) (h30 : order ≤ 30) (v : V)
    (hfirst : firstRound hash t k = some s) : LoopEnds hash t k v s := by
  obtain ⟨hs, rfl, hrange, hsearch, hfound⟩ := good_firstRound hS h5 hfirst
  have hgood := fun (a b : Round order K V) (ha : a.Good hash k) (hab : a.next (hash k) = some b) =>
    (displacement_next h5 h30 ha hab).1
  have hless := fun (a b : Round order K V) (ha : a.Good hash k) (hab : a.next (hash k) = some b) =>
    (displacement_next h5 h30 ha hab).2.closer.2
  have hbound : ∀ n u, Turns (Round.next (hash k)) n s u → n < addRange order := fun n u hrun => by
    have hle : n + u.freeDistance ≤ s.freeDistance := hrun.measure_le hgood hless hs
    omega
  obtain ⟨n, u, hrun, hlast⟩ := exists_last hgood hless hs
  obtain ⟨stores, h1, h2⟩ := place_turns k v hrun hlast (hbound n u hrun)
  refine ⟨fun n u u' hu hu' => ?_, fun n u hu => Nat.le_of_lt (hbound n u hu), n, u,
    ⟨if decide (u.freeDistance < hopRange) then .success else .full, 0, stores⟩, hrun, hlast, ?_, ?_, h2⟩
  · exact (displacement_next h5 h30 (hu.invariant hgood hs) hu').2
  · unfold put
    dsimp only
    rw [hsearch, hfound]
    show (place (hash k) k v (addRange order) s.table s.freePos s.freeDistance).map _ = _
    rw [h1]
    rfl
  · simp

/-- **The loop of every put ends.**  Each displacement brings the free slot closer to the new key and leaves
the entry that it moves in the range of its own bucket. -/
theorem put_ends (h5 : 5 ≤ order) (h30 : order ≤ 30) (hash : K → Pos order) (ops : List (Op K V)) (k : K) (v : V) :
    ∃ t, run (step hash) (create order K V) ops = some t ∧
      (∃ r, put hash t (some k) v = some r ∧ (r.status = .success ∨ r.status = .full)) ∧
      ∀ s, firstRound hash t k = some s → LoopEnds hash t k v s := by
  obtain ⟨t, ht, hS⟩ := run_sound (sound_create order hash) h5 h30 ops
  obtain ⟨r, hr, hputs⟩ := puts_put hS h5 h30 k v
  refine ⟨t, ht, ⟨r, hr, ?_⟩, fun s hs => loopEnds_firstRound hS h5 h30 v hs⟩
  exact (hputs.status hS).imp id fun h => h.1

/-- a key for which the entry of 37000 is moved -/
theorem put_ends_crowd : ∃ t, run (step thousands) (create 7 Nat Nat) crowd = some t ∧
    (∃ r, put thousands t (some 5999) 2 = some r ∧ (r.status = .success ∨ r.status = .full)) ∧
    ∀ s, firstRound thousands t 5999 = some s → LoopEnds thousands t 5999 2 s :=
  put_ends (by decide) (by decide) thousands crowd 5999 2

set_option maxRecDepth 20000 in
example : ((run (step thousands) (create 7 Nat Nat) crowd).bind fun t => (firstRound thousands t 5999).bind fun s =>
    (s.next (thousands 5999)).map fun s' => (s.freeDistance, s'.freeDistance)) = some (33, 32) := by decide +kernel

end

end

end

end Hopscotch
end Cjet
