import Cjet.Hash.Sound

/-!
# The stores that change a bitmap

An entry appears, moves or disappears for a reader with the one store that changes a bitmap.

* `bitSet`, `bitMoved`, `bitCleared`   what that store does to the slots of a bucket;
* `sound_bitSet`, `sound_bitMoved`, `sound_bitCleared`, `sound_writeValue`   the table stays well formed;
* `lookup_bitSet` and so on   what a lookup finds afterwards.
-/

set_option linter.unusedVariables false

namespace Cjet
namespace Hopscotch

section
variable {order : Nat} {K V : Type} {hash : K → Pos order} {t : Table order K V}

/-! ## insertion -/

/-- the bitmap of `h` also names the distance `d` -/
def bitSet (t : Table order K V) (h : Pos order) (d : Nat) : Table order K V :=
  Store.write t (.hopInfo h ((t h).hopInfo ||| 1#32 <<< d))

theorem covers_bitSet {h : Pos order} {d : Nat} (hd : d < 32) (h' : Pos order) (i : Nat) :
    Covers (bitSet t h d) h' i ↔ Covers t h' i ∨ h' = h ∧ i = d := by
  unfold Covers bitSet
  rw [hopInfo_writeHopInfo]
  by_cases e : h' = h
  · subst e
    rw [if_pos rfl]
    by_cases hi : i < 32
    · rw [bit_set _ hi]
      simp
    · have h1 : ∀ x : BitVec 32, x.getLsbD i = false := fun x => BitVec.getLsbD_of_ge x i (by omega)
      rw [h1, h1]
      simp only [Bool.false_eq_true, false_or, false_iff, not_and]
      omega
  · rw [if_neg e]
    simp [e]

theorem covered_bitSet {h : Pos order} {d : Nat} (hd : d < 32) (q : Pos order) :
    Covered (bitSet t h d) q ↔ Covered t q ∨ q = slotAt h d := by
  constructor
  · rintro ⟨h', i, hc, rfl⟩
    rcases (covers_bitSet hd h' i).mp hc with hc | ⟨rfl, rfl⟩
    · exact Or.inl ⟨h', i, hc, rfl⟩
    · exact Or.inr rfl
  · rintro (⟨h', i, hc, rfl⟩ | rfl)
    · exact ⟨h', i, (covers_bitSet hd h' i).mpr (Or.inl hc), rfl⟩
    · exact ⟨h, d, (covers_bitSet hd h d).mpr (Or.inr ⟨rfl, rfl⟩), rfl⟩

section
variable {k : K} {p : Pos order} {d : Nat}

theorem stored_bitSet (hd : d < 32) (hp : p = slotAt (hash k) d) (hkey : (t p).key = some k) {k' : K} (hne : k' ≠ k)
    (q : Pos order) : Stored hash (bitSet t (hash k) d) k' q ↔ Stored hash t k' q := by
  have hkeys : (bitSet t (hash k) d q).key = (t q).key := key_writeHopInfo t (hash k) q _
  unfold Stored
  rw [hkeys]
  refine and_congr_left fun hk' => ?_
  constructor
  · rintro ⟨i, hc, hq⟩
    rcases (covers_bitSet hd _ i).mp hc with hc | ⟨e1, e2⟩
    · exact ⟨i, hc, hq⟩
    · rw [hq, e1, e2, ← hp, hkey] at hk'
      exact absurd (Option.some.inj hk').symm hne
  · rintro ⟨i, hc, hq⟩
    exact ⟨i, (covers_bitSet hd _ i).mpr (Or.inl hc), hq⟩

theorem stored_bitSet_self (hd : d < 32) (hp : p = slotAt (hash k) d) (hkey : (t p).key = some k)
    (hno : ∀ q, ¬ Stored hash t k q) (q : Pos order) : Stored hash (bitSet t (hash k) d) k q ↔ q = p := by
  have hkeys : ∀ q, (bitSet t (hash k) d q).key = (t q).key := fun q => key_writeHopInfo t (hash k) q _
  constructor
  · rintro ⟨⟨i, hc, hq⟩, hk'⟩
    rw [hkeys] at hk'
    rcases (covers_bitSet hd _ i).mp hc with hc | ⟨_, e2⟩
    · exact absurd ⟨⟨i, hc, hq⟩, hk'⟩ (hno q)
    · rw [hq, e2, hp]
  · intro e
    subst e
    exact ⟨⟨d, (covers_bitSet hd _ d).mpr (Or.inr ⟨rfl, rfl⟩), hp⟩, by rw [hkeys, hkey]⟩

/-- the key has been written before its bit is set -/
theorem sound_bitSet (hS : Sound hash t) (hd : d < 32) (hp : p = slotAt (hash k) d) (hkey : (t p).key = some k)
    (hno : ∀ q, ¬ Stored hash t k q) : Sound hash (bitSet t (hash k) d) := by
  have hkeys : ∀ q, (bitSet t (hash k) d q).key = (t q).key := fun q => key_writeHopInfo t (hash k) q _
  have hnew : (t (slotAt (hash k) d)).key = some k := by rw [← hp, hkey]
  have hdiff : ∀ i, Covers t (hash k) i → (t (slotAt (hash k) i)).key ≠ some k := fun i hc e =>
    hno _ ⟨⟨i, hc, rfl⟩, e⟩
  refine ⟨fun h i hc => ?_, fun h i j hi hj e => ?_⟩
  · rw [hkeys]
    rcases (covers_bitSet hd h i).mp hc with hc | ⟨rfl, rfl⟩
    · exact hS.keyed h i hc
    · exact ⟨k, hnew, rfl⟩
  · rw [hkeys, hkeys] at e
    rcases (covers_bitSet hd h i).mp hi with hi' | ⟨rfl, rfl⟩
    · rcases (covers_bitSet hd h j).mp hj with hj' | ⟨rfl, rfl⟩
      · exact hS.once h i j hi' hj' e
      · rw [hnew] at e
        exact absurd e (hdiff i hi')
    · rcases (covers_bitSet hd _ j).mp hj with hj' | ⟨_, rfl⟩
      · rw [hnew] at e
        exact absurd e.symm (hdiff j hj')
      · rfl

theorem lookup_bitSet [DecidableEq K] (hS : Sound hash t) (hd : d < 32) (hp : p = slotAt (hash k) d)
    (hkey : (t p).key = some k) (hno : ∀ q, ¬ Stored hash t k q) (k' : K) :
    lookup hash (bitSet t (hash k) d) k' = if k' = k then some (t p).value else lookup hash t k' := by
  have hS' := sound_bitSet hS hd hp hkey hno
  have hvalue : ∀ q, (bitSet t (hash k) d q).value = (t q).value := fun q => value_writeHopInfo t (hash k) q _
  by_cases e : k' = k
  · subst e
    rw [if_pos rfl]
    exact (lookup_eq_some hS' k' _).mpr ⟨p, (stored_bitSet_self hd hp hkey hno p).mpr rfl, hvalue p⟩
  · rw [if_neg e]
    refine lookup_ext hS hS' fun v => exists_congr fun q => ?_
    rw [stored_bitSet hd hp hkey e, hvalue]

end

/-! ## displacement -/

/-- in the bitmap of `c` the distance `j` replaces `i` -/
def bitMoved (t : Table order K V) (c : Pos order) (i j : Nat) : Table order K V :=
  Store.write t (.hopInfo c ((t c).hopInfo &&& ~~~(1#32 <<< i) ||| 1#32 <<< j))

theorem covers_bitMoved {c : Pos order} {i j : Nat} (hj : j < 32) (h : Pos order) (l : Nat) :
    Covers (bitMoved t c i j) h l ↔ (Covers t h l ∧ ¬ (h = c ∧ l = i)) ∨ h = c ∧ l = j := by
  unfold Covers bitMoved
  rw [hopInfo_writeHopInfo]
  by_cases e : h = c
  · subst e
    rw [if_pos rfl]
    by_cases hl : l < 32
    · rw [bit_set _ hl, bit_clear _ hl]
      simp
    · have h1 : ∀ x : BitVec 32, x.getLsbD l = false := fun x => BitVec.getLsbD_of_ge x l (by omega)
      rw [h1, h1]
      simp only [Bool.false_eq_true, false_and, false_or, false_iff, not_and]
      omega
  · rw [if_neg e]
    simp [e]

section
variable {c : Pos order} {i j : Nat}

/-- the entry has been copied before its bit moves -/
theorem stored_bitMoved (hS : Sound hash t) (h5 : 5 ≤ order) (hj : j < 32) (hc : Covers t c i)
    (hfree : ¬ Covered t (slotAt c j)) (hkey : (t (slotAt c j)).key = (t (slotAt c i)).key) (k : K) (q : Pos order) :
    Stored hash (bitMoved t c i j) k q ↔
      (Stored hash t k q ∧ q ≠ slotAt c i) ∨ q = slotAt c j ∧ Stored hash t k (slotAt c i) := by
  have hkeys : ∀ q, (bitMoved t c i j q).key = (t q).key := fun q => key_writeHopInfo t c q _
  constructor
  · rintro ⟨⟨l, hl, hq⟩, hk⟩
    rw [hkeys] at hk
    rcases (covers_bitMoved hj _ l).mp hl with ⟨hl, hne⟩ | ⟨e1, e2⟩
    · refine Or.inl ⟨⟨⟨l, hl, hq⟩, hk⟩, fun e => hne ?_⟩
      exact hS.covers_unique h5 hl hc (hq.symm.trans e)
    · subst e2
      rw [hq, e1, hkey] at hk
      exact Or.inr ⟨by rw [hq, e1], ⟨i, by rw [e1]; exact hc, by rw [e1]⟩, hk⟩
  · rintro (⟨⟨⟨l, hl, hq⟩, hk⟩, hne⟩ | ⟨hq, ⟨⟨l, hl, hq'⟩, hk⟩⟩)
    · refine ⟨⟨l, (covers_bitMoved hj _ l).mpr (Or.inl ⟨hl, fun e => hne ?_⟩), hq⟩, by rw [hkeys, hk]⟩
      rw [hq, e.1, e.2]
    · have e1 := hS.covers_unique h5 hc hl hq'
      refine ⟨⟨j, (covers_bitMoved hj _ j).mpr (Or.inr ⟨e1.1.symm, rfl⟩), by rw [hq, e1.1]⟩, ?_⟩
      rw [hkeys, hq, hkey, hk]

theorem sound_bitMoved (hS : Sound hash t) (h5 : 5 ≤ order) (hj : j < 32) (hc : Covers t c i)
    (hfree : ¬ Covered t (slotAt c j)) (hkey : (t (slotAt c j)).key = (t (slotAt c i)).key) :
    Sound hash (bitMoved t c i j) := by
  have hkeys : ∀ q, (bitMoved t c i j q).key = (t q).key := fun q => key_writeHopInfo t c q _
  have hold : ∀ l, Covers t c l → (t (slotAt c l)).key = (t (slotAt c j)).key → l = i := fun l hl e =>
    hS.once c l i hl hc (e.trans hkey)
  refine ⟨fun h l hl => ?_, fun h l m hl hm e => ?_⟩
  · rw [hkeys]
    rcases (covers_bitMoved hj h l).mp hl with ⟨hl, _⟩ | ⟨rfl, rfl⟩
    · exact hS.keyed h l hl
    · rw [hkey]
      exact hS.keyed h i hc
  · rw [hkeys, hkeys] at e
    rcases (covers_bitMoved hj h l).mp hl with ⟨hl', hne⟩ | ⟨rfl, rfl⟩
    · rcases (covers_bitMoved hj h m).mp hm with ⟨hm', _⟩ | ⟨rfl, rfl⟩
      · exact hS.once h l m hl' hm' e
      · exact absurd ⟨rfl, hold l hl' e⟩ hne
    · rcases (covers_bitMoved hj h m).mp hm with ⟨hm', hne⟩ | ⟨_, rfl⟩
      · exact absurd ⟨rfl, hold m hm' e.symm⟩ hne
      · rfl

/-- a reader does not notice that the entry moved -/
theorem lookup_bitMoved [DecidableEq K] (hS : Sound hash t) (h5 : 5 ≤ order) (hj : j < 32) (hc : Covers t c i)
    (hfree : ¬ Covered t (slotAt c j)) (hkey : (t (slotAt c j)).key = (t (slotAt c i)).key)
    (hvalue : (t (slotAt c j)).value = (t (slotAt c i)).value) (k : K) :
    lookup hash (bitMoved t c i j) k = lookup hash t k := by
  have hvalues : ∀ q, (bitMoved t c i j q).value = (t q).value := fun q => value_writeHopInfo t c q _
  refine lookup_ext hS (sound_bitMoved hS h5 hj hc hfree hkey) fun v => ?_
  constructor
  · rintro ⟨q, hq, hv⟩
    rw [hvalues] at hv
    rcases (stored_bitMoved hS h5 hj hc hfree hkey k q).mp hq with ⟨hq, _⟩ | ⟨e, hq⟩
    · exact ⟨q, hq, hv⟩
    · exact ⟨slotAt c i, hq, by rw [← hvalue, ← e, hv]⟩
  · rintro ⟨q, hq, hv⟩
    by_cases e : q = slotAt c i
    · subst e
      exact ⟨slotAt c j, (stored_bitMoved hS h5 hj hc hfree hkey k _).mpr (Or.inr ⟨rfl, hq⟩),
        by rw [hvalues, hvalue, hv]⟩
    · exact ⟨q, (stored_bitMoved hS h5 hj hc hfree hkey k _).mpr (Or.inl ⟨hq, e⟩), by rw [hvalues, hv]⟩

/-- the old slot of the entry belongs to no bucket any more -/
theorem covered_bitMoved (hS : Sound hash t) (h5 : 5 ≤ order) (hj : j < 32) (hc : Covers t c i)
    (q : Pos order) : Covered (bitMoved t c i j) q ↔ (Covered t q ∧ q ≠ slotAt c i) ∨ q = slotAt c j := by
  constructor
  · rintro ⟨h, l, hl, rfl⟩
    rcases (covers_bitMoved hj h l).mp hl with ⟨hl, hne⟩ | ⟨rfl, rfl⟩
    · exact Or.inl ⟨⟨h, l, hl, rfl⟩, fun e => hne (hS.covers_unique h5 hl hc e)⟩
    · exact Or.inr rfl
  · rintro (⟨⟨h, l, hl, rfl⟩, hne⟩ | rfl)
    · refine ⟨h, l, (covers_bitMoved hj h l).mpr (Or.inl ⟨hl, fun e => hne ?_⟩), rfl⟩
      rw [e.1, e.2]
    · exact ⟨c, j, (covers_bitMoved hj c j).mpr (Or.inr ⟨rfl, rfl⟩), rfl⟩

end

/-! ## removal -/

/-- the bitmap of `h` does not name the distance `i` any more -/
def bitCleared (t : Table order K V) (h : Pos order) (i : Nat) : Table order K V :=
  Store.write t (.hopInfo h ((t h).hopInfo &&& ~~~(1#32 <<< i)))

theorem covers_bitCleared (h : Pos order) (i : Nat) (h' : Pos order) (l : Nat) :
    Covers (bitCleared t h i) h' l ↔ Covers t h' l ∧ ¬ (h' = h ∧ l = i) := by
  unfold Covers bitCleared
  rw [hopInfo_writeHopInfo]
  by_cases e : h' = h
  · subst e
    rw [if_pos rfl]
    by_cases hl : l < 32
    · rw [bit_clear _ hl]
      simp
    · have h1 : ∀ x : BitVec 32, x.getLsbD l = false := fun x => BitVec.getLsbD_of_ge x l (by omega)
      rw [h1, h1]
      simp
  · rw [if_neg e]
    simp [e]

theorem sound_bitCleared (hS : Sound hash t) (h : Pos order) (i : Nat) : Sound hash (bitCleared t h i) := by
  have hkeys : ∀ q, (bitCleared t h i q).key = (t q).key := fun q => key_writeHopInfo t h q _
  refine ⟨fun h' l hl => ?_, fun h' l m hl hm e => ?_⟩
  · rw [hkeys]
    exact hS.keyed h' l ((covers_bitCleared h i h' l).mp hl).1
  · rw [hkeys, hkeys] at e
    exact hS.once h' l m ((covers_bitCleared h i h' l).mp hl).1 ((covers_bitCleared h i h' m).mp hm).1 e

theorem covered_bitCleared (hS : Sound hash t) (h5 : 5 ≤ order) {h : Pos order} {i : Nat} (hc : Covers t h i)
    (q : Pos order) : Covered (bitCleared t h i) q ↔ Covered t q ∧ q ≠ slotAt h i := by
  constructor
  · rintro ⟨h', l, hl, rfl⟩
    obtain ⟨hl, hne⟩ := (covers_bitCleared h i h' l).mp hl
    exact ⟨⟨h', l, hl, rfl⟩, fun e => hne (hS.covers_unique h5 hl hc e)⟩
  · rintro ⟨⟨h', l, hl, rfl⟩, hne⟩
    refine ⟨h', l, (covers_bitCleared h i h' l).mpr ⟨hl, fun e => hne ?_⟩, rfl⟩
    rw [e.1, e.2]

theorem lookup_bitCleared [DecidableEq K] (hS : Sound hash t) (h5 : 5 ≤ order) {k : K} {i : Nat}
    (hc : Covers t (hash k) i) (hkey : (t (slotAt (hash k) i)).key = some k) (k' : K) :
    lookup hash (bitCleared t (hash k) i) k' = if k' = k then none else lookup hash t k' := by
  have hS' := sound_bitCleared hS (hash k) i
  have hkeys : ∀ q, (bitCleared t (hash k) i q).key = (t q).key := fun q => key_writeHopInfo t _ q _
  have hvalues : ∀ q, (bitCleared t (hash k) i q).value = (t q).value := fun q => value_writeHopInfo t _ q _
  by_cases e : k' = k
  · subst e
    rw [if_pos rfl, lookup_eq_none hS']
    rintro q ⟨⟨l, hl, rfl⟩, hk⟩
    obtain ⟨hl, hne⟩ := (covers_bitCleared _ i _ l).mp hl
    rw [hkeys] at hk
    exact hne ⟨rfl, hS.once _ l i hl hc (hk.trans hkey.symm)⟩
  · rw [if_neg e]
    refine lookup_ext hS hS' fun v => exists_congr fun q => ?_
    rw [hvalues]
    refine and_congr_left fun _ => ?_
    unfold Stored
    rw [hkeys]
    refine and_congr_left fun hk => exists_congr fun l => and_congr_left fun hq => ?_
    rw [covers_bitCleared]
    refine and_iff_left fun e1 => e ?_
    rw [hq, e1.1, e1.2, hkey] at hk
    exact (Option.some.inj hk).symm

/-! ## another value -/

theorem covers_writeValue (p : Pos order) (v : V) (h : Pos order) (i : Nat) :
    Covers (Store.write t (.value p v)) h i ↔ Covers t h i := by
  unfold Covers
  rw [hopInfo_writeValue]

theorem sound_writeValue (hS : Sound hash t) (p : Pos order) (v : V) : Sound hash (Store.write t (.value p v)) := by
  refine ⟨fun h i hc => ?_, fun h i j hi hj e => ?_⟩
  · rw [key_writeValue]
    exact hS.keyed h i ((covers_writeValue p v h i).mp hc)
  · rw [key_writeValue, key_writeValue] at e
    exact hS.once h i j ((covers_writeValue p v h i).mp hi) ((covers_writeValue p v h j).mp hj) e

theorem stored_writeValue (p : Pos order) (v : V) (k : K) (q : Pos order) :
    Stored hash (Store.write t (.value p v)) k q ↔ Stored hash t k q := by
  unfold Stored
  simp only [covers_writeValue, key_writeValue]

theorem lookup_writeValue [DecidableEq K] (hS : Sound hash t) {k : K} {p : Pos order} (hp : Stored hash t k p) (v : V)
    (k' : K) : lookup hash (Store.write t (.value p v)) k' = if k' = k then some v else lookup hash t k' := by
  have hS' := sound_writeValue hS p v
  by_cases e : k' = k
  · subst e
    rw [if_pos rfl]
    exact (lookup_eq_some hS' k' v).mpr ⟨p, (stored_writeValue p v k' p).mpr hp, by rw [value_writeValue, if_pos rfl]⟩
  · rw [if_neg e]
    refine lookup_ext hS hS' fun v' => exists_congr fun q => ?_
    rw [stored_writeValue]
    refine and_congr_right fun hq => ?_
    have hne : q ≠ p := fun e1 => e (by
      have hk := hq.2
      rw [e1, hp.2] at hk
      exact (Option.some.inj hk).symm)
    rw [value_writeValue, if_neg hne]

end

end Hopscotch
end Cjet
