import Cjet.Hash.Moves
import Mathlib.Data.List.Find
import Mathlib.Logic.Relation

/-!
# The displacement of one entry

* `Throughout`        a property that holds before, between and after stores;
* `closerFrom_some`   the entry that `find_closer_entry` chooses;
* `moved_closer`      readers do not notice that it moves;
* `distance_closer`   the free slot comes closer to its bucket;
* `closerFrom_move`   the move has no influence on the choices after it.
-/

set_option linter.unusedVariables false

namespace Cjet
namespace Hopscotch

section
variable {order : Nat} {K V : Type}

/-! ## between the stores -/

/-- `P` holds of the table before the stores, between any two of them, and after them -/
def Throughout (P : Table order K V → Prop) : Table order K V → List (Store order K V) → Prop
  | t, [] => P t
  | t, s :: l => P t ∧ Throughout P (s.write t) l

namespace Throughout
variable {P Q : Table order K V → Prop} {t : Table order K V}

theorem mono {l : List (Store order K V)} (h : Throughout P t l) (hPQ : ∀ u, P u → Q u) : Throughout Q t l := by
  induction l generalizing t with
  | nil => exact hPQ t h
  | cons s l ih => exact ⟨hPQ t h.1, ih h.2⟩

theorem append {l m : List (Store order K V)} (h1 : Throughout P t l) (h2 : Throughout P (writeAll t l) m) :
    Throughout P t (l ++ m) := by
  induction l generalizing t with
  | nil => exact h2
  | cons s l ih => exact ⟨h1.1, ih h1.2 h2⟩

end Throughout

/-! ## one displacement -/

theorem firstHop_some {x : BitVec 32} {d i : Nat} (hd : d ≤ 32) (h : firstHop x d = some i) :
    i < d ∧ x.getLsbD i = true := by
  have h1 := List.find?_some h
  have h2 := List.mem_range.mp (List.mem_of_find?_eq_some h)
  rw [bit_test x (by omega)] at h1
  exact ⟨h2, h1⟩

theorem firstHop_congr {x y : BitVec 32} {d : Nat} (hd : d ≤ 32) (h : ∀ i < d, x.getLsbD i = y.getLsbD i) :
    firstHop x d = firstHop y d := by
  unfold firstHop
  refine List.find?_congr fun i hi => ?_
  have hlt := List.mem_range.mp hi
  rw [bit_test x (by omega), bit_test y (by omega), h i hlt]

theorem closerFrom_some {t : Table order K V} {free : Pos order} {d : Nat} {c : Closer order} (hd : d < 32)
    (h : closerFrom t free d = some c) : 0 < c.checkDistance ∧ c.checkDistance ≤ d ∧ c.hop < c.checkDistance ∧
      c.checkPosition = wrapPos (sub32 free c.checkDistance) ∧ Covers t c.checkPosition c.hop := by
  induction d with
  | zero => cases h
  | succ d ih =>
    unfold closerFrom at h
    cases hf : firstHop (t (wrapPos (sub32 free (d + 1)))).hopInfo (d + 1) with
    | some i =>
      rw [hf] at h
      obtain rfl := Option.some.inj h
      obtain ⟨h1, h2⟩ := firstHop_some (by omega) hf
      exact ⟨Nat.succ_pos d, Nat.le_refl _, h1, rfl, h2⟩
    | none =>
      rw [hf] at h
      obtain ⟨h1, h2, h3⟩ := ih (by omega) h
      exact ⟨h1, Nat.le_succ_of_le h2, h3⟩

section
variable [DecidableEq K] {hash : K → Pos order} {t : Table order K V}

/-- a reader finds the same as in the table `t` -/
def SameGets (hash : K → Pos order) (t u : Table order K V) : Prop := ∀ k, get hash u k = get hash t k

/-- an entry has moved from the slot `free'` to the slot `free` -/
structure Moved (hash : K → Pos order) (t : Table order K V) (free free' : Pos order)
    (stores : List (Store order K V)) : Prop where
  sound : Sound hash (writeAll t stores)
  lookup : ∀ k, lookup hash (writeAll t stores) k = lookup hash t k
  readers : Throughout (SameGets hash t) t stores
  old : Covered t free'
  covered : ∀ q, Covered (writeAll t stores) q ↔ (Covered t q ∧ q ≠ free') ∨ q = free
  keys : ∀ q, q ≠ free → (writeAll t stores q).key = (t q).key

theorem moved_closer (hS : Sound hash t) (h5 : 5 ≤ order) (h30 : order ≤ 30) {free : Pos order} {c : Closer order}
    (hfree : ¬ Covered t free) (hc : closerFrom t free (hopRange - 1) = some c) :
    Moved hash t free c.hopPosition (c.moveStores t free) := by
  obtain ⟨hpos, hle, hlt, hcheck, hcov⟩ := closerFrom_some (by decide) hc
  have hle : c.checkDistance ≤ 31 := hle
  have hslot : slotAt c.checkPosition c.checkDistance = free := by
    rw [hcheck]
    exact slotAt_back h30 free (by omega)
  have hold : Covered t c.hopPosition := ⟨c.checkPosition, c.hop, hcov, rfl⟩
  have hne : c.hopPosition ≠ free := fun e => hfree (by rwa [← e])
  -- the entry is copied to the free slot, which no bitmap names
  have v1 : SameView t (Store.write t (.key free (t c.hopPosition).key)) := .writeKey hfree _
  have v2 := v1.trans (.writeValue (p := free) (fun h => hfree ((v1.covered free).mp h)) (t c.hopPosition).value)
  generalize hu1 : Store.write t (.key free (t c.hopPosition).key) = u1 at v1 v2
  generalize hu2 : Store.write u1 (.value free (t c.hopPosition).value) = u2 at v2
  have hkey2 : ∀ q, (u2 q).key = if q = free then (t c.hopPosition).key else (t q).key := fun q => by
    rw [← hu2, ← hu1, key_writeValue, key_writeKey]
  have hvalue2 : ∀ q, (u2 q).value = if q = free then (t c.hopPosition).value else (t q).value := fun q => by
    rw [← hu2, ← hu1, value_writeValue, value_writeKey]
  -- then its bit moves
  have hS2 := v2.sound hS
  have hcov2 : Covers u2 c.checkPosition c.hop := (v2.covers _ _).mpr hcov
  have hfree2 : ¬ Covered u2 (slotAt c.checkPosition c.checkDistance) := by
    rw [hslot]
    exact fun h => hfree ((v2.covered free).mp h)
  have hkey : (u2 (slotAt c.checkPosition c.checkDistance)).key = (u2 (slotAt c.checkPosition c.hop)).key := by
    have hne' : slotAt c.checkPosition c.hop ≠ free := hne
    rw [hslot, hkey2, hkey2, if_pos rfl, if_neg hne']
    rfl
  have hvalue : (u2 (slotAt c.checkPosition c.checkDistance)).value = (u2 (slotAt c.checkPosition c.hop)).value := by
    have hne' : slotAt c.checkPosition c.hop ≠ free := hne
    rw [hslot, hvalue2, hvalue2, if_pos rfl, if_neg hne']
    rfl
  have hlast : writeAll t (c.moveStores t free) = bitMoved u2 c.checkPosition c.hop c.checkDistance := by
    unfold Closer.moveStores bitMoved
    rw [writeAll_cons, writeAll_cons, writeAll_cons, writeAll_nil, hu1, hu2, v2.hopInfo]
  have hsound := sound_bitMoved hS2 h5 (by omega) hcov2 hfree2 hkey
  have hlookup : ∀ k, lookup hash (bitMoved u2 c.checkPosition c.hop c.checkDistance) k = lookup hash t k := fun k => by
    rw [lookup_bitMoved hS2 h5 (by omega) hcov2 hfree2 hkey hvalue]
    unfold lookup
    rw [v2.get hS]
  have hgets : SameGets hash t (bitMoved u2 c.checkPosition c.hop c.checkDistance) := fun k => by
    rw [get_sound hsound, get_sound hS, hlookup]
  refine ⟨?_, fun k => ?_, ?_, hold, fun q => ?_, fun q hq => ?_⟩
  · rw [hlast]
    exact hsound
  · rw [hlast]
    exact hlookup k
  · refine ⟨fun _ => rfl, fun k => ?_, fun k => ?_, ?_⟩
    · rw [hu1]
      exact v1.get hS k
    · rw [hu1, hu2]
      exact v2.get hS k
    · show SameGets hash t (Store.write (Store.write (Store.write t _) _) _)
      rw [hu1, hu2]
      have hgets' := hgets
      unfold bitMoved at hgets'
      rwa [v2.hopInfo] at hgets'
  · rw [hlast, covered_bitMoved hS2 h5 (by omega) hcov2, v2.covered, hslot]
    exact Iff.rfl
  · rw [hlast]
    show (bitMoved u2 _ _ _ q).key = _
    unfold bitMoved
    rw [key_writeHopInfo, hkey2, if_neg hq]

end

section
variable {t : Table order K V}

/-- the free slot comes closer -/
theorem distance_closer (h30 : order ≤ 30) {h : Pos order} {D : Nat} {c : Closer order} (hD : D < tableSize order)
    (h32 : 32 ≤ D) (hc : closerFrom t (slotAt h D) (hopRange - 1) = some c) :
    D - c.checkDistance + c.hop < D ∧ c.checkPosition = slotAt h (D - c.checkDistance) ∧
      c.hopPosition = slotAt h (D - c.checkDistance + c.hop) := by
  obtain ⟨hpos, hle, hlt, hcheck, _⟩ := closerFrom_some (by decide) hc
  have hle : c.checkDistance ≤ 31 := hle
  have hposition : c.checkPosition = slotAt h (D - c.checkDistance) := by
    rw [hcheck, back_slotAt h30 h (by omega) hD]
  refine ⟨by omega, hposition, ?_⟩
  show slotAt c.checkPosition c.hop = _
  rw [hposition, slotAt_slotAt]

/-! ## the choices -/

/-- the choice depends on the bits of the slots before the free one -/
theorem closerFrom_congr {t u : Table order K V} {free : Pos order} {d : Nat} (hd : d ≤ 31)
    (h : ∀ j, 0 < j → j ≤ d → ∀ i < j, (u (wrapPos (sub32 free j))).hopInfo.getLsbD i
      = (t (wrapPos (sub32 free j))).hopInfo.getLsbD i) : closerFrom u free d = closerFrom t free d := by
  induction d with
  | zero => rfl
  | succ d ih =>
    have hbits := firstHop_congr (by omega) (h (d + 1) (Nat.succ_pos d) (Nat.le_refl _))
    have hrest := ih (by omega) fun j hj hjd => h j hj (Nat.le_succ_of_le hjd)
    unfold closerFrom
    rw [hbits, hrest]

theorem hopInfo_moveStores (c : Closer order) (t : Table order K V) (free q : Pos order) {i : Nat} (hi : i < 32)
    (h : q = c.checkPosition → i ≠ c.hop ∧ i ≠ c.checkDistance) :
    (writeAll t (c.moveStores t free) q).hopInfo.getLsbD i = (t q).hopInfo.getLsbD i := by
  unfold Closer.moveStores
  rw [writeAll_cons, writeAll_cons, writeAll_cons, writeAll_nil, hopInfo_writeHopInfo]
  by_cases e : q = c.checkPosition
  · obtain ⟨h1, h2⟩ := h e
    rw [if_pos e, bit_set _ hi, bit_clear _ hi, decide_eq_false h1, decide_eq_false h2, e]
    simp
  · rw [if_neg e, hopInfo_writeValue, hopInfo_writeKey]

/-- a move has no influence on the choices at the slot that becomes free and before it -/
theorem closerFrom_move (h30 : order ≤ 30) {h : Pos order} {D E : Nat} {c : Closer order}
    (hD : D < tableSize order) (h32 : 32 ≤ D) (hc : closerFrom t (slotAt h D) (hopRange - 1) = some c) (hE : 32 ≤ E)
    (hED : E ≤ D - c.checkDistance + c.hop) (free : Pos order) :
    closerFrom (writeAll t (c.moveStores t free)) (slotAt h E) (hopRange - 1)
      = closerFrom t (slotAt h E) (hopRange - 1) := by
  obtain ⟨hpos, hle, hlt, _, _⟩ := closerFrom_some (by decide) hc
  obtain ⟨hcloser, hposition, _⟩ := distance_closer h30 hD h32 hc
  refine closerFrom_congr (Nat.le_refl _) fun j hj hj31 i hi => ?_
  have hj31 : j ≤ 31 := hj31
  rw [back_slotAt h30 h (by omega) (by omega)]
  refine hopInfo_moveStores c t free _ (by omega) fun e => ?_
  have hdist : E - j = D - c.checkDistance := slotAt_inj (by omega) (by omega) (e.trans hposition)
  omega

end

end

end Hopscotch
end Cjet
