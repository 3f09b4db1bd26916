import Cjet.Hash.Put

/-!
# The hash table is a finite map

* `MapStep`, `MapRun`     what a finite map answers, if a put of a new key may find no room;
* `mapStep_exec`          one call on a well-formed table;
* `table_refines_map`     every sequence of calls on a fresh table.
-/

set_option linter.unusedVariables false

namespace Cjet
namespace Hopscotch

section
variable {K V : Type} [DecidableEq K] [Zero V]

/-! ## finite maps -/

/-- one call on a finite map -/
inductive MapStep : (K → Option V) → Op K V → Out V → (K → Option V) → Prop where
  | get (m : K → Option V) (k : K) : MapStep m (.get k) (.found (m k)) m
  | put (m : K → Option V) (k : K) (v : V) :
      MapStep m (.put k v) (.put .success ((m k).getD 0)) (Function.update m k (some v))
  /-- no room for a new key -/
  | full (m : K → Option V) (k : K) (v : V) (hnew : m k = none) : MapStep m (.put k v) (.put .full 0) m
  | remove (m : K → Option V) (k : K) : MapStep m (.remove k) (.removed (m k)) (Function.update m k none)

inductive MapRun : (K → Option V) → List (Op K V) → List (Out V) → (K → Option V) → Prop where
  | nil (m : K → Option V) : MapRun m [] [] m
  | cons {m m' m'' : K → Option V} {op : Op K V} {ops : List (Op K V)} {out : Out V} {outs : List (Out V)}
      (h : MapStep m op out m') (hrest : MapRun m' ops outs m'') : MapRun m (op :: ops) (out :: outs) m''

variable {order : Nat} {hash : K → Pos order} {t : Table order K V}

omit [DecidableEq K] in
theorem sound_create (order : Nat) (hash : K → Pos order) : Sound hash (create order K V) := by
  have hno : ∀ h i, ¬ Covers (create order K V) h i := fun h i hc => by
    have e : (0#32).getLsbD i = true := hc
    rw [BitVec.getLsbD_zero] at e
    cases e
  exact ⟨fun h i hc => absurd hc (hno h i), fun h i j hi => absurd hi (hno h i)⟩

theorem lookup_create (k : K) : lookup hash (create order K V) k = none := by
  rw [lookup_eq_none (sound_create order hash)]
  rintro q ⟨⟨i, hc, _⟩, _⟩
  have e : (0#32).getLsbD i = true := hc
  rw [BitVec.getLsbD_zero] at e
  cases e

/-! ## one call -/

theorem mapStep_exec (hS : Sound hash t) (h5 : 5 ≤ order) (h30 : order ≤ 30) (op : Op K V) :
    ∃ out t', exec hash t op = some (out, t') ∧ Sound hash t' ∧
      MapStep (lookup hash t) op out (lookup hash t') := by
  cases op with
  | get k =>
    refine ⟨.found (lookup hash t k), t, ?_, hS, .get _ k⟩
    show ((get hash t k).map _).map _ = _
    rw [get_sound hS]
    rfl
  | put k v =>
    obtain ⟨r, hr, hputs⟩ := puts_put hS h5 h30 k v
    refine ⟨.put r.status r.prevValue, writeAll t r.stores, ?_, hputs.sound hS, ?_⟩
    · show ((put hash t (some k) v).map _).map _ = _
      rw [hr]
      rfl
    · have hlookup := funext (hputs.lookup hS)
      rw [hputs.prevValue hS]
      rcases hputs.status hS with hs | ⟨hs, hnone⟩
      · have e : lookup hash (writeAll t r.stores) = Function.update (lookup hash t) k (some v) := by
          rw [hlookup]
          funext k'
          rw [Function.update_apply, hs]
          simp
        rw [hs, e]
        exact .put _ k v
      · have e : lookup hash (writeAll t r.stores) = lookup hash t := by
          rw [hlookup]
          funext k'
          rw [hs]
          simp
        rw [hs, e, hnone]
        exact .full _ k v hnone
  | remove k =>
    obtain ⟨r, hr, hremoves⟩ := removes_remove hS h5 h30 k
    refine ⟨.removed r.1, writeAll t r.2, ?_, hremoves.sound hS h5, ?_⟩
    · show ((remove hash t k).map _).map _ = _
      rw [hr]
      rfl
    · have e : lookup hash (writeAll t r.2) = Function.update (lookup hash t) k none := by
        funext k'
        rw [hremoves.lookup hS h5, Function.update_apply]
      rw [e, hremoves.result hS]
      exact .remove _ k

/-! ## runs -/

theorem mapRun_execAll (hS : Sound hash t) (h5 : 5 ≤ order) (h30 : order ≤ 30) (ops : List (Op K V)) :
    ∃ outs t', execAll hash t ops = some (outs, t') ∧ Sound hash t' ∧
      MapRun (lookup hash t) ops outs (lookup hash t') := by
  induction ops generalizing t with
  | nil => exact ⟨[], t, rfl, hS, .nil _⟩
  | cons op ops ih =>
    obtain ⟨out, u, h1, hSu, h2⟩ := mapStep_exec hS h5 h30 op
    obtain ⟨outs, t', h3, hS', h4⟩ := ih hSu
    refine ⟨out :: outs, t', ?_, hS', .cons h2 h4⟩
    unfold execAll
    rw [h1, Option.bind_some, h3]
    rfl

/-- a key that is in the map stands in one slot, any other key in none -/
def OneSlotEach (hash : K → Pos order) (t : Table order K V) (m : K → Option V) : Prop :=
  ∀ k, ((m k).isSome → ∃ p, Stored hash t k p ∧ some (t p).value = m k ∧ ∀ q, Stored hash t k q → q = p) ∧
    (m k = none → ∀ q, ¬ Stored hash t k q)

omit [Zero V] in
theorem oneSlotEach (hS : Sound hash t) : OneSlotEach hash t (lookup hash t) := by
  refine fun k => ⟨fun h => ?_, (lookup_eq_none hS k).mp⟩
  obtain ⟨v, hv⟩ := Option.isSome_iff_exists.mp h
  obtain ⟨p, hp, hval⟩ := (lookup_eq_some hS k v).mp hv
  exact ⟨p, hp, by rw [hv, hval], fun q hq => hS.stored_unique hq hp⟩

/-- **Every sequence of calls on a fresh table is answered as by a finite map**, and what the table
holds then is the map. -/
theorem table_refines_map (h5 : 5 ≤ order) (h30 : order ≤ 30) (hash : K → Pos order) (ops : List (Op K V)) :
    ∃ outs t m, execAll hash (create order K V) ops = some (outs, t) ∧ MapRun (fun _ => none) ops outs m ∧
      (∀ k, get hash t k = some (m k)) ∧ OneSlotEach hash t m := by
  obtain ⟨outs, t, h1, hS, h2⟩ := mapRun_execAll (sound_create order hash) h5 h30 ops
  have hempty : lookup hash (create order K V) = fun _ => none := funext fun k => lookup_create k
  rw [hempty] at h2
  exact ⟨outs, t, lookup hash t, h1, h2, get_sound hS, oneSlotEach hS⟩

/-- two keys of the last bucket, one of them behind the end of the table -/
theorem table_refines_map_wrap : ∃ outs t m,
    execAll (fun k : Nat => (⟨k % 32, Nat.mod_lt _ (by decide)⟩ : Pos 5)) (create 5 Nat Nat)
      [.put 31 1, .put 63 2, .get 63, .put 63 3, .remove 31, .get 63] = some (outs, t) ∧
    MapRun (fun _ => none) [.put 31 1, .put 63 2, .get 63, .put 63 3, .remove 31, .get 63] outs m ∧
    (∀ k, get (fun k : Nat => (⟨k % 32, Nat.mod_lt _ (by decide)⟩ : Pos 5)) t k = some (m k)) ∧
    OneSlotEach (fun k : Nat => (⟨k % 32, Nat.mod_lt _ (by decide)⟩ : Pos 5)) t m :=
  table_refines_map (by decide) (by decide) _ _

end

end Hopscotch
end Cjet
