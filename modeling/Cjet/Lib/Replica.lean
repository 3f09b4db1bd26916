import Mathlib.Logic.Function.Basic
import Mathlib.Data.List.Nodup

/-!
# A replica that follows a log of events

A replica is a partial map from keys to values.  It is told of keys that come, of values that change
and of keys that go, and is out of step as soon as a key comes that it has, or a key changes or goes
that it does not have.

* `Replica.apply`       one event;
* `Replica.replay`      a log of messages, each of which has to be read as an event first;
* `Replica.replay_adds` keys that come one after the other.
-/

set_option linter.unusedVariables false

namespace Stateful
namespace Replica
variable {K V M : Type} [DecidableEq K]

inductive Event (K V : Type) where
  | add (k : K) (v : V)
  | change (k : K) (v : V)
  | remove (k : K)

/-- the replica after an event; none where the event does not fit -/
def apply (m : K → Option V) : Event K V → Option (K → Option V)
  | .add k v => if (m k).isSome then none else some (Function.update m k (some v))
  | .change k v => if (m k).isSome then some (Function.update m k (some v)) else none
  | .remove k => if (m k).isSome then some (Function.update m k none) else none

def replay (read : M → Option (Event K V)) : (K → Option V) → List M → Option (K → Option V)
  | m, [] => some m
  | m, x :: xs => (read x).bind fun e => (apply m e).bind fun m' => replay read m' xs

theorem apply_add {m : K → Option V} {k : K} (h : m k = none) (v : V) :
    apply m (.add k v) = some (Function.update m k (some v)) := by
  show (if (m k).isSome then none else _) = _
  rw [h]
  rfl

theorem apply_change {m : K → Option V} {k : K} {v : V} (h : m k = some v) (v' : V) :
    apply m (.change k v') = some (Function.update m k (some v')) := by
  show (if (m k).isSome then _ else none) = _
  rw [h]
  rfl

theorem apply_remove {m : K → Option V} {k : K} {v : V} (h : m k = some v) :
    apply m (.remove k) = some (Function.update m k none) := by
  show (if (m k).isSome then _ else none) = _
  rw [h]
  rfl

section
variable (read : M → Option (Event K V))

theorem replay_cons (m : K → Option V) (x : M) (xs : List M) : replay read m (x :: xs)
    = (read x).bind fun e => (apply m e).bind fun m' => replay read m' xs := rfl

theorem replay_append (m : K → Option V) (xs ys : List M) :
    replay read m (xs ++ ys) = (replay read m xs).bind fun m' => replay read m' ys := by
  induction xs generalizing m with
  | nil => rfl
  | cons x xs ih =>
    rw [List.cons_append, replay_cons, replay_cons]
    cases read x with
    | none => rfl
    | some e =>
      show (apply m e).bind _ = ((apply m e).bind _).bind _
      cases apply m e with
      | none => rfl
      | some m' => exact ih m'

/-- the last message of a log -/
theorem replay_snoc {m m' m'' : K → Option V} {xs : List M} {x : M} {e : Event K V}
    (h : replay read m xs = some m') (hx : read x = some e) (he : apply m' e = some m'') :
    replay read m (xs ++ [x]) = some m'' := by
  rw [replay_append, h, Option.bind_some, replay_cons, hx, Option.bind_some, he]
  rfl

/-- Keys that are not there come one after the other. -/
theorem replay_adds {A : Type} {key : A → K} {value : A → V} {msg : A → M} {as : List A}
    (hread : ∀ a ∈ as, read (msg a) = some (.add (key a) (value a))) (hk : (as.map key).Nodup)
    {m : K → Option V} (hm : ∀ a ∈ as, m (key a) = none) :
    ∃ m', replay read m (as.map msg) = some m' ∧
      ∀ k v, m' k = some v ↔ m k = some v ∨ ∃ a ∈ as, key a = k ∧ value a = v := by
  induction as generalizing m with
  | nil => exact ⟨m, rfl, by simp⟩
  | cons a as ih =>
    rw [List.map_cons, List.nodup_cons] at hk
    have hne : ∀ a' ∈ as, key a' ≠ key a := fun a' ha' e => hk.1 (by
      rw [← e]
      exact List.mem_map_of_mem ha')
    have hm' : ∀ a' ∈ as, Function.update m (key a) (some (value a)) (key a') = none := fun a' ha' => by
      rw [Function.update_of_ne (hne a' ha')]
      exact hm a' (List.mem_cons_of_mem a ha')
    obtain ⟨m', h1, h2⟩ := ih (fun a' ha' => hread a' (List.mem_cons_of_mem a ha')) hk.2 hm'
    refine ⟨m', ?_, fun k v => ?_⟩
    · rw [List.map_cons, replay_cons, hread a List.mem_cons_self, Option.bind_some,
        apply_add (hm a List.mem_cons_self), Option.bind_some, h1]
    · rw [h2]
      by_cases e : k = key a
      · rw [e, Function.update_self, hm a List.mem_cons_self]
        constructor
        · rintro (h3 | ⟨a', ha', h4, h5⟩)
          · exact Or.inr ⟨a, List.mem_cons_self, rfl, Option.some.inj h3⟩
          · exact absurd h4 (hne a' ha')
        · rintro (h3 | ⟨a', ha', h4, h5⟩)
          · cases h3
          · rcases List.mem_cons.mp ha' with rfl | ha'
            · exact Or.inl (congrArg some h5)
            · exact absurd h4 (hne a' ha')
      · rw [Function.update_of_ne e]
        constructor
        · rintro (h3 | ⟨a', ha', h4⟩)
          · exact Or.inl h3
          · exact Or.inr ⟨a', List.mem_cons_of_mem a ha', h4⟩
        · rintro (h3 | ⟨a', ha', h4, h5⟩)
          · exact Or.inl h3
          · rcases List.mem_cons.mp ha' with rfl | ha'
            · exact absurd h4.symm e
            · exact Or.inr ⟨a', ha', h4, h5⟩

end

end Replica
end Stateful
