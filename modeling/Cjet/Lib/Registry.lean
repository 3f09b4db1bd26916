import Mathlib.Logic.Function.Basic
import Mathlib.Data.Option.Basic
import Mathlib.Data.List.Basic
import Mathlib.Data.List.Induction

/-!
# Registries

Entries are registered under keys.  An entry has an owner and terms that stay as they have been registered; its value
may be written.  It goes when it is unregistered, or with its owner.

* `RegistryOp.apply`   the operations;
* `lastWritten`        the value that the operations leave under a key;
* `registry_history`   an entry is there because it has been registered and nothing has closed it since.
-/

set_option linter.unusedVariables false
set_option linter.unusedSectionVars false

namespace Stateful

@[ext]
structure Listing (O M V : Type) where
  owner : O
  terms : M
  value : V

abbrev Registry (K O M V : Type) := K → Option (Listing O M V)

inductive RegistryOp (K O M V : Type) where
  | idle
  | register (k : K) (x : Listing O M V)
  | write (k : K) (v : V)
  | unregister (k : K)
  | leave (o : O)

section
variable {K O M V : Type} [DecidableEq K] [DecidableEq O]

/-- the entry with another value -/
def Listing.withValue (x : Listing O M V) (v : V) : Listing O M V := { x with value := v }

namespace RegistryOp

def apply : RegistryOp K O M V → Registry K O M V → Registry K O M V
  | .idle, r => r
  | .register k x, r => Function.update r k (some x)
  | .write k v, r => Function.update r k ((r k).map fun x => x.withValue v)
  | .unregister k, r => Function.update r k none
  | .leave o, r => fun k => (r k).filter fun x => x.owner ≠ o

/-- after the operation an entry that `o` has had under `k` is not there any more -/
def Closes (k : K) (o : O) : RegistryOp K O M V → Prop
  | .register k' _ => k' = k
  | .unregister k' => k' = k
  | .leave o' => o' = o
  | _ => False

/-- the value under `k` after the operation -/
def writes (k : K) (v : V) : RegistryOp K O M V → V
  | .write k' v' => if k' = k then v' else v
  | _ => v

theorem apply_keeps {op : RegistryOp K O M V} {r : Registry K O M V} {k : K} {x : Listing O M V}
    (h : ¬ op.Closes k x.owner) (hx : r k = some x) : op.apply r k = some (x.withValue (op.writes k x.value)) := by
  cases op with
  | idle => exact hx
  | register k' y => exact (Function.update_of_ne (Ne.symm h) _ _).trans hx
  | write k' v =>
    by_cases hk : k' = k
    · subst hk
      rw [apply, Function.update_self, hx, writes, if_pos rfl]
      rfl
    · rw [apply, Function.update_of_ne (Ne.symm hk), hx, writes, if_neg hk]
      rfl
  | unregister k' => exact (Function.update_of_ne (Ne.symm h) _ _).trans hx
  | leave o =>
    show (r k).filter _ = _
    rw [hx, Option.filter_some, if_pos (decide_eq_true (Ne.symm h))]
    rfl

/-- what is there after an operation has just been registered, or has been there before -/
theorem apply_some {op : RegistryOp K O M V} {r : Registry K O M V} {k : K} {y : Listing O M V}
    (h : op.apply r k = some y) : op = .register k y ∨ ¬ op.Closes k y.owner ∧
      ∃ x, r k = some x ∧ y = x.withValue (op.writes k x.value) := by
  cases op with
  | idle => exact Or.inr ⟨id, y, h, rfl⟩
  | register k' z =>
    by_cases hk : k' = k
    · subst hk
      rw [apply, Function.update_self] at h
      exact Or.inl (by rw [Option.some.inj h])
    · rw [apply, Function.update_of_ne (Ne.symm hk)] at h
      exact Or.inr ⟨hk, y, h, rfl⟩
  | write k' v =>
    refine Or.inr ⟨id, ?_⟩
    by_cases hk : k' = k
    · subst hk
      rw [apply, Function.update_self] at h
      obtain ⟨x, hx, rfl⟩ := Option.map_eq_some_iff.mp h
      exact ⟨x, hx, by rw [writes, if_pos rfl]⟩
    · rw [apply, Function.update_of_ne (Ne.symm hk)] at h
      exact ⟨y, h, by rw [writes, if_neg hk]; rfl⟩
  | unregister k' =>
    by_cases hk : k' = k
    · subst hk
      rw [apply, Function.update_self] at h
      cases h
    · rw [apply, Function.update_of_ne (Ne.symm hk)] at h
      exact Or.inr ⟨hk, y, h, rfl⟩
  | leave o =>
    obtain ⟨hy, howner⟩ := Option.filter_eq_some_iff.mp h
    exact Or.inr ⟨fun e => of_decide_eq_true howner e.symm, y, hy, rfl⟩

end RegistryOp

/-- the registry that the operations make -/
def registryAfter (l : List (RegistryOp K O M V)) : Registry K O M V := l.foldl (fun r op => op.apply r) fun _ => none

/-- the value under `k` that the operations leave -/
def lastWritten (k : K) (v : V) (l : List (RegistryOp K O M V)) : V := l.foldl (fun v op => op.writes k v) v

theorem registryAfter_concat (l : List (RegistryOp K O M V)) (op : RegistryOp K O M V) :
    registryAfter (l ++ [op]) = op.apply (registryAfter l) := by
  unfold registryAfter
  rw [List.foldl_append]
  rfl

theorem lastWritten_concat (k : K) (v : V) (l : List (RegistryOp K O M V)) (op : RegistryOp K O M V) :
    lastWritten k v (l ++ [op]) = op.writes k (lastWritten k v l) := by
  unfold lastWritten
  rw [List.foldl_append]
  rfl

/-- An entry is there if and only if it has been registered and nothing has closed it since; its value is the one written
last. -/
theorem registry_history (l : List (RegistryOp K O M V)) (k : K) (x : Listing O M V) : registryAfter l k = some x ↔
    ∃ pre v post, l = pre ++ .register k (x.withValue v) :: post ∧ (∀ op ∈ post, ¬ op.Closes k x.owner) ∧
      x.value = lastWritten k v post := by
  induction l using List.reverseRecOn generalizing x with
  | nil =>
    refine iff_of_false (fun h => by cases h) ?_
    rintro ⟨pre, v, post, h, -⟩
    exact absurd h.symm (List.append_ne_nil_of_right_ne_nil pre (List.cons_ne_nil _ _))
  | append_singleton l op ih =>
    rw [registryAfter_concat]
    constructor
    · intro h
      rcases RegistryOp.apply_some h with rfl | ⟨hclose, y, hy, rfl⟩
      · exact ⟨l, x.value, [], rfl, fun op h => absurd h List.not_mem_nil, rfl⟩
      · obtain ⟨pre, v, post, rfl, hpost, hv⟩ := (ih y).mp hy
        refine ⟨pre, v, post ++ [op], by rw [List.append_assoc]; rfl, fun op' hop => ?_, ?_⟩
        · rcases List.mem_append.mp hop with hop | hop
          · exact hpost op' hop
          · rw [List.mem_singleton.mp hop]
            exact hclose
        · show op.writes k y.value = _
          rw [lastWritten_concat, ← hv]
    · rintro ⟨pre, v, post, hsplit, hpost, hv⟩
      rcases List.eq_nil_or_concat' post with rfl | ⟨post, op', rfl⟩
      · obtain ⟨rfl, hop⟩ := List.append_inj' hsplit rfl
        obtain rfl : op = _ := List.singleton_inj.mp hop
        obtain rfl : x.value = v := hv
        exact Function.update_self _ _ _
      · rw [← List.cons_append, ← List.append_assoc] at hsplit
        obtain ⟨rfl, hop⟩ := List.append_inj' hsplit rfl
        obtain rfl : op = op' := List.singleton_inj.mp hop
        have hx : registryAfter (pre ++ .register k (x.withValue v) :: post) k
            = some (x.withValue (lastWritten k v post)) :=
          (ih _).mpr ⟨pre, v, post, rfl, fun op' hop => hpost op' (List.mem_append_left _ hop), rfl⟩
        have hclose : ¬ op.Closes k x.owner := hpost op (List.mem_append_right _ List.mem_cons_self)
        rw [RegistryOp.apply_keeps (x := x.withValue (lastWritten k v post)) hclose hx]
        rw [lastWritten_concat] at hv
        show some (x.withValue (op.writes k (lastWritten k v post))) = some x
        rw [← hv]
        rfl

end

end Stateful
