import Mathlib.Logic.Function.Basic
import Mathlib.Data.List.Nodup

/-!
# Objects in the lists of their owners

Each owner keeps a list of its objects, and each object that is alive points back to its owner.
`Owned owners list heap` says that the two agree; `heap a` is the owner of `a`, if `a` is alive.

* `Owned.mem_all`, `Owned.nodup_all`   the concatenated lists hold each object that is alive once;
* `Owned.insert`, `Owned.erase`, `Owned.addOwner`, `Owned.removeOwner`   what keeps them in step.
-/

set_option linter.unusedVariables false
set_option linter.unusedSectionVars false

namespace Stateful
variable {O A : Type} [DecidableEq O] [DecidableEq A]

structure Owned (owners : List O) (list : O → List A) (heap : A → Option O) : Prop where
  nodup : ∀ o ∈ owners, (list o).Nodup
  listed : ∀ a o, heap a = some o → o ∈ owners ∧ a ∈ list o
  live : ∀ o ∈ owners, ∀ a ∈ list o, heap a = some o

namespace Owned
variable {owners : List O} {list : O → List A} {heap : A → Option O}

theorem mem_iff (h : Owned owners list heap) {o : O} (ho : o ∈ owners) (a : A) :
    a ∈ list o ↔ heap a = some o :=
  ⟨h.live o ho a, fun ha => (h.listed a o ha).2⟩

theorem mem_all (h : Owned owners list heap) (a : A) :
    a ∈ owners.flatMap list ↔ (heap a).isSome = true := by
  rw [List.mem_flatMap, Option.isSome_iff_exists]
  constructor
  · rintro ⟨o, ho, ha⟩
    exact ⟨o, h.live o ho a ha⟩
  · rintro ⟨o, ha⟩
    exact ⟨o, h.listed a o ha⟩

theorem nodup_all (h : Owned owners list heap) (hn : owners.Nodup) : (owners.flatMap list).Nodup := by
  rw [List.nodup_flatMap]
  refine ⟨h.nodup, hn.imp_of_mem fun {o o'} ho ho' hne a ha ha' => hne ?_⟩
  have e := (h.live o ho a ha).symm.trans (h.live o' ho' a ha')
  exact Option.some.inj e

/-- a new object -/
theorem insert (h : Owned owners list heap) {o : O} {a : A} (ho : o ∈ owners) (ha : heap a = none) :
    Owned owners (Function.update list o (list o ++ [a])) (Function.update heap a (some o)) := by
  have hnot : ∀ o' ∈ owners, a ∉ list o' := fun o' ho' hm => by
    have e := h.live o' ho' a hm
    rw [ha] at e
    cases e
  refine ⟨fun o' ho' => ?_, fun a' o' ha' => ?_, fun o' ho' a' ha' => ?_⟩
  · by_cases e : o' = o
    · rw [e, Function.update_self]
      exact (h.nodup o ho).append (List.nodup_singleton a) (by simpa using hnot o ho)
    · rw [Function.update_of_ne e]
      exact h.nodup o' ho'
  · by_cases ea : a' = a
    · rw [ea, Function.update_self] at ha'
      obtain rfl := Option.some.inj ha'
      rw [ea, Function.update_self]
      exact ⟨ho, List.mem_append_right _ List.mem_cons_self⟩
    · rw [Function.update_of_ne ea] at ha'
      obtain ⟨h1, h2⟩ := h.listed a' o' ha'
      refine ⟨h1, ?_⟩
      by_cases e : o' = o
      · subst e
        rw [Function.update_self]
        exact List.mem_append_left _ h2
      · rw [Function.update_of_ne e]
        exact h2
  · by_cases e : o' = o
    · rw [e, Function.update_self, List.mem_append, List.mem_singleton] at ha'
      rcases ha' with ha' | rfl
      · rw [e, Function.update_of_ne fun ea => hnot o ho (by rwa [ea] at ha')]
        exact h.live o ho a' ha'
      · rw [e, Function.update_self]
    · rw [Function.update_of_ne e] at ha'
      rw [Function.update_of_ne fun ea => hnot o' ho' (by rwa [ea] at ha')]
      exact h.live o' ho' a' ha'

/-- an object goes away -/
theorem erase (h : Owned owners list heap) {o : O} {a : A} (ha : heap a = some o) :
    Owned owners (Function.update list o ((list o).erase a)) (Function.update heap a none) := by
  have ho := (h.listed a o ha).1
  refine ⟨fun o' ho' => ?_, fun a' o' ha' => ?_, fun o' ho' a' ha' => ?_⟩
  · by_cases e : o' = o
    · rw [e, Function.update_self]
      exact (h.nodup o ho).erase a
    · rw [Function.update_of_ne e]
      exact h.nodup o' ho'
  · by_cases ea : a' = a
    · rw [ea, Function.update_self] at ha'
      cases ha'
    · rw [Function.update_of_ne ea] at ha'
      obtain ⟨h1, h2⟩ := h.listed a' o' ha'
      refine ⟨h1, ?_⟩
      by_cases e : o' = o
      · subst e
        rw [Function.update_self, List.mem_erase_of_ne ea]
        exact h2
      · rw [Function.update_of_ne e]
        exact h2
  · by_cases e : o' = o
    · rw [e, Function.update_self] at ha'
      obtain ⟨ea, ha'⟩ := (h.nodup o ho).mem_erase_iff.mp ha'
      rw [e, Function.update_of_ne ea]
      exact h.live o ho a' ha'
    · rw [Function.update_of_ne e] at ha'
      have e1 := h.live o' ho' a' ha'
      rw [Function.update_of_ne, e1]
      intro ea
      rw [ea, ha] at e1
      exact e (Option.some.inj e1).symm

/-- an owner without objects -/
theorem addOwner (h : Owned owners list heap) {o : O} (ho : o ∉ owners) :
    Owned (owners ++ [o]) (Function.update list o []) heap := by
  have old : ∀ {o'}, o' ∈ owners → Function.update list o [] o' = list o' := fun ho' =>
    Function.update_of_ne (fun e => ho (by rwa [e] at ho')) _ _
  refine ⟨fun o' ho' => ?_, fun a o' ha => ?_, fun o' ho' a ha => ?_⟩
  · rcases List.mem_append.mp ho' with ho' | ho'
    · rw [old ho']
      exact h.nodup o' ho'
    · rw [List.mem_singleton.mp ho', Function.update_self]
      exact List.nodup_nil
  · obtain ⟨h1, h2⟩ := h.listed a o' ha
    rw [old h1]
    exact ⟨List.mem_append_left _ h1, h2⟩
  · rcases List.mem_append.mp ho' with ho' | ho'
    · rw [old ho'] at ha
      exact h.live o' ho' a ha
    · rw [List.mem_singleton.mp ho', Function.update_self] at ha
      cases ha

/-- an owner that has no objects left -/
theorem removeOwner (h : Owned owners list heap) (hn : owners.Nodup) {o : O}
    (ho : ∀ a, heap a ≠ some o) : Owned (owners.erase o) list heap := by
  refine ⟨fun o' ho' => h.nodup o' (List.mem_of_mem_erase ho'), fun a o' ha => ?_, fun o' ho' a ha =>
    h.live o' (List.mem_of_mem_erase ho') a ha⟩
  obtain ⟨h1, h2⟩ := h.listed a o' ha
  refine ⟨?_, h2⟩
  rw [List.mem_erase_of_ne]
  · exact h1
  · intro e
    rw [e] at ha
    exact ho a ha

end Owned
end Stateful
