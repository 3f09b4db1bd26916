import Mathlib.Data.List.Basic

/-!
# Consumers of a stream that arrives in parts

A consumer asks for the next part of a stream, gets it, and asks again.  A request is judged by what has
arrived: it can be served, it is refused, or it waits.  More that arrives does not change what has been
decided.

* `Requests`          the judgement on requests;
* `Consumer`, `Consumes`   what a consumer is given of a stream, and how that ends;
* `Consumes.unique`, `Consumes.exists`, `Consumes.append`   the stream decides it, and its continuation leaves it.
-/

set_option linter.unusedVariables false

namespace Stateful

/-- requests of type `R` on streams over `α` -/
structure Requests (R α : Type) where
  /-- the length of the part that serves the request -/
  serves : R → List α → Option Nat
  refused : R → List α → Prop
  serves_append : ∀ r u q n, serves r u = some n → serves r (u ++ q) = some n
  serves_le : ∀ r u n, serves r u = some n → n ≤ u.length
  refused_append : ∀ r u q, refused r u → refused r (u ++ q)
  serves_refused : ∀ r u, refused r u → serves r u = none

/-- what is asked for next, and what a part does to the consumer; `none`: it wants no more -/
structure Consumer (C R α : Type) where
  request : C → R
  callback : C → List α → Option C

inductive Ending where
  | waiting
  | refused
  | closed
  deriving DecidableEq

section
variable {C R α : Type} (J : Requests R α) (K : Consumer C R α)

/-- the parts that the consumer gets of the stream `u`, and how that ends -/
inductive Consumes : C → List α → List (List α) → Ending → Prop where
  | waits {c : C} {u : List α} (h1 : J.serves (K.request c) u = none) (h2 : ¬ J.refused (K.request c) u) :
      Consumes c u [] .waiting
  | refuses {c : C} {u : List α} (h : J.refused (K.request c) u) : Consumes c u [] .refused
  | closes {c : C} {u : List α} {n : Nat} (h1 : J.serves (K.request c) u = some n)
      (h2 : K.callback c (u.take n) = none) : Consumes c u [u.take n] .closed
  | goesOn {c c' : C} {u : List α} {n : Nat} {log : List (List α)} {e : Ending}
      (h1 : J.serves (K.request c) u = some n) (h2 : K.callback c (u.take n) = some c')
      (h3 : Consumes c' (u.drop n) log e) : Consumes c u (u.take n :: log) e

variable {J K}

theorem Consumes.unique {c : C} {u : List α} {log log' : List (List α)} {e e' : Ending} (h : Consumes J K c u log e)
    (h' : Consumes J K c u log' e') : log = log' ∧ e = e' := by
  induction h generalizing log' e' with
  | waits h1 h2 =>
    cases h' with
    | waits _ _ => exact ⟨rfl, rfl⟩
    | refuses h => exact absurd h h2
    | closes h3 _ => rw [h1] at h3; cases h3
    | goesOn h3 _ _ => rw [h1] at h3; cases h3
  | refuses h =>
    have hnone := J.serves_refused _ _ h
    cases h' with
    | waits _ h2 => exact absurd h h2
    | refuses _ => exact ⟨rfl, rfl⟩
    | closes h3 _ => rw [hnone] at h3; cases h3
    | goesOn h3 _ _ => rw [hnone] at h3; cases h3
  | closes h1 h2 =>
    cases h' with
    | waits h3 _ => rw [h1] at h3; cases h3
    | refuses h => rw [J.serves_refused _ _ h] at h1; cases h1
    | closes h3 _ => rw [h1] at h3; cases h3; exact ⟨rfl, rfl⟩
    | goesOn h3 h4 _ => rw [h1] at h3; cases h3; rw [h2] at h4; cases h4
  | goesOn h1 h2 h3 ih =>
    cases h' with
    | waits h4 _ => rw [h1] at h4; cases h4
    | refuses h => rw [J.serves_refused _ _ h] at h1; cases h1
    | closes h4 h5 => rw [h1] at h4; cases h4; rw [h2] at h5; cases h5
    | goesOn h4 h5 h6 =>
      rw [h1] at h4
      cases h4
      rw [h2] at h5
      cases h5
      obtain ⟨rfl, rfl⟩ := ih h6
      exact ⟨rfl, rfl⟩

/-- a request that can be served: the consumer gets the part, and the rest of the stream if it asks again -/
theorem consumes_served {c : C} {u : List α} {n : Nat} (h : J.serves (K.request c) u = some n) {log : List (List α)}
    {e : Ending} : Consumes J K c u log e ↔
      (K.callback c (u.take n) = none ∧ log = [u.take n] ∧ e = .closed) ∨
        ∃ c' log', K.callback c (u.take n) = some c' ∧ log = u.take n :: log' ∧ Consumes J K c' (u.drop n) log' e := by
  constructor
  · intro hc
    cases hc with
    | waits h1 _ => rw [h] at h1; cases h1
    | refuses h1 => rw [J.serves_refused _ _ h1] at h; cases h
    | closes h1 h2 => rw [h] at h1; cases h1; exact Or.inl ⟨h2, rfl, rfl⟩
    | goesOn h1 h2 h3 => rw [h] at h1; cases h1; exact Or.inr ⟨_, _, h2, rfl, h3⟩
  · rintro (⟨h1, rfl, rfl⟩ | ⟨c', log', h1, rfl, h2⟩)
    · exact .closes h h1
    · exact .goesOn h h1 h2

/-- What has ended does not change when more arrives. -/
theorem Consumes.append {c : C} {u : List α} {log : List (List α)} {e : Ending} (h : Consumes J K c u log e)
    (he : e ≠ .waiting) (q : List α) : Consumes J K c (u ++ q) log e := by
  induction h with
  | waits _ _ => exact absurd rfl he
  | refuses h => exact .refuses (J.refused_append _ _ q h)
  | closes h1 h2 =>
    have hle := J.serves_le _ _ _ h1
    rw [← List.take_append_of_le_length hle] at h2 ⊢
    exact .closes (J.serves_append _ _ q _ h1) h2
  | goesOn h1 h2 h3 ih =>
    have hle := J.serves_le _ _ _ h1
    have hrest := ih he
    rw [← List.drop_append_of_le_length hle] at hrest
    rw [← List.take_append_of_le_length hle] at h2 ⊢
    exact .goesOn (J.serves_append _ _ q _ h1) h2 hrest

/-- Where every part that serves a request has an item, a consumer gets what there is to get. -/
theorem Consumes.exists (hpos : ∀ c u n, J.serves (K.request c) u = some n → 0 < n) (c : C) (u : List α) :
    ∃ log e, Consumes J K c u log e := by
  generalize hlen : u.length = len
  induction len using Nat.strongRecOn generalizing c u with
  | ind len ih =>
    cases hserves : J.serves (K.request c) u with
    | none =>
      by_cases hrefused : J.refused (K.request c) u
      · exact ⟨[], .refused, .refuses hrefused⟩
      · exact ⟨[], .waiting, .waits hserves hrefused⟩
    | some n =>
      cases hcall : K.callback c (u.take n) with
      | none => exact ⟨_, .closed, .closes hserves hcall⟩
      | some d =>
        have hn := hpos c u n hserves
        have hle := J.serves_le _ _ _ hserves
        have hshort : (u.drop n).length < len := by
          rw [List.length_drop]
          omega
        obtain ⟨log, e, hrest⟩ := ih _ hshort d (u.drop n) rfl
        exact ⟨_, e, .goesOn hserves hcall hrest⟩

end
end Stateful
