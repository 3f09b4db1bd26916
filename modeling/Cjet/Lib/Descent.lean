import Mathlib.Logic.Basic

/-!
# Loops with a measure

`next s` is the state after one more turn of the loop, if there is one.

* `Turns next n s t`   `n` turns lead from `s` to `t`;
* `Turns.invariant`    what every turn preserves;
* `Turns.measure_le`   a measure that every turn decreases bounds the number of turns;
* `exists_last`        the loop ends.
-/

set_option linter.unusedVariables false

namespace Descent
section
variable {σ : Type} {next : σ → Option σ} {I : σ → Prop} {μ : σ → Nat} {s t : σ} {n : Nat}

inductive Turns (next : σ → Option σ) : Nat → σ → σ → Prop where
  | refl (s : σ) : Turns next 0 s s
  | cons {n : Nat} {s t u : σ} (h : next s = some t) (hrest : Turns next n t u) : Turns next (n + 1) s u

theorem Turns.invariant (hstep : ∀ s t, I s → next s = some t → I t) (hI : I s) (h : Turns next n s t) : I t := by
  induction h with
  | refl s => exact hI
  | cons h hrest ih => exact ih (hstep _ _ hI h)

theorem Turns.measure_le (hstep : ∀ s t, I s → next s = some t → I t) (hμ : ∀ s t, I s → next s = some t → μ t < μ s)
    (hI : I s) (h : Turns next n s t) : n + μ t ≤ μ s := by
  induction h with
  | refl s => exact Nat.le_of_eq (Nat.zero_add _)
  | cons h hrest ih =>
    have h1 := hμ _ _ hI h
    have h2 := ih (hstep _ _ hI h)
    omega

/-- the last state of the loop -/
theorem exists_last (hstep : ∀ s t, I s → next s = some t → I t) (hμ : ∀ s t, I s → next s = some t → μ t < μ s)
    (hI : I s) : ∃ n t, Turns next n s t ∧ next t = none := by
  generalize hm : μ s = m
  induction m using Nat.strongRecOn generalizing s with
  | ind m ih =>
    cases hs : next s with
    | none => exact ⟨0, s, .refl s, hs⟩
    | some t =>
      have hlt : μ t < m := hm ▸ hμ s t hI hs
      obtain ⟨n, u, h1, h2⟩ := ih _ hlt (hstep s t hI hs) rfl
      exact ⟨n + 1, u, .cons hs h1, h2⟩

end
end Descent
