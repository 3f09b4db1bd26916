import Mathlib.Data.List.Basic

/-!
# Runs of a system that takes one step for each input

`step s i` is the state after the input `i`, if the system is defined there.

* `run step s l`     the state after the inputs `l`;
* `Along step c s l`   each input meets the condition `c` in the state that it is processed in;
* `AtEach Q l`       `Q` holds of each input and the inputs before it;
* `Throughout step I s l`   `I` holds of all states of the run;
* `run_invariant`    what one step preserves under a condition, a run along it preserves;
* `run_history`      the same for what is said of the inputs and the state.
-/

set_option linter.unusedVariables false

namespace Stateful
section
variable {σ ι : Type} (step : σ → ι → Option σ)

def run : σ → List ι → Option σ
  | s, [] => some s
  | s, i :: l => (step s i).bind fun t => run t l

def Along (c : σ → ι → Prop) : σ → List ι → Prop
  | _, [] => True
  | s, i :: l => c s i ∧ ∀ t, step s i = some t → Along c t l

/-- the property holds of all states of a run -/
def Throughout (I : σ → Prop) (s : σ) (l : List ι) : Prop :=
  ∀ pre post t, l = pre ++ post → run step s pre = some t → I t

theorem run_nil (s : σ) : run step s [] = some s := rfl
theorem run_cons (s : σ) (i : ι) (l : List ι) :
    run step s (i :: l) = (step s i).bind fun t => run step t l := rfl
theorem along_nil (c : σ → ι → Prop) (s : σ) : Along step c s [] := trivial
theorem along_cons (c : σ → ι → Prop) (s : σ) (i : ι) (l : List ι) :
    Along step c s (i :: l) ↔ c s i ∧ ∀ t, step s i = some t → Along step c t l := Iff.rfl

variable {step}

theorem run_cons_some {s t : σ} {i : ι} {l : List ι} (h : run step s (i :: l) = some t) :
    ∃ u, step s i = some u ∧ run step u l = some t :=
  Option.bind_eq_some_iff.mp h

theorem run_append (s : σ) (l m : List ι) :
    run step s (l ++ m) = (run step s l).bind fun t => run step t m := by
  induction l generalizing s with
  | nil => rfl
  | cons i l ih =>
    rw [List.cons_append, run_cons, run_cons]
    cases step s i with
    | none => rfl
    | some t => exact ih t

theorem Along.mono {c d : σ → ι → Prop} (hcd : ∀ s i, c s i → d s i) {s : σ} {l : List ι}
    (h : Along step c s l) : Along step d s l := by
  induction l generalizing s with
  | nil => trivial
  | cons i l ih => exact ⟨hcd s i h.1, fun t ht => ih (h.2 t ht)⟩

theorem Along.and {c d : σ → ι → Prop} {s : σ} {l : List ι} (h : Along step c s l)
    (h' : Along step d s l) : Along step (fun s i => c s i ∧ d s i) s l := by
  induction l generalizing s with
  | nil => trivial
  | cons i l ih => exact ⟨⟨h.1, h'.1⟩, fun t ht => ih (h.2 t ht) (h'.2 t ht)⟩

theorem Along.of_mem {c : σ → ι → Prop} {l : List ι} (hc : ∀ i ∈ l, ∀ s, c s i) (s : σ) :
    Along step c s l := by
  induction l generalizing s with
  | nil => trivial
  | cons i l ih =>
    exact ⟨hc i List.mem_cons_self s, fun t _ => ih (fun j hj => hc j (List.mem_cons_of_mem i hj)) t⟩

theorem Along.of_forall {c : σ → ι → Prop} (hc : ∀ s i, c s i) (s : σ) (l : List ι) :
    Along step c s l := Along.of_mem (fun i _ s => hc s i) s

theorem Along.left {c : σ → ι → Prop} {s : σ} {l m : List ι} (h : Along step c s (l ++ m)) :
    Along step c s l := by
  induction l generalizing s with
  | nil => trivial
  | cons i l ih => exact ⟨h.1, fun t ht => ih (h.2 t ht)⟩

theorem Along.right {c : σ → ι → Prop} {s t : σ} {l m : List ι} (h : Along step c s (l ++ m))
    (hr : run step s l = some t) : Along step c t m := by
  induction l generalizing s with
  | nil =>
    obtain rfl : s = t := by simpa [run_nil] using hr
    exact h
  | cons i l ih =>
    obtain ⟨u, h1, h2⟩ := run_cons_some hr
    exact ih (h.2 u h1) h2

/-- each input of the list, with the inputs before it -/
def AtEach (Q : List ι → ι → Prop) (l : List ι) : Prop := ∀ pre i post, l = pre ++ i :: post → Q pre i

theorem atEach_nil (Q : List ι → ι → Prop) : AtEach Q [] := fun pre i post h =>
  absurd h.symm (List.append_ne_nil_of_right_ne_nil pre (List.cons_ne_nil i post))

theorem atEach_cons (Q : List ι → ι → Prop) (i : ι) (l : List ι) :
    AtEach Q (i :: l) ↔ Q [] i ∧ AtEach (fun pre => Q (i :: pre)) l := by
  constructor
  · intro h
    exact ⟨h [] i l rfl, fun pre j post e => h (i :: pre) j post (by rw [e]; rfl)⟩
  · rintro ⟨h1, h2⟩ pre j post e
    cases pre with
    | nil =>
      obtain ⟨rfl, _⟩ := List.cons.inj e
      exact h1
    | cons k pre =>
      obtain ⟨rfl, e'⟩ := List.cons.inj e
      exact h2 pre j post e'

theorem throughout_nil (I : σ → Prop) (s : σ) : Throughout step I s [] ↔ I s := by
  constructor
  · exact fun h => h [] [] s rfl rfl
  · intro hs pre post t e hrun
    obtain rfl : pre = [] := (List.append_eq_nil_iff.mp e.symm).1
    obtain rfl := Option.some.inj hrun
    exact hs

theorem throughout_cons (I : σ → Prop) (s : σ) (i : ι) (l : List ι) :
    Throughout step I s (i :: l) ↔ I s ∧ ∀ t, step s i = some t → Throughout step I t l := by
  constructor
  · intro h
    refine ⟨h [] (i :: l) s rfl rfl, fun t ht pre post u e hrun => h (i :: pre) post u (by rw [e]; rfl) ?_⟩
    rw [run_cons, ht]
    exact hrun
  · rintro ⟨hs, h⟩ pre post t e hrun
    cases pre with
    | nil =>
      obtain rfl := Option.some.inj hrun
      exact hs
    | cons j pre =>
      obtain ⟨rfl, e'⟩ := List.cons.inj e
      obtain ⟨u, hu, hrun'⟩ := run_cons_some hrun
      exact h u hu pre post t e' hrun'

theorem AtEach.mono {P Q : List ι → ι → Prop} {l : List ι} (h : AtEach P l) (hPQ : ∀ pre i, P pre i → Q pre i) :
    AtEach Q l := fun pre i post e => hPQ pre i (h pre i post e)

/-- a condition that is checked while the run is computed -/
def checkAlong (step : σ → ι → Option σ) (c : σ → ι → Bool) : σ → List ι → Bool
  | _, [] => true
  | s, i :: l => c s i && (step s i).all fun t => checkAlong step c t l

theorem Along.of_check {c : σ → ι → Bool} {d : σ → ι → Prop} (hcd : ∀ s i, c s i = true → d s i)
    {s : σ} {l : List ι} (h : checkAlong step c s l = true) : Along step d s l := by
  induction l generalizing s with
  | nil => trivial
  | cons i l ih =>
    obtain ⟨h1, h2⟩ := Bool.and_eq_true _ _ |>.mp h
    refine ⟨hcd s i h1, fun t ht => ih ?_⟩
    rwa [ht] at h2

/-- two conditions that agree in the states that a run meeting the second one reaches -/
theorem Along.congr {I : σ → Prop} {c d : σ → ι → Prop} (hstep : ∀ s i t, I s → d s i → step s i = some t → I t)
    (h : ∀ s i, I s → (c s i ↔ d s i)) {s : σ} (hs : I s) (l : List ι) : Along step c s l ↔ Along step d s l := by
  induction l generalizing s with
  | nil => exact Iff.rfl
  | cons i l ih =>
    rw [along_cons, along_cons]
    constructor
    · rintro ⟨h1, h2⟩
      have hd := (h s i hs).mp h1
      exact ⟨hd, fun t ht => (ih (hstep s i t hs hd ht)).mp (h2 t ht)⟩
    · rintro ⟨hd, h2⟩
      exact ⟨(h s i hs).mpr hd, fun t ht => (ih (hstep s i t hs hd ht)).mpr (h2 t ht)⟩

/-- The induction over a run: what a step preserves where the condition is met holds at the end of
a run that meets it throughout. -/
theorem run_invariant {I : σ → Prop} {c : σ → ι → Prop}
    (hstep : ∀ s i t, I s → c s i → step s i = some t → I t) {s t : σ} {l : List ι}
    (hs : I s) (hc : Along step c s l) (h : run step s l = some t) : I t := by
  induction l generalizing s with
  | nil =>
    obtain rfl : s = t := by simpa [run_nil] using h
    exact hs
  | cons i l ih =>
    obtain ⟨u, h1, h2⟩ := run_cons_some h
    exact ih (hstep s i u hs hc.1 h1) (hc.2 u h1) h2

/-- the same for an invariant that every step preserves -/
theorem run_keeps {I : σ → Prop} (hstep : ∀ s i t, I s → step s i = some t → I t) {s t : σ}
    {l : List ι} (hs : I s) (h : run step s l = some t) : I t :=
  run_invariant (c := fun _ _ => True) (fun s i t hI _ => hstep s i t hI) hs
    (Along.of_forall (fun _ _ => trivial) s l) h

/-- The same for an invariant that speaks of the inputs so far. -/
theorem run_history {I : List ι → σ → Prop} {c : σ → ι → Prop}
    (hstep : ∀ h s i t, I h s → c s i → step s i = some t → I (h ++ [i]) t) {s t : σ} {l : List ι}
    (hs : I [] s) (hc : Along step c s l) (h : run step s l = some t) : I l t := by
  have go : ∀ (l p : List ι) (s : σ), I p s → Along step c s l → run step s l = some t →
      I (p ++ l) t := by
    intro l
    induction l with
    | nil =>
      intro p s hI _ h
      obtain rfl : s = t := by simpa [run_nil] using h
      rwa [List.append_nil]
    | cons i l ih =>
      intro p s hI hc h
      obtain ⟨u, h1, h2⟩ := run_cons_some h
      have hI' := ih (p ++ [i]) u (hstep p s i u hI hc.1 h1) (hc.2 u h1) h2
      rwa [List.append_assoc, List.singleton_append] at hI'
  have hI := go l [] s hs hc h
  rwa [List.nil_append] at hI

end
end Stateful
