import Cjet.Lib.Run

/-!
# Machines that read the words of a prefix code

A message is a sequence of words, none of which is the beginning of another.  A machine that remembers the
word it is in, and gives up where no word goes on, accepts the messages.

* `PrefixCode`, `Message`    the code and its messages;
* `Unfinished`               the beginnings of words;
* `Reads`                    the machine;
* `Reads.run_iff`            it ends between two words exactly on the messages.
-/

set_option linter.unusedVariables false

namespace Stateful
section
variable {α σ : Type}

/-- no word is empty, and none is the beginning of another -/
structure PrefixCode (C : List α → Prop) : Prop where
  ne_nil : ∀ w, C w → w ≠ []
  eq_of_prefix : ∀ w w', C w → C w' → w <+: w' → w = w'

inductive Message (C : List α → Prop) : List α → Prop where
  | nil : Message C []
  | cons {w rest : List α} (hw : C w) (hrest : Message C rest) : Message C (w ++ rest)

/-- the beginning of a word, but not all of it -/
def Unfinished (C : List α → Prop) (p : List α) : Prop := ∃ rest, rest ≠ [] ∧ C (p ++ rest)

variable {C : List α → Prop}

theorem Unfinished.not_prefix (hC : PrefixCode C) {p w : List α} (hp : Unfinished C p) (hw : C w) : ¬ w <+: p := by
  rintro hpre
  obtain ⟨rest, hne, hword⟩ := hp
  have heq := hC.eq_of_prefix w (p ++ rest) hw hword (hpre.trans (List.prefix_append p rest))
  have hle := hpre.length_le
  rw [heq, List.length_append] at hle
  exact hne (List.eq_nil_of_length_eq_zero (by omega))

theorem message_word (hC : PrefixCode C) {w : List α} (hw : C w) (l : List α) : Message C (w ++ l) ↔ Message C l := by
  constructor
  · intro h
    generalize hm : w ++ l = m at h
    cases h with
    | nil => exact (hC.ne_nil w hw (List.append_eq_nil_iff.mp hm).1).elim
    | @cons w' rest hw' hrest =>
      have heq : w = w' := by
        rcases List.prefix_or_prefix_of_prefix (List.prefix_append w l) (hm ▸ List.prefix_append w' rest) with hpre | hpre
        · exact hC.eq_of_prefix w w' hw hw' hpre
        · exact (hC.eq_of_prefix w' w hw' hw hpre).symm
      rw [heq] at hm
      rwa [List.append_cancel_left hm]
  · exact Message.cons hw

/-- No message ends inside a word. -/
theorem message_unfinished (hC : PrefixCode C) {p : List α} (hp : Unfinished C p) : Message C p ↔ p = [] := by
  constructor
  · intro h
    cases h with
    | nil => rfl
    | cons hw hrest => exact (hp.not_prefix hC hw (List.prefix_append _ _)).elim
  · rintro rfl
    exact .nil

/-- No message goes on where no word goes on. -/
theorem not_message (hC : PrefixCode C) {p : List α} {a : α} (hp : Unfinished C p) (hw : ¬ C (p ++ [a]))
    (hu : ¬ Unfinished C (p ++ [a])) (l : List α) : ¬ Message C (p ++ a :: l) := by
  intro h
  generalize hm : p ++ a :: l = m at h
  cases h with
  | nil => exact List.append_ne_nil_of_right_ne_nil p (List.cons_ne_nil a l) hm
  | @cons w rest hword hrest =>
    have hpa : p ++ [a] <+: w ++ rest := ⟨l, by rw [← hm, List.append_assoc, List.singleton_append]⟩
    rcases List.prefix_or_prefix_of_prefix (List.prefix_append w rest) hpa with hpre | ⟨t, ht⟩
    · rcases List.prefix_concat_iff.mp hpre with heq | hpre
      · exact hw (heq ▸ hword)
      · exact hp.not_prefix hC hword hpre
    · by_cases hnil : t = []
      · rw [hnil, List.append_nil] at ht
        exact hw (ht ▸ hword)
      · exact hu ⟨t, hnil, ht ▸ hword⟩

/-- the machine is in `state p` after the beginning `p` of a word -/
structure Reads (step : σ → α → Option σ) (state : List α → σ) (C : List α → Prop) : Prop where
  word : ∀ p a, Unfinished C p → C (p ++ [a]) → step (state p) a = some (state [])
  unfinished : ∀ p a, Unfinished C p → Unfinished C (p ++ [a]) → step (state p) a = some (state (p ++ [a]))
  stops : ∀ p a, Unfinished C p → ¬ C (p ++ [a]) → ¬ Unfinished C (p ++ [a]) → step (state p) a = none
  between : ∀ p, Unfinished C p → state p = state [] → p = []

variable {step : σ → α → Option σ} {state : List α → σ}

/-- **It ends between two words exactly on the messages.** -/
theorem Reads.run_iff (h : Reads step state C) (hC : PrefixCode C) (h0 : Unfinished C []) {p : List α}
    (hp : Unfinished C p) (l : List α) : run step (state p) l = some (state []) ↔ Message C (p ++ l) := by
  induction l generalizing p with
  | nil =>
    rw [List.append_nil, message_unfinished hC hp, run_nil, Option.some.injEq]
    exact ⟨h.between p hp, fun e => by rw [e]⟩
  | cons a l ih =>
    have hsplit : p ++ a :: l = p ++ [a] ++ l := by rw [List.append_assoc, List.singleton_append]
    by_cases hw : C (p ++ [a])
    · rw [Stateful.run_cons, h.word p a hp hw, Option.bind_some, ih h0, hsplit, message_word hC hw, List.nil_append]
    by_cases hu : Unfinished C (p ++ [a])
    · rw [Stateful.run_cons, h.unfinished p a hp hu, Option.bind_some, ih hu, hsplit]
    · rw [Stateful.run_cons, h.stops p a hp hw hu]
      exact iff_of_false (by rintro ⟨⟩) (not_message hC hp hw hu l)

/-- It is always in a state that belongs to the beginning of a word. -/
theorem Reads.run_some (h : Reads step state C) (h0 : Unfinished C []) {p : List α} (hp : Unfinished C p) {l : List α}
    {s : σ} (hrun : run step (state p) l = some s) : ∃ q, Unfinished C q ∧ s = state q := by
  induction l generalizing p with
  | nil => exact ⟨p, hp, (Option.some.inj hrun).symm⟩
  | cons a l ih =>
    rw [Stateful.run_cons] at hrun
    by_cases hw : C (p ++ [a])
    · rw [h.word p a hp hw] at hrun
      exact ih h0 hrun
    by_cases hu : Unfinished C (p ++ [a])
    · rw [h.unfinished p a hp hu] at hrun
      exact ih hu hrun
    · rw [h.stops p a hp hw hu] at hrun
      cases hrun

end
end Stateful
