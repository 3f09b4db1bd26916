import Mathlib.Logic.Function.Basic
import Mathlib.Data.List.Basic
import Mathlib.Order.Defs.Unbundled

/-!
# Programs over a state, with undefined behaviour

`Prog σ α` is a program that reads and writes a state `σ` and returns an `α`; it has no result
where the behaviour of the modelled code is undefined (a freed object is read, a block is
released twice).  Nothing here names a particular state.

* `Prog.bind_some` and its companions: a result of a composed program splits into the results
  of its parts;
* `Does E m`       the program `m` takes a state only to states that `E` relates it to, and
                   `Keeps I m`, that it keeps the invariant `I`;
* `Returns V m`    `V` holds of what the program `m` returns;
* `Prog.each`      a loop that visits all elements of a list;
* `Prog.tryAll`    a loop that stops at the first element whose body reports a failure;
* `Sim R V m n`    the programs `m` and `n`, started in states related by `R`, are both
                   undefined or both end in related states, with results related by `V`.
-/

set_option linter.unusedVariables false

namespace Stateful

abbrev Prog (σ α : Type) := StateT σ Option α

namespace Prog
variable {σ α β γ : Type}

/-- reading a part of the state -/
def read (f : σ → α) : Prog σ α := fun s => some (f s, s)

/-- overwriting the state -/
def update (f : σ → σ) : Prog σ Unit := fun s => some ((), f s)

/-- an operation the language gives no meaning to -/
def undefined : Prog σ α := fun _ => none

/-- following a pointer: undefined where nothing is allocated -/
def deref (f : σ → Option α) : Prog σ α := fun s => (f s).map fun a => (a, s)

/-- a precondition of an operation of the language -/
def require (c : σ → Bool) : Prog σ Unit := fun s => if c s then some ((), s) else none

/-! ## results of composed programs -/

theorem bind_apply (m : Prog σ α) (f : α → Prog σ β) (s : σ) :
    (m >>= f) s = (m s).bind fun r => f r.1 r.2 := by
  show (StateT.bind m f) s = _
  unfold StateT.bind
  cases m s with
  | none => rfl
  | some r => rfl

theorem pure_apply (a : α) (s : σ) : (pure a : Prog σ α) s = some (a, s) := rfl
theorem read_apply (f : σ → α) (s : σ) : read f s = some (f s, s) := rfl
theorem update_apply (f : σ → σ) (s : σ) : update f s = some ((), f s) := rfl

theorem bind_some {m : Prog σ α} {f : α → Prog σ β} {s : σ} {r : β × σ}
    (h : (m >>= f) s = some r) : ∃ a t, m s = some (a, t) ∧ f a t = some r := by
  rw [bind_apply] at h
  obtain ⟨⟨a, t⟩, h1, h2⟩ := Option.bind_eq_some_iff.mp h
  exact ⟨a, t, h1, h2⟩

theorem bind_of_some {m : Prog σ α} {f : α → Prog σ β} {s t : σ} {a : α}
    (h : m s = some (a, t)) : (m >>= f) s = f a t := by
  rw [bind_apply, h]; rfl

theorem bind_none {m : Prog σ α} {f : α → Prog σ β} {s : σ} (h : m s = none) :
    (m >>= f) s = none := by
  rw [bind_apply, h]; rfl

theorem pure_some {a b : α} {s t : σ} (h : (pure a : Prog σ α) s = some (b, t)) : b = a ∧ t = s := by
  cases h; exact ⟨rfl, rfl⟩

theorem read_some {f : σ → α} {s t : σ} {a : α} (h : read f s = some (a, t)) : a = f s ∧ t = s := by
  cases h; exact ⟨rfl, rfl⟩

theorem update_some {f : σ → σ} {s t : σ} {a : Unit} (h : update f s = some (a, t)) : t = f s := by
  cases h; rfl

theorem deref_some {f : σ → Option α} {s t : σ} {a : α} (h : deref f s = some (a, t)) :
    f s = some a ∧ t = s := by
  unfold deref at h
  cases hf : f s with
  | none => rw [hf] at h; cases h
  | some b => rw [hf] at h; cases h; exact ⟨rfl, rfl⟩

theorem deref_of_some {f : σ → Option α} {s : σ} {a : α} (h : f s = some a) :
    deref f s = some (a, s) := by
  unfold deref; rw [h]; rfl

theorem deref_of_none {f : σ → Option α} {s : σ} (h : f s = none) : deref f s = none := by
  unfold deref; rw [h]; rfl

theorem require_some {c : σ → Bool} {s t : σ} {a : Unit} (h : require c s = some (a, t)) :
    c s = true ∧ t = s := by
  unfold require at h
  cases hc : c s with
  | false => rw [hc] at h; cases h
  | true => rw [hc] at h; cases h; exact ⟨rfl, rfl⟩

theorem require_of_true {c : σ → Bool} {s : σ} (h : c s = true) :
    require c s = some ((), s) := by
  unfold require; rw [h]; rfl

theorem undefined_some {s : σ} {r : α × σ} (h : (undefined : Prog σ α) s = some r) : False := by
  cases h

/-! ## loops -/

/-- `for (x in l) f(x);` -/
def each (f : α → Prog σ Unit) : List α → Prog σ Unit
  | [] => pure ()
  | x :: xs => do
    f x
    each f xs

/-- `for (x in l) if (f(x) != 0) return -1; return 0;` -/
def tryAll (f : α → Prog σ Bool) : List α → Prog σ Bool
  | [] => pure true
  | x :: xs => do
    let ok ← f x
    if ok then tryAll f xs else pure false

theorem each_nil (f : α → Prog σ Unit) : each f [] = pure () := rfl
theorem each_cons (f : α → Prog σ Unit) (x : α) (xs : List α) :
    each f (x :: xs) = (do f x; each f xs) := rfl
theorem tryAll_cons (f : α → Prog σ Bool) (x : α) (xs : List α) :
    tryAll f (x :: xs) = (do let ok ← f x; if ok then tryAll f xs else pure false) := rfl

theorem each_append (f : α → Prog σ Unit) (a b : List α) (s : σ) :
    each f (a ++ b) s = (do each f a; each f b : Prog σ Unit) s := by
  induction a generalizing s with
  | nil => rfl
  | cons x xs ih =>
    rw [List.cons_append, each_cons, each_cons, bind_apply, bind_apply, bind_apply]
    cases f x s with
    | none => rfl
    | some r =>
      show each f (xs ++ b) r.2 = _
      rw [ih, bind_apply]; rfl

theorem tryAll_append (f : α → Prog σ Bool) (a b : List α) (s : σ) :
    tryAll f (a ++ b) s
      = (do let ok ← tryAll f a; if ok then tryAll f b else pure false : Prog σ Bool) s := by
  induction a generalizing s with
  | nil => rfl
  | cons x xs ih =>
    rw [List.cons_append, tryAll_cons, tryAll_cons, bind_apply, bind_apply, bind_apply]
    cases f x s with
    | none => rfl
    | some r =>
      obtain ⟨ok, t⟩ := r
      cases ok with
      | false => rfl
      | true =>
        show tryAll f (xs ++ b) t = _
        rw [ih, bind_apply]; rfl

/-- the part of the list that a loop gets to that stops at the first failure -/
def tried (ok : α → Bool) : List α → List α
  | [] => []
  | x :: xs => x :: if ok x then tried ok xs else []

theorem tried_cons (ok : α → Bool) (x : α) (xs : List α) :
    tried ok (x :: xs) = x :: if ok x then tried ok xs else [] := rfl

theorem tried_sublist (ok : α → Bool) (xs : List α) : (tried ok xs).Sublist xs := by
  induction xs with
  | nil => exact List.Sublist.slnil
  | cons x xs ih =>
    rw [tried_cons]
    refine List.Sublist.cons_cons x ?_
    by_cases hx : ok x = true
    · rw [if_pos hx]
      exact ih
    · rw [if_neg hx]
      exact List.nil_sublist _

theorem tried_of_all {ok : α → Bool} {xs : List α} (h : ∀ x ∈ xs, ok x = true) : tried ok xs = xs := by
  induction xs with
  | nil => rfl
  | cons x xs ih =>
    rw [tried_cons, if_pos (h x List.mem_cons_self), ih fun y hy => h y (List.mem_cons_of_mem x hy)]

/-- All that can succeed is tried exactly where no failure stands before a success. -/
theorem all_tried_iff (ok : α → Bool) {xs : List α} (hn : xs.Nodup) :
    (∀ x ∈ xs, ok x = true → x ∈ tried ok xs) ↔ xs.Pairwise fun x y => ok y = true → ok x = true := by
  induction xs with
  | nil => simp
  | cons x xs ih =>
    obtain ⟨hx, hn⟩ := List.nodup_cons.mp hn
    rw [List.pairwise_cons, ← ih hn, tried_cons]
    have hne : ∀ y ∈ xs, y ≠ x := fun y hy e => hx (by rwa [e] at hy)
    by_cases hok : ok x = true
    · rw [if_pos hok]
      constructor
      · intro h
        refine ⟨fun y _ _ => hok, fun y hy hyok => ?_⟩
        rcases List.mem_cons.mp (h y (List.mem_cons_of_mem x hy) hyok) with e | h1
        · exact absurd e (hne y hy)
        · exact h1
      · rintro ⟨_, h⟩ y hy hyok
        rcases List.mem_cons.mp hy with e | hy
        · rw [e]
          exact List.mem_cons_self
        · exact List.mem_cons_of_mem x (h y hy hyok)
    · rw [if_neg hok]
      constructor
      · intro h
        have hfail : ∀ y ∈ xs, ok y = true → False := fun y hy hyok =>
          hne y hy (List.mem_singleton.mp (h y (List.mem_cons_of_mem x hy) hyok))
        exact ⟨fun y hy hyok => (hfail y hy hyok).elim, fun y hy hyok => (hfail y hy hyok).elim⟩
      · rintro ⟨h, _⟩ y hy hyok
        rcases List.mem_cons.mp hy with e | hy
        · rw [e]
          exact List.mem_cons_self
        · exact absurd (h y hy hyok) hok

/-- Two nested loops are one loop over the concatenated inner lists, where the list that the
outer loop reads for an element is not changed by the iterations before it. -/
theorem tryAll_flatMap (f : β → Prog σ Bool) (g : σ → α → List β) (s : σ)
    (hg : ∀ x t ok t', f x t = some (ok, t') → g t' = g t) (l : List α) :
    tryAll (fun a => do let xs ← read (fun t => g t a); tryAll f xs) l s
      = tryAll f (l.flatMap (g s)) s := by
  have keep : ∀ (xs : List β) (t : σ) ok t', tryAll f xs t = some (ok, t') → g t' = g t := by
    intro xs
    induction xs with
    | nil => intro t ok t' h; obtain ⟨_, rfl⟩ := pure_some h; rfl
    | cons x xs ih =>
      intro t ok t' h
      obtain ⟨b, t1, h1, h2⟩ := bind_some h
      have e1 := hg x t b t1 h1
      cases b with
      | true => exact (ih t1 ok t' h2).trans e1
      | false => obtain ⟨_, rfl⟩ := pure_some h2; exact e1
  induction l generalizing s with
  | nil => rfl
  | cons a l ih =>
    rw [List.flatMap_cons, tryAll_append, tryAll_cons, bind_apply, bind_apply, bind_apply, read_apply]
    show ((tryAll f (g s a) s).bind _) = _
    cases hr : tryAll f (g s a) s with
    | none => rfl
    | some r =>
      obtain ⟨ok, t⟩ := r
      cases ok with
      | false => rfl
      | true =>
        show tryAll (fun a => do let xs ← read (fun t => g t a); tryAll f xs) l t
          = tryAll f (l.flatMap (g s)) t
        rw [ih, keep _ _ _ _ hr]

theorem each_flatMap (f : β → Prog σ Unit) (g : σ → α → List β) (s : σ)
    (hg : ∀ x t u t', f x t = some (u, t') → g t' = g t) (l : List α) :
    each (fun a => do let xs ← read (fun t => g t a); each f xs) l s = each f (l.flatMap (g s)) s := by
  have keep : ∀ (xs : List β) (t : σ) u t', each f xs t = some (u, t') → g t' = g t := by
    intro xs
    induction xs with
    | nil => intro t u t' h; obtain ⟨_, rfl⟩ := pure_some h; rfl
    | cons x xs ih =>
      intro t u t' h
      obtain ⟨_, t1, h1, h2⟩ := bind_some h
      exact (ih t1 u t' h2).trans (hg x t _ t1 h1)
  induction l generalizing s with
  | nil => rfl
  | cons a l ih =>
    rw [List.flatMap_cons, each_append, each_cons, bind_apply, bind_apply, bind_apply, read_apply]
    show ((each f (g s a) s).bind _) = _
    cases hr : each f (g s a) s with
    | none => rfl
    | some r =>
      show each (fun a => do let xs ← read (fun t => g t a); each f xs) l r.2 = each f (l.flatMap (g s)) r.2
      rw [ih, keep _ _ _ _ hr]

end Prog

/-! ## what a program does to the state -/

/-- every defined run of `m` takes a state to one that `E` relates it to -/
def Does {σ α : Type} (E : σ → σ → Prop) (m : Prog σ α) : Prop :=
  ∀ s a t, m s = some (a, t) → E s t

namespace Does
open Prog
variable {σ α β : Type} {E : σ → σ → Prop}

theorem mono {F : σ → σ → Prop} {m : Prog σ α} (h : Does E m) (hEF : ∀ s t, E s t → F s t) :
    Does F m := fun s a t e => hEF s t (h s a t e)

theorem undefined : Does E (Prog.undefined : Prog σ α) := fun s a t h =>
  (undefined_some h).elim

theorem update {f : σ → σ} (hf : ∀ s, E s (f s)) : Does E (Prog.update f) := by
  intro s b t h
  rw [update_some h]
  exact hf s

theorem ite {c : Prop} [Decidable c] {m n : Prog σ α} (hm : c → Does E m) (hn : ¬ c → Does E n) :
    Does E (if c then m else n) := by
  by_cases hc : c
  · rw [if_pos hc]; exact hm hc
  · rw [if_neg hc]; exact hn hc

section
variable [IsPreorder σ E]

theorem pure (a : α) : Does E (Pure.pure a : Prog σ α) := by
  intro s b t h
  obtain ⟨_, rfl⟩ := pure_some h
  exact refl_of E _

theorem read (f : σ → α) : Does E (Prog.read f) := by
  intro s b t h
  obtain ⟨_, rfl⟩ := read_some h
  exact refl_of E _

theorem deref (f : σ → Option α) : Does E (Prog.deref f) := by
  intro s b t h
  obtain ⟨_, rfl⟩ := deref_some h
  exact refl_of E _

theorem require (c : σ → Bool) : Does E (Prog.require c) := by
  intro s b t h
  obtain ⟨_, rfl⟩ := require_some h
  exact refl_of E _

theorem bind {m : Prog σ α} {f : α → Prog σ β} (hm : Does E m) (hf : ∀ a, Does E (f a)) :
    Does E (m >>= f) := by
  intro s b t h
  obtain ⟨a, s1, h1, h2⟩ := bind_some h
  exact trans_of E (hm s a s1 h1) (hf a s1 b t h2)

theorem each {f : α → Prog σ Unit} (l : List α) (hf : ∀ a ∈ l, Does E (f a)) :
    Does E (Prog.each f l) := by
  induction l with
  | nil => exact Does.pure ()
  | cons x xs ih =>
    exact Does.bind (hf x List.mem_cons_self) fun _ => ih fun a ha => hf a (List.mem_cons_of_mem _ ha)

theorem tryAll {f : α → Prog σ Bool} (l : List α) (hf : ∀ a ∈ l, Does E (f a)) :
    Does E (Prog.tryAll f l) := by
  induction l with
  | nil => exact Does.pure true
  | cons x xs ih =>
    exact Does.bind (hf x List.mem_cons_self) fun ok =>
      Does.ite (fun _ => ih fun a ha => hf a (List.mem_cons_of_mem _ ha)) fun _ => Does.pure false

end
end Does

/-- every defined run of `m` from a state with `I` ends in a state with `I` -/
def Keeps {σ α : Type} (I : σ → Prop) (m : Prog σ α) : Prop := Does (fun s t => I s → I t) m

instance keeps_isPreorder {σ : Type} (I : σ → Prop) : IsPreorder σ (fun s t => I s → I t) where
  refl _ := id
  trans _ _ _ hst htu hs := htu (hst hs)

/-! ## what a program returns -/

/-- `V` holds of what a defined run of `m` returns -/
def Returns {σ α : Type} (V : α → Prop) (m : Prog σ α) : Prop := ∀ s a t, m s = some (a, t) → V a

namespace Returns
open Prog
variable {σ α β : Type} {V : α → Prop} {W : β → Prop}

theorem pure {a : α} (h : V a) : Returns V (Pure.pure a : Prog σ α) := by
  intro s b t hs
  obtain ⟨rfl, _⟩ := pure_some hs
  exact h

theorem bind {m : Prog σ α} {f : α → Prog σ β} (hm : Returns V m) (hf : ∀ a, V a → Returns W (f a)) :
    Returns W (m >>= f) := by
  intro s b t h
  obtain ⟨a, s1, h1, h2⟩ := bind_some h
  exact hf a (hm s a s1 h1) s1 b t h2

/-- what `m` returns does not matter -/
theorem behind {m : Prog σ α} {f : α → Prog σ β} (hf : ∀ a, Returns W (f a)) : Returns W (m >>= f) :=
  bind (V := fun _ => True) (fun _ _ _ _ => trivial) fun a _ => hf a

theorem ite {c : Prop} [Decidable c] {m n : Prog σ α} (hm : Returns V m) (hn : Returns V n) :
    Returns V (if c then m else n) := by
  by_cases hc : c
  · rw [if_pos hc]
    exact hm
  · rw [if_neg hc]
    exact hn

end Returns

/-! ## two runs side by side -/

/-- started in related states, `m` and `n` are both undefined, or both end with related
results in related states -/
def Sim {σ α β : Type} (R : σ → σ → Prop) (V : α → β → Prop) (m : Prog σ α) (n : Prog σ β) : Prop :=
  ∀ s t, R s t → (m s = none ∧ n t = none) ∨
    ∃ a s' b t', m s = some (a, s') ∧ n t = some (b, t') ∧ V a b ∧ R s' t'

namespace Sim
open Prog
variable {σ α β α' β' : Type} {R : σ → σ → Prop}

theorem pure {V : α → β → Prop} {a : α} {b : β} (h : V a b) :
    Sim R V (Pure.pure a) (Pure.pure b) := fun s t hR =>
  Or.inr ⟨a, s, b, t, rfl, rfl, h, hR⟩

theorem read {V : α → β → Prop} {f : σ → α} {g : σ → β} (h : ∀ s t, R s t → V (f s) (g t)) :
    Sim R V (Prog.read f) (Prog.read g) := fun s t hR =>
  Or.inr ⟨f s, s, g t, t, rfl, rfl, h s t hR, hR⟩

theorem update {f g : σ → σ} (h : ∀ s t, R s t → R (f s) (g t)) :
    Sim R Eq (Prog.update f) (Prog.update g) := fun s t hR =>
  Or.inr ⟨(), f s, (), g t, rfl, rfl, rfl, h s t hR⟩

theorem undefined {V : α → β → Prop} : Sim R V Prog.undefined Prog.undefined := fun _ _ _ =>
  Or.inl ⟨rfl, rfl⟩

theorem require {c d : σ → Bool} (h : ∀ s t, R s t → c s = d t) :
    Sim R Eq (Prog.require c) (Prog.require d) := by
  intro s t hR
  have e := h s t hR
  unfold Prog.require
  cases hc : c s with
  | false => rw [hc] at e; rw [← e]; exact Or.inl ⟨rfl, rfl⟩
  | true => rw [hc] at e; rw [← e]; exact Or.inr ⟨(), s, (), t, rfl, rfl, rfl, hR⟩

theorem deref {V : α → β → Prop} {f : σ → Option α} {g : σ → Option β}
    (h : ∀ s t, R s t → Option.Rel V (f s) (g t)) : Sim R V (Prog.deref f) (Prog.deref g) := by
  intro s t hR
  have e := h s t hR
  unfold Prog.deref
  cases hf : f s with
  | none =>
    rw [hf] at e
    cases hg : g t with
    | none => exact Or.inl ⟨rfl, rfl⟩
    | some b => rw [hg] at e; cases e
  | some a =>
    rw [hf] at e
    cases hg : g t with
    | none => rw [hg] at e; cases e
    | some b =>
      rw [hg] at e
      cases e with
      | some hv => exact Or.inr ⟨a, s, b, t, rfl, rfl, hv, hR⟩

theorem bind {V : α → β → Prop} {W : α' → β' → Prop} {m : Prog σ α} {n : Prog σ β}
    {f : α → Prog σ α'} {g : β → Prog σ β'} (hm : Sim R V m n)
    (hf : ∀ a b, V a b → Sim R W (f a) (g b)) : Sim R W (m >>= f) (n >>= g) := by
  intro s t hR
  rcases hm s t hR with ⟨h1, h2⟩ | ⟨a, s1, b, t1, h1, h2, hv, hR1⟩
  · exact Or.inl ⟨bind_none h1, bind_none h2⟩
  · rw [bind_of_some h1, bind_of_some h2]
    exact hf a b hv s1 t1 hR1

theorem ite {c d : Prop} [Decidable c] [Decidable d] {V : α → β → Prop} {m m' : Prog σ α}
    {n n' : Prog σ β} (hcd : c ↔ d) (h1 : c → Sim R V m n) (h2 : ¬ c → Sim R V m' n') :
    Sim R V (if c then m else m') (if d then n else n') := by
  by_cases hc : c
  · rw [if_pos hc, if_pos (hcd.mp hc)]; exact h1 hc
  · rw [if_neg hc, if_neg fun hd => hc (hcd.mpr hd)]; exact h2 hc

theorem each {f g : α → Prog σ Unit} (l : List α) (h : ∀ x ∈ l, Sim R Eq (f x) (g x)) :
    Sim R Eq (Prog.each f l) (Prog.each g l) := by
  induction l with
  | nil => exact Sim.pure rfl
  | cons x xs ih =>
    exact Sim.bind (h x List.mem_cons_self) fun _ _ _ =>
      ih fun y hy => h y (List.mem_cons_of_mem _ hy)

theorem tryAll {f g : α → Prog σ Bool} (l : List α) (h : ∀ x ∈ l, Sim R Eq (f x) (g x)) :
    Sim R Eq (Prog.tryAll f l) (Prog.tryAll g l) := by
  induction l with
  | nil => exact Sim.pure rfl
  | cons x xs ih =>
    refine Sim.bind (h x List.mem_cons_self) fun a b e => ?_
    subst e
    exact Sim.ite Iff.rfl (fun _ => ih fun y hy => h y (List.mem_cons_of_mem _ hy))
      fun _ => Sim.pure rfl

theorem weaken {V W : α → β → Prop} {m : Prog σ α} {n : Prog σ β} (h : Sim R V m n)
    (hVW : ∀ a b, V a b → W a b) : Sim R W m n := by
  intro s t hR
  rcases h s t hR with h | ⟨a, s', b, t', h1, h2, hv, h3⟩
  · exact Or.inl h
  · exact Or.inr ⟨a, s', b, t', h1, h2, hVW a b hv, h3⟩

end Sim

/-- the same for one pair of states -/
def SimAt {σ α β : Type} (R : σ → σ → Prop) (V : α → β → Prop) (m : Prog σ α) (n : Prog σ β) (s t : σ) : Prop :=
  (m s = none ∧ n t = none) ∨ ∃ a s' b t', m s = some (a, s') ∧ n t = some (b, t') ∧ V a b ∧ R s' t'

namespace SimAt
open Prog
variable {σ α β α' β' : Type} {R R' : σ → σ → Prop} {s t : σ}

theorem mono {V : α → β → Prop} {m : Prog σ α} {n : Prog σ β} (h : SimAt R V m n s t)
    (hR : ∀ s t, R s t → R' s t) : SimAt R' V m n s t := by
  rcases h with h | ⟨a, s', b, t', h1, h2, hv, h3⟩
  · exact Or.inl h
  · exact Or.inr ⟨a, s', b, t', h1, h2, hv, hR s' t' h3⟩

theorem weaken {V W : α → β → Prop} {m : Prog σ α} {n : Prog σ β} (h : SimAt R V m n s t)
    (hVW : ∀ a b, V a b → W a b) : SimAt R W m n s t := by
  rcases h with h | ⟨a, s', b, t', h1, h2, hv, h3⟩
  · exact Or.inl h
  · exact Or.inr ⟨a, s', b, t', h1, h2, hVW a b hv, h3⟩

theorem bind {V : α → β → Prop} {W : α' → β' → Prop} {m : Prog σ α} {n : Prog σ β}
    {f : α → Prog σ α'} {g : β → Prog σ β'} (hm : SimAt R' V m n s t)
    (hf : ∀ a b, V a b → ∀ s t, R' s t → SimAt R W (f a) (g b) s t) : SimAt R W (m >>= f) (n >>= g) s t := by
  rcases hm with ⟨h1, h2⟩ | ⟨a, s1, b, t1, h1, h2, hv, hR1⟩
  · exact Or.inl ⟨bind_none h1, bind_none h2⟩
  · unfold SimAt
    rw [bind_of_some h1, bind_of_some h2]
    exact hf a b hv s1 t1 hR1

theorem ite_same {V : α → β → Prop} {c : Prop} [Decidable c] {m m' : Prog σ α} {n n' : Prog σ β}
    (h1 : c → SimAt R V m n s t) (h2 : ¬ c → SimAt R V m' n' s t) :
    SimAt R V (if c then m else m') (if c then n else n') s t := by
  by_cases hc : c
  · rw [if_pos hc, if_pos hc]
    exact h1 hc
  · rw [if_neg hc, if_neg hc]
    exact h2 hc

/-- the first step of both is known -/
theorem of_some {W : α' → β' → Prop} {m : Prog σ α} {n : Prog σ β} {f : α → Prog σ α'} {g : β → Prog σ β'}
    {a : α} {b : β} {s1 t1 : σ} (h1 : m s = some (a, s1)) (h2 : n t = some (b, t1))
    (hf : SimAt R W (f a) (g b) s1 t1) : SimAt R W (m >>= f) (n >>= g) s t := by
  unfold SimAt
  rw [bind_of_some h1, bind_of_some h2]
  exact hf

/-- a pointer that is the same in both states -/
theorem deref_same {γ : Type} {V : α → β → Prop} {p : σ → Option γ} {f : γ → Prog σ α} {g : γ → Prog σ β}
    (hp : p t = p s) (hf : ∀ c, p s = some c → SimAt R V (f c) (g c) s t) :
    SimAt R V (Prog.deref p >>= f) (Prog.deref p >>= g) s t := by
  cases hs : p s with
  | none => exact Or.inl ⟨bind_none (deref_of_none hs), bind_none (deref_of_none (hp.trans hs))⟩
  | some c => exact of_some (deref_of_some hs) (deref_of_some (hp.trans hs)) (hf c hs)

end SimAt

/-! ## two state-passing functions side by side -/

/-- from the same state, related results and the same state -/
def InPar {σ α β : Type} (V : α → β → Prop) (m : StateM σ α) (n : StateM σ β) : Prop :=
  ∀ s, V (m s).1 (n s).1 ∧ (m s).2 = (n s).2

namespace InPar
variable {σ α β α' β' : Type}

theorem refl (m : StateM σ α) : InPar Eq m m := fun _ => ⟨rfl, rfl⟩

theorem pure {V : α → β → Prop} {a : α} {b : β} (h : V a b) :
    InPar V (Pure.pure a : StateM σ α) (Pure.pure b : StateM σ β) := fun _ => ⟨h, rfl⟩

theorem bind {V : α → β → Prop} {W : α' → β' → Prop} {m : StateM σ α} {n : StateM σ β}
    {f : α → StateM σ α'} {g : β → StateM σ β'} (hm : InPar V m n) (hf : ∀ a b, V a b → InPar W (f a) (g b)) :
    InPar W (m >>= f) (n >>= g) := fun s => by
  obtain ⟨hv, hs⟩ := hm s
  obtain ⟨hw, ht⟩ := hf _ _ hv (m s).2
  refine ⟨?_, ?_⟩
  · show W (f (m s).1 (m s).2).1 (g (n s).1 (n s).2).1
    rw [← hs]
    exact hw
  · show (f (m s).1 (m s).2).2 = (g (n s).1 (n s).2).2
    rw [← hs]
    exact ht

/-- both start in the same way -/
theorem bind_same {W : α' → β' → Prop} (m : StateM σ α) {f : α → StateM σ α'} {g : α → StateM σ β'}
    (hf : ∀ a, InPar W (f a) (g a)) : InPar W (m >>= f) (m >>= g) :=
  bind (refl m) fun a b e => by
    rw [← e]
    exact hf a

theorem ite_same {V : α → β → Prop} (c : Prop) [Decidable c] {m m' : StateM σ α} {n n' : StateM σ β}
    (h1 : InPar V m n) (h2 : InPar V m' n') : InPar V (if c then m else m') (if c then n else n') := by
  by_cases hc : c
  · rw [if_pos hc, if_pos hc]
    exact h1
  · rw [if_neg hc, if_neg hc]
    exact h2

end InPar
end Stateful
