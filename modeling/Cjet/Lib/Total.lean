import Cjet.Lib.Ledger
import Cjet.Lib.Program

/-!
# Programs that have a result

`Ends m s Q`: the program `m`, started in `s`, is defined, and `Q` holds of its result and of the state behind it.

* `Ends.bind`, `Ends.then_read` and its companions   one rule for each way a program goes on;
* `Owns`                   what is still to be released grows by some addresses.
-/

set_option linter.unusedVariables false

namespace Stateful

def Ends {σ α : Type} (m : Prog σ α) (s : σ) (Q : α → σ → Prop) : Prop := ∃ a t, m s = some (a, t) ∧ Q a t

namespace Ends
open Prog
variable {σ α β : Type} {s : σ} {Q : β → σ → Prop}

theorem pure {b : β} (h : Q b s) : Ends (Pure.pure b) s Q := ⟨b, s, rfl, h⟩

theorem bind {m : Prog σ α} {f : α → Prog σ β} {P : α → σ → Prop} (hm : Ends m s P)
    (hf : ∀ a t, P a t → Ends (f a) t Q) : Ends (m >>= f) s Q := by
  obtain ⟨a, t, h, hP⟩ := hm
  obtain ⟨b, u, h', hQ⟩ := hf a t hP
  exact ⟨b, u, (bind_of_some h).trans h', hQ⟩

theorem then_read {f : σ → α} {k : α → Prog σ β} (h : Ends (k (f s)) s Q) : Ends (read f >>= k) s Q := h

theorem then_update {f : σ → σ} {k : Unit → Prog σ β} (h : Ends (k ()) (f s) Q) : Ends (Prog.update f >>= k) s Q := h

theorem update {f : σ → σ} {Q : Unit → σ → Prop} (h : Q () (f s)) : Ends (Prog.update f) s Q := ⟨(), f s, rfl, h⟩

theorem then_deref {f : σ → Option α} {a : α} {k : α → Prog σ β} (hf : f s = some a) (h : Ends (k a) s Q) :
    Ends (deref f >>= k) s Q := by
  obtain ⟨b, u, hk, hQ⟩ := h
  exact ⟨b, u, (bind_of_some (deref_of_some hf)).trans hk, hQ⟩

/-- the first step is known -/
theorem then_some {m : Prog σ α} {a : α} {t : σ} {k : α → Prog σ β} (hm : m s = some (a, t)) (h : Ends (k a) t Q) :
    Ends (m >>= k) s Q := by
  obtain ⟨b, u, hk, hQ⟩ := h
  exact ⟨b, u, (bind_of_some hm).trans hk, hQ⟩

theorem mono {m : Prog σ β} {P : β → σ → Prop} (h : Ends m s P) (hPQ : ∀ b t, P b t → Q b t) : Ends m s Q := by
  obtain ⟨b, t, hm, hP⟩ := h
  exact ⟨b, t, hm, hPQ b t hP⟩

end Ends

/-- whatever has been held before is held, and the blocks -/
def Owns (s t : Ledger) (blocks : Multiset Nat) : Prop :=
  ∀ start received held, Ledger.Holds start s received held → Ledger.Holds start t received (held + blocks)

namespace Owns
variable {s t u : Ledger} {a b : Multiset Nat}

theorem refl (s : Ledger) : Owns s s 0 := fun _ _ _ h => by rwa [add_zero]

theorem trans (hst : Owns s t a) (htu : Owns t u b) : Owns s u (a + b) := fun start received held h => by
  rw [← add_assoc]
  exact htu start received (held + a) (hst start received held h)

theorem create (s : Ledger) (count : Nat) :
    Owns s { s with next := s.next + count } (Ledger.block s.next count) := fun _ _ _ h => h.create count

theorem release (h : Owns s t (a + b)) : Owns s { t with released := t.released + b } a :=
  fun start received held hs => by
    have ht := h start received held hs
    rw [← add_assoc] at ht
    exact ht.release

theorem release_all (h : Owns s t a) : Owns s { t with released := t.released + a } 0 := by
  refine release ?_
  rwa [zero_add]

end Owns

end Stateful
