import Mathlib.Algebra.Order.Group.Multiset

/-!
# Ledgers

Who allocates something has to release it, once.  A ledger counts what has been allocated and keeps what has been released;
`Holds` says what is still to be released.

* `Holds.refl`, `Holds.create`, `Holds.release`   the steps;
* `holds_iff`        what is held is determined by the ledger.
-/

set_option linter.unusedVariables false

namespace Stateful

/-- the next address, and the addresses that have been released, as often as they have been -/
structure Ledger where
  next : Nat
  released : Multiset Nat

namespace Ledger

/-- `count` addresses that follow each other -/
def block (start count : Nat) : Multiset Nat := ↑(List.range' start count)

/-- what has been allocated between two states -/
def created (s t : Ledger) : Multiset Nat := block s.next (t.next - s.next)

/-- What has been received in the first state or allocated since is released in the second one or held there, all of it
once. -/
structure Holds (s t : Ledger) (received held : Multiset Nat) : Prop where
  next_le : s.next ≤ t.next
  balance : t.released + held = s.released + (received + created s t)

theorem add_eq_zero {a b : Multiset Nat} : a + b = 0 ↔ a = 0 ∧ b = 0 := by
  rw [← Multiset.card_eq_zero, ← Multiset.card_eq_zero, ← Multiset.card_eq_zero, Multiset.card_add]
  exact Nat.add_eq_zero_iff

variable {s t : Ledger} {received held nodes : Multiset Nat}

theorem block_zero (start : Nat) : block start 0 = 0 := rfl

theorem block_add (start m n : Nat) : block start m + block (start + m) n = block start (m + n) := by
  unfold block
  rw [Multiset.coe_add, List.range'_append_1]

theorem card_block (start count : Nat) : (block start count).card = count := by
  unfold block
  rw [Multiset.coe_card, List.length_range']

theorem Holds.refl (s : Ledger) (received : Multiset Nat) : Holds s s received received where
  next_le := Nat.le_refl _
  balance := by
    unfold created
    rw [Nat.sub_self, block_zero, add_zero]

theorem Holds.create (h : Holds s t received held) (count : Nat) :
    Holds s { t with next := t.next + count } received (held + block t.next count) where
  next_le := Nat.le_trans h.next_le (Nat.le_add_right _ _)
  balance := by
    have hle := h.next_le
    have hcreated : created s { t with next := t.next + count } = created s t + block t.next count := by
      unfold created
      have hstart : t.next = s.next + (t.next - s.next) := by omega
      have hcount : t.next + count - s.next = t.next - s.next + count := by omega
      rw [show block t.next count = block (s.next + (t.next - s.next)) count from congrArg (block · count) hstart,
        block_add]
      exact congrArg (block s.next) hcount
    show t.released + (held + block t.next count) = _
    rw [hcreated, ← add_assoc, h.balance, add_assoc, add_assoc]

theorem Holds.release (h : Holds s t received (held + nodes)) :
    Holds s { t with released := t.released + nodes } received held where
  next_le := h.next_le
  balance := by
    show t.released + nodes + held = s.released + (received + created s t)
    rw [← h.balance, add_assoc, add_comm nodes held]

/-- What is held is determined by what has happened. -/
theorem holds_iff (h : Holds s t received held) (other : Multiset Nat) : Holds s t received other ↔ other = held := by
  constructor
  · intro h'
    exact add_left_cancel (h'.balance.trans h.balance.symm)
  · rintro rfl
    exact h

/-- What is neither returned nor released is lost. -/
theorem holds_lost_iff {lost : Multiset Nat} (h : Holds s t received (held + lost)) :
    Holds s t received held ↔ lost = 0 := by
  rw [holds_iff h]
  exact left_eq_add

end Ledger

end Stateful
