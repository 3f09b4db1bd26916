import Mathlib.Data.List.Basic

/-!
# Blocks of memory

A block is the list of what is stored in it.  What is outside of it can neither be read nor written.

* `load`, `store`      reading and writing places that follow each other;
* `resize`             a block of another size with the same contents;
* `take_store`         a block that is filled from its beginning;
* `take_store_front`   another front, the rest as it was.
-/

set_option linter.unusedVariables false

namespace Stateful.Block

section
variable {α : Type}

/-- what is stored in `length` places from `offset` on -/
def load (block : List α) (offset length : Nat) : Option (List α) :=
  if offset + length ≤ block.length then some ((block.drop offset).take length) else none

/-- the places from `offset` on are overwritten -/
def store (block : List α) (offset : Nat) (values : List α) : Option (List α) :=
  if offset + values.length ≤ block.length then
    some (block.take offset ++ values ++ block.drop (offset + values.length))
  else none

/-- a block as large as `fresh`, which is what is in the new places -/
def resize (block fresh : List α) : List α := block.take fresh.length ++ fresh.drop block.length

variable {block block' values fresh : List α} {offset length : Nat}

theorem load_of_le (h : offset + length ≤ block.length) :
    load block offset length = some ((block.drop offset).take length) := if_pos h

theorem length_of_load (h : load block offset length = some values) : values.length = length := by
  unfold load at h
  split at h
  · obtain rfl := Option.some.inj h
    rw [List.length_take, List.length_drop]
    omega
  · cases h

theorem store_of_le (h : offset + values.length ≤ block.length) :
    store block offset values = some (block.take offset ++ values ++ block.drop (offset + values.length)) := if_pos h

theorem store_none (h : block.length < offset + values.length) : store block offset values = none :=
  if_neg (Nat.not_le.mpr h)

theorem store_some (h : store block offset values = some block') :
    offset + values.length ≤ block.length ∧
      block' = block.take offset ++ values ++ block.drop (offset + values.length) := by
  unfold store at h
  split at h
  · exact ⟨‹_›, (Option.some.inj h).symm⟩
  · cases h

theorem length_of_store (h : store block offset values = some block') : block'.length = block.length := by
  obtain ⟨hle, rfl⟩ := store_some h
  rw [List.length_append, List.length_append, List.length_take, List.length_drop]
  omega

/-- What has been written in front, and what is written behind it. -/
theorem take_store (h : store block offset values = some block') :
    block'.take (offset + values.length) = block.take offset ++ values := by
  obtain ⟨hle, rfl⟩ := store_some h
  refine List.take_left' ?_
  rw [List.length_append, List.length_take, Nat.min_eq_left (by omega)]

/-- The front is written anew. -/
theorem take_store_front {front rest : List α} (hblock : block.take (values.length + rest.length) = front ++ rest)
    (hfront : front.length = values.length) (h : store block 0 values = some block') :
    block'.take (values.length + rest.length) = values ++ rest := by
  obtain ⟨hle, rfl⟩ := store_some h
  have hdrop : (block.drop values.length).take rest.length = rest := by
    have := congrArg (List.drop values.length) hblock
    rwa [List.drop_take, Nat.add_sub_cancel_left, ← hfront, List.drop_left, hfront] at this
  rw [List.take_zero, List.nil_append, Nat.zero_add, List.take_append, List.take_of_length_le (by omega),
    Nat.add_sub_cancel_left, hdrop]

theorem length_resize : (resize block fresh).length = fresh.length := by
  unfold resize
  rw [List.length_append, List.length_take, List.length_drop]
  omega

theorem take_resize {n : Nat} (hblock : n ≤ block.length) (hfresh : n ≤ fresh.length) :
    (resize block fresh).take n = block.take n := by
  unfold resize
  rw [List.take_append_of_le_length (by rw [List.length_take]; omega), List.take_take, Nat.min_eq_left hfresh]

end

end Stateful.Block
