import Mathlib.Data.List.Basic

/-!
# Messages that are taken in block by block

* `overBlocks n f s l`   the state after the full blocks of `n` items in `l`;
* `overBlocks_append`    what is taken in first, and what is taken in after it.
-/

namespace Stateful

section
variable {σ α : Type} (n : Nat) (f : σ → List α → σ)

/-- block `i` of `l` -/
def blockAt (l : List α) (i : Nat) : List α := (l.drop (n * i)).take n

def overBlocks (s : σ) (l : List α) : σ := (List.range (l.length / n)).foldl (fun s i => f s (blockAt n l i)) s

variable {n f}

theorem blockAt_append_left {l m : List α} {i : Nat} (h : i < l.length / n) : blockAt n (l ++ m) i = blockAt n l i := by
  have hle : n * i + n ≤ l.length := by
    have := Nat.mul_le_of_le_div n (i + 1) l.length h
    rw [Nat.add_mul, Nat.one_mul, Nat.mul_comm] at this
    exact this
  unfold blockAt
  rw [List.drop_append_of_le_length (Nat.le_of_add_right_le hle), List.take_append_of_le_length]
  rw [List.length_drop]
  exact Nat.le_sub_of_add_le' hle

theorem blockAt_append_right {l m : List α} (h : n ∣ l.length) (i : Nat) :
    blockAt n (l ++ m) (l.length / n + i) = blockAt n m i := by
  unfold blockAt
  rw [Nat.mul_add, Nat.mul_div_cancel' h, ← List.drop_drop, List.drop_left]

/-- Where the first part ends with a block the second part is taken in from the state that the first one has left. -/
theorem overBlocks_append (hn : 0 < n) (s : σ) {l : List α} (h : n ∣ l.length) (m : List α) :
    overBlocks n f s (l ++ m) = overBlocks n f (overBlocks n f s l) m := by
  have hlength : (l ++ m).length / n = l.length / n + m.length / n := by
    obtain ⟨k, hk⟩ := h
    rw [List.length_append, hk, Nat.mul_add_div hn, Nat.mul_div_cancel_left k hn]
  have hleft : ∀ s, (List.range (l.length / n)).foldl (fun s i => f s (blockAt n (l ++ m) i)) s
      = (List.range (l.length / n)).foldl (fun s i => f s (blockAt n l i)) s := fun s => by
    apply List.foldl_ext
    intro s i hi
    rw [blockAt_append_left (List.mem_range.mp hi)]
  unfold overBlocks
  rw [hlength, List.range_add, List.foldl_append, hleft, List.foldl_map]
  apply List.foldl_ext
  intro s i hi
  rw [blockAt_append_right h]

theorem overBlocks_block (hn : 0 < n) (s : σ) {l : List α} (h : l.length = n) : overBlocks n f s l = f s l := by
  have hone : l.length / n = 1 := by rw [h, Nat.div_self hn]
  unfold overBlocks
  rw [hone]
  show f s (blockAt n l 0) = _
  unfold blockAt
  rw [Nat.mul_zero, List.drop_zero, List.take_of_length_le (Nat.le_of_eq h)]

end

end Stateful
