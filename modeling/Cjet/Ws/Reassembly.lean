import Cjet.Ws.Inflation
import Mathlib.Tactic.IntervalCases

/-!
# Fragments of a compressed message

* `Collected`         a block with its size and the bytes of the fragments so far;
* `reassemble_first`, `reassemble_more`   what a fragment does to it;
* `Fits`              the lengths of fragments for which doubling the block once is enough;
* `reassembled_iff`   these are the messages that are handed on as they are.
-/

set_option linter.unusedVariables false

namespace Cjet
open Stateful

namespace Compression

/-! ## the size of a block -/

theorem bytesInt_intBytes (num : UInt32) : bytesInt (intBytes num) = num := by
  unfold intBytes bytesInt byteOf shifted
  dsimp only
  apply UInt32.toBitVec_inj.mp
  simp only [UInt32.toBitVec_or, UInt32.toBitVec_and, UInt32.toBitVec_shiftLeft, UInt8.toBitVec_toUInt32,
    UInt32.toBitVec_toUInt8, UInt32.toBitVec_shiftRight]
  generalize num.toBitVec = b
  apply BitVec.eq_of_getLsbD_eq
  intro i hi
  interval_cases i <;> simp

theorem length_intBytes (num : UInt32) : (intBytes num).length = 4 := rfl

section
variable {Z : Type} {s : Decompressor Z} {size : Nat} {bytes msg : List UInt8} {heap : Heap}

/-- The block begins with its size; the bytes are behind it, and the rest is free. -/
structure Collected (s : Decompressor Z) (size : Nat) (bytes : List UInt8) : Prop where
  block : ∃ block, s.block = some block ∧ block.length = size ∧
    block.take (4 + bytes.length) = intBytes (UInt32.ofNat size) ++ bytes
  size_lt : size < 4294967296
  fits : 4 + bytes.length ≤ size
  free : s.availIn.toNat = size - (4 + bytes.length)

theorem readIntFromArray_apply (h : Collected s size bytes) :
    readIntFromArray s = some (UInt32.ofNat size, s) := by
  obtain ⟨block, hblock, hlen, htake⟩ := h.block
  have hfits := h.fits
  have hfour : block.take 4 = intBytes (UInt32.ofNat size) := by
    have := congrArg (List.take 4) htake
    rwa [List.take_take, Nat.min_eq_left (Nat.le_add_right 4 _), List.take_left' (length_intBytes _)] at this
  have hload : Block.load block 0 4 = some (intBytes (UInt32.ofNat size)) := by
    rw [Block.load_of_le (by omega), List.drop_zero, hfour]
  unfold readIntFromArray
  rw [Prog.bind_of_some (deref_block hblock hload), bytesInt_intBytes]
  rfl

theorem writeIntToArray_apply {num : UInt32} {block block' : List UInt8} (hblock : s.block = some block)
    (h : Block.store block 0 (intBytes num) = some block') :
    writeIntToArray num s = some ((), { s with block := some block' }) := by
  unfold writeIntToArray
  rw [Prog.bind_of_some (deref_block hblock h)]
  rfl

/-! ## a fragment -/

/-- a block for the first fragment -/
theorem startBlock_apply (hheap : ∀ n, (heap.block n).isSome) {length : Nat} (h : length * 3 + 4 < 4294967296)
    (s : Decompressor Z) :
    ∃ t, startBlock heap length s = some (true, t) ∧ Collected t (length * 3 + 4) [] ∧ t.handed = s.handed := by
  have hsize := toNat_ofNat h
  obtain ⟨block, hblock⟩ := Option.isSome_iff_exists.mp (hheap (UInt32.ofNat (length * 3 + 4)).toNat)
  have hlen := heap.length_block _ _ hblock
  rw [hsize] at hlen
  obtain ⟨block', hstore⟩ : ∃ block', Block.store block 0 (intBytes (UInt32.ofNat (length * 3 + 4))) = some block' :=
    ⟨_, Block.store_of_le (by rw [length_intBytes]; omega)⟩
  refine ⟨{ s with block := some block', nextIn := 0, availIn := UInt32.ofNat (length * 3 + 4) - 4 }, ?_, ?_, rfl⟩
  · unfold startBlock
    rw [hblock]
    dsimp only
    rw [Prog.bind_of_some (Prog.update_apply _ s), Prog.bind_of_some (writeIntToArray_apply rfl hstore)]
    rfl
  · refine ⟨⟨block', rfl, (Block.length_of_store hstore).trans hlen, ?_⟩, h, Nat.le_add_left 4 _, ?_⟩
    · rw [List.append_nil]
      have := Block.take_store hstore
      rwa [List.take_zero, List.nil_append, Nat.zero_add] at this
    · show (UInt32.ofNat (length * 3 + 4) - 4).toNat = _
      rw [UInt32.toNat_sub_of_le _ _ (by rw [UInt32.le_iff_toNat_le, hsize]; exact Nat.le_add_left 4 _), hsize]
      rfl

/-- twice as much room -/
theorem growBlock_apply (hheap : ∀ n, (heap.block n).isSome) (h : Collected s size bytes)
    (hsize : 2 * size < 4294967296) :
    ∃ t, growBlock heap s = some (true, t) ∧ Collected t (2 * size) bytes ∧ t.handed = s.handed := by
  obtain ⟨block, hblock, hlen, htake⟩ := h.block
  have hfits := h.fits
  have hfree := h.free
  have hnext : UInt32.ofNat size * 2 = UInt32.ofNat (2 * size) := by
    apply UInt32.toNat_inj.mp
    rw [UInt32.toNat_mul, toNat_ofNat h.size_lt, toNat_ofNat hsize]
    show size * 2 % 4294967296 = 2 * size
    omega
  obtain ⟨fresh, hfresh⟩ := Option.isSome_iff_exists.mp (hheap (UInt32.ofNat (2 * size)).toNat)
  have hfreshlen := heap.length_block _ _ hfresh
  rw [toNat_ofNat hsize] at hfreshlen
  have hresized : (Block.resize block fresh).length = 2 * size := Block.length_resize.trans hfreshlen
  obtain ⟨block', hstore⟩ : ∃ block', Block.store (Block.resize block fresh) 0 (intBytes (UInt32.ofNat (2 * size)))
      = some block' := ⟨_, Block.store_of_le (by rw [length_intBytes]; omega)⟩
  have hkept : (Block.resize block fresh).take ((intBytes (UInt32.ofNat (2 * size))).length + bytes.length)
      = intBytes (UInt32.ofNat size) ++ bytes := by
    rw [length_intBytes, Block.take_resize (by omega) (by omega), htake]
  refine ⟨{ s with block := some block', availIn := s.availIn + UInt32.ofNat (2 * size) / 2 }, ?_, ?_, rfl⟩
  · unfold growBlock
    rw [Prog.bind_of_some (readIntFromArray_apply h), hnext, hfresh]
    dsimp only
    rw [Prog.bind_of_some (Prog.update_apply _ s),
      Prog.bind_of_some (writeIntToArray_apply (by rw [hblock]; rfl) hstore)]
    rfl
  · refine ⟨⟨block', rfl, (Block.length_of_store hstore).trans hresized, ?_⟩, hsize, by omega, ?_⟩
    · exact Block.take_store_front hkept rfl hstore
    · show (s.availIn + UInt32.ofNat (2 * size) / 2).toNat = _
      rw [UInt32.toNat_add, UInt32.toNat_div, toNat_ofNat hsize, hfree]
      show (size - (4 + bytes.length) + 2 * size / 2) % 4294967296 = _
      omega

/-- the bytes that are used, as the code computes them -/
theorem Collected.offset (h : Collected s size bytes) : (UInt32.ofNat size - s.availIn).toNat = 4 + bytes.length := by
  have hfits := h.fits
  rw [UInt32.toNat_sub_of_le _ _ (by rw [UInt32.le_iff_toNat_le, toNat_ofNat h.size_lt, h.free]; omega),
    toNat_ofNat h.size_lt, h.free]
  omega

/-- a fragment behind the others, where there is room for it -/
theorem appendFragment_apply (h : Collected s size bytes) (hmsg : 4 + bytes.length + msg.length ≤ size) :
    ∃ t, appendFragment msg s = some ((), t) ∧ Collected t size (bytes ++ msg) ∧ t.handed = s.handed := by
  obtain ⟨block, hblock, hlen, htake⟩ := h.block
  have hoffset := h.offset
  obtain ⟨block', hstore⟩ : ∃ block', Block.store block (4 + bytes.length) msg = some block' :=
    ⟨_, Block.store_of_le (by omega)⟩
  refine ⟨{ s with block := some block', availIn := s.availIn - UInt32.ofNat msg.length }, ?_, ?_, rfl⟩
  · unfold appendFragment
    rw [Prog.bind_of_some (readIntFromArray_apply h), Prog.bind_of_some (Prog.read_apply _ s), hoffset,
      Prog.bind_of_some (deref_block hblock hstore)]
    rfl
  · have hlt := h.size_lt
    refine ⟨⟨block', rfl, (Block.length_of_store hstore).trans hlen, ?_⟩, hlt, ?_, ?_⟩
    · rw [List.length_append, ← Nat.add_assoc, Block.take_store hstore, htake, List.append_assoc]
    · rw [List.length_append]
      omega
    · show (s.availIn - UInt32.ofNat msg.length).toNat = _
      have hn : (UInt32.ofNat msg.length).toNat = msg.length := toNat_ofNat (by omega)
      rw [UInt32.toNat_sub_of_le _ _ (by rw [UInt32.le_iff_toNat_le, hn, h.free]; omega), hn, h.free,
        List.length_append]
      omega

/-- without room for it the copy goes beyond the end of the block -/
theorem appendFragment_none (h : Collected s size bytes) (hmsg : size < 4 + bytes.length + msg.length) :
    appendFragment msg s = none := by
  obtain ⟨block, hblock, hlen, htake⟩ := h.block
  have hoffset := h.offset
  have hcopy : (fun b => Block.store b (4 + bytes.length) msg) block = none := Block.store_none (by omega)
  unfold appendFragment
  rw [Prog.bind_of_some (readIntFromArray_apply h), Prog.bind_of_some (Prog.read_apply _ s), hoffset,
    Prog.bind_none (deref_block_none hblock hcopy)]

/-- the size of the block for a fragment behind `used` bytes: it is doubled if no more than four bytes would be free -/
def room (size used length : Nat) : Nat := if size ≤ used + length + 4 then 2 * size else size

theorem reassemble_empty (heap : Heap) (s : Decompressor Z) : reassemble heap [] s = some (true, s) := rfl

variable (msg) in
/-- what is left of `reassemble` where there is a block -/
theorem reassemble_collected (hheap : ∀ n, (heap.block n).isSome) (h : Collected s size bytes)
    (hroom : room size (4 + bytes.length) msg.length < 4294967296) :
    ∃ t, ((do
        let availIn ← Prog.read fun s : Decompressor Z => s.availIn
        let grown ← if availIn.toNat ≤ msg.length + 4 then growBlock heap else pure true
        if !grown then return false
        else
          appendFragment msg
          return true : Prog (Decompressor Z) Bool) s = (do
            appendFragment msg
            return true : Prog (Decompressor Z) Bool) t) ∧
      Collected t (room size (4 + bytes.length) msg.length) bytes ∧ t.handed = s.handed := by
  have hfits := h.fits
  have hcond : s.availIn.toNat ≤ msg.length + 4 ↔ size ≤ 4 + bytes.length + msg.length + 4 := by
    rw [h.free]
    omega
  rw [Prog.bind_of_some (Prog.read_apply _ s)]
  unfold room at hroom ⊢
  by_cases hgrow : size ≤ 4 + bytes.length + msg.length + 4
  · rw [if_pos hgrow] at hroom ⊢
    obtain ⟨t, ht, hcollected, hhanded⟩ := growBlock_apply hheap h hroom
    refine ⟨t, ?_, hcollected, hhanded⟩
    rw [if_pos (hcond.mpr hgrow), Prog.bind_of_some ht]
    rfl
  · rw [if_neg hgrow] at hroom ⊢
    refine ⟨s, ?_, h, rfl⟩
    rw [if_neg (fun hle => hgrow (hcond.mp hle)), Prog.bind_of_some (Prog.pure_apply true s)]
    rfl

theorem availIn_eq_zero (h : Collected s size bytes) : s.availIn = 0 ↔ size = 4 + bytes.length := by
  have hfits := h.fits
  rw [← UInt32.toNat_inj, h.free]
  show size - (4 + bytes.length) = 0 ↔ _
  omega

/-- A fragment behind others, while there is some space left: the block has become large enough, or the copy goes beyond
its end. -/
theorem reassemble_more (hheap : ∀ n, (heap.block n).isSome) (h : Collected s size bytes) (hne : msg.length ≠ 0)
    (hleft : 4 + bytes.length < size) (hroom : room size (4 + bytes.length) msg.length < 4294967296) :
    if 4 + bytes.length + msg.length ≤ room size (4 + bytes.length) msg.length then
      ∃ t, reassemble heap msg s = some (true, t) ∧
        Collected t (room size (4 + bytes.length) msg.length) (bytes ++ msg) ∧ t.handed = s.handed
    else reassemble heap msg s = none := by
  obtain ⟨t, ht, hcollected, hhanded⟩ := reassemble_collected msg hheap h hroom
  have hstarted : s.availIn ≠ 0 := fun hzero => by
    rw [availIn_eq_zero h] at hzero
    omega
  have hrun : reassemble heap msg s = (do
      appendFragment msg
      return true : Prog (Decompressor Z) Bool) t := by
    rw [← ht]
    unfold reassemble
    rw [if_neg hne, Prog.bind_of_some (Prog.read_apply _ s), if_neg hstarted,
      Prog.bind_of_some (Prog.pure_apply true s)]
    rfl
  split
  · rename_i hfits
    obtain ⟨u, hu, hcollected', hhanded'⟩ := appendFragment_apply hcollected hfits
    refine ⟨u, ?_, hcollected', hhanded'.trans hhanded⟩
    rw [hrun, Prog.bind_of_some hu]
    rfl
  · rename_i hfits
    rw [hrun, Prog.bind_none (appendFragment_none hcollected (by omega))]

/-- The first fragment fits. -/
theorem reassemble_first (hheap : ∀ n, (heap.block n).isSome) (hzero : s.availIn = 0) (hne : msg.length ≠ 0)
    (hsize : msg.length * 3 + 4 < 4294967296) :
    ∃ t, reassemble heap msg s = some (true, t) ∧ Collected t (room (msg.length * 3 + 4) 4 msg.length) msg ∧
      t.handed = s.handed := by
  obtain ⟨t, ht, hcollected, hhanded⟩ := startBlock_apply hheap hsize s
  have hroom : room (msg.length * 3 + 4) (4 + ([] : List UInt8).length) msg.length < 4294967296 ∧
      4 + ([] : List UInt8).length + msg.length
        ≤ room (msg.length * 3 + 4) (4 + ([] : List UInt8).length) msg.length := by
    rw [List.length_nil]
    unfold room
    split <;> omega
  obtain ⟨u, hu, hcollected', hhanded'⟩ := reassemble_collected msg hheap hcollected hroom.1
  obtain ⟨v, hv, hcollected'', hhanded''⟩ := appendFragment_apply hcollected' hroom.2
  refine ⟨v, ?_, hcollected'', hhanded''.trans (hhanded'.trans hhanded)⟩
  unfold reassemble
  rw [if_neg hne, Prog.bind_of_some (Prog.read_apply _ s), if_pos hzero, Prog.bind_of_some ht]
  refine Eq.trans hu ?_
  rw [Prog.bind_of_some hv]
  rfl

end

/-! ## all of the fragments -/

/-- the fragments, one after the other -/
def collect {Z : Type} (heap : Heap) : List (List UInt8) → Prog (Decompressor Z) Bool
  | [] => pure true
  | msg :: rest => do
    if !(← reassemble heap msg) then return false
    else collect heap rest

section
variable {Z : Type} {s t : Decompressor Z} {size : Nat} {bytes msg : List UInt8} {heap : Heap}
  {rest fragments : List (List UInt8)}

theorem collect_cons_of_true (h : reassemble heap msg s = some (true, t)) :
    collect heap (msg :: rest) s = collect heap rest t := by
  rw [collect, Prog.bind_of_some h]
  rfl

theorem collect_cons_of_none (h : reassemble heap msg s = none) : collect heap (msg :: rest) s = none := by
  rw [collect, Prog.bind_none h]

/-- Fragments with these lengths fit behind `used` bytes of a block: there is some space left when they come, and the
block, doubled at most once, is large enough. -/
def FitsBehind : (size used : Nat) → List Nat → Prop
  | _, _, [] => True
  | size, used, 0 :: rest => FitsBehind size used rest
  | size, used, (n + 1) :: rest =>
    used < size ∧ room size used (n + 1) < 4294967296 ∧ used + (n + 1) ≤ room size used (n + 1) ∧
      FitsBehind (room size used (n + 1)) (used + (n + 1)) rest

/-- There is a fragment that is not empty; it gets a block three times as large, and the others fit behind it. -/
def Fits : List Nat → Prop
  | [] => False
  | 0 :: rest => Fits rest
  | (n + 1) :: rest =>
    (n + 1) * 3 + 4 < 4294967296 ∧ FitsBehind (room ((n + 1) * 3 + 4) 4 (n + 1)) (4 + (n + 1)) rest

theorem fitsBehind_of_ne {used n : Nat} {lengths : List Nat} (h : n ≠ 0) :
    FitsBehind size used (n :: lengths) ↔
      used < size ∧ room size used n < 4294967296 ∧ used + n ≤ room size used n ∧
        FitsBehind (room size used n) (used + n) lengths := by
  obtain ⟨m, rfl⟩ := Nat.exists_eq_succ_of_ne_zero h
  exact Iff.rfl

theorem fits_of_ne {n : Nat} {lengths : List Nat} (h : n ≠ 0) :
    Fits (n :: lengths) ↔ n * 3 + 4 < 4294967296 ∧ FitsBehind (room (n * 3 + 4) 4 n) (4 + n) lengths := by
  obtain ⟨m, rfl⟩ := Nat.exists_eq_succ_of_ne_zero h
  exact Iff.rfl

/-- Fragments that fit are all copied. -/
theorem collect_behind (hheap : ∀ n, (heap.block n).isSome) (h : Collected s size bytes)
    (hfits : FitsBehind size (4 + bytes.length) (rest.map List.length)) :
    ∃ t size', collect heap rest s = some (true, t) ∧ Collected t size' (bytes ++ rest.flatten) ∧
      t.handed = s.handed := by
  induction rest generalizing s size bytes with
  | nil =>
    refine ⟨s, size, rfl, ?_, rfl⟩
    rw [List.flatten_nil, List.append_nil]
    exact h
  | cons msg rest ih =>
    rw [List.map_cons] at hfits
    by_cases hempty : msg.length = 0
    · obtain rfl := List.eq_nil_of_length_eq_zero hempty
      obtain ⟨t, size', ht, hcollected, hhanded⟩ := ih h hfits
      refine ⟨t, size', ?_, hcollected, hhanded⟩
      rw [collect_cons_of_true (reassemble_empty heap s), ht]
    · obtain ⟨hleft, hroom, hlarge, hrest⟩ := (fitsBehind_of_ne hempty).mp hfits
      have hmore := reassemble_more hheap h hempty hleft hroom
      rw [if_pos hlarge] at hmore
      obtain ⟨t, ht, hcollected, hhanded⟩ := hmore
      rw [Nat.add_assoc, ← List.length_append] at hrest
      obtain ⟨u, size', hu, hcollected', hhanded'⟩ := ih hcollected hrest
      refine ⟨u, size', ?_, ?_, hhanded'.trans hhanded⟩
      · rw [collect_cons_of_true ht, hu]
      · rw [List.flatten_cons, ← List.append_assoc]
        exact hcollected'

theorem collect_fits (hheap : ∀ n, (heap.block n).isSome) (hzero : s.availIn = 0)
    (hfits : Fits (fragments.map List.length)) :
    ∃ t size', collect heap fragments s = some (true, t) ∧ Collected t size' fragments.flatten ∧
      t.handed = s.handed := by
  induction fragments with
  | nil => exact hfits.elim
  | cons msg rest ih =>
    rw [List.map_cons] at hfits
    by_cases hempty : msg.length = 0
    · obtain rfl := List.eq_nil_of_length_eq_zero hempty
      obtain ⟨t, size', ht, hcollected, hhanded⟩ := ih hfits
      refine ⟨t, size', ?_, hcollected, hhanded⟩
      rw [collect_cons_of_true (reassemble_empty heap s), ht]
    · obtain ⟨hsize, hrest⟩ := (fits_of_ne hempty).mp hfits
      obtain ⟨t, ht, hcollected, hhanded⟩ := reassemble_first hheap hzero hempty hsize
      obtain ⟨u, size', hu, hcollected', hhanded'⟩ := collect_behind hheap hcollected hrest
      exact ⟨u, size', (collect_cons_of_true ht).trans hu, hcollected', hhanded'.trans hhanded⟩

/-- What is collected is never more than the fragments; it is less if they do not fit. -/
theorem collect_bounded (hheap : ∀ n, (heap.block n).isSome) (h : Collected s size bytes) (hbytes : 0 < bytes.length)
    (hsmall : 3 * (bytes.length + rest.flatten.length) + 4 < 4294967296) {ok : Bool}
    (hrun : collect heap rest s = some (ok, t)) :
    ok = true ∧ ∃ size' bytes', Collected t size' bytes' ∧ t.handed = s.handed ∧
      bytes'.length ≤ bytes.length + rest.flatten.length ∧
      (bytes'.length = bytes.length + rest.flatten.length →
        FitsBehind size (4 + bytes.length) (rest.map List.length)) := by
  induction rest generalizing s size bytes with
  | nil =>
    cases hrun
    exact ⟨rfl, size, bytes, h, rfl, Nat.le_add_right _ _, fun _ => trivial⟩
  | cons msg rest ih =>
    rw [List.flatten_cons, List.length_append] at hsmall ⊢
    rw [List.map_cons]
    by_cases hempty : msg.length = 0
    · obtain rfl := List.eq_nil_of_length_eq_zero hempty
      rw [collect_cons_of_true (reassemble_empty heap s)] at hrun
      rw [List.length_nil, Nat.zero_add] at hsmall ⊢
      exact ih h hbytes hsmall hrun
    · have hfits := h.fits
      have hlt := h.size_lt
      by_cases hleft : 4 + bytes.length < size
      · have hroom : room size (4 + bytes.length) msg.length < 4294967296 := by
          unfold room
          split <;> omega
        have hmore := reassemble_more hheap h hempty hleft hroom
        by_cases hlarge : 4 + bytes.length + msg.length ≤ room size (4 + bytes.length) msg.length
        · rw [if_pos hlarge] at hmore
          obtain ⟨u, hu, hcollected, hhanded⟩ := hmore
          rw [collect_cons_of_true hu] at hrun
          obtain ⟨hok, size', bytes', ht, hhanded', hle, hfull⟩ := ih hcollected (by rw [List.length_append]; omega)
            (by rw [List.length_append]; omega) hrun
          rw [List.length_append, Nat.add_assoc] at hle hfull
          rw [← Nat.add_assoc] at hfull
          exact ⟨hok, size', bytes', ht, hhanded'.trans hhanded, hle, fun heq =>
            (fitsBehind_of_ne hempty).mpr ⟨hleft, hroom, hlarge, by
              rw [Nat.add_assoc 4]
              exact hfull (by omega)⟩⟩
        · rw [if_neg hlarge] at hmore
          rw [collect_cons_of_none hmore] at hrun
          cases hrun
      · -- a full block is left behind, with all that is in it
        have hzero : s.availIn = 0 := (availIn_eq_zero h).mpr (by omega)
        obtain ⟨u, hu, hcollected, hhanded⟩ := reassemble_first hheap hzero hempty (by omega)
        rw [collect_cons_of_true hu] at hrun
        obtain ⟨hok, size', bytes', ht, hhanded', hle, -⟩ := ih hcollected (by omega) (by omega) hrun
        exact ⟨hok, size', bytes', ht, hhanded'.trans hhanded, by omega, fun heq => by omega⟩

/-- Before there is a block. -/
theorem collect_start (hheap : ∀ n, (heap.block n).isSome) (hzero : s.availIn = 0) (hnone : s.block = none)
    (hsmall : 3 * fragments.flatten.length + 4 < 4294967296) {ok : Bool}
    (hrun : collect heap fragments s = some (ok, t)) :
    ok = true ∧ (t.block = none ∨ ∃ size bytes, Collected t size bytes ∧ t.handed = s.handed ∧
      (bytes.length = fragments.flatten.length → Fits (fragments.map List.length))) := by
  induction fragments with
  | nil =>
    cases hrun
    exact ⟨rfl, Or.inl hnone⟩
  | cons msg rest ih =>
    rw [List.flatten_cons, List.length_append] at hsmall ⊢
    rw [List.map_cons]
    by_cases hempty : msg.length = 0
    · obtain rfl := List.eq_nil_of_length_eq_zero hempty
      rw [collect_cons_of_true (reassemble_empty heap s)] at hrun
      rw [List.length_nil, Nat.zero_add] at hsmall ⊢
      exact ih hsmall hrun
    · have hsize : msg.length * 3 + 4 < 4294967296 := by omega
      obtain ⟨u, hu, hcollected, hhanded⟩ := reassemble_first hheap hzero hempty hsize
      rw [collect_cons_of_true hu] at hrun
      obtain ⟨hok, size', bytes', ht, hhanded', -, hfull⟩ := collect_bounded hheap hcollected (by omega) hsmall hrun
      exact ⟨hok, Or.inr ⟨size', bytes', ht, hhanded'.trans hhanded, fun heq =>
        (fits_of_ne hempty).mpr ⟨hsize, hfull heq⟩⟩⟩

end

/-! ## a message -/

section
variable {lib : Zlib} {heap : Heap} {finish : Bool} {fuel : Nat} {s t : Decompressor lib.Stream} {size : Nat}
  {bytes : List UInt8} {fragments : List (List UInt8)}

/-- The fragments are collected and handed on. -/
theorem messageReceived_eq (h : fragments ≠ []) (s : Decompressor lib.Stream) :
    messageReceived lib heap finish fuel fragments s = (do
      if !(← collect heap fragments) then return .error
      else handOver lib heap finish fuel : Prog (Decompressor lib.Stream) Received) s := by
  induction fragments generalizing s with
  | nil => exact absurd rfl h
  | cons msg rest ih =>
    cases hfirst : reassemble heap msg s with
    | none =>
      rw [Prog.bind_none (collect_cons_of_none hfirst)]
      cases rest with
      | nil => exact Prog.bind_none hfirst
      | cons _ _ => exact Prog.bind_none (Prog.bind_none hfirst)
    | some result =>
      obtain ⟨ok, t⟩ := result
      have hframe : ∀ last, frameReceived lib heap finish fuel msg last s
          = (if !ok then pure .error else if !last then pure .more else handOver lib heap finish fuel :
              Prog (Decompressor lib.Stream) Received) t := by
        intro last
        unfold frameReceived
        rw [Prog.bind_of_some hfirst]
      cases ok with
      | false =>
        have hcollect : collect heap (msg :: rest) s = some (false, t) := by
          rw [collect, Prog.bind_of_some hfirst]
          rfl
        rw [Prog.bind_of_some hcollect]
        cases rest with
        | nil => exact hframe true
        | cons _ _ => exact Prog.bind_of_some (hframe false)
      | true =>
        rw [Prog.bind_apply, collect_cons_of_true hfirst]
        cases rest with
        | nil => exact hframe true
        | cons next rest =>
          refine Eq.trans ?_ (ih (List.cons_ne_nil next rest) t)
          exact Prog.bind_of_some (hframe false)

variable (lib heap finish fuel) in
/-- What is handed on is what has been collected. -/
theorem handOver_apply (h : Collected s size bytes) :
    ∃ u, handOver lib heap finish fuel s = privateDecompress lib heap finish fuel bytes u ∧ u.handed = s.handed := by
  obtain ⟨block, hblock, hlen, htake⟩ := h.block
  have hfits := h.fits
  have hsum : (UInt32.ofNat size - s.availIn - 4).toNat = bytes.length := by
    rw [UInt32.toNat_sub_of_le _ _ (by rw [UInt32.le_iff_toNat_le, h.offset]; exact Nat.le_add_right 4 _), h.offset]
    exact Nat.add_sub_cancel_left 4 _
  have hload : Block.load block 4 bytes.length = some bytes := by
    have hdrop := congrArg (List.drop 4) htake
    rw [List.drop_take, Nat.add_sub_cancel_left, List.drop_left' (length_intBytes _)] at hdrop
    rw [Block.load_of_le (by omega), hdrop]
  obtain ⟨block', hstore⟩ : ∃ block', Block.store block 0 bytes = some block' := ⟨_, Block.store_of_le (by omega)⟩
  refine ⟨{ s with block := some block' }, ?_, rfl⟩
  unfold handOver
  rw [Prog.bind_of_some (readIntFromArray_apply h), Prog.bind_of_some (Prog.read_apply _ s), hsum,
    Prog.bind_of_some (deref_block hblock hload), Prog.bind_of_some (deref_block hblock hstore),
    Prog.bind_of_some (Prog.update_apply _ s)]

variable (lib heap finish fuel) in
theorem handOver_none (h : s.block = none) : handOver lib heap finish fuel s = none :=
  Prog.bind_none (Prog.bind_none (Prog.deref_of_none (by rw [h, Option.bind_none])))

section
variable (lib heap finish fuel)

/-- Every copy is inside of the block, the fragments are handed on, one behind the other, and where the message can be
unpacked, the stream is ready for the next one. -/
def Reassembled (fragments : List (List UInt8)) (s : Decompressor lib.Stream) : Prop :=
  ∃ r t, messageReceived lib heap finish fuel fragments s = some (r, t) ∧ t.handed = s.handed ++ [fragments.flatten] ∧
    ∀ text, r = .message text → t.availIn = 0 ∧ t.block = none

end

theorem reassembled_of_fits (hheap : ∀ n, (heap.block n).isSome) (hzero : s.availIn = 0)
    (hfits : Fits (fragments.map List.length)) : Reassembled lib heap finish fuel fragments s := by
  obtain ⟨t, size, ht, hcollected, hhanded⟩ := collect_fits hheap hzero hfits
  obtain ⟨u, hu, hhanded'⟩ := handOver_apply lib heap finish fuel hcollected
  obtain ⟨r, v, hv, hhanded'', hready⟩ := privateDecompress_sound finish hheap fuel fragments.flatten u
  have hne : fragments ≠ [] := by
    rintro rfl
    exact hfits
  refine ⟨r, v, ?_, ?_, hready⟩
  · rw [messageReceived_eq hne, Prog.bind_of_some ht]
    exact hu.trans hv
  · rw [hhanded'', hhanded', hhanded]

theorem fits_of_reassembled (hheap : ∀ n, (heap.block n).isSome) (hzero : s.availIn = 0) (hnone : s.block = none)
    (hsmall : 3 * fragments.flatten.length + 4 < 4294967296) (h : Reassembled lib heap finish fuel fragments s) :
    Fits (fragments.map List.length) := by
  obtain ⟨r, t, hrun, hhanded, -⟩ := h
  have hne : fragments ≠ [] := by
    rintro rfl
    cases hrun
    exact absurd (List.self_eq_append_right.mp hhanded) (List.cons_ne_nil _ _)
  rw [messageReceived_eq hne] at hrun
  obtain ⟨ok, u, hu, hlast⟩ := Prog.bind_some hrun
  obtain ⟨rfl, hblock | ⟨size, bytes, hcollected, hsame, hfull⟩⟩ := collect_start hheap hzero hnone hsmall hu
  · have := hlast.symm.trans (handOver_none lib heap finish fuel hblock)
    cases this
  · obtain ⟨v, hv, hhanded'⟩ := handOver_apply lib heap finish fuel hcollected
    obtain ⟨r', w, hw, hhanded'', -⟩ := privateDecompress_sound finish hheap fuel bytes v
    have := hlast.symm.trans (hv.trans hw)
    cases this
    rw [hhanded'', hhanded', hsame] at hhanded
    refine hfull ?_
    rw [List.cons.inj (List.append_cancel_left hhanded) |>.1]

/-- Messages whose fragments fit are put together as they should be, and, as long as a block of three times their length
can be counted in 32 bits, no others. -/
theorem reassembled_iff (hheap : ∀ n, (heap.block n).isSome) (hzero : s.availIn = 0) (hnone : s.block = none) :
    (Fits (fragments.map List.length) → Reassembled lib heap finish fuel fragments s) ∧
      (3 * fragments.flatten.length + 4 < 4294967296 →
        (Reassembled lib heap finish fuel fragments s ↔ Fits (fragments.map List.length))) :=
  ⟨reassembled_of_fits hheap hzero, fun hsmall =>
    ⟨fits_of_reassembled hheap hzero hnone hsmall, reassembled_of_fits hheap hzero⟩⟩

end

theorem reassembled_iff_packedA : Reassembled smallZlib plenty false 1 [[0x4a, 0x04], [], [0x00]] unused :=
  (reassembled_iff plenty_block rfl rfl).1 ⟨by decide, by decide, by decide, by decide, trivial⟩

/-- A block of seven bytes, doubled once for a byte and once more for the 24 that follow. -/
theorem fragment_beyond_block :
    ¬Reassembled smallZlib plenty false 1 [[0x4a], List.replicate 24 0] unused := by
  intro h
  have hfits := fits_of_reassembled plenty_block rfl rfl (by decide) h
  exact absurd hfits.2.2.2.1 (by decide)

end Compression
end Cjet
