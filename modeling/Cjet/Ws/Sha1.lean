import Cjet.Lib.Blocks
import Cjet.Lib.Total

/-!
# SHA-1 (`sha1/sha1.c`)

A message is fed in portions of any size into a block of 64 bytes; whenever the block is full its digest is updated.

* `sha1Reset`, `sha1Input`, `sha1Result`   the functions;
* `sha1`                  the digest of a message as the standard defines it;
* `Hashing`, `Hashing.after`   what the calls mean: a message grows, and its digest is taken;
* `sha1_refinement`       every sequence of calls answers as that says, and no byte is stored outside of the block.
-/

set_option linter.unusedVariables false

namespace Cjet
open Stateful Prog

/-! ## the functions -/

/-- the return codes -/
abbrev ShaCode := Nat

def shaSuccess : ShaCode := 0
def shaStateError : ShaCode := 3

structure SHA1Context where
  intermediateHash : Vector UInt32 5
  lengthLow : UInt32
  lengthHigh : UInt32
  messageBlockIndex : Nat
  messageBlock : Vector UInt8 64
  computed : Bool
  corrupted : ShaCode

/-- `SHA1CircularShift` -/
def circularShift (bits word : UInt32) : UInt32 := (word <<< bits) ||| (word >>> (32 - bits))

def initialHash : Vector UInt32 5 := #v[0x67452301, 0xEFCDAB89, 0x98BADCFE, 0x10325476, 0xC3D2E1F0]

/-- `SHA1Reset` -/
def sha1Reset : Prog SHA1Context ShaCode := do
  update fun c =>
    { c with lengthLow := 0, lengthHigh := 0, messageBlockIndex := 0, intermediateHash := initialHash, computed := false,
             corrupted := 0 }
  return shaSuccess

/-- word `t` of a block, big-endian -/
def wordOf (block : List UInt8) (t : Nat) : UInt32 :=
  ((block.getD (t * 4) 0).toUInt32 <<< 24) ||| ((block.getD (t * 4 + 1) 0).toUInt32 <<< 16) |||
    ((block.getD (t * 4 + 2) 0).toUInt32 <<< 8) ||| (block.getD (t * 4 + 3) 0).toUInt32

/-- the word sequence `W`, in memory that holds anything before -/
def wordSequence (memory : Vector UInt32 80) (block : List UInt8) : Vector UInt32 80 :=
  let first := (List.range 16).foldl (fun W t => W.setIfInBounds t (wordOf block t)) memory
  (List.range' 16 64).foldl (fun W t => W.setIfInBounds t (circularShift 1
    (W.getD (t - 3) 0 ^^^ W.getD (t - 8) 0 ^^^ W.getD (t - 14) 0 ^^^ W.getD (t - 16) 0))) first

/-- the word buffers `A` to `E` -/
@[ext]
structure WordBuffers where
  A : UInt32
  B : UInt32
  C : UInt32
  D : UInt32
  E : UInt32

def WordBuffers.of (hash : Vector UInt32 5) : WordBuffers := ⟨hash[0], hash[1], hash[2], hash[3], hash[4]⟩

/-- `temp` is the new `A` -/
def WordBuffers.turn (x : WordBuffers) (f k w : UInt32) : WordBuffers :=
  ⟨circularShift 5 x.A + f + x.E + w + k, x.A, circularShift 30 x.B, x.C, x.D⟩

/-- one of the four loops: 20 turns from `start` on -/
def turns (f : UInt32 → UInt32 → UInt32 → UInt32) (k : UInt32) (start : Nat) (W : Vector UInt32 80) (x : WordBuffers) :
    WordBuffers :=
  (List.range' start 20).foldl (fun x t => x.turn (f x.B x.C x.D) k (W.getD t 0)) x

def choose (b c d : UInt32) : UInt32 := (b &&& c) ||| (~~~b &&& d)
def parity (b c d : UInt32) : UInt32 := b ^^^ c ^^^ d
def majority (b c d : UInt32) : UInt32 := (b &&& c) ||| (b &&& d) ||| (c &&& d)

def WordBuffers.addTo (x : WordBuffers) (hash : Vector UInt32 5) : Vector UInt32 5 :=
  #v[hash[0] + x.A, hash[1] + x.B, hash[2] + x.C, hash[3] + x.D, hash[4] + x.E]

section
variable (memory : Vector UInt32 80)

/-- `SHA1ProcessMessageBlock` -/
def sha1ProcessMessageBlock : Prog SHA1Context Unit :=
  update fun c =>
    let W := wordSequence memory c.messageBlock.toList
    let x := WordBuffers.of c.intermediateHash
    let x := turns choose 0x5A827999 0 W x
    let x := turns parity 0x6ED9EBA1 20 W x
    let x := turns majority 0x8F1BBCDC 40 W x
    let x := turns parity 0xCA62C1D6 60 W x
    { c with intermediateHash := x.addTo c.intermediateHash, messageBlockIndex := 0 }

/-- `context->Message_Block[context->Message_Block_Index++] = x` -/
def putByte (x : UInt8) : Prog SHA1Context Unit := do
  require fun c => decide (c.messageBlockIndex < 64)
  update fun c =>
    { c with messageBlock := c.messageBlock.setIfInBounds c.messageBlockIndex x
             messageBlockIndex := c.messageBlockIndex + 1 }

/-- `while (context->Message_Block_Index < limit)` a zero is put -/
def putZeros (limit : Nat) : Nat → Prog SHA1Context Unit
  | 0 => undefined
  | fuel + 1 => do
    let index ← read SHA1Context.messageBlockIndex
    if index < limit then
      putByte 0
      putZeros limit fuel
    else pure ()

/-- the message length as the last 8 octets -/
def putLength : Prog SHA1Context Unit :=
  update fun c =>
    { c with messageBlock := ((((((((c.messageBlock.setIfInBounds 56 (c.lengthHigh >>> 24).toUInt8).setIfInBounds 57
        (c.lengthHigh >>> 16).toUInt8).setIfInBounds 58 (c.lengthHigh >>> 8).toUInt8).setIfInBounds 59
        c.lengthHigh.toUInt8).setIfInBounds 60 (c.lengthLow >>> 24).toUInt8).setIfInBounds 61
        (c.lengthLow >>> 16).toUInt8).setIfInBounds 62 (c.lengthLow >>> 8).toUInt8).setIfInBounds 63
        c.lengthLow.toUInt8) }

/-- `SHA1PadMessage` -/
def sha1PadMessage : Prog SHA1Context Unit := do
  let index ← read SHA1Context.messageBlockIndex
  if index > 55 then
    putByte 0x80
    putZeros 64 65
    sha1ProcessMessageBlock memory
    putZeros 56 65
  else
    putByte 0x80
    putZeros 56 65
  putLength
  sha1ProcessMessageBlock memory

/-- the length of the message grows by a byte -/
def countByte : Prog SHA1Context Unit :=
  update fun c =>
    let low := c.lengthLow + 8
    if low = 0 then
      let high := c.lengthHigh + 1
      { c with lengthLow := low, lengthHigh := high, corrupted := if high = 0 then 1 else c.corrupted }
    else { c with lengthLow := low }

/-- a full block is hashed -/
def fullBlock : Prog SHA1Context Unit := do
  let index ← read SHA1Context.messageBlockIndex
  if index = 64 then sha1ProcessMessageBlock memory
  else pure ()

/-- the loop of `SHA1Input` -/
def inputLoop : List UInt8 → Prog SHA1Context Unit
  | [] => pure ()
  | x :: message => do
    let corrupted ← read SHA1Context.corrupted
    if corrupted ≠ 0 then pure ()
    else
      putByte (x &&& 0xFF)
      countByte
      fullBlock memory
      inputLoop message

/-- `SHA1Input` -/
def sha1Input (message : List UInt8) : Prog SHA1Context ShaCode := do
  if message.isEmpty then return shaSuccess
  else
    let computed ← read SHA1Context.computed
    if computed then
      update fun c => { c with corrupted := shaStateError }
      return shaStateError
    else
      let corrupted ← read SHA1Context.corrupted
      if corrupted ≠ 0 then return corrupted
      else
        inputLoop memory message
        return shaSuccess

/-- octet `i` of the digest -/
def digestOctet (hash : Vector UInt32 5) (i : Fin 20) : UInt8 :=
  (hash.get ⟨i.val >>> 2, by omega⟩ >>> (8 * (3 - (i.val &&& 3))).toUInt32).toUInt8

/-- the part of `SHA1Result` that computes the digest when it has not been computed before -/
def computeDigest : Prog SHA1Context Unit := do
  let computed ← read SHA1Context.computed
  if computed then pure ()
  else
    sha1PadMessage memory
    update fun c =>
      { c with messageBlock := Vector.replicate 64 0, lengthLow := 0, lengthHigh := 0, computed := true }

/-- `SHA1Result` -/
def sha1Result : Prog SHA1Context (ShaCode × Option (Vector UInt8 20)) := do
  let corrupted ← read SHA1Context.corrupted
  if corrupted ≠ 0 then return (corrupted, none)
  else
    computeDigest memory
    let hash ← read SHA1Context.intermediateHash
    return (shaSuccess, some (Vector.ofFn (digestOctet hash)))

end

/-! ## the standard -/

/-- `W(t)` -/
def scheduleWord (m : Nat → UInt32) (t : Nat) : UInt32 :=
  if h : t < 16 then m t
  else circularShift 1
    (scheduleWord m (t - 3) ^^^ scheduleWord m (t - 8) ^^^ scheduleWord m (t - 14) ^^^ scheduleWord m (t - 16))
termination_by t

/-- `f(t)` -/
def roundFunction (t : Nat) : UInt32 → UInt32 → UInt32 → UInt32 :=
  if t < 20 then choose else if t < 40 then parity else if t < 60 then majority else parity

/-- `K(t)` -/
def roundConstant (t : Nat) : UInt32 :=
  if t < 20 then 0x5A827999 else if t < 40 then 0x6ED9EBA1 else if t < 60 then 0x8F1BBCDC else 0xCA62C1D6

/-- the word buffers after `t` rounds -/
def rounds (m : Nat → UInt32) (x : WordBuffers) : Nat → WordBuffers
  | 0 => x
  | t + 1 =>
    let y := rounds m x t
    y.turn (roundFunction t y.B y.C y.D) (roundConstant t) (scheduleWord m t)

def compressBlock (hash : Vector UInt32 5) (block : List UInt8) : Vector UInt32 5 :=
  (rounds (wordOf block) (WordBuffers.of hash) 80).addTo hash

/-- a number of 64 bits, big-endian -/
def lengthOctets (n : Nat) : List UInt8 := (List.range 8).map fun i => UInt8.ofNat (n / 256 ^ (7 - i))

/-- the padding of a message of `n` bytes: as few zeros as make the last block full -/
def sha1Padding (n : Nat) : List UInt8 := 0x80 :: (List.replicate ((119 - n % 64) % 64) 0 ++ lengthOctets (8 * n))

/-- the hash over full blocks -/
def hashBlocks (l : List UInt8) : Vector UInt32 5 := overBlocks 64 compressBlock initialHash l

def sha1Digest (message : List UInt8) : Vector UInt8 20 :=
  Vector.ofFn (digestOctet (hashBlocks (message ++ sha1Padding message.length)))

/-! ## a block -/

theorem getD_setIfInBounds {n : Nat} (W : Vector UInt32 n) (i t : Nat) (x : UInt32) :
    (W.setIfInBounds t x).getD i 0 = if t = i ∧ i < n then x else W.getD i 0 := by
  have hgetD : ∀ W : Vector UInt32 n, W.getD i 0 = W[i]?.getD 0 := fun W => by simp [Vector.getD]
  rw [hgetD, hgetD, Vector.getElem?_setIfInBounds]
  by_cases e : t = i
  · subst e
    by_cases ht : t < n <;> simp [ht]
  · simp [e]

/-- A loop that computes each word from those before it. -/
theorem fill_words {g : Vector UInt32 80 → Nat → UInt32} {v : Nat → UInt32} {a : Nat}
    (hg : ∀ W t, a ≤ t → (∀ i, i < t → W.getD i 0 = v i) → g W t = v t) {W : Vector UInt32 80}
    (hW : ∀ i, i < a → W.getD i 0 = v i) (n : Nat) (hn : a + n ≤ 80) :
    ∀ i, i < a + n →
      ((List.range' a n).foldl (fun W t => W.setIfInBounds t (g W t)) W).getD i 0 = v i := by
  induction n with
  | zero => exact hW
  | succ n ih =>
    intro i hi
    have ih := ih (by omega)
    rw [List.range'_1_concat, List.foldl_append, List.foldl_cons, List.foldl_nil, getD_setIfInBounds]
    by_cases e : a + n = i
    · rw [if_pos ⟨e, by omega⟩, ← e]
      exact hg _ _ (by omega) ih
    · rw [if_neg fun h => e h.1]
      exact ih i (by omega)

theorem wordSequence_getD (memory : Vector UInt32 80) (block : List UInt8) (t : Nat) (ht : t < 80) :
    (wordSequence memory block).getD t 0 = scheduleWord (wordOf block) t := by
  have hfirst := fill_words (g := fun _ t => wordOf block t) (v := wordOf block) (a := 0) (W := memory)
    (fun _ _ _ _ => rfl) (fun i hi => absurd hi (Nat.not_lt_zero i)) 16 (by omega)
  rw [← List.range_eq_range', Nat.zero_add] at hfirst
  unfold wordSequence
  dsimp only
  refine fill_words (g := fun W t => circularShift 1
    (W.getD (t - 3) 0 ^^^ W.getD (t - 8) 0 ^^^ W.getD (t - 14) 0 ^^^ W.getD (t - 16) 0)) (a := 16)
    (fun W t ht hbefore => ?_) (fun i hi => ?_) 64 (by omega) t ht
  · rw [scheduleWord, dif_neg (Nat.not_lt_of_le ht), hbefore _ (by omega), hbefore _ (by omega),
      hbefore _ (by omega), hbefore _ (by omega)]
  · rw [hfirst i hi, scheduleWord, dif_pos hi]

theorem turns_eq {W : Vector UInt32 80} {m : Nat → UInt32} (hW : ∀ t, t < 80 → W.getD t 0 = scheduleWord m t)
    {f : UInt32 → UInt32 → UInt32 → UInt32} {k : UInt32} {a : Nat} (hstart : a + 20 ≤ 80)
    (hf : ∀ t, a ≤ t → t < a + 20 → roundFunction t = f ∧ roundConstant t = k) (x : WordBuffers) :
    turns f k a W (rounds m x a) = rounds m x (a + 20) := by
  have hturns : ∀ n, n ≤ 20 → (List.range' a n).foldl (fun x t => x.turn (f x.B x.C x.D) k (W.getD t 0))
      (rounds m x a) = rounds m x (a + n) := by
    intro n
    induction n with
    | zero => exact fun _ => rfl
    | succ n ih =>
      intro hn
      obtain ⟨hf, hk⟩ := hf (a + n) (by omega) (by omega)
      rw [List.range'_1_concat, List.foldl_append, ih (by omega), List.foldl_cons, List.foldl_nil, hW _ (by omega),
        ← Nat.add_assoc, rounds, hf, hk]
  exact hturns 20 (by omega)

theorem processMessageBlock_eq (memory : Vector UInt32 80) (c : SHA1Context) : sha1ProcessMessageBlock memory c =
    some ((), { c with intermediateHash := compressBlock c.intermediateHash c.messageBlock.toList
                       messageBlockIndex := 0 }) := by
  have hW := wordSequence_getD memory c.messageBlock.toList
  have h₀ := turns_eq hW (f := choose) (k := 0x5A827999) (a := 0) (by omega) (fun t _ ht => by
    simp [roundFunction, roundConstant, show t < 20 by omega]) (WordBuffers.of c.intermediateHash)
  have h₁ := turns_eq hW (f := parity) (k := 0x6ED9EBA1) (a := 20) (by omega) (fun t _ ht => by
    simp [roundFunction, roundConstant, show ¬ t < 20 by omega, show t < 40 by omega])
    (WordBuffers.of c.intermediateHash)
  have h₂ := turns_eq hW (f := majority) (k := 0x8F1BBCDC) (a := 40) (by omega) (fun t _ ht => by
    simp [roundFunction, roundConstant, show ¬ t < 20 by omega, show ¬ t < 40 by omega, show t < 60 by omega])
    (WordBuffers.of c.intermediateHash)
  have h₃ := turns_eq hW (f := parity) (k := 0xCA62C1D6) (a := 60) (by omega) (fun t _ ht => by
    simp [roundFunction, roundConstant, show ¬ t < 20 by omega, show ¬ t < 40 by omega, show ¬ t < 60 by omega])
    (WordBuffers.of c.intermediateHash)
  unfold sha1ProcessMessageBlock compressBlock
  rw [update_apply]
  rw [rounds] at h₀
  simp only [h₀, h₁, h₂, h₃]

/-! ## the block fills -/

theorem take_set {α : Type} {l : List α} {i : Nat} (h : i < l.length) (x : α) :
    (l.set i x).take (i + 1) = l.take i ++ [x] := by
  have hset : i < (l.set i x).length := by rwa [List.length_set]
  rw [List.take_succ_eq_append_getElem hset, List.getElem_set_self, List.take_set_of_le (Nat.le_refl i)]

theorem hashBlocks_append {l b : List UInt8} (hl : 64 ∣ l.length) (hb : b.length = 64) :
    hashBlocks (l ++ b) = compressBlock (hashBlocks l) b := by
  unfold hashBlocks
  rw [overBlocks_append (by decide) _ hl, overBlocks_block (by decide) _ hb]

/-- The blocks `l` have been hashed and `r` stands in the block, and the length is that of `n` bytes. -/
structure Filling (l r : List UInt8) (n : Nat) (c : SHA1Context) : Prop where
  blocks : 64 ∣ l.length
  room : r.length ≤ 64
  index : c.messageBlockIndex = r.length
  block : c.messageBlock.toList.take r.length = r
  hash : c.intermediateHash = hashBlocks l
  low : c.lengthLow = UInt32.ofNat (8 * n)
  high : c.lengthHigh = UInt32.ofNat (8 * n / 2 ^ 32)
  notComputed : c.computed = false
  notCorrupted : c.corrupted = 0

theorem toUInt8_shiftRight (m s : Nat) (hs : s + 8 ≤ 32) :
    (UInt32.ofNat m >>> UInt32.ofNat s).toUInt8 = UInt8.ofNat (m / 2 ^ s) := by
  apply UInt8.toNat.inj
  simp only [UInt32.toNat_toUInt8, UInt32.toNat_shiftRight, UInt32.toNat_ofNat', UInt8.toNat_ofNat',
    Nat.shiftRight_eq_div_pow]
  have hword : (2 : Nat) ^ 32 = 2 ^ s * 2 ^ (32 - s) := by rw [← Nat.pow_add, Nat.add_sub_cancel' (by omega)]
  have hoctet : (2 : Nat) ^ 8 ∣ 2 ^ (32 - s) := Nat.pow_dvd_pow 2 (by omega)
  rw [show s % 2 ^ 32 % 32 = s by omega, hword, Nat.mod_mul_right_div_self, Nat.mod_mod_of_dvd _ hoctet]

theorem lengthOctets_eq (n : Nat) : lengthOctets n =
    [(UInt32.ofNat (n / 2 ^ 32) >>> 24).toUInt8, (UInt32.ofNat (n / 2 ^ 32) >>> 16).toUInt8,
      (UInt32.ofNat (n / 2 ^ 32) >>> 8).toUInt8, (UInt32.ofNat (n / 2 ^ 32)).toUInt8,
      (UInt32.ofNat n >>> 24).toUInt8, (UInt32.ofNat n >>> 16).toUInt8, (UInt32.ofNat n >>> 8).toUInt8,
      (UInt32.ofNat n).toUInt8] := by
  have hoctet := fun m s hs => (toUInt8_shiftRight m s hs).symm
  have hlast : ∀ m, UInt8.ofNat m = (UInt32.ofNat m).toUInt8 := fun m => by simp
  have hhigh : ∀ i, n / 256 ^ (i + 4) = n / 2 ^ 32 / 256 ^ i := fun i => by
    rw [Nat.div_div_eq_div_mul, Nat.pow_add, Nat.mul_comm (256 ^ i)]
    rfl
  have h₁ : 256 ^ 1 = 2 ^ 8 := rfl
  have h₂ : 256 ^ 2 = 2 ^ 16 := rfl
  have h₃ : 256 ^ 3 = 2 ^ 24 := rfl
  show [UInt8.ofNat (n / 256 ^ 7), UInt8.ofNat (n / 256 ^ 6), UInt8.ofNat (n / 256 ^ 5), UInt8.ofNat (n / 256 ^ 4),
    UInt8.ofNat (n / 256 ^ 3), UInt8.ofNat (n / 256 ^ 2), UInt8.ofNat (n / 256 ^ 1), UInt8.ofNat (n / 256 ^ 0)] = _
  rw [hhigh 3, hhigh 2, hhigh 1, hhigh 0, h₁, h₂, h₃, Nat.pow_zero, Nat.div_one, Nat.div_one,
    hoctet _ 24 (by omega), hoctet _ 16 (by omega), hoctet _ 8 (by omega), hoctet _ 24 (by omega),
    hoctet _ 16 (by omega), hoctet _ 8 (by omega), hlast, hlast]
  rfl

section
variable {memory : Vector UInt32 80} {l r : List UInt8} {n : Nat} {c : SHA1Context}

theorem putByte_fills (h : Filling l r n c) (hr : r.length < 64) (x : UInt8) :
    Ends (putByte x) c fun _ c => Filling l (r ++ [x]) n c := by
  have hindex : decide (c.messageBlockIndex < 64) = true := by
    rw [h.index]
    exact decide_eq_true hr
  refine Ends.then_some (require_of_true hindex) (Ends.update { h with room := ?_, index := ?_, block := ?_ })
  · rw [List.length_append, List.length_singleton]
    exact hr
  · rw [List.length_append, List.length_singleton, ← h.index]
  · rw [List.length_append, List.length_singleton, Vector.toList_setIfInBounds, h.index,
      take_set (by rwa [Vector.length_toList]), h.block]

theorem process_fills (h : Filling l r n c) (hr : r.length = 64) :
    Ends (sha1ProcessMessageBlock memory) c fun _ c => Filling (l ++ r) [] n c := by
  have hblock : c.messageBlock.toList = r := by
    rw [← h.block, hr, List.take_of_length_le (Nat.le_of_eq Vector.length_toList)]
  refine ⟨(), _, processMessageBlock_eq memory c, ?_⟩
  refine { h with blocks := ?_, room := ?_, index := rfl, block := rfl, hash := ?_ }
  · rw [List.length_append, hr]
    exact Nat.dvd_add h.blocks (Nat.dvd_refl 64)
  · exact Nat.zero_le 64
  · show compressBlock c.intermediateHash c.messageBlock.toList = hashBlocks (l ++ r)
    rw [hblock, h.hash, hashBlocks_append h.blocks hr]

theorem putZeros_fills {limit fuel : Nat} (hlimit : limit ≤ 64) : ∀ {r : List UInt8} {c : SHA1Context}, Filling l r n c →
    r.length ≤ limit → limit - r.length < fuel →
    Ends (putZeros limit fuel) c fun _ c => Filling l (r ++ List.replicate (limit - r.length) 0) n c := by
  induction fuel with
  | zero => exact fun _ _ hfuel => absurd hfuel (Nat.not_lt_zero _)
  | succ fuel ih =>
    intro r c h hr hfuel
    refine Ends.then_read ?_
    by_cases hlt : r.length < limit
    · rw [if_pos (by rwa [h.index])]
      refine (putByte_fills h (by omega) 0).bind fun _ c h => ?_
      have hlength : (r ++ [0]).length = r.length + 1 := by simp
      have hnext := ih h (by omega) (by omega)
      have hzeros : limit - r.length = limit - (r.length + 1) + 1 := by omega
      rwa [hlength, List.append_assoc, List.singleton_append, ← List.replicate_succ, ← hzeros] at hnext
    · rw [if_neg (by rwa [h.index])]
      have hzero : limit - r.length = 0 := by omega
      apply Ends.pure
      rwa [hzero, List.replicate_zero, List.append_nil]

/-- The length goes into the last octets of a block that is filled up to them, and the block is hashed. -/
theorem putLength_fills (h : Filling l r n c) (hr : r.length = 56) :
    Ends (putLength >>= fun _ => sha1ProcessMessageBlock memory) c fun _ c =>
      Filling (l ++ (r ++ lengthOctets (8 * n))) [] n c := by
  have hlength : (r ++ lengthOctets (8 * n)).length = 64 := by
    rw [List.length_append, hr]
    rfl
  have hblock : c.messageBlock.toList.take 56 = r := by rw [← hr, h.block]
  apply Ends.then_update
  have hall : ∀ block : Vector UInt8 64, block.toList.take 64 = block.toList := fun block =>
    List.take_of_length_le (Nat.le_of_eq Vector.length_toList)
  have hfull := hall ((((((((c.messageBlock.setIfInBounds 56 (c.lengthHigh >>> 24).toUInt8).setIfInBounds 57
    (c.lengthHigh >>> 16).toUInt8).setIfInBounds 58 (c.lengthHigh >>> 8).toUInt8).setIfInBounds 59
    c.lengthHigh.toUInt8).setIfInBounds 60 (c.lengthLow >>> 24).toUInt8).setIfInBounds 61
    (c.lengthLow >>> 16).toUInt8).setIfInBounds 62 (c.lengthLow >>> 8).toUInt8).setIfInBounds 63 c.lengthLow.toUInt8)
  simp only [Vector.toList_setIfInBounds] at hfull
  rw [take_set (by simp), take_set (by simp), take_set (by simp), take_set (by simp), take_set (by simp),
    take_set (by simp), take_set (by simp), take_set (by simp), hblock, h.low, h.high] at hfull
  refine ⟨(), _, processMessageBlock_eq memory _, ?_⟩
  refine { h with blocks := ?_, room := ?_, index := rfl, block := rfl, hash := ?_ }
  · rw [List.length_append, hlength]
    exact Nat.dvd_add h.blocks (Nat.dvd_refl 64)
  · exact Nat.zero_le 64
  · show compressBlock c.intermediateHash _ = hashBlocks (l ++ (r ++ lengthOctets (8 * n)))
    rw [hashBlocks_append h.blocks hlength, h.hash, lengthOctets_eq]
    simp only [Vector.toList_setIfInBounds, h.low, h.high]
    rw [← hfull]
    simp

theorem sha1Padding_eq {zeros : Nat} (h : zeros = (119 - n % 64) % 64) :
    sha1Padding n = [0x80] ++ List.replicate zeros 0 ++ lengthOctets (8 * n) := by
  rw [sha1Padding, ← h]
  simp

theorem sha1PadMessage_pads (h : Filling l r n c) (hr : r.length < 64) (hn : n = l.length + r.length) :
    Ends (sha1PadMessage memory) c fun _ c => Filling (l ++ r ++ sha1Padding n) [] n c := by
  have hmod : n % 64 = r.length := by
    obtain ⟨k, hk⟩ := h.blocks
    omega
  refine Ends.then_read ?_
  by_cases hlarge : r.length > 55
  · -- the rest of this block is padding, and so is the next one up to the length
    rw [if_pos (by rwa [h.index])]
    refine (putByte_fills h hr 0x80).bind fun _ c h => ?_
    have hput : (r ++ [0x80]).length = r.length + 1 := by simp
    refine (putZeros_fills (Nat.le_refl 64) h (by omega) (by omega)).bind fun _ c h => ?_
    refine (process_fills h (by simp; omega)).bind fun _ c h => ?_
    refine (putZeros_fills (by omega) h (by simp) (by simp)).bind fun _ c h => ?_
    refine (putLength_fills h (by simp)).mono fun _ c h => ?_
    have hzeros : (64 - (r ++ [0x80]).length) + 56 = (119 - n % 64) % 64 := by
      rw [hput, hmod]
      omega
    rw [sha1Padding_eq hzeros, List.replicate_add]
    simpa using h
  · rw [if_neg (by rwa [h.index])]
    refine (putByte_fills h hr 0x80).bind fun _ c h => ?_
    have hput : (r ++ [0x80]).length = r.length + 1 := by simp
    refine (putZeros_fills (by omega) h (by omega) (by omega)).bind fun _ c h => ?_
    refine (putLength_fills h (by simp; omega)).mono fun _ c h => ?_
    have hzeros : 56 - (r ++ [0x80]).length = (119 - n % 64) % 64 := by
      rw [hput, hmod]
      omega
    rw [sha1Padding_eq hzeros]
    simpa using h

/-- A byte that still counts, and the one with which the length wraps around. -/
theorem countByte_fills (h : Filling l r n c) (hn : n < 2 ^ 61) :
    Ends countByte c fun _ c =>
      if n + 1 < 2 ^ 61 then Filling l r (n + 1) c else c.corrupted = 1 ∧ c.computed = false := by
  have hlow : c.lengthLow + 8 = UInt32.ofNat (8 * (n + 1)) := by
    rw [h.low, Nat.mul_add, UInt32.ofNat_add]
    rfl
  have hzero : ∀ m, UInt32.ofNat m = 0 ↔ m % 2 ^ 32 = 0 := fun m => by
    rw [← UInt32.toNat_inj, UInt32.toNat_ofNat']
    rfl
  apply Ends.update
  dsimp only
  by_cases hcarry : 8 * (n + 1) % 2 ^ 32 = 0
  · have hlow₀ : c.lengthLow + 8 = 0 := by rwa [hlow, hzero]
    have hhigh : c.lengthHigh + 1 = UInt32.ofNat (8 * (n + 1) / 2 ^ 32) := by
      have hdiv : 8 * (n + 1) / 2 ^ 32 = 8 * n / 2 ^ 32 + 1 := by omega
      rw [h.high, hdiv, UInt32.ofNat_add]
      rfl
    have hhigh₀ : c.lengthHigh + 1 = 0 ↔ ¬ n + 1 < 2 ^ 61 := by
      rw [hhigh, hzero]
      omega
    rw [if_pos hlow₀]
    by_cases hlt : n + 1 < 2 ^ 61
    · rw [if_pos hlt, if_neg fun e => hhigh₀.mp e hlt]
      exact { h with low := hlow, high := hhigh }
    · rw [if_neg hlt, if_pos (hhigh₀.mpr hlt)]
      exact ⟨rfl, h.notComputed⟩
  · have hlow₀ : ¬ c.lengthLow + 8 = 0 := by rwa [hlow, hzero]
    have hlt : n + 1 < 2 ^ 61 := by omega
    rw [if_neg hlow₀, if_pos hlt]
    refine { h with low := hlow, high := ?_ }
    have hdiv : 8 * (n + 1) / 2 ^ 32 = 8 * n / 2 ^ 32 := by omega
    rw [hdiv, h.high]

end

/-! ## what the calls mean -/

inductive Hashing where
  | absorbing (message : List UInt8)
  | computed (message : List UInt8)
  | corrupted (code : ShaCode)

inductive ShaCall where
  | reset
  | input (message : List UInt8)
  | result

/-- A message must be of less than 2^64 bits. -/
def Hashing.after : Hashing → ShaCall → Hashing
  | _, .reset => .absorbing []
  | .absorbing m, .input b => if (m ++ b).length < 2 ^ 61 then .absorbing (m ++ b) else .corrupted 1
  | .absorbing m, .result => .computed m
  | .computed m, .input b => if b.isEmpty then .computed m else .corrupted shaStateError
  | .computed m, .result => .computed m
  | .corrupted code, _ => .corrupted code

theorem Hashing.after_input {m b : List UInt8} (h : (m ++ b).length < 2 ^ 61) :
    (Hashing.absorbing m).after (.input b) = .absorbing (m ++ b) := if_pos h

def Hashing.answer : Hashing → ShaCall → ShaCode × Option (Vector UInt8 20)
  | _, .reset => (shaSuccess, none)
  | .absorbing _, .input _ => (shaSuccess, none)
  | .computed _, .input b => (if b.isEmpty then shaSuccess else shaStateError, none)
  | .corrupted code, .input b => (if b.isEmpty then shaSuccess else code, none)
  | .absorbing m, .result => (shaSuccess, some (sha1Digest m))
  | .computed m, .result => (shaSuccess, some (sha1Digest m))
  | .corrupted code, .result => (code, none)

/-- the answers to calls one after the other -/
def Hashing.answers : Hashing → List ShaCall → List (ShaCode × Option (Vector UInt8 20))
  | _, [] => []
  | h, call :: calls => h.answer call :: (h.after call).answers calls

/-- a call, where `memory` is what the word sequence finds on the stack -/
def shaCall (memory : Vector UInt32 80) : ShaCall → Prog SHA1Context (ShaCode × Option (Vector UInt8 20))
  | .reset => do return (← sha1Reset, none)
  | .input message => do return (← sha1Input memory message, none)
  | .result => sha1Result memory

def shaCalls : List (Vector UInt32 80 × ShaCall) → Prog SHA1Context (List (ShaCode × Option (Vector UInt8 20)))
  | [] => pure []
  | (memory, call) :: calls => do
    let answer ← shaCall memory call
    let answers ← shaCalls calls
    return answer :: answers

/-- the context that has taken in `m` -/
def Absorbing (m : List UInt8) (c : SHA1Context) : Prop :=
  ∃ l r, l ++ r = m ∧ r.length < 64 ∧ m.length < 2 ^ 61 ∧ Filling l r m.length c

theorem Absorbing.short {m : List UInt8} {c : SHA1Context} (h : Absorbing m c) : m.length < 2 ^ 61 := by
  obtain ⟨_, _, _, _, hm, _⟩ := h
  exact hm

theorem Absorbing.usable {m : List UInt8} {c : SHA1Context} (h : Absorbing m c) :
    ¬ c.computed = true ∧ ¬ c.corrupted ≠ 0 := by
  obtain ⟨_, _, _, _, _, h⟩ := h
  exact ⟨by rw [h.notComputed]; exact Bool.false_ne_true, not_not_intro h.notCorrupted⟩

/-- how a context stands for what the calls mean -/
def Hashing.Stands : Hashing → SHA1Context → Prop
  | .absorbing m, c => Absorbing m c
  | .computed m, c => c.intermediateHash = hashBlocks (m ++ sha1Padding m.length) ∧ c.computed = true ∧ c.corrupted = 0
  | .corrupted code, c => c.corrupted = code ∧ code ≠ 0 ∧ (c.computed = true → code = shaStateError)

/-! ## each call -/

section
variable (memory : Vector UInt32 80)

theorem inputLoop_corrupted {c : SHA1Context} (h : c.corrupted ≠ 0) (b : List UInt8) :
    inputLoop memory b c = some ((), c) := by
  cases b with
  | nil => rfl
  | cons x b =>
    show (if c.corrupted ≠ 0 then (pure () : Prog SHA1Context Unit) else _) c = _
    rw [if_pos h]
    rfl

theorem fullBlock_fills {l r : List UInt8} {n : Nat} {c : SHA1Context} (h : Filling l r n c) :
    Ends (fullBlock memory) c fun _ c => ∃ k q, k ++ q = l ++ r ∧ q.length < 64 ∧ Filling k q n c := by
  refine Ends.then_read ?_
  by_cases hr : r.length = 64
  · rw [if_pos (by rwa [h.index])]
    exact (process_fills h hr).mono fun _ c h => ⟨l ++ r, [], List.append_nil _, Nat.zero_lt_succ 63, h⟩
  · rw [if_neg (by rwa [h.index])]
    exact Ends.pure ⟨l, r, rfl, Nat.lt_of_le_of_ne h.room hr, h⟩

theorem inputLoop_absorbs (b : List UInt8) : ∀ {m : List UInt8} {c : SHA1Context}, Absorbing m c →
    Ends (inputLoop memory b) c fun _ c =>
      if (m ++ b).length < 2 ^ 61 then Absorbing (m ++ b) c else c.corrupted = 1 ∧ c.computed = false := by
  induction b with
  | nil =>
    intro m c h
    apply Ends.pure
    rwa [List.append_nil, if_pos h.short]
  | cons x b ih =>
    intro m c h
    obtain ⟨l, r, rfl, hr, hm, h⟩ := h
    have hnext : (l ++ r ++ [x]).length = (l ++ r).length + 1 := List.length_append
    have hx : x &&& 0xFF = x := UInt8.and_neg_one
    refine Ends.then_read ?_
    rw [if_neg (not_not_intro h.notCorrupted), hx]
    refine (putByte_fills h hr x).bind fun _ c h => ?_
    refine (countByte_fills h hm).bind fun _ c h => ?_
    by_cases hlt : (l ++ r).length + 1 < 2 ^ 61
    · rw [if_pos hlt] at h
      refine (fullBlock_fills memory h).bind fun _ c h => ?_
      obtain ⟨k, q, hkq, hq, h⟩ := h
      rw [← List.append_assoc] at hkq
      have habsorbing : Absorbing (l ++ r ++ [x]) c := ⟨k, q, hkq, hq, by rwa [hnext], by rwa [hnext]⟩
      have hrest := ih habsorbing
      rwa [List.append_assoc, List.singleton_append] at hrest
    · rw [if_neg hlt] at h
      have hlong : ¬ (l ++ r ++ x :: b).length < 2 ^ 61 := by
        rw [List.length_append, List.length_cons]
        omega
      have hblock : Ends (fullBlock memory) c fun _ c => c.corrupted = 1 ∧ c.computed = false := by
        refine Ends.then_read ?_
        by_cases hindex : c.messageBlockIndex = 64
        · rw [if_pos hindex]
          exact ⟨(), _, processMessageBlock_eq memory c, h⟩
        · rw [if_neg hindex]
          exact Ends.pure h
      refine hblock.bind fun _ c h => ⟨(), c, inputLoop_corrupted memory (by rw [h.1]; decide) b, ?_⟩
      simpa only [if_neg hlong] using h

theorem sha1Reset_absorbs (c : SHA1Context) : Ends sha1Reset c fun code c => code = shaSuccess ∧ Absorbing [] c := by
  apply Ends.then_update
  have hfilling : Filling [] [] 0 { c with
      lengthLow := 0, lengthHigh := 0, messageBlockIndex := 0, intermediateHash := initialHash, computed := false
      corrupted := 0 } :=
    { blocks := Nat.dvd_zero 64, room := Nat.zero_le 64, index := rfl, block := rfl, hash := rfl, low := rfl, high := rfl
      notComputed := rfl, notCorrupted := rfl }
  exact Ends.pure ⟨rfl, [], [], rfl, Nat.zero_lt_succ 63, Nat.pos_of_ne_zero (by decide), hfilling⟩

theorem sha1Input_absorbs {m : List UInt8} {c : SHA1Context} (h : Absorbing m c) (b : List UInt8) :
    Ends (sha1Input memory b) c fun code c =>
      code = shaSuccess ∧ ((Hashing.absorbing m).after (.input b)).Stands c := by
  have hloop := inputLoop_absorbs memory b h
  have hstands : ∀ c, (if (m ++ b).length < 2 ^ 61 then Absorbing (m ++ b) c else c.corrupted = 1 ∧ c.computed = false) →
      ((Hashing.absorbing m).after (.input b)).Stands c := by
    intro c hc
    show Hashing.Stands (if (m ++ b).length < 2 ^ 61 then _ else _) c
    by_cases hlt : (m ++ b).length < 2 ^ 61
    · rw [if_pos hlt] at hc ⊢
      exact hc
    · rw [if_neg hlt] at hc ⊢
      exact ⟨hc.1, Nat.one_ne_zero, fun e => absurd (hc.2.symm.trans e) (by decide)⟩
  obtain ⟨hcomputed, hcorrupted⟩ := h.usable
  unfold sha1Input
  by_cases hb : b.isEmpty
  · rw [if_pos hb]
    rw [List.isEmpty_iff] at hb
    subst hb
    obtain ⟨_, _, hrun, hc⟩ := hloop
    obtain ⟨rfl, rfl⟩ := pure_some hrun
    exact Ends.pure ⟨rfl, hstands _ hc⟩
  · rw [if_neg hb]
    apply Ends.then_read
    rw [if_neg hcomputed]
    apply Ends.then_read
    rw [if_neg hcorrupted]
    exact hloop.bind fun _ c hc => Ends.pure ⟨rfl, hstands c hc⟩

theorem computeDigest_absorbing {m : List UInt8} {c : SHA1Context} (h : Absorbing m c) :
    Ends (computeDigest memory) c fun _ c => (Hashing.computed m).Stands c := by
  obtain ⟨l, r, rfl, hr, hm, h⟩ := h
  apply Ends.then_read
  rw [if_neg (by rw [h.notComputed]; exact Bool.false_ne_true)]
  refine (sha1PadMessage_pads h hr List.length_append).bind fun _ c h => Ends.update ⟨h.hash, rfl, h.notCorrupted⟩

theorem computeDigest_computed {m : List UInt8} {c : SHA1Context} (h : (Hashing.computed m).Stands c) :
    Ends (computeDigest memory) c fun _ c => (Hashing.computed m).Stands c := by
  apply Ends.then_read
  rw [if_pos h.2.1]
  exact Ends.pure h

theorem sha1Result_gives {m : List UInt8} {c : SHA1Context} (hcorrupted : c.corrupted = 0)
    (h : Ends (computeDigest memory) c fun _ c => (Hashing.computed m).Stands c) :
    Ends (sha1Result memory) c fun answer c =>
      answer = (shaSuccess, some (sha1Digest m)) ∧ (Hashing.computed m).Stands c := by
  apply Ends.then_read
  rw [if_neg (not_not_intro hcorrupted)]
  refine h.bind fun _ c h => Ends.then_read (Ends.pure ⟨?_, h⟩)
  rw [h.1]
  rfl

theorem sha1Result_absorbing {m : List UInt8} {c : SHA1Context} (hc : Absorbing m c) :
    Ends (sha1Result memory) c fun answer c =>
      answer = (shaSuccess, some (sha1Digest m)) ∧ (Hashing.computed m).Stands c := by
  exact sha1Result_gives memory (not_not.mp hc.usable.2) (computeDigest_absorbing memory hc)

/-- An empty portion is taken whatever has happened before. -/
theorem sha1Input_nil (c : SHA1Context) : sha1Input memory [] c = some (shaSuccess, c) := rfl

/-- A portion that comes after the digest has been taken. -/
theorem sha1Input_computed {b : List UInt8} (hb : ¬ b.isEmpty) {c : SHA1Context} (h : c.computed = true) :
    sha1Input memory b c = some (shaStateError, { c with corrupted := shaStateError }) := by
  unfold sha1Input
  rw [if_neg hb, bind_of_some (read_apply SHA1Context.computed c), if_pos h]
  rfl

theorem sha1Input_corrupted {b : List UInt8} (hb : ¬ b.isEmpty) {c : SHA1Context} (h : c.computed = false)
    (hcode : c.corrupted ≠ 0) : sha1Input memory b c = some (c.corrupted, c) := by
  unfold sha1Input
  rw [if_neg hb, bind_of_some (read_apply SHA1Context.computed c), if_neg (by rw [h]; exact Bool.false_ne_true),
    bind_of_some (read_apply SHA1Context.corrupted c), if_pos hcode]
  rfl

theorem shaCall_of_input {b : List UInt8} {c d : SHA1Context} {code : ShaCode}
    (h : sha1Input memory b c = some (code, d)) : shaCall memory (.input b) c = some ((code, none), d) :=
  bind_of_some h

theorem shaCall_input {h : Hashing} {c : SHA1Context} (hc : h.Stands c) (b : List UInt8) :
    Ends (shaCall memory (.input b)) c fun answer c => answer = h.answer (.input b) ∧ (h.after (.input b)).Stands c := by
  cases h with
  | absorbing m =>
    refine (sha1Input_absorbs memory hc b).bind fun code c h => Ends.pure ⟨?_, h.2⟩
    rw [h.1]
    rfl
  | computed m =>
    unfold Hashing.answer Hashing.after
    by_cases hb : b.isEmpty
    · rw [List.isEmpty_iff] at hb
      subst hb
      exact ⟨_, c, shaCall_of_input memory (sha1Input_nil memory c), rfl, hc⟩
    · refine ⟨_, _, shaCall_of_input memory (sha1Input_computed memory hb hc.2.1), ?_, ?_⟩
      · simp [hb]
      · simp only [hb]
        exact ⟨rfl, by decide, fun _ => rfl⟩
  | corrupted code =>
    unfold Hashing.answer Hashing.after
    obtain ⟨hcode, hne, hstate⟩ := hc
    by_cases hb : b.isEmpty
    · rw [List.isEmpty_iff] at hb
      subst hb
      exact ⟨_, c, shaCall_of_input memory (sha1Input_nil memory c), rfl, hcode, hne, hstate⟩
    · cases hcomputed : c.computed with
      | true =>
        refine ⟨_, _, shaCall_of_input memory (sha1Input_computed memory hb hcomputed), ?_, ?_, hne, hstate⟩
        · simp [hb, hstate hcomputed]
        · exact (hstate hcomputed).symm
      | false =>
        have hcorrupted : c.corrupted ≠ 0 := by rwa [hcode]
        have hinput := sha1Input_corrupted memory hb hcomputed hcorrupted
        refine ⟨_, c, shaCall_of_input memory hinput, ?_, hcode, hne, hstate⟩
        simp [hb, hcode]

/-- What one call answers and leaves. -/
theorem shaCall_answers {h : Hashing} {c : SHA1Context} (hc : h.Stands c) (call : ShaCall) :
    Ends (shaCall memory call) c fun answer c => answer = h.answer call ∧ (h.after call).Stands c := by
  cases call with
  | reset =>
    refine (sha1Reset_absorbs c).bind fun code c hcode => Ends.pure ⟨?_, hcode.2⟩
    rw [hcode.1]
    rfl
  | input b => exact shaCall_input memory hc b
  | result =>
    cases h with
    | absorbing m => exact sha1Result_absorbing memory hc
    | computed m => exact sha1Result_gives memory hc.2.2 (computeDigest_computed memory hc)
    | corrupted code =>
      apply Ends.then_read
      rw [if_pos (by rw [hc.1]; exact hc.2.1)]
      refine Ends.pure ⟨?_, hc⟩
      rw [hc.1]
      rfl

end

theorem shaCalls_answer (calls : List (Vector UInt32 80 × ShaCall)) : ∀ {h : Hashing} {c : SHA1Context}, h.Stands c →
    Ends (shaCalls calls) c fun answers _ => answers = h.answers (calls.map Prod.snd) := by
  induction calls with
  | nil => exact fun _ => Ends.pure rfl
  | cons call calls ih =>
    intro h c hc
    obtain ⟨memory, call⟩ := call
    refine (shaCall_answers memory hc call).bind fun answer c ⟨hanswer, hc⟩ => ?_
    refine (ih hc).bind fun answers _ hanswers => Ends.pure ?_
    rw [hanswer, hanswers]
    rfl

/-- Whatever a context holds and whatever the stack holds at each call: once it has been reset, every sequence of calls
is defined, so no byte is put outside of the block, and answers as the message that the calls have fed in. In particular
the digest is the one that the standard defines, however the message has been cut into portions. -/
theorem sha1_refinement (c : SHA1Context) (memory : Vector UInt32 80) (calls : List (Vector UInt32 80 × ShaCall)) :
    ∃ d, shaCalls ((memory, .reset) :: calls) c =
      some ((shaSuccess, none) :: (Hashing.absorbing []).answers (calls.map Prod.snd), d) := by
  have hcalls : Ends (shaCalls ((memory, .reset) :: calls)) c fun answers _ =>
      answers = (shaSuccess, none) :: (Hashing.absorbing []).answers (calls.map Prod.snd) := by
    have hreset : Ends (shaCall memory .reset) c fun answer c => answer = (shaSuccess, none) ∧ Absorbing [] c := by
      refine (sha1Reset_absorbs c).bind fun code c h => Ends.pure ⟨?_, h.2⟩
      rw [h.1]
    refine hreset.bind fun answer c ⟨hanswer, hc⟩ => ?_
    refine (shaCalls_answer calls (h := .absorbing []) hc).bind fun answers _ hanswers => Ends.pure ?_
    rw [hanswer, hanswers]
  obtain ⟨answers, d, hrun, rfl⟩ := hcalls
  exact ⟨d, hrun⟩

end Cjet
