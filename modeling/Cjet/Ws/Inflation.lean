import Cjet.Ws.Compression
import Mathlib.Data.Nat.Find

/-!
# The loop that unpacks a message

* `Sound`            the pointers are inside of their buffers; every step keeps it;
* `Progress`         the stream, what is left of the input and what has been written, call by call;
* `At`               the loop where so many calls have filled the output buffer;
* `Ends`             the loop ends, and what it offers can be counted in 32 bits;
* `decompresses_iff` the messages that are unpacked as they should be.
-/

set_option linter.unusedVariables false

namespace Cjet
open Stateful

namespace Compression

section
variable {lib : Zlib} {heap : Heap} {finish : Bool} {s t : Decompressor lib.Stream}

/-! ## a step -/

/-- the pointers are inside of their buffers -/
structure Sound {Z : Type} (s : Decompressor Z) : Prop where
  block : ∃ block, s.block = some block ∧ s.nextIn + s.availIn.toNat ≤ block.length
  out : s.nextOut + s.availOut.toNat ≤ s.out.length
  size : s.out.length = s.sizeOut

/-- what `inflate` may read -/
def pending {Z : Type} (s : Decompressor Z) : List UInt8 := ((s.block.getD []).drop s.nextIn).take s.availIn.toNat

/-- what has been written into the output buffer -/
def written {Z : Type} (s : Decompressor Z) : List UInt8 := s.out.take s.nextOut

theorem toNat_ofNat_le (n : Nat) : (UInt32.ofNat n).toNat ≤ n := by
  rw [UInt32.toNat_ofNat']
  exact Nat.mod_le n _

/-- a full output buffer is made twice as large -/
theorem growOutput_apply (hheap : ∀ n, (heap.block n).isSome) (hs : Sound s) (hfull : s.availOut = 0) :
    ∃ t, growOutput lib heap s = some (true, t) ∧ Sound t ∧ pending t = pending s ∧ t.stream = s.stream ∧
      (s.nextOut = s.sizeOut → written t = written s) ∧ t.nextOut = s.sizeOut ∧
      t.availOut = UInt32.ofNat s.sizeOut ∧ t.sizeOut = s.sizeOut * 2 ∧ t.handed = s.handed ∧ t.calls = s.calls := by
  obtain ⟨fresh, hfresh⟩ := Option.isSome_iff_exists.mp (hheap (s.sizeOut * 2))
  have hlen := heap.length_block _ _ hfresh
  have hhalf : s.sizeOut * 2 / 2 = s.sizeOut := Nat.mul_div_cancel s.sizeOut (by decide)
  have havail : s.availOut + UInt32.ofNat s.sizeOut = UInt32.ofNat s.sizeOut := by rw [hfull, UInt32.zero_add]
  have hle := toNat_ofNat_le s.sizeOut
  refine ⟨{ s with availOut := s.availOut + UInt32.ofNat s.sizeOut
                   sizeOut := s.sizeOut * 2
                   out := Block.resize s.out fresh
                   nextOut := s.sizeOut * 2 / 2 }, ?_, ⟨hs.block, ?_, ?_⟩, rfl, rfl, ?_, hhalf, havail, rfl, rfl, rfl⟩
  · unfold growOutput
    rw [Prog.bind_of_some (Prog.read_apply _ s), hfresh]
    rfl
  · show s.sizeOut * 2 / 2 + (s.availOut + UInt32.ofNat s.sizeOut).toNat ≤ (Block.resize s.out fresh).length
    rw [havail, hhalf, Block.length_resize, hlen]
    omega
  · exact Block.length_resize.trans hlen
  · intro hnext
    have hsize := hs.size
    show (Block.resize s.out fresh).take (s.sizeOut * 2 / 2) = s.out.take s.nextOut
    rw [hhalf, hnext, Block.take_resize (by omega) (by omega)]

variable (finish) in
/-- what a call of `inflate` does to the stream and the buffers -/
theorem inflate_apply (hs : Sound s) :
    let r := lib.inflate finish s.stream (pending s) s.availOut.toNat
    ∃ t, inflate lib finish s = some (r.ret, t) ∧ Sound t ∧ t.stream = r.stream ∧
      pending t = (pending s).drop r.consumed ∧ written t = written s ++ r.produced ∧
      t.nextOut = s.nextOut + r.produced.length ∧ t.availOut.toNat = s.availOut.toNat - r.produced.length ∧
      t.sizeOut = s.sizeOut ∧ t.handed = s.handed ∧
      t.calls = s.calls ++ [⟨s.sizeOut, s.nextOut, s.availOut.toNat, r.produced, r.ret⟩] := by
  obtain ⟨block, hblock, hin⟩ := hs.block
  have hout := hs.out
  have hload : Block.load block s.nextIn s.availIn.toNat = some (pending s) := by
    rw [Block.load_of_le hin]
    unfold pending
    rw [hblock]
    rfl
  have hconsumed := lib.consumed_le finish s.stream (pending s) s.availOut.toNat
  have hproduced := lib.produced_le finish s.stream (pending s) s.availOut.toNat
  rw [Block.length_of_load hload] at hconsumed
  intro r
  have hconsumed : r.consumed ≤ s.availIn.toNat := hconsumed
  have hproduced : r.produced.length ≤ s.availOut.toNat := hproduced
  have havailIn := s.availIn.toNat_lt
  have havailOut := s.availOut.toNat_lt
  have hin' : (s.availIn - UInt32.ofNat r.consumed).toNat = s.availIn.toNat - r.consumed := by
    have hn : (UInt32.ofNat r.consumed).toNat = r.consumed := toNat_ofNat (by omega)
    rw [UInt32.toNat_sub_of_le _ _ (by rw [UInt32.le_iff_toNat_le, hn]; exact hconsumed), hn]
  have hout' : (s.availOut - UInt32.ofNat r.produced.length).toNat = s.availOut.toNat - r.produced.length := by
    have hn : (UInt32.ofNat r.produced.length).toNat = r.produced.length := toNat_ofNat (by omega)
    rw [UInt32.toNat_sub_of_le _ _ (by rw [UInt32.le_iff_toNat_le, hn]; exact hproduced), hn]
  obtain ⟨out, hstore⟩ : ∃ out, Block.store s.out s.nextOut r.produced = some out :=
    ⟨_, Block.store_of_le (by omega)⟩
  have hlen := Block.length_of_store hstore
  refine ⟨{ s with stream := r.stream
                   nextIn := s.nextIn + r.consumed
                   availIn := s.availIn - UInt32.ofNat r.consumed
                   out := out
                   nextOut := s.nextOut + r.produced.length
                   availOut := s.availOut - UInt32.ofNat r.produced.length
                   calls := s.calls ++ [⟨s.sizeOut, s.nextOut, s.availOut.toNat, r.produced, r.ret⟩] },
    ?_, ⟨⟨block, hblock, ?_⟩, ?_, hlen.trans hs.size⟩, rfl, ?_, ?_, rfl, hout', rfl, rfl, rfl⟩
  · unfold inflate
    rw [Prog.bind_of_some (Prog.read_apply id s)]
    have hread : Prog.deref
      (fun s : Decompressor lib.Stream => s.block.bind fun b => Block.load b s.nextIn s.availIn.toNat) s
        = some (pending s, s) := Prog.deref_of_some (by rw [hblock, Option.bind_some, hload])
    rw [Prog.bind_of_some hread]
    have hwrite : Prog.deref (fun s : Decompressor lib.Stream => Block.store s.out s.nextOut r.produced) s
      = some (out, s) :=
      Prog.deref_of_some hstore
    exact Prog.bind_of_some hwrite
  · show s.nextIn + r.consumed + (s.availIn - UInt32.ofNat r.consumed).toNat ≤ block.length
    rw [hin']
    omega
  · show s.nextOut + r.produced.length + (s.availOut - UInt32.ofNat r.produced.length).toNat ≤ out.length
    rw [hout', hlen]
    omega
  · unfold pending
    dsimp only
    rw [hblock, Option.getD_some, hin', List.drop_take, List.drop_drop]
  · exact Block.take_store hstore

/-- an error of `inflate`; with a buffer that is empty or full it may go on -/
def Failed (ret : Int) : Prop := ret < 0 ∧ ret ≠ Z_BUF_ERROR

instance (ret : Int) : Decidable (Failed ret) := by
  unfold Failed
  infer_instance

variable (finish) in
/-- the state in which an iteration calls `inflate` -/
theorem inflateStep_apply (hheap : ∀ n, (heap.block n).isSome) (hs : Sound s) :
    ∃ u, Sound u ∧ pending u = pending s ∧ u.stream = s.stream ∧ u.handed = s.handed ∧ u.calls = s.calls ∧
      (s.nextOut + s.availOut.toNat = s.sizeOut → written u = written s) ∧
      (if s.availOut = 0 then
          u.nextOut = s.sizeOut ∧ u.availOut = UInt32.ofNat s.sizeOut ∧ u.sizeOut = s.sizeOut * 2
        else u = s) ∧
      inflateStep lib heap finish s = (do
        let ret ← inflate lib finish
        if ret < 0 ∧ ret ≠ Z_BUF_ERROR then return .failed
        else
          let availOut ← Prog.read fun s => s.availOut
          return if availOut = 0 then .again else .left : Prog (Decompressor lib.Stream) LoopStep) u := by
  by_cases hfull : s.availOut = 0
  · obtain ⟨u, hu, hsound, hpending, hstream, hwritten, hnext, havail, hsize, hhanded, hcalls⟩ :=
      growOutput_apply hheap hs hfull
    refine ⟨u, hsound, hpending, hstream, hhanded, hcalls, ?_, ?_, ?_⟩
    · intro hroom
      rw [hfull] at hroom
      exact hwritten hroom
    · rw [if_pos hfull]
      exact ⟨hnext, havail, hsize⟩
    · unfold inflateStep
      rw [Prog.bind_of_some (Prog.read_apply _ s), if_pos hfull, Prog.bind_of_some hu]
      rfl
  · refine ⟨s, hs, rfl, rfl, rfl, rfl, fun _ => rfl, ?_, ?_⟩
    · rw [if_neg hfull]
    · unfold inflateStep
      rw [Prog.bind_of_some (Prog.read_apply _ s), if_neg hfull, Prog.bind_of_some (Prog.pure_apply true s)]
      rfl

theorem inflateStep_sound (hheap : ∀ n, (heap.block n).isSome) (hs : Sound s) :
    ∃ r t, inflateStep lib heap finish s = some (r, t) ∧ Sound t ∧ t.handed = s.handed ∧ s.calls <+: t.calls := by
  obtain ⟨u, hu, -, -, hhanded, hcalls, -, -, hstep⟩ := inflateStep_apply finish hheap hs
  obtain ⟨t, ht, hsound, -, -, -, -, -, -, hhanded', hcalls'⟩ := inflate_apply finish hu
  rw [hstep, Prog.bind_of_some ht]
  have hprefix : s.calls <+: t.calls := by
    rw [hcalls', hcalls]
    exact List.prefix_append _ _
  split
  · exact ⟨_, t, rfl, hsound, hhanded'.trans hhanded, hprefix⟩
  · exact ⟨_, t, rfl, hsound, hhanded'.trans hhanded, hprefix⟩

theorem inflateLoop_succ (fuel : Nat) {r : LoopStep} (h : inflateStep lib heap finish s = some (r, t)) :
    inflateLoop lib heap finish (fuel + 1) s = match r with
      | .failed => some (some false, t)
      | .again => inflateLoop lib heap finish fuel t
      | .left => some (some true, t) := by
  rw [inflateLoop, Prog.bind_of_some h]
  cases r with
  | failed => rfl
  | again => rfl
  | left => rfl

variable (finish) in
/-- The loop stays inside of the buffers. -/
theorem inflateLoop_sound (hheap : ∀ n, (heap.block n).isSome) (fuel : Nat) (hs : Sound s) :
    ∃ r t, inflateLoop lib heap finish fuel s = some (r, t) ∧ Sound t ∧ t.handed = s.handed ∧ s.calls <+: t.calls := by
  induction fuel generalizing s with
  | zero => exact ⟨none, s, rfl, hs, rfl, List.prefix_refl _⟩
  | succ fuel ih =>
    obtain ⟨r, t, hstep, hsound, hhanded, hcalls⟩ := inflateStep_sound hheap hs
    rw [inflateLoop_succ fuel hstep]
    cases r with
    | failed => exact ⟨_, t, rfl, hsound, hhanded, hcalls⟩
    | left => exact ⟨_, t, rfl, hsound, hhanded, hcalls⟩
    | again =>
      obtain ⟨r, u, hloop, hsound', hhanded', hcalls'⟩ := ih hsound
      exact ⟨r, u, hloop, hsound', hhanded'.trans hhanded, hcalls.trans hcalls'⟩

/-! ## a message -/

/-- what is unpacked: the message with the end that the sender has taken away -/
def terminated (msg : List UInt8) : List UInt8 := msg ++ [0x00, 0x00, 0xFF, 0xFF]

variable (finish) in
/-- `private_decompress` is its loop, started with a copy of the message and an output buffer twenty times as large -/
theorem privateDecompress_apply (hheap : ∀ n, (heap.block n).isSome) (fuel : Nat) (msg : List UInt8)
    (s : Decompressor lib.Stream) :
    ∃ u, privateDecompress lib heap finish fuel msg s
        = (inflateLoop lib heap finish fuel >>= finishDecompress) u ∧
      Sound u ∧ u.stream = s.stream ∧ u.handed = s.handed ++ [msg] ∧ u.calls = [] ∧ u.nextOut = 0 ∧
      u.sizeOut = 20 * msg.length ∧ u.availOut = UInt32.ofNat (20 * msg.length) ∧
      (msg.length + 4 < 4294967296 → pending u = terminated msg) := by
  obtain ⟨block, hblock⟩ := Option.isSome_iff_exists.mp (hheap (msg.length + 4))
  obtain ⟨out, hout⟩ := Option.isSome_iff_exists.mp (hheap (20 * msg.length))
  have hlen := heap.length_block _ _ hblock
  have houtlen := heap.length_block _ _ hout
  have htlen : (terminated msg).length = msg.length + 4 := List.length_append
  obtain ⟨block', hstore⟩ : ∃ block', Block.store block 0 (terminated msg) = some block' :=
    ⟨_, Block.store_of_le (by omega)⟩
  have hlen' : block'.length = msg.length + 4 := (Block.length_of_store hstore).trans hlen
  have hcopy : block' = terminated msg := by
    have := Block.take_store hstore
    rwa [List.take_zero, List.nil_append, Nat.zero_add, htlen, List.take_of_length_le (by omega)] at this
  refine ⟨{ s with block := some block', nextIn := 0, availIn := UInt32.ofNat (msg.length + 4)
                   handed := s.handed ++ [msg], calls := []
                   sizeOut := 20 * msg.length, availOut := UInt32.ofNat (20 * msg.length), out := out, nextOut := 0 },
    ?_, ⟨⟨block', rfl, ?_⟩, ?_, houtlen⟩, rfl, rfl, rfl, rfl, rfl, rfl, ?_⟩
  · unfold privateDecompress
    rw [Prog.bind_of_some (Prog.update_apply _ s), hblock]
    dsimp only
    rw [Prog.bind_of_some
      (Prog.deref_of_some (f := fun _ => Block.store block 0 (msg ++ [0x00, 0x00, 0xFF, 0xFF])) hstore),
      Prog.bind_of_some (Prog.update_apply _ _), hout]
    dsimp only
    rw [Prog.bind_of_some (Prog.update_apply _ _)]
  · have := toNat_ofNat_le (msg.length + 4)
    show 0 + (UInt32.ofNat (msg.length + 4)).toNat ≤ block'.length
    omega
  · have := toNat_ofNat_le (20 * msg.length)
    show 0 + (UInt32.ofNat (20 * msg.length)).toNat ≤ out.length
    omega
  · intro hsmall
    unfold pending
    dsimp only
    rw [toNat_ofNat hsmall, Option.getD_some, List.drop_zero, hcopy]
    exact List.take_of_length_le (Nat.le_of_eq htlen)

theorem finishDecompress_left (hs : Sound s) :
    finishDecompress (some true) s = some
      (if s.availIn ≠ 0 then .error else .message (s.out.take (s.sizeOut - s.availOut.toNat)),
        { s with block := none }) := by
  have hload : Block.load s.out 0 (s.sizeOut - s.availOut.toNat)
      = some (s.out.take (s.sizeOut - s.availOut.toNat)) := by
    rw [Block.load_of_le (by rw [hs.size]; omega), List.drop_zero]
  unfold finishDecompress
  dsimp only
  rw [Prog.bind_of_some (Prog.update_apply _ s), Prog.bind_of_some (Prog.read_apply id _)]
  dsimp only [id]
  by_cases hleft : s.availIn ≠ 0
  · rw [if_pos hleft, if_pos hleft]
    rfl
  · rw [if_neg hleft, if_neg hleft]
    exact Prog.bind_of_some (Prog.deref_of_some hload)

variable (finish) in
/-- Whatever the message is, unpacking stays inside of the buffers; where it succeeds, the stream is ready for the next
message. -/
theorem privateDecompress_sound (hheap : ∀ n, (heap.block n).isSome) (fuel : Nat) (msg : List UInt8)
    (s : Decompressor lib.Stream) :
    ∃ r t, privateDecompress lib heap finish fuel msg s = some (r, t) ∧ t.handed = s.handed ++ [msg] ∧
      ∀ text, r = .message text → t.availIn = 0 ∧ t.block = none := by
  obtain ⟨u, hrun, hu, -, hhanded, -⟩ := privateDecompress_apply finish hheap fuel msg s
  obtain ⟨r, v, hloop, hv, hhanded', -⟩ := inflateLoop_sound finish hheap fuel hu
  rw [hrun, Prog.bind_of_some hloop]
  match r with
  | none => exact ⟨_, v, rfl, hhanded'.trans hhanded, nofun⟩
  | some false => exact ⟨_, v, rfl, hhanded'.trans hhanded, nofun⟩
  | some true =>
    refine ⟨_, _, finishDecompress_left hv, hhanded'.trans hhanded, fun text htext => ⟨?_, rfl⟩⟩
    by_cases hleft : v.availIn ≠ 0
    · rw [if_pos hleft] at htext
      cases htext
    · exact not_not.mp hleft

/-! ## the calls of a message -/

/-- the stream, what is left of the input, and what has been written -/
structure Progress (Z : Type) where
  stream : Z
  input : List UInt8
  written : List UInt8

section
variable (lib finish)

/-- what `inflate` does when it is offered so many bytes -/
def Progress.result (p : Progress lib.Stream) (availOut : Nat) : InflateResult lib.Stream :=
  lib.inflate finish p.stream p.input availOut

def Progress.call (p : Progress lib.Stream) (availOut : Nat) : Progress lib.Stream where
  stream := (p.result lib finish availOut).stream
  input := p.input.drop (p.result lib finish availOut).consumed
  written := p.written ++ (p.result lib finish availOut).produced

/-- all of the bytes are used, without an error -/
def Progress.Full (p : Progress lib.Stream) (availOut : Nat) : Prop :=
  ¬Failed (p.result lib finish availOut).ret ∧ (p.result lib finish availOut).produced.length = availOut

instance (p : Progress lib.Stream) (availOut : Nat) : Decidable (p.Full lib finish availOut) := by
  unfold Progress.Full
  infer_instance

/-- For a finite input `inflate` writes finitely many bytes, however it is called. -/
def Finite : Prop :=
  ∀ finish p, ∃ bound, ∀ offers : List Nat, (offers.foldl (Progress.call lib finish) p).written.length ≤ bound

/-- the free part of the output buffer when `inflate` is called, if all calls before have used theirs -/
def offered (first : Nat) : Nat → Nat
  | 0 => first
  | k + 1 => first * 2 ^ k

/-- the progress after so many calls -/
def after (start : Progress lib.Stream) (first : Nat) : Nat → Progress lib.Stream
  | 0 => start
  | k + 1 => (after start first k).call lib finish (offered first k)

/-- The call uses all that is free. -/
def Fills (start : Progress lib.Stream) (first k : Nat) : Prop :=
  (after lib finish start first k).Full lib finish (offered first k)

instance (start : Progress lib.Stream) (first k : Nat) : Decidable (Fills lib finish start first k) := by
  unfold Fills
  infer_instance

/-- The loop ends: there is something to begin with, or an error.  And where the calls before have used all that was free,
the free part of the buffer is less than what 32 bits can count. -/
def Ends (start : Progress lib.Stream) (first : Nat) : Prop :=
  (0 < first ∨ ∃ k, ¬Fills lib finish start first k) ∧
    ∀ k, (∀ i < k, Fills lib finish start first i) → offered first k < 4294967296

end

section
variable {start : Progress lib.Stream} {first k : Nat}

theorem length_after (hstart : start.written = []) (h : ∀ i < k + 1, Fills lib finish start first i) :
    (after lib finish start first (k + 1)).written.length = first * 2 ^ k := by
  induction k with
  | zero =>
    have hfull := (h 0 (Nat.lt_succ_self 0)).2
    show (start.written ++ _).length = _
    rw [hstart, List.nil_append, Nat.pow_zero, Nat.mul_one]
    exact hfull
  | succ k ih =>
    have hfull := (h (k + 1) (Nat.lt_succ_self _)).2
    have hbefore := ih fun i hi => h i (Nat.lt_succ_of_lt hi)
    show ((after lib finish start first (k + 1)).written ++ _).length = _
    rw [List.length_append, hbefore]
    refine (congrArg (first * 2 ^ k + ·) hfull).trans ?_
    show first * 2 ^ k + first * 2 ^ k = first * 2 ^ (k + 1)
    rw [Nat.pow_succ, ← Nat.mul_assoc]
    omega

theorem after_eq_foldl (k : Nat) :
    after lib finish start first k = ((List.range k).map (offered first)).foldl (Progress.call lib finish) start := by
  induction k with
  | zero => rfl
  | succ k ih =>
    rw [List.range_succ, List.map_append, List.foldl_append, ← ih]
    rfl

/-- Some call does not use all that is free. -/
theorem exists_not_fills (hfinite : Finite lib) (hstart : start.written = []) (hfirst : 0 < first) :
    ∃ k, ¬Fills lib finish start first k := by
  obtain ⟨bound, hbound⟩ := hfinite finish start
  by_contra hall
  have hfills : ∀ k, Fills lib finish start first k := fun k => not_not.mp fun h => hall ⟨k, h⟩
  have hlen := length_after (k := bound) hstart fun i _ => hfills i
  have hle := hbound ((List.range (bound + 1)).map (offered first))
  rw [← after_eq_foldl, hlen] at hle
  have hpow : bound < 2 ^ bound := Nat.lt_two_pow_self
  have hmul : 2 ^ bound ≤ first * 2 ^ bound := Nat.le_mul_of_pos_left _ hfirst
  omega

/-- the loop after so many calls that have used all that was free -/
structure At (lib : Zlib) (finish : Bool) (start : Progress lib.Stream) (first k : Nat) (s : Decompressor lib.Stream) :
    Prop where
  sound : Sound s
  room : s.nextOut + s.availOut.toNat = s.sizeOut
  stream : s.stream = (after lib finish start first k).stream
  input : pending s = (after lib finish start first k).input
  text : written s = (after lib finish start first k).written
  free : (if s.availOut = 0 then s.sizeOut else s.availOut.toNat) = offered first k
  calls : ∀ c ∈ s.calls, c.nextOut + c.availOut = c.size ∧ ¬Failed c.ret
  produced : (s.calls.map InflateCall.produced).flatten = written s

/-- An iteration offers what is free, as long as 32 bits can count it. -/
theorem At.step (hheap : ∀ n, (heap.block n).isSome) (h : At lib finish start first k s)
    (hsmall : offered first k < 4294967296) :
    let p := after lib finish start first k
    let r := p.result lib finish (offered first k)
    ∃ t, inflateStep lib heap finish s
        = some (if Failed r.ret then .failed else if r.produced.length = offered first k then .again else .left, t) ∧
      Sound t ∧ t.nextOut + t.availOut.toNat = t.sizeOut ∧ t.stream = (p.call lib finish (offered first k)).stream ∧
      pending t = (p.call lib finish (offered first k)).input ∧
      written t = (p.call lib finish (offered first k)).written ∧
      t.availOut.toNat = offered first k - r.produced.length ∧
      ∃ c : InflateCall, t.calls = s.calls ++ [c] ∧ c.nextOut + c.availOut = c.size ∧ c.ret = r.ret ∧
        c.produced = r.produced := by
  obtain ⟨u, hu, hpending, hstream, -, hcalls, hwritten, hgrown, hstep⟩ :=
    inflateStep_apply finish hheap h.sound
  have hroom := h.room
  have hoffered := h.free
  -- what `inflate` is offered is all that is free
  have havail : u.availOut.toNat = offered first k ∧ u.nextOut + u.availOut.toNat = u.sizeOut := by
    by_cases hfull : s.availOut = 0
    · rw [if_pos hfull] at hgrown hoffered
      obtain ⟨hnext, havail, hsize⟩ := hgrown
      rw [havail, hnext, hsize, hoffered, toNat_ofNat hsmall]
      exact ⟨rfl, (Nat.mul_two _).symm⟩
    · rw [if_neg hfull] at hgrown hoffered
      subst hgrown
      exact ⟨hoffered, hroom⟩
  obtain ⟨t, ht, hsound, htstream, htpending, htwritten, htnext, htavail, htsize, -, htcalls⟩ :=
    inflate_apply finish hu
  rw [hpending, h.input, hstream, h.stream, havail.1] at ht htstream htpending htwritten htnext htavail htcalls
  rw [hwritten hroom, h.text] at htwritten
  rw [hcalls] at htcalls
  intro p r
  have hproduced : r.produced.length ≤ offered first k := lib.produced_le finish p.stream p.input (offered first k)
  refine ⟨t, ?_, hsound, ?_, htstream, htpending, htwritten, htavail, _, htcalls, ?_, rfl, rfl⟩
  · rw [hstep, Prog.bind_of_some ht]
    by_cases hfailed : Failed r.ret
    · rw [if_pos hfailed]
      exact congrFun (if_pos hfailed) t
    · rw [if_neg hfailed]
      refine (congrFun (if_neg hfailed) t).trans ?_
      rw [Prog.bind_of_some (Prog.read_apply _ t)]
      have hzero : t.availOut = 0 ↔ r.produced.length = offered first k := by
        rw [← UInt32.toNat_inj, htavail]
        show offered first k - r.produced.length = 0 ↔ _
        omega
      by_cases hfull : r.produced.length = offered first k
      · rw [if_pos hfull, if_pos (hzero.mpr hfull)]
        rfl
      · rw [if_neg hfull, if_neg fun hz => hfull (hzero.mp hz)]
        rfl
  · rw [htnext, htavail, htsize, ← havail.2, havail.1]
    show u.nextOut + r.produced.length + (offered first k - r.produced.length) = u.nextOut + offered first k
    omega
  · show u.nextOut + offered first k = u.sizeOut
    rw [← havail.1]
    exact havail.2

/-- a call that uses all that is free -/
theorem At.next (hheap : ∀ n, (heap.block n).isSome) (h : At lib finish start first k s)
    (hfills : Fills lib finish start first k) (hsmall : offered first k < 4294967296)
    (hstart : start.written = []) (hbefore : ∀ i < k, Fills lib finish start first i) :
    ∃ t, inflateStep lib heap finish s = some (.again, t) ∧ At lib finish start first (k + 1) t := by
  obtain ⟨t, hstep, hsound, hroom, hstream, hinput, htext, havail, c, hcalls, hcall, hret, hproduced⟩ :=
    h.step hheap hsmall
  rw [if_neg hfills.1, if_pos hfills.2] at hstep
  have hzero : t.availOut = 0 := by
    rw [← UInt32.toNat_inj, havail]
    exact Nat.sub_eq_zero_of_le (Nat.le_of_eq hfills.2.symm)
  refine ⟨t, hstep, hsound, hroom, hstream, hinput, htext, ?_, ?_, ?_⟩
  · rw [if_pos hzero, ← hroom, hzero]
    have hlen := length_after hstart fun i hi =>
      (Nat.lt_succ_iff_lt_or_eq.mp hi).elim (hbefore i) fun e => e ▸ hfills
    have hout := hsound.out
    have hnext : (written t).length = t.nextOut := by
      unfold written
      rw [List.length_take]
      omega
    rw [← hnext, htext]
    exact hlen
  · intro c' hc'
    rw [hcalls] at hc'
    rcases List.mem_append.mp hc' with hc' | hc'
    · exact h.calls c' hc'
    · obtain rfl := List.mem_singleton.mp hc'
      refine ⟨hcall, ?_⟩
      rw [hret]
      exact hfills.1
  · rw [hcalls, List.map_append, List.flatten_append, h.produced, htext, h.text]
    show _ ++ [c.produced].flatten = _
    rw [hproduced, List.flatten_singleton]
    rfl

/-- the loop after the calls that use all that is free -/
theorem At.reach (hheap : ∀ n, (heap.block n).isSome) (h : At lib finish start first 0 s) (hstart : start.written = [])
    (k : Nat) (hfills : ∀ i < k, Fills lib finish start first i) (hsmall : ∀ i < k, offered first i < 4294967296) :
    ∃ t, At lib finish start first k t ∧
      ∀ fuel, inflateLoop lib heap finish (fuel + k) s = inflateLoop lib heap finish fuel t := by
  induction k with
  | zero => exact ⟨s, h, fun _ => rfl⟩
  | succ k ih =>
    obtain ⟨t, hat, hloop⟩ :=
      ih (fun i hi => hfills i (Nat.lt_succ_of_lt hi)) fun i hi => hsmall i (Nat.lt_succ_of_lt hi)
    obtain ⟨u, hstep, hnext⟩ := hat.next hheap (hfills k (Nat.lt_succ_self k)) (hsmall k (Nat.lt_succ_self k)) hstart
      fun i hi => hfills i (Nat.lt_succ_of_lt hi)
    refine ⟨u, hnext, fun fuel => ?_⟩
    rw [← Nat.add_assoc, Nat.add_right_comm, hloop, inflateLoop_succ fuel hstep]

/-- The free part is, or becomes, more than what 32 bits can count. -/
def Truncated {Z : Type} (s : Decompressor Z) : Prop :=
  s.availOut = 0 ∧ 4294967296 ≤ s.sizeOut ∨ s.nextOut + s.availOut.toNat < s.sizeOut ∧ s.availOut ≠ 0

/-- `inflate` is then offered less than what is free. -/
theorem inflateLoop_truncated (hheap : ∀ n, (heap.block n).isSome) (hs : Sound s)
    (h : Truncated s) {fuel : Nat} {r : Bool}
    (hrun : inflateLoop lib heap finish fuel s = some (some r, t)) :
    ∃ c ∈ t.calls, c.nextOut + c.availOut ≠ c.size := by
  cases fuel with
  | zero => cases hrun
  | succ fuel =>
    obtain ⟨u, hu, -, -, -, -, -, hgrown, hstep⟩ := inflateStep_apply finish hheap hs
    obtain ⟨v, hv, hsound, -, -, -, -, -, -, -, hcalls⟩ := inflate_apply finish hu
    have hshort : u.nextOut + u.availOut.toNat ≠ u.sizeOut := by
      rcases h with ⟨hzero, hsize⟩ | ⟨hshort, hne⟩
      · rw [if_pos hzero] at hgrown
        rw [hgrown.1, hgrown.2.1, hgrown.2.2]
        have := (UInt32.ofNat s.sizeOut).toNat_lt
        omega
      · rw [if_neg hne] at hgrown
        rw [hgrown]
        exact Nat.ne_of_lt hshort
    have hcall : ∃ c ∈ v.calls, c.nextOut + c.availOut ≠ c.size := by
      rw [hcalls]
      exact ⟨_, List.mem_append_right _ List.mem_cons_self, hshort⟩
    obtain ⟨step, hone⟩ : ∃ step, inflateStep lib heap finish s = some (step, v) := by
      rw [hstep, Prog.bind_of_some hv]
      split
      · exact ⟨_, rfl⟩
      · exact ⟨_, rfl⟩
    rw [inflateLoop_succ fuel hone] at hrun
    cases step with
    | failed =>
      cases hrun
      exact hcall
    | left =>
      cases hrun
      exact hcall
    | again =>
      obtain ⟨r', w, hloop, -, -, hprefix⟩ := inflateLoop_sound finish hheap fuel hsound
      dsimp only at hrun
      rw [hloop] at hrun
      cases hrun
      obtain ⟨c, hc, hne⟩ := hcall
      exact ⟨c, hprefix.subset hc, hne⟩

/-! ## the result -/

section
variable (lib heap finish)

/-- The loop ends, every call is offered all that is free in the buffer, the message is unpacked if there is no error and
nothing is left of it, and what is handed on is what has been written. -/
def Decompresses (msg : List UInt8) (s : Decompressor lib.Stream) : Prop :=
  ∃ fuel r t, privateDecompress lib heap finish fuel msg s = some (r, t) ∧ r ≠ .unfinished ∧
    (∀ c ∈ t.calls, c.nextOut + c.availOut = c.size) ∧
    ((∀ c ∈ t.calls, ¬Failed c.ret) → t.availIn = 0 → ∃ text, r = .message text) ∧
    ∀ text, r = .message text → text = (t.calls.map InflateCall.produced).flatten

end

end

/-- the progress of a message before the first call -/
def begun (s : Decompressor lib.Stream) (msg : List UInt8) : Progress lib.Stream := ⟨s.stream, terminated msg, []⟩

theorem finishDecompress_calls {left : Option Bool} (hs : Sound s) {r : Received} {u : Decompressor lib.Stream}
    (h : finishDecompress left s = some (r, u)) :
    u.calls = s.calls ∧ (left = none ↔ r = .unfinished) ∧ (left = some true → u.availIn = s.availIn) := by
  match left with
  | none =>
    cases h
    exact ⟨rfl, iff_of_true rfl rfl, nofun⟩
  | some false =>
    cases h
    exact ⟨rfl, iff_of_false nofun nofun, nofun⟩
  | some true =>
    rw [finishDecompress_left hs] at h
    cases h
    refine ⟨rfl, iff_of_false nofun ?_, fun _ => rfl⟩
    split
    · nofun
    · nofun

variable (finish) in
/-- the loop begins with all of the output buffer, as long as 32 bits can count it -/
theorem begun_at (hheap : ∀ n, (heap.block n).isSome) (fuel : Nat) (msg : List UInt8) (s : Decompressor lib.Stream)
    (hfirst : 20 * msg.length < 4294967296) :
    ∃ u, privateDecompress lib heap finish fuel msg s = (inflateLoop lib heap finish fuel >>= finishDecompress) u ∧
      At lib finish (begun s msg) (20 * msg.length) 0 u := by
  obtain ⟨u, hrun, hsound, hstream, -, hcalls, hnext, hsize, havail, hpending⟩ :=
    privateDecompress_apply finish hheap fuel msg s
  have hcount : u.availOut.toNat = 20 * msg.length := by rw [havail, toNat_ofNat hfirst]
  have hempty : written u = [] := by
    unfold written
    rw [hnext, List.take_zero]
  refine ⟨u, hrun, hsound, by rw [hnext, hcount, hsize, Nat.zero_add], hstream, hpending (by omega), hempty, ?_, ?_, ?_⟩
  · rw [hsize, hcount, ite_self]
    rfl
  · rw [hcalls]
    exact fun c hc => absurd hc List.not_mem_nil
  · rw [hcalls, hempty]
    rfl

/-- a number that a property does not hold for, but for all before it -/
theorem exists_first {P : Nat → Prop} [DecidablePred P] (h : ∃ k, ¬P k) : ∃ k, ¬P k ∧ ∀ i < k, P i :=
  ⟨Nat.find h, Nat.find_spec h, fun i hi => not_not.mp (Nat.find_min h hi)⟩

/-- Where everything offered can be counted in 32 bits and the loop ends, the message is unpacked as it should be. -/
theorem decompresses_of_ends (hfinite : Finite lib) (hheap : ∀ n, (heap.block n).isSome) (msg : List UInt8)
    (s : Decompressor lib.Stream) (h : Ends lib finish (begun s msg) (20 * msg.length)) :
    Decompresses lib heap finish msg s := by
  obtain ⟨hends, hsmall⟩ := h
  obtain ⟨k, hk, hbefore⟩ := exists_first (hends.elim (fun hpos => exists_not_fills hfinite rfl hpos) id)
  obtain ⟨u, hrun, hat⟩ := begun_at finish hheap (1 + k) msg s
    (hsmall 0 fun i hi => absurd hi (Nat.not_lt_zero i))
  obtain ⟨v, hv, hloop⟩ := hat.reach hheap rfl k hbefore fun i hi => hsmall i fun j hj => hbefore j (Nat.lt_trans hj hi)
  obtain ⟨w, hstep, hsound, hroom, -, -, htext, havail, c, hcalls, hcall, hret, hproduced⟩ :=
    hv.step hheap (hsmall k hbefore)
  have hgood : ∀ c' ∈ w.calls, c'.nextOut + c'.availOut = c'.size := by
    intro c' hc'
    rw [hcalls] at hc'
    rcases List.mem_append.mp hc' with hc' | hc'
    · exact (hv.calls c' hc').1
    · rw [List.mem_singleton.mp hc']
      exact hcall
  have hlast : c ∈ w.calls := by
    rw [hcalls]
    exact List.mem_append_right _ List.mem_cons_self
  rw [Prog.bind_apply, hloop 1] at hrun
  by_cases hfailed : Failed ((after lib finish (begun s msg) (20 * msg.length) k).result lib finish
      (offered (20 * msg.length) k)).ret
  · rw [if_pos hfailed] at hstep
    rw [inflateLoop_succ 0 hstep] at hrun
    refine ⟨1 + k, .error, w, hrun, nofun, hgood, fun hnone => ?_, nofun⟩
    have := hnone c hlast
    rw [hret] at this
    exact absurd hfailed this
  · have hnotfull : ((after lib finish (begun s msg) (20 * msg.length) k).result lib finish
        (offered (20 * msg.length) k)).produced.length ≠ offered (20 * msg.length) k := fun hfull => hk ⟨hfailed, hfull⟩
    rw [if_neg hfailed, if_neg hnotfull] at hstep
    rw [inflateLoop_succ 0 hstep] at hrun
    refine ⟨1 + k, _, _, hrun.trans (finishDecompress_left hsound), ?_, hgood, ?_, ?_⟩
    · split
      · nofun
      · nofun
    · intro _ hzero
      exact ⟨_, if_neg (not_not.mpr hzero)⟩
    · intro text hmessage
      have hout := hsound.out
      split at hmessage
      · cases hmessage
      · rw [← Received.message.inj hmessage, ← hroom, Nat.add_sub_cancel]
        show written w = (w.calls.map InflateCall.produced).flatten
        rw [hcalls, List.map_append, List.flatten_append, hv.produced, htext, hv.text]
        show _ = _ ++ [c.produced].flatten
        rw [hproduced, List.flatten_singleton]
        rfl

/-- a message that is unpacked as it should be -/
theorem ends_of_decompresses (hheap : ∀ n, (heap.block n).isSome) (msg : List UInt8) (s : Decompressor lib.Stream)
    (h : Decompresses lib heap finish msg s) : Ends lib finish (begun s msg) (20 * msg.length) := by
  obtain ⟨fuel, r, t, hrun, hended, hgood, -⟩ := h
  -- the loop has been left, and the calls are those of the loop
  have hloop : ∀ u, Sound u → privateDecompress lib heap finish fuel msg s
      = (inflateLoop lib heap finish fuel >>= finishDecompress) u →
      ∃ left v, inflateLoop lib heap finish fuel u = some (some left, v) ∧ v.calls = t.calls := by
    intro u hu hstart
    obtain ⟨left, v, hleft, hv, -⟩ := inflateLoop_sound finish hheap fuel hu
    rw [hstart, Prog.bind_of_some hleft] at hrun
    obtain ⟨hcalls, hnone, -⟩ := finishDecompress_calls hv hrun
    cases left with
    | none => exact absurd (hnone.mp rfl) hended
    | some left => exact ⟨left, v, hleft, hcalls.symm⟩
  have hnever : ∀ {u : Decompressor lib.Stream} {fuel : Nat} {left : Bool} {v : Decompressor lib.Stream}, Sound u →
      inflateLoop lib heap finish fuel u = some (some left, v) → v.calls = t.calls → ¬Truncated u := by
    intro u fuel left v hu hleft hcalls htruncated
    obtain ⟨c, hc, hne⟩ := inflateLoop_truncated hheap hu htruncated hleft
    rw [hcalls] at hc
    exact hne (hgood c hc)
  by_cases hfirst : 20 * msg.length < 4294967296
  · obtain ⟨u, hstart, hat⟩ := begun_at finish hheap fuel msg s hfirst
    obtain ⟨left, v, hleft, hcalls⟩ := hloop u hat.sound hstart
    -- where the calls use all that is free, the loop goes on
    have hlonger : ∀ k, (∀ i < k, Fills lib finish (begun s msg) (20 * msg.length) i) →
        (∀ i < k, offered (20 * msg.length) i < 4294967296) → k < fuel := by
      intro k hfills hsmall
      by_contra hle
      obtain ⟨w, -, hreach⟩ :=
        hat.reach hheap rfl fuel (fun i hi => hfills i (by omega)) fun i hi => hsmall i (by omega)
      have hnot := hreach 0
      rw [Nat.zero_add, hleft] at hnot
      cases hnot
    have hsmall : ∀ k, (∀ i < k, Fills lib finish (begun s msg) (20 * msg.length) i) →
        offered (20 * msg.length) k < 4294967296 := by
      intro k
      induction k using Nat.strong_induction_on with
      | _ k ih =>
        intro hfills
        have hbefore : ∀ i < k, offered (20 * msg.length) i < 4294967296 := fun i hi =>
          ih i hi fun j hj => hfills j (Nat.lt_trans hj hi)
        by_contra hlarge
        obtain ⟨w, hw, hreach⟩ := hat.reach hheap rfl k hfills hbefore
        have hlt := hlonger k hfills hbefore
        have hrest := hreach (fuel - k)
        rw [Nat.sub_add_cancel (Nat.le_of_lt hlt), hleft] at hrest
        refine hnever hw.sound hrest.symm hcalls ?_
        have hfree := hw.free
        by_cases hzero : w.availOut = 0
        · rw [if_pos hzero] at hfree
          exact Or.inl ⟨hzero, by omega⟩
        · rw [if_neg hzero] at hfree
          have := w.availOut.toNat_lt
          omega
    refine ⟨?_, hsmall⟩
    by_contra hnone
    have hfills : ∀ k, Fills lib finish (begun s msg) (20 * msg.length) k := fun k =>
      not_not.mp fun h => hnone (Or.inr ⟨k, h⟩)
    exact Nat.lt_irrefl fuel (hlonger fuel (fun i _ => hfills i) fun i _ => hsmall i fun j _ => hfills j)
  · obtain ⟨u, hstart, hu, -, -, -, hnext, hsize, havail, -⟩ :=
      privateDecompress_apply finish hheap fuel msg s
    obtain ⟨left, v, hleft, hcalls⟩ := hloop u hu hstart
    refine absurd ?_ (hnever hu hleft hcalls)
    by_cases hzero : u.availOut = 0
    · exact Or.inl ⟨hzero, by omega⟩
    · refine Or.inr ⟨?_, hzero⟩
      have := u.availOut.toNat_lt
      omega

/-- A message is unpacked as it should be exactly if the loop ends for it and 32 bits can count what it offers. -/
theorem decompresses_iff (hfinite : Finite lib) (hheap : ∀ n, (heap.block n).isSome) (msg : List UInt8)
    (s : Decompressor lib.Stream) :
    Decompresses lib heap finish msg s ↔ Ends lib finish (begun s msg) (20 * msg.length) :=
  ⟨ends_of_decompresses hheap msg s, decompresses_of_ends hfinite hheap msg s⟩

end

/-! ## a message of one character and an empty one -/

/-- the letter a, as it arrives, with the end that is added -/
def packedA : List UInt8 := [0x4a, 0x04, 0x00, 0x00, 0x00, 0xFF, 0xFF]

/-- zlib for this message; of any other nothing comes out -/
def smallZlib : Zlib where
  Stream := Unit
  inflate := fun _ _ input availOut =>
    if input = packedA then
      if availOut = 0 then ⟨(), 0, [], Z_BUF_ERROR⟩ else ⟨(), 7, [0x61], 0⟩
    else ⟨(), input.length, [], if input = [] then Z_BUF_ERROR else 0⟩
  consumed_le := by
    intro _ _ input availOut
    split
    · rename_i h
      rw [h]
      split <;> decide
    · exact Nat.le_refl _
  produced_le := by
    intro _ _ input availOut
    split
    · split
      · exact Nat.zero_le _
      · exact Nat.one_le_iff_ne_zero.mpr ‹_›
    · exact Nat.zero_le _

theorem smallZlib_result (finish : Bool) (p : Progress smallZlib.Stream) (availOut : Nat) :
    p.result smallZlib finish availOut =
      if p.input = packedA then
        if availOut = 0 then ⟨(), 0, [], Z_BUF_ERROR⟩ else ⟨(), 7, [0x61], 0⟩
      else ⟨(), p.input.length, [], if p.input = [] then Z_BUF_ERROR else 0⟩ := rfl

/-- nothing comes out of any other input -/
theorem smallZlib_other (finish : Bool) {p : Progress smallZlib.Stream} (h : p.input ≠ packedA) (offers : List Nat) :
    (offers.foldl (Progress.call smallZlib finish) p).written = p.written := by
  induction offers generalizing p with
  | nil => rfl
  | cons availOut offers ih =>
    have hcall : p.call smallZlib finish availOut = ⟨(), [], p.written⟩ := by
      unfold Progress.call
      rw [smallZlib_result, if_neg h]
      dsimp only
      rw [List.drop_length, List.append_nil]
    rw [List.foldl_cons, hcall, ih (show ([] : List UInt8) ≠ packedA by decide)]

theorem smallZlib_finite : Finite smallZlib := by
  intro finish p
  refine ⟨p.written.length + 1, fun offers => ?_⟩
  induction offers generalizing p with
  | nil => exact Nat.le_succ _
  | cons availOut offers ih =>
    rw [List.foldl_cons]
    by_cases h : p.input = packedA
    · by_cases hzero : availOut = 0
      · have hcall : p.call smallZlib finish availOut = p := by
          unfold Progress.call
          rw [smallZlib_result, if_pos h, if_pos hzero]
          dsimp only
          rw [List.drop_zero, List.append_nil]
          rfl
        rw [hcall]
        exact ih p
      · have hcall : p.call smallZlib finish availOut = ⟨(), [], p.written ++ [0x61]⟩ := by
          unfold Progress.call
          rw [smallZlib_result, if_pos h, if_neg hzero, h]
          rfl
        rw [hcall, smallZlib_other finish (show ([] : List UInt8) ≠ packedA by decide), List.length_append]
        exact Nat.le_refl _
    · rw [← List.foldl_cons (f := Progress.call smallZlib finish), smallZlib_other finish h]
      exact Nat.le_succ _

/-- as much memory as is asked for -/
def plenty : Heap where
  block := fun n => some (List.replicate n 0)
  length_block := by
    intro n b h
    rw [← Option.some.inj h]
    exact List.length_replicate

theorem plenty_block (n : Nat) : (plenty.block n).isSome := rfl

/-- the stream after the upgrade -/
def unused : Decompressor smallZlib.Stream where
  stream := ()
  block := none
  nextIn := 0
  availIn := 0
  out := []
  sizeOut := 0
  nextOut := 0
  availOut := 0
  handed := []
  calls := []

theorem decompresses_iff_packedA :
    Decompresses smallZlib plenty false [0x4a, 0x04, 0x00] unused ↔
      Ends smallZlib false (begun unused [0x4a, 0x04, 0x00]) (20 * 3) :=
  decompresses_iff smallZlib_finite plenty_block [0x4a, 0x04, 0x00] unused

/-- For an empty message the output buffer is empty and stays so. -/
theorem empty_message_loops : ¬Decompresses smallZlib plenty false [] unused := by
  intro h
  obtain ⟨hends, -⟩ := ends_of_decompresses plenty_block [] unused h
  rcases hends with hpos | ⟨k, hk⟩
  · exact absurd hpos (by decide)
  · refine hk ?_
    have hoffered : offered (20 * ([] : List UInt8).length) k = 0 := by
      cases k with
      | zero => rfl
      | succ k => exact Nat.zero_mul _
    unfold Fills Progress.Full
    rw [hoffered, smallZlib_result]
    split
    · exact ⟨by decide, rfl⟩
    · refine ⟨?_, rfl⟩
      dsimp only
      split
      · decide
      · decide

end Compression
end Cjet
