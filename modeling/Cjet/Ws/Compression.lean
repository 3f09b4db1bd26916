import Cjet.Lib.Block
import Cjet.Ws.Websocket

/-!
# Compressed messages (`compression.c`)

zlib is not part of the repository: what `inflate` does is a parameter.

* `Decompressor`          the stream of the received messages, and the buffers that belong to it;
* `reassemble`            the fragments of a message are put one behind the other; the block begins with its own size;
* `inflateStep`, `privateDecompress`   the loop that unpacks a message;
* `frameReceived`         a fragment.

What is outside of a block can neither be read nor written.
-/

set_option linter.unusedVariables false

namespace Cjet
open Stateful

namespace Compression

/-- what a call of `inflate` has done -/
structure InflateResult (Z : Type) where
  stream : Z
  consumed : Nat
  produced : List UInt8
  ret : Int

abbrev Z_BUF_ERROR : Int := -5

/-- zlib: `inflate` with `Z_FINISH` or with `Z_SYNC_FLUSH`.  It reads and writes no more than what it is given. -/
structure Zlib where
  Stream : Type
  inflate : (finish : Bool) → Stream → (input : List UInt8) → (availOut : Nat) → InflateResult Stream
  consumed_le : ∀ finish z input availOut, (inflate finish z input availOut).consumed ≤ input.length
  produced_le : ∀ finish z input availOut, (inflate finish z input availOut).produced.length ≤ availOut

/-- `malloc` and `realloc`: the block for a size, where there is enough memory -/
structure Heap where
  block : Nat → Option (List UInt8)
  length_block : ∀ n b, block n = some b → b.length = n

/-- a call of `inflate`: the size of the output buffer, where it writes and what it is given there, and what it has done -/
structure InflateCall where
  size : Nat
  nextOut : Nat
  availOut : Nat
  produced : List UInt8
  ret : Int

/-- `strm_decomp` with the buffers behind its pointers -/
structure Decompressor (Z : Type) where
  stream : Z
  /-- the block that `next_in` points to, if there is one, and where -/
  block : Option (List UInt8)
  nextIn : Nat
  availIn : UInt32
  /-- the block at `*free_ptr`, its size, and where `next_out` points to in it -/
  out : List UInt8
  sizeOut : Nat
  nextOut : Nat
  availOut : UInt32
  /-- ghosts: what has been handed to `private_decompress`, and the calls of `inflate` for it -/
  handed : List (List UInt8)
  calls : List InflateCall

/-- what becomes of a message; it may be that the loop has not ended yet -/
inductive Received where
  | unfinished
  | error
  | more
  | message (text : List UInt8)
  deriving DecidableEq

section
variable {Z : Type}

theorem toNat_ofNat {n : Nat} (h : n < 4294967296) : (UInt32.ofNat n).toNat = n := by
  rw [UInt32.toNat_ofNat']
  exact Nat.mod_eq_of_lt h

theorem deref_block {α : Type} {s : Decompressor Z} {block : List UInt8} (hblock : s.block = some block)
    {f : List UInt8 → Option α} {a : α} (h : f block = some a) :
    Prog.deref (fun s : Decompressor Z => s.block.bind f) s = some (a, s) :=
  Prog.deref_of_some (by rw [hblock, Option.bind_some, h])

theorem deref_block_none {α : Type} {s : Decompressor Z} {block : List UInt8} (hblock : s.block = some block)
    {f : List UInt8 → Option α} (h : f block = none) : Prog.deref (fun s : Decompressor Z => s.block.bind f) s = none :=
  Prog.deref_of_none (by rw [hblock, Option.bind_some, h])

/-! ## putting fragments together -/

/-- `(num >> shift) & 0xFF` -/
def byteOf (num shift : UInt32) : UInt8 := ((num >>> shift) &&& 0xFF).toUInt8

/-- the bytes of `write_int_to_array` -/
def intBytes (num : UInt32) : List UInt8 := [byteOf num 0, byteOf num 8, byteOf num 16, byteOf num 24]

/-- `write_int_to_array` at the beginning of the block -/
def writeIntToArray (num : UInt32) : Prog (Decompressor Z) Unit := do
  let block ← Prog.deref fun s => s.block.bind fun b => Block.store b 0 (intBytes num)
  Prog.update fun s => { s with block := some block }

/-- `(byte << shift) & mask` -/
def shifted (byte : UInt8) (shift mask : UInt32) : UInt32 := (byte.toUInt32 <<< shift) &&& mask

/-- what `read_int_from_array` makes of four bytes -/
def bytesInt : List UInt8 → UInt32
  | [a, b, c, d] => shifted a 0 0xFF ||| shifted b 8 0xFF00 ||| shifted c 16 0xFF0000 ||| shifted d 24 0xFF000000
  | _ => 0

/-- `read_int_from_array` -/
def readIntFromArray : Prog (Decompressor Z) UInt32 := do
  let bytes ← Prog.deref fun s => s.block.bind fun b => Block.load b 0 4
  return bytesInt bytes

/-- the block for the first fragment; false where there is no memory -/
def startBlock (heap : Heap) (length : Nat) : Prog (Decompressor Z) Bool := do
  let memory := UInt32.ofNat (length * 3 + 4)
  match heap.block memory.toNat with
  | none =>
    Prog.update fun s => { s with block := none, availIn := 0 }
    return false
  | some block =>
    Prog.update fun s => { s with block := some block, nextIn := 0, availIn := memory - 4 }
    writeIntToArray memory
    return true

/-- the block is made twice as large -/
def growBlock (heap : Heap) : Prog (Decompressor Z) Bool := do
  let size ← readIntFromArray
  let nextSize := size * 2
  match heap.block nextSize.toNat with
  | none =>
    Prog.update fun s => { s with block := none, availIn := 0 }
    return false
  | some fresh =>
    Prog.update fun s => { s with block := s.block.map fun b => Block.resize b fresh
                                  availIn := s.availIn + nextSize / 2 }
    writeIntToArray nextSize
    return true

/-- the fragment is copied behind the others -/
def appendFragment (msg : List UInt8) : Prog (Decompressor Z) Unit := do
  let size ← readIntFromArray
  let availIn ← Prog.read fun s => s.availIn
  let writeOffset := size - availIn
  let block ← Prog.deref fun s => s.block.bind fun b => Block.store b writeOffset.toNat msg
  Prog.update fun s => { s with block := some block, availIn := s.availIn - UInt32.ofNat msg.length }

/-- `reassemble`: does it return 0? -/
def reassemble (heap : Heap) (msg : List UInt8) : Prog (Decompressor Z) Bool := do
  if msg.length = 0 then return true
  else
    let availIn ← Prog.read fun s => s.availIn
    let started ← if availIn = 0 then startBlock heap msg.length else pure true
    if !started then return false
    else
      let availIn ← Prog.read fun s => s.availIn
      let grown ← if availIn.toNat ≤ msg.length + 4 then growBlock heap else pure true
      if !grown then return false
      else
        appendFragment msg
        return true

end

/-! ## unpacking a message -/

/-- how an iteration of the loop ends -/
inductive LoopStep where
  | failed
  | again
  | left
  deriving DecidableEq

/-- `private_decompress` behind its loop: was the loop left, did it fail, or has it not ended? -/
def finishDecompress {Z : Type} : Option Bool → Prog (Decompressor Z) Received
  | none => pure .unfinished
  | some false => pure .error
  | some true => do
    -- `free(in)`
    Prog.update fun s => { s with block := none }
    let s ← Prog.read id
    if s.availIn ≠ 0 then return .error
    else
      let text ← Prog.deref fun s => Block.load s.out 0 (s.sizeOut - s.availOut.toNat)
      return .message text

section
variable (lib : Zlib) (heap : Heap) (finish : Bool)

/-- the output buffer is full: it is made twice as large -/
def growOutput : Prog (Decompressor lib.Stream) Bool := do
  let sizeOut ← Prog.read fun s => s.sizeOut
  match heap.block (sizeOut * 2) with
  | none => return false
  | some fresh =>
    Prog.update fun s => { s with availOut := s.availOut + UInt32.ofNat sizeOut
                                  sizeOut := sizeOut * 2
                                  out := Block.resize s.out fresh
                                  nextOut := sizeOut * 2 / 2 }
    return true

/-- a call of `inflate` with what is in the stream -/
def inflate : Prog (Decompressor lib.Stream) Int := do
  let s ← Prog.read id
  let input ← Prog.deref fun s => s.block.bind fun b => Block.load b s.nextIn s.availIn.toNat
  let r := lib.inflate finish s.stream input s.availOut.toNat
  let out ← Prog.deref fun s => Block.store s.out s.nextOut r.produced
  Prog.update fun s =>
    { s with stream := r.stream
             nextIn := s.nextIn + r.consumed
             availIn := s.availIn - UInt32.ofNat r.consumed
             out := out
             nextOut := s.nextOut + r.produced.length
             availOut := s.availOut - UInt32.ofNat r.produced.length
             calls := s.calls ++ [⟨s.sizeOut, s.nextOut, s.availOut.toNat, r.produced, r.ret⟩] }
  return r.ret

/-- an iteration of the loop of `private_decompress` -/
def inflateStep : Prog (Decompressor lib.Stream) LoopStep := do
  let availOut ← Prog.read fun s => s.availOut
  let grown ← if availOut = 0 then growOutput lib heap else pure true
  if !grown then return .failed
  else
    let ret ← inflate lib finish
    if ret < 0 ∧ ret ≠ Z_BUF_ERROR then return .failed
    else
      let availOut ← Prog.read fun s => s.availOut
      return if availOut = 0 then .again else .left

/-- the loop; no result where it has not ended after `fuel` iterations -/
def inflateLoop : (fuel : Nat) → Prog (Decompressor lib.Stream) (Option Bool)
  | 0 => pure none
  | fuel + 1 => do
    match ← inflateStep lib heap finish with
    | .failed => return some false
    | .again => inflateLoop fuel
    | .left => return some true

/-- `private_decompress` -/
def privateDecompress (fuel : Nat) (msg : List UInt8) : Prog (Decompressor lib.Stream) Received := do
  Prog.update fun s => { s with availIn := UInt32.ofNat (msg.length + 4), handed := s.handed ++ [msg], calls := [] }
  match heap.block (msg.length + 4) with
  | none => return .error
  | some block =>
    let block ← Prog.deref fun _ => Block.store block 0 (msg ++ [0x00, 0x00, 0xFF, 0xFF])
    let sizeOut := 20 * msg.length
    Prog.update fun s => { s with block := some block, nextIn := 0, sizeOut := sizeOut
                                  availOut := UInt32.ofNat sizeOut }
    match heap.block sizeOut with
    | none => return .error
    | some out =>
      Prog.update fun s => { s with out := out, nextOut := 0 }
      let left ← inflateLoop lib heap finish fuel
      finishDecompress left

/-! ## a fragment -/

/-- the fragments are moved to the beginning of the block and unpacked -/
def handOver (fuel : Nat) : Prog (Decompressor lib.Stream) Received := do
  let size ← readIntFromArray
  let availIn ← Prog.read fun s => s.availIn
  let sumLen := (size - availIn - 4).toNat
  let moved ← Prog.deref fun s => s.block.bind fun b => Block.load b 4 sumLen
  let block ← Prog.deref fun s => s.block.bind fun b => Block.store b 0 moved
  Prog.update fun s => { s with block := some block }
  privateDecompress lib heap finish fuel moved

/-- `text_frame_received_comp` and `binary_frame_received_comp` for a compressed fragment, up to the callback -/
def frameReceived (fuel : Nat) (msg : List UInt8) (isLastFrame : Bool) : Prog (Decompressor lib.Stream) Received := do
  if !(← reassemble heap msg) then return .error
  else if !isLastFrame then return .more
  else handOver lib heap finish fuel

/-- the fragments of a message, the last one with its flag -/
def messageReceived (fuel : Nat) : (fragments : List (List UInt8)) → Prog (Decompressor lib.Stream) Received
  | [] => pure .more
  | [last] => frameReceived lib heap finish fuel last true
  | msg :: rest => do
    match ← frameReceived lib heap finish fuel msg false with
    | .more => messageReceived fuel rest
    | r => return r

end

end Compression
end Cjet
