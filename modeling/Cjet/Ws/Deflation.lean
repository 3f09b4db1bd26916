import Cjet.Ws.Inflation
import Cjet.Ws.Installed
import Cjet.Ws.Sending

/-!
# Compressed frames (`websocket_compress`, `send_frame`)

zlib is not part of the repository: what `deflate` does is a parameter.

* `websocketCompress`, `sendFrame`   the code, with its conversions between `size_t`, `unsigned int` and `int`;
* `Consistent`          a frame that holds what it declares, or an error;
* `Deflates`            all of the output is written, with its end, and its length is an `int`;
* `consistent_iff`      these are the frames that are consistent.
-/

set_option linter.unusedVariables false

namespace Cjet
open Stateful Websocket

namespace Compression

/-- zlib: `deflate` with `Z_FULL_FLUSH` or with `Z_SYNC_FLUSH`, in the state that it is in.  It writes as much of its output
as there is room for, or less. -/
structure Deflater where
  /-- all that there is to write for the input, up to and with the flush -/
  output : (full : Bool) → (input : List UInt8) → List UInt8
  /-- what is returned, and how many bytes of the output are written -/
  deflate : (full : Bool) → (input : List UInt8) → (availOut : Nat) → Int × Nat
  count_le : ∀ full input availOut, (deflate full input availOut).2 ≤ availOut
  count_le_output : ∀ full input availOut, (deflate full input availOut).2 ≤ (output full input).length

/-- an `unsigned int` as an `int` -/
def toInt (n : UInt32) : Int := if n.toNat < 2147483648 then n.toNat else n.toNat - 4294967296

/-- an `int` as a `size_t` -/
def toSize (n : Int) : Nat := (n % 18446744073709551616).toNat

/-- what `websocket_compress` returns and has left in `dest`, and what it has compressed -/
structure Compressed where
  ret : Int
  dest : List UInt8
  source : List UInt8

/-- a call of `writev`: the header, the memory at the payload and the length that goes with it; and what it is made of -/
structure Sent where
  header : List UInt8
  memory : List UInt8
  length : Nat
  source : List UInt8

section
variable (z : Deflater) (full : Bool) (w : World)

/-- `websocket_compress` -/
def websocketCompress (s : Websocket) (dest src : List UInt8) : Option Compressed :=
  if s.compressionLevel = 0 then
    (Block.store dest 0 src).map fun dest => ⟨toInt (UInt32.ofNat src.length), dest, src⟩
  else
    let availIn := UInt32.ofNat src.length
    let availOut := UInt32.ofNat (src.length * 2)
    let input := src.take availIn.toNat
    let (ret, count) := z.deflate full input availOut.toNat
    (Block.store dest 0 ((z.output full input).take count)).bind fun dest =>
      if ret < 0 then some ⟨-1, dest, input⟩
      else
        let length := UInt32.ofNat (src.length * 2) - (availOut - UInt32.ofNat count)
        -- the end that is taken away is looked at, but not what is found there
        (Block.load dest (length - 1).toNat 1).bind fun _ =>
          (Block.load dest (length - 2).toNat 1).bind fun _ =>
            (Block.load dest (length - 3).toNat 1).bind fun _ =>
              (Block.load dest (length - 4).toNat 1).bind fun _ =>
                some ⟨toInt (length - 4), dest, input⟩

/-- `send_frame` from the header on -/
def writeFrame (s : Websocket) (opcode : BitVec 4) (rsv : UInt8) (memory source : List UInt8) (length : Nat) :
    Option Sent :=
  let header := frameHeader opcode rsv (!s.isServer) length
  if s.isServer then some ⟨header, memory, length, source⟩
  else
    let mask := w.random s.log
    (Block.load memory 0 length).bind fun payload =>
      (Block.store memory 0 (unmaskPayload w.wordSize (w.address s.log) payload mask)).map fun memory =>
        ⟨header ++ mask.toList, memory, length, source⟩

/-- `send_frame` with the block for the compressed payload: what is written, and is that reported as a success? -/
def sendFrame (s : Websocket) (opcode : BitVec 4) (payloadComp payload : List UInt8) : Option (List Sent × Bool) :=
  if s.accepted && decide (opcode < WS_CLOSE_FRAME) then
    (websocketCompress z full s payloadComp payload).bind fun c =>
      (writeFrame w s opcode 0x40 c.dest c.source (toSize c.ret)).map fun call =>
        ([call], w.writes (s.log ++ [.writev (call.header ++ call.memory.take call.length)]))
  else
    (writeFrame w s opcode 0 payload payload payload.length).map fun call =>
      ([call], w.writes (s.log ++ [.writev (call.header ++ call.memory.take call.length)]))

end

/-! ## the frame -/

/-- the frame for a compressed payload -/
def compressedFrame (opcode : BitVec 4) (mask : Option (Vector UInt8 4)) (body : List UInt8)
    (h : body.length < 18446744073709551616) : Frame :=
  { sentFrame opcode mask body h with rsv := PER_MESSAGE_COMPRESSED_BIT }

theorem compressedHeader_first : ∀ opcode : BitVec 4,
    UInt8.ofNat opcode.toNat ||| WS_HEADER_FIN ||| 0x40 = firstByte true PER_MESSAGE_COMPRESSED_BIT opcode := by
  decide +kernel

theorem compressedFrame_bytes (opcode : BitVec 4) (mask : Option (Vector UInt8 4)) (body : List UInt8)
    (h : body.length < 18446744073709551616) :
    (compressedFrame opcode mask body h).bytes
      = frameHeader opcode 0x40 mask.isSome body.length ++ (mask.map fun mask => mask.toList).getD []
        ++ (compressedFrame opcode mask body h).wirePayload :=
  bytes_eq (compressedFrame opcode mask body h) rfl rfl (compressedHeader_first opcode)

section
variable {z : Deflater} {full : Bool} {w : World} {s : Websocket} {opcode : BitVec 4} {rsv : UInt8}
  {memory source dest payload body : List UInt8} {length : Nat} {call : Sent}

theorem writeFrame_fields (h : writeFrame w s opcode rsv memory source length = some call) :
    call.length = length ∧ call.memory.length = memory.length ∧ call.source = source := by
  unfold writeFrame at h
  by_cases hserver : s.isServer = true
  · rw [if_pos hserver] at h
    cases h
    exact ⟨rfl, rfl, rfl⟩
  · rw [if_neg hserver] at h
    obtain ⟨text, -, h⟩ := Option.bind_eq_some_iff.mp h
    obtain ⟨masked, hstore, h⟩ := Option.map_eq_some_iff.mp h
    cases h
    exact ⟨rfl, Block.length_of_store hstore, rfl⟩

variable (w s) in
/-- A length that is inside of the memory: the frame is the one for the bytes there. -/
theorem writeFrame_apply (opcode : BitVec 4) (source : List UInt8) (hle : length ≤ memory.length)
    (hlt : (memory.take length).length < 18446744073709551616) :
    ∃ call, writeFrame w s opcode 0x40 memory source length = some call ∧
      call.header ++ call.memory.take length
        = (compressedFrame opcode (sentMask w s) (memory.take length) hlt).bytes := by
  have hlen : (memory.take length).length = length := by rw [List.length_take, Nat.min_eq_left hle]
  rw [compressedFrame_bytes, sentMask_isSome, hlen]
  unfold writeFrame sentMask Frame.wirePayload compressedFrame
  dsimp only
  by_cases hserver : s.isServer = true
  · rw [if_pos hserver, if_pos hserver]
    refine ⟨_, rfl, ?_⟩
    exact congrArg (· ++ memory.take length) (List.append_nil _).symm
  · have hload : Block.load memory 0 length = some (memory.take length) := by
      rw [Block.load_of_le (by omega), List.drop_zero]
    have hmasked : (unmaskBytes (w.random s.log) 0 (memory.take length)).length = length := by
      rw [length_unmaskBytes, hlen]
    obtain ⟨memory', hstore⟩ : ∃ memory', Block.store memory 0 (unmaskBytes (w.random s.log) 0 (memory.take length))
        = some memory' := ⟨_, Block.store_of_le (by omega)⟩
    have htake := Block.take_store hstore
    rw [List.take_zero, List.nil_append, Nat.zero_add, hmasked] at htake
    rw [if_neg hserver, if_neg hserver, hload, Option.bind_some,
      unmaskPayload_eq (w.random s.log) w.wordSize_eq, hstore]
    refine ⟨_, rfl, ?_⟩
    show _ ++ memory'.take length = _
    rw [htake]
    rfl

/-- A frame says how long it is and what is in it. -/
theorem body_of_bytes {a b : List UInt8} {mask : Option (Vector UInt8 4)} {ha : a.length < 18446744073709551616}
    {hb : b.length < 18446744073709551616} (hlen : a.length = b.length)
    (h : (compressedFrame opcode mask a ha).bytes = (compressedFrame opcode mask b hb).bytes) : a = b := by
  rw [compressedFrame_bytes, compressedFrame_bytes, hlen] at h
  have hwire := List.append_cancel_left h
  cases mask with
  | none => exact hwire
  | some mask =>
    have hwire : unmaskBytes mask 0 a = unmaskBytes mask 0 b := hwire
    rw [← unmaskBytes_unmaskBytes mask 0 a, hwire, unmaskBytes_unmaskBytes]

/-! ## lengths -/

/-- the bytes that have been written, as the code counts them -/
theorem counted (a c : UInt32) : a - (a - c) = c := by
  apply UInt32.toNat_inj.mp
  have ha := a.toNat_lt
  have hc := c.toNat_lt
  rw [UInt32.toNat_sub, UInt32.toNat_sub]
  omega

/-- Four bytes less as an `int`: the length, or one that no memory has. -/
theorem toSize_count {count : Nat} (h : count < 4294967296) :
    if 4 ≤ count ∧ count < 2147483652 then toSize (toInt (UInt32.ofNat count - 4)) = count - 4
    else 9223372036854775808 ≤ toSize (toInt (UInt32.ofNat count - 4)) := by
  have hnat : (UInt32.ofNat count - 4).toNat = (4294967292 + count) % 4294967296 := by
    rw [UInt32.toNat_sub, toNat_ofNat h]
    rfl
  unfold toSize toInt
  rw [hnat]
  split <;> split <;> omega

theorem toSize_error : 9223372036854775808 ≤ toSize (-1) := by decide

section
variable (z full payload)

/-- what `deflate` does when it is given all of the payload -/
def deflated : Int × Nat := z.deflate full payload (payload.length * 2 % 4294967296)

end

variable (z full) in
/-- what `websocket_compress` makes of a payload whose length has 32 bits -/
theorem websocketCompress_small (hlevel : s.compressionLevel ≠ 0) (hdest : dest.length = 2 * payload.length)
    (hsmall : payload.length < 4294967296) :
    ∃ dest', dest'.length = dest.length ∧
      dest'.take (deflated z full payload).2 = (z.output full payload).take (deflated z full payload).2 ∧
      websocketCompress z full s dest payload =
        if (deflated z full payload).1 < 0 then some ⟨-1, dest', payload⟩
        else
          (Block.load dest' (UInt32.ofNat (deflated z full payload).2 - 1).toNat 1).bind fun _ =>
            (Block.load dest' (UInt32.ofNat (deflated z full payload).2 - 2).toNat 1).bind fun _ =>
              (Block.load dest' (UInt32.ofNat (deflated z full payload).2 - 3).toNat 1).bind fun _ =>
                (Block.load dest' (UInt32.ofNat (deflated z full payload).2 - 4).toNat 1).bind fun _ =>
                  some ⟨toInt (UInt32.ofNat (deflated z full payload).2 - 4), dest', payload⟩ := by
  have hinput : payload.take (UInt32.ofNat payload.length).toNat = payload := by
    rw [toNat_ofNat hsmall, List.take_length]
  have havail : (UInt32.ofNat (payload.length * 2)).toNat = payload.length * 2 % 4294967296 := UInt32.toNat_ofNat'
  have hcount := z.count_le full payload (payload.length * 2 % 4294967296)
  have houtput := z.count_le_output full payload (payload.length * 2 % 4294967296)
  have hlen : ((z.output full payload).take (deflated z full payload).2).length = (deflated z full payload).2 := by
    rw [List.length_take]
    exact Nat.min_eq_left houtput
  obtain ⟨dest', hstore⟩ : ∃ dest', Block.store dest 0 ((z.output full payload).take (deflated z full payload).2)
      = some dest' := by
    refine ⟨_, Block.store_of_le ?_⟩
    rw [hlen]
    show 0 + (z.deflate full payload (payload.length * 2 % 4294967296)).2 ≤ dest.length
    omega
  have htake := Block.take_store hstore
  rw [List.take_zero, List.nil_append, Nat.zero_add, hlen] at htake
  refine ⟨dest', Block.length_of_store hstore, htake, ?_⟩
  unfold websocketCompress
  rw [if_neg hlevel]
  dsimp only
  rw [hinput, havail]
  show (Block.store dest 0 ((z.output full payload).take (deflated z full payload).2)).bind _ = _
  rw [hstore, Option.bind_some, counted]
  rfl

theorem websocketCompress_fields (hlevel : s.compressionLevel ≠ 0) {c : Compressed}
    (h : websocketCompress z full s dest payload = some c) :
    c.dest.length = dest.length ∧ c.source = payload.take (UInt32.ofNat payload.length).toNat := by
  unfold websocketCompress at h
  rw [if_neg hlevel] at h
  obtain ⟨dest', hstore, h⟩ := Option.bind_eq_some_iff.mp h
  have hlen := Block.length_of_store hstore
  split at h
  · cases h
    exact ⟨hlen, rfl⟩
  · obtain ⟨-, -, h⟩ := Option.bind_eq_some_iff.mp h
    obtain ⟨-, -, h⟩ := Option.bind_eq_some_iff.mp h
    obtain ⟨-, -, h⟩ := Option.bind_eq_some_iff.mp h
    obtain ⟨-, -, h⟩ := Option.bind_eq_some_iff.mp h
    cases h
    exact ⟨hlen, rfl⟩

section
variable (z full payload)

/-- `deflate` reports no error and writes all of its output, which has the end that is taken away, and what is left has a
length that an `int` can hold. -/
def Deflates : Prop :=
  payload.length < 4294967296 ∧ 0 ≤ (deflated z full payload).1 ∧
    (deflated z full payload).2 = (z.output full payload).length ∧
    ∃ text, z.output full payload = terminated text ∧ text.length < 2147483648

end

theorem length_terminated (text : List UInt8) : (terminated text).length = text.length + 4 := List.length_append

/-- the end of the output is inside of the block -/
theorem load_end {count : Nat} {k : UInt32} (hcount : count < 4294967296) (hk : 0 < k.toNat) (hle : k.toNat ≤ count)
    (hdest : count ≤ dest.length) : ∃ bytes, Block.load dest (UInt32.ofNat count - k).toNat 1 = some bytes := by
  have hn := toNat_ofNat hcount
  refine ⟨_, Block.load_of_le ?_⟩
  rw [UInt32.toNat_sub_of_le _ _ (by rw [UInt32.le_iff_toNat_le, hn]; exact hle), hn]
  omega

theorem websocketCompress_deflates (hlevel : s.compressionLevel ≠ 0) (hdest : dest.length = 2 * payload.length)
    (h : Deflates z full payload) :
    ∃ c, websocketCompress z full s dest payload = some c ∧ toSize c.ret ≤ c.dest.length ∧ c.dest.length = dest.length ∧
      terminated (c.dest.take (toSize c.ret)) = z.output full payload ∧ c.source = payload := by
  obtain ⟨hsmall, hret, hall, text, htext, hint⟩ := h
  obtain ⟨dest', hlen, htake, hrun⟩ := websocketCompress_small z full hlevel hdest hsmall
  have hcount : (deflated z full payload).2 ≤ payload.length * 2 % 4294967296 := z.count_le _ _ _
  rw [hall, htext, length_terminated] at hcount hrun htake
  rw [List.take_of_length_le (Nat.le_of_eq (length_terminated text))] at htake
  have hle : text.length + 4 ≤ dest'.length := by omega
  have hlt : text.length + 4 < 4294967296 := by omega
  have hfour : 4 ≤ text.length + 4 := Nat.le_add_left 4 _
  obtain ⟨b₁, h₁⟩ := load_end (k := 1) hlt (by decide) (Nat.le_trans (by decide) hfour) hle
  obtain ⟨b₂, h₂⟩ := load_end (k := 2) hlt (by decide) (Nat.le_trans (by decide) hfour) hle
  obtain ⟨b₃, h₃⟩ := load_end (k := 3) hlt (by decide) (Nat.le_trans (by decide) hfour) hle
  obtain ⟨b₄, h₄⟩ := load_end (k := 4) hlt (by decide) hfour hle
  have hsize := toSize_count hlt
  rw [if_pos (by omega), Nat.add_sub_cancel] at hsize
  refine ⟨⟨toInt (UInt32.ofNat (text.length + 4) - 4), dest', payload⟩, ?_, ?_, hlen, ?_, rfl⟩
  · rw [hrun, if_neg (by omega)]
    rw [h₁, Option.bind_some, h₂, Option.bind_some, h₃, Option.bind_some, h₄, Option.bind_some]
  · show toSize (toInt (UInt32.ofNat (text.length + 4) - 4)) ≤ dest'.length
    omega
  · show terminated (dest'.take (toSize (toInt (UInt32.ofNat (text.length + 4) - 4)))) = z.output full payload
    have hshort := congrArg (List.take text.length) htake
    rw [List.take_take, Nat.min_eq_left (Nat.le_add_right _ 4)] at hshort
    rw [hsize, htext, hshort]
    exact congrArg terminated (List.take_left' rfl)

theorem deflates_of_compress (hlevel : s.compressionLevel ≠ 0) (hdest : dest.length = 2 * payload.length)
    (hobject : dest.length < 9223372036854775808) {c : Compressed}
    (h : websocketCompress z full s dest payload = some c) (hsource : c.source = payload)
    (hsize : toSize c.ret ≤ c.dest.length) (hbody : terminated (c.dest.take (toSize c.ret)) = z.output full payload) :
    Deflates z full payload := by
  obtain ⟨hlen, htaken⟩ := websocketCompress_fields hlevel h
  have hsmall : payload.length < 4294967296 := by
    have htake := congrArg List.length (htaken.symm.trans hsource)
    rw [List.length_take] at htake
    have := (UInt32.ofNat payload.length).toNat_lt
    omega
  obtain ⟨dest', hlen', htake, hrun⟩ := websocketCompress_small z full hlevel hdest hsmall
  have hcount : (deflated z full payload).2 ≤ payload.length * 2 % 4294967296 := z.count_le _ _ _
  rw [h] at hrun
  by_cases herror : (deflated z full payload).1 < 0
  · rw [if_pos herror] at hrun
    cases hrun
    have hsize : toSize (-1) ≤ dest'.length := hsize
    have := toSize_error
    omega
  · rw [if_neg herror] at hrun
    obtain ⟨-, -, hrun⟩ := Option.bind_eq_some_iff.mp hrun.symm
    obtain ⟨-, -, hrun⟩ := Option.bind_eq_some_iff.mp hrun
    obtain ⟨-, -, hrun⟩ := Option.bind_eq_some_iff.mp hrun
    obtain ⟨-, -, hrun⟩ := Option.bind_eq_some_iff.mp hrun
    cases hrun
    have hint := toSize_count (Nat.lt_of_le_of_lt hcount (Nat.mod_lt _ (by decide)))
    by_cases hrange : 4 ≤ (deflated z full payload).2 ∧ (deflated z full payload).2 < 2147483652
    · rw [if_pos hrange] at hint
      have hbody : terminated (dest'.take (toSize (toInt (UInt32.ofNat (deflated z full payload).2 - 4))))
          = z.output full payload := hbody
      have htext := congrArg List.length hbody
      rw [length_terminated, List.length_take, hint] at htext
      refine ⟨hsmall, by omega, by omega, _, hbody.symm, ?_⟩
      rw [List.length_take, hint]
      omega
    · rw [if_neg hrange] at hint
      have hsize : toSize (toInt (UInt32.ofNat (deflated z full payload).2 - 4)) ≤ dest'.length := hsize
      omega

/-! ## the result -/

section
variable (z full w)

/-- An error is reported and nothing is written; or one frame is written that declares what it carries, no more than twice
the payload, and that is all of the output without its end. -/
def Consistent (s : Websocket) (opcode : BitVec 4) (dest payload : List UInt8) : Prop :=
  ∃ calls ok, sendFrame z full w s opcode dest payload = some (calls, ok) ∧
    (calls = [] ∧ ok = false ∨
      ∃ call body, ∃ h : body.length < 18446744073709551616, calls = [call] ∧ call.length ≤ call.memory.length ∧
        call.length ≤ 2 * payload.length ∧ body.length = call.length ∧
        call.header ++ call.memory.take call.length = (compressedFrame opcode (sentMask w s) body h).bytes ∧
        call.source = payload ∧ terminated body = z.output full payload)

end

/-- The frames that are consistent: all of the output is there, with its end. -/
theorem consistent_iff (haccepted : s.accepted = true) (hopcode : opcode < WS_CLOSE_FRAME)
    (hlevel : s.compressionLevel ≠ 0)
    (hdest : dest.length = 2 * payload.length) (hobject : dest.length < 9223372036854775808) :
    Consistent z full w s opcode dest payload ↔ Deflates z full payload := by
  have hcompressed : (s.accepted && decide (opcode < WS_CLOSE_FRAME)) = true := by
    rw [haccepted, decide_eq_true hopcode]
    rfl
  have hrun : sendFrame z full w s opcode dest payload = (websocketCompress z full s dest payload).bind fun c =>
      (writeFrame w s opcode 0x40 c.dest c.source (toSize c.ret)).map fun call =>
        ([call], w.writes (s.log ++ [.writev (call.header ++ call.memory.take call.length)])) := if_pos hcompressed
  constructor
  · rintro ⟨calls, ok, hsend, hgood⟩
    rw [hrun] at hsend
    obtain ⟨c, hc, hsend⟩ := Option.bind_eq_some_iff.mp hsend
    obtain ⟨call, hcall, hsend⟩ := Option.map_eq_some_iff.mp hsend
    cases hsend
    rcases hgood with ⟨hnone, -⟩ | ⟨call', body, hbody, hsame, hle, -, hlen, hbytes, hsource, hall⟩
    · cases hnone
    · obtain rfl := List.singleton_inj.mp hsame
      obtain ⟨hlength, hmemory, hsource'⟩ := writeFrame_fields hcall
      rw [hlength, hmemory] at hle
      refine deflates_of_compress hlevel hdest hobject hc (hsource'.symm.trans hsource) hle ?_
      -- the body of the frame is what is in the block
      have htake : (c.dest.take (toSize c.ret)).length = toSize c.ret := by rw [List.length_take, Nat.min_eq_left hle]
      obtain ⟨call', hcall', hbytes'⟩ := writeFrame_apply w s opcode c.source hle (by omega)
      rw [hcall] at hcall'
      cases hcall'
      rw [hlength, hbytes'] at hbytes
      rw [body_of_bytes (by omega) hbytes]
      exact hall
  · intro h
    obtain ⟨c, hc, hle, hlen, hall, hsource⟩ := websocketCompress_deflates hlevel hdest h
    have htake : (c.dest.take (toSize c.ret)).length = toSize c.ret := by rw [List.length_take, Nat.min_eq_left hle]
    have hlt : (c.dest.take (toSize c.ret)).length < 18446744073709551616 := by omega
    obtain ⟨call, hcall, hbytes⟩ := writeFrame_apply w s opcode c.source hle hlt
    obtain ⟨hlength, hmemory, hsource'⟩ := writeFrame_fields hcall
    refine ⟨[call], w.writes (s.log ++ [.writev (call.header ++ call.memory.take call.length)]), ?_,
      Or.inr ⟨call, _, hlt, rfl, ?_, ?_, ?_, ?_, hsource'.trans hsource, hall⟩⟩
    · rw [hrun, hc, Option.bind_some, hcall]
      rfl
    · rw [hlength, hmemory]
      exact hle
    · rw [hlength]
      omega
    · rw [hlength, htake]
    · rw [hlength]
      exact hbytes

/-- Where zlib stands for `websocket_compress`, this is the frame that the websocket sends. -/
theorem sendFrame_compressed (haccepted : s.accepted = true) (hopcode : opcode < WS_CLOSE_FRAME)
    (hbody : w.compress s.log payload = body) (h : body.length < 18446744073709551616) :
    ∃ buffer, Websocket.sendFrame w payload opcode s
      = some ((w.writes (s.log ++ [.writev (compressedFrame opcode (sentMask w s) body h).bytes]), buffer),
        s.logged [.writev (compressedFrame opcode (sentMask w s) body h).bytes]) := by
  have hcompressed : (s.accepted && decide (opcode < WS_CLOSE_FRAME)) = true := by
    rw [haccepted, decide_eq_true hopcode]
    rfl
  exact sendFrame_frame w s ((if_pos hcompressed).trans hbody) (if_pos hcompressed) rfl rfl
    (compressedFrame_bytes opcode (sentMask w s) body h)

end

/-! ## two short texts -/

def lettersC : List UInt8 := [0x61, 0x62, 0x63]

def lettersF : List UInt8 := [0x61, 0x62, 0x63, 0x64, 0x65, 0x66]

/-- zlib for the letters up to f or c, and an empty block for any other; what does not fit is left for the next call -/
def shortZlib : Deflater where
  output := fun _ input =>
    if input = lettersF then [0x4a, 0x4c, 0x4a, 0x4e, 0x49, 0x4d, 0x03, 0x00, 0x00, 0x00, 0xFF, 0xFF]
    else if input = lettersC then [0x4a, 0x4c, 0x4a, 0x06, 0x00, 0x00, 0x00, 0xFF, 0xFF]
    else [0x00, 0x00, 0x00, 0xFF, 0xFF]
  deflate := fun _ input availOut =>
    (if availOut = 0 then Z_BUF_ERROR else 0, min availOut
      (if input = lettersF then 12 else if input = lettersC then 9 else 5))
  count_le := fun _ _ availOut => Nat.min_le_left availOut _
  count_le_output := by
    intro _ input availOut
    refine Nat.le_trans (Nat.min_le_right availOut _) (Nat.le_of_eq ?_)
    split
    · rfl
    · split
      · rfl
      · rfl

theorem consistent_iff_letters :
    Consistent shortZlib false peerWorld (upgraded true 1 true) WS_TEXT_FRAME (List.replicate 12 0) lettersF :=
  (consistent_iff rfl (by decide) (by decide) rfl (by decide)).mpr
    ⟨by decide, by decide, by decide, [0x4a, 0x4c, 0x4a, 0x4e, 0x49, 0x4d, 0x03, 0x00], rfl, by decide⟩

/-- Three letters become nine bytes; there is room for six. -/
theorem letters_truncated :
    ¬Consistent shortZlib false peerWorld (upgraded true 1 true) WS_TEXT_FRAME (List.replicate 6 0) lettersC := by
  rintro ⟨calls, ok, hsend, hgood⟩
  cases hsend
  rcases hgood with ⟨hnone, -⟩ | ⟨call, body, hbody, hsame, -, -, hlen, -, -, hall⟩
  · cases hnone
  · cases hsame
    have hlong := congrArg List.length hall
    rw [length_terminated, hlen] at hlong
    exact absurd hlong (by decide)

end Compression
end Cjet
