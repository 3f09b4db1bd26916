import Cjet.Ws.Websocket
import Cjet.Lib.Run

/-!
# Frames (`websocket.c`)

A frame reaches the websocket as a sequence of parts, each for one callback.

* `Frame`, `Frame.parts`   a frame, as it is written in the stream;
* `receive`                the callbacks for its parts;
* `receive_eq`             what the callbacks hand to the handling of the frame;
* `stepFrame`              frame after frame, until reading stops.
-/

set_option linter.unusedVariables false

namespace Cjet
open Stateful

namespace Websocket

/-! ## frames -/

/-- the three ways to write the length of a payload -/
inductive LengthFormat where
  | short
  | medium
  | long
  deriving DecidableEq

def LengthFormat.bound : LengthFormat → Nat
  | .short => 126
  | .medium => 65536
  | .long => 18446744073709551616

/-- a frame with its payload before it is masked -/
structure Frame where
  fin : Bool
  rsv : BitVec 3
  opcode : BitVec 4
  mask : Option (Vector UInt8 4)
  payload : List UInt8
  format : LengthFormat
  length_lt : payload.length < format.bound

/-- the second byte without the mask bit, and the length that follows it -/
def lengthBytes (length : Nat) : LengthFormat → UInt8 × List (List UInt8)
  | .short => (UInt8.ofNat length, [])
  | .medium => (126, [bytesBE 2 length])
  | .long => (127, [bytesBE 8 length])

def firstByte (fin : Bool) (rsv : BitVec 3) (opcode : BitVec 4) : UInt8 :=
  UInt8.ofBitVec ((BitVec.ofBool fin ++ rsv ++ opcode).setWidth 8)

def secondByte (masked : Bool) (field : UInt8) : UInt8 := field ||| if masked then WS_MASK_SET else 0

/-- the payload in the stream -/
def Frame.wirePayload (f : Frame) : List UInt8 :=
  match f.mask with
  | none => f.payload
  | some mask => unmaskBytes mask 0 f.payload

/-- what the callbacks get of a frame; an empty payload is not read -/
def Frame.parts (f : Frame) : List (List UInt8) :=
  let (field, length) := lengthBytes f.payload.length f.format
  [firstByte f.fin f.rsv f.opcode] :: [secondByte f.mask.isSome field] :: length ++
    (f.mask.map fun mask => mask.toList).toList ++ if f.payload = [] then [] else [f.wirePayload]

section
variable (w : World)

/-- the parts go to one callback after the other -/
def deliver : Part → List (List UInt8) → Prog Websocket (Option Part)
  | part, [] => return some part
  | part, bytes :: rest => do
    let next ← callback w part bytes
    next.elim (pure none) fun part => deliver part rest

/-- the callbacks for a frame -/
def receive (f : Frame) : Prog Websocket (Option Part) := deliver w .header f.parts

/-- the state when the payload is there -/
def framed (s : Websocket) (f : Frame) : Websocket :=
  { s with fin := f.fin, rsv := f.rsv, opcode := f.opcode, maskFlag := f.mask.isSome, length := f.payload.length
           mask := f.mask.getD s.mask }

/-- what `ws_get_payload` does with the payload of a frame -/
def handlePayload (payload : List UInt8) : Prog Websocket (Option Part) := do
  let s ← Prog.read id
  if s.isServer && !s.maskFlag then
    handleError w WS_CLOSE_PROTOCOL_ERROR
    return none
  else
    match ← wsHandleFrame w payload with
    | .ok => return some .header
    | .closed => return none
    | .error =>
      handleError w WS_CLOSE_INTERNAL_ERROR
      return none

end

/-! ## the bytes of a header -/

theorem firstByte_fields : ∀ (fin : Bool) (rsv : BitVec 3) (opcode : BitVec 4),
    (firstByte fin rsv opcode &&& WS_HEADER_FIN == WS_HEADER_FIN) = fin ∧
      ((firstByte fin rsv opcode &&& 0x70) >>> 4).toBitVec.setWidth 3 = rsv ∧
        (firstByte fin rsv opcode &&& 0x0f).toBitVec.setWidth 4 = opcode := by
  decide +kernel

theorem secondByte_fields : ∀ (masked : Bool) (n : Fin 128),
    (secondByte masked (UInt8.ofNat n) &&& WS_MASK_SET == WS_MASK_SET) = masked ∧
      secondByte masked (UInt8.ofNat n) &&& ~~~WS_MASK_SET = UInt8.ofNat n := by
  decide +kernel

/-! ## the callbacks for a frame -/

section
variable (w : World) (s : Websocket)

theorem wsGetHeader_firstByte (fin : Bool) (rsv : BitVec 3) (opcode : BitVec 4) :
    wsGetHeader w [firstByte fin rsv opcode] s
      = some (some .firstLength, { s with fin := fin, rsv := rsv, opcode := opcode }) := by
  obtain ⟨h1, h2, h3⟩ := firstByte_fields fin rsv opcode
  show some (some Part.firstLength, { s with
    fin := firstByte fin rsv opcode &&& WS_HEADER_FIN == WS_HEADER_FIN
    rsv := ((firstByte fin rsv opcode &&& 0x70) >>> 4).toBitVec.setWidth 3
    opcode := (firstByte fin rsv opcode &&& 0x0f).toBitVec.setWidth 4 }) = _
  rw [h1, h2, h3]

/-- the second byte says whether there is a mask, and the length or the width of the length -/
theorem wsGetFirstLength_secondByte (masked : Bool) {n : Nat} (hn : n < 128) :
    wsGetFirstLength w [secondByte masked (UInt8.ofNat n)] s
      = if n < 126 then readMaskOrPayload w { s with maskFlag := masked, length := n }
        else if n = 126 then some (some .length16, { s with maskFlag := masked })
        else some (some .length64, { s with maskFlag := masked }) := by
  obtain ⟨h1, h2⟩ := secondByte_fields masked ⟨n, hn⟩
  have hmod : n % 256 = n := Nat.mod_eq_of_lt (by omega)
  have htoNat : (UInt8.ofNat n).toNat = n := by
    rw [UInt8.toNat_ofNat']
    exact hmod
  have hlt : UInt8.ofNat n < 126 ↔ n < 126 := by
    rw [UInt8.lt_iff_toNat_lt, htoNat]
    rfl
  have heq : UInt8.ofNat n = 126 ↔ n = 126 := by
    rw [← UInt8.toNat_inj, htoNat]
    rfl
  dsimp only at h1 h2
  unfold wsGetFirstLength
  dsimp only
  rw [Prog.bind_of_some (Prog.update_apply _ s), h1, h2]
  by_cases hshort : n < 126
  · rw [if_pos (hlt.mpr hshort), if_pos hshort, Prog.bind_of_some (Prog.update_apply _ _), htoNat]
  rw [if_neg fun h => hshort (hlt.mp h), if_neg hshort]
  by_cases hmedium : n = 126
  · rw [if_pos (heq.mpr hmedium), if_pos hmedium]
    rfl
  · rw [if_neg fun h => hmedium (heq.mp h), if_neg hmedium]
    rfl

/-- what follows the length -/
def Frame.rest (f : Frame) : List (List UInt8) :=
  (f.mask.map fun mask => mask.toList).toList ++ if f.payload = [] then [] else [f.wirePayload]

/-- a callback, and the parts after its part -/
def andDeliver (m : Prog Websocket (Option Part)) (rest : List (List UInt8)) : Prog Websocket (Option Part) := do
  let next ← m
  next.elim (pure none) fun part => deliver w part rest

theorem deliver_cons (part : Part) (bytes : List UInt8) (rest : List (List UInt8)) :
    deliver w part (bytes :: rest) = andDeliver w (callback w part bytes) rest := rfl

theorem andDeliver_some {m : Prog Websocket (Option Part)} {s s' : Websocket} {part : Part} (rest : List (List UInt8))
    (h : m s = some (some part, s')) : andDeliver w m rest s = deliver w part rest s' := Prog.bind_of_some h

theorem andDeliver_nil (m : Prog Websocket (Option Part)) : andDeliver w m [] s = m s := by
  unfold andDeliver
  rw [Prog.bind_apply]
  cases m s with
  | none => rfl
  | some r =>
    obtain ⟨next, s'⟩ := r
    cases next with
    | none => rfl
    | some part => rfl

theorem length_wirePayload (f : Frame) : f.wirePayload.length = f.payload.length := by
  unfold Frame.wirePayload
  cases f.mask with
  | none => rfl
  | some mask => exact length_unmaskBytes mask 0 f.payload

variable {s}

theorem wsGetPayload_wire {f : Frame} (hmask : s.maskFlag = f.mask.isSome) (hlen : s.length = f.payload.length)
    (hbytes : ∀ mask, f.mask = some mask → s.mask = mask) :
    wsGetPayload w f.wirePayload s = handlePayload w f.payload s := by
  have hgone : ¬ (f.wirePayload.length = 0 ∧ s.length ≠ 0) := by
    rw [length_wirePayload, hlen]
    exact fun h => h.2 h.1
  have hplain : (if s.maskFlag then unmaskPayload w.wordSize (w.address s.log) f.wirePayload s.mask else f.wirePayload)
      = f.payload := by
    unfold Frame.wirePayload
    rw [hmask]
    cases hm : f.mask with
    | none => rfl
    | some mask =>
      rw [hbytes mask hm]
      show unmaskPayload _ _ (unmaskBytes mask 0 f.payload) mask = f.payload
      rw [unmaskPayload_eq mask w.wordSize_eq, unmaskBytes_unmaskBytes]
  unfold wsGetPayload handlePayload
  rw [Prog.bind_of_some (Prog.read_apply id s), Prog.bind_of_some (Prog.read_apply id s)]
  dsimp only [id]
  rw [if_neg hgone]
  exact hplain ▸ rfl

theorem readPayload_some (h : 0 < s.length) : readPayload w s = some (some (.payload s.length), s) := by
  unfold readPayload
  rw [Prog.bind_of_some (Prog.read_apply _ s), if_pos h]
  rfl

theorem readMaskOrPayload_masked (h : s.maskFlag = true) : readMaskOrPayload w s = some (some .mask, s) := by
  unfold readMaskOrPayload
  rw [Prog.bind_of_some (Prog.read_apply _ s), h]
  rfl

theorem readMaskOrPayload_unmasked (h : s.maskFlag = false) : readMaskOrPayload w s = readPayload w s := by
  unfold readMaskOrPayload
  rw [Prog.bind_of_some (Prog.read_apply _ s), h]
  rfl

theorem wsGetMask_toList (s : Websocket) (mask : Vector UInt8 4) :
    wsGetMask w mask.toList s = readPayload w { s with mask := mask } := by
  unfold wsGetMask
  rw [dif_pos mask.length_toList, Prog.bind_of_some (Prog.update_apply _ s)]
  rfl

theorem readPayload_deliver {f : Frame} (hmask : s.maskFlag = f.mask.isSome) (hlen : s.length = f.payload.length)
    (hbytes : ∀ mask, f.mask = some mask → s.mask = mask) :
    andDeliver w (readPayload w) (if f.payload = [] then [] else [f.wirePayload]) s = handlePayload w f.payload s := by
  have hpayload := wsGetPayload_wire w hmask hlen hbytes
  by_cases hempty : f.payload = []
  · have hwire : f.wirePayload = [] := by
      apply List.eq_nil_of_length_eq_zero
      rw [length_wirePayload, hempty]
      rfl
    have hzero : ¬ 0 < s.length := by
      rw [hlen, hempty]
      exact Nat.lt_irrefl 0
    rw [if_pos hempty, andDeliver_nil, ← hpayload, hwire]
    unfold readPayload
    rw [Prog.bind_of_some (Prog.read_apply _ s), if_neg hzero]
  · have hpos : 0 < s.length := by
      rw [hlen]
      exact List.length_pos_iff.mpr hempty
    rw [if_neg hempty, andDeliver_some w _ (readPayload_some w hpos), deliver_cons, andDeliver_nil]
    exact hpayload

theorem readMaskOrPayload_deliver {f : Frame} (hmask : s.maskFlag = f.mask.isSome)
    (hlen : s.length = f.payload.length) :
    andDeliver w (readMaskOrPayload w) f.rest s = handlePayload w f.payload { s with mask := f.mask.getD s.mask } := by
  cases hm : f.mask with
  | none =>
    rw [hm] at hmask
    have hrest : f.rest = if f.payload = [] then [] else [f.wirePayload] := by
      unfold Frame.rest
      rw [hm]
      rfl
    have h1 : andDeliver w (readMaskOrPayload w) f.rest s = andDeliver w (readPayload w) f.rest s := by
      unfold andDeliver
      rw [Prog.bind_apply, Prog.bind_apply, readMaskOrPayload_unmasked w hmask]
    rw [h1, hrest]
    refine readPayload_deliver w (by rw [hmask, hm]) hlen fun mask e => ?_
    rw [hm] at e
    cases e
  | some mask =>
    rw [hm] at hmask
    have hrest : f.rest = mask.toList :: if f.payload = [] then [] else [f.wirePayload] := by
      unfold Frame.rest
      rw [hm]
      rfl
    have hcallback : callback w .mask mask.toList s = readPayload w { s with mask := mask } := wsGetMask_toList w s mask
    rw [andDeliver_some w _ (readMaskOrPayload_masked w hmask), hrest, deliver_cons]
    have h1 : andDeliver w (callback w .mask mask.toList) (if f.payload = [] then [] else [f.wirePayload]) s
        = andDeliver w (readPayload w) (if f.payload = [] then [] else [f.wirePayload]) { s with mask := mask } := by
      unfold andDeliver
      rw [Prog.bind_apply, Prog.bind_apply, hcallback]
    rw [h1]
    refine readPayload_deliver w (by rw [hm]; exact hmask) hlen fun mask' e => ?_
    rw [hm] at e
    exact Option.some.inj e

theorem parts_eq (f : Frame) : f.parts
    = [firstByte f.fin f.rsv f.opcode]
      :: [secondByte f.mask.isSome (lengthBytes f.payload.length f.format).1]
      :: ((lengthBytes f.payload.length f.format).2 ++ f.rest) := by
  unfold Frame.parts Frame.rest
  dsimp only
  rw [List.cons_append, List.cons_append, List.append_assoc]
  rfl

/-- the length behind the second byte, in `n` bytes -/
theorem wsGetLength_bytesBE {n : Nat} (hn : n ≠ 0) {length : Nat} (hlt : length < 256 ^ n) :
    wsGetLength w (bytesBE n length) s = readMaskOrPayload w { s with length := length } := by
  have hne : ¬ (bytesBE n length).length = 0 := by
    rw [length_bytesBE]
    exact hn
  unfold wsGetLength
  rw [if_neg hne, Prog.bind_of_some (Prog.update_apply _ s), natBE_bytesBE hlt]

theorem firstLength_deliver (f : Frame) (hfin : s.fin = f.fin) (hrsv : s.rsv = f.rsv) (hopcode : s.opcode = f.opcode) :
    deliver w .firstLength ([secondByte f.mask.isSome (lengthBytes f.payload.length f.format).1]
      :: ((lengthBytes f.payload.length f.format).2 ++ f.rest)) s = handlePayload w f.payload (framed s f) := by
  have hlt := f.length_lt
  have hread : andDeliver w (readMaskOrPayload w) f.rest
    { s with maskFlag := f.mask.isSome, length := f.payload.length }
      = handlePayload w f.payload (framed s f) := by
    rw [readMaskOrPayload_deliver w rfl rfl]
    unfold framed
    rw [← hfin, ← hrsv, ← hopcode]
  rw [deliver_cons]
  cases hformat : f.format with
  | short =>
    rw [hformat] at hlt
    have hshort : f.payload.length < 126 := hlt
    rw [← hread]
    show andDeliver w (wsGetFirstLength w [secondByte f.mask.isSome (UInt8.ofNat f.payload.length)]) f.rest s = _
    unfold andDeliver
    rw [Prog.bind_apply, Prog.bind_apply, wsGetFirstLength_secondByte w s f.mask.isSome (by omega), if_pos hshort]
  | medium =>
    rw [hformat] at hlt
    have hnext : wsGetFirstLength w [secondByte f.mask.isSome 126] s
        = some (some .length16, { s with maskFlag := f.mask.isSome }) :=
      wsGetFirstLength_secondByte w s f.mask.isSome (n := 126) (by omega)
    have hlength := wsGetLength_bytesBE w (s := { s with maskFlag := f.mask.isSome }) (n := 2) (by omega)
      (show f.payload.length < 256 ^ 2 from hlt)
    rw [← hread]
    show andDeliver w (wsGetFirstLength w [secondByte f.mask.isSome 126]) (bytesBE 2 f.payload.length :: f.rest) s = _
    rw [andDeliver_some w _ hnext, deliver_cons]
    show andDeliver w (wsGetLength w (bytesBE 2 f.payload.length)) f.rest _ = _
    unfold andDeliver
    rw [Prog.bind_apply, Prog.bind_apply, hlength]
  | long =>
    rw [hformat] at hlt
    have hnext : wsGetFirstLength w [secondByte f.mask.isSome 127] s
        = some (some .length64, { s with maskFlag := f.mask.isSome }) :=
      wsGetFirstLength_secondByte w s f.mask.isSome (n := 127) (by omega)
    have hlength := wsGetLength_bytesBE w (s := { s with maskFlag := f.mask.isSome }) (n := 8) (by omega)
      (show f.payload.length < 256 ^ 8 from hlt)
    rw [← hread]
    show andDeliver w (wsGetFirstLength w [secondByte f.mask.isSome 127]) (bytesBE 8 f.payload.length :: f.rest) s = _
    rw [andDeliver_some w _ hnext, deliver_cons]
    show andDeliver w (wsGetLength w (bytesBE 8 f.payload.length)) f.rest _ = _
    unfold andDeliver
    rw [Prog.bind_apply, Prog.bind_apply, hlength]

/-- The callbacks hand the fields and the payload of a frame to its handling. -/
theorem receive_eq (f : Frame) (s : Websocket) : receive w f s = handlePayload w f.payload (framed s f) := by
  unfold receive
  rw [parts_eq, deliver_cons]
  show andDeliver w (wsGetHeader w [firstByte f.fin f.rsv f.opcode]) _ s = _
  rw [andDeliver_some w _ (wsGetHeader_firstByte w s f.fin f.rsv f.opcode)]
  exact firstLength_deliver w f rfl rfl rfl

end

/-! ## frame after frame -/

/-- a websocket, and does it still read? -/
structure Conn where
  ws : Websocket
  reading : Bool

/-- A frame arrives.  Nobody reads it any more when reading has stopped. -/
def stepFrame (w : World) (c : Conn) (f : Frame) : Option Conn :=
  if c.reading then (receive w f c.ws).map fun r => { ws := r.2, reading := r.1.isSome }
  else some c

theorem stepFrame_reading (w : World) (s : Websocket) (f : Frame) :
    stepFrame w { ws := s, reading := true } f
      = (handlePayload w f.payload (framed s f)).map fun r => { ws := r.2, reading := r.1.isSome } := by
  unfold stepFrame
  rw [if_pos rfl, receive_eq]

theorem stepFrame_stopped (w : World) (s : Websocket) (f : Frame) :
    stepFrame w { ws := s, reading := false } f = some { ws := s, reading := false } := by
  unfold stepFrame
  rw [if_neg Bool.false_ne_true]

end Websocket
end Cjet
