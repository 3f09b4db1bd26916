import Cjet.Ws.Calls

/-!
# The frames that a websocket sends (`send_frame`)

* `Frame.bytes`        a frame as it is written;
* `sentFrame`          the frame for a payload;
* `sendFrame_plain`    without compression `send_frame` writes the bytes of that frame.
-/

set_option linter.unusedVariables false

namespace Cjet
open Stateful

namespace Websocket

/-- the shortest way to write a length -/
def formatOf (length : Nat) : LengthFormat :=
  if length < 126 then .short else if length < 65536 then .medium else .long

theorem formatOf_bound {length : Nat} (h : length < 18446744073709551616) : length < (formatOf length).bound := by
  unfold formatOf
  by_cases hshort : length < 126
  · rw [if_pos hshort]
    exact hshort
  rw [if_neg hshort]
  by_cases hmedium : length < 65536
  · rw [if_pos hmedium]
    exact hmedium
  · rw [if_neg hmedium]
    exact h

/-- the frame for a payload -/
def sentFrame (opcode : BitVec 4) (mask : Option (Vector UInt8 4)) (payload : List UInt8)
    (h : payload.length < 18446744073709551616) : Frame where
  fin := true
  rsv := 0
  opcode := opcode
  mask := mask
  payload := payload
  format := formatOf payload.length
  length_lt := formatOf_bound h

def Frame.bytes (f : Frame) : List UInt8 := f.parts.flatten

theorem frameHeader_first : ∀ opcode : BitVec 4,
    UInt8.ofNat opcode.toNat ||| WS_HEADER_FIN ||| 0 = firstByte true 0 opcode := by
  decide +kernel

theorem frameHeader_eq {opcode : BitVec 4} {rsv : BitVec 3} {bits : UInt8}
    (hfirst : UInt8.ofNat opcode.toNat ||| WS_HEADER_FIN ||| bits = firstByte true rsv opcode) (masked : Bool)
    (length : Nat) :
    frameHeader opcode bits masked length
      = firstByte true rsv opcode :: secondByte masked (lengthBytes length (formatOf length)).1
        :: (lengthBytes length (formatOf length)).2.flatten := by
  unfold frameHeader formatOf
  dsimp only
  rw [hfirst]
  by_cases hshort : length < 126
  · rw [if_pos hshort, if_pos hshort]
    rfl
  rw [if_neg hshort, if_neg hshort]
  by_cases hmedium : length < 65536
  · rw [if_pos hmedium, if_pos hmedium]
    exact congrArg (fun l => _ :: _ :: l) (List.append_nil _).symm
  · rw [if_neg hmedium, if_neg hmedium]
    exact congrArg (fun l => _ :: _ :: l) (List.append_nil _).symm

/-- a frame whose length is written the shortest way -/
theorem bytes_eq (f : Frame) (hfin : f.fin = true) (hformat : f.format = formatOf f.payload.length) {bits : UInt8}
    (hfirst : UInt8.ofNat f.opcode.toNat ||| WS_HEADER_FIN ||| bits = firstByte true f.rsv f.opcode) :
    f.bytes = frameHeader f.opcode bits f.mask.isSome f.payload.length ++ (f.mask.map fun mask => mask.toList).getD []
      ++ f.wirePayload := by
  have hwire : (if f.payload = [] then [] else [f.wirePayload]).flatten = f.wirePayload := by
    by_cases hempty : f.payload = []
    · have hlength := length_wirePayload f
      rw [hempty] at hlength
      rw [if_pos hempty, List.eq_nil_of_length_eq_zero hlength]
      rfl
    · rw [if_neg hempty]
      exact List.append_nil _
  have hrest : f.rest.flatten = (f.mask.map fun mask => mask.toList).getD [] ++ f.wirePayload := by
    unfold Frame.rest
    rw [List.flatten_append]
    refine congr_arg₂ _ ?_ hwire
    cases f.mask with
    | none => rfl
    | some mask => exact List.append_nil _
  unfold Frame.bytes
  rw [parts_eq, List.flatten_cons, List.flatten_cons, List.flatten_append, hrest,
    frameHeader_eq hfirst, List.append_assoc,
    hfin, hformat]
  rfl

theorem sentFrame_bytes (opcode : BitVec 4) (mask : Option (Vector UInt8 4)) (payload : List UInt8)
    (h : payload.length < 18446744073709551616) :
    (sentFrame opcode mask payload h).bytes
      = frameHeader opcode 0 mask.isSome payload.length ++ (mask.map fun mask => mask.toList).getD []
        ++ (sentFrame opcode mask payload h).wirePayload :=
  bytes_eq (sentFrame opcode mask payload h) rfl rfl (frameHeader_first opcode)

/-- the mask of a frame that is sent: a client draws one -/
def sentMask (w : World) (s : Websocket) : Option (Vector UInt8 4) := if s.isServer then none else some (w.random s.log)

theorem sentMask_isSome (w : World) (s : Websocket) : (sentMask w s).isSome = !s.isServer := by
  unfold sentMask
  cases s.isServer with
  | true => rfl
  | false => rfl

/-- The bytes that are written are those of a frame. -/
theorem sendFrame_frame (w : World) (s : Websocket) {opcode : BitVec 4} {payload body : List UInt8} {bits : UInt8}
    (hbody : (if s.accepted && decide (opcode < WS_CLOSE_FRAME) then w.compress s.log payload else payload) = body)
    (hbits : (if s.accepted && decide (opcode < WS_CLOSE_FRAME) then (0x40 : UInt8) else 0) = bits) {f : Frame}
    (hpayload : f.payload = body) (hmask : f.mask = sentMask w s)
    (hbytes : f.bytes = frameHeader opcode bits f.mask.isSome f.payload.length
      ++ (f.mask.map fun mask => mask.toList).getD [] ++ f.wirePayload) :
    ∃ buffer, sendFrame w payload opcode s
      = some ((w.writes (s.log ++ [.writev f.bytes]), buffer), s.logged [.writev f.bytes]) := by
  unfold sendFrame
  rw [Prog.bind_of_some (Prog.read_apply id s)]
  dsimp only [id]
  rw [hbody, hbits]
  by_cases hserver : s.isServer = true
  · have hsent : frameHeader opcode bits (!s.isServer) body.length ++ body = f.bytes := by
      rw [hbytes, hmask, sentMask_isSome, hpayload]
      unfold Frame.wirePayload sentMask
      rw [hmask, hpayload]
      unfold sentMask
      rw [if_pos hserver]
      exact congrArg (· ++ body) (List.append_nil _).symm
    rw [if_pos hserver, hsent]
    exact ⟨_, rfl⟩
  · have hsent : frameHeader opcode bits (!s.isServer) body.length ++ (w.random s.log).toList
          ++ unmaskPayload w.wordSize (w.address s.log) body (w.random s.log) = f.bytes := by
      rw [hbytes, hmask, sentMask_isSome, hpayload, unmaskPayload_eq (w.random s.log) w.wordSize_eq]
      unfold Frame.wirePayload sentMask
      rw [hmask, hpayload]
      unfold sentMask
      rw [if_neg hserver]
      rfl
    rw [if_neg hserver, hsent]
    exact ⟨_, rfl⟩

/-- Without compression it is the frame for the payload. -/
theorem sendFrame_plain (w : World) (s : Websocket) (opcode : BitVec 4) (payload : List UInt8)
    (h : payload.length < 18446744073709551616) (hplain : (s.accepted && decide (opcode < WS_CLOSE_FRAME)) = false) :
    ∃ buffer, sendFrame w payload opcode s
      = some ((w.writes (s.log ++ [.writev (sentFrame opcode (sentMask w s) payload h).bytes]), buffer),
        s.logged [.writev (sentFrame opcode (sentMask w s) payload h).bytes]) :=
  have hne := Bool.eq_false_iff.mp hplain
  sendFrame_frame w s (if_neg hne) (if_neg hne) rfl rfl (sentFrame_bytes opcode (sentMask w s) payload h)

end Websocket
end Cjet
