import Cjet.Lib.Program
import Cjet.Ws.Mask
import Cjet.Ws.Utf8

/-!
# A websocket (`websocket.c`, `compression.c`)

A frame is read in parts, each by a callback that asks for the next part.  When its payload is there the
frame is handled: it is checked against the frames before it and handed to the application.

* `Websocket`, `World`       the state, and what the websocket is embedded in;
* `sendFrame`, `websocketClose`, `handleError`   what goes out;
* `wsHandleFrame`            the handling of a frame;
* `wsGetHeader` to `wsGetPayload`, `callback`   the callbacks that read it.

A call of a callback that is not installed is undefined.
-/

set_option linter.unusedVariables false

namespace Cjet
open Stateful

abbrev WS_CONTINUATION_FRAME : BitVec 4 := 0x0
abbrev WS_TEXT_FRAME : BitVec 4 := 0x1
abbrev WS_BINARY_FRAME : BitVec 4 := 0x2
abbrev WS_CLOSE_FRAME : BitVec 4 := 0x8
abbrev WS_PING_FRAME : BitVec 4 := 0x9
abbrev WS_PONG_FRAME : BitVec 4 := 0xa

def WS_MASK_SET : UInt8 := 0x80
def WS_HEADER_FIN : UInt8 := 0x80
def WS_SMALL_FRAME_SIZE : Nat := 125
abbrev PER_MESSAGE_COMPRESSED_BIT : BitVec 3 := 0x4

/-- `enum ws_status_code` -/
abbrev WS_CLOSE_NORMAL : Nat := 1000
abbrev WS_CLOSE_GOING_AWAY : Nat := 1001
abbrev WS_CLOSE_PROTOCOL_ERROR : Nat := 1002
abbrev WS_CLOSE_UNSUPPORTED : Nat := 1003
abbrev WS_CLOSE_UNSUPPORTED_DATA : Nat := 1007
abbrev WS_CLOSE_INTERNAL_ERROR : Nat := 1011
abbrev WS_CLOSE_RESERVED_LOWER_BOUND : Nat := 3000
abbrev WS_CLOSE_RESERVED_UPPER_BOUND : Nat := 4999

/-- `enum websocket_callback_return` -/
inductive CallbackReturn where
  | closed
  | error
  | ok
  deriving DecidableEq

/-- the callbacks of the application -/
inductive Handler where
  | textMessage
  | textFrame
  | binaryMessage
  | binaryFrame
  | ping
  | pong
  | close
  deriving DecidableEq

/-- what a websocket does to the world -/
inductive WsCall where
  | textMessage (msg : List UInt8)
  | textFrame (msg : List UInt8) (isLastFrame : Bool)
  | binaryMessage (msg : List UInt8)
  | binaryFrame (msg : List UInt8) (isLastFrame : Bool)
  | ping (msg : List UInt8)
  | pong (msg : List UInt8)
  | close (statusCode : Nat)
  | onError
  | writev (bytes : List UInt8)
  /-- `websocket_close` is entered -/
  | websocketClose (statusCode : Nat)
  | freeConnection
  deriving DecidableEq

/-- What a websocket is embedded in.  What a callback returns, whether a write succeeds and what zlib and the
allocator do may depend on all that has happened before. -/
structure World where
  installed : Handler → Bool
  returns : List WsCall → CallbackReturn
  /-- `writev` -/
  writes : List WsCall → Bool
  /-- `cjet_get_random_bytes` -/
  random : List WsCall → Vector UInt8 4
  /-- `reassemble` has the memory that it needs -/
  reassembles : List WsCall → Bool
  /-- `private_decompress` -/
  decompress : List WsCall → List UInt8 → Option (List UInt8)
  /-- `websocket_compress` -/
  compress : List WsCall → List UInt8 → List UInt8
  /-- the size of `uint_fast32_t` -/
  wordSize : Nat
  wordSize_eq : wordSize = 4 ∨ wordSize = 8
  /-- the address of a payload -/
  address : List WsCall → Nat

theorem eight_wordSize : 8 = 4 ∨ 8 = 8 := Or.inr rfl

/-- `struct websocket` -/
structure Websocket where
  isServer : Bool
  upgradeComplete : Bool
  fin : Bool
  rsv : BitVec 3
  opcode : BitVec 4
  maskFlag : Bool
  fragOpcode : BitVec 4
  isFragmented : Bool
  isFragCompressed : Bool
  length : Nat
  mask : Vector UInt8 4
  compressionLevel : Nat
  accepted : Bool
  /-- the compressed fragments that `reassemble` has put together -/
  fragments : List UInt8
  /-- a ghost: all calls so far -/
  log : List WsCall

namespace Websocket

/-- the websocket after the upgrade -/
def upgraded (isServer : Bool) (compressionLevel : Nat) (accepted : Bool) : Websocket where
  isServer := isServer
  upgradeComplete := true
  fin := false
  rsv := 0
  opcode := 0
  maskFlag := false
  fragOpcode := WS_CONTINUATION_FRAME
  isFragmented := false
  isFragCompressed := false
  length := 0
  mask := Vector.replicate 4 0
  compressionLevel := compressionLevel
  accepted := accepted
  fragments := []
  log := []

/-! ## sending -/

/-- the first two bytes of a frame and the length behind them, as `send_frame` writes them -/
def frameHeader (opcode : BitVec 4) (rsv : UInt8) (masked : Bool) (length : Nat) : List UInt8 :=
  let first := UInt8.ofNat opcode.toNat ||| WS_HEADER_FIN ||| rsv
  let maskBit : UInt8 := if masked then WS_MASK_SET else 0
  if length < 126 then [first, UInt8.ofNat length ||| maskBit]
  else if length < 65536 then first :: (126 ||| maskBit) :: bytesBE 2 length
  else first :: (127 ||| maskBit) :: bytesBE 8 length

section
variable (w : World)

def perform (c : WsCall) : Prog Websocket Unit := Prog.update fun s => { s with log := s.log ++ [c] }

/-- a call of a callback of the application -/
def invoke (h : Handler) (c : WsCall) : Prog Websocket CallbackReturn := do
  Prog.require fun _ => w.installed h
  perform c
  Prog.read fun s => w.returns s.log

/-- `send_frame`: did the write succeed, and what is in the buffer of the payload afterwards?  A client masks
that buffer. -/
def sendFrame (payload : List UInt8) (opcode : BitVec 4) : Prog Websocket (Bool × List UInt8) := do
  let s ← Prog.read id
  let compressed := s.accepted && decide (opcode < WS_CLOSE_FRAME)
  let body := if compressed then w.compress s.log payload else payload
  let rsv : UInt8 := if compressed then 0x40 else 0
  let header := frameHeader opcode rsv (!s.isServer) body.length
  if s.isServer then
    perform (.writev (header ++ body))
    let ok ← Prog.read fun s => w.writes s.log
    return (ok, payload)
  else
    let mask := w.random s.log
    let masked := unmaskPayload w.wordSize (w.address s.log) body mask
    perform (.writev (header ++ mask.toList ++ masked))
    let ok ← Prog.read fun s => w.writes s.log
    return (ok, if compressed then payload else masked)

/-- `websocket_send_close_frame` -/
def websocketSendCloseFrame (statusCode : Nat) : Prog Websocket (Bool × List UInt8) :=
  sendFrame w (bytesBE 2 statusCode) WS_CLOSE_FRAME

/-- `websocket_send_pong_frame` -/
def websocketSendPongFrame (payload : List UInt8) : Prog Websocket (Bool × List UInt8) :=
  sendFrame w payload WS_PONG_FRAME

/-- `websocket_close` -/
def websocketClose (statusCode : Nat) : Prog Websocket Unit := do
  perform (.websocketClose statusCode)
  let upgradeComplete ← Prog.read fun s => s.upgradeComplete
  if upgradeComplete then
    let _ ← websocketSendCloseFrame w statusCode
    perform .freeConnection
  else perform .freeConnection

/-- `handle_error` -/
def handleError (statusCode : Nat) : Prog Websocket Unit := do
  websocketClose w statusCode
  perform .onError

/-- an error that ends the handling of a frame -/
def failWith (statusCode : Nat) : Prog Websocket CallbackReturn := do
  handleError w statusCode
  return .closed

/-! ## messages and fragments -/

/-- `text_received_comp` and `binary_received_comp` -/
def receivedComp (h : Handler) (c : List UInt8 → WsCall) (isCompressed : Bool) (msg : List UInt8) :
    Prog Websocket CallbackReturn := do
  let s ← Prog.read id
  if isCompressed && s.compressionLevel != 0 then
    match w.decompress s.log msg with
    | none => return .error
    | some text => invoke w h (c text)
  else invoke w h (c msg)

def textReceivedComp := receivedComp w .textMessage .textMessage
def binaryReceivedComp := receivedComp w .binaryMessage .binaryMessage

/-- `text_frame_received_comp` and `binary_frame_received_comp` -/
def frameReceivedComp (h : Handler) (c : List UInt8 → Bool → WsCall) (isCompressed : Bool) (msg : List UInt8)
    (isLastFrame : Bool) : Prog Websocket CallbackReturn := do
  let s ← Prog.read id
  if isCompressed && s.compressionLevel != 0 then
    if w.reassembles s.log then
      let whole := s.fragments ++ msg
      if isLastFrame then
        Prog.update fun s => { s with fragments := [] }
        match w.decompress s.log whole with
        | none => return .error
        | some text => invoke w h (c text isLastFrame)
      else
        Prog.update fun s => { s with fragments := whole }
        return .ok
    else return .error
  else invoke w h (c msg isLastFrame)

def textFrameReceivedComp := frameReceivedComp w .textFrame .textFrame
def binaryFrameReceivedComp := frameReceivedComp w .binaryFrame .binaryFrame

/-! ## handling a frame -/

/-- a message has ended -/
def endFragmentation (lastFrame : Bool) : Prog Websocket Unit := Prog.update fun s =>
  if lastFrame then { s with isFragmented := false, isFragCompressed := false, fragOpcode := WS_CONTINUATION_FRAME }
  else s

/-- a fragment: `case WS_CONTINUATION_FRAME` -/
def handleFragment (frame : List UInt8) : Prog Websocket CallbackReturn := do
  let s ← Prog.read id
  if s.fragOpcode = WS_BINARY_FRAME then
    let ret ← binaryFrameReceivedComp w s.isFragCompressed frame s.fin
    endFragmentation s.fin
    return ret
  else if s.fragOpcode = WS_TEXT_FRAME then
    let ret ← textFrameReceivedComp w s.isFragCompressed frame s.fin
    if ret = .closed then failWith w WS_CLOSE_UNSUPPORTED_DATA
    else
      endFragmentation s.fin
      return ret
  else failWith w WS_CLOSE_PROTOCOL_ERROR

/-- `case WS_BINARY_FRAME` -/
def handleBinary (compressionBitSet : Bool) (frame : List UInt8) : Prog Websocket CallbackReturn :=
  if w.installed .binaryMessage then binaryReceivedComp w compressionBitSet frame
  else failWith w WS_CLOSE_UNSUPPORTED

/-- `case WS_TEXT_FRAME` -/
def handleText (compressionBitSet : Bool) (frame : List UInt8) : Prog Websocket CallbackReturn := do
  if w.installed .textMessage then
    let ret ← textReceivedComp w compressionBitSet frame
    if ret = .closed then failWith w WS_CLOSE_UNSUPPORTED_DATA else return ret
  else failWith w WS_CLOSE_UNSUPPORTED

/-- `case WS_PING_FRAME` -/
def handlePing (frame : List UInt8) : Prog Websocket CallbackReturn := do
  if WS_SMALL_FRAME_SIZE < frame.length then failWith w WS_CLOSE_PROTOCOL_ERROR
  else
    let (sent, frame) ← websocketSendPongFrame w frame
    if sent then
      if w.installed .ping then invoke w .ping (.ping frame) else return .ok
    else return .error

/-- `case WS_PONG_FRAME` -/
def handlePong (frame : List UInt8) : Prog Websocket CallbackReturn :=
  if WS_SMALL_FRAME_SIZE < frame.length then failWith w WS_CLOSE_PROTOCOL_ERROR
  else if w.installed .pong then invoke w .pong (.pong frame)
  else return .ok

/-- `is_status_code_invalid` -/
def isStatusCodeInvalid (statusCode : Nat) : Bool :=
  !((WS_CLOSE_NORMAL ≤ statusCode && statusCode ≤ WS_CLOSE_UNSUPPORTED)
    || (WS_CLOSE_UNSUPPORTED_DATA ≤ statusCode && statusCode ≤ WS_CLOSE_INTERNAL_ERROR)
    || (WS_CLOSE_RESERVED_LOWER_BOUND ≤ statusCode && statusCode ≤ WS_CLOSE_RESERVED_UPPER_BOUND))

/-- the status code of a close frame -/
def closeCode (frame : List UInt8) : Nat := if 2 ≤ frame.length then natBE (frame.take 2) else WS_CLOSE_NORMAL

/-- the text behind the status code is valid -/
def closeTextValid (frame : List UInt8) : Bool :=
  if 2 < frame.length then (Utf8.isByteSequenceValid Utf8.initChecker (frame.drop 2) true).1 else true

/-- `case WS_CLOSE_FRAME` -/
def handleClose (frame : List UInt8) : Prog Websocket CallbackReturn := do
  if closeTextValid frame then
    if frame.length == 1 || decide (WS_SMALL_FRAME_SIZE < frame.length) || isStatusCodeInvalid (closeCode frame) then
      failWith w WS_CLOSE_PROTOCOL_ERROR
    else
      websocketClose w WS_CLOSE_NORMAL
      if w.installed .close then
        let _ ← invoke w .close (.close (closeCode frame))
        return .closed
      else return .closed
  else failWith w WS_CLOSE_UNSUPPORTED_DATA

/-- the second half of `ws_handle_frame` -/
def dispatchFrame (compressionBitSet : Bool) (frame : List UInt8) : Prog Websocket CallbackReturn := do
  let s ← Prog.read id
  if s.opcode = WS_CONTINUATION_FRAME then handleFragment w frame
  else if s.opcode = WS_BINARY_FRAME then handleBinary w compressionBitSet frame
  else if s.opcode = WS_TEXT_FRAME then handleText w compressionBitSet frame
  else if s.opcode = WS_PING_FRAME then handlePing w frame
  else if s.opcode = WS_PONG_FRAME then handlePong w frame
  else if s.opcode = WS_CLOSE_FRAME then handleClose w frame
  else failWith w WS_CLOSE_PROTOCOL_ERROR

/-- the bookkeeping of the fragments of a message; `none` is a protocol error -/
def trackFragments (compressionBitSet : Bool) (s : Websocket) : Option Websocket :=
  if !s.fin && decide (WS_CLOSE_FRAME ≤ s.opcode) then none
  else
    let tracked : Option Websocket :=
      if s.fin then some s
      else if s.opcode ≠ WS_CONTINUATION_FRAME then
        if s.isFragmented then none
        else some { s with isFragmented := true
                           isFragCompressed := compressionBitSet || s.isFragCompressed
                           fragOpcode := s.opcode
                           opcode := WS_CONTINUATION_FRAME }
      else if s.rsv ≠ 0 then none
      else if !s.isFragmented then none
      else some s
    tracked.bind fun s =>
      if s.isFragmented && decide (s.opcode < WS_CLOSE_FRAME ∧ 0 < s.opcode) then none else some s

/-- the check of the RSV bits; `none` is a protocol error -/
def compressionBit (s : Websocket) : Option Bool :=
  if s.rsv ≠ 0 then
    if s.accepted then
      if s.rsv ≠ PER_MESSAGE_COMPRESSED_BIT then none
      else if WS_CLOSE_FRAME ≤ s.opcode then none
      else some true
    else none
  else some false

/-- `ws_handle_frame` -/
def wsHandleFrame (frame : List UInt8) : Prog Websocket CallbackReturn := do
  let s ← Prog.read id
  match compressionBit s with
  | none => failWith w WS_CLOSE_PROTOCOL_ERROR
  | some compressionBitSet =>
    match trackFragments compressionBitSet s with
    | none => failWith w WS_CLOSE_PROTOCOL_ERROR
    | some s =>
      Prog.update fun _ => s
      dispatchFrame w compressionBitSet frame

/-! ## reading a frame -/

/-- the callback that gets the next part of a frame -/
inductive Part where
  | header
  | firstLength
  | length16
  | length64
  | mask
  | payload (length : Nat)
  deriving DecidableEq

/-- how many bytes it asks for -/
def Part.count : Part → Nat
  | .header => 1
  | .firstLength => 1
  | .length16 => 2
  | .length64 => 8
  | .mask => 4
  | .payload length => length

/-- the peer has closed the connection -/
def goAway : Prog Websocket (Option Part) := do
  handleError w WS_CLOSE_GOING_AWAY
  return none

/-- `ws_get_payload`; `none` is `BS_CLOSED`, `some part` is `BS_OK` after a request for that part -/
def wsGetPayload (buf : List UInt8) : Prog Websocket (Option Part) := do
  let s ← Prog.read id
  if buf.length = 0 ∧ s.length ≠ 0 then goAway w
  else if s.isServer && !s.maskFlag then
    handleError w WS_CLOSE_PROTOCOL_ERROR
    return none
  else
    let frame := if s.maskFlag then unmaskPayload w.wordSize (w.address s.log) buf s.mask else buf
    match ← wsHandleFrame w frame with
    | .ok => return some .header
    | .closed => return none
    | .error =>
      handleError w WS_CLOSE_INTERNAL_ERROR
      return none

/-- the request for the payload, which is not made for an empty one -/
def readPayload : Prog Websocket (Option Part) := do
  let length ← Prog.read fun s => s.length
  if 0 < length then return some (.payload length) else wsGetPayload w []

/-- `ws_get_mask` -/
def wsGetMask (buf : List UInt8) : Prog Websocket (Option Part) := do
  if h : buf.length = 4 then
    Prog.update fun s => { s with mask := ⟨buf.toArray, h⟩ }
    readPayload w
  else goAway w

/-- `read_mask_or_payload` -/
def readMaskOrPayload : Prog Websocket (Option Part) := do
  let maskFlag ← Prog.read fun s => s.maskFlag
  if maskFlag then return some .mask else readPayload w

/-- `ws_get_length16` and `ws_get_length64` -/
def wsGetLength (buf : List UInt8) : Prog Websocket (Option Part) := do
  if buf.length = 0 then goAway w
  else
    Prog.update fun s => { s with length := natBE buf }
    readMaskOrPayload w

def wsGetLength16 := wsGetLength w
def wsGetLength64 := wsGetLength w

/-- `ws_get_first_length` -/
def wsGetFirstLength (buf : List UInt8) : Prog Websocket (Option Part) := do
  match buf with
  | [] => goAway w
  | field :: _ =>
    Prog.update fun s => { s with maskFlag := field &&& WS_MASK_SET == WS_MASK_SET }
    let field := field &&& ~~~WS_MASK_SET
    if field < 126 then
      Prog.update fun s => { s with length := field.toNat }
      readMaskOrPayload w
    else if field = 126 then return some .length16
    else return some .length64

/-- `ws_get_header` -/
def wsGetHeader (buf : List UInt8) : Prog Websocket (Option Part) := do
  match buf with
  | [] => goAway w
  | field :: _ =>
    Prog.update fun s => { s with fin := field &&& WS_HEADER_FIN == WS_HEADER_FIN
                                  rsv := ((field &&& 0x70) >>> 4).toBitVec.setWidth 3
                                  opcode := (field &&& 0x0f).toBitVec.setWidth 4 }
    return some .firstLength

/-- the callback for a part; no bytes: the peer has closed the connection -/
def callback : Part → List UInt8 → Prog Websocket (Option Part)
  | .header => wsGetHeader w
  | .firstLength => wsGetFirstLength w
  | .length16 => wsGetLength16 w
  | .length64 => wsGetLength64 w
  | .mask => wsGetMask w
  | .payload _ => wsGetPayload w

end
end Websocket
end Cjet
