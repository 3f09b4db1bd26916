import Cjet.Lib.Program
import Mathlib.Data.List.Basic

/-!
# The upgrade of a connection (`websocket.c`, `base64.c`)

The HTTP parser hands over the header fields and their values one after the other, and judges the request at
the end.

* `Handshake`, `Upgrader`    what is remembered of the headers, and the parameters of the server;
* `websocketUpgradeOnHeaderField`, `websocketUpgradeOnHeaderValue`, `websocketUpgradeOnHeadersComplete`
                             the callbacks of the parser;
* `upgrade`                  the calls for a request.
-/

set_option linter.unusedVariables false

namespace Cjet
open Stateful

namespace Websocket

def ascii (s : String) : List UInt8 := s.toList.map fun c => UInt8.ofNat c.toNat

/-! ## base64 -/

def encodeTable : List UInt8 := ascii "ABCDEFGHIJKLMNOPQRSTUVWXYZabcdefghijklmnopqrstuvwxyz0123456789+/"

def encode6 (n : UInt8) : UInt8 := encodeTable.getD n.toNat 0

/-- `b64_encode_buffer` -/
def b64EncodeBuffer : List UInt8 → List UInt8
  | [] => []
  | [a] => encode6 (a >>> 2) :: encode6 ((a &&& 0x03) <<< 4) :: ascii "=="
  | [a, b] =>
    encode6 (a >>> 2) :: encode6 ((a &&& 0x03) <<< 4 ||| (b &&& 0xf0) >>> 4) :: encode6 ((b &&& 0x0f) <<< 2) :: ascii "="
  | a :: b :: c :: rest =>
    encode6 (a >>> 2) :: encode6 ((a &&& 0x03) <<< 4 ||| (b &&& 0xf0) >>> 4)
      :: encode6 ((b &&& 0x0f) <<< 2 ||| (c &&& 0xc0) >>> 6) :: encode6 (c &&& 0x3f) :: b64EncodeBuffer rest

/-- `b64_encoded_buffer_length` -/
def b64EncodedBufferLength (inputLength : Nat) : Nat := 4 * ((inputLength + 2) / 3)

theorem length_b64EncodeBuffer (l : List UInt8) : (b64EncodeBuffer l).length = b64EncodedBufferLength l.length := by
  induction l using b64EncodeBuffer.induct with
  | case1 => rfl
  | case2 a =>
    rw [b64EncodeBuffer, List.length_cons, List.length_cons, show (ascii "==").length = 2 by decide,
      List.length_singleton]
    rfl
  | case3 a b =>
    rw [b64EncodeBuffer, List.length_cons, List.length_cons, List.length_cons, show (ascii "=").length = 1 by decide]
    exact (show 4 = b64EncodedBufferLength 2 by decide)
  | case4 a b c rest ih =>
    rw [b64EncodeBuffer, List.length_cons, List.length_cons, List.length_cons, List.length_cons, ih]
    unfold b64EncodedBufferLength
    rw [List.length_cons, List.length_cons, List.length_cons]
    omega

example : b64EncodeBuffer [179, 122, 79, 44, 192, 98, 79, 22, 144, 246, 70, 6, 207, 56, 89, 69, 178, 190, 196, 234]
    = ascii "s3pPLMBiTxaQ9kYGzzhZRbK+xOo=" := by
  decide

/-! ## headers -/

/-- `enum header_field` -/
inductive HeaderField where
  | unknown
  | key
  | version
  | protocol
  | extensions
  deriving DecidableEq

def SEC_WEB_SOCKET_KEY_LENGTH : Nat := 24
def wsGuid : List UInt8 := ascii "258EAFA5-E914-47DA-95CA-C5AB0DC85B11"

def toLower (c : UInt8) : UInt8 := if 65 ≤ c ∧ c ≤ 90 then c + 32 else c
def isspace (c : UInt8) : Bool := c == 32 || decide (9 ≤ c ∧ c ≤ 13)
def comma : UInt8 := 44

/-- what a handshake remembers in `struct websocket`; `E` is the negotiation of the compression -/
structure Handshake (E : Type) where
  secWebSocketKey : List UInt8
  currentHeaderField : HeaderField
  protocolRequested : Bool
  found : Bool
  extensionCompression : E
  /-- a ghost: what has been handed to `writev` -/
  sent : List (List UInt8)

/-- What the callbacks rely on.  The negotiation of the compression may be any. -/
structure Upgrader (E : Type) where
  /-- `sub_protocol.name` -/
  name : Option (List UInt8)
  init : E
  checkWebsocketExtensions : E → List UInt8 → E
  /-- the response to an extension that was accepted -/
  extension : E → Option (List UInt8)
  sha1 : List UInt8 → Vector UInt8 20
  /-- `writev` succeeds -/
  writes : Bool

structure Header where
  field : List UInt8
  value : List UInt8

abbrev HTTP_GET : Nat := 1

/-- a request as the HTTP parser has read it -/
structure Request where
  method : Nat
  httpMajor : Nat
  httpMinor : Nat
  upgrade : Bool
  headers : List Header

/-- the same letters -/
def sameField (at' : List UInt8) (name : String) : Bool := at'.map toLower == (ascii name).map toLower

section
variable {E : Type} (srv : Upgrader E)

/-- the websocket when the request begins -/
def Upgrader.start : Handshake E where
  secWebSocketKey := List.replicate 60 0
  currentHeaderField := .unknown
  protocolRequested := false
  found := false
  extensionCompression := srv.init
  sent := []

/-- the field that a name stands for -/
def headerField (at' : List UInt8) : HeaderField :=
  if sameField at' "Sec-WebSocket-Key" then .key
  else if sameField at' "Sec-WebSocket-Version" then .version
  else if sameField at' "Sec-WebSocket-Protocol" then .protocol
  else if sameField at' "Sec-WebSocket-Extensions" then .extensions
  else .unknown

/-- `websocket_upgrade_on_header_field`: a name that is not known leaves the field as it was -/
def websocketUpgradeOnHeaderField (at' : List UInt8) : Prog (Handshake E) Unit := Prog.update fun s =>
  if headerField at' = .unknown then s else { s with currentHeaderField := headerField at' }

/-- `save_websocket_key` -/
def saveWebsocketKey (at' : List UInt8) : Prog (Handshake E) Bool := do
  if at'.length = SEC_WEB_SOCKET_KEY_LENGTH then
    Prog.update fun s => { s with secWebSocketKey := at' ++ wsGuid }
    return true
  else return false

/-- `check_websocket_version` -/
def checkWebsocketVersion (at' : List UInt8) : Bool := at' == ascii "13"

/-- the parts of a value that `check_websocket_protocol` looks at: what stands before the next comma, without the
white space before it -/
def protocolTokens : List UInt8 → List (List UInt8)
  | [] => []
  | c :: rest =>
    if isspace c || c == comma then protocolTokens rest
    else (c :: rest).takeWhile (· ≠ comma) :: protocolTokens (rest.dropWhile (· ≠ comma))
termination_by at' => at'.length
decreasing_by
  · exact Nat.lt_succ_self _
  · exact Nat.lt_succ_of_le (List.dropWhile_sublist _).length_le

/-- `fill_requested_sub_protocol` -/
def fillRequestedSubProtocol (name : List UInt8) : Prog (Handshake E) Unit := do
  let supported ← Prog.deref fun _ => srv.name
  Prog.update fun s => if supported = name then { s with found := true } else s

/-- `check_websocket_protocol` -/
def checkWebsocketProtocol (at' : List UInt8) : Prog (Handshake E) Unit :=
  Prog.each (fillRequestedSubProtocol srv) (protocolTokens at')

/-- the cases of `websocket_upgrade_on_header_value` -/
def takeValue (at' : List UInt8) : HeaderField → Prog (Handshake E) Bool
  | .unknown => pure true
  | .key => saveWebsocketKey at'
  | .version => pure (checkWebsocketVersion at')
  | .protocol => do
    Prog.update fun s => { s with protocolRequested := true }
    checkWebsocketProtocol srv at'
    return true
  | .extensions => do
    Prog.update fun s => { s with extensionCompression := srv.checkWebsocketExtensions s.extensionCompression at' }
    return true

/-- `websocket_upgrade_on_header_value`: does it return 0? -/
def websocketUpgradeOnHeaderValue (at' : List UInt8) : Prog (Handshake E) Bool := do
  let field ← Prog.read fun s => s.currentHeaderField
  let ok ← takeValue srv at' field
  Prog.update fun s => { s with currentHeaderField := .unknown }
  return ok

/-- `check_http_version` -/
def checkHttpVersion (r : Request) : Bool := decide (1 < r.httpMajor) || (r.httpMajor == 1 && decide (1 ≤ r.httpMinor))

/-- the value of `Sec-WebSocket-Accept` -/
def acceptValue (key : List UInt8) : List UInt8 := b64EncodeBuffer (srv.sha1 key).toList

/-- It fills the 28 bytes that `send_upgrade_response` has for it. -/
theorem length_acceptValue (key : List UInt8) : (acceptValue srv key).length = 28 := by
  unfold acceptValue
  rw [length_b64EncodeBuffer, Vector.length_toList]
  rfl

/-- the parts of the response -/
def switchResponse (s : Handshake E) : List UInt8 :=
  ascii "HTTP/1.1 101 Switching Protocols\r\nUpgrade: websocket\r\nConnection: Upgrade\r\nSec-WebSocket-Accept: "
    ++ acceptValue srv s.secWebSocketKey
    ++ (srv.name.elim [] fun name => ascii "\r\nSec-WebSocket-Protocol: " ++ name)
    ++ ((srv.extension s.extensionCompression).elim [] fun response =>
      ascii "\r\nSec-WebSocket-Extensions: " ++ response)
    ++ ascii "\r\n\r\n"

/-- `send_upgrade_response` -/
def sendUpgradeResponse : Prog (Handshake E) Bool := do
  let s ← Prog.read id
  if s.protocolRequested && !s.found then return false
  else
    Prog.update fun s => { s with sent := s.sent ++ [switchResponse srv s] }
    return srv.writes

/-- `websocket_upgrade_on_headers_complete` -/
def websocketUpgradeOnHeadersComplete (r : Request) : Prog (Handshake E) Bool := do
  if !checkHttpVersion r then return false
  else if r.method ≠ HTTP_GET then return false
  else if !r.upgrade then return false
  else sendUpgradeResponse srv

/-- The parser calls the callbacks for a header. -/
def onHeader (h : Header) : Prog (Handshake E) Bool := do
  websocketUpgradeOnHeaderField h.field
  websocketUpgradeOnHeaderValue srv h.value

/-- The parser goes on to the next header as long as the callbacks return 0. -/
def upgrade (r : Request) : Prog (Handshake E) Bool := do
  if ← Prog.tryAll (onHeader srv) r.headers then websocketUpgradeOnHeadersComplete srv r
  else return false

end

end Websocket
end Cjet
