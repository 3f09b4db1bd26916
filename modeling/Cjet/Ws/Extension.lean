import Cjet.Ws.Handshake

/-!
# Negotiating the compression (`websocket.c`)

* `ExtensionCompression`       the settings, and the response to an offer;
* `splitLoop`                  the tokenizer of `fill_requested_extension`: where a parameter starts in memory, and a
                               count of the characters of it that are not blank;
* `fillParameter`, `fillRequestedExtension`   the parameters are written into the settings one after the other;
* `checkWebsocketExtensions`   the elements of a header line.

The memory goes on behind an element: with the comma or the end of the line that follows.
-/

set_option linter.unusedVariables false

namespace Cjet
namespace Websocket

/-- `extension_compression` -/
structure ExtensionCompression where
  compressionLevel : Nat
  clientMaxWindowBits : Nat
  serverMaxWindowBits : Nat
  clientNoContextTakeover : Bool
  serverNoContextTakeover : Bool
  /-- what has been written so far; null where nothing has been allocated -/
  response : Option (List UInt8)
  accepted : Bool

/-- the levels of `websocket_init`; it fails for the others -/
def ExtensionCompression.init : (compressionLevel : Nat) → Option ExtensionCompression
  | 1 => some ⟨1, 8, 9, true, true, none, false⟩
  | 2 => some ⟨2, 12, 12, false, false, none, false⟩
  | 0 => some ⟨0, 15, 15, false, false, none, false⟩
  | 3 => some ⟨3, 15, 15, false, false, none, false⟩
  | _ => none

abbrev semicolon : UInt8 := 59
abbrev equals : UInt8 := 61

def PERMESSAGE_DEFLATE : List UInt8 := ascii "permessage-deflate"
def CLIENT_MAX_WINDOW_BITS : List UInt8 := ascii "client_max_window_bits"
def SERVER_MAX_WINDOW_BITS : List UInt8 := ascii "server_max_window_bits"
def CLIENT_NO_CONTEXT_TAKEOVER : List UInt8 := ascii "client_no_context_takeover"
def SERVER_NO_CONTEXT_TAKEOVER : List UInt8 := ascii "server_no_context_takeover"

/-! ## the tokenizer -/

/-- The loop over the element: `text` is the memory from here on, and `left` bytes of it belong to the element.
A parameter is the memory from its first character on and a count; its first character is counted unseen.  No result
for a fifth parameter. -/
def splitLoop : (fuel : Nat) → (text : List UInt8) → (left : Nat) → (last : List UInt8 × Nat) →
    (before : List (List UInt8 × Nat)) → Option (List (List UInt8 × Nat))
  | 0, _, _, last, before => some (before ++ [last])
  | fuel + 1, text, left, last, before =>
    if left = 0 then some (before ++ [last])
    else if text.headD 0 = semicolon then
      if before.length + 1 = 5 then none
      else
        let parameter := text.tail.dropWhile isspace
        let skipped := text.tail.length - parameter.length
        splitLoop fuel parameter.tail (left - 1 - skipped - 1) (parameter, 1) (before ++ [last])
    else if isspace (text.headD 0) then splitLoop fuel text.tail (left - 1) last before
    else splitLoop fuel text.tail (left - 1) (last.1, last.2 + 1) before

/-! ## the parameters -/

/-- `write_to_response` -/
def writeToResponse (paramName : List UInt8) (value : Nat) (response : List UInt8) : List UInt8 :=
  let no : UInt8 := UInt8.ofNat (value % 10) + 48
  response ++ ascii "; " ++ paramName ++
    (if value = 0 then [] else if value < 10 then [equals, no] else [equals, 49, no])

/-- the settings, and which parameters the client has offered so far -/
structure Negotiation where
  s : ExtensionCompression
  response : List UInt8
  clientOfferedCMaxWindow : Bool
  clientOfferedSMaxWindow : Bool
  clientOfferedCNoTakeover : Bool
  clientOfferedSNoTakeover : Bool

/-- the value behind the name of a parameter, as the memory has it: a digit, which is `least` or more, or the digits of
10 to 15 -/
def windowBits (least : UInt32) (oneDigit : Bool) (value : List UInt8) : Option Nat :=
  if value.headD 0 ≠ equals then none
  else if oneDigit then
    let tmp := (value.tail.headD 0).toUInt32 - 48
    if tmp < least ∨ 9 < tmp then none else some tmp.toNat
  else if value.tail.headD 0 ≠ 49 then none
  else
    let tmp := (value.tail.tail.headD 0).toUInt32 - 48
    if 5 < tmp then none else some (10 + tmp.toNat)

/-- `client_max_window_bits` -/
def fillClientMaxWindowBits (n : Negotiation) (parameter : List UInt8) (parameterLength : Nat) : Option Negotiation :=
  if n.clientOfferedCMaxWindow then none
  else if 22 + 3 < parameterLength then none
  else
    let answer := fun bits =>
      { n with
        s := { n.s with clientMaxWindowBits := bits }
        response := writeToResponse CLIENT_MAX_WINDOW_BITS bits n.response
        clientOfferedCMaxWindow := true }
    if 22 < parameterLength then
      (windowBits 8 (parameterLength = 22 + 2) (parameter.drop 22)).map
      fun bits => answer (min n.s.clientMaxWindowBits bits)
    else some (answer n.s.clientMaxWindowBits)

/-- `server_max_window_bits` -/
def fillServerMaxWindowBits (n : Negotiation) (parameter : List UInt8) (parameterLength : Nat) : Option Negotiation :=
  if n.clientOfferedSMaxWindow then none
  else if 22 + 3 < parameterLength then none
  else
    (windowBits 9 (parameterLength = 22 + 2) (parameter.drop 22)).map fun bits =>
      { n with
        s := { n.s with serverMaxWindowBits := min n.s.serverMaxWindowBits bits }
        response := writeToResponse SERVER_MAX_WINDOW_BITS (min n.s.serverMaxWindowBits bits) n.response
        clientOfferedSMaxWindow := true }

/-- `client_no_context_takeover` -/
def fillClientNoContextTakeover (n : Negotiation) : Option Negotiation :=
  if n.clientOfferedCNoTakeover then none
  else
    some { n with
      s := { n.s with clientNoContextTakeover := true }
      response := writeToResponse CLIENT_NO_CONTEXT_TAKEOVER 0 n.response
      clientOfferedCNoTakeover := true }

/-- `server_no_context_takeover` -/
def fillServerNoContextTakeover (n : Negotiation) : Option Negotiation :=
  if n.clientOfferedSNoTakeover then none
  else
    some { n with
      s := { n.s with serverNoContextTakeover := true }
      response := writeToResponse SERVER_NO_CONTEXT_TAKEOVER 0 n.response
      clientOfferedSNoTakeover := true }

/-- the body of the loop over the parameters; no result where it returns -/
def fillParameter (n : Negotiation) (parameter : List UInt8) (parameterLength : Nat) : Option Negotiation :=
  if parameterLength < 22 then none
  else if parameter.take 22 = CLIENT_MAX_WINDOW_BITS then fillClientMaxWindowBits n parameter parameterLength
  else if parameter.take 22 = SERVER_MAX_WINDOW_BITS then fillServerMaxWindowBits n parameter parameterLength
  else if parameterLength < 26 then none
  else if parameter.take 26 = CLIENT_NO_CONTEXT_TAKEOVER then fillClientNoContextTakeover n
  else if parameter.take 26 = SERVER_NO_CONTEXT_TAKEOVER then fillServerNoContextTakeover n
  else none

/-- the loop over the parameters: the settings stay as they are where it returns -/
def fillParameters : Negotiation → List (List UInt8 × Nat) → Negotiation × Bool
  | n, [] => (n, true)
  | n, (parameter, parameterLength) :: rest =>
    match fillParameter n parameter parameterLength with
    | none => (n, false)
    | some n => fillParameters n rest

/-- what follows the loop: the settings that the client has not asked for are added -/
def acceptExtension (n : Negotiation) : ExtensionCompression :=
  let s := if n.clientOfferedCMaxWindow then n.s else { n.s with clientMaxWindowBits := 15 }
  let response := n.response
  let response :=
    if !n.clientOfferedSMaxWindow && decide (s.serverMaxWindowBits < 15) then
      writeToResponse SERVER_MAX_WINDOW_BITS s.serverMaxWindowBits response
    else response
  let response :=
    if !n.clientOfferedCNoTakeover && s.clientNoContextTakeover then
      writeToResponse CLIENT_NO_CONTEXT_TAKEOVER 0 response
    else response
  let response :=
    if !n.clientOfferedSNoTakeover && s.serverNoContextTakeover then
      writeToResponse SERVER_NO_CONTEXT_TAKEOVER 0 response
    else response
  { s with response := some response, accepted := true }

/-- `fill_requested_extension`; `behind` is the memory behind the element -/
def fillRequestedExtension (s : ExtensionCompression) (element behind : List UInt8) : ExtensionCompression :=
  if s.accepted ∨ s.compressionLevel = 0 then s
  else
    match splitLoop element.length (element ++ behind) element.length (element ++ behind, 0) [] with
    | none => s
    | some [] => s
    | some ((name, nameLength) :: parameters) =>
      if nameLength = 18 ∧ name.take 18 = PERMESSAGE_DEFLATE then
        let (n, complete) := fillParameters ⟨s, PERMESSAGE_DEFLATE, false, false, false, false⟩ parameters
        if complete then acceptExtension n else { n.s with response := some n.response }
      else s

/-! ## header lines -/

/-- the elements of a header line, each with the memory behind it -/
def extensionElements : (value behind : List UInt8) → List (List UInt8 × List UInt8)
  | [], _ => []
  | c :: rest, behind =>
    if isspace c || c == comma then extensionElements rest behind
    else
      ((c :: rest).takeWhile (· ≠ comma), rest.dropWhile (· ≠ comma) ++ behind) ::
        extensionElements (rest.dropWhile (· ≠ comma)) behind
termination_by value => value.length
decreasing_by
  · exact Nat.lt_succ_self _
  · exact Nat.lt_succ_of_le (List.dropWhile_sublist _).length_le

/-- `check_websocket_extensions` -/
def checkWebsocketExtensions (s : ExtensionCompression) (value behind : List UInt8) : ExtensionCompression :=
  (extensionElements value behind).foldl (fun s e => fillRequestedExtension s e.1 e.2) s

end Websocket
end Cjet
