import Cjet.Lib.Run
import Cjet.Model.Authenticate
import Cjet.Model.Peer

/-!
# The broker as a system (`parse.c`, `linux/linux_io.c`)

The event loop hands the broker one event after the other: a connection is accepted, a peer sends
a JSON object, the timer of a routed request fires, a connection goes away.  `step` processes one
of them.

* `handleMethod`, `parseJsonRpc`, `parseMessage`   what a peer's message does;
* `Event`, `Input`, `step`   the steps of the broker;
* `Broker.Reachable`   the states that a run from start-up ends in.
-/

set_option linter.unusedVariables false

namespace Cjet
open Stateful Alloc

section
variable {T : Type} [HashTable T] (env : Env)

/-- `handle_method` -/
def handleMethod (p : Addr) (request : Json) (methodName : String) : Prog (Broker T) Response :=
  if methodName = "change" then changeState env p request
  else if methodName = "set" then setOrCall env p request .state
  else if methodName = "call" then setOrCall env p request .method
  else if methodName = "add" then addElementToPeer env p request
  else if methodName = "remove" then removeElementFromPeer env p request
  else if methodName = "fetch" then processFetch env p request
  else if methodName = "unfetch" then removeFetchFromPeer env p request
  else if methodName = "get" then getElements env p request
  else if methodName = "config" then configPeer env p request
  else if methodName = "info" then handleInfo env request
  else if methodName = "authenticate" then handleAuthentication env p request
  else if methodName = "passwd" then handleChangePassword env p request
  else errorResponse env request ⟨METHOD_NOT_FOUND, "reason", methodName⟩

theorem handleMethod_add (p : Addr) (request : Json) :
    handleMethod (T := T) env p request "add" = addElementToPeer env p request := by
  unfold handleMethod
  simp only [String.reduceEq, if_false, if_true]

theorem handleMethod_change (p : Addr) (request : Json) :
    handleMethod (T := T) env p request "change" = changeState env p request := rfl

theorem handleMethod_fetch (p : Addr) (request : Json) :
    handleMethod (T := T) env p request "fetch" = processFetch env p request := by
  unfold handleMethod
  simp only [String.reduceEq, if_false, if_true]

theorem handleMethod_get (p : Addr) (request : Json) :
    handleMethod (T := T) env p request "get" = getElements env p request := by
  unfold handleMethod
  simp only [String.reduceEq, if_false, if_true]

theorem handleMethod_unfetch (p : Addr) (request : Json) :
    handleMethod (T := T) env p request "unfetch" = removeFetchFromPeer env p request := by
  unfold handleMethod
  simp only [String.reduceEq, if_false, if_true]

theorem handleMethod_remove (p : Addr) (request : Json) :
    handleMethod (T := T) env p request "remove" = removeElementFromPeer env p request := by
  unfold handleMethod
  simp only [String.reduceEq, if_false, if_true]

/-- `send_response` -/
def sendResponse (p : Addr) (response : Option Json) : Prog (Broker T) Bool := do
  match response with
  | none => return true
  | some response =>
    let received ← Prog.read fun b => b.received
    formatAndSendResponse env p (.response received) response

/-- the request of a peer, answered where there is an answer -/
def answerRequest (p : Addr) (request : Json) (method : Json) : Prog (Broker T) Bool := do
  match method with
  | .str methodName =>
    let response ← handleMethod env p request methodName
    sendResponse env p response.json
  | _ =>
    let response ← errorResponse env request ⟨INVALID_REQUEST, "reason", "method is not a string"⟩
    sendResponse env p response.json

/-- `parse_json_rpc`; `false` is a negative result -/
def parseJsonRpc (p : Addr) (request : Json) : Prog (Broker T) Bool := do
  match request.getObjectItem "method" with
  | some method => answerRequest env p request method
  | none =>
    match request.getObjectItem "result" with
    | some result => handleRoutingResponse env request result "result" p
    | none =>
      match request.getObjectItem "error" with
      | some error => handleRoutingResponse env request error "error" p
      | none =>
        let response ← errorResponse env request
          ⟨INVALID_REQUEST, "reason", "neither request nor response"⟩
        sendResponse env p response.json

/-- `parse_json_rpc` on one object of a message; the objects are numbered -/
def receiveObject (p : Addr) (request : Json) : Prog (Broker T) Bool := do
  let ret ← parseJsonRpc env p request
  Prog.update fun b => { b with received := b.received + 1 }
  return ret

/-- `parse_json_array` -/
def parseJsonArray (p : Addr) : List Json → Prog (Broker T) Bool
  | [] => return true
  | .obj members :: rest => do
    let ret ← receiveObject env p (.obj members)
    if ret then parseJsonArray p rest else return false
  | _ :: _ => return false

/-- `parse_message` on a text that could be parsed -/
def parseMessage (p : Addr) (root : Json) : Prog (Broker T) Bool :=
  match root with
  | .arr l => parseJsonArray env p l
  | .obj members => receiveObject env p (.obj members)
  | _ => pure false

end

/-! ## steps -/

inductive Event where
  | connect (p : Addr) (connection : Connection) (isLocalConnection : Bool)
  /-- one object of a message of `p` -/
  | rpc (p : Addr) (request : Json)
  /-- the timer of a routed request expires -/
  | timeout (r : Addr)
  | disconnect (p : Addr)

/-- an event, with the outcomes of the calls made while it is processed -/
structure Input where
  outcomes : Outcomes
  event : Event

/-- an event during which every call succeeds -/
def Event.good (e : Event) : Input := ⟨Outcomes.good, e⟩

/-- a request object -/
def Json.request (id : Option Json) (method : String) (params : List (String × Json)) : Json :=
  .obj ((id.map fun j => ("id", j)).toList ++ [("method", .str method), ("params", .obj params)])

section
variable {T : Type} [HashTable T]

/-- what the event loop calls; a peer connects at an address that no connected peer has -/
def handleEvent (env : Env) : Event → Prog (Broker T) Unit
  | .connect p connection isLocalConnection => do
    Prog.require fun b => !b.peerList.contains p
    connectPeer env p connection isLocalConnection
  | .rpc p request => do
    Prog.require fun b => b.peerList.contains p
    let _ ← receiveObject env p request
    return ()
  | .timeout r => do
    Prog.require fun b => b.timers r == some true
    requestTimeoutHandler env r
  | .disconnect p => do
    Prog.require fun b => b.peerList.contains p
    freePeerResources env p

variable (platform : Platform)

def Input.env (i : Input) : Env := ⟨platform, i.outcomes⟩

def step (b : Broker T) (i : Input) : Option (Broker T) :=
  (handleEvent (i.env platform) i.event { b with calls := 0 }).map (·.2)

/-- `b` is the state after start-up -/
def Broker.IsStart (b : Broker T) : Prop :=
  ∃ allGroups userData passwordFile, b = Broker.start platform.config allGroups userData passwordFile

/-- the states after runs from start-up -/
def Broker.Reachable (b : Broker T) : Prop :=
  ∃ s l, s.IsStart platform ∧ run (step platform) s l = some b

theorem isStart_start (allGroups : Option (List String)) (userData : Option Json)
    (passwordFile : List UInt8) :
    (Broker.start (T := T) platform.config allGroups userData passwordFile).IsStart platform :=
  ⟨allGroups, userData, passwordFile, rfl⟩

theorem step_some {platform : Platform} {b b' : Broker T} {i : Input}
    (h : step platform b i = some b') :
    handleEvent (i.env platform) i.event { b with calls := 0 } = some ((), b') := by
  obtain ⟨⟨u, t⟩, h1, h2⟩ := Option.map_eq_some_iff.mp h
  cases u
  cases h2
  exact h1

end

end Cjet
