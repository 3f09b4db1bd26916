import Cjet.Model.Response

/-!
# Routing of set and call requests (`router.c`, `linux/timer_linux.c`)

A set or call is sent on to the owner of the element under a routed id; the routing request that
remembers the requester is stored in the owner's routing table until the owner responds, the
timer fires, or one of the two peers goes away.
-/

set_option linter.unusedVariables false

namespace Cjet
open Stateful Alloc

inductive ElementType where
  | state
  | method
  deriving DecidableEq

/-! ## the routed id -/

section
variable (platform : Platform)

/-- `%x` -/
def hexText (n : Nat) : String := String.ofList (Nat.toDigits 16 n)

/-- `%s` of `valuestring`, which is null for a number -/
def valueText : Json → String
  | .str s => s
  | _ => platform.printNull

/-- the text that `"%s_%x_%p"` or `"%x_%p"` formats to -/
def routedRequestIdText (address : Addr) (originRequestId : Option Json) (uuid : Nat) : String :=
  match originRequestId with
  | some id => valueText platform id ++ "_" ++ hexText uuid ++ "_" ++ platform.printPointer address
  | none => hexText uuid ++ "_" ++ platform.printPointer address

/-- `calculate_size_for_routed_request_id`: the terminating zero is not counted -/
def calculateSizeForRoutedRequestId (address : Addr) (originRequestId : Option Json) (uuid : Nat) :
    Nat := (routedRequestIdText platform address originRequestId uuid).toList.length

/-- `fill_routed_request_id`: `snprintf` keeps the last byte of the buffer for the zero -/
def fillRoutedRequestId (bufSize : Nat) (address : Addr) (originRequestId : Option Json)
    (uuid : Nat) : String :=
  String.ofList ((routedRequestIdText platform address originRequestId uuid).toList.take (bufSize - 1))

end

section
variable {T : Type} [HashTable T] (env : Env)

/-! ## the routed message and the routing request -/

/-- the value to be routed: a copy of the given one, or an empty object -/
def copyRoutedValue (value : Option Json) : Alloc (Option Json) :=
  match value with
  | some v => duplicate env v
  | none => createObject env

/-- `create_routed_message` -/
def createRoutedMessage (path : String) (what : ElementType) (value : Option Json) (id : String) :
    Alloc (Option Json) := do
  match ← createObject env with
  | none => return none
  | some message =>
    match ← createString env id with
    | none => return none
    | some jsonId =>
      let message ← addItemToObject env message "id" (some jsonId)
      match ← createString env path with
      | none => return none
      | some method =>
        let message ← addItemToObject env message "method" (some method)
        match ← copyRoutedValue env value with
        | none => return none
        | some valueCopy =>
          if what = .method then
            return some (← addItemToObject env message "params" (some valueCopy))
          else
            match ← createObject env with
            | none => return none
            | some params =>
              let attached ← Alloc.call env .addItem
              let params ← addItemToObject env params "value" (some valueCopy)
              return some (if attached then message.addItem "params" params else message)

/-- the copy of the request's id, which may be absent; `none` where it cannot be allocated -/
def copyOriginId (originRequestId : Option Json) : Alloc (Option (Option Json)) := do
  match originRequestId with
  | none => return some none
  | some id => return (← duplicate env id).map some

/-- `alloc_routing_request` -/
def allocRoutingRequest (requestingPeer ownerPeer : Addr) (originRequestId : Option Json) :
    Prog (Broker T) (Option Addr) := do
  let b ← Prog.read id
  let sizeForId := calculateSizeForRoutedRequestId env.toPlatform requestingPeer originRequestId b.uuid
  if ← call env .malloc then
    match ← allocating (copyOriginId env originRequestId) with
    | none => return none
    | some copy =>
      let request : RoutingRequest :=
        { requestingPeer := requestingPeer
          ownerPeer := ownerPeer
          originRequestId := copy
          id := fillRoutedRequestId env.toPlatform sizeForId requestingPeer originRequestId b.uuid
          origin := b.received }
      Prog.update fun b =>
        { b with requests := Function.update b.requests b.routed (some request)
                 uuid := (b.uuid + 1) % 2 ^ 32
                 routed := b.routed + 1 }
      return some b.routed
  else return none

/-! ## timers -/

/-- `cjet_timer_init` -/
def cjetTimerInit (r : Addr) : Prog (Broker T) Bool := do
  if ← call env .timerfdCreate then
    if ← call env .epollAdd then
      Prog.update fun b => { b with timers := Function.update b.timers r (some false) }
      return true
    else return false
  else return false

/-- `timer_start` -/
def timerStart (r : Addr) : Prog (Broker T) Bool := do
  let ok ← call env .timerfdSettime
  Prog.update fun b => if ok then
    { b with timers := Function.update b.timers r ((b.timers r).map fun _ => true) } else b
  return ok

/-- `timer_cancel`: the handler does nothing when it is called for a cancelled timer -/
def timerCancel (r : Addr) : Prog (Broker T) Bool := do
  let ok ← call env .timerfdSettime
  Prog.update fun b => if ok then
    { b with timers := Function.update b.timers r ((b.timers r).map fun _ => false) } else b
  return ok

/-- `cjet_timer_destroy` -/
def cjetTimerDestroy (r : Addr) : Prog (Broker T) Unit :=
  Prog.update fun b => { b with timers := Function.update b.timers r none }

/-- `cjet_free(request)` -/
def freeRequest (r : Addr) : Prog (Broker T) Unit :=
  Prog.update fun b => { b with requests := Function.update b.requests r none }

/-! ## the routing table of a peer -/

/-- `HASHTABLE_PUT(route_table, p->routing_table, id, r)` -/
def routeTablePut (p : Addr) (id : String) (r : Addr) : Prog (Broker T) Bool := fun b =>
  some ((HashTable.put (b.routingTable p) id r).1,
    { b with routingTable := Function.update b.routingTable p (HashTable.put (b.routingTable p) id r).2 })

/-- `HASHTABLE_REMOVE(route_table, p->routing_table, id, &val)` -/
def routeTableRemove (p : Addr) (id : String) : Prog (Broker T) (Option Addr) := fun b =>
  some ((HashTable.remove (b.routingTable p) id).1,
    { b with routingTable := Function.update b.routingTable p (HashTable.remove (b.routingTable p) id).2 })

/-- `format_and_send_response` -/
def formatAndSendResponse (p : Addr) (about : About) (response : Json) : Prog (Broker T) Bool := do
  match ← allocating (printUnformatted env about response) with
  | none => return false
  | some rendered => sendMessage env p about rendered

/-- creates an error response for the requester, if its request had an id, and sends it -/
def answerWithError (p : Addr) (about : About) (originRequestId : Option Json) (reason : String) :
    Prog (Broker T) Unit := do
  match originRequestId with
  | none => return ()
  | some id =>
    match ← allocating (createErrorResponse env id ⟨INTERNAL_ERROR, "reason", reason⟩) with
    | none => return ()
    | some response =>
      let _ ← formatAndSendResponse env p about response
      return ()

/-- `request_timeout_handler(context, false)` -/
def requestTimeoutHandler (r : Addr) : Prog (Broker T) Unit := do
  let request ← Prog.deref fun b => b.requests r
  Prog.require fun b => b.peerList.contains request.ownerPeer
  let _ ← routeTableRemove request.ownerPeer request.id
  answerWithError env request.requestingPeer (.response request.origin) request.originRequestId
    "timeout for routed request"
  cjetTimerDestroy r
  freeRequest r

/-- `setup_routing_information`; `none` is its result 0.  A timeout of 0 leaves the request without an answer. -/
def setupRoutingInformation (e : Element) (request : Json) (timeout : Option Json) (r : Addr)
    (id : String) : Prog (Broker T) (Option Response) := do
  match getTimeoutInNsec env.toPlatform timeout e.timeoutNsec with
  | .error err => return some (← failureResponse env request err)
  | .ok _ =>
    if ← cjetTimerInit env r then
      if ← routeTablePut e.peer id r then
        if ← timerStart env r then return none
        else
          let _ ← routeTableRemove e.peer id
          return some (← errorResponse env request
            ⟨INTERNAL_ERROR, "reason", "could not start timer for routing request"⟩)
      else
        return some (← errorResponse env request ⟨INTERNAL_ERROR, "reason", "routing table full"⟩)
    else
      return some (← errorResponse env request
        ⟨INTERNAL_ERROR, "reason", "could not init timer for routing request"⟩)

/-- the part of `handle_routing_response` that answers the requester, if its request had an id.
Where the response cannot be created, the copy of the value has already been released with it and
is released again. -/
def forwardResponse (request : RoutingRequest) (response : Json) (resultType : String) :
    Prog (Broker T) Bool := do
  match request.originRequestId with
  | none => return true
  | some id =>
    match ← allocating (duplicate env response) with
    | none => return false
    | some responseCopy =>
      match ← allocating (createResultResponse env id (some responseCopy) resultType) with
      | none => Prog.undefined
      | some resultResponse =>
        let _ ← formatAndSendResponse env request.requestingPeer (.response request.origin)
          resultResponse
        return true

/-- `handle_routing_response`; `false` is a negative result -/
def handleRoutingResponse (jsonRpc response : Json) (resultType : String) (p : Addr) :
    Prog (Broker T) Bool := do
  match jsonRpc.getObjectItem "id" with
  | some (.str id) =>
    match ← routeTableRemove p id with
    | none => return true
    | some r =>
      let request ← Prog.deref fun b => b.requests r
      let _ ← timerCancel env r
      cjetTimerDestroy r
      let ret ← forwardResponse env request response resultType
      freeRequest r
      return ret
  | _ => return false

/-! ## a peer goes away -/

/-- `send_shutdown_response` -/
def sendShutdownResponse (p : Addr) (about : About) (originRequestId : Option Json) :
    Prog (Broker T) Unit := answerWithError env p about originRequestId "peer shuts down"

/-- `clear_routing_entry` -/
def clearRoutingEntry (r : Addr) : Prog (Broker T) Unit := do
  let request ← Prog.deref fun b => b.requests r
  let _ ← timerCancel env r
  sendShutdownResponse env request.requestingPeer (.response request.origin) request.originRequestId
  freeRequest r

/-- the body of the loop in `remove_peer_from_routing_table`: the entry leaves the table whoever
made the request -/
def removePeerFromSlot (p peerToRemove : Addr) (i : Nat) : Prog (Broker T) Unit := do
  match ← Prog.read fun b => HashTable.slot (b.routingTable p) i with
  | none => pure ()
  | some key =>
    match ← routeTableRemove p key with
    | none => pure ()
    | some r =>
      let request ← Prog.deref fun b => b.requests r
      if request.requestingPeer = peerToRemove then clearRoutingEntry env r else pure ()

/-- `remove_peer_from_routing_table` -/
def removePeerFromRoutingTable (p peerToRemove : Addr) : Prog (Broker T) Unit := do
  let size ← Prog.read fun b => HashTable.size (b.routingTable p)
  Prog.each (removePeerFromSlot env p peerToRemove) (List.range size)

/-- the body of the loop in `remove_routing_info_from_peer` -/
def removeRoutingInfoFromSlot (p : Addr) (i : Nat) : Prog (Broker T) Unit := do
  match ← Prog.read fun b => HashTable.slot (b.routingTable p) i with
  | none => pure ()
  | some key =>
    match ← routeTableRemove p key with
    | none => pure ()
    | some r => clearRoutingEntry env r

/-- `remove_routing_info_from_peer` -/
def removeRoutingInfoFromPeer (p : Addr) : Prog (Broker T) Unit := do
  let size ← Prog.read fun b => HashTable.size (b.routingTable p)
  Prog.each (removeRoutingInfoFromSlot env p) (List.range size)

end

end Cjet
