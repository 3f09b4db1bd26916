import Cjet.Model.Parse

/-!
# Peers that are not initialised (`socket_peer.c`, `websocket_peer.c`)

Where its routing table cannot be allocated `init_peer` fails before it sets anything else.  Nobody looks at the
result: the peer is in no list of peers, its table is null, its groups and its other fields are what the memory held,
and it is served like any other peer.

* `Service`        the broker, and what the memory of these peers holds;
* `followsUnset`   the requests that have cjet follow a pointer which was never set: C leaves open what happens then;
* `serve`          the steps of the broker with these peers.

In the model they stand in `peerList`, so that messages can be sent to them; a loop over the peers finds nothing in
their lists and in their tables, as if they were not there.
-/

set_option linter.unusedVariables false

namespace Cjet
open Stateful Alloc

structure Service (T : Type) extends Broker T where
  /-- the peers whose `init_peer` has failed -/
  uninitialised : Addr → Option PeerMemory

section
variable {T : Type}

/-- a broker none of whose peers lacks anything -/
def Service.of (b : Broker T) : Service T := ⟨b, fun _ => none⟩

/-- what the broker does -/
def onBroker {α : Type} (m : Prog (Broker T) α) : Prog (Service T) α := fun s =>
  (m s.toBroker).map fun r => (r.1, { s with toBroker := r.2 })

/-! ## what a request finds -/

/-- Does the request have cjet follow a pointer of the peer that has not been set: to its elements or fetches, its
name, its user name or its routing table? -/
def followsUnset (memory : PeerMemory) (b : Broker T) (p : Addr) (request : Json) : Bool :=
  match request.getObjectItem "method" with
  | some (.str "remove") => memory.wildElementList && (getParamsAndPath request).isOk
  | some (.str "fetch") => memory.wildFetchList && (checkFetch b p request).isOk
  | some (.str "unfetch") => memory.wildFetchList && (getParams request >>= getFetchId).isOk
  | some (.str "config") => memory.wildName && (getParams request >>= getName).toOption.join.isSome
  | some (.str "passwd") => memory.wildUserName && (getUserAndPassword request).isOk
  | some _ => false
  | none =>
    ((request.getObjectItem "result").isSome || (request.getObjectItem "error").isSome) &&
      (request.getObjectItem "id").any Json.isString

/-- the user of an authenticate for whom `list_empty(&p->fetch_list)` fails -/
def refusedLogin (memory : PeerMemory) (request : Json) : Option String :=
  match request.getObjectItem "method" with
  | some (.str "authenticate") =>
    if memory.wildFetchList then (getUserAndPassword request).toOption.map (·.1) else none
  | _ => none

/-- the input is an authenticate that is refused because of what is in the fetch list of its peer -/
def Service.refusesLogin (s : Service T) (i : Input) : Bool :=
  match i.event with
  | .rpc p request => (s.uninitialised p).any fun memory => (refusedLogin memory request).isSome
  | _ => false

variable [HashTable T] (env : Env)

/-- the memory after a request: an authenticate that passes its checks sets the user name -/
def memoryAfter (memory : PeerMemory) (b : Broker T) (p : Addr) (request : Json) : PeerMemory :=
  match request.getObjectItem "method" with
  | some (.str "authenticate") =>
    { memory with wildUserName := memory.wildUserName && !(checkAuthenticate env b p request).isOk }
  | _ => memory

/-! ## the events -/

/-- `init_peer` has failed for a peer -/
def leaveUninitialised (p : Addr) (memory : PeerMemory) : Prog (Service T) Unit := do
  onBroker (enterPeer env p memory memory.isLocalConnection)
  Prog.update fun s => { s with uninitialised := Function.update s.uninitialised p (some memory) }

/-- `alloc_jet_peer` and `init_socket_peer`, or `alloc_websocket_peer` and `init_websocket_peer` -/
def servePeer (p : Addr) (connection : Connection) (isLocalConnection : Bool) : Prog (Service T) Unit := do
  if ← onBroker (call env connection.allocation) then
    if ← onBroker (initPeer env p connection.memory isLocalConnection) then return ()
    else
      leaveUninitialised env p connection.memory
  else return ()

/-- the answer to an authenticate of a peer that seems to fetch -/
def refuseLogin (p : Addr) (request : Json) (user : String) : Prog (Broker T) Unit := do
  let response ← errorResponse env request ⟨INVALID_PARAMS, "fetched before authenticate", user⟩
  let _ ← sendResponse env p response.json
  Prog.update fun b => { b with received := b.received + 1 }

/-- one object of a message of a peer that is not initialised -/
def receiveUninitialised (p : Addr) (memory : PeerMemory) (request : Json) : Prog (Service T) Unit := do
  let s ← Prog.read id
  if followsUnset memory s.toBroker p request then Prog.undefined
  else
    match refusedLogin memory request with
    | some user => onBroker (refuseLogin env p request user)
    | none =>
      onBroker (handleEvent env (.rpc p request))
      -- the element of an add and the fetch of a fetch are linked behind the head of a list that was never set
      Prog.require fun s => (s.elementList p).isEmpty && (s.fetchList p).isEmpty
      let memory := memoryAfter env memory s.toBroker p request
      Prog.update fun t => { t with uninitialised := Function.update t.uninitialised p (some memory) }

/-- what the event loop calls -/
def serveEvent : Event → Prog (Service T) Unit
  | .connect p connection isLocalConnection => do
    Prog.require fun s => !s.peerList.contains p
    servePeer env p connection isLocalConnection
  | .rpc p request => do
    match ← Prog.read fun s => s.uninitialised p with
    | none => onBroker (handleEvent env (.rpc p request))
    | some memory => receiveUninitialised env p memory request
  | .timeout r => onBroker (handleEvent env (.timeout r))
  | .disconnect p => do
    -- `remove_routing_info_from_peer` follows the routing table, which is null
    Prog.require fun s => (s.uninitialised p).isNone
    onBroker (handleEvent env (.disconnect p))

variable (platform : Platform)

def serve (s : Service T) (i : Input) : Option (Service T) :=
  (serveEvent (i.env platform) i.event { s with calls := 0 }).map (·.2)

/-- `init_peer` succeeds where the memory for a peer has been allocated -/
def Input.InitsPeer (i : Input) : Prop :=
  ∀ p connection isLocal, i.event = .connect p connection isLocal →
    (i.env platform).ok connection.allocation 0 = true → (i.env platform).ok .malloc 1 = true

end

end Cjet
