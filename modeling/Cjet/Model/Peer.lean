import Cjet.Model.Element

/-!
# Peers come and go (`peer.c`, `socket_peer.c`, `websocket_peer.c`, `config.c`, `info.c`)
-/

set_option linter.unusedVariables false

namespace Cjet
open Stateful Alloc

/-- What a `struct peer` holds when it has been allocated.  `init_peer` sets everything but the group words, and
nothing where it fails. -/
structure PeerMemory where
  fetchGroups : GroupSet
  setGroups : GroupSet
  callGroups : GroupSet
  isLocalConnection : Bool
  /-- the pointers that are neither null nor set -/
  wildName : Bool
  wildUserName : Bool
  /-- the heads of lists that do not point to themselves -/
  wildElementList : Bool
  wildFetchList : Bool

/-- memory from `cjet_calloc` -/
def PeerMemory.zero : PeerMemory where
  fetchGroups := 0
  setGroups := 0
  callGroups := 0
  isLocalConnection := false
  wildName := false
  wildUserName := false
  wildElementList := true
  wildFetchList := true

/-- no group is in the memory -/
def PeerMemory.NoGroups (memory : PeerMemory) : Prop :=
  memory.fetchGroups = 0 ∧ memory.setGroups = 0 ∧ memory.callGroups = 0

inductive Connection where
  /-- `alloc_jet_peer`: `cjet_malloc` leaves the memory as it was -/
  | socket (memory : PeerMemory)
  /-- `alloc_websocket_peer`: `cjet_calloc` -/
  | websocket

/-- the memory of the new `struct peer` -/
def Connection.memory : Connection → PeerMemory
  | .socket memory => memory
  | .websocket => .zero

/-- the call that allocates the peer -/
def Connection.allocation : Connection → Call
  | .socket _ => .malloc
  | .websocket => .calloc

section
variable {T : Type} [HashTable T] (env : Env)

/-! ## connecting -/

/-- a peer with the groups of its memory, with empty lists and an empty table -/
def enterPeer (p : Addr) (memory : PeerMemory) (isLocalConnection : Bool) : Prog (Broker T) Unit :=
  Prog.update fun b =>
    { b with
      routingTable := Function.update b.routingTable p (HashTable.create env.config.routingTableOrder)
      name := Function.update b.name p none
      userName := Function.update b.userName p none
      isLocalConnection := Function.update b.isLocalConnection p isLocalConnection
      elementList := Function.update b.elementList p []
      fetchList := Function.update b.fetchList p []
      fetchGroups := Function.update b.fetchGroups p memory.fetchGroups
      setGroups := Function.update b.setGroups p memory.setGroups
      callGroups := Function.update b.callGroups p memory.callGroups
      peerList := b.peerList ++ [p] }

/-- `init_peer`: it leaves the group words as they are -/
def initPeer (p : Addr) (memory : PeerMemory) (isLocalConnection : Bool) : Prog (Broker T) Bool := do
  if ← call env .malloc then
    enterPeer env p memory isLocalConnection
    return true
  else return false

/-- A connection is accepted.  The result of `init_peer` is ignored: where it fails the peer is served all the same,
with what its memory holds and in no list of peers.  Here it stays silent, and nothing is left of it in the state;
`serve` adds what it can do. -/
def connectPeer (p : Addr) (connection : Connection) (isLocalConnection : Bool) :
    Prog (Broker T) Unit := do
  if ← call env connection.allocation then
    let _ ← initPeer env p connection.memory isLocalConnection
    return ()
  else return ()

/-! ## disconnecting -/

/-- `remove_peer_from_routes` -/
def removePeerFromRoutes (peerToRemove : Addr) : Prog (Broker T) Unit := do
  let peers ← Prog.read fun b => b.peerList
  Prog.each (fun p => removePeerFromRoutingTable env p peerToRemove) peers

/-- `delete_routing_table` -/
def deleteRoutingTable (p : Addr) : Prog (Broker T) Unit :=
  Prog.update fun b =>
    { b with routingTable := Function.update b.routingTable p (HashTable.create env.config.routingTableOrder) }

/-- the end of `free_peer_resources`: the peer leaves the list, its strings are freed -/
def unlinkPeer (p : Addr) : Prog (Broker T) Unit :=
  Prog.update fun b =>
    { b with peerList := b.peerList.erase p
             name := Function.update b.name p none
             userName := Function.update b.userName p none }

/-- `free_peer_resources` -/
def freePeerResources (p : Addr) : Prog (Broker T) Unit := do
  removeRoutingInfoFromPeer env p
  removePeerFromRoutes env p
  removeAllFetchersFromPeer p
  removeAllElementsFromPeer env p
  deleteRoutingTable env p
  unlinkPeer p

/-! ## config and info -/

/-- `set_peer_name` -/
def setPeerName (p : Addr) (name : String) : Prog (Broker T) Unit := do
  let copy ← allocating (Alloc.duplicateString env name)
  Prog.update fun b => { b with name := Function.update b.name p copy }

/-- the name in a config request -/
def getName (params : Json) : Except Err (Option String) :=
  match params.getObjectItem "name" with
  | none => .ok none
  | some (.str name) => .ok (some name)
  | some _ => .error ⟨INVALID_PARAMS, "reason", "name is not a string"⟩

/-- `config_peer` -/
def configPeer (p : Addr) (request : Json) : Prog (Broker T) Response := do
  match getParams request >>= getName with
  | .error err => errorResponse env request err
  | .ok none => successResponse env request
  | .ok (some name) =>
    setPeerName env p name
    successResponse env request

/-- adds the items to `root` in turn, as far as they can be created -/
def addItems (root : Json) : List (String × Json) → Alloc (Option Json)
  | [] => return some root
  | (key, item) :: rest => do
    match ← tryCall env .createItem item with
    | none => return none
    | some item => addItems (← addItemToObject env root key (some item)) rest

/-- `create_info`: `features` is attached to the root before it is filled -/
def createInfo : Alloc (Option Json) := do
  match ← createObject env with
  | none => return none
  | some root =>
    match ← addItems env root [("name", .str env.cjetName), ("version", .str env.cjetVersion),
        ("protocolVersion", .str "1.0.0")] with
    | none => return none
    | some root =>
      match ← createObject env with
      | none => return none
      | some features =>
        let attached ← Alloc.call env .addItem
        match ← addItems env features [("batches", .bool true), ("authentication", .bool true),
            ("fetch", .str "full")] with
        | none => return none
        | some features => return some (if attached then root.addItem "features" features else root)

/-- `handle_info` -/
def handleInfo (request : Json) : Prog (Broker T) Response := do
  let info ← allocating (createInfo env)
  return ⟨.success, ← allocating (createResultResponseFromRequest env request info "result")⟩

end

end Cjet
