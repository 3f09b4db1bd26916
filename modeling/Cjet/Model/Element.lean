import Cjet.Model.Router
import Cjet.Model.Fetch

/-!
# Elements: states and methods (`element.c`, `table.c`)

A peer owns elements; it adds, changes and removes them, and any peer may set or call them, which
is routed to the owner.
-/

set_option linter.unusedVariables false

namespace Cjet
open Stateful Alloc

/-- `FETCH_ONLY_FLAG` -/
def FETCH_ONLY_FLAG : Nat := 1

def isState (e : Element) : Bool := e.value.isSome

/-- `element_is_fetch_only` -/
def elementIsFetchOnly (e : Element) : Bool := e.flags &&& FETCH_ONLY_FLAG == FETCH_ONLY_FLAG

/-! ## access groups -/

/-- `FILL_GROUP(access_groups, json_key)`; nothing is assigned where there is no access object -/
def fillGroups (accessGroups jsonKey : String) (allGroups : Option (List String))
    (access : Option Json) : Except Err GroupSet :=
  match access with
  | none => .ok 0
  | some access =>
    match access.getObjectItem jsonKey with
    | none => .ok (getGroups allGroups none)
    | some (.arr l) => .ok (getGroups allGroups (some (.arr l)))
    | some _ => .error ⟨INVALID_PARAMS, "reason", accessGroups ++ " is not an array"⟩

def fillFetchGroups := fillGroups "fetch_groups" "fetchGroups"
def fillSetGroups := fillGroups "set_groups" "setGroups"
def fillCallGroups := fillGroups "call_groups" "callGroups"

/-- `fill_access` -/
def fillAccess (allGroups : Option (List String)) (access : Option Json) (e : Element) :
    Except Err Element :=
  match fillFetchGroups allGroups access with
  | .error err => .error err
  | .ok fetchGroups =>
    if isState e then
      match fillSetGroups allGroups access with
      | .error err => .error err
      | .ok setGroups => .ok { e with fetchGroups := fetchGroups, setGroups := setGroups }
    else
      match fillCallGroups allGroups access with
      | .error err => .error err
      | .ok callGroups => .ok { e with fetchGroups := fetchGroups, callGroups := callGroups }

/-! ## reading a request -/

/-- `get_fetch_only_from_params` -/
def getFetchOnlyFromParams (params : Json) : Except Err Nat :=
  match params.getObjectItem "fetchOnly" with
  | none => .ok 0
  | some (.bool false) => .ok 0
  | some (.bool true) => .ok FETCH_ONLY_FLAG
  | some _ => .error ⟨INVALID_PARAMS, "reason", "fetchOnly is not a bool"⟩

/-- the parameters of a request and the path among them -/
def getParamsAndPath (request : Json) : Except Err (Json × String) := do
  let params ← getParams request
  let path ← getPathFromParams params
  return (params, path)

/-- the path and the new value in a change request -/
def getPathAndValue (request : Json) : Except Err (String × Json) := do
  let (params, path) ← getParamsAndPath request
  match params.getObjectItem "value" with
  | none => .error ⟨INVALID_PARAMS, "reason", "no value found"⟩
  | some value => .ok (path, value)

section
variable {T : Type} [HashTable T] (env : Env)

/-! ## the table of all elements -/

/-- `element_table_get` -/
def elementTableGet (path : String) : Prog (Broker T) (Option Addr) :=
  Prog.read fun b => HashTable.get b.elementTable path

/-- `element_table_put(path, e) == HASHTABLE_SUCCESS` -/
def elementTablePut (path : String) (e : Addr) : Prog (Broker T) Bool := fun b =>
  some ((HashTable.put b.elementTable path e).1,
    { b with elementTable := (HashTable.put b.elementTable path e).2 })

/-- `element_table_remove` -/
def elementTableRemove (path : String) : Prog (Broker T) Unit :=
  Prog.update fun b => { b with elementTable := (HashTable.remove b.elementTable path).2 }

/-! ## add -/

/-- the checks of `init_element` before anything is allocated: the element without its access
groups, and the access object.  A timeout of 0 fails without a response. -/
def checkAdd (b : Broker T) (p : Addr) (request : Json) :
    Except (Option Err) (Element × Option Json) := do
  let (params, path) ← (getParamsAndPath request).mapError some
  let flags ← (getFetchOnlyFromParams params).mapError some
  let timeoutNsec ← getTimeoutInNsec env.toPlatform (params.getObjectItem "timeout")
    (convertSecondsToNsec env.toPlatform env.config.routedMessagesTimeout)
  if (HashTable.get b.elementTable path).isSome then throw (some ⟨INVALID_PARAMS, "exists", path⟩)
  return (⟨path, p, params.getObjectItem "value",
    List.replicate env.config.initialFetchTableSize none, 0, 0, 0, flags, timeoutNsec⟩,
    params.getObjectItem "access")

/-- the allocations of `init_element` -/
def allocElementParts (e : Element) : Alloc (Except Err Unit) := do
  if ← Alloc.call env .calloc then
    match ← Alloc.duplicateString env e.path with
    | none => return .error ⟨INTERNAL_ERROR, "reason", "not enough memory to copy path"⟩
    | some _ =>
      match e.value with
      | none => return .ok ()
      | some value =>
        match ← duplicate env value with
        | none => return .error ⟨INTERNAL_ERROR, "reason", "could not copy value object"⟩
        | some _ => return .ok ()
  else return .error ⟨INTERNAL_ERROR, "reason", "not enough memory to create fetch table"⟩

/-- `init_element`: the response of `fill_access` is replaced by another one -/
def initElement (p : Addr) (request : Json) : Prog (Broker T) (Except (Option Err) Element) := do
  let b ← Prog.read id
  match checkAdd env b p request with
  | .error err => return .error err
  | .ok (e, access) =>
    match ← allocating (allocElementParts env e) with
    | .error err => return .error (some err)
    | .ok () =>
      match fillAccess b.allGroups access e with
      | .error err =>
        let _ ← errorResponse env request err
        return .error (some ⟨INTERNAL_ERROR, "reason", "could not fill access information"⟩)
      | .ok e => return .ok e

/-- the element `e` at an address of its own -/
def newElement (e : Element) : Prog (Broker T) Addr := do
  let b ← Prog.read id
  Prog.update fun b =>
    { b with elements := Function.update b.elements b.fresh (some e), fresh := b.fresh + 1 }
  return b.fresh

/-- `free_element` -/
def freeElement (e : Addr) : Prog (Broker T) Unit :=
  Prog.update fun b => { b with elements := Function.update b.elements e none }

/-- `list_add_tail(&e->element_list, &p->element_list)` -/
def linkElement (p e : Addr) : Prog (Broker T) Unit :=
  Prog.update fun b => { b with elementList := Function.update b.elementList p (b.elementList p ++ [e]) }

/-- the end of `add_element_to_peer`: the fetches are told of the element before it is known
whether the table takes it -/
def publishElement (p : Addr) (request : Json) (el : Element) (e : Addr) :
    Prog (Broker T) Response := do
  if ← findFetchersForElement env e then
    if ← elementTablePut el.path e then
      linkElement p e
      successResponse env request
    else
      freeElement e
      errorResponse env request ⟨INTERNAL_ERROR, "reason", "element table full"⟩
  else
    freeElement e
    errorResponse env request ⟨INTERNAL_ERROR, "reason", "could not notify fetching peer"⟩

/-- `add_element_to_peer` -/
def addElementToPeer (p : Addr) (request : Json) : Prog (Broker T) Response := do
  let b ← Prog.read id
  if env.config.allowAddOnlyFromLocalhost && !b.isLocalConnection p then
    errorResponse env request ⟨INVALID_REQUEST, "reason", "add only allowed from localhost"⟩
  else if ← call env .calloc then
    match ← initElement env p request with
    | .error err => failureResponse env request err
    | .ok el =>
      let e ← newElement el
      publishElement env p request el e
  else
    errorResponse env request
      ⟨INTERNAL_ERROR, "reason", "not enough memory to allocate jet element"⟩

/-! ## change -/

/-- may `p` change the element? -/
def checkChange (p : Addr) (e : Element) (path : String) : Except Err Unit :=
  if e.peer ≠ p then .error ⟨INVALID_PARAMS, "not owner of state", path⟩
  else if e.value.isNone then .error ⟨INVALID_PARAMS, "change on method not possible", path⟩
  else .ok ()

/-- the end of `change_state`: the old value is gone before anyone is notified -/
def replaceValue (request : Json) (e : Addr) (el : Element) (path : String) (value : Json) :
    Prog (Broker T) Response := do
  match ← allocating (duplicate env value) with
  | none => errorResponse env request ⟨INTERNAL_ERROR, "not enough memory", path⟩
  | some valueCopy =>
    setElement e { el with value := some valueCopy }
    if ← notifyFetchers env e "change" then successResponse env request
    else errorResponse env request ⟨INTERNAL_ERROR, "could not notify fetching peer", path⟩

/-- `change_state` -/
def changeState (p : Addr) (request : Json) : Prog (Broker T) Response := do
  match getPathAndValue request with
  | .error err => errorResponse env request err
  | .ok (path, value) =>
    match ← elementTableGet path with
    | none => errorResponse env request ⟨INVALID_PARAMS, "not exists", path⟩
    | some e =>
      let el ← Prog.deref fun b => b.elements e
      match checkChange p el path with
      | .error err => errorResponse env request err
      | .ok () => replaceValue env request e el path value

/-! ## set and call -/

/-- the groups that may set or call the element -/
def wantedGroups (e : Element) : ElementType → GroupSet
  | .state => e.setGroups
  | .method => e.callGroups

/-- the groups of a peer for a set or a call -/
def heldGroups (b : Broker T) (p : Addr) : ElementType → GroupSet
  | .state => b.setGroups p
  | .method => b.callGroups p

/-- `what` does not fit the element -/
def wrongElementType (e : Element) : ElementType → Bool
  | .state => e.value.isNone
  | .method => e.value.isSome

/-- may `p` set or call the element?  The id of its request, which may be absent. -/
def checkSetOrCall (b : Broker T) (p : Addr) (e : Element) (what : ElementType) (path : String)
    (request : Json) : Except Err (Option Json) :=
  if elementIsFetchOnly e then .error ⟨INVALID_PARAMS, "fetchOnly", path⟩
  else if wrongElementType e what then
    .error ⟨INVALID_PARAMS, "set/call on element not possible", path⟩
  else if !hasAccess b.allGroups (wantedGroups e what) (heldGroups b p what) then
    .error ⟨INVALID_PARAMS, "request not authorized", path⟩
  else
    match request.getObjectItem "id" with
    | none => .ok none
    | some id =>
      if id.isString || id.isNumber then .ok (some id)
      else .error ⟨INVALID_PARAMS, "request id is neither string nor number", path⟩

/-- the value that is sent on -/
def valueToRoute (params : Json) : ElementType → Except Err (Option Json)
  | .state =>
    match params.getObjectItem "value" with
    | none => .error ⟨INVALID_PARAMS, "reason", "no value found"⟩
    | some value => .ok (some value)
  | .method => .ok (params.getObjectItem "args")

/-- an error response after which the routing request is freed -/
def failRouting (request : Json) (r : Addr) (err : Err) : Prog (Broker T) Response := do
  let response ← errorResponse env request err
  freeRequest r
  return response

/-- the end of `set_or_call`: the message is sent to the owner.  Where it cannot be rendered the
routing request is freed although it is stored and its timer runs; where it cannot be sent the
routing request stays. -/
def sendRoutedMessage (e : Element) (request : Json) (r : Addr) (routedMessage : Json) :
    Prog (Broker T) Response := do
  match ← allocating (printUnformatted env (.routed r) routedMessage) with
  | none => failRouting env request r ⟨INTERNAL_ERROR, "reason", "could not render message"⟩
  | some rendered =>
    if ← sendMessage env e.peer (.routed r) rendered then return ⟨.pending, none⟩
    else
      errorResponse env request ⟨INTERNAL_ERROR, "reason", "could not send routing information"⟩

/-- the part of `set_or_call` after the routing request was allocated -/
def routeRequest (e : Element) (request params : Json) (path : String) (what : ElementType)
    (r : Addr) : Prog (Broker T) Response := do
  let routingRequest ← Prog.deref fun b => b.requests r
  match valueToRoute params what with
  | .error err => failRouting env request r err
  | .ok value =>
    match ← allocating (createRoutedMessage env path what value routingRequest.id) with
    | none =>
      failRouting env request r ⟨INTERNAL_ERROR, "reason", "could not create routed JSON object"⟩
    | some routedMessage =>
      match ← setupRoutingInformation env e request (params.getObjectItem "timeout") r
          routingRequest.id with
      | some response =>
        freeRequest r
        return response
      | none => sendRoutedMessage env e request r routedMessage

/-- `set_or_call` -/
def setOrCall (p : Addr) (request : Json) (what : ElementType) : Prog (Broker T) Response := do
  match getParamsAndPath request with
  | .error err => errorResponse env request err
  | .ok (params, path) =>
    match ← elementTableGet path with
    | none => errorResponse env request ⟨INVALID_PARAMS, "not exists", path⟩
    | some e =>
      let el ← Prog.deref fun b => b.elements e
      let b ← Prog.read id
      match checkSetOrCall b p el what path request with
      | .error err => errorResponse env request err
      | .ok originRequestId =>
        match ← allocRoutingRequest env p el.peer originRequestId with
        | none =>
          errorResponse env request ⟨INTERNAL_ERROR, "could not create routing request", path⟩
        | some r => routeRequest env el request params path what r

/-! ## remove -/

/-- `list_del(&e->element_list)`, `element_table_remove(e->path)` and `free_element(e)` -/
def unlinkElement (e : Addr) : Prog (Broker T) Unit := do
  let el ← Prog.deref fun b => b.elements e
  Prog.update fun b =>
    { b with elementList := Function.update b.elementList el.peer ((b.elementList el.peer).erase e) }
  elementTableRemove el.path
  freeElement e

/-- `remove_element` -/
def removeElement (e : Addr) : Prog (Broker T) Unit := do
  let _ ← notifyFetchers env e "remove"
  unlinkElement e

/-- the element of `p` with this path -/
def findElement (b : Broker T) (p : Addr) (path : String) : Option Addr :=
  (b.elementList p).find? fun e => (b.elements e).any fun el => el.path == path

/-- `remove_element_from_peer` -/
def removeElementFromPeer (p : Addr) (request : Json) : Prog (Broker T) Response := do
  match getParamsAndPath request with
  | .error err => errorResponse env request err
  | .ok (params, path) =>
    match ← Prog.read fun b => findElement b p path with
    | none => errorResponse env request ⟨INVALID_PARAMS, "not exists", path⟩
    | some e =>
      removeElement env e
      successResponse env request

/-- `remove_all_elements_from_peer` -/
def removeAllElementsFromPeer (p : Addr) : Prog (Broker T) Unit := do
  let elements ← Prog.read fun b => b.elementList p
  Prog.each (removeElement env) elements

end

end Cjet
