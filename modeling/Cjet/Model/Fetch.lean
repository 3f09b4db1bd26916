import Mathlib.Data.List.Infix
import Cjet.Lib.Slots
import Cjet.Model.Groups
import Cjet.Model.Response

/-!
# Fetches (`fetch.c`)

A fetch subscribes a peer to all elements whose path its matchers accept and whose fetch groups
the peer has access to.  The subscription is a slot in the `fetcher_table` of the element.
-/

set_option linter.unusedVariables false

namespace Cjet
open Stateful Alloc

/-! ## matchers -/

/-- `strcmp(a, b) == 0` and `jet_strcasecmp(a, b) == 0` work on these lists of characters -/
def caseSensitive (s : String) : List Char := s.toList

section
variable (chars : String → List Char)

def firstPathElement (elements : List String) : String := elements.headD ""

def equalsWith (elements : List String) (path : String) : Bool :=
  chars (firstPathElement elements) == chars path

def containsWith (elements : List String) (path : String) : Bool :=
  decide (chars (firstPathElement elements) <:+: chars path)

def startsWithWith (elements : List String) (path : String) : Bool :=
  decide (chars (firstPathElement elements) <+: chars path)

def endsWithWith (elements : List String) (path : String) : Bool :=
  decide (chars (firstPathElement elements) <:+ chars path)

def equalsNotWith (elements : List String) (path : String) : Bool :=
  !(chars (firstPathElement elements) == chars path)

def containsAllOfWith (elements : List String) (path : String) : Bool :=
  elements.all fun s => decide (chars s <:+: chars path)

end

def equalsMatch := equalsWith caseSensitive
def equalsMatchIgnoreCase := equalsWith lowerCase
def containsMatch := containsWith caseSensitive
def containsMatchIgnoreCase := containsWith lowerCase
def startswithMatch := startsWithWith caseSensitive
def startswithMatchIgnoreCase := startsWithWith lowerCase
def endswithMatch := endsWithWith caseSensitive
def endswithMatchIgnoreCase := endsWithWith lowerCase
def equalsnotMatch := equalsNotWith caseSensitive
def equalsnotMatchIgnoreCase := equalsNotWith lowerCase
def containsallofMatch := containsAllOfWith caseSensitive
def containsallofMatchIgnoreCase := containsAllOfWith lowerCase

/-- `struct supported_matcher` -/
structure SupportedMatcher where
  matcherName : String
  caseSensitive : List String → String → Bool
  caseInsensitive : List String → String → Bool
  hasMultiplePathElements : Bool

def matchers : List SupportedMatcher :=
  [⟨"equals", equalsMatch, equalsMatchIgnoreCase, false⟩,
   ⟨"contains", containsMatch, containsMatchIgnoreCase, false⟩,
   ⟨"startsWith", startswithMatch, startswithMatchIgnoreCase, false⟩,
   ⟨"endsWith", endswithMatch, endswithMatchIgnoreCase, false⟩,
   ⟨"equalsNot", equalsnotMatch, equalsnotMatchIgnoreCase, false⟩,
   ⟨"containsAllOf", containsallofMatch, containsallofMatchIgnoreCase, true⟩]

def caseInsensitiveName : String := "caseInsensitive"

section
variable (env : Env)

/-- `create_path_matcher`: the size computed for no path elements at all exceeds every heap -/
def createPathMatcher (numberOfPathElements : Nat) : Alloc Bool := do
  let ok ← Alloc.call env .calloc
  return ok && decide (numberOfPathElements ≠ 0)

/-- `fill_path_elements` for an array -/
def fillPathElements : List Json → Alloc (Option (List String))
  | [] => return some []
  | .str s :: rest => do
    match ← Alloc.duplicateString env s with
    | none => return none
    | some s => return (← fillPathElements rest).map (s :: ·)
  | _ :: _ => return none

/-- the path elements of a matcher that takes several of them, or one -/
def pathElementsOf (m : SupportedMatcher) (matcher : Json) : Alloc (Option (List String)) := do
  if m.hasMultiplePathElements then
    match matcher with
    | .arr l =>
      if ← createPathMatcher env l.length then fillPathElements env l else return none
    | _ => return none
  else
    match matcher with
    | .str s =>
      if ← createPathMatcher env 1 then fillPathElements env [.str s] else return none
    | _ => return none

/-- `create_matcher` -/
def createMatcher (name : String) (matcher : Json) (ignoreCase : Bool) :
    Alloc (Option PathMatcher) := do
  match matchers.find? fun m => m.matcherName == name with
  | none => return none
  | some m =>
    match ← pathElementsOf env m matcher with
    | none => return none
    | some elements =>
      return some ⟨if ignoreCase then m.caseInsensitive else m.caseSensitive, elements⟩

/-- `add_matchers`: the matchers for all members but `caseInsensitive` -/
def addMatchers (ignoreCase : Bool) : List (String × Json) → Alloc (Option (List PathMatcher))
  | [] => return some []
  | (name, matcher) :: rest => do
    if name = caseInsensitiveName then addMatchers ignoreCase rest
    else
      match ← createMatcher env name matcher ignoreCase with
      | none => return none
      | some m => return (← addMatchers ignoreCase rest).map (m :: ·)

/-- `alloc_fetch`: all of its matchers are null -/
def allocFetch (p : Addr) (id : Option Json) (numberOfMatchers : Nat) : Alloc (Except Err Fetch) := do
  if ← Alloc.call env .calloc then
    match id with
    | none => return .ok ⟨none, p, List.replicate numberOfMatchers none⟩
    | some id =>
      match ← duplicate env id with
      | none => return .error ⟨INVALID_PARAMS, "reason", "Could not allocated memory for fetch ID object!"⟩
      | some id => return .ok ⟨some id, p, List.replicate numberOfMatchers none⟩
  else return .error ⟨INVALID_PARAMS, "reason", "Could not allocated memory for fetch object!"⟩

/-- the number of matchers that `create_fetch` allocates, and whether they ignore case -/
def countMatchers (path : Json) (members : List (String × Json)) : Nat × Bool :=
  match path.getObjectItem caseInsensitiveName with
  | none => (members.length, false)
  | some b => (members.length - 1, b.isTrue)

/-- `create_fetch` -/
def createFetch (p : Addr) (id : Option Json) (params : Json) : Alloc (Except Err Fetch) := do
  match params.getObjectItem "path" with
  | none => allocFetch env p id 1
  | some (.obj members) =>
    let (numberOfMatchers, ignoreCase) := countMatchers (.obj members) members
    if numberOfMatchers = 0 then
      return .error ⟨INVALID_PARAMS, "reason", "no matcher in path object"⟩
    else if env.config.maxNumbersOfMatchersInFetch < numberOfMatchers then
      return .error ⟨INVALID_PARAMS, "reason", "too many matchers in path object"⟩
    else
      match ← allocFetch env p id numberOfMatchers with
      | .error _ => return .error ⟨INTERNAL_ERROR, "reason", "not enough memory to allocate fetch"⟩
      | .ok f =>
        match ← addMatchers env ignoreCase members with
        | none => return .error ⟨INTERNAL_ERROR, "reason", "could not add matchers to fetch"⟩
        | some ms =>
          return .ok { f with matcher := ms.map some ++ List.replicate (numberOfMatchers - ms.length) none }
  | some _ => return .error ⟨INVALID_PARAMS, "reason", "fetch path is not an object"⟩

end

/-! ## does a fetch match a path? -/

/-- the loop of `state_matches`: it calls the function of a matcher without looking whether the
matcher is null -/
def allMatch (path : String) : List (Option PathMatcher) → Option Bool
  | [] => some true
  | none :: _ => none
  | some m :: rest => if m.matchFunction m.pathElements path then allMatch path rest else some false

/-- `state_matches`; no result where a null matcher is followed -/
def stateMatches (path : String) (matcher : List (Option PathMatcher)) : Option Bool :=
  match matcher with
  | none :: _ => some true
  | _ => allMatch path matcher

/-! ## ids of fetches -/

/-- `get_fetch_id` -/
def getFetchId (params : Json) : Except Err Json :=
  match params.getObjectItem "id" with
  | none => .error ⟨INVALID_PARAMS, "reason", "no fetch id given"⟩
  | some id =>
    if id.isString || id.isNumber then .ok id
    else .error ⟨INVALID_PARAMS, "reason", "fetch id is neither string nor number"⟩

/-- `ids_equal` -/
def idsEqual : Json → Json → Bool
  | .num a, .num b => Json.valueInt a == Json.valueInt b
  | .str a, .str b => a == b
  | _, _ => false

section
variable {T : Type} (env : Env)

/-- `find_fetch` -/
def findFetch (b : Broker T) (p : Addr) (id : Json) : Option Addr :=
  (b.fetchList p).find? fun f => (b.fetches f).any fun ft => ft.fetchId.any fun i => idsEqual i id

/-! ## notifications -/

/-- the message that `notify_fetching_peer` builds; `params` is attached to it before it is filled -/
def createNotification (e : Element) (f : Fetch) (eventName : String) : Alloc (Option Json) := do
  match ← createObject env with
  | none => return none
  | some root =>
    match f.fetchId with
    | none => return none
    | some id =>
      match ← duplicate env id with
      | none => return none
      | some fetchId =>
        let root ← addItemToObject env root "method" (some fetchId)
        match ← createObject env with
        | none => return none
        | some param =>
          let attached ← Alloc.call env .addItem
          let param ← if e.flags &&& 1 = 1 then addItemToObject env param "fetchOnly" (← createTrue env)
            else pure param
          match ← createString env e.path with
          | none => return none
          | some path =>
            let param ← addItemToObject env param "path" (some path)
            match ← createString env eventName with
            | none => return none
            | some event =>
              let param ← addItemToObject env param "event" (some event)
              match e.value with
              | none => return some (if attached then root.addItem "params" param else root)
              | some v =>
                match ← duplicate env v with
                | none => return none
                | some value =>
                  let param ← addItemToObject env param "value" (some value)
                  return some (if attached then root.addItem "params" param else root)

/-- `notify_fetching_peer` -/
def notifyFetchingPeer (e f : Addr) (eventName : String) : Prog (Broker T) Bool := do
  let el ← Prog.deref fun b => b.elements e
  let ft ← Prog.deref fun b => b.fetches f
  match ← allocating (createNotification env el ft eventName) with
  | none => return false
  | some root =>
    match ← allocating (printUnformatted env (.notification f e) root) with
    | none => return false
    | some rendered => sendMessage env ft.peer (.notification f e) rendered

/-- `notify_fetchers`: the first failure ends the loop -/
def notifyFetchers (e : Addr) (eventName : String) : Prog (Broker T) Bool := do
  let el ← Prog.deref fun b => b.elements e
  Prog.tryAll (fun f => notifyFetchingPeer env e f eventName) (Slots.entries el.fetcherTable)

/-! ## subscriptions -/

/-- `add_fetch_to_state`: a table without a free slot grows to twice its size -/
def addFetchToTable (table : List (Option Addr)) (f : Addr) : Alloc (Option (List (Option Addr))) := do
  match Slots.insert table f with
  | some table => return some table
  | none =>
    let newSize := max env.config.initialFetchTableSize (table.length * 2)
    if ← Alloc.call env .calloc then return Slots.insert (Slots.grow newSize table) f
    else return none

def setElement (e : Addr) (el : Element) : Prog (Broker T) Unit :=
  Prog.update fun b => { b with elements := Function.update b.elements e (some el) }

/-- `add_fetch_to_state_and_notify` -/
def addFetchToStateAndNotify (e f : Addr) : Prog (Broker T) Bool := do
  let el ← Prog.deref fun b => b.elements e
  let ft ← Prog.deref fun b => b.fetches f
  let access ← Prog.read fun b => hasAccess b.allGroups el.fetchGroups (b.fetchGroups ft.peer)
  if access = false then return true
  else
    let isMatch ← Prog.deref fun _ => stateMatches el.path ft.matcher
    if isMatch then
      match ← allocating (addFetchToTable env el.fetcherTable f) with
      | none => return false
      | some table =>
        setElement e { el with fetcherTable := table }
        notifyFetchingPeer env e f "add"
    else return true

/-- `add_fetch_to_states_in_peer` -/
def addFetchToStatesInPeer (f : Addr) (p : Addr) : Prog (Broker T) Bool := do
  let elements ← Prog.read fun b => b.elementList p
  Prog.tryAll (fun e => addFetchToStateAndNotify env e f) elements

/-- `add_fetch_to_states` -/
def addFetchToStates (request : Json) (f : Addr) : Prog (Broker T) Response := do
  let peers ← Prog.read fun b => b.peerList
  if ← Prog.tryAll (addFetchToStatesInPeer env f) peers then successResponse env request
  else errorResponse env request ⟨INTERNAL_ERROR, "reason", "could not add fetch to state"⟩

/-- `find_fetchers_for_element_in_peer` -/
def findFetchersForElementInPeer (e : Addr) (p : Addr) : Prog (Broker T) Bool := do
  let fetches ← Prog.read fun b => b.fetchList p
  Prog.tryAll (fun f => addFetchToStateAndNotify env e f) fetches

/-- `find_fetchers_for_element` -/
def findFetchersForElement (e : Addr) : Prog (Broker T) Bool := do
  let peers ← Prog.read fun b => b.peerList
  Prog.tryAll (findFetchersForElementInPeer env e) peers

/-- `remove_fetch_from_state` -/
def removeFetchFromState (f e : Addr) : Prog (Broker T) Unit := do
  let el ← Prog.deref fun b => b.elements e
  setElement e { el with fetcherTable := Slots.erase el.fetcherTable f }

/-- `remove_fetch_from_states_in_peer` -/
def removeFetchFromStatesInPeer (f p : Addr) : Prog (Broker T) Unit := do
  let elements ← Prog.read fun b => b.elementList p
  Prog.each (removeFetchFromState f) elements

/-- `remove_fetch_from_states` -/
def removeFetchFromStates (f : Addr) : Prog (Broker T) Unit := do
  let peers ← Prog.read fun b => b.peerList
  Prog.each (removeFetchFromStatesInPeer f) peers

/-- `list_del(&f->next_fetch); free_fetch(f);` -/
def deleteFetch (p f : Addr) : Prog (Broker T) Unit :=
  Prog.update fun b =>
    { b with fetchList := Function.update b.fetchList p ((b.fetchList p).erase f)
             fetches := Function.update b.fetches f none }

/-! ## requests -/

/-- the checks of `add_fetch_to_peer` before anything is allocated -/
def checkFetch (b : Broker T) (p : Addr) (request : Json) : Except Err (Json × Json) := do
  let params ← getParams request
  if (params.getObjectItem "match").isSome then
    throw ⟨INVALID_PARAMS, "reason", "No support for deprecated match"⟩
  let fetchId ← getFetchId params
  if (findFetch b p fetchId).isSome then
    throw ⟨INVALID_PARAMS, "reason", "fetch id already in use"⟩
  return (params, fetchId)

/-- `add_fetch_to_peer` -/
def addFetchToPeer (p : Addr) (request : Json) : Prog (Broker T) (Except Err Addr) := do
  let b ← Prog.read id
  match checkFetch b p request with
  | .error err => return .error err
  | .ok (params, fetchId) =>
    match ← allocating (createFetch env p (some fetchId) params) with
    | .error err => return .error err
    | .ok f =>
      Prog.update fun b =>
        { b with fetches := Function.update b.fetches b.fresh (some f)
                 fetchList := Function.update b.fetchList p (b.fetchList p ++ [b.fresh])
                 fresh := b.fresh + 1 }
      return .ok b.fresh

/-- `process_fetch`: a fetch that could not be added to all states stays where it is -/
def processFetch (p : Addr) (request : Json) : Prog (Broker T) Response := do
  match ← addFetchToPeer env p request with
  | .error err => errorResponse env request err
  | .ok f => addFetchToStates env request f

/-- the checks of `remove_fetch_from_peer` -/
def checkUnfetch (b : Broker T) (p : Addr) (request : Json) : Except Err Addr := do
  let params ← getParams request
  let fetchId ← getFetchId params
  match findFetch b p fetchId with
  | none => throw ⟨INVALID_PARAMS, "reason", "fetch id not found for unfetch"⟩
  | some f => return f

/-- `remove_fetch_from_peer` -/
def removeFetchFromPeer (p : Addr) (request : Json) : Prog (Broker T) Response := do
  let b ← Prog.read id
  match checkUnfetch b p request with
  | .error err => errorResponse env request err
  | .ok f =>
    removeFetchFromStates f
    deleteFetch p f
    successResponse env request

/-- the body of the loop in `remove_all_fetchers_from_peer` -/
def removeFetch (p f : Addr) : Prog (Broker T) Unit := do
  removeFetchFromStates f
  deleteFetch p f

/-- `remove_all_fetchers_from_peer` -/
def removeAllFetchersFromPeer (p : Addr) : Prog (Broker T) Unit := do
  let fetches ← Prog.read fun b => b.fetchList p
  Prog.each (removeFetch p) fetches

/-! ## get -/

/-- the object of one state in the answer to a get -/
def createStateObject (path : String) (value : Json) : Alloc (Except Err Json) := do
  match ← createObject env with
  | none => return .error ⟨INTERNAL_ERROR, "reason", "could not allocate memory for state object"⟩
  | some root =>
    match ← createString env path with
    | none => return .error ⟨INTERNAL_ERROR, "reason", "could not allocate memory for path object"⟩
    | some pathItem =>
      let root ← addItemToObject env root "path" (some pathItem)
      match ← duplicate env value with
      | none => return .error ⟨INTERNAL_ERROR, "reason", "could not allocate memory for value"⟩
      | some v => return .ok (← addItemToObject env root "value" (some v))

/-- `get_element`: the states found so far are `states` -/
def getElement (ft : Fetch) (states : List Json) (e : Addr) : Prog (Broker T) (Except Err (List Json)) := do
  let el ← Prog.deref fun b => b.elements e
  let access ← Prog.read fun b => hasAccess b.allGroups el.fetchGroups (b.fetchGroups ft.peer)
  if access = false then return .ok states
  else
    let isMatch ← Prog.deref fun _ => stateMatches el.path ft.matcher
    if isMatch then
      match el.value with
      | none => return .ok states
      | some v =>
        match ← allocating (createStateObject env el.path v) with
        | .error err => return .error err
        | .ok root => return .ok (states ++ [root])
    else return .ok states

/-- `get_elements_in_peer` -/
def getElementsInPeer (ft : Fetch) : List Json → List Addr → Prog (Broker T) (Except Err (List Json))
  | states, [] => return .ok states
  | states, e :: es => do
    match ← getElement env ft states e with
    | .error err => return .error err
    | .ok states => getElementsInPeer ft states es

/-- the loop over the peers in `get_elements` -/
def getElementsInPeers (ft : Fetch) : List Json → List Addr → Prog (Broker T) (Except Err (List Json))
  | states, [] => return .ok states
  | states, p :: ps => do
    let elements ← Prog.read fun b => b.elementList p
    match ← getElementsInPeer env ft states elements with
    | .error err => return .error err
    | .ok states => getElementsInPeers ft states ps

/-- `get_elements`: where the array cannot be allocated the states go nowhere -/
def getElements (p : Addr) (request : Json) : Prog (Broker T) Response := do
  match getParams request with
  | .error err => errorResponse env request err
  | .ok params =>
    match ← allocating (createFetch env p none params) with
    | .error err => errorResponse env request err
    | .ok ft =>
      let array ← allocating (createArray env)
      let peers ← Prog.read fun b => b.peerList
      match ← getElementsInPeers env ft [] peers with
      | .error err => errorResponse env request err
      | .ok states =>
        return ⟨.success, ← allocating (createResultResponseFromRequest env request
          (array.map fun _ => .arr states) "result")⟩

end

end Cjet
