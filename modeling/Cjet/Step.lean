import Cjet.Frame

/-!
# The steps of the broker, case by case

An object that a peer sends is a response of an owner, or it is answered by one of the handlers.
`Stepped` lists what a step can be; `step_cases` is the inversion of `step`.

* `Json.routingResponse`   the result or error that a response of an owner carries;
* `Json.routes`            set or call;
* `handlerOf`              the handler that answers an object which is no response.
-/

set_option linter.unusedVariables false
set_option linter.unusedSectionVars false

namespace Cjet
open Stateful Alloc

/-- the kind of a response and its value, if the object is a response -/
def Json.routingResponse (request : Json) : Option (String × Json) :=
  match request.getObjectItem "method" with
  | some _ => none
  | none =>
    match request.getObjectItem "result" with
    | some result => some ("result", result)
    | none => (request.getObjectItem "error").map fun error => ("error", error)

/-- the type of element that a set or call is for, if the object is one of these -/
def Json.routes (request : Json) : Option ElementType :=
  match request.getObjectItem "method" with
  | some (.str "set") => some .state
  | some (.str "call") => some .method
  | _ => none

/-- a request without an id is not answered -/
def NoIdNoAnswer (request : Json) (json : Option Json) : Prop :=
  request.getObjectItem "id" = none → json = none

section
variable {T : Type} [HashTable T] (env : Env)

theorem errorResponse_some {env : Env} {request : Json} {err : Err} {b b' : Broker T} {res : Response}
    (h : errorResponse env request err b = some (res, b')) :
    ∃ json n, res = ⟨.error, json⟩ ∧ NoIdNoAnswer request json ∧ b' = { b with calls := n } := by
  obtain ⟨json, b1, h1, h2⟩ := Prog.bind_some h
  obtain ⟨hjson, rfl⟩ := allocating_some h1
  obtain ⟨rfl, rfl⟩ := Prog.pure_some h2
  refine ⟨json, _, rfl, fun hid => ?_, rfl⟩
  rw [hjson]
  unfold createErrorResponseFromRequest
  rw [hid]
  rfl

theorem failureResponse_some {env : Env} {request : Json} {err : Option Err} {b b' : Broker T} {res : Response}
    (h : failureResponse env request err b = some (res, b')) :
    ∃ json n, res = ⟨.error, json⟩ ∧ NoIdNoAnswer request json ∧ b' = { b with calls := n } := by
  cases err with
  | none =>
    obtain ⟨rfl, rfl⟩ := Prog.pure_some h
    exact ⟨none, b'.calls, rfl, fun _ => rfl, rfl⟩
  | some err => exact errorResponse_some h

theorem successResponse_some {env : Env} {request : Json} {b b' : Broker T} {res : Response}
    (h : successResponse env request b = some (res, b')) :
    ∃ json n, res = ⟨.success, json⟩ ∧ b' = { b with calls := n } := by
  obtain ⟨json, b1, h1, h2⟩ := Prog.bind_some h
  obtain ⟨_, rfl⟩ := allocating_some h1
  obtain ⟨rfl, rfl⟩ := Prog.pure_some h2
  exact ⟨json, _, rfl, rfl⟩

/-- the decision on an object that is no response -/
def handlerOf (p : Addr) (request : Json) : Prog (Broker T) Response :=
  match request.getObjectItem "method" with
  | some (.str methodName) => handleMethod env p request methodName
  | some _ => errorResponse env request ⟨INVALID_REQUEST, "reason", "method is not a string"⟩
  | none => errorResponse env request ⟨INVALID_REQUEST, "reason", "neither request nor response"⟩

theorem parseJsonRpc_of_response {p : Addr} {request response : Json} {resultType : String}
    (h : request.routingResponse = some (resultType, response)) :
    parseJsonRpc (T := T) env p request = handleRoutingResponse env request response resultType p := by
  unfold Json.routingResponse at h
  unfold parseJsonRpc
  cases hm : request.getObjectItem "method" with
  | some m => rw [hm] at h; cases h
  | none =>
    rw [hm] at h
    cases hr : request.getObjectItem "result" with
    | some r => rw [hr] at h; cases h; rfl
    | none =>
      rw [hr] at h
      cases he : request.getObjectItem "error" with
      | none => rw [he] at h; cases h
      | some e => rw [he] at h; cases h; rfl

theorem parseJsonRpc_of_request {p : Addr} {request : Json} (h : request.routingResponse = none) :
    parseJsonRpc (T := T) env p request
      = (do let response ← handlerOf env p request; sendResponse env p response.json) := by
  unfold Json.routingResponse at h
  unfold parseJsonRpc handlerOf
  cases hm : request.getObjectItem "method" with
  | some m => cases m <;> rfl
  | none =>
    rw [hm] at h
    cases hr : request.getObjectItem "result" with
    | some r => rw [hr] at h; cases h
    | none =>
      rw [hr] at h
      cases he : request.getObjectItem "error" with
      | some e => rw [he] at h; cases h
      | none => rfl

/-- `method` is the method of the request -/
def Json.HasMethod (request : Json) (method : String) : Prop :=
  request.getObjectItem "method" = some (.str method)

theorem Json.HasMethod.routingResponse {request : Json} {method : String} (h : request.HasMethod method) :
    request.routingResponse = none := by
  unfold Json.routingResponse
  rw [h]

theorem handlerOf_of_method {p : Addr} {request : Json} {method : String} (h : request.HasMethod method) :
    handlerOf (T := T) env p request = handleMethod env p request method := by
  unfold handlerOf
  rw [h]

theorem handlerOf_of_routes {p : Addr} {request : Json} {what : ElementType}
    (h : request.routes = some what) :
    handlerOf (T := T) env p request = setOrCall env p request what := by
  unfold Json.routes at h
  unfold handlerOf
  cases hm : request.getObjectItem "method" with
  | none => rw [hm] at h; cases h
  | some m =>
    rw [hm] at h
    split at h
    · rename_i e; cases e; cases h; rfl
    · rename_i e; cases e; cases h; rfl
    · cases h

/-- a handler other than that of set and call -/
def OnlyStoreOrAccounts (b b' : Broker T) : Prop := OnlyStore b b' ∨ OnlyAccounts b b'

theorem does_handlerOf {p : Addr} {request : Json} (h : request.routes = none) :
    Does OnlyStoreOrAccounts (handlerOf (T := T) env p request) := by
  unfold Json.routes at h
  unfold handlerOf
  cases hm : request.getObjectItem "method" with
  | none => exact (does_errorResponse (E := OnlyStore) env _ _).mono fun _ _ => Or.inl
  | some m =>
    rw [hm] at h
    cases m with
    | str name =>
      show Does _ (handleMethod env p request name)
      unfold handleMethod
      refine Does.ite (fun _ => (does_changeState env p request).mono fun _ _ => Or.inl) fun _ => ?_
      refine Does.ite (fun e => ?_) fun _ => Does.ite (fun e => ?_) fun _ => ?_
      · subst e; cases h
      · subst e; cases h
      refine Does.ite (fun _ => (does_addElementToPeer env p request).mono fun _ _ => Or.inl) fun _ => ?_
      refine Does.ite (fun _ => (does_removeElementFromPeer env p request).mono fun _ _ => Or.inl) fun _ => ?_
      refine Does.ite (fun _ => (does_processFetch env p request).mono fun _ _ => Or.inl) fun _ => ?_
      refine Does.ite (fun _ => (does_removeFetchFromPeer env p request).mono fun _ _ => Or.inl) fun _ => ?_
      refine Does.ite (fun _ => (does_getElements env p request).mono fun _ _ h => Or.inl h.onlyStore)
        fun _ => ?_
      refine Does.ite (fun _ => (does_configPeer env p request).mono fun _ _ => Or.inr) fun _ => ?_
      refine Does.ite (fun _ => (does_handleInfo env request).mono fun _ _ h => Or.inl h.onlyStore)
        fun _ => ?_
      refine Does.ite (fun _ => (does_handleAuthentication env p request).mono fun _ _ => Or.inr)
        fun _ => ?_
      refine Does.ite (fun _ => (does_handleChangePassword env p request).mono fun _ _ => Or.inr)
        fun _ => ?_
      exact (does_errorResponse (E := OnlyStore) env _ _).mono fun _ _ => Or.inl
    | _ => exact (does_errorResponse (E := OnlyStore) env _ _).mono fun _ _ => Or.inl

/-! ## connecting -/

/-- the state in which `p` has connected -/
def Broker.connected (b : Broker T) (env : Env) (p : Addr) (memory : PeerMemory)
    (isLocalConnection : Bool) (n : Nat) : Broker T :=
  { b with
    calls := n
    routingTable := Function.update b.routingTable p (HashTable.create env.config.routingTableOrder)
    name := Function.update b.name p none
    userName := Function.update b.userName p none
    isLocalConnection := Function.update b.isLocalConnection p isLocalConnection
    elementList := Function.update b.elementList p []
    fetchList := Function.update b.fetchList p []
    fetchGroups := Function.update b.fetchGroups p memory.fetchGroups
    setGroups := Function.update b.setGroups p memory.setGroups
    callGroups := Function.update b.callGroups p memory.callGroups
    peerList := b.peerList ++ [p] }

theorem initPeer_some {env : Env} {p : Addr} {memory : PeerMemory} {isLocal ok : Bool} {b b' : Broker T}
    (h : initPeer env p memory isLocal b = some (ok, b')) :
    (∃ n, b' = { b with calls := n }) ∨ ∃ n, b' = b.connected env p memory isLocal n := by
  obtain ⟨ok2, b1, h1, h2⟩ := Prog.bind_some h
  obtain ⟨_, rfl⟩ := call_some h1
  cases ok2 with
  | false =>
    obtain ⟨_, rfl⟩ := Prog.pure_some h2
    exact Or.inl ⟨_, rfl⟩
  | true =>
    obtain ⟨_, b2, h3, h4⟩ := Prog.bind_some h2
    obtain ⟨_, rfl⟩ := Prog.pure_some h4
    exact Or.inr ⟨_, Prog.update_some h3⟩

theorem connectPeer_some {env : Env} {p : Addr} {connection : Connection} {isLocal : Bool}
    {b b' : Broker T} {u : Unit} (h : connectPeer env p connection isLocal b = some (u, b')) :
    (∃ n, b' = { b with calls := n }) ∨ ∃ n, b' = b.connected env p connection.memory isLocal n := by
  obtain ⟨ok, b1, h1, h2⟩ := Prog.bind_some h
  obtain ⟨_, rfl⟩ := call_some h1
  cases ok with
  | false =>
    obtain ⟨_, rfl⟩ := Prog.pure_some h2
    exact Or.inl ⟨_, rfl⟩
  | true =>
    obtain ⟨ok2, b2, h3, h4⟩ := Prog.bind_some h2
    obtain ⟨_, rfl⟩ := Prog.pure_some h4
    rcases initPeer_some h3 with ⟨n, rfl⟩ | ⟨n, rfl⟩
    · exact Or.inl ⟨n, rfl⟩
    · exact Or.inr ⟨n, rfl⟩

/-! ## all steps -/

/-- what a step from `b`, with no calls made yet, can be -/
inductive Stepped (b : Broker T) : Event → Broker T → Prop
  | notConnected (p : Addr) (connection : Connection) (isLocal : Bool) (n : Nat) :
    Stepped b (.connect p connection isLocal) { b with calls := n }
  | connected (p : Addr) (connection : Connection) (isLocal : Bool) (n : Nat) (hp : p ∉ b.peerList) :
    Stepped b (.connect p connection isLocal) (b.connected env p connection.memory isLocal n)
  | answered (p : Addr) (request : Json) (res : Response) (ret : Bool) (b1 b2 : Broker T)
      (hp : p ∈ b.peerList) (hr : request.routingResponse = none)
      (h1 : handlerOf env p request b = some (res, b1))
      (h2 : sendResponse env p res.json b1 = some (ret, b2)) :
    Stepped b (.rpc p request) { b2 with received := b2.received + 1 }
  | response (p : Addr) (request response : Json) (resultType : String) (ret : Bool) (b1 : Broker T)
      (hp : p ∈ b.peerList) (hr : request.routingResponse = some (resultType, response))
      (h1 : handleRoutingResponse env request response resultType p b = some (ret, b1)) :
    Stepped b (.rpc p request) { b1 with received := b1.received + 1 }
  | timeout (r : Addr) (b1 : Broker T) (ht : b.timers r = some true)
      (h1 : requestTimeoutHandler env r b = some ((), b1)) : Stepped b (.timeout r) b1
  | disconnected (p : Addr) (b1 : Broker T) (hp : p ∈ b.peerList)
      (h1 : freePeerResources env p b = some ((), b1)) : Stepped b (.disconnect p) b1

theorem handleEvent_cases {b b' : Broker T} {e : Event} {u : Unit}
    (h : handleEvent env e b = some (u, b')) : Stepped env b e b' := by
  cases e with
  | connect p connection isLocal =>
    obtain ⟨_, b1, h1, h2⟩ := Prog.bind_some h
    obtain ⟨hp, rfl⟩ := Prog.require_some h1
    rcases connectPeer_some h2 with ⟨n, rfl⟩ | ⟨n, rfl⟩
    · exact .notConnected p connection isLocal n
    · exact .connected p connection isLocal n (by simpa using hp)
  | rpc p request =>
    obtain ⟨_, b1, h1, h2⟩ := Prog.bind_some h
    obtain ⟨hp, rfl⟩ := Prog.require_some h1
    have hp' : p ∈ b1.peerList := by simpa using hp
    obtain ⟨ret, b2, h3, h4⟩ := Prog.bind_some h2
    obtain ⟨_, rfl⟩ := Prog.pure_some h4
    obtain ⟨ret', b3, h5, h6⟩ := Prog.bind_some h3
    obtain ⟨_, b4, h7, h8⟩ := Prog.bind_some h6
    obtain rfl := Prog.update_some h7
    obtain ⟨_, rfl⟩ := Prog.pure_some h8
    cases hr : request.routingResponse with
    | some r =>
      rw [parseJsonRpc_of_response env hr] at h5
      exact .response p request r.2 r.1 ret' b3 hp' hr h5
    | none =>
      rw [parseJsonRpc_of_request env hr] at h5
      obtain ⟨res, b5, h9, h10⟩ := Prog.bind_some h5
      exact .answered p request res ret' b5 b3 hp' hr h9 h10
  | timeout r =>
    obtain ⟨_, b1, h1, h2⟩ := Prog.bind_some h
    obtain ⟨ht, rfl⟩ := Prog.require_some h1
    exact .timeout r b' (by simpa using ht) h2
  | disconnect p =>
    obtain ⟨_, b1, h1, h2⟩ := Prog.bind_some h
    obtain ⟨hp, rfl⟩ := Prog.require_some h1
    exact .disconnected p b' (by simpa using hp) h2

/-- the step of a request with a method: it is handled, and the answer is sent -/
theorem stepped_method {b b' : Broker T} {p : Addr} {request : Json} {method : String}
    (hm : request.HasMethod method) (h : Stepped env b (.rpc p request) b') :
    p ∈ b.peerList ∧ ∃ res ret b1 b2, handleMethod env p request method b = some (res, b1) ∧
      sendResponse env p res.json b1 = some (ret, b2) ∧ b' = { b2 with received := b2.received + 1 } := by
  cases h with
  | answered _ _ res ret b1 b2 hp hr h1 h2 =>
    rw [handlerOf_of_method env hm] at h1
    exact ⟨hp, res, ret, b1, b2, h1, h2, rfl⟩
  | response _ _ response resultType ret b1 hp hr h1 =>
    rw [hm.routingResponse] at hr
    cases hr

theorem step_cases {platform : Platform} {b b' : Broker T} {i : Input}
    (h : step platform b i = some b') :
    Stepped (i.env platform) { b with calls := 0 } i.event b' := handleEvent_cases _ (step_some h)

end

end Cjet
