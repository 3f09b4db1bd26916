import Cjet.Route.Effect

/-!
# What a set or call does

`routedCall` follows `set_or_call` up to the point where the timer of the new routing request is
registered; it is a function of the state before the request and of the outcomes of the calls.
`setOrCall_some` gives the state that a set or call leaves behind.
-/

set_option linter.unusedVariables false
set_option linter.unusedSectionVars false

namespace Cjet
open Stateful Alloc

/-- a set or call whose timer has been registered -/
structure RoutedCall where
  request : RoutingRequest
  message : Json
  /-- the number of the next call -/
  calls : Nat

section
variable {T : Type} [HashTable T]

/-- the message for the owner and the number of the next call, where the message can be made and the
timer can be registered; `n` calls have been made before -/
def routedMessage (env : Env) (e : Element) (params : Json) (path : String) (what : ElementType)
    (id : String) (n : Nat) : Option (Json × Nat) :=
  match valueToRoute params what with
  | .error _ => none
  | .ok value =>
    match (createRoutedMessage env path what value id n).1,
        getTimeoutInNsec env.toPlatform (params.getObjectItem "timeout") e.timeoutNsec with
    | some message, .ok _ =>
      let n := (createRoutedMessage env path what value id n).2
      if env.ok .timerfdCreate n && env.ok .epollAdd (n + 1) then some (message, n + 2) else none
    | _, _ => none

/-- the request that `alloc_routing_request` makes -/
def newRequest (env : Env) (b : Broker T) (p o : Addr) (originRequestId copy : Option Json) :
    RoutingRequest where
  requestingPeer := p
  ownerPeer := o
  originRequestId := copy
  id := fillRoutedRequestId env.toPlatform
    (calculateSizeForRoutedRequestId env.toPlatform p originRequestId b.uuid) p originRequestId b.uuid
  origin := b.received

/-- the copy of the id, where the request can be allocated -/
def requestCopy (env : Env) (b : Broker T) (originRequestId : Option Json) : Option (Option Json) :=
  if env.ok .malloc b.calls then (copyOriginId env originRequestId (b.calls + 1)).1 else none

/-- the set or call as far as its timer is registered: it passes all checks, and everything that is
allocated for it could be allocated -/
def routedCall (env : Env) (b : Broker T) (p : Addr) (request : Json) (what : ElementType) :
    Option RoutedCall :=
  match getParamsAndPath request with
  | .error _ => none
  | .ok (params, path) =>
    match (HashTable.get b.elementTable path).bind b.elements with
    | none => none
    | some el =>
      match checkSetOrCall b p el what path request with
      | .error _ => none
      | .ok id =>
        match requestCopy env b id with
        | none => none
        | some copy =>
          (routedMessage env el params path what (newRequest env b p el.peer id copy).id
            (copyOriginId env id (b.calls + 1)).2).map fun m =>
              ⟨newRequest env b p el.peer id copy, m.1, m.2⟩

namespace RoutedCall

/-- the owner's routing table takes the request -/
def stored (rc : RoutedCall) (b : Broker T) : Bool :=
  (HashTable.put (b.routingTable rc.request.ownerPeer) rc.request.id b.routed).1

/-- the timer can be started -/
def started (rc : RoutedCall) (env : Env) : Bool := env.ok .timerfdSettime rc.calls

/-- the message for the owner can be rendered -/
def rendered (rc : RoutedCall) (env : Env) (b : Broker T) : Bool :=
  env.ok (.print (.routed b.routed)) (rc.calls + 1)

/-- the message for the owner can be sent -/
def delivered (rc : RoutedCall) (env : Env) (b : Broker T) : Bool :=
  env.ok (.sendMessage rc.request.ownerPeer (.routed b.routed) rc.message) (rc.calls + 2)

/-- the routing tables with the request in the table of its owner -/
def tables (rc : RoutedCall) (b : Broker T) : Addr → T :=
  Function.update b.routingTable rc.request.ownerPeer
    (HashTable.put (b.routingTable rc.request.ownerPeer) rc.request.id b.routed).2

end RoutedCall

/-- the ways a set or call goes -/
inductive SetOrCall (env : Env) (b : Broker T) (p : Addr) (request : Json) (what : ElementType) :
    Response → Broker T → Prop
  /-- no routing request is made -/
  | rejected (json : Option Json) (n : Nat) (hid : NoIdNoAnswer request json)
    (h : routedCall env b p request what = none) :
    SetOrCall env b p request what ⟨.error, json⟩ { b with calls := n }
  /-- the routing request is freed again, nothing else has been done -/
  | dropped (json : Option Json) (n : Nat) (hid : NoIdNoAnswer request json)
    (h : routedCall env b p request what = none) :
    SetOrCall env b p request what ⟨.error, json⟩
      { b with
        calls := n, uuid := (b.uuid + 1) % 2 ^ 32, routed := b.routed + 1
        requests := Function.update b.requests b.routed none }
  /-- the table is full: the timer stays registered -/
  | full (json : Option Json) (n : Nat) (hid : NoIdNoAnswer request json) (rc : RoutedCall)
    (h : routedCall env b p request what = some rc)
      (hs : rc.stored b = false) :
    SetOrCall env b p request what ⟨.error, json⟩
      { b with
        calls := n, uuid := (b.uuid + 1) % 2 ^ 32, routed := b.routed + 1
        requests := Function.update b.requests b.routed none
        timers := Function.update b.timers b.routed (some false)
        routingTable := rc.tables b }
  /-- the timer does not start: it stays registered -/
  | notStarted (json : Option Json) (n : Nat) (hid : NoIdNoAnswer request json) (rc : RoutedCall)
      (h : routedCall env b p request what = some rc) (hs : rc.stored b = true)
      (ht : rc.started env = false) :
    SetOrCall env b p request what ⟨.error, json⟩
      { b with
        calls := n, uuid := (b.uuid + 1) % 2 ^ 32, routed := b.routed + 1
        requests := Function.update b.requests b.routed none
        timers := Function.update b.timers b.routed (some false)
        routingTable := Function.update (rc.tables b) rc.request.ownerPeer
          (HashTable.remove (rc.tables b rc.request.ownerPeer) rc.request.id).2 }
  /-- the message is not rendered: the request is freed but stays in the table -/
  | notRendered (json : Option Json) (n : Nat) (hid : NoIdNoAnswer request json) (rc : RoutedCall)
      (h : routedCall env b p request what = some rc) (hs : rc.stored b = true)
      (ht : rc.started env = true) (hr : rc.rendered env b = false) :
    SetOrCall env b p request what ⟨.error, json⟩
      { b with
        calls := n, uuid := (b.uuid + 1) % 2 ^ 32, routed := b.routed + 1
        requests := Function.update b.requests b.routed none
        timers := Function.update b.timers b.routed (some true)
        routingTable := rc.tables b }
  /-- the message is handed to the owner; where this fails the requester is told so -/
  | sent (json : Option Json) (n : Nat) (hid : NoIdNoAnswer request json) (rc : RoutedCall)
      (h : routedCall env b p request what = some rc) (hs : rc.stored b = true)
      (ht : rc.started env = true) (hr : rc.rendered env b = true)
      (ho : rc.request.ownerPeer ∈ b.peerList) (hj : rc.delivered env b = true → json = none) :
    SetOrCall env b p request what ⟨if rc.delivered env b then .pending else .error, json⟩
      { b with
        calls := n, uuid := (b.uuid + 1) % 2 ^ 32, routed := b.routed + 1
        requests := Function.update b.requests b.routed (some rc.request)
        timers := Function.update b.timers b.routed (some true)
        routingTable := rc.tables b
        sent := b.sent ++ [⟨rc.request.ownerPeer, .routed b.routed, rc.message, rc.delivered env b⟩] }

/-! ## the parts of `set_or_call` -/

theorem failRouting_some {env : Env} {request : Json} {r : Addr} {err : Err} {b b' : Broker T}
    {res : Response} (h : failRouting env request r err b = some (res, b')) :
    ∃ json n, res = ⟨.error, json⟩ ∧ NoIdNoAnswer request json ∧
      b' = { b with calls := n, requests := Function.update b.requests r none } := by
  obtain ⟨res1, b1, h1, h2⟩ := Prog.bind_some h
  obtain ⟨json, n, rfl, hid, rfl⟩ := errorResponse_some h1
  obtain ⟨_, b2, h3, h4⟩ := Prog.bind_some h2
  obtain rfl := Prog.update_some h3
  obtain ⟨rfl, rfl⟩ := Prog.pure_some h4
  exact ⟨json, n, rfl, hid, rfl⟩

theorem copyOriginId_some {env : Env} {id : Option Json} {copy : Option Json} {n : Nat}
    (h : (copyOriginId env id n).1 = some copy) : copy = id := by
  cases id with
  | none => exact (Option.some.inj h).symm
  | some j =>
    have e : ((duplicate env j n).1.map some) = some copy := h
    obtain ⟨k, hk, rfl⟩ := Option.map_eq_some_iff.mp e
    rw [duplicate_some hk]

theorem cjetTimerInit_some {env : Env} {r : Addr} {b b' : Broker T} {ok : Bool}
    (h : cjetTimerInit env r b = some (ok, b')) :
    (ok = true ∧ env.ok .timerfdCreate b.calls = true ∧ env.ok .epollAdd (b.calls + 1) = true ∧
      b' = { b with calls := b.calls + 2, timers := Function.update b.timers r (some false) }) ∨
    (ok = false ∧ (env.ok .timerfdCreate b.calls && env.ok .epollAdd (b.calls + 1)) = false ∧
      ∃ n, b' = { b with calls := n }) := by
  obtain ⟨ok1, b1, h1, h2⟩ := Prog.bind_some h
  obtain ⟨e1, rfl⟩ := call_some h1
  cases ok1 with
  | false =>
    obtain ⟨rfl, rfl⟩ := Prog.pure_some h2
    exact Or.inr ⟨rfl, by rw [← e1]; rfl, _, rfl⟩
  | true =>
    obtain ⟨ok2, b2, h3, h4⟩ := Prog.bind_some h2
    obtain ⟨e2, rfl⟩ := call_some h3
    cases ok2 with
    | false =>
      obtain ⟨rfl, rfl⟩ := Prog.pure_some h4
      refine Or.inr ⟨rfl, ?_, _, rfl⟩
      rw [show env.ok .epollAdd (b.calls + 1) = false from e2.symm, Bool.and_false]
    | true =>
      obtain ⟨_, b3, h5, h6⟩ := Prog.bind_some h4
      obtain rfl := Prog.update_some h5
      obtain ⟨rfl, rfl⟩ := Prog.pure_some h6
      exact Or.inl ⟨rfl, e1.symm, e2.symm, rfl⟩

theorem timerStart_some {env : Env} {r : Addr} {b b' : Broker T} {ok : Bool}
    (h : timerStart env r b = some (ok, b')) :
    ok = env.ok .timerfdSettime b.calls ∧ b' = { b with
      calls := b.calls + 1
      timers := if ok then Function.update b.timers r ((b.timers r).map fun _ => true) else b.timers } := by
  obtain ⟨ok1, b1, h1, h2⟩ := Prog.bind_some h
  obtain ⟨e1, rfl⟩ := call_some h1
  obtain ⟨_, b2, h3, h4⟩ := Prog.bind_some h2
  obtain ⟨rfl, rfl⟩ := Prog.pure_some h4
  refine ⟨e1, ?_⟩
  rw [Prog.update_some h3]
  cases ok <;> rfl

/-- The ways `setup_routing_information` goes, for a request whose timer is not registered yet. -/
theorem setupRoutingInformation_some {env : Env} {e : Element} {request : Json}
    {timeout : Option Json} {r : Addr} {id : String} {b b' : Broker T} {res : Option Response}
    (h : setupRoutingInformation env e request timeout r id b = some (res, b')) :
    (((getTimeoutInNsec env.toPlatform timeout e.timeoutNsec).toOption = none ∨
        (env.ok .timerfdCreate b.calls && env.ok .epollAdd (b.calls + 1)) = false) ∧
      ∃ json n, res = some ⟨.error, json⟩ ∧ NoIdNoAnswer request json ∧ b' = { b with calls := n }) ∨
    (∃ t, (getTimeoutInNsec env.toPlatform timeout e.timeoutNsec).toOption = some t) ∧
    (env.ok .timerfdCreate b.calls && env.ok .epollAdd (b.calls + 1)) = true ∧
    (((HashTable.put (b.routingTable e.peer) id r).1 = false ∧ ∃ json n, res = some ⟨.error, json⟩ ∧
      NoIdNoAnswer request json ∧
        b' = { b with
          calls := n, timers := Function.update b.timers r (some false)
          routingTable := Function.update b.routingTable e.peer
            (HashTable.put (b.routingTable e.peer) id r).2 }) ∨
      (HashTable.put (b.routingTable e.peer) id r).1 = true ∧
        ((env.ok .timerfdSettime (b.calls + 2) = false ∧ ∃ json n, res = some ⟨.error, json⟩ ∧
          NoIdNoAnswer request json ∧
          b' = { b with
            calls := n, timers := Function.update b.timers r (some false)
            routingTable := Function.update b.routingTable e.peer
              (HashTable.remove (HashTable.put (b.routingTable e.peer) id r).2 id).2 }) ∨
        (env.ok .timerfdSettime (b.calls + 2) = true ∧ res = none ∧
          b' = { b with
            calls := b.calls + 3, timers := Function.update b.timers r (some true)
            routingTable := Function.update b.routingTable e.peer
              (HashTable.put (b.routingTable e.peer) id r).2 }))) := by
  unfold setupRoutingInformation at h
  cases ht : getTimeoutInNsec env.toPlatform timeout e.timeoutNsec with
  | error err =>
    rw [ht] at h
    obtain ⟨res1, b1, h1, h2⟩ := Prog.bind_some h
    obtain ⟨json, n, rfl, hid, rfl⟩ := failureResponse_some h1
    obtain ⟨rfl, rfl⟩ := Prog.pure_some h2
    exact Or.inl ⟨Or.inl rfl, json, n, rfl, hid, rfl⟩
  | ok t =>
    rw [ht] at h
    obtain ⟨ok1, b1, h1, h2⟩ := Prog.bind_some h
    rcases cjetTimerInit_some h1 with ⟨rfl, e1, e2, rfl⟩ | ⟨rfl, e1, n, rfl⟩
    · refine Or.inr ⟨⟨t, rfl⟩, by rw [e1, e2]; rfl, ?_⟩
      obtain ⟨ok2, b2, h3, h4⟩ := Prog.bind_some h2
      obtain ⟨e3, rfl⟩ := routeTablePut_some h3
      cases ok2 with
      | false =>
        obtain ⟨res1, b3, h5, h6⟩ := Prog.bind_some h4
        obtain ⟨json, n, rfl, hid, rfl⟩ := errorResponse_some h5
        obtain ⟨rfl, rfl⟩ := Prog.pure_some h6
        exact Or.inl ⟨e3.symm, json, n, rfl, hid, rfl⟩
      | true =>
        refine Or.inr ⟨e3.symm, ?_⟩
        obtain ⟨ok3, b3, h5, h6⟩ := Prog.bind_some h4
        obtain ⟨e4, rfl⟩ := timerStart_some h5
        cases ok3 with
        | false =>
          obtain ⟨_, b4, h7, h8⟩ := Prog.bind_some h6
          obtain ⟨_, rfl⟩ := routeTableRemove_some h7
          obtain ⟨res1, b5, h9, h10⟩ := Prog.bind_some h8
          obtain ⟨json, n, rfl, hid, rfl⟩ := errorResponse_some h9
          obtain ⟨rfl, rfl⟩ := Prog.pure_some h10
          refine Or.inl ⟨e4.symm, json, n, rfl, hid, ?_⟩
          simp only [Function.update_self, Function.update_idem]
          rfl
        | true =>
          obtain ⟨rfl, rfl⟩ := Prog.pure_some h6
          refine Or.inr ⟨e4.symm, rfl, ?_⟩
          simp only [Function.update_self, Function.update_idem, Option.map_some, if_pos]
    · obtain ⟨res1, b2, h3, h4⟩ := Prog.bind_some h2
      obtain ⟨json, n, rfl, hid, rfl⟩ := errorResponse_some h3
      obtain ⟨rfl, rfl⟩ := Prog.pure_some h4
      exact Or.inl ⟨Or.inr e1, json, n, rfl, hid, rfl⟩

theorem sendRoutedMessage_some {env : Env} {e : Element} {request : Json} {r : Addr} {msg : Json}
    {b b' : Broker T} {res : Response}
    (h : sendRoutedMessage env e request r msg b = some (res, b')) :
    (env.ok (.print (.routed r)) b.calls = false ∧ ∃ json n, res = ⟨.error, json⟩ ∧ NoIdNoAnswer request json ∧
      b' = { b with calls := n, requests := Function.update b.requests r none }) ∨
    (env.ok (.print (.routed r)) b.calls = true ∧ e.peer ∈ b.peerList ∧ ∃ json n,
      NoIdNoAnswer request json ∧ (env.ok (.sendMessage e.peer (.routed r) msg) (b.calls + 1) = true → json = none) ∧
      res = ⟨if env.ok (.sendMessage e.peer (.routed r) msg) (b.calls + 1) then .pending else .error, json⟩ ∧
      b' = { b with
        calls := n
        sent := b.sent ++ [⟨e.peer, .routed r, msg,
          env.ok (.sendMessage e.peer (.routed r) msg) (b.calls + 1)⟩] }) := by
  obtain ⟨text, b1, h1, h2⟩ := Prog.bind_some h
  obtain ⟨htext, rfl⟩ := allocating_some h1
  have e1 : text = if env.ok (.print (.routed r)) b.calls then some msg else none := htext
  cases hp : env.ok (.print (.routed r)) b.calls with
  | false =>
    rw [hp] at e1
    obtain rfl : text = none := e1
    obtain ⟨json, n, rfl, hid, rfl⟩ := failRouting_some h2
    exact Or.inl ⟨rfl, json, n, rfl, hid, rfl⟩
  | true =>
    rw [hp] at e1
    obtain rfl : text = some msg := e1
    obtain ⟨ok, b2, h3, h4⟩ := Prog.bind_some h2
    obtain ⟨ho, hok, rfl⟩ := sendMessage_some h3
    refine Or.inr ⟨rfl, ho, ?_⟩
    have hok' : ok = env.ok (.sendMessage e.peer (.routed r) msg) (b.calls + 1) := hok
    rw [← hok']
    cases ok with
    | false =>
      obtain ⟨json, n, rfl, hid, rfl⟩ := errorResponse_some h4
      exact ⟨json, n, hid, fun e => absurd e (by decide), rfl, rfl⟩
    | true =>
      obtain ⟨rfl, rfl⟩ := Prog.pure_some h4
      exact ⟨none, _, fun _ => rfl, fun _ => rfl, rfl, rfl⟩

theorem allocRoutingRequest_some {env : Env} {p o : Addr} {id : Option Json} {b b' : Broker T}
    {r : Option Addr} (h : allocRoutingRequest env p o id b = some (r, b')) :
    (requestCopy env b id = none ∧ r = none ∧ ∃ n, b' = { b with calls := n }) ∨
    ∃ copy, requestCopy env b id = some copy ∧ r = some b.routed ∧ b' = { b with
      calls := (copyOriginId env id (b.calls + 1)).2
      uuid := (b.uuid + 1) % 2 ^ 32
      routed := b.routed + 1
      requests := Function.update b.requests b.routed (some (newRequest env b p o id copy)) } := by
  unfold requestCopy
  obtain ⟨b0, b1, h1, h2⟩ := Prog.bind_some h
  obtain ⟨rfl, rfl⟩ := Prog.read_some h1
  obtain ⟨ok, b2, h3, h4⟩ := Prog.bind_some h2
  obtain ⟨e1, rfl⟩ := call_some h3
  rw [← e1]
  cases ok with
  | false =>
    obtain ⟨rfl, rfl⟩ := Prog.pure_some h4
    exact Or.inl ⟨rfl, rfl, _, rfl⟩
  | true =>
    obtain ⟨copy, b3, h5, h6⟩ := Prog.bind_some h4
    obtain ⟨hcopy, rfl⟩ := allocating_some h5
    have e2 : (copyOriginId env id (b1.calls + 1)).1 = copy := hcopy.symm
    rw [if_pos rfl, e2]
    cases copy with
    | none =>
      obtain ⟨rfl, rfl⟩ := Prog.pure_some h6
      exact Or.inl ⟨rfl, rfl, _, rfl⟩
    | some copy =>
      obtain ⟨_, b4, h7, h8⟩ := Prog.bind_some h6
      obtain rfl := Prog.update_some h7
      obtain ⟨rfl, rfl⟩ := Prog.pure_some h8
      exact Or.inr ⟨copy, rfl, rfl, rfl⟩

/-! ## all of `set_or_call` -/

/-- The ways the part of `set_or_call` goes that follows on the allocation of the request. -/
theorem routeRequest_some {env : Env} {e : Element} {request params : Json} {path : String}
    {what : ElementType} {r : Addr} {q : RoutingRequest} {b b' : Broker T} {res : Response}
    (hq : b.requests r = some q) (h0 : routeRequest env e request params path what r b = some (res, b')) :
    (routedMessage env e params path what q.id b.calls = none ∧ ∃ json n, res = ⟨.error, json⟩ ∧
      NoIdNoAnswer request json ∧
      b' = { b with calls := n, requests := Function.update b.requests r none }) ∨
    ∃ msg n, routedMessage env e params path what q.id b.calls = some (msg, n) ∧
      (((HashTable.put (b.routingTable e.peer) q.id r).1 = false ∧ ∃ json n, res = ⟨.error, json⟩ ∧
        NoIdNoAnswer request json ∧
        b' = { b with
          calls := n, timers := Function.update b.timers r (some false)
          requests := Function.update b.requests r none
          routingTable := Function.update b.routingTable e.peer
            (HashTable.put (b.routingTable e.peer) q.id r).2 }) ∨
      (HashTable.put (b.routingTable e.peer) q.id r).1 = true ∧
        ((env.ok .timerfdSettime n = false ∧ ∃ json n, res = ⟨.error, json⟩ ∧ NoIdNoAnswer request json ∧
          b' = { b with
            calls := n, timers := Function.update b.timers r (some false)
            requests := Function.update b.requests r none
            routingTable := Function.update b.routingTable e.peer
              (HashTable.remove (HashTable.put (b.routingTable e.peer) q.id r).2 q.id).2 }) ∨
        env.ok .timerfdSettime n = true ∧
          ((env.ok (.print (.routed r)) (n + 1) = false ∧ ∃ json n, res = ⟨.error, json⟩ ∧ NoIdNoAnswer request json ∧
            b' = { b with
              calls := n, timers := Function.update b.timers r (some true)
              requests := Function.update b.requests r none
              routingTable := Function.update b.routingTable e.peer
                (HashTable.put (b.routingTable e.peer) q.id r).2 }) ∨
          (env.ok (.print (.routed r)) (n + 1) = true ∧ e.peer ∈ b.peerList ∧ ∃ json k,
            NoIdNoAnswer request json ∧ (env.ok (.sendMessage e.peer (.routed r) msg) (n + 2) = true → json = none) ∧
            res = ⟨if env.ok (.sendMessage e.peer (.routed r) msg) (n + 2) then .pending else .error, json⟩ ∧
            b' = { b with
              calls := k, timers := Function.update b.timers r (some true)
              routingTable := Function.update b.routingTable e.peer
                (HashTable.put (b.routingTable e.peer) q.id r).2
              sent := b.sent ++ [⟨e.peer, .routed r, msg,
                env.ok (.sendMessage e.peer (.routed r) msg) (n + 2)⟩] })))) := by
  obtain ⟨q', b1, h1, h⟩ := Prog.bind_some h0
  obtain ⟨hq', rfl⟩ := Prog.deref_some h1
  obtain rfl : q' = q := Option.some.inj (hq'.symm.trans hq)
  unfold routedMessage
  cases hv : valueToRoute params what with
  | error err =>
    rw [hv] at h
    obtain ⟨json, n, rfl, hid, rfl⟩ := failRouting_some h
    exact Or.inl ⟨rfl, json, n, rfl, hid, rfl⟩
  | ok value =>
    rw [hv] at h
    obtain ⟨msg, b2, h2, h3⟩ := Prog.bind_some h
    obtain ⟨hmsg, rfl⟩ := allocating_some h2
    simp only [← hmsg]
    cases msg with
    | none =>
      obtain ⟨json, n, rfl, hid, rfl⟩ := failRouting_some h3
      exact Or.inl ⟨rfl, json, n, rfl, hid, rfl⟩
    | some msg =>
      obtain ⟨res1, b3, h3, h4⟩ := Prog.bind_some h3
      rcases setupRoutingInformation_some h3 with ⟨hno, json, n, rfl, hid, rfl⟩ | ⟨⟨t, ht⟩, hinit, hrest⟩
      · -- the timer is not registered
        obtain ⟨_, b4, h5, h6⟩ := Prog.bind_some h4
        obtain rfl := Prog.update_some h5
        obtain ⟨rfl, rfl⟩ := Prog.pure_some h6
        refine Or.inl ⟨?_, json, n, rfl, hid, rfl⟩
        cases ht : getTimeoutInNsec env.toPlatform (params.getObjectItem "timeout") e.timeoutNsec with
        | error err => rfl
        | ok t =>
          rcases hno with hno | hno
          · rw [ht] at hno; cases hno
          · exact if_neg (by rw [hno]; decide)
      · right
        cases ht' : getTimeoutInNsec env.toPlatform (params.getObjectItem "timeout") e.timeoutNsec with
        | error err => rw [ht'] at ht; cases ht
        | ok t' =>
          refine ⟨msg, _, if_pos hinit, ?_⟩
          rcases hrest with ⟨hs, json, n, rfl, hid, rfl⟩ | ⟨hs, ⟨hst, json, n, rfl, hid, rfl⟩ | ⟨hst, rfl, rfl⟩⟩
          · obtain ⟨_, b4, h5, h6⟩ := Prog.bind_some h4
            obtain rfl := Prog.update_some h5
            obtain ⟨rfl, rfl⟩ := Prog.pure_some h6
            exact Or.inl ⟨hs, json, n, rfl, hid, rfl⟩
          · obtain ⟨_, b4, h5, h6⟩ := Prog.bind_some h4
            obtain rfl := Prog.update_some h5
            obtain ⟨rfl, rfl⟩ := Prog.pure_some h6
            exact Or.inr ⟨hs, Or.inl ⟨hst, json, n, rfl, hid, rfl⟩⟩
          · refine Or.inr ⟨hs, Or.inr ⟨hst, ?_⟩⟩
            rcases sendRoutedMessage_some h4 with ⟨hr, json, n, rfl, hid, rfl⟩ | ⟨hr, ho, json, n, hid, hj, rfl, rfl⟩
            · exact Or.inl ⟨hr, json, n, rfl, hid, rfl⟩
            · exact Or.inr ⟨hr, ho, json, n, hid, hj, rfl, rfl⟩

theorem setOrCall_some {env : Env} {p : Addr} {request : Json} {what : ElementType} {b b' : Broker T}
    {res : Response} (h : setOrCall env p request what b = some (res, b')) :
    SetOrCall env b p request what res b' := by
  unfold setOrCall at h
  cases hp : getParamsAndPath request with
  | error err =>
    rw [hp] at h
    obtain ⟨json, n, rfl, hid, rfl⟩ := errorResponse_some h
    exact .rejected json n hid (by simp only [routedCall, hp])
  | ok pp =>
    obtain ⟨params, path⟩ := pp
    rw [hp] at h
    obtain ⟨e, b1, h1, h2⟩ := Prog.bind_some h
    obtain ⟨he, rfl⟩ := Prog.read_some h1
    cases e with
    | none =>
      obtain ⟨json, n, rfl, hid, rfl⟩ := errorResponse_some h2
      exact .rejected json n hid (by simp only [routedCall, hp, ← he, Option.bind_none])
    | some e =>
      obtain ⟨el, b2, h3, h4⟩ := Prog.bind_some h2
      obtain ⟨hel, rfl⟩ := Prog.deref_some h3
      obtain ⟨b0, b3, h5, h6⟩ := Prog.bind_some h4
      obtain ⟨rfl, rfl⟩ := Prog.read_some h5
      cases hc : checkSetOrCall b3 p el what path request with
      | error err =>
        simp only [hc] at h6
        obtain ⟨json, n, rfl, hid, rfl⟩ := errorResponse_some h6
        exact .rejected json n hid (by simp only [routedCall, hp, ← he, Option.bind_some, hel, hc])
      | ok oid =>
        simp only [hc] at h6
        obtain ⟨r, b4, h7, h8⟩ := Prog.bind_some h6
        rcases allocRoutingRequest_some h7 with ⟨ha, rfl, n, rfl⟩ | ⟨copy, ha, rfl, rfl⟩
        · obtain ⟨json, n, rfl, hid, rfl⟩ := errorResponse_some h8
          exact .rejected json n hid (by simp only [routedCall, hp, ← he, Option.bind_some, hel, hc, ha])
        · rcases routeRequest_some (Function.update_self _ _ _) h8 with
            ⟨hm, json, n, rfl, hid, rfl⟩ | ⟨msg, m, hm, hrest⟩
          · have hrc : routedCall env b3 p request what = none := by
              simp only [routedCall, hp, ← he, Option.bind_some, hel, hc, ha, hm, Option.map_none]
            simp only [Function.update_idem]
            exact .dropped json n hid hrc
          · have hrc : routedCall env b3 p request what
                = some ⟨newRequest env b3 p el.peer oid copy, msg, m⟩ := by
              simp only [routedCall, hp, ← he, Option.bind_some, hel, hc, ha, hm, Option.map_some]
            rcases hrest with ⟨hs, json, n, rfl, hid, rfl⟩ | ⟨hs, ⟨ht, json, n, rfl, hid, rfl⟩ |
              ⟨ht, ⟨hr, json, n, rfl, hid, rfl⟩ | ⟨hr, ho, json, n, hid, hj, rfl, rfl⟩⟩⟩
            · simp only [Function.update_idem]
              exact .full json n hid _ hrc hs
            · simp only [Function.update_idem]
              have hd := SetOrCall.notStarted json n hid _ hrc hs ht
              simp only [RoutedCall.tables, Function.update_self, Function.update_idem] at hd
              exact hd
            · simp only [Function.update_idem]
              exact .notRendered json n hid _ hrc hs ht hr
            · exact .sent json n hid _ hrc hs ht hr ho hj

/-! ## what is known of a routed call -/

theorem checkSetOrCall_id {b : Broker T} {p : Addr} {el : Element} {what : ElementType} {path : String}
    {request : Json} {id : Option Json} (h : checkSetOrCall b p el what path request = .ok id) :
    id = request.getObjectItem "id" := by
  unfold checkSetOrCall at h
  split at h
  · cases h
  split at h
  · cases h
  split at h
  · cases h
  cases hid : request.getObjectItem "id" with
  | none => rw [hid] at h; cases h; rfl
  | some j =>
    simp only [hid] at h
    split at h
    · cases h; rfl
    · cases h

/-- The request stands for the object that was received, and its owner owns the element. -/
theorem routedCall_some {env : Env} {b : Broker T} {p : Addr} {request : Json} {what : ElementType}
    {rc : RoutedCall} (h : routedCall env b p request what = some rc) :
    ∃ params path e el, getParamsAndPath request = .ok (params, path) ∧
      HashTable.get b.elementTable path = some e ∧ b.elements e = some el ∧
      checkSetOrCall b p el what path request = .ok (request.getObjectItem "id") ∧
      rc.request = newRequest env b p el.peer (request.getObjectItem "id")
        (request.getObjectItem "id") ∧
      ∃ n, routedMessage env el params path what rc.request.id n = some (rc.message, rc.calls) := by
  unfold routedCall at h
  cases hp : getParamsAndPath request with
  | error err => rw [hp] at h; cases h
  | ok pp =>
    obtain ⟨params, path⟩ := pp
    simp only [hp] at h
    cases he : HashTable.get b.elementTable path with
    | none => rw [he] at h; cases h
    | some e =>
      cases hel : b.elements e with
      | none => rw [he] at h; simp only [Option.bind_some, hel] at h; cases h
      | some el =>
        rw [he] at h
        simp only [Option.bind_some, hel] at h
        cases hc : checkSetOrCall b p el what path request with
        | error err => rw [hc] at h; cases h
        | ok id =>
          obtain rfl := checkSetOrCall_id hc
          simp only [hc] at h
          cases ha : requestCopy env b (request.getObjectItem "id") with
          | none => rw [ha] at h; cases h
          | some copy =>
            have hcopy : copy = request.getObjectItem "id" := by
              unfold requestCopy at ha
              split at ha
              · exact copyOriginId_some ha
              · cases ha
            simp only [ha] at h
            obtain ⟨m, hm, rfl⟩ := Option.map_eq_some_iff.mp h
            rw [hcopy] at hm ⊢
            exact ⟨params, path, e, el, rfl, he, hel, hc, rfl, _, hm⟩

end

end Cjet
