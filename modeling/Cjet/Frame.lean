import Cjet.Model.Parse

/-!
# What the handlers leave alone

The state of the broker has parts, and each handler works on one of them.

* `OnlyCalls`      nothing but the number of calls changes: building a response;
* `OnlyStore`      elements and fetches change, and notifications are sent: add, change, remove,
                   fetch, unfetch, get;
* `OnlyRouter`     routed requests and timers change, and messages are sent: set, call, responses of
                   owners, timeouts, and the routes of a peer that goes away;
* `OnlyAccounts`   names, groups and users change: config, info, authenticate, passwd.
-/

set_option linter.unusedVariables false

namespace Cjet
open Stateful Alloc

def About.isNotification : About → Bool
  | .notification _ _ => true
  | _ => false

section
variable {T : Type}

def OnlyCalls (b b' : Broker T) : Prop := ∃ n, b' = { b with calls := n }

structure OnlyStore (b b' : Broker T) : Prop where
  peerList : b'.peerList = b.peerList
  router : b'.toRouter = b.toRouter
  accounts : b'.toAccounts = b.toAccounts
  received : b'.received = b.received
  sent : ∃ l, b'.sent = b.sent ++ l ∧ ∀ m ∈ l, m.about.isNotification = true ∧ m.peer ∈ b.peerList

structure OnlyRouter (b b' : Broker T) : Prop where
  store : b'.toStore = b.toStore
  accounts : b'.toAccounts = b.toAccounts
  received : b'.received = b.received
  sent : ∃ l, b'.sent = b.sent ++ l ∧ ∀ m ∈ l, m.about.isNotification = false ∧ m.peer ∈ b.peerList

structure OnlyAccounts (b b' : Broker T) : Prop where
  store : b'.toStore = b.toStore
  router : b'.toRouter = b.toRouter
  allGroups : b'.allGroups = b.allGroups
  isLocalConnection : b'.isLocalConnection = b.isLocalConnection
  received : b'.received = b.received
  sent : b'.sent = b.sent

instance : IsPreorder (Broker T) OnlyCalls where
  refl b := ⟨b.calls, rfl⟩
  trans a b c := by
    rintro ⟨m, rfl⟩ ⟨n, rfl⟩
    exact ⟨n, rfl⟩

instance : IsPreorder (Broker T) OnlyStore where
  refl b := ⟨rfl, rfl, rfl, rfl, [], by simp, by simp⟩
  trans a b c hab hbc := by
    obtain ⟨l, hl, hn⟩ := hab.sent
    obtain ⟨l', hl', hn'⟩ := hbc.sent
    refine ⟨hbc.peerList.trans hab.peerList, hbc.router.trans hab.router,
      hbc.accounts.trans hab.accounts, hbc.received.trans hab.received, l ++ l', ?_, ?_⟩
    · rw [hl', hl, List.append_assoc]
    · intro m hm
      rcases List.mem_append.mp hm with h | h
      · exact hn m h
      · rw [← hab.peerList]; exact hn' m h

instance : IsPreorder (Broker T) OnlyRouter where
  refl b := ⟨rfl, rfl, rfl, [], by simp, by simp⟩
  trans a b c hab hbc := by
    obtain ⟨l, hl, hn⟩ := hab.sent
    obtain ⟨l', hl', hn'⟩ := hbc.sent
    refine ⟨hbc.store.trans hab.store, hbc.accounts.trans hab.accounts,
      hbc.received.trans hab.received, l ++ l', ?_, ?_⟩
    · rw [hl', hl, List.append_assoc]
    · intro m hm
      rcases List.mem_append.mp hm with h | h
      · exact hn m h
      · have e : b.peerList = a.peerList := congrArg Store.peerList hab.store
        rw [← e]; exact hn' m h

instance : IsPreorder (Broker T) OnlyAccounts where
  refl b := ⟨rfl, rfl, rfl, rfl, rfl, rfl⟩
  trans a b c hab hbc := ⟨hbc.store.trans hab.store, hbc.router.trans hab.router,
    hbc.allGroups.trans hab.allGroups, hbc.isLocalConnection.trans hab.isLocalConnection,
    hbc.received.trans hab.received, hbc.sent.trans hab.sent⟩

theorem OnlyCalls.onlyStore {b b' : Broker T} (h : OnlyCalls b b') : OnlyStore b b' := by
  obtain ⟨n, rfl⟩ := h
  exact ⟨rfl, rfl, rfl, rfl, [], by simp, by simp⟩

theorem OnlyCalls.onlyRouter {b b' : Broker T} (h : OnlyCalls b b') : OnlyRouter b b' := by
  obtain ⟨n, rfl⟩ := h
  exact ⟨rfl, rfl, rfl, [], by simp, by simp⟩

theorem OnlyCalls.onlyAccounts {b b' : Broker T} (h : OnlyCalls b b') : OnlyAccounts b b' := by
  obtain ⟨n, rfl⟩ := h
  exact ⟨rfl, rfl, rfl, rfl, rfl, rfl⟩

/-- what a program may do that only makes calls -/
class Allows (E : Broker T → Broker T → Prop) : Prop extends IsPreorder (Broker T) E where
  calls : ∀ b b', OnlyCalls b b' → E b b'

instance : Allows (T := T) OnlyCalls := ⟨fun _ _ h => h⟩
instance : Allows (T := T) OnlyStore := ⟨fun _ _ h => h.onlyStore⟩
instance : Allows (T := T) OnlyRouter := ⟨fun _ _ h => h.onlyRouter⟩
instance : Allows (T := T) OnlyAccounts := ⟨fun _ _ h => h.onlyAccounts⟩

/-! ## calls and responses -/

section
variable {E : Broker T → Broker T → Prop} [Allows E] (env : Env)

theorem does_allocating {α : Type} (m : Alloc α) : Does E (allocating (T := T) m) := by
  intro b a b' h
  obtain ⟨_, rfl⟩ := allocating_some h
  exact Allows.calls b _ ⟨_, rfl⟩

theorem does_call (c : Call) : Does E (call (T := T) env c) := does_allocating _

theorem does_errorResponse (request : Json) (err : Err) :
    Does E (errorResponse (T := T) env request err) :=
  Does.bind (does_allocating _) fun _ => Does.pure _

theorem does_failureResponse (request : Json) (err : Option Err) :
    Does E (failureResponse (T := T) env request err) := by
  cases err with
  | none => exact Does.pure _
  | some err => exact does_errorResponse env request err

theorem does_successResponse (request : Json) :
    Does E (successResponse (T := T) env request) :=
  Does.bind (does_allocating _) fun _ => Does.pure _

end

/-! ## sending -/

section
variable (env : Env)

theorem does_sendMessage_notification (p f e : Addr) (msg : Json) :
    Does OnlyStore (sendMessage (T := T) env p (.notification f e) msg) := by
  intro b ok b' h
  obtain ⟨hp, _, rfl⟩ := sendMessage_some h
  exact ⟨rfl, rfl, rfl, rfl, [⟨p, .notification f e, msg, ok⟩], rfl, by simp [About.isNotification, hp]⟩

theorem does_sendMessage {about : About} (ha : about.isNotification = false) (p : Addr) (msg : Json) :
    Does OnlyRouter (sendMessage (T := T) env p about msg) := by
  intro b ok b' h
  obtain ⟨hp, _, rfl⟩ := sendMessage_some h
  exact ⟨rfl, rfl, rfl, [⟨p, about, msg, ok⟩], rfl, by simp [ha, hp]⟩

end

/-! ## the store -/

section
variable (env : Env)

theorem does_notifyFetchingPeer (e f : Addr) (eventName : String) :
    Does OnlyStore (notifyFetchingPeer (T := T) env e f eventName) := by
  unfold notifyFetchingPeer
  refine Does.bind (Does.deref _) fun el => Does.bind (Does.deref _) fun ft =>
    Does.bind (does_allocating _) fun msg => ?_
  cases msg with
  | none => exact Does.pure _
  | some root =>
    refine Does.bind (does_allocating _) fun text => ?_
    cases text with
    | none => exact Does.pure _
    | some rendered => exact does_sendMessage_notification env _ _ _ _

theorem does_notifyFetchers (e : Addr) (eventName : String) :
    Does OnlyStore (notifyFetchers (T := T) env e eventName) :=
  Does.bind (Does.deref _) fun el =>
    Does.tryAll _ fun f _ => does_notifyFetchingPeer env e f eventName

theorem does_setElement (e : Addr) (el : Element) : Does OnlyStore (setElement (T := T) e el) :=
  Does.update fun b => ⟨rfl, rfl, rfl, rfl, [], (List.append_nil _).symm, by simp⟩

theorem does_addFetchToStateAndNotify (e f : Addr) :
    Does OnlyStore (addFetchToStateAndNotify (T := T) env e f) := by
  unfold addFetchToStateAndNotify
  refine Does.bind (Does.deref _) fun el => Does.bind (Does.deref _) fun ft =>
    Does.bind (Does.read _) fun access => Does.ite (fun _ => Does.pure _) fun _ =>
    Does.bind (Does.deref _) fun isMatch => Does.ite (fun _ => ?_) fun _ => Does.pure _
  refine Does.bind (does_allocating _) fun table => ?_
  cases table with
  | none => exact Does.pure _
  | some table =>
    exact Does.bind (does_setElement _ _) fun _ => does_notifyFetchingPeer env e f "add"

theorem does_addFetchToStates (request : Json) (f : Addr) :
    Does OnlyStore (addFetchToStates (T := T) env request f) := by
  refine Does.bind (Does.read _) fun peers => Does.bind (Does.tryAll _ fun p _ => ?_) fun ok =>
    Does.ite (fun _ => does_successResponse env _) fun _ => does_errorResponse env _ _
  exact Does.bind (Does.read _) fun es =>
    Does.tryAll _ fun e _ => does_addFetchToStateAndNotify env e f

theorem does_findFetchersForElement (e : Addr) :
    Does OnlyStore (findFetchersForElement (T := T) env e) := by
  refine Does.bind (Does.read _) fun peers => Does.tryAll _ fun p _ => ?_
  exact Does.bind (Does.read _) fun fs =>
    Does.tryAll _ fun f _ => does_addFetchToStateAndNotify env e f

theorem does_removeFetchFromStates (f : Addr) : Does OnlyStore (removeFetchFromStates (T := T) f) := by
  refine Does.bind (Does.read _) fun peers => Does.each _ fun p _ => ?_
  refine Does.bind (Does.read _) fun es => Does.each _ fun e _ => ?_
  exact Does.bind (Does.deref _) fun el => does_setElement _ _

theorem does_deleteFetch (p f : Addr) : Does OnlyStore (deleteFetch (T := T) p f) :=
  Does.update fun b => ⟨rfl, rfl, rfl, rfl, [], (List.append_nil _).symm, by simp⟩

theorem does_addFetchToPeer (p : Addr) (request : Json) :
    Does OnlyStore (addFetchToPeer (T := T) env p request) := by
  refine Does.bind (Does.read _) fun b => ?_
  cases checkFetch b p request with
  | error err => exact Does.pure _
  | ok r =>
    refine Does.bind (does_allocating _) fun ft => ?_
    cases ft with
    | error err => exact Does.pure _
    | ok ft =>
      exact Does.bind (Does.update fun b => ⟨rfl, rfl, rfl, rfl, [], (List.append_nil _).symm, by simp⟩)
        fun _ => Does.pure _

theorem does_processFetch (p : Addr) (request : Json) :
    Does OnlyStore (processFetch (T := T) env p request) := by
  refine Does.bind (does_addFetchToPeer env p request) fun r => ?_
  cases r with
  | error err => exact does_errorResponse env _ _
  | ok f => exact does_addFetchToStates env request f

theorem does_removeFetch (p f : Addr) : Does OnlyStore (removeFetch (T := T) p f) :=
  Does.bind (does_removeFetchFromStates f) fun _ => does_deleteFetch p f

theorem does_removeFetchFromPeer (p : Addr) (request : Json) :
    Does OnlyStore (removeFetchFromPeer (T := T) env p request) := by
  refine Does.bind (Does.read _) fun b => ?_
  cases checkUnfetch b p request with
  | error err => exact does_errorResponse env _ _
  | ok f =>
    exact Does.bind (does_removeFetchFromStates f) fun _ => Does.bind (does_deleteFetch p f) fun _ =>
      does_successResponse env _

theorem does_removeAllFetchersFromPeer (p : Addr) :
    Does OnlyStore (removeAllFetchersFromPeer (T := T) p) :=
  Does.bind (Does.read _) fun fs => Does.each _ fun f _ => does_removeFetch p f

end

/-! ## get -/

section
variable (env : Env)

theorem does_getElement (ft : Fetch) (states : List Json) (e : Addr) :
    Does OnlyCalls (getElement (T := T) env ft states e) := by
  refine Does.bind (Does.deref _) fun el => Does.bind (Does.read _) fun access =>
    Does.ite (fun _ => Does.pure _) fun _ => Does.bind (Does.deref _) fun isMatch =>
    Does.ite (fun _ => ?_) fun _ => Does.pure _
  cases el.value with
  | none => exact Does.pure _
  | some v =>
    refine Does.bind (does_allocating _) fun r => ?_
    cases r with
    | error err => exact Does.pure _
    | ok root => exact Does.pure _

theorem does_getElementsInPeer (ft : Fetch) (states : List Json) (es : List Addr) :
    Does OnlyCalls (getElementsInPeer (T := T) env ft states es) := by
  induction es generalizing states with
  | nil => exact Does.pure _
  | cons e es ih =>
    refine Does.bind (does_getElement env ft states e) fun r => ?_
    cases r with
    | error err => exact Does.pure _
    | ok states => exact ih states

theorem does_getElementsInPeers (ft : Fetch) (states : List Json) (ps : List Addr) :
    Does OnlyCalls (getElementsInPeers (T := T) env ft states ps) := by
  induction ps generalizing states with
  | nil => exact Does.pure _
  | cons p ps ih =>
    refine Does.bind (Does.read _) fun es => Does.bind (does_getElementsInPeer env ft states es) fun r => ?_
    cases r with
    | error err => exact Does.pure _
    | ok states => exact ih states

theorem does_getElements (p : Addr) (request : Json) :
    Does OnlyCalls (getElements (T := T) env p request) := by
  unfold getElements
  cases getParams request with
  | error err => exact does_errorResponse env _ _
  | ok params =>
    refine Does.bind (does_allocating _) fun r => ?_
    cases r with
    | error err => exact does_errorResponse env _ _
    | ok ft =>
      refine Does.bind (does_allocating _) fun array => Does.bind (Does.read _) fun peers =>
        Does.bind (does_getElementsInPeers env ft [] peers) fun r => ?_
      cases r with
      | error err => exact does_errorResponse env _ _
      | ok states => exact Does.bind (does_allocating _) fun _ => Does.pure _

end

/-! ## elements -/

section
variable (env : Env)

theorem does_freeElement (e : Addr) : Does OnlyStore (freeElement (T := T) e) :=
  Does.update fun b => ⟨rfl, rfl, rfl, rfl, [], (List.append_nil _).symm, by simp⟩

theorem does_newElement (el : Element) : Does OnlyStore (newElement (T := T) el) :=
  Does.bind (Does.read _) fun _ => Does.bind
    (Does.update fun b => ⟨rfl, rfl, rfl, rfl, [], (List.append_nil _).symm, by simp⟩) fun _ => Does.pure _

theorem does_replaceValue (request : Json) (e : Addr) (el : Element) (path : String) (value : Json) :
    Does OnlyStore (replaceValue (T := T) env request e el path value) := by
  refine Does.bind (does_allocating _) fun copy => ?_
  cases copy with
  | none => exact does_errorResponse env _ _
  | some v =>
    exact Does.bind (does_setElement _ _) fun _ => Does.bind (does_notifyFetchers env e "change") fun ok =>
      Does.ite (fun _ => does_successResponse env _) fun _ => does_errorResponse env _ _

variable [HashTable T]

theorem does_elementTableGet {E : Broker T → Broker T → Prop} [Allows E] (path : String) :
    Does E (elementTableGet (T := T) path) := Does.read _

theorem does_initElement {E : Broker T → Broker T → Prop} [Allows E] (p : Addr) (request : Json) :
    Does E (initElement (T := T) env p request) := by
  refine Does.bind (Does.read _) fun b => ?_
  cases checkAdd env b p request with
  | error err => exact Does.pure _
  | ok r =>
    refine Does.bind (does_allocating _) fun parts => ?_
    cases parts with
    | error err => exact Does.pure _
    | ok u =>
      dsimp only
      cases fillAccess b.allGroups r.2 r.1 with
      | error err => exact Does.bind (does_errorResponse env _ _) fun _ => Does.pure _
      | ok e => exact Does.pure _

theorem does_elementTablePut (path : String) (e : Addr) :
    Does OnlyStore (elementTablePut (T := T) path e) := by
  intro b ok b' h
  cases h
  exact ⟨rfl, rfl, rfl, rfl, [], (List.append_nil _).symm, by simp⟩

theorem does_publishElement (p : Addr) (request : Json) (el : Element) (e : Addr) :
    Does OnlyStore (publishElement (T := T) env p request el e) := by
  refine Does.bind (does_findFetchersForElement env e) fun ok => Does.ite (fun _ => ?_) fun _ => ?_
  · refine Does.bind (does_elementTablePut _ _) fun ok => Does.ite (fun _ => ?_) fun _ => ?_
    · exact Does.bind (Does.update fun b => ⟨rfl, rfl, rfl, rfl, [], (List.append_nil _).symm, by simp⟩)
        fun _ => does_successResponse env _
    · exact Does.bind (does_freeElement e) fun _ => does_errorResponse env _ _
  · exact Does.bind (does_freeElement e) fun _ => does_errorResponse env _ _

theorem does_addElementToPeer (p : Addr) (request : Json) :
    Does OnlyStore (addElementToPeer (T := T) env p request) := by
  refine Does.bind (Does.read _) fun b => Does.ite (fun _ => does_errorResponse env _ _) fun _ =>
    Does.bind (does_call env _) fun ok => Does.ite (fun _ => ?_) fun _ => does_errorResponse env _ _
  refine Does.bind (does_initElement env p request) fun r => ?_
  cases r with
  | error err => exact does_failureResponse env _ _
  | ok el => exact Does.bind (does_newElement el) fun e => does_publishElement env p request el e

theorem does_changeState (p : Addr) (request : Json) :
    Does OnlyStore (changeState (T := T) env p request) := by
  unfold changeState
  cases getPathAndValue request with
  | error err => exact does_errorResponse env _ _
  | ok pv =>
    refine Does.bind (does_elementTableGet _) fun r => ?_
    cases r with
    | none => exact does_errorResponse env _ _
    | some e =>
      refine Does.bind (Does.deref _) fun el => ?_
      cases checkChange p el pv.1 with
      | error err => exact does_errorResponse env _ _
      | ok u => exact does_replaceValue env request e el _ _

theorem does_unlinkElement (e : Addr) : Does OnlyStore (unlinkElement (T := T) e) :=
  Does.bind (Does.deref _) fun el =>
    Does.bind (Does.update fun b => ⟨rfl, rfl, rfl, rfl, [], (List.append_nil _).symm, by simp⟩) fun _ =>
    Does.bind (Does.update fun b => ⟨rfl, rfl, rfl, rfl, [], (List.append_nil _).symm, by simp⟩) fun _ =>
    does_freeElement e

theorem does_removeElement (e : Addr) : Does OnlyStore (removeElement (T := T) env e) :=
  Does.bind (does_notifyFetchers env e "remove") fun _ => does_unlinkElement e

theorem does_removeElementFromPeer (p : Addr) (request : Json) :
    Does OnlyStore (removeElementFromPeer (T := T) env p request) := by
  unfold removeElementFromPeer
  cases getParamsAndPath request with
  | error err => exact does_errorResponse env _ _
  | ok r =>
    refine Does.bind (Does.read _) fun e => ?_
    cases e with
    | none => exact does_errorResponse env _ _
    | some e => exact Does.bind (does_removeElement env e) fun _ => does_successResponse env _

theorem does_removeAllElementsFromPeer (p : Addr) :
    Does OnlyStore (removeAllElementsFromPeer (T := T) env p) :=
  Does.bind (Does.read _) fun es => Does.each _ fun e _ => does_removeElement env e

end

/-! ## routed requests -/

section
variable (env : Env)

theorem does_allocRoutingRequest (p o : Addr) (id : Option Json) :
    Does OnlyRouter (allocRoutingRequest (T := T) env p o id) := by
  refine Does.bind (Does.read _) fun b => Does.bind (does_call env _) fun ok =>
    Does.ite (fun _ => ?_) fun _ => Does.pure _
  refine Does.bind (does_allocating _) fun copy => ?_
  cases copy with
  | none => exact Does.pure _
  | some copy =>
    exact Does.bind (Does.update fun b => ⟨rfl, rfl, rfl, [], (List.append_nil _).symm, by simp⟩)
      fun _ => Does.pure _

theorem does_cjetTimerInit (r : Addr) : Does OnlyRouter (cjetTimerInit (T := T) env r) := by
  refine Does.bind (does_call env _) fun ok => Does.ite (fun _ => ?_) fun _ => Does.pure _
  refine Does.bind (does_call env _) fun ok => Does.ite (fun _ => ?_) fun _ => Does.pure _
  exact Does.bind (Does.update fun b => ⟨rfl, rfl, rfl, [], (List.append_nil _).symm, by simp⟩)
    fun _ => Does.pure _

theorem does_timerStart (r : Addr) : Does OnlyRouter (timerStart (T := T) env r) := by
  refine Does.bind (does_call env _) fun ok => Does.bind (Does.update fun b => ?_) fun _ => Does.pure _
  cases ok <;> exact ⟨rfl, rfl, rfl, [], (List.append_nil _).symm, by simp⟩

theorem does_timerCancel (r : Addr) : Does OnlyRouter (timerCancel (T := T) env r) := by
  refine Does.bind (does_call env _) fun ok => Does.bind (Does.update fun b => ?_) fun _ => Does.pure _
  cases ok <;> exact ⟨rfl, rfl, rfl, [], (List.append_nil _).symm, by simp⟩

theorem does_cjetTimerDestroy (r : Addr) : Does OnlyRouter (cjetTimerDestroy (T := T) r) :=
  Does.update fun b => ⟨rfl, rfl, rfl, [], (List.append_nil _).symm, by simp⟩

theorem does_freeRequest (r : Addr) : Does OnlyRouter (freeRequest (T := T) r) :=
  Does.update fun b => ⟨rfl, rfl, rfl, [], (List.append_nil _).symm, by simp⟩

theorem does_formatAndSendResponse {about : About} (ha : about.isNotification = false) (p : Addr)
    (response : Json) : Does OnlyRouter (formatAndSendResponse (T := T) env p about response) := by
  refine Does.bind (does_allocating _) fun text => ?_
  cases text with
  | none => exact Does.pure _
  | some rendered => exact does_sendMessage env ha p rendered

theorem does_answerWithError {about : About} (ha : about.isNotification = false) (p : Addr)
    (id : Option Json) (reason : String) :
    Does OnlyRouter (answerWithError (T := T) env p about id reason) := by
  cases id with
  | none => exact Does.pure _
  | some id =>
    refine Does.bind (does_allocating _) fun response => ?_
    cases response with
    | none => exact Does.pure _
    | some response =>
      exact Does.bind (does_formatAndSendResponse env ha p response) fun _ => Does.pure _

theorem does_failRouting (request : Json) (r : Addr) (err : Err) :
    Does OnlyRouter (failRouting (T := T) env request r err) :=
  Does.bind (does_errorResponse env _ _) fun _ => Does.bind (does_freeRequest r) fun _ => Does.pure _

theorem does_sendRoutedMessage (e : Element) (request : Json) (r : Addr) (msg : Json) :
    Does OnlyRouter (sendRoutedMessage (T := T) env e request r msg) := by
  refine Does.bind (does_allocating _) fun text => ?_
  cases text with
  | none => exact does_failRouting env _ _ _
  | some rendered =>
    exact Does.bind (does_sendMessage env rfl _ _) fun ok =>
      Does.ite (fun _ => Does.pure _) fun _ => does_errorResponse env _ _

theorem does_forwardResponse (q : RoutingRequest) (response : Json) (resultType : String) :
    Does OnlyRouter (forwardResponse (T := T) env q response resultType) := by
  unfold forwardResponse
  cases q.originRequestId with
  | none => exact Does.pure _
  | some id =>
    refine Does.bind (does_allocating _) fun copy => ?_
    cases copy with
    | none => exact Does.pure _
    | some copy =>
      refine Does.bind (does_allocating _) fun res => ?_
      cases res with
      | none => exact Does.undefined
      | some res =>
        exact Does.bind (does_formatAndSendResponse env rfl _ _) fun _ => Does.pure _

theorem does_clearRoutingEntry (r : Addr) : Does OnlyRouter (clearRoutingEntry (T := T) env r) :=
  Does.bind (Does.deref _) fun q => Does.bind (does_timerCancel env r) fun _ =>
    Does.bind (does_answerWithError env rfl _ _ _) fun _ => does_freeRequest r

variable [HashTable T]

theorem does_routeTablePut (p : Addr) (id : String) (r : Addr) :
    Does OnlyRouter (routeTablePut (T := T) p id r) := by
  intro b ok b' h
  cases h
  exact ⟨rfl, rfl, rfl, [], (List.append_nil _).symm, by simp⟩

theorem does_routeTableRemove (p : Addr) (id : String) :
    Does OnlyRouter (routeTableRemove (T := T) p id) := by
  intro b r b' h
  cases h
  exact ⟨rfl, rfl, rfl, [], (List.append_nil _).symm, by simp⟩

theorem does_requestTimeoutHandler (r : Addr) :
    Does OnlyRouter (requestTimeoutHandler (T := T) env r) :=
  Does.bind (Does.deref _) fun q => Does.bind (Does.require _) fun _ =>
    Does.bind (does_routeTableRemove _ _) fun _ => Does.bind (does_answerWithError env rfl _ _ _) fun _ =>
    Does.bind (does_cjetTimerDestroy r) fun _ => does_freeRequest r

theorem does_setupRoutingInformation (e : Element) (request : Json) (timeout : Option Json) (r : Addr)
    (id : String) : Does OnlyRouter (setupRoutingInformation (T := T) env e request timeout r id) := by
  unfold setupRoutingInformation
  cases getTimeoutInNsec env.toPlatform timeout e.timeoutNsec with
  | error err => exact Does.bind (does_failureResponse env _ _) fun _ => Does.pure _
  | ok n =>
    refine Does.bind (does_cjetTimerInit env r) fun ok => Does.ite (fun _ => ?_) fun _ =>
      Does.bind (does_errorResponse env _ _) fun _ => Does.pure _
    refine Does.bind (does_routeTablePut _ _ _) fun ok => Does.ite (fun _ => ?_) fun _ =>
      Does.bind (does_errorResponse env _ _) fun _ => Does.pure _
    refine Does.bind (does_timerStart env r) fun ok => Does.ite (fun _ => Does.pure _) fun _ => ?_
    exact Does.bind (does_routeTableRemove _ _) fun _ =>
      Does.bind (does_errorResponse env _ _) fun _ => Does.pure _

theorem does_routeRequest (e : Element) (request params : Json) (path : String) (what : ElementType)
    (r : Addr) : Does OnlyRouter (routeRequest (T := T) env e request params path what r) := by
  unfold routeRequest
  refine Does.bind (Does.deref _) fun q => ?_
  cases valueToRoute params what with
  | error err => exact does_failRouting env _ _ _
  | ok value =>
    refine Does.bind (does_allocating _) fun msg => ?_
    cases msg with
    | none => exact does_failRouting env _ _ _
    | some msg =>
      refine Does.bind (does_setupRoutingInformation env e request _ r _) fun res => ?_
      cases res with
      | some response => exact Does.bind (does_freeRequest r) fun _ => Does.pure _
      | none => exact does_sendRoutedMessage env e request r msg

theorem does_setOrCall (p : Addr) (request : Json) (what : ElementType) :
    Does OnlyRouter (setOrCall (T := T) env p request what) := by
  unfold setOrCall
  cases getParamsAndPath request with
  | error err => exact does_errorResponse env _ _
  | ok pp =>
    refine Does.bind (does_elementTableGet _) fun e => ?_
    cases e with
    | none => exact does_errorResponse env _ _
    | some e =>
      refine Does.bind (Does.deref _) fun el => Does.bind (Does.read _) fun b => ?_
      cases checkSetOrCall b p el what pp.2 request with
      | error err => exact does_errorResponse env _ _
      | ok id =>
        refine Does.bind (does_allocRoutingRequest env p el.peer id) fun r => ?_
        cases r with
        | none => exact does_errorResponse env _ _
        | some r => exact does_routeRequest env el request pp.1 pp.2 what r

theorem does_handleRoutingResponse (jsonRpc response : Json) (resultType : String) (p : Addr) :
    Does OnlyRouter (handleRoutingResponse (T := T) env jsonRpc response resultType p) := by
  unfold handleRoutingResponse
  split
  · refine Does.bind (does_routeTableRemove _ _) fun r => ?_
    cases r with
    | none => exact Does.pure _
    | some r =>
      exact Does.bind (Does.deref _) fun q => Does.bind (does_timerCancel env r) fun _ =>
        Does.bind (does_cjetTimerDestroy r) fun _ => Does.bind (does_forwardResponse env q _ _) fun _ =>
        Does.bind (does_freeRequest r) fun _ => Does.pure _
  · exact Does.pure _

theorem does_removePeerFromSlot (p x : Addr) (i : Nat) :
    Does OnlyRouter (removePeerFromSlot (T := T) env p x i) := by
  refine Does.bind (Does.read _) fun k => ?_
  cases k with
  | none => exact Does.pure _
  | some k =>
    refine Does.bind (does_routeTableRemove _ _) fun r => ?_
    cases r with
    | none => exact Does.pure _
    | some r =>
      exact Does.bind (Does.deref _) fun q =>
        Does.ite (fun _ => does_clearRoutingEntry env r) fun _ => Does.pure _

theorem does_removePeerFromRoutes (x : Addr) :
    Does OnlyRouter (removePeerFromRoutes (T := T) env x) := by
  refine Does.bind (Does.read _) fun ps => Does.each _ fun p _ => ?_
  exact Does.bind (Does.read _) fun n => Does.each _ fun i _ => does_removePeerFromSlot env p x i

theorem does_removeRoutingInfoFromPeer (p : Addr) :
    Does OnlyRouter (removeRoutingInfoFromPeer (T := T) env p) := by
  refine Does.bind (Does.read _) fun n => Does.each _ fun i _ => Does.bind (Does.read _) fun k => ?_
  cases k with
  | none => exact Does.pure _
  | some k =>
    refine Does.bind (does_routeTableRemove _ _) fun r => ?_
    cases r with
    | none => exact Does.pure _
    | some r => exact does_clearRoutingEntry env r

/-- the parts of `free_peer_resources` -/
theorem freePeerResources_phases {env : Env} {p : Addr} {b b' : Broker T} {u : Unit}
    (h : freePeerResources env p b = some (u, b')) :
    ∃ b1 b2 b3 b4, removeRoutingInfoFromPeer env p b = some ((), b1) ∧
      removePeerFromRoutes env p b1 = some ((), b2) ∧ removeAllFetchersFromPeer p b2 = some ((), b3) ∧
      removeAllElementsFromPeer env p b3 = some ((), b4) ∧ b' = { b4 with
        routingTable := Function.update b4.routingTable p (HashTable.create env.config.routingTableOrder)
        peerList := b4.peerList.erase p
        name := Function.update b4.name p none, userName := Function.update b4.userName p none } := by
  obtain ⟨_, b1, h1, h⟩ := Prog.bind_some h
  obtain ⟨_, b2, h2, h⟩ := Prog.bind_some h
  obtain ⟨_, b3, h3, h⟩ := Prog.bind_some h
  obtain ⟨_, b4, h4, h⟩ := Prog.bind_some h
  obtain ⟨_, b5, h5, h⟩ := Prog.bind_some h
  obtain rfl := Prog.update_some h5
  exact ⟨b1, b2, b3, b4, h1, h2, h3, h4, Prog.update_some h⟩

theorem received_freePeerResources {env : Env} {p : Addr} {b b' : Broker T} {u : Unit}
    (h : freePeerResources env p b = some (u, b')) : b'.received = b.received := by
  obtain ⟨b1, b2, b3, b4, h1, h2, h3, h4, rfl⟩ := freePeerResources_phases h
  exact (does_removeAllElementsFromPeer env p _ _ _ h4).received.trans
    ((does_removeAllFetchersFromPeer p _ _ _ h3).received.trans
      ((does_removePeerFromRoutes env p _ _ _ h2).received.trans
        (does_removeRoutingInfoFromPeer env p _ _ _ h1).received))

end

/-! ## accounts -/

section
variable (env : Env)

theorem does_configPeer (p : Addr) (request : Json) :
    Does OnlyAccounts (configPeer (T := T) env p request) := by
  unfold configPeer
  cases getParams request >>= getName with
  | error err => exact does_errorResponse env _ _
  | ok name =>
    cases name with
    | none => exact does_successResponse env _
    | some name =>
      refine Does.bind (Does.bind (does_allocating _) fun copy => Does.update fun b => ?_) fun _ =>
        does_successResponse env _
      exact ⟨rfl, rfl, rfl, rfl, rfl, rfl⟩

theorem does_handleInfo (request : Json) : Does OnlyCalls (handleInfo (T := T) env request) :=
  Does.bind (does_allocating _) fun _ => Does.bind (does_allocating _) fun _ => Does.pure _

theorem does_handleAuthentication (p : Addr) (request : Json) :
    Does OnlyAccounts (handleAuthentication (T := T) env p request) := by
  refine Does.bind (Does.read _) fun b => ?_
  cases checkAuthenticate env b p request with
  | error err => exact does_errorResponse env _ _
  | ok r =>
    refine Does.bind (Does.update fun b => ⟨rfl, rfl, rfl, rfl, rfl, rfl⟩) fun _ =>
      Does.bind (does_allocating _) fun name =>
      Does.bind (Does.update fun b => ⟨rfl, rfl, rfl, rfl, rfl, rfl⟩) fun _ => ?_
    cases name with
    | none => exact does_errorResponse env _ _
    | some name => exact does_successResponse env _

theorem does_writeUserData : Does OnlyAccounts (writeUserData (T := T) env) := by
  refine Does.bind (does_call env _) fun ok => Does.ite (fun _ => ?_) fun _ => Does.pure _
  refine Does.bind (Does.update fun b => ⟨rfl, rfl, rfl, rfl, rfl, rfl⟩) fun _ =>
    Does.bind (Does.read _) fun b => ?_
  cases b.userData with
  | none => exact Does.pure _
  | some d =>
    refine Does.bind (does_call env _) fun ok => Does.ite (fun _ => ?_) fun _ => Does.pure _
    exact Does.bind (Does.update fun b => ⟨rfl, rfl, rfl, rfl, rfl, rfl⟩) fun _ => Does.pure _

theorem does_replacePassword (userName encrypted : String) :
    Does OnlyAccounts (replacePassword (T := T) env userName encrypted) := by
  refine Does.bind (does_allocating _) fun password => ?_
  cases password with
  | none => exact Does.pure _
  | some password =>
    exact Does.bind (does_call env _) fun ok => Does.update fun b => ⟨rfl, rfl, rfl, rfl, rfl, rfl⟩

theorem does_handleChangePassword (p : Addr) (request : Json) :
    Does OnlyAccounts (handleChangePassword (T := T) env p request) := by
  unfold handleChangePassword
  cases getUserAndPassword request with
  | error err => exact does_errorResponse env _ _
  | ok up =>
    refine Does.bind (Does.read _) fun b => ?_
    cases checkChangePassword b p up.1 with
    | error err => exact does_errorResponse env _ _
    | ok password =>
      refine Does.bind (Does.deref _) fun m => ?_
      cases m with
      | none => exact does_errorResponse env _ _
      | some m =>
        dsimp only
        cases env.crypt up.2 (saltOf env.random m) with
        | none => exact does_errorResponse env _ _
        | some encrypted =>
          refine Does.bind (does_replacePassword env _ _) fun _ =>
            Does.bind (does_writeUserData env) fun ok =>
            Does.ite (fun _ => does_successResponse env _) fun _ => does_errorResponse env _ _

end

end

end Cjet
