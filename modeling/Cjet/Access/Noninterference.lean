import Cjet.Access.Routing
import Cjet.Step

/-!
# Values stay with the peers that have access

Two runs that differ at most in the values that add and change requests carry for one path send
the same messages to every peer without access to the element with that path.

* `SameInput`      the same event, or the same add or change with another value;
* `NoAccess`       the peer has no access to the element, nor to one that is about to be added;
* `noninterference`   the statement about runs.
-/

set_option linter.unusedVariables false
set_option linter.unusedSectionVars false

namespace Cjet
open Stateful Alloc

/-! ## inputs -/

/-- the request with the value `v` in its parameters, if it carries a value -/
def Json.withValue (request v : Json) : Json :=
  request.modifyItem "params" fun params => params.modifyItem "value" fun _ => v

/-- the same event, or the same add or change for the path `hidden` with another value -/
inductive SameEvent (hidden : String) : Event → Event → Prop
  | same (e : Event) : SameEvent hidden e e
  | value (q : Addr) (request params v : Json) (hm : request.HasMethod "add" ∨ request.HasMethod "change")
      (hp : getParamsAndPath request = .ok (params, hidden)) :
      SameEvent hidden (.rpc q request) (.rpc q (request.withValue v))

structure SameInput (hidden : String) (i i' : Input) : Prop where
  outcomes : i'.outcomes = i.outcomes
  event : SameEvent hidden i.event i'.event

theorem getObjectItem_other {name name' : String} (h : sameKey name name' = false) (j : Json) (f : Json → Json) :
    (j.modifyItem name f).getObjectItem name' = j.getObjectItem name' := by
  rw [getObjectItem_modifyItem, h]
  rfl

theorem getObjectItem_same (name : String) (j : Json) (f : Json → Json) :
    (j.modifyItem name f).getObjectItem name = (j.getObjectItem name).map f := by
  rw [getObjectItem_modifyItem, if_pos (sameKey_refl name)]

theorem sameButValue_withValue {hidden : String} {request params : Json}
    (hp : getParamsAndPath request = .ok (params, hidden)) (v : Json) :
    SameButValue hidden request (request.withValue v) := by
  obtain ⟨hparams, hpath⟩ : request.getObjectItem "params" = some params ∧ getPathFromParams params = .ok hidden := by
    unfold getParamsAndPath getParams at hp
    cases hg : request.getObjectItem "params" with
    | none => rw [hg] at hp; cases hp
    | some params' =>
      rw [hg] at hp
      have hp : (getPathFromParams params' >>= fun path => pure (params', path)) = .ok (params, hidden) := hp
      cases hpath : getPathFromParams params' with
      | error err => rw [hpath] at hp; cases hp
      | ok path =>
        rw [hpath] at hp
        cases hp
        exact ⟨rfl, hpath⟩
  refine ⟨fun name h => getObjectItem_other (by rwa [sameKey_comm]) request _, ?_⟩
  unfold Json.withValue
  rw [getObjectItem_same, hparams]
  refine .some ⟨fun name h => getObjectItem_other (by rwa [sameKey_comm]) params _, ?_⟩
  rw [getObjectItem_same]
  cases params.getObjectItem "value" with
  | none => exact .none
  | some old => exact .some (Or.inr hpath)

theorem hasMethod_withValue {request : Json} {method : String} (h : request.HasMethod method) (v : Json) :
    (request.withValue v).HasMethod method :=
  (getObjectItem_other (by decide) request _).trans h

/-! ## the handlers of requests -/

section
variable {T : Type} [HashTable T] {hidden : String} {p : Addr} {env : Env}

/-- the relation of two runs between two events -/
abbrev Alongside (hidden : String) (p : Addr) : Broker T → Broker T → Prop := Locked hidden p (Strangers hidden p)

theorem sim_setPeerName (q : Addr) (name : String) :
    Sim (Alongside (T := T) hidden p) Eq (setPeerName env q name) (setPeerName env q name) := by
  refine Sim.bind (sim_same _) fun copy _ e1 => ?_
  subst e1
  exact sim_routerUpdate (fun _ _ _ => rfl) (fun _ => rfl) (fun _ => rfl) (fun _ => rfl) fun _ => rfl

theorem sim_configPeer (q : Addr) (request : Json) :
    Sim (Alongside (T := T) hidden p) Eq (configPeer env q request) (configPeer env q request) := by
  unfold configPeer
  cases getParams request >>= getName with
  | error err => exact sim_errorResponse rfl err
  | ok name =>
    cases name with
    | none => exact sim_successResponse rfl
    | some name => exact Sim.bind (sim_setPeerName q name) fun _ _ _ => sim_successResponse rfl

theorem sim_handleInfo (request : Json) :
    Sim (Alongside (T := T) hidden p) Eq (handleInfo env request) (handleInfo env request) := by
  refine Sim.bind (sim_same _) fun info _ e1 => ?_
  subst e1
  exact Sim.bind (sim_same _) fun json _ e1 => Sim.pure (by rw [e1])

/-- the groups of a peer change; no table of an element does -/
theorem sim_setGroupsOf (q : Addr) (auth : Json) :
    Sim (Alongside (T := T) hidden p) Eq (setGroupsOf q auth) (setGroupsOf q auth) := by
  refine Sim.update fun s t h => Plain.locked (f := fun b : Broker T =>
    { b with
      fetchGroups := Function.update b.fetchGroups q (getGroups b.allGroups (auth.getObjectItem "fetchGroups"))
      setGroups := Function.update b.setGroups q (getGroups b.allGroups (auth.getObjectItem "setGroups"))
      callGroups := Function.update b.callGroups q (getGroups b.allGroups (auth.getObjectItem "callGroups")) })
    ⟨fun _ _ _ => rfl, fun _ => rfl, fun _ => rfl⟩ h ⟨h.guard.strangers⟩

theorem sim_handleAuthentication (q : Addr) (request : Json) : Sim (Alongside (T := T) hidden p) Eq
    (handleAuthentication env q request) (handleAuthentication env q request) := by
  unfold handleAuthentication
  refine Sim.bind (Sim.read (V := fun b b' => checkAuthenticate env b' q request = checkAuthenticate env b q request)
    fun s t h => h.same (f := fun b => checkAuthenticate env b q request) fun _ _ _ => rfl) fun b b' e1 => ?_
  rw [e1]
  cases checkAuthenticate env b q request with
  | error err => exact sim_errorResponse rfl err
  | ok r =>
    refine Sim.bind (sim_setGroupsOf q r.2) fun _ _ _ => ?_
    refine Sim.bind (sim_same _) fun userName _ e1 => ?_
    subst e1
    refine Sim.bind (sim_routerUpdate (fun _ _ _ => rfl) (fun _ => rfl) (fun _ => rfl) (fun _ => rfl) fun _ => rfl)
      fun _ _ _ => ?_
    cases userName with
    | none => exact sim_errorResponse rfl _
    | some name => exact sim_successResponse rfl

theorem sim_writeUserData :
    Sim (Alongside (T := T) hidden p) Eq (writeUserData env) (writeUserData env) := by
  refine Sim.bind (sim_call env _) fun ok _ e1 => ?_
  subst e1
  refine Sim.ite Iff.rfl (fun _ => ?_) fun _ => Sim.pure rfl
  refine Sim.bind (sim_routerUpdate (fun _ _ _ => rfl) (fun _ => rfl) (fun _ => rfl) (fun _ => rfl) fun _ => rfl)
    fun _ _ _ => ?_
  refine Sim.bind (Sim.read (V := fun b b' => b'.userData = b.userData)
    fun s t h => h.same (f := fun b => b.userData) fun _ _ _ => rfl) fun b b' e1 => ?_
  rw [e1]
  cases b.userData with
  | none => exact Sim.pure rfl
  | some userData =>
    refine Sim.bind (sim_call env _) fun ok _ e1 => ?_
    subst e1
    refine Sim.ite Iff.rfl (fun _ => ?_) fun _ => Sim.pure rfl
    exact Sim.bind (sim_routerUpdate (fun _ _ _ => rfl) (fun _ => rfl) (fun _ => rfl) (fun _ => rfl) fun _ => rfl)
      fun _ _ _ => Sim.pure rfl

theorem sim_replacePassword (userName encrypted : String) : Sim (Alongside (T := T) hidden p) Eq
    (replacePassword env userName encrypted) (replacePassword env userName encrypted) := by
  refine Sim.bind (sim_same _) fun password _ e1 => ?_
  subst e1
  cases password with
  | none => exact Sim.pure rfl
  | some password =>
    refine Sim.bind (sim_call env _) fun ok _ e1 => ?_
    subst e1
    exact sim_routerUpdate (fun _ _ _ => rfl) (fun _ => rfl) (fun _ => rfl) (fun _ => rfl) fun _ => rfl

theorem sim_handleChangePassword (q : Addr) (request : Json) : Sim (Alongside (T := T) hidden p) Eq
    (handleChangePassword env q request) (handleChangePassword env q request) := by
  unfold handleChangePassword
  cases getUserAndPassword request with
  | error err => exact sim_errorResponse rfl err
  | ok r =>
    refine Sim.bind (Sim.read (V := fun b b' => checkChangePassword b' q r.1 = checkChangePassword b q r.1)
      fun s t h => h.same (f := fun b => checkChangePassword b q r.1) fun _ _ _ => rfl) fun b b' e1 => ?_
    rw [e1]
    cases checkChangePassword b q r.1 with
    | error err => exact sim_errorResponse rfl err
    | ok password =>
      refine Sim.bind (sim_deref fun _ _ _ => rfl) fun method _ e1 => ?_
      subst e1
      cases method with
      | none => exact sim_errorResponse rfl _
      | some method =>
        dsimp only
        cases env.crypt r.2 (saltOf env.random method) with
        | none => exact sim_errorResponse rfl _
        | some encrypted =>
          refine Sim.bind (sim_replacePassword r.1 encrypted) fun _ _ _ => ?_
          refine Sim.bind sim_writeUserData fun ok _ e1 => ?_
          subst e1
          exact Sim.ite Iff.rfl (fun _ => sim_successResponse rfl) fun _ => sim_errorResponse rfl _

/-! ## one step -/

/-- `p`, if it is connected, shares no fetch group with an element that has the path `hidden`, nor with
one that the event is about to add -/
structure NoAccess (platform : Platform) (hidden : String) (p : Addr) (b : Broker T) (i : Input) : Prop where
  elements : p ∈ b.peerList → ∀ e el, b.elements e = some el → el.path = hidden →
    el.fetchGroups &&& b.fetchGroups p = 0
  added : p ∈ b.peerList → ∀ q request el, i.event = .rpc q request → request.HasMethod "add" →
    AddAccepted (i.env platform) b q request el → el.path = hidden → el.fetchGroups &&& b.fetchGroups p = 0

theorem hasAccess_disjoint {all : Option (List String)} (h : all.isSome = true) {has wants : GroupSet}
    (hd : has &&& wants = 0) : hasAccess all has wants = false := by
  obtain ⟨l, rfl⟩ := Option.isSome_iff_exists.mp h
  unfold hasAccess
  simp only [hd, bne_self_eq_false]

/-- between two events the states are related as the handlers want them -/
theorem Locked.hiding {s t : Broker T} (h : Alongside hidden p s t) (hS : s.toStore.Sound)
    (hg : s.allGroups.isSome = true) (hno : p ∈ s.peerList → ∀ e el, s.elements e = some el → el.path = hidden →
      el.fetchGroups &&& s.fetchGroups p = 0) :
    Hiding hidden p s.allGroups (s.fetchGroups p) (p ∈ s.peerList) s t := by
  refine h.weaken ⟨h.guard, rfl, rfl, fun ha e el hel hp => hasAccess_disjoint hg (hno ha e el hel hp), ?_, ?_⟩
  · intro f ft hft hp
    rw [← hp]
    exact (hS.fetch_peer_mem hft).1
  · exact fun f hf => (hS.unused f hf).2

theorem Locked.alongside {all : Option (List String)} {groups : GroupSet} {active : Prop} {s t : Broker T}
    (h : Hiding hidden p all groups active s t) : Alongside hidden p s t := h.weaken h.guard.toStrangers

/-- the same request is handled alike -/
theorem simAt_handleMethod (hsend : env.SendOk) {s t : Broker T} {q : Addr} (hq : q ∈ s.peerList) {request : Json}
    {methodName : String} (hl : Alongside hidden p s t) {all : Option (List String)} {groups : GroupSet}
    (h : Hiding hidden p all groups (p ∈ s.peerList) s t) (hS : s.toStore.Sound)
    (hadd : methodName = "add" → ∀ el, AddAccepted env s q request el → el.path = hidden → p ∈ s.peerList →
      hasAccess all el.fetchGroups groups = false) :
    SimAt (Alongside hidden p) (SameResponse p q) (handleMethod env q request methodName)
      (handleMethod env q request methodName) s t := by
  have hactive : q = p → p ∈ s.peerList := fun e => by rwa [← e]
  have hsame : ∀ {m n : Prog (Broker T) Response}, SimAt (Hiding hidden p all groups (p ∈ s.peerList)) Eq m n s t →
      SimAt (Alongside hidden p) (SameResponse p q) m n s t := fun h =>
    (h.mono fun _ _ h => h.alongside).weaken fun _ _ e => SameResponse.of_eq e
  have hother : ∀ {m n : Prog (Broker T) Response}, Sim (Alongside hidden p) Eq m n →
      SimAt (Alongside hidden p) (SameResponse p q) m n s t := fun h =>
    SimAt.weaken (h s t hl) fun _ _ e => SameResponse.of_eq e
  unfold handleMethod
  refine SimAt.ite_same (fun _ => hsame (simAt_changeState hsend (.refl hidden request) q h hS)) fun _ => ?_
  refine SimAt.ite_same (fun _ => hsame (sim_setOrCall hsend q request .state s t h)) fun _ => ?_
  refine SimAt.ite_same (fun _ => hsame (sim_setOrCall hsend q request .method s t h)) fun _ => ?_
  refine SimAt.ite_same (fun e => hsame (simAt_addElementToPeer hsend (.refl hidden request) h
    fun el n => hadd e el)) fun _ => ?_
  refine SimAt.ite_same (fun _ => hsame (sim_removeElementFromPeer hsend q request s t h)) fun _ => ?_
  refine SimAt.ite_same (fun _ => hsame (sim_processFetch hsend hactive request s t h)) fun _ => ?_
  refine SimAt.ite_same (fun _ => hsame (sim_removeFetchFromPeer q request s t h)) fun _ => ?_
  refine SimAt.ite_same (fun _ => SimAt.mono (sim_getElements hactive request s t h) fun _ _ h => h.alongside)
    fun _ => ?_
  refine SimAt.ite_same (fun _ => hother (sim_configPeer q request)) fun _ => ?_
  refine SimAt.ite_same (fun _ => hother (sim_handleInfo request)) fun _ => ?_
  refine SimAt.ite_same (fun _ => hother (sim_handleAuthentication q request)) fun _ => ?_
  exact SimAt.ite_same (fun _ => hother (sim_handleChangePassword q request)) fun _ =>
    hother (sim_errorResponse rfl _)

theorem SameResponse.send (hsend : env.SendOk) {q : Addr} {a b : Response} (h : SameResponse p q a b) :
    Sim (Alongside (T := T) hidden p) Eq (sendResponse env q a.json) (sendResponse env q b.json) :=
  sim_sendResponse hsend h.2

/-- an object of a message, with perhaps another value -/
theorem simAt_parseJsonRpc (hsend : env.SendOk) {s t : Broker T} {q : Addr} (hq : q ∈ s.peerList)
    {request request' : Json} (he : SameEvent hidden (.rpc q request) (.rpc q request'))
    (hl : Alongside hidden p s t) {all : Option (List String)} {groups : GroupSet}
    (h : Hiding hidden p all groups (p ∈ s.peerList) s t) (hS : s.toStore.Sound)
    (hadd : request.HasMethod "add" → ∀ el, AddAccepted env s q request el → el.path = hidden → p ∈ s.peerList →
      hasAccess all el.fetchGroups groups = false) :
    SimAt (Alongside hidden p) Eq (parseJsonRpc env q request) (parseJsonRpc env q request') s t := by
  cases he with
  | same =>
    cases hr : request.routingResponse with
    | some r =>
      rw [parseJsonRpc_of_response env hr]
      exact sim_handleRoutingResponse hsend request r.2 r.1 q s t hl
    | none =>
      rw [parseJsonRpc_of_request env hr]
      have hhandler : SimAt (Alongside hidden p) (SameResponse p q) (handlerOf env q request)
          (handlerOf env q request) s t := by
        have herror : ∀ err, SimAt (Alongside hidden p) (SameResponse p q) (errorResponse env request err)
            (errorResponse env request err) s t := fun err =>
          SimAt.weaken (sim_errorResponse rfl err s t hl) fun _ _ e => SameResponse.of_eq e
        unfold handlerOf
        cases hm : request.getObjectItem "method" with
        | none => exact herror _
        | some method =>
          cases method with
          | str methodName =>
            exact simAt_handleMethod hsend hq hl h hS fun e => hadd (by rw [Json.HasMethod, hm, e])
          | null => exact herror _
          | bool b => exact herror _
          | num n => exact herror _
          | arr l => exact herror _
          | obj l => exact herror _
      exact SimAt.bind hhandler fun a b hab s1 t1 h1 => hab.send hsend s1 t1 h1
  | value _ _ params v hm hp =>
    have hr := sameButValue_withValue hp v
    have hsame : ∀ {m n : Prog (Broker T) Response}, SimAt (Hiding hidden p all groups (p ∈ s.peerList)) Eq m n s t →
        SimAt (Alongside hidden p) (SameResponse p q) m n s t := fun h =>
      (h.mono fun _ _ h => h.alongside).weaken fun _ _ e => SameResponse.of_eq e
    rcases hm with hm | hm
    · rw [parseJsonRpc_of_request env hm.routingResponse,
        parseJsonRpc_of_request env (hasMethod_withValue hm v).routingResponse, handlerOf_of_method env hm,
        handlerOf_of_method env (hasMethod_withValue hm v), handleMethod_add, handleMethod_add]
      exact SimAt.bind (hsame (simAt_addElementToPeer hsend hr h fun el n => hadd hm el))
        fun a b hab s1 t1 h1 => hab.send hsend s1 t1 h1
    · rw [parseJsonRpc_of_request env hm.routingResponse,
        parseJsonRpc_of_request env (hasMethod_withValue hm v).routingResponse, handlerOf_of_method env hm,
        handlerOf_of_method env (hasMethod_withValue hm v), handleMethod_change, handleMethod_change]
      exact SimAt.bind (hsame (simAt_changeState hsend hr q h hS)) fun a b hab s1 t1 h1 => hab.send hsend s1 t1 h1

theorem sim_connectPeer (q : Addr) (connection : Connection) (isLocal : Bool) : Sim (Alongside (T := T) hidden p) Eq
    (connectPeer env q connection isLocal) (connectPeer env q connection isLocal) := by
  refine Sim.bind (sim_call env _) fun ok _ e1 => ?_
  subst e1
  refine Sim.ite Iff.rfl (fun _ => ?_) fun _ => Sim.pure rfl
  have hinit : Sim (Alongside (T := T) hidden p) Eq (initPeer env q connection.memory isLocal)
      (initPeer env q connection.memory isLocal) := by
    refine Sim.bind (sim_call env _) fun ok _ e1 => ?_
    subst e1
    refine Sim.ite Iff.rfl (fun _ => ?_) fun _ => Sim.pure rfl
    refine Sim.bind (V := Eq) (fun s t h => ?_) fun _ _ _ => Sim.pure rfl
    exact Or.inr ⟨(), s.connected env q connection.memory isLocal s.calls, (),
      t.connected env q connection.memory isLocal t.calls, rfl, rfl, rfl,
      Plain.locked (f := fun b : Broker T => b.connected env q connection.memory isLocal b.calls)
        ⟨fun _ _ _ => rfl, fun _ => rfl, fun _ => rfl⟩ h ⟨h.guard.strangers⟩⟩
  exact Sim.bind hinit fun _ _ _ => Sim.pure rfl

end

/-! ## runs -/

section
variable {T : Type} [HashTable T] {platform : Platform} {hidden : String} {p : Addr}

theorem simAt_handleEvent {s t : Broker T} (hl : Alongside hidden p s t) (hS : s.toStore.Sound)
    (hg : s.allGroups.isSome = true) {i : Input} {e : Event} (hsend : (i.env platform).SendOk)
    (hno : NoAccess platform hidden p s i) (he : SameEvent hidden i.event e) :
    SimAt (Alongside hidden p) Eq (handleEvent (i.env platform) i.event) (handleEvent (i.env platform) e) s t := by
  have h := hl.hiding hS hg hno.elements
  obtain ⟨outcomes, event⟩ := i
  have hrpc : ∀ q request request', event = .rpc q request → SameEvent hidden (.rpc q request) (.rpc q request') →
      SimAt (Alongside hidden p) Eq
        (handleEvent (Input.env platform ⟨outcomes, event⟩) (.rpc q request))
        (handleEvent (Input.env platform ⟨outcomes, event⟩) (.rpc q request')) s t := by
    intro q request request' hevent he
    have hpeers : t.peerList = s.peerList := hl.same (f := fun b => b.peerList) fun _ _ _ => rfl
    by_cases hq : q ∈ s.peerList
    · have h1 : Prog.require (fun b : Broker T => b.peerList.contains q) s = some ((), s) :=
        Prog.require_of_true (by simpa using hq)
      have h2 : Prog.require (fun b : Broker T => b.peerList.contains q) t = some ((), t) :=
        Prog.require_of_true (by rw [hpeers]; simpa using hq)
      refine SimAt.of_some h1 h2 ?_
      have hparse := simAt_parseJsonRpc hsend hq he hl h hS fun hm el hacc hp hactive =>
        hasAccess_disjoint hg (hno.added hactive q request el hevent hm hacc hp)
      have hreceive : SimAt (Alongside hidden p) Eq
          (receiveObject (Input.env platform ⟨outcomes, event⟩) q request)
          (receiveObject (Input.env platform ⟨outcomes, event⟩) q request') s t := by
        refine SimAt.bind hparse fun ret _ e1 s1 t1 h1 => ?_
        subst e1
        have hcount : Sim (Alongside (T := T) hidden p) Eq
            (Prog.update fun b => { b with received := b.received + 1 })
            (Prog.update fun b => { b with received := b.received + 1 }) :=
          sim_routerUpdate (fun _ _ _ => rfl) (fun _ => rfl) (fun _ => rfl) (fun _ => rfl) fun _ => rfl
        exact SimAt.bind (hcount s1 t1 h1) fun _ _ _ s2 t2 h2 => Sim.pure rfl s2 t2 h2
      exact SimAt.bind hreceive fun _ _ _ s1 t1 h1 => Sim.pure rfl s1 t1 h1
    · have hnot : ¬ s.peerList.contains q = true := by simpa using hq
      have hnot' : ¬ t.peerList.contains q = true := by rwa [hpeers]
      exact Or.inl ⟨Prog.bind_none (if_neg hnot), Prog.bind_none (if_neg hnot')⟩
  have hevent : ∀ e, event = e → SimAt (Alongside hidden p) Eq
      (handleEvent (Input.env platform ⟨outcomes, event⟩) e)
      (handleEvent (Input.env platform ⟨outcomes, event⟩) e) s t := by
    intro e hev
    cases e with
    | connect q connection isLocal =>
      exact Sim.bind (sim_require fun _ _ _ => rfl) (fun _ _ _ => sim_connectPeer q connection isLocal) s t hl
    | rpc q request => exact hrpc q request request hev (.same _)
    | timeout r =>
      exact Sim.bind (sim_require fun _ _ _ => rfl) (fun _ _ _ => sim_requestTimeoutHandler hsend r) s t hl
    | disconnect q =>
      exact SimAt.mono (Sim.bind (sim_require fun _ _ _ => rfl) (fun _ _ _ => sim_freePeerResources hsend q) s t h)
        fun _ _ h => h.alongside
  generalize hev : event = event2 at he
  cases he with
  | same => exact hevent event2 hev
  | value q request params v hm hp => exact hrpc q request _ hev (.value q request params v hm hp)

/-- one step keeps the two brokers alongside each other -/
theorem alongside_step {s t s' : Broker T} (hl : Alongside hidden p s t) (hS : s.toStore.Sound)
    (hg : s.allGroups.isSome = true) {i i' : Input} (hsend : (i.env platform).SendOk)
    (hno : NoAccess platform hidden p s i) (hi : SameInput hidden i i') (hs : step platform s i = some s') :
    ∃ t', step platform t i' = some t' ∧ Alongside hidden p s' t' := by
  obtain ⟨outcomes', event'⟩ := i'
  obtain ⟨houtcomes, hevent⟩ := hi
  have houtcomes : outcomes' = i.outcomes := houtcomes
  subst houtcomes
  have hl0 : Alongside hidden p { s with calls := 0 } { t with calls := 0 } :=
    Plain.locked (f := fun b : Broker T => { b with calls := 0 }) ⟨fun _ _ _ => rfl, fun _ => rfl, fun _ => rfl⟩ hl
      ⟨hl.guard.strangers⟩
  have hno0 : NoAccess platform hidden p { s with calls := 0 } i := ⟨hno.elements, hno.added⟩
  have hsim := simAt_handleEvent hl0 hS hg hsend hno0 hevent
  have h1 := step_some hs
  rcases hsim with ⟨h2, _⟩ | ⟨_, s2, _, t2, h2, h3, _, h4⟩
  · rw [h1] at h2
    cases h2
  · have e1 : some ((), s') = some ((), s2) := h1.symm.trans h2
    cases e1
    refine ⟨t2, ?_, h4⟩
    show ((handleEvent _ event' { t with calls := 0 }).map (·.2)) = some t2
    have h3 : handleEvent (i.env platform) event' { t with calls := 0 } = some ((), t2) := h3
    have henv : Input.env platform ⟨i.outcomes, event'⟩ = i.env platform := rfl
    rw [henv, h3]
    rfl

theorem alongside_run {s t s' : Broker T} {l l' : List Input} (hl : Alongside hidden p s t) (hS : s.toStore.Sound)
    (hg : s.allGroups.isSome = true) (hi : List.Forall₂ (SameInput hidden) l l')
    (hc : Along (step platform) (fun b i => (i.env platform).SendOk ∧ NoAccess platform hidden p b i) s l)
    (h : run (step platform) s l = some s') :
    ∃ t', run (step platform) t l' = some t' ∧ Alongside hidden p s' t' := by
  induction hi generalizing s t with
  | nil =>
    obtain rfl : s = s' := by simpa [run_nil] using h
    exact ⟨t, rfl, hl⟩
  | cons hi _ ih =>
    obtain ⟨u, h1, h2⟩ := run_cons_some h
    obtain ⟨v, h3, h4⟩ := alongside_step hl hS hg hc.1.1 hc.1.2 hi h1
    have hgu : u.allGroups.isSome = true := by rwa [allGroups_step h1]
    obtain ⟨t', h5, h6⟩ := ih h4 (sound_step hS h1) hgu (hc.2 u h1) h2
    refine ⟨t', ?_, h6⟩
    rw [run_cons, h3]
    exact h5

theorem alongside_start {s : Broker T} (h0 : s.IsStart platform) : Alongside hidden p s s := by
  obtain ⟨allGroups, userData, passwordFile, rfl⟩ := h0
  exact .mk (s := Broker.start platform.config allGroups userData passwordFile) (fun _ => none) []
    (fun e => .none) rfl ⟨fun e el hel => by cases hel⟩

/-- Two runs differ at most in the values that add and change requests carry for the path `hidden`.  A
peer that never shares a fetch group with the element gets the same messages in both. -/
theorem noninterference {s b : Broker T} {l l' : List Input} (h0 : s.IsStart platform)
    (hg : s.allGroups.isSome = true) (hi : List.Forall₂ (SameInput hidden) l l')
    (hsend : Along (step platform) (fun _ i => (i.env platform).SendOk) s l)
    (hno : Along (step platform) (NoAccess platform hidden p) s l) (h : run (step platform) s l = some b) :
    ∃ b', run (step platform) s l' = some b' ∧ sentTo p b'.sent = sentTo p b.sent := by
  obtain ⟨b', h1, h2⟩ := alongside_run (alongside_start h0) (sound_run (l := []) h0 rfl) hg hi (hsend.and hno) h
  exact ⟨b', h1, h2.sentTo_eq⟩

end

/-! ## two runs -/

theorem hasMethod_request (id : Json) (method : String) (params : List (String × Json)) :
    (Json.request (some id) method params).HasMethod method :=
  (Json.getObjectItem_later (by decide) _ _).trans (Json.getObjectItem_first (by decide) _ _)

theorem getParamsAndPath_request (id : Json) (method path : String) (params : List (String × Json)) :
    getParamsAndPath (.request (some id) method (("path", .str path) :: params))
      = .ok (.obj (("path", .str path) :: params), path) := by
  have hparams : (Json.request (some id) method (("path", .str path) :: params)).getObjectItem "params"
      = some (.obj (("path", .str path) :: params)) :=
    (Json.getObjectItem_later (by decide) _ _).trans
      ((Json.getObjectItem_later (by decide) _ _).trans (Json.getObjectItem_first (by decide) _ _))
  have hpath : (Json.obj (("path", .str path) :: params)).getObjectItem "path" = some (.str path) :=
    Json.getObjectItem_first (by decide) _ _
  unfold getParamsAndPath getParams
  rw [hparams]
  show (getPathFromParams (.obj (("path", .str path) :: params)) >>= fun path' => _) = _
  unfold getPathFromParams
  rw [hpath]
  rfl

/-- the owner 1 adds the state "x" for the group "g" and changes it; the peer 2, without groups, fetches and
gets everything -/
def secretRun (v w : Json) : List Input :=
  [.connect 1 .websocket true, .connect 2 .websocket true,
   .rpc 2 (.request (some (.num 1)) "fetch" [("id", .num 1)]),
   .rpc 1 (.request (some (.num 2)) "add"
     [("path", .str "x"), ("value", v), ("access", .obj [("fetchGroups", .arr [.str "g"])])]),
   .rpc 1 (.request (some (.num 3)) "change" [("path", .str "x"), ("value", w)]),
   .rpc 2 (.request (some (.num 4)) "get" [])].map Event.good

theorem secretRun_noninterference : ∃ b b' : Broker SlotTable,
    run (step Platform.small) (Broker.start Platform.small.config (some ["g"]) none [])
      (secretRun (.num 1) (.num 2)) = some b ∧
    run (step Platform.small) (Broker.start Platform.small.config (some ["g"]) none [])
      (secretRun (.num 7) (.num 8)) = some b' ∧ sentTo 2 b'.sent = sentTo 2 b.sent := by
  have hrun : (run (step Platform.small) (Broker.start (T := SlotTable) Platform.small.config (some ["g"]) none [])
      (secretRun (.num 1) (.num 2))).isSome = true := by decide +kernel
  obtain ⟨b, hb⟩ := Option.isSome_iff_exists.mp hrun
  have hpair : List.Forall₂ (SameInput "x") (secretRun (.num 1) (.num 2)) (secretRun (.num 7) (.num 8)) := by
    refine .cons ⟨rfl, .same _⟩ (.cons ⟨rfl, .same _⟩ (.cons ⟨rfl, .same _⟩ (.cons ⟨rfl, ?_⟩ (.cons ⟨rfl, ?_⟩
      (.cons ⟨rfl, .same _⟩ .nil)))))
    · exact .value 1 _ _ (.num 7) (Or.inl (hasMethod_request _ _ _)) (getParamsAndPath_request _ _ _ _)
    · exact .value 1 _ _ (.num 8) (Or.inr (hasMethod_request _ _ _)) (getParamsAndPath_request _ _ _ _)
  have hsend : Along (step Platform.small) (fun _ i => (i.env Platform.small).SendOk)
      (Broker.start (T := SlotTable) Platform.small.config (some ["g"]) none []) (secretRun (.num 1) (.num 2)) := by
    refine Along.of_mem (fun i hi _ => ?_) _
    obtain ⟨e, _, rfl⟩ := List.mem_map.mp hi
    exact fun _ _ _ => rfl
  have hno : Along (step Platform.small) (NoAccess Platform.small "x" 2)
      (Broker.start (T := SlotTable) Platform.small.config (some ["g"]) none []) (secretRun (.num 1) (.num 2)) := by
    refine Along.of_check (c := fun b _ => b.fetchGroups 2 == 0) (fun b i hc => ?_) (by decide +kernel)
    have hc : b.fetchGroups 2 = 0 := by simpa using hc
    have hnone : ∀ el : Element, el.fetchGroups &&& b.fetchGroups 2 = 0 := fun el => by
      rw [hc]
      exact BitVec.and_zero
    exact ⟨fun _ _ el _ _ => hnone el, fun _ _ _ el _ _ _ _ => hnone el⟩
  obtain ⟨b', hb', hsame⟩ := noninterference (isStart_start _ _ _ []) rfl hpair hsend hno hb
  exact ⟨b, b', hb, hb', hsame⟩

end Cjet
