import Cjet.Access.Handlers

/-!
# Routed requests and accounts, side by side

The remaining handlers neither change elements nor pass a value of a state on; they keep any two
brokers in lockstep.
-/

set_option linter.unusedVariables false
set_option linter.unusedSectionVars false

namespace Cjet
open Stateful Alloc

section
variable {T : Type} [HashTable T] {hidden : String} {p : Addr} {G : Broker T → Prop} [Guard p G] {env : Env}

/-! ## timers and routing tables -/

section
variable {f : Broker T → Broker T}

/-- the update touches neither elements, fetches and groups nor messages -/
theorem sim_routerUpdate (h1 : ∀ (s : Broker T) elements sent, f { s with elements := elements, sent := sent }
    = { f s with elements := elements, sent := sent }) (h2 : ∀ s, (f s).toStore = s.toStore)
    (h3 : ∀ s, (f s).sent = s.sent) (h4 : ∀ s, (f s).allGroups = s.allGroups)
    (h5 : ∀ s, (f s).fetchGroups p = s.fetchGroups p) :
    Sim (Locked hidden p G) Eq (Prog.update f) (Prog.update f) := by
  have hstore : ∀ s, (f s).elements = s.elements ∧ (f s).fetches = s.fetches ∧ (f s).fresh = s.fresh := fun s => by
    rw [h2]
    exact ⟨rfl, rfl, rfl⟩
  exact sim_update ⟨h1, fun s => (hstore s).1, h3⟩ fun s => ⟨(hstore s).1, (hstore s).2.1, (hstore s).2.2, h4 s, h5 s⟩

end

theorem sim_cjetTimerInit (r : Addr) :
    Sim (Locked (T := T) hidden p G) Eq (cjetTimerInit env r) (cjetTimerInit env r) := by
  refine Sim.bind (sim_call env _) fun ok _ e1 => ?_
  subst e1
  refine Sim.ite Iff.rfl (fun _ => ?_) fun _ => Sim.pure rfl
  refine Sim.bind (sim_call env _) fun ok _ e1 => ?_
  subst e1
  refine Sim.ite Iff.rfl (fun _ => ?_) fun _ => Sim.pure rfl
  exact Sim.bind (sim_routerUpdate (fun _ _ _ => rfl) (fun _ => rfl) (fun _ => rfl) (fun _ => rfl) fun _ => rfl)
    fun _ _ _ => Sim.pure rfl

/-- a timer is started or cancelled where the call succeeds -/
theorem sim_settime (r : Addr) (armed : Bool) (ok : Bool) : Sim (Locked (T := T) hidden p G) Eq
    (Prog.update fun b => if ok then
      { b with timers := Function.update b.timers r ((b.timers r).map fun _ => armed) } else b)
    (Prog.update fun b => if ok then
      { b with timers := Function.update b.timers r ((b.timers r).map fun _ => armed) } else b) := by
  cases ok with
  | true => exact sim_routerUpdate (fun _ _ _ => rfl) (fun _ => rfl) (fun _ => rfl) (fun _ => rfl) fun _ => rfl
  | false => exact sim_routerUpdate (fun _ _ _ => rfl) (fun _ => rfl) (fun _ => rfl) (fun _ => rfl) fun _ => rfl

theorem sim_timerStart (r : Addr) :
    Sim (Locked (T := T) hidden p G) Eq (timerStart env r) (timerStart env r) := by
  refine Sim.bind (sim_call env _) fun ok _ e1 => ?_
  subst e1
  exact Sim.bind (sim_settime r true ok) fun _ _ _ => Sim.pure rfl

theorem sim_timerCancel (r : Addr) :
    Sim (Locked (T := T) hidden p G) Eq (timerCancel env r) (timerCancel env r) := by
  refine Sim.bind (sim_call env _) fun ok _ e1 => ?_
  subst e1
  exact Sim.bind (sim_settime r false ok) fun _ _ _ => Sim.pure rfl

theorem sim_cjetTimerDestroy (r : Addr) :
    Sim (Locked (T := T) hidden p G) Eq (cjetTimerDestroy r) (cjetTimerDestroy r) :=
  sim_routerUpdate (fun _ _ _ => rfl) (fun _ => rfl) (fun _ => rfl) (fun _ => rfl) fun _ => rfl

theorem sim_freeRequest (r : Addr) :
    Sim (Locked (T := T) hidden p G) Eq (freeRequest r) (freeRequest r) :=
  sim_routerUpdate (fun _ _ _ => rfl) (fun _ => rfl) (fun _ => rfl) (fun _ => rfl) fun _ => rfl

/-- an operation on the routing table of `q` that has a result -/
theorem sim_onTable {α : Type} (q : Addr) (op : T → α × T) : Sim (Locked (T := T) hidden p G) Eq
    (fun b : Broker T => some ((op (b.routingTable q)).1,
      { b with routingTable := Function.update b.routingTable q (op (b.routingTable q)).2 }))
    (fun b : Broker T => some ((op (b.routingTable q)).1,
      { b with routingTable := Function.update b.routingTable q (op (b.routingTable q)).2 })) := by
  intro s t h
  have htable : t.routingTable = s.routingTable := h.same (f := fun b => b.routingTable) fun _ _ _ => rfl
  refine Or.inr ⟨_, _, _, _, rfl, rfl, by rw [htable], ?_⟩
  exact Plain.locked (f := fun b : Broker T =>
    { b with routingTable := Function.update b.routingTable q (op (b.routingTable q)).2 })
    ⟨fun _ _ _ => rfl, fun _ => rfl, fun _ => rfl⟩ h (Guard.congr (p := p) (s := s) ⟨rfl, rfl, rfl, rfl, rfl⟩ h.guard)

theorem sim_routeTablePut (q : Addr) (id : String) (r : Addr) :
    Sim (Locked (T := T) hidden p G) Eq (routeTablePut q id r) (routeTablePut q id r) :=
  sim_onTable q fun t => HashTable.put t id r

theorem sim_routeTableRemove (q : Addr) (id : String) :
    Sim (Locked (T := T) hidden p G) Eq (routeTableRemove q id) (routeTableRemove q id) :=
  sim_onTable q fun t => HashTable.remove t id

/-! ## routed requests -/

theorem sim_answerWithError (hsend : env.SendOk) (q : Addr) (about : About) (id : Option Json) (reason : String) :
    Sim (Locked (T := T) hidden p G) Eq (answerWithError env q about id reason)
      (answerWithError env q about id reason) := by
  unfold answerWithError
  cases id with
  | none => exact Sim.pure rfl
  | some id =>
    refine Sim.bind (sim_same _) fun response _ e1 => ?_
    subst e1
    cases response with
    | none => exact Sim.pure rfl
    | some response =>
      exact Sim.bind (sim_formatAndSendResponse hsend q about fun _ => rfl) fun _ _ _ => Sim.pure rfl

theorem sim_requestTimeoutHandler (hsend : env.SendOk) (r : Addr) :
    Sim (Locked (T := T) hidden p G) Eq (requestTimeoutHandler env r) (requestTimeoutHandler env r) := by
  refine Sim.bind (sim_deref fun _ _ _ => rfl) fun request _ e1 => ?_
  subst e1
  refine Sim.bind (sim_require fun _ _ _ => rfl) fun _ _ _ => ?_
  refine Sim.bind (sim_routeTableRemove _ _) fun _ _ _ => ?_
  refine Sim.bind (sim_answerWithError hsend _ _ _ _) fun _ _ _ => ?_
  exact Sim.bind (sim_cjetTimerDestroy r) fun _ _ _ => sim_freeRequest r

theorem sim_setupRoutingInformation (el : Element) (request : Json) (timeout : Option Json) (r : Addr) (id : String) :
    Sim (Locked (T := T) hidden p G) Eq (setupRoutingInformation env el request timeout r id)
      (setupRoutingInformation env el request timeout r id) := by
  have herror : ∀ err, Sim (Locked (T := T) hidden p G) Eq
      (do return some (← failureResponse env request err)) (do return some (← failureResponse env request err)) :=
    fun err => Sim.bind (sim_failureResponse rfl err) fun _ _ e1 => Sim.pure (by rw [e1])
  unfold setupRoutingInformation
  cases getTimeoutInNsec env.toPlatform timeout el.timeoutNsec with
  | error err => exact herror err
  | ok timeoutNsec =>
    refine Sim.bind (sim_cjetTimerInit r) fun ok _ e1 => ?_
    subst e1
    refine Sim.ite Iff.rfl (fun _ => ?_) fun _ => herror (some _)
    refine Sim.bind (sim_routeTablePut el.peer id r) fun ok _ e1 => ?_
    subst e1
    refine Sim.ite Iff.rfl (fun _ => ?_) fun _ => herror (some _)
    refine Sim.bind (sim_timerStart r) fun ok _ e1 => ?_
    subst e1
    refine Sim.ite Iff.rfl (fun _ => Sim.pure rfl) fun _ => ?_
    exact Sim.bind (sim_routeTableRemove el.peer id) fun _ _ _ => herror (some _)

theorem sim_failRouting (request : Json) (r : Addr) (err : Err) :
    Sim (Locked (T := T) hidden p G) Eq (failRouting env request r err) (failRouting env request r err) :=
  Sim.bind (sim_errorResponse rfl err) fun _ _ e1 =>
    Sim.bind (sim_freeRequest r) fun _ _ _ => Sim.pure e1

theorem sim_sendRoutedMessage (hsend : env.SendOk) (el : Element) (request : Json) (r : Addr) (msg : Json) :
    Sim (Locked (T := T) hidden p G) Eq (sendRoutedMessage env el request r msg)
      (sendRoutedMessage env el request r msg) := by
  refine Sim.bind (sim_same _) fun rendered _ e1 => ?_
  subst e1
  cases rendered with
  | none => exact sim_failRouting request r _
  | some rendered =>
    refine Sim.bind (sim_sendMessage hsend el.peer (.routed r) fun _ => rfl) fun ok _ e1 => ?_
    subst e1
    exact Sim.ite Iff.rfl (fun _ => Sim.pure rfl) fun _ => sim_errorResponse rfl _

theorem sim_routeRequest (hsend : env.SendOk) (el : Element) (request params : Json) (path : String)
    (what : ElementType) (r : Addr) : Sim (Locked (T := T) hidden p G) Eq
      (routeRequest env el request params path what r) (routeRequest env el request params path what r) := by
  refine Sim.bind (sim_deref fun _ _ _ => rfl) fun routingRequest _ e1 => ?_
  subst e1
  cases valueToRoute params what with
  | error err => exact sim_failRouting request r err
  | ok value =>
    refine Sim.bind (sim_same _) fun msg _ e1 => ?_
    subst e1
    cases msg with
    | none => exact sim_failRouting request r _
    | some msg =>
      refine Sim.bind (sim_setupRoutingInformation el request _ r _) fun response _ e1 => ?_
      subst e1
      cases response with
      | none => exact sim_sendRoutedMessage hsend el request r msg
      | some response => exact Sim.bind (sim_freeRequest r) fun _ _ _ => Sim.pure rfl

theorem sim_allocRoutingRequest (q o : Addr) (id : Option Json) :
    Sim (Locked (T := T) hidden p G) Eq (allocRoutingRequest env q o id) (allocRoutingRequest env q o id) := by
  unfold allocRoutingRequest
  refine Sim.bind (Sim.read (V := fun b b' => b'.uuid = b.uuid ∧ b'.received = b.received ∧ b'.routed = b.routed)
    fun s t h => ⟨h.same (f := fun b => b.uuid) fun _ _ _ => rfl, h.same (f := fun b => b.received) fun _ _ _ => rfl,
      h.same (f := fun b => b.routed) fun _ _ _ => rfl⟩) fun b b' hb => ?_
  obtain ⟨h1, h2, h3⟩ := hb
  simp only [h1, h2, h3]
  refine Sim.bind (sim_call env _) fun ok _ e1 => ?_
  subst e1
  refine Sim.ite Iff.rfl (fun _ => ?_) fun _ => Sim.pure rfl
  refine Sim.bind (sim_same _) fun copy _ e1 => ?_
  subst e1
  cases copy with
  | none => exact Sim.pure rfl
  | some copy =>
    exact Sim.bind (sim_routerUpdate (fun _ _ _ => rfl) (fun _ => rfl) (fun _ => rfl) (fun _ => rfl) fun _ => rfl)
      fun _ _ _ => Sim.pure rfl

/-- A set or call looks at the owner, the flags and the groups of the element, not at its value. -/
theorem sim_setOrCall (hsend : env.SendOk) (q : Addr) (request : Json) (what : ElementType) :
    Sim (Locked (T := T) hidden p G) Eq (setOrCall env q request what) (setOrCall env q request what) := by
  unfold setOrCall
  cases getParamsAndPath request with
  | error err => exact sim_errorResponse rfl err
  | ok r =>
    refine Sim.bind (sim_read fun _ _ _ => rfl) fun found _ e1 => ?_
    subst e1
    cases found with
    | none => exact sim_errorResponse rfl _
    | some e =>
      refine Sim.bind (sim_derefElement e) fun el el' halike => ?_
      have hcheck : ∀ b b' : Broker T, b'.toAccounts = b.toAccounts →
          checkSetOrCall b' q el' what r.2 request = checkSetOrCall b q el what r.2 request := fun b b' hb => by
        have hall : b'.allGroups = b.allGroups := by rw [hb]
        have hheld : heldGroups b' q what = heldGroups b q what := by
          unfold heldGroups
          rw [hb]
        obtain ⟨old, _, hs⟩ := halike
        have hnone : old.isNone = el.value.isNone := by
          rw [← Option.not_isSome, ← Option.not_isSome, hs]
        have htype : wrongElementType { el with value := old } what = wrongElementType el what := by
          cases what with
          | state => exact hnone
          | method => exact hs
        have hwanted : wantedGroups { el with value := old } what = wantedGroups el what := by
          cases what <;> rfl
        unfold checkSetOrCall
        rw [hall, hheld, htype, hwanted]
        rfl
      have hroute : ∀ r', routeRequest (T := T) env el' request r.1 r.2 what r'
          = routeRequest env el request r.1 r.2 what r' := fun r' => by
        obtain ⟨old, _, _⟩ := halike
        rfl
      have howner : el'.peer = el.peer := halike.same (f := fun el => el.peer) fun _ _ => rfl
      refine Sim.bind (Sim.read (V := fun b b' => b'.toAccounts = b.toAccounts) fun s t h =>
        h.same (f := fun b => b.toAccounts) fun _ _ _ => rfl) fun b b' hb => ?_
      rw [hcheck b b' hb, howner]
      cases checkSetOrCall b q el what r.2 request with
      | error err => exact sim_errorResponse rfl err
      | ok id =>
        refine Sim.bind (sim_allocRoutingRequest q el.peer id) fun r' _ e1 => ?_
        subst e1
        cases r' with
        | none => exact sim_errorResponse rfl _
        | some r' =>
          show Sim _ _ (routeRequest env el request r.1 r.2 what r') (routeRequest env el' request r.1 r.2 what r')
          rw [hroute]
          exact sim_routeRequest hsend el request r.1 r.2 what r'

theorem sim_forwardResponse (hsend : env.SendOk) (q : RoutingRequest) (response : Json) (resultType : String) :
    Sim (Locked (T := T) hidden p G) Eq (forwardResponse env q response resultType)
      (forwardResponse env q response resultType) := by
  unfold forwardResponse
  cases q.originRequestId with
  | none => exact Sim.pure rfl
  | some id =>
    refine Sim.bind (sim_same _) fun copy _ e1 => ?_
    subst e1
    cases copy with
    | none => exact Sim.pure rfl
    | some copy =>
      refine Sim.bind (sim_same _) fun result _ e1 => ?_
      subst e1
      cases result with
      | none => exact Sim.undefined
      | some result =>
        exact Sim.bind (sim_formatAndSendResponse hsend _ _ fun _ => rfl) fun _ _ _ => Sim.pure rfl

theorem sim_handleRoutingResponse (hsend : env.SendOk) (request response : Json) (resultType : String) (q : Addr) :
    Sim (Locked (T := T) hidden p G) Eq (handleRoutingResponse env request response resultType q)
      (handleRoutingResponse env request response resultType q) := by
  unfold handleRoutingResponse
  cases request.getObjectItem "id" with
  | none => exact Sim.pure rfl
  | some id =>
    cases id with
    | str id =>
      refine Sim.bind (sim_routeTableRemove q id) fun found _ e1 => ?_
      subst e1
      cases found with
      | none => exact Sim.pure rfl
      | some r =>
        refine Sim.bind (sim_deref fun _ _ _ => rfl) fun routed _ e1 => ?_
        subst e1
        refine Sim.bind (sim_timerCancel r) fun _ _ _ => ?_
        refine Sim.bind (sim_cjetTimerDestroy r) fun _ _ _ => ?_
        refine Sim.bind (sim_forwardResponse hsend routed response resultType) fun ret _ e1 => ?_
        subst e1
        exact Sim.bind (sim_freeRequest r) fun _ _ _ => Sim.pure rfl
    | null => exact Sim.pure rfl
    | bool b => exact Sim.pure rfl
    | num n => exact Sim.pure rfl
    | arr l => exact Sim.pure rfl
    | obj l => exact Sim.pure rfl

/-! ## a peer goes away -/

theorem sim_clearRoutingEntry (hsend : env.SendOk) (r : Addr) :
    Sim (Locked (T := T) hidden p G) Eq (clearRoutingEntry env r) (clearRoutingEntry env r) := by
  refine Sim.bind (sim_deref fun _ _ _ => rfl) fun request _ e1 => ?_
  subst e1
  refine Sim.bind (sim_timerCancel r) fun _ _ _ => ?_
  exact Sim.bind (sim_answerWithError hsend _ _ _ _) fun _ _ _ => sim_freeRequest r

theorem sim_removePeerFromSlot (hsend : env.SendOk) (q x : Addr) (i : Nat) :
    Sim (Locked (T := T) hidden p G) Eq (removePeerFromSlot env q x i) (removePeerFromSlot env q x i) := by
  refine Sim.bind (sim_read fun _ _ _ => rfl) fun key _ e1 => ?_
  subst e1
  cases key with
  | none => exact Sim.pure rfl
  | some key =>
    refine Sim.bind (sim_routeTableRemove q key) fun found _ e1 => ?_
    subst e1
    cases found with
    | none => exact Sim.pure rfl
    | some r =>
      refine Sim.bind (sim_deref fun _ _ _ => rfl) fun request _ e1 => ?_
      subst e1
      exact Sim.ite Iff.rfl (fun _ => sim_clearRoutingEntry hsend r) fun _ => Sim.pure rfl

theorem sim_removePeerFromRoutes (hsend : env.SendOk) (x : Addr) :
    Sim (Locked (T := T) hidden p G) Eq (removePeerFromRoutes env x) (removePeerFromRoutes env x) := by
  refine Sim.bind (sim_read fun _ _ _ => rfl) fun peers _ e1 => ?_
  subst e1
  refine Sim.each peers fun q _ => ?_
  refine Sim.bind (sim_read fun _ _ _ => rfl) fun size _ e1 => ?_
  subst e1
  exact Sim.each _ fun i _ => sim_removePeerFromSlot hsend q x i

theorem sim_removeRoutingInfoFromPeer (hsend : env.SendOk) (q : Addr) :
    Sim (Locked (T := T) hidden p G) Eq (removeRoutingInfoFromPeer env q) (removeRoutingInfoFromPeer env q) := by
  refine Sim.bind (sim_read fun _ _ _ => rfl) fun size _ e1 => ?_
  subst e1
  refine Sim.each _ fun i _ => ?_
  refine Sim.bind (sim_read fun _ _ _ => rfl) fun key _ e1 => ?_
  subst e1
  cases key with
  | none => exact Sim.pure rfl
  | some key =>
    refine Sim.bind (sim_routeTableRemove q key) fun found _ e1 => ?_
    subst e1
    cases found with
    | none => exact Sim.pure rfl
    | some r => exact sim_clearRoutingEntry hsend r

end

theorem sim_freePeerResources {T : Type} [HashTable T] {hidden : String} {p : Addr} {all : Option (List String)}
    {groups : GroupSet} {active : Prop} {env : Env} (hsend : env.SendOk) (q : Addr) :
    Sim (Hiding (T := T) hidden p all groups active) Eq (freePeerResources env q) (freePeerResources env q) := by
  refine Sim.bind (sim_removeRoutingInfoFromPeer hsend q) fun _ _ _ => ?_
  refine Sim.bind (sim_removePeerFromRoutes hsend q) fun _ _ _ => ?_
  refine Sim.bind (sim_removeAllFetchersFromPeer q) fun _ _ _ => ?_
  refine Sim.bind (sim_removeAllElementsFromPeer hsend q) fun _ _ _ => ?_
  refine Sim.bind (sim_routerUpdate (fun _ _ _ => rfl) (fun _ => rfl) (fun _ => rfl) (fun _ => rfl) fun _ => rfl)
    fun _ _ _ => ?_
  exact sim_update ⟨fun _ _ _ => rfl, fun _ => rfl, fun _ => rfl⟩ fun _ => ⟨rfl, rfl, rfl, rfl, rfl⟩

end Cjet
