import Cjet.Route.Correlate

/-!
# The id of a response

A response carries the id of its request as far as `valueint` holds it: a number is truncated and
saturated to the range of `int`.  An item is left out of an object where the copy of its key cannot
be allocated.

* `Carries`         a response with the id of a request;
* `echoes_handlerOf`   what a handler answers carries the id of the request;
* `Echoed`          so does what routing, timers and teardown answer;
* `response_ids`    in every run a response has the id of its request exactly if this is a string or
  an integer that `int` holds.
-/

set_option linter.unusedVariables false
set_option linter.unusedSectionVars false

namespace Cjet
open Stateful Alloc

/-- the copies of keys can be allocated -/
def Env.CopiesKeys (env : Env) : Prop := ∀ n, env.ok .addItem n = true

/-- The response has the id `id`, as far as `valueint` holds it. -/
def Carries (id : Option Json) (response : Json) : Prop :=
  ∃ i j, id = some i ∧ responseId i = some j ∧ response.getObjectItem "id" = some j

/-! ## making a response -/

section
variable {env : Env}

theorem addItemToObject_copied (h : env.CopiesKeys) (root : Json) (key : String) (item : Json) (n : Nat) :
    addItemToObject env root key (some item) n = (root.addItem key item, n + 1) := by
  show (if env.ok .addItem n then root.addItem key item else root, n + 1) = _
  rw [h n]
  rfl

/-- What is added behind the id does not hide it. -/
theorem carries_addItemToObject {id : Option Json} {members : List (String × Json)} {j : Json}
    (hid : ∃ i, id = some i ∧ responseId i = some j) {key : String} {item : Option Json} {n : Nat} :
    Carries id (addItemToObject env (.obj (("id", j) :: members)) key item n).1 := by
  obtain ⟨i, hi, hj⟩ := hid
  refine ⟨i, j, hi, hj, ?_⟩
  cases item with
  | none => exact Json.getObjectItem_first (by decide) _ _
  | some item =>
    show (if env.ok .addItem n then (Json.obj (("id", j) :: members)).addItem key item
      else Json.obj (("id", j) :: members)).getObjectItem "id" = _
    cases env.ok .addItem n with
    | false => exact Json.getObjectItem_first (by decide) _ _
    | true => exact Json.getObjectItem_first (by decide) _ _

theorem addSubobjectToObject_id (h : env.CopiesKeys) {m : Alloc (Option Json)} {j r : Json} {n : Nat}
    (hm : ∀ k, (m n).1 = some k → k = j)
    (hr : ((do addSubobjectToObject env (.obj []) (← m) "id" : Alloc _) n).1 = some r) : r = .obj [("id", j)] := by
  rw [Alloc.bind_apply] at hr
  cases hv : (m n).1 with
  | none =>
    rw [hv] at hr
    cases hr
  | some k =>
    obtain rfl := hm k hv
    rw [hv] at hr
    unfold addSubobjectToObject at hr
    dsimp only at hr
    rw [Alloc.bind_apply, addItemToObject_copied h] at hr
    exact (Option.some.inj hr).symm

theorem createCommonResponse_id (h : env.CopiesKeys) {id r : Json} {n : Nat}
    (hr : (createCommonResponse env id n).1 = some r) : ∃ j, responseId id = some j ∧ r = .obj [("id", j)] := by
  unfold createCommonResponse at hr
  rw [Alloc.bind_apply] at hr
  cases hroot : (createObject env n).1 with
  | none =>
    rw [hroot] at hr
    cases hr
  | some root =>
    obtain rfl : root = .obj [] := tryCall_some hroot
    rw [hroot] at hr
    cases id with
    | str s => exact ⟨.str s, rfl, addSubobjectToObject_id h (fun k hk => tryCall_some hk) hr⟩
    | num q => exact ⟨.num (Json.valueInt q), rfl, addSubobjectToObject_id h (fun k hk => tryCall_some hk) hr⟩
    | _ => cases hr

theorem createResultResponse_carries (h : env.CopiesKeys) {id r : Json} {result : Option Json} {resultType : String}
    {n : Nat} (hr : (createResultResponse env id result resultType n).1 = some r) : Carries (some id) r := by
  unfold createResultResponse at hr
  rw [Alloc.bind_apply] at hr
  cases hroot : (createCommonResponse env id n).1 with
  | none =>
    rw [hroot] at hr
    cases hr
  | some root =>
    obtain ⟨j, hj, rfl⟩ := createCommonResponse_id h hroot
    rw [hroot] at hr
    dsimp only at hr
    rw [Alloc.bind_apply] at hr
    rw [← Option.some.inj hr]
    exact carries_addItemToObject ⟨id, rfl, hj⟩

theorem createErrorResponse_carries (h : env.CopiesKeys) {id r : Json} {err : Err} {n : Nat}
    (hr : (createErrorResponse env id err n).1 = some r) : Carries (some id) r := by
  unfold createErrorResponse at hr
  rw [Alloc.bind_apply] at hr
  cases hroot : (createCommonResponse env id n).1 with
  | none =>
    rw [hroot] at hr
    cases hr
  | some root =>
    obtain ⟨j, hj, rfl⟩ := createCommonResponse_id h hroot
    rw [hroot] at hr
    dsimp only at hr
    rw [Alloc.bind_apply] at hr
    cases herror : (createErrorObject env err (createCommonResponse env id n).2).1 with
    | none =>
      rw [herror] at hr
      cases hr
    | some error =>
      rw [herror] at hr
      dsimp only at hr
      rw [Alloc.bind_apply] at hr
      rw [← Option.some.inj hr]
      exact carries_addItemToObject ⟨id, rfl, hj⟩

end

/-! ## the handlers -/

/-- The response, if there is one, carries the id of the request. -/
def Echoes (request : Json) (res : Response) : Prop :=
  ∀ json, res.json = some json → Carries (request.getObjectItem "id") json

section
variable {T : Type} {env : Env}

/-- a response that is made by a call which copies the id -/
theorem echoes_made {request : Json} {make : Alloc (Option Json)} (verdict : Verdict)
    (hmake : ∀ n json, (make n).1 = some json → Carries (request.getObjectItem "id") json) :
    Returns (Echoes request) (do return ⟨verdict, ← allocating make⟩ : Prog (Broker T) Response) := by
  intro b res b' hres json hjson
  obtain ⟨made, b1, h1, h2⟩ := Prog.bind_some hres
  obtain ⟨hmade, rfl⟩ := allocating_some h1
  obtain ⟨rfl, _⟩ := Prog.pure_some h2
  exact hmake b.calls json (hmade.symm.trans hjson)

variable (h : env.CopiesKeys)
include h

theorem resultFromRequest_carries {request json : Json} {result : Option Json} {resultType : String} {n : Nat}
    (hr : (createResultResponseFromRequest env request result resultType n).1 = some json) :
    Carries (request.getObjectItem "id") json := by
  unfold createResultResponseFromRequest at hr
  cases hid : request.getObjectItem "id" with
  | none =>
    rw [hid] at hr
    cases hr
  | some id =>
    rw [hid] at hr
    exact createResultResponse_carries h hr

theorem echoes_errorResponse (request : Json) (err : Err) :
    Returns (Echoes request) (errorResponse (T := T) env request err) := by
  refine echoes_made .error fun n json hmade => ?_
  unfold createErrorResponseFromRequest at hmade
  cases hid : request.getObjectItem "id" with
  | none =>
    rw [hid] at hmade
    cases hmade
  | some id =>
    rw [hid] at hmade
    exact createErrorResponse_carries h hmade

/-- a result that is made of anything -/
theorem echoes_result (request : Json) (result : Option Json) : Returns (Echoes request)
    (do return ⟨.success, ← allocating (createResultResponseFromRequest env request result "result")⟩ :
      Prog (Broker T) Response) :=
  echoes_made .success fun n json hmade => resultFromRequest_carries h hmade

theorem echoes_successResponse (request : Json) :
    Returns (Echoes request) (successResponse (T := T) env request) :=
  echoes_made .success fun n json hmade => resultFromRequest_carries h hmade

theorem echoes_failureResponse (request : Json) (err : Option Err) :
    Returns (Echoes request) (failureResponse (T := T) env request err) := by
  cases err with
  | none => exact Returns.pure fun json e => by cases e
  | some err => exact echoes_errorResponse h request err

theorem echoes_processFetch (p : Addr) (request : Json) :
    Returns (Echoes request) (processFetch (T := T) env p request) := by
  refine Returns.behind fun added => ?_
  cases added with
  | error err => exact echoes_errorResponse h request err
  | ok f =>
    refine Returns.behind fun peers => Returns.behind fun ok => Returns.ite ?_ ?_
    · exact echoes_successResponse h request
    · exact echoes_errorResponse h request _

theorem echoes_removeFetchFromPeer (p : Addr) (request : Json) :
    Returns (Echoes request) (removeFetchFromPeer (T := T) env p request) := by
  refine Returns.behind fun b => ?_
  cases checkUnfetch b p request with
  | error err => exact echoes_errorResponse h request err
  | ok f => exact Returns.behind fun _ => Returns.behind fun _ => echoes_successResponse h request

theorem echoes_getElements (p : Addr) (request : Json) :
    Returns (Echoes request) (getElements (T := T) env p request) := by
  unfold getElements
  cases getParams request with
  | error err => exact echoes_errorResponse h request err
  | ok params =>
    refine Returns.behind fun made => ?_
    cases made with
    | error err => exact echoes_errorResponse h request err
    | ok ft =>
      refine Returns.behind fun array => Returns.behind fun peers => Returns.behind fun found => ?_
      cases found with
      | error err => exact echoes_errorResponse h request err
      | ok states => exact echoes_result h request _

theorem echoes_configPeer (p : Addr) (request : Json) :
    Returns (Echoes request) (configPeer (T := T) env p request) := by
  unfold configPeer
  cases getParams request >>= getName with
  | error err => exact echoes_errorResponse h request err
  | ok name =>
    cases name with
    | none => exact echoes_successResponse h request
    | some name => exact Returns.behind fun _ => echoes_successResponse h request

theorem echoes_handleInfo (request : Json) : Returns (Echoes request) (handleInfo (T := T) env request) :=
  Returns.behind fun info => echoes_result h request info

theorem echoes_handleAuthentication (p : Addr) (request : Json) :
    Returns (Echoes request) (handleAuthentication (T := T) env p request) := by
  refine Returns.behind fun b => ?_
  cases checkAuthenticate env b p request with
  | error err => exact echoes_errorResponse h request err
  | ok account =>
    refine Returns.behind fun _ => Returns.behind fun userName => Returns.behind fun _ => ?_
    cases userName with
    | none => exact echoes_errorResponse h request _
    | some userName => exact echoes_successResponse h request

theorem echoes_handleChangePassword (p : Addr) (request : Json) :
    Returns (Echoes request) (handleChangePassword (T := T) env p request) := by
  unfold handleChangePassword
  cases getUserAndPassword request with
  | error err => exact echoes_errorResponse h request err
  | ok account =>
    refine Returns.behind fun b => ?_
    cases checkChangePassword b p account.1 with
    | error err => exact echoes_errorResponse h request err
    | ok password =>
      refine Returns.behind fun method => ?_
      cases method with
      | none => exact echoes_errorResponse h request _
      | some method =>
        dsimp only
        cases env.crypt account.2 (saltOf env.random method) with
        | none => exact echoes_errorResponse h request _
        | some encrypted =>
          refine Returns.behind fun _ => Returns.behind fun ok => Returns.ite ?_ ?_
          · exact echoes_successResponse h request
          · exact echoes_errorResponse h request _

variable [HashTable T]

theorem echoes_addElementToPeer (p : Addr) (request : Json) :
    Returns (Echoes request) (addElementToPeer (T := T) env p request) := by
  refine Returns.behind fun b => Returns.ite (echoes_errorResponse h request _) (Returns.behind fun ok =>
    Returns.ite (Returns.behind fun made => ?_) (echoes_errorResponse h request _))
  cases made with
  | error err => exact echoes_failureResponse h request err
  | ok el =>
    refine Returns.behind fun e => Returns.behind fun ok => Returns.ite (Returns.behind fun ok =>
      Returns.ite (Returns.behind fun _ => ?_) (Returns.behind fun _ => ?_)) (Returns.behind fun _ => ?_)
    · exact echoes_successResponse h request
    · exact echoes_errorResponse h request _
    · exact echoes_errorResponse h request _

theorem echoes_changeState (p : Addr) (request : Json) :
    Returns (Echoes request) (changeState (T := T) env p request) := by
  unfold changeState
  cases getPathAndValue request with
  | error err => exact echoes_errorResponse h request err
  | ok pv =>
    refine Returns.behind fun found => ?_
    cases found with
    | none => exact echoes_errorResponse h request _
    | some e =>
      refine Returns.behind fun el => ?_
      cases checkChange p el pv.1 with
      | error err => exact echoes_errorResponse h request err
      | ok u =>
        refine Returns.behind fun copy => ?_
        cases copy with
        | none => exact echoes_errorResponse h request _
        | some value =>
          refine Returns.behind fun _ => Returns.behind fun ok => Returns.ite ?_ ?_
          · exact echoes_successResponse h request
          · exact echoes_errorResponse h request _

theorem echoes_removeElementFromPeer (p : Addr) (request : Json) :
    Returns (Echoes request) (removeElementFromPeer (T := T) env p request) := by
  unfold removeElementFromPeer
  cases getParamsAndPath request with
  | error err => exact echoes_errorResponse h request err
  | ok pp =>
    refine Returns.behind fun found => ?_
    cases found with
    | none => exact echoes_errorResponse h request _
    | some e => exact Returns.behind fun _ => echoes_successResponse h request

theorem echoes_failRouting (request : Json) (r : Addr) (err : Err) :
    Returns (Echoes request) (failRouting (T := T) env request r err) :=
  Returns.bind (echoes_errorResponse h request err) fun res hres => Returns.behind fun _ => Returns.pure hres

theorem echoes_setupRoutingInformation (el : Element) (request : Json) (timeout : Option Json) (r : Addr)
    (id : String) : Returns (fun res => ∀ response, res = some response → Echoes request response)
      (setupRoutingInformation (T := T) env el request timeout r id) := by
  have refused : ∀ err, Returns (fun res => ∀ response, res = some response → Echoes request response)
      (do return some (← failureResponse (T := T) env request err) : Prog (Broker T) (Option Response)) := fun err =>
    Returns.bind (echoes_failureResponse h request err) fun res hres => Returns.pure fun response e => by
      rwa [← Option.some.inj e]
  unfold setupRoutingInformation
  cases getTimeoutInNsec env.toPlatform timeout el.timeoutNsec with
  | error err => exact refused err
  | ok t =>
    refine Returns.behind fun ok => Returns.ite (Returns.behind fun ok => Returns.ite (Returns.behind fun ok =>
      Returns.ite (Returns.pure fun response e => by cases e) (Returns.behind fun _ => refused (some _)))
      (refused (some _))) (refused (some _))

theorem echoes_routeRequest (el : Element) (request params : Json) (path : String) (what : ElementType) (r : Addr) :
    Returns (Echoes request) (routeRequest (T := T) env el request params path what r) := by
  refine Returns.behind fun routingRequest => ?_
  cases valueToRoute params what with
  | error err => exact echoes_failRouting h request r err
  | ok value =>
    refine Returns.behind fun message => ?_
    cases message with
    | none => exact echoes_failRouting h request r _
    | some message =>
      refine Returns.bind (echoes_setupRoutingInformation h el request _ r _) fun res hres => ?_
      cases res with
      | some response => exact Returns.behind fun _ => Returns.pure (hres response rfl)
      | none =>
        refine Returns.behind fun rendered => ?_
        cases rendered with
        | none => exact echoes_failRouting h request r _
        | some rendered =>
          refine Returns.behind fun ok => Returns.ite (Returns.pure fun json e => by cases e) ?_
          exact echoes_errorResponse h request _

theorem echoes_setOrCall (p : Addr) (request : Json) (what : ElementType) :
    Returns (Echoes request) (setOrCall (T := T) env p request what) := by
  unfold setOrCall
  cases getParamsAndPath request with
  | error err => exact echoes_errorResponse h request err
  | ok pp =>
    refine Returns.behind fun found => ?_
    cases found with
    | none => exact echoes_errorResponse h request _
    | some e =>
      refine Returns.behind fun el => Returns.behind fun b => ?_
      cases checkSetOrCall b p el what pp.2 request with
      | error err => exact echoes_errorResponse h request err
      | ok originRequestId =>
        refine Returns.behind fun made => ?_
        cases made with
        | none => exact echoes_errorResponse h request _
        | some r => exact echoes_routeRequest h el request pp.1 pp.2 what r

theorem echoes_handleMethod (p : Addr) (request : Json) (methodName : String) :
    Returns (Echoes request) (handleMethod (T := T) env p request methodName) := by
  unfold handleMethod
  refine Returns.ite (echoes_changeState h p request) ?_
  refine Returns.ite (echoes_setOrCall h p request .state) ?_
  refine Returns.ite (echoes_setOrCall h p request .method) ?_
  refine Returns.ite (echoes_addElementToPeer h p request) ?_
  refine Returns.ite (echoes_removeElementFromPeer h p request) ?_
  refine Returns.ite (echoes_processFetch h p request) ?_
  refine Returns.ite (echoes_removeFetchFromPeer h p request) ?_
  refine Returns.ite (echoes_getElements h p request) ?_
  refine Returns.ite (echoes_configPeer h p request) ?_
  refine Returns.ite (echoes_handleInfo h request) ?_
  refine Returns.ite (echoes_handleAuthentication h p request) ?_
  refine Returns.ite (echoes_handleChangePassword h p request) ?_
  exact echoes_errorResponse h request _

theorem echoes_handlerOf (p : Addr) (request : Json) : Returns (Echoes request) (handlerOf (T := T) env p request) := by
  unfold handlerOf
  cases request.getObjectItem "method" with
  | none => exact echoes_errorResponse h request _
  | some method =>
    cases method with
    | str methodName => exact echoes_handleMethod h p request methodName
    | _ => exact echoes_errorResponse h request _

end

/-! ## answering -/

section
variable {T : Type} {env : Env}

/-- the messages after `b`, each of them the response `about` with the id `id` -/
def SendsId (id : Option Json) (about : About) (b b' : Broker T) : Prop :=
  ∃ l, b'.sent = b.sent ++ l ∧ ∀ m ∈ l, m.about = about ∧ Carries id m.msg

theorem sendsId_none {id : Option Json} {about : About} {b b' : Broker T} (h : b'.sent = b.sent) :
    SendsId id about b b' := ⟨[], by rw [h, List.append_nil], by simp⟩

theorem formatAndSendResponse_id {p : Addr} {id : Option Json} {about : About} {response : Json} {b b' : Broker T}
    {ok : Bool} (hid : Carries id response) (h : formatAndSendResponse env p about response b = some (ok, b')) :
    SendsId id about b b' := by
  obtain ⟨n, l, rfl, _, hm⟩ := formatAndSendResponse_sent h
  refine ⟨l, rfl, fun m hml => ⟨(hm m hml).2.1, ?_⟩⟩
  rw [(hm m hml).2.2.2]
  exact hid

theorem sendResponse_id {p : Addr} {id : Option Json} {json : Option Json} {b b' : Broker T} {ret : Bool}
    (hid : ∀ response, json = some response → Carries id response) (h : sendResponse env p json b = some (ret, b')) :
    SendsId id (.response b.received) b b' := by
  cases json with
  | none =>
    obtain ⟨_, rfl⟩ := Prog.pure_some h
    exact sendsId_none rfl
  | some response =>
    obtain ⟨received, b1, h1, h2⟩ := Prog.bind_some h
    obtain ⟨rfl, rfl⟩ := Prog.read_some h1
    exact formatAndSendResponse_id (hid response rfl) h2

theorem answerWithError_id (hc : env.CopiesKeys) {p : Addr} {about : About} {id : Option Json} {reason : String}
    {b b' : Broker T} {u : Unit} (h : answerWithError env p about id reason b = some (u, b')) :
    SendsId id about b b' := by
  cases id with
  | none =>
    obtain ⟨_, rfl⟩ := Prog.pure_some h
    exact sendsId_none rfl
  | some id =>
    obtain ⟨response, b1, h1, h2⟩ := Prog.bind_some h
    obtain ⟨hmade, rfl⟩ := allocating_some h1
    cases response with
    | none =>
      obtain ⟨_, rfl⟩ := Prog.pure_some h2
      exact sendsId_none rfl
    | some response =>
      obtain ⟨ok, b2, h3, h4⟩ := Prog.bind_some h2
      obtain ⟨_, rfl⟩ := Prog.pure_some h4
      obtain ⟨l, hl, hm⟩ := formatAndSendResponse_id (createErrorResponse_carries hc hmade.symm) h3
      exact ⟨l, hl, hm⟩

theorem clearRoutingEntry_id [HashTable T] (hc : env.CopiesKeys) {r : Addr} {b b' : Broker T} {u : Unit}
    (h : clearRoutingEntry env r b = some (u, b')) :
    ∃ q, b.requests r = some q ∧ SendsId q.originRequestId (.response q.origin) b b' := by
  obtain ⟨q, b1, h1, h2⟩ := Prog.bind_some h
  obtain ⟨hq, rfl⟩ := Prog.deref_some h1
  obtain ⟨ok, b2, h3, h4⟩ := Prog.bind_some h2
  obtain ⟨t, rfl, _⟩ := timerCancel_some h3
  obtain ⟨_, b3, h5, h6⟩ := Prog.bind_some h4
  obtain ⟨l, hl, hm⟩ := answerWithError_id hc h5
  obtain rfl := Prog.update_some h6
  exact ⟨q, hq, l, hl, hm⟩

theorem requestTimeoutHandler_id [HashTable T] (hc : env.CopiesKeys) {r : Addr} {b b' : Broker T} {u : Unit}
    (h : requestTimeoutHandler env r b = some (u, b')) :
    ∃ q, b.requests r = some q ∧ SendsId q.originRequestId (.response q.origin) b b' := by
  obtain ⟨q, b1, h1, h2⟩ := Prog.bind_some h
  obtain ⟨hq, rfl⟩ := Prog.deref_some h1
  obtain ⟨_, b2, h3, h4⟩ := Prog.bind_some h2
  obtain ⟨_, rfl⟩ := Prog.require_some h3
  obtain ⟨_, b3, h5, h6⟩ := Prog.bind_some h4
  obtain ⟨_, rfl⟩ := routeTableRemove_some h5
  obtain ⟨_, b4, h7, h8⟩ := Prog.bind_some h6
  obtain ⟨_, b5, h9, h10⟩ := Prog.bind_some h8
  obtain rfl := Prog.update_some h9
  obtain rfl := Prog.update_some h10
  obtain ⟨l, hl, hm⟩ := answerWithError_id hc h7
  exact ⟨q, hq, l, hl, hm⟩

end

/-! ## runs -/

/-- Each answer carries the id of the object that it answers. -/
def Echoed {T : Type} (L : List (Addr × Json)) (b : Broker T) : Prop :=
  ∀ m ∈ b.sent, ∀ s, m.about = .response s → ∃ x, L[s]? = some x ∧ Carries (x.2.getObjectItem "id") m.msg

section
variable {T : Type} {L : List (Addr × Json)} {b b' : Broker T}

theorem Echoed.append (h : Echoed L b) (M : List (Addr × Json)) : Echoed (L ++ M) b := by
  intro m hm s hs
  obtain ⟨x, hx, hid⟩ := h m hm s hs
  exact ⟨x, Traced.getElem?_of_append hx, hid⟩

theorem Echoed.congr (h : Echoed L b) (hs : b'.sent = b.sent) : Echoed L b' := by
  intro m hm
  rw [hs] at hm
  exact h m hm

theorem Echoed.of_onlyStore (h : Echoed L b) (hs : OnlyStore b b') : Echoed L b' := by
  obtain ⟨l, hl, hn⟩ := hs.sent
  intro m hm s ha
  rw [hl] at hm
  rcases List.mem_append.mp hm with hm | hm
  · exact h m hm s ha
  · have hn' := (hn m hm).1
    rw [ha] at hn'
    cases hn'

/-- The `s`-th object is answered. -/
theorem Echoed.answer (h : Echoed L b) {s : Nat} {x : Addr × Json} (hx : L[s]? = some x)
    (hs : SendsId (x.2.getObjectItem "id") (.response s) b b') : Echoed L b' := by
  obtain ⟨l, hl, hid⟩ := hs
  intro m hm s' ha
  rw [hl] at hm
  rcases List.mem_append.mp hm with hm | hm
  · exact h m hm s' ha
  · obtain ⟨habout, hcarries⟩ := hid m hm
    obtain rfl := About.response.inj (habout.symm.trans ha)
    exact ⟨x, hx, hcarries⟩

variable [HashTable T] {env : Env}

theorem echoed_freePeerResources (hc : env.CopiesKeys) (p : Addr) :
    Keeps (fun b => Traced L b ∧ Echoed L b) (freePeerResources (T := T) env p) := by
  refine keeps_freePeerResources (fun r => ?_) (fun b b' hs hI => ⟨hI.1.of_onlyStore hs, hI.2.of_onlyStore hs⟩)
    (fun b b' h1 h2 h3 hI => ⟨hI.1.congr h1 h3, hI.2.congr h3⟩) p
  intro b u b' h hI
  obtain ⟨q, hq, hid⟩ := clearRoutingEntry_id hc h
  obtain ⟨request, hx, _, horigin⟩ := hI.1.live r q hq
  rw [horigin] at hid
  exact ⟨traced_clearRoutingEntry L env r b u b' h hI.1, hI.2.answer hx hid⟩

/-- The handler of an object sends no answer itself. -/
theorem echoed_handlerOf {p : Addr} {request : Json} {res : Response} (hI : Echoed L b)
    (h : handlerOf env p request b = some (res, b')) : Echoed L b' := by
  cases hw : request.routes with
  | none =>
    rcases does_handlerOf _ hw _ _ _ h with hs | hs
    · exact hI.of_onlyStore hs
    · exact hI.congr hs.sent
  | some what =>
    rw [handlerOf_of_routes _ hw] at h
    cases setOrCall_some h with
    | sent json n hid rc hrc hs ht hr ho hj =>
      intro m hm s ha
      rcases List.mem_append.mp hm with hm | hm
      · exact hI m hm s ha
      · rw [List.mem_singleton.mp hm] at ha
        cases ha
    | _ => exact hI.congr rfl

theorem echoed_stepped (hc : env.CopiesKeys) {e : Event} (hT : Traced L b) (hI : Echoed L b)
    (hL : b.received = L.length)
    (h : Stepped env b e b') : Echoed (L ++ e.rpcs) b' := by
  have live : ∀ r q, b.requests r = some q → ∃ x, (L ++ e.rpcs)[q.origin]? = some x ∧
      q.originRequestId = x.2.getObjectItem "id" := fun r q hq => by
    obtain ⟨request, hx, _, horigin⟩ := (hT.append e.rpcs).live r q hq
    exact ⟨_, hx, horigin⟩
  have hI' := hI.append e.rpcs
  cases h with
  | notConnected p connection isLocal n => exact hI'.congr rfl
  | connected p connection isLocal n hp => exact hI'.congr rfl
  | answered p request res ret b1 b2 hp hr h1 h2 =>
    have hnumber : b1.received = L.length := by
      obtain ⟨_, n, l, rfl, _⟩ := sendResponse_some h2
      have hlen : b1.received + 1 = (L ++ [(p, request)]).length :=
        (traced_stepped hT hL (.answered p request res ret b1 _ hp hr h1 h2)).2
      simpa using hlen
    have hid := sendResponse_id (echoes_handlerOf hc p request b res b1 h1) h2
    rw [hnumber] at hid
    exact ((echoed_handlerOf hI h1).append _).answer (getElem?_length L (p, request)) hid
  | response p request response resultType ret b1 hp hr h1 =>
    rcases handleRoutingResponse_some h1 with rfl | ⟨id, _, ⟨_, rfl⟩ | ⟨r, q, n, l, _, hq, hl, hm, rfl⟩⟩
    · exact hI'.congr rfl
    · exact hI'.congr rfl
    · obtain ⟨x, hx, horigin⟩ := live r q hq
      have hid : SendsId (x.2.getObjectItem "id") (.response q.origin) b { b with sent := b.sent ++ l } := by
        refine ⟨l, rfl, fun m hml => ⟨(hl.about m hml).2, ?_⟩⟩
        obtain ⟨id, k, hid, hmade⟩ := hm m hml
        rw [← horigin, hid]
        exact createResultResponse_carries hc hmade
      exact (hI'.answer hx hid).congr rfl
  | timeout r b1 ht h1 =>
    obtain ⟨q, hq, hid⟩ := requestTimeoutHandler_id hc h1
    obtain ⟨x, hx, horigin⟩ := live r q hq
    rw [horigin] at hid
    exact hI'.answer hx hid
  | disconnected p b1 hp h1 => exact (echoed_freePeerResources hc p _ _ _ h1 ⟨hT, hI⟩).2.append _

theorem echoed_run {platform : Platform} {s b : Broker T} {l : List Input} (h0 : s.IsStart platform)
    (hc : Along (step platform) (fun _ i => (i.env platform).CopiesKeys) s l)
    (h : run (step platform) s l = some b) : Echoed (rpcs l) b := by
  obtain ⟨allGroups, userData, passwordFile, rfl⟩ := h0
  have hI : (Traced (rpcs l) b ∧ b.received = (rpcs l).length) ∧ Echoed (rpcs l) b := by
    refine run_history (I := fun l b => (Traced (rpcs l) b ∧ b.received = (rpcs l).length) ∧ Echoed (rpcs l) b)
      (c := fun _ i => (i.env platform).CopiesKeys) (fun l b i b' hI hc hs => ?_) ⟨⟨⟨?_, ?_⟩, rfl⟩, ?_⟩ hc h
    · rw [rpcs_snoc]
      have hT : Traced (rpcs l) { b with calls := 0 } := hI.1.1.congr rfl rfl
      have hE : Echoed (rpcs l) { b with calls := 0 } := hI.2.congr rfl
      exact ⟨traced_stepped hT hI.1.2 (step_cases hs), echoed_stepped hc hT hE hI.1.2 (step_cases hs)⟩
    · intro r q hq
      cases hq
    · intro m hm
      cases hm
    · intro m hm
      cases hm
  exact hI.2

/-! ## requests with different ids -/

theorem responseId_eq_iff {id j : Json} (h : responseId id = some j) : j = id ↔ id.IsExactId := by
  constructor
  · rintro rfl
    cases j with
    | str s => exact trivial
    | num q =>
      have hq : ((Json.valueInt q : Int) : Rat) = q := Json.num.inj (Option.some.inj h)
      refine ⟨Json.valueInt q, hq.symm, ?_, ?_⟩ <;>
        (unfold Json.valueInt Json.intMin Json.intMax; omega)
    | _ => cases h
  · intro hex
    rw [responseId_of_exact hex] at h
    exact (Option.some.inj h).symm

/-- After the run `l` the message `m` answers an object with the id `id`. -/
def AnswersId (l : List Input) (b : Broker T) (id : Json) (m : Sent) : Prop :=
  m ∈ b.sent ∧ ∃ n p request, m.about = .response n ∧ (rpcs l)[n]? = some (p, request) ∧
    request.getObjectItem "id" = some id

theorem Echoed.msg_id {l : List Input} (h : Echoed (rpcs l) b) {id : Json} {m : Sent} (hm : AnswersId l b id m) :
    m.msg.getObjectItem "id" = responseId id ∧ (responseId id).isSome = true := by
  obtain ⟨hm, n, p, request, habout, hn, hid⟩ := hm
  obtain ⟨x, hx, i, j, hi, hj, hmsg⟩ := h m hm n habout
  obtain rfl : x = (p, request) := Option.some.inj (hx.symm.trans hn)
  obtain rfl : i = id := Option.some.inj (hi.symm.trans hid)
  rw [hmsg, hj]
  exact ⟨rfl, rfl⟩

/-- the ids of the responses in a run -/
structure ResponseIds (l : List Input) (b : Broker T) : Prop where
  own : ∀ id m, AnswersId l b id m → (m.msg.getObjectItem "id" = some id ↔ id.IsExactId)
  apart : ∀ id m id' m', AnswersId l b id m → AnswersId l b id' m' → id.IsExactId → id'.IsExactId → id ≠ id' →
    m.msg.getObjectItem "id" ≠ m'.msg.getObjectItem "id"

/-- Where the copies of keys can be allocated, a response has the id of its request exactly if this is a string
or an integer that `int` holds, and the responses to two such requests with different ids have different ids. -/
theorem response_ids {platform : Platform} {s b : Broker T} {l : List Input} (h0 : s.IsStart platform)
    (hc : Along (step platform) (fun _ i => (i.env platform).CopiesKeys) s l)
    (h : run (step platform) s l = some b) : ResponseIds l b := by
  have hown : ∀ id m, AnswersId l b id m → (m.msg.getObjectItem "id" = some id ↔ id.IsExactId) := fun id m hm => by
    obtain ⟨hmsg, hid⟩ := (echoed_run h0 hc h).msg_id hm
    obtain ⟨j, hj⟩ := Option.isSome_iff_exists.mp hid
    rw [hmsg, hj, Option.some.injEq]
    exact responseId_eq_iff hj
  refine ⟨hown, fun id m id' m' hm hm' hex hex' hne e => hne ?_⟩
  rw [(hown id m hm).mpr hex, (hown id' m' hm').mpr hex'] at e
  exact Option.some.inj e

end

/-! ## ids beyond `int` -/

/-- Peer 1 sends two requests with the given ids. -/
def twoRequests (id id' : Json) : List Input :=
  [.connect 1 .websocket true, .rpc 1 (.request (some id) "info" []), .rpc 1 (.request (some id') "info" [])].map
    Event.good

theorem twoRequests_rpcs (id id' : Json) : rpcs (twoRequests id id')
    = [(1, .request (some id) "info" []), (1, .request (some id') "info" [])] := rfl

theorem twoRequests_copiesKeys (id id' : Json) : Along (step Platform.small)
    (fun _ i => (i.env Platform.small).CopiesKeys)
    (Broker.start (T := SlotTable) Platform.small.config none none []) (twoRequests id id') := by
  refine Along.of_mem (fun i hi _ => ?_) _
  obtain ⟨e, _, rfl⟩ := List.mem_map.mp hi
  exact fun _ => rfl

/-- both requests are answered -/
def bothAnswered (b : Broker SlotTable) : Bool :=
  b.sent[0]?.any fun m => b.sent[1]?.any fun m' => m.about == .response 0 && m'.about == .response 1

theorem twoRequests_answers (id id' : Json)
    (h : (run (step Platform.small) (Broker.start (T := SlotTable) Platform.small.config none none [])
      (twoRequests id id')).any bothAnswered = true) :
    ∃ b m m', run (step Platform.small) (Broker.start (T := SlotTable) Platform.small.config none none [])
        (twoRequests id id') = some b ∧
      AnswersId (twoRequests id id') b id m ∧ AnswersId (twoRequests id id') b id' m' := by
  obtain ⟨b, hb, h⟩ := (Option.any_eq_true _ _).mp h
  obtain ⟨m, hm, h⟩ := (Option.any_eq_true _ _).mp h
  obtain ⟨m', hm', h⟩ := (Option.any_eq_true _ _).mp h
  obtain ⟨h0, h1⟩ := (Bool.and_eq_true _ _).mp h
  have hid : ∀ id : Json, (Json.request (some id) "info" []).getObjectItem "id" = some id := fun id =>
    Json.getObjectItem_first (by decide) _ _
  exact ⟨b, m, m', hb, ⟨List.mem_of_getElem? hm, 0, 1, _, beq_iff_eq.mp h0, by rw [twoRequests_rpcs]; rfl, hid id⟩,
    ⟨List.mem_of_getElem? hm', 1, 1, _, beq_iff_eq.mp h1, by rw [twoRequests_rpcs]; rfl, hid id'⟩⟩

/-- The ids 1 and -7 are kept. -/
theorem smallIds_kept : ∃ (b : Broker SlotTable) (m m' : Sent),
    run (step Platform.small) (Broker.start Platform.small.config none none []) (twoRequests (.num 1) (.num (-7)))
      = some b ∧ AnswersId (twoRequests (.num 1) (.num (-7))) b (.num 1) m ∧
    AnswersId (twoRequests (.num 1) (.num (-7))) b (.num (-7)) m' ∧
    m.msg.getObjectItem "id" = some (.num 1) ∧ m'.msg.getObjectItem "id" = some (.num (-7)) ∧
    m.msg.getObjectItem "id" ≠ m'.msg.getObjectItem "id" := by
  obtain ⟨b, m, m', hb, hm, hm'⟩ := twoRequests_answers (.num 1) (.num (-7)) (by decide +kernel)
  have hids := response_ids (isStart_start _ none none []) (twoRequests_copiesKeys _ _) hb
  have hex : (Json.num 1).IsExactId := ⟨1, by simp, by decide, by decide⟩
  have hex' : (Json.num (-7)).IsExactId := ⟨-7, by simp, by decide, by decide⟩
  have hne : (Json.num 1) ≠ .num (-7) := fun e => absurd (Json.num.inj e) (by decide)
  exact ⟨b, m, m', hb, hm, hm', (hids.own _ m hm).mpr hex, (hids.own _ m' hm').mpr hex',
    hids.apart _ m _ m' hm hm' hex hex' hne⟩

/-- The requests 2147483648 and 2147483649 are both answered with the id 2147483647. -/
theorem largeIds_confused : ∃ (b : Broker SlotTable) (m m' : Sent),
    run (step Platform.small) (Broker.start Platform.small.config none none [])
      (twoRequests (.num 2147483648) (.num 2147483649)) = some b ∧
    AnswersId (twoRequests (.num 2147483648) (.num 2147483649)) b (.num 2147483648) m ∧
    AnswersId (twoRequests (.num 2147483648) (.num 2147483649)) b (.num 2147483649) m' ∧
    m.msg.getObjectItem "id" = some (.num 2147483647) ∧
    m'.msg.getObjectItem "id" = some (.num 2147483647) := by
  obtain ⟨b, m, m', hb, hm, hm'⟩ := twoRequests_answers (.num 2147483648) (.num 2147483649) (by decide +kernel)
  have hechoed := echoed_run (isStart_start _ none none []) (twoRequests_copiesKeys _ _) hb
  have hsaturated : responseId (.num 2147483648) = some (.num 2147483647) ∧
      responseId (.num 2147483649) = some (.num 2147483647) := ⟨rfl, rfl⟩
  exact ⟨b, m, m', hb, hm, hm', (hechoed.msg_id hm).1.trans hsaturated.1, (hechoed.msg_id hm').1.trans hsaturated.2⟩

end Cjet
