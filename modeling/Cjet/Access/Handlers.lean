import Cjet.Access.Sides
import Cjet.Access.Groups
import Cjet.Store.Chain

/-!
# Elements and routed requests, side by side

* `SameButValue`   two requests that differ at most in the value for the hidden path;
* `sim_...`        the handlers of `Cjet.Model.Element`, `Cjet.Model.Router` and `Cjet.Model.Peer`.
-/

set_option linter.unusedVariables false
set_option linter.unusedSectionVars false

namespace Cjet
open Stateful Alloc

/-! ## requests with another value -/

/-- the value is another one at most where the path is the hidden one -/
structure SameParams (hidden : String) (params params' : Json) : Prop where
  item : ∀ name, sameKey name "value" = false → params'.getObjectItem name = params.getObjectItem name
  value : Option.Rel (fun v v' => v' = v ∨ getPathFromParams params = .ok hidden) (params.getObjectItem "value")
    (params'.getObjectItem "value")

structure SameButValue (hidden : String) (request request' : Json) : Prop where
  item : ∀ name, sameKey name "params" = false → request'.getObjectItem name = request.getObjectItem name
  params : Option.Rel (SameParams hidden) (request.getObjectItem "params") (request'.getObjectItem "params")

theorem SameParams.refl (hidden : String) (params : Json) : SameParams hidden params params := by
  refine ⟨fun _ _ => rfl, ?_⟩
  cases params.getObjectItem "value" with
  | none => exact .none
  | some v => exact .some (Or.inl rfl)

theorem SameButValue.refl (hidden : String) (request : Json) : SameButValue hidden request request := by
  refine ⟨fun _ _ => rfl, ?_⟩
  cases request.getObjectItem "params" with
  | none => exact .none
  | some params => exact .some (.refl hidden params)

theorem SameButValue.id {hidden : String} {request request' : Json} (h : SameButValue hidden request request') :
    request'.getObjectItem "id" = request.getObjectItem "id" := h.item "id" (by decide)

theorem SameParams.path {hidden : String} {params params' : Json} (h : SameParams hidden params params') :
    getPathFromParams params' = getPathFromParams params := by
  unfold getPathFromParams
  rw [h.item "path" (by decide)]

theorem SameParams.isSome {hidden : String} {params params' : Json} (h : SameParams hidden params params') :
    (params'.getObjectItem "value").isSome = (params.getObjectItem "value").isSome := by
  have hv := h.value
  generalize params.getObjectItem "value" = v, params'.getObjectItem "value" = v' at hv
  cases hv <;> rfl

theorem SameParams.value_eq {hidden : String} {params params' : Json} (h : SameParams hidden params params') :
    getPathFromParams params = .ok hidden ∨ params'.getObjectItem "value" = params.getObjectItem "value" := by
  have hv := h.value
  generalize params.getObjectItem "value" = v, params'.getObjectItem "value" = v' at hv
  cases hv with
  | none => exact Or.inr rfl
  | some hv =>
    rcases hv with e | hp
    · exact Or.inr (by rw [e])
    · exact Or.inl hp

/-- the parameters and the path in both requests -/
theorem SameButValue.paramsAndPath {hidden : String} {request request' : Json}
    (h : SameButValue hidden request request') :
    Agree (fun r r' => SameParams hidden r.1 r'.1 ∧ r'.2 = r.2 ∧ getPathFromParams r.1 = .ok r.2)
      (getParamsAndPath request) (getParamsAndPath request') := by
  unfold getParamsAndPath getParams
  have hparams := h.params
  cases hp : request.getObjectItem "params" with
  | none =>
    rw [hp] at hparams
    cases hp' : request'.getObjectItem "params" with
    | none => exact .error _
    | some params' => rw [hp'] at hparams; cases hparams
  | some params =>
    rw [hp] at hparams
    cases hp' : request'.getObjectItem "params" with
    | none => rw [hp'] at hparams; cases hparams
    | some params' =>
      rw [hp'] at hparams
      cases hparams with
      | some hsame =>
        show Agree _ (getPathFromParams params >>= fun path => pure (params, path))
          (getPathFromParams params' >>= fun path => pure (params', path))
        rw [hsame.path]
        cases hpath : getPathFromParams params with
        | error err => exact .error err
        | ok path => exact .ok _ _ ⟨hsame, rfl, hpath⟩

/-- the path and the value of a change -/
theorem SameButValue.pathAndValue {hidden : String} {request request' : Json}
    (h : SameButValue hidden request request') :
    Agree (fun r r' => r'.1 = r.1 ∧ (r.1 = hidden ∨ r'.2 = r.2)) (getPathAndValue request)
      (getPathAndValue request') := by
  unfold getPathAndValue
  have hboth := h.paramsAndPath
  cases hg : getParamsAndPath request with
  | error err =>
    rw [hg] at hboth
    cases hg' : getParamsAndPath request' with
    | error err' => rw [hg'] at hboth; cases hboth; exact .error err
    | ok r' => rw [hg'] at hboth; cases hboth
  | ok r =>
    rw [hg] at hboth
    cases hg' : getParamsAndPath request' with
    | error err' => rw [hg'] at hboth; cases hboth
    | ok r' =>
      rw [hg'] at hboth
      obtain ⟨params, path⟩ := r
      obtain ⟨params', path'⟩ := r'
      cases hboth with
      | ok _ _ hboth =>
        obtain ⟨hsame, e1, hpath⟩ := hboth
        have hvalue := hsame.value_eq
        rw [hpath] at hvalue
        have hsome := hsame.isSome
        simp only [bind, Except.bind]
        cases hv : params.getObjectItem "value" with
        | none =>
          cases hv' : params'.getObjectItem "value" with
          | none => exact .error _
          | some v' => rw [hv, hv'] at hsome; cases hsome
        | some v =>
          cases hv' : params'.getObjectItem "value" with
          | none => rw [hv, hv'] at hsome; cases hsome
          | some v' =>
            rw [hv, hv'] at hvalue
            refine .ok _ _ ⟨e1, ?_⟩
            rcases hvalue with e2 | e2
            · exact Or.inl (by cases e2; rfl)
            · exact Or.inr (Option.some.inj e2)

section
variable {T : Type} [HashTable T] {hidden : String} {p : Addr} {all : Option (List String)} {groups : GroupSet}
  {active : Prop} {env : Env}

/-! ## add -/

/-- the checks of an add, with another value -/
theorem agree_checkAdd {request request' : Json} (h : SameButValue hidden request request') (b : Broker T) (q : Addr) :
    Agree (fun r r' => Alike hidden r.1 r'.1 ∧ r'.2 = r.2) (checkAdd env b q request) (checkAdd env b q request') := by
  unfold checkAdd
  have hboth := h.paramsAndPath
  cases hg : getParamsAndPath request with
  | error err =>
    rw [hg] at hboth
    cases hg' : getParamsAndPath request' with
    | error err' => rw [hg'] at hboth; cases hboth; exact .error (some err)
    | ok r' => rw [hg'] at hboth; cases hboth
  | ok r =>
    rw [hg] at hboth
    cases hg' : getParamsAndPath request' with
    | error err' => rw [hg'] at hboth; cases hboth
    | ok r' =>
      rw [hg'] at hboth
      obtain ⟨params, path⟩ := r
      obtain ⟨params', path'⟩ := r'
      cases hboth with
      | ok _ _ hboth =>
        obtain ⟨hsame, rfl, hpath⟩ := hboth
        have hflags : getFetchOnlyFromParams params' = getFetchOnlyFromParams params := by
          unfold getFetchOnlyFromParams
          rw [hsame.item "fetchOnly" (by decide)]
        show Agree _ ((getFetchOnlyFromParams params).mapError some >>= _)
          ((getFetchOnlyFromParams params').mapError some >>= _)
        rw [hflags, hsame.item "timeout" (by decide), hsame.item "access" (by decide)]
        cases getFetchOnlyFromParams params with
        | error err => exact .error (some err)
        | ok flags =>
          show Agree _ (getTimeoutInNsec _ _ _ >>= _) (getTimeoutInNsec _ _ _ >>= _)
          cases getTimeoutInNsec env.toPlatform (params.getObjectItem "timeout")
            (convertSecondsToNsec env.toPlatform env.config.routedMessagesTimeout) with
          | error err => exact .error err
          | ok timeoutNsec =>
            by_cases hex : (HashTable.get b.elementTable path').isSome = true
            · show Agree _ (if _ then _ else _) (if _ then _ else _)
              rw [if_pos hex, if_pos hex]
              exact .error _
            · show Agree _ (if _ then _ else _) (if _ then _ else _)
              rw [if_neg hex, if_neg hex]
              refine .ok _ _ ⟨?_, rfl⟩
              refine .mk (params'.getObjectItem "value") ?_ hsame.isSome
              rcases hsame.value_eq with e2 | e2
              · have hpath : getPathFromParams params = .ok path' := hpath
                rw [hpath] at e2
                exact Or.inl (by cases e2; rfl)
              · exact Or.inr e2

theorem inPar_allocElementParts {el el' : Element} (h : Alike hidden el el') :
    InPar Eq (allocElementParts env el) (allocElementParts env el') := by
  obtain ⟨value, _, hs⟩ := h
  unfold allocElementParts
  refine InPar.bind_same _ fun ok => InPar.ite_same _ (InPar.bind_same _ fun path => ?_) (InPar.refl _)
  cases path with
  | none => exact InPar.refl _
  | some path =>
    dsimp only
    cases value with
    | none =>
      cases hv : el.value with
      | none => exact InPar.refl _
      | some v => rw [hv] at hs; cases hs
    | some v' =>
      cases hv : el.value with
      | none => rw [hv] at hs; cases hs
      | some v =>
        refine InPar.bind (inPar_tryCall (V := fun _ _ => True) trivial) fun a b hab => ?_
        cases hab with
        | none => exact InPar.refl _
        | some _ => exact InPar.refl _

theorem agree_fillAccess {el el' : Element} (h : Alike hidden el el') (access : Option Json) :
    Agree (Alike hidden) (fillAccess all access el) (fillAccess all access el') := by
  obtain ⟨value, hp, hs⟩ := h
  unfold fillAccess
  cases fillFetchGroups all access with
  | error err => exact .error err
  | ok fetchGroups =>
    have hstate : isState { el with value := value } = isState el := hs
    simp only [hstate]
    cases isState el with
    | true =>
      simp only [if_true]
      cases fillSetGroups all access with
      | error err => exact .error err
      | ok setGroups =>
        exact .ok _ _ (@Alike.mk hidden { el with fetchGroups := fetchGroups, setGroups := setGroups } value hp hs)
    | false =>
      simp only [Bool.false_eq_true, if_false]
      cases fillCallGroups all access with
      | error err => exact .error err
      | ok callGroups =>
        exact .ok _ _ (@Alike.mk hidden { el with fetchGroups := fetchGroups, callGroups := callGroups } value hp hs)

/-- alike elements, the first of them without access for `p` -/
def AlikeNew (hidden : String) (all : Option (List String)) (groups : GroupSet) (active : Prop) (el el' : Element) :
    Prop :=
  Alike hidden el el' ∧ Slots.entries el.fetcherTable = [] ∧
    (el.path = hidden → active → hasAccess all el.fetchGroups groups = false)

theorem simAt_initElement {request request' : Json} (hr : SameButValue hidden request request') {q : Addr}
    {s t : Broker T} (h : Hiding hidden p all groups active s t)
    (hadd : ∀ el, AddAccepted env s q request el → el.path = hidden → active →
      hasAccess all el.fetchGroups groups = false) :
    SimAt (Hiding hidden p all groups active) (Agree (AlikeNew hidden all groups active))
      (initElement env q request) (initElement env q request') s t := by
  have hcheck : checkAdd env t q request' = checkAdd env s q request' :=
    h.same (f := fun b => checkAdd env b q request') fun _ _ _ => rfl
  have hgroups : t.allGroups = s.allGroups := h.same (f := fun b => b.allGroups) fun _ _ _ => rfl
  unfold initElement
  refine SimAt.of_some (Prog.read_apply _ s) (Prog.read_apply _ t) ?_
  simp only [id_eq]
  rw [hcheck]
  have hagree : Agree _ (checkAdd env s q request) (checkAdd env s q request') := agree_checkAdd hr s q
  generalize hc : checkAdd env s q request = c, checkAdd env s q request' = c' at hagree
  cases hagree with
  | error err => exact Sim.pure (.error err) s t h
  | ok r r' hrr =>
    obtain ⟨el, access⟩ := r
    obtain ⟨el', access'⟩ := r'
    obtain ⟨halike, e1⟩ := hrr
    have e1 : access' = access := e1
    subst e1
    refine Sim.bind (sim_allocating (inPar_allocElementParts halike)) (fun a _ e1 => ?_) s t h
    subst e1
    cases a with
    | error err => exact Sim.pure (.error (some err))
    | ok u =>
      dsimp only
      rw [hgroups]
      have hagree : Agree _ (fillAccess s.allGroups access' el) (fillAccess s.allGroups access' el') :=
        agree_fillAccess halike access'
      generalize hf : fillAccess s.allGroups access' el = f, fillAccess s.allGroups access' el' = f' at hagree
      cases hagree with
      | error err => exact Sim.bind (sim_errorResponse hr.id err) fun _ _ _ => Sim.pure (.error _)
      | ok el2 el2' halike2 =>
        have hacc : AddAccepted env s q request el2 := ⟨el, access', hc, hf⟩
        exact Sim.pure (.ok el2 el2' ⟨halike2, hacc.facts.2.1, hadd el2 hacc⟩)

/-- the new element gets the same address in both runs -/
theorem sim_newElement {el el' : Element} (h : AlikeNew hidden all groups active el el') :
    Sim (Hiding (T := T) hidden p all groups active) Eq (newElement el) (newElement el') := by
  intro s t hl
  obtain ⟨halike, hempty, hacc⟩ := h
  have hfresh : t.fresh = s.fresh := hl.same (f := fun b => b.fresh) fun _ _ _ => rfl
  have hsec : Secluded hidden p all groups active s el := fun hp => by
    refine ⟨hacc hp, fun f hf => ?_⟩
    rw [hempty] at hf
    cases hf
  have hrel : Option.Rel (Alike hidden) (some el) (some el') := .some halike
  have h1 := locked_update hl s.fresh hrel fun el2 e1 => by
    obtain rfl := Option.some.inj e1
    exact hsec
  refine Or.inr ⟨s.fresh, { s with elements := Function.update s.elements s.fresh (some el), fresh := s.fresh + 1 },
    t.fresh, { t with elements := Function.update t.elements t.fresh (some el'), fresh := t.fresh + 1 },
    rfl, rfl, hfresh.symm, ?_⟩
  rw [hfresh]
  have hg := h1.guard
  refine Plain.locked (f := fun b : Broker T => { b with fresh := s.fresh + 1 })
    ⟨fun _ _ _ => rfl, fun _ => rfl, fun _ => rfl⟩ h1 ?_
  refine ⟨⟨fun e el2 hel hp f hf => ?_⟩, hg.allGroups, hg.fetchGroups, hg.apart, hg.connected, fun f hf => ?_⟩
  · obtain ⟨h2, h3⟩ := hg.strangers e el2 hel hp f hf
    exact ⟨Nat.lt_succ_of_lt h2, h3⟩
  · exact hg.unused f (Nat.le_of_succ_le hf)

theorem sim_freeElement (e : Addr) :
    Sim (Hiding (T := T) hidden p all groups active) Eq (freeElement e) (freeElement e) :=
  Sim.update fun s t h => locked_update h e .none fun el e1 => by cases e1

theorem sim_elementTablePut (path : String) (e : Addr) :
    Sim (Hiding (T := T) hidden p all groups active) Eq (elementTablePut path e) (elementTablePut path e) := by
  intro s t h
  have htable : t.elementTable = s.elementTable := h.same (f := fun b => b.elementTable) fun _ _ _ => rfl
  refine Or.inr ⟨_, _, _, _, rfl, rfl, by rw [htable], ?_⟩
  exact Plain.locked (f := fun b : Broker T => { b with elementTable := (HashTable.put b.elementTable path e).2 })
    ⟨fun _ _ _ => rfl, fun _ => rfl, fun _ => rfl⟩ h (Guard.congr (p := p) (s := s) ⟨rfl, rfl, rfl, rfl, rfl⟩ h.guard)

theorem sim_publishElement (hsend : env.SendOk) {request request' : Json}
    (hid : request'.getObjectItem "id" = request.getObjectItem "id") (q : Addr) {el el' : Element}
    (hpath : el'.path = el.path) (e : Addr) : Sim (Hiding (T := T) hidden p all groups active) Eq
      (publishElement env q request el e) (publishElement env q request' el' e) := by
  unfold publishElement
  rw [hpath]
  refine Sim.bind (sim_findFetchersForElement hsend e) fun ok _ e1 => ?_
  subst e1
  refine Sim.ite Iff.rfl (fun _ => ?_) fun _ =>
    Sim.bind (sim_freeElement e) fun _ _ _ => sim_errorResponse hid _
  refine Sim.bind (sim_elementTablePut el.path e) fun ok _ e1 => ?_
  subst e1
  refine Sim.ite Iff.rfl (fun _ => ?_) fun _ =>
    Sim.bind (sim_freeElement e) fun _ _ _ => sim_errorResponse hid _
  refine Sim.bind (sim_update ⟨fun _ _ _ => rfl, fun _ => rfl, fun _ => rfl⟩ fun _ => ⟨rfl, rfl, rfl, rfl, rfl⟩)
    fun _ _ _ => sim_successResponse hid

theorem simAt_addElementToPeer (hsend : env.SendOk) {request request' : Json}
    (hr : SameButValue hidden request request') {q : Addr} {s t : Broker T}
    (h : Hiding hidden p all groups active s t)
    (hadd : ∀ el n, AddAccepted env { s with calls := n } q request el → el.path = hidden → active →
      hasAccess all el.fetchGroups groups = false) :
    SimAt (Hiding hidden p all groups active) Eq (addElementToPeer env q request)
      (addElementToPeer env q request') s t := by
  have hlocal : t.isLocalConnection = s.isLocalConnection :=
    h.same (f := fun b => b.isLocalConnection) fun _ _ _ => rfl
  unfold addElementToPeer
  refine SimAt.of_some (Prog.read_apply _ s) (Prog.read_apply _ t) ?_
  show SimAt _ _ (if (env.config.allowAddOnlyFromLocalhost && !s.isLocalConnection q) = true then _ else _)
    (if (env.config.allowAddOnlyFromLocalhost && !t.isLocalConnection q) = true then _ else _) s t
  rw [hlocal]
  by_cases hl : (env.config.allowAddOnlyFromLocalhost && !s.isLocalConnection q) = true
  · rw [if_pos hl, if_pos hl]
    exact sim_errorResponse hr.id _ s t h
  · rw [if_neg hl, if_neg hl]
    have hcalls : t.calls = s.calls := h.same (f := fun b => b.calls) fun _ _ _ => rfl
    have h1 := call_apply env .calloc s
    have h2 := call_apply env .calloc t
    rw [hcalls] at h2
    have h3 : Hiding hidden p all groups active { s with calls := s.calls + 1 } { t with calls := s.calls + 1 } :=
      h.counted _
    refine SimAt.of_some h1 h2 ?_
    cases env.ok .calloc s.calls with
    | false => exact sim_errorResponse hr.id _ _ _ h3
    | true =>
      refine SimAt.bind (simAt_initElement hr h3 fun el => hadd el (s.calls + 1)) fun a b hab s1 t1 h4 => ?_
      cases hab with
      | error err => exact sim_failureResponse hr.id err s1 t1 h4
      | ok el el' hel =>
        have hpath : el'.path = el.path := hel.1.same (f := fun el => el.path) fun _ _ => rfl
        refine Sim.bind (sim_newElement hel) (fun e _ e1 => ?_) s1 t1 h4
        subst e1
        exact sim_publishElement hsend hr.id q hpath e

/-! ## change and remove -/

theorem sim_replaceValue (hsend : env.SendOk) {request request' : Json}
    (hid : request'.getObjectItem "id" = request.getObjectItem "id") {e : Addr} {el el' : Element} (path : String)
    (halike : Alike hidden el el') {value value' : Json} (hv : el.path = hidden ∨ value' = value)
    {s t : Broker T} (h : Hiding hidden p all groups active s t) (hel : s.elements e = some el) :
    SimAt (Hiding hidden p all groups active) Eq (replaceValue env request e el path value)
      (replaceValue env request' e el' path value') s t := by
  unfold replaceValue
  have hcalls : t.calls = s.calls := h.same (f := fun b => b.calls) fun _ _ _ => rfl
  have h1 := allocating_apply (duplicate env value) s
  have h2 := allocating_apply (duplicate env value') t
  have hdup : ∀ v : Json, duplicate env v s.calls
      = (if env.ok .duplicateItem s.calls then some v else none, s.calls + 1) := fun _ => rfl
  rw [hdup] at h1
  rw [hcalls, hdup] at h2
  have h3 : Hiding hidden p all groups active { s with calls := s.calls + 1 } { t with calls := s.calls + 1 } :=
    h.counted _
  refine SimAt.of_some h1 h2 ?_
  cases env.ok .duplicateItem s.calls with
  | false => exact sim_errorResponse hid _ _ _ h3
  | true =>
    have halike2 : Alike hidden { el with value := some value } { el' with value := some value' } := by
      obtain ⟨old, _, _⟩ := halike
      exact @Alike.mk hidden { el with value := some value } (some value') (hv.imp_right fun e1 => by rw [e1]) rfl
    have hrel : Option.Rel (Alike hidden) (some { el with value := some value })
      (some { el' with value := some value' }) :=
      .some halike2
    have h4 := locked_update h3 e hrel fun el2 e1 => by
        obtain rfl := Option.some.inj e1
        have hsec : Secluded hidden p all groups active s el := h.guard.secluded hel
        exact hsec
    refine SimAt.of_some (Prog.update_apply _ _) (Prog.update_apply _ _) ?_
    refine Sim.bind (sim_notifyFetchers hsend e "change") (fun ok _ e1 => ?_) _ _ h4
    subst e1
    exact Sim.ite Iff.rfl (fun _ => sim_successResponse hid) fun _ => sim_errorResponse hid _

theorem simAt_changeState (hsend : env.SendOk) {request request' : Json}
    (hr : SameButValue hidden request request') (q : Addr) {s t : Broker T}
    (h : Hiding hidden p all groups active s t) (hS : s.toStore.Sound) :
    SimAt (Hiding hidden p all groups active) Eq (changeState env q request) (changeState env q request') s t := by
  unfold changeState
  have hagree := hr.pathAndValue
  generalize getPathAndValue request = r, getPathAndValue request' = r' at hagree
  cases hagree with
  | error err => exact sim_errorResponse hr.id err s t h
  | ok r r' hrr =>
    obtain ⟨path, value⟩ := r
    obtain ⟨path', value'⟩ := r'
    obtain ⟨e1, hv⟩ := hrr
    have e1 : path' = path := e1
    have hv : path = hidden ∨ value' = value := hv
    subst e1
    have htable : t.elementTable = s.elementTable := h.same (f := fun b => b.elementTable) fun _ _ _ => rfl
    refine SimAt.of_some (Prog.read_apply _ s) (Prog.read_apply _ t) ?_
    rw [htable]
    cases hget : HashTable.get s.elementTable path' with
    | none => exact sim_errorResponse hr.id _ s t h
    | some e =>
      refine simAt_derefElement h fun el el' hel hel' halike => ?_
      obtain ⟨el2, hel2, hpath⟩ := (hS.paths path' e).mp hget
      have e2 : some el = some el2 := hel.symm.trans hel2
      obtain rfl := Option.some.inj e2
      have hcheck : checkChange q el' path' = checkChange q el path' := by
        obtain ⟨old, _, hs⟩ := halike
        unfold checkChange
        show (if el.peer ≠ q then _ else if old.isNone = true then _ else _) = _
        have hnone : old.isNone = el.value.isNone := by
          rw [← Option.not_isSome, ← Option.not_isSome, hs]
        rw [hnone]
      rw [hcheck]
      cases checkChange q el path' with
      | error err => exact sim_errorResponse hr.id err s t h
      | ok u =>
        refine sim_replaceValue hsend hr.id path' halike ?_ h hel
        rw [hpath]
        exact hv

theorem sim_unlinkElement (e : Addr) :
    Sim (Hiding (T := T) hidden p all groups active) Eq (unlinkElement e) (unlinkElement e) := by
  refine Sim.bind (sim_derefElement e) fun el el' halike => ?_
  have howner : el'.peer = el.peer := halike.same (f := fun el => el.peer) fun _ _ => rfl
  have hpath : el'.path = el.path := halike.same (f := fun el => el.path) fun _ _ => rfl
  rw [howner, hpath]
  refine Sim.bind (sim_update ⟨fun _ _ _ => rfl, fun _ => rfl, fun _ => rfl⟩ fun _ => ⟨rfl, rfl, rfl, rfl, rfl⟩)
    fun _ _ _ => ?_
  refine Sim.bind (sim_update ⟨fun _ _ _ => rfl, fun _ => rfl, fun _ => rfl⟩ fun _ => ⟨rfl, rfl, rfl, rfl, rfl⟩)
    fun _ _ _ => sim_freeElement e

theorem sim_removeElement (hsend : env.SendOk) (e : Addr) :
    Sim (Hiding (T := T) hidden p all groups active) Eq (removeElement env e) (removeElement env e) :=
  Sim.bind (sim_notifyFetchers hsend e "remove") fun _ _ _ => sim_unlinkElement e

/-- the paths are the same in both runs -/
theorem Locked.findElement {G : Broker T → Prop} {s t : Broker T} (h : Locked hidden p G s t) (q : Addr)
    (path : String) : Cjet.findElement t q path = Cjet.findElement s q path := by
  unfold Cjet.findElement
  have hlist : t.elementList = s.elementList := by
    obtain ⟨elements, sent, _, _, _⟩ := h
    rfl
  rw [hlist]
  congr 1
  funext e
  have hrel := h.element e
  generalize s.elements e = x, t.elements e = x' at hrel
  cases hrel with
  | none => rfl
  | some halike =>
    obtain ⟨old, _, _⟩ := halike
    rfl

theorem sim_removeElementFromPeer (hsend : env.SendOk) (q : Addr) (request : Json) :
    Sim (Hiding (T := T) hidden p all groups active) Eq (removeElementFromPeer env q request)
      (removeElementFromPeer env q request) := by
  unfold removeElementFromPeer
  cases getParamsAndPath request with
  | error err => exact sim_errorResponse rfl err
  | ok r =>
    refine Sim.bind (Sim.read (V := Eq) fun s t h => (h.findElement q r.2).symm) fun found _ e1 => ?_
    subst e1
    cases found with
    | none => exact sim_errorResponse rfl _
    | some e => exact Sim.bind (sim_removeElement hsend e) fun _ _ _ => sim_successResponse rfl

theorem sim_removeAllElementsFromPeer (hsend : env.SendOk) (q : Addr) :
    Sim (Hiding (T := T) hidden p all groups active) Eq (removeAllElementsFromPeer env q)
      (removeAllElementsFromPeer env q) := by
  refine Sim.bind (sim_read fun _ _ _ => rfl) fun es _ e1 => ?_
  subst e1
  exact Sim.each es fun e _ => sim_removeElement hsend e

end

end Cjet
