import Cjet.Store.Effect

/-!
# The requests about elements and fetches, case by case

One inversion for each handler: what decides its answer, and what it does to the state.

* `ChangeState`, `AddElement`, `ProcessFetch`   change, add and fetch, with every way to fail;
* `removeElementFromPeer_some`, `removeFetchFromPeer_some`   remove and unfetch.
-/

set_option linter.unusedVariables false
set_option linter.unusedSectionVars false

namespace Cjet
open Stateful Alloc

section
variable {T : Type} [HashTable T] {env : Env}

/-! ## change -/

/-- the checks of `change_state` pass: the element at `e` is to get the value -/
def ChangeAccepted (b : Broker T) (p : Addr) (request : Json) (e : Addr) (el : Element) (value : Json) :
    Prop :=
  ∃ path, getPathAndValue request = .ok (path, value) ∧ HashTable.get b.elementTable path = some e ∧
    b.elements e = some el ∧ checkChange p el path = .ok ()

theorem ChangeAccepted.peer {b : Broker T} {p : Addr} {request : Json} {e : Addr} {el : Element}
    {value : Json} (h : ChangeAccepted b p request e el value) : el.peer = p := by
  obtain ⟨path, _, _, _, hc⟩ := h
  unfold checkChange at hc
  by_contra hne
  rw [if_pos hne] at hc
  cases hc

theorem ChangeAccepted.unique {b : Broker T} {p : Addr} {request : Json} {e e' : Addr} {el el' : Element}
    {value value' : Json} (h : ChangeAccepted b p request e el value)
    (h' : ChangeAccepted b p request e' el' value') : e' = e ∧ el' = el ∧ value' = value := by
  obtain ⟨path, h1, h2, h3, _⟩ := h
  obtain ⟨path', h1', h2', h3', _⟩ := h'
  rw [h1] at h1'
  cases h1'
  rw [h2] at h2'
  cases h2'
  rw [h3] at h3'
  cases h3'
  exact ⟨rfl, rfl, rfl⟩

/-- the element with another value -/
def Element.withValue (el : Element) (value : Json) : Element := { el with value := some value }

inductive ChangeState (env : Env) (b : Broker T) (p : Addr) (request : Json) : Response → Broker T → Prop
  | rejected (json : Option Json) (n : Nat) (h : ∀ e el value, ChangeAccepted b p request e el value →
      env.ok .duplicateItem b.calls = false) :
    ChangeState env b p request ⟨.error, json⟩ { b with calls := n }
  | replaced (json : Option Json) (e : Addr) (el : Element) (value : Json) (ok : Bool) (l : List Sent)
      (n n' : Nat) (h : ChangeAccepted b p request e el value) (hok : env.ok .duplicateItem b.calls = true)
      (hl : deliverAll env b.fetches (el.withValue value) e "change" (Slots.entries el.fetcherTable)
        (b.calls + 1) = ((ok, l), n)) :
    ChangeState env b p request ⟨if ok then .success else .error, json⟩
      { b with
        elements := Function.update b.elements e (some (el.withValue value))
        calls := n', sent := b.sent ++ l }

theorem changeState_some {p : Addr} {request : Json} {b b' : Broker T} {res : Response}
    (h : changeState env p request b = some (res, b')) : ChangeState env b p request res b' := by
  unfold changeState at h
  cases hpv : getPathAndValue request with
  | error err =>
    rw [hpv] at h
    obtain ⟨json, n, rfl, _, rfl⟩ := errorResponse_some h
    refine .rejected json n fun e el value ⟨path, h1, _⟩ => ?_
    rw [hpv] at h1
    cases h1
  | ok pv =>
    obtain ⟨path, value⟩ := pv
    rw [hpv] at h
    obtain ⟨o, b1, h1, h2⟩ := Prog.bind_some h
    obtain ⟨ho, rfl⟩ := Prog.read_some h1
    cases o with
    | none =>
      obtain ⟨json, n, rfl, _, rfl⟩ := errorResponse_some h2
      refine .rejected json n fun e el value ⟨path', h1, h3, _⟩ => ?_
      rw [hpv] at h1
      cases h1
      rw [← ho] at h3
      cases h3
    | some e =>
      obtain ⟨el, b2, h3, h4⟩ := Prog.bind_some h2
      obtain ⟨hel, rfl⟩ := Prog.deref_some h3
      cases hc : checkChange p el path with
      | error err =>
        simp only [hc] at h4
        obtain ⟨json, n, rfl, _, rfl⟩ := errorResponse_some h4
        refine .rejected json n fun e' el' value' ⟨path', h1, h3, h5, h6⟩ => ?_
        rw [hpv] at h1
        cases h1
        rw [← ho] at h3
        cases h3
        rw [hel] at h5
        cases h5
        rw [hc] at h6
        cases h6
      | ok u =>
        have hacc : ChangeAccepted b2 p request e el value := ⟨path, hpv, ho.symm, hel, hc⟩
        simp only [hc] at h4
        obtain ⟨copy, b3, h5, h6⟩ := Prog.bind_some h4
        obtain ⟨hcopy, rfl⟩ := allocating_some h5
        have hcopy : copy = if env.ok .duplicateItem b2.calls then some value else none := hcopy
        cases hok : env.ok .duplicateItem b2.calls with
        | false =>
          rw [hok] at hcopy
          subst hcopy
          obtain ⟨json, n, rfl, _, rfl⟩ := errorResponse_some h6
          exact .rejected json n fun _ _ _ _ => hok
        | true =>
          rw [hok] at hcopy
          subst hcopy
          obtain ⟨_, b4, h7, h8⟩ := Prog.bind_some h6
          obtain rfl := Prog.update_some h7
          obtain ⟨ok, b5, h9, h10⟩ := Prog.bind_some h8
          obtain ⟨el', l, n, hel', hl, rfl⟩ := notifyFetchers_some h9
          have e1 : Function.update b2.elements e (some (el.withValue value)) e = some el' := hel'
          rw [Function.update_self] at e1
          obtain rfl := Option.some.inj e1
          have hl : deliverAll env b2.fetches (el.withValue value) e "change"
            (Slots.entries el.fetcherTable) (b2.calls + 1) = ((ok, l), n) := hl
          cases ok with
          | false =>
            obtain ⟨json, n', rfl, _, rfl⟩ := errorResponse_some h10
            exact .replaced json e el value false l n n' hacc hok hl
          | true =>
            obtain ⟨json, n', rfl, rfl⟩ := successResponse_some h10
            exact .replaced json e el value true l n n' hacc hok hl

/-! ## loops over all fetches and all elements -/

theorem fetchList_subscribed {e f : Addr} {b b' : Broker T} {ok : Bool}
    (h : Subscribed env e f b ok b') : b'.fetchList = b.fetchList ∧ b'.elementList = b.elementList := by
  cases h <;> exact ⟨rfl, rfl⟩

theorem findFetchersForElement_eq (e : Addr) (b : Broker T) : findFetchersForElement env e b
    = Prog.tryAll (fun f => addFetchToStateAndNotify env e f) (b.peerList.flatMap b.fetchList) b :=
  Prog.tryAll_flatMap (fun f => addFetchToStateAndNotify env e f) (fun b : Broker T => b.fetchList) b
    (fun f s ok t h => (fetchList_subscribed (addFetchToStateAndNotify_some h)).1) b.peerList

/-- the loop of `add_fetch_to_states` -/
def addFetchToAll (env : Env) (f : Addr) (b : Broker T) : Option (Bool × Broker T) :=
  Prog.tryAll (fun e => addFetchToStateAndNotify env e f) (b.peerList.flatMap b.elementList) b

theorem addFetchToStates_loop (f : Addr) (b : Broker T) :
    Prog.tryAll (addFetchToStatesInPeer env f) b.peerList b = addFetchToAll env f b :=
  Prog.tryAll_flatMap (fun e => addFetchToStateAndNotify env e f) (fun b : Broker T => b.elementList) b
    (fun e s ok t h => (fetchList_subscribed (addFetchToStateAndNotify_some h)).2) b.peerList

/-! ## add -/

/-- the checks of `init_element` pass: `el` is to be added -/
def AddAccepted (env : Env) (b : Broker T) (p : Addr) (request : Json) (el : Element) : Prop :=
  ∃ el' access, checkAdd env b p request = .ok (el', access) ∧ fillAccess b.allGroups access el' = .ok el

/-- the element stands at an address of its own -/
def Broker.withElement (b : Broker T) (el : Element) (n : Nat) : Broker T :=
  { b with elements := Function.update b.elements b.fresh (some el), fresh := b.fresh + 1, calls := n }

inductive AddElement (env : Env) (b : Broker T) (p : Addr) (request : Json) : Response → Broker T → Prop
  | rejected (json : Option Json) (n : Nat) : AddElement env b p request ⟨.error, json⟩ { b with calls := n }
  | notNotified (json : Option Json) (el : Element) (n n' : Nat) (b1 : Broker T)
      (h : AddAccepted env b p request el)
      (h1 : findFetchersForElement env b.fresh (b.withElement el n) = some (false, b1)) :
    AddElement env b p request ⟨.error, json⟩
      { b1 with elements := Function.update b1.elements b.fresh none, calls := n' }
  | full (json : Option Json) (el : Element) (n n' : Nat) (b1 : Broker T)
      (h : AddAccepted env b p request el)
      (h1 : findFetchersForElement env b.fresh (b.withElement el n) = some (true, b1))
      (hput : (HashTable.put b1.elementTable el.path b.fresh).1 = false) :
    AddElement env b p request ⟨.error, json⟩
      { b1 with
        elementTable := (HashTable.put b1.elementTable el.path b.fresh).2
        elements := Function.update b1.elements b.fresh none, calls := n' }
  | added (json : Option Json) (el : Element) (n n' : Nat) (b1 : Broker T)
      (h : AddAccepted env b p request el)
      (h1 : findFetchersForElement env b.fresh (b.withElement el n) = some (true, b1))
      (hput : (HashTable.put b1.elementTable el.path b.fresh).1 = true) :
    AddElement env b p request ⟨.success, json⟩
      { b1 with
        elementTable := (HashTable.put b1.elementTable el.path b.fresh).2
        elementList := Function.update b1.elementList p (b1.elementList p ++ [b.fresh]), calls := n' }

theorem initElement_some {p : Addr} {request : Json} {b b' : Broker T} {r : Except (Option Err) Element}
    (h : initElement env p request b = some (r, b')) :
    (∃ n, b' = { b with calls := n }) ∧ ∀ el, r = .ok el → AddAccepted env b p request el := by
  refine ⟨does_initElement (E := OnlyCalls) env p request b r b' h, fun el he => ?_⟩
  subst he
  obtain ⟨b1, b2, h1, h2⟩ := Prog.bind_some h
  obtain ⟨rfl, rfl⟩ := Prog.read_some h1
  cases hc : checkAdd env b2 p request with
  | error err =>
    simp only [hc] at h2
    obtain ⟨e, _⟩ := Prog.pure_some h2
    cases e
  | ok r =>
    obtain ⟨el', access⟩ := r
    simp only [hc] at h2
    obtain ⟨parts, b3, h3, h4⟩ := Prog.bind_some h2
    obtain ⟨_, rfl⟩ := allocating_some h3
    cases parts with
    | error err =>
      obtain ⟨e, _⟩ := Prog.pure_some h4
      cases e
    | ok u =>
      cases hf : fillAccess b2.allGroups access el' with
      | error err =>
        simp only [hf] at h4
        obtain ⟨_, b4, _, h5⟩ := Prog.bind_some h4
        obtain ⟨e, _⟩ := Prog.pure_some h5
        cases e
      | ok el'' =>
        simp only [hf] at h4
        obtain ⟨e, _⟩ := Prog.pure_some h4
        cases e
        exact ⟨el', access, hc, hf⟩

theorem addElementToPeer_some {p : Addr} {request : Json} {b b' : Broker T} {res : Response}
    (h : addElementToPeer env p request b = some (res, b')) : AddElement env b p request res b' := by
  obtain ⟨b1, b2, h1, h2⟩ := Prog.bind_some h
  obtain ⟨rfl, rfl⟩ := Prog.read_some h1
  by_cases hl : (env.config.allowAddOnlyFromLocalhost && !b2.isLocalConnection p) = true
  · simp only [hl, if_true] at h2
    obtain ⟨json, n, rfl, _, rfl⟩ := errorResponse_some h2
    exact .rejected json n
  · simp only [hl] at h2
    obtain ⟨ok, b3, h3, h4⟩ := Prog.bind_some h2
    obtain ⟨_, rfl⟩ := call_some h3
    cases ok with
    | false =>
      obtain ⟨json, n, rfl, _, rfl⟩ := errorResponse_some h4
      exact .rejected json n
    | true =>
      obtain ⟨r, b4, h5, h6⟩ := Prog.bind_some h4
      obtain ⟨⟨n, rfl⟩, hr⟩ := initElement_some h5
      cases r with
      | error err =>
        obtain ⟨json, n', rfl, _, rfl⟩ := failureResponse_some h6
        exact .rejected json n'
      | ok el =>
        have hacc : AddAccepted env b2 p request el := hr el rfl
        obtain ⟨e, b5, h7, h8⟩ := Prog.bind_some h6
        obtain ⟨b6, b7, h9, h10⟩ := Prog.bind_some h7
        obtain ⟨rfl, rfl⟩ := Prog.read_some h9
        obtain ⟨_, b8, h11, h12⟩ := Prog.bind_some h10
        obtain rfl := Prog.update_some h11
        obtain ⟨rfl, rfl⟩ := Prog.pure_some h12
        obtain ⟨ok, b9, h13, h14⟩ := Prog.bind_some h8
        have h13 : findFetchersForElement env b2.fresh (b2.withElement el n) = some (ok, b9) := h13
        cases ok with
        | false =>
          obtain ⟨_, b10, h15, h16⟩ := Prog.bind_some h14
          obtain rfl := Prog.update_some h15
          obtain ⟨json, n', rfl, _, rfl⟩ := errorResponse_some h16
          exact .notNotified json el n n' b9 hacc h13
        | true =>
          obtain ⟨put, b10, h15, h16⟩ := Prog.bind_some h14
          have h15 : some ((HashTable.put b9.elementTable el.path b2.fresh).1,
            { b9 with elementTable := (HashTable.put b9.elementTable el.path b2.fresh).2 })
              = some (put, b10) := h15
          cases put with
          | false =>
            obtain ⟨hput, rfl⟩ := Prod.mk.inj (Option.some.inj h15)
            obtain ⟨_, b11, h17, h18⟩ := Prog.bind_some h16
            obtain rfl := Prog.update_some h17
            obtain ⟨json, n', rfl, _, rfl⟩ := errorResponse_some h18
            exact .full json el n n' b9 hacc h13 hput
          | true =>
            obtain ⟨hput, rfl⟩ := Prod.mk.inj (Option.some.inj h15)
            obtain ⟨_, b11, h17, h18⟩ := Prog.bind_some h16
            obtain rfl := Prog.update_some h17
            obtain ⟨json, n', rfl, rfl⟩ := successResponse_some h18
            exact .added json el n n' b9 hacc h13 hput

/-! ## fetch -/

theorem allocFetch_some {p : Addr} {id : Option Json} {k n : Nat} {ft : Fetch}
    (h : (allocFetch env p id k n).1 = .ok ft) : ft.peer = p ∧ ft.fetchId = id := by
  have h : ((Alloc.call env .calloc >>= _) n).1 = (.ok ft : Except Err Fetch) := h
  rw [Alloc.bind_apply] at h
  cases hc : (Alloc.call env .calloc n).1 with
  | false => rw [hc] at h; cases h
  | true =>
    rw [hc] at h
    cases id with
    | none => cases h; exact ⟨rfl, rfl⟩
    | some id =>
      have h : ((duplicate env id >>= _) (Alloc.call env .calloc n).2).1 = (.ok ft : Except Err Fetch) := h
      rw [Alloc.bind_apply] at h
      cases hd : (duplicate env id (Alloc.call env .calloc n).2).1 with
      | none => rw [hd] at h; cases h
      | some copy =>
        rw [hd] at h
        cases h
        exact ⟨rfl, congrArg some (tryCall_some hd)⟩

theorem createFetch_some {p : Addr} {id : Option Json} {params : Json} {n : Nat} {ft : Fetch}
    (h : (createFetch env p id params n).1 = .ok ft) : ft.peer = p ∧ ft.fetchId = id := by
  unfold createFetch at h
  cases hp : params.getObjectItem "path" with
  | none =>
    rw [hp] at h
    exact allocFetch_some h
  | some path =>
    rw [hp] at h
    cases path with
    | obj members =>
      dsimp only at h
      split at h
      · cases h
      · split at h
        · cases h
        · rw [Alloc.bind_apply] at h
          cases ha : (allocFetch env p id (countMatchers (.obj members) members).1 n).1 with
          | error err => rw [ha] at h; cases h
          | ok f =>
            rw [ha] at h
            obtain ⟨h1, h2⟩ := allocFetch_some ha
            dsimp only at h
            rw [Alloc.bind_apply] at h
            cases hm : (addMatchers env (countMatchers (.obj members) members).2 members
              (allocFetch env p id (countMatchers (.obj members) members).1 n).2).1 with
            | none => rw [hm] at h; cases h
            | some ms =>
              rw [hm] at h
              cases h
              exact ⟨h1, h2⟩
    | _ => cases h

/-- the fetch that `add_fetch_to_peer` makes, and the number of calls made so far -/
def FetchAccepted (env : Env) (b : Broker T) (p : Addr) (request : Json) (ft : Fetch) (n : Nat) : Prop :=
  ∃ params fetchId, checkFetch b p request = .ok (params, fetchId) ∧
    createFetch env p (some fetchId) params b.calls = (.ok ft, n)

theorem FetchAccepted.facts {b : Broker T} {p : Addr} {request : Json} {ft : Fetch} {n : Nat}
    (h : FetchAccepted env b p request ft n) : ft.peer = p ∧ ft.fetchId.isSome = true := by
  obtain ⟨params, fetchId, _, h1⟩ := h
  obtain ⟨h2, h3⟩ := createFetch_some (congrArg Prod.fst h1)
  exact ⟨h2, by rw [h3]; rfl⟩

/-- the fetch stands at an address of its own and in the list of its peer -/
def Broker.withFetch (b : Broker T) (p : Addr) (ft : Fetch) (n : Nat) : Broker T :=
  { b with
    fetches := Function.update b.fetches b.fresh (some ft)
    fetchList := Function.update b.fetchList p (b.fetchList p ++ [b.fresh])
    fresh := b.fresh + 1, calls := n }

inductive ProcessFetch (env : Env) (b : Broker T) (p : Addr) (request : Json) : Response → Broker T → Prop
  | rejected (json : Option Json) (n : Nat) (h : ∀ ft k, ¬ FetchAccepted env b p request ft k) :
    ProcessFetch env b p request ⟨.error, json⟩ { b with calls := n }
  | fetched (json : Option Json) (ft : Fetch) (ok : Bool) (n n' : Nat) (b1 : Broker T)
      (h : FetchAccepted env b p request ft n)
      (h1 : addFetchToAll env b.fresh (b.withFetch p ft n) = some (ok, b1)) :
    ProcessFetch env b p request ⟨if ok then .success else .error, json⟩ { b1 with calls := n' }

theorem processFetch_some {p : Addr} {request : Json} {b b' : Broker T} {res : Response}
    (h : processFetch env p request b = some (res, b')) : ProcessFetch env b p request res b' := by
  obtain ⟨r, b1, h1, h2⟩ := Prog.bind_some h
  obtain ⟨b2, b3, h3, h4⟩ := Prog.bind_some h1
  obtain ⟨rfl, rfl⟩ := Prog.read_some h3
  cases hc : checkFetch b3 p request with
  | error err =>
    rw [hc] at h4
    obtain ⟨rfl, rfl⟩ := Prog.pure_some h4
    obtain ⟨json, n, rfl, _, rfl⟩ := errorResponse_some h2
    refine .rejected json n fun ft k ⟨params, fetchId, h5, _⟩ => ?_
    rw [hc] at h5
    cases h5
  | ok pf =>
    obtain ⟨params, fetchId⟩ := pf
    simp only [hc] at h4
    obtain ⟨made, b4, h5, h6⟩ := Prog.bind_some h4
    obtain ⟨hmade, rfl⟩ := allocating_some h5
    cases made with
    | error err =>
      obtain ⟨rfl, rfl⟩ := Prog.pure_some h6
      obtain ⟨json, n, rfl, _, rfl⟩ := errorResponse_some h2
      refine .rejected json n fun ft k ⟨params', fetchId', h7, h8⟩ => ?_
      rw [hc] at h7
      cases h7
      rw [h8] at hmade
      cases hmade
    | ok ft =>
      obtain ⟨_, b5, h7, h8⟩ := Prog.bind_some h6
      obtain rfl := Prog.update_some h7
      obtain ⟨rfl, rfl⟩ := Prog.pure_some h8
      have hacc : FetchAccepted env b3 p request ft (createFetch env p (some fetchId) params b3.calls).2 :=
        ⟨params, fetchId, hc, Prod.ext hmade.symm rfl⟩
      obtain ⟨peers, b6, h9, h10⟩ := Prog.bind_some h2
      obtain ⟨hpeers, rfl⟩ := Prog.read_some h9
      obtain ⟨ok, b7, h11, h12⟩ := Prog.bind_some h10
      rw [hpeers, addFetchToStates_loop] at h11
      cases ok with
      | false =>
        obtain ⟨json, n', rfl, _, rfl⟩ := errorResponse_some h12
        exact .fetched json ft false _ n' b7 hacc h11
      | true =>
        obtain ⟨json, n', rfl, rfl⟩ := successResponse_some h12
        exact .fetched json ft true _ n' b7 hacc h11

/-! ## remove and unfetch -/

theorem removeElementFromPeer_some {p : Addr} {request : Json} {b b' : Broker T} {res : Response}
    (h : removeElementFromPeer env p request b = some (res, b')) :
    (∃ json n, res = ⟨.error, json⟩ ∧ b' = { b with calls := n }) ∨
    ∃ params path e b1 json n, getParamsAndPath request = .ok (params, path) ∧
      findElement b p path = some e ∧ removeElement env e b = some ((), b1) ∧
      res = ⟨.success, json⟩ ∧ b' = { b1 with calls := n } := by
  unfold removeElementFromPeer at h
  cases hpp : getParamsAndPath request with
  | error err =>
    rw [hpp] at h
    obtain ⟨json, n, rfl, _, rfl⟩ := errorResponse_some h
    exact Or.inl ⟨json, n, rfl, rfl⟩
  | ok pp =>
    obtain ⟨params, path⟩ := pp
    rw [hpp] at h
    obtain ⟨o, b1, h1, h2⟩ := Prog.bind_some h
    obtain ⟨ho, rfl⟩ := Prog.read_some h1
    cases o with
    | none =>
      obtain ⟨json, n, rfl, _, rfl⟩ := errorResponse_some h2
      exact Or.inl ⟨json, n, rfl, rfl⟩
    | some e =>
      obtain ⟨_, b2, h3, h4⟩ := Prog.bind_some h2
      obtain ⟨json, n, rfl, rfl⟩ := successResponse_some h4
      exact Or.inr ⟨params, path, e, b2, json, n, rfl, ho.symm, h3, rfl, rfl⟩

theorem findElement_some {b : Broker T} {p : Addr} {path : String} {e : Addr}
    (h : findElement b p path = some e) :
    e ∈ b.elementList p ∧ ∃ el, b.elements e = some el ∧ el.path = path := by
  have h1 := List.find?_some h
  have h2 := List.mem_of_find?_eq_some h
  refine ⟨h2, ?_⟩
  cases hel : b.elements e with
  | none => rw [hel] at h1; cases h1
  | some el =>
    rw [hel] at h1
    exact ⟨el, rfl, by simpa using h1⟩

theorem removeFetchFromPeer_some {p : Addr} {request : Json} {b b' : Broker T} {res : Response}
    (h : removeFetchFromPeer env p request b = some (res, b')) :
    (∃ json n, res = ⟨.error, json⟩ ∧ b' = { b with calls := n }) ∨
    ∃ f b1 json n, f ∈ b.fetchList p ∧ removeFetch p f b = some ((), b1) ∧ res = ⟨.success, json⟩ ∧
      b' = { b1 with calls := n } := by
  obtain ⟨b1, b2, h1, h2⟩ := Prog.bind_some h
  obtain ⟨rfl, rfl⟩ := Prog.read_some h1
  cases hc : checkUnfetch b2 p request with
  | error err =>
    simp only [hc] at h2
    obtain ⟨json, n, rfl, _, rfl⟩ := errorResponse_some h2
    exact Or.inl ⟨json, n, rfl, rfl⟩
  | ok f =>
    simp only [hc] at h2
    obtain ⟨_, b3, h3, h4⟩ := Prog.bind_some h2
    obtain ⟨_, b4, h5, h6⟩ := Prog.bind_some h4
    obtain ⟨json, n, rfl, rfl⟩ := successResponse_some h6
    refine Or.inr ⟨f, b4, json, n, ?_, ?_, rfl, rfl⟩
    · unfold checkUnfetch at hc
      cases hp : getParams request with
      | error err => rw [hp] at hc; cases hc
      | ok params =>
        rw [hp] at hc
        cases hi : getFetchId params with
        | error err => simp only [hi, bind, Except.bind] at hc; cases hc
        | ok id =>
          simp only [hi, bind, Except.bind] at hc
          cases hf : findFetch b2 p id with
          | none => rw [hf] at hc; cases hc
          | some f' =>
            rw [hf] at hc
            cases hc
            exact List.mem_of_find?_eq_some hf
    · unfold removeFetch
      rw [Prog.bind_of_some h3]
      exact h5

/-! ## authenticate -/

/-- the groups of the account have been assigned, and the name of the user -/
def Broker.authenticated (b : Broker T) (p : Addr) (auth : Json) (userName : Option String) (n : Nat) :
    Broker T :=
  { b with
    fetchGroups := Function.update b.fetchGroups p (getGroups b.allGroups (auth.getObjectItem "fetchGroups"))
    setGroups := Function.update b.setGroups p (getGroups b.allGroups (auth.getObjectItem "setGroups"))
    callGroups := Function.update b.callGroups p (getGroups b.allGroups (auth.getObjectItem "callGroups"))
    userName := Function.update b.userName p userName, calls := n }

inductive Authenticate (env : Env) (b : Broker T) (p : Addr) (request : Json) : Response → Broker T → Prop
  | rejected (json : Option Json) (n : Nat) (h : ∀ ua, checkAuthenticate env b p request ≠ .ok ua) :
    Authenticate env b p request ⟨.error, json⟩ { b with calls := n }
  | accepted (json : Option Json) (n : Nat) (user : String) (auth : Json)
      (h : checkAuthenticate env b p request = .ok (user, auth)) :
    Authenticate env b p request ⟨if env.ok .duplicateString b.calls then .success else .error, json⟩
      (b.authenticated p auth (if env.ok .duplicateString b.calls then some user else none) n)

theorem handleAuthentication_some {p : Addr} {request : Json} {b b' : Broker T} {res : Response}
    (h : handleAuthentication env p request b = some (res, b')) : Authenticate env b p request res b' := by
  obtain ⟨b1, b2, h1, h2⟩ := Prog.bind_some h
  obtain ⟨rfl, rfl⟩ := Prog.read_some h1
  cases hc : checkAuthenticate env b2 p request with
  | error err =>
    simp only [hc] at h2
    obtain ⟨json, n, rfl, _, rfl⟩ := errorResponse_some h2
    refine .rejected json n fun ua e => ?_
    rw [hc] at e
    cases e
  | ok ua =>
    obtain ⟨user, auth⟩ := ua
    simp only [hc] at h2
    obtain ⟨_, b3, h3, h4⟩ := Prog.bind_some h2
    obtain rfl := Prog.update_some h3
    obtain ⟨name, b4, h5, h6⟩ := Prog.bind_some h4
    obtain ⟨hname, rfl⟩ := allocating_some h5
    obtain ⟨_, b5, h7, h8⟩ := Prog.bind_some h6
    obtain rfl := Prog.update_some h7
    have hname : name = if env.ok .duplicateString b2.calls then some user else none := hname
    have hacc := fun json n => @Authenticate.accepted T env b2 p request json n user auth hc
    cases hok : env.ok .duplicateString b2.calls with
    | false =>
      rw [hok] at hname hacc
      subst hname
      obtain ⟨json, n, rfl, _, rfl⟩ := errorResponse_some h8
      exact hacc json n
    | true =>
      rw [hok] at hname hacc
      subst hname
      obtain ⟨json, n, rfl, rfl⟩ := successResponse_some h8
      exact hacc json n

theorem fetchList_of_checkAuthenticate {b : Broker T} {p : Addr} {request : Json} {ua : String × Json}
    (h : checkAuthenticate env b p request = .ok ua) : b.fetchList p = [] := by
  unfold checkAuthenticate at h
  cases hu : getUserAndPassword request with
  | error err => rw [hu] at h; cases h
  | ok up =>
    rw [hu] at h
    cases hl : b.fetchList p with
    | nil => rfl
    | cons f fs =>
      rw [hl] at h
      cases h

/-! ## all requests -/

/-- elements, fetches, groups and users are as before, and no fetch is notified -/
structure Bystander (b b' : Broker T) : Prop where
  store : b'.toStore = b.toStore
  allGroups : b'.allGroups = b.allGroups
  fetchGroups : b'.fetchGroups = b.fetchGroups
  setGroups : b'.setGroups = b.setGroups
  callGroups : b'.callGroups = b.callGroups
  userName : b'.userName = b.userName
  sent : ∃ l, b'.sent = b.sent ++ l ∧ ∀ m ∈ l, m.about.isNotification = false

instance : IsPreorder (Broker T) Bystander where
  refl b := ⟨rfl, rfl, rfl, rfl, rfl, rfl, [], (List.append_nil _).symm, by simp⟩
  trans a b c hab hbc := by
    obtain ⟨l, hl, hn⟩ := hab.sent
    obtain ⟨l', hl', hn'⟩ := hbc.sent
    refine ⟨hbc.store.trans hab.store, hbc.allGroups.trans hab.allGroups,
      hbc.fetchGroups.trans hab.fetchGroups, hbc.setGroups.trans hab.setGroups,
      hbc.callGroups.trans hab.callGroups, hbc.userName.trans hab.userName, l ++ l', ?_, ?_⟩
    · rw [hl', hl, List.append_assoc]
    · intro m hm
      rcases List.mem_append.mp hm with h | h
      · exact hn m h
      · exact hn' m h

theorem OnlyRouter.bystander {b b' : Broker T} (h : OnlyRouter b b') : Bystander b b' := by
  obtain ⟨l, hl, hm⟩ := h.sent
  exact ⟨h.store, congrArg Accounts.allGroups h.accounts, congrArg Accounts.fetchGroups h.accounts,
    congrArg Accounts.setGroups h.accounts, congrArg Accounts.callGroups h.accounts,
    congrArg Accounts.userName h.accounts, l, hl, fun m hml => (hm m hml).1⟩

instance : Allows (T := T) Bystander := ⟨fun _ _ h => h.onlyRouter.bystander⟩

theorem bystander_update {f : Broker T → Broker T} (hs : ∀ b, (f b).toStore = b.toStore)
    (hg : ∀ b, (f b).allGroups = b.allGroups ∧ (f b).fetchGroups = b.fetchGroups ∧
      (f b).setGroups = b.setGroups ∧ (f b).callGroups = b.callGroups ∧ (f b).userName = b.userName)
    (ho : ∀ b, (f b).sent = b.sent) : Does Bystander (Prog.update f) :=
  Does.update fun b => by
    obtain ⟨h1, h2, h3, h4, h5⟩ := hg b
    exact ⟨hs b, h1, h2, h3, h4, h5, [], by rw [ho, List.append_nil], by simp⟩

theorem configPeer_some {p : Addr} {request : Json} {b b' : Broker T} {res : Response}
    (h : configPeer env p request b = some (res, b')) : ∃ name n, b' = { b with name := name, calls := n } := by
  unfold configPeer at h
  cases hn : getParams request >>= getName with
  | error err =>
    rw [hn] at h
    obtain ⟨json, n, _, _, rfl⟩ := errorResponse_some h
    exact ⟨b.name, n, rfl⟩
  | ok name =>
    rw [hn] at h
    cases name with
    | none =>
      obtain ⟨json, n, _, rfl⟩ := successResponse_some h
      exact ⟨b.name, n, rfl⟩
    | some name =>
      obtain ⟨_, b1, h1, h2⟩ := Prog.bind_some h
      obtain ⟨copy, b2, h3, h4⟩ := Prog.bind_some h1
      obtain ⟨_, rfl⟩ := allocating_some h3
      obtain rfl := Prog.update_some h4
      obtain ⟨json, n, _, rfl⟩ := successResponse_some h2
      exact ⟨_, n, rfl⟩

theorem bystander_storePassword (request : Json) (userName encrypted : String) :
    Does Bystander (storePassword (T := T) env request userName encrypted) := by
  refine Does.bind ?_ fun _ => Does.bind ?_ fun ok =>
    Does.ite (fun _ => does_successResponse env _) fun _ => does_errorResponse env _ _
  · refine Does.bind (does_allocating _) fun password => ?_
    cases password with
    | none => exact Does.pure _
    | some password =>
      exact Does.bind (does_call env _) fun ok =>
        bystander_update (fun _ => rfl) (fun _ => ⟨rfl, rfl, rfl, rfl, rfl⟩) fun _ => rfl
  · refine Does.bind (does_call env _) fun ok => Does.ite (fun _ => ?_) fun _ => Does.pure _
    refine Does.bind (bystander_update (fun _ => rfl) (fun _ => ⟨rfl, rfl, rfl, rfl, rfl⟩) fun _ => rfl)
      fun _ => Does.bind (Does.read _) fun b => ?_
    cases b.userData with
    | none => exact Does.pure _
    | some d =>
      refine Does.bind (does_call env _) fun ok => Does.ite (fun _ => ?_) fun _ => Does.pure _
      exact Does.bind (bystander_update (fun _ => rfl) (fun _ => ⟨rfl, rfl, rfl, rfl, rfl⟩) fun _ => rfl)
        fun _ => Does.pure _

theorem bystander_handleChangePassword (p : Addr) (request : Json) :
    Does Bystander (handleChangePassword (T := T) env p request) := by
  unfold handleChangePassword
  cases getUserAndPassword request with
  | error err => exact does_errorResponse env _ _
  | ok up =>
    refine Does.bind (Does.read _) fun b => ?_
    cases checkChangePassword b p up.1 with
    | error err => exact does_errorResponse env _ _
    | ok password =>
      refine Does.bind (Does.deref _) fun m => ?_
      cases m with
      | none => exact does_errorResponse env _ _
      | some m =>
        dsimp only
        cases env.crypt up.2 (saltOf env.random m) with
        | none => exact does_errorResponse env _ _
        | some encrypted => exact bystander_storePassword _ _ _

/-- what the handler of an object that is no response does: one of the requests that change elements,
fetches or groups, or another one -/
inductive Handled (env : Env) (b : Broker T) (p : Addr) (request : Json) (res : Response)
    (b' : Broker T) : Prop
  | change (hm : request.HasMethod "change") (h : ChangeState env b p request res b')
  | add (hm : request.HasMethod "add") (h : AddElement env b p request res b')
  | remove (hm : request.HasMethod "remove") (h : removeElementFromPeer env p request b = some (res, b'))
  | fetch (hm : request.HasMethod "fetch") (h : ProcessFetch env b p request res b')
  | unfetch (hm : request.HasMethod "unfetch") (h : removeFetchFromPeer env p request b = some (res, b'))
  | authenticate (hm : request.HasMethod "authenticate") (h : Authenticate env b p request res b')
  | passwd (hm : request.HasMethod "passwd") (h : handleChangePassword env p request b = some (res, b'))
  | other (hm : ∀ name ∈ ["change", "add", "remove", "fetch", "unfetch", "authenticate", "passwd"],
      ¬ request.HasMethod name) (h : Bystander b b') (hu : b'.userData = b.userData)

theorem handlerOf_some {p : Addr} {request : Json} {b b' : Broker T} {res : Response}
    (h : handlerOf env p request b = some (res, b')) : Handled env b p request res b' := by
  unfold handlerOf at h
  cases hm : request.getObjectItem "method" with
  | none =>
    rw [hm] at h
    obtain ⟨json, n, rfl, _, rfl⟩ := errorResponse_some h
    refine .other (fun name _ e => ?_) (Allows.calls b _ ⟨n, rfl⟩) rfl
    rw [Json.HasMethod, hm] at e
    cases e
  | some m =>
    rw [hm] at h
    cases m with
    | str name =>
      have same : ∀ other, request.HasMethod other → name = other := fun other e => by
        rw [Json.HasMethod, hm] at e
        exact Json.str.inj (Option.some.inj e)
      have routed : ∀ {what}, setOrCall env p request what b = some (res, b') →
          Bystander b b' ∧ b'.userData = b.userData := fun {what} h => by
        have hr := does_setOrCall env p request what b res b' h
        exact ⟨hr.bystander, congrArg Accounts.userData hr.accounts⟩
      have calls : OnlyCalls b b' → Bystander b b' ∧ b'.userData = b.userData := fun ⟨n, e⟩ =>
        ⟨Allows.calls b b' ⟨n, e⟩, by rw [e]⟩
      have done : name ∉ ["change", "add", "remove", "fetch", "unfetch", "authenticate", "passwd"] →
          Bystander b b' ∧ b'.userData = b.userData → Handled env b p request res b' := fun hn hb =>
        .other (fun other ho e => hn (by rw [same other e]; exact ho)) hb.1 hb.2
      have h : handleMethod env p request name b = some (res, b') := h
      unfold handleMethod at h
      by_cases e1 : name = "change"
      · rw [if_pos e1] at h
        subst e1
        exact .change hm (changeState_some h)
      rw [if_neg e1] at h
      by_cases e2 : name = "set"
      · rw [if_pos e2] at h
        subst e2
        exact done (by decide) (routed h)
      rw [if_neg e2] at h
      by_cases e3 : name = "call"
      · rw [if_pos e3] at h
        subst e3
        exact done (by decide) (routed h)
      rw [if_neg e3] at h
      by_cases e4 : name = "add"
      · rw [if_pos e4] at h
        subst e4
        exact .add hm (addElementToPeer_some h)
      rw [if_neg e4] at h
      by_cases e5 : name = "remove"
      · rw [if_pos e5] at h
        subst e5
        exact .remove hm h
      rw [if_neg e5] at h
      by_cases e6 : name = "fetch"
      · rw [if_pos e6] at h
        subst e6
        exact .fetch hm (processFetch_some h)
      rw [if_neg e6] at h
      by_cases e7 : name = "unfetch"
      · rw [if_pos e7] at h
        subst e7
        exact .unfetch hm h
      rw [if_neg e7] at h
      by_cases e8 : name = "get"
      · rw [if_pos e8] at h
        subst e8
        exact done (by decide) (calls (does_getElements env p request b res b' h))
      rw [if_neg e8] at h
      by_cases e9 : name = "config"
      · rw [if_pos e9] at h
        subst e9
        obtain ⟨name', n, e⟩ := configPeer_some h
        subst e
        exact done (by decide) ⟨⟨rfl, rfl, rfl, rfl, rfl, rfl, [], (List.append_nil _).symm, by simp⟩, rfl⟩
      rw [if_neg e9] at h
      by_cases e10 : name = "info"
      · rw [if_pos e10] at h
        subst e10
        exact done (by decide) (calls (does_handleInfo env request b res b' h))
      rw [if_neg e10] at h
      by_cases e11 : name = "authenticate"
      · rw [if_pos e11] at h
        subst e11
        exact .authenticate hm (handleAuthentication_some h)
      rw [if_neg e11] at h
      by_cases e12 : name = "passwd"
      · rw [if_pos e12] at h
        subst e12
        exact .passwd hm h
      rw [if_neg e12] at h
      exact done (by simp [e1, e4, e5, e6, e7, e11, e12])
        (calls (does_errorResponse (E := OnlyCalls) env _ _ b res b' h))
    | _ =>
      obtain ⟨json, n, rfl, _, rfl⟩ := errorResponse_some h
      refine .other (fun name _ e => ?_) (Allows.calls b _ ⟨n, rfl⟩) rfl
      rw [Json.HasMethod, hm] at e
      cases e

end

end Cjet
