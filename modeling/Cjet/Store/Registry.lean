import Cjet.Lib.Registry
import Cjet.Store.Consistency

/-!
# The broker as a registry

What the broker keeps is a registry: a path has an owner, the terms of its registration and a value, which is null for a
method.  Each event is one operation on it, whatever becomes of lists, tables and subscriptions.

* `Store.registry`        the registry of a state;
* `Asks`, `Performs`      the operation that an event asks for, and the one it performs;
* `stepped_registry`      each step of the broker performs its operation on the registry;
* `registry_refinement`   and so does a run;
* `element_history`       what the requests say about an element that a run has left.
-/

set_option linter.unusedVariables false
set_option linter.unusedSectionVars false

namespace Cjet
open Stateful Alloc

/-! ## the registry -/

/-- what stays as it has been registered -/
structure Terms where
  flags : Nat
  timeoutNsec : Nat
  fetchGroups : GroupSet
  setGroups : GroupSet
  callGroups : GroupSet

abbrev PathRegistry := Registry String Addr Terms (Option Json)
abbrev PathOp := RegistryOp String Addr Terms (Option Json)

def Element.listing (el : Element) : Listing Addr Terms (Option Json) :=
  ⟨el.peer, ⟨el.flags, el.timeoutNsec, el.fetchGroups, el.setGroups, el.callGroups⟩, el.value⟩

/-- the path of an element and what is registered under it -/
def Element.record (el : Element) : String × Listing Addr Terms (Option Json) := (el.path, el.listing)

/-- the element that an add request of `p` describes; it describes none where its timeout is 0 nanoseconds -/
def readAdd (platform : Platform) (allGroups : Option (List String)) (p : Addr) (request : Json) :
    Except (Option Err) Element := do
  let (params, path) ← (getParamsAndPath request).mapError some
  let flags ← (getFetchOnlyFromParams params).mapError some
  let timeoutNsec ← getTimeoutInNsec platform (params.getObjectItem "timeout")
    (convertSecondsToNsec platform platform.config.routedMessagesTimeout)
  (fillAccess allGroups (params.getObjectItem "access")
    ⟨path, p, params.getObjectItem "value", List.replicate platform.config.initialFetchTableSize none, 0, 0, 0, flags,
      timeoutNsec⟩).mapError some

section
variable (env : Env) (allGroups : Option (List String)) (r : PathRegistry)

/-- the operation that an event asks for: to add a free path; to change a state, or to remove it, on behalf of its owner;
to let a peer go.  A change needs memory for the new value. -/
inductive Asks : Event → PathOp → Prop
  | add (p : Addr) (request : Json) (el : Element) (hm : request.HasMethod "add")
    (hread : readAdd env.toPlatform allGroups p request = .ok el) (hfree : r el.path = none) :
    Asks (.rpc p request) (.register el.path el.listing)
  | change (p : Addr) (request : Json) (path : String) (value : Json) (x : Listing Addr Terms (Option Json))
    (hm : request.HasMethod "change") (hread : getPathAndValue request = .ok (path, value)) (hx : r path = some x)
    (howner : x.owner = p) (hstate : x.value.isSome = true) (hok : env.ok .duplicateItem 0 = true) :
    Asks (.rpc p request) (.write path (some value))
  | remove (p : Addr) (request params : Json) (path : String) (x : Listing Addr Terms (Option Json))
    (hm : request.HasMethod "remove") (hread : getParamsAndPath request = .ok (params, path)) (hx : r path = some x)
    (howner : x.owner = p) : Asks (.rpc p request) (.unregister path)
  | leave (p : Addr) : Asks (.disconnect p) (.leave p)

/-- An event performs the operation it asks for.  It is idle where it asks for none, or for one that registers an element
that may be refused. -/
def Performs (mayRefuse : Addr → Element → Prop) (event : Event) (op : PathOp) : Prop :=
  Asks env allGroups r event op ∨
    op = .idle ∧ ∀ op', Asks env allGroups r event op' → ∃ p el, mayRefuse p el ∧ op' = .register el.path el.listing

end

section
variable {T : Type} [HashTable T]

/-- an allocation or a send may fail, the table is full, or only local peers may add elements -/
def Broker.mayRefuse (b : Broker T) (env : Env) (p : Addr) (el : Element) : Prop :=
  ¬ (env.AllocOk ∧ env.SendOk) ∨ (HashTable.put b.elementTable el.path b.fresh).1 = false ∨
    (env.config.allowAddOnlyFromLocalhost && !b.isLocalConnection p) = true

namespace Store

def registry (s : Store T) : PathRegistry := fun path =>
  ((HashTable.get s.elementTable path).bind s.elements).map Element.listing

variable {s s' : Store T}

theorem registry_iff (hS : s.Sound) (path : String) (x : Listing Addr Terms (Option Json)) :
    s.registry path = some x ↔ ∃ e, (s.elements e).map Element.record = some (path, x) := by
  unfold registry
  constructor
  · intro h
    obtain ⟨el, hel, rfl⟩ := Option.map_eq_some_iff.mp h
    obtain ⟨e, hget, he⟩ := Option.bind_eq_some_iff.mp hel
    obtain ⟨el', he', rfl⟩ := (hS.paths path e).mp hget
    obtain rfl : el = el' := Option.some.inj (he.symm.trans he')
    exact ⟨e, by rw [he]; rfl⟩
  · rintro ⟨e, h⟩
    obtain ⟨el, he, hrecord⟩ := Option.map_eq_some_iff.mp h
    obtain ⟨rfl, rfl⟩ := Prod.mk.inj hrecord
    rw [(hS.paths el.path e).mpr ⟨el, he, rfl⟩, Option.bind_some, he]
    rfl

theorem registry_of_element (hS : s.Sound) {e : Addr} {el : Element} (he : s.elements e = some el) :
    s.registry el.path = some el.listing :=
  (registry_iff hS _ _).mpr ⟨e, by rw [he]; rfl⟩

/-- the element under a path -/
theorem element_of_registry (hS : s.Sound) {path : String} {x : Listing Addr Terms (Option Json)}
    (h : s.registry path = some x) :
    ∃ e el, HashTable.get s.elementTable path = some e ∧ s.elements e = some el ∧ el.path = path ∧ el.listing = x := by
  obtain ⟨e, he⟩ := (registry_iff hS path x).mp h
  obtain ⟨el, hel, hrecord⟩ := Option.map_eq_some_iff.mp he
  obtain ⟨rfl, rfl⟩ := Prod.mk.inj hrecord
  exact ⟨e, el, (hS.paths el.path e).mpr ⟨el, hel, rfl⟩, hel, rfl, rfl⟩

theorem registry_none (hS : s.Sound) {path : String} :
    s.registry path = none ↔ HashTable.get s.elementTable path = none := by
  constructor
  · intro h
    cases hget : HashTable.get s.elementTable path with
    | none => rfl
    | some e =>
      obtain ⟨el, hel, rfl⟩ := (hS.paths path e).mp hget
      rw [registry_of_element hS hel] at h
      cases h
  · intro h
    unfold registry
    rw [h]
    rfl

/-- the elements are the same up to their subscriptions -/
theorem registry_congr (hS : s.Sound) (hS' : s'.Sound)
    (h : ∀ e, (s'.elements e).map Element.record = (s.elements e).map Element.record) : s'.registry = s.registry := by
  funext path
  refine Option.ext fun x => ?_
  rw [registry_iff hS', registry_iff hS]
  simp only [h]

/-- a new element -/
theorem registry_added (hS : s.Sound) (hS' : s'.Sound) {a : Addr} {el : Element} (hfree : s.elements a = none)
    (hpath : s.registry el.path = none)
    (h : ∀ e, (s'.elements e).map Element.record = if e = a then some el.record else (s.elements e).map Element.record) :
    s'.registry = (RegistryOp.register el.path el.listing : PathOp).apply s.registry := by
  funext path
  refine Option.ext fun x => ?_
  rw [registry_iff hS', RegistryOp.apply]
  by_cases hp : path = el.path
  · subst hp
    rw [Function.update_self]
    constructor
    · rintro ⟨e, he⟩
      rw [h] at he
      by_cases hea : e = a
      · rw [if_pos hea] at he
        rw [(Prod.mk.inj (Option.some.inj he)).2]
      · rw [if_neg hea] at he
        rw [(registry_iff hS _ _).mpr ⟨e, he⟩] at hpath
        cases hpath
    · intro hx
      obtain rfl := Option.some.inj hx
      exact ⟨a, by rw [h, if_pos rfl]; rfl⟩
  · rw [Function.update_of_ne hp, registry_iff hS]
    refine exists_congr fun e => ?_
    rw [h]
    by_cases hea : e = a
    · rw [if_pos hea, hea, hfree]
      refine iff_of_false (fun he => hp ?_) fun he => by cases he
      exact (Prod.mk.inj (Option.some.inj he)).1.symm
    · rw [if_neg hea]

/-- another value -/
theorem registry_changed (hS : s.Sound) (hS' : s'.Sound) {a : Addr} {el : Element} (hel : s.elements a = some el)
    (value : Json) (h : ∀ e, (s'.elements e).map Element.record
      = if e = a then some (el.withValue value).record else (s.elements e).map Element.record) :
    s'.registry = (RegistryOp.write el.path (some value) : PathOp).apply s.registry := by
  funext path
  refine Option.ext fun x => ?_
  rw [registry_iff hS', RegistryOp.apply]
  have hother : ∀ e, e ≠ a → (s.elements e).map Element.record ≠ some (el.path, x) := by
    intro e hea he
    obtain ⟨el', he', hrecord⟩ := Option.map_eq_some_iff.mp he
    exact hea (hS.eq_of_path he' hel (Prod.mk.inj hrecord).1)
  by_cases hp : path = el.path
  · subst hp
    rw [Function.update_self, registry_of_element hS hel]
    constructor
    · rintro ⟨e, he⟩
      rw [h] at he
      by_cases hea : e = a
      · rw [if_pos hea] at he
        obtain ⟨-, rfl⟩ := Prod.mk.inj (Option.some.inj he)
        rfl
      · rw [if_neg hea] at he
        exact absurd he (hother e hea)
    · intro hx
      obtain rfl := Option.some.inj hx
      exact ⟨a, by rw [h, if_pos rfl]; rfl⟩
  · rw [Function.update_of_ne hp, registry_iff hS]
    refine exists_congr fun e => ?_
    rw [h]
    by_cases hea : e = a
    · rw [if_pos hea, hea, hel]
      refine iff_of_false (fun he => hp ?_) fun he => hp ?_
      · exact (Prod.mk.inj (Option.some.inj he)).1.symm
      · exact (Prod.mk.inj (Option.some.inj he)).1.symm
    · rw [if_neg hea]

/-- an element less -/
theorem registry_removed (hS : s.Sound) (hS' : s'.Sound) {a : Addr} {el : Element} (hel : s.elements a = some el)
    (h : ∀ e, (s'.elements e).map Element.record = if e = a then none else (s.elements e).map Element.record) :
    s'.registry = (RegistryOp.unregister el.path : PathOp).apply s.registry := by
  funext path
  refine Option.ext fun x => ?_
  rw [registry_iff hS', RegistryOp.apply]
  by_cases hp : path = el.path
  · subst hp
    rw [Function.update_self]
    refine iff_of_false ?_ fun he => by cases he
    rintro ⟨e, he⟩
    rw [h] at he
    by_cases hea : e = a
    · rw [if_pos hea] at he
      cases he
    · rw [if_neg hea] at he
      obtain ⟨el', he', hrecord⟩ := Option.map_eq_some_iff.mp he
      exact hea (hS.eq_of_path he' hel (Prod.mk.inj hrecord).1)
  · rw [Function.update_of_ne hp, registry_iff hS]
    refine exists_congr fun e => ?_
    rw [h]
    by_cases hea : e = a
    · rw [if_pos hea, hea, hel]
      refine iff_of_false (fun he => by cases he) fun he => hp ?_
      exact (Prod.mk.inj (Option.some.inj he)).1.symm
    · rw [if_neg hea]

/-- the elements of `p` are gone -/
theorem registry_left (hS : s.Sound) (hS' : s'.Sound) {p : Addr} (hp : p ∉ s'.peerList)
    (hstill : ∀ e el, s.elements e = some el → el.peer ≠ p → (s'.elements e).map Element.record = some el.record)
    (hback : ∀ e, s'.elements e = none ∨ (s'.elements e).map Element.record = (s.elements e).map Element.record) :
    s'.registry = (RegistryOp.leave p : PathOp).apply s.registry := by
  funext path
  refine Option.ext fun x => ?_
  show _ ↔ (s.registry path).filter _ = _
  rw [Option.filter_eq_some_iff, registry_iff hS', registry_iff hS]
  constructor
  · rintro ⟨e, he⟩
    obtain ⟨el, hel, hrecord⟩ := Option.map_eq_some_iff.mp he
    obtain ⟨rfl, rfl⟩ := Prod.mk.inj hrecord
    refine ⟨⟨e, ?_⟩, decide_eq_true ?_⟩
    · rcases hback e with hnone | hsame
      · rw [hnone] at hel
        cases hel
      · rw [← hsame, he]
    · rintro rfl
      exact hp (hS'.peer_mem hel)
  · rintro ⟨⟨e, he⟩, hne⟩
    obtain ⟨el, hel, hrecord⟩ := Option.map_eq_some_iff.mp he
    obtain ⟨rfl, rfl⟩ := Prod.mk.inj hrecord
    exact ⟨e, hstill e el hel (of_decide_eq_true hne)⟩

end Store

/-! ## what the requests ask for -/

variable {env : Env} {b b' : Broker T} {p : Addr} {request : Json} {res : Response}

theorem Json.HasMethod.unique {name name' : String} (h : request.HasMethod name) (h' : request.HasMethod name') :
    name = name' := Json.str.inj (Option.some.inj (h.symm.trans h'))

theorem readAdd_peer {platform : Platform} {allGroups : Option (List String)} {el : Element}
    (h : readAdd platform allGroups p request = .ok el) : el.peer = p := by
  unfold readAdd at h
  cases hpp : getParamsAndPath request with
  | error err =>
    rw [hpp] at h
    cases h
  | ok pp =>
    rw [hpp] at h
    cases hflags : getFetchOnlyFromParams pp.1 with
    | error err =>
      simp only [bind, Except.bind, mapError_ok, mapError_error, hflags] at h
      cases h
    | ok flags =>
      cases htimeout : getTimeoutInNsec platform (pp.1.getObjectItem "timeout")
          (convertSecondsToNsec platform platform.config.routedMessagesTimeout) with
      | error err =>
        simp only [bind, Except.bind, mapError_ok, hflags, htimeout] at h
        cases h
      | ok timeout =>
        simp only [bind, Except.bind, mapError_ok, hflags, htimeout] at h
        exact (fillAccess_some (mapError_eq_ok.mp h)).1

/-- an add that no check refuses describes no element only where its timeout, or the one of the configuration, is 0 -/
theorem readAdd_none {platform : Platform} {allGroups : Option (List String)}
    (h : readAdd platform allGroups p request = .error none) :
    ∃ params path, getParamsAndPath request = .ok (params, path) ∧
      ((params.getObjectItem "timeout" = none ∧
          convertSecondsToNsec platform platform.config.routedMessagesTimeout = 0) ∨
        ∃ q, params.getObjectItem "timeout" = some (.num q) ∧ 2 ^ 64 ≤ Double.truncate (q.num * 1000000000) q.den) := by
  unfold readAdd at h
  cases hpp : getParamsAndPath request with
  | error err =>
    rw [hpp] at h
    cases h
  | ok pp =>
    obtain ⟨params, path⟩ := pp
    refine ⟨params, path, rfl, ?_⟩
    rw [hpp] at h
    cases hflags : getFetchOnlyFromParams params with
    | error err =>
      simp only [bind, Except.bind, mapError_ok, mapError_error, hflags] at h
      cases h
    | ok flags =>
      cases htimeout : getTimeoutInNsec platform (params.getObjectItem "timeout")
          (convertSecondsToNsec platform platform.config.routedMessagesTimeout) with
      | error err =>
        simp only [bind, Except.bind, mapError_ok, hflags, htimeout] at h
        obtain rfl := Except.error.inj h
        cases hitem : params.getObjectItem "timeout" with
        | none =>
          rw [hitem] at htimeout
          exact Or.inl ⟨rfl, (nonzeroTimeout_error htimeout).2⟩
        | some timeout =>
          rw [hitem] at htimeout
          cases timeout with
          | num q => exact Or.inr ⟨q, rfl, getTimeoutInNsec_none htimeout⟩
          | _ => cases htimeout
      | ok timeout =>
        simp only [bind, Except.bind, mapError_ok, hflags, htimeout] at h
        cases hfill : fillAccess allGroups (params.getObjectItem "access")
            ⟨path, p, params.getObjectItem "value", List.replicate platform.config.initialFetchTableSize none, 0, 0, 0,
              flags, timeout⟩ with
        | error err =>
          rw [hfill] at h
          cases h
        | ok el =>
          rw [hfill] at h
          cases h

/-- The checks of add pass for the element that the request describes, if its path is free. -/
theorem addAccepted_iff (hS : b.toStore.Sound) {el : Element} : AddAccepted env b p request el ↔
    readAdd env.toPlatform b.allGroups p request = .ok el ∧ b.toStore.registry el.path = none := by
  unfold AddAccepted checkAdd readAdd
  cases hpp : getParamsAndPath request with
  | error err =>
    refine iff_of_false ?_ fun h => by cases h.1
    rintro ⟨el', access, h, -⟩
    cases h
  | ok pp =>
    obtain ⟨params, path⟩ := pp
    cases hflags : getFetchOnlyFromParams params with
    | error err =>
      simp only [bind, Except.bind, mapError_ok, mapError_error, hflags]
      refine iff_of_false ?_ fun h => by cases h.1
      rintro ⟨el', access, h, -⟩
      cases h
    | ok flags =>
      cases htimeout : getTimeoutInNsec env.toPlatform (params.getObjectItem "timeout")
          (convertSecondsToNsec env.toPlatform env.config.routedMessagesTimeout) with
      | error err =>
        simp only [bind, Except.bind, mapError_ok, hflags, htimeout]
        refine iff_of_false ?_ fun h => by cases h.1
        rintro ⟨el', access, h, -⟩
        cases h
      | ok timeout =>
        simp only [bind, Except.bind, mapError_ok, hflags, htimeout]
        cases hget : HashTable.get b.elementTable path with
        | some e =>
          refine iff_of_false ?_ ?_
          · rintro ⟨el', access, h, -⟩
            cases h
          · rintro ⟨hfill, hnone⟩
            rw [(fillAccess_some (mapError_eq_ok.mp hfill)).2.1, Store.registry_none hS, hget] at hnone
            cases hnone
        | none =>
          constructor
          · rintro ⟨el', access, h, hfill⟩
            cases h
            refine ⟨mapError_eq_ok.mpr hfill, ?_⟩
            rw [(fillAccess_some hfill).2.1, Store.registry_none hS]
            exact hget
          · rintro ⟨hfill, -⟩
            exact ⟨_, _, rfl, mapError_eq_ok.mp hfill⟩

theorem changeAccepted_iff (hS : b.toStore.Sound) {path : String} {value : Json}
    (hread : getPathAndValue request = .ok (path, value)) :
    (∃ e el, ChangeAccepted b p request e el value) ↔
      ∃ x, b.toStore.registry path = some x ∧ x.owner = p ∧ x.value.isSome = true := by
  constructor
  · rintro ⟨e, el, hacc⟩
    have howner := hacc.peer
    obtain ⟨path', hread', hget, hel, hcheck⟩ := hacc
    rw [hread] at hread'
    cases hread'
    obtain ⟨el', hel', rfl⟩ := (hS.paths path e).mp hget
    obtain rfl : el = el' := Option.some.inj (hel.symm.trans hel')
    refine ⟨el.listing, Store.registry_of_element hS hel, howner, ?_⟩
    unfold checkChange at hcheck
    rw [if_neg (not_not_intro howner)] at hcheck
    show el.value.isSome = true
    cases hvalue : el.value with
    | none =>
      rw [hvalue] at hcheck
      cases hcheck
    | some v => rfl
  · rintro ⟨x, hx, howner, hstate⟩
    obtain ⟨e, el, hget, hel, rfl, rfl⟩ := Store.element_of_registry hS hx
    have howner : el.peer = p := howner
    have hstate : el.value.isSome = true := hstate
    refine ⟨e, el, el.path, hread, hget, hel, ?_⟩
    unfold checkChange
    rw [if_neg (not_not_intro howner), if_neg (by rw [Option.isNone_eq_false_iff.mpr hstate]; exact Bool.false_ne_true)]

/-- the peer finds an element under the path in its list if and only if it owns it -/
theorem findElement_of_registry (hS : b.toStore.Sound) {path : String} {x : Listing Addr Terms (Option Json)}
    (h : b.toStore.registry path = some x) (howner : x.owner = p) : ∃ e, findElement b p path = some e := by
  obtain ⟨e, el, hget, hel, rfl, rfl⟩ := Store.element_of_registry hS h
  have helem : b.elementOwner e = some p := by
    rw [Store.elementOwner, hel]
    exact congrArg some howner
  have hmem := (hS.elements.listed e p helem).2
  have hsome : (findElement b p el.path).isSome = true := by
    unfold findElement
    rw [List.find?_isSome]
    refine ⟨e, hmem, ?_⟩
    rw [show b.elements e = some el from hel]
    simp
  exact Option.isSome_iff_exists.mp hsome

/-! ## the requests -/

theorem allocElementParts_ok (ha : env.AllocOk) (el : Element) (n : Nat) :
    ∃ k, allocElementParts env el n = (.ok (), k) := by
  unfold allocElementParts
  rw [Alloc.bind_apply, call_ok env ha rfl]
  show ∃ k, (Alloc.duplicateString env el.path >>= _) (n + 1) = _
  have hstring : Alloc.duplicateString env el.path (n + 1) = (some el.path, n + 2) := tryCall_ok env ha rfl _ _
  rw [Alloc.bind_apply, hstring]
  cases hvalue : el.value with
  | none => exact ⟨n + 2, rfl⟩
  | some value =>
    show ∃ k, (duplicate env value >>= _) (n + 2) = _
    rw [Alloc.bind_apply, duplicate_ok env ha]
    exact ⟨n + 3, rfl⟩

theorem initElement_ok (ha : env.AllocOk) {el : Element} (hacc : AddAccepted env b p request el) :
    ∃ n, initElement env p request b = some (.ok el, { b with calls := n }) := by
  obtain ⟨el', access, hcheck, hfill⟩ := hacc
  obtain ⟨k, hparts⟩ := allocElementParts_ok ha el' b.calls
  refine ⟨k, ?_⟩
  unfold initElement
  rw [Prog.bind_of_some (Prog.read_apply id b)]
  simp only [id, hcheck]
  have halloc : allocating (allocElementParts env el') b = some (.ok (), { b with calls := k }) := by
    rw [allocating_apply, hparts]
  rw [Prog.bind_of_some halloc]
  simp only [hfill]
  rfl

/-- Where nothing fails an element whose checks pass is added. -/
theorem addElementToPeer_works (hS : b.toStore.Sound) {el : Element} (hacc : AddAccepted env b p request el)
    (hmay : ¬ b.mayRefuse env p el) (h : addElementToPeer env p request b = some (res, b')) :
    ∃ json, res = ⟨.success, json⟩ := by
  unfold Broker.mayRefuse at hmay
  rw [not_or, not_or, not_not] at hmay
  obtain ⟨⟨ha, hs⟩, hput, hlocal⟩ := hmay
  obtain ⟨b1, b2, h1, h2⟩ := Prog.bind_some h
  obtain ⟨rfl, rfl⟩ := Prog.read_some h1
  simp only [hlocal] at h2
  obtain ⟨ok, b3, h3, h4⟩ := Prog.bind_some h2
  obtain ⟨rfl, rfl⟩ := call_some h3
  simp only [ha _ _ (rfl : Call.isAllocation .calloc = true), if_true] at h4
  obtain ⟨r, b4, h5, h6⟩ := Prog.bind_some h4
  obtain ⟨n, hinit⟩ := initElement_ok (b := { b2 with calls := b2.calls + 1 }) ha hacc
  obtain ⟨rfl, rfl⟩ := Prod.mk.inj (Option.some.inj (hinit.symm.trans h5))
  obtain ⟨e, b5, h7, h8⟩ := Prog.bind_some h6
  obtain ⟨b6, b7, h9, h10⟩ := Prog.bind_some h7
  obtain ⟨rfl, rfl⟩ := Prog.read_some h9
  obtain ⟨_, b8, h11, h12⟩ := Prog.bind_some h10
  obtain rfl := Prog.update_some h11
  obtain ⟨rfl, rfl⟩ := Prog.pure_some h12
  obtain ⟨ok, b9, h13, h14⟩ := Prog.bind_some h8
  have h13 : findFetchersForElement env b2.fresh (b2.withElement el n) = some (ok, b9) := h13
  obtain ⟨sub, table, l, k, hE, rfl⟩ := enterNewElement h13
  obtain rfl : ok = true := hE.works ha hs fun f _ ft hft => hS.ids f ft hft
  obtain ⟨put, b10, h15, h16⟩ := Prog.bind_some h14
  have hfull : (HashTable.put b2.elementTable el.path b2.fresh).1 = put :=
    congrArg Prod.fst (Option.some.inj h15)
  cases put with
  | false => exact absurd hfull hput
  | true =>
    obtain ⟨_, b11, h17, h18⟩ := Prog.bind_some h16
    obtain ⟨json, n', rfl, -⟩ := successResponse_some h18
    exact ⟨json, rfl⟩

/-! ## the steps -/

/-- nothing that is asked for is left undone where the registry stays -/
theorem performs_idle {mayRefuse : Addr → Element → Prop} {event : Event} (hS : b.toStore.Sound) (hS' : b'.toStore.Sound)
    (hsame : ∀ e, (b'.elements e).map Element.record = (b.elements e).map Element.record)
    (h : ∀ op, Asks env b.allGroups b.toStore.registry event op →
      ∃ p el, mayRefuse p el ∧ op = .register el.path el.listing) :
    ∃ op, Performs env b.allGroups b.toStore.registry mayRefuse event op ∧
      b'.toStore.registry = op.apply b.toStore.registry :=
  ⟨.idle, Or.inr ⟨rfl, h⟩, Store.registry_congr hS hS' hsame⟩

theorem map_record_update {elements : Addr → Option Element} {a e : Addr} {x : Option Element} :
    (Function.update elements a x e).map Element.record = if e = a then x.map Element.record
      else (elements e).map Element.record := by
  by_cases hea : e = a
  · rw [if_pos hea, hea, Function.update_self]
  · rw [if_neg hea, Function.update_of_ne hea]

theorem change_registry (hS : b.toStore.Sound) (hS' : b'.toStore.Sound) (hcalls : b.calls = 0)
    (hm : request.HasMethod "change") (h : ChangeState env b p request res b') :
    ∃ op, Performs env b.allGroups b.toStore.registry (b.mayRefuse env) (.rpc p request) op ∧
      b'.toStore.registry = op.apply b.toStore.registry := by
  cases h with
  | rejected json n h =>
    refine performs_idle hS hS' (fun e => rfl) fun op hop => ?_
    cases hop with
    | add _ _ el hm' => exact absurd (hm'.unique hm) (by decide)
    | change _ _ path value x hm' hread hx howner hstate hok =>
      obtain ⟨e, el, hacc⟩ := (changeAccepted_iff hS hread).mpr ⟨x, hx, howner, hstate⟩
      have hfail := h e el value hacc
      rw [hcalls, hok] at hfail
      cases hfail
    | remove _ _ params path x hm' => exact absurd (hm'.unique hm) (by decide)
  | replaced json e el value ok l n n' hacc hok hl =>
    have howner := hacc.peer
    obtain ⟨path, hread, hget, hel, hcheck⟩ := hacc
    have hacc : ChangeAccepted b p request e el value := ⟨path, hread, hget, hel, hcheck⟩
    obtain ⟨x, hx, hxowner, hstate⟩ := (changeAccepted_iff hS hread).mp ⟨e, el, hacc⟩
    obtain ⟨el', hel', rfl⟩ := (hS.paths path e).mp hget
    obtain rfl : el = el' := Option.some.inj (hel.symm.trans hel')
    rw [hcalls] at hok
    refine ⟨.write el.path (some value), Or.inl (.change p request el.path value x hm hread hx hxowner hstate hok), ?_⟩
    exact Store.registry_changed hS hS' hel value fun a => map_record_update

theorem add_registry (hS : b.toStore.Sound) (hS' : b'.toStore.Sound) (hm : request.HasMethod "add")
    (hrun : addElementToPeer env p request b = some (res, b')) (h : AddElement env b p request res b') :
    ∃ op, Performs env b.allGroups b.toStore.registry (b.mayRefuse env) (.rpc p request) op ∧
      b'.toStore.registry = op.apply b.toStore.registry := by
  -- where the answer is an error a registration that is asked for may be refused
  have hrefused : ∀ json, res = ⟨.error, json⟩ → ∀ op, Asks env b.allGroups b.toStore.registry (.rpc p request) op →
      ∃ p el, b.mayRefuse env p el ∧ op = .register el.path el.listing := by
    intro json hres op hop
    cases hop with
    | add _ _ el hm' hread hfree =>
      refine ⟨p, el, ?_, rfl⟩
      by_contra hmay
      obtain ⟨json', hres'⟩ := addElementToPeer_works hS ((addAccepted_iff hS).mpr ⟨hread, hfree⟩) hmay hrun
      rw [hres] at hres'
      cases hres'
    | change _ _ path value x hm' => exact absurd (hm'.unique hm) (by decide)
    | remove _ _ params path x hm' => exact absurd (hm'.unique hm) (by decide)
  have hfresh := (hS.unused b.fresh (Nat.le_refl _)).1
  have hgone : ∀ e, (Function.update b.elements b.fresh none e).map Element.record
      = (b.elements e).map Element.record := by
    intro e
    rw [← hfresh, Function.update_eq_self]
  cases h with
  | rejected json n => exact performs_idle hS hS' (fun e => rfl) (hrefused json rfl)
  | notNotified json el n n' b1 hacc h1 =>
    obtain ⟨sub, table, l, k, -, rfl⟩ := enterNewElement h1
    refine performs_idle hS hS' (fun e => ?_) (hrefused json rfl)
    simp only [Broker.withElement, Function.update_idem]
    exact hgone e
  | full json el n n' b1 hacc h1 hput =>
    obtain ⟨sub, table, l, k, -, rfl⟩ := enterNewElement h1
    refine performs_idle hS hS' (fun e => ?_) (hrefused json rfl)
    simp only [Broker.withElement, Function.update_idem]
    exact hgone e
  | added json el n n' b1 hacc h1 hput =>
    obtain ⟨sub, table, l, k, -, rfl⟩ := enterNewElement h1
    obtain ⟨hread, hfree⟩ := (addAccepted_iff hS).mp hacc
    refine ⟨.register el.path el.listing, Or.inl (.add p request el hm hread hfree), ?_⟩
    refine Store.registry_added hS hS' (a := b.fresh) hfresh hfree fun e => ?_
    simp only [Broker.withElement, Function.update_idem]
    rw [map_record_update]
    rfl

theorem remove_registry (hS : b.toStore.Sound) (hS' : b'.toStore.Sound) (hp : p ∈ b.peerList)
    (hm : request.HasMethod "remove") (h : removeElementFromPeer env p request b = some (res, b')) :
    ∃ op, Performs env b.allGroups b.toStore.registry (b.mayRefuse env) (.rpc p request) op ∧
      b'.toStore.registry = op.apply b.toStore.registry := by
  rcases removeElementFromPeer_some h with ⟨json, n, rfl, rfl⟩ | ⟨params, path, e, b1, json, n, hread, hfind, h1, -, rfl⟩
  · refine performs_idle hS hS' (fun e => rfl) fun op hop => ?_
    cases hop with
    | add _ _ el hm' => exact absurd (hm'.unique hm) (by decide)
    | change _ _ path value x hm' => exact absurd (hm'.unique hm) (by decide)
    | remove _ _ params path x hm' hread hx howner =>
      -- the element would have been found
      obtain ⟨e, hfind⟩ := findElement_of_registry hS hx howner
      unfold removeElementFromPeer at h
      rw [hread] at h
      obtain ⟨o, b1, h1, h2⟩ := Prog.bind_some h
      obtain ⟨rfl, rfl⟩ := Prog.read_some h1
      rw [hfind] at h2
      obtain ⟨_, b2, h3, h4⟩ := Prog.bind_some h2
      obtain ⟨json', n', hres, -⟩ := successResponse_some h4
      cases hres
  · obtain ⟨hmem, el, hel, rfl⟩ := findElement_some hfind
    obtain ⟨el', hel', howner⟩ := hS.element_of_mem hp hmem
    obtain rfl : el = el' := Option.some.inj (hel.symm.trans hel')
    refine ⟨.unregister el.path,
      Or.inl (.remove p request params el.path el.listing hm hread (Store.registry_of_element hS hel) howner), ?_⟩
    obtain ⟨el2, ok, l, k, hel2, -, rfl⟩ := removeElement_some h1
    exact Store.registry_removed hS hS' hel fun a => map_record_update

/-- nothing but subscriptions changes, except that elements may go away -/
def NothingNew (b b' : Broker T) : Prop :=
  ∀ e, b'.elements e = none ∨ (b'.elements e).map Element.record = (b.elements e).map Element.record

instance : IsPreorder (Broker T) NothingNew where
  refl b e := Or.inr rfl
  trans a b c hab hbc e := by
    rcases hbc e with h | h
    · exact Or.inl h
    · rcases hab e with h' | h'
      · rw [h', Option.map_none, Option.map_eq_none_iff] at h
        exact Or.inl h
      · exact Or.inr (h.trans h')

theorem nothingNew_disconnect {u : Unit} (h : freePeerResources env p b = some (u, b')) : NothingNew b b' := by
  obtain ⟨b2, b3, b4, r2, h3, h4, rfl⟩ := freePeerResources_some h
  have k2 : NothingNew b b2 := fun e => Or.inr (by rw [r2.store])
  have k3 : NothingNew b2 b3 := Does.each (E := NothingNew) (b2.fetchList p) (fun f _ s a t ht e => by
    obtain ⟨b1, ⟨elements, rfl, hE⟩, rfl⟩ := removeFetch_some ht
    refine Or.inr ?_
    show (elements e).map Element.record = _
    rw [hE e]
    by_cases he : e ∈ s.peerList.flatMap s.elementList
    · rw [if_pos he, Option.map_map]
      rfl
    · rw [if_neg he]) b2 () b3 h3
  have k4 : NothingNew b3 b4 := Does.each (E := NothingNew) (b3.elementList p) (fun a _ s x t ht e => by
    obtain ⟨el, ok, l, n, hel, -, rfl⟩ := removeElement_some ht
    by_cases hea : e = a
    · exact Or.inl (by rw [hea]; exact Function.update_self _ _ _)
    · exact Or.inr (congrArg _ (Function.update_of_ne hea _ _))) b3 () b4 h4
  exact trans_of NothingNew k2 (trans_of NothingNew k3 k4)

theorem disconnect_registry {u : Unit} (hS : b.toStore.Sound) (hS' : b'.toStore.Sound) (hp : p ∈ b.peerList)
    (hgone : p ∉ b'.peerList) (h : freePeerResources env p b = some (u, b')) :
    b'.toStore.registry = (RegistryOp.leave p : PathOp).apply b.toStore.registry := by
  refine Store.registry_left hS hS' hgone (fun e el hel hne => ?_) (nothingNew_disconnect h)
  obtain ⟨table, hel'⟩ := freePeerResources_keepsOthers hS hp h e el hel hne
  rw [hel']
  rfl

theorem handled_registry (hS : b.toStore.Sound) (hS' : b'.toStore.Sound) (hcalls : b.calls = 0) (hp : p ∈ b.peerList)
    (hrun : handlerOf env p request b = some (res, b')) :
    ∃ op, Performs env b.allGroups b.toStore.registry (b.mayRefuse env) (.rpc p request) op ∧
      b'.toStore.registry = op.apply b.toStore.registry := by
  -- a request with another method asks for nothing
  have hother : ∀ {name : String}, request.HasMethod name → name ∉ ["add", "change", "remove"] →
      ∀ op, Asks env b.allGroups b.toStore.registry (.rpc p request) op →
        ∃ p el, b.mayRefuse env p el ∧ op = .register el.path el.listing := by
    intro name hm hn op hop
    cases hop with
    | add _ _ el hm' => exact absurd (by rw [hm.unique hm']; simp) hn
    | change _ _ path value x hm' => exact absurd (by rw [hm.unique hm']; simp) hn
    | remove _ _ params path x hm' => exact absurd (by rw [hm.unique hm']; simp) hn
  cases handlerOf_some hrun with
  | change hm h => exact change_registry hS hS' hcalls hm h
  | add hm h =>
    rw [handlerOf_of_method env hm] at hrun
    exact add_registry hS hS' hm hrun h
  | remove hm h => exact remove_registry hS hS' hp hm h
  | fetch hm h =>
    refine performs_idle hS hS' (fun e => ?_) (hother hm (by decide))
    cases h with
    | rejected json n h => rfl
    | fetched json ft ok n n' b1 h h1 =>
      obtain ⟨sub, elements, l, k, hE, rfl⟩ := enterElements hS.nodup_allElements h1
      show (elements e).map Element.record = (b.elements e).map Element.record
      by_cases hsub : e ∈ sub
      · obtain ⟨el, table, h2, h3, -⟩ := hE.entries e hsub
        have h2 : b.elements e = some el := h2
        rw [h2, h3]
        rfl
      · rw [hE.others e hsub]
        rfl
  | unfetch hm h =>
    refine performs_idle hS hS' (fun e => ?_) (hother hm (by decide))
    rcases removeFetchFromPeer_some h with ⟨json, n, -, rfl⟩ | ⟨f, b1, json, n, hf, h1, -, rfl⟩
    · rfl
    · obtain ⟨rfl, -⟩ := removeFetch_step (fun _ _ => True) env hS hp hf h1
      show ((b.elements e).map fun el => el.without f).map Element.record = _
      rw [Option.map_map]
      rfl
  | authenticate hm h =>
    refine performs_idle hS hS' (fun e => ?_) (hother hm (by decide))
    cases h <;> rfl
  | passwd hm h =>
    refine performs_idle hS hS' (fun e => ?_) (hother hm (by decide))
    rw [(bystander_handleChangePassword p request b res b' h).store]
  | other hm h hu =>
    refine performs_idle hS hS' (fun e => by rw [h.store]) fun op hop => ?_
    cases hop with
    | add _ _ el hm' => exact absurd hm' (hm "add" (by decide))
    | change _ _ path value x hm' => exact absurd hm' (hm "change" (by decide))
    | remove _ _ params path x hm' => exact absurd hm' (hm "remove" (by decide))

/-- Each step of the broker performs the operation of the event on the registry. -/
theorem stepped_registry {event : Event} (hS : b.toStore.Sound) (hcalls : b.calls = 0) (h : Stepped env b event b') :
    ∃ op, Performs env b.allGroups b.toStore.registry (b.mayRefuse env) event op ∧
      b'.toStore.registry = op.apply b.toStore.registry := by
  have hS' := sound_stepped hS h
  cases h with
  | notConnected p connection isLocal n => exact performs_idle hS hS' (fun e => rfl) fun op hop => by cases hop
  | connected p connection isLocal n hp => exact performs_idle hS hS' (fun e => rfl) fun op hop => by cases hop
  | answered p request res ret b1 b2 hp hr h1 h2 =>
    obtain ⟨_, n, l, rfl, -, -⟩ := sendResponse_some h2
    have hS1 : b1.toStore.Sound := hS'
    obtain ⟨op, hop, hregistry⟩ := handled_registry hS hS1 hcalls hp h1
    exact ⟨op, hop, hregistry⟩
  | response p request response resultType ret b1 hp hr h1 =>
    have hstore := (does_handleRoutingResponse env request response resultType p b ret b1 h1).store
    refine performs_idle hS hS' (fun e => ?_) fun op hop => ?_
    · show (b1.elements e).map Element.record = _
      rw [hstore]
    · have hno : ∀ name, ¬ request.HasMethod name := fun name hm => by
        rw [hm.routingResponse] at hr
        cases hr
      cases hop with
      | add _ _ el hm' => exact absurd hm' (hno _)
      | change _ _ path value x hm' => exact absurd hm' (hno _)
      | remove _ _ params path x hm' => exact absurd hm' (hno _)
  | timeout r b1 ht h1 =>
    refine performs_idle hS hS' (fun e => ?_) fun op hop => by cases hop
    rw [(does_requestTimeoutHandler env r b () _ h1).store]
  | disconnected p b1 hp h1 =>
    have hgone := notMem_of_disconnect hS (Stepped.disconnected p b' hp h1)
    exact ⟨.leave p, Or.inl (.leave p), disconnect_registry hS hS' hp hgone h1⟩

/-! ## runs -/

section
variable (platform : Platform)

/-- the operations that the inputs of a run perform, one after the other -/
inductive Performed : Broker T → List Input → List PathOp → Broker T → Prop
  | nil (b : Broker T) : Performed b [] [] b
  | cons {b b1 b' : Broker T} {i : Input} {l : List Input} {op : PathOp} {ops : List PathOp}
    (hstep : step platform b i = some b1)
    (hop : Performs (i.env platform) b.allGroups b.toStore.registry (b.mayRefuse (i.env platform)) i.event op)
    (happly : b1.toStore.registry = op.apply b.toStore.registry) (hgroups : b1.allGroups = b.allGroups)
    (h : Performed b1 l ops b') : Performed b (i :: l) (op :: ops) b'

/-- the value under a path after an input, where `p` owns the path: a change by `p` replaces the value of a state -/
def Input.changed (p : Addr) (path : String) (v : Option Json) (i : Input) : Option Json :=
  match i.event with
  | .rpc q request =>
    match request.getObjectItem "method", getPathAndValue request with
    | some (.str "change"), .ok (path', value) =>
      if q = p ∧ path' = path ∧ v.isSome = true ∧ (i.env platform).ok .duplicateItem 0 = true then some value else v
    | _, _ => v
  | _ => v

/-- neither does `p` leave, nor does it remove the path -/
def Input.KeepsPath (p : Addr) (path : String) (i : Input) : Prop :=
  i.event ≠ .disconnect p ∧ ∀ request params, i.event = .rpc p request → request.HasMethod "remove" →
    getParamsAndPath request ≠ .ok (params, path)

end

theorem Asks.unique {allGroups : Option (List String)} {r : PathRegistry} {event : Event} {op op' : PathOp}
    (h : Asks env allGroups r event op) (h' : Asks env allGroups r event op') : op = op' := by
  cases h with
  | add p request el hm hread hfree =>
    cases h' with
    | add _ _ el' hm' hread' hfree' =>
      obtain rfl := Except.ok.inj (hread.symm.trans hread')
      rfl
    | change _ _ path value x hm' => exact absurd (hm.unique hm') (by decide)
    | remove _ _ params path x hm' => exact absurd (hm.unique hm') (by decide)
  | change p request path value x hm hread hx howner hstate hok =>
    cases h' with
    | add _ _ el' hm' => exact absurd (hm.unique hm') (by decide)
    | change _ _ path' value' x' hm' hread' =>
      obtain ⟨rfl, rfl⟩ := Prod.mk.inj (Except.ok.inj (hread.symm.trans hread'))
      rfl
    | remove _ _ params path x hm' => exact absurd (hm.unique hm') (by decide)
  | remove p request params path x hm hread hx howner =>
    cases h' with
    | add _ _ el' hm' => exact absurd (hm.unique hm') (by decide)
    | change _ _ path' value' x' hm' => exact absurd (hm.unique hm') (by decide)
    | remove _ _ params' path' x' hm' hread' =>
      obtain ⟨-, rfl⟩ := Prod.mk.inj (Except.ok.inj (hread.symm.trans hread'))
      rfl
  | leave p =>
    cases h'
    rfl

theorem Performs.eq_of_asks {allGroups : Option (List String)} {r : PathRegistry} {mayRefuse : Addr → Element → Prop}
    {event : Event} {op op' : PathOp} (h : Performs env allGroups r mayRefuse event op)
    (h' : Asks env allGroups r event op') (hno : ∀ path x, op' ≠ .register path x) : op = op' := by
  rcases h with h | ⟨rfl, h⟩
  · exact h.unique h'
  · obtain ⟨p, el, -, e⟩ := h op' h'
    exact absurd e (hno _ _)

variable {platform : Platform}

theorem Input.changed_cases (platform : Platform) (p : Addr) (path : String) (v : Option Json) (i : Input) :
    (∃ request value, i.event = .rpc p request ∧ request.HasMethod "change" ∧
        getPathAndValue request = .ok (path, value) ∧ v.isSome = true ∧ (i.env platform).ok .duplicateItem 0 = true ∧
        i.changed platform p path v = some value) ∨
      i.changed platform p path v = v ∧ ∀ request value, i.event = .rpc p request → request.HasMethod "change" →
        getPathAndValue request = .ok (path, value) → v.isSome = true →
          (i.env platform).ok .duplicateItem 0 = false := by
  unfold Input.changed
  cases hevent : i.event with
  | rpc q request =>
    dsimp only
    split
    · rename_i path' value hm hread
      by_cases hc : q = p ∧ path' = path ∧ v.isSome = true ∧ (i.env platform).ok .duplicateItem 0 = true
      · obtain ⟨rfl, rfl, hstate, hok⟩ := hc
        exact Or.inl ⟨request, value, rfl, hm, hread, hstate, hok, if_pos ⟨rfl, rfl, hstate, hok⟩⟩
      · refine Or.inr ⟨if_neg hc, fun request' value' e hm' hread' hstate => ?_⟩
        cases e
        obtain ⟨rfl, rfl⟩ := Prod.mk.inj (Except.ok.inj (hread.symm.trans hread'))
        exact Bool.eq_false_iff.mpr fun hok => hc ⟨rfl, rfl, hstate, hok⟩
    · rename_i hno
      refine Or.inr ⟨rfl, fun request' value' e hm' hread' hstate => ?_⟩
      cases e
      exact absurd hread' (hno _ _ hm')
  | _ => exact Or.inr ⟨rfl, fun request value e => by cases e⟩

/-- one input, where the path is there and stays -/
theorem performs_kept {allGroups : Option (List String)} {r : PathRegistry} {mayRefuse : Addr → Element → Prop}
    {i : Input} {op : PathOp} (h : Performs (i.env platform) allGroups r mayRefuse i.event op) {path : String}
    {x : Listing Addr Terms (Option Json)} (hx : r path = some x) (hclose : ¬ op.Closes path x.owner) :
    op.writes path x.value = i.changed platform x.owner path x.value ∧ i.KeepsPath x.owner path := by
  refine ⟨?_, fun e => ?_, fun request params e hm hread => ?_⟩
  · rcases Input.changed_cases platform x.owner path x.value i with
      ⟨request, value, hevent, hm, hread, hstate, hok, hchanged⟩ | ⟨hchanged, hno⟩
    · have hasks : Asks (i.env platform) allGroups r i.event (.write path (some value)) := by
        rw [hevent]
        exact .change x.owner request path value x hm hread hx rfl hstate hok
      rw [h.eq_of_asks hasks (fun _ _ e => by cases e), hchanged, RegistryOp.writes, if_pos rfl]
    · rw [hchanged]
      cases op with
      | write k v =>
        by_cases hk : k = path
        · subst hk
          rcases h with h | ⟨e, -⟩
          · generalize hevent : i.event = event at h
            cases h with
            | change p request _ value y hm hread hy howner hstate hok =>
              obtain rfl : x = y := Option.some.inj (hx.symm.trans hy)
              subst howner
              rw [hno request value hevent hm hread hstate] at hok
              cases hok
          · cases e
        · exact if_neg hk
      | _ => rfl
  · have hasks : Asks (i.env platform) allGroups r i.event (.leave x.owner) := by
      rw [e]
      exact .leave x.owner
    rw [h.eq_of_asks hasks (fun _ _ e => by cases e)] at hclose
    exact hclose rfl
  · have hasks : Asks (i.env platform) allGroups r i.event (.unregister path) := by
      rw [e]
      exact .remove x.owner request params path x hm hread hx rfl
    rw [h.eq_of_asks hasks (fun _ _ e => by cases e)] at hclose
    exact hclose rfl

theorem Performed.kept {l : List Input} {ops : List PathOp} (h : Performed platform b l ops b') {path : String}
    {x : Listing Addr Terms (Option Json)} (hx : b.toStore.registry path = some x)
    (hclose : ∀ op ∈ ops, ¬ op.Closes path x.owner) :
    lastWritten path x.value ops = l.foldl (Input.changed platform x.owner path) x.value ∧
      ∀ i ∈ l, i.KeepsPath x.owner path := by
  induction h generalizing x with
  | nil b => exact ⟨rfl, fun i hi => absurd hi List.not_mem_nil⟩
  | cons hstep hop happly hgroups h ih =>
    have hclose₁ := hclose _ List.mem_cons_self
    obtain ⟨hwrites, hkeeps⟩ := performs_kept hop hx hclose₁
    have hx₁ := RegistryOp.apply_keeps hclose₁ hx
    rw [← happly] at hx₁
    obtain ⟨hlast, hall⟩ := ih hx₁ fun op hop => hclose op (List.mem_cons_of_mem _ hop)
    refine ⟨?_, fun i hi => ?_⟩
    · rw [List.foldl_cons, ← hwrites]
      exact hlast
    · rcases List.mem_cons.mp hi with rfl | hi
      · exact hkeeps
      · exact hall i hi

theorem Performed.append {b b1 b2 : Broker T} {l m : List Input} {ops ops' : List PathOp}
    (h : Performed platform b l ops b1) (h' : Performed platform b1 m ops' b2) :
    Performed platform b (l ++ m) (ops ++ ops') b2 := by
  induction h with
  | nil b => exact h'
  | cons hstep hop happly hgroups h ih => exact .cons hstep hop happly hgroups (ih h')

/-- the inputs that have performed some of the operations -/
theorem Performed.split {pre post : List PathOp} {l : List Input} (h : Performed platform b l (pre ++ post) b') :
    ∃ l₁ l₂ b1, l = l₁ ++ l₂ ∧ Performed platform b l₁ pre b1 ∧ Performed platform b1 l₂ post b' := by
  induction pre generalizing b l with
  | nil => exact ⟨[], l, b, rfl, .nil b, h⟩
  | cons op pre ih =>
    cases h with
    | cons hstep hop happly hgroups h =>
      obtain ⟨l₁, l₂, b1, rfl, h₁, h₂⟩ := ih h
      exact ⟨_ :: l₁, l₂, b1, rfl, .cons hstep hop happly hgroups h₁, h₂⟩

theorem Performed.allGroups {l : List Input} {ops : List PathOp} (h : Performed platform b l ops b') :
    b'.allGroups = b.allGroups := by
  induction h with
  | nil b => rfl
  | cons hstep hop happly hgroups h ih => exact ih.trans hgroups

theorem Performed.run {l : List Input} {ops : List PathOp} (h : Performed platform b l ops b') :
    run (step platform) b l = some b' := by
  induction h with
  | nil b => rfl
  | cons hstep hop happly hgroups h ih =>
    rw [run_cons, hstep]
    exact ih

theorem allGroups_stepped {event : Event} (hS : b.toStore.Sound) (h : Stepped env b event b') :
    b'.allGroups = b.allGroups := by
  have hchain : StoreChain (fun _ _ => True) env b b' := stepped_chain hS (fun _ _ _ _ _ _ => trivial) h
  refine kept_chain (I := fun b1 => b1.allGroups = b.allGroups) (fun b1 b2 _ hb hstep => ?_) hS rfl hchain
  cases hstep with
  | idle _ h => exact h.allGroups.trans hb
  | _ => exact hb

/-- the registry is the one that the operations of a run have made -/
def IsRegistry (platform : Platform) (s : Broker T) (l : List Input) (b : Broker T) : Prop :=
  ∃ ops, Performed platform s l ops b ∧ b.toStore.registry = registryAfter ops

theorem isRegistry_start {s : Broker T} (h0 : s.IsStart platform) : IsRegistry platform s [] s := by
  obtain ⟨allGroups, userData, passwordFile, rfl⟩ := h0
  refine ⟨[], .nil _, ?_⟩
  funext path
  show ((HashTable.get (HashTable.create _) path).bind _).map _ = none
  rw [HashTable.get_create]
  rfl

theorem isRegistry_step {s b b' : Broker T} {l : List Input} {i : Input} (hS : b.toStore.Sound)
    (h : IsRegistry platform s l b) (hs : step platform b i = some b') : IsRegistry platform s (l ++ [i]) b' := by
  obtain ⟨ops, hops, hregistry⟩ := h
  have hS0 : ({ b with calls := 0 } : Broker T).toStore.Sound := hS
  obtain ⟨op, hop, happly⟩ := stepped_registry hS0 rfl (step_cases hs)
  have hgroups := allGroups_stepped hS0 (step_cases hs)
  refine ⟨ops ++ [op], hops.append (.cons hs hop happly hgroups (.nil b')), ?_⟩
  rw [registryAfter_concat, ← hregistry]
  exact happly

theorem isRegistry_run {s b : Broker T} {l : List Input} (h0 : s.IsStart platform)
    (h : run (step platform) s l = some b) : b.toStore.Sound ∧ IsRegistry platform s l b :=
  run_history (I := fun l (b : Broker T) => b.toStore.Sound ∧ IsRegistry platform s l b) (c := fun _ _ => True)
    (fun pre b1 i t hI _ hs => ⟨sound_step hI.1 hs, isRegistry_step hI.1 hI.2 hs⟩)
    ⟨sound_run (l := []) h0 rfl, isRegistry_start h0⟩ (Along.of_forall (fun _ _ => trivial) s l) h

/-- The broker is a registry: each event of a run performs the operation that it asks for, and the table of all elements
holds what the operations have left. -/
theorem registry_refinement {s b : Broker T} {l : List Input} (h0 : s.IsStart platform)
    (h : run (step platform) s l = some b) : ∃ ops, Performed platform s l ops b ∧
      ∀ path x, (∃ e el, HashTable.get b.elementTable path = some e ∧ b.elements e = some el ∧ el.listing = x) ↔
        registryAfter ops path = some x := by
  obtain ⟨hS, ops, hops, hregistry⟩ := isRegistry_run h0 h
  refine ⟨ops, hops, fun path x => ?_⟩
  rw [← hregistry]
  constructor
  · rintro ⟨e, el, hget, hel, rfl⟩
    obtain ⟨el', hel', rfl⟩ := (hS.paths path e).mp hget
    obtain rfl : el = el' := Option.some.inj (hel.symm.trans hel')
    exact Store.registry_of_element hS hel
  · intro hx
    obtain ⟨e, el, hget, hel, -, hlisting⟩ := Store.element_of_registry hS hx
    exact ⟨e, el, hget, hel, hlisting⟩

/-- An element that is there after a run has been added by its owner while its path was free, on the terms that the
request states.  The owner has neither removed it nor left since, and its value is the one that the owner has written
last. -/
theorem element_history {s b : Broker T} {l : List Input} (h0 : s.IsStart platform)
    (h : run (step platform) s l = some b) {e : Addr} {el : Element} (hel : b.elements e = some el) :
    ∃ pre i post request el₀, l = pre ++ i :: post ∧ i.event = .rpc el.peer request ∧ request.HasMethod "add" ∧
      readAdd platform s.allGroups el.peer request = .ok el₀ ∧ el₀.path = el.path ∧
      (∃ b₁, run (step platform) s pre = some b₁ ∧ HashTable.get b₁.elementTable el.path = none) ∧
      el.listing.terms = el₀.listing.terms ∧
      el.value = post.foldl (Input.changed platform el.peer el.path) el₀.value ∧
      ∀ j ∈ post, j.KeepsPath el.peer el.path := by
  obtain ⟨hS, ops, hops, hregistry⟩ := isRegistry_run h0 h
  have hx := Store.registry_of_element hS hel
  rw [hregistry] at hx
  obtain ⟨pre, v, post, rfl, hclose, hv⟩ := (registry_history ops el.path el.listing).mp hx
  obtain ⟨l₁, l₂, b₁, rfl, h₁, h₂⟩ := hops.split
  cases h₂ with
  | cons hstep hop happly hgroups h₂ =>
    rename_i b₂ i l₂
    rcases hop with hop | ⟨e', -⟩
    · generalize hevent : i.event = event at hop
      generalize hreg : RegistryOp.register el.path (el.listing.withValue v) = op at hop
      cases hop with
      | add p request el₀ hm hread hfree =>
        obtain ⟨hpath, hlisting⟩ := RegistryOp.register.inj hreg
        obtain rfl : el.peer = p := (congrArg Listing.owner hlisting).trans (readAdd_peer hread)
        have hvalue : v = el₀.value := congrArg Listing.value hlisting
        have hx₂ : b₂.toStore.registry el.path = some (el.listing.withValue v) := by
          rw [happly, RegistryOp.apply]
          exact Function.update_self _ _ _
        obtain ⟨hlast, hkeeps⟩ := h₂.kept hx₂ hclose
        rw [h₁.allGroups] at hread
        have hterms := congrArg Listing.terms hlisting
        have hS₁ := (isRegistry_run h0 h₁.run).1
        rw [← hpath] at hfree
        refine ⟨l₁, i, l₂, request, el₀, rfl, hevent, hm, hread, hpath.symm,
          ⟨b₁, h₁.run, (Store.registry_none hS₁).mp hfree⟩, hterms, ?_, hkeeps⟩
        rw [← hvalue]
        exact hv.trans hlast
      | _ => cases hreg
    · cases e'

end

/-- a state is added, changed by its owner and, in vain, by another peer; a method is added and removed -/
def addedAndChanged : List Input :=
  [.connect 1 .websocket true, .connect 2 .websocket true,
   .rpc 1 (.request (some (.num 1)) "add" [("path", .str "x"), ("value", .num 1)]),
   .rpc 1 (.request (some (.num 2)) "change" [("path", .str "x"), ("value", .num 2)]),
   .rpc 2 (.request (some (.num 3)) "change" [("path", .str "x"), ("value", .num 3)]),
   .rpc 2 (.request (some (.num 4)) "add" [("path", .str "y")]),
   .rpc 2 (.request (some (.num 5)) "remove" [("path", .str "y")])].map Event.good

theorem addedAndChanged_isSome : (run (step Platform.small)
    (Broker.start (T := SlotTable) Platform.small.config none none []) addedAndChanged).isSome = true := by
  decide +kernel

theorem registry_refinement_addedAndChanged : ∃ b : Broker SlotTable,
    run (step Platform.small) (Broker.start Platform.small.config none none []) addedAndChanged = some b ∧
      ∃ ops, Performed Platform.small (Broker.start Platform.small.config none none []) addedAndChanged ops b ∧
        ∀ path x, (∃ e el, HashTable.get b.elementTable path = some e ∧ b.elements e = some el ∧ el.listing = x) ↔
          registryAfter ops path = some x := by
  obtain ⟨b, hb⟩ := Option.isSome_iff_exists.mp addedAndChanged_isSome
  exact ⟨b, hb, registry_refinement (isStart_start _ _ _ []) hb⟩

theorem element_history_addedAndChanged : ∃ (b : Broker SlotTable) (el : Element),
    run (step Platform.small) (Broker.start Platform.small.config none none []) addedAndChanged = some b ∧
      b.elements 0 = some el ∧
      ∃ pre i post request el₀, addedAndChanged = pre ++ i :: post ∧ i.event = .rpc el.peer request ∧
        request.HasMethod "add" ∧ readAdd Platform.small none el.peer request = .ok el₀ ∧ el₀.path = el.path ∧
        (∃ b₁ : Broker SlotTable,
          run (step Platform.small) (Broker.start Platform.small.config none none []) pre = some b₁ ∧
          HashTable.get b₁.elementTable el.path = none) ∧
        el.listing.terms = el₀.listing.terms ∧
        el.value = post.foldl (Input.changed Platform.small el.peer el.path) el₀.value ∧
        ∀ j ∈ post, j.KeepsPath el.peer el.path := by
  have hrun : ((run (step Platform.small) (Broker.start (T := SlotTable) Platform.small.config none none [])
      addedAndChanged).bind fun b => b.elements 0).isSome = true := by decide +kernel
  obtain ⟨el, hel⟩ := Option.isSome_iff_exists.mp hrun
  obtain ⟨b, hb, hel⟩ := Option.bind_eq_some_iff.mp hel
  exact ⟨b, el, hb, hel, element_history (isStart_start _ none none []) hb hel⟩

end Cjet
