import Cjet.Store.Isolation

/-!
# What a failed request leaves behind

An add that fails takes back what it did.  A change, a fetch and an authenticate that fail after their
checks do not: the value has been replaced, the fetch stands in the list of its peer, the groups of the
account have been assigned.

* `NoTrace`                     elements, fetches, groups and users are as before;
* `addElement_noTrace`          an add that fails;
* `failed_request_noTrace_iff`  which failed requests leave no trace.
-/

set_option linter.unusedVariables false
set_option linter.unusedSectionVars false

namespace Cjet
open Stateful Alloc

section
variable {T : Type} [HashTable T]

/-- elements with their values and subscribers, fetches, and the groups and users of the peers are the same -/
structure NoTrace (b b' : Broker T) : Prop where
  peerList : b'.peerList = b.peerList
  elementList : b'.elementList = b.elementList
  elements : b'.elements = b.elements
  elementTable : ∀ path, HashTable.get b'.elementTable path = HashTable.get b.elementTable path
  fetchList : b'.fetchList = b.fetchList
  fetches : b'.fetches = b.fetches
  fetchGroups : b'.fetchGroups = b.fetchGroups
  setGroups : b'.setGroups = b.setGroups
  callGroups : b'.callGroups = b.callGroups
  userName : b'.userName = b.userName

theorem noTrace_calls (b : Broker T) (n : Nat) : NoTrace b { b with calls := n } :=
  ⟨rfl, rfl, rfl, fun _ => rfl, rfl, rfl, rfl, rfl, rfl, rfl⟩

/-- the answer is sent, and the number of the request is used up -/
theorem noTrace_answer {env : Env} {b b1 b2 : Broker T} {p : Addr} {json : Option Json} {ret : Bool}
    (h : sendResponse env p json b1 = some (ret, b2)) :
    NoTrace b { b2 with received := b2.received + 1 } ↔ NoTrace b b1 := by
  obtain ⟨_, n, l, rfl, _, _⟩ := sendResponse_some h
  constructor
  · rintro ⟨h1, h2, h3, h4, h5, h6, h7, h8, h9, h10⟩
    exact ⟨h1, h2, h3, h4, h5, h6, h7, h8, h9, h10⟩
  · rintro ⟨h1, h2, h3, h4, h5, h6, h7, h8, h9, h10⟩
    exact ⟨h1, h2, h3, h4, h5, h6, h7, h8, h9, h10⟩

section
variable {env : Env} {b b' : Broker T} {p : Addr} {request : Json} {json : Option Json}

/-- An add that fails frees the element, and nothing else has changed by then. -/
theorem addElement_noTrace (hS : b.toStore.Sound) (h : AddElement env b p request ⟨.error, json⟩ b') :
    NoTrace b b' := by
  have hfree := (hS.unused b.fresh (Nat.le_refl _)).1
  have hback : ∀ x y : Option Element, Function.update (Function.update (Function.update b.elements b.fresh x)
      b.fresh y) b.fresh none = b.elements := fun x y => by
    rw [Function.update_idem, Function.update_idem, ← hfree, Function.update_eq_self]
  cases h with
  | rejected _ n => exact noTrace_calls b n
  | notNotified _ el n n' b1 hacc h1 =>
    obtain ⟨sub, table, l, k, hE, rfl⟩ := enterNewElement h1
    exact ⟨rfl, rfl, hback _ _, fun _ => rfl, rfl, rfl, rfl, rfl, rfl, rfl⟩
  | full _ el n n' b1 hacc h1 hput =>
    obtain ⟨sub, table, l, k, hE, rfl⟩ := enterNewElement h1
    have hput : (HashTable.put b.elementTable el.path b.fresh).1 = false := hput
    exact ⟨rfl, rfl, hback _ _, fun path => HashTable.get_put_full _ _ _ _ hput, rfl, rfl, rfl, rfl, rfl, rfl⟩

/-- the value that an accepted change brings, once it has been copied, is the one that is there -/
def ChangesNothing (env : Env) (b : Broker T) (p : Addr) (request : Json) : Prop :=
  ∀ e el value, ChangeAccepted b p request e el value → env.ok .duplicateItem b.calls = true →
    el.value = some value

theorem changeState_noTrace_iff (h : ChangeState env b p request ⟨.error, json⟩ b') :
    NoTrace b b' ↔ ChangesNothing env b p request := by
  generalize hres : (⟨.error, json⟩ : Response) = res at h
  cases h with
  | rejected _ n hno =>
    refine ⟨fun _ e el value hacc hok => ?_, fun _ => noTrace_calls b n⟩
    rw [hno e el value hacc] at hok
    cases hok
  | replaced _ e el value ok l n n' hacc hok hl =>
    have hel : b.elements e = some el := by
      obtain ⟨path, _, _, hel, _⟩ := hacc
      exact hel
    constructor
    · intro hN e' el' value' hacc' _
      obtain ⟨rfl, rfl, rfl⟩ := hacc.unique hacc'
      have h1 : Function.update b.elements e' (some (el'.withValue value')) = b.elements := hN.elements
      have h2 := congrFun h1 e'
      rw [Function.update_self, hel] at h2
      exact (congrArg Element.value (Option.some.inj h2)).symm
    · intro hC
      have hval := hC e el value hacc hok
      have hsame : el.withValue value = el := by
        unfold Element.withValue
        rw [← hval]
      refine ⟨rfl, rfl, ?_, fun _ => rfl, rfl, rfl, rfl, rfl, rfl, rfl⟩
      show Function.update b.elements e (some (el.withValue value)) = b.elements
      rw [hsame, ← hel, Function.update_eq_self]

theorem processFetch_noTrace_iff (hS : b.toStore.Sound) (h : ProcessFetch env b p request ⟨.error, json⟩ b') :
    NoTrace b b' ↔ ∀ ft n, ¬ FetchAccepted env b p request ft n := by
  generalize hres : (⟨.error, json⟩ : Response) = res at h
  cases h with
  | rejected _ n hno => exact ⟨fun _ => hno, fun _ => noTrace_calls b n⟩
  | fetched _ ft ok n n' b1 hacc h1 =>
    refine ⟨fun hN => ?_, fun hno => absurd hacc (hno ft n)⟩
    obtain ⟨sub, elements, l, k, hE, rfl⟩ := enterElements hS.nodup_allElements h1
    have h2 : Function.update b.fetches b.fresh (some ft) = b.fetches := hN.fetches
    have h3 := congrFun h2 b.fresh
    rw [Function.update_self, (hS.unused b.fresh (Nat.le_refl _)).2] at h3
    cases h3

/-- the peer has the groups of the account already, and no user name -/
def AuthenticatesNothing (env : Env) (b : Broker T) (p : Addr) (request : Json) : Prop :=
  ∀ user auth, checkAuthenticate env b p request = .ok (user, auth) →
    b.fetchGroups p = getGroups b.allGroups (auth.getObjectItem "fetchGroups") ∧
    b.setGroups p = getGroups b.allGroups (auth.getObjectItem "setGroups") ∧
    b.callGroups p = getGroups b.allGroups (auth.getObjectItem "callGroups") ∧ b.userName p = none

theorem update_eq_iff {α : Type} (m : Addr → α) (a : Addr) (x : α) : Function.update m a x = m ↔ m a = x := by
  constructor
  · intro h
    rw [← h, Function.update_self]
  · intro h
    rw [← h, Function.update_eq_self]

theorem authenticate_noTrace_iff (h : Authenticate env b p request ⟨.error, json⟩ b') :
    NoTrace b b' ↔ AuthenticatesNothing env b p request := by
  generalize hres : (⟨.error, json⟩ : Response) = res at h
  cases h with
  | rejected _ n hno =>
    exact ⟨fun _ user auth hc => absurd hc (hno (user, auth)), fun _ => noTrace_calls b n⟩
  | accepted _ n user auth hc =>
    cases hok : env.ok .duplicateString b.calls with
    | true =>
      rw [hok] at hres
      cases hres
    | false =>
      have iff : NoTrace b (b.authenticated p auth none n) ↔
          b.fetchGroups p = getGroups b.allGroups (auth.getObjectItem "fetchGroups") ∧
          b.setGroups p = getGroups b.allGroups (auth.getObjectItem "setGroups") ∧
          b.callGroups p = getGroups b.allGroups (auth.getObjectItem "callGroups") ∧ b.userName p = none := by
        constructor
        · intro hN
          exact ⟨(update_eq_iff _ _ _).mp hN.fetchGroups, (update_eq_iff _ _ _).mp hN.setGroups,
            (update_eq_iff _ _ _).mp hN.callGroups, (update_eq_iff _ _ _).mp hN.userName⟩
        · rintro ⟨h1, h2, h3, h4⟩
          exact ⟨rfl, rfl, rfl, fun _ => rfl, rfl, rfl, (update_eq_iff _ _ _).mpr h1,
            (update_eq_iff _ _ _).mpr h2, (update_eq_iff _ _ _).mpr h3, (update_eq_iff _ _ _).mpr h4⟩
      rw [if_neg (by simp), iff]
      constructor
      · intro h1 user' auth' hc'
        rw [hc] at hc'
        cases hc'
        exact h1
      · intro h1
        exact h1 user auth hc

end

/-! ## the requests -/

/-- where a request that fails has done nothing by then: a change brings no new value, a fetch does not
pass its checks, an authenticate brings no new groups and finds no user name -/
structure Harmless (env : Env) (b : Broker T) (p : Addr) (request : Json) (method : String) : Prop where
  change : method = "change" → ChangesNothing env b p request
  fetch : method = "fetch" → ∀ ft n, ¬ FetchAccepted env b p request ft n
  authenticate : method = "authenticate" → AuthenticatesNothing env b p request

theorem handleMethod_noTrace_iff {env : Env} {b b' : Broker T} {p : Addr} {request : Json} {method : String}
    {json : Option Json} (hS : b.toStore.Sound) (hm : method ∈ ["add", "change", "fetch", "authenticate"])
    (h : handleMethod env p request method b = some (⟨.error, json⟩, b')) :
    NoTrace b b' ↔ Harmless env b p request method := by
  simp only [List.mem_cons, List.not_mem_nil, or_false] at hm
  rcases hm with rfl | rfl | rfl | rfl
  · have h1 : addElementToPeer env p request b = some (⟨.error, json⟩, b') := by
      unfold handleMethod at h
      simpa only [String.reduceEq, if_false, if_true] using h
    refine ⟨fun _ => ⟨fun e => ?_, fun e => ?_, fun e => ?_⟩, fun _ => addElement_noTrace hS
      (addElementToPeer_some h1)⟩
    · exact absurd e (by decide)
    · exact absurd e (by decide)
    · exact absurd e (by decide)
  · have h1 : changeState env p request b = some (⟨.error, json⟩, b') := h
    rw [changeState_noTrace_iff (changeState_some h1)]
    exact ⟨fun h => ⟨fun _ => h, fun e => absurd e (by decide), fun e => absurd e (by decide)⟩, fun h => h.change rfl⟩
  · have h1 : processFetch env p request b = some (⟨.error, json⟩, b') := by
      unfold handleMethod at h
      simpa only [String.reduceEq, if_false, if_true] using h
    rw [processFetch_noTrace_iff hS (processFetch_some h1)]
    exact ⟨fun h => ⟨fun e => absurd e (by decide), fun _ => h, fun e => absurd e (by decide)⟩, fun h => h.fetch rfl⟩
  · have h1 : handleAuthentication env p request b = some (⟨.error, json⟩, b') := by
      unfold handleMethod at h
      simpa only [String.reduceEq, if_false, if_true] using h
    rw [authenticate_noTrace_iff (handleAuthentication_some h1)]
    exact ⟨fun h => ⟨fun e => absurd e (by decide), fun e => absurd e (by decide), fun _ => h⟩,
      fun h => h.authenticate rfl⟩

/-- the broker decides to answer the request with an error -/
def Refuses (env : Env) (b : Broker T) (p : Addr) (request : Json) (method : String) : Prop :=
  ∃ json b', handleMethod env p request method b = some (⟨.error, json⟩, b')

theorem failed_request_noTrace_iff {platform : Platform} {b b' : Broker T} {outcomes : Outcomes} {p : Addr}
    {request : Json} {method : String} (hr : b.Reachable platform)
    (hmethod : method ∈ ["add", "change", "fetch", "authenticate"]) (hm : request.HasMethod method)
    (hrefuse : Refuses (Input.env platform ⟨outcomes, .rpc p request⟩) { b with calls := 0 } p request method)
    (hs : step platform b ⟨outcomes, .rpc p request⟩ = some b') :
    NoTrace b b' ↔ Harmless (Input.env platform ⟨outcomes, .rpc p request⟩) { b with calls := 0 } p request
      method := by
  have hS := sound_reachable hr
  have hS : ({ b with calls := 0 } : Broker T).toStore.Sound := hS
  obtain ⟨json, b1, h1⟩ := hrefuse
  obtain ⟨_, res, ret, b2, b3, h2, h3, rfl⟩ := stepped_method _ hm (step_cases hs)
  have h2 : handleMethod (Input.env platform ⟨outcomes, .rpc p request⟩) p request method { b with calls := 0 }
    = some (res, b2) := h2
  rw [h1] at h2
  cases h2
  rw [← handleMethod_noTrace_iff hS hmethod h1, noTrace_answer h3]
  constructor
  · rintro ⟨h1, h2, h3, h4, h5, h6, h7, h8, h9, h10⟩
    exact ⟨h1, h2, h3, h4, h5, h6, h7, h8, h9, h10⟩
  · rintro ⟨h1, h2, h3, h4, h5, h6, h7, h8, h9, h10⟩
    exact ⟨h1, h2, h3, h4, h5, h6, h7, h8, h9, h10⟩

end

/-! ## a change that cannot be notified -/

def refuses (env : Env) (b : Broker SlotTable) (p : Addr) (request : Json) (method : String) : Bool :=
  (handleMethod env p request method b).any fun r => r.1.verdict == .error

theorem refuses_of_check {env : Env} {b : Broker SlotTable} {p : Addr} {request : Json} {method : String}
    (h : refuses env b p request method = true) : Refuses env b p request method := by
  obtain ⟨⟨⟨verdict, json⟩, b'⟩, h1, h2⟩ := Option.any_eq_true _ _ |>.mp h
  have h2 : verdict = .error := beq_iff_eq.mp h2
  subst h2
  exact ⟨json, b', h1⟩

/-- the path is there already -/
def addAgain : Json := .request none "add" [("path", .str "a")]

theorem addAgain_method : addAgain.HasMethod "add" := by
  have h : addAgain = .obj [("method", .str "add"), ("params", .obj [("path", .str "a")])] := rfl
  rw [Json.HasMethod, h]
  exact Json.getObjectItem_first (by decide) _ _

theorem addAgain_noTrace : ∃ b b' : Broker SlotTable, b.Reachable Platform.small ∧
    step Platform.small b (Event.good (.rpc 1 addAgain)) = some b' ∧ NoTrace b b' := by
  have hrun : (run (step Platform.small) (Broker.start (T := SlotTable) Platform.small.config none none [])
      (twoSubscribers.map Event.good)).any (fun b =>
        (step Platform.small b (Event.good (.rpc 1 addAgain))).isSome &&
        refuses (Input.env Platform.small (Event.good (.rpc 1 addAgain))) { b with calls := 0 } 1 addAgain "add")
      = true := by decide +kernel
  obtain ⟨b, hb, hc⟩ := Option.any_eq_true _ _ |>.mp hrun
  obtain ⟨h1, h2⟩ := Bool.and_eq_true _ _ |>.mp hc
  obtain ⟨b', hs⟩ := Option.isSome_iff_exists.mp h1
  have hr : b.Reachable Platform.small := ⟨_, _, isStart_start _ none none [], hb⟩
  have hiff := failed_request_noTrace_iff hr (by decide) addAgain_method (refuses_of_check h2) hs
  refine ⟨b, b', hr, hs, hiff.mpr ⟨fun e => ?_, fun e => ?_, fun e => ?_⟩⟩
  · exact absurd e (by decide)
  · exact absurd e (by decide)
  · exact absurd e (by decide)

/-- A change that cannot be notified is answered with an error, and its value stays. -/
theorem changeRequest_trace :
    ¬ ∀ (b b' : Broker SlotTable) outcomes p request method, b.Reachable Platform.small →
      method ∈ ["add", "change", "fetch", "authenticate"] → request.HasMethod method →
      Refuses (Input.env Platform.small ⟨outcomes, .rpc p request⟩) { b with calls := 0 } p request method →
      step Platform.small b ⟨outcomes, .rpc p request⟩ = some b' → NoTrace b b' := by
  intro hall
  have hrun : (run (step Platform.small) (Broker.start (T := SlotTable) Platform.small.config none none [])
      (twoSubscribers.map Event.good)).any (fun b =>
        refuses (Input.env Platform.small ⟨Outcomes.sending fun f => f != 1, .rpc 1 changeRequest⟩)
          { b with calls := 0 } 1 changeRequest "change" &&
        (b.elements 0).any (fun el => el.value.any Json.isTrue) &&
        (step Platform.small b ⟨Outcomes.sending fun f => f != 1, .rpc 1 changeRequest⟩).any (fun b' =>
          (b'.elements 0).any fun el => !el.value.any Json.isTrue)) = true := by decide +kernel
  obtain ⟨b, hb, hc⟩ := Option.any_eq_true _ _ |>.mp hrun
  simp only [Bool.and_eq_true] at hc
  obtain ⟨⟨h1, h2⟩, h3⟩ := hc
  obtain ⟨b', hs, h4⟩ := Option.any_eq_true _ _ |>.mp h3
  have hN := hall b b' _ 1 changeRequest "change" ⟨_, _, isStart_start _ none none [], hb⟩ (by decide)
    changeRequest_method (refuses_of_check h1) hs
  rw [hN.elements] at h4
  obtain ⟨el, hel, h5⟩ := Option.any_eq_true _ _ |>.mp h2
  rw [hel, Option.any_some, h5] at h4
  cases h4

end Cjet
