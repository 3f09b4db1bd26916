import Cjet.Store.View

/-!
# What a get answers

A get goes through all elements as a fetch does, and returns the states a new fetch is told of.

* `SameResults`   two programs that only allocate give the same where no allocation fails;
* `createFetch_agree`   the fetch of a get and the fetch of a fetch have the same matchers;
* `Broker.legible`   no null matcher is followed for the element;
* `getElementsInPeers_eq`, `subscribeAll_isSome`   what the two traversals do;
* `get_agrees_with_fetch`   the states of a get are those that a fetch is notified of.
-/

set_option linter.unusedVariables false
set_option linter.unusedSectionVars false

namespace Cjet
open Stateful Alloc

/-! ## the fetch of a get -/

/-- Started at any calls, the programs give results that `V` relates. -/
def SameResults {α β : Type} (V : α → β → Prop) (m : Alloc α) (m' : Alloc β) : Prop := ∀ n n', V (m n).1 (m' n').1

namespace SameResults
variable {α β γ δ : Type} {V : α → β → Prop} {W : γ → δ → Prop}

theorem pure {a : α} {b : β} (h : V a b) : SameResults V (Pure.pure a) (Pure.pure b) := fun _ _ => h

theorem bind {m : Alloc α} {m' : Alloc β} {f : α → Alloc γ} {g : β → Alloc δ} (h : SameResults V m m')
    (h' : ∀ a b, V a b → SameResults W (f a) (g b)) : SameResults W (m >>= f) (m' >>= g) := fun n n' => by
  rw [Alloc.bind_apply, Alloc.bind_apply]
  exact h' _ _ (h n n') _ _

theorem call {env env' : Env} (h : env.AllocOk) (h' : env'.AllocOk) {c : Call} (hc : c.isAllocation = true) :
    SameResults Eq (Alloc.call env c) (Alloc.call env' c) := fun n n' => by
  rw [call_ok env h hc, call_ok env' h' hc]

theorem tryCall {env env' : Env} (h : env.AllocOk) (h' : env'.AllocOk) {c : Call} (hc : c.isAllocation = true)
    (a : α) : SameResults Eq (Alloc.tryCall env c a) (Alloc.tryCall env' c a) := fun n n' => by
  rw [tryCall_ok env h hc, tryCall_ok env' h' hc]

end SameResults

section
variable {env env' : Env} (h : env.AllocOk) (h' : env'.AllocOk)
include h h'

theorem fillPathElements_agree (l : List Json) : SameResults Eq (fillPathElements env l) (fillPathElements env' l) := by
  induction l with
  | nil => exact SameResults.pure rfl
  | cons j l ih =>
    cases j with
    | str s =>
      unfold fillPathElements
      refine SameResults.bind (SameResults.tryCall h h' rfl s) fun a b hab => ?_
      subst hab
      cases a with
      | none => exact SameResults.pure rfl
      | some s =>
        refine SameResults.bind ih fun a b hab => ?_
        subst hab
        exact SameResults.pure rfl
    | _ => exact SameResults.pure rfl

theorem createPathMatcher_agree (k : Nat) : SameResults Eq (createPathMatcher env k) (createPathMatcher env' k) := by
  unfold createPathMatcher
  refine SameResults.bind (SameResults.call h h' rfl) fun a b hab => ?_
  subst hab
  exact SameResults.pure rfl

theorem filled_agree (k : Nat) (l : List Json) :
    SameResults Eq (do if ← createPathMatcher env k then fillPathElements env l else return none : Alloc _)
      (do if ← createPathMatcher env' k then fillPathElements env' l else return none : Alloc _) := by
  refine SameResults.bind (createPathMatcher_agree h h' k) fun a b hab => ?_
  subst hab
  cases a with
  | false => exact SameResults.pure rfl
  | true => exact fillPathElements_agree h h' l

theorem pathElementsOf_agree (m : SupportedMatcher) (matcher : Json) :
    SameResults Eq (pathElementsOf env m matcher) (pathElementsOf env' m matcher) := by
  unfold pathElementsOf
  by_cases hm : m.hasMultiplePathElements = true
  · rw [if_pos hm, if_pos hm]
    cases matcher with
    | arr l => exact filled_agree h h' l.length l
    | _ => exact SameResults.pure rfl
  · rw [if_neg hm, if_neg hm]
    cases matcher with
    | str s => exact filled_agree h h' 1 [.str s]
    | _ => exact SameResults.pure rfl

theorem createMatcher_agree (name : String) (matcher : Json) (ignoreCase : Bool) :
    SameResults Eq (createMatcher env name matcher ignoreCase) (createMatcher env' name matcher ignoreCase) := by
  unfold createMatcher
  cases matchers.find? fun m => m.matcherName == name with
  | none => exact SameResults.pure rfl
  | some m =>
    refine SameResults.bind (pathElementsOf_agree h h' m matcher) fun a b hab => ?_
    subst hab
    cases a <;> exact SameResults.pure rfl

theorem addMatchers_agree (ignoreCase : Bool) (members : List (String × Json)) :
    SameResults Eq (addMatchers env ignoreCase members) (addMatchers env' ignoreCase members) := by
  induction members with
  | nil => exact SameResults.pure rfl
  | cons m rest ih =>
    obtain ⟨name, matcher⟩ := m
    unfold addMatchers
    by_cases hn : name = caseInsensitiveName
    · rw [if_pos hn, if_pos hn]
      exact ih
    · rw [if_neg hn, if_neg hn]
      refine SameResults.bind (createMatcher_agree h h' name matcher ignoreCase) fun a b hab => ?_
      subst hab
      cases a with
      | none => exact SameResults.pure rfl
      | some m =>
        refine SameResults.bind ih fun a b hab => ?_
        subst hab
        exact SameResults.pure rfl

/-- a fetch that is refused, or the same fetch with the id `id` -/
inductive SameFetch (id : Json) : Except Err Fetch → Except Err Fetch → Prop where
  | refused (err : Err) : SameFetch id (.error err) (.error err)
  | made (ft : Fetch) : SameFetch id (.ok ft) (.ok { ft with fetchId := some id })

theorem allocFetch_agree (p : Addr) (id : Json) (k : Nat) :
    SameResults (SameFetch id) (allocFetch env p none k) (allocFetch env' p (some id) k) := by
  intro n n'
  unfold allocFetch
  rw [Alloc.bind_apply, Alloc.bind_apply, call_ok env h rfl, call_ok env' h' rfl]
  show SameFetch id _ ((duplicate env' id >>= _) _).1
  rw [Alloc.bind_apply, duplicate_ok env' h']
  exact .made ⟨none, p, List.replicate k none⟩

/-- Where no allocation fails the same expression gives the same fetch, whether it has an id or not. -/
theorem createFetch_agree (hc : env.config = env'.config) (p : Addr) (id : Json) {params params' : Json}
    (hpath : params.getObjectItem "path" = params'.getObjectItem "path") :
    SameResults (SameFetch id) (createFetch env p none params) (createFetch env' p (some id) params') := by
  unfold createFetch
  rw [← hpath, ← hc]
  cases params.getObjectItem "path" with
  | none => exact allocFetch_agree h h' p id 1
  | some path =>
    cases path with
    | obj members =>
      dsimp only
      by_cases h0 : (countMatchers (.obj members) members).1 = 0
      · rw [if_pos h0, if_pos h0]
        exact SameResults.pure (SameFetch.refused _)
      · rw [if_neg h0, if_neg h0]
        by_cases hmax : env.config.maxNumbersOfMatchersInFetch < (countMatchers (.obj members) members).1
        · rw [if_pos hmax, if_pos hmax]
          exact SameResults.pure (SameFetch.refused _)
        · rw [if_neg hmax, if_neg hmax]
          refine SameResults.bind (allocFetch_agree h h' p id _) fun a b hab => ?_
          cases hab with
          | refused err => exact SameResults.pure (SameFetch.refused _)
          | made ft =>
            refine SameResults.bind (addMatchers_agree h h' _ members) fun a b hab => ?_
            subst hab
            cases a with
            | none => exact SameResults.pure (SameFetch.refused _)
            | some ms => exact SameResults.pure (SameFetch.made _)
    | _ => exact SameResults.pure (SameFetch.refused _)

end

/-! ## going through the elements -/

/-- the path and the value of a state -/
abbrev StateOf := String × Json

def stateObject (s : StateOf) : Json := .obj [("path", .str s.1), ("value", s.2)]

theorem createStateObject_ok {env : Env} (h : env.AllocOk) (path : String) (value : Json) (n : Nat) :
    (createStateObject env path value n).1 = .ok (stateObject (path, value)) := by
  unfold createStateObject
  simp only [Alloc.bind_apply, Alloc.pure_apply, createObject_ok env h, createString_ok env h, duplicate_ok env h,
    addItemToObject_ok env h]
  rfl

section
variable {T : Type} {env : Env} {b : Broker T} {ft : Fetch} {e f : Addr}

/-- Whether the fetch wants the element at `e` can be found out. -/
def Broker.legible (b : Broker T) (ft : Fetch) (e : Addr) : Bool :=
  (b.elements e).any fun el => (wants b.toAccounts el ft).isSome

/-- the state at `e`, where the fetch wants it -/
def Broker.stateAt (b : Broker T) (ft : Fetch) (e : Addr) : Option StateOf :=
  (b.elements e).bind fun el =>
    if wants b.toAccounts el ft = some true then el.value.map fun v => (el.path, v) else none

theorem legible_of {el : Element} {w : Bool} (hel : b.elements e = some el)
    (hw : wants b.toAccounts el ft = some w) : b.legible ft e = true := by
  unfold Broker.legible
  rw [hel, Option.any_some, hw]
  rfl

theorem legible_some (h : b.legible ft e = true) :
    ∃ el w, b.elements e = some el ∧ wants b.toAccounts el ft = some w := by
  obtain ⟨el, hel, hw⟩ := (Option.any_eq_true _ _).mp h
  obtain ⟨w, hw⟩ := Option.isSome_iff_exists.mp hw
  exact ⟨el, w, hel, hw⟩

/-- where access is granted the matchers decide -/
theorem wants_granted {a : Accounts} {el : Element}
    (h : hasAccess a.allGroups el.fetchGroups (a.fetchGroups ft.peer) = true) :
    wants a el ft = stateMatches el.path ft.matcher := if_pos h

theorem wants_denied {a : Accounts} {el : Element}
    (h : hasAccess a.allGroups el.fetchGroups (a.fetchGroups ft.peer) = false) :
    wants a el ft = some false := if_neg (by rw [h]; exact Bool.false_ne_true)

theorem getElement_legible (ha : env.AllocOk) (states : List Json) (h : b.legible ft e = true) :
    ∃ n, getElement env ft states e b
      = some (.ok (states ++ (b.stateAt ft e).toList.map stateObject), { b with calls := n }) := by
  obtain ⟨el, w, hel, hw⟩ := legible_some h
  have hstate : b.stateAt ft e = if w = true then el.value.map fun v => (el.path, v) else none := by
    unfold Broker.stateAt
    rw [hel, Option.bind_some, hw]
    simp only [Option.some.injEq]
  unfold getElement
  rw [Prog.bind_of_some (deref_element hel), Prog.bind_of_some (Prog.read_apply _ _), hstate]
  cases haccess : hasAccess b.allGroups el.fetchGroups (b.fetchGroups ft.peer) with
  | false =>
    rw [wants_denied haccess] at hw
    obtain rfl := Option.some.inj hw
    exact ⟨b.calls, by rw [if_neg Bool.false_ne_true]; simp [Prog.pure_apply]⟩
  | true =>
    rw [wants_granted haccess] at hw
    have hmatch : Prog.deref (fun _ : Broker T => stateMatches el.path ft.matcher) b = some (w, b) :=
      Prog.deref_of_some hw
    rw [if_neg (by decide), Prog.bind_of_some hmatch]
    cases w with
    | false => exact ⟨b.calls, by rw [if_neg Bool.false_ne_true]; simp [Prog.pure_apply]⟩
    | true =>
      rw [if_pos rfl, if_pos rfl]
      cases el.value with
      | none => exact ⟨b.calls, by simp [Prog.pure_apply]⟩
      | some v =>
        refine ⟨(createStateObject env el.path v b.calls).2, ?_⟩
        have hobj : allocating (createStateObject env el.path v) b
            = some (.ok (stateObject (el.path, v)),
              { b with calls := (createStateObject env el.path v b.calls).2 }) := by
          rw [allocating_apply, createStateObject_ok ha]
        dsimp only
        rw [Prog.bind_of_some hobj]
        rfl

theorem getElement_illegible (states : List Json) (h : b.legible ft e = false) :
    getElement env ft states e b = none := by
  unfold getElement
  cases hel : b.elements e with
  | none => exact Prog.bind_none (Prog.deref_of_none hel)
  | some el =>
    have hnone : wants b.toAccounts el ft = none := by
      unfold Broker.legible at h
      rw [hel, Option.any_some] at h
      exact Option.not_isSome_iff_eq_none.mp (by rw [h]; exact Bool.false_ne_true)
    rw [Prog.bind_of_some (deref_element hel), Prog.bind_of_some (Prog.read_apply _ _)]
    cases haccess : hasAccess b.allGroups el.fetchGroups (b.fetchGroups ft.peer) with
    | false =>
      rw [wants_denied haccess] at hnone
      cases hnone
    | true =>
      rw [wants_granted haccess] at hnone
      rw [if_neg (by decide)]
      exact Prog.bind_none (Prog.deref_of_none hnone)

/-- the states that are found, unless a null matcher is followed -/
def Broker.statesIn (b : Broker T) (ft : Fetch) (es : List Addr) : Option (List StateOf) :=
  if es.all (b.legible ft) then some (es.filterMap (b.stateAt ft)) else none

theorem statesIn_nil : b.statesIn ft [] = some [] := rfl

theorem statesIn_append (es es' : List Addr) : b.statesIn ft (es ++ es')
    = (b.statesIn ft es).bind fun l => (b.statesIn ft es').map fun l' => l ++ l' := by
  unfold Broker.statesIn
  rw [List.all_append, List.filterMap_append]
  cases es.all (b.legible ft) <;> cases es'.all (b.legible ft) <;> rfl

theorem getElementsInPeer_eq (ha : env.AllocOk) (es : List Addr) (states : List Json) : ∃ n,
    getElementsInPeer env ft states es b
      = (b.statesIn ft es).map fun l => (.ok (states ++ l.map stateObject), { b with calls := n }) := by
  induction es generalizing b states with
  | nil =>
    refine ⟨b.calls, ?_⟩
    rw [statesIn_nil, Option.map_some, List.map_nil, List.append_nil]
    rfl
  | cons e es ih =>
    have hcons : b.statesIn ft (e :: es) = (b.statesIn ft [e]).bind fun l => (b.statesIn ft es).map fun l' => l ++ l' :=
      statesIn_append [e] es
    unfold getElementsInPeer
    rw [hcons]
    cases hl : b.legible ft e with
    | false =>
      refine ⟨0, ?_⟩
      rw [Prog.bind_none (getElement_illegible states hl)]
      have h1 : b.statesIn ft [e] = none := by
        unfold Broker.statesIn
        rw [List.all_cons, hl]
        rfl
      rw [h1]
      rfl
    | true =>
      obtain ⟨n, h1⟩ := getElement_legible ha states hl
      obtain ⟨n', h2⟩ := ih (b := { b with calls := n }) (states ++ (b.stateAt ft e).toList.map stateObject)
      have h2 : getElementsInPeer env ft (states ++ (b.stateAt ft e).toList.map stateObject) es { b with calls := n }
          = (b.statesIn ft es).map
            fun l => (.ok (states ++ (b.stateAt ft e).toList.map stateObject ++ l.map stateObject),
            { b with calls := n' }) := h2
      refine ⟨n', ?_⟩
      rw [Prog.bind_of_some h1]
      dsimp only
      rw [h2]
      have h3 : b.statesIn ft [e] = some (b.stateAt ft e).toList := by
        unfold Broker.statesIn
        rw [List.all_cons, hl]
        cases hs : b.stateAt ft e <;> simp [hs]
      rw [h3, Option.bind_some, Option.map_map]
      refine congrFun (congrArg Option.map (funext fun l => ?_)) _
      rw [Function.comp_apply, List.map_append, List.append_assoc]

/-- The two loops of a get are one loop over all elements. -/
theorem getElementsInPeers_eq (ha : env.AllocOk) (ps : List Addr) (states : List Json) : ∃ n,
    getElementsInPeers env ft states ps b = (b.statesIn ft (ps.flatMap b.elementList)).map fun l =>
      (.ok (states ++ l.map stateObject), { b with calls := n }) := by
  induction ps generalizing b states with
  | nil =>
    refine ⟨b.calls, ?_⟩
    rw [List.flatMap_nil, statesIn_nil, Option.map_some, List.map_nil, List.append_nil]
    rfl
  | cons p ps ih =>
    have hread : Prog.read (fun b : Broker T => b.elementList p) b = some (b.elementList p, b) := Prog.read_apply _ _
    obtain ⟨n, h1⟩ : ∃ n, getElementsInPeer env ft states (b.elementList p) b
        = (b.statesIn ft (b.elementList p)).map fun l => (.ok (states ++ l.map stateObject), { b with calls := n }) :=
      getElementsInPeer_eq ha _ states
    unfold getElementsInPeers
    rw [List.flatMap_cons, statesIn_append, Prog.bind_of_some hread]
    cases hs : b.statesIn ft (b.elementList p) with
    | none =>
      rw [hs] at h1
      exact ⟨0, Prog.bind_none h1⟩
    | some l =>
      rw [hs, Option.map_some] at h1
      obtain ⟨n', h2⟩ := ih (b := { b with calls := n }) (states ++ l.map stateObject)
      have h2 : getElementsInPeers env ft (states ++ l.map stateObject) ps { b with calls := n }
          = (b.statesIn ft (ps.flatMap b.elementList)).map fun l' =>
            (.ok (states ++ l.map stateObject ++ l'.map stateObject), { b with calls := n' }) := h2
      refine ⟨n', ?_⟩
      rw [Prog.bind_of_some h1]
      dsimp only
      rw [h2, Option.bind_some, Option.map_map]
      refine congrFun (congrArg Option.map (funext fun l' => ?_)) _
      rw [Function.comp_apply, List.map_append, List.append_assoc]

/-! ## subscribing to the elements -/

theorem notifyFetchingPeer_isSome {eventName : String} {el : Element} (hel : b.elements e = some el)
    (hft : b.fetches f = some ft) (hp : ft.peer ∈ b.peerList) :
    (notifyFetchingPeer env e f eventName b).isSome = true := by
  unfold notifyFetchingPeer
  rw [Prog.bind_of_some (deref_element hel), Prog.bind_of_some (deref_fetch hft),
    Prog.bind_of_some (allocating_apply _ _)]
  cases (createNotification env el ft eventName b.calls).1 with
  | none => rfl
  | some root =>
    dsimp only
    rw [Prog.bind_of_some (allocating_apply _ _)]
    cases (printUnformatted env (.notification f e) root _).1 with
    | none => rfl
    | some rendered =>
      dsimp only
      refine Option.isSome_iff_exists.mpr ⟨_, sendMessage_apply env _ _ _ _ ?_⟩
      exact hp

theorem addFetchToStateAndNotify_isSome (hft : b.fetches f = some ft) (hp : ft.peer ∈ b.peerList) :
    (addFetchToStateAndNotify env e f b).isSome = b.legible ft e := by
  rw [Bool.eq_iff_iff]
  constructor
  · intro h
    obtain ⟨⟨ok, b'⟩, h⟩ := Option.isSome_iff_exists.mp h
    cases addFetchToStateAndNotify_some h with
    | notWanted el ft' hel hft' hw =>
      obtain rfl := Option.some.inj (hft.symm.trans hft')
      exact legible_of hel hw
    | noTable el ft' n hel hft' hw hs =>
      obtain rfl := Option.some.inj (hft.symm.trans hft')
      exact legible_of hel hw
    | entered el ft' table m n hel hft' hw hs =>
      obtain rfl := Option.some.inj (hft.symm.trans hft')
      exact legible_of hel hw
  · intro h
    obtain ⟨el, w, hel, hw⟩ := legible_some h
    unfold addFetchToStateAndNotify
    rw [Prog.bind_of_some (deref_element hel), Prog.bind_of_some (deref_fetch hft),
      Prog.bind_of_some (Prog.read_apply _ _)]
    cases haccess : hasAccess b.allGroups el.fetchGroups (b.fetchGroups ft.peer) with
    | false => rfl
    | true =>
      rw [wants_granted haccess] at hw
      have hmatch : Prog.deref (fun _ : Broker T => stateMatches el.path ft.matcher) b = some (w, b) :=
        Prog.deref_of_some hw
      rw [if_neg (by decide), Prog.bind_of_some hmatch]
      cases w with
      | false => rfl
      | true =>
        rw [if_pos rfl, Prog.bind_of_some (allocating_apply _ _)]
        cases (addFetchToTable env el.fetcherTable f b.calls).1 with
        | none => rfl
        | some table =>
          dsimp only
          unfold setElement
          rw [Prog.bind_of_some (Prog.update_apply _ _)]
          exact notifyFetchingPeer_isSome (Function.update_self ..) hft hp

/-- the table of an element does not matter -/
theorem legible_entered {b' : Broker T} {el : Element} {table : List (Option Addr)} (ha : b'.toAccounts = b.toAccounts)
    (hel : b.elements e = some el)
    (he : b'.elements = Function.update b.elements e (some { el with fetcherTable := table })) :
    b'.legible ft = b.legible ft := by
  funext e'
  unfold Broker.legible
  rw [ha, he]
  by_cases hsame : e' = e
  · rw [hsame, Function.update_self, hel]
    rfl
  · rw [Function.update_of_ne hsame]

/-- Where nothing fails a subscription changes nothing that the next one depends on. -/
theorem subscribed_works (ha : env.AllocOk) (hs : env.SendOk) (hft : b.fetches f = some ft)
    (hid : ft.fetchId.isSome = true) {b1 : Broker T} {ok : Bool} (h : Subscribed env e f b ok b1) :
    ok = true ∧ b1.fetches = b.fetches ∧ b1.peerList = b.peerList ∧ b1.legible ft = b.legible ft := by
  cases h with
  | notWanted el ft' hel hft' hw => exact ⟨rfl, rfl, rfl, rfl⟩
  | noTable el ft' n hel hft' hw hsub =>
    obtain rfl := Option.some.inj (hft.symm.trans hft')
    obtain ⟨t, m, k, h3, _⟩ := subscribe_works ha hs el hid e f b.calls
    rw [hsub] at h3
    cases h3
  | entered el ft' table m n hel hft' hw hsub =>
    obtain rfl := Option.some.inj (hft.symm.trans hft')
    obtain ⟨t, m', k, h3, h4⟩ := subscribe_works ha hs el hid e f b.calls
    rw [hsub] at h3
    cases h3
    exact ⟨h4, rfl, rfl, legible_entered rfl hel rfl⟩

/-- Where nothing fails the loop is defined exactly if no null matcher is followed. -/
theorem subscribeAll_isSome (ha : env.AllocOk) (hs : env.SendOk) {es : List Addr} (hft : b.fetches f = some ft)
    (hid : ft.fetchId.isSome = true) (hp : ft.peer ∈ b.peerList) :
    (Prog.tryAll (fun e => addFetchToStateAndNotify env e f) es b).isSome = es.all (b.legible ft) := by
  induction es generalizing b with
  | nil => rfl
  | cons e es ih =>
    have h1 : (addFetchToStateAndNotify env e f b).isSome = b.legible ft e := addFetchToStateAndNotify_isSome hft hp
    rw [Prog.tryAll_cons, List.all_cons, ← h1]
    cases hr : addFetchToStateAndNotify env e f b with
    | none =>
      rw [Prog.bind_none hr]
      rfl
    | some r =>
      obtain ⟨ok, b1⟩ := r
      obtain ⟨rfl, h2, h3, h4⟩ := subscribed_works ha hs hft hid (addFetchToStateAndNotify_some hr)
      rw [Prog.bind_of_some hr, Option.isSome_some, Bool.true_and, if_pos rfl, ← h4]
      exact ih (by rw [h2, hft]) (by rwa [h3])

end

/-! ## the requests -/

section
variable {T : Type} [HashTable T] {platform : Platform} {env : Env} {b : Broker T} {p : Addr}

/-- what a request of a connected peer does -/
theorem step_request {o : Outcomes} {request : Json} {method : String} (hm : request.HasMethod method)
    (hp : p ∈ b.peerList) : step platform b ⟨o, .rpc p request⟩
      = ((do let response ← handleMethod ⟨platform, o⟩ p request method
             sendResponse ⟨platform, o⟩ p response.json : Prog (Broker T) Bool) { b with calls := 0 }).map fun r =>
        { r.2 with received := r.2.received + 1 } := by
  have hreq : Prog.require (fun b : Broker T => b.peerList.contains p) { b with calls := 0 }
      = some ((), { b with calls := 0 }) := Prog.require_of_true (by simpa using hp)
  have hmsg := parseJsonRpc_of_request (T := T) (p := p) ⟨platform, o⟩ hm.routingResponse
  unfold step Input.env handleEvent
  dsimp only
  rw [Prog.bind_of_some hreq]
  unfold receiveObject
  rw [hmsg, handlerOf_of_method _ hm]
  generalize (do let response ← handleMethod ⟨platform, o⟩ p request method
                 sendResponse ⟨platform, o⟩ p response.json : Prog (Broker T) Bool) = m
  rw [Prog.bind_apply, Prog.bind_apply]
  cases m { b with calls := 0 } <;> rfl

theorem sendResponse_ok (ha : env.AllocOk) (hs : env.SendOk) (hp : p ∈ b.peerList) (json : Json) :
    ∃ n, sendResponse env p (some json) b = some (true, { b with
      calls := n, sent := b.sent ++ [⟨p, .response b.received, json, true⟩] }) := by
  have hread : Prog.read (fun b : Broker T => b.received) b = some (b.received, b) := Prog.read_apply _ _
  have hprint : allocating (printUnformatted env (.response b.received) json) b
      = some (some json, { b with calls := b.calls + 1 }) := by
    rw [allocating_apply, printUnformatted_ok env ha]
  have hsend := sendMessage_apply env p (.response b.received) json { b with calls := b.calls + 1 } hp
  rw [hs _ _ rfl] at hsend
  refine ⟨b.calls + 2, ?_⟩
  unfold sendResponse
  dsimp only
  rw [Prog.bind_of_some hread]
  unfold formatAndSendResponse
  rw [Prog.bind_of_some hprint]
  exact hsend

/-- The states that are found are answered. -/
theorem getElements_eq (ha : env.AllocOk) {request params id id' : Json} {ft : Fetch}
    (hparams : getParams request = .ok params) (hft : (createFetch env p none params b.calls).1 = .ok ft)
    (hid : request.getObjectItem "id" = some id) (hid' : responseId id = some id') : ∃ n,
    getElements env p request b = (b.statesIn ft b.allElements).map fun l =>
      (⟨.success, some (.obj [("id", id'), ("result", .arr (l.map stateObject))])⟩, { b with calls := n }) := by
  have hfetch : allocating (createFetch env p none params) b
      = some (.ok ft, { b with calls := (createFetch env p none params b.calls).2 }) := by
    rw [allocating_apply, hft]
  have harray : ∀ n, allocating (createArray env) { b with calls := n }
      = some (some (.arr []), { b with calls := n + 1 }) := fun n => by
    have h1 : createArray env n = (some (.arr []), n + 1) := tryCall_ok env ha rfl _ n
    rw [allocating_apply]
    dsimp only
    rw [h1]
  have hread : ∀ n, Prog.read (fun b : Broker T => b.peerList) { b with calls := n }
      = some (b.peerList, { b with calls := n }) := fun n => Prog.read_apply _ _
  obtain ⟨n, h1⟩ : ∃ n, getElementsInPeers env ft [] b.peerList
      { b with calls := (createFetch env p none params b.calls).2 + 1 }
      = (b.statesIn ft b.allElements).map fun l => (.ok ([] ++ l.map stateObject), { b with calls := n }) :=
    getElementsInPeers_eq ha _ _
  unfold getElements
  rw [hparams]
  dsimp only
  rw [Prog.bind_of_some hfetch]
  dsimp only
  rw [Prog.bind_of_some (harray _), Prog.bind_of_some (hread _)]
  cases hs : b.statesIn ft b.allElements with
  | none =>
    rw [hs] at h1
    exact ⟨0, Prog.bind_none h1⟩
  | some l =>
    rw [hs] at h1
    have hresult : createResultResponseFromRequest env request (some (.arr (l.map stateObject))) "result"
        = createResultResponse env id (some (.arr (l.map stateObject))) "result" := by
      unfold createResultResponseFromRequest
      rw [hid]
    have hanswer := createResultResponse_ok env ha id (.arr (l.map stateObject)) "result" n
    rw [hid'] at hanswer
    refine ⟨(createResultResponse env id (some (.arr (l.map stateObject))) "result" n).2, ?_⟩
    rw [Prog.bind_of_some h1]
    dsimp only
    rw [List.nil_append, Option.map_some, hresult, Prog.bind_of_some (allocating_apply _ _)]
    dsimp only
    rw [hanswer]
    rfl

theorem processFetch_isSome (ha : env.AllocOk) (hs : env.SendOk) {request params fetchId : Json} {ft : Fetch}
    (hcheck : checkFetch b p request = .ok (params, fetchId))
    (hft : (createFetch env p (some fetchId) params b.calls).1 = .ok ft) (hp : p ∈ b.peerList) :
    (processFetch env p request b).isSome = b.allElements.all (b.legible ft) := by
  obtain ⟨hpeer, hid⟩ := createFetch_some hft
  have hcreated : allocating (createFetch env p (some fetchId) params) b
      = some (.ok ft, { b with calls := (createFetch env p (some fetchId) params b.calls).2 }) := by
    rw [allocating_apply, hft]
  have hadded : addFetchToPeer env p request b
      = some (.ok b.fresh, b.withFetch p ft (createFetch env p (some fetchId) params b.calls).2) := by
    have hread : Prog.read id b = some (b, b) := Prog.read_apply _ _
    unfold addFetchToPeer
    rw [Prog.bind_of_some hread, hcheck]
    dsimp only
    rw [Prog.bind_of_some hcreated]
    rfl
  unfold processFetch
  rw [Prog.bind_of_some hadded]
  dsimp only
  generalize (createFetch env p (some fetchId) params b.calls).2 = n
  have hloop : (addFetchToAll env b.fresh (b.withFetch p ft n)).isSome = b.allElements.all (b.legible ft) :=
    subscribeAll_isSome ha hs (Function.update_self ..) (by rw [hid]; rfl) (by rwa [hpeer])
  have hread : Prog.read (fun b : Broker T => b.peerList) (b.withFetch p ft n)
    = some (b.peerList, b.withFetch p ft n) :=
    Prog.read_apply _ _
  have hsame : Prog.tryAll (addFetchToStatesInPeer env b.fresh) b.peerList (b.withFetch p ft n)
      = addFetchToAll env b.fresh (b.withFetch p ft n) := addFetchToStates_loop b.fresh (b.withFetch p ft n)
  unfold addFetchToStates
  rw [Prog.bind_of_some hread, ← hloop, Prog.bind_apply, hsame]
  cases addFetchToAll env b.fresh (b.withFetch p ft n) with
  | none => rfl
  | some r =>
    obtain ⟨ok, b1⟩ := r
    cases ok <;> rfl

/-- The new fetch is told of the elements it wants. -/
theorem processFetch_told (ha : env.AllocOk) (hs : env.SendOk) (hS : b.toStore.Sound) {request params fetchId : Json}
    {ft : Fetch} (hcheck : checkFetch b p request = .ok (params, fetchId))
    (hft : (createFetch env p (some fetchId) params b.calls).1 = .ok ft) {res : Response} {b' : Broker T}
    (h : processFetch env p request b = some (res, b')) : ∃ l, b'.sent = b.sent ++ l ∧ b'.peerList = b.peerList ∧
      messagesFor p b.fresh l = ((b.allElements.filter fun e =>
        (b.elements e).any fun el => wants b.toAccounts el ft == some true).filterMap b.elements).map fun el =>
          notification el fetchId "add" := by
  obtain ⟨hpeer, hid⟩ := createFetch_some hft
  have hacc : FetchAccepted env b p request ft (createFetch env p (some fetchId) params b.calls).2 :=
    ⟨params, fetchId, hcheck, Prod.ext hft rfl⟩
  cases processFetch_some h with
  | rejected json n hno => exact absurd hacc (hno _ _)
  | fetched json ft' ok n n' b1 hacc' h1 =>
    obtain ⟨params', fetchId', hcheck', hft'⟩ := hacc'
    rw [hcheck] at hcheck'
    cases hcheck'
    rw [hft'] at hft
    cases hft
    have hself : (b.withFetch p ft n).fetches b.fresh = some ft := Function.update_self ..
    obtain ⟨sub, elements, l, k, hE, rfl⟩ := enterElements hS.nodup_allElements h1
    have hok : ok = true := hE.works ha hs fun f hf ft' hft' => by
      rw [List.mem_singleton.mp hf, hself] at hft'
      rw [← Option.some.inj hft', hid]
      rfl
    refine ⟨l, rfl, rfl, ?_⟩
    have hsub : sub = b.allElements.filter fun e =>
        (b.elements e).any fun el => wants b.toAccounts el ft == some true := by
      rw [hE.all hok]
      refine List.filter_congr fun e _ => ?_
      unfold Broker.wanted
      rw [hself]
      have hsame : (b.withFetch p ft n).elements e = b.elements e := rfl
      rw [hsame]
      cases b.elements e <;> rfl
    unfold messagesFor
    rw [hE.sent ha, ← hpeer, ← hsub]
    exact textsFor_elements hself hid

end

/-! ## get and fetch -/

/-- the path and the value that an object shows -/
def readState (j : Json) : Option StateOf :=
  match j.getObjectItem "path", j.getObjectItem "value" with
  | some (.str path), some value => some (path, value)
  | _, _ => none

/-- the states in the answer to a get -/
def statesGot (answer : Json) : Option (List StateOf) :=
  match answer.getObjectItem "result" with
  | some (.arr l) => l.mapM readState
  | _ => none

/-- the state that a notification adds -/
def stateAdded (msg : Json) : Option StateOf :=
  match readNotification msg with
  | some (.add path value) => value.map fun v => (path, v)
  | _ => none

/-- the answers to the `n`-th request that were sent to `p` -/
def answersTo (p : Addr) (n : Nat) (l : List Sent) : List Json :=
  (l.filter fun m => m.peer == p && m.about == .response n).map Sent.msg

theorem readState_stateObject (s : StateOf) : readState (stateObject s) = some s := by
  have hpath : (stateObject s).getObjectItem "path" = some (.str s.1) := Json.getObjectItem_first (by decide) _ _
  have hvalue : (stateObject s).getObjectItem "value" = some s.2 :=
    (Json.getObjectItem_later (by decide) _ _).trans (Json.getObjectItem_first (by decide) _ _)
  unfold readState
  rw [hpath, hvalue]

theorem readState_states (l : List StateOf) : (l.map stateObject).mapM readState = some l := by
  induction l with
  | nil => rfl
  | cons s l ih =>
    rw [List.map_cons, List.mapM_cons, readState_stateObject, ih]
    rfl

theorem statesGot_answer (id : Json) (l : List StateOf) :
    statesGot (.obj [("id", id), ("result", .arr (l.map stateObject))]) = some l := by
  have hresult : (Json.obj [("id", id), ("result", .arr (l.map stateObject))]).getObjectItem "result"
      = some (.arr (l.map stateObject)) :=
    (Json.getObjectItem_later (by decide) _ _).trans (Json.getObjectItem_first (by decide) _ _)
  unfold statesGot
  rw [hresult]
  exact readState_states l

theorem stateAdded_notification (el : Element) (id : Json) :
    stateAdded (notification el id "add") = el.value.map fun v => (el.path, v) := by
  unfold stateAdded
  rw [readNotification_add]

section
variable {T : Type} [HashTable T] {platform : Platform} {b : Broker T} {p : Addr}

/-- what a fetch that wants the elements is told, as far as they are states -/
theorem statesAdded_eq (ft : Fetch) (id : Json) (es : List Addr) :
    (((es.filter fun e => (b.elements e).any fun el => wants b.toAccounts el ft == some true).filterMap
      b.elements).map fun el => notification el id "add").filterMap stateAdded = es.filterMap (b.stateAt ft) := by
  induction es with
  | nil => rfl
  | cons e es ih =>
    have hstate : b.stateAt ft e = (b.elements e).bind fun el =>
      if wants b.toAccounts el ft = some true then el.value.map fun v => (el.path, v) else none := rfl
    rw [List.filter_cons, List.filterMap_cons, hstate, ← ih]
    cases hel : b.elements e with
    | none => rfl
    | some el =>
      rw [Option.any_some, Option.bind_some]
      by_cases hw : wants b.toAccounts el ft = some true
      · rw [if_pos (by rw [hw]; rfl), if_pos hw, List.filterMap_cons, hel]
        dsimp only
        rw [List.map_cons, List.filterMap_cons, stateAdded_notification]
      · rw [if_neg (by simpa using hw), if_neg hw]

/-- a get and a new fetch with the same expression, which `create_fetch` accepts -/
structure SameExpression (platform : Platform) (b : Broker T) (p : Addr)
    (getRequest fetchRequest params params' fetchId : Json) : Prop where
  get : getRequest.HasMethod "get"
  fetch : fetchRequest.HasMethod "fetch"
  /-- A get without an id is not answered. -/
  answered : ∃ id id', getRequest.getObjectItem "id" = some id ∧ responseId id = some id'
  get_params : getParams getRequest = .ok params
  fetch_params : checkFetch b p fetchRequest = .ok (params', fetchId)
  same : params.getObjectItem "path" = params'.getObjectItem "path"
  accepted : ∃ ft, (createFetch ⟨platform, Outcomes.good⟩ p (some fetchId) params' 0).1 = .ok ft

theorem SameExpression.fetches {o o' : Outcomes} (ha : Env.AllocOk ⟨platform, o⟩) (ha' : Env.AllocOk ⟨platform, o'⟩)
    {getRequest fetchRequest params params' fetchId : Json}
    (h : SameExpression platform b p getRequest fetchRequest params params' fetchId) :
    ∃ ft, (createFetch ⟨platform, o⟩ p none params 0).1 = .ok ft ∧
      (createFetch ⟨platform, o'⟩ p (some fetchId) params' 0).1 = .ok { ft with fetchId := some fetchId } := by
  have hgood : Env.AllocOk ⟨platform, Outcomes.good⟩ := fun _ _ _ => rfl
  obtain ⟨ft, hacc⟩ := h.accepted
  have h1 := createFetch_agree ha hgood rfl p fetchId h.same 0 0
  have h2 := createFetch_agree ha ha' rfl p fetchId h.same 0 0
  cases hget : (createFetch ⟨platform, o⟩ p none params 0).1 with
  | error err =>
    rw [hget, hacc] at h1
    cases h1
  | ok ft =>
    rw [hget] at h2
    refine ⟨ft, rfl, ?_⟩
    cases h3 : (createFetch ⟨platform, o'⟩ p (some fetchId) params' 0).1 with
    | error err =>
      rw [h3] at h2
      cases h2
    | ok ft' =>
      rw [h3] at h2
      cases h2
      rfl

theorem step_get {o : Outcomes} (ha : Env.AllocOk ⟨platform, o⟩) (hs : Env.SendOk ⟨platform, o⟩)
    (hp : p ∈ b.peerList) {request params id id' : Json} {ft : Fetch} (hm : request.HasMethod "get")
    (hparams : getParams request = .ok params) (hft : (createFetch ⟨platform, o⟩ p none params 0).1 = .ok ft)
    (hid : request.getObjectItem "id" = some id) (hid' : responseId id = some id') :
    (step platform b ⟨o, .rpc p request⟩).map
    (fun b' => (answersTo p b.received (b'.sent.drop b.sent.length)).map statesGot)
      = (b.statesIn ft b.allElements).map fun l => [some l] := by
  obtain ⟨n, hget⟩ := getElements_eq (b := { b with calls := 0 }) ha hparams hft hid hid'
  have hsame : ({ b with calls := 0 } : Broker T).statesIn ft b.allElements = b.statesIn ft b.allElements := rfl
  have hget : getElements ⟨platform, o⟩ p request { b with calls := 0 }
      = (b.statesIn ft b.allElements).map fun l =>
        (⟨.success, some (.obj [("id", id'), ("result", .arr (l.map stateObject))])⟩, { b with calls := n }) := hget
  rw [step_request hm hp, handleMethod_get]
  cases hl : b.statesIn ft b.allElements with
  | none =>
    rw [hl] at hget
    rw [Prog.bind_none hget]
    rfl
  | some l =>
    rw [hl] at hget
    have hp' : p ∈ ({ b with calls := n } : Broker T).peerList := hp
    obtain ⟨k, hsend⟩ := sendResponse_ok ha hs hp' (.obj [("id", id'), ("result", .arr (l.map stateObject))])
    rw [Prog.bind_of_some hget]
    dsimp only
    rw [hsend, Option.map_some, Option.map_some]
    dsimp only
    rw [List.drop_left]
    have hanswers : answersTo p b.received
      [⟨p, .response b.received, .obj [("id", id'), ("result", .arr (l.map stateObject))], true⟩]
        = [.obj [("id", id'), ("result", .arr (l.map stateObject))]] := by
      unfold answersTo
      simp
    rw [hanswers, List.map_singleton, statesGot_answer]
    rfl

theorem step_fetch (hS : b.toStore.Sound) {o : Outcomes} (ha : Env.AllocOk ⟨platform, o⟩)
    (hs : Env.SendOk ⟨platform, o⟩) (hp : p ∈ b.peerList) {request params fetchId : Json} {ft : Fetch}
    (hm : request.HasMethod "fetch") (hcheck : checkFetch b p request = .ok (params, fetchId))
    (hft : (createFetch ⟨platform, o⟩ p (some fetchId) params 0).1 = .ok ft) :
    (step platform b ⟨o, .rpc p request⟩).map
        (fun b' => (messagesFor p b.fresh (b'.sent.drop b.sent.length)).filterMap stateAdded)
      = b.statesIn ft b.allElements := by
  have hdef : (processFetch ⟨platform, o⟩ p request { b with calls := 0 }).isSome = b.allElements.all (b.legible ft) :=
    processFetch_isSome (b := { b with calls := 0 }) ha hs hcheck hft hp
  rw [step_request hm hp, handleMethod_fetch]
  cases hr : processFetch ⟨platform, o⟩ p request { b with calls := 0 } with
  | none =>
    rw [hr] at hdef
    rw [Prog.bind_none hr]
    unfold Broker.statesIn
    rw [← hdef]
    rfl
  | some r =>
    obtain ⟨res, b1⟩ := r
    rw [hr] at hdef
    obtain ⟨l, hsent, hpeers, htold⟩ := processFetch_told (b := { b with calls := 0 }) ha hs hS hcheck hft hr
    rw [Prog.bind_of_some hr]
    dsimp only
    obtain ⟨b2, l', hsend, hsent', hquiet⟩ : ∃ b2 l', sendResponse ⟨platform, o⟩ p res.json b1 = some b2 ∧
        b2.2.sent = b1.sent ++ l' ∧ ∀ m ∈ l', m.about.isNotification = false := by
      have hp1 : p ∈ b1.peerList := by rw [hpeers]; exact hp
      cases res.json with
      | none => exact ⟨(true, b1), [], rfl, (List.append_nil _).symm, fun m hm => nomatch hm⟩
      | some json =>
        obtain ⟨n, hsend⟩ := sendResponse_ok ha hs hp1 json
        refine ⟨_, [⟨p, .response b1.received, json, true⟩], hsend, rfl, fun m hm => ?_⟩
        rw [List.mem_singleton.mp hm]
        rfl
    rw [hsend, Option.map_some, Option.map_some]
    dsimp only
    rw [hsent', hsent, List.append_assoc, List.drop_left, messagesFor_append,
      messagesFor_silent hquiet, List.append_nil]
    unfold Broker.statesIn
    rw [← hdef, Option.isSome_some, if_pos rfl]
    refine congrArg some ((congrArg (List.filterMap stateAdded) htold).trans ?_)
    exact statesAdded_eq ft fetchId b.allElements

/-- Where nothing fails a get is answered once, with the states, in order, that a new fetch with the same
expression is notified of.  Neither has a result where a null matcher is followed. -/
theorem get_agrees_with_fetch (hr : b.Reachable platform) {o o' : Outcomes} (ha : Env.AllocOk ⟨platform, o⟩)
    (hs : Env.SendOk ⟨platform, o⟩) (ha' : Env.AllocOk ⟨platform, o'⟩) (hs' : Env.SendOk ⟨platform, o'⟩)
    {getRequest fetchRequest params params' fetchId : Json}
    (h : SameExpression platform b p getRequest fetchRequest params params' fetchId) :
    (step platform b ⟨o, .rpc p getRequest⟩).map
        (fun b' => (answersTo p b.received (b'.sent.drop b.sent.length)).map statesGot)
      = (step platform b ⟨o', .rpc p fetchRequest⟩).map
        fun b' => [some ((messagesFor p b.fresh (b'.sent.drop b.sent.length)).filterMap stateAdded)] := by
  by_cases hp : p ∈ b.peerList
  · obtain ⟨ft, hget, hfetch⟩ := h.fetches ha ha'
    obtain ⟨id, id', hid, hid'⟩ := h.answered
    have hleft := step_get ha hs hp h.get h.get_params hget hid hid'
    have hright := step_fetch (sound_reachable hr) ha' hs' hp h.fetch h.fetch_params hfetch
    rw [hleft]
    have hsame : b.statesIn { ft with fetchId := some fetchId } b.allElements = b.statesIn ft b.allElements := rfl
    rw [← hsame, ← hright, Option.map_map]
    rfl
  · have hnone : ∀ o request, step platform b ⟨o, .rpc p request⟩ = none := fun o request => by
      have hreq : Prog.require (fun b : Broker T => b.peerList.contains p) { b with calls := 0 } = none := by
        unfold Prog.require
        rw [if_neg (by simpa using hp)]
      unfold step handleEvent
      dsimp only
      rw [Prog.bind_none hreq]
      rfl
    rw [hnone, hnone]
    rfl

end

/-! ## two states and a method -/

/-- Peer 1 adds the states "a" and "b" and the method "am". -/
def twoStates : List Event :=
  [.connect 1 .websocket true, .connect 2 .websocket true,
   .rpc 1 (.request none "add" [("path", .str "a"), ("value", .bool true)]),
   .rpc 1 (.request none "add" [("path", .str "am")]),
   .rpc 1 (.request none "add" [("path", .str "b"), ("value", .null)])]

def containsA : Json := .obj [("contains", .str "a")]
def getContainsA : Json := .request (some (.str "g")) "get" [("path", containsA)]
def fetchContainsA : Json := .request (some (.str "h")) "fetch" [("path", containsA), ("id", .str "f")]

theorem sameExpression_containsA {b : Broker SlotTable} (h : findFetch b 2 (.str "f") = none) :
    SameExpression Platform.small b 2 getContainsA fetchContainsA (.obj [("path", containsA)])
      (.obj [("path", containsA), ("id", .str "f")]) (.str "f") where
  get := rfl
  fetch := rfl
  answered := ⟨.str "g", .str "g", rfl, rfl⟩
  get_params := rfl
  fetch_params := by
    have hparams : getParams fetchContainsA = .ok (.obj [("path", containsA), ("id", .str "f")]) := rfl
    have hid : getFetchId (.obj [("path", containsA), ("id", .str "f")]) = .ok (.str "f") := rfl
    unfold checkFetch
    rw [hparams]
    show (do
      let fetchId ← getFetchId (.obj [("path", containsA), ("id", .str "f")])
      if (findFetch b 2 fetchId).isSome then
        throw ⟨INVALID_PARAMS, "reason", "fetch id already in use"⟩
      return (_, fetchId) : Except Err (Json × Json)) = _
    rw [hid]
    show (if (findFetch b 2 (.str "f")).isSome then _ else _ : Except Err (Json × Json)) = _
    rw [h]
    rfl
  same := rfl
  accepted := ⟨_, rfl⟩

theorem twoStates_agree : ∃ b : Broker SlotTable, b.Reachable Platform.small ∧
    (step Platform.small b ⟨Outcomes.good, .rpc 2 getContainsA⟩).isSome = true ∧
    (step Platform.small b ⟨Outcomes.good, .rpc 2 getContainsA⟩).map
        (fun b' => (answersTo 2 b.received (b'.sent.drop b.sent.length)).map statesGot)
      = (step Platform.small b ⟨Outcomes.good, .rpc 2 fetchContainsA⟩).map
        fun b' => [some ((messagesFor 2 b.fresh (b'.sent.drop b.sent.length)).filterMap stateAdded)] := by
  have hrun : (run (step Platform.small) (Broker.start (T := SlotTable) Platform.small.config none none [])
      (twoStates.map Event.good)).any (fun b => (findFetch b 2 (.str "f")).isNone &&
        (step Platform.small b ⟨Outcomes.good, .rpc 2 getContainsA⟩).isSome) = true := by decide +kernel
  obtain ⟨b, hb, hc⟩ := (Option.any_eq_true _ _).mp hrun
  obtain ⟨hfind, hdefined⟩ := (Bool.and_eq_true _ _).mp hc
  have hr : b.Reachable Platform.small := ⟨_, _, isStart_start _ none none [], hb⟩
  exact ⟨b, hr, hdefined, get_agrees_with_fetch hr (fun _ _ _ => rfl) (fun _ _ _ => rfl) (fun _ _ _ => rfl)
    (fun _ _ _ => rfl) (sameExpression_containsA (Option.isNone_iff_eq_none.mp hfind))⟩

end Cjet
