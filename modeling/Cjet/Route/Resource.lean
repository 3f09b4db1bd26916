import Cjet.Route.Answer
import Cjet.Route.Teardown

/-!
# Timers, stored requests and freed memory

A routing request is stored in the table of its owner, and its timer is registered in the event loop,
from the set or call on until it is completed.

* `RoutingInv`   the timers registered are those of the stored requests, which are live and stand
  between connected peers;
* `CleanStep`    no failure in a step leaves a timer or a request behind;
* `routingInv_run`   runs of such steps keep `RoutingInv`.
-/

set_option linter.unusedVariables false
set_option linter.unusedSectionVars false

namespace Cjet
open Stateful Alloc

section
variable {T : Type} [HashTable T]

/-! ## stored requests -/

/-- the connected peer `o` has `r` under `k` in its routing table -/
def StoredAt (b : Broker T) (o : Addr) (k : String) (r : Addr) : Prop :=
  o ∈ b.peerList ∧ HashTable.get (b.routingTable o) k = some r

theorem storedAt_congr {b b' : Broker T} (hp : b'.peerList = b.peerList)
    (ht : b'.routingTable = b.routingTable) (o : Addr) (k : String) (r : Addr) :
    StoredAt b' o k r ↔ StoredAt b o k r := by
  unfold StoredAt
  rw [hp, ht]

theorem storedAt_remove {b b' : Broker T} {o : Addr} {id : String} (hp : b'.peerList = b.peerList)
    (ht : b'.routingTable = Function.update b.routingTable o
      (HashTable.remove (b.routingTable o) id).2) (o' : Addr) (k : String) (r : Addr) :
    StoredAt b' o' k r ↔ StoredAt b o' k r ∧ ¬ (o' = o ∧ k = id) := by
  unfold StoredAt
  rw [hp, ht]
  by_cases e : o' = o
  · subst e
    rw [Function.update_self, HashTable.get_remove]
    by_cases ek : k = id
    · simp [ek]
    · simp [ek]
  · rw [Function.update_of_ne e]
    simp [e]

theorem storedAt_put {b b' : Broker T} {o : Addr} {id : String} {r₀ : Addr}
    (hp : b'.peerList = b.peerList) (ho : o ∈ b.peerList)
    (hput : (HashTable.put (b.routingTable o) id r₀).1 = true)
    (ht : b'.routingTable = Function.update b.routingTable o
      (HashTable.put (b.routingTable o) id r₀).2) (o' : Addr) (k : String) (r : Addr) :
    StoredAt b' o' k r ↔ (o' = o ∧ k = id ∧ r = r₀) ∨ (¬ (o' = o ∧ k = id) ∧ StoredAt b o' k r) := by
  unfold StoredAt
  rw [hp, ht]
  by_cases e : o' = o
  · subst e
    rw [Function.update_self, HashTable.get_put_ok _ _ _ _ hput]
    by_cases ek : k = id
    · simp [ek, ho, eq_comm]
    · simp [ek]
  · rw [Function.update_of_ne e]
    simp [e]

theorem storedAt_connected {env : Env} {b : Broker T} {p : Addr} {memory : PeerMemory} {isLocal : Bool}
    {n : Nat} (hp : p ∉ b.peerList) (o : Addr) (k : String) (r : Addr) :
    StoredAt (b.connected env p memory isLocal n) o k r ↔ StoredAt b o k r := by
  show (o ∈ b.peerList ++ [p] ∧ HashTable.get (Function.update b.routingTable p _ o) k = some r) ↔ _
  by_cases e : o = p
  · subst e
    rw [Function.update_self, HashTable.get_create]
    simp [StoredAt, hp]
  · rw [Function.update_of_ne e]
    simp [StoredAt, e]

/-! ## the invariant -/

/-- The timers registered are exactly those of the routing requests stored in the tables of connected
peers; a stored request has not been freed, both of its peers are connected, and it is stored in the
table of its owner. -/
structure RoutingInv (b : Broker T) : Prop where
  timers : ∀ r, (b.timers r).isSome = true ↔ ∃ o k, StoredAt b o k r
  stored : ∀ o k r, StoredAt b o k r → ∃ q, b.requests r = some q ∧ q.requestingPeer ∈ b.peerList ∧
    q.ownerPeer ∈ b.peerList ∧ q.ownerPeer = o

/-- what the induction needs in addition: a request is stored under its id, and addresses that have
not been used yet are free -/
structure RoutingSound (b : Broker T) : Prop extends RoutingInv b where
  ids : ∀ o k r q, StoredAt b o k r → b.requests r = some q → q.id = k
  fresh : ∀ r, b.routed ≤ r → b.requests r = none ∧ b.timers r = none

/-- no failure leaves a timer or a request behind: a set or call whose timer is registered is stored
under an id that is not in use, its timer starts, and its message is rendered; and a peer goes away
while nothing is pending -/
def CleanStep (env : Env) (b : Broker T) (e : Event) : Prop :=
  (∀ p request what rc, e = .rpc p request → request.routes = some what →
    routedCall env b p request what = some rc →
      rc.stored b = true ∧ HashTable.get (b.routingTable rc.request.ownerPeer) rc.request.id = none ∧
      rc.started env = true ∧ rc.rendered env b = true) ∧
  (∀ p, e = .disconnect p → ∀ o ∈ b.peerList, EmptyTable (b.routingTable o))

namespace RoutingSound
variable {b b' : Broker T}

theorem congr (h : RoutingSound b) (hp : b'.peerList = b.peerList) (hr : b'.toRouter = b.toRouter) :
    RoutingSound b' := by
  have ht : b'.routingTable = b.routingTable := congrArg Router.routingTable hr
  have hq : b'.requests = b.requests := congrArg Router.requests hr
  have htm : b'.timers = b.timers := congrArg Router.timers hr
  have hf : b'.routed = b.routed := congrArg Router.routed hr
  refine ⟨⟨fun r => ?_, fun o k r hs => ?_⟩, fun o k r q hs => ?_, fun r hr => ?_⟩
  · rw [htm, h.timers]
    simp only [storedAt_congr hp ht]
  · rw [hq, hp]
    exact h.stored o k r ((storedAt_congr hp ht o k r).mp hs)
  · rw [hq]
    exact h.ids o k r q ((storedAt_congr hp ht o k r).mp hs)
  · rw [hq, htm]
    rw [hf] at hr
    exact h.fresh r hr

/-- a request is stored in one place only -/
theorem place (h : RoutingSound b) {o o' : Addr} {k k' : String} {r : Addr} (hs : StoredAt b o k r)
    (hs' : StoredAt b o' k' r) : o = o' ∧ k = k' := by
  obtain ⟨q, hq, _, _, ho⟩ := h.stored o k r hs
  obtain ⟨q', hq', _, _, ho'⟩ := h.stored o' k' r hs'
  obtain rfl : q = q' := Option.some.inj (hq.symm.trans hq')
  exact ⟨ho.symm.trans ho', (h.ids o k r q hs hq).symm.trans (h.ids o' k' r q hs' hq)⟩

theorem lt_routed (h : RoutingSound b) {o : Addr} {k : String} {r : Addr} (hs : StoredAt b o k r) :
    r < b.routed := by
  obtain ⟨q, hq, _⟩ := h.stored o k r hs
  by_contra hlt
  rw [(h.fresh r (Nat.le_of_not_lt hlt)).1] at hq
  cases hq

/-- a stored request leaves the table with its timer and is freed -/
theorem complete (h : RoutingSound b) {o : Addr} {k : String} {r : Addr} (hs : StoredAt b o k r)
    (hp : b'.peerList = b.peerList) (hf : b'.routed = b.routed)
    (ht : b'.routingTable = Function.update b.routingTable o (HashTable.remove (b.routingTable o) k).2)
    (htm : b'.timers = Function.update b.timers r none)
    (hq : b'.requests = Function.update b.requests r none) : RoutingSound b' := by
  have stored : ∀ o' k' r', StoredAt b' o' k' r' ↔ StoredAt b o' k' r' ∧ r' ≠ r := fun o' k' r' => by
    rw [storedAt_remove hp ht]
    constructor
    · rintro ⟨h1, h2⟩
      refine ⟨h1, fun e => h2 ?_⟩
      rw [e] at h1
      exact h.place h1 hs
    · rintro ⟨h1, h2⟩
      refine ⟨h1, fun ⟨e1, e2⟩ => h2 ?_⟩
      rw [e1, e2] at h1
      exact Option.some.inj (h1.2.symm.trans hs.2)
  refine ⟨⟨fun r' => ?_, fun o' k' r' hs' => ?_⟩, fun o' k' r' q hs' hq' => ?_, fun r' hr' => ?_⟩
  · simp only [stored]
    rw [htm]
    by_cases e : r' = r
    · rw [e, Function.update_self]
      simp
    · rw [Function.update_of_ne e, h.timers]
      simp [e]
  · obtain ⟨h1, h2⟩ := (stored o' k' r').mp hs'
    rw [hq, hp, Function.update_of_ne h2]
    exact h.stored o' k' r' h1
  · obtain ⟨h1, h2⟩ := (stored o' k' r').mp hs'
    rw [hq, Function.update_of_ne h2] at hq'
    exact h.ids o' k' r' q h1 hq'
  · rw [hf] at hr'
    have hne : r' ≠ r := Nat.ne_of_gt (Nat.lt_of_lt_of_le (h.lt_routed hs) hr')
    rw [hq, htm, Function.update_of_ne hne, Function.update_of_ne hne]
    exact h.fresh r' hr'

/-- a key that is not in use is removed -/
theorem removed (h : RoutingSound b) {o : Addr} {k : String}
    (hn : HashTable.get (b.routingTable o) k = none) (hp : b'.peerList = b.peerList)
    (hf : b'.routed = b.routed)
    (ht : b'.routingTable = Function.update b.routingTable o (HashTable.remove (b.routingTable o) k).2)
    (htm : b'.timers = b.timers) (hq : b'.requests = b.requests) : RoutingSound b' := by
  have stored : ∀ o' k' r', StoredAt b' o' k' r' ↔ StoredAt b o' k' r' := fun o' k' r' => by
    rw [storedAt_remove hp ht]
    refine ⟨fun h1 => h1.1, fun h1 => ⟨h1, fun ⟨e1, e2⟩ => ?_⟩⟩
    have h2 := h1.2
    rw [e1, e2, hn] at h2
    cases h2
  refine ⟨⟨fun r' => ?_, fun o' k' r' hs' => ?_⟩, fun o' k' r' q hs' => ?_, fun r' hr' => ?_⟩
  · simp only [stored]
    rw [htm, h.timers]
  · rw [hq, hp]
    exact h.stored o' k' r' ((stored o' k' r').mp hs')
  · rw [hq]
    exact h.ids o' k' r' q ((stored o' k' r').mp hs')
  · rw [hq, htm]
    exact h.fresh r' (by rwa [hf] at hr')

/-- a new request is stored under a key that is not in use, and its timer runs -/
theorem store (h : RoutingSound b) {q : RoutingRequest} (ho : q.ownerPeer ∈ b.peerList)
    (hr : q.requestingPeer ∈ b.peerList)
    (hput : (HashTable.put (b.routingTable q.ownerPeer) q.id b.routed).1 = true)
    (hfree : HashTable.get (b.routingTable q.ownerPeer) q.id = none)
    (hp : b'.peerList = b.peerList) (hf : b'.routed = b.routed + 1)
    (ht : b'.routingTable = Function.update b.routingTable q.ownerPeer
      (HashTable.put (b.routingTable q.ownerPeer) q.id b.routed).2)
    (htm : b'.timers = Function.update b.timers b.routed (some true))
    (hq : b'.requests = Function.update b.requests b.routed (some q)) : RoutingSound b' := by
  have stored := storedAt_put hp ho hput ht
  have new : ∀ o k r, StoredAt b o k r → ¬ (o = q.ownerPeer ∧ k = q.id) := fun o k r hs ⟨e1, e2⟩ => by
    have h2 := hs.2
    rw [e1, e2, hfree] at h2
    cases h2
  refine ⟨⟨fun r => ?_, fun o k r hs => ?_⟩, fun o k r q' hs hq' => ?_, fun r hr' => ?_⟩
  · simp only [stored]
    rw [htm]
    by_cases e : r = b.routed
    · rw [e, Function.update_self]
      exact ⟨fun _ => ⟨q.ownerPeer, q.id, Or.inl ⟨rfl, rfl, rfl⟩⟩, fun _ => rfl⟩
    · rw [Function.update_of_ne e, h.timers]
      constructor
      · rintro ⟨o, k, hs⟩
        exact ⟨o, k, Or.inr ⟨new o k r hs, hs⟩⟩
      · rintro ⟨o, k, ⟨_, _, e'⟩ | ⟨_, hs⟩⟩
        · exact (e e').elim
        · exact ⟨o, k, hs⟩
  · rw [hq, hp]
    rcases (stored o k r).mp hs with ⟨e1, e2, e3⟩ | ⟨_, hs⟩
    · rw [e3, Function.update_self]
      exact ⟨q, rfl, hr, ho, e1.symm⟩
    · rw [Function.update_of_ne (Nat.ne_of_lt (h.lt_routed hs))]
      exact h.stored o k r hs
  · rw [hq] at hq'
    rcases (stored o k r).mp hs with ⟨e1, e2, e3⟩ | ⟨_, hs⟩
    · rw [e3, Function.update_self] at hq'
      rw [← Option.some.inj hq']
      exact e2.symm
    · rw [Function.update_of_ne (Nat.ne_of_lt (h.lt_routed hs))] at hq'
      exact h.ids o k r q' hs hq'
  · rw [hf] at hr'
    have hne : r ≠ b.routed := Nat.ne_of_gt hr'
    rw [hq, htm, Function.update_of_ne hne, Function.update_of_ne hne]
    exact h.fresh r (Nat.le_of_succ_le hr')

end RoutingSound

/-! ## a set or call -/

theorem routingSound_setOrCall {env : Env} {p : Addr} {request : Json} {what : ElementType}
    {b b' : Broker T} {res : Response} (hI : RoutingSound b) (hp : p ∈ b.peerList)
    (hc : ∀ rc, routedCall env b p request what = some rc → rc.stored b = true ∧
      HashTable.get (b.routingTable rc.request.ownerPeer) rc.request.id = none ∧
      rc.started env = true ∧ rc.rendered env b = true)
    (h : SetOrCall env b p request what res b') : RoutingSound b' := by
  cases h with
  | rejected json n hid hrc => exact hI.congr rfl rfl
  | dropped json n hid hrc =>
    refine ⟨⟨hI.timers, fun o k r hs => ?_⟩, fun o k r q hs hq => ?_, fun r hr => ?_⟩
    · obtain ⟨q, hq, h1⟩ := hI.stored o k r hs
      refine ⟨q, ?_, h1⟩
      rw [← hq]
      exact Function.update_of_ne (Nat.ne_of_lt (hI.lt_routed hs)) _ _
    · refine hI.ids o k r q hs ?_
      rw [← hq]
      exact (Function.update_of_ne (Nat.ne_of_lt (hI.lt_routed hs)) _ _).symm
    · have hr' : b.routed + 1 ≤ r := hr
      obtain ⟨h1, h2⟩ := hI.fresh r (Nat.le_of_succ_le hr')
      exact ⟨(Function.update_of_ne (Nat.ne_of_gt hr') _ _).trans h1, h2⟩
  | full json n hid rc hrc hs => rw [(hc rc hrc).1] at hs; cases hs
  | notStarted json n hid rc hrc hs ht => rw [(hc rc hrc).2.2.1] at ht; cases ht
  | notRendered json n hid rc hrc hs ht hr => rw [(hc rc hrc).2.2.2] at hr; cases hr
  | sent json n hid rc hrc hs ht hr ho hj =>
    obtain ⟨params, path, e, el, _, _, _, _, hreq, _⟩ := routedCall_some hrc
    refine hI.store ho ?_ hs (hc rc hrc).2.1 rfl rfl rfl rfl rfl
    rw [hreq]
    exact hp

/-! ## the teardown of a peer -/

/-- the routers agree but for their tables -/
structure SameRequests (t t' : Router T) : Prop where
  timers : t'.timers = t.timers
  requests : t'.requests = t.requests
  routed : t'.routed = t.routed

/-- the tables of the peers `ps` are empty, and the router is `t` but for its tables -/
def NothingStored (ps : List Addr) (t : Router T) (b : Broker T) : Prop :=
  (∀ o ∈ ps, EmptyTable (b.routingTable o)) ∧ SameRequests t b.toRouter

theorem nothingStored_remove {ps : List Addr} {t : Router T} {env : Env} {p : Addr} (hp : p ∈ ps) :
    KeptByRemoval (NothingStored ps t) env p := by
  intro k b r b' hI h
  obtain ⟨rfl, rfl⟩ := routeTableRemove_some h
  refine ⟨⟨fun o ho k' => ?_, hI.2.timers, hI.2.requests, hI.2.routed⟩, fun a ha => ?_⟩
  · show HashTable.get (Function.update b.routingTable p _ o) k' = none
    by_cases e : o = p
    · subst e
      rw [Function.update_self, HashTable.get_remove, hI.1 o ho k']
      exact ite_self _
    · rw [Function.update_of_ne e]
      exact hI.1 o ho k'
  · rw [hI.1 p hp k] at ha
    cases ha

/-- where nothing is pending the teardown of a peer changes nothing but the routing tables -/
theorem freePeerResources_router {env : Env} {p : Addr} {b b' : Broker T} {u : Unit}
    (hp : p ∈ b.peerList) (hempty : ∀ o ∈ b.peerList, EmptyTable (b.routingTable o))
    (h : freePeerResources env p b = some (u, b')) :
    SameRequests b.toRouter b'.toRouter := by
  obtain ⟨b1, b2, b3, b4, h1, h2, h3, h4, rfl⟩ := freePeerResources_phases h
  have hI2 : NothingStored b.peerList b.toRouter b2 :=
    keeps_routes (fun o ho => nothingStored_remove ho) hp h1 h2 ⟨hempty, rfl, rfl, rfl⟩
  have e4 : b4.toRouter = b2.toRouter := (does_removeAllElementsFromPeer env p b3 _ b4 h4).router.trans
    (does_removeAllFetchersFromPeer p b2 _ b3 h3).router
  exact ⟨(congrArg Router.timers e4).trans hI2.2.timers,
    (congrArg Router.requests e4).trans hI2.2.requests, (congrArg Router.routed e4).trans hI2.2.routed⟩

theorem peerList_freePeerResources {env : Env} {p : Addr} {b b' : Broker T} {u : Unit}
    (h : freePeerResources env p b = some (u, b')) : b'.peerList = b.peerList.erase p := by
  obtain ⟨b1, b2, b3, b4, h1, h2, h3, h4, rfl⟩ := freePeerResources_phases h
  have e4 : b4.peerList = b.peerList :=
    (does_removeAllElementsFromPeer env p b3 _ b4 h4).peerList.trans
      ((does_removeAllFetchersFromPeer p b2 _ b3 h3).peerList.trans
        ((congrArg Store.peerList (does_removePeerFromRoutes env p b1 _ b2 h2).store).trans
          (congrArg Store.peerList (does_removeRoutingInfoFromPeer env p b _ b1 h1).store)))
  exact congrArg (fun l => List.erase l p) e4

theorem routingSound_freePeerResources {env : Env} {p : Addr} {b b' : Broker T} {u : Unit}
    (hI : RoutingSound b) (hp : p ∈ b.peerList)
    (hempty : ∀ o ∈ b.peerList, EmptyTable (b.routingTable o))
    (h : freePeerResources env p b = some (u, b')) : RoutingSound b' := by
  obtain ⟨htm, hq, hf⟩ := freePeerResources_router hp hempty h
  have none : ∀ o k r, ¬ StoredAt b o k r := fun o k r hs => by
    have h2 := hs.2
    rw [hempty o hs.1 k] at h2
    cases h2
  have none' : ∀ o k r, ¬ StoredAt b' o k r := fun o k r hs => by
    have ho : o ∈ b.peerList := by
      have h1 := hs.1
      rw [peerList_freePeerResources h] at h1
      exact List.mem_of_mem_erase h1
    have h2 := hs.2
    rw [freePeerResources_empty h o ho k] at h2
    cases h2
  refine ⟨⟨fun r => ?_, fun o k r hs => (none' o k r hs).elim⟩, fun o k r q hs => (none' o k r hs).elim,
    fun r hr' => ?_⟩
  · rw [htm, hI.timers]
    exact ⟨fun ⟨o, k, hs⟩ => (none o k r hs).elim, fun ⟨o, k, hs⟩ => (none' o k r hs).elim⟩
  · rw [hq, htm]
    rw [hf] at hr'
    exact hI.fresh r hr'

/-! ## steps and runs -/

theorem routingSound_stepped {env : Env} {b b' : Broker T} {e : Event} (hI : RoutingSound b)
    (hc : CleanStep env b e) (h : Stepped env b e b') : RoutingSound b' := by
  cases h with
  | notConnected p connection isLocal n => exact hI.congr rfl rfl
  | connected p connection isLocal n hp =>
    have stored : ∀ o k r, StoredAt (b.connected env p connection.memory isLocal n) o k r ↔
        StoredAt b o k r := storedAt_connected hp
    refine ⟨⟨fun r => ?_, fun o k r hs => ?_⟩, fun o k r q hs => ?_, hI.fresh⟩
    · simp only [stored]
      exact hI.timers r
    · obtain ⟨q, hq, h1, h2, h3⟩ := hI.stored o k r ((stored o k r).mp hs)
      exact ⟨q, hq, List.mem_append_left _ h1, List.mem_append_left _ h2, h3⟩
    · exact hI.ids o k r q ((stored o k r).mp hs)
  | answered p request res ret b1 b2 hp hr h1 h2 =>
    have hI1 : RoutingSound b1 := by
      cases hw : request.routes with
      | some what =>
        rw [handlerOf_of_routes _ hw] at h1
        exact routingSound_setOrCall hI hp (fun rc => hc.1 p request what rc rfl hw) (setOrCall_some h1)
      | none =>
        rcases does_handlerOf _ hw _ _ _ h1 with hs | hs
        · exact hI.congr hs.peerList hs.router
        · exact hI.congr (congrArg Store.peerList hs.store) hs.router
    obtain ⟨_, n, l, rfl, _⟩ := sendResponse_some h2
    exact hI1.congr rfl rfl
  | response p request response resultType ret b1 hp hr h1 =>
    rcases handleRoutingResponse_some h1 with rfl | ⟨id, _, ⟨hn, rfl⟩ | ⟨r, q, n, l, hs, hq, hl, _, rfl⟩⟩
    · exact hI.congr rfl rfl
    · exact hI.removed hn rfl rfl rfl rfl rfl
    · exact hI.complete ⟨hp, hs⟩ rfl rfl rfl rfl rfl
  | timeout r b1 ht h1 =>
    obtain ⟨q, n, l, hq, _, hl, rfl⟩ := requestTimeoutHandler_some h1
    obtain ⟨o, k, hs⟩ := (hI.timers r).mp (by rw [ht]; rfl)
    obtain ⟨q', hq', _, _, ho⟩ := hI.stored o k r hs
    have hk := hI.ids o k r q' hs hq'
    obtain rfl : q = q' := Option.some.inj (hq.symm.trans hq')
    rw [← ho, ← hk] at hs
    exact hI.complete hs rfl rfl rfl rfl rfl
  | disconnected p b1 hp h1 => exact routingSound_freePeerResources hI hp (hc.2 p rfl) h1

/-- the condition on the steps of a run: `CleanStep`, before any call has been made -/
def CleanSteps (platform : Platform) (b : Broker T) (i : Input) : Prop :=
  CleanStep (i.env platform) { b with calls := 0 } i.event

/-- Runs of clean steps keep the timers, the stored requests and the connected peers in step. -/
theorem routingInv_run {platform : Platform} {s b : Broker T} {l : List Input} (h0 : s.IsStart platform)
    (hc : Along (step platform) (CleanSteps platform) s l) (h : run (step platform) s l = some b) :
    RoutingInv b := by
  obtain ⟨allGroups, userData, passwordFile, rfl⟩ := h0
  have hsound : RoutingSound b := by
    refine run_invariant (fun b i b' hI hc hs => ?_) ?_ hc h
    · have hI0 : RoutingSound { b with calls := 0 } := hI.congr rfl rfl
      exact routingSound_stepped hI0 hc (step_cases hs)
    · have none : ∀ o k r, ¬ StoredAt (Broker.start (T := T) platform.config allGroups userData
          passwordFile) o k r := fun o k r hs => absurd hs.1 List.not_mem_nil
      refine ⟨⟨fun r => ?_, fun o k r hs => (none o k r hs).elim⟩, fun o k r q hs => (none o k r hs).elim,
        fun r _ => ⟨rfl, rfl⟩⟩
      exact ⟨fun e => (by cases e), fun ⟨o, k, hs⟩ => (none o k r hs).elim⟩
  exact hsound.toRoutingInv

end

/-! ## two peers -/

/-- no failure leaves the request behind -/
def RoutedCall.clean {T : Type} [HashTable T] (rc : RoutedCall) (env : Env) (b : Broker T) : Bool :=
  rc.stored b && (HashTable.get (b.routingTable rc.request.ownerPeer) rc.request.id).isNone &&
    rc.started env && rc.rendered env b

/-- the check of `CleanSteps` in a run without disconnects -/
def cleanCheck (b : Broker SlotTable) (i : Input) : Bool :=
  match i.event with
  | .rpc p request =>
    match request.routes with
    | none => true
    | some what => (routedCall (i.env Platform.small) { b with calls := 0 } p request what).all fun rc =>
        rc.clean (i.env Platform.small) { b with calls := 0 }
  | .disconnect _ => false
  | _ => true

theorem cleanSteps_of_check (b : Broker SlotTable) (i : Input) (h : cleanCheck b i = true) :
    CleanSteps Platform.small b i := by
  unfold cleanCheck at h
  refine ⟨fun p request what rc e hw hrc => ?_, fun p e => ?_⟩
  · rw [e] at h
    simp only [hw, hrc, Option.all_some, RoutedCall.clean, Bool.and_eq_true, Option.isNone_iff_eq_none] at h
    exact ⟨h.1.1.1, h.1.1.2, h.1.2, h.2⟩
  · rw [e] at h
    cases h

theorem setByOther_routingInv : ∃ b : Broker SlotTable,
    run (step Platform.small) (Broker.start Platform.small.config none none [])
      (setByOther Outcomes.good) = some b ∧ RoutingInv b := by
  have hrun : (run (step Platform.small) (Broker.start (T := SlotTable) Platform.small.config none none [])
      (setByOther Outcomes.good)).isSome = true := by decide +kernel
  obtain ⟨b, hb⟩ := Option.isSome_iff_exists.mp hrun
  refine ⟨b, hb, routingInv_run (isStart_start _ none none []) ?_ hb⟩
  exact Along.of_check cleanSteps_of_check (by decide +kernel)

/-- Where the message to the owner cannot be rendered the stored request has been freed. -/
theorem setByOther_stored_freed :
    ¬ ∀ (s : Broker SlotTable) l b, s.IsStart Platform.small → run (step Platform.small) s l = some b →
      RoutingInv b := by
  intro hall
  have hrun : (run (step Platform.small) (Broker.start (T := SlotTable) Platform.small.config none none [])
      (setByOther (Outcomes.failing Call.isRoutedPrint))).any (fun b => b.peerList.contains 1 &&
        HashTable.get (b.routingTable 1) "x_0_0x" == some 0 && (b.requests 0).isNone) = true := by
    decide +kernel
  obtain ⟨b, hb, hc⟩ := Option.any_eq_true _ _ |>.mp hrun
  simp only [Bool.and_eq_true, List.contains_iff_mem, beq_iff_eq, Option.isNone_iff_eq_none] at hc
  obtain ⟨⟨h1, h2⟩, h3⟩ := hc
  obtain ⟨q, hq, _⟩ := (hall _ _ b (isStart_start _ none none []) hb).stored 1 "x_0_0x" 0 ⟨h1, h2⟩
  rw [h3] at hq
  cases hq

end Cjet
