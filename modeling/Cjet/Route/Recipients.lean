import Cjet.Route.Resource
import Cjet.Store.Isolation

/-!
# Who the messages of the broker go to

* `Sends`            messages go to connected peers, and these are the same afterwards;
* `NoneAwaited`      no answer is due to a peer;
* `spares_disconnect`   a peer that goes away while none is gets no message;
* `RequestersConnected`   the requests in the routing tables were made by connected peers.
-/

set_option linter.unusedVariables false
set_option linter.unusedSectionVars false

namespace Cjet
open Stateful Alloc

/-! ## connected peers -/

section
variable {T : Type}

structure Sends (b b' : Broker T) : Prop where
  peerList : b'.peerList = b.peerList
  sent : ∃ l, b'.sent = b.sent ++ l ∧ ∀ m ∈ l, m.peer ∈ b.peerList

instance : IsPreorder (Broker T) Sends where
  refl b := ⟨rfl, [], (List.append_nil _).symm, by simp⟩
  trans a b c hab hbc := by
    obtain ⟨l, hl, hm⟩ := hab.sent
    obtain ⟨l', hl', hm'⟩ := hbc.sent
    refine ⟨hbc.peerList.trans hab.peerList, l ++ l', ?_, ?_⟩
    · rw [hl', hl, List.append_assoc]
    · intro m h
      rcases List.mem_append.mp h with h | h
      · exact hm m h
      · rw [← hab.peerList]
        exact hm' m h

variable {b b' : Broker T}

theorem Sends.quiet (hp : b'.peerList = b.peerList) (hs : b'.sent = b.sent) : Sends b b' :=
  ⟨hp, [], by rw [hs, List.append_nil], by simp⟩

theorem Sends.received {n : Nat} (h : Sends b b') : Sends b { b' with received := n } := ⟨h.peerList, h.sent⟩

theorem OnlyStore.sends (h : OnlyStore b b') : Sends b b' := by
  obtain ⟨l, hl, hm⟩ := h.sent
  exact ⟨h.peerList, l, hl, fun m hml => (hm m hml).2⟩

theorem OnlyRouter.sends (h : OnlyRouter b b') : Sends b b' := by
  obtain ⟨l, hl, hm⟩ := h.sent
  exact ⟨congrArg Store.peerList h.store, l, hl, fun m hml => (hm m hml).2⟩

theorem OnlyAccounts.sends (h : OnlyAccounts b b') : Sends b b' :=
  .quiet (congrArg Store.peerList h.store) h.sent

theorem Answers.sends {p : Addr} {about : About} (h : Answers p about b b') : Sends b b' := by
  obtain ⟨n, l, rfl, _, hm⟩ := h
  refine ⟨rfl, l, rfl, fun m hml => ?_⟩
  rw [(hm m hml).1]
  exact (hm m hml).2.2

end

section
variable {T : Type} [HashTable T] {env : Env} {b b' : Broker T}

theorem sends_rpc {p : Addr} {request : Json} (h : Stepped env b (.rpc p request) b') : Sends b b' := by
  cases h with
  | answered _ _ res ret b1 b2 hp hr h1 h2 =>
    have s1 : Sends b b1 := by
      cases hw : request.routes with
      | some what =>
        rw [handlerOf_of_routes _ hw] at h1
        exact (does_setOrCall env p request what b res b1 h1).sends
      | none =>
        rcases does_handlerOf _ hw _ _ _ h1 with hs | hs
        · exact hs.sends
        · exact hs.sends
    exact (Trans.trans s1 (sendResponse_some h2).2.sends : Sends b b2).received
  | response _ _ response resultType ret b1 hp hr h1 =>
    exact (does_handleRoutingResponse env request response resultType p b ret b1 h1).sends.received

/-- The peer is still in the list when the messages of its teardown are sent. -/
theorem sends_disconnect {p : Addr} (h : Stepped env b (.disconnect p) b') :
    p ∈ b.peerList ∧ b'.peerList = b.peerList.erase p ∧
      ∃ l, b'.sent = b.sent ++ l ∧ ∀ m ∈ l, m.peer ∈ b.peerList := by
  cases h with
  | disconnected _ _ hp h1 =>
    refine ⟨hp, peerList_freePeerResources h1, ?_⟩
    obtain ⟨b1, b2, b3, b4, h2, h3, h4, h5, rfl⟩ := freePeerResources_phases h1
    have s2 : Sends b b2 := Trans.trans (does_removeRoutingInfoFromPeer env p b _ b1 h2).sends
      (does_removePeerFromRoutes env p b1 _ b2 h3).sends
    have s4 : Sends b2 b4 := Trans.trans (does_removeAllFetchersFromPeer p b2 _ b3 h4).sends
      (does_removeAllElementsFromPeer env p b3 _ b4 h5).sends
    exact (Trans.trans s2 s4 : Sends b b4).sent

/-! ## a peer that nobody owes an answer -/

/-- no request of `p` that has an id waits in a routing table -/
def NoneAwaited (b : Broker T) (p : Addr) : Prop :=
  ∀ o k r q, StoredAt b o k r → b.requests r = some q → q.requestingPeer = p → q.originRequestId = none

/-- the same for the tables of `ps`, and what was sent since is not for `p` -/
def Spared (p : Addr) (ps : List Addr) (sent : List Sent) (b : Broker T) : Prop :=
  (∀ o ∈ ps, ∀ k r q, HashTable.get (b.routingTable o) k = some r → b.requests r = some q →
    q.requestingPeer = p → q.originRequestId = none) ∧
  ∃ l, b.sent = sent ++ l ∧ ∀ m ∈ l, m.peer ≠ p

theorem spared_remove {p o : Addr} {ps : List Addr} {sent : List Sent} (ho : o ∈ ps) :
    KeptByRemoval (T := T) (Spared p ps sent) env o := by
  rintro k b r b' ⟨htables, l, hl, hm⟩ h
  obtain ⟨rfl, rfl⟩ := routeTableRemove_some h
  have hkeep : ∀ o' ∈ ps, ∀ k' r' q, HashTable.get (Function.update b.routingTable o
      (HashTable.remove (b.routingTable o) k).2 o') k' = some r' → b.requests r' = some q →
      q.requestingPeer = p → q.originRequestId = none := by
    intro o' ho' k' r' q hget
    by_cases e : o' = o
    · rw [e, Function.update_self, HashTable.get_remove] at hget
      split at hget
      · cases hget
      · exact htables o ho k' r' q hget
    · rw [Function.update_of_ne e] at hget
      exact htables o' ho' k' r' q hget
  refine ⟨⟨hkeep, l, hl, hm⟩, fun a ha u b'' h' => ?_⟩
  obtain ⟨q, n, t, l', hq, _, hl', rfl⟩ := clearRoutingEntry_some h'
  refine ⟨fun o' ho' k' r' q' hget hq' => hkeep o' ho' k' r' q' hget ?_, l ++ l', ?_, fun m hml => ?_⟩
  · have hq'' : Function.update b.requests a none r' = some q' := hq'
    by_cases e : r' = a
    · rw [e, Function.update_self] at hq''
      cases hq''
    · rwa [Function.update_of_ne e] at hq''
  · show b.sent ++ l' = _
    rw [hl, List.append_assoc]
  · rcases List.mem_append.mp hml with hml | hml
    · exact hm m hml
    · intro e
      rw [(hl'.about m hml).1] at e
      rw [hl'.silent (htables o ho k a q ha hq e)] at hml
      cases hml

/-- no fetch of `p` is left: nothing that is said of elements is for `p` -/
theorem spares_removeElements {p : Addr} {es : List Addr} {u : Unit}
    (h : Prog.each (removeElement env) es b = some (u, b')) (hf : ∀ f ft, b.fetches f = some ft → ft.peer ≠ p) :
    ∃ l, b'.sent = b.sent ++ l ∧ ∀ m ∈ l, m.peer ≠ p := by
  induction es generalizing b with
  | nil =>
    obtain ⟨_, rfl⟩ := Prog.pure_some h
    exact ⟨[], (List.append_nil _).symm, by simp⟩
  | cons e es ih =>
    obtain ⟨_, b1, h1, h2⟩ := Prog.bind_some h
    obtain ⟨el, ok, l, n, hel, hl, rfl⟩ := removeElement_some h1
    obtain ⟨l', h3, hl'⟩ := ih h2 hf
    refine ⟨l ++ l', by rw [h3, List.append_assoc], fun m hm => ?_⟩
    rcases List.mem_append.mp hm with hm | hm
    · obtain ⟨f, ft, hft, hpeer, _⟩ := deliverAll_about hl m hm
      rw [hpeer]
      exact hf f ft hft
    · exact hl' m hm

/-- A peer that goes away gets no message if no request of its own waits for an answer. -/
theorem spares_disconnect {p : Addr} (hS : b.toStore.Sound) (hn : NoneAwaited b p)
    (h : Stepped env b (.disconnect p) b') : ∃ l, b'.sent = b.sent ++ l ∧ ∀ m ∈ l, m.peer ≠ p := by
  cases h with
  | disconnected _ _ hp h1 =>
    obtain ⟨b1, b2, b3, b4, h2, h3, h4, h5, rfl⟩ := freePeerResources_phases h1
    have r2 : OnlyRouter b b2 := Trans.trans (does_removeRoutingInfoFromPeer env p b _ b1 h2)
      (does_removePeerFromRoutes env p b1 _ b2 h3)
    have hspared : Spared p b.peerList b.sent b2 :=
      keeps_routes (fun o ho => spared_remove ho) hp h2 h3
        ⟨fun o ho k r q hget => hn o k r q ⟨ho, hget⟩, [], (List.append_nil _).symm, by simp⟩
    obtain ⟨l, hl, hm⟩ := hspared.2
    obtain ⟨fs, b2', h6, h7⟩ := Prog.bind_some h4
    obtain ⟨rfl, rfl⟩ := Prog.read_some h6
    obtain ⟨es, b3', h8, h9⟩ := Prog.bind_some h5
    obtain ⟨rfl, rfl⟩ := Prog.read_some h8
    have hS2 : b2'.toStore.Sound := by
      rw [r2.store]
      exact hS
    have hp2 : p ∈ b2'.peerList := by
      rw [congrArg Store.peerList r2.store]
      exact hp
    have hnodup := hS2.fetches.nodup p hp2
    obtain ⟨c3, p3, _, f3⟩ := removeFetches_chain (fun _ _ => True) env hS2 hp2 hnodup (fun f hf => hf) h7
    have hsent3 := (removeFetches_left env hS2 hp2 hnodup (fun f hf => hf) h7).1
    have hnone : ∀ f ft, b3'.fetches f = some ft → ft.peer ≠ p := by
      intro f ft hft e
      have hmem := ((sound_chain hS2 c3).fetch_peer_mem hft).2
      rw [e] at hmem
      exact ((f3 f).mp hmem).2 ((f3 f).mp hmem).1
    obtain ⟨l', hl', hm'⟩ := spares_removeElements h9 hnone
    refine ⟨l ++ l', ?_, fun m hml => ?_⟩
    · show b4.sent = _
      rw [hl', hsent3, hl, List.append_assoc]
    · rcases List.mem_append.mp hml with hml | hml
      · exact hm m hml
      · exact hm' m hml

/-! ## the requesters -/

/-- A request in the table of a connected peer was made by a connected peer, and it has been allocated before. -/
def RequestersConnected (b : Broker T) : Prop :=
  ∀ o k r, StoredAt b o k r → r < b.routed ∧ ∀ q, b.requests r = some q → q.requestingPeer ∈ b.peerList

theorem StoredAt.of_remove {tables : Addr → T} {o o' : Addr} {id k : String} {r : Addr} (h : StoredAt b o' k r)
    (ht : b.routingTable = Function.update tables o (HashTable.remove (tables o) id).2) :
    HashTable.get (tables o') k = some r := by
  have hget := h.2
  rw [ht] at hget
  by_cases e : o' = o
  · rw [e, Function.update_self, HashTable.get_remove] at hget
    split at hget
    · cases hget
    · rwa [e]
  · rwa [Function.update_of_ne e] at hget

namespace RequestersConnected

/-- requests leave the tables, and others are freed -/
theorem shrink (h : RequestersConnected b) (hs : ∀ o k r, StoredAt b' o k r → StoredAt b o k r)
    (hq : ∀ r q, b'.requests r = some q → b.requests r = some q) (hf : b'.routed = b.routed)
    (hp : ∀ p ∈ b.peerList, p ∈ b'.peerList) : RequestersConnected b' := by
  intro o k r hst
  obtain ⟨h1, h2⟩ := h o k r (hs o k r hst)
  exact ⟨by rwa [hf], fun q hq' => hp _ (h2 q (hq r q hq'))⟩

theorem congr (h : RequestersConnected b) (hp : b'.peerList = b.peerList) (hr : b'.toRouter = b.toRouter) :
    RequestersConnected b' := by
  have hq : b'.requests = b.requests := congrArg Router.requests hr
  exact h.shrink (fun o k r => (storedAt_congr hp (congrArg Router.routingTable hr) o k r).mp)
    (fun r q hq' => by rwa [hq] at hq') (congrArg Router.routed hr) (fun p hm => by rwa [hp])

/-- a request has been made: by a connected peer, if it is kept -/
theorem grow (h : RequestersConnected b) {x : Option RoutingRequest} (hp : b'.peerList = b.peerList)
    (hs : ∀ o k r, StoredAt b' o k r → r = b.routed ∨ StoredAt b o k r) (hf : b'.routed = b.routed + 1)
    (hq : b'.requests = Function.update b.requests b.routed x)
    (hx : ∀ q, x = some q → q.requestingPeer ∈ b.peerList) : RequestersConnected b' := by
  intro o k r hst
  rw [hf, hq, hp]
  rcases hs o k r hst with rfl | hst
  · rw [Function.update_self]
    exact ⟨Nat.lt_succ_self _, hx⟩
  · obtain ⟨h1, h2⟩ := h o k r hst
    rw [Function.update_of_ne (Nat.ne_of_lt h1)]
    exact ⟨Nat.lt_succ_of_lt h1, h2⟩

/-- the request that was freed may have been stored under a key that is removed -/
theorem complete (h : RequestersConnected b) {o : Addr} {id : String} {r : Addr} (hp : b'.peerList = b.peerList)
    (hf : b'.routed = b.routed)
    (ht : b'.routingTable = Function.update b.routingTable o (HashTable.remove (b.routingTable o) id).2)
    (hq : b'.requests = Function.update b.requests r none) : RequestersConnected b' := by
  refine h.shrink (fun o' k r' hst => ⟨by rw [← hp]; exact hst.1, hst.of_remove ht⟩) (fun r' q hq' => ?_) hf
    (fun p hm => by rwa [hp])
  rw [hq] at hq'
  by_cases e : r' = r
  · rw [e, Function.update_self] at hq'
    cases hq'
  · rwa [Function.update_of_ne e] at hq'

end RequestersConnected

theorem get_tables {rc : RoutedCall} {o : Addr} {k : String} {r : Addr}
    (h : HashTable.get (rc.tables b o) k = some r) :
    r = b.routed ∨ HashTable.get (b.routingTable o) k = some r := by
  unfold RoutedCall.tables at h
  by_cases e : o = rc.request.ownerPeer
  · subst e
    rw [Function.update_self] at h
    by_cases hput : (HashTable.put (b.routingTable rc.request.ownerPeer) rc.request.id b.routed).1 = true
    · rw [HashTable.get_put_ok _ _ _ _ hput] at h
      split at h
      · exact Or.inl (Option.some.inj h).symm
      · exact Or.inr h
    · rw [HashTable.get_put_full _ _ _ _ (Bool.not_eq_true _ |>.mp hput)] at h
      exact Or.inr h
  · rw [Function.update_of_ne e] at h
    exact Or.inr h

theorem requestersConnected_setOrCall {p : Addr} {request : Json} {what : ElementType} {res : Response}
    (hI : RequestersConnected b) (hp : p ∈ b.peerList) (h : SetOrCall env b p request what res b') :
    RequestersConnected b' := by
  have nobody : ∀ q : RoutingRequest, none = some q → q.requestingPeer ∈ b.peerList := fun q e => by cases e
  cases h with
  | rejected json n hid hrc => exact hI.congr rfl rfl
  | dropped json n hid hrc => exact hI.grow rfl (fun o k r hst => Or.inr hst) rfl rfl nobody
  | full json n hid rc hrc hs =>
    exact hI.grow rfl (fun o k r hst => (get_tables hst.2).imp_right (⟨hst.1, ·⟩)) rfl rfl nobody
  | notStarted json n hid rc hrc hs ht =>
    refine hI.grow rfl (fun o k r hst => ?_) rfl rfl nobody
    exact (get_tables (hst.of_remove rfl)).imp_right (⟨hst.1, ·⟩)
  | notRendered json n hid rc hrc hs ht hr =>
    exact hI.grow rfl (fun o k r hst => (get_tables hst.2).imp_right (⟨hst.1, ·⟩)) rfl rfl nobody
  | sent json n hid rc hrc hs ht hr ho hj =>
    obtain ⟨params, path, e, el, _, _, _, _, hreq, _⟩ := routedCall_some hrc
    refine hI.grow rfl (fun o k r hst => (get_tables hst.2).imp_right (⟨hst.1, ·⟩)) rfl rfl fun q hq => ?_
    rw [← Option.some.inj hq, hreq]
    exact hp

theorem requestersConnected_stepped {e : Event} (hI : RequestersConnected b) (h : Stepped env b e b') :
    RequestersConnected b' := by
  cases h with
  | notConnected p connection isLocal n => exact hI.congr rfl rfl
  | connected p connection isLocal n hp =>
    exact hI.shrink (fun o k r => (storedAt_connected hp o k r).mp) (fun r q hq => hq) rfl
      (fun q hm => List.mem_append_left _ hm)
  | answered p request res ret b1 b2 hp hr h1 h2 =>
    have hI1 : RequestersConnected b1 := by
      cases hw : request.routes with
      | some what =>
        rw [handlerOf_of_routes _ hw] at h1
        exact requestersConnected_setOrCall hI hp (setOrCall_some h1)
      | none =>
        rcases does_handlerOf _ hw _ _ _ h1 with hs | hs
        · exact hI.congr hs.peerList hs.router
        · exact hI.congr (congrArg Store.peerList hs.store) hs.router
    obtain ⟨_, n, l, rfl, _⟩ := sendResponse_some h2
    exact hI1.congr rfl rfl
  | response p request response resultType ret b1 hp hr h1 =>
    rcases handleRoutingResponse_some h1 with rfl | ⟨id, _, ⟨_, rfl⟩ | ⟨r, q, n, l, _, _, _, _, rfl⟩⟩
    · exact hI.congr rfl rfl
    · exact hI.shrink (fun o k r hst => ⟨hst.1, hst.of_remove rfl⟩) (fun r q hq => hq) rfl (fun q hm => hm)
    · exact hI.complete rfl rfl rfl rfl
  | timeout r b1 ht h1 =>
    obtain ⟨q, n, l, _, _, _, rfl⟩ := requestTimeoutHandler_some h1
    exact hI.complete rfl rfl rfl rfl
  | disconnected p b1 hp h1 =>
    intro o k r hst
    have ho : o ∈ b.peerList := List.mem_of_mem_erase (by rw [← peerList_freePeerResources h1]; exact hst.1)
    have hget := hst.2
    rw [freePeerResources_empty h1 o ho k] at hget
    cases hget

/-- After a peer has gone away nobody waits for an answer. -/
theorem noneAwaited_disconnect {p : Addr} (h : Stepped env b (.disconnect p) b') (x : Addr) : NoneAwaited b' x := by
  cases h with
  | disconnected _ _ hp h1 =>
    intro o k r q hst
    have ho : o ∈ b.peerList := List.mem_of_mem_erase (by rw [← peerList_freePeerResources h1]; exact hst.1)
    have hget := hst.2
    rw [freePeerResources_empty h1 o ho k] at hget
    cases hget

end

end Cjet
