import Cjet.Route.Effect

/-!
# The teardown of a peer and the routing tables

`free_peer_resources` walks the routing tables of all peers and removes each entry it comes across,
whoever made the request and whoever is to answer it.

* `removePeerFromRoutes_empty`   the tables of all connected peers are empty afterwards;
* `Pending`, `Survives`          a pending request, and that it has been kept with its timer;
* `isolated_iff`                 a disconnect leaves the requests between other peers alone exactly
                                 where there are none.
-/

set_option linter.unusedVariables false
set_option linter.unusedSectionVars false

namespace Cjet
open Stateful Alloc

/-! ## draining the tables -/

section
variable {T : Type} [HashTable T]

/-- no key of the table has a value -/
def EmptyTable (t : T) : Prop := ∀ k, HashTable.get t k = none

/-- nothing is put into a routing table that was empty -/
def KeepsEmpty (b b' : Broker T) : Prop :=
  ∀ o, EmptyTable (b.routingTable o) → EmptyTable (b'.routingTable o)

instance : IsPreorder (Broker T) KeepsEmpty where
  refl _ _ := id
  trans _ _ _ h h' o he := h' o (h o he)

theorem emptyTable_create (order : Nat) : EmptyTable (HashTable.create order : T) := fun k =>
  HashTable.get_create order k

/-- the slot of the table of `p` is drained, the other tables are as before -/
def DrainsSlot (p : Addr) (i : Nat) (b b' : Broker T) : Prop :=
  b'.routingTable = Function.update b.routingTable p (HashTable.drainSlot (b.routingTable p) i)

theorem clearRoutingEntry_tables {env : Env} {r : Addr} {b b' : Broker T} {u : Unit}
    (h : clearRoutingEntry env r b = some (u, b')) : b'.routingTable = b.routingTable := by
  obtain ⟨q, n, t, l, _, _, _, rfl⟩ := clearRoutingEntry_some h
  rfl

theorem drainsSlot_none {p : Addr} {i : Nat} {b : Broker T}
    (hs : HashTable.slot (b.routingTable p) i = none) : DrainsSlot p i b b := by
  unfold DrainsSlot HashTable.drainSlot
  rw [hs, Function.update_eq_self]

theorem drainsSlot_some {p : Addr} {i : Nat} {k : String} {b : Broker T}
    (hs : HashTable.slot (b.routingTable p) i = some k) :
    DrainsSlot p i b { b with
      routingTable := Function.update b.routingTable p (HashTable.remove (b.routingTable p) k).2 } := by
  unfold DrainsSlot HashTable.drainSlot
  rw [hs]

theorem removePeerFromSlot_drains {env : Env} {p x : Addr} {i : Nat} {b b' : Broker T} {u : Unit}
    (h : removePeerFromSlot env p x i b = some (u, b')) : DrainsSlot p i b b' := by
  obtain ⟨k, b1, h1, h2⟩ := Prog.bind_some h
  obtain ⟨hk, rfl⟩ := Prog.read_some h1
  cases k with
  | none =>
    obtain ⟨_, rfl⟩ := Prog.pure_some h2
    exact drainsSlot_none hk.symm
  | some k =>
    have hd := drainsSlot_some hk.symm
    obtain ⟨r, b2, h3, h4⟩ := Prog.bind_some h2
    obtain ⟨_, rfl⟩ := routeTableRemove_some h3
    cases r with
    | none =>
      obtain ⟨_, rfl⟩ := Prog.pure_some h4
      exact hd
    | some r =>
      obtain ⟨q, b3, h5, h6⟩ := Prog.bind_some h4
      obtain ⟨_, rfl⟩ := Prog.deref_some h5
      by_cases hq : q.requestingPeer = x
      · rw [if_pos hq] at h6
        exact (clearRoutingEntry_tables h6).trans hd
      · rw [if_neg hq] at h6
        obtain ⟨_, rfl⟩ := Prog.pure_some h6
        exact hd

/-- a loop whose body drains the slot it is at -/
theorem each_drains {p : Addr} {f : Nat → Prog (Broker T) Unit}
    (hf : ∀ i b u b', f i b = some (u, b') → DrainsSlot p i b b') {l : List Nat} {b b' : Broker T}
    {u : Unit} (h : Prog.each f l b = some (u, b')) :
    b'.routingTable = Function.update b.routingTable p (HashTable.drain (b.routingTable p) l) := by
  induction l generalizing b with
  | nil =>
    obtain ⟨_, rfl⟩ := Prog.pure_some h
    rw [HashTable.drain_nil, Function.update_eq_self]
  | cons i l ih =>
    obtain ⟨_, b1, h1, h2⟩ := Prog.bind_some h
    have e1 : b1.routingTable = _ := hf i b _ b1 h1
    rw [ih h2, e1, Function.update_self, Function.update_idem, HashTable.drain_cons]

/-- a drained table is empty -/
theorem each_empties {p : Addr} {f : Nat → Prog (Broker T) Unit}
    (hf : ∀ i b u b', f i b = some (u, b') → DrainsSlot p i b b') {b b' : Broker T} {u : Unit}
    (h : Prog.each f (List.range (HashTable.size (b.routingTable p))) b = some (u, b')) :
    EmptyTable (b'.routingTable p) ∧ ∀ o, o ≠ p → b'.routingTable o = b.routingTable o := by
  have e := each_drains hf h
  constructor
  · intro k
    rw [e, Function.update_self]
    exact HashTable.get_drain_range _ k
  · intro o ho
    rw [e, Function.update_of_ne ho]

theorem removePeerFromRoutingTable_empties {env : Env} {p x : Addr} {b b' : Broker T} {u : Unit}
    (h : removePeerFromRoutingTable env p x b = some (u, b')) :
    EmptyTable (b'.routingTable p) ∧ ∀ o, o ≠ p → b'.routingTable o = b.routingTable o := by
  obtain ⟨n, b1, h1, h2⟩ := Prog.bind_some h
  obtain ⟨rfl, rfl⟩ := Prog.read_some h1
  exact each_empties (fun i b u b' => removePeerFromSlot_drains) h2

/-- emptying the table of `p` keeps the others empty -/
theorem keepsEmpty_of_empties {p : Addr} {b b' : Broker T}
    (h : EmptyTable (b'.routingTable p) ∧ ∀ o, o ≠ p → b'.routingTable o = b.routingTable o) :
    KeepsEmpty b b' := by
  intro o ho
  by_cases e : o = p
  · rw [e]; exact h.1
  · rw [h.2 o e]; exact ho

/-- After `remove_peer_from_routes` the table of every connected peer is empty. -/
theorem removePeerFromRoutes_empty {env : Env} {x : Addr} {b b' : Broker T} {u : Unit}
    (h : removePeerFromRoutes env x b = some (u, b')) :
    ∀ o ∈ b.peerList, EmptyTable (b'.routingTable o) := by
  obtain ⟨ps, b1, h1, h2⟩ := Prog.bind_some h
  obtain ⟨rfl, rfl⟩ := Prog.read_some h1
  have loop : ∀ (l : List Addr) (b b' : Broker T) (u : Unit),
      Prog.each (fun p => removePeerFromRoutingTable env p x) l b = some (u, b') →
      ∀ o ∈ l, EmptyTable (b'.routingTable o) := by
    intro l
    induction l with
    | nil => intro b b' u _ o ho; cases ho
    | cons p l ih =>
      intro b b' u h o ho
      obtain ⟨_, b2, h3, h4⟩ := Prog.bind_some h
      rcases List.mem_cons.mp ho with rfl | ho
      · have hk : Does KeepsEmpty (Prog.each (fun p => removePeerFromRoutingTable (T := T) env p x) l) :=
          Does.each l fun q _ s a t e => keepsEmpty_of_empties (removePeerFromRoutingTable_empties e)
        exact hk b2 u b' h4 o (removePeerFromRoutingTable_empties h3).1
      · exact ih b2 b' u h4 o ho
  exact loop _ _ _ _ h2

/-- After a disconnect the tables of all peers that were connected are empty. -/
theorem freePeerResources_empty {env : Env} {x : Addr} {b b' : Broker T} {u : Unit}
    (h : freePeerResources env x b = some (u, b')) :
    ∀ o ∈ b.peerList, EmptyTable (b'.routingTable o) := by
  obtain ⟨b1, b2, b3, b4, h1, h2, h3, h4, rfl⟩ := freePeerResources_phases h
  have e1 : b1.peerList = b.peerList :=
    congrArg Store.peerList (does_removeRoutingInfoFromPeer env x b _ b1 h1).store
  have e34 : b4.routingTable = b2.routingTable :=
    congrArg Router.routingTable ((does_removeAllElementsFromPeer env x b3 _ b4 h4).router.trans
      (does_removeAllFetchersFromPeer x b2 _ b3 h3).router)
  intro o ho
  show EmptyTable (Function.update b4.routingTable x (HashTable.create env.config.routingTableOrder) o)
  by_cases e : o = x
  · rw [e, Function.update_self]
    exact emptyTable_create _
  · rw [Function.update_of_ne e, e34]
    exact removePeerFromRoutes_empty h2 o (by rw [e1]; exact ho)

end

/-! ## requests between other peers -/

section
variable {T : Type} [HashTable T] (platform : Platform)

/-- the request `r` waits for the response of its owner -/
def Pending (b : Broker T) (r : Addr) (q : RoutingRequest) : Prop :=
  b.requests r = some q ∧ q.ownerPeer ∈ b.peerList ∧
    HashTable.get (b.routingTable q.ownerPeer) q.id = some r

/-- the request is stored under its routed id, and its timer is armed -/
def Survives (b : Broker T) (r : Addr) (q : RoutingRequest) : Prop :=
  HashTable.get (b.routingTable q.ownerPeer) q.id = some r ∧ b.timers r = some true

/-- `response` is a response with the routed id `id` -/
def IsResponse (response : Json) (id : String) : Prop :=
  response.routingResponse.isSome = true ∧ response.getObjectItem "id" = some (.str id)

/-- the input does not complete the request, and no peer goes away -/
def Input.LeavesAlone (i : Input) (r : Addr) (q : RoutingRequest) : Prop :=
  match i.event with
  | .timeout r' => r' ≠ r
  | .rpc p response => ¬ (p = q.ownerPeer ∧ IsResponse response q.id)
  | .disconnect _ => False
  | .connect _ _ _ => True

/-- in every continuation a response of the owner, in time, is forwarded to the requester -/
def ForwardedLater (b : Broker T) (r : Addr) (q : RoutingRequest) : Prop :=
  ∀ l b₁, run (step platform) b l = some b₁ →
    Along (step platform) (fun _ i => i.LeavesAlone r q) b l →
    ∀ i response b₂, i.event = .rpc q.ownerPeer response → IsResponse response q.id →
      (∀ c n, i.outcomes.ok c n = true) → step platform b₁ i = some b₂ →
      q.originRequestId.isSome → ∃ m, b₂.sent = b₁.sent ++ [m] ∧
        m.peer = q.requestingPeer ∧ m.about = .response q.origin

/-- the disconnect of `x`, which took `b` to `b'`, left the requests between other peers alone -/
def Isolated (b b' : Broker T) (x : Addr) : Prop :=
  ∀ r q, Pending b r q → q.requestingPeer ≠ x → q.ownerPeer ≠ x →
    Survives b' r q ∧ ForwardedLater platform b' r q

/-- No pending request is still stored after a disconnect. -/
theorem lost_of_disconnect {b b' : Broker T} {i : Input} {x : Addr} (he : i.event = .disconnect x)
    (h : step platform b i = some b') {r : Addr} {q : RoutingRequest} (hp : Pending b r q) :
    HashTable.get (b'.routingTable q.ownerPeer) q.id = none := by
  have hs := step_cases h
  rw [he] at hs
  cases hs with
  | disconnected _ _ _ h1 => exact freePeerResources_empty h1 q.ownerPeer hp.2.1 q.id

theorem not_isolated_of_pending {b b' : Broker T} {i : Input} {x : Addr}
    (he : i.event = .disconnect x) (h : step platform b i = some b') {r : Addr} {q : RoutingRequest}
    (hp : Pending b r q) (hr : q.requestingPeer ≠ x) (ho : q.ownerPeer ≠ x) :
    ¬ Isolated platform b b' x := by
  intro hiso
  have hkept := (hiso r q hp hr ho).1.1
  rw [lost_of_disconnect platform he h hp] at hkept
  cases hkept

/-- A disconnect leaves the requests between other peers alone exactly where no two other peers
have one pending between them. -/
theorem isolated_iff {b b' : Broker T} {i : Input} {x : Addr} (he : i.event = .disconnect x)
    (h : step platform b i = some b') :
    Isolated platform b b' x ↔ ¬ ∃ r q, Pending b r q ∧ q.requestingPeer ≠ x ∧ q.ownerPeer ≠ x := by
  constructor
  · rintro hiso ⟨r, q, hp, hr, ho⟩
    exact not_isolated_of_pending platform he h hp hr ho hiso
  · intro hnone r q hp hr ho
    exact (hnone ⟨r, q, hp, hr, ho⟩).elim

end

/-! ## three peers -/

/-- peers 1, 2 and 3 connect, peer 1 adds a state, and peer 2 sets it -/
def threePeers : List Input :=
  [Event.good (.connect 1 .websocket true), Event.good (.connect 2 .websocket true),
   Event.good (.connect 3 .websocket true),
   Event.good (.rpc 1 (.request none "add" [("path", .str "a"), ("value", .bool true)])),
   Event.good (.rpc 2 (.request none "set" [("path", .str "a"), ("value", .bool false)]))]

def Broker.pendingBetween (b : Broker SlotTable) (r o p : Addr) : Bool :=
  match b.requests r with
  | some q => q.ownerPeer == o && q.requestingPeer == p && b.peerList.contains o &&
      HashTable.get (b.routingTable o) q.id == some r
  | none => false

theorem pendingBetween_iff (b : Broker SlotTable) (r o p : Addr) :
    b.pendingBetween r o p = true ↔
      ∃ q, Pending b r q ∧ q.ownerPeer = o ∧ q.requestingPeer = p := by
  unfold Broker.pendingBetween Pending
  cases hq : b.requests r with
  | none => simp
  | some q =>
    constructor
    · intro h
      simp only [Bool.and_eq_true, beq_iff_eq, List.contains_iff_mem] at h
      obtain ⟨⟨⟨h1, h2⟩, h3⟩, h4⟩ := h
      exact ⟨q, ⟨rfl, by rw [h1]; exact h3, by rw [h1]; exact h4⟩, h1, h2⟩
    · rintro ⟨q', ⟨e, h3, h4⟩, h1, h2⟩
      obtain rfl : q = q' := Option.some.inj e
      simp only [Bool.and_eq_true, beq_iff_eq, List.contains_iff_mem]
      rw [h1] at h3 h4
      exact ⟨⟨⟨h1, h2⟩, h3⟩, h4⟩

theorem threePeers_runs : ∃ b b' : Broker SlotTable,
    run (step Platform.small) (Broker.start Platform.small.config none none []) threePeers = some b ∧
    b.pendingBetween 0 1 2 = true ∧
    step Platform.small b (Event.good (.disconnect 3)) = some b' := by
  have h : ((run (step Platform.small) (Broker.start (T := SlotTable) Platform.small.config none none [])
      threePeers).any fun b => b.pendingBetween 0 1 2 &&
        (step Platform.small b (Event.good (.disconnect 3))).isSome) = true := by decide +kernel
  obtain ⟨b, hb, hc⟩ := Option.any_eq_true _ _ |>.mp h
  obtain ⟨hp, hs⟩ := Bool.and_eq_true _ _ |>.mp hc
  obtain ⟨b', hb'⟩ := Option.isSome_iff_exists.mp hs
  exact ⟨b, b', hb, hp, hb'⟩

/-- When peer 3 disconnects, the request of peer 2 to peer 1 is lost. -/
theorem threePeers_not_isolated : ¬ ∀ (b : Broker SlotTable), b.Reachable Platform.small →
    ∀ i x b', i.event = .disconnect x → step Platform.small b i = some b' →
      Isolated Platform.small b b' x := by
  intro hall
  obtain ⟨b, b', hb, hp, hs⟩ := threePeers_runs
  obtain ⟨q, hq, ho, hr⟩ := (pendingBetween_iff b 0 1 2).mp hp
  have hiso := hall b ⟨_, threePeers, isStart_start _ none none [], hb⟩ _ 3 b' rfl hs
  exact not_isolated_of_pending Platform.small rfl hs hq (by rw [hr]; decide) (by rw [ho]; decide) hiso

theorem isolated_iff_threePeers : ∃ b b' : Broker SlotTable,
    run (step Platform.small) (Broker.start Platform.small.config none none []) threePeers = some b ∧
    step Platform.small b (Event.good (.disconnect 3)) = some b' ∧
    (Isolated Platform.small b b' 3 ↔
      ¬ ∃ r q, Pending b r q ∧ q.requestingPeer ≠ 3 ∧ q.ownerPeer ≠ 3) := by
  obtain ⟨b, b', hb, _, hs⟩ := threePeers_runs
  exact ⟨b, b', hb, hs, isolated_iff Platform.small rfl hs⟩

end Cjet
