import Cjet.Step

/-!
# What the routing functions do

One lemma for each function of the router: the state that a result of it leaves behind.

* `answerWithError_some`, `clearRoutingEntry_some`   the requester gets at most one message, and the
  request is freed;
* `handleRoutingResponse_some`, `requestTimeoutHandler_some`   the request leaves the table with its
  timer;
* `KeptByRemoval`, `keeps_freePeerResources`   what the removal of each request keeps, the teardown of a peer
  keeps.
-/

set_option linter.unusedVariables false
set_option linter.unusedSectionVars false

namespace Cjet
open Stateful Alloc

section
variable {T : Type}

/-- calls are made, and at most one message is sent, to `p` and about `about` -/
def Answers (p : Addr) (about : About) (b b' : Broker T) : Prop :=
  ∃ n l, b' = { b with calls := n, sent := b.sent ++ l } ∧ l.length ≤ 1 ∧
    ∀ m ∈ l, m.peer = p ∧ m.about = about ∧ p ∈ b.peerList

/-- `l` is at most one message to the requester, about its request, and none where the request had
no id -/
structure AnswersRequest (q : RoutingRequest) (peers : List Addr) (l : List Sent) : Prop where
  length : l.length ≤ 1
  silent : q.originRequestId = none → l = []
  about : ∀ m ∈ l, m.peer = q.requestingPeer ∧ m.about = .response q.origin
  connected : l ≠ [] → q.requestingPeer ∈ peers

theorem answers_none (p : Addr) (about : About) (b : Broker T) (n : Nat) :
    Answers p about b { b with calls := n } := by
  refine ⟨n, [], ?_, by simp, by simp⟩
  rw [List.append_nil]

theorem duplicate_some {env : Env} {j k : Json} {n : Nat} (h : (duplicate env j n).1 = some k) :
    k = j := tryCall_some h

theorem printUnformatted_some {env : Env} {about : About} {j k : Json} {n : Nat}
    (h : (printUnformatted env about j n).1 = some k) : k = j := tryCall_some h

/-- what is sent is the response, as it was rendered -/
theorem formatAndSendResponse_sent {env : Env} {p : Addr} {about : About} {response : Json}
    {b b' : Broker T} {ok : Bool} (h : formatAndSendResponse env p about response b = some (ok, b')) :
    ∃ n l, b' = { b with calls := n, sent := b.sent ++ l } ∧ l.length ≤ 1 ∧
      ∀ m ∈ l, m.peer = p ∧ m.about = about ∧ p ∈ b.peerList ∧ m.msg = response := by
  obtain ⟨text, b1, h1, h2⟩ := Prog.bind_some h
  obtain ⟨htext, rfl⟩ := allocating_some h1
  cases text with
  | none =>
    obtain ⟨_, rfl⟩ := Prog.pure_some h2
    exact ⟨_, [], by rw [List.append_nil], by simp, by simp⟩
  | some rendered =>
    obtain ⟨hp, _, rfl⟩ := sendMessage_some h2
    refine ⟨_, [⟨p, about, rendered, ok⟩], rfl, by simp, fun m hm => ?_⟩
    rw [List.mem_singleton.mp hm]
    exact ⟨rfl, rfl, hp, printUnformatted_some htext.symm⟩

theorem formatAndSendResponse_some {env : Env} {p : Addr} {about : About} {response : Json}
    {b b' : Broker T} {ok : Bool} (h : formatAndSendResponse env p about response b = some (ok, b')) :
    Answers p about b b' := by
  obtain ⟨n, l, e, hl, hm⟩ := formatAndSendResponse_sent h
  exact ⟨n, l, e, hl, fun m hml => ⟨(hm m hml).1, (hm m hml).2.1, (hm m hml).2.2.1⟩⟩

theorem answerWithError_some {env : Env} {p : Addr} {about : About} {id : Option Json}
    {reason : String} {b b' : Broker T} {u : Unit}
    (h : answerWithError env p about id reason b = some (u, b')) :
    Answers p about b b' ∧ (id = none → b' = b) := by
  cases id with
  | none =>
    obtain ⟨_, rfl⟩ := Prog.pure_some h
    exact ⟨answers_none p about b' b'.calls, fun _ => rfl⟩
  | some id =>
    refine ⟨?_, fun e => by cases e⟩
    obtain ⟨response, b1, h1, h2⟩ := Prog.bind_some h
    obtain ⟨_, rfl⟩ := allocating_some h1
    cases response with
    | none => obtain ⟨_, rfl⟩ := Prog.pure_some h2; exact answers_none p about b _
    | some response =>
      obtain ⟨ok, b2, h3, h4⟩ := Prog.bind_some h2
      obtain ⟨_, rfl⟩ := Prog.pure_some h4
      obtain ⟨n, l, rfl, hl, hm⟩ := formatAndSendResponse_some h3
      exact ⟨n, l, rfl, hl, hm⟩

/-- the answer to a routed request -/
theorem answerWithError_request {env : Env} {q : RoutingRequest} {reason : String} {b b' : Broker T}
    {u : Unit} (h : answerWithError env q.requestingPeer (.response q.origin) q.originRequestId reason b
      = some (u, b')) :
    ∃ n l, b' = { b with calls := n, sent := b.sent ++ l } ∧ AnswersRequest q b.peerList l := by
  obtain ⟨⟨n, l, e, hl, hm⟩, hn⟩ := answerWithError_some h
  refine ⟨n, l, e, hl, fun hid => ?_, fun m hml => ⟨(hm m hml).1, (hm m hml).2.1⟩, fun hne => ?_⟩
  · have hs := congrArg Outside.sent (congrArg Broker.toOutside (hn hid))
    rw [e] at hs
    simpa using hs
  · obtain ⟨m, hml⟩ := List.exists_mem_of_ne_nil l hne
    exact (hm m hml).2.2

/-! ## timers -/

/-- the timers of other requests, and whether a timer is registered, are as before -/
def SameTimersBut (r : Addr) (t t' : Addr → Option Bool) : Prop :=
  (∀ r', r' ≠ r → t' r' = t r') ∧ (t' r).isSome = (t r).isSome

theorem sameTimersBut_refl (r : Addr) (t : Addr → Option Bool) : SameTimersBut r t t :=
  ⟨fun _ _ => rfl, rfl⟩

theorem sameTimersBut_map (r : Addr) (t : Addr → Option Bool) (a : Bool) :
    SameTimersBut r t (Function.update t r ((t r).map fun _ => a)) := by
  refine ⟨fun r' hr => Function.update_of_ne hr _ _, ?_⟩
  rw [Function.update_self, Option.isSome_map]

theorem update_none_of_sameTimersBut {r : Addr} {t t' : Addr → Option Bool}
    (h : SameTimersBut r t t') : Function.update t' r none = Function.update t r none := by
  funext r'
  by_cases e : r' = r
  · rw [e, Function.update_self, Function.update_self]
  · rw [Function.update_of_ne e, Function.update_of_ne e, h.1 r' e]

theorem timerCancel_some {env : Env} {r : Addr} {b b' : Broker T} {ok : Bool}
    (h : timerCancel env r b = some (ok, b')) :
    ∃ t, b' = { b with calls := b.calls + 1, timers := t } ∧ SameTimersBut r b.timers t := by
  obtain ⟨ok', b1, h1, h2⟩ := Prog.bind_some h
  obtain ⟨_, rfl⟩ := call_some h1
  obtain ⟨_, b2, h3, h4⟩ := Prog.bind_some h2
  obtain ⟨_, rfl⟩ := Prog.pure_some h4
  have h3 := Prog.update_some h3
  cases ok' with
  | false => exact ⟨b.timers, h3, sameTimersBut_refl r b.timers⟩
  | true => exact ⟨_, h3, sameTimersBut_map r b.timers false⟩

end

section
variable {T : Type} [HashTable T]

theorem routeTablePut_some {p : Addr} {id : String} {r : Addr} {b b' : Broker T} {ok : Bool}
    (h : routeTablePut p id r b = some (ok, b')) :
    ok = (HashTable.put (b.routingTable p) id r).1 ∧ b' = { b with
      routingTable := Function.update b.routingTable p (HashTable.put (b.routingTable p) id r).2 } := by
  cases h; exact ⟨rfl, rfl⟩

theorem routeTableRemove_some {p : Addr} {id : String} {b b' : Broker T} {r : Option Addr}
    (h : routeTableRemove p id b = some (r, b')) :
    r = HashTable.get (b.routingTable p) id ∧ b' = { b with
      routingTable := Function.update b.routingTable p (HashTable.remove (b.routingTable p) id).2 } := by
  cases h; exact ⟨HashTable.remove_fst _ _, rfl⟩

/-! ## a request leaves -/

theorem clearRoutingEntry_some {env : Env} {r : Addr} {b b' : Broker T} {u : Unit}
    (h : clearRoutingEntry env r b = some (u, b')) :
    ∃ q n t l, b.requests r = some q ∧ SameTimersBut r b.timers t ∧ AnswersRequest q b.peerList l ∧
      b' = { b with calls := n, timers := t, sent := b.sent ++ l
                    requests := Function.update b.requests r none } := by
  obtain ⟨q, b1, h1, h2⟩ := Prog.bind_some h
  obtain ⟨hq, rfl⟩ := Prog.deref_some h1
  obtain ⟨ok, b2, h3, h4⟩ := Prog.bind_some h2
  obtain ⟨t, rfl, ht⟩ := timerCancel_some h3
  obtain ⟨_, b3, h5, h6⟩ := Prog.bind_some h4
  obtain ⟨n, l, rfl, hl⟩ := answerWithError_request h5
  exact ⟨q, n, t, l, hq, ht, hl, Prog.update_some h6⟩

theorem requestTimeoutHandler_some {env : Env} {r : Addr} {b b' : Broker T} {u : Unit}
    (h : requestTimeoutHandler env r b = some (u, b')) :
    ∃ q n l, b.requests r = some q ∧ q.ownerPeer ∈ b.peerList ∧ AnswersRequest q b.peerList l ∧
      b' = { b with
        calls := n, timers := Function.update b.timers r none, sent := b.sent ++ l
        requests := Function.update b.requests r none
        routingTable := Function.update b.routingTable q.ownerPeer
          (HashTable.remove (b.routingTable q.ownerPeer) q.id).2 } := by
  obtain ⟨q, b1, h1, h2⟩ := Prog.bind_some h
  obtain ⟨hq, rfl⟩ := Prog.deref_some h1
  obtain ⟨_, b2, h3, h4⟩ := Prog.bind_some h2
  obtain ⟨ho, rfl⟩ := Prog.require_some h3
  obtain ⟨_, b3, h5, h6⟩ := Prog.bind_some h4
  obtain ⟨_, rfl⟩ := routeTableRemove_some h5
  obtain ⟨_, b4, h7, h8⟩ := Prog.bind_some h6
  obtain ⟨_, b5, h9, h10⟩ := Prog.bind_some h8
  obtain rfl := Prog.update_some h9
  obtain rfl := Prog.update_some h10
  obtain ⟨n, l, rfl, hl⟩ := answerWithError_request h7
  exact ⟨q, n, l, hq, by simpa using ho, hl, rfl⟩

/-- A message that `forwardResponse` sends is the result response for the id of the request. -/
theorem forwardResponse_some {env : Env} {q : RoutingRequest} {response : Json} {resultType : String}
    {b b' : Broker T} {ok : Bool} (h : forwardResponse env q response resultType b = some (ok, b')) :
    ∃ n l, b' = { b with calls := n, sent := b.sent ++ l } ∧ AnswersRequest q b.peerList l ∧
      ∀ m ∈ l, ∃ id k, q.originRequestId = some id ∧
        (createResultResponse env id (some response) resultType k).1 = some m.msg := by
  unfold forwardResponse at h
  cases hid : q.originRequestId with
  | none =>
    rw [hid] at h
    obtain ⟨_, rfl⟩ := Prog.pure_some h
    exact ⟨b'.calls, [], by rw [List.append_nil], ⟨by simp, fun _ => rfl, by simp, by simp⟩, by simp⟩
  | some id =>
    rw [hid] at h
    obtain ⟨copy, b1, h1, h2⟩ := Prog.bind_some h
    obtain ⟨hcopy, rfl⟩ := allocating_some h1
    cases copy with
    | none =>
      obtain ⟨_, rfl⟩ := Prog.pure_some h2
      exact ⟨_, [], by rw [List.append_nil], ⟨by simp, fun _ => rfl, by simp, by simp⟩, by simp⟩
    | some copy =>
      obtain rfl : copy = response := duplicate_some hcopy.symm
      obtain ⟨res, b2, h3, h4⟩ := Prog.bind_some h2
      obtain ⟨hres, rfl⟩ := allocating_some h3
      cases res with
      | none => exact (Prog.undefined_some h4).elim
      | some res =>
        obtain ⟨ok', b3, h5, h6⟩ := Prog.bind_some h4
        obtain ⟨_, rfl⟩ := Prog.pure_some h6
        obtain ⟨n, l, rfl, hl, hm⟩ := formatAndSendResponse_sent h5
        refine ⟨n, l, rfl, ⟨hl, fun e => ?_, fun m hml => ⟨(hm m hml).1, (hm m hml).2.1⟩, fun hne => ?_⟩,
          fun m hml => ⟨id, (duplicate env copy b.calls).2, rfl, ?_⟩⟩
        · rw [hid] at e; cases e
        · obtain ⟨m, hml⟩ := List.exists_mem_of_ne_nil l hne
          exact (hm m hml).2.2.1
        · rw [(hm m hml).2.2.2]
          exact hres.symm

/-- The ways a response of an owner goes: its id is no string; no request is stored under it; the
request stored under it leaves the table with its timer, and is freed. -/
theorem handleRoutingResponse_some {env : Env} {jsonRpc response : Json} {resultType : String}
    {p : Addr} {b b' : Broker T} {ok : Bool}
    (h : handleRoutingResponse env jsonRpc response resultType p b = some (ok, b')) :
    b' = b ∨ ∃ id, jsonRpc.getObjectItem "id" = some (.str id) ∧
      ((HashTable.get (b.routingTable p) id = none ∧ b' = { b with
        routingTable := Function.update b.routingTable p (HashTable.remove (b.routingTable p) id).2 }) ∨
      ∃ r q n l, HashTable.get (b.routingTable p) id = some r ∧ b.requests r = some q ∧
        AnswersRequest q b.peerList l ∧
        (∀ m ∈ l, ∃ id k, q.originRequestId = some id ∧
          (createResultResponse env id (some response) resultType k).1 = some m.msg) ∧
        b' = { b with
          calls := n, timers := Function.update b.timers r none, sent := b.sent ++ l
          requests := Function.update b.requests r none
          routingTable := Function.update b.routingTable p
            (HashTable.remove (b.routingTable p) id).2 }) := by
  unfold handleRoutingResponse at h
  cases hid : jsonRpc.getObjectItem "id" with
  | none =>
    rw [hid] at h
    obtain ⟨_, rfl⟩ := Prog.pure_some h
    exact Or.inl rfl
  | some j =>
    rw [hid] at h
    cases j with
    | str id =>
      refine Or.inr ⟨id, rfl, ?_⟩
      obtain ⟨r, b1, h1, h2⟩ := Prog.bind_some h
      obtain ⟨hr, rfl⟩ := routeTableRemove_some h1
      cases r with
      | none =>
        obtain ⟨_, rfl⟩ := Prog.pure_some h2
        exact Or.inl ⟨hr.symm, rfl⟩
      | some r =>
        right
        obtain ⟨q, b2, h3, h4⟩ := Prog.bind_some h2
        obtain ⟨hq, rfl⟩ := Prog.deref_some h3
        obtain ⟨_, b3, h5, h6⟩ := Prog.bind_some h4
        obtain ⟨t, rfl, ht⟩ := timerCancel_some h5
        obtain ⟨_, b4, h7, h8⟩ := Prog.bind_some h6
        obtain rfl := Prog.update_some h7
        obtain ⟨ret, b5, h9, h10⟩ := Prog.bind_some h8
        obtain ⟨_, b6, h11, h12⟩ := Prog.bind_some h10
        obtain rfl := Prog.update_some h11
        obtain ⟨_, rfl⟩ := Prog.pure_some h12
        obtain ⟨n, l, rfl, hl, hm⟩ := forwardResponse_some h9
        refine ⟨r, q, n, l, hr.symm, hq, hl, hm, ?_⟩
        rw [← update_none_of_sameTimersBut ht]
    | _ =>
      obtain ⟨_, rfl⟩ := Prog.pure_some h
      exact Or.inl rfl

/-! ## the teardown of a peer -/

/-- `free_peer_resources` keeps what the freeing of one routing request and the changes to the store
keep, and what does not speak of the tables. -/
theorem keeps_freePeerResources {I : Broker T → Prop} {env : Env}
    (clear : ∀ r, Keeps I (clearRoutingEntry env r)) (store : ∀ b b' : Broker T, OnlyStore b b' → I b → I b')
    (tables : ∀ b b' : Broker T, b'.requests = b.requests → b'.routed = b.routed → b'.sent = b.sent →
      I b → I b') (p : Addr) : Keeps I (freePeerResources env p) := by
  have remove : ∀ o k, Keeps I (routeTableRemove (T := T) o k) := by
    intro o k b r b' h hI
    obtain ⟨_, rfl⟩ := routeTableRemove_some h
    exact tables b _ rfl rfl rfl hI
  have only : ∀ m : Prog (Broker T) Unit, Does OnlyStore m → Keeps I m :=
    fun m hm => hm.mono store
  refine Does.bind (Does.bind (Does.read _) fun size => Does.each _ fun i _ =>
    Does.bind (Does.read _) fun k => ?_) fun _ => ?_
  · cases k with
    | none => exact Does.pure _
    | some k =>
      refine Does.bind (remove p k) fun r => ?_
      cases r with
      | none => exact Does.pure _
      | some r => exact clear r
  refine Does.bind (Does.bind (Does.read _) fun ps => Does.each _ fun o _ =>
    Does.bind (Does.read _) fun size => Does.each _ fun i _ => Does.bind (Does.read _) fun k => ?_)
    fun _ => ?_
  · cases k with
    | none => exact Does.pure _
    | some k =>
      refine Does.bind (remove o k) fun r => ?_
      cases r with
      | none => exact Does.pure _
      | some r =>
        exact Does.bind (Does.deref _) fun q => Does.ite (fun _ => clear r) fun _ => Does.pure _
  refine Does.bind (only _ (does_removeAllFetchersFromPeer p)) fun _ => ?_
  refine Does.bind (only _ (does_removeAllElementsFromPeer env p)) fun _ => ?_
  refine Does.bind (Does.update fun b hI => tables b _ rfl rfl rfl hI) fun _ => ?_
  exact Does.update fun b hI => tables b _ rfl rfl rfl hI

/-- `I` is kept when a key leaves the table of `o`, and when the request that was stored under it is freed then -/
def KeptByRemoval (I : Broker T → Prop) (env : Env) (o : Addr) : Prop :=
  ∀ k b r b', I b → routeTableRemove o k b = some (r, b') →
    I b' ∧ ∀ a, r = some a → ∀ u b'', clearRoutingEntry env a b' = some (u, b'') → I b''

theorem KeptByRemoval.removePeerFromSlot {I : Broker T → Prop} {env : Env} {o : Addr}
    (hI : KeptByRemoval I env o) (x : Addr) (i : Nat) : Keeps I (removePeerFromSlot env o x i) := by
  intro b u b' h hb
  obtain ⟨k, b1, h1, h2⟩ := Prog.bind_some h
  obtain ⟨_, rfl⟩ := Prog.read_some h1
  cases k with
  | none =>
    obtain ⟨_, rfl⟩ := Prog.pure_some h2
    exact hb
  | some k =>
    obtain ⟨r, b2, h3, h4⟩ := Prog.bind_some h2
    obtain ⟨hb2, hclear⟩ := hI k b1 r b2 hb h3
    cases r with
    | none =>
      obtain ⟨_, rfl⟩ := Prog.pure_some h4
      exact hb2
    | some r =>
      obtain ⟨q, b3, h5, h6⟩ := Prog.bind_some h4
      obtain ⟨_, rfl⟩ := Prog.deref_some h5
      by_cases hq : q.requestingPeer = x
      · rw [if_pos hq] at h6
        exact hclear r rfl _ b' h6
      · rw [if_neg hq] at h6
        obtain ⟨_, rfl⟩ := Prog.pure_some h6
        exact hb2

theorem KeptByRemoval.removeRoutingInfoFromSlot {I : Broker T → Prop} {env : Env} {o : Addr}
    (hI : KeptByRemoval I env o) (i : Nat) : Keeps I (removeRoutingInfoFromSlot env o i) := by
  intro b u b' h hb
  obtain ⟨k, b1, h1, h2⟩ := Prog.bind_some h
  obtain ⟨_, rfl⟩ := Prog.read_some h1
  cases k with
  | none =>
    obtain ⟨_, rfl⟩ := Prog.pure_some h2
    exact hb
  | some k =>
    obtain ⟨r, b2, h3, h4⟩ := Prog.bind_some h2
    obtain ⟨hb2, hclear⟩ := hI k b1 r b2 hb h3
    cases r with
    | none =>
      obtain ⟨_, rfl⟩ := Prog.pure_some h4
      exact hb2
    | some r => exact hclear r rfl _ b' h4

/-- what the walk through the routing tables of all peers keeps -/
theorem keeps_routes {I : Broker T → Prop} {env : Env} {p : Addr} {b b1 b2 : Broker T} {u v : Unit}
    (hI : ∀ o ∈ b.peerList, KeptByRemoval I env o) (hp : p ∈ b.peerList)
    (h1 : removeRoutingInfoFromPeer env p b = some (u, b1))
    (h2 : removePeerFromRoutes env p b1 = some (v, b2)) (hb : I b) : I b2 := by
  have e1 : b1.peerList = b.peerList :=
    congrArg Store.peerList (does_removeRoutingInfoFromPeer env p b _ b1 h1).store
  have k1 : Keeps I (removeRoutingInfoFromPeer (T := T) env p) :=
    Does.bind (Does.read _) fun n => Does.each _ fun i _ => (hI p hp).removeRoutingInfoFromSlot i
  obtain ⟨ps, b0, h3, h4⟩ := Prog.bind_some h2
  obtain ⟨rfl, rfl⟩ := Prog.read_some h3
  have k2 : Keeps I (Prog.each (fun o => removePeerFromRoutingTable env o p) b0.peerList) :=
    Does.each _ fun o ho => Does.bind (Does.read _) fun n => Does.each _ fun i _ =>
      (hI o (by rwa [e1] at ho)).removePeerFromSlot p i
  exact k2 b0 _ b2 h4 (k1 b _ b0 h1 hb)

/-! ## the response of a handler -/

theorem sendResponse_some {env : Env} {p : Addr} {json : Option Json} {b b' : Broker T} {ret : Bool}
    (h : sendResponse env p json b = some (ret, b')) :
    (json = none → b' = b) ∧ Answers p (.response b.received) b b' := by
  cases json with
  | none =>
    obtain ⟨_, rfl⟩ := Prog.pure_some h
    exact ⟨fun _ => rfl, answers_none p _ b' b'.calls⟩
  | some json =>
    obtain ⟨s, b1, h1, h2⟩ := Prog.bind_some h
    obtain ⟨rfl, rfl⟩ := Prog.read_some h1
    exact ⟨fun e => absurd e (Option.some_ne_none _), formatAndSendResponse_some h2⟩
end

end Cjet
