import Cjet.Route.SetOrCall

/-!
# Requests and answers along a run

The objects that peers have sent are numbered in the order in which they were received.  In every
run each live routing request and each answer belong to the object whose number they carry.

* `rpcs`          the objects received in a run, with their senders;
* `Traced`        the routing requests and answers of a state belong to these;
* `traced_run`    in every state of every run.
-/

set_option linter.unusedVariables false
set_option linter.unusedSectionVars false

namespace Cjet
open Stateful Alloc

/-- the object that an event hands to the broker, with its sender -/
def Event.rpcs : Event → List (Addr × Json)
  | .rpc p request => [(p, request)]
  | _ => []

def rpcs (l : List Input) : List (Addr × Json) := l.flatMap fun i => i.event.rpcs

theorem rpcs_snoc (l : List Input) (i : Input) : rpcs (l ++ [i]) = rpcs l ++ i.event.rpcs := by
  unfold rpcs
  rw [List.flatMap_append, List.flatMap_singleton]

section
variable {T : Type}

/-- the routing requests and the answers of `b` belong to the objects `L` -/
structure Traced (L : List (Addr × Json)) (b : Broker T) : Prop where
  live : ∀ r q, b.requests r = some q → ∃ request, L[q.origin]? = some (q.requestingPeer, request) ∧
    request.routes.isSome = true ∧ q.originRequestId = request.getObjectItem "id"
  sent : ∀ m ∈ b.sent, ∀ s, m.about = .response s → ∃ request, L[s]? = some (m.peer, request) ∧
    (request.routes.isSome = true → request.getObjectItem "id" ≠ none)

namespace Traced
variable {L M : List (Addr × Json)} {b b' : Broker T}

theorem getElem?_of_append {s : Nat} {x : Addr × Json} (h : L[s]? = some x) : (L ++ M)[s]? = some x := by
  obtain ⟨hlt, _⟩ := List.getElem?_eq_some_iff.mp h
  rw [List.getElem?_append_left hlt]
  exact h

theorem append (h : Traced L b) (M : List (Addr × Json)) : Traced (L ++ M) b := by
  refine ⟨fun r q hq => ?_, fun m hm s hs => ?_⟩
  · obtain ⟨request, h1, h2⟩ := h.live r q hq
    exact ⟨request, getElem?_of_append h1, h2⟩
  · obtain ⟨request, h1, h2⟩ := h.sent m hm s hs
    exact ⟨request, getElem?_of_append h1, h2⟩

/-- requests are freed, and messages are sent that are traced themselves -/
theorem step (h : Traced L b) {l : List Sent}
    (hr : ∀ r q, b'.requests r = some q → b.requests r = some q) (hs : b'.sent = b.sent ++ l)
    (hl : ∀ m ∈ l, ∀ s, m.about = .response s → ∃ request, L[s]? = some (m.peer, request) ∧
      (request.routes.isSome = true → request.getObjectItem "id" ≠ none)) : Traced L b' := by
  refine ⟨fun r q hq => h.live r q (hr r q hq), fun m hm => ?_⟩
  rw [hs] at hm
  rcases List.mem_append.mp hm with hm | hm
  · exact h.sent m hm
  · exact hl m hm

theorem congr (h : Traced L b) (hr : b'.requests = b.requests) (hs : b'.sent = b.sent) : Traced L b' :=
  h.step (fun r q hq => by rwa [hr] at hq) (l := []) (by rw [hs, List.append_nil]) (by simp)

theorem of_onlyStore (h : Traced L b) (hs : OnlyStore b b') : Traced L b' := by
  obtain ⟨l, hl, hn⟩ := hs.sent
  have hr : b'.requests = b.requests := congrArg Router.requests hs.router
  refine h.step (fun r q hq => by rwa [hr] at hq) hl fun m hm s e => ?_
  have hn' := (hn m hm).1
  rw [e] at hn'
  cases hn'

theorem of_onlyAccounts (h : Traced L b) (hs : OnlyAccounts b b') : Traced L b' :=
  h.congr (congrArg Router.requests hs.router) hs.sent

/-- a live request is answered and freed -/
theorem complete (h : Traced L b) {r : Addr} {q : RoutingRequest} {l : List Sent}
    (hq : b.requests r = some q) (hl : AnswersRequest q b.peerList l)
    (hreq : b'.requests = Function.update b.requests r none) (hs : b'.sent = b.sent ++ l) :
    Traced L b' := by
  refine h.step (fun r' q' h' => ?_) hs fun m hm s e => ?_
  · rw [hreq] at h'
    by_cases e : r' = r
    · rw [e, Function.update_self] at h'; cases h'
    · rwa [Function.update_of_ne e] at h'
  · obtain ⟨request, h1, _, h3⟩ := h.live r q hq
    obtain ⟨hp, ha⟩ := hl.about m hm
    have es : q.origin = s := About.response.inj (ha.symm.trans e)
    refine ⟨request, by rw [← es, hp]; exact h1, fun _ hid => ?_⟩
    rw [hl.silent (h3.trans hid)] at hm
    cases hm

end Traced
end

/-! ## steps -/

section
variable {T : Type} [HashTable T]

theorem traced_clearRoutingEntry (L : List (Addr × Json)) (env : Env) (r : Addr) :
    Keeps (Traced L) (clearRoutingEntry (T := T) env r) := by
  intro b u b' h hI
  obtain ⟨q, k, t, l, hq, _, hl, rfl⟩ := clearRoutingEntry_some h
  exact hI.complete hq hl rfl rfl

theorem traced_freePeerResources (L : List (Addr × Json)) (env : Env) (p : Addr) :
    Keeps (Traced L) (freePeerResources (T := T) env p) :=
  keeps_freePeerResources (traced_clearRoutingEntry L env) (fun b b' h hI => hI.of_onlyStore h)
    (fun b b' h1 h2 h3 hI => hI.congr h1 h3) p

/-- the object that is being answered is the last one -/
theorem getElem?_length (L : List (Addr × Json)) (x : Addr × Json) : (L ++ [x])[L.length]? = some x := by
  simp

theorem traced_setOrCall {L : List (Addr × Json)} {env : Env} {p : Addr} {request : Json}
    {what : ElementType} {b b' : Broker T} {res : Response} (hI : Traced L b) (hL : b.received = L.length)
    (hw : request.routes = some what) (h : SetOrCall env b p request what res b') :
    Traced (L ++ [(p, request)]) b' ∧ b'.received = b.received ∧ NoIdNoAnswer request res.json := by
  have hI' := hI.append [(p, request)]
  have shrinks : ∀ r q, Function.update b.requests b.routed none r = some q → b.requests r = some q := by
    intro r q hq
    by_cases e : r = b.routed
    · rw [e, Function.update_self] at hq; cases hq
    · rwa [Function.update_of_ne e] at hq
  have nothing : ∀ m ∈ ([] : List Sent), ∀ s, m.about = .response s →
      ∃ request', (L ++ [(p, request)])[s]? = some (m.peer, request') ∧
        (request'.routes.isSome = true → request'.getObjectItem "id" ≠ none) := by simp
  cases h with
  | rejected json n hid hrc => exact ⟨hI'.congr rfl rfl, rfl, hid⟩
  | dropped json n hid hrc =>
    exact ⟨hI'.step shrinks (List.append_nil b.sent).symm nothing, rfl, hid⟩
  | full json n hid rc hrc hs =>
    exact ⟨hI'.step shrinks (List.append_nil b.sent).symm nothing, rfl, hid⟩
  | notStarted json n hid rc hrc hs ht =>
    exact ⟨hI'.step shrinks (List.append_nil b.sent).symm nothing, rfl, hid⟩
  | notRendered json n hid rc hrc hs ht hr =>
    exact ⟨hI'.step shrinks (List.append_nil b.sent).symm nothing, rfl, hid⟩
  | sent json n hid rc hrc hs ht hr ho hj =>
    obtain ⟨params, path, e, el, _, _, _, _, hreq, _⟩ := routedCall_some hrc
    refine ⟨⟨fun r q hq => ?_, fun m hm s hs' => ?_⟩, rfl, hid⟩
    · have hq' : Function.update b.requests b.routed (some rc.request) r = some q := hq
      by_cases e : r = b.routed
      · rw [e, Function.update_self] at hq'
        obtain rfl := Option.some.inj hq'
        rw [hreq]
        refine ⟨request, ?_, by rw [hw]; rfl, rfl⟩
        show (L ++ [(p, request)])[b.received]? = _
        rw [hL]
        exact getElem?_length L (p, request)
      · rw [Function.update_of_ne e] at hq'
        exact hI'.live r q hq'
    · rcases List.mem_append.mp hm with hm | hm
      · exact hI'.sent m hm s hs'
      · rw [List.mem_singleton.mp hm] at hs'
        cases hs'

theorem traced_stepped {L : List (Addr × Json)} {env : Env} {b b' : Broker T} {e : Event}
    (hI : Traced L b) (hL : b.received = L.length) (h : Stepped env b e b') :
    Traced (L ++ e.rpcs) b' ∧ b'.received = (L ++ e.rpcs).length := by
  cases h with
  | notConnected p connection isLocal n =>
    exact ⟨(hI.append _).congr rfl rfl, by simpa [Event.rpcs] using hL⟩
  | connected p connection isLocal n hp =>
    exact ⟨(hI.append _).congr rfl rfl, by simpa [Event.rpcs, Broker.connected] using hL⟩
  | answered p request res ret b1 b2 hp hr h1 h2 =>
    have hstep : Traced (L ++ [(p, request)]) b1 ∧ b1.received = b.received ∧
        (request.routes.isSome = true → NoIdNoAnswer request res.json) := by
      cases hw : request.routes with
      | some what =>
        rw [handlerOf_of_routes _ hw] at h1
        obtain ⟨h3, h4, h5⟩ := traced_setOrCall hI hL hw (setOrCall_some h1)
        exact ⟨h3, h4, fun _ => h5⟩
      | none =>
        rcases does_handlerOf _ hw _ _ _ h1 with hs | hs
        · exact ⟨(hI.of_onlyStore hs).append _, hs.received, fun e => by cases e⟩
        · exact ⟨(hI.of_onlyAccounts hs).append _, hs.received, fun e => by cases e⟩
    obtain ⟨hI1, e1, hid⟩ := hstep
    obtain ⟨hnone, n, l, e, hl, hm⟩ := sendResponse_some h2
    subst e
    refine ⟨hI1.step (fun r q hq => hq) rfl fun m hml s hs => ⟨request, ?_, fun hw hid' => ?_⟩, ?_⟩
    · obtain ⟨h3, h4, _⟩ := hm m hml
      have es : s = L.length := by
        rw [← hL, ← e1]
        exact (About.response.inj (h4.symm.trans hs)).symm
      rw [h3, es]
      exact getElem?_length L (p, request)
    · have hb := congrArg (fun b : Broker T => b.sent) (hnone (hid hw hid'))
      have hl0 : l = [] := by simpa using hb
      rw [hl0] at hml
      cases hml
    · show b1.received + 1 = _
      rw [e1, hL]
      simp [Event.rpcs]
  | response p request response resultType ret b1 hp hr h1 =>
    have hlen : b.received + 1 = (L ++ (Event.rpc p request).rpcs).length := by
      rw [hL]
      simp [Event.rpcs]
    rcases handleRoutingResponse_some h1 with rfl | ⟨id, _, ⟨_, rfl⟩ | ⟨r, q, n, l, _, hq, hl, _, rfl⟩⟩
    · exact ⟨(hI.append _).congr rfl rfl, hlen⟩
    · exact ⟨(hI.append _).congr rfl rfl, hlen⟩
    · exact ⟨(hI.append _).complete hq hl rfl rfl, hlen⟩
  | timeout r b1 ht h1 =>
    obtain ⟨q, n, l, hq, _, hl, rfl⟩ := requestTimeoutHandler_some h1
    exact ⟨(hI.append _).complete hq hl rfl rfl, by simpa [Event.rpcs] using hL⟩
  | disconnected p b1 hp h1 =>
    refine ⟨(traced_freePeerResources L env p _ _ _ h1 hI).append _, ?_⟩
    rw [received_freePeerResources h1]
    simpa [Event.rpcs] using hL

/-- In every state of every run the requests and answers are traced. -/
theorem traced_run {platform : Platform} {s b : Broker T} {l : List Input} (hs : s.IsStart platform)
    (h : run (step platform) s l = some b) : Traced (rpcs l) b ∧ b.received = (rpcs l).length := by
  obtain ⟨allGroups, userData, passwordFile, rfl⟩ := hs
  refine run_history (I := fun l b => Traced (rpcs l) b ∧ b.received = (rpcs l).length)
    (c := fun _ _ => True) (fun l b i b' hI _ hs => ?_) ⟨⟨?_, ?_⟩, rfl⟩
    (Along.of_forall (fun _ _ => trivial) _ _) h
  · rw [rpcs_snoc]
    have hI0 : Traced (rpcs l) { b with calls := 0 } := hI.1.congr rfl rfl
    exact traced_stepped hI0 hI.2 (step_cases hs)
  · intro r q hq
    cases hq
  · intro m hm
    cases hm

end

end Cjet
