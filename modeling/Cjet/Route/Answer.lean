import Cjet.Route.Trace

/-!
# Answers to routed requests

A set or call can be answered in five places: at once where it fails, by the response of the owner,
by the timer, and when its owner or its requester goes away.  The request object is freed wherever
it is answered, so that it is answered once, unless the message to the owner could not be rendered or
sent: then the requester is told so, and the request stays in the table, freed in the first case and
with its timer armed in both.

* `OneAnswer`        at most one answer to each request, and none yet to the live ones;
* `Traced`           the answers and the live requests belong to requests that were received;
* `answered_once`    in runs in which the messages to the owners are rendered and sent.
-/

set_option linter.unusedVariables false
set_option linter.unusedSectionVars false

namespace Cjet
open Stateful Alloc

section
variable {T : Type}

/-- the number of messages sent in answer to the request with number `s` -/
def answers (sent : List Sent) (s : Nat) : Nat := sent.countP fun m => m.about == .response s

theorem answers_append (sent l : List Sent) (s : Nat) :
    answers (sent ++ l) s = answers sent s + answers l s := List.countP_append

theorem answers_eq_zero {l : List Sent} {s : Nat} (h : ∀ m ∈ l, m.about ≠ .response s) :
    answers l s = 0 := by
  unfold answers
  rw [List.countP_eq_zero]
  intro m hm
  simpa using h m hm

theorem answers_le_length (l : List Sent) (s : Nat) : answers l s ≤ l.length := List.countP_le_length

/-- messages about something else do not count -/
theorem answers_append_of_ne {sent l : List Sent} {s : Nat} (h : ∀ m ∈ l, m.about ≠ .response s) :
    answers (sent ++ l) s = answers sent s := by
  rw [answers_append, answers_eq_zero h, Nat.add_zero]

/-! ## at most one answer -/

/-- each request is answered at most once, only numbers below `n` are in use, and a live routing
request stands for a request that has not been answered -/
structure OneAnswer (n : Nat) (b : Broker T) : Prop where
  atMost : ∀ s, answers b.sent s ≤ 1
  bound : ∀ s, n ≤ s → answers b.sent s = 0
  live : ∀ r q, b.requests r = some q → q.origin < n ∧ answers b.sent q.origin = 0
  unique : ∀ r r' q q', b.requests r = some q → b.requests r' = some q' → q.origin = q'.origin → r = r'
  fresh : ∀ r, b.routed ≤ r → b.requests r = none

namespace OneAnswer
variable {n : Nat} {b b' : Broker T}

theorem congr (h : OneAnswer n b) (hr : b'.requests = b.requests) (hf : b'.routed = b.routed)
    (ha : ∀ s, answers b'.sent s = answers b.sent s) : OneAnswer n b' := by
  refine ⟨fun s => ?_, fun s hs => ?_, fun r q hq => ?_, fun r r' q q' hq hq' => ?_, fun r hr' => ?_⟩
  · rw [ha]; exact h.atMost s
  · rw [ha]; exact h.bound s hs
  · rw [ha]; rw [hr] at hq; exact h.live r q hq
  · rw [hr] at hq hq'; exact h.unique r r' q q' hq hq'
  · rw [hr]; rw [hf] at hr'; exact h.fresh r hr'

theorem mono {m : Nat} (h : OneAnswer n b) (hnm : n ≤ m) : OneAnswer m b :=
  ⟨h.atMost, fun s hs => h.bound s (Nat.le_trans hnm hs),
    fun r q hq => ⟨Nat.lt_of_lt_of_le (h.live r q hq).1 hnm, (h.live r q hq).2⟩, h.unique, h.fresh⟩

theorem of_onlyStore (h : OneAnswer n b) (hs : OnlyStore b b') : OneAnswer n b' := by
  obtain ⟨l, hl, hn⟩ := hs.sent
  refine h.congr (congrArg Router.requests hs.router) (congrArg Router.routed hs.router) fun s => ?_
  rw [hl]
  refine answers_append_of_ne fun m hm e => ?_
  have hn' := (hn m hm).1
  rw [e] at hn'
  cases hn'

theorem of_onlyAccounts (h : OneAnswer n b) (hs : OnlyAccounts b b') : OneAnswer n b' :=
  h.congr (congrArg Router.requests hs.router) (congrArg Router.routed hs.router) fun s => by rw [hs.sent]

/-- a live request is answered, at most once, and freed -/
theorem complete (h : OneAnswer n b) {r : Addr} {q : RoutingRequest} {l : List Sent}
    (hq : b.requests r = some q) (hl : AnswersRequest q b.peerList l)
    (hreq : b'.requests = Function.update b.requests r none) (hf : b'.routed = b.routed)
    (hsent : b'.sent = b.sent ++ l) : OneAnswer n b' := by
  have other : ∀ s, s ≠ q.origin → answers b'.sent s = answers b.sent s := fun s hs => by
    rw [hsent]
    refine answers_append_of_ne fun m hml e => ?_
    rw [(hl.about m hml).2] at e
    exact hs (About.response.inj e).symm
  have kept : ∀ r' q', b'.requests r' = some q' → r' ≠ r ∧ b.requests r' = some q' := fun r' q' h' => by
    rw [hreq] at h'
    by_cases e : r' = r
    · rw [e, Function.update_self] at h'; cases h'
    · rw [Function.update_of_ne e] at h'; exact ⟨e, h'⟩
  refine ⟨fun s => ?_, fun s hs => ?_, fun r' q' h' => ?_, fun r1 r2 q1 q2 h1 h2 => ?_, fun r' h' => ?_⟩
  · by_cases e : s = q.origin
    · have h1 := (h.live r q hq).2
      have h2 := answers_le_length l q.origin
      have h3 := hl.length
      rw [hsent, answers_append, e, h1]
      omega
    · rw [other s e]; exact h.atMost s
  · have hlt := (h.live r q hq).1
    rw [other s (by omega)]
    exact h.bound s hs
  · obtain ⟨hne, hq'⟩ := kept r' q' h'
    obtain ⟨hlt, h0⟩ := h.live r' q' hq'
    refine ⟨hlt, ?_⟩
    rw [other q'.origin fun e => hne (h.unique r' r q' q hq' hq e)]
    exact h0
  · exact h.unique r1 r2 q1 q2 (kept r1 q1 h1).2 (kept r2 q2 h2).2
  · rw [hreq]
    rw [hf] at h'
    by_cases e : r' = r
    · rw [e, Function.update_self]
    · rw [Function.update_of_ne e]; exact h.fresh r' h'

end OneAnswer

end

/-! ## the teardown of a peer -/

section
variable {T : Type} [HashTable T]

theorem oneAnswer_clearRoutingEntry (n : Nat) (env : Env) (r : Addr) :
    Keeps (OneAnswer n) (clearRoutingEntry (T := T) env r) := by
  intro b u b' h hI
  obtain ⟨q, k, t, l, hq, _, hl, rfl⟩ := clearRoutingEntry_some h
  exact hI.complete hq hl rfl rfl rfl

theorem oneAnswer_freePeerResources (n : Nat) (env : Env) (p : Addr) :
    Keeps (OneAnswer n) (freePeerResources (T := T) env p) :=
  keeps_freePeerResources (oneAnswer_clearRoutingEntry n env) (fun b b' h hI => hI.of_onlyStore h)
    (fun b b' h1 h2 h3 hI => hI.congr h1 h2 fun s => by rw [h3]) p

/-! ## a set or call -/

/-- no request is waiting for the answer to the request with number `s` -/
def NoneWaits (s : Nat) (b : Broker T) : Prop := ∀ r q, b.requests r = some q → q.origin ≠ s

/-- Once the request is stored and its timer runs, the message to the owner is rendered, and sent where the request
has an id. -/
def RoutedCall.Reaches (env : Env) (b : Broker T) (rc : RoutedCall) : Prop :=
  rc.stored b = true → rc.started env = true →
    rc.rendered env b = true ∧ (rc.request.originRequestId ≠ none → rc.delivered env b = true)

/-- After a set or call its routing request waits, or it is answered at once. -/
theorem oneAnswer_setOrCall {env : Env} {p : Addr} {request : Json} {what : ElementType}
    {b b' : Broker T} {res : Response} (hI : OneAnswer b.received b)
    (hd : ∀ rc, routedCall env b p request what = some rc → rc.Reaches env b)
    (h : SetOrCall env b p request what res b') :
    OneAnswer (b.received + 1) b' ∧ b'.received = b.received ∧ answers b'.sent b.received = 0 ∧
      (res.json = none ∨ NoneWaits b.received b') := by
  have h0 : answers b.sent b.received = 0 := hI.bound _ (Nat.le_refl _)
  have hnone : NoneWaits b.received b := fun r q hq => Nat.ne_of_lt (hI.live r q hq).1
  have hsame : Function.update b.requests b.routed none = b.requests := by
    rw [← hI.fresh b.routed (Nat.le_refl _), Function.update_eq_self]
  -- the routing request has been freed again
  have freed : ∀ (b1 : Broker T) (json : Option Json),
      b1.requests = Function.update b.requests b.routed none → b.routed ≤ b1.routed →
      b1.sent = b.sent → b1.received = b.received → OneAnswer (b.received + 1) b1 ∧
        b1.received = b.received ∧ answers b1.sent b.received = 0 ∧
        (json = none ∨ NoneWaits b.received b1) := by
    intro b1 json hreq hf hs hrec
    rw [hsame] at hreq
    refine ⟨OneAnswer.mono ⟨?_, ?_, ?_, ?_, fun r hr => ?_⟩ (Nat.le_succ b.received), hrec, ?_,
      Or.inr fun r q hq => hnone r q (by rwa [hreq] at hq)⟩
    · rw [hs]; exact hI.atMost
    · rw [hs]; exact hI.bound
    · rw [hs, hreq]; exact hI.live
    · rw [hreq]; exact hI.unique
    · rw [hreq]; exact hI.fresh r (Nat.le_trans hf hr)
    · rw [hs]; exact h0
  cases h with
  | rejected json n hid hrc => exact freed _ json hsame.symm (Nat.le_refl _) rfl rfl
  | dropped json n hid hrc => exact freed _ json rfl (Nat.le_succ _) rfl rfl
  | full json n hid rc hrc hs => exact freed _ json rfl (Nat.le_succ _) rfl rfl
  | notStarted json n hid rc hrc hs ht => exact freed _ json rfl (Nat.le_succ _) rfl rfl
  | notRendered json n hid rc hrc hs ht hr =>
    have hrendered := (hd rc hrc hs ht).1
    rw [hr] at hrendered
    cases hrendered
  | sent json n hid rc hrc hs ht hr ho hj =>
    obtain ⟨params, path, e, el, _, _, _, _, hreq, _⟩ := routedCall_some hrc
    have horigin : rc.request.origin = b.received := by rw [hreq]; rfl
    have hcount : ∀ s, answers (b.sent ++
        [⟨rc.request.ownerPeer, .routed b.routed, rc.message, rc.delivered env b⟩]) s
          = answers b.sent s := fun s => answers_append_of_ne (by simp)
    have kept : ∀ r q, Function.update b.requests b.routed (some rc.request) r = some q →
        (r = b.routed ∧ q = rc.request) ∨ (r ≠ b.routed ∧ b.requests r = some q) := fun r q hq => by
      by_cases e : r = b.routed
      · rw [e, Function.update_self] at hq
        exact Or.inl ⟨e, (Option.some.inj hq).symm⟩
      · rw [Function.update_of_ne e] at hq
        exact Or.inr ⟨e, hq⟩
    refine ⟨⟨fun s => ?_, fun s hs => ?_, fun r q hq => ?_, fun r r' q q' hq hq' hqq => ?_,
      fun r hr => ?_⟩, rfl, ?_, Or.inl ?_⟩
    · show answers (b.sent ++ _) s ≤ 1
      rw [hcount]
      exact hI.atMost s
    · show answers (b.sent ++ _) s = 0
      rw [hcount]
      exact hI.bound s (by omega)
    · show q.origin < b.received + 1 ∧ answers (b.sent ++ _) q.origin = 0
      rw [hcount]
      rcases kept r q hq with ⟨_, rfl⟩ | ⟨_, hq⟩
      · exact ⟨by omega, by rw [horigin]; exact h0⟩
      · exact ⟨by have := (hI.live r q hq).1; omega, (hI.live r q hq).2⟩
    · rcases kept r q hq with ⟨e, rfl⟩ | ⟨_, hq⟩ <;> rcases kept r' q' hq' with ⟨e', rfl⟩ | ⟨_, hq'⟩
      · rw [e, e']
      · exact absurd (hqq.symm.trans horigin) (hnone r' q' hq')
      · exact absurd (hqq.trans horigin) (hnone r q hq)
      · exact hI.unique r r' q q' hq hq' hqq
    · have hr' : b.routed + 1 ≤ r := hr
      show Function.update b.requests b.routed (some rc.request) r = none
      rw [Function.update_of_ne (Nat.ne_of_gt hr')]
      exact hI.fresh r (Nat.le_of_succ_le hr')
    · show answers (b.sent ++ _) b.received = 0
      rw [hcount]
      exact h0
    · show json = none
      cases hid' : request.getObjectItem "id" with
      | none => exact hid hid'
      | some id =>
        refine hj ((hd rc hrc hs ht).2 ?_)
        rw [hreq]
        show request.getObjectItem "id" ≠ none
        rw [hid']
        exact Option.some_ne_none id

/-! ## the response of a handler -/

theorem oneAnswer_sendResponse {env : Env} {p : Addr} {json : Option Json} {b b' : Broker T} {ret : Bool}
    (hI : OneAnswer (b.received + 1) b) (h0 : answers b.sent b.received = 0)
    (hn : json = none ∨ NoneWaits b.received b) (h : sendResponse env p json b = some (ret, b')) :
    OneAnswer (b.received + 1) b' ∧ b'.received = b.received := by
  obtain ⟨hnone, n, l, e, hl, hm⟩ := sendResponse_some h
  rcases hn with hj | hn
  · rw [hnone hj]
    exact ⟨hI, rfl⟩
  · subst e
    have other : ∀ s, s ≠ b.received → answers (b.sent ++ l) s = answers b.sent s := fun s hs => by
      refine answers_append_of_ne fun m hml e => ?_
      rw [(hm m hml).2.1] at e
      exact hs (About.response.inj e).symm
    refine ⟨⟨fun s => ?_, fun s hs => ?_, fun r q hq => ?_, hI.unique, hI.fresh⟩, rfl⟩
    · show answers (b.sent ++ l) s ≤ 1
      by_cases e : s = b.received
      · have := answers_le_length l b.received
        rw [e, answers_append, h0]
        omega
      · rw [other s e]
        exact hI.atMost s
    · show answers (b.sent ++ l) s = 0
      rw [other s (by omega)]
      exact hI.bound s hs
    · show q.origin < _ ∧ answers (b.sent ++ l) q.origin = 0
      rw [other q.origin (hn r q hq)]
      exact hI.live r q hq

/-! ## one step -/

/-- where the event is a set or call, the message to the owner is rendered and sent -/
def ReachesOwner (env : Env) (b : Broker T) (e : Event) : Prop :=
  ∀ p request what rc, e = .rpc p request → request.routes = some what →
    routedCall env b p request what = some rc → rc.Reaches env b

theorem oneAnswer_stepped {env : Env} {b b' : Broker T} {e : Event} (hI : OneAnswer b.received b)
    (hc : ReachesOwner env b e) (h : Stepped env b e b') : OneAnswer b'.received b' := by
  cases h with
  | notConnected p connection isLocal n => exact hI.congr rfl rfl fun _ => rfl
  | connected p connection isLocal n hp => exact hI.congr rfl rfl fun _ => rfl
  | answered p request res ret b1 b2 hp hr h1 h2 =>
    have hstep : OneAnswer (b.received + 1) b1 ∧ b1.received = b.received ∧
        answers b1.sent b.received = 0 ∧ (res.json = none ∨ NoneWaits b.received b1) := by
      cases hw : request.routes with
      | some what =>
        rw [handlerOf_of_routes _ hw] at h1
        exact oneAnswer_setOrCall hI (fun rc => hc p request what rc rfl hw) (setOrCall_some h1)
      | none =>
        have hb : OneAnswer b.received b1 ∧ b1.received = b.received := by
          rcases does_handlerOf _ hw _ _ _ h1 with hs | hs
          · exact ⟨hI.of_onlyStore hs, hs.received⟩
          · exact ⟨hI.of_onlyAccounts hs, hs.received⟩
        exact ⟨hb.1.mono (Nat.le_succ _), hb.2, hb.1.bound _ (Nat.le_refl _),
          Or.inr fun r q hq => Nat.ne_of_lt (hb.1.live r q hq).1⟩
    obtain ⟨hI1, e1, h0, hn⟩ := hstep
    rw [← e1] at hI1 h0 hn
    obtain ⟨hI2, e2⟩ := oneAnswer_sendResponse hI1 h0 hn h2
    rw [← e2] at hI2
    exact hI2.congr rfl rfl fun _ => rfl
  | response p request response resultType ret b1 hp hr h1 =>
    rcases handleRoutingResponse_some h1 with rfl | ⟨id, _, ⟨_, rfl⟩ | ⟨r, q, n, l, _, hq, hl, _, rfl⟩⟩
    · refine OneAnswer.mono ?_ (Nat.le_succ b1.received)
      exact hI.congr rfl rfl fun _ => rfl
    · refine OneAnswer.mono ?_ (Nat.le_succ b.received)
      exact hI.congr rfl rfl fun _ => rfl
    · refine OneAnswer.mono ?_ (Nat.le_succ b.received)
      exact hI.complete hq hl rfl rfl rfl
  | timeout r b1 ht h1 =>
    obtain ⟨q, n, l, hq, _, hl, rfl⟩ := requestTimeoutHandler_some h1
    exact hI.complete hq hl rfl rfl rfl
  | disconnected p b1 hp h1 =>
    rw [received_freePeerResources h1]
    exact oneAnswer_freePeerResources _ _ p _ _ _ h1 hI

/-! ## runs -/

/-- The requester of each set or call received in `l` has been sent at most one answer, nobody else
has been sent one, and none has been sent where the request has no id. -/
def AnsweredOnce (l : List Input) (b : Broker T) : Prop :=
  ∀ s p request, (rpcs l)[s]? = some (p, request) → request.routes.isSome = true →
    answers b.sent s ≤ 1 ∧ (∀ m ∈ b.sent, m.about = .response s → m.peer = p) ∧
      (request.getObjectItem "id" = none → answers b.sent s = 0)

/-- the condition on the steps of a run: `ReachesOwner`, before any call has been made -/
def RoutedReachOwners (platform : Platform) (b : Broker T) (i : Input) : Prop :=
  ReachesOwner (i.env platform) { b with calls := 0 } i.event

theorem oneAnswer_run {platform : Platform} {s b : Broker T} {l : List Input} (hs : s.IsStart platform)
    (hc : Along (step platform) (RoutedReachOwners platform) s l)
    (h : run (step platform) s l = some b) : OneAnswer b.received b := by
  obtain ⟨allGroups, userData, passwordFile, rfl⟩ := hs
  refine run_invariant (I := fun b => OneAnswer b.received b) (fun b i b' hI hc hs => ?_) ?_ hc h
  · have hI0 : OneAnswer b.received { b with calls := 0 } := hI.congr rfl rfl fun _ => rfl
    exact oneAnswer_stepped hI0 hc (step_cases hs)
  · exact ⟨fun s => Nat.zero_le 1, fun s _ => rfl, fun r q hq => (by cases hq),
      fun r r' q q' hq => (by cases hq), fun r _ => rfl⟩

/-- In a run in which the routed messages reach the owners no request is answered twice. -/
theorem answered_once {platform : Platform} {s b : Broker T} {l : List Input} (h0 : s.IsStart platform)
    (hc : Along (step platform) (RoutedReachOwners platform) s l)
    (h : run (step platform) s l = some b) : AnsweredOnce l b := by
  intro s p request hs hw
  have htraced := (traced_run h0 h).1
  refine ⟨(oneAnswer_run h0 hc h).atMost s, fun m hm e => ?_, fun hid => answers_eq_zero fun m hm e => ?_⟩
  · obtain ⟨request', h1, _⟩ := htraced.sent m hm s e
    rw [hs] at h1
    exact (congrArg Prod.fst (Option.some.inj h1)).symm
  · obtain ⟨request', h1, h2⟩ := htraced.sent m hm s e
    rw [hs] at h1
    obtain rfl : request = request' := congrArg Prod.snd (Option.some.inj h1)
    exact h2 hw hid

end

/-- Peer 1 adds a state and peer 2 sets it: this is object number 1. -/
def setByOther (outcomes : Outcomes) : List Input :=
  [Event.good (.connect 1 .websocket true), Event.good (.connect 2 .websocket true),
   Event.good (.rpc 1 (.request none "add" [("path", .str "a"), ("value", .bool true)])),
   ⟨outcomes, .rpc 2 (.request (some (.str "x")) "set" [("path", .str "a"), ("value", .bool false)])⟩]

/-- the condition where every call succeeds -/
theorem routedReachOwners_good {platform : Platform} {b : Broker SlotTable} {i : Input}
    (h : i.outcomes = Outcomes.good) : RoutedReachOwners platform b i := by
  have hok : ∀ c n, (i.env platform).ok c n = true := fun c n => by
    show i.outcomes.ok c n = true
    rw [h]
    rfl
  exact fun p request what rc e hw hrc hs ht => ⟨hok _ _, fun hid => hok _ _⟩

theorem setByOther_answered_once : ∃ b : Broker SlotTable,
    run (step Platform.small) (Broker.start Platform.small.config none none [])
      (setByOther Outcomes.good ++ [Event.good (.timeout 0)]) = some b ∧
    AnsweredOnce (setByOther Outcomes.good ++ [Event.good (.timeout 0)]) b := by
  have hrun : (run (step Platform.small) (Broker.start (T := SlotTable) Platform.small.config none none [])
      (setByOther Outcomes.good ++ [Event.good (.timeout 0)])).isSome = true := by decide +kernel
  obtain ⟨b, hb⟩ := Option.isSome_iff_exists.mp hrun
  refine ⟨b, hb, answered_once (isStart_start _ none none []) ?_ hb⟩
  refine Along.of_mem (fun i hi b => ?_) _
  have hgood : i.outcomes = Outcomes.good := by
    have hall : (setByOther Outcomes.good ++ [Event.good (.timeout 0)]).Forall
      fun i => i.outcomes = Outcomes.good := ⟨rfl, rfl, rfl, rfl, rfl⟩
    exact List.forall_iff_forall_mem.mp hall i hi
  exact routedReachOwners_good hgood

/-- Where the message to the owner cannot be sent the requester gets an error, and another one when
the timer fires. -/
theorem setByOther_answered_twice :
    ¬ ∀ l (b : Broker SlotTable), run (step Platform.small)
      (Broker.start Platform.small.config none none []) l = some b → AnsweredOnce l b := by
  intro hall
  have hrun : (run (step Platform.small) (Broker.start (T := SlotTable) Platform.small.config none none [])
      (setByOther (Outcomes.failing Call.isRoutedSend) ++ [Event.good (.timeout 0)])).any
        (fun b => answers b.sent 1 == 2) = true := by decide +kernel
  obtain ⟨b, hb, h2⟩ := Option.any_eq_true _ _ |>.mp hrun
  have h1 := (hall _ b hb 1 2 _ rfl rfl).1
  rw [beq_iff_eq.mp h2] at h1
  exact absurd h1 (by decide)

end Cjet
