import Cjet.Lib.Text
import Cjet.Route.Resource

/-!
# Requests and responses are matched

With all allocations and timer operations succeeding, no peer going away and fewer than `2 ^ 32`
requests routed while one of them is pending, a response of an owner reaches the request it is for.

* `routedId_segment`   the counter can be read off a routed id, whatever the id of the request was;
* `Correlated`         live requests and stored requests are the same, with the ids they were given;
* `correlation`        distinct ids, completion by the owner only, and what a forwarded message is.
-/

set_option linter.unusedVariables false
set_option linter.unusedSectionVars false

namespace Cjet
open Stateful Alloc

/-! ## the routed id -/

/-- `snprintf` prints `%p` as text that is not empty and has no underscore -/
def Platform.PlainPointers (platform : Platform) : Prop :=
  ∀ p, platform.printPointer p ≠ "" ∧ '_' ∉ (platform.printPointer p).toList

/-- the id under which a request is routed -/
def routedId (platform : Platform) (p : Addr) (originRequestId : Option Json) (uuid : Nat) : String :=
  fillRoutedRequestId platform (calculateSizeForRoutedRequestId platform p originRequestId uuid) p
    originRequestId uuid

theorem toList_routedId (platform : Platform) (p : Addr) (id : Option Json) (uuid : Nat) :
    (routedId platform p id uuid).toList = (routedRequestIdText platform p id uuid).toList.dropLast := by
  unfold routedId fillRoutedRequestId calculateSizeForRoutedRequestId
  rw [String.toList_ofList, List.dropLast_eq_take]

/-- The counter stands between the last two underscores, or before the only one. -/
theorem routedId_segment {platform : Platform} (hp : platform.PlainPointers) (p : Addr)
    (id : Option Json) (uuid : Nat) :
    Text.segment '_' (routedId platform p id uuid).toList = Nat.toDigits 16 uuid := by
  obtain ⟨hne, hno⟩ := hp p
  have hne' : (platform.printPointer p).toList ≠ [] := by simpa using hne
  have hhex : '_' ∉ Nat.toDigits 16 uuid := Text.notMem_toDigits (by decide) uuid
  have hlast : '_' ∉ (platform.printPointer p).toList.dropLast := fun h => hno (List.mem_of_mem_dropLast h)
  have hunder : "_".toList = ['_'] := by decide
  rw [toList_routedId]
  cases id with
  | none =>
    have htext : (routedRequestIdText platform p none uuid).toList
        = Nat.toDigits 16 uuid ++ '_' :: (platform.printPointer p).toList := by
      simp only [routedRequestIdText, hexText, String.toList_append, String.toList_ofList, hunder,
        List.append_assoc, List.singleton_append]
    rw [htext, List.dropLast_append_of_ne_nil (List.cons_ne_nil _ _), List.dropLast_cons_of_ne_nil hne']
    exact Text.segment_one hhex hlast
  | some j =>
    have htext : (routedRequestIdText platform p (some j) uuid).toList = (valueText platform j).toList ++
        '_' :: (Nat.toDigits 16 uuid ++ '_' :: (platform.printPointer p).toList) := by
      simp only [routedRequestIdText, hexText, String.toList_append, String.toList_ofList, hunder,
        List.append_assoc, List.cons_append, List.nil_append]
    rw [htext, List.dropLast_append_of_ne_nil (List.cons_ne_nil _ _),
      List.dropLast_cons_of_ne_nil (by simp), List.dropLast_append_of_ne_nil (List.cons_ne_nil _ _),
      List.dropLast_cons_of_ne_nil hne']
    exact Text.segment_two hhex hlast _

theorem routedId_injective {platform : Platform} (hp : platform.PlainPointers) {p p' : Addr}
    {id id' : Option Json} {uuid uuid' : Nat}
    (h : routedId platform p id uuid = routedId platform p' id' uuid') : uuid = uuid' := by
  have hs := congrArg (fun s : String => Text.segment '_' s.toList) h
  simp only [routedId_segment hp] at hs
  exact Text.toDigits_injective hs

/-- two counts in a window of `2 ^ 32` are told apart by their low 32 bits -/
theorem eq_of_mod_eq {m n k : Nat} (hm : m < k ∧ k ≤ m + 2 ^ 32) (hn : n < k ∧ k ≤ n + 2 ^ 32)
    (h : m % 2 ^ 32 = n % 2 ^ 32) : m = n := by omega

/-! ## the invariant -/

section
variable {T : Type} [HashTable T]

/-- The live requests are the stored ones.  Each has the id it was routed under, and fewer than
`2 ^ 32` requests have been routed since. -/
structure Correlated (platform : Platform) (b : Broker T) : Prop where
  live : ∀ r q, b.requests r = some q → StoredAt b q.ownerPeer q.id r
  stored : ∀ o k r, StoredAt b o k r → ∃ q, b.requests r = some q ∧ q.ownerPeer = o ∧ q.id = k
  text : ∀ r q, b.requests r = some q →
    q.id = routedId platform q.requestingPeer q.originRequestId (r % 2 ^ 32)
  window : ∀ r q, b.requests r = some q → r < b.routed ∧ b.routed ≤ r + 2 ^ 32
  uuid : b.uuid = b.routed % 2 ^ 32

namespace Correlated
variable {platform : Platform} {b b' : Broker T}

theorem congr (h : Correlated platform b) (hp : b'.peerList = b.peerList) (hr : b'.toRouter = b.toRouter) :
    Correlated platform b' := by
  have ht : b'.routingTable = b.routingTable := congrArg Router.routingTable hr
  have hq : b'.requests = b.requests := congrArg Router.requests hr
  have hf : b'.routed = b.routed := congrArg Router.routed hr
  have hu : b'.uuid = b.uuid := congrArg Router.uuid hr
  refine ⟨fun r q h' => ?_, fun o k r hs => ?_, fun r q h' => ?_, fun r q h' => ?_, ?_⟩
  · rw [hq] at h'
    exact (storedAt_congr hp ht _ _ _).mpr (h.live r q h')
  · rw [hq]
    exact h.stored o k r ((storedAt_congr hp ht o k r).mp hs)
  · rw [hq] at h'
    exact h.text r q h'
  · rw [hq] at h'
    rw [hf]
    exact h.window r q h'
  · rw [hu, hf, h.uuid]

theorem pending_iff (h : Correlated platform b) (r : Addr) (q : RoutingRequest) :
    Pending b r q ↔ b.requests r = some q :=
  ⟨fun hp => hp.1, fun hq => ⟨hq, h.live r q hq⟩⟩

/-- requests that are live at the same time have different ids -/
theorem ids_ne (h : Correlated platform b) (hp : platform.PlainPointers) {r r' : Addr}
    {q q' : RoutingRequest} (hq : b.requests r = some q) (hq' : b.requests r' = some q') (hne : r ≠ r') :
    q.id ≠ q'.id := by
  intro e
  rw [h.text r q hq, h.text r' q' hq'] at e
  exact hne (eq_of_mod_eq (h.window r q hq) (h.window r' q' hq') (routedId_injective hp e))

/-- the id of the next request is not in use, if no live request is too old -/
theorem fresh_id (h : Correlated platform b) (hp : platform.PlainPointers)
    (hw : ∀ r q, b.requests r = some q → b.routed + 1 ≤ r + 2 ^ 32) {p : Addr} {id : Option Json}
    {o : Addr} {k : String} {r : Addr} (hs : StoredAt b o k r) : k ≠ routedId platform p id b.uuid := by
  intro e
  obtain ⟨q, hq, _, hk⟩ := h.stored o k r hs
  rw [← hk, h.text r q hq, h.uuid] at e
  have hlt := (h.window r q hq).1
  have hn : b.routed < b.routed + 1 ∧ b.routed + 1 ≤ b.routed + 2 ^ 32 := by omega
  have heq := eq_of_mod_eq ⟨Nat.lt_succ_of_lt hlt, hw r q hq⟩ hn (routedId_injective hp e)
  exact Nat.ne_of_lt hlt heq

/-- the request that stands under a key leaves the table and is freed -/
theorem complete (h : Correlated platform b) {o : Addr} {k : String} {r : Addr}
    (hs : StoredAt b o k r) (hp : b'.peerList = b.peerList) (hf : b'.routed = b.routed)
    (hu : b'.uuid = b.uuid)
    (ht : b'.routingTable = Function.update b.routingTable o (HashTable.remove (b.routingTable o) k).2)
    (hq : b'.requests = Function.update b.requests r none) : Correlated platform b' := by
  have kept : ∀ r' q', b'.requests r' = some q' → r' ≠ r ∧ b.requests r' = some q' := fun r' q' h' => by
    rw [hq] at h'
    by_cases e : r' = r
    · rw [e, Function.update_self] at h'; cases h'
    · rw [Function.update_of_ne e] at h'; exact ⟨e, h'⟩
  refine ⟨fun r' q' h' => ?_, fun o' k' r' hs' => ?_, fun r' q' h' => ?_, fun r' q' h' => ?_, ?_⟩
  · obtain ⟨hne, h'⟩ := kept r' q' h'
    rw [storedAt_remove hp ht]
    refine ⟨h.live r' q' h', fun ⟨e1, e2⟩ => hne ?_⟩
    have h1 := (h.live r' q' h').2
    rw [e1, e2, hs.2] at h1
    exact (Option.some.inj h1).symm
  · rw [storedAt_remove hp ht] at hs'
    obtain ⟨q', h1, h2, h3⟩ := h.stored o' k' r' hs'.1
    obtain ⟨q, h4, h5, h6⟩ := h.stored o k r hs
    have hne : r' ≠ r := fun e => by
      rw [e, h4] at h1
      obtain rfl := Option.some.inj h1
      exact hs'.2 ⟨h2.symm.trans h5, h3.symm.trans h6⟩
    exact ⟨q', by rw [hq, Function.update_of_ne hne]; exact h1, h2, h3⟩
  · exact h.text r' q' (kept r' q' h').2
  · rw [hf]
    exact h.window r' q' (kept r' q' h').2
  · rw [hu, hf, h.uuid]

/-- a key under which nothing stands is removed -/
theorem removed (h : Correlated platform b) {o : Addr} {k : String}
    (hn : HashTable.get (b.routingTable o) k = none) (hp : b'.peerList = b.peerList)
    (hf : b'.routed = b.routed) (hu : b'.uuid = b.uuid)
    (ht : b'.routingTable = Function.update b.routingTable o (HashTable.remove (b.routingTable o) k).2)
    (hq : b'.requests = b.requests) : Correlated platform b' := by
  have stored : ∀ o' k' r', StoredAt b' o' k' r' ↔ StoredAt b o' k' r' := fun o' k' r' => by
    rw [storedAt_remove hp ht]
    refine ⟨fun h1 => h1.1, fun h1 => ⟨h1, fun ⟨e1, e2⟩ => ?_⟩⟩
    have h2 := h1.2
    rw [e1, e2, hn] at h2
    cases h2
  refine ⟨fun r' q' h' => ?_, fun o' k' r' hs' => ?_, fun r' q' h' => ?_, fun r' q' h' => ?_, ?_⟩
  · rw [hq] at h'
    exact (stored _ _ _).mpr (h.live r' q' h')
  · rw [hq]
    exact h.stored o' k' r' ((stored o' k' r').mp hs')
  · rw [hq] at h'
    exact h.text r' q' h'
  · rw [hq] at h'
    rw [hf]
    exact h.window r' q' h'
  · rw [hu, hf, h.uuid]

/-- what is stored and live stays so, and a request was made that is not kept -/
theorem dropped (h : Correlated platform b)
    (hw : ∀ r q, b.requests r = some q → b.routed + 1 ≤ r + 2 ^ 32)
    (hs : ∀ o k r, StoredAt b' o k r ↔ StoredAt b o k r) (hf : b'.routed = b.routed + 1)
    (hu : b'.uuid = (b.uuid + 1) % 2 ^ 32)
    (hq : b'.requests = Function.update b.requests b.routed none) : Correlated platform b' := by
  have kept : ∀ r q, b'.requests r = some q ↔ b.requests r = some q := fun r q => by
    rw [hq]
    by_cases e : r = b.routed
    · rw [e, Function.update_self]
      refine ⟨fun h' => (by cases h'), fun h' => ?_⟩
      exact absurd (h.window _ q h').1 (Nat.lt_irrefl _)
    · rw [Function.update_of_ne e]
  refine ⟨fun r q h' => ?_, fun o k r hs' => ?_, fun r q h' => ?_, fun r q h' => ?_, ?_⟩
  · exact (hs _ _ _).mpr (h.live r q ((kept r q).mp h'))
  · obtain ⟨q, h1, h2⟩ := h.stored o k r ((hs o k r).mp hs')
    exact ⟨q, (kept r q).mpr h1, h2⟩
  · exact h.text r q ((kept r q).mp h')
  · have h1 := (kept r q).mp h'
    rw [hf]
    exact ⟨Nat.lt_succ_of_lt (h.window r q h1).1, hw r q h1⟩
  · rw [hu, hf, h.uuid, Nat.mod_add_mod]

/-- a new request is stored -/
theorem store (h : Correlated platform b) (hp : platform.PlainPointers)
    (hw : ∀ r q, b.requests r = some q → b.routed + 1 ≤ r + 2 ^ 32) {q : RoutingRequest}
    (ho : q.ownerPeer ∈ b.peerList)
    (hid : q.id = routedId platform q.requestingPeer q.originRequestId b.uuid)
    (hput : (HashTable.put (b.routingTable q.ownerPeer) q.id b.routed).1 = true)
    (hpl : b'.peerList = b.peerList) (hf : b'.routed = b.routed + 1)
    (hu : b'.uuid = (b.uuid + 1) % 2 ^ 32)
    (ht : b'.routingTable = Function.update b.routingTable q.ownerPeer
      (HashTable.put (b.routingTable q.ownerPeer) q.id b.routed).2)
    (hq : b'.requests = Function.update b.requests b.routed (some q)) : Correlated platform b' := by
  have stored := storedAt_put hpl ho hput ht
  have new : ∀ o k r, StoredAt b o k r → ¬ (o = q.ownerPeer ∧ k = q.id) := fun o k r hs ⟨_, e⟩ =>
    h.fresh_id hp hw hs (e.trans hid)
  have cases : ∀ r q', b'.requests r = some q' →
      (r = b.routed ∧ q' = q) ∨ (r ≠ b.routed ∧ b.requests r = some q') := fun r q' h' => by
    rw [hq] at h'
    by_cases e : r = b.routed
    · rw [e, Function.update_self] at h'
      exact Or.inl ⟨e, (Option.some.inj h').symm⟩
    · rw [Function.update_of_ne e] at h'
      exact Or.inr ⟨e, h'⟩
  refine ⟨fun r q' h' => ?_, fun o k r hs => ?_, fun r q' h' => ?_, fun r q' h' => ?_, ?_⟩
  · rw [stored]
    rcases cases r q' h' with ⟨e, rfl⟩ | ⟨_, h'⟩
    · exact Or.inl ⟨rfl, rfl, e⟩
    · exact Or.inr ⟨new _ _ _ (h.live r q' h'), h.live r q' h'⟩
  · rcases (stored o k r).mp hs with ⟨e1, e2, e3⟩ | ⟨_, hs⟩
    · exact ⟨q, by rw [hq, e3, Function.update_self], e1.symm, e2.symm⟩
    · obtain ⟨q', h1, h2⟩ := h.stored o k r hs
      refine ⟨q', ?_, h2⟩
      rw [hq, Function.update_of_ne (Nat.ne_of_lt (h.window r q' h1).1)]
      exact h1
  · rcases cases r q' h' with ⟨e, rfl⟩ | ⟨_, h'⟩
    · rw [e, ← h.uuid]
      exact hid
    · exact h.text r q' h'
  · rw [hf]
    rcases cases r q' h' with ⟨e, rfl⟩ | ⟨_, h'⟩
    · rw [e]
      exact ⟨Nat.lt_succ_self _, Nat.add_le_add_left (by decide) _⟩
    · exact ⟨Nat.lt_succ_of_lt (h.window r q' h').1, hw r q' h'⟩
  · rw [hu, hf, h.uuid, Nat.mod_add_mod]

end Correlated

/-! ## a set or call -/

theorem storedAt_full {b b' : Broker T} {o : Addr} {id : String} {r₀ : Addr}
    (hp : b'.peerList = b.peerList) (hput : (HashTable.put (b.routingTable o) id r₀).1 = false)
    (ht : b'.routingTable = Function.update b.routingTable o
      (HashTable.put (b.routingTable o) id r₀).2) (o' : Addr) (k : String) (r : Addr) :
    StoredAt b' o' k r ↔ StoredAt b o' k r := by
  unfold StoredAt
  rw [hp, ht]
  by_cases e : o' = o
  · subst e
    rw [Function.update_self, HashTable.get_put_full _ _ _ _ hput]
  · rw [Function.update_of_ne e]

/-- what is known of the outcomes: allocations and timer operations succeed -/
def Env.Works (env : Env) : Prop := env.AllocOk ∧ env.TimerOk

theorem correlated_setOrCall {env : Env} {p : Addr} {request : Json} {what : ElementType}
    {b b' : Broker T} {res : Response} (hpl : env.toPlatform.PlainPointers) (henv : env.Works)
    (hI : Correlated env.toPlatform b)
    (hw : ∀ r q, b.requests r = some q → b'.routed ≤ r + 2 ^ 32)
    (h : SetOrCall env b p request what res b') :
    Correlated env.toPlatform b' ∧ ∀ r q, b.requests r = some q → b'.requests r = some q := by
  have kept : ∀ (x : Option RoutingRequest) r q, b.requests r = some q →
      Function.update b.requests b.routed x r = some q := fun x r q hq => by
    rw [Function.update_of_ne (Nat.ne_of_lt (hI.window r q hq).1)]
    exact hq
  cases h with
  | rejected json n hid hrc => exact ⟨hI.congr rfl rfl, fun r q hq => hq⟩
  | dropped json n hid hrc =>
    exact ⟨hI.dropped hw (storedAt_congr rfl rfl) rfl rfl rfl, kept none⟩
  | full json n hid rc hrc hs =>
    exact ⟨hI.dropped hw (storedAt_full rfl hs rfl) rfl rfl rfl, kept none⟩
  | notStarted json n hid rc hrc hs ht =>
    rw [RoutedCall.started, henv.2 _ _ rfl] at ht
    cases ht
  | notRendered json n hid rc hrc hs ht hr =>
    rw [RoutedCall.rendered, henv.1 _ _ rfl] at hr
    cases hr
  | sent json n hid rc hrc hs ht hr ho hj =>
    obtain ⟨params, path, e, el, _, _, _, _, hreq, _⟩ := routedCall_some hrc
    refine ⟨hI.store hpl hw ho ?_ hs rfl rfl rfl rfl rfl, kept _⟩
    rw [hreq]
    rfl

/-! ## steps -/

/-- the step leaves the routing requests alone, or completes one: its timer fires, or its owner
responds -/
def Completes (e : Event) (r : Addr) (q : RoutingRequest) : Prop :=
  e = .timeout r ∨ ∃ response, e = .rpc q.ownerPeer response ∧ IsResponse response q.id

theorem correlated_stepped {env : Env} {b b' : Broker T} {e : Event}
    (hpl : env.toPlatform.PlainPointers) (henv : env.Works) (hI : Correlated env.toPlatform b)
    (hstay : ∀ p, e ≠ .disconnect p)
    (hw : ∀ r q, b.requests r = some q → b'.routed ≤ r + 2 ^ 32) (h : Stepped env b e b') :
    Correlated env.toPlatform b' ∧
      ∀ r q, b.requests r = some q → b'.requests r = some q ∨ Completes e r q := by
  have removed : ∀ (r r' : Addr) q', b.requests r' = some q' → r' ≠ r →
      Function.update b.requests r none r' = some q' := fun r r' q' hq' hne => by
    rw [Function.update_of_ne hne]
    exact hq'
  cases h with
  | notConnected p connection isLocal n => exact ⟨hI.congr rfl rfl, fun r q hq => Or.inl hq⟩
  | connected p connection isLocal n hp =>
    have stored : ∀ o k r, StoredAt (b.connected env p connection.memory isLocal n) o k r ↔
        StoredAt b o k r := storedAt_connected hp
    refine ⟨⟨fun r q hq => (stored _ _ _).mpr (hI.live r q hq), fun o k r hs => ?_, hI.text, hI.window,
      hI.uuid⟩, fun r q hq => Or.inl hq⟩
    exact hI.stored o k r ((stored o k r).mp hs)
  | answered p request res ret b1 b2 hp hr h1 h2 =>
    obtain ⟨_, n, l, e2, _⟩ := sendResponse_some h2
    have hb1 : Correlated env.toPlatform b1 ∧
        ∀ r q, b.requests r = some q → b1.requests r = some q := by
      cases hwhat : request.routes with
      | some what =>
        rw [handlerOf_of_routes _ hwhat] at h1
        refine correlated_setOrCall hpl henv hI (fun r q hq => ?_) (setOrCall_some h1)
        have hle := hw r q hq
        rw [e2] at hle
        exact hle
      | none =>
        rcases does_handlerOf _ hwhat _ _ _ h1 with hs | hs
        · exact ⟨hI.congr hs.peerList hs.router, fun r q hq => by
            rw [(congrArg Router.requests hs.router : b1.requests = b.requests)]; exact hq⟩
        · exact ⟨hI.congr (congrArg Store.peerList hs.store) hs.router, fun r q hq => by
            rw [(congrArg Router.requests hs.router : b1.requests = b.requests)]; exact hq⟩
    subst e2
    exact ⟨hb1.1.congr rfl rfl, fun r q hq => Or.inl (hb1.2 r q hq)⟩
  | response p request response resultType ret b1 hp hr h1 =>
    rcases handleRoutingResponse_some h1 with rfl | ⟨id, hid, ⟨hn, rfl⟩ | ⟨r, q, n, l, hs, hq, hl, _, rfl⟩⟩
    · exact ⟨hI.congr rfl rfl, fun r q hq => Or.inl hq⟩
    · exact ⟨hI.removed hn rfl rfl rfl rfl rfl, fun r q hq => Or.inl hq⟩
    · refine ⟨hI.complete ⟨hp, hs⟩ rfl rfl rfl rfl rfl, fun r' q' hq' => ?_⟩
      by_cases e : r' = r
      · right
        right
        obtain ⟨q1, h3, h4, h5⟩ := hI.stored p id r ⟨hp, hs⟩
        rw [e, h3] at hq'
        obtain rfl := Option.some.inj hq'
        exact ⟨request, by rw [h4], by rw [hr]; rfl, by rw [h5]; exact hid⟩
      · exact Or.inl (removed r r' q' hq' e)
  | timeout r b1 ht h1 =>
    obtain ⟨q, n, l, hq, _, hl, rfl⟩ := requestTimeoutHandler_some h1
    refine ⟨hI.complete (hI.live r q hq) rfl rfl rfl rfl rfl, fun r' q' hq' => ?_⟩
    by_cases e : r' = r
    · exact Or.inr (Or.inl (by rw [e]))
    · exact Or.inl (removed r r' q' hq' e)
  | disconnected p b1 hp h1 => exact (hstay p rfl).elim

/-- A message that the response of an owner causes is for the request that its id stands for. -/
theorem forwarded_stepped {env : Env} {b b' : Broker T} {p : Addr} {request : Json} {kind : String}
    {value : Json} (henv : env.Works) (hI : Correlated env.toPlatform b)
    (hr : request.routingResponse = some (kind, value)) (h : Stepped env b (.rpc p request) b') :
    ∃ l, b'.sent = b.sent ++ l ∧ ∀ m ∈ l, ∃ r q id, b.requests r = some q ∧ q.ownerPeer = p ∧
      IsResponse request q.id ∧ m.peer = q.requestingPeer ∧ m.about = .response q.origin ∧
      q.originRequestId = some id ∧ (responseId id).map (fun id => .obj [("id", id), (kind, value)])
        = some m.msg := by
  cases h with
  | answered p request res ret b1 b2 hp hr' h1 h2 => rw [hr'] at hr; cases hr
  | response p request response resultType ret b1 hp hr' h1 =>
    rw [hr'] at hr
    cases hr
    rcases handleRoutingResponse_some h1 with rfl | ⟨id, hid, ⟨hn, rfl⟩ | ⟨r, q, n, l, hs, hq, hl, hm, rfl⟩⟩
    · exact ⟨[], (List.append_nil _).symm, by simp⟩
    · exact ⟨[], (List.append_nil _).symm, by simp⟩
    · refine ⟨l, rfl, fun m hml => ?_⟩
      obtain ⟨q1, h3, h4, h5⟩ := hI.stored p id r ⟨hp, hs⟩
      obtain rfl : q = q1 := Option.some.inj (hq.symm.trans h3)
      obtain ⟨h6, h7⟩ := hl.about m hml
      obtain ⟨id', k, h8, h9⟩ := hm m hml
      refine ⟨r, q, id', hq, h4, ⟨by rw [hr']; rfl, by rw [h5]; exact hid⟩, h6, h7, h8, ?_⟩
      rw [← createResultResponse_ok env henv.1 id' value kind k]
      exact h9

/-! ## runs -/

/-- allocations and timer operations succeed, no peer goes away, and with the request that this step
routes, if it routes one, fewer than `2 ^ 32` have been routed while any one was pending -/
structure Calm (platform : Platform) (b : Broker T) (i : Input) : Prop where
  works : (i.env platform).Works
  stays : ∀ p, i.event ≠ .disconnect p
  few : ∀ b', step platform b i = some b' → ∀ r q, Pending b r q → b'.routed ≤ r + 2 ^ 32

theorem correlated_step {platform : Platform} {b b' : Broker T} {i : Input}
    (hpl : platform.PlainPointers) (hI : Correlated platform b) (hc : Calm platform b i)
    (h : step platform b i = some b') :
    Correlated platform b' ∧
      ∀ r q, b.requests r = some q → b'.requests r = some q ∨ Completes i.event r q := by
  have hI0 : Correlated (i.env platform).toPlatform { b with calls := 0 } := hI.congr rfl rfl
  have hw : ∀ r q, b.requests r = some q → b'.routed ≤ r + 2 ^ 32 := fun r q hq =>
    hc.few b' h r q ((hI.pending_iff r q).mpr hq)
  have hstep := correlated_stepped hpl hc.works hI0 hc.stays hw (step_cases h)
  exact hstep

theorem correlated_run {platform : Platform} {s b : Broker T} {l : List Input}
    (hpl : platform.PlainPointers) (h0 : s.IsStart platform) (hc : Along (step platform) (Calm platform) s l)
    (h : run (step platform) s l = some b) : Correlated platform b := by
  obtain ⟨allGroups, userData, passwordFile, rfl⟩ := h0
  refine run_invariant (fun b i b' hI hc hs => (correlated_step hpl hI hc hs).1) ?_ hc h
  exact ⟨fun r q hq => (by cases hq), fun o k r hs => absurd hs.1 List.not_mem_nil,
    fun r q hq => (by cases hq), fun r q hq => (by cases hq), rfl⟩

/-- a string, or an integer in the range of `int` -/
def Json.IsExactId : Json → Prop
  | .str _ => True
  | .num q => ∃ z : Int, q = z ∧ Json.intMin ≤ z ∧ z ≤ Json.intMax
  | _ => False

theorem responseId_of_exact {id : Json} (h : id.IsExactId) : responseId id = some id := by
  cases id with
  | str s => rfl
  | num q =>
    obtain ⟨z, rfl, h1, h2⟩ := h
    have hz : Json.valueInt (z : Rat) = z := by
      unfold Json.valueInt
      rw [Rat.num_intCast, Rat.den_intCast]
      have e : Int.tdiv z ((1 : Nat) : Int) = z := Int.tdiv_one z
      rw [e]
      omega
    show some (Json.num _) = _
    rw [hz]
  | _ => exact h.elim

/-- After the run `l` the pending requests have different ids.  In a calm step a pending request is
completed only by its timer or by a response of its owner with its id, and a message that a response
causes goes to the peer whose set or call it answers, with its id and the value of the response. -/
structure Correlation (platform : Platform) (l : List Input) (b : Broker T) : Prop where
  distinct : ∀ r r' q q', Pending b r q → Pending b r' q' → r ≠ r' → q.id ≠ q'.id
  completed : ∀ i b', Calm platform b i → step platform b i = some b' → ∀ r q, Pending b r q →
    Pending b' r q ∨ Completes i.event r q
  forwarded : ∀ i b', Calm platform b i → step platform b i = some b' → ∀ p response kind value,
    i.event = .rpc p response → response.routingResponse = some (kind, value) →
    ∃ l', b'.sent = b.sent ++ l' ∧ ∀ m ∈ l', ∃ r q request id, Pending b r q ∧ q.ownerPeer = p ∧
      IsResponse response q.id ∧ (rpcs l)[q.origin]? = some (m.peer, request) ∧
      request.routes.isSome = true ∧ request.getObjectItem "id" = some id ∧
      (id.IsExactId → m.msg = .obj [("id", id), (kind, value)])

theorem correlation {platform : Platform} {s b : Broker T} {l : List Input}
    (hpl : platform.PlainPointers) (h0 : s.IsStart platform) (hc : Along (step platform) (Calm platform) s l)
    (h : run (step platform) s l = some b) : Correlation platform l b := by
  have hI := correlated_run hpl h0 hc h
  refine ⟨fun r r' q q' hp hp' => hI.ids_ne hpl hp.1 hp'.1, fun i b' hci hs r q hp => ?_, ?_⟩
  · obtain ⟨hI', hkept⟩ := correlated_step hpl hI hci hs
    rcases hkept r q hp.1 with hq | hcomp
    · exact Or.inl ((hI'.pending_iff r q).mpr hq)
    · exact Or.inr hcomp
  · intro i b' hci hs p response kind value he hr
    have hst := step_cases hs
    rw [he] at hst
    have hI0 : Correlated (i.env platform).toPlatform { b with calls := 0 } := hI.congr rfl rfl
    obtain ⟨l', hl', hm⟩ := forwarded_stepped hci.works hI0 hr hst
    refine ⟨l', hl', fun m hml => ?_⟩
    obtain ⟨r, q, id, hq, ho, hid, hpeer, _, horigin, hmsg⟩ := hm m hml
    obtain ⟨request, h1, h2, h3⟩ := (traced_run h0 h).1.live r q hq
    refine ⟨r, q, request, id, (hI.pending_iff r q).mpr hq, ho, hid, by rw [hpeer]; exact h1, h2,
      h3.symm.trans horigin, fun hex => ?_⟩
    rw [responseId_of_exact hex] at hmsg
    exact (Option.some.inj hmsg).symm

end

/-- no disconnect, and few requests so far -/
def calmCheck (b : Broker SlotTable) (i : Input) : Bool :=
  (match i.event with
    | .disconnect _ => false
    | _ => true) && (step Platform.small b i).all fun b' => b'.routed ≤ 2 ^ 32

theorem calm_of_check {b : Broker SlotTable} {e : Event} (h : calmCheck b (Event.good e) = true) :
    Calm Platform.small b (Event.good e) := by
  obtain ⟨h1, h2⟩ := Bool.and_eq_true _ _ |>.mp h
  refine ⟨⟨fun _ _ _ => rfl, fun _ _ _ => rfl⟩, fun p hp => ?_, fun b' hs r q _ => ?_⟩
  · have he : e = .disconnect p := hp
    subst he
    cases h1
  · rw [hs] at h2
    exact Nat.le_trans (of_decide_eq_true h2) (Nat.le_add_left _ _)

theorem calm_along (l : List Event) (b : Broker SlotTable)
    (h : checkAlong (step Platform.small) calmCheck b (l.map Event.good) = true) :
    Along (step Platform.small) (Calm Platform.small) b (l.map Event.good) := by
  induction l generalizing b with
  | nil => trivial
  | cons e l ih =>
    obtain ⟨h1, h2⟩ := Bool.and_eq_true _ _ |>.mp h
    refine ⟨calm_of_check h1, fun b' hs => ih b' ?_⟩
    rwa [hs] at h2

theorem setByOther_correlation : ∃ b : Broker SlotTable,
    run (step Platform.small) (Broker.start Platform.small.config none none [])
      (setByOther Outcomes.good) = some b ∧ Correlation Platform.small (setByOther Outcomes.good) b := by
  have hrun : (run (step Platform.small) (Broker.start (T := SlotTable) Platform.small.config none none [])
      (setByOther Outcomes.good)).isSome = true := by decide +kernel
  obtain ⟨b, hb⟩ := Option.isSome_iff_exists.mp hrun
  have hpl : Platform.small.PlainPointers := fun _ => show "0x1" ≠ "" ∧ '_' ∉ "0x1".toList by decide
  refine ⟨b, hb, correlation hpl (isStart_start _ none none []) ?_ hb⟩
  exact calm_along [.connect 1 .websocket true, .connect 2 .websocket true,
    .rpc 1 (.request none "add" [("path", .str "a"), ("value", .bool true)]),
    .rpc 2 (.request (some (.str "x")) "set" [("path", .str "a"), ("value", .bool false)])] _
    (by decide +kernel)

end Cjet
