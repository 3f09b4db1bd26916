import Cjet.Store.Chain

/-!
# Do subscribers miss events because of each other?

`notify_fetchers` stops at the first fetch that cannot be notified, so the fetches behind it in the
table of the element are not told of the event, whatever becomes of their own messages.

* `Notifies`                     the events that notify the fetches of an element;
* `notification_isolation_iff`   when each fetch that can be sent to is told once.
-/

set_option linter.unusedVariables false
set_option linter.unusedSectionVars false

namespace Cjet
open Stateful Alloc

section
variable {T : Type} [HashTable T]

/-! ## the messages of one notification -/

/-- the message is a notification of the element at `e` for the fetch `f` -/
def Sent.concerns (f e : Addr) (m : Sent) : Bool := decide (m.about = .notification f e)

/-- Among the messages the fetch `f` is notified of the event once, successfully. -/
def NotifiedOnce (b : Broker T) (el : Element) (e : Addr) (eventName : String) (l : List Sent) (f : Addr) :
    Prop :=
  ∃ ft id, b.fetches f = some ft ∧ ft.fetchId = some id ∧
    l.filter (Sent.concerns f e) = [⟨ft.peer, .notification f e, notification el id eventName, true⟩]

theorem sentNote_concerns {b : Broker T} {ok : Addr → Bool} {el : Element} {e f f' : Addr} {eventName : String}
    {m : Sent} (h : b.sentNote ok el e f' eventName = some m) : m.concerns f e = decide (f' = f) := by
  obtain ⟨c, hc, rfl⟩ := Option.map_eq_some_iff.mp h
  obtain ⟨ft, _, h2⟩ := Option.bind_eq_some_iff.mp hc
  obtain ⟨id, _, rfl⟩ := Option.map_eq_some_iff.mp h2
  unfold Sent.concerns
  simp

/-- the messages for one fetch among those of a notification -/
theorem concerns_tried {b : Broker T} {ok : Addr → Bool} {el : Element} {e f : Addr} {eventName : String}
    {fs : List Addr} (hn : fs.Nodup) :
    (fs.filterMap fun f' => b.sentNote ok el e f' eventName).filter (Sent.concerns f e)
      = if f ∈ fs then (b.sentNote ok el e f eventName).toList else [] := by
  induction fs with
  | nil => rfl
  | cons g fs ih =>
    obtain ⟨hg, hn⟩ := List.nodup_cons.mp hn
    rw [List.filterMap_cons]
    by_cases e1 : g = f
    · subst e1
      rw [if_neg hg] at ih
      rw [if_pos List.mem_cons_self]
      cases hs : b.sentNote ok el e g eventName with
      | none => exact ih hn
      | some m =>
        show List.filter _ (m :: _) = [m]
        rw [List.filter_cons, sentNote_concerns hs, ih hn]
        simp
    · have hmem : f ∈ g :: fs ↔ f ∈ fs := by
        rw [List.mem_cons]
        exact ⟨fun h => h.resolve_left fun e2 => e1 e2.symm, Or.inr⟩
      simp only [hmem]
      cases hs : b.sentNote ok el e g eventName with
      | none => exact ih hn
      | some m =>
        show List.filter _ (m :: _) = _
        rw [List.filter_cons, sentNote_concerns hs, ih hn]
        simp [e1]

/-- Each fetch that can be sent to is notified once exactly where no other one stands before it. -/
theorem notifiedOnce_iff {b : Broker T} {ok : Addr → Bool} {el : Element} {e : Addr} {eventName : String}
    {fs : List Addr} {l : List Sent} (hn : fs.Nodup)
    (hlive : ∀ f ∈ fs, ∃ ft id, b.fetches f = some ft ∧ ft.fetchId = some id)
    (hl : ∀ f, l.filter (Sent.concerns f e)
      = ((Prog.tried ok fs).filterMap fun f => b.sentNote ok el e f eventName).filter (Sent.concerns f e)) :
    (∀ f ∈ fs, ok f = true → NotifiedOnce b el e eventName l f) ↔
      fs.Pairwise fun f g => ok g = true → ok f = true := by
  rw [← Prog.all_tried_iff ok hn]
  have hsub := Prog.tried_sublist ok fs
  have hfilter : ∀ f, l.filter (Sent.concerns f e)
      = if f ∈ Prog.tried ok fs then (b.sentNote ok el e f eventName).toList else [] := fun f => by
    rw [hl, concerns_tried (hn.sublist hsub)]
  constructor
  · intro h f hf hok
    obtain ⟨ft, id, _, _, h1⟩ := h f hf hok
    rw [hfilter] at h1
    by_contra hnot
    rw [if_neg hnot] at h1
    cases h1
  · intro h f hf hok
    obtain ⟨ft, id, hft, hid⟩ := hlive f hf
    refine ⟨ft, id, hft, hid, ?_⟩
    rw [hfilter, if_pos (h f hf hok), Broker.sentNote, note_some hft hid, hok]
    rfl

/-! ## the messages of a disconnect -/

theorem removeFetches_left (env : Env) {p : Addr} {l : List Addr} {b b' : Broker T} {u : Unit}
    (hS : b.toStore.Sound) (hp : p ∈ b.peerList) (hl : l.Nodup) (hsub : ∀ f ∈ l, f ∈ b.fetchList p)
    (h : Prog.each (removeFetch p) l b = some (u, b')) :
    b'.sent = b.sent ∧ (∀ f, f ∉ l → b'.fetches f = b.fetches f) ∧
      ∀ e el, b.elements e = some el → ∃ table, b'.elements e = some { el with fetcherTable := table } ∧
        Slots.entries table = (Slots.entries el.fetcherTable).filter fun f => decide (f ∉ l) := by
  induction l generalizing b with
  | nil =>
    obtain ⟨_, rfl⟩ := Prog.pure_some h
    exact ⟨rfl, fun _ _ => rfl, fun e el hel => ⟨el.fetcherTable, hel, by simp⟩⟩
  | cons f l ih =>
    obtain ⟨hf, hl⟩ := List.nodup_cons.mp hl
    obtain ⟨_, b1, h1, h2⟩ := Prog.bind_some h
    obtain ⟨rfl, hstep⟩ := removeFetch_step (fun _ _ => True) env hS hp (hsub f List.mem_cons_self) h1
    have hkeep : ∀ g ∈ l, g ∈ (b.unfetched p f).fetchList p := fun g hg => by
      show g ∈ Function.update b.fetchList p ((b.fetchList p).erase f) p
      rw [Function.update_self, List.mem_erase_of_ne fun e => hf (by rwa [e] at hg)]
      exact hsub g (List.mem_cons_of_mem f hg)
    obtain ⟨h3, h4, h5⟩ := ih (sound_storeStep hS hstep) hp hl hkeep h2
    refine ⟨h3, fun g hg => ?_, fun e el hel => ?_⟩
    · obtain ⟨hne, hg⟩ := not_or.mp fun h => hg (List.mem_cons.mpr h)
      rw [h4 g hg]
      exact Function.update_of_ne hne _ _
    · have hel1 : (b.unfetched p f).elements e = some (el.without f) := by
        show (b.elements e).map (fun el => el.without f) = _
        rw [hel]
        rfl
      obtain ⟨table, h6, h7⟩ := h5 e (el.without f) hel1
      refine ⟨table, h6, ?_⟩
      rw [h7]
      show (Slots.entries (Slots.erase el.fetcherTable f)).filter _ = _
      rw [Slots.entries_erase, List.filter_filter]
      refine List.filter_congr fun g _ => ?_
      rw [← Bool.decide_and]
      refine decide_eq_decide.mpr ?_
      rw [List.mem_cons, not_or]
      exact and_comm

theorem deliver_about {env : Env} {el : Element} {ft : Fetch} {e f : Addr} {eventName : String} {n k : Nat}
    {m : Option Sent} (h : deliver env el ft e f eventName n = (m, k)) :
    ∀ x ∈ m, x.peer = ft.peer ∧ x.about = .notification f e := by
  unfold deliver at h
  rw [Alloc.bind_apply] at h
  cases hc : (createNotification env el ft eventName n).1 with
  | none =>
    rw [hc] at h
    cases h
    exact fun x hx => (by cases hx)
  | some root =>
    rw [hc] at h
    have h : (printUnformatted env (.notification f e) root >>= _) _ = (m, k) := h
    rw [Alloc.bind_apply] at h
    cases hp : (printUnformatted env (.notification f e) root (createNotification env el ft eventName n).2).1 with
    | none =>
      rw [hp] at h
      cases h
      exact fun x hx => (by cases hx)
    | some rendered =>
      rw [hp] at h
      cases h
      rintro x ⟨⟩
      exact ⟨rfl, rfl⟩

/-- A notification goes to the peer of a fetch. -/
theorem deliverAll_about {env : Env} {fetches : Addr → Option Fetch} {el : Element} {e : Addr}
    {eventName : String} {fs : List Addr} {n k : Nat} {r : Bool} {l : List Sent}
    (h : deliverAll env fetches el e eventName fs n = ((r, l), k)) :
    ∀ m ∈ l, ∃ f ft, fetches f = some ft ∧ m.peer = ft.peer ∧ m.about = .notification f e := by
  induction fs generalizing n r l with
  | nil =>
    cases h
    simp
  | cons f fs ih =>
    unfold deliverAll at h
    cases hft : fetches f with
    | none =>
      rw [hft] at h
      cases h
      simp
    | some ft =>
      rw [hft] at h
      have h : (deliver env el ft e f eventName >>= _) n = ((r, l), k) := h
      rw [Alloc.bind_apply] at h
      have hfirst := deliver_about (Prod.eta (deliver env el ft e f eventName n)).symm
      by_cases hd : delivered (deliver env el ft e f eventName n).1 = true
      · rw [if_pos hd, Alloc.bind_apply] at h
        cases hr : deliverAll env fetches el e eventName fs (deliver env el ft e f eventName n).2 with
        | mk r1 k2 =>
          obtain ⟨r2, l2⟩ := r1
          rw [hr] at h
          cases h
          intro m hm
          rcases List.mem_append.mp hm with hm | hm
          · exact ⟨f, ft, hft, hfirst m (Option.mem_toList.mp hm)⟩
          · exact ih hr m hm
      · rw [if_neg hd] at h
        cases h
        intro m hm
        exact ⟨f, ft, hft, hfirst m (Option.mem_toList.mp hm)⟩

theorem not_concerns {env : Env} {fetches : Addr → Option Fetch} {el : Element} {e e' f : Addr}
    {eventName : String} {fs : List Addr} {n k : Nat} {r : Bool} {l : List Sent}
    (h : deliverAll env fetches el e' eventName fs n = ((r, l), k)) (hne : e' ≠ e) :
    l.filter (Sent.concerns f e) = [] := by
  rw [List.filter_eq_nil_iff]
  intro m hm hc
  obtain ⟨g, _, _, _, hg⟩ := deliverAll_about h m hm
  rw [Sent.concerns, decide_eq_true_iff, hg] at hc
  cases hc
  exact hne rfl

theorem removeElements_silent {env : Env} {es : List Addr} {b b' : Broker T} {u : Unit} {e : Addr}
    (he : e ∉ es) (h : Prog.each (removeElement env) es b = some (u, b')) :
    ∃ new, b'.sent = b.sent ++ new ∧ ∀ f, new.filter (Sent.concerns f e) = [] := by
  induction es generalizing b with
  | nil =>
    obtain ⟨_, rfl⟩ := Prog.pure_some h
    exact ⟨[], (List.append_nil _).symm, fun _ => rfl⟩
  | cons a es ih =>
    obtain ⟨hne, he⟩ := not_or.mp fun h => he (List.mem_cons.mpr h)
    obtain ⟨_, b1, h1, h2⟩ := Prog.bind_some h
    obtain ⟨el', ok, l, n, hel', hl, rfl⟩ := removeElement_some h1
    obtain ⟨new, h3, h4⟩ := ih he h2
    refine ⟨l ++ new, by rw [h3, List.append_assoc], fun f => ?_⟩
    rw [List.filter_append, h4, not_concerns hl fun e1 => hne e1.symm]
    rfl

/-- the elements of a peer go away one after the other, each with its notifications -/
theorem removeElements_notify {env : Env} {es : List Addr} {b b' : Broker T} {u : Unit} {e : Addr} {el : Element}
    (hn : es.Nodup) (he : e ∈ es) (hel : b.elements e = some el)
    (h : Prog.each (removeElement env) es b = some (u, b')) :
    ∃ n r l k new, deliverAll env b.fetches el e "remove" (Slots.entries el.fetcherTable) n = ((r, l), k) ∧
      b'.sent = b.sent ++ new ∧ ∀ f, new.filter (Sent.concerns f e) = l.filter (Sent.concerns f e) := by
  induction es generalizing b with
  | nil => cases he
  | cons a es ih =>
    obtain ⟨ha, hn⟩ := List.nodup_cons.mp hn
    obtain ⟨_, b1, h1, h2⟩ := Prog.bind_some h
    obtain ⟨el', ok, l, n, hel', hl, rfl⟩ := removeElement_some h1
    by_cases e1 : a = e
    · subst e1
      obtain rfl := Option.some.inj (hel.symm.trans hel')
      obtain ⟨new, h3, h4⟩ := removeElements_silent ha h2
      refine ⟨b.calls, ok, l, n, l ++ new, hl, by rw [h3, List.append_assoc], fun f => ?_⟩
      rw [List.filter_append, h4, List.append_nil]
    · have hmem : e ∈ es := (List.mem_cons.mp he).resolve_left fun e2 => e1 e2.symm
      have hel1 : Function.update b.elements a none e = some el := by
        rw [Function.update_of_ne fun e2 => e1 e2.symm]
        exact hel
      obtain ⟨n', r, l', k, new, h3, h4, h5⟩ := ih hn hmem hel1 h2
      refine ⟨n', r, l', k, l ++ new, h3, by rw [h4, List.append_assoc], fun f => ?_⟩
      rw [List.filter_append, h5, not_concerns hl e1, List.nil_append]

/-! ## events -/

/-- The event notifies the fetches `fs` of the element `el` at `e`.  The fetches of a peer that goes
away go away before its elements. -/
inductive Notifies (b : Broker T) : Event → Addr → Element → String → List Addr → Prop
  | change (p : Addr) (request : Json) (e : Addr) (el : Element) (value : Json)
      (hm : request.HasMethod "change") (h : ChangeAccepted b p request e el value) :
    Notifies b (.rpc p request) e (el.withValue value) "change" (Slots.entries el.fetcherTable)
  | remove (p : Addr) (request params : Json) (path : String) (e : Addr) (el : Element)
      (hm : request.HasMethod "remove") (hpp : getParamsAndPath request = .ok (params, path))
      (he : findElement b p path = some e) (hel : b.elements e = some el) :
    Notifies b (.rpc p request) e el "remove" (Slots.entries el.fetcherTable)
  | disconnect (p e : Addr) (el : Element) (he : e ∈ b.elementList p) (hel : b.elements e = some el) :
    Notifies b (.disconnect p) e el "remove"
      ((Slots.entries el.fetcherTable).filter fun f => decide (f ∉ b.fetchList p))

/-- `l` holds, for each fetch, the messages that notifying `fs` of the element sends it -/
def TriedFor (b : Broker T) (ok : Addr → Bool) (el : Element) (e : Addr) (eventName : String)
    (fs : List Addr) (l : List Sent) : Prop :=
  ∀ f, l.filter (Sent.concerns f e)
    = ((Prog.tried ok fs).filterMap fun f => b.sentNote ok el e f eventName).filter (Sent.concerns f e)

/-- messages that are not notifications do not matter -/
theorem TriedFor.append {b : Broker T} {ok : Addr → Bool} {el : Element} {e : Addr} {eventName : String}
    {fs : List Addr} {l xs ys : List Sent} (h : TriedFor b ok el e eventName fs l)
    (hx : ∀ m ∈ xs, m.about.isNotification = false) (hy : ∀ m ∈ ys, m.about.isNotification = false) :
    TriedFor b ok el e eventName fs (xs ++ (l ++ ys)) := by
  have silent : ∀ zs : List Sent, (∀ m ∈ zs, m.about.isNotification = false) →
      ∀ f, zs.filter (Sent.concerns f e) = [] := fun zs hz f => by
    rw [List.filter_eq_nil_iff]
    intro m hm hc
    have hn := hz m hm
    rw [Sent.concerns, decide_eq_true_iff] at hc
    rw [hc] at hn
    cases hn
  intro f
  rw [List.filter_append, List.filter_append, silent xs hx, silent ys hy, List.nil_append, List.append_nil]
  exact h f

section
variable {env : Env} {b b' : Broker T} {ok : Addr → Bool} {e : Addr}

theorem change_tried (ha : env.AllocOk) (hok : env.SendsTo e ok) (hS : b.toStore.Sound) {p : Addr}
    {request : Json} {el : Element} {value : Json} {res : Response}
    (h : ChangeAccepted b p request e el value) (h1 : changeState env p request b = some (res, b')) :
    ∃ l, b'.sent = b.sent ++ l ∧
      TriedFor b ok (el.withValue value) e "change" (Slots.entries el.fetcherTable) l := by
  have hcase := changeState_some h1
  cases hcase with
  | rejected json n hno =>
    have := hno e el value h
    rw [ha _ _ rfl] at this
    cases this
  | replaced json e' el' value' r l n n' h' hdup hl =>
    obtain ⟨rfl, rfl, rfl⟩ := h.unique h'
    obtain ⟨path, _, _, hel, _⟩ := h
    refine ⟨l, rfl, fun f => ?_⟩
    rw [deliverAll_tried ha hok (hS.live_entries hel) hl]

theorem remove_tried (ha : env.AllocOk) (hok : env.SendsTo e ok) (hS : b.toStore.Sound) {p : Addr}
    {request params : Json} {path : String} {el : Element} {res : Response}
    (hpp : getParamsAndPath request = .ok (params, path)) (he : findElement b p path = some e)
    (hel : b.elements e = some el) (h1 : removeElementFromPeer env p request b = some (res, b')) :
    ∃ l, b'.sent = b.sent ++ l ∧ TriedFor b ok el e "remove" (Slots.entries el.fetcherTable) l := by
  unfold removeElementFromPeer at h1
  rw [hpp] at h1
  obtain ⟨o, b1, h2, h3⟩ := Prog.bind_some h1
  obtain ⟨ho, rfl⟩ := Prog.read_some h2
  rw [he] at ho
  subst ho
  obtain ⟨_, b2, h4, h5⟩ := Prog.bind_some h3
  obtain ⟨json, n, rfl, rfl⟩ := successResponse_some h5
  obtain ⟨el', r, l, k, hel', hl, rfl⟩ := removeElement_some h4
  obtain rfl := Option.some.inj (hel.symm.trans hel')
  refine ⟨l, rfl, fun f => ?_⟩
  rw [deliverAll_tried ha hok (hS.live_entries hel) hl]

theorem disconnect_tried (ha : env.AllocOk) (hok : env.SendsTo e ok) (hS : b.toStore.Sound) {p : Addr}
    {el : Element} (hp : p ∈ b.peerList) (he : e ∈ b.elementList p) (hel : b.elements e = some el)
    (h1 : freePeerResources env p b = some ((), b')) :
    ∃ l, b'.sent = b.sent ++ l ∧ TriedFor b ok el e "remove"
      ((Slots.entries el.fetcherTable).filter fun f => decide (f ∉ b.fetchList p)) l := by
  obtain ⟨b2, b3, b4, r2, h3, h4, rfl⟩ := freePeerResources_some h1
  obtain ⟨l2, hl2, hquiet⟩ := r2.sent
  have hS2 : b2.toStore.Sound := by
    rw [r2.store]
    exact hS
  have hp2 : p ∈ b2.peerList := by
    rw [congrArg Store.peerList r2.store]
    exact hp
  have hlist : b2.fetchList p = b.fetchList p := congrFun (congrArg Store.fetchList r2.store) p
  have hfetches : b2.fetches = b.fetches := congrArg Store.fetches r2.store
  have hel2 : b2.elements e = some el := by
    rw [congrArg Store.elements r2.store]
    exact hel
  have hnodup := hS2.fetches.nodup p hp2
  obtain ⟨c3, p3, el3, f3⟩ := removeFetches_chain (fun _ _ => True) env hS2 hp2 hnodup (fun f hf => hf) h3
  obtain ⟨s3, g3, k3⟩ := removeFetches_left env hS2 hp2 hnodup (fun f hf => hf) h3
  have hS3 := sound_chain hS2 c3
  obtain ⟨table, hel3, htable⟩ := k3 e el hel2
  have he3 : e ∈ b3.elementList p := by
    rw [el3, congrArg Store.elementList r2.store]
    exact he
  have hp3 : p ∈ b3.peerList := by
    rw [p3]
    exact hp2
  obtain ⟨n, r, l, k, new, hl, h5, h6⟩ :=
    removeElements_notify (hS3.elements.nodup p hp3) he3 hel3 h4
  have hl := deliverAll_tried ha hok (hS3.live_entries hel3) hl
  rw [hlist] at htable
  refine ⟨l2 ++ (new ++ []), ?_, TriedFor.append (fun f => ?_) (fun m hm => (hquiet m hm).1) (by simp)⟩
  · show b4.sent = _
    rw [h5, s3, hl2, List.append_nil, List.append_assoc]
  · rw [h6, hl]
    show ((Prog.tried ok (Slots.entries table)).filterMap _).filter _ = _
    rw [htable]
    refine congrArg _ (List.filterMap_congr fun g hg => ?_)
    have hg' := (List.mem_filter.mp ((Prog.tried_sublist _ _).subset hg)).2
    have hsame : b3.fetches g = b.fetches g := by
      rw [g3 g (by rw [hlist]; exact of_decide_eq_true hg'), hfetches]
    unfold Broker.sentNote Broker.note
    rw [hsame]
    rfl

theorem notifies_tried (ha : env.AllocOk) (hok : env.SendsTo e ok) (hS : b.toStore.Sound) {event : Event}
    {el : Element} {eventName : String} {fs : List Addr} (hn : Notifies b event e el eventName fs)
    (h : Stepped env b event b') : ∃ l, b'.sent = b.sent ++ l ∧ TriedFor b ok el e eventName fs l := by
  have quiet : ∀ {b1 b2 : Broker T} {res : Response} {ret : Bool} {p : Addr} {l : List Sent},
      b1.sent = b.sent ++ l → sendResponse env p res.json b1 = some (ret, b2) →
      TriedFor b ok el e eventName fs l →
      ∃ l, b2.sent = b.sent ++ l ∧ TriedFor b ok el e eventName fs l := by
    intro b1 b2 res ret p l h1 h2 ht
    obtain ⟨_, n, l', rfl, _, hm⟩ := sendResponse_some h2
    refine ⟨[] ++ (l ++ l'), ?_, ht.append (by simp) fun m hml => ?_⟩
    · show b1.sent ++ l' = _
      rw [h1, List.append_assoc, List.nil_append]
    · rw [(hm m hml).2.1]
      rfl
  cases hn with
  | change p request e el value hm hacc =>
    obtain ⟨_, res, ret, b1, b2, h1, h2, rfl⟩ := stepped_method env hm h
    rw [handleMethod_change] at h1
    obtain ⟨l, h3, h4⟩ := change_tried ha hok hS hacc h1
    obtain ⟨l', h5, h6⟩ := quiet h3 h2 h4
    exact ⟨l', h5, h6⟩
  | remove p request params path e el hm hpp he hel =>
    obtain ⟨_, res, ret, b1, b2, h1, h2, rfl⟩ := stepped_method env hm h
    rw [handleMethod_remove] at h1
    obtain ⟨l, h3, h4⟩ := remove_tried ha hok hS hpp he hel h1
    obtain ⟨l', h5, h6⟩ := quiet h3 h2 h4
    exact ⟨l', h5, h6⟩
  | disconnect p e el he hel =>
    cases h with
    | disconnected _ b1 hp h1 => exact disconnect_tried ha hok hS hp he hel h1

end

/-- the fetches that are notified are alive, and each stands once in the list -/
theorem Notifies.fetches {b : Broker T} (hS : b.toStore.Sound) {event : Event} {e : Addr} {el : Element}
    {eventName : String} {fs : List Addr} (hn : Notifies b event e el eventName fs) :
    fs.Nodup ∧ ∀ f ∈ fs, ∃ ft id, b.fetches f = some ft ∧ ft.fetchId = some id := by
  cases hn with
  | change p request e el value hm hacc =>
    obtain ⟨path, _, _, hel, _⟩ := hacc
    exact ⟨(hS.tables e el hel).1, hS.live_entries hel⟩
  | remove p request params path e el hm hpp he hel => exact ⟨(hS.tables e _ hel).1, hS.live_entries hel⟩
  | disconnect p e el he hel =>
    exact ⟨(hS.tables e _ hel).1.filter _, fun f hf => hS.live_entries hel f (List.mem_filter.mp hf).1⟩

theorem Notifies.calls {b : Broker T} {event : Event} {e : Addr} {el : Element} {eventName : String}
    {fs : List Addr} (hn : Notifies b event e el eventName fs) (n : Nat) :
    Notifies { b with calls := n } event e el eventName fs := by
  cases hn with
  | change p request e el value hm h => exact .change p request e el value hm h
  | remove p request params path e el hm hpp he hel => exact .remove p request params path e el hm hpp he hel
  | disconnect p e el he hel => exact .disconnect p e el he hel

/-- In a step that notifies the fetches of an element, every fetch that can be sent to is notified once
exactly where none of these stands behind one that cannot be sent to. -/
theorem notification_isolation_iff {platform : Platform} {b b' : Broker T} {i : Input}
    (hr : b.Reachable platform) (ha : (i.env platform).AllocOk) {e : Addr} {el : Element} {eventName : String}
    {fs : List Addr} (hn : Notifies b i.event e el eventName fs) {ok : Addr → Bool}
    (hok : (i.env platform).SendsTo e ok) (hs : step platform b i = some b') :
    (∀ f ∈ fs, ok f = true → NotifiedOnce b el e eventName (b'.sent.drop b.sent.length) f) ↔
      fs.Pairwise fun f g => ok g = true → ok f = true := by
  have hS := sound_reachable hr
  obtain ⟨hnodup, hlive⟩ := hn.fetches hS
  have hS0 : ({ b with calls := 0 } : Broker T).toStore.Sound := hS
  obtain ⟨l, hl, ht⟩ := notifies_tried ha hok hS0 (hn.calls 0) (step_cases hs)
  have hl : b'.sent = b.sent ++ l := hl
  rw [hl, List.drop_left]
  exact notifiedOnce_iff hnodup hlive ht

end

/-! ## two subscribers -/

/-- the element and the value of a change request, if it is accepted -/
def acceptedChange {T : Type} [HashTable T] (b : Broker T) (p : Addr) (request : Json) :
    Option (Addr × Element × Json) :=
  match getPathAndValue request with
  | .error _ => none
  | .ok (path, value) =>
    (HashTable.get b.elementTable path).bind fun e => (b.elements e).bind fun el =>
      match checkChange p el path with
      | .error _ => none
      | .ok () => some (e, el, value)

theorem changeAccepted_of_some {T : Type} [HashTable T] {b : Broker T} {p : Addr} {request : Json} {e : Addr}
    {el : Element} {value : Json} (h : acceptedChange b p request = some (e, el, value)) :
    ChangeAccepted b p request e el value := by
  unfold acceptedChange at h
  cases hpv : getPathAndValue request with
  | error err => rw [hpv] at h; cases h
  | ok pv =>
    obtain ⟨path, value'⟩ := pv
    rw [hpv] at h
    obtain ⟨e', he, h⟩ := Option.bind_eq_some_iff.mp h
    obtain ⟨el', hel, h⟩ := Option.bind_eq_some_iff.mp h
    cases hc : checkChange p el' path with
    | error err => rw [hc] at h; cases h
    | ok u =>
      rw [hc] at h
      cases h
      exact ⟨path, hpv, he, hel, hc⟩

/-- Peer 1 adds the state "a", and peers 2 and 3 fetch everything. -/
def twoSubscribers : List Event :=
  [.connect 1 .websocket true, .connect 2 .websocket true, .connect 3 .websocket true,
   .rpc 1 (.request none "add" [("path", .str "a"), ("value", .bool true)]),
   .rpc 2 (.request none "fetch" [("id", .str "f")]), .rpc 3 (.request none "fetch" [("id", .str "f")])]

def changeRequest : Json := .request none "change" [("path", .str "a"), ("value", .bool false)]

theorem changeRequest_method : changeRequest.HasMethod "change" := by
  have h : changeRequest = .obj [("method", .str "change"),
    ("params", .obj [("path", .str "a"), ("value", .bool false)])] := rfl
  rw [Json.HasMethod, h]
  exact Json.getObjectItem_first (by decide) _ _

/-- only the messages for the fetches that `ok` names can be sent -/
def Outcomes.sending (ok : Addr → Bool) : Outcomes where
  ok call _ := match call with
    | .sendMessage _ (.notification f _) _ => ok f
    | _ => true
  random _ := 0
  wrote _ n := some n

theorem sending_allocOk (platform : Platform) (ok : Addr → Bool) (e : Event) :
    (Input.env platform ⟨Outcomes.sending ok, e⟩).AllocOk := fun c n hc => by
  cases c with
  | sendMessage p about msg => cases hc
  | _ => rfl

/-- the run before the change, what the change does, and what is computed of both -/
theorem twoSubscribers_change (ok : Addr → Bool) (c : Broker SlotTable → Broker SlotTable → Bool)
    (h : (run (step Platform.small) (Broker.start (T := SlotTable) Platform.small.config none none [])
      (twoSubscribers.map Event.good)).any (fun b =>
        (acceptedChange b 1 changeRequest).any (fun x => x.1 == 0 && Slots.entries x.2.1.fetcherTable == [1, 2]) &&
        (step Platform.small b ⟨Outcomes.sending ok, .rpc 1 changeRequest⟩).any (c b)) = true) :
    ∃ b el value b', run (step Platform.small) (Broker.start (T := SlotTable) Platform.small.config none none [])
        (twoSubscribers.map Event.good) = some b ∧
      Notifies b (.rpc 1 changeRequest) 0 (Element.withValue el value) "change" [1, 2] ∧
      step Platform.small b ⟨Outcomes.sending ok, .rpc 1 changeRequest⟩ = some b' ∧ c b b' = true := by
  obtain ⟨b, hb, hc⟩ := Option.any_eq_true _ _ |>.mp h
  obtain ⟨h1, h2⟩ := Bool.and_eq_true _ _ |>.mp hc
  obtain ⟨⟨e, el, value⟩, h3, h4⟩ := Option.any_eq_true _ _ |>.mp h1
  obtain ⟨b', h5, h6⟩ := Option.any_eq_true _ _ |>.mp h2
  simp only [Bool.and_eq_true, beq_iff_eq] at h4
  obtain ⟨rfl, h7⟩ := h4
  refine ⟨b, el, value, b', hb, ?_, h5, h6⟩
  rw [← h7]
  exact .change 1 changeRequest 0 el value changeRequest_method (changeAccepted_of_some h3)

theorem twoSubscribers_isolation : ∃ (b b' : Broker SlotTable) (el : Element), b.Reachable Platform.small ∧
    step Platform.small b ⟨Outcomes.sending fun _ => true, .rpc 1 changeRequest⟩ = some b' ∧
    ∀ f ∈ [1, 2], NotifiedOnce b el 0 "change" (b'.sent.drop b.sent.length) f := by
  obtain ⟨b, el, value, b', hb, hn, hs, _⟩ :=
    twoSubscribers_change (fun _ => true) (fun _ _ => true) (by decide +kernel)
  have hr : b.Reachable Platform.small := ⟨_, _, isStart_start _ none none [], hb⟩
  have hok : (Input.env Platform.small ⟨Outcomes.sending fun _ => true, .rpc 1 changeRequest⟩).SendsTo 0
    fun _ => true := fun _ _ _ _ => rfl
  have hiff := notification_isolation_iff hr (sending_allocOk _ _ _) hn hok hs
  exact ⟨b, b', _, hr, hs, fun f hf => hiff.mpr (by simp) f hf rfl⟩

/-- Where the message of peer 2 cannot be sent peer 3 is not told of the change. -/
theorem twoSubscribers_missed :
    ¬ ∀ (b b' : Broker SlotTable) i e el eventName fs ok, b.Reachable Platform.small →
      (i.env Platform.small).AllocOk → Notifies b i.event e el eventName fs →
      (i.env Platform.small).SendsTo e ok → step Platform.small b i = some b' →
      ∀ f ∈ fs, ok f = true → NotifiedOnce b el e eventName (b'.sent.drop b.sent.length) f := by
  intro hall
  obtain ⟨b, el, value, b', hb, hn, hs, hc⟩ := twoSubscribers_change (fun f => f != 1)
    (fun b b' => ((b'.sent.drop b.sent.length).filter (Sent.concerns 2 0)).isEmpty) (by decide +kernel)
  have hr : b.Reachable Platform.small := ⟨_, _, isStart_start _ none none [], hb⟩
  obtain ⟨ft, id, _, _, h⟩ := hall b b' ⟨Outcomes.sending fun f => f != 1, .rpc 1 changeRequest⟩ 0 _ "change"
    [1, 2] (fun f => f != 1) hr (sending_allocOk _ _ _) hn (fun _ _ _ _ => rfl) hs 2 (by simp) rfl
  rw [h] at hc
  cases hc

end Cjet
