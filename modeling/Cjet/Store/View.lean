import Cjet.Lib.Replica
import Cjet.Store.Relation

/-!
# What a subscriber sees

A peer that replays the notifications it is sent for one of its fetches holds a replica of the
elements that match: path and value of each of them.  This is so in runs in which sends and
allocations succeed, as long as no element is refused that a fetch has been notified of.

* `readNotification`   a notification as an event for a replica;
* `Viewed`             the replicas show the elements;
* `view_consistency`   the replicas in every state that such a run reaches;
* `fullTable_inconsistent`   an element is refused because the table of all elements is full.
-/

set_option linter.unusedVariables false
set_option linter.unusedSectionVars false

namespace Cjet
open Stateful Alloc

/-! ## reading notifications -/

/-- a replica maps paths to values; a method has no value -/
abbrev Replica := String → Option (Option Json)

def readNotification (msg : Json) : Option (Replica.Event String (Option Json)) :=
  (msg.getObjectItem "params").bind fun params =>
    match params.getObjectItem "path", params.getObjectItem "event" with
    | some (.str path), some (.str event) =>
      if event = "add" then some (.add path (params.getObjectItem "value"))
      else if event = "change" then some (.change path (params.getObjectItem "value"))
      else if event = "remove" then some (.remove path)
      else none
    | _, _ => none

theorem readNotification_members (el : Element) (id : Json) (eventName : String) :
    ∃ params, (notification el id eventName).getObjectItem "params" = some params ∧
      params.getObjectItem "path" = some (.str el.path) ∧
      params.getObjectItem "event" = some (.str eventName) ∧ params.getObjectItem "value" = el.value := by
  have members : ∀ (rest : List (String × Json)) {name : String}, sameKey name "fetchOnly" = false →
      (Json.obj ((if el.flags &&& 1 = 1 then [("fetchOnly", .bool true)] else []) ++ rest)).getObjectItem name
        = (Json.obj rest).getObjectItem name := fun rest name hname => by
    by_cases hf : el.flags &&& 1 = 1
    · rw [if_pos hf]
      exact Json.getObjectItem_later hname _ _
    · rw [if_neg hf, List.nil_append]
  unfold notification
  rw [List.append_assoc]
  refine ⟨_, (Json.getObjectItem_later (by decide) _ _).trans (Json.getObjectItem_first (by decide) _ _), ?_, ?_, ?_⟩
  · rw [members _ (by decide)]
    exact Json.getObjectItem_first (by decide) _ _
  · rw [members _ (by decide)]
    exact (Json.getObjectItem_later (by decide) _ _).trans (Json.getObjectItem_first (by decide) _ _)
  · rw [members _ (by decide)]
    refine (Json.getObjectItem_later (by decide) _ _).trans ((Json.getObjectItem_later (by decide) _ _).trans ?_)
    cases el.value with
    | none => rfl
    | some v => exact Json.getObjectItem_first (by decide) _ _

theorem readNotification_eq (el : Element) (id : Json) (eventName : String) :
    readNotification (notification el id eventName)
      = if eventName = "add" then some (.add el.path el.value)
        else if eventName = "change" then some (.change el.path el.value)
        else if eventName = "remove" then some (.remove el.path) else none := by
  obtain ⟨params, h1, h2, h3, h4⟩ := readNotification_members el id eventName
  unfold readNotification
  rw [h1, Option.bind_some, h2, h3, h4]

theorem readNotification_add (el : Element) (id : Json) :
    readNotification (notification el id "add") = some (.add el.path el.value) := readNotification_eq ..
theorem readNotification_change (el : Element) (id : Json) :
    readNotification (notification el id "change") = some (.change el.path el.value) :=
  readNotification_eq ..
theorem readNotification_remove (el : Element) (id : Json) :
    readNotification (notification el id "remove") = some (.remove el.path) := readNotification_eq ..

/-! ## the messages for one fetch -/

/-- is it a notification for the fetch `f`, sent to `p`? -/
def isFor (p f : Addr) (c : Addr × About × Json) : Bool :=
  c.1 == p && match c.2.1 with
    | .notification f' _ => f' == f
    | _ => false

def textsFor (p f : Addr) (cs : List (Addr × About × Json)) : List Json :=
  (cs.filter (isFor p f)).map fun c => c.2.2

/-- the notifications for the fetch `f` that were sent to `p`, in order -/
def messagesFor (p f : Addr) (l : List Sent) : List Json := textsFor p f (l.map Sent.content)

theorem textsFor_append (p f : Addr) (cs ds : List (Addr × About × Json)) :
    textsFor p f (cs ++ ds) = textsFor p f cs ++ textsFor p f ds := by
  simp [textsFor]

theorem messagesFor_append (p f : Addr) (l m : List Sent) :
    messagesFor p f (l ++ m) = messagesFor p f l ++ messagesFor p f m := by
  unfold messagesFor
  rw [List.map_append, textsFor_append]

theorem textsFor_eq_nil {p f : Addr} {cs : List (Addr × About × Json)}
    (h : ∀ c ∈ cs, isFor p f c = false) : textsFor p f cs = [] := by
  unfold textsFor
  rw [List.filter_eq_nil_iff.mpr fun c hc => by simp [h c hc], List.map_nil]

theorem messagesFor_silent {p f : Addr} {l : List Sent} (h : ∀ m ∈ l, m.about.isNotification = false) :
    messagesFor p f l = [] := by
  refine textsFor_eq_nil fun c hc => ?_
  obtain ⟨m, hm, rfl⟩ := List.mem_map.mp hc
  have hn := h m hm
  unfold isFor Sent.content
  cases ha : m.about with
  | notification f' e => rw [ha] at hn; cases hn
  | _ => exact Bool.and_false _

section
variable {T : Type} [HashTable T]

theorem note_about {b : Broker T} {el : Element} {e f : Addr} {eventName : String}
    {c : Addr × About × Json} (h : b.note el e f eventName = some c) : c.2.1 = .notification f e := by
  unfold Broker.note at h
  obtain ⟨ft, _, h2⟩ := Option.bind_eq_some_iff.mp h
  obtain ⟨id, _, rfl⟩ := Option.map_eq_some_iff.mp h2
  rfl

theorem isFor_other {b : Broker T} {el : Element} {e f f' p : Addr} {eventName : String}
    {c : Addr × About × Json} (h : b.note el e f' eventName = some c) (hne : f' ≠ f) :
    isFor p f c = false := by
  unfold isFor
  rw [note_about h]
  simp [hne]

theorem textsFor_notMem {b : Broker T} {el : Element} {e f p : Addr} {eventName : String}
    {fs : List Addr} (hf : f ∉ fs) : textsFor p f (fs.filterMap fun f' => b.note el e f' eventName) = [] := by
  refine textsFor_eq_nil fun c hc => ?_
  obtain ⟨f', hf', hc⟩ := List.mem_filterMap.mp hc
  exact isFor_other hc fun e => hf (by rwa [← e])

/-- of notifications to different fetches each fetch gets its own -/
theorem textsFor_fetches {b : Broker T} {el : Element} {e f : Addr} {eventName : String}
    {fs : List Addr} {ft : Fetch} {id : Json} (hn : fs.Nodup) (hft : b.fetches f = some ft)
    (hid : ft.fetchId = some id) :
    textsFor ft.peer f (fs.filterMap fun f' => b.note el e f' eventName)
      = if f ∈ fs then [notification el id eventName] else [] := by
  by_cases hf : f ∈ fs
  · rw [if_pos hf]
    obtain ⟨xs, ys, rfl⟩ := List.append_of_mem hf
    have hx : f ∉ xs := fun h => List.disjoint_of_nodup_append hn h List.mem_cons_self
    have hy : f ∉ ys := (List.nodup_cons.mp hn.of_append_right).1
    rw [List.filterMap_append, List.filterMap_cons, note_some hft hid, textsFor_append,
      textsFor_notMem hx, List.nil_append]
    have hcons : ∀ c cs, textsFor ft.peer f (c :: cs) = textsFor ft.peer f [c] ++ textsFor ft.peer f cs :=
      fun c cs => textsFor_append _ _ [c] cs
    rw [hcons, textsFor_notMem hy]
    simp [textsFor, isFor]
  · rw [if_neg hf, textsFor_notMem hf]

/-- the notifications of one fetch about many elements -/
theorem textsFor_elements {b : Broker T} {f : Addr} {eventName : String} {es : List Addr} {ft : Fetch}
    {id : Json} (hft : b.fetches f = some ft) (hid : ft.fetchId = some id) :
    textsFor ft.peer f (es.filterMap fun e => (b.elements e).bind fun el => b.note el e f eventName)
      = (es.filterMap b.elements).map fun el => notification el id eventName := by
  induction es with
  | nil => rfl
  | cons e es ih =>
    rw [List.filterMap_cons, List.filterMap_cons]
    cases b.elements e with
    | none => exact ih
    | some el =>
      rw [Option.bind_some, note_some hft hid]
      have hcons := textsFor_append ft.peer f [(ft.peer, .notification f e, notification el id eventName)]
        (es.filterMap fun e => (b.elements e).bind fun el => b.note el e f eventName)
      rw [List.singleton_append] at hcons
      show textsFor ft.peer f (_ :: _) = _
      rw [hcons, ih, List.map_cons]
      simp [textsFor, isFor]

theorem textsFor_elements_other {b : Broker T} {f f' p : Addr} {eventName : String} {es : List Addr}
    (hne : f' ≠ f) :
    textsFor p f (es.filterMap fun e => (b.elements e).bind fun el => b.note el e f' eventName) = [] := by
  refine textsFor_eq_nil fun c hc => ?_
  obtain ⟨e, he, hc⟩ := List.mem_filterMap.mp hc
  obtain ⟨el, _, hc⟩ := Option.bind_eq_some_iff.mp hc
  exact isFor_other hc hne

/-- a change or a removal is notified to all fetches in the table -/
theorem deliverAll_works {env : Env} (ha : env.AllocOk) (hs : env.SendOk) {b : Broker T} {el : Element}
    {e : Addr} {eventName : String} {fs : List Addr}
    (hlive : ∀ f ∈ fs, ∃ ft id, b.fetches f = some ft ∧ ft.fetchId = some id) {n k : Nat} {ok : Bool}
    {l : List Sent} (h : deliverAll env b.fetches el e eventName fs n = ((ok, l), k)) :
    l.map Sent.content = fs.filterMap fun f => b.note el e f eventName := by
  have hok : env.SendsTo e fun _ => true := fun _ _ _ _ => hs _ _ rfl
  rw [deliverAll_tried ha hok hlive h, Prog.tried_of_all fun _ _ => rfl, List.map_filterMap]
  refine List.filterMap_congr fun f _ => ?_
  unfold Broker.sentNote
  rw [Option.map_map]
  exact Option.map_id'

/-! ## views -/

/-- what the peer of a fetch sees of an element: its value, or nothing -/
def Broker.seen (b : Broker T) (ft : Fetch) (x : Option Element) : Option (Option Json) :=
  x.bind fun el => if wants b.toAccounts el ft = some true then some el.value else none

/-- the replica shows the elements that the fetch wants, with their values -/
def IsView (b : Broker T) (ft : Fetch) (m : Replica) : Prop :=
  ∀ path v, m path = some v ↔
    ∃ e el, b.elements e = some el ∧ el.path = path ∧ wants b.toAccounts el ft = some true ∧ el.value = v

theorem seen_eq {b : Broker T} {ft : Fetch} {x : Option Element} {v : Option Json} :
    b.seen ft x = some v ↔ ∃ el, x = some el ∧ wants b.toAccounts el ft = some true ∧ el.value = v := by
  cases x with
  | none => exact ⟨fun h => (by cases h), fun ⟨el, h, _⟩ => (by cases h)⟩
  | some el =>
    show (if wants b.toAccounts el ft = some true then some el.value else none) = some v ↔ _
    by_cases hw : wants b.toAccounts el ft = some true
    · rw [if_pos hw]
      constructor
      · intro h
        exact ⟨el, rfl, hw, Option.some.inj h⟩
      · rintro ⟨el', h1, _, rfl⟩
        rw [Option.some.inj h1]
    · rw [if_neg hw]
      constructor
      · intro h
        cases h
      · rintro ⟨el', h1, h2, _⟩
        rw [← Option.some.inj h1] at h2
        exact absurd h2 hw

/-- what of an element decides who sees it and what -/
def Element.shown (el : Element) : String × Option Json × GroupSet := (el.path, el.value, el.fetchGroups)

theorem IsView.congr {b b' : Broker T} {ft : Fetch} {m : Replica} (h : IsView b ft m)
    (he : ∀ e, (b'.elements e).map Element.shown = (b.elements e).map Element.shown)
    (ha : b'.allGroups = b.allGroups) (hg : b'.fetchGroups ft.peer = b.fetchGroups ft.peer) :
    IsView b' ft m := by
  have transfer : ∀ (c c' : Broker T) (path : String) (v : Option Json),
      (∀ e, (c'.elements e).map Element.shown = (c.elements e).map Element.shown) →
      c'.allGroups = c.allGroups → c'.fetchGroups ft.peer = c.fetchGroups ft.peer →
      (∃ e el, c.elements e = some el ∧ el.path = path ∧ wants c.toAccounts el ft = some true ∧ el.value = v) →
      ∃ e el, c'.elements e = some el ∧ el.path = path ∧ wants c'.toAccounts el ft = some true ∧ el.value = v := by
    rintro c c' path v he ha hg ⟨e, el, hel, rfl, hw, rfl⟩
    have h1 := he e
    rw [hel] at h1
    obtain ⟨el', hel', hs⟩ := Option.map_eq_some_iff.mp h1
    obtain ⟨h2, h3⟩ := Prod.mk.inj hs
    obtain ⟨h3, h4⟩ := Prod.mk.inj h3
    exact ⟨e, el', hel', h2, (wants_congr ha hg h2 h4).trans hw, h3⟩
  intro path v
  rw [h path v]
  exact ⟨transfer b b' path v he ha hg,
    transfer b' b path v (fun e => (he e).symm) ha.symm hg.symm⟩

/-- The view after the element at `e`, the only one with its path, became `x`. -/
theorem IsView.update {b b' : Broker T} {ft : Fetch} {m : Replica} (h : IsView b ft m) {e : Addr}
    {x : Option Element} {path : String} (he : b'.elements = Function.update b.elements e x)
    (ha : b'.allGroups = b.allGroups) (hg : b'.fetchGroups ft.peer = b.fetchGroups ft.peer)
    (hold : ∀ a el, b.elements a = some el → (el.path = path ↔ a = e))
    (hnew : ∀ el, x = some el → el.path = path) :
    IsView b' ft (Function.update m path (b.seen ft x)) := by
  have hw : ∀ el : Element, wants b'.toAccounts el ft = wants b.toAccounts el ft := fun el =>
    wants_congr ha hg rfl rfl
  intro p v
  rw [he]
  by_cases hp : p = path
  · rw [hp, Function.update_self, seen_eq]
    constructor
    · rintro ⟨el, hel, h1, h2⟩
      exact ⟨e, el, by rw [Function.update_self]; exact hel, hnew el hel, (hw el).trans h1, h2⟩
    · rintro ⟨a, el, hel, h1, h2, h3⟩
      by_cases ea : a = e
      · rw [ea, Function.update_self] at hel
        exact ⟨el, hel, (hw el).symm.trans h2, h3⟩
      · rw [Function.update_of_ne ea] at hel
        exact absurd ((hold a el hel).mp h1) ea
  · rw [Function.update_of_ne hp, h p v]
    constructor
    · rintro ⟨a, el, hel, h1, h2, h3⟩
      have ea : a ≠ e := fun ea => hp (h1.symm.trans ((hold a el hel).mpr ea))
      exact ⟨a, el, by rw [Function.update_of_ne ea]; exact hel, h1, (hw el).trans h2, h3⟩
    · rintro ⟨a, el, hel, h1, h2, h3⟩
      have ea : a ≠ e := fun ea => by
        rw [ea, Function.update_self] at hel
        exact hp (h1.symm.trans (hnew el hel))
      rw [Function.update_of_ne ea] at hel
      exact ⟨a, el, hel, h1, (hw el).symm.trans h2, h3⟩

theorem IsView.lookup {b : Broker T} {ft : Fetch} {m : Replica} (h : IsView b ft m) {e : Addr}
    {path : String} (hold : ∀ a el, b.elements a = some el → (el.path = path ↔ a = e)) :
    m path = b.seen ft (b.elements e) := by
  refine Option.ext fun v => ?_
  rw [h, seen_eq]
  constructor
  · rintro ⟨a, el, hel, hp, h1, h2⟩
    rw [(hold a el hel).mp hp] at hel
    exact ⟨el, hel, h1, h2⟩
  · rintro ⟨el, hel, h1, h2⟩
    exact ⟨e, el, hel, (hold e el hel).mpr rfl, h1, h2⟩

/-! ## the replicas of all fetches -/

/-- what the messages for a fetch make of an empty replica -/
def Broker.replica (b : Broker T) (p f : Addr) : Option Replica :=
  Replica.replay readNotification (fun _ => none) (messagesFor p f b.sent)

structure Viewed (b : Broker T) : Prop where
  inStep : InStep b
  views : ∀ f ft, b.fetches f = some ft → ∃ m, b.replica ft.peer f = some m ∧ IsView b ft m
  unsent : ∀ p f, b.fresh ≤ f → messagesFor p f b.sent = []

theorem messagesFor_sent {b b' : Broker T} {l : List Sent} (h : b'.sent = b.sent ++ l) (p f : Addr) :
    messagesFor p f b'.sent = messagesFor p f b.sent ++ textsFor p f (l.map Sent.content) := by
  rw [h, messagesFor_append]
  rfl

/-- a fetch that is told of nothing still has its view -/
theorem view_kept {b b' : Broker T} {f : Addr} {ft : Fetch}
    (hm : messagesFor ft.peer f b'.sent = messagesFor ft.peer f b.sent)
    (he : ∀ e, (b'.elements e).map Element.shown = (b.elements e).map Element.shown)
    (ha : b'.allGroups = b.allGroups) (hg : b'.fetchGroups ft.peer = b.fetchGroups ft.peer)
    (h : ∃ m, b.replica ft.peer f = some m ∧ IsView b ft m) :
    ∃ m, b'.replica ft.peer f = some m ∧ IsView b' ft m := by
  obtain ⟨m, h1, h2⟩ := h
  refine ⟨m, ?_, h2.congr he ha hg⟩
  unfold Broker.replica
  rw [hm]
  exact h1

/-- One element becomes `x`, and the fetches in `fs` are told. -/
theorem view_updated {b b' : Broker T} {f : Addr} {ft : Fetch} {fs : List Addr} {msg : Json} {e : Addr}
    {x : Option Element} {path : String}
    (hm : messagesFor ft.peer f b'.sent = messagesFor ft.peer f b.sent ++ if f ∈ fs then [msg] else [])
    (he : b'.elements = Function.update b.elements e x)
    (ha : b'.allGroups = b.allGroups) (hg : b'.fetchGroups ft.peer = b.fetchGroups ft.peer)
    (hold : ∀ a el, b.elements a = some el → (el.path = path ↔ a = e))
    (hnew : ∀ el, x = some el → el.path = path)
    (htold : f ∈ fs → ∃ event, readNotification msg = some event ∧ ∀ m : Replica,
      m path = b.seen ft (b.elements e) → Replica.apply m event = some (Function.update m path (b.seen ft x)))
    (hnot : f ∉ fs → b.seen ft (b.elements e) = b.seen ft x)
    (h : ∃ m, b.replica ft.peer f = some m ∧ IsView b ft m) :
    ∃ m, b'.replica ft.peer f = some m ∧ IsView b' ft m := by
  obtain ⟨m, h1, h2⟩ := h
  have hlookup := h2.lookup hold
  refine ⟨_, ?_, h2.update he ha hg hold hnew⟩
  unfold Broker.replica
  rw [hm]
  by_cases hf : f ∈ fs
  · obtain ⟨event, h3, h4⟩ := htold hf
    rw [if_pos hf]
    exact Replica.replay_snoc readNotification h1 h3 (h4 m hlookup)
  · rw [if_neg hf, List.append_nil, ← hnot hf, ← hlookup, Function.update_eq_self]
    exact h1

theorem InStep.mem_iff {b : Broker T} (h : InStep b) {e f : Addr} {el : Element} {ft : Fetch}
    (hel : b.elements e = some el) (hft : b.fetches f = some ft) :
    f ∈ Slots.entries el.fetcherTable ↔ wants b.toAccounts el ft = some true := by
  have hcount := h e el f ft hel hft
  rw [← List.count_pos_iff, hcount]
  by_cases hw : wants b.toAccounts el ft = some true
  · rw [if_pos hw]
    exact ⟨fun _ => hw, fun _ => Nat.one_pos⟩
  · rw [if_neg hw]
    exact ⟨fun h => absurd h (Nat.lt_irrefl 0), fun h => absurd h hw⟩

theorem seen_wanted {b : Broker T} {ft : Fetch} {el : Element} (h : wants b.toAccounts el ft = some true) :
    b.seen ft (some el) = some el.value := if_pos h

theorem seen_unwanted {b : Broker T} {ft : Fetch} {el : Element} (h : wants b.toAccounts el ft ≠ some true) :
    b.seen ft (some el) = none := if_neg h

theorem wants_withValue (a : Accounts) (el : Element) (value : Json) (ft : Fetch) :
    wants a (el.withValue value) ft = wants a el ft := rfl

/-- a fetch that is not there is told of nothing -/
theorem textsFor_dead {b : Broker T} {el : Element} {e f p : Addr} {eventName : String} {fs : List Addr}
    (h : b.fetches f = none) : textsFor p f (fs.filterMap fun f' => b.note el e f' eventName) = [] := by
  refine textsFor_eq_nil fun c hc => ?_
  obtain ⟨f', hf', hc⟩ := List.mem_filterMap.mp hc
  refine isFor_other hc fun e1 => ?_
  unfold Broker.note at hc
  rw [e1, h] at hc
  cases hc

/-! ## every change keeps the views -/

/-- nobody is told of anything, and nothing is to be told -/
theorem viewed_quiet {b b' : Broker T} (h : Viewed b) (hI : InStep b')
    (hm : ∀ p f, messagesFor p f b'.sent = messagesFor p f b.sent)
    (he : ∀ e, (b'.elements e).map Element.shown = (b.elements e).map Element.shown)
    (ha : b'.allGroups = b.allGroups)
    (hf : ∀ f ft, b'.fetches f = some ft →
      b.fetches f = some ft ∧ b'.fetchGroups ft.peer = b.fetchGroups ft.peer)
    (hfresh : b.fresh ≤ b'.fresh) : Viewed b' := by
  refine ⟨hI, fun f ft hft => ?_, fun p f hle => ?_⟩
  · obtain ⟨h1, h2⟩ := hf f ft hft
    exact view_kept (hm ft.peer f) he ha h2 (h.views f ft h1)
  · rw [hm]
    exact h.unsent p f (Nat.le_trans hfresh hle)

/-- one element becomes `x`, and the fetches in `fs` are told of it -/
theorem viewed_noted {b b' : Broker T} (hS : b.toStore.Sound) (h : Viewed b) (hI : InStep b') (e : Addr)
    (x : Option Element) (path : String) {el : Element} {eventName : String} {fs : List Addr} {l : List Sent}
    (hn : fs.Nodup) (hs : b'.sent = b.sent ++ l)
    (hl : l.map Sent.content = fs.filterMap fun f => b.note el e f eventName)
    (he : b'.elements = Function.update b.elements e x) (hf : b'.fetches = b.fetches)
    (ha : b'.toAccounts = b.toAccounts) (hfresh : b.fresh ≤ b'.fresh)
    (hold : ∀ a el, b.elements a = some el → (el.path = path ↔ a = e))
    (hnew : ∀ el, x = some el → el.path = path)
    (htold : ∀ f ft, b.fetches f = some ft → f ∈ fs → ∃ event,
      (∀ id, readNotification (notification el id eventName) = some event) ∧ ∀ m : Replica,
        m path = b.seen ft (b.elements e) → Replica.apply m event = some (Function.update m path (b.seen ft x)))
    (hnot : ∀ f ft, b.fetches f = some ft → f ∉ fs → b.seen ft (b.elements e) = b.seen ft x) :
    Viewed b' := by
  refine ⟨hI, fun f ft hft => ?_, fun p f hle => ?_⟩
  · rw [hf] at hft
    obtain ⟨id, hid⟩ := Option.isSome_iff_exists.mp (hS.ids f ft hft)
    have hm : messagesFor ft.peer f b'.sent = messagesFor ft.peer f b.sent
        ++ if f ∈ fs then [notification el id eventName] else [] := by
      rw [messagesFor_sent hs, hl, textsFor_fetches hn hft hid]
    refine view_updated hm he (congrArg Accounts.allGroups ha)
      (congrFun (congrArg Accounts.fetchGroups ha) ft.peer) hold hnew (fun hmem => ?_) (hnot f ft hft)
      (h.views f ft hft)
    obtain ⟨event, h1, h2⟩ := htold f ft hft hmem
    exact ⟨event, h1 id, h2⟩
  · have hle' : b.fresh ≤ f := Nat.le_trans hfresh hle
    rw [messagesFor_sent hs, hl, textsFor_dead (hS.unused f hle').2, List.append_nil]
    exact h.unsent p f hle'

/-- the table of all elements takes the element, or no fetch wants it -/
def AddTaken (b : Broker T) (el : Element) : Prop :=
  (HashTable.put b.elementTable el.path b.fresh).1 = true ∨
    ∀ f ft, b.fetches f = some ft → wants b.toAccounts el ft ≠ some true

theorem messagesFor_same {b b' : Broker T} (h : b'.sent = b.sent) (p f : Addr) :
    messagesFor p f b'.sent = messagesFor p f b.sent := by rw [h]

section
variable {env : Env} {b b' : Broker T}

theorem wanted_withElement {el : Element} {k : Nat} {f : Addr} {ft : Fetch} (hft : b.fetches f = some ft) :
    (b.withElement el k).wanted b.fresh f = true ↔ wants b.toAccounts el ft = some true := by
  have hself : (b.withElement el k).elements b.fresh = some el := Function.update_self ..
  have hft' : (b.withElement el k).fetches f = some ft := hft
  exact wanted_iff hself hft'

theorem viewed_added (ha : env.AllocOk) (hS : b.toStore.Sound) (h : Viewed b) {p : Addr} {el : Element}
    {sub : List Addr} {table : List (Option Addr)} {l : List Sent} {n k : Nat}
    (hpath : HashTable.get b.elementTable el.path = none)
    (hE : EnteredFetches env b.fresh el b.allFetches sub table l (b.withElement el k) true)
    (hI : InStep (b.added p { el with fetcherTable := table } l n)) :
    Viewed (b.added p { el with fetcherTable := table } l n) := by
  have hfree := (hS.unused b.fresh (Nat.le_refl _)).1
  have hsub := hE.all rfl
  have hmem : ∀ f ft, b.fetches f = some ft → (f ∈ sub ↔ wants b.toAccounts el ft = some true) :=
    fun f ft hft => by
      have hall : f ∈ b.allFetches := (hS.mem_allFetches f).mpr (Option.isSome_iff_exists.mpr ⟨ft, hft⟩)
      rw [hsub, List.mem_filter, wanted_withElement hft]
      exact ⟨fun h => h.2, fun h => ⟨hall, h⟩⟩
  have hseen : ∀ ft : Fetch, b.seen ft (some { el with fetcherTable := table }) = b.seen ft (some el) :=
    fun ft => rfl
  refine viewed_noted hS h hI b.fresh (some { el with fetcherTable := table }) el.path (hE.sublist.nodup
    hS.nodup_allFetches) rfl (hE.sent ha) rfl rfl rfl (Nat.le_succ _) ?_ ?_ ?_ ?_
  · intro a el' hel'
    constructor
    · intro hp
      have := (hS.paths el.path a).mpr ⟨el', hel', hp⟩
      rw [hpath] at this
      cases this
    · intro e1
      rw [e1, hfree] at hel'
      cases hel'
  · rintro el' h1
    rw [← Option.some.inj h1]
  · intro f ft hft hf
    refine ⟨.add el.path el.value, fun id => readNotification_add el id, fun m hm => ?_⟩
    rw [hfree] at hm
    rw [hseen, seen_wanted ((hmem f ft hft).mp hf)]
    exact Replica.apply_add hm _
  · intro f ft hft hf
    rw [hseen, seen_unwanted fun hw => hf ((hmem f ft hft).mpr hw), hfree]
    rfl

theorem viewed_refused (ha : env.AllocOk) (hs : env.SendOk) (hS : b.toStore.Sound) (h : Viewed b) {el : Element}
    {sub : List Addr} {table : List (Option Addr)} {l : List Sent} {k : Nat} {ok : Bool}
    (hfull : ok = true → (HashTable.put b.elementTable el.path b.fresh).1 = false) (hR : AddTaken b el)
    (hE : EnteredFetches env b.fresh el b.allFetches sub table l (b.withElement el k) ok)
    (hI : InStep b') (hsent : b'.sent = b.sent ++ l) (he : b'.elements = b.elements)
    (hf : b'.fetches = b.fetches) (hacc : b'.toAccounts = b.toAccounts) (hfresh : b.fresh ≤ b'.fresh) :
    Viewed b' := by
  have hok : ok = true := hE.works ha hs fun f _ ft hft => hS.ids f ft hft
  have hunwanted : ∀ f ft, b.fetches f = some ft → wants b.toAccounts el ft ≠ some true := by
    rcases hR with hput | hR
    · rw [hfull hok] at hput
      cases hput
    · exact hR
  have hsub : sub = [] := by
    rw [hE.all hok, List.filter_eq_nil_iff]
    intro f hmem hw
    obtain ⟨ft, hft⟩ := Option.isSome_iff_exists.mp ((hS.mem_allFetches f).mp hmem)
    exact hunwanted f ft hft ((wanted_withElement hft).mp hw)
  have hl : l = [] := by
    have hcontent := hE.sent ha
    rw [hsub] at hcontent
    exact List.map_eq_nil_iff.mp hcontent
  rw [hl, List.append_nil] at hsent
  refine viewed_quiet h hI (messagesFor_same hsent) (fun e => by rw [he]) (congrArg Accounts.allGroups hacc)
    (fun f ft hft => ?_) hfresh
  rw [hf] at hft
  exact ⟨hft, congrFun (congrArg Accounts.fetchGroups hacc) ft.peer⟩

theorem path_iff (hS : b.toStore.Sound) {e : Addr} {el : Element} (hel : b.elements e = some el) :
    ∀ a el', b.elements a = some el' → (el'.path = el.path ↔ a = e) := fun a el' ha => by
  constructor
  · exact hS.eq_of_path ha hel
  · intro e1
    rw [e1, hel] at ha
    rw [Option.some.inj ha]

theorem viewed_changed (ha : env.AllocOk) (hs : env.SendOk) (hS : b.toStore.Sound) (h : Viewed b) {e : Addr}
    {el : Element} {value : Json} {ok : Bool} {l : List Sent} {k k' : Nat} (hel : b.elements e = some el)
    (hl : deliverAll env b.fetches (el.withValue value) e "change" (Slots.entries el.fetcherTable) k
      = ((ok, l), k'))
    (hI : InStep b') (hsent : b'.sent = b.sent ++ l)
    (he : b'.elements = Function.update b.elements e (some (el.withValue value)))
    (hf : b'.fetches = b.fetches) (hacc : b'.toAccounts = b.toAccounts) (hfresh : b.fresh ≤ b'.fresh) :
    Viewed b' := by
  have hcontent := deliverAll_works ha hs (hS.live_entries hel) hl
  refine viewed_noted hS h hI e (some (el.withValue value)) el.path (hS.tables e el hel).1 hsent hcontent he hf
    hacc hfresh (path_iff hS hel) ?_ ?_ ?_
  · rintro el' h1
    rw [← Option.some.inj h1]
    rfl
  · intro f ft hft hmem
    have hw := (h.inStep.mem_iff hel hft).mp hmem
    refine ⟨.change el.path (some value), fun id => readNotification_change (el.withValue value) id,
      fun m hm => ?_⟩
    rw [hel, seen_wanted hw] at hm
    rw [seen_wanted ((wants_withValue _ el value ft).trans hw)]
    exact Replica.apply_change hm _
  · intro f ft hft hmem
    have hw : wants b.toAccounts el ft ≠ some true := fun hw => hmem ((h.inStep.mem_iff hel hft).mpr hw)
    have hw' : wants b.toAccounts (el.withValue value) ft ≠ some true := hw
    rw [hel, seen_unwanted hw, seen_unwanted hw']

theorem viewed_removed (ha : env.AllocOk) (hs : env.SendOk) (hS : b.toStore.Sound) (h : Viewed b) {e : Addr}
    {el : Element} {ok : Bool} {l : List Sent} {n k : Nat} (hel : b.elements e = some el)
    (hl : deliverAll env b.fetches el e "remove" (Slots.entries el.fetcherTable) k = ((ok, l), n))
    (hI : InStep (b.removed e el l n)) : Viewed (b.removed e el l n) := by
  have hcontent := deliverAll_works ha hs (hS.live_entries hel) hl
  refine viewed_noted hS h hI e none el.path (hS.tables e el hel).1 rfl hcontent rfl rfl rfl (Nat.le_refl _)
    (path_iff hS hel) (fun el' h1 => by cases h1) ?_ ?_
  · intro f ft hft hmem
    have hw := (h.inStep.mem_iff hel hft).mp hmem
    refine ⟨.remove el.path, fun id => readNotification_remove el id, fun m hm => ?_⟩
    rw [hel, seen_wanted hw] at hm
    exact Replica.apply_remove hm
  · intro f ft hft hmem
    have hw : wants b.toAccounts el ft ≠ some true := fun hw => hmem ((h.inStep.mem_iff hel hft).mpr hw)
    rw [hel, seen_unwanted hw]
    rfl

theorem nodup_paths (hS : b.toStore.Sound) {es : List Addr} (hn : es.Nodup) :
    ((es.filterMap b.elements).map Element.path).Nodup := by
  rw [List.map_filterMap]
  refine hn.filterMap fun e e' path h1 h2 => ?_
  obtain ⟨el, hel, hp⟩ := Option.map_eq_some_iff.mp h1
  obtain ⟨el', hel', hp'⟩ := Option.map_eq_some_iff.mp h2
  exact hS.eq_of_path hel hel' (hp.trans hp'.symm)

/-- a new fetch is told of all elements it wants -/
theorem view_fetched (ha : env.AllocOk) (hS : b.toStore.Sound) (h : Viewed b) {p : Addr} {ft : Fetch}
    {sub : List Addr} {elements : Addr → Option Element} {l : List Sent} {k : Nat} {id : Json}
    (hpeer : ft.peer = p) (hid : ft.fetchId = some id)
    (hE : EnteredElements env b.fresh b.allElements sub elements l (b.withFetch p ft k) true)
    (hsent : b'.sent = b.sent ++ l) :
    ∃ m, b'.replica ft.peer b.fresh = some m ∧ IsView (b.withFetch p ft k) ft m := by
  have hself : (b.withFetch p ft k).fetches b.fresh = some ft := Function.update_self ..
  have htexts : textsFor ft.peer b.fresh (l.map Sent.content)
      = (sub.filterMap b.elements).map fun el => notification el id "add" := by
    rw [hE.sent ha]
    exact textsFor_elements (b := b.withFetch p ft k) hself hid
  have hsub : ∀ e, e ∈ sub ↔ ∃ el, b.elements e = some el ∧ wants b.toAccounts el ft = some true := fun e => by
    rw [hE.all rfl, List.mem_filter, hS.mem_allElements, Option.isSome_iff_exists]
    constructor
    · rintro ⟨⟨el, hel⟩, hw⟩
      have hel' : (b.withFetch p ft k).elements e = some el := hel
      exact ⟨el, hel, (wanted_iff hel' hself).mp hw⟩
    · rintro ⟨el, hel, hw⟩
      have hel' : (b.withFetch p ft k).elements e = some el := hel
      exact ⟨⟨el, hel⟩, (wanted_iff hel' hself).mpr hw⟩
  obtain ⟨m, h1, h2⟩ := Replica.replay_adds readNotification (m := fun _ => none)
    (fun el _ => readNotification_add el id) (nodup_paths hS (hE.sublist.nodup hS.nodup_allElements))
    (fun _ _ => rfl)
  refine ⟨m, ?_, fun path v => ?_⟩
  · unfold Broker.replica
    rw [messagesFor_sent hsent, h.unsent _ _ (Nat.le_refl _), List.nil_append, htexts]
    exact h1
  · rw [h2]
    constructor
    · rintro (h3 | ⟨el, hmem, h4, h5⟩)
      · cases h3
      · obtain ⟨e, he, hel⟩ := List.mem_filterMap.mp hmem
        obtain ⟨el', hel', hw⟩ := (hsub e).mp he
        obtain rfl := Option.some.inj (hel.symm.trans hel')
        exact ⟨e, el, hel, h4, hw, h5⟩
    · rintro ⟨e, el, hel, h4, hw, h5⟩
      have hel : b.elements e = some el := hel
      exact Or.inr ⟨el, List.mem_filterMap.mpr ⟨e, (hsub e).mpr ⟨el, hel, hw⟩, hel⟩, h4, h5⟩

theorem viewed_fetched (ha : env.AllocOk) (hs : env.SendOk) (hS : b.toStore.Sound) (h : Viewed b) {p : Addr}
    {ft : Fetch} {sub : List Addr} {elements : Addr → Option Element} {l : List Sent} {n k : Nat} {ok : Bool}
    (hpeer : ft.peer = p) (hid : ft.fetchId.isSome = true)
    (hE : EnteredElements env b.fresh b.allElements sub elements l (b.withFetch p ft k) ok)
    (hI : InStep { b.withFetch p ft n with elements := elements, sent := b.sent ++ l }) :
    Viewed { b.withFetch p ft n with elements := elements, sent := b.sent ++ l } := by
  have hself : (b.withFetch p ft k).fetches b.fresh = some ft := Function.update_self ..
  have hok : ok = true := hE.works ha hs fun f hf ft' hft => by
    rw [List.mem_singleton.mp hf, hself] at hft
    rw [← Option.some.inj hft]
    exact hid
  subst hok
  have hshown : ∀ e, (elements e).map Element.shown = (b.elements e).map Element.shown := fun e => by
    by_cases hm : e ∈ sub
    · obtain ⟨el, table, h1, h2, _⟩ := hE.entries e hm
      have h1 : b.elements e = some el := h1
      rw [h1, h2]
      rfl
    · rw [hE.others e hm]
      rfl
  have hother : ∀ q f, f ≠ b.fresh → messagesFor q f (b.sent ++ l) = messagesFor q f b.sent := fun q f hne => by
    have hsent : ({ b with sent := b.sent ++ l } : Broker T).sent = b.sent ++ l := rfl
    have hnone : textsFor q f (sub.filterMap fun e => ((b.withFetch p ft k).elements e).bind fun el =>
        (b.withFetch p ft k).note el e b.fresh "add") = [] := textsFor_elements_other fun e => hne e.symm
    rw [← hsent, messagesFor_sent hsent, hE.sent ha, hnone, List.append_nil]
  refine ⟨hI, fun f ft' hft => ?_, fun q f hle => ?_⟩
  · have hft : Function.update b.fetches b.fresh (some ft) f = some ft' := hft
    by_cases e1 : f = b.fresh
    · rw [e1, Function.update_self] at hft
      obtain rfl := Option.some.inj hft
      obtain ⟨id, hid⟩ := Option.isSome_iff_exists.mp hid
      rw [e1]
      have hsent : ({ b.withFetch p ft n with elements := elements, sent := b.sent ++ l } : Broker T).sent
        = b.sent ++ l := rfl
      obtain ⟨m, h1, h2⟩ := view_fetched ha hS h hpeer hid hE hsent
      exact ⟨m, h1, h2.congr hshown rfl rfl⟩
    · rw [Function.update_of_ne e1] at hft
      exact view_kept (hother ft'.peer f e1) hshown rfl rfl (h.views f ft' hft)
  · have hle : b.fresh + 1 ≤ f := hle
    have hsame := hother q f (Nat.ne_of_gt hle)
    exact hsame.trans (h.unsent q f (Nat.le_of_succ_le hle))

end

theorem viewed_storeStep {env : Env} (ha : env.AllocOk) (hs : env.SendOk) :
    KeptByChanges AddTaken env (Viewed (T := T)) := by
  intro b b' hS h hstep
  have hI := inStep_storeStep ha hs b b' hS h.inStep hstep
  cases hstep with
  | idle _ hb =>
    obtain ⟨l, hl, hquiet⟩ := hb.sent
    refine viewed_quiet h hI (fun p f => ?_) (fun e => by rw [hb.store]) hb.allGroups (fun f ft hft => ?_) ?_
    · rw [hl, messagesFor_append, messagesFor_silent hquiet, List.append_nil]
    · rw [hb.store] at hft
      exact ⟨hft, congrFun hb.fetchGroups ft.peer⟩
    · rw [hb.store]
  | added p el sub table l n k hp hpeer hempty hpath hput hE => exact viewed_added ha hS h hpath hE hI
  | refused el sub table l n k ok elementTable hget hfull hR hE =>
    exact viewed_refused ha hs hS h hfull hR hE hI rfl rfl rfl rfl (Nat.le_succ _)
  | changed e el value ok l n k k' hel hl =>
    exact viewed_changed ha hs hS h hel hl hI rfl rfl rfl rfl (Nat.le_refl _)
  | removed e el ok l n k hel hl => exact viewed_removed ha hs hS h hel hl hI
  | fetched p ft sub elements l n k ok hp hpeer hid hE => exact viewed_fetched ha hs hS h hpeer hid hE hI
  | unfetched p f0 ft0 hf0 hpeer =>
    refine viewed_quiet h hI (messagesFor_same rfl) (fun e => ?_) rfl (fun f ft hft => ?_) (Nat.le_refl _)
    · show ((b.elements e).map fun el => el.without f0).map Element.shown = _
      rw [Option.map_map]
      rfl
    · have hft : Function.update b.fetches f0 none f = some ft := hft
      by_cases e1 : f = f0
      · rw [e1, Function.update_self] at hft
        cases hft
      · rw [Function.update_of_ne e1] at hft
        exact ⟨hft, rfl⟩
  | authenticated p auth userName n hf =>
    refine viewed_quiet h hI (messagesFor_same rfl) (fun e => rfl) rfl (fun f ft hft => ⟨hft, ?_⟩) (Nat.le_refl _)
    refine Function.update_of_ne (fun e => ?_) _ _
    have hmem := (hS.fetch_peer_mem hft).2
    rw [e, hf] at hmem
    cases hmem
  | connected p memory isLocal n hp =>
    refine viewed_quiet h hI (messagesFor_same rfl) (fun e => rfl) rfl (fun f ft hft => ⟨hft, ?_⟩) (Nat.le_refl _)
    refine Function.update_of_ne (fun e => ?_) _ _
    have hmem := (hS.fetch_peer_mem hft).1
    rw [e] at hmem
    exact hp hmem
  | disconnected p he hf =>
    exact viewed_quiet h hI (messagesFor_same rfl) (fun e => rfl) rfl (fun f ft hft => ⟨hft, rfl⟩) (Nat.le_refl _)

/-! ## runs -/

/-- Replaying the notifications for a fetch yields the elements that its peer has access to and its
matchers accept, each with its value. -/
def ViewConsistency (b : Broker T) : Prop :=
  ∀ p ∈ b.peerList, ∀ f ∈ b.fetchList p, ∀ ft, b.fetches f = some ft → ∃ m : Replica,
    Replica.replay readNotification (fun _ => none) (messagesFor p f b.sent) = some m ∧
      ∀ path v, m path = some v ↔ ∃ e el, b.elements e = some el ∧ el.path = path ∧
        hasAccess b.allGroups el.fetchGroups (b.fetchGroups p) = true ∧
        stateMatches el.path ft.matcher = some true ∧ el.value = v

theorem view_consistency {platform : Platform} {s b : Broker T} {l : List Input} (h0 : s.IsStart platform)
    (hc : Along (step platform) (fun b i => i.Works platform ∧
      RefusalsAllowed AddTaken (i.env platform) { b with calls := 0 } i.event) s l)
    (h : run (step platform) s l = some b) : ViewConsistency b := by
  have hS := sound_run h0 h
  have hV : Viewed b := by
    refine store_run AddTaken (fun b i hc => viewed_storeStep hc.1.1 hc.1.2) (fun b i hc => hc.2)
      (fun b n hI => ⟨hI.inStep.congr rfl rfl rfl fun _ _ _ => rfl, hI.views, hI.unsent⟩) h0 ?_ hc h
    obtain ⟨allGroups, userData, passwordFile, rfl⟩ := h0
    refine ⟨fun e el f ft hel => ?_, fun f ft hft => ?_, fun p f hle => rfl⟩
    · cases hel
    · cases hft
  intro p hp f hf ft hft
  obtain ⟨ft', hft', hpeer⟩ := hS.fetch_of_mem hp hf
  obtain rfl := Option.some.inj (hft.symm.trans hft')
  subst hpeer
  obtain ⟨m, h1, h2⟩ := hV.views f ft hft
  refine ⟨m, h1, fun path v => ?_⟩
  rw [h2]
  simp only [wants_iff, and_assoc]

end

/-! ## a full table -/

theorem put_of_free {t : SlotTable} (h : t.slots.any (·.isNone) = true) (k : String) (v : Nat) :
    (HashTable.put t k v).1 = true := by
  show (SlotTable.put t k v).1 = true
  unfold SlotTable.put
  by_cases h1 : (SlotTable.find k t.slots).isSome = true
  · rw [if_pos h1]
  · rw [if_neg h1, if_pos h]

theorem fetchedByOther_views : ∃ b : Broker SlotTable,
    run (step Platform.small) (Broker.start Platform.small.config none none [])
      (fetchedByOther.map Event.good) = some b ∧ ViewConsistency b := by
  have hrun : (run (step Platform.small) (Broker.start (T := SlotTable) Platform.small.config none none [])
      (fetchedByOther.map Event.good)).isSome = true := by decide +kernel
  obtain ⟨b, hb⟩ := Option.isSome_iff_exists.mp hrun
  refine ⟨b, hb, view_consistency (isStart_start _ none none []) ((works_along _ _ _).and ?_) hb⟩
  have hcheck : checkAlong (step Platform.small) (fun b _ => b.elementTable.slots.any (·.isNone))
      (Broker.start (T := SlotTable) Platform.small.config none none []) (fetchedByOther.map Event.good) = true := by
    decide +kernel
  exact Along.of_check (fun b i hfree p request el _ _ _ => Or.inl (put_of_free hfree _ _)) hcheck

/-- the path of the `n`-th element -/
def nthPath (n : Nat) : String := String.ofList (List.replicate n 'a')

/-- Peer 2 fetches everything, and peer 1 adds one state more than the table takes. -/
def fullTable : List Event :=
  [.connect 1 .websocket true, .connect 2 .websocket true,
   .rpc 2 (.request none "fetch" [("id", .str "f")])] ++
  (List.range 33).map fun n =>
    .rpc 1 (.request none "add" [("path", .str (nthPath n)), ("value", .bool true)])

/-- The element that the table does not take has been announced to peer 2 all the same. -/
theorem fullTable_inconsistent :
    ¬ ∀ (s : Broker SlotTable) l b, s.IsStart Platform.small →
      Along (step Platform.small) (fun _ i => i.Works Platform.small) s l →
      run (step Platform.small) s l = some b → ViewConsistency b := by
  intro hall
  have hrun : (run (step Platform.small) (Broker.start (T := SlotTable) Platform.small.config none none [])
      (fullTable.map Event.good)).any (fun b => b.peerList.contains 2 && (b.fetchList 2).contains 0 &&
        ((b.replica 2 0).bind fun m => m (nthPath 32)).isSome &&
        (HashTable.get b.elementTable (nthPath 32)).isNone) = true := by decide +kernel
  obtain ⟨b, hb, hc⟩ := Option.any_eq_true _ _ |>.mp hrun
  simp only [Bool.and_eq_true, List.contains_iff_mem, Option.isNone_iff_eq_none] at hc
  obtain ⟨⟨⟨h1, h2⟩, h3⟩, h4⟩ := hc
  have h0 := isStart_start (T := SlotTable) Platform.small none none []
  have hS := sound_run h0 hb
  obtain ⟨ft, hft, hpeer⟩ := hS.fetch_of_mem h1 h2
  obtain ⟨m, hm, hview⟩ := hall _ _ b h0 (works_along _ _ _) hb 2 h1 0 h2 ft hft
  have h3 : ((Replica.replay readNotification (fun _ => none) (messagesFor 2 0 b.sent)).bind
      fun m => m (nthPath 32)).isSome = true := h3
  rw [hm, Option.bind_some] at h3
  obtain ⟨v, hv⟩ := Option.isSome_iff_exists.mp h3
  obtain ⟨e, el, hel, hpath, _⟩ := (hview _ v).mp hv
  have hnone := (hS.paths (nthPath 32) e).mpr ⟨el, hel, hpath⟩
  rw [h4] at hnone
  cases hnone

end Cjet
