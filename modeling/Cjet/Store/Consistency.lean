import Cjet.Store.Chain

/-!
# The table of all elements and the lists of the owners agree

In every state that a run reaches the table of all elements, the lists of the peers and the elements
themselves say the same, and an element is changed or removed on behalf of its owner alone.

* `Consistent`     the two indexes and the elements;
* `ByOwner`        the events that may change the value of an element or remove it;
* `element_consistency`   the statement about runs.
-/

set_option linter.unusedVariables false
set_option linter.unusedSectionVars false

namespace Cjet
open Stateful Alloc

section
variable {T : Type} [HashTable T]

/-- `e` stands in the list of the peer `p`, once, and in no other list -/
def Store.OnlyInListOf (s : Store T) (e p : Addr) : Prop :=
  p ∈ s.peerList ∧ (s.elementList p).count e = 1 ∧ ∀ q ∈ s.peerList, q ≠ p → e ∉ s.elementList q

structure Store.Consistent (s : Store T) : Prop where
  /-- what the table finds is alive, has the path and stands in the list of its owner -/
  table : ∀ path e, HashTable.get s.elementTable path = some e ↔
    ∃ el, s.elements e = some el ∧ el.path = path ∧ s.OnlyInListOf e el.peer
  /-- the lists hold nothing else -/
  lists : ∀ p ∈ s.peerList, ∀ e ∈ s.elementList p, ∃ el, s.elements e = some el ∧ el.peer = p
  distinct : ∀ e e' el el', s.elements e = some el → s.elements e' = some el' → el.path = el'.path → e = e'

theorem Store.Sound.onlyInListOf {s : Store T} (h : s.Sound) {e : Addr} {el : Element} (he : s.elements e = some el) :
    s.OnlyInListOf e el.peer := by
  have howner : s.elementOwner e = some el.peer := by
    rw [Store.elementOwner, he]
    rfl
  obtain ⟨hp, hmem⟩ := h.elements.listed e el.peer howner
  refine ⟨hp, List.count_eq_one_of_mem (h.elements.nodup el.peer hp) hmem, fun q hq hne hq' => hne ?_⟩
  have hlive := h.elements.live q hq e hq'
  rw [howner] at hlive
  exact (Option.some.inj hlive).symm

theorem Store.Sound.consistent {s : Store T} (h : s.Sound) : s.Consistent where
  table path e := by
    rw [h.paths path e]
    constructor
    · rintro ⟨el, he, hp⟩
      exact ⟨el, he, hp, h.onlyInListOf he⟩
    · rintro ⟨el, he, hp, _⟩
      exact ⟨el, he, hp⟩
  lists p hp e he := h.element_of_mem hp he
  distinct e e' el el' he he' hp := h.eq_of_path he he' hp

/-! ## what becomes of an element -/

/-- the element is still there, perhaps with other subscriptions -/
def StillThere (b b' : Broker T) (e : Addr) (el : Element) : Prop :=
  ∃ table, b'.elements e = some { el with fetcherTable := table }

/-- all elements are still there, except perhaps elements of `p` -/
def KeepsOthers (p : Addr) (b b' : Broker T) : Prop :=
  ∀ e el, b.elements e = some el → el.peer ≠ p → StillThere b b' e el

instance (p : Addr) : IsPreorder (Broker T) (KeepsOthers p) where
  refl b e el he _ := ⟨el.fetcherTable, he⟩
  trans b b1 b2 h1 h2 e el he hp := by
    obtain ⟨table, he1⟩ := h1 e el he hp
    obtain ⟨table2, he2⟩ := h2 e _ he1 hp
    exact ⟨table2, he2⟩

theorem StillThere.of_eq {b b' : Broker T} {e : Addr} {el : Element} (he : b.elements e = some el)
    (h : b'.elements e = b.elements e) : StillThere b b' e el := ⟨el.fetcherTable, h.trans he⟩

variable {env : Env}

/-- a new element does not touch the others -/
theorem stillThere_add {b b' : Broker T} {p : Addr} {request : Json} {res : Response} (hS : b.toStore.Sound)
    (h : AddElement env b p request res b') {e : Addr} {el : Element} (he : b.elements e = some el) :
    StillThere b b' e el := by
  have hne : e ≠ b.fresh := fun e1 => by
    rw [e1, (hS.unused b.fresh (Nat.le_refl _)).1] at he
    cases he
  refine StillThere.of_eq he ?_
  cases h with
  | rejected json n => rfl
  | notNotified json el' n n' b1 hacc h1 =>
    obtain ⟨sub, table, l, k, hE, rfl⟩ := enterNewElement h1
    simp only [Broker.withElement, Function.update_of_ne hne]
  | full json el' n n' b1 hacc h1 hput =>
    obtain ⟨sub, table, l, k, hE, rfl⟩ := enterNewElement h1
    simp only [Broker.withElement, Function.update_of_ne hne]
  | added json el' n n' b1 hacc h1 hput =>
    obtain ⟨sub, table, l, k, hE, rfl⟩ := enterNewElement h1
    simp only [Broker.withElement, Function.update_of_ne hne]

/-- a new fetch changes tables of subscriptions alone -/
theorem stillThere_fetch {b b' : Broker T} {p : Addr} {request : Json} {res : Response} (hS : b.toStore.Sound)
    (h : ProcessFetch env b p request res b') {e : Addr} {el : Element} (he : b.elements e = some el) :
    StillThere b b' e el := by
  cases h with
  | rejected json n h => exact .of_eq he rfl
  | fetched json ft ok n n' b1 h h1 =>
    obtain ⟨sub, elements, l, k, hE, rfl⟩ := enterElements hS.nodup_allElements h1
    by_cases hm : e ∈ sub
    · obtain ⟨el', table, h2, h3, _⟩ := hE.entries e hm
      have e1 : some el = some el' := he.symm.trans h2
      obtain rfl := Option.some.inj e1
      exact ⟨table, h3⟩
    · exact .of_eq he (hE.others e hm)

theorem stillThere_removeFetch {b b' : Broker T} {p f : Addr} {u : Unit} (h : removeFetch p f b = some (u, b'))
    {e : Addr} {el : Element} (he : b.elements e = some el) : StillThere b b' e el := by
  obtain ⟨b1, ⟨elements, rfl, hE⟩, rfl⟩ := removeFetch_some h
  have h1 := hE e
  by_cases hm : e ∈ b.peerList.flatMap b.elementList
  · rw [if_pos hm, he] at h1
    exact ⟨_, h1⟩
  · rw [if_neg hm] at h1
    exact .of_eq he h1

/-- a request of `p` changes the value of an element of its own at most, with change or remove -/
theorem handled_keepsOthers {b b' : Broker T} {p : Addr} {request : Json} {res : Response} (hS : b.toStore.Sound)
    (hp : p ∈ b.peerList) (h : Handled env b p request res b') {e : Addr} {el : Element}
    (he : b.elements e = some el) :
    StillThere b b' e el ∨ el.peer = p ∧ (request.HasMethod "change" ∨ request.HasMethod "remove") := by
  cases h with
  | change hm h =>
    cases h with
    | rejected json n h => exact Or.inl (.of_eq he rfl)
    | replaced json e' el' value ok l n n' h hok hl =>
      by_cases e1 : e = e'
      · subst e1
        have howner := ChangeAccepted.peer h
        obtain ⟨_, _, _, hel, _⟩ := h
        have e2 : some el = some el' := he.symm.trans hel
        obtain rfl := Option.some.inj e2
        exact Or.inr ⟨howner, Or.inl hm⟩
      · exact Or.inl (.of_eq he (Function.update_of_ne e1 _ _))
  | add hm h => exact Or.inl (stillThere_add hS h he)
  | remove hm h =>
    rcases removeElementFromPeer_some h with ⟨json, n, _, rfl⟩ | ⟨params, path, e', b1, json, n, _, hfind, h1, _, rfl⟩
    · exact Or.inl (.of_eq he rfl)
    · obtain ⟨el', hel, _, h2, _⟩ := removeElement_step (fun _ _ => True) h1
      by_cases e1 : e = e'
      · subst e1
        obtain ⟨el2, hel2, hpeer⟩ := hS.element_of_mem hp (findElement_some hfind).1
        have e2 : some el = some el2 := he.symm.trans hel2
        obtain rfl := Option.some.inj e2
        exact Or.inr ⟨hpeer, Or.inr hm⟩
      · refine Or.inl (.of_eq he ?_)
        show b1.elements e = _
        rw [h2, Function.update_of_ne e1]
  | fetch hm h => exact Or.inl (stillThere_fetch hS h he)
  | unfetch hm h =>
    rcases removeFetchFromPeer_some h with ⟨json, n, _, rfl⟩ | ⟨f, b1, json, n, hf, h1, _, rfl⟩
    · exact Or.inl (.of_eq he rfl)
    · exact Or.inl (stillThere_removeFetch h1 he)
  | authenticate hm h =>
    cases h with
    | rejected json n h => exact Or.inl (.of_eq he rfl)
    | accepted json n user auth h => exact Or.inl (.of_eq he rfl)
  | passwd hm h =>
    have hstore := (bystander_handleChangePassword p request b res b' h).store
    exact Or.inl (.of_eq he (congrFun (congrArg Store.elements hstore) e))
  | other hm h hu => exact Or.inl (.of_eq he (congrFun (congrArg Store.elements h.store) e))

/-- the elements that go away with `p` are its own -/
theorem freePeerResources_keepsOthers {b b' : Broker T} {p : Addr} {u : Unit} (hS : b.toStore.Sound)
    (hp : p ∈ b.peerList) (h : freePeerResources env p b = some (u, b')) : KeepsOthers p b b' := by
  obtain ⟨b2, b3, b4, r2, h3, h4, rfl⟩ := freePeerResources_some h
  have hS2 : b2.toStore.Sound := by
    rw [r2.store]
    exact hS
  have hp2 : p ∈ b2.peerList := by
    rw [congrArg Store.peerList r2.store]
    exact hp
  have k3 : KeepsOthers p b2 b3 := Does.each (E := KeepsOthers p) (b2.fetchList p) (fun f _ s a t h e el he _ =>
    stillThere_removeFetch h he) b2 () b3 h3
  obtain ⟨c3, p3, l3, _⟩ := removeFetches_chain (fun _ _ => True) env hS2 hp2 (hS2.fetches.nodup p hp2)
    (fun f hf => hf) h3
  have hS3 := sound_chain hS2 c3
  obtain ⟨_, _, _, e4⟩ := removeElements_chain (fun _ _ => True) hS3 h4
  have k4 : KeepsOthers p b3 b4 := fun e el he hne => by
    refine .of_eq he ?_
    rw [e4, if_neg fun hm => ?_]
    obtain ⟨el', hel', hpeer⟩ := hS3.element_of_mem (by rw [p3]; exact hp2) hm
    have e1 : some el = some el' := he.symm.trans hel'
    obtain rfl := Option.some.inj e1
    exact hne hpeer
  have k2 : KeepsOthers p b b2 := fun e el he _ => .of_eq he (by rw [r2.store])
  exact trans_of (KeepsOthers p) k2 (trans_of (KeepsOthers p) k3 k4)

/-! ## runs -/

/-- the owner of the element asks for the change, or it goes away -/
def ByOwner (el : Element) (event : Event) : Prop :=
  (∃ request, event = .rpc el.peer request ∧ (request.HasMethod "change" ∨ request.HasMethod "remove")) ∨
    event = .disconnect el.peer

theorem stepped_byOwner {b b' : Broker T} {event : Event} (hS : b.toStore.Sound) (h : Stepped env b event b')
    {e : Addr} {el : Element} (he : b.elements e = some el) : StillThere b b' e el ∨ ByOwner el event := by
  cases h with
  | notConnected p connection isLocal n => exact Or.inl (.of_eq he rfl)
  | connected p connection isLocal n hp => exact Or.inl (.of_eq he rfl)
  | answered p request res ret b1 b2 hp hr h1 h2 =>
    obtain ⟨_, n, l, rfl, _, _⟩ := sendResponse_some h2
    rcases handled_keepsOthers hS hp (handlerOf_some h1) he with ⟨table, h3⟩ | ⟨hpeer, hm⟩
    · exact Or.inl ⟨table, h3⟩
    · exact Or.inr (Or.inl ⟨request, by rw [hpeer], hm⟩)
  | response p request response resultType ret b1 hp hr h1 =>
    have hstore := (does_handleRoutingResponse env request response resultType p b ret b1 h1).store
    exact Or.inl (.of_eq he (congrFun (congrArg Store.elements hstore) e))
  | timeout r b1 ht h1 =>
    have hstore := (does_requestTimeoutHandler env r b () _ h1).store
    exact Or.inl (.of_eq he (congrFun (congrArg Store.elements hstore) e))
  | disconnected p b1 hp h1 =>
    by_cases hpeer : el.peer = p
    · exact Or.inr (Or.inr (by rw [hpeer]))
    · exact Or.inl (freePeerResources_keepsOthers hS hp h1 e el he hpeer)

theorem notMem_of_disconnect {b b' : Broker T} {p : Addr} (hS : b.toStore.Sound)
    (h : Stepped env b (.disconnect p) b') : p ∉ b'.peerList := by
  cases h with
  | disconnected _ _ hp h1 =>
    obtain ⟨b2, b3, b4, r2, h3, h4, rfl⟩ := freePeerResources_some h1
    have hS2 : b2.toStore.Sound := by
      rw [r2.store]
      exact hS
    have hp2 : p ∈ b2.peerList := by
      rw [congrArg Store.peerList r2.store]
      exact hp
    obtain ⟨c3, p3, l3, _⟩ := removeFetches_chain (fun _ _ => True) env hS2 hp2 (hS2.fetches.nodup p hp2)
      (fun f hf => hf) h3
    obtain ⟨_, p4, _, _⟩ := removeElements_chain (fun _ _ => True) (sound_chain hS2 c3) h4
    have hnodup : b4.peerList.Nodup := by
      rw [p4, p3]
      exact hS2.peers
    exact fun hm => (hnodup.mem_erase_iff.mp hm).1 rfl

/-- what holds of the elements in a state, and what a step from there may do to them -/
structure ElementStore (platform : Platform) (b : Broker T) : Prop where
  consistent : b.toStore.Consistent
  /-- the value changes, or the element goes away, only on behalf of its owner -/
  byOwner : ∀ i b', step platform b i = some b' → ∀ e el, b.elements e = some el →
    (∃ table, b'.elements e = some { el with fetcherTable := table }) ∨ ByOwner el i.event
  /-- nothing of a peer is left when it is gone -/
  disconnected : ∀ i b' p, step platform b i = some b' → i.event = .disconnect p → ∀ path e,
    HashTable.get b'.elementTable path = some e → ∃ el, b'.elements e = some el ∧ el.peer ≠ p

variable {platform : Platform}

/-- In every state that a run reaches, whatever fails in the run, the indexes agree. -/
theorem element_consistency {s b : Broker T} {l : List Input} (h0 : s.IsStart platform)
    (h : run (step platform) s l = some b) : ElementStore platform b := by
  have hS := sound_run h0 h
  have hS0 : ({ b with calls := 0 } : Broker T).toStore.Sound := hS
  refine ⟨hS.consistent, fun i b' hs e el he => stepped_byOwner hS0 (step_cases hs) he, ?_⟩
  intro i b' p hs hi path e hget
  have hS' := sound_step hS hs
  obtain ⟨el, hel, _⟩ := (hS'.paths path e).mp hget
  refine ⟨el, hel, fun e1 => ?_⟩
  have hstep := step_cases hs
  rw [hi] at hstep
  refine notMem_of_disconnect hS0 hstep ?_
  rw [← e1]
  exact hS'.peer_mem hel

end

/-- two states are added, one of them with malformed groups; the other one is changed, and its owner goes away -/
def addAndLeave : List Input :=
  [.connect 1 .websocket true, .connect 2 .websocket true,
   .rpc 1 (.request (some (.num 1)) "add" [("path", .str "x"), ("value", .num 1)]),
   .rpc 2 (.request (some (.num 2)) "add"
     [("path", .str "y"), ("value", .num 1), ("access", .obj [("fetchGroups", .str "g")])]),
   .rpc 1 (.request (some (.num 3)) "change" [("path", .str "x"), ("value", .num 2)]),
   .disconnect 1].map Event.good

theorem addAndLeave_consistent : ∃ b : Broker SlotTable,
    run (step Platform.small) (Broker.start Platform.small.config none none []) addAndLeave = some b ∧
      ElementStore Platform.small b := by
  have hrun : (run (step Platform.small) (Broker.start (T := SlotTable) Platform.small.config none none [])
      addAndLeave).isSome = true := by decide +kernel
  obtain ⟨b, hb⟩ := Option.isSome_iff_exists.mp hrun
  exact ⟨b, hb, element_consistency (isStart_start _ _ _ []) hb⟩

end Cjet
