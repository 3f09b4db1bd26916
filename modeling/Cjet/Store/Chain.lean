import Mathlib.Logic.Relation
import Cjet.Route.Effect
import Cjet.Store.Sound

/-!
# The changes a step of the broker is made of

A request changes one element or one fetch; a disconnect unsubscribes and removes one object of the
peer after the other.  `StoreStep` is one such change, with the notifications it sends, and every
step of the broker is a chain of them.

* `StoreStep`, `sound_storeStep`   the changes, and that they keep the store well formed;
* `stepped_chain`                  the chain of a step;
* `store_run`                      what every change preserves holds in every state a run reaches.
-/

set_option linter.unusedVariables false
set_option linter.unusedSectionVars false

namespace Cjet
open Stateful Alloc

section
variable {T : Type} [HashTable T]

/-! ## one change -/

/-- `el` stands at a fresh address, in the table of all elements and in the list of `p` -/
def Broker.added (b : Broker T) (p : Addr) (el : Element) (l : List Sent) (n : Nat) : Broker T :=
  { b with
    elements := Function.update b.elements b.fresh (some el), fresh := b.fresh + 1
    elementTable := (HashTable.put b.elementTable el.path b.fresh).2
    elementList := Function.update b.elementList p (b.elementList p ++ [b.fresh])
    calls := n, sent := b.sent ++ l }

/-- the element `el` at `e` is gone -/
def Broker.removed (b : Broker T) (e : Addr) (el : Element) (l : List Sent) (n : Nat) : Broker T :=
  { b with
    elementList := Function.update b.elementList el.peer ((b.elementList el.peer).erase e)
    elementTable := (HashTable.remove b.elementTable el.path).2
    elements := Function.update b.elements e none, calls := n, sent := b.sent ++ l }

/-- the fetch `f` of `p` is gone, also from the tables of the elements -/
def Broker.unfetched (b : Broker T) (p f : Addr) : Broker T :=
  { b with
    elements := fun e => (b.elements e).map fun el => el.without f
    fetchList := Function.update b.fetchList p ((b.fetchList p).erase f)
    fetches := Function.update b.fetches f none }

/-- One change.  The elements that are refused after their fetches may have been notified are those
that `mayRefuse` allows. -/
inductive StoreStep (mayRefuse : Broker T → Element → Prop) (env : Env) (b : Broker T) : Broker T → Prop
  | idle (b' : Broker T) (h : Bystander b b') : StoreStep mayRefuse env b b'
  | added (p : Addr) (el : Element) (sub : List Addr) (table : List (Option Addr)) (l : List Sent)
      (n k : Nat) (hp : p ∈ b.peerList) (hpeer : el.peer = p) (hempty : Slots.entries el.fetcherTable = [])
      (hpath : HashTable.get b.elementTable el.path = none)
      (hput : (HashTable.put b.elementTable el.path b.fresh).1 = true)
      (hE : EnteredFetches env b.fresh el b.allFetches sub table l (b.withElement el k) true) :
    StoreStep mayRefuse env b (b.added p { el with fetcherTable := table } l n)
  | refused (el : Element) (sub : List Addr) (table : List (Option Addr)) (l : List Sent) (n k : Nat)
      (ok : Bool) (elementTable : T)
      (hget : ∀ path, HashTable.get elementTable path = HashTable.get b.elementTable path)
      (hfull : ok = true → (HashTable.put b.elementTable el.path b.fresh).1 = false) (hR : mayRefuse b el)
      (hE : EnteredFetches env b.fresh el b.allFetches sub table l (b.withElement el k) ok) :
    StoreStep mayRefuse env b
      { b with elementTable := elementTable, fresh := b.fresh + 1, calls := n, sent := b.sent ++ l }
  | changed (e : Addr) (el : Element) (value : Json) (ok : Bool) (l : List Sent) (n k k' : Nat)
      (hel : b.elements e = some el)
      (hl : deliverAll env b.fetches (el.withValue value) e "change" (Slots.entries el.fetcherTable) k
        = ((ok, l), k')) :
    StoreStep mayRefuse env b
      { b with
        elements := Function.update b.elements e (some (el.withValue value))
        calls := n, sent := b.sent ++ l }
  | removed (e : Addr) (el : Element) (ok : Bool) (l : List Sent) (n k : Nat) (hel : b.elements e = some el)
      (hl : deliverAll env b.fetches el e "remove" (Slots.entries el.fetcherTable) k = ((ok, l), n)) :
    StoreStep mayRefuse env b (b.removed e el l n)
  | fetched (p : Addr) (ft : Fetch) (sub : List Addr) (elements : Addr → Option Element) (l : List Sent)
      (n k : Nat) (ok : Bool) (hp : p ∈ b.peerList) (hpeer : ft.peer = p) (hid : ft.fetchId.isSome = true)
      (hE : EnteredElements env b.fresh b.allElements sub elements l (b.withFetch p ft k) ok) :
    StoreStep mayRefuse env b { b.withFetch p ft n with elements := elements, sent := b.sent ++ l }
  | unfetched (p f : Addr) (ft : Fetch) (hf : b.fetches f = some ft) (hpeer : ft.peer = p) :
    StoreStep mayRefuse env b (b.unfetched p f)
  | authenticated (p : Addr) (auth : Json) (userName : Option String) (n : Nat)
      (hf : b.fetchList p = []) : StoreStep mayRefuse env b (b.authenticated p auth userName n)
  | connected (p : Addr) (memory : PeerMemory) (isLocal : Bool) (n : Nat) (hp : p ∉ b.peerList) :
    StoreStep mayRefuse env b (b.connected env p memory isLocal n)
  | disconnected (p : Addr) (he : b.elementList p = []) (hf : b.fetchList p = []) :
    StoreStep mayRefuse env b
      { b with
        peerList := b.peerList.erase p
        name := Function.update b.name p none, userName := Function.update b.userName p none }

theorem tableSound_of_perm {s : Store T} {table table' : List (Option Addr)} {l : List Addr}
    (h : (Slots.entries table').Perm (l ++ Slots.entries table)) (hs : s.TableSound table) (hl : l.Nodup)
    (hlive : ∀ f ∈ l, (s.fetches f).isSome = true) (hnew : ∀ f ∈ l, f ∉ Slots.entries table) :
    s.TableSound table' := by
  refine ⟨h.nodup_iff.mpr (hl.append hs.1 fun f h1 h2 => hnew f h1 h2), fun f hf => ?_⟩
  rcases List.mem_append.mp (h.mem_iff.mp hf) with h1 | h1
  · exact hlive f h1
  · exact hs.2 f h1

section
variable {mayRefuse : Broker T → Element → Prop}

theorem sound_storeStep {env : Env} {b b' : Broker T} (hS : b.toStore.Sound) (h : StoreStep mayRefuse env b b') :
    b'.toStore.Sound := by
  cases h with
  | idle _ h =>
    rw [h.store]
    exact hS
  | added p el sub table l n k hp hpeer hempty hpath hput hE =>
    refine hS.addElement hp hpeer hpath hput (tableSound_of_perm hE.entries ?_ ?_ ?_ ?_)
    · unfold Store.TableSound
      rw [hempty]
      exact ⟨List.nodup_nil, by simp⟩
    · exact hE.sublist.nodup hS.nodup_allFetches
    · exact fun f hf => (hS.mem_allFetches f).mp (hE.sublist.subset hf)
    · rw [hempty]
      simp
  | refused el sub table l n k ok elementTable hget hfull hR hE => exact hS.skip hget
  | changed e el value ok l n k k' hel hl =>
    have cases : ∀ a el', Function.update b.elements e (some (el.withValue value)) a = some el' →
        (a = e ∧ el' = el.withValue value) ∨ b.elements a = some el' := fun a el' ha => by
      by_cases e1 : a = e
      · rw [e1, Function.update_self] at ha
        exact Or.inl ⟨e1, (Option.some.inj ha).symm⟩
      · rw [Function.update_of_ne e1] at ha
        exact Or.inr ha
    refine hS.reshape (fun a => ?_) fun a el' ha => ?_
    · by_cases e1 : a = e
      · rw [e1, Function.update_self, hel]
        rfl
      · rw [Function.update_of_ne e1]
    · rcases cases a el' ha with ⟨_, rfl⟩ | ha
      · exact hS.tables e el hel
      · exact hS.tables a el' ha
  | removed e el ok l n k hel hl => exact hS.removeElement hel
  | fetched p ft sub elements l n k ok hp hpeer hid hE =>
    have hF := hS.addFetch hp hpeer hid
    have hfresh : ∀ e el, b.elements e = some el → b.fresh ∉ Slots.entries el.fetcherTable :=
      fun e el he hm => by
        have := (hS.tables e el he).2 b.fresh hm
        rw [(hS.unused b.fresh (Nat.le_refl _)).2] at this
        cases this
    refine hF.reshape (fun e => ?_) fun e el he => ?_
    · by_cases hm : e ∈ sub
      · obtain ⟨el, table, h1, h2, _⟩ := hE.entries e hm
        have h1 : b.elements e = some el := h1
        rw [h2, h1]
        rfl
      · rw [hE.others e hm]
        rfl
    · by_cases hm : e ∈ sub
      · obtain ⟨el', table, h1, h2, h3⟩ := hE.entries e hm
        have h1 : b.elements e = some el' := h1
        rw [h2] at he
        obtain rfl := Option.some.inj he
        refine tableSound_of_perm (l := [b.fresh]) h3 (hF.tables e el' h1) (List.nodup_singleton _) ?_ ?_
        · intro f hf
          rw [List.mem_singleton.mp hf]
          show (Function.update b.fetches b.fresh (some ft) b.fresh).isSome = true
          rw [Function.update_self]
          rfl
        · intro f hf
          rw [List.mem_singleton.mp hf]
          exact hfresh e el' h1
      · rw [hE.others e hm] at he
        exact hF.tables e el he
  | unfetched p f ft hf hpeer =>
    subst hpeer
    exact hS.removeFetch hf
  | authenticated p auth userName n hf => exact hS
  | connected p memory isLocal n hp => exact hS.connect hp
  | disconnected p he hf => exact hS.disconnect he hf

/-! ## chains -/

/-- a chain of changes -/
abbrev StoreChain (mayRefuse : Broker T → Element → Prop) (env : Env) : Broker T → Broker T → Prop :=
  Relation.ReflTransGen (StoreStep mayRefuse env)

theorem sound_chain {env : Env} {b b' : Broker T} (hS : b.toStore.Sound) (h : StoreChain mayRefuse env b b') :
    b'.toStore.Sound := by
  induction h with
  | refl => exact hS
  | tail _ h ih => exact sound_storeStep ih h

/-! ## the chain of a request -/

theorem fillAccess_some {allGroups : Option (List String)} {access : Option Json} {el el' : Element}
    (h : fillAccess allGroups access el = .ok el') : el'.peer = el.peer ∧ el'.path = el.path ∧
      el'.fetcherTable = el.fetcherTable ∧ el'.value = el.value := by
  unfold fillAccess at h
  cases h1 : fillFetchGroups allGroups access with
  | error err => rw [h1] at h; cases h
  | ok g =>
    rw [h1] at h
    dsimp only at h
    split at h
    · cases h2 : fillSetGroups allGroups access with
      | error err => rw [h2] at h; cases h
      | ok g' => rw [h2] at h; cases h; exact ⟨rfl, rfl, rfl, rfl⟩
    · cases h2 : fillCallGroups allGroups access with
      | error err => rw [h2] at h; cases h
      | ok g' => rw [h2] at h; cases h; exact ⟨rfl, rfl, rfl, rfl⟩

theorem checkAdd_some {env : Env} {b : Broker T} {p : Addr} {request : Json} {el : Element}
    {access : Option Json} (h : checkAdd env b p request = .ok (el, access)) :
    HashTable.get b.elementTable el.path = none ∧ el.peer = p ∧
      el.fetcherTable = List.replicate env.config.initialFetchTableSize none := by
  unfold checkAdd at h
  cases h1 : getParamsAndPath request with
  | error err => rw [h1] at h; cases h
  | ok pp =>
    rw [h1] at h
    cases h2 : getFetchOnlyFromParams pp.1 with
    | error err => simp only [bind, Except.bind, mapError_ok, mapError_error, h2] at h; cases h
    | ok flags =>
      cases h3 : getTimeoutInNsec env.toPlatform (pp.1.getObjectItem "timeout")
          (convertSecondsToNsec env.toPlatform env.config.routedMessagesTimeout) with
      | error err => simp only [bind, Except.bind, mapError_ok, h2, h3] at h; cases h
      | ok timeout =>
        simp only [bind, Except.bind, mapError_ok, h2, h3] at h
        cases h4 : HashTable.get b.elementTable pp.2 with
        | some e => rw [h4] at h; cases h
        | none =>
          rw [h4] at h
          cases h
          exact ⟨h4, rfl, rfl⟩

theorem AddAccepted.facts {env : Env} {b : Broker T} {p : Addr} {request : Json} {el : Element}
    (h : AddAccepted env b p request el) : el.peer = p ∧ Slots.entries el.fetcherTable = [] ∧
      HashTable.get b.elementTable el.path = none := by
  obtain ⟨el', access, h1, h2⟩ := h
  obtain ⟨h3, h4, h5⟩ := checkAdd_some h1
  obtain ⟨h6, h7, h8, _⟩ := fillAccess_some h2
  refine ⟨h6.trans h4, ?_, by rw [h7]; exact h3⟩
  rw [h8, h5, Slots.entries_replicate]

section
variable {env : Env} {p : Addr} {request : Json} {b b' : Broker T} {res : Response}

theorem chain_calls (n : Nat) : StoreChain mayRefuse env b { b with calls := n } :=
  .single (.idle _ (Allows.calls b _ ⟨n, rfl⟩))

theorem addElement_chain (hS : b.toStore.Sound) (hp : p ∈ b.peerList)
    (hR : ∀ el, AddAccepted env b p request el → mayRefuse b el)
    (h : AddElement env b p request res b') : StoreChain mayRefuse env b b' := by
  have hfree := (hS.unused b.fresh (Nat.le_refl _)).1
  have hback : ∀ x : Option Element, Function.update (Function.update b.elements b.fresh x) b.fresh none
      = b.elements := fun x => by rw [Function.update_idem, ← hfree, Function.update_eq_self]
  cases h with
  | rejected json n => exact chain_calls n
  | notNotified json el n n' b1 hacc h1 =>
    obtain ⟨sub, table, l, k, hE, rfl⟩ := enterNewElement h1
    have hstep := StoreStep.refused el sub table l n' n false b.elementTable (fun _ => rfl)
      (fun e => (by cases e)) (hR el hacc) hE
    simp only [Broker.withElement, Function.update_idem, hback]
    exact .single hstep
  | full json el n n' b1 hacc h1 hput =>
    obtain ⟨sub, table, l, k, hE, rfl⟩ := enterNewElement h1
    have hput : (HashTable.put b.elementTable el.path b.fresh).1 = false := hput
    have hstep := StoreStep.refused el sub table l n' n true
      (HashTable.put b.elementTable el.path b.fresh).2
      (fun path => HashTable.get_put_full _ _ _ _ hput) (fun _ => hput) (hR el hacc) hE
    simp only [Broker.withElement, Function.update_idem, hback]
    exact .single hstep
  | added json el n n' b1 hacc h1 hput =>
    obtain ⟨sub, table, l, k, hE, rfl⟩ := enterNewElement h1
    have hput : (HashTable.put b.elementTable el.path b.fresh).1 = true := hput
    obtain ⟨hpeer, hempty, hpath⟩ := hacc.facts
    have hstep : StoreStep mayRefuse env b _ :=
      .added p el sub table l n' n hp hpeer hempty hpath hput hE
    simp only [Broker.withElement, Function.update_idem]
    exact .single hstep

theorem changeState_chain (h : ChangeState env b p request res b') : StoreChain mayRefuse env b b' := by
  cases h with
  | rejected json n h => exact chain_calls n
  | replaced json e el value ok l n n' h hok hl =>
    obtain ⟨path, _, _, hel, _⟩ := h
    exact .single (.changed e el value ok l n' (b.calls + 1) n hel hl)

theorem removeElement_step (mayRefuse : Broker T → Element → Prop) {e : Addr} {u : Unit}
    (h : removeElement env e b = some (u, b')) :
    ∃ el, b.elements e = some el ∧ StoreStep mayRefuse env b b' ∧ b'.elements = Function.update b.elements e none ∧
      b'.peerList = b.peerList ∧ b'.fetches = b.fetches ∧ b'.fetchList = b.fetchList := by
  obtain ⟨el, ok, l, n, hel, hl, rfl⟩ := removeElement_some h
  exact ⟨el, hel, .removed e el ok l n b.calls hel hl, rfl, rfl, rfl, rfl⟩

theorem removeFetch_step (mayRefuse : Broker T → Element → Prop) (env : Env) (hS : b.toStore.Sound) {f : Addr}
    {u : Unit} (hp : p ∈ b.peerList)
    (hf : f ∈ b.fetchList p) (h : removeFetch p f b = some (u, b')) : b' = b.unfetched p f ∧
      StoreStep mayRefuse env b b' := by
  obtain ⟨ft, hft, hpeer⟩ := hS.fetch_of_mem hp hf
  obtain ⟨b1, ⟨elements, rfl, hE⟩, rfl⟩ := removeFetch_some h
  have e1 : elements = fun e => (b.elements e).map fun el => el.without f := by
    funext e
    rw [hE e]
    by_cases he : e ∈ b.peerList.flatMap b.elementList
    · rw [if_pos he]
    · rw [if_neg he]
      have hnone : b.elements e = none := by
        rw [← Option.not_isSome_iff_eq_none]
        exact fun h1 => he ((hS.mem_allElements e).mpr h1)
      rw [hnone]
      rfl
  subst e1
  exact ⟨rfl, .unfetched p f ft hft hpeer⟩

theorem processFetch_chain (hS : b.toStore.Sound) (hp : p ∈ b.peerList)
    (h : ProcessFetch env b p request res b') : StoreChain mayRefuse env b b' := by
  cases h with
  | rejected json n h => exact chain_calls n
  | fetched json ft ok n n' b1 h h1 =>
    obtain ⟨hpeer, hid⟩ := h.facts
    obtain ⟨sub, elements, l, k, hE, rfl⟩ := enterElements hS.nodup_allElements h1
    exact .single (.fetched p ft sub elements l n' n ok hp hpeer hid hE)

theorem handled_chain (hS : b.toStore.Sound) (hp : p ∈ b.peerList)
    (hR : ∀ el, request.HasMethod "add" → AddAccepted env b p request el → mayRefuse b el)
    (h : Handled env b p request res b') : StoreChain mayRefuse env b b' := by
  cases h with
  | change hm h => exact changeState_chain h
  | add hm h => exact addElement_chain hS hp (fun el => hR el hm) h
  | remove hm h =>
    rcases removeElementFromPeer_some h with ⟨json, n, _, rfl⟩ | ⟨params, path, e, b1, json, n, _, _, h1, _, rfl⟩
    · exact chain_calls n
    · obtain ⟨el, _, h2, _⟩ := removeElement_step mayRefuse h1
      exact (Relation.ReflTransGen.single h2).trans (chain_calls n)
  | fetch hm h => exact processFetch_chain hS hp h
  | unfetch hm h =>
    rcases removeFetchFromPeer_some h with ⟨json, n, _, rfl⟩ | ⟨f, b1, json, n, hf, h1, _, rfl⟩
    · exact chain_calls n
    · exact (Relation.ReflTransGen.single (removeFetch_step mayRefuse env hS hp hf h1).2).trans (chain_calls n)
  | authenticate hm h =>
    cases h with
    | rejected json n h => exact chain_calls n
    | accepted json n user auth h =>
      exact .single (.authenticated p auth _ n (fetchList_of_checkAuthenticate h))
  | passwd hm h => exact .single (.idle _ (bystander_handleChangePassword p request b res b' h))
  | other hm h hu => exact .single (.idle _ h)

end

/-! ## the chain of a disconnect -/

section
variable {env : Env} {p : Addr}

theorem removeFetches_chain (mayRefuse : Broker T → Element → Prop) (env : Env) {l : List Addr}
    {b b' : Broker T} {u : Unit} (hS : b.toStore.Sound)
    (hp : p ∈ b.peerList) (hl : l.Nodup) (hsub : ∀ f ∈ l, f ∈ b.fetchList p)
    (h : Prog.each (removeFetch p) l b = some (u, b')) :
    StoreChain mayRefuse env b b' ∧ b'.peerList = b.peerList ∧ b'.elementList = b.elementList ∧
      ∀ f, f ∈ b'.fetchList p ↔ f ∈ b.fetchList p ∧ f ∉ l := by
  induction l generalizing b with
  | nil =>
    obtain ⟨_, rfl⟩ := Prog.pure_some h
    exact ⟨.refl, rfl, rfl, by simp⟩
  | cons f l ih =>
    obtain ⟨hf, hl⟩ := List.nodup_cons.mp hl
    obtain ⟨_, b1, h1, h2⟩ := Prog.bind_some h
    have hmem := hsub f List.mem_cons_self
    obtain ⟨rfl, hstep⟩ := removeFetch_step mayRefuse env hS hp hmem h1
    have hlist : ∀ a, a ∈ (b.unfetched p f).fetchList p ↔ a ≠ f ∧ a ∈ b.fetchList p := fun a => by
      show a ∈ Function.update b.fetchList p ((b.fetchList p).erase f) p ↔ _
      rw [Function.update_self, (hS.fetches.nodup p hp).mem_erase_iff]
    obtain ⟨h3, h4, h5, h6⟩ := ih (sound_storeStep hS hstep) hp hl
      (fun a ha => (hlist a).mpr ⟨fun e => hf (by rwa [e] at ha), hsub a (List.mem_cons_of_mem _ ha)⟩) h2
    refine ⟨.head hstep h3, h4, h5, fun a => ?_⟩
    rw [h6, hlist, List.mem_cons]
    tauto

theorem removeElements_chain (mayRefuse : Broker T → Element → Prop) {l : List Addr} {b b' : Broker T} {u : Unit}
    (hS : b.toStore.Sound)
    (h : Prog.each (removeElement env) l b = some (u, b')) :
    StoreChain mayRefuse env b b' ∧ b'.peerList = b.peerList ∧ b'.fetchList = b.fetchList ∧
      ∀ e, b'.elements e = if e ∈ l then none else b.elements e := by
  induction l generalizing b with
  | nil =>
    obtain ⟨_, rfl⟩ := Prog.pure_some h
    exact ⟨.refl, rfl, rfl, by simp⟩
  | cons e l ih =>
    obtain ⟨_, b1, h1, h2⟩ := Prog.bind_some h
    obtain ⟨el, hel, hstep, h3, h4, h5, h6⟩ := removeElement_step mayRefuse h1
    obtain ⟨h7, h8, h9, h10⟩ := ih (sound_storeStep hS hstep) h2
    refine ⟨.head hstep h7, h8.trans h4, h9.trans h6, fun a => ?_⟩
    rw [h10, h3]
    by_cases e1 : a = e
    · subst e1
      simp
    · rw [Function.update_of_ne e1]
      simp [e1]

/-- the fetches of the peer go away first, then its elements -/
theorem freePeerResources_some {b b' : Broker T} {u : Unit} (h : freePeerResources env p b = some (u, b')) :
    ∃ b2 b3 b4, OnlyRouter b b2 ∧ Prog.each (removeFetch p) (b2.fetchList p) b2 = some ((), b3) ∧
      Prog.each (removeElement env) (b3.elementList p) b3 = some ((), b4) ∧
      b' = { b4 with
        routingTable := Function.update b4.routingTable p (HashTable.create env.config.routingTableOrder)
        peerList := b4.peerList.erase p
        name := Function.update b4.name p none, userName := Function.update b4.userName p none } := by
  obtain ⟨b1, b2, b3, b4, h1, h2, h3, h4, hb⟩ := freePeerResources_phases h
  have r1 := does_removeRoutingInfoFromPeer env p b _ b1 h1
  have r2 := does_removePeerFromRoutes env p b1 _ b2 h2
  obtain ⟨fs, b2', h6, h7⟩ := Prog.bind_some h3
  obtain ⟨rfl, rfl⟩ := Prog.read_some h6
  obtain ⟨es, b3', h8, h9⟩ := Prog.bind_some h4
  obtain ⟨rfl, rfl⟩ := Prog.read_some h8
  exact ⟨b2', b3', b4, Trans.trans r1 r2, h7, h9, hb⟩

theorem freePeerResources_chain {b b' : Broker T} {u : Unit} (hS : b.toStore.Sound) (hp : p ∈ b.peerList)
    (h : freePeerResources env p b = some (u, b')) : StoreChain mayRefuse env b b' := by
  obtain ⟨b2, b3, b4, r2, h3, h4, rfl⟩ := freePeerResources_some h
  have hS2 : b2.toStore.Sound := by
    rw [r2.store]
    exact hS
  have hp2 : p ∈ b2.peerList := by
    rw [congrArg Store.peerList r2.store]
    exact hp
  obtain ⟨c3, p3, l3, f3⟩ := removeFetches_chain mayRefuse env hS2 hp2 (hS2.fetches.nodup p hp2)
    (fun f hf => hf) h3
  have hS3 := sound_chain hS2 c3
  have hp3 : p ∈ b3.peerList := by
    rw [p3]
    exact hp2
  obtain ⟨c4, p4, f4, e4⟩ := removeElements_chain mayRefuse hS3 h4
  have hS4 := sound_chain hS3 c4
  have noFetch : b4.fetchList p = [] := by
    rw [f4, List.eq_nil_iff_forall_not_mem]
    intro f hf
    exact ((f3 f).mp hf).2 ((f3 f).mp hf).1
  have noElement : b4.elementList p = [] := by
    rw [List.eq_nil_iff_forall_not_mem]
    intro e he
    obtain ⟨el, hel, hpeer⟩ := hS4.element_of_mem (by rw [p4]; exact hp3) he
    rw [e4] at hel
    by_cases hm : e ∈ b3.elementList p
    · rw [if_pos hm] at hel
      cases hel
    · rw [if_neg hm] at hel
      refine hm (hS3.elements.listed e p ?_).2
      rw [Store.elementOwner, hel, ← hpeer]
      rfl
  have t1 : StoreChain mayRefuse env b b2 := .single (.idle _ r2.bystander)
  have t2 : StoreChain mayRefuse env b4 { b4 with
      routingTable := Function.update b4.routingTable p (HashTable.create env.config.routingTableOrder) } :=
    .single (.idle _ ⟨rfl, rfl, rfl, rfl, rfl, rfl, [], (List.append_nil _).symm, by simp⟩)
  exact ((((t1.trans c3).trans c4).trans t2)).tail (.disconnected p noElement noFetch)

end

/-! ## the chain of a step -/

theorem stepped_chain {env : Env} {b b' : Broker T} {e : Event} (hS : b.toStore.Sound)
    (hR : ∀ p request el, e = .rpc p request → request.HasMethod "add" → AddAccepted env b p request el →
      mayRefuse b el) (h : Stepped env b e b') : StoreChain mayRefuse env b b' := by
  have bump : ∀ b2 : Broker T, StoreChain mayRefuse env b2 { b2 with received := b2.received + 1 } := fun b2 =>
    .single (.idle _ ⟨rfl, rfl, rfl, rfl, rfl, rfl, [], (List.append_nil _).symm, by simp⟩)
  cases h with
  | notConnected p connection isLocal n => exact chain_calls n
  | connected p connection isLocal n hp => exact .single (.connected p _ isLocal n hp)
  | answered p request res ret b1 b2 hp hr h1 h2 =>
    have h3 := handled_chain hS hp (fun el => hR p request el rfl) (handlerOf_some h1)
    obtain ⟨_, n, l, rfl, hl, hm⟩ := sendResponse_some h2
    refine (h3.tail (.idle _ ?_)).trans (bump _)
    refine ⟨rfl, rfl, rfl, rfl, rfl, rfl, l, rfl, fun m hml => ?_⟩
    rw [(hm m hml).2.1]
    rfl
  | response p request response resultType ret b1 hp hr h1 =>
    exact (Relation.ReflTransGen.single (.idle _
      (does_handleRoutingResponse env request response resultType p b ret b1 h1).bystander)).trans (bump _)
  | timeout r b1 ht h1 =>
    exact .single (.idle _ (does_requestTimeoutHandler env r b () _ h1).bystander)
  | disconnected p b1 hp h1 => exact freePeerResources_chain hS hp h1

/-- `I` is kept by all changes whose calls have the outcomes `env`, in well-formed stores -/
def KeptByChanges (mayRefuse : Broker T → Element → Prop) (env : Env) (I : Broker T → Prop) : Prop :=
  ∀ b b', b.toStore.Sound → I b → StoreStep mayRefuse env b b' → I b'

theorem kept_chain {env : Env} {I : Broker T → Prop} (hI : KeptByChanges mayRefuse env I) {b b' : Broker T}
    (hS : b.toStore.Sound) (hb : I b) (h : StoreChain mayRefuse env b b') : I b' := by
  induction h with
  | refl => exact hb
  | tail h1 h2 ih => exact hI _ _ (sound_chain hS h1) ih h2

/-! ## runs -/

theorem sound_start (config : Config) (allGroups : Option (List String)) (userData : Option Json)
    (passwordFile : List UInt8) :
    (Broker.start (T := T) config allGroups userData passwordFile).toStore.Sound where
  peers := List.nodup_nil
  elements := ⟨fun o ho => absurd ho List.not_mem_nil, fun a o ha => (by cases ha), fun o ho =>
    absurd ho List.not_mem_nil⟩
  fetches := ⟨fun o ho => absurd ho List.not_mem_nil, fun a o ha => (by cases ha), fun o ho =>
    absurd ho List.not_mem_nil⟩
  ids f ft hf := by cases hf
  paths path e := by
    show HashTable.get (HashTable.create config.elementTableOrder) path = some e ↔ _
    rw [HashTable.get_create]
    exact ⟨fun h => (by cases h), fun ⟨el, h, _⟩ => (by cases h)⟩
  unused a _ := ⟨rfl, rfl⟩
  tables e el he := by cases he

variable {platform : Platform}

theorem sound_stepped {env : Env} {b b' : Broker T} {e : Event} (hS : b.toStore.Sound) (h : Stepped env b e b') :
    b'.toStore.Sound := by
  have hchain : StoreChain (fun _ _ => True) env b b' := stepped_chain hS (fun _ _ _ _ _ _ => trivial) h
  exact sound_chain hS hchain

theorem sound_step {b b' : Broker T} {i : Input} (hS : b.toStore.Sound) (h : step platform b i = some b') :
    b'.toStore.Sound := by
  have hS0 : ({ b with calls := 0 } : Broker T).toStore.Sound := hS
  exact sound_stepped hS0 (step_cases h)

/-- Every store that a run reaches is well formed, whatever fails in the run. -/
theorem sound_run {s b : Broker T} {l : List Input} (h0 : s.IsStart platform)
    (h : run (step platform) s l = some b) : b.toStore.Sound := by
  obtain ⟨allGroups, userData, passwordFile, rfl⟩ := h0
  exact run_keeps (fun b i b' hS hs => sound_step hS hs) (sound_start _ _ _ _) h

theorem sound_reachable {b : Broker T} (h : b.Reachable platform) : b.toStore.Sound := by
  obtain ⟨s, l, h0, h1⟩ := h
  exact sound_run h0 h1

/-- the elements that the event may add are among those that `mayRefuse` allows to refuse -/
def RefusalsAllowed (mayRefuse : Broker T → Element → Prop) (env : Env) (b : Broker T) (e : Event) : Prop :=
  ∀ p request el, e = .rpc p request → request.HasMethod "add" → AddAccepted env b p request el →
    mayRefuse b el

/-- What all changes keep where the steps of a run meet the condition `c` holds at its end. -/
theorem store_run (mayRefuse : Broker T → Element → Prop) {I : Broker T → Prop} {c : Broker T → Input → Prop}
    (hI : ∀ b i, c b i → KeptByChanges mayRefuse (i.env platform) I)
    (hR : ∀ b i, c b i → RefusalsAllowed mayRefuse (i.env platform) { b with calls := 0 } i.event)
    (hcalls : ∀ b n, I b → I { b with calls := n })
    {s b : Broker T} {l : List Input} (h0 : s.IsStart platform) (hs : I s)
    (hc : Along (step platform) c s l) (h : run (step platform) s l = some b) : I b := by
  have hS : s.toStore.Sound := sound_run (l := []) h0 rfl
  have both := run_invariant (I := fun b : Broker T => b.toStore.Sound ∧ I b) (fun b i b' hb hc hs => ?_)
    ⟨hS, hs⟩ hc h
  · exact both.2
  · have hS0 : ({ b with calls := 0 } : Broker T).toStore.Sound := hb.1
    exact ⟨sound_step hb.1 hs, kept_chain (hI b i hc) hS0 (hcalls b 0 hb.2)
      (stepped_chain hS0 (hR b i hc) (step_cases hs))⟩

end

end

end Cjet
