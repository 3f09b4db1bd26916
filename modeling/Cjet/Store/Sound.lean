import Cjet.Lib.Owned
import Cjet.Store.Subscribe

/-!
# Well-formed stores

Elements and fetches stand in the lists of their peers, the table of all elements knows each element
by its path, and the table of an element holds fetches that are alive, each at most once.

* `Store.Sound`   the invariant;
* one lemma for each operation that keeps it.
-/

set_option linter.unusedVariables false
set_option linter.unusedSectionVars false

namespace Cjet
open Stateful Alloc

section
variable {T : Type} [HashTable T]

namespace Store

def elementOwner (s : Store T) (e : Addr) : Option Addr := (s.elements e).map Element.peer
def fetchOwner (s : Store T) (f : Addr) : Option Addr := (s.fetches f).map Fetch.peer
def allElements (s : Store T) : List Addr := s.peerList.flatMap s.elementList
def allFetches (s : Store T) : List Addr := s.peerList.flatMap s.fetchList

/-- a table of subscriptions without duplicates and dangling pointers -/
def TableSound (s : Store T) (table : List (Option Addr)) : Prop :=
  (Slots.entries table).Nodup ∧ ∀ f ∈ Slots.entries table, (s.fetches f).isSome = true

structure Sound (s : Store T) : Prop where
  peers : s.peerList.Nodup
  elements : Owned s.peerList s.elementList s.elementOwner
  fetches : Owned s.peerList s.fetchList s.fetchOwner
  ids : ∀ f ft, s.fetches f = some ft → ft.fetchId.isSome = true
  paths : ∀ path e, HashTable.get s.elementTable path = some e ↔
    ∃ el, s.elements e = some el ∧ el.path = path
  unused : ∀ a, s.fresh ≤ a → s.elements a = none ∧ s.fetches a = none
  tables : ∀ e el, s.elements e = some el → s.TableSound el.fetcherTable

end Store

/-- the fetches of all peers, for an element that is being added -/
theorem enterNewElement {env : Env} {el : Element} {n : Nat} {b b' : Broker T} {ok : Bool}
    (h : findFetchersForElement env b.fresh (b.withElement el n) = some (ok, b')) :
    ∃ sub table l k, EnteredFetches env b.fresh el b.allFetches sub table l (b.withElement el n) ok ∧
      b' = { b.withElement el n with
        elements := Function.update (b.withElement el n).elements b.fresh (some { el with fetcherTable := table })
        calls := k, sent := b.sent ++ l } := by
  rw [findFetchersForElement_eq] at h
  exact enterFetches (Function.update_self ..) h

theorem map_update {α β : Type} (m : Addr → Option α) (g : α → β) (a : Addr) (x : Option α) :
    (fun i => (Function.update m a x i).map g) = Function.update (fun i => (m i).map g) a (x.map g) := by
  funext i
  by_cases e : i = a
  · rw [e, Function.update_self, Function.update_self]
  · rw [Function.update_of_ne e, Function.update_of_ne e]

/-- who owns an element, and where it stands -/
def Element.place (el : Element) : Addr × String := (el.peer, el.path)

namespace Store.Sound
variable {s : Store T}

theorem mem_allElements (h : s.Sound) (e : Addr) : e ∈ s.allElements ↔ (s.elements e).isSome = true := by
  unfold Store.allElements
  rw [h.elements.mem_all, Store.elementOwner, Option.isSome_map]

theorem mem_allFetches (h : s.Sound) (f : Addr) : f ∈ s.allFetches ↔ (s.fetches f).isSome = true := by
  unfold Store.allFetches
  rw [h.fetches.mem_all, Store.fetchOwner, Option.isSome_map]

theorem nodup_allElements (h : s.Sound) : s.allElements.Nodup := h.elements.nodup_all h.peers
theorem nodup_allFetches (h : s.Sound) : s.allFetches.Nodup := h.fetches.nodup_all h.peers

theorem peer_mem (h : s.Sound) {e : Addr} {el : Element} (he : s.elements e = some el) :
    el.peer ∈ s.peerList :=
  (h.elements.listed e el.peer (by rw [Store.elementOwner, he]; rfl)).1

theorem fetch_peer_mem (h : s.Sound) {f : Addr} {ft : Fetch} (hf : s.fetches f = some ft) :
    ft.peer ∈ s.peerList ∧ f ∈ s.fetchList ft.peer :=
  h.fetches.listed f ft.peer (by rw [Store.fetchOwner, hf]; rfl)

/-- the fetches in the table of an element are alive and have ids -/
theorem live_entries (h : s.Sound) {e : Addr} {el : Element} (he : s.elements e = some el) :
    ∀ f ∈ Slots.entries el.fetcherTable, ∃ ft id, s.fetches f = some ft ∧ ft.fetchId = some id := fun f hf => by
  obtain ⟨ft, hft⟩ := Option.isSome_iff_exists.mp ((h.tables e el he).2 f hf)
  obtain ⟨id, hid⟩ := Option.isSome_iff_exists.mp (h.ids f ft hft)
  exact ⟨ft, id, hft, hid⟩

theorem fetch_of_mem (h : s.Sound) {p f : Addr} (hp : p ∈ s.peerList) (hf : f ∈ s.fetchList p) :
    ∃ ft, s.fetches f = some ft ∧ ft.peer = p := by
  have ho := h.fetches.live p hp f hf
  exact Option.map_eq_some_iff.mp ho

theorem element_of_mem (h : s.Sound) {p e : Addr} (hp : p ∈ s.peerList) (he : e ∈ s.elementList p) :
    ∃ el, s.elements e = some el ∧ el.peer = p := by
  have ho := h.elements.live p hp e he
  exact Option.map_eq_some_iff.mp ho

/-- two elements have different paths -/
theorem eq_of_path (h : s.Sound) {e e' : Addr} {el el' : Element} (he : s.elements e = some el)
    (he' : s.elements e' = some el') (hp : el.path = el'.path) : e = e' := by
  have h1 := (h.paths el.path e).mpr ⟨el, he, rfl⟩
  have h2 := (h.paths el.path e').mpr ⟨el', he', hp.symm⟩
  exact Option.some.inj (h1.symm.trans h2)

/-- tables and values of elements change -/
theorem reshape (h : s.Sound) {elements : Addr → Option Element}
    (hplace : ∀ e, (elements e).map Element.place = (s.elements e).map Element.place)
    (htables : ∀ e el, elements e = some el → s.TableSound el.fetcherTable) :
    Store.Sound { s with elements := elements } := by
  have hlive : ∀ e, elements e = none ↔ s.elements e = none := fun e => by
    rw [← Option.map_eq_none_iff (f := Element.place), hplace, Option.map_eq_none_iff]
  refine ⟨h.peers, ?_, h.fetches, h.ids, fun path e => ?_, fun a ha => ?_, htables⟩
  · have howner : Store.elementOwner { s with elements := elements } = s.elementOwner := by
      funext e
      have := congrArg (Option.map Prod.fst) (hplace e)
      rw [Option.map_map, Option.map_map] at this
      exact this
    rw [howner]
    exact h.elements
  · rw [h.paths path e]
    have := congrArg (Option.map Prod.snd) (hplace e)
    rw [Option.map_map, Option.map_map] at this
    have hiff : ∀ x : Option Element, (∃ el, x = some el ∧ el.path = path) ↔
        x.map (Prod.snd ∘ Element.place) = some path := fun x => by
      rw [Option.map_eq_some_iff]
      rfl
    show _ ↔ ∃ el, elements e = some el ∧ el.path = path
    rw [hiff, hiff, this]
  · exact ⟨(hlive a).mpr (h.unused a ha).1, (h.unused a ha).2⟩

/-- addresses are used up, and the table of all elements is another one with the same contents -/
theorem skip (h : s.Sound) {elementTable : T}
    (hget : ∀ path, HashTable.get elementTable path = HashTable.get s.elementTable path) :
    Store.Sound { s with elementTable := elementTable, fresh := s.fresh + 1 } := by
  refine ⟨h.peers, h.elements, h.fetches, h.ids, fun path e => ?_, fun a ha => ?_, h.tables⟩
  · show HashTable.get elementTable path = some e ↔ _
    rw [hget]
    exact h.paths path e
  · exact h.unused a (Nat.le_of_succ_le ha)

/-- a new element -/
theorem addElement (h : s.Sound) {p : Addr} {el : Element} (hp : p ∈ s.peerList) (hpeer : el.peer = p)
    (hpath : HashTable.get s.elementTable el.path = none)
    (hput : (HashTable.put s.elementTable el.path s.fresh).1 = true)
    (htable : s.TableSound el.fetcherTable) :
    Store.Sound { s with
      elements := Function.update s.elements s.fresh (some el), fresh := s.fresh + 1
      elementTable := (HashTable.put s.elementTable el.path s.fresh).2
      elementList := Function.update s.elementList p (s.elementList p ++ [s.fresh]) } := by
  have hfree := (h.unused s.fresh (Nat.le_refl _)).1
  have hne : ∀ e el', s.elements e = some el' → e ≠ s.fresh := fun e el' he e1 => by
    rw [e1, hfree] at he
    cases he
  refine ⟨h.peers, ?_, h.fetches, h.ids, fun path e => ?_, fun a ha => ?_, fun e el' he => ?_⟩
  · unfold Store.elementOwner
    rw [map_update]
    have hnone : s.elementOwner s.fresh = none := by rw [Store.elementOwner, hfree]; rfl
    have hi := h.elements.insert hp hnone
    rw [← hpeer] at hi ⊢
    exact hi
  · show HashTable.get (HashTable.put s.elementTable el.path s.fresh).2 path = some e ↔
      ∃ el', Function.update s.elements s.fresh (some el) e = some el' ∧ el'.path = path
    rw [HashTable.get_put_ok _ _ _ _ hput]
    by_cases e1 : path = el.path
    · rw [if_pos e1]
      constructor
      · intro e2
        obtain rfl := Option.some.inj e2
        exact ⟨el, Function.update_self .., e1.symm⟩
      · rintro ⟨el', he, hpath'⟩
        by_cases e2 : e = s.fresh
        · rw [e2]
        · rw [Function.update_of_ne e2] at he
          have := (h.paths path e).mpr ⟨el', he, hpath'⟩
          rw [e1, hpath] at this
          cases this
    · rw [if_neg e1, h.paths path e]
      constructor
      · rintro ⟨el', he, hpath'⟩
        exact ⟨el', by rw [Function.update_of_ne (hne e el' he)]; exact he, hpath'⟩
      · rintro ⟨el', he, hpath'⟩
        by_cases e2 : e = s.fresh
        · rw [e2, Function.update_self] at he
          obtain rfl := Option.some.inj he
          exact absurd hpath'.symm e1
        · rw [Function.update_of_ne e2] at he
          exact ⟨el', he, hpath'⟩
  · have ha' : s.fresh + 1 ≤ a := ha
    obtain ⟨h1, h2⟩ := h.unused a (Nat.le_of_succ_le ha')
    exact ⟨(Function.update_of_ne (Nat.ne_of_gt ha') _ _).trans h1, h2⟩
  · have he : Function.update s.elements s.fresh (some el) e = some el' := he
    by_cases e1 : e = s.fresh
    · rw [e1, Function.update_self] at he
      obtain rfl := Option.some.inj he
      exact htable
    · rw [Function.update_of_ne e1] at he
      exact h.tables e el' he

/-- an element goes away -/
theorem removeElement (h : s.Sound) {e : Addr} {el : Element} (he : s.elements e = some el) :
    Store.Sound { s with
      elementList := Function.update s.elementList el.peer ((s.elementList el.peer).erase e)
      elementTable := (HashTable.remove s.elementTable el.path).2
      elements := Function.update s.elements e none } := by
  refine ⟨h.peers, ?_, h.fetches, h.ids, fun path a => ?_, fun a ha => ?_, fun a el' ha => ?_⟩
  · unfold Store.elementOwner
    rw [map_update]
    exact h.elements.erase (by rw [Store.elementOwner, he]; rfl)
  · show HashTable.get (HashTable.remove s.elementTable el.path).2 path = some a ↔
      ∃ el', Function.update s.elements e none a = some el' ∧ el'.path = path
    rw [HashTable.get_remove]
    by_cases e1 : path = el.path
    · rw [if_pos e1]
      refine ⟨fun e2 => (by cases e2), fun ⟨el', ha, hpath⟩ => ?_⟩
      by_cases e2 : a = e
      · rw [e2, Function.update_self] at ha
        cases ha
      · rw [Function.update_of_ne e2] at ha
        exact absurd (h.eq_of_path ha he (hpath.trans e1)) e2
    · rw [if_neg e1, h.paths path a]
      constructor
      · rintro ⟨el', ha, hpath⟩
        refine ⟨el', ?_, hpath⟩
        rw [Function.update_of_ne]
        · exact ha
        · intro e2
          rw [e2, he] at ha
          obtain rfl := Option.some.inj ha
          exact e1 hpath.symm
      · rintro ⟨el', ha, hpath⟩
        by_cases e2 : a = e
        · rw [e2, Function.update_self] at ha
          cases ha
        · rw [Function.update_of_ne e2] at ha
          exact ⟨el', ha, hpath⟩
  · obtain ⟨h1, h2⟩ := h.unused a ha
    refine ⟨?_, h2⟩
    show Function.update s.elements e none a = none
    by_cases e2 : a = e
    · rw [e2, Function.update_self]
    · rw [Function.update_of_ne e2]
      exact h1
  · have ha : Function.update s.elements e none a = some el' := ha
    by_cases e2 : a = e
    · rw [e2, Function.update_self] at ha
      cases ha
    · rw [Function.update_of_ne e2] at ha
      exact h.tables a el' ha

/-- a new fetch -/
theorem addFetch (h : s.Sound) {p : Addr} {ft : Fetch} (hp : p ∈ s.peerList) (hpeer : ft.peer = p)
    (hid : ft.fetchId.isSome = true) :
    Store.Sound { s with
      fetches := Function.update s.fetches s.fresh (some ft)
      fetchList := Function.update s.fetchList p (s.fetchList p ++ [s.fresh]), fresh := s.fresh + 1 } := by
  have hfree := (h.unused s.fresh (Nat.le_refl _)).2
  have hmono : ∀ f, (s.fetches f).isSome = true →
      (Function.update s.fetches s.fresh (some ft) f).isSome = true := fun f hf => by
    by_cases e : f = s.fresh
    · rw [e, Function.update_self]
      rfl
    · rw [Function.update_of_ne e]
      exact hf
  refine ⟨h.peers, h.elements, ?_, fun f ft' hf => ?_, h.paths, fun a ha => ?_, fun e el he => ?_⟩
  · unfold Store.fetchOwner
    rw [map_update]
    have hnone : s.fetchOwner s.fresh = none := by rw [Store.fetchOwner, hfree]; rfl
    have hi := h.fetches.insert hp hnone
    rw [← hpeer] at hi ⊢
    exact hi
  · have hf : Function.update s.fetches s.fresh (some ft) f = some ft' := hf
    by_cases e : f = s.fresh
    · rw [e, Function.update_self] at hf
      rw [← Option.some.inj hf]
      exact hid
    · rw [Function.update_of_ne e] at hf
      exact h.ids f ft' hf
  · have ha' : s.fresh + 1 ≤ a := ha
    obtain ⟨h1, h2⟩ := h.unused a (Nat.le_of_succ_le ha')
    exact ⟨h1, (Function.update_of_ne (Nat.ne_of_gt ha') _ _).trans h2⟩
  · obtain ⟨h1, h2⟩ := h.tables e el he
    exact ⟨h1, fun f hf => hmono f (h2 f hf)⟩

/-- a fetch goes away, first from the tables of all elements -/
theorem removeFetch (h : s.Sound) {f : Addr} {ft : Fetch} (hf : s.fetches f = some ft) :
    Store.Sound { s with
      elements := fun e => (s.elements e).map fun el => el.without f
      fetchList := Function.update s.fetchList ft.peer ((s.fetchList ft.peer).erase f)
      fetches := Function.update s.fetches f none } := by
  have htables : ∀ e el, (s.elements e).map (fun el => el.without f) = some el →
      (Slots.entries el.fetcherTable).Nodup ∧
        ∀ a ∈ Slots.entries el.fetcherTable, a ≠ f ∧ (s.fetches a).isSome = true := fun e el he => by
    obtain ⟨el', he', rfl⟩ := Option.map_eq_some_iff.mp he
    obtain ⟨h1, h2⟩ := h.tables e el' he'
    show (Slots.entries (Slots.erase el'.fetcherTable f)).Nodup ∧
      ∀ a ∈ Slots.entries (Slots.erase el'.fetcherTable f), _
    rw [Slots.entries_erase]
    refine ⟨h1.filter _, fun a ha => ?_⟩
    obtain ⟨h3, h4⟩ := List.mem_filter.mp ha
    exact ⟨of_decide_eq_true h4, h2 a h3⟩
  have hs : Store.Sound { s with elements := fun e => (s.elements e).map fun el => el.without f } :=
    h.reshape (fun e => by rw [Option.map_map]; rfl) fun e el he =>
      ⟨(htables e el he).1, fun a ha => ((htables e el he).2 a ha).2⟩
  refine ⟨hs.peers, hs.elements, ?_, fun a ft' ha => ?_, hs.paths, fun a ha => ?_, fun e el he => ?_⟩
  · unfold Store.fetchOwner
    rw [map_update]
    exact h.fetches.erase (by rw [Store.fetchOwner, hf]; rfl)
  · have ha : Function.update s.fetches f none a = some ft' := ha
    by_cases e : a = f
    · rw [e, Function.update_self] at ha
      cases ha
    · rw [Function.update_of_ne e] at ha
      exact h.ids a ft' ha
  · obtain ⟨h1, h2⟩ := hs.unused a ha
    refine ⟨h1, ?_⟩
    show Function.update s.fetches f none a = none
    by_cases e : a = f
    · rw [e, Function.update_self]
    · rw [Function.update_of_ne e]
      exact h2
  · obtain ⟨h1, h2⟩ := htables e el he
    refine ⟨h1, fun a ha => ?_⟩
    show (Function.update s.fetches f none a).isSome = true
    rw [Function.update_of_ne (h2 a ha).1]
    exact (h2 a ha).2

/-- a peer connects -/
theorem connect (h : s.Sound) {p : Addr} (hp : p ∉ s.peerList) :
    Store.Sound { s with
      peerList := s.peerList ++ [p], elementList := Function.update s.elementList p []
      fetchList := Function.update s.fetchList p [] } := by
  refine ⟨?_, h.elements.addOwner hp, h.fetches.addOwner hp, h.ids, h.paths, h.unused, h.tables⟩
  exact h.peers.append (List.nodup_singleton p) (by simpa using hp)

/-- a peer that has neither elements nor fetches goes away -/
theorem disconnect (h : s.Sound) {p : Addr} (he : s.elementList p = []) (hf : s.fetchList p = []) :
    Store.Sound { s with peerList := s.peerList.erase p } := by
  refine ⟨h.peers.erase p, h.elements.removeOwner h.peers fun e ho => ?_,
    h.fetches.removeOwner h.peers fun f ho => ?_, h.ids, h.paths, h.unused, h.tables⟩
  · have := (h.elements.listed e p ho).2
    rw [he] at this
    cases this
  · have := (h.fetches.listed f p ho).2
    rw [hf] at this
    cases this

end Store.Sound

end

end Cjet
