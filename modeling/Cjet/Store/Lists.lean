import Cjet.Model.List
import Cjet.Served
import Cjet.Store.Chain

/-!
# The lists of the broker in memory

The peers, the elements of a peer and its fetches stand in linked lists.  Each event links and unlinks some nodes;
what the nodes point to afterwards are the lists of the state.  The lists of a peer are set by `init_peer`: where that
fails there are none that could be followed.

* `Node`, `Store.ring`     the nodes, and the lists of a state;
* `ListWork`               the operations that an event can bring about;
* `stepped_lists`          they take the lists of the state before the event to those behind it;
* `lists_in_memory`        the lists in memory, in every state that a run reaches;
* `visits_each`            the loops over the lists.
-/

set_option linter.unusedVariables false
set_option linter.unusedSectionVars false

namespace Cjet
open Stateful Alloc

/-- the parts of the objects that are linked -/
inductive Node where
  /-- `peer_list` -/
  | peers
  /-- `next_peer` of a peer -/
  | peer (p : Addr)
  /-- `element_list` of a peer -/
  | elements (p : Addr)
  /-- `fetch_list` of a peer -/
  | fetches (p : Addr)
  /-- `element_list` of an element -/
  | element (e : Addr)
  /-- `next_fetch` of a fetch -/
  | fetch (f : Addr)
  deriving DecidableEq

section
variable {T : Type} [HashTable T]

/-! ## the lists of a state -/

namespace Store

def ring (s : Store T) : Node → Option (List Node)
  | .peers => some (s.peerList.map .peer)
  | .elements p => if p ∈ s.peerList then some ((s.elementList p).map .element) else none
  | .fetches p => if p ∈ s.peerList then some ((s.fetchList p).map .fetch) else none
  | _ => none

/-- the node is part of an object of the state -/
def HasNode (s : Store T) : Node → Prop
  | .peers => True
  | .peer p => p ∈ s.peerList
  | .elements p => p ∈ s.peerList
  | .fetches p => p ∈ s.peerList
  | .element e => (s.elements e).isSome = true
  | .fetch f => (s.fetches f).isSome = true

/-- The memory holds the lists, linked both ways; of the nodes those that are part of an object are allocated. -/
structure Listed (s : Store T) (memory : Links Node) : Prop where
  peers : Linked memory .peers (s.peerList.map .peer)
  elements : ∀ p ∈ s.peerList, Linked memory (.elements p) ((s.elementList p).map .element)
  fetches : ∀ p ∈ s.peerList, Linked memory (.fetches p) ((s.fetchList p).map .fetch)
  live : ∀ a, (memory a).isSome = true ↔ s.HasNode a

theorem ring_elements {s : Store T} {p : Addr} (hp : p ∈ s.peerList) :
    s.ring (.elements p) = some ((s.elementList p).map .element) := if_pos hp

theorem ring_fetches {s : Store T} {p : Addr} (hp : p ∈ s.peerList) :
    s.ring (.fetches p) = some ((s.fetchList p).map .fetch) := if_pos hp

/-- a list and what it is the list of -/
theorem ring_cases {s : Store T} {h : Node} {l : List Node} (hl : s.ring h = some l) :
    h = .peers ∧ l = s.peerList.map .peer ∨
    (∃ p ∈ s.peerList, h = .elements p ∧ l = (s.elementList p).map .element) ∨
    ∃ p ∈ s.peerList, h = .fetches p ∧ l = (s.fetchList p).map .fetch := by
  cases h with
  | peers => exact Or.inl ⟨rfl, (Option.some.inj hl).symm⟩
  | elements p =>
    by_cases hp : p ∈ s.peerList
    · rw [ring_elements hp] at hl
      exact Or.inr (Or.inl ⟨p, hp, rfl, (Option.some.inj hl).symm⟩)
    · rw [ring, if_neg hp] at hl
      cases hl
  | fetches p =>
    by_cases hp : p ∈ s.peerList
    · rw [ring_fetches hp] at hl
      exact Or.inr (Or.inr ⟨p, hp, rfl, (Option.some.inj hl).symm⟩)
    · rw [ring, if_neg hp] at hl
      cases hl
  | _ => cases hl

theorem element_injective : Function.Injective Node.element := fun _ _ h => Node.element.inj h
theorem fetch_injective : Function.Injective Node.fetch := fun _ _ h => Node.fetch.inj h
theorem peer_injective : Function.Injective Node.peer := fun _ _ h => Node.peer.inj h

/-- the lists of a well-formed store -/
def rings (s : Store T) (hS : s.Sound) : Rings Node where
  ring := s.ring
  nodup h l hl := by
    rcases ring_cases hl with ⟨-, rfl⟩ | ⟨p, hp, -, rfl⟩ | ⟨p, hp, -, rfl⟩
    · exact hS.peers.map peer_injective
    · exact (hS.elements.nodup p hp).map element_injective
    · exact (hS.fetches.nodup p hp).map fetch_injective
  entry h l a hl ha := by
    rcases ring_cases hl with ⟨-, rfl⟩ | ⟨p, hp, -, rfl⟩ | ⟨p, hp, -, rfl⟩
    all_goals
      obtain ⟨x, -, rfl⟩ := List.mem_map.mp ha
      rfl
  apart h h' l l' a hl hl' ha ha' := by
    rcases ring_cases hl with ⟨rfl, rfl⟩ | ⟨p, hp, rfl, rfl⟩ | ⟨p, hp, rfl, rfl⟩ <;>
      rcases ring_cases hl' with ⟨rfl, rfl⟩ | ⟨q, hq, rfl, rfl⟩ | ⟨q, hq, rfl, rfl⟩ <;>
        obtain ⟨x, hx, rfl⟩ := List.mem_map.mp ha <;> obtain ⟨y, hy, e⟩ := List.mem_map.mp ha' <;> cases e
    · rfl
    · have h1 := hS.elements.live p hp x hx
      have h2 := hS.elements.live q hq x hy
      rw [h1] at h2
      rw [Option.some.inj h2]
    · have h1 := hS.fetches.live p hp x hx
      have h2 := hS.fetches.live q hq x hy
      rw [h1] at h2
      rw [Option.some.inj h2]

theorem rings_peers {s : Store T} (hS : s.Sound) : (s.rings hS).ring .peers = some (s.peerList.map .peer) := rfl

theorem rings_elements {s : Store T} (hS : s.Sound) {p : Addr} (hp : p ∈ s.peerList) :
    (s.rings hS).ring (.elements p) = some ((s.elementList p).map .element) := ring_elements hp

theorem rings_fetches {s : Store T} (hS : s.Sound) {p : Addr} (hp : p ∈ s.peerList) :
    (s.rings hS).ring (.fetches p) = some ((s.fetchList p).map .fetch) := ring_fetches hp

theorem occurs_iff {s : Store T} (hS : s.Sound) (a : Node) : (s.rings hS).Occurs a ↔ s.HasNode a := by
  -- an entry is in the list of which it is an entry
  have hentry : ∀ {h : Node} {l : List Node}, s.ring h = some l → a ∈ l → (s.rings hS).Occurs a :=
    fun {h l} hl ha => Or.inr ⟨h, l, hl, ha⟩
  constructor
  · rintro (h | ⟨h, l, hl, ha⟩)
    · obtain ⟨l, hl⟩ := Option.isSome_iff_exists.mp h
      rcases ring_cases hl with ⟨rfl, -⟩ | ⟨p, hp, rfl, -⟩ | ⟨p, hp, rfl, -⟩
      · trivial
      · exact hp
      · exact hp
    · rcases ring_cases hl with ⟨-, rfl⟩ | ⟨p, hp, -, rfl⟩ | ⟨p, hp, -, rfl⟩
      · obtain ⟨p, hp, rfl⟩ := List.mem_map.mp ha
        exact hp
      · obtain ⟨e, he, rfl⟩ := List.mem_map.mp ha
        obtain ⟨el, hel, -⟩ := hS.element_of_mem hp he
        show (s.elements e).isSome = true
        rw [hel]
        rfl
      · obtain ⟨f, hf, rfl⟩ := List.mem_map.mp ha
        obtain ⟨ft, hft, -⟩ := hS.fetch_of_mem hp hf
        show (s.fetches f).isSome = true
        rw [hft]
        rfl
  · intro h
    cases a with
    | peers => exact Rings.occurs_head (l := s.peerList.map .peer) rfl
    | peer p => exact hentry (h := .peers) rfl (List.mem_map_of_mem h)
    | elements p => exact Rings.occurs_head (ring_elements h)
    | fetches p => exact Rings.occurs_head (ring_fetches h)
    | element e =>
      obtain ⟨el, hel⟩ := Option.isSome_iff_exists.mp h
      obtain ⟨hp, hmem⟩ := hS.elements.listed e el.peer (by rw [elementOwner, hel]; rfl)
      exact hentry (ring_elements hp) (List.mem_map_of_mem hmem)
    | fetch f =>
      obtain ⟨ft, hft⟩ := Option.isSome_iff_exists.mp h
      obtain ⟨hp, hmem⟩ := hS.fetch_peer_mem hft
      exact hentry (ring_fetches hp) (List.mem_map_of_mem hmem)

theorem listed_of_represents {s : Store T} (hS : s.Sound) {memory : Links Node} (h : Represents memory (s.rings hS)) :
    s.Listed memory where
  peers := h.linked .peers _ rfl
  elements p hp := h.linked _ _ (ring_elements hp)
  fetches p hp := h.linked _ _ (ring_fetches hp)
  live a := (h.live a).trans (occurs_iff hS a)

end Store

/-! ## the work of an event -/

/-- The operations on the lists that an event can bring about.  The three nodes of a peer are parts of one structure. -/
inductive ListWork : Event → List (ListOp Node) → Prop
  | nothing (event : Event) (h : ∀ p, event ≠ .disconnect p) : ListWork event []
  | connected (p : Addr) (connection : Connection) (isLocal : Bool) :
    ListWork (.connect p connection isLocal)
      [.init (.peer p), .init (.elements p), .init (.fetches p), .addTail (.peer p) .peers]
  | added (p : Addr) (request : Json) (e : Addr) (hm : request.HasMethod "add") :
    ListWork (.rpc p request) [.init (.element e), .addTail (.element e) (.elements p)]
  | refused (p : Addr) (request : Json) (e : Addr) (hm : request.HasMethod "add") :
    ListWork (.rpc p request) [.init (.element e), .free (.element e)]
  | removed (p : Addr) (request : Json) (e : Addr) (hm : request.HasMethod "remove") :
    ListWork (.rpc p request) [.remove (.element e)]
  | fetched (p : Addr) (request : Json) (f : Addr) (hm : request.HasMethod "fetch") :
    ListWork (.rpc p request) [.init (.fetch f), .addTail (.fetch f) (.fetches p)]
  | unfetched (p : Addr) (request : Json) (f : Addr) (hm : request.HasMethod "unfetch") :
    ListWork (.rpc p request) [.remove (.fetch f)]
  | disconnected (p : Addr) :
    ListWork (.disconnect p)
      [.clear (.fetches p), .clear (.elements p), .remove (.peer p), .free (.elements p), .free (.fetches p)]

/-- the operations take the lists of `s` to those of `s'` -/
def Relists (ops : List (ListOp Node)) (s s' : Store T) : Prop :=
  ∀ hS : s.Sound, ∃ r, DoesAll ops (s.rings hS) r ∧ r.ring = s'.ring

theorem relists_nil {s s' : Store T} (hp : s'.peerList = s.peerList) (he : s'.elementList = s.elementList)
    (hf : s'.fetchList = s.fetchList) : Relists [] s s' := by
  intro hS
  refine ⟨s.rings hS, .nil _, ?_⟩
  funext a
  cases a <;> simp only [Store.ring, Store.rings, hp, he, hf]

/-- an element or a fetch that is linked -/
theorem does_new {r : Rings Node} {head new : Node} {l : List Node} (hnew : ¬ r.Occurs new) (hl : r.ring head = some l) :
    ∃ r', DoesAll [.init new, .addTail new head] r r' ∧
      r'.ring = Function.update (Function.update r.ring new none) head (some (l ++ [new])) := by
  have hne : head ≠ new := by
    rintro rfl
    exact hnew (Rings.occurs_head hl)
  have hl' : (r.init new hnew).ring head = some l := (Function.update_of_ne hne _ _).trans hl
  have hinit : (r.init new hnew).ring new = some [] := Function.update_self _ _ _
  refine ⟨_, .cons (.init new hnew) (.cons (.addTail head new l hl' hinit hne.symm) (.nil _)), ?_⟩
  show Function.update (Function.update (Function.update r.ring new (some [])) new none) head _ = _
  rw [Function.update_idem]

variable {s s' : Store T} {p : Addr}

theorem relists_added {e : Addr} (hp : p ∈ s.peerList) (he : s.elements e = none) (hpeers : s'.peerList = s.peerList)
    (hlist : s'.elementList = Function.update s.elementList p (s.elementList p ++ [e]))
    (hfetch : s'.fetchList = s.fetchList) :
    Relists [.init (.element e), .addTail (.element e) (.elements p)] s s' := by
  intro hS
  have hnew : ¬ (s.rings hS).Occurs (.element e) := by
    rw [Store.occurs_iff]
    show ¬ (s.elements e).isSome = true
    rw [he]
    exact Bool.false_ne_true
  obtain ⟨r, hr, hring⟩ := does_new hnew (Store.rings_elements hS hp)
  refine ⟨r, hr, hring.trans ?_⟩
  funext a
  by_cases ha : a = .elements p
  · subst ha
    rw [Function.update_self, Store.ring, if_pos (hpeers ▸ hp), hlist, Function.update_self, List.map_append]
    rfl
  · rw [Function.update_of_ne ha]
    by_cases hae : a = .element e
    · subst hae
      rw [Function.update_self]
      rfl
    · rw [Function.update_of_ne hae]
      cases a with
      | elements q =>
        have hq : q ≠ p := fun h => ha (h ▸ rfl)
        simp only [Store.ring, Store.rings, hpeers, hlist, Function.update_of_ne hq]
      | _ => simp only [Store.ring, Store.rings, hpeers, hfetch]

theorem relists_refused {e : Addr} (he : s.elements e = none) (hpeers : s'.peerList = s.peerList)
    (hlist : s'.elementList = s.elementList) (hfetch : s'.fetchList = s.fetchList) :
    Relists [.init (.element e), .free (.element e)] s s' := by
  intro hS
  have hnew : ¬ (s.rings hS).Occurs (.element e) := by
    rw [Store.occurs_iff]
    show ¬ (s.elements e).isSome = true
    rw [he]
    exact Bool.false_ne_true
  have hinit : ((s.rings hS).init _ hnew).ring (.element e) = some [] := Function.update_self _ _ _
  refine ⟨_, .cons (.init _ hnew) (.cons (.free _ hinit) (.nil _)), ?_⟩
  show Function.update (Function.update s.ring (.element e) (some [])) (.element e) none = _
  have hnone : (none : Option (List Node)) = s.ring (.element e) := rfl
  rw [Function.update_idem, hnone, Function.update_eq_self]
  obtain ⟨r, hr, hring⟩ := relists_nil hpeers hlist hfetch hS
  cases hr
  exact hring

theorem relists_fetched {f : Addr} (hp : p ∈ s.peerList) (hf : s.fetches f = none) (hpeers : s'.peerList = s.peerList)
    (hlist : s'.elementList = s.elementList)
    (hfetch : s'.fetchList = Function.update s.fetchList p (s.fetchList p ++ [f])) :
    Relists [.init (.fetch f), .addTail (.fetch f) (.fetches p)] s s' := by
  intro hS
  have hnew : ¬ (s.rings hS).Occurs (.fetch f) := by
    rw [Store.occurs_iff]
    show ¬ (s.fetches f).isSome = true
    rw [hf]
    exact Bool.false_ne_true
  obtain ⟨r, hr, hring⟩ := does_new hnew (Store.rings_fetches hS hp)
  refine ⟨r, hr, hring.trans ?_⟩
  funext a
  by_cases ha : a = .fetches p
  · subst ha
    rw [Function.update_self, Store.ring, if_pos (hpeers ▸ hp), hfetch, Function.update_self, List.map_append]
    rfl
  · rw [Function.update_of_ne ha]
    by_cases hae : a = .fetch f
    · subst hae
      rw [Function.update_self]
      rfl
    · rw [Function.update_of_ne hae]
      cases a with
      | fetches q =>
        have hq : q ≠ p := fun h => ha (h ▸ rfl)
        simp only [Store.ring, Store.rings, hpeers, hfetch, Function.update_of_ne hq]
      | _ => simp only [Store.ring, Store.rings, hpeers, hlist]

theorem relists_removed {e : Addr} (hp : p ∈ s.peerList) (he : e ∈ s.elementList p) (hpeers : s'.peerList = s.peerList)
    (hlist : s'.elementList = Function.update s.elementList p ((s.elementList p).erase e))
    (hfetch : s'.fetchList = s.fetchList) : Relists [.remove (.element e)] s s' := by
  intro hS
  have hmem : Node.element e ∈ (s.elementList p).map Node.element := List.mem_map_of_mem he
  refine ⟨_, .cons (.remove _ _ _ (Store.rings_elements hS hp) hmem) (.nil _), ?_⟩
  show Function.update s.ring (Node.elements p) _ = _
  rw [← List.map_erase Store.element_injective]
  funext a
  by_cases ha : a = .elements p
  · subst ha
    rw [Function.update_self, Store.ring, if_pos (hpeers ▸ hp), hlist, Function.update_self]
  · rw [Function.update_of_ne ha]
    cases a with
    | elements q =>
      have hq : q ≠ p := fun h => ha (h ▸ rfl)
      simp only [Store.ring, hpeers, hlist, Function.update_of_ne hq]
    | _ => simp only [Store.ring, hpeers, hfetch]

theorem relists_unfetched {f : Addr} (hp : p ∈ s.peerList) (hf : f ∈ s.fetchList p) (hpeers : s'.peerList = s.peerList)
    (hlist : s'.elementList = s.elementList)
    (hfetch : s'.fetchList = Function.update s.fetchList p ((s.fetchList p).erase f)) :
    Relists [.remove (.fetch f)] s s' := by
  intro hS
  have hmem : Node.fetch f ∈ (s.fetchList p).map Node.fetch := List.mem_map_of_mem hf
  refine ⟨_, .cons (.remove _ _ _ (Store.rings_fetches hS hp) hmem) (.nil _), ?_⟩
  show Function.update s.ring (Node.fetches p) _ = _
  rw [← List.map_erase Store.fetch_injective]
  funext a
  by_cases ha : a = .fetches p
  · subst ha
    rw [Function.update_self, Store.ring, if_pos (hpeers ▸ hp), hfetch, Function.update_self]
  · rw [Function.update_of_ne ha]
    cases a with
    | fetches q =>
      have hq : q ≠ p := fun h => ha (h ▸ rfl)
      simp only [Store.ring, hpeers, hfetch, Function.update_of_ne hq]
    | _ => simp only [Store.ring, hpeers, hlist]

/-! ## a peer goes away -/

/-- the peers are the same, and the lists of those other than `p` -/
structure OthersListed (p : Addr) (b b' : Broker T) : Prop where
  peers : b'.peerList = b.peerList
  elements : ∀ q, q ≠ p → b'.elementList q = b.elementList q
  fetches : ∀ q, q ≠ p → b'.fetchList q = b.fetchList q

instance (p : Addr) : IsPreorder (Broker T) (OthersListed p) where
  refl b := ⟨rfl, fun _ _ => rfl, fun _ _ => rfl⟩
  trans a b c hab hbc := ⟨hbc.peers.trans hab.peers, fun q hq => (hbc.elements q hq).trans (hab.elements q hq),
    fun q hq => (hbc.fetches q hq).trans (hab.fetches q hq)⟩

theorem removeFetch_others {b b' : Broker T} {f : Addr} {u : Unit} (h : removeFetch p f b = some (u, b')) :
    OthersListed p b b' := by
  obtain ⟨b1, ⟨elements, rfl, -⟩, rfl⟩ := removeFetch_some h
  exact ⟨rfl, fun q hq => rfl, fun q hq => Function.update_of_ne hq _ _⟩

theorem removeElements_others {env : Env} {l : List Addr} {b b' : Broker T} {u : Unit} (hl : l.Nodup)
    (howner : ∀ e ∈ l, b.elementOwner e = some p) (h : Prog.each (removeElement env) l b = some (u, b')) :
    OthersListed p b b' := by
  induction l generalizing b with
  | nil =>
    obtain ⟨-, rfl⟩ := Prog.pure_some h
    exact refl_of (OthersListed p) b'
  | cons e l ih =>
    obtain ⟨hnotMem, hl⟩ := List.nodup_cons.mp hl
    obtain ⟨_, b1, h1, h2⟩ := Prog.bind_some h
    obtain ⟨el, ok, m, n, hel, -, rfl⟩ := removeElement_some h1
    have hpeer : el.peer = p := by
      have hown := howner e List.mem_cons_self
      rw [Store.elementOwner, show b.elements e = some el from hel] at hown
      exact Option.some.inj hown
    subst hpeer
    have hrest := ih hl (fun a ha => ?_) h2
    · exact ⟨hrest.peers, fun q hq => (hrest.elements q hq).trans (Function.update_of_ne hq _ _), hrest.fetches⟩
    · have hne : a ≠ e := by
        rintro rfl
        exact hnotMem ha
      show (Function.update b.elements e none a).map Element.peer = _
      rw [Function.update_of_ne hne]
      exact howner a (List.mem_cons_of_mem _ ha)

theorem freePeerResources_others {env : Env} {b b' : Broker T} {u : Unit} (hS : b.toStore.Sound) (hp : p ∈ b.peerList)
    (h : freePeerResources env p b = some (u, b')) :
    b'.peerList = b.peerList.erase p ∧ (∀ q, q ≠ p → b'.elementList q = b.elementList q) ∧
      ∀ q, q ≠ p → b'.fetchList q = b.fetchList q := by
  obtain ⟨b2, b3, b4, r2, h3, h4, rfl⟩ := freePeerResources_some h
  have hS2 : b2.toStore.Sound := by
    rw [r2.store]
    exact hS
  have hp2 : p ∈ b2.peerList := by
    rw [congrArg Store.peerList r2.store]
    exact hp
  obtain ⟨c3, p3, -, -⟩ := removeFetches_chain (fun _ _ => True) env hS2 hp2 (hS2.fetches.nodup p hp2)
    (fun f hf => hf) h3
  have hS3 := sound_chain hS2 c3
  have hp3 : p ∈ b3.peerList := by
    rw [p3]
    exact hp2
  have o3 : OthersListed p b2 b3 :=
    Does.each (E := OthersListed p) (b2.fetchList p) (fun f _ s a t ht => removeFetch_others ht) b2 () b3 h3
  have o4 := removeElements_others (hS3.elements.nodup p hp3) (fun e he => hS3.elements.live p hp3 e he) h4
  obtain ⟨hpeers, helements, hfetches⟩ := trans_of (OthersListed p) o3 o4
  rw [r2.store] at hpeers helements hfetches
  exact ⟨congrArg (List.erase · p) hpeers, helements, hfetches⟩

theorem relists_disconnected (hp : p ∈ s.peerList) (hpeers : s'.peerList = s.peerList.erase p)
    (hlist : ∀ q, q ≠ p → s'.elementList q = s.elementList q) (hfetch : ∀ q, q ≠ p → s'.fetchList q = s.fetchList q) :
    Relists [.clear (.fetches p), .clear (.elements p), .remove (.peer p), .free (.elements p), .free (.fetches p)]
      s s' := by
  intro hS
  have hmem : Node.peer p ∈ s.peerList.map Node.peer := List.mem_map_of_mem hp
  have hother : ∀ q, q ∈ s'.peerList ↔ q ≠ p ∧ q ∈ s.peerList := fun q => by
    rw [hpeers]
    exact hS.peers.mem_erase_iff
  have hfetches := Store.rings_fetches hS hp
  let r₁ := (s.rings hS).restrict _ _ [] hfetches (List.nil_sublist _)
  have helements : r₁.ring (.elements p) = some ((s.elementList p).map .element) := by
    simp [r₁, Store.rings_elements hS hp]
  let r₂ := r₁.restrict _ _ [] helements (List.nil_sublist _)
  have hring₂ : r₂.ring .peers = some (s.peerList.map .peer) := by
    simp [r₂, r₁, Store.rings_peers hS]
  let r₃ := r₂.restrict _ _ _ hring₂ (List.erase_sublist : ((s.peerList.map Node.peer).erase (.peer p)).Sublist _)
  have helements₃ : r₃.ring (.elements p) = some [] := by simp [r₃, r₂]
  let r₄ := r₃.free _ helements₃
  have hfetches₄ : r₄.ring (.fetches p) = some [] := by simp [r₄, r₃, r₂, r₁]
  refine ⟨r₄.free _ hfetches₄, .cons (.clear _ _ hfetches) (.cons (.clear _ _ helements)
    (.cons (.remove _ _ _ hring₂ hmem) (.cons (.free _ helements₃) (.cons (.free _ hfetches₄) (.nil _))))), ?_⟩
  show Function.update (Function.update (Function.update (Function.update (Function.update s.ring
    (Node.fetches p) (some [])) (Node.elements p) (some []))
    Node.peers (some ((s.peerList.map Node.peer).erase (Node.peer p)))) (Node.elements p) none) (Node.fetches p) none = _
  rw [← List.map_erase Store.peer_injective, ← hpeers]
  have hgone : p ∉ s'.peerList := fun h => ((hother p).mp h).1 rfl
  funext a
  cases a with
  | peers => simp [Store.ring]
  | elements q =>
    by_cases hq : q = p
    · subst hq
      simp [Store.ring, hgone]
    · simp [Store.ring, hq, hother, hlist q hq]
  | fetches q =>
    by_cases hq : q = p
    · subst hq
      simp [Store.ring, hgone]
    · simp [Store.ring, hq, hother, hfetch q hq]
  | _ => simp [Store.ring]

theorem relists_connected (hp : p ∉ s.peerList) (hpeers : s'.peerList = s.peerList ++ [p])
    (hlist : s'.elementList = Function.update s.elementList p [])
    (hfetch : s'.fetchList = Function.update s.fetchList p []) :
    Relists [.init (.peer p), .init (.elements p), .init (.fetches p), .addTail (.peer p) .peers] s s' := by
  intro hS
  have hpeer : ¬ (s.rings hS).Occurs (.peer p) := by
    rw [Store.occurs_iff]
    exact hp
  let r₁ := (s.rings hS).init _ hpeer
  have helements : ¬ r₁.Occurs (.elements p) := by
    rw [Rings.occurs_init, Store.occurs_iff]
    simpa [Store.HasNode] using hp
  let r₂ := r₁.init _ helements
  have hfetches : ¬ r₂.Occurs (.fetches p) := by
    rw [Rings.occurs_init, Rings.occurs_init, Store.occurs_iff]
    simpa [Store.HasNode] using hp
  let r₃ := r₂.init _ hfetches
  have hring : r₃.ring .peers = some (s.peerList.map .peer) := by
    simp [r₃, r₂, r₁, Store.rings_peers hS]
  have hnew : r₃.ring (.peer p) = some [] := by simp [r₃, r₂, r₁]
  refine ⟨_, .cons (.init _ hpeer) (.cons (.init _ helements) (.cons (.init _ hfetches)
    (.cons (.addTail _ _ _ hring hnew (by simp)) (.nil _)))), ?_⟩
  show Function.update (Function.update (Function.update (Function.update (Function.update s.ring
    (Node.peer p) (some [])) (Node.elements p) (some [])) (Node.fetches p) (some [])) (Node.peer p) none)
    Node.peers (some (s.peerList.map Node.peer ++ [Node.peer p])) = _
  have hother : ∀ q, q ∈ s'.peerList ↔ q ∈ s.peerList ∨ q = p := fun q => by
    rw [hpeers, List.mem_append, List.mem_singleton]
  funext a
  cases a with
  | peers => simp [Store.ring, hpeers]
  | peer q =>
    by_cases hq : q = p
    · subst hq
      simp [Store.ring]
    · simp [Store.ring, hq]
  | elements q =>
    by_cases hq : q = p
    · subst hq
      simp [Store.ring, hother, hlist]
    · simp [Store.ring, hq, hother, hlist]
  | fetches q =>
    by_cases hq : q = p
    · subst hq
      simp [Store.ring, hother, hfetch]
    · simp [Store.ring, hq, hother, hfetch]
  | _ => simp [Store.ring]

/-! ## all events -/

variable {env : Env}

theorem handled_lists {b b' : Broker T} {request : Json} {res : Response} (hS : b.toStore.Sound) (hp : p ∈ b.peerList)
    (h : Handled env b p request res b') :
    ∃ ops, ListWork (.rpc p request) ops ∧ Relists ops b.toStore b'.toStore := by
  have hfresh := hS.unused b.fresh (Nat.le_refl _)
  have hnothing : ListWork (.rpc p request) [] := .nothing _ fun q e => by cases e
  cases h with
  | change hm h => cases h <;> exact ⟨[], hnothing, relists_nil rfl rfl rfl⟩
  | add hm h =>
    cases h with
    | rejected json n => exact ⟨[], hnothing, relists_nil rfl rfl rfl⟩
    | notNotified json el n n' b1 hacc h1 =>
      obtain ⟨sub, table, l, k, -, rfl⟩ := enterNewElement h1
      exact ⟨_, .refused p request b.fresh hm, relists_refused hfresh.1 rfl rfl rfl⟩
    | full json el n n' b1 hacc h1 hput =>
      obtain ⟨sub, table, l, k, -, rfl⟩ := enterNewElement h1
      exact ⟨_, .refused p request b.fresh hm, relists_refused hfresh.1 rfl rfl rfl⟩
    | added json el n n' b1 hacc h1 hput =>
      obtain ⟨sub, table, l, k, -, rfl⟩ := enterNewElement h1
      exact ⟨_, .added p request b.fresh hm, relists_added hp hfresh.1 rfl rfl rfl⟩
  | remove hm h =>
    rcases removeElementFromPeer_some h with ⟨json, n, -, rfl⟩ | ⟨params, path, e, b1, json, n, -, hfind, h1, -, rfl⟩
    · exact ⟨[], hnothing, relists_nil rfl rfl rfl⟩
    · have hmem := (findElement_some hfind).1
      obtain ⟨el, hel, hpeer⟩ := hS.element_of_mem hp hmem
      obtain ⟨el', ok, l, k, hel', -, rfl⟩ := removeElement_some h1
      obtain rfl : el = el' := Option.some.inj (hel.symm.trans hel')
      subst hpeer
      exact ⟨_, .removed el.peer request e hm, relists_removed hp hmem rfl rfl rfl⟩
  | fetch hm h =>
    cases h with
    | rejected json n h => exact ⟨[], hnothing, relists_nil rfl rfl rfl⟩
    | fetched json ft ok n n' b1 h h1 =>
      obtain ⟨sub, elements, l, k, -, rfl⟩ := enterElements hS.nodup_allElements h1
      exact ⟨_, .fetched p request b.fresh hm, relists_fetched hp hfresh.2 rfl rfl rfl⟩
  | unfetch hm h =>
    rcases removeFetchFromPeer_some h with ⟨json, n, -, rfl⟩ | ⟨f, b1, json, n, hf, h1, -, rfl⟩
    · exact ⟨[], hnothing, relists_nil rfl rfl rfl⟩
    · obtain ⟨rfl, -⟩ := removeFetch_step (fun _ _ => True) env hS hp hf h1
      exact ⟨_, .unfetched p request f hm, relists_unfetched hp hf rfl rfl rfl⟩
  | authenticate hm h => cases h <;> exact ⟨[], hnothing, relists_nil rfl rfl rfl⟩
  | passwd hm h =>
    have hstore := (bystander_handleChangePassword p request b res b' h).store
    rw [hstore]
    exact ⟨[], hnothing, relists_nil rfl rfl rfl⟩
  | other hm h hu =>
    rw [h.store]
    exact ⟨[], hnothing, relists_nil rfl rfl rfl⟩

/-- Every event works on the lists such that they are those of the state behind it. -/
theorem stepped_lists {b b' : Broker T} {event : Event} (hS : b.toStore.Sound) (h : Stepped env b event b') :
    ∃ ops, ListWork event ops ∧ Relists ops b.toStore b'.toStore := by
  cases h with
  | notConnected p connection isLocal n =>
    exact ⟨[], .nothing _ fun q e => (by cases e), relists_nil rfl rfl rfl⟩
  | connected p connection isLocal n hp => exact ⟨_, .connected p connection isLocal, relists_connected hp rfl rfl rfl⟩
  | answered p request res ret b1 b2 hp hr h1 h2 =>
    obtain ⟨_, n, l, rfl, -, -⟩ := sendResponse_some h2
    have h3 := handlerOf_some h1
    obtain ⟨ops, hwork, hrelists⟩ := handled_lists hS hp h3
    exact ⟨ops, hwork, hrelists⟩
  | response p request response resultType ret b1 hp hr h1 =>
    have hstore := (does_handleRoutingResponse env request response resultType p b ret b1 h1).store
    refine ⟨[], .nothing _ fun q e => (by cases e), ?_⟩
    show Relists [] b.toStore b1.toStore
    rw [hstore]
    exact relists_nil rfl rfl rfl
  | timeout r b1 ht h1 =>
    rw [(does_requestTimeoutHandler env r b () _ h1).store]
    exact ⟨[], .nothing _ fun q e => (by cases e), relists_nil rfl rfl rfl⟩
  | disconnected p b1 hp h1 =>
    obtain ⟨hpeers, helements, hfetches⟩ := freePeerResources_others hS hp h1
    exact ⟨_, .disconnected p, relists_disconnected hp hpeers helements hfetches⟩

/-! ## runs -/

theorem DoesAll.append {ν : Type} [DecidableEq ν] {ops ops' : List (ListOp ν)} {r r' r'' : Rings ν}
    (h : DoesAll ops r r') (h' : DoesAll ops' r' r'') : DoesAll (ops ++ ops') r r'' := by
  induction h with
  | nil r => exact h'
  | cons hop hops ih => exact .cons hop (ih h')

/-- the operations of the inputs so far have made the lists -/
def ListsMade (l : List Input) (b : Broker T) : Prop :=
  ∃ opss, List.Forall₂ (fun (i : Input) ops => ListWork i.event ops) l opss ∧
    ∃ r, DoesAll (.init .peers :: opss.flatten) Rings.empty r ∧ r.ring = b.toStore.ring

theorem listsMade_start {platform : Platform} {b : Broker T} (h : b.IsStart platform) : ListsMade [] b := by
  obtain ⟨allGroups, userData, passwordFile, rfl⟩ := h
  have hnew : ¬ (Rings.empty : Rings Node).Occurs Node.peers := by
    rintro (h | ⟨h, l, hl, -⟩)
    · cases h
    · cases hl
  refine ⟨[], .nil, _, .cons (.init Node.peers hnew) (.nil _), ?_⟩
  funext a
  cases a <;> simp [Rings.empty, Store.ring, Broker.start]

theorem listsMade_step {platform : Platform} {l : List Input} {b b' : Broker T} {i : Input} (hS : b.toStore.Sound)
    (h : ListsMade l b) (hs : step platform b i = some b') : ListsMade (l ++ [i]) b' := by
  obtain ⟨opss, hwork, r, hr, hring⟩ := h
  obtain ⟨ops, hops, hrelists⟩ := stepped_lists (b := { b with calls := 0 }) hS (step_cases hs)
  obtain ⟨r', hr', hring'⟩ := hrelists hS
  have hsame : r = b.toStore.rings hS := Rings.ext hring
  refine ⟨opss ++ [ops], List.rel_append hwork (.cons hops .nil), r', ?_, hring'⟩
  rw [List.flatten_append, List.flatten_singleton, ← List.cons_append]
  exact hr.append (hsame ▸ hr')

variable {platform : Platform}

/-- In every run in which all peers are initialised the operations on the lists are defined, whatever else fails in the
run, and leave the lists of the state it reaches, linked both ways, and no other node allocated. -/
theorem lists_in_memory {b₀ : Broker T} {s : Service T} {l : List Input} (h0 : b₀.IsStart platform)
    (hinits : ∀ i ∈ l, i.InitsPeer platform) (h : run (serve platform) (.of b₀) l = some s) :
    ∃ opss, List.Forall₂ (fun (i : Input) ops => ListWork i.event ops) l opss ∧
      ∀ (initial : Node → ListLink Node) (fuel : Nat), opss.flatten.length + 1 < fuel →
        ∃ memory, execAll initial fuel (.init .peers :: opss.flatten) (fun _ => none) = some ((), memory) ∧
          s.toStore.Listed memory := by
  rw [run_serve_of hinits] at h
  obtain ⟨b, hb, rfl⟩ := Option.map_eq_some_iff.mp h
  have hboth : b.toStore.Sound ∧ ListsMade l b := by
    refine run_history (I := fun l (b : Broker T) => b.toStore.Sound ∧ ListsMade l b) (c := fun _ _ => True)
      (fun pre b i t hI _ hs => ⟨sound_step hI.1 hs, listsMade_step hI.1 hI.2 hs⟩) ⟨sound_run (l := []) h0 rfl, ?_⟩
      (Along.of_forall (fun _ _ => trivial) b₀ l) hb
    exact listsMade_start h0
  obtain ⟨hS, opss, hwork, r, hr, hring⟩ := hboth
  have hsame : r = b.toStore.rings hS := Rings.ext hring
  refine ⟨opss, hwork, fun initial fuel hfuel => ?_⟩
  have hlength : ∀ head l, (Rings.empty : Rings Node).ring head = some l → l.length ≤ 0 := fun head l hl => by cases hl
  have hexec : Ends (execAll initial fuel (.init .peers :: opss.flatten)) (fun _ => none) fun _ t => Represents t r :=
    execAll_spec represents_empty hr hlength (by rw [List.length_cons, Nat.zero_add]; exact hfuel)
  obtain ⟨⟨⟩, memory, hexec, hmemory⟩ := hexec
  exact ⟨memory, hexec, Store.listed_of_represents hS (hsame ▸ hmemory)⟩

/-! ## the loops over the lists -/

/-- A loop over one of the lists runs its body at each entry, in the order of the list and once, whatever the body does
to the entry it is at and to the rest of the state: the entries still to come have to be linked as before. -/
theorem visits_each {σ : Type} (links : σ → Links Node) {s : Store T} {t : σ} (h : s.Listed (links t)) {head : Node}
    {l : List Node} (hl : s.ring head = some l) (body : Node → Prog σ Unit)
    (hbody : ∀ visited x rest u v, l = visited ++ x :: rest → Prog.each body visited t = some ((), u) →
      body x u = some ((), v) →
        (∀ a ∈ rest, (links v).next a = (links u).next a) ∧ (links v head).isSome = (links u head).isSome)
    {fuel : Nat} (hfuel : l.length < fuel) :
    listForEachSafe (fun u => (links u).next) head body fuel t = Prog.each body l t := by
  have hlinked : Linked (links t) head l := by
    rcases Store.ring_cases hl with ⟨rfl, rfl⟩ | ⟨p, hp, rfl, rfl⟩ | ⟨p, hp, rfl, rfl⟩
    · exact h.peers
    · exact h.elements p hp
    · exact h.fetches p hp
  -- some entries have been visited, and those that are left are linked as they have been at the beginning
  refine listForEachSafe_eq (I := fun u rest => ∃ visited, l = visited ++ rest ∧
    Prog.each body visited t = some ((), u) ∧ (∀ a ∈ rest, (links u).next a = (links t).next a) ∧
    (links u head).isSome = true) ?_ ?_ ?_ hlinked.next_head hfuel
  · rintro u rest ⟨visited, hsplit, -, hnext, hlive⟩
    have hchain : (rest ++ [head]).IsChain fun a b => (links t).next a = some b := by
      have hall := (Onward.of_linked hlinked).chain
      rw [hsplit, List.append_assoc] at hall
      exact hall.right_of_append
    refine ⟨?_, ?_, fun hm => (Onward.of_linked hlinked).notMem (hsplit ▸ List.mem_append_right _ hm)⟩
    · rw [List.isChain_iff_forall_rel_of_append_cons_cons] at hchain ⊢
      rintro a b l₁ l₂ e
      have ha : a ∈ rest := by
        have hmem : a ∈ (rest ++ [head]).dropLast := by
          rw [e, List.dropLast_append_of_ne_nil (List.cons_ne_nil _ _),
            List.dropLast_cons_of_ne_nil (List.cons_ne_nil _ _)]
          exact List.mem_append_right _ List.mem_cons_self
        rwa [List.dropLast_concat] at hmem
      exact (hnext a ha).trans (hchain e)
    · rw [Links.next, Option.isSome_map]
      exact hlive
  · rintro u v x rest ⟨visited, hsplit, hrun, hnext, hlive⟩ hx
    obtain ⟨hkeep, hhead⟩ := hbody visited x rest u v hsplit hrun hx
    refine ⟨visited ++ [x], ?_, ?_, fun a ha => (hkeep a ha).trans (hnext a (List.mem_cons_of_mem _ ha)),
      hhead.trans hlive⟩
    · rw [hsplit, List.append_assoc]
      rfl
    · rw [Prog.each_append, Prog.bind_of_some hrun, Prog.each_cons, Prog.bind_of_some hx]
      rfl
  · exact ⟨[], rfl, rfl, fun _ _ => rfl, hlinked.live List.mem_cons_self⟩

end

/-- two peers connect, one of them adds a state, which the other one fetches; they leave one after the other -/
def linkAndUnlink : List Input :=
  [.connect 1 .websocket true, .connect 2 .websocket true,
   .rpc 1 (.request none "add" [("path", .str "a"), ("value", .bool true)]),
   .rpc 2 (.request none "fetch" [("id", .str "f")]),
   .rpc 1 (.request none "add" [("path", .str "b"), ("value", .bool true)]),
   .rpc 1 (.request none "remove" [("path", .str "a")]), .disconnect 2, .disconnect 1].map Event.good

theorem lists_in_memory_linkAndUnlink : ∃ s : Service SlotTable,
    run (serve Platform.small) (.of (Broker.start Platform.small.config none none [])) linkAndUnlink = some s ∧
      ∃ opss, List.Forall₂ (fun (i : Input) ops => ListWork i.event ops) linkAndUnlink opss ∧
        ∀ (initial : Node → ListLink Node) (fuel : Nat), opss.flatten.length + 1 < fuel →
          ∃ memory, execAll initial fuel (.init .peers :: opss.flatten) (fun _ => none) = some ((), memory) ∧
            s.toStore.Listed memory := by
  have hrun : (run (serve Platform.small) (.of (Broker.start (T := SlotTable) Platform.small.config none none []))
      linkAndUnlink).isSome = true := by decide +kernel
  have hinits : ∀ i ∈ linkAndUnlink, i.InitsPeer Platform.small := by
    intro i hi
    obtain ⟨event, -, rfl⟩ := List.mem_map.mp hi
    exact fun _ _ _ _ _ => rfl
  obtain ⟨s, hs⟩ := Option.isSome_iff_exists.mp hrun
  exact ⟨s, hs, lists_in_memory (isStart_start _ _ _ []) hinits hs⟩

/-- the broker with the peers 1 and 2 -/
def twoPeers : Store SlotTable where
  peerList := [1, 2]
  elementList _ := []
  fetchList _ := []
  elements _ := none
  fetches _ := none
  elementTable := HashTable.create 0
  fresh := 0

/-- its lists in memory -/
def twoPeersLinked : Links Node
  | .peers => some ⟨.peer 1, .peer 2⟩
  | .peer p => if p = 1 then some ⟨.peer 2, .peers⟩ else if p = 2 then some ⟨.peers, .peer 1⟩ else none
  | .elements p => if p = 1 ∨ p = 2 then some ⟨.elements p, .elements p⟩ else none
  | .fetches p => if p = 1 ∨ p = 2 then some ⟨.fetches p, .fetches p⟩ else none
  | _ => none

theorem twoPeers_listed : twoPeers.Listed twoPeersLinked where
  peers := ⟨by decide, by simp [twoPeers, Links.Adj, Links.next, Links.prev, twoPeersLinked]⟩
  elements p hp := linked_nil (if_pos (by simpa [twoPeers] using hp))
  fetches p hp := linked_nil (if_pos (by simpa [twoPeers] using hp))
  live a := by
    cases a with
    | peer p =>
      by_cases h1 : p = 1
      · simp [h1, twoPeersLinked, twoPeers, Store.HasNode]
      · by_cases h2 : p = 2 <;> simp [h1, h2, twoPeersLinked, twoPeers, Store.HasNode]
    | _ => simp [twoPeersLinked, twoPeers, Store.HasNode]

/-- the peers are unlinked and freed by the loop over them -/
theorem visits_each_twoPeers :
    listForEachSafe (fun u : Links Node => u.next) .peers removeNode 3 twoPeersLinked
      = Prog.each removeNode [.peer 1, .peer 2] twoPeersLinked := by
  refine visits_each (fun u => u) twoPeers_listed (l := [.peer 1, .peer 2]) rfl removeNode ?_ (by decide)
  intro visited x rest u v hsplit hu hx
  match visited, hsplit, hu with
  | [], hsplit, hu =>
    cases hsplit
    cases hu
    cases hx
    exact ⟨List.forall_mem_singleton.mpr rfl, rfl⟩
  | [a], hsplit, hu =>
    cases hsplit
    cases hu
    cases hx
    exact ⟨fun b hb => absurd hb List.not_mem_nil, rfl⟩
  | a :: b :: visited, hsplit, hu =>
    have hlength := congrArg List.length hsplit
    simp at hlength

end Cjet
