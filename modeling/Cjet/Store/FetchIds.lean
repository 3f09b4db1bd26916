import Cjet.Store.Chain
import Mathlib.Data.List.Pairwise

/-!
# Ids of fetches

A fetch is known by its id.  `ids_equal` compares two numbers by their `valueint`, so that different numbers are one
id where they are truncated or saturated to the same integer.

* `Broker.fetchIds`     the ids of the live fetches of a peer, oldest first;
* `Confusable`          different numbers that `ids_equal` cannot tell apart;
* `Apart`               the invariant: no two live fetches of a peer have ids that `ids_equal` takes for one;
* `FetchedById`, `UnfetchedById`   what a fetch and an unfetch of an id are to do;
* `fetch_identity`      in every reachable state they do so exactly where no live id is confusable with the given one.
-/

set_option linter.unusedVariables false
set_option linter.unusedSectionVars false

namespace Cjet
open Stateful Alloc

/-! ## comparing ids -/

/-- what `get_fetch_id` lets pass -/
def Json.IsFetchId (id : Json) : Prop := (id.isString || id.isNumber) = true

/-- different numbers with one `valueint` -/
def Confusable (i j : Json) : Prop :=
  ∃ q r : Rat, i = .num q ∧ j = .num r ∧ q ≠ r ∧ Json.valueInt q = Json.valueInt r

theorem getFetchId_some {params id : Json} (h : getFetchId params = .ok id) :
    params.getObjectItem "id" = some id ∧ id.IsFetchId := by
  unfold getFetchId at h
  cases hid : params.getObjectItem "id" with
  | none => rw [hid] at h; cases h
  | some i =>
    rw [hid] at h
    by_cases hi : (i.isString || i.isNumber) = true
    · simp only [if_pos hi] at h
      cases h
      exact ⟨rfl, hi⟩
    · simp only [if_neg hi] at h
      cases h

theorem getFetchId_of {params id : Json} (h : params.getObjectItem "id" = some id) (hid : id.IsFetchId) :
    getFetchId params = .ok id := by
  unfold getFetchId
  rw [h]
  exact if_pos hid

theorem idsEqual_self {i : Json} (h : i.IsFetchId) : idsEqual i i = true := by
  cases i with
  | num q => exact beq_self_eq_true _
  | str s => exact beq_self_eq_true _
  | _ => cases h

theorem idsEqual_iff {i : Json} (h : i.IsFetchId) (j : Json) : idsEqual i j = true ↔ i = j ∨ Confusable i j := by
  constructor
  · intro e
    cases i with
    | num q =>
      cases j with
      | num r =>
        by_cases hqr : q = r
        · exact Or.inl (congrArg Json.num hqr)
        · exact Or.inr ⟨q, r, rfl, rfl, hqr, eq_of_beq e⟩
      | _ => cases e
    | str s =>
      cases j with
      | str t => exact Or.inl (congrArg Json.str (eq_of_beq e))
      | _ => cases e
    | _ => cases h
  · rintro (rfl | ⟨q, r, rfl, rfl, _, hv⟩)
    · exact idsEqual_self h
    · exact beq_iff_eq.mpr hv

theorem idsEqual_comm (i j : Json) : idsEqual i j = idsEqual j i := by
  cases i with
  | num q =>
    cases j with
    | num r => exact Bool.beq_comm
    | _ => rfl
  | str s =>
    cases j with
    | str t => exact Bool.beq_comm
    | _ => rfl
  | _ => cases j <;> rfl

theorem idsEqual_trans {i j k : Json} (h : idsEqual i k = true) (h' : idsEqual j k = true) : idsEqual i j = true := by
  cases k with
  | num r =>
    cases i with
    | num q =>
      cases j with
      | num t => exact beq_iff_eq.mpr ((eq_of_beq h).trans (eq_of_beq h').symm)
      | _ => cases h'
    | _ => cases h
  | str s =>
    cases i with
    | str t =>
      cases j with
      | str u => exact beq_iff_eq.mpr ((eq_of_beq h).trans (eq_of_beq h').symm)
      | _ => cases h'
    | _ => cases h
  | _ => cases i <;> cases h

section
variable {T : Type}

/-! ## the ids of a peer -/

def Broker.fetchId (b : Broker T) (f : Addr) : Option Json := (b.fetches f).bind fun ft => ft.fetchId

def Broker.fetchIds (b : Broker T) (p : Addr) : List Json := (b.fetchList p).filterMap b.fetchId

theorem mem_fetchIds {b : Broker T} {p : Addr} {id : Json} :
    id ∈ b.fetchIds p ↔ ∃ f ∈ b.fetchList p, b.fetchId f = some id := List.mem_filterMap

theorem findFetch_eq (b : Broker T) (p : Addr) (id : Json) :
    findFetch b p id = (b.fetchList p).find? fun f => (b.fetchId f).any fun i => idsEqual i id := by
  unfold findFetch Broker.fetchId
  congr 1
  funext f
  cases b.fetches f <;> rfl

theorem findFetch_some {b : Broker T} {p : Addr} {id : Json} {f : Addr} (h : findFetch b p id = some f) :
    f ∈ b.fetchList p ∧ ∃ i, b.fetchId f = some i ∧ idsEqual i id = true := by
  rw [findFetch_eq] at h
  refine ⟨List.mem_of_find?_eq_some h, ?_⟩
  have hf := List.find?_some h
  cases hi : b.fetchId f with
  | none => rw [hi] at hf; cases hf
  | some i => rw [hi] at hf; exact ⟨i, rfl, hf⟩

theorem findFetch_none_iff (b : Broker T) (p : Addr) (id : Json) :
    findFetch b p id = none ↔ ∀ i ∈ b.fetchIds p, idsEqual i id = false := by
  rw [findFetch_eq, List.find?_eq_none]
  constructor
  · intro h i hi
    obtain ⟨f, hf, hfi⟩ := mem_fetchIds.mp hi
    have hn := h f hf
    rw [hfi] at hn
    exact eq_false_of_ne_true hn
  · intro h f hf hany
    cases hi : b.fetchId f with
    | none => rw [hi] at hany; cases hany
    | some i =>
      rw [hi] at hany
      have hn := h i (mem_fetchIds.mpr ⟨f, hf, hi⟩)
      exact Bool.false_ne_true (hn.symm.trans hany)

/-- no two live fetches of a peer have ids that are taken for one -/
structure Broker.Apart (b : Broker T) : Prop where
  apart : ∀ p, (b.fetchIds p).Pairwise fun i j => idsEqual i j = false
  ids : ∀ p, ∀ i ∈ b.fetchIds p, i.IsFetchId
  used : ∀ p, ∀ f ∈ b.fetchList p, f < b.fresh

namespace Broker.Apart
variable {b : Broker T}

theorem nodup (h : b.Apart) (p : Addr) : (b.fetchIds p).Nodup := by
  refine (List.Pairwise.and_mem.mp (h.apart p)).imp fun {i j} ⟨hi, _, hij⟩ e => ?_
  subst e
  rw [idsEqual_self (h.ids p i hi)] at hij
  cases hij

/-- an id taken for two live ids is taken for one -/
theorem unique (h : b.Apart) {p : Addr} {i j k : Json} (hi : i ∈ b.fetchIds p) (hj : j ∈ b.fetchIds p)
    (hik : idsEqual i k = true) (hjk : idsEqual j k = true) : i = j := by
  by_contra hne
  have hsymm : Std.Symm fun i j : Json => idsEqual i j = false := ⟨fun i j hij => by rw [idsEqual_comm, hij]⟩
  have hij := (h.apart p).forall hi hj hne
  exact Bool.false_ne_true (hij.symm.trans (idsEqual_trans hik hjk))

/-- a live id belongs to one fetch -/
theorem unique_fetch (h : b.Apart) {p f g : Addr} {id : Json} (hf : f ∈ b.fetchList p) (hg : g ∈ b.fetchList p)
    (hfi : b.fetchId f = some id) (hgi : b.fetchId g = some id) : f = g := by
  by_contra hne
  have hpair := List.pairwise_filterMap.mp (h.apart p)
  have hsymm : Std.Symm fun f g : Addr => ∀ i, b.fetchId f = some i → ∀ j, b.fetchId g
    = some j → idsEqual i j = false :=
    ⟨fun f g hfg i hi j hj => by rw [idsEqual_comm, hfg j hj i hi]⟩
  have hid := hpair.forall hf hg hne id hfi id hgi
  rw [idsEqual_self (h.ids p id (mem_fetchIds.mpr ⟨f, hf, hfi⟩))] at hid
  cases hid

/-- the live id that is the given one, where none is confusable with it -/
theorem findFetch_isSome_iff (h : b.Apart) {p : Addr} {id : Json} (hc : ¬ ∃ i ∈ b.fetchIds p, Confusable i id) :
    (findFetch b p id).isSome = true ↔ id ∈ b.fetchIds p := by
  rw [← Option.ne_none_iff_isSome, Ne, findFetch_none_iff]
  constructor
  · intro hn
    simp only [not_forall, Bool.not_eq_false] at hn
    obtain ⟨i, hi, hii⟩ := hn
    rcases (idsEqual_iff (h.ids p i hi) id).mp hii with rfl | hcon
    · exact hi
    · exact absurd ⟨i, hi, hcon⟩ hc
  · intro hid hall
    have hn := hall id hid
    rw [idsEqual_self (h.ids p id hid)] at hn
    cases hn

/-- a live id confusable with the given one is found in its place -/
theorem confused (h : b.Apart) {p : Addr} {i id : Json} (hi : i ∈ b.fetchIds p) (hc : Confusable i id) :
    id ∉ b.fetchIds p ∧ (findFetch b p id).isSome = true := by
  have hii := (idsEqual_iff (h.ids p i hi) id).mpr (Or.inr hc)
  constructor
  · intro hid
    obtain rfl := h.unique hi hid hii (idsEqual_self (h.ids p id hid))
    obtain ⟨q, r, rfl, e, hne, _⟩ := hc
    exact hne (Json.num.inj e)
  · rw [← Option.ne_none_iff_isSome, Ne, findFetch_none_iff]
    intro hall
    exact Bool.false_ne_true ((hall i hi).symm.trans hii)

end Broker.Apart

/-! ## what the steps do to the fetches -/

/-- fetches go away, no other change -/
structure FetchesShrink (b b' : Broker T) : Prop where
  lists : ∀ p, (b'.fetchList p).Sublist (b.fetchList p)
  objects : ∀ f, b'.fetches f = none ∨ b'.fetches f = b.fetches f
  fresh : b.fresh ≤ b'.fresh

namespace FetchesShrink

theorem of_eq {b b' : Broker T} (hl : b'.fetchList = b.fetchList) (hf : b'.fetches = b.fetches)
    (hn : b.fresh ≤ b'.fresh) : FetchesShrink b b' := ⟨fun p => by rw [hl], fun f => Or.inr (by rw [hf]), hn⟩

theorem of_store {b b' : Broker T} (h : b'.toStore = b.toStore) : FetchesShrink b b' :=
  of_eq (congrArg Store.fetchList h) (congrArg Store.fetches h) (Nat.le_of_eq (congrArg Store.fresh h).symm)

instance : IsPreorder (Broker T) FetchesShrink where
  refl b := of_eq rfl rfl (Nat.le_refl _)
  trans a b c hab hbc := by
    refine ⟨fun p => (hbc.lists p).trans (hab.lists p), fun f => ?_, Nat.le_trans hab.fresh hbc.fresh⟩
    rcases hbc.objects f with h | h
    · exact Or.inl h
    · rw [h]
      exact hab.objects f

theorem fetchIds {b b' : Broker T} (h : FetchesShrink b b') (p : Addr) : (b'.fetchIds p).Sublist (b.fetchIds p) := by
  have hobj : ∀ l : List Addr, (l.filterMap b'.fetchId).Sublist (l.filterMap b.fetchId) := fun l => by
    induction l with
    | nil => exact List.Sublist.slnil
    | cons f l ih =>
      rw [List.filterMap_cons, List.filterMap_cons]
      rcases h.objects f with hf | hf
      · have hnone : b'.fetchId f = none := by rw [Broker.fetchId, hf]; rfl
        rw [hnone]
        cases b.fetchId f with
        | none => exact ih
        | some i => exact ih.cons i
      · have hsame : b'.fetchId f = b.fetchId f := by rw [Broker.fetchId, hf]; rfl
        rw [hsame]
        cases b.fetchId f with
        | none => exact ih
        | some i => exact ih.cons_cons i
  exact (hobj (b'.fetchList p)).trans ((h.lists p).filterMap b.fetchId)

theorem apart {b b' : Broker T} (h : FetchesShrink b b') (hb : b.Apart) : b'.Apart :=
  ⟨fun p => (hb.apart p).sublist (h.fetchIds p), fun p i hi => hb.ids p i ((h.fetchIds p).subset hi),
    fun p f hf => Nat.lt_of_lt_of_le (hb.used p f ((h.lists p).subset hf)) h.fresh⟩

end FetchesShrink

variable [HashTable T] {env : Env}

theorem shrink_removeFetch (p f : Addr) : Does FetchesShrink (removeFetch (T := T) p f) := by
  intro b u b' h
  obtain ⟨b1, ⟨elements, rfl, _⟩, rfl⟩ := removeFetch_some h
  refine ⟨fun q => ?_, fun g => ?_, Nat.le_refl _⟩
  · show (Function.update b.fetchList p ((b.fetchList p).erase f) q).Sublist (b.fetchList q)
    by_cases e : q = p
    · subst e
      rw [Function.update_self]
      exact List.erase_sublist
    · rw [Function.update_of_ne e]
  · show Function.update b.fetches f none g = none ∨ Function.update b.fetches f none g = b.fetches g
    by_cases e : g = f
    · rw [e, Function.update_self]
      exact Or.inl rfl
    · rw [Function.update_of_ne e]
      exact Or.inr rfl

theorem shrink_removeElement (e : Addr) : Does FetchesShrink (removeElement (T := T) env e) := by
  intro b u b' h
  obtain ⟨el, ok, l, n, _, _, rfl⟩ := removeElement_some h
  exact FetchesShrink.of_eq rfl rfl (Nat.le_refl _)

/-- `b'` has one fetch more: the one that the request makes -/
structure FetchAdded (env : Env) (b : Broker T) (p : Addr) (request : Json) (ft : Fetch) (b' : Broker T) : Prop where
  accepted : ∃ n, FetchAccepted env b p request ft n
  fetches : b'.fetches = Function.update b.fetches b.fresh (some ft)
  fetchList : b'.fetchList = Function.update b.fetchList p (b.fetchList p ++ [b.fresh])
  fresh : b'.fresh = b.fresh + 1

variable {p : Addr} {request : Json} {b b' : Broker T} {res : Response}

theorem addElement_shrink (h : AddElement env b p request res b') : FetchesShrink b b' := by
  cases h with
  | rejected json n => exact FetchesShrink.of_eq rfl rfl (Nat.le_refl _)
  | notNotified json el n n' b1 _ h1 =>
    obtain ⟨sub, table, l, k, _, rfl⟩ := enterNewElement h1
    exact FetchesShrink.of_eq rfl rfl (Nat.le_succ _)
  | full json el n n' b1 _ h1 _ =>
    obtain ⟨sub, table, l, k, _, rfl⟩ := enterNewElement h1
    exact FetchesShrink.of_eq rfl rfl (Nat.le_succ _)
  | added json el n n' b1 _ h1 _ =>
    obtain ⟨sub, table, l, k, _, rfl⟩ := enterNewElement h1
    exact FetchesShrink.of_eq rfl rfl (Nat.le_succ _)

theorem processFetch_added (hS : b.toStore.Sound) (h : ProcessFetch env b p request res b') :
    FetchesShrink b b' ∨ ∃ ft, FetchAdded env b p request ft b' := by
  cases h with
  | rejected json n _ => exact Or.inl (FetchesShrink.of_eq rfl rfl (Nat.le_refl _))
  | fetched json ft ok n n' b1 hacc h1 =>
    obtain ⟨sub, elements, l, k, _, rfl⟩ := enterElements hS.nodup_allElements h1
    exact Or.inr ⟨ft, ⟨n, hacc⟩, rfl, rfl, rfl⟩

theorem handled_fetches (hS : b.toStore.Sound) (h : Handled env b p request res b') :
    FetchesShrink b b' ∨ ∃ ft, FetchAdded env b p request ft b' := by
  cases h with
  | change _ h =>
    cases h with
    | rejected json n _ => exact Or.inl (FetchesShrink.of_eq rfl rfl (Nat.le_refl _))
    | replaced json e el value ok l n n' _ _ _ => exact Or.inl (FetchesShrink.of_eq rfl rfl (Nat.le_refl _))
  | add _ h => exact Or.inl (addElement_shrink h)
  | remove _ h =>
    rcases removeElementFromPeer_some h with ⟨json, n, _, rfl⟩ | ⟨params, path, e, b1, json, n, _, _, h1, _, rfl⟩
    · exact Or.inl (FetchesShrink.of_eq rfl rfl (Nat.le_refl _))
    · have h2 := shrink_removeElement e b () b1 h1
      exact Or.inl ⟨h2.lists, h2.objects, h2.fresh⟩
  | fetch _ h => exact processFetch_added hS h
  | unfetch _ h =>
    rcases removeFetchFromPeer_some h with ⟨json, n, _, rfl⟩ | ⟨f, b1, json, n, _, h1, _, rfl⟩
    · exact Or.inl (FetchesShrink.of_eq rfl rfl (Nat.le_refl _))
    · have h2 := shrink_removeFetch p f b () b1 h1
      exact Or.inl ⟨h2.lists, h2.objects, h2.fresh⟩
  | authenticate _ h =>
    cases h with
    | rejected json n _ => exact Or.inl (FetchesShrink.of_eq rfl rfl (Nat.le_refl _))
    | accepted json n user auth _ => exact Or.inl (FetchesShrink.of_eq rfl rfl (Nat.le_refl _))
  | passwd _ h => exact Or.inl (FetchesShrink.of_store (bystander_handleChangePassword p request b res b' h).store)
  | other _ h _ => exact Or.inl (FetchesShrink.of_store h.store)

theorem freePeerResources_shrink {u : Unit} (h : freePeerResources env p b = some (u, b')) : FetchesShrink b b' := by
  obtain ⟨b2, b3, b4, h2, h3, h4, rfl⟩ := freePeerResources_some h
  have s2 : FetchesShrink b b2 := FetchesShrink.of_store h2.store
  have s3 := Does.each (b2.fetchList p) (fun f _ => shrink_removeFetch p f) b2 () b3 h3
  have s4 := Does.each (b3.elementList p)
    (fun e _ => (shrink_removeElement e : Does FetchesShrink (removeElement env e))) b3 () b4 h4
  have s : FetchesShrink b b4 := trans_of FetchesShrink (trans_of FetchesShrink s2 s3) s4
  exact ⟨s.lists, s.objects, s.fresh⟩

/-- A step takes fetches away, or it is a fetch request that adds one. -/
theorem stepped_fetches {e : Event} (hS : b.toStore.Sound) (h : Stepped env b e b') :
    FetchesShrink b b' ∨ ∃ p request ft, e = .rpc p request ∧ FetchAdded env b p request ft b' := by
  cases h with
  | notConnected p connection isLocal n => exact Or.inl (FetchesShrink.of_eq rfl rfl (Nat.le_refl _))
  | connected p connection isLocal n hp =>
    refine Or.inl ⟨fun q => ?_, fun f => Or.inr rfl, Nat.le_refl _⟩
    show (Function.update b.fetchList p [] q).Sublist (b.fetchList q)
    by_cases e : q = p
    · rw [e, Function.update_self]
      exact List.nil_sublist _
    · rw [Function.update_of_ne e]
  | answered p request res ret b1 b2 hp hr h1 h2 =>
    obtain ⟨_, n, l, rfl, _, _⟩ := sendResponse_some h2
    rcases handled_fetches hS (handlerOf_some h1) with h3 | ⟨ft, h3⟩
    · exact Or.inl ⟨h3.lists, h3.objects, h3.fresh⟩
    · exact Or.inr ⟨p, request, ft, rfl, h3.accepted, h3.fetches, h3.fetchList, h3.fresh⟩
  | response p request response resultType ret b1 hp hr h1 =>
    exact Or.inl (FetchesShrink.of_store
      (does_handleRoutingResponse env request response resultType p b ret b1 h1).store)
  | timeout r b1 ht h1 => exact Or.inl (FetchesShrink.of_store (does_requestTimeoutHandler env r b () _ h1).store)
  | disconnected p b1 hp h1 => exact Or.inl (freePeerResources_shrink h1)

/-! ## the invariant -/

theorem checkFetch_ok {params id : Json} (h : checkFetch b p request = .ok (params, id)) :
    getParams request = .ok params ∧ getFetchId params = .ok id ∧ findFetch b p id = none := by
  unfold checkFetch at h
  cases hp : getParams request with
  | error err => rw [hp] at h; cases h
  | ok params' =>
    simp only [hp, bind, Except.bind] at h
    cases hm : (params'.getObjectItem "match").isSome with
    | true => rw [hm] at h; cases h
    | false =>
      rw [hm] at h
      cases hi : getFetchId params' with
      | error err => rw [hi] at h; cases h
      | ok id' =>
        rw [hi] at h
        dsimp only at h
        cases hf : findFetch b p id' with
        | some f => rw [hf] at h; cases h
        | none =>
          rw [hf] at h
          cases h
          exact ⟨rfl, hi, hf⟩

/-- the ids after a fetch has been added -/
theorem FetchAdded.fetchIds {ft : Fetch} (hb : b.Apart) (h : FetchAdded env b p request ft b') (q : Addr) :
    b'.fetchIds q = if q = p then b.fetchIds p ++ ft.fetchId.toList else b.fetchIds q := by
  have hold : ∀ q, (b.fetchList q).filterMap b'.fetchId = b.fetchIds q := fun q => by
    refine List.filterMap_congr fun f hf => ?_
    rw [Broker.fetchId, h.fetches, Function.update_of_ne (Nat.ne_of_lt (hb.used q f hf)), Broker.fetchId]
  have hnew : b'.fetchId b.fresh = ft.fetchId := by
    rw [Broker.fetchId, h.fetches, Function.update_self]
    rfl
  unfold Broker.fetchIds
  rw [h.fetchList]
  by_cases e : q = p
  · subst e
    rw [if_pos rfl, Function.update_self, List.filterMap_append, hold q, List.filterMap_cons, List.filterMap_nil, hnew]
    cases ft.fetchId <;> rfl
  · rw [if_neg e, Function.update_of_ne e]
    exact hold q

theorem FetchAdded.apart {ft : Fetch} (hb : b.Apart) (h : FetchAdded env b p request ft b') : b'.Apart := by
  obtain ⟨n, params, id, hc, hcreate⟩ := h.accepted
  obtain ⟨_, hid, hnone⟩ := checkFetch_ok hc
  have hft := (createFetch_some (congrArg Prod.fst hcreate)).2
  have hids := h.fetchIds hb
  rw [hft] at hids
  refine ⟨fun q => ?_, fun q i hi => ?_, fun q f hf => ?_⟩
  · rw [hids q]
    by_cases e : q = p
    · rw [if_pos e]
      refine List.pairwise_append.mpr ⟨hb.apart p, List.pairwise_singleton _ _, fun i hi j hj => ?_⟩
      rw [List.mem_singleton.mp hj]
      exact (findFetch_none_iff b p id).mp hnone i hi
    · rw [if_neg e]
      exact hb.apart q
  · rw [hids q] at hi
    by_cases e : q = p
    · rw [if_pos e] at hi
      rcases List.mem_append.mp hi with hi | hi
      · exact hb.ids p i hi
      · rw [List.mem_singleton.mp hi]
        exact (getFetchId_some hid).2
    · rw [if_neg e] at hi
      exact hb.ids q i hi
  · rw [h.fetchList] at hf
    rw [h.fresh]
    by_cases e : q = p
    · rw [e, Function.update_self] at hf
      rcases List.mem_append.mp hf with hf | hf
      · exact Nat.lt_succ_of_lt (hb.used p f hf)
      · rw [List.mem_singleton.mp hf]
        exact Nat.lt_succ_self _
    · rw [Function.update_of_ne e] at hf
      exact Nat.lt_succ_of_lt (hb.used q f hf)

theorem stepped_apart {e : Event} (hS : b.toStore.Sound) (hb : b.Apart) (h : Stepped env b e b') : b'.Apart := by
  rcases stepped_fetches hS h with h | ⟨p, request, ft, _, h⟩
  · exact h.apart hb
  · exact h.apart hb

theorem apart_run {platform : Platform} {s b : Broker T} {l : List Input} (h0 : s.IsStart platform)
    (h : run (step platform) s l = some b) : b.Apart := by
  have hS : s.toStore.Sound := sound_run (l := []) h0 rfl
  have hs : s.Apart := by
    obtain ⟨allGroups, userData, passwordFile, rfl⟩ := h0
    exact ⟨fun p => List.Pairwise.nil, fun p i hi => absurd hi List.not_mem_nil,
      fun p f hf => absurd hf List.not_mem_nil⟩
  have both := run_keeps (I := fun b : Broker T => b.toStore.Sound ∧ b.Apart) (fun b i b' hb hstep => ?_) ⟨hS, hs⟩ h
  · exact both.2
  · have hS0 : ({ b with calls := 0 } : Broker T).toStore.Sound := hb.1
    have hA0 : ({ b with calls := 0 } : Broker T).Apart := ⟨hb.2.apart, hb.2.ids, hb.2.used⟩
    exact ⟨sound_step hb.1 hstep, stepped_apart hS0 hA0 (step_cases hstep)⟩

/-! ## fetch and unfetch by id -/

/-- the handler answers, and nothing else is done -/
def AnsweredBy (env : Env) (handler : Prog (Broker T) Response) (p : Addr) (b b' : Broker T) : Prop :=
  ∃ res ret b1 b2, handler b = some (res, b1) ∧ sendResponse env p res.json b1 = some (ret, b2) ∧
    b' = { b2 with received := b2.received + 1 }

/-- a fetch of a string or number -/
structure Fetches (request params id : Json) : Prop where
  method : request.HasMethod "fetch"
  hasParams : getParams request = .ok params
  noMatch : params.getObjectItem "match" = none
  hasId : params.getObjectItem "id" = some id
  isId : id.IsFetchId

/-- an unfetch of a string or number -/
structure Unfetches (request params id : Json) : Prop where
  method : request.HasMethod "unfetch"
  hasParams : getParams request = .ok params
  hasId : params.getObjectItem "id" = some id
  isId : id.IsFetchId

/-- what a fetch of `id` by `p` in the state `b` is to do -/
structure FetchedById (env : Env) (b : Broker T) (p : Addr) (request params id : Json) (b' : Broker T) : Prop where
  refused : checkFetch b p request = .error ⟨INVALID_PARAMS, "reason", "fetch id already in use"⟩ ↔ id ∈ b.fetchIds p
  answer : id ∈ b.fetchIds p →
    AnsweredBy env (errorResponse env request ⟨INVALID_PARAMS, "reason", "fetch id already in use"⟩) p b b'
  taken : id ∉ b.fetchIds p → ∀ ft n, createFetch env p (some id) params b.calls = (.ok ft, n) →
    b'.fetchIds p = b.fetchIds p ++ [id]

/-- what an unfetch of `id` by `p` in the state `b` is to do -/
structure UnfetchedById (env : Env) (b : Broker T) (p : Addr) (request id : Json) (b' : Broker T) : Prop where
  removed : ∀ f ∈ b.fetchList p, b.fetchId f = some id →
    b'.fetchList = Function.update b.fetchList p ((b.fetchList p).erase f) ∧
      b'.fetches = Function.update b.fetches f none
  notFound : id ∉ b.fetchIds p →
    checkUnfetch b p request = .error ⟨INVALID_PARAMS, "reason", "fetch id not found for unfetch"⟩ ∧
    AnsweredBy env (errorResponse env request ⟨INVALID_PARAMS, "reason", "fetch id not found for unfetch"⟩) p b b'

theorem checkFetch_eq {params id : Json} (h : Fetches request params id) :
    checkFetch b p request
      = if (findFetch b p id).isSome = true then .error ⟨INVALID_PARAMS, "reason", "fetch id already in use"⟩
        else .ok (params, id) := by
  unfold checkFetch
  simp only [h.hasParams, h.noMatch, getFetchId_of h.hasId h.isId, bind, Except.bind, Option.isSome_none,
    Bool.false_eq_true, if_false]
  by_cases hf : (findFetch b p id).isSome = true
  · rw [if_pos hf, if_pos hf]
    rfl
  · rw [if_neg hf, if_neg hf]
    rfl

theorem checkUnfetch_eq {params id : Json} (h : Unfetches request params id) :
    checkUnfetch b p request
      = match findFetch b p id with
        | none => .error ⟨INVALID_PARAMS, "reason", "fetch id not found for unfetch"⟩
        | some f => .ok f := by
  unfold checkUnfetch
  simp only [h.hasParams, getFetchId_of h.hasId h.isId, bind, Except.bind]
  cases findFetch b p id <;> rfl

theorem processFetch_error {err : Err} (h : checkFetch b p request = .error err) :
    processFetch env p request b = errorResponse env request err b := by
  have h1 : addFetchToPeer env p request b = some (.error err, b) := by
    unfold addFetchToPeer
    rw [Prog.bind_of_some (Prog.read_apply id b)]
    simp only [id, h]
    rfl
  unfold processFetch
  rw [Prog.bind_of_some h1]

theorem removeFetchFromPeer_error {err : Err} (h : checkUnfetch b p request = .error err) :
    removeFetchFromPeer env p request b = errorResponse env request err b := by
  unfold removeFetchFromPeer
  rw [Prog.bind_of_some (Prog.read_apply id b)]
  simp only [id, h]

/-- the steps of a fetch: the handler, and its answer -/
theorem fetch_answered {params id : Json} (h : Fetches request params id) (hs : Stepped env b (.rpc p request) b') :
    AnsweredBy env (processFetch env p request) p b b' := by
  obtain ⟨_, res, ret, b1, b2, h1, h2, h3⟩ := stepped_method env h.method hs
  rw [handleMethod_fetch] at h1
  exact ⟨res, ret, b1, b2, h1, h2, h3⟩

theorem unfetch_answered {params id : Json} (h : Unfetches request params id) (hs : Stepped env b (.rpc p request) b') :
    AnsweredBy env (removeFetchFromPeer env p request) p b b' := by
  obtain ⟨_, res, ret, b1, b2, h1, h2, h3⟩ := stepped_method env h.method hs
  rw [handleMethod_unfetch] at h1
  exact ⟨res, ret, b1, b2, h1, h2, h3⟩

theorem AnsweredBy.congr {handler handler' : Prog (Broker T) Response} (h : AnsweredBy env handler p b b')
    (e : handler b = handler' b) : AnsweredBy env handler' p b b' := by
  obtain ⟨res, ret, b1, b2, h1, h2, h3⟩ := h
  exact ⟨res, ret, b1, b2, e ▸ h1, h2, h3⟩

theorem fetch_taken {params id : Json} (hb : b.Apart) (hS : b.toStore.Sound) (hf : Fetches request params id)
    (hs : Stepped env b (.rpc p request) b') (hnone : findFetch b p id = none) {ft : Fetch} {n : Nat}
    (hc : createFetch env p (some id) params b.calls = (.ok ft, n)) : b'.fetchIds p = b.fetchIds p ++ [id] := by
  have hcheck : checkFetch b p request = .ok (params, id) := by
    rw [checkFetch_eq hf, hnone]
    rfl
  obtain ⟨res, ret, b1, b2, h1, h2, rfl⟩ := fetch_answered hf hs
  obtain ⟨_, n', l, rfl, _, _⟩ := sendResponse_some h2
  have hacc : FetchAccepted env b p request ft n := ⟨params, id, hcheck, hc⟩
  have hadded : FetchAdded env b p request ft b1 := by
    have h1 := processFetch_some h1
    cases h1 with
    | rejected json k h => exact absurd hacc (h ft n)
    | fetched json ft' ok k k' b3 hacc' h4 =>
      obtain ⟨params', id', hcheck', hc'⟩ := hacc'
      rw [hcheck] at hcheck'
      cases hcheck'
      rw [hc] at hc'
      cases hc'
      obtain ⟨sub, elements, l, m, _, rfl⟩ := enterElements hS.nodup_allElements h4
      exact ⟨⟨n, hacc⟩, rfl, rfl, rfl⟩
  have hids := hadded.fetchIds hb p
  rw [if_pos rfl, (createFetch_some (congrArg Prod.fst hc)).2] at hids
  exact hids

/-- the fetch that an unfetch finds is removed -/
theorem unfetch_removed {params id : Json} (hS : b.toStore.Sound) (hu : Unfetches request params id)
    (hs : Stepped env b (.rpc p request) b') {f : Addr} (hfind : findFetch b p id = some f) :
    b'.fetchList = Function.update b.fetchList p ((b.fetchList p).erase f) ∧
      b'.fetches = Function.update b.fetches f none := by
  have hp := (stepped_method env hu.method hs).1
  obtain ⟨res, ret, b1, b2, h1, h2, rfl⟩ := unfetch_answered hu hs
  obtain ⟨_, n', l, rfl, _, _⟩ := sendResponse_some h2
  have hcheck : checkUnfetch b p request = .ok f := by rw [checkUnfetch_eq hu, hfind]
  obtain ⟨c, b3, h3, h4⟩ := Prog.bind_some h1
  obtain ⟨rfl, rfl⟩ := Prog.read_some h3
  simp only [hcheck] at h4
  obtain ⟨_, b4, h5, h6⟩ := Prog.bind_some h4
  obtain ⟨_, b5, h7, h8⟩ := Prog.bind_some h6
  obtain ⟨json, m, rfl, rfl⟩ := successResponse_some h8
  have hremove : removeFetch p f b3 = some ((), b5) := by
    unfold removeFetch
    rw [Prog.bind_of_some h5]
    exact h7
  obtain ⟨rfl, _⟩ := removeFetch_step (fun _ _ => True) env hS hp (findFetch_some hfind).1 hremove
  exact ⟨rfl, rfl⟩

theorem fetchedById_iff {params id : Json} (hb : b.Apart) (hS : b.toStore.Sound) (hf : Fetches request params id)
    (hs : Stepped env b (.rpc p request) b') :
    FetchedById env b p request params id b' ↔ ∀ j ∈ b.fetchIds p, ¬ Confusable j id := by
  have hrefused : checkFetch b p request = .error ⟨INVALID_PARAMS, "reason", "fetch id already in use"⟩ ↔
      (findFetch b p id).isSome = true := by
    rw [checkFetch_eq hf]
    by_cases h : (findFetch b p id).isSome = true
    · rw [if_pos h]
      exact iff_of_true rfl h
    · rw [if_neg h]
      exact iff_of_false (fun e => by cases e) h
  constructor
  · intro h j hj hc
    obtain ⟨hn, hfound⟩ := hb.confused hj hc
    exact hn (h.refused.mp (hrefused.mpr hfound))
  · intro h
    have hiff : _ ↔ id ∈ b.fetchIds p := hb.findFetch_isSome_iff fun ⟨j, hj, hc⟩ => h j hj hc
    refine ⟨hrefused.trans hiff, fun hid => ?_, fun hid ft n hc => ?_⟩
    · exact (fetch_answered hf hs).congr (processFetch_error (hrefused.mpr (hiff.mpr hid)))
    · refine fetch_taken hb hS hf hs ?_ hc
      rw [← Option.not_isSome_iff_eq_none]
      exact fun e => hid (hiff.mp e)

theorem unfetchedById_iff {params id : Json} (hb : b.Apart) (hS : b.toStore.Sound) (hu : Unfetches request params id)
    (hs : Stepped env b (.rpc p request) b') :
    UnfetchedById env b p request id b' ↔ ∀ j ∈ b.fetchIds p, ¬ Confusable j id := by
  constructor
  · intro h j hj hc
    obtain ⟨hn, hfound⟩ := hb.confused hj hc
    obtain ⟨f, hf⟩ := Option.isSome_iff_exists.mp hfound
    have hcheck := (h.notFound hn).1
    rw [checkUnfetch_eq hu, hf] at hcheck
    cases hcheck
  · intro h
    have hiff : _ ↔ id ∈ b.fetchIds p := hb.findFetch_isSome_iff fun ⟨j, hj, hc⟩ => h j hj hc
    refine ⟨fun f hf hid => ?_, fun hid => ?_⟩
    · obtain ⟨g, hg⟩ := Option.isSome_iff_exists.mp (hiff.mpr (mem_fetchIds.mpr ⟨f, hf, hid⟩))
      obtain ⟨hgm, i, hgi, hi⟩ := findFetch_some hg
      have hmem := mem_fetchIds.mpr ⟨g, hgm, hgi⟩
      -- the fetch that is found has the very id
      obtain rfl : i = id := by
        rcases (idsEqual_iff (hb.ids p i hmem) id).mp hi with e | hc
        · exact e
        · exact absurd hc (h i hmem)
      obtain rfl := hb.unique_fetch hgm hf hgi hid
      exact unfetch_removed hS hu hs hg
    · have hnone : findFetch b p id = none := by
        rw [← Option.not_isSome_iff_eq_none]
        exact fun e => hid (hiff.mp e)
      have hcheck : checkUnfetch b p request = .error ⟨INVALID_PARAMS, "reason", "fetch id not found for unfetch"⟩ := by
        rw [checkUnfetch_eq hu, hnone]
      exact ⟨hcheck, (unfetch_answered hu hs).congr (removeFetchFromPeer_error hcheck)⟩

/-- **Fetches are known by their ids**, exactly where no live id is confusable with the one that is given. -/
theorem fetch_identity {platform : Platform} {s b : Broker T} {l : List Input} (h0 : s.IsStart platform)
    (h : run (step platform) s l = some b) (p : Addr) :
    (b.fetchIds p).Nodup ∧
    ∀ i b' request params id, i.event = .rpc p request → step platform b i = some b' →
      (Fetches request params id →
        (FetchedById (i.env platform) { b with calls := 0 } p request params id b' ↔
          ∀ j ∈ b.fetchIds p, ¬ Confusable j id)) ∧
      (Unfetches request params id →
        (UnfetchedById (i.env platform) { b with calls := 0 } p request id b' ↔
          ∀ j ∈ b.fetchIds p, ¬ Confusable j id)) := by
  have hS : b.toStore.Sound := sound_run h0 h
  have hb := apart_run h0 h
  have hb0 : ({ b with calls := 0 } : Broker T).Apart := ⟨hb.apart, hb.ids, hb.used⟩
  refine ⟨hb.nodup p, fun i b' request params id hi hs => ?_⟩
  have hstep := step_cases hs
  rw [hi] at hstep
  exact ⟨fun hf => fetchedById_iff hb0 hS hf hstep, fun hu => unfetchedById_iff hb0 hS hu hstep⟩

end

/-! ## 1 and 3/2 -/

/-- a fetch of all states -/
def fetchOf (id : Json) : Json := .request (some (.num 1)) "fetch" [("id", id)]

theorem fetches_fetchOf {id : Json} (h : id.IsFetchId) : Fetches (fetchOf id) (.obj [("id", id)]) id where
  method := (Json.getObjectItem_later (by decide) _ _).trans (Json.getObjectItem_first (by decide) _ _)
  hasParams := by
    have hp : (fetchOf id).getObjectItem "params" = some (.obj [("id", id)]) :=
      ((Json.getObjectItem_later (by decide) _ _).trans (Json.getObjectItem_later (by decide) _ _)).trans
        (Json.getObjectItem_first (by decide) _ _)
    unfold getParams
    rw [hp]
  noMatch := Json.getObjectItem_later (by decide) _ _
  hasId := Json.getObjectItem_first (by decide) _ _
  isId := h

/-- peer 1 has fetched with the id 1 -/
def fetchedOne : List Input := [.connect 1 .websocket true, .rpc 1 (fetchOf (.num 1))].map Event.good

/-- is the id the number `q`? -/
def Json.isNum (q : Rat) : Json → Bool
  | .num r => r == q
  | _ => false

/-- peer 1 fetches with the id `q` -/
def fetchNum (q : Rat) : Input := Event.good (.rpc 1 (fetchOf (.num q)))

theorem fetches_fetchNum (q : Rat) : Fetches (fetchOf (.num q)) (.obj [("id", .num q)]) (.num q) := fetches_fetchOf rfl

theorem fetchedOne_run (q : Rat) (hstep : (run (step Platform.small)
      (Broker.start (T := SlotTable) Platform.small.config none none []) fetchedOne).any (fun b =>
        (b.fetchIds 1).length == 1 && (b.fetchIds 1).all (Json.isNum 1) && (step Platform.small b (fetchNum q)).isSome)
          = true) :
    ∃ b b' : Broker SlotTable,
      run (step Platform.small) (Broker.start Platform.small.config none none []) fetchedOne = some b ∧
      step Platform.small b (fetchNum q) = some b' ∧ b.fetchIds 1 = [.num 1] := by
  obtain ⟨b, hb, hc⟩ := Option.any_eq_true _ _ |>.mp hstep
  simp only [Bool.and_eq_true] at hc
  obtain ⟨⟨hlen, hall⟩, hs⟩ := hc
  obtain ⟨b', hs⟩ := Option.isSome_iff_exists.mp hs
  refine ⟨b, b', hb, hs, ?_⟩
  obtain ⟨j, hj⟩ := List.length_eq_one_iff.mp (eq_of_beq hlen)
  rw [hj] at hall ⊢
  have hj1 : j.isNum 1 = true := by simpa using hall
  cases j with
  | num r =>
    obtain rfl : r = 1 := eq_of_beq hj1
    rfl
  | _ => cases hj1

theorem fetchedOne_identity : ∃ b b' : Broker SlotTable,
    run (step Platform.small) (Broker.start Platform.small.config none none []) fetchedOne = some b ∧
      FetchedById (Input.env Platform.small (fetchNum 2)) { b with calls := 0 } 1
        (fetchOf (.num 2)) (.obj [("id", .num 2)])
        (.num 2) b' := by
  obtain ⟨b, b', hb, hs, hids⟩ := fetchedOne_run 2 (by decide +kernel)
  refine ⟨b, b', hb, ((fetch_identity (isStart_start _ none none []) hb 1).2 _ b' _ _ _ rfl hs).1
    (fetches_fetchNum _) |>.mpr ?_⟩
  rw [hids]
  rintro j hj ⟨q, r, e, e', hne, hv⟩
  rw [List.mem_singleton.mp hj] at e
  obtain rfl := Json.num.inj e
  obtain rfl := Json.num.inj e'
  exact absurd hv (by decide)

/-- The id 3/2 is refused where 1 is live. -/
theorem fraction_refused :
    ¬ ∀ (s b b' : Broker SlotTable) (l : List Input) (i : Input) (p : Addr) (request params id : Json),
      s.IsStart Platform.small → run (step Platform.small) s l = some b → i.event = .rpc p request →
      step Platform.small b i = some b' → Fetches request params id →
      FetchedById (i.env Platform.small) { b with calls := 0 } p request params id b' := by
  intro hall
  obtain ⟨b, b', hb, hs, hids⟩ := fetchedOne_run (3 / 2) (by decide +kernel)
  have h0 : (Broker.start (T := SlotTable) Platform.small.config none none []).IsStart Platform.small :=
    isStart_start _ none none []
  have hF := hall _ b b' _ _ _ _ _ _ h0 hb rfl hs (fetches_fetchNum _)
  have hA := apart_run h0 hb
  have hA0 : ({ b with calls := 0 } : Broker SlotTable).Apart := ⟨hA.apart, hA.ids, hA.used⟩
  have hS : b.toStore.Sound := sound_run h0 hb
  refine (fetchedById_iff hA0 hS (fetches_fetchNum _) (step_cases hs)).mp hF (.num 1) ?_
    ⟨1, 3 / 2, rfl, rfl, by decide +kernel, by decide +kernel⟩
  have hids0 : ({ b with calls := 0 } : Broker SlotTable).fetchIds 1 = [.num 1] := hids
  rw [hids0]
  exact List.mem_singleton_self _

end Cjet
