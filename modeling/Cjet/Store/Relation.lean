import Cjet.Store.Chain

/-!
# The subscription relation

In runs in which sends and allocations succeed a fetch stands in the table of an element exactly where
its peer has access to the element and its matchers accept the path of the element.

* `InStep`                  the tables of the elements are in step with the fetches;
* `inStep_storeStep`        every change keeps them in step;
* `subscription_relation`   the relation in every state that such a run reaches.
-/

set_option linter.unusedVariables false
set_option linter.unusedSectionVars false

namespace Cjet
open Stateful Alloc

/-! ## what a fetch wants -/

theorem wants_iff (a : Accounts) (el : Element) (ft : Fetch) : wants a el ft = some true ↔
    hasAccess a.allGroups el.fetchGroups (a.fetchGroups ft.peer) = true ∧
      stateMatches el.path ft.matcher = some true := by
  unfold wants
  by_cases h : hasAccess a.allGroups el.fetchGroups (a.fetchGroups ft.peer) = true
  · rw [if_pos h]
    exact ⟨fun h1 => ⟨h, h1⟩, fun h1 => h1.2⟩
  · rw [if_neg h]
    exact ⟨fun h1 => (by cases h1), fun h1 => absurd h1.1 h⟩

/-- it depends on the groups of the peer, and on the path and the fetch groups of the element -/
theorem wants_congr {a a' : Accounts} {el el' : Element} {ft : Fetch} (ha : a'.allGroups = a.allGroups)
    (hg : a'.fetchGroups ft.peer = a.fetchGroups ft.peer) (hp : el'.path = el.path)
    (hf : el'.fetchGroups = el.fetchGroups) : wants a' el' ft = wants a el ft := by
  unfold wants
  rw [ha, hg, hp, hf]

theorem count_entries (table : List (Option Addr)) (f : Addr) :
    (Slots.entries table).count f = table.count (some f) := by
  induction table with
  | nil => rfl
  | cons s t ih =>
    cases s with
    | none =>
      rw [Slots.entries_none, ih, List.count_cons_of_ne]
      exact fun h => Option.some_ne_none f h.symm
    | some g =>
      rw [Slots.entries_some, List.count_cons, List.count_cons, ih]
      by_cases e : g = f
      · rw [e]
        simp
      · simp [e]

section
variable {T : Type} [HashTable T]

/-! ## the invariant -/

/-- each fetch stands once in the tables of the elements it wants, and in no other table -/
def InStep (b : Broker T) : Prop :=
  ∀ e el f ft, b.elements e = some el → b.fetches f = some ft →
    (Slots.entries el.fetcherTable).count f = if wants b.toAccounts el ft = some true then 1 else 0

/-- neither elements nor fetches change, and the groups of peers that have fetches do not either -/
theorem InStep.congr {b b' : Broker T} (h : InStep b) (he : b'.elements = b.elements)
    (hf : b'.fetches = b.fetches) (ha : b'.allGroups = b.allGroups)
    (hg : ∀ f ft, b.fetches f = some ft → b'.fetchGroups ft.peer = b.fetchGroups ft.peer) : InStep b' := by
  intro e el f ft hel hft
  rw [he] at hel
  rw [hf] at hft
  rw [wants_congr ha (hg f ft hft) rfl rfl]
  exact h e el f ft hel hft

theorem wanted_iff {b : Broker T} {e f : Addr} {el : Element} {ft : Fetch} (hel : b.elements e = some el)
    (hft : b.fetches f = some ft) : b.wanted e f = true ↔ wants b.toAccounts el ft = some true := by
  rw [wanted_some hel hft, beq_iff_eq]

/-- what a new table holds that has been filled with all the fetches that want the element -/
theorem count_filter_wanted {b : Broker T} {e f : Addr} {el : Element} {ft : Fetch} {fs : List Addr}
    (hel : b.elements e = some el) (hft : b.fetches f = some ft) (hn : fs.Nodup) (hf : f ∈ fs) :
    (fs.filter fun f => b.wanted e f).count f = if wants b.toAccounts el ft = some true then 1 else 0 := by
  by_cases hw : wants b.toAccounts el ft = some true
  · rw [if_pos hw, List.count_filter ((wanted_iff hel hft).mpr hw), List.count_eq_one_of_mem hn hf]
  · rw [if_neg hw, List.count_eq_zero]
    intro hm
    exact hw ((wanted_iff hel hft).mp (List.mem_filter.mp hm).2)

theorem inStep_storeStep {mayRefuse : Broker T → Element → Prop} {env : Env} (ha : env.AllocOk)
    (hs : env.SendOk) : KeptByChanges mayRefuse env (InStep (T := T)) := by
  intro b b' hS hI h
  cases h with
  | idle _ h =>
    exact hI.congr (congrArg Store.elements h.store) (congrArg Store.fetches h.store) h.allGroups
      fun f ft _ => congrFun h.fetchGroups ft.peer
  | added p el sub table l n k hp hpeer hempty hpath hput hE =>
    intro e el' f ft hel hft
    have hel : Function.update b.elements b.fresh (some { el with fetcherTable := table }) e = some el' := hel
    by_cases e1 : e = b.fresh
    · rw [e1, Function.update_self] at hel
      obtain rfl := Option.some.inj hel
      have hmem : f ∈ b.allFetches := (hS.mem_allFetches f).mpr (by rw [show b.fetches f = some ft from hft]; rfl)
      have hself : (b.withElement el k).elements b.fresh = some el := Function.update_self ..
      have hft' : (b.withElement el k).fetches f = some ft := hft
      have hcount := count_filter_wanted hself hft' hS.nodup_allFetches hmem
      have hperm := hE.entries
      rw [hempty, List.append_nil, hE.all rfl] at hperm
      rw [hperm.count_eq]
      exact hcount
    · rw [Function.update_of_ne e1] at hel
      exact hI e el' f ft hel hft
  | refused el sub table l n k ok elementTable hget hfull hR hE => exact hI.congr rfl rfl rfl fun _ _ _ => rfl
  | changed e el value ok l n k k' hel hl =>
    intro a el' f ft ha' hft
    have ha' : Function.update b.elements e (some (el.withValue value)) a = some el' := ha'
    by_cases e1 : a = e
    · rw [e1, Function.update_self] at ha'
      obtain rfl := Option.some.inj ha'
      exact hI e el f ft hel hft
    · rw [Function.update_of_ne e1] at ha'
      exact hI a el' f ft ha' hft
  | removed e el ok l n k hel hl =>
    intro a el' f ft ha' hft
    have ha' : Function.update b.elements e none a = some el' := ha'
    by_cases e1 : a = e
    · rw [e1, Function.update_self] at ha'
      cases ha'
    · rw [Function.update_of_ne e1] at ha'
      exact hI a el' f ft ha' hft
  | fetched p ft sub elements l n k ok hp hpeer hid hE =>
    have hok : ok = true := by
      refine hE.works ha hs fun f hf ft' hft' => ?_
      rw [List.mem_singleton.mp hf] at hft'
      have hft' : Function.update b.fetches b.fresh (some ft) b.fresh = some ft' := hft'
      rw [Function.update_self] at hft'
      rw [← Option.some.inj hft']
      exact hid
    have hself : (b.withFetch p ft k).fetches b.fresh = some ft := Function.update_self ..
    have hnew : ∀ e el, b.elements e = some el → (Slots.entries el.fetcherTable).count b.fresh = 0 :=
      fun e el he => by
        rw [List.count_eq_zero]
        intro hm
        have := (hS.tables e el he).2 b.fresh hm
        rw [(hS.unused b.fresh (Nat.le_refl _)).2] at this
        cases this
    intro e el' f ft' hel hft
    have hel : elements e = some el' := hel
    have hft : Function.update b.fetches b.fresh (some ft) f = some ft' := hft
    -- the element before the fetch was entered, and how its table has changed
    obtain ⟨el, hb, hcount, hpath, hgroups⟩ : ∃ el, b.elements e = some el ∧
        (∀ f, (Slots.entries el'.fetcherTable).count f = (Slots.entries el.fetcherTable).count f
          + if f = b.fresh ∧ e ∈ sub then 1 else 0) ∧
        el'.path = el.path ∧ el'.fetchGroups = el.fetchGroups := by
      by_cases hm : e ∈ sub
      · obtain ⟨el, table, h1, h2, h3⟩ := hE.entries e hm
        rw [h2] at hel
        obtain rfl := Option.some.inj hel
        refine ⟨el, h1, fun f => ?_, rfl, rfl⟩
        rw [h3.count_eq, List.count_cons]
        by_cases ef : f = b.fresh
        · simp [hm, ef]
        · rw [if_neg fun h => ef (beq_iff_eq.mp h).symm, if_neg fun h => ef h.1]
      · rw [hE.others e hm] at hel
        exact ⟨el', hel, fun f => by simp [hm], rfl, rfl⟩
    rw [hcount f]
    by_cases e1 : f = b.fresh
    · subst e1
      rw [Function.update_self] at hft
      obtain rfl := Option.some.inj hft
      have hmem : e ∈ b.allElements := (hS.mem_allElements e).mpr (by rw [hb]; rfl)
      have hb' : (b.withFetch p ft k).elements e = some el := hb
      have hwant := wanted_iff hb' hself
      have hsub : e ∈ sub ↔ wants b.toAccounts el ft = some true := by
        rw [hE.all hok, List.mem_filter]
        exact ⟨fun h => hwant.mp h.2, fun h => ⟨hmem, hwant.mpr h⟩⟩
      rw [hnew e el hb]
      show 0 + _ = if wants b.toAccounts el' ft = some true then 1 else 0
      rw [wants_congr rfl rfl hpath hgroups]
      simp [hsub]
    · rw [Function.update_of_ne e1] at hft
      rw [hI e el f ft' hb hft]
      show _ = if wants b.toAccounts el' ft' = some true then 1 else 0
      rw [wants_congr rfl rfl hpath hgroups]
      simp [e1]
  | unfetched p f0 ft0 hf0 hpeer =>
    intro e el' f ft hel hft
    have hel : (b.elements e).map (fun el => el.without f0) = some el' := hel
    have hft : Function.update b.fetches f0 none f = some ft := hft
    obtain ⟨el, hb, rfl⟩ := Option.map_eq_some_iff.mp hel
    by_cases e1 : f = f0
    · rw [e1, Function.update_self] at hft
      cases hft
    · rw [Function.update_of_ne e1] at hft
      show (Slots.entries (Slots.erase el.fetcherTable f0)).count f = _
      rw [Slots.count_erase, if_neg e1]
      exact hI e el f ft hb hft
  | authenticated p auth userName n hf =>
    refine hI.congr rfl rfl rfl fun f ft hft => Function.update_of_ne (fun e => ?_) _ _
    have hmem := (hS.fetch_peer_mem hft).2
    rw [e, hf] at hmem
    cases hmem
  | connected p memory isLocal n hp =>
    refine hI.congr rfl rfl rfl fun f ft hft => Function.update_of_ne (fun e => ?_) _ _
    have hmem := (hS.fetch_peer_mem hft).1
    rw [e] at hmem
    exact hp hmem
  | disconnected p he hf => exact hI.congr rfl rfl rfl fun _ _ _ => rfl

/-! ## runs -/

/-- sends and allocations succeed -/
def Input.Works (platform : Platform) (i : Input) : Prop :=
  (i.env platform).AllocOk ∧ (i.env platform).SendOk

/-- A fetch of a connected peer has one slot in the table of an element that its peer has access to
and that its matchers accept, and none in another table; and each slot in use holds a fetch in the
list of a connected peer. -/
structure SubscriptionRelation (b : Broker T) : Prop where
  slots : ∀ e el p f ft, b.elements e = some el → p ∈ b.peerList → f ∈ b.fetchList p →
    b.fetches f = some ft → el.fetcherTable.count (some f) =
      if hasAccess b.allGroups el.fetchGroups (b.fetchGroups p) = true ∧
        stateMatches el.path ft.matcher = some true then 1 else 0
  listed : ∀ e el f, b.elements e = some el → some f ∈ el.fetcherTable →
    ∃ p ∈ b.peerList, f ∈ b.fetchList p

theorem subscription_relation {platform : Platform} {s b : Broker T} {l : List Input}
    (h0 : s.IsStart platform) (hc : Along (step platform) (fun _ i => i.Works platform) s l)
    (h : run (step platform) s l = some b) : SubscriptionRelation b := by
  have hS := sound_run h0 h
  have hI : InStep b := by
    refine store_run (fun _ _ => True) (fun b i hc => inStep_storeStep hc.1 hc.2)
      (fun _ _ _ _ _ _ _ _ _ => trivial) (fun b n hI => hI.congr rfl rfl rfl fun _ _ _ => rfl) h0 ?_ hc h
    obtain ⟨allGroups, userData, passwordFile, rfl⟩ := h0
    intro e el f ft hel
    cases hel
  refine ⟨fun e el p f ft hel hp hf hft => ?_, fun e el f hel hm => ?_⟩
  · obtain ⟨ft', hft', hpeer⟩ := hS.fetch_of_mem hp hf
    obtain rfl := Option.some.inj (hft.symm.trans hft')
    rw [← count_entries, hI e el f ft hel hft, ← hpeer]
    simp only [wants_iff]
  · have hlive := (hS.tables e el hel).2 f ((Slots.mem_entries _ _).mpr hm)
    obtain ⟨ft, hft⟩ := Option.isSome_iff_exists.mp hlive
    obtain ⟨h1, h2⟩ := hS.fetch_peer_mem hft
    exact ⟨ft.peer, h1, h2⟩

end

/-- Peer 1 adds a state, and peer 2 fetches everything. -/
def fetchedByOther : List Event :=
  [.connect 1 .websocket true, .connect 2 .websocket true,
   .rpc 1 (.request none "add" [("path", .str "a"), ("value", .bool true)]),
   .rpc 2 (.request none "fetch" [("id", .str "f")])]

theorem works_good (platform : Platform) (e : Event) : (Event.good e).Works platform :=
  ⟨fun _ _ _ => rfl, fun _ _ _ => rfl⟩

theorem works_along (platform : Platform) (l : List Event) (b : Broker SlotTable) :
    Along (step platform) (fun _ i => i.Works platform) b (l.map Event.good) :=
  Along.of_mem (fun i hi _ => by
    obtain ⟨e, _, rfl⟩ := List.mem_map.mp hi
    exact works_good platform e) b

theorem fetchedByOther_relation : ∃ b : Broker SlotTable,
    run (step Platform.small) (Broker.start Platform.small.config none none [])
      (fetchedByOther.map Event.good) = some b ∧ SubscriptionRelation b := by
  have hrun : (run (step Platform.small) (Broker.start (T := SlotTable) Platform.small.config none none [])
      (fetchedByOther.map Event.good)).isSome = true := by decide +kernel
  obtain ⟨b, hb⟩ := Option.isSome_iff_exists.mp hrun
  exact ⟨b, hb, subscription_relation (isStart_start _ none none []) (works_along _ _ _) hb⟩

end Cjet
