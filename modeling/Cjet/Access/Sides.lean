import Cjet.Access.Lockstep
import Cjet.Store.Handlers

/-!
# The handlers, side by side

Every handler keeps two brokers in lockstep as long as `p` has no access to the elements with the
path `hidden`.

* `Secluded`        what an element with that path has to meet;
* `sim_...`         one lemma for each handler; its responses are the same for `p`.
-/

set_option linter.unusedVariables false
set_option linter.unusedSectionVars false

namespace Cjet
open Stateful Alloc

section
/-- the same error, or related results -/
inductive Agree {ε α β : Type} (V : α → β → Prop) : Except ε α → Except ε β → Prop
  | error (err : ε) : Agree V (.error err) (.error err)
  | ok (a : α) (b : β) (h : V a b) : Agree V (.ok a) (.ok b)

variable {T : Type} {hidden : String} {p : Addr} {all : Option (List String)} {groups : GroupSet} {active : Prop}
  {env : Env}

/-! ## elements and subscriptions change -/

/-- what an element with the hidden path has to meet in the state -/
def Secluded (hidden : String) (p : Addr) (all : Option (List String)) (groups : GroupSet) (active : Prop)
    (s : Broker T) (el : Element) : Prop :=
  el.path = hidden → (active → hasAccess all el.fetchGroups groups = false) ∧
    ∀ f ∈ Slots.entries el.fetcherTable, f < s.fresh ∧ ∀ ft, s.fetches f = some ft → ft.peer ≠ p

theorem Apart.secluded {s : Broker T} (h : Apart hidden p all groups active s) {e : Addr} {el : Element}
    (hel : s.elements e = some el) : Secluded hidden p all groups active s el :=
  fun hp => ⟨fun ha => h.apart ha e el hel hp, h.strangers e el hel hp⟩

theorem Apart.update {s : Broker T} (h : Apart hidden p all groups active s) (e : Addr) {x : Option Element}
    (hx : ∀ el, x = some el → Secluded hidden p all groups active s el) :
    Apart hidden p all groups active { s with elements := Function.update s.elements e x } := by
  have hcases : ∀ e' el, Function.update s.elements e x e' = some el → Secluded hidden p all groups active s el := by
    intro e' el hel
    by_cases e1 : e' = e
    · rw [e1, Function.update_self] at hel
      exact hx el hel
    · rw [Function.update_of_ne e1] at hel
      exact h.secluded hel
  exact ⟨⟨fun e' el hel hp => (hcases e' el hel hp).2⟩, h.allGroups, h.fetchGroups,
    fun ha e' el hel hp => (hcases e' el hel hp).1 ha, h.connected, h.unused⟩

theorem locked_update {s t : Broker T} (h : Hiding hidden p all groups active s t) (e : Addr)
    {x x' : Option Element} (hrel : Option.Rel (Alike hidden) x x')
    (hx : ∀ el, x = some el → Secluded hidden p all groups active s el) :
    Hiding hidden p all groups active { s with elements := Function.update s.elements e x }
      { t with elements := Function.update t.elements e x' } := by
  obtain ⟨elements, sent, he, hs, hg⟩ := h
  refine .mk (s := { s with elements := Function.update s.elements e x }) _ sent (fun e' => ?_) hs (hg.update e hx)
  show Option.Rel (Alike hidden) (Function.update s.elements e x e') (Function.update elements e x' e')
  by_cases e1 : e' = e
  · rw [e1, Function.update_self, Function.update_self]
    exact hrel
  · rw [Function.update_of_ne e1, Function.update_of_ne e1]
    exact he e'

/-- the table changes in both runs -/
theorem Alike.withTable {el el' : Element} (h : Alike hidden el el') (table : List (Option Addr)) :
    Alike hidden { el with fetcherTable := table } { el' with fetcherTable := table } := by
  obtain ⟨value, hp, hs⟩ := h
  exact @Alike.mk hidden { el with fetcherTable := table } value hp hs

/-- the fetch gets a slot in the table, and its peer is told -/
theorem simAt_enter (hsend : env.SendOk) {s t : Broker T} (h : Hiding hidden p all groups active s t) {e f : Addr}
    {el el' : Element} (hel : s.elements e = some el) (hel' : t.elements e = some el') (halike : Alike hidden el el')
    {ft : Fetch} (hft : s.fetches f = some ft) (hne : el.path = hidden → ft.peer ≠ p) :
    SimAt (Hiding hidden p all groups active) Eq
      (do match ← allocating (addFetchToTable env el.fetcherTable f) with
          | none => return false
          | some table =>
            setElement e { el with fetcherTable := table }
            notifyFetchingPeer env e f "add")
      (do match ← allocating (addFetchToTable env el.fetcherTable f) with
          | none => return false
          | some table =>
            setElement e { el' with fetcherTable := table }
            notifyFetchingPeer env e f "add") s t := by
  have hcalls : t.calls = s.calls := h.same (f := fun b => b.calls) fun _ _ _ => rfl
  have h1 := allocating_apply (addFetchToTable env el.fetcherTable f) s
  have h2 := allocating_apply (addFetchToTable env el.fetcherTable f) t
  rw [hcalls] at h2
  have h3 : Hiding hidden p all groups active { s with calls := (addFetchToTable env el.fetcherTable f s.calls).2 }
      { t with calls := (addFetchToTable env el.fetcherTable f s.calls).2 } := h.counted _
  refine SimAt.of_some h1 h2 ?_
  cases htable : (addFetchToTable env el.fetcherTable f s.calls).1 with
  | none => exact Sim.pure rfl _ _ h3
  | some table =>
    have hentries : ∀ f' ∈ Slots.entries table, f' = f ∨ f' ∈ Slots.entries el.fetcherTable := fun f' hf' => by
      exact List.mem_cons.mp ((addFetchToTable_some htable).mem_iff.mp hf')
    have hlive : f < s.fresh := by
      by_contra hlt
      have hnone := h.guard.unused f (Nat.le_of_not_lt hlt)
      rw [hft] at hnone
      cases hnone
    have hsec : Secluded hidden p all groups active s { el with fetcherTable := table } := fun hp => by
      obtain ⟨ha, hs⟩ := h.guard.secluded hel hp
      refine ⟨ha, fun f' hf' => ?_⟩
      rcases hentries f' hf' with e1 | hf'
      · rw [e1]
        refine ⟨hlive, fun ft' hft' => ?_⟩
        rw [hft] at hft'
        obtain rfl := Option.some.inj hft'
        exact hne hp
      · exact hs f' hf'
    have hrel : Option.Rel (Alike hidden) (some { el with fetcherTable := table })
      (some { el' with fetcherTable := table }) :=
      .some (halike.withTable table)
    have h4 := locked_update h3 e hrel fun el2 e1 => by
        obtain rfl := Option.some.inj e1
        exact hsec
    refine SimAt.of_some (Prog.update_apply _ _) (Prog.update_apply _ _) ?_
    refine simAt_notifyFetchingPeer hsend h4 (Function.update_self ..) (Function.update_self ..) fun ft' hft' hp => ?_
    have hft' : s.fetches f = some ft' := hft'
    rw [hft] at hft'
    obtain rfl := Option.some.inj hft'
    exact hne hp

/-- A fetch that is let into an element with the hidden path is not one of `p`. -/
theorem sim_addFetchToStateAndNotify (hsend : env.SendOk) (e f : Addr) :
    Sim (Hiding (T := T) hidden p all groups active) Eq (addFetchToStateAndNotify env e f)
      (addFetchToStateAndNotify env e f) := by
  intro s t h
  refine simAt_derefElement h fun el el' hel hel' halike => ?_
  refine SimAt.deref_same (h.same (f := fun b => b.fetches f) fun _ _ _ => rfl) fun ft hft => ?_
  have hgroups : el'.fetchGroups = el.fetchGroups := halike.same (f := fun el => el.fetchGroups) fun _ _ => rfl
  have hpath : el'.path = el.path := halike.same (f := fun el => el.path) fun _ _ => rfl
  have htable : el'.fetcherTable = el.fetcherTable := halike.same (f := fun el => el.fetcherTable) fun _ _ => rfl
  have haccess : hasAccess t.allGroups el.fetchGroups (t.fetchGroups ft.peer)
      = hasAccess s.allGroups el.fetchGroups (s.fetchGroups ft.peer) :=
    h.same (f := fun b => hasAccess b.allGroups el.fetchGroups (b.fetchGroups ft.peer)) fun _ _ _ => rfl
  rw [hgroups, hpath, htable]
  refine SimAt.of_some (Prog.read_apply _ s) (Prog.read_apply _ t) ?_
  rw [haccess]
  cases hacc : hasAccess s.allGroups el.fetchGroups (s.fetchGroups ft.peer) with
  | false => exact Sim.pure rfl s t h
  | true =>
    -- the fetch is not one of `p`, or the path is another one
    have hne : el.path = hidden → ft.peer ≠ p := fun hp e1 => by
      have hactive := h.guard.connected f ft hft e1
      have hno := h.guard.apart hactive e el hel hp
      rw [e1, h.guard.allGroups, h.guard.fetchGroups, hno] at hacc
      cases hacc
    rw [if_neg (by decide), if_neg (by decide)]
    cases hm : stateMatches el.path ft.matcher with
    | none => exact Or.inl ⟨rfl, rfl⟩
    | some isMatch =>
      have h1 : ∀ u : Broker T, Prog.deref (fun _ : Broker T => some isMatch) u = some (isMatch, u) := fun _ => rfl
      refine SimAt.of_some (h1 s) (h1 t) ?_
      cases isMatch with
      | false => exact Sim.pure rfl s t h
      | true =>
        have henter := simAt_enter hsend h hel hel' halike hft hne
        rw [hgroups, hpath] at henter
        exact henter

/-- the loop over the elements of all peers -/
theorem sim_addFetchToStates (hsend : env.SendOk) (request : Json) (f : Addr) :
    Sim (Hiding (T := T) hidden p all groups active) Eq (addFetchToStates env request f)
      (addFetchToStates env request f) := by
  unfold addFetchToStates
  refine Sim.bind (sim_read fun _ _ _ => rfl) fun peers _ e1 => ?_
  subst e1
  have hpeer : ∀ q, Sim (Hiding (T := T) hidden p all groups active) Eq (addFetchToStatesInPeer env f q)
      (addFetchToStatesInPeer env f q) := fun q => by
    refine Sim.bind (sim_read fun _ _ _ => rfl) fun es _ e1 => ?_
    subst e1
    exact Sim.tryAll es fun e _ => sim_addFetchToStateAndNotify hsend e f
  refine Sim.bind (Sim.tryAll peers fun q _ => hpeer q) fun ok _ e1 => ?_
  subst e1
  exact Sim.ite Iff.rfl (fun _ => sim_successResponse rfl) fun _ => sim_errorResponse rfl _

theorem sim_findFetchersForElement (hsend : env.SendOk) (e : Addr) :
    Sim (Hiding (T := T) hidden p all groups active) Eq (findFetchersForElement env e)
      (findFetchersForElement env e) := by
  unfold findFetchersForElement
  refine Sim.bind (sim_read fun _ _ _ => rfl) fun peers _ e1 => ?_
  subst e1
  refine Sim.tryAll peers fun q _ => ?_
  refine Sim.bind (sim_read fun _ _ _ => rfl) fun fs _ e1 => ?_
  subst e1
  exact Sim.tryAll fs fun f _ => sim_addFetchToStateAndNotify hsend e f

theorem sim_removeFetchFromState (f e : Addr) : Sim (Hiding (T := T) hidden p all groups active) Eq
    (removeFetchFromState f e) (removeFetchFromState f e) := by
  intro s t h
  refine simAt_derefElement h fun el el' hel hel' halike => ?_
  have htable : el'.fetcherTable = el.fetcherTable := halike.same (f := fun el => el.fetcherTable) fun _ _ => rfl
  rw [htable]
  refine Or.inr ⟨_, _, _, _, rfl, rfl, rfl, locked_update h e (.some (halike.withTable _)) fun el2 e1 hp => ?_⟩
  obtain rfl := Option.some.inj e1
  obtain ⟨h1, h2⟩ := h.guard.secluded hel hp
  refine ⟨h1, fun f' hf' => h2 f' ?_⟩
  have hf' : f' ∈ Slots.entries (Slots.erase el.fetcherTable f) := hf'
  rw [Slots.entries_erase] at hf'
  exact List.mem_of_mem_filter hf'

theorem sim_removeFetchFromStates (f : Addr) : Sim (Hiding (T := T) hidden p all groups active) Eq
    (removeFetchFromStates f) (removeFetchFromStates f) := by
  unfold removeFetchFromStates
  refine Sim.bind (sim_read fun _ _ _ => rfl) fun peers _ e1 => ?_
  subst e1
  refine Sim.each peers fun q _ => ?_
  refine Sim.bind (sim_read fun _ _ _ => rfl) fun es _ e1 => ?_
  subst e1
  exact Sim.each es fun e _ => sim_removeFetchFromState f e

/-- a fetch goes away -/
theorem sim_deleteFetch (q f : Addr) : Sim (Hiding (T := T) hidden p all groups active) Eq
    (deleteFetch q f) (deleteFetch q f) := by
  refine Sim.update fun s t h => Plain.locked (f := fun b : Broker T =>
    { b with fetchList := Function.update b.fetchList q ((b.fetchList q).erase f)
             fetches := Function.update b.fetches f none }) ⟨fun _ _ _ => rfl, fun _ => rfl, fun _ => rfl⟩ h ?_
  have hg := h.guard
  have hsub : ∀ f' ft, Function.update s.fetches f none f' = some ft → s.fetches f' = some ft := by
    intro f' ft hft
    by_cases e1 : f' = f
    · rw [e1, Function.update_self] at hft
      cases hft
    · rwa [Function.update_of_ne e1] at hft
  refine ⟨⟨fun e el hel hp f' hf' => ?_⟩, hg.allGroups, hg.fetchGroups, hg.apart, ?_, fun f' hf' => ?_⟩
  · obtain ⟨h1, h2⟩ := hg.strangers e el hel hp f' hf'
    exact ⟨h1, fun ft hft => h2 ft (hsub f' ft hft)⟩
  · exact fun f' ft hft => hg.connected f' ft (hsub f' ft hft)
  · show Function.update s.fetches f none f' = none
    by_cases e1 : f' = f
    · rw [e1, Function.update_self]
    · rw [Function.update_of_ne e1]
      exact hg.unused f' hf'

theorem sim_removeFetch (q f : Addr) : Sim (Hiding (T := T) hidden p all groups active) Eq
    (removeFetch q f) (removeFetch q f) :=
  Sim.bind (sim_removeFetchFromStates f) fun _ _ _ => sim_deleteFetch q f

theorem sim_removeAllFetchersFromPeer (q : Addr) : Sim (Hiding (T := T) hidden p all groups active) Eq
    (removeAllFetchersFromPeer q) (removeAllFetchersFromPeer q) := by
  refine Sim.bind (sim_read fun _ _ _ => rfl) fun fs _ e1 => ?_
  subst e1
  exact Sim.each fs fun f _ => sim_removeFetch q f

theorem sim_removeFetchFromPeer (q : Addr) (request : Json) : Sim (Hiding (T := T) hidden p all groups active) Eq
    (removeFetchFromPeer env q request) (removeFetchFromPeer env q request) := by
  unfold removeFetchFromPeer
  refine Sim.bind (Sim.read (V := fun b b' => checkUnfetch b' q request = checkUnfetch b q request)
    fun s t h => h.same (f := fun b => checkUnfetch b q request) fun _ _ _ => rfl) fun b b' e1 => ?_
  rw [e1]
  cases checkUnfetch b q request with
  | error err => exact sim_errorResponse rfl err
  | ok f =>
    exact Sim.bind (sim_removeFetchFromStates f) fun _ _ _ =>
      Sim.bind (sim_deleteFetch q f) fun _ _ _ => sim_successResponse rfl

/-- a new fetch, which stands in no table yet -/
theorem sim_addFetch {q : Addr} (hq : q = p → active) (ft : Fetch) (hft : ft.peer = q) :
    Sim (Hiding (T := T) hidden p all groups active) Eq
      (Prog.update fun b =>
        { b with fetches := Function.update b.fetches b.fresh (some ft)
                 fetchList := Function.update b.fetchList q (b.fetchList q ++ [b.fresh])
                 fresh := b.fresh + 1 })
      (Prog.update fun b =>
        { b with fetches := Function.update b.fetches b.fresh (some ft)
                 fetchList := Function.update b.fetchList q (b.fetchList q ++ [b.fresh])
                 fresh := b.fresh + 1 }) := by
  refine Sim.update fun s t h => Plain.locked (f := fun b : Broker T =>
    { b with fetches := Function.update b.fetches b.fresh (some ft)
             fetchList := Function.update b.fetchList q (b.fetchList q ++ [b.fresh])
             fresh := b.fresh + 1 }) ⟨fun _ _ _ => rfl, fun _ => rfl, fun _ => rfl⟩ h ?_
  have hg := h.guard
  refine ⟨⟨fun e el hel hp f hf => ?_⟩, hg.allGroups, hg.fetchGroups, hg.apart, fun f ft' hft' => ?_, fun f hf => ?_⟩
  · obtain ⟨h1, h2⟩ := hg.strangers e el hel hp f hf
    refine ⟨Nat.lt_succ_of_lt h1, fun ft' hft' => h2 ft' ?_⟩
    have hft' : Function.update s.fetches s.fresh (some ft) f = some ft' := hft'
    rwa [Function.update_of_ne (Nat.ne_of_lt h1)] at hft'
  · have hft' : Function.update s.fetches s.fresh (some ft) f = some ft' := hft'
    intro hp
    by_cases e1 : f = s.fresh
    · rw [e1, Function.update_self] at hft'
      obtain rfl := Option.some.inj hft'
      exact hq (hft.symm.trans hp)
    · rw [Function.update_of_ne e1] at hft'
      exact hg.connected f ft' hft' hp
  · have hf : s.fresh + 1 ≤ f := hf
    show Function.update s.fetches s.fresh (some ft) f = none
    rw [Function.update_of_ne (Nat.ne_of_gt hf)]
    exact hg.unused f (Nat.le_of_succ_le hf)

theorem inPar_createFetch (q : Addr) (id : Option Json) (params : Json) :
    InPar (fun a a' => a' = a ∧ ∀ ft, a = .ok ft → ft.peer = q) (createFetch env q id params)
      (createFetch env q id params) := fun n =>
  ⟨⟨rfl, fun ft h => (createFetch_some h).1⟩, rfl⟩

theorem sim_addFetchToPeer {q : Addr} (hq : q = p → active) (request : Json) :
    Sim (Hiding (T := T) hidden p all groups active) Eq (addFetchToPeer env q request)
      (addFetchToPeer env q request) := by
  unfold addFetchToPeer
  refine Sim.bind (Sim.read (V := fun b b' => checkFetch b' q request = checkFetch b q request ∧ b'.fresh = b.fresh)
    fun s t h => ⟨h.same (f := fun b => checkFetch b q request) fun _ _ _ => rfl,
      h.same (f := fun b => b.fresh) fun _ _ _ => rfl⟩) fun b b' e1 => ?_
  rw [e1.1, e1.2]
  cases checkFetch b q request with
  | error err => exact Sim.pure rfl
  | ok r =>
    obtain ⟨params, fetchId⟩ := r
    refine Sim.bind (sim_allocating (inPar_createFetch q (some fetchId) params)) fun a a' e2 => ?_
    obtain ⟨rfl, hft⟩ := e2
    cases a' with
    | error err => exact Sim.pure rfl
    | ok ft => exact Sim.bind (sim_addFetch hq ft (hft ft rfl)) fun _ _ _ => Sim.pure rfl

theorem sim_processFetch (hsend : env.SendOk) {q : Addr} (hq : q = p → active) (request : Json) :
    Sim (Hiding (T := T) hidden p all groups active) Eq (processFetch env q request)
      (processFetch env q request) := by
  refine Sim.bind (sim_addFetchToPeer hq request) fun r _ e1 => ?_
  subst e1
  cases r with
  | error err => exact sim_errorResponse rfl err
  | ok f => exact sim_addFetchToStates hsend request f

/-! ## get -/

/-- the same states for `p`, for another peer perhaps with other values -/
def SameStates (p q : Addr) : Except Err (List Json) → Except Err (List Json) → Prop :=
  Agree fun l l' => q = p → l' = l

/-- the objects of two states -/
theorem inPar_createStateObject (path : String) (v v' : Json) :
    InPar (fun a b => (∃ err, a = .error err ∧ b = .error err) ∨ ∃ j j', a = .ok j ∧ b = .ok j')
      (createStateObject env path v) (createStateObject env path v') := by
  unfold createStateObject
  refine InPar.bind_same _ fun root => ?_
  cases root with
  | none => exact InPar.pure (Or.inl ⟨_, rfl, rfl⟩)
  | some root =>
    refine InPar.bind_same _ fun pathItem => ?_
    cases pathItem with
    | none => exact InPar.pure (Or.inl ⟨_, rfl, rfl⟩)
    | some pathItem =>
      refine InPar.bind_same _ fun root => ?_
      refine InPar.bind (inPar_tryCall (V := fun _ _ => True) trivial) fun a b hab => ?_
      cases hab with
      | none => exact InPar.pure (Or.inl ⟨_, rfl, rfl⟩)
      | some hab =>
        exact InPar.bind (inPar_addItemToObject root "value" _ _) fun _ _ _ => InPar.pure (Or.inr ⟨_, _, rfl, rfl⟩)

/-- A state with the hidden path is not among those that `p` gets. -/
theorem sim_getElement {q : Addr} (hq : q = p → active) {ft : Fetch} (hft : ft.peer = q) {l l' : List Json}
    (hl : q = p → l' = l) (e : Addr) : Sim (Hiding (T := T) hidden p all groups active) (SameStates p q)
      (getElement env ft l e) (getElement env ft l' e) := by
  intro s t h
  refine simAt_derefElement h fun el el' hel hel' halike => ?_
  have hsame : el'.fetchGroups = el.fetchGroups ∧ el'.path = el.path ∧ el'.value.isSome = el.value.isSome := by
    obtain ⟨value, _, hs⟩ := halike
    exact ⟨rfl, rfl, hs⟩
  have haccess : hasAccess t.allGroups el.fetchGroups (t.fetchGroups ft.peer)
      = hasAccess s.allGroups el.fetchGroups (s.fetchGroups ft.peer) :=
    h.same (f := fun b => hasAccess b.allGroups el.fetchGroups (b.fetchGroups ft.peer)) fun _ _ _ => rfl
  rw [hsame.1, hsame.2.1]
  refine SimAt.of_some (Prog.read_apply _ s) (Prog.read_apply _ t) ?_
  rw [haccess]
  cases hacc : hasAccess s.allGroups el.fetchGroups (s.fetchGroups ft.peer) with
  | false => exact Sim.pure (.ok l l' hl) s t h
  | true =>
    have hvalue : q = p → el'.value = el.value := fun e1 => by
      by_cases hp : el.path = hidden
      · have hno := h.guard.apart (hq e1) e el hel hp
        rw [hft, e1, h.guard.allGroups, h.guard.fetchGroups, hno] at hacc
        cases hacc
      · rw [halike.eq hp]
    rw [if_neg (by decide), if_neg (by decide)]
    refine Sim.bind (Sim.deref (V := Eq) fun _ _ _ => ?_) (fun isMatch _ e1 => ?_) s t h
    · cases stateMatches el.path ft.matcher with
      | none => exact .none
      | some isMatch => exact .some rfl
    · subst e1
      refine Sim.ite Iff.rfl (fun _ => ?_) fun _ => Sim.pure (.ok l l' hl)
      cases hv : el.value with
      | none =>
        cases hv' : el'.value with
        | none => exact Sim.pure (.ok l l' hl)
        | some v' =>
          rw [hv, hv'] at hsame
          cases hsame.2.2
      | some v =>
        cases hv' : el'.value with
        | none =>
          rw [hv, hv'] at hsame
          cases hsame.2.2
        | some v' =>
          have hpar : InPar (fun a b => ((∃ err, a = .error err ∧ b = .error err) ∨
              ∃ j j', a = .ok j ∧ b = .ok j') ∧ (q = p → b = a))
              (createStateObject env el.path v) (createStateObject env el.path v') := fun n => by
            obtain ⟨h1, h2⟩ := @inPar_createStateObject env el.path v v' n
            refine ⟨⟨h1, fun e1 => ?_⟩, h2⟩
            have hv2 := hvalue e1
            rw [hv, hv'] at hv2
            rw [Option.some.inj hv2]
          refine Sim.bind (sim_allocating hpar) fun a b hab => ?_
          obtain ⟨⟨err, rfl, rfl⟩ | ⟨j, j', rfl, rfl⟩, h2⟩ := hab
          · exact Sim.pure (.error err)
          · refine Sim.pure (.ok _ _ fun e1 => ?_)
            have h3 := h2 e1
            cases h3
            rw [hl e1]

theorem sim_getElementsInPeer {q : Addr} (hq : q = p → active) {ft : Fetch} (hft : ft.peer = q) {l l' : List Json}
    (hl : q = p → l' = l) (es : List Addr) : Sim (Hiding (T := T) hidden p all groups active) (SameStates p q)
      (getElementsInPeer env ft l es) (getElementsInPeer env ft l' es) := by
  induction es generalizing l l' with
  | nil => exact Sim.pure (.ok l l' hl)
  | cons e es ih =>
    refine Sim.bind (sim_getElement hq hft hl e) fun a b hab => ?_
    cases hab with
    | error err => exact Sim.pure (.error err)
    | ok l l' hl => exact ih hl

theorem sim_getElementsInPeers {q : Addr} (hq : q = p → active) {ft : Fetch} (hft : ft.peer = q) {l l' : List Json}
    (hl : q = p → l' = l) (ps : List Addr) : Sim (Hiding (T := T) hidden p all groups active) (SameStates p q)
      (getElementsInPeers env ft l ps) (getElementsInPeers env ft l' ps) := by
  induction ps generalizing l l' with
  | nil => exact Sim.pure (.ok l l' hl)
  | cons q' ps ih =>
    refine Sim.bind (sim_read fun _ _ _ => rfl) fun es _ e1 => ?_
    subst e1
    refine Sim.bind (sim_getElementsInPeer hq hft hl es) fun a b hab => ?_
    cases hab with
    | error err => exact Sim.pure (.error err)
    | ok l l' hl => exact ih hl

/-- the same decision; the same answer if it is for `p` -/
def SameResponse (p q : Addr) (a b : Response) : Prop := b.verdict = a.verdict ∧ SameFor p q a.json b.json

theorem SameResponse.of_eq {q : Addr} {a b : Response} (h : a = b) : SameResponse p q a b := by
  rw [h]
  exact ⟨rfl, SameFor.of_eq rfl⟩

theorem inPar_createResultResponse (request : Json) {q : Addr} {a b : Option Json} (h : SameFor p q a b) :
    InPar (SameFor p q) (createResultResponseFromRequest env request a "result")
      (createResultResponseFromRequest env request b "result") := by
  obtain ⟨h1, h2⟩ := h
  unfold createResultResponseFromRequest
  cases request.getObjectItem "id" with
  | none => exact InPar.pure (SameFor.of_eq rfl)
  | some id =>
    unfold createResultResponse
    refine InPar.bind_same _ fun root => ?_
    cases root with
    | none => exact InPar.pure (SameFor.of_eq rfl)
    | some root =>
      cases a with
      | none =>
        cases b with
        | none => exact InPar.bind_same _ fun _ => InPar.pure (SameFor.of_eq rfl)
        | some b => cases h1
      | some a =>
        cases b with
        | none => cases h1
        | some b =>
          have hadd : InPar (fun x y => q = p → x = y) (addItemToObject env root "result" (some a))
              (addItemToObject env root "result" (some b)) := fun n =>
            ⟨fun e => by rw [h2 e], rfl⟩
          exact InPar.bind hadd fun x y hxy => InPar.pure ⟨rfl, fun e => by rw [hxy e]⟩

theorem sim_getElements {q : Addr} (hq : q = p → active) (request : Json) :
    Sim (Hiding (T := T) hidden p all groups active) (SameResponse p q) (getElements env q request)
      (getElements env q request) := by
  have herror : ∀ err, Sim (Hiding (T := T) hidden p all groups active) (SameResponse p q)
      (errorResponse env request err) (errorResponse env request err) := fun err => by
    refine (sim_errorResponse rfl err).weaken fun a b e1 => ?_
    exact SameResponse.of_eq e1
  unfold getElements
  cases getParams request with
  | error err => exact herror err
  | ok params =>
    refine Sim.bind (sim_allocating (inPar_createFetch q none params)) fun a a' e2 => ?_
    obtain ⟨rfl, hft⟩ := e2
    cases a' with
    | error err => exact herror err
    | ok ft =>
      refine Sim.bind (sim_same _) fun array _ e1 => ?_
      subst e1
      refine Sim.bind (sim_read fun _ _ _ => rfl) fun peers _ e1 => ?_
      subst e1
      refine Sim.bind (sim_getElementsInPeers hq (hft ft rfl) (fun _ => rfl) peers) fun a b hab => ?_
      cases hab with
      | error err => exact herror err
      | ok l l' hl =>
        have harray : SameFor p q (array.map fun _ => Json.arr l) (array.map fun _ => Json.arr l') := by
          refine ⟨by cases array <;> rfl, fun e1 => ?_⟩
          rw [hl e1]
        exact Sim.bind (sim_allocating (inPar_createResultResponse request harray)) fun a b hab =>
          Sim.pure ⟨rfl, hab⟩

end

end Cjet
