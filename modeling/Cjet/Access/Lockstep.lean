import Cjet.Store.Effect

/-!
# Two brokers side by side

Two states are in lockstep for the path `hidden` and the peer `p` where they differ at most in the
values of the elements with that path and in what has been sent to other peers.  As long as `p` has no
access to such an element, every handler keeps two brokers in lockstep.

* `Alike`, `Locked`    the relations;
* `sim_...`            one lemma for each program.
-/

set_option linter.unusedVariables false
set_option linter.unusedSectionVars false

namespace Cjet
open Stateful Alloc

/-- the same element, but for the value of a state with the hidden path -/
inductive Alike (hidden : String) (el : Element) : Element → Prop
  | mk (value : Option Json) (hp : el.path = hidden ∨ value = el.value) (hs : value.isSome = el.value.isSome) :
    Alike hidden el { el with value := value }

theorem Alike.refl {hidden : String} (el : Element) : Alike hidden el el := .mk el.value (Or.inr rfl) rfl

/-- what does not depend on the value -/
theorem Alike.same {hidden : String} {el el' : Element} (h : Alike hidden el el') {β : Type} {f : Element → β}
    (hf : ∀ el v, f { el with value := v } = f el) : f el' = f el := by
  obtain ⟨value, _, _⟩ := h
  exact hf el value

/-- another path: nothing differs -/
theorem Alike.eq {hidden : String} {el el' : Element} (h : Alike hidden el el') (hp : el.path ≠ hidden) :
    el' = el := by
  obtain ⟨value, h1, _⟩ := h
  rcases h1 with h1 | rfl
  · exact absurd h1 hp
  · rfl

/-- the messages to `p` -/
def sentTo (p : Addr) (l : List Sent) : List Sent := l.filter fun m => decide (m.peer = p)

theorem sentTo_append (p : Addr) (l m : List Sent) : sentTo p (l ++ m) = sentTo p l ++ sentTo p m :=
  List.filter_append ..

section
variable {T : Type} (hidden : String) (p : Addr)

/-- no fetch of `p` stands in the table of an element with the hidden path -/
structure Strangers (s : Broker T) : Prop where
  strangers : ∀ e el, s.elements e = some el → el.path = hidden → ∀ f ∈ Slots.entries el.fetcherTable,
    f < s.fresh ∧ ∀ ft, s.fetches f = some ft → ft.peer ≠ p

/-- `p`, if it is `active`, has no access to elements with the hidden path -/
structure Apart (all : Option (List String)) (groups : GroupSet) (active : Prop) (s : Broker T) : Prop
    extends Strangers hidden p s where
  allGroups : s.allGroups = all
  fetchGroups : s.fetchGroups p = groups
  apart : active → ∀ e el, s.elements e = some el → el.path = hidden → hasAccess all el.fetchGroups groups = false
  connected : ∀ f ft, s.fetches f = some ft → ft.peer = p → active
  unused : ∀ f, s.fresh ≤ f → s.fetches f = none

/-- the state that a guard of two runs looks at -/
structure SameView (s s' : Broker T) : Prop where
  elements : s'.elements = s.elements
  fetches : s'.fetches = s.fetches
  fresh : s'.fresh = s.fresh
  allGroups : s'.allGroups = s.allGroups
  fetchGroups : s'.fetchGroups p = s.fetchGroups p

class Guard (G : Broker T → Prop) : Prop where
  congr : ∀ {s s'}, SameView p s s' → G s → G s'

/-- the states differ in elements and messages alone; the guard `G` is met -/
inductive Locked (G : Broker T → Prop) (s : Broker T) : Broker T → Prop
  | mk (elements : Addr → Option Element) (sent : List Sent)
      (he : ∀ e, Option.Rel (Alike hidden) (s.elements e) (elements e)) (hs : sentTo p sent = sentTo p s.sent)
      (hg : G s) : Locked G s { s with elements := elements, sent := sent }

end

section
variable {T : Type} {hidden : String} {p : Addr}

theorem Strangers.congr {s s' : Broker T} (h : Strangers hidden p s) (hv : SameView p s s') :
    Strangers hidden p s' := by
  obtain ⟨h1, h2, h3, _, _⟩ := hv
  constructor
  rw [h1, h2, h3]
  exact h.strangers

instance : Guard p (Strangers (T := T) hidden p) := ⟨fun hv h => h.congr hv⟩

instance {all : Option (List String)} {groups : GroupSet} {active : Prop} :
    Guard p (Apart (T := T) hidden p all groups active) where
  congr := fun {s s'} hv h => by
    obtain ⟨h1, h2, h3, h4, h5⟩ := hv
    refine ⟨h.toStrangers.congr ⟨h1, h2, h3, h4, h5⟩, h4.trans h.allGroups, h5.trans h.fetchGroups, ?_, ?_, ?_⟩
    · rw [h1]
      exact h.apart
    · rw [h2]
      exact h.connected
    · rw [h2, h3]
      exact h.unused

theorem SameView.refl (s : Broker T) : SameView p s s := ⟨rfl, rfl, rfl, rfl, rfl⟩

variable {G : Broker T → Prop}

namespace Locked
variable {s t : Broker T}

theorem guard (h : Locked hidden p G s t) : G s := by
  obtain ⟨_, _, _, _, hg⟩ := h
  exact hg

theorem weaken {G' : Broker T → Prop} (h : Locked hidden p G s t) (hg : G' s) : Locked hidden p G' s t := by
  obtain ⟨elements, sent, he, hs, _⟩ := h
  exact .mk elements sent he hs hg

theorem element (h : Locked hidden p G s t) (e : Addr) : Option.Rel (Alike hidden) (s.elements e) (t.elements e) := by
  obtain ⟨elements, sent, he, _, _⟩ := h
  exact he e

theorem sentTo_eq (h : Locked hidden p G s t) : sentTo p t.sent = sentTo p s.sent := by
  obtain ⟨elements, sent, _, hs, _⟩ := h
  exact hs

/-- what does not look at elements and messages is the same -/
theorem same {α : Type} {f : Broker T → α} (hf : ∀ (s : Broker T) elements sent,
    f { s with elements := elements, sent := sent } = f s) (h : Locked hidden p G s t) : f t = f s := by
  obtain ⟨elements, sent, _, _, _⟩ := h
  exact hf s elements sent

end Locked

/-! ## steps that do not look at elements and messages -/

/-- the update neither reads nor writes elements and messages -/
structure Plain (f : Broker T → Broker T) : Prop where
  comm : ∀ (s : Broker T) elements sent, f { s with elements := elements, sent := sent }
    = { f s with elements := elements, sent := sent }
  elements : ∀ s, (f s).elements = s.elements
  sent : ∀ s, (f s).sent = s.sent

/-- one that keeps the guard, too -/
theorem Plain.locked {f : Broker T → Broker T} (hf : Plain f) {G' : Broker T → Prop} {s t : Broker T}
    (h : Locked hidden p G s t) (hg : G' (f s)) : Locked hidden p G' (f s) (f t) := by
  obtain ⟨elements, sent, he, hs, _⟩ := h
  have hcomm := hf.comm s elements sent
  rw [hcomm]
  refine .mk elements sent ?_ ?_ hg
  · rw [hf.elements]
    exact he
  · rw [hf.sent]
    exact hs

/-- the same number of calls is counted on both sides -/
theorem Locked.counted [Guard p G] {s t : Broker T} (h : Locked hidden p G s t) (n : Nat) :
    Locked hidden p G { s with calls := n } { t with calls := n } :=
  Plain.locked (f := fun b : Broker T => { b with calls := n }) ⟨fun _ _ _ => rfl, fun _ => rfl, fun _ => rfl⟩ h
    (Guard.congr (p := p) (s := s) ⟨rfl, rfl, rfl, rfl, rfl⟩ h.guard)

section
variable {α : Type} [Guard p G]

theorem sim_update {f : Broker T → Broker T} (hf : Plain f) (hv : ∀ s, SameView p s (f s)) :
    Sim (Locked hidden p G) Eq (Prog.update f) (Prog.update f) :=
  Sim.update fun s _ h => hf.locked h (Guard.congr (hv s) h.guard)

theorem sim_read {f : Broker T → α} (hf : ∀ (s : Broker T) elements sent,
    f { s with elements := elements, sent := sent } = f s) :
    Sim (Locked hidden p G) Eq (Prog.read f) (Prog.read f) :=
  Sim.read fun _ _ h => (h.same hf).symm

theorem sim_require {c : Broker T → Bool} (hc : ∀ (s : Broker T) elements sent,
    c { s with elements := elements, sent := sent } = c s) :
    Sim (Locked hidden p G) Eq (Prog.require c) (Prog.require c) :=
  Sim.require fun _ _ h => (h.same hc).symm

theorem sim_deref {f : Broker T → Option α} (hf : ∀ (s : Broker T) elements sent,
    f { s with elements := elements, sent := sent } = f s) :
    Sim (Locked hidden p G) Eq (Prog.deref f) (Prog.deref f) :=
  Sim.deref fun s t h => by
    rw [h.same hf]
    cases f s with
    | none => exact .none
    | some a => exact .some rfl

theorem sim_derefElement (e : Addr) : Sim (Locked (T := T) hidden p G) (Alike hidden)
    (Prog.deref fun b => b.elements e) (Prog.deref fun b => b.elements e) :=
  Sim.deref fun _ _ h => h.element e

theorem sim_allocating {β : Type} {V : α → β → Prop} {m : Alloc α} {n : Alloc β} (h : InPar V m n) :
    Sim (Locked (T := T) hidden p G) V (allocating m) (allocating n) := by
  intro s t hl
  obtain ⟨elements, sent, he, hs, hg⟩ := hl
  obtain ⟨h1, h2⟩ := h s.calls
  refine Or.inr ⟨_, _, _, _, rfl, rfl, h1, ?_⟩
  show Locked hidden p G { s with calls := (m s.calls).2 }
    { s with elements := elements, sent := sent, calls := (n s.calls).2 }
  rw [← h2]
  exact .mk (s := { s with calls := (m s.calls).2 }) elements sent he hs
    (Guard.congr (p := p) (s := s) ⟨rfl, rfl, rfl, rfl, rfl⟩ hg)

theorem sim_same (m : Alloc α) : Sim (Locked (T := T) hidden p G) Eq (allocating m) (allocating m) :=
  sim_allocating (InPar.refl m)

theorem sim_call (env : Env) (c : Call) : Sim (Locked (T := T) hidden p G) Eq (call env c) (call env c) :=
  sim_same _

end

/-! ## sending and responding -/

section
variable [Guard p G] {env : Env}

theorem locked_send {s t : Broker T} (h : Locked hidden p G s t) {q : Addr} {about : About}
    {msg msg' : Json} {ok : Bool} (hm : q = p → msg = msg') :
    Locked hidden p G { s with calls := s.calls + 1, sent := s.sent ++ [⟨q, about, msg, ok⟩] }
      { t with calls := t.calls + 1, sent := t.sent ++ [⟨q, about, msg', ok⟩] } := by
  obtain ⟨elements, sent, he, hs, hg⟩ := h
  have hsent : sentTo p (sent ++ [⟨q, about, msg', ok⟩]) = sentTo p (s.sent ++ [⟨q, about, msg, ok⟩]) := by
    rw [sentTo_append, sentTo_append, hs]
    refine congrArg _ ?_
    by_cases e : q = p
    · rw [hm e]
    · unfold sentTo
      simp [e]
  exact .mk (s := { s with calls := s.calls + 1, sent := s.sent ++ [⟨q, about, msg, ok⟩] }) elements _ he hsent
    (Guard.congr (p := p) (s := s) ⟨rfl, rfl, rfl, rfl, rfl⟩ hg)

/-- the same message, or one to another peer -/
theorem sim_sendMessage (hsend : env.SendOk) (q : Addr) (about : About) {msg msg' : Json}
    (hm : q = p → msg = msg') :
    Sim (Locked (T := T) hidden p G) Eq (sendMessage env q about msg) (sendMessage env q about msg') := by
  intro s t h
  have hpeers : t.peerList = s.peerList := by
    obtain ⟨elements, sent, _, _, _⟩ := h
    rfl
  by_cases hq : q ∈ s.peerList
  · have hq' : q ∈ t.peerList := by rwa [hpeers]
    refine Or.inr ⟨_, _, _, _, sendMessage_apply env q about msg s hq, sendMessage_apply env q about msg' t hq', ?_, ?_⟩
    · rw [hsend _ _ rfl, hsend _ _ rfl]
    · rw [hsend _ _ rfl, hsend _ _ rfl]
      exact locked_send h hm
  · have hfail : ∀ (u : Broker T) m, u.peerList = s.peerList → sendMessage env q about m u = none := fun u m hu => by
      unfold sendMessage
      refine Prog.bind_none ?_
      unfold Prog.require
      refine if_neg ?_
      show ¬ u.peerList.contains q = true
      rw [hu]
      simpa using hq
    exact Or.inl ⟨hfail s msg rfl, hfail t msg' hpeers⟩

theorem sim_successResponse {request request' : Json}
    (hid : request'.getObjectItem "id" = request.getObjectItem "id") :
    Sim (Locked (T := T) hidden p G) Eq (successResponse env request) (successResponse env request') := by
  have h : createSuccessResponseFromRequest env request' = createSuccessResponseFromRequest env request := by
    unfold createSuccessResponseFromRequest createResultResponseFromRequest
    rw [hid]
  unfold successResponse
  rw [h]
  exact Sim.bind (sim_same _) fun a b e => Sim.pure (by rw [e])

theorem sim_errorResponse {request request' : Json}
    (hid : request'.getObjectItem "id" = request.getObjectItem "id") (err : Err) :
    Sim (Locked (T := T) hidden p G) Eq (errorResponse env request err)
      (errorResponse env request' err) := by
  have h : createErrorResponseFromRequest env request' err = createErrorResponseFromRequest env request err := by
    unfold createErrorResponseFromRequest
    rw [hid]
  unfold errorResponse
  rw [h]
  exact Sim.bind (sim_same _) fun a b e => Sim.pure (by rw [e])

theorem sim_failureResponse {request request' : Json}
    (hid : request'.getObjectItem "id" = request.getObjectItem "id") (err : Option Err) :
    Sim (Locked (T := T) hidden p G) Eq (failureResponse env request err)
      (failureResponse env request' err) := by
  cases err with
  | none => exact Sim.pure rfl
  | some err => exact sim_errorResponse hid err

theorem sim_formatAndSendResponse (hsend : env.SendOk) (q : Addr) (about : About) {response response' : Json}
    (hr : q = p → response = response') :
    Sim (Locked (T := T) hidden p G) Eq (formatAndSendResponse env q about response)
      (formatAndSendResponse env q about response') := by
  have hprint : InPar (fun a b : Option Json => a.isSome = b.isSome ∧ (q = p → a = b))
      (printUnformatted env about response) (printUnformatted env about response') := fun n => by
    refine ⟨?_, rfl⟩
    show (if env.ok _ n then some response else none).isSome = (if env.ok _ n then some response' else none).isSome ∧
      (q = p → (if env.ok _ n then some response else none) = (if env.ok _ n then some response' else none))
    cases env.ok (.print about) n with
    | true => exact ⟨rfl, fun e => by rw [hr e]⟩
    | false => exact ⟨rfl, fun _ => rfl⟩
  refine Sim.bind (sim_allocating hprint) fun a b hab => ?_
  obtain ⟨h1, h2⟩ := hab
  cases a with
  | none =>
    cases b with
    | none => exact Sim.pure rfl
    | some b => cases h1
  | some a =>
    cases b with
    | none => cases h1
    | some b => exact sim_sendMessage hsend q about fun e => Option.some.inj (h2 e)

/-- the same response, or one for another peer -/
def SameFor (p q : Addr) (a b : Option Json) : Prop := a.isSome = b.isSome ∧ (q = p → a = b)

theorem SameFor.of_eq {q : Addr} {a b : Option Json} (h : a = b) : SameFor p q a b := by
  rw [h]
  exact ⟨rfl, fun _ => rfl⟩

theorem sim_sendResponse (hsend : env.SendOk) {q : Addr} {a b : Option Json} (h : SameFor p q a b) :
    Sim (Locked (T := T) hidden p G) Eq (sendResponse env q a) (sendResponse env q b) := by
  obtain ⟨h1, h2⟩ := h
  cases a with
  | none =>
    cases b with
    | none => exact Sim.pure rfl
    | some b => cases h1
  | some a =>
    cases b with
    | none => cases h1
    | some b =>
      refine Sim.bind (sim_read fun _ _ _ => rfl) fun n n' e => ?_
      rw [← e]
      exact sim_formatAndSendResponse hsend q _ fun e => Option.some.inj (h2 e)

end

/-! ## notifications -/

section
variable [Guard p G] {env : Env}

theorem inPar_tryCall {α β : Type} {V : α → β → Prop} {c : Call} {a : α} {b : β} (h : V a b) :
    InPar (Option.Rel V) (tryCall env c a) (tryCall env c b) := fun n => by
  refine ⟨?_, rfl⟩
  show Option.Rel V (if env.ok c n then some a else none) (if env.ok c n then some b else none)
  cases env.ok c n with
  | true => exact .some h
  | false => exact .none

theorem inPar_addItemToObject (root : Json) (key : String) (a b : Json) :
    InPar (fun _ _ => True) (addItemToObject env root key (some a)) (addItemToObject env root key (some b)) :=
  fun n => ⟨trivial, rfl⟩

/-- the messages about alike elements differ in the value alone -/
theorem inPar_createNotification {el el' : Element} (h : Alike hidden el el') (ft : Fetch) (eventName : String) :
    InPar (fun a b => a.isSome = b.isSome) (createNotification env el ft eventName)
      (createNotification env el' ft eventName) := by
  obtain ⟨value, _, hs⟩ := h
  unfold createNotification
  refine InPar.bind_same _ fun root => ?_
  cases root with
  | none => exact InPar.pure rfl
  | some root =>
    cases ft.fetchId with
    | none => exact InPar.pure rfl
    | some id =>
      refine InPar.bind_same _ fun fetchId => ?_
      cases fetchId with
      | none => exact InPar.pure rfl
      | some fetchId =>
        refine InPar.bind_same _ fun root => InPar.bind_same _ fun param => ?_
        cases param with
        | none => exact InPar.pure rfl
        | some param =>
          refine InPar.bind_same _ fun attached => ?_
          refine InPar.ite_same _ (InPar.bind_same _ fun t => InPar.bind_same _ fun param => ?_)
            (InPar.bind_same _ fun param => ?_)
          all_goals
            refine InPar.bind_same _ fun path => ?_
            cases path with
            | none => exact InPar.pure rfl
            | some path =>
              refine InPar.bind_same _ fun param => InPar.bind_same _ fun event => ?_
              cases event with
              | none => exact InPar.pure rfl
              | some event =>
                refine InPar.bind_same _ fun param => ?_
                dsimp only
                cases value with
                | none =>
                  cases hv : el.value with
                  | none => exact InPar.pure rfl
                  | some v =>
                    rw [hv] at hs
                    cases hs
                | some v' =>
                  cases hv : el.value with
                  | none =>
                    rw [hv] at hs
                    cases hs
                  | some v =>
                    refine InPar.bind (inPar_tryCall (V := fun _ _ => True) trivial) fun a b hab => ?_
                    cases hab with
                    | none => exact InPar.pure rfl
                    | some hab =>
                      exact InPar.bind (inPar_addItemToObject param "value" _ _) fun _ _ _ => InPar.pure rfl

/-! ## notifying -/

variable {all : Option (List String)} {groups : GroupSet} {active : Prop}

/-- a fetch of another peer, or an element with another path -/
theorem simAt_notifyFetchingPeer (hsend : env.SendOk) {s t : Broker T} (h : Locked hidden p G s t)
    {e f : Addr} {el el' : Element} {eventName : String} (hel : s.elements e = some el)
    (hel' : t.elements e = some el') (hne : ∀ ft, s.fetches f = some ft → el.path = hidden → ft.peer ≠ p) :
    SimAt (Locked hidden p G) Eq (notifyFetchingPeer env e f eventName)
      (notifyFetchingPeer env e f eventName) s t := by
  have halike := h.element e
  rw [hel, hel'] at halike
  have halike : Alike hidden el el' := by
    cases halike with
    | some h => exact h
  refine SimAt.of_some (deref_element hel) (deref_element hel') ?_
  refine SimAt.deref_same (h.same (f := fun b => b.fetches f) fun _ _ _ => rfl) fun ft hft => ?_
  have hmsg : InPar (SameFor p ft.peer) (createNotification env el ft eventName)
      (createNotification env el' ft eventName) := by
    by_cases hp : el.path = hidden
    · intro n
      obtain ⟨h1, h2⟩ := inPar_createNotification halike ft eventName n
      exact ⟨⟨h1, fun e => absurd e (hne ft hft hp)⟩, h2⟩
    · rw [halike.eq hp]
      exact fun n => ⟨SameFor.of_eq rfl, rfl⟩
  refine Sim.bind (sim_allocating hmsg) (fun a b hab => ?_) s t h
  obtain ⟨h1, h2⟩ := hab
  cases a with
  | none =>
    cases b with
    | none => exact Sim.pure rfl
    | some b => cases h1
  | some a =>
    cases b with
    | none => cases h1
    | some b => exact sim_formatAndSendResponse hsend ft.peer (.notification f e) fun e => Option.some.inj (h2 e)

theorem simAt_notifyAll (hsend : env.SendOk) {e : Addr} {el el' : Element} {eventName : String} {fs : List Addr}
    {fetches : Addr → Option Fetch} (hne : ∀ f ∈ fs, ∀ ft, fetches f = some ft → el.path = hidden → ft.peer ≠ p)
    {s t : Broker T} (h : Locked hidden p G s t) (hel : s.elements e = some el)
    (hel' : t.elements e = some el') (hf : s.fetches = fetches) :
    SimAt (Locked hidden p G) Eq (Prog.tryAll (fun f => notifyFetchingPeer env e f eventName) fs)
      (Prog.tryAll (fun f => notifyFetchingPeer env e f eventName) fs) s t := by
  induction fs generalizing s t with
  | nil => exact Sim.pure rfl s t h
  | cons f fs ih =>
    have hfirst : SimAt (Locked hidden p G) Eq (notifyFetchingPeer env e f eventName)
        (notifyFetchingPeer env e f eventName) s t := simAt_notifyFetchingPeer hsend h hel hel' fun ft hft =>
      hne f List.mem_cons_self ft (by rw [← hf]; exact hft)
    rcases hfirst with ⟨h1, h2⟩ | ⟨ok, s', ok', t', h1, h2, hok, h3⟩
    · exact Or.inl ⟨Prog.bind_none h1, Prog.bind_none h2⟩
    · subst hok
      refine SimAt.of_some h1 h2 ?_
      cases ok with
      | false => exact Sim.pure rfl s' t' h3
      | true =>
        obtain ⟨_, _, _, n, _, _, _, _, rfl⟩ := notifyFetchingPeer_some h1
        obtain ⟨_, _, _, n', _, _, _, _, rfl⟩ := notifyFetchingPeer_some h2
        exact ih (fun f' hf' => hne f' (List.mem_cons_of_mem f hf')) h3 hel hel' hf

/-- The element is followed in both runs: alike elements, or none. -/
theorem simAt_derefElement {α β : Type} {V : α → β → Prop} {e : Addr} {f : Element → Prog (Broker T) α}
    {g : Element → Prog (Broker T) β} {s t : Broker T} (h : Locked hidden p G s t)
    (hf : ∀ el el', s.elements e = some el → t.elements e = some el' → Alike hidden el el' →
      SimAt (Locked hidden p G) V (f el) (g el') s t) :
    SimAt (Locked hidden p G) V (Prog.deref (fun b => b.elements e) >>= f)
      (Prog.deref (fun b => b.elements e) >>= g) s t := by
  have hrel := h.element e
  cases hel : s.elements e with
  | none =>
    rw [hel] at hrel
    cases hel' : t.elements e with
    | none => exact Or.inl ⟨Prog.bind_none (Prog.deref_of_none hel), Prog.bind_none (Prog.deref_of_none hel')⟩
    | some el' => rw [hel'] at hrel; cases hrel
  | some el =>
    rw [hel] at hrel
    cases hel' : t.elements e with
    | none => rw [hel'] at hrel; cases hrel
    | some el' =>
      rw [hel'] at hrel
      cases hrel with
      | some halike =>
        exact SimAt.of_some (deref_element hel) (deref_element hel') (hf el el' hel hel' halike)

/-- the relation of two runs of a handler -/
abbrev Hiding (hidden : String) (p : Addr) (all : Option (List String)) (groups : GroupSet) (active : Prop) :
    Broker T → Broker T → Prop := Locked hidden p (Apart hidden p all groups active)

theorem sim_notifyFetchers (hsend : env.SendOk) (e : Addr) (eventName : String) :
    Sim (Hiding (T := T) hidden p all groups active) Eq (notifyFetchers env e eventName)
      (notifyFetchers env e eventName) := by
  intro s t h
  refine simAt_derefElement h fun el el' hel hel' halike => ?_
  have htable : el'.fetcherTable = el.fetcherTable := halike.same (f := fun el => el.fetcherTable) fun _ _ => rfl
  rw [htable]
  exact simAt_notifyAll hsend (fun f hf ft hft hp => (h.guard.strangers e el hel hp f hf).2 ft hft) h hel hel' rfl

end

end

end Cjet
