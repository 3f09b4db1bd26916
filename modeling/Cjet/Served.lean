import Cjet.Model.Serving
import Cjet.Step

/-!
# What a step with uninitialised peers can be

* `Served`          what a step from a state can be, once and for all;
* `serve_of`        where `init_peer` succeeds for all peers that are allocated it is a step of the broker;
* `run_serve_of`    and so is a run.
-/

set_option linter.unusedVariables false

namespace Cjet
open Stateful Alloc

section
variable {T : Type}

theorem onBroker_apply {α : Type} (m : Prog (Broker T) α) (s : Service T) :
    onBroker m s = (m s.toBroker).map fun r => (r.1, { s with toBroker := r.2 }) := rfl

theorem onBroker_some {α : Type} {m : Prog (Broker T) α} {s t : Service T} {a : α} (h : onBroker m s = some (a, t)) :
    ∃ b', m s.toBroker = some (a, b') ∧ t = { s with toBroker := b' } := by
  obtain ⟨⟨a', b'⟩, h1, h2⟩ := Option.map_eq_some_iff.mp h
  obtain ⟨rfl, rfl⟩ := Prod.mk.inj h2
  exact ⟨b', h1, rfl⟩

theorem onBroker_of_some {α : Type} {m : Prog (Broker T) α} {s : Service T} {a : α} {b' : Broker T}
    (h : m s.toBroker = some (a, b')) : onBroker m s = some (a, { s with toBroker := b' }) := by
  rw [onBroker_apply, h]
  rfl

variable [HashTable T] {env : Env}

/-! ## a connection -/

/-- Where `init_peer` succeeds, or is not reached, the connection is as the broker has it. -/
theorem servePeer_initialised {p : Addr} {connection : Connection} {isLocal : Bool} {s : Service T}
    (h : env.ok connection.allocation s.calls = true → env.ok .malloc (s.calls + 1) = true) :
    servePeer env p connection isLocal s = onBroker (connectPeer env p connection isLocal) s := by
  have hcall := call_apply env connection.allocation s.toBroker
  rw [servePeer, Prog.bind_of_some (onBroker_of_some hcall), onBroker_apply, connectPeer, Prog.bind_of_some hcall]
  cases hok : env.ok connection.allocation s.calls with
  | false => rfl
  | true =>
    have hinit : initPeer env p connection.memory isLocal { s.toBroker with calls := s.calls + 1 }
        = some (true, s.toBroker.connected env p connection.memory isLocal (s.calls + 2)) := by
      rw [initPeer, Prog.bind_of_some (call_apply env .malloc _), h hok]
      rfl
    rw [if_pos rfl, if_pos rfl, Prog.bind_of_some (onBroker_of_some hinit), Prog.bind_of_some hinit]
    rfl

theorem servePeer_uninitialised {p : Addr} {connection : Connection} {isLocal : Bool} {s : Service T}
    (hok : env.ok connection.allocation s.calls = true) (hno : env.ok .malloc (s.calls + 1) = false) :
    servePeer env p connection isLocal s = some ((),
      ⟨s.toBroker.connected env p connection.memory connection.memory.isLocalConnection (s.calls + 2),
        Function.update s.uninitialised p (some connection.memory)⟩) := by
  have hinit : initPeer env p connection.memory isLocal { s.toBroker with calls := s.calls + 1 }
      = some (false, { s.toBroker with calls := s.calls + 2 }) := by
    rw [initPeer, Prog.bind_of_some (call_apply env .malloc _), hno]
    rfl
  have hcall := call_apply env connection.allocation s.toBroker
  rw [servePeer, Prog.bind_of_some (onBroker_of_some hcall), hok, if_pos rfl, Prog.bind_of_some (onBroker_of_some hinit)]
  rfl

theorem handleEvent_connect {p : Addr} {connection : Connection} {isLocal : Bool} {b : Broker T}
    (hp : (!b.peerList.contains p) = true) :
    handleEvent env (.connect p connection isLocal) b = connectPeer env p connection isLocal b :=
  Prog.bind_of_some (if_pos hp)

theorem handleEvent_connected {p : Addr} {connection : Connection} {isLocal : Bool} {b : Broker T}
    (hp : ¬ (!b.peerList.contains p) = true) : handleEvent env (.connect p connection isLocal) b = none :=
  Prog.bind_none (if_neg hp)

/-! ## all steps -/

/-- what a step from `s`, with no calls made yet, can be -/
inductive Served (env : Env) (s : Service T) : Event → Service T → Prop
  /-- as the broker has it -/
  | stepped (event : Event) (b' : Broker T) (hknown : ∀ p request, event = .rpc p request → s.uninitialised p = none)
      (h : handleEvent env event s.toBroker = some ((), b')) : Served env s event { s with toBroker := b' }
  | uninitialised (p : Addr) (connection : Connection) (isLocal : Bool)
      (hok : env.ok connection.allocation s.calls = true) :
    Served env s (.connect p connection isLocal)
      ⟨s.toBroker.connected env p connection.memory connection.memory.isLocalConnection (s.calls + 2),
        Function.update s.uninitialised p (some connection.memory)⟩
  | refused (p : Addr) (memory : PeerMemory) (request : Json) (user : String) (b' : Broker T)
      (hmemory : s.uninitialised p = some memory) (hrefused : refusedLogin memory request = some user)
      (h : refuseLogin env p request user s.toBroker = some ((), b')) :
    Served env s (.rpc p request) { s with toBroker := b' }
  | heard (p : Addr) (memory memory' : PeerMemory) (request : Json) (b' : Broker T)
      (hmemory : s.uninitialised p = some memory) (hrefused : refusedLogin memory request = none)
      (h : handleEvent env (.rpc p request) s.toBroker = some ((), b')) :
    Served env s (.rpc p request) ⟨b', Function.update s.uninitialised p (some memory')⟩

theorem served_of_serveEvent {event : Event} {s t : Service T} (h : serveEvent env event s = some ((), t)) :
    Served env s event t := by
  cases event with
  | connect p connection isLocal =>
    obtain ⟨_, s1, h1, h2⟩ := Prog.bind_some h
    obtain ⟨hp, rfl⟩ := Prog.require_some h1
    by_cases hinit : env.ok connection.allocation s1.calls = true → env.ok .malloc (s1.calls + 1) = true
    · rw [servePeer_initialised hinit] at h2
      obtain ⟨b', h3, rfl⟩ := onBroker_some h2
      refine .stepped _ b' (fun _ _ e => by cases e) ?_
      exact (handleEvent_connect hp).trans h3
    · obtain ⟨hok, hno⟩ := Classical.not_imp.mp hinit
      rw [servePeer_uninitialised hok (Bool.eq_false_iff.mpr hno)] at h2
      cases h2
      exact .uninitialised p connection isLocal hok
  | rpc p request =>
    obtain ⟨memory, s1, h1, h2⟩ := Prog.bind_some h
    obtain ⟨hmemory, rfl⟩ := Prog.read_some h1
    cases memory with
    | none =>
      obtain ⟨b', h3, rfl⟩ := onBroker_some h2
      exact .stepped _ b' (fun _ _ e => by cases e; exact hmemory.symm) h3
    | some memory =>
      obtain ⟨s2, s3, h3, h4⟩ := Prog.bind_some h2
      obtain ⟨rfl, rfl⟩ := Prog.read_some h3
      split at h4
      · cases h4
      cases hrefused : refusedLogin memory request with
      | some user =>
        rw [hrefused] at h4
        obtain ⟨b', h5, rfl⟩ := onBroker_some h4
        exact .refused p memory request user b' hmemory.symm hrefused h5
      | none =>
        rw [hrefused] at h4
        obtain ⟨_, s4, h5, h6⟩ := Prog.bind_some h4
        obtain ⟨b', h7, rfl⟩ := onBroker_some h5
        obtain ⟨_, s5, h8, h9⟩ := Prog.bind_some h6
        obtain ⟨_, rfl⟩ := Prog.require_some h8
        obtain rfl := Prog.update_some h9
        exact .heard p memory _ request b' hmemory.symm hrefused h7
  | timeout r =>
    obtain ⟨b', h1, rfl⟩ := onBroker_some h
    exact .stepped _ b' (fun _ _ e => by cases e) h1
  | disconnect p =>
    obtain ⟨_, s1, h1, h2⟩ := Prog.bind_some h
    obtain ⟨_, rfl⟩ := Prog.require_some h1
    obtain ⟨b', h3, rfl⟩ := onBroker_some h2
    exact .stepped _ b' (fun _ _ e => by cases e) h3

theorem serve_cases {platform : Platform} {s t : Service T} {i : Input} (h : serve platform s i = some t) :
    Served (i.env platform) { s with calls := 0 } i.event t := by
  obtain ⟨⟨u, t'⟩, h1, rfl⟩ := Option.map_eq_some_iff.mp h
  exact served_of_serveEvent h1

/-- what the broker does in such a step is a step of its own -/
theorem step_of_handleEvent {platform : Platform} {b b' : Broker T} {i : Input}
    (h : handleEvent (i.env platform) i.event { b with calls := 0 } = some ((), b')) : step platform b i = some b' := by
  rw [step, h]
  rfl

/-! ## runs without such peers -/

theorem serveEvent_of {event : Event} {b : Broker T}
    (h : ∀ p connection isLocal, event = .connect p connection isLocal →
      env.ok connection.allocation b.calls = true → env.ok .malloc (b.calls + 1) = true) :
    serveEvent env event (.of b) = onBroker (handleEvent env event) (.of b) := by
  cases event with
  | connect p connection isLocal =>
    by_cases hp : (!b.peerList.contains p) = true
    · have hserve : serveEvent env (.connect p connection isLocal) (.of b)
          = servePeer env p connection isLocal (.of b) := Prog.bind_of_some (if_pos hp)
      rw [hserve, servePeer_initialised (h p connection isLocal rfl), onBroker_apply, onBroker_apply]
      exact congrArg _ (handleEvent_connect hp).symm
    · have hserve : serveEvent env (.connect p connection isLocal) (.of b) = none :=
        Prog.bind_none (if_neg hp)
      rw [hserve, onBroker_apply]
      exact congrArg (Option.map _) (handleEvent_connected hp).symm
  | rpc p request => rfl
  | timeout r => rfl
  | disconnect p => rfl

theorem serve_of {platform : Platform} {i : Input} (h : i.InitsPeer platform) (b : Broker T) :
    serve platform (.of b) i = (step platform b i).map .of := by
  have hevent : serveEvent (i.env platform) i.event (.of { b with calls := 0 }) = onBroker _ _ := serveEvent_of h
  show (serveEvent (i.env platform) i.event (.of { b with calls := 0 })).map (·.2) = _
  rw [hevent, onBroker_apply, step, Option.map_map, Option.map_map]
  rfl

theorem run_serve_of {platform : Platform} {l : List Input} (h : ∀ i ∈ l, i.InitsPeer platform) (b : Broker T) :
    run (serve platform) (.of b) l = (run (step platform) b l).map .of := by
  induction l generalizing b with
  | nil => rfl
  | cons i l ih =>
    rw [run_cons, run_cons, serve_of (h i List.mem_cons_self)]
    cases step platform b i with
    | none => rfl
    | some b' => exact ih (fun j hj => h j (List.mem_cons_of_mem _ hj)) b'

end

end Cjet
