import Cjet.Io.Server
import Cjet.Route.Recipients

/-!
# What the functions of the server do

One lemma for each function: the state that a result of it leaves behind.

* `handleError_some`, `freeJetPeer_some`   the connection of a websocket peer is closed before its resources are
  released, that of a jet peer behind them;
* `allocWebsocketPeer_some`   a websocket peer is created;
* `Parsing.requests`, `Parsing.nparsed`   the number of peers that a line creates, and how much of it is consumed;
* `callbacks_some`            what a line does that creates at most one;
* `Processed`, `serverStep_some`   the ways of a step.
-/

set_option linter.unusedVariables false
set_option linter.unusedSectionVars false

namespace Cjet
open Stateful

namespace Server

/-! ## what the functions do -/

section
variable {T P : Type} {s t : Server T P} {c p : Addr}

theorem atBroker_some {α : Type} {m : Prog (Broker T) α} {a : α} (h : atBroker m s = some (a, t)) :
    ∃ b, m s.broker = some (a, b) ∧ t = s.proceed b := by
  unfold atBroker at h
  obtain ⟨⟨a', b⟩, h1, h2⟩ := Option.map_eq_some_iff.mp h
  cases h2
  exact ⟨b, h1, rfl⟩

/-- nothing is sent -/
theorem proceed_quiet {b : Broker T} (h : b.sent = s.broker.sent) : s.proceed b = { s with broker := b } := by
  unfold proceed
  rw [h, List.drop_length, List.map_nil, List.append_nil]

theorem atBroker_call {env : Env} {a : Call} {ok : Bool} (h : atBroker (call env a) s = some (ok, t)) :
    t = { s with broker := { s.broker with calls := s.broker.calls + 1 } } := by
  obtain ⟨b, h1, rfl⟩ := atBroker_some h
  obtain ⟨_, rfl⟩ := call_some h1
  exact proceed_quiet rfl

/-- the connection is closed and freed -/
def freed (s : Server T P) (c : Addr) : Server T P :=
  { s with connections := Function.update s.connections c none }

/-- more has been written -/
def wrote (s : Server T P) (w : List Write) : Server T P := { s with written := s.written ++ w }

theorem wrote_nil : s.wrote [] = s := by
  unfold wrote
  rw [List.append_nil]

theorem wrote_wrote (v w : List Write) : (s.wrote v).wrote w = s.wrote (v ++ w) := by
  unfold wrote
  rw [List.append_assoc]

theorem writev_some {u : Unit} (h : writev c s = some (u, t)) : t = s.wrote [s.write c] := Prog.update_some h

theorem freeConnection_some {u : Unit} (h : freeConnection c s = some (u, t)) :
    s.isOpen c = true ∧ t = s.freed c := by
  obtain ⟨_, s1, h1, h2⟩ := Prog.bind_some h
  obtain ⟨ho, rfl⟩ := Prog.require_some h1
  exact ⟨ho, Prog.update_some h2⟩

/-- the close frame of `websocket_close` -/
def closeFrame (s : Server T P) (p : Addr) : List Write :=
  if (s.links p).upgradeComplete then [s.write (s.links p).connection] else []

theorem websocketClose_some {u : Unit} (h : websocketClose p s = some (u, t)) :
    s.isOpen (s.links p).connection = true ∧ t = (s.wrote (s.closeFrame p)).freed (s.links p).connection := by
  obtain ⟨link, s1, h1, h2⟩ := Prog.bind_some h
  obtain ⟨rfl, rfl⟩ := Prog.read_some h1
  unfold closeFrame
  by_cases hc : (s1.links p).upgradeComplete = true
  · rw [if_pos hc] at h2 ⊢
    obtain ⟨_, s2, h3, h4⟩ := Prog.bind_some h2
    obtain rfl := writev_some h3
    exact freeConnection_some h4
  · rw [if_neg hc] at h2 ⊢
    rw [wrote_nil]
    exact freeConnection_some h2

end

section
variable {T P : Type} [HashTable T] {server : HttpServer P} {env : Env} {s t : Server T P} {c p : Addr} {u : Unit}

theorem atBroker_event {e : Event} (h : atBroker (handleEvent env e) s = some (u, t)) :
    ∃ b, Stepped env s.broker e b ∧ t = s.proceed b := by
  obtain ⟨b, h1, h2⟩ := atBroker_some h
  exact ⟨b, handleEvent_cases env h1, h2⟩

/-- The connection of a websocket peer is closed first. -/
theorem handleError_some (h : handleError env p s = some (u, t)) :
    s.isOpen (s.links p).connection = true ∧ ∃ b, Stepped env s.broker (.disconnect p) b ∧
      t = ((s.wrote (s.closeFrame p)).freed (s.links p).connection).proceed b := by
  obtain ⟨_, s1, h1, h2⟩ := Prog.bind_some h
  obtain ⟨ho, rfl⟩ := websocketClose_some h1
  obtain ⟨b, h3, h4⟩ := atBroker_event h2
  exact ⟨ho, b, h3, h4⟩

/-- The connection of a jet peer is closed at the end. -/
theorem freeJetPeer_some (h : freeJetPeer env p s = some (u, t)) :
    ∃ b, Stepped env s.broker (.disconnect p) b ∧ t = (s.proceed b).freed (s.links p).connection := by
  obtain ⟨link, s1, h1, h2⟩ := Prog.bind_some h
  obtain ⟨rfl, rfl⟩ := Prog.read_some h1
  obtain ⟨_, s2, h3, h4⟩ := Prog.bind_some h2
  obtain ⟨b, h5, rfl⟩ := atBroker_event h3
  exact ⟨b, h5, (freeConnection_some h4).2⟩

/-! ## the creation of a websocket peer -/

/-- the connection of `c` is given another reader or parser -/
def withReader (s : Server T P) (c : Addr) (f : BufferedReader P → BufferedReader P) : Server T P :=
  { s with connections := Function.update s.connections c ((s.connections c).map f) }

theorem setReader_some {f : BufferedReader P → BufferedReader P} (h : setReader c f s = some (u, t)) :
    t = s.withReader c f := Prog.update_some h

/-- the broker `b` has, or has not, taken in a new peer, and the connection `c` is given to it -/
def created (s : Server T P) (c : Addr) (b : Broker T) : Server T P :=
  { s with
    broker := b
    links := Function.update s.links s.freshPeer (.websocket c false)
    connections := Function.update s.connections c ((s.connections c).map fun br =>
      { br with readCallback := .websocketReadHeaderLine s.freshPeer, error := .freeWebsocketPeerOnError s.freshPeer })
    freshPeer := s.freshPeer + 1 }

/-- what `init_peer` makes of the broker -/
def Initialized (env : Env) (p : Addr) (b b' : Broker T) : Prop :=
  (∃ n, b' = { b with calls := n }) ∨ ∃ memory isLocal n, b' = b.connected env p memory isLocal n

theorem atBroker_initPeer {memory : PeerMemory} {isLocal ok : Bool}
    (h : atBroker (initPeer env p memory isLocal) s = some (ok, t)) :
    ∃ b, Initialized env p s.broker b ∧ t = { s with broker := b } := by
  obtain ⟨b, h1, rfl⟩ := atBroker_some h
  rcases initPeer_some h1 with ⟨n, rfl⟩ | ⟨n, rfl⟩
  · exact ⟨_, Or.inl ⟨n, rfl⟩, proceed_quiet rfl⟩
  · exact ⟨_, Or.inr ⟨memory, isLocal, n, rfl⟩, proceed_quiet rfl⟩

theorem initialized_call {env : Env} {b b' : Broker T} {n : Nat} (h : Initialized env p { b with calls := n } b') :
    Initialized env p b b' := by
  rcases h with ⟨m, rfl⟩ | ⟨memory, isLocal, m, rfl⟩
  · exact Or.inl ⟨m, rfl⟩
  · exact Or.inr ⟨memory, isLocal, m, rfl⟩

theorem allocWebsocketPeer_some (h : allocWebsocketPeer env c s = some (u, t)) :
    (∃ n, t = { s with broker := { s.broker with calls := n } }) ∨
      ∃ b, Initialized env s.freshPeer s.broker b ∧ t = s.created c b := by
  obtain ⟨br, s1, h1, h2⟩ := Prog.bind_some h
  obtain ⟨hbr, rfl⟩ := Prog.deref_some h1
  obtain ⟨ok, s2, h3, h4⟩ := Prog.bind_some h2
  obtain rfl := atBroker_call h3
  cases ok with
  | false =>
    obtain ⟨_, rfl⟩ := Prog.pure_some h4
    exact Or.inl ⟨_, rfl⟩
  | true =>
    obtain ⟨p, s3, h5, h6⟩ := Prog.bind_some h4
    cases h5
    obtain ⟨_, s4, h7, h8⟩ := Prog.bind_some h6
    obtain ⟨b, hb, rfl⟩ := atBroker_initPeer h7
    obtain ⟨_, s5, h9, h10⟩ := Prog.bind_some h8
    obtain rfl := Prog.update_some h9
    obtain rfl := setReader_some h10
    exact Or.inr ⟨b, initialized_call hb, rfl⟩

end

end Server

/-! ## what a line does -/

namespace Parsing
variable {P : Type} (server : HttpServer P)

/-- the number of peers that `on_url` creates -/
def requests : List HeaderAnswer → Parsing P → Nat
  | _, done parser nparsed => 0
  | answers, onUrl isConnect url next =>
    requests answers (next (server.handles isConnect url)) + (server.handles isConnect url).toNat
  | [], onHeader next => requests [] (next false)
  | answer :: answers, onHeader next => requests answers (next answer.ok)
  | [], onHeadersComplete next => requests [] (next false)
  | answer :: answers, onHeadersComplete next => requests answers (next answer.ok)

/-- the number of bytes that are consumed -/
def nparsed : List HeaderAnswer → Parsing P → Nat
  | _, done parser nparsed => nparsed
  | answers, onUrl isConnect url next => nparsed answers (next (server.handles isConnect url))
  | [], onHeader next => nparsed [] (next false)
  | answer :: answers, onHeader next => nparsed answers (next answer.ok)
  | [], onHeadersComplete next => nparsed [] (next false)
  | answer :: answers, onHeadersComplete next => nparsed answers (next answer.ok)

end Parsing

namespace Server
variable {T P : Type} [HashTable T] {server : HttpServer P} {env : Env} {s t : Server T P} {c p : Addr} {u : Unit}

/-- responses may have been written to the connection -/
def Responds (c : Addr) (s t : Server T P) : Prop := ∃ n, t = s.wrote (List.replicate n (s.write c))

theorem responds_refl (c : Addr) (s : Server T P) : Responds c s s := ⟨0, wrote_nil.symm⟩

theorem responds_writev (c : Addr) (s : Server T P) : Responds c s (s.wrote [s.write c]) := ⟨1, rfl⟩

theorem Responds.trans {s1 : Server T P} (h : Responds c s s1) (h' : Responds c s1 t) : Responds c s t := by
  obtain ⟨n, rfl⟩ := h
  obtain ⟨k, rfl⟩ := h'
  refine ⟨n + k, ?_⟩
  rw [← List.replicate_append_replicate, ← wrote_wrote]
  rfl

/-- one peer is created, between responses -/
def CreatesOne (env : Env) (c : Addr) (s t : Server T P) : Prop :=
  ∃ s1 s2, Responds c s s1 ∧ allocWebsocketPeer env c s1 = some ((), s2) ∧ Responds c s2 t

theorem onUrl_some {isConnect ok : Bool} {url : List UInt8} (h : onUrl server env c isConnect url s = some (ok, t)) :
    ok = server.handles isConnect url ∧ (ok = false → t = s) ∧
      (ok = true → allocWebsocketPeer env c s = some ((), t)) := by
  unfold onUrl at h
  by_cases hh : server.handles isConnect url = true
  · rw [if_pos hh] at h
    obtain ⟨_, s1, h1, h2⟩ := Prog.bind_some h
    obtain ⟨rfl, rfl⟩ := Prog.pure_some h2
    exact ⟨hh.symm, fun e => (by cases e), fun _ => h1⟩
  · rw [if_neg hh] at h
    obtain ⟨rfl, rfl⟩ := Prog.pure_some h
    exact ⟨(Bool.not_eq_true _ |>.mp hh).symm, fun _ => rfl, fun e => (by cases e)⟩

/-- what the callbacks of a line do, for a line that creates at most one peer -/
theorem callbacks_some {answers : List HeaderAnswer} {x : Parsing P} {r : P × Nat}
    (h : callbacks server env c answers x s = some (r, t)) :
    r.2 = x.nparsed server answers ∧ (x.requests server answers = 0 → Responds c s t) ∧
      (x.requests server answers = 1 → CreatesOne env c s t) := by
  induction x generalizing answers s with
  | done parser nparsed =>
    have hdone : (pure (parser, nparsed) : Prog (Server T P) (P × Nat)) s = some (r, t) := by
      cases answers <;> exact h
    obtain ⟨rfl, rfl⟩ := Prog.pure_some hdone
    refine ⟨by cases answers <;> rfl, fun _ => responds_refl c t, fun e => ?_⟩
    cases answers <;> cases e
  | onUrl isConnect url next ih =>
    have hurl : (onUrl server env c isConnect url >>= fun ok => callbacks server env c answers (next ok)) s
        = some (r, t) := by
      cases answers <;> exact h
    have hrequests : (Parsing.onUrl isConnect url next).requests server answers
        = (next (server.handles isConnect url)).requests server answers + (server.handles isConnect url).toNat := by
      cases answers <;> rfl
    have hnparsed : (Parsing.onUrl isConnect url next).nparsed server answers
        = (next (server.handles isConnect url)).nparsed server answers := by
      cases answers <;> rfl
    rw [hrequests, hnparsed]
    obtain ⟨ok, s1, h1, h2⟩ := Prog.bind_some hurl
    obtain ⟨hok, hno, hyes⟩ := onUrl_some h1
    rw [← hok]
    obtain ⟨h3, h4, h5⟩ := ih ok h2
    cases ok with
    | false =>
      obtain rfl := hno rfl
      exact ⟨h3, h4, h5⟩
    | true =>
      refine ⟨h3, fun e => (by cases e), fun e => ?_⟩
      exact ⟨s, s1, responds_refl c s, hyes rfl, h4 (Nat.succ.inj e)⟩
  | onHeader next ih =>
    cases answers with
    | nil => exact ih false h
    | cons answer answers => exact ih answer.ok h
  | onHeadersComplete next ih =>
    cases answers with
    | nil => exact ih false h
    | cons answer answers =>
      have hanswer : (if answer.responds then (writev c >>= fun _ => callbacks server env c answers (next answer.ok))
          else callbacks server env c answers (next answer.ok)) s = some (r, t) := h
      by_cases hr : answer.responds = true
      · rw [if_pos hr] at hanswer
        obtain ⟨_, s1, h1, h2⟩ := Prog.bind_some hanswer
        obtain rfl := writev_some h1
        obtain ⟨h3, h4, h5⟩ := ih answer.ok h2
        refine ⟨h3, fun e => (responds_writev c s).trans (h4 e), fun e => ?_⟩
        obtain ⟨s1, s2, h6, h7, h8⟩ := h5 e
        exact ⟨s1, s2, (responds_writev c s).trans h6, h7, h8⟩
      · rw [if_neg hr] at hanswer
        exact ih answer.ok hanswer

/-- the parser goes on to another state -/
def parsed (s : Server T P) (c : Addr) (parser : P) : Server T P :=
  s.withReader c fun br => { br with parser := parser }

theorem httpParserExecute_some {bytes : List UInt8} {answers : List HeaderAnswer} {n : Nat} {br : BufferedReader P}
    (hbr : s.connections c = some br) (h : httpParserExecute server env c bytes answers s = some (n, t)) :
    n = (server.execute br.parser bytes).nparsed server answers ∧ ∃ s1 parser, t = s1.parsed c parser ∧
      ((server.execute br.parser bytes).requests server answers = 0 → Responds c s s1) ∧
      ((server.execute br.parser bytes).requests server answers = 1 → CreatesOne env c s s1) := by
  obtain ⟨br', s1, h1, h2⟩ := Prog.bind_some h
  obtain ⟨hbr', rfl⟩ := Prog.deref_some h1
  obtain rfl := Option.some.inj (hbr.symm.trans hbr')
  obtain ⟨r, s2, h3, h4⟩ := Prog.bind_some h2
  obtain ⟨_, s3, h5, h6⟩ := Prog.bind_some h4
  obtain rfl := setReader_some h5
  obtain ⟨rfl, rfl⟩ := Prog.pure_some h6
  obtain ⟨h7, h8, h9⟩ := callbacks_some h3
  exact ⟨h7, s2, r.1, rfl, h8, h9⟩

/-! ## lines and new connections -/

theorem readStartLine_some {bytes : List UInt8} {answers : List HeaderAnswer}
    (h : readStartLine server env c bytes answers s = some (u, t)) :
    bytes = [] ∧ t = s.freed c ∨ bytes ≠ [] ∧ ∃ n s1, httpParserExecute server env c bytes answers s = some (n, s1) ∧
      (n ≠ bytes.length ∧ t = (s1.wrote [s1.write c]).freed c ∨ n = bytes.length ∧ t = s1) := by
  unfold readStartLine at h
  by_cases hempty : bytes = []
  · rw [if_pos hempty] at h
    exact Or.inl ⟨hempty, (freeConnection_some h).2⟩
  · rw [if_neg hempty] at h
    obtain ⟨n, s1, h1, h2⟩ := Prog.bind_some h
    refine Or.inr ⟨hempty, n, s1, h1, ?_⟩
    by_cases hne : n ≠ bytes.length
    · rw [if_pos hne] at h2
      obtain ⟨_, s2, h3, h4⟩ := Prog.bind_some h2
      obtain rfl := writev_some h3
      exact Or.inl ⟨hne, (freeConnection_some h4).2⟩
    · rw [if_neg hne] at h2
      obtain ⟨_, rfl⟩ := Prog.pure_some h2
      exact Or.inr ⟨not_not.mp hne, rfl⟩

/-- the upgrade is complete -/
def upgraded (s : Server T P) (p c : Addr) : Server T P :=
  ({ s with links := Function.update s.links p (.websocket c true) } : Server T P).withReader c
    fun br => { br with readCallback := .wsGetHeader p }

/-- the websocket waits for another line -/
def waits (s : Server T P) (p c : Addr) : Server T P :=
  s.withReader c fun br => { br with readCallback := .websocketReadHeaderLine p }

theorem websocketReadHeaderLine_some {bytes : List UInt8} {answers : List HeaderAnswer}
    (hc : (s.links p).connection = c)
    (h : websocketReadHeaderLine server env p bytes answers s = some (u, t)) :
    bytes = [] ∧ handleError env p s = some (u, t) ∨
      bytes ≠ [] ∧ ∃ n s1, httpParserExecute server env c bytes answers s = some (n, s1) ∧
        (n ≠ bytes.length ∧ handleError env p (s1.wrote [s1.write c]) = some (u, t) ∨
          n = bytes.length ∧ ∃ br, s1.connections c = some br ∧ (t = s1.upgraded p c ∨ t = s1.waits p c)) := by
  unfold websocketReadHeaderLine at h
  by_cases hempty : bytes = []
  · rw [if_pos hempty] at h
    exact Or.inl ⟨hempty, h⟩
  · rw [if_neg hempty] at h
    obtain ⟨link, s0, h0, h⟩ := Prog.bind_some h
    obtain ⟨rfl, rfl⟩ := Prog.read_some h0
    rw [hc] at h
    obtain ⟨n, s1, h1, h2⟩ := Prog.bind_some h
    refine Or.inr ⟨hempty, n, s1, h1, ?_⟩
    by_cases hne : n ≠ bytes.length
    · rw [if_pos hne] at h2
      obtain ⟨_, s3, h3, h4⟩ := Prog.bind_some h2
      obtain rfl := writev_some h3
      exact Or.inl ⟨hne, h4⟩
    · rw [if_neg hne] at h2
      obtain ⟨br, s3, h3, h4⟩ := Prog.bind_some h2
      obtain ⟨hbr, rfl⟩ := Prog.deref_some h3
      refine Or.inr ⟨not_not.mp hne, br, hbr, ?_⟩
      by_cases hup : server.upgrade br.parser = true
      · rw [if_pos hup] at h4
        obtain ⟨_, s4, h5, h6⟩ := Prog.bind_some h4
        obtain rfl := Prog.update_some h5
        exact Or.inl (setReader_some h6)
      · rw [if_neg hup] at h4
        exact Or.inr (setReader_some h4)

/-- a line is read by one of the two readers of lines -/
theorem readLine_some {bytes : List UInt8} {answers : List HeaderAnswer} {br : BufferedReader P}
    (hbr : s.connections c = some br) (h : readLine server env c bytes answers s = some (u, t)) :
    br.readCallback = .readStartLine ∧ readStartLine server env c bytes answers s = some (u, t) ∨
      ∃ p, br.readCallback = .websocketReadHeaderLine p ∧
        websocketReadHeaderLine server env p bytes answers s = some (u, t) := by
  obtain ⟨br', s1, h1, h2⟩ := Prog.bind_some h
  obtain ⟨hbr', rfl⟩ := Prog.deref_some h1
  obtain rfl := Option.some.inj (hbr.symm.trans hbr')
  cases hr : br.readCallback with
  | readStartLine =>
    rw [hr] at h2
    exact Or.inl ⟨rfl, h2⟩
  | websocketReadHeaderLine p =>
    rw [hr] at h2
    exact Or.inr ⟨p, rfl, h2⟩
  | readMsg p =>
    rw [hr] at h2
    exact (Prog.undefined_some h2).elim
  | wsGetHeader p =>
    rw [hr] at h2
    exact (Prog.undefined_some h2).elim

/-- a connection has been accepted -/
def opened (s : Server T P) (br : BufferedReader P) : Server T P :=
  { s with
    connections := Function.update s.connections s.freshConnection (some br), freshConnection := s.freshConnection + 1 }

/-- it is that of a jet peer, which the broker `b` has taken in or not -/
def joined (s : Server T P) (br : BufferedReader P) (b : Broker T) : Server T P :=
  { s.opened br with
    broker := b, links := Function.update s.links s.freshPeer (.socket s.freshConnection), freshPeer := s.freshPeer + 1 }

theorem handleNewJetConnection_some {memory : PeerMemory} {isLocal : Bool}
    (h : handleNewJetConnection server env memory isLocal s = some (u, t)) :
    (∃ n, t = { s with broker := { s.broker with calls := n } }) ∨ ∃ b, Initialized env s.freshPeer s.broker b ∧
      t = s.joined ⟨.readMsg s.freshPeer, .freePeerOnError s.freshPeer, server.init, isLocal⟩ b := by
  obtain ⟨ok, s1, h1, h2⟩ := Prog.bind_some h
  obtain rfl := atBroker_call h1
  cases ok with
  | false =>
    obtain ⟨_, rfl⟩ := Prog.pure_some h2
    exact Or.inl ⟨_, rfl⟩
  | true =>
    obtain ⟨p, s2, h3, h4⟩ := Prog.bind_some h2
    cases h3
    obtain ⟨c, s3, h5, h6⟩ := Prog.bind_some h4
    cases h5
    obtain ⟨_, s4, h7, h8⟩ := Prog.bind_some h6
    obtain ⟨b, hb, rfl⟩ := atBroker_initPeer h7
    obtain rfl := Prog.update_some h8
    exact Or.inr ⟨b, initialized_call hb, rfl⟩

theorem handleHttp_some {isLocal : Bool} (h : handleHttp server env isLocal s = some (u, t)) :
    ∃ n, t = { s with broker := { s.broker with calls := n } } ∨
      t = ({ s with broker := { s.broker with calls := n } } : Server T P).opened
        ⟨.readStartLine, .freeConnection, server.init, isLocal⟩ := by
  obtain ⟨ok, s1, h1, h2⟩ := Prog.bind_some h
  obtain rfl := atBroker_call h1
  refine ⟨s.broker.calls + 1, ?_⟩
  cases ok with
  | false =>
    obtain ⟨_, rfl⟩ := Prog.pure_some h2
    exact Or.inl rfl
  | true =>
    obtain ⟨c, s2, h3, h4⟩ := Prog.bind_some h2
    cases h3
    obtain ⟨_, rfl⟩ := Prog.pure_some h4
    exact Or.inr rfl

/-! ## events -/

theorem receiver_some {r : Addr × Bool} (h : receiver c s = some (r, t)) :
    t = s ∧ ∃ br, s.connections c = some br ∧
      br.readCallback = if r.2 then .wsGetHeader r.1 else .readMsg r.1 := by
  obtain ⟨br, s1, h1, h2⟩ := Prog.bind_some h
  obtain ⟨hbr, rfl⟩ := Prog.deref_some h1
  cases hr : br.readCallback with
  | readMsg p =>
    rw [hr] at h2
    obtain ⟨rfl, rfl⟩ := Prog.pure_some h2
    exact ⟨rfl, br, hbr, hr⟩
  | wsGetHeader p =>
    rw [hr] at h2
    obtain ⟨rfl, rfl⟩ := Prog.pure_some h2
    exact ⟨rfl, br, hbr, hr⟩
  | readStartLine =>
    rw [hr] at h2
    exact (Prog.undefined_some h2).elim
  | websocketReadHeaderLine p =>
    rw [hr] at h2
    exact (Prog.undefined_some h2).elim

/-- what is done at an event -/
inductive Processed (server : HttpServer P) (env : Env) (s t : Server T P) : ServerEvent → Prop where
  | acceptJet (memory : PeerMemory) (isLocal : Bool)
      (h : handleNewJetConnection server env memory isLocal s = some ((), t)) :
    Processed server env s t (.acceptJet memory isLocal)
  | acceptHttp (isLocal : Bool) (h : handleHttp server env isLocal s = some ((), t)) :
    Processed server env s t (.acceptHttp isLocal)
  | line (c : Addr) (bytes : List UInt8) (answers : List HeaderAnswer) (br : BufferedReader P)
      (hbr : s.connections c = some br) (h : readLine server env c bytes answers s = some ((), t)) :
    Processed server env s t (.line c bytes answers)
  | message (c p : Addr) (request : Json) (h : atBroker (handleEvent env (.rpc p request)) s = some ((), t)) :
    Processed server env s t (.message c request)
  | ping (c p : Addr) (br : BufferedReader P) (hbr : s.connections c = some br) (hr : br.readCallback = .wsGetHeader p)
      (h : t = s.wrote [s.write (s.links p).connection]) : Processed server env s t (.ping c)
  | websocketError (e : ServerEvent) (c p : Addr) (he : e = .malformed c ∨ e = .closeFrame c ∨ e = .hangUp c)
      (br : BufferedReader P) (hbr : s.connections c = some br) (hr : br.readCallback = .wsGetHeader p)
      (h : handleError env p s = some ((), t)) : Processed server env s t e
  | jetError (e : ServerEvent) (c p : Addr) (he : e = .malformed c ∨ e = .hangUp c ∨ e = .ioError c)
      (h : freeJetPeer env p s = some ((), t)) : Processed server env s t e
  | noLine (c : Addr) (br : BufferedReader P) (hbr : s.connections c = some br)
      (h : readLine server env c [] [] s = some ((), t)) : Processed server env s t (.hangUp c)
  | websocketIoError (c p : Addr) (br : BufferedReader P) (hbr : s.connections c = some br)
      (he : br.error = .freeWebsocketPeerOnError p) (h : handleError env p s = some ((), t)) :
    Processed server env s t (.ioError c)
  | connectionError (c : Addr) (br : BufferedReader P) (hbr : s.connections c = some br)
      (he : br.error = .freeConnection) (h : t = s.freed c) : Processed server env s t (.ioError c)
  | timeout (r : Addr) (h : atBroker (requestTimeout env r) s = some ((), t)) : Processed server env s t (.timeout r)
  | shutdown (h : Prog.each (closePeer env) s.broker.peerList s = some ((), t)) : Processed server env s t .shutdown

theorem processed_handle {e : ServerEvent} (h : handle server env e s = some ((), t)) : Processed server env s t e := by
  cases e with
  | acceptJet memory isLocal => exact .acceptJet memory isLocal h
  | acceptHttp isLocal => exact .acceptHttp isLocal h
  | line c bytes answers =>
    obtain ⟨_, s1, h1, h2⟩ := Prog.bind_some h
    obtain ⟨_, rfl⟩ := Prog.require_some h1
    obtain ⟨br, s2, h3, _⟩ := Prog.bind_some h2
    exact .line c bytes answers br (Prog.deref_some h3).1 h2
  | message c request =>
    obtain ⟨r, s1, h1, h2⟩ := Prog.bind_some h
    obtain ⟨rfl, _⟩ := receiver_some h1
    exact .message c r.1 request h2
  | ping c =>
    obtain ⟨⟨p, isWebsocket⟩, s1, h1, h2⟩ := Prog.bind_some h
    obtain ⟨rfl, br, hbr, hr⟩ := receiver_some h1
    cases isWebsocket with
    | true =>
      obtain ⟨link, s2, h3, h4⟩ := Prog.bind_some h2
      obtain ⟨rfl, rfl⟩ := Prog.read_some h3
      exact .ping c p br hbr hr (writev_some h4)
    | false =>
      rw [if_neg Bool.false_ne_true] at h2
      exact (Prog.undefined_some h2).elim
  | malformed c =>
    obtain ⟨⟨p, isWebsocket⟩, s1, h1, h2⟩ := Prog.bind_some h
    obtain ⟨rfl, br, hbr, hr⟩ := receiver_some h1
    cases isWebsocket with
    | true => exact .websocketError _ c p (Or.inl rfl) br hbr hr h2
    | false => exact .jetError _ c p (Or.inl rfl) h2
  | closeFrame c =>
    obtain ⟨⟨p, isWebsocket⟩, s1, h1, h2⟩ := Prog.bind_some h
    obtain ⟨rfl, br, hbr, hr⟩ := receiver_some h1
    cases isWebsocket with
    | true => exact .websocketError _ c p (Or.inr (Or.inl rfl)) br hbr hr h2
    | false =>
      rw [if_neg Bool.false_ne_true] at h2
      exact (Prog.undefined_some h2).elim
  | hangUp c =>
    obtain ⟨br, s1, h1, h2⟩ := Prog.bind_some h
    obtain ⟨hbr, rfl⟩ := Prog.deref_some h1
    cases hr : br.readCallback with
    | readMsg p =>
      rw [hr] at h2
      exact .jetError _ c p (Or.inr (Or.inl rfl)) h2
    | wsGetHeader p =>
      rw [hr] at h2
      exact .websocketError _ c p (Or.inr (Or.inr rfl)) br hbr hr h2
    | readStartLine =>
      rw [hr] at h2
      exact .noLine c br hbr h2
    | websocketReadHeaderLine p =>
      rw [hr] at h2
      exact .noLine c br hbr h2
  | ioError c =>
    obtain ⟨br, s1, h1, h2⟩ := Prog.bind_some h
    obtain ⟨hbr, rfl⟩ := Prog.deref_some h1
    cases he : br.error with
    | freePeerOnError p =>
      rw [he] at h2
      exact .jetError _ c p (Or.inr (Or.inr rfl)) h2
    | freeWebsocketPeerOnError p =>
      rw [he] at h2
      exact .websocketIoError c p br hbr he h2
    | freeConnection =>
      rw [he] at h2
      exact .connectionError c br hbr he (freeConnection_some h2).2
  | timeout r => exact .timeout r h
  | shutdown =>
    obtain ⟨peers, s1, h1, h2⟩ := Prog.bind_some h
    obtain ⟨rfl, rfl⟩ := Prog.read_some h1
    exact .shutdown h2

theorem serverStep_some {platform : Platform} {i : ServerInput} (h : serverStep server platform s i = some t) :
    Processed server ⟨platform, i.outcomes⟩ s.begin t i.event := by
  obtain ⟨⟨v, t'⟩, h1, h2⟩ := Option.map_eq_some_iff.mp h
  cases v
  cases h2
  exact processed_handle h1

end Server

end Cjet
