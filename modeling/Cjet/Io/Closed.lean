import Cjet.Io.Lifecycle

/-!
# Nothing is sent on a closed connection

The teardown of a peer sends messages: the requesters of what it has not answered are told so, and the subscribers
of its elements.  The connection of a websocket peer is closed by then.

* `OnlyOpen`        no connection that had been closed was written to;
* `NobodyWaits`     the websocket peer that goes away has no request of its own under way, and the requester of a
  request that times out is still there;
* `onlyOpen_run`    runs of such steps write to open connections only.
-/

set_option linter.unusedVariables false
set_option linter.unusedSectionVars false

namespace Cjet
open Stateful

namespace Server
variable {T P : Type} [HashTable T] {server : HttpServer P} {env : Env} {s t : Server T P} {c p : Addr} {u : Unit}

/-! ## what is written -/

def OnlyOpen (s : Server T P) : Prop := ∀ w ∈ s.written, w.isOpen = true

theorem onlyOpen_wrote {w : List Write} (h : OnlyOpen s) (hw : ∀ x ∈ w, x.isOpen = true) : OnlyOpen (s.wrote w) := by
  intro x hx
  rcases List.mem_append.mp hx with hx | hx
  · exact h x hx
  · exact hw x hx

theorem onlyOpen_write (h : OnlyOpen s) (hc : s.isOpen c = true) : OnlyOpen (s.wrote [s.write c]) := by
  refine onlyOpen_wrote h fun x hx => ?_
  rw [List.mem_singleton.mp hx]
  exact hc

theorem onlyOpen_responds (h : OnlyOpen s) (hc : s.isOpen c = true) (hst : Responds c s t) :
    OnlyOpen t ∧ t.isOpen c = true := by
  obtain ⟨n, rfl⟩ := hst
  refine ⟨onlyOpen_wrote h fun x hx => ?_, hc⟩
  rw [List.eq_of_mem_replicate hx]
  exact hc

/-- the messages that are new in `b` go to open connections -/
theorem onlyOpen_proceed {b : Broker T} {l : List Sent} (h : OnlyOpen s) (hl : b.sent = s.broker.sent ++ l)
    (ho : ∀ m ∈ l, s.isOpen (s.links m.peer).connection = true) : OnlyOpen (s.proceed b) := by
  intro x hx
  have hx' : x ∈ s.written ++ (b.sent.drop s.broker.sent.length).map fun m => s.write (s.links m.peer).connection := hx
  rw [hl, List.drop_left] at hx'
  rcases List.mem_append.mp hx' with hx' | hx'
  · exact h x hx'
  · obtain ⟨m, hm, rfl⟩ := List.mem_map.mp hx'
    exact ho m hm

/-- the invariant of runs in which nothing goes wrong -/
structure Undisturbed (s : Server T P) : Prop extends Attached s where
  written : OnlyOpen s
  requesters : RequestersConnected s.broker

/-! ## teardown -/

theorem undisturbed_handleError (hI : Undisturbed s) (hn : NoneAwaited s.broker p)
    (h : handleError env p s = some (u, t)) : Undisturbed t ∧ Stepped env s.broker (.disconnect p) t.broker := by
  obtain ⟨ho, b, hb, ht⟩ := handleError_some h
  obtain ⟨hm, _, l, hl, hpeers⟩ := sends_disconnect hb
  have hspared : ∀ m ∈ l, m.peer ≠ p := by
    obtain ⟨l', hl', hne⟩ := spares_disconnect hI.sound hn hb
    rwa [List.append_cancel_left (hl.symm.trans hl')]
  have hframe : OnlyOpen ((s.wrote (s.closeFrame p)).freed (s.links p).connection) := by
    refine onlyOpen_wrote hI.written fun x hx => ?_
    unfold closeFrame at hx
    split at hx
    · rw [List.mem_singleton.mp hx]
      exact ho
    · cases hx
  refine ⟨⟨attached_handleError _ _ _ h hI.toAttached, ?_, ?_⟩, by rw [ht]; exact hb⟩
  · rw [ht]
    refine onlyOpen_proceed hframe hl fun m hml => ?_
    show (Function.update s.connections (s.links p).connection none (s.links m.peer).connection).isSome = true
    rw [Function.update_of_ne fun e => hspared m hml (hI.apart m.peer (hpeers m hml) p hm e)]
    exact hI.isOpen m.peer (hpeers m hml)
  · rw [ht]
    exact requestersConnected_stepped hI.requesters hb

/-- While the resources of a jet peer are released its connection is open. -/
theorem undisturbed_freeJetPeer (hI : Undisturbed s) (h : freeJetPeer env p s = some (u, t)) :
    Undisturbed t ∧ Stepped env s.broker (.disconnect p) t.broker := by
  obtain ⟨b, hb, ht⟩ := freeJetPeer_some h
  obtain ⟨_, _, l, hl, hpeers⟩ := sends_disconnect hb
  refine ⟨⟨attached_freeJetPeer _ _ _ h hI.toAttached, ?_, ?_⟩, by rw [ht]; exact hb⟩
  · rw [ht]
    exact onlyOpen_proceed hI.written hl fun m hm => hI.isOpen m.peer (hpeers m hm)
  · rw [ht]
    exact requestersConnected_stepped hI.requesters hb

theorem undisturbed_closePeer (hI : Undisturbed s)
    (hn : (s.links p).isWebsocket = true → NoneAwaited s.broker p) (h : closePeer env p s = some (u, t)) :
    Undisturbed t ∧ Stepped env s.broker (.disconnect p) t.broker := by
  obtain ⟨link, s1, h1, h2⟩ := Prog.bind_some h
  obtain ⟨rfl, rfl⟩ := Prog.read_some h1
  by_cases hw : (s1.links p).isWebsocket = true
  · rw [if_pos hw] at h2
    exact undisturbed_handleError hI (hn hw) h2
  · rw [if_neg hw] at h2
    exact undisturbed_freeJetPeer hI h2

/-- Once the first peer has gone nobody waits any more. -/
theorem undisturbed_closePeers {peers : List Addr} (hI : Undisturbed s)
    (hn : ∀ p, peers.head? = some p → (s.links p).isWebsocket = true → NoneAwaited s.broker p)
    (h : Prog.each (closePeer env) peers s = some (u, t)) : Undisturbed t := by
  induction peers generalizing s with
  | nil =>
    obtain ⟨_, rfl⟩ := Prog.pure_some h
    exact hI
  | cons p peers ih =>
    obtain ⟨_, s1, h1, h2⟩ := Prog.bind_some h
    obtain ⟨hI1, hb⟩ := undisturbed_closePeer hI (hn p rfl) h1
    exact ih hI1 (fun q _ _ => noneAwaited_disconnect hb q) h2

/-! ## lines -/

theorem requesters_initialized (hI : Undisturbed s) {b : Broker T}
    (hb : Initialized env s.freshPeer s.broker b) : RequestersConnected b := by
  have hnew : s.freshPeer ∉ s.broker.peerList := fun hm => Nat.lt_irrefl _ (hI.peers _ hm)
  rcases hb with ⟨n, rfl⟩ | ⟨memory, isLocal, n, rfl⟩
  · exact hI.requesters.congr rfl rfl
  · exact requestersConnected_stepped hI.requesters (.connected _ (.socket memory) isLocal n hnew)

theorem Undisturbed.responds (hI : Undisturbed s) (hc : s.isOpen c = true) (hst : Responds c s t) : Undisturbed t := by
  refine ⟨hI.toAttached.responds hst, (onlyOpen_responds hI.written hc hst).1, ?_⟩
  obtain ⟨n, rfl⟩ := hst
  exact hI.requesters

theorem Undisturbed.parsed (hI : Undisturbed s) (c : Addr) (parser : P) : Undisturbed (s.parsed c parser) :=
  ⟨hI.toAttached.parsed c parser, hI.written, hI.requesters⟩

theorem Undisturbed.alloc (hI : Undisturbed s) {br : BufferedReader P} (hbr : s.connections c = some br)
    (hr : br.readCallback = .readStartLine) (ht : allocWebsocketPeer env c s = some (u, t)) :
    Undisturbed t ∧ t.isOpen c = true := by
  have hA := hI.toAttached.alloc hbr hr ht
  rcases allocWebsocketPeer_some ht with ⟨n, rfl⟩ | ⟨b, hb, rfl⟩
  · refine ⟨⟨hA, hI.written, hI.requesters.congr rfl rfl⟩, ?_⟩
    show (s.connections c).isSome = true
    rw [hbr]
    rfl
  · refine ⟨⟨hA, hI.written, requesters_initialized hI hb⟩, ?_⟩
    show (Function.update s.connections c ((s.connections c).map _) c).isSome = true
    rw [Function.update_self, hbr]
    rfl

/-- the parser has run over a line that is kept -/
theorem undisturbed_execute (hI : Undisturbed s) {br : BufferedReader P} {bytes : List UInt8}
    {answers : List HeaderAnswer} {n : Nat} (hbr : s.connections c = some br) (hk : LineKept server br bytes answers)
    (h : httpParserExecute server env c bytes answers s = some (n, t)) : Undisturbed t ∧ t.isOpen c = true := by
  have hc : s.isOpen c = true := by
    unfold Server.isOpen
    rw [hbr]
    rfl
  have hopen : ∀ (s1 : Server T P) parser, s1.isOpen c = true → (s1.parsed c parser).isOpen c = true := by
    intro s1 parser h1
    show (Function.update s1.connections c ((s1.connections c).map _) c).isSome = true
    rw [Function.update_self, Option.isSome_map]
    exact h1
  obtain ⟨_, s1, parser, rfl, hnone, hone⟩ := httpParserExecute_some hbr h
  rcases hk with hk | ⟨hr, hk, _⟩
  · have hst := hnone hk
    exact ⟨(hI.responds hc hst).parsed c parser, hopen s1 parser (onlyOpen_responds hI.written hc hst).2⟩
  · obtain ⟨s2, s3, h2, h3, h4⟩ := hone hk
    have hbr2 : s2.connections c = some br := by
      rw [responds_connections h2]
      exact hbr
    obtain ⟨hI3, hc3⟩ := (hI.responds hc h2).alloc hbr2 hr h3
    exact ⟨(hI3.responds hc3 h4).parsed c parser, hopen s1 parser (onlyOpen_responds hI3.written hc3 h4).2⟩

theorem undisturbed_readStartLine (hI : Undisturbed s) {br : BufferedReader P} {bytes : List UInt8}
    {answers : List HeaderAnswer} (hbr : s.connections c = some br) (hr : br.readCallback = .readStartLine)
    (hk : bytes ≠ [] → LineKept server br bytes answers)
    (h : readStartLine server env c bytes answers s = some (u, t)) : Undisturbed t := by
  have hA := attached_readStartLine hI.toAttached hbr hr hk h
  rcases readStartLine_some h with ⟨_, rfl⟩ | ⟨hne, n, s1, h1, h2⟩
  · exact ⟨hA, hI.written, hI.requesters⟩
  obtain ⟨hI1, hc1⟩ := undisturbed_execute hI hbr (hk hne) h1
  rcases h2 with ⟨_, rfl⟩ | ⟨_, rfl⟩
  · exact ⟨hA, onlyOpen_write hI1.written hc1, hI1.requesters⟩
  · exact hI1

/-- a websocket whose request is malformed goes away -/
theorem undisturbed_websocketReadHeaderLine (hI : Undisturbed s) {br : BufferedReader P} {bytes : List UInt8}
    {answers : List HeaderAnswer} (hbr : s.connections c = some br)
    (hr : br.readCallback = .websocketReadHeaderLine p) (hn : NoneAwaited s.broker p)
    (hk : bytes ≠ [] → LineKept server br bytes answers)
    (h : websocketReadHeaderLine server env p bytes answers s = some (u, t)) : Undisturbed t := by
  have hA := attached_websocketReadHeaderLine hI.toAttached hbr hr hk h
  have hlink : (s.links p).connection = c := by rw [(hI.link hbr hr).2.1]; rfl
  rcases websocketReadHeaderLine_some hlink h with ⟨_, h⟩ | ⟨hne, n, s1, h1, h2⟩
  · exact (undisturbed_handleError hI hn h).1
  obtain ⟨hI1, hc1⟩ := undisturbed_execute hI hbr (hk hne) h1
  have hbroker : s1.broker = s.broker := by
    obtain ⟨s2, parser, ⟨k, rfl⟩, rfl⟩ := (hk hne).execute hbr hr h1
    rfl
  rcases h2 with ⟨_, h3⟩ | ⟨_, br1, _, rfl | rfl⟩
  · have hI2 : Undisturbed (s1.wrote [s1.write c]) :=
      ⟨attached_writev _ _ _ rfl hI1.toAttached, onlyOpen_write hI1.written hc1, hI1.requesters⟩
    have hn2 : NoneAwaited (s1.wrote [s1.write c]).broker p := by
      show NoneAwaited s1.broker p
      rw [hbroker]
      exact hn
    exact (undisturbed_handleError hI2 hn2 h3).1
  · exact ⟨hA, hI1.written, hI1.requesters⟩
  · exact ⟨hA, hI1.written, hI1.requesters⟩

/-! ## steps and runs -/

/-- the peer of the websocket that reads from the connection at `c` -/
def websocketAt (s : Server T P) (c : Addr) : Option Addr :=
  (s.connections c).bind fun br =>
    match br.readCallback with
    | .websocketReadHeaderLine p => some p
    | .wsGetHeader p => some p
    | _ => none

/-- A websocket peer that may go away has no request with an id under way; at the end of the broker this is the
first peer in the list.  The requester of a request that times out is still there, or is not answered. -/
def NobodyWaits (s : Server T P) (i : ServerInput) : Prop :=
  match i.event with
  | .line c _ _ | .malformed c | .closeFrame c | .hangUp c | .ioError c =>
    ∀ p, s.websocketAt c = some p → NoneAwaited s.broker p
  | .shutdown => ∀ p, s.broker.peerList.head? = some p → (s.links p).isWebsocket = true → NoneAwaited s.broker p
  | .timeout r => ∀ q, s.broker.requests r = some q → q.originRequestId ≠ none →
    q.requestingPeer ∈ s.broker.peerList
  | _ => True

def Orderly (server : HttpServer P) (s : Server T P) (i : ServerInput) : Prop := PeerKept server s i ∧ NobodyWaits s i

theorem undisturbed_begin (hI : Undisturbed s) : Undisturbed s.begin :=
  ⟨attached_begin hI.toAttached, hI.written, hI.requesters.congr rfl rfl⟩

theorem websocketAt_of_reader {br : BufferedReader P} (hbr : s.connections c = some br)
    (hr : br.readCallback = .websocketReadHeaderLine p ∨ br.readCallback = .wsGetHeader p) :
    s.websocketAt c = some p := by
  unfold websocketAt
  rw [hbr]
  rcases hr with hr | hr
  · show (match br.readCallback with
      | .websocketReadHeaderLine p => some p | .wsGetHeader p => some p | _ => none) = some p
    rw [hr]
  · show (match br.readCallback with
      | .websocketReadHeaderLine p => some p | .wsGetHeader p => some p | _ => none) = some p
    rw [hr]

theorem undisturbed_readLine (hI : Undisturbed s) {br : BufferedReader P} {bytes : List UInt8}
    {answers : List HeaderAnswer} (hbr : s.connections c = some br)
    (hn : ∀ p, s.websocketAt c = some p → NoneAwaited s.broker p)
    (hk : bytes ≠ [] → LineKept server br bytes answers)
    (h : readLine server env c bytes answers s = some (u, t)) : Undisturbed t := by
  rcases readLine_some hbr h with ⟨hr, h⟩ | ⟨p, hr, h⟩
  · exact undisturbed_readStartLine hI hbr hr hk h
  · exact undisturbed_websocketReadHeaderLine hI hbr hr (hn p (websocketAt_of_reader hbr (Or.inl hr))) hk h

theorem undisturbed_handleNewJetConnection {memory : PeerMemory} {isLocal : Bool} (hI : Undisturbed s)
    (h : handleNewJetConnection server env memory isLocal s = some (u, t)) : Undisturbed t := by
  have hA := attached_handleNewJetConnection _ _ _ h hI.toAttached
  rcases handleNewJetConnection_some h with ⟨n, rfl⟩ | ⟨b, hb, rfl⟩
  · exact ⟨hA, hI.written, hI.requesters.congr rfl rfl⟩
  · exact ⟨hA, hI.written, requesters_initialized hI hb⟩

theorem undisturbed_handleHttp {isLocal : Bool} (hI : Undisturbed s)
    (h : handleHttp server env isLocal s = some (u, t)) : Undisturbed t := by
  have hA := attached_handleHttp _ _ _ h hI.toAttached
  obtain ⟨n, rfl | rfl⟩ := handleHttp_some h
  · exact ⟨hA, hI.written, hI.requesters.congr rfl rfl⟩
  · exact ⟨hA, hI.written, hI.requesters.congr rfl rfl⟩

theorem undisturbed_rpc {request : Json} (hI : Undisturbed s)
    (h : atBroker (handleEvent env (.rpc p request)) s = some (u, t)) : Undisturbed t := by
  have hA := attached_rpc _ _ _ h hI.toAttached
  obtain ⟨b, hb, rfl⟩ := atBroker_event h
  obtain ⟨l, hl, hm⟩ := (sends_rpc hb).sent
  exact ⟨hA, onlyOpen_proceed hI.written hl fun m hml => hI.isOpen m.peer (hm m hml),
    requestersConnected_stepped hI.requesters hb⟩

theorem undisturbed_timeout {r : Addr} (hI : Undisturbed s)
    (hn : ∀ q, s.broker.requests r = some q → q.originRequestId ≠ none → q.requestingPeer ∈ s.broker.peerList)
    (h : atBroker (requestTimeout env r) s = some (u, t)) : Undisturbed t := by
  have hA := attached_timeout _ _ _ h hI.toAttached
  obtain ⟨b, hb, rfl⟩ := atBroker_some h
  obtain ⟨q, n, l, hq, hsilent, hpeer, rfl⟩ := requestTimeout_some hb
  refine ⟨hA, onlyOpen_proceed hI.written rfl fun m hm => ?_, hI.requesters.complete rfl rfl rfl rfl⟩
  rw [hpeer m hm]
  refine hI.isOpen _ (hn q hq fun e => ?_)
  rw [hsilent e] at hm
  cases hm

theorem undisturbed_ping (hI : Undisturbed s) {br : BufferedReader P} (hbr : s.connections c = some br)
    (hr : br.readCallback = .wsGetHeader p) : Undisturbed (s.wrote [s.write (s.links p).connection]) := by
  have hreads := hI.reads c br hbr
  unfold Reads at hreads
  rw [hr] at hreads
  have hopen : s.isOpen (s.links p).connection = true := by
    rw [hreads.2.1]
    show (s.connections c).isSome = true
    rw [hbr]
    rfl
  exact ⟨attached_writev _ _ _ rfl hI.toAttached, onlyOpen_write hI.written hopen, hI.requesters⟩

/-- The error handler of a websocket is that of the peer that reads. -/
theorem websocketAt_of_error (hI : Undisturbed s) {br : BufferedReader P} (hbr : s.connections c = some br)
    (he : br.error = .freeWebsocketPeerOnError p) : s.websocketAt c = some p := by
  have hreads := hI.reads c br hbr
  unfold Reads at hreads
  cases hr : br.readCallback with
  | websocketReadHeaderLine q =>
    rw [hr, he] at hreads
    cases hreads.1
    exact websocketAt_of_reader hbr (Or.inl hr)
  | wsGetHeader q =>
    rw [hr, he] at hreads
    cases hreads.1
    exact websocketAt_of_reader hbr (Or.inr hr)
  | _ =>
    rw [hr, he] at hreads
    cases hreads.1

variable {platform : Platform}

theorem undisturbed_step {i : ServerInput} (hI : Undisturbed s) (hc : Orderly server s i)
    (h : serverStep server platform s i = some t) : Undisturbed t := by
  have hI0 := undisturbed_begin hI
  have hA := attached_step hI.toAttached hc.1 h
  obtain ⟨hkept, hwaits⟩ := hc
  replace h := serverStep_some h
  obtain ⟨outcomes, e⟩ := i
  cases h with
  | acceptJet memory isLocal h => exact undisturbed_handleNewJetConnection hI0 h
  | acceptHttp isLocal h => exact undisturbed_handleHttp hI0 h
  | line c bytes answers br hbr h => exact undisturbed_readLine hI0 hbr hwaits (fun _ => hkept br hbr) h
  | message c p request h => exact undisturbed_rpc hI0 h
  | ping c p br hbr hr h =>
    rw [h]
    exact undisturbed_ping hI0 hbr hr
  | websocketError e c p he br hbr hr h =>
    have hn : NoneAwaited s.begin.broker p := by
      rcases he with rfl | rfl | rfl
      all_goals exact hwaits p (websocketAt_of_reader hbr (Or.inr hr))
    exact (undisturbed_handleError hI0 hn h).1
  | jetError e c p he h => exact (undisturbed_freeJetPeer hI0 h).1
  | noLine c br hbr h => exact undisturbed_readLine hI0 hbr hwaits (fun hne => (hne rfl).elim) h
  | websocketIoError c p br hbr he h =>
    exact (undisturbed_handleError hI0 (hwaits p (websocketAt_of_error hI hbr he)) h).1
  | connectionError c br hbr he h =>
    rw [h] at hA ⊢
    exact ⟨hA, hI0.written, hI0.requesters⟩
  | timeout r h => exact undisturbed_timeout hI0 hwaits h
  | shutdown h => exact undisturbed_closePeers hI0 hwaits h

/-- Nothing is written to a connection that has been closed.  No message is left out: the broker sends to the
requesters of what is in the routing tables, and to the peers of the fetches. -/
theorem onlyOpen_run {l : List ServerInput} (h0 : s.IsStart platform)
    (hc : Along (serverStep server platform) (Orderly server) s l)
    (h : run (serverStep server platform) s l = some t) :
    OnlyOpen t ∧ PeersConnected t ∧ RequestersConnected t.broker := by
  have hstart : Undisturbed s := by
    refine ⟨attached_start h0, ?_, ?_⟩
    · obtain ⟨b, hb, links, rfl⟩ := h0
      exact fun w hw => by cases hw
    · obtain ⟨b, ⟨allGroups, userData, passwordFile, rfl⟩, links, rfl⟩ := h0
      exact fun o k r hst => absurd hst.1 List.not_mem_nil
  have hI : Undisturbed t := run_invariant (fun s i t hI hc hs => undisturbed_step hI hc hs) hstart hc h
  exact ⟨hI.written, peers_connected h0 (hc.mono fun s i h => h.1) h, hI.requesters⟩

end Server

/-! ## two websockets -/

namespace Server
open LineParser

/-- two websockets are opened, the peer of the first one adds a state -/
def ownerAndUser : List ServerInput :=
  [(ServerEvent.acceptHttp true).good, .text 0 "GET /api/jet/ HTTP/1.1\r\n", .text 0 "\r\n",
   (ServerEvent.acceptHttp true).good, .text 1 "GET /api/jet/ HTTP/1.1\r\n", .text 1 "\r\n",
   (ServerEvent.message 0 (.request none "add" [("path", .str "a"), ("value", .bool true)])).good]

/-- the other peer sets it, and goes away before there is an answer -/
def setAndLeave (id : Option Json) : List ServerInput :=
  [(ServerEvent.message 1 (.request id "set" [("path", .str "a"), ("value", .bool false)])).good,
   (ServerEvent.hangUp 1).good]

/-- The peer that goes away is told that it does, on the connection that is closed by then. -/
theorem told_on_closed_connection : ¬ ∀ (s t : Server SlotTable LineParser) l, s.IsStart Platform.small →
    run (serverStep server Platform.small) s l = some t → OnlyOpen t := by
  intro hall
  have hrun : (run (serverStep server Platform.small) (start LineParser)
      (ownerAndUser ++ setAndLeave (some (.str "x")))).any (fun t => t.written.any fun w => !w.isOpen) = true := by
    decide +kernel
  obtain ⟨t, ht, hc⟩ := Option.any_eq_true _ _ |>.mp hrun
  obtain ⟨w, hw, hclosed⟩ := List.any_eq_true.mp hc
  rw [hall _ t _ (start_isStart _) ht w hw] at hclosed
  cases hclosed

/-- is `NoneAwaited` met? -/
def noneAwaited (b : Broker SlotTable) (p : Addr) : Bool :=
  b.peerList.all fun o => (List.range (HashTable.size (b.routingTable o))).all fun i =>
    (HashTable.slot (b.routingTable o) i).all fun k => (HashTable.get (b.routingTable o) k).all fun r =>
      (b.requests r).all fun q => q.requestingPeer != p || q.originRequestId.isNone

theorem noneAwaited_of_check {b : Broker SlotTable} {p : Addr} (h : noneAwaited b p = true) : NoneAwaited b p := by
  intro o k r q hst hq hp
  obtain ⟨i, hi, hslot⟩ := HashTable.get_slot _ _ _ hst.2
  have h1 := List.all_eq_true.mp (List.all_eq_true.mp h o hst.1) i (List.mem_range.mpr hi)
  rw [hslot, Option.all_some, hst.2, Option.all_some, hq, Option.all_some, hp] at h1
  simpa using h1

/-- is `Orderly` met, in a run without timeouts that does not end? -/
def orderly {P : Type} (server : HttpServer P) (s : Server SlotTable P) (i : ServerInput) : Bool :=
  peerKept server s i &&
    match i.event with
    | .line c _ _ | .malformed c | .closeFrame c | .hangUp c | .ioError c =>
      (s.websocketAt c).all fun p => noneAwaited s.broker p
    | .timeout _ | .shutdown => false
    | _ => true

theorem orderly_of_check {P : Type} {server : HttpServer P} {s : Server SlotTable P} {i : ServerInput}
    (h : orderly server s i = true) : Orderly server s i := by
  obtain ⟨hkept, hwaits⟩ := Bool.and_eq_true _ _ |>.mp h
  refine ⟨peerKept_iff hkept, ?_⟩
  have hall : ∀ c, (s.websocketAt c).all (fun p => noneAwaited s.broker p) = true →
      ∀ p, s.websocketAt c = some p → NoneAwaited s.broker p := by
    intro c hc p hp
    rw [hp, Option.all_some] at hc
    exact noneAwaited_of_check hc
  obtain ⟨outcomes, e⟩ := i
  cases e with
  | line c bytes answers => exact hall c hwaits
  | malformed c => exact hall c hwaits
  | closeFrame c => exact hall c hwaits
  | hangUp c => exact hall c hwaits
  | ioError c => exact hall c hwaits
  | timeout r => cases hwaits
  | shutdown => cases hwaits
  | _ => trivial

/-- A request without an id is not answered, and its peer may go away. -/
theorem setAndLeave_onlyOpen : ∃ t, run (serverStep server Platform.small) (start LineParser)
    (ownerAndUser ++ setAndLeave none) = some t ∧ t.written.length = 4 ∧
    OnlyOpen t ∧ PeersConnected t ∧ RequestersConnected t.broker := by
  have hrun : (run (serverStep server Platform.small) (start LineParser) (ownerAndUser ++ setAndLeave none)).any
      (fun t => t.written.length == 4) = true := by decide +kernel
  have horderly : checkAlong (serverStep server Platform.small) (orderly server) (start LineParser)
      (ownerAndUser ++ setAndLeave none) = true := by decide +kernel
  obtain ⟨t, ht, hlen⟩ := Option.any_eq_true _ _ |>.mp hrun
  exact ⟨t, ht, beq_iff_eq.mp hlen,
    onlyOpen_run (start_isStart _) (Along.of_check (fun s i h => orderly_of_check h) horderly) ht⟩

end Server

end Cjet
