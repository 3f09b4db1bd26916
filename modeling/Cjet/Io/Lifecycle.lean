import Cjet.Io.ServerEffect

/-!
# A websocket peer and its connection

A websocket peer is in the list of peers from the end of the URL on, and its connection is still in the hands of the
code that called `http_parser`.

* `Attached`          every peer has a connection of its own, which reads for this peer and has not been freed;
* `PeerKept`          the line does not create a peer that nobody is going to free;
* `peers_connected`   in a run of such lines every peer in the list has its connection.
-/

set_option linter.unusedVariables false
set_option linter.unusedSectionVars false

namespace Cjet
open Stateful

namespace Server
variable {T P : Type} [HashTable T] {server : HttpServer P} {env : Env} {s t : Server T P} {c p : Addr} {u : Unit}

/-! ## the invariant -/

/-- the connection at `c` reads for one peer, and would free this one on an error; no peer is there before a
request line -/
def Reads (s : Server T P) (c : Addr) (br : BufferedReader P) : Prop :=
  match br.readCallback with
  | .readMsg p => br.error = .freePeerOnError p ∧ s.links p = .socket c ∧ p < s.freshPeer
  | .readStartLine => br.error = .freeConnection ∧ ∀ q ∈ s.broker.peerList, (s.links q).connection ≠ c
  | .websocketReadHeaderLine p =>
    br.error = .freeWebsocketPeerOnError p ∧ s.links p = .websocket c false ∧ p < s.freshPeer
  | .wsGetHeader p => br.error = .freeWebsocketPeerOnError p ∧ s.links p = .websocket c true ∧ p < s.freshPeer

/-- every peer in the list has a connection of its own, which has not been freed -/
structure Attached (s : Server T P) : Prop where
  sound : s.broker.toStore.Sound
  isOpen : ∀ p ∈ s.broker.peerList, s.isOpen (s.links p).connection = true
  apart : ∀ p ∈ s.broker.peerList, ∀ q ∈ s.broker.peerList,
    (s.links p).connection = (s.links q).connection → p = q
  reads : ∀ c br, s.connections c = some br → s.Reads c br
  peers : ∀ p ∈ s.broker.peerList, p < s.freshPeer
  connections : ∀ c, s.freshConnection ≤ c → s.connections c = none

theorem Reads.congr {br br' : BufferedReader P} (h : s.Reads c br) (hr : br'.readCallback = br.readCallback)
    (he : br'.error = br.error) (hp : ∀ q ∈ t.broker.peerList, q ∈ s.broker.peerList) (hl : t.links = s.links)
    (hf : t.freshPeer = s.freshPeer) : t.Reads c br' := by
  unfold Reads at h ⊢
  rw [hr, he, hl, hf]
  cases hc : br.readCallback with
  | readStartLine =>
    rw [hc] at h
    exact ⟨h.1, fun q hq => h.2 q (hp q hq)⟩
  | _ =>
    rw [hc] at h
    exact h

namespace Attached

/-- the peers and the connections are the same -/
theorem stay (h : Attached s) (hS : t.broker.toStore.Sound) (hp : t.broker.peerList = s.broker.peerList)
    (hl : t.links = s.links) (hc : t.connections = s.connections) (hf : t.freshPeer = s.freshPeer)
    (hf' : t.freshConnection = s.freshConnection) : Attached t := by
  refine ⟨hS, ?_, ?_, fun c br hbr => ?_, ?_, ?_⟩
  · unfold Server.isOpen
    rw [hp, hl, hc]
    exact h.isOpen
  · rw [hp, hl]
    exact h.apart
  · rw [hc] at hbr
    exact (h.reads c br hbr).congr rfl rfl (fun q hq => by rwa [hp] at hq) hl hf
  · rw [hp, hf]
    exact h.peers
  · rw [hc, hf']
    exact h.connections

/-- a connection is freed, and the peer that had it, if there was one, has left -/
theorem close (h : Attached s) (hS : t.broker.toStore.Sound)
    (hp : ∀ q ∈ t.broker.peerList, q ∈ s.broker.peerList ∧ (s.links q).connection ≠ c) (hl : t.links = s.links)
    (hc : t.connections = Function.update s.connections c none) (hf : t.freshPeer = s.freshPeer)
    (hf' : t.freshConnection = s.freshConnection) : Attached t := by
  refine ⟨hS, fun p hm => ?_, fun p hm q hm' => ?_, fun c' br hbr => ?_, fun p hm => ?_, fun c' hle => ?_⟩
  · show (t.connections (t.links p).connection).isSome = true
    rw [hl, hc, Function.update_of_ne (hp p hm).2]
    exact h.isOpen p (hp p hm).1
  · rw [hl]
    exact h.apart p (hp p hm).1 q (hp q hm').1
  · rw [hc] at hbr
    by_cases e : c' = c
    · rw [e, Function.update_self] at hbr
      cases hbr
    · rw [Function.update_of_ne e] at hbr
      exact (h.reads c' br hbr).congr rfl rfl (fun q hq => (hp q hq).1) hl hf
  · rw [hf]
    exact h.peers p (hp p hm).1
  · rw [hc]
    rw [hf'] at hle
    by_cases e : c' = c
    · rw [e, Function.update_self]
    · rw [Function.update_of_ne e]
      exact h.connections c' hle

/-- a peer leaves together with its connection -/
theorem leave (h : Attached s) (hm : p ∈ s.broker.peerList) (hS : t.broker.toStore.Sound)
    (hp : t.broker.peerList = s.broker.peerList.erase p) (hl : t.links = s.links)
    (hc : t.connections = Function.update s.connections (s.links p).connection none)
    (hf : t.freshPeer = s.freshPeer) (hf' : t.freshConnection = s.freshConnection) : Attached t := by
  refine h.close hS (fun q hq => ?_) hl hc hf hf'
  rw [hp, h.sound.peers.mem_erase_iff] at hq
  exact ⟨hq.2, fun e => hq.1 (h.apart q hq.2 p hm e)⟩

/-- the reader of a connection goes on, with links that suit it -/
theorem reader (h : Attached s) {f : BufferedReader P → BufferedReader P} {br : BufferedReader P}
    (hbr : s.connections c = some br) (hb : t.broker = s.broker) (hf : t.freshPeer = s.freshPeer)
    (hf' : t.freshConnection = s.freshConnection)
    (hc : t.connections = Function.update s.connections c ((s.connections c).map f))
    (hl : ∀ q, (t.links q).connection = (s.links q).connection)
    (hother : ∀ q, (s.links q).connection ≠ c → t.links q = s.links q) (hreads : t.Reads c (f br)) : Attached t := by
  have hopen : ∀ c', (t.connections c').isSome = (s.connections c').isSome := fun c' => by
    rw [hc]
    by_cases e : c' = c
    · rw [e, Function.update_self, Option.isSome_map]
    · rw [Function.update_of_ne e]
  refine ⟨by rw [hb]; exact h.sound, fun p hm => ?_, fun p hm q hm' e => ?_, fun c' br' hbr' => ?_, ?_,
    fun c' hle => ?_⟩
  · show (t.connections (t.links p).connection).isSome = true
    rw [hopen, hl]
    rw [hb] at hm
    exact h.isOpen p hm
  · rw [hb] at hm hm'
    rw [hl, hl] at e
    exact h.apart p hm q hm' e
  · rw [hc] at hbr'
    by_cases e : c' = c
    · rw [e, Function.update_self, hbr] at hbr'
      rw [← Option.some.inj hbr', e]
      exact hreads
    · rw [Function.update_of_ne e] at hbr'
      have hr := h.reads c' br' hbr'
      unfold Reads at hr ⊢
      rw [hb, hf]
      cases hrc : br'.readCallback with
      | readStartLine =>
        rw [hrc] at hr
        exact ⟨hr.1, fun q hq => by rw [hl]; exact hr.2 q hq⟩
      | _ =>
        rw [hrc] at hr
        refine ⟨hr.1, ?_, hr.2.2⟩
        rw [hother _ (by rw [hr.2.1]; exact e)]
        exact hr.2.1
  · rw [hb, hf]
    exact h.peers
  · rw [hf'] at hle
    have hnone := hopen c'
    rw [h.connections c' hle, Option.isSome_none, Option.isSome_eq_false_iff, Option.isNone_iff_eq_none] at hnone
    exact hnone

end Attached

theorem sound_initialized {b b' : Broker T} (hS : b.toStore.Sound) (hp : p ∉ b.peerList)
    (h : Initialized env p b b') : b'.toStore.Sound := by
  rcases h with ⟨n, rfl⟩ | ⟨memory, isLocal, n, rfl⟩
  · exact hS
  · exact sound_stepped hS (.connected p (.socket memory) isLocal n hp)

theorem mem_initialized {b b' : Broker T} (h : Initialized env p b b') {q : Addr} (hq : q ∈ b'.peerList) :
    q ∈ b.peerList ∨ q = p := by
  rcases h with ⟨n, rfl⟩ | ⟨memory, isLocal, n, rfl⟩
  · exact Or.inl hq
  · exact (List.mem_append.mp hq).imp_right List.mem_singleton.mp

/-- A peer that has not been there before gets a connection that no peer has. -/
theorem Attached.join (h : Attached s) {b : Broker T} {br : BufferedReader P} {link : Link}
    (hb : Initialized env s.freshPeer s.broker b) (hlink : link.connection = c)
    (hfree : ∀ q ∈ s.broker.peerList, (s.links q).connection ≠ c) (htb : t.broker = b)
    (hl : t.links = Function.update s.links s.freshPeer link)
    (hc : t.connections = Function.update s.connections c (some br)) (hf : t.freshPeer = s.freshPeer + 1)
    (hf' : s.freshConnection ≤ t.freshConnection) (hlt : c < t.freshConnection) (hreads : t.Reads c br) :
    Attached t := by
  have hnew : s.freshPeer ∉ s.broker.peerList := fun hm => Nat.lt_irrefl _ (h.peers _ hm)
  have hold : ∀ q, q < s.freshPeer → t.links q = s.links q := fun q hq => by
    rw [hl, Function.update_of_ne (Nat.ne_of_lt hq)]
  have hself : t.links s.freshPeer = link := by rw [hl, Function.update_self]
  have hmem : ∀ q ∈ t.broker.peerList, q ∈ s.broker.peerList ∨ q = s.freshPeer := fun q hq => by
    rw [htb] at hq
    exact mem_initialized hb hq
  have hapart : ∀ q ∈ s.broker.peerList, (t.links q).connection ≠ c := fun q hq => by
    rw [hold q (h.peers q hq)]
    exact hfree q hq
  refine ⟨by rw [htb]; exact sound_initialized h.sound hnew hb, fun p hm => ?_, fun p hm q hm' e => ?_,
    fun c' br' hbr' => ?_, fun p hm => ?_, fun c' hle => ?_⟩
  · show (t.connections (t.links p).connection).isSome = true
    rw [hc]
    rcases hmem p hm with hm | rfl
    · rw [Function.update_of_ne (hapart p hm), hold p (h.peers p hm)]
      exact h.isOpen p hm
    · rw [hself, hlink, Function.update_self]
      rfl
  · rcases hmem p hm with hm | rfl
    · rcases hmem q hm' with hm' | rfl
      · rw [hold p (h.peers p hm), hold q (h.peers q hm')] at e
        exact h.apart p hm q hm' e
      · rw [hself, hlink] at e
        exact (hapart p hm e).elim
    · rcases hmem q hm' with hm' | rfl
      · rw [hself, hlink] at e
        exact (hapart q hm' e.symm).elim
      · rfl
  · rw [hc] at hbr'
    by_cases e : c' = c
    · rw [e, Function.update_self] at hbr'
      rw [← Option.some.inj hbr', e]
      exact hreads
    · rw [Function.update_of_ne e] at hbr'
      have hr := h.reads c' br' hbr'
      unfold Reads at hr ⊢
      cases hrc : br'.readCallback with
      | readStartLine =>
        rw [hrc] at hr
        refine ⟨hr.1, fun q hq => ?_⟩
        rcases hmem q hq with hq | rfl
        · rw [hold q (h.peers q hq)]
          exact hr.2 q hq
        · rw [hself, hlink]
          exact Ne.symm e
      | _ =>
        rw [hrc] at hr
        refine ⟨hr.1, ?_, ?_⟩
        · rw [hold _ hr.2.2]
          exact hr.2.1
        · rw [hf]
          exact Nat.lt_succ_of_lt hr.2.2
  · rw [hf]
    rcases hmem p hm with hm | rfl
    · exact Nat.lt_succ_of_lt (h.peers p hm)
    · exact Nat.lt_succ_self _
  · rw [hc, Function.update_of_ne (Nat.ne_of_gt (Nat.lt_of_lt_of_le hlt hle))]
    exact h.connections c' (Nat.le_trans hf' hle)

/-! ## what keeps the invariant -/

theorem attached_handleError : Keeps Attached (handleError (T := T) (P := P) env p) := by
  intro s u t h hI
  obtain ⟨_, b, hb, rfl⟩ := handleError_some h
  obtain ⟨hm, hp, _⟩ := sends_disconnect hb
  exact hI.leave hm (sound_stepped hI.sound hb) hp rfl rfl rfl rfl

theorem attached_freeJetPeer : Keeps Attached (freeJetPeer (T := T) (P := P) env p) := by
  intro s u t h hI
  obtain ⟨b, hb, rfl⟩ := freeJetPeer_some h
  obtain ⟨hm, hp, _⟩ := sends_disconnect hb
  exact hI.leave hm (sound_stepped hI.sound hb) hp rfl rfl rfl rfl

theorem attached_destroyAllPeers : Keeps Attached (destroyAllPeers (T := T) (P := P) env) :=
  Does.bind (Does.read _) fun peers => Does.each _ fun p _ => Does.bind (Does.read _) fun link =>
    Does.ite (fun _ => attached_handleError) fun _ => attached_freeJetPeer

theorem attached_writev : Keeps Attached (writev (T := T) (P := P) c) := by
  intro s u t h hI
  obtain rfl := writev_some h
  exact hI.stay hI.sound rfl rfl rfl rfl rfl

theorem attached_rpc {request : Json} :
    Keeps Attached (atBroker (P := P) (handleEvent (T := T) env (.rpc p request))) := by
  intro s u t h hI
  obtain ⟨b, hb, rfl⟩ := atBroker_event h
  exact hI.stay (sound_stepped hI.sound hb) (sends_rpc hb).peerList rfl rfl rfl rfl

/-- The requester may be gone, and the state that is left behind is the same. -/
theorem requestTimeout_some {r : Addr} {b b' : Broker T} (h : requestTimeout env r b = some (u, b')) :
    ∃ q n l, b.requests r = some q ∧ (q.originRequestId = none → l = []) ∧ (∀ m ∈ l, m.peer = q.requestingPeer) ∧
      b' = { b with
        calls := n, timers := Function.update b.timers r none, sent := b.sent ++ l
        requests := Function.update b.requests r none
        routingTable := Function.update b.routingTable q.ownerPeer
          (HashTable.remove (b.routingTable q.ownerPeer) q.id).2 } := by
  obtain ⟨_, b1, h1, h2⟩ := Prog.bind_some h
  obtain ⟨_, rfl⟩ := Prog.require_some h1
  obtain ⟨q, b2, h3, h4⟩ := Prog.bind_some h2
  obtain ⟨hq, rfl⟩ := Prog.deref_some h3
  obtain ⟨c, b3, h5, h6⟩ := Prog.bind_some h4
  obtain ⟨_, rfl⟩ := Prog.read_some h5
  cases c with
  | true =>
    obtain ⟨q', n, l, hq', _, hl, rfl⟩ := requestTimeoutHandler_some h6
    obtain rfl := Option.some.inj (hq.symm.trans hq')
    exact ⟨q, n, l, hq, hl.silent, fun m hm => (hl.about m hm).1, rfl⟩
  | false =>
    obtain ⟨⟨v, b4⟩, h7, h8⟩ := Option.map_eq_some_iff.mp h6
    obtain ⟨q', n, l, hq', _, hl, rfl⟩ := requestTimeoutHandler_some h7
    obtain rfl := Option.some.inj (hq.symm.trans hq')
    cases h8
    exact ⟨q, n, l, hq, hl.silent, fun m hm => (hl.about m hm).1, rfl⟩

theorem attached_timeout {r : Addr} : Keeps Attached (atBroker (P := P) (requestTimeout (T := T) env r)) := by
  intro s u t h hI
  obtain ⟨b, hb, rfl⟩ := atBroker_some h
  obtain ⟨q, n, l, _, _, _, rfl⟩ := requestTimeout_some hb
  exact hI.stay hI.sound rfl rfl rfl rfl rfl

/-- no peer has the connection that comes next -/
theorem Attached.unused (h : Attached s) {q : Addr} (hq : q ∈ s.broker.peerList) :
    (s.links q).connection ≠ s.freshConnection := by
  intro e
  have hopen := h.isOpen q hq
  unfold Server.isOpen at hopen
  rw [e, h.connections _ (Nat.le_refl _)] at hopen
  cases hopen

theorem attached_handleNewJetConnection {memory : PeerMemory} {isLocal : Bool} :
    Keeps Attached (handleNewJetConnection (T := T) server env memory isLocal) := by
  intro s u t h hI
  rcases handleNewJetConnection_some h with ⟨n, rfl⟩ | ⟨b, hb, rfl⟩
  · exact hI.stay hI.sound rfl rfl rfl rfl rfl
  · refine hI.join (c := s.freshConnection) hb rfl (fun q hq => hI.unused hq) rfl rfl rfl rfl (Nat.le_succ _)
      (Nat.lt_succ_self _) ⟨rfl, ?_, Nat.lt_succ_self _⟩
    exact Function.update_self _ _ _

theorem attached_handleHttp {isLocal : Bool} : Keeps Attached (handleHttp (T := T) server env isLocal) := by
  intro s u t h hI
  obtain ⟨n, rfl | rfl⟩ := handleHttp_some h
  · exact hI.stay hI.sound rfl rfl rfl rfl rfl
  · refine ⟨hI.sound, fun p hm => ?_, hI.apart, fun c br hbr => ?_, hI.peers, fun c hle => ?_⟩
    · show (Function.update s.connections s.freshConnection _ (s.links p).connection).isSome = true
      rw [Function.update_of_ne (hI.unused hm)]
      exact hI.isOpen p hm
    · have hbr' : Function.update s.connections s.freshConnection _ c = some br := hbr
      by_cases e : c = s.freshConnection
      · rw [e, Function.update_self] at hbr'
        rw [← Option.some.inj hbr', e]
        exact ⟨rfl, fun q hq => hI.unused hq⟩
      · rw [Function.update_of_ne e] at hbr'
        exact (hI.reads c br hbr').congr rfl rfl (fun q hq => hq) rfl rfl
    · show Function.update s.connections s.freshConnection _ c = none
      rw [Function.update_of_ne (Nat.ne_of_gt hle)]
      exact hI.connections c (Nat.le_of_succ_le hle)

/-! ## lines -/

theorem Attached.parsed (h : Attached s) (c : Addr) (parser : P) : Attached (s.parsed c parser) := by
  cases hbr : s.connections c with
  | none =>
    refine h.stay h.sound rfl rfl ?_ rfl rfl
    show Function.update s.connections c ((s.connections c).map _) = s.connections
    rw [hbr, Option.map_none, ← hbr, Function.update_eq_self]
  | some br =>
    exact h.reader hbr rfl rfl rfl rfl (fun q => rfl) (fun q hq => rfl)
      ((h.reads c br hbr).congr rfl rfl (fun q hq => hq) rfl rfl)

theorem Attached.responds (h : Attached s) (hst : Responds c s t) : Attached t := by
  obtain ⟨n, rfl⟩ := hst
  exact h.stay h.sound rfl rfl rfl rfl rfl

/-- a connection that reads its start line is that of no peer -/
theorem Attached.noPeer (h : Attached s) {br : BufferedReader P} (hbr : s.connections c = some br)
    (hr : br.readCallback = .readStartLine) : ∀ q ∈ s.broker.peerList, (s.links q).connection ≠ c := by
  have hreads := h.reads c br hbr
  unfold Reads at hreads
  rw [hr] at hreads
  exact hreads.2

/-- a connection that reads header lines is that of its peer -/
theorem Attached.link (h : Attached s) {br : BufferedReader P} (hbr : s.connections c = some br)
    (hr : br.readCallback = .websocketReadHeaderLine p) :
    br.error = .freeWebsocketPeerOnError p ∧ s.links p = .websocket c false ∧ p < s.freshPeer := by
  have hreads := h.reads c br hbr
  unfold Reads at hreads
  rw [hr] at hreads
  exact hreads

theorem Attached.alloc (h : Attached s) {br : BufferedReader P} (hbr : s.connections c = some br)
    (hr : br.readCallback = .readStartLine) (ht : allocWebsocketPeer env c s = some (u, t)) : Attached t := by
  have hfree := h.noPeer hbr hr
  have hlt : c < s.freshConnection := by
    by_contra hle
    rw [h.connections c (Nat.le_of_not_lt hle)] at hbr
    cases hbr
  rcases allocWebsocketPeer_some ht with ⟨n, rfl⟩ | ⟨b, hb, rfl⟩
  · exact h.stay h.sound rfl rfl rfl rfl rfl
  · have hc : (s.created c b).connections = Function.update s.connections c (some { br with
        readCallback := .websocketReadHeaderLine s.freshPeer, error := .freeWebsocketPeerOnError s.freshPeer }) := by
      show Function.update s.connections c ((s.connections c).map _) = _
      rw [hbr]
      rfl
    refine h.join (c := c) hb rfl hfree rfl rfl hc rfl (Nat.le_refl _) hlt ⟨rfl, ?_, Nat.lt_succ_self _⟩
    exact Function.update_self _ _ _

/-- the line creates no peer, or the one peer of a connection whose start line is consumed -/
def LineKept (server : HttpServer P) (br : BufferedReader P) (bytes : List UInt8) (answers : List HeaderAnswer) :
    Prop :=
  (server.execute br.parser bytes).requests server answers = 0 ∨ br.readCallback = .readStartLine ∧
    (server.execute br.parser bytes).requests server answers = 1 ∧
    (server.execute br.parser bytes).nparsed server answers = bytes.length

theorem responds_connections (h : Responds c s t) : t.connections = s.connections := by
  obtain ⟨n, rfl⟩ := h
  rfl

/-- a line that is read by a websocket creates no peer -/
theorem LineKept.execute {br : BufferedReader P} {bytes : List UInt8} {answers : List HeaderAnswer} {n : Nat}
    (hk : LineKept server br bytes answers) (hbr : s.connections c = some br)
    (hr : br.readCallback = .websocketReadHeaderLine p)
    (h : httpParserExecute server env c bytes answers s = some (n, t)) :
    ∃ s1 parser, Responds c s s1 ∧ t = s1.parsed c parser := by
  obtain ⟨_, s1, parser, rfl, hnone, _⟩ := httpParserExecute_some hbr h
  refine ⟨s1, parser, hnone ?_, rfl⟩
  rcases hk with hk | ⟨hk, _⟩
  · exact hk
  · rw [hr] at hk
    cases hk

theorem attached_readStartLine (hI : Attached s) {br : BufferedReader P} {bytes : List UInt8}
    {answers : List HeaderAnswer} (hbr : s.connections c = some br) (hr : br.readCallback = .readStartLine)
    (hk : bytes ≠ [] → LineKept server br bytes answers)
    (h : readStartLine server env c bytes answers s = some (u, t)) :
    Attached t := by
  have hfree := hI.noPeer hbr hr
  rcases readStartLine_some h with ⟨_, rfl⟩ | ⟨hne, n, s1, h1, h2⟩
  · exact hI.close hI.sound (fun q hq => ⟨hq, hfree q hq⟩) rfl rfl rfl rfl
  obtain ⟨hn, s2, parser, rfl, hnone, hone⟩ := httpParserExecute_some hbr h1
  rcases hk hne with hk | ⟨_, hk, hlen⟩
  · obtain ⟨k, rfl⟩ := hnone hk
    rcases h2 with ⟨_, rfl⟩ | ⟨_, rfl⟩
    · refine hI.close hI.sound (fun q hq => ⟨hq, hfree q hq⟩) rfl ?_ rfl rfl
      exact Function.update_idem _ _ _
    · exact (hI.responds ⟨k, rfl⟩).parsed c parser
  · rcases h2 with ⟨hshort, _⟩ | ⟨_, rfl⟩
    · exact absurd (hn.trans hlen) hshort
    obtain ⟨s3, s4, h3, h4, h5⟩ := hone hk
    have hbr3 : s3.connections c = some br := by
      rw [responds_connections h3]
      exact hbr
    exact (((hI.responds h3).alloc hbr3 hr h4).responds h5).parsed c parser

theorem attached_websocketReadHeaderLine (hI : Attached s) {br : BufferedReader P} {bytes : List UInt8}
    {answers : List HeaderAnswer} (hbr : s.connections c = some br) (hr : br.readCallback = .websocketReadHeaderLine p)
    (hk : bytes ≠ [] → LineKept server br bytes answers)
    (h : websocketReadHeaderLine server env p bytes answers s = some (u, t)) :
    Attached t := by
  obtain ⟨herror, hlink, hlt⟩ := hI.link hbr hr
  rcases websocketReadHeaderLine_some (congrArg Link.connection hlink) h with ⟨_, h⟩ | ⟨hne, n, s1, h1, h2⟩
  · exact attached_handleError s u t h hI
  obtain ⟨s2, parser, hresponds, rfl⟩ := (hk hne).execute hbr hr h1
  have hI1 := (hI.responds hresponds).parsed c parser
  obtain ⟨k, rfl⟩ := hresponds
  rcases h2 with ⟨_, h3⟩ | ⟨_, br1, hbr1, h3⟩
  · exact attached_handleError _ _ _ h3 (attached_writev _ _ _ rfl hI1)
  have hbr1' : br1 = { br with parser := parser } := by
    have e : Function.update s.connections c ((s.connections c).map fun br => { br with parser := parser }) c
        = some br1 := hbr1
    rw [Function.update_self, hbr] at e
    exact (Option.some.inj e).symm
  rcases h3 with rfl | rfl
  · refine hI1.reader hbr1 rfl rfl rfl rfl (fun q => ?_) (fun q hq => ?_) ⟨?_, ?_, hlt⟩
    · show (Function.update s.links p _ q).connection = (s.links q).connection
      by_cases e : q = p
      · rw [e, Function.update_self, hlink]
        rfl
      · rw [Function.update_of_ne e]
    · show Function.update s.links p _ q = s.links q
      refine Function.update_of_ne (fun e => hq ?_) _ _
      show (s.links q).connection = c
      rw [e, hlink]
      rfl
    · rw [hbr1']
      exact herror
    · exact Function.update_self _ _ _
  · refine hI1.reader hbr1 rfl rfl rfl rfl (fun q => rfl) (fun q hq => rfl) ⟨?_, hlink, hlt⟩
    rw [hbr1']
    exact herror

/-! ## steps and runs -/

/-- a line that creates a peer is the start line of its connection, it creates one, and it is consumed -/
def PeerKept (server : HttpServer P) (s : Server T P) (i : ServerInput) : Prop :=
  match i.event with
  | .line c bytes answers => ∀ br, s.connections c = some br → LineKept server br bytes answers
  | _ => True

theorem attached_begin (hI : Attached s) : Attached s.begin := hI.stay hI.sound rfl rfl rfl rfl rfl

theorem attached_readLine (hI : Attached s) {br : BufferedReader P} {bytes : List UInt8}
    {answers : List HeaderAnswer} (hbr : s.connections c = some br) (hk : bytes ≠ [] → LineKept server br bytes answers)
    (h : readLine server env c bytes answers s = some (u, t)) : Attached t := by
  rcases readLine_some hbr h with ⟨hr, h⟩ | ⟨p, hr, h⟩
  · exact attached_readStartLine hI hbr hr hk h
  · exact attached_websocketReadHeaderLine hI hbr hr hk h

variable {platform : Platform}

theorem attached_step {i : ServerInput} (hI : Attached s) (hc : PeerKept server s i)
    (h : serverStep server platform s i = some t) : Attached t := by
  have hI0 := attached_begin hI
  replace h := serverStep_some h
  obtain ⟨outcomes, e⟩ := i
  cases h with
  | acceptJet memory isLocal h => exact attached_handleNewJetConnection _ _ _ h hI0
  | acceptHttp isLocal h => exact attached_handleHttp _ _ _ h hI0
  | line c bytes answers br hbr h => exact attached_readLine hI0 hbr (fun _ => hc br hbr) h
  | message c p request h => exact attached_rpc _ _ _ h hI0
  | ping c p br hbr hr h =>
    rw [h]
    exact attached_writev _ _ _ rfl hI0
  | websocketError e c p he br hbr hr h => exact attached_handleError _ _ _ h hI0
  | jetError e c p he h => exact attached_freeJetPeer _ _ _ h hI0
  | noLine c br hbr h => exact attached_readLine hI0 hbr (fun hne => (hne rfl).elim) h
  | websocketIoError c p br hbr he h => exact attached_handleError _ _ _ h hI0
  | connectionError c br hbr he h =>
    have hreads := hI0.reads c br hbr
    unfold Reads at hreads
    have hr : br.readCallback = .readStartLine := by
      cases hr : br.readCallback with
      | readStartLine => rfl
      | _ =>
        rw [hr, he] at hreads
        cases hreads.1
    rw [h]
    exact hI0.close hI0.sound (fun q hq => ⟨hq, hI0.noPeer hbr hr q hq⟩) rfl rfl rfl rfl
  | timeout r h => exact attached_timeout _ _ _ h hI0
  | shutdown h => exact attached_destroyAllPeers _ _ _ ((Prog.bind_of_some (Prog.read_apply _ _)).trans h) hI0

theorem attached_start (h : s.IsStart platform) : Attached s := by
  obtain ⟨b, ⟨allGroups, userData, passwordFile, rfl⟩, links, rfl⟩ := h
  exact ⟨sound_start _ _ _ _, fun p hp => (by cases hp), fun p hp => (by cases hp), fun c br hbr => (by cases hbr),
    fun p hp => (by cases hp), fun c _ => rfl⟩

theorem attached_run {l : List ServerInput} (h0 : s.IsStart platform)
    (hc : Along (serverStep server platform) (PeerKept server) s l)
    (h : run (serverStep server platform) s l = some t) : Attached t :=
  run_invariant (fun s i t hI hc hs => attached_step hI hc hs) (attached_start h0) hc h

/-- the connection of every peer in the list is there, and what elements and fetches are left belong to these peers -/
def PeersConnected (s : Server T P) : Prop :=
  (∀ p ∈ s.broker.peerList, s.isOpen (s.links p).connection = true) ∧
  (∀ e el, s.broker.elements e = some el → el.peer ∈ s.broker.peerList) ∧
  ∀ f ft, s.broker.fetches f = some ft → ft.peer ∈ s.broker.peerList

/-- Where no line creates a peer that is not kept, a connection is not freed without its peer. -/
theorem peers_connected {l : List ServerInput} (h0 : s.IsStart platform)
    (hc : Along (serverStep server platform) (PeerKept server) s l)
    (h : run (serverStep server platform) s l = some t) : PeersConnected t := by
  have hI := attached_run h0 hc h
  exact ⟨hI.isOpen, fun e el he => hI.sound.peer_mem he, fun f ft hf => (hI.sound.fetch_peer_mem hf).1⟩

end Server

/-! ## two requests -/

/-- a parser for a request line with an HTTP version of two digits, and header lines -/
inductive LineParser where
  | requestLine
  | header
  | upgraded
  deriving DecidableEq

namespace LineParser

/-- the characters of a version with the end of the line -/
def version : List (UInt8 → Bool) :=
  ("HTTP/".toUTF8.toList.map fun c b => b == c) ++
    [fun b => 49 ≤ b && b ≤ 57, fun b => b == 46, fun b => 48 ≤ b && b ≤ 57, fun b => b == 13, fun b => b == 10]

/-- the number of bytes that are as they should be -/
def fitting : List (UInt8 → Bool) → List UInt8 → Nat
  | c :: cs, b :: bs => if c b then fitting cs bs + 1 else 0
  | _, _ => 0

/-- the URL ends at the second blank -/
def parseRequestLine (bytes : List UInt8) : Parsing LineParser :=
  let target := (bytes.dropWhile (· != 32)).drop 1
  let rest := (target.dropWhile (· != 32)).drop 1
  .onUrl false (target.takeWhile (· != 32)) fun ok =>
    if ok then .done .header (bytes.length - rest.length + fitting version rest)
    else .done .requestLine (bytes.length - rest.length)

def parseHeader (bytes : List UInt8) : Parsing LineParser :=
  if bytes = [13, 10] then .onHeadersComplete fun ok => if ok then .done .upgraded 2 else .done .header 1
  else .onHeader fun ok =>
    if ok then .onHeader fun ok => .done .header (if ok then bytes.length else 0) else .done .header 0

def parser : HttpParser LineParser where
  init := .requestLine
  execute
    | .header, bytes => parseHeader bytes
    | _, bytes => parseRequestLine bytes
  upgrade p := p == .upgraded
  parseUrl _ url := some (some url)

def server : HttpServer LineParser := { parser with requestTarget := "/api/jet/".toUTF8.toList }

end LineParser

/-- the server after start-up -/
def Server.start (P : Type) : Server SlotTable P :=
  ⟨Broker.start Platform.small.config none none [], fun _ => .socket 0, fun _ => none, [], 0, 0⟩

theorem Server.start_isStart (P : Type) : (Server.start P).IsStart Platform.small :=
  ⟨_, isStart_start _ none none [], _, rfl⟩

/-- all calls succeed -/
def ServerEvent.good (e : ServerEvent) : ServerInput := ⟨Outcomes.good, e⟩

/-- a line of a request, whose headers are accepted -/
def ServerInput.text (c : Addr) (line : String) : ServerInput :=
  (ServerEvent.line c line.toUTF8.toList [⟨true, true⟩, ⟨false, true⟩]).good

namespace Server
open LineParser

/-- The HTTP version is malformed: `on_url` has created the peer by then. -/
theorem malformed_version_keeps_peer : ¬ ∀ (s t : Server SlotTable LineParser) l, s.IsStart Platform.small →
    run (serverStep server Platform.small) s l = some t → PeersConnected t := by
  intro hall
  have hrun : (run (serverStep server Platform.small) (start LineParser)
      [(ServerEvent.acceptHttp true).good, .text 0 "GET /api/jet/ HTTP/9x\r\n"]).any
      (fun t => t.broker.peerList.contains 0 && !t.isOpen (t.links 0).connection) = true := by decide +kernel
  obtain ⟨t, ht, hc⟩ := Option.any_eq_true _ _ |>.mp hrun
  obtain ⟨hm, hclosed⟩ := Bool.and_eq_true _ _ |>.mp hc
  have hopen := (hall _ t _ (start_isStart _) ht).1 0 (List.contains_iff_mem.mp hm)
  rw [hopen] at hclosed
  cases hclosed

/-- a websocket is opened, its peer adds a state, and another websocket is opened and goes away -/
def twoWebsockets : List ServerInput :=
  [(ServerEvent.acceptHttp true).good, .text 0 "GET /api/jet/ HTTP/1.1\r\n", .text 0 "Upgrade: websocket\r\n",
   .text 0 "\r\n", (ServerEvent.acceptHttp true).good, .text 1 "GET /api/jet/ HTTP/1.1\r\n", .text 1 "\r\n",
   (ServerEvent.message 0 (.request none "add" [("path", .str "a"), ("value", .bool true)])).good,
   (ServerEvent.hangUp 1).good]

/-- is `PeerKept` met? -/
def peerKept {P : Type} (server : HttpServer P) (s : Server SlotTable P) (i : ServerInput) : Bool :=
  match i.event with
  | .line c bytes answers => (s.connections c).all fun br =>
    let line := server.execute br.parser bytes
    line.requests server answers == 0 ||
      (match br.readCallback with | .readStartLine => true | _ => false) &&
        line.requests server answers == 1 && line.nparsed server answers == bytes.length
  | _ => true

theorem peerKept_iff {P : Type} {server : HttpServer P} {s : Server SlotTable P} {i : ServerInput}
    (h : peerKept server s i = true) : PeerKept server s i := by
  obtain ⟨outcomes, e⟩ := i
  cases e with
  | line c bytes answers =>
    intro br hbr
    have h' : (s.connections c).all _ = true := h
    rw [hbr, Option.all_some] at h'
    rcases Bool.or_eq_true _ _ |>.mp h' with h' | h'
    · exact Or.inl (beq_iff_eq.mp h')
    · obtain ⟨h1, h2⟩ := Bool.and_eq_true _ _ |>.mp h'
      obtain ⟨h3, h4⟩ := Bool.and_eq_true _ _ |>.mp h1
      refine Or.inr ⟨?_, beq_iff_eq.mp h4, beq_iff_eq.mp h2⟩
      cases hr : br.readCallback with
      | readStartLine => rfl
      | _ =>
        rw [hr] at h3
        cases h3
  | _ => trivial

theorem twoWebsockets_connected : ∃ t, run (serverStep server Platform.small)
    (start LineParser) twoWebsockets = some t ∧
    t.broker.peerList = [0] ∧ PeersConnected t := by
  have hrun : (run (serverStep server Platform.small) (start LineParser) twoWebsockets).any
      (fun t => t.broker.peerList == [0]) = true := by decide +kernel
  have hkept : checkAlong (serverStep server Platform.small) (peerKept server) (start LineParser) twoWebsockets
      = true := by decide +kernel
  obtain ⟨t, ht, hp⟩ := Option.any_eq_true _ _ |>.mp hrun
  exact ⟨t, ht, beq_iff_eq.mp hp,
    peers_connected (start_isStart _) (Along.of_check (fun s i h => peerKept_iff h) hkept) ht⟩

end Server

end Cjet
