import Cjet.Step

/-!
# Connections and their peers (`http_connection.c`, `websocket_peer.c`, `socket_peer.c`, `linux/linux_io.c`)

A jet peer gets its connection when it is accepted.  A websocket peer is created from inside of `http_parser`:
the connection is there before it, and its buffered reader is handed over to the peer.

* `HttpParser`, `Parsing`   what is used of `http_parser`: the callbacks that a run of it makes, one after the other;
* `Server`                  the broker, the connections, and the calls of `writev`;
* `readStartLine`, `websocketReadHeaderLine`, `onUrl`   the way from a request line to a websocket peer;
* `handleError`, `freeWebsocketPeerOnError`, `freeJetPeer`, `destroyAllPeers`   the ways a peer goes;
* `serverStep`              what the event loop does.
-/

set_option linter.unusedVariables false

namespace Cjet
open Stateful

/-! ## what is used of `http_parser` -/

/-- A run of `http_parser_execute`: the callbacks that it makes, and how it goes on when they return 0 and when
they do not. -/
inductive Parsing (P : Type) where
  /-- it returns with so many bytes consumed -/
  | done (parser : P) (nparsed : Nat)
  | onUrl (isConnect : Bool) (url : List UInt8) (next : Bool → Parsing P)
  /-- `on_header_field` or `on_header_value` -/
  | onHeader (next : Bool → Parsing P)
  | onHeadersComplete (next : Bool → Parsing P)

structure HttpParser (P : Type) where
  /-- `http_parser_init` -/
  init : P
  /-- `http_parser_execute` -/
  execute : P → List UInt8 → Parsing P
  /-- `parser->upgrade` -/
  upgrade : P → Bool
  /-- `http_parser_parse_url`: the path in a URL, if it has one; no result where it is malformed -/
  parseUrl : Bool → List UInt8 → Option (Option (List UInt8))

/-- `struct http_server`, with the one `url_handler` that `run_io` installs -/
structure HttpServer (P : Type) extends HttpParser P where
  requestTarget : List UInt8

/-- what a header callback of the websocket does: `on_headers_complete` may send the response of the upgrade -/
structure HeaderAnswer where
  responds : Bool
  ok : Bool

namespace HttpServer
variable {P : Type} (server : HttpServer P)

/-- `find_url_handler` -/
def findUrlHandler (path : List UInt8) : Bool := server.requestTarget.isPrefixOf path

/-- the URL is for the jet server: `on_url` creates a peer and returns 0 -/
def handles (isConnect : Bool) (url : List UInt8) : Bool :=
  match server.parseUrl isConnect url with
  | some (some path) => server.findUrlHandler path
  | _ => false

end HttpServer

/-! ## connections -/

inductive ReadCallback where
  /-- `read_msg_length` and `read_msg` -/
  | readMsg (p : Addr)
  | readStartLine
  | websocketReadHeaderLine (p : Addr)
  /-- `ws_get_header` and the callbacks behind it -/
  | wsGetHeader (p : Addr)

inductive ErrorHandler where
  | freePeerOnError (p : Addr)
  | freeConnection
  | freeWebsocketPeerOnError (p : Addr)

/-- a `struct buffered_socket`, together with the `struct http_connection` that it belongs to; a jet peer does not
use the parser -/
structure BufferedReader (P : Type) where
  readCallback : ReadCallback
  error : ErrorHandler
  parser : P
  isLocalConnection : Bool

/-- the part of `struct socket_peer` and `struct websocket_peer` that leads to the connection -/
inductive Link where
  | socket (connection : Addr)
  | websocket (connection : Addr) (upgradeComplete : Bool)
  deriving DecidableEq

namespace Link

def connection : Link → Addr
  | socket c => c
  | websocket c _ => c

def upgradeComplete : Link → Bool
  | socket _ => false
  | websocket _ complete => complete

def isWebsocket : Link → Bool
  | socket _ => false
  | websocket _ _ => true

end Link

/-- a call of `writev`, and whether the connection had not been freed at that time -/
structure Write where
  connection : Addr
  isOpen : Bool

/-- `links` is read at the addresses of peers, and a freed connection is no longer there. -/
structure Server (T P : Type) where
  broker : Broker T
  links : Addr → Link
  connections : Addr → Option (BufferedReader P)
  written : List Write
  /-- addresses from here on have not been used for peers -/
  freshPeer : Nat
  /-- addresses from here on have not been used for connections -/
  freshConnection : Nat

namespace Server
variable {T P : Type}

def isOpen (s : Server T P) (c : Addr) : Bool := (s.connections c).isSome

def write (s : Server T P) (c : Addr) : Write := ⟨c, s.isOpen c⟩

/-- the broker goes on to `b`: each message that is sent is handed to the `writev` of the connection of its peer -/
def proceed (s : Server T P) (b : Broker T) : Server T P :=
  { s with
    broker := b
    written := s.written ++
      (b.sent.drop s.broker.sent.length).map fun m => s.write (s.links m.peer).connection }

def atBroker {α : Type} (m : Prog (Broker T) α) : Prog (Server T P) α := fun s =>
  (m s.broker).map fun r => (r.1, s.proceed r.2)

/-- `br->writev` -/
def writev (c : Addr) : Prog (Server T P) Unit :=
  Prog.update fun s => { s with written := s.written ++ [s.write c] }

/-- `free_connection`, or `br->close` of a jet peer -/
def freeConnection (c : Addr) : Prog (Server T P) Unit := do
  Prog.require fun s => s.isOpen c
  Prog.update fun s => { s with connections := Function.update s.connections c none }

/-- `br->read_until`, `br->read_exactly`, `br->set_error_handler` -/
def setReader (c : Addr) (f : BufferedReader P → BufferedReader P) : Prog (Server T P) Unit :=
  Prog.update fun s => { s with connections := Function.update s.connections c ((s.connections c).map f) }

def setLink (p : Addr) (link : Link) : Prog (Server T P) Unit :=
  Prog.update fun s => { s with links := Function.update s.links p link }

/-- the address of a new peer -/
def newPeer : Prog (Server T P) Addr := fun s =>
  some (s.freshPeer, { s with freshPeer := s.freshPeer + 1 })

/-- the address of a new connection -/
def newConnection (br : BufferedReader P) : Prog (Server T P) Addr := fun s =>
  some (s.freshConnection, { s with
    connections := Function.update s.connections s.freshConnection (some br)
    freshConnection := s.freshConnection + 1 })

end Server

namespace Server
variable {T P : Type} [HashTable T] (server : HttpServer P) (env : Env)

/-! ## peers go away -/

/-- `free_jet_peer`: the resources first -/
def freeJetPeer (p : Addr) : Prog (Server T P) Unit := do
  let link ← Prog.read fun s => s.links p
  atBroker (handleEvent env (.disconnect p))
  freeConnection link.connection

/-- `free_peer_on_error` -/
def freePeerOnError (p : Addr) : Prog (Server T P) Unit := freeJetPeer env p

/-- `close_jet_peer` -/
def closeJetPeer (p : Addr) : Prog (Server T P) Unit := freeJetPeer env p

/-- `websocket_close` -/
def websocketClose (p : Addr) : Prog (Server T P) Unit := do
  let link ← Prog.read fun s => s.links p
  if link.upgradeComplete then writev link.connection
  freeConnection link.connection

/-- `free_websocket_peer`, and `free_websocket_peer_callback` -/
def freeWebsocketPeer (p : Addr) : Prog (Server T P) Unit := atBroker (handleEvent env (.disconnect p))

/-- `handle_error`, whose `on_error` is `free_websocket_peer_callback` -/
def handleError (p : Addr) : Prog (Server T P) Unit := do
  websocketClose p
  freeWebsocketPeer env p

/-- a close frame: `websocket_close` and then `close_callback` -/
def handleCloseFrame (p : Addr) : Prog (Server T P) Unit := do
  websocketClose p
  freeWebsocketPeer env p

/-- `free_websocket_peer_on_error` -/
def freeWebsocketPeerOnError (p : Addr) : Prog (Server T P) Unit := do
  websocketClose p
  freeWebsocketPeer env p

/-- `peer_close_websocket_peer` -/
def peerCloseWebsocketPeer (p : Addr) : Prog (Server T P) Unit := do
  websocketClose p
  freeWebsocketPeer env p

/-- `p->close` -/
def closePeer (p : Addr) : Prog (Server T P) Unit := do
  let link ← Prog.read fun s => s.links p
  if link.isWebsocket then peerCloseWebsocketPeer env p else closeJetPeer env p

/-- `destroy_all_peers` -/
def destroyAllPeers : Prog (Server T P) Unit := do
  let peers ← Prog.read fun s => s.broker.peerList
  Prog.each (closePeer env) peers

/-! ## a websocket peer is created -/

/-- `alloc_websocket_peer` with `init_websocket_peer`; what `init_peer` returns is ignored -/
def allocWebsocketPeer (c : Addr) : Prog (Server T P) Unit := do
  let br ← Prog.deref fun s => s.connections c
  if ← atBroker (call env .calloc) then
    let p ← newPeer
    let _ ← atBroker (initPeer env p .zero br.isLocalConnection)
    setLink p (.websocket c false)
    setReader c fun br => { br with readCallback := .websocketReadHeaderLine p, error := .freeWebsocketPeerOnError p }

/-- `on_url`; `false` is a negative result -/
def onUrl (c : Addr) (isConnect : Bool) (url : List UInt8) : Prog (Server T P) Bool := do
  if server.handles isConnect url then
    allocWebsocketPeer env c
    return true
  else return false

/-- the callbacks of a run of the parser; `answers` is what those for the header do -/
def callbacks (c : Addr) : List HeaderAnswer → Parsing P → Prog (Server T P) (P × Nat)
  | _, .done parser nparsed => pure (parser, nparsed)
  | answers, .onUrl isConnect url next => do
    let ok ← onUrl server env c isConnect url
    callbacks c answers (next ok)
  | [], .onHeader next => callbacks c [] (next false)
  | answer :: answers, .onHeader next => callbacks c answers (next answer.ok)
  | [], .onHeadersComplete next => callbacks c [] (next false)
  | answer :: answers, .onHeadersComplete next => do
    if answer.responds then writev c
    callbacks c answers (next answer.ok)

/-- `http_parser_execute(&connection->parser, &connection->parser_settings, buf, len)` -/
def httpParserExecute (c : Addr) (bytes : List UInt8) (answers : List HeaderAnswer) : Prog (Server T P) Nat := do
  let br ← Prog.deref fun s => s.connections c
  let r ← callbacks server env c answers (server.execute br.parser bytes)
  setReader c fun br => { br with parser := r.1 }
  return r.2

/-- `read_start_line` -/
def readStartLine (c : Addr) (bytes : List UInt8) (answers : List HeaderAnswer) : Prog (Server T P) Unit := do
  if bytes = [] then freeConnection c
  else
    let nparsed ← httpParserExecute server env c bytes answers
    if nparsed ≠ bytes.length then
      -- the response is for the peer that asked, the connection is still there
      writev c
      freeConnection c

/-- `websocket_read_header_line` -/
def websocketReadHeaderLine (p : Addr) (bytes : List UInt8) (answers : List HeaderAnswer) :
    Prog (Server T P) Unit := do
  if bytes = [] then handleError env p
  else
    let link ← Prog.read fun s => s.links p
    let nparsed ← httpParserExecute server env link.connection bytes answers
    if nparsed ≠ bytes.length then
      writev link.connection
      handleError env p
    else
      let br ← Prog.deref fun s => s.connections link.connection
      if server.upgrade br.parser then
        setLink p (.websocket link.connection true)
        setReader link.connection fun br => { br with readCallback := .wsGetHeader p }
      else
        setReader link.connection fun br => { br with readCallback := .websocketReadHeaderLine p }

/-! ## a connection is accepted -/

/-- `handle_new_jet_connection`, where the buffered socket can be allocated too -/
def handleNewJetConnection (memory : PeerMemory) (isLocalConnection : Bool) : Prog (Server T P) Unit := do
  if ← atBroker (call env .malloc) then
    let p ← newPeer
    let c ← newConnection ⟨.readMsg p, .freePeerOnError p, server.init, isLocalConnection⟩
    let _ ← atBroker (initPeer env p memory isLocalConnection)
    setLink p (.socket c)

/-- `handle_http` -/
def handleHttp (isLocalConnection : Bool) : Prog (Server T P) Unit := do
  if ← atBroker (call env .malloc) then
    let _ ← newConnection ⟨.readStartLine, .freeConnection, server.init, isLocalConnection⟩

end Server

/-! ## events -/

inductive ServerEvent where
  | acceptJet (memory : PeerMemory) (isLocalConnection : Bool)
  | acceptHttp (isLocalConnection : Bool)
  /-- a line of an HTTP request -/
  | line (c : Addr) (bytes : List UInt8) (answers : List HeaderAnswer)
  /-- one object of a message -/
  | message (c : Addr) (request : Json)
  /-- a ping frame -/
  | ping (c : Addr)
  /-- a message that is malformed, a frame against the protocol -/
  | malformed (c : Addr)
  | closeFrame (c : Addr)
  /-- the other side closed the connection -/
  | hangUp (c : Addr)
  | ioError (c : Addr)
  /-- the timer of a routed request expires -/
  | timeout (r : Addr)
  | shutdown

/-- an event, with the outcomes of the calls made while it is processed -/
structure ServerInput where
  outcomes : Outcomes
  event : ServerEvent

namespace Server
variable {T P : Type} [HashTable T] (server : HttpServer P) (env : Env)

/-- `p` is not connected, but what is left of it in the memory is used as if it were -/
def haunt (p : Addr) (m : Prog (Broker T) Unit) : Prog (Broker T) Unit := fun b =>
  (m { b with peerList := b.peerList ++ [p] }).map fun r => (r.1, { r.2 with peerList := b.peerList })

/-- `request_timeout_handler` follows the pointer to the peer that made the request, also where that is gone -/
def requestTimeout (r : Addr) : Prog (Broker T) Unit := do
  Prog.require fun b => b.timers r == some true
  let request ← Prog.deref fun b => b.requests r
  if ← Prog.read fun b => b.peerList.contains request.requestingPeer then requestTimeoutHandler env r
  else haunt request.requestingPeer (requestTimeoutHandler env r)

/-- a line, or the end of the stream before it -/
def readLine (c : Addr) (bytes : List UInt8) (answers : List HeaderAnswer) : Prog (Server T P) Unit := do
  let br ← Prog.deref fun s => s.connections c
  match br.readCallback with
  | .readStartLine => readStartLine server env c bytes answers
  | .websocketReadHeaderLine p => websocketReadHeaderLine server env p bytes answers
  | _ => Prog.undefined

/-- the peer that the messages of the connection are for, and whether they come in frames -/
def receiver (c : Addr) : Prog (Server T P) (Addr × Bool) := do
  let br ← Prog.deref fun s => s.connections c
  match br.readCallback with
  | .readMsg p => return (p, false)
  | .wsGetHeader p => return (p, true)
  | _ => Prog.undefined

def handle : ServerEvent → Prog (Server T P) Unit
  | .acceptJet memory isLocalConnection => handleNewJetConnection server env memory isLocalConnection
  | .acceptHttp isLocalConnection => handleHttp server env isLocalConnection
  | .line c bytes answers => do
    Prog.require fun _ => bytes != []
    readLine server env c bytes answers
  | .message c request => do
    let r ← receiver c
    atBroker (handleEvent env (.rpc r.1 request))
  | .ping c => do
    let r ← receiver c
    if r.2 then
      let link ← Prog.read fun s => s.links r.1
      writev link.connection
    else Prog.undefined
  | .malformed c => do
    let r ← receiver c
    if r.2 then handleError env r.1 else freeJetPeer env r.1
  | .closeFrame c => do
    let r ← receiver c
    if r.2 then handleCloseFrame env r.1 else Prog.undefined
  | .hangUp c => do
    let br ← Prog.deref fun s => s.connections c
    match br.readCallback with
    | .readMsg p => freeJetPeer env p
    | .wsGetHeader p => handleError env p
    | _ => readLine server env c [] []
  | .ioError c => do
    let br ← Prog.deref fun s => s.connections c
    match br.error with
    | .freePeerOnError p => freePeerOnError env p
    | .freeConnection => freeConnection c
    | .freeWebsocketPeerOnError p => freeWebsocketPeerOnError env p
  | .timeout r => atBroker (requestTimeout env r)
  | .shutdown => destroyAllPeers env

variable (platform : Platform)

/-- the event loop processes an event: no call has been made yet -/
def begin (s : Server T P) : Server T P := { s with broker := { s.broker with calls := 0 } }

def serverStep (s : Server T P) (i : ServerInput) : Option (Server T P) :=
  (handle server ⟨platform, i.outcomes⟩ i.event s.begin).map (·.2)

/-- after start-up there are no connections -/
def IsStart (s : Server T P) : Prop :=
  ∃ b : Broker T, b.IsStart platform ∧ ∃ links, s = ⟨b, links, fun _ => none, [], 0, 0⟩

end Server

end Cjet
