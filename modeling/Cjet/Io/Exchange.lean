import Cjet.Io.Framing
import Cjet.Io.Reading

/-!
# Messages from one raw socket to another (`socket_peer.c`)

One end sends messages and the other end reads them.  The network takes a few bytes of the sender at a time, and
hands a few bytes to the reader at a time.

* `socketPeer`            the callbacks `read_msg_length` and `read_msg`;
* `Exchange`, `exchangeStep`   both ends, and the bytes between them;
* `deliver`               what the reader should make of the messages that have been sent;
* `exchange_delivers`     in every run it does.
-/

set_option linter.unusedVariables false

namespace Cjet
open Stateful

namespace BufferedSocket

/-! ## the reading end -/

/-- the callback that waits for bytes -/
inductive Awaiting where
  | msgLength
  | msg (messageLength : Nat) (h : messageLength ≠ 0)

/-- `jet_be32toh` -/
def be32toh (buf : List UInt8) : Nat := buf.foldl (fun n b => n * 256 + b.toNat) 0

/-- A message of no bytes is passed over. -/
def awaitMsg (messageLength : Nat) : Awaiting :=
  if h : messageLength = 0 then .msgLength else .msg messageLength h

section
variable {P : Type} (parseMessage : P → List UInt8 → Option P)

/-- `read_msg`; `none`: the peer is freed -/
def readMsg (p : P) (buf : List UInt8) : Option (Awaiting × P) :=
  -- `parse_message` is taken to look at the message only: `MessageIsolated` is about what stands behind it in the buffer
  if buf.length = 0 then none
  else (parseMessage p buf).map fun p => (.msgLength, p)

/-- `read_msg_length`; no bytes mean that the other end has closed the connection -/
def readMsgLength (p : P) (buf : List UInt8) : Option (Awaiting × P) :=
  if buf.length = 0 then none
  else some (awaitMsg (be32toh buf), p)

def readCallback : Awaiting × P → List UInt8 → Option (Awaiting × P)
  | (.msgLength, p), buf => readMsgLength p buf
  | (.msg _ _, p), buf => readMsg parseMessage p buf

/-- what a socket peer asks for -/
def socketPeer : Consumer (Awaiting × P) Request UInt8 where
  request c :=
    match c.1 with
    | .msgLength => .readExactly 4
    | .msg messageLength _ => .readExactly messageLength
  callback := readCallback parseMessage

/-- the messages among the bytes that the callbacks were given -/
def messagesIn : Awaiting → List (List UInt8) → List (List UInt8)
  | _, [] => []
  | .msgLength, buf :: log => messagesIn (awaitMsg (be32toh buf)) log
  | .msg _ _, buf :: log => buf :: messagesIn .msgLength log

/-! ## both ends -/

structure Exchange (wsize rsize : Nat) (P : Type) where
  sender : Writer wsize
  receiver : State rsize (Awaiting × P)
  /-- a ghost: the messages that `send_message` has succeeded for -/
  sent : List (List UInt8)

inductive Move where
  | send (op : PeerOp)
  /-- the event loop wakes the receiver up, and its reads go on so -/
  | wake (script : List Recv)

variable {wsize rsize : Nat}

/-- the messages that a call has sent -/
def sentBy : PeerOp → Bool → List (List UInt8)
  | .sendMessage rendered, true => [rendered]
  | .sendMessage _, false => []
  | .writable, _ => []

/-- more bytes for the reader -/
def State.arrive {C : Type} (s : State rsize C) (more : List UInt8) : State rsize C :=
  { s with socket := { s.socket with stream := s.socket.stream ++ more } }

/-- The next reads go on so. -/
def State.resume {C : Type} (s : State rsize C) (script : List Recv) : State rsize C :=
  { s with socket := { s.socket with script := script } }

def exchangeStep (x : Exchange wsize rsize P) : Move → Option (Exchange wsize rsize P)
  | .send op => (execPeer x.sender op).map fun (ok, sender) =>
    { sender := sender
      receiver := x.receiver.arrive (sender.wire.accepted.drop x.sender.wire.accepted.length)
      sent := x.sent ++ sentBy op ok }
  | .wake script => (readFunction (socketPeer parseMessage) (x.receiver.resume script)).map fun receiver =>
    { x with receiver := receiver }

/-- The receiver asks for a length before anything has arrived. -/
def exchangeStart (memory : Vector UInt8 rsize) (script : List Send) (p : P) : Option (Exchange wsize rsize P) :=
  (run (socketPeer parseMessage) memory ⟨[], []⟩ (.msgLength, p) 0).map fun receiver =>
    ⟨Writer.start wsize script, receiver, []⟩

def exchangeRun (memory : Vector UInt8 rsize) (script : List Send) (p : P) (moves : List Move) :
    Option (Exchange wsize rsize P) :=
  (exchangeStart parseMessage memory script p).bind fun x => Stateful.run (exchangeStep parseMessage) x moves

/-- the messages that have been handed to `parse_message` -/
def Exchange.given (x : Exchange wsize rsize P) : List (List UInt8) := messagesIn .msgLength x.receiver.log

/-- nothing is under way any more -/
def Exchange.Settled (x : Exchange wsize rsize P) : Prop := x.sender.buffer.pending = [] ∧ Complete x.receiver

/-- no failing call leaves a part of its message, and the receiver's reads get bytes or would block -/
def Exchange.Allowed (x : Exchange wsize rsize P) : Move → Prop
  | .send op => ¬ LeavesPart x.sender op
  | .wake script => Divides script

/-! ## what the reader should do -/

/-- Messages are parsed one after the other up to one that is refused or too long for the read buffer, and empty ones
are passed over: the messages that are parsed, how that ends, and the peer. -/
def deliver (rsize : Nat) : P → List (List UInt8) → List (List UInt8) × Ending × P
  | p, [] => ([], .waiting, p)
  | p, m :: ms =>
    if m = [] then deliver rsize p ms
    else if rsize < m.length then ([], .refused, p)
    else
      match parseMessage p m with
      | none => ([m], .closed, p)
      | some q =>
        let rest := deliver rsize q ms
        (m :: rest.1, rest.2)

end

/-! ## one message -/

theorem be32toh_be32 {n : Nat} (h : n ≤ uint32Max) : be32toh (be32 n) = n := by
  unfold uint32Max at h
  simp only [be32toh, be32, List.foldl_cons, List.foldl_nil, UInt8.toNat_ofNat']
  omega

section
variable {P : Type} {parseMessage : P → List UInt8 → Option P} {rsize : Nat}

/-- An end of stream that is long enough serves a request for bytes. -/
theorem serves_append_of_length {u v : List UInt8} (hsize : u.length ≤ rsize) :
    (requests rsize).serves (.readExactly u.length) (u ++ v) = some u.length := by
  show (if u.length ≤ rsize ∧ u.length ≤ (u ++ v).length then some u.length else none) = some u.length
  rw [if_pos ⟨hsize, by rw [List.length_append]; exact Nat.le_add_right _ _⟩]

/-- the length of a message -/
theorem consumes_length (hsize : 4 ≤ rsize) {p : P} {m u : List UInt8} (hm : m.length ≤ uint32Max)
    {log : List (List UInt8)} {e : Ending} :
    Consumes (requests rsize) (socketPeer parseMessage) (.msgLength, p) (frame m ++ u) log e ↔
      ∃ log', log = be32 m.length :: log' ∧
        Consumes (requests rsize) (socketPeer parseMessage) (awaitMsg m.length, p) (m ++ u) log' e := by
  have hserves : (requests rsize).serves ((socketPeer parseMessage).request (.msgLength, p)) (frame m ++ u)
      = some 4 := by
    rw [frame, List.append_assoc]
    exact serves_append_of_length (u := be32 m.length) hsize
  have htake : (frame m ++ u).take 4 = be32 m.length := by
    rw [frame, List.append_assoc]
    exact List.take_left' rfl
  have hdrop : (frame m ++ u).drop 4 = m ++ u := by
    rw [frame, List.append_assoc]
    exact List.drop_left' rfl
  have hcall : (socketPeer parseMessage).callback (.msgLength, p) (be32 m.length) = some (awaitMsg m.length, p) := by
    show (if (be32 m.length).length = 0 then none else some (awaitMsg (be32toh (be32 m.length)), p)) = _
    rw [if_neg (by rw [length_be32]; decide), be32toh_be32 hm]
  rw [consumes_served hserves, htake, hdrop, hcall]
  constructor
  · rintro (⟨h, _⟩ | ⟨c, log', h, hlog, hrest⟩)
    · cases h
    · cases h
      exact ⟨log', hlog, hrest⟩
  · rintro ⟨log', hlog, hrest⟩
    exact Or.inr ⟨_, log', rfl, hlog, hrest⟩

/-- a message, behind its length -/
theorem consumes_msg {p : P} {m u : List UInt8} (hm : m.length ≠ 0) {log : List (List UInt8)} {e : Ending} :
    Consumes (requests rsize) (socketPeer parseMessage) (.msg m.length hm, p) (m ++ u) log e ↔
      if rsize < m.length then log = [] ∧ e = .refused
      else
        (parseMessage p m = none ∧ log = [m] ∧ e = .closed) ∨
          ∃ q log', parseMessage p m = some q ∧ log = m :: log' ∧
            Consumes (requests rsize) (socketPeer parseMessage) (.msgLength, q) u log' e := by
  by_cases hlong : rsize < m.length
  · rw [if_pos hlong]
    have hrefused : Consumes (requests rsize) (socketPeer parseMessage) (.msg m.length hm, p) (m ++ u) [] .refused :=
      .refuses hlong
    constructor
    · intro h
      exact h.unique hrefused
    · rintro ⟨rfl, rfl⟩
      exact hrefused
  · rw [if_neg hlong]
    have hserves : (requests rsize).serves ((socketPeer parseMessage).request (.msg m.length hm, p)) (m ++ u)
        = some m.length := serves_append_of_length (Nat.le_of_not_lt hlong)
    have hcall : (socketPeer parseMessage).callback (.msg m.length hm, p) m
        = (parseMessage p m).map fun q => (.msgLength, q) := if_neg hm
    rw [consumes_served hserves, List.take_left, List.drop_left, hcall]
    cases hparse : parseMessage p m with
    | none => simp
    | some q => simp

/-- The whole of what has been sent decides what the reader is given, and it is what it should be. -/
theorem consumes_frames (hsize : 4 ≤ rsize) {ms : List (List UInt8)} :
    ∀ {p : P} {log : List (List UInt8)} {e : Ending}, (∀ m ∈ ms, m.length ≤ uint32Max) →
    Consumes (requests rsize) (socketPeer parseMessage) (.msgLength, p) (ms.map frame).flatten log e →
    messagesIn .msgLength log = (deliver parseMessage rsize p ms).1 ∧ e = (deliver parseMessage rsize p ms).2.1 := by
  induction ms with
  | nil =>
    intro p log e _ h
    have hwaits : Consumes (requests rsize) (socketPeer parseMessage) (.msgLength, p) [] [] .waiting := by
      refine .waits ?_ (Nat.not_lt_of_le hsize)
      show (if 4 ≤ rsize ∧ 4 ≤ 0 then some 4 else none) = none
      rw [if_neg fun h => absurd h.2 (by decide)]
    obtain ⟨rfl, rfl⟩ := h.unique hwaits
    exact ⟨rfl, rfl⟩
  | cons m ms ih =>
    intro p log e hms h
    have hrest := fun m' hm' => hms m' (List.mem_cons_of_mem m hm')
    rw [List.map_cons, List.flatten_cons, consumes_length hsize (hms m List.mem_cons_self)] at h
    obtain ⟨log, rfl, h⟩ := h
    have htoh : be32toh (be32 m.length) = m.length := be32toh_be32 (hms m List.mem_cons_self)
    unfold messagesIn
    rw [htoh]
    unfold deliver
    by_cases hempty : m = []
    · subst hempty
      exact ih hrest h
    · have hm : m.length ≠ 0 := fun e => hempty (List.length_eq_zero_iff.mp e)
      have hawait : awaitMsg m.length = .msg m.length hm := dif_neg hm
      rw [if_neg hempty, hawait]
      rw [hawait, consumes_msg] at h
      by_cases hlong : rsize < m.length
      · rw [if_pos hlong] at h ⊢
        obtain ⟨rfl, rfl⟩ := h
        exact ⟨rfl, rfl⟩
      · rw [if_neg hlong] at h ⊢
        rcases h with ⟨hparse, rfl, rfl⟩ | ⟨q, log, hparse, rfl, h⟩
        · rw [hparse]
          exact ⟨rfl, rfl⟩
        · obtain ⟨hmessages, hending⟩ := ih hrest h
          rw [hparse]
          exact ⟨congrArg (List.cons m) hmessages, hending⟩

theorem messagesIn_prefix (log more : List (List UInt8)) (a : Awaiting) :
    messagesIn a log <+: messagesIn a (log ++ more) := by
  induction log generalizing a with
  | nil => exact List.nil_prefix
  | cons buf log ih =>
    cases a with
    | msgLength => exact ih _
    | msg n hn => exact List.prefix_cons_inj buf |>.mpr (ih .msgLength)

/-- The peer is the one that has parsed the messages. -/
theorem foldlM_messagesIn {log : List (List UInt8)} {b : Awaiting} {q : P} : ∀ {a : Awaiting} {p : P},
    log.foldlM (readCallback parseMessage) (a, p) = some (b, q) →
    (messagesIn a log).foldlM parseMessage p = some q := by
  induction log with
  | nil =>
    intro a p h
    cases h
    rfl
  | cons buf log ih =>
    intro a p h
    rw [List.foldlM_cons] at h
    obtain ⟨c, hcall, hrest⟩ := Option.bind_eq_some_iff.mp h
    cases a with
    | msgLength =>
      have hcall : (if buf.length = 0 then none else some (awaitMsg (be32toh buf), p)) = some c := hcall
      by_cases hlen : buf.length = 0
      · rw [if_pos hlen] at hcall
        cases hcall
      · rw [if_neg hlen] at hcall
        cases hcall
        exact ih hrest
    | msg n hn =>
      have hcall : (if buf.length = 0 then none else (parseMessage p buf).map fun q => (Awaiting.msgLength, q))
        = some c := hcall
      by_cases hlen : buf.length = 0
      · rw [if_pos hlen] at hcall
        cases hcall
      · rw [if_neg hlen] at hcall
        obtain ⟨p', hparse, rfl⟩ := Option.map_eq_some_iff.mp hcall
        show (buf :: messagesIn .msgLength log).foldlM parseMessage p = some q
        rw [List.foldlM_cons, hparse]
        exact ih hrest

theorem foldlM_deliver {ms : List (List UInt8)} : ∀ {p : P}, (deliver parseMessage rsize p ms).2.1 = .waiting →
    (deliver parseMessage rsize p ms).1.foldlM parseMessage p = some (deliver parseMessage rsize p ms).2.2 := by
  induction ms with
  | nil => exact fun _ => rfl
  | cons m ms ih =>
    intro p h
    unfold deliver at h ⊢
    by_cases hempty : m = []
    · rw [if_pos hempty] at h ⊢
      exact ih h
    · rw [if_neg hempty] at h ⊢
      by_cases hlong : rsize < m.length
      · rw [if_pos hlong] at h
        cases h
      · rw [if_neg hlong] at h ⊢
        cases hparse : parseMessage p m with
        | none =>
          rw [hparse] at h
          cases h
        | some q =>
          rw [hparse] at h
          show (m :: (deliver parseMessage rsize q ms).1).foldlM parseMessage p = _
          rw [List.foldlM_cons, hparse]
          exact ih h

/-- The reader gets a part of what has been sent, in that order. -/
theorem deliver_prefix {ms : List (List UInt8)} : ∀ {p : P},
    (deliver parseMessage rsize p ms).1 <+: ms.filter fun m => !m.isEmpty := by
  induction ms with
  | nil => exact List.nil_prefix
  | cons m ms ih =>
    intro p
    unfold deliver
    by_cases hempty : m = []
    · subst hempty
      rw [if_pos rfl, List.filter_cons_of_neg (by simp)]
      exact ih
    · rw [if_neg hempty, List.filter_cons_of_pos (by simpa using hempty)]
      by_cases hlong : rsize < m.length
      · rw [if_pos hlong]
        exact List.nil_prefix
      · rw [if_neg hlong]
        cases parseMessage p m with
        | none => exact (List.prefix_cons_inj m).mpr List.nil_prefix
        | some q => exact (List.prefix_cons_inj m).mpr ih

end

/-! ## the context of the reader -/

section
variable {C : Type} {K : Consumer C Request UInt8} {c0 : C} {rsize : Nat}

/-- the context is what the callbacks have made of it -/
def Traced (K : Consumer C Request UInt8) (c0 : C) (s : State rsize C) : Prop :=
  s.status = .reading → s.log.foldlM K.callback c0 = some s.context

theorem traced_goReading {fuel : Nat} : ∀ {s s' : State rsize C}, Traced K c0 s → s.status = .reading →
    goReading K fuel s = some s' → Traced K c0 s' := by
  induction fuel with
  | zero => exact fun _ _ h => by cases h
  | succ fuel ih =>
    intro s s' hs hstatus h
    unfold goReading at h
    split at h
    · cases h
    · cases h
      exact fun e => by cases e
    · cases h
      exact hs
    · cases h
      exact fun e => by cases e
    · rename_i buffer len b sock _
      dsimp only at h
      cases hcall : K.callback s.context (buffer.take len) with
      | none =>
        rw [hcall] at h
        cases h
        exact fun e => by cases e
      | some c =>
        rw [hcall] at h
        dsimp only at h
        by_cases hlen : len = 0
        · rw [if_pos hlen] at h
          cases h
          exact fun e => by cases e
        · rw [if_neg hlen] at h
          refine ih (fun _ => ?_) ?_ h
          · show (s.log ++ [buffer.take len]).foldlM K.callback c0 = some c
            rw [List.foldlM_append, hs hstatus]
            show (K.callback s.context (buffer.take len)).bind pure = some c
            rw [hcall]
            rfl
          · exact hstatus

theorem traced_readFunction {s s' : State rsize C} (hs : Traced K c0 s) (h : readFunction K s = some s') :
    Traced K c0 s' := by
  unfold readFunction at h
  cases hstatus : s.status with
  | reading =>
    rw [hstatus] at h
    exact traced_goReading hs hstatus h
  | closed =>
    rw [hstatus] at h
    cases h
    exact hs
  | failed io =>
    rw [hstatus] at h
    cases h
    exact hs

/-- More bytes for the reader leave it as good as it has been. -/
theorem Good.arrive {stream : List UInt8} {s : State rsize C} (h : Good K c0 stream s) (more : List UInt8) :
    Good K c0 (stream ++ more) (s.arrive more) := by
  obtain ⟨hscript, ⟨hstatus, ⟨arrived, hstream, hcons⟩, hwaits⟩ | ⟨e, he, hstatus, hcons⟩⟩ := h
  · refine ⟨hscript, Or.inl ⟨hstatus, ⟨arrived, ?_, hcons⟩, hwaits⟩⟩
    show stream ++ more = arrived ++ (s.socket.stream ++ more)
    rw [hstream, List.append_assoc]
  · exact ⟨hscript, Or.inr ⟨e, he, hstatus, hcons.append he more⟩⟩

end

/-! ## the bytes that the sender has handed over -/

section
variable {size : Nat}

theorem accepted_socketWritev (w : Wire) (pre : List UInt8) (ioVec : List (List UInt8)) :
    w.accepted <+: (socketWritevWithPrefix w pre ioVec).2.accepted := by
  unfold socketWritevWithPrefix
  dsimp only
  split
  · exact List.prefix_rfl
  · split
    · exact List.prefix_rfl
    · exact List.prefix_append _ _
    · exact List.prefix_rfl
    · exact List.prefix_rfl

theorem accepted_sendLoop {buffer : WriteBuffer size} {fuel : Nat} :
    ∀ {left : WriteBuffer size} {w : Wire} {ok : Bool} {s : Writer size},
    sendLoop buffer fuel left w = some (ok, s) → w.accepted <+: s.wire.accepted := by
  induction fuel with
  | zero => exact fun h => by cases h
  | succ fuel ih =>
    intro left w ok s h
    unfold sendLoop at h
    by_cases hempty : left.pending = []
    · rw [if_pos hempty] at h
      cases h
      exact List.prefix_rfl
    · rw [if_neg hempty] at h
      have haccepted := accepted_socketWritev w left.pending []
      generalize socketWritevWithPrefix w left.pending [] = res at h haccepted
      obtain ⟨ret, w'⟩ := res
      cases ret with
      | wouldBlock =>
        cases h
        exact haccepted
      | error =>
        cases h
        exact haccepted
      | sent n => exact haccepted.trans (ih h)

theorem accepted_writev {s s' : Writer size} {ioVec : List (List UInt8)} {ok : Bool}
    (h : bufferedSocketWritev s ioVec = some (ok, s')) : s.wire.accepted <+: s'.wire.accepted := by
  unfold bufferedSocketWritev at h
  have haccepted := accepted_socketWritev s.wire s.buffer.pending ioVec
  generalize socketWritevWithPrefix s.wire s.buffer.pending ioVec = res at h haccepted
  obtain ⟨ret, w⟩ := res
  cases ret with
  | error =>
    cases h
    exact haccepted
  | wouldBlock =>
    obtain ⟨-, rfl⟩ := Prod.mk.inj (Option.some.inj h)
    exact haccepted
  | sent n =>
    dsimp only at h
    split at h
    · cases h
      exact haccepted
    · split at h
      · cases h
        exact haccepted
      · exact haccepted.trans (accepted_sendLoop h)

theorem accepted_execPeer {s s' : Writer size} {op : PeerOp} {ok : Bool} (h : execPeer s op = some (ok, s')) :
    s.wire.accepted <+: s'.wire.accepted := by
  cases op with
  | writable => exact accepted_sendLoop h
  | sendMessage rendered =>
    have h : sendMessage s rendered = some (ok, s') := h
    unfold sendMessage at h
    by_cases hlong : uint32Max < rendered.length
    · rw [if_pos hlong] at h
      cases h
      exact List.prefix_rfl
    · rw [if_neg hlong] at h
      exact accepted_writev h

theorem frames_sentBy (op : PeerOp) (ok : Bool) : ((sentBy op ok).map frame).flatten = added op ok := by
  cases op with
  | writable => rfl
  | sendMessage rendered =>
    cases ok with
    | false => rfl
    | true => exact List.append_nil _

theorem sentBy_short {s s' : Writer size} {op : PeerOp} {ok : Bool} (h : execPeer s op = some (ok, s')) :
    ∀ m ∈ sentBy op ok, m.length ≤ uint32Max := by
  intro m hm
  cases op with
  | writable => cases hm
  | sendMessage rendered =>
    cases ok with
    | false => cases hm
    | true =>
      obtain rfl : m = rendered := List.mem_singleton.mp hm
      have h : sendMessage s m = some (true, s') := h
      unfold sendMessage at h
      by_cases hlong : uint32Max < m.length
      · rw [if_pos hlong] at h
        cases h
      · exact Nat.le_of_not_lt hlong

end

/-! ## runs -/

section
variable {P : Type} {parseMessage : P → List UInt8 → Option P} {wsize rsize : Nat}

theorem valid_socketPeer (c : Awaiting × P) : ((socketPeer parseMessage).request c).Valid := by
  obtain ⟨a, p⟩ := c
  cases a with
  | msgLength => exact Nat.succ_pos 3
  | msg n hn => exact Nat.pos_of_ne_zero hn

theorem serves_socketPeer {c : Awaiting × P} {u : List UInt8} {n : Nat}
    (h : (requests rsize).serves ((socketPeer parseMessage).request c) u = some n) : 0 < n := by
  obtain ⟨a, p⟩ := c
  have hexactly : ∀ num, 0 < num → (if num ≤ rsize ∧ num ≤ u.length then some num else none) = some n → 0 < n := by
    intro num hnum h
    split at h
    · cases h
      exact hnum
    · cases h
  cases a with
  | msgLength => exact hexactly 4 (Nat.succ_pos 3) h
  | msg m hm => exact hexactly m (Nat.pos_of_ne_zero hm) h

/-- what every move preserves: the frames of what has been sent have been handed over or wait for that, and the
receiver does what the bytes that have been handed over say -/
structure Exchange.Flows (parseMessage : P → List UInt8 → Option P) (p : P) (x : Exchange wsize rsize P) : Prop where
  sends : Sends x.sender.wire.script
  outgoing : x.sender.outgoing = (x.sent.map frame).flatten
  short : ∀ m ∈ x.sent, m.length ≤ uint32Max
  good : Good (socketPeer parseMessage) (.msgLength, p) x.sender.wire.accepted x.receiver
  traced : Traced (socketPeer parseMessage) (.msgLength, p) x.receiver

theorem flows_step {p : P} {x : Exchange wsize rsize P} (hx : x.Flows parseMessage p) {move : Move}
    (hmove : x.Allowed move) : ∃ y, exchangeStep parseMessage x move = some y ∧ y.Flows parseMessage p := by
  cases move with
  | send op =>
    obtain ⟨ok, sender, hexec, hout⟩ := (keepsFraming_iff hx.sends op).mpr hmove
    have hstep : stepPeer x.sender op = some sender := congrArg (fun r => r.map Prod.snd) hexec
    have hsends : Sends sender.wire.script := sends_stepPeer hx.sends hstep
    obtain ⟨more, hmore⟩ := accepted_execPeer hexec
    have hdrop : sender.wire.accepted.drop x.sender.wire.accepted.length = more := by rw [← hmore, List.drop_left]
    have hgood := hx.good.arrive more
    rw [hmore] at hgood
    refine ⟨_, congrArg (Option.map _) hexec, ?_⟩
    refine { sends := hsends, outgoing := ?_, short := ?_, good := ?_, traced := hx.traced }
    · show sender.outgoing = ((x.sent ++ sentBy op ok).map frame).flatten
      rw [hout, hx.outgoing, List.map_append, List.flatten_append, frames_sentBy]
    · intro m hm
      rcases List.mem_append.mp hm with hm | hm
      · exact hx.short m hm
      · exact sentBy_short hexec m hm
    · show Good _ _ sender.wire.accepted (x.receiver.arrive (sender.wire.accepted.drop x.sender.wire.accepted.length))
      rwa [hdrop]
  | wake script =>
    have hresume : Good (socketPeer parseMessage) (.msgLength, p) x.sender.wire.accepted (x.receiver.resume script) :=
      ⟨hmove, hx.good.2⟩
    have htraced : Traced (socketPeer parseMessage) (.msgLength, p) (x.receiver.resume script) := hx.traced
    obtain ⟨receiver, hread, hgood⟩ := good_readFunction valid_socketPeer hresume
    refine ⟨_, congrArg (Option.map _) hread, ?_⟩
    exact { hx with good := hgood, traced := traced_readFunction htraced hread }

theorem flows_run {p : P} {moves : List Move} : ∀ {x : Exchange wsize rsize P}, x.Flows parseMessage p →
    Along (exchangeStep parseMessage) Exchange.Allowed x moves →
    ∃ y, Stateful.run (exchangeStep parseMessage) x moves = some y ∧ y.Flows parseMessage p := by
  induction moves with
  | nil => exact fun hx _ => ⟨_, rfl, hx⟩
  | cons move moves ih =>
    intro x hx h
    obtain ⟨y, hstep, hy⟩ := flows_step hx h.1
    obtain ⟨z, hrun, hz⟩ := ih hy (h.2 y hstep)
    refine ⟨z, ?_, hz⟩
    rw [Stateful.run_cons, hstep]
    exact hrun

theorem flows_start (memory : Vector UInt8 rsize) {script : List Send} (hs : Sends script) (p : P) :
    ∃ x : Exchange wsize rsize P, exchangeStart parseMessage memory script p = some x ∧ x.Flows parseMessage p := by
  have hdivides : Divides [] := fun r hr => by cases hr
  obtain ⟨receiver, hrun, hgood⟩ : ∃ s, run (socketPeer parseMessage) memory ⟨[], []⟩ (.msgLength, p) 0 = some s ∧
      Good (socketPeer parseMessage) (.msgLength, p) [] s := good_run valid_socketPeer memory hdivides 0
  have htraced : Traced (socketPeer parseMessage) (.msgLength, p) receiver := by
    have hread : readFunction (socketPeer parseMessage)
        (⟨initReadBuffer memory, ⟨[], []⟩, (.msgLength, p), [], .reading⟩ : State rsize _) = some receiver := by
      unfold run wakeUps at hrun
      rwa [show wakeUps (socketPeer parseMessage) 0 = some from rfl, Option.bind_fun_some] at hrun
    exact traced_readFunction (fun _ => rfl) hread
  refine ⟨_, congrArg (Option.map _) hrun, ?_⟩
  exact { sends := hs, outgoing := rfl, short := fun m hm => (by cases hm), good := hgood, traced := htraced }

/-- What the receiver has been given is what it should be given of the messages sent, as far as it goes. -/
theorem Exchange.Flows.given_prefix (hsize : 4 ≤ rsize) {p : P} {x : Exchange wsize rsize P}
    (h : x.Flows parseMessage p) : x.given <+: (deliver parseMessage rsize p x.sent).1 := by
  have houtgoing : x.sender.wire.accepted ++ x.sender.buffer.pending = (x.sent.map frame).flatten := h.outgoing
  obtain ⟨-, ⟨-, ⟨arrived, hstream, hcons⟩, -⟩ | ⟨e, he, -, hcons⟩⟩ := h.good
  · obtain ⟨log, e, hlog⟩ := Consumes.exists (J := requests rsize) (K := socketPeer parseMessage)
      (fun _ _ _ => serves_socketPeer) x.receiver.context
      (x.receiver.buffer.unread ++ (x.receiver.socket.stream ++ x.sender.buffer.pending))
    have hall := hcons _ _ _ hlog
    rw [← List.append_assoc, ← hstream, houtgoing] at hall
    rw [← (consumes_frames hsize h.short hall).1]
    exact messagesIn_prefix x.receiver.log log .msgLength
  · have hall := hcons.append he x.sender.buffer.pending
    rw [houtgoing] at hall
    rw [← (consumes_frames hsize h.short hall).1]
    exact List.prefix_rfl

theorem waiting_of_reading {e : Ending} (h : statusOf e = .reading) : e = .waiting := by
  cases e with
  | waiting => rfl
  | refused => cases h
  | closed => cases h

/-- Once nothing is under way the receiver has been given all of it. -/
theorem Exchange.Flows.settled (hsize : 4 ≤ rsize) {p : P} {x : Exchange wsize rsize P} (h : x.Flows parseMessage p)
    (hsettled : x.Settled) :
    x.given = (deliver parseMessage rsize p x.sent).1 ∧
      x.receiver.status = statusOf (deliver parseMessage rsize p x.sent).2.1 ∧
      (x.receiver.status = .reading → x.receiver.context.2 = (deliver parseMessage rsize p x.sent).2.2) := by
  obtain ⟨hempty, hcomplete⟩ := hsettled
  obtain ⟨e, hstatus, hcons⟩ := h.good.consumes hcomplete
  have houtgoing : x.sender.wire.accepted ++ x.sender.buffer.pending = (x.sent.map frame).flatten := h.outgoing
  rw [hempty, List.append_nil] at houtgoing
  rw [houtgoing] at hcons
  obtain ⟨hmessages, hending⟩ := consumes_frames hsize h.short hcons
  rw [hending] at hstatus
  refine ⟨hmessages, hstatus, fun hreading => ?_⟩
  have hwaiting := waiting_of_reading (hstatus.symm.trans hreading)
  have hpeer := foldlM_messagesIn (h.traced hreading)
  have hgiven : messagesIn .msgLength x.receiver.log = (deliver parseMessage rsize p x.sent).1 := hmessages
  rw [hgiven, foldlM_deliver hwaiting] at hpeer
  exact (Option.some.inj hpeer).symm

/-- **Messages come out as they have been sent**: however the sender's writes and the receiver's reads divide the
stream and in whatever order they happen, `parse_message` is given the messages that have been sent, in this order,
up to the first one that it refuses or that is too long; when nothing is under way any more it has been given all of
these, and the peer is the one that they make. -/
theorem exchange_delivers (hsize : 4 ≤ rsize) (memory : Vector UInt8 rsize) {script : List Send} (hs : Sends script)
    (p : P) {moves : List Move}
    (hmoves : ∀ x₀ : Exchange wsize rsize P, exchangeStart parseMessage memory script p = some x₀ →
      Along (exchangeStep parseMessage) Exchange.Allowed x₀ moves) :
    ∃ x : Exchange wsize rsize P, exchangeRun parseMessage memory script p moves = some x ∧
      x.given <+: (deliver parseMessage rsize p x.sent).1 ∧
      x.given <+: x.sent.filter (fun m => !m.isEmpty) ∧
      (x.Settled → x.given = (deliver parseMessage rsize p x.sent).1 ∧
        x.receiver.status = statusOf (deliver parseMessage rsize p x.sent).2.1 ∧
        (x.receiver.status = .reading → x.receiver.context.2 = (deliver parseMessage rsize p x.sent).2.2)) := by
  obtain ⟨x₀, hstart, hx₀⟩ : ∃ x₀ : Exchange wsize rsize P,
      exchangeStart parseMessage memory script p = some x₀ ∧ x₀.Flows parseMessage p := flows_start memory hs p
  obtain ⟨x, hrun, hx⟩ := flows_run hx₀ (hmoves x₀ hstart)
  have hgiven := hx.given_prefix hsize
  refine ⟨x, ?_, hgiven, hgiven.trans deliver_prefix, hx.settled hsize⟩
  unfold exchangeRun
  rw [hstart]
  exact hrun

end

/-! ## a message in two parts -/

instance (r : Recv) : Decidable (r = .wouldBlock ∨ ∃ n, r = .bytes n) :=
  match r with
  | .bytes n => .isTrue (Or.inr ⟨n, rfl⟩)
  | .wouldBlock => .isTrue (Or.inl rfl)
  | .closed => .isFalse fun h => h.elim (fun h => by cases h) fun ⟨_, h⟩ => by cases h
  | .error => .isFalse fun h => h.elim (fun h => by cases h) fun ⟨_, h⟩ => by cases h

instance (script : List Recv) : Decidable (Divides script) :=
  inferInstanceAs (Decidable (∀ r ∈ script, r = .wouldBlock ∨ ∃ n, r = .bytes n))

instance {size : Nat} (s : Writer size) : (op : PeerOp) → Decidable (LeavesPart s op)
  | .sendMessage _ => inferInstanceAs (Decidable (_ ∧ _ ∧ _))
  | .writable => inferInstanceAs (Decidable False)

instance {wsize rsize : Nat} {P : Type} (x : Exchange wsize rsize P) : (move : Move) → Decidable (x.Allowed move)
  | .send op => inferInstanceAs (Decidable (¬ LeavesPart x.sender op))
  | .wake script => inferInstanceAs (Decidable (Divides script))

/-- a peer that collects its messages -/
def collect (p : List (List UInt8)) (message : List UInt8) : Option (List (List UInt8)) := some (p ++ [message])

/-- The reader has three bytes of the length while the rest waits in the write buffer. -/
def halves : List Move := [.send (.sendMessage [7, 8]), .wake [.bytes 9], .send .writable, .wake [.bytes 9]]

theorem exchange_delivers_halves : ∃ x : Exchange 8 8 (List (List UInt8)),
    exchangeRun collect (Vector.replicate 8 0) [.takes 2, .wouldBlock, .takes 9] [] halves = some x ∧
      x.given <+: (deliver collect 8 [] x.sent).1 ∧
      x.given <+: x.sent.filter (fun m => !m.isEmpty) ∧
      (x.Settled → x.given = (deliver collect 8 [] x.sent).1 ∧
        x.receiver.status = statusOf (deliver collect 8 [] x.sent).2.1 ∧
        (x.receiver.status = .reading → x.receiver.context.2 = (deliver collect 8 [] x.sent).2.2)) := by
  have hcheck : (exchangeStart collect (Vector.replicate 8 0) [.takes 2, .wouldBlock, .takes 9] []).all
      (fun x : Exchange 8 8 (List (List UInt8)) =>
        checkAlong (exchangeStep collect) (fun x move => decide (x.Allowed move)) x halves) = true := by
    decide +kernel
  refine exchange_delivers (by decide) _ (by simp [Sends]) [] fun x₀ hstart => ?_
  rw [hstart] at hcheck
  exact Along.of_check (fun x move h => of_decide_eq_true h) hcheck

end BufferedSocket
end Cjet
