import Cjet.Io.Reading
import Cjet.Ws.Sending
import Cjet.Ws.Installed

/-!
# Frames in the stream

The callbacks of a websocket are a consumer of what the buffered socket reads.

* `Reading`, `receiveChain`   the websocket and the part that it waits for;
* `Feeds`, `consumes_feeds`   parts of the lengths that are asked for, one after the other;
* `sendFrame_received`        the bytes of `send_frame` come out as the frame that went in.
-/

set_option linter.unusedVariables false

namespace Cjet
open Stateful BufferedSocket

namespace Websocket

/-! ## no callback asks for nothing -/

/-- what is asked for has at least one byte -/
def Asks (m : Prog Websocket (Option Part)) : Prop := ∀ s next t, m s = some (some next, t) → 0 < next.count

theorem Asks.bind {α : Type} {m : Prog Websocket α} {f : α → Prog Websocket (Option Part)} (h : ∀ a, Asks (f a)) :
    Asks (m >>= f) := by
  intro s next t hs
  obtain ⟨a, u, _, hf⟩ := Prog.bind_some hs
  exact h a u next t hf

theorem Asks.ite {c : Prop} [Decidable c] {m n : Prog Websocket (Option Part)} (hm : c → Asks m) (hn : Asks n) :
    Asks (if c then m else n) := by
  by_cases h : c
  · rw [if_pos h]
    exact hm h
  · rw [if_neg h]
    exact hn

theorem asks_none : Asks (pure none) := fun s next t h => nomatch (Prog.pure_some h).1

theorem asks_some {part : Part} (h : 0 < part.count) : Asks (pure (some part)) := by
  intro s next t hs
  obtain ⟨hnext, _⟩ := Prog.pure_some hs
  cases hnext
  exact h

section
variable (w : World)

theorem asks_goAway : Asks (goAway w) := Asks.bind fun _ => asks_none

theorem asks_wsGetPayload (buf : List UInt8) : Asks (wsGetPayload w buf) := by
  unfold wsGetPayload
  refine Asks.bind fun s => Asks.ite (fun _ => asks_goAway w) (Asks.ite (fun _ => Asks.bind fun _ => asks_none) ?_)
  refine Asks.bind fun ret => ?_
  cases ret with
  | ok => exact asks_some Nat.zero_lt_one
  | closed => exact asks_none
  | error => exact Asks.bind fun _ => asks_none

theorem asks_readPayload : Asks (readPayload w) :=
  Asks.bind fun length => Asks.ite (fun h => asks_some h) (asks_wsGetPayload w [])

theorem asks_readMaskOrPayload : Asks (readMaskOrPayload w) :=
  Asks.bind fun maskFlag => Asks.ite (fun _ => asks_some (Nat.succ_pos 3)) (asks_readPayload w)

theorem asks_wsGetLength (buf : List UInt8) : Asks (wsGetLength w buf) :=
  Asks.ite (fun _ => asks_goAway w) (Asks.bind fun _ => asks_readMaskOrPayload w)

theorem asks_callback (part : Part) (bytes : List UInt8) : Asks (callback w part bytes) := by
  cases part with
  | header =>
    cases bytes with
    | nil => exact asks_goAway w
    | cons field _ => exact Asks.bind fun _ => asks_some Nat.zero_lt_one
  | firstLength =>
    cases bytes with
    | nil => exact asks_goAway w
    | cons field _ =>
      refine Asks.bind fun _ => Asks.ite (fun _ => Asks.bind fun _ => asks_readMaskOrPayload w) ?_
      exact Asks.ite (fun _ => asks_some Nat.two_pos) (asks_some (Nat.succ_pos 7))
  | length16 => exact asks_wsGetLength w bytes
  | length64 => exact asks_wsGetLength w bytes
  | mask =>
    show Asks (wsGetMask w bytes)
    unfold wsGetMask
    by_cases h : bytes.length = 4
    · rw [dif_pos h]
      exact Asks.bind fun _ => asks_readPayload w
    · rw [dif_neg h]
      exact asks_goAway w
  | payload length => exact asks_wsGetPayload w bytes

/-! ## the callbacks as a consumer -/

/-- a websocket, and what it has asked the buffered socket for -/
structure Reading where
  ws : Websocket
  next : Part
  asks : 0 < next.count

/-- a websocket that waits for a frame -/
def atHeader (s : Websocket) : Reading := { ws := s, next := .header, asks := Nat.zero_lt_one }

def receiveChain : Consumer Reading BufferedSocket.Request UInt8 where
  request c := .readExactly c.next.count
  callback c bytes :=
    match h : callback w c.next bytes c.ws with
    | some (some next, ws) => some { ws := ws, next := next, asks := asks_callback w c.next bytes c.ws next ws h }
    | _ => none

/-- The buffered socket calls the chain for what the stream decides, in whatever reads it arrives. -/
theorem valid_receiveChain (c : Reading) : ((receiveChain w).request c).Valid := c.asks

variable {w} {s t : Websocket} {part next : Part} {bytes : List UInt8} {parts : List (List UInt8)}

theorem receiveChain_eq_some {hask : 0 < part.count} {c : Reading} :
    (receiveChain w).callback ⟨s, part, hask⟩ bytes = some c ↔ callback w part bytes s = some (some c.next, c.ws) := by
  unfold receiveChain
  dsimp only
  split
  · rename_i next t h
    constructor
    · intro hc
      cases hc
      exact h
    · intro hc
      obtain ⟨ws, next', hask'⟩ := c
      cases h.symm.trans hc
      rfl
  · rename_i hnone
    exact iff_of_false (Option.some_ne_none c).symm fun h => hnone c.next c.ws h

theorem receiveChain_goesOn (hask : 0 < part.count) (h : callback w part bytes s = some (some next, t)) :
    (receiveChain w).callback ⟨s, part, hask⟩ bytes = some ⟨t, next, asks_callback w part bytes s next t h⟩ :=
  receiveChain_eq_some.mpr h

theorem receiveChain_eq_none {hask : 0 < part.count} :
    (receiveChain w).callback ⟨s, part, hask⟩ bytes = none ↔ ∀ next t, callback w part bytes s
    ≠ some (some next, t) := by
  constructor
  · intro h next t hnext
    have hc := receiveChain_goesOn hask hnext
    rw [h] at hc
    cases hc
  · intro h
    cases hc : (receiveChain w).callback ⟨s, part, hask⟩ bytes with
    | none => rfl
    | some c => exact absurd (receiveChain_eq_some.mp hc) (h c.next c.ws)

/-! ## the parts of a frame -/

variable (w) in
/-- Each part has the length that is asked for, and behind all but the last there is a request. -/
inductive Feeds : Part → List (List UInt8) → Websocket → Prop where
  | last {part : Part} {bytes : List UInt8} {s : Websocket} (hcount : bytes.length = part.count) : Feeds part [bytes] s
  | cons {part next : Part} {bytes : List UInt8} {parts : List (List UInt8)} {s t : Websocket}
      (hcount : bytes.length = part.count) (hnext : callback w part bytes s = some (some next, t))
      (hparts : Feeds next parts t) : Feeds part (bytes :: parts) s

/-- behind a callback that asks for the payload -/
theorem feeds_readPayload {f : Frame} (hcount : bytes.length = part.count)
    (hread : callback w part bytes s = readPayload w t) (hlength : t.length = f.payload.length) :
    Feeds w part (bytes :: if f.payload = [] then [] else [f.wirePayload]) s := by
  by_cases hempty : f.payload = []
  · rw [if_pos hempty]
    exact .last hcount
  · have hpos : 0 < t.length := by
      rw [hlength]
      exact List.length_pos_iff.mpr hempty
    rw [if_neg hempty]
    exact .cons hcount (hread.trans (readPayload_some w hpos)) (.last (by rw [length_wirePayload, ← hlength]; rfl))

/-- behind a callback that asks for what follows the length -/
theorem feeds_readMaskOrPayload {f : Frame} (hcount : bytes.length = part.count)
    (hread : callback w part bytes s = readMaskOrPayload w t) (hmask : t.maskFlag = f.mask.isSome)
    (hlength : t.length = f.payload.length) : Feeds w part (bytes :: f.rest) s := by
  unfold Frame.rest
  cases hm : f.mask with
  | none =>
    rw [hm] at hmask
    exact feeds_readPayload hcount (hread.trans (readMaskOrPayload_unmasked w hmask)) hlength
  | some mask =>
    rw [hm] at hmask
    exact .cons hcount (hread.trans (readMaskOrPayload_masked w hmask))
      (feeds_readPayload mask.length_toList (wsGetMask_toList w t mask) hlength)

theorem feeds_frame (f : Frame) (s : Websocket) : Feeds w .header f.parts s := by
  have hlt := f.length_lt
  rw [parts_eq]
  refine .cons rfl (wsGetHeader_firstByte w s f.fin f.rsv f.opcode) ?_
  cases hformat : f.format with
  | short =>
    rw [hformat] at hlt
    have hshort : f.payload.length < 126 := hlt
    refine feeds_readMaskOrPayload (f := f) rfl ?_ rfl rfl
      (t := { s with
        fin := f.fin, rsv := f.rsv, opcode := f.opcode, maskFlag := f.mask.isSome, length := f.payload.length })
    show wsGetFirstLength w [secondByte f.mask.isSome (UInt8.ofNat f.payload.length)] _ = _
    rw [wsGetFirstLength_secondByte w _ f.mask.isSome (by omega), if_pos hshort]
  | medium =>
    rw [hformat] at hlt
    refine .cons rfl (wsGetFirstLength_secondByte w _ f.mask.isSome (n := 126) (by omega)) ?_
    exact feeds_readMaskOrPayload (length_bytesBE 2 _)
      (wsGetLength_bytesBE w (n := 2) (by omega) (show f.payload.length < 256 ^ 2 from hlt)) rfl rfl
  | long =>
    rw [hformat] at hlt
    refine .cons rfl (wsGetFirstLength_secondByte w _ f.mask.isSome (n := 127) (by omega)) ?_
    exact feeds_readMaskOrPayload (length_bytesBE 8 _)
      (wsGetLength_bytesBE w (n := 8) (by omega) (show f.payload.length < 256 ^ 8 from hlt)) rfl rfl

variable (w) in
theorem serves_part {size : Nat} {c : Reading} (hcount : bytes.length = c.next.count) (hsize : bytes.length ≤ size)
    (rest : List UInt8) : (requests size).serves ((receiveChain w).request c) (bytes ++ rest) = some c.next.count := by
  show (if c.next.count ≤ size ∧ c.next.count ≤ (bytes ++ rest).length then some c.next.count else none) = _
  rw [if_pos]
  rw [List.length_append]
  omega

/-- Parts that fit into the read buffer are handed on one after the other, and what follows them is left. -/
theorem consumes_feeds {size : Nat} (h : Feeds w part parts s) (hask : 0 < part.count)
    (hsize : ∀ bytes ∈ parts, bytes.length ≤ size) (rest : List UInt8) {log : List (List UInt8)} {e : Ending} :
    Consumes (requests size) (receiveChain w) ⟨s, part, hask⟩ (parts.flatten ++ rest) log e ↔
      ((∀ next t, deliver w part parts s ≠ some (some next, t)) ∧ log = parts ∧ e = .closed) ∨
        ∃ c log', deliver w part parts s = some (some c.next, c.ws) ∧ log = parts ++ log'
          ∧ Consumes (requests size) (receiveChain w) c rest log' e := by
  induction h generalizing log with
  | @last part bytes s hcount =>
    have hserves := serves_part w (c := ⟨s, part, hask⟩) hcount (hsize bytes (List.mem_singleton_self bytes)) rest
    have hdeliver : deliver w part [bytes] s = callback w part bytes s := by
      rw [deliver_cons, andDeliver_nil]
    rw [List.flatten_singleton, consumes_served hserves, hdeliver, List.take_left' hcount, List.drop_left' hcount,
      receiveChain_eq_none]
    refine or_congr_right (exists_congr fun c => exists_congr fun log' => ?_)
    rw [receiveChain_eq_some]
    rfl
  | @cons part next bytes parts s t hcount hnext hparts ih =>
    have hserves := serves_part w (c := ⟨s, part, hask⟩) hcount (hsize bytes List.mem_cons_self) (parts.flatten ++ rest)
    have hdeliver : deliver w part (bytes :: parts) s = deliver w next parts t := by
      rw [deliver_cons, andDeliver_some w parts hnext]
    have hcall := receiveChain_goesOn hask hnext
    have hparts' := fun log => @ih (asks_callback w part bytes s next t hnext)
      (fun bytes hbytes => hsize bytes (List.mem_cons_of_mem _ hbytes)) log
    rw [List.flatten_cons, List.append_assoc, consumes_served hserves, hdeliver, List.take_left' hcount,
      List.drop_left' hcount, hcall]
    constructor
    · rintro (⟨h1, _, _⟩ | ⟨c, log', h1, rfl, h2⟩)
      · cases h1
      · cases h1
        rcases (hparts' log').mp h2 with ⟨h3, rfl, rfl⟩ | ⟨c, log'', h3, rfl, h4⟩
        · exact Or.inl ⟨h3, rfl, rfl⟩
        · exact Or.inr ⟨c, log'', h3, rfl, h4⟩
    · rintro (⟨h1, rfl, rfl⟩ | ⟨c, log', h1, rfl, h2⟩)
      · exact Or.inr ⟨_, parts, rfl, rfl, (hparts' parts).mpr (Or.inl ⟨h1, rfl, rfl⟩)⟩
      · exact Or.inr ⟨_, parts ++ log', rfl, rfl, (hparts' (parts ++ log')).mpr (Or.inr ⟨c, log', h1, rfl, h2⟩)⟩

end

/-! ## what comes out -/

/-- The bytes `written` reach `ws_handle_frame` as a frame with this opcode and payload in the state `t`, and the
next header is read behind them. -/
structure Received (w : World) (size : Nat) (s : Websocket) (opcode : BitVec 4) (payload written : List UInt8)
    (parts : List (List UInt8)) (t : Websocket) : Prop where
  fin : t.fin = true
  rsv : t.rsv = 0
  opcode : t.opcode = opcode
  /-- nothing else than the fields of the frame has changed -/
  others : { t with fin := s.fin, rsv := s.rsv, opcode := s.opcode, maskFlag := s.maskFlag, length := s.length,
                    mask := s.mask } = s
  bytes : parts.flatten = written
  handled : deliver w .header parts s = (wsHandleFrame w payload t).bind fun r => settle w r.1 r.2
  continues : ∀ rest log e, Consumes (requests size) (receiveChain w) (atHeader s) (written ++ rest) log e ↔
    ((∀ t', wsHandleFrame w payload t ≠ some (.ok, t')) ∧ log = parts ∧ e = .closed) ∨
      ∃ t' log', wsHandleFrame w payload t = some (.ok, t') ∧ log = parts ++ log'
        ∧ Consumes (requests size) (receiveChain w) (atHeader t') rest log' e

def ComesOut (w : World) (size : Nat) (s : Websocket) (opcode : BitVec 4) (payload written : List UInt8) : Prop :=
  ∃ parts t, Received w size s opcode payload written parts t

section
variable (w : World) {s : Websocket} {size : Nat}

/-- Reading goes on behind a frame that was handled well, and only there. -/
theorem bind_settle_some {m : Option (CallbackReturn × Websocket)} {next : Part} {t : Websocket} :
    (m.bind fun r => settle w r.1 r.2) = some (some next, t) ↔ m = some (.ok, t) ∧ next = .header := by
  constructor
  · intro h
    obtain ⟨⟨ret, u⟩, hm, hsettle⟩ := Option.bind_eq_some_iff.mp h
    cases ret with
    | ok =>
      cases hsettle
      exact ⟨hm, rfl⟩
    | closed => exact nomatch (Prog.pure_some hsettle).1
    | error =>
      obtain ⟨_, _, _, hnone⟩ := Prog.bind_some hsettle
      exact nomatch (Prog.pure_some hnone).1
  · rintro ⟨rfl, rfl⟩
    rfl

theorem parts_fit {f : Frame} (hformat : f.format = formatOf f.payload.length) (hlen : f.payload.length ≤ size)
    (hone : 1 ≤ size) (hmask : f.mask.isSome = true → 4 ≤ size) : ∀ bytes ∈ f.parts, bytes.length ≤ size := by
  have hlength : ∀ bytes ∈ (lengthBytes f.payload.length f.format).2, bytes.length ≤ size := by
    rw [hformat]
    unfold formatOf
    by_cases hshort : f.payload.length < 126
    · rw [if_pos hshort]
      exact List.forall_mem_nil _
    rw [if_neg hshort]
    by_cases hmedium : f.payload.length < 65536
    · rw [if_pos hmedium]
      refine List.forall_mem_singleton.mpr ?_
      rw [length_bytesBE]
      omega
    · rw [if_neg hmedium]
      refine List.forall_mem_singleton.mpr ?_
      rw [length_bytesBE]
      omega
  have hrest : ∀ bytes ∈ f.rest, bytes.length ≤ size := by
    unfold Frame.rest
    refine List.forall_mem_append.mpr ⟨?_, ?_⟩
    · cases hm : f.mask with
      | none => exact List.forall_mem_nil _
      | some mask =>
        refine List.forall_mem_singleton.mpr ?_
        rw [mask.length_toList]
        exact hmask (by rw [hm]; rfl)
    · by_cases hempty : f.payload = []
      · rw [if_pos hempty]
        exact List.forall_mem_nil _
      · rw [if_neg hempty]
        refine List.forall_mem_singleton.mpr ?_
        rw [length_wirePayload]
        exact hlen
  rw [parts_eq]
  refine List.forall_mem_cons.mpr ⟨hone, List.forall_mem_cons.mpr ⟨hone, ?_⟩⟩
  exact List.forall_mem_append.mpr ⟨hlength, hrest⟩

theorem received_sentFrame (opcode : BitVec 4) (mask : Option (Vector UInt8 4)) (payload : List UInt8)
    (h : payload.length < 18446744073709551616) (hserver : s.isServer = mask.isSome) (hlen : payload.length ≤ size)
    (hone : 1 ≤ size) (hmask : mask.isSome = true → 4 ≤ size) :
    Received w size s opcode payload (sentFrame opcode mask payload h).bytes (sentFrame opcode mask payload h).parts
      (framed s (sentFrame opcode mask payload h)) := by
  have hdeliver : deliver w .header (sentFrame opcode mask payload h).parts s
      = (wsHandleFrame w payload (framed s (sentFrame opcode mask payload h))).bind fun r => settle w r.1 r.2 := by
    refine (receive_eq w (sentFrame opcode mask payload h) s).trans (handlePayload_masked w payload ?_)
    rintro ⟨h1, h2⟩
    have h1 : s.isServer = true := h1
    have h2 : mask.isSome = false := h2
    rw [hserver, h2] at h1
    cases h1
  refine ⟨rfl, rfl, rfl, rfl, rfl, hdeliver, fun rest log e => ?_⟩
  refine (consumes_feeds (feeds_frame _ s) Nat.zero_lt_one (parts_fit rfl hlen hone hmask) rest).trans ?_
  rw [hdeliver]
  refine or_congr (and_congr_left' ⟨fun hnone t' ht' => ?_, fun hnone next t' ht' => ?_⟩) ⟨?_, ?_⟩
  · exact hnone .header t' ((bind_settle_some w).mpr ⟨ht', rfl⟩)
  · exact hnone t' ((bind_settle_some w).mp ht').1
  · rintro ⟨⟨t', next, hask⟩, log', hsome, hlog, hrest⟩
    obtain ⟨hok, rfl⟩ := (bind_settle_some w).mp hsome
    exact ⟨t', log', hok, hlog, hrest⟩
  · rintro ⟨t', log', hok, hlog, hrest⟩
    exact ⟨atHeader t', log', (bind_settle_some w).mpr ⟨hok, rfl⟩, hlog, hrest⟩

/-- In whatever reads the bytes arrive, the callbacks get the parts of the frame first. -/
theorem Received.run_log {opcode : BitVec 4} {payload written : List UInt8} {parts : List (List UInt8)} {t : Websocket}
    (h : Received w size s opcode payload written parts t) (memory : Vector UInt8 size) (rest : List UInt8)
    {script : List Recv} (hscript : Divides script) (n : Nat) :
    ∃ st, run (receiveChain w) memory ⟨written ++ rest, script⟩ (atHeader s) n = some st
      ∧ (Complete st → parts <+: st.log) := by
  obtain ⟨st, hrun, hgood⟩ : ∃ st, run (receiveChain w) memory ⟨written ++ rest, script⟩ (atHeader s) n = some st
      ∧ Good (receiveChain w) (atHeader s) (written ++ rest) st := good_run (valid_receiveChain w) memory hscript n
  refine ⟨st, hrun, fun hcomplete => ?_⟩
  obtain ⟨e, _, hcons⟩ := hgood.consumes hcomplete
  rcases (h.continues rest st.log e).mp hcons with ⟨_, hlog, _⟩ | ⟨_, log', _, hlog, _⟩
  · rw [hlog]
  · rw [hlog]
    exact List.prefix_append parts log'

end

/-- **What one side sends without compression comes out at the other side**, if the read buffer holds the payload
and the parts of the header. -/
theorem sendFrame_received (v w : World) (x s : Websocket) (hsides : s.isServer = !x.isServer) (opcode : BitVec 4)
    (hplain : (x.accepted && decide (opcode < WS_CLOSE_FRAME)) = false) (payload : List UInt8) (size : Nat)
    (hword : size < 18446744073709551616) (hlen : payload.length ≤ size) (hone : 1 ≤ size)
    (hmask : s.isServer = true → 4 ≤ size) :
    ∃ ok buffer written, sendFrame v payload opcode x = some ((ok, buffer), x.logged [.writev written])
      ∧ ComesOut w size s opcode payload written := by
  have hlt : payload.length < 18446744073709551616 := Nat.lt_of_le_of_lt hlen hword
  have hserver : s.isServer = (sentMask v x).isSome := by
    rw [sentMask_isSome, hsides]
  obtain ⟨buffer, hsend⟩ := sendFrame_plain v x opcode payload hlt hplain
  refine ⟨_, buffer, _, hsend, _, _, received_sentFrame w opcode (sentMask v x) payload hlt hserver hlen hone ?_⟩
  rw [← hserver]
  exact hmask

theorem sendFrame_received_ping : ∃ ok buffer written,
    sendFrame peerWorld [104, 105] WS_PING_FRAME (upgraded false 0 false)
      = some ((ok, buffer), (upgraded false 0 false).logged [.writev written])
      ∧ ComesOut peerWorld 512 (upgraded true 0 false) WS_PING_FRAME [104, 105] written :=
  sendFrame_received peerWorld peerWorld (upgraded false 0 false) (upgraded true 0 false) rfl WS_PING_FRAME rfl
    [104, 105] 512 (by decide) (by decide) (by decide) fun _ => by decide

/-- A server with a read buffer of three bytes never gets the mask. -/
theorem short_buffer_refused : ∃ ok buffer written,
    sendFrame peerWorld [97] WS_TEXT_FRAME (upgraded false 0 false)
      = some ((ok, buffer), (upgraded false 0 false).logged [.writev written])
      ∧ ¬ ComesOut peerWorld 3 (upgraded true 0 false) WS_TEXT_FRAME [97] written := by
  refine ⟨true, [97], [129, 129, 0, 0, 0, 0, 97], rfl, ?_⟩
  rintro ⟨parts, t, h⟩
  have hfirst : (receiveChain peerWorld).callback (atHeader (upgraded true 0 false)) [129]
      = some ⟨{ upgraded true 0 false with fin := true, opcode := 1 }, .firstLength, Nat.zero_lt_one⟩ :=
    receiveChain_eq_some.mpr rfl
  have hsecond : (receiveChain peerWorld).callback
      ⟨{ upgraded true 0 false with fin := true, opcode := 1 }, .firstLength, Nat.zero_lt_one⟩ [129]
      = some ⟨{ upgraded true 0 false with fin := true, opcode := 1, maskFlag := true, length := 1 }, .mask,
        Nat.succ_pos 3⟩ :=
    receiveChain_eq_some.mpr rfl
  have hcons : Consumes (requests 3) (receiveChain peerWorld) (atHeader (upgraded true 0 false))
      ([129, 129, 0, 0, 0, 0, 97] ++ []) [[129], [129]] .refused :=
    .goesOn (n := 1) rfl hfirst (.goesOn (n := 1) rfl hsecond (.refuses (show 3 < 4 by decide)))
  rcases (h.continues [] _ _).mp hcons with ⟨_, _, hend⟩ | ⟨t', log', _, hlog, _⟩
  · cases hend
  · have hlength := congrArg (fun l => l.flatten.length) hlog
    have hlength : 2 = (parts ++ log').flatten.length := hlength
    rw [List.flatten_append, List.length_append, h.bytes] at hlength
    have h7 : [129, 129, 0, 0, 0, 0, (97 : UInt8)].length = 7 := rfl
    omega

end Websocket
end Cjet
