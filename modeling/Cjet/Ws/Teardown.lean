import Cjet.Ws.Acceptance

/-!
# How a websocket goes down

* `Arrival`           a frame, or the end of the stream within a frame;
* `SingleTeardown`    reading has stopped exactly if `websocket_close` was called, which is once at most, and one
                      of the callbacks `on_error` and `close_received` was called behind it;
* `teardown_iff`      this holds in all states of a run where no callback declines without effect (`Declines`) and
                      no close frame is answered behind the back of the application (`Unnoticed`).
-/

set_option linter.unusedVariables false

namespace Cjet
open Stateful

namespace Websocket

/-! ## the end of the stream -/

/-- what a server or a client gets: frames, and the end of the stream before part `k` of a frame -/
inductive Arrival where
  | frame (f : Frame)
  | hangup (f : Frame) (k : Fin f.parts.length)

def stepArrival (w : World) (c : Conn) : Arrival → Option Conn
  | .frame f => stepFrame w c f
  | .hangup f k =>
    if c.reading then
      (deliver w .header (f.parts.take k ++ [[]]) c.ws).map fun r => { ws := r.2, reading := r.1.isSome }
    else some c

section
variable (w : World)

/-- Wherever the parts end, the websocket goes away. -/
def Cut (part : Part) (parts : List (List UInt8)) (s : Websocket) : Prop :=
  ∀ k < parts.length, ∃ t, t.log = s.log ∧ t.upgradeComplete = s.upgradeComplete
    ∧ deliver w part (parts.take k ++ [[]]) s = goAway w t

variable {w} {s t : Websocket} {part next : Part} {bytes : List UInt8} {parts : List (List UInt8)}

theorem deliver_end (h : callback w part [] s = goAway w s) : deliver w part [[]] s = goAway w s := by
  rw [deliver_cons, andDeliver_nil, h]

theorem cut_last (h : callback w part [] s = goAway w s) : Cut w part [bytes] s := by
  intro k hk
  obtain rfl : k = 0 := Nat.lt_one_iff.mp hk
  exact ⟨s, rfl, rfl, deliver_end h⟩

theorem cut_cons (h : callback w part [] s = goAway w s) (hnext : callback w part bytes s = some (some next, t))
    (hlog : t.log = s.log) (hup : t.upgradeComplete = s.upgradeComplete) (hparts : Cut w next parts t) :
    Cut w part (bytes :: parts) s := by
  intro k hk
  cases k with
  | zero => exact ⟨s, rfl, rfl, deliver_end h⟩
  | succ k =>
    obtain ⟨u, hlog', hup', hdeliver⟩ := hparts k (Nat.lt_of_succ_lt_succ hk)
    refine ⟨u, hlog'.trans hlog, hup'.trans hup, ?_⟩
    rw [List.take_succ_cons, List.cons_append, deliver_cons, andDeliver_some w _ hnext]
    exact hdeliver

theorem cut_payload {n : Nat} (hlength : s.length ≠ 0) : Cut w (.payload n) [bytes] s := by
  refine cut_last ?_
  show wsGetPayload w [] s = goAway w s
  unfold wsGetPayload
  rw [Prog.bind_of_some (Prog.read_apply id s)]
  dsimp only [id]
  rw [if_pos ⟨rfl, hlength⟩]

/-- behind a callback that asks for the payload -/
theorem cut_readPayload {f : Frame} (h : callback w part [] s = goAway w s)
    (hread : callback w part bytes s = readPayload w t) (hlog : t.log = s.log)
    (hup : t.upgradeComplete = s.upgradeComplete) (hlength : t.length = f.payload.length) :
    Cut w part (bytes :: if f.payload = [] then [] else [f.wirePayload]) s := by
  by_cases hempty : f.payload = []
  · rw [if_pos hempty]
    exact cut_last h
  · have hpos : 0 < t.length := by
      rw [hlength]
      exact List.length_pos_iff.mpr hempty
    rw [if_neg hempty]
    exact cut_cons h (hread.trans (readPayload_some w hpos)) hlog hup (cut_payload (Nat.ne_of_gt hpos))

/-- behind a callback that asks for what follows the length -/
theorem cut_readMaskOrPayload {f : Frame} (h : callback w part [] s = goAway w s)
    (hread : callback w part bytes s = readMaskOrPayload w t) (hlog : t.log = s.log)
    (hup : t.upgradeComplete = s.upgradeComplete) (hmask : t.maskFlag = f.mask.isSome)
    (hlength : t.length = f.payload.length) : Cut w part (bytes :: f.rest) s := by
  unfold Frame.rest
  cases hm : f.mask with
  | none =>
    rw [hm] at hmask
    exact cut_readPayload h (hread.trans (readMaskOrPayload_unmasked w hmask)) hlog hup hlength
  | some mask =>
    rw [hm] at hmask
    have hgone : callback w .mask [] t = goAway w t := by
      show wsGetMask w [] t = _
      unfold wsGetMask
      rw [dif_neg (by decide)]
    exact cut_cons h (hread.trans (readMaskOrPayload_masked w hmask)) hlog hup
      (cut_readPayload hgone (wsGetMask_toList w t mask) rfl rfl hlength)

/-- a frame that ends early -/
theorem cut_frame (f : Frame) (s : Websocket) : Cut w .header f.parts s := by
  have hlt := f.length_lt
  rw [parts_eq]
  refine cut_cons rfl (wsGetHeader_firstByte w s f.fin f.rsv f.opcode) rfl rfl ?_
  have hnone : ∀ part : Part, part = .length16 ∨ part = .length64 → ∀ t, callback w part [] t = goAway w t := by
    rintro part (rfl | rfl) t
    · rfl
    · rfl
  cases hformat : f.format with
  | short =>
    rw [hformat] at hlt
    have hshort : f.payload.length < 126 := hlt
    refine cut_readMaskOrPayload (f := f) rfl ?_ rfl rfl rfl rfl
      (t := { s with
        fin := f.fin, rsv := f.rsv, opcode := f.opcode, maskFlag := f.mask.isSome, length := f.payload.length })
    show wsGetFirstLength w [secondByte f.mask.isSome (UInt8.ofNat f.payload.length)] _ = _
    rw [wsGetFirstLength_secondByte w _ f.mask.isSome (by omega), if_pos hshort]
  | medium =>
    rw [hformat] at hlt
    refine cut_cons rfl (wsGetFirstLength_secondByte w _ f.mask.isSome (n := 126) (by omega)) rfl rfl ?_
    exact cut_readMaskOrPayload (hnone _ (Or.inl rfl) _)
      (wsGetLength_bytesBE w (n := 2) (by omega) (show f.payload.length < 256 ^ 2 from hlt)) rfl rfl rfl rfl
  | long =>
    rw [hformat] at hlt
    refine cut_cons rfl (wsGetFirstLength_secondByte w _ f.mask.isSome (n := 127) (by omega)) rfl rfl ?_
    exact cut_readMaskOrPayload (hnone _ (Or.inr rfl) _)
      (wsGetLength_bytesBE w (n := 8) (by omega) (show f.payload.length < 256 ^ 8 from hlt)) rfl rfl rfl rfl

end

/-! ## going down once -/

def isClose : WsCall → Bool
  | .websocketClose _ => true
  | _ => false

/-- the callbacks that tell the application -/
def isNotice : WsCall → Bool
  | .onError => true
  | .close _ => true
  | _ => false

structure SingleTeardown (c : Conn) : Prop where
  stops : c.reading = false ↔ 0 < c.ws.log.countP isClose
  once : c.ws.log.countP isClose ≤ 1
  noticed : 0 < c.ws.log.countP isClose → (c.ws.log.dropWhile fun c => !isClose c).countP isNotice = 1

/-- The callback for binary data, a ping or a pong is called, and it returns `WS_CLOSED`. -/
inductive Declines (w : World) (s : Websocket) (f : Frame) : Role → Prop where
  | message {msg : List UInt8} (hinst : w.installed .binaryMessage = true)
      (hmsg : inflated w s (f.rsv != 0) f.payload = some msg)
      (hret : w.returns (s.log ++ [.binaryMessage msg]) = .closed) : Declines w s f (.message .binary)
  | fragment (hinst : w.installed .binaryFrame = true) (hplain : zipped s f = false)
      (hret : w.returns (s.log ++ [.binaryFrame f.payload f.fin]) = .closed) : Declines w s f (.fragment .binary)
  | unzipped {msg : List UInt8} (hinst : w.installed .binaryFrame = true)
    (hzip : zipped s f = true) (hfin : f.fin = true)
      (hre : w.reassembles s.log = true) (hmsg : w.decompress s.log (s.fragments ++ f.payload) = some msg)
      (hret : w.returns (s.log ++ [.binaryFrame msg f.fin]) = .closed) : Declines w s f (.fragment .binary)
  | ping {bytes buffer : List UInt8} (hshort : ¬ WS_SMALL_FRAME_SIZE < f.payload.length)
      (hsend : sendFrame w f.payload WS_PONG_FRAME (framed s f)
        = some ((true, buffer), (framed s f).logged [.writev bytes])) (hinst : w.installed .ping = true)
      (hret : w.returns (s.log ++ [.writev bytes, .ping buffer]) = .closed) : Declines w s f .ping
  | pong (hshort : ¬ WS_SMALL_FRAME_SIZE < f.payload.length) (hinst : w.installed .pong = true)
      (hret : w.returns (s.log ++ [.pong f.payload]) = .closed) : Declines w s f .pong

/-- A close frame is answered, and there is no callback for it. -/
def Unnoticed (w : World) (f : Frame) (r : Role) : Prop :=
  r = .close ∧ closeError f.payload = none ∧ w.installed .close = false

/-- the frames that take the websocket down only in part -/
def HalfClosed (w : World) (s : Websocket) (f : Frame) (role : Option Role) : Prop :=
  ¬ Unmasked s f ∧ ∃ r, role = some r ∧ (Declines w s f r ∨ Unnoticed w f r)

section
variable {w : World} {s t : Websocket} {f : Frame} {cur : Option DataType} {calls : List WsCall} {o : Outcome}
  {bytes : List UInt8}

theorem concluded_stall {isText : Bool} {ret : CallbackReturn} :
    concluded isText ret = .stall ↔ isText = false ∧ ret = .closed := by
  cases ret with
  | ok => exact iff_of_false Outcome.noConfusion fun h => CallbackReturn.noConfusion h.2
  | error => exact iff_of_false Outcome.noConfusion fun h => CallbackReturn.noConfusion h.2
  | closed =>
    cases isText with
    | true => exact iff_of_false Outcome.noConfusion fun h => Bool.noConfusion h.1
    | false => exact iff_of_true rfl ⟨rfl, rfl⟩

theorem ne_text_iff (type : DataType) : decide (type = .text) = false ↔ type = .binary := by
  cases type with
  | text => exact iff_of_false (by decide) DataType.noConfusion
  | binary => exact iff_of_true (by decide) rfl

/-- the handling stalls exactly where a callback declines -/
theorem acts_stall {r : Role} (h : Acts w s f r calls o) : o = .stall ↔ Declines w s f r := by
  constructor
  · intro ho
    cases h with
    | unsupported hinst => cases ho
    | @message type text hinst htext =>
      obtain ⟨htype, hret⟩ := concluded_stall.mp ho
      obtain rfl := (ne_text_iff type).mp htype
      exact Declines.message hinst htext hret
    | broken hinst htext => cases ho
    | @fragment type hinst hplain =>
      obtain ⟨htype, hret⟩ := concluded_stall.mp ho
      obtain rfl := (ne_text_iff type).mp htype
      exact Declines.fragment hinst hplain hret
    | @unzipped type text hinst hzip hfin hre htext =>
      obtain ⟨htype, hret⟩ := concluded_stall.mp ho
      obtain rfl := (ne_text_iff type).mp htype
      exact Declines.unzipped hinst hzip hfin hre htext hret
    | kept hzip hfin => cases ho
    | corrupt hzip hfail => cases ho
    | longPing hlong => cases ho
    | ping hshort hsend hinst => exact Declines.ping hshort hsend hinst (concluded_stall.mp ho).2
    | pingOnly hshort hsend hinst => cases ho
    | pingLost hshort hsend hwrites => cases ho
    | longPong hlong => cases ho
    | pong hshort hinst => exact Declines.pong hshort hinst (concluded_stall.mp ho).2
    | pongOnly hshort hinst => cases ho
    | closeError herror => cases ho
    | close herror => cases ho
  · intro hdeclines
    cases hdeclines with
    | message hinst hmsg hret =>
      cases h with
      | unsupported hinst' => exact absurd hinst (Bool.eq_false_iff.mp hinst')
      | message _ hmsg' =>
        obtain rfl := Option.some.inj (hmsg.symm.trans hmsg')
        exact concluded_stall.mpr ⟨rfl, hret⟩
      | broken _ hmsg' => cases hmsg.symm.trans hmsg'
    | fragment hinst hplain hret =>
      cases h with
      | fragment _ _ => exact concluded_stall.mpr ⟨rfl, hret⟩
      | unzipped _ hzip _ _ _ => cases hplain.symm.trans hzip
      | kept hzip _ => cases hplain.symm.trans hzip
      | corrupt hzip _ => cases hplain.symm.trans hzip
    | unzipped hinst hzip hfin hre hmsg hret =>
      cases h with
      | fragment _ hplain => cases hplain.symm.trans hzip
      | unzipped _ _ _ _ hmsg' =>
        obtain rfl := Option.some.inj (hmsg.symm.trans hmsg')
        exact concluded_stall.mpr ⟨rfl, hret⟩
      | kept _ hfin' => cases hfin.symm.trans hfin'
      | corrupt _ hfail =>
        rcases hfail with hre' | ⟨_, hmsg'⟩
        · cases hre.symm.trans hre'
        · cases hmsg.symm.trans hmsg'
    | ping hshort hsend hinst hret =>
      cases h with
      | longPing hlong => exact absurd hlong hshort
      | ping _ hsend' _ =>
        have heq := Option.some.inj (hsend.symm.trans hsend')
        have hbuffer := congrArg (fun r => r.1.2) heq
        have hbytes := WsCall.writev.inj (List.cons.inj (List.append_cancel_left (congrArg (fun r => r.2.log) heq))).1
        dsimp only at hbuffer
        rw [← hbuffer, ← hbytes]
        exact concluded_stall.mpr ⟨rfl, hret⟩
      | pingOnly _ _ hinst' => cases hinst.symm.trans hinst'
      | pingLost _ hsend' _ =>
        have heq := Option.some.inj (hsend.symm.trans hsend')
        have hok : true = false := congrArg (fun r => r.1.1) heq
        cases hok
    | pong hshort hinst hret =>
      cases h with
      | longPong hlong => exact absurd hlong hshort
      | pong _ _ => exact concluded_stall.mpr ⟨rfl, hret⟩
      | pongOnly _ hinst' => cases hinst.symm.trans hinst'

/-- a close frame is answered exactly where its content passes -/
theorem acts_bye {r : Role} (h : Acts w s f r calls o) : o = .bye ↔ r = .close ∧ closeError f.payload = none := by
  have hconcluded : ∀ isText ret, concluded isText ret ≠ .bye := by
    intro isText ret
    cases ret with
    | ok => exact Outcome.noConfusion
    | error => exact Outcome.noConfusion
    | closed => cases isText <;> exact Outcome.noConfusion
  cases h with
  | closeError herror =>
    refine iff_of_false Outcome.noConfusion fun h => ?_
    cases herror.symm.trans h.2
  | close herror => exact iff_of_true rfl ⟨rfl, herror⟩
  | message hinst htext => exact iff_of_false (hconcluded _ _) fun h => Role.noConfusion h.1
  | fragment hinst hplain => exact iff_of_false (hconcluded _ _) fun h => Role.noConfusion h.1
  | unzipped hinst hzip hfin hre htext => exact iff_of_false (hconcluded _ _) fun h => Role.noConfusion h.1
  | ping hshort hsend hinst => exact iff_of_false (hconcluded _ _) fun h => Role.noConfusion h.1
  | pong hshort hinst => exact iff_of_false (hconcluded _ _) fun h => Role.noConfusion h.1
  | _ => exact iff_of_false Outcome.noConfusion fun h => Role.noConfusion h.1

/-- how the handling of a frame leaves the websocket half closed -/
theorem responds_halfClosed (h : Responds w s cur f calls o) :
    HalfClosed w s f (f.role s.accepted cur) ↔ o = .stall ∨ (o = .bye ∧ w.installed .close = false) := by
  cases h with
  | unmasked h =>
    refine iff_of_false (fun hh => hh.1 h) fun hh => hh.elim Outcome.noConfusion fun h => Outcome.noConfusion h.1
  | refused h hrole =>
    refine iff_of_false ?_ fun hh => hh.elim Outcome.noConfusion fun h => Outcome.noConfusion h.1
    rintro ⟨_, r, hr, _⟩
    cases hrole.symm.trans hr
  | @acts r _ _ h hrole hacts =>
    have hstall := acts_stall hacts
    have hbye := acts_bye hacts
    constructor
    · rintro ⟨_, r', hr', hdeclines | ⟨hr, herror, hinst⟩⟩
      · obtain rfl := Option.some.inj (hrole.symm.trans hr')
        exact Or.inl (hstall.mpr hdeclines)
      · obtain rfl := Option.some.inj (hrole.symm.trans hr')
        exact Or.inr ⟨hbye.mpr ⟨hr, herror⟩, hinst⟩
    · rintro (ho | ⟨ho, hinst⟩)
      · exact ⟨h, r, hrole, Or.inl (hstall.mp ho)⟩
      · exact ⟨h, r, hrole, Or.inr ⟨(hbye.mp ho).1, (hbye.mp ho).2, hinst⟩⟩

/-! ## the run -/

/-- a connection that reads, with nothing torn down -/
structure Up (isServer accepted : Bool) (cur : Option DataType) (s : Websocket) : Prop where
  serves : Serves isServer accepted cur s
  quiet : ∀ c ∈ s.log, isTeardown c = false

theorem countP_quiet {p : WsCall → Bool} (hp : ∀ c, p c = true → isTeardown c = true) {l : List WsCall}
    (h : ∀ c ∈ l, isTeardown c = false) : l.countP p = 0 := by
  refine List.countP_eq_zero.mpr fun c hc hpc => ?_
  exact Bool.false_ne_true ((h c hc).symm.trans (hp c hpc))

theorem isClose_teardown (c : WsCall) (h : isClose c = true) : isTeardown c = true := by
  cases c with
  | websocketClose statusCode => rfl
  | _ => cases h

theorem single_of_quiet (h : ∀ c ∈ s.log, isTeardown c = false) (reading : Bool) :
    SingleTeardown { ws := s, reading := reading } ↔ reading = true := by
  have hzero := countP_quiet isClose_teardown h
  constructor
  · intro hs
    cases reading with
    | true => rfl
    | false =>
      have hpos := hs.stops.mp rfl
      rw [hzero] at hpos
      cases hpos
  · rintro rfl
    refine ⟨iff_of_false (fun h => Bool.noConfusion h) ?_, ?_, fun hpos => ?_⟩
    · rw [hzero]
      exact Nat.lt_irrefl 0
    · rw [hzero]
      exact Nat.zero_le 1
    · rw [hzero] at hpos
      cases hpos

/-- the last calls of a frame decide on the teardown -/
theorem single_of_calls {quiet last : List WsCall} (hquiet : ∀ c ∈ quiet, isTeardown c = false)
    (hlog : t.log = quiet ++ last) (hfirst : last.dropWhile (fun c => !isClose c) = last)
    (hclose : last.countP isClose = 1) :
    SingleTeardown { ws := t, reading := false } ↔ last.countP isNotice = 1 := by
  have hcount : t.log.countP isClose = 1 := by
    rw [hlog, List.countP_append, countP_quiet isClose_teardown hquiet, hclose]
  have hdrop : t.log.dropWhile (fun c => !isClose c) = last := by
    rw [hlog, List.dropWhile_append_of_pos ?_, hfirst]
    intro c hc
    cases hcc : isClose c with
    | false => rfl
    | true => cases (hquiet c hc).symm.trans (isClose_teardown c hcc)
  constructor
  · intro h
    have hnotice := h.noticed (by rw [hcount]; exact Nat.one_pos)
    rwa [hdrop] at hnotice
  · intro h
    refine ⟨iff_of_true rfl ?_, ?_, fun _ => ?_⟩
    · rw [hcount]
      exact Nat.one_pos
    · exact Nat.le_of_eq hcount
    · show (t.log.dropWhile _).countP isNotice = 1
      rw [hdrop, h]

theorem single_of_fail {quiet : List WsCall} (hquiet : ∀ c ∈ quiet, isTeardown c = false) (statusCode : Nat)
    (hlog : t.log = quiet ++ failCalls statusCode bytes) : SingleTeardown { ws := t, reading := false } :=
  (single_of_calls hquiet hlog rfl rfl).mpr rfl

theorem single_of_bye {quiet : List WsCall} (hquiet : ∀ c ∈ quiet, isTeardown c = false)
    (hlog : t.log = quiet ++ Outcome.bye.calls w f bytes) :
    SingleTeardown { ws := t, reading := false } ↔ w.installed .close = true := by
  have hcalls : Outcome.bye.calls w f bytes = [.websocketClose WS_CLOSE_NORMAL, .writev bytes, .freeConnection]
      ++ if w.installed .close then [.close (closeCode f.payload)] else [] := rfl
  cases hinst : w.installed .close with
  | true =>
    rw [hinst] at hcalls
    rw [hcalls] at hlog
    exact (single_of_calls hquiet hlog rfl rfl).trans (iff_of_true rfl rfl)
  | false =>
    rw [hinst] at hcalls
    rw [hcalls] at hlog
    have hnone : ([.websocketClose WS_CLOSE_NORMAL, .writev bytes, .freeConnection]
        ++ if false = true then [.close (closeCode f.payload)] else [] : List WsCall).countP isNotice = 0 := rfl
    refine (single_of_calls hquiet hlog rfl rfl).trans (iff_of_false (fun h => ?_) Bool.false_ne_true)
    exact Nat.zero_ne_one (hnone.symm.trans h)

end

def HalfClosedBy (w : World) (s : Websocket) : Arrival → Prop
  | .frame f => HalfClosed w s f (f.role s.accepted (openType s))
  | .hangup _ _ => False

/-- no callback declines without effect, and the application hears of every close frame that is answered -/
def NotHalfClosed (w : World) (c : Conn) (arrivals : List Arrival) : Prop :=
  Along (stepArrival w) (fun c a => c.reading = true → ¬ HalfClosedBy w c.ws a) c arrivals

section
variable {w : World} {s : Websocket} {cur : Option DataType} {isServer accepted : Bool}

/-- what one arrival does to a connection that reads -/
theorem step_up (hs : Up isServer accepted cur s) (a : Arrival) :
    (stepArrival w { ws := s, reading := true } a = none ∧ ¬ HalfClosedBy w s a)
      ∨ ∃ t reading, stepArrival w { ws := s, reading := true } a = some { ws := t, reading := reading }
        ∧ (reading = true → ¬ HalfClosedBy w s a ∧ ∃ cur', Up isServer accepted cur' t)
        ∧ (reading = false → (SingleTeardown { ws := t, reading := false } ↔ ¬ HalfClosedBy w s a)) := by
  cases a with
  | hangup f k =>
    obtain ⟨t, hlog, hup, hdeliver⟩ := cut_frame (w := w) f s k k.isLt
    obtain ⟨bytes, herror⟩ := handleError_apply w (hup.trans hs.serves.upgradeComplete) WS_CLOSE_GOING_AWAY
    have hgone : goAway w t = some (none, t.logged (failCalls WS_CLOSE_GOING_AWAY bytes)) := by
      unfold goAway
      rw [Prog.bind_of_some herror]
      rfl
    have hlog' : (t.logged (failCalls WS_CLOSE_GOING_AWAY bytes)).log
        = s.log ++ failCalls WS_CLOSE_GOING_AWAY bytes := by
      show t.log ++ _ = _
      rw [hlog]
    refine Or.inr ⟨t.logged (failCalls WS_CLOSE_GOING_AWAY bytes), false, ?_, nofun, fun _ => ?_⟩
    · unfold stepArrival
      dsimp only
      rw [if_pos rfl, hdeliver, hgone]
      rfl
    · exact iff_of_true (single_of_fail hs.quiet _ hlog') not_false
  | frame f =>
    have hopen : openType s = cur := openType_of_tracks hs.serves.tracks
    show (stepFrame w _ f = none ∧ ¬ HalfClosed w s f (f.role s.accepted (openType s))) ∨
      ∃ t reading, stepFrame w _ f = _
      ∧ (_ → ¬ HalfClosed w s f (f.role s.accepted (openType s)) ∧ _) ∧
        (_ → (_ ↔ ¬ HalfClosed w s f (f.role s.accepted (openType s))))
    rw [hopen]
    rcases stepFrame_cases w hs.serves.upgradeComplete hs.serves.tracks f with ⟨_, ⟨type, hrole, hinst, _⟩, hnone⟩ |
      ⟨calls, o, bytes, t, hresponds, hstep, hlog, hgo⟩
    · refine Or.inl ⟨hnone, ?_⟩
      rintro ⟨_, r, hr, hdeclines | hunnoticed⟩
      · obtain rfl := Option.some.inj (hrole.symm.trans hr)
        cases hdeclines with
        | fragment hinst' _ _ => cases hinst.symm.trans hinst'
        | unzipped hinst' _ _ _ _ _ => cases hinst.symm.trans hinst'
      · obtain rfl := Option.some.inj (hrole.symm.trans hr)
        cases hunnoticed.1
    · have hhalf := responds_halfClosed hresponds
      have hquiet : ∀ c ∈ s.log ++ calls, isTeardown c = false := by
        intro c hc
        rcases List.mem_append.mp hc with h | h
        · exact hs.quiet c h
        · exact responds_quiet hresponds c h
      refine Or.inr ⟨t, decide (o = .go), hstep, fun hreading => ?_, fun hreading => ?_⟩
      · have ho := of_decide_eq_true hreading
        obtain ⟨r, hrole, hlike⟩ := hgo ho
        refine ⟨fun h => ?_, _, hs.serves.next (hasRole_of_role hrole).2 hlike, ?_⟩
        · rcases hhalf.mp h with h | ⟨h, _⟩
          · cases ho.symm.trans h
          · cases ho.symm.trans h
        · rw [hlog, ho]
          show ∀ c ∈ s.log ++ calls ++ [], _
          rw [List.append_nil]
          exact hquiet
      · rw [hhalf]
        cases o with
        | go => cases hreading
        | fail statusCode =>
          refine iff_of_true (single_of_fail hquiet statusCode hlog) ?_
          exact fun h => h.elim Outcome.noConfusion fun h => Outcome.noConfusion h.1
        | stall =>
          have hquiet' : ∀ c ∈ t.log, isTeardown c = false := by
            rw [hlog]
            show ∀ c ∈ s.log ++ calls ++ [], _
            rw [List.append_nil]
            exact hquiet
          exact (single_of_quiet hquiet' false).trans (iff_of_false Bool.false_ne_true (not_not.mpr (Or.inl rfl)))
        | bye =>
          refine (single_of_bye hquiet hlog).trans ?_
          constructor
          · rintro hinst (h | ⟨_, h⟩)
            · cases h
            · cases hinst.symm.trans h
          · intro h
            exact Bool.not_eq_false _ |>.mp fun hinst => h (Or.inr ⟨rfl, hinst⟩)

theorem stepArrival_stopped (t : Websocket) (a : Arrival) :
    stepArrival w { ws := t, reading := false } a = some { ws := t, reading := false } := by
  cases a with
  | frame f => exact stepFrame_stopped w t f
  | hangup f k =>
    unfold stepArrival
    dsimp only
    rw [if_neg Bool.false_ne_true]

theorem throughout_stopped (t : Websocket) (arrivals : List Arrival) :
    Throughout (stepArrival w) SingleTeardown { ws := t, reading := false } arrivals
      ↔ SingleTeardown { ws := t, reading := false } := by
  induction arrivals with
  | nil => exact throughout_nil _ _
  | cons a arrivals ih =>
    refine (throughout_cons _ _ _ _).trans ⟨fun h => h.1, fun h => ⟨h, fun c hc => ?_⟩⟩
    rw [stepArrival_stopped] at hc
    obtain rfl := Option.some.inj hc
    exact ih.mpr h

theorem notHalfClosed_stopped (t : Websocket) (arrivals : List Arrival) :
    NotHalfClosed w { ws := t, reading := false } arrivals := by
  induction arrivals with
  | nil => exact along_nil _ _ _
  | cons a arrivals ih =>
    refine (along_cons _ _ _ _ _).mpr ⟨fun h => absurd h Bool.false_ne_true, fun c hc => ?_⟩
    rw [stepArrival_stopped] at hc
    obtain rfl := Option.some.inj hc
    exact ih

theorem teardown_of_up (arrivals : List Arrival) (hs : Up isServer accepted cur s) :
    Throughout (stepArrival w) SingleTeardown { ws := s, reading := true } arrivals
      ↔ NotHalfClosed w { ws := s, reading := true } arrivals := by
  have hsingle : SingleTeardown { ws := s, reading := true } := (single_of_quiet hs.quiet true).mpr rfl
  induction arrivals generalizing s cur with
  | nil => exact iff_of_true ((throughout_nil _ _).mpr hsingle) (along_nil _ _ _)
  | cons a arrivals ih =>
    refine (throughout_cons _ _ _ _).trans ((and_iff_right hsingle).trans ?_)
    refine Iff.trans ?_ (along_cons _ _ _ _ _).symm
    rcases step_up (w := w) hs a with ⟨hnone, hnot⟩ | ⟨t, reading, hstep, hgoes, hstops⟩
    · refine iff_of_true (fun c hc => ?_) ⟨fun _ => hnot, fun c hc => ?_⟩
      · cases hnone.symm.trans hc
      · cases hnone.symm.trans hc
    have hnext : ∀ P : Conn → Prop, (∀ c, stepArrival w { ws := s, reading := true } a = some c → P c)
        ↔ P { ws := t, reading := reading } := by
      intro P
      constructor
      · exact fun h => h _ hstep
      · intro h c hc
        obtain rfl := Option.some.inj (hstep.symm.trans hc)
        exact h
    rw [hnext, hnext]
    cases reading with
    | true =>
      obtain ⟨hnot, cur', hs'⟩ := hgoes rfl
      exact (ih hs' ((single_of_quiet hs'.quiet true).mpr rfl)).trans (and_iff_right fun _ => hnot).symm
    | false =>
      rw [throughout_stopped, hstops rfl]
      exact ⟨fun h => ⟨fun _ => h, notHalfClosed_stopped t arrivals⟩, fun h => h.1 rfl⟩

/-- A websocket goes down once, and the application is told once, exactly where no callback for binary data, a ping or
a pong returns `WS_CLOSED`, which stops reading without `websocket_close`, and where no close frame is answered
without `close_received`. -/
theorem teardown_iff (w : World) (isServer : Bool) (compressionLevel : Nat) (accepted : Bool)
    (arrivals : List Arrival) :
    Throughout (stepArrival w) SingleTeardown (Conn.opened isServer compressionLevel accepted) arrivals
      ↔ NotHalfClosed w (Conn.opened isServer compressionLevel accepted) arrivals :=
  teardown_of_up arrivals ⟨serves_upgraded isServer compressionLevel accepted, fun c hc => absurd hc List.not_mem_nil⟩

end

/-- an application that takes nothing -/
def declineAll : World := { acceptAll with returns := fun _ => .closed }

/-- A binary message that is declined stops reading, and nothing is closed. -/
theorem binary_declined_stalls :
    ¬ Throughout (stepArrival declineAll) SingleTeardown (Conn.opened true 0 false)
      [.frame (Frame.masked true 0 WS_BINARY_FRAME [1, 2] (by decide))] := by
  intro h
  have hrun : (run (stepArrival declineAll) (Conn.opened true 0 false)
      [.frame (Frame.masked true 0 WS_BINARY_FRAME [1, 2] (by decide))]).map
        (fun c => (c.reading, c.ws.log.countP isClose)) = some (false, 0) := by
    decide +kernel
  obtain ⟨c, hc, hvalues⟩ := Option.map_eq_some_iff.mp hrun
  obtain ⟨hreading, hcount⟩ := Prod.mk.inj hvalues
  have hpos := (h _ [] c (List.append_nil _).symm hc).stops.mp hreading
  rw [hcount] at hpos
  cases hpos

end Websocket
end Cjet
