import Cjet.Ws.Calls

/-!
# What a websocket does with a frame

* `Acts`             the ways to handle a frame of each role: the calls, and how it ends (`Outcome`);
* `Responds`         the same for any frame that is read;
* `stepFrame_cases`  a frame that is read is handled in one of these ways, or a callback is called that is
                     not installed.
-/

set_option linter.unusedVariables false

namespace Cjet
open Stateful

namespace Websocket

/-- how the handling of a frame ends -/
inductive Outcome where
  /-- the next frame is read -/
  | go
  | fail (statusCode : Nat)
  /-- reading stops, and nothing is closed -/
  | stall
  /-- a close frame is answered -/
  | bye
  deriving DecidableEq

/-- what `ws_get_payload` and `ws_handle_frame` make of the result of a callback -/
def concluded (isText : Bool) : CallbackReturn → Outcome
  | .ok => .go
  | .closed => if isText then .fail WS_CLOSE_UNSUPPORTED_DATA else .stall
  | .error => .fail WS_CLOSE_INTERNAL_ERROR

/-- the last calls for a frame -/
def Outcome.calls (w : World) (f : Frame) (bytes : List UInt8) : Outcome → List WsCall
  | .go => []
  | .fail statusCode => failCalls statusCode bytes
  | .stall => []
  | .bye => [.websocketClose WS_CLOSE_NORMAL, .writev bytes, .freeConnection]
      ++ if w.installed .close then [.close (closeCode f.payload)] else []

/-- the fragments of the open message go through zlib -/
def zipped (s : Websocket) (f : Frame) : Bool := (entered s f).isFragCompressed && s.compressionLevel != 0

/-- the calls before the last ones -/
inductive Acts (w : World) (s : Websocket) (f : Frame) : Role → List WsCall → Outcome → Prop where
  | unsupported {type : DataType} (hinst : w.installed type.messageHandler = false) :
      Acts w s f (.message type) [] (.fail WS_CLOSE_UNSUPPORTED)
  | message {type : DataType} {text : List UInt8} (hinst : w.installed type.messageHandler = true)
      (htext : inflated w s (f.rsv != 0) f.payload = some text) :
      Acts w s f (.message type) [type.messageCall text]
        (concluded (type = .text) (w.returns (s.log ++ [type.messageCall text])))
  | broken {type : DataType} (hinst : w.installed type.messageHandler = true)
      (htext : inflated w s (f.rsv != 0) f.payload = none) :
      Acts w s f (.message type) [] (.fail WS_CLOSE_INTERNAL_ERROR)
  | fragment {type : DataType} (hinst : w.installed type.frameHandler = true) (hplain : zipped s f = false) :
      Acts w s f (.fragment type) [type.frameCall f.payload f.fin]
        (concluded (type = .text) (w.returns (s.log ++ [type.frameCall f.payload f.fin])))
  | unzipped {type : DataType} {text : List UInt8} (hinst : w.installed type.frameHandler = true)
      (hzip : zipped s f = true) (hfin : f.fin = true) (hre : w.reassembles s.log = true)
      (htext : w.decompress s.log (s.fragments ++ f.payload) = some text) :
      Acts w s f (.fragment type) [type.frameCall text f.fin]
        (concluded (type = .text) (w.returns (s.log ++ [type.frameCall text f.fin])))
  | kept {type : DataType} (hzip : zipped s f = true) (hfin : f.fin = false) : Acts w s f (.fragment type) [] .go
  | corrupt {type : DataType} (hzip : zipped s f = true)
      (hfail : w.reassembles s.log = false ∨ f.fin = true ∧ w.decompress s.log (s.fragments ++ f.payload) = none) :
      Acts w s f (.fragment type) [] (.fail WS_CLOSE_INTERNAL_ERROR)
  | longPing (hlong : WS_SMALL_FRAME_SIZE < f.payload.length) : Acts w s f .ping [] (.fail WS_CLOSE_PROTOCOL_ERROR)
  | ping {bytes buffer : List UInt8} (hshort : ¬ WS_SMALL_FRAME_SIZE < f.payload.length)
      (hsend : sendFrame w f.payload WS_PONG_FRAME (framed s f)
        = some ((true, buffer), (framed s f).logged [.writev bytes])) (hinst : w.installed .ping = true) :
      Acts w s f .ping [.writev bytes, .ping buffer]
        (concluded false (w.returns (s.log ++ [.writev bytes, .ping buffer])))
  | pingOnly {bytes buffer : List UInt8} (hshort : ¬ WS_SMALL_FRAME_SIZE < f.payload.length)
      (hsend : sendFrame w f.payload WS_PONG_FRAME (framed s f)
        = some ((true, buffer), (framed s f).logged [.writev bytes])) (hinst : w.installed .ping = false) :
      Acts w s f .ping [.writev bytes] .go
  | pingLost {bytes buffer : List UInt8} (hshort : ¬ WS_SMALL_FRAME_SIZE < f.payload.length)
      (hsend : sendFrame w f.payload WS_PONG_FRAME (framed s f)
        = some ((false, buffer), (framed s f).logged [.writev bytes]))
      (hwrites : w.writes (s.log ++ [.writev bytes]) = false) :
      Acts w s f .ping [.writev bytes] (.fail WS_CLOSE_INTERNAL_ERROR)
  | longPong (hlong : WS_SMALL_FRAME_SIZE < f.payload.length) : Acts w s f .pong [] (.fail WS_CLOSE_PROTOCOL_ERROR)
  | pong (hshort : ¬ WS_SMALL_FRAME_SIZE < f.payload.length) (hinst : w.installed .pong = true) :
      Acts w s f .pong [.pong f.payload] (concluded false (w.returns (s.log ++ [.pong f.payload])))
  | pongOnly (hshort : ¬ WS_SMALL_FRAME_SIZE < f.payload.length) (hinst : w.installed .pong = false) :
      Acts w s f .pong [] .go
  | closeError {statusCode : Nat} (herror : closeError f.payload = some statusCode) :
      Acts w s f .close [] (.fail statusCode)
  | close (herror : closeError f.payload = none) : Acts w s f .close [] .bye

/-- a frame that a server does not handle -/
def Unmasked (s : Websocket) (f : Frame) : Prop := s.isServer = true ∧ f.mask.isSome = false

inductive Responds (w : World) (s : Websocket) (cur : Option DataType) (f : Frame) : List WsCall → Outcome → Prop where
  | unmasked (h : Unmasked s f) : Responds w s cur f [] (.fail WS_CLOSE_PROTOCOL_ERROR)
  | refused (h : ¬ Unmasked s f) (hrole : f.role s.accepted cur = none) :
      Responds w s cur f [] (.fail WS_CLOSE_PROTOCOL_ERROR)
  | acts {r : Role} {calls : List WsCall} {o : Outcome} (h : ¬ Unmasked s f) (hrole : f.role s.accepted cur = some r)
      (hacts : Acts w s f r calls o) : Responds w s cur f calls o

/-- The callback for a fragment is called, and it is not installed. -/
def CallsAbsent (w : World) (s : Websocket) (f : Frame) (role : Option Role) : Prop :=
  ∃ type, role = some (.fragment type) ∧ w.installed type.frameHandler = false
    ∧ (zipped s f = true → f.fin = true ∧ w.reassembles s.log = true
      ∧ (w.decompress s.log (s.fragments ++ f.payload)).isSome = true)

/-- the state behind a frame, except for the log and the compressed fragments -/
def Role.leave (s : Websocket) (f : Frame) : Role → Websocket
  | .fragment _ => (entered s f).finished f.fin
  | _ => framed s f

def Like (s t : Websocket) : Prop := t = { s with log := t.log, fragments := t.fragments }

/-! ## how the handling ends -/

/-- A result of `ws_handle_frame` ends in this way; `e` is the state in which the next frame is read. -/
def Ends (w : World) (s : Websocket) (f : Frame) (calls : List WsCall) (o : Outcome)
    (result : Option (CallbackReturn × Websocket)) (e : Websocket) : Prop :=
  ∃ bytes t, (result.bind fun r => settle w r.1 r.2) = some (if o = .go then some .header else none, t)
    ∧ t.log = s.log ++ calls ++ o.calls w f bytes ∧ (o = .go → t = e)

section
variable {w : World} {s e e' : Websocket} {f : Frame} {calls : List WsCall}

theorem framed_log : (framed s f).log = s.log ++ [] := (List.append_nil _).symm

theorem ends_go (hlog : e.log = s.log ++ calls) : Ends w s f calls .go (some (.ok, e)) e := by
  refine ⟨[], e, rfl, ?_, fun _ => rfl⟩
  rw [hlog]
  exact (List.append_nil _).symm

theorem ends_stall (hlog : e.log = s.log ++ calls) : Ends w s f calls .stall (some (.closed, e)) e' := by
  refine ⟨[], e, rfl, ?_, nofun⟩
  rw [hlog]
  exact (List.append_nil _).symm

theorem ends_bye (hup : e.upgradeComplete = true) (hlog : e.log = s.log ++ calls)
    (herror : closeError f.payload = none) :
    Ends w s f calls .bye (handleClose w f.payload e) e' := by
  obtain ⟨bytes, hclose⟩ := websocketClose_apply w hup WS_CLOSE_NORMAL
  refine ⟨bytes, e.logged (Outcome.bye.calls w f bytes), ?_, ?_, nofun⟩
  · rw [handleClose_answer w e herror hclose]
    rfl
  · show e.log ++ _ = _
    rw [hlog]

theorem ends_failWith (hup : e.upgradeComplete = true) (hlog : e.log = s.log ++ calls) (statusCode : Nat) :
    Ends w s f calls (.fail statusCode) (failWith w statusCode e) e' := by
  obtain ⟨bytes, hfail⟩ := failWith_apply w hup statusCode
  refine ⟨bytes, e.logged (failCalls statusCode bytes), ?_, ?_, nofun⟩
  · rw [hfail]
    rfl
  · show e.log ++ _ = _
    rw [hlog]
    rfl

/-- the frame is refused before anything is called -/
theorem ends_refused (hup : s.upgradeComplete = true) (statusCode : Nat) :
    Ends w s f [] (.fail statusCode) (failWith w statusCode (framed s f)) e' :=
  ends_failWith (e := framed s f) hup framed_log statusCode

theorem ends_error (hup : e.upgradeComplete = true) (hlog : e.log = s.log ++ calls) :
    Ends w s f calls (.fail WS_CLOSE_INTERNAL_ERROR) (some (.error, e)) e' := by
  obtain ⟨bytes, herror⟩ := settle_error w hup
  refine ⟨bytes, e.logged (failCalls WS_CLOSE_INTERNAL_ERROR bytes), herror, ?_, nofun⟩
  show e.log ++ _ = _
  rw [hlog]
  rfl

/-- the handling ends behind a callback -/
theorem ends_concluded {isText : Bool} {ret : CallbackReturn} {c : Prop} [Decidable c]
    (hc : c ↔ isText = true ∧ ret = .closed) (hup : e.upgradeComplete = true) (hup' : e'.upgradeComplete = true)
    (hlog : e.log = s.log ++ calls) (hlog' : e'.log = s.log ++ calls) :
    Ends w s f calls (concluded isText ret)
      (if c then failWith w WS_CLOSE_UNSUPPORTED_DATA e else some (ret, e')) e' := by
  cases ret with
  | ok =>
    rw [if_neg fun h => CallbackReturn.noConfusion (hc.mp h).2]
    exact ends_go hlog'
  | error =>
    rw [if_neg fun h => CallbackReturn.noConfusion (hc.mp h).2]
    exact ends_error hup' hlog'
  | closed =>
    cases isText with
    | true =>
      rw [if_pos (hc.mpr ⟨rfl, rfl⟩)]
      exact ends_failWith hup hlog _
    | false =>
      rw [if_neg fun h => Bool.false_ne_true (hc.mp h).1]
      exact ends_stall hlog'

theorem ends_returned (ret : CallbackReturn) (hup : e.upgradeComplete = true) (hlog : e.log = s.log ++ calls) :
    Ends w s f calls (concluded false ret) (some (ret, e)) e := by
  cases ret with
  | ok => exact ends_go hlog
  | error => exact ends_error hup hlog
  | closed => exact ends_stall hlog

theorem declined_iff (type : DataType) (ret : CallbackReturn) :
    declined type ret ↔ decide (type = .text) = true ∧ ret = .closed := by
  rw [decide_eq_true_iff]
  exact Iff.rfl

end

/-! ## the roles -/

section
variable (w : World) {s : Websocket} {f : Frame} {cur : Option DataType} (hup : s.upgradeComplete = true)

/-- The handling of the frame ends in one of the ways for its role. -/
def Settles (w : World) (s : Websocket) (f : Frame) (r : Role) : Prop :=
  ∃ calls o e, Acts w s f r calls o ∧ Like (r.leave s f) e
    ∧ Ends w s f calls o (r.handle w (f.rsv != 0) f.payload (entered s f)) e

include hup

theorem settles_message {type : DataType} (hr : HasRole cur f (.message type)) : Settles w s f (.message type) := by
  unfold Settles
  rw [entered_eq_framed hr (fun _ => Role.noConfusion)]
  cases hinst : w.installed type.messageHandler with
  | false =>
    refine ⟨[], _, framed s f, Acts.unsupported hinst, rfl, ?_⟩
    rw [handle_message_absent w _ type _ _ hinst]
    exact ends_refused hup _
  | true =>
    have hreceived := receivedComp_eq w (framed s f) type.messageHandler type.messageCall (f.rsv != 0) f.payload
    cases htext : inflated w s (f.rsv != 0) f.payload with
    | none =>
      refine ⟨[], _, framed s f, Acts.broken hinst htext, rfl, ?_⟩
      have hret : receivedComp w type.messageHandler type.messageCall (f.rsv != 0) f.payload (framed s f)
          = some (.error, framed s f) := by
        rw [hreceived]
        show ((inflated w s (f.rsv != 0) f.payload).elim _ _ : Prog _ _) _ = _
        rw [htext]
        rfl
      rw [handle_message_installed w _ type _ _ hinst hret, if_neg fun h => CallbackReturn.noConfusion h.2]
      exact ends_error hup framed_log
    | some text =>
      have hret : receivedComp w type.messageHandler type.messageCall (f.rsv != 0) f.payload (framed s f)
          = some (w.returns (s.log ++ [type.messageCall text]), (framed s f).logged [type.messageCall text]) := by
        rw [hreceived]
        show ((inflated w s (f.rsv != 0) f.payload).elim _ _ : Prog _ _) _ = _
        rw [htext]
        exact invoke_installed w (framed s f) hinst _
      refine ⟨_, _, (framed s f).logged [type.messageCall text], Acts.message hinst htext, rfl, ?_⟩
      rw [handle_message_installed w _ type _ _ hinst hret]
      exact ends_concluded (declined_iff type _) hup hup rfl rfl

theorem settles_ping (hr : HasRole cur f .ping) : Settles w s f .ping := by
  unfold Settles
  rw [entered_eq_framed hr (fun _ => Role.noConfusion)]
  by_cases hlong : WS_SMALL_FRAME_SIZE < f.payload.length
  · refine ⟨[], _, framed s f, Acts.longPing hlong, rfl, ?_⟩
    show Ends w s f _ _ (handlePing w f.payload (framed s f)) _
    rw [handlePing_long w _ hlong]
    exact ends_refused hup _
  obtain ⟨bytes, buffer, hsend⟩ := sendFrame_apply w (framed s f) f.payload WS_PONG_FRAME
  have hhandle := handlePing_short w _ hlong hsend
  have hlogs : (framed s f).log = s.log := rfl
  rw [hlogs] at hsend hhandle
  cases hwrites : w.writes (s.log ++ [.writev bytes]) with
  | false =>
    rw [hwrites] at hsend
    refine ⟨_, _, (framed s f).logged [.writev bytes], Acts.pingLost hlong hsend hwrites, rfl, ?_⟩
    show Ends w s f _ _ (handlePing w f.payload (framed s f)) _
    rw [hhandle, hwrites]
    exact ends_error hup rfl
  | true =>
    rw [hwrites] at hsend
    cases hinst : w.installed .ping with
    | false =>
      refine ⟨_, _, (framed s f).logged [.writev bytes], Acts.pingOnly hlong hsend hinst, rfl, ?_⟩
      show Ends w s f _ _ (handlePing w f.payload (framed s f)) _
      rw [hhandle, hwrites, hinst]
      exact ends_go rfl
    | true =>
      refine ⟨_, _, (framed s f).logged [.writev bytes, .ping buffer], Acts.ping hlong hsend hinst, rfl, ?_⟩
      show Ends w s f _ _ (handlePing w f.payload (framed s f)) _
      rw [hhandle, hwrites, hinst, if_pos rfl, if_pos rfl]
      exact ends_returned _ hup rfl

theorem settles_pong (hr : HasRole cur f .pong) : Settles w s f .pong := by
  unfold Settles
  rw [entered_eq_framed hr (fun _ => Role.noConfusion)]
  by_cases hlong : WS_SMALL_FRAME_SIZE < f.payload.length
  · refine ⟨[], _, framed s f, Acts.longPong hlong, rfl, ?_⟩
    show Ends w s f _ _ (handlePong w f.payload (framed s f)) _
    rw [handlePong_long w _ hlong]
    exact ends_refused hup _
  have hhandle := handlePong_short w (framed s f) hlong
  cases hinst : w.installed .pong with
  | false =>
    refine ⟨[], _, framed s f, Acts.pongOnly hlong hinst, rfl, ?_⟩
    show Ends w s f _ _ (handlePong w f.payload (framed s f)) _
    rw [hhandle, hinst]
    exact ends_go framed_log
  | true =>
    refine ⟨_, _, (framed s f).logged [.pong f.payload], Acts.pong hlong hinst, rfl, ?_⟩
    show Ends w s f _ _ (handlePong w f.payload (framed s f)) _
    rw [hhandle, hinst, if_pos rfl]
    exact ends_returned _ hup rfl

theorem settles_close (hr : HasRole cur f .close) : Settles w s f .close := by
  unfold Settles
  rw [entered_eq_framed hr (fun _ => Role.noConfusion)]
  cases herror : closeError f.payload with
  | some statusCode =>
    refine ⟨[], _, framed s f, Acts.closeError herror, rfl, ?_⟩
    show Ends w s f _ _ (handleClose w f.payload (framed s f)) _
    rw [handleClose_error w _ herror]
    exact ends_refused hup _
  | none =>
    refine ⟨[], _, framed s f, Acts.close herror, rfl, ?_⟩
    show Ends w s f _ _ (handleClose w f.payload (framed s f)) _
    exact ends_bye (e := framed s f) hup framed_log herror

end

theorem entered_fields (s : Websocket) (f : Frame) :
    (entered s f).upgradeComplete = s.upgradeComplete ∧ (entered s f).log = s.log ∧ (entered s f).fin = f.fin
      ∧ (entered s f).compressionLevel = s.compressionLevel ∧ (entered s f).fragments = s.fragments := by
  unfold entered
  by_cases h : f.fin = true ∨ f.opcode = WS_CONTINUATION_FRAME
  · rw [if_pos h]
    exact ⟨rfl, rfl, rfl, rfl, rfl⟩
  · rw [if_neg h]
    exact ⟨rfl, rfl, rfl, rfl, rfl⟩

theorem Like.refl (s : Websocket) : Like s s := rfl
theorem Like.collected (s : Websocket) (l : List UInt8) : Like s (s.collected l) := rfl

theorem finished_fields (s : Websocket) (lastFrame : Bool) :
    (s.finished lastFrame).upgradeComplete = s.upgradeComplete ∧ (s.finished lastFrame).log = s.log := by
  cases lastFrame with
  | true => exact ⟨rfl, rfl⟩
  | false => exact ⟨rfl, rfl⟩

theorem like_finished {s e : Websocket} (h : Like s e) (lastFrame : Bool) :
    Like (s.finished lastFrame) (e.finished lastFrame) := by
  unfold Like at h
  rw [h]
  cases lastFrame with
  | true => rfl
  | false => rfl

section
variable (w : World) {s : Websocket} {f : Frame} {type : DataType} (hup : s.upgradeComplete = true)
  (hs : Tracks (entered s f) (some type))
include hup hs

/-- the callback for a fragment is to be called in the state `e` -/
theorem settles_invoke {text : List UInt8} {e : Websocket} (hlike : Like (entered s f) e) (hlog : e.log = s.log)
    (hreceived : frameReceivedComp w type.frameHandler type.frameCall (entered s f).isFragCompressed f.payload
      (entered s f).fin (entered s f) = invoke w type.frameHandler (type.frameCall text f.fin) e)
    (hacts : w.installed type.frameHandler = true → Acts w s f (.fragment type) [type.frameCall text f.fin]
      (concluded (type = .text) (w.returns (s.log ++ [type.frameCall text f.fin])))) :
    (w.installed type.frameHandler = false ∧ (Role.fragment type).handle w (f.rsv != 0) f.payload (entered s f) = none)
      ∨ Settles w s f (.fragment type) := by
  obtain ⟨heup, _, hefin, _, _⟩ := entered_fields s f
  cases hinst : w.installed type.frameHandler with
  | false =>
    refine Or.inl ⟨rfl, handle_fragment_none w _ type _ _ hs.fragOpcode ?_⟩
    rw [hreceived, invoke_absent w _ hinst]
  | true =>
    have hret : frameReceivedComp w type.frameHandler type.frameCall (entered s f).isFragCompressed f.payload
        (entered s f).fin (entered s f)
        = some (w.returns (s.log ++ [type.frameCall text f.fin]), e.logged [type.frameCall text f.fin]) := by
      rw [hreceived, invoke_installed w _ hinst, hlog]
    have hup' : e.upgradeComplete = true := by
      rw [hlike]
      exact heup.trans hup
    have hlog' : (e.logged [type.frameCall text f.fin]).log = s.log ++ [type.frameCall text f.fin] := by
      show e.log ++ _ = _
      rw [hlog]
    have hlike' : Like (entered s f) (e.logged [type.frameCall text f.fin]) := by
      unfold Like at hlike ⊢
      rw [hlike]
      rfl
    obtain ⟨hfup, hflog⟩ := finished_fields (e.logged [type.frameCall text f.fin]) f.fin
    refine Or.inr ⟨_, _, (e.logged [type.frameCall text f.fin]).finished f.fin, hacts hinst,
      like_finished hlike' f.fin, ?_⟩
    rw [handle_fragment_some w _ type _ _ hs.fragOpcode hret, hefin]
    exact ends_concluded (declined_iff type _) hup' (hfup.trans hup') hlog' (hflog.trans hlog')

/-- a fragment is handled, or its callback is called and absent -/
theorem settles_fragment :
    (CallsAbsent w s f (some (.fragment type)) ∧
      (Role.fragment type).handle w (f.rsv != 0) f.payload (entered s f) = none)
      ∨ Settles w s f (.fragment type) := by
  obtain ⟨heup, helog, hefin, helevel, hefrag⟩ := entered_fields s f
  have hop := hs.fragOpcode
  have habsent : ∀ P : Prop, (w.installed type.frameHandler = false ∧ P) ∨ Settles w s f (.fragment type) →
      (zipped s f = true → f.fin = true ∧ w.reassembles s.log = true
        ∧ (w.decompress s.log (s.fragments ++ f.payload)).isSome = true) →
      (CallsAbsent w s f (some (.fragment type)) ∧ P) ∨ Settles w s f (.fragment type) := by
    rintro P (⟨hinst, hP⟩ | hsettles) hzip
    · exact Or.inl ⟨⟨type, rfl, hinst, hzip⟩, hP⟩
    · exact Or.inr hsettles
  have hupe : (entered s f).upgradeComplete = true := heup.trans hup
  have hloge : (entered s f).log = s.log ++ [] := by rw [helog, List.append_nil]
  by_cases hzip : zipped s f = true
  · have hc : ((entered s f).isFragCompressed && (entered s f).compressionLevel != 0) = true := by
      rw [helevel]
      exact hzip
    cases hre : w.reassembles s.log with
    | false =>
      have hret := frameReceivedComp_broken w (entered s f) type.frameHandler type.frameCall f.payload hc
        (entered s f).fin (by rw [helog, hre])
      obtain ⟨hfup, hflog⟩ := finished_fields (entered s f) f.fin
      refine Or.inr ⟨[], _, _, Acts.corrupt hzip (Or.inl hre), like_finished (Like.refl _) f.fin, ?_⟩
      rw [handle_fragment_some w _ type _ _ hop hret, if_neg fun h => CallbackReturn.noConfusion h.2, hefin]
      exact ends_error (hfup.trans hupe) (hflog.trans hloge)
    | true =>
      have hree : w.reassembles (entered s f).log = true := by rw [helog, hre]
      cases hfin : f.fin with
      | false =>
        have hret := frameReceivedComp_kept w (entered s f) type.frameHandler type.frameCall f.payload hc hree
          (hefin.trans hfin)
        refine Or.inr ⟨[], _, _, Acts.kept hzip hfin,
          like_finished (Like.collected (entered s f) ((entered s f).fragments ++ f.payload)) f.fin, ?_⟩
        rw [handle_fragment_some w _ type _ _ hop hret, if_neg fun h => CallbackReturn.noConfusion h.2, hefin, hfin]
        exact ends_go hloge
      | true =>
        cases htext : w.decompress s.log (s.fragments ++ f.payload) with
        | none =>
          have hret := frameReceivedComp_corrupt w (entered s f) type.frameHandler type.frameCall f.payload hc hree
            (hefin.trans hfin) (by rw [helog, hefrag, htext])
          obtain ⟨hfup, hflog⟩ := finished_fields ((entered s f).collected []) (entered s f).fin
          refine Or.inr ⟨[], _, ((entered s f).collected []).finished (entered s f).fin,
            Acts.corrupt hzip (Or.inr ⟨hfin, htext⟩), ?_, ?_⟩
          · show Like ((entered s f).finished f.fin) _
            rw [← hefin]
            exact like_finished (Like.collected (entered s f) []) _
          · rw [handle_fragment_some w _ type _ _ hop hret, if_neg fun h => CallbackReturn.noConfusion h.2]
            exact ends_error (hfup.trans hupe) (hflog.trans hloge)
        | some text =>
          have hinflates : w.decompress (entered s f).log ((entered s f).fragments ++ f.payload) = some text := by
            rw [helog, hefrag, htext]
          have hreceived := frameReceivedComp_unzipped w (entered s f) type.frameHandler
            type.frameCall f.payload hc hree
            (hefin.trans hfin) hinflates
          have hcall : type.frameCall text (entered s f).fin = type.frameCall text f.fin := by rw [hefin]
          rw [hcall] at hreceived
          refine habsent _ (settles_invoke w hup hs (Like.collected (entered s f) []) helog hreceived
            fun hinst => Acts.unzipped hinst hzip hfin hre htext) fun _ => ?_
          rw [htext]
          exact ⟨hfin, hre, rfl⟩
  · have hplain : zipped s f = false := Bool.eq_false_iff.mpr hzip
    have hc : ¬ ((entered s f).isFragCompressed && (entered s f).compressionLevel != 0) = true := by
      rw [helevel]
      exact hzip
    refine habsent _ (settles_invoke w hup hs (Like.refl _) helog ?_ fun hinst => Acts.fragment hinst hplain)
      fun h => absurd h hzip
    rw [frameReceivedComp_plain w _ _ _ f.payload _ hc, hefin]

end

/-! ## a frame -/

section
variable (w : World) {s : Websocket} {f : Frame} {cur : Option DataType}

theorem settles_role {r : Role} (hup : s.upgradeComplete = true) (hs : Tracks s cur) (hr : HasRole cur f r) :
    (CallsAbsent w s f (some r) ∧ r.handle w (f.rsv != 0) f.payload (entered s f) = none) ∨ Settles w s f r := by
  cases r with
  | message type => exact Or.inr (settles_message w hup hr)
  | fragment type => exact settles_fragment w hup (tracks_fragment hs hr)
  | ping => exact Or.inr (settles_ping w hup hr)
  | pong => exact Or.inr (settles_pong w hup hr)
  | close => exact Or.inr (settles_close w hup hr)

/-- A frame that is read is handled in one of the ways for it, or an absent callback is called. -/
theorem stepFrame_cases (hup : s.upgradeComplete = true) (hs : Tracks s cur) (f : Frame) :
    (¬ Unmasked s f ∧ CallsAbsent w s f (f.role s.accepted cur)
        ∧ stepFrame w { ws := s, reading := true } f = none)
      ∨ ∃ calls o bytes t, Responds w s cur f calls o
        ∧ stepFrame w { ws := s, reading := true } f = some { ws := t, reading := decide (o = .go) }
        ∧ t.log = s.log ++ calls ++ o.calls w f bytes
        ∧ (o = .go → ∃ r, f.role s.accepted cur = some r ∧ Like (r.leave s f) t) := by
  rw [stepFrame_reading]
  by_cases hmask : Unmasked s f
  · obtain ⟨bytes, herror⟩ := handleError_apply w (s := framed s f) hup WS_CLOSE_PROTOCOL_ERROR
    refine Or.inr ⟨[], _, bytes, (framed s f).logged (failCalls WS_CLOSE_PROTOCOL_ERROR bytes),
      Responds.unmasked hmask, ?_, ?_, nofun⟩
    · rw [handlePayload_unmasked w (s := framed s f) f.payload hmask, Prog.bind_of_some herror]
      rfl
    · show s.log ++ _ = _
      rw [List.append_nil]
      rfl
  rw [handlePayload_masked w (s := framed s f) f.payload hmask]
  have hhandled := handledAs_role (w := w) hs f
  cases hrole : f.role s.accepted cur with
  | none =>
    rw [hrole] at hhandled
    obtain ⟨t, ht, hrefused⟩ := hhandled
    have hfields : t.upgradeComplete = true ∧ t.log = s.log := by
      rcases ht with rfl | rfl
      · exact ⟨hup, rfl⟩
      · exact ⟨(entered_fields s f).1.trans hup, (entered_fields s f).2.1⟩
    have hlogt : t.log = s.log ++ [] := by rw [hfields.2, List.append_nil]
    have hfail : Ends w s f [] (.fail WS_CLOSE_PROTOCOL_ERROR) (failWith w WS_CLOSE_PROTOCOL_ERROR t) s :=
      ends_failWith hfields.1 hlogt WS_CLOSE_PROTOCOL_ERROR
    obtain ⟨bytes, u, hends, hlog, _⟩ := hfail
    refine Or.inr ⟨[], _, bytes, u, Responds.refused hmask hrole, ?_, hlog, nofun⟩
    rw [hrefused, hends]
    rfl
  | some r =>
    rw [hrole] at hhandled
    have hr := (hasRole_of_role hrole).2
    have hhandle : wsHandleFrame w f.payload (framed s f) = r.handle w (f.rsv != 0) f.payload (entered s f) := hhandled
    rw [hhandle]
    rcases settles_role w hup hs hr with ⟨habsent, hnone⟩ | ⟨calls, o, e, hacts, hlike, bytes, t, hends, hlog, hgo⟩
    · rw [hnone]
      exact Or.inl ⟨hmask, habsent, rfl⟩
    · refine Or.inr ⟨calls, o, bytes, t, Responds.acts hmask hrole hacts, ?_, hlog, fun ho => ⟨r, rfl, ?_⟩⟩
      · rw [hends]
        by_cases ho : o = .go
        · rw [if_pos ho, decide_eq_true ho]
          rfl
        · rw [if_neg ho, decide_eq_false ho]
          rfl
      · rw [hgo ho]
        exact hlike

end

/-! ## which calls there are -/

/-- the calls with which a websocket goes down -/
def isTeardown : WsCall → Bool
  | .websocketClose _ => true
  | .freeConnection => true
  | .onError => true
  | .close _ => true
  | _ => false

theorem messageCall_quiet (type : DataType) (text : List UInt8) : isTeardown (type.messageCall text) = false := by
  cases type with
  | text => rfl
  | binary => rfl

theorem frameCall_quiet (type : DataType) (text : List UInt8) (last : Bool) :
    isTeardown (type.frameCall text last) = false := by
  cases type with
  | text => rfl
  | binary => rfl

/-- no call but the last ones takes the websocket down -/
theorem acts_quiet {w : World} {s : Websocket} {f : Frame} {r : Role} {calls : List WsCall} {o : Outcome}
    (h : Acts w s f r calls o) : ∀ c ∈ calls, isTeardown c = false := by
  have hnil : ∀ c ∈ ([] : List WsCall), isTeardown c = false := fun c hc => absurd hc List.not_mem_nil
  have hone : ∀ d : WsCall, isTeardown d = false → ∀ c ∈ [d], isTeardown c = false := by
    intro d hd c hc
    rw [List.mem_singleton.mp hc]
    exact hd
  cases h with
  | unsupported hinst => exact hnil
  | message hinst htext => exact hone _ (messageCall_quiet _ _)
  | broken hinst htext => exact hnil
  | fragment hinst hplain => exact hone _ (frameCall_quiet _ _ _)
  | unzipped hinst hzip hfin hre htext => exact hone _ (frameCall_quiet _ _ _)
  | kept hzip hfin => exact hnil
  | corrupt hzip hfail => exact hnil
  | longPing hlong => exact hnil
  | ping hshort hsend hinst =>
    intro c hc
    rcases List.mem_cons.mp hc with rfl | hc
    · rfl
    · exact hone _ rfl c hc
  | pingOnly hshort hsend hinst => exact hone _ rfl
  | pingLost hshort hsend hwrites => exact hone _ rfl
  | longPong hlong => exact hnil
  | pong hshort hinst => exact hone _ rfl
  | pongOnly hshort hinst => exact hnil
  | closeError herror => exact hnil
  | close herror => exact hnil

theorem responds_quiet {w : World} {s : Websocket} {cur : Option DataType} {f : Frame}
    {calls : List WsCall} {o : Outcome}
    (h : Responds w s cur f calls o) : ∀ c ∈ calls, isTeardown c = false := by
  cases h with
  | unmasked h => exact fun c hc => absurd hc List.not_mem_nil
  | refused h hrole => exact fun c hc => absurd hc List.not_mem_nil
  | acts h hrole hacts => exact acts_quiet hacts

/-- the frame makes the websocket close the connection with this status -/
def ClosesWith (w : World) (statusCode : Nat) (c : Conn) (f : Frame) : Prop :=
  ∃ c' calls, stepFrame w c f = some c' ∧ c'.reading = false ∧ c'.ws.log = c.ws.log ++ calls
    ∧ .websocketClose statusCode ∈ calls

section
variable {w : World} {s t : Websocket} {f : Frame} {cur : Option DataType} {calls : List WsCall} {o : Outcome}
  {bytes : List UInt8}

theorem websocketClose_mem_calls (o : Outcome) (bytes : List UInt8) (statusCode : Nat)
    (hne : statusCode ≠ WS_CLOSE_NORMAL) :
    .websocketClose statusCode ∈ o.calls w f bytes ↔ o = .fail statusCode := by
  cases o with
  | go => simp [Outcome.calls]
  | fail code => simp [Outcome.calls, failCalls, eq_comm]
  | stall => simp [Outcome.calls]
  | bye => cases hinst : w.installed .close <;> simp [Outcome.calls, hinst, hne]

theorem closesWith_iff (hresponds : Responds w s cur f calls o)
    (hstep : stepFrame w { ws := s, reading := true } f = some { ws := t, reading := decide (o = .go) })
    (hlog : t.log = s.log ++ calls ++ o.calls w f bytes) {statusCode : Nat} (hne : statusCode ≠ WS_CLOSE_NORMAL) :
    ClosesWith w statusCode { ws := s, reading := true } f ↔ o = .fail statusCode := by
  constructor
  · rintro ⟨c', calls', hstep', _, hlog', hmem⟩
    rw [hstep] at hstep'
    obtain rfl := Option.some.inj hstep'
    have happend : s.log ++ calls' = s.log ++ (calls ++ o.calls w f bytes) := by
      rw [← List.append_assoc, ← hlog]
      exact hlog'.symm
    have hcalls := List.append_cancel_left happend
    rw [hcalls] at hmem
    rcases List.mem_append.mp hmem with h | h
    · have hquiet := responds_quiet hresponds _ h
      cases hquiet
    · exact (websocketClose_mem_calls o bytes statusCode hne).mp h
  · intro ho
    refine ⟨_, calls ++ o.calls w f bytes, hstep, ?_, ?_, ?_⟩
    · rw [ho]
      rfl
    · rw [← List.append_assoc]
      exact hlog
    · exact List.mem_append_right _ ((websocketClose_mem_calls o bytes statusCode hne).mpr ho)

end

/-! ## between two frames -/

/-- the message that is open behind a frame of this role -/
def Role.next (f : Frame) (cur : Option DataType) : Role → Option DataType
  | .fragment type => if f.fin then none else some type
  | _ => cur

/-- the state of a websocket that reads frames -/
structure Serves (isServer accepted : Bool) (cur : Option DataType) (s : Websocket) : Prop where
  isServer_eq : s.isServer = isServer
  accepted_eq : s.accepted = accepted
  upgradeComplete : s.upgradeComplete = true
  tracks : Tracks s cur

section
variable {s t : Websocket} {f : Frame} {cur : Option DataType} {isServer accepted : Bool} {r : Role}

theorem serves_upgraded (isServer : Bool) (compressionLevel : Nat) (accepted : Bool) :
    Serves isServer accepted none (upgraded isServer compressionLevel accepted) := ⟨rfl, rfl, rfl, rfl, rfl⟩

theorem Serves.of_like (h : Serves isServer accepted cur s) (hlike : Like s t) : Serves isServer accepted cur t := by
  unfold Like at hlike
  rw [hlike]
  exact ⟨h.isServer_eq, h.accepted_eq, h.upgradeComplete, h.tracks.of_eq rfl rfl⟩

theorem serves_finished (h : Serves isServer accepted cur s) (lastFrame : Bool) :
    Serves isServer accepted (if lastFrame then none else cur) (s.finished lastFrame) := by
  have htracks := tracks_finished h.tracks lastFrame
  cases lastFrame with
  | true => exact ⟨h.isServer_eq, h.accepted_eq, h.upgradeComplete, htracks⟩
  | false => exact ⟨h.isServer_eq, h.accepted_eq, h.upgradeComplete, htracks⟩

theorem serves_framed (h : Serves isServer accepted cur s) (f : Frame) : Serves isServer accepted cur (framed s f) :=
  ⟨h.isServer_eq, h.accepted_eq, h.upgradeComplete, h.tracks.of_eq rfl rfl⟩

theorem serves_entered {type : DataType} (h : Serves isServer accepted cur s) (hr : HasRole cur f (.fragment type)) :
    Serves isServer accepted (some type) (entered s f) := by
  have htracks := tracks_fragment h.tracks hr
  unfold entered at htracks ⊢
  by_cases hc : f.fin = true ∨ f.opcode = WS_CONTINUATION_FRAME
  · rw [if_pos hc] at htracks ⊢
    exact ⟨h.isServer_eq, h.accepted_eq, h.upgradeComplete, htracks⟩
  · rw [if_neg hc] at htracks ⊢
    exact ⟨h.isServer_eq, h.accepted_eq, h.upgradeComplete, htracks⟩

/-- a websocket that goes on behind a frame -/
theorem Serves.next (h : Serves isServer accepted cur s) (hr : HasRole cur f r) (hlike : Like (r.leave s f) t) :
    Serves isServer accepted (r.next f cur) t := by
  refine Serves.of_like ?_ hlike
  cases r with
  | fragment type => exact serves_finished (serves_entered h hr) f.fin
  | message type => exact serves_framed h f
  | ping => exact serves_framed h f
  | pong => exact serves_framed h f
  | close => exact serves_framed h f

/-- a connection that serves as long as it reads -/
def ServesConn (isServer accepted : Bool) (c : Conn) : Prop :=
  c.reading = true → ∃ cur, Serves isServer accepted cur c.ws

theorem servesConn_step {w : World} {c c' : Conn} (h : ServesConn isServer accepted c)
    (hstep : stepFrame w c f = some c') : ServesConn isServer accepted c' := by
  obtain ⟨s, reading⟩ := c
  cases reading with
  | false =>
    rw [stepFrame_stopped] at hstep
    obtain rfl := Option.some.inj hstep
    exact h
  | true =>
    obtain ⟨cur, hs⟩ := h rfl
    rcases stepFrame_cases w hs.upgradeComplete hs.tracks f with ⟨_, _, hnone⟩ | ⟨calls, o, bytes, t, _, hstep', _, hgo⟩
    · rw [hnone] at hstep
      cases hstep
    · rw [hstep'] at hstep
      obtain rfl := Option.some.inj hstep
      intro hreading
      obtain ⟨r, hrole, hlike⟩ := hgo (of_decide_eq_true hreading)
      exact ⟨_, hs.next (hasRole_of_role hrole).2 hlike⟩

end

/-- a connection behind the upgrade -/
def Conn.opened (isServer : Bool) (compressionLevel : Nat) (accepted : Bool) : Conn where
  ws := upgraded isServer compressionLevel accepted
  reading := true

theorem servesConn_opened (isServer : Bool) (compressionLevel : Nat) (accepted : Bool) :
    ServesConn isServer accepted (Conn.opened isServer compressionLevel accepted) :=
  fun _ => ⟨none, serves_upgraded isServer compressionLevel accepted⟩

end Websocket
end Cjet
