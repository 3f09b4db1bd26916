import Cjet.Ws.Handle

/-!
# What a websocket sends and calls

* `logged`                   the websocket after some calls;
* `sendFrame_apply`, `websocketClose_apply`, `failWith_apply`   what goes out;
* `handle_message_installed`, `handle_fragment_some`, `handlePing_short` and their companions: what is called
  for a frame of each role;
* `settle`                   what `ws_get_payload` makes of the result.
-/

set_option linter.unusedVariables false

namespace Cjet
open Stateful

namespace Websocket

/-! ## what goes out and what is called -/

/-- the websocket after these calls -/
def logged (s : Websocket) (calls : List WsCall) : Websocket := { s with log := s.log ++ calls }

theorem logged_logged (s : Websocket) (a b : List WsCall) : (s.logged a).logged b = s.logged (a ++ b) := by
  unfold logged
  rw [List.append_assoc]

/-- `websocket_close` and `on_error` -/
def failCalls (statusCode : Nat) (bytes : List UInt8) : List WsCall :=
  [.websocketClose statusCode, .writev bytes, .freeConnection, .onError]

section
variable (w : World) (s : Websocket)

theorem perform_apply (c : WsCall) : perform c s = some ((), s.logged [c]) := rfl

theorem invoke_installed {h : Handler} (hinst : w.installed h = true) (c : WsCall) :
    invoke w h c s = some (w.returns (s.log ++ [c]), s.logged [c]) := by
  have hrequire : Prog.require (fun _ : Websocket => w.installed h) s = some ((), s) := Prog.require_of_true hinst
  unfold invoke
  rw [Prog.bind_of_some hrequire, Prog.bind_of_some (perform_apply s c)]
  rfl

theorem invoke_absent {h : Handler} (hinst : w.installed h = false) (c : WsCall) : invoke w h c s = none := by
  have hrequire : Prog.require (fun _ : Websocket => w.installed h) s = none := by
    unfold Prog.require
    rw [hinst]
    rfl
  unfold invoke
  exact Prog.bind_none hrequire

theorem sendFrame_apply (payload : List UInt8) (opcode : BitVec 4) :
    ∃ bytes buffer, sendFrame w payload opcode s
      = some ((w.writes (s.log ++ [.writev bytes]), buffer), s.logged [.writev bytes]) := by
  unfold sendFrame
  rw [Prog.bind_of_some (Prog.read_apply id s)]
  dsimp only [id]
  by_cases hserver : s.isServer = true
  · rw [if_pos hserver]
    exact ⟨_, _, rfl⟩
  · rw [if_neg hserver]
    exact ⟨_, _, rfl⟩

variable {s} (hup : s.upgradeComplete = true)
include hup

theorem websocketClose_apply (statusCode : Nat) :
    ∃ bytes, websocketClose w statusCode s
      = some ((), s.logged [.websocketClose statusCode, .writev bytes, .freeConnection]) := by
  obtain ⟨bytes, buffer, hsend⟩ := sendFrame_apply w (s.logged [.websocketClose statusCode]) (bytesBE 2 statusCode)
    WS_CLOSE_FRAME
  have hread : Prog.read (fun s : Websocket => s.upgradeComplete) (s.logged [.websocketClose statusCode])
      = some (true, s.logged [.websocketClose statusCode]) := by
    rw [Prog.read_apply]
    show some (s.upgradeComplete, _) = _
    rw [hup]
  refine ⟨bytes, ?_⟩
  unfold websocketClose websocketSendCloseFrame
  rw [Prog.bind_of_some (perform_apply s _), Prog.bind_of_some hread, if_pos rfl, Prog.bind_of_some hsend,
    perform_apply, logged_logged, logged_logged]
  rfl

theorem handleError_apply (statusCode : Nat) :
    ∃ bytes, handleError w statusCode s = some ((), s.logged (failCalls statusCode bytes)) := by
  obtain ⟨bytes, hclose⟩ := websocketClose_apply w hup statusCode
  refine ⟨bytes, ?_⟩
  unfold handleError
  rw [Prog.bind_of_some hclose, perform_apply, logged_logged]
  rfl

theorem failWith_apply (statusCode : Nat) :
    ∃ bytes, failWith w statusCode s = some (.closed, s.logged (failCalls statusCode bytes)) := by
  obtain ⟨bytes, herror⟩ := handleError_apply w hup statusCode
  refine ⟨bytes, ?_⟩
  unfold failWith
  rw [Prog.bind_of_some herror]
  rfl

end

/-! ## messages and fragments -/

section
variable (w : World) (s : Websocket)

/-- what is handed over of a payload; `none`: zlib fails -/
def inflated (isCompressed : Bool) (msg : List UInt8) : Option (List UInt8) :=
  if isCompressed && s.compressionLevel != 0 then w.decompress s.log msg else some msg

theorem receivedComp_eq (h : Handler) (c : List UInt8 → WsCall) (isCompressed : Bool) (msg : List UInt8) :
    receivedComp w h c isCompressed msg s
      = ((inflated w s isCompressed msg).elim (pure .error) fun text => invoke w h (c text)) s := by
  unfold receivedComp inflated
  rw [Prog.bind_of_some (Prog.read_apply id s)]
  dsimp only [id]
  by_cases hc : (isCompressed && s.compressionLevel != 0) = true
  · rw [if_pos hc, if_pos hc]
    cases w.decompress s.log msg with
    | none => rfl
    | some text => rfl
  · rw [if_neg hc, if_neg hc]
    rfl

/-- the websocket with these compressed fragments -/
def collected (s : Websocket) (l : List UInt8) : Websocket := { s with fragments := l }

theorem frameReceivedComp_plain (h : Handler) (c : List UInt8 → Bool → WsCall) {isCompressed : Bool} (msg : List UInt8)
    (isLastFrame : Bool) (hc : ¬ (isCompressed && s.compressionLevel != 0) = true) :
    frameReceivedComp w h c isCompressed msg isLastFrame s = invoke w h (c msg isLastFrame) s := by
  unfold frameReceivedComp
  rw [Prog.bind_of_some (Prog.read_apply id s)]
  dsimp only [id]
  rw [if_neg hc]

section
variable (h : Handler) (c : List UInt8 → Bool → WsCall) {isCompressed : Bool} (msg : List UInt8)
  (hc : (isCompressed && s.compressionLevel != 0) = true)
include hc

theorem frameReceivedComp_broken (isLastFrame : Bool) (hre : w.reassembles s.log = false) :
    frameReceivedComp w h c isCompressed msg isLastFrame s = some (.error, s) := by
  unfold frameReceivedComp
  rw [Prog.bind_of_some (Prog.read_apply id s)]
  dsimp only [id]
  rw [if_pos hc, if_neg (Bool.eq_false_iff.mp hre)]
  rfl

variable {isLastFrame : Bool} (hre : w.reassembles s.log = true)
include hre

theorem frameReceivedComp_kept (hlast : isLastFrame = false) :
    frameReceivedComp w h c isCompressed msg isLastFrame s = some (.ok, s.collected (s.fragments ++ msg)) := by
  unfold frameReceivedComp
  rw [Prog.bind_of_some (Prog.read_apply id s)]
  dsimp only [id]
  rw [if_pos hc, if_pos hre, if_neg (Bool.eq_false_iff.mp hlast)]
  rfl

theorem frameReceivedComp_corrupt (hlast : isLastFrame = true)
    (htext : w.decompress s.log (s.fragments ++ msg) = none) :
    frameReceivedComp w h c isCompressed msg isLastFrame s = some (.error, s.collected []) := by
  unfold frameReceivedComp
  rw [Prog.bind_of_some (Prog.read_apply id s)]
  dsimp only [id]
  rw [if_pos hc, if_pos hre, if_pos hlast, Prog.bind_of_some (Prog.update_apply _ s), htext]
  rfl

theorem frameReceivedComp_unzipped (hlast : isLastFrame = true) {text : List UInt8}
    (htext : w.decompress s.log (s.fragments ++ msg) = some text) :
    frameReceivedComp w h c isCompressed msg isLastFrame s = invoke w h (c text isLastFrame) (s.collected []) := by
  unfold frameReceivedComp
  rw [Prog.bind_of_some (Prog.read_apply id s)]
  dsimp only [id]
  rw [if_pos hc, if_pos hre, if_pos hlast, Prog.bind_of_some (Prog.update_apply _ s), htext]
  rfl

end

/-- text that the application does not take -/
def declined (type : DataType) (ret : CallbackReturn) : Prop := type = .text ∧ ret = .closed

instance declined_decidable (type : DataType) (ret : CallbackReturn) : Decidable (declined type ret) :=
  inferInstanceAs (Decidable (_ ∧ _))

theorem handle_message_absent (type : DataType) (b : Bool) (frame : List UInt8)
    (hinst : w.installed type.messageHandler = false) :
    (Role.message type).handle w b frame s = failWith w WS_CLOSE_UNSUPPORTED s := by
  cases type with
  | text =>
    show handleText w b frame s = _
    unfold handleText
    rw [if_neg]
    exact Bool.eq_false_iff.mp hinst
  | binary =>
    show handleBinary w b frame s = _
    unfold handleBinary
    rw [if_neg]
    exact Bool.eq_false_iff.mp hinst

/-- the handling of a message, once it is known what the application makes of it -/
theorem handle_message_installed (type : DataType) (b : Bool) (frame : List UInt8)
    (hinst : w.installed type.messageHandler = true) {ret : CallbackReturn} {t : Websocket}
    (h : receivedComp w type.messageHandler type.messageCall b frame s = some (ret, t)) :
    (Role.message type).handle w b frame s
      = if declined type ret then failWith w WS_CLOSE_UNSUPPORTED_DATA t else some (ret, t) := by
  cases type with
  | text =>
    show handleText w b frame s = _
    have hinst' : w.installed .textMessage = true := hinst
    have h' : textReceivedComp w b frame s = some (ret, t) := h
    unfold handleText
    rw [if_pos hinst', Prog.bind_of_some h']
    by_cases hclosed : ret = .closed
    · rw [if_pos hclosed, if_pos ⟨rfl, hclosed⟩]
    · rw [if_neg hclosed, if_neg fun h => hclosed h.2]
      rfl
  | binary =>
    show handleBinary w b frame s = _
    have hinst' : w.installed .binaryMessage = true := hinst
    unfold handleBinary binaryReceivedComp
    rw [if_pos hinst', if_neg fun h => DataType.noConfusion h.1]
    exact h

theorem endFragmentation_apply (lastFrame : Bool) :
    endFragmentation lastFrame s = some ((), s.finished lastFrame) := rfl

theorem handleFragment_binary (frame : List UInt8) (hop : s.fragOpcode = WS_BINARY_FRAME) :
    handleFragment w frame s = (do
      let ret ← binaryFrameReceivedComp w s.isFragCompressed frame s.fin
      endFragmentation s.fin
      return ret : Prog Websocket CallbackReturn) s := by
  unfold handleFragment
  rw [Prog.bind_of_some (Prog.read_apply id s)]
  dsimp only [id]
  rw [if_pos hop]

theorem handleFragment_text (frame : List UInt8) (hop : s.fragOpcode = WS_TEXT_FRAME) :
    handleFragment w frame s = (do
      let ret ← textFrameReceivedComp w s.isFragCompressed frame s.fin
      if ret = .closed then failWith w WS_CLOSE_UNSUPPORTED_DATA
      else
        endFragmentation s.fin
        return ret : Prog Websocket CallbackReturn) s := by
  have hbin : s.fragOpcode ≠ WS_BINARY_FRAME := by
    rw [hop]
    decide
  unfold handleFragment
  rw [Prog.bind_of_some (Prog.read_apply id s)]
  dsimp only [id]
  rw [if_neg hbin, if_pos hop]

/-- the handling of a fragment, once it is known what the application makes of it -/
theorem handle_fragment_some (type : DataType) (b : Bool) (frame : List UInt8) (hop : s.fragOpcode = type.opcode)
    {ret : CallbackReturn} {t : Websocket}
    (h : frameReceivedComp w type.frameHandler type.frameCall s.isFragCompressed frame s.fin s = some (ret, t)) :
    (Role.fragment type).handle w b frame s
      = if declined type ret then failWith w WS_CLOSE_UNSUPPORTED_DATA t else some (ret, t.finished s.fin) := by
  show handleFragment w frame s = _
  cases type with
  | text =>
    have h' : textFrameReceivedComp w s.isFragCompressed frame s.fin s = some (ret, t) := h
    rw [handleFragment_text w s frame hop, Prog.bind_of_some h']
    by_cases hclosed : ret = .closed
    · rw [if_pos hclosed, if_pos ⟨rfl, hclosed⟩]
    · rw [if_neg hclosed, if_neg fun h => hclosed h.2, Prog.bind_of_some (endFragmentation_apply t s.fin)]
      rfl
  | binary =>
    have h' : binaryFrameReceivedComp w s.isFragCompressed frame s.fin s = some (ret, t) := h
    rw [handleFragment_binary w s frame hop, Prog.bind_of_some h', if_neg fun h => DataType.noConfusion h.1,
      Prog.bind_of_some (endFragmentation_apply t s.fin)]
    rfl

theorem handle_fragment_none (type : DataType) (b : Bool) (frame : List UInt8) (hop : s.fragOpcode = type.opcode)
    (h : frameReceivedComp w type.frameHandler type.frameCall s.isFragCompressed frame s.fin s = none) :
    (Role.fragment type).handle w b frame s = none := by
  show handleFragment w frame s = _
  cases type with
  | text =>
    rw [handleFragment_text w s frame hop]
    exact Prog.bind_none h
  | binary =>
    rw [handleFragment_binary w s frame hop]
    exact Prog.bind_none h

end

/-! ## control frames -/

section
variable (w : World) (s : Websocket) {frame : List UInt8}

theorem handlePing_long (hlong : WS_SMALL_FRAME_SIZE < frame.length) :
    handlePing w frame s = failWith w WS_CLOSE_PROTOCOL_ERROR s := by
  unfold handlePing
  rw [if_pos hlong]

/-- the handling of a ping, once the pong is written -/
theorem handlePing_short (hshort : ¬ WS_SMALL_FRAME_SIZE < frame.length) {bytes buffer : List UInt8}
    (hsend : sendFrame w frame WS_PONG_FRAME s
      = some ((w.writes (s.log ++ [.writev bytes]), buffer), s.logged [.writev bytes])) :
    handlePing w frame s
      = if w.writes (s.log ++ [.writev bytes]) then
          if w.installed .ping then
            some (w.returns (s.log ++ [.writev bytes, .ping buffer]), s.logged [.writev bytes, .ping buffer])
          else some (.ok, s.logged [.writev bytes])
        else some (.error, s.logged [.writev bytes]) := by
  have hpong : websocketSendPongFrame w frame s
      = some ((w.writes (s.log ++ [.writev bytes]), buffer), s.logged [.writev bytes]) := hsend
  unfold handlePing
  rw [if_neg hshort, Prog.bind_of_some hpong]
  dsimp only
  cases hwrites : w.writes (s.log ++ [.writev bytes]) with
  | true =>
    rw [if_pos rfl, if_pos rfl]
    cases hinst : w.installed .ping with
    | true =>
      rw [if_pos rfl, if_pos rfl, invoke_installed w _ hinst, logged_logged]
      show some (w.returns ((s.log ++ [.writev bytes]) ++ [.ping buffer]), _) = _
      rw [List.append_assoc]
      rfl
    | false =>
      rw [if_neg Bool.false_ne_true, if_neg Bool.false_ne_true]
      rfl
  | false =>
    rw [if_neg Bool.false_ne_true, if_neg Bool.false_ne_true]
    rfl

theorem handlePong_long (hlong : WS_SMALL_FRAME_SIZE < frame.length) :
    handlePong w frame s = failWith w WS_CLOSE_PROTOCOL_ERROR s := by
  unfold handlePong
  rw [if_pos hlong]

theorem handlePong_short (hshort : ¬ WS_SMALL_FRAME_SIZE < frame.length) :
    handlePong w frame s
      = if w.installed .pong then some (w.returns (s.log ++ [.pong frame]), s.logged [.pong frame]) else some (.ok, s) := by
  unfold handlePong
  rw [if_neg hshort]
  cases hinst : w.installed .pong with
  | true =>
    rw [if_pos rfl, if_pos rfl, invoke_installed w s hinst]
  | false =>
    rw [if_neg Bool.false_ne_true, if_neg Bool.false_ne_true]
    rfl

/-- a close frame whose content is not accepted -/
def closeError (frame : List UInt8) : Option Nat :=
  if closeTextValid frame then
    if frame.length = 1 ∨ WS_SMALL_FRAME_SIZE < frame.length ∨ isStatusCodeInvalid (closeCode frame) = true then
      some WS_CLOSE_PROTOCOL_ERROR
    else none
  else some WS_CLOSE_UNSUPPORTED_DATA

theorem closeCheck_iff (frame : List UInt8) :
    (frame.length == 1 || decide (WS_SMALL_FRAME_SIZE < frame.length) || isStatusCodeInvalid (closeCode frame)) = true
      ↔ frame.length = 1 ∨ WS_SMALL_FRAME_SIZE < frame.length ∨ isStatusCodeInvalid (closeCode frame) = true := by
  rw [Bool.or_eq_true, Bool.or_eq_true, beq_iff_eq, decide_eq_true_iff, or_assoc]

theorem handleClose_error {statusCode : Nat} (herror : closeError frame = some statusCode) :
    handleClose w frame s = failWith w statusCode s := by
  unfold closeError at herror
  unfold handleClose
  cases htext : closeTextValid frame with
  | false =>
    rw [htext, if_neg Bool.false_ne_true] at herror
    obtain rfl := Option.some.inj herror
    rw [if_neg Bool.false_ne_true]
  | true =>
    rw [htext, if_pos rfl] at herror
    rw [if_pos rfl]
    by_cases hbad : frame.length = 1 ∨ WS_SMALL_FRAME_SIZE < frame.length ∨ isStatusCodeInvalid (closeCode frame) = true
    · rw [if_pos hbad] at herror
      obtain rfl := Option.some.inj herror
      rw [if_pos ((closeCheck_iff frame).mpr hbad)]
    · rw [if_neg hbad] at herror
      cases herror

/-- the answer to a close frame -/
theorem handleClose_answer (herror : closeError frame = none) {bytes : List UInt8}
    (hclose : websocketClose w WS_CLOSE_NORMAL s
      = some ((), s.logged [.websocketClose WS_CLOSE_NORMAL, .writev bytes, .freeConnection])) :
    handleClose w frame s = some (.closed, s.logged ([.websocketClose WS_CLOSE_NORMAL, .writev bytes, .freeConnection]
      ++ if w.installed .close then [.close (closeCode frame)] else [])) := by
  unfold closeError at herror
  unfold handleClose
  cases htext : closeTextValid frame with
  | false =>
    rw [htext, if_neg Bool.false_ne_true] at herror
    cases herror
  | true =>
    rw [htext, if_pos rfl] at herror
    rw [if_pos rfl]
    by_cases hbad : frame.length = 1 ∨ WS_SMALL_FRAME_SIZE < frame.length ∨ isStatusCodeInvalid (closeCode frame) = true
    · rw [if_pos hbad] at herror
      cases herror
    · rw [if_neg fun h => hbad ((closeCheck_iff frame).mp h), Prog.bind_of_some hclose]
      cases hinst : w.installed .close with
      | true =>
        rw [if_pos rfl, if_pos rfl, Prog.bind_of_some (invoke_installed w _ hinst _), logged_logged]
        rfl
      | false =>
        rw [if_neg Bool.false_ne_true, if_neg Bool.false_ne_true, List.append_nil]
        rfl

end

/-! ## behind the handling -/

section
variable (w : World) {s : Websocket}

/-- what `ws_get_payload` makes of the result -/
def settle : CallbackReturn → Prog Websocket (Option Part)
  | .ok => pure (some .header)
  | .closed => pure none
  | .error => do
    handleError w WS_CLOSE_INTERNAL_ERROR
    return none

theorem handlePayload_unmasked (payload : List UInt8) (h : s.isServer = true ∧ s.maskFlag = false) :
    handlePayload w payload s = (do
      handleError w WS_CLOSE_PROTOCOL_ERROR
      return none : Prog Websocket (Option Part)) s := by
  have hc : (s.isServer && !s.maskFlag) = true := by
    rw [h.1, h.2]
    rfl
  unfold handlePayload
  rw [Prog.bind_of_some (Prog.read_apply id s)]
  dsimp only [id]
  rw [if_pos hc]

theorem handlePayload_masked (payload : List UInt8) (h : ¬ (s.isServer = true ∧ s.maskFlag = false)) :
    handlePayload w payload s = (wsHandleFrame w payload s).bind fun r => settle w r.1 r.2 := by
  have hc : ¬ (s.isServer && !s.maskFlag) = true := by
    rw [Bool.and_eq_true, Bool.not_eq_true']
    exact h
  unfold handlePayload
  rw [Prog.bind_of_some (Prog.read_apply id s)]
  dsimp only [id]
  rw [if_neg hc, Prog.bind_apply]
  cases wsHandleFrame w payload s with
  | none => rfl
  | some r =>
    obtain ⟨ret, t⟩ := r
    cases ret with
    | ok => rfl
    | closed => rfl
    | error => rfl

theorem settle_error (hup : s.upgradeComplete = true) :
    ∃ bytes, settle w .error s = some (none, s.logged (failCalls WS_CLOSE_INTERNAL_ERROR bytes)) := by
  obtain ⟨bytes, herror⟩ := handleError_apply w hup WS_CLOSE_INTERNAL_ERROR
  exact ⟨bytes, Prog.bind_of_some herror⟩

end

end Websocket
end Cjet
