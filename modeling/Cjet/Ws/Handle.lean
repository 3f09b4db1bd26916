import Cjet.Ws.Receive

/-!
# What the handling of a frame comes down to

The checks of `ws_handle_frame` are spread over four places and a rewritten opcode.  Here each frame has one
role on a connection, or none; the state in between is only what message is open.

* `Frame.role`, `Role.handle`   the role of a frame, and what is done with a frame of that role;
* `handledAs_role`              that is what `ws_handle_frame` does;
* `Tracks`                      the open message in the state of the websocket;
* `tracks_fragment`, `tracks_finished`   it is followed through the handling.
-/

set_option linter.unusedVariables false

namespace Cjet
open Stateful

namespace Websocket

/-! ## the role of a frame -/

inductive DataType where
  | text
  | binary
  deriving DecidableEq

namespace DataType

def opcode : DataType → BitVec 4
  | .text => WS_TEXT_FRAME
  | .binary => WS_BINARY_FRAME

def messageHandler : DataType → Handler
  | .text => .textMessage
  | .binary => .binaryMessage

def frameHandler : DataType → Handler
  | .text => .textFrame
  | .binary => .binaryFrame

def messageCall : DataType → List UInt8 → WsCall
  | .text => .textMessage
  | .binary => .binaryMessage

def frameCall : DataType → List UInt8 → Bool → WsCall
  | .text => .textFrame
  | .binary => .binaryFrame

end DataType

/-- what a frame is on its connection -/
inductive Role where
  /-- a message in one frame -/
  | message (type : DataType)
  | fragment (type : DataType)
  | ping
  | pong
  | close
  deriving DecidableEq

namespace Frame

/-- the RSV bits pass -/
def RsvAllowed (accepted : Bool) (f : Frame) : Prop :=
  f.rsv = 0 ∨ (accepted = true ∧ f.rsv = PER_MESSAGE_COMPRESSED_BIT ∧ f.opcode < WS_CLOSE_FRAME)

instance rsvAllowed_decidable (accepted : Bool) (f : Frame) : Decidable (f.RsvAllowed accepted) :=
  inferInstanceAs (Decidable (_ ∨ _))

/-- the first frame of a message; `cur` is the type of the message that is open -/
def starts (cur : Option DataType) (f : Frame) (type : DataType) : Option Role :=
  if cur.isSome then none else some (if f.fin then .message type else .fragment type)

def controlRole (f : Frame) : Option Role :=
  if f.fin then
    if f.opcode = WS_PING_FRAME then some .ping
    else if f.opcode = WS_PONG_FRAME then some .pong
    else if f.opcode = WS_CLOSE_FRAME then some .close
    else none
  else none

/-- `none`: the frame is a protocol error -/
def role (accepted : Bool) (cur : Option DataType) (f : Frame) : Option Role :=
  if f.RsvAllowed accepted then
    if f.opcode = WS_CONTINUATION_FRAME then
      if f.fin = true ∨ f.rsv = 0 then cur.map .fragment else none
    else if f.opcode = WS_TEXT_FRAME then f.starts cur .text
    else if f.opcode = WS_BINARY_FRAME then f.starts cur .binary
    else f.controlRole
  else none

end Frame

/-- the state of the websocket says that a message of this type is open -/
structure Tracks (s : Websocket) (cur : Option DataType) : Prop where
  isFragmented : s.isFragmented = cur.isSome
  fragOpcode : s.fragOpcode = (cur.map DataType.opcode).getD WS_CONTINUATION_FRAME

/-- the type of the message that is open -/
def openType (s : Websocket) : Option DataType :=
  if s.isFragmented then some (if s.fragOpcode = WS_TEXT_FRAME then .text else .binary) else none

/-- the state in which a frame is dispatched -/
def entered (s : Websocket) (f : Frame) : Websocket :=
  if f.fin = true ∨ f.opcode = WS_CONTINUATION_FRAME then framed s f
  else { framed s f with isFragmented := true
                         isFragCompressed := f.rsv != 0 || s.isFragCompressed
                         fragOpcode := f.opcode
                         opcode := WS_CONTINUATION_FRAME }

def Role.handle (w : World) (compressionBitSet : Bool) (frame : List UInt8) : Role → Prog Websocket CallbackReturn
  | .message .text => handleText w compressionBitSet frame
  | .message .binary => handleBinary w compressionBitSet frame
  | .fragment _ => handleFragment w frame
  | .ping => handlePing w frame
  | .pong => handlePong w frame
  | .close => handleClose w frame

/-! ## the checks -/

section
variable {s : Websocket} {f : Frame}

theorem compressionBit_framed (s : Websocket) (f : Frame) :
    compressionBit (framed s f) = if f.RsvAllowed s.accepted then some (f.rsv != 0) else none := by
  unfold compressionBit
  show (if f.rsv ≠ 0 then (if s.accepted = true then (if f.rsv ≠ PER_MESSAGE_COMPRESSED_BIT then none
    else if WS_CLOSE_FRAME ≤ f.opcode then none else some true) else none) else some false) = _
  by_cases h0 : f.rsv = 0
  · rw [if_neg (not_not.mpr h0), if_pos (show f.RsvAllowed s.accepted from Or.inl h0), h0]
    rfl
  · have hbit : (f.rsv != 0) = true := bne_iff_ne.mpr h0
    rw [if_pos h0, hbit]
    by_cases ha : s.accepted = true
    · rw [if_pos ha]
      by_cases h4 : f.rsv = PER_MESSAGE_COMPRESSED_BIT
      · rw [if_neg (not_not.mpr h4)]
        by_cases hop : f.opcode < WS_CLOSE_FRAME
        · rw [if_neg (BitVec.not_le.mpr hop), 
            if_pos (show f.RsvAllowed s.accepted from Or.inr ⟨ha, h4, hop⟩)]
        · rw [if_pos (BitVec.not_lt.mp hop), if_neg fun h => h.elim h0 fun h => hop h.2.2]
      · rw [if_pos h4, if_neg fun h => h.elim h0 fun h => h4 h.2.1]
    · rw [if_neg ha, if_neg fun h => h.elim h0 fun h => ha h.1]

theorem trackFragments_fin (b : Bool) (hfin : s.fin = true) :
    trackFragments b s = if s.isFragmented = true ∧ s.opcode < WS_CLOSE_FRAME ∧ 0 < s.opcode then none else some s := by
  have hplace : (s.isFragmented && decide (s.opcode < WS_CLOSE_FRAME ∧ 0 < s.opcode)) = true
      ↔ s.isFragmented = true ∧ s.opcode < WS_CLOSE_FRAME ∧ 0 < s.opcode := by
    rw [Bool.and_eq_true, decide_eq_true_iff]
  unfold trackFragments
  rw [hfin]
  show (if (s.isFragmented && decide (s.opcode < WS_CLOSE_FRAME ∧ 0 < s.opcode)) = true then none else some s) = _
  by_cases h : s.isFragmented = true ∧ s.opcode < WS_CLOSE_FRAME ∧ 0 < s.opcode
  · rw [if_pos (hplace.mpr h), if_pos h]
  · rw [if_neg fun h' => h (hplace.mp h'), if_neg h]

theorem trackFragments_control (b : Bool) (hfin : s.fin = false) (hop : WS_CLOSE_FRAME ≤ s.opcode) :
    trackFragments b s = none := by
  unfold trackFragments
  rw [hfin, decide_eq_true hop]
  rfl

/-- a frame that starts a message of several frames -/
theorem trackFragments_first (b : Bool) (hfin : s.fin = false) (hop : ¬ WS_CLOSE_FRAME ≤ s.opcode)
    (hne : s.opcode ≠ WS_CONTINUATION_FRAME) :
    trackFragments b s = if s.isFragmented = true then none
      else some { s with isFragmented := true, isFragCompressed := b || s.isFragCompressed, fragOpcode := s.opcode
                         opcode := WS_CONTINUATION_FRAME } := by
  unfold trackFragments
  rw [hfin, decide_eq_false hop]
  dsimp only
  rw [if_neg (by decide), if_neg (by decide), if_pos hne]
  by_cases hfrag : s.isFragmented = true
  · rw [if_pos hfrag]
    rfl
  · rw [if_neg hfrag]
    rfl

/-- a frame within a message -/
theorem trackFragments_middle (b : Bool) (hfin : s.fin = false) (hop : s.opcode = WS_CONTINUATION_FRAME) :
    trackFragments b s = if s.rsv = 0 ∧ s.isFragmented = true then some s else none := by
  have hcontrol : ¬ WS_CLOSE_FRAME ≤ s.opcode := by
    rw [hop]
    decide
  have hplace : ¬ (s.isFragmented && decide (s.opcode < WS_CLOSE_FRAME ∧ 0 < s.opcode)) = true := by
    rw [hop, decide_eq_false (by decide), Bool.and_false]
    exact Bool.false_ne_true
  unfold trackFragments
  rw [hfin, decide_eq_false hcontrol]
  dsimp only
  rw [if_neg (by decide), if_neg (by decide), if_neg (not_not.mpr hop)]
  by_cases hr : s.rsv = 0
  · rw [if_neg (not_not.mpr hr)]
    cases hfrag : s.isFragmented with
    | false =>
      rw [if_pos Bool.not_false, if_neg fun h => Bool.false_ne_true h.2]
      rfl
    | true =>
      rw [if_neg (by decide), if_pos ⟨hr, rfl⟩]
      show (if (s.isFragmented && decide (s.opcode < WS_CLOSE_FRAME ∧ 0 < s.opcode)) = true then none else some s)
        = some s
      rw [if_neg hplace]
  · rw [if_pos hr, if_neg fun h => hr h.1]
    rfl

/-! ## frames with a role, and without -/

theorem entered_fin (s : Websocket) (hfin : f.fin = true) : entered s f = framed s f := by
  unfold entered
  rw [if_pos (Or.inl hfin)]

theorem entered_continuation (s : Websocket) (hop : f.opcode = WS_CONTINUATION_FRAME) : entered s f = framed s f := by
  unfold entered
  rw [if_pos (Or.inr hop)]

theorem entered_first (s : Websocket) (hfin : f.fin = false) (hne : f.opcode ≠ WS_CONTINUATION_FRAME) :
    entered s f = { framed s f with isFragmented := true, isFragCompressed := f.rsv != 0 || s.isFragCompressed
                                    fragOpcode := f.opcode, opcode := WS_CONTINUATION_FRAME } := by
  unfold entered
  rw [if_neg]
  rw [hfin]
  exact fun h => h.elim (fun h => Bool.false_ne_true h) hne

variable (w : World) {cur : Option DataType}

/-- `ws_handle_frame` behind its two checks -/
theorem wsHandleFrame_eq (frame : List UInt8) (s : Websocket) :
    wsHandleFrame w frame s = ((compressionBit s).elim (failWith w WS_CLOSE_PROTOCOL_ERROR) fun b =>
      (trackFragments b s).elim (failWith w WS_CLOSE_PROTOCOL_ERROR) fun t => do
        Prog.update fun _ => t
        dispatchFrame w b frame) s := by
  unfold wsHandleFrame
  rw [Prog.bind_of_some (Prog.read_apply id s)]
  dsimp only [id]
  cases compressionBit s with
  | none => rfl
  | some b =>
    dsimp only [Option.elim]
    cases trackFragments b s with
    | none => rfl
    | some t => rfl

theorem wsHandleFrame_of_refused {frame : List UInt8} {b : Bool} (hb : compressionBit s = some b)
    (ht : trackFragments b s = none) : wsHandleFrame w frame s = failWith w WS_CLOSE_PROTOCOL_ERROR s := by
  rw [wsHandleFrame_eq, hb]
  dsimp only [Option.elim]
  rw [ht]

theorem wsHandleFrame_of_tracked {frame : List UInt8} {b : Bool} {t : Websocket} (hb : compressionBit s = some b)
    (ht : trackFragments b s = some t) : wsHandleFrame w frame s = dispatchFrame w b frame t := by
  rw [wsHandleFrame_eq, hb]
  dsimp only [Option.elim]
  rw [ht]
  rfl

theorem dispatchFrame_eq (b : Bool) (frame : List UInt8) (t : Websocket) :
    dispatchFrame w b frame t
      = (if t.opcode = WS_CONTINUATION_FRAME then handleFragment w frame
        else if t.opcode = WS_BINARY_FRAME then handleBinary w b frame
        else if t.opcode = WS_TEXT_FRAME then handleText w b frame
        else if t.opcode = WS_PING_FRAME then handlePing w frame
        else if t.opcode = WS_PONG_FRAME then handlePong w frame
        else if t.opcode = WS_CLOSE_FRAME then handleClose w frame
        else failWith w WS_CLOSE_PROTOCOL_ERROR) t := rfl

/-- a fragment of no message -/
theorem handleFragment_none (frame : List UInt8) {t : Websocket} (hbin : t.fragOpcode ≠ WS_BINARY_FRAME)
    (htext : t.fragOpcode ≠ WS_TEXT_FRAME) : handleFragment w frame t = failWith w WS_CLOSE_PROTOCOL_ERROR t := by
  unfold handleFragment
  rw [Prog.bind_of_some (Prog.read_apply id t)]
  dsimp only [id]
  rw [if_neg hbin, if_neg htext]

/-- the handling fails in a state with the same log -/
def Refused (s : Websocket) (f : Frame) : Prop :=
  ∃ t, (t = framed s f ∨ t = entered s f) ∧ wsHandleFrame w f.payload (framed s f)
    = failWith w WS_CLOSE_PROTOCOL_ERROR t

/-- what `ws_handle_frame` does with a frame of this role, or without one -/
def HandledAs (s : Websocket) (f : Frame) (role : Option Role) : Prop :=
  role.elim (Refused w s f) fun r =>
    wsHandleFrame w f.payload (framed s f) = r.handle w (f.rsv != 0) f.payload (entered s f)

variable {w}

theorem handledAs_refused {b : Bool} (hb : compressionBit (framed s f) = some b)
    (ht : trackFragments b (framed s f) = none) : HandledAs w s f none :=
  ⟨framed s f, Or.inl rfl, wsHandleFrame_of_refused w hb ht⟩

theorem compressionBit_allowed (hallowed : f.RsvAllowed s.accepted) :
    compressionBit (framed s f) = some (f.rsv != 0) := by
  rw [compressionBit_framed, if_pos hallowed]

variable (hs : Tracks s cur) (hallowed : f.RsvAllowed s.accepted)
include hs hallowed

/-- a continuation frame -/
theorem handledAs_continuation (hop : f.opcode = WS_CONTINUATION_FRAME) :
    HandledAs w s f (if f.fin = true ∨ f.rsv = 0 then cur.map .fragment else none) := by
  have hb := compressionBit_allowed hallowed
  have hdispatch : trackFragments (f.rsv != 0) (framed s f) = some (framed s f) →
      HandledAs w s f (cur.map .fragment) := by
    intro ht
    have hhandle : wsHandleFrame w f.payload (framed s f) = handleFragment w f.payload (framed s f) := by
      rw [wsHandleFrame_of_tracked w hb ht, dispatchFrame_eq]
      show (if f.opcode = WS_CONTINUATION_FRAME then handleFragment w f.payload else _) (framed s f) = _
      rw [if_pos hop]
    cases cur with
    | none =>
      have hfrag : (framed s f).fragOpcode = WS_CONTINUATION_FRAME := hs.fragOpcode
      refine ⟨framed s f, Or.inl rfl, ?_⟩
      rw [hhandle]
      refine handleFragment_none w f.payload ?_ ?_
      · rw [hfrag]
        decide
      · rw [hfrag]
        decide
    | some type =>
      show wsHandleFrame w f.payload (framed s f) = handleFragment w f.payload (entered s f)
      rw [hhandle, entered_continuation s hop]
  cases hfin : f.fin with
  | true =>
    rw [if_pos (Or.inl rfl)]
    refine hdispatch ?_
    rw [trackFragments_fin (f.rsv != 0) hfin, if_neg]
    show ¬ (_ ∧ _ ∧ 0 < f.opcode)
    rw [hop]
    exact fun h => absurd h.2.2 (by decide)
  | false =>
    have hmiddle := trackFragments_middle (f.rsv != 0) (s := framed s f) hfin hop
    by_cases hr : f.rsv = 0
    · rw [if_pos (Or.inr hr)]
      cases hcur : cur with
      | none =>
        refine handledAs_refused hb ?_
        rw [hmiddle, if_neg]
        rintro ⟨_, h⟩
        have h1 : s.isFragmented = true := h
        rw [hs.isFragmented, hcur] at h1
        exact Bool.false_ne_true h1
      | some type =>
        rw [← hcur]
        refine hdispatch ?_
        rw [hmiddle, if_pos]
        refine ⟨hr, ?_⟩
        show s.isFragmented = true
        rw [hs.isFragmented, hcur]
        rfl
    · rw [if_neg fun h => h.elim (fun h => Bool.false_ne_true h) hr]
      refine handledAs_refused hb ?_
      rw [hmiddle, if_neg fun h => hr h.1]

/-- the only frame of a message, or its first one -/
theorem handledAs_starts (type : DataType) (hop : f.opcode = type.opcode) :
    HandledAs w s f (f.starts cur type) := by
  have hb := compressionBit_allowed hallowed
  have hne : f.opcode ≠ WS_CONTINUATION_FRAME := by
    rw [hop]
    cases type with
    | text => decide
    | binary => decide
  have hdata : f.opcode < WS_CLOSE_FRAME ∧ 0 < f.opcode := by
    rw [hop]
    cases type with
    | text => decide
    | binary => decide
  have hfrag : (framed s f).isFragmented = cur.isSome := hs.isFragmented
  unfold Frame.starts
  cases hfin : f.fin with
  | true =>
    have ht := trackFragments_fin (f.rsv != 0) (s := framed s f) hfin
    by_cases hcur : cur.isSome = true
    · rw [if_pos hcur]
      refine handledAs_refused hb ?_
      rw [ht, if_pos ⟨hfrag.trans hcur, hdata⟩]
    · rw [if_neg hcur, if_pos rfl]
      rw [if_neg fun h => hcur (hfrag.symm.trans h.1)] at ht
      show wsHandleFrame w f.payload (framed s f) = (Role.message type).handle w (f.rsv != 0) f.payload (entered s f)
      rw [wsHandleFrame_of_tracked w hb ht, dispatchFrame_eq, entered_fin s hfin]
      show (if f.opcode = WS_CONTINUATION_FRAME then _ else if f.opcode = WS_BINARY_FRAME then _
        else if f.opcode = WS_TEXT_FRAME then _ else _ : Prog Websocket CallbackReturn) (framed s f) = _
      rw [if_neg hne, hop]
      cases type with
      | text => rfl
      | binary => rfl
  | false =>
    have ht := trackFragments_first (f.rsv != 0) (s := framed s f) hfin (BitVec.not_le.mpr hdata.1) hne
    by_cases hcur : cur.isSome = true
    · rw [if_pos hcur]
      refine handledAs_refused hb ?_
      rw [ht, if_pos (hfrag.trans hcur)]
    · rw [if_neg hcur, if_neg Bool.false_ne_true]
      rw [if_neg fun h => hcur (hfrag.symm.trans h)] at ht
      show wsHandleFrame w f.payload (framed s f) = handleFragment w f.payload (entered s f)
      rw [wsHandleFrame_of_tracked w hb ht, dispatchFrame_eq, entered_first s hfin hne]
      rfl

omit hs in
/-- a control frame, or one with an unknown opcode -/
theorem handledAs_control (h0 : f.opcode ≠ WS_CONTINUATION_FRAME) (h1 : f.opcode ≠ WS_TEXT_FRAME)
    (h2 : f.opcode ≠ WS_BINARY_FRAME) : HandledAs w s f f.controlRole := by
  have hb := compressionBit_allowed hallowed
  unfold Frame.controlRole
  cases hfin : f.fin with
  | true =>
    have ht := trackFragments_fin (f.rsv != 0) (s := framed s f) hfin
    rw [if_pos rfl]
    by_cases hplace : (framed s f).isFragmented = true ∧ (framed s f).opcode < WS_CLOSE_FRAME ∧ 0 < (framed s f).opcode
    · have hunknown : ∀ o : BitVec 4, WS_CLOSE_FRAME ≤ o → f.opcode ≠ o := by
        rintro o ho rfl
        exact absurd ho (BitVec.not_le.mpr hplace.2.1)
      rw [if_pos hplace] at ht
      rw [if_neg (hunknown _ (by decide)), if_neg (hunknown _ (by decide)), if_neg (hunknown _ (by decide))]
      exact handledAs_refused hb ht
    · rw [if_neg hplace] at ht
      have hhandle : wsHandleFrame w f.payload (framed s f)
          = (if f.opcode = WS_PING_FRAME then handlePing w f.payload
            else if f.opcode = WS_PONG_FRAME then handlePong w f.payload
            else if f.opcode = WS_CLOSE_FRAME then handleClose w f.payload
            else failWith w WS_CLOSE_PROTOCOL_ERROR) (entered s f) := by
        rw [wsHandleFrame_of_tracked w hb ht, dispatchFrame_eq, entered_fin s hfin]
        show (if f.opcode = WS_CONTINUATION_FRAME then _ else if f.opcode = WS_BINARY_FRAME then _
          else if f.opcode = WS_TEXT_FRAME then _ else _ : Prog Websocket CallbackReturn) (framed s f) = _
        rw [if_neg h0, if_neg h2, if_neg h1]
        rfl
      by_cases hping : f.opcode = WS_PING_FRAME
      · rw [if_pos hping] at hhandle ⊢
        exact hhandle
      rw [if_neg hping] at hhandle ⊢
      by_cases hpong : f.opcode = WS_PONG_FRAME
      · rw [if_pos hpong] at hhandle ⊢
        exact hhandle
      rw [if_neg hpong] at hhandle ⊢
      by_cases hclose : f.opcode = WS_CLOSE_FRAME
      · rw [if_pos hclose] at hhandle ⊢
        exact hhandle
      rw [if_neg hclose] at hhandle ⊢
      exact ⟨entered s f, Or.inr rfl, hhandle⟩
  | false =>
    rw [if_neg Bool.false_ne_true]
    by_cases hcontrol : WS_CLOSE_FRAME ≤ f.opcode
    · exact handledAs_refused hb (trackFragments_control (f.rsv != 0) hfin hcontrol)
    · have ht := trackFragments_first (f.rsv != 0) (s := framed s f) hfin hcontrol h0
      by_cases hfrag : (framed s f).isFragmented = true
      · rw [if_pos hfrag] at ht
        exact handledAs_refused hb ht
      · rw [if_neg hfrag] at ht
        refine ⟨entered s f, Or.inr rfl, ?_⟩
        rw [wsHandleFrame_of_tracked w hb ht, entered_first s hfin h0]
        exact handleFragment_none w f.payload h2 h1

omit hallowed in
/-- What `ws_handle_frame` does with a frame is what is done with its role. -/
theorem handledAs_role (f : Frame) : HandledAs w s f (f.role s.accepted cur) := by
  unfold Frame.role
  by_cases hallowed : f.RsvAllowed s.accepted
  · rw [if_pos hallowed]
    by_cases h0 : f.opcode = WS_CONTINUATION_FRAME
    · rw [if_pos h0]
      exact handledAs_continuation hs hallowed h0
    rw [if_neg h0]
    by_cases h1 : f.opcode = WS_TEXT_FRAME
    · rw [if_pos h1]
      exact handledAs_starts hs hallowed .text h1
    rw [if_neg h1]
    by_cases h2 : f.opcode = WS_BINARY_FRAME
    · rw [if_pos h2]
      exact handledAs_starts hs hallowed .binary h2
    rw [if_neg h2]
    exact handledAs_control hallowed h0 h1 h2
  · rw [if_neg hallowed]
    refine ⟨framed s f, Or.inl rfl, ?_⟩
    rw [wsHandleFrame_eq, compressionBit_framed, if_neg hallowed]
    rfl

end

/-! ## the open message -/

section
variable {s : Websocket} {f : Frame} {cur : Option DataType} {accepted : Bool}

theorem Tracks.of_eq {t : Websocket} (hs : Tracks s cur) (h1 : t.isFragmented = s.isFragmented)
    (h2 : t.fragOpcode = s.fragOpcode) : Tracks t cur := ⟨h1.trans hs.isFragmented, h2.trans hs.fragOpcode⟩

theorem openType_of_tracks (hs : Tracks s cur) : openType s = cur := by
  have h1 := hs.isFragmented
  have h2 := hs.fragOpcode
  unfold openType
  cases cur with
  | none =>
    rw [if_neg]
    rw [h1]
    exact Bool.false_ne_true
  | some type =>
    have hopen : s.isFragmented = true := h1
    rw [if_pos hopen]
    cases type with
    | text =>
      have htext : s.fragOpcode = WS_TEXT_FRAME := h2
      rw [if_pos htext]
    | binary =>
      have htext : s.fragOpcode ≠ WS_TEXT_FRAME := by
        rw [h2]
        decide
      rw [if_neg htext]

theorem starts_eq_some {type : DataType} {r : Role} (h : f.starts cur type = some r) :
    cur = none ∧ r = if f.fin then .message type else .fragment type := by
  unfold Frame.starts at h
  cases cur with
  | none =>
    rw [if_neg (by decide)] at h
    exact ⟨rfl, (Option.some.inj h).symm⟩
  | some t => cases h

theorem controlRole_eq_some {r : Role} (h : f.controlRole = some r) :
    f.fin = true ∧ (f.opcode = WS_PING_FRAME ∧ r = .ping ∨ f.opcode = WS_PONG_FRAME ∧ r = .pong
      ∨ f.opcode = WS_CLOSE_FRAME ∧ r = .close) := by
  unfold Frame.controlRole at h
  cases hfin : f.fin with
  | false =>
    rw [hfin, if_neg Bool.false_ne_true] at h
    cases h
  | true =>
    rw [hfin, if_pos rfl] at h
    refine ⟨rfl, ?_⟩
    by_cases hping : f.opcode = WS_PING_FRAME
    · rw [if_pos hping] at h
      exact Or.inl ⟨hping, (Option.some.inj h).symm⟩
    rw [if_neg hping] at h
    by_cases hpong : f.opcode = WS_PONG_FRAME
    · rw [if_pos hpong] at h
      exact Or.inr (Or.inl ⟨hpong, (Option.some.inj h).symm⟩)
    rw [if_neg hpong] at h
    by_cases hclose : f.opcode = WS_CLOSE_FRAME
    · rw [if_pos hclose] at h
      exact Or.inr (Or.inr ⟨hclose, (Option.some.inj h).symm⟩)
    rw [if_neg hclose] at h
    cases h

/-- the frames that have a role -/
inductive HasRole (cur : Option DataType) (f : Frame) : Role → Prop where
  | continuation {type : DataType} (hop : f.opcode = WS_CONTINUATION_FRAME) (hcur : cur = some type)
      (hlast : f.fin = true ∨ f.rsv = 0) : HasRole cur f (.fragment type)
  | first {type : DataType} (hop : f.opcode = type.opcode) (hcur : cur = none) (hfin : f.fin = false) :
      HasRole cur f (.fragment type)
  | message {type : DataType} (hop : f.opcode = type.opcode) (hcur : cur = none) (hfin : f.fin = true) :
      HasRole cur f (.message type)
  | ping (hop : f.opcode = WS_PING_FRAME) (hfin : f.fin = true) : HasRole cur f .ping
  | pong (hop : f.opcode = WS_PONG_FRAME) (hfin : f.fin = true) : HasRole cur f .pong
  | close (hop : f.opcode = WS_CLOSE_FRAME) (hfin : f.fin = true) : HasRole cur f .close

theorem hasRole_of_starts {type : DataType} {r : Role} (hop : f.opcode = type.opcode)
    (h : f.starts cur type = some r) : HasRole cur f r := by
  obtain ⟨hcur, rfl⟩ := starts_eq_some h
  cases hfin : f.fin with
  | true => exact HasRole.message hop hcur hfin
  | false => exact HasRole.first hop hcur hfin

theorem hasRole_of_role {r : Role} (h : f.role accepted cur = some r) : f.RsvAllowed accepted ∧ HasRole cur f r := by
  unfold Frame.role at h
  by_cases hallowed : f.RsvAllowed accepted
  · refine ⟨hallowed, ?_⟩
    rw [if_pos hallowed] at h
    by_cases h0 : f.opcode = WS_CONTINUATION_FRAME
    · rw [if_pos h0] at h
      by_cases hlast : f.fin = true ∨ f.rsv = 0
      · rw [if_pos hlast] at h
        obtain ⟨type, hcur, rfl⟩ := Option.map_eq_some_iff.mp h
        exact HasRole.continuation h0 hcur hlast
      · rw [if_neg hlast] at h
        cases h
    rw [if_neg h0] at h
    by_cases h1 : f.opcode = WS_TEXT_FRAME
    · rw [if_pos h1] at h
      exact hasRole_of_starts (show f.opcode = DataType.text.opcode from h1) h
    rw [if_neg h1] at h
    by_cases h2 : f.opcode = WS_BINARY_FRAME
    · rw [if_pos h2] at h
      exact hasRole_of_starts (show f.opcode = DataType.binary.opcode from h2) h
    rw [if_neg h2] at h
    obtain ⟨hfin, ⟨hop, rfl⟩ | ⟨hop, rfl⟩ | ⟨hop, rfl⟩⟩ := controlRole_eq_some h
    · exact HasRole.ping hop hfin
    · exact HasRole.pong hop hfin
    · exact HasRole.close hop hfin
  · rw [if_neg hallowed] at h
    cases h

theorem opcode_ne_continuation (type : DataType) : type.opcode ≠ WS_CONTINUATION_FRAME := by
  cases type with
  | text => decide
  | binary => decide

theorem role_of_hasRole {r : Role} (hallowed : f.RsvAllowed accepted) (h : HasRole cur f r) :
    f.role accepted cur = some r := by
  have hstarts : ∀ type, f.opcode = DataType.opcode type → f.role accepted cur = f.starts cur type := by
    intro type hop
    unfold Frame.role
    rw [if_pos hallowed, hop]
    cases type with
    | text => rfl
    | binary => rfl
  cases h with
  | continuation hop hcur hlast =>
    unfold Frame.role
    rw [if_pos hallowed, if_pos hop, if_pos hlast, hcur]
    rfl
  | first hop hcur hfin =>
    rw [hstarts _ hop, Frame.starts, hcur, hfin]
    rfl
  | message hop hcur hfin =>
    rw [hstarts _ hop, Frame.starts, hcur, hfin]
    rfl
  | ping hop hfin =>
    unfold Frame.role Frame.controlRole
    rw [if_pos hallowed, hop, hfin]
    rfl
  | pong hop hfin =>
    unfold Frame.role Frame.controlRole
    rw [if_pos hallowed, hop, hfin]
    rfl
  | close hop hfin =>
    unfold Frame.role Frame.controlRole
    rw [if_pos hallowed, hop, hfin]
    rfl

/-- in the state in which a fragment is dispatched its message is open -/
theorem tracks_fragment {type : DataType} (hs : Tracks s cur) (h : HasRole cur f (.fragment type)) :
    Tracks (entered s f) (some type) := by
  cases h with
  | continuation hop hcur hlast =>
    rw [entered_continuation s hop]
    rw [hcur] at hs
    exact hs.of_eq rfl rfl
  | first hop hcur hfin =>
    have hne : f.opcode ≠ WS_CONTINUATION_FRAME := by
      rw [hop]
      exact opcode_ne_continuation type
    rw [entered_first s hfin hne]
    exact ⟨rfl, hop⟩

/-- the other frames do not enter a message -/
theorem entered_eq_framed {r : Role} (h : HasRole cur f r) (hr : ∀ type, r ≠ .fragment type) :
    entered s f = framed s f := by
  cases h with
  | continuation hop hcur hlast => exact absurd rfl (hr _)
  | first hop hcur hfin => exact absurd rfl (hr _)
  | message hop hcur hfin => exact entered_fin s hfin
  | ping hop hfin => exact entered_fin s hfin
  | pong hop hfin => exact entered_fin s hfin
  | close hop hfin => exact entered_fin s hfin

/-- the state behind the last fragment -/
def finished (s : Websocket) (lastFrame : Bool) : Websocket :=
  if lastFrame then { s with isFragmented := false, isFragCompressed := false, fragOpcode := WS_CONTINUATION_FRAME } else s

theorem tracks_finished (hs : Tracks s cur) (lastFrame : Bool) :
    Tracks (s.finished lastFrame) (if lastFrame then none else cur) := by
  cases lastFrame with
  | true => exact ⟨rfl, rfl⟩
  | false => exact hs

end

end Websocket
end Cjet
