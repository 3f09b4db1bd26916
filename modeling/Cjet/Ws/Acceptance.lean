import Cjet.Ws.Response

/-!
# Which frames are accepted

* `Frame.Legal`, `LegalSequence`   the rules for frames;
* `role_of_legal`, `legal_or_late`   the frames that have a role are the legal ones, those that are too long,
  and the last frames of a compressed message that repeat its RSV1 bit (`LateRsv1`);
* `failsAtIllegal_iff`   the connection fails at the first illegal frame where none of these arrives.
-/

set_option linter.unusedVariables false

namespace Cjet
open Stateful

namespace Websocket

/-! ## the rules -/

def Frame.rsv1 (f : Frame) : Bool := f.rsv.getLsbD 2
def Frame.rsv2 (f : Frame) : Bool := f.rsv.getLsbD 1
def Frame.rsv3 (f : Frame) : Bool := f.rsv.getLsbD 0

def Frame.IsControl (f : Frame) : Prop :=
  f.opcode = WS_CLOSE_FRAME ∨ f.opcode = WS_PING_FRAME ∨ f.opcode = WS_PONG_FRAME

def Frame.IsData (f : Frame) : Prop := f.opcode = WS_TEXT_FRAME ∨ f.opcode = WS_BINARY_FRAME

/-- a legal frame for a server or a client, inside a fragmented message or outside of one -/
structure Frame.Legal (isServer accepted inside : Bool) (f : Frame) : Prop where
  masked : isServer = true → f.mask.isSome = true
  known : f.opcode = WS_CONTINUATION_FRAME ∨ f.IsData ∨ f.IsControl
  control : f.IsControl → f.fin = true ∧ f.rsv = 0 ∧ f.payload.length ≤ 125
  continuation : f.opcode = WS_CONTINUATION_FRAME → inside = true
  data : f.IsData → inside = false
  rsv1 : f.rsv1 = true → accepted = true ∧ f.IsData
  rsv2 : f.rsv2 = false
  rsv3 : f.rsv3 = false

/-- are the frames behind this one inside a message? -/
def Frame.inside (inside : Bool) (f : Frame) : Bool := if f.opcode < WS_CLOSE_FRAME then !f.fin else inside

def LegalSequence (isServer accepted : Bool) : Bool → List Frame → Prop
  | _, [] => True
  | inside, f :: l => f.Legal isServer accepted inside ∧ LegalSequence isServer accepted (f.inside inside) l

/-- the last frame of a fragmented message, with the RSV1 bit -/
def LateRsv1 (s : Websocket) (f : Frame) : Prop :=
  s.accepted = true ∧ s.isFragmented = true ∧ f.mask.isSome = true ∧ f.opcode = WS_CONTINUATION_FRAME
    ∧ f.fin = true ∧ f.rsv = PER_MESSAGE_COMPRESSED_BIT

/-! ## frames with a role -/

theorem rsv_eq_zero : ∀ r : BitVec 3, r.getLsbD 2 = false → r.getLsbD 1 = false → r.getLsbD 0 = false → r = 0 := by
  decide

theorem rsv_eq_four : ∀ r : BitVec 3, r.getLsbD 2 = true → r.getLsbD 1 = false → r.getLsbD 0 = false →
    r = PER_MESSAGE_COMPRESSED_BIT := by
  decide

section
variable {f : Frame} {cur : Option DataType} {accepted : Bool}

theorem Frame.IsData.exists_type (h : f.IsData) : ∃ type : DataType, f.opcode = type.opcode := by
  rcases h with h | h
  · exact ⟨.text, h⟩
  · exact ⟨.binary, h⟩

theorem isData_of_opcode {type : DataType} (h : f.opcode = type.opcode) : f.IsData := by
  cases type with
  | text => exact Or.inl h
  | binary => exact Or.inr h

theorem Frame.IsData.lt (h : f.IsData) : f.opcode < WS_CLOSE_FRAME := by
  rcases h with h | h
  · rw [h]
    decide
  · rw [h]
    decide

theorem Frame.IsControl.not_lt (h : f.IsControl) : ¬ f.opcode < WS_CLOSE_FRAME := by
  rcases h with h | h | h
  · rw [h]
    decide
  · rw [h]
    decide
  · rw [h]
    decide

theorem not_isData_of_continuation (hop : f.opcode = WS_CONTINUATION_FRAME) : ¬ f.IsData := by
  rintro (h | h)
  · exact absurd (hop.symm.trans h) (by decide)
  · exact absurd (hop.symm.trans h) (by decide)

theorem not_isControl_of_continuation (hop : f.opcode = WS_CONTINUATION_FRAME) : ¬ f.IsControl := fun h => by
  refine absurd ?_ h.not_lt
  rw [hop]
  decide

theorem rsvAllowed_of_legal {isServer inside : Bool} (h : f.Legal isServer accepted inside) :
    f.RsvAllowed accepted := by
  cases h1 : f.rsv1 with
  | false => exact Or.inl (rsv_eq_zero f.rsv h1 h.rsv2 h.rsv3)
  | true =>
    obtain ⟨ha, hdata⟩ := h.rsv1 h1
    exact Or.inr ⟨ha, rsv_eq_four f.rsv h1 h.rsv2 h.rsv3, hdata.lt⟩

theorem role_of_legal {isServer : Bool} (h : f.Legal isServer accepted cur.isSome) :
    ∃ r, f.role accepted cur = some r := by
  have hallowed := rsvAllowed_of_legal h
  rcases h.known with hop | hdata | hcontrol
  · obtain ⟨type, hcur⟩ := Option.isSome_iff_exists.mp (h.continuation hop)
    have hrsv : f.rsv = 0 := by
      have h1 : f.rsv1 = false := by
        rw [Bool.eq_false_iff]
        exact fun h1 => not_isData_of_continuation hop (h.rsv1 h1).2
      exact rsv_eq_zero f.rsv h1 h.rsv2 h.rsv3
    exact ⟨_, role_of_hasRole hallowed (HasRole.continuation hop hcur (Or.inr hrsv))⟩
  · obtain ⟨type, hop⟩ := hdata.exists_type
    have hcur : cur = none := Option.not_isSome_iff_eq_none.mp (Bool.eq_false_iff.mp (h.data hdata))
    cases hfin : f.fin with
    | true => exact ⟨_, role_of_hasRole hallowed (HasRole.message hop hcur hfin)⟩
    | false => exact ⟨_, role_of_hasRole hallowed (HasRole.first hop hcur hfin)⟩
  · obtain ⟨hfin, _, _⟩ := h.control hcontrol
    rcases hcontrol with hop | hop | hop
    · exact ⟨_, role_of_hasRole hallowed (HasRole.close hop hfin)⟩
    · exact ⟨_, role_of_hasRole hallowed (HasRole.ping hop hfin)⟩
    · exact ⟨_, role_of_hasRole hallowed (HasRole.pong hop hfin)⟩

/-- a legal frame, except that the length of a control frame is left open -/
theorem legal_of_rsv_zero {inside : Bool} (hmask : f.mask.isSome = true) (hrsv : f.rsv = 0)
    (hknown : f.opcode = WS_CONTINUATION_FRAME ∨ f.IsData ∨ f.IsControl)
    (hcontrol : f.IsControl → f.fin = true ∧ f.payload.length ≤ 125)
    (hcontinuation : f.opcode = WS_CONTINUATION_FRAME → inside = true) (hdata : f.IsData → inside = false) :
    f.Legal true accepted inside := by
  have hbits : f.rsv1 = false ∧ f.rsv2 = false ∧ f.rsv3 = false := by
    unfold Frame.rsv1 Frame.rsv2 Frame.rsv3
    rw [hrsv]
    exact ⟨rfl, rfl, rfl⟩
  refine ⟨fun _ => hmask, hknown, fun h => ⟨(hcontrol h).1, hrsv, (hcontrol h).2⟩, hcontinuation, hdata,
    ?_, hbits.2.1, hbits.2.2⟩
  intro h
  rw [hbits.1] at h
  cases h

theorem legal_data {type : DataType} (hmask : f.mask.isSome = true) (hallowed : f.RsvAllowed accepted)
    (hop : f.opcode = type.opcode) : f.Legal true accepted false := by
  have hdata := isData_of_opcode hop
  have hcontrol : ¬ f.IsControl := fun h => h.not_lt hdata.lt
  have hcontinuation : f.opcode ≠ WS_CONTINUATION_FRAME := by
    rw [hop]
    exact opcode_ne_continuation type
  rcases hallowed with hrsv | ⟨ha, hrsv, _⟩
  · exact legal_of_rsv_zero hmask hrsv (Or.inr (Or.inl hdata)) (fun h => absurd h hcontrol)
      (fun h => absurd h hcontinuation) fun _ => rfl
  · refine ⟨fun _ => hmask, Or.inr (Or.inl hdata), fun h => absurd h hcontrol,
      fun h => absurd h hcontinuation, fun _ => rfl,
      fun _ => ⟨ha, hdata⟩, ?_, ?_⟩
    · unfold Frame.rsv2
      rw [hrsv]
      rfl
    · unfold Frame.rsv3
      rw [hrsv]
      rfl

theorem legal_control {inside : Bool} (hmask : f.mask.isSome = true) (hallowed : f.RsvAllowed accepted)
    (hcontrol : f.IsControl) (hfin : f.fin = true) (hlength : f.payload.length ≤ 125) :
    f.Legal true accepted inside := by
  have hrsv : f.rsv = 0 := hallowed.elim id fun h => absurd h.2.2 hcontrol.not_lt
  refine legal_of_rsv_zero hmask hrsv (Or.inr (Or.inr hcontrol)) (fun _ => ⟨hfin, hlength⟩) ?_ ?_
  · exact fun hop => absurd hcontrol (not_isControl_of_continuation hop)
  · exact fun h => absurd h.lt hcontrol.not_lt

/-- a continuation frame with a role is legal, or it is the last one with RSV1 -/
theorem legal_or_late {s : Websocket} (hs : Serves true accepted cur s) {type : DataType} (hmask : f.mask.isSome = true)
    (hallowed : f.RsvAllowed accepted) (hr : HasRole cur f (.fragment type)) :
    f.Legal true accepted cur.isSome ∨ LateRsv1 s f := by
  cases hr with
  | first hop hcur hfin =>
    rw [hcur]
    exact Or.inl (legal_data hmask hallowed hop)
  | continuation hop hcur hlast =>
    have hinside : cur.isSome = true := by
      rw [hcur]
      rfl
    rcases hallowed with hrsv | ⟨ha, hrsv, _⟩
    · refine Or.inl (legal_of_rsv_zero hmask hrsv (Or.inl hop) (fun h => ?_) (fun _ => hinside) fun h => ?_)
      · exact absurd h (not_isControl_of_continuation hop)
      · exact absurd h (not_isData_of_continuation hop)
    · have hfin : f.fin = true := hlast.elim id fun h => absurd (hrsv.symm.trans h) (by decide)
      exact Or.inr ⟨hs.accepted_eq.trans ha, hs.tracks.isFragmented.trans hinside, hmask, hop, hfin, hrsv⟩

theorem role_of_late {s : Websocket} (hs : Serves true accepted cur s) (h : LateRsv1 s f) :
    ∃ type, f.role accepted cur = some (.fragment type) := by
  obtain ⟨ha, hfrag, hmask, hop, hfin, hrsv⟩ := h
  obtain ⟨type, hcur⟩ := Option.isSome_iff_exists.mp (hs.tracks.isFragmented.symm.trans hfrag)
  refine ⟨type, role_of_hasRole (Or.inr ⟨hs.accepted_eq.symm.trans ha, hrsv, ?_⟩)
    (HasRole.continuation hop hcur (Or.inl hfin))⟩
  rw [hop]
  decide

theorem not_legal_of_late {s : Websocket} {inside : Bool} (h : LateRsv1 s f) : ¬ f.Legal true accepted inside := by
  obtain ⟨_, _, _, hop, _, hrsv⟩ := h
  intro hlegal
  have h1 : f.rsv1 = true := by
    unfold Frame.rsv1
    rw [hrsv]
    rfl
  exact not_isData_of_continuation hop (hlegal.rsv1 h1).2

end

/-! ## one frame -/

/-- all callbacks are installed and accept everything -/
structure Accepting (w : World) : Prop where
  installed : ∀ h, w.installed h = true
  returns : ∀ log, w.returns log = .ok

theorem Accepting.concluded {w : World} (hw : Accepting w) (isText : Bool) (log : List WsCall) :
    Websocket.concluded isText (w.returns log) = .go := by
  rw [hw.returns]
  rfl

/-- no write, no allocation and no decompression fails -/
structure Faultless (w : World) : Prop where
  writes : ∀ log, w.writes log = true
  reassembles : ∀ log, w.reassembles log = true
  decompress : ∀ log msg, (w.decompress log msg).isSome = true

/-- a close frame with a valid content -/
def ContentOk (frame : List UInt8) : Prop :=
  frame.length ≠ 1 ∧ isStatusCodeInvalid (closeCode frame) = false ∧ closeTextValid frame = true

section
variable {w : World} {s : Websocket} {f : Frame} {cur : Option DataType} {accepted : Bool}

theorem closeError_of_contentOk {frame : List UInt8} (h : ContentOk frame) :
    closeError frame = if WS_SMALL_FRAME_SIZE < frame.length then some WS_CLOSE_PROTOCOL_ERROR else none := by
  obtain ⟨h1, h2, h3⟩ := h
  unfold closeError
  rw [if_pos h3, h2]
  by_cases hlong : WS_SMALL_FRAME_SIZE < frame.length
  · rw [if_pos hlong, if_pos (Or.inr (Or.inl hlong))]
  · rw [if_neg hlong, if_neg]
    exact fun h => h.elim h1 fun h => h.elim hlong Bool.false_ne_true

/-- the frames that the code does not refuse -/
def Accepted (s : Websocket) (accepted inside : Bool) (f : Frame) : Prop := f.Legal true accepted inside ∨ LateRsv1 s f

theorem acts_accepted (hw : Accepting w) (hs : Serves true accepted cur s)
    (hclose : f.opcode = WS_CLOSE_FRAME → ContentOk f.payload) (hmask : f.mask.isSome = true) {r : Role}
    (hrole : f.role accepted cur = some r) {calls : List WsCall} {o : Outcome} (h : Acts w s f r calls o) :
    o = .fail WS_CLOSE_PROTOCOL_ERROR ↔ ¬ Accepted s accepted cur.isSome f := by
  obtain ⟨hallowed, hr⟩ := hasRole_of_role hrole
  have hgo : ∀ isText log, concluded isText (w.returns log) ≠ .fail WS_CLOSE_PROTOCOL_ERROR := by
    intro isText log
    rw [hw.concluded]
    exact Outcome.noConfusion
  have hlength : f.Legal true accepted cur.isSome → f.IsControl → f.payload.length ≤ WS_SMALL_FRAME_SIZE :=
    fun hlegal hcontrol => (hlegal.control hcontrol).2.2
  have hnotLate : f.IsControl → ¬ LateRsv1 s f := by
    rintro hcontrol ⟨_, _, _, hop, _⟩
    exact not_isControl_of_continuation hop hcontrol
  cases h with
  | unsupported hinst => exact absurd (hw.installed _) (Bool.eq_false_iff.mp hinst)
  | message hinst htext =>
    cases hr with
    | message hop hcur hfin =>
      rw [hcur]
      exact iff_of_false (hgo _ _) (not_not.mpr (Or.inl (legal_data hmask hallowed hop)))
  | broken hinst htext =>
    cases hr with
    | message hop hcur hfin =>
      rw [hcur]
      exact iff_of_false (by decide) (not_not.mpr (Or.inl (legal_data hmask hallowed hop)))
  | fragment hinst hplain => exact iff_of_false (hgo _ _) (not_not.mpr (legal_or_late hs hmask hallowed hr))
  | unzipped hinst hzip hfin hre htext =>
    exact iff_of_false (hgo _ _) (not_not.mpr (legal_or_late hs hmask hallowed hr))
  | kept hzip hfin => exact iff_of_false Outcome.noConfusion (not_not.mpr (legal_or_late hs hmask hallowed hr))
  | corrupt hzip hfail => exact iff_of_false (by decide) (not_not.mpr (legal_or_late hs hmask hallowed hr))
  | longPing hlong =>
    cases hr with
    | ping hop hfin =>
      have hcontrol : f.IsControl := Or.inr (Or.inl hop)
      refine iff_of_true rfl fun h => h.elim (fun hlegal => ?_) (hnotLate hcontrol)
      exact absurd (hlength hlegal hcontrol) (Nat.not_le.mpr hlong)
  | ping hshort hsend hinst =>
    cases hr with
    | ping hop hfin =>
      exact iff_of_false (hgo _ _) (not_not.mpr (Or.inl (legal_control hmask hallowed (Or.inr (Or.inl hop)) hfin
        (Nat.not_lt.mp hshort))))
  | pingOnly hshort hsend hinst => exact absurd (hw.installed _) (Bool.eq_false_iff.mp hinst)
  | pingLost hshort hsend hwrites =>
    cases hr with
    | ping hop hfin =>
      exact iff_of_false (by decide) (not_not.mpr (Or.inl (legal_control hmask hallowed (Or.inr (Or.inl hop)) hfin
        (Nat.not_lt.mp hshort))))
  | longPong hlong =>
    cases hr with
    | pong hop hfin =>
      have hcontrol : f.IsControl := Or.inr (Or.inr hop)
      refine iff_of_true rfl fun h => h.elim (fun hlegal => ?_) (hnotLate hcontrol)
      exact absurd (hlength hlegal hcontrol) (Nat.not_le.mpr hlong)
  | pong hshort hinst =>
    cases hr with
    | pong hop hfin =>
      exact iff_of_false (hgo _ _) (not_not.mpr (Or.inl (legal_control hmask hallowed (Or.inr (Or.inr hop)) hfin
        (Nat.not_lt.mp hshort))))
  | pongOnly hshort hinst => exact absurd (hw.installed _) (Bool.eq_false_iff.mp hinst)
  | closeError herror =>
    cases hr with
    | close hop hfin =>
      rw [closeError_of_contentOk (hclose hop)] at herror
      by_cases hlong : WS_SMALL_FRAME_SIZE < f.payload.length
      · rw [if_pos hlong] at herror
        obtain rfl := Option.some.inj herror
        refine iff_of_true rfl fun h => h.elim (fun hlegal => ?_) (hnotLate (Or.inl hop))
        exact absurd (hlength hlegal (Or.inl hop)) (Nat.not_le.mpr hlong)
      · rw [if_neg hlong] at herror
        cases herror
  | close herror =>
    cases hr with
    | close hop hfin =>
      rw [closeError_of_contentOk (hclose hop)] at herror
      by_cases hlong : WS_SMALL_FRAME_SIZE < f.payload.length
      · rw [if_pos hlong] at herror
        cases herror
      · exact iff_of_false Outcome.noConfusion (not_not.mpr (Or.inl (legal_control hmask hallowed (Or.inl hop) hfin
          (Nat.not_lt.mp hlong))))

theorem responds_accepted (hw : Accepting w) (hs : Serves true accepted cur s)
    (hclose : f.opcode = WS_CLOSE_FRAME → ContentOk f.payload) {calls : List WsCall} {o : Outcome}
    (h : Responds w s cur f calls o) : o = .fail WS_CLOSE_PROTOCOL_ERROR ↔ ¬ Accepted s accepted cur.isSome f := by
  cases h with
  | unmasked h =>
    refine iff_of_true rfl fun ha => ?_
    have hmask : f.mask.isSome = true := ha.elim (fun hlegal => hlegal.masked rfl) fun hlate => hlate.2.2.1
    exact Bool.false_ne_true (h.2.symm.trans hmask)
  | refused h hrole =>
    rw [hs.accepted_eq] at hrole
    refine iff_of_true rfl fun ha => ?_
    rcases ha with hlegal | hlate
    · obtain ⟨r, hr⟩ := role_of_legal hlegal
      rw [hrole] at hr
      cases hr
    · obtain ⟨type, hr⟩ := role_of_late hs hlate
      rw [hrole] at hr
      cases hr
  | acts h hrole hacts =>
    rw [hs.accepted_eq] at hrole
    have hmask : f.mask.isSome = true := Bool.of_not_eq_false fun h' => h ⟨hs.isServer_eq, h'⟩
    exact acts_accepted hw hs hclose hmask hrole hacts

theorem next_isSome {r : Role} (hr : HasRole cur f r) : (r.next f cur).isSome = f.inside cur.isSome := by
  unfold Frame.inside
  cases hr with
  | continuation hop hcur hlast =>
    rw [hop, if_pos (by decide)]
    show (if f.fin then none else some _).isSome = _
    cases f.fin with
    | true => rfl
    | false => rfl
  | first hop hcur hfin =>
    rw [if_pos (isData_of_opcode hop).lt, hfin]
    show (if f.fin then none else some _).isSome = _
    rw [hfin]
    rfl
  | message hop hcur hfin =>
    rw [if_pos (isData_of_opcode hop).lt, hfin]
    show cur.isSome = _
    rw [hcur]
    rfl
  | ping hop hfin =>
    rw [hop]
    rfl
  | pong hop hfin =>
    rw [hop]
    rfl
  | close hop hfin =>
    rw [hop]
    rfl

/-- without faults only a close frame ends the connection -/
theorem goes_of_faultless (hw : Accepting w) (hf : Faultless w) (hne : f.opcode ≠ WS_CLOSE_FRAME) {calls : List WsCall}
    {o : Outcome} (h : Responds w s cur f calls o) (ho : o ≠ .fail WS_CLOSE_PROTOCOL_ERROR) : o = .go := by
  have hgo := hw.concluded
  have hzlib : ∀ log msg, w.decompress log msg ≠ none := by
    intro log msg e
    have h := hf.decompress log msg
    rw [e] at h
    cases h
  cases h with
  | unmasked h => exact absurd rfl ho
  | refused h hrole => exact absurd rfl ho
  | acts h hrole hacts =>
    cases hacts with
    | unsupported hinst => exact absurd (hw.installed _) (Bool.eq_false_iff.mp hinst)
    | message hinst htext => exact hgo _ _
    | broken hinst htext =>
      unfold inflated at htext
      by_cases hc : (f.rsv != 0 && s.compressionLevel != 0) = true
      · rw [if_pos hc] at htext
        exact absurd htext (hzlib _ _)
      · rw [if_neg hc] at htext
        cases htext
    | fragment hinst hplain => exact hgo _ _
    | unzipped hinst hzip hfin hre htext => exact hgo _ _
    | kept hzip hfin => rfl
    | corrupt hzip hfail =>
      rcases hfail with hre | ⟨_, htext⟩
      · exact absurd (hf.reassembles _) (Bool.eq_false_iff.mp hre)
      · exact absurd htext (hzlib _ _)
    | longPing hlong => exact absurd rfl ho
    | ping hshort hsend hinst => exact hgo _ _
    | pingOnly hshort hsend hinst => rfl
    | pingLost hshort hsend hwrites => exact absurd (hf.writes _) (Bool.eq_false_iff.mp hwrites)
    | longPong hlong => exact absurd rfl ho
    | pong hshort hinst => exact hgo _ _
    | pongOnly hshort hinst => rfl
    | closeError herror =>
      cases (hasRole_of_role hrole).2 with
      | close hop hfin => exact absurd hop hne
    | close herror =>
      cases (hasRole_of_role hrole).2 with
      | close hop hfin => exact absurd hop hne

/-- One frame: it is refused where it is not accepted, and the open message is followed. -/
theorem step_accepts (hw : Accepting w) (hs : Serves true accepted cur s)
    (hclose : f.opcode = WS_CLOSE_FRAME → ContentOk f.payload) :
    ∃ c, stepFrame w { ws := s, reading := true } f = some c
      ∧ (ClosesWith w WS_CLOSE_PROTOCOL_ERROR { ws := s, reading := true } f ↔ ¬ Accepted s accepted cur.isSome f)
      ∧ (c.reading = true → ∃ cur', Serves true accepted cur' c.ws ∧ cur'.isSome = f.inside cur.isSome)
      ∧ (¬ Accepted s accepted cur.isSome f → c.reading = false)
      ∧ (Faultless w → Accepted s accepted cur.isSome f → f.opcode ≠ WS_CLOSE_FRAME → c.reading = true) := by
  rcases stepFrame_cases w hs.upgradeComplete hs.tracks f with ⟨_, ⟨type, _, hinst, _⟩, _⟩ |
    ⟨calls, o, bytes, t, hresponds, hstep, hlog, hgo⟩
  · exact absurd (hw.installed _) (Bool.eq_false_iff.mp hinst)
  have haccepted := responds_accepted hw hs hclose hresponds
  have hfails := closesWith_iff hresponds hstep hlog (show WS_CLOSE_PROTOCOL_ERROR ≠ WS_CLOSE_NORMAL by decide)
  refine ⟨_, hstep, hfails.trans haccepted, ?_, ?_, ?_⟩
  · intro hreading
    obtain ⟨r, hrole, hlike⟩ := hgo (of_decide_eq_true hreading)
    rw [hs.accepted_eq] at hrole
    have hr := (hasRole_of_role hrole).2
    exact ⟨r.next f cur, hs.next hr hlike, next_isSome hr⟩
  · intro hnot
    rw [haccepted.mpr hnot]
    rfl
  · intro hf ha hne
    exact decide_eq_true (goes_of_faultless hw hf hne hresponds fun ho => haccepted.mp ho ha)

end

/-! ## sequences of frames -/

/-- As long as a server reads it fails at the first frame that makes the sequence illegal, and only there.
Without faults, only a close frame makes it stop reading before. -/
def FailsAtIllegal (w : World) (accepted inside : Bool) (c : Conn) (frames : List Frame) : Prop :=
  AtEach (fun pre f => ∃ c', run (stepFrame w) c pre = some c'
    ∧ (c'.reading = true →
      (ClosesWith w WS_CLOSE_PROTOCOL_ERROR c' f ↔ ¬ LegalSequence true accepted inside (pre ++ [f])))
    ∧ (Faultless w → LegalSequence true accepted inside pre →
      (∀ g ∈ pre, g.opcode ≠ WS_CLOSE_FRAME) → c'.reading = true))
    frames

/-- no frame that arrives is the last one of a fragmented message with the RSV1 bit -/
def NoLateRsv1 (w : World) (c : Conn) (frames : List Frame) : Prop :=
  Along (stepFrame w) (fun c f => c.reading = true → ¬ LateRsv1 c.ws f) c frames

section
variable {w : World} {accepted : Bool}

theorem run_stopped (s : Websocket) (frames : List Frame) :
    run (stepFrame w) { ws := s, reading := false } frames = some { ws := s, reading := false } := by
  induction frames with
  | nil => rfl
  | cons f frames ih =>
    rw [run_cons, stepFrame_stopped]
    exact ih

theorem noLateRsv1_stopped (s : Websocket) (frames : List Frame) :
    NoLateRsv1 w { ws := s, reading := false } frames := by
  induction frames with
  | nil => exact along_nil _ _ _
  | cons f frames ih =>
    refine (along_cons _ _ _ _ _).mpr ⟨fun h => absurd h Bool.false_ne_true, fun t ht => ?_⟩
    rw [stepFrame_stopped] at ht
    obtain rfl := Option.some.inj ht
    exact ih

theorem accepted_iff_legal {s : Websocket} {inside : Bool} {f : Frame} (h : ¬ LateRsv1 s f) :
    Accepted s accepted inside f ↔ f.Legal true accepted inside := or_iff_left h

theorem legalSequence_singleton {inside : Bool} {f : Frame} :
    LegalSequence true accepted inside [f] ↔ f.Legal true accepted inside := and_iff_left trivial

/-- where the connection fails at illegal frames only, there is no late bit -/
theorem noLateRsv1_of_fails (hw : Accepting w) (frames : List Frame)
    (hclose : ∀ f ∈ frames, f.opcode = WS_CLOSE_FRAME → ContentOk f.payload) {s : Websocket} {cur : Option DataType}
    (hs : Serves true accepted cur s)
    (h : AtEach (fun pre f => ∃ c', run (stepFrame w) { ws := s, reading := true } pre = some c'
      ∧ (c'.reading = true →
        (ClosesWith w WS_CLOSE_PROTOCOL_ERROR c' f ↔ ¬ LegalSequence true accepted cur.isSome (pre ++ [f])))) frames) :
    NoLateRsv1 w { ws := s, reading := true } frames := by
  induction frames generalizing s cur with
  | nil => exact along_nil _ _ _
  | cons f frames ih =>
    obtain ⟨c, hstep, hfails, hserves, hrefused, _⟩ := step_accepts hw hs (hclose f List.mem_cons_self)
    obtain ⟨⟨c0, hrun0, h0⟩, hrest⟩ := (atEach_cons _ _ _).mp h
    obtain rfl := Option.some.inj hrun0
    have hlegal : Accepted s accepted cur.isSome f ↔ f.Legal true accepted cur.isSome :=
      (not_iff_not.mp (hfails.symm.trans (h0 rfl))).trans legalSequence_singleton
    refine (along_cons _ _ _ _ _).mpr
      ⟨fun _ hlate => not_legal_of_late hlate (hlegal.mp (Or.inr hlate)), fun c' hc' => ?_⟩
    rw [hstep] at hc'
    obtain rfl := Option.some.inj hc'
    obtain ⟨t, reading⟩ := c
    cases reading with
    | false => exact noLateRsv1_stopped t frames
    | true =>
      obtain ⟨cur', hs', hinside⟩ := hserves rfl
      have hf : f.Legal true accepted cur.isSome :=
        hlegal.mp (not_not.mp fun hn => Bool.false_ne_true (hrefused hn).symm)
      refine ih (fun g hg => hclose g (List.mem_cons_of_mem f hg)) hs' (hrest.mono ?_)
      rintro pre g ⟨c', hrun, hg⟩
      rw [run_cons, hstep] at hrun
      refine ⟨c', hrun, fun hreading => (hg hreading).trans (not_congr ?_)⟩
      rw [hinside]
      exact and_iff_right hf

/-- where no late bit arrives, the connection fails at illegal frames only -/
theorem failsAtIllegal_of_noLate (hw : Accepting w) (frames : List Frame)
    (hclose : ∀ f ∈ frames, f.opcode = WS_CLOSE_FRAME → ContentOk f.payload) {s : Websocket} {cur : Option DataType}
    (hs : Serves true accepted cur s) (h : NoLateRsv1 w { ws := s, reading := true } frames) :
    FailsAtIllegal w accepted cur.isSome { ws := s, reading := true } frames := by
  induction frames generalizing s cur with
  | nil => exact atEach_nil _
  | cons f frames ih =>
    obtain ⟨c, hstep, hfails, hserves, hrefused, hgoes⟩ := step_accepts hw hs (hclose f List.mem_cons_self)
    obtain ⟨hlate, hrest⟩ := (along_cons _ _ _ _ _).mp h
    have hlegal : Accepted s accepted cur.isSome f ↔ f.Legal true accepted cur.isSome := accepted_iff_legal (hlate rfl)
    refine (atEach_cons _ _ _).mpr ⟨⟨_, rfl, fun _ => ?_, fun _ _ _ => rfl⟩, ?_⟩
    · exact hfails.trans (not_congr (hlegal.trans legalSequence_singleton.symm))
    obtain ⟨t, reading⟩ := c
    cases reading with
    | false =>
      intro pre g post _
      refine ⟨{ ws := t, reading := false }, ?_, fun hreading => absurd hreading Bool.false_ne_true, ?_⟩
      · rw [run_cons, hstep]
        exact run_stopped t pre
      · intro hf hlegals hne
        exact hgoes hf (hlegal.mpr hlegals.1) (hne f List.mem_cons_self)
    | true =>
      obtain ⟨cur', hs', hinside⟩ := hserves rfl
      have htail := ih (fun g hg => hclose g (List.mem_cons_of_mem f hg)) hs' (hrest _ hstep)
      refine htail.mono ?_
      rintro pre g ⟨c', hrun, hg, hopen⟩
      rw [hinside] at hg hopen
      refine ⟨c', ?_, fun hreading => (hg hreading).trans (not_congr ?_), fun hf hlegals hne => ?_⟩
      · rw [run_cons, hstep]
        exact hrun
      · exact (and_iff_right (hlegal.mp (not_not.mp fun hn => Bool.false_ne_true (hrefused hn).symm))).symm
      · exact hopen hf hlegals.2 fun g hg => hne g (List.mem_cons_of_mem f hg)

/-- Illegal frames are refused exactly where no last frame of a fragmented message arrives that repeats the
RSV1 bit: the RSV bits of continuation frames are checked in the branch without FIN only. -/
theorem failsAtIllegal_iff (hw : Accepting w) (compressionLevel : Nat) (frames : List Frame)
    (hclose : ∀ f ∈ frames, f.opcode = WS_CLOSE_FRAME → ContentOk f.payload) :
    FailsAtIllegal w accepted false (Conn.opened true compressionLevel accepted) frames
      ↔ NoLateRsv1 w (Conn.opened true compressionLevel accepted) frames := by
  have hs := serves_upgraded true compressionLevel accepted
  constructor
  · intro h
    exact noLateRsv1_of_fails hw frames hclose hs (h.mono fun pre f ⟨c, hrun, hfails, _⟩ => ⟨c, hrun, hfails⟩)
  · exact failsAtIllegal_of_noLate hw frames hclose hs

end

/-- A masked frame of a client; the mask leaves the payload as it is. -/
def Frame.masked (fin : Bool) (rsv : BitVec 3) (opcode : BitVec 4) (payload : List UInt8)
    (length_lt : payload.length < LengthFormat.short.bound) : Frame where
  fin := fin
  rsv := rsv
  opcode := opcode
  mask := some (Vector.replicate 4 0)
  payload := payload
  format := .short
  length_lt := length_lt

/-- "Hello", compressed -/
def hello : List UInt8 := [0xf2, 0x48, 0xcd, 0xc9, 0xc9, 0x07, 0x00]

/-- an application that accepts everything -/
def acceptAll : World where
  installed := fun _ => true
  returns := fun _ => .ok
  writes := fun _ => true
  random := fun _ => Vector.replicate 4 0
  reassembles := fun _ => true
  decompress := fun _ msg => if msg = hello then some [72, 101, 108, 108, 111] else none
  compress := fun _ msg => msg
  wordSize := 8
  wordSize_eq := eight_wordSize
  address := fun _ => 0

theorem acceptAll_accepting : Accepting acceptAll := ⟨fun _ => rfl, fun _ => rfl⟩

/-- a compressed message in two frames; the second one has the RSV1 bit where `late` is set -/
def helloFrames (late : Bool) : List Frame :=
  [Frame.masked false PER_MESSAGE_COMPRESSED_BIT WS_TEXT_FRAME (hello.take 3) (by decide),
    Frame.masked true (if late then PER_MESSAGE_COMPRESSED_BIT else 0) WS_CONTINUATION_FRAME (hello.drop 3) (by decide)]

theorem helloFrames_opcode {late : Bool} : ∀ f ∈ helloFrames late, f.opcode ≠ WS_CLOSE_FRAME := by
  intro f hf
  rcases List.mem_cons.mp hf with rfl | hf
  · show WS_TEXT_FRAME ≠ WS_CLOSE_FRAME
    decide
  · rw [List.mem_singleton.mp hf]
    show WS_CONTINUATION_FRAME ≠ WS_CLOSE_FRAME
    decide

theorem helloFrames_fail :
    FailsAtIllegal acceptAll true false (Conn.opened true 1 true) (helloFrames false) := by
  refine (failsAtIllegal_iff acceptAll_accepting 1 (helloFrames false) ?_).mpr ?_
  · exact fun f hf hop => absurd hop (helloFrames_opcode f hf)
  · refine (along_cons _ _ _ _ _).mpr ⟨fun _ hlate => absurd hlate.2.2.2.1 (by decide), fun t _ => ?_⟩
    exact (along_cons _ _ _ _ _).mpr ⟨fun _ hlate => absurd hlate.2.2.2.2.2 (by decide), fun u _ => along_nil _ _ _⟩

/-- The RSV1 bit of the last frame is not refused. -/
theorem late_rsv1_accepted :
    ¬ FailsAtIllegal acceptAll true false (Conn.opened true 1 true) (helloFrames true) := by
  intro h
  have hlate := noLateRsv1_of_fails acceptAll_accepting (helloFrames true) ?_ (serves_upgraded true 1 true)
    (h.mono fun pre f ⟨c, hrun, hfails, _⟩ => ⟨c, hrun, hfails⟩)
  · have hfirst : (stepFrame acceptAll (Conn.opened true 1 true)
        (Frame.masked false PER_MESSAGE_COMPRESSED_BIT WS_TEXT_FRAME (hello.take 3) (by decide))).map
          (fun c => (c.reading, c.ws.accepted, c.ws.isFragmented)) = some (true, true, true) := by
      decide +kernel
    obtain ⟨c, hstep, hc⟩ := Option.map_eq_some_iff.mp hfirst
    obtain ⟨hreading, ha, hfrag⟩ : c.reading = true ∧ c.ws.accepted = true ∧ c.ws.isFragmented = true := by
      rw [Prod.mk.injEq, Prod.mk.injEq] at hc
      exact hc
    exact ((along_cons _ _ _ _ _).mp hlate).2 c hstep |>.1 hreading ⟨ha, hfrag, rfl, rfl, rfl, rfl⟩
  · exact fun f hf hop => absurd hop (helloFrames_opcode f hf)

end Websocket
end Cjet
