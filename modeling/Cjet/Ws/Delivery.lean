import Cjet.Ws.Acceptance
import Cjet.Ws.Sending
import Mathlib.Data.List.Forall2

/-!
# What the application gets

* `deliveries`         the calls for the data frames alone, without a look at the state of a websocket;
* `Delivered`          the data callbacks are these calls, and each ping has its pong;
* `frames_delivered`   this holds of every legal sequence of uncompressed frames.
-/

set_option linter.unusedVariables false

namespace Cjet
open Stateful

namespace Websocket

/-! ## what is to be delivered -/

def Frame.dataType (f : Frame) : DataType := if f.opcode = WS_TEXT_FRAME then .text else .binary

/-- the call for a data frame; `cur` is the type of the message that is open -/
def Frame.delivery (cur : Option DataType) (f : Frame) : WsCall :=
  match cur with
  | some type => type.frameCall f.payload f.fin
  | none => if f.fin then f.dataType.messageCall f.payload else f.dataType.frameCall f.payload false

def Frame.openAfter (cur : Option DataType) (f : Frame) : Option DataType :=
  if f.fin then none else some (cur.getD f.dataType)

def deliveries : Option DataType → List Frame → List WsCall
  | _, [] => []
  | cur, f :: l => f.delivery cur :: deliveries (f.openAfter cur) l

def Frame.carriesData (f : Frame) : Bool := f.opcode < WS_CLOSE_FRAME
def Frame.isPing (f : Frame) : Bool := f.opcode = WS_PING_FRAME

def isDataCall : WsCall → Bool
  | .textMessage _ => true
  | .textFrame _ _ => true
  | .binaryMessage _ => true
  | .binaryFrame _ _ => true
  | _ => false

def written : WsCall → Option (List UInt8)
  | .writev bytes => some bytes
  | _ => none

/-- the bytes of a pong with this payload -/
def IsPong (isServer : Bool) (bytes payload : List UInt8) : Prop :=
  ∃ mask h, mask.isSome = !isServer ∧ bytes = (sentFrame WS_PONG_FRAME mask payload h).bytes

structure Delivered (isServer : Bool) (cur : Option DataType) (frames : List Frame) (calls : List WsCall) : Prop where
  data : calls.filter isDataCall = deliveries cur (frames.filter Frame.carriesData)
  pongs : List.Forall₂ (IsPong isServer) (calls.filterMap written)
    ((frames.filter Frame.isPing).map Frame.payload)

/-! ## one frame -/

section
variable {w : World} {s : Websocket} {f : Frame} {cur : Option DataType} {isServer accepted : Bool}

theorem dataType_of_opcode {type : DataType} (h : f.opcode = type.opcode) : f.dataType = type := by
  unfold Frame.dataType
  rw [h]
  cases type with
  | text => rfl
  | binary => rfl

theorem messageCall_data (type : DataType) (text : List UInt8) :
    isDataCall (type.messageCall text) = true ∧ written (type.messageCall text) = none := by
  cases type with
  | text => exact ⟨rfl, rfl⟩
  | binary => exact ⟨rfl, rfl⟩

theorem frameCall_data (type : DataType) (text : List UInt8) (last : Bool) :
    isDataCall (type.frameCall text last) = true ∧ written (type.frameCall text last) = none := by
  cases type with
  | text => exact ⟨rfl, rfl⟩
  | binary => exact ⟨rfl, rfl⟩

/-- one call, for a data frame -/
theorem delivered_data {c : WsCall} (hdata : f.opcode < WS_CLOSE_FRAME) (hc : isDataCall c = true ∧ written c = none)
    (hcall : c = f.delivery cur) : Delivered isServer cur [f] [c] := by
  have hcarries : f.carriesData = true := decide_eq_true hdata
  have hping : ¬ f.isPing = true := by
    intro h
    rw [of_decide_eq_true h] at hdata
    exact absurd hdata (by decide)
  refine ⟨?_, ?_⟩
  · rw [List.filter_cons_of_pos hc.1, List.filter_cons_of_pos hcarries, hcall]
    rfl
  · rw [List.filterMap_cons_none hc.2, List.filter_cons_of_neg hping]
    exact List.Forall₂.nil

/-- a ping, with its pong -/
theorem delivered_ping {bytes buffer : List UInt8} (hop : f.opcode = WS_PING_FRAME)
    (hpong : IsPong isServer bytes f.payload) :
    Delivered isServer cur [f] [.writev bytes, .ping buffer] := by
  have hcarries : ¬ f.carriesData = true := by
    intro h
    have hlt : f.opcode < WS_CLOSE_FRAME := of_decide_eq_true h
    rw [hop] at hlt
    exact absurd hlt (by decide)
  have hping : f.isPing = true := decide_eq_true hop
  refine ⟨?_, ?_⟩
  · rw [List.filter_cons_of_neg hcarries]
    rfl
  · rw [List.filter_cons_of_pos hping]
    exact List.Forall₂.cons hpong List.Forall₂.nil

theorem delivered_pong (hop : f.opcode = WS_PONG_FRAME) : Delivered isServer cur [f] [.pong f.payload] := by
  have hcarries : ¬ f.carriesData = true := by
    intro h
    have hlt : f.opcode < WS_CLOSE_FRAME := of_decide_eq_true h
    rw [hop] at hlt
    exact absurd hlt (by decide)
  have hping : ¬ f.isPing = true := by
    intro h
    exact absurd (hop.symm.trans (of_decide_eq_true h)) (by decide)
  refine ⟨?_, ?_⟩
  · rw [List.filter_cons_of_neg hcarries]
    rfl
  · rw [List.filter_cons_of_neg hping]
    exact List.Forall₂.nil

/-- the bytes of a pong are those of a frame -/
theorem isPong_of_sendFrame {bytes buffer : List UInt8} {ok : Bool} (hs : Serves isServer accepted cur s)
    (hshort : ¬ WS_SMALL_FRAME_SIZE < f.payload.length)
    (hsend : sendFrame w f.payload WS_PONG_FRAME (framed s f)
      = some ((ok, buffer), (framed s f).logged [.writev bytes])) :
    IsPong isServer bytes f.payload := by
  have hlength : f.payload.length < 18446744073709551616 := by
    have h125 : f.payload.length ≤ 125 := Nat.not_lt.mp hshort
    omega
  have hplain : ((framed s f).accepted && decide (WS_PONG_FRAME < WS_CLOSE_FRAME)) = false := by
    rw [decide_eq_false (by decide), Bool.and_false]
  obtain ⟨buffer', hbytes⟩ := sendFrame_plain w (framed s f) WS_PONG_FRAME f.payload hlength hplain
  refine ⟨sentMask w (framed s f), hlength, ?_, ?_⟩
  · rw [sentMask_isSome]
    exact congrArg (!·) hs.isServer_eq
  · rw [hsend] at hbytes
    have hlog := congrArg (fun r => r.2.log) (Option.some.inj hbytes)
    exact WsCall.writev.inj (List.cons.inj (List.append_cancel_left hlog)).1

theorem entered_plain (hrsv : f.rsv = 0) (hcompressed : s.isFragCompressed = false) :
    (entered s f).isFragCompressed = false := by
  unfold entered
  by_cases h : f.fin = true ∨ f.opcode = WS_CONTINUATION_FRAME
  · rw [if_pos h]
    exact hcompressed
  · rw [if_neg h]
    show (f.rsv != 0 || s.isFragCompressed) = false
    rw [hrsv, hcompressed]
    rfl

theorem zipped_plain (hrsv : f.rsv = 0) (hcompressed : s.isFragCompressed = false) : zipped s f = false := by
  unfold zipped
  rw [entered_plain hrsv hcompressed]
  rfl

/-- the calls for an uncompressed frame -/
theorem acts_delivered (hs : Serves isServer accepted cur s) (hrsv : f.rsv = 0)
    (hcompressed : s.isFragCompressed = false)
    (hw : Accepting w) {r : Role} (hr : HasRole cur f r) {calls : List WsCall} (h : Acts w s f r calls .go) :
    Delivered isServer cur [f] calls := by
  have hplain := zipped_plain hrsv hcompressed
  generalize ho : Outcome.go = o at h
  cases h with
  | unsupported hinst => cases ho
  | message hinst htext =>
    cases hr with
    | message hop hcur hfin =>
      unfold inflated at htext
      rw [hrsv, if_neg (by exact Bool.false_ne_true)] at htext
      obtain rfl := Option.some.inj htext
      refine delivered_data (isData_of_opcode hop).lt (messageCall_data _ _) ?_
      unfold Frame.delivery
      rw [hcur, hfin, dataType_of_opcode hop]
      rfl
  | broken hinst htext => cases ho
  | fragment hinst _ =>
    cases hr with
    | continuation hop hcur hlast =>
      refine delivered_data ?_ (frameCall_data _ _ _) ?_
      · rw [hop]
        decide
      · unfold Frame.delivery
        rw [hcur]
    | first hop hcur hfin =>
      refine delivered_data (isData_of_opcode hop).lt (frameCall_data _ _ _) ?_
      unfold Frame.delivery
      rw [hcur, hfin, dataType_of_opcode hop]
      rfl
  | unzipped hinst hzip hfin hre htext => exact absurd hzip (Bool.eq_false_iff.mp hplain)
  | kept hzip hfin => exact absurd hzip (Bool.eq_false_iff.mp hplain)
  | corrupt hzip hfail => exact absurd hzip (Bool.eq_false_iff.mp hplain)
  | longPing hlong => cases ho
  | ping hshort hsend hinst =>
    cases hr with
    | ping hop hfin => exact delivered_ping hop (isPong_of_sendFrame hs hshort hsend)
  | pingOnly hshort hsend hinst => exact absurd (hw.installed _) (Bool.eq_false_iff.mp hinst)
  | pingLost hshort hsend hwrites => cases ho
  | longPong hlong => cases ho
  | pong hshort hinst =>
    cases hr with
    | pong hop hfin => exact delivered_pong hop
  | pongOnly hshort hinst => exact absurd (hw.installed _) (Bool.eq_false_iff.mp hinst)
  | closeError herror => cases ho
  | close herror => cases ho

/-- the open message behind a frame, read off the frame -/
def Frame.leaves (cur : Option DataType) (f : Frame) : Option DataType := if f.carriesData then f.openAfter cur else cur

theorem next_eq_leaves {r : Role} (hr : HasRole cur f r) : r.next f cur = f.leaves cur := by
  unfold Frame.leaves Frame.openAfter
  have hcarries : ∀ {o : BitVec 4}, f.opcode = o → f.carriesData = decide (o < WS_CLOSE_FRAME) := by
    rintro o rfl
    rfl
  cases hr with
  | continuation hop hcur hlast =>
    rw [hcarries hop, hcur]
    rfl
  | first hop hcur hfin =>
    rw [hcarries rfl, decide_eq_true (isData_of_opcode hop).lt, hcur, dataType_of_opcode hop]
    rfl
  | message hop hcur hfin =>
    rw [hcarries rfl, decide_eq_true (isData_of_opcode hop).lt, hcur, hfin]
    rfl
  | ping hop hfin =>
    rw [hcarries hop]
    rfl
  | pong hop hfin =>
    rw [hcarries hop]
    rfl
  | close hop hfin =>
    rw [hcarries hop]
    rfl

/-- an uncompressed legal frame ends the connection only where a write fails -/
theorem acts_goes (hw : Accepting w) (hwrites : ∀ log, w.writes log = true)
    (hlegal : f.Legal isServer accepted cur.isSome)
    (hrsv : f.rsv = 0) (hcompressed : s.isFragCompressed = false) (hne : f.opcode ≠ WS_CLOSE_FRAME) {r : Role}
    (hr : HasRole cur f r) {calls : List WsCall} {o : Outcome} (h : Acts w s f r calls o) : o = .go := by
  have hgo := hw.concluded
  have hplain := zipped_plain hrsv hcompressed
  cases h with
  | unsupported hinst => exact absurd (hw.installed _) (Bool.eq_false_iff.mp hinst)
  | message hinst htext => exact hgo _ _
  | broken hinst htext =>
    unfold inflated at htext
    rw [hrsv, if_neg (by exact Bool.false_ne_true)] at htext
    cases htext
  | fragment hinst _ => exact hgo _ _
  | unzipped hinst hzip hfin hre htext => exact hgo _ _
  | kept hzip hfin => rfl
  | corrupt hzip hfail => exact absurd hzip (Bool.eq_false_iff.mp hplain)
  | longPing hlong =>
    cases hr with
    | ping hop hfin => exact absurd (hlegal.control (Or.inr (Or.inl hop))).2.2 (Nat.not_le.mpr hlong)
  | ping hshort hsend hinst => exact hgo _ _
  | pingOnly hshort hsend hinst => rfl
  | pingLost hshort hsend hlost => exact absurd (hwrites _) (Bool.eq_false_iff.mp hlost)
  | longPong hlong =>
    cases hr with
    | pong hop hfin => exact absurd (hlegal.control (Or.inr (Or.inr hop))).2.2 (Nat.not_le.mpr hlong)
  | pong hshort hinst => exact hgo _ _
  | pongOnly hshort hinst => rfl
  | closeError herror =>
    cases hr with
    | close hop hfin => exact absurd hop hne
  | close herror =>
    cases hr with
    | close hop hfin => exact absurd hop hne

theorem leave_compressed (hrsv : f.rsv = 0) (hcompressed : s.isFragCompressed = false) (r : Role) :
    (r.leave s f).isFragCompressed = false := by
  cases r with
  | fragment type =>
    show ((entered s f).finished f.fin).isFragCompressed = false
    cases f.fin with
    | true => rfl
    | false => exact entered_plain hrsv hcompressed
  | message type => exact hcompressed
  | ping => exact hcompressed
  | pong => exact hcompressed
  | close => exact hcompressed

/-- one legal frame that is not compressed -/
theorem step_delivers (hw : Accepting w) (hs : Serves isServer accepted cur s)
    (hcompressed : s.isFragCompressed = false)
    (hlegal : f.Legal isServer accepted cur.isSome) (hrsv : f.rsv = 0) (hne : f.opcode ≠ WS_CLOSE_FRAME) :
    ∃ c, stepFrame w { ws := s, reading := true } f = some c
      ∧ ((∀ log, w.writes log = true) → c.reading = true)
      ∧ (c.reading = true → ∃ calls, c.ws.log = s.log ++ calls ∧ Delivered isServer cur [f] calls
        ∧ Serves isServer accepted (f.leaves cur) c.ws ∧ (f.leaves cur).isSome = f.inside cur.isSome
        ∧ c.ws.isFragCompressed = false) := by
  rcases stepFrame_cases w hs.upgradeComplete hs.tracks f with ⟨_, ⟨type, _, hinst, _⟩, _⟩ |
    ⟨calls, o, bytes, t, hresponds, hstep, hlog, hgo⟩
  · exact absurd (hw.installed _) (Bool.eq_false_iff.mp hinst)
  obtain ⟨r', hrole'⟩ := role_of_legal hlegal
  rw [← hs.accepted_eq] at hrole'
  cases hresponds with
  | unmasked h =>
    have hmask := hlegal.masked (hs.isServer_eq.symm.trans h.1)
    rw [h.2] at hmask
    cases hmask
  | refused h hrole =>
    rw [hrole'] at hrole
    cases hrole
  | @acts r _ _ h hrole hacts =>
    have hr := (hasRole_of_role hrole).2
    refine ⟨_, hstep, fun hwrites => decide_eq_true (acts_goes hw hwrites hlegal hrsv hcompressed hne hr hacts), ?_⟩
    intro hreading
    obtain rfl := of_decide_eq_true hreading
    obtain ⟨r', hrole', hlike⟩ := hgo rfl
    obtain rfl := Option.some.inj (hrole.symm.trans hrole')
    refine ⟨calls, ?_, acts_delivered hs hrsv hcompressed hw hr hacts, ?_, ?_, ?_⟩
    · rw [hlog]
      exact List.append_nil _
    · rw [← next_eq_leaves hr]
      exact hs.next hr hlike
    · rw [← next_eq_leaves hr]
      exact next_isSome hr
    · have hcompressed' := leave_compressed hrsv hcompressed r
      unfold Like at hlike
      rw [hlike]
      exact hcompressed'

/-! ## all frames -/

theorem delivered_cons {frames : List Frame} {calls rest : List WsCall} (h : Delivered isServer cur [f] calls)
    (hrest : Delivered isServer (f.leaves cur) frames rest) : Delivered isServer cur (f :: frames) (calls ++ rest) := by
  refine ⟨?_, ?_⟩
  · rw [List.filter_append, h.data, hrest.data]
    unfold Frame.leaves
    by_cases hcarries : f.carriesData = true
    · rw [if_pos hcarries, List.filter_cons_of_pos hcarries, List.filter_cons_of_pos hcarries]
      rfl
    · rw [if_neg hcarries, List.filter_cons_of_neg hcarries, List.filter_cons_of_neg hcarries]
      rfl
  · have hpings : ((f :: frames).filter Frame.isPing).map Frame.payload
        = ([f].filter Frame.isPing).map Frame.payload ++ (frames.filter Frame.isPing).map Frame.payload := by
      rw [← List.map_append, ← List.filter_append]
      rfl
    rw [List.filterMap_append, hpings]
    exact List.rel_append h.pongs hrest.pongs

theorem run_delivers (hw : Accepting w) (frames : List Frame) (hrsv : ∀ f ∈ frames, f.rsv = 0)
    (hne : ∀ f ∈ frames, f.opcode ≠ WS_CLOSE_FRAME) (hs : Serves isServer accepted cur s)
    (hcompressed : s.isFragCompressed = false) (hlegal : LegalSequence isServer accepted cur.isSome frames) :
    ∃ c, run (stepFrame w) { ws := s, reading := true } frames = some c
      ∧ ((∀ log, w.writes log = true) → c.reading = true)
      ∧ (c.reading = true → ∃ calls, c.ws.log = s.log ++ calls ∧ Delivered isServer cur frames calls) := by
  induction frames generalizing s cur with
  | nil =>
    refine ⟨_, rfl, fun _ => rfl, fun _ => ⟨[], (List.append_nil _).symm, rfl, List.Forall₂.nil⟩⟩
  | cons f frames ih =>
    obtain ⟨⟨t, reading⟩, hstep, hopen, hdelivers⟩ := step_delivers hw hs hcompressed hlegal.1
      (hrsv f List.mem_cons_self) (hne f List.mem_cons_self)
    rw [run_cons, hstep]
    cases reading with
    | false =>
      refine ⟨_, run_stopped t frames, fun hwrites => hopen hwrites, fun hreading => absurd hreading Bool.false_ne_true⟩
    | true =>
      obtain ⟨calls, hlog, hdelivered, hs', hinside, hcompressed'⟩ := hdelivers rfl
      have hlegal' : LegalSequence isServer accepted (f.leaves cur).isSome frames := by
        rw [hinside]
        exact hlegal.2
      obtain ⟨c, hrun, hopen', hrest⟩ := ih (fun g hg => hrsv g (List.mem_cons_of_mem f hg))
        (fun g hg => hne g (List.mem_cons_of_mem f hg)) hs' hcompressed' hlegal'
      refine ⟨c, hrun, hopen', fun hreading => ?_⟩
      obtain ⟨rest, hlog', hdelivered'⟩ := hrest hreading
      refine ⟨calls ++ rest, ?_, delivered_cons hdelivered hdelivered'⟩
      rw [hlog', hlog, List.append_assoc]

/-- The data callbacks get the data frames in order, with the type of their message, and each ping is answered
by one pong with its payload; control frames change nothing for the data frames.  The connection stays open as
long as the writes of the pongs succeed. -/
theorem frames_delivered (hw : Accepting w) (isServer : Bool) (compressionLevel : Nat) (accepted : Bool)
    (frames : List Frame) (hlegal : LegalSequence isServer accepted false frames) (hrsv : ∀ f ∈ frames, f.rsv = 0)
    (hne : ∀ f ∈ frames, f.opcode ≠ WS_CLOSE_FRAME) :
    ∃ c, run (stepFrame w) (Conn.opened isServer compressionLevel accepted) frames = some c
      ∧ ((∀ log, w.writes log = true) → c.reading = true)
      ∧ (c.reading = true → Delivered isServer none frames c.ws.log) := by
  obtain ⟨c, hrun, hopen, hdelivered⟩ := run_delivers hw frames hrsv hne
    (serves_upgraded isServer compressionLevel accepted) rfl hlegal
  refine ⟨c, hrun, hopen, fun hreading => ?_⟩
  obtain ⟨calls, hlog, h⟩ := hdelivered hreading
  have hcalls : c.ws.log = calls := hlog.trans (List.nil_append calls)
  rw [hcalls]
  exact h

end

/-- a text in two fragments, with a ping between them -/
def pingWithin : List Frame :=
  [Frame.masked false 0 WS_TEXT_FRAME [104, 101] (by decide), Frame.masked true 0 WS_PING_FRAME [1] (by decide),
    Frame.masked true 0 WS_CONTINUATION_FRAME [106] (by decide)]

theorem pingWithin_delivered :
    ∃ c, run (stepFrame acceptAll) (Conn.opened true 0 false) pingWithin = some c
      ∧ ((∀ log, acceptAll.writes log = true) → c.reading = true)
      ∧ (c.reading = true → Delivered true none pingWithin c.ws.log) := by
  refine frames_delivered acceptAll_accepting true 0 false pingWithin ⟨?_, ?_, ?_, trivial⟩ ?_ ?_
  · exact legal_data rfl (Or.inl rfl) (show WS_TEXT_FRAME = DataType.text.opcode from rfl)
  · exact legal_control rfl (Or.inl rfl) (Or.inr (Or.inl rfl)) rfl (by decide)
  · refine legal_of_rsv_zero rfl rfl (Or.inl rfl) (fun h => absurd (by decide) h.not_lt) (fun _ => rfl) fun h => ?_
    exact h.elim (fun h => absurd h (by decide)) fun h => absurd h (by decide)
  · intro f hf
    simp only [pingWithin, List.mem_cons, List.not_mem_nil, or_false] at hf
    rcases hf with rfl | rfl | rfl
    · rfl
    · rfl
    · rfl
  · intro f hf
    simp only [pingWithin, List.mem_cons, List.not_mem_nil, or_false] at hf
    rcases hf with rfl | rfl | rfl
    · exact fun h => absurd h (by decide)
    · exact fun h => absurd h (by decide)
    · exact fun h => absurd h (by decide)

end Websocket
end Cjet
