import Cjet.Ws.Acceptance

/-!
# Callbacks that are not installed

A message whose callback is absent is answered with `WS_CLOSE_UNSUPPORTED`.  The callbacks for fragments are
called without a look at them.

* `wanted`               the callback that a data frame is for;
* `CallsInstalled`       no absent callback is called in a run, the frames for one are unsupported;
* `callsInstalled_iff`   this holds where no fragment arrives whose callback is absent.
-/

set_option linter.unusedVariables false

namespace Cjet
open Stateful

namespace Websocket

/-- the callback for the data of a frame -/
def Role.handler : Role → Option Handler
  | .message type => some type.messageHandler
  | .fragment type => some type.frameHandler
  | _ => none

/-- the callback that a data frame is for, where the frame is not a protocol error -/
def wanted (s : Websocket) (f : Frame) : Option Handler :=
  if s.isServer && !f.mask.isSome then none
  else (f.role s.accepted (openType s)).bind Role.handler

/-- The handling of each frame is defined, so it calls no absent callback; a frame for one closes the connection. -/
def CallsInstalled (w : World) (c : Conn) (frames : List Frame) : Prop :=
  Along (stepFrame w) (fun c f => c.reading = true →
    (stepFrame w c f).isSome = true ∧ ∀ h, wanted c.ws f = some h → w.installed h = false →
    ClosesWith w WS_CLOSE_UNSUPPORTED c f)
    c frames

/-- a fragment for which there is no callback -/
def AbsentFragment (w : World) (s : Websocket) (f : Frame) : Prop :=
  ∃ type : DataType, wanted s f = some type.frameHandler ∧ w.installed type.frameHandler = false

section
variable {w : World} {s : Websocket} {f : Frame} {cur : Option DataType} {isServer accepted : Bool}

theorem wanted_unmasked (h : Unmasked s f) : wanted s f = none := by
  unfold wanted
  rw [h.1, h.2]
  rfl

theorem wanted_masked (hs : Tracks s cur) (h : ¬ Unmasked s f) {role : Option Role}
    (hrole : f.role s.accepted cur = role) :
    wanted s f = role.bind Role.handler := by
  have hc : ¬ (s.isServer && !f.mask.isSome) = true := by
    rw [Bool.and_eq_true, Bool.not_eq_true']
    exact h
  unfold wanted
  rw [if_neg hc, openType_of_tracks hs, hrole]

theorem frameHandler_ne_messageHandler (a b : DataType) : a.frameHandler ≠ b.messageHandler := by
  cases a with
  | text => cases b <;> exact Handler.noConfusion
  | binary => cases b <;> exact Handler.noConfusion

theorem frameHandler_inj {a b : DataType} (h : a.frameHandler = b.frameHandler) : a = b := by
  cases a with
  | text => cases b with
    | text => rfl
    | binary => cases h
  | binary => cases b with
    | text => cases h
    | binary => rfl

/-- the ways to handle a frame for which the callback is absent -/
theorem acts_wanted {r : Role} {calls : List WsCall} {o : Outcome} (h : Acts w s f r calls o) :
    (∀ h, r.handler = some h → w.installed h = false → o = .fail WS_CLOSE_UNSUPPORTED)
      ↔ ¬ ∃ type : DataType, r.handler = some type.frameHandler ∧ w.installed type.frameHandler = false := by
  cases r with
  | message type =>
    have hright : ¬ ∃ t : DataType, (Role.message type).handler = some t.frameHandler ∧
        w.installed t.frameHandler = false := by
      rintro ⟨t, ht, _⟩
      exact frameHandler_ne_messageHandler t type (Option.some.inj ht).symm
    refine iff_of_true ?_ hright
    rintro _ ⟨⟩ hinst
    cases h with
    | unsupported _ => rfl
    | message hinst' htext => exact absurd hinst' (Bool.eq_false_iff.mp hinst)
    | broken hinst' htext => exact absurd hinst' (Bool.eq_false_iff.mp hinst)
  | fragment type =>
    cases hinst : w.installed type.frameHandler with
    | true =>
      refine iff_of_true ?_ ?_
      · rintro _ ⟨⟩ hinst'
        exact absurd hinst (Bool.eq_false_iff.mp hinst')
      · rintro ⟨t, ht, hinst'⟩
        rw [← frameHandler_inj (Option.some.inj ht), hinst] at hinst'
        cases hinst'
    | false =>
      refine iff_of_false (fun hleft => ?_) (not_not.mpr ⟨type, rfl, hinst⟩)
      have ho := hleft type.frameHandler rfl hinst
      cases h with
      | fragment hinst' hplain => exact absurd hinst' (Bool.eq_false_iff.mp hinst)
      | unzipped hinst' hzip hfin hre htext => exact absurd hinst' (Bool.eq_false_iff.mp hinst)
      | kept hzip hfin => cases ho
      | corrupt hzip hfail => exact absurd ho (by decide)
  | ping => exact iff_of_true nofun nofun
  | pong => exact iff_of_true nofun nofun
  | close => exact iff_of_true nofun nofun

/-- one frame that is read -/
theorem step_installed (hs : Serves isServer accepted cur s) :
    ((stepFrame w { ws := s, reading := true } f).isSome = true
        ∧ ∀ h, wanted s f = some h → w.installed h = false →
          ClosesWith w WS_CLOSE_UNSUPPORTED { ws := s, reading := true } f)
      ↔ ¬ AbsentFragment w s f := by
  rcases stepFrame_cases w hs.upgradeComplete hs.tracks f with ⟨hmask, ⟨type, hrole, hinst, _⟩, hnone⟩ |
    ⟨calls, o, bytes, t, hresponds, hstep, hlog, _⟩
  · refine iff_of_false ?_ (not_not.mpr ⟨type, ?_, hinst⟩)
    · rw [hnone]
      exact fun h => Bool.false_ne_true h.1
    · rw [wanted_masked hs.tracks hmask hrole]
      rfl
  have hcloses := closesWith_iff hresponds hstep hlog (show WS_CLOSE_UNSUPPORTED ≠ WS_CLOSE_NORMAL by decide)
  rw [hstep, hcloses]
  refine (and_iff_right rfl).trans ?_
  unfold AbsentFragment
  cases hresponds with
  | unmasked h =>
    rw [wanted_unmasked h]
    exact iff_of_true nofun nofun
  | refused h hrole =>
    rw [wanted_masked hs.tracks h hrole]
    exact iff_of_true nofun nofun
  | acts h hrole hacts =>
    rw [wanted_masked hs.tracks h hrole]
    exact acts_wanted hacts

/-- No absent callback is called, and the data for one is answered with `WS_CLOSE_UNSUPPORTED`, exactly where no
fragment arrives whose callback is absent: the callbacks for fragments are called unchecked. -/
theorem callsInstalled_iff (w : World) (isServer : Bool) (compressionLevel : Nat)
    (accepted : Bool) (frames : List Frame) :
    CallsInstalled w (Conn.opened isServer compressionLevel accepted) frames
      ↔ Along (stepFrame w) (fun c f => c.reading = true → ¬ AbsentFragment w c.ws f)
        (Conn.opened isServer compressionLevel accepted) frames := by
  refine Along.congr (I := ServesConn isServer accepted) (fun c f c' hc _ => servesConn_step hc) ?_
    (servesConn_opened isServer compressionLevel accepted) frames
  rintro ⟨s, reading⟩ f hc
  cases reading with
  | false => exact iff_of_true (fun h => absurd h Bool.false_ne_true) fun h => absurd h Bool.false_ne_true
  | true =>
    obtain ⟨cur, hs⟩ := hc rfl
    exact imp_congr_right fun _ => step_installed hs

end

/-- the callbacks that a websocket peer installs -/
def peerWorld : World where
  installed := fun h => h == .textMessage || h == .close || h == .pong
  returns := fun _ => .ok
  writes := fun _ => true
  random := fun _ => Vector.replicate 4 0
  reassembles := fun _ => true
  decompress := fun _ _ => none
  compress := fun _ msg => msg
  wordSize := 8
  wordSize_eq := eight_wordSize
  address := fun _ => 0

/-- The first fragment of a text calls through a null pointer. -/
theorem fragment_calls_absent :
    ¬ CallsInstalled peerWorld (Conn.opened true 0 false)
      [Frame.masked false 0 WS_TEXT_FRAME [104, 105] (by decide)] := by
  intro h
  have hdefined := (((along_cons _ _ _ _ _).mp h).1 rfl).1
  exact absurd hdefined (by decide +kernel)

end Websocket
end Cjet
