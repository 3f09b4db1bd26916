import Cjet.Io.Writing

/-!
# Messages on a raw socket (`socket_peer.c`)

A message is sent as a vector of its length and its bytes.  If the write buffer has no room for the bytes,
the length is in the buffer already, or a part of the message is on its way.

* `frame`, `sendMessage`       the code;
* `LeavesPart`                 the calls that fail and leave a part of a message in the stream;
* `keepsFraming_iff`           one call;
* `framing_iff`                runs.
-/

set_option linter.unusedVariables false

namespace Cjet
open Stateful

namespace BufferedSocket

variable {size : Nat}

/-- `jet_htobe32`, as it stands in memory -/
def be32 (n : Nat) : List UInt8 :=
  [UInt8.ofNat (n / 2 ^ 24), UInt8.ofNat (n / 2 ^ 16), UInt8.ofNat (n / 2 ^ 8), UInt8.ofNat n]

def uint32Max : Nat := 2 ^ 32 - 1

/-- a message as it should be in the stream -/
def frame (rendered : List UInt8) : List UInt8 := be32 rendered.length ++ rendered

/-- `send_message` of a socket peer -/
def sendMessage (s : Writer size) (rendered : List UInt8) : Option (Bool × Writer size) :=
  if uint32Max < rendered.length then some (false, s)
  else bufferedSocketWritev s [be32 rendered.length, rendered]

inductive PeerOp where
  | sendMessage (rendered : List UInt8)
  | writable

def execPeer (s : Writer size) : PeerOp → Option (Bool × Writer size)
  | .sendMessage rendered => sendMessage s rendered
  | .writable => sendBuffer s

def execPeerAll : Writer size → List PeerOp → Option (List Bool × Writer size)
  | s, [] => some ([], s)
  | s, op :: ops => (execPeer s op).bind fun r => (execPeerAll r.2 ops).map fun r' => (r.1 :: r'.1, r'.2)

/-- the state after a call -/
def stepPeer (s : Writer size) (op : PeerOp) : Option (Writer size) := (execPeer s op).map fun r => r.2

/-- what a call should add to the stream if it returns `ok` -/
def added : PeerOp → Bool → List UInt8
  | .sendMessage rendered, true => frame rendered
  | .sendMessage _, false => []
  | .writable, _ => []

/-- a call that succeeds adds its frame to the stream, any other call nothing -/
def KeepsFraming (s : Writer size) (op : PeerOp) : Prop :=
  ∃ ok s', execPeer s op = some (ok, s') ∧ s'.outgoing = s.outgoing ++ added op ok

/-- The first system write leaves more bytes over than the buffer holds, but it has taken a part of the
message, or the length of the message has room behind the old bytes. -/
def LeavesPart (s : Writer size) : PeerOp → Prop
  | .sendMessage rendered =>
    let old := s.buffer.pending.length
    let written := taken s.wire.script (old + (frame rendered).length)
    rendered.length ≤ uint32Max ∧ size < old + (frame rendered).length - written ∧
      (old < written ∨ old - written + 4 ≤ size)
  | .writable => False

/-! ## one call -/

theorem length_be32 (n : Nat) : (be32 n).length = 4 := rfl

theorem length_frame (rendered : List UInt8) : (frame rendered).length = 4 + rendered.length := by
  unfold frame
  rw [List.length_append, length_be32]

theorem flatten_frame (rendered : List UInt8) : [be32 rendered.length, rendered].flatten = frame rendered := by
  simp [frame]

theorem copyIovec_single (b : WriteBuffer size) (v : List UInt8) {n : Nat} (hn : n ≤ v.length) :
    (copyIovecToWriteBuffer b [v] n).1 = decide (b.pending.length + (v.length - n) ≤ size) ∧
      ((copyIovecToWriteBuffer b [v] n).1 = false → (copyIovecToWriteBuffer b [v] n).2 = b) := by
  have hb := b.toWrite_le
  have hdrop := List.length_drop (i := n) (l := v)
  unfold copyIovecToWriteBuffer
  by_cases hlt : n < v.length
  · rw [if_pos hlt]
    unfold copySingleBuffer
    by_cases hroom : (v.drop n).length ≤ size - b.pending.length
    · rw [dif_pos hroom]
      exact ⟨(decide_eq_true (by omega)).symm, fun h => by cases h⟩
    · rw [dif_neg hroom]
      exact ⟨(decide_eq_false (by omega)).symm, fun _ => rfl⟩
  · rw [if_neg hlt]
    exact ⟨(decide_eq_true (by omega)).symm, fun h => by cases h⟩

/-- The copy of a message to the buffer.  If it does not fit, the length may have been copied already. -/
theorem copyIovec_frame (b : WriteBuffer size) (header rendered : List UInt8) {n : Nat}
    (hn : n ≤ header.length + rendered.length) :
    (copyIovecToWriteBuffer b [header, rendered] n).1
        = decide (b.pending.length + (header.length + rendered.length - n) ≤ size) ∧
      ((copyIovecToWriteBuffer b [header, rendered] n).1 = false →
        (copyIovecToWriteBuffer b [header, rendered] n).2.pending
          = b.pending ++ if b.pending.length + (header.length - n) ≤ size then header.drop n else []) := by
  have hb := b.toWrite_le
  have hdrop := List.length_drop (i := n) (l := header)
  unfold copyIovecToWriteBuffer
  by_cases hlt : n < header.length
  · rw [if_pos hlt]
    unfold copySingleBuffer
    by_cases hroom : (header.drop n).length ≤ size - b.pending.length
    · rw [dif_pos hroom]
      dsimp only
      obtain ⟨h1, h2⟩ := copyIovec_single
        (⟨b.pending ++ header.drop n, by rw [List.length_append]; omega⟩ : WriteBuffer size) rendered (Nat.zero_le _)
      rw [h1]
      refine ⟨?_, fun h => ?_⟩
      · refine decide_eq_decide.mpr ?_
        rw [List.length_append]
        omega
      · rw [h2 (h1.trans h), if_pos (by omega)]
    · rw [dif_neg hroom]
      refine ⟨(decide_eq_false (by omega)).symm, fun _ => ?_⟩
      rw [if_neg (by omega), List.append_nil]
  · rw [if_neg hlt]
    obtain ⟨h1, h2⟩ := copyIovec_single b rendered (n := n - header.length) (by omega)
    rw [h1]
    refine ⟨decide_eq_decide.mpr (by omega), fun h => ?_⟩
    rw [h2 (h1.trans h), List.drop_eq_nil_of_le (Nat.le_of_not_lt hlt), ite_self, List.append_nil]

/-- what the copy has to put into the buffer is what has not been written -/
theorem skipWritten_length (b : WriteBuffer size) {l n : Nat} (hn : n ≤ b.pending.length + l) :
    (skipWritten b n).1.pending.length + (l - (skipWritten b n).2) = b.pending.length + l - n := by
  unfold skipWritten
  by_cases h : n ≤ b.pending.length
  · rw [if_pos h]
    show (b.pending.drop n).length + (l - 0) = _
    rw [List.length_drop]
    omega
  · rw [if_neg h]
    show 0 + (l - (n - b.pending.length)) = _
    omega

/-- the stream after a failed copy, compared with the stream before -/
theorem outgoing_of_failed (s : Writer size) (rendered : List UInt8) {n : Nat}
    (hn : n ≤ s.buffer.pending.length + (frame rendered).length) {w : Wire}
    (haccepted : w.accepted = s.wire.accepted ++ (s.buffer.pending ++ frame rendered).take n) {b : WriteBuffer size}
    (hb : b.pending = (skipWritten s.buffer n).1.pending ++
      if (skipWritten s.buffer n).1.pending.length + ((be32 rendered.length).length - (skipWritten s.buffer n).2) ≤ size
      then (be32 rendered.length).drop (skipWritten s.buffer n).2 else []) :
    (⟨b, w⟩ : Writer size).outgoing = s.outgoing ↔
      ¬ (s.buffer.pending.length < n ∨ s.buffer.pending.length - n + 4 ≤ size) := by
  show w.accepted ++ b.pending = s.wire.accepted ++ s.buffer.pending ↔ _
  rw [haccepted, hb, List.append_assoc, List.append_cancel_left_eq]
  unfold skipWritten
  by_cases h : n ≤ s.buffer.pending.length
  · rw [if_pos h, List.take_append_of_le_length h]
    show s.buffer.pending.take n ++ (s.buffer.pending.drop n ++
      if (s.buffer.pending.drop n).length + (4 - 0) ≤ size then (be32 rendered.length).drop 0 else []) = _ ↔ _
    rw [← List.append_assoc, List.take_append_drop, List.append_right_eq_self, List.length_drop]
    by_cases hroom : s.buffer.pending.length - n + 4 ≤ size
    · rw [if_pos hroom]
      exact iff_of_false (List.cons_ne_nil _ _) fun hno => hno (Or.inr hroom)
    · rw [if_neg hroom]
      exact iff_of_true rfl (by omega)
  · have hlt := Nat.lt_of_not_le h
    refine iff_of_false (fun e => ?_) fun hno => hno (Or.inl hlt)
    have hlen := congrArg List.length e
    rw [List.length_append, List.length_take, List.length_append] at hlen
    omega

/-- what a message adds to the stream -/
theorem sendMessage_cases {s : Writer size} (hs : Sends s.wire.script) (rendered : List UInt8) :
    ∃ ok s', sendMessage s rendered = some (ok, s') ∧ Sends s'.wire.script ∧
      (ok = true → s'.outgoing = s.outgoing ++ frame rendered ∧ ¬ LeavesPart s (.sendMessage rendered)) ∧
      (ok = false → (s'.outgoing = s.outgoing ↔ ¬ LeavesPart s (.sendMessage rendered))) := by
  unfold sendMessage
  by_cases hlong : uint32Max < rendered.length
  · rw [if_pos hlong]
    have hno : ¬ LeavesPart s (.sendMessage rendered) := fun h => Nat.not_le_of_lt hlong h.1
    exact ⟨false, s, rfl, hs, fun h => (by cases h), fun _ => iff_of_true rfl hno⟩
  · rw [if_neg hlong]
    have hshort := Nat.le_of_not_lt hlong
    obtain ⟨ok, s', hsame, hs', hout⟩ := writev_outgoing s hs [be32 rendered.length, rendered]
    refine ⟨ok, s', hsame, hs', ?_⟩
    rw [flatten_frame] at hout
    obtain ⟨w, haccepted, hw, hcases⟩ := writev_cases s hs [be32 rendered.length, rendered] rfl rfl rfl
    rw [flatten_frame, List.length_append] at haccepted hcases
    have hle := taken_le s.wire.script (s.buffer.pending.length + (frame rendered).length)
    have hparts : LeavesPart s (.sendMessage rendered) ↔ size < s.buffer.pending.length + (frame rendered).length
        - taken s.wire.script (s.buffer.pending.length + (frame rendered).length) ∧
          (s.buffer.pending.length < taken s.wire.script (s.buffer.pending.length + (frame rendered).length) ∨
            s.buffer.pending.length - taken s.wire.script (s.buffer.pending.length + (frame rendered).length) + 4
              ≤ size) :=
      and_iff_right hshort
    rw [hparts]
    generalize taken s.wire.script (s.buffer.pending.length + (frame rendered).length) = n at *
    have hlength := skipWritten_length s.buffer hle
    have hskip := skipWritten_le s.buffer (frame rendered) (n := n) (by rw [List.length_append]; exact hle)
    have hframe : (frame rendered).length = (be32 rendered.length).length + rendered.length := length_frame rendered
    rw [hframe] at hlength hskip
    obtain ⟨hcopied, hpart⟩ := copyIovec_frame (skipWritten s.buffer n).1 (be32 rendered.length) rendered hskip
    rw [hlength, ← hframe] at hcopied
    rcases hcases with ⟨hall, h⟩ | ⟨_, hfail, h⟩ | ⟨_, hok, u, h, _, _⟩
    · rw [hsame] at h
      obtain ⟨rfl, rfl⟩ := Prod.mk.inj (Option.some.inj h)
      refine ⟨fun _ => ⟨hout rfl, fun hp => ?_⟩, fun h => (by cases h)⟩
      omega
    · rw [hsame] at h
      obtain ⟨rfl, rfl⟩ := Prod.mk.inj (Option.some.inj h)
      rw [hfail] at hcopied
      have hfull := of_decide_eq_false hcopied.symm
      refine ⟨fun h => (by cases h), fun _ => ?_⟩
      rw [outgoing_of_failed s rendered hle haccepted (hpart hfail), and_iff_right (Nat.lt_of_not_le hfull)]
    · rw [hsame] at h
      obtain ⟨rfl, rfl⟩ := Prod.mk.inj (Option.some.inj h)
      rw [hok] at hcopied
      have hroom := of_decide_eq_true hcopied.symm
      refine ⟨fun _ => ⟨hout rfl, fun hp => ?_⟩, fun h => (by cases h)⟩
      omega

theorem keepsFraming_iff {s : Writer size} (hs : Sends s.wire.script) (op : PeerOp) :
    KeepsFraming s op ↔ ¬ LeavesPart s op := by
  cases op with
  | writable =>
    refine iff_of_true ?_ id
    obtain ⟨s', h1, h2, _⟩ := sendBuffer_outgoing s hs
    exact ⟨true, s', h1, by rw [h2]; exact (List.append_nil _).symm⟩
  | sendMessage rendered =>
    obtain ⟨ok, s', h1, _, h2, h3⟩ := sendMessage_cases hs rendered
    have hkeeps : KeepsFraming s (.sendMessage rendered) ↔ s'.outgoing
        = s.outgoing ++ added (.sendMessage rendered) ok := by
      constructor
      · rintro ⟨ok', u, h, hu⟩
        have e := Option.some.inj (h1.symm.trans h)
        obtain ⟨rfl, rfl⟩ := Prod.mk.inj e
        exact hu
      · exact fun h => ⟨ok, s', h1, h⟩
    rw [hkeeps]
    cases ok with
    | true => exact iff_of_true (h2 rfl).1 (h2 rfl).2
    | false =>
      show s'.outgoing = s.outgoing ++ [] ↔ _
      rw [List.append_nil]
      exact h3 rfl

theorem sends_stepPeer {s s' : Writer size} {op : PeerOp} (hs : Sends s.wire.script) (h : stepPeer s op = some s') :
    Sends s'.wire.script := by
  cases op with
  | sendMessage rendered =>
    obtain ⟨ok, u, h1, h2, _⟩ := sendMessage_cases hs rendered
    have h : (sendMessage s rendered).map (fun r => r.2) = some s' := h
    rw [h1] at h
    obtain rfl : u = s' := Option.some.inj h
    exact h2
  | writable =>
    obtain ⟨u, h1, _, h2⟩ := sendBuffer_outgoing s hs
    have h : (sendBuffer s).map (fun r => r.2) = some s' := h
    rw [h1] at h
    obtain rfl : u = s' := Option.some.inj h
    exact h2

/-! ## runs -/

/-- what the calls should add to the stream, by what they return -/
def addedAll (ops : List PeerOp) (rets : List Bool) : List UInt8 := (List.zipWith added ops rets).flatten

theorem execPeerAll_outgoing {s : Writer size} {ops : List PeerOp} (h : Along stepPeer KeepsFraming s ops) :
    ∃ rets s', execPeerAll s ops = some (rets, s') ∧ s'.outgoing = s.outgoing ++ addedAll ops rets := by
  induction ops generalizing s with
  | nil => exact ⟨[], s, rfl, (List.append_nil _).symm⟩
  | cons op ops ih =>
    obtain ⟨⟨ok, u, h1, hu⟩, hrest⟩ := h
    have hstep : stepPeer s op = some u := congrArg (fun r => r.map Prod.snd) h1
    obtain ⟨rets, s', h2, h3⟩ := ih (hrest u hstep)
    refine ⟨ok :: rets, s', ?_, ?_⟩
    · unfold execPeerAll
      rw [h1, Option.bind_some, h2]
      rfl
    · rw [h3, hu, List.append_assoc]
      rfl

/-- **A run keeps the framing just if no failing call leaves a part of its message**; then the socket has
at any time taken a prefix of the frames of the calls that succeeded. -/
theorem framing_iff (size : Nat) {script : List Send} (hs : Sends script) (ops : List PeerOp) :
    (Along stepPeer KeepsFraming (Writer.start size script) ops ↔
        Along stepPeer (fun s op => ¬ LeavesPart s op) (Writer.start size script) ops) ∧
      (Along stepPeer (fun s op => ¬ LeavesPart s op) (Writer.start size script) ops →
        ∃ rets s, execPeerAll (Writer.start size script) ops = some (rets, s) ∧
          s.outgoing = addedAll ops rets ∧ s.wire.accepted <+: addedAll ops rets) := by
  have hiff : Along stepPeer KeepsFraming (Writer.start size script) ops ↔
      Along stepPeer (fun s op => ¬ LeavesPart s op) (Writer.start size script) ops :=
    Along.congr (I := fun s => Sends s.wire.script) (fun s op t h _ ht => sends_stepPeer h ht)
      (fun s op h => keepsFraming_iff h op) hs ops
  refine ⟨hiff, fun h => ?_⟩
  obtain ⟨rets, s, h1, h2⟩ := execPeerAll_outgoing (hiff.mpr h)
  have hout : s.outgoing = addedAll ops rets := h2
  refine ⟨rets, s, h1, hout, ?_⟩
  rw [← hout]
  exact List.prefix_append _ _

theorem framing_iff_small : (Along stepPeer KeepsFraming (Writer.start 8 [.takes 2]) [.sendMessage [1], .writable] ↔
      Along stepPeer (fun s op => ¬ LeavesPart s op) (Writer.start 8 [.takes 2]) [.sendMessage [1], .writable]) ∧
    (Along stepPeer (fun s op => ¬ LeavesPart s op) (Writer.start 8 [.takes 2]) [.sendMessage [1], .writable] →
      ∃ rets s, execPeerAll (Writer.start 8 [.takes 2]) [.sendMessage [1], .writable] = some (rets, s) ∧
        s.outgoing = addedAll [.sendMessage [1], .writable] rets ∧
          s.wire.accepted <+: addedAll [.sendMessage [1], .writable] rets) :=
  framing_iff 8 (by simp [Sends]) _

/-- the socket would block, and the length fits in the buffer while the message does not -/
theorem framing_lost : ¬ Along stepPeer KeepsFraming (Writer.start 5 [.wouldBlock]) [.sendMessage [1, 2]] := by
  intro h
  obtain ⟨ok, s, h1, h2⟩ := h.1
  have hexec : execPeer (Writer.start 5 [.wouldBlock]) (.sendMessage [1, 2])
      = some (false, ⟨⟨[0, 0, 0, 2], by decide⟩, ⟨[], []⟩⟩) := rfl
  rw [hexec] at h1
  cases h1
  have hlen := congrArg List.length h2
  exact absurd hlen (by decide)

end BufferedSocket
end Cjet
