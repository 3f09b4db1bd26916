import Cjet.Lib.Run
import Mathlib.Algebra.GroupWithZero.Nat
import Mathlib.Data.List.Basic
import Mathlib.Data.List.Infix

/-!
# Writing to a buffered socket (`buffered_socket.c`)

What the socket does not take is kept in the write buffer until the socket is writable.

* `WriteBuffer`, `Wire`       the bytes that are kept, and the bytes that the socket has taken;
* `sendBuffer`, `copyIovecToWriteBuffer`, `bufferedSocketWritev`   the code;
* `sendBuffer_outgoing`, `copyIovec_pending`, `writev_outgoing`    what each of them does to the outgoing stream;
* `write_conservation`        all calls and writable events together.
-/

set_option linter.unusedVariables false

namespace Cjet
open Stateful

namespace BufferedSocket

/-! ## the buffer and the socket -/

/-- the first `to_write` bytes of `write_buffer` -/
structure WriteBuffer (size : Nat) where
  pending : List UInt8
  toWrite_le : pending.length ≤ size

namespace WriteBuffer
variable {size : Nat}

def empty : WriteBuffer size := ⟨[], Nat.zero_le _⟩

/-- what is left when the first bytes have been moved out -/
def drop (b : WriteBuffer size) (n : Nat) : WriteBuffer size where
  pending := b.pending.drop n
  toWrite_le := Nat.le_trans (by rw [List.length_drop]; exact Nat.sub_le _ _) b.toWrite_le

/-- `to_write` counts fewer bytes, and these have not been moved -/
def take (b : WriteBuffer size) (n : Nat) : WriteBuffer size where
  pending := b.pending.take n
  toWrite_le := Nat.le_trans (List.length_take_le' _ _) b.toWrite_le

end WriteBuffer

/-- what a system write does -/
inductive Send where
  /-- it takes at most `n + 1` bytes -/
  | takes (n : Nat)
  | wouldBlock
  | error
  deriving DecidableEq

/-- the bytes that the socket has taken, and how the writes go on; after that they would block -/
structure Wire where
  accepted : List UInt8
  script : List Send

inductive SendReturn where
  | sent (n : Nat)
  | wouldBlock
  | error

/-- `socket_writev_with_prefix` -/
def socketWritevWithPrefix (w : Wire) (pre : List UInt8) (ioVec : List (List UInt8)) : SendReturn × Wire :=
  let offered := pre ++ ioVec.flatten
  if offered = [] then (.sent 0, w)
  else
    match w.script with
    | [] => (.wouldBlock, w)
    | .takes n :: l =>
      let taken := min (n + 1) offered.length
      (.sent taken, ⟨w.accepted ++ offered.take taken, l⟩)
    | .wouldBlock :: l => (.wouldBlock, { w with script := l })
    | .error :: l => (.error, { w with script := l })

structure Writer (size : Nat) where
  buffer : WriteBuffer size
  wire : Wire

variable {size : Nat}

/-- the bytes that the socket has taken and those that wait for it -/
def Writer.outgoing (s : Writer size) : List UInt8 := s.wire.accepted ++ s.buffer.pending

/-! ## the code -/

/-- the loop of `send_buffer`; `left` is what `write_buffer_ptr` and `to_write` say -/
def sendLoop (buffer : WriteBuffer size) : (fuel : Nat) → (left : WriteBuffer size) → Wire → Option (Bool × Writer size)
  | 0, _, _ => none
  | fuel + 1, left, w =>
    if left.pending = [] then some (true, ⟨left, w⟩)
    else
      match socketWritevWithPrefix w left.pending [] with
      | (.wouldBlock, w) => some (true, ⟨left, w⟩)
      -- nothing is moved to the start of the buffer here
      | (.error, w) => some (false, ⟨buffer.take left.pending.length, w⟩)
      | (.sent written, w) => sendLoop buffer fuel (left.drop written) w

/-- `send_buffer`, and `write_function`, which calls the error function if it fails -/
def sendBuffer (s : Writer size) : Option (Bool × Writer size) :=
  sendLoop s.buffer (s.buffer.pending.length + 1) s.buffer s.wire

/-- `copy_single_buffer`; `none`: not enough space left in write buffer -/
def copySingleBuffer (b : WriteBuffer size) (buf : List UInt8) : Option (WriteBuffer size) :=
  if h : buf.length ≤ size - b.pending.length then
    some ⟨b.pending ++ buf, by
      have hle := b.toWrite_le
      rw [List.length_append]
      omega⟩
  else none

/-- `copy_iovec_to_write_buffer` -/
def copyIovecToWriteBuffer (b : WriteBuffer size) : (ioVec : List (List UInt8)) →
    (iovecWritten : Nat) → Bool × WriteBuffer size
  | [], _ => (true, b)
  | v :: ioVec, iovecWritten =>
    if iovecWritten < v.length then
      match copySingleBuffer b (v.drop iovecWritten) with
      | none => (false, b)
      | some b => copyIovecToWriteBuffer b ioVec 0
    else copyIovecToWriteBuffer b ioVec (iovecWritten - v.length)

/-- the old bytes that are left after `written` bytes, and how many bytes of the vector have been written -/
def skipWritten (b : WriteBuffer size) (written : Nat) : WriteBuffer size × Nat :=
  if written ≤ b.pending.length then (b.drop written, 0) else (.empty, written - b.pending.length)

/-- `buffered_socket_writev` -/
def bufferedSocketWritev (s : Writer size) (ioVec : List (List UInt8)) : Option (Bool × Writer size) :=
  let toWrite := s.buffer.pending.length + (ioVec.map List.length).sum
  match socketWritevWithPrefix s.wire s.buffer.pending ioVec with
  | (.error, w) => some (false, ⟨s.buffer, w⟩)
  | (.wouldBlock, w) =>
    let (b, ioVecWritten) := skipWritten s.buffer 0
    let (ok, b) := copyIovecToWriteBuffer b ioVec ioVecWritten
    some (ok, ⟨b, w⟩)
  | (.sent sent, w) =>
    if sent = toWrite then some (true, ⟨.empty, w⟩)
    else
      let (b, ioVecWritten) := skipWritten s.buffer sent
      match copyIovecToWriteBuffer b ioVec ioVecWritten with
      | (false, b) => some (false, ⟨b, w⟩)
      | (true, b) => sendBuffer ⟨b, w⟩

/-! ## sockets without errors -/

/-- each system write takes at least one byte or would block -/
def Sends (script : List Send) : Prop := ∀ s ∈ script, s ≠ .error

/-- how many bytes the next system write takes of `n` bytes -/
def taken (script : List Send) (n : Nat) : Nat :=
  match script with
  | .takes m :: _ => min (m + 1) n
  | _ => 0

/-- the system write takes the first bytes of what it is offered -/
inductive Writes (w : Wire) (offered : List UInt8) : SendReturn × Wire → Prop where
  | sent (w' : Wire) (hempty : offered = [] ∨ 0 < taken w.script offered.length)
      (haccepted : w'.accepted = w.accepted ++ offered.take (taken w.script offered.length)) (hs : Sends w'.script) :
      Writes w offered (.sent (taken w.script offered.length), w')
  | blocks (w' : Wire) (hempty : offered ≠ []) (htaken : taken w.script offered.length = 0)
      (haccepted : w'.accepted = w.accepted) (hs : Sends w'.script) : Writes w offered (.wouldBlock, w')

theorem taken_le (script : List Send) (n : Nat) : taken script n ≤ n := by
  unfold taken
  split
  · exact Nat.min_le_right _ _
  · exact Nat.zero_le _

theorem writes_socketWritev {w : Wire} (hw : Sends w.script) (pre : List UInt8) (ioVec : List (List UInt8)) :
    Writes w (pre ++ ioVec.flatten) (socketWritevWithPrefix w pre ioVec) := by
  unfold socketWritevWithPrefix
  generalize pre ++ ioVec.flatten = offered
  dsimp only
  by_cases hempty : offered = []
  · rw [if_pos hempty]
    have h0 : taken w.script offered.length = 0 := by
      have hle := taken_le w.script offered.length
      rw [hempty] at hle ⊢
      exact Nat.le_zero.mp hle
    have hsent := @Writes.sent _ offered w (Or.inl hempty) (by rw [h0]; simp) hw
    rwa [h0] at hsent
  · rw [if_neg hempty]
    obtain ⟨accepted, script⟩ := w
    cases script with
    | nil => exact .blocks _ hempty rfl rfl hw
    | cons a l =>
      have hl : Sends l := fun s hs => hw s (List.mem_cons_of_mem _ hs)
      cases a with
      | takes n =>
        have hpos : 0 < min (n + 1) offered.length := by
          have := List.length_pos_iff.mpr hempty
          omega
        exact .sent _ (Or.inr hpos) rfl hl
      | wouldBlock => exact .blocks _ hempty rfl rfl hl
      | error => exact absurd rfl (hw .error List.mem_cons_self)

/-! ## what the code does to the outgoing stream -/

theorem sendLoop_outgoing (buffer : WriteBuffer size) {fuel : Nat} {left : WriteBuffer size} {w : Wire}
    (hw : Sends w.script) (hfuel : left.pending.length < fuel) :
    ∃ s, sendLoop buffer fuel left w = some (true, s) ∧ s.outgoing = w.accepted ++ left.pending ∧
      Sends s.wire.script := by
  induction fuel generalizing left w with
  | zero => exact absurd hfuel (Nat.not_lt_zero _)
  | succ fuel ih =>
    unfold sendLoop
    by_cases hempty : left.pending = []
    · rw [if_pos hempty]
      exact ⟨_, rfl, rfl, hw⟩
    · rw [if_neg hempty]
      have hwrites := writes_socketWritev hw left.pending []
      rw [List.flatten_nil, List.append_nil] at hwrites
      generalize socketWritevWithPrefix w left.pending [] = res at hwrites
      cases hwrites with
      | sent w' hpos haccepted hs =>
        have hpos := hpos.resolve_left hempty
        have hlen := List.length_pos_iff.mpr hempty
        have hshort : (left.drop (taken w.script left.pending.length)).pending.length < fuel := by
          show (left.pending.drop _).length < fuel
          rw [List.length_drop]
          omega
        obtain ⟨s, h1, h2, h3⟩ := ih hs hshort
        refine ⟨s, h1, ?_, h3⟩
        rw [h2, haccepted, List.append_assoc]
        exact congrArg _ (List.take_append_drop _ _)
      | blocks w' _ htaken haccepted hs =>
        refine ⟨_, rfl, ?_, hs⟩
        show w'.accepted ++ left.pending = _
        rw [haccepted]

/-- a writable event -/
theorem sendBuffer_outgoing (s : Writer size) (hs : Sends s.wire.script) :
    ∃ s', sendBuffer s = some (true, s') ∧ s'.outgoing = s.outgoing ∧ Sends s'.wire.script :=
  sendLoop_outgoing s.buffer hs (Nat.lt_succ_self _)

/-- the rest of the vector is appended to the buffer -/
theorem copyIovec_pending (b : WriteBuffer size) (ioVec : List (List UInt8)) {n : Nat} (hn : n ≤ ioVec.flatten.length) :
    (copyIovecToWriteBuffer b ioVec n).1 = true →
      (copyIovecToWriteBuffer b ioVec n).2.pending = b.pending ++ ioVec.flatten.drop n := by
  induction ioVec generalizing b n with
  | nil =>
    intro _
    show b.pending = b.pending ++ ([] : List UInt8).drop n
    rw [List.drop_nil, List.append_nil]
  | cons v ioVec ih =>
    intro h
    unfold copyIovecToWriteBuffer at h ⊢
    rw [List.flatten_cons] at hn ⊢
    rw [List.length_append] at hn
    by_cases hlt : n < v.length
    · rw [if_pos hlt] at h ⊢
      unfold copySingleBuffer at h ⊢
      by_cases hroom : (v.drop n).length ≤ size - b.pending.length
      · rw [dif_pos hroom] at h ⊢
        rw [List.drop_append_of_le_length (Nat.le_of_lt hlt)]
        have hrest := ih _ (Nat.zero_le _) h
        rw [List.drop_zero] at hrest
        rw [hrest, List.append_assoc]
      · rw [dif_neg hroom] at h
        cases h
    · rw [if_neg hlt] at h ⊢
      have hle := Nat.le_of_not_lt hlt
      rw [ih b (by omega) h, List.drop_append, List.drop_eq_nil_of_le hle, List.nil_append]

/-- the old bytes that are left and the rest of the vector are what has not been written -/
theorem skipWritten_pending (b : WriteBuffer size) (l : List UInt8) (n : Nat) :
    (skipWritten b n).1.pending ++ l.drop (skipWritten b n).2 = (b.pending ++ l).drop n := by
  unfold skipWritten
  by_cases h : n ≤ b.pending.length
  · rw [if_pos h, List.drop_append_of_le_length h, List.drop_zero]
    rfl
  · rw [if_neg h, List.drop_append, List.drop_eq_nil_of_le (Nat.le_of_not_le h)]
    rfl

theorem skipWritten_le (b : WriteBuffer size) (l : List UInt8) {n : Nat} (hn : n ≤ (b.pending ++ l).length) :
    (skipWritten b n).2 ≤ l.length := by
  rw [List.length_append] at hn
  unfold skipWritten
  by_cases h : n ≤ b.pending.length
  · rw [if_pos h]
    exact Nat.zero_le _
  · rw [if_neg h]
    show n - b.pending.length ≤ l.length
    omega

theorem sum_length (ioVec : List (List UInt8)) : (ioVec.map List.length).sum = ioVec.flatten.length :=
  List.length_flatten.symm

/-- The first system write takes the first bytes of what it is offered.  If these are not all, the
rest goes to the buffer, if it fits, and the buffer is sent. -/
theorem writev_cases (s : Writer size) (hs : Sends s.wire.script) (ioVec : List (List UInt8)) {offered : List UInt8}
    (hoffered : s.buffer.pending ++ ioVec.flatten = offered) {n : Nat} (hn : taken s.wire.script offered.length = n)
    {copied : Bool × WriteBuffer size}
    (hcopied : copyIovecToWriteBuffer (skipWritten s.buffer n).1 ioVec (skipWritten s.buffer n).2 = copied) :
    ∃ w, w.accepted = s.wire.accepted ++ offered.take n ∧ Sends w.script ∧
      (n = offered.length ∧ bufferedSocketWritev s ioVec = some (true, ⟨.empty, w⟩) ∨
        n ≠ offered.length ∧ copied.1 = false ∧ bufferedSocketWritev s ioVec = some (false, ⟨copied.2, w⟩) ∨
        n ≠ offered.length ∧ copied.1 = true ∧ ∃ s', bufferedSocketWritev s ioVec = some (true, s') ∧
          s'.outgoing = w.accepted ++ copied.2.pending ∧ Sends s'.wire.script) := by
  subst hoffered
  subst hn
  have hwrites := writes_socketWritev hs s.buffer.pending ioVec
  unfold bufferedSocketWritev
  generalize socketWritevWithPrefix s.wire s.buffer.pending ioVec = res at hwrites
  cases hwrites with
  | blocks w hempty htaken haccepted hs' =>
    have hlen := List.length_pos_iff.mpr hempty
    rw [htaken] at hcopied ⊢
    refine ⟨w, by rw [haccepted, List.take_zero, List.append_nil], hs', Or.inr ?_⟩
    have hresult : some ((copyIovecToWriteBuffer (skipWritten s.buffer 0).1 ioVec (skipWritten s.buffer 0).2).1,
        (⟨(copyIovecToWriteBuffer (skipWritten s.buffer 0).1 ioVec (skipWritten s.buffer 0).2).2, w⟩ : Writer size))
          = some (copied.1, ⟨copied.2, w⟩) := by rw [hcopied]
    cases hok : copied.1 with
    | false => exact Or.inl ⟨by omega, rfl, hresult.trans (by rw [hok])⟩
    | true => exact Or.inr ⟨by omega, rfl, ⟨copied.2, w⟩, hresult.trans (by rw [hok]), rfl, hs'⟩
  | sent w hpos haccepted hs' =>
    generalize taken s.wire.script (s.buffer.pending ++ ioVec.flatten).length = n at hcopied haccepted ⊢
    refine ⟨w, haccepted, hs', ?_⟩
    dsimp only
    rw [sum_length, ← List.length_append]
    by_cases hall : n = (s.buffer.pending ++ ioVec.flatten).length
    · exact Or.inl ⟨hall, if_pos hall⟩
    · rw [if_neg hall, hcopied]
      obtain ⟨ok, b⟩ := copied
      cases ok with
      | false => exact Or.inr (Or.inl ⟨hall, rfl, rfl⟩)
      | true =>
        obtain ⟨s', h1, h2, h3⟩ := sendBuffer_outgoing ⟨b, w⟩ hs'
        exact Or.inr (Or.inr ⟨hall, rfl, s', h1, h2, h3⟩)

/-- a call that succeeds -/
theorem writev_outgoing (s : Writer size) (hs : Sends s.wire.script) (ioVec : List (List UInt8)) :
    ∃ ok s', bufferedSocketWritev s ioVec = some (ok, s') ∧ Sends s'.wire.script ∧
      (ok = true → s'.outgoing = s.outgoing ++ ioVec.flatten) := by
  obtain ⟨w, haccepted, hw, hcases⟩ := writev_cases s hs ioVec rfl rfl rfl
  have hle := taken_le s.wire.script (s.buffer.pending ++ ioVec.flatten).length
  generalize taken s.wire.script (s.buffer.pending ++ ioVec.flatten).length = n at haccepted hcases hle
  rcases hcases with ⟨hall, h⟩ | ⟨_, _, h⟩ | ⟨_, hok, s', h, hout, hs'⟩
  · refine ⟨true, _, h, hw, fun _ => ?_⟩
    show w.accepted ++ [] = s.wire.accepted ++ s.buffer.pending ++ ioVec.flatten
    rw [haccepted, List.append_nil, hall, List.take_length, List.append_assoc]
  · exact ⟨false, _, h, hw, fun h => by cases h⟩
  · refine ⟨true, s', h, hs', fun _ => ?_⟩
    rw [hout, copyIovec_pending _ ioVec (skipWritten_le s.buffer _ hle) hok, skipWritten_pending, haccepted,
      List.append_assoc, List.take_append_drop]
    exact (List.append_assoc _ _ _).symm

/-! ## runs -/

inductive Op where
  | writev (ioVec : List (List UInt8))
  | writable

/-- the bytes that a call is given -/
def Op.payload : Op → List UInt8
  | .writev ioVec => ioVec.flatten
  | .writable => []

/-- what a call or an event returns, 0 or -1, and the state after it -/
def exec (s : Writer size) : Op → Option (Bool × Writer size)
  | .writev ioVec => bufferedSocketWritev s ioVec
  | .writable => sendBuffer s

def execAll : Writer size → List Op → Option (List Bool × Writer size)
  | s, [] => some ([], s)
  | s, op :: ops => (exec s op).bind fun r => (execAll r.2 ops).map fun r' => (r.1 :: r'.1, r'.2)

/-- the state after a call -/
def step (s : Writer size) (op : Op) : Option (Writer size) := (exec s op).map fun r => r.2

def Writer.start (size : Nat) (script : List Send) : Writer size := ⟨.empty, ⟨[], script⟩⟩

/-- A call that returns 0 extends the outgoing stream by what it is given, a writable event leaves it as it
is, and the buffer is large enough. -/
def Conserves (s : Writer size) (op : Op) : Prop :=
  ∃ ok s', exec s op = some (ok, s') ∧ s'.buffer.pending.length ≤ size ∧
    match op with
    | .writev ioVec => ok = true → s'.outgoing = s.outgoing ++ ioVec.flatten
    | .writable => ok = true ∧ s'.outgoing = s.outgoing

theorem exec_outgoing {s : Writer size} (hs : Sends s.wire.script) (op : Op) :
    ∃ ok s', exec s op = some (ok, s') ∧ Sends s'.wire.script ∧
      (ok = true → s'.outgoing = s.outgoing ++ op.payload) := by
  cases op with
  | writev ioVec => exact writev_outgoing s hs ioVec
  | writable =>
    obtain ⟨s', h1, h2, h3⟩ := sendBuffer_outgoing s hs
    exact ⟨true, s', h1, h3, fun _ => by rw [h2]; exact (List.append_nil _).symm⟩

theorem conserves_exec {s : Writer size} (hs : Sends s.wire.script) (op : Op) : Conserves s op := by
  cases op with
  | writev ioVec =>
    obtain ⟨ok, s', h1, _, h2⟩ := writev_outgoing s hs ioVec
    exact ⟨ok, s', h1, s'.buffer.toWrite_le, h2⟩
  | writable =>
    obtain ⟨s', h1, h2, _⟩ := sendBuffer_outgoing s hs
    exact ⟨true, s', h1, s'.buffer.toWrite_le, rfl, h2⟩

theorem sends_step {s s' : Writer size} {op : Op} (hs : Sends s.wire.script) (h : step s op = some s') :
    Sends s'.wire.script := by
  obtain ⟨ok, u, h1, h2, _⟩ := exec_outgoing hs op
  unfold step at h
  rw [h1] at h
  obtain rfl : u = s' := Option.some.inj h
  exact h2

/-- while no call fails, the stream is what the calls were given -/
theorem execAll_outgoing {s : Writer size} (hs : Sends s.wire.script) (ops : List Op) :
    ∃ rets s', execAll s ops = some (rets, s') ∧
      ((∀ r ∈ rets, r = true) → s'.outgoing = s.outgoing ++ (ops.map Op.payload).flatten) := by
  induction ops generalizing s with
  | nil => exact ⟨[], s, rfl, fun _ => (List.append_nil _).symm⟩
  | cons op ops ih =>
    obtain ⟨ok, u, h1, hu, h2⟩ := exec_outgoing hs op
    obtain ⟨rets, s', h3, h4⟩ := ih hu
    refine ⟨ok :: rets, s', ?_, fun hall => ?_⟩
    · unfold execAll
      rw [h1, Option.bind_some, h3]
      rfl
    · have hok := h2 (hall ok List.mem_cons_self)
      rw [h4 fun r hr => hall r (List.mem_cons_of_mem _ hr), hok, List.map_cons, List.flatten_cons, List.append_assoc]

/-- **Nothing is lost, duplicated or reordered.**  Every call that returns 0 extends the outgoing stream by
what it is given; while no call fails the socket has taken a prefix of all that was given. -/
theorem write_conservation (size : Nat) {script : List Send} (hs : Sends script) (ops : List Op) :
    Along step Conserves (Writer.start size script) ops ∧
      ∃ rets s, execAll (Writer.start size script) ops = some (rets, s) ∧
        ((∀ r ∈ rets, r = true) →
          s.outgoing = (ops.map Op.payload).flatten ∧ s.wire.accepted <+: (ops.map Op.payload).flatten) := by
  refine ⟨?_, ?_⟩
  · refine (Along.congr (I := fun s => Sends s.wire.script) (d := fun _ _ => True)
      (fun s op t h _ ht => sends_step h ht)
      (fun s op h => iff_true_intro (conserves_exec h op)) hs ops).mpr ?_
    exact Along.of_forall (fun _ _ => trivial) _ _
  · obtain ⟨rets, s, h1, h2⟩ := execAll_outgoing (s := Writer.start size script) hs ops
    refine ⟨rets, s, h1, fun hall => ?_⟩
    have hout : s.outgoing = (ops.map Op.payload).flatten := h2 hall
    refine ⟨hout, ?_⟩
    rw [← hout]
    exact List.prefix_append _ _

/-- a write that ends inside the second part of a message, and the rest later -/
theorem write_conservation_partial :
    Along step Conserves (Writer.start 8 [.takes 2, .wouldBlock, .takes 0]) [.writev [[1, 2], [3, 4, 5]], .writable] ∧
      ∃ rets s, execAll (Writer.start 8 [.takes 2, .wouldBlock, .takes 0]) [.writev [[1, 2], [3, 4, 5]], .writable]
          = some (rets, s) ∧
        ((∀ r ∈ rets, r = true) →
          s.outgoing = ([Op.writev [[1, 2], [3, 4, 5]], .writable].map Op.payload).flatten ∧
            s.wire.accepted <+: ([Op.writev [[1, 2], [3, 4, 5]], .writable].map Op.payload).flatten) :=
  write_conservation 8 (by simp [Sends]) _

end BufferedSocket
end Cjet
