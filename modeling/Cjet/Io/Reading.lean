import Cjet.Io.ReadBuffer
import Cjet.Lib.Incremental

/-!
# Reading from a buffered socket (`buffered_socket.c`)

The reader of a socket waits for a number of bytes or for a delimiter.  It hands on what it has found and
the callback asks for the next part.

* `Reader`, `getReadPtr`, `internalReadUntil`   the two readers, with one loop;
* `goReading`, `readFunction`    the callbacks of one wake-up of the event loop;
* `requests`                     what the readers do, said of the stream alone;
* `good_run`                     all wake-ups together;
* `reading_independent`          the division of the stream makes no difference.
-/

set_option linter.unusedVariables false

namespace Cjet
open Stateful

namespace BufferedSocket

/-! ## the readers -/

/-- what a reader looks for in the unread bytes, and how many bytes it wants if it does not find it -/
structure Reader where
  find : List UInt8 → Option Nat
  missing : List UInt8 → Nat
  find_le : ∀ u n, find u = some n → n ≤ u.length

/-- `get_read_ptr` -/
def getReadPtr (count : Nat) : Reader where
  find u := if count ≤ u.length then some count else none
  missing u := count - u.length
  find_le u n h := by
    by_cases hc : count ≤ u.length
    · rw [if_pos hc] at h
      cases h
      exact hc
    · rw [if_neg hc] at h
      cases h

/-- `internal_read_until` -/
def internalReadUntil (needle : List UInt8) : Reader where
  find u := (memmem needle u).map (· + needle.length)
  missing _ := 1
  find_le u n h := by
    obtain ⟨i, hi, rfl⟩ := Option.map_eq_some_iff.mp h
    exact memmem_le hi

variable {size : Nat}

/-- what a reader returns: a pointer into the buffer and a length, or no bytes -/
inductive ReaderReturn where
  | bytes (buffer : List UInt8) (len : Nat)
  | failed (io : BsIo)

/-- the loop of the readers -/
def Reader.read (r : Reader) : (fuel : Nat) → ReadBuffer size → Socket →
    Option (ReaderReturn × ReadBuffer size × Socket)
  | 0, _, _ => none
  | fuel + 1, b, s =>
    match h : r.find b.unread with
    | some n => some (.bytes b.memory n, b.advance n (b.length_unread ▸ r.find_le b.unread n h), s)
    | none =>
      match fillBuffer b s (r.missing b.unread) with
      | (some io, b, s) => some (.failed io, b, s)
      | (none, b, s) => r.read fuel b s

/-! ## callbacks -/

/-- `buffered_socket_read_exactly` and `buffered_socket_read_until` -/
inductive Request where
  | readExactly (num : Nat)
  | readUntil (delim : List UInt8)

def Request.reader : Request → Reader
  | .readExactly num => getReadPtr num
  | .readUntil delim => internalReadUntil delim

inductive Status where
  | reading
  | closed
  /-- the error function has been called -/
  | failed (io : BsIo)
  deriving DecidableEq

structure State (size : Nat) (C : Type) where
  buffer : ReadBuffer size
  socket : Socket
  /-- the callback's context, which decides what is asked for -/
  context : C
  /-- the bytes that the callbacks were given -/
  log : List (List UInt8)
  status : Status

section
variable {C : Type} (K : Consumer C Request UInt8)

/-- the loop of `go_reading`, with what its caller makes of the result -/
def goReading : (fuel : Nat) → State size C → Option (State size C)
  | 0, _ => none
  | fuel + 1, s =>
    match (K.request s.context).reader.read (s.socket.script.length + 1) s.buffer s.socket with
    | none => none
    | some (.failed .peerClosed, b, sock) =>
      some { s with buffer := b, socket := sock, log := s.log ++ [[]], status := .closed }
    | some (.failed .wouldBlock, b, sock) => some { s with buffer := b, socket := sock }
    | some (.failed io, b, sock) => some { s with buffer := b, socket := sock, status := .failed io }
    | some (.bytes buffer len, b, sock) =>
      let bytes := buffer.take len
      match K.callback s.context bytes with
      | none => some { s with buffer := b, socket := sock, log := s.log ++ [bytes], status := .closed }
      | some c =>
        let s' := { s with buffer := b, socket := sock, context := c, log := s.log ++ [bytes] }
        if len = 0 then some { s' with status := .closed } else goReading fuel s'

/-- `read_function`: there are as many callbacks as bytes at most -/
def readFunction (s : State size C) : Option (State size C) :=
  match s.status with
  | .reading => goReading K (s.buffer.unreadBytes + s.socket.stream.length + 1) s
  | .closed => some s
  | .failed _ => some s

/-- a number of wake-ups of the event loop -/
def wakeUps : Nat → State size C → Option (State size C)
  | 0, s => some s
  | n + 1, s => (readFunction K s).bind (wakeUps n)

/-- The first request reads at once, then the event loop takes over. -/
def run (memory : Vector UInt8 size) (socket : Socket) (c : C) (n : Nat) : Option (State size C) :=
  wakeUps K (n + 1) ⟨initReadBuffer memory, socket, c, [], .reading⟩

end

/-! ## the requests, said of the stream -/

def Request.Valid : Request → Prop
  | .readExactly num => 1 ≤ num
  | .readUntil delim => delim ≠ []

/-- the length of the part of the stream that serves a request, if the buffer has `size` bytes -/
def Request.serves (size : Nat) : Request → List UInt8 → Option Nat
  | .readExactly num, u => if num ≤ size ∧ num ≤ u.length then some num else none
  | .readUntil delim, u => (memmem delim (u.take size)).map (· + delim.length)

/-- too much data: more than the buffer holds is asked for, or the delimiter does not end within
the first `size` bytes, and these have arrived -/
def Request.Refused (size : Nat) : Request → List UInt8 → Prop
  | .readExactly num, _ => size < num
  | .readUntil delim, u => size ≤ u.length ∧ memmem delim (u.take size) = none

theorem serves_readExactly (num : Nat) (u : List UInt8) :
    (Request.readExactly num).serves size u = if num ≤ size ∧ num ≤ u.length then some num else none := rfl

theorem serves_readUntil (delim u : List UInt8) :
    (Request.readUntil delim).serves size u = (memmem delim (u.take size)).map (· + delim.length) := rfl

theorem memmem_take_append {needle u : List UInt8} {i : Nat}
    (h : memmem needle (u.take size) = some i) (q : List UInt8) :
    memmem needle ((u ++ q).take size) = some i := by
  rw [List.take_append]
  exact memmem_append h _

def requests (size : Nat) : Requests Request UInt8 where
  serves := Request.serves size
  refused := Request.Refused size
  serves_append r u q n h := by
    cases r with
    | readExactly num =>
      rw [serves_readExactly] at h ⊢
      by_cases hc : num ≤ size ∧ num ≤ u.length
      · have hc' : num ≤ size ∧ num ≤ (u ++ q).length := by
          rw [List.length_append]
          omega
        rw [if_pos hc] at h
        rw [if_pos hc', h]
      · rw [if_neg hc] at h
        cases h
    | readUntil delim =>
      obtain ⟨i, hi, rfl⟩ := Option.map_eq_some_iff.mp h
      exact Option.map_eq_some_iff.mpr ⟨i, memmem_take_append hi q, rfl⟩
  serves_le r u n h := by
    cases r with
    | readExactly num =>
      rw [serves_readExactly] at h
      by_cases hc : num ≤ size ∧ num ≤ u.length
      · rw [if_pos hc] at h
        cases h
        exact hc.2
      · rw [if_neg hc] at h
        cases h
    | readUntil delim =>
      obtain ⟨i, hi, rfl⟩ := Option.map_eq_some_iff.mp h
      have hle := memmem_le hi
      have htake := List.length_take_le' size u
      omega
  refused_append r u q h := by
    cases r with
    | readExactly num => exact h
    | readUntil delim =>
      obtain ⟨hsize, hnone⟩ := h
      refine ⟨by rw [List.length_append]; exact Nat.le_add_right_of_le hsize, ?_⟩
      rw [List.take_append_of_le_length hsize]
      exact hnone
  serves_refused r u h := by
    cases r with
    | readExactly num =>
      have hlt : size < num := h
      rw [serves_readExactly, if_neg (by omega)]
    | readUntil delim =>
      rw [serves_readUntil, h.2]
      rfl

/-! ## one reader -/

/-- what a reader has found when it returns; `m` has been read from the socket meanwhile -/
inductive Reads (r : Reader) (b : ReadBuffer size) (s : Socket) : ReaderReturn × ReadBuffer size × Socket → Prop where
  | found (m buffer : List UInt8) (n : Nat) (b' : ReadBuffer size) (s' : Socket) (hstream : s.stream = m ++ s'.stream)
      (hs' : Divides s'.script) (hsize : (b.unread ++ m).length ≤ size) (hfind : r.find (b.unread ++ m) = some n)
      (hunread : b'.unread = (b.unread ++ m).drop n) (hbuffer : buffer.take n = (b.unread ++ m).take n) :
      Reads r b s (.bytes buffer n, b', s')
  | tooMuch (m : List UInt8) (b' : ReadBuffer size) (s' : Socket) (hstream : s.stream = m ++ s'.stream)
      (hs' : Divides s'.script) (hunread : b'.unread = b.unread ++ m) (hfind : r.find (b.unread ++ m) = none)
      (hfull : size - (b.unread ++ m).length < r.missing (b.unread ++ m)) :
      Reads r b s (.failed .tooMuchData, b', s')
  | blocks (m : List UInt8) (b' : ReadBuffer size) (s' : Socket) (hstream : s.stream = m ++ s'.stream)
      (hs' : Divides s'.script) (hunread : b'.unread = b.unread ++ m) (hfind : r.find (b.unread ++ m) = none)
      (hroom : r.missing (b.unread ++ m) ≤ size - (b.unread ++ m).length) :
      Reads r b s (.failed .wouldBlock, b', s')

/-- a read into the buffer comes first -/
theorem Reads.of_gets {r : Reader} {b b' : ReadBuffer size} {s s' : Socket} {chunk : List UInt8}
    {res : ReaderReturn × ReadBuffer size × Socket} (h : Reads r b' s' res) (hunread : b'.unread = b.unread ++ chunk)
    (hstream : s.stream = chunk ++ s'.stream) : Reads r b s res := by
  cases h with
  | found m buffer n b2 s2 h1 h2 h3 h4 h5 h6 =>
    rw [hunread, List.append_assoc] at h3 h4 h5 h6
    exact .found (chunk ++ m) buffer n b2 s2 (by rw [hstream, h1, List.append_assoc]) h2 h3 h4 h5 h6
  | tooMuch m b2 s2 h1 h2 h3 h4 h5 =>
    rw [hunread, List.append_assoc] at h3 h4 h5
    exact .tooMuch (chunk ++ m) b2 s2 (by rw [hstream, h1, List.append_assoc]) h2 h3 h4 h5
  | blocks m b2 s2 h1 h2 h3 h4 h5 =>
    rw [hunread, List.append_assoc] at h3 h4 h5
    exact .blocks (chunk ++ m) b2 s2 (by rw [hstream, h1, List.append_assoc]) h2 h3 h4 h5

theorem reads_read (r : Reader) (hr : ∀ u, r.find u = none → 0 < r.missing u) {fuel : Nat} (b : ReadBuffer size)
    {s : Socket} (hs : Divides s.script) (hfuel : s.script.length < fuel) :
    ∃ res, r.read fuel b s = some res ∧ Reads r b s res := by
  induction fuel generalizing b s with
  | zero => exact absurd hfuel (Nat.not_lt_zero _)
  | succ fuel ih =>
    unfold Reader.read
    split
    · rename_i n hfind
      have hle : n ≤ b.unreadBytes := b.length_unread ▸ r.find_le b.unread n hfind
      refine ⟨_, rfl, ?_⟩
      have hnil : b.unread ++ [] = b.unread := List.append_nil _
      exact .found [] b.memory n _ s rfl hs (by rw [hnil]; exact b.length_unread_le) (by rw [hnil]; exact hfind)
        (by rw [hnil, b.unread_advance]) (by rw [hnil]; exact b.take_memory n hle)
    · rename_i hfind
      have hfills := fills_fillBuffer b hs (hr b.unread hfind)
      have hnil : b.unread ++ [] = b.unread := List.append_nil _
      generalize fillBuffer b s (r.missing b.unread) = res at hfills
      cases hfills with
      | tooMuch b' hunread hfull =>
        refine ⟨_, rfl, .tooMuch [] b' s rfl hs ?_ ?_ ?_⟩
        · rw [hunread, hnil]
        · rwa [hnil]
        · rwa [hnil]
      | blocks b' s' hunread hroom hstream hs' =>
        refine ⟨_, rfl, .blocks [] b' s' hstream.symm hs' ?_ ?_ ?_⟩
        · rw [hunread, hnil]
        · rwa [hnil]
        · rwa [hnil]
      | gets b' s' chunk hunread hstream hs' hlength =>
        obtain ⟨res, h1, h2⟩ := ih b' hs' (by omega)
        exact ⟨res, h1, h2.of_gets hunread hstream⟩

/-! ## the readers serve the requests -/

theorem missing_pos (r : Request) (u : List UInt8) (h : r.reader.find u = none) : 0 < r.reader.missing u := by
  cases r with
  | readExactly num =>
    have h' : (if num ≤ u.length then some num else none) = none := h
    by_cases hc : num ≤ u.length
    · rw [if_pos hc] at h'
      cases h'
    · show 0 < num - u.length
      omega
  | readUntil delim => exact Nat.zero_lt_one

/-- what is in the buffer decides the request as the whole stream does -/
theorem serves_of_find {r : Request} {u : List UInt8} (hu : u.length ≤ size) :
    r.serves size u = r.reader.find u := by
  cases r with
  | readExactly num =>
    show (if num ≤ size ∧ num ≤ u.length then some num else none) = if num ≤ u.length then some num else none
    by_cases hc : num ≤ u.length
    · rw [if_pos ⟨by omega, hc⟩, if_pos hc]
    · rw [if_neg (by omega), if_neg hc]
  | readUntil delim =>
    show (memmem delim (u.take size)).map (· + delim.length) = (memmem delim u).map (· + delim.length)
    rw [List.take_of_length_le hu]

theorem refused_iff_missing {r : Request} {u : List UInt8} (hu : u.length ≤ size) (h : r.reader.find u = none) :
    r.Refused size u ↔ size - u.length < r.reader.missing u := by
  cases r with
  | readExactly num =>
    have hpos := missing_pos (.readExactly num) u h
    have hpos : 0 < num - u.length := hpos
    show size < num ↔ size - u.length < num - u.length
    omega
  | readUntil delim =>
    have hnone : memmem delim (u.take size) = none := by
      rw [List.take_of_length_le hu]
      exact Option.map_eq_none_iff.mp h
    show size ≤ u.length ∧ memmem delim (u.take size) = none ↔ size - u.length < 1
    rw [and_iff_left hnone]
    omega

/-- a callback is given at least one byte -/
theorem find_pos {r : Request} (hr : r.Valid) {u : List UInt8} {n : Nat} (h : r.reader.find u = some n) : 0 < n := by
  cases r with
  | readExactly num =>
    have h' : (if num ≤ u.length then some num else none) = some n := h
    by_cases hc : num ≤ u.length
    · rw [if_pos hc] at h'
      cases h'
      exact hr
    · rw [if_neg hc] at h'
      cases h'
  | readUntil delim =>
    obtain ⟨i, _, rfl⟩ := Option.map_eq_some_iff.mp h
    have hpos := List.length_pos_iff.mpr hr
    omega

/-! ## wake-ups -/

/-- how a socket ends if the stream ends so for its consumer -/
def statusOf : Ending → Status
  | .waiting => .reading
  | .refused => .failed .tooMuchData
  | .closed => .closed

section
variable {C : Type} (K : Consumer C Request UInt8) (c0 : C) (stream : List UInt8)

/-- what the consumer gets from here on, it gets of the whole stream -/
def Continues (s : State size C) : Prop :=
  ∃ arrived, stream = arrived ++ s.socket.stream ∧ ∀ q log e,
    Consumes (requests size) K s.context (s.buffer.unread ++ q) log e →
      Consumes (requests size) K c0 (arrived ++ q) (s.log ++ log) e

/-- the request cannot be served from the buffer and there is room for more -/
def Waits (s : State size C) : Prop :=
  (K.request s.context).serves size s.buffer.unread = none ∧ ¬ (K.request s.context).Refused size s.buffer.unread

/-- the state after a wake-up -/
def Good (s : State size C) : Prop :=
  Divides s.socket.script ∧
    (s.status = .reading ∧ Continues K c0 stream s ∧ Waits K s ∨
      ∃ e, e ≠ .waiting ∧ s.status = statusOf e ∧ Consumes (requests size) K c0 stream s.log e)

variable {K c0 stream}

theorem Continues.consumes {s : State size C} (h : Continues K c0 stream s) {m rest : List UInt8}
    (hstream : s.socket.stream = m ++ rest) {log : List (List UInt8)} {e : Ending}
    (hc : Consumes (requests size) K s.context (s.buffer.unread ++ m ++ rest) log e) :
    Consumes (requests size) K c0 stream (s.log ++ log) e := by
  obtain ⟨arrived, h1, h2⟩ := h
  rw [List.append_assoc] at hc
  have h3 := h2 (m ++ rest) log e hc
  rwa [← hstream, ← h1] at h3

theorem good_goReading (hK : ∀ c, (K.request c).Valid) {fuel : Nat} {s : State size C} (hstatus : s.status = .reading)
    (hs : Divides s.socket.script) (hc : Continues K c0 stream s)
    (hfuel : s.buffer.unread.length + s.socket.stream.length < fuel) :
    ∃ s', goReading K fuel s = some s' ∧ Good K c0 stream s' := by
  induction fuel generalizing s with
  | zero => exact absurd hfuel (Nat.not_lt_zero _)
  | succ fuel ih =>
    obtain ⟨res, hread, hreads⟩ := reads_read (K.request s.context).reader (missing_pos _) s.buffer hs
      (Nat.lt_succ_self _)
    unfold goReading
    rw [hread]
    cases hreads with
    | found m buffer n b' sock' hstream hs' hsize hfind hunread hbuffer =>
      have hserves : (requests size).serves (K.request s.context) (s.buffer.unread ++ m) = some n :=
        (serves_of_find hsize).trans hfind
      have hle := (requests size).serves_le _ _ _ hserves
      have hpos := find_pos (hK s.context) hfind
      have htake : ∀ q, (s.buffer.unread ++ m ++ q).take n = buffer.take n := fun q => by
        rw [List.take_append_of_le_length hle, hbuffer]
      dsimp only
      cases hcall : K.callback s.context (buffer.take n) with
      | none =>
        refine ⟨_, rfl, hs', Or.inr ⟨.closed, by decide, rfl, ?_⟩⟩
        have hcall' := hcall
        rw [← htake sock'.stream] at hcall'
        have hcons := Consumes.closes ((requests size).serves_append _ _ sock'.stream _ hserves) hcall'
        rw [htake] at hcons
        exact hc.consumes hstream hcons
      | some c =>
        have hn : ¬ n = 0 := by omega
        dsimp only
        rw [if_neg hn]
        refine ih hstatus hs' ?_ ?_
        · obtain ⟨arrived, h1, h2⟩ := hc
          refine ⟨arrived ++ m, by rw [h1, hstream, List.append_assoc], fun q log e hcons => ?_⟩
          have hcons : Consumes (requests size) K c (b'.unread ++ q) log e := hcons
          rw [hunread, ← List.drop_append_of_le_length hle] at hcons
          have hcall' := hcall
          rw [← htake q] at hcall'
          have hgoes := Consumes.goesOn ((requests size).serves_append _ _ q _ hserves) hcall' hcons
          rw [htake, List.append_assoc] at hgoes
          have hall := h2 (m ++ q) _ e hgoes
          show Consumes (requests size) K c0 (arrived ++ m ++ q) (s.log ++ [buffer.take n] ++ log) e
          rwa [List.append_assoc, List.append_assoc]
        · show b'.unread.length + sock'.stream.length < fuel
          rw [hunread, List.length_drop, List.length_append]
          rw [hstream, List.length_append] at hfuel
          rw [List.length_append] at hle
          omega
    | tooMuch m b' sock' hstream hs' hunread hfind hfull =>
      refine ⟨_, rfl, hs', Or.inr ⟨.refused, by decide, rfl, ?_⟩⟩
      have hsize : (s.buffer.unread ++ m).length ≤ size := hunread ▸ b'.length_unread_le
      have hrefused := (refused_iff_missing hsize hfind).mpr hfull
      have hcons := hc.consumes hstream (.refuses ((requests size).refused_append _ _ _ hrefused))
      rwa [List.append_nil] at hcons
    | blocks m b' sock' hstream hs' hunread hfind hroom =>
      have hsize : (s.buffer.unread ++ m).length ≤ size := hunread ▸ b'.length_unread_le
      refine ⟨_, rfl, hs', Or.inl ⟨hstatus, ?_, ?_, ?_⟩⟩
      · obtain ⟨arrived, h1, h2⟩ := hc
        refine ⟨arrived ++ m, by rw [h1, hstream, List.append_assoc], fun q log e hcons => ?_⟩
        have hcons : Consumes (requests size) K s.context (b'.unread ++ q) log e := hcons
        rw [hunread, List.append_assoc] at hcons
        rw [List.append_assoc]
        exact h2 (m ++ q) log e hcons
      · show (K.request s.context).serves size b'.unread = none
        rw [hunread, serves_of_find hsize, hfind]
      · show ¬ (K.request s.context).Refused size b'.unread
        rw [hunread, refused_iff_missing hsize hfind]
        omega

theorem good_readFunction (hK : ∀ c, (K.request c).Valid) {s : State size C} (hs : Good K c0 stream s) :
    ∃ s', readFunction K s = some s' ∧ Good K c0 stream s' := by
  obtain ⟨hscript, hs'⟩ := hs
  unfold readFunction
  rcases hs' with ⟨hstatus, hc, hw⟩ | ⟨e, he, hstatus, hcons⟩
  · rw [hstatus]
    refine good_goReading hK hstatus hscript hc ?_
    rw [s.buffer.length_unread]
    exact Nat.lt_succ_self _
  · have hsame : ∃ s', some s = some s' ∧ Good K c0 stream s' := ⟨s, rfl, hscript, Or.inr ⟨e, he, hstatus, hcons⟩⟩
    rw [hstatus]
    cases e with
    | waiting => exact absurd rfl he
    | refused => exact hsame
    | closed => exact hsame

theorem good_wakeUps (hK : ∀ c, (K.request c).Valid) (n : Nat) {s : State size C} (hs : Good K c0 stream s) :
    ∃ s', wakeUps K n s = some s' ∧ Good K c0 stream s' := by
  induction n generalizing s with
  | zero => exact ⟨s, rfl, hs⟩
  | succ n ih =>
    obtain ⟨u, h1, hu⟩ := good_readFunction hK hs
    obtain ⟨s', h2, hs'⟩ := ih hu
    refine ⟨s', ?_, hs'⟩
    unfold wakeUps
    rw [h1]
    exact h2

/-- everything has been read that is of interest -/
def Complete (s : State size C) : Prop := s.status = .reading → s.socket.stream = []

theorem Good.consumes {s : State size C} (hs : Good K c0 stream s) (h : Complete s) :
    ∃ e, s.status = statusOf e ∧ Consumes (requests size) K c0 stream s.log e := by
  rcases hs.2 with ⟨hstatus, ⟨arrived, h1, h2⟩, hw1, hw2⟩ | ⟨e, _, hstatus, hcons⟩
  · have hempty := h hstatus
    refine ⟨.waiting, hstatus, ?_⟩
    rw [hempty, List.append_nil] at h1
    rw [h1]
    have hcons := h2 [] [] .waiting (by
      rw [List.append_nil]
      exact .waits hw1 hw2)
    rwa [List.append_nil, List.append_nil] at hcons
  · exact ⟨e, hstatus, hcons⟩

/-- **The callbacks of a run are those that the stream decides.** -/
theorem good_run (hK : ∀ c, (K.request c).Valid) (memory : Vector UInt8 size) {script : List Recv}
    (hscript : Divides script) (n : Nat) :
    ∃ s, run K memory ⟨stream, script⟩ c0 n = some s ∧ Good K c0 stream s := by
  have hstart : Continues K c0 stream (⟨initReadBuffer memory, ⟨stream, script⟩, c0, [], .reading⟩ : State size C) := by
    refine ⟨[], rfl, fun q log e hcons => ?_⟩
    have hcons : Consumes (requests size) K c0 ((initReadBuffer memory).unread ++ q) log e := hcons
    rwa [unread_init] at hcons
  obtain ⟨u, h1, hu⟩ := good_goReading hK rfl hscript hstart
    (Nat.lt_succ_self ((initReadBuffer memory).unread.length + stream.length))
  obtain ⟨s, h2, hs⟩ := good_wakeUps hK n hu
  refine ⟨s, ?_, hs⟩
  unfold run wakeUps
  have h3 : readFunction K (⟨initReadBuffer memory, ⟨stream, script⟩, c0, [], .reading⟩ : State size C) = some u := h1
  rw [h3]
  exact h2

end

/-- a consumer of lines -/
def lines : Consumer Unit Request UInt8 := ⟨fun _ => .readUntil [13, 10], fun c _ => some c⟩

end BufferedSocket
end Cjet
