import Mathlib.Data.List.Infix
import Mathlib.Data.List.Basic

/-!
# The read buffer of a buffered socket (`buffered_socket.c`)

* `ReadBuffer`        the memory with its two pointers, and the bytes between them;
* `memmem`            the search for a delimiter;
* `Socket`, `socketRead`   what the network does: how many bytes each read gets;
* `fillBuffer`        one read into the buffer.
-/

set_option linter.unusedVariables false

namespace Cjet
namespace BufferedSocket

/-- `read_buffer` with `read_ptr` and `write_ptr`, as distances from its start -/
structure ReadBuffer (size : Nat) where
  bytes : List UInt8
  readPtr : Nat
  writePtr : Nat
  length_bytes : bytes.length = size
  readPtr_le : readPtr ≤ writePtr
  writePtr_le : writePtr ≤ size

namespace ReadBuffer
variable {size : Nat} (b : ReadBuffer size)

/-- `free_space` -/
def freeSpace : Nat := size - b.writePtr

/-- `unread_bytes` -/
def unreadBytes : Nat := b.writePtr - b.readPtr

/-- the memory from `read_ptr` on, also what is behind `write_ptr` -/
def memory : List UInt8 := b.bytes.drop b.readPtr

/-- the bytes that have been read from the socket and not been handed on -/
def unread : List UInt8 := b.memory.take b.unreadBytes

/-- `reorganize_read_buffer` -/
def reorganizeReadBuffer : ReadBuffer size where
  bytes := b.unread ++ b.bytes.drop b.unreadBytes
  readPtr := 0
  writePtr := b.unreadBytes
  length_bytes := by
    have h1 := b.length_bytes
    have h2 := b.readPtr_le
    have h3 := b.writePtr_le
    simp only [unread, memory, unreadBytes, List.length_append, List.length_take, List.length_drop, h1]
    omega
  readPtr_le := Nat.zero_le _
  writePtr_le := by
    have h3 := b.writePtr_le
    unfold unreadBytes
    omega

/-- the bytes of a read go behind `write_ptr` -/
def store (chunk : List UInt8) (h : chunk.length ≤ b.freeSpace) : ReadBuffer size where
  bytes := b.bytes.take b.writePtr ++ chunk ++ b.bytes.drop (b.writePtr + chunk.length)
  readPtr := b.readPtr
  writePtr := b.writePtr + chunk.length
  length_bytes := by
    have h1 := b.length_bytes
    have h3 := b.writePtr_le
    unfold freeSpace at h
    simp only [List.length_append, List.length_take, List.length_drop, h1]
    omega
  readPtr_le := Nat.le_add_right_of_le b.readPtr_le
  writePtr_le := by
    have h3 := b.writePtr_le
    unfold freeSpace at h
    omega

/-- `read_ptr += n` -/
def advance (n : Nat) (h : n ≤ b.unreadBytes) : ReadBuffer size where
  bytes := b.bytes
  readPtr := b.readPtr + n
  writePtr := b.writePtr
  length_bytes := b.length_bytes
  readPtr_le := by
    have h2 := b.readPtr_le
    unfold unreadBytes at h
    omega
  writePtr_le := b.writePtr_le

theorem length_unread : b.unread.length = b.unreadBytes := by
  have h1 := b.length_bytes
  have h2 := b.readPtr_le
  have h3 := b.writePtr_le
  simp only [unread, memory, unreadBytes, List.length_take, List.length_drop, h1]
  omega

theorem length_unread_le : b.unread.length ≤ size := by
  have h3 := b.writePtr_le
  rw [length_unread]
  unfold unreadBytes
  omega

theorem freeSpace_reorganize : b.reorganizeReadBuffer.freeSpace = size - b.unread.length := by
  rw [length_unread]
  rfl

theorem unread_reorganize : b.reorganizeReadBuffer.unread = b.unread := by
  show ((b.unread ++ b.bytes.drop b.unreadBytes).drop 0).take (b.unreadBytes - 0) = b.unread
  rw [List.drop_zero, Nat.sub_zero, ← b.length_unread, List.take_left]

theorem unread_store (chunk : List UInt8) (h : chunk.length ≤ b.freeSpace) :
    (b.store chunk h).unread = b.unread ++ chunk := by
  have h1 := b.length_bytes
  have h2 := b.readPtr_le
  have h3 := b.writePtr_le
  have hlen : (b.bytes.take b.writePtr).length = b.writePtr := by
    rw [List.length_take, h1]
    omega
  have htotal : b.writePtr + chunk.length - b.readPtr = b.unreadBytes + chunk.length := by
    unfold unreadBytes
    omega
  have hold : (b.bytes.take b.writePtr).drop b.readPtr = b.unread := by
    rw [List.drop_take]
    rfl
  show ((b.bytes.take b.writePtr ++ chunk ++ b.bytes.drop (b.writePtr + chunk.length)).drop b.readPtr).take
    (b.writePtr + chunk.length - b.readPtr) = b.unread ++ chunk
  rw [List.append_assoc, List.drop_append_of_le_length (by omega), hold, htotal, ← b.length_unread,
    List.take_length_add_append, List.take_left]

theorem unread_advance (n : Nat) (h : n ≤ b.unreadBytes) : (b.advance n h).unread = b.unread.drop n := by
  show (b.bytes.drop (b.readPtr + n)).take (b.writePtr - (b.readPtr + n)) = (b.memory.take b.unreadBytes).drop n
  rw [List.drop_take, memory, List.drop_drop, unreadBytes, Nat.sub_sub]

/-- the bytes that are handed on -/
theorem take_memory (n : Nat) (h : n ≤ b.unreadBytes) : b.memory.take n = b.unread.take n := by
  rw [unread, List.take_take, Nat.min_eq_left h]

end ReadBuffer

/-- the buffer of a new connection; nobody has written to its memory -/
def initReadBuffer {size : Nat} (memory : Vector UInt8 size) : ReadBuffer size where
  bytes := memory.toList
  readPtr := 0
  writePtr := 0
  length_bytes := memory.length_toList
  readPtr_le := Nat.le_refl 0
  writePtr_le := Nat.zero_le _

theorem unread_init {size : Nat} (memory : Vector UInt8 size) : (initReadBuffer memory).unread = [] := List.take_zero

/-! ## the search for a delimiter -/

/-- `jet_memmem`: where the needle begins for the first time -/
def memmem (needle : List UInt8) : List UInt8 → Option Nat
  | [] => if needle = [] then some 0 else none
  | x :: l => if needle <+: x :: l then some 0 else (memmem needle l).map (· + 1)

theorem memmem_le {needle l : List UInt8} {i : Nat} (h : memmem needle l = some i) : i + needle.length ≤ l.length := by
  induction l generalizing i with
  | nil =>
    unfold memmem at h
    by_cases e : needle = []
    · rw [if_pos e] at h
      cases h
      simp [e]
    · rw [if_neg e] at h
      cases h
  | cons x l ih =>
    unfold memmem at h
    by_cases e : needle <+: x :: l
    · rw [if_pos e] at h
      cases h
      rw [Nat.zero_add]
      exact e.length_le
    · rw [if_neg e] at h
      obtain ⟨j, hj, rfl⟩ := Option.map_eq_some_iff.mp h
      have hle := ih hj
      rw [List.length_cons]
      omega

/-- what is found is found at the same place when more arrives -/
theorem memmem_append {needle l : List UInt8} {i : Nat} (h : memmem needle l = some i) (q : List UInt8) :
    memmem needle (l ++ q) = some i := by
  induction l generalizing i with
  | nil =>
    unfold memmem at h
    by_cases e : needle = []
    · rw [if_pos e] at h
      cases h
      subst e
      cases q with
      | nil => rfl
      | cons x q => rfl
    · rw [if_neg e] at h
      cases h
  | cons x l ih =>
    unfold memmem at h
    rw [List.cons_append]
    unfold memmem
    by_cases e : needle <+: x :: l
    · rw [if_pos e] at h
      have e' : needle <+: x :: (l ++ q) := e.trans (List.prefix_append (x :: l) q)
      rw [if_pos e', h]
    · rw [if_neg e] at h
      obtain ⟨j, hj, rfl⟩ := Option.map_eq_some_iff.mp h
      have hno : ¬ needle <+: x :: (l ++ q) := fun e' => by
        -- the needle would end behind `l`, but it is found in `l`
        have hle := memmem_le hj
        exact e (List.prefix_of_prefix_length_le e' (List.prefix_append (x :: l) q) (by rw [List.length_cons]; omega))
      rw [if_neg hno, ih hj]
      rfl

/-! ## the socket -/

/-- what a `read` does -/
inductive Recv where
  /-- it gets at most `n + 1` bytes -/
  | bytes (n : Nat)
  | wouldBlock
  | closed
  | error

/-- what is still to come, and how the reads go on; after that they would block -/
structure Socket where
  stream : List UInt8
  script : List Recv

inductive ReadReturn (count : Nat) where
  | data (chunk : List UInt8) (h : chunk.length ≤ count)
  | wouldBlock
  | error

/-- `socket_read` -/
def socketRead (s : Socket) (count : Nat) : ReadReturn count × Socket :=
  match s.script with
  | [] => (.wouldBlock, s)
  | .bytes n :: l =>
    if s.stream = [] then (.wouldBlock, { s with script := l })
    else
      (.data (s.stream.take (min (n + 1) count)) (Nat.le_trans (List.length_take_le _ _) (Nat.min_le_right _ _)),
        ⟨s.stream.drop (min (n + 1) count), l⟩)
  | .wouldBlock :: l => (.wouldBlock, { s with script := l })
  | .closed :: l => (.data [] (Nat.zero_le _), { s with script := l })
  | .error :: l => (.error, { s with script := l })

/-- `BS_PEER_CLOSED`, `BS_IO_WOULD_BLOCK`, `BS_IO_ERROR` and `BS_IO_TOOMUCHDATA` -/
inductive BsIo where
  | peerClosed
  | wouldBlock
  | error
  | tooMuchData
  deriving DecidableEq

variable {size : Nat}

/-- `fill_buffer` -/
def fillBuffer (b : ReadBuffer size) (s : Socket) (count : Nat) : Option BsIo × ReadBuffer size × Socket :=
  let b := if b.freeSpace < count then b.reorganizeReadBuffer else b
  -- enough space without the move is still enough here
  if b.freeSpace < count then (some .tooMuchData, b, s)
  else
    match socketRead s b.freeSpace with
    | (.wouldBlock, s) => (some .wouldBlock, b, s)
    | (.error, s) => (some .error, b, s)
    | (.data chunk h, s) => if chunk = [] then (some .peerClosed, b, s) else (none, b.store chunk h, s)

/-! ## reads that get bytes or would block -/

/-- a division of the stream into reads -/
def Divides (script : List Recv) : Prop := ∀ r ∈ script, r = .wouldBlock ∨ ∃ n, r = .bytes n

/-- what one read into the buffer does to the unread bytes and the stream -/
inductive Fills (b : ReadBuffer size) (s : Socket) (count : Nat) : Option BsIo × ReadBuffer size × Socket → Prop where
  | tooMuch (b' : ReadBuffer size) (hunread : b'.unread = b.unread) (hfull : size - b.unread.length < count) :
      Fills b s count (some .tooMuchData, b', s)
  | blocks (b' : ReadBuffer size) (s' : Socket) (hunread : b'.unread = b.unread)
      (hroom : count ≤ size - b.unread.length) (hstream : s'.stream = s.stream) (hs' : Divides s'.script) :
      Fills b s count (some .wouldBlock, b', s')
  | gets (b' : ReadBuffer size) (s' : Socket) (chunk : List UInt8) (hunread : b'.unread = b.unread ++ chunk)
      (hstream : s.stream = chunk ++ s'.stream) (hs' : Divides s'.script)
      (hlength : s'.script.length < s.script.length) : Fills b s count (none, b', s')

theorem socketRead_cases {s : Socket} (hs : Divides s.script) {count : Nat} (hcount : 0 < count) :
    (∃ s', socketRead s count = (.wouldBlock, s') ∧ s'.stream = s.stream ∧ Divides s'.script) ∨
      ∃ chunk h s', socketRead s count = (.data chunk h, s') ∧ chunk ≠ [] ∧ s.stream = chunk ++ s'.stream ∧
        Divides s'.script ∧ s'.script.length < s.script.length := by
  obtain ⟨stream, script⟩ := s
  cases script with
  | nil => exact Or.inl ⟨_, rfl, rfl, hs⟩
  | cons r l =>
    have hl : Divides l := fun r hr => hs r (List.mem_cons_of_mem _ hr)
    rcases hs r List.mem_cons_self with rfl | ⟨n, rfl⟩
    · exact Or.inl ⟨_, rfl, rfl, hl⟩
    · unfold socketRead
      by_cases hempty : stream = []
      · exact Or.inl ⟨_, if_pos hempty, rfl, hl⟩
      · refine Or.inr ⟨_, _, _, if_neg hempty, fun h => ?_, (List.take_append_drop _ _).symm, hl, Nat.lt_succ_self _⟩
        rcases List.take_eq_nil_iff.mp h with h | h
        · omega
        · exact hempty h

theorem fills_fillBuffer (b : ReadBuffer size) {s : Socket} (hs : Divides s.script) {count : Nat} (hcount : 0 < count) :
    Fills b s count (fillBuffer b s count) := by
  have hmoved : ∃ b', (if b.freeSpace < count then b.reorganizeReadBuffer else b) = b' ∧ b'.unread = b.unread ∧
      (b'.freeSpace < count ↔ size - b.unread.length < count) := by
    by_cases h : b.freeSpace < count
    · exact ⟨_, if_pos h, b.unread_reorganize, by rw [b.freeSpace_reorganize]⟩
    · have hle : b.freeSpace ≤ size - b.unread.length := by
        rw [b.length_unread]
        unfold ReadBuffer.freeSpace ReadBuffer.unreadBytes
        omega
      exact ⟨_, if_neg h, rfl, by omega⟩
  obtain ⟨b', hb', hunread, hfree⟩ := hmoved
  unfold fillBuffer
  rw [hb']
  dsimp only
  by_cases hfull : b'.freeSpace < count
  · rw [if_pos hfull]
    exact .tooMuch b' hunread (hfree.mp hfull)
  · have hroom : count ≤ size - b.unread.length := Nat.le_of_not_lt fun h => hfull (hfree.mpr h)
    rw [if_neg hfull]
    rcases socketRead_cases hs (Nat.lt_of_lt_of_le hcount (Nat.le_of_not_lt hfull)) with
      ⟨s', h1, hstream, hs'⟩ | ⟨chunk, h, s', h1, hchunk, hstream, hs', hlength⟩
    · rw [h1]
      exact .blocks b' s' hunread hroom hstream hs'
    · rw [h1]
      dsimp only
      rw [if_neg hchunk]
      exact .gets _ s' chunk (by rw [b'.unread_store, hunread]) hstream hs' hlength

end BufferedSocket
end Cjet
