import Cjet.Model.Peer

/-!
# The messages in the log about a peer (`peer.c`, `config.c`)

A message begins with the name that the peer has given itself; what `snprintf` would have written of it says where the rest
goes.

* `messagePart`      where the rest goes, and how much of it;
* `configure`        config requests, one after the other;
* `AllShort`         the names that they set leave some room;
* `logsInBuffer_iff` then, and only then, all messages stay in their buffer.
-/

set_option linter.unusedVariables false

namespace Cjet
open Stateful Alloc

namespace PeerLog

def LOG_BUFFER_SIZE : Int := 100

/-- the bytes of a text in C: up to the first zero -/
def cString (s : String) : List UInt8 := (s.toList.flatMap String.utf8EncodeChar).takeWhile (· ≠ 0)

/-- an `int` as a `size_t` -/
def toSize (n : Int) : Nat := (n % 18446744073709551616).toNat

/-- what `snprintf` returns for a format: the length of all of the text -/
def snprintf (text : List UInt8) : Int := text.length

/-- the offset in the buffer and the size that `vsnprintf` gets -/
structure MessagePart where
  offset : Int
  size : Nat

section
variable {T : Type}

/-- `get_peer_name` -/
def getPeerName (b : Broker T) (p : Addr) : String := (b.name p).getD "unknown peer"

def messagePart (b : Broker T) (p : Addr) : MessagePart :=
  let written := snprintf (cString (getPeerName b p) ++ [0x3a, 0x20])
  ⟨written, toSize (LOG_BUFFER_SIZE - written)⟩

/-- `log_peer_err` -/
def logPeerErr (b : Broker T) (p : Addr) : MessagePart := messagePart b p

/-- `log_peer_info` -/
def logPeerInfo (b : Broker T) (p : Addr) : MessagePart := messagePart b p

/-- The offset is inside of the buffer, and there is some room for the message, no more than is left. -/
def InBuffer (m : MessagePart) : Prop :=
  0 ≤ m.offset ∧ m.offset < LOG_BUFFER_SIZE ∧ 0 < m.size ∧ m.size ≤ LOG_BUFFER_SIZE - m.offset

/-- the name leaves room for a character and the zero behind it -/
def Short (name : String) : Prop := (cString name).length + 2 < 100

theorem short_unknown : Short "unknown peer" := by
  unfold Short
  decide

theorem inBuffer_iff (b : Broker T) (p : Addr) : InBuffer (messagePart b p) ↔ Short (getPeerName b p) := by
  have hwritten : snprintf (cString (getPeerName b p) ++ [0x3a, 0x20]) = (cString (getPeerName b p)).length + 2 := by
    unfold snprintf
    rw [List.length_append]
    rfl
  unfold InBuffer Short messagePart toSize LOG_BUFFER_SIZE
  dsimp only
  rw [hwritten]
  omega

/-! ## config requests -/

variable (p : Addr)

/-- the requests, each with what happens to the calls that it makes -/
def configure : List (Env × Json) → Prog (Broker T) Unit
  | [] => pure ()
  | (env, request) :: rest => do
    let _ ← configPeer env p request
    configure rest

/-- After each of the requests, messages about the peer stay in their buffer. -/
def LogsInBuffer (requests : List (Env × Json)) (b : Broker T) : Prop :=
  ∀ done t, done <+: requests → configure p done b = some ((), t) →
    InBuffer (logPeerErr t p) ∧ InBuffer (logPeerInfo t p)

/-- A name that the request sets is short, if it can be copied. -/
def SetsShort (env : Env) (request : Json) (b : Broker T) : Prop :=
  ∀ name, (getParams request >>= getName) = .ok (some name) → env.ok .duplicateString b.calls = true → Short name

/-- every request, in the state in which it arrives -/
def AllShort : List (Env × Json) → Broker T → Prop
  | [], _ => True
  | (env, request) :: rest, b =>
    SetsShort env request b ∧ ∀ res t, configPeer env p request b = some (res, t) → AllShort rest t

variable {p} {env : Env} {request : Json} {b : Broker T}

/-- the name after a request: without memory for it there is none -/
theorem configPeer_name (env : Env) (request : Json) (b : Broker T) :
    ∃ res t, configPeer env p request b = some (res, t) ∧
      (∀ name, (getParams request >>= getName) = .ok (some name) →
        t.name p = if env.ok .duplicateString b.calls = true then some name else none) ∧
      ((∀ name, (getParams request >>= getName) ≠ .ok (some name)) → t.name p = b.name p) := by
  unfold configPeer
  cases hget : getParams request >>= getName with
  | error err => exact ⟨_, _, rfl, nofun, fun _ => rfl⟩
  | ok found =>
    cases found with
    | none => exact ⟨_, _, rfl, nofun, fun _ => rfl⟩
    | some name =>
      refine ⟨_, _, rfl, ?_, fun hnone => absurd rfl (hnone name)⟩
      rintro _ ⟨⟩
      exact Function.update_self p _ b.name

variable (env request) in
/-- A request that sets a short name, or none. -/
theorem short_configPeer (h : Short (getPeerName b p)) :
    ∃ res t, configPeer env p request b = some (res, t) ∧ (Short (getPeerName t p) ↔ SetsShort env request b) := by
  obtain ⟨res, t, hrun, hset, hkept⟩ := configPeer_name (p := p) env request b
  refine ⟨res, t, hrun, ?_⟩
  unfold getPeerName
  by_cases hname : ∃ name, (getParams request >>= getName) = .ok (some name)
  · obtain ⟨name, hname⟩ := hname
    rw [hset name hname]
    unfold SetsShort
    by_cases hcopy : env.ok .duplicateString b.calls = true
    · rw [if_pos hcopy]
      constructor
      · intro hshort name' hname'
        obtain rfl := Option.some.inj (Except.ok.inj (hname.symm.trans hname'))
        exact fun _ => hshort
      · exact fun hall => hall name hname hcopy
    · rw [if_neg hcopy]
      exact iff_of_true short_unknown fun _ _ hyes => absurd hyes hcopy
  · rw [hkept fun name heq => hname ⟨name, heq⟩]
    exact iff_of_true h fun name heq _ => absurd ⟨name, heq⟩ hname

theorem inBuffer_log (b : Broker T) (p : Addr) :
    (InBuffer (logPeerErr b p) ∧ InBuffer (logPeerInfo b p)) ↔ Short (getPeerName b p) := by
  unfold logPeerErr logPeerInfo
  rw [and_self_iff, inBuffer_iff]

/-- From a short name on. -/
theorem logsInBuffer_from_iff (requests : List (Env × Json)) (h : Short (getPeerName b p)) :
    LogsInBuffer p requests b ↔ AllShort p requests b := by
  induction requests generalizing b with
  | nil =>
    refine iff_of_true ?_ trivial
    intro done t hdone hrun
    obtain rfl := List.prefix_nil.mp hdone
    cases hrun
    exact (inBuffer_log b p).mpr h
  | cons head rest ih =>
    obtain ⟨env, request⟩ := head
    obtain ⟨res, t, hrun, hshort⟩ := short_configPeer env request h
    have hcons : ∀ done, configure p ((env, request) :: done) b = configure p done t := fun done =>
      Prog.bind_of_some hrun
    constructor
    · intro hlogs
      have hname : Short (getPeerName t p) := by
        refine (inBuffer_log t p).mp (hlogs [(env, request)] t (List.prefix_append [(env, request)] rest) ?_)
        exact hcons []
      refine ⟨hshort.mp hname, ?_⟩
      intro res' t' hrun'
      rw [hrun] at hrun'
      cases hrun'
      refine (ih hname).mp fun done u hdone hconfigure => ?_
      exact hlogs _ u ((List.prefix_cons_inj _).mpr hdone) ((hcons done).trans hconfigure)
    · rintro ⟨hset, hrest⟩ done u hdone hconfigure
      cases done with
      | nil =>
        cases hconfigure
        exact (inBuffer_log b p).mpr h
      | cons head' done =>
        obtain ⟨rfl, hmore⟩ := List.cons_prefix_cons.mp hdone
        rw [hcons] at hconfigure
        exact (ih (hshort.mpr hset)).mpr (hrest res t hrun) done u hmore hconfigure

/-- The messages about a peer stay in their buffer exactly if its name and all names that it sets are short. -/
theorem logsInBuffer_iff (p : Addr) (requests : List (Env × Json)) (b : Broker T) :
    LogsInBuffer p requests b ↔ Short (getPeerName b p) ∧ AllShort p requests b := by
  constructor
  · intro hlogs
    have hname := (inBuffer_log b p).mp (hlogs [] b List.nil_prefix rfl)
    exact ⟨hname, (logsInBuffer_from_iff requests hname).mp hlogs⟩
  · rintro ⟨hname, hall⟩
    exact (logsInBuffer_from_iff requests hname).mpr hall

end

/-- a config request with a name of 98 letters -/
def longName : Json := .obj [("params", .obj [("name", .str (String.ofList (List.replicate 98 'a')))])]

def started : Broker SlotTable := Broker.start Config.default none none []

theorem long_name_beyond_buffer : ¬LogsInBuffer 0 [({ Platform.small, Outcomes.good with }, longName)] started := by
  intro h
  have hname : Short (getPeerName started 0) := short_unknown
  have hshort := ((logsInBuffer_from_iff _ hname).mp h).1 (String.ofList (List.replicate 98 'a')) rfl rfl
  unfold Short cString at hshort
  rw [String.toList_ofList] at hshort
  exact absurd hshort (by decide)

end PeerLog
end Cjet
