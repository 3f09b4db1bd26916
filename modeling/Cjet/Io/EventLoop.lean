import Mathlib.Data.List.Basic
import Mathlib.Data.List.Pairwise

/-!
# One batch of events (`eventloop_epoll.c`)

`handle_events` goes through the events that `epoll_wait` has reported.  The functions that it calls may
remove any event from the loop, and then the memory of the event is gone.

* `IoEvent`, `Entry`         the events, and what is reported for one of them;
* `dispatch`, `handleBatch`, `handleEvents`   the loop, with a trace of the calls and the removals;
* `Entry.items`              the part of the trace that belongs to one entry;
* `no_call_of_removed_iff`   when no function of a removed event is called.
-/

set_option linter.unusedVariables false

namespace Cjet
namespace Epoll

/-! ## events -/

/-- the structure that an `io_event` is a part of -/
inductive Owner where
  | bufferedSocket
  | cjetTimer
  | server
  deriving DecidableEq

/-- An `io_event` is known by its address as long as it is registered.  What is allocated later is
another event, even in the same memory. -/
structure IoEvent where
  addr : Nat
  owner : Owner
  deriving DecidableEq

/-- is there a `read_function`? -/
def IoEvent.readFunction (ev : IoEvent) : Bool :=
  match ev.owner with
  | .bufferedSocket => true
  | .cjetTimer => true
  | .server => true

/-- is there a `write_function`? -/
def IoEvent.writeFunction (ev : IoEvent) : Bool :=
  match ev.owner with
  | .bufferedSocket => true
  | .cjetTimer => false
  | .server => false

inductive EventloopReturn where
  | abortLoop
  | continueLoop
  | eventRemoved
  deriving DecidableEq

inductive EventloopFunction where
  | error
  | read
  | write
  deriving DecidableEq

/-- what a called function does to the loop -/
structure Outcome where
  removes : List IoEvent
  ret : EventloopReturn

/-- An element of `events`, and what its functions do if they are called.  An entry calls each of them at
most once, so these are all the ways that the functions can behave. -/
structure Entry where
  ev : IoEvent
  events : BitVec 32
  onError : Outcome
  onRead : Outcome
  onWrite : Outcome

def epollIn : BitVec 32 := 1
def epollOut : BitVec 32 := 4

namespace Entry
variable (e : Entry)

/-- is anything else reported than `EPOLLIN` and `EPOLLOUT`? -/
def isError : Bool := e.events &&& ~~~(epollIn ||| epollOut) != 0

def reads : Bool := e.events &&& epollIn != 0 && e.ev.readFunction

def writes : Bool := e.events &&& epollOut != 0 && e.ev.writeFunction

end Entry

/-! ## the loop -/

inductive Item where
  | called (ev : IoEvent) (f : EventloopFunction)
  | removed (ev : IoEvent)

/-- `current_ev`, and what has happened so far -/
structure Loop where
  currentEv : Option IoEvent
  trace : List Item

/-- `eventloop_epoll_remove` -/
def eventloopEpollRemove (currentEv : Option IoEvent) (ev : IoEvent) : Option IoEvent :=
  if currentEv = some ev then none else currentEv

/-- `buffered_socket_close` and `cjet_timer_destroy`.  The latter hands over the address of the member
`loop` instead of its `this_ptr`, and `current_ev` is neither compared nor written there. -/
def remove (currentEv : Option IoEvent) (ev : IoEvent) : Option IoEvent :=
  match ev.owner with
  | .cjetTimer => currentEv
  | .bufferedSocket => eventloopEpollRemove currentEv ev
  | .server => eventloopEpollRemove currentEv ev

def callFunction (s : Loop) (ev : IoEvent) (f : EventloopFunction) (o : Outcome) : Loop where
  currentEv := o.removes.foldl remove s.currentEv
  trace := s.trace ++ .called ev f :: o.removes.map .removed

def readPart (s : Loop) (e : Entry) : Loop × EventloopReturn :=
  if e.reads then (callFunction s e.ev .read e.onRead, e.onRead.ret)
  else (s, .continueLoop)

def writePart (s : Loop) (e : Entry) : Loop × EventloopReturn :=
  if s.currentEv.isSome && e.writes then (callFunction s e.ev .write e.onWrite, e.onWrite.ret)
  else (s, .continueLoop)

/-- the body of the loop in `handle_events`: is the loop aborted? -/
def dispatch (s : Loop) (e : Entry) : Loop × Bool :=
  let s := { s with currentEv := some e.ev }
  if e.isError then
    (callFunction s e.ev .error e.onError, e.onError.ret = .abortLoop)
  else
    match readPart s e with
    | (s, .abortLoop) => (s, true)
    | (s, .eventRemoved) => (s, false)
    | (s, .continueLoop) =>
      match writePart s e with
      | (s, ret) => (s, ret = .abortLoop)

def handleBatch (s : Loop) : List Entry → Loop × EventloopReturn
  | [] => (s, .continueLoop)
  | e :: batch =>
    match dispatch s e with
    | (s, true) => (s, .abortLoop)
    | (s, false) => handleBatch s batch

/-- `handle_events`; `none` is the -1 of `epoll_wait` -/
def handleEvents (s : Loop) (eintr : Bool) : Option (List Entry) → Loop × EventloopReturn
  | none => (s, if eintr then .continueLoop else .abortLoop)
  | some batch => handleBatch s batch

/-! ## one entry -/

/-- what a call adds to the trace -/
def callItems (ev : IoEvent) (c : EventloopFunction × Outcome) : List Item :=
  .called ev c.1 :: c.2.removes.map .removed

namespace Entry
variable (e : Entry)

/-- the read function has left the event in the loop, and says so -/
def goesOn : Bool := e.onRead.ret = .continueLoop && e.ev ∉ e.onRead.removes

/-- the functions that the loop calls for the entry, with what they do -/
def calls : List (EventloopFunction × Outcome) :=
  if e.isError then [(.error, e.onError)]
  else if e.reads then (.read, e.onRead) :: if e.goesOn && e.writes then [(.write, e.onWrite)] else []
  else if e.writes then [(.write, e.onWrite)] else []

/-- the events that they remove -/
def removes : List IoEvent := e.calls.flatMap fun c => c.2.removes

def aborts : Bool := e.calls.any fun c => c.2.ret = .abortLoop

def items : List Item := e.calls.flatMap (callItems e.ev)

end Entry

/-- the current event stays the current event unless it is removed -/
theorem foldl_remove (ev : IoEvent) (hw : ev.writeFunction = true) (l : List IoEvent) :
    (l.foldl remove (some ev)).isSome = decide (ev ∉ l) := by
  have hnone : ∀ l : List IoEvent, l.foldl remove none = none := fun l => by
    induction l with
    | nil => rfl
    | cons e l ih =>
      have hstep : remove none e = none := by
        unfold remove eventloopEpollRemove
        cases e.owner <;> rfl
      rw [List.foldl_cons, hstep, ih]
  induction l with
  | nil => rfl
  | cons e l ih =>
    rw [List.foldl_cons]
    by_cases h : ev = e
    · subst h
      have hstep : remove (some ev) ev = none := by
        unfold IoEvent.writeFunction at hw
        unfold remove eventloopEpollRemove
        cases ho : ev.owner <;> simp_all
      rw [hstep, hnone]
      simp
    · have hstep : remove (some ev) e = some ev := by
        unfold remove eventloopEpollRemove
        cases e.owner <;> simp [h]
      rw [hstep, ih]
      simp [h]

theorem trace_callFunction (s : Loop) (ev : IoEvent) (f : EventloopFunction) (o : Outcome) :
    (callFunction s ev f o).trace = s.trace ++ callItems ev (f, o) := rfl

/-- what an entry adds to the trace, and whether it aborts the loop -/
theorem dispatch_eq (s : Loop) (e : Entry) :
    (dispatch s e).1.trace = s.trace ++ e.items ∧ (dispatch s e).2 = e.aborts := by
  unfold dispatch readPart Entry.items Entry.aborts Entry.calls
  cases herr : e.isError with
  | true => simp [trace_callFunction]
  | false =>
    cases hread : e.reads with
    | false =>
      unfold writePart
      cases hw : e.writes with
      | false => simp
      | true => simp [trace_callFunction]
    | true =>
      cases hret : e.onRead.ret with
      | abortLoop => simp [trace_callFunction, Entry.goesOn, hret]
      | eventRemoved => simp [trace_callFunction, Entry.goesOn, hret]
      | continueLoop =>
        unfold writePart
        cases hw : e.writes with
        | false => simp [trace_callFunction, hret]
        | true =>
          -- the write function is called if the event is still the current one
          have hfunction : e.ev.writeFunction = true := by
            unfold Entry.writes at hw
            exact (Bool.and_eq_true _ _ ▸ hw).2
          have hcurrent : (callFunction { s with currentEv := some e.ev } e.ev .read e.onRead).currentEv.isSome
              = e.goesOn := by
            unfold Entry.goesOn
            rw [hret]
            exact foldl_remove e.ev hfunction e.onRead.removes
          cases hgo : e.goesOn with
          | false => simp [hcurrent, hgo, hret, trace_callFunction]
          | true => simp [hcurrent, hgo, hret, trace_callFunction]

/-! ## a batch -/

/-- the entries that the loop gets to -/
def reached : List Entry → List Entry
  | [] => []
  | e :: batch => e :: if e.aborts then [] else reached batch

theorem trace_handleBatch (s : Loop) (batch : List Entry) :
    (handleBatch s batch).1.trace = s.trace ++ (reached batch).flatMap Entry.items := by
  induction batch generalizing s with
  | nil => exact (List.append_nil _).symm
  | cons e batch ih =>
    obtain ⟨h1, h2⟩ := dispatch_eq s e
    unfold handleBatch reached
    cases hd : dispatch s e with
    | mk s' aborted =>
      rw [hd] at h1 h2
      dsimp only at h1 h2
      subst h2
      cases ha : e.aborts with
      | true => simpa using h1
      | false =>
        show (handleBatch s' batch).1.trace = _
        rw [ih, h1]
        simp

/-- the event of a call has been removed before -/
def overtakes : Item → Item → Bool
  | .removed ev, .called ev' _ => ev = ev'
  | _, _ => false

/-- no function is called of an event that has been removed before -/
def Clean (trace : List Item) : Prop := trace.Pairwise fun a b => overtakes a b = false

instance (trace : List Item) : Decidable (Clean trace) := inferInstanceAs (Decidable (List.Pairwise _ _))

theorem overtakes_callItems (ev ev' : IoEvent) (c c' : EventloopFunction × Outcome) :
    (∀ a ∈ callItems ev c, ∀ b ∈ callItems ev' c', overtakes a b = false) ↔ ev' ∉ c.2.removes := by
  unfold callItems
  constructor
  · intro h hmem
    have h1 := h (.removed ev') (List.mem_cons_of_mem _ (List.mem_map_of_mem hmem)) (.called ev' c'.1)
      List.mem_cons_self
    simp [overtakes] at h1
  · intro hno a ha b hb
    rcases List.mem_cons.mp ha with rfl | ha
    · rfl
    · obtain ⟨r, hr, rfl⟩ := List.mem_map.mp ha
      rcases List.mem_cons.mp hb with rfl | hb
      · have hne : r ≠ ev' := fun e => hno (e ▸ hr)
        exact decide_eq_false hne
      · obtain ⟨r', _, rfl⟩ := List.mem_map.mp hb
        rfl

theorem clean_callItems (ev : IoEvent) (c : EventloopFunction × Outcome) : Clean (callItems ev c) := by
  refine List.pairwise_cons.mpr ⟨fun b _ => rfl, List.pairwise_map.mpr ?_⟩
  exact List.pairwise_of_forall fun _ _ => rfl

/-- an entry whose own functions remove its event calls none of them after that -/
theorem clean_items (e : Entry) : Clean e.items := by
  refine List.pairwise_flatMap.mpr ⟨fun c _ => clean_callItems e.ev c, ?_⟩
  refine List.Pairwise.imp (fun {c c'} => (overtakes_callItems e.ev e.ev c c').mpr) ?_
  unfold Entry.calls
  cases e.isError with
  | true => exact List.pairwise_singleton _ _
  | false =>
    cases e.reads with
    | false => cases e.writes <;> simp
    | true =>
      cases hgo : e.goesOn && e.writes with
      | false => simp
      | true =>
        have hkeeps : e.ev ∉ e.onRead.removes := by
          simp [Entry.goesOn] at hgo
          exact hgo.1.2
        simp [hkeeps]

theorem overtakes_items (e e' : Entry) : (∀ a ∈ e.items, ∀ b ∈ e'.items, overtakes a b = false) ↔
    (e'.ev ∈ e.removes → e'.calls = []) := by
  unfold Entry.items Entry.removes
  simp only [List.mem_flatMap]
  constructor
  · rintro h ⟨c, hc, hmem⟩
    refine List.eq_nil_iff_forall_not_mem.mpr fun c' hc' => ?_
    exact (overtakes_callItems e.ev e'.ev c c').mp (fun a ha b hb => h a ⟨c, hc, ha⟩ b ⟨c', hc', hb⟩) hmem
  · rintro h a ⟨c, hc, ha⟩ b ⟨c', hc', hb⟩
    have hno : e'.ev ∉ c.2.removes := fun hmem => by
      rw [h ⟨c, hc, hmem⟩] at hc'
      cases hc'
    exact (overtakes_callItems e.ev e'.ev c c').mpr hno a ha b hb

/-- **No function of a removed event is called just if no entry removes the event of a later entry that
has a function to call.** -/
theorem no_call_of_removed_iff (currentEv : Option IoEvent) (eintr : Bool) (batch : List Entry) :
    Clean (handleEvents ⟨currentEv, []⟩ eintr (some batch)).1.trace ↔
      (reached batch).Pairwise fun e e' => e'.ev ∈ e.removes → e'.calls = [] := by
  show Clean (handleBatch _ batch).1.trace ↔ _
  rw [trace_handleBatch, List.nil_append]
  refine List.pairwise_flatMap.trans ((and_iff_right fun e _ => clean_items e).trans ?_)
  exact List.Pairwise.iff fun {e e'} => overtakes_items e e'

/-- the timer of a request, and the socket that the response comes in -/
def requestTimer : IoEvent := ⟨2, .cjetTimer⟩
def responder : IoEvent := ⟨1, .bufferedSocket⟩

/-- the response and the timeout of one request are reported together -/
def lateResponse : List Entry :=
  [⟨responder, epollIn, ⟨[], .continueLoop⟩, ⟨[requestTimer], .continueLoop⟩, ⟨[], .continueLoop⟩⟩,
   ⟨requestTimer, epollIn, ⟨[], .continueLoop⟩, ⟨[], .continueLoop⟩, ⟨[], .continueLoop⟩⟩]

theorem lateResponse_calls_removed :
    ¬ Clean (handleEvents ⟨none, []⟩ false (some lateResponse)).1.trace := by decide

end Epoll
end Cjet
