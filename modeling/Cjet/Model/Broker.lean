import Cjet.Lib.Program
import Cjet.Lib.Table
import Cjet.Model.Env

/-!
# The state of the broker (`peer.h`, `element.h`, `fetch.h`, `router.h`)

The heap objects of the broker are records; a freed object is no longer allocated
(`elements a = none`), and following a pointer to it has no result.  `struct peer` is read field
by field: each of its fields is a function of the address of the peer, and the peers in
`peerList` are the connected ones.  What stands at other addresses is what the memory happens to
hold.

* `Element`, `Fetch`, `RoutingRequest`   the heap objects;
* `Store`, `Router`, `Accounts`, `Outside`   the parts of the state: elements and fetches, routed
  requests and their timers, users and groups, and the calls made so far;
* `Broker`   all of it.  `T` is the type of the hash tables.
-/

set_option linter.unusedVariables false

namespace Cjet
open Stateful

/-! ## heap objects -/

/-- `struct element`; `fetch_table_size` is the length of `fetcherTable` -/
structure Element where
  path : String
  peer : Addr
  /-- null for a method -/
  value : Option Json
  fetcherTable : List (Option Addr)
  fetchGroups : GroupSet
  setGroups : GroupSet
  callGroups : GroupSet
  flags : Nat
  timeoutNsec : Nat

/-- `struct path_matcher` -/
structure PathMatcher where
  matchFunction : List String → String → Bool
  pathElements : List String

/-- `struct fetch`; `number_of_matchers` is the length of `matcher` -/
structure Fetch where
  fetchId : Option Json
  peer : Addr
  matcher : List (Option PathMatcher)

/-- `struct routing_request`; its timer is in `Router.timers` under the address of the request.
`origin` is a ghost: the number of the request object it was made for. -/
structure RoutingRequest where
  requestingPeer : Addr
  ownerPeer : Addr
  originRequestId : Option Json
  id : String
  origin : Nat

/-- a message handed to `send_message` -/
structure Sent where
  peer : Addr
  about : About
  msg : Json
  /-- `send_message` returned 0 -/
  ok : Bool

/-! ## the parts of the state -/

structure Store (T : Type) where
  peerList : List Addr
  elementList : Addr → List Addr
  fetchList : Addr → List Addr
  elements : Addr → Option Element
  fetches : Addr → Option Fetch
  elementTable : T
  /-- addresses from here on are not in use for elements and fetches -/
  fresh : Nat

structure Router (T : Type) where
  routingTable : Addr → T
  requests : Addr → Option RoutingRequest
  /-- the timers registered in the event loop: is it armed? -/
  timers : Addr → Option Bool
  /-- `unsigned int uuid` -/
  uuid : Nat
  /-- the number of routing requests allocated so far: the address of the next one -/
  routed : Nat

structure Accounts where
  name : Addr → Option String
  fetchGroups : Addr → GroupSet
  setGroups : Addr → GroupSet
  callGroups : Addr → GroupSet
  userName : Addr → Option String
  isLocalConnection : Addr → Bool
  /-- `all_groups`: null where no password file was loaded -/
  allGroups : Option (List String)
  userData : Option Json
  passwordFile : List UInt8

structure Outside where
  /-- the number of calls made while the present event is processed -/
  calls : Nat
  sent : List Sent
  /-- the number of request objects received before the present one -/
  received : Nat

structure Broker (T : Type) extends Store T, Router T, Accounts, Outside

/-- the broker after start-up, with the groups and users that `load_passwd_data` found -/
def Broker.start {T : Type} [HashTable T] (config : Config) (allGroups : Option (List String))
    (userData : Option Json) (passwordFile : List UInt8) : Broker T where
  peerList := []
  elementList _ := []
  fetchList _ := []
  elements _ := none
  fetches _ := none
  elementTable := HashTable.create config.elementTableOrder
  fresh := 0
  routingTable _ := HashTable.create config.routingTableOrder
  requests _ := none
  timers _ := none
  uuid := 0
  routed := 0
  name _ := none
  fetchGroups _ := 0
  setGroups _ := 0
  callGroups _ := 0
  userName _ := none
  isLocalConnection _ := false
  allGroups := allGroups
  userData := userData
  passwordFile := passwordFile
  calls := 0
  sent := []
  received := 0

/-! ## calls made by a program over the broker -/

section
variable {T : Type} (env : Env)

/-- a program that only allocates -/
def allocating {α : Type} (m : Alloc α) : Prog (Broker T) α := fun b =>
  some ((m b.calls).1, { b with calls := (m b.calls).2 })

def call (c : Call) : Prog (Broker T) Bool := allocating (Alloc.call env c)

/-- `p->send_message(p, rendered, strlen(rendered))` for a peer that still exists -/
def sendMessage (p : Addr) (about : About) (msg : Json) : Prog (Broker T) Bool := do
  Prog.require fun b => b.peerList.contains p
  let ok ← call env (.sendMessage p about msg)
  Prog.update fun b => { b with sent := b.sent ++ [⟨p, about, msg, ok⟩] }
  return ok

theorem allocating_apply {α : Type} (m : Alloc α) (b : Broker T) :
    allocating m b = some ((m b.calls).1, { b with calls := (m b.calls).2 }) := rfl

theorem allocating_some {α : Type} {m : Alloc α} {b b' : Broker T} {a : α}
    (h : allocating m b = some (a, b')) :
    a = (m b.calls).1 ∧ b' = { b with calls := (m b.calls).2 } := by
  cases h; exact ⟨rfl, rfl⟩

theorem deref_element {b : Broker T} {e : Addr} {el : Element} (h : b.elements e = some el) :
    Prog.deref (fun b : Broker T => b.elements e) b = some (el, b) := Prog.deref_of_some h

theorem deref_fetch {b : Broker T} {f : Addr} {ft : Fetch} (h : b.fetches f = some ft) :
    Prog.deref (fun b : Broker T => b.fetches f) b = some (ft, b) := Prog.deref_of_some h

theorem call_apply (c : Call) (b : Broker T) :
    call env c b = some (env.ok c b.calls, { b with calls := b.calls + 1 }) := rfl

theorem call_some {env : Env} {c : Call} {b b' : Broker T} {ok : Bool}
    (h : call env c b = some (ok, b')) :
    ok = env.ok c b.calls ∧ b' = { b with calls := b.calls + 1 } := by
  cases h; exact ⟨rfl, rfl⟩

theorem sendMessage_apply (p : Addr) (about : About) (msg : Json) (b : Broker T)
    (hp : p ∈ b.peerList) :
    sendMessage env p about msg b = some (env.ok (.sendMessage p about msg) b.calls,
      { b with calls := b.calls + 1
               sent := b.sent ++ [⟨p, about, msg, env.ok (.sendMessage p about msg) b.calls⟩] }) := by
  unfold sendMessage
  rw [Prog.bind_of_some (Prog.require_of_true (by simpa using hp))]
  rfl

theorem sendMessage_some {env : Env} {p : Addr} {about : About} {msg : Json} {b b' : Broker T}
    {ok : Bool} (h : sendMessage env p about msg b = some (ok, b')) :
    p ∈ b.peerList ∧ ok = env.ok (.sendMessage p about msg) b.calls ∧
      b' = { b with calls := b.calls + 1, sent := b.sent ++ [⟨p, about, msg, ok⟩] } := by
  obtain ⟨_, b1, h1, _⟩ := Prog.bind_some h
  obtain ⟨hp, _⟩ := Prog.require_some h1
  have hp' : p ∈ b.peerList := by simpa using hp
  rw [sendMessage_apply env p about msg b hp'] at h
  cases h
  exact ⟨hp', rfl, rfl⟩

end

end Cjet
