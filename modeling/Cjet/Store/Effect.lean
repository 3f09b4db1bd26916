import Cjet.Step

/-!
# What the programs over elements and fetches do

The calls that a notification or a subscription makes are programs of their own, `deliver`,
`deliverAll` and `subscribe`, that depend on the objects involved and not on the rest of the state.
Each program over the store is described once, by what it does to the state for these calls.

* `notifyFetchers_some`   the notifications of a change or a removal;
* `Subscribed`            what `add_fetch_to_state_and_notify` does for one element and one fetch;
* `removeElement_some`, `removeFetch_some`   the removals.
-/

set_option linter.unusedVariables false
set_option linter.unusedSectionVars false

namespace Cjet
open Stateful Alloc

/-! ## the calls of a notification -/

section
variable (env : Env)

/-- notifying the fetch `ft` at `f` of the element `el` at `e`: the message that is sent -/
def deliver (el : Element) (ft : Fetch) (e f : Addr) (eventName : String) : Alloc (Option Sent) := do
  match ← createNotification env el ft eventName with
  | none => return none
  | some root =>
    match ← printUnformatted env (.notification f e) root with
    | none => return none
    | some rendered =>
      let ok ← Alloc.call env (.sendMessage ft.peer (.notification f e) rendered)
      return some ⟨ft.peer, .notification f e, rendered, ok⟩

/-- the message was made and sent -/
def delivered (m : Option Sent) : Bool := m.any Sent.ok

/-- notifying one fetch after the other until one cannot be notified -/
def deliverAll (fetches : Addr → Option Fetch) (el : Element) (e : Addr) (eventName : String) :
    List Addr → Alloc (Bool × List Sent)
  | [] => return (true, [])
  | f :: fs => do
    match fetches f with
    | none => return (true, [])
    | some ft =>
      let m ← deliver env el ft e f eventName
      if delivered m then
        let (ok, l) ← deliverAll fetches el e eventName fs
        return (ok, m.toList ++ l)
      else return (false, m.toList)

/-- entering a fetch into the table of an element and notifying it -/
def subscribe (el : Element) (ft : Fetch) (e f : Addr) :
    Alloc (Option (List (Option Addr)) × Option Sent) := do
  match ← addFetchToTable env el.fetcherTable f with
  | none => return (none, none)
  | some table => return (some table, ← deliver env el ft e f "add")

end

/-- what `notify_fetching_peer` sends where nothing fails -/
def notification (el : Element) (id : Json) (eventName : String) : Json :=
  .obj [("method", id), ("params", .obj ((if el.flags &&& 1 = 1 then [("fetchOnly", .bool true)] else [])
    ++ [("path", .str el.path), ("event", .str eventName)]
    ++ (el.value.map fun v => ("value", v)).toList))]

theorem createNotification_ok {env : Env} (h : env.AllocOk) (el : Element) {ft : Fetch} {id : Json}
    (hid : ft.fetchId = some id) (eventName : String) (n : Nat) :
    (createNotification env el ft eventName n).1 = some (notification el id eventName) := by
  have hitem : ∀ k, Alloc.call env .addItem k = (true, k + 1) := call_ok env h rfl
  unfold createNotification
  rw [hid]
  by_cases hf : el.flags &&& 1 = 1 <;> cases hv : el.value <;>
    simp only [Alloc.bind_apply, Alloc.pure_apply, createObject_ok env h, duplicate_ok env h, hitem, hf, if_true,
      if_false, createString_ok env h, createTrue_ok env h, addItemToObject_ok env h, notification, hv] <;>
    rfl

theorem deliver_ok {env : Env} (h : env.AllocOk) (el : Element) {ft : Fetch} {id : Json}
    (hid : ft.fetchId = some id) (e f : Addr) (eventName : String) (n : Nat) :
    ∃ k, deliver env el ft e f eventName n = (some ⟨ft.peer, .notification f e,
      notification el id eventName,
      env.ok (.sendMessage ft.peer (.notification f e) (notification el id eventName)) k⟩, k + 1) := by
  have h1 := createNotification_ok h el hid eventName n
  refine ⟨(createNotification env el ft eventName n).2 + 1, ?_⟩
  unfold deliver
  rw [Alloc.bind_apply, h1]
  show (printUnformatted env (.notification f e) (notification el id eventName) >>= _) _ = _
  rw [Alloc.bind_apply, printUnformatted_ok env h]
  rfl

/-! ## notifying -/

section
variable {T : Type} {env : Env}

theorem notifyFetchingPeer_some {e f : Addr} {eventName : String} {b b' : Broker T} {ok : Bool}
    (h : notifyFetchingPeer env e f eventName b = some (ok, b')) :
    ∃ el ft m n, b.elements e = some el ∧ b.fetches f = some ft ∧
      deliver env el ft e f eventName b.calls = (m, n) ∧ ok = delivered m ∧
      b' = { b with calls := n, sent := b.sent ++ m.toList } := by
  obtain ⟨el, b1, h1, h2⟩ := Prog.bind_some h
  obtain ⟨hel, rfl⟩ := Prog.deref_some h1
  obtain ⟨ft, b2, h3, h4⟩ := Prog.bind_some h2
  obtain ⟨hft, rfl⟩ := Prog.deref_some h3
  obtain ⟨root, b3, h5, h6⟩ := Prog.bind_some h4
  obtain ⟨hroot, rfl⟩ := allocating_some h5
  have hd : deliver env el ft e f eventName b2.calls = (deliver env el ft e f eventName b2.calls) := rfl
  conv at hd => rhs; unfold deliver
  rw [Alloc.bind_apply, ← hroot] at hd
  cases root with
  | none =>
    obtain ⟨rfl, rfl⟩ := Prog.pure_some h6
    exact ⟨el, ft, none, _, hel, hft, hd, rfl, by simp⟩
  | some root =>
    obtain ⟨rendered, b4, h7, h8⟩ := Prog.bind_some h6
    obtain ⟨hrendered, rfl⟩ := allocating_some h7
    have hd' : deliver env el ft e f eventName b2.calls = (printUnformatted env _ root >>= _) _ := hd
    rw [Alloc.bind_apply, ← hrendered] at hd'
    cases rendered with
    | none =>
      obtain ⟨rfl, rfl⟩ := Prog.pure_some h8
      exact ⟨el, ft, none, _, hel, hft, hd', rfl, by simp⟩
    | some rendered =>
      obtain ⟨_, hok, rfl⟩ := sendMessage_some h8
      exact ⟨el, ft, some ⟨ft.peer, .notification f e, rendered, ok⟩, _, hel, hft,
        by rw [hok]; exact hd', rfl, rfl⟩

theorem notifyAll_some {e : Addr} {el : Element} {eventName : String} {fs : List Addr}
    {b b' : Broker T} {ok : Bool} (hel : b.elements e = some el)
    (h : Prog.tryAll (fun f => notifyFetchingPeer env e f eventName) fs b = some (ok, b')) :
    ∃ l n, deliverAll env b.fetches el e eventName fs b.calls = ((ok, l), n) ∧
      b' = { b with calls := n, sent := b.sent ++ l } := by
  induction fs generalizing b with
  | nil =>
    obtain ⟨rfl, rfl⟩ := Prog.pure_some h
    exact ⟨[], _, rfl, by simp⟩
  | cons f fs ih =>
    obtain ⟨ok1, b1, h1, h2⟩ := Prog.bind_some h
    obtain ⟨el', ft, m, n, hel', hft, hd, rfl, rfl⟩ := notifyFetchingPeer_some h1
    obtain rfl := Option.some.inj (hel.symm.trans hel')
    unfold deliverAll
    rw [hft]
    show ∃ l k, (deliver env el ft e f eventName >>= _) b.calls = _ ∧ _
    rw [Alloc.bind_apply, hd]
    cases hm : delivered m with
    | false =>
      rw [hm] at h2
      obtain ⟨rfl, rfl⟩ := Prog.pure_some h2
      exact ⟨m.toList, n, by simp [Alloc.pure_apply], rfl⟩
    | true =>
      rw [hm] at h2
      have hel1 : ({ b with calls := n, sent := b.sent ++ m.toList } : Broker T).elements e = some el := hel
      obtain ⟨l, k, hl, rfl⟩ := ih hel1 h2
      refine ⟨m.toList ++ l, k, ?_, by rw [List.append_assoc]⟩
      have hl' : deliverAll env b.fetches el e eventName fs n = ((ok, l), k) := hl
      simp only [if_true, Alloc.bind_apply, hl']
      rfl

theorem notifyFetchers_some {e : Addr} {eventName : String} {b b' : Broker T} {ok : Bool}
    (h : notifyFetchers env e eventName b = some (ok, b')) :
    ∃ el l n, b.elements e = some el ∧
      deliverAll env b.fetches el e eventName (Slots.entries el.fetcherTable) b.calls = ((ok, l), n) ∧
      b' = { b with calls := n, sent := b.sent ++ l } := by
  obtain ⟨el, b1, h1, h2⟩ := Prog.bind_some h
  obtain ⟨hel, rfl⟩ := Prog.deref_some h1
  obtain ⟨l, n, hl, rfl⟩ := notifyAll_some hel h2
  exact ⟨el, l, n, hel, hl, rfl⟩

/-! ## subscribing -/

/-- is a fetch of the element wanted: may the peer of the fetch see it, and do its matchers accept
the path?  No result where they cannot be evaluated. -/
def wants (a : Accounts) (el : Element) (ft : Fetch) : Option Bool :=
  if hasAccess a.allGroups el.fetchGroups (a.fetchGroups ft.peer) then stateMatches el.path ft.matcher
  else some false

/-- what `add_fetch_to_state_and_notify` does, and whether it succeeds -/
inductive Subscribed (env : Env) (e f : Addr) (b : Broker T) : Bool → Broker T → Prop
  | notWanted (el : Element) (ft : Fetch) (hel : b.elements e = some el) (hft : b.fetches f = some ft)
      (hw : wants b.toAccounts el ft = some false) : Subscribed env e f b true b
  | noTable (el : Element) (ft : Fetch) (n : Nat) (hel : b.elements e = some el)
      (hft : b.fetches f = some ft) (hw : wants b.toAccounts el ft = some true)
      (hs : subscribe env el ft e f b.calls = ((none, none), n)) :
    Subscribed env e f b false { b with calls := n }
  | entered (el : Element) (ft : Fetch) (table : List (Option Addr)) (m : Option Sent) (n : Nat)
      (hel : b.elements e = some el) (hft : b.fetches f = some ft)
      (hw : wants b.toAccounts el ft = some true)
      (hs : subscribe env el ft e f b.calls = ((some table, m), n)) :
    Subscribed env e f b (delivered m) { b with
      elements := Function.update b.elements e (some { el with fetcherTable := table })
      calls := n, sent := b.sent ++ m.toList }

theorem addFetchToStateAndNotify_some {e f : Addr} {b b' : Broker T} {ok : Bool}
    (h : addFetchToStateAndNotify env e f b = some (ok, b')) : Subscribed env e f b ok b' := by
  obtain ⟨el, b1, h1, h2⟩ := Prog.bind_some h
  obtain ⟨hel, rfl⟩ := Prog.deref_some h1
  obtain ⟨ft, b2, h3, h4⟩ := Prog.bind_some h2
  obtain ⟨hft, rfl⟩ := Prog.deref_some h3
  obtain ⟨access, b3, h5, h6⟩ := Prog.bind_some h4
  obtain ⟨haccess, rfl⟩ := Prog.read_some h5
  cases access with
  | false =>
    obtain ⟨rfl, rfl⟩ := Prog.pure_some h6
    exact .notWanted el ft hel hft (by unfold wants; rw [← haccess]; rfl)
  | true =>
    obtain ⟨isMatch, b4, h7, h8⟩ := Prog.bind_some h6
    obtain ⟨hmatch, rfl⟩ := Prog.deref_some h7
    have hw : wants b4.toAccounts el ft = some isMatch := by
      unfold wants
      rw [← haccess, if_pos rfl, hmatch]
    cases isMatch with
    | false =>
      obtain ⟨rfl, rfl⟩ := Prog.pure_some h8
      exact .notWanted el ft hel hft hw
    | true =>
      obtain ⟨table, b5, h9, h10⟩ := Prog.bind_some h8
      obtain ⟨htable, rfl⟩ := allocating_some h9
      have hs : subscribe env el ft e f b4.calls
          = (match (addFetchToTable env el.fetcherTable f b4.calls).1 with
            | none => pure (none, none)
            | some table => do return (some table, ← deliver env el ft e f "add"))
            (addFetchToTable env el.fetcherTable f b4.calls).2 := rfl
      rw [← htable] at hs
      cases table with
      | none =>
        obtain ⟨rfl, rfl⟩ := Prog.pure_some h10
        exact .noTable el ft _ hel hft hw hs
      | some table =>
        obtain ⟨_, b6, h11, h12⟩ := Prog.bind_some h10
        obtain rfl := Prog.update_some h11
        obtain ⟨el', ft', m, n, hel', hft', hd, rfl, rfl⟩ := notifyFetchingPeer_some h12
        obtain rfl := Option.some.inj (hft.symm.trans hft')
        have e1 : Function.update b4.elements e (some { el with fetcherTable := table }) e = some el' := hel'
        rw [Function.update_self] at e1
        obtain rfl := Option.some.inj e1
        have hd' : deliver env el ft e f "add" (addFetchToTable env el.fetcherTable f b4.calls).2 = (m, n) := hd
        refine .entered el ft table m n hel hft hw ?_
        rw [hs]
        show ((deliver env el ft e f "add" >>= fun m => pure (some table, m)) _) = _
        rw [Alloc.bind_apply, hd']
        rfl

/-! ## the table of an element -/

theorem addFetchToTable_some {table table' : List (Option Addr)} {f : Addr} {n : Nat}
    (h : (addFetchToTable env table f n).1 = some table') :
    (Slots.entries table').Perm (f :: Slots.entries table) := by
  unfold addFetchToTable at h
  cases hi : Slots.insert table f with
  | some t =>
    rw [hi] at h
    obtain rfl := Option.some.inj h
    exact Slots.perm_insert hi
  | none =>
    rw [hi] at h
    have h : ((Alloc.call env .calloc >>= _) n).1 = some table' := h
    rw [Alloc.bind_apply] at h
    cases hok : (Alloc.call env .calloc n).1 with
    | false => rw [hok] at h; cases h
    | true =>
      rw [hok] at h
      exact Slots.perm_insert_grow h

theorem addFetchToTable_ok (h : env.AllocOk) (table : List (Option Addr)) (f : Addr) (n : Nat) :
    ∃ table' k, addFetchToTable env table f n = (some table', k) := by
  unfold addFetchToTable
  cases hi : Slots.insert table f with
  | some t => exact ⟨t, n, rfl⟩
  | none =>
    have hpos := env.config.initialFetchTableSize_pos
    have hlt : table.length < max env.config.initialFetchTableSize (table.length * 2) := by omega
    obtain ⟨t, ht⟩ := Slots.exists_insert_grow hlt f
    refine ⟨t, n + 1, ?_⟩
    show (Alloc.call env .calloc >>= _) n = _
    rw [Alloc.bind_apply, call_ok env h rfl, ← ht]
    rfl

/-- where allocations succeed the fetch gets a slot and a message -/
theorem subscribe_ok (h : env.AllocOk) (el : Element) {ft : Fetch} {id : Json}
    (hid : ft.fetchId = some id) (e f : Addr) (n : Nat) :
    ∃ table k, (Slots.entries table).Perm (f :: Slots.entries el.fetcherTable) ∧
      subscribe env el ft e f n = ((some table, some ⟨ft.peer, .notification f e, notification el id "add",
        env.ok (.sendMessage ft.peer (.notification f e) (notification el id "add")) k⟩), k + 1) := by
  obtain ⟨table, k, ht⟩ := addFetchToTable_ok h el.fetcherTable f n
  obtain ⟨k', hd⟩ := deliver_ok h el hid e f "add" k
  refine ⟨table, k', addFetchToTable_some (by rw [ht]), ?_⟩
  unfold subscribe
  rw [Alloc.bind_apply, ht]
  show (deliver env el ft e f "add" >>= fun m => pure (some table, m)) k = _
  rw [Alloc.bind_apply, hd]
  rfl

/-- an element without the fetch `f` -/
def Element.without (el : Element) (f : Addr) : Element :=
  { el with fetcherTable := Slots.erase el.fetcherTable f }

theorem Element.without_without (el : Element) (f : Addr) : (el.without f).without f = el.without f := by
  unfold Element.without
  have hnot : f ∉ Slots.entries (Slots.erase el.fetcherTable f) := by simp [Slots.entries_erase]
  rw [Slots.erase_of_notMem hnot]

theorem removeFetchFromState_some {e f : Addr} {b b' : Broker T} {u : Unit}
    (h : removeFetchFromState f e b = some (u, b')) : ∃ el, b.elements e = some el ∧
      b' = { b with elements := Function.update b.elements e (some (el.without f)) } := by
  obtain ⟨el, b1, h1, h2⟩ := Prog.bind_some h
  obtain ⟨hel, rfl⟩ := Prog.deref_some h1
  exact ⟨el, hel, Prog.update_some h2⟩

/-- the fetch has left the tables of the elements in `l` -/
def Removed (f : Addr) (l : List Addr) (b b' : Broker T) : Prop :=
  ∃ elements, b' = { b with elements := elements } ∧
    ∀ e, elements e = if e ∈ l then (b.elements e).map fun el => el.without f else b.elements e

theorem removed_loop {f : Addr} {l : List Addr} {b b' : Broker T} {u : Unit}
    (h : Prog.each (removeFetchFromState f) l b = some (u, b')) : Removed f l b b' := by
  induction l generalizing b with
  | nil =>
    obtain ⟨_, rfl⟩ := Prog.pure_some h
    exact ⟨b'.elements, rfl, fun e => by simp⟩
  | cons e l ih =>
    obtain ⟨_, b1, h1, h2⟩ := Prog.bind_some h
    obtain ⟨el, hel, rfl⟩ := removeFetchFromState_some h1
    obtain ⟨elements, rfl, hE⟩ := ih h2
    refine ⟨elements, rfl, fun a => ?_⟩
    have hEa : elements a = if a ∈ l then (Function.update b.elements e (some (el.without f)) a).map
        fun el => el.without f else Function.update b.elements e (some (el.without f)) a := hE a
    rw [hEa]
    by_cases ea : a = e
    · subst ea
      rw [if_pos List.mem_cons_self, Function.update_self, hel]
      by_cases ha : a ∈ l
      · rw [if_pos ha, Option.map_some, Option.map_some, Element.without_without]
      · rw [if_neg ha, Option.map_some]
    · rw [Function.update_of_ne ea]
      simp [ea]

theorem removeFetchFromStates_some {f : Addr} {b b' : Broker T} {u : Unit}
    (h : removeFetchFromStates f b = some (u, b')) :
    Removed f (b.peerList.flatMap b.elementList) b b' := by
  obtain ⟨ps, b1, h1, h2⟩ := Prog.bind_some h
  obtain ⟨rfl, rfl⟩ := Prog.read_some h1
  have keep : ∀ (e : Addr) (s : Broker T) u t, removeFetchFromState f e s = some (u, t) →
      t.elementList = s.elementList := fun e s u t ht => by
    obtain ⟨el, _, rfl⟩ := removeFetchFromState_some ht
    rfl
  have hflat := Prog.each_flatMap (removeFetchFromState f) (fun b : Broker T => b.elementList) b1 keep
    b1.peerList
  exact removed_loop (hflat.symm.trans h2)

/-! ## objects go away -/

theorem unlinkElement_some [HashTable T] {e : Addr} {b b' : Broker T} {u : Unit}
    (h : unlinkElement e b = some (u, b')) : ∃ el, b.elements e = some el ∧ b' = { b with
      elementList := Function.update b.elementList el.peer ((b.elementList el.peer).erase e)
      elementTable := (HashTable.remove b.elementTable el.path).2
      elements := Function.update b.elements e none } := by
  obtain ⟨el, b1, h1, h2⟩ := Prog.bind_some h
  obtain ⟨hel, rfl⟩ := Prog.deref_some h1
  obtain ⟨_, b2, h3, h4⟩ := Prog.bind_some h2
  obtain rfl := Prog.update_some h3
  obtain ⟨_, b3, h5, h6⟩ := Prog.bind_some h4
  obtain rfl := Prog.update_some h5
  exact ⟨el, hel, Prog.update_some h6⟩

theorem removeElement_some [HashTable T] {e : Addr} {b b' : Broker T} {u : Unit}
    (h : removeElement env e b = some (u, b')) : ∃ el ok l n, b.elements e = some el ∧
      deliverAll env b.fetches el e "remove" (Slots.entries el.fetcherTable) b.calls = ((ok, l), n) ∧
      b' = { b with
        elementList := Function.update b.elementList el.peer ((b.elementList el.peer).erase e)
        elementTable := (HashTable.remove b.elementTable el.path).2
        elements := Function.update b.elements e none, calls := n, sent := b.sent ++ l } := by
  obtain ⟨ok, b1, h1, h2⟩ := Prog.bind_some h
  obtain ⟨el, l, n, hel, hl, rfl⟩ := notifyFetchers_some h1
  obtain ⟨el', hel', rfl⟩ := unlinkElement_some h2
  obtain rfl := Option.some.inj (hel.symm.trans hel')
  exact ⟨el, ok, l, n, hel, hl, rfl⟩

theorem removeFetch_some {p f : Addr} {b b' : Broker T} {u : Unit}
    (h : removeFetch p f b = some (u, b')) :
    ∃ b1, Removed f (b.peerList.flatMap b.elementList) b b1 ∧ b' = { b1 with
      fetchList := Function.update b1.fetchList p ((b1.fetchList p).erase f)
      fetches := Function.update b1.fetches f none } := by
  obtain ⟨_, b1, h1, h2⟩ := Prog.bind_some h
  exact ⟨b1, removeFetchFromStates_some h1, Prog.update_some h2⟩

end

end Cjet
