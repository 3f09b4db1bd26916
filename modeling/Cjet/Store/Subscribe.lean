import Cjet.Store.Handlers

/-!
# Subscribing to many elements, and by many fetches

An add subscribes all fetches to the new element, a fetch subscribes to all elements.  A loop stops
at the first failure; what it has entered until then is a part `sub` of the list it goes through, and
all that is wanted where it succeeds.

* `Broker.wanted`   does the fetch want the element?
* `Broker.note`     what a notification is, where nothing fails while it is made;
* `enterFetches`    the loop of an add;
* `enterElements`   the loop of a fetch.
-/

set_option linter.unusedVariables false
set_option linter.unusedSectionVars false

namespace Cjet
open Stateful Alloc

section
variable {T : Type} {env : Env}

/-- the peer a message goes to, what it is about, and its text -/
def Sent.content (m : Sent) : Addr × About × Json := (m.peer, m.about, m.msg)

def Broker.wanted (b : Broker T) (e f : Addr) : Bool :=
  match b.elements e, b.fetches f with
  | some el, some ft => wants b.toAccounts el ft == some true
  | _, _ => false

def Broker.note (b : Broker T) (el : Element) (e f : Addr) (eventName : String) :
    Option (Addr × About × Json) :=
  (b.fetches f).bind fun ft => ft.fetchId.map fun id =>
    (ft.peer, .notification f e, notification el id eventName)

theorem wanted_some {b : Broker T} {e f : Addr} {el : Element} {ft : Fetch} (hel : b.elements e = some el)
    (hft : b.fetches f = some ft) : b.wanted e f = (wants b.toAccounts el ft == some true) := by
  unfold Broker.wanted
  rw [hel, hft]

theorem wanted_of_eq {b b' : Broker T} {e f : Addr} (ha : b'.toAccounts = b.toAccounts)
    (hf : b'.fetches f = b.fetches f) (he : b'.elements e = b.elements e) : b'.wanted e f = b.wanted e f := by
  unfold Broker.wanted
  rw [ha, hf, he]

theorem note_some {b : Broker T} {el : Element} {e f : Addr} {eventName : String} {ft : Fetch} {id : Json}
    (hft : b.fetches f = some ft) (hid : ft.fetchId = some id) :
    b.note el e f eventName = some (ft.peer, .notification f e, notification el id eventName) := by
  unfold Broker.note
  rw [hft]
  show Option.map _ ft.fetchId = _
  rw [hid]
  rfl

/-- the table of an element does not matter -/
theorem wanted_congr {b b' : Broker T} {e f : Addr} {el : Element} {table : List (Option Addr)}
    (ha : b'.toAccounts = b.toAccounts) (hf : b'.fetches f = b.fetches f) (hel : b.elements e = some el)
    (hel' : b'.elements e = some { el with fetcherTable := table }) : b'.wanted e f = b.wanted e f := by
  unfold Broker.wanted
  rw [ha, hf, hel, hel']
  cases b.fetches f <;> rfl

theorem deliver_content (h : env.AllocOk) {b : Broker T} {el : Element} {ft : Fetch} {e f : Addr}
    {eventName : String} {n k : Nat} {m : Option Sent} (hft : b.fetches f = some ft)
    (hd : deliver env el ft e f eventName n = (m, k)) :
    m.toList.map Sent.content = (b.note el e f eventName).toList := by
  unfold Broker.note
  rw [hft]
  cases hid : ft.fetchId with
  | some id =>
    obtain ⟨k', h1⟩ := deliver_ok h el hid e f eventName n
    rw [h1] at hd
    cases hd
    show _ = (Option.map _ ft.fetchId).toList
    rw [hid]
    rfl
  | none =>
    unfold deliver createNotification at hd
    rw [Alloc.bind_apply, Alloc.bind_apply, createObject_ok env h, hid] at hd
    cases hd
    show _ = (Option.map _ ft.fetchId).toList
    rw [hid]
    rfl

theorem subscribe_some {el : Element} {ft : Fetch} {e f : Addr} {n k : Nat}
    {table : List (Option Addr)} {m : Option Sent}
    (h : subscribe env el ft e f n = ((some table, m), k)) :
    (Slots.entries table).Perm (f :: Slots.entries el.fetcherTable) ∧
      ∃ n', deliver env el ft e f "add" n' = (m, k) := by
  unfold subscribe at h
  rw [Alloc.bind_apply] at h
  cases ht : (addFetchToTable env el.fetcherTable f n).1 with
  | none => rw [ht] at h; cases h
  | some t =>
    rw [ht] at h
    have h : ((deliver env el ft e f "add" >>= fun m => pure (some t, m)) _) = ((some table, m), k) := h
    rw [Alloc.bind_apply] at h
    cases h
    exact ⟨addFetchToTable_some ht, _, rfl⟩

/-- the notification of the fetch `f`, as it is sent -/
def Broker.sentNote (b : Broker T) (ok : Addr → Bool) (el : Element) (e f : Addr) (eventName : String) :
    Option Sent := (b.note el e f eventName).map fun c => ⟨c.1, c.2.1, c.2.2, ok f⟩

/-- the outcome of sending a notification of the element at `e` depends on the fetch alone -/
def Env.SendsTo (env : Env) (e : Addr) (ok : Addr → Bool) : Prop :=
  ∀ p f msg n, env.ok (.sendMessage p (.notification f e) msg) n = ok f

theorem deliverAll_tried {env : Env} (ha : env.AllocOk) {b : Broker T} {el : Element} {e : Addr}
    {eventName : String} {ok : Addr → Bool} (hok : env.SendsTo e ok) {fs : List Addr}
    (hlive : ∀ f ∈ fs, ∃ ft id, b.fetches f = some ft ∧ ft.fetchId = some id) {n k : Nat} {r : Bool}
    {l : List Sent} (h : deliverAll env b.fetches el e eventName fs n = ((r, l), k)) :
    l = (Prog.tried ok fs).filterMap fun f => b.sentNote ok el e f eventName := by
  induction fs generalizing n r l with
  | nil =>
    cases h
    rfl
  | cons f fs ih =>
    obtain ⟨ft, id, hft, hid⟩ := hlive f List.mem_cons_self
    obtain ⟨k', hd⟩ := deliver_ok ha el hid e f eventName n
    have hsent : b.sentNote ok el e f eventName
        = some ⟨ft.peer, .notification f e, notification el id eventName, ok f⟩ := by
      rw [Broker.sentNote, note_some hft hid]
      rfl
    rw [hok] at hd
    have hfirst : deliverAll env b.fetches el e eventName (f :: fs) n
        = (if ok f then (do
            let r ← deliverAll env b.fetches el e eventName fs
            return (r.1, ⟨ft.peer, .notification f e, notification el id eventName, ok f⟩ :: r.2) : Alloc _)
          else return (false, [⟨ft.peer, .notification f e, notification el id eventName, ok f⟩])) (k' + 1) := by
      conv_lhs => unfold deliverAll
      rw [hft]
      show (deliver env el ft e f eventName >>= _) n = _
      rw [Alloc.bind_apply, hd]
      rfl
    rw [hfirst] at h
    rw [Prog.tried_cons, List.filterMap_cons, hsent]
    by_cases hf : ok f = true
    · rw [if_pos hf, Alloc.bind_apply] at h
      rw [if_pos hf]
      cases hr : deliverAll env b.fetches el e eventName fs (k' + 1) with
      | mk r1 k2 =>
        obtain ⟨r2, l2⟩ := r1
        rw [hr] at h
        cases h
        show _ :: l2 = _ :: _
        rw [ih (fun f' hf' => hlive f' (List.mem_cons_of_mem f hf')) hr]
    · rw [if_neg hf] at h
      rw [if_neg hf]
      cases h
      rfl

/-- the fetches in `fs` have ids -/
def Broker.HaveIds (b : Broker T) (fs : List Addr) : Prop :=
  ∀ f ∈ fs, ∀ ft, b.fetches f = some ft → ft.fetchId.isSome = true

/-- where allocations and sends succeed the fetch is entered and notified -/
theorem subscribe_works (h : env.AllocOk) (hs : env.SendOk) (el : Element) {ft : Fetch}
    (hid : ft.fetchId.isSome = true) (e f : Addr) (n : Nat) :
    ∃ table m k, subscribe env el ft e f n = ((some table, m), k) ∧ delivered m = true := by
  obtain ⟨id, hid⟩ := Option.isSome_iff_exists.mp hid
  obtain ⟨table, k, _, hsub⟩ := subscribe_ok h el hid e f n
  exact ⟨table, _, _, hsub, hs _ _ rfl⟩

/-! ## one element and many fetches -/

/-- after the loop over `fs` the fetches in `sub` have been entered into the table of the element `el`
at `e` -/
structure EnteredFetches (env : Env) (e : Addr) (el : Element) (fs sub : List Addr)
    (table : List (Option Addr)) (l : List Sent) (b : Broker T) (ok : Bool) : Prop where
  sublist : sub.Sublist fs
  entries : (Slots.entries table).Perm (sub ++ Slots.entries el.fetcherTable)
  wanted : ∀ f ∈ sub, b.wanted e f = true
  all : ok = true → sub = fs.filter fun f => b.wanted e f
  sent : env.AllocOk → l.map Sent.content = sub.filterMap fun f => b.note el e f "add"
  works : env.AllocOk → env.SendOk → b.HaveIds fs → ok = true

theorem enterFetches {e : Addr} {el : Element} {fs : List Addr} {b b' : Broker T} {ok : Bool}
    (hel : b.elements e = some el)
    (h : Prog.tryAll (fun f => addFetchToStateAndNotify env e f) fs b = some (ok, b')) :
    ∃ sub table l n, EnteredFetches env e el fs sub table l b ok ∧ b' = { b with
      elements := Function.update b.elements e (some { el with fetcherTable := table })
      calls := n, sent := b.sent ++ l } := by
  have same : Function.update b.elements e (some el) = b.elements := by
    rw [← hel, Function.update_eq_self]
  induction fs generalizing b el with
  | nil =>
    obtain ⟨rfl, rfl⟩ := Prog.pure_some h
    refine ⟨[], el.fetcherTable, [], b'.calls, ⟨List.Sublist.slnil, List.Perm.refl _, by simp, fun _ => rfl,
      fun _ => rfl, fun _ _ _ => rfl⟩, ?_⟩
    rw [same, List.append_nil]
  | cons f fs ih =>
    obtain ⟨ok1, b1, h1, h2⟩ := Prog.bind_some h
    have hs := addFetchToStateAndNotify_some h1
    cases hs with
    | notWanted el' ft hel' hft hw =>
      obtain rfl := Option.some.inj (hel.symm.trans hel')
      obtain ⟨sub, table, l, n, hE, rfl⟩ := ih hel h2 same
      have hnot : b.wanted e f = false := by rw [wanted_some hel hft, hw]; rfl
      exact ⟨sub, table, l, n, ⟨hE.sublist.cons f, hE.entries, hE.wanted, fun e1 => by
        rw [List.filter_cons, hnot]; exact hE.all e1, hE.sent, fun ha hs hid =>
        hE.works ha hs fun f' hf' => hid f' (List.mem_cons_of_mem _ hf')⟩, rfl⟩
    | noTable el' ft n hel' hft hw hs =>
      obtain ⟨rfl, rfl⟩ := Prog.pure_some h2
      refine ⟨[], el.fetcherTable, [], n, ⟨List.nil_sublist _, List.Perm.refl _, by simp,
        fun e1 => (by cases e1), fun _ => rfl, fun ha hok hid => ?_⟩, ?_⟩
      · obtain ⟨t, m, k, h3, _⟩ := subscribe_works ha hok el' (hid f List.mem_cons_self ft hft) e f
          b.calls
        rw [hs] at h3
        cases h3
      · rw [same, List.append_nil]
    | entered el' ft table1 m n hel' hft hw hs =>
      obtain rfl := Option.some.inj (hel.symm.trans hel')
      obtain ⟨hperm, n', hd⟩ := subscribe_some hs
      have hwant : b.wanted e f = true := by rw [wanted_some hel hft, hw]; rfl
      cases hm : delivered m with
      | false =>
        rw [hm] at h2
        obtain ⟨rfl, rfl⟩ := Prog.pure_some h2
        refine ⟨[f], table1, m.toList, n, ⟨List.singleton_sublist.mpr List.mem_cons_self, hperm,
          by simpa using hwant, fun e1 => (by cases e1), fun ha => ?_, fun ha hok hid => ?_⟩, rfl⟩
        · rw [deliver_content ha hft hd]
          cases hn : b.note el e f "add" <;> simp [hn]
        · obtain ⟨t, m', k, h3, h4⟩ := subscribe_works ha hok el (hid f List.mem_cons_self ft hft) e f
            b.calls
          rw [hs] at h3
          cases h3
          rw [hm] at h4
          cases h4
      | true =>
        rw [hm] at h2
        have hel1 : Function.update b.elements e (some { el with fetcherTable := table1 }) e
          = some { el with fetcherTable := table1 } := Function.update_self ..
        obtain ⟨sub, table, l, n2, hE, rfl⟩ := ih hel1 h2 (Function.update_idem ..)
        have hw1 : ∀ f', ({ b with
            elements := Function.update b.elements e (some { el with fetcherTable := table1 })
            calls := n, sent := b.sent ++ m.toList } : Broker T).wanted e f' = b.wanted e f' :=
          fun f' => wanted_congr rfl rfl hel hel1
        refine ⟨f :: sub, table, m.toList ++ l, n2, ⟨hE.sublist.cons_cons f, ?_, ?_, fun e1 => ?_, fun ha => ?_,
          fun ha hok hid => hE.works ha hok fun f' hf' => hid f' (List.mem_cons_of_mem _ hf')⟩, ?_⟩
        · exact (hE.entries.trans (hperm.append_left sub)).trans List.perm_middle
        · intro f' hf'
          rcases List.mem_cons.mp hf' with rfl | hf'
          · exact hwant
          · rw [← hw1]
            exact hE.wanted f' hf'
        · rw [List.filter_cons, if_pos hwant, hE.all e1]
          simp only [hw1]
        · have hl : l.map Sent.content = sub.filterMap fun f => b.note el e f "add" := hE.sent ha
          rw [List.map_append, deliver_content ha hft hd, hl, List.filterMap_cons]
          cases b.note el e f "add" <;> rfl
        · simp only [Function.update_idem, List.append_assoc]

/-! ## one fetch and many elements -/

/-- after the loop over `es` the fetch `f` has been entered into the tables of the elements in `sub` -/
structure EnteredElements (env : Env) (f : Addr) (es sub : List Addr) (elements : Addr → Option Element)
    (l : List Sent) (b : Broker T) (ok : Bool) : Prop where
  sublist : sub.Sublist es
  entries : ∀ e ∈ sub, ∃ el table, b.elements e = some el ∧
    elements e = some { el with fetcherTable := table } ∧
    (Slots.entries table).Perm (f :: Slots.entries el.fetcherTable)
  others : ∀ e, e ∉ sub → elements e = b.elements e
  wanted : ∀ e ∈ sub, b.wanted e f = true
  all : ok = true → sub = es.filter fun e => b.wanted e f
  sent : env.AllocOk → l.map Sent.content
    = sub.filterMap fun e => (b.elements e).bind fun el => b.note el e f "add"
  works : env.AllocOk → env.SendOk → b.HaveIds [f] → ok = true

theorem enterElements {f : Addr} {es : List Addr} (hes : es.Nodup) {b b' : Broker T} {ok : Bool}
    (h : Prog.tryAll (fun e => addFetchToStateAndNotify env e f) es b = some (ok, b')) :
    ∃ sub elements l n, EnteredElements env f es sub elements l b ok ∧
      b' = { b with elements := elements, calls := n, sent := b.sent ++ l } := by
  induction es generalizing b with
  | nil =>
    obtain ⟨rfl, rfl⟩ := Prog.pure_some h
    exact ⟨[], b'.elements, [], b'.calls, ⟨List.Sublist.slnil, by simp, fun _ _ => rfl, by simp, fun _ => rfl,
      fun _ => rfl, fun _ _ _ => rfl⟩, by rw [List.append_nil]⟩
  | cons e es ih =>
    obtain ⟨he, hes⟩ := List.nodup_cons.mp hes
    obtain ⟨ok1, b1, h1, h2⟩ := Prog.bind_some h
    have hs := addFetchToStateAndNotify_some h1
    cases hs with
    | notWanted el ft hel hft hw =>
      obtain ⟨sub, elements, l, n, hE, rfl⟩ := ih hes h2
      have hnot : b.wanted e f = false := by rw [wanted_some hel hft, hw]; rfl
      exact ⟨sub, elements, l, n, ⟨hE.sublist.cons e, hE.entries, hE.others, hE.wanted, fun e1 => by
        rw [List.filter_cons, hnot]; exact hE.all e1, hE.sent, hE.works⟩, rfl⟩
    | noTable el ft n hel hft hw hs =>
      obtain ⟨rfl, rfl⟩ := Prog.pure_some h2
      refine ⟨[], b.elements, [], n, ⟨List.nil_sublist _, by simp, fun _ _ => rfl, by simp,
        fun e1 => (by cases e1), fun _ => rfl, fun ha hok hid => ?_⟩, by rw [List.append_nil]⟩
      obtain ⟨t, m, k, h3, _⟩ := subscribe_works ha hok el (hid f List.mem_cons_self ft hft) e f b.calls
      rw [hs] at h3
      cases h3
    | entered el ft table1 m n hel hft hw hs =>
      obtain ⟨hperm, n', hd⟩ := subscribe_some hs
      have hwant : b.wanted e f = true := by rw [wanted_some hel hft, hw]; rfl
      have hself : Function.update b.elements e (some { el with fetcherTable := table1 }) e
        = some { el with fetcherTable := table1 } := Function.update_self ..
      cases hm : delivered m with
      | false =>
        rw [hm] at h2
        obtain ⟨rfl, rfl⟩ := Prog.pure_some h2
        refine ⟨[e], _, m.toList, n, ⟨List.singleton_sublist.mpr List.mem_cons_self, fun a ha => ?_, fun a ha => ?_,
          by simpa using hwant, fun e1 => (by cases e1), fun ha => ?_, fun ha hok hid => ?_⟩, rfl⟩
        · obtain rfl := List.mem_singleton.mp ha
          exact ⟨el, table1, hel, hself, hperm⟩
        · exact Function.update_of_ne (fun ea => ha (by rw [ea]; exact List.mem_cons_self)) _ _
        · rw [deliver_content ha hft hd]
          simp only [List.filterMap_cons, hel, Option.bind_some, List.filterMap_nil]
          cases b.note el e f "add" <;> rfl
        · obtain ⟨t, m', k, h3, h4⟩ := subscribe_works ha hok el (hid f List.mem_cons_self ft hft) e f
            b.calls
          rw [hs] at h3
          cases h3
          rw [hm] at h4
          cases h4
      | true =>
        rw [hm] at h2
        obtain ⟨sub, elements, l, n2, hE, rfl⟩ := ih hes h2
        have hsub : e ∉ sub := fun hmem => he (hE.sublist.subset hmem)
        have hother : ∀ a, a ∉ sub → elements a
            = Function.update b.elements e (some { el with fetcherTable := table1 }) a := hE.others
        have hne : ∀ {a}, a ∈ es → a ≠ e := fun ha ea => he (by rwa [ea] at ha)
        have hsame : ∀ {a}, a ∈ es → Function.update b.elements e (some { el with fetcherTable := table1 }) a
            = b.elements a := fun ha => Function.update_of_ne (hne ha) _ _
        have hw1 : ∀ a ∈ es, ({ b with
            elements := Function.update b.elements e (some { el with fetcherTable := table1 })
            calls := n, sent := b.sent ++ m.toList } : Broker T).wanted a f = b.wanted a f := fun a ha =>
          wanted_of_eq rfl rfl (hsame ha)
        refine ⟨e :: sub, elements, m.toList ++ l, n2, ⟨hE.sublist.cons_cons e, ?_, ?_, ?_, fun e1 => ?_,
          fun ha => ?_, hE.works⟩, ?_⟩
        · intro a ha
          rcases List.mem_cons.mp ha with rfl | ha
          · exact ⟨el, table1, hel, (hother a hsub).trans hself, hperm⟩
          · obtain ⟨el', table', h3, h4, h5⟩ := hE.entries a ha
            exact ⟨el', table', (hsame (hE.sublist.subset ha)).symm.trans h3, h4, h5⟩
        · intro a ha
          obtain ⟨h3, h4⟩ := not_or.mp fun h => ha (List.mem_cons.mpr h)
          rw [hother a h4, Function.update_of_ne h3]
        · intro a ha
          rcases List.mem_cons.mp ha with rfl | ha
          · exact hwant
          · rw [← hw1 a (hE.sublist.subset ha)]
            exact hE.wanted a ha
        · rw [List.filter_cons, if_pos hwant, hE.all e1, List.filter_congr hw1]
        · have hl : l.map Sent.content = sub.filterMap fun a =>
              (Function.update b.elements e (some { el with fetcherTable := table1 }) a).bind fun el =>
                b.note el a f "add" := hE.sent ha
          have hl' : l.map Sent.content = sub.filterMap fun a =>
              (b.elements a).bind fun el => b.note el a f "add" := by
            rw [hl]
            exact List.filterMap_congr fun a ha => by rw [hsame (hE.sublist.subset ha)]
          rw [List.map_append, deliver_content ha hft hd, hl', List.filterMap_cons, hel, Option.bind_some]
          cases b.note el e f "add" <;> rfl
        · simp only [List.append_assoc]

end

end Cjet
