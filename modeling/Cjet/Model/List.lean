import Cjet.Lib.Ring
import Cjet.Lib.Total

/-!
# Linked lists (`list.h`)

A list is a ring of nodes with a head; the nodes are parts of the structures that are listed.  An access to a node that
is not allocated is undefined.

* `listAddTail`, `listDel`, `listForEachSafe`   the operations;
* `eachSafe_eq`             the loop visits what has been in the list, also where its body frees the node it is at;
* `ListOp`, `ListOp.exec`   what the broker does with its lists;
* `exec_spec`, `execAll_spec`   the memory goes on representing the lists.
-/

set_option linter.unusedVariables false
set_option linter.unusedSectionVars false

namespace Cjet
open Stateful Prog

section
variable {ν : Type} [DecidableEq ν]

/-! ## the operations -/

def loadNext (a : ν) : Prog (Links ν) ν := deref fun s => s.next a
def loadPrev (a : ν) : Prog (Links ν) ν := deref fun s => s.prev a

/-- `a->next = b` -/
def storeNext (a b : ν) : Prog (Links ν) Unit := do
  require fun s => (s a).isSome
  update (Links.setNext a b)

/-- `a->prev = b` -/
def storePrev (a b : ν) : Prog (Links ν) Unit := do
  require fun s => (s a).isSome
  update (Links.setPrev a b)

/-- `INIT_LIST_HEAD` -/
def initListHead (list : ν) : Prog (Links ν) Unit := do
  storeNext list list
  storePrev list list

/-- `__list_add` -/
def listAdd (newEntry prev next : ν) : Prog (Links ν) Unit := do
  storePrev next newEntry
  storeNext newEntry next
  storePrev newEntry prev
  storeNext prev newEntry

/-- `list_add_tail` -/
def listAddTail (newEntry head : ν) : Prog (Links ν) Unit := do
  let prev ← loadPrev head
  listAdd newEntry prev head

/-- `__list_del` -/
def listDelBetween (prev next : ν) : Prog (Links ν) Unit := do
  storePrev next prev
  storeNext prev next

/-- `list_del` -/
def listDel (entry : ν) : Prog (Links ν) Unit := do
  let prev ← loadPrev entry
  let next ← loadNext entry
  listDelBetween prev next

/-- memory for a node, with anything in it -/
def allocateNode (memory : ListLink ν) (a : ν) : Prog (Links ν) Unit := do
  require fun s => (s a).isNone
  update fun s => Function.update s a (some memory)

def freeNode (a : ν) : Prog (Links ν) Unit := do
  require fun s => (s a).isSome
  update fun s => Function.update s a none

end

/-! ## the loop -/

section
variable {σ ν : Type} [DecidableEq ν] (next : σ → ν → Option ν) (head : ν) (body : ν → Prog σ Unit)

/-- the iterations of `list_for_each_safe` that are left, with the node they begin at and the one behind it -/
def eachSafe : Nat → ν → ν → Prog σ Unit
  | 0, _, _ => undefined
  | fuel + 1, pos, n =>
    if pos = head then pure ()
    else do
      body pos
      let n' ← deref fun s => next s n
      eachSafe fuel n n'

/-- `list_for_each_safe(pos, n, head)`: `n` is read before the body runs at `pos` -/
def listForEachSafe (fuel : Nat) : Prog σ Unit := do
  let pos ← deref fun s => next s head
  let n ← deref fun s => next s pos
  eachSafe next head body fuel pos n

/-- from the first node of `l`, or from the head, one comes through `l` to the head -/
structure Onward (s : σ) (l : List ν) : Prop where
  chain : (l ++ [head]).IsChain fun a b => next s a = some b
  live : (next s head).isSome = true
  notMem : head ∉ l

variable {next head body}

theorem Onward.next_headD {s : σ} {l : List ν} (h : Onward next head s l) :
    ∃ n, next s (l.headD head) = some n ∧ (l ≠ [] → n = l.tail.headD head) := by
  cases l with
  | nil =>
    obtain ⟨n, hn⟩ := Option.isSome_iff_exists.mp h.live
    exact ⟨n, hn, fun hne => absurd rfl hne⟩
  | cons a l =>
    have hchain := h.chain
    cases l with
    | nil => exact ⟨head, (List.isChain_cons_cons.mp hchain).1, fun _ => rfl⟩
    | cons b l => exact ⟨b, (List.isChain_cons_cons.mp hchain).1, fun _ => rfl⟩

/-- Where the body keeps the way from the next node on, the loop runs it at all nodes that have been in the list. -/
theorem eachSafe_eq {I : σ → List ν → Prop} (honward : ∀ s l, I s l → Onward next head s l)
    (hbody : ∀ s t x l, I s (x :: l) → body x s = some ((), t) → I t l) {s : σ} {l : List ν} (hI : I s l) {fuel : Nat}
    (hfuel : l.length < fuel) {n : ν} (hn : l ≠ [] → n = l.tail.headD head) :
    eachSafe next head body fuel (l.headD head) n s = Prog.each body l s := by
  induction l generalizing s fuel n with
  | nil =>
    cases fuel with
    | zero => exact absurd hfuel (Nat.not_lt_zero _)
    | succ fuel =>
      rw [eachSafe, List.headD_nil, if_pos rfl]
      rfl
  | cons x l ih =>
    cases fuel with
    | zero => exact absurd hfuel (Nat.not_lt_zero _)
    | succ fuel =>
      rw [List.length_cons] at hfuel
      have hx : x ≠ head := fun e => (honward s _ hI).notMem (e ▸ List.mem_cons_self)
      rw [eachSafe, List.headD_cons, if_neg hx, Prog.each_cons, bind_apply, bind_apply]
      cases hrun : body x s with
      | none => rfl
      | some r =>
        obtain ⟨⟨⟩, t⟩ := r
        have hI' := hbody s t x l hI hrun
        obtain ⟨n', hn', htail⟩ := (honward t l hI').next_headD
        obtain rfl : n = l.headD head := hn (List.cons_ne_nil x l)
        refine (bind_of_some (deref_of_some (f := fun s => next s (l.headD head)) hn')).trans ?_
        exact ih hI' (by omega) htail

theorem listForEachSafe_eq {I : σ → List ν → Prop} (honward : ∀ s l, I s l → Onward next head s l)
    (hbody : ∀ s t x l, I s (x :: l) → body x s = some ((), t) → I t l) {s : σ} {l : List ν} (hI : I s l)
    (hhead : next s head = some (l.headD head)) {fuel : Nat} (hfuel : l.length < fuel) :
    listForEachSafe next head body fuel s = Prog.each body l s := by
  obtain ⟨n, hn, htail⟩ := (honward s l hI).next_headD
  refine (bind_of_some (deref_of_some (f := fun s => next s head) hhead)).trans ?_
  refine (bind_of_some (deref_of_some (f := fun s => next s (l.headD head)) hn)).trans ?_
  exact eachSafe_eq honward hbody hI hfuel htail

end

/-! ## what each operation does -/

section
variable {ν : Type} [DecidableEq ν] {s : Links ν} {r : Rings ν} {Q : Unit → Links ν → Prop}

theorem ends_storeNext {a b : ν} (ha : (s a).isSome = true) (h : Q () (Links.setNext a b s)) :
    Ends (storeNext a b) s Q :=
  Ends.then_some (require_of_true ha) (Ends.update h)

theorem ends_storePrev {a b : ν} (ha : (s a).isSome = true) (h : Q () (Links.setPrev a b s)) :
    Ends (storePrev a b) s Q :=
  Ends.then_some (require_of_true ha) (Ends.update h)

theorem listAdd_spec {new prev next : ν} (hnew : (s new).isSome = true) (hprev : (s prev).isSome = true)
    (hnext : (s next).isSome = true) :
    Ends (listAdd new prev next) s fun _ t =>
      t = Links.setNext prev new (Links.setPrev new prev (Links.setNext new next (Links.setPrev next new s))) := by
  unfold listAdd
  refine Ends.bind (ends_storePrev (Q := fun _ t => t = Links.setPrev next new s) hnext rfl) fun _ t ht => ?_
  subst ht
  refine Ends.bind (ends_storeNext (Q := fun _ t => t = Links.setNext new next (Links.setPrev next new s)) ?_ rfl)
    fun _ t ht => ?_
  · rwa [Links.isSome_setPrev]
  subst ht
  refine Ends.bind (ends_storePrev (Q := fun _ t => t = Links.setPrev new prev _) ?_ rfl) fun _ t ht => ?_
  · rwa [Links.isSome_setNext, Links.isSome_setPrev]
  subst ht
  refine ends_storeNext ?_ rfl
  rwa [Links.isSome_setPrev, Links.isSome_setNext, Links.isSome_setPrev]

theorem initListHead_spec {a : ν} (ha : (s a).isSome = true) :
    Ends (initListHead a) s fun _ t => t = Function.update s a (some ⟨a, a⟩) := by
  obtain ⟨x, hx⟩ := Option.isSome_iff_exists.mp ha
  unfold initListHead
  refine Ends.bind (ends_storeNext (Q := fun _ t => t = Links.setNext a a s) ha rfl) fun _ t ht => ?_
  subst ht
  refine ends_storePrev ?_ ?_
  · rwa [Links.isSome_setNext]
  · unfold Links.setPrev Links.setNext
    rw [Function.update_self, hx, Function.update_idem]
    rfl

theorem listDel_spec {e p n : ν} (hp : s.prev e = some p) (hn : s.next e = some n) (hlp : (s p).isSome = true)
    (hln : (s n).isSome = true) : Ends (listDel e) s fun _ t => t = Links.setNext p n (Links.setPrev n p s) := by
  unfold listDel
  refine Ends.then_deref hp (Ends.then_deref hn ?_)
  unfold listDelBetween
  refine Ends.bind (ends_storePrev (Q := fun _ t => t = Links.setPrev n p s) hln rfl) fun _ t ht => ?_
  subst ht
  refine ends_storeNext ?_ rfl
  rwa [Links.isSome_setPrev]

/-! ## the broker's uses of its lists -/

inductive ListOp (ν : Type) where
  /-- a node is allocated, and `INIT_LIST_HEAD` -/
  | init (a : ν)
  /-- `list_add_tail` -/
  | addTail (newEntry head : ν)
  /-- `list_del`, and the structure that the node is a part of is freed -/
  | remove (entry : ν)
  /-- a node that is in no list is freed -/
  | free (a : ν)
  /-- all entries are removed, one after the other: `remove_all_fetchers_from_peer`, `remove_all_elements_from_peer` -/
  | clear (head : ν)

/-- `list_del(e)`, and the end of `e` -/
def removeNode (e : ν) : Prog (Links ν) Unit := do
  listDel e
  freeNode e

variable (memory : ν → ListLink ν) (fuel : Nat)

def ListOp.exec : ListOp ν → Prog (Links ν) Unit
  | .init a => do
    allocateNode (memory a) a
    initListHead a
  | .addTail newEntry head => listAddTail newEntry head
  | .remove entry => removeNode entry
  | .free a => freeNode a
  | .clear head => listForEachSafe Links.next head removeNode fuel

def execAll (ops : List (ListOp ν)) : Prog (Links ν) Unit := Prog.each (ListOp.exec memory fuel) ops

/-- what an operation means for the lists, and when it may be used -/
inductive ListOp.Does : ListOp ν → Rings ν → Rings ν → Prop
  | init {r : Rings ν} (a : ν) (ha : ¬ r.Occurs a) : Does (.init a) r (r.init a ha)
  | addTail {r : Rings ν} (head newEntry : ν) (l : List ν) (hl : r.ring head = some l)
      (hnew : r.ring newEntry = some []) (hne : newEntry ≠ head) :
    Does (.addTail newEntry head) r (r.append head newEntry l hl hnew hne)
  | remove {r : Rings ν} (head entry : ν) (l : List ν) (hl : r.ring head = some l) (he : entry ∈ l) :
    Does (.remove entry) r (r.restrict head l (l.erase entry) hl List.erase_sublist)
  | free {r : Rings ν} (a : ν) (ha : r.ring a = some []) : Does (.free a) r (r.free a ha)
  | clear {r : Rings ν} (head : ν) (l : List ν) (hl : r.ring head = some l) :
    Does (.clear head) r (r.restrict head l [] hl (List.nil_sublist l))

inductive DoesAll : List (ListOp ν) → Rings ν → Rings ν → Prop
  | nil (r : Rings ν) : DoesAll [] r r
  | cons {op : ListOp ν} {ops : List (ListOp ν)} {r r' r'' : Rings ν} (h : op.Does r r') (h' : DoesAll ops r' r'') :
    DoesAll (op :: ops) r r''

variable {memory fuel}

theorem freeNode_spec {a : ν} (ha : (s a).isSome = true) : Ends (freeNode a) s fun _ t => t = Function.update s a none :=
  Ends.then_some (require_of_true ha) (Ends.update rfl)

theorem removeNode_spec (h : Represents s r) {head e : ν} {l : List ν} (hl : r.ring head = some l) (he : e ∈ l) :
    Ends (removeNode e) s fun _ t => Represents t (r.restrict head l (l.erase e) hl List.erase_sublist) := by
  have hlinked := h.linked head l hl
  obtain ⟨p, n, hp, hn, hpmem, hnmem, hpe, hne⟩ := hlinked.neighbours he
  unfold removeNode
  refine Ends.bind (listDel_spec hp hn (hlinked.live hpmem) (hlinked.live hnmem)) fun _ t ht => ?_
  subst ht
  refine (freeNode_spec ?_).mono fun _ t ht => ?_
  · rw [Links.isSome_setNext, Links.isSome_setPrev]
    exact hlinked.live (List.mem_cons_of_mem _ he)
  · subst ht
    exact h.remove hl he hp hn

theorem Onward.of_linked {head : ν} {l : List ν} (h : Linked s head l) : Onward Links.next head s l where
  chain := (h.chain.tail).imp fun a b hab => hab.1
  live := by
    rw [Links.next, Option.isSome_map]
    exact h.live List.mem_cons_self
  notMem := (List.nodup_cons.mp h.nodup).1

theorem each_removeNode {head : ν} {l : List ν} (h : Represents s r) (hl : r.ring head = some l) :
    Ends (Prog.each removeNode l) s fun _ t => Represents t (r.restrict head l [] hl (List.nil_sublist l)) := by
  induction l generalizing s r with
  | nil =>
    refine Ends.pure ?_
    have hsame : r.restrict head [] [] hl (List.nil_sublist []) = r := by
      refine Rings.ext ?_
      show Function.update r.ring head (some []) = r.ring
      rw [← hl, Function.update_eq_self]
    rwa [hsame]
  | cons e l ih =>
    refine Ends.bind (removeNode_spec h hl List.mem_cons_self) fun _ t ht => ?_
    have hl' : (r.restrict head (e :: l) ((e :: l).erase e) hl List.erase_sublist).ring head = some l := by
      show Function.update r.ring head (some ((e :: l).erase e)) head = some l
      rw [Function.update_self, List.erase_cons_head]
    have hsame : (r.restrict head (e :: l) ((e :: l).erase e) hl List.erase_sublist).restrict head l [] hl'
        (List.nil_sublist l) = r.restrict head (e :: l) [] hl (List.nil_sublist _) := by
      refine Rings.ext ?_
      show Function.update (Function.update r.ring head _) head (some []) = Function.update r.ring head (some [])
      rw [Function.update_idem]
    rw [← hsame]
    exact ih ht hl'

/-- A list is cleared by a loop that unlinks and frees the node it is at. -/
theorem clear_spec {head : ν} {l : List ν} (h : Represents s r) (hl : r.ring head = some l) (hfuel : l.length < fuel) :
    Ends (listForEachSafe Links.next head removeNode fuel) s fun _ t =>
      Represents t (r.restrict head l [] hl (List.nil_sublist l)) := by
  have heq : listForEachSafe Links.next head removeNode fuel s = Prog.each removeNode l s := by
    refine listForEachSafe_eq (I := fun s l => Linked s head l) (fun s l hI => Onward.of_linked hI)
      (fun s t x l hI hrun => ?_) (h.linked head l hl) (h.linked head l hl).next_head hfuel
    obtain ⟨p, n, hp, hn, hpmem, hnmem, -, -⟩ := hI.neighbours List.mem_cons_self
    obtain ⟨⟨⟩, u, hu, rfl⟩ := listDel_spec hp hn (hI.live hpmem) (hI.live hnmem)
    obtain ⟨_, t', ht, rfl⟩ := freeNode_spec (s := Links.setNext p n (Links.setPrev n p s)) (a := x) (by
      rw [Links.isSome_setNext, Links.isSome_setPrev]
      exact hI.live (List.mem_cons_of_mem _ List.mem_cons_self))
    have hstep : removeNode x s = some ((), Function.update _ x none) := (bind_of_some hu).trans ht
    obtain rfl := (Prod.mk.inj (Option.some.inj (hstep.symm.trans hrun))).2
    have herase := hI.erase List.mem_cons_self hp hn
    rw [List.erase_cons_head] at herase
    refine herase.congr fun b hb => Function.update_of_ne ?_ _ _
    rintro rfl
    have hnodup := hI.nodup
    rw [List.nodup_cons, List.nodup_cons] at hnodup
    rcases List.mem_cons.mp hb with rfl | hb
    · exact hnodup.1 List.mem_cons_self
    · exact hnodup.2.1 hb
  obtain ⟨u, t, ht, hQ⟩ := each_removeNode h hl
  exact ⟨u, t, heq.trans ht, hQ⟩

theorem exec_spec (h : Represents s r) {r' : Rings ν} {op : ListOp ν} (hop : op.Does r r')
    (hfuel : ∀ head l, r.ring head = some l → l.length < fuel) :
    Ends (op.exec memory fuel) s fun _ t => Represents t r' := by
  cases hop with
  | init a ha =>
    have hnone : s a = none := by
      rw [← Option.not_isSome_iff_eq_none, h.live]
      exact ha
    refine Ends.bind (Ends.then_some (require_of_true (by rw [hnone]; rfl))
      (Ends.update (Q := fun _ t => t = Function.update s a (some (memory a))) rfl)) fun _ t ht => ?_
    subst ht
    refine (initListHead_spec (by rw [Function.update_self]; rfl)).mono fun _ t ht => ?_
    rw [Function.update_idem] at ht
    exact ht ▸ h.init ha
  | addTail head new l hl hnew hne =>
    have hlinked := h.linked head l hl
    obtain ⟨front, z, hfront⟩ := exists_last head l
    have hz := hlinked.prev_head hfront
    have hzmem : z ∈ head :: l := by
      rw [hfront]
      exact List.mem_append_right _ List.mem_cons_self
    refine Ends.then_deref hz ((listAdd_spec ?_ (hlinked.live hzmem) (hlinked.live List.mem_cons_self)).mono
      fun _ t ht => ht ▸ h.append hl hnew hne hz)
    exact (h.linked new [] hnew).live List.mem_cons_self
  | remove head e l hl he => exact removeNode_spec h hl he
  | free a ha =>
    exact (freeNode_spec ((h.linked a [] ha).live List.mem_cons_self)).mono fun _ t ht => ht ▸ h.free ha
  | clear head l hl => exact clear_spec h hl (hfuel head l hl)

/-- The lists do not grow by more than one entry. -/
theorem ListOp.Does.length_le {op : ListOp ν} {r r' : Rings ν} (h : op.Does r r') {n : Nat}
    (hn : ∀ head l, r.ring head = some l → l.length ≤ n) (head : ν) (l : List ν) (hl : r'.ring head = some l) :
    l.length ≤ n + 1 := by
  cases h with
  | init a ha =>
    rcases update_some hl with ⟨-, e⟩ | ⟨-, hl⟩
    · exact Option.some.inj e ▸ Nat.zero_le _
    · exact Nat.le_succ_of_le (hn head l hl)
  | addTail head' new m hm hnew hne =>
    rcases update_some hl with ⟨-, e⟩ | ⟨-, hl⟩
    · rw [← Option.some.inj e, List.length_append, List.length_singleton]
      exact Nat.succ_le_succ (hn head' m hm)
    · rcases update_some hl with ⟨-, e⟩ | ⟨-, hl⟩
      · cases e
      · exact Nat.le_succ_of_le (hn head l hl)
  | remove head' e m hm he =>
    rcases update_some hl with ⟨-, e'⟩ | ⟨-, hl⟩
    · rw [← Option.some.inj e']
      exact Nat.le_succ_of_le (Nat.le_trans List.erase_sublist.length_le (hn head' m hm))
    · exact Nat.le_succ_of_le (hn head l hl)
  | free a ha =>
    rcases update_some hl with ⟨-, e⟩ | ⟨-, hl⟩
    · cases e
    · exact Nat.le_succ_of_le (hn head l hl)
  | clear head' m hm =>
    rcases update_some hl with ⟨-, e⟩ | ⟨-, hl⟩
    · exact Option.some.inj e ▸ Nat.zero_le _
    · exact Nat.le_succ_of_le (hn head l hl)

theorem execAll_spec {ops : List (ListOp ν)} {r r' : Rings ν} (h : Represents s r) (hops : DoesAll ops r r') {n : Nat}
    (hn : ∀ head l, r.ring head = some l → l.length ≤ n) (hfuel : n + ops.length < fuel) :
    Ends (execAll memory fuel ops) s fun _ t => Represents t r' := by
  induction hops generalizing s n with
  | nil r => exact Ends.pure h
  | cons hop hops ih =>
    rw [List.length_cons] at hfuel
    refine Ends.bind (exec_spec h hop fun head l hl => ?_) fun _ t ht => ?_
    · have := hn head l hl
      omega
    · exact ih ht (hop.length_le hn) (by omega)

end

end Cjet
