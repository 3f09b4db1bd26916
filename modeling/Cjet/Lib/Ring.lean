import Mathlib.Data.List.Chain
import Mathlib.Data.List.Nodup
import Mathlib.Logic.Function.Basic

/-!
# Rings of linked nodes

A node that is allocated points to the next and to the previous node.  A ring begins and ends at its head; the nodes in
between are its entries.

* `Linked s head l`      the ring of `head` runs through the entries `l`, in both directions;
* `Linked.append`, `Linked.erase`   a node is linked in front of the head, an entry is unlinked;
* `Rings`                a family of rings without common nodes;
* `Represents s r`       the memory holds the rings, and nothing else is allocated.
-/

set_option linter.unusedVariables false
set_option linter.unusedSectionVars false

namespace Stateful

structure ListLink (ν : Type) where
  next : ν
  prev : ν

/-- the nodes that are allocated, with their pointers -/
abbrev Links (ν : Type) := ν → Option (ListLink ν)

namespace Links
variable {ν : Type} [DecidableEq ν]

def next (s : Links ν) (a : ν) : Option ν := (s a).map ListLink.next
def prev (s : Links ν) (a : ν) : Option ν := (s a).map ListLink.prev

def setNext (a b : ν) (s : Links ν) : Links ν := Function.update s a ((s a).map fun x => { x with next := b })
def setPrev (a b : ν) (s : Links ν) : Links ν := Function.update s a ((s a).map fun x => { x with prev := b })

/-- `b` stands behind `a` -/
def Adj (s : Links ν) (a b : ν) : Prop := s.next a = some b ∧ s.prev b = some a

variable {s t : Links ν} {a b c : ν}

theorem next_setNext_self (h : (s a).isSome = true) : (setNext a b s).next a = some b := by
  obtain ⟨x, hx⟩ := Option.isSome_iff_exists.mp h
  unfold next setNext
  rw [Function.update_self, hx]
  rfl

theorem next_setNext (h : c ≠ a) : (setNext a b s).next c = s.next c := by
  unfold next setNext
  rw [Function.update_of_ne h]

theorem prev_setPrev_self (h : (s a).isSome = true) : (setPrev a b s).prev a = some b := by
  obtain ⟨x, hx⟩ := Option.isSome_iff_exists.mp h
  unfold prev setPrev
  rw [Function.update_self, hx]
  rfl

theorem prev_setPrev (h : c ≠ a) : (setPrev a b s).prev c = s.prev c := by
  unfold prev setPrev
  rw [Function.update_of_ne h]

theorem prev_setNext : (setNext a b s).prev c = s.prev c := by
  unfold prev setNext
  by_cases h : c = a
  · subst h
    rw [Function.update_self, Option.map_map]
    rfl
  · rw [Function.update_of_ne h]

theorem next_setPrev : (setPrev a b s).next c = s.next c := by
  unfold next setPrev
  by_cases h : c = a
  · subst h
    rw [Function.update_self, Option.map_map]
    rfl
  · rw [Function.update_of_ne h]

theorem isSome_setNext : (setNext a b s c).isSome = (s c).isSome := by
  unfold setNext
  by_cases h : c = a
  · subst h
    rw [Function.update_self, Option.isSome_map]
  · rw [Function.update_of_ne h]

theorem isSome_setPrev : (setPrev a b s c).isSome = (s c).isSome := by
  unfold setPrev
  by_cases h : c = a
  · subst h
    rw [Function.update_self, Option.isSome_map]
  · rw [Function.update_of_ne h]

theorem Adj.live_left (h : s.Adj a b) : (s a).isSome = true := by
  have h := congrArg Option.isSome h.1
  rwa [next, Option.isSome_map] at h

theorem Adj.live_right (h : s.Adj a b) : (s b).isSome = true := by
  have h := congrArg Option.isSome h.2
  rwa [prev, Option.isSome_map] at h

/-- A chain stays where no pointer of it changes; the first node may point elsewhere backwards, the last one forwards. -/
theorem chain_congr {l : List ν} (h : l.IsChain s.Adj) (hnext : ∀ a ∈ l.dropLast, t.next a = s.next a)
    (hprev : ∀ b ∈ l.tail, t.prev b = s.prev b) : l.IsChain t.Adj := by
  rw [List.isChain_iff_forall_rel_of_append_cons_cons] at h ⊢
  rintro a b l₁ l₂ rfl
  obtain ⟨h₁, h₂⟩ := h rfl
  have ha : a ∈ (l₁ ++ a :: b :: l₂).dropLast := by
    rw [List.dropLast_append_of_ne_nil (List.cons_ne_nil _ _), List.dropLast_cons_of_ne_nil (List.cons_ne_nil _ _)]
    exact List.mem_append_right _ List.mem_cons_self
  have hb : b ∈ (l₁ ++ a :: b :: l₂).tail := by
    cases l₁ with
    | nil => exact List.mem_cons_self
    | cons c l₁ => exact List.mem_append_right _ (List.mem_cons_of_mem _ List.mem_cons_self)
  exact ⟨(hnext a ha).trans h₁, (hprev b hb).trans h₂⟩

end Links

section
variable {ν : Type} [DecidableEq ν] {s t : Links ν} {head e : ν} {l : List ν}
open Links

structure Linked (s : Links ν) (head : ν) (l : List ν) : Prop where
  nodup : (head :: l).Nodup
  chain : (head :: (l ++ [head])).IsChain s.Adj

theorem Linked.congr (h : Linked s head l) (hst : ∀ a ∈ head :: l, t a = s a) : Linked t head l where
  nodup := h.nodup
  chain := by
    have hmem : ∀ a ∈ head :: (l ++ [head]), t a = s a := by
      intro a ha
      refine hst a ?_
      rw [List.mem_cons, List.mem_append, List.mem_singleton] at ha
      rw [List.mem_cons]
      tauto
    refine chain_congr h.chain (fun a ha => ?_) fun b hb => ?_
    · unfold next
      rw [hmem a (List.dropLast_subset _ ha)]
    · unfold prev
      rw [hmem b (List.mem_of_mem_tail hb)]

/-- a ring without entries -/
theorem linked_nil (h : s head = some ⟨head, head⟩) : Linked s head [] where
  nodup := List.nodup_singleton head
  chain := by
    rw [List.nil_append, List.isChain_pair]
    exact ⟨by rw [next, h]; rfl, by rw [prev, h]; rfl⟩

theorem Linked.live (h : Linked s head l) {a : ν} (ha : a ∈ head :: l) : (s a).isSome = true := by
  have hchain := h.chain
  obtain ⟨l₁, l₂, e⟩ := List.append_of_mem ha
  have hall : head :: (l ++ [head]) = l₁ ++ a :: (l₂ ++ [head]) := by
    rw [← List.cons_append, e, List.append_assoc]
    rfl
  rw [hall, List.isChain_split] at hchain
  cases l₂ with
  | nil => exact ((List.isChain_cons_cons.mp hchain.2).1).live_left
  | cons b l₂ => exact ((List.isChain_cons_cons.mp hchain.2).1).live_left

theorem Linked.next_head (h : Linked s head l) : s.next head = some (l.headD head) := by
  have hchain := h.chain
  cases l with
  | nil => exact (List.isChain_cons_cons.mp hchain).1.1
  | cons a l => exact (List.isChain_cons_cons.mp hchain).1.1

/-- the last node in front of the head -/
theorem exists_last (head : ν) (l : List ν) : ∃ front z, head :: l = front ++ [z] :=
  ⟨_, _, (List.dropLast_append_getLast (List.cons_ne_nil head l)).symm⟩

theorem Linked.prev_head (h : Linked s head l) {front : List ν} {z : ν} (hl : head :: l = front ++ [z]) :
    s.prev head = some z := by
  have hchain := h.chain
  rw [← List.cons_append, hl, List.append_assoc, List.singleton_append, List.isChain_append_cons_cons] at hchain
  exact hchain.2.1.2

/-- A node that belongs to no ring is linked in front of the head. -/
theorem Linked.append (h : Linked s head l) {new z : ν} (hlive : (s new).isSome = true) (hnew : new ∉ head :: l)
    (hz : s.prev head = some z) :
    Linked (setNext z new (setPrev new z (setNext new head (setPrev head new s)))) head (l ++ [new]) := by
  obtain ⟨front, z', hl⟩ := exists_last head l
  obtain rfl : z' = z := Option.some.inj ((h.prev_head hl).symm.trans hz)
  have hzmem : z' ∈ head :: l := by
    rw [hl]
    exact List.mem_append_right _ List.mem_cons_self
  have hne : new ≠ z' := fun e => hnew (e ▸ hzmem)
  have hne' : new ≠ head := fun e => hnew (e ▸ List.mem_cons_self)
  have hnodup := h.nodup
  have hchain := h.chain
  refine ⟨?_, ?_⟩
  · rw [← List.cons_append]
    exact h.nodup.append (List.nodup_singleton new) (by simpa using ⟨hne', fun hm => hnew (List.mem_cons_of_mem _ hm)⟩)
  · rw [← List.cons_append, hl, List.append_assoc, List.singleton_append, List.isChain_append_cons_cons] at hchain
    have hall : head :: (l ++ [new] ++ [head]) = front ++ z' :: new :: [head] := by
      rw [List.append_assoc, ← List.cons_append, hl, List.append_assoc]
      rfl
    rw [hall, List.isChain_append_cons_cons, List.isChain_pair]
    refine ⟨chain_congr hchain.1 (fun a ha => ?_) fun b hb => ?_, ⟨?_, ?_⟩, ?_, ?_⟩
    · rw [List.dropLast_concat] at ha
      have haz : a ≠ z' := by
        rintro rfl
        rw [hl, List.nodup_append] at hnodup
        exact hnodup.2.2 a ha a List.mem_cons_self rfl
      have han : a ≠ new := by
        rintro rfl
        exact hnew (hl ▸ List.mem_append_left _ ha)
      rw [next_setNext haz, next_setPrev, next_setNext han, next_setPrev]
    · rw [← hl, List.tail_cons] at hb
      have hbh : b ≠ head := by
        rintro rfl
        exact (List.nodup_cons.mp hnodup).1 hb
      have hbn : b ≠ new := by
        rintro rfl
        exact hnew (List.mem_cons_of_mem _ hb)
      rw [prev_setNext, prev_setPrev hbn, prev_setNext, prev_setPrev hbh]
    · refine next_setNext_self ?_
      rw [isSome_setPrev, isSome_setNext, isSome_setPrev]
      exact h.live hzmem
    · rw [prev_setNext]
      refine prev_setPrev_self ?_
      rw [isSome_setNext, isSome_setPrev]
      exact hlive
    · rw [next_setNext hne, next_setPrev]
      refine next_setNext_self ?_
      rw [isSome_setPrev]
      exact hlive
    · rw [prev_setNext, prev_setPrev hne'.symm, prev_setNext]
      exact prev_setPrev_self (h.live List.mem_cons_self)

/-- the neighbours of an entry -/
theorem Linked.neighbours (h : Linked s head l) (he : e ∈ l) :
    ∃ p n, s.prev e = some p ∧ s.next e = some n ∧ p ∈ head :: l ∧ n ∈ head :: l ∧ p ≠ e ∧ n ≠ e := by
  obtain ⟨l₁, l₂, rfl⟩ := List.append_of_mem he
  obtain ⟨front, z, hfront⟩ := exists_last head l₁
  have hchain := h.chain
  have hnodup := h.nodup
  rw [← List.cons_append, hfront, List.append_assoc, List.singleton_append] at hnodup
  rw [List.append_assoc, ← List.cons_append, hfront, List.append_assoc, List.singleton_append, List.cons_append,
    List.isChain_append_cons_cons] at hchain
  obtain ⟨-, hze, hrest⟩ := hchain
  have hzmem : z ∈ head :: (l₁ ++ e :: l₂) := by
    rw [← List.cons_append, hfront]
    exact List.mem_append_left _ (List.mem_append_right _ List.mem_cons_self)
  have hzne : z ≠ e := by
    rintro rfl
    have := (List.nodup_append.mp hnodup).2.1
    exact (List.nodup_cons.mp this).1 List.mem_cons_self
  have hehead : e ≠ head := by
    rintro rfl
    exact (List.nodup_cons.mp h.nodup).1 he
  cases l₂ with
  | nil =>
    refine ⟨z, head, hze.2, (List.isChain_cons_cons.mp hrest).1.1, hzmem, List.mem_cons_self, hzne, hehead.symm⟩
  | cons y l₂ =>
    refine ⟨z, y, hze.2, (List.isChain_cons_cons.mp hrest).1.1, hzmem, ?_, hzne, ?_⟩
    · exact List.mem_cons_of_mem _ (List.mem_append_right _ (List.mem_cons_of_mem _ List.mem_cons_self))
    · rintro rfl
      have := (List.nodup_append.mp (List.nodup_cons.mp h.nodup).2).2.1
      exact (List.nodup_cons.mp this).1 List.mem_cons_self

/-- An entry is unlinked. -/
theorem Linked.erase (h : Linked s head l) (he : e ∈ l) {p n : ν} (hp : s.prev e = some p) (hn : s.next e = some n) :
    Linked (setNext p n (setPrev n p s)) head (l.erase e) := by
  obtain ⟨l₁, l₂, rfl⟩ := List.append_of_mem he
  have hnodup := h.nodup
  have hl₁ : e ∉ l₁ := by
    have := List.nodup_append.mp (List.nodup_cons.mp hnodup).2
    exact fun hm => this.2.2 e hm e List.mem_cons_self rfl
  rw [List.erase_append_right _ hl₁, List.erase_cons_head]
  obtain ⟨front, z, hfront⟩ := exists_last head l₁
  obtain ⟨y, back, hback⟩ : ∃ y back, l₂ ++ [head] = y :: back := by
    cases l₂ with
    | nil => exact ⟨head, [], rfl⟩
    | cons y l₂ => exact ⟨y, l₂ ++ [head], rfl⟩
  have hchain := h.chain
  rw [List.append_assoc, ← List.cons_append, hfront, List.append_assoc, List.singleton_append, List.cons_append, hback,
    List.isChain_append_cons_cons, List.isChain_cons_cons] at hchain
  obtain ⟨hleft, hze, hey, hright⟩ := hchain
  obtain rfl : z = p := Option.some.inj (hze.2.symm.trans hp)
  obtain rfl : y = n := Option.some.inj (hey.1.symm.trans hn)
  -- the nodes in front of the entry and those behind it
  have hsides : (head :: l₁).Nodup ∧ (l₂ ++ [head]).Nodup ∧ (∀ a ∈ head :: l₁, a ∉ l₂) ∧ ∀ b ∈ l₁, b ∉ l₂ ++ [head] := by
    rw [List.nodup_cons, List.nodup_append, List.nodup_cons, List.mem_append, List.mem_cons] at hnodup
    obtain ⟨hhead, hn₁, ⟨-, hn₂⟩, hdisj⟩ := hnodup
    refine ⟨List.nodup_cons.mpr ⟨fun hm => hhead (Or.inl hm), hn₁⟩,
      hn₂.append (List.nodup_singleton head) (by simpa using fun hm => hhead (Or.inr (Or.inr hm))), ?_, ?_⟩
    · intro a ha hm
      rcases List.mem_cons.mp ha with rfl | ha
      · exact hhead (Or.inr (Or.inr hm))
      · exact hdisj a ha a (List.mem_cons_of_mem _ hm) rfl
    · intro b hb hm
      rcases List.mem_append.mp hm with hm | hm
      · exact hdisj b hb b (List.mem_cons_of_mem _ hm) rfl
      · rw [List.mem_singleton.mp hm] at hb
        exact hhead (Or.inl hb)
  obtain ⟨hnodup₁, hnodup₂, hapart, hapart'⟩ := hsides
  have hzmem : z ∈ head :: l₁ := by
    rw [hfront]
    exact List.mem_append_right _ List.mem_cons_self
  refine ⟨?_, ?_⟩
  · rw [← List.cons_append]
    refine hnodup₁.append (hnodup₂.sublist (List.sublist_append_left _ _)) fun a ha hm => hapart a ha hm
  · rw [List.append_assoc, ← List.cons_append, hfront, hback, List.append_assoc, List.singleton_append,
      List.isChain_append_cons_cons]
    refine ⟨chain_congr hleft (fun a ha => ?_) fun b hb => ?_, ⟨?_, ?_⟩,
      chain_congr hright (fun a ha => ?_) fun b hb => ?_⟩
    · rw [List.dropLast_concat] at ha
      have haz : a ≠ z := by
        rintro rfl
        rw [hfront, List.nodup_append] at hnodup₁
        exact hnodup₁.2.2 a ha a List.mem_cons_self rfl
      rw [next_setNext haz, next_setPrev]
    · rw [← hfront, List.tail_cons] at hb
      have hby : b ≠ y := by
        rintro rfl
        refine hapart' b hb ?_
        rw [hback]
        exact List.mem_cons_self
      rw [prev_setNext, prev_setPrev hby]
    · refine next_setNext_self ?_
      rw [isSome_setPrev]
      exact hze.live_left
    · rw [prev_setNext]
      exact prev_setPrev_self hey.live_right
    · rw [← hback, List.dropLast_concat] at ha
      have haz : a ≠ z := by
        rintro rfl
        exact hapart a hzmem ha
      rw [next_setNext haz, next_setPrev]
    · rw [List.tail_cons] at hb
      have hby : b ≠ y := by
        rintro rfl
        rw [hback] at hnodup₂
        exact (List.nodup_cons.mp hnodup₂).1 hb
      rw [prev_setNext, prev_setPrev hby]

end

/-! ## families of rings -/

theorem update_some {ν α : Type} [DecidableEq ν] {f : ν → Option α} {a k : ν} {x : Option α} {y : α}
    (h : Function.update f a x k = some y) : k = a ∧ x = some y ∨ k ≠ a ∧ f k = some y := by
  by_cases e : k = a
  · rw [e, Function.update_self] at h
    exact Or.inl ⟨e, h⟩
  · rw [Function.update_of_ne e] at h
    exact Or.inr ⟨e, h⟩

/-- the rings, by their heads; a node belongs to one ring at most -/
@[ext]
structure Rings (ν : Type) where
  ring : ν → Option (List ν)
  nodup : ∀ h l, ring h = some l → l.Nodup
  entry : ∀ h l e, ring h = some l → e ∈ l → ring e = none
  apart : ∀ h h' l l' e, ring h = some l → ring h' = some l' → e ∈ l → e ∈ l' → h = h'

namespace Rings
variable {ν : Type} [DecidableEq ν] (r : Rings ν)

/-- `a` is a head or an entry -/
def Occurs (a : ν) : Prop := (r.ring a).isSome = true ∨ ∃ h l, r.ring h = some l ∧ a ∈ l

theorem entry_ne {h h' e : ν} {l l' : List ν} (hl : r.ring h = some l) (he : e ∈ l) (hl' : r.ring h' = some l') :
    e ≠ h' := by
  rintro rfl
  rw [r.entry h l e hl he] at hl'
  cases hl'

def empty : Rings ν where
  ring _ := none
  nodup _ _ h := by cases h
  entry _ _ _ h := by cases h
  apart _ _ _ _ _ h := by cases h

/-- a node that occurs nowhere begins a ring of its own -/
def init (a : ν) (ha : ¬ r.Occurs a) : Rings ν where
  ring := Function.update r.ring a (some [])
  nodup h l hl := by
    rcases update_some hl with ⟨-, e⟩ | ⟨-, hl⟩
    · exact Option.some.inj e ▸ List.nodup_nil
    · exact r.nodup h l hl
  entry h l b hl hb := by
    rcases update_some hl with ⟨-, e⟩ | ⟨-, hold⟩
    · exact absurd (Option.some.inj e ▸ hb) List.not_mem_nil
    · have hba : b ≠ a := by
        rintro rfl
        exact ha (Or.inr ⟨h, l, hold, hb⟩)
      rw [Function.update_of_ne hba]
      exact r.entry h l b hold hb
  apart h h' l l' b hl hl' hb hb' := by
    rcases update_some hl with ⟨-, e⟩ | ⟨-, hl⟩
    · exact absurd (Option.some.inj e ▸ hb) List.not_mem_nil
    · rcases update_some hl' with ⟨-, e⟩ | ⟨-, hl'⟩
      · exact absurd (Option.some.inj e ▸ hb') List.not_mem_nil
      · exact r.apart h h' l l' b hl hl' hb hb'

/-- a ring without entries is gone -/
def free (a : ν) (ha : r.ring a = some []) : Rings ν where
  ring := Function.update r.ring a none
  nodup h l hl := by
    rcases update_some hl with ⟨-, e⟩ | ⟨-, hl⟩
    · cases e
    · exact r.nodup h l hl
  entry h l b hl hb := by
    rcases update_some hl with ⟨-, e⟩ | ⟨-, hl⟩
    · cases e
    · rw [Function.update_of_ne (r.entry_ne hl hb ha)]
      exact r.entry h l b hl hb
  apart h h' l l' b hl hl' hb hb' := by
    rcases update_some hl with ⟨-, e⟩ | ⟨-, hl⟩
    · cases e
    · rcases update_some hl' with ⟨-, e⟩ | ⟨-, hl'⟩
      · cases e
      · exact r.apart h h' l l' b hl hl' hb hb'

/-- `head` keeps some of its entries -/
def restrict (head : ν) (l l' : List ν) (hl : r.ring head = some l) (hsub : l'.Sublist l) : Rings ν where
  ring := Function.update r.ring head (some l')
  nodup h m hm := by
    rcases update_some hm with ⟨-, e⟩ | ⟨-, hm⟩
    · exact Option.some.inj e ▸ (r.nodup head l hl).sublist hsub
    · exact r.nodup h m hm
  entry h m b hm hb := by
    have hold : ∃ k n, r.ring k = some n ∧ b ∈ n := by
      rcases update_some hm with ⟨-, e⟩ | ⟨-, hm⟩
      · exact ⟨head, l, hl, hsub.subset (Option.some.inj e ▸ hb)⟩
      · exact ⟨h, m, hm, hb⟩
    obtain ⟨k, n, hn, hbn⟩ := hold
    rw [Function.update_of_ne (r.entry_ne hn hbn hl)]
    exact r.entry k n b hn hbn
  apart h h' m m' b hm hm' hb hb' := by
    have hold : ∀ k n, Function.update r.ring head (some l') k = some n → b ∈ n → ∃ n', r.ring k = some n' ∧ b ∈ n' := by
      intro k n hn hbn
      rcases update_some hn with ⟨e, e'⟩ | ⟨-, hn⟩
      · exact ⟨l, e ▸ hl, hsub.subset (Option.some.inj e' ▸ hbn)⟩
      · exact ⟨n, hn, hbn⟩
    obtain ⟨n, hn, hbn⟩ := hold h m hm hb
    obtain ⟨n', hn', hbn'⟩ := hold h' m' hm' hb'
    exact r.apart h h' n n' b hn hn' hbn hbn'

/-- a node with a ring of its own becomes the last entry of `head` -/
def append (head new : ν) (l : List ν) (hl : r.ring head = some l) (hnew : r.ring new = some []) (hne : new ≠ head) :
    Rings ν where
  ring := Function.update (Function.update r.ring new none) head (some (l ++ [new]))
  nodup h m hm := by
    rcases update_some hm with ⟨-, e⟩ | ⟨-, hm⟩
    · obtain rfl := Option.some.inj e
      exact (r.nodup head l hl).append (List.nodup_singleton new) (by simpa using fun hm => r.entry_ne hl hm hnew rfl)
    · exact (r.free new hnew).nodup h m hm
  entry h m b hm hb := by
    have hold : b = new ∨ ∃ k n, r.ring k = some n ∧ b ∈ n := by
      rcases update_some hm with ⟨-, e⟩ | ⟨-, hm⟩
      · obtain rfl := Option.some.inj e
        rcases List.mem_append.mp hb with hb | hb
        · exact Or.inr ⟨head, l, hl, hb⟩
        · exact Or.inl (List.mem_singleton.mp hb)
      · rcases update_some hm with ⟨-, e⟩ | ⟨-, hm⟩
        · cases e
        · exact Or.inr ⟨h, m, hm, hb⟩
    rcases hold with rfl | ⟨k, n, hn, hbn⟩
    · rw [Function.update_of_ne hne, Function.update_self]
    · rw [Function.update_of_ne (r.entry_ne hn hbn hl), Function.update_of_ne (r.entry_ne hn hbn hnew)]
      exact r.entry k n b hn hbn
  apart h h' m m' b hm hm' hb hb' := by
    have hold : ∀ k n, Function.update (Function.update r.ring new none) head (some (l ++ [new])) k = some n → b ∈ n →
        k = head ∧ b = new ∨ ∃ n', r.ring k = some n' ∧ b ∈ n' := by
      intro k n hn hbn
      rcases update_some hn with ⟨rfl, e⟩ | ⟨-, hn⟩
      · obtain rfl := Option.some.inj e
        rcases List.mem_append.mp hbn with hbn | hbn
        · exact Or.inr ⟨l, hl, hbn⟩
        · exact Or.inl ⟨rfl, List.mem_singleton.mp hbn⟩
      · rcases update_some hn with ⟨-, e⟩ | ⟨-, hn⟩
        · cases e
        · exact Or.inr ⟨n, hn, hbn⟩
    rcases hold h m hm hb with ⟨rfl, rfl⟩ | ⟨n, hn, hbn⟩
    · rcases hold h' m' hm' hb' with ⟨rfl, -⟩ | ⟨n', hn', hbn'⟩
      · rfl
      · exact absurd rfl (r.entry_ne hn' hbn' hnew)
    · rcases hold h' m' hm' hb' with ⟨rfl, rfl⟩ | ⟨n', hn', hbn'⟩
      · exact absurd rfl (r.entry_ne hn hbn hnew)
      · exact r.apart h h' n n' b hn hn' hbn hbn'

variable {r}

@[simp] theorem ring_init {a : ν} (ha : ¬ r.Occurs a) : (r.init a ha).ring = Function.update r.ring a (some []) := rfl

@[simp] theorem ring_free {a : ν} (ha : r.ring a = some []) : (r.free a ha).ring = Function.update r.ring a none := rfl

@[simp] theorem ring_restrict {head : ν} {l l' : List ν} (hl : r.ring head = some l) (hsub : l'.Sublist l) :
    (r.restrict head l l' hl hsub).ring = Function.update r.ring head (some l') := rfl

@[simp] theorem ring_append {head new : ν} {l : List ν} (hl : r.ring head = some l) (hnew : r.ring new = some [])
    (hne : new ≠ head) : (r.append head new l hl hnew hne).ring
      = Function.update (Function.update r.ring new none) head (some (l ++ [new])) := rfl

theorem occurs_head {h : ν} {l : List ν} (hl : r.ring h = some l) : r.Occurs h := Or.inl (by rw [hl]; rfl)

theorem occurs_init {a b : ν} (ha : ¬ r.Occurs a) : (r.init a ha).Occurs b ↔ b = a ∨ r.Occurs b := by
  constructor
  · rintro (h | ⟨h, l, hl, hb⟩)
    · obtain ⟨l, hl⟩ := Option.isSome_iff_exists.mp h
      exact (update_some hl).imp And.left fun hl => occurs_head hl.2
    · rcases update_some hl with ⟨-, e⟩ | ⟨-, hl⟩
      · exact absurd (Option.some.inj e ▸ hb) List.not_mem_nil
      · exact Or.inr (Or.inr ⟨h, l, hl, hb⟩)
  · have hkeep : ∀ k l, r.ring k = some l → (r.init a ha).ring k = some l := by
      intro k l hl
      have hka : k ≠ a := by
        rintro rfl
        exact ha (occurs_head hl)
      exact (Function.update_of_ne hka _ _).trans hl
    rintro (rfl | h | ⟨h, l, hl, hb⟩)
    · exact occurs_head (Function.update_self _ _ _)
    · obtain ⟨l, hl⟩ := Option.isSome_iff_exists.mp h
      exact occurs_head (hkeep b l hl)
    · exact Or.inr ⟨h, l, hkeep h l hl, hb⟩

theorem occurs_free {a b : ν} (ha : r.ring a = some []) : (r.free a ha).Occurs b ↔ b ≠ a ∧ r.Occurs b := by
  constructor
  · rintro (h | ⟨h, l, hl, hb⟩)
    · obtain ⟨l, hl⟩ := Option.isSome_iff_exists.mp h
      rcases update_some hl with ⟨-, e⟩ | ⟨e, hl⟩
      · cases e
      · exact ⟨e, occurs_head hl⟩
    · rcases update_some hl with ⟨-, e⟩ | ⟨-, hl⟩
      · cases e
      · exact ⟨r.entry_ne hl hb ha, Or.inr ⟨h, l, hl, hb⟩⟩
  · rintro ⟨hne, h | ⟨h, l, hl, hb⟩⟩
    · obtain ⟨l, hl⟩ := Option.isSome_iff_exists.mp h
      exact occurs_head ((Function.update_of_ne hne _ _).trans hl)
    · refine Or.inr ⟨h, l, (Function.update_of_ne ?_ _ _).trans hl, hb⟩
      rintro rfl
      rw [ha] at hl
      exact absurd (Option.some.inj hl ▸ hb) List.not_mem_nil

theorem occurs_append {head new b : ν} {l : List ν} (hl : r.ring head = some l) (hnew : r.ring new = some [])
    (hne : new ≠ head) : (r.append head new l hl hnew hne).Occurs b ↔ r.Occurs b := by
  constructor
  · rintro (h | ⟨h, m, hm, hb⟩)
    · obtain ⟨m, hm⟩ := Option.isSome_iff_exists.mp h
      rcases update_some hm with ⟨rfl, -⟩ | ⟨-, hm⟩
      · exact occurs_head hl
      · rcases update_some hm with ⟨-, e⟩ | ⟨-, hm⟩
        · cases e
        · exact occurs_head hm
    · rcases update_some hm with ⟨-, e⟩ | ⟨-, hm⟩
      · obtain rfl := Option.some.inj e
        rcases List.mem_append.mp hb with hb | hb
        · exact Or.inr ⟨head, l, hl, hb⟩
        · rw [List.mem_singleton.mp hb]
          exact occurs_head hnew
      · rcases update_some hm with ⟨-, e⟩ | ⟨-, hm⟩
        · cases e
        · exact Or.inr ⟨h, m, hm, hb⟩
  · have hhead : (r.append head new l hl hnew hne).ring head = some (l ++ [new]) := Function.update_self _ _ _
    have hkeep : ∀ k m, k ≠ head → k ≠ new → r.ring k = some m → (r.append head new l hl hnew hne).ring k = some m := by
      intro k m hk hk' hm
      exact (Function.update_of_ne hk _ _).trans ((Function.update_of_ne hk' _ _).trans hm)
    rintro (h | ⟨h, m, hm, hb⟩)
    · by_cases e : b = new
      · subst e
        exact Or.inr ⟨head, _, hhead, List.mem_append_right _ List.mem_cons_self⟩
      · by_cases e' : b = head
        · subst e'
          exact occurs_head hhead
        · obtain ⟨m, hm⟩ := Option.isSome_iff_exists.mp h
          exact occurs_head (hkeep b m e' e hm)
    · by_cases e : h = head
      · subst e
        obtain rfl := Option.some.inj (hl.symm.trans hm)
        exact Or.inr ⟨h, _, hhead, List.mem_append_left _ hb⟩
      · refine Or.inr ⟨h, m, hkeep h m e ?_ hm, hb⟩
        rintro rfl
        rw [hnew] at hm
        exact absurd (Option.some.inj hm ▸ hb) List.not_mem_nil

theorem occurs_erase {head e b : ν} {l : List ν} (hl : r.ring head = some l) (he : e ∈ l) :
    (r.restrict head l (l.erase e) hl List.erase_sublist).Occurs b ↔ b ≠ e ∧ r.Occurs b := by
  have hnodup := r.nodup head l hl
  constructor
  · rintro (h | ⟨h, m, hm, hb⟩)
    · obtain ⟨m, hm⟩ := Option.isSome_iff_exists.mp h
      have hb : ∃ n, r.ring b = some n := by
        rcases update_some hm with ⟨rfl, -⟩ | ⟨-, hm⟩
        · exact ⟨l, hl⟩
        · exact ⟨m, hm⟩
      obtain ⟨n, hn⟩ := hb
      exact ⟨(r.entry_ne hl he hn).symm, occurs_head hn⟩
    · rcases update_some hm with ⟨-, e'⟩ | ⟨hne, hold⟩
      · obtain rfl := Option.some.inj e'
        obtain ⟨hbe, hb⟩ := hnodup.mem_erase_iff.mp hb
        exact ⟨hbe, Or.inr ⟨head, l, hl, hb⟩⟩
      · refine ⟨?_, Or.inr ⟨h, m, hold, hb⟩⟩
        rintro rfl
        exact hne (r.apart h head m l b hold hl hb he)
  · have hhead : (r.restrict head l (l.erase e) hl List.erase_sublist).ring head = some (l.erase e) :=
      Function.update_self _ _ _
    rintro ⟨hbe, h | ⟨h, m, hm, hb⟩⟩
    · by_cases e' : b = head
      · subst e'
        exact occurs_head hhead
      · obtain ⟨m, hm⟩ := Option.isSome_iff_exists.mp h
        exact occurs_head ((Function.update_of_ne e' _ _).trans hm)
    · by_cases e' : h = head
      · subst e'
        obtain rfl := Option.some.inj (hl.symm.trans hm)
        exact Or.inr ⟨h, _, hhead, hnodup.mem_erase_iff.mpr ⟨hbe, hb⟩⟩
      · exact Or.inr ⟨h, m, (Function.update_of_ne e' _ _).trans hm, hb⟩

end Rings

/-! ## rings in the memory -/

section
variable {ν : Type} [DecidableEq ν] {s : Links ν} {r : Rings ν}
open Links

/-- the memory holds the rings; what belongs to none of them is not allocated -/
structure Represents (s : Links ν) (r : Rings ν) : Prop where
  linked : ∀ h l, r.ring h = some l → Linked s h l
  live : ∀ a, (s a).isSome = true ↔ r.Occurs a

theorem represents_empty : Represents (fun _ => none) (Rings.empty : Rings ν) where
  linked _ _ h := by cases h
  live a := by
    refine iff_of_false Bool.false_ne_true ?_
    rintro (h | ⟨h, l, hl, -⟩)
    · cases h
    · cases hl

theorem Represents.init (h : Represents s r) {a : ν} (ha : ¬ r.Occurs a) :
    Represents (Function.update s a (some ⟨a, a⟩)) (r.init a ha) where
  linked k l hl := by
    rcases update_some hl with ⟨rfl, e⟩ | ⟨hne, hold⟩
    · exact Option.some.inj e ▸ linked_nil (Function.update_self _ _ _)
    · refine (h.linked k l hold).congr fun b hb => Function.update_of_ne ?_ _ _
      rintro rfl
      rcases List.mem_cons.mp hb with rfl | hb
      · exact hne rfl
      · exact ha (Or.inr ⟨k, l, hold, hb⟩)
  live b := by
    rw [Rings.occurs_init]
    by_cases e : b = a
    · subst e
      rw [Function.update_self]
      exact iff_of_true rfl (Or.inl rfl)
    · rw [Function.update_of_ne e, h.live]
      exact ⟨Or.inr, fun h => h.resolve_left e⟩

theorem Represents.free (h : Represents s r) {a : ν} (ha : r.ring a = some []) :
    Represents (Function.update s a none) (r.free a ha) where
  linked k l hl := by
    rcases update_some hl with ⟨-, e⟩ | ⟨hne, hold⟩
    · cases e
    · refine (h.linked k l hold).congr fun b hb => Function.update_of_ne ?_ _ _
      rintro rfl
      rcases List.mem_cons.mp hb with rfl | hb
      · exact hne rfl
      · exact r.entry_ne hold hb ha rfl
  live b := by
    rw [Rings.occurs_free]
    by_cases e : b = a
    · subst e
      rw [Function.update_self]
      exact iff_of_false Bool.false_ne_true fun h => h.1 rfl
    · rw [Function.update_of_ne e, h.live]
      exact ⟨fun h => ⟨e, h⟩, And.right⟩

theorem Represents.append (h : Represents s r) {head new z : ν} {l : List ν} (hl : r.ring head = some l)
    (hnew : r.ring new = some []) (hne : new ≠ head) (hz : s.prev head = some z) :
    Represents (setNext z new (setPrev new z (setNext new head (setPrev head new s))))
      (r.append head new l hl hnew hne) where
  linked k m hm := by
    have hlinked := h.linked head l hl
    have hmem : new ∉ head :: l := by
      intro hmem
      rcases List.mem_cons.mp hmem with e | hmem
      · exact hne e
      · exact r.entry_ne hl hmem hnew rfl
    obtain ⟨front, z', hfront⟩ := exists_last head l
    obtain rfl : z' = z := Option.some.inj ((hlinked.prev_head hfront).symm.trans hz)
    have hzmem : z' ∈ head :: l := by
      rw [hfront]
      exact List.mem_append_right _ List.mem_cons_self
    rcases update_some hm with ⟨rfl, e⟩ | ⟨hk, hm⟩
    · exact Option.some.inj e ▸ hlinked.append ((h.linked new [] hnew).live List.mem_cons_self) hmem hz
    · rcases update_some hm with ⟨-, e⟩ | ⟨hk', hm⟩
      · cases e
      · -- the nodes of another ring are none of those that are written
        have hother : ∀ b ∈ k :: m, b ≠ new ∧ b ∉ head :: l := by
          intro b hb
          rcases List.mem_cons.mp hb with rfl | hb
          · refine ⟨hk', fun hmem => ?_⟩
            rcases List.mem_cons.mp hmem with e | hmem
            · exact hk e
            · exact r.entry_ne hl hmem hm rfl
          · refine ⟨r.entry_ne hm hb hnew, fun hmem => ?_⟩
            rcases List.mem_cons.mp hmem with e | hmem
            · exact r.entry_ne hm hb hl e
            · exact hk (r.apart k head m l b hm hl hb hmem)
        refine (h.linked k m hm).congr fun b hb => ?_
        obtain ⟨hbn, hbl⟩ := hother b hb
        have hbz : b ≠ z' := fun e => hbl (e ▸ hzmem)
        have hbh : b ≠ head := fun e => hbl (e ▸ List.mem_cons_self)
        unfold setNext setPrev
        rw [Function.update_of_ne hbz, Function.update_of_ne hbn, Function.update_of_ne hbn, Function.update_of_ne hbh]
  live b := by
    rw [Rings.occurs_append, isSome_setNext, isSome_setPrev, isSome_setNext, isSome_setPrev, h.live]

/-- An entry is unlinked and freed. -/
theorem Represents.remove (h : Represents s r) {head e p n : ν} {l : List ν} (hl : r.ring head = some l) (he : e ∈ l)
    (hp : s.prev e = some p) (hn : s.next e = some n) :
    Represents (Function.update (setNext p n (setPrev n p s)) e none)
      (r.restrict head l (l.erase e) hl List.erase_sublist) where
  linked k m hm := by
    have hlinked := h.linked head l hl
    obtain ⟨p', n', hp', hn', hpmem, hnmem, -, -⟩ := hlinked.neighbours he
    obtain rfl : p' = p := Option.some.inj (hp'.symm.trans hp)
    obtain rfl : n' = n := Option.some.inj (hn'.symm.trans hn)
    rcases update_some hm with ⟨rfl, e'⟩ | ⟨hk, hm⟩
    · obtain rfl := Option.some.inj e'
      refine (hlinked.erase he hp hn).congr fun b hb => Function.update_of_ne ?_ _ _
      rintro rfl
      rcases List.mem_cons.mp hb with rfl | hb
      · exact r.entry_ne hl he hl rfl
      · exact ((r.nodup k l hl).mem_erase_iff.mp hb).1 rfl
    · have hother : ∀ b ∈ k :: m, b ∉ head :: l := by
        intro b hb hmem
        rcases List.mem_cons.mp hb with rfl | hb
        · rcases List.mem_cons.mp hmem with e | hmem
          · exact hk e
          · exact r.entry_ne hl hmem hm rfl
        · rcases List.mem_cons.mp hmem with e | hmem
          · exact r.entry_ne hm hb hl e
          · exact hk (r.apart k head m l b hm hl hb hmem)
      refine (h.linked k m hm).congr fun b hb => ?_
      have hbl := hother b hb
      unfold setNext setPrev
      have hne : ∀ c ∈ head :: l, b ≠ c := fun c hc e' => hbl (e' ▸ hc)
      rw [Function.update_of_ne (hne e (List.mem_cons_of_mem _ he)), Function.update_of_ne (hne p' hpmem),
        Function.update_of_ne (hne n' hnmem)]
  live b := by
    rw [Rings.occurs_erase hl he]
    by_cases e' : b = e
    · subst e'
      rw [Function.update_self]
      exact iff_of_false Bool.false_ne_true fun h => h.1 rfl
    · rw [Function.update_of_ne e', isSome_setNext, isSome_setPrev, h.live]
      exact ⟨fun h => ⟨e', h⟩, And.right⟩

end

end Stateful
