import Cjet.Model.Groups
import Mathlib.Data.List.Nodup

/-!
# Sets of groups are bit sets (`groups.c`)

A name gets the next free bit when it is first added, and keeps it.

* `groupsAfter`              the names after some calls of `add_groups`;
* `Numbered`                 what all of them keep;
* `getLsbD_getGroups`        the bits of a set are the positions of its names;
* `groups_represent`         two sets have a bit in common exactly where they have a registered name in common.
-/

set_option linter.unusedVariables false

namespace Cjet

/-! ## the numbering -/

/-- `all_groups` after calls of `add_groups`, whatever they return -/
def groupsAfter : List String → List Json → List String
  | allGroups, [] => allGroups
  | allGroups, call :: calls => groupsAfter (addGroups allGroups call).2 calls

/-- the names are distinct, and each has a bit -/
structure Numbered (allGroups : List String) : Prop where
  nodup : allGroups.Nodup
  length_le : allGroups.length ≤ maxNumberOfGroups

/-- `allGroups'` came from `allGroups`: the numbering is kept and extended -/
def Extends (allGroups allGroups' : List String) : Prop :=
  (Numbered allGroups → Numbered allGroups') ∧ allGroups <+: allGroups'

theorem Extends.refl (allGroups : List String) : Extends allGroups allGroups := ⟨id, List.prefix_rfl⟩

theorem Extends.trans {a b c : List String} (hab : Extends a b) (hbc : Extends b c) : Extends a c :=
  ⟨fun h => hbc.1 (hab.1 h), hab.2.trans hbc.2⟩

theorem isInGroups_iff (allGroups : List String) (groupName : String) :
    isInGroups allGroups groupName = true ↔ groupName ∈ allGroups := by
  unfold isInGroups
  rw [List.any_eq_true]
  constructor
  · rintro ⟨group, hmem, he⟩
    rwa [← beq_iff_eq.mp he]
  · intro hmem
    exact ⟨groupName, hmem, beq_self_eq_true groupName⟩

theorem numbered_createGroups : Numbered createGroups := ⟨List.nodup_nil, Nat.zero_le _⟩

theorem extends_addGroup (allGroups : List String) (groupName : String) :
    Extends allGroups (addGroup allGroups groupName).2 := by
  unfold addGroup
  by_cases hin : isInGroups allGroups groupName = true
  · rw [if_pos hin]
    exact Extends.refl _
  · rw [if_neg hin]
    by_cases hfull : maxNumberOfGroups ≤ allGroups.length
    · rw [if_pos hfull]
      exact Extends.refl _
    · rw [if_neg hfull]
      have hnew : groupName ∉ allGroups := fun hmem => hin ((isInGroups_iff _ _).mpr hmem)
      refine ⟨fun h => ⟨?_, ?_⟩, List.prefix_append _ _⟩
      · show (allGroups ++ [groupName]).Nodup
        exact h.nodup.append (List.nodup_singleton _) (by simpa using hnew)
      · show (allGroups ++ [groupName]).length ≤ maxNumberOfGroups
        rw [List.length_append, List.length_singleton]
        omega

theorem extends_addGroupItems (allGroups : List String) (items : List Json) :
    Extends allGroups (addGroupItems allGroups items).2 := by
  induction items generalizing allGroups with
  | nil => exact Extends.refl _
  | cons item items ih =>
    cases item with
    | str groupName =>
      have hadd := extends_addGroup allGroups groupName
      unfold addGroupItems
      cases hr : addGroup allGroups groupName with
      | mk ok allGroups' =>
        rw [hr] at hadd
        cases ok with
        | true => exact hadd.trans (ih allGroups')
        | false => exact hadd
    | _ => exact Extends.refl _

theorem extends_addGroups (allGroups : List String) (groupArray : Json) :
    Extends allGroups (addGroups allGroups groupArray).2 := by
  cases groupArray with
  | arr items => exact extends_addGroupItems allGroups items
  | _ => exact Extends.refl _

theorem extends_groupsAfter (allGroups : List String) (calls : List Json) :
    Extends allGroups (groupsAfter allGroups calls) := by
  induction calls generalizing allGroups with
  | nil => exact Extends.refl _
  | cons call calls ih => exact (extends_addGroups allGroups call).trans (ih _)

theorem groupsAfter_append (allGroups : List String) (pre post : List Json) :
    groupsAfter allGroups (pre ++ post) = groupsAfter (groupsAfter allGroups pre) post := by
  induction pre generalizing allGroups with
  | nil => rfl
  | cons call pre ih => exact ih _

/-- The names of an account come in through `add_groups`. -/
theorem loadAuth_calls (auth : Json) (allGroups : List String) (names : List String) :
    ∃ calls, (loadAuth auth allGroups names).2 = groupsAfter allGroups calls := by
  induction names generalizing allGroups with
  | nil => exact ⟨[], rfl⟩
  | cons name names ih =>
    unfold loadAuth
    cases auth.getObjectItem name with
    | none => exact ih allGroups
    | some groupArray =>
      dsimp only
      cases hr : addGroups allGroups groupArray with
      | mk ok allGroups' =>
        have hone : groupsAfter allGroups [groupArray] = allGroups' := by
          show (addGroups allGroups groupArray).2 = allGroups'
          rw [hr]
        cases ok with
        | true =>
          obtain ⟨calls, hcalls⟩ := ih allGroups'
          refine ⟨groupArray :: calls, ?_⟩
          show (loadAuth auth allGroups' names).2 = groupsAfter (addGroups allGroups groupArray).2 calls
          rw [hcalls, hr]
        | false => exact ⟨[groupArray], hone.symm⟩

/-- **What `load_passwd_data` loads**, also where it gives up, is what some calls of `add_groups` leave. -/
theorem loadUsers_calls (allGroups : List String) (users : List Json) :
    ∃ calls, (loadUsers allGroups users).2 = groupsAfter allGroups calls := by
  induction users generalizing allGroups with
  | nil => exact ⟨[], rfl⟩
  | cons user users ih =>
    unfold loadUsers
    cases user.getObjectItem "auth" with
    | none => exact ih allGroups
    | some auth =>
      dsimp only
      obtain ⟨first, hfirst⟩ := loadAuth_calls auth allGroups groupMembers
      cases hr : loadAuth auth allGroups groupMembers with
      | mk ok allGroups' =>
        rw [hr] at hfirst
        cases ok with
        | true =>
          obtain ⟨calls, hcalls⟩ := ih allGroups'
          refine ⟨first ++ calls, ?_⟩
          rw [groupsAfter_append, ← hfirst]
          exact hcalls
        | false => exact ⟨first, hfirst⟩

/-! ## the bits -/

theorem getLsbD_empty {w : Nat} (k : Nat) : (0 : BitVec w).getLsbD k = false := BitVec.getLsbD_zero

/-- two bit sets have a bit in common -/
theorem and_ne_zero_iff {w : Nat} (a b : BitVec w) :
    (a &&& b != 0) = true ↔ ∃ k, a.getLsbD k = true ∧ b.getLsbD k = true := by
  rw [bne_iff_ne]
  constructor
  · intro hne
    by_contra hnone
    apply hne
    apply BitVec.eq_of_getLsbD_eq
    intro k hk
    rw [BitVec.getLsbD_and, getLsbD_empty]
    cases ha : a.getLsbD k with
    | false => rfl
    | true =>
      cases hb : b.getLsbD k with
      | false => rfl
      | true => exact (hnone ⟨k, ha, hb⟩).elim
  · rintro ⟨k, ha, hb⟩ hzero
    have hk : (a &&& b).getLsbD k = (0 : BitVec w).getLsbD k := by rw [hzero]
    rw [BitVec.getLsbD_and, ha, hb, getLsbD_empty] at hk
    cases hk

theorem getLsbD_two_pow (j k : Nat) (hj : j < 32) : (BitVec.ofNat 32 (2 ^ j)).getLsbD k = true ↔ k = j := by
  rw [BitVec.getLsbD_ofNat, Nat.testBit_two_pow, Bool.and_eq_true, decide_eq_true_iff, decide_eq_true_iff]
  constructor
  · rintro ⟨_, h⟩
    exact h.symm
  · rintro rfl
    exact ⟨hj, rfl⟩

/-- `1 << j` is the bit of the name at position `j`. -/
theorem getLsbD_groupBits (name : String) (j : Nat) (allGroups : List String) (hbound : j + allGroups.length ≤ 32)
    (k : Nat) : (groupBits name j allGroups).getLsbD k = true ↔ j ≤ k ∧ allGroups[k - j]? = some name := by
  induction allGroups generalizing j with
  | nil => simp [groupBits]
  | cons group allGroups ih =>
    rw [List.length_cons] at hbound
    have hrest := ih (j + 1) (by omega)
    rw [groupBits, BitVec.getLsbD_or, Bool.or_eq_true, hrest]
    by_cases hk : k = j
    · have hfirst : (group :: allGroups)[k - j]? = some group := by rw [hk, Nat.sub_self]; rfl
      rw [hfirst]
      by_cases hg : group = name
      · rw [if_pos hg, getLsbD_two_pow j k (by omega), hg]
        exact ⟨fun _ => ⟨by omega, rfl⟩, fun _ => Or.inl hk⟩
      · rw [if_neg hg, getLsbD_empty]
        constructor
        · rintro (h | ⟨h, _⟩)
          · cases h
          · omega
        · rintro ⟨_, h⟩
          exact (hg (Option.some.inj h)).elim
    · have hbit : (if group = name then BitVec.ofNat 32 (2 ^ j) else 0).getLsbD k = true ↔ False := by
        by_cases hg : group = name
        · rw [if_pos hg, getLsbD_two_pow j k (by omega)]
          exact iff_of_false hk id
        · rw [if_neg hg, getLsbD_empty]
          exact iff_of_false (by decide) id
      rw [hbit, false_or]
      constructor
      · rintro ⟨hle, h⟩
        have hsub : k - j = k - (j + 1) + 1 := by omega
        exact ⟨by omega, by rw [hsub, List.getElem?_cons_succ]; exact h⟩
      · rintro ⟨hle, h⟩
        have hsub : k - j = k - (j + 1) + 1 := by omega
        rw [hsub, List.getElem?_cons_succ] at h
        exact ⟨by omega, h⟩

/-- the bits that one member of an array adds -/
def itemBits (allGroups : List String) : Json → GroupSet
  | .str name => groupBits name 0 allGroups
  | _ => 0

theorem getGroups_arr (allGroups : List String) (items : List Json) :
    getGroups (some allGroups) (some (.arr items))
      = items.foldl (fun groups item => groups ||| itemBits allGroups item) 0 := by
  unfold getGroups
  refine congrArg (fun f => items.foldl f (0 : GroupSet)) ?_
  funext groups item
  cases item with
  | str name => rfl
  | _ => exact BitVec.or_zero.symm

theorem getLsbD_foldl (allGroups : List String) (items : List Json) (groups : GroupSet) (k : Nat) :
    (items.foldl (fun groups item => groups ||| itemBits allGroups item) groups).getLsbD k = true
      ↔ groups.getLsbD k = true ∨ ∃ item ∈ items, (itemBits allGroups item).getLsbD k = true := by
  induction items generalizing groups with
  | nil => simp
  | cons item items ih =>
    rw [List.foldl_cons, ih, BitVec.getLsbD_or, Bool.or_eq_true, or_assoc]
    refine or_congr Iff.rfl ?_
    constructor
    · rintro (h | ⟨item', hmem, h⟩)
      · exact ⟨item, List.mem_cons_self, h⟩
      · exact ⟨item', List.mem_cons_of_mem item hmem, h⟩
    · rintro ⟨item', hmem, h⟩
      rcases List.mem_cons.mp hmem with rfl | hmem
      · exact Or.inl h
      · exact Or.inr ⟨item', hmem, h⟩

/-- The bits of a set of groups are the positions of the names in the array. -/
theorem getLsbD_getGroups {allGroups : List String} (hall : Numbered allGroups) (items : List Json) (k : Nat) :
    (getGroups (some allGroups) (some (.arr items))).getLsbD k = true
      ↔ ∃ name, Json.str name ∈ items ∧ allGroups[k]? = some name := by
  have hbound : 0 + allGroups.length ≤ 32 := by rw [Nat.zero_add]; exact hall.length_le
  have hzero : (0 : GroupSet).getLsbD k = true ↔ False := by
    rw [getLsbD_empty]
    exact iff_of_false (by decide) id
  rw [getGroups_arr, getLsbD_foldl, hzero, false_or]
  constructor
  · rintro ⟨item, hmem, hbit⟩
    cases item with
    | str name => exact ⟨name, hmem, ((getLsbD_groupBits name 0 allGroups hbound k).mp hbit).2⟩
    | _ => exact (hzero.mp hbit).elim
  · rintro ⟨name, hmem, hpos⟩
    exact ⟨.str name, hmem, (getLsbD_groupBits name 0 allGroups hbound k).mpr ⟨Nat.zero_le k, hpos⟩⟩

/-- **Groups are positions**: the names are distinct and at most 32, each keeps its position, and there is access
exactly where the two arrays have a registered name in common. -/
theorem groups_represent (calls : List Json) :
    (groupsAfter createGroups calls).Nodup ∧ (groupsAfter createGroups calls).length ≤ 32 ∧
      (∀ (pre post : List Json) (name : String) (k : Nat), calls = pre ++ post →
        (groupsAfter createGroups pre)[k]? = some name →
        (groupsAfter createGroups calls)[k]? = some name) ∧
      ∀ a b : List Json, hasAccess (some (groupsAfter createGroups calls))
          (getGroups (some (groupsAfter createGroups calls)) (some (.arr a)))
          (getGroups (some (groupsAfter createGroups calls)) (some (.arr b))) = true
        ↔ ∃ name, Json.str name ∈ a ∧ Json.str name ∈ b ∧ name ∈ groupsAfter createGroups calls := by
  have hall : Numbered (groupsAfter createGroups calls) :=
    (extends_groupsAfter createGroups calls).1 numbered_createGroups
  refine ⟨hall.nodup, hall.length_le, fun pre post name k hcalls hk => ?_, fun a b => ?_⟩
  · obtain ⟨added, hadded⟩ := (extends_groupsAfter (groupsAfter createGroups pre) post).2
    rw [← groupsAfter_append, ← hcalls] at hadded
    have hlt : k < (groupsAfter createGroups pre).length := (List.getElem?_eq_some_iff.mp hk).1
    rw [← hadded, List.getElem?_append_left hlt]
    exact hk
  · unfold hasAccess
    rw [and_ne_zero_iff]
    constructor
    · rintro ⟨k, ha, hb⟩
      obtain ⟨name, hnameA, hk⟩ := (getLsbD_getGroups hall a k).mp ha
      obtain ⟨name', hnameB, hk'⟩ := (getLsbD_getGroups hall b k).mp hb
      obtain rfl : name = name' := Option.some.inj (hk.symm.trans hk')
      exact ⟨name, hnameA, hnameB, List.mem_of_getElem? hk⟩
    · rintro ⟨name, hnameA, hnameB, hmem⟩
      obtain ⟨k, hk⟩ := List.mem_iff_getElem?.mp hmem
      exact ⟨k, (getLsbD_getGroups hall a k).mpr ⟨name, hnameA, hk⟩,
        (getLsbD_getGroups hall b k).mpr ⟨name, hnameB, hk⟩⟩

end Cjet
