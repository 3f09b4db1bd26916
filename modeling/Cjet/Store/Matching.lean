import Cjet.Store.Handlers
import Mathlib.Data.List.Find
import Mathlib.Data.List.Forall2

/-!
# What a fetch matches

A fetch is made from the members of a path object.  The number of its matchers is computed from the number of
members, the matchers are filled in for all members but `caseInsensitive`.

* `Says`               what a member says about a path;
* `addMatchers_some`   the matchers say what the members say, in this order;
* `createFetch_matcher`   the matchers of a fetch, with the null pointers behind them;
* `pathMatching_iff`   a fetch matches what its members say exactly if `caseInsensitive` is not repeated.
-/

set_option linter.unusedVariables false

namespace Cjet
open Stateful Alloc

/-! ## what is asked for -/

/-- how texts are compared -/
def compared (ignoreCase : Bool) : String → List Char := if ignoreCase then lowerCase else caseSensitive

/-- what a member of a path object says about a path -/
inductive Says (chars : String → List Char) (path : String) : String × Json → Prop where
  | equals {s : String} (h : chars s = chars path) : Says chars path ("equals", .str s)
  | equalsNot {s : String} (h : chars s ≠ chars path) : Says chars path ("equalsNot", .str s)
  | contains {s : String} (h : chars s <:+: chars path) : Says chars path ("contains", .str s)
  | startsWith {s : String} (h : chars s <+: chars path) : Says chars path ("startsWith", .str s)
  | endsWith {s : String} (h : chars s <:+ chars path) : Says chars path ("endsWith", .str s)
  | containsAllOf {l : List String} (h : ∀ s ∈ l, chars s <:+: chars path) :
      Says chars path ("containsAllOf", .arr (l.map .str))

def optionMembers (members : List (String × Json)) : List (String × Json) :=
  members.filter fun m => m.1 == caseInsensitiveName

def matcherMembers (members : List (String × Json)) : List (String × Json) :=
  members.filter fun m => !(m.1 == caseInsensitiveName)

/-- `caseInsensitive` is true. -/
def ignoresCase (members : List (String × Json)) : Bool := (optionMembers members).any fun m => m.2.isTrue

/-- The matcher says what the member says. -/
def Implements (chars : String → List Char) (m : String × Json) (pm : PathMatcher) : Prop :=
  ∀ path, pm.matchFunction pm.pathElements path = true ↔ Says chars path m

/-- a fetch with a path object -/
structure MatchesMembers (members : List (String × Json)) (matcher : List (Option PathMatcher)) : Prop where
  /-- It is no fetch of all elements. -/
  some_member : matcherMembers members ≠ []
  number : matcher.length = (matcherMembers members).length
  matchers : List.Forall₂ (fun m pm => ∃ q, pm = some q ∧ Implements (compared (ignoresCase members)) m q)
    (matcherMembers members) matcher
  matching : ∀ path, ∃ b, stateMatches path matcher = some b ∧
    (b = true ↔ ∀ m ∈ matcherMembers members, Says (compared (ignoresCase members)) path m)

def PathMatching (params : Json) (f : Fetch) : Prop :=
  match params.getObjectItem "path" with
  | some (.obj members) => MatchesMembers members f.matcher
  | _ => ∀ path, stateMatches path f.matcher = some true

section
variable {env : Env} {n : Nat}

/-! ## one matcher -/

theorem fillPathElements_some {l : List Json} {elements : List String}
    (h : (fillPathElements env l n).1 = some elements) :
    l = elements.map .str := by
  induction l generalizing elements n with
  | nil =>
    cases h
    rfl
  | cons j l ih =>
    cases j with
    | str s =>
      unfold fillPathElements at h
      rw [Alloc.bind_apply] at h
      cases hcopy : (duplicateString env s n).1 with
      | none =>
        rw [hcopy] at h
        cases h
      | some copy =>
        rw [hcopy] at h
        dsimp only at h
        rw [Alloc.bind_apply] at h
        obtain ⟨rest, hrest, rfl⟩ := Option.map_eq_some_iff.mp h
        rw [List.map_cons, ← ih hrest, tryCall_some hcopy]
    | null => cases h
    | bool b => cases h
    | num q => cases h
    | arr l => cases h
    | obj l => cases h

theorem pathElementsOf_some {m : SupportedMatcher} {matcher : Json} {elements : List String}
    (h : (pathElementsOf env m matcher n).1 = some elements) :
    m.hasMultiplePathElements = true ∧ matcher = .arr (elements.map .str) ∨
      m.hasMultiplePathElements = false ∧ ∃ s, matcher = .str s ∧ elements = [s] := by
  unfold pathElementsOf at h
  cases hmany : m.hasMultiplePathElements with
  | true =>
    rw [hmany, if_pos rfl] at h
    refine Or.inl ⟨rfl, ?_⟩
    cases matcher with
    | arr l =>
      dsimp only at h
      rw [Alloc.bind_apply] at h
      cases hroom : (createPathMatcher env l.length n).1 with
      | false =>
        rw [hroom] at h
        cases h
      | true =>
        rw [hroom, if_pos rfl] at h
        exact congrArg Json.arr (fillPathElements_some h)
    | null => cases h
    | bool b => cases h
    | num q => cases h
    | str s => cases h
    | obj l => cases h
  | false =>
    rw [hmany, if_neg Bool.false_ne_true] at h
    refine Or.inr ⟨rfl, ?_⟩
    cases matcher with
    | str s =>
      dsimp only at h
      rw [Alloc.bind_apply] at h
      cases hroom : (createPathMatcher env 1 n).1 with
      | false =>
        rw [hroom] at h
        cases h
      | true =>
        rw [hroom, if_pos rfl] at h
        have helements := fillPathElements_some h
        cases elements with
        | nil => cases helements
        | cons t elements =>
          obtain ⟨hs, hnil⟩ := List.cons.inj helements
          cases hs
          rw [List.map_eq_nil_iff.mp hnil.symm]
          exact ⟨_, rfl, rfl⟩
    | null => cases h
    | bool b => cases h
    | num q => cases h
    | arr l => cases h
    | obj l => cases h

/-! ### the six matchers -/

variable {chars : String → List Char} {s path : String}

/-- what the members with one text say -/
theorem says_str {name : String} : Says chars path (name, .str s) ↔
    name = "equals" ∧ chars s = chars path ∨ name = "equalsNot" ∧ chars s ≠ chars path ∨
      name = "contains" ∧ chars s <:+: chars path ∨ name = "startsWith" ∧ chars s <+: chars path ∨
        name = "endsWith" ∧ chars s <:+ chars path := by
  constructor
  · intro h
    cases h with
    | equals h => exact Or.inl ⟨rfl, h⟩
    | equalsNot h => exact Or.inr (Or.inl ⟨rfl, h⟩)
    | contains h => exact Or.inr (Or.inr (Or.inl ⟨rfl, h⟩))
    | startsWith h => exact Or.inr (Or.inr (Or.inr (Or.inl ⟨rfl, h⟩)))
    | endsWith h => exact Or.inr (Or.inr (Or.inr (Or.inr ⟨rfl, h⟩)))
  · rintro (⟨rfl, h⟩ | ⟨rfl, h⟩ | ⟨rfl, h⟩ | ⟨rfl, h⟩ | ⟨rfl, h⟩)
    · exact .equals h
    · exact .equalsNot h
    · exact .contains h
    · exact .startsWith h
    · exact .endsWith h

theorem equalsWith_iff : equalsWith chars [s] path = true ↔ Says chars path ("equals", .str s) := by
  rw [says_str]
  simp [equalsWith, firstPathElement]

theorem equalsNotWith_iff : equalsNotWith chars [s] path = true ↔ Says chars path ("equalsNot", .str s) := by
  rw [says_str]
  simp [equalsNotWith, firstPathElement]

theorem containsWith_iff : containsWith chars [s] path = true ↔ Says chars path ("contains", .str s) := by
  rw [says_str]
  simp [containsWith, firstPathElement]

theorem startsWithWith_iff : startsWithWith chars [s] path = true ↔ Says chars path ("startsWith", .str s) := by
  rw [says_str]
  simp [startsWithWith, firstPathElement]

theorem endsWithWith_iff : endsWithWith chars [s] path = true ↔ Says chars path ("endsWith", .str s) := by
  rw [says_str]
  simp [endsWithWith, firstPathElement]

theorem containsAllOfWith_iff {l : List String} :
    containsAllOfWith chars l path = true ↔ Says chars path ("containsAllOf", .arr (l.map .str)) := by
  unfold containsAllOfWith
  rw [List.all_eq_true]
  refine ⟨fun h => .containsAllOf fun s hs => of_decide_eq_true (h s hs), fun h => ?_⟩
  generalize hm : ("containsAllOf", Json.arr (l.map .str)) = m at h
  cases h with
  | containsAllOf h =>
    have hl := Json.arr.inj (Prod.mk.inj hm).2
    rw [List.map_inj_right fun _ _ e => Json.str.inj e] at hl
    cases hl
    exact fun s hs => decide_eq_true (h s hs)
  | _ => simp at hm

theorem matchers_say {m : SupportedMatcher} (hm : m ∈ matchers) {matcher : Json} {elements : List String}
    (h : m.hasMultiplePathElements = true ∧ matcher = .arr (elements.map .str) ∨
      m.hasMultiplePathElements = false ∧ ∃ s, matcher = .str s ∧ elements = [s]) (ignoreCase : Bool) :
    (if ignoreCase then m.caseInsensitive else m.caseSensitive) elements path = true ↔
      Says (compared ignoreCase) path (m.matcherName, matcher) := by
  have hone : m.hasMultiplePathElements = false → ∃ s, matcher = .str s ∧ elements = [s] := by
    rintro hfalse
    rcases h with ⟨htrue, _⟩ | ⟨_, hs⟩
    · rw [hfalse] at htrue
      cases htrue
    · exact hs
  unfold matchers at hm
  simp only [List.mem_cons, List.not_mem_nil, or_false] at hm
  rcases hm with rfl | rfl | rfl | rfl | rfl | rfl
  · obtain ⟨s, rfl, rfl⟩ := hone rfl
    cases ignoreCase with
    | true => exact equalsWith_iff
    | false => exact equalsWith_iff
  · obtain ⟨s, rfl, rfl⟩ := hone rfl
    cases ignoreCase with
    | true => exact containsWith_iff
    | false => exact containsWith_iff
  · obtain ⟨s, rfl, rfl⟩ := hone rfl
    cases ignoreCase with
    | true => exact startsWithWith_iff
    | false => exact startsWithWith_iff
  · obtain ⟨s, rfl, rfl⟩ := hone rfl
    cases ignoreCase with
    | true => exact endsWithWith_iff
    | false => exact endsWithWith_iff
  · obtain ⟨s, rfl, rfl⟩ := hone rfl
    cases ignoreCase with
    | true => exact equalsNotWith_iff
    | false => exact equalsNotWith_iff
  · rcases h with ⟨_, rfl⟩ | ⟨hfalse, _⟩
    · cases ignoreCase with
      | true => exact containsAllOfWith_iff
      | false => exact containsAllOfWith_iff
    · cases hfalse

theorem createMatcher_some {name : String} {matcher : Json} {ignoreCase : Bool} {pm : PathMatcher}
    (h : (createMatcher env name matcher ignoreCase n).1 = some pm) :
    (∃ m ∈ matchers, m.matcherName = name) ∧ Implements (compared ignoreCase) (name, matcher) pm := by
  unfold createMatcher at h
  cases hfind : matchers.find? fun m => m.matcherName == name with
  | none =>
    rw [hfind] at h
    cases h
  | some m =>
    rw [hfind] at h
    dsimp only at h
    rw [Alloc.bind_apply] at h
    cases helements : (pathElementsOf env m matcher n).1 with
    | none =>
      rw [helements] at h
      cases h
    | some elements =>
      rw [helements] at h
      cases h
      have hmem := List.mem_of_find?_eq_some hfind
      have hname := List.find?_some hfind
      obtain rfl := beq_iff_eq.mp hname
      exact ⟨⟨m, hmem, rfl⟩, fun path => matchers_say hmem (pathElementsOf_some helements) ignoreCase⟩

/-! ## all members -/

theorem addMatchers_some {ignoreCase : Bool} {members : List (String × Json)} {ms : List PathMatcher}
    (h : (addMatchers env ignoreCase members n).1 = some ms) :
    (∀ m ∈ members, m.1 = caseInsensitiveName ∨ ∃ sm ∈ matchers, sm.matcherName = m.1) ∧
      List.Forall₂ (Implements (compared ignoreCase)) (matcherMembers members) ms := by
  induction members generalizing ms n with
  | nil =>
    cases h
    exact ⟨List.forall_mem_nil _, .nil⟩
  | cons m members ih =>
    obtain ⟨name, matcher⟩ := m
    unfold addMatchers at h
    unfold matcherMembers
    by_cases hname : name = caseInsensitiveName
    · rw [if_pos hname] at h
      obtain ⟨hnames, hms⟩ := ih h
      refine ⟨List.forall_mem_cons.mpr ⟨Or.inl hname, hnames⟩, ?_⟩
      rw [List.filter_cons_of_neg (by simp [hname])]
      exact hms
    · rw [if_neg hname, Alloc.bind_apply] at h
      cases hmatcher : (createMatcher env name matcher ignoreCase n).1 with
      | none =>
        rw [hmatcher] at h
        cases h
      | some pm =>
        rw [hmatcher] at h
        dsimp only at h
        rw [Alloc.bind_apply] at h
        obtain ⟨ms', hms', rfl⟩ := Option.map_eq_some_iff.mp h
        obtain ⟨hnames, hms⟩ := ih hms'
        obtain ⟨hsupported, himplements⟩ := createMatcher_some hmatcher
        refine ⟨List.forall_mem_cons.mpr ⟨Or.inr hsupported, hnames⟩, ?_⟩
        rw [List.filter_cons_of_pos (by simp [hname])]
        exact .cons himplements hms

/-! ## the fetch -/

theorem allocFetch_matcher {p : Addr} {id : Option Json} {k : Nat} {f : Fetch}
    (h : (allocFetch env p id k n).1 = .ok f) :
    f.matcher = List.replicate k none := by
  unfold allocFetch at h
  rw [Alloc.bind_apply] at h
  cases hroom : (Alloc.call env .calloc n).1 with
  | false =>
    rw [hroom] at h
    cases h
  | true =>
    rw [hroom, if_pos rfl] at h
    cases id with
    | none =>
      cases h
      rfl
    | some id =>
      dsimp only at h
      rw [Alloc.bind_apply] at h
      cases hcopy : (duplicate env id (Alloc.call env .calloc n).2).1 with
      | none =>
        rw [hcopy] at h
        cases h
      | some copy =>
        rw [hcopy] at h
        cases h
        rfl

/-- the matchers of a fetch: null pointers follow them where they are fewer than were counted -/
theorem createFetch_matcher {p : Addr} {id : Option Json} {params : Json} {f : Fetch}
    (h : (createFetch env p id params n).1 = .ok f) :
    params.getObjectItem "path" = none ∧ f.matcher = [none] ∨
      ∃ members ms n', params.getObjectItem "path" = some (.obj members) ∧
        (countMatchers (.obj members) members).1 ≠ 0 ∧
        (addMatchers env (countMatchers (.obj members) members).2 members n').1 = some ms ∧
        f.matcher = ms.map some ++ List.replicate ((countMatchers (.obj members) members).1 - ms.length) none := by
  unfold createFetch at h
  cases hpath : params.getObjectItem "path" with
  | none =>
    rw [hpath] at h
    exact Or.inl ⟨rfl, allocFetch_matcher h⟩
  | some path =>
    rw [hpath] at h
    cases path with
    | obj members =>
      dsimp only at h
      by_cases hzero : (countMatchers (.obj members) members).1 = 0
      · rw [if_pos hzero] at h
        cases h
      rw [if_neg hzero] at h
      by_cases hmany : env.config.maxNumbersOfMatchersInFetch < (countMatchers (.obj members) members).1
      · rw [if_pos hmany] at h
        cases h
      rw [if_neg hmany, Alloc.bind_apply] at h
      cases halloc : (allocFetch env p id (countMatchers (.obj members) members).1 n).1 with
      | error err =>
        rw [halloc] at h
        cases h
      | ok f' =>
        rw [halloc] at h
        dsimp only at h
        rw [Alloc.bind_apply] at h
        cases hms : (addMatchers env (countMatchers (.obj members) members).2 members
          (allocFetch env p id (countMatchers (.obj members) members).1 n).2).1 with
        | none =>
          rw [hms] at h
          cases h
        | some ms =>
          rw [hms] at h
          cases h
          exact Or.inr ⟨members, ms, _, rfl, hzero, hms, rfl⟩
    | null => cases h
    | bool b => cases h
    | num q => cases h
    | str s => cases h
    | arr l => cases h

/-- Among the members of an accepted object, only `caseInsensitive` itself is found when its case is ignored. -/
theorem sameKey_option {members : List (String × Json)}
    (h : ∀ m ∈ members, m.1 = caseInsensitiveName ∨ ∃ sm ∈ matchers, sm.matcherName = m.1) :
    ∀ m ∈ members, sameKey caseInsensitiveName m.1 = (m.1 == caseInsensitiveName) := by
  intro m hm
  have hnames : ∀ sm ∈ matchers, sameKey caseInsensitiveName sm.matcherName
      = (sm.matcherName == caseInsensitiveName) := by
    unfold matchers
    simp only [List.forall_mem_cons]
    decide
  rcases h m hm with hname | ⟨sm, hsm, hname⟩
  · rw [hname, sameKey_refl, beq_self_eq_true]
  · rw [← hname]
    exact hnames sm hsm

theorem countMatchers_eq {members : List (String × Json)}
    (h : ∀ m ∈ members, m.1 = caseInsensitiveName ∨ ∃ sm ∈ matchers, sm.matcherName = m.1) :
    countMatchers (.obj members) members
      = (members.length - min 1 (optionMembers members).length,
        (optionMembers members).head?.any fun m => m.2.isTrue) := by
  have hfind : members.find? (fun m => sameKey caseInsensitiveName m.1) = (optionMembers members).head? := by
    unfold optionMembers
    rw [List.head?_filter]
    exact List.find?_congr (sameKey_option h)
  unfold countMatchers
  rw [Json.getObjectItem_obj, hfind]
  cases optionMembers members with
  | nil => rfl
  | cons m rest =>
    rw [List.length_cons, Nat.min_eq_left (Nat.succ_le_succ (Nat.zero_le _))]
    rfl

theorem length_members (members : List (String × Json)) :
    members.length = (matcherMembers members).length + (optionMembers members).length := by
  rw [Nat.add_comm]
  exact List.length_eq_length_filter_add _

theorem ignoresCase_eq {members : List (String × Json)} (h : (optionMembers members).length ≤ 1) :
    ignoresCase members = (optionMembers members).head?.any fun m => m.2.isTrue := by
  unfold ignoresCase
  cases hoptions : optionMembers members with
  | nil => rfl
  | cons m rest =>
    rw [hoptions, List.length_cons] at h
    rw [List.eq_nil_of_length_eq_zero (Nat.le_zero.mp (Nat.le_of_succ_le_succ h)), List.any_cons,
      List.any_nil, Bool.or_false]
    rfl

end

/-! ## matching -/

theorem allMatch_some (path : String) (ms : List PathMatcher) :
    allMatch path (ms.map some) = some (ms.all fun q => q.matchFunction q.pathElements path) := by
  induction ms with
  | nil => rfl
  | cons q ms ih =>
    rw [List.map_cons, List.all_cons]
    show (if q.matchFunction q.pathElements path then allMatch path (ms.map some) else some false) = _
    cases q.matchFunction q.pathElements path with
    | true => exact ih
    | false => rfl

theorem stateMatches_some (path : String) {ms : List PathMatcher} (h : ms ≠ []) :
    stateMatches path (ms.map some) = some (ms.all fun q => q.matchFunction q.pathElements path) := by
  rw [← allMatch_some]
  cases ms with
  | nil => exact absurd rfl h
  | cons q ms => rfl

/-- All matchers accept a path exactly if all members do. -/
theorem all_implement {chars : String → List Char} {members : List (String × Json)} {ms : List PathMatcher}
    (h : List.Forall₂ (Implements chars) members ms) (path : String) :
    (ms.all fun q => q.matchFunction q.pathElements path) = true ↔ ∀ m ∈ members, Says chars path m := by
  induction h with
  | nil => exact iff_of_true rfl (List.forall_mem_nil _)
  | cons hm _ ih => rw [List.all_cons, Bool.and_eq_true, List.forall_mem_cons, hm path, ih]

section
variable {env : Env} {p : Addr} {id : Option Json} {params : Json} {n n' : Nat} {f : Fetch}

/-- **A fetch matches what the members of its path object say exactly if at most one of them is
`caseInsensitive`.** -/
theorem pathMatching_iff (h : createFetch env p id params n = (.ok f, n')) : PathMatching params f ↔
    ∀ members, params.getObjectItem "path" = some (.obj members) → (optionMembers members).length ≤ 1 := by
  unfold PathMatching
  rcases createFetch_matcher (congrArg Prod.fst h) with
    ⟨hpath, hmatcher⟩ | ⟨members, ms, k, hpath, hzero, hms, hmatcher⟩
  · rw [hpath, hmatcher]
    exact iff_of_true (fun path => rfl) fun _ => nofun
  obtain ⟨hnames, hall⟩ := addMatchers_some hms
  rw [countMatchers_eq hnames] at hzero hall hmatcher
  dsimp only at hzero hall hmatcher
  have hlength := hall.length_eq
  have hcount := length_members members
  rw [hpath, hmatcher]
  constructor
  · rintro hmatches _ ⟨⟩
    have hnumber := hmatches.number
    rw [List.length_append, List.length_map, List.length_replicate] at hnumber
    omega
  · intro hone
    have hone := hone members rfl
    have hnil : members.length - min 1 (optionMembers members).length - ms.length = 0 := by
      omega
    rw [← ignoresCase_eq hone] at hall
    rw [hnil, List.replicate_zero, List.append_nil]
    refine ⟨?_, ?_, ?_, fun path => ?_⟩
    · intro hempty
      rw [hempty, List.length_nil] at hcount
      omega
    · rw [List.length_map, hlength]
    · exact List.forall₂_map_right_iff.mpr (hall.imp fun m q hq => ⟨q, rfl, hq⟩)
    · have hne : ms ≠ [] := by
        rintro rfl
        rw [List.length_nil] at hlength
        omega
      exact ⟨_, stateMatches_some path hne, all_implement hall path⟩

end

/-- the parameters of a fetch for the path `a`, with the option `caseInsensitive` a number of times -/
def fetchA (options : Nat) : Json :=
  .obj [("path", .obj (("equals", .str "a") :: List.replicate options ("caseInsensitive", .bool true)))]

theorem pathMatching_fetchA : ∃ f n', createFetch ⟨Platform.small, Outcomes.good⟩ 0 none (fetchA 1) 0 = (.ok f, n') ∧
    (PathMatching (fetchA 1) f ↔
      ∀ members, (fetchA 1).getObjectItem "path" = some (.obj members) → (optionMembers members).length ≤ 1) := by
  obtain ⟨f, n', h⟩ : ∃ f n', createFetch ⟨Platform.small, Outcomes.good⟩ 0 none (fetchA 1) 0 = (.ok f, n') :=
    ⟨_, _, rfl⟩
  exact ⟨f, n', h, pathMatching_iff h⟩

/-- With the option twice, a path that the first matcher accepts leads to a null pointer. -/
theorem repeated_option_follows_null : ∃ f n',
    createFetch ⟨Platform.small, Outcomes.good⟩ 0 none (fetchA 2) 0 = (.ok f, n') ∧ ¬ PathMatching (fetchA 2) f ∧
      stateMatches "A" f.matcher = none := by
  refine ⟨_, _, rfl, fun h => ?_, rfl⟩
  have hmatches : MatchesMembers (("equals", .str "a") :: List.replicate 2 ("caseInsensitive", .bool true)) _ := h
  exact absurd hmatches.number (by decide)

end Cjet
