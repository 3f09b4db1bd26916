import Cjet.Lib.Text
import Cjet.Ws.Extension

/-!
# The tokenizer of an offer

The tokenizer hands over addresses and counts of characters.  Here they are texts again.

* `solid`              the count of the characters that are not blank;
* `tokens`             the parameters, as the tokenizer cuts them;
* `splitLoop_cuts`     it hands over the memory from each of them on, and the count of its characters that are not blank.
-/

set_option linter.unusedVariables false

namespace Cjet
namespace Websocket

/-! ## blanks -/

def Blank (l : List UInt8) : Prop := ∀ c ∈ l, isspace c = true

/-- the characters that are not blank -/
def solid (l : List UInt8) : Nat := l.countP fun c => !isspace c

theorem blank_nil : Blank [] := fun c hc => absurd hc List.not_mem_nil

theorem solid_cons_of_solid {c : UInt8} (h : isspace c = false) (l : List UInt8) : solid (c :: l) = solid l + 1 :=
  List.countP_cons_of_pos (by rw [h]; rfl)

theorem solid_cons_of_blank {c : UInt8} (h : isspace c = true) (l : List UInt8) : solid (c :: l) = solid l :=
  List.countP_cons_of_neg (by rw [h]; decide)

theorem solid_append (l m : List UInt8) : solid (l ++ m) = solid l + solid m := List.countP_append

theorem solid_le_length (l : List UInt8) : solid l ≤ l.length := List.countP_le_length

theorem solid_eq_zero_iff (l : List UInt8) : solid l = 0 ↔ Blank l := by
  unfold solid Blank
  rw [List.countP_eq_zero]
  constructor
  · intro h c hc
    simpa using h c hc
  · intro h c hc
    rw [h c hc]
    decide

theorem blank_of_dropWhile {l : List UInt8} (h : l.dropWhile isspace = []) : Blank l :=
  List.dropWhile_eq_nil_iff.mp h

/-! ## tokens -/

/-- the parameters behind a semicolon, without the white space in front of them; the first character of each belongs to it
whatever it is, and there is none at the end of the element -/
def tokens (text : List UInt8) : List (List UInt8) :=
  match h : text.dropWhile isspace with
  | [] => [[]]
  | c :: rest =>
    (c :: rest.takeWhile (· ≠ semicolon)) ::
      match h' : rest.dropWhile (· ≠ semicolon) with
      | [] => []
      | _ :: rest' => tokens rest'
termination_by text.length
decreasing_by
  have h1 := (List.dropWhile_sublist (l := text) isspace).length_le
  have h2 := (List.dropWhile_sublist (l := rest) (· ≠ semicolon)).length_le
  rw [h, List.length_cons] at h1
  rw [h', List.length_cons] at h2
  omega

/-- the parameters of an element: those behind its first semicolon -/
def tokensAfter (element : List UInt8) : List (List UInt8) :=
  match element.dropWhile (· ≠ semicolon) with
  | [] => []
  | _ :: rest => tokens rest

theorem tokens_blank {text : List UInt8} (h : text.dropWhile isspace = []) : tokens text = [[]] := by
  rw [tokens.eq_def]
  split
  · rfl
  · rename_i h'
    rw [h] at h'
    cases h'

theorem tokens_cons {text rest : List UInt8} {c : UInt8} (h : text.dropWhile isspace = c :: rest) :
    tokens text = (c :: rest.takeWhile (· ≠ semicolon)) :: tokensAfter rest := by
  rw [tokens.eq_def]
  split
  · rename_i h'
    rw [h] at h'
    cases h'
  · rename_i h'
    rw [h] at h'
    cases h'
    unfold tokensAfter
    congr 1
    split
    · rename_i h2
      rw [h2]
    · rename_i h2
      rw [h2]

/-- an address and a count for a token: the memory goes on with a semicolon or what is behind the element -/
inductive Entry (behind : List UInt8) : List UInt8 → List UInt8 × Nat → Prop
  | token (c : UInt8) (t rest : List UInt8)
    (hrest : rest = behind ∨ ∃ r, rest = semicolon :: r) (hc : isspace c = false)
      (hsemi : semicolon ∉ t) : Entry behind (c :: t) (c :: t ++ rest, solid (c :: t))
  | none (parameter : List UInt8) : Entry behind [] (parameter, 1)

/-- the memory behind a text without semicolon -/
theorem rest_cases (l behind : List UInt8) :
    l.dropWhile (· ≠ semicolon) ++ behind = behind ∨ ∃ r, l.dropWhile (· ≠ semicolon) ++ behind = semicolon :: r := by
  cases h : l.dropWhile (· ≠ semicolon) with
  | nil => exact Or.inl rfl
  | cons c r =>
    have hc := List.head?_dropWhile_not (· ≠ semicolon) l
    rw [h] at hc
    have hc : c = semicolon := by simpa using hc
    exact Or.inr ⟨r ++ behind, by rw [hc]; rfl⟩

theorem notMem_takeWhile (l : List UInt8) : semicolon ∉ l.takeWhile (· ≠ semicolon) := fun h => by
  have := List.mem_takeWhile_imp h
  simp at this

theorem splitLoop_none_left (fuel : Nat) (text : List UInt8) (last : List UInt8 × Nat)
    (before : List (List UInt8 × Nat)) :
    splitLoop fuel text 0 last before = some (before ++ [last]) := by
  cases fuel with
  | zero => rfl
  | succ fuel => rfl

theorem tokensAfter_cons_semicolon (e : List UInt8) : tokensAfter (semicolon :: e) = tokens e := rfl

theorem tokensAfter_cons {c : UInt8} (h : c ≠ semicolon) (e : List UInt8) : tokensAfter (c :: e) = tokensAfter e := by
  unfold tokensAfter
  rw [List.dropWhile_cons_of_pos (by simpa using h)]

/-- what the tokenizer hands over for the text that it has not read -/
def Cuts (behind element : List UInt8) (last : List UInt8 × Nat) (before : List (List UInt8 × Nat))
    (result : Option (List (List UInt8 × Nat))) : Prop :=
  ∃ entries, List.Forall₂ (Entry behind) (tokensAfter element) entries ∧
    result =
      if before.length + (tokensAfter element).length < 5 then
        some (before ++ (last.1, last.2 + solid (element.takeWhile (· ≠ semicolon))) :: entries)
      else none

theorem splitLoop_cuts (behind : List UInt8) (fuel : Nat) (element : List UInt8) (hfuel : element.length ≤ fuel)
    (last : List UInt8 × Nat) (before : List (List UInt8 × Nat)) (hbefore : before.length < 5) :
    Cuts behind element last before (splitLoop fuel (element ++ behind) element.length last before) := by
  induction fuel generalizing element last before with
  | zero =>
    obtain rfl := List.length_eq_zero_iff.mp (Nat.le_zero.mp hfuel)
    exact ⟨[], .nil, by rw [if_pos (by exact hbefore)]; rfl⟩
  | succ fuel ih =>
    cases element with
    | nil => exact ⟨[], .nil, by rw [if_pos (by exact hbefore)]; rfl⟩
    | cons c e =>
      have hfuel : e.length ≤ fuel := Nat.le_of_succ_le_succ hfuel
      have hunfold : splitLoop (fuel + 1) (c :: e ++ behind) (c :: e).length last before
          = if c = semicolon then
              if before.length + 1 = 5 then none
              else
                splitLoop fuel ((e ++ behind).dropWhile isspace).tail
                  (e.length - ((e ++ behind).length - ((e ++ behind).dropWhile isspace).length) - 1)
                  ((e ++ behind).dropWhile isspace, 1) (before ++ [last])
            else if isspace c then splitLoop fuel (e ++ behind) e.length last before
            else splitLoop fuel (e ++ behind) e.length (last.1, last.2 + 1) before := rfl
      rw [hunfold]
      by_cases hc : c = semicolon
      · rw [if_pos hc, hc]
        have htake : (semicolon :: e).takeWhile (· ≠ semicolon) = [] := List.takeWhile_cons_of_neg (by simp)
        have hlast : (last.1, last.2 + solid ((semicolon :: e).takeWhile (· ≠ semicolon))) = last := by rw [htake]; rfl
        unfold Cuts
        rw [hlast, tokensAfter_cons_semicolon]
        cases hskip : e.dropWhile isspace with
        | nil =>
          -- nothing is left of the element, and the parameter is in the memory behind it
          have hlen := (List.dropWhile_sublist (l := behind) isspace).length_le
          rw [tokens_blank hskip, List.dropWhile_append_of_pos (blank_of_dropWhile hskip)]
          refine ⟨[(behind.dropWhile isspace, 1)], .cons (.none _) .nil, ?_⟩
          by_cases hfull : before.length + 1 = 5
          · rw [if_pos hfull, if_neg (by rw [List.length_singleton]; omega)]
          · have hleft : e.length - ((e ++ behind).length - (behind.dropWhile isspace).length) - 1 = 0 := by
              rw [List.length_append]
              omega
            rw [if_neg hfull, hleft, splitLoop_none_left, if_pos (by rw [List.length_singleton]; omega),
              List.append_assoc, List.singleton_append]
        | cons d r =>
          have hd : isspace d = false := by
            have := List.head?_dropWhile_not isspace e
            rw [hskip] at this
            simpa using this
          have hsplit : e.takeWhile isspace ++ d :: r = e := by rw [← hskip, List.takeWhile_append_dropWhile]
          have hskip' : (e ++ behind).dropWhile isspace = d :: (r ++ behind) := by
            rw [List.dropWhile_append, hskip]
            rfl
          have hlen := congrArg List.length hsplit
          rw [List.length_append, List.length_cons] at hlen
          have hleft : e.length - ((e ++ behind).length - (d :: (r ++ behind)).length) - 1 = r.length := by
            rw [List.length_append, List.length_cons, List.length_append]
            omega
          rw [tokens_cons hskip, hskip', hleft, List.tail_cons]
          by_cases hfull : before.length + 1 = 5
          · -- the fifth parameter: none of the rest is read
            obtain ⟨entries, hentries, -⟩ := ih r (by omega) (d :: (r ++ behind), 1) [] (by decide)
            refine ⟨_, .cons (.token d (r.takeWhile (· ≠ semicolon)) (r.dropWhile (· ≠ semicolon) ++ behind)
              (rest_cases r behind) hd (notMem_takeWhile r)) hentries, ?_⟩
            rw [if_pos hfull, if_neg (by rw [List.length_cons]; omega)]
          · obtain ⟨entries, hentries, heq⟩ := ih r (by omega) (d :: (r ++ behind), 1) (before ++ [last])
              (by rw [List.length_append, List.length_singleton]; omega)
            refine ⟨_, .cons (.token d (r.takeWhile (· ≠ semicolon)) (r.dropWhile (· ≠ semicolon) ++ behind)
              (rest_cases r behind) hd (notMem_takeWhile r)) hentries, ?_⟩
            have hmemory : d :: r.takeWhile (· ≠ semicolon) ++ (r.dropWhile (· ≠ semicolon) ++ behind)
                = d :: (r ++ behind) := by
              rw [List.cons_append, ← List.append_assoc, List.takeWhile_append_dropWhile]
            rw [if_neg hfull, heq, hmemory, solid_cons_of_solid hd, List.length_append, List.length_singleton,
              List.length_cons, List.append_assoc, List.singleton_append, Nat.add_comm 1, Nat.add_right_comm,
              Nat.add_assoc before.length]
      · rw [if_neg hc]
        have htake : (c :: e).takeWhile (· ≠ semicolon) = c :: e.takeWhile (· ≠ semicolon) :=
          List.takeWhile_cons_of_pos (by simpa using hc)
        unfold Cuts
        rw [tokensAfter_cons hc, htake]
        by_cases hspace : isspace c = true
        · rw [if_pos hspace, solid_cons_of_blank hspace]
          exact ih e hfuel last before hbefore
        · rw [if_neg hspace, solid_cons_of_solid (Bool.eq_false_iff.mpr hspace)]
          obtain ⟨entries, hentries, heq⟩ := ih e hfuel (last.1, last.2 + 1) before hbefore
          refine ⟨entries, hentries, ?_⟩
          rw [heq, Nat.add_assoc, Nat.add_comm 1]

end Websocket
end Cjet
