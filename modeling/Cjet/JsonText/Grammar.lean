import Cjet.JsonText.Reader
import Mathlib.Data.List.TakeWhile

/-!
# The language of `json/cJSON.c`

* `Text`, `Elements`, `Members`      the texts of the values, for a number of levels that may be opened;
* `readValue_sound`       what is read is such a text;
* `readValue_complete`    each such text is read, whatever follows it (but for a number);
* `readText_iff`          the texts that begin with an array or an object are known exactly.
-/

set_option linter.unusedVariables false

namespace Cjet.JsonText
open Stateful

/-! ## the grammar -/

/-- what is skipped between tokens -/
def Blank (l : List UInt8) : Prop := ∀ c ∈ l, c ≤ 32

/-- a string with its quotes, and what it stands for -/
inductive StringText : List UInt8 → List UInt8 → Prop
  | quoted (body s : List UInt8) (skipped : Nat) (ends : scanString (body ++ [0x22]) = some (body.length, skipped))
      (stands : unescapeText (body.length + 1) body = some s) : StringText (0x22 :: (body ++ [0x22])) s

/-- the first byte of a number -/
def isNumberStart (c : UInt8) : Bool := c == 0x2D || decide (0x30 ≤ c ∧ c ≤ 0x39)

section
variable {N : Type} (strtod : Strtod N)

/-- a number that is read with all of its bytes -/
structure NumberText (token : List UInt8) (number : N) : Prop where
  start : token.head?.any isNumberStart = true
  bytes : ∀ c ∈ token, isNumberByte c = true
  length_le : token.length ≤ 63
  run : strtod.run token = (number, token.length)

mutual

inductive Text : Nat → List UInt8 → Value N → Prop
  | null (levels : Nat) : Text levels nullText .null
  | falsity (levels : Nat) : Text levels falseText (.bool false)
  | truth (levels : Nat) : Text levels trueText (.bool true)
  | string (levels : Nat) (token s : List UInt8) (h : StringText token s) : Text levels token (.str (cText s))
  | number (levels : Nat) (token : List UInt8) (n : N) (h : NumberText strtod token n) : Text levels token (.num n)
  | emptyArray (levels : Nat) (blank : List UInt8) (h : Blank blank) :
      Text (levels + 1) (0x5B :: (blank ++ [0x5D])) (.arr [])
  | array (levels : Nat) (token : List UInt8) (l : List (Value N)) (h : Elements levels token l) :
      Text (levels + 1) (0x5B :: token) (.arr l)
  | emptyObject (levels : Nat) (blank : List UInt8) (h : Blank blank) :
      Text (levels + 1) (0x7B :: (blank ++ [0x7D])) (.obj [])
  | object (levels : Nat) (token : List UInt8) (l : List (List UInt8 × Value N)) (h : Members levels token l) :
      Text (levels + 1) (0x7B :: token) (.obj l)

/-- the elements of an array, with the bracket behind them -/
inductive Elements : Nat → List UInt8 → List (Value N) → Prop
  | last (levels : Nat) (b token b' : List UInt8) (v : Value N) (hb : Blank b) (h : Text levels token v)
      (hb' : Blank b') : Elements levels (b ++ (token ++ (b' ++ [0x5D]))) [v]
  | more (levels : Nat) (b token b' rest : List UInt8) (v : Value N) (l : List (Value N)) (hb : Blank b)
      (h : Text levels token v) (hb' : Blank b') (hrest : Elements levels rest l) :
      Elements levels (b ++ (token ++ (b' ++ 0x2C :: rest))) (v :: l)

/-- the members of an object, with the bracket behind them -/
inductive Members : Nat → List UInt8 → List (List UInt8 × Value N) → Prop
  | last (levels : Nat) (b name b₁ b₂ token b' s : List UInt8) (v : Value N) (hb : Blank b) (hname : StringText name s)
      (hb₁ : Blank b₁) (hb₂ : Blank b₂) (h : Text levels token v) (hb' : Blank b') :
      Members levels (b ++ (name ++ (b₁ ++ 0x3A :: (b₂ ++ (token ++ (b' ++ [0x7D])))))) [(cText s, v)]
  | more (levels : Nat) (b name b₁ b₂ token b' s rest : List UInt8) (v : Value N) (l : List (List UInt8 × Value N))
      (hb : Blank b) (hname : StringText name s) (hb₁ : Blank b₁) (hb₂ : Blank b₂) (h : Text levels token v)
      (hb' : Blank b') (hrest : Members levels rest l) :
      Members levels (b ++ (name ++ (b₁ ++ 0x3A :: (b₂ ++ (token ++ (b' ++ 0x2C :: rest)))))) ((cText s, v) :: l)

end

end

/-! ## blanks and literals -/

theorem exists_blank (l : List UInt8) : ∃ b, Blank b ∧ l = b ++ skipBlank l := by
  refine ⟨l.takeWhile (· ≤ 32), fun c hc => ?_, (List.takeWhile_append_dropWhile).symm⟩
  exact of_decide_eq_true (List.mem_takeWhile_imp (p := fun c => decide (c ≤ 32)) hc)

theorem skipBlank_append {b : List UInt8} (hb : Blank b) (l : List UInt8) : skipBlank (b ++ l) = skipBlank l := by
  unfold skipBlank
  rw [List.dropWhile_append_of_pos fun c hc => decide_eq_true (hb c hc)]

theorem skipBlank_cons {c : UInt8} (h : ¬ c ≤ 32) (l : List UInt8) : skipBlank (c :: l) = c :: l := by
  unfold skipBlank
  rw [List.dropWhile_cons_of_neg (by simpa using h)]

theorem take_ne_cons {c d : UInt8} (h : c ≠ d) (n : Nat) (l literal : List UInt8) :
    (c :: l).take (n + 1) ≠ d :: literal := by
  rw [List.take_succ_cons]
  intro e
  exact h (List.cons.inj e).1

theorem eq_append_of_take {l literal : List UInt8} {n : Nat} (h : l.take n = literal) : l = literal ++ l.drop n := by
  rw [← h, List.take_append_drop]

/-! ## strings and numbers -/

/-- What is behind the closing quote makes no difference. -/
theorem scanString_split {l : List UInt8} {length skipped : Nat} (h : scanString l = some (length, skipped)) :
    ∃ body rest, l = body ++ 0x22 :: rest ∧ body.length = length ∧
      ∀ rest', scanString (body ++ 0x22 :: rest') = some (length, skipped) := by
  induction l using scanString.induct generalizing length skipped with
  | case1 => cases h
  | case2 rest =>
    rw [scanString_quote] at h
    cases h
    exact ⟨[], rest, rfl, rfl, fun rest' => scanString_quote rest'⟩
  | case3 => cases h
  | case4 c rest hquote ih =>
    rw [scanString_escape] at h
    obtain ⟨⟨n, k⟩, hn, e⟩ := Option.map_eq_some_iff.mp h
    cases e
    obtain ⟨body, rest', rfl, hlength, hany⟩ := ih hn
    refine ⟨0x5C :: c :: body, rest', rfl, congrArg (· + 2) hlength, fun rest' => ?_⟩
    rw [List.cons_append, List.cons_append, scanString_escape, hany]
    rfl
  | case5 c rest hquote hslash ih =>
    rw [scanString_cons_of_ne hquote hslash] at h
    obtain ⟨⟨n, k⟩, hn, e⟩ := Option.map_eq_some_iff.mp h
    cases e
    obtain ⟨body, rest', rfl, hlength, hany⟩ := ih hn
    refine ⟨c :: body, rest', rfl, congrArg (· + 1) hlength, fun rest' => ?_⟩
    rw [List.cons_append, scanString_cons_of_ne hquote hslash, hany]
    rfl

theorem readString_complete {token s : List UInt8} (h : StringText token s) (rest : List UInt8) :
    readString (token ++ rest) = some (s, rest) := by
  obtain ⟨body, s, skipped, hends, hstands⟩ := h
  have hscan : scanString (body ++ 0x22 :: rest) = some (body.length, skipped) := by
    obtain ⟨body', rest', hbody, hlength, hany⟩ := scanString_split hends
    obtain ⟨rfl, -⟩ := List.append_inj hbody hlength.symm
    exact hany rest
  rw [List.cons_append, List.append_assoc, readString, if_neg (not_not.mpr rfl), List.singleton_append, hscan]
  dsimp only
  rw [List.take_left, hstands, List.append_cons, List.drop_left' (by rw [List.length_append, List.length_singleton])]
  rfl

theorem readString_sound {l s rest : List UInt8} (h : readString l = some (s, rest)) :
    ∃ token, l = token ++ rest ∧ StringText token s := by
  cases l with
  | nil => cases h
  | cons c l =>
    rw [readString] at h
    split at h
    · cases h
    · rename_i hc
      obtain rfl : c = 0x22 := not_not.mp hc
      split at h
      · cases h
      · rename_i length skipped hscan
        obtain ⟨s', hstands, e⟩ := Option.map_eq_some_iff.mp h
        cases e
        obtain ⟨body, rest, rfl, rfl, hany⟩ := scanString_split hscan
        rw [List.take_left] at hstands
        refine ⟨0x22 :: (body ++ [0x22]), ?_, StringText.quoted body _ skipped (hany []) hstands⟩
        rw [List.append_cons, List.drop_left' (by rw [List.length_append, List.length_singleton])]
        rfl

section
variable {N : Type} {strtod : Strtod N}

/-- a number ends here -/
def EndsNumber (rest : List UInt8) : Prop := rest.head?.all fun c => !isNumberByte c

theorem numberText_prefix (l : List UInt8) :
    ∃ rest, l = numberText l ++ rest ∧ (numberText l).length ≤ 63 ∧ ∀ c ∈ numberText l, isNumberByte c = true := by
  unfold numberText
  refine ⟨(l.take 63).dropWhile isNumberByte ++ l.drop 63, ?_, ?_, fun c hc => List.mem_takeWhile_imp hc⟩
  · rw [← List.append_assoc, List.takeWhile_append_dropWhile, List.take_append_drop]
  · exact Nat.le_trans (List.takeWhile_prefix _).length_le (List.length_take_le _ _)

theorem numberText_append {token rest : List UInt8} (hbytes : ∀ c ∈ token, isNumberByte c = true)
    (hlength : token.length ≤ 63) (hrest : EndsNumber rest) : numberText (token ++ rest) = token := by
  unfold numberText
  rw [List.take_append, List.take_of_length_le hlength, List.takeWhile_append_of_pos hbytes]
  have hnil : (rest.take (63 - token.length)).takeWhile isNumberByte = [] := by
    cases rest with
    | nil => rw [List.take_nil]; rfl
    | cons c rest =>
      have hc : isNumberByte c = false := by
        have := (Option.all_some ..).symm.trans hrest
        exact Bool.not_eq_true' _ |>.mp this
      cases hn : 63 - token.length with
      | zero => rfl
      | succ n => rw [List.take_succ_cons, List.takeWhile_cons_of_neg (by rw [hc]; decide)]
  rw [hnil, List.append_nil]

theorem readNumber_complete {token : List UInt8} {n : N} (h : NumberText strtod token n) {rest : List UInt8}
    (hrest : EndsNumber rest) : readNumber strtod (token ++ rest) = some (n, rest) := by
  have hne : token.length ≠ 0 := by
    intro e
    have hstart := h.start
    rw [List.length_eq_zero_iff.mp e] at hstart
    cases hstart
  unfold readNumber
  rw [numberText_append h.bytes h.length_le hrest, h.run]
  dsimp only
  rw [if_neg hne, List.drop_left]

theorem readNumber_sound {l rest : List UInt8} {n : N} (hstart : l.head?.any isNumberStart = true)
    (h : readNumber strtod l = some (n, rest)) : ∃ token, l = token ++ rest ∧ NumberText strtod token n := by
  obtain ⟨rest', hl, hlength, hbytes⟩ := numberText_prefix l
  unfold readNumber at h
  cases hrun : strtod.run (numberText l) with
  | mk number used =>
    rw [hrun] at h
    dsimp only at h
    split at h
    · cases h
    · rename_i hused
      cases h
      have hle := strtod.used_le (numberText l)
      have htake := strtod.run_used (numberText l)
      rw [hrun] at hle htake
      dsimp only at hle htake
      have hused_eq : (numberText l).take used = l.take used := by
        rw [hl, List.take_append_of_le_length hle]
        exact congrArg (List.take used) (congrArg numberText hl).symm
      refine ⟨(numberText l).take used, by rw [hused_eq, List.take_append_drop], ?_, fun c hc => ?_, ?_, ?_⟩
      · rw [hused_eq]
        cases l with
        | nil =>
          rw [List.take_nil]
          exact hstart
        | cons c l =>
          cases used with
          | zero => exact absurd rfl hused
          | succ used => exact hstart
      · exact hbytes c (List.mem_of_mem_take hc)
      · rw [List.length_take]
        omega
      · rw [htake, List.length_take, Nat.min_eq_left hle]

/-! ## what is read -/

theorem readContainer_some {α : Type} {opening closing : UInt8} {build : List α → Value N} {levels : Nat}
    {loop : Nat → List UInt8 → Option (List α × List UInt8)} {l rest : List UInt8} {v : Value N}
    (h : readContainer opening closing build levels loop l = some (v, rest)) :
    ∃ inner l', levels = inner + 1 ∧ l = opening :: l' ∧
      ((∃ b, Blank b ∧ l' = b ++ closing :: rest ∧ v = build []) ∨
        ∃ vs, loop inner l' = some (vs, rest) ∧ v = build vs) := by
  unfold readContainer at h
  split at h
  · rename_i inner c l'
    split at h
    · cases h
    · rename_i hc
      obtain rfl := not_not.mp hc
      refine ⟨inner, l', rfl, rfl, ?_⟩
      obtain ⟨b, hb, hl⟩ := exists_blank l'
      split at h
      · rename_i hclosing
        cases h
        refine Or.inl ⟨b, hb, ?_, rfl⟩
        obtain ⟨rest, hrest⟩ := List.head?_eq_some_iff.mp hclosing
        rw [hrest] at hl ⊢
        exact hl
      · obtain ⟨⟨vs, rest'⟩, hloop, e⟩ := Option.map_eq_some_iff.mp h
        cases e
        exact Or.inr ⟨vs, hloop, rfl⟩
  · cases h

theorem readAnother_some {α : Type} {closing : UInt8} {element : α}
    {loop : List UInt8 → Option (List α × List UInt8)} {l rest : List UInt8} {vs : List α}
    (h : readAnother closing element loop l = some (vs, rest)) :
    (∃ l' vs', l = 0x2C :: l' ∧ loop l' = some (vs', rest) ∧ vs = element :: vs') ∨
      l = closing :: rest ∧ vs = [element] := by
  unfold readAnother at h
  split at h
  · cases h
  · split at h
    · rename_i hc
      subst hc
      obtain ⟨⟨vs', rest'⟩, hloop, e⟩ := Option.map_eq_some_iff.mp h
      cases e
      exact Or.inl ⟨_, vs', rfl, hloop, rfl⟩
    · split at h
      · rename_i hc
        subst hc
        cases h
        exact Or.inr ⟨rfl, rfl⟩
      · cases h

section
variable (strtod) (fuel : Nat)

def SoundValue : Prop := ∀ levels l v rest, readValue strtod fuel levels l = some (v, rest) →
  ∃ token, l = token ++ rest ∧ Text strtod levels token v

def SoundElements : Prop := ∀ levels l vs rest, readElements strtod fuel levels l = some (vs, rest) →
  ∃ token, l = token ++ rest ∧ Elements strtod levels token vs

def SoundMembers : Prop := ∀ levels l vs rest, readMembers strtod fuel levels l = some (vs, rest) →
  ∃ token, l = token ++ rest ∧ Members strtod levels token vs

end

theorem readValue_sound {fuel : Nat} (helements : SoundElements strtod fuel) (hmembers : SoundMembers strtod fuel) :
    SoundValue strtod (fuel + 1) := by
  intro levels l v rest h
  rw [readValue] at h
  split at h
  · rename_i hliteral
    cases h
    exact ⟨nullText, eq_append_of_take hliteral, Text.null levels⟩
  · split at h
    · rename_i hliteral
      cases h
      exact ⟨falseText, eq_append_of_take hliteral, Text.falsity levels⟩
    · split at h
      · rename_i hliteral
        cases h
        exact ⟨trueText, eq_append_of_take hliteral, Text.truth levels⟩
      · split at h
        · obtain ⟨⟨s, rest'⟩, hs, e⟩ := Option.map_eq_some_iff.mp h
          cases e
          obtain ⟨token, hl, htoken⟩ := readString_sound hs
          exact ⟨token, hl, Text.string levels token s htoken⟩
        · split at h
          · rename_i hstart
            obtain ⟨⟨n, rest'⟩, hn, e⟩ := Option.map_eq_some_iff.mp h
            cases e
            obtain ⟨token, hl, htoken⟩ := readNumber_sound hstart hn
            exact ⟨token, hl, Text.number levels token n htoken⟩
          · split at h
            · obtain ⟨inner, l', rfl, rfl, ⟨b, hb, rfl, rfl⟩ | ⟨vs, hvs, rfl⟩⟩ := readContainer_some h
              · exact ⟨0x5B :: (b ++ [0x5D]), by simp, Text.emptyArray inner b hb⟩
              · obtain ⟨token, rfl, htoken⟩ := helements inner l' vs rest hvs
                exact ⟨0x5B :: token, rfl, Text.array inner token vs htoken⟩
            · split at h
              · obtain ⟨inner, l', rfl, rfl, ⟨b, hb, rfl, rfl⟩ | ⟨vs, hvs, rfl⟩⟩ := readContainer_some h
                · exact ⟨0x7B :: (b ++ [0x7D]), by simp, Text.emptyObject inner b hb⟩
                · obtain ⟨token, rfl, htoken⟩ := hmembers inner l' vs rest hvs
                  exact ⟨0x7B :: token, rfl, Text.object inner token vs htoken⟩
              · cases h

theorem readElements_sound {fuel : Nat} (hvalue : SoundValue strtod fuel) (helements : SoundElements strtod fuel) :
    SoundElements strtod (fuel + 1) := by
  intro levels l vs rest h
  rw [readElements] at h
  split at h
  · cases h
  · rename_i v rest' hv
    obtain ⟨token, hl', htoken⟩ := hvalue _ _ _ _ hv
    obtain ⟨b, hb, hl⟩ := exists_blank l
    obtain ⟨b', hb', hrest'⟩ := exists_blank rest'
    rw [hl, hl', hrest']
    rcases readAnother_some h with ⟨l', vs', e, hloop, rfl⟩ | ⟨e, rfl⟩
    · obtain ⟨token', rfl, htoken'⟩ := helements _ _ _ _ hloop
      rw [e]
      exact ⟨_, by simp, Elements.more levels b token b' token' v vs' hb htoken hb' htoken'⟩
    · rw [e]
      exact ⟨_, by simp, Elements.last levels b token b' v hb htoken hb'⟩

theorem readMembers_sound {fuel : Nat} (hvalue : SoundValue strtod fuel) (hmembers : SoundMembers strtod fuel) :
    SoundMembers strtod (fuel + 1) := by
  intro levels l vs rest h
  rw [readMembers] at h
  split at h
  · cases h
  · rename_i s rest₁ hs
    obtain ⟨name, hl', hname⟩ := readString_sound hs
    obtain ⟨b, hb, hl⟩ := exists_blank l
    obtain ⟨b₁, hb₁, hrest₁⟩ := exists_blank rest₁
    split at h
    · cases h
    · rename_i c rest₂ hcolon
      split at h
      · cases h
      · rename_i hc
        obtain rfl := not_not.mp hc
        split at h
        · cases h
        · rename_i v rest₃ hv
          obtain ⟨token, hrest₂', htoken⟩ := hvalue _ _ _ _ hv
          obtain ⟨b₂, hb₂, hrest₂⟩ := exists_blank rest₂
          obtain ⟨b', hb', hrest₃⟩ := exists_blank rest₃
          rw [hl, hl', hrest₁, hcolon, hrest₂, hrest₂', hrest₃]
          rcases readAnother_some h with ⟨l', vs', e, hloop, rfl⟩ | ⟨e, rfl⟩
          · obtain ⟨token', rfl, htoken'⟩ := hmembers _ _ _ _ hloop
            rw [e]
            exact ⟨_, by simp, Members.more levels b name b₁ b₂ token b' s token' v vs' hb hname hb₁ hb₂ htoken hb' htoken'⟩
          · rw [e]
            exact ⟨_, by simp, Members.last levels b name b₁ b₂ token b' s v hb hname hb₁ hb₂ htoken hb'⟩

theorem read_sound (fuel : Nat) : SoundValue strtod fuel ∧ SoundElements strtod fuel ∧ SoundMembers strtod fuel := by
  induction fuel with
  | zero => exact ⟨fun _ _ _ _ h => (by cases h), fun _ _ _ _ h => (by cases h), fun _ _ _ _ h => (by cases h)⟩
  | succ fuel ih =>
    obtain ⟨hvalue, helements, hmembers⟩ := ih
    exact ⟨readValue_sound helements hmembers, readElements_sound hvalue helements, readMembers_sound hvalue hmembers⟩

/-! ## what is a text is read -/

theorem isNumberByte_blank {c : UInt8} (h : c ≤ 32) : isNumberByte c = false := by
  have hall : ∀ n : Fin 256, UInt8.ofNat n ≤ 32 → isNumberByte (UInt8.ofNat n) = false := by decide +kernel
  have hc := hall ⟨c.toNat, c.toNat_lt⟩
  rw [UInt8.ofNat_toNat] at hc
  exact hc h

theorem isNumberStart_head {c : UInt8} (h : isNumberStart c = true) :
    (¬ c ≤ 32 ∧ c ≠ 0x5D ∧ c ≠ 0xEF) ∧ c ≠ 0x22 ∧ c ≠ 0x6E ∧ c ≠ 0x66 ∧ c ≠ 0x74 := by
  have hall : ∀ n : Fin 256, isNumberStart (UInt8.ofNat n) = true →
      (¬ UInt8.ofNat n ≤ 32 ∧ UInt8.ofNat n ≠ 0x5D ∧ UInt8.ofNat n ≠ 0xEF) ∧
        UInt8.ofNat n ≠ 0x22 ∧ UInt8.ofNat n ≠ 0x6E ∧ UInt8.ofNat n ≠ 0x66 ∧ UInt8.ofNat n ≠ 0x74 := by decide +kernel
  have hc := hall ⟨c.toNat, c.toNat_lt⟩
  rw [UInt8.ofNat_toNat] at hc
  exact hc h

theorem endsNumber_blank {b : List UInt8} (hb : Blank b) {c : UInt8} (hc : isNumberByte c = false) (rest : List UInt8) :
    EndsNumber (b ++ c :: rest) := by
  cases b with
  | nil => exact Bool.not_eq_true' _ |>.mpr hc
  | cons d b => exact Bool.not_eq_true' _ |>.mpr (isNumberByte_blank (hb d List.mem_cons_self))

theorem StringText.head {token s : List UInt8} (h : StringText token s) : ∃ rest, token = 0x22 :: rest := by
  obtain ⟨body, s, skipped, _, _⟩ := h
  exact ⟨_, rfl⟩

/-- The first byte of a text is neither blank nor a closing bracket, and no byte order mark begins with it. -/
theorem Text.head {levels : Nat} {token : List UInt8} {v : Value N} (h : Text strtod levels token v) :
    ∃ c rest, token = c :: rest ∧ ¬ c ≤ 32 ∧ c ≠ 0x5D ∧ c ≠ 0xEF := by
  cases h with
  | null => exact ⟨_, _, rfl, by decide⟩
  | falsity => exact ⟨_, _, rfl, by decide⟩
  | truth => exact ⟨_, _, rfl, by decide⟩
  | string levels token s h =>
    obtain ⟨rest, rfl⟩ := h.head
    exact ⟨_, _, rfl, by decide⟩
  | number levels token n h =>
    have hstart := h.start
    cases token with
    | nil => cases hstart
    | cons c token => exact ⟨c, token, rfl, (isNumberStart_head hstart).1⟩
  | emptyArray => exact ⟨_, _, rfl, by decide⟩
  | array => exact ⟨_, _, rfl, by decide⟩
  | emptyObject => exact ⟨_, _, rfl, by decide⟩
  | object => exact ⟨_, _, rfl, by decide⟩

/-- what is no literal -/
theorem readValue_cons (fuel levels : Nat) {c : UInt8} (hn : c ≠ 0x6E) (hf : c ≠ 0x66) (ht : c ≠ 0x74) (l : List UInt8) :
    readValue strtod (fuel + 1) levels (c :: l) =
      if c = 0x22 then (readString (c :: l)).map fun r => (.str (cText r.1), r.2)
      else if isNumberStart c then (readNumber strtod (c :: l)).map fun r => (.num r.1, r.2)
      else if c = 0x5B then readContainer 0x5B 0x5D .arr levels (readElements strtod fuel) (c :: l)
      else if c = 0x7B then readContainer 0x7B 0x7D .obj levels (readMembers strtod fuel) (c :: l)
      else none := by
  have hnull : (c :: l).take 4 ≠ nullText := take_ne_cons hn 3 l _
  have hfalse : (c :: l).take 5 ≠ falseText := take_ne_cons hf 4 l _
  have htrue : (c :: l).take 4 ≠ trueText := take_ne_cons ht 3 l _
  rw [readValue, if_neg hnull, if_neg hfalse, if_neg htrue]
  simp only [List.head?_cons, Option.some.injEq, Option.any_some]
  rfl

theorem readContainer_empty {α : Type} (opening closing : UInt8) (build : List α → Value N) (levels : Nat)
    (loop : Nat → List UInt8 → Option (List α × List UInt8)) {b : List UInt8} (hb : Blank b) (hclosing : ¬ closing ≤ 32)
    (rest : List UInt8) :
    readContainer opening closing build (levels + 1) loop (opening :: (b ++ closing :: rest))
      = some (build [], rest) := by
  rw [readContainer, if_neg (not_not.mpr rfl), skipBlank_append hb, skipBlank_cons hclosing]
  exact if_pos rfl

theorem readContainer_cons {α : Type} (opening : UInt8) {closing : UInt8} (build : List α → Value N) (levels : Nat)
    (loop : Nat → List UInt8 → Option (List α × List UInt8)) {b : List UInt8} (hb : Blank b) {c : UInt8}
    (hc : ¬ c ≤ 32) (hclosing : c ≠ closing) {rest : List UInt8} {r : List α × List UInt8}
    (hloop : loop levels (b ++ c :: rest) = some r) :
    readContainer opening closing build (levels + 1) loop (opening :: (b ++ c :: rest)) = some (build r.1, r.2) := by
  rw [readContainer, if_neg (not_not.mpr rfl), skipBlank_append hb, skipBlank_cons hc, hloop]
  exact if_neg fun e => hclosing (Option.some.inj e)

theorem readAnother_last {α : Type} {closing : UInt8} (hclosing : closing ≠ 0x2C) (element : α)
    (loop : List UInt8 → Option (List α × List UInt8)) (rest : List UInt8) :
    readAnother closing element loop (closing :: rest) = some ([element], rest) := by
  rw [readAnother, if_neg hclosing, if_pos rfl]

theorem readAnother_more {α : Type} (closing : UInt8) (element : α) {loop : List UInt8 → Option (List α × List UInt8)}
    {l : List UInt8} {r : List α × List UInt8} (h : loop l = some r) :
    readAnother closing element loop (0x2C :: l) = some (element :: r.1, r.2) := by
  rw [readAnother, if_pos rfl, h]
  rfl

/-- the elements begin with one -/
theorem Elements.head {levels : Nat} {token : List UInt8} {l : List (Value N)} (h : Elements strtod levels token l) :
    ∃ b c rest, token = b ++ c :: rest ∧ Blank b ∧ ¬ c ≤ 32 ∧ c ≠ 0x5D := by
  cases h with
  | last levels b token b' v hb h hb' =>
    obtain ⟨c, rest, rfl, hc, hclosing, -⟩ := h.head
    exact ⟨b, c, _, rfl, hb, hc, hclosing⟩
  | more levels b token b' rest v l hb h hb' hrest =>
    obtain ⟨c, rest, rfl, hc, hclosing, -⟩ := h.head
    exact ⟨b, c, _, rfl, hb, hc, hclosing⟩

theorem Members.head {levels : Nat} {token : List UInt8} {l : List (List UInt8 × Value N)}
    (h : Members strtod levels token l) : ∃ b rest, token = b ++ 0x22 :: rest ∧ Blank b := by
  cases h with
  | last levels b name b₁ b₂ token b' s v hb hname hb₁ hb₂ h hb' =>
    obtain ⟨rest, rfl⟩ := hname.head
    exact ⟨b, _, rfl, hb⟩
  | more levels b name b₁ b₂ token b' s rest v l hb hname hb₁ hb₂ h hb' hrest =>
    obtain ⟨rest, rfl⟩ := hname.head
    exact ⟨b, _, rfl, hb⟩

theorem skipBlank_text {b : List UInt8} (hb : Blank b) {levels : Nat} {token : List UInt8} {v : Value N}
    (h : Text strtod levels token v) (rest : List UInt8) : skipBlank (b ++ (token ++ rest)) = token ++ rest := by
  obtain ⟨c, l, rfl, hc, -⟩ := h.head
  rw [skipBlank_append hb, List.cons_append, skipBlank_cons hc]

section
variable (strtod) (fuel : Nat)

def CompleteValue : Prop := ∀ levels token v, Text strtod levels token v → 2 * token.length < fuel → ∀ rest,
  ((∃ n, v = .num n) → EndsNumber rest) → readValue strtod fuel levels (token ++ rest) = some (v, rest)

def CompleteElements : Prop := ∀ levels token vs, Elements strtod levels token vs → 2 * token.length ≤ fuel → ∀ rest,
  readElements strtod fuel levels (token ++ rest) = some (vs, rest)

def CompleteMembers : Prop := ∀ levels token vs, Members strtod levels token vs → 2 * token.length ≤ fuel → ∀ rest,
  readMembers strtod fuel levels (token ++ rest) = some (vs, rest)

end

theorem readValue_complete {fuel : Nat} (helements : CompleteElements strtod fuel)
    (hmembers : CompleteMembers strtod fuel) : CompleteValue strtod (fuel + 1) := by
  intro levels token v h hf rest hrest
  cases h with
  | null => rfl
  | falsity => rfl
  | truth => rfl
  | string levels token s h =>
    have hread := readString_complete h rest
    obtain ⟨l, rfl⟩ := h.head
    rw [List.cons_append] at hread ⊢
    rw [readValue_cons fuel levels (by decide) (by decide) (by decide), if_pos rfl, hread]
    rfl
  | number levels token n h =>
    have hread := readNumber_complete h (hrest ⟨n, rfl⟩)
    have hstart := h.start
    cases token with
    | nil => cases hstart
    | cons c token =>
      rw [List.head?_cons, Option.any_some] at hstart
      obtain ⟨-, hquote, hn, hf, ht⟩ := isNumberStart_head hstart
      rw [List.cons_append] at hread ⊢
      rw [readValue_cons fuel levels hn hf ht, if_neg hquote, if_pos hstart, hread]
      rfl
  | emptyArray levels b hb =>
    rw [List.cons_append, List.append_assoc, readValue_cons fuel _ (by decide) (by decide) (by decide)]
    exact readContainer_empty 0x5B 0x5D .arr levels _ hb (by decide) rest
  | array levels token l h =>
    rw [List.length_cons] at hf
    have hread := helements _ _ _ h (by omega) rest
    obtain ⟨b, c, token, rfl, hb, hc, hclosing⟩ := h.head
    rw [List.append_assoc, List.cons_append] at hread
    rw [List.cons_append, List.append_assoc, List.cons_append,
      readValue_cons fuel _ (by decide) (by decide) (by decide)]
    exact readContainer_cons 0x5B .arr levels _ hb hc hclosing hread
  | emptyObject levels b hb =>
    rw [List.cons_append, List.append_assoc, readValue_cons fuel _ (by decide) (by decide) (by decide)]
    exact readContainer_empty 0x7B 0x7D .obj levels _ hb (by decide) rest
  | object levels token l h =>
    rw [List.length_cons] at hf
    have hread := hmembers _ _ _ h (by omega) rest
    obtain ⟨b, token, rfl, hb⟩ := h.head
    rw [List.append_assoc, List.cons_append] at hread
    rw [List.cons_append, List.append_assoc, List.cons_append,
      readValue_cons fuel _ (by decide) (by decide) (by decide)]
    exact readContainer_cons 0x7B .obj levels _ hb (by decide) (by decide) hread

theorem readElements_complete {fuel : Nat} (hvalue : CompleteValue strtod fuel)
    (helements : CompleteElements strtod fuel) : CompleteElements strtod (fuel + 1) := by
  intro levels token vs h hf rest
  cases h with
  | last levels b token b' v hb h hb' =>
    simp only [List.length_append, List.length_singleton] at hf
    have hread := hvalue _ _ _ h (by omega) (b' ++ 0x5D :: rest) fun _ => endsNumber_blank hb' (by decide) rest
    simp only [List.append_assoc, List.singleton_append]
    rw [readElements, skipBlank_text hb h, hread]
    dsimp only
    rw [skipBlank_append hb', skipBlank_cons (by decide), readAnother_last (by decide)]
  | more levels b token b' rest' v l hb h hb' hrest =>
    simp only [List.length_append, List.length_cons] at hf
    have hread := hvalue _ _ _ h (by omega) (b' ++ 0x2C :: (rest' ++ rest)) fun _ =>
      endsNumber_blank hb' (by decide) _
    have hloop := helements _ _ _ hrest (by omega) rest
    simp only [List.append_assoc, List.cons_append]
    rw [readElements, skipBlank_text hb h, hread]
    dsimp only
    rw [skipBlank_append hb', skipBlank_cons (by decide), readAnother_more 0x5D v hloop]

theorem readMembers_complete {fuel : Nat} (hvalue : CompleteValue strtod fuel)
    (hmembers : CompleteMembers strtod fuel) : CompleteMembers strtod (fuel + 1) := by
  intro levels token vs h hf rest
  cases h with
  | last levels b name b₁ b₂ token b' s v hb hname hb₁ hb₂ h hb' =>
    simp only [List.length_append, List.length_cons, List.length_nil] at hf
    have hread := hvalue _ _ _ h (by omega) (b' ++ 0x7D :: rest) fun _ => endsNumber_blank hb' (by decide) rest
    have hstring := readString_complete hname (b₁ ++ 0x3A :: (b₂ ++ (token ++ (b' ++ 0x7D :: rest))))
    obtain ⟨l, rfl⟩ := hname.head
    simp only [List.append_assoc, List.cons_append, List.nil_append] at hstring ⊢
    rw [readMembers, skipBlank_append hb, skipBlank_cons (by decide), hstring]
    dsimp only
    rw [skipBlank_append hb₁, skipBlank_cons (by decide)]
    dsimp only
    rw [if_neg (not_not.mpr rfl), skipBlank_text hb₂ h, hread]
    dsimp only
    rw [skipBlank_append hb', skipBlank_cons (by decide), readAnother_last (by decide)]
  | more levels b name b₁ b₂ token b' s rest' v l hb hname hb₁ hb₂ h hb' hrest =>
    simp only [List.length_append, List.length_cons] at hf
    have hread := hvalue _ _ _ h (by omega) (b' ++ 0x2C :: (rest' ++ rest)) fun _ =>
      endsNumber_blank hb' (by decide) _
    have hloop := hmembers _ _ _ hrest (by omega) rest
    have hstring := readString_complete hname (b₁ ++ 0x3A :: (b₂ ++ (token ++ (b' ++ 0x2C :: (rest' ++ rest)))))
    obtain ⟨l, rfl⟩ := hname.head
    simp only [List.append_assoc, List.cons_append] at hstring ⊢
    rw [readMembers, skipBlank_append hb, skipBlank_cons (by decide), hstring]
    dsimp only
    rw [skipBlank_append hb₁, skipBlank_cons (by decide)]
    dsimp only
    rw [if_neg (not_not.mpr rfl), skipBlank_text hb₂ h, hread]
    dsimp only
    rw [skipBlank_append hb', skipBlank_cons (by decide), readAnother_more 0x7D _ hloop]

theorem read_complete (fuel : Nat) :
    CompleteValue strtod fuel ∧ CompleteElements strtod fuel ∧ CompleteMembers strtod fuel := by
  induction fuel with
  | zero =>
    refine ⟨fun _ _ _ _ h => absurd h (Nat.not_lt_zero _), fun _ _ _ h hf => ?_, fun _ _ _ h hf => ?_⟩
    · obtain ⟨b, c, rest, rfl, -⟩ := h.head
      rw [List.length_append, List.length_cons] at hf
      omega
    · obtain ⟨b, rest, rfl, -⟩ := h.head
      rw [List.length_append, List.length_cons] at hf
      omega
  | succ fuel ih =>
    obtain ⟨hvalue, helements, hmembers⟩ := ih
    exact ⟨readValue_complete helements hmembers, readElements_complete hvalue helements,
      readMembers_complete hvalue hmembers⟩

/-! ## a whole text -/

/-- what a text begins with that is no value: the byte order mark, if there is one, and blanks -/
def Lead (lead : List UInt8) : Prop := ∃ mark b, lead = mark ++ b ∧ (mark = [] ∨ mark = byteOrderMark) ∧ Blank b

theorem readText_sound {text : List UInt8} {v : Value N} {n : Nat} (h : readText strtod text = some (v, n)) :
    ∃ lead token rest, text = lead ++ (token ++ rest) ∧ Lead lead ∧ Text strtod nestingLimit token v ∧
      n = (lead ++ token).length := by
  have hparts : ∀ mark start, text = mark ++ start → (mark = [] ∨ mark = byteOrderMark) →
      (readValue strtod (2 * text.length + 2 + 2) nestingLimit (skipBlank start)).map
        (fun r => (r.1, text.length - r.2.length)) = some (v, n) →
      ∃ lead token rest, text = lead ++ (token ++ rest) ∧ Lead lead ∧ Text strtod nestingLimit token v ∧
        n = (lead ++ token).length := by
    intro mark start htext hmark hread
    obtain ⟨⟨v', rest⟩, hvalue, e⟩ := Option.map_eq_some_iff.mp hread
    cases e
    obtain ⟨b, hb, hstart⟩ := exists_blank start
    obtain ⟨token, hskip, htoken⟩ := (read_sound _).1 _ _ _ _ hvalue
    have heq : text = (mark ++ b) ++ (token ++ rest) := by rw [List.append_assoc, ← hskip, ← hstart, htext]
    refine ⟨mark ++ b, token, rest, heq, ⟨mark, b, rfl, hmark, hb⟩, htoken, ?_⟩
    rw [heq]
    simp only [List.length_append]
    omega
  unfold readText at h
  dsimp only at h
  split at h
  · rename_i hmark
    exact hparts byteOrderMark _ (eq_append_of_take hmark.2) (Or.inr rfl) h
  · exact hparts [] text rfl (Or.inl rfl) h

theorem readText_complete {lead token rest : List UInt8} {v : Value N} (hlead : Lead lead)
    (h : Text strtod nestingLimit token v) (hrest : (∃ n, v = .num n) → EndsNumber rest) :
    readText strtod (lead ++ (token ++ rest)) = some (v, (lead ++ token).length) := by
  obtain ⟨mark, b, rfl, hmark, hb⟩ := hlead
  have hstart : (if 4 ≤ ((mark ++ b) ++ (token ++ rest)).length ∧ ((mark ++ b) ++ (token ++ rest)).take 3 = byteOrderMark
      then ((mark ++ b) ++ (token ++ rest)).drop 3 else (mark ++ b) ++ (token ++ rest)) = b ++ (token ++ rest) := by
    obtain ⟨c, l, rfl, hc, -, hmark'⟩ := h.head
    rcases hmark with rfl | rfl
    · refine if_neg fun hm => ?_
      replace hm := hm.2
      rw [List.nil_append] at hm
      cases b with
      | nil => exact take_ne_cons hmark' 2 _ _ hm
      | cons d b =>
        refine take_ne_cons (d := 0xEF) (fun e => ?_) 2 _ _ hm
        have hd := hb d List.mem_cons_self
        rw [e] at hd
        exact absurd hd (by decide)
    · refine (if_pos ⟨?_, rfl⟩).trans rfl
      simp only [List.length_append, List.length_cons]
      have hlength : byteOrderMark.length = 3 := rfl
      omega
  have hread := (read_complete (2 * ((mark ++ b) ++ (token ++ rest)).length + 2 + 2)).1 _ _ _ h
    (by simp only [List.length_append]; omega) rest hrest
  unfold readText
  rw [hstart]
  dsimp only
  rw [skipBlank_text hb h, hread, Option.map_some]
  refine congrArg (fun n => some (v, n)) ?_
  simp only [List.length_append]
  omega

/-- The texts of all values but numbers are known exactly. -/
theorem readText_iff {text : List UInt8} {v : Value N} (hv : ¬ ∃ n, v = .num n) (n : Nat) :
    readText strtod text = some (v, n) ↔ ∃ lead token rest, text = lead ++ (token ++ rest) ∧ Lead lead ∧
      Text strtod nestingLimit token v ∧ n = (lead ++ token).length := by
  constructor
  · exact readText_sound
  · rintro ⟨lead, token, rest, rfl, hlead, htoken, rfl⟩
    exact readText_complete hlead htoken fun hnum => absurd hnum hv

end

end Cjet.JsonText
