import Cjet.JsonText.Parse

/-!
# JSON texts as `json/cJSON.c` reads them

What the parser makes of a text, without the memory: it reads from the front of a list and leaves a rest.

* `unescapeText`, `readString`, `readNumber`     the tokens;
* `readValue`              the values, for a number of levels that may be opened;
* `plain`                  how much room is made for a string, and `escapeSequence_le`, that it is enough;
* `unescape_eq`            the loop of `parse_string` stays within it.
-/

set_option linter.unusedVariables false

namespace Cjet.JsonText
open Stateful Prog

def skipBlank (l : List UInt8) : List UInt8 := l.dropWhile (· ≤ 32)

/-! ## strings -/

/-- the string that the bytes between the quotes stand for -/
def unescapeText : Nat → List UInt8 → Option (List UInt8)
  | 0, _ => none
  | _ + 1, [] => some []
  | fuel + 1, c :: rest =>
    if c ≠ 0x5C then (unescapeText fuel rest).map (c :: ·)
    else
      match escapeSequence (c :: rest) with
      | none => none
      | some (bytes, length) => (unescapeText fuel ((c :: rest).drop length)).map (bytes ++ ·)

def readString : List UInt8 → Option (List UInt8 × List UInt8)
  | [] => none
  | c :: rest =>
    if c ≠ 0x22 then none
    else
      match scanString rest with
      | none => none
      | some (length, _) => (unescapeText (length + 1) (rest.take length)).map (·, rest.drop (length + 1))

/-- how much room `parse_string` makes for what follows -/
def plain : List UInt8 → Nat
  | [] => 0
  | c :: rest =>
    if c = 0x5C then
      match rest with
      | [] => 1
      | _ :: rest => 1 + plain rest
    else 1 + plain rest

theorem plain_cons_of_ne {c : UInt8} (h : c ≠ 0x5C) (rest : List UInt8) : plain (c :: rest) = 1 + plain rest := by
  rw [plain.eq_def]
  exact if_neg h

theorem plain_escape (c : UInt8) (rest : List UInt8) : plain (0x5C :: c :: rest) = 1 + plain rest := rfl

theorem plain_le_cons (c : UInt8) (l : List UInt8) : plain l ≤ plain (c :: l) ∧ plain (c :: l) ≤ 1 + plain l := by
  induction l generalizing c with
  | nil =>
    by_cases hc : c = 0x5C
    · subst hc
      exact ⟨by decide, by decide⟩
    · rw [plain_cons_of_ne hc]
      omega
  | cons d l ih =>
    by_cases hc : c = 0x5C
    · subst hc
      have hd := ih d
      rw [plain_escape]
      omega
    · rw [plain_cons_of_ne hc]
      omega

theorem plain_drop_le (n : Nat) (l : List UInt8) : plain (l.drop n) ≤ plain l := by
  induction n generalizing l with
  | zero => exact Nat.le_refl _
  | succ n ih =>
    cases l with
    | nil => exact Nat.le_refl _
    | cons c l =>
      rw [List.drop_succ_cons]
      exact Nat.le_trans (ih l) (plain_le_cons c l).1

theorem scanString_quote (rest : List UInt8) : scanString (0x22 :: rest) = some (0, 0) := by
  rw [scanString.eq_def]
  rfl

theorem scanString_escape (c : UInt8) (rest : List UInt8) :
    scanString (0x5C :: c :: rest) = (scanString rest).map fun n => (n.1 + 2, n.2 + 1) := rfl

theorem scanString_cons_of_ne {c : UInt8} (hquote : c ≠ 0x22) (hslash : c ≠ 0x5C) (rest : List UInt8) :
    scanString (c :: rest) = (scanString rest).map fun n => (n.1 + 1, n.2) := by
  rw [scanString.eq_def]
  exact (if_neg hquote).trans (if_neg hslash)

/-- The room that is counted is the room that is made. -/
theorem scanString_some {l : List UInt8} {length skipped : Nat} (h : scanString l = some (length, skipped)) :
    length < l.length ∧ plain (l.take length) + skipped = length := by
  induction l using scanString.induct generalizing length skipped with
  | case1 => cases h
  | case2 rest =>
    rw [scanString_quote] at h
    cases h
    exact ⟨Nat.succ_pos _, rfl⟩
  | case3 => cases h
  | case4 c rest hquote ih =>
    rw [scanString_escape] at h
    obtain ⟨⟨n, k⟩, hn, e⟩ := Option.map_eq_some_iff.mp h
    cases e
    obtain ⟨hlt, hplain⟩ := ih hn
    rw [List.length_cons, List.length_cons, List.take_succ_cons, List.take_succ_cons, plain_escape]
    dsimp only
    omega
  | case5 c rest hquote hslash ih =>
    rw [scanString_cons_of_ne hquote hslash] at h
    obtain ⟨⟨n, k⟩, hn, e⟩ := Option.map_eq_some_iff.mp h
    cases e
    obtain ⟨hlt, hplain⟩ := ih hn
    rw [List.length_cons, List.take_succ_cons, plain_cons_of_ne hslash]
    dsimp only
    omega

/-- The zero byte behind the text is no quote. -/
theorem scanString_append_zero (l : List UInt8) : scanString (l ++ [0]) = scanString l := by
  induction l using scanString.induct with
  | case1 => rfl
  | case2 rest => rw [List.cons_append, scanString_quote, scanString_quote]
  | case3 => rfl
  | case4 c rest hquote ih => rw [List.cons_append, List.cons_append, scanString_escape, scanString_escape, ih]
  | case5 c rest hquote hslash ih =>
    rw [List.cons_append, scanString_cons_of_ne hquote hslash, scanString_cons_of_ne hquote hslash, ih]

/-! ## escape sequences -/

theorem hexDigit_slash : hexDigit 0x5C = none := by decide

theorem notMem_of_foldlM {l : List UInt8} {h n : Nat}
    (hn : l.foldlM (fun h c => (hexDigit c).map (16 * h + ·)) h = some n) : 0x5C ∉ l := by
  induction l generalizing h with
  | nil => exact List.not_mem_nil
  | cons c l ih =>
    rw [List.foldlM_cons] at hn
    obtain ⟨h', hc, hl⟩ := Option.bind_eq_some_iff.mp hn
    obtain ⟨digit, hdigit, _⟩ := Option.map_eq_some_iff.mp hc
    intro hmem
    rcases List.mem_cons.mp hmem with rfl | hmem
    · rw [hexDigit_slash] at hdigit
      cases hdigit
    · exact ih hl hmem

theorem plain_append {l : List UInt8} (h : 0x5C ∉ l) (rest : List UInt8) :
    plain (l ++ rest) = l.length + plain rest := by
  induction l with
  | nil => rw [List.nil_append, List.length_nil, Nat.zero_add]
  | cons c l ih =>
    rw [List.cons_append, plain_cons_of_ne fun e => h (e ▸ List.mem_cons_self),
      ih fun hm => h (List.mem_cons_of_mem c hm), List.length_cons]
    omega

/-- a code that is not zero has four digits -/
theorem plain_parseHex4 {input : List UInt8} (hlength : 4 ≤ input.length) (h : parseHex4 input ≠ 0) :
    plain input = 4 + plain (input.drop 4) := by
  have hdigits : 0x5C ∉ input.take 4 := by
    unfold parseHex4 at h
    cases hn : (input.take 4).foldlM (fun h c => (hexDigit c).map (16 * h + ·)) 0 with
    | none =>
      rw [hn] at h
      exact absurd rfl h
    | some n => exact notMem_of_foldlM hn
  have happend := plain_append hdigits (input.drop 4)
  rwa [List.take_append_drop, List.length_take, Nat.min_eq_left hlength] at happend

theorem hexDigit_lt {c : UInt8} {n : Nat} (h : hexDigit c = some n) : n < 16 := by
  have hall : ∀ m : Fin 256, (hexDigit (UInt8.ofNat m)).all (· < 16) = true := by decide +kernel
  have hc := hall ⟨c.toNat, c.toNat_lt⟩
  rw [UInt8.ofNat_toNat, h] at hc
  exact of_decide_eq_true hc

theorem foldlM_lt {l : List UInt8} {h n : Nat}
    (hn : l.foldlM (fun h c => (hexDigit c).map (16 * h + ·)) h = some n) : n < 16 ^ l.length * (h + 1) := by
  induction l generalizing h with
  | nil =>
    cases hn
    rw [List.length_nil, Nat.pow_zero, Nat.one_mul]
    exact Nat.lt_succ_self _
  | cons c l ih =>
    rw [List.foldlM_cons] at hn
    obtain ⟨h', hc, hl⟩ := Option.bind_eq_some_iff.mp hn
    obtain ⟨digit, hdigit, rfl⟩ := Option.map_eq_some_iff.mp hc
    have hlt := hexDigit_lt hdigit
    refine Nat.lt_of_lt_of_le (ih hl) ?_
    rw [List.length_cons, Nat.pow_succ, Nat.mul_assoc]
    exact Nat.mul_le_mul_left _ (by omega)

theorem parseHex4_lt (input : List UInt8) : parseHex4 input < 0x10000 := by
  unfold parseHex4
  cases hn : (input.take 4).foldlM (fun h c => (hexDigit c).map (16 * h + ·)) 0 with
  | none => exact (by decide : 0 < 0x10000)
  | some n =>
    refine Nat.lt_of_lt_of_le (foldlM_lt hn) ?_
    rw [Nat.mul_one]
    exact Nat.pow_le_pow_right (by decide : 0 < 16) (List.length_take_le 4 input)

theorem length_encodeUtf8 {codepoint : Nat} {bytes : List UInt8} (h : encodeUtf8 codepoint = some bytes) :
    bytes.length ≤ 4 ∧ (codepoint < 0x80 → bytes.length = 1) ∧ (codepoint < 0x10000 → bytes.length ≤ 3) := by
  unfold encodeUtf8 at h
  split at h
  · cases h
    refine ⟨?_, fun _ => rfl, fun _ => ?_⟩ <;> exact Nat.le_add_left 1 _
  · split at h
    · cases h
      refine ⟨?_, fun _ => by omega, fun _ => ?_⟩ <;> exact Nat.le_add_left 2 _
    · split at h
      · cases h
        exact ⟨Nat.le_add_left 3 1, fun _ => by omega, fun _ => Nat.le_refl 3⟩
      · split at h
        · cases h
          exact ⟨Nat.le_refl 4, fun _ => by omega, fun _ => by omega⟩
        · cases h

/-- what `utf16_literal_to_utf8` writes and uses -/
theorem utf16LiteralToUtf8_some {input bytes : List UInt8} {length : Nat}
    (h : utf16LiteralToUtf8 input = some (bytes, length)) :
    (length = 6 ∧ 6 ≤ input.length ∧ (parseHex4 (input.drop 2) = 0 → bytes.length = 1) ∧ bytes.length ≤ 3) ∨
      (length = 12 ∧ 12 ≤ input.length ∧ parseHex4 (input.drop 2) ≠ 0 ∧ parseHex4 (input.drop 8) ≠ 0 ∧
        (input.drop 6).take 2 = [0x5C, 0x75] ∧ bytes.length ≤ 4) := by
  unfold utf16LiteralToUtf8 at h
  split at h
  · cases h
  · dsimp only at h
    split at h
    · cases h
    · split at h
      · rename_i hlength hlow hhigh
        split at h
        · cases h
        · split at h
          · cases h
          · split at h
            · cases h
            · rename_i hsecond hmark hcode
              obtain ⟨b, hb, e⟩ := Option.map_eq_some_iff.mp h
              cases e
              rw [List.drop_drop, show 6 + 2 = 8 from rfl] at hcode
              rw [List.length_drop] at hsecond
              exact Or.inr ⟨rfl, by omega, by omega, by omega, not_not.mp hmark, (length_encodeUtf8 hb).1⟩
      · rename_i hlength hlow hhigh
        obtain ⟨b, hb, e⟩ := Option.map_eq_some_iff.mp h
        cases e
        have hb' := length_encodeUtf8 hb
        exact Or.inl ⟨rfl, by omega, fun hzero => hb'.2.1 (by omega), hb'.2.2 (parseHex4_lt _)⟩

/-- What is written for an escape sequence fits into the room that is made for it. -/
theorem escapeSequence_le {rest bytes : List UInt8} {length : Nat}
    (h : escapeSequence (0x5C :: rest) = some (bytes, length)) :
    2 ≤ length ∧ bytes.length + plain ((0x5C :: rest).drop length) ≤ plain (0x5C :: rest) := by
  unfold escapeSequence at h
  dsimp only at h
  split at h
  · have hdrop : plain (0x5C :: rest) = 1 + plain ((0x5C :: rest).drop 2) ∨ (0x5C :: rest).length < 6 := by
      cases rest with
      | nil => exact Or.inr (by decide)
      | cons c rest => exact Or.inl (plain_escape c rest)
    rcases utf16LiteralToUtf8_some h with ⟨rfl, hlength, hzero, hthree⟩ | ⟨rfl, hlength, hfirst, hsecond, hmark, hfour⟩
    · replace hdrop := hdrop.resolve_right (by omega)
      refine ⟨by decide, ?_⟩
      by_cases hcode : parseHex4 ((0x5C :: rest).drop 2) = 0
      · have hle := plain_drop_le 4 ((0x5C :: rest).drop 2)
        rw [List.drop_drop] at hle
        rw [hdrop, hzero hcode]
        exact Nat.add_le_add_left hle 1
      · have heq := plain_parseHex4 (by rw [List.length_drop]; omega) hcode
        rw [List.drop_drop, show 2 + 4 = 6 from rfl] at heq
        rw [hdrop, heq]
        omega
    · replace hdrop := hdrop.resolve_right (by omega)
      refine ⟨by decide, ?_⟩
      have heq := plain_parseHex4 (by rw [List.length_drop]; omega) hfirst
      have heq' := plain_parseHex4 (by rw [List.length_drop]; omega) hsecond
      rw [List.drop_drop] at heq heq'
      rw [show 2 + 4 = 6 from rfl] at heq
      rw [show 8 + 4 = 12 from rfl] at heq'
      have hmid : plain ((0x5C :: rest).drop 6) = 1 + plain ((0x5C :: rest).drop 8) := by
        rw [← List.take_append_drop 2 ((0x5C :: rest).drop 6), hmark, List.drop_drop]
        exact plain_escape _ _
      rw [hdrop, heq, hmid, heq']
      omega
  · obtain ⟨b, _, e⟩ := Option.map_eq_some_iff.mp h
    cases e
    refine ⟨Nat.le_refl 2, ?_⟩
    cases rest with
    | nil => exact Nat.le_refl 1
    | cons c rest => exact Nat.le_refl _

/-! ## the loop -/

/-- The loop of `parse_string` does not write more than it has room for, and fails where the string is no string. -/
theorem unescape_eq (capacity fuel : Nat) (input output : List UInt8) (position : Nat)
    (hroom : output.length + plain input < capacity) (hfuel : input.length < fuel) :
    ∃ result, unescape capacity fuel input output position = some result ∧
      result.1 = (unescapeText fuel input).map (output ++ ·) ∧
      (result.1 = none → result.2 ≤ position + input.length) := by
  induction fuel generalizing input output position with
  | zero => exact absurd hfuel (Nat.not_lt_zero _)
  | succ fuel ih =>
    cases input with
    | nil =>
      refine ⟨(some output, position), if_pos (by omega), ?_, fun h => by cases h⟩
      rw [unescapeText, Option.map_some, List.append_nil]
    | cons c rest =>
      rw [List.length_cons] at hfuel
      rw [unescape, unescapeText]
      by_cases hc : c = 0x5C
      · subst hc
        rw [if_neg (not_not.mpr rfl), if_neg (not_not.mpr rfl)]
        cases he : escapeSequence (0x5C :: rest) with
        | none => exact ⟨_, rfl, rfl, fun _ => by omega⟩
        | some r =>
          obtain ⟨bytes, length⟩ := r
          obtain ⟨htwo, hle⟩ := escapeSequence_le he
          obtain ⟨result, hresult, hsome, hnone⟩ := ih ((0x5C :: rest).drop length) (output ++ bytes)
            (position + length) (by rw [List.length_append]; omega) (by rw [List.length_drop, List.length_cons]; omega)
          refine ⟨result, ?_, ?_, fun h => ?_⟩
          · dsimp only
            rw [if_pos (by omega)]
            exact hresult
          · rw [hsome, Option.map_map]
            exact congrArg (Option.map · _) (funext fun l => List.append_assoc output bytes l)
          · have hle' := hnone h
            -- a sequence that ends behind the string leaves nothing that could be wrong
            by_cases hlength : length ≤ (0x5C :: rest).length
            · rw [List.length_drop] at hle'
              omega
            · rw [List.drop_of_length_le (by omega)] at hsome
              rw [h] at hsome
              cases fuel with
              | zero => omega
              | succ fuel => cases hsome
      · rw [if_pos hc, if_pos hc]
        rw [plain_cons_of_ne hc] at hroom
        obtain ⟨result, hresult, hsome, hnone⟩ := ih rest (output ++ [c]) (position + 1)
          (by rw [List.length_append, List.length_singleton]; omega) (by omega)
        refine ⟨result, ?_, ?_, fun h => ?_⟩
        · rw [if_pos (by omega)]
          exact hresult
        · rw [hsome, Option.map_map]
          exact congrArg (Option.map · _) (funext fun l => List.append_assoc output [c] l)
        · have hle' := hnone h
          rw [List.length_cons]
          omega

/-! ## numbers and values -/

section
variable {N : Type} (strtod : Strtod N)

def readNumber (l : List UInt8) : Option (N × List UInt8) :=
  let (number, used) := strtod.run (numberText l)
  if used = 0 then none else some (number, l.drop used)

/-- a container: `loop` reads what is between its brackets, where that is something -/
def readContainer {α : Type} (opening closing : UInt8) (build : List α → Value N) (levels : Nat)
    (loop : Nat → List UInt8 → Option (List α × List UInt8)) (l : List UInt8) : Option (Value N × List UInt8) :=
  match levels, l with
  | levels + 1, c :: rest =>
    if c ≠ opening then none
    else if (skipBlank rest).head? = some closing then some (build [], (skipBlank rest).tail)
    else (loop levels rest).map fun r => (build r.1, r.2)
  | _, _ => none

/-- what follows an element: a comma, and all goes on, or the end -/
def readAnother {α : Type} (closing : UInt8) (element : α) (loop : List UInt8 → Option (List α × List UInt8)) :
    List UInt8 → Option (List α × List UInt8)
  | [] => none
  | c :: rest =>
    if c = 0x2C then (loop rest).map fun r => (element :: r.1, r.2)
    else if c = closing then some ([element], rest)
    else none

mutual

def readValue : Nat → Nat → List UInt8 → Option (Value N × List UInt8)
  | 0, _, _ => none
  | fuel + 1, levels, l =>
    if l.take 4 = nullText then some (.null, l.drop 4)
    else if l.take 5 = falseText then some (.bool false, l.drop 5)
    else if l.take 4 = trueText then some (.bool true, l.drop 4)
    else if l.head? = some 0x22 then (readString l).map fun r => (.str (cText r.1), r.2)
    else if l.head?.any fun c => c == 0x2D || decide (0x30 ≤ c ∧ c ≤ 0x39) then
      (readNumber strtod l).map fun r => (.num r.1, r.2)
    else if l.head? = some 0x5B then readContainer 0x5B 0x5D .arr levels (readElements fuel) l
    else if l.head? = some 0x7B then readContainer 0x7B 0x7D .obj levels (readMembers fuel) l
    else none

/-- the values behind a bracket or a comma, up to the closing bracket -/
def readElements : Nat → Nat → List UInt8 → Option (List (Value N) × List UInt8)
  | 0, _, _ => none
  | fuel + 1, levels, l =>
    match readValue fuel levels (skipBlank l) with
    | none => none
    | some (value, rest) => readAnother 0x5D value (readElements fuel levels) (skipBlank rest)

def readMembers : Nat → Nat → List UInt8 → Option (List (List UInt8 × Value N) × List UInt8)
  | 0, _, _ => none
  | fuel + 1, levels, l =>
    match readString (skipBlank l) with
    | none => none
    | some (name, rest) =>
      match skipBlank rest with
      | [] => none
      | c :: rest =>
        if c ≠ 0x3A then none
        else
          match readValue fuel levels (skipBlank rest) with
          | none => none
          | some (value, rest) => readAnother 0x7D (cText name, value) (readMembers fuel levels) (skipBlank rest)

end

/-- the text of a message: the value, and the number of bytes before the rest -/
def readText (text : List UInt8) : Option (Value N × Nat) :=
  let start := if 4 ≤ text.length ∧ text.take 3 = byteOrderMark then text.drop 3 else text
  (readValue strtod (2 * text.length + 2 + 2) nestingLimit (skipBlank start)).map fun r =>
    (r.1, text.length - r.2.length)

end

end Cjet.JsonText
