import Cjet.Lib.Utf8
import Cjet.Ws.Utf8

/-!
# The checker accepts UTF-8 (`utf8_checker.c`)

The checker is in a state that the bytes of an unfinished character determine.

* `after`                    that state;
* `reads_utf8`               the checker reads the characters as a prefix code;
* `areBytesValid_iff`        all bytes are valid and the last character is finished;
* `checkChunks_iff`          texts in several pieces.
-/

set_option linter.unusedVariables false

namespace Cjet
open Stateful

namespace Utf8

/-! ## the states -/

/-- the length of a character after its first byte -/
def sequenceLength (a : UInt8) : UInt8 := if a ≤ 0xDF then 2 else if a ≤ 0xEF then 3 else 4

/-- the checker after the beginning of a character -/
def after : List UInt8 → Checker
  | [a] => ⟨a, sequenceLength a, 2⟩
  | [a, _] => ⟨a, sequenceLength a, 3⟩
  | [a, _, _] => ⟨a, sequenceLength a, 4⟩
  | _ => initChecker

/-- one byte, if it is valid -/
def stepByte (c : Checker) (byte : UInt8) : Option Checker :=
  if (isByteValid c byte).1 then some (isByteValid c byte).2 else none

theorem stepByte_of_valid {c c' : Checker} {byte : UInt8} (h : isByteValid c byte = (true, c')) :
    stepByte c byte = some c' := by
  unfold stepByte
  rw [h]
  rfl

theorem stepByte_of_invalid {c c' : Checker} {byte : UInt8} (h : isByteValid c byte = (false, c')) :
    stepByte c byte = none := by
  unfold stepByte
  rw [h]
  rfl

/-! ## bytes -/

theorem isContinuation_iff (b : UInt8) : isContinuation b = true ↔ Utf8Tail b := by
  have hall : ∀ n : Fin 256, isContinuation (UInt8.ofNat n) = decide (0x80 ≤ n.val ∧ n.val ≤ 0xBF) := by
    decide +kernel
  have hb := hall ⟨b.toNat, b.toNat_lt⟩
  rw [UInt8.ofNat_toNat] at hb
  rw [hb, decide_eq_true_iff]
  rfl

/-- the second byte -/
theorem secondOf_iff (a b : UInt8) : (isContinuation b && secondOf a b) = true ↔ Utf8Second a b := by
  rw [Bool.and_eq_true, isContinuation_iff]
  have he0 : a = 0xE0 ↔ a.toNat = 0xE0 := UInt8.toNat_inj.symm
  have hed : a = 0xED ↔ a.toNat = 0xED := UInt8.toNat_inj.symm
  have hf0 : a = 0xF0 ↔ a.toNat = 0xF0 := UInt8.toNat_inj.symm
  have hf4 : a = 0xF4 ↔ a.toNat = 0xF4 := UInt8.toNat_inj.symm
  have range : ∀ low high : UInt8, (!(b < low || b > high)) = true ↔ low.toNat ≤ b.toNat ∧ b.toNat ≤ high.toNat := by
    intro low high
    rw [Bool.not_eq_true', Bool.or_eq_false_iff, decide_eq_false_iff_not, decide_eq_false_iff_not,
      UInt8.not_lt, UInt8.not_lt, UInt8.le_iff_toNat_le, UInt8.le_iff_toNat_le]
  unfold secondOf
  constructor
  · rintro ⟨ht, hs⟩
    refine ⟨ht, fun h => ?_, fun h => ?_, fun h => ?_, fun h => ?_⟩
    · rw [if_pos (he0.mpr h), range] at hs
      exact hs.1
    · rw [if_neg (fun e => by have := he0.mp e; omega), if_pos (hed.mpr h), range] at hs
      exact hs.2
    · rw [if_neg (fun e => by have := he0.mp e; omega), if_neg (fun e => by have := hed.mp e; omega),
        if_pos (hf0.mpr h), range] at hs
      exact hs.1
    · rw [if_neg (fun e => by have := he0.mp e; omega), if_neg (fun e => by have := hed.mp e; omega),
        if_neg (fun e => by have := hf0.mp e; omega), if_pos (hf4.mpr h), range] at hs
      exact hs.2
  · rintro ⟨ht, h0, h1, h2, h3⟩
    refine ⟨ht, ?_⟩
    by_cases e0 : a = 0xE0
    · rw [if_pos e0, range]
      exact ⟨h0 (he0.mp e0), ht.2⟩
    rw [if_neg e0]
    by_cases e1 : a = 0xED
    · rw [if_pos e1, range]
      exact ⟨ht.1, h1 (hed.mp e1)⟩
    rw [if_neg e1]
    by_cases e2 : a = 0xF0
    · rw [if_pos e2, range]
      exact ⟨h2 (hf0.mp e2), ht.2⟩
    rw [if_neg e2]
    by_cases e3 : a = 0xF4
    · rw [if_pos e3, range]
      exact ⟨ht.1, h3 (hf4.mp e3)⟩
    · rw [if_neg e3]

theorem sequenceLength_two {a : UInt8} (h : a.toNat ≤ 0xDF) : sequenceLength a = 2 :=
  if_pos (UInt8.le_iff_toNat_le.mpr h)

theorem sequenceLength_three {a : UInt8} (h : 0xE0 ≤ a.toNat) (h' : a.toNat ≤ 0xEF) : sequenceLength a = 3 := by
  have hne : ¬ a ≤ 0xDF := fun hle => by
    have hle' : a.toNat ≤ 0xDF := UInt8.le_iff_toNat_le.mp hle
    omega
  unfold sequenceLength
  rw [if_neg hne, if_pos (UInt8.le_iff_toNat_le.mpr h')]

theorem sequenceLength_four {a : UInt8} (h : 0xF0 ≤ a.toNat) : sequenceLength a = 4 := by
  have hne : ∀ high : UInt8, high.toNat ≤ 0xEF → ¬ a ≤ high := fun high hhigh hle => by
    have hle' : a.toNat ≤ high.toNat := UInt8.le_iff_toNat_le.mp hle
    omega
  unfold sequenceLength
  rw [if_neg (hne 0xDF (by decide)), if_neg (hne 0xEF (by decide))]

/-! ## the steps -/

/-- the first byte -/
theorem isByteValid_first (b : UInt8) : isByteValid initChecker b
    = if b.toNat ≤ 0x7F then (true, initChecker)
      else if 0xC2 ≤ b.toNat ∧ b.toNat ≤ 0xF4 then (true, after [b]) else (false, initChecker) := by
  have hall : ∀ n : Fin 256, isByteValid initChecker (UInt8.ofNat n)
      = if n.val ≤ 0x7F then (true, initChecker)
        else if 0xC2 ≤ n.val ∧ n.val ≤ 0xF4 then (true, after [UInt8.ofNat n]) else (false, initChecker) := by
    decide +kernel
  have hb := hall ⟨b.toNat, b.toNat_lt⟩
  rw [UInt8.ofNat_toNat] at hb
  exact hb

theorem isByteValid_second (a b : UInt8) : isByteValid (after [a]) b
    = if isContinuation b && secondOf a b then
        (true, if sequenceLength a = 2 then initChecker else after [a, b])
      else (false, initChecker) := by
  unfold isByteValid judge after
  rw [if_neg (by decide : ¬ (2 : UInt8) = 1), if_pos rfl]
  dsimp only
  cases isContinuation b && secondOf a b with
  | false => rw [if_neg Bool.false_ne_true, Bool.not_false, Bool.or_true, if_pos rfl]
  | true =>
    rw [if_pos rfl, Bool.not_true, Bool.or_false]
    by_cases h : sequenceLength a = 2
    · rw [if_pos h, if_pos (beq_iff_eq.mpr h)]
    · rw [if_neg h, if_neg fun hb => h (beq_iff_eq.mp hb)]
      rfl

theorem isByteValid_third (a b c : UInt8) : isByteValid (after [a, b]) c
    = if isContinuation c then (true, if sequenceLength a = 3 then initChecker else after [a, b, c])
      else (false, initChecker) := by
  unfold isByteValid judge after
  rw [if_neg (by decide : ¬ (3 : UInt8) = 1), if_neg (by decide : ¬ (3 : UInt8) = 2), if_pos rfl]
  dsimp only
  cases isContinuation c with
  | false => rw [if_neg Bool.false_ne_true, Bool.not_false, Bool.or_true, if_pos rfl]
  | true =>
    rw [if_pos rfl, Bool.not_true, Bool.or_false, Bool.false_or]
    by_cases h : sequenceLength a = 3
    · rw [if_pos h, if_pos (beq_iff_eq.mpr h)]
    · rw [if_neg h, if_neg fun hb => h (beq_iff_eq.mp hb)]
      rfl

theorem isByteValid_fourth (a b c d : UInt8) :
    isByteValid (after [a, b, c]) d = (isContinuation d, initChecker) := by
  unfold isByteValid judge after
  rw [if_neg (by decide : ¬ (4 : UInt8) = 1), if_neg (by decide : ¬ (4 : UInt8) = 2),
    if_neg (by decide : ¬ (4 : UInt8) = 3), if_pos rfl]
  rfl

/-- **The checker reads the characters.** -/
theorem reads_utf8 : Reads stepByte after Utf8Char where
  word p a hp hw := by
    match p, hp, hw with
    | [], _, hw =>
      have h : a.toNat ≤ 0x7F := hw
      exact stepByte_of_valid (by rw [show after [] = initChecker from rfl, isByteValid_first, if_pos h])
    | [x], _, hw =>
      obtain ⟨hx, hs⟩ := hw
      exact stepByte_of_valid (by
        rw [isByteValid_second, (secondOf_iff x a).mpr hs, if_pos rfl, if_pos (sequenceLength_two hx.2)]; rfl)
    | [x, y], _, hw =>
      obtain ⟨hx, hs, ht⟩ := hw
      exact stepByte_of_valid (by
        rw [isByteValid_third, (isContinuation_iff a).mpr ht, if_pos rfl, if_pos (sequenceLength_three hx.1 hx.2)]; rfl)
    | [x, y, z], _, hw =>
      obtain ⟨hx, hs, ht, ht'⟩ := hw
      exact stepByte_of_valid (by rw [isByteValid_fourth, (isContinuation_iff a).mpr ht']; rfl)
    | x :: y :: z :: u :: l, hp, _ => exact absurd hp (not_unfinished_four x y z u l)
  unfinished p a hp hu := by
    match p, hp, hu with
    | [], _, hu =>
      have h := (unfinished_one a).mp hu
      exact stepByte_of_valid (by
        rw [show after [] = initChecker from rfl, isByteValid_first, if_neg (by omega), if_pos h]; rfl)
    | [x], _, hu =>
      obtain ⟨hx, hs⟩ := (unfinished_two x a).mp hu
      have hne : ¬ sequenceLength x = 2 := by
        by_cases h3 : x.toNat ≤ 0xEF
        · rw [sequenceLength_three hx.1 h3]; decide
        · rw [sequenceLength_four (by omega)]; decide
      exact stepByte_of_valid (by
        rw [isByteValid_second, (secondOf_iff x a).mpr hs, if_pos rfl, if_neg hne]; rfl)
    | [x, y], _, hu =>
      obtain ⟨hx, hs, ht⟩ := (unfinished_three x y a).mp hu
      have hne : ¬ sequenceLength x = 3 := by rw [sequenceLength_four hx.1]; decide
      exact stepByte_of_valid (by
        rw [isByteValid_third, (isContinuation_iff a).mpr ht, if_pos rfl, if_neg hne]; rfl)
    | [x, y, z], _, hu => exact absurd hu (not_unfinished_four x y z a [])
    | x :: y :: z :: u :: l, hp, _ => exact absurd hp (not_unfinished_four x y z u l)
  stops p a hp hw hu := by
    match p, hp, hw, hu with
    | [], _, hw, hu =>
      have h1 : ¬ a.toNat ≤ 0x7F := hw
      have h2 : ¬ (0xC2 ≤ a.toNat ∧ a.toNat ≤ 0xF4) := fun h => hu ((unfinished_one a).mpr h)
      exact stepByte_of_invalid (by rw [show after [] = initChecker from rfl, isByteValid_first, if_neg h1, if_neg h2])
    | [x], hp, hw, hu =>
      have hx := (unfinished_one x).mp hp
      have hs : ¬ (isContinuation a && secondOf x a) = true := by
        intro hs
        rw [secondOf_iff] at hs
        by_cases h2 : x.toNat ≤ 0xDF
        · exact hw ⟨⟨hx.1, h2⟩, hs⟩
        · exact hu ((unfinished_two x a).mpr ⟨by omega, hs⟩)
      exact stepByte_of_invalid (by rw [isByteValid_second, if_neg hs])
    | [x, y], hp, hw, hu =>
      obtain ⟨hx, hs⟩ := (unfinished_two x y).mp hp
      have ht : ¬ isContinuation a = true := by
        intro ht
        rw [isContinuation_iff] at ht
        by_cases h3 : x.toNat ≤ 0xEF
        · exact hw ⟨⟨hx.1, h3⟩, hs, ht⟩
        · exact hu ((unfinished_three x y a).mpr ⟨by omega, hs, ht⟩)
      exact stepByte_of_invalid (by rw [isByteValid_third, if_neg ht])
    | [x, y, z], hp, hw, hu =>
      obtain ⟨hx, hs, ht⟩ := (unfinished_three x y z).mp hp
      have ht' : isContinuation a = false := Bool.eq_false_iff.mpr fun h =>
        hw ⟨hx, hs, ht, (isContinuation_iff a).mp h⟩
      exact stepByte_of_invalid (by rw [isByteValid_fourth, ht'])
    | x :: y :: z :: u :: l, hp, _, _ => exact absurd hp (not_unfinished_four x y z u l)
  between p hp h := by
    match p, hp, h with
    | [], _, _ => rfl
    | [x], _, h => exact absurd (congrArg Checker.nextByte h) (show ¬ (2 : UInt8) = 1 by decide)
    | [x, y], _, h => exact absurd (congrArg Checker.nextByte h) (show ¬ (3 : UInt8) = 1 by decide)
    | [x, y, z], _, h => exact absurd (congrArg Checker.nextByte h) (show ¬ (4 : UInt8) = 1 by decide)
    | x :: y :: z :: u :: l, hp, _ => exact absurd hp (not_unfinished_four x y z u l)

/-! ## texts -/

theorem isByteValid_false {c c' : Checker} {byte : UInt8} (h : isByteValid c byte = (false, c')) :
    c' = initChecker := by
  unfold isByteValid at h
  obtain ⟨hret, rfl⟩ := Prod.mk.inj h
  rw [hret, Bool.not_false, Bool.or_true, if_pos rfl]

/-- the loop is a run that stops at the first byte that is not valid -/
theorem areBytesValid_run (c : Checker) (l : List UInt8) :
    areBytesValid c l = ((run stepByte c l).isSome, (run stepByte c l).getD initChecker) := by
  induction l generalizing c with
  | nil => rfl
  | cons b l ih =>
    unfold areBytesValid
    rw [run_cons]
    cases h : isByteValid c b with
    | mk ok c' =>
      cases ok with
      | true =>
        rw [stepByte_of_valid h]
        exact ih c'
      | false =>
        rw [stepByte_of_invalid h, isByteValid_false h]
        rfl

theorem areBytesValid_true_iff (c c' : Checker) (l : List UInt8) :
    areBytesValid c l = (true, c') ↔ run stepByte c l = some c' := by
  rw [areBytesValid_run]
  cases run stepByte c l with
  | none => exact iff_of_false (by rintro ⟨⟩) (by rintro ⟨⟩)
  | some c'' =>
    constructor
    · intro h
      exact congrArg some (Prod.mk.inj h).2
    · intro h
      rw [Option.some.inj h]
      rfl

/-- All bytes are valid and the last character is finished exactly where the text is UTF-8. -/
theorem areBytesValid_iff (l : List UInt8) : areBytesValid initChecker l = (true, initChecker) ↔ WellFormedUtf8 l := by
  rw [areBytesValid_true_iff, ← message_utf8Char]
  exact reads_utf8.run_iff prefixCode_utf8Char unfinished_nil unfinished_nil l

/-- between two bytes the checker is in a state that belongs to the beginning of a character -/
theorem areBytesValid_after {p l : List UInt8} {c : Checker} (hp : Unfinished Utf8Char p)
    (h : areBytesValid (after p) l = (true, c)) : ∃ q, Unfinished Utf8Char q ∧ c = after q :=
  reads_utf8.run_some unfinished_nil hp ((areBytesValid_true_iff _ _ _).mp h)

/-- `start_byte` tells whether a character is unfinished -/
theorem startByte_after {p : List UInt8} (hp : Unfinished Utf8Char p) :
    (after p).startByte = UC_FINISH ↔ after p = initChecker := by
  have hfirst : ∀ a : UInt8, a.toNat ≤ 0xF4 → a ≠ UC_FINISH := by
    rintro a ha rfl
    exact absurd ha (by decide)
  match p, hp with
  | [], _ => exact iff_of_true rfl rfl
  | [a], hp =>
    exact iff_of_false (hfirst a ((unfinished_one a).mp hp).2) fun h =>
      absurd (congrArg Checker.nextByte h) (show ¬ (2 : UInt8) = 1 by decide)
  | [a, b], hp =>
    exact iff_of_false (hfirst a ((unfinished_two a b).mp hp).1.2) fun h =>
      absurd (congrArg Checker.nextByte h) (show ¬ (3 : UInt8) = 1 by decide)
  | [a, b, c], hp =>
    exact iff_of_false (hfirst a ((unfinished_three a b c).mp hp).1.2) fun h =>
      absurd (congrArg Checker.nextByte h) (show ¬ (4 : UInt8) = 1 by decide)
  | a :: b :: c :: d :: l, hp => exact absurd hp (not_unfinished_four a b c d l)

/-! ## texts in several pieces -/

/-- the two functions -/
inductive Entry where
  | text
  | byteSequence

def Entry.check : Entry → Checker → List UInt8 → Bool → Bool × Checker
  | .text => isTextValid
  | .byteSequence => isByteSequenceValid

/-- a piece is checked by one of the functions -/
structure Chunk where
  entry : Entry
  bytes : List UInt8

/-- the pieces are checked one after the other, `is_complete` set for the last of them: do all calls return true,
and what is the checker then? -/
def checkChunks : Checker → List Chunk → Chunk → Bool × Checker
  | c, [], last => last.entry.check c last.bytes true
  | c, chunk :: chunks, last =>
    let (ret, c) := chunk.entry.check c chunk.bytes false
    let (rest, c) := checkChunks c chunks last
    (ret && rest, c)

theorem check_incomplete (entry : Entry) (c : Checker) (l : List UInt8) :
    entry.check c l false = areBytesValid c l := by
  cases entry with
  | text =>
    show isTextValid c l false = areBytesValid c l
    unfold isTextValid
    split <;> rename_i h <;> exact h.symm
  | byteSequence =>
    show isByteSequenceValid c l false = areBytesValid c l
    unfold isByteSequenceValid
    split <;> rename_i h <;> exact h.symm

/-- what both functions do at the end of a text; they differ in what they leave of an unfinished character -/
theorem check_complete_eq (entry : Entry) (c : Checker) (l : List UInt8) :
    ∃ reset : Checker → Checker, entry.check c l true = match areBytesValid c l with
      | (false, c) => (false, c)
      | (true, c) => if c.startByte = UC_FINISH then (true, c) else (false, reset c) := by
  have hend : ∀ (c' : Checker) (r : Checker), (if true && c'.startByte != UC_FINISH then (false, r) else (true, c'))
      = if c'.startByte = UC_FINISH then (true, c') else (false, r) := by
    intro c' r
    by_cases h : c'.startByte = UC_FINISH
    · rw [Bool.true_and, if_pos h, if_neg fun hne => bne_iff_ne.mp hne h]
    · rw [Bool.true_and, if_neg h, if_pos (bne_iff_ne.mpr h)]
  cases entry with
  | text =>
    refine ⟨id, ?_⟩
    show isTextValid c l true = _
    unfold isTextValid
    cases areBytesValid c l with
    | mk ok c' =>
      cases ok with
      | false => rfl
      | true => exact hend c' c'
  | byteSequence =>
    refine ⟨fun _ => initChecker, ?_⟩
    show isByteSequenceValid c l true = _
    unfold isByteSequenceValid
    cases areBytesValid c l with
    | mk ok c' =>
      cases ok with
      | false => rfl
      | true => exact hend c' initChecker

theorem check_complete (entry : Entry) {p : List UInt8} (hp : Unfinished Utf8Char p) (l : List UInt8) :
    ((entry.check (after p) l true).1 = true ↔ areBytesValid (after p) l = (true, initChecker)) ∧
      ((entry.check (after p) l true).1 = true → (entry.check (after p) l true).2 = initChecker) := by
  obtain ⟨reset, heq⟩ := check_complete_eq entry (after p) l
  rw [heq]
  cases h : areBytesValid (after p) l with
  | mk ok c =>
    cases ok with
    | false => exact ⟨iff_of_false (by rintro ⟨⟩) (by rintro ⟨⟩), by rintro ⟨⟩⟩
    | true =>
      obtain ⟨q, hq, rfl⟩ := areBytesValid_after hp h
      dsimp only
      by_cases hfin : (after q).startByte = UC_FINISH
      · rw [if_pos hfin, (startByte_after hq).mp hfin]
        exact ⟨iff_of_true rfl rfl, fun _ => rfl⟩
      · rw [if_neg hfin]
        exact ⟨iff_of_false (by rintro ⟨⟩) fun e => hfin ((startByte_after hq).mpr (Prod.mk.inj e).2), by rintro ⟨⟩⟩

theorem areBytesValid_cons (c : Checker) (b : UInt8) (l : List UInt8) :
    areBytesValid c (b :: l) = match isByteValid c b with
      | (true, c) => areBytesValid c l
      | (false, c) => (false, c) := rfl

theorem areBytesValid_append (c : Checker) (l m : List UInt8) :
    areBytesValid c (l ++ m) = match areBytesValid c l with
      | (true, c) => areBytesValid c m
      | (false, c) => (false, c) := by
  induction l generalizing c with
  | nil => rfl
  | cons b l ih =>
    rw [List.cons_append, areBytesValid_cons, areBytesValid_cons]
    cases isByteValid c b with
    | mk ok c' =>
      cases ok with
      | true => exact ih c'
      | false => rfl

theorem checkChunks_after {p : List UInt8} (hp : Unfinished Utf8Char p) (chunks : List Chunk) (last : Chunk) :
    ((checkChunks (after p) chunks last).1 = true ↔
        areBytesValid (after p) (chunks.flatMap Chunk.bytes ++ last.bytes) = (true, initChecker)) ∧
      ((checkChunks (after p) chunks last).1 = true → (checkChunks (after p) chunks last).2 = initChecker) := by
  induction chunks generalizing p with
  | nil => exact check_complete last.entry hp last.bytes
  | cons chunk chunks ih =>
    unfold checkChunks
    rw [check_incomplete, List.flatMap_cons, List.append_assoc, areBytesValid_append]
    cases h : areBytesValid (after p) chunk.bytes with
    | mk ok c =>
      cases ok with
      | true =>
        obtain ⟨q, hq, rfl⟩ := areBytesValid_after hp h
        dsimp only
        rw [Bool.true_and]
        exact ih hq
      | false =>
        dsimp only
        rw [Bool.false_and]
        exact ⟨iff_of_false (by rintro ⟨⟩) (by rintro ⟨⟩), by rintro ⟨⟩⟩

/-- **The calls accept the pieces of a text exactly where the text is UTF-8**, and leave the checker ready for the
next one. -/
theorem checkChunks_iff (chunks : List Chunk) (last : Chunk) :
    ((checkChunks initChecker chunks last).1 = true ↔ WellFormedUtf8 (chunks.flatMap Chunk.bytes ++ last.bytes)) ∧
      ((checkChunks initChecker chunks last).1 = true → (checkChunks initChecker chunks last).2 = initChecker) := by
  have h := checkChunks_after unfinished_nil chunks last
  rw [← areBytesValid_iff]
  exact h

end Utf8
end Cjet
