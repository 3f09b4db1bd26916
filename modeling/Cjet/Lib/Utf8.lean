import Cjet.Lib.PrefixCode

/-!
# UTF-8 (RFC 3629)

* `WellFormedUtf8`           the encodings of sequences of characters;
* `Utf8Char`                 the syntax of the encoding of one character;
* `utf8Char_iff`             the syntax derives the encodings of the characters, and nothing else;
* `prefixCode_utf8Char`      they form a prefix code;
* `unfinished_one`, `unfinished_two`, `unfinished_three`   the beginnings of characters.

A character is a scalar value: it is at most U+10FFFF and no surrogate.
-/

set_option linter.unusedVariables false

namespace Stateful

/-- the encoding of some characters -/
def WellFormedUtf8 (bytes : List UInt8) : Prop := ∃ cs : List Char, bytes = cs.flatMap String.utf8EncodeChar

/-! ## syntax -/

/-- `UTF8-tail` -/
def Utf8Tail (b : UInt8) : Prop := 0x80 ≤ b.toNat ∧ b.toNat ≤ 0xBF

/-- the byte after the first one: after four first bytes not every tail is allowed -/
structure Utf8Second (a b : UInt8) : Prop where
  tail : Utf8Tail b
  overlong3 : a.toNat = 0xE0 → 0xA0 ≤ b.toNat
  surrogate : a.toNat = 0xED → b.toNat ≤ 0x9F
  overlong4 : a.toNat = 0xF0 → 0x90 ≤ b.toNat
  limit : a.toNat = 0xF4 → b.toNat ≤ 0x8F

/-- `UTF8-char` -/
def Utf8Char : List UInt8 → Prop
  | [a] => a.toNat ≤ 0x7F
  | [a, b] => (0xC2 ≤ a.toNat ∧ a.toNat ≤ 0xDF) ∧ Utf8Second a b
  | [a, b, c] => (0xE0 ≤ a.toNat ∧ a.toNat ≤ 0xEF) ∧ Utf8Second a b ∧ Utf8Tail c
  | [a, b, c, d] => (0xF0 ≤ a.toNat ∧ a.toNat ≤ 0xF4) ∧ Utf8Second a b ∧ Utf8Tail c ∧ Utf8Tail d
  | _ => False

theorem prefixCode_utf8Char : PrefixCode Utf8Char where
  ne_nil := by
    rintro w hw rfl
    exact hw
  eq_of_prefix := by
    -- the first byte says how long the word is
    have hlength : ∀ (a : UInt8) (w : List UInt8), Utf8Char (a :: w) →
        w.length = if a.toNat ≤ 0x7F then 0 else if a.toNat ≤ 0xDF then 1 else if a.toNat ≤ 0xEF then 2 else 3 := by
      intro a w hw
      match w, hw with
      | [], hw =>
        have h : a.toNat ≤ 0x7F := hw
        rw [if_pos h]
        rfl
      | [b], hw =>
        obtain ⟨h, _⟩ := hw
        rw [if_neg (by omega), if_pos h.2]
        rfl
      | [b, c], hw =>
        obtain ⟨h, _⟩ := hw
        rw [if_neg (by omega), if_neg (by omega), if_pos h.2]
        rfl
      | [b, c, d], hw =>
        obtain ⟨h, _⟩ := hw
        rw [if_neg (by omega), if_neg (by omega), if_neg (by omega)]
        rfl
    rintro w w' hw hw' ⟨t, rfl⟩
    cases w with
    | nil => exact hw.elim
    | cons a w =>
      have h1 := hlength a w hw
      have h2 := hlength a (w ++ t) hw'
      rw [List.length_append, ← h1] at h2
      rw [List.eq_nil_of_length_eq_zero (l := t) (by omega), List.append_nil]

/-! ## characters -/

/-- the character with a number -/
theorem exists_char {v : Nat} (h : v.isValidChar) : ∃ c : Char, c.val.toNat = v := by
  have hlt : v < 4294967296 := by
    rcases h with h | h
    · omega
    · omega
  have hv : (UInt32.ofNat v).toNat = v := UInt32.toNat_ofNat_of_lt' hlt
  exact ⟨⟨UInt32.ofNat v, by rw [UInt32.isValidChar, hv]; exact h⟩, hv⟩

theorem ofNat_eq {b : UInt8} {n : Nat} (h : n = b.toNat) : UInt8.ofNat n = b := by
  rw [h, UInt8.ofNat_toNat]

theorem encode_one {c : Char} (h : c.val.toNat ≤ 0x7F) :
    String.utf8EncodeChar c = [UInt8.ofNat c.val.toNat] := by
  unfold String.utf8EncodeChar
  exact if_pos h

theorem encode_two {c : Char} (h : 0x7F < c.val.toNat) (h' : c.val.toNat ≤ 0x7FF) :
    String.utf8EncodeChar c
      = [UInt8.ofNat (c.val.toNat / 64 % 0x20 + 0xC0), UInt8.ofNat (c.val.toNat % 0x40 + 0x80)] := by
  unfold String.utf8EncodeChar
  dsimp only
  rw [if_neg (by omega), if_pos h']

theorem encode_three {c : Char} (h : 0x7FF < c.val.toNat) (h' : c.val.toNat ≤ 0xFFFF) :
    String.utf8EncodeChar c
      = [UInt8.ofNat (c.val.toNat / 4096 % 0x10 + 0xE0), UInt8.ofNat (c.val.toNat / 64 % 0x40 + 0x80),
          UInt8.ofNat (c.val.toNat % 0x40 + 0x80)] := by
  unfold String.utf8EncodeChar
  dsimp only
  rw [if_neg (by omega), if_neg (by omega), if_pos h']

theorem encode_four {c : Char} (h : 0xFFFF < c.val.toNat) :
    String.utf8EncodeChar c
      = [UInt8.ofNat (c.val.toNat / 262144 % 0x08 + 0xF0), UInt8.ofNat (c.val.toNat / 4096 % 0x40 + 0x80),
          UInt8.ofNat (c.val.toNat / 64 % 0x40 + 0x80), UInt8.ofNat (c.val.toNat % 0x40 + 0x80)] := by
  unfold String.utf8EncodeChar
  dsimp only
  rw [if_neg (by omega), if_neg (by omega), if_neg (by omega)]

theorem utf8Char_encode (c : Char) : Utf8Char (String.utf8EncodeChar c) := by
  have hvalid : c.val.toNat < 0xD800 ∨ 0xDFFF < c.val.toNat ∧ c.val.toNat < 0x110000 := c.valid
  have small : ∀ n : Nat, n < 256 → (UInt8.ofNat n).toNat = n := fun n hn => UInt8.toNat_ofNat_of_lt' hn
  have tail : ∀ n : Nat, Utf8Tail (UInt8.ofNat (n % 0x40 + 0x80)) := by
    intro n
    unfold Utf8Tail
    rw [small _ (by omega)]
    omega
  generalize hv : c.val.toNat = v at hvalid
  by_cases h1 : v ≤ 0x7F
  · rw [encode_one (by omega), hv]
    show (UInt8.ofNat v).toNat ≤ 0x7F
    rw [small v (by omega)]
    exact h1
  by_cases h2 : v ≤ 0x7FF
  · rw [encode_two (by omega) (by omega), hv]
    have ha := small (v / 64 % 0x20 + 0xC0) (by omega)
    refine ⟨by omega, tail _, ?_, ?_, ?_, ?_⟩ <;> omega
  by_cases h3 : v ≤ 0xFFFF
  · rw [encode_three (by omega) (by omega), hv]
    have ha := small (v / 4096 % 0x10 + 0xE0) (by omega)
    have hb := small (v / 64 % 0x40 + 0x80) (by omega)
    refine ⟨by omega, ⟨tail _, ?_, ?_, ?_, ?_⟩, tail _⟩ <;> omega
  · rw [encode_four (by omega), hv]
    have ha := small (v / 262144 % 0x08 + 0xF0) (by omega)
    have hb := small (v / 4096 % 0x40 + 0x80) (by omega)
    refine ⟨by omega, ⟨tail _, ?_, ?_, ?_, ?_⟩, tail _, tail _⟩ <;> omega

/-- The syntax derives the encodings of the characters. -/
theorem utf8Char_iff (bytes : List UInt8) : Utf8Char bytes ↔ ∃ c, bytes = String.utf8EncodeChar c := by
  constructor
  · intro h
    match bytes, h with
    | [a], h =>
      have ha : a.toNat ≤ 0x7F := h
      obtain ⟨c, hc⟩ := exists_char (v := a.toNat) (Or.inl (by omega))
      refine ⟨c, ?_⟩
      rw [encode_one (by omega), hc, UInt8.ofNat_toNat]
    | [a, b], h =>
      obtain ⟨⟨ha, ha'⟩, ⟨⟨hb, hb'⟩, _, _, _, _⟩⟩ := h
      obtain ⟨c, hc⟩ := exists_char (v := (a.toNat - 0xC0) * 64 + (b.toNat - 0x80)) (Or.inl (by omega))
      refine ⟨c, ?_⟩
      rw [encode_two (by omega) (by omega), hc, ofNat_eq (b := a) (by omega), ofNat_eq (b := b) (by omega)]
    | [a, b, c], h =>
      obtain ⟨⟨ha, ha'⟩, ⟨⟨hb, hb'⟩, he0, hed, _, _⟩, hc, hc'⟩ := h
      obtain ⟨x, hx⟩ := exists_char (v := (a.toNat - 0xE0) * 4096 + (b.toNat - 0x80) * 64 + (c.toNat - 0x80)) (by
        unfold Nat.isValidChar
        omega)
      refine ⟨x, ?_⟩
      rw [encode_three (by omega) (by omega), hx, ofNat_eq (b := a) (by omega), ofNat_eq (b := b) (by omega),
        ofNat_eq (b := c) (by omega)]
    | [a, b, c, d], h =>
      obtain ⟨⟨ha, ha'⟩, ⟨⟨hb, hb'⟩, _, _, hf0, hf4⟩, ⟨hc, hc'⟩, hd, hd'⟩ := h
      obtain ⟨x, hx⟩ := exists_char
        (v := (a.toNat - 0xF0) * 262144 + (b.toNat - 0x80) * 4096 + (c.toNat - 0x80) * 64 + (d.toNat - 0x80)) (by
          unfold Nat.isValidChar
          omega)
      refine ⟨x, ?_⟩
      rw [encode_four (by omega), hx, ofNat_eq (b := a) (by omega), ofNat_eq (b := b) (by omega),
        ofNat_eq (b := c) (by omega), ofNat_eq (b := d) (by omega)]
  · rintro ⟨c, rfl⟩
    exact utf8Char_encode c

theorem message_utf8Char (bytes : List UInt8) : Message Utf8Char bytes ↔ WellFormedUtf8 bytes := by
  constructor
  · intro h
    induction h with
    | nil => exact ⟨[], rfl⟩
    | cons hw hrest ih =>
      obtain ⟨c, rfl⟩ := (utf8Char_iff _).mp hw
      obtain ⟨cs, rfl⟩ := ih
      exact ⟨c :: cs, rfl⟩
  · rintro ⟨cs, rfl⟩
    induction cs with
    | nil => exact .nil
    | cons c cs ih => exact .cons (utf8Char_encode c) ih

/-! ## the beginnings of characters -/

theorem unfinished_nil : Unfinished Utf8Char [] := ⟨[0], List.cons_ne_nil _ _, (by decide : (0 : UInt8).toNat ≤ 0x7F)⟩

theorem utf8Tail_first : Utf8Tail 0x80 := ⟨by decide, by decide⟩

theorem exists_second {a : UInt8} (ha : 0xC2 ≤ a.toNat) : ∃ b, Utf8Second a b := by
  by_cases h0 : a.toNat = 0xE0
  · exact ⟨0xA0, ⟨by decide, by decide⟩, fun _ => by decide, fun h => by omega, fun h => by omega, fun h => by omega⟩
  by_cases h1 : a.toNat = 0xF0
  · exact ⟨0x90, ⟨by decide, by decide⟩, fun h => by omega, fun h => by omega, fun _ => by decide, fun h => by omega⟩
  · exact ⟨0x80, utf8Tail_first, fun h => absurd h h0, fun _ => by decide, fun h => absurd h h1, fun _ => by decide⟩

theorem unfinished_one (a : UInt8) : Unfinished Utf8Char [a] ↔ 0xC2 ≤ a.toNat ∧ a.toNat ≤ 0xF4 := by
  constructor
  · rintro ⟨rest, hne, h⟩
    match rest, hne, h with
    | [b], _, h => exact ⟨h.1.1, by have := h.1.2; omega⟩
    | [b, c], _, h => exact ⟨by have := h.1.1; omega, by have := h.1.2; omega⟩
    | [b, c, d], _, h => exact ⟨by have := h.1.1; omega, h.1.2⟩
  · rintro ⟨h, h'⟩
    obtain ⟨b, hb⟩ := exists_second h
    by_cases h2 : a.toNat ≤ 0xDF
    · exact ⟨[b], List.cons_ne_nil _ _, ⟨h, h2⟩, hb⟩
    by_cases h3 : a.toNat ≤ 0xEF
    · exact ⟨[b, 0x80], List.cons_ne_nil _ _, ⟨by omega, h3⟩, hb, utf8Tail_first⟩
    · exact ⟨[b, 0x80, 0x80], List.cons_ne_nil _ _, ⟨by omega, h'⟩, hb, utf8Tail_first, utf8Tail_first⟩

theorem unfinished_two (a b : UInt8) :
    Unfinished Utf8Char [a, b] ↔ (0xE0 ≤ a.toNat ∧ a.toNat ≤ 0xF4) ∧ Utf8Second a b := by
  constructor
  · rintro ⟨rest, hne, h⟩
    match rest, hne, h with
    | [c], _, h => exact ⟨⟨h.1.1, by have := h.1.2; omega⟩, h.2.1⟩
    | [c, d], _, h => exact ⟨⟨by have := h.1.1; omega, h.1.2⟩, h.2.1⟩
  · rintro ⟨⟨h, h'⟩, hb⟩
    by_cases h3 : a.toNat ≤ 0xEF
    · exact ⟨[0x80], List.cons_ne_nil _ _, ⟨h, h3⟩, hb, utf8Tail_first⟩
    · exact ⟨[0x80, 0x80], List.cons_ne_nil _ _, ⟨by omega, h'⟩, hb, utf8Tail_first, utf8Tail_first⟩

theorem unfinished_three (a b c : UInt8) :
    Unfinished Utf8Char [a, b, c] ↔ (0xF0 ≤ a.toNat ∧ a.toNat ≤ 0xF4) ∧ Utf8Second a b ∧ Utf8Tail c := by
  constructor
  · rintro ⟨rest, hne, h⟩
    match rest, hne, h with
    | [d], _, h => exact ⟨h.1, h.2.1, h.2.2.1⟩
  · rintro ⟨h, hb, hc⟩
    exact ⟨[0x80], List.cons_ne_nil _ _, h, hb, hc, utf8Tail_first⟩

/-- a character has at most four bytes -/
theorem not_unfinished_four (a b c d : UInt8) (l : List UInt8) : ¬ Unfinished Utf8Char (a :: b :: c :: d :: l) := by
  rintro ⟨rest, hne, h⟩
  cases l with
  | cons e l => exact h
  | nil =>
    cases rest with
    | nil => exact hne rfl
    | cons e rest => exact h

end Stateful
