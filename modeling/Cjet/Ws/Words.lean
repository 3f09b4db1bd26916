import Cjet.Ws.WellFormed

/-!
# Checking UTF-8 by words (`utf8_checker.c`)

Between two characters a word that consists of ASCII characters or of two-byte characters is accepted at
once.  The check of the first bytes of the latter is one comparison of numbers: it is decided by the last pair
whose first byte is not `C1`, and misses a `C0` or `C1` elsewhere in the word.

* `pairLeads`, `exceeds`     words of two-byte pairs, and the comparison;
* `isLax`                    the words that are accepted by mistake;
* `FastPath`                 what is common to both word sizes;
* `withoutLax`               the words that the byte-wise checker would have to see;
* `words_agree_iff`          the word-wise functions agree with the byte-wise one exactly where no such word is
                             met, or the rest of the text is refused anyway.
-/

set_option linter.unusedVariables false

namespace Cjet
open Stateful

namespace Utf8

/-! ## words of two-byte pairs -/

/-- the first bytes of the pairs `110xxxxx 10xxxxxx` that a word consists of -/
def pairLeads : List UInt8 → Option (List UInt8)
  | [] => some []
  | [_] => none
  | a :: b :: rest => if a &&& 0xE0 == 0xC0 && isContinuation b then (pairLeads rest).map (a :: ·) else none

/-- some pair begins with `C2` or more, and all pairs behind it with `C1` -/
def exceeds : List UInt8 → Bool
  | [] => false
  | a :: rest => exceeds rest || (decide (0xC2 ≤ a) && rest.all (· == 0xC1))

/-- a pair begins with `C0` or `C1` all the same -/
def isLax (bytes : List UInt8) : Bool :=
  match pairLeads bytes with
  | some leads => exceeds leads && leads.any fun a => decide (a < 0xC2)
  | none => false

/-- `C3 80 C0 80` is compared by its last pair, `C0 80 C3 80` too -/
example : isLax [0xC3, 0x80, 0xC0, 0x80] = false ∧ isLax [0xC0, 0x80, 0xC3, 0x80] = true := by decide

theorem forall_byte {P : UInt8 → Prop} (h : ∀ n : Fin 256, P (UInt8.ofNat n)) (b : UInt8) : P b := by
  have hb := h ⟨b.toNat, b.toNat_lt⟩
  rwa [UInt8.ofNat_toNat] at hb

theorem ascii_iff (b : UInt8) : b &&& 0x80 = 0 ↔ b.toNat ≤ 0x7F := by
  revert b
  exact forall_byte (by decide +kernel)

theorem lead_iff (b : UInt8) : b &&& 0xE0 = 0xC0 ↔ 0xC0 ≤ b.toNat ∧ b.toNat ≤ 0xDF := by
  revert b
  exact forall_byte (by decide +kernel)

/-- the five bits of a first byte -/
theorem toNat_low (b : UInt8) (h : b &&& 0xE0 = 0xC0) : (b &&& 0x1F).toNat = b.toNat - 0xC0 := by
  revert b
  exact forall_byte (by decide +kernel)

/-! ## the byte-wise checker on such words -/

theorem areBytesValid_ascii {a : UInt8} (ha : a.toNat ≤ 0x7F) (l : List UInt8) :
    areBytesValid initChecker (a :: l) = areBytesValid initChecker l := by
  rw [areBytesValid_cons, isByteValid_first, if_pos ha]

theorem areBytesValid_pair {a b : UInt8} (ha : 0xC2 ≤ a.toNat) (ha' : a.toNat ≤ 0xDF)
    (hb : Utf8Tail b) (l : List UInt8) :
    areBytesValid initChecker (a :: b :: l) = areBytesValid initChecker l := by
  have hs : Utf8Second a b := ⟨hb, fun h => by omega, fun h => by omega, fun h => by omega, fun h => by omega⟩
  rw [areBytesValid_cons, isByteValid_first, if_neg (by omega), if_pos (by omega)]
  dsimp only
  rw [areBytesValid_cons, isByteValid_second, (secondOf_iff a b).mpr hs, if_pos rfl, if_pos (sequenceLength_two ha')]

theorem areBytesValid_overlong {a : UInt8} (ha : 0xC0 ≤ a.toNat) (ha' : a.toNat < 0xC2) (l : List UInt8) :
    areBytesValid initChecker (a :: l) = (false, initChecker) := by
  rw [areBytesValid_cons, isByteValid_first, if_neg (by omega), if_neg (by omega)]

/-- a word of pairs is valid where no pair is overlong -/
theorem areBytesValid_pairs {bytes leads : List UInt8} (h : pairLeads bytes = some leads) :
    areBytesValid initChecker bytes = (!leads.any fun a => decide (a < 0xC2), initChecker) := by
  induction bytes using pairLeads.induct generalizing leads with
  | case1 =>
    obtain rfl := Option.some.inj h
    rfl
  | case2 => cases h
  | case3 a b rest hpair ih =>
    rw [pairLeads, if_pos hpair] at h
    obtain ⟨leads', hrest, rfl⟩ := Option.map_eq_some_iff.mp h
    obtain ⟨hlead, hcont⟩ := Bool.and_eq_true _ _ |>.mp hpair
    have ha := (lead_iff a).mp (beq_iff_eq.mp hlead)
    have hb := (isContinuation_iff b).mp hcont
    have hlt : a < 0xC2 ↔ a.toNat < 0xC2 := UInt8.lt_iff_toNat_lt
    rw [List.any_cons]
    by_cases hover : a.toNat < 0xC2
    · rw [areBytesValid_overlong ha.1 hover, decide_eq_true (hlt.mpr hover), Bool.true_or, Bool.not_true]
    · rw [areBytesValid_pair (by omega) ha.2 hb, ih hrest, decide_eq_false fun e => hover (hlt.mp e), Bool.false_or]
  | case4 a b rest hpair =>
    rw [pairLeads, if_neg hpair] at h
    cases h

/-- A lax word is not valid. -/
theorem areBytesValid_lax {bytes : List UInt8} (h : isLax bytes = true) :
    areBytesValid initChecker bytes = (false, initChecker) := by
  unfold isLax at h
  cases hp : pairLeads bytes with
  | none => rw [hp] at h; cases h
  | some leads =>
    rw [hp] at h
    rw [areBytesValid_pairs hp, (Bool.and_eq_true _ _ |>.mp h).2, Bool.not_true]

/-! ## the comparison of numbers -/

/-- the number that the five bits of the first bytes form, and the number of ones -/
def leadsValue : List UInt8 → Nat
  | [] => 0
  | a :: rest => (a.toNat - 0xC0) + 65536 * leadsValue rest

def onesValue : Nat → Nat
  | 0 => 0
  | n + 1 => 1 + 65536 * onesValue n

theorem leadsValue_cmp (leads : List UInt8) (h : ∀ a ∈ leads, a &&& 0xE0 = 0xC0) :
    (exceeds leads = true ↔ onesValue leads.length < leadsValue leads) ∧
      (leads.all (· == 0xC1) = true ↔ leadsValue leads = onesValue leads.length) := by
  induction leads with
  | nil => exact ⟨iff_of_false (by rintro ⟨⟩) (Nat.lt_irrefl 0), iff_of_true rfl rfl⟩
  | cons a rest ih =>
    obtain ⟨ih1, ih2⟩ := ih fun b hb => h b (List.mem_cons_of_mem a hb)
    have ha := (lead_iff a).mp (h a List.mem_cons_self)
    have hle : 0xC2 ≤ a ↔ 0xC2 ≤ a.toNat := UInt8.le_iff_toNat_le
    have heq : a = 0xC1 ↔ a.toNat = 0xC1 := UInt8.toNat_inj.symm
    rw [exceeds, List.all_cons, List.length_cons, leadsValue, onesValue, Bool.or_eq_true, Bool.and_eq_true,
      Bool.and_eq_true, decide_eq_true_iff, beq_iff_eq, ih1, ih2, hle, heq]
    omega

/-! ## words of 32 bits -/

theorem wordBytes_lt (w : UInt32) : w.toNat < 256 ^ 4 := w.toNat_lt

theorem exists_wordBytes (w : UInt32) : ∃ a b c d, wordBytes w = [a, b, c, d] := ⟨_, _, _, _, rfl⟩

theorem toNat_and_word (w m : UInt32) :
    (w &&& m).toNat = natLE (List.zipWith (· &&& ·) (wordBytes w) (wordBytes m)) := by
  rw [wordBytes, wordBytes, ← bytesLE_and, ← UInt32.toNat_and, natLE_bytesLE (wordBytes_lt _)]

theorem and_eq_word (w m v : UInt32) :
    w &&& m = v ↔ List.zipWith (· &&& ·) (wordBytes w) (wordBytes m) = wordBytes v := by
  rw [wordBytes, wordBytes, ← bytesLE_and, ← UInt32.toNat_and, wordBytes,
    bytesLE_inj (wordBytes_lt _) (wordBytes_lt _), UInt32.toNat_inj]

theorem lt_and_word (w m k : UInt32) :
    w &&& m > k ↔ k.toNat < natLE (List.zipWith (· &&& ·) (wordBytes w) (wordBytes m)) := by
  rw [← toNat_and_word]
  exact UInt32.lt_iff_toNat_lt

/-- the bytes of a pair -/
def IsPair (a b : UInt8) : Prop := a &&& 0xE0 = 0xC0 ∧ b &&& 0xC0 = 0x80

theorem pairLeads_pair {a b : UInt8} (rest : List UInt8) (h : IsPair a b) :
    pairLeads (a :: b :: rest) = (pairLeads rest).map (a :: ·) := by
  have hpair : (a &&& 0xE0 == 0xC0 && isContinuation b) = true := by
    rw [Bool.and_eq_true]
    exact ⟨beq_iff_eq.mpr h.1, beq_iff_eq.mpr h.2⟩
  rw [pairLeads, if_pos hpair]

theorem isPair_of_pairLeads {a b : UInt8} {rest leads : List UInt8} (h : pairLeads (a :: b :: rest) = some leads) :
    IsPair a b ∧ ∃ leads', pairLeads rest = some leads' ∧ leads = a :: leads' := by
  unfold pairLeads at h
  cases hpair : a &&& 0xE0 == 0xC0 && isContinuation b with
  | false => rw [hpair] at h; cases h
  | true =>
    rw [hpair, if_pos rfl] at h
    obtain ⟨leads', hrest, rfl⟩ := Option.map_eq_some_iff.mp h
    obtain ⟨hlead, hcont⟩ := Bool.and_eq_true _ _ |>.mp hpair
    exact ⟨⟨beq_iff_eq.mp hlead, beq_iff_eq.mp hcont⟩, leads', hrest, rfl⟩

/-- a valid pair, as the zones with one pair find it -/
theorem areBytesValid_zone {a b : UInt8} (h : IsPair a b) (hlow : 1 < (a &&& 0x1F).toNat) (l : List UInt8) :
    areBytesValid initChecker (a :: b :: l) = areBytesValid initChecker l := by
  have ha := (lead_iff a).mp h.1
  rw [toNat_low a h.1] at hlow
  exact areBytesValid_pair (by omega) ha.2 ((isContinuation_iff b).mp (beq_iff_eq.mpr h.2)) l

theorem zone24 {w : UInt32} {a b c d : UInt8} (hw : wordBytes w = [a, b, c, d]) :
    (w &&& FAST_ZONE24 = 0x80C080C0 ↔ IsPair a b ∧ IsPair c d) ∧
      (IsPair a b → IsPair c d → (w &&& 0x1F001F > 0x010001 ↔ exceeds [a, c] = true)) := by
  constructor
  · rw [and_eq_word, hw, show wordBytes FAST_ZONE24 = [0xE0, 0xC0, 0xE0, 0xC0] by decide,
      show wordBytes 0x80C080C0 = [0xC0, 0x80, 0xC0, 0x80] by decide]
    simp only [List.zipWith_cons_cons, List.zipWith_nil_left, List.cons.injEq, and_true, IsPair, and_assoc]
  · intro h h'
    have hleads : ∀ x ∈ [a, c], x &&& 0xE0 = 0xC0 := by
      intro x hx
      rcases List.mem_cons.mp hx with rfl | hx
      · exact h.1
      · rw [List.mem_singleton.mp hx]
        exact h'.1
    rw [lt_and_word, hw, show wordBytes 0x1F001F = [0x1F, 0, 0x1F, 0] by decide, (leadsValue_cmp [a, c] hleads).1]
    simp only [List.zipWith_cons_cons, List.zipWith_nil_left, natLE_cons, UInt8.and_zero,
      toNat_low a h.1, toNat_low c h'.1,
      leadsValue, onesValue, List.length_cons, List.length_nil, UInt8.toNat_zero]
    show _ < _ + 256 * (0 + 256 * (_ + 256 * (0 + 256 * 0))) ↔ _
    rw [show (0x010001 : UInt32).toNat = 65537 by decide]
    omega

/-- a fast word that is not lax is valid -/
theorem isFastWord_sound {w : UInt32} (h : isFastWord w = true) (hlax : isLax (wordBytes w) = false) :
    areBytesValid initChecker (wordBytes w) = (true, initChecker) := by
  obtain ⟨a, b, c, d, hw⟩ := exists_wordBytes w
  have h4 := zone24 hw
  unfold isFastWord at h
  rw [Bool.or_eq_true, Bool.or_eq_true, Bool.or_eq_true, Bool.or_eq_true, Bool.and_eq_true, Bool.and_eq_true,
    Bool.and_eq_true, Bool.and_eq_true, beq_iff_eq, beq_iff_eq, beq_iff_eq, beq_iff_eq, beq_iff_eq, decide_eq_true_iff,
    decide_eq_true_iff, decide_eq_true_iff, decide_eq_true_iff] at h
  rcases h with (((h | ⟨h, hlow⟩) | ⟨h, hlow⟩) | ⟨h, hlow⟩) | ⟨h, hlow⟩
  · rw [and_eq_word, hw, show wordBytes FAST_ZONE1 = [0x80, 0x80, 0x80, 0x80] by decide,
      show wordBytes 0 = [0, 0, 0, 0] by decide] at h
    simp only [List.zipWith_cons_cons, List.zipWith_nil_left, List.cons.injEq, and_true, ascii_iff] at h
    obtain ⟨ha, hb, hc, hd⟩ := h
    rw [hw, areBytesValid_ascii ha, areBytesValid_ascii hb, areBytesValid_ascii hc, areBytesValid_ascii hd]
    rfl
  · rw [and_eq_word, hw, show wordBytes FAST_ZONE21 = [0xE0, 0xC0, 0x80, 0x80] by decide,
      show wordBytes 0x80C0 = [0xC0, 0x80, 0, 0] by decide] at h
    rw [lt_and_word, hw, show wordBytes 0x1F = [0x1F, 0, 0, 0] by decide, show (0x01 : UInt32).toNat = 1 by decide]
      at hlow
    simp only [List.zipWith_cons_cons, List.zipWith_nil_left, List.cons.injEq, and_true,
      ascii_iff, natLE_cons, natLE_nil,
      UInt8.and_zero, UInt8.toNat_zero] at h hlow
    obtain ⟨ha, hb, hc, hd⟩ := h
    rw [hw, areBytesValid_zone ⟨ha, hb⟩ (by omega), areBytesValid_ascii hc, areBytesValid_ascii hd]
    rfl
  · rw [and_eq_word, hw, show wordBytes FAST_ZONE22 = [0x80, 0xE0, 0xC0, 0x80] by decide,
      show wordBytes 0x80C000 = [0, 0xC0, 0x80, 0] by decide] at h
    rw [lt_and_word, hw, show wordBytes 0x1F00 = [0, 0x1F, 0, 0] by decide,
      show (0x0100 : UInt32).toNat = 256 by decide]
      at hlow
    simp only [List.zipWith_cons_cons, List.zipWith_nil_left, List.cons.injEq, and_true,
      ascii_iff, natLE_cons, natLE_nil,
      UInt8.and_zero, UInt8.toNat_zero] at h hlow
    obtain ⟨ha, hb, hc, hd⟩ := h
    rw [hw, areBytesValid_ascii ha, areBytesValid_zone ⟨hb, hc⟩ (by omega), areBytesValid_ascii hd]
    rfl
  · rw [and_eq_word, hw, show wordBytes FAST_ZONE23 = [0x80, 0x80, 0xE0, 0xC0] by decide,
      show wordBytes 0x80C00000 = [0, 0, 0xC0, 0x80] by decide] at h
    rw [lt_and_word, hw, show wordBytes 0x1F0000 = [0, 0, 0x1F, 0] by decide,
      show (0x010000 : UInt32).toNat = 65536 by decide] at hlow
    simp only [List.zipWith_cons_cons, List.zipWith_nil_left, List.cons.injEq, and_true,
      ascii_iff, natLE_cons, natLE_nil,
      UInt8.and_zero, UInt8.toNat_zero] at h hlow
    obtain ⟨ha, hb, hc, hd⟩ := h
    rw [hw, areBytesValid_ascii ha, areBytesValid_ascii hb, areBytesValid_zone ⟨hc, hd⟩ (by omega)]
    rfl
  · obtain ⟨hab, hcd⟩ := h4.1.mp h
    have hleads : pairLeads [a, b, c, d] = some [a, c] := by
      rw [pairLeads_pair _ hab, pairLeads_pair _ hcd]
      rfl
    rw [hw] at hlax ⊢
    rw [areBytesValid_pairs hleads]
    unfold isLax at hlax
    rw [hleads] at hlax
    dsimp only at hlax
    rw [(h4.2 hab hcd).mp hlow, Bool.true_and] at hlax
    rw [hlax, Bool.not_false]

/-- Every lax word is fast. -/
theorem isFastWord_lax {w : UInt32} (hlax : isLax (wordBytes w) = true) : isFastWord w = true := by
  obtain ⟨a, b, c, d, hw⟩ := exists_wordBytes w
  have h4 := zone24 hw
  rw [hw] at hlax
  unfold isLax at hlax
  cases hp : pairLeads [a, b, c, d] with
  | none => rw [hp] at hlax; cases hlax
  | some leads =>
    rw [hp] at hlax
    obtain ⟨hab, leads', hrest, rfl⟩ := isPair_of_pairLeads hp
    obtain ⟨hcd, leads'', hnil, rfl⟩ := isPair_of_pairLeads hrest
    obtain rfl : [] = leads'' := Option.some.inj hnil
    unfold isFastWord
    rw [Bool.or_eq_true, Bool.and_eq_true, beq_iff_eq, decide_eq_true_iff]
    exact Or.inr ⟨h4.1.mpr ⟨hab, hcd⟩, (h4.2 hab hcd).mpr (Bool.and_eq_true _ _ |>.mp hlax).1⟩

/-! ## words of 64 bits -/

theorem word64Bytes_lt (w : UInt64) : w.toNat < 256 ^ 8 := w.toNat_lt

theorem exists_word64Bytes (w : UInt64) : ∃ a b c d e f g h, word64Bytes w = [a, b, c, d, e, f, g, h] :=
  ⟨_, _, _, _, _, _, _, _, rfl⟩

theorem toNat_and_word64 (w m : UInt64) :
    (w &&& m).toNat = natLE (List.zipWith (· &&& ·) (word64Bytes w) (word64Bytes m)) := by
  rw [word64Bytes, word64Bytes, ← bytesLE_and, ← UInt64.toNat_and, natLE_bytesLE (word64Bytes_lt _)]

theorem and_eq_word64 (w m v : UInt64) :
    w &&& m = v ↔ List.zipWith (· &&& ·) (word64Bytes w) (word64Bytes m) = word64Bytes v := by
  rw [word64Bytes, word64Bytes, ← bytesLE_and, ← UInt64.toNat_and, word64Bytes,
    bytesLE_inj (word64Bytes_lt _) (word64Bytes_lt _), UInt64.toNat_inj]

theorem lt_and_word64 (w m k : UInt64) :
    w &&& m > k ↔ k.toNat < natLE (List.zipWith (· &&& ·) (word64Bytes w) (word64Bytes m)) := by
  rw [← toNat_and_word64]
  exact UInt64.lt_iff_toNat_lt

theorem zone2_64 {w : UInt64} {a b c d e f g h : UInt8} (hw : word64Bytes w = [a, b, c, d, e, f, g, h]) :
    (w &&& FAST_ZONE2_64 = 0x80C080C080C080C0 ↔ (IsPair a b ∧ IsPair c d) ∧ IsPair e f ∧ IsPair g h) ∧
      (IsPair a b → IsPair c d → IsPair e f → IsPair g h →
        (w &&& 0x001F001F001F001F > 0x0001000100010001 ↔ exceeds [a, c, e, g] = true)) := by
  constructor
  · rw [and_eq_word64, hw,
      show word64Bytes FAST_ZONE2_64 = [0xE0, 0xC0, 0xE0, 0xC0, 0xE0, 0xC0, 0xE0, 0xC0] by decide,
      show word64Bytes 0x80C080C080C080C0 = [0xC0, 0x80, 0xC0, 0x80, 0xC0, 0x80, 0xC0, 0x80] by decide]
    simp only [List.zipWith_cons_cons, List.zipWith_nil_left, List.cons.injEq, and_true, IsPair, and_assoc]
  · intro h1 h2 h3 h4
    have hleads : ∀ x ∈ [a, c, e, g], x &&& 0xE0 = 0xC0 := by
      intro x hx
      simp only [List.mem_cons, List.not_mem_nil, or_false] at hx
      rcases hx with rfl | rfl | rfl | rfl
      · exact h1.1
      · exact h2.1
      · exact h3.1
      · exact h4.1
    rw [lt_and_word64, hw,
      show word64Bytes 0x001F001F001F001F = [0x1F, 0, 0x1F, 0, 0x1F, 0, 0x1F, 0] by decide,
      show (0x0001000100010001 : UInt64).toNat = 281479271743489 by decide, (leadsValue_cmp [a, c, e, g] hleads).1,
      show onesValue [a, c, e, g].length = 281479271743489 from rfl]
    simp only [List.zipWith_cons_cons, List.zipWith_nil_left, natLE_cons, natLE_nil, UInt8.and_zero, toNat_low a h1.1,
      toNat_low c h2.1, toNat_low e h3.1, toNat_low g h4.1, leadsValue, UInt8.toNat_zero]
    omega

theorem isFastWord64_sound {w : UInt64} (hfast : isFastWord64 w = true) (hlax : isLax (word64Bytes w) = false) :
    areBytesValid initChecker (word64Bytes w) = (true, initChecker) := by
  obtain ⟨a, b, c, d, e, f, g, h, hw⟩ := exists_word64Bytes w
  have h4 := zone2_64 hw
  unfold isFastWord64 at hfast
  rw [Bool.or_eq_true, Bool.and_eq_true, beq_iff_eq, beq_iff_eq, decide_eq_true_iff] at hfast
  rcases hfast with hzone | ⟨hzone, hlow⟩
  · rw [and_eq_word64, hw,
      show word64Bytes FAST_ZONE1_64 = [0x80, 0x80, 0x80, 0x80, 0x80, 0x80, 0x80, 0x80] by decide,
      show word64Bytes 0 = [0, 0, 0, 0, 0, 0, 0, 0] by decide] at hzone
    simp only [List.zipWith_cons_cons, List.zipWith_nil_left, List.cons.injEq, and_true, ascii_iff] at hzone
    obtain ⟨ha, hb, hc, hd, he, hf, hg, hh⟩ := hzone
    rw [hw, areBytesValid_ascii ha, areBytesValid_ascii hb, areBytesValid_ascii hc, areBytesValid_ascii hd,
      areBytesValid_ascii he, areBytesValid_ascii hf, areBytesValid_ascii hg, areBytesValid_ascii hh]
    rfl
  · obtain ⟨⟨hab, hcd⟩, hef, hgh⟩ := h4.1.mp hzone
    have hleads : pairLeads [a, b, c, d, e, f, g, h] = some [a, c, e, g] := by
      rw [pairLeads_pair _ hab, pairLeads_pair _ hcd, pairLeads_pair _ hef, pairLeads_pair _ hgh]
      rfl
    rw [hw] at hlax ⊢
    rw [areBytesValid_pairs hleads]
    unfold isLax at hlax
    rw [hleads] at hlax
    dsimp only at hlax
    rw [(h4.2 hab hcd hef hgh).mp hlow, Bool.true_and] at hlax
    rw [hlax, Bool.not_false]

theorem isFastWord64_lax {w : UInt64} (hlax : isLax (word64Bytes w) = true) : isFastWord64 w = true := by
  obtain ⟨a, b, c, d, e, f, g, h, hw⟩ := exists_word64Bytes w
  have h4 := zone2_64 hw
  rw [hw] at hlax
  unfold isLax at hlax
  cases hp : pairLeads [a, b, c, d, e, f, g, h] with
  | none => rw [hp] at hlax; cases hlax
  | some leads =>
    rw [hp] at hlax
    obtain ⟨hab, l1, hp1, rfl⟩ := isPair_of_pairLeads hp
    obtain ⟨hcd, l2, hp2, rfl⟩ := isPair_of_pairLeads hp1
    obtain ⟨hef, l3, hp3, rfl⟩ := isPair_of_pairLeads hp2
    obtain ⟨hgh, l4, hnil, rfl⟩ := isPair_of_pairLeads hp3
    obtain rfl : [] = l4 := Option.some.inj hnil
    unfold isFastWord64
    rw [Bool.or_eq_true, Bool.and_eq_true, decide_eq_true_iff]
    refine Or.inr ⟨beq_iff_eq.mpr (h4.1.mpr ⟨⟨hab, hcd⟩, hef, hgh⟩), ?_⟩
    exact (h4.2 hab hcd hef hgh).mpr (Bool.and_eq_true _ _ |>.mp hlax).1

/-! ## the loops -/

/-- what the words that are passed over have in common: they are valid or lax -/
structure FastPath {W : Type} (isFast : W → Bool) (bytes : W → List UInt8) : Prop where
  sound : ∀ w, isFast w = true → isLax (bytes w) = false → areBytesValid initChecker (bytes w) = (true, initChecker)
  lax : ∀ w, isLax (bytes w) = true → isFast w = true

theorem fastPath32 : FastPath isFastWord wordBytes := ⟨fun _ => isFastWord_sound, fun _ => isFastWord_lax⟩
theorem fastPath64 : FastPath isFastWord64 word64Bytes := ⟨fun _ => isFastWord64_sound, fun _ => isFastWord64_lax⟩

/-- the words without the lax ones that are met between two characters -/
def withoutLax : Checker → List (List UInt8) → List (List UInt8)
  | _, [] => []
  | c, word :: words =>
    if c.nextByte == 1 && isLax word then withoutLax c words
    else word :: withoutLax (areBytesValid c word).2 words

theorem nextByte_after {p : List UInt8} (hp : Unfinished Utf8Char p) (h : (after p).nextByte = 1) :
    after p = initChecker := by
  match p, hp, h with
  | [], _, _ => rfl
  | [a], _, h => exact absurd h (show ¬ (2 : UInt8) = 1 by decide)
  | [a, b], _, h => exact absurd h (show ¬ (3 : UInt8) = 1 by decide)
  | [a, b, c], _, h => exact absurd h (show ¬ (4 : UInt8) = 1 by decide)
  | a :: b :: c :: d :: l, hp, _ => exact absurd hp (not_unfinished_four a b c d l)

/-- The word-wise loop does what the byte-wise one does without the lax words. -/
theorem areWordsValid_eq {W : Type} {isFast : W → Bool} {bytes : W → List UInt8} (hfast : FastPath isFast bytes)
    {p : List UInt8} (hp : Unfinished Utf8Char p) (sequence : List W) :
    areWordsValid isFast bytes (after p) sequence
      = areBytesValid (after p) (withoutLax (after p) (sequence.map bytes)).flatten := by
  induction sequence generalizing p with
  | nil => rfl
  | cons w sequence ih =>
    rw [List.map_cons]
    unfold areWordsValid withoutLax
    by_cases hlax : ((after p).nextByte == 1 && isLax (bytes w)) = true
    · obtain ⟨hnext, hw⟩ := Bool.and_eq_true _ _ |>.mp hlax
      rw [if_pos hlax, if_pos (by rw [hnext, hfast.lax w hw]; rfl)]
      exact ih hp
    · rw [if_neg hlax, List.flatten_cons, areBytesValid_append]
      by_cases hpass : ((after p).nextByte == 1 && isFast w) = true
      · obtain ⟨hnext, hw⟩ := Bool.and_eq_true _ _ |>.mp hpass
        have hinit := nextByte_after hp (beq_iff_eq.mp hnext)
        have hno : isLax (bytes w) = false := by
          rw [hnext, Bool.true_and] at hlax
          exact Bool.of_not_eq_true hlax
        rw [if_pos hpass, ih hp, hinit, hfast.sound w hw hno]
      · rw [if_neg hpass]
        cases h : areBytesValid (after p) (bytes w) with
        | mk ok c =>
          cases ok with
          | true =>
            obtain ⟨q, hq, rfl⟩ := areBytesValid_after hp h
            exact ih hq
          | false => rfl

/-- A text that the byte-wise checker accepts has no lax words. -/
theorem withoutLax_eq {p : List UInt8} (hp : Unfinished Utf8Char p) {words : List (List UInt8)}
    (h : (areBytesValid (after p) words.flatten).1 = true) : withoutLax (after p) words = words := by
  induction words generalizing p with
  | nil => rfl
  | cons word words ih =>
    rw [List.flatten_cons, areBytesValid_append] at h
    unfold withoutLax
    cases hword : areBytesValid (after p) word with
    | mk ok c =>
      rw [hword] at h
      cases ok with
      | false => cases h
      | true =>
        have hlax : ¬ ((after p).nextByte == 1 && isLax word) = true := by
          intro hlax
          obtain ⟨hnext, hw⟩ := Bool.and_eq_true _ _ |>.mp hlax
          rw [nextByte_after hp (beq_iff_eq.mp hnext), areBytesValid_lax hw] at hword
          cases hword
        obtain ⟨q, hq, rfl⟩ := areBytesValid_after hp hword
        rw [if_neg hlax, ih hq h]

/-! ## agreement -/

/-- the checkers that calls of the byte-wise function leave -/
inductive Checker.Reachable : Checker → Prop where
  | init : Reachable initChecker
  | check {c : Checker} (sequence : List UInt8) (isComplete : Bool) (h : Reachable c) :
      Reachable (isByteSequenceValid c sequence isComplete).2

/-- the same verdict, and the same checker where it is true -/
structure Agrees (r s : Bool × Checker) : Prop where
  verdict : r.1 = s.1
  checker : s.1 = true → r.2 = s.2

/-- the parts of a text that a function checks: bytes, words, bytes -/
structure Parts where
  pre : List UInt8
  words : List (List UInt8)
  post : List UInt8

def Parts.bytes (parts : Parts) : List UInt8 := parts.pre ++ (parts.words.flatten ++ parts.post)

/-- the parts without the lax words -/
def Parts.withoutLax (c : Checker) (parts : Parts) : Parts :=
  { parts with words := Utf8.withoutLax (areBytesValid c parts.pre).2 parts.words }

/-- No lax word is met between two characters, or the byte-wise checker refuses what is left without them. -/
def LaxFree (c : Checker) (parts : Parts) (isComplete : Bool) : Prop :=
  parts.withoutLax c = parts ∨ (isByteSequenceValid c (parts.withoutLax c).bytes isComplete).1 = false

theorem reachable_after {c : Checker} (h : c.Reachable) : ∃ p, Unfinished Utf8Char p ∧ c = after p := by
  induction h with
  | init => exact ⟨[], unfinished_nil, rfl⟩
  | check sequence isComplete _ ih =>
    obtain ⟨p, hp, rfl⟩ := ih
    have hinit : ∃ q, Unfinished Utf8Char q ∧ initChecker = after q := ⟨[], unfinished_nil, rfl⟩
    unfold isByteSequenceValid
    cases h : areBytesValid (after p) sequence with
    | mk ok c =>
      cases ok with
      | true =>
        dsimp only
        cases isComplete && c.startByte != UC_FINISH with
        | true => exact hinit
        | false => exact areBytesValid_after hp h
      | false =>
        rw [areBytesValid_run] at h
        cases hrun : run stepByte (after p) sequence with
        | none =>
          rw [hrun] at h
          obtain rfl := (Prod.mk.inj h).2
          exact hinit
        | some c' =>
          rw [hrun] at h
          cases (Prod.mk.inj h).1

theorem isByteSequenceValid_eq (c : Checker) (l : List UInt8) (isComplete : Bool) :
    isByteSequenceValid c l isComplete = match areBytesValid c l with
      | (false, c) => (false, c)
      | (true, c) => if isComplete && c.startByte != UC_FINISH then (false, initChecker) else (true, c) := rfl

theorem areBytesValid_of_valid {c : Checker} {l : List UInt8} {isComplete : Bool}
    (h : (isByteSequenceValid c l isComplete).1 = true) : (areBytesValid c l).1 = true := by
  rw [isByteSequenceValid_eq] at h
  cases hl : areBytesValid c l with
  | mk ok c' =>
    rw [hl] at h
    cases ok with
    | true => rfl
    | false => exact h

theorem withoutLax_of_valid {p : List UInt8} (hp : Unfinished Utf8Char p) {parts : Parts}
    (h : (areBytesValid (after p) parts.bytes).1 = true) : parts.withoutLax (after p) = parts := by
  unfold Parts.bytes at h
  rw [areBytesValid_append] at h
  cases hpre : areBytesValid (after p) parts.pre with
  | mk ok c =>
    rw [hpre] at h
    cases ok with
    | false => cases h
    | true =>
      obtain ⟨q, hq, rfl⟩ := areBytesValid_after hp hpre
      dsimp only at h
      rw [areBytesValid_append] at h
      have hwords : (areBytesValid (after q) parts.words.flatten).1 = true := by
        cases hw : areBytesValid (after q) parts.words.flatten with
        | mk ok c =>
          rw [hw] at h
          cases ok with
          | true => rfl
          | false => exact h
      unfold Parts.withoutLax
      rw [hpre, withoutLax_eq hq hwords]

/-- a function that does what the byte-wise one does without the lax words -/
theorem agrees_iff {p : List UInt8} (hp : Unfinished Utf8Char p) {parts : Parts}
    {isComplete : Bool} {r : Bool × Checker}
    (hr : Agrees r (isByteSequenceValid (after p) (parts.withoutLax (after p)).bytes isComplete)) :
    Agrees r (isByteSequenceValid (after p) parts.bytes isComplete) ↔ LaxFree (after p) parts isComplete := by
  constructor
  · intro h
    by_cases hvalid : (isByteSequenceValid (after p) parts.bytes isComplete).1 = true
    · exact Or.inl (withoutLax_of_valid hp (areBytesValid_of_valid hvalid))
    · refine Or.inr ?_
      rw [← hr.verdict, h.verdict]
      exact Bool.of_not_eq_true hvalid
  · rintro (h | h)
    · rwa [h] at hr
    · have hno : (isByteSequenceValid (after p) parts.bytes isComplete).1 = false := by
        by_contra hvalid
        rw [Bool.not_eq_false] at hvalid
        rw [withoutLax_of_valid hp (areBytesValid_of_valid hvalid), hvalid] at h
        cases h
      exact ⟨by rw [hr.verdict, h, hno], fun hvalid => by rw [hno] at hvalid; cases hvalid⟩

theorem isSequenceValidWith_agrees {W : Type} {isFast : W → Bool} {bytes : W → List UInt8}
    (hfast : FastPath isFast bytes) {p : List UInt8} (hp : Unfinished Utf8Char p)
    (sequence : List W) (isComplete : Bool) :
    isSequenceValidWith isFast bytes (after p) sequence isComplete
      = isByteSequenceValid (after p) (withoutLax (after p) (sequence.map bytes)).flatten isComplete := by
  unfold isSequenceValidWith
  rw [areWordsValid_eq hfast hp]
  exact (isByteSequenceValid_eq _ _ _).symm

/-! ## at any alignment -/

/-- the bytes of the aligned words -/
def chunks (bytewidth : Nat) : (mainLength : Nat) → List UInt8 → List (List UInt8)
  | 0, _ => []
  | mainLength + 1, bytes => bytes.take bytewidth :: chunks bytewidth mainLength (bytes.drop bytewidth)

/-- the parts of a text that `cjet_is_word_sequence_valid_auto_alligned` checks -/
def autoParts (fastSize address : Nat) (sequence : List UInt8) : Parts :=
  if sequence.length < 8 then ⟨sequence, [], []⟩
  else
    let pre := preLength fastSize address
    let mainLength := (sequence.length - pre) / fastSize
    ⟨sequence.take pre, chunks fastSize mainLength (sequence.drop pre), sequence.drop (pre + mainLength * fastSize)⟩

theorem chunks_flatten (bytewidth mainLength : Nat) (bytes : List UInt8) :
    (chunks bytewidth mainLength bytes).flatten = bytes.take (mainLength * bytewidth) := by
  induction mainLength generalizing bytes with
  | zero => rw [Nat.zero_mul, List.take_zero]; rfl
  | succ mainLength ih =>
    rw [chunks, List.flatten_cons, ih, Nat.succ_mul, Nat.add_comm, List.take_add]

theorem autoParts_bytes (fastSize address : Nat) (sequence : List UInt8) :
    (autoParts fastSize address sequence).bytes = sequence := by
  unfold autoParts Parts.bytes
  by_cases hshort : sequence.length < 8
  · rw [if_pos hshort]
    simp
  · rw [if_neg hshort]
    dsimp only
    rw [chunks_flatten, ← List.drop_drop, List.take_append_drop, List.take_append_drop]

theorem natLE_lt (l : List UInt8) : natLE l < 256 ^ l.length := by
  induction l with
  | nil => decide
  | cons b l ih =>
    have hb := b.toNat_lt
    rw [natLE_cons, List.length_cons, Nat.pow_succ]
    omega

theorem loadWords_map {mainLength : Nat} {bytes : List UInt8} (h : mainLength * 4 ≤ bytes.length) :
    (loadWords mainLength bytes).map wordBytes = chunks 4 mainLength bytes := by
  induction mainLength generalizing bytes with
  | zero => rfl
  | succ mainLength ih =>
    have hlen : (bytes.take 4).length = 4 := by rw [List.length_take]; omega
    have hlt := natLE_lt (bytes.take 4)
    have hbytes := bytesLE_natLE (bytes.take 4)
    rw [hlen] at hlt hbytes
    rw [loadWords, List.map_cons, chunks, ih (by rw [List.length_drop]; omega), wordBytes,
      UInt32.toNat_ofNat_of_lt' hlt, hbytes]

theorem loadWords64_map {mainLength : Nat} {bytes : List UInt8} (h : mainLength * 8 ≤ bytes.length) :
    (loadWords64 mainLength bytes).map word64Bytes = chunks 8 mainLength bytes := by
  induction mainLength generalizing bytes with
  | zero => rfl
  | succ mainLength ih =>
    have hlen : (bytes.take 8).length = 8 := by rw [List.length_take]; omega
    have hlt := natLE_lt (bytes.take 8)
    have hbytes := bytesLE_natLE (bytes.take 8)
    rw [hlen] at hlt hbytes
    rw [loadWords64, List.map_cons, chunks, ih (by rw [List.length_drop]; omega), word64Bytes,
      UInt64.toNat_ofNat_of_lt' hlt, hbytes]

/-- the end of `cjet_is_word_sequence_valid_auto_alligned` -/
def finishText (isComplete : Bool) (r : Bool × Checker) : Bool × Checker :=
  if isComplete && r.2.startByte != UC_FINISH then (false, initChecker) else r

theorem isByteSequenceValid_incomplete (c : Checker) (l : List UInt8) :
    isByteSequenceValid c l false = areBytesValid c l := check_incomplete .byteSequence c l

/-- a text of which some part is not valid -/
theorem finishText_false (isComplete : Bool) (c c' : Checker) :
    Agrees (finishText isComplete (false, c)) (false, c') := by
  unfold finishText
  dsimp only
  cases isComplete && c.startByte != UC_FINISH with
  | true => exact ⟨rfl, by rintro ⟨⟩⟩
  | false => exact ⟨rfl, by rintro ⟨⟩⟩

theorem finishText_areBytesValid (isComplete : Bool) (c : Checker) (l : List UInt8) :
    Agrees (finishText isComplete (areBytesValid c l)) (isByteSequenceValid c l isComplete) := by
  rw [isByteSequenceValid_eq]
  cases areBytesValid c l with
  | mk ok c' =>
    cases ok with
    | true => exact ⟨rfl, fun _ => rfl⟩
    | false => exact finishText_false isComplete c' c'

theorem checkAlligned_agrees {W : Type} {isFast : W → Bool} {bytes : W → List UInt8} (hfast : FastPath isFast bytes)
    {load : Nat → List UInt8 → List W} {bytewidth : Nat} (hpos : 0 < bytewidth)
    (hload : ∀ mainLength l, mainLength * bytewidth ≤ l.length → (load mainLength l).map bytes
      = chunks bytewidth mainLength l)
    {p : List UInt8} (hp : Unfinished Utf8Char p) (address : Nat) {sequence : List UInt8}
    (hlong : ¬ sequence.length < 8)
    (isComplete : Bool) :
    Agrees (finishText isComplete
        (checkAlligned bytewidth (isSequenceValidWith isFast bytes) load (after p) address sequence))
      (isByteSequenceValid (after p)
        ((autoParts bytewidth address sequence).withoutLax (after p)).bytes isComplete) := by
  have hmain : (load ((sequence.length - preLength bytewidth address) / bytewidth)
      (sequence.drop (preLength bytewidth address))).map bytes
      = chunks bytewidth ((sequence.length - preLength bytewidth address) / bytewidth)
        (sequence.drop (preLength bytewidth address)) := by
    apply hload
    rw [List.length_drop]
    exact Nat.div_mul_le_self _ _
  unfold checkAlligned autoParts Parts.withoutLax Parts.bytes
  rw [if_neg hlong]
  dsimp only
  generalize (sequence.length - preLength bytewidth address) / bytewidth = mainLength at hmain
  rw [isByteSequenceValid_incomplete, isByteSequenceValid_eq (after p), areBytesValid_append]
  cases hpre : areBytesValid (after p) (sequence.take (preLength bytewidth address)) with
  | mk ok1 c1 =>
    cases ok1 with
    | false =>
      dsimp only
      rw [Bool.false_and, Bool.false_and]
      exact finishText_false isComplete _ _
    | true =>
      obtain ⟨q, hq, rfl⟩ := areBytesValid_after hp hpre
      dsimp only
      rw [isSequenceValidWith_agrees hfast hq, hmain, isByteSequenceValid_incomplete, areBytesValid_append]
      cases hwords : areBytesValid (after q) (withoutLax (after q)
          (chunks bytewidth mainLength (sequence.drop (preLength bytewidth address)))).flatten with
      | mk ok2 c2 =>
        cases ok2 with
        | false =>
          dsimp only
          rw [Bool.and_false, Bool.false_and]
          exact finishText_false isComplete _ _
        | true =>
          dsimp only
          rw [isByteSequenceValid_incomplete, Bool.and_true, Bool.true_and]
          have h := finishText_areBytesValid isComplete c2
            (sequence.drop (preLength bytewidth address + mainLength * bytewidth))
          rw [isByteSequenceValid_eq] at h
          exact h

theorem isWordSequenceValidAutoAlligned_eq (fastSize : Nat) (c : Checker) (address : Nat) (sequence : List UInt8)
    (isComplete : Bool) :
    isWordSequenceValidAutoAlligned fastSize c address sequence isComplete
      = finishText isComplete
          (if (if sequence.length < 8 then 1 else fastSize) = 8 then checkAlligned 8 isWord64SequenceValid loadWords64 c address sequence
            else if (if sequence.length < 8 then 1 else fastSize) = 4 then checkAlligned 4 isWordSequenceValid loadWords c address sequence
            else isByteSequenceValid c sequence isComplete) := rfl

/-- a sequence that was checked to its end is not refused a second time -/
theorem finishText_isByteSequenceValid (c : Checker) (sequence : List UInt8) (isComplete : Bool) :
    Agrees (finishText isComplete (isByteSequenceValid c sequence isComplete))
      (isByteSequenceValid c sequence isComplete) := by
  rw [isByteSequenceValid_eq]
  cases areBytesValid c sequence with
  | mk ok c' =>
    cases ok with
    | false => exact finishText_false isComplete c' c'
    | true =>
      dsimp only
      cases hend : isComplete && c'.startByte != UC_FINISH with
      | true => exact finishText_false isComplete initChecker initChecker
      | false =>
        have h : finishText isComplete (true, c') = (true, c') := by rw [finishText, hend]; rfl
        rw [if_neg Bool.false_ne_true, h]
        exact ⟨rfl, fun _ => rfl⟩

theorem autoAlligned_agrees {fastSize : Nat} (hsize : fastSize = 4 ∨ fastSize = 8) {p : List UInt8}
    (hp : Unfinished Utf8Char p) (address : Nat) (sequence : List UInt8) (isComplete : Bool) :
    Agrees (isWordSequenceValidAutoAlligned fastSize (after p) address sequence isComplete)
      (isByteSequenceValid (after p)
        ((autoParts fastSize address sequence).withoutLax (after p)).bytes isComplete) := by
  rw [isWordSequenceValidAutoAlligned_eq]
  by_cases hshort : sequence.length < 8
  · have hparts : ((autoParts fastSize address sequence).withoutLax (after p)).bytes = sequence := by
      unfold autoParts
      rw [if_pos hshort]
      simp [Parts.withoutLax, Parts.bytes, withoutLax]
    rw [if_pos hshort, if_neg (by decide), if_neg (by decide), hparts]
    exact finishText_isByteSequenceValid (after p) sequence isComplete
  · rw [if_neg hshort]
    rcases hsize with rfl | rfl
    · rw [if_neg (by decide), if_pos rfl]
      exact checkAlligned_agrees fastPath32 (by decide) (fun _ _ => loadWords_map) hp address hshort isComplete
    · rw [if_pos rfl]
      exact checkAlligned_agrees fastPath64 (by decide) (fun _ _ => loadWords64_map) hp address hshort isComplete

/-- a text of words only -/
theorem wordParts_bytes {W : Type} (bytes : W → List UInt8) (sequence : List W) :
    Parts.bytes ⟨[], sequence.map bytes, []⟩ = sequence.flatMap bytes := by
  simp [Parts.bytes, List.flatMap]

theorem words_agrees {W : Type} {isFast : W → Bool} {bytes : W → List UInt8} (hfast : FastPath isFast bytes)
    {p : List UInt8} (hp : Unfinished Utf8Char p) (sequence : List W) (isComplete : Bool) :
    Agrees (isSequenceValidWith isFast bytes (after p) sequence isComplete)
      (isByteSequenceValid (after p) (Parts.withoutLax (after p) ⟨[], sequence.map bytes, []⟩).bytes isComplete) := by
  have hparts : (Parts.withoutLax (after p) ⟨[], sequence.map bytes, []⟩).bytes
      = (withoutLax (after p) (sequence.map bytes)).flatten := by
    simp [Parts.withoutLax, Parts.bytes, areBytesValid]
  rw [isSequenceValidWith_agrees hfast hp, hparts]
  exact ⟨rfl, fun _ => rfl⟩

/-- **The word-wise functions agree with the byte-wise one exactly where they meet no lax word**, or the rest of the
text is refused anyway. -/
theorem words_agree_iff (c : Checker) (hc : c.Reachable) (isComplete : Bool) :
    (∀ sequence : List UInt32,
      Agrees (isWordSequenceValid c sequence isComplete) (isByteSequenceValid c (sequence.flatMap wordBytes) isComplete)
        ↔ LaxFree c ⟨[], sequence.map wordBytes, []⟩ isComplete) ∧
    (∀ sequence : List UInt64,
      Agrees (isWord64SequenceValid c sequence isComplete)
        (isByteSequenceValid c (sequence.flatMap word64Bytes) isComplete)
        ↔ LaxFree c ⟨[], sequence.map word64Bytes, []⟩ isComplete) ∧
    ∀ (fastSize address : Nat) (sequence : List UInt8), fastSize = 4 ∨ fastSize = 8 →
      (Agrees (isWordSequenceValidAutoAlligned fastSize c address sequence isComplete)
          (isByteSequenceValid c sequence isComplete)
        ↔ LaxFree c (autoParts fastSize address sequence) isComplete) := by
  obtain ⟨p, hp, rfl⟩ := reachable_after hc
  refine ⟨fun sequence => ?_, fun sequence => ?_, fun fastSize address sequence hsize => ?_⟩
  · rw [← wordParts_bytes wordBytes sequence]
    exact agrees_iff hp (words_agrees fastPath32 hp sequence isComplete)
  · rw [← wordParts_bytes word64Bytes sequence]
    exact agrees_iff hp (words_agrees fastPath64 hp sequence isComplete)
  · have h := agrees_iff hp (autoAlligned_agrees hsize hp address sequence isComplete)
    rwa [autoParts_bytes] at h

/-- `C3 80 C0 80` is refused by both, `C0 80 C3 80` only by the byte-wise one -/
theorem words_agree_lax :
    (Agrees (isWordSequenceValid initChecker [0x80C080C3] true)
        (isByteSequenceValid initChecker ([0x80C080C3].flatMap wordBytes) true)
      ↔ LaxFree initChecker ⟨[], [0x80C080C3].map wordBytes, []⟩ true) ∧
    (Agrees (isWordSequenceValid initChecker [0x80C380C0] true)
        (isByteSequenceValid initChecker ([0x80C380C0].flatMap wordBytes) true)
      ↔ LaxFree initChecker ⟨[], [0x80C380C0].map wordBytes, []⟩ true) :=
  ⟨(words_agree_iff initChecker .init true).1 _, (words_agree_iff initChecker .init true).1 _⟩

/-- one word, accepted at once though its first pair is overlong -/
theorem overlong_word_accepted :
    ¬ ∀ (c : Checker), c.Reachable → ∀ (isComplete : Bool) (sequence : List UInt32),
        Agrees (isWordSequenceValid c sequence isComplete)
          (isByteSequenceValid c (sequence.flatMap wordBytes) isComplete) := by
  intro h
  have hv := (h initChecker .init true [0x80C380C0]).verdict
  exact absurd hv (by decide)

end Utf8
end Cjet
