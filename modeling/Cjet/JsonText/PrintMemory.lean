import Cjet.JsonText.Memory
import Cjet.JsonText.Print

/-!
# The memory of the JSON printer

* `Printing`, `Printed`      what has been written of the text;
* `PrintOutcome`             what a function of the printer has done when it returns;
* `print_spec`               each of them writes its part of the text, or there is no room for it;
* `print_safe`               whatever the value and whichever blocks it gets, the printer stays within its blocks and
                             returns a block with the text, or releases all it has allocated.
-/

set_option linter.unusedVariables false

namespace Cjet.JsonText
open Stateful Prog

/-! ## what has been written -/

/-- the text up to the offset is `front`, and behind it stands `pending` -/
structure Printing (start : Ledger) (front pending : List UInt8) (s : PrintBuffer) : Prop where
  shown : ∃ address block, s.buffer = some (address, block) ∧ block.length = s.length ∧
    block.take (front.length + pending.length) = front ++ pending ∧ Owns start s.heap {address}
  offset_eq : s.offset = front.length
  room : front.length + pending.length ≤ s.length
  offset_lt : s.offset < s.length
  length_le : s.length ≤ intMax

/-- the text is `whole`; the last part of it may stand behind the offset, with a zero byte at its end -/
def Printed (start : Ledger) (whole : List UInt8) (s : PrintBuffer) : Prop :=
  ∃ front tail, Printing start front (tail ++ [0]) s ∧ 0 ∉ tail ∧ front ++ tail = whole

/-- the block that is still to be released -/
def PrintBuffer.blocks (s : PrintBuffer) : Multiset Addr := s.buffer.elim 0 fun b => {b.1}

section
variable (alloc : Allocator) (start : Ledger) (why : Prop) (Good : PrintBuffer → Prop)

/-- `Good`, or nothing is left but the block, for want of memory or for another reason -/
def PrintOutcome (s : PrintBuffer) (ok : Bool) (t : PrintBuffer) : Prop :=
  s.calls ≤ t.calls ∧
    if ok = true then Good t
    else Owns start t.heap t.blocks ∧ (Refused alloc.granted s.calls t.calls ∨ why)

end

section
variable {alloc : Allocator} {start : Ledger} {front pending : List UInt8} {s : PrintBuffer} {why : Prop}
  {Good Good' : PrintBuffer → Prop}

theorem Printing.shorten (h : Printing start front pending s) : Printing start front [] s where
  shown := by
    obtain ⟨address, block, hbuffer, hlength, htake, howns⟩ := h.shown
    refine ⟨address, block, hbuffer, hlength, ?_, howns⟩
    have hfront := congrArg (List.take front.length) htake
    rw [List.take_take, Nat.min_eq_left (Nat.le_add_right _ _), List.take_left] at hfront
    rw [List.length_nil, Nat.add_zero, List.append_nil]
    exact hfront
  offset_eq := h.offset_eq
  room := Nat.le_trans (Nat.add_le_add_left (Nat.zero_le _) _) h.room
  offset_lt := h.offset_lt
  length_le := h.length_le

theorem Printing.owns (h : Printing start front pending s) : Owns start s.heap s.blocks := by
  obtain ⟨address, block, hbuffer, -, -, howns⟩ := h.shown
  unfold PrintBuffer.blocks
  rw [hbuffer]
  exact howns

theorem Printing.congr {t : PrintBuffer} (h : Printing start front pending s) (hbuffer : t.buffer = s.buffer)
    (hlength : t.length = s.length) (hoffset : t.offset = s.offset) (hheap : t.heap = s.heap) :
    Printing start front pending t where
  shown := by
    rw [hbuffer, hlength, hheap]
    exact h.shown
  offset_eq := hoffset.trans h.offset_eq
  room := hlength ▸ h.room
  offset_lt := by
    rw [hoffset, hlength]
    exact h.offset_lt
  length_le := hlength ▸ h.length_le

/-! ## the block -/

theorem length_fresh (call size : Nat) : (alloc.fresh call size).length = size := by
  unfold Allocator.fresh
  rw [List.length_map, List.length_range]

theorem allocateBlock_spec (size : Nat) :
    Ends (allocateBlock alloc size) s fun r t =>
      t.buffer = s.buffer ∧ t.length = s.length ∧ t.offset = s.offset ∧ t.depth = s.depth ∧ s.calls ≤ t.calls ∧
      match r with
      | some (address, block) => Owns s.heap t.heap {address} ∧ block.length = size
      | none => t.heap = s.heap ∧ Refused alloc.granted s.calls t.calls := by
  unfold allocateBlock
  refine Ends.then_read (Ends.then_update ?_)
  by_cases hg : alloc.granted s.calls = true
  · rw [if_pos hg]
    exact Ends.then_read (Ends.then_update (Ends.pure
      ⟨rfl, rfl, rfl, rfl, Nat.le_succ _, Owns.create s.heap 1, length_fresh _ _⟩))
  · rw [if_neg hg]
    exact Ends.pure ⟨rfl, rfl, rfl, rfl, Nat.le_succ _, rfl, s.calls, Nat.le_refl _, Nat.lt_succ_self _,
      Bool.not_eq_true _ |>.mp hg⟩

theorem ensure_spec {needed : Nat} (h : Printing start front pending s)
    (hwhy : intMax < front.length + needed + 1 → why) :
    Ends (ensure alloc needed) s (PrintOutcome alloc start why
      (fun t => Printing start front [] t ∧ front.length + needed < t.length ∧ t.depth = s.depth) s) := by
  obtain ⟨address, block, hbuffer, hlength, htake, howns⟩ := h.shorten.shown
  rw [List.length_nil, Nat.add_zero, List.append_nil] at htake
  have hoffset := h.offset_eq
  have hlt := h.offset_lt
  have hkept : Owns start s.heap s.blocks := h.owns
  unfold ensure
  refine Ends.then_read ?_
  dsimp only [id]
  rw [hbuffer]
  dsimp only
  rw [if_neg (by omega)]
  by_cases hneeded : intMax < needed
  · rw [if_pos hneeded]
    exact Ends.pure ⟨Nat.le_refl _, (if_neg Bool.false_ne_true).mpr ⟨hkept, Or.inr (hwhy (by omega))⟩⟩
  · rw [if_neg hneeded]
    by_cases hfits : needed + s.offset + 1 ≤ s.length
    · rw [if_pos hfits]
      exact Ends.pure ⟨Nat.le_refl _, (if_pos rfl).mpr ⟨h.shorten, by omega, rfl⟩⟩
    · rw [if_neg hfits]
      by_cases hlarge : intMax / 2 < needed + s.offset + 1 ∧ intMax < needed + s.offset + 1
      · rw [if_pos hlarge]
        exact Ends.pure ⟨Nat.le_refl _, (if_neg Bool.false_ne_true).mpr ⟨hkept, Or.inr (hwhy (by omega))⟩⟩
      · rw [if_neg hlarge]
        have hsize : needed + s.offset + 1 ≤ (if intMax / 2 < needed + s.offset + 1 then intMax
            else (needed + s.offset + 1) * 2) ∧
            (if intMax / 2 < needed + s.offset + 1 then intMax else (needed + s.offset + 1) * 2) ≤ intMax := by
          have hmax : intMax = 2147483647 := rfl
          split <;> omega
        refine Ends.bind (allocateBlock_spec _) fun r t ht => ?_
        obtain ⟨htbuffer, htlength, htoffset, htdepth, htcalls, ht⟩ := ht
        cases r with
        | none =>
          obtain ⟨hheap, hrefused⟩ := ht
          refine Ends.then_update (Ends.then_update (Ends.pure ⟨htcalls, (if_neg Bool.false_ne_true).mpr
            ⟨?_, Or.inl hrefused⟩⟩))
          have hrelease := howns.release_all
          rw [← hheap] at hrelease
          exact hrelease
        | some new =>
          obtain ⟨newaddress, newblock⟩ := new
          obtain ⟨hnew, hnewlength⟩ := ht
          have hload : Block.load block 0 (s.offset + 1) = some (block.take (s.offset + 1)) := by
            rw [Block.load_of_le (by omega), List.drop_zero]
          obtain ⟨block', hstore⟩ : ∃ block', Block.store newblock 0 (block.take (s.offset + 1)) = some block' :=
            ⟨_, Block.store_of_le (by rw [List.length_take]; omega)⟩
          refine Ends.then_deref (by rw [hload]; exact hstore) (Ends.then_update (Ends.then_update (Ends.pure
            ⟨htcalls, (if_pos rfl).mpr ⟨⟨⟨newaddress, block', rfl, ?_, ?_, ?_⟩, ?_, ?_, ?_, hsize.2⟩, ?_, htdepth⟩⟩)))
          · rw [Block.length_of_store hstore]
            exact hnewlength
          · have hfront := congrArg (List.take front.length) (Block.take_store hstore)
            rw [List.take_zero, List.nil_append, List.take_take, List.take_take, Nat.min_eq_left (by
              rw [List.length_take]; omega), Nat.min_eq_left (by omega), htake] at hfront
            rw [List.length_nil, Nat.add_zero, List.append_nil]
            exact hfront
          · have hboth := howns.trans hnew
            rw [add_comm] at hboth
            exact hboth.release
          · exact htoffset.trans hoffset
          · exact Nat.le_trans (by rw [List.length_nil]; omega) hsize.1
          · exact Nat.lt_of_lt_of_le (show t.offset < needed + s.offset + 1 by omega) hsize.1
          · exact Nat.lt_of_lt_of_le (show front.length + needed < needed + s.offset + 1 by omega) hsize.1

/-- what is written stands behind what has been written -/
theorem write_spec (bytes : List UInt8) {distance : Nat} (h : Printing start front pending s)
    (hdistance : distance = pending.length) (hroom : front.length + pending.length + bytes.length ≤ s.length) :
    Ends (write distance bytes) s fun _ t =>
      Printing start front (pending ++ bytes) t ∧ t.length = s.length ∧ t.depth = s.depth ∧ t.calls = s.calls := by
  obtain ⟨address, block, hbuffer, hlength, htake, howns⟩ := h.shown
  have hoffset := h.offset_eq
  obtain ⟨block', hstore⟩ : ∃ block', Block.store block (s.offset + distance) bytes = some block' :=
    ⟨_, Block.store_of_le (by omega)⟩
  unfold write
  refine Ends.then_read (Ends.then_deref (by dsimp only [id]; rw [hbuffer]; exact hstore) (Ends.update
    ⟨⟨⟨address, block', ?_, ?_, ?_, howns⟩, hoffset, ?_, h.offset_lt, h.length_le⟩, rfl, rfl, rfl⟩))
  · dsimp only
    rw [hbuffer]
    rfl
  · exact (Block.length_of_store hstore).trans hlength
  · have hall := Block.take_store hstore
    rw [hoffset, hdistance, htake] at hall
    rw [List.length_append, ← Nat.add_assoc, hall, List.append_assoc]
  · rw [List.length_append, ← Nat.add_assoc]
    exact hroom

theorem emit_spec {needed count : Nat} {bytes : List UInt8} (h : Printing start front pending s)
    (hbytes : bytes.length ≤ needed + 1) (hcount : count ≤ bytes.length) (hneeded : count ≤ needed)
    (hwhy : intMax < front.length + needed + 1 → why) :
    Ends (emit alloc needed bytes count) s (PrintOutcome alloc start why
      (fun t => Printing start (front ++ bytes.take count) (bytes.drop count) t ∧ t.depth = s.depth) s) := by
  unfold emit
  refine Ends.bind (ensure_spec h hwhy) fun ok t ht => ?_
  obtain ⟨hcalls, ht⟩ := ht
  cases ok with
  | false => exact Ends.pure ⟨hcalls, ht⟩
  | true =>
    obtain ⟨hprinting, hroom, hdepth⟩ := (if_pos rfl).mp ht
    rw [if_pos rfl]
    refine Ends.bind (write_spec bytes hprinting rfl (by rw [List.length_nil]; omega)) fun _ u hu => ?_
    obtain ⟨hwritten, hulength, hudepth, hucalls⟩ := hu
    rw [List.nil_append] at hwritten
    obtain ⟨address, block, hbuffer, hlength, htake, howns⟩ := hwritten.shown
    have hroom' := hwritten.room
    refine Ends.then_update (Ends.pure ⟨hucalls ▸ hcalls, (if_pos rfl).mpr ⟨⟨⟨address, block, hbuffer, hlength, ?_,
      howns⟩, ?_, ?_, ?_, hwritten.length_le⟩, hudepth.trans hdepth⟩⟩)
    · rw [List.append_assoc, List.take_append_drop, ← htake]
      refine congrArg (block.take ·) ?_
      rw [List.length_append, List.length_take, List.length_drop]
      omega
    · show u.offset + count = _
      rw [hwritten.offset_eq, List.length_append, List.length_take]
      omega
    · show _ ≤ u.length
      rw [List.length_append, List.length_take, List.length_drop]
      omega
    · show u.offset + count < u.length
      rw [hwritten.offset_eq, hulength]
      omega

theorem cText_append_zero {tail : List UInt8} (h : 0 ∉ tail) (rest : List UInt8) : cText (tail ++ 0 :: rest) = tail := by
  unfold cText
  have hall : ∀ c ∈ tail, (c != 0) = true := fun c hc => bne_iff_ne.mpr fun e => h (by rwa [e] at hc)
  rw [List.takeWhile_append_of_pos hall, List.takeWhile_cons_of_neg (by decide), List.append_nil]

/-- What has been written last is counted. -/
theorem updateOffset_spec {whole : List UInt8} (h : Printed start whole s) :
    Ends updateOffset s fun _ t => Printing start whole [] t ∧ t.depth = s.depth ∧ t.calls = s.calls := by
  obtain ⟨front, tail, hprinting, hzero, rfl⟩ := h
  obtain ⟨address, block, hbuffer, hlength, htake, howns⟩ := hprinting.shown
  have hroom := hprinting.room
  rw [List.length_append, List.length_singleton] at hroom htake
  have hdrop : block.drop s.offset = tail ++ 0 :: block.drop (front.length + (tail.length + 1)) := by
    have hall := List.take_append_drop (front.length + (tail.length + 1)) block
    rw [htake] at hall
    rw [hprinting.offset_eq]
    conv_lhs => rw [← hall]
    rw [List.append_assoc, List.drop_left, List.append_assoc]
    rfl
  unfold updateOffset
  refine Ends.then_read ?_
  dsimp only [id]
  rw [hbuffer]
  dsimp only
  rw [hdrop, cText_append_zero hzero]
  have hfound : (tail ++ 0 :: block.drop (front.length + (tail.length + 1))).contains 0 = true := by
    rw [List.contains_iff_mem]
    exact List.mem_append_right _ List.mem_cons_self
  refine Ends.then_some (require_of_true hfound)
    (Ends.update ⟨⟨⟨address, block, hbuffer, hlength, ?_, howns⟩, ?_, ?_, ?_, hprinting.length_le⟩, rfl, rfl⟩)
  · rw [List.length_append, List.length_nil, Nat.add_zero, List.append_nil]
    have hfront := congrArg (List.take (front.length + tail.length)) htake
    rw [List.take_take, Nat.min_eq_left (by omega), ← List.append_assoc, List.take_left' (List.length_append)] at hfront
    exact hfront
  · show s.offset + tail.length = _
    rw [hprinting.offset_eq, List.length_append]
  · show _ ≤ s.length
    rw [List.length_append, List.length_nil]
    omega
  · show s.offset + tail.length < s.length
    rw [hprinting.offset_eq]
    omega

theorem andThen_spec {m n : Printer Bool} (hm : Ends m s (PrintOutcome alloc start why Good s))
    (hn : ∀ t, Good t → Ends n t (PrintOutcome alloc start why Good' t)) :
    Ends (andThen m n) s (PrintOutcome alloc start why Good' s) := by
  unfold andThen
  refine Ends.bind hm fun ok t ht => ?_
  obtain ⟨hcalls, ht⟩ := ht
  cases ok with
  | false => exact Ends.pure ⟨hcalls, ht⟩
  | true =>
    rw [if_pos rfl]
    refine (hn t ((if_pos rfl).mp ht)).mono fun ok u hu => ?_
    obtain ⟨hcalls', hu⟩ := hu
    refine ⟨Nat.le_trans hcalls hcalls', ?_⟩
    cases ok with
    | false =>
      obtain ⟨howns, hwhy⟩ := (if_neg Bool.false_ne_true).mp hu
      exact (if_neg Bool.false_ne_true).mpr ⟨howns, hwhy.imp_left fun hr => hr.mono hcalls (Nat.le_refl _)⟩
    | true => exact hu

/-! ## strings and numbers -/

theorem escapeByte_spec (c : UInt8) :
    (escapeByte c).length = 1 + escapeCharacters c ∧ (escapeCharacters c = 0 → escapeByte c = [c]) ∧
      (c ≠ 0 → 0 ∉ escapeByte c) := by
  have hall : ∀ n : Fin 256, (escapeByte (UInt8.ofNat n)).length = 1 + escapeCharacters (UInt8.ofNat n) ∧
      (escapeCharacters (UInt8.ofNat n) = 0 → escapeByte (UInt8.ofNat n) = [UInt8.ofNat n]) ∧
      (UInt8.ofNat n ≠ 0 → 0 ∉ escapeByte (UInt8.ofNat n)) := by decide +kernel
  have hc := hall ⟨c.toNat, c.toNat_lt⟩
  rwa [UInt8.ofNat_toNat] at hc

theorem length_escaped (s : List UInt8) : (s.flatMap escapeByte).length = s.length + (s.map escapeCharacters).sum := by
  induction s with
  | nil => rfl
  | cons c s ih =>
    rw [List.flatMap_cons, List.length_append, ih, (escapeByte_spec c).1, List.length_cons, List.map_cons, List.sum_cons]
    omega

theorem escaped_eq {s : List UInt8} (h : (s.map escapeCharacters).sum = 0) : s.flatMap escapeByte = s := by
  induction s with
  | nil => rfl
  | cons c s ih =>
    rw [List.map_cons, List.sum_cons] at h
    rw [List.flatMap_cons, (escapeByte_spec c).2.1 (by omega), ih (by omega)]
    rfl

theorem notMem_cText (s : List UInt8) : 0 ∉ cText s := by
  intro h
  have hne := List.mem_takeWhile_imp (p := fun c : UInt8 => c != 0) h
  exact absurd hne (by decide)

theorem notMem_quoted {s : List UInt8} (h : 0 ∉ s) : 0 ∉ quoted s := by
  unfold quoted
  intro hmem
  rcases List.mem_cons.mp hmem with e | hmem
  · exact absurd e (by decide)
  · rcases List.mem_append.mp hmem with hmem | hmem
    · obtain ⟨c, hc, hzero⟩ := List.mem_flatMap.mp hmem
      exact (escapeByte_spec c).2.2 (fun e => h (e ▸ hc)) hzero
    · exact absurd (List.mem_singleton.mp hmem) (by decide)

theorem length_quoted (s : List UInt8) : (quoted s).length = s.length + (s.map escapeCharacters).sum + 2 := by
  unfold quoted
  rw [List.length_cons, List.length_append, length_escaped, List.length_singleton]

/-- `print_string_ptr` prints a missing string like an empty one. -/
theorem printStringPtr_spec (string : Option (List UInt8)) (h : Printing start front pending s)
    (hzero : ∀ input, string = some input → 0 ∉ input)
    (hwhy : intMax < front.length + (quoted (string.getD [])).length + 2 → why) :
    Ends (printStringPtr alloc string) s (PrintOutcome alloc start why
      (fun t => Printed start (front ++ quoted (string.getD [])) t ∧ t.depth = s.depth) s) := by
  cases string with
  | none =>
    refine (emit_spec h (by decide) (Nat.zero_le _) (Nat.zero_le _) hwhy).mono fun ok t ht => ⟨ht.1, ?_⟩
    cases ok with
    | false => exact ht.2
    | true =>
      obtain ⟨hprinting, hdepth⟩ := (if_pos rfl).mp ht.2
      rw [List.take_zero, List.append_nil] at hprinting
      exact (if_pos rfl).mpr ⟨⟨front, [0x22, 0x22], hprinting, by decide, rfl⟩, hdepth⟩
  | some input =>
    rw [Option.getD_some, length_quoted] at hwhy
    unfold printStringPtr
    dsimp only
    have hbody : (if (input.map escapeCharacters).sum = 0 then input else input.flatMap escapeByte)
        = input.flatMap escapeByte := by
      split
      · exact (escaped_eq ‹_›).symm
      · rfl
    rw [hbody]
    refine Ends.bind (ensure_spec h (by omega)) fun ok t ht => ?_
    obtain ⟨hcalls, ht⟩ := ht
    cases ok with
    | false => exact Ends.pure ⟨hcalls, ht⟩
    | true =>
      obtain ⟨hprinting, hroom, hdepth⟩ := (if_pos rfl).mp ht
      rw [if_pos rfl]
      refine Ends.bind (write_spec (0x22 :: input.flatMap escapeByte) hprinting rfl (by
        rw [List.length_nil, List.length_cons, length_escaped]; omega)) fun _ u hu => ?_
      obtain ⟨hwritten, hulength, hudepth, hucalls⟩ := hu
      rw [List.nil_append] at hwritten
      refine Ends.bind (write_spec [0x22, 0] hwritten (by rw [List.length_cons, length_escaped]) (by
        rw [List.length_cons, length_escaped, hulength]
        show _ + 2 ≤ t.length
        omega)) fun _ v hv => ?_
      obtain ⟨hwritten', hvlength, hvdepth, hvcalls⟩ := hv
      refine Ends.pure ⟨by rw [hvcalls, hucalls]; exact hcalls, (if_pos rfl).mpr ⟨⟨front, quoted input, ?_,
        notMem_quoted (hzero input rfl), rfl⟩, hvdepth.trans (hudepth.trans hdepth)⟩⟩
      unfold quoted
      rw [List.cons_append, List.append_assoc]
      exact hwritten'

section
variable {N : Type} {sprintf : Sprintf N} {format : Bool}

theorem length_text_le (d : N) : (sprintf.text d).length ≤ 25 ∧ 0 ∉ sprintf.text d := by
  unfold Sprintf.text
  split
  · exact ⟨by decide, by decide⟩
  · split
    · exact ⟨sprintf.short_le d, sprintf.short_ne d⟩
    · exact ⟨sprintf.long_le d, sprintf.long_ne d⟩

theorem printNumber_spec (d : N) (h : Printing start front pending s)
    (hwhy : intMax < front.length + (sprintf.text d).length + 2 → why) :
    Ends (printNumber alloc sprintf d) s (PrintOutcome alloc start why
      (fun t => Printed start (front ++ sprintf.text d) t ∧ t.depth = s.depth) s) := by
  unfold printNumber
  dsimp only
  rw [if_neg (Nat.not_lt.mpr (length_text_le d).1)]
  refine (emit_spec h (by rw [List.length_append, List.length_singleton]; omega)
    (by rw [List.length_append]; omega) (Nat.le_succ _) hwhy).mono fun ok t ht => ⟨ht.1, ?_⟩
  cases ok with
  | false => exact ht.2
  | true =>
    obtain ⟨hprinting, hdepth⟩ := (if_pos rfl).mp ht.2
    rw [List.take_left, List.drop_left] at hprinting
    exact (if_pos rfl).mpr ⟨⟨_, [], hprinting, List.not_mem_nil, List.append_nil _⟩, hdepth⟩

end

/-! ## values -/

theorem PrintOutcome.mono {ok : Bool} {t : PrintBuffer} (h : PrintOutcome alloc start why Good s ok t)
    (hgood : Good t → Good' t) : PrintOutcome alloc start why Good' s ok t := by
  refine ⟨h.1, ?_⟩
  cases ok with
  | false => exact h.2
  | true => exact (if_pos rfl).mpr (hgood ((if_pos rfl).mp h.2))

/-- a text that is left behind the offset -/
theorem emit_text (text : List UInt8) {needed : Nat} (h : Printing start front pending s) (hzero : 0 ∉ text)
    (hneeded : needed = text.length + 1) (hwhy : intMax < front.length + text.length + 2 → why) :
    Ends (emit alloc needed (text ++ [0]) 0) s (PrintOutcome alloc start why
      (fun t => Printed start (front ++ text) t ∧ t.depth = s.depth) s) := by
  subst hneeded
  refine (emit_spec h (by rw [List.length_append, List.length_singleton]; omega) (Nat.zero_le _) (Nat.zero_le _)
    hwhy).mono fun ok t ht => ht.mono fun hgood => ?_
  obtain ⟨hprinting, hdepth⟩ := hgood
  rw [List.take_zero, List.append_nil] at hprinting
  exact ⟨⟨front, text, hprinting, hzero, rfl⟩, hdepth⟩

/-- a text in front of the offset -/
theorem emit_front (text rest : List UInt8) {needed : Nat} (h : Printing start front pending s)
    (hneeded : text.length ≤ needed) (hrest : (text ++ rest).length ≤ needed + 1)
    (hwhy : intMax < front.length + needed + 1 → why) :
    Ends (emit alloc needed (text ++ rest) text.length) s (PrintOutcome alloc start why
      (fun t => Printing start (front ++ text) [] t ∧ t.depth = s.depth) s) := by
  refine (emit_spec h hrest (by rw [List.length_append]; omega) hneeded hwhy).mono fun ok t ht =>
    ht.mono fun hgood => ?_
  obtain ⟨hprinting, hdepth⟩ := hgood
  rw [List.take_left] at hprinting
  exact ⟨hprinting.shorten, hdepth⟩

theorem emit_all (text : List UInt8) {needed : Nat} (h : Printing start front pending s) (hneeded : text.length ≤ needed)
    (hwhy : intMax < front.length + needed + 1 → why) :
    Ends (emit alloc needed text text.length) s (PrintOutcome alloc start why
      (fun t => Printing start (front ++ text) [] t ∧ t.depth = s.depth) s) := by
  have hemit : Ends (emit alloc needed (text ++ []) text.length) s (PrintOutcome alloc start why
      (fun t => Printing start (front ++ text) [] t ∧ t.depth = s.depth) s) :=
    emit_front text [] h hneeded (by rw [List.append_nil]; omega) hwhy
  rwa [List.append_nil] at hemit

theorem then_updateOffset {whole : List UInt8} {k : Printer Bool} (h : Printed start whole s)
    (hk : ∀ t, Printing start whole [] t → t.depth = s.depth → Ends k t (PrintOutcome alloc start why Good t)) :
    Ends (do updateOffset; k) s (PrintOutcome alloc start why Good s) := by
  refine Ends.bind (updateOffset_spec h) fun _ t ht => ?_
  obtain ⟨hprinting, hdepth, hcalls⟩ := ht
  refine (hk t hprinting hdepth).mono fun ok u hu => ?_
  unfold PrintOutcome at hu ⊢
  rwa [hcalls] at hu

theorem pure_spec (h : Good s) : Ends (pure true : Printer Bool) s (PrintOutcome alloc start why Good s) :=
  Ends.pure ⟨Nat.le_refl _, (if_pos rfl).mpr h⟩

section
variable {N : Type}

mutual

/-- the item has been set, and so have all items in it -/
def Item.Complete : Item N → Prop
  | .invalid => False
  | .array child => child.Complete
  | .object child => child.Complete
  | _ => True

def Nodes.Complete : Nodes N → Prop
  | .nil => True
  | .cons _ _ item next => item.Complete ∧ next.Complete

end

variable (alloc start why) (sprintf : Sprintf N) (format : Bool)

/-- the item is printed behind anything -/
def PrintsValue (item : Item N) : Prop :=
  ∀ front pending s depth, Printing start front pending s → s.depth = depth →
    (intMax < front.length + (item.render sprintf format depth).length + 2 → why) → (¬ item.Complete → why) →
    Ends (printValue alloc sprintf format item) s (PrintOutcome alloc start why
      (fun t => Printed start (front ++ item.render sprintf format depth) t ∧ t.depth = depth) s)

def PrintsElements (nodes : Nodes N) : Prop :=
  ∀ front pending s depth, Printing start front pending s → s.depth = depth →
    (intMax < front.length + (nodes.renderElements sprintf format depth).length + 2 → why) → (¬ nodes.Complete → why) →
    Ends (printElements alloc sprintf format nodes) s (PrintOutcome alloc start why
      (fun t => (∃ pending, Printing start (front ++ nodes.renderElements sprintf format depth) pending t) ∧
        t.depth = depth) s)

def PrintsMembers (nodes : Nodes N) : Prop :=
  ∀ front pending s depth, Printing start front pending s → s.depth = depth →
    (intMax < front.length + (nodes.renderMembers sprintf format depth).length + 2 → why) → (¬ nodes.Complete → why) →
    Ends (printMembers alloc sprintf format nodes) s (PrintOutcome alloc start why
      (fun t => (∃ pending, Printing start (front ++ nodes.renderMembers sprintf format depth) pending t) ∧
        t.depth = depth) s)

variable {alloc start why sprintf format}

theorem printArray_spec {child : Nodes N} (hchild : PrintsElements alloc start why sprintf format child) :
    PrintsValue alloc start why sprintf format (.array child) := by
  intro front pending s depth h hdepth hwhy hcomplete
  rw [Item.render, List.length_cons, List.length_append, List.length_singleton] at hwhy
  rw [printValue, Item.render]
  unfold printArray
  refine andThen_spec (emit_all [0x5B] h (by decide) fun hlong => hwhy (by omega))
    fun t ht => Ends.then_update ?_
  obtain ⟨hprinting, htdepth⟩ := ht
  refine andThen_spec (s := { t with depth := t.depth + 1 }) (hchild _ _ _ (depth + 1) (hprinting.congr rfl rfl rfl rfl)
    (by show t.depth + 1 = depth + 1; rw [htdepth, hdepth]) (fun hlong => hwhy (by
      rw [List.length_append, List.length_singleton] at hlong; omega)) hcomplete) fun u hu => ?_
  obtain ⟨⟨pending', hprinting'⟩, hudepth⟩ := hu
  refine andThen_spec (emit_text [0x5D] hprinting' (by decide) rfl fun hlong => hwhy (by
    simp only [List.length_append, List.length_cons, List.length_nil] at hlong; omega)) fun v hv => Ends.then_update ?_
  obtain ⟨⟨front', tail, hprinting'', hzero, hwhole⟩, hvdepth⟩ := hv
  refine pure_spec ⟨⟨front', tail, hprinting''.congr rfl rfl rfl rfl, hzero, ?_⟩, ?_⟩
  · rw [hwhole, List.append_assoc, List.append_assoc]
    rfl
  · show v.depth - 1 = depth
    rw [hvdepth, hudepth]
    rfl

theorem printObject_spec {child : Nodes N} (hchild : PrintsMembers alloc start why sprintf format child) :
    PrintsValue alloc start why sprintf format (.object child) := by
  intro front pending s depth h hdepth hwhy hcomplete
  rw [Item.render, List.length_append, List.length_append, List.length_append, List.length_singleton] at hwhy
  rw [printValue, Item.render]
  unfold printObject
  dsimp only
  refine andThen_spec (emit_all _ h (Nat.le_succ _) fun hlong => hwhy (by omega)) fun t ht => Ends.then_update ?_
  obtain ⟨hprinting, htdepth⟩ := ht
  refine andThen_spec (s := { t with depth := t.depth + 1 }) (hchild _ _ _ (depth + 1) (hprinting.congr rfl rfl rfl rfl)
    (by show t.depth + 1 = depth + 1; rw [htdepth, hdepth]) (fun hlong => hwhy (by
      rw [List.length_append] at hlong; omega)) hcomplete) fun u hu => Ends.then_read ?_
  obtain ⟨⟨pending', hprinting'⟩, hudepth⟩ := hu
  rw [hudepth, Nat.add_sub_cancel]
  have htabs : 0 ∉ (if format then tabs depth else []) ++ [0x7D] := by
    rw [List.mem_append, not_or]
    refine ⟨?_, by decide⟩
    cases format with
    | false => exact List.not_mem_nil
    | true =>
      rw [if_pos rfl]
      unfold tabs
      rw [List.mem_replicate]
      exact fun hm => absurd hm.2 (by decide)
  have hlength : (if format then depth + 1 + 1 else 2) = ((if format then tabs depth else []) ++ [0x7D]).length + 1 := by
    cases format with
    | false => rfl
    | true =>
      rw [if_pos rfl, if_pos rfl]
      unfold tabs
      rw [List.length_append, List.length_replicate]
      rfl
  have hemit : Ends (emit alloc (if format then depth + 1 + 1 else 2)
      (((if format then tabs depth else []) ++ [0x7D]) ++ [0]) 0) u (PrintOutcome alloc start why _ u) :=
    emit_text _ hprinting' htabs hlength fun hlong => hwhy (by
      simp only [List.length_append, List.length_singleton] at hlong; omega)
  rw [List.append_assoc] at hemit
  refine andThen_spec hemit fun v hv => Ends.then_update ?_
  obtain ⟨⟨front', tail, hprinting'', hzero, hwhole⟩, hvdepth⟩ := hv
  refine pure_spec ⟨⟨front', tail, hprinting''.congr rfl rfl rfl rfl, hzero, ?_⟩, ?_⟩
  · rw [hwhole, List.append_assoc, List.append_assoc]
  · show v.depth - 1 = depth
    rw [hvdepth, hudepth]
    rfl

theorem printElements_cons {node : Addr} {string : Option (Addr × List UInt8)} {item : Item N} {next : Nodes N}
    (hitem : PrintsValue alloc start why sprintf format item)
    (hnext : PrintsElements alloc start why sprintf format next) :
    PrintsElements alloc start why sprintf format (.cons node string item next) := by
  intro front pending s depth h hdepth hwhy hcomplete
  rw [Nodes.renderElements, List.length_append, List.length_append] at hwhy
  rw [printElements, Nodes.renderElements]
  refine andThen_spec (hitem _ _ _ depth h hdepth (fun hlong => hwhy (by omega))
    fun hitem => hcomplete fun hboth => hitem hboth.1) fun t ht => ?_
  obtain ⟨hprinted, htdepth⟩ := ht
  refine then_updateOffset hprinted fun u hprinting hudepth => ?_
  cases next with
  | nil =>
    refine pure_spec ⟨⟨[], ?_⟩, hudepth.trans htdepth⟩
    rw [Nodes.renderElements, show (Nodes.nil : Nodes N).isNil = true from rfl, if_pos rfl, List.append_nil,
      List.append_nil]
    exact hprinting
  | cons node string item' next =>
    rw [show (Nodes.cons node string item' next).isNil = false from rfl, if_neg Bool.false_ne_true] at hwhy ⊢
    rw [if_neg Bool.false_ne_true]
    refine andThen_spec (emit_front _ [0] hprinting (Nat.le_succ _) (by
      rw [List.length_append, List.length_singleton]; omega) fun hlong => hwhy (by
      rw [List.length_append] at hlong; omega)) fun v hv => ?_
    obtain ⟨hprinting', hvdepth⟩ := hv
    refine (hnext _ _ _ depth hprinting' (hvdepth.trans (hudepth.trans htdepth)) (fun hlong => hwhy (by
      simp only [List.length_append] at hlong; omega)) fun hnext => hcomplete fun hboth => hnext hboth.2).mono
        fun ok w hw => hw.mono fun hgood => ?_
    rw [List.append_assoc, List.append_assoc] at hgood
    exact hgood

theorem printMembers_cons {node : Addr} {string : Option (Addr × List UInt8)} {item : Item N} {next : Nodes N}
    (hitem : PrintsValue alloc start why sprintf format item)
    (hnext : PrintsMembers alloc start why sprintf format next) :
    PrintsMembers alloc start why sprintf format (.cons node string item next) := by
  intro front pending s depth h hdepth hwhy hcomplete
  rw [Nodes.renderMembers] at hwhy
  simp only [List.length_append] at hwhy
  rw [printMembers, Nodes.renderMembers]
  have hindent : Ends (printIndent alloc format) s (PrintOutcome alloc start why
      (fun t => (∃ pending, Printing start (front ++ if format then tabs depth else []) pending t) ∧
        t.depth = depth) s) := by
    unfold printIndent
    refine Ends.then_read ?_
    cases format with
    | false =>
      rw [if_neg Bool.false_ne_true, if_neg Bool.false_ne_true, List.append_nil]
      exact pure_spec ⟨⟨pending, h⟩, hdepth⟩
    | true =>
      rw [if_pos rfl, if_pos rfl] at *
      have hlength : (tabs depth).length = depth := List.length_replicate
      have hemit : Ends (emit alloc depth (tabs depth) (tabs depth).length) s (PrintOutcome alloc start why
          (fun t => Printing start (front ++ tabs depth) [] t ∧ t.depth = s.depth) s) :=
        emit_all (tabs depth) h (Nat.le_of_eq hlength) fun hlong => hwhy (by omega)
      rw [hlength] at hemit
      rw [hdepth]
      exact hemit.mono fun ok t ht => ht.mono fun hgood => ⟨⟨[], hgood.1⟩, hgood.2.trans hdepth⟩
  refine andThen_spec hindent fun t ht => ?_
  obtain ⟨⟨pending₁, h₁⟩, hdepth₁⟩ := ht
  refine andThen_spec (printStringPtr_spec (string.map fun s => cText s.2) h₁ (fun input e => ?_)
    fun hlong => hwhy (by rw [List.length_append] at hlong; omega)) fun u hu => ?_
  · obtain ⟨s, _, rfl⟩ := Option.map_eq_some_iff.mp e
    exact notMem_cText s.2
  obtain ⟨hprinted₁, hdepth₂⟩ := hu
  refine then_updateOffset hprinted₁ fun v h₂ hdepth₃ => ?_
  refine andThen_spec (emit_all _ h₂ (Nat.le_refl _) fun hlong => hwhy (by
    simp only [List.length_append] at hlong; omega)) fun w hw => ?_
  obtain ⟨h₃, hdepth₄⟩ := hw
  refine andThen_spec (hitem _ _ _ depth h₃ (hdepth₄.trans (hdepth₃.trans (hdepth₂.trans hdepth₁)))
    (fun hlong => hwhy (by simp only [List.length_append] at hlong; omega))
    fun hitem => hcomplete fun hboth => hitem hboth.1) fun x hx => ?_
  obtain ⟨hprinted₂, hdepth₅⟩ := hx
  refine then_updateOffset hprinted₂ fun y h₄ hdepth₆ => ?_
  refine andThen_spec (emit_front _ [0] h₄ (Nat.le_succ _) (by
    rw [List.length_append, List.length_singleton]; omega) fun hlong => hwhy (by
    simp only [List.length_append] at hlong; omega)) fun z hz => ?_
  obtain ⟨h₅, hdepth₇⟩ := hz
  refine (hnext _ _ _ depth h₅ (hdepth₇.trans (hdepth₆.trans hdepth₅)) (fun hlong => hwhy (by
    simp only [List.length_append] at hlong; omega)) fun hnext => hcomplete fun hboth => hnext hboth.2).mono
      fun ok w hw => hw.mono fun hgood => ?_
  simp only [List.append_assoc] at hgood ⊢
  exact hgood

mutual

theorem printValue_spec : (item : Item N) → PrintsValue alloc start why sprintf format item
  | .invalid => fun _ _ s _ h _ _ hcomplete =>
    Ends.pure ⟨Nat.le_refl _, (if_neg Bool.false_ne_true).mpr ⟨h.owns, Or.inr (hcomplete id)⟩⟩
  | .null => fun _ _ s _ h hdepth hwhy _ => by
    rw [printValue, Item.render, ← hdepth]
    exact emit_text _ h (by decide) rfl hwhy
  | .bool false => fun _ _ s _ h hdepth hwhy _ => by
    rw [printValue, Item.render, ← hdepth]
    exact emit_text _ h (by decide) rfl hwhy
  | .bool true => fun _ _ s _ h hdepth hwhy _ => by
    rw [printValue, Item.render, ← hdepth]
    exact emit_text _ h (by decide) rfl hwhy
  | .number d => fun _ _ s _ h hdepth hwhy _ => by
    rw [printValue, Item.render, ← hdepth]
    exact printNumber_spec d h hwhy
  | .string _ string => fun _ _ s _ h hdepth hwhy _ => by
    rw [printValue, Item.render, ← hdepth]
    exact printStringPtr_spec (some (cText string)) h
      (fun input e => Option.some.inj e ▸ notMem_cText string) hwhy
  | .array child => printArray_spec (printElements_spec child)
  | .object child => printObject_spec (printMembers_spec child)

theorem printElements_spec : (nodes : Nodes N) → PrintsElements alloc start why sprintf format nodes
  | .nil => fun front pending s _ h hdepth _ _ => by
    rw [printElements, Nodes.renderElements, List.append_nil]
    exact pure_spec ⟨⟨pending, h⟩, hdepth⟩
  | .cons _ _ item next => printElements_cons (printValue_spec item) (printElements_spec next)

theorem printMembers_spec : (nodes : Nodes N) → PrintsMembers alloc start why sprintf format nodes
  | .nil => fun front pending s _ h hdepth _ _ => by
    rw [printMembers, Nodes.renderMembers, List.append_nil]
    exact pure_spec ⟨⟨pending, h⟩, hdepth⟩
  | .cons _ _ item next => printMembers_cons (printValue_spec item) (printMembers_spec next)

end

/-! ## the whole text -/

theorem printFailed_spec {t : PrintBuffer} (h : Owns start t.heap t.blocks) :
    Ends printFailed t fun r u => r = none ∧ Owns start u.heap 0 ∧ u.calls = t.calls := by
  unfold printFailed
  refine Ends.then_read ?_
  dsimp only [id]
  unfold PrintBuffer.blocks at h
  cases hbuffer : t.buffer with
  | none =>
    rw [hbuffer] at h
    exact Ends.pure ⟨rfl, h, rfl⟩
  | some b =>
    rw [hbuffer] at h
    exact Ends.then_update (Ends.pure ⟨rfl, h.release_all, rfl⟩)

/-- the copy of the text into a block of its own -/
theorem copy_spec {whole fresh block : List UInt8} {length : Nat} (hfresh : fresh.length = whole.length + 1)
    (hblock : block.take whole.length = whole) (hlength : block.length = length) (hroom : whole.length < length) :
    ∃ copied, ((Block.load block 0 (min length (whole.length + 1))).bind (Block.store fresh 0)) = some copied ∧
      Block.store copied whole.length [0] = some (whole ++ [0]) := by
  have hload : Block.load block 0 (min length (whole.length + 1)) = some (block.take (whole.length + 1)) := by
    rw [Nat.min_eq_right (by omega), Block.load_of_le (by omega), List.drop_zero]
  obtain ⟨copied, hstore⟩ : ∃ copied, Block.store fresh 0 (block.take (whole.length + 1)) = some copied :=
    ⟨_, Block.store_of_le (by rw [List.length_take]; omega)⟩
  have hcopied : copied.length = whole.length + 1 := (Block.length_of_store hstore).trans hfresh
  have htake : copied.take whole.length = whole := by
    have hfront := congrArg (List.take whole.length) (Block.take_store hstore)
    rwa [List.take_zero, List.nil_append, List.take_take, List.take_take, Nat.min_eq_left (by
      rw [List.length_take]; omega), Nat.min_eq_left (by omega), hblock] at hfront
  refine ⟨copied, by rw [hload]; exact hstore, ?_⟩
  rw [Block.store_of_le (by rw [List.length_singleton]; omega), htake, List.length_singleton,
    List.drop_of_length_le (by omega), List.append_nil]

theorem print_spec (alloc : Allocator) (sprintf : Sprintf N) (format : Bool) (item : Item N) (calls : Nat)
    (heap : Ledger) :
    Ends (print alloc sprintf format item) ⟨none, 0, 0, 0, calls, heap⟩ fun r s =>
      match r with
      | some (address, block) => Owns heap s.heap {address} ∧ block = item.render sprintf format 0 ++ [0]
      | none => Owns heap s.heap 0 ∧ (Refused alloc.granted calls s.calls ∨
          intMax < (item.render sprintf format 0).length + 2 ∨ ¬ item.Complete) := by
  unfold print
  refine Ends.bind (allocateBlock_spec (s := ⟨none, 0, 0, 0, calls, heap⟩) 256) fun buffer t ht => ?_
  obtain ⟨-, -, -, -, hcalls, ht⟩ := ht
  cases buffer with
  | none =>
    obtain ⟨hheap, hrefused⟩ := ht
    refine Ends.pure ⟨?_, Or.inl hrefused⟩
    rw [hheap]
    exact Owns.refl heap
  | some buffer =>
    obtain ⟨address, block⟩ := buffer
    obtain ⟨howns, hlength⟩ := ht
    refine Ends.then_update ?_
    have hprinting : Printing heap [] [] ⟨some (address, block), 256, 0, 0, t.calls, t.heap⟩ :=
      ⟨⟨address, block, rfl, hlength, rfl, howns⟩, rfl, Nat.zero_le _, (by decide : 0 < 256),
        (by decide : 256 ≤ intMax)⟩
    have hspec : PrintsValue alloc heap (intMax < (item.render sprintf format 0).length + 2 ∨ ¬ item.Complete)
        sprintf format item := printValue_spec item
    refine Ends.bind (hspec [] [] _ 0 hprinting rfl (fun hlong => Or.inl (by
      rwa [List.length_nil, Nat.zero_add] at hlong)) Or.inr) fun ok u hu => ?_
    obtain ⟨hcalls', hu⟩ := hu
    have hle : calls ≤ u.calls := Nat.le_trans hcalls hcalls'
    cases ok with
    | false =>
      obtain ⟨hkept, hwhy⟩ := (if_neg Bool.false_ne_true).mp hu
      refine (printFailed_spec hkept).mono fun r v hv => ?_
      obtain ⟨rfl, hreleased, hvcalls⟩ := hv
      exact ⟨hreleased, hwhy.imp_left fun hr => hr.mono hcalls (Nat.le_of_eq hvcalls.symm)⟩
    | true =>
      obtain ⟨hprinted, -⟩ := (if_pos rfl).mp hu
      rw [List.nil_append] at hprinted
      rw [if_pos rfl]
      refine Ends.bind (updateOffset_spec hprinted) fun _ v hv => Ends.then_read ?_
      obtain ⟨hwhole, -, hvcalls⟩ := hv
      obtain ⟨old, block', hbuffer, hlength', htake, howns'⟩ := hwhole.shown
      rw [List.length_nil, Nat.add_zero, List.append_nil] at htake
      have hroom := hwhole.offset_lt
      rw [hwhole.offset_eq] at hroom
      dsimp only [id]
      rw [hwhole.offset_eq]
      refine Ends.bind (allocateBlock_spec _) fun printed w hw => ?_
      obtain ⟨hwbuffer, -, -, -, hwcalls, hw⟩ := hw
      cases printed with
      | none =>
        obtain ⟨hheap, hrefused⟩ := hw
        have hkept : Owns heap w.heap w.blocks := by
          unfold PrintBuffer.blocks
          rw [hwbuffer, hbuffer, hheap]
          exact howns'
        refine (printFailed_spec hkept).mono fun r x hx => ?_
        obtain ⟨rfl, hreleased, hxcalls⟩ := hx
        exact ⟨hreleased, Or.inl (hrefused.mono (by omega) (Nat.le_of_eq hxcalls.symm))⟩
      | some printed =>
        obtain ⟨address', fresh⟩ := printed
        obtain ⟨hnew, hfresh⟩ := hw
        obtain ⟨copied, hcopied, hterminated⟩ := copy_spec hfresh htake hlength' hroom
        refine Ends.then_deref (by rw [hwbuffer, hbuffer]; exact hcopied) (Ends.then_deref hterminated ?_)
        rw [hbuffer]
        refine Ends.then_update (Ends.pure ⟨?_, rfl⟩)
        have hboth := howns'.trans hnew
        rw [add_comm] at hboth
        exact hboth.release

/-- Whatever the value and whichever blocks are granted: nothing is read or written outside of a block, the printer ends,
and it returns a block with the text and nothing else, or nothing at all: then a block has been refused, or the text is
too long. -/
theorem print_safe (alloc : Allocator) (sprintf : Sprintf N) (format : Bool) (item : Item N) (calls : Nat)
    (heap : Ledger) :
    ∃ r s, print alloc sprintf format item ⟨none, 0, 0, 0, calls, heap⟩ = some (r, s) ∧
      match r with
      | some (address, block) => Owns heap s.heap {address} ∧ block = item.render sprintf format 0 ++ [0]
      | none => Owns heap s.heap 0 ∧ (Refused alloc.granted calls s.calls ∨
          intMax < (item.render sprintf format 0).length + 2 ∨ ¬ item.Complete) :=
  print_spec alloc sprintf format item calls heap

end

end

end Cjet.JsonText
