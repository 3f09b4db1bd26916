import Cjet.JsonText.Grammar

/-!
# The memory of the JSON parser

* `At`, `Outcome`, `LoopOutcome`     where the parser stands, and what it has done when it returns;
* `parseString_spec`, `parse_spec`   the parser reads what `Reader` reads, or lacks memory;
* `parseWithOpts_safe`    whatever the text and whichever blocks it gets, the parser ends within the text and
                          holds the blocks of what it returns, and no others;
* `parseWithOpts_read`    with enough memory it returns what the text says.
-/

set_option linter.unusedVariables false

namespace Cjet.JsonText
open Stateful Prog

/-! ## where the parser stands -/

/-- what is left to be read of the text is the suffix -/
structure At (text suffix : List UInt8) (s : ParseBuffer) : Prop where
  content_eq : s.content = text ++ [0]
  offset_le : s.offset ≤ text.length
  drop_eq : text.drop s.offset = suffix

/-- some call was not granted -/
def Refused (granted : Nat → Bool) (m n : Nat) : Prop := ∃ call, m ≤ call ∧ call < n ∧ granted call = false

/-- the parser has read up to the rest and holds the blocks -/
structure Reached (text rest : List UInt8) (s t : ParseBuffer) (blocks : Multiset Addr) : Prop where
  stands : At text rest t
  depth_eq : t.depth = s.depth
  calls_le : s.calls ≤ t.calls
  owns : Owns s.heap t.heap blocks

/-- the parser has given up and holds the blocks -/
structure Stopped (text : List UInt8) (s t : ParseBuffer) (blocks : Multiset Addr) : Prop where
  content_eq : t.content = text ++ [0]
  offset_le : t.offset ≤ text.length + 1
  calls_le : s.calls ≤ t.calls
  owns : Owns s.heap t.heap blocks

section
variable (granted : Nat → Bool) (text : List UInt8)

/-- what a function has done that should read `result` -/
def Outcome {α β : Type} (result : Option (β × List UInt8)) (value : α → β) (blocks : α → Multiset Addr)
    (s : ParseBuffer) : Option α → ParseBuffer → Prop
  | some a, t => ∃ rest, result = some (value a, rest) ∧ Reached text rest s t (blocks a)
  | none, t => Stopped text s t 0 ∧ (result = none ∨ Refused granted s.calls t.calls)

/-- what a loop has done that should read `result` and has been started in front of its input; it stays in front of the
closing bracket -/
def LoopOutcome {N β : Type} (closing : UInt8) (result : Option (List β × List UInt8)) (values : Nodes N → List β)
    (s : ParseBuffer) (r : Nodes N × Bool) (t : ParseBuffer) : Prop :=
  if r.2 = true then ∃ rest, result = some (values r.1, rest) ∧ Reached text (closing :: rest) s t r.1.blocks
  else Stopped text s t r.1.blocks ∧ (result = none ∨ Refused granted s.calls t.calls)

end

theorem Refused.mono {granted : Nat → Bool} {m n m' n' : Nat} (h : Refused granted m n) (hm : m' ≤ m) (hn : n ≤ n') :
    Refused granted m' n' := by
  obtain ⟨call, hle, hlt, hcall⟩ := h
  exact ⟨call, Nat.le_trans hm hle, Nat.lt_of_lt_of_le hlt hn, hcall⟩

section
variable {text suffix rest : List UInt8} {s t : ParseBuffer}

theorem At.offset_add (h : At text suffix s) : s.offset + suffix.length = text.length := by
  have hle := h.offset_le
  rw [← h.drop_eq, List.length_drop]
  omega

theorem At.drop_content (h : At text suffix s) : s.content.drop s.offset = suffix ++ [0] := by
  rw [h.content_eq, List.drop_append_of_le_length h.offset_le, h.drop_eq]

theorem At.atOffset (h : At text suffix s) (index : Nat) : s.atOffset index = (suffix ++ [0])[index]? := by
  unfold ParseBuffer.atOffset
  rw [← List.getElem?_drop, h.drop_content]

theorem At.atOffset_zero (h : At text suffix s) : s.atOffset 0 = some (suffix.headD 0) := by
  rw [h.atOffset]
  cases suffix with
  | nil => rfl
  | cons c suffix => rfl

theorem At.advance {p : List UInt8} (h : At text (p ++ suffix) s) :
    At text suffix { s with offset := s.offset + p.length } where
  content_eq := h.content_eq
  offset_le := by
    have hadd := h.offset_add
    rw [List.length_append] at hadd
    show s.offset + p.length ≤ text.length
    omega
  drop_eq := by
    show text.drop (s.offset + p.length) = suffix
    rw [← List.drop_drop, h.drop_eq, List.drop_left]

theorem At.startsWith (h : At text suffix s) {literal : List UInt8} (hzero : 0 ∉ literal) :
    s.startsWith literal = true ↔ suffix.take literal.length = literal := by
  unfold ParseBuffer.startsWith
  rw [h.drop_content, beq_iff_eq]
  by_cases hle : literal.length ≤ suffix.length
  · rw [List.take_append_of_le_length hle]
  · refine iff_of_false (fun e => ?_) fun e => ?_
    · have hlength := congrArg List.length e
      rw [List.length_take, List.length_append, List.length_singleton] at hlength
      refine hzero ?_
      rw [← e, List.take_of_length_le (by rw [List.length_append, List.length_singleton]; omega)]
      exact List.mem_append_right suffix List.mem_cons_self
    · have hlength := congrArg List.length e
      rw [List.length_take] at hlength
      omega

theorem At.congr (h : At text suffix s) (hcontent : t.content = s.content) (hoffset : t.offset = s.offset) :
    At text suffix t where
  content_eq := hcontent.trans h.content_eq
  offset_le := hoffset.symm ▸ h.offset_le
  drop_eq := hoffset.symm ▸ h.drop_eq

/-- Where the zero byte behind the text is skipped, the parser steps back. -/
theorem At.skipWhitespace (h : At text suffix s) :
    ∃ offset, s.skipWhitespace = { s with offset := offset } ∧
      At text (skipBlank suffix) { s with offset := offset } := by
  obtain ⟨b, hb, hsuffix⟩ := exists_blank suffix
  have hadd := h.offset_add
  have hlength : s.content.length = text.length + 1 := by rw [h.content_eq, List.length_append, List.length_singleton]
  have hcount : suffix.length = b.length + (skipBlank suffix).length := by
    rw [← List.length_append, ← hsuffix]
  refine ⟨s.offset + b.length, ?_, ?_⟩
  · have htake : ((suffix ++ [0]).takeWhile (· ≤ 32)).length = b.length + if skipBlank suffix = [] then 1 else 0 := by
      rw [hsuffix, skipBlank_append hb, List.append_assoc,
        List.takeWhile_append_of_pos fun c hc => decide_eq_true (hb c hc), List.length_append]
      cases hskip : skipBlank suffix with
      | nil => rfl
      | cons c rest =>
        have hc : ¬ c ≤ 32 := by
          have hhead := List.head?_dropWhile_not (fun c : UInt8 => decide (c ≤ 32)) suffix
          rw [show suffix.dropWhile (fun c => decide (c ≤ 32)) = c :: rest from hskip] at hhead
          simpa using hhead
        have hskip' : skipBlank (c :: rest) = c :: rest := skipBlank_cons hc rest
        rw [hskip', List.cons_append, List.takeWhile_cons_of_neg (by simpa using hc)]
        rfl
    unfold ParseBuffer.skipWhitespace
    rw [if_neg (by omega), h.drop_content, htake]
    dsimp only
    by_cases hnil : skipBlank suffix = []
    · rw [hnil, List.length_nil] at hcount
      rw [if_pos hnil, if_pos (by omega), show s.offset + (b.length + 1) - 1 = s.offset + b.length by omega]
    · have hpos := List.length_pos_iff.mpr hnil
      rw [if_neg hnil, Nat.add_zero, if_neg (by omega)]
  · rw [hsuffix] at h
    exact h.advance

/-- one step back, where something has been read -/
theorem At.stepBack (h : At text suffix s) (hpos : 0 < s.offset) :
    ∃ c, At text (c :: suffix) { s with offset := s.offset - 1 } := by
  have hle := h.offset_le
  have hlt : s.offset - 1 < text.length := by omega
  refine ⟨text[s.offset - 1], h.content_eq, Nat.le_of_lt hlt, ?_⟩
  show text.drop (s.offset - 1) = text[s.offset - 1] :: suffix
  rw [List.drop_eq_getElem_cons hlt, Nat.sub_add_cancel hpos, h.drop_eq]

/-! ## the steps of the parser -/

theorem Reached.trans {rest' : List UInt8} {u : ParseBuffer} {a b : Multiset Addr} (h : Reached text rest s t a)
    (h' : Reached text rest' t u b) : Reached text rest' s u (a + b) where
  stands := h'.stands
  depth_eq := h'.depth_eq.trans h.depth_eq
  calls_le := Nat.le_trans h.calls_le h'.calls_le
  owns := h.owns.trans h'.owns

end

section
variable {granted : Nat → Bool} {text suffix : List UInt8} {s : ParseBuffer}

/-- a block, or nothing -/
theorem allocate_spec (h : At text suffix s) :
    Ends (allocate granted) s fun r t =>
      match r with
      | some a => Reached text suffix s t {a}
      | none => Reached text suffix s t 0 ∧ Refused granted s.calls t.calls := by
  unfold allocate
  refine Ends.then_read (Ends.then_update ?_)
  by_cases hg : granted s.calls = true
  · rw [if_pos hg]
    exact Ends.then_read (Ends.then_update (Ends.pure
      ⟨h.congr rfl rfl, rfl, Nat.le_succ _, Owns.create s.heap 1⟩))
  · rw [if_neg hg]
    exact Ends.pure ⟨⟨h.congr rfl rfl, rfl, Nat.le_succ _, Owns.refl _⟩, s.calls, Nat.le_refl _, Nat.lt_succ_self _,
      Bool.not_eq_true _ |>.mp hg⟩

theorem bufferSkipWhitespace_spec (h : At text suffix s) :
    Ends bufferSkipWhitespace s fun _ t => Reached text (skipBlank suffix) s t 0 := by
  obtain ⟨offset, hskip, hat⟩ := h.skipWhitespace
  exact ⟨(), _, rfl, hskip ▸ ⟨hat, rfl, Nat.le_refl _, Owns.refl _⟩⟩

theorem parseString_spec (h : At text suffix s) :
    Ends (parseString granted) s
      (Outcome granted text (readString suffix) (·.2) (fun r : Addr × List UInt8 => {r.1}) s) := by
  have hstop : ∀ position, position ≤ text.length + 1 → Stopped text s { s with offset := position } 0 :=
    fun position hle => ⟨h.content_eq, hle, Nat.le_refl _, Owns.refl _⟩
  have hadd := h.offset_add
  unfold parseString
  refine Ends.then_deref h.atOffset_zero (Ends.then_read (Ends.then_read ?_))
  cases suffix with
  | nil =>
    rw [if_pos (by decide)]
    exact Ends.then_update (Ends.pure ⟨hstop _ (Nat.succ_le_succ h.offset_le), Or.inl rfl⟩)
  | cons c l =>
    rw [List.headD_cons, ← List.drop_drop, h.drop_content, List.cons_append, List.drop_one, List.tail_cons,
      scanString_append_zero, readString]
    rw [List.length_cons] at hadd
    by_cases hc : c = 0x22
    · rw [if_neg (not_not.mpr hc), if_neg (not_not.mpr hc)]
      cases hscan : scanString l with
      | none => exact Ends.then_update (Ends.pure ⟨hstop _ (Nat.succ_le_succ h.offset_le), Or.inl rfl⟩)
      | some r =>
        obtain ⟨length, skipped⟩ := r
        obtain ⟨hlt, hplain⟩ := scanString_some hscan
        refine Ends.bind (allocate_spec h) fun block t ht => ?_
        cases block with
        | none =>
          obtain ⟨hreached, hrefused⟩ := ht
          exact Ends.then_update (Ends.pure ⟨⟨hreached.stands.content_eq, Nat.succ_le_succ h.offset_le,
            hreached.calls_le, hreached.owns⟩, Or.inr hrefused⟩)
        | some block =>
          have htake : (l ++ [0]).take length = l.take length := List.take_append_of_le_length (Nat.le_of_lt hlt)
          obtain ⟨result, hresult, hsome, hnone⟩ := unescape_eq (length + 1 - skipped + 1) (length + 1)
            (l.take length) [] (s.offset + 1) (by rw [List.length_nil]; omega) (by rw [List.length_take]; omega)
          rw [htake]
          refine Ends.then_deref hresult ?_
          obtain ⟨string, position⟩ := result
          dsimp only at hsome hnone
          cases string with
          | none =>
            rw [eq_comm, Option.map_eq_none_iff] at hsome
            have hle := hnone rfl
            rw [List.length_take] at hle
            refine Ends.then_update (Ends.then_update (Ends.pure ⟨⟨ht.stands.content_eq, ?_, ht.calls_le,
              ht.owns.release_all⟩, Or.inl ?_⟩))
            · show position ≤ text.length + 1
              omega
            · dsimp only
              rw [hsome]
              rfl
          | some string =>
            obtain ⟨string', hstring, rfl⟩ := Option.map_eq_some_iff.mp hsome.symm
            refine Ends.then_update (Ends.pure ⟨l.drop (length + 1), ?_, ?_, ht.depth_eq, ht.calls_le, ht.owns⟩)
            · dsimp only
              rw [hstring]
              rfl
            · refine ⟨ht.stands.content_eq, ?_, ?_⟩
              · show s.offset + 1 + length + 1 ≤ text.length
                omega
              · show text.drop (s.offset + 1 + length + 1) = l.drop (length + 1)
                rw [show s.offset + 1 + length + 1 = s.offset + (length + 1 + 1) by omega, ← List.drop_drop, h.drop_eq,
                  List.drop_succ_cons]
    · rw [if_pos hc, if_pos hc]
      exact Ends.then_update (Ends.pure ⟨hstop _ (Nat.succ_le_succ h.offset_le), Or.inl rfl⟩)

theorem takeWhile_append_of_nil {α : Type} {p : α → Bool} (a : List α) {b : List α} (hb : b.takeWhile p = []) :
    (a ++ b).takeWhile p = a.takeWhile p := by
  induction a with
  | nil => exact hb
  | cons x a ih =>
    rw [List.cons_append, List.takeWhile_cons, List.takeWhile_cons, ih]

/-- The zero byte behind the text does not belong to a number. -/
theorem numberText_append_zero (l : List UInt8) : numberText (l ++ [0]) = numberText l := by
  unfold numberText
  rw [List.take_append]
  refine takeWhile_append_of_nil _ ?_
  cases 63 - l.length with
  | zero => rfl
  | succ n => rfl

section
variable {N : Type} {strtod : Strtod N}

theorem parseNumber_spec (h : At text suffix s) :
    Ends (parseNumber strtod) s (Outcome granted text (readNumber strtod suffix) id (fun _ => 0) s) := by
  have hadd := h.offset_add
  unfold parseNumber readNumber
  refine Ends.then_read ?_
  dsimp only
  rw [h.drop_content, numberText_append_zero]
  have hle := strtod.used_le (numberText suffix)
  obtain ⟨rest, hsuffix, -, -⟩ := numberText_prefix suffix
  have hlength := congrArg List.length hsuffix
  rw [List.length_append] at hlength
  by_cases hused : (strtod.run (numberText suffix)).2 = 0
  · rw [if_pos hused, if_pos hused]
    refine Ends.pure ⟨⟨h.content_eq, ?_, Nat.le_refl _, Owns.refl _⟩, Or.inl rfl⟩
    exact Nat.le_succ_of_le h.offset_le
  · rw [if_neg hused, if_neg hused]
    refine Ends.then_update (Ends.pure ⟨_, rfl, ⟨h.content_eq, ?_, ?_⟩, rfl, Nat.le_refl _, Owns.refl _⟩)
    · show s.offset + (strtod.run (numberText suffix)).2 ≤ text.length
      omega
    · show text.drop (s.offset + (strtod.run (numberText suffix)).2) = suffix.drop (strtod.run (numberText suffix)).2
      rw [← List.drop_drop, h.drop_eq]

/-! ## containers -/

variable {β : Type}

theorem parseContainer_spec {isOpening : Parser Bool} {opening closing : UInt8} {build : Nodes N → Item N}
    {buildValue : List β → Value N} {values : Nodes N → List β} {loop : Parser (Nodes N × Bool)}
    {readLoop : Nat → List UInt8 → Option (List β × List UInt8)}
    (hopening : ∀ suffix s, At text suffix s → isOpening s = some (suffix.headD 0 == opening, s))
    (hopening_ne : opening ≠ 0) (hclosing_ne : closing ≠ 0)
    (hvalue : ∀ nodes, (build nodes).value = buildValue (values nodes)) (hnil : values .nil = [])
    (hblocks : ∀ nodes, (build nodes).blocks = nodes.blocks)
    (hloop : ∀ c l u, suffix = opening :: l → At text (c :: skipBlank l) u → u.depth = s.depth + 1 →
      Ends loop u (LoopOutcome granted text closing (readLoop (nestingLimit - u.depth) l) values u))
    (h : At text suffix s) :
    Ends (parseContainer isOpening closing build loop) s
      (Outcome granted text (readContainer opening closing buildValue (nestingLimit - s.depth) readLoop suffix)
        Item.value Item.blocks s) := by
  unfold parseContainer
  refine Ends.then_read ?_
  by_cases hdepth : nestingLimit ≤ s.depth
  · rw [if_pos hdepth, Nat.sub_eq_zero_of_le hdepth]
    exact Ends.pure ⟨⟨h.content_eq, Nat.le_succ_of_le h.offset_le, Nat.le_refl _, Owns.refl _⟩, Or.inl rfl⟩
  · have hlevels : nestingLimit - s.depth = nestingLimit - (s.depth + 1) + 1 := by omega
    have h₁ : At text suffix { s with depth := s.depth + 1 } := h.congr rfl rfl
    rw [if_neg hdepth, hlevels]
    refine Ends.then_update (Ends.then_some (hopening suffix _ h₁) ?_)
    cases suffix with
    | nil =>
      rw [if_neg (by rw [List.headD_nil, beq_iff_eq]; exact hopening_ne.symm)]
      exact Ends.pure ⟨⟨h.content_eq, Nat.le_succ_of_le h.offset_le, Nat.le_refl _, Owns.refl _⟩, Or.inl rfl⟩
    | cons c l =>
      rw [List.headD_cons, readContainer]
      by_cases hc : c = opening
      · subst hc
        rw [if_pos (beq_self_eq_true c), if_neg (not_not.mpr rfl)]
        have h₂ : At text l { s with depth := s.depth + 1, offset := s.offset + 1 } := h₁.advance (p := [c])
        refine Ends.then_update ?_
        obtain ⟨offset, hskip, h₃⟩ := h₂.skipWhitespace
        refine Ends.then_some (show bufferSkipWhitespace _ = some ((), _) from rfl) ?_
        rw [hskip]
        have hpos : 0 < offset := by
          have hadd := h.offset_add
          have hadd' := h₃.offset_add
          obtain ⟨b, hb, hl⟩ := exists_blank l
          have hlength := congrArg List.length hl
          rw [List.length_append] at hlength
          rw [List.length_cons] at hadd
          dsimp only at hadd'
          omega
        refine Ends.then_read ?_
        rw [h₃.atOffset_zero]
        by_cases hend : (skipBlank l).head? = some closing
        · obtain ⟨rest, hrest⟩ := List.head?_eq_some_iff.mp hend
          rw [hrest] at h₃ hend ⊢
          rw [List.headD_cons, if_pos rfl, if_pos hend]
          have h₄ : At text rest { s with depth := s.depth, offset := offset + 1 } :=
            (h₃.advance (p := [closing])).congr rfl rfl
          refine Ends.then_update (Ends.then_update (Ends.pure ⟨rest, ?_, ?_, rfl, Nat.le_refl _, ?_⟩))
          · rw [hvalue, hnil]
            rfl
          · exact h₄.congr rfl rfl
          · rw [hblocks]
            exact Owns.refl _
        · have hne : some ((skipBlank l).headD 0) ≠ some closing := by
            cases hskip : skipBlank l with
            | nil => exact fun e => hclosing_ne (Option.some.inj e).symm
            | cons d rest =>
              rw [hskip] at hend
              exact hend
          rw [if_neg hne, if_neg (Option.some_ne_none _), if_neg hend]
          obtain ⟨d, h₄⟩ := h₃.stepBack hpos
          refine Ends.then_update (Ends.bind (hloop d l _ rfl h₄ rfl) fun r t ht => ?_)
          obtain ⟨head, closed⟩ := r
          cases closed with
          | true =>
            obtain ⟨rest, hread, hreached⟩ := (if_pos rfl).mp ht
            refine Ends.then_update (Ends.then_update (Ends.pure ⟨rest, ?_, ?_, ?_, hreached.calls_le, ?_⟩))
            · dsimp only at hread
              rw [hread, hvalue]
              rfl
            · exact (hreached.stands.advance (p := [closing])).congr rfl rfl
            · show t.depth - 1 = s.depth
              rw [hreached.depth_eq]
              rfl
            · rw [hblocks]
              exact hreached.owns
          | false =>
            obtain ⟨hstopped, hwhy⟩ := (if_neg Bool.false_ne_true).mp ht
            refine Ends.then_update (Ends.pure ⟨⟨hstopped.content_eq, hstopped.offset_le, hstopped.calls_le,
              hstopped.owns.release_all⟩, hwhy.imp_left fun e => ?_⟩)
            dsimp only at e
            rw [e]
            rfl
      · rw [if_neg (by rw [beq_iff_eq]; exact hc), if_pos hc]
        exact Ends.pure ⟨⟨h.content_eq, Nat.le_succ_of_le h.offset_le, Nat.le_refl _, Owns.refl _⟩, Or.inl rfl⟩

theorem Stopped.behind {u t : ParseBuffer} {rest : List UInt8} {a b : Multiset Addr} (h : Reached text rest s u a)
    (h' : Stopped text u t b) : Stopped text s t (a + b) :=
  ⟨h'.content_eq, h'.offset_le, Nat.le_trans h.calls_le h'.calls_le, h.owns.trans h'.owns⟩

theorem Reached.stopped {t : ParseBuffer} {rest : List UInt8} {blocks : Multiset Addr}
    (h : Reached text rest s t blocks) : Stopped text s t blocks :=
  ⟨h.stands.content_eq, Nat.le_succ_of_le h.stands.offset_le, h.calls_le, h.owns⟩

/-- the end of an iteration: `own` are the blocks of the node -/
theorem anotherNode_spec {closing : UInt8} {node : Addr} {string : Option (Addr × List UInt8)} {item : Item N}
    {values : Nodes N → List β} {element : β} {loop : Parser (Nodes N × Bool)}
    {readLoop : List UInt8 → Option (List β × List UInt8)} {t : ParseBuffer}
    (hvalues : ∀ next, values (.cons node string item next) = element :: values next) (hnil : values .nil = [])
    (hclosing_ne : closing ≠ 0) (hcomma : closing ≠ 0x2C)
    (hloop : ∀ l u, skipBlank suffix = 0x2C :: l → At text (0x2C :: l) u → u.depth = t.depth →
      Ends loop u (LoopOutcome granted text closing (readLoop l) values u))
    (h : Reached text suffix s t ({node} + string.elim 0 (fun s => {s.1}) + item.blocks)) :
    Ends (anotherNode closing node string item loop) t
      (LoopOutcome granted text closing (readAnother closing element readLoop (skipBlank suffix)) values s) := by
  unfold anotherNode
  refine Ends.bind (bufferSkipWhitespace_spec h.stands) fun _ u hu => ?_
  have hsu := h.trans hu
  rw [add_zero] at hsu
  refine Ends.then_read ?_
  rw [hu.stands.atOffset_zero]
  cases hskip : skipBlank suffix with
  | nil =>
    rw [List.headD_nil, if_neg (by decide)]
    refine Ends.pure ((if_neg ?_).mpr ⟨?_, Or.inl rfl⟩)
    · rw [beq_iff_eq]
      exact fun e => hclosing_ne (Option.some.inj e).symm
    · rw [Nodes.blocks, Nodes.blocks, add_zero]
      exact hsu.stopped
  | cons c l =>
    rw [hskip] at hu hsu
    rw [List.headD_cons, readAnother]
    by_cases hc : c = 0x2C
    · subst hc
      rw [if_pos rfl, if_pos rfl]
      refine Ends.bind (hloop l u hskip hu.stands hu.depth_eq) fun r v hv => Ends.pure ?_
      obtain ⟨next, closed⟩ := r
      cases closed with
      | true =>
        obtain ⟨rest, hread, hreached⟩ := (if_pos rfl).mp hv
        refine (if_pos rfl).mpr ⟨rest, ?_, ?_⟩
        · dsimp only at hread
          rw [hread, hvalues]
          rfl
        · rw [Nodes.blocks]
          exact hsu.trans hreached
      | false =>
        obtain ⟨hstopped, hwhy⟩ := (if_neg Bool.false_ne_true).mp hv
        refine (if_neg Bool.false_ne_true).mpr ⟨?_, hwhy.imp (fun e => ?_) fun hr =>
          hr.mono hsu.calls_le (Nat.le_refl _)⟩
        · rw [Nodes.blocks]
          exact Stopped.behind hsu hstopped
        · rw [e]
          rfl
    · rw [if_neg fun e => hc (Option.some.inj e), if_neg hc]
      by_cases hend : c = closing
      · subst hend
        rw [if_pos rfl]
        refine Ends.pure ((if_pos (beq_self_eq_true _)).mpr ⟨l, ?_, ?_⟩)
        · rw [hvalues, hnil]
        · rw [Nodes.blocks, Nodes.blocks, add_zero]
          exact hsu
      · rw [if_neg hend]
        refine Ends.pure ((if_neg ?_).mpr ⟨?_, Or.inl rfl⟩)
        · rw [beq_iff_eq]
          exact fun e => hend (Option.some.inj e)
        · rw [Nodes.blocks, Nodes.blocks, add_zero]
          exact hsu.stopped

/-! ## values -/

theorem At.atOffset_eq {c : UInt8} (hc : c ≠ 0) (h : At text suffix s) :
    s.atOffset 0 = some c ↔ suffix.head? = some c := by
  rw [h.atOffset_zero]
  cases suffix with
  | nil => exact iff_of_false (fun e => hc (Option.some.inj e).symm) fun e => by cases e
  | cons d suffix => rfl

theorem At.atOffset_any {p : UInt8 → Bool} (hp : p 0 = false) (h : At text suffix s) :
    (s.atOffset 0).any p = suffix.head?.any p := by
  rw [h.atOffset_zero]
  cases suffix with
  | nil => exact hp
  | cons d suffix => rfl

theorem Outcome.map {α α' γ : Type} {result : Option (β × List UInt8)} {value : α → β} {blocks : α → Multiset Addr}
    {r : Option α} {t : ParseBuffer} (h : Outcome granted text result value blocks s r t) {f : α → α'} {g : β → γ}
    {value' : α' → γ} {blocks' : α' → Multiset Addr} (hvalue : ∀ a, value' (f a) = g (value a))
    (hblocks : ∀ a, blocks' (f a) = blocks a) :
    Outcome granted text (result.map fun r => (g r.1, r.2)) value' blocks' s (r.map f) t := by
  cases r with
  | none =>
    obtain ⟨hstopped, hwhy⟩ := h
    exact ⟨hstopped, hwhy.imp_left fun e => by rw [e]; rfl⟩
  | some a =>
    obtain ⟨rest, hresult, hreached⟩ := h
    refine ⟨rest, ?_, ?_⟩
    · rw [hresult, hvalue]
      rfl
    · rw [hblocks]
      exact hreached

theorem literal_spec {l : List UInt8} {item : Item N} {result : Option (Value N × List UInt8)} (h : At text suffix s)
    (hl : suffix.take l.length = l) (hblocks : item.blocks = 0)
    (hresult : result = some (item.value, suffix.drop l.length)) :
    Ends (do advance l.length; pure (some item)) s (Outcome granted text result Item.value Item.blocks s) := by
  rw [eq_append_of_take hl] at h
  refine Ends.then_update (Ends.pure ⟨_, hresult, h.advance, rfl, Nat.le_refl _, ?_⟩)
  rw [hblocks]
  exact Owns.refl _

theorem skipBlank_skipBlank (l : List UInt8) : skipBlank (skipBlank l) = skipBlank l := by
  obtain ⟨b, hb, hl⟩ := exists_blank l
  have happend := skipBlank_append hb (skipBlank l)
  rw [← hl] at happend
  exact happend.symm

theorem readElements_skipBlank (fuel levels : Nat) (l : List UInt8) :
    readElements strtod fuel levels (skipBlank l) = readElements strtod fuel levels l := by
  cases fuel with
  | zero => rfl
  | succ fuel => rw [readElements, readElements, skipBlank_skipBlank]

theorem readMembers_skipBlank (fuel levels : Nat) (l : List UInt8) :
    readMembers strtod fuel levels (skipBlank l) = readMembers strtod fuel levels l := by
  cases fuel with
  | zero => rfl
  | succ fuel => rw [readMembers, readMembers, skipBlank_skipBlank]

theorem length_skipBlank_le (l : List UInt8) : (skipBlank l).length ≤ l.length :=
  (List.dropWhile_suffix _).length_le

/-- what is read of a value is not nothing -/
theorem length_readValue {fuel levels : Nat} {l rest : List UInt8} {v : Value N}
    (h : readValue strtod fuel levels l = some (v, rest)) : rest.length < l.length := by
  obtain ⟨token, rfl, htoken⟩ := (read_sound fuel).1 levels l v rest h
  obtain ⟨c, l, rfl, -⟩ := htoken.head
  rw [List.length_append, List.length_cons]
  omega

theorem length_readString {l s rest : List UInt8} (h : readString l = some (s, rest)) : rest.length < l.length := by
  obtain ⟨token, rfl, htoken⟩ := readString_sound h
  obtain ⟨l, rfl⟩ := htoken.head
  rw [List.length_append, List.length_cons]
  omega

section
variable (strtod granted text) (fuel : Nat)

/-- the parser of a value reads what the reader reads -/
def ParsesValue : Prop := ∀ suffix s, At text suffix s → 2 * suffix.length < fuel →
  Ends (parseValue strtod granted fuel) s (Outcome granted text
    (readValue strtod fuel (nestingLimit - s.depth) suffix) Item.value Item.blocks s)

def ParsesElements : Prop := ∀ c l s, At text (c :: l) s → 2 * l.length + 1 < fuel →
  Ends (parseElements strtod granted fuel) s (LoopOutcome granted text 0x5D
    (readElements strtod fuel (nestingLimit - s.depth) l) Nodes.values s)

def ParsesMembers : Prop := ∀ c l s, At text (c :: l) s → 2 * l.length + 1 < fuel →
  Ends (parseMembers strtod granted fuel) s (LoopOutcome granted text 0x7D
    (readMembers strtod fuel (nestingLimit - s.depth) l) Nodes.members s)

end

theorem parseValue_spec {fuel : Nat} (helements : ParsesElements granted text strtod fuel)
    (hmembers : ParsesMembers granted text strtod fuel) : ParsesValue granted text strtod (fuel + 1) := by
  intro suffix s h hf
  have hnull : s.startsWith nullText = true ↔ suffix.take 4 = nullText := h.startsWith (by decide)
  have hfalse : s.startsWith falseText = true ↔ suffix.take 5 = falseText := h.startsWith (by decide)
  have htrue : s.startsWith trueText = true ↔ suffix.take 4 = trueText := h.startsWith (by decide)
  have hquote := h.atOffset_eq (c := 0x22) (by decide)
  have hnumber := h.atOffset_any (p := fun c => c == 0x2D || decide (0x30 ≤ c ∧ c ≤ 0x39)) (by decide)
  have harray := h.atOffset_eq (c := 0x5B) (by decide)
  have hobject := h.atOffset_eq (c := 0x7B) (by decide)
  rw [parseValue, readValue]
  refine Ends.then_read ?_
  dsimp only [id]
  by_cases h₁ : suffix.take 4 = nullText
  · rw [if_pos (hnull.mpr h₁), if_pos h₁]
    exact literal_spec (l := nullText) h h₁ rfl rfl
  · rw [if_neg fun e => h₁ (hnull.mp e), if_neg h₁]
    by_cases h₂ : suffix.take 5 = falseText
    · rw [if_pos (hfalse.mpr h₂), if_pos h₂]
      exact literal_spec (l := falseText) h h₂ rfl rfl
    · rw [if_neg fun e => h₂ (hfalse.mp e), if_neg h₂]
      by_cases h₃ : suffix.take 4 = trueText
      · rw [if_pos (htrue.mpr h₃), if_pos h₃]
        exact literal_spec (l := trueText) h h₃ rfl rfl
      · rw [if_neg fun e => h₃ (htrue.mp e), if_neg h₃]
        by_cases h₄ : suffix.head? = some 0x22
        · rw [if_pos (hquote.mpr h₄), if_pos h₄]
          exact Ends.bind (parseString_spec h) fun r t ht =>
            Ends.pure (ht.map (f := fun s => Item.string s.1 s.2) (g := fun s => Value.str (cText s)) (fun _ => rfl)
              fun _ => rfl)
        · rw [if_neg fun e => h₄ (hquote.mp e), if_neg h₄, hnumber]
          by_cases h₅ : (suffix.head?.any fun c => c == 0x2D || decide (0x30 ≤ c ∧ c ≤ 0x39)) = true
          · rw [if_pos h₅, if_pos h₅]
            exact Ends.bind (parseNumber_spec h) fun r t ht =>
              Ends.pure (ht.map (f := Item.number) (g := Value.num) (fun _ => rfl) fun _ => rfl)
          · rw [if_neg h₅, if_neg h₅]
            by_cases h₆ : suffix.head? = some 0x5B
            · rw [if_pos (harray.mpr h₆), if_pos h₆]
              refine parseContainer_spec (fun suffix s h => ?_) (by decide) (by decide) (fun _ => rfl) rfl
                (fun _ => rfl) (fun c l u hl hu hdepth => ?_) h
              · exact bind_of_some (deref_of_some (f := fun b : ParseBuffer => b.atOffset 0) h.atOffset_zero)
              · have hspec := helements c (skipBlank l) u hu (by
                  have := length_skipBlank_le l
                  rw [hl, List.length_cons] at hf
                  omega)
                rwa [readElements_skipBlank] at hspec
            · rw [if_neg fun e => h₆ (harray.mp e), if_neg h₆]
              by_cases h₇ : suffix.head? = some 0x7B
              · rw [if_pos (hobject.mpr h₇), if_pos h₇]
                refine parseContainer_spec (fun suffix s h => ?_) (by decide) (by decide) (fun _ => rfl) rfl
                  (fun _ => rfl) (fun c l u hl hu hdepth => ?_) h
                · show some (s.atOffset 0 == some 0x7B, s) = _
                  rw [h.atOffset_zero]
                  rfl
                · have hspec := hmembers c (skipBlank l) u hu (by
                    have := length_skipBlank_le l
                    rw [hl, List.length_cons] at hf
                    omega)
                  rwa [readMembers_skipBlank] at hspec
              · rw [if_neg fun e => h₇ (hobject.mp e), if_neg h₇]
                exact Ends.pure ⟨⟨h.content_eq, Nat.le_succ_of_le h.offset_le, Nat.le_refl _, Owns.refl _⟩,
                  Or.inl rfl⟩

theorem parseElements_spec {fuel : Nat} (hvalue : ParsesValue granted text strtod fuel)
    (helements : ParsesElements granted text strtod fuel) : ParsesElements granted text strtod (fuel + 1) := by
  intro c l s h hf
  rw [parseElements, readElements]
  refine Ends.bind (allocate_spec h) fun node t ht => ?_
  cases node with
  | none => exact Ends.pure ((if_neg Bool.false_ne_true).mpr ⟨ht.1.stopped, Or.inr ht.2⟩)
  | some node =>
    refine Ends.then_update (Ends.bind (bufferSkipWhitespace_spec (ht.stands.advance (p := [c]))) fun _ u hu => ?_)
    have hlength := length_skipBlank_le l
    have htu : Reached text (skipBlank l) s u {node} := by
      have := ht.trans ⟨hu.stands, hu.depth_eq, hu.calls_le, hu.owns⟩
      rwa [add_zero] at this
    have hdepth := htu.depth_eq
    refine Ends.bind (hvalue (skipBlank l) u hu.stands (by omega)) fun item v hv => ?_
    rw [hdepth] at hv
    cases item with
    | none =>
      obtain ⟨hstopped, hwhy⟩ := hv
      refine Ends.pure ((if_neg Bool.false_ne_true).mpr ⟨?_, hwhy.imp (fun e => ?_) fun hr =>
        hr.mono htu.calls_le (Nat.le_refl _)⟩)
      · exact Stopped.behind htu hstopped
      · rw [e]
    | some item =>
      obtain ⟨rest, hread, hreached⟩ := hv
      have hshort := length_readValue hread
      rw [hread]
      refine anotherNode_spec (fun _ => rfl) rfl (by decide) (by decide) (fun l' w hl' hw hwdepth => ?_)
        (htu.trans hreached)
      have hlength' := length_skipBlank_le rest
      rw [hl', List.length_cons] at hlength'
      have hspec := helements _ _ w hw (by omega)
      rwa [hwdepth, hreached.depth_eq, hdepth] at hspec

theorem parseMembers_spec {fuel : Nat} (hvalue : ParsesValue granted text strtod fuel)
    (hmembers : ParsesMembers granted text strtod fuel) : ParsesMembers granted text strtod (fuel + 1) := by
  intro c l s h hf
  rw [parseMembers, readMembers]
  refine Ends.bind (allocate_spec h) fun node t ht => ?_
  cases node with
  | none => exact Ends.pure ((if_neg Bool.false_ne_true).mpr ⟨ht.1.stopped, Or.inr ht.2⟩)
  | some node =>
    refine Ends.then_update (Ends.bind (bufferSkipWhitespace_spec (ht.stands.advance (p := [c]))) fun _ u hu => ?_)
    have hlength := length_skipBlank_le l
    have htu : Reached text (skipBlank l) s u {node} := by
      have := ht.trans ⟨hu.stands, hu.depth_eq, hu.calls_le, hu.owns⟩
      rwa [add_zero] at this
    refine Ends.bind (parseString_spec hu.stands) fun name v hv => ?_
    cases name with
    | none =>
      obtain ⟨hstopped, hwhy⟩ := hv
      refine Ends.pure ((if_neg Bool.false_ne_true).mpr ⟨?_, hwhy.imp (fun e => ?_) fun hr =>
        hr.mono htu.calls_le (Nat.le_refl _)⟩)
      · exact Stopped.behind htu hstopped
      · rw [e]
    | some name =>
      obtain ⟨rest, hread, hreached⟩ := hv
      have hshort := length_readString hread
      rw [hread]
      refine Ends.bind (bufferSkipWhitespace_spec hreached.stands) fun _ w hw => ?_
      have htw : Reached text (skipBlank rest) s w ({node} + {name.1}) := by
        have := (htu.trans hreached).trans hw
        rwa [add_zero] at this
      refine Ends.then_read ?_
      rw [htw.stands.atOffset_zero]
      have hlength₁ := length_skipBlank_le rest
      dsimp only
      cases hskip : skipBlank rest with
      | nil =>
        rw [List.headD_nil, if_neg (by decide)]
        exact Ends.pure ((if_neg Bool.false_ne_true).mpr ⟨htw.stopped, Or.inl rfl⟩)
      | cons d l' =>
        rw [hskip, List.length_cons] at hlength₁
        rw [List.headD_cons]
        by_cases hd : d = 0x3A
        · subst hd
          rw [hskip] at htw
          rw [if_pos rfl]
          dsimp only
          rw [if_neg (not_not.mpr rfl)]
          refine Ends.then_update (Ends.bind (bufferSkipWhitespace_spec (htw.stands.advance (p := [0x3A])))
            fun _ x hx => ?_)
          have hlength₂ := length_skipBlank_le l'
          have htx : Reached text (skipBlank l') s x ({node} + {name.1}) :=
            ⟨hx.stands, hx.depth_eq.trans htw.depth_eq, Nat.le_trans htw.calls_le hx.calls_le, by
              have := htw.owns.trans hx.owns
              rwa [add_zero] at this⟩
          refine Ends.bind (hvalue (skipBlank l') x hx.stands (by omega)) fun item y hy => ?_
          rw [htx.depth_eq] at hy
          cases item with
          | none =>
            obtain ⟨hstopped, hwhy⟩ := hy
            refine Ends.pure ((if_neg Bool.false_ne_true).mpr ⟨?_, hwhy.imp (fun e => ?_) fun hr =>
              hr.mono htx.calls_le (Nat.le_refl _)⟩)
            · exact Stopped.behind htx hstopped
            · rw [e]
          | some item =>
            obtain ⟨rest', hread', hreached'⟩ := hy
            have hshort' := length_readValue hread'
            rw [hread']
            refine anotherNode_spec (fun _ => rfl) rfl (by decide) (by decide) (fun l'' z hl'' hz hzdepth => ?_)
              (htx.trans hreached')
            have hlength₃ := length_skipBlank_le rest'
            rw [hl'', List.length_cons] at hlength₃
            have hspec := hmembers _ _ z hz (by omega)
            rwa [hzdepth, hreached'.depth_eq, htx.depth_eq] at hspec
        · rw [if_neg fun e => hd (Option.some.inj e)]
          dsimp only
          rw [if_pos hd]
          exact Ends.pure ((if_neg Bool.false_ne_true).mpr ⟨htw.stopped, Or.inl rfl⟩)

theorem parse_spec (granted : Nat → Bool) (text : List UInt8) (fuel : Nat) :
    ParsesValue granted text strtod fuel ∧ ParsesElements granted text strtod fuel ∧
      ParsesMembers granted text strtod fuel := by
  induction fuel with
  | zero =>
    exact ⟨fun _ _ _ h => absurd h (Nat.not_lt_zero _), fun _ _ _ _ h => absurd h (Nat.not_lt_zero _),
      fun _ _ _ _ h => absurd h (Nat.not_lt_zero _)⟩
  | succ fuel ih =>
    obtain ⟨hvalue, helements, hmembers⟩ := ih
    exact ⟨parseValue_spec helements hmembers, parseElements_spec hvalue helements, parseMembers_spec hvalue hmembers⟩

/-! ## a whole text -/

/-- what `cJSON_ParseWithOpts` says of a text, where there is enough memory -/
def readTextWith (strtod : Strtod N) (requireNullTerminated : Bool) (text : List UInt8) : Option (Value N × Nat) :=
  match readText strtod text with
  | none => none
  | some (value, length) =>
    if requireNullTerminated = true then
      if skipBlank (text.drop length) = [] then some (value, text.length) else none
    else some (value, length)

theorem skipUtf8Bom_spec (h : At text text s) :
    Ends skipUtf8Bom s fun _ t => Reached text
      (if 4 ≤ text.length ∧ text.take 3 = byteOrderMark then text.drop 3 else text) s t 0 := by
  refine Ends.update ?_
  have hsome : (s.atOffset 4).isSome = true ↔ 4 ≤ text.length := by
    rw [h.atOffset, isSome_getElem?, List.length_append, List.length_singleton]
    omega
  have hmark : s.startsWith byteOrderMark = true ↔ text.take 3 = byteOrderMark := h.startsWith (by decide)
  by_cases hbom : 4 ≤ text.length ∧ text.take 3 = byteOrderMark
  · rw [if_pos hbom, if_pos (by rw [Bool.and_eq_true, hsome, hmark]; exact hbom)]
    have h' : At text (byteOrderMark ++ text.drop 3) s := by
      rw [← eq_append_of_take hbom.2]
      exact h
    exact ⟨h'.advance, rfl, Nat.le_refl _, Owns.refl _⟩
  · rw [if_neg hbom, if_neg (by rw [Bool.and_eq_true, hsome, hmark]; exact hbom)]
    exact ⟨h, rfl, Nat.le_refl _, Owns.refl _⟩

/-- `fail:` -/
theorem parseFailed_spec {t : ParseBuffer} {root : Addr} {blocks : Multiset Addr} {Q : Prop}
    (h : Stopped text s t ({root} + blocks)) (hQ : Q) :
    Ends (parseFailed (N := N) root blocks) t fun r u =>
      r.2 ≤ text.length ∧ r.1 = none ∧ Owns s.heap u.heap 0 ∧ u.calls = t.calls ∧ Q := by
  unfold parseFailed
  refine Ends.then_update (Ends.then_read (Ends.then_read (Ends.pure ⟨?_, rfl, h.owns.release_all, rfl, hQ⟩)))
  dsimp only
  rw [h.content_eq, List.length_append, List.length_singleton]
  split <;> omega

theorem parseWithLengthOpts_spec (requireNullTerminated : Bool) (h : At text text s) (hdepth : s.depth = 0) :
    Ends (parseWithLengthOpts strtod granted requireNullTerminated) s fun r t =>
      r.2 ≤ text.length ∧
      match r.1 with
      | some (root, item) => Owns s.heap t.heap ({root} + item.blocks) ∧
          readTextWith strtod requireNullTerminated text = some (item.value, r.2)
      | none => Owns s.heap t.heap 0 ∧
          (readTextWith strtod requireNullTerminated text = none ∨ Refused granted s.calls t.calls) := by
  have hlength : s.content.length = text.length + 1 := by rw [h.content_eq, List.length_append, List.length_singleton]
  unfold parseWithLengthOpts
  refine Ends.then_read ?_
  rw [hlength, if_neg (Nat.succ_ne_zero _)]
  refine Ends.bind (allocate_spec h) fun root t ht => ?_
  cases root with
  | none => exact Ends.pure ⟨Nat.zero_le _, ht.1.owns, Or.inr ht.2⟩
  | some root =>
    refine Ends.bind (skipUtf8Bom_spec ht.stands) fun _ u hu => ?_
    refine Ends.bind (bufferSkipWhitespace_spec hu.stands) fun _ v hv => ?_
    have hsv := (ht.trans hu).trans hv
    rw [add_zero, add_zero] at hsv
    have hoffset := hsv.stands.offset_add
    refine Ends.bind ((parse_spec granted text _).1 _ v hsv.stands (by omega)) fun item w hw => ?_
    rw [hsv.depth_eq, hdepth, Nat.sub_zero] at hw
    cases item with
    | none =>
      obtain ⟨hstopped, hwhy⟩ := hw
      refine (parseFailed_spec (Q := readTextWith strtod requireNullTerminated text = none ∨
        Refused granted s.calls w.calls) (Stopped.behind hsv hstopped) ?_).mono fun r x hx => ?_
      · refine hwhy.imp (fun e => ?_) fun hr => hr.mono hsv.calls_le (Nat.le_refl _)
        have hread : readText strtod text = none := congrArg (Option.map _) e
        rw [readTextWith, hread]
      · obtain ⟨hle, hnone, howns, hcalls, hwhy⟩ := hx
        rw [hnone, hcalls]
        exact ⟨hle, howns, hwhy⟩
    | some item =>
      obtain ⟨rest, hvalue, hreached⟩ := hw
      have hsw := hsv.trans hreached
      have hadd := hsw.stands.offset_add
      have hread : readText strtod text = some (item.value, w.offset) := by
        refine (congrArg (Option.map _) hvalue).trans ?_
        rw [Option.map_some, ← hadd, Nat.add_sub_cancel]
      dsimp only
      cases requireNullTerminated with
      | false =>
        rw [if_neg Bool.false_ne_true]
        refine Ends.then_read (Ends.then_read ?_)
        rw [if_neg fun e => Bool.false_ne_true e.1]
        refine Ends.pure ⟨hsw.stands.offset_le, hsw.owns, ?_⟩
        rw [readTextWith, hread]
        rfl
      | true =>
        refine Ends.bind (bufferSkipWhitespace_spec hsw.stands) fun _ x hx => Ends.then_read (Ends.then_read ?_)
        have hsx := hsw.trans hx
        rw [add_zero] at hsx
        have hend := hsx.stands.offset_add
        have hwith : readTextWith strtod true text
            = if skipBlank rest = [] then some (item.value, text.length) else none := by
          rw [readTextWith, hread, ← hsw.stands.drop_eq]
          rfl
        rw [hsx.stands.atOffset_zero, hwith]
        cases hskip : skipBlank rest with
        | nil =>
          rw [hskip, List.length_nil, Nat.add_zero] at hend
          rw [if_neg fun e => e.2 rfl, if_pos rfl, hend]
          exact Ends.pure ⟨Nat.le_refl _, hsx.owns, rfl⟩
        | cons d l =>
          have hd : d ≠ 0 := by
            rintro rfl
            have := skipBlank_skipBlank rest
            rw [hskip] at this
            exact absurd (congrArg List.length this) (by
              have hle := length_skipBlank_le l
              show (skipBlank l).length ≠ l.length + 1
              omega)
          rw [if_pos ⟨rfl, fun e => hd (Option.some.inj e)⟩, if_neg (List.cons_ne_nil _ _)]
          refine (parseFailed_spec (Q := True) hsx.stopped trivial).mono
            fun r y hy => ?_
          obtain ⟨hle, hnone, howns, -, -⟩ := hy
          rw [hnone]
          exact ⟨hle, howns, Or.inl rfl⟩

theorem parseWithOpts_spec (strtod : Strtod N) (granted : Nat → Bool) (requireNullTerminated : Bool)
    (value : List UInt8) (calls : Nat) (heap : Ledger) :
    ∃ r s, parseWithOpts strtod granted requireNullTerminated value calls heap = some (r, s) ∧
      r.2 ≤ (cText value).length ∧
      match r.1 with
      | some (root, item) => Owns heap s.heap ({root} + item.blocks) ∧
          readTextWith strtod requireNullTerminated (cText value) = some (item.value, r.2)
      | none => Owns heap s.heap 0 ∧ (readTextWith strtod requireNullTerminated (cText value) = none ∨
          Refused granted calls s.calls) := by
  have h : At (cText value) (cText value) ⟨cText value ++ [0], 0, 0, calls, heap⟩ := ⟨rfl, Nat.zero_le _, rfl⟩
  exact parseWithLengthOpts_spec requireNullTerminated h rfl

/-- Whatever the text and whichever blocks are granted: nothing is read behind the text and nothing written behind a
block, the parser ends, the end that is reported lies in the text, and what has been allocated belongs to the value that
is returned or has been released, once.  The value is the one that the text says. -/
theorem parseWithOpts_safe (strtod : Strtod N) (granted : Nat → Bool) (requireNullTerminated : Bool)
    (value : List UInt8) (calls : Nat) (heap : Ledger) :
    ∃ r s, parseWithOpts strtod granted requireNullTerminated value calls heap = some (r, s) ∧
      r.2 ≤ (cText value).length ∧
      match r.1 with
      | some (root, item) => Owns heap s.heap ({root} + item.blocks) ∧
          readTextWith strtod requireNullTerminated (cText value) = some (item.value, r.2)
      | none => Owns heap s.heap 0 := by
  obtain ⟨r, s, hrun, hle, hmatch⟩ := parseWithOpts_spec strtod granted requireNullTerminated value calls heap
  refine ⟨r, s, hrun, hle, ?_⟩
  obtain ⟨root | ⟨root, item⟩, position⟩ := r
  · exact hmatch.1
  · exact hmatch

/-- With enough memory the parser returns what the text says. -/
theorem parseWithOpts_read (strtod : Strtod N) {granted : Nat → Bool} (hgranted : ∀ call, granted call = true)
    (requireNullTerminated : Bool) (value : List UInt8) (calls : Nat) (heap : Ledger) :
    ∃ r s, parseWithOpts strtod granted requireNullTerminated value calls heap = some (r, s) ∧
      (r.1.map fun item => (item.2.value, r.2)) = readTextWith strtod requireNullTerminated (cText value) := by
  obtain ⟨r, s, hrun, hle, hmatch⟩ := parseWithOpts_spec strtod granted requireNullTerminated value calls heap
  refine ⟨r, s, hrun, ?_⟩
  obtain ⟨root | ⟨root, item⟩, position⟩ := r
  · rcases hmatch.2 with hnone | ⟨call, _, _, hcall⟩
    · exact hnone.symm
    · rw [hgranted] at hcall
      cases hcall
  · exact hmatch.2.symm

end

end

end Cjet.JsonText
