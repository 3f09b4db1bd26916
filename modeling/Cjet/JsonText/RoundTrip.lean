import Cjet.JsonText.PrintMemory

/-!
# What is printed is read again

* `stringText_quoted`     a string, with its escape sequences;
* `text_render`           the text of a value is a text of the grammar, formatted or not;
* `print_parse`           the parser reads what the printer has written: the same value, but for its numbers, which are
                          those that `strtod` makes of what `sprintf` wrote.
-/

set_option linter.unusedVariables false

namespace Cjet.JsonText
open Stateful Prog

/-! ## strings -/

/-- The escape sequence of a byte is read as that byte, and not beyond its end. -/
theorem escapeByte_cases (c : UInt8) :
    (escapeByte c = [c] ∧ c ≠ 0x22 ∧ c ≠ 0x5C) ∨
    (∃ d, escapeByte c = [0x5C, d] ∧ d ≠ 0x75 ∧ shortEscapes.lookup d = some c) ∨
    (∃ x y, escapeByte c = [0x5C, 0x75, 0x30, 0x30, x, y] ∧ x ≠ 0x22 ∧ x ≠ 0x5C ∧ y ≠ 0x22 ∧ y ≠ 0x5C ∧
      parseHex4 [0x30, 0x30, x, y] = c.toNat ∧ c.toNat < 0x80) := by
  have hall : ∀ n : Fin 256,
      (escapeByte (UInt8.ofNat n) = [UInt8.ofNat n] ∧ UInt8.ofNat n ≠ 0x22 ∧ UInt8.ofNat n ≠ 0x5C) ∨
      (escapeByte (UInt8.ofNat n) = [0x5C, (escapeByte (UInt8.ofNat n)).getD 1 0] ∧
        (escapeByte (UInt8.ofNat n)).getD 1 0 ≠ 0x75 ∧
        shortEscapes.lookup ((escapeByte (UInt8.ofNat n)).getD 1 0) = some (UInt8.ofNat n)) ∨
      (escapeByte (UInt8.ofNat n) = [0x5C, 0x75, 0x30, 0x30, hexChar (n / 16), hexChar (n % 16)] ∧
        hexChar (n / 16) ≠ 0x22 ∧ hexChar (n / 16) ≠ 0x5C ∧ hexChar (n % 16) ≠ 0x22 ∧ hexChar (n % 16) ≠ 0x5C ∧
        parseHex4 [0x30, 0x30, hexChar (n / 16), hexChar (n % 16)] = (UInt8.ofNat n).toNat ∧
        (UInt8.ofNat n).toNat < 0x80) := by decide +kernel
  have hc := hall ⟨c.toNat, c.toNat_lt⟩
  rw [UInt8.ofNat_toNat] at hc
  rcases hc with h | h | h
  · exact Or.inl h
  · exact Or.inr (Or.inl ⟨_, h⟩)
  · exact Or.inr (Or.inr ⟨_, _, h⟩)

theorem scanString_escaped (s rest : List UInt8) :
    ∃ skipped, scanString (s.flatMap escapeByte ++ 0x22 :: rest) = some ((s.flatMap escapeByte).length, skipped) := by
  induction s with
  | nil => exact ⟨0, scanString_quote rest⟩
  | cons c s ih =>
    obtain ⟨skipped, ih⟩ := ih
    rw [List.flatMap_cons, List.append_assoc]
    rcases escapeByte_cases c with ⟨h, hquote, hslash⟩ | ⟨d, h, -, -⟩ | ⟨x, y, h, hx, hx', hy, hy', -, -⟩
    · rw [h, List.singleton_append, scanString_cons_of_ne hquote hslash, ih]
      exact ⟨_, rfl⟩
    · rw [h, List.cons_append, List.cons_append, List.nil_append, scanString_escape, ih]
      exact ⟨_, rfl⟩
    · rw [h]
      simp only [List.cons_append, List.nil_append]
      rw [scanString_escape, scanString_cons_of_ne (by decide) (by decide),
        scanString_cons_of_ne (by decide) (by decide), scanString_cons_of_ne hx hx', scanString_cons_of_ne hy hy', ih]
      exact ⟨_, rfl⟩

theorem escapeSequence_short {c d : UInt8} (hd : d ≠ 0x75) (h : shortEscapes.lookup d = some c) (rest : List UInt8) :
    escapeSequence (0x5C :: d :: rest) = some ([c], 2) := by
  refine (if_neg hd).trans ?_
  show (shortEscapes.lookup d).map (fun b => ([b], 2)) = _
  rw [h]
  rfl

theorem escapeSequence_unicode {c x y : UInt8} (h : parseHex4 [0x30, 0x30, x, y] = c.toNat) (hc : c.toNat < 0x80)
    (rest : List UInt8) : escapeSequence (0x5C :: 0x75 :: 0x30 :: 0x30 :: x :: y :: rest) = some ([c], 6) := by
  have hcode : parseHex4 (0x30 :: 0x30 :: x :: y :: rest) = c.toNat := by rw [← h]; rfl
  have hbyte : encodeUtf8 c.toNat = some [c] := by
    unfold encodeUtf8
    rw [if_pos hc]
    have hand : c.toNat &&& 0x7F = c.toNat := by
      rw [show (0x7F : Nat) = 2 ^ 7 - 1 from rfl, Nat.and_two_pow_sub_one_eq_mod]
      exact Nat.mod_eq_of_lt hc
    rw [hand, UInt8.ofNat_toNat]
  have hu : escapeSequence (0x5C :: 0x75 :: 0x30 :: 0x30 :: x :: y :: rest)
      = utf16LiteralToUtf8 (0x5C :: 0x75 :: 0x30 :: 0x30 :: x :: y :: rest) := by
    unfold escapeSequence
    simp only [List.drop_succ_cons, List.drop_zero, List.headD_cons, if_true]
  rw [hu]
  unfold utf16LiteralToUtf8
  rw [if_neg (by simp only [List.length_cons]; omega)]
  simp only [List.drop_succ_cons, List.drop_zero]
  rw [hcode, if_neg (by omega), if_neg (by omega), hbyte]
  rfl

theorem unescapeText_escaped (s : List UInt8) {fuel : Nat} (h : (s.flatMap escapeByte).length < fuel) :
    unescapeText fuel (s.flatMap escapeByte) = some s := by
  induction s generalizing fuel with
  | nil =>
    cases fuel with
    | zero => exact absurd h (Nat.not_lt_zero _)
    | succ fuel => rfl
  | cons c s ih =>
    cases fuel with
    | zero => exact absurd h (Nat.not_lt_zero _)
    | succ fuel =>
      rw [List.flatMap_cons, List.length_append, (escapeByte_spec c).1] at h
      have hread : unescapeText fuel (s.flatMap escapeByte) = some s := ih (by omega)
      rw [List.flatMap_cons]
      rcases escapeByte_cases c with ⟨hc, -, hslash⟩ | ⟨d, hc, hd, hlookup⟩ | ⟨x, y, hc, -, -, -, -, hcode, hlt⟩
      · rw [hc, List.singleton_append, unescapeText, if_pos hslash, hread]
        rfl
      · rw [hc, List.cons_append, List.cons_append, List.nil_append, unescapeText, if_neg (not_not.mpr rfl),
          escapeSequence_short hd hlookup]
        simp only [List.drop_succ_cons, List.drop_zero]
        rw [hread]
        rfl
      · rw [hc]
        simp only [List.cons_append, List.nil_append]
        rw [unescapeText, if_neg (not_not.mpr rfl), escapeSequence_unicode hcode hlt]
        simp only [List.drop_succ_cons, List.drop_zero]
        rw [hread]
        rfl

theorem stringText_quoted (s : List UInt8) : StringText (quoted s) s := by
  obtain ⟨skipped, hscan⟩ := scanString_escaped s []
  exact StringText.quoted _ s skipped hscan (unescapeText_escaped s (Nat.lt_succ_self _))

/-! ## values -/

section
variable {N : Type}

/-- What `sprintf` writes for a number, `strtod` reads as a number, with all of its bytes. -/
def Readable (sprintf : Sprintf N) (strtod : Strtod N) : Prop :=
  ∀ d, sprintf.isSpecial d = false → ∃ n, NumberText strtod (sprintf.text d) n

variable (sprintf : Sprintf N) (strtod : Strtod N) (format : Bool)

/-- the number that is read for one that is printed -/
def rereadNumber (d : N) : Value N := if sprintf.isSpecial d then .null else .num (strtod.run (sprintf.text d)).1

mutual

/-- the value of an item, once it has been printed and parsed -/
def Item.reread : Item N → Value N
  | .invalid => .null
  | .null => .null
  | .bool b => .bool b
  | .number n => rereadNumber sprintf strtod n
  | .string _ s => .str (cText s)
  | .array child => .arr child.rereadValues
  | .object child => .obj child.rereadMembers

def Nodes.rereadValues : Nodes N → List (Value N)
  | .nil => []
  | .cons _ _ item next => item.reread :: next.rereadValues

def Nodes.rereadMembers : Nodes N → List (List UInt8 × Value N)
  | .nil => []
  | .cons _ string item next => ((string.map fun s => cText s.2).getD [], item.reread) :: next.rereadMembers

end

mutual

/-- how deeply the containers are nested -/
def Item.height : Item N → Nat
  | .array child => child.height + 1
  | .object child => child.height + 1
  | _ => 0

def Nodes.height : Nodes N → Nat
  | .nil => 0
  | .cons _ _ item next => max item.height next.height

end

variable {sprintf strtod format}

theorem text_number (hreadable : Readable sprintf strtod) (levels : Nat) (d : N) :
    Text strtod levels (sprintf.text d) (rereadNumber sprintf strtod d) := by
  unfold rereadNumber
  cases hspecial : sprintf.isSpecial d with
  | true =>
    have htext : sprintf.text d = nullText := by
      unfold Sprintf.text
      rw [if_pos hspecial]
    rw [htext, if_pos rfl]
    exact Text.null levels
  | false =>
    obtain ⟨n, hn⟩ := hreadable d hspecial
    rw [if_neg Bool.false_ne_true, hn.run]
    exact Text.number levels _ n hn

theorem cText_of_notMem {s : List UInt8} (h : 0 ∉ s) : cText s = s :=
  List.takeWhile_eq_self_iff.mpr fun c hc => bne_iff_ne.mpr fun e => h (by rwa [e] at hc)

theorem blank_tabs (count : Nat) : Blank (tabs count) := by
  intro c hc
  rw [(List.mem_replicate.mp hc).2]
  decide

theorem blank_singleton {c : UInt8} (h : c ≤ 32) : Blank [c] := List.forall_mem_singleton.mpr h

theorem blank_nil : Blank [] := fun _ hc => absurd hc List.not_mem_nil

theorem Blank.append {a b : List UInt8} (ha : Blank a) (hb : Blank b) : Blank (a ++ b) := fun c hc =>
  (List.mem_append.mp hc).elim (ha c) (hb c)

theorem Blank.ite (format : Bool) {a : List UInt8} (ha : Blank a) : Blank (if format then a else []) := by
  cases format with
  | false => exact blank_nil
  | true => exact ha

theorem arrayComma_eq (format : Bool) : ∃ b, Blank b ∧ arrayComma format = 0x2C :: b := by
  refine ⟨if format then [0x20] else [], Blank.ite format (blank_singleton (by decide)), ?_⟩
  unfold arrayComma
  cases format <;> rfl

theorem memberColon_eq (format : Bool) : ∃ b, Blank b ∧ memberColon format = 0x3A :: b := by
  refine ⟨if format then [0x09] else [], Blank.ite format (blank_singleton (by decide)), ?_⟩
  unfold memberColon
  cases format <;> rfl

theorem opening_eq (format : Bool) :
    ∃ b, Blank b ∧ (if format then [0x7B, 0x0A] else [0x7B] : List UInt8) = 0x7B :: b := by
  refine ⟨if format then [0x0A] else [], Blank.ite format (blank_singleton (by decide)), ?_⟩
  cases format <;> rfl

theorem blank_newline (format : Bool) : Blank (if format then [0x0A] else []) :=
  Blank.ite format (blank_singleton (by decide))

/-- the name of a member -/
def memberName (string : Option (Addr × List UInt8)) : List UInt8 := (string.map fun s => cText s.2).getD []

theorem cText_memberName (string : Option (Addr × List UInt8)) : cText (memberName string) = memberName string := by
  cases string with
  | none => rfl
  | some s => exact cText_of_notMem (notMem_cText s.2)

/-- what a value of the text needs -/
def RendersAs (sprintf : Sprintf N) (strtod : Strtod N) (format : Bool) (item : Item N) : Prop :=
  item.Complete → ∀ levels depth, item.height ≤ levels →
    Text strtod levels (item.render sprintf format depth) (item.reread sprintf strtod)

mutual

/-- The text of an item is a text of the grammar. -/
theorem text_render (hreadable : Readable sprintf strtod) : (item : Item N) → RendersAs sprintf strtod format item
  | .invalid => fun h _ _ _ => h.elim
  | .null => fun _ levels _ _ => Text.null levels
  | .bool false => fun _ levels _ _ => Text.falsity levels
  | .bool true => fun _ levels _ _ => Text.truth levels
  | .number d => fun _ levels _ _ => text_number hreadable levels d
  | .string _ s => fun _ levels _ _ => by
    have h : Text strtod levels (quoted (cText s)) (.str (cText (cText s))) :=
      Text.string levels _ _ (stringText_quoted (cText s))
    rw [cText_of_notMem (notMem_cText s)] at h
    exact h
  | .array .nil => fun _ levels depth hheight => by
    obtain ⟨levels, rfl⟩ : ∃ n, levels = n + 1 := ⟨levels - 1, by rw [Item.height] at hheight; omega⟩
    exact Text.emptyArray levels [] blank_nil
  | .array (.cons node string item next) => fun h levels depth hheight => by
    obtain ⟨levels, rfl⟩ : ∃ n, levels = n + 1 := ⟨levels - 1, by rw [Item.height] at hheight; omega⟩
    rw [Item.height] at hheight
    have helements := elements_render hreadable (.cons node string item next) h rfl levels (depth + 1) [] blank_nil
      (by omega)
    exact Text.array levels _ _ helements
  | .object .nil => fun _ levels depth hheight => by
    obtain ⟨levels, rfl⟩ : ∃ n, levels = n + 1 := ⟨levels - 1, by rw [Item.height] at hheight; omega⟩
    obtain ⟨b, hb, hopening⟩ := opening_eq format
    rw [Item.render, hopening, Nodes.renderMembers, List.nil_append, List.cons_append, ← List.append_assoc]
    exact Text.emptyObject levels _ (hb.append (Blank.ite format (blank_tabs depth)))
  | .object (.cons node string item next) => fun h levels depth hheight => by
    obtain ⟨levels, rfl⟩ : ∃ n, levels = n + 1 := ⟨levels - 1, by rw [Item.height] at hheight; omega⟩
    rw [Item.height] at hheight
    obtain ⟨b, hb, hopening⟩ := opening_eq format
    have hmembers := members_render hreadable (.cons node string item next) h rfl levels (depth + 1) b _ hb
      (Blank.ite format (blank_tabs depth)) (by omega)
    rw [Item.render, hopening, List.cons_append]
    exact Text.object levels _ _ hmembers

theorem elements_render (hreadable : Readable sprintf strtod) : (nodes : Nodes N) → nodes.Complete → nodes.isNil = false →
    ∀ levels depth b, Blank b → nodes.height ≤ levels →
      Elements strtod levels (b ++ (nodes.renderElements sprintf format depth ++ [0x5D]))
        (nodes.rereadValues sprintf strtod)
  | .nil, _, hnil => absurd (show true = false from hnil) (by decide)
  | .cons _ _ item .nil, h, _ => fun levels depth b hb hheight => by
    have htext := text_render hreadable item h.1 levels depth (by
      rw [Nodes.height] at hheight; omega)
    rw [Nodes.renderElements, Nodes.renderElements, show (Nodes.nil : Nodes N).isNil = true from rfl, if_pos rfl,
      List.append_nil, List.append_nil]
    exact Elements.last levels b _ [] _ hb htext blank_nil
  | .cons _ _ item (.cons node' string' item' next'), h, _ => fun levels depth b hb hheight => by
    rw [Nodes.height] at hheight
    have htext := text_render hreadable item h.1 levels depth (by omega)
    obtain ⟨b', hb', hcomma⟩ := arrayComma_eq format
    have hnext := elements_render hreadable (.cons node' string' item' next') h.2 rfl levels depth b' hb' (by omega)
    rw [Nodes.renderElements, show (Nodes.cons node' string' item' next').isNil = false from rfl,
      if_neg Bool.false_ne_true, hcomma]
    simp only [List.append_assoc, List.cons_append]
    exact Elements.more levels b _ [] _ _ _ hb htext blank_nil hnext

theorem members_render (hreadable : Readable sprintf strtod) : (nodes : Nodes N) → nodes.Complete → nodes.isNil = false →
    ∀ levels depth b b', Blank b → Blank b' → nodes.height ≤ levels →
      Members strtod levels (b ++ (nodes.renderMembers sprintf format depth ++ (b' ++ [0x7D])))
        (nodes.rereadMembers sprintf strtod)
  | .nil, _, hnil => absurd (show true = false from hnil) (by decide)
  | .cons _ string item .nil, h, _ => fun levels depth b b' hb hb' hheight => by
    have htext := text_render hreadable item h.1 levels depth (by
      rw [Nodes.height] at hheight; omega)
    obtain ⟨b₂, hb₂, hcolon⟩ := memberColon_eq format
    have hmember := Members.last levels (b ++ if format then tabs depth else []) (quoted (memberName string)) [] b₂
      (item.render sprintf format depth) ((if format then [0x0A] else []) ++ b') (memberName string) _
      (hb.append (Blank.ite format (blank_tabs depth))) (stringText_quoted _) blank_nil hb₂ htext
      ((blank_newline format).append hb')
    rw [cText_memberName] at hmember
    rw [Nodes.renderMembers, Nodes.renderMembers, hcolon]
    simp only [List.append_assoc, List.cons_append, List.nil_append] at hmember ⊢
    exact hmember
  | .cons _ string item (.cons node' string' item' next'), h, _ => fun levels depth b b' hb hb' hheight => by
    rw [Nodes.height] at hheight
    have htext := text_render hreadable item h.1 levels depth (by omega)
    have hnext := members_render hreadable (.cons node' string' item' next') h.2 rfl levels depth _ b'
      (blank_newline format) hb' (by omega)
    obtain ⟨b₂, hb₂, hcolon⟩ := memberColon_eq format
    have hmember := Members.more levels (b ++ if format then tabs depth else []) (quoted (memberName string)) [] b₂
      (item.render sprintf format depth) [] (memberName string) _ _ _
      (hb.append (Blank.ite format (blank_tabs depth))) (stringText_quoted _) blank_nil hb₂ htext blank_nil hnext
    rw [cText_memberName] at hmember
    rw [Nodes.renderMembers, hcolon]
    simp only [List.append_assoc, List.cons_append, List.nil_append, memberComma] at hmember ⊢
    exact hmember

end

theorem notMem_ite {a : List UInt8} (ha : 0 ∉ a) : 0 ∉ (if format then a else []) := by
  cases format with
  | false => exact List.not_mem_nil
  | true => exact ha

theorem notMem_tabs (count : Nat) : 0 ∉ tabs count := fun h => absurd (List.mem_replicate.mp h).2 (by decide)

mutual

/-- No zero byte stands in the text of an item. -/
theorem notMem_render : (item : Item N) → ∀ depth, 0 ∉ item.render sprintf format depth
  | .invalid => fun _ => List.not_mem_nil
  | .null => fun _ => (by decide : 0 ∉ nullText)
  | .bool false => fun _ => (by decide : 0 ∉ falseText)
  | .bool true => fun _ => (by decide : 0 ∉ trueText)
  | .number d => fun _ => (length_text_le d).2
  | .string _ s => fun _ => notMem_quoted (notMem_cText s)
  | .array child => fun depth => by
    have hchild := notMem_renderElements child (depth + 1)
    rw [Item.render, List.mem_cons, List.mem_append, not_or, not_or]
    exact ⟨by decide, hchild, by decide⟩
  | .object child => fun depth => by
    have hchild := notMem_renderMembers child (depth + 1)
    have hopening : 0 ∉ (if format then [0x7B, 0x0A] else [0x7B] : List UInt8) := by
      cases format <;> decide
    rw [Item.render, List.mem_append, List.mem_append, List.mem_append, not_or, not_or, not_or]
    exact ⟨hopening, hchild, notMem_ite (notMem_tabs depth), by decide⟩

theorem notMem_renderElements : (nodes : Nodes N) → ∀ depth, 0 ∉ nodes.renderElements sprintf format depth
  | .nil => fun _ => List.not_mem_nil
  | .cons _ _ item next => fun depth => by
    have hitem := notMem_render item depth
    have hnext := notMem_renderElements next depth
    have hcomma : 0 ∉ (if next.isNil then [] else arrayComma format) := by
      unfold arrayComma
      cases next.isNil <;> cases format <;> decide
    rw [Nodes.renderElements, List.mem_append, List.mem_append, not_or, not_or]
    exact ⟨hitem, hcomma, hnext⟩

theorem notMem_renderMembers : (nodes : Nodes N) → ∀ depth, 0 ∉ nodes.renderMembers sprintf format depth
  | .nil => fun _ => List.not_mem_nil
  | .cons _ string item next => fun depth => by
    have hitem := notMem_render item depth
    have hnext := notMem_renderMembers next depth
    have hname : 0 ∉ quoted (memberName string) := by
      refine notMem_quoted ?_
      rw [← cText_memberName]
      exact notMem_cText _
    have hcolon : 0 ∉ memberColon format := by
      unfold memberColon
      cases format <;> decide
    have hcomma : 0 ∉ memberComma format (!next.isNil) := by
      unfold memberComma
      cases next.isNil <;> cases format <;> decide
    rw [Nodes.renderMembers, List.mem_append, List.mem_append, List.mem_append, List.mem_append, List.mem_append,
      not_or, not_or, not_or, not_or, not_or]
    exact ⟨notMem_ite (notMem_tabs depth), hname, hcolon, hitem, hcomma, hnext⟩

end

/-- The whole of a text is read. -/
theorem readTextWith_text {text : List UInt8} {v : Value N} (h : Text strtod nestingLimit text v)
    (requireNullTerminated : Bool) :
    readTextWith strtod requireNullTerminated text = some (v, text.length) := by
  have hlead : Lead [] := ⟨[], [], rfl, Or.inl rfl, blank_nil⟩
  have hread : readText strtod ([] ++ (text ++ [])) = some (v, ([] ++ text).length) :=
    readText_complete hlead h fun _ => rfl
  rw [List.append_nil, List.nil_append] at hread
  rw [readTextWith, hread]
  dsimp only
  rw [List.drop_length]
  cases requireNullTerminated <;> rfl

/-- A value that is complete and not nested too deeply is printed, unless its text is too long, and the text is parsed as
the value, whatever stands behind it in the memory; a number comes back as what `strtod` makes of its text. -/
theorem print_parse (hreadable : Readable sprintf strtod) {alloc : Allocator} (hprint : ∀ call, alloc.granted call = true)
    {granted : Nat → Bool} (hparse : ∀ call, granted call = true) {item : Item N} (hcomplete : item.Complete)
    (hheight : item.height ≤ nestingLimit) (hlength : (item.render sprintf format 0).length + 2 ≤ intMax)
    (requireNullTerminated : Bool) (calls calls' : Nat) (heap heap' : Ledger) (behind : List UInt8) :
    ∃ address block s root item' s',
      print alloc sprintf format item ⟨none, 0, 0, 0, calls, heap⟩ = some (some (address, block), s) ∧
      parseWithOpts strtod granted requireNullTerminated (block ++ behind) calls' heap'
        = some ((some (root, item'), block.length - 1), s') ∧
      item'.value = item.reread sprintf strtod := by
  obtain ⟨r, s, hprinted, hr⟩ := print_spec alloc sprintf format item calls heap
  cases r with
  | none =>
    rcases hr.2 with ⟨call, -, -, hcall⟩ | hlong | hincomplete
    · rw [hprint] at hcall
      cases hcall
    · omega
    · exact absurd hcomplete hincomplete
  | some b =>
    obtain ⟨address, block⟩ := b
    obtain ⟨-, hblock⟩ := hr
    obtain ⟨r, s', hparsed, hread⟩ := parseWithOpts_read strtod hparse requireNullTerminated (block ++ behind) calls' heap'
    have htext : cText (block ++ behind) = item.render sprintf format 0 := by
      rw [hblock, List.append_assoc]
      exact cText_append_zero (notMem_render item 0) behind
    rw [htext, readTextWith_text (text_render hreadable item hcomplete nestingLimit 0 hheight)] at hread
    obtain ⟨found, position⟩ := r
    obtain ⟨⟨root, item'⟩, hfound, hboth⟩ := Option.map_eq_some_iff.mp hread
    dsimp only at hfound hboth
    subst hfound
    obtain ⟨hvalue, hposition⟩ := Prod.mk.inj hboth
    have hend : block.length - 1 = position := by
      rw [hposition, hblock, List.length_append, List.length_singleton, Nat.add_sub_cancel]
    refine ⟨address, block, s, root, item', s', hprinted, ?_, hvalue⟩
    rw [hend]
    exact hparsed

end

/-! ## numbers without sign, fraction and exponent -/

def isDigit (c : UInt8) : Bool := decide (0x30 ≤ c ∧ c ≤ 0x39)

def digitsValue (l : List UInt8) : Nat := l.foldl (fun n c => 10 * n + (c.toNat - 0x30)) 0

/-- `strtod` for such numbers -/
def decimal : Strtod Nat where
  run text := (digitsValue (text.takeWhile isDigit), (text.takeWhile isDigit).length)
  used_le text := (List.takeWhile_prefix _).length_le
  run_used text := by
    have htake : text.take (text.takeWhile isDigit).length = text.takeWhile isDigit :=
      (List.prefix_iff_eq_take.mp (List.takeWhile_prefix _)).symm
    have hself : (text.takeWhile isDigit).takeWhile isDigit = text.takeWhile isDigit :=
      List.takeWhile_eq_self_iff.mpr fun c hc => List.mem_takeWhile_imp hc
    rw [htake, hself]

/-- how such a number is written, if it is not longer than that -/
def decimalDigits (n : Nat) : List UInt8 := ((Nat.toDigits 10 n).map fun c => UInt8.ofNat c.toNat).take 15

theorem isDigit_decimalDigits {n : Nat} {c : UInt8} (h : c ∈ decimalDigits n) : isDigit c = true := by
  obtain ⟨d, hd, rfl⟩ := List.mem_map.mp (List.mem_of_mem_take h)
  have hdigit := Nat.isDigit_of_mem_toDigits (by decide) (by decide) hd
  unfold Char.isDigit at hdigit
  rw [Bool.and_eq_true, decide_eq_true_iff, decide_eq_true_iff, ge_iff_le, UInt32.le_iff_toNat_le,
    UInt32.le_iff_toNat_le] at hdigit
  have hlow : 48 ≤ d.toNat := hdigit.1
  have hhigh : d.toNat ≤ 57 := hdigit.2
  have hall : ∀ k : Fin 10, isDigit (UInt8.ofNat (48 + k)) = true := by decide
  have hk := hall ⟨d.toNat - 48, by omega⟩
  rwa [show 48 + (d.toNat - 48) = d.toNat by omega] at hk

/-- `sprintf` for such numbers -/
def decimalPrinter : Sprintf Nat where
  isSpecial _ := false
  short := decimalDigits
  long := decimalDigits
  recovered _ _ := true
  short_le n := Nat.le_trans (List.length_take_le _ _) (by decide)
  long_le n := Nat.le_trans (List.length_take_le _ _) (by decide)
  short_ne n h := absurd (isDigit_decimalDigits h) (by decide)
  long_ne n h := absurd (isDigit_decimalDigits h) (by decide)

theorem readable_decimal : Readable decimalPrinter decimal := by
  intro n _
  have hself : (decimalDigits n).takeWhile isDigit = decimalDigits n :=
    List.takeWhile_eq_self_iff.mpr fun c hc => isDigit_decimalDigits hc
  refine ⟨digitsValue (decimalDigits n), ?_, fun c hc => ?_, ?_, ?_⟩
  · show (decimalDigits n).head?.any isNumberStart = true
    have hpos : 0 < (decimalDigits n).length := by
      have := Nat.length_toDigits_pos (b := 10) (n := n)
      unfold decimalDigits
      rw [List.length_take, List.length_map]
      omega
    cases hdigits : decimalDigits n with
    | nil =>
      rw [hdigits] at hpos
      exact absurd hpos (Nat.lt_irrefl 0)
    | cons c l =>
      have hc := isDigit_decimalDigits (n := n) (c := c) (by rw [hdigits]; exact List.mem_cons_self)
      exact Bool.or_eq_true _ _ |>.mpr (Or.inr hc)
  · have hdigit := isDigit_decimalDigits hc
    unfold isNumberByte
    simp only [Bool.or_eq_true]
    exact Or.inl (Or.inl (Or.inl (Or.inl (Or.inl hdigit))))
  · exact Nat.le_trans (List.length_take_le _ _) (by decide)
  · show (digitsValue ((decimalDigits n).takeWhile isDigit), ((decimalDigits n).takeWhile isDigit).length) = _
    rw [hself]
    rfl

/-- the array `[7,true]`, printed and parsed -/
theorem print_parse_array : ∃ address block s root item' s',
    print ⟨fun _ => true, fun _ _ => 0⟩ decimalPrinter false
        (.array (.cons 1 none (.number 7) (.cons 2 none (.bool true) .nil))) ⟨none, 0, 0, 0, 0, ⟨0, 0⟩⟩
      = some (some (address, block), s) ∧
    parseWithOpts decimal (fun _ => true) true (block ++ []) 0 ⟨0, 0⟩
      = some ((some (root, item'), block.length - 1), s') ∧
    item'.value = .arr [.num 7, .bool true] :=
  print_parse readable_decimal (fun _ => rfl) (fun _ => rfl) (by exact ⟨trivial, trivial, trivial⟩) (by decide)
    (by decide) true 0 0 ⟨0, 0⟩ ⟨0, 0⟩ []

end Cjet.JsonText
