import Cjet.Ws.Offer
import Cjet.Ws.Upgrade
import Mathlib.Data.List.Perm.Subperm

/-!
# Which offers are accepted

* `Offer`             the grammar of an offer, up to white space around its tokens;
* `accepted_iff`      the offers that the server accepts;
* `Parameter.Lenient`   the pieces that one of the two takes for a parameter;
* `Gap`, `Tail`       where they differ: white space next to an equals sign, and text behind a name;
* `offer_accepted_iff`   the server follows the grammar exactly where neither counts.
-/

set_option linter.unusedVariables false

namespace Cjet
namespace Websocket

/-! ## what an offer is -/

/-- the value in a piece -/
def valueOf (piece : List UInt8) : Option (List UInt8) :=
  match piece.dropWhile (· ≠ equals) with
  | [] => none
  | _ :: value => some (strip value)

/-- The piece is the parameter, up to white space around its name and its value. -/
def Parameter.Written (p : Parameter) (piece : List UInt8) : Prop :=
  p.name.Allows p.bits ∧ strip (piece.takeWhile (· ≠ equals)) = p.name.text ∧ valueOf piece = p.bits.map decimal

/-- the name of the extension, and parameters that `reads` finds in what is between semicolons, none of them twice -/
def OfferOf (reads : Parameter → List UInt8 → Prop) (element : List UInt8) (ps : List Parameter) : Prop :=
  strip ((element.splitOn semicolon).headD []) = PERMESSAGE_DEFLATE ∧
    List.Forall₂ reads ps (element.splitOn semicolon).tail ∧ (ps.map Parameter.name).Nodup

/-- the element is an offer of the extension -/
def Offer (element : List UInt8) : Prop := ∃ ps, OfferOf Parameter.Written element ps

/-! ## where the server differs -/

/-- The piece is the parameter where text behind the name of one without a value does not count. -/
def Parameter.Lenient (p : Parameter) (piece : List UInt8) : Prop :=
  if p.name.window then p.Written piece else p.bits = none ∧ p.name.text <+: piece.dropWhile isspace

/-- white space next to the equals sign in front of a value -/
def Gap (p : Parameter) (piece : List UInt8) : Prop :=
  p.bits ≠ none ∧
    ((piece.takeWhile (· ≠ equals)).getLast?.any isspace = true ∨
      (piece.dropWhile (· ≠ equals)).tail.head?.any isspace = true)

/-- text behind the name of a parameter without a value -/
def Tail (p : Parameter) (piece : List UInt8) : Prop :=
  p.name.window = false ∧ ¬Blank ((piece.dropWhile isspace).drop p.name.text.length)

/-- white space in front of the name of the extension -/
def Lead (element : List UInt8) : Prop := element.head?.any isspace = true

/-- the differences do not count, or make up for each other -/
def Agreed (element : List UInt8) : Prop :=
  ∀ ps, OfferOf Parameter.Lenient element ps →
    ((¬Lead element ∧ List.Forall₂ (fun p piece => ¬Gap p piece) ps (element.splitOn semicolon).tail) ↔
      List.Forall₂ (fun p piece => ¬Tail p piece) ps (element.splitOn semicolon).tail)

/-! ## white space around a text -/

theorem dropWhile_solid {text : List UInt8} (h : solid text = text.length) (hne : text ≠ []) (rest : List UInt8) :
    (text ++ rest).dropWhile isspace = text ++ rest := by
  cases text with
  | nil => exact absurd rfl hne
  | cons c text =>
    have hc : isspace c = false := by
      have := List.countP_eq_length.mp h c List.mem_cons_self
      simpa using this
    exact List.dropWhile_cons_of_neg (by rw [hc]; decide)

theorem solid_reverse (text : List UInt8) : solid text.reverse = solid text := List.countP_reverse

theorem rdropWhile_solid {text : List UInt8} (h : solid text = text.length) (hne : text ≠ []) {blank : List UInt8}
    (hblank : Blank blank) : (text ++ blank).rdropWhile isspace = text := by
  have hreverse : solid text.reverse = text.reverse.length := by rw [solid_reverse, h, List.length_reverse]
  have hne : text.reverse ≠ [] := fun e => hne (List.reverse_eq_nil_iff.mp e)
  unfold List.rdropWhile
  have hdrop := dropWhile_solid hreverse hne []
  rw [List.append_nil] at hdrop
  rw [List.reverse_append, List.dropWhile_append_of_pos fun c hc => hblank c (List.mem_reverse.mp hc),
    hdrop, List.reverse_reverse]

theorem strip_iff {text : List UInt8} (h : solid text = text.length) (hne : text ≠ []) (padded : List UInt8) :
    strip padded = text ↔ ∃ before behind, Blank before ∧ Blank behind ∧ padded = before ++ text ++ behind := by
  constructor
  · intro hstrip
    refine ⟨padded.takeWhile isspace, (padded.dropWhile isspace).rtakeWhile isspace,
      fun c hc => List.mem_takeWhile_imp hc, fun c hc => List.mem_rtakeWhile_imp hc, ?_⟩
    rw [← hstrip, List.append_assoc]
    show padded = _ ++ ((padded.dropWhile isspace).rdropWhile isspace ++ _)
    rw [List.rdropWhile_append_rtakeWhile, List.takeWhile_append_dropWhile]
  · rintro ⟨before, behind, hbefore, hbehind, rfl⟩
    unfold strip
    rw [List.append_assoc, List.dropWhile_append_of_pos hbefore, dropWhile_solid h hne, rdropWhile_solid h hne hbehind]

/-! ## the pieces of an element -/

theorem splitOn_eq (c : UInt8) (l : List UInt8) :
    l.splitOn c = l.takeWhile (· ≠ c) :: match l.dropWhile (· ≠ c) with
      | [] => []
      | _ :: rest => rest.splitOn c := by
  by_cases h : c ∈ l
  · obtain ⟨before, rest, rfl, hno⟩ := List.eq_append_cons_of_mem h
    rw [List.splitOn_append_cons_self_of_not_mem hno, Stateful.Text.takeWhile_append_of_notMem hno,
      Stateful.Text.dropWhile_of_notMem hno]
  · have hnil : l.dropWhile (· ≠ c) = [] :=
      List.dropWhile_eq_nil_iff.mpr fun x hx => decide_eq_true fun e => h (e ▸ hx)
    rw [List.splitOn_eq_singleton h, Stateful.Text.takeWhile_of_notMem h, hnil]

theorem tail_splitOn (element : List UInt8) :
    (element.splitOn semicolon).tail = match element.dropWhile (· ≠ semicolon) with
      | [] => []
      | _ :: rest => rest.splitOn semicolon := by
  rw [splitOn_eq]
  rfl

theorem headD_splitOn (element : List UInt8) :
    (element.splitOn semicolon).headD [] = element.takeWhile (· ≠ semicolon) := by
  rw [splitOn_eq]
  rfl

theorem ParameterName.not_begins_nil (name : ParameterName) : ¬name.text <+: [] := by
  rintro ⟨r, hr⟩
  have hpos : name.text ≠ [] := by cases name <;> decide
  exact hpos (List.append_eq_nil_iff.mp hr).1

theorem ParameterName.not_begins_semicolon (name : ParameterName) (t : List UInt8) : ¬name.text <+: semicolon :: t := by
  rintro ⟨r, hr⟩
  cases name <;> exact absurd (List.head_eq_of_cons_eq hr) (by decide)

/-- The tokens are the pieces without the white space in front of them.  Where a piece is blank the tokenizer swallows the
semicolon behind it, but the token is no parameter either. -/
theorem tokens_pieces {R : Parameter → List UInt8 → Prop} (hR : ∀ p token, R p token → p.name.text <+: token)
    (text : List UInt8) (ps : List Parameter) :
    List.Forall₂ R ps (tokens text) ↔
      List.Forall₂ (fun p piece => R p (piece.dropWhile isspace)) ps (text.splitOn semicolon) := by
  induction text using tokens.induct generalizing ps with
  | case1 text h =>
    have hno : semicolon ∉ text := fun hmem => absurd (blank_of_dropWhile h semicolon hmem) (by decide)
    rw [tokens_blank h, List.splitOn_eq_singleton hno]
    cases ps with
    | nil => exact iff_of_false nofun nofun
    | cons p ps => rw [List.forall₂_cons, List.forall₂_cons, h, List.forall₂_nil_right_iff, List.forall₂_nil_right_iff]
  | case2 text c rest h ih =>
    have hblank : ∀ d ∈ text.takeWhile isspace, isspace d = true := fun d hd => List.mem_takeWhile_imp hd
    have hno : semicolon ∉ text.takeWhile isspace := fun hmem => absurd (hblank semicolon hmem) (by decide)
    have htext : text = text.takeWhile isspace ++ c :: rest := by rw [← h, List.takeWhile_append_dropWhile]
    have hc : isspace c = false := by
      have := List.head?_dropWhile_not isspace text
      rw [h] at this
      simpa using this
    rw [tokens_cons h]
    by_cases hsemi : c = semicolon
    · -- the piece is blank, and the token begins with the semicolon
      subst hsemi
      have hempty : (text.takeWhile isspace).dropWhile isspace = [] := List.dropWhile_eq_nil_iff.mpr hblank
      rw [htext, List.splitOn_append_cons_self_of_not_mem hno]
      cases ps with
      | nil => exact iff_of_false nofun nofun
      | cons p ps =>
        rw [List.forall₂_cons, List.forall₂_cons, hempty]
        exact iff_of_false (fun h => p.name.not_begins_semicolon _ (hR _ _ h.1))
          fun h => p.name.not_begins_nil (hR _ _ h.1)
    · have hother : ∀ d ∈ text.takeWhile isspace, decide (d ≠ semicolon) = true := fun d hd =>
        decide_eq_true fun e => hno (e ▸ hd)
      have htake : text.takeWhile (· ≠ semicolon) = text.takeWhile isspace ++ c :: rest.takeWhile (· ≠ semicolon) := by
        conv_lhs => rw [htext]
        rw [List.takeWhile_append_of_pos hother, List.takeWhile_cons_of_pos (by simpa using hsemi)]
      have hdrop : text.dropWhile (· ≠ semicolon) = rest.dropWhile (· ≠ semicolon) := by
        conv_lhs => rw [htext]
        rw [List.dropWhile_append_of_pos hother, List.dropWhile_cons_of_pos (by simpa using hsemi)]
      have hpiece : (text.takeWhile (· ≠ semicolon)).dropWhile isspace = c :: rest.takeWhile (· ≠ semicolon) := by
        rw [htake, List.dropWhile_append_of_pos hblank, List.dropWhile_cons_of_neg (by rw [hc]; decide)]
      rw [splitOn_eq, hdrop]
      unfold tokensAfter
      cases ps with
      | nil => exact iff_of_false nofun nofun
      | cons p ps =>
        rw [List.forall₂_cons, List.forall₂_cons, hpiece]
        refine and_congr_right fun _ => ?_
        cases hrest : rest.dropWhile (· ≠ semicolon) with
        | nil => exact List.forall₂_nil_right_iff.trans List.forall₂_nil_right_iff.symm
        | cons d rest' => exact ih d rest' hrest ps

theorem tokensAfter_pieces {R : Parameter → List UInt8 → Prop} (hR : ∀ p token, R p token → p.name.text <+: token)
    (element : List UInt8) (ps : List Parameter) :
    List.Forall₂ R ps (tokensAfter element) ↔
      List.Forall₂ (fun p piece => R p (piece.dropWhile isspace)) ps (element.splitOn semicolon).tail := by
  unfold tokensAfter
  rw [tail_splitOn]
  cases element.dropWhile (· ≠ semicolon) with
  | nil => exact List.forall₂_nil_right_iff.trans List.forall₂_nil_right_iff.symm
  | cons c rest => exact tokens_pieces hR rest ps

/-! ## what the server accepts -/

/-- there are four parameters -/
theorem length_le_four {ps : List Parameter} (h : (ps.map Parameter.name).Nodup) : ps.length ≤ 4 := by
  have hlen := (List.Nodup.subperm h fun name _ => name.mem_all).length_le
  rwa [List.length_map] at hlen

theorem apply_accepted (n : Negotiation) (p : Parameter) : (n.apply p).s.accepted = n.s.accepted := by
  obtain ⟨name, bits⟩ := p
  cases name with
  | clientMaxWindowBits => rfl
  | serverMaxWindowBits => rfl
  | clientNoContextTakeover => rfl
  | serverNoContextTakeover => rfl

theorem foldl_accepted (ps : List Parameter) (n : Negotiation) :
    (ps.foldl Negotiation.apply n).s.accepted = n.s.accepted := by
  induction ps generalizing n with
  | nil => rfl
  | cons p ps ih =>
    rw [List.foldl_cons, ih, apply_accepted]

/-- the element as the server reads it -/
theorem accepted_iff_reading {s : ExtensionCompression} (haccepted : s.accepted = false)
    (hlevel : s.compressionLevel ≠ 0)
    (element : List UInt8) {behind : List UInt8} (hbehind : Bounded behind) :
    (fillRequestedExtension s element behind).accepted = true ↔
      Named element ∧ (reading [] (tokensAfter element)).2 = true := by
  rw [fillRequestedExtension_eq haccepted hlevel element hbehind]
  dsimp only
  have hkept := foldl_accepted (reading [] (tokensAfter element)).1 (Negotiation.start s)
  rw [show (Negotiation.start s).s.accepted = false from haccepted] at hkept
  by_cases hnamed : Named element ∧ (tokensAfter element).length < 5
  · rw [if_pos hnamed]
    cases hcomplete : (reading [] (tokensAfter element)).2 with
    | true => exact iff_of_true rfl ⟨hnamed.1, rfl⟩
    | false => exact iff_of_false (fun h => absurd (hkept.symm.trans h) (by decide)) fun h => absurd h.2 (by decide)
  · rw [if_neg hnamed, haccepted]
    refine iff_of_false (by decide) ?_
    rintro ⟨hname, hcomplete⟩
    obtain ⟨hall, hnodup, -⟩ := (reading_iff [] (tokensAfter element) _).mp (Prod.ext rfl hcomplete)
    have hlen := length_le_four hnodup
    rw [hall.length_eq] at hlen
    exact hnamed ⟨hname, Nat.lt_succ_of_le hlen⟩

theorem name_solid : solid PERMESSAGE_DEFLATE = PERMESSAGE_DEFLATE.length := by decide

/-- white space is let pass behind the name only -/
theorem named_iff (element : List UInt8) :
    Named element ↔ strip ((element.splitOn semicolon).headD []) = PERMESSAGE_DEFLATE ∧ ¬Lead element := by
  rw [headD_splitOn, strip_iff name_solid (by decide)]
  unfold Named Lead
  have helement := List.takeWhile_append_dropWhile (p := (· ≠ semicolon)) (l := element)
  constructor
  · rintro ⟨hcount, htake⟩
    have hsplit := List.take_append_drop 18 (element.takeWhile (· ≠ semicolon))
    rw [htake] at hsplit
    have hblank : Blank ((element.takeWhile (· ≠ semicolon)).drop 18) := by
      rw [← hsplit, solid_append, name_solid] at hcount
      exact (solid_eq_zero_iff _).mp (Nat.add_left_cancel (n := 18) hcount)
    refine ⟨⟨[], _, blank_nil, hblank, hsplit.symm⟩, ?_⟩
    rw [← helement, ← hsplit]
    show ¬isspace 112 = true
    decide
  · rintro ⟨⟨before, after, hbefore, hafter, hhead⟩, hlead⟩
    obtain rfl : before = [] := by
      cases before with
      | nil => rfl
      | cons c before =>
        rw [← helement, hhead] at hlead
        exact absurd (hbefore c List.mem_cons_self) hlead
    rw [hhead, List.nil_append, solid_append, name_solid, (solid_eq_zero_iff after).mpr hafter]
    exact ⟨rfl, List.take_left' rfl⟩

theorem accepted_iff {s : ExtensionCompression} (haccepted : s.accepted = false) (hlevel : s.compressionLevel ≠ 0)
    (element : List UInt8) {behind : List UInt8} (hbehind : Bounded behind) :
    (fillRequestedExtension s element behind).accepted = true ↔
      ¬Lead element ∧ ∃ ps, OfferOf (fun p piece => p.Tight (piece.dropWhile isspace)) element ps := by
  have hpieces := tokensAfter_pieces (fun p token (h : p.Tight token) => h.begins) element
  rw [accepted_iff_reading haccepted hlevel element hbehind, named_iff]
  unfold OfferOf
  constructor
  · rintro ⟨⟨hname, hlead⟩, hcomplete⟩
    obtain ⟨hall, hnodup, -⟩ := (reading_iff [] (tokensAfter element) _).mp (Prod.ext rfl hcomplete)
    exact ⟨hlead, _, hname, (hpieces _).mp hall, hnodup⟩
  · rintro ⟨hlead, ps, hname, hall, hnodup⟩
    have hread := (reading_iff [] (tokensAfter element) ps).mpr ⟨(hpieces ps).mpr hall, hnodup, nofun⟩
    exact ⟨⟨hname, hlead⟩, congrArg Prod.snd hread⟩

/-! ## pieces -/

/-- a piece that the server takes for the parameter -/
theorem tight_piece_iff (p : Parameter) (piece : List UInt8) :
    p.Tight (piece.dropWhile isspace) ↔ p.name.Allows p.bits ∧
      ∃ before tail, Blank before ∧ piece = before ++ (p.text ++ tail) ∧ (p.name.window = true → Blank tail) := by
  have hsolid : solid p.name.text = p.name.text.length := p.name.solid_text
  have hne : p.name.text ≠ [] := by cases p.name <;> decide
  unfold Parameter.Tight
  refine and_congr_right fun _ => ?_
  constructor
  · rintro ⟨tail, htoken, htail⟩
    refine ⟨piece.takeWhile isspace, tail, fun c hc => List.mem_takeWhile_imp hc, ?_, htail⟩
    rw [← htoken, List.takeWhile_append_dropWhile]
  · rintro ⟨before, tail, hbefore, rfl, htail⟩
    refine ⟨tail, ?_, htail⟩
    unfold Parameter.text
    rw [List.dropWhile_append_of_pos hbefore, List.append_assoc, dropWhile_solid hsolid hne]

theorem equals_notMem (name : ParameterName) : equals ∉ name.text := by cases name <;> decide

theorem equals_notMem_blank {l : List UInt8} (h : Blank l) : equals ∉ l :=
    fun hmem => absurd (h equals hmem) (by decide)

theorem equals_notMem_padded (name : ParameterName) {before after : List UInt8} (hbefore : Blank before)
    (hafter : Blank after) : equals ∉ before ++ name.text ++ after := by
  rw [List.mem_append, List.mem_append]
  rintro ((h | h) | h)
  · exact equals_notMem_blank hbefore h
  · exact equals_notMem name h
  · exact equals_notMem_blank hafter h

/-- a piece that is a parameter without a value -/
theorem written_none_iff (name : ParameterName) (piece : List UInt8) :
    (Parameter.mk name none).Written piece ↔
      name.Allows none ∧ ∃ before after, Blank before ∧ Blank after ∧ piece = before ++ name.text ++ after := by
  have hne : name.text ≠ [] := by cases name <;> decide
  unfold Parameter.Written valueOf
  refine and_congr_right fun _ => ?_
  rw [strip_iff name.solid_text hne]
  constructor
  · rintro ⟨hname, hvalue⟩
    cases hdrop : piece.dropWhile (· ≠ equals) with
    | nil =>
      have hpiece := List.takeWhile_append_dropWhile (p := (· ≠ equals)) (l := piece)
      rw [hdrop, List.append_nil] at hpiece
      rwa [hpiece] at hname
    | cons c rest =>
      rw [hdrop] at hvalue
      cases hvalue
  · rintro ⟨before, after, hbefore, hafter, rfl⟩
    have hno := equals_notMem_padded name hbefore hafter
    have hdrop : (before ++ name.text ++ after).dropWhile (· ≠ equals) = [] :=
      List.dropWhile_eq_nil_iff.mpr fun x hx => decide_eq_true fun e => hno (e ▸ hx)
    rw [Stateful.Text.takeWhile_of_notMem hno, hdrop]
    exact ⟨⟨before, after, hbefore, hafter, rfl⟩, rfl⟩

theorem decimal_solid : ∀ bits < 16, solid (decimal bits) = (decimal bits).length := by decide

theorem decimal_ne_nil : ∀ bits < 16, decimal bits ≠ [] := by decide

theorem decimal_injective : ∀ a < 16, ∀ b < 16, decimal a = decimal b → a = b := by decide

theorem Parameter.allows_lt {name : ParameterName} {bits : Nat} (h : name.Allows (some bits)) : bits < 16 := by
  cases name with
  | clientMaxWindowBits => exact Nat.lt_succ_of_le h.2
  | serverMaxWindowBits => exact Nat.lt_succ_of_le h.2
  | clientNoContextTakeover => cases h
  | serverNoContextTakeover => cases h

/-- what is in front of the equals sign of a parameter, and what is behind it -/
theorem split_equals {left : List UInt8} (hleft : equals ∉ left) (right : List UInt8) :
    (left ++ equals :: right).takeWhile (· ≠ equals) = left ∧
      (left ++ equals :: right).dropWhile (· ≠ equals) = equals :: right :=
  ⟨Stateful.Text.takeWhile_append_of_notMem hleft right, Stateful.Text.dropWhile_of_notMem hleft right⟩

/-- a piece that is a parameter with a value -/
theorem written_some_iff (name : ParameterName) (bits : Nat) (piece : List UInt8) :
    (Parameter.mk name (some bits)).Written piece ↔ name.Allows (some bits) ∧
      ∃ before after front behind, Blank before ∧ Blank after ∧ Blank front ∧ Blank behind ∧
        piece = before ++ name.text ++ after ++ equals :: (front ++ decimal bits ++ behind) := by
  have hne : name.text ≠ [] := by cases name <;> decide
  unfold Parameter.Written valueOf
  refine and_congr_right fun hallows => ?_
  have hlt := Parameter.allows_lt hallows
  rw [strip_iff name.solid_text hne]
  constructor
  · rintro ⟨⟨before, after, hbefore, hafter, htake⟩, hvalue⟩
    cases hdrop : piece.dropWhile (· ≠ equals) with
    | nil =>
      rw [hdrop] at hvalue
      cases hvalue
    | cons c rest =>
      obtain rfl : c = equals := by
        have := List.head?_dropWhile_not (· ≠ equals) piece
        rw [hdrop] at this
        simpa using this
      rw [hdrop] at hvalue
      obtain ⟨front, behind, hfront, hbehind, hrest⟩ :=
        (strip_iff (decimal_solid bits hlt) (decimal_ne_nil bits hlt) rest).mp (Option.some.inj hvalue)
      refine ⟨before, after, front, behind, hbefore, hafter, hfront, hbehind, ?_⟩
      rw [← htake, ← hrest, ← hdrop, List.takeWhile_append_dropWhile]
  · rintro ⟨before, after, front, behind, hbefore, hafter, hfront, hbehind, rfl⟩
    have hno := equals_notMem_padded name hbefore hafter
    obtain ⟨htake, hdrop⟩ := split_equals hno (front ++ decimal bits ++ behind)
    rw [htake, hdrop]
    exact ⟨⟨before, after, hbefore, hafter, rfl⟩, congrArg some
      ((strip_iff (decimal_solid bits hlt) (decimal_ne_nil bits hlt) _).mpr ⟨front, behind, hfront, hbehind, rfl⟩)⟩

/-- the name of a piece that is a parameter is the first thing in it -/
theorem Parameter.Lenient.begins {p : Parameter} {piece : List UInt8} (h : p.Lenient piece) :
    p.name.text <+: piece.dropWhile isspace := by
  obtain ⟨name, bits⟩ := p
  have hne : name.text ≠ [] := by cases name <;> decide
  unfold Parameter.Lenient at h
  split at h
  · cases bits with
    | none =>
      obtain ⟨-, before, after, hbefore, -, rfl⟩ := (written_none_iff name piece).mp h
      rw [List.append_assoc, List.dropWhile_append_of_pos hbefore, dropWhile_solid name.solid_text hne]
      exact List.prefix_append _ _
    | some bits =>
      obtain ⟨-, before, after, front, behind, hbefore, -, -, -, rfl⟩ := (written_some_iff name bits piece).mp h
      rw [List.append_assoc, List.append_assoc, List.dropWhile_append_of_pos hbefore,
        dropWhile_solid name.solid_text hne]
      exact List.prefix_append _ _
  · exact h.2

/-- a piece is one parameter only -/
theorem Parameter.Lenient.unique {p q : Parameter} {piece : List UInt8} (hp : p.Lenient piece) (hq : q.Lenient piece) :
    p = q := by
  have hname := ParameterName.eq_of_both hp.begins hq.begins
  obtain ⟨name, a⟩ := p
  obtain ⟨_, b⟩ := q
  obtain rfl : name = _ := hname
  unfold Parameter.Lenient at hp hq
  cases hwindow : name.window with
  | false =>
    rw [show (Parameter.mk name a).name.window = false from hwindow, if_neg (by decide)] at hp
    rw [show (Parameter.mk name b).name.window = false from hwindow, if_neg (by decide)] at hq
    rw [show a = none from hp.1, show b = none from hq.1]
  | true =>
    rw [show (Parameter.mk name a).name.window = true from hwindow, if_pos rfl] at hp
    rw [show (Parameter.mk name b).name.window = true from hwindow, if_pos rfl] at hq
    have hvalue : a.map decimal = b.map decimal := hp.2.2.symm.trans hq.2.2
    cases a with
    | none =>
      cases b with
      | none => rfl
      | some b => cases hvalue
    | some a =>
      cases b with
      | none => cases hvalue
      | some b =>
        rw [decimal_injective a (Parameter.allows_lt hp.1) b (Parameter.allows_lt hq.1) (Option.some.inj hvalue)]

theorem getLast?_append_any (left : List UInt8) {blank : List UInt8} (hblank : Blank blank) :
    (left ++ blank).getLast?.any isspace = true ↔ blank ≠ [] ∨ left.getLast?.any isspace = true := by
  cases hlast : blank.getLast? with
  | none =>
    obtain rfl := List.getLast?_eq_none_iff.mp hlast
    rw [List.append_nil]
    exact (or_iff_right (by decide)).symm
  | some c =>
    have hmem := List.mem_of_getLast? hlast
    rw [List.getLast?_append, hlast]
    exact iff_of_true (hblank c hmem) (Or.inl fun e => by rw [e] at hmem; cases hmem)

theorem head?_append_any {blank : List UInt8} (hblank : Blank blank) (right : List UInt8) :
    (blank ++ right).head?.any isspace = true ↔ blank ≠ [] ∨ right.head?.any isspace = true := by
  cases blank with
  | nil => exact (or_iff_right (by decide)).symm
  | cons c blank => exact iff_of_true (hblank c List.mem_cons_self) (Or.inl (List.cons_ne_nil _ _))

theorem name_last (before : List UInt8) (name : ParameterName) :
    (before ++ name.text).getLast?.any isspace = false := by
  rw [List.getLast?_append]
  cases name with
  | clientMaxWindowBits => rfl
  | serverMaxWindowBits => rfl
  | clientNoContextTakeover => rfl
  | serverNoContextTakeover => rfl

theorem decimal_head : ∀ bits < 16, ∀ behind : List UInt8, (decimal bits ++ behind).head?.any isspace = false := by
  intro bits hlt behind
  have hne := decimal_ne_nil bits hlt
  have hhead : ∀ bits < 16, (decimal bits).head?.any isspace = false := by decide
  rw [List.head?_append_of_ne_nil _ hne]
  exact hhead bits hlt

/-- the white space next to the equals sign of a piece that is a parameter -/
theorem gap_iff {name : ParameterName} {bits : Nat} (hlt : bits < 16) {before after front behind : List UInt8}
    (hbefore : Blank before) (hafter : Blank after) (hfront : Blank front) :
    Gap ⟨name, some bits⟩ (before ++ name.text ++ after ++ equals :: (front ++ decimal bits ++ behind)) ↔
      after ≠ [] ∨ front ≠ [] := by
  have hno := equals_notMem_padded name hbefore hafter
  obtain ⟨htake, hdrop⟩ := split_equals hno (front ++ decimal bits ++ behind)
  unfold Gap
  rw [htake, hdrop, List.tail_cons, getLast?_append_any _ hafter, name_last, List.append_assoc, head?_append_any hfront,
    decimal_head bits hlt]
  constructor
  · rintro ⟨-, (h | h) | (h | h)⟩
    · exact Or.inl h
    · cases h
    · exact Or.inr h
    · cases h
  · rintro (h | h)
    · exact ⟨nofun, Or.inl (Or.inl h)⟩
    · exact ⟨nofun, Or.inr (Or.inl h)⟩

theorem lenient_window {p : Parameter} (hwindow : p.name.window = true) (piece : List UInt8) :
    p.Lenient piece ↔ p.Written piece := by
  unfold Parameter.Lenient
  rw [if_pos hwindow]

theorem lenient_takeover {p : Parameter} (hwindow : p.name.window = false) (piece : List UInt8) :
    p.Lenient piece ↔ p.bits = none ∧ p.name.text <+: piece.dropWhile isspace := by
  unfold Parameter.Lenient
  rw [if_neg (by rw [hwindow]; decide)]

theorem allows_takeover {name : ParameterName} (hwindow : name.window = false) (bits : Option Nat) :
    name.Allows bits ↔ bits = none := by
  cases name with
  | clientMaxWindowBits => cases hwindow
  | serverMaxWindowBits => cases hwindow
  | clientNoContextTakeover => exact Iff.rfl
  | serverNoContextTakeover => exact Iff.rfl

theorem not_gap_of_none (name : ParameterName) (piece : List UInt8) : ¬Gap ⟨name, none⟩ piece := fun h => h.1 rfl

/-- a piece that the server takes for the parameter has no white space next to the equals sign -/
theorem Parameter.Tight.not_gap {p : Parameter} {piece : List UInt8} (h : p.Tight (piece.dropWhile isspace)) :
    ¬Gap p piece := by
  obtain ⟨name, bits⟩ := p
  obtain ⟨hallows, before, tail, hbefore, rfl, -⟩ := (tight_piece_iff _ piece).mp h
  cases bits with
  | none => exact not_gap_of_none name _
  | some bits =>
    have hpiece : before ++ ((Parameter.mk name (some bits)).text ++ tail)
        = before ++ name.text ++ [] ++ equals :: ([] ++ decimal bits ++ tail) := by
      unfold Parameter.text
      rw [List.append_nil, List.nil_append, List.append_assoc, List.append_assoc]
      rfl
    rw [hpiece, gap_iff (Parameter.allows_lt hallows) hbefore blank_nil blank_nil]
    rintro (h | h)
    · exact h rfl
    · exact h rfl

/-- the server takes the piece for the parameter if there is no white space next to an equals sign -/
theorem Parameter.Lenient.tight_iff {p : Parameter} {piece : List UInt8} (h : p.Lenient piece) :
    p.Tight (piece.dropWhile isspace) ↔ ¬Gap p piece := by
  refine ⟨Parameter.Tight.not_gap, fun hgap => ?_⟩
  obtain ⟨name, bits⟩ := p
  cases hwindow : name.window with
  | true =>
    rw [lenient_window hwindow] at h
    rw [tight_piece_iff]
    cases bits with
    | none =>
      obtain ⟨hallows, before, after, hbefore, hafter, rfl⟩ := (written_none_iff name piece).mp h
      refine ⟨hallows, before, after, hbefore, ?_, fun _ => hafter⟩
      unfold Parameter.text
      rw [List.append_nil, List.append_assoc]
    | some bits =>
      obtain ⟨hallows, before, after, front, behind, hbefore, hafter, hfront, hbehind, rfl⟩ :=
        (written_some_iff name bits piece).mp h
      rw [gap_iff (Parameter.allows_lt hallows) hbefore hafter hfront, not_or, not_not, not_not] at hgap
      obtain ⟨rfl, rfl⟩ := hgap
      refine ⟨hallows, before, behind, hbefore, ?_, fun _ => hbehind⟩
      unfold Parameter.text
      rw [List.append_nil, List.nil_append, List.append_assoc, List.append_assoc]
      rfl
  | false =>
    obtain ⟨hnone, tail, htail⟩ := (lenient_takeover hwindow piece).mp h
    obtain rfl : bits = none := hnone
    refine ⟨(allows_takeover hwindow none).mpr rfl, tail, ?_, fun h => absurd (hwindow.symm.trans h) (by decide)⟩
    unfold Parameter.text
    rw [List.append_nil, htail]

/-- the piece is the parameter if nothing is behind its name -/
theorem Parameter.Lenient.written_iff {p : Parameter} {piece : List UInt8} (h : p.Lenient piece) :
    p.Written piece ↔ ¬Tail p piece := by
  obtain ⟨name, bits⟩ := p
  unfold Tail
  cases hwindow : name.window with
  | true => exact iff_of_true ((lenient_window hwindow piece).mp h) fun h => Bool.noConfusion h.1
  | false =>
    obtain ⟨hnone, tail, htail⟩ := (lenient_takeover hwindow piece).mp h
    obtain rfl : bits = none := hnone
    have htail : name.text ++ tail = piece.dropWhile isspace := htail
    have hne : name.text ≠ [] := by cases name <;> decide
    show _ ↔ ¬(_ ∧ ¬Blank ((piece.dropWhile isspace).drop name.text.length))
    rw [written_none_iff, ← htail, List.drop_left, not_and, not_not]
    constructor
    · rintro ⟨-, before, after, hbefore, hafter, rfl⟩ -
      rw [List.append_assoc, List.dropWhile_append_of_pos hbefore, dropWhile_solid name.solid_text hne] at htail
      rw [List.append_cancel_left htail]
      exact hafter
    · intro hblank
      refine ⟨(allows_takeover hwindow none).mpr rfl, piece.takeWhile isspace, tail,
        fun c hc => List.mem_takeWhile_imp hc,
        hblank rfl, ?_⟩
      rw [List.append_assoc, htail, List.takeWhile_append_dropWhile]

theorem Parameter.Written.lenient {p : Parameter} {piece : List UInt8} (h : p.Written piece) : p.Lenient piece := by
  obtain ⟨name, bits⟩ := p
  cases hwindow : name.window with
  | true => exact (lenient_window hwindow piece).mpr h
  | false =>
    obtain rfl : bits = none := (allows_takeover hwindow bits).mp h.1
    have hne : name.text ≠ [] := by cases name <;> decide
    obtain ⟨-, before, after, hbefore, -, rfl⟩ := (written_none_iff name piece).mp h
    refine (lenient_takeover hwindow _).mpr ⟨rfl, ?_⟩
    rw [List.append_assoc, List.dropWhile_append_of_pos hbefore, dropWhile_solid name.solid_text hne]
    exact List.prefix_append _ _

theorem Parameter.Tight.lenient {p : Parameter} {piece : List UInt8} (h : p.Tight (piece.dropWhile isspace)) :
    p.Lenient piece := by
  obtain ⟨name, bits⟩ := p
  cases hwindow : name.window with
  | true =>
    obtain ⟨hallows, before, tail, hbefore, rfl, htail⟩ := (tight_piece_iff _ piece).mp h
    rw [lenient_window hwindow]
    unfold Parameter.text
    cases bits with
    | none =>
      refine (written_none_iff name _).mpr ⟨hallows, before, tail, hbefore, htail hwindow, ?_⟩
      rw [List.append_nil, List.append_assoc]
    | some bits =>
      refine (written_some_iff name bits _).mpr
        ⟨hallows, before, [], [], tail, hbefore, blank_nil, blank_nil, htail hwindow, ?_⟩
      rw [List.append_nil, List.nil_append, List.append_assoc, List.append_assoc]
      rfl
  | false => exact (lenient_takeover hwindow piece).mpr ⟨(allows_takeover hwindow bits).mp h.1, h.begins⟩

/-! ## the grammar and the server -/

/-- the parameters of an element, read leniently, are determined -/
theorem OfferOf.unique {element : List UInt8} {ps qs : List Parameter} (hp : OfferOf Parameter.Lenient element ps)
    (hq : OfferOf Parameter.Lenient element qs) : ps = qs := by
  have hall := hp.2.1
  have hall' := hq.2.1
  generalize (element.splitOn semicolon).tail = pieces at hall hall'
  clear hp hq
  induction hall generalizing qs with
  | nil =>
    cases hall'
    rfl
  | cons h _ ih =>
    cases hall' with
    | cons h' hrest => rw [h.unique h', ih hrest]

theorem OfferOf.imp {R S : Parameter → List UInt8 → Prop} (h : ∀ p piece, R p piece → S p piece) {element : List UInt8}
    {ps : List Parameter} (hof : OfferOf R element ps) : OfferOf S element ps := ⟨hof.1, hof.2.1.imp h, hof.2.2⟩

/-- where the parameters are known, a stricter reading depends on what it asks of each of them -/
theorem exists_offer_iff {R D : Parameter → List UInt8 → Prop} (hR : ∀ p piece, R p piece → p.Lenient piece)
    (hD : ∀ p piece, p.Lenient piece → (R p piece ↔ ¬D p piece)) {element : List UInt8} {ps : List Parameter}
    (h : OfferOf Parameter.Lenient element ps) :
    (∃ qs, OfferOf R element qs) ↔ List.Forall₂ (fun p piece => ¬D p piece) ps (element.splitOn semicolon).tail := by
  constructor
  · rintro ⟨qs, hqs⟩
    obtain rfl := (hqs.imp hR).unique h
    exact hqs.2.1.imp fun p piece hp => (hD p piece (hR p piece hp)).mp hp
  · intro hall
    refine ⟨ps, h.1, ?_, h.2.2⟩
    have hlenient := h.2.1
    generalize (element.splitOn semicolon).tail = pieces at hall hlenient
    clear h
    induction hall with
    | nil => exact .nil
    | cons hd _ ih =>
      cases hlenient with
      | cons hp hrest => exact .cons ((hD _ _ hp).mpr hd) (ih hrest)

/-- The server follows the grammar for an element exactly if the differences do not count in it, or make up for each
other. -/
theorem offer_accepted_iff (s : ExtensionCompression) (haccepted : s.accepted = false) (hlevel : s.compressionLevel ≠ 0)
    (element behind : List UInt8) (hbehind : Bounded behind) :
    ((fillRequestedExtension s element behind).accepted = true ↔ Offer element) ↔ Agreed element := by
  rw [accepted_iff haccepted hlevel element hbehind]
  unfold Offer Agreed
  by_cases hlenient : ∃ ps, OfferOf Parameter.Lenient element ps
  · obtain ⟨ps, hps⟩ := hlenient
    have htight := exists_offer_iff (fun p piece => Parameter.Tight.lenient) (fun p piece h => h.tight_iff) hps
    have hwritten := exists_offer_iff (fun p piece => Parameter.Written.lenient) (fun p piece h => h.written_iff) hps
    rw [htight, hwritten]
    constructor
    · intro h qs hqs
      obtain rfl := hps.unique hqs
      exact h
    · exact fun h => h ps hps
  · refine iff_of_true (iff_of_false ?_ ?_) fun ps hps => absurd ⟨ps, hps⟩ hlenient
    · rintro ⟨-, ps, hps⟩
      exact hlenient ⟨ps, hps.imp fun p piece => Parameter.Tight.lenient⟩
    · rintro ⟨ps, hps⟩
      exact hlenient ⟨ps, hps.imp fun p piece => Parameter.Written.lenient⟩

theorem offer_accepted_iff_window :
    ((fillRequestedExtension ⟨3, 15, 15, false, false, none, false⟩
      (ascii "permessage-deflate; client_max_window_bits=10") [comma]).accepted = true ↔
        Offer (ascii "permessage-deflate; client_max_window_bits=10")) ↔
      Agreed (ascii "permessage-deflate; client_max_window_bits=10") :=
  offer_accepted_iff ⟨3, 15, 15, false, false, none, false⟩ rfl (by decide) _ [comma] ⟨by decide, by decide⟩

/-- A name is compared as far as it goes, and what follows it is let pass. -/
theorem longer_name_accepted :
    ¬((fillRequestedExtension ⟨3, 15, 15, false, false, none, false⟩
      (ascii "permessage-deflate; client_no_context_takeoverxyz") [comma]).accepted = true ↔
        Offer (ascii "permessage-deflate; client_no_context_takeoverxyz")) := by
  have haccepted : (fillRequestedExtension ⟨3, 15, 15, false, false, none, false⟩
      (ascii "permessage-deflate; client_no_context_takeoverxyz") [comma]).accepted = true := by decide +kernel
  have hpieces : ((ascii "permessage-deflate; client_no_context_takeoverxyz").splitOn semicolon).tail
      = [ascii " client_no_context_takeoverxyz"] := by decide +kernel
  have hother : ∀ name ∈ ParameterName.all,
      strip ((ascii " client_no_context_takeoverxyz").takeWhile (· ≠ equals)) ≠ name.text := by decide +kernel
  intro hiff
  obtain ⟨ps, -, hall, -⟩ := hiff.mp haccepted
  rw [hpieces] at hall
  cases hall with
  | @cons p _ _ _ hp _ => exact hother p.name p.name.mem_all hp.2.1

end Websocket
end Cjet
