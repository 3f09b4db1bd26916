import Cjet.Ws.Fallback
import Cjet.Ws.OfferGrammar
import Mathlib.Algebra.Order.BigOperators.Group.List
import Mathlib.Algebra.Order.Ring.Nat

/-!
# The response to an offer

* `classify_within`         a value that is counted whole is read from the parameter itself;
* `Ranged`                  the limits that a compression may have, kept by every element;
* `ExtensionResponse`       a response that fits and agrees with the settings;
* `response_sound`          the response to the element that is accepted, after any others.
-/

set_option linter.unusedVariables false

namespace Cjet
namespace Websocket

/-- the bytes that are allocated for a response -/
def RESPONSE_MAX_LENGTH : Nat := 128 + 1

/-- the parameter as the settings have it -/
def ExtensionCompression.announced (s : ExtensionCompression) (name : ParameterName) : Parameter :=
  ⟨name, if name.window then some (s.maxBits name) else none⟩

/-- The name of the extension and the parameters, none of them twice, as the settings have them; with a zero behind them
they are not longer than what is allocated. -/
structure ExtensionResponse (s : ExtensionCompression) (response : List UInt8) (ps : List Parameter) : Prop where
  text : response = PERMESSAGE_DEFLATE ++ ps.flatMap fun p => ascii "; " ++ p.text
  fits : response.length + 1 ≤ RESPONSE_MAX_LENGTH
  once : (ps.map Parameter.name).Nodup
  client : ∀ p ∈ ps, p.name = .clientMaxWindowBits →
    p.bits = some s.clientMaxWindowBits ∧ 8 ≤ s.clientMaxWindowBits ∧ s.clientMaxWindowBits ≤ 15
  server : ∀ p ∈ ps, p.name = .serverMaxWindowBits →
    p.bits = some s.serverMaxWindowBits ∧ 9 ≤ s.serverMaxWindowBits ∧ s.serverMaxWindowBits ≤ 15
  takeover : ∀ p ∈ ps, p.name.window = false → p.bits = none ∧ s.takeover p.name = true

/-- a piece of the element is the parameter, up to white space -/
def Proposes (element : List UInt8) (p : Parameter) : Prop :=
  ∃ piece ∈ (element.splitOn semicolon).tail, p.Written piece

/-! ## what is read from the memory -/

theorem windowBits_allows {least : UInt32} {oneDigit : Bool} {value : List UInt8} {bits : Nat}
    (hleast : least.toNat < 10)
    (h : windowBits least oneDigit value = some bits) : least.toNat ≤ bits ∧ bits ≤ 15 := by
  cases oneDigit with
  | true =>
    obtain ⟨hlo, hhi, -⟩ := (windowBits_one least value bits).mp h
    omega
  | false =>
    obtain ⟨hlo, hhi, -⟩ := (windowBits_two least value bits).mp h
    omega

/-- whatever is behind a parameter, its name is compared whole and its value is one that it may have -/
theorem classify_some {parameter : List UInt8} {parameterLength : Nat} {p : Parameter}
    (h : classify parameter parameterLength = some p) :
    p.name.text.length ≤ parameterLength ∧ parameter.take p.name.text.length = p.name.text ∧ p.name.Allows p.bits := by
  unfold classify at h
  by_cases h22 : parameterLength < 22
  · rw [if_pos h22] at h
    cases h
  rw [if_neg h22] at h
  by_cases hclient : parameter.take 22 = CLIENT_MAX_WINDOW_BITS
  · rw [if_pos hclient] at h
    split at h
    · cases h
    · split at h
      · obtain ⟨bits, hbits, rfl⟩ := Option.map_eq_some_iff.mp h
        exact ⟨Nat.not_lt.mp h22, hclient, windowBits_allows (by decide) hbits⟩
      · obtain rfl := Option.some.inj h
        exact ⟨Nat.not_lt.mp h22, hclient, trivial⟩
  rw [if_neg hclient] at h
  by_cases hserver : parameter.take 22 = SERVER_MAX_WINDOW_BITS
  · rw [if_pos hserver] at h
    split at h
    · cases h
    · obtain ⟨bits, hbits, rfl⟩ := Option.map_eq_some_iff.mp h
      exact ⟨Nat.not_lt.mp h22, hserver, windowBits_allows (by decide) hbits⟩
  rw [if_neg hserver] at h
  by_cases h26 : parameterLength < 26
  · rw [if_pos h26] at h
    cases h
  rw [if_neg h26] at h
  by_cases hctake : parameter.take 26 = CLIENT_NO_CONTEXT_TAKEOVER
  · rw [if_pos hctake] at h
    obtain rfl := Option.some.inj h
    exact ⟨Nat.not_lt.mp h26, hctake, rfl⟩
  rw [if_neg hctake] at h
  by_cases hstake : parameter.take 26 = SERVER_NO_CONTEXT_TAKEOVER
  · rw [if_pos hstake] at h
    obtain rfl := Option.some.inj h
    exact ⟨Nat.not_lt.mp h26, hstake, rfl⟩
  · rw [if_neg hstake] at h
    cases h

theorem windowBits_append {least : UInt32} {oneDigit : Bool} {value : List UInt8} (rest : List UInt8)
    (h : 2 ≤ value.length) (htwo : oneDigit = false → 3 ≤ value.length) :
    windowBits least oneDigit (value ++ rest) = windowBits least oneDigit value := by
  obtain ⟨a, value, rfl⟩ := List.exists_cons_of_ne_nil (List.ne_nil_of_length_pos (by omega : 0 < value.length))
  rw [List.length_cons] at h htwo
  obtain ⟨b, value, rfl⟩ := List.exists_cons_of_ne_nil (List.ne_nil_of_length_pos (by omega : 0 < value.length))
  cases oneDigit with
  | true => rfl
  | false =>
    have hthree := htwo rfl
    rw [List.length_cons] at hthree
    obtain ⟨c, value, rfl⟩ := List.exists_cons_of_ne_nil (List.ne_nil_of_length_pos (by omega : 0 < value.length))
    rfl

/-- Where the count reaches behind an equals sign and a digit, nothing is read behind the parameter. -/
theorem classify_within {t : List UInt8} (h : 24 ≤ solid t) (rest : List UInt8) :
    classify (t ++ rest) (solid t) = classify t (solid t) := by
  have hlen := solid_le_length t
  have htake22 : (t ++ rest).take 22 = t.take 22 := List.take_append_of_le_length (by omega)
  have hdrop : (t ++ rest).drop 22 = t.drop 22 ++ rest := List.drop_append_of_le_length (by omega)
  have hrest : (t.drop 22).length = t.length - 22 := List.length_drop
  have hvalue : ∀ least, solid t ≤ 22 + 3 → windowBits least (solid t = 22 + 2) (t.drop 22 ++ rest)
      = windowBits least (solid t = 22 + 2) (t.drop 22) := fun least hle =>
    windowBits_append rest (by omega) fun hone => by
      have hne := of_decide_eq_false hone
      omega
  unfold classify
  rw [htake22, hdrop]
  by_cases hlong : 22 + 3 < solid t
  · have htake26 : (t ++ rest).take 26 = t.take 26 := List.take_append_of_le_length (by omega)
    simp only [if_pos hlong, htake26]
  · simp only [hvalue 8 (by omega), hvalue 9 (by omega), if_pos (by omega : solid t < 26)]

/-- what the comparisons have found in a token: its name is there, and its value where the token is long enough for one -/
def ReadAs (p : Parameter) (token : List UInt8) : Prop := p.name.text <+: token ∧ (24 ≤ solid token → p.Tight token)

theorem Entry.readAs {behind token : List UInt8} {e : List UInt8 × Nat} (h : Entry behind token e) {p : Parameter}
    (hp : classify e.1 e.2 = some p) : ReadAs p token := by
  obtain ⟨hlen, htake, -⟩ := classify_some hp
  cases h with
  | token c t rest hrest hc hsemi =>
    refine ⟨(begins_iff p.name (c :: t) rest).mpr ⟨hlen, htake⟩, fun hlong => ?_⟩
    rw [classify_within hlong rest] at hp
    exact (readToken_iff _ p).mp hp
  | none parameter =>
    have hpos : ¬p.name.text.length ≤ 1 := by cases p.name <;> decide
    exact absurd hlen hpos

/-! ## the parameters of an element -/

theorem found_allows (offered : List ParameterName) (entries : List (List UInt8 × Nat)) :
    (∀ p ∈ (found offered entries).1, p.name.Allows p.bits ∧ p.name ∉ offered) ∧
      ((found offered entries).1.map Parameter.name).Nodup := by
  induction entries generalizing offered with
  | nil => exact ⟨fun p hp => absurd hp List.not_mem_nil, List.nodup_nil⟩
  | cons e entries ih =>
    unfold found
    cases hp : classify e.1 e.2 with
    | none => exact ⟨fun p hp => absurd hp List.not_mem_nil, List.nodup_nil⟩
    | some p =>
      dsimp only
      by_cases hmem : p.name ∈ offered
      · rw [if_pos hmem]
        exact ⟨fun p hp => absurd hp List.not_mem_nil, List.nodup_nil⟩
      · rw [if_neg hmem]
        obtain ⟨hallows, hnodup⟩ := ih (p.name :: offered)
        refine ⟨fun q hq => ?_, ?_⟩
        · rcases List.mem_cons.mp hq with rfl | hq
          · exact ⟨(classify_some hp).2.2, hmem⟩
          · exact ⟨(hallows q hq).1, fun h => (hallows q hq).2 (List.mem_cons_of_mem _ h)⟩
        · rw [List.map_cons, List.nodup_cons]
          refine ⟨fun h => ?_, hnodup⟩
          obtain ⟨q, hq, hname⟩ := List.mem_map.mp h
          exact (hallows q hq).2 (hname ▸ List.mem_cons_self)

theorem found_complete {behind : List UInt8} {tokens : List (List UInt8)} {entries : List (List UInt8 × Nat)}
    (h : List.Forall₂ (Entry behind) tokens entries) (offered : List ParameterName)
    (hcomplete : (found offered entries).2 = true) : List.Forall₂ ReadAs (found offered entries).1 tokens := by
  induction h generalizing offered with
  | nil => exact .nil
  | @cons token e tokens entries he hrest ih =>
    unfold found at hcomplete ⊢
    cases hp : classify e.1 e.2 with
    | none =>
      rw [hp] at hcomplete
      cases hcomplete
    | some p =>
      rw [hp] at hcomplete
      dsimp only at hcomplete ⊢
      by_cases hmem : p.name ∈ offered
      · rw [if_pos hmem] at hcomplete
        cases hcomplete
      · rw [if_neg hmem] at hcomplete ⊢
        exact .cons (he.readAs hp) (ih (p.name :: offered) hcomplete)

theorem solid_dropWhile (text : List UInt8) : solid (text.dropWhile isspace) = solid text := by
  have hblank : solid (text.takeWhile isspace) = 0 :=
    (solid_eq_zero_iff _).mpr fun c hc => List.mem_takeWhile_imp hc
  have happ := solid_append (text.takeWhile isspace) (text.dropWhile isspace)
  rw [List.takeWhile_append_dropWhile, hblank, Nat.zero_add] at happ
  exact happ.symm

/-- a parameter that is written with a value is long enough for it -/
theorem Parameter.Written.long {name : ParameterName} {bits : Nat} {piece : List UInt8}
    (h : (Parameter.mk name (some bits)).Written piece) : 24 ≤ solid piece := by
  have hlt : bits < 16 := Parameter.allows_lt h.1
  obtain ⟨-, before, after, front, behind, -, -, -, -, rfl⟩ := (written_some_iff name bits piece).mp h
  have hname : 22 ≤ name.text.length := by cases name <;> decide
  have hdigits : 1 ≤ solid (decimal bits) := by
    rw [solid_decimal bits hlt]
    split
    · exact Nat.le_refl 1
    · exact Nat.le_succ 1
  have heqs : isspace equals = false := by decide
  simp only [solid_append, solid_cons_of_solid heqs, name.solid_text]
  omega

/-- an offered value is among those that have been found -/
theorem Proposes.mem {element : List UInt8} {ps : List Parameter} (hall : List.Forall₂ ReadAs ps (tokensAfter element))
    {name : ParameterName} {bits : Nat} (h : Proposes element ⟨name, some bits⟩) : ⟨name, some bits⟩ ∈ ps := by
  obtain ⟨piece, hpiece, hwritten⟩ := h
  rw [tokensAfter_pieces (fun p token (h : ReadAs p token) => h.1) element ps] at hall
  obtain ⟨p, hp, hfound⟩ : ∃ p ∈ ps, ReadAs p (piece.dropWhile isspace) := by
    generalize (element.splitOn semicolon).tail = pieces at hall hpiece
    induction hall with
    | nil => cases hpiece
    | cons hd _ ih =>
      rcases List.mem_cons.mp hpiece with rfl | hpiece
      · exact ⟨_, List.mem_cons_self, hd⟩
      · obtain ⟨p, hp, hfound⟩ := ih hpiece
        exact ⟨p, List.mem_cons_of_mem _ hp, hfound⟩
  have htight := hfound.2 (by rw [solid_dropWhile]; exact hwritten.long)
  rwa [← htight.lenient.unique hwritten.lenient]

/-! ## the limits -/

/-- the limits that a compression may have -/
def Ranged (s : ExtensionCompression) : Prop :=
  ∀ name : ParameterName, name.window = true → name.Allows (some (s.maxBits name))

theorem ranged_iff (s : ExtensionCompression) :
    Ranged s ↔ (8 ≤ s.clientMaxWindowBits ∧ s.clientMaxWindowBits ≤ 15) ∧
      9 ≤ s.serverMaxWindowBits ∧ s.serverMaxWindowBits ≤ 15 := by
  constructor
  · exact fun h => ⟨h .clientMaxWindowBits rfl, h .serverMaxWindowBits rfl⟩
  · rintro ⟨hclient, hserver⟩ name hwindow
    cases name with
    | clientMaxWindowBits => exact hclient
    | serverMaxWindowBits => exact hserver
    | clientNoContextTakeover => cases hwindow
    | serverNoContextTakeover => cases hwindow

theorem ranged_init {compressionLevel : Nat} {s : ExtensionCompression}
    (h : ExtensionCompression.init compressionLevel = some s) : Ranged s := by
  rw [ranged_iff]
  unfold ExtensionCompression.init at h
  split at h
  · obtain rfl := Option.some.inj h
    decide
  · obtain rfl := Option.some.inj h
    decide
  · obtain rfl := Option.some.inj h
    decide
  · obtain rfl := Option.some.inj h
    decide
  · cases h

theorem init_level {compressionLevel : Nat} {s : ExtensionCompression}
    (h : ExtensionCompression.init compressionLevel = some s) : s.compressionLevel = compressionLevel := by
  unfold ExtensionCompression.init at h
  split at h
  all_goals cases h
  all_goals rfl

theorem allows_min {name : ParameterName} {a b : Nat} (ha : name.Allows (some a)) (hb : name.Allows (some b)) :
    name.Allows (some (min a b)) := by
  rcases Nat.le_total a b with h | h
  · rwa [Nat.min_eq_left h]
  · rwa [Nat.min_eq_right h]

theorem Ranged.write {s : ExtensionCompression} (h : Ranged s) {p : Parameter} (hp : p.name.Allows p.bits) :
    Ranged (s.write p) := by
  intro name hwindow
  by_cases hname : name = p.name
  · subst hname
    rw [ExtensionCompression.maxBits_write hwindow]
    refine allows_min (h _ hwindow) ?_
    cases hbits : p.bits with
    | none => exact h _ hwindow
    | some bits =>
      rw [hbits] at hp
      exact hp
  · rw [ExtensionCompression.maxBits_write_of_ne hname]
    exact h name hwindow

theorem Ranged.writeAll {s : ExtensionCompression} (h : Ranged s) {ps : List Parameter}
    (hps : ∀ p ∈ ps, p.name.Allows p.bits) : Ranged (s.writeAll ps) := by
  induction ps generalizing s with
  | nil => exact h
  | cons p ps ih => exact ih (h.write (hps p List.mem_cons_self)) fun q hq => hps q (List.mem_cons_of_mem _ hq)

/-- a declined element leaves limits that a compression may have -/
theorem ranged_declined {s : ExtensionCompression} (haccepted : s.accepted = false) (hlevel : s.compressionLevel ≠ 0)
    (hs : Ranged s) (element behind : List UInt8) (h : (fillRequestedExtension s element behind).accepted = false) :
    Ranged (fillRequestedExtension s element behind) ∧
      (fillRequestedExtension s element behind).compressionLevel = s.compressionLevel := by
  obtain ⟨entries, -, heq⟩ := fillRequestedExtension_found haccepted hlevel element behind
  rw [heq] at h ⊢
  dsimp only at h ⊢
  split at h
  · rename_i hnamed
    rw [if_pos hnamed]
    split at h
    · cases h
    · rename_i hcomplete
      have hallows := fun p hp => ((found_allows [] entries).1 p hp).1
      rw [if_neg hcomplete]
      have hn := foldl_apply_s (found [] entries).1 (Negotiation.start s)
      refine ⟨?_, ?_⟩
      · have hranged := hs.writeAll hallows
        rw [← show (List.foldl Negotiation.apply (Negotiation.start s) (found [] entries).1).s = s.writeAll _ from hn]
          at hranged
        exact hranged
      · exact (congrArg ExtensionCompression.compressionLevel hn).trans (writeAll_accepted s _).2
  · rename_i hnamed
    rw [if_neg hnamed]
    exact ⟨hs, rfl⟩

/-! ## the text of a response -/

theorem value_text : ∀ bits < 16, 8 ≤ bits →
    (if bits = 0 then [] else if bits < 10 then [equals, UInt8.ofNat (bits % 10) + 48]
      else [equals, 49, UInt8.ofNat (bits % 10) + 48]) = equals :: decimal bits := by decide

theorem eight_le_of_allows {name : ParameterName} (hwindow : name.window = true) {bits : Nat}
    (h : name.Allows (some bits)) : 8 ≤ bits := by
  cases name with
  | clientMaxWindowBits => exact h.1
  | serverMaxWindowBits => exact Nat.le_of_succ_le h.1
  | clientNoContextTakeover => cases hwindow
  | serverNoContextTakeover => cases hwindow

theorem writeToResponse_announced {s : ExtensionCompression} (hs : Ranged s) (name : ParameterName)
    (response : List UInt8) :
    writeToResponse name.text (s.maxBits name) response = response ++ (ascii "; " ++ (s.announced name).text) := by
  unfold writeToResponse Parameter.text ExtensionCompression.announced
  dsimp only
  cases hwindow : name.window with
  | true =>
    have hallows := hs name hwindow
    rw [value_text _ (Parameter.allows_lt hallows) (eight_le_of_allows hwindow hallows), if_pos rfl, List.append_assoc,
      List.append_assoc]
  | false =>
    rw [maxBits_of_takeover hwindow, if_pos rfl, if_neg (by decide), List.append_assoc, List.append_assoc]

theorem foldl_announced {s : ExtensionCompression} (hs : Ranged s) (names : List ParameterName)
    (response : List UInt8) :
    names.foldl (fun r name => writeToResponse name.text (s.maxBits name) r) response
      = response ++ (names.map s.announced).flatMap fun p => ascii "; " ++ p.text := by
  induction names generalizing response with
  | nil => exact (List.append_nil response).symm
  | cons name names ih =>
    rw [List.foldl_cons, ih, writeToResponse_announced hs, List.map_cons, List.flatMap_cons, List.append_assoc]

/-- the bytes of a response that a parameter takes at most, with what separates it -/
def ParameterName.room (name : ParameterName) : Nat := if name.window then 27 else 28

theorem length_announced_le {s : ExtensionCompression} (hs : Ranged s) (name : ParameterName) :
    (ascii "; " ++ (s.announced name).text).length ≤ name.room := by
  have hdigits : ∀ bits < 16, (equals :: decimal bits).length ≤ 3 := by decide
  unfold Parameter.text ExtensionCompression.announced
  cases name with
  | clientMaxWindowBits =>
    have := hdigits _ (Parameter.allows_lt (hs .clientMaxWindowBits rfl))
    rw [List.length_append, List.length_append]
    exact Nat.add_le_add_left (Nat.add_le_add_left this 22) 2
  | serverMaxWindowBits =>
    have := hdigits _ (Parameter.allows_lt (hs .serverMaxWindowBits rfl))
    rw [List.length_append, List.length_append]
    exact Nat.add_le_add_left (Nat.add_le_add_left this 22) 2
  | clientNoContextTakeover => exact Nat.le_refl 28
  | serverNoContextTakeover => exact Nat.le_refl 28

/-- Where no parameter is there twice, all of them fit. -/
theorem length_announced {s : ExtensionCompression} (hs : Ranged s) {names : List ParameterName} (h : names.Nodup) :
    (PERMESSAGE_DEFLATE ++ (names.map s.announced).flatMap fun p => ascii "; " ++ p.text).length + 1
      ≤ RESPONSE_MAX_LENGTH := by
  have hsum : ((names.map s.announced).flatMap fun p => ascii "; " ++ p.text).length
      ≤ (names.map ParameterName.room).sum := by
    rw [List.flatMap_map, List.length_flatMap]
    exact List.sum_le_sum fun name _ => length_announced_le hs name
  obtain ⟨l, hperm, hsub⟩ := List.Nodup.subperm h fun name _ => name.mem_all
  have hall : (names.map ParameterName.room).sum ≤ (ParameterName.all.map ParameterName.room).sum := by
    rw [← (hperm.map ParameterName.room).sum_eq]
    exact (hsub.map ParameterName.room).sum_le_sum fun n _ => Nat.zero_le n
  rw [List.length_append]
  have hname : PERMESSAGE_DEFLATE.length = 18 := by decide
  have htotal : (ParameterName.all.map ParameterName.room).sum = 110 := by decide
  unfold RESPONSE_MAX_LENGTH
  omega

/-! ## the element that is accepted -/

/-- the parameters that are added where the client has not offered them -/
def added (n : Negotiation) : List ParameterName :=
  (if !n.offered .serverMaxWindowBits && decide (n.s.serverMaxWindowBits < 15) then [.serverMaxWindowBits] else []) ++
    (if !n.offered .clientNoContextTakeover && n.s.clientNoContextTakeover then [.clientNoContextTakeover] else []) ++
    (if !n.offered .serverNoContextTakeover && n.s.serverNoContextTakeover then [.serverNoContextTakeover] else [])

theorem foldl_ite {α β : Type} (f : α → β → α) (a : α) (b : β) (c : Prop) [Decidable c] :
    (if c then [b] else []).foldl f a = if c then f a b else a := by
  split <;> rfl

theorem acceptExtension_response (n : Negotiation) : (acceptExtension n).response
    = some ((added n).foldl (fun r name => writeToResponse name.text (n.s.maxBits name) r) n.response) := by
  have hserver : (if n.clientOfferedCMaxWindow then n.s else { n.s with clientMaxWindowBits := 15 }).serverMaxWindowBits
      = n.s.serverMaxWindowBits := by split <;> rfl
  have hctake : (if n.clientOfferedCMaxWindow then n.s else { n.s with clientMaxWindowBits := 15 }).clientNoContextTakeover
      = n.s.clientNoContextTakeover := by split <;> rfl
  have hstake : (if n.clientOfferedCMaxWindow then n.s else { n.s with clientMaxWindowBits := 15 }).serverNoContextTakeover
      = n.s.serverNoContextTakeover := by split <;> rfl
  unfold acceptExtension added
  dsimp only
  rw [hserver, hctake, hstake, List.foldl_append, List.foldl_append, foldl_ite, foldl_ite, foldl_ite]
  rfl

theorem mem_added {n : Negotiation} {name : ParameterName} (h : name ∈ added n) :
    n.offered name = false ∧ name ≠ .clientMaxWindowBits ∧ (name.window = false → n.s.takeover name = true) := by
  unfold added at h
  rw [List.mem_append, List.mem_append] at h
  rcases h with (h | h) | h
  · split at h
    · rename_i hcond
      rw [Bool.and_eq_true, Bool.not_eq_true'] at hcond
      obtain rfl := List.mem_singleton.mp h
      exact ⟨hcond.1, nofun, fun h => by cases h⟩
    · cases h
  · split at h
    · rename_i hcond
      rw [Bool.and_eq_true, Bool.not_eq_true'] at hcond
      obtain rfl := List.mem_singleton.mp h
      exact ⟨hcond.1, nofun, fun _ => hcond.2⟩
    · cases h
  · split at h
    · rename_i hcond
      rw [Bool.and_eq_true, Bool.not_eq_true'] at hcond
      obtain rfl := List.mem_singleton.mp h
      exact ⟨hcond.1, nofun, fun _ => hcond.2⟩
    · cases h

theorem added_nodup (n : Negotiation) : (added n).Nodup := by
  unfold added
  split <;> split <;> split <;> decide

theorem acceptExtension_maxBits (n : Negotiation) {name : ParameterName}
    (h : name = .clientMaxWindowBits → n.offered name = true) :
    (acceptExtension n).maxBits name = n.s.maxBits name := by
  cases name with
  | clientMaxWindowBits =>
    show (acceptExtension n).clientMaxWindowBits = _
    rw [acceptExtension_client, h rfl, if_pos rfl]
  | serverMaxWindowBits => exact acceptExtension_server n
  | clientNoContextTakeover => rfl
  | serverNoContextTakeover => rfl

/-- The response of parameters that are there once each: those of the element, and those that are added. -/
theorem accept_sound {s : ExtensionCompression} {ps : List Parameter} (hnodup : (ps.map Parameter.name).Nodup)
    (hranged : Ranged (s.writeAll ps)) {n : Negotiation} (hn : n = ps.foldl Negotiation.apply (Negotiation.start s)) :
    ∃ response qs, (acceptExtension n).response = some response ∧ ExtensionResponse (acceptExtension n) response qs ∧
      ∀ p ∈ qs, p = (s.writeAll ps).announced p.name := by
  have hsettings : n.s = s.writeAll ps := by rw [hn, foldl_apply_s]; rfl
  have hoffered : ∀ name, n.offered name = true ↔ name ∈ ps.map Parameter.name := fun name => by rw [hn, offered_iff]
  have htext : n.response = (ps.map Parameter.name).foldl
      (fun r name => writeToResponse name.text ((s.writeAll ps).maxBits name) r) PERMESSAGE_DEFLATE := by
    rw [hn, foldl_response hnodup]
    rfl
  have hresponse := acceptExtension_response n
  rw [htext, hsettings, ← List.foldl_append, foldl_announced hranged] at hresponse
  have honce : (ps.map Parameter.name ++ added n).Nodup :=
    List.nodup_append.mpr ⟨hnodup, added_nodup n, fun name hname other hadded heq => by
      rw [← hoffered, heq, (mem_added hadded).1] at hname
      cases hname⟩
  have hclient : ∀ name ∈ ps.map Parameter.name ++ added n, name = .clientMaxWindowBits → n.offered name = true := by
    intro name hname hclient
    rcases List.mem_append.mp hname with hname | hname
    · exact (hoffered name).mpr hname
    · exact absurd hclient (mem_added hname).2.1
  have hlimits : ∀ name ∈ ps.map Parameter.name ++ added n,
      (acceptExtension n).maxBits name = (s.writeAll ps).maxBits name := fun name hname => by
    rw [acceptExtension_maxBits n (hclient name hname), hsettings]
  refine ⟨_, _, hresponse, ⟨rfl, length_announced hranged honce, ?_, ?_, ?_, ?_⟩, ?_⟩
  · rw [List.map_map]
    rwa [show Parameter.name ∘ (s.writeAll ps).announced = id from rfl, List.map_id]
  · intro p hp hname
    obtain ⟨name, hmem, rfl⟩ := List.mem_map.mp hp
    obtain rfl : name = .clientMaxWindowBits := hname
    have hlimit : (acceptExtension n).clientMaxWindowBits = (s.writeAll ps).maxBits .clientMaxWindowBits :=
      hlimits _ hmem
    rw [hlimit]
    exact ⟨rfl, hranged .clientMaxWindowBits rfl⟩
  · intro p hp hname
    obtain ⟨name, hmem, rfl⟩ := List.mem_map.mp hp
    obtain rfl : name = .serverMaxWindowBits := hname
    have hlimit : (acceptExtension n).serverMaxWindowBits = (s.writeAll ps).maxBits .serverMaxWindowBits :=
      hlimits _ hmem
    rw [hlimit]
    exact ⟨rfl, hranged .serverMaxWindowBits rfl⟩
  · intro p hp hwindow
    obtain ⟨name, hmem, rfl⟩ := List.mem_map.mp hp
    have hwindow : name.window = false := hwindow
    refine ⟨?_, ?_⟩
    · show (if name.window then some _ else none) = none
      rw [hwindow]
      rfl
    · show (acceptExtension n).takeover name = true
      rw [acceptExtension_takeover]
      rcases List.mem_append.mp hmem with hmem | hmem
      · rw [hsettings, ExtensionCompression.takeover_iff hwindow]
        exact Or.inr hmem
      · exact (mem_added hmem).2.2 hwindow
  · intro p hp
    obtain ⟨name, -, rfl⟩ := List.mem_map.mp hp
    rfl

/-- The response to an element that is accepted agrees with the settings, and does not exceed what the element offers. -/
theorem accepted_sound {s : ExtensionCompression} (haccepted : s.accepted = false) (hlevel : s.compressionLevel ≠ 0)
    (hs : Ranged s) (element behind : List UInt8) (h : (fillRequestedExtension s element behind).accepted = true) :
    ∃ response ps, (fillRequestedExtension s element behind).response = some response ∧
      ExtensionResponse (fillRequestedExtension s element behind) response ps ∧
      ∀ p ∈ ps, ∀ bits value, p.bits = some bits → Proposes element ⟨p.name, some value⟩ → bits ≤ value := by
  obtain ⟨entries, hentries, heq⟩ := fillRequestedExtension_found haccepted hlevel element behind
  obtain ⟨hallows, hnodup⟩ := found_allows [] entries
  rw [heq] at h ⊢
  dsimp only at h ⊢
  by_cases hnamed : Named element ∧ (tokensAfter element).length < 5
  · rw [if_pos hnamed] at h ⊢
    have hkept := foldl_accepted (found [] entries).1 (Negotiation.start s)
    cases hcomplete : (found [] entries).2 with
    | false =>
      rw [hcomplete, if_neg (by decide)] at h
      exact absurd (hkept.symm.trans h) (by rw [show (Negotiation.start s).s.accepted = false from haccepted]; decide)
    | true =>
      rw [if_pos rfl]
      have hall := found_complete hentries [] hcomplete
      have hranged : Ranged (s.writeAll (found [] entries).1) := hs.writeAll fun p hp => (hallows p hp).1
      obtain ⟨response, ps, hresponse, hsound, hannounced⟩ := accept_sound hnodup hranged rfl
      refine ⟨response, ps, hresponse, hsound, fun p hp bits value hbits hvalue => ?_⟩
      rw [hannounced p hp] at hbits
      have hmem := hvalue.mem hall
      -- the limit is the least of what has been written, and the value has been written
      cases hwindow : p.name.window with
      | true =>
        have hlimit : (s.writeAll (found [] entries).1).maxBits p.name = bits := by
          unfold ExtensionCompression.announced at hbits
          dsimp only at hbits
          rw [hwindow, if_pos rfl] at hbits
          exact Option.some.inj hbits
        have hle := (ExtensionCompression.maxBits_lt hwindow s (found [] entries).1 (value + 1)).mpr
          (Or.inr ⟨value, hmem, Nat.lt_succ_self value⟩)
        rw [hlimit] at hle
        exact Nat.le_of_lt_succ hle
      | false =>
        unfold ExtensionCompression.announced at hbits
        dsimp only at hbits
        rw [hwindow, if_neg (by decide)] at hbits
        cases hbits
  · rw [if_neg hnamed, haccepted] at h
    cases h

/-- Where one of the elements is accepted, those in front of it have been declined. -/
theorem negotiate_sound {s : ExtensionCompression} (haccepted : s.accepted = false) (hlevel : s.compressionLevel ≠ 0)
    (hs : Ranged s) (elements : List (List UInt8 × List UInt8)) (h : (negotiate s elements).accepted = true) :
    ∃ before e after response ps, elements = before ++ e :: after ∧ (negotiate s before).accepted = false ∧
      (negotiate s (before ++ [e])).accepted = true ∧ (negotiate s elements).response = some response ∧
      ExtensionResponse (negotiate s elements) response ps ∧
      ∀ p ∈ ps, ∀ bits value, p.bits = some bits → Proposes e.1 ⟨p.name, some value⟩ → bits ≤ value := by
  induction elements generalizing s with
  | nil =>
    rw [show negotiate s [] = s from rfl, haccepted] at h
    cases h
  | cons e elements ih =>
    have hcons : ∀ rest, negotiate s (e :: rest) = negotiate (fillRequestedExtension s e.1 e.2) rest := fun _ => rfl
    rw [hcons] at h ⊢
    cases hfirst : (fillRequestedExtension s e.1 e.2).accepted with
    | true =>
      obtain ⟨response, ps, hresponse, hsound, hvalue⟩ := accepted_sound haccepted hlevel hs e.1 e.2 hfirst
      rw [negotiate_accepted hfirst]
      exact ⟨[], e, elements, response, ps, rfl, haccepted, hfirst, hresponse, hsound, hvalue⟩
    | false =>
      obtain ⟨hranged, hsame⟩ := ranged_declined haccepted hlevel hs e.1 e.2 hfirst
      obtain ⟨before, e', after, response, ps, rfl, hbefore, htaken, hrest⟩ := ih hfirst (hsame ▸ hlevel) hranged h
      exact ⟨e :: before, e', after, response, ps, rfl, hbefore, htaken, hrest⟩

/-- Whatever a client sends in its headers: where an element is accepted, the response fits, has every parameter at most
once, and announces the limits that are stored: they are limits of a compression, and exceed none that the element
offers. -/
theorem response_sound (compressionLevel : Nat) (s : ExtensionCompression)
    (hinit : ExtensionCompression.init compressionLevel = some s) (hlevel : compressionLevel ≠ 0)
    (lines : List (List UInt8 × List UInt8)) (haccepted : (readExtensions s lines).accepted = true) :
    ∃ before e after response ps, offeredElements lines = before ++ e :: after ∧
      (negotiate s before).accepted = false ∧ (negotiate s (before ++ [e])).accepted = true ∧
      (readExtensions s lines).response = some response ∧ ExtensionResponse (readExtensions s lines) response ps ∧
      ∀ p ∈ ps, ∀ bits value, p.bits = some bits → Proposes e.1 ⟨p.name, some value⟩ → bits ≤ value := by
  rw [readExtensions_eq] at haccepted ⊢
  exact negotiate_sound (init_fresh hinit) (by rw [init_level hinit]; exact hlevel) (ranged_init hinit)
    (offeredElements lines) haccepted

theorem response_sound_second :
    ∃ before e after response ps,
      offeredElements [(ascii "permessage-deflate; server_max_window_bits=10; x, permessage-deflate; client_max_window_bits",
        [13])] = before ++ e :: after ∧
      (negotiate ⟨2, 12, 12, false, false, none, false⟩ before).accepted = false ∧
      (negotiate ⟨2, 12, 12, false, false, none, false⟩ (before ++ [e])).accepted = true ∧
      (readExtensions ⟨2, 12, 12, false, false, none, false⟩
        [(ascii "permessage-deflate; server_max_window_bits=10; x, permessage-deflate; client_max_window_bits",
          [13])]).response = some response ∧
      ExtensionResponse (readExtensions ⟨2, 12, 12, false, false, none, false⟩
        [(ascii "permessage-deflate; server_max_window_bits=10; x, permessage-deflate; client_max_window_bits", [13])])
        response ps ∧
      ∀ p ∈ ps, ∀ bits value, p.bits = some bits → Proposes e.1 ⟨p.name, some value⟩ → bits ≤ value :=
  response_sound 2 ⟨2, 12, 12, false, false, none, false⟩ rfl (by decide) _ (by decide +kernel)

end Websocket
end Cjet
