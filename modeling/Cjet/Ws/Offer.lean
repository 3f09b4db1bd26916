import Cjet.Ws.Tokens
import Mathlib.Data.List.Forall2

/-!
# What the server reads in an offer

* `Parameter`, `classify`   what the comparisons with the memory of a parameter find;
* `Parameter.Tight`         the texts that are found to be a parameter;
* `reading`                 the parameters of an element up to the one at which it is declined;
* `fillRequestedExtension_eq`   they are what the element writes into the settings.
-/

set_option linter.unusedVariables false

namespace Cjet
namespace Websocket

/-! ## parameters -/

inductive ParameterName where
  | clientMaxWindowBits
  | serverMaxWindowBits
  | clientNoContextTakeover
  | serverNoContextTakeover
  deriving DecidableEq

namespace ParameterName

def text : ParameterName → List UInt8
  | clientMaxWindowBits => CLIENT_MAX_WINDOW_BITS
  | serverMaxWindowBits => SERVER_MAX_WINDOW_BITS
  | clientNoContextTakeover => CLIENT_NO_CONTEXT_TAKEOVER
  | serverNoContextTakeover => SERVER_NO_CONTEXT_TAKEOVER

/-- the values that the parameter may have -/
def Allows : ParameterName → Option Nat → Prop
  | clientMaxWindowBits, none => True
  | clientMaxWindowBits, some bits => 8 ≤ bits ∧ bits ≤ 15
  | serverMaxWindowBits, some bits => 9 ≤ bits ∧ bits ≤ 15
  | serverMaxWindowBits, none => False
  | clientNoContextTakeover, bits => bits = none
  | serverNoContextTakeover, bits => bits = none

instance (name : ParameterName) (bits : Option Nat) : Decidable (name.Allows bits) := by
  cases name <;> cases bits <;> unfold Allows <;> infer_instance

/-- it has to do with a window, and may have a value -/
def window : ParameterName → Bool
  | clientMaxWindowBits => true
  | serverMaxWindowBits => true
  | clientNoContextTakeover => false
  | serverNoContextTakeover => false

def all : List ParameterName :=
  [clientMaxWindowBits, serverMaxWindowBits, clientNoContextTakeover, serverNoContextTakeover]

theorem mem_all (name : ParameterName) : name ∈ all := by cases name <;> decide

/-- no name begins another one -/
theorem eq_of_begins : ∀ m ∈ all, ∀ n ∈ all, m.text <+: n.text → m = n := by decide +kernel

theorem eq_of_both {m n : ParameterName} {text : List UInt8} (hm : m.text <+: text) (hn : n.text <+: text) : m = n := by
  rcases List.prefix_or_prefix_of_prefix hm hn with h | h
  · exact eq_of_begins m (mem_all m) n (mem_all n) h
  · exact (eq_of_begins n (mem_all n) m (mem_all m) h).symm

theorem solid_text (name : ParameterName) : solid name.text = name.text.length := by cases name <;> decide

end ParameterName

/-- the digits of a number -/
def decimal (n : Nat) : List UInt8 := (Nat.toDigits 10 n).map fun c => UInt8.ofNat c.toNat

structure Parameter where
  name : ParameterName
  bits : Option Nat
  deriving DecidableEq

namespace Parameter

/-- the parameter as the response has it -/
def text (p : Parameter) : List UInt8 :=
  p.name.text ++ match p.bits with
    | none => []
    | some bits => equals :: decimal bits

/-- what the server takes to be the parameter: nothing may be behind a value, and anything behind the others -/
def Tight (p : Parameter) (token : List UInt8) : Prop :=
  p.name.Allows p.bits ∧ ∃ tail, token = p.text ++ tail ∧ (p.name.window = true → Blank tail)

end Parameter

/-- what the comparisons find in the memory of a parameter -/
def classify (parameter : List UInt8) (parameterLength : Nat) : Option Parameter :=
  if parameterLength < 22 then none
  else if parameter.take 22 = CLIENT_MAX_WINDOW_BITS then
    if 22 + 3 < parameterLength then none
    else if 22 < parameterLength then
      (windowBits 8 (parameterLength = 22 + 2) (parameter.drop 22)).map fun bits => ⟨.clientMaxWindowBits, some bits⟩
    else some ⟨.clientMaxWindowBits, none⟩
  else if parameter.take 22 = SERVER_MAX_WINDOW_BITS then
    if 22 + 3 < parameterLength then none
    else
      (windowBits 9 (parameterLength = 22 + 2) (parameter.drop 22)).map fun bits => ⟨.serverMaxWindowBits, some bits⟩
  else if parameterLength < 26 then none
  else if parameter.take 26 = CLIENT_NO_CONTEXT_TAKEOVER then some ⟨.clientNoContextTakeover, none⟩
  else if parameter.take 26 = SERVER_NO_CONTEXT_TAKEOVER then some ⟨.serverNoContextTakeover, none⟩
  else none

namespace Negotiation

def offered (n : Negotiation) : ParameterName → Bool
  | .clientMaxWindowBits => n.clientOfferedCMaxWindow
  | .serverMaxWindowBits => n.clientOfferedSMaxWindow
  | .clientNoContextTakeover => n.clientOfferedCNoTakeover
  | .serverNoContextTakeover => n.clientOfferedSNoTakeover

/-- the parameter is written into the settings and the response -/
def apply (n : Negotiation) (p : Parameter) : Negotiation :=
  match p.name with
  | .clientMaxWindowBits =>
    let bits := min n.s.clientMaxWindowBits (p.bits.getD n.s.clientMaxWindowBits)
    { n with
      s := { n.s with clientMaxWindowBits := bits }
      response := writeToResponse CLIENT_MAX_WINDOW_BITS bits n.response
      clientOfferedCMaxWindow := true }
  | .serverMaxWindowBits =>
    let bits := min n.s.serverMaxWindowBits (p.bits.getD n.s.serverMaxWindowBits)
    { n with
      s := { n.s with serverMaxWindowBits := bits }
      response := writeToResponse SERVER_MAX_WINDOW_BITS bits n.response
      clientOfferedSMaxWindow := true }
  | .clientNoContextTakeover =>
    { n with
      s := { n.s with clientNoContextTakeover := true }
      response := writeToResponse CLIENT_NO_CONTEXT_TAKEOVER 0 n.response
      clientOfferedCNoTakeover := true }
  | .serverNoContextTakeover =>
    { n with
      s := { n.s with serverNoContextTakeover := true }
      response := writeToResponse SERVER_NO_CONTEXT_TAKEOVER 0 n.response
      clientOfferedSNoTakeover := true }

theorem offered_apply (n : Negotiation) (p : Parameter) (name : ParameterName) :
    (n.apply p).offered name = (n.offered name || decide (p.name = name)) := by
  obtain ⟨m, bits⟩ := p
  cases m <;> cases name <;> simp [apply, offered]

end Negotiation

/-- a parameter is applied where the comparisons find one which has not been offered before -/
theorem fillParameter_eq (n : Negotiation) (parameter : List UInt8) (parameterLength : Nat) :
    fillParameter n parameter parameterLength
      = (classify parameter parameterLength).bind fun p => if n.offered p.name then none else some (n.apply p) := by
  unfold fillParameter classify
  by_cases h22 : parameterLength < 22
  · rw [if_pos h22, if_pos h22]
    rfl
  rw [if_neg h22, if_neg h22]
  by_cases hclient : parameter.take 22 = CLIENT_MAX_WINDOW_BITS
  · rw [if_pos hclient, if_pos hclient]
    unfold fillClientMaxWindowBits
    by_cases hlong : 22 + 3 < parameterLength
    · rw [if_pos hlong, if_pos hlong, ite_self]
      rfl
    rw [if_neg hlong, if_neg hlong]
    by_cases hvalue : 22 < parameterLength
    · rw [if_pos hvalue, if_pos hvalue]
      cases windowBits 8 (parameterLength = 22 + 2) (parameter.drop 22) with
      | none => exact ite_self _
      | some bits => rfl
    · rw [if_neg hvalue, if_neg hvalue]
      show _ = if n.clientOfferedCMaxWindow then none else some (n.apply ⟨.clientMaxWindowBits, none⟩)
      rw [show n.apply ⟨.clientMaxWindowBits, none⟩
        = _ from by unfold Negotiation.apply; rw [Option.getD_none, Nat.min_self]]
  rw [if_neg hclient, if_neg hclient]
  by_cases hserver : parameter.take 22 = SERVER_MAX_WINDOW_BITS
  · rw [if_pos hserver, if_pos hserver]
    unfold fillServerMaxWindowBits
    by_cases hlong : 22 + 3 < parameterLength
    · rw [if_pos hlong, if_pos hlong, ite_self]
      rfl
    rw [if_neg hlong, if_neg hlong]
    cases windowBits 9 (parameterLength = 22 + 2) (parameter.drop 22) with
    | none => exact ite_self _
    | some bits => rfl
  rw [if_neg hserver, if_neg hserver]
  by_cases h26 : parameterLength < 26
  · rw [if_pos h26, if_pos h26]
    rfl
  rw [if_neg h26, if_neg h26]
  by_cases hctake : parameter.take 26 = CLIENT_NO_CONTEXT_TAKEOVER
  · rw [if_pos hctake, if_pos hctake]
    rfl
  rw [if_neg hctake, if_neg hctake]
  by_cases hstake : parameter.take 26 = SERVER_NO_CONTEXT_TAKEOVER
  · rw [if_pos hstake, if_pos hstake]
    rfl
  · rw [if_neg hstake, if_neg hstake]
    rfl

/-! ## values -/

theorem toNat_digit (d : UInt8) : (d.toUInt32 - 48).toNat = (d.toNat + 4294967248) % 4294967296 := by
  rw [UInt32.toNat_sub, UInt8.toNat_toUInt32, Nat.add_comm]
  rfl

theorem decimal_of_lt : ∀ bits < 10, decimal bits = [UInt8.ofNat (48 + bits)] := by decide

theorem decimal_of_le : ∀ bits < 16, 10 ≤ bits → decimal bits = [49, UInt8.ofNat (38 + bits)] := by decide

/-- a value of one digit -/
theorem windowBits_one (least : UInt32) (value : List UInt8) (bits : Nat) :
    windowBits least true value = some bits ↔
      least.toNat ≤ bits ∧ bits < 10 ∧ value.headD 0 = equals ∧ value.tail.headD 0 = UInt8.ofNat (48 + bits) := by
  unfold windowBits
  by_cases heq : value.headD 0 = equals
  · rw [if_neg (not_not.mpr heq), if_pos rfl]
    have hd := toNat_digit (value.tail.headD 0)
    generalize value.tail.headD 0 = d at hd ⊢
    have hdlt := d.toNat_lt
    have hlt : d.toUInt32 - 48 < least ↔ (d.toUInt32 - 48).toNat < least.toNat := UInt32.lt_iff_toNat_lt
    have hgt : 9 < d.toUInt32 - 48 ↔ 9 < (d.toUInt32 - 48).toNat := UInt32.lt_iff_toNat_lt
    have hofNat : d = UInt8.ofNat (48 + bits) ↔ d.toNat = (48 + bits) % 256 := by
      rw [← UInt8.toNat_inj, UInt8.toNat_ofNat']
    simp only [hlt, hgt, hofNat, hd, heq, true_and]
    split
    · rename_i hout
      constructor
      · intro h
        cases h
      · rintro ⟨h1, h2, h3⟩
        omega
    · rename_i hin
      rw [Option.some.injEq]
      omega
  · rw [if_pos heq]
    constructor
    · intro h
      cases h
    · rintro ⟨-, -, h, -⟩
      exact absurd h heq

/-- a value of two digits -/
theorem windowBits_two (least : UInt32) (value : List UInt8) (bits : Nat) :
    windowBits least false value = some bits ↔
      10 ≤ bits ∧ bits < 16 ∧ value.headD 0 = equals ∧ value.tail.headD 0 = 49 ∧
        value.tail.tail.headD 0 = UInt8.ofNat (38 + bits) := by
  unfold windowBits
  by_cases heq : value.headD 0 = equals
  · rw [if_neg (not_not.mpr heq), if_neg (by decide)]
    by_cases hone : value.tail.headD 0 = 49
    · rw [if_neg (not_not.mpr hone)]
      have hd := toNat_digit (value.tail.tail.headD 0)
      generalize value.tail.tail.headD 0 = d at hd ⊢
      have hdlt := d.toNat_lt
      have hgt : 5 < d.toUInt32 - 48 ↔ 5 < (d.toUInt32 - 48).toNat := UInt32.lt_iff_toNat_lt
      have hofNat : d = UInt8.ofNat (38 + bits) ↔ d.toNat = (38 + bits) % 256 := by
        rw [← UInt8.toNat_inj, UInt8.toNat_ofNat']
      simp only [hgt, hofNat, hd, heq, hone, true_and]
      split
      · rename_i hout
        constructor
        · intro h
          cases h
        · rintro ⟨h1, h2, h3⟩
          omega
      · rename_i hin
        rw [Option.some.injEq]
        omega
    · rw [if_pos hone]
      constructor
      · intro h
        cases h
      · rintro ⟨-, -, -, h, -⟩
        exact absurd h hone
  · rw [if_pos heq]
    constructor
    · intro h
      cases h
    · rintro ⟨-, -, h, -⟩
      exact absurd h heq

/-- where the element ends in the middle of a value, no value goes on behind it -/
def Bounded (rest : List UInt8) : Prop := rest.headD 0 ≠ equals ∧ rest.headD 0 ≠ 49

theorem bounded_semicolon (rest : List UInt8) : Bounded (semicolon :: rest) := 
  ⟨show semicolon ≠ equals by decide, show semicolon ≠ 49 by decide⟩

theorem ne_nil_of_solid {l : List UInt8} (h : 0 < solid l) : l ≠ [] := by
  rintro rfl
  exact Nat.lt_irrefl 0 h

theorem solid_decimal : ∀ bits < 16, solid (decimal bits) = if bits < 10 then 1 else 2 := by decide

/-- the digits that are found are in the token, and all that is behind them there is blank -/
theorem windowBits_token (least : UInt32) (t rest : List UInt8) (hrest : Bounded rest) (hlen : solid t ≤ 3)
    (hleast : least.toNat < 10) (bits : Nat) :
    windowBits least (solid t = 2) (t ++ rest) = some bits ↔
      (least.toNat ≤ bits ∧ bits ≤ 15) ∧ ∃ tail, t = equals :: decimal bits ++ tail ∧ Blank tail := by
  have heqs : isspace equals = false := by decide
  have hones : isspace 49 = false := by decide
  constructor
  · intro h
    by_cases htwo : solid t = 2
    · rw [decide_eq_true htwo, windowBits_one] at h
      obtain ⟨hlo, hhi, hequals, hdigit⟩ := h
      obtain ⟨c, t1, rfl⟩ := List.exists_cons_of_ne_nil (ne_nil_of_solid (by rw [htwo]; decide : 0 < solid t))
      rw [show c = equals from hequals, solid_cons_of_solid heqs] at htwo
      obtain ⟨d, t2, rfl⟩ := List.exists_cons_of_ne_nil (ne_nil_of_solid (by omega : 0 < solid t1))
      have hd : d = UInt8.ofNat (48 + bits) := hdigit
      have hsolid := solid_decimal bits (by omega)
      rw [decimal_of_lt bits hhi, if_pos hhi] at hsolid
      have happ := solid_append [d] t2
      rw [hd, hsolid, ← hd, List.singleton_append] at happ
      refine ⟨⟨hlo, by omega⟩, t2, ?_, (solid_eq_zero_iff t2).mp (by omega)⟩
      rw [show c = equals from hequals, decimal_of_lt bits hhi, hd]
      rfl
    · rw [decide_eq_false htwo, windowBits_two] at h
      obtain ⟨hlo, hhi, hequals, hone, hdigit⟩ := h
      cases t with
      | nil => exact absurd hequals hrest.1
      | cons c t1 =>
        rw [show c = equals from hequals, solid_cons_of_solid heqs] at htwo hlen
        cases t1 with
        | nil => exact absurd hone hrest.2
        | cons c1 t2 =>
          rw [show c1 = 49 from hone, solid_cons_of_solid hones] at htwo hlen
          obtain ⟨d, t3, rfl⟩ := List.exists_cons_of_ne_nil (ne_nil_of_solid (by omega : 0 < solid t2))
          have hd : d = UInt8.ofNat (38 + bits) := hdigit
          have hsolid := solid_decimal bits (by omega)
          rw [decimal_of_le bits hhi hlo, solid_cons_of_solid hones, if_neg (by omega)] at hsolid
          have happ := solid_append [d] t3
          rw [hd] at happ
          rw [List.singleton_append, ← hd] at happ
          rw [← hd] at hsolid
          refine ⟨⟨by omega, by omega⟩, t3, ?_, (solid_eq_zero_iff t3).mp (by omega)⟩
          rw [show c = equals from hequals, show c1 = 49 from hone, decimal_of_le bits hhi hlo, hd]
          rfl
  · rintro ⟨⟨hlo, hhi⟩, tail, rfl, htail⟩
    have hsolid : solid (equals :: decimal bits ++ tail) = 1 + if bits < 10 then 1 else 2 := by
      rw [solid_append, solid_cons_of_solid heqs, solid_decimal bits (by omega), (solid_eq_zero_iff tail).mpr htail,
        Nat.add_zero, Nat.add_comm]
    by_cases hone : bits < 10
    · rw [hsolid, if_pos hone, decide_eq_true rfl, windowBits_one, decimal_of_lt bits hone]
      exact ⟨hlo, hone, rfl, rfl⟩
    · rw [hsolid, if_neg hone, decide_eq_false (by decide), windowBits_two, decimal_of_le bits (by omega) (by omega)]
      exact ⟨by omega, by omega, rfl, rfl, rfl⟩

/-! ## what is found -/

/-- a name is compared with the memory, but no further than the token reaches -/
theorem begins_iff (name : ParameterName) (t rest : List UInt8) :
    name.text <+: t ↔ name.text.length ≤ solid t ∧ (t ++ rest).take name.text.length = name.text := by
  constructor
  · rintro ⟨tail, rfl⟩
    rw [solid_append, name.solid_text, List.append_assoc, List.take_left]
    exact ⟨Nat.le_add_right _ _, rfl⟩
  · rintro ⟨hlen, htake⟩
    have hle : name.text.length ≤ t.length := hlen.trans (solid_le_length t)
    rw [List.take_append_of_le_length hle] at htake
    rw [← htake]
    exact List.take_prefix _ _

theorem Parameter.Tight.begins {p : Parameter} {t : List UInt8} (h : p.Tight t) : p.name.text <+: t := by
  obtain ⟨-, tail, rfl, -⟩ := h
  unfold Parameter.text
  rw [List.append_assoc]
  exact List.prefix_append _ _

theorem Parameter.Tight.name_eq {p : Parameter} {t : List UInt8} {name : ParameterName} (h : p.Tight t)
    (hname : name.text <+: t) : p.name = name := ParameterName.eq_of_both h.begins hname

/-- a parameter with a window is found where nothing but its name and its value is in the token -/
theorem tight_window_iff {name : ParameterName} (hwindow : name.window = true) (bits : Option Nat) (tail : List UInt8) :
    (Parameter.mk name bits).Tight (name.text ++ tail) ↔
      name.Allows bits ∧ ∃ blank, Blank blank ∧
        tail = (match bits with | none => [] | some b => equals :: decimal b) ++ blank := by
  unfold Parameter.Tight Parameter.text
  constructor
  · rintro ⟨hallows, blank, htail, hblank⟩
    rw [List.append_assoc] at htail
    exact ⟨hallows, blank, hblank hwindow, List.append_cancel_left htail⟩
  · rintro ⟨hallows, blank, hblank, rfl⟩
    exact ⟨hallows, blank, (List.append_assoc _ _ _).symm, fun _ => hblank⟩

theorem solid_le_of_tight {p : Parameter} {name : ParameterName} (hwindow : name.window = true) {tail : List UInt8}
    (h : p.Tight (name.text ++ tail)) : solid tail ≤ 3 := by
  obtain ⟨m, bits⟩ := p
  obtain rfl : m = name := h.name_eq (List.prefix_append _ _)
  obtain ⟨hallows, blank, hblank, rfl⟩ := (tight_window_iff hwindow bits tail).mp h
  rw [solid_append, (solid_eq_zero_iff blank).mpr hblank]
  cases bits with
  | none => exact Nat.zero_le _
  | some b =>
    have hb : b < 16 := by
      cases m with
      | clientMaxWindowBits => exact Nat.lt_succ_of_le hallows.2
      | serverMaxWindowBits => exact Nat.lt_succ_of_le hallows.2
      | clientNoContextTakeover => cases hwindow
      | serverNoContextTakeover => cases hwindow
    show solid (equals :: decimal b) + 0 ≤ 3
    rw [solid_cons_of_solid (by decide), solid_decimal b hb]
    split
    · decide
    · decide

/-- the value of a window is read from the token -/
theorem value_iff {name : ParameterName} (hwindow : name.window = true) {least : UInt32} (hleast : least.toNat < 10)
    (hallows : ∀ bits, name.Allows (some bits) ↔ least.toNat ≤ bits ∧ bits ≤ 15) {tail rest : List UInt8}
    (hrest : Bounded rest) (hlen : solid tail ≤ 3) (p : Parameter) :
    ((windowBits least (22 + solid tail = 22 + 2) (tail ++ rest)).map fun bits => Parameter.mk name (some bits))
    = some p ↔
      p.Tight (name.text ++ tail) ∧ p.bits ≠ none := by
  have hcount : decide (22 + solid tail = 22 + 2) = decide (solid tail = 2) :=
    decide_eq_decide.mpr Nat.add_left_cancel_iff
  rw [hcount, Option.map_eq_some_iff]
  constructor
  · rintro ⟨bits, hbits, rfl⟩
    obtain ⟨hrange, blank, rfl, hblank⟩ := (windowBits_token least tail rest hrest hlen hleast bits).mp hbits
    exact ⟨(tight_window_iff hwindow _ _).mpr ⟨(hallows bits).mpr hrange, blank, hblank, rfl⟩, nofun⟩
  · obtain ⟨m, bits⟩ := p
    rintro ⟨htight, hsome⟩
    obtain rfl : m = name := htight.name_eq (List.prefix_append _ _)
    obtain ⟨hallowed, blank, hblank, htail⟩ := (tight_window_iff hwindow bits tail).mp htight
    cases bits with
    | none => exact absurd rfl hsome
    | some bits =>
      exact ⟨bits, (windowBits_token least tail rest hrest hlen hleast bits).mpr
        ⟨(hallows bits).mp hallowed, blank, htail, hblank⟩, rfl⟩

/-- a parameter without a value is found whatever is behind its name -/
theorem tight_takeover_iff {name : ParameterName} (hallows : ∀ bits, name.Allows bits ↔ bits = none)
    (hwindow : name.window = false) (tail : List UInt8) (p : Parameter) :
    some ⟨name, none⟩ = some p ↔ p.Tight (name.text ++ tail) := by
  rw [Option.some.injEq]
  constructor
  · rintro rfl
    refine ⟨(hallows none).mpr rfl, tail, ?_, fun h => absurd (hwindow.symm.trans h) (by decide)⟩
    unfold Parameter.text
    rw [List.append_nil]
  · intro h
    obtain ⟨m, bits⟩ := p
    obtain rfl : m = name := h.name_eq (List.prefix_append _ _)
    rw [(hallows bits).mp h.1]

/-- a comparison with another name fails -/
theorem take_ne {m n : ParameterName} {t : List UInt8} (hm : m.text <+: t) (hne : m ≠ n)
    (hlen : n.text.length ≤ solid t)
    (rest : List UInt8) : (t ++ rest).take n.text.length ≠ n.text := fun h =>
  hne (ParameterName.eq_of_both hm ((begins_iff n t rest).mpr ⟨hlen, h⟩))

theorem take_name (name : ParameterName) (tail rest : List UInt8) :
    (name.text ++ tail ++ rest).take name.text.length = name.text := by
  rw [List.append_assoc, List.take_left]

theorem drop_name (name : ParameterName) (tail rest : List UInt8) :
    (name.text ++ tail ++ rest).drop name.text.length = tail ++ rest := by
  rw [List.append_assoc, List.drop_left]

theorem solid_name (name : ParameterName) (tail : List UInt8) :
    solid (name.text ++ tail) = name.text.length + solid tail := by
  rw [solid_append, name.solid_text]

theorem classify_client (tail rest : List UInt8) (hrest : Bounded rest) (p : Parameter) :
    classify (ParameterName.clientMaxWindowBits.text ++ tail ++ rest)
      (solid (ParameterName.clientMaxWindowBits.text ++ tail))
      = some p ↔ p.Tight (ParameterName.clientMaxWindowBits.text ++ tail) := by
  have hsolid : solid (ParameterName.clientMaxWindowBits.text ++ tail) = 22 + solid tail := solid_name _ tail
  have htake : (ParameterName.clientMaxWindowBits.text ++ tail ++ rest).take 22 = CLIENT_MAX_WINDOW_BITS :=
    take_name .clientMaxWindowBits tail rest
  have hdrop : (ParameterName.clientMaxWindowBits.text ++ tail ++ rest).drop 22 = tail ++ rest :=
    drop_name .clientMaxWindowBits tail rest
  unfold classify
  rw [hsolid, if_neg (Nat.not_lt.mpr (Nat.le_add_right 22 _)), if_pos htake, hdrop]
  by_cases hlong : 22 + 3 < 22 + solid tail
  · rw [if_pos hlong]
    refine iff_of_false nofun fun h => ?_
    have := solid_le_of_tight rfl h
    omega
  rw [if_neg hlong]
  by_cases hvalue : 22 < 22 + solid tail
  · rw [if_pos hvalue, value_iff rfl (by decide) (fun bits => Iff.rfl) hrest (by omega)]
    refine ⟨And.left, fun h => ⟨h, fun hnone => ?_⟩⟩
    obtain ⟨m, bits⟩ := p
    obtain rfl : m = .clientMaxWindowBits := h.name_eq (List.prefix_append _ _)
    obtain rfl : bits = none := hnone
    obtain ⟨-, blank, hblank, htail⟩ := (tight_window_iff rfl _ _).mp h
    rw [htail, List.nil_append, (solid_eq_zero_iff blank).mpr hblank] at hvalue
    exact Nat.lt_irrefl _ hvalue
  · rw [if_neg hvalue, Option.some.injEq]
    have hblank : Blank tail := (solid_eq_zero_iff tail).mp (by omega)
    constructor
    · rintro rfl
      exact (tight_window_iff rfl _ _).mpr ⟨trivial, tail, hblank, rfl⟩
    · intro h
      obtain ⟨m, bits⟩ := p
      obtain rfl : m = .clientMaxWindowBits := h.name_eq (List.prefix_append _ _)
      obtain ⟨-, blank, -, htail⟩ := (tight_window_iff rfl _ _).mp h
      cases bits with
      | none => rfl
      | some bits =>
        have := hblank equals (by rw [htail]; exact List.mem_cons_self)
        exact absurd this (by decide)

theorem classify_server (tail rest : List UInt8) (hrest : Bounded rest) (p : Parameter) :
    classify (ParameterName.serverMaxWindowBits.text ++ tail ++ rest)
      (solid (ParameterName.serverMaxWindowBits.text ++ tail))
      = some p ↔ p.Tight (ParameterName.serverMaxWindowBits.text ++ tail) := by
  have hsolid : solid (ParameterName.serverMaxWindowBits.text ++ tail) = 22 + solid tail := solid_name _ tail
  have hle : 22 ≤ 22 + solid tail := Nat.le_add_right 22 _
  have hclient : (ParameterName.serverMaxWindowBits.text ++ tail ++ rest).take 22 ≠ CLIENT_MAX_WINDOW_BITS :=
    take_ne (n := .clientMaxWindowBits) (List.prefix_append _ tail) (by decide) (by rw [hsolid]; exact hle) rest
  have htake : (ParameterName.serverMaxWindowBits.text ++ tail ++ rest).take 22 = SERVER_MAX_WINDOW_BITS :=
    take_name .serverMaxWindowBits tail rest
  have hdrop : (ParameterName.serverMaxWindowBits.text ++ tail ++ rest).drop 22 = tail ++ rest :=
    drop_name .serverMaxWindowBits tail rest
  unfold classify
  rw [hsolid, if_neg (Nat.not_lt.mpr hle), if_neg hclient, if_pos htake, hdrop]
  by_cases hlong : 22 + 3 < 22 + solid tail
  · rw [if_pos hlong]
    refine iff_of_false nofun fun h => ?_
    have := solid_le_of_tight rfl h
    omega
  · rw [if_neg hlong, value_iff rfl (by decide) (fun bits => Iff.rfl) hrest (by omega)]
    refine ⟨And.left, fun h => ⟨h, fun hnone => ?_⟩⟩
    obtain ⟨m, bits⟩ := p
    obtain rfl : m = .serverMaxWindowBits := h.name_eq (List.prefix_append _ _)
    obtain rfl : bits = none := hnone
    exact h.1

theorem classify_clientTakeover (tail rest : List UInt8) (p : Parameter) :
    classify (ParameterName.clientNoContextTakeover.text ++ tail ++ rest)
      (solid (ParameterName.clientNoContextTakeover.text ++ tail)) = some p ↔
        p.Tight (ParameterName.clientNoContextTakeover.text ++ tail) := by
  have hle : 26 ≤ solid (ParameterName.clientNoContextTakeover.text ++ tail) := by
    rw [solid_name]
    exact Nat.le_add_right 26 _
  have h22 : 22 ≤ solid (ParameterName.clientNoContextTakeover.text ++ tail) := by omega
  have hclient : (ParameterName.clientNoContextTakeover.text ++ tail ++ rest).take 22 ≠ CLIENT_MAX_WINDOW_BITS :=
    take_ne (n := .clientMaxWindowBits) (List.prefix_append _ tail) (by decide) h22 rest
  have hserver : (ParameterName.clientNoContextTakeover.text ++ tail ++ rest).take 22 ≠ SERVER_MAX_WINDOW_BITS :=
    take_ne (n := .serverMaxWindowBits) (List.prefix_append _ tail) (by decide) h22 rest
  have htake : (ParameterName.clientNoContextTakeover.text ++ tail ++ rest).take 26 = CLIENT_NO_CONTEXT_TAKEOVER :=
    take_name .clientNoContextTakeover tail rest
  unfold classify
  rw [if_neg (Nat.not_lt.mpr h22), if_neg hclient, if_neg hserver, if_neg (Nat.not_lt.mpr hle), if_pos htake]
  exact tight_takeover_iff (fun bits => Iff.rfl) rfl tail p

theorem classify_serverTakeover (tail rest : List UInt8) (p : Parameter) :
    classify (ParameterName.serverNoContextTakeover.text ++ tail ++ rest)
      (solid (ParameterName.serverNoContextTakeover.text ++ tail)) = some p ↔
        p.Tight (ParameterName.serverNoContextTakeover.text ++ tail) := by
  have hle : 26 ≤ solid (ParameterName.serverNoContextTakeover.text ++ tail) := by
    rw [solid_name]
    exact Nat.le_add_right 26 _
  have h22 : 22 ≤ solid (ParameterName.serverNoContextTakeover.text ++ tail) := by omega
  have hclient : (ParameterName.serverNoContextTakeover.text ++ tail ++ rest).take 22 ≠ CLIENT_MAX_WINDOW_BITS :=
    take_ne (n := .clientMaxWindowBits) (List.prefix_append _ tail) (by decide) h22 rest
  have hserver : (ParameterName.serverNoContextTakeover.text ++ tail ++ rest).take 22 ≠ SERVER_MAX_WINDOW_BITS :=
    take_ne (n := .serverMaxWindowBits) (List.prefix_append _ tail) (by decide) h22 rest
  have hctake : (ParameterName.serverNoContextTakeover.text ++ tail ++ rest).take 26 ≠ CLIENT_NO_CONTEXT_TAKEOVER :=
    take_ne (n := .clientNoContextTakeover) (List.prefix_append _ tail) (by decide) hle rest
  have htake : (ParameterName.serverNoContextTakeover.text ++ tail ++ rest).take 26 = SERVER_NO_CONTEXT_TAKEOVER :=
    take_name .serverNoContextTakeover tail rest
  unfold classify
  rw [if_neg (Nat.not_lt.mpr h22), if_neg hclient, if_neg hserver, if_neg (Nat.not_lt.mpr hle), if_neg hctake,
    if_pos htake]
  exact tight_takeover_iff (fun bits => Iff.rfl) rfl tail p

/-- without a name in front of the token no comparison succeeds -/
theorem classify_none {t : List UInt8} (h : ∀ name : ParameterName, ¬name.text <+: t) (rest : List UInt8) :
    classify (t ++ rest) (solid t) = none := by
  have hfail : ∀ name : ParameterName, name.text.length ≤ solid t → (t ++ rest).take name.text.length ≠ name.text :=
    fun name hlen htake => h name ((begins_iff name t rest).mpr ⟨hlen, htake⟩)
  unfold classify
  by_cases h22 : solid t < 22
  · rw [if_pos h22]
  have hclient : (t ++ rest).take 22 ≠ CLIENT_MAX_WINDOW_BITS := hfail .clientMaxWindowBits (Nat.not_lt.mp h22)
  have hserver : (t ++ rest).take 22 ≠ SERVER_MAX_WINDOW_BITS := hfail .serverMaxWindowBits (Nat.not_lt.mp h22)
  rw [if_neg h22, if_neg hclient, if_neg hserver]
  by_cases h26 : solid t < 26
  · rw [if_pos h26]
  have hctake : (t ++ rest).take 26 ≠ CLIENT_NO_CONTEXT_TAKEOVER := hfail .clientNoContextTakeover (Nat.not_lt.mp h26)
  have hstake : (t ++ rest).take 26 ≠ SERVER_NO_CONTEXT_TAKEOVER := hfail .serverNoContextTakeover (Nat.not_lt.mp h26)
  rw [if_neg h26, if_neg hctake, if_neg hstake]

theorem classify_memory (t rest : List UInt8) (hrest : Bounded rest) (p : Parameter) :
    classify (t ++ rest) (solid t) = some p ↔ p.Tight t := by
  by_cases hfound : ∃ name : ParameterName, name.text <+: t
  · obtain ⟨name, tail, rfl⟩ := hfound
    cases name with
    | clientMaxWindowBits => exact classify_client tail rest hrest p
    | serverMaxWindowBits => exact classify_server tail rest hrest p
    | clientNoContextTakeover => exact classify_clientTakeover tail rest p
    | serverNoContextTakeover => exact classify_serverTakeover tail rest p
  · rw [classify_none (fun name h => hfound ⟨name, h⟩) rest]
    exact iff_of_false nofun fun h => hfound ⟨p.name, h.begins⟩

theorem classify_iff {behind t : List UInt8} {e : List UInt8 × Nat} (h : Entry behind t e) (hbehind : Bounded behind)
    (p : Parameter) : classify e.1 e.2 = some p ↔ p.Tight t := by
  cases h with
  | token c t rest hrest hc hsemi =>
    refine classify_memory (c :: t) rest ?_ p
    rcases hrest with rfl | ⟨r, rfl⟩
    · exact hbehind
    · exact bounded_semicolon r
  | none parameter =>
    refine iff_of_false (fun h => by cases h) fun h => ?_
    obtain ⟨r, hr⟩ := h.begins
    rw [List.append_eq_nil_iff] at hr
    have hpos : p.name.text ≠ [] := by cases p.name <;> decide
    exact hpos hr.1

/-! ## an element -/

/-- the parameter that a token is found to be -/
def readToken (token : List UInt8) : Option Parameter := classify token (solid token)

theorem readToken_iff (token : List UInt8) (p : Parameter) : readToken token = some p ↔ p.Tight token := by
  have := classify_memory token [] ⟨by decide, by decide⟩ p
  rwa [List.append_nil] at this

theorem classify_eq {behind t : List UInt8} {e : List UInt8 × Nat} (h : Entry behind t e) (hbehind : Bounded behind) :
    classify e.1 e.2 = readToken t := by
  apply Option.ext
  intro p
  rw [classify_iff h hbehind, readToken_iff]

/-- the parameters up to the one at which the element is declined, and if there is none -/
def reading (offered : List ParameterName) : (tokens : List (List UInt8)) → List Parameter × Bool
  | [] => ([], true)
  | token :: rest =>
    match readToken token with
    | none => ([], false)
    | some p =>
      if p.name ∈ offered then ([], false)
      else (p :: (reading (p.name :: offered) rest).1, (reading (p.name :: offered) rest).2)

/-- a complete reading has all the tokens, and no name twice -/
theorem reading_iff (offered : List ParameterName) (tokens : List (List UInt8)) (ps : List Parameter) :
    reading offered tokens = (ps, true) ↔
      List.Forall₂ Parameter.Tight ps tokens ∧ (ps.map Parameter.name).Nodup ∧ ∀ p ∈ ps, p.name ∉ offered := by
  induction tokens generalizing offered ps with
  | nil =>
    rw [List.forall₂_nil_right_iff]
    constructor
    · intro h
      obtain rfl : [] = ps := congrArg Prod.fst h
      exact ⟨rfl, List.nodup_nil, nofun⟩
    · rintro ⟨rfl, -⟩
      rfl
  | cons token rest ih =>
    unfold reading
    cases hread : readToken token with
    | none =>
      refine iff_of_false (fun h => by cases h) ?_
      rintro ⟨hall, -⟩
      cases hall with
      | cons htight _ =>
        rw [(readToken_iff token _).mpr htight] at hread
        cases hread
    | some p =>
      dsimp only
      have htight : p.Tight token := (readToken_iff token p).mp hread
      constructor
      · intro h
        by_cases hp : p.name ∈ offered
        · rw [if_pos hp] at h
          cases h
        · rw [if_neg hp, Prod.mk.injEq] at h
          obtain ⟨rfl, hcomplete⟩ := h
          obtain ⟨hall, hnodup, hfresh⟩ := (ih (p.name :: offered) _).mp (Prod.ext rfl hcomplete)
          refine ⟨.cons htight hall, ?_, ?_⟩
          · rw [List.map_cons, List.nodup_cons]
            refine ⟨fun hmem => ?_, hnodup⟩
            obtain ⟨q, hq, hname⟩ := List.mem_map.mp hmem
            exact hfresh q hq (hname ▸ List.mem_cons_self)
          · intro q hq
            rcases List.mem_cons.mp hq with rfl | hq
            · exact hp
            · exact fun hmem => hfresh q hq (List.mem_cons_of_mem _ hmem)
      · rintro ⟨hall, hnodup, hfresh⟩
        cases hall with
        | @cons q _ qs _ hq hqs =>
          obtain rfl : p = q := Option.some.inj (hread.symm.trans ((readToken_iff token q).mpr hq))
          rw [List.map_cons, List.nodup_cons] at hnodup
          have hrest := (ih (p.name :: offered) qs).mpr ⟨hqs, hnodup.2, fun r hr hmem => by
            rcases List.mem_cons.mp hmem with hname | hmem
            · exact hnodup.1 (hname ▸ List.mem_map_of_mem hr)
            · exact hfresh r (List.mem_cons_of_mem _ hr) hmem⟩
          rw [if_neg (hfresh p List.mem_cons_self), hrest]

/-- what the comparisons find one after the other, up to the parameter at which the element is declined -/
def found (offered : List ParameterName) : (entries : List (List UInt8 × Nat)) → List Parameter × Bool
  | [] => ([], true)
  | e :: rest =>
    match classify e.1 e.2 with
    | none => ([], false)
    | some p =>
      if p.name ∈ offered then ([], false)
      else (p :: (found (p.name :: offered) rest).1, (found (p.name :: offered) rest).2)

theorem fillParameters_found (n : Negotiation) (entries : List (List UInt8 × Nat)) (offered : List ParameterName)
    (hoffered : ∀ name, n.offered name = decide (name ∈ offered)) :
    fillParameters n entries = ((found offered entries).1.foldl Negotiation.apply n, (found offered entries).2) := by
  induction entries generalizing n offered with
  | nil => rfl
  | cons e entries ih =>
    obtain ⟨parameter, parameterLength⟩ := e
    unfold fillParameters found
    rw [fillParameter_eq]
    cases classify parameter parameterLength with
    | none => rfl
    | some p =>
      rw [Option.bind_some, hoffered]
      dsimp only
      by_cases hp : p.name ∈ offered
      · rw [decide_eq_true hp, if_pos rfl, if_pos hp]
        rfl
      · rw [decide_eq_false hp, if_neg (by decide), if_neg hp]
        refine ih (n.apply p) (p.name :: offered) fun name => ?_
        rw [Negotiation.offered_apply, hoffered, ← Bool.decide_or]
        refine decide_eq_decide.mpr ?_
        rw [List.mem_cons, Or.comm, eq_comm]

/-- where nothing goes on behind the element, it is what the tokens are -/
theorem found_reading {behind : List UInt8} (hbehind : Bounded behind) {tokens : List (List UInt8)}
    {entries : List (List UInt8 × Nat)} (h : List.Forall₂ (Entry behind) tokens entries)
    (offered : List ParameterName) :
    found offered entries = reading offered tokens := by
  induction h generalizing offered with
  | nil => rfl
  | @cons token e tokens entries he hrest ih =>
    unfold found reading
    rw [classify_eq he hbehind]
    cases readToken token with
    | none => rfl
    | some p =>
      dsimp only
      rw [ih]

/-- the element is one of the extension: only white space may be behind its name -/
def Named (element : List UInt8) : Prop :=
  solid (element.takeWhile (· ≠ semicolon)) = 18 ∧ (element.takeWhile (· ≠ semicolon)).take 18 = PERMESSAGE_DEFLATE

instance (element : List UInt8) : Decidable (Named element) := by
  unfold Named
  infer_instance

theorem named_memory (element behind : List UInt8) :
    0 + solid (element.takeWhile (· ≠ semicolon)) = 18 ∧ (element ++ behind).take 18 = PERMESSAGE_DEFLATE ↔
      Named element := by
  unfold Named
  rw [Nat.zero_add]
  refine and_congr_right fun hlen => ?_
  have hle : 18 ≤ (element.takeWhile (· ≠ semicolon)).length := hlen ▸ solid_le_length _
  have hsplit : element ++ behind
      = element.takeWhile (· ≠ semicolon) ++ (element.dropWhile (· ≠ semicolon) ++ behind) := by
    rw [← List.append_assoc, List.takeWhile_append_dropWhile]
  rw [hsplit, List.take_append_of_le_length hle]

/-- the settings where the loop over the parameters begins -/
def Negotiation.start (s : ExtensionCompression) : Negotiation := ⟨s, PERMESSAGE_DEFLATE, false, false, false, false⟩

/-- what an element does, whatever is behind it -/
theorem fillRequestedExtension_found {s : ExtensionCompression} (haccepted : s.accepted = false)
    (hlevel : s.compressionLevel ≠ 0) (element behind : List UInt8) :
    ∃ entries, List.Forall₂ (Entry behind) (tokensAfter element) entries ∧
      fillRequestedExtension s element behind =
        let n := (found [] entries).1.foldl Negotiation.apply (Negotiation.start s)
        if Named element ∧ (tokensAfter element).length < 5 then
          if (found [] entries).2 then acceptExtension n else { n.s with response := some n.response }
        else s := by
  obtain ⟨entries, hentries, hcuts⟩ :=
    splitLoop_cuts behind element.length element (Nat.le_refl _) (element ++ behind, 0) []
    (by decide)
  refine ⟨entries, hentries, ?_⟩
  have hstart : ¬(s.accepted = true ∨ s.compressionLevel = 0) := by
    rw [haccepted]
    rintro (h | h)
    · cases h
    · exact hlevel h
  unfold fillRequestedExtension
  rw [if_neg hstart, hcuts, List.length_nil, Nat.zero_add]
  by_cases hroom : (tokensAfter element).length < 5
  · rw [if_pos hroom]
    show (if 0 + solid (element.takeWhile (· ≠ semicolon)) = 18 ∧ (element ++ behind).take 18
      = PERMESSAGE_DEFLATE then _
      else s) = _
    by_cases hnamed : Named element
    · rw [if_pos ((named_memory element behind).mpr hnamed), if_pos ⟨hnamed, hroom⟩]
      have hfill := fillParameters_found (Negotiation.start s) entries [] fun name => by cases name <;> rfl
      rw [show fillParameters ⟨s, PERMESSAGE_DEFLATE, false, false, false, false⟩ entries = _ from hfill]
    · rw [if_neg fun h => hnamed ((named_memory element behind).mp h), if_neg fun h => hnamed h.1]
  · rw [if_neg hroom, if_neg fun h => hroom h.2]

/-- what an element does: the parameters up to the one at which it is declined are applied -/
theorem fillRequestedExtension_eq {s : ExtensionCompression} (haccepted : s.accepted = false)
    (hlevel : s.compressionLevel ≠ 0) (element : List UInt8) {behind : List UInt8} (hbehind : Bounded behind) :
    fillRequestedExtension s element behind =
      let n := (reading [] (tokensAfter element)).1.foldl Negotiation.apply (Negotiation.start s)
      if Named element ∧ (tokensAfter element).length < 5 then
        if (reading [] (tokensAfter element)).2 then acceptExtension n else { n.s with response := some n.response }
      else s := by
  obtain ⟨entries, hentries, heq⟩ := fillRequestedExtension_found haccepted hlevel element behind
  rw [heq, found_reading hbehind hentries]

end Websocket
end Cjet
