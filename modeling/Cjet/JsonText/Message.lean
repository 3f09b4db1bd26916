import Cjet.Io.Message
import Cjet.JsonText.RoundTrip

/-!
# The parser of the messages (`parse.c`, `json/cJSON.c`)

* `parse_language`          the texts that the parser takes for a value, exactly;
* `parse_container_ends`    an array or an object ends with its bracket, whatever follows;
* `cjson`                   the parser, as `parse_message` uses it.
-/

set_option linter.unusedVariables false

namespace Cjet.JsonText
open Stateful Prog

section
variable {N : Type} {strtod : Strtod N}

/-- a value that begins with a bracket -/
def Value.isContainer : Value N → Bool
  | .arr _ | .obj _ => true
  | _ => false

theorem Value.ne_num {v : Value N} (h : v.isContainer = true) : ¬ ∃ n, v = .num n := by
  rintro ⟨n, rfl⟩
  cases h

theorem readTextWith_false (text : List UInt8) : readTextWith strtod false text = readText strtod text := by
  unfold readTextWith
  cases readText strtod text with
  | none => rfl
  | some r => rfl

/-- With enough memory, the parser returns a value that is no number for the texts that begin with one, behind a byte
order mark and blanks, and it stops behind that value. -/
theorem parse_language (strtod : Strtod N) {granted : Nat → Bool} (hgranted : ∀ call, granted call = true)
    (memory : List UInt8) (calls : Nat) (heap : Ledger) {v : Value N} (hv : ¬ ∃ n, v = .num n) (n : Nat) :
    (∃ root item s, parseWithOpts strtod granted false memory calls heap = some ((some (root, item), n), s) ∧
        item.value = v) ↔
      ∃ lead token rest, cText memory = lead ++ (token ++ rest) ∧ Lead lead ∧ Text strtod nestingLimit token v ∧
        n = (lead ++ token).length := by
  obtain ⟨r, s, hrun, hread⟩ := parseWithOpts_read strtod hgranted false memory calls heap
  rw [readTextWith_false] at hread
  rw [← readText_iff hv n, ← hread, hrun, Option.map_eq_some_iff]
  constructor
  · rintro ⟨root, item, s', e, rfl⟩
    obtain ⟨rfl, rfl⟩ := Prod.mk.inj (Option.some.inj e)
    exact ⟨(root, item), rfl, rfl⟩
  · rintro ⟨⟨root, item⟩, hfound, e⟩
    obtain ⟨hvalue, hposition⟩ := Prod.mk.inj e
    refine ⟨root, item, s, ?_, hvalue⟩
    obtain ⟨found, position⟩ := r
    dsimp only at hfound hposition
    rw [hfound, hposition]

/-- the text `[1]` -/
theorem parse_language_array :
    ∃ root item s, parseWithOpts decimal (fun _ => true) false [0x5B, 0x31, 0x5D] 0 ⟨0, 0⟩
        = some ((some (root, item), 3), s) ∧ item.value = .arr [.num 1] := by
  have hone : NumberText decimal [0x31] 1 := ⟨by decide, List.forall_mem_singleton.mpr (by decide), by decide, by decide⟩
  have helements : Elements decimal 999 [0x31, 0x5D] [.num 1] :=
    Elements.last 999 [] [0x31] [] _ blank_nil (Text.number 999 _ 1 hone) blank_nil
  exact (parse_language decimal (fun _ => rfl) _ 0 ⟨0, 0⟩ (Value.ne_num rfl) 3).mpr
    ⟨[], [0x5B, 0x31, 0x5D], [], by decide, ⟨[], [], rfl, Or.inl rfl, blank_nil⟩,
      Text.array 999 _ _ helements, rfl⟩

/-! ## what stands behind a value -/

theorem take_cText {memory : List UInt8} {n : Nat} (h : n ≤ (cText memory).length) :
    memory.take n = (cText memory).take n := by
  obtain ⟨rest, hrest⟩ := List.takeWhile_prefix (p := fun c : UInt8 => c != 0) (l := memory)
  conv_lhs => rw [← hrest]
  exact List.take_append_of_le_length h

theorem readText_container_ends {memory : List UInt8} {v : Value N} {n : Nat}
    (h : readText strtod (cText memory) = some (v, n)) (hv : v.isContainer = true) (behind : List UInt8) :
    readText strtod (cText (memory.take n ++ behind)) = some (v, n) := by
  obtain ⟨lead, token, rest, htext, hlead, htoken, rfl⟩ := readText_sound h
  have htake : memory.take (lead ++ token).length = lead ++ token := by
    rw [take_cText (by rw [htext]; simp only [List.length_append]; omega), htext, ← List.append_assoc, List.take_left]
  have hzero : 0 ∉ lead ++ token := by
    intro hmem
    refine notMem_cText memory ?_
    rw [htext, ← List.append_assoc]
    exact List.mem_append_left rest hmem
  have happend : cText ((lead ++ token) ++ behind) = lead ++ (token ++ cText behind) := by
    have hall : ∀ c ∈ lead ++ token, (c != 0) = true := fun c hc => bne_iff_ne.mpr fun e => hzero (by rwa [e] at hc)
    unfold cText
    rw [List.takeWhile_append_of_pos hall, List.append_assoc]
  rw [htake, happend]
  exact readText_complete hlead htoken fun hnum => absurd hnum (Value.ne_num hv)

/-- An array or an object ends with its closing bracket: with other memory behind it, the same text gives the same value
and the same end. -/
theorem parse_container_ends (strtod : Strtod N) {granted granted' : Nat → Bool} {memory : List UInt8} {calls : Nat}
    {heap : Ledger} {root : Addr} {item : Item N} {n : Nat} {s : ParseBuffer}
    (h : parseWithOpts strtod granted false memory calls heap = some ((some (root, item), n), s))
    (hcontainer : item.value.isContainer = true) (hgranted : ∀ call, granted' call = true) (behind : List UInt8)
    (calls' : Nat) (heap' : Ledger) :
    ∃ root' item' s', parseWithOpts strtod granted' false (memory.take n ++ behind) calls' heap'
        = some ((some (root', item'), n), s') ∧ item'.value = item.value := by
  obtain ⟨r, t, hrun, -, hmatch⟩ := parseWithOpts_spec strtod granted false memory calls heap
  rw [h] at hrun
  obtain ⟨rfl, rfl⟩ := Prod.mk.inj (Option.some.inj hrun)
  obtain ⟨-, hread⟩ := hmatch
  rw [readTextWith_false] at hread
  have hends := readText_container_ends hread hcontainer behind
  obtain ⟨r, t, hrun', hread'⟩ := parseWithOpts_read strtod hgranted false (memory.take n ++ behind) calls' heap'
  rw [readTextWith_false, hends] at hread'
  obtain ⟨found, position⟩ := r
  obtain ⟨⟨root', item'⟩, hfound, e⟩ := Option.map_eq_some_iff.mp hread'
  obtain ⟨hvalue, hposition⟩ := Prod.mk.inj e
  dsimp only at hfound hposition
  rw [hfound, hposition] at hrun'
  exact ⟨root', item', t, hrun', hvalue⟩

/-- `[1]`, and then something else behind it -/
theorem parse_container_ends_array : ∃ root' item' s',
    parseWithOpts decimal (fun _ => true) false [0x5B, 0x31, 0x5D, 0x22] 0 ⟨0, 0⟩ = some ((some (root', item'), 3), s') ∧
      item'.value = .arr [.num 1] := by
  have hgranted : ∀ call, (fun _ : Nat => true) call = true := fun _ => rfl
  obtain ⟨r, s, hrun, hread⟩ := parseWithOpts_read decimal hgranted false [0x5B, 0x31, 0x5D] 0 ⟨0, 0⟩
  have hone : readTextWith decimal false (cText [0x5B, 0x31, 0x5D]) = some (.arr [.num 1], 3) := rfl
  obtain ⟨found, position⟩ := r
  obtain ⟨⟨root, item⟩, hfound, e⟩ := Option.map_eq_some_iff.mp (hread.trans hone)
  obtain ⟨hvalue, hposition⟩ := Prod.mk.inj e
  dsimp only at hfound hposition hvalue
  subst hfound hposition
  obtain ⟨root', item', s', hrun', hsame⟩ := parse_container_ends decimal hrun (by rw [hvalue]; rfl) hgranted
    [0x22] 0 ⟨0, 0⟩
  exact ⟨root', item', s', hrun', hsame.trans hvalue⟩

end

section
variable {N : Type}

/-! ## the values of the broker -/

mutual

/-- a value of the broker; `string` reads a string of C, and `number` the value of a `double` -/
def Value.json (string : List UInt8 → String) (number : N → Rat) : Value N → Json
  | .null => .null
  | .bool b => .bool b
  | .num n => .num (number n)
  | .str s => .str (string s)
  | .arr l => .arr (elementsJson string number l)
  | .obj l => .obj (membersJson string number l)

def elementsJson (string : List UInt8 → String) (number : N → Rat) : List (Value N) → List Json
  | [] => []
  | v :: l => v.json string number :: elementsJson string number l

def membersJson (string : List UInt8 → String) (number : N → Rat) : List (List UInt8 × Value N) → List (String × Json)
  | [] => []
  | (name, v) :: l => (string name, v.json string number) :: membersJson string number l

end

theorem isContainer_json (string : List UInt8 → String) (number : N → Rat) (v : Value N) :
    (v.json string number).isContainer = v.isContainer := by
  cases v <;> rfl

/-- the parser as `parse_message` uses it -/
def cjson (strtod : Strtod N) (string : List UInt8 → String) (number : N → Rat) : CJson where
  parseWithOpts memory := (readText strtod (cText memory)).map fun r => (r.1.json string number, r.2)
  container_ends memory root n h hroot behind := by
    obtain ⟨⟨v, n'⟩, hread, e⟩ := Option.map_eq_some_iff.mp h
    obtain ⟨rfl, rfl⟩ := Prod.mk.inj e
    rw [isContainer_json] at hroot
    rw [readText_container_ends hread hroot behind]
    rfl

/-- It is the parser, where there is enough memory. -/
theorem cjson_parseWithOpts (strtod : Strtod N) (string : List UInt8 → String) (number : N → Rat)
    {granted : Nat → Bool} (hgranted : ∀ call, granted call = true) (memory : List UInt8) (calls : Nat) (heap : Ledger) :
    ∃ r s, parseWithOpts strtod granted false memory calls heap = some (r, s) ∧
      (cjson strtod string number).parseWithOpts memory = r.1.map fun item => (item.2.value.json string number, r.2) := by
  obtain ⟨r, s, hrun, hread⟩ := parseWithOpts_read strtod hgranted false memory calls heap
  refine ⟨r, s, hrun, ?_⟩
  rw [readTextWith_false] at hread
  show (readText strtod (cText memory)).map (fun r => (r.1.json string number, r.2)) = _
  rw [← hread, Option.map_map]
  rfl

end

end Cjet.JsonText
