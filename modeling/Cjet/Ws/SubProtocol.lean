import Cjet.Lib.Block
import Cjet.Ws.Upgrade

/-!
# The sub-protocols of a request

* `findEnd`, `checkProtocols`   the two loops of `check_websocket_protocol`, with their pointers into the value;
* `checkProtocols_eq`           they read nothing else, end, and compare the parts that the handshake is about;
* `Trailing`                    white space behind an element, which is compared with the name as well;
* `subProtocol_found_iff`       the protocol is found as it should be where that makes no difference.
-/

set_option linter.unusedVariables false

namespace Cjet
open Stateful

namespace Websocket

section
variable {E : Type} (srv : Upgrader E) (value : List UInt8)

/-- `fill_requested_sub_protocol` with a pointer into the value -/
def fillRequestedSubProtocolAt (name length : Nat) : Prog (Handshake E) Unit := do
  let supported ← Prog.deref fun _ => srv.name
  if supported.length = length then
    let bytes ← Prog.deref fun _ => Block.load value name length
    Prog.update fun s => if supported = bytes then { s with found := true } else s
  else pure ()

/-- the inner loop of `check_websocket_protocol`; returns `start`, `end` and `length` -/
def findEnd (start : Nat) : (end' length : Nat) → Prog (Handshake E) (Nat × Nat × Nat)
  | end', 0 => pure (start, end', 0)
  | end', length + 1 => do
    let c ← Prog.deref fun _ => value[end']?
    if c = comma then
      fillRequestedSubProtocolAt srv value start (end' - start)
      return (end', end', length + 1)
    else findEnd start (end' + 1) length

/-- `check_websocket_protocol`; without a result where it has not ended after `fuel` iterations -/
def checkProtocols : (fuel start length : Nat) → Prog (Handshake E) Unit
  | _, _, 0 => pure ()
  | 0, _, _ + 1 => Prog.undefined
  | fuel + 1, start, length + 1 => do
    let c ← Prog.deref fun _ => value[start]?
    if !isspace c && c != comma then
      let (start, end', length) ← findEnd srv value start start (length + 1)
      if length = 0 then fillRequestedSubProtocolAt srv value start (end' - start) else pure ()
      checkProtocols fuel start length
    else checkProtocols fuel (start + 1) length

/-! ## the parts of the value -/

variable {value}

theorem fillRequestedSubProtocolAt_apply {start length : Nat} (h : start + length ≤ value.length) (s : Handshake E) :
    fillRequestedSubProtocolAt srv value start length s
      = fillRequestedSubProtocol srv ((value.drop start).take length) s := by
  have hbytes : Block.load value start length = some ((value.drop start).take length) :=
    Block.load_of_le h
  have hlen : ((value.drop start).take length).length = length := by
    rw [List.length_take, List.length_drop]
    omega
  unfold fillRequestedSubProtocolAt fillRequestedSubProtocol
  cases hname : srv.name with
  | none => rfl
  | some name =>
    rw [Prog.bind_of_some (Prog.deref_of_some (f := fun _ => some name) rfl),
      Prog.bind_of_some (Prog.deref_of_some (f := fun _ => some name) rfl)]
    by_cases hsame : name.length = length
    · rw [if_pos hsame, Prog.bind_of_some (Prog.deref_of_some (f := fun _ => Block.load value start length) hbytes)]
    · rw [if_neg hsame, Prog.update_apply, if_neg fun e => hsame (by rw [e, hlen])]
      rfl

/-- a comma ends the part, which is compared -/
theorem findEnd_comma {start : Nat} {token rest : List UInt8} (hno : comma ∉ token) {end' : Nat} (hstart : start ≤ end')
    (hvalue : value.drop end' = token ++ comma :: rest) (s : Handshake E) :
    findEnd srv value start end' (token ++ comma :: rest).length s
      = (do fillRequestedSubProtocolAt srv value start (end' + token.length - start)
            return (end' + token.length, end' + token.length, (comma :: rest).length) : Prog (Handshake E) _) s := by
  induction token generalizing end' with
  | nil =>
    have hc : value[end']? = some comma := by
      rw [← Nat.add_zero end', ← List.getElem?_drop, hvalue]
      rfl
    rw [List.nil_append, List.length_cons, findEnd,
      Prog.bind_of_some (Prog.deref_of_some (f := fun _ => value[end']?) hc), if_pos rfl]
    rfl
  | cons c token ih =>
    have hcne : c ≠ comma := fun e => hno (e ▸ List.mem_cons_self)
    have hc : value[end']? = some c := by
      rw [← Nat.add_zero end', ← List.getElem?_drop, hvalue]
      rfl
    have hnext : value.drop (end' + 1) = token ++ comma :: rest := by
      rw [← List.drop_drop, hvalue]
      rfl
    rw [List.cons_append, List.length_cons, findEnd,
      Prog.bind_of_some (Prog.deref_of_some (f := fun _ => value[end']?) hc), if_neg hcne,
      ih (fun hmem => hno (List.mem_cons_of_mem c hmem)) (by omega) hnext, List.length_cons,
      Nat.add_right_comm end' 1 token.length]
    rfl

/-- the last part goes on to the end of the value -/
theorem findEnd_last {start : Nat} {token : List UInt8} (hno : comma ∉ token) {end' : Nat}
    (hvalue : value.drop end' = token) (s : Handshake E) :
    findEnd srv value start end' token.length s = some ((start, end' + token.length, 0), s) := by
  induction token generalizing end' with
  | nil => rfl
  | cons c token ih =>
    have hcne : c ≠ comma := fun e => hno (e ▸ List.mem_cons_self)
    have hc : value[end']? = some c := by
      rw [← Nat.add_zero end', ← List.getElem?_drop, hvalue]
      rfl
    have hnext : value.drop (end' + 1) = token := by
      rw [← List.drop_drop, hvalue]
      rfl
    rw [List.length_cons, findEnd, Prog.bind_of_some (Prog.deref_of_some (f := fun _ => value[end']?) hc), if_neg hcne,
      ih (fun hmem => hno (List.mem_cons_of_mem c hmem)) hnext, Nat.add_right_comm end' 1 token.length]
    rfl

/-- The loops stay inside of the value, end after as many iterations as it has bytes, and compare its parts. -/
theorem checkProtocols_eq (fuel : Nat) {start : Nat} {rest : List UInt8} (hvalue : value.drop start = rest)
    (hfuel : rest.length ≤ fuel) (s : Handshake E) :
    checkProtocols srv value fuel start rest.length s = checkWebsocketProtocol srv rest s := by
  induction fuel generalizing start rest s with
  | zero =>
    obtain rfl := List.length_eq_zero_iff.mp (Nat.le_zero.mp hfuel)
    unfold checkWebsocketProtocol
    rw [protocolTokens_nil]
    rfl
  | succ fuel ih =>
    cases rest with
    | nil =>
      unfold checkWebsocketProtocol
      rw [protocolTokens_nil]
      rfl
    | cons c rest =>
      have hfuel : rest.length ≤ fuel := Nat.le_of_succ_le_succ hfuel
      have hc : value[start]? = some c := by
        rw [← Nat.add_zero start, ← List.getElem?_drop, hvalue]
        rfl
      have hend : start + (c :: rest).length = value.length := by
        have hlt := (List.getElem?_eq_some_iff.mp hc).1
        rw [← hvalue, List.length_drop]
        omega
      have hnext : value.drop (start + 1) = rest := by
        rw [← List.drop_drop, hvalue]
        rfl
      have hcond : (!isspace c && c != comma) = !(isspace c || c == comma) := (Bool.not_or _ _).symm
      unfold checkWebsocketProtocol
      rw [protocolTokens_cons, List.length_cons, checkProtocols,
        Prog.bind_of_some (Prog.deref_of_some (f := fun _ => value[start]?) hc), hcond]
      cases hskip : (isspace c || c == comma) with
      | true => exact ih hnext hfuel s
      | false =>
        have hcomma : c ≠ comma := fun e => by
          rw [e, Bool.or_eq_false_iff] at hskip
          exact absurd hskip.2 (by decide)
        rw [Bool.not_false, if_pos rfl, if_neg Bool.false_ne_true, Prog.each_cons]
        by_cases hmem : comma ∈ rest
        · -- the part ends at a comma, and the next iteration begins there
          obtain ⟨token, after, rfl, hno⟩ := List.eq_append_cons_of_mem hmem
          have hno' : comma ∉ c :: token := List.not_mem_cons_of_ne_of_not_mem hcomma.symm hno
          have hrest : value.drop (start + (c :: token).length) = comma :: after := by
            rw [← List.drop_drop, hvalue]
            exact List.drop_left' rfl
          have htake : (value.drop start).take (c :: token).length = c :: token := by
            rw [hvalue]
            exact List.take_left' rfl
          have hfits : start + (c :: token).length ≤ value.length := by
            rw [← hend]
            exact Nat.add_le_add_left (List.sublist_append_left (c :: token) (comma :: after)).length_le start
          have hleft : (comma :: after).length ≤ fuel := by
            rw [List.length_append] at hfuel
            omega
          rw [show (c :: (token ++ comma :: after)).takeWhile (· ≠ comma) = c :: token from
              Text.takeWhile_append_of_notMem hno' after, Text.dropWhile_of_notMem hno]
          rw [Prog.bind_apply, show (token ++ comma :: after).length + 1
            = (c :: token ++ comma :: after).length from rfl,
            findEnd_comma srv hno' (Nat.le_refl start) hvalue, Prog.bind_apply, Nat.add_sub_cancel_left,
            fillRequestedSubProtocolAt_apply srv hfits, htake, Prog.bind_apply]
          cases fillRequestedSubProtocol srv (c :: token) s with
          | none => rfl
          | some r =>
            show checkProtocols srv value fuel (start + (c :: token).length) (comma :: after).length r.2 = _
            rw [ih hrest hleft r.2]
            rfl
        · have hno : comma ∉ c :: rest := List.not_mem_cons_of_ne_of_not_mem hcomma.symm hmem
          have hnil : rest.dropWhile (· ≠ comma) = [] :=
            List.dropWhile_eq_nil_iff.mpr fun x hx => decide_eq_true fun e => hmem (e ▸ hx)
          have htake : (value.drop start).take (c :: rest).length = c :: rest := by
            rw [hvalue]
            exact List.take_length
          rw [Text.takeWhile_of_notMem hno, hnil, protocolTokens_nil, Prog.each_nil]
          rw [show rest.length + 1 = (c :: rest).length from rfl, Prog.bind_of_some (findEnd_last srv hno hvalue s)]
          show (do fillRequestedSubProtocolAt srv value start (start + (c :: rest).length - start)
                   checkProtocols srv value fuel start 0 : Prog (Handshake E) Unit) s = _
          rw [Prog.bind_apply, Nat.add_sub_cancel_left, fillRequestedSubProtocolAt_apply srv (Nat.le_of_eq hend), htake,
            Prog.bind_apply]
          cases fillRequestedSubProtocol srv (c :: rest) s with
          | none => rfl
          | some r =>
            show checkProtocols srv value fuel start 0 r.2 = _
            rw [checkProtocols]
            rfl

/-! ## white space -/

/-- white space behind an element -/
def Trailing (element : List UInt8) : Prop := element.getLast?.any isspace = true

/-- the last character of an element that is not blank -/
theorem getLast?_dropWhile {element : List UInt8} (h : element.dropWhile isspace ≠ []) :
    element.getLast? = (element.dropWhile isspace).getLast? := by
  conv_lhs => rw [← List.takeWhile_append_dropWhile (p := isspace) (l := element)]
  exact List.getLast?_append_of_ne_nil _ h

/-- What is compared is the name exactly for an element that is the name and has no white space behind it. -/
theorem dropWhile_eq_iff {name : List UInt8} (hname : name ≠ []) (hsolid : ∀ c ∈ name, isspace c = false)
    (element : List UInt8) : element.dropWhile isspace = name ↔ strip element = name ∧ ¬Trailing element := by
  unfold strip Trailing
  constructor
  · rintro rfl
    have hlast := List.getLast_mem hname
    have hspace := hsolid _ hlast
    refine ⟨List.rdropWhile_eq_self_iff.mpr fun _ => by rw [hspace]; decide, ?_⟩
    rw [getLast?_dropWhile hname, List.getLast?_eq_some_getLast hname, Option.any_some, hspace]
    decide
  · rintro ⟨hstrip, htrailing⟩
    rw [← hstrip]
    refine (List.rdropWhile_eq_self_iff.mpr fun hne hspace => htrailing ?_).symm
    rw [getLast?_dropWhile hne, List.getLast?_eq_some_getLast hne]
    exact hspace

/-- The loops read nothing behind the value and end, and the protocol is found exactly if an element is the name, as long
as not all of these elements have white space behind them. -/
theorem subProtocol_found_iff {name : List UInt8} (hname : srv.name = some name)
    (hsolid : ∀ c ∈ name, isspace c = false ∧ c ≠ comma) (value : List UInt8) (s : Handshake E) (fuel : Nat)
    (hfuel : value.length ≤ fuel) :
    ∃ t, checkProtocols srv value fuel 0 value.length s = some ((), t) ∧
      ((t.found = true ↔ s.found = true ∨ ∃ element ∈ value.splitOn comma, strip element = name) ↔
        s.found = true ∨ ((∃ element ∈ value.splitOn comma, strip element = name) →
          name ≠ [] ∧ ∃ element ∈ value.splitOn comma, strip element = name ∧ ¬Trailing element)) := by
  refine ⟨{ s with found := s.found || decide (name ∈ protocolTokens value) }, ?_, ?_⟩
  · rw [checkProtocols_eq srv fuel (List.drop_zero (l := value)) hfuel]
    exact each_fill hname (protocolTokens value) s
  have htokens : name ∈ protocolTokens value ↔
      name ≠ [] ∧ ∃ element ∈ value.splitOn comma, strip element = name ∧ ¬Trailing element := by
    rw [mem_protocolTokens]
    exact and_congr_right fun hne => exists_congr fun element => and_congr_right fun _ =>
      dropWhile_eq_iff hne (fun c hc => (hsolid c hc).1) element
  show ((s.found || decide (name ∈ protocolTokens value)) = true ↔ _) ↔ _
  rw [Bool.or_eq_true, decide_eq_true_iff, htokens]
  have hweaker : (name ≠ [] ∧ ∃ element ∈ value.splitOn comma, strip element = name ∧ ¬Trailing element) →
      ∃ element ∈ value.splitOn comma, strip element = name := by
    rintro ⟨-, element, helement, hstrip, -⟩
    exact ⟨element, helement, hstrip⟩
  constructor
  · intro h
    by_cases hfound : s.found = true
    · exact Or.inl hfound
    · refine Or.inr fun hoffered => ?_
      exact (h.mpr (Or.inr hoffered)).resolve_left hfound
  · rintro (hfound | h)
    · exact iff_of_true (Or.inl hfound) (Or.inl hfound)
    · exact or_congr_right ⟨hweaker, h⟩

/-- a server with a protocol, and nothing else that counts here -/
def plainServer (name : List UInt8) : Upgrader Unit where
  name := some name
  init := ()
  checkWebsocketExtensions := fun _ _ => ()
  extension := fun _ => none
  sha1 := fun _ => Vector.replicate 20 0
  writes := true

theorem solid_jet : ∀ c ∈ ascii "jet", isspace c = false ∧ c ≠ comma := by
  show ∀ c ∈ [106, 101, 116], isspace c = false ∧ c ≠ comma
  rw [List.forall_mem_cons, List.forall_mem_cons, List.forall_mem_singleton]
  exact ⟨by decide, by decide, by decide⟩

theorem subProtocol_found_second :
    ∃ t, checkProtocols (plainServer (ascii "jet")) (ascii "chat, jet") 9 0 9 (plainServer (ascii "jet")).start = some ((), t) ∧
      ((t.found = true ↔ (plainServer (ascii "jet")).start.found = true ∨
          ∃ element ∈ (ascii "chat, jet").splitOn comma, strip element = ascii "jet") ↔
        (plainServer (ascii "jet")).start.found = true ∨
          ((∃ element ∈ (ascii "chat, jet").splitOn comma, strip element = ascii "jet") →
            ascii "jet" ≠ [] ∧ ∃ element ∈ (ascii "chat, jet").splitOn comma, strip element = ascii "jet" ∧
              ¬Trailing element)) :=
  subProtocol_found_iff (plainServer (ascii "jet")) rfl solid_jet (ascii "chat, jet")
    (plainServer (ascii "jet")).start 9 (by decide)

/-- The name with a blank in front of the comma is not found. -/
theorem trailing_blank_not_found :
    ∃ t, checkProtocols (plainServer (ascii "jet")) (ascii "jet , chat") 10 0 10 (plainServer (ascii "jet")).start
        = some ((), t) ∧
      ¬(t.found = true ↔ (plainServer (ascii "jet")).start.found = true ∨
        ∃ element ∈ (ascii "jet , chat").splitOn comma, strip element = ascii "jet") := by
  refine ⟨(plainServer (ascii "jet")).start, rfl, ?_⟩
  intro h
  have hfound := h.mpr (Or.inr ⟨ascii "jet ", by decide, by decide⟩)
  cases hfound

end

end Websocket
end Cjet
