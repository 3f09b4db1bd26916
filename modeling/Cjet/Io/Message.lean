import Cjet.Model.Parse
import Mathlib.Data.List.TakeWhile

/-!
# The bytes of a message (`parse.c`)

A message is handed to cJSON as a pointer into the receive buffer.  cJSON reads up to the first zero byte,
wherever it stands; the length of the message is only compared with what has been parsed, in a check that
`CONFIG_CHECK_JSON_LENGTH` leaves out.

* `CJson`, `parseMessageText`          the code;
* `MessageIsolated`                    what stands behind a message makes no difference;
* `Rejects`, `Json.IsRefused`          the values that are dealt with like a text that is no JSON;
* `message_isolated_checked`, `message_isolated_bounds`   with the check, and as the code is configured.
-/

set_option linter.unusedVariables false
set_option linter.unusedSectionVars false

namespace Cjet
open Stateful

/-- the text at a pointer: the memory up to the first zero byte, or up to the end of the list, where one stands -/
def cString (memory : List UInt8) : List UInt8 := memory.takeWhile (· != 0)

/-- the type is `cJSON_Array` or `cJSON_Object` -/
def Json.isContainer : Json → Bool
  | .arr _ | .obj _ => true
  | _ => false

/-- `cJSON_ParseWithOpts` as a function of the text: the value and the number of bytes before `end_parse`.
An array or an object ends with its closing bracket, whatever follows. -/
structure CJson where
  parseWithOpts : List UInt8 → Option (Json × Nat)
  container_ends : ∀ text root n, parseWithOpts text = some (root, n) → root.isContainer = true →
    ∀ rest, parseWithOpts (text.take n ++ rest) = some (root, n)

/-- `CONFIG_CHECK_JSON_LENGTH` -/
def configCheckJsonLength : Bool := false

/-- `parse_message(msg, length, p)`; `memory` starts at `msg` -/
def parseMessageText {T : Type} [HashTable T] (env : Env) (cjson : CJson) (checkJsonLength : Bool)
    (memory : List UInt8) (length : Nat) (p : Addr) : Prog (Broker T) Bool :=
  match cjson.parseWithOpts (cString memory) with
  | none => pure false
  | some (root, parsedLength) =>
    if checkJsonLength = true ∧ parsedLength ≠ length then pure false
    else parseMessage env p root

/-- the state without the two ghost counters -/
def Broker.observed {T : Type} (b : Broker T) : Broker T := { b with calls := 0, received := 0 }

/-- the result of a message with the state after it, which holds the messages sent -/
def seen {T : Type} (r : Option (Bool × Broker T)) : Option (Bool × Broker T) :=
  r.map fun r => (r.1, r.2.observed)

section
variable {T : Type} [HashTable T] (cjson : CJson) (platform : Platform) (b : Broker T) (p : Addr)

/-- whatever the calls give, the result does not depend on the memory behind the message -/
def MessageIsolated (checkJsonLength : Bool) (msg : List UInt8) : Prop :=
  ∀ outcomes behind behind',
    seen (parseMessageText ⟨platform, outcomes⟩ cjson checkJsonLength (msg ++ behind) msg.length p b)
      = seen (parseMessageText ⟨platform, outcomes⟩ cjson checkJsonLength (msg ++ behind') msg.length p b)

/-- The value is rejected like a text that is no JSON: the result is negative, nothing is sent and nothing
changes. -/
def Rejects (root : Json) : Prop :=
  ∀ outcomes, seen (parseMessage ⟨platform, outcomes⟩ p root b) = some (false, b.observed)

end

/-! ## the text -/

theorem cString_append_of_mem {msg : List UInt8} (h : 0 ∈ msg) (behind : List UInt8) :
    cString (msg ++ behind) = cString msg := by
  induction msg with
  | nil => cases h
  | cons c msg ih =>
    unfold cString at ih ⊢
    rw [List.cons_append, List.takeWhile_cons, List.takeWhile_cons]
    by_cases hc : c = 0
    · subst hc
      rfl
    · have hmsg : 0 ∈ msg := (List.mem_cons.mp h).resolve_left fun e => hc e.symm
      rw [ih hmsg]

theorem cString_of_notMem {text : List UInt8} (h : 0 ∉ text) : cString text = text := by
  unfold cString
  refine List.takeWhile_eq_self_iff.mpr fun c hc => bne_iff_ne.mpr fun e => ?_
  rw [e] at hc
  exact h hc

theorem notMem_cString (memory : List UInt8) : 0 ∉ cString memory := by
  intro h
  have := List.mem_takeWhile_imp h
  simp at this

theorem cString_append {msg : List UInt8} (h : 0 ∉ msg) (behind : List UInt8) :
    cString (msg ++ behind) = msg ++ cString behind := by
  unfold cString
  rw [List.takeWhile_append_of_pos]
  intro c hc
  refine bne_iff_ne.mpr fun e => ?_
  rw [e] at hc
  exact h hc

/-! ## the value -/

section
variable {T : Type} [HashTable T] {cjson : CJson} {platform : Platform} {b : Broker T} {p : Addr}

theorem parseMessageText_congr (env : Env) (checkJsonLength : Bool) {memory memory' : List UInt8} (length : Nat)
    (h : cjson.parseWithOpts (cString memory) = cjson.parseWithOpts (cString memory')) :
    parseMessageText (T := T) env cjson checkJsonLength memory length p
      = parseMessageText env cjson checkJsonLength memory' length p := by
  unfold parseMessageText
  rw [h]

theorem rejects_scalar {root : Json} (h : root.isContainer = false) : Rejects platform b p root := by
  intro outcomes
  cases root with
  | arr l => cases h
  | obj members => cases h
  | _ => rfl

/-- A message that is a whole array or object is read the same whatever follows. -/
theorem parse_append {msg : List UInt8} {root : Json} {n : Nat} (h : cjson.parseWithOpts msg = some (root, n))
    (hroot : root.isContainer = true) (rest : List UInt8) : cjson.parseWithOpts (msg ++ rest) = some (root, n) := by
  have h1 := cjson.container_ends msg root n h hroot (msg.drop n ++ rest)
  rw [← List.append_assoc, List.take_append_drop] at h1
  exact h1

/-- An array or object that a message begins and the memory behind it completes, with the length of the
message, is a whole one. -/
theorem parse_of_length {msg rest : List UInt8} {root : Json}
    (h : cjson.parseWithOpts (msg ++ rest) = some (root, msg.length)) (hroot : root.isContainer = true) :
    cjson.parseWithOpts msg = some (root, msg.length) := by
  have h1 := cjson.container_ends _ root _ h hroot []
  rw [List.take_left, List.append_nil] at h1
  exact h1

/-- the result of a message that is not a whole array or object, without the memory behind it -/
theorem seen_of_no_container {msg : List UInt8} (hmsg : 0 ∉ msg)
    (h : ∀ root n, cjson.parseWithOpts msg = some (root, n) → root.isContainer = false)
    (outcomes : Outcomes) (checkJsonLength : Bool) (length : Nat) :
    seen (parseMessageText ⟨platform, outcomes⟩ cjson checkJsonLength (msg ++ []) length p b)
      = some (false, b.observed) := by
  unfold parseMessageText
  rw [List.append_nil, cString_of_notMem hmsg]
  cases hp : cjson.parseWithOpts msg with
  | none => rfl
  | some r =>
    obtain ⟨root, n⟩ := r
    dsimp only
    split
    · rfl
    · exact rejects_scalar (h root n hp) outcomes

end

/-! ## what is rejected -/

/-- neither a request nor an answer with an id that is a string -/
def Json.IsStray (request : Json) : Prop :=
  request.getObjectItem "method" = none ∧
    ((request.getObjectItem "result").isSome = true ∨ (request.getObjectItem "error").isSome = true) ∧
    ∀ id, request.getObjectItem "id" ≠ some (.str id)

/-- the loop over the items of a message ends at it -/
def Json.IsRefusedItem (item : Json) : Prop := (∀ members, item ≠ .obj members) ∨ item.IsStray

/-- The broker refuses the value before it has dealt with any request. -/
def Json.IsRefused : Json → Prop
  | .arr l => ∃ item rest, l = item :: rest ∧ item.IsRefusedItem
  | root => root.IsRefusedItem

/-- It refuses the value, perhaps after it has dealt with the first requests in it. -/
def Json.HoldsRefused : Json → Prop
  | .arr l => ∃ item ∈ l, item.IsRefusedItem
  | root => root.IsRefusedItem

/-- every call succeeds -/
def Env.AllOk (env : Env) : Prop := ∀ c n, env.ok c n = true

section
variable {T : Type} [HashTable T] {env : Env} {p : Addr} {b b' : Broker T}

theorem Env.AllOk.allocOk (h : env.AllOk) : env.AllocOk := fun c n _ => h c n

theorem formatAndSendResponse_true (henv : env.AllOk) {about : About} {response : Json} {ok : Bool}
    (h : formatAndSendResponse env p about response b = some (ok, b')) : ok = true := by
  obtain ⟨rendered, b1, h1, h2⟩ := Prog.bind_some h
  obtain ⟨e1, -⟩ := allocating_some h1
  rw [Alloc.printUnformatted_ok env henv.allocOk] at e1
  subst e1
  obtain ⟨-, hok, -⟩ := sendMessage_some h2
  rw [hok]
  exact henv _ _

theorem sendResponse_true (henv : env.AllOk) {response : Option Json} {ok : Bool}
    (h : sendResponse env p response b = some (ok, b')) : ok = true := by
  cases response with
  | none =>
    cases h
    rfl
  | some response =>
    obtain ⟨received, b1, -, h2⟩ := Prog.bind_some h
    exact formatAndSendResponse_true henv h2

theorem answerRequest_true (henv : env.AllOk) {request method : Json} {ok : Bool}
    (h : answerRequest env p request method b = some (ok, b')) : ok = true := by
  unfold answerRequest at h
  split at h
  · obtain ⟨response, b1, -, h2⟩ := Prog.bind_some h
    exact sendResponse_true henv h2
  · obtain ⟨response, b1, -, h2⟩ := Prog.bind_some h
    exact sendResponse_true henv h2

theorem forwardResponse_true (henv : env.AllOk) {request : RoutingRequest} {response : Json} {resultType : String}
    {ok : Bool} (h : forwardResponse env request response resultType b = some (ok, b')) : ok = true := by
  unfold forwardResponse at h
  cases hid : request.originRequestId with
  | none =>
    rw [hid] at h
    cases h
    rfl
  | some id =>
    rw [hid] at h
    obtain ⟨copy, b1, h1, h2⟩ := Prog.bind_some h
    obtain ⟨e1, -⟩ := allocating_some h1
    rw [Alloc.duplicate_ok env henv.allocOk] at e1
    subst e1
    obtain ⟨result, b2, -, h3⟩ := Prog.bind_some h2
    cases result with
    | none => cases h3
    | some result =>
      obtain ⟨sent, b3, -, h4⟩ := Prog.bind_some h3
      cases h4
      rfl

theorem handleRoutingResponse_false (henv : env.AllOk) {jsonRpc response : Json} {resultType : String}
    (h : handleRoutingResponse env jsonRpc response resultType p b = some (false, b')) :
    ∀ id, jsonRpc.getObjectItem "id" ≠ some (.str id) := by
  intro id hid
  unfold handleRoutingResponse at h
  rw [hid] at h
  obtain ⟨entry, b1, -, h2⟩ := Prog.bind_some h
  cases entry with
  | none => cases h2
  | some r =>
    obtain ⟨request, b2, -, h3⟩ := Prog.bind_some h2
    obtain ⟨cancelled, b3, -, h4⟩ := Prog.bind_some h3
    obtain ⟨_, b4, -, h5⟩ := Prog.bind_some h4
    obtain ⟨ok, b5, h6, h7⟩ := Prog.bind_some h5
    obtain ⟨_, b6, -, h8⟩ := Prog.bind_some h7
    have hok : ok = true := forwardResponse_true henv h6
    rw [hok] at h8
    cases h8

theorem handleRoutingResponse_stray (env : Env) {jsonRpc : Json} (response : Json) (resultType : String)
    (h : ∀ id, jsonRpc.getObjectItem "id" ≠ some (.str id)) :
    handleRoutingResponse env jsonRpc response resultType p b = some (false, b) := by
  unfold handleRoutingResponse
  cases hid : jsonRpc.getObjectItem "id" with
  | none => rfl
  | some id =>
    cases id with
    | str id => exact absurd hid (h id)
    | _ => rfl

/-- With every call succeeding only a stray object has a negative result. -/
theorem parseJsonRpc_false (henv : env.AllOk) {request : Json}
    (h : parseJsonRpc env p request b = some (false, b')) : request.IsStray := by
  unfold parseJsonRpc at h
  cases hmethod : request.getObjectItem "method" with
  | some method =>
    rw [hmethod] at h
    exact absurd (answerRequest_true henv h) (by decide)
  | none =>
    rw [hmethod] at h
    cases hresult : request.getObjectItem "result" with
    | some result =>
      rw [hresult] at h
      exact ⟨hmethod, .inl (by rw [hresult]; rfl), handleRoutingResponse_false henv h⟩
    | none =>
      rw [hresult] at h
      cases herror : request.getObjectItem "error" with
      | some error =>
        rw [herror] at h
        exact ⟨hmethod, .inr (by rw [herror]; rfl), handleRoutingResponse_false henv h⟩
      | none =>
        rw [herror] at h
        obtain ⟨response, b1, -, h2⟩ := Prog.bind_some h
        exact absurd (sendResponse_true henv h2) (by decide)

theorem parseJsonRpc_stray (env : Env) {request : Json} (h : request.IsStray) :
    parseJsonRpc env p request b = some (false, b) := by
  obtain ⟨hmethod, hanswer, hid⟩ := h
  unfold parseJsonRpc
  rw [hmethod]
  cases hresult : request.getObjectItem "result" with
  | some result => exact handleRoutingResponse_stray env result "result" hid
  | none =>
    cases herror : request.getObjectItem "error" with
    | some error => exact handleRoutingResponse_stray env error "error" hid
    | none =>
      rw [hresult, herror] at hanswer
      rcases hanswer with h | h
      · cases h
      · cases h

theorem receiveObject_stray (env : Env) {request : Json} (h : request.IsStray) :
    receiveObject env p request b = some (false, { b with received := b.received + 1 }) := by
  unfold receiveObject
  rw [Prog.bind_of_some (parseJsonRpc_stray env h)]
  rfl

theorem receiveObject_false (henv : env.AllOk) {request : Json}
    (h : receiveObject env p request b = some (false, b')) : request.IsStray := by
  obtain ⟨ok, b1, h1, h2⟩ := Prog.bind_some h
  obtain ⟨_, b2, -, h3⟩ := Prog.bind_some h2
  cases h3
  exact parseJsonRpc_false henv h1

/-- the result of an array of objects, none of them stray -/
theorem parseJsonArray_true (henv : env.AllOk) {l : List Json} {ok : Bool}
    (hl : ∀ j ∈ l, ∃ members, j = .obj members ∧ ¬ j.IsStray)
    (h : parseJsonArray env p l b = some (ok, b')) : ok = true := by
  induction l generalizing b with
  | nil =>
    cases h
    rfl
  | cons j l ih =>
    obtain ⟨members, hj, hstray⟩ := hl j List.mem_cons_self
    subst hj
    obtain ⟨ret, b1, h1, h2⟩ := Prog.bind_some h
    cases ret with
    | false => exact absurd (receiveObject_false henv h1) hstray
    | true => exact ih (fun j hj => hl j (List.mem_cons_of_mem _ hj)) h2

end

section
variable {T : Type} [HashTable T] {platform : Platform} {b : Broker T} {p : Addr}

theorem allOk_good (platform : Platform) : Env.AllOk ⟨platform, Outcomes.good⟩ := fun _ _ => rfl

/-- a rejected value has a negative result also when every call succeeds -/
theorem Rejects.good {root : Json} (h : Rejects platform b p root) :
    ∃ b', parseMessage ⟨platform, Outcomes.good⟩ p root b = some (false, b') := by
  obtain ⟨⟨ok, b'⟩, h1, h2⟩ := Option.map_eq_some_iff.mp (h Outcomes.good)
  have hok : ok = false := congrArg Prod.fst h2
  rw [hok] at h1
  exact ⟨b', h1⟩

/-- of the objects, the stray ones are rejected, in any state -/
theorem rejects_obj_iff (members : List (String × Json)) :
    Rejects platform b p (.obj members) ↔ (Json.obj members).IsStray := by
  constructor
  · intro h
    obtain ⟨b', h1⟩ := h.good
    exact receiveObject_false (allOk_good platform) h1
  · intro h outcomes
    show seen (receiveObject _ p (.obj members) b) = _
    rw [receiveObject_stray _ h]
    rfl

/-- of the arrays, those that begin with an item at which the loop ends -/
theorem rejects_arr {item : Json} (h : item.IsRefusedItem) (rest : List Json) :
    Rejects platform b p (.arr (item :: rest)) := by
  intro outcomes
  cases item with
  | obj members =>
    rcases h with h | h
    · exact absurd rfl (h members)
    · show seen ((receiveObject _ p (.obj members) >>= _) b) = _
      rw [Prog.bind_of_some (receiveObject_stray _ h)]
      rfl
  | _ => rfl

/-- none that holds only objects which are not stray -/
theorem not_rejects_arr {l : List Json} (hl : ∀ j ∈ l, ∃ members, j = .obj members ∧ ¬ j.IsStray) :
    ¬ Rejects platform b p (.arr l) := by
  intro h
  obtain ⟨b', h1⟩ := h.good
  exact absurd (parseJsonArray_true (allOk_good platform) hl h1) (by decide)

theorem rejects_of_isRefused {root : Json} (h : root.IsRefused) : Rejects platform b p root := by
  cases root with
  | arr l =>
    obtain ⟨item, rest, rfl, hitem⟩ := h
    exact rejects_arr hitem rest
  | obj members =>
    rcases h with h | h
    · exact absurd rfl (h members)
    · exact (rejects_obj_iff members).mpr h
  | _ => exact rejects_scalar rfl

theorem holdsRefused_of_rejects {root : Json} (h : Rejects platform b p root) : root.HoldsRefused := by
  cases root with
  | arr l =>
    by_contra hno
    refine not_rejects_arr (fun j hj => ?_) h
    have hitem : ¬ j.IsRefusedItem := fun hitem => hno ⟨j, hj, hitem⟩
    unfold Json.IsRefusedItem at hitem
    rw [not_or, not_forall_not] at hitem
    exact ⟨hitem.1.choose, hitem.1.choose_spec, hitem.2⟩
  | obj members => exact Or.inr ((rejects_obj_iff members).mp h)
  | _ => exact Or.inl fun members e => by cases e

end

section
variable {T : Type} [HashTable T] {cjson : CJson} {platform : Platform} {b : Broker T} {p : Addr}

/-! ## isolation -/

variable {checkJsonLength : Bool} {msg : List UInt8}

/-- what cJSON finds does not depend on the memory behind the message -/
theorem isolated_of_parse
    (h : ∀ behind behind', cjson.parseWithOpts (cString (msg ++ behind))
      = cjson.parseWithOpts (cString (msg ++ behind'))) :
    MessageIsolated cjson platform b p checkJsonLength msg := by
  intro outcomes behind behind'
  rw [parseMessageText_congr _ _ _ (h behind behind')]

theorem isolated_of_zero (hmsg : 0 ∈ msg) : MessageIsolated cjson platform b p checkJsonLength msg := by
  refine isolated_of_parse fun behind behind' => ?_
  rw [cString_append_of_mem hmsg behind, cString_append_of_mem hmsg behind']

theorem isolated_of_whole {root : Json} {n : Nat} (hmsg : 0 ∉ msg) (h : cjson.parseWithOpts msg = some (root, n))
    (hroot : root.isContainer = true) : MessageIsolated cjson platform b p checkJsonLength msg := by
  refine isolated_of_parse fun behind behind' => ?_
  rw [cString_append hmsg behind, cString_append hmsg behind', parse_append h hroot, parse_append h hroot]

/-- every continuation of the message is rejected -/
theorem isolated_of_rejected
    (h : ∀ outcomes behind,
      seen (parseMessageText ⟨platform, outcomes⟩ cjson checkJsonLength (msg ++ behind) msg.length p b)
        = some (false, b.observed)) : MessageIsolated cjson platform b p checkJsonLength msg := by
  intro outcomes behind behind'
  rw [h, h]

end

section
variable {T : Type} [HashTable T] (cjson : CJson) (platform : Platform) (b : Broker T) (p : Addr) (msg : List UInt8)

/-- With the check, the memory behind a message makes no difference: what it completes is too long. -/
theorem message_isolated_checked : MessageIsolated cjson platform b p true msg := by
  by_cases hmsg : 0 ∈ msg
  · exact isolated_of_zero hmsg
  by_cases hwhole : ∃ root, cjson.parseWithOpts msg = some (root, msg.length) ∧ root.isContainer = true
  · obtain ⟨root, h, hroot⟩ := hwhole
    exact isolated_of_whole hmsg h hroot
  refine isolated_of_rejected fun outcomes behind => ?_
  unfold parseMessageText
  rw [cString_append hmsg]
  cases hp : cjson.parseWithOpts (msg ++ cString behind) with
  | none => rfl
  | some r =>
    obtain ⟨root, n⟩ := r
    dsimp only
    by_cases hn : n = msg.length
    · subst hn
      have hroot : root.isContainer = false := by
        by_contra hc
        have hc : root.isContainer = true := by simpa using hc
        exact hwhole ⟨root, parse_of_length hp hc, hc⟩
      rw [if_neg fun h => h.2 rfl]
      exact rejects_scalar hroot outcomes
    · rw [if_pos ⟨rfl, hn⟩]
      rfl

/-- its own bytes begin with a whole array or object -/
def BeginsWhole : Prop := ∃ root n, cjson.parseWithOpts msg = some (root, n) ∧ root.isContainer = true

/-- whatever follows the message, the value that cJSON finds there, if any, is such a one -/
def Completed (c : Json → Prop) : Prop :=
  ∀ rest root n, 0 ∉ rest → cjson.parseWithOpts (msg ++ rest) = some (root, n) → c root

/-- the values that may be found have the result of a text that is no JSON -/
theorem isolated_iff_rejects : MessageIsolated cjson platform b p configCheckJsonLength msg ↔
    0 ∈ msg ∨ BeginsWhole cjson msg ∨ Completed cjson msg (Rejects platform b p) := by
  by_cases hmsg : 0 ∈ msg
  · exact ⟨fun _ => .inl hmsg, fun _ => isolated_of_zero hmsg⟩
  constructor
  · intro h
    by_cases hwhole : ∃ root n, cjson.parseWithOpts msg = some (root, n) ∧ root.isContainer = true
    · exact .inr (.inl hwhole)
    refine .inr (.inr fun rest root n hrest hp outcomes => ?_)
    have hscalar : ∀ root n, cjson.parseWithOpts msg = some (root, n) → root.isContainer = false := by
      intro root n hp
      by_contra hc
      exact hwhole ⟨root, n, hp, by simpa using hc⟩
    have htext : cString (msg ++ rest) = msg ++ rest := by
      rw [cString_append hmsg, cString_of_notMem hrest]
    have hread : parseMessageText (T := T) ⟨platform, outcomes⟩ cjson configCheckJsonLength (msg ++ rest) msg.length p
        = parseMessage ⟨platform, outcomes⟩ p root := by
      unfold parseMessageText
      rw [htext, hp]
      rfl
    rw [← hread, h outcomes rest []]
    exact seen_of_no_container hmsg hscalar outcomes _ _
  · rintro (h | ⟨root, n, h, hroot⟩ | hrej)
    · exact isolated_of_zero h
    · exact isolated_of_whole hmsg h hroot
    · refine isolated_of_rejected fun outcomes behind => ?_
      unfold parseMessageText
      rw [cString_append hmsg]
      cases hp : cjson.parseWithOpts (msg ++ cString behind) with
      | none => rfl
      | some r => exact hrej _ r.1 r.2 (notMem_cString behind) hp outcomes

/-- A message is independent of the memory behind it where it contains a zero byte, or begins with a whole array or
object, or no continuation makes it a value that the broker does not refuse at once.  Otherwise it is not, unless every
continuation makes it a value that the broker refuses later on. -/
theorem message_isolated_bounds :
    (0 ∈ msg ∨ BeginsWhole cjson msg ∨ Completed cjson msg Json.IsRefused →
        MessageIsolated cjson platform b p configCheckJsonLength msg) ∧
      (MessageIsolated cjson platform b p configCheckJsonLength msg →
        0 ∈ msg ∨ BeginsWhole cjson msg ∨ Completed cjson msg Json.HoldsRefused) := by
  have hmono : ∀ c d : Json → Prop, (∀ root, c root → d root) → Completed cjson msg c → Completed cjson msg d :=
    fun c d hcd h rest root n hrest hp => hcd root (h rest root n hrest hp)
  constructor
  · intro h
    exact (isolated_iff_rejects cjson platform b p msg).mpr
      (h.imp_right (Or.imp_right (hmono _ _ fun root => rejects_of_isRefused)))
  · intro h
    exact ((isolated_iff_rejects cjson platform b p msg).mp h).imp_right
      (Or.imp_right (hmono _ _ fun root => holdsRefused_of_rejects))

end

/-! ## a message that its neighbour completes -/

/-- cJSON on texts that begin with an empty object; no other text is JSON for it -/
def emptyObjects : CJson where
  parseWithOpts
    | 123 :: 125 :: _ => some (.obj [], 2)
    | _ => none
  container_ends := by
    intro text root n h _ rest
    split at h
    · cases h
      rfl
    · cases h

/-- The message is one brace. A closing brace behind it, left over from an earlier message, makes it an
object. -/
theorem brace_not_isolated :
    ¬ ∀ (cjson : CJson) (b : Broker SlotTable) (p : Addr) (msg : List UInt8), b.Reachable Platform.small →
      p ∈ b.peerList → MessageIsolated cjson Platform.small b p configCheckJsonLength msg := by
  intro hall
  have hrun : (run (step Platform.small) (Broker.start (T := SlotTable) Platform.small.config none none [])
      [Event.good (.connect 1 .websocket true)]).any (fun b => b.peerList.contains 1) = true := by decide +kernel
  obtain ⟨b, hb, hp⟩ := Option.any_eq_true _ _ |>.mp hrun
  have hisolated := hall emptyObjects b 1 [123] ⟨_, _, isStart_start _ none none [], hb⟩ (by simpa using hp)
  have hopen : seen (parseMessageText ⟨Platform.small, Outcomes.good⟩ emptyObjects configCheckJsonLength
      ([123] ++ []) 1 1 b) = some (false, b.observed) := rfl
  have hclosed : parseMessageText (T := SlotTable) ⟨Platform.small, Outcomes.good⟩ emptyObjects configCheckJsonLength
      ([123] ++ [125]) 1 1 = receiveObject ⟨Platform.small, Outcomes.good⟩ 1 (.obj []) := rfl
  have heq := (hisolated Outcomes.good [125] []).trans hopen
  rw [List.length_singleton, hclosed] at heq
  obtain ⟨⟨ok, b'⟩, h1, h2⟩ := Option.map_eq_some_iff.mp heq
  have hok : ok = false := congrArg Prod.fst h2
  rw [hok] at h1
  exact absurd (receiveObject_false (allOk_good Platform.small) h1).2.1 (by decide)

end Cjet
