import Cjet.Model.Broker
import Cjet.Lib.Double

/-!
# Responses (`response.c`, `request.h`, `timer.c`)

A handler of a request decides to answer with a success or an error, or leaves the answer to the
owner of an element; it then builds the JSON of its answer, which fails where the request has no
id or where an allocation fails.  `Verdict` is that decision, `Response.json` what is sent.
-/

set_option linter.unusedVariables false

namespace Cjet
open Stateful Alloc

def INVALID_REQUEST : Int := -32600
def METHOD_NOT_FOUND : Int := -32601
def INVALID_PARAMS : Int := -32602
def INTERNAL_ERROR : Int := -32603

inductive Verdict where
  | success
  | error
  /-- routed: the answer is the owner's, or that of the timer -/
  | pending
  deriving DecidableEq

structure Response where
  verdict : Verdict
  json : Option Json

/-- the arguments of `create_error_response_from_request` at one of its calls -/
structure Err where
  code : Int
  tag : String
  reason : String

section
variable (env : Env)

/-- `add_subobject_to_object` -/
def addSubobjectToObject (root : Json) (value : Option Json) (key : String) : Alloc (Option Json) := do
  match value with
  | none => return none
  | some v => return some (← addItemToObject env root key (some v))

/-- `create_common_response` -/
def createCommonResponse (id : Json) : Alloc (Option Json) := do
  match ← createObject env with
  | none => return none
  | some root =>
    match id with
    | .str s => addSubobjectToObject env root (← createString env s) "id"
    | .num q => addSubobjectToObject env root (← createNumber env (Json.valueInt q)) "id"
    | _ => return none

def errorText (code : Int) : String :=
  if code = INVALID_REQUEST then "Invalid Request"
  else if code = METHOD_NOT_FOUND then "Method not found"
  else if code = INVALID_PARAMS then "Invalid params"
  else if code = INTERNAL_ERROR then "Internal error"
  else "Unknown error"

/-- `create_error_object`: the object `data` is attached to the error before its member is made -/
def createErrorObject (err : Err) : Alloc (Option Json) := do
  match ← createObject env with
  | none => return none
  | some error =>
    match ← addSubobjectToObject env error (← createString env (errorText err.code)) "message" with
    | none => return none
    | some error =>
      match ← addSubobjectToObject env error (← createNumber env err.code) "code" with
      | none => return none
      | some error =>
        match ← createObject env with
        | none => return some error
        | some data =>
          let attached ← Alloc.call env .addItem
          match ← addSubobjectToObject env data (← createString env err.reason) err.tag with
          | none => return none
          | some data => return some (if attached then error.addItem "data" data else error)

/-- `create_error_response` -/
def createErrorResponse (id : Json) (err : Err) : Alloc (Option Json) := do
  match ← createCommonResponse env id with
  | none => return none
  | some root =>
    match ← createErrorObject env err with
    | none => return none
    | some error => return some (← addItemToObject env root "error" (some error))

/-- `create_error_response_from_request` -/
def createErrorResponseFromRequest (request : Json) (err : Err) : Alloc (Option Json) := do
  match request.getObjectItem "id" with
  | none => return none
  | some id => createErrorResponse env id err

/-- `create_result_response` -/
def createResultResponse (id : Json) (result : Option Json) (resultType : String) :
    Alloc (Option Json) := do
  match ← createCommonResponse env id with
  | none => return none
  | some root => return some (← addItemToObject env root resultType result)

/-- `create_result_response_from_request` -/
def createResultResponseFromRequest (request : Json) (result : Option Json) (resultType : String) :
    Alloc (Option Json) := do
  match request.getObjectItem "id" with
  | none => return none
  | some id => createResultResponse env id result resultType

/-- `create_success_response_from_request` -/
def createSuccessResponseFromRequest (request : Json) : Alloc (Option Json) := do
  createResultResponseFromRequest env request (← createTrue env) "result"

/-- the id of a response: that of the request, as far as `valueint` holds it -/
def responseId : Json → Option Json
  | .str s => some (.str s)
  | .num q => some (.num (Json.valueInt q))
  | _ => none

theorem createResultResponse_ok (h : env.AllocOk) (id result : Json) (resultType : String) (n : Nat) :
    (createResultResponse env id (some result) resultType n).1
      = (responseId id).map fun id => .obj [("id", id), (resultType, result)] := by
  unfold createResultResponse createCommonResponse
  rw [Alloc.bind_apply, Alloc.bind_apply, createObject_ok env h]
  cases id with
  | str s =>
    simp only [Alloc.bind_apply, Alloc.pure_apply, createString_ok env h, addSubobjectToObject,
      addItemToObject_ok env h]
    rfl
  | num q =>
    simp only [Alloc.bind_apply, Alloc.pure_apply, createNumber_ok env h, addSubobjectToObject,
      addItemToObject_ok env h]
    rfl
  | _ => rfl

variable {T : Type}

def errorResponse (request : Json) (err : Err) : Prog (Broker T) Response := do
  return ⟨.error, ← allocating (createErrorResponseFromRequest env request err)⟩

/-- the response for a failure, which is none where nothing was created -/
def failureResponse (request : Json) (err : Option Err) : Prog (Broker T) Response :=
  match err with
  | none => return ⟨.error, none⟩
  | some err => errorResponse env request err

def successResponse (request : Json) : Prog (Broker T) Response := do
  return ⟨.success, ← allocating (createSuccessResponseFromRequest env request)⟩

end

/-! ## reading a request -/

/-- `get_params` -/
def getParams (request : Json) : Except Err Json :=
  match request.getObjectItem "params" with
  | none => .error ⟨INVALID_PARAMS, "reason", "no params found"⟩
  | some params => .ok params

/-- `get_path_from_params` -/
def getPathFromParams (params : Json) : Except Err String :=
  match params.getObjectItem "path" with
  | none => .error ⟨INVALID_PARAMS, "reason", "no path given"⟩
  | some (.str path) => .ok path
  | some _ => .error ⟨INVALID_PARAMS, "reason", "path is not a string"⟩

/-- `convert_seconds_to_nsec`: the product is a double, and its integral part is kept -/
def convertSecondsToNsec (platform : Platform) (seconds : Rat) : Nat :=
  let nsec := Double.truncate (seconds.num * 1000000000) seconds.den
  if 0 ≤ nsec ∧ nsec < 2 ^ 64 then nsec.toNat else (platform.castToUint64 nsec).toNat

/-- `valuedouble < MIN_TIMEOUT_IN_S`, a thousandth of a second -/
def belowMinTimeout (seconds : Rat) : Bool := 1000 * seconds.num < seconds.den

/-- the result of `get_timeout_in_nsec` where its checks pass: 0 is a failure all the same, one without a response -/
def nonzeroTimeout (nsec : Nat) : Except (Option Err) Nat := if nsec = 0 then .error none else .ok nsec

/-- `get_timeout_in_nsec`; its result 0 is the failure -/
def getTimeoutInNsec (platform : Platform) (timeout : Option Json) (defaultTimeout : Nat) :
    Except (Option Err) Nat :=
  match timeout with
  | none => nonzeroTimeout defaultTimeout
  | some (.num q) =>
    if belowMinTimeout q then .error (some ⟨INVALID_PARAMS, "reason", "timeout value is too small"⟩)
    else nonzeroTimeout (convertSecondsToNsec platform q)
  | some _ => .error (some ⟨INVALID_PARAMS, "reason", "timeout is not a number"⟩)

section
variable {ε ε' α : Type} {f : ε → ε'}

@[simp] theorem mapError_error (err : ε) : (.error err : Except ε α).mapError f = .error (f err) := rfl

@[simp] theorem mapError_ok (a : α) : (.ok a : Except ε α).mapError f = .ok a := rfl

theorem mapError_eq_ok {x : Except ε α} {a : α} : x.mapError f = .ok a ↔ x = .ok a := by
  cases x <;> simp

end

theorem nonzeroTimeout_error {nsec : Nat} {e : Option Err} (h : nonzeroTimeout nsec = .error e) :
    e = none ∧ nsec = 0 := by
  unfold nonzeroTimeout at h
  split at h
  · exact ⟨(Except.error.inj h).symm, ‹_›⟩
  · cases h

theorem convertSecondsToNsec_of_lt (platform : Platform) {q : Rat}
    (h0 : 0 ≤ Double.truncate (q.num * 1000000000) q.den)
    (h : Double.truncate (q.num * 1000000000) q.den < 2 ^ 64) :
    (convertSecondsToNsec platform q : Int) = Double.truncate (q.num * 1000000000) q.den := by
  unfold convertSecondsToNsec
  rw [if_pos ⟨h0, h⟩, Int.toNat_of_nonneg h0]

/-- a request is dropped without a response only where its timeout in nanoseconds does not fit into `uint64_t` -/
theorem getTimeoutInNsec_none {platform : Platform} {q : Rat} {defaultTimeout : Nat}
    (h : getTimeoutInNsec platform (some (.num q)) defaultTimeout = .error none) :
    2 ^ 64 ≤ Double.truncate (q.num * 1000000000) q.den := by
  change (if belowMinTimeout q then _ else nonzeroTimeout (convertSecondsToNsec platform q)) = _ at h
  by_cases hmin : belowMinTimeout q
  · rw [if_pos hmin] at h
    cases h
  rw [if_neg hmin] at h
  have hzero := (nonzeroTimeout_error h).2
  have hq : (2 : Int) ^ 0 * q.den ≤ q.num * 1000000000 := by
    simp only [belowMinTimeout, decide_eq_true_eq] at hmin
    omega
  have hone := Double.le_truncate q.den_pos hq
  by_contra hlt
  have := convertSecondsToNsec_of_lt platform (by omega) (Int.not_le.mp hlt)
  omega

example : convertSecondsToNsec Platform.small (1 / 1000) = 1000000 := by decide +kernel

-- the cast of a value that does not fit is 0 on this platform
example : (getTimeoutInNsec Platform.small (some (.num 20000000000)) 5).isOk = false := by decide +kernel

end Cjet
