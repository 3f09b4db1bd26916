import Cjet.Lib.Ledger
import Cjet.Model.Router

/-!
# Who releases the JSON of a response (`response.c`, `router.c`)

The functions of `response.c` and `router.c` that build JSON, with the nodes that it is made of.

* `Item`, `Store`     a JSON value in memory, and the ledger of its nodes;
* `Owning`            programs that allocate and release;
* `createErrorResponse`, `createResultResponse`, `createRoutedMessage`, `handleRoutingResponse`   the code;
* `createErrorResponse_value` and its like   without the nodes this is the model of `Cjet.Model.Response`.

A constructor of cJSON that fails leaves no node behind.
-/

set_option linter.unusedVariables false

namespace Cjet
open Stateful

namespace Ownership

/-- a JSON value in memory and the addresses of its nodes -/
structure Item where
  json : Json
  nodes : Multiset Nat
  nodes_ne : nodes ≠ 0

/-- the number of the next call, and the ledger -/
structure Store where
  calls : Nat
  ledger : Ledger

/-- a program that allocates and releases nodes -/
abbrev Owning (α : Type) := StateM Store α

/-- the nodes at a pointer that may be null -/
def nodes : Option Item → Multiset Nat
  | none => 0
  | some item => item.nodes

/-- `cJSON_Delete` -/
def delete (item : Item) : Owning Unit := fun s =>
  ((), { s with ledger := { s.ledger with released := s.ledger.released + item.nodes } })

/-- `cJSON_Delete` of a pointer that may be null -/
def deleteItem : Option Item → Owning Unit
  | none => pure ()
  | some item => delete item

theorem block_ne_zero (start : Nat) {count : Nat} (h : count ≠ 0) : Ledger.block start count ≠ 0 := by
  intro hzero
  have hcard := Ledger.card_block start count
  rw [hzero, Multiset.card_zero] at hcard
  exact h hcard.symm

/-- a value in new nodes, one or more -/
def placed (s : Store) (j : Json) (count : Nat) (h : count ≠ 0) : Item where
  json := j
  nodes := Ledger.block s.ledger.next count
  nodes_ne := block_ne_zero s.ledger.next h

section
variable (env : Env)

/-- the next call is `c`: does it succeed? -/
def call (c : Call) : Owning Bool := fun s => (env.ok c s.calls, { s with calls := s.calls + 1 })

/-- a value that is made by the call `c` out of new nodes, where there is memory for them -/
def make (c : Call) (j : Json) (count : Nat) (h : count ≠ 0) : Owning (Option Item) := fun s =>
  if env.ok c s.calls then
    (some (placed s j count h), ⟨s.calls + 1, { s.ledger with next := s.ledger.next + count }⟩)
  else (none, { s with calls := s.calls + 1 })

def createObject : Owning (Option Item) := make env .createItem (.obj []) 1 Nat.one_ne_zero
def createString (s : String) : Owning (Option Item) := make env .createItem (.str s) 1 Nat.one_ne_zero
def createNumber (n : Int) : Owning (Option Item) := make env .createItem (.num n) 1 Nat.one_ne_zero

/-- `cJSON_Duplicate`: as many nodes as there are in the original -/
def duplicate (item : Item) : Owning (Option Item) :=
  make env .duplicateItem item.json item.nodes.card (fun h => item.nodes_ne (Multiset.card_eq_zero.mp h))

/-- the object with the item in it -/
def Item.add (root : Item) (key : String) (item : Item) : Item where
  json := root.json.addItem key item.json
  nodes := root.nodes + item.nodes
  nodes_ne := fun h => root.nodes_ne (Ledger.add_eq_zero.mp h).1

/-- `cJSON_AddItemToObject`: where the copy of the key cannot be allocated, the item is left as it is -/
def addItemToObject (root : Item) (key : String) (item : Option Item) : Owning Item := do
  match item with
  | none => return root
  | some item =>
    let ok ← call env .addItem
    return if ok then root.add key item else root

/-- `add_subobject_to_object` -/
def addSubobjectToObject (root : Item) (value : Option Item) (key : String) : Owning (Option Item) := do
  match value with
  | none =>
    delete root
    return none
  | some value => return some (← addItemToObject env root key (some value))

/-- `create_common_response` -/
def createCommonResponse (id : Json) : Owning (Option Item) := do
  match ← createObject env with
  | none => return none
  | some root =>
    match id with
    | .str s => addSubobjectToObject env root (← createString env s) "id"
    | .num q => addSubobjectToObject env root (← createNumber env (Json.valueInt q)) "id"
    | _ =>
      delete root
      return none

/-- `create_error_object`: the object `data` is attached to the error before its member is made; what is added to it then
is in the error as well.  At `err` nothing is released. -/
def createErrorObject (err : Err) : Owning (Option Item) := do
  match ← createObject env with
  | none => return none
  | some error =>
    match ← addSubobjectToObject env error (← createString env (errorText err.code)) "message" with
    | none => return none
    | some error =>
      match ← addSubobjectToObject env error (← createNumber env err.code) "code" with
      | none => return none
      | some error =>
        match ← createObject env with
        | none => return some error
        | some data =>
          let attached ← call env .addItem
          match ← addSubobjectToObject env data (← createString env err.reason) err.tag with
          | none => return none
          | some data => return some (if attached then error.add "data" data else error)

/-- `create_error_response` -/
def createErrorResponse (id : Json) (err : Err) : Owning (Option Item) := do
  match ← createCommonResponse env id with
  | none => return none
  | some root =>
    match ← createErrorObject env err with
    | none =>
      delete root
      return none
    | some error => return some (← addItemToObject env root "error" (some error))

/-- `create_result_response` -/
def createResultResponse (id : Json) (result : Option Item) (resultType : String) : Owning (Option Item) := do
  match ← createCommonResponse env id with
  | none =>
    deleteItem result
    return none
  | some root => return some (← addItemToObject env root resultType result)

/-- `create_result_response_from_request` -/
def createResultResponseFromRequest (request : Json) (result : Option Item) (resultType : String) :
    Owning (Option Item) := do
  match request.getObjectItem "id" with
  | none =>
    deleteItem result
    return none
  | some id => createResultResponse env id result resultType

/-- the copy of the request's value in a routed message; an empty object where there is none -/
def copyRoutedValue (value : Option Item) : Owning (Option Item) :=
  match value with
  | some value => duplicate env value
  | none => createObject env

/-- `create_routed_message` -/
def createRoutedMessage (path : String) (what : ElementType) (value : Option Item) (id : String) :
    Owning (Option Item) := do
  match ← createObject env with
  | none => return none
  | some message =>
    match ← createString env id with
    | none =>
      delete message
      return none
    | some jsonId =>
      let message ← addItemToObject env message "id" (some jsonId)
      match ← createString env path with
      | none =>
        delete message
        return none
      | some method =>
        let message ← addItemToObject env message "method" (some method)
        match ← copyRoutedValue env value with
        | none =>
          delete message
          return none
        | some valueCopy =>
          if what = .method then
            return some (← addItemToObject env message "params" (some valueCopy))
          else
            match ← createObject env with
            | none =>
              delete message
              return none
            | some params =>
              let attached ← call env .addItem
              let params ← addItemToObject env params "value" (some valueCopy)
              return some (if attached then message.add "params" params else message)

/-- `format_and_send_response` -/
def formatAndSendResponse (p : Addr) (about : About) (response : Item) : Owning Unit := do
  if ← call env (.print about) then
    let _ ← call env (.sendMessage p about response.json)
    return ()
  else return ()

/-- the part of `handle_routing_response` that answers the requester with the id of the request -/
def forwardResponse (id : Item) (response : Item) (resultType : String) (requestingPeer : Addr) (about : About) :
    Owning Bool := do
  match ← duplicate env response with
  | none =>
    delete id
    return false
  | some responseCopy =>
    match ← createResultResponse env id.json (some responseCopy) resultType with
    | some resultResponse =>
      formatAndSendResponse env requestingPeer about resultResponse
      delete resultResponse
      delete id
      return true
    | none =>
      delete responseCopy
      delete id
      return true

/-- the id of the request that a response belongs to, where there is one; `lookup` is the removal from the routing table -/
def originOf (jsonRpc : Json) (lookup : String → Option (Option Item)) : Option Item :=
  match jsonRpc.getObjectItem "id" with
  | some (.str id) => (lookup id).join
  | _ => none

/-- `handle_routing_response`; `false` is a negative result -/
def handleRoutingResponse (lookup : String → Option (Option Item)) (jsonRpc : Json)
    (response : Item) (resultType : String)
    (requestingPeer : Addr) (about : About) : Owning Bool := do
  match jsonRpc.getObjectItem "id" with
  | some (.str id) =>
    match lookup id with
    | none => return true
    | some originRequestId =>
      match originRequestId with
      | none => return true
      | some id => forwardResponse env id response resultType requestingPeer about
  | _ => return false

end

/-! ## without the nodes -/

/-- what a program computes, without the ledger -/
def Computes {α β : Type} (value : α → β) (m : Owning α) (m' : Alloc β) : Prop :=
  ∀ s, (value (m s).1, (m s).2.calls) = m' s.calls

section
variable {α β α' β' : Type} {value : α → β} {value' : α' → β'}

theorem computes_pure (a : α) : Computes value (pure a) (pure (value a)) := fun s => rfl

theorem computes_bind {m : Owning α} {m' : Alloc β} (hm : Computes value m m') {f : α → Owning α'} {f' : β → Alloc β'}
    (hf : ∀ a, Computes value' (f a) (f' (value a))) : Computes value' (m >>= f) (m' >>= f') := by
  intro s
  have hfirst := hm s
  show (value' (f (m s).1 (m s).2).1, (f (m s).1 (m s).2).2.calls) = f' (m' s.calls).1 (m' s.calls).2
  rw [hf, ← hfirst]

/-- releasing computes nothing -/
theorem computes_delete (item : Item) {m : Owning α} {m' : Alloc β} (hm : Computes value m m') :
    Computes value (do delete item; m) m' := fun s => hm _

theorem computes_deleteItem (item : Option Item) {m : Owning α} {m' : Alloc β} (hm : Computes value m m') :
    Computes value (do deleteItem item; m) m' := by
  cases item with
  | none => exact hm
  | some item => exact computes_delete item hm

end

section
variable (env : Env)

/-- the value of an item -/
def json (item : Option Item) : Option Json := item.map Item.json

theorem computes_call (c : Call) : Computes id (call env c) (Alloc.call env c) := fun s => rfl

theorem computes_make (c : Call) (j : Json) (count : Nat) (h : count ≠ 0) :
    Computes json (make env c j count h) (Alloc.tryCall env c j) := by
  intro s
  unfold make
  show _ = (if env.ok c s.calls then some j else none, s.calls + 1)
  cases env.ok c s.calls with
  | true => rfl
  | false => rfl

theorem computes_addItemToObject (root : Item) (key : String) (item : Option Item) :
    Computes Item.json (addItemToObject env root key item) (Alloc.addItemToObject env root.json key (json item)) := by
  cases item with
  | none => exact computes_pure root
  | some item =>
    refine computes_bind (computes_call env .addItem) fun ok => ?_
    cases ok with
    | true => exact computes_pure (root.add key item)
    | false => exact computes_pure root

theorem computes_addSubobjectToObject (root : Item) (value : Option Item) (key : String) :
    Computes json (addSubobjectToObject env root value key)
      (Cjet.addSubobjectToObject env root.json (json value) key) := by
  cases value with
  | none => exact computes_delete root (computes_pure none)
  | some value =>
    exact computes_bind (computes_addItemToObject env root key (some value)) fun root => computes_pure (some root)

theorem computes_createCommonResponse (id : Json) :
    Computes json (createCommonResponse env id) (Cjet.createCommonResponse env id) := by
  refine computes_bind (computes_make env _ _ _ _) fun root => ?_
  cases root with
  | none => exact computes_pure none
  | some root =>
    cases id with
    | str s =>
      exact computes_bind (computes_make env _ _ _ _) fun value => computes_addSubobjectToObject env root value "id"
    | num q =>
      exact computes_bind (computes_make env _ _ _ _) fun value => computes_addSubobjectToObject env root value "id"
    | null => exact computes_delete root (computes_pure none)
    | bool b => exact computes_delete root (computes_pure none)
    | arr l => exact computes_delete root (computes_pure none)
    | obj l => exact computes_delete root (computes_pure none)

theorem computes_createErrorObject (err : Err) :
    Computes json (createErrorObject env err) (Cjet.createErrorObject env err) := by
  refine computes_bind (computes_make env _ _ _ _) fun error => ?_
  cases error with
  | none => exact computes_pure none
  | some error =>
    refine computes_bind (computes_make env _ _ _ _) fun message => ?_
    refine computes_bind (computes_addSubobjectToObject env error message "message") fun error => ?_
    cases error with
    | none => exact computes_pure none
    | some error =>
      refine computes_bind (computes_make env _ _ _ _) fun code => ?_
      refine computes_bind (computes_addSubobjectToObject env error code "code") fun error => ?_
      cases error with
      | none => exact computes_pure none
      | some error =>
        refine computes_bind (computes_make env _ _ _ _) fun data => ?_
        cases data with
        | none => exact computes_pure (some error)
        | some data =>
          refine computes_bind (computes_call env .addItem) fun attached => ?_
          refine computes_bind (computes_make env _ _ _ _) fun reason => ?_
          refine computes_bind (computes_addSubobjectToObject env data reason err.tag) fun data => ?_
          cases data with
          | none => exact computes_pure none
          | some data =>
            cases attached with
            | true => exact computes_pure (some (error.add "data" data))
            | false => exact computes_pure (some error)

theorem createErrorResponse_value (id : Json) (err : Err) :
    Computes json (createErrorResponse env id err) (Cjet.createErrorResponse env id err) := by
  refine computes_bind (computes_createCommonResponse env id) fun root => ?_
  cases root with
  | none => exact computes_pure none
  | some root =>
    refine computes_bind (computes_createErrorObject env err) fun error => ?_
    cases error with
    | none => exact computes_delete root (computes_pure none)
    | some error =>
      exact computes_bind (computes_addItemToObject env root "error" (some error)) fun root => computes_pure (some root)

theorem createResultResponse_value (id : Json) (result : Option Item) (resultType : String) :
    Computes json (createResultResponse env id result resultType)
      (Cjet.createResultResponse env id (json result) resultType) := by
  refine computes_bind (computes_createCommonResponse env id) fun root => ?_
  cases root with
  | none => exact computes_deleteItem result (computes_pure none)
  | some root =>
    exact computes_bind (computes_addItemToObject env root resultType result) fun root => computes_pure (some root)

theorem createRoutedMessage_value (path : String) (what : ElementType) (value : Option Item) (id : String) :
    Computes json (createRoutedMessage env path what value id)
      (Cjet.createRoutedMessage env path what (json value) id) := by
  refine computes_bind (computes_make env _ _ _ _) fun message => ?_
  cases message with
  | none => exact computes_pure none
  | some message =>
    refine computes_bind (computes_make env _ _ _ _) fun jsonId => ?_
    cases jsonId with
    | none => exact computes_delete message (computes_pure none)
    | some jsonId =>
      refine computes_bind (computes_addItemToObject env message "id" (some jsonId)) fun message => ?_
      refine computes_bind (computes_make env _ _ _ _) fun method => ?_
      cases method with
      | none => exact computes_delete message (computes_pure none)
      | some method =>
        refine computes_bind (computes_addItemToObject env message "method" (some method)) fun message => ?_
        have hcopy : Computes json (copyRoutedValue env value) (Cjet.copyRoutedValue env (json value)) := by
          cases value with
          | none => exact computes_make env _ _ _ _
          | some value => exact computes_make env _ _ _ _
        refine computes_bind hcopy fun valueCopy => ?_
        cases valueCopy with
        | none => exact computes_delete message (computes_pure none)
        | some valueCopy =>
          by_cases hmethod : what = .method
          · show Computes json (if what = .method then _ else _) (if what = .method then _ else _)
            rw [if_pos hmethod, if_pos hmethod]
            exact computes_bind (computes_addItemToObject env message "params" (some valueCopy)) fun root =>
              computes_pure (some root)
          · show Computes json (if what = .method then _ else _) (if what = .method then _ else _)
            rw [if_neg hmethod, if_neg hmethod]
            refine computes_bind (computes_make env _ _ _ _) fun params => ?_
            cases params with
            | none => exact computes_delete message (computes_pure none)
            | some params =>
              refine computes_bind (computes_call env .addItem) fun attached => ?_
              refine computes_bind (computes_addItemToObject env params "value" (some valueCopy)) fun params => ?_
              cases attached with
              | true => exact computes_pure (some (message.add "params" params))
              | false => exact computes_pure (some message)

end

end Ownership
end Cjet
