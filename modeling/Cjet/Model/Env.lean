import Cjet.Model.Json

/-!
# What the broker calls

Everything outside the modelled code that can fail or that the code only prints: the allocator,
cJSON's constructors (which fail when an allocation fails), the timer and event loop system
calls, the sockets behind `send_message`, `crypt` and `snprintf`.  An `Env` fixes the outcome of
each of these calls; the calls of one event are numbered in program order.

* `About`   what a message is about (a ghost that the log of sent messages carries);
* `Call`    the calls that may fail;
* `Alloc`   programs that only allocate: the cJSON constructors.
-/

set_option linter.unusedVariables false

namespace Cjet

/-- the address of an object -/
abbrev Addr := Nat

/-- `group_t` -/
abbrev GroupSet := BitVec 32

inductive About where
  /-- the answer to the `n`-th request object the broker received -/
  | response (n : Nat)
  /-- a routed set or call, on its way to the owner of the element -/
  | routed (request : Addr)
  /-- an event of an element, for a fetch -/
  | notification (fetch element : Addr)
  deriving DecidableEq

inductive Call where
  | malloc
  | calloc
  | duplicateString
  | createItem
  | duplicateItem
  | addItem
  | print (about : About)
  | printUserData
  | timerfdCreate
  | epollAdd
  | timerfdSettime
  | ftruncate
  | sendMessage (peer : Addr) (about : About) (msg : Json)

namespace Call

/-- calls that fail only for want of memory -/
def isAllocation : Call → Bool
  | .malloc | .calloc | .duplicateString | .createItem | .duplicateItem | .addItem => true
  | .print _ | .printUserData => true
  | _ => false

def isTimer : Call → Bool
  | .timerfdCreate | .epollAdd | .timerfdSettime => true
  | _ => false

def isSend : Call → Bool
  | .sendMessage _ _ _ => true
  | _ => false

/-- the sending of a routed set or call to the owner -/
def isRoutedSend : Call → Bool
  | .sendMessage _ (.routed _) _ => true
  | _ => false

/-- the rendering of a routed set or call -/
def isRoutedPrint : Call → Bool
  | .print (.routed _) => true
  | _ => false

end Call

/-- `cjet_config.h` -/
structure Config where
  elementTableOrder : Nat
  routingTableOrder : Nat
  initialFetchTableSize : Nat
  initialFetchTableSize_pos : 0 < initialFetchTableSize
  /-- seconds -/
  routedMessagesTimeout : Rat
  maxNumbersOfMatchersInFetch : Nat
  allowAddOnlyFromLocalhost : Bool

/-- the values that `cmake/defaults.cmake` sets -/
def Config.default : Config where
  elementTableOrder := 13
  routingTableOrder := 6
  initialFetchTableSize := 4
  initialFetchTableSize_pos := by decide
  routedMessagesTimeout := 5
  maxNumbersOfMatchersInFetch := 12
  allowAddOnlyFromLocalhost := false

/-- the C library and the build configuration: the same for all of a run -/
structure Platform where
  config : Config
  /-- `CJET_NAME` and `CJET_VERSION` -/
  cjetName : String
  cjetVersion : String
  /-- `crypt(key, setting)` -/
  crypt : String → String → Option String
  /-- `%p` -/
  printPointer : Addr → String
  /-- `%s` of a null pointer -/
  printNull : String
  /-- the text of `cJSON_Print` -/
  printJson : Json → List UInt8
  /-- what a double becomes as `uint64_t` where that type does not hold its integral part: C leaves it open -/
  castToUint64 : Int → BitVec 64

/-- a build with small tables, for concrete runs -/
def Platform.small : Platform where
  config := { Config.default with elementTableOrder := 5, routingTableOrder := 5 }
  cjetName := "cjet"
  cjetVersion := "1.2.0"
  crypt key _ := some key
  printPointer _ := "0x1"
  printNull := "(null)"
  printJson _ := []
  castToUint64 _ := 0

/-- the outcomes of the calls made while one event is processed -/
structure Outcomes where
  ok : Call → Nat → Bool
  /-- `cjet_get_random_bytes` -/
  random : Nat → Nat
  /-- the result of `write` for the given number of bytes; `none` is -1 -/
  wrote : Nat → Nat → Option Nat

/-- every call succeeds -/
def Outcomes.good : Outcomes where
  ok _ _ := true
  random _ := 0
  wrote _ n := some n

/-- the calls that `c` picks fail, the others succeed -/
def Outcomes.failing (c : Call → Bool) : Outcomes := { Outcomes.good with ok := fun call _ => !c call }

structure Env extends Platform, Outcomes

def Env.AllocOk (env : Env) : Prop := ∀ c n, c.isAllocation = true → env.ok c n = true
def Env.TimerOk (env : Env) : Prop := ∀ c n, c.isTimer = true → env.ok c n = true
def Env.SendOk (env : Env) : Prop := ∀ c n, c.isSend = true → env.ok c n = true

/-- a program that only makes calls: it carries their number -/
abbrev Alloc (α : Type) := StateM Nat α

namespace Alloc
variable (env : Env)

/-- the next call is `c`: does it succeed? -/
def call (c : Call) : Alloc Bool := fun n => (env.ok c n, n + 1)

/-- an allocation that gives `a` or fails -/
def tryCall {α : Type} (c : Call) (a : α) : Alloc (Option α) := do
  let ok ← call env c
  return if ok then some a else none

def createObject : Alloc (Option Json) := tryCall env .createItem (.obj [])
def createArray : Alloc (Option Json) := tryCall env .createItem (.arr [])
def createString (s : String) : Alloc (Option Json) := tryCall env .createItem (.str s)
def createNumber (n : Int) : Alloc (Option Json) := tryCall env .createItem (.num n)
def createTrue : Alloc (Option Json) := tryCall env .createItem (.bool true)
def duplicate (j : Json) : Alloc (Option Json) := tryCall env .duplicateItem j
def duplicateString (s : String) : Alloc (Option String) := tryCall env .duplicateString s

/-- `cJSON_PrintUnformatted`: the text is represented by the value it renders -/
def printUnformatted (about : About) (j : Json) : Alloc (Option Json) := tryCall env (.print about) j

/-- `cJSON_AddItemToObject`: nothing is added where the item is null or the copy of the key
cannot be allocated -/
def addItemToObject (root : Json) (key : String) (item : Option Json) : Alloc Json := do
  match item with
  | none => return root
  | some j =>
    let ok ← call env .addItem
    return if ok then root.addItem key j else root

theorem bind_apply {α β : Type} (m : Alloc α) (f : α → Alloc β) (n : Nat) :
    (m >>= f) n = f (m n).1 (m n).2 := rfl

theorem pure_apply {α : Type} (a : α) (n : Nat) : (pure a : Alloc α) n = (a, n) := rfl

/-- with all allocations succeeding -/
theorem tryCall_ok {α : Type} (h : env.AllocOk) {c : Call} (hc : c.isAllocation = true) (a : α)
    (n : Nat) : tryCall env c a n = (some a, n + 1) := by
  show (if env.ok c n then some a else none, n + 1) = _
  rw [h c n hc]; rfl

theorem createObject_ok (h : env.AllocOk) (n : Nat) :
    createObject env n = (some (.obj []), n + 1) := tryCall_ok env h rfl _ n

theorem createString_ok (h : env.AllocOk) (s : String) (n : Nat) :
    createString env s n = (some (.str s), n + 1) := tryCall_ok env h rfl _ n

theorem createNumber_ok (h : env.AllocOk) (z : Int) (n : Nat) :
    createNumber env z n = (some (.num z), n + 1) := tryCall_ok env h rfl _ n

theorem createTrue_ok (h : env.AllocOk) (n : Nat) :
    createTrue env n = (some (.bool true), n + 1) := tryCall_ok env h rfl _ n

theorem duplicate_ok (h : env.AllocOk) (j : Json) (n : Nat) :
    duplicate env j n = (some j, n + 1) := tryCall_ok env h rfl _ n

theorem printUnformatted_ok (h : env.AllocOk) (about : About) (j : Json) (n : Nat) :
    printUnformatted env about j n = (some j, n + 1) := tryCall_ok env h rfl _ n

theorem call_ok (h : env.AllocOk) {c : Call} (hc : c.isAllocation = true) (n : Nat) :
    call env c n = (true, n + 1) := by
  show (env.ok c n, n + 1) = _
  rw [h c n hc]

theorem tryCall_some {env : Env} {α : Type} {c : Call} {a a' : α} {n : Nat}
    (h : (tryCall env c a n).1 = some a') : a' = a := by
  have e : (if env.ok c n then some a else none) = some a' := h
  cases hok : env.ok c n with
  | true => rw [hok] at e; exact (Option.some.inj e).symm
  | false => rw [hok] at e; cases e

theorem addItemToObject_ok (h : env.AllocOk) (root : Json) (key : String) (j : Json) (n : Nat) :
    addItemToObject env root key (some j) n = (root.addItem key j, n + 1) := by
  show (if env.ok .addItem n then root.addItem key j else root, n + 1) = _
  rw [h .addItem n rfl]; rfl

end Alloc

end Cjet
