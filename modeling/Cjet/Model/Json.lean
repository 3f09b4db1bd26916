import Mathlib.Algebra.Group.Nat.Defs
import Mathlib.Data.List.Basic
import Mathlib.Data.Rat.Defs

/-!
# JSON values (`json/cJSON.c`)

A parsed JSON text.  Object members keep their order and may repeat a key; a number is kept
exactly.  `Json.getObjectItem` is the lookup that all of the broker uses: the first member whose
key equals the name up to the case of ASCII letters.
-/

set_option linter.unusedVariables false

namespace Cjet

inductive Json where
  | null
  | bool (b : Bool)
  | num (q : Rat)
  | str (s : String)
  | arr (l : List Json)
  | obj (l : List (String × Json))

def lowerCase (s : String) : List Char := s.toList.map Char.toLower

/-- `case_insensitive_strcmp(a, b) == 0` -/
def sameKey (a b : String) : Bool := lowerCase a == lowerCase b

namespace Json

/-- `cJSON_GetObjectItem` -/
def getObjectItem : Json → String → Option Json
  | .obj l, name => (l.find? fun m => sameKey name m.1).map (·.2)
  | _, _ => none

/-- `cJSON_AddItemToObject` once its allocation succeeded -/
def addItem : Json → String → Json → Json
  | .obj l, key, item => .obj (l ++ [(key, item)])
  | root, _, _ => root

/-- `INT_MAX` and `INT_MIN` -/
def intMax : Int := 2147483647
def intMin : Int := -2147483648

/-- `valueint` of a number: truncation towards zero, saturated to the range of `int` -/
def valueInt (q : Rat) : Int := max intMin (min intMax (q.num.tdiv q.den))

def isString : Json → Bool
  | .str _ => true
  | _ => false

def isNumber : Json → Bool
  | .num _ => true
  | _ => false

def isTrue : Json → Bool
  | .bool b => b
  | _ => false

/-- `cJSON_ReplaceItemInObject`: the first member whose key matches gets the key and the item -/
def replaceItem : Json → String → String → Json → Json
  | .obj l, name, key, item => .obj (replaceFirst l name key item)
  | j, _, _, _ => j
where
  replaceFirst : List (String × Json) → String → String → Json → List (String × Json)
    | [], _, _, _ => []
    | m :: ms, name, key, item =>
      if sameKey name m.1 then (key, item) :: ms else m :: replaceFirst ms name key item

/-- the object with its first member named `name` changed by `f` (a change made through the
pointer that `cJSON_GetObjectItem` returned) -/
def modifyItem : Json → String → (Json → Json) → Json
  | .obj l, name, f => .obj (modifyFirst l name f)
  | j, _, _ => j
where
  modifyFirst : List (String × Json) → String → (Json → Json) → List (String × Json)
    | [], _, _ => []
    | m :: ms, name, f =>
      if sameKey name m.1 then (m.1, f m.2) :: ms else m :: modifyFirst ms name f

end Json

/-! ## keys -/

theorem sameKey_refl (a : String) : sameKey a a = true := by simp [sameKey]

theorem sameKey_iff (a b : String) : sameKey a b = true ↔ lowerCase a = lowerCase b := by
  simp [sameKey]

theorem sameKey_trans_false {a b c : String} (h : sameKey a b = true) :
    sameKey a c = sameKey b c := by
  have e := (sameKey_iff a b).mp h
  unfold sameKey
  rw [e]

theorem sameKey_comm (a b : String) : sameKey a b = sameKey b a := by
  unfold sameKey
  exact Bool.beq_comm

namespace Json

theorem getObjectItem_obj (l : List (String × Json)) (name : String) :
    (Json.obj l).getObjectItem name = (l.find? fun m => sameKey name m.1).map (·.2) := rfl

theorem getObjectItem_cons (m : String × Json) (l : List (String × Json)) (name : String) :
    (Json.obj (m :: l)).getObjectItem name
      = if sameKey name m.1 then some m.2 else (Json.obj l).getObjectItem name := by
  rw [getObjectItem_obj, List.find?_cons]
  cases h : sameKey name m.1 <;> rfl

theorem getObjectItem_first {name key : String} (h : sameKey name key = true) (item : Json)
    (l : List (String × Json)) : (Json.obj ((key, item) :: l)).getObjectItem name = some item := by
  rw [getObjectItem_cons, if_pos h]

theorem getObjectItem_later {name key : String} (h : sameKey name key = false) (item : Json)
    (l : List (String × Json)) :
    (Json.obj ((key, item) :: l)).getObjectItem name = (Json.obj l).getObjectItem name := by
  rw [getObjectItem_cons, h]
  rfl

end Json

end Cjet
