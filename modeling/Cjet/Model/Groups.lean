import Cjet.Model.Broker

/-!
# Groups (`groups.c`)

A set of groups is a bit set over the positions of `all_groups`.

* `addGroup`, `addGroups`    the names that come with the accounts;
* `loadUsers`                what `load_passwd_data` adds;
* `getGroups`, `hasAccess`   the sets.
-/

set_option linter.unusedVariables false

namespace Cjet

/-! ## the names -/

/-- `sizeof(group_t) * 8` -/
def maxNumberOfGroups : Nat := 32

/-- `is_in_groups` -/
def isInGroups (allGroups : List String) (groupName : String) : Bool := allGroups.any fun group => group == groupName

/-- `add_group`: does it return 0? -/
def addGroup (allGroups : List String) (groupName : String) : Bool × List String :=
  if isInGroups allGroups groupName then (true, allGroups)
  else if maxNumberOfGroups ≤ allGroups.length then (false, allGroups)
  else (true, allGroups ++ [groupName])

/-- the loop of `add_groups`: the first failure ends it -/
def addGroupItems (allGroups : List String) : List Json → Bool × List String
  | [] => (true, allGroups)
  | .str groupName :: items =>
    match addGroup allGroups groupName with
    | (true, allGroups) => addGroupItems allGroups items
    | (false, allGroups) => (false, allGroups)
  | _ :: _ => (false, allGroups)

/-- `add_groups` -/
def addGroups (allGroups : List String) (groupArray : Json) : Bool × List String :=
  match groupArray with
  | .arr items => addGroupItems allGroups items
  | _ => (false, allGroups)

/-- `create_groups` -/
def createGroups : List String := []

/-- the members of an account's `auth` that name groups -/
def groupMembers : List String := ["fetchGroups", "setGroups", "callGroups"]

/-- the groups of one account -/
def loadAuth (auth : Json) (allGroups : List String) : List String → Bool × List String
  | [] => (true, allGroups)
  | name :: names =>
    match auth.getObjectItem name with
    | none => loadAuth auth allGroups names
    | some groupArray =>
      match addGroups allGroups groupArray with
      | (true, allGroups) => loadAuth auth allGroups names
      | (false, allGroups) => (false, allGroups)

/-- the loop of `load_passwd_data` over the accounts -/
def loadUsers (allGroups : List String) : List Json → Bool × List String
  | [] => (true, allGroups)
  | user :: users =>
    match user.getObjectItem "auth" with
    | none => loadUsers allGroups users
    | some auth =>
      match loadAuth auth allGroups groupMembers with
      | (true, allGroups) => loadUsers allGroups users
      | (false, allGroups) => (false, allGroups)

/-! ## sets of groups -/

/-- the bits of the names in `all` that equal `name`; the first of them has position `j` -/
def groupBits (name : String) : Nat → List String → GroupSet
  | _, [] => 0
  | j, g :: gs => (if g = name then BitVec.ofNat 32 (2 ^ j) else 0) ||| groupBits name (j + 1) gs

/-- `get_groups` -/
def getGroups (allGroups : Option (List String)) (peerGroups : Option Json) : GroupSet :=
  match peerGroups, allGroups with
  | some (.arr l), some all =>
    l.foldl (fun groups item => match item with
      | .str name => groups ||| groupBits name 0 all
      | _ => groups) 0
  | _, _ => 0

/-- `has_access` -/
def hasAccess (allGroups : Option (List String)) (has wants : GroupSet) : Bool :=
  match allGroups with
  | none => true
  | some _ => (has &&& wants) != 0

theorem hasAccess_zero (all : List String) (has : GroupSet) : hasAccess (some all) has 0 = false := by
  simp [hasAccess]

end Cjet
