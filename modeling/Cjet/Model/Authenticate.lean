import Cjet.Model.Groups
import Cjet.Model.Response

/-!
# Users, passwords and authentication (`authenticate.c`, `posix/auth_file.c`)

The users come from a JSON file that is read once.  A peer that authenticates gets the groups of
its account; a password change rewrites the file.
-/

set_option linter.unusedVariables false

namespace Cjet
open Stateful Alloc

/-- the user and the password in a request -/
def getUserAndPassword (request : Json) : Except Err (String × String) := do
  let params ← getParams request
  match params.getObjectItem "user" with
  | none => throw ⟨INVALID_PARAMS, "reason", "no user given"⟩
  | some (.str user) =>
    match params.getObjectItem "password" with
    | none => throw ⟨INVALID_PARAMS, "reason", "no password given"⟩
    | some (.str passwd) => return (user, passwd)
    | some _ => throw ⟨INVALID_PARAMS, "reason", "password is not a string"⟩
  | some _ => throw ⟨INVALID_PARAMS, "reason", "user is not a string"⟩

/-! ## accounts -/

/-- the account of a user: `cJSON_GetObjectItem(users, user_name)` -/
def accountOf (userData : Option Json) (userName : String) : Option Json :=
  (userData.bind fun d => d.getObjectItem "users").bind fun users => users.getObjectItem userName

/-- `credentials_ok`; what it returns is the authorisation of the account -/
def credentialsOk (platform : Platform) (userData : Option Json) (userName passwd : String) :
    Option Json :=
  match accountOf userData userName with
  | none => none
  | some user =>
    match user.getObjectItem "password" with
    | some (.str password) =>
      match platform.crypt passwd password with
      | none => none
      | some encrypted => if password == encrypted then user.getObjectItem "auth" else none
    | _ => none

/-- `is_readonly` -/
def isReadonly (user : Json) : Bool :=
  match user.getObjectItem "readonly" with
  | some readonly => readonly.isTrue
  | none => false

/-- `is_admin` -/
def isAdmin (userData : Option Json) (currentUser : String) : Bool :=
  match (accountOf userData currentUser).bind fun user => user.getObjectItem "admin" with
  | some admin => admin.isTrue
  | none => false

/-! ## salts -/

/-- `struct crypt_method` -/
structure CryptMethod where
  pfx : String
  minlen : Nat
  maxlen : Nat

def methods : List CryptMethod :=
  [⟨"", 2, 2⟩, ⟨"$1$", 8, 8⟩, ⟨"$5$", 8, 16⟩, ⟨"$6$", 8, 16⟩]

def validSalts : List Char :=
  "abcdefghijklmnopqrstuvwxyzABCDEFGHIJKLMNOPQRSTUVWXYZ0123456789./".toList

/-- `fill_salt` -/
def fillSalt (random : Nat → Nat) (saltLen : Nat) : List Char :=
  (List.range saltLen).map (fun i => validSalts.getD (random i % 256 % validSalts.length) 'a') ++ ['$']

/-- the number of characters up to the second `$` of a password that starts with one -/
def prefixLength (passwd : List Char) : Option Nat :=
  ((passwd.drop 1).findIdx? (· == '$')).map (· + 2)

/-- the method of a stored password; no result where a second `$` is looked for in vain, and
`some none` where the method is not supported -/
def methodOf (passwd : String) : Option (Option CryptMethod) :=
  if passwd.toList.head? = some '$' then
    (prefixLength passwd.toList).map fun n =>
      methods.find? fun m => m.pfx.toList.take n == passwd.toList.take n
  else some methods.head?

/-- `get_salt_from_passwd`: the length of the salt is drawn before its characters -/
def saltOf (random : Nat → Nat) (m : CryptMethod) : String :=
  if m.minlen = m.maxlen then m.pfx ++ String.ofList (fillSalt random m.maxlen)
  else m.pfx ++ String.ofList
    (fillSalt (fun i => random (i + 1)) (random 0 % (m.maxlen - m.minlen + 1) + m.minlen))

/-! ## the password file -/

/-- the loop of `write_user_data`: what is left is written again from the first byte on.  A write
of at least one byte to a file that succeeds writes at least one. -/
def writeLoop (wrote : Nat → Nat → Option Nat) (data : List UInt8) :
    (fuel i written toWrite : Nat) → List UInt8 → Bool × List UInt8
  | 0, _, _, _, file => (true, file)
  | fuel + 1, i, written, toWrite, file =>
    if written < toWrite then
      match wrote i toWrite with
      | none => (false, file)
      | some n =>
        let n := max 1 (min n toWrite)
        writeLoop wrote data fuel (i + 1) n (toWrite - n) (file ++ data.take n)
    else (true, file)

section
variable {T : Type} (env : Env)

/-- `write_user_data` -/
def writeUserData : Prog (Broker T) Bool := do
  if ← call env .ftruncate then
    Prog.update fun b => { b with passwordFile := [] }
    let b ← Prog.read id
    match b.userData with
    | none => return false
    | some userData =>
      if ← call env .printUserData then
        let data := env.printJson userData
        let (ok, file) := writeLoop env.wrote data data.length 0 0 data.length []
        Prog.update fun b => { b with passwordFile := file }
        return ok
      else return false
  else return false

/-- `cJSON_ReplaceItemInObject(user, "password", cJSON_CreateString(encrypted))`: where the string
cannot be created nothing is replaced, where the copy of the key fails the member loses its key -/
def replacePassword (userName encrypted : String) : Prog (Broker T) Unit := do
  match ← allocating (createString env encrypted) with
  | none => return ()
  | some password =>
    let ok ← call env .duplicateString
    Prog.update fun b =>
      { b with userData := b.userData.map fun d => d.modifyItem "users" fun users =>
          users.modifyItem userName fun user =>
            user.replaceItem "password" (if ok then "password" else "") password }

/-- the checks of `change_password` before the salt is made: the stored password -/
def checkChangePassword (b : Broker T) (p : Addr) (userName : String) : Except Err String :=
  match b.userName p with
  | none => .error ⟨INVALID_PARAMS, "reason", "non-authenticated peer can't change any passwords"⟩
  | some current =>
    match accountOf b.userData userName with
    | none => .error ⟨INVALID_PARAMS, "reason", "user not in password database"⟩
    | some user =>
      if !isReadonly user && (current == userName || isAdmin b.userData current) then
        match user.getObjectItem "password" with
        | none => .error ⟨INVALID_PARAMS, "reason", "no password for user in password database"⟩
        | some (.str password) => .ok password
        | some _ =>
          .error ⟨INVALID_PARAMS, "reason", "password for user in password database is not a string"⟩
      else .error ⟨INVALID_PARAMS, "reason", "user not allowed to change password"⟩

/-- the end of `change_password` -/
def storePassword (request : Json) (userName encrypted : String) : Prog (Broker T) Response := do
  replacePassword env userName encrypted
  if ← writeUserData env then successResponse env request
  else errorResponse env request ⟨INTERNAL_ERROR, "reason", "Could not write password file"⟩

/-- `change_password` -/
def changePassword (p : Addr) (request : Json) (userName passwd : String) :
    Prog (Broker T) Response := do
  let b ← Prog.read id
  match checkChangePassword b p userName with
  | .error err => errorResponse env request err
  | .ok password =>
    match ← Prog.deref fun _ => methodOf password with
    | none =>
      errorResponse env request ⟨INVALID_PARAMS, "reason", "can't create salt for new password"⟩
    | some method =>
      match env.crypt passwd (saltOf env.random method) with
      | none => errorResponse env request ⟨INVALID_PARAMS, "reason", "could not encrypt password"⟩
      | some encrypted => storePassword env request userName encrypted

/-- `handle_change_password` -/
def handleChangePassword (p : Addr) (request : Json) : Prog (Broker T) Response := do
  match getUserAndPassword request with
  | .error err => errorResponse env request err
  | .ok (user, passwd) => changePassword env p request user passwd

/-! ## authentication -/

/-- the checks of `handle_authentication`: the user and the authorisation of the account -/
def checkAuthenticate (b : Broker T) (p : Addr) (request : Json) : Except Err (String × Json) := do
  let (user, passwd) ← getUserAndPassword request
  if (b.fetchList p).isEmpty = false then throw ⟨INVALID_PARAMS, "fetched before authenticate", user⟩
  match credentialsOk env.toPlatform b.userData user passwd with
  | none => throw ⟨INVALID_PARAMS, "invalid credentials", user⟩
  | some auth => return (user, auth)

/-- `p->fetch_groups = get_groups(fetch_groups)` and so on -/
def setGroupsOf (p : Addr) (auth : Json) : Prog (Broker T) Unit :=
  Prog.update fun b =>
    { b with
      fetchGroups := Function.update b.fetchGroups p (getGroups b.allGroups (auth.getObjectItem "fetchGroups"))
      setGroups := Function.update b.setGroups p (getGroups b.allGroups (auth.getObjectItem "setGroups"))
      callGroups := Function.update b.callGroups p (getGroups b.allGroups (auth.getObjectItem "callGroups")) }

def setUserName (p : Addr) (userName : Option String) : Prog (Broker T) Unit :=
  Prog.update fun b => { b with userName := Function.update b.userName p userName }

/-- `handle_authentication`: the groups are assigned before the copy of the user name is known to
have succeeded -/
def handleAuthentication (p : Addr) (request : Json) : Prog (Broker T) Response := do
  let b ← Prog.read id
  match checkAuthenticate env b p request with
  | .error err => errorResponse env request err
  | .ok (user, auth) =>
    setGroupsOf p auth
    let userName ← allocating (Alloc.duplicateString env user)
    setUserName p userName
    match userName with
    | none =>
      errorResponse env request ⟨INTERNAL_ERROR, "reason", "not enough memory to allocate user name"⟩
    | some _ => successResponse env request

end

end Cjet
