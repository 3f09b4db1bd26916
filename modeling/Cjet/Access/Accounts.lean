import Cjet.Access.Groups
import Cjet.Access.PasswordFile

/-!
# The user database (`posix/auth_file.c`)

A password change replaces one member of one account's record.

* `withPassword`             the database with another password for a user;
* `accepts`                  what `credentials_ok` asks of the account;
* `Stores`                   the checks of `change_password` pass, and it has a new password to store;
* `Broker.replaced`          the broker with the new password in memory;
* `changePassword_of_not`, `changePassword_of`   what `change_password` does, without and with one.
-/

set_option linter.unusedVariables false
set_option linter.unusedSectionVars false

namespace Cjet
open Stateful Alloc

/-! ## members of an object -/

/-- the first member whose key equals the name up to the case of ASCII letters -/
def Json.member : Json → String → Option (String × Json)
  | .obj l, name => l.find? fun m => sameKey name m.1
  | _, _ => none

/-- the object without its first member of that name -/
def Json.eraseItem : Json → String → Json
  | .obj l, name => .obj (l.eraseP fun m => sameKey name m.1)
  | j, _ => j

namespace Json

theorem getObjectItem_member (j : Json) (name : String) : j.getObjectItem name = (j.member name).map (·.2) := by
  cases j <;> rfl

/-- the item that was replaced is found under the same name -/
theorem getObjectItem_replaceItem_self (j item : Json) {name key : String} (hk : sameKey name key = true) :
    (j.replaceItem name key item).getObjectItem name = (j.getObjectItem name).map fun _ => item := by
  cases j with
  | obj l =>
    show (Json.obj (replaceItem.replaceFirst l name key item)).getObjectItem name = _
    induction l with
    | nil => rfl
    | cons m ms ih =>
      unfold replaceItem.replaceFirst
      by_cases hm : sameKey name m.1 = true
      · rw [if_pos hm, getObjectItem_first hk, getObjectItem_cons, if_pos hm]
        rfl
      · rw [if_neg hm, getObjectItem_cons, if_neg hm, ih, getObjectItem_cons, if_neg hm]
  | _ => rfl

/-- an item under a key that is not looked for is as good as none -/
theorem getObjectItem_replaceItem_lost (j item : Json) {name key name' : String} (hk : sameKey name' key = false) :
    (j.replaceItem name key item).getObjectItem name' = (j.eraseItem name).getObjectItem name' := by
  cases j with
  | obj l =>
    show (Json.obj (replaceItem.replaceFirst l name key item)).getObjectItem name'
      = (Json.obj (l.eraseP fun m => sameKey name m.1)).getObjectItem name'
    induction l with
    | nil => rfl
    | cons m ms ih =>
      unfold replaceItem.replaceFirst
      rw [List.eraseP_cons]
      cases hm : sameKey name m.1 with
      | true => rw [if_pos rfl, getObjectItem_later hk]; rfl
      | false => rw [if_neg Bool.false_ne_true, getObjectItem_cons, ih, cond_false, getObjectItem_cons]
  | _ => rfl

/-- nothing is replaced where the member is there already -/
theorem replaceItem_eq_self_iff {j : Json} {name key : String} {item : Json} (h : (j.member name).isSome = true) :
    j.replaceItem name key item = j ↔ j.member name = some (key, item) := by
  cases j with
  | obj l =>
    have hl : ∀ l : List (String × Json), (l.find? fun m => sameKey name m.1).isSome = true →
        (replaceItem.replaceFirst l name key item = l ↔ (l.find? fun m => sameKey name m.1) = some (key, item)) := fun l => by
      induction l with
      | nil => intro hn; cases hn
      | cons m ms ih =>
        intro hs
        unfold replaceItem.replaceFirst
        rw [List.find?_cons] at hs ⊢
        cases hm : sameKey name m.1 with
        | true =>
          rw [if_pos rfl]
          dsimp only
          constructor
          · intro e
            rw [(List.cons.inj e).1]
          · intro e
            rw [Option.some.inj e]
        | false =>
          rw [hm] at hs
          rw [if_neg Bool.false_ne_true]
          dsimp only
          rw [← ih hs]
          exact ⟨fun e => (List.cons.inj e).2, fun e => by rw [e]⟩
    refine Iff.trans ?_ (hl l h)
    exact ⟨fun e => Json.obj.inj e, fun e => congrArg Json.obj e⟩
  | _ => cases h

theorem modifyItem_eq_self_iff {j item : Json} {name : String} {f : Json → Json}
    (h : j.getObjectItem name = some item) :
    j.modifyItem name f = j ↔ f item = item := by
  cases j with
  | obj l =>
    have hl : ∀ l : List (String × Json), (Json.obj l).getObjectItem name = some item →
        (modifyItem.modifyFirst l name f = l ↔ f item = item) := fun l => by
      induction l with
      | nil => intro hn; cases hn
      | cons m ms ih =>
        intro hs
        unfold modifyItem.modifyFirst
        rw [getObjectItem_cons] at hs
        by_cases hm : sameKey name m.1 = true
        · rw [if_pos hm] at hs ⊢
          obtain rfl := Option.some.inj hs
          constructor
          · intro e
            exact congrArg Prod.snd (List.cons.inj e).1
          · intro e
            rw [e]
        · rw [if_neg hm] at hs ⊢
          rw [← ih hs]
          exact ⟨fun e => (List.cons.inj e).2, fun e => by rw [e]⟩
    rw [← hl l h]
    exact ⟨fun e => Json.obj.inj e, fun e => congrArg Json.obj e⟩
  | _ => cases h

end Json

/-! ## accounts -/

/-- the database with another password for the user; `key` is the key that its member gets -/
def withPassword (userName key encrypted : String) (d : Json) : Json :=
  d.modifyItem "users" fun users => users.modifyItem userName fun user =>
    user.replaceItem "password" key (.str encrypted)

/-- the database in which the account of the user has no password, or the next one of that name -/
def withoutPassword (userName : String) (d : Json) : Json :=
  d.modifyItem "users" fun users => users.modifyItem userName fun user => user.eraseItem "password"

theorem accountOf_modify (d : Json) (userName name : String) (f : Json → Json) :
    accountOf (some (d.modifyItem "users" fun users => users.modifyItem userName f)) name
      = if sameKey userName name then (accountOf (some d) name).map f else accountOf (some d) name := by
  unfold accountOf
  rw [Option.bind_some, Option.bind_some, getObjectItem_modifyItem, if_pos (by decide)]
  cases d.getObjectItem "users" with
  | none =>
    show none = if sameKey userName name then Option.map f none else none
    by_cases h : sameKey userName name = true
    · rw [if_pos h]; rfl
    · rw [if_neg h]
  | some users =>
    rw [Option.map_some, Option.bind_some, Option.bind_some]
    exact getObjectItem_modifyItem users userName name f

/-- what `credentials_ok` asks of the account of the user -/
def accepts (crypt : String → String → Option String) (passwd : String) (user : Json) : Option Json :=
  match user.getObjectItem "password" with
  | some (.str password) =>
    match crypt passwd password with
    | none => none
    | some encrypted => if password == encrypted then user.getObjectItem "auth" else none
  | _ => none

theorem credentialsOk_eq (platform : Platform) (userData : Option Json) (userName passwd : String) :
    credentialsOk platform userData userName passwd
      = (accountOf userData userName).bind fun user => accepts platform.crypt passwd user := by
  unfold credentialsOk accepts
  cases accountOf userData userName <;> rfl

theorem accepts_congr {crypt : String → String → Option String} {passwd : String} {user user' : Json}
    (hp : user'.getObjectItem "password" = user.getObjectItem "password")
    (ha : user'.getObjectItem "auth" = user.getObjectItem "auth") :
    accepts crypt passwd user' = accepts crypt passwd user := by
  unfold accepts
  rw [hp, ha]

/-- a password and its own hash -/
theorem accepts_hash {crypt : String → String → Option String} {passwd encrypted : String} {user : Json}
    (hp : user.getObjectItem "password" = some (.str encrypted)) (hc : crypt passwd encrypted = some encrypted) :
    accepts crypt passwd user = user.getObjectItem "auth" := by
  unfold accepts
  rw [hp]
  dsimp only
  rw [hc]
  dsimp only
  rw [beq_self_eq_true, if_pos rfl]

section
variable {T : Type} [HashTable T] {env : Env}

/-! ## `change_password` -/

/-- the checks pass, and `encrypted` is to be stored -/
def Stores (env : Env) (b : Broker T) (p : Addr) (userName passwd encrypted : String) : Prop :=
  ∃ password method, checkChangePassword b p userName = .ok password ∧ methodOf password = some (some method) ∧
    env.crypt passwd (saltOf env.random method) = some encrypted

theorem Stores.unique {b : Broker T} {p : Addr} {userName passwd encrypted encrypted' : String}
    (h : Stores env b p userName passwd encrypted) (h' : Stores env b p userName passwd encrypted') :
    encrypted' = encrypted := by
  obtain ⟨password, method, h1, h2, h3⟩ := h
  obtain ⟨password', method', h1', h2', h3'⟩ := h'
  rw [h1] at h1'
  cases h1'
  rw [h2] at h2'
  cases h2'
  rw [h3] at h3'
  cases h3'
  rfl

theorem checkChangePassword_ok {b : Broker T} {p : Addr} {userName password : String}
    (h : checkChangePassword b p userName = .ok password) :
    ∃ current user, b.userName p = some current ∧ accountOf b.userData userName = some user ∧ isReadonly user = false ∧
      (current = userName ∨ isAdmin b.userData current = true) ∧ user.getObjectItem "password"
      = some (.str password) := by
  unfold checkChangePassword at h
  cases hn : b.userName p with
  | none => rw [hn] at h; cases h
  | some current =>
    rw [hn] at h
    cases hu : accountOf b.userData userName with
    | none => rw [hu] at h; cases h
    | some user =>
      simp only [hu] at h
      by_cases hc : (!isReadonly user && (current == userName || isAdmin b.userData current)) = true
      · rw [if_pos hc] at h
        obtain ⟨hr, ha⟩ := Bool.and_eq_true _ _ |>.mp hc
        have ha : current = userName ∨ isAdmin b.userData current = true := by simpa using ha
        cases hp : user.getObjectItem "password" with
        | none => rw [hp] at h; cases h
        | some pw =>
          rw [hp] at h
          cases pw with
          | str s => cases h; exact ⟨current, user, rfl, rfl, by simpa using hr, ha, hp⟩
          | _ => cases h
      · rw [if_neg hc] at h
        cases h

/-- the password has been replaced in memory, as far as there was memory for it -/
def Broker.replaced (b : Broker T) (env : Env) (userName encrypted : String) : Broker T :=
  if env.ok .createItem b.calls then
    { b with
      userData := b.userData.map
        (withPassword userName (if env.ok .duplicateString (b.calls + 1) then "password" else "") encrypted)
      calls := b.calls + 2 }
  else { b with calls := b.calls + 1 }

theorem replacePassword_apply (b : Broker T) (userName encrypted : String) :
    replacePassword env userName encrypted b = some ((), b.replaced env userName encrypted) := by
  unfold replacePassword Broker.replaced
  have h1 : allocating (createString env encrypted) b
      = some (if env.ok .createItem b.calls then some (.str encrypted) else none,
        { b with calls := b.calls + 1 }) := rfl
  rw [Prog.bind_of_some h1]
  cases hc : env.ok .createItem b.calls with
  | false => rfl
  | true =>
    rw [if_pos rfl, if_pos rfl]
    rfl

theorem replaced_passwordFile (b : Broker T) (userName encrypted : String) :
    (b.replaced env userName encrypted).passwordFile = b.passwordFile := by
  unfold Broker.replaced
  cases env.ok .createItem b.calls <;> rfl

/-- without anything to store nothing is changed -/
theorem changePassword_of_not {b b' : Broker T} {p : Addr} {request : Json} {userName passwd : String} {res : Response}
    (hn : ∀ encrypted, ¬ Stores env b p userName passwd encrypted)
    (h : changePassword env p request userName passwd b = some (res, b')) :
    res.verdict = .error ∧ ∃ n, b' = { b with calls := n } := by
  obtain ⟨c, b1, h1, h2⟩ := Prog.bind_some h
  obtain ⟨rfl, rfl⟩ := Prog.read_some h1
  cases hc : checkChangePassword b1 p userName with
  | error err =>
    simp only [hc] at h2
    obtain ⟨json, n, rfl, _, rfl⟩ := errorResponse_some h2
    exact ⟨rfl, n, rfl⟩
  | ok password =>
    simp only [hc] at h2
    obtain ⟨m, b2, h3, h4⟩ := Prog.bind_some h2
    obtain ⟨hm, rfl⟩ := Prog.deref_some h3
    cases m with
    | none =>
      obtain ⟨json, n, rfl, _, rfl⟩ := errorResponse_some h4
      exact ⟨rfl, n, rfl⟩
    | some method =>
      cases he : env.crypt passwd (saltOf env.random method) with
      | none =>
        simp only [he] at h4
        obtain ⟨json, n, rfl, _, rfl⟩ := errorResponse_some h4
        exact ⟨rfl, n, rfl⟩
      | some encrypted => exact absurd ⟨password, method, hc, hm, he⟩ (hn encrypted)

/-- the verdict is that of `write_user_data` -/
def verdictOf (ok : Bool) : Verdict := if ok then .success else .error

theorem changePassword_of {b : Broker T} {p : Addr} {request : Json} {userName passwd encrypted : String} {ok : Bool}
    {file : List UInt8} (hs : Stores env b p userName passwd encrypted)
    (hw : WriteUserData env (b.replaced env userName encrypted) ok file) :
    ∃ res n, changePassword env p request userName passwd b
        = some (res, { b.replaced env userName encrypted with passwordFile := file, calls := n }) ∧
      res.verdict = verdictOf ok := by
  obtain ⟨password, method, hc, hm, he⟩ := hs
  obtain ⟨n, hwrite⟩ := writeUserData_of hw
  have hstored : changePassword env p request userName passwd b = storePassword env request userName encrypted b := by
    unfold changePassword
    rw [Prog.bind_of_some (Prog.read_apply _ _)]
    simp only [id, hc]
    rw [Prog.bind_of_some (Prog.deref_of_some (f := fun _ => methodOf password) hm)]
    simp only [he]
  rw [hstored]
  unfold storePassword
  rw [Prog.bind_of_some (replacePassword_apply b userName encrypted), Prog.bind_of_some hwrite]
  cases ok with
  | true => exact ⟨_, _, rfl, rfl⟩
  | false => exact ⟨_, _, rfl, rfl⟩

end
end Cjet
