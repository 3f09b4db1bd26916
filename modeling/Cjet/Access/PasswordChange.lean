import Cjet.Access.Accounts

/-!
# A password change is all or nothing

`change_password` replaces the password in memory first, then it truncates the file and writes it.

* `AllOrNothing`   what its answer promises about the memory and the file;
* `KeptInMemory`   the replacement leaves the database as it is;
* `Accepted`       the account accepts the password afterwards;
* `StoredWhole`    the ways in which the promise is kept once there is a password to store;
* `changePassword_allOrNothing_iff`   there are no others.
-/

set_option linter.unusedVariables false
set_option linter.unusedSectionVars false

namespace Cjet
open Stateful Alloc

section
variable {T : Type} [HashTable T] {env : Env}

/-- an error leaves the credentials as they are; after a success the new password is accepted, and the file holds the
database of the memory -/
structure AllOrNothing (env : Env) (b : Broker T) (userName passwd : String) (res : Response)
    (b' : Broker T) : Prop where
  nothing : res.verdict = .error → b'.userData = b.userData ∧ b'.passwordFile = b.passwordFile
  all : res.verdict = .success → (credentialsOk env.toPlatform b'.userData userName passwd).isSome = true ∧
    ∃ userData, b'.userData = some userData ∧ b'.passwordFile = env.printJson userData

/-- the string was not created, or the account has this very text as its password -/
inductive KeptInMemory (env : Env) (b : Broker T) (userName encrypted : String) : Prop
  | notCreated (h : env.ok .createItem b.calls = false)
  | same (user : Json) (hu : accountOf b.userData userName = some user)
      (hk : env.ok .duplicateString (b.calls + 1) = true)
      (hm : user.member "password" = some ("password", .str encrypted))

/-- the string was not created, but the old password is the new one; it was created, and the account has an "auth"; or
the copy of its key was not, and the next password of the account is the new one -/
inductive Accepted (env : Env) (b : Broker T) (userName passwd : String) : Prop
  | old (hc : env.ok .createItem b.calls = false)
      (ha : (credentialsOk env.toPlatform b.userData userName passwd).isSome = true)
  | new (hc : env.ok .createItem b.calls = true) (hk : env.ok .duplicateString (b.calls + 1) = true)
      (ha : (authOf b.userData userName).isSome = true)
  | next (hc : env.ok .createItem b.calls = true) (hk : env.ok .duplicateString (b.calls + 1) = false)
      (ha : (credentialsOk env.toPlatform (b.userData.map (withoutPassword userName)) userName passwd).isSome = true)

/-- The file is written to its end; or nothing has changed in memory, and the file was not truncated, or held before
what the failing writes leave. -/
inductive StoredWhole (env : Env) (b : Broker T) (userName passwd encrypted : String) : Prop
  | written (userData : Json) (sizes : List Nat)
      (h : env.ok .ftruncate (b.replaced env userName encrypted).calls = true)
      (hp : env.ok .printUserData ((b.replaced env userName encrypted).calls + 1) = true)
      (hu : (b.replaced env userName encrypted).userData = some userData)
      (hw : Writes env.wrote 0 0 (env.printJson userData).length sizes true)
      (hb : BeginsAnew (env.printJson userData) sizes) (ha : Accepted env b userName passwd)
  | notTruncated (h : env.ok .ftruncate (b.replaced env userName encrypted).calls = false)
      (hk : KeptInMemory env b userName encrypted)
  | notPrinted (h : env.ok .ftruncate (b.replaced env userName encrypted).calls = true)
      (hp : env.ok .printUserData ((b.replaced env userName encrypted).calls + 1) = false)
      (hk : KeptInMemory env b userName encrypted) (hf : b.passwordFile = [])
  | notWritten (userData : Json) (sizes : List Nat)
      (h : env.ok .ftruncate (b.replaced env userName encrypted).calls = true)
      (hp : env.ok .printUserData ((b.replaced env userName encrypted).calls + 1) = true)
      (hu : b.userData = some userData)
      (hw : Writes env.wrote 0 0 (env.printJson userData).length sizes false)
      (hk : KeptInMemory env b userName encrypted) (hf : b.passwordFile = fileAfter (env.printJson userData) sizes)

/-! ## in memory -/

variable {b : Broker T} {p : Addr} {userName passwd encrypted : String}

theorem Stores.account (h : Stores env b p userName passwd encrypted) :
    ∃ d user password, b.userData = some d ∧ accountOf b.userData userName = some user ∧
      user.getObjectItem "password" = some (.str password) := by
  obtain ⟨password, method, hc, _, _⟩ := h
  obtain ⟨current, user, _, hu, _, _, hp⟩ := checkChangePassword_ok hc
  cases hd : b.userData with
  | none => rw [hd] at hu; cases hu
  | some d => exact ⟨d, user, password, rfl, hd ▸ hu, hp⟩

theorem replaced_userData (hc : env.ok .createItem b.calls = true) :
    (b.replaced env userName encrypted).userData
      = b.userData.map
        (withPassword userName (if env.ok .duplicateString (b.calls + 1) then "password" else "") encrypted) := by
  unfold Broker.replaced
  rw [hc]
  rfl

theorem replaced_userData_none (hc : env.ok .createItem b.calls = false) :
    (b.replaced env userName encrypted).userData = b.userData := by
  unfold Broker.replaced
  rw [hc]
  rfl

/-- the account of the user in the new database -/
theorem accountOf_withPassword {d user : Json} {key : String} (hu : accountOf (some d) userName = some user) :
    accountOf (some (withPassword userName key encrypted d)) userName
      = some (user.replaceItem "password" key (.str encrypted)) := by
  unfold withPassword
  rw [accountOf_modify, if_pos (sameKey_refl userName), hu]
  rfl

theorem withPassword_eq_self_iff {d user : Json} {key : String} (hu : accountOf (some d) userName = some user)
    (hm : (user.member "password").isSome = true) :
    withPassword userName key encrypted d = d ↔ user.member "password" = some (key, .str encrypted) := by
  unfold accountOf at hu
  rw [Option.bind_some] at hu
  obtain ⟨users, hus, hus'⟩ := Option.bind_eq_some_iff.mp hu
  unfold withPassword
  rw [Json.modifyItem_eq_self_iff hus, Json.modifyItem_eq_self_iff hus', Json.replaceItem_eq_self_iff hm]

theorem member_isSome {user : Json} {name : String} {item : Json} (h : user.getObjectItem name = some item) :
    (user.member name).isSome = true := by
  rw [Json.getObjectItem_member] at h
  obtain ⟨m, hm, _⟩ := Option.map_eq_some_iff.mp h
  rw [hm]
  rfl

/-- a found member has a key of that name -/
theorem sameKey_of_member {user : Json} {name : String} {m : String × Json} (h : user.member name = some m) :
    sameKey name m.1 = true := by
  cases user with
  | obj l => exact List.find?_some (p := fun m : String × Json => sameKey name m.1) h
  | _ => cases h

theorem keptInMemory_iff (hs : Stores env b p userName passwd encrypted) :
    (b.replaced env userName encrypted).userData = b.userData ↔ KeptInMemory env b userName encrypted := by
  obtain ⟨d, user, password, hd, hu, hp⟩ := hs.account
  have hm := member_isSome hp
  rw [hd] at hu
  cases hc : env.ok .createItem b.calls with
  | false => exact iff_of_true (replaced_userData_none hc) (.notCreated hc)
  | true =>
    have hiff : ∀ key, withPassword userName key encrypted d = d ↔ user.member "password"
      = some (key, .str encrypted) :=
      fun key => withPassword_eq_self_iff hu hm
    rw [replaced_userData hc, hd, Option.map_some, Option.some_inj, hiff]
    constructor
    · intro e
      cases hk : env.ok .duplicateString (b.calls + 1) with
      | true =>
        rw [hk] at e
        exact .same user (by rw [hd]; exact hu) hk e
      | false =>
        rw [hk] at e
        exact absurd (sameKey_of_member e) (show ¬ sameKey "password" "" = true by decide)
    · rintro (h | ⟨user', hu', hk, hm'⟩)
      · rw [hc] at h
        cases h
      · rw [hd, hu] at hu'
        obtain rfl := Option.some.inj hu'
        rw [hk]
        exact hm'

theorem accepted_iff (hcrypt : ∀ key setting text, env.crypt key setting = some text → env.crypt key text = some text)
    (hs : Stores env b p userName passwd encrypted) :
    (credentialsOk env.toPlatform (b.replaced env userName encrypted).userData userName passwd).isSome = true ↔
      Accepted env b userName passwd := by
  obtain ⟨d, user, password, hd, hu, hp⟩ := hs.account
  obtain ⟨_, method, _, _, hcr⟩ := hs
  have hself := hcrypt _ _ _ hcr
  rw [hd] at hu
  cases hc : env.ok .createItem b.calls with
  | false =>
    rw [replaced_userData_none hc]
    constructor
    · exact fun h => .old hc h
    · rintro (⟨_, h⟩ | ⟨h, _, _⟩ | ⟨h, _, _⟩)
      · exact h
      · rw [hc] at h; cases h
      · rw [hc] at h; cases h
  | true =>
    rw [replaced_userData hc, hd, Option.map_some, credentialsOk_eq, accountOf_withPassword hu, Option.bind_some]
    cases hk : env.ok .duplicateString (b.calls + 1) with
    | true =>
      have hfound : (user.replaceItem "password" "password" (.str encrypted)).getObjectItem "password"
          = some (.str encrypted) := by
        rw [Json.getObjectItem_replaceItem_self user _ (sameKey_refl _), hp]
        rfl
      have hauth : (user.replaceItem "password" "password" (.str encrypted)).getObjectItem "auth"
        = user.getObjectItem "auth" :=
        getObjectItem_replaceItem user _ (by decide) (by decide)
      rw [if_pos rfl, accepts_hash hfound hself, hauth]
      constructor
      · exact fun h => .new hc hk (by rw [authOf, hd, hu]; exact h)
      · rintro (⟨h, _⟩ | ⟨_, _, h⟩ | ⟨_, h, _⟩)
        · rw [hc] at h; cases h
        · rw [authOf, hd, hu] at h; exact h
        · rw [hk] at h; cases h
    | false =>
      have hlost : accepts env.crypt passwd (user.replaceItem "password" "" (.str encrypted))
          = accepts env.crypt passwd (user.eraseItem "password") :=
        accepts_congr (Json.getObjectItem_replaceItem_lost user _ (by decide))
          (Json.getObjectItem_replaceItem_lost user _ (by decide))
      have hwithout : credentialsOk env.toPlatform (b.userData.map (withoutPassword userName)) userName passwd
          = accepts env.crypt passwd (user.eraseItem "password") := by
        rw [hd, Option.map_some, credentialsOk_eq, withoutPassword, accountOf_modify,
          if_pos (sameKey_refl userName), hu]
        rfl
      rw [if_neg Bool.false_ne_true, hlost, ← hwithout]
      constructor
      · exact fun h => .next hc hk h
      · rintro (⟨h, _⟩ | ⟨_, h, _⟩ | ⟨_, _, h⟩)
        · rw [hc] at h; cases h
        · rw [hk] at h; cases h
        · exact h

/-! ## in memory and in the file -/

theorem allOrNothing_of_not {request : Json} {res : Response} {b' : Broker T}
    (hn : ∀ encrypted, ¬ Stores env b p userName passwd encrypted)
    (h : changePassword env p request userName passwd b = some (res, b')) :
    AllOrNothing env b userName passwd res b' := by
  obtain ⟨herror, n, rfl⟩ := changePassword_of_not hn h
  refine ⟨fun _ => ⟨rfl, rfl⟩, fun hsuccess => ?_⟩
  rw [herror] at hsuccess
  cases hsuccess

/-- The promise, for each thing that `write_user_data` may do. -/
theorem allOrNothing_iff_of_write
    (hcrypt : ∀ key setting text, env.crypt key setting = some text → env.crypt key text = some text)
    (hs : Stores env b p userName passwd encrypted) {ok : Bool} {file : List UInt8} {n : Nat} {res : Response}
    (hw : WriteUserData env (b.replaced env userName encrypted) ok file) (hres : res.verdict = verdictOf ok) :
    AllOrNothing env b userName passwd res
        { b.replaced env userName encrypted with passwordFile := file, calls := n } ↔
      StoredWhole env b userName passwd encrypted := by
  have hkept := keptInMemory_iff hs
  have haccepted := accepted_iff hcrypt hs
  have hfile : (b.replaced env userName encrypted).passwordFile = b.passwordFile :=
    replaced_passwordFile b userName encrypted
  -- the other outcomes of `write_user_data` are excluded
  have honly : ∀ ok' file', WriteUserData env (b.replaced env userName encrypted) ok' file' → ok' = ok ∧ file' = file :=
    fun ok' file' h => hw.unique h
  constructor
  · intro h
    cases hw with
    | notTruncated ht => exact .notTruncated ht (hkept.mp (h.nothing hres).1)
    | notPrinted ht hp =>
      obtain ⟨h1, h2⟩ := h.nothing hres
      obtain ⟨d, _, _, hd, _⟩ := hs.account
      have hsome : (b.replaced env userName encrypted).userData ≠ none := by rw [h1, hd]; exact Option.some_ne_none _
      exact .notPrinted ht (hp.resolve_left hsome) (hkept.mp h1) h2.symm
    | written userData sizes ok ht hu hp hw =>
      cases ok with
      | true =>
        obtain ⟨h1, userData', h2, h3⟩ := h.all hres
        rw [hu] at h2
        obtain rfl := Option.some.inj h2
        exact .written userData sizes ht hp hu hw ((writes_complete_iff hw.sizes_le).mp h3) (haccepted.mp h1)
      | false =>
        obtain ⟨h1, h2⟩ := h.nothing hres
        have hu' : b.userData = some userData := h1.symm.trans hu
        exact .notWritten userData sizes ht hp hu' hw (hkept.mp h1) h2.symm
  · intro h
    cases h with
    | written userData sizes ht hp hu hw' hb ha =>
      obtain ⟨rfl, rfl⟩ := honly _ _ (.written userData sizes true ht hu hp hw')
      refine ⟨fun herror => ?_, fun _ => ⟨haccepted.mpr ha, userData, hu, (writes_complete_iff hw'.sizes_le).mpr hb⟩⟩
      rw [hres] at herror
      cases herror
    | notTruncated ht hk =>
      obtain ⟨rfl, rfl⟩ := honly _ _ (.notTruncated ht)
      refine ⟨fun _ => ⟨hkept.mpr hk, hfile⟩, fun hsuccess => ?_⟩
      rw [hres] at hsuccess
      cases hsuccess
    | notPrinted ht hp hk hf =>
      obtain ⟨rfl, rfl⟩ := honly _ _ (.notPrinted ht (Or.inr hp))
      refine ⟨fun _ => ⟨hkept.mpr hk, hf.symm⟩, fun hsuccess => ?_⟩
      rw [hres] at hsuccess
      cases hsuccess
    | notWritten userData sizes ht hp hu hw' hk hf =>
      have hu' := (hkept.mpr hk).trans hu
      obtain ⟨rfl, rfl⟩ := honly _ _ (.written userData sizes false ht hu' hp hw')
      refine ⟨fun _ => ⟨hkept.mpr hk, hf.symm⟩, fun hsuccess => ?_⟩
      rw [hres] at hsuccess
      cases hsuccess

/-- **A password change is all or nothing**, exactly where nothing is stored, or what is stored is stored in memory and in
the file. -/
theorem changePassword_allOrNothing_iff (env : Env)
    (hcrypt : ∀ key setting text, env.crypt key setting = some text → env.crypt key text = some text)
    (b : Broker T) (p : Addr) (request : Json) (userName passwd : String) :
    (∀ res b', changePassword env p request userName passwd b = some (res, b') →
      AllOrNothing env b userName passwd res b') ↔
      ∀ encrypted, Stores env b p userName passwd encrypted → StoredWhole env b userName passwd encrypted := by
  constructor
  · intro h encrypted hs
    obtain ⟨ok, file, hw⟩ := writeUserData_end env (b.replaced env userName encrypted)
    obtain ⟨res, n, e, hres⟩ : ∃ res n, changePassword env p request userName passwd b = some (res, _) ∧ _ :=
      changePassword_of hs hw
    exact (allOrNothing_iff_of_write hcrypt hs hw hres).mp (h _ _ e)
  · intro h res b' e
    by_cases hn : ∃ encrypted, Stores env b p userName passwd encrypted
    · obtain ⟨encrypted, hs⟩ := hn
      obtain ⟨ok, file, hw⟩ := writeUserData_end env (b.replaced env userName encrypted)
      obtain ⟨res', n, e', hres⟩ : ∃ res n, changePassword env p request userName passwd b = some (res, _) ∧ _ :=
        changePassword_of hs hw
      rw [e'] at e
      cases e
      exact (allOrNothing_iff_of_write hcrypt hs hw hres).mpr (h encrypted hs)
    · exact allOrNothing_of_not (fun encrypted hs => hn ⟨encrypted, hs⟩) e

end

/-! ## john changes his password -/

theorem writes_whole {wrote : Nat → Nat → Option Nat} {i n : Nat} (hn : 0 < n) (hw : wrote i n = some n) :
    Writes wrote i 0 n [n] true := by
  have hsize : writeSize n n = n := by
    unfold writeSize
    rw [Nat.min_self, Nat.max_eq_right hn]
  have h : Writes wrote i 0 n [writeSize n n] true := .wrote hn hw (.done (by omega))
  rwa [hsize] at h

/-- the database of one user -/
def johnDatabase (password : String) : Json :=
  .obj [("users", .obj [("john", .obj [("password", .str password), ("auth", .obj [])])])]

/-- its text -/
def johnText (password : String) : List UInt8 :=
  ("\x7b\n\t\"users\":\t\x7b\n\t\t\"john\":\t\x7b\n\t\t\t\"password\":\t\"" ++ password
    ++ "\",\n\t\t\t\"auth\":\t\x7b\n\t\t\t\x7d\n\t\t\x7d\n\t\x7d\n\x7d").toUTF8.toList

/-- the hash of `secret` with the salt `aa`, and that of `doe` with the salt `ab` -/
def johnPlatform : Platform :=
  { Platform.small with
    crypt := fun key _ =>
      if key = "secret" then some "aa3kxsKzvuQMc" else if key = "doe" then some "ab.jrKnqD7PdA" else none
    printJson := fun _ => johnText "aa3kxsKzvuQMc" }

def johnEnv (wrote : Nat → Nat → Option Nat) : Env where
  toPlatform := johnPlatform
  toOutcomes := { Outcomes.good with wrote := wrote }

theorem johnEnv_crypt (wrote : Nat → Nat → Option Nat) : ∀ key setting text,
    (johnEnv wrote).crypt key setting = some text → (johnEnv wrote).crypt key text = some text := fun _ _ _ h => h

/-- john has authenticated with his password `doe` -/
def johnBroker : Broker SlotTable :=
  let b := Broker.start Platform.small.config (some []) (some (johnDatabase "ab.jrKnqD7PdA")) (johnText "ab.jrKnqD7PdA")
  { b with userName := Function.update b.userName 1 (some "john") }

def johnRequest : Json := .request (some (.num 1)) "passwd" [("user", .str "john"), ("password", .str "secret")]

theorem john_stored :
    ∃ res b', changePassword (johnEnv fun _ n => some n) 1 johnRequest "john" "secret" johnBroker = some (res, b') ∧
    AllOrNothing (johnEnv fun _ n => some n) johnBroker "john" "secret" res b' := by
  have hrun : (changePassword (johnEnv fun _ n => some n) 1 johnRequest "john" "secret" johnBroker).isSome = true := by
    decide +kernel
  obtain ⟨⟨res, b'⟩, e⟩ := Option.isSome_iff_exists.mp hrun
  refine ⟨res, b', e, (changePassword_allOrNothing_iff _ (johnEnv_crypt _) johnBroker 1 johnRequest "john" "secret").mpr
    (fun encrypted _ => ?_) res b' e⟩
  have hlen : 0 < (johnText "aa3kxsKzvuQMc").length := by decide +kernel
  exact .written _ _ rfl rfl rfl (writes_whole hlen rfl) (beginsAnew_whole _) (.new rfl rfl (by decide +kernel))

/-- The disk is full: the answer is an error, the old password is gone, and so are all accounts from the file. -/
theorem fullDisk_forgets : ¬ ∀ (env : Env) (b b' : Broker SlotTable) (p : Addr) (request : Json)
    (userName passwd : String)
    (res : Response),
    (∀ key setting text, env.crypt key setting = some text → env.crypt key text = some text) →
    changePassword env p request userName passwd b = some (res, b') → AllOrNothing env b userName passwd res b' := by
  intro h
  have hrun : (changePassword (johnEnv fun _ _ => none) 1 johnRequest "john" "secret" johnBroker).any
      (fun r => r.1.verdict == .error && r.2.passwordFile.isEmpty) = true := by decide +kernel
  obtain ⟨⟨res, b'⟩, e, hr⟩ := Option.any_eq_true _ _ |>.mp hrun
  obtain ⟨herror, hempty⟩ := Bool.and_eq_true _ _ |>.mp hr
  have hfile := ((h _ _ b' _ _ _ _ res (johnEnv_crypt _) e).nothing (eq_of_beq herror)).2
  rw [hfile] at hempty
  exact absurd hempty (by decide +kernel)

end Cjet
