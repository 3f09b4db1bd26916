import Cjet.Access.PasswordChange

/-!
# Who changes a password

A peer changes the password of the account that it authenticated as, or that of any account if it authenticated as an
administrator.

* `OnlyMember`       two objects that differ in the first member of a name only;
* `UserStep`         what a step does to the names of the peers and to the database;
* `Verified`         the credentials of a user were checked for the peer, and it is still connected;
* `remembered_run`   the invariant: a peer remembers only names that were verified for it;
* `password_owner`   each change of the database in a run in which all allocations succeed.
-/

set_option linter.unusedVariables false
set_option linter.unusedSectionVars false

namespace Cjet
open Stateful Alloc

/-! ## one member -/

/-- the objects differ in the first member of that name only, and there as `R` says -/
inductive OnlyMember (name : String) (R : String × Json → String × Json → Prop) : Json → Json → Prop
  | mk (pre post : List (String × Json)) (m m' : String × Json) (hm : sameKey name m.1 = true)
      (hpre : ∀ x ∈ pre, sameKey name x.1 = false) (h : R m m') :
    OnlyMember name R (.obj (pre ++ m :: post)) (.obj (pre ++ m' :: post))

/-- the key stays, and the items are related -/
def SameKeyAnd (R : Json → Json → Prop) (m m' : String × Json) : Prop := m'.1 = m.1 ∧ R m.2 m'.2

theorem OnlyMember.mono {name : String} {R S : String × Json → String × Json → Prop} (hRS : ∀ m m', R m m' → S m m')
    {j j' : Json} (h : OnlyMember name R j j') : OnlyMember name S j j' := by
  obtain ⟨pre, post, m, m', hm, hpre, h⟩ := h
  exact ⟨pre, post, m, m', hm, hpre, hRS m m' h⟩

theorem OnlyMember.cons {name : String} {R : String × Json → String × Json → Prop} {x : String × Json}
    (hx : sameKey name x.1 = false) {l l' : List (String × Json)} (h : OnlyMember name R (.obj l) (.obj l')) :
    OnlyMember name R (.obj (x :: l)) (.obj (x :: l')) := by
  cases h with
  | mk pre post m m' hm hpre h =>
    refine .mk (x :: pre) post m m' hm (fun y hy => ?_) h
    rcases List.mem_cons.mp hy with rfl | hy
    · exact hx
    · exact hpre y hy

theorem onlyMember_modifyItem {j item : Json} {name : String} {f : Json → Json} (h : j.getObjectItem name = some item) :
    OnlyMember name (fun m m' => m.2 = item ∧ m' = (m.1, f item)) j (j.modifyItem name f) := by
  cases j with
  | obj l =>
    show OnlyMember name _ (.obj l) (.obj (Json.modifyItem.modifyFirst l name f))
    induction l with
    | nil => cases h
    | cons m ms ih =>
      unfold Json.modifyItem.modifyFirst
      rw [Json.getObjectItem_cons] at h
      by_cases hm : sameKey name m.1 = true
      · rw [if_pos hm] at h ⊢
        obtain rfl := Option.some.inj h
        exact .mk [] ms m (m.1, f m.2) hm (fun x hx => absurd hx List.not_mem_nil) ⟨rfl, rfl⟩
      · rw [if_neg hm] at h ⊢
        exact (ih h).cons (eq_false_of_ne_true hm)
  | _ => cases h

theorem onlyMember_replaceItem {j item : Json} {name key : String} (h : (j.getObjectItem name).isSome = true) :
    OnlyMember name (fun _ m' => m' = (key, item)) j (j.replaceItem name key item) := by
  cases j with
  | obj l =>
    show OnlyMember name _ (.obj l) (.obj (Json.replaceItem.replaceFirst l name key item))
    induction l with
    | nil => cases h
    | cons m ms ih =>
      unfold Json.replaceItem.replaceFirst
      rw [Json.getObjectItem_cons] at h
      by_cases hm : sameKey name m.1 = true
      · rw [if_pos hm]
        exact .mk [] ms m (key, item) hm (fun x hx => absurd hx List.not_mem_nil) rfl
      · rw [if_neg hm] at h ⊢
        exact (ih h).cons (eq_false_of_ne_true hm)
  | _ => cases h

/-- the databases differ in the password of the user's account only, which is the text in the second one -/
def OnlyPassword (userName text : String) : Json → Json → Prop :=
  OnlyMember "users" (SameKeyAnd
    (OnlyMember userName (SameKeyAnd (OnlyMember "password" fun _ m' => m' = ("password", .str text)))))

theorem onlyPassword_withPassword {d user : Json} {userName text : String}
    (hu : accountOf (some d) userName = some user)
    (hp : (user.getObjectItem "password").isSome = true) :
    OnlyPassword userName text d (withPassword userName "password" text d) := by
  unfold accountOf at hu
  rw [Option.bind_some] at hu
  obtain ⟨users, hus, hus'⟩ := Option.bind_eq_some_iff.mp hu
  refine (onlyMember_modifyItem hus).mono ?_
  rintro ⟨k, _⟩ _ ⟨rfl, rfl⟩
  refine ⟨rfl, (onlyMember_modifyItem hus').mono ?_⟩
  rintro ⟨k, _⟩ _ ⟨rfl, rfl⟩
  exact ⟨rfl, onlyMember_replaceItem hp⟩

/-- the other fields of all accounts are untouched -/
theorem field_withPassword (d : Json) (userName text name field : String) (hf : sameKey "password" field = false) :
    (accountOf (some (withPassword userName "password" text d)) name).bind (fun user => user.getObjectItem field)
      = (accountOf (some d) name).bind fun user => user.getObjectItem field := by
  unfold withPassword
  rw [accountOf_modify]
  by_cases h : sameKey userName name = true
  · rw [if_pos h]
    cases accountOf (some d) name with
    | none => rfl
    | some user =>
      exact getObjectItem_replaceItem user _ hf (by rw [sameKey_comm]; exact hf)
  · rw [if_neg h]

section
variable {T : Type} [HashTable T]

/-! ## steps -/

inductive UserStep (env : Env) (b : Broker T) : Event → Broker T → Prop
  | same (e : Event) (b' : Broker T) (hn : b'.userName = b.userName) (hu : b'.userData = b.userData) :
    UserStep env b e b'
  | connected (p : Addr) (connection : Connection) (isLocal : Bool) (b' : Broker T)
      (hn : b'.userName = Function.update b.userName p none) (hu : b'.userData = b.userData) :
    UserStep env b (.connect p connection isLocal) b'
  | disconnected (p : Addr) (b' : Broker T) (hn : b'.userName = Function.update b.userName p none)
      (hu : b'.userData = b.userData) : UserStep env b (.disconnect p) b'
  | authenticated (p : Addr) (request : Json) (user passwd : String) (name : Option String) (b' : Broker T)
      (hm : request.HasMethod "authenticate") (hg : getUserAndPassword request = .ok (user, passwd))
      (hc : (credentialsOk env.toPlatform b.userData user passwd).isSome = true) (hname : ∀ u, name = some u → u = user)
      (hn : b'.userName = Function.update b.userName p name) (hu : b'.userData = b.userData) :
    UserStep env b (.rpc p request) b'
  | changed (p : Addr) (request : Json) (userName passwd encrypted : String) (b' : Broker T)
      (hm : request.HasMethod "passwd") (hg : getUserAndPassword request = .ok (userName, passwd))
      (hs : Stores env b p userName passwd encrypted) (hn : b'.userName = b.userName)
      (hu : b'.userData = (b.replaced env userName encrypted).userData) : UserStep env b (.rpc p request) b'

variable {env : Env} {b b' : Broker T} {p : Addr} {request : Json} {res : Response}

theorem checkAuthenticate_verified {user : String} {auth : Json}
    (h : checkAuthenticate env b p request = .ok (user, auth)) :
    ∃ passwd, getUserAndPassword request = .ok (user, passwd) ∧
      (credentialsOk env.toPlatform b.userData user passwd).isSome = true := by
  unfold checkAuthenticate at h
  cases hu : getUserAndPassword request with
  | error err => rw [hu] at h; cases h
  | ok up =>
    obtain ⟨user', passwd⟩ := up
    rw [hu] at h
    cases hl : (b.fetchList p).isEmpty with
    | false => simp only [hl, bind, Except.bind] at h; cases h
    | true =>
      simp only [hl, bind, Except.bind] at h
      cases hc : credentialsOk env.toPlatform b.userData user' passwd with
      | none => simp only [hc] at h; cases h
      | some auth' =>
        simp only [hc] at h
        cases h
        exact ⟨passwd, rfl, by rw [hc]; rfl⟩

theorem userStep_passwd (hm : request.HasMethod "passwd") (h : handleChangePassword env p request b = some (res, b')) :
    UserStep env b (.rpc p request) b' := by
  unfold handleChangePassword at h
  cases hg : getUserAndPassword request with
  | error err =>
    rw [hg] at h
    obtain ⟨json, n, _, _, rfl⟩ := errorResponse_some h
    exact .same _ _ rfl rfl
  | ok up =>
    obtain ⟨userName, passwd⟩ := up
    rw [hg] at h
    by_cases hn : ∃ encrypted, Stores env b p userName passwd encrypted
    · obtain ⟨encrypted, hs⟩ := hn
      obtain ⟨ok, file, hw⟩ := writeUserData_end env (b.replaced env userName encrypted)
      obtain ⟨res', n, e, _⟩ : ∃ res n, changePassword env p request userName passwd b = some (res, _) ∧ _ :=
        changePassword_of hs hw
      have h : changePassword env p request userName passwd b = some (res, b') := h
      rw [e] at h
      cases h
      refine .changed p request userName passwd encrypted _ hm hg hs ?_ rfl
      unfold Broker.replaced
      cases env.ok .createItem b.calls <;> rfl
    · obtain ⟨_, n, rfl⟩ := changePassword_of_not (fun encrypted hs => hn ⟨encrypted, hs⟩) h
      exact .same _ _ rfl rfl

theorem userStep_add (h : AddElement env b p request res b') : b'.userName = b.userName ∧ b'.userData = b.userData := by
  cases h with
  | rejected json n => exact ⟨rfl, rfl⟩
  | notNotified json el n n' b1 _ h1 =>
    obtain ⟨sub, table, l, k, _, rfl⟩ := enterNewElement h1
    exact ⟨rfl, rfl⟩
  | full json el n n' b1 _ h1 _ =>
    obtain ⟨sub, table, l, k, _, rfl⟩ := enterNewElement h1
    exact ⟨rfl, rfl⟩
  | added json el n n' b1 _ h1 _ =>
    obtain ⟨sub, table, l, k, _, rfl⟩ := enterNewElement h1
    exact ⟨rfl, rfl⟩

theorem handled_users (hS : b.toStore.Sound) (h : Handled env b p request res b') :
    UserStep env b (.rpc p request) b' := by
  cases h with
  | change _ h =>
    cases h with
    | rejected json n _ => exact .same _ _ rfl rfl
    | replaced json e el value ok l n n' _ _ _ => exact .same _ _ rfl rfl
  | add _ h =>
    obtain ⟨hn, hu⟩ := userStep_add h
    exact .same _ _ hn hu
  | remove _ h =>
    rcases removeElementFromPeer_some h with ⟨json, n, _, rfl⟩ | ⟨params, path, e, b1, json, n, _, _, h1, _, rfl⟩
    · exact .same _ _ rfl rfl
    · obtain ⟨el, ok, l, m, _, _, rfl⟩ := removeElement_some h1
      exact .same _ _ rfl rfl
  | fetch _ h =>
    cases h with
    | rejected json n _ => exact .same _ _ rfl rfl
    | fetched json ft ok n n' b1 _ h1 =>
      obtain ⟨sub, elements, l, k, _, rfl⟩ := enterElements hS.nodup_allElements h1
      exact .same _ _ rfl rfl
  | unfetch _ h =>
    rcases removeFetchFromPeer_some h with ⟨json, n, _, rfl⟩ | ⟨f, b1, json, n, _, h1, _, rfl⟩
    · exact .same _ _ rfl rfl
    · obtain ⟨b2, ⟨elements, rfl, _⟩, rfl⟩ := removeFetch_some h1
      exact .same _ _ rfl rfl
  | authenticate hm h =>
    cases h with
    | rejected json n _ => exact .same _ _ rfl rfl
    | accepted json n user auth hc =>
      obtain ⟨passwd, hg, hcred⟩ := checkAuthenticate_verified hc
      refine .authenticated p request user passwd _ _ hm hg hcred (fun u e => ?_) rfl rfl
      cases hok : env.ok .duplicateString b.calls with
      | true => rw [hok] at e; exact (Option.some.inj e).symm
      | false => rw [hok] at e; cases e
  | passwd hm h => exact userStep_passwd hm h
  | other _ h hu => exact .same _ _ h.userName hu

theorem UserStep.congr {e : Event} {b1 : Broker T} (h : UserStep env b e b') (hn : b1.userName = b'.userName)
    (hu : b1.userData = b'.userData) : UserStep env b e b1 := by
  cases h with
  | same _ _ hn' hu' => exact .same _ _ (hn.trans hn') (hu.trans hu')
  | connected p connection isLocal _ hn' hu' => exact .connected p connection isLocal _ (hn.trans hn') (hu.trans hu')
  | disconnected p _ hn' hu' => exact .disconnected p _ (hn.trans hn') (hu.trans hu')
  | authenticated p request user passwd name _ hm hg hc hname hn' hu' =>
    exact .authenticated p request user passwd name _ hm hg hc hname (hn.trans hn') (hu.trans hu')
  | changed p request userName passwd encrypted _ hm hg hs hn' hu' =>
    exact .changed p request userName passwd encrypted _ hm hg hs (hn.trans hn') (hu.trans hu')

theorem stepped_users {e : Event} (hS : b.toStore.Sound) (h : Stepped env b e b') : UserStep env b e b' := by
  cases h with
  | notConnected p connection isLocal n => exact .same _ _ rfl rfl
  | connected p connection isLocal n hp => exact .connected p connection isLocal _ rfl rfl
  | answered p request res ret b1 b2 hp hr h1 h2 =>
    obtain ⟨_, n, l, rfl, _, _⟩ := sendResponse_some h2
    exact (handled_users hS (handlerOf_some h1)).congr rfl rfl
  | response p request response resultType ret b1 hp hr h1 =>
    have hacc := (does_handleRoutingResponse env request response resultType p b ret b1 h1).accounts
    exact .same _ _ (congrArg Accounts.userName hacc) (congrArg Accounts.userData hacc)
  | timeout r b1 ht h1 =>
    have hacc := (does_requestTimeoutHandler env r b () _ h1).accounts
    exact .same _ _ (congrArg Accounts.userName hacc) (congrArg Accounts.userData hacc)
  | disconnected p b1 hp h1 =>
    obtain ⟨b2, b3, b4, r2, h3, h4, rfl⟩ := freePeerResources_some h1
    have s3 := Does.each (E := OnlyStore) _ (fun f _ => does_removeFetch p f) b2 _ b3 h3
    have s4 := Does.each (E := OnlyStore) _ (fun e _ => does_removeElement env e) b3 _ b4 h4
    have hacc : b4.toAccounts = b.toAccounts := s4.accounts.trans (s3.accounts.trans r2.accounts)
    have hu : b4.userData = b.userData := congrArg Accounts.userData hacc
    refine .disconnected p _ ?_ hu
    show Function.update b4.userName p none = _
    rw [congrArg Accounts.userName hacc]

/-! ## runs -/

variable {platform : Platform}

/-- the credentials of the user were checked for `p` in the run, and `p` has not gone away since -/
def Verified (platform : Platform) (s : Broker T) (l : List Input) (p : Addr) (user : String) : Prop :=
  ∃ pre i post b request passwd, l = pre ++ i :: post ∧ run (step platform) s pre = some b ∧ i.event = .rpc p request ∧
    request.HasMethod "authenticate" ∧ getUserAndPassword request = .ok (user, passwd) ∧
    (credentialsOk platform b.userData user passwd).isSome = true ∧ ∀ j ∈ post, j.event ≠ .disconnect p

theorem Verified.snoc {s : Broker T} {l : List Input} {p : Addr} {user : String} {i : Input}
    (h : Verified platform s l p user) (hi : i.event ≠ .disconnect p) : Verified platform s (l ++ [i]) p user := by
  obtain ⟨pre, i', post, b, request, passwd, rfl, hb, he, hm, hg, hc, hpost⟩ := h
  refine ⟨pre, i', post ++ [i], b, request, passwd, by rw [List.append_assoc, List.cons_append], hb, he, hm, hg, hc,
    fun j hj => ?_⟩
  rcases List.mem_append.mp hj with hj | hj
  · exact hpost j hj
  · rw [List.mem_singleton.mp hj]
    exact hi

/-- the state of a run: its store is well formed, and its peers remember verified names only -/
structure Remembered (platform : Platform) (s : Broker T) (l : List Input) (b : Broker T) : Prop where
  run : run (step platform) s l = some b
  sound : b.toStore.Sound
  names : ∀ p user, b.userName p = some user → Verified platform s l p user

theorem remembered_step {s b b' : Broker T} {l : List Input} {i : Input} (h : Remembered platform s l b)
    (hs : step platform b i = some b') : Remembered platform s (l ++ [i]) b' := by
  have hrun : Stateful.run (step platform) s (l ++ [i]) = some b' := by
    rw [run_append, h.run]
    show (step platform b i).bind (fun t => Stateful.run (step platform) t []) = some b'
    rw [hs]
    rfl
  have hS0 : ({ b with calls := 0 } : Broker T).toStore.Sound := h.sound
  refine ⟨hrun, sound_step h.sound hs, fun p user hp => ?_⟩
  -- a name that was remembered before
  have hold : b.userName p = some user → i.event ≠ .disconnect p →
      Verified platform s (l ++ [i]) p user := fun hold hi =>
    (h.names p user hold).snoc hi
  have hstep := stepped_users hS0 (step_cases hs)
  generalize he : i.event = e at hstep
  cases hstep with
  | same _ _ hn _ =>
    by_cases hi : e = .disconnect p
    · -- a peer that goes away is forgotten
      subst hi
      have hgone := step_cases hs
      rw [he] at hgone
      cases hgone with
      | disconnected _ _ _ h1 =>
        obtain ⟨b2, b3, b4, _, _, _, rfl⟩ := freePeerResources_some h1
        have hp : Function.update b4.userName p none p = some user := hp
        rw [Function.update_self] at hp
        cases hp
    · exact hold (by rw [← hp, hn]) (by rwa [he])
  | connected q connection isLocal _ hn _ =>
    rw [hn] at hp
    by_cases e1 : p = q
    · rw [e1, Function.update_self] at hp
      cases hp
    · rw [Function.update_of_ne e1] at hp
      exact hold hp (by rw [he]; exact fun e2 => by cases e2)
  | disconnected q _ hn _ =>
    rw [hn] at hp
    by_cases e1 : p = q
    · rw [e1, Function.update_self] at hp
      cases hp
    · rw [Function.update_of_ne e1] at hp
      refine hold hp ?_
      rw [he]
      rintro ⟨⟩
      exact e1 rfl
  | authenticated q request user' passwd name _ hm hg hc hname hn _ =>
    rw [hn] at hp
    by_cases e1 : p = q
    · subst e1
      rw [Function.update_self] at hp
      obtain rfl := hname user hp
      exact ⟨l, i, [], b, request, passwd, rfl, h.run, he, hm, hg, hc, fun j hj => absurd hj List.not_mem_nil⟩
    · rw [Function.update_of_ne e1] at hp
      exact hold hp (by rw [he]; exact fun e2 => by cases e2)
  | changed q request userName passwd encrypted _ hm hg hs' hn _ =>
    exact hold (by rw [← hp, hn]) (by rw [he]; exact fun e2 => by cases e2)

theorem remembered_run {s b : Broker T} {l : List Input} (h0 : s.IsStart platform)
    (h : run (step platform) s l = some b) : Remembered platform s l b := by
  have hs : Remembered platform s [] s := by
    refine ⟨rfl, sound_run (l := []) h0 rfl, fun p user hp => ?_⟩
    obtain ⟨allGroups, userData, passwordFile, rfl⟩ := h0
    cases hp
  exact run_history (c := fun _ _ => True) (fun _ _ _ _ hI _ hstep => remembered_step hI hstep) hs
    (Along.of_forall (fun _ _ => trivial) s l) h

/-- Who changed the database, and what of it: a peer whose credentials were verified for the very account, or for that of
an administrator, has changed the password of an account that is not readonly. -/
structure PasswordChanged (platform : Platform) (s : Broker T) (l : List Input) (b : Broker T)
    (event : Event) (b' : Broker T) :
    Prop where
  byPasswd : ∃ p request userName passwd current, event = .rpc p request ∧ request.HasMethod "passwd" ∧
    getUserAndPassword request = .ok (userName, passwd) ∧ Verified platform s l p current ∧
    (current = userName ∨ isAdmin b.userData current = true) ∧
    (∃ user, accountOf b.userData userName = some user ∧ isReadonly user = false) ∧
    ∃ encrypted d d', b.userData = some d ∧ b'.userData = some d' ∧ OnlyPassword userName encrypted d d'

/-- the administrators and the readonly accounts are those of the database that was read at start-up -/
structure SameRoles (userData userData' : Option Json) : Prop where
  admin : ∀ name, isAdmin userData' name = isAdmin userData name
  readonly : ∀ name, (accountOf userData' name).map isReadonly = (accountOf userData name).map isReadonly

theorem isReadonly_replaceItem (user : Json) (text : String) :
    isReadonly (user.replaceItem "password" "password" (.str text)) = isReadonly user := by
  unfold isReadonly
  rw [getObjectItem_replaceItem user _ (by decide) (by decide)]

theorem sameRoles_withPassword (d : Json) (userName text : String) :
    SameRoles (some d) (some (withPassword userName "password" text d)) where
  admin name := by
    unfold isAdmin
    rw [field_withPassword d userName text name "admin" (by decide)]
  readonly name := by
    unfold withPassword
    rw [accountOf_modify]
    by_cases h : sameKey userName name = true
    · rw [if_pos h]
      cases accountOf (some d) name with
      | none => rfl
      | some user => exact congrArg some (isReadonly_replaceItem user text)
    · rw [if_neg h]

theorem step_database {s b b' : Broker T} {l : List Input} {i : Input} (h : Remembered platform s l b)
    (ha : (i.env platform).AllocOk) (hs : step platform b i = some b') :
    b'.userData = b.userData ∨ PasswordChanged platform s l b i.event b' ∧ SameRoles b.userData b'.userData := by
  have hS0 : ({ b with calls := 0 } : Broker T).toStore.Sound := h.sound
  have hstep := stepped_users hS0 (step_cases hs)
  generalize he : i.event = e at hstep
  cases hstep with
  | same _ _ _ hu => exact Or.inl hu
  | connected _ _ _ _ _ hu => exact Or.inl hu
  | disconnected _ _ _ hu => exact Or.inl hu
  | authenticated _ _ _ _ _ _ _ _ _ _ _ hu => exact Or.inl hu
  | changed p request userName passwd encrypted _ hm hg hst _ hu =>
    obtain ⟨password, method, hcheck, _, _⟩ := hst
    obtain ⟨current, user, hcur, huser, hro, hallowed, hpw⟩ := checkChangePassword_ok hcheck
    have hcur : b.userName p = some current := hcur
    have huser : accountOf b.userData userName = some user := huser
    have hallowed : current = userName ∨ isAdmin b.userData current = true := hallowed
    cases hd : b.userData with
    | none => rw [hd] at huser; cases huser
    | some d =>
      have hnew : b'.userData = some (withPassword userName "password" encrypted d) := by
        rw [hu]
        unfold Broker.replaced
        rw [ha .createItem _ rfl, if_pos rfl, ha .duplicateString _ rfl, if_pos rfl]
        show Option.map _ b.userData = _
        rw [hd]
        rfl
      rw [hnew]
      refine Or.inr ⟨⟨p, request, userName, passwd, current, rfl, hm, hg, h.names p current hcur,
        ?_, ?_, encrypted, d, _, hd,
        hnew, ?_⟩, sameRoles_withPassword d userName encrypted⟩
      · exact hallowed
      · exact ⟨user, huser, hro⟩
      · exact onlyPassword_withPassword (hd ▸ huser) (by rw [hpw]; rfl)

/-- **Only the owner or an administrator changes a password**, and only the password, in every run in which all
allocations succeed. -/
theorem password_owner {s b : Broker T} {l : List Input} (h0 : s.IsStart platform)
    (hc : Along (step platform) (fun _ i => (i.env platform).AllocOk) s l) (h : run (step platform) s l = some b) :
    SameRoles s.userData b.userData ∧ ∀ i b', (i.env platform).AllocOk → step platform b i = some b' →
      b'.userData = b.userData ∨ PasswordChanged platform s l b i.event b' := by
  have hroles := run_history (I := fun l b => Remembered platform s l b ∧ SameRoles s.userData b.userData)
    (fun l b i b' hI ha hstep => ?_) ⟨remembered_run (l := []) h0 rfl, ⟨fun _ => rfl, fun _ => rfl⟩⟩ hc h
  · refine ⟨hroles.2, fun i b' ha hstep => ?_⟩
    rcases step_database hroles.1 ha hstep with hsame | ⟨hchanged, _⟩
    · exact Or.inl hsame
    · exact Or.inr hchanged
  · refine ⟨remembered_step hI.1 hstep, ?_⟩
    rcases step_database hI.1 ha hstep with hsame | ⟨_, hsame⟩
    · rw [hsame]
      exact hI.2
    · exact ⟨fun name => (hsame.admin name).trans (hI.2.admin name),
        fun name => (hsame.readonly name).trans (hI.2.readonly name)⟩

end

/-! ## john again -/

/-- john has authenticated as `JOHN` -/
def johnLogin : List Input :=
  [.connect 1 .websocket true,
   .rpc 1 (.request (some (.num 1)) "authenticate" [("user", .str "JOHN"), ("password", .str "doe")])].map Event.good

/-- he changes the password of the user of this name -/
def johnPasswd (user : String) : Input :=
  Event.good (.rpc 1 (.request (some (.num 1)) "passwd" [("user", .str user), ("password", .str "secret")]))

/-- is this the password of john's account? -/
def hasPassword (text : String) (userData : Option Json) : Bool :=
  match (accountOf userData "john").bind fun user => user.getObjectItem "password" with
  | some (.str password) => password == text
  | _ => false

theorem johnPasswd_changed : ∃ b b' : Broker SlotTable,
    run (step johnPlatform)
      (Broker.start johnPlatform.config (some []) (some (johnDatabase "ab.jrKnqD7PdA")) []) johnLogin = some b ∧
      PasswordChanged johnPlatform (Broker.start johnPlatform.config (some []) (some (johnDatabase "ab.jrKnqD7PdA")) [])
        johnLogin b (johnPasswd "JOHN").event b' := by
  have hrun : (run (step johnPlatform)
      (Broker.start (T := SlotTable) johnPlatform.config (some []) (some (johnDatabase "ab.jrKnqD7PdA")) [])
      johnLogin).any
        (fun b => (step johnPlatform b (johnPasswd "JOHN")).any fun b' =>
          hasPassword "aa3kxsKzvuQMc" b'.userData && !hasPassword "aa3kxsKzvuQMc" b.userData)
            = true := by decide +kernel
  obtain ⟨b, hb, hc⟩ := Option.any_eq_true _ _ |>.mp hrun
  obtain ⟨b', hs, hc⟩ := Option.any_eq_true _ _ |>.mp hc
  have halloc : ∀ e, ((Event.good e).env johnPlatform).AllocOk := fun e c n _ => rfl
  have halong : Along (step johnPlatform) (fun _ i => (i.env johnPlatform).AllocOk)
      (Broker.start (T := SlotTable) johnPlatform.config (some []) (some (johnDatabase "ab.jrKnqD7PdA")) [])
      johnLogin :=
    Along.of_mem (fun i hi _ => by
      obtain ⟨e, _, rfl⟩ := List.mem_map.mp hi
      exact halloc e) _
  refine ⟨b, b', hb, ((password_owner (isStart_start _ _ _ []) halong hb).2 _ b' (halloc _) hs).resolve_left fun e => ?_⟩
  rw [e] at hc
  simp at hc

end Cjet
