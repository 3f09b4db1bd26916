import Cjet.Route.SetOrCall
import Cjet.Store.Chain

/-!
# Who may do what

A peer has the groups of the account it last authenticated as, and none before.  A step keeps this where the
memory of a new peer holds zero group words, and where an authenticate that passes its checks does not fail
when the user name is copied: `init_peer` leaves the group words as they are, and `handle_authentication`
assigns the groups first.

* `SameGroups`             what all other requests leave alone;
* `login`                  the user that each peer is logged in as after a step;
* `allHaveGroups_step`     the groups of the peers after it;
* `neverGranted`           a peer that is not logged in is granted nothing.
-/

set_option linter.unusedVariables false
set_option linter.unusedSectionVars false

namespace Cjet
open Stateful Alloc

/-! ## accounts -/

/-- the authorisation of a user's account -/
def authOf (userData : Option Json) (user : String) : Option Json :=
  (accountOf userData user).bind fun account => account.getObjectItem "auth"

theorem getObjectItem_modifyItem (j : Json) (name name' : String) (f : Json → Json) :
    (j.modifyItem name f).getObjectItem name'
      = if sameKey name name' then (j.getObjectItem name').map f else j.getObjectItem name' := by
  cases j with
  | obj l =>
    show (Json.obj (Json.modifyItem.modifyFirst l name f)).getObjectItem name' = _
    induction l with
    | nil => simp [Json.modifyItem.modifyFirst, Json.getObjectItem_obj]
    | cons m ms ih =>
      unfold Json.modifyItem.modifyFirst
      by_cases hm : sameKey name m.1 = true
      · rw [if_pos hm, Json.getObjectItem_cons, Json.getObjectItem_cons, sameKey_comm name' m.1,
          ← sameKey_trans_false hm]
        by_cases hn : sameKey name name' = true
        · rw [if_pos hn, if_pos hn, if_pos hn]
          rfl
        · rw [if_neg hn, if_neg hn, if_neg hn]
      · rw [if_neg hm, Json.getObjectItem_cons, Json.getObjectItem_cons, ih]
        by_cases hn : sameKey name' m.1 = true
        · have hne : ¬ sameKey name name' = true := fun h => hm (by rwa [sameKey_trans_false h])
          rw [if_pos hn, if_pos hn, if_neg hne]
        · rw [if_neg hn, if_neg hn]
  | _ => by_cases h : sameKey name name' = true <;> simp [Json.modifyItem, Json.getObjectItem, h]

theorem getObjectItem_replaceItem (j : Json) {name key name' : String} (item : Json)
    (hn : sameKey name name' = false) (hk : sameKey name' key = false) :
    (j.replaceItem name key item).getObjectItem name' = j.getObjectItem name' := by
  cases j with
  | obj l =>
    show (Json.obj (Json.replaceItem.replaceFirst l name key item)).getObjectItem name' = _
    induction l with
    | nil => rfl
    | cons m ms ih =>
      unfold Json.replaceItem.replaceFirst
      by_cases hm : sameKey name m.1 = true
      · have hm' : sameKey name' m.1 = false := by rw [sameKey_comm, ← sameKey_trans_false hm, hn]
        rw [if_pos hm, Json.getObjectItem_later hk, Json.getObjectItem_cons, hm']
        rfl
      · rw [if_neg hm, Json.getObjectItem_cons, Json.getObjectItem_cons, ih]
  | _ => rfl

/-- a new password does not touch what the accounts authorise -/
theorem authOf_newPassword (userData : Option Json) (userName user key : String) (password : Json)
    (hk : sameKey "auth" key = false) :
    authOf (userData.map fun d => d.modifyItem "users" fun users => users.modifyItem userName fun account =>
      account.replaceItem "password" key password) user = authOf userData user := by
  cases userData with
  | none => rfl
  | some d =>
    unfold authOf accountOf
    rw [Option.map_some, Option.bind_some, Option.bind_some, getObjectItem_modifyItem, if_pos (by decide)]
    cases d.getObjectItem "users" with
    | none => rfl
    | some users =>
      rw [Option.map_some, Option.bind_some, Option.bind_some, getObjectItem_modifyItem]
      by_cases h : sameKey userName user = true
      · rw [if_pos h]
        cases users.getObjectItem user with
        | none => rfl
        | some account => exact getObjectItem_replaceItem account password (by decide) hk
      · rw [if_neg h]

/-! ## what leaves the groups alone -/

section
variable {T : Type}

/-- no peer is new, and those that are there have their groups, as their accounts have -/
structure SameGroups (b b' : Broker T) : Prop where
  peers : ∀ q ∈ b'.peerList, q ∈ b.peerList
  allGroups : b'.allGroups = b.allGroups
  fetchGroups : b'.fetchGroups = b.fetchGroups
  setGroups : b'.setGroups = b.setGroups
  callGroups : b'.callGroups = b.callGroups
  auths : ∀ user, authOf b'.userData user = authOf b.userData user

instance : IsPreorder (Broker T) SameGroups where
  refl b := ⟨fun _ h => h, rfl, rfl, rfl, rfl, fun _ => rfl⟩
  trans a b c hab hbc :=
    ⟨fun q hq => hab.peers q (hbc.peers q hq), hbc.allGroups.trans hab.allGroups, hbc.fetchGroups.trans hab.fetchGroups,
    hbc.setGroups.trans hab.setGroups, hbc.callGroups.trans hab.callGroups,
    fun user => (hbc.auths user).trans (hab.auths user)⟩

theorem sameGroups_of_accounts {b b' : Broker T} (h : b'.toAccounts = b.toAccounts)
    (hp : ∀ q ∈ b'.peerList, q ∈ b.peerList) : SameGroups b b' :=
  ⟨hp, congrArg Accounts.allGroups h, congrArg Accounts.fetchGroups h, congrArg Accounts.setGroups h,
    congrArg Accounts.callGroups h, fun user => by rw [congrArg Accounts.userData h]⟩

theorem OnlyStore.sameGroups {b b' : Broker T} (h : OnlyStore b b') : SameGroups b b' :=
  sameGroups_of_accounts h.accounts fun q hq => by rwa [h.peerList] at hq

theorem OnlyRouter.sameGroups {b b' : Broker T} (h : OnlyRouter b b') : SameGroups b b' :=
  sameGroups_of_accounts h.accounts fun q hq => by rwa [congrArg Store.peerList h.store] at hq

instance : Allows (T := T) SameGroups := ⟨fun _ _ h => h.onlyStore.sameGroups⟩

section
variable (env : Env)

theorem sameGroups_replacePassword (userName encrypted : String) :
    Does SameGroups (replacePassword (T := T) env userName encrypted) := by
  refine Does.bind (does_allocating _) fun password => ?_
  cases password with
  | none => exact Does.pure _
  | some password =>
    refine Does.bind (does_call env _) fun ok => Does.update fun b => ?_
    refine ⟨fun _ h => h, rfl, rfl, rfl, rfl, fun user => authOf_newPassword _ _ _ _ _ ?_⟩
    cases ok <;> decide

theorem sameGroups_writeUserData : Does SameGroups (writeUserData (T := T) env) := by
  refine Does.bind (does_call env _) fun ok => Does.ite (fun _ => ?_) fun _ => Does.pure _
  refine Does.bind (Does.update fun b => ⟨fun _ h => h, rfl, rfl, rfl, rfl, fun _ => rfl⟩) fun _ =>
    Does.bind (Does.read _) fun b => ?_
  cases b.userData with
  | none => exact Does.pure _
  | some d =>
    refine Does.bind (does_call env _) fun ok => Does.ite (fun _ => ?_) fun _ => Does.pure _
    exact Does.bind (Does.update fun b => ⟨fun _ h => h, rfl, rfl, rfl, rfl, fun _ => rfl⟩) fun _ => Does.pure _

theorem sameGroups_handleChangePassword (p : Addr) (request : Json) :
    Does SameGroups (handleChangePassword (T := T) env p request) := by
  unfold handleChangePassword
  cases getUserAndPassword request with
  | error err => exact does_errorResponse env _ _
  | ok up =>
    refine Does.bind (Does.read _) fun b => ?_
    cases checkChangePassword b p up.1 with
    | error err => exact does_errorResponse env _ _
    | ok password =>
      refine Does.bind (Does.deref _) fun m => ?_
      cases m with
      | none => exact does_errorResponse env _ _
      | some m =>
        dsimp only
        cases env.crypt up.2 (saltOf env.random m) with
        | none => exact does_errorResponse env _ _
        | some encrypted =>
          refine Does.bind (sameGroups_replacePassword env _ _) fun _ =>
            Does.bind (sameGroups_writeUserData env) fun ok =>
            Does.ite (fun _ => does_successResponse env _) fun _ => does_errorResponse env _ _

theorem sameGroups_configPeer (p : Addr) (request : Json) :
    Does SameGroups (configPeer (T := T) env p request) := by
  unfold configPeer
  cases getParams request >>= getName with
  | error err => exact does_errorResponse env _ _
  | ok name =>
    cases name with
    | none => exact does_successResponse env _
    | some name =>
      refine Does.bind (Does.bind (does_allocating _) fun copy => Does.update fun b => ?_) fun _ =>
        does_successResponse env _
      exact ⟨fun _ h => h, rfl, rfl, rfl, rfl, fun _ => rfl⟩

variable [HashTable T]

theorem sameGroups_handlerOf {p : Addr} {request : Json} (hm : ¬ request.HasMethod "authenticate") :
    Does SameGroups (handlerOf (T := T) env p request) := by
  have store : ∀ {m : Prog (Broker T) Response}, Does OnlyStore m → Does SameGroups m := fun h =>
    h.mono fun _ _ => OnlyStore.sameGroups
  have router : ∀ {m : Prog (Broker T) Response}, Does OnlyRouter m → Does SameGroups m := fun h =>
    h.mono fun _ _ => OnlyRouter.sameGroups
  have calls : ∀ {m : Prog (Broker T) Response}, Does OnlyCalls m → Does SameGroups m := fun h =>
    h.mono fun _ _ h => h.onlyStore.sameGroups
  unfold handlerOf
  cases hmethod : request.getObjectItem "method" with
  | none => exact does_errorResponse env _ _
  | some m =>
    cases m with
    | str name =>
      have hname : name ≠ "authenticate" := fun e => hm (by rw [Json.HasMethod, hmethod, e])
      show Does _ (handleMethod env p request name)
      unfold handleMethod
      refine Does.ite (fun _ => store (does_changeState env p request)) fun _ => ?_
      refine Does.ite (fun _ => router (does_setOrCall env p request _)) fun _ => ?_
      refine Does.ite (fun _ => router (does_setOrCall env p request _)) fun _ => ?_
      refine Does.ite (fun _ => store (does_addElementToPeer env p request)) fun _ => ?_
      refine Does.ite (fun _ => store (does_removeElementFromPeer env p request)) fun _ => ?_
      refine Does.ite (fun _ => store (does_processFetch env p request)) fun _ => ?_
      refine Does.ite (fun _ => store (does_removeFetchFromPeer env p request)) fun _ => ?_
      refine Does.ite (fun _ => calls (does_getElements env p request)) fun _ => ?_
      refine Does.ite (fun _ => sameGroups_configPeer env p request) fun _ => ?_
      refine Does.ite (fun _ => calls (does_handleInfo env request)) fun _ => ?_
      refine Does.ite (fun e => absurd e hname) fun _ => ?_
      refine Does.ite (fun _ => sameGroups_handleChangePassword env p request) fun _ => ?_
      exact does_errorResponse env _ _
    | _ => exact does_errorResponse env _ _

end

theorem sameGroups_freePeerResources [HashTable T] {env : Env} {p : Addr} {b b' : Broker T} {u : Unit}
    (h : freePeerResources env p b = some (u, b')) :
    SameGroups b b' := by
  obtain ⟨b2, b3, b4, r2, h3, h4, rfl⟩ := freePeerResources_some h
  have s3 := Does.each (E := OnlyStore) _ (fun f _ => does_removeFetch p f) b2 _ b3 h3
  have s4 := Does.each (E := OnlyStore) _ (fun e _ => does_removeElement env e) b3 _ b4 h4
  have e : b4.toAccounts = b.toAccounts := s4.accounts.trans (s3.accounts.trans r2.accounts)
  have hp : ∀ q ∈ b4.peerList.erase p, q ∈ b4.peerList := fun q hq => List.mem_of_mem_erase hq
  obtain ⟨_, g1, g2, g3, g4, g5⟩ := sameGroups_of_accounts e fun q hq => by
    rwa [s4.peerList, s3.peerList, congrArg Store.peerList r2.store] at hq
  refine ⟨fun q hq => ?_, g1, g2, g3, g4, g5⟩
  rw [← congrArg Store.peerList r2.store, ← s3.peerList, ← s4.peerList]
  exact List.mem_of_mem_erase hq

/-! ## logins -/

section
variable [HashTable T]

/-- the user of a request that is an authenticate and is answered with success -/
def authenticatedAs (env : Env) (b : Broker T) (p : Addr) (request : Json) : Option String :=
  match request.getObjectItem "method" with
  | some (.str method) =>
    if method = "authenticate" then
      match handleAuthentication env p request b with
      | some (⟨.success, _⟩, _) => (getUserAndPassword request).toOption.map (·.1)
      | _ => none
    else none
  | _ => none

/-- the users that the peers are logged in as after a step; a new peer is not logged in -/
def login (platform : Platform) (b : Broker T) (i : Input) (logins : Addr → Option String) :
    Addr → Option String :=
  match i.event with
  | .connect p _ _ => Function.update logins p none
  | .rpc p request =>
    match authenticatedAs (i.env platform) { b with calls := 0 } p request with
    | some user => Function.update logins p (some user)
    | none => logins
  | _ => logins

/-! ## the groups of a peer -/

/-- the groups of the account that the peer is logged in as, or none -/
def HasGroups (b : Broker T) (p : Addr) : Option String → Prop
  | none => b.fetchGroups p = 0 ∧ b.setGroups p = 0 ∧ b.callGroups p = 0
  | some user => ∃ auth, authOf b.userData user = some auth ∧
    b.fetchGroups p = getGroups b.allGroups (auth.getObjectItem "fetchGroups") ∧
    b.setGroups p = getGroups b.allGroups (auth.getObjectItem "setGroups") ∧
    b.callGroups p = getGroups b.allGroups (auth.getObjectItem "callGroups")

theorem HasGroups.congr {b b' : Broker T} {p : Addr} {user : Option String} (h : HasGroups b p user)
    (ha : b'.allGroups = b.allGroups) (hu : ∀ user, authOf b'.userData user = authOf b.userData user)
    (hf : b'.fetchGroups p = b.fetchGroups p) (hs : b'.setGroups p = b.setGroups p)
    (hc : b'.callGroups p = b.callGroups p) : HasGroups b' p user := by
  cases user with
  | none =>
    obtain ⟨h1, h2, h3⟩ := h
    exact ⟨hf.trans h1, hs.trans h2, hc.trans h3⟩
  | some user =>
    obtain ⟨auth, h1, h2, h3, h4⟩ := h
    refine ⟨auth, (hu user).trans h1, ?_⟩
    rw [hf, hs, hc, ha]
    exact ⟨h2, h3, h4⟩

theorem checkAuthenticate_some {env : Env} {b : Broker T} {p : Addr} {request : Json} {user : String}
    {auth : Json} (h : checkAuthenticate env b p request = .ok (user, auth)) :
    (getUserAndPassword request).toOption.map (·.1) = some user ∧ authOf b.userData user = some auth := by
  unfold checkAuthenticate at h
  cases hu : getUserAndPassword request with
  | error err => rw [hu] at h; cases h
  | ok up =>
    obtain ⟨user', passwd⟩ := up
    rw [hu] at h
    cases hl : (b.fetchList p).isEmpty with
    | false => simp only [bind, Except.bind, hl, if_true] at h; cases h
    | true =>
      cases hc : credentialsOk env.toPlatform b.userData user' passwd with
      | none => simp only [bind, Except.bind, hl, hc] at h; cases h
      | some auth' =>
        simp only [bind, Except.bind, hl, hc] at h
        cases h
        refine ⟨rfl, ?_⟩
        unfold credentialsOk at hc
        unfold authOf
        cases hacc : accountOf b.userData user with
        | none => rw [hacc] at hc; cases hc
        | some account =>
          rw [hacc] at hc
          rw [Option.bind_some]
          dsimp only at hc
          split at hc
          · split at hc
            · cases hc
            · split at hc
              · exact hc
              · cases hc
          · cases hc

/-- the memory of a peer that is allocated holds zero group words, and an authenticate that passes its checks
does not fail after that, unless the peer has the groups of the account already -/
structure CleanLogins (platform : Platform) (b : Broker T) (i : Input) : Prop where
  connect : ∀ p memory isLocal, i.event = .connect p (.socket memory) isLocal →
    (i.env platform).ok .malloc 0 = true → memory.NoGroups
  authenticate : ∀ p request user auth, i.event = .rpc p request → request.HasMethod "authenticate" →
    checkAuthenticate (i.env platform) { b with calls := 0 } p request = .ok (user, auth) →
    (i.env platform).ok .duplicateString 0 = true ∨
    b.fetchGroups p = getGroups b.allGroups (auth.getObjectItem "fetchGroups") ∧
    b.setGroups p = getGroups b.allGroups (auth.getObjectItem "setGroups") ∧
    b.callGroups p = getGroups b.allGroups (auth.getObjectItem "callGroups")

/-- every connected peer has the groups of its account -/
def AllHaveGroups (logins : Addr → Option String) (b : Broker T) : Prop :=
  ∀ p ∈ b.peerList, HasGroups b p (logins p)

theorem AllHaveGroups.congr {logins : Addr → Option String} {b b' : Broker T} (h : AllHaveGroups logins b)
    (hg : SameGroups b b') : AllHaveGroups logins b' := fun q hq =>
  (h q (hg.peers q hq)).congr hg.allGroups hg.auths (congrFun hg.fetchGroups q) (congrFun hg.setGroups q)
    (congrFun hg.callGroups q)

section
variable {env : Env} {b b' : Broker T} {p : Addr} {request : Json}

theorem authenticatedAs_other (hm : ¬ request.HasMethod "authenticate") : authenticatedAs env b p request = none := by
  unfold authenticatedAs
  cases hmethod : request.getObjectItem "method" with
  | none => rfl
  | some m =>
    cases m with
    | str name => exact if_neg fun e => hm (by rw [Json.HasMethod, hmethod, e])
    | _ => rfl

theorem authenticatedAs_eq (hm : request.HasMethod "authenticate") {res : Response}
    (h : handleAuthentication env p request b = some (res, b')) : authenticatedAs env b p request
      = if res.verdict = .success then (getUserAndPassword request).toOption.map (·.1) else none := by
  unfold authenticatedAs
  rw [hm]
  obtain ⟨verdict, json⟩ := res
  cases verdict with
  | success => simp [h]
  | error => simp [h]
  | pending => simp [h]

theorem handleMethod_authenticate : handleMethod env p request "authenticate" b
    = handleAuthentication env p request b := by
  unfold handleMethod
  simp only [String.reduceEq, if_false, if_true]

/-- the groups of the peer that authenticates are those of the account -/
theorem allHaveGroups_authenticate {logins : Addr → Option String} (hI : AllHaveGroups logins b)
    (hm : request.HasMethod "authenticate")
    (hclean : ∀ user auth, checkAuthenticate env b p request = .ok (user, auth) →
      env.ok .duplicateString b.calls = true ∨
      b.fetchGroups p = getGroups b.allGroups (auth.getObjectItem "fetchGroups") ∧
      b.setGroups p = getGroups b.allGroups (auth.getObjectItem "setGroups") ∧
      b.callGroups p = getGroups b.allGroups (auth.getObjectItem "callGroups")) {res : Response}
    (h : handleAuthentication env p request b = some (res, b')) :
    AllHaveGroups (match authenticatedAs env b p request with
      | some user => Function.update logins p (some user)
      | none => logins) b' := by
  rw [authenticatedAs_eq hm h]
  have hcase := handleAuthentication_some h
  cases hcase with
  | rejected json n hno =>
    rw [if_neg fun e : Verdict.error = Verdict.success => by cases e]
    exact hI.congr (Allows.calls b _ ⟨n, rfl⟩)
  | accepted json n user auth hc =>
    obtain ⟨huser, hauth⟩ := checkAuthenticate_some hc
    cases hok : env.ok .duplicateString b.calls with
    | true =>
      rw [if_pos rfl, if_pos rfl, huser]
      intro q hq
      by_cases e : q = p
      · subst e
        show HasGroups _ q (Function.update logins q (some user) q)
        rw [Function.update_self]
        exact ⟨auth, hauth, Function.update_self .., Function.update_self .., Function.update_self ..⟩
      · show HasGroups _ q (Function.update logins p (some user) q)
        rw [Function.update_of_ne e]
        exact (hI q hq).congr rfl (fun _ => rfl) (Function.update_of_ne e _ _) (Function.update_of_ne e _ _)
          (Function.update_of_ne e _ _)
    | false =>
      rw [if_neg (by simp)]
      rcases hclean user auth hc with hok' | ⟨h1, h2, h3⟩
      · rw [hok] at hok'
        cases hok'
      · have same : ∀ m : Addr → GroupSet, ∀ x, m p = x → ∀ q, Function.update m p x q = m q := fun m x hx q => by
          rw [← hx, Function.update_eq_self]
        intro q hq
        exact (hI q hq).congr rfl (fun _ => rfl) (same _ _ h1 q) (same _ _ h2 q) (same _ _ h3 q)

/-- where a peer gets into the list its memory has been allocated -/
theorem connectPeer_calls {connection : Connection} {isLocal : Bool} {u : Unit}
    (h : connectPeer env p connection isLocal b = some (u, b')) :
    (∃ n, b' = { b with calls := n }) ∨ env.ok connection.allocation b.calls = true ∧
      ∃ n, b' = b.connected env p connection.memory isLocal n := by
  obtain ⟨ok, b1, h1, h2⟩ := Prog.bind_some h
  obtain ⟨hok, rfl⟩ := call_some h1
  cases ok with
  | false =>
    obtain ⟨_, rfl⟩ := Prog.pure_some h2
    exact Or.inl ⟨_, rfl⟩
  | true =>
    obtain ⟨ok2, b2, h3, h4⟩ := Prog.bind_some h2
    obtain ⟨_, rfl⟩ := Prog.pure_some h4
    rcases initPeer_some h3 with ⟨n, rfl⟩ | ⟨n, rfl⟩
    · exact Or.inl ⟨n, rfl⟩
    · exact Or.inr ⟨hok.symm, n, rfl⟩

/-- a new peer has no groups where its memory held none -/
theorem allHaveGroups_connected {logins : Addr → Option String} {memory : PeerMemory} {isLocal : Bool} {n : Nat}
    (hI : AllHaveGroups logins b) (hmem : memory.NoGroups) :
    AllHaveGroups (Function.update logins p none) (b.connected env p memory isLocal n) := by
  obtain ⟨hfetch, hset, hcall⟩ := hmem
  intro q hq
  by_cases e : q = p
  · subst e
    rw [Function.update_self]
    exact ⟨(Function.update_self ..).trans hfetch, (Function.update_self ..).trans hset,
      (Function.update_self ..).trans hcall⟩
  · rw [Function.update_of_ne e]
    have hq : q ∈ b.peerList ++ [p] := hq
    rcases List.mem_append.mp hq with hq | hq
    · exact (hI q hq).congr rfl (fun _ => rfl) (Function.update_of_ne e _ _) (Function.update_of_ne e _ _)
        (Function.update_of_ne e _ _)
    · exact absurd (List.mem_singleton.mp hq) e

end

theorem allHaveGroups_step {platform : Platform} {logins : Addr → Option String} {b b' : Broker T} {i : Input}
    (hI : AllHaveGroups logins b) (hclean : CleanLogins platform b i) (hs : step platform b i = some b') :
    AllHaveGroups (login platform b i logins) b' := by
  obtain ⟨outcomes, event⟩ := i
  have hI0 : AllHaveGroups logins ({ b with calls := 0 } : Broker T) := hI
  cases event with
  | connect p connection isLocal =>
    obtain ⟨_, b1, h1, h2⟩ := Prog.bind_some (step_some hs)
    obtain ⟨hp, rfl⟩ := Prog.require_some h1
    rcases connectPeer_calls h2 with ⟨n, rfl⟩ | ⟨hok, n, rfl⟩
    · intro q hq
      have hne : q ≠ p := fun e => by
        rw [e] at hq
        simp [show p ∈ b.peerList from hq] at hp
      show HasGroups _ q (Function.update logins p none q)
      rw [Function.update_of_ne hne]
      exact hI q hq
    · refine allHaveGroups_connected hI0 ?_
      cases connection with
      | socket memory => exact hclean.connect p memory isLocal rfl hok
      | websocket => exact ⟨rfl, rfl, rfl⟩
  | rpc p request =>
    have hstep := step_cases hs
    by_cases hm : request.HasMethod "authenticate"
    · obtain ⟨_, res, ret, b1, b2, h1, h2, rfl⟩ := stepped_method _ hm hstep
      rw [handleMethod_authenticate] at h1
      obtain ⟨_, n, l, rfl, _, _⟩ := sendResponse_some h2
      have hA := allHaveGroups_authenticate hI0 hm
        (fun user auth => hclean.authenticate p request user auth rfl hm) h1
      exact hA.congr ⟨fun _ h => h, rfl, rfl, rfl, rfl, fun _ => rfl⟩
    · have hlogin : login platform b ⟨outcomes, .rpc p request⟩ logins = logins := by
        show (match authenticatedAs _ _ p request with | some user => _ | none => _) = _
        rw [authenticatedAs_other hm]
      rw [hlogin]
      cases hstep with
      | answered _ _ res ret b1 b2 hp hr h1 h2 =>
        have hg := sameGroups_handlerOf _ hm _ _ _ h1
        obtain ⟨_, n, l, rfl, _, _⟩ := sendResponse_some h2
        exact hI0.congr ⟨hg.peers, hg.allGroups, hg.fetchGroups, hg.setGroups, hg.callGroups, hg.auths⟩
      | response _ _ response resultType ret b1 hp hr h1 =>
        have hr := does_handleRoutingResponse _ request response resultType p _ ret b1 h1
        have hg := hr.sameGroups
        exact hI0.congr ⟨hg.peers, hg.allGroups, hg.fetchGroups, hg.setGroups, hg.callGroups, hg.auths⟩
  | timeout r =>
    cases step_cases hs with
    | timeout _ _ ht h1 =>
      have hr := does_requestTimeoutHandler _ r _ _ _ h1
      exact hI0.congr hr.sameGroups
  | disconnect p =>
    cases step_cases hs with
    | disconnected _ _ hp h1 =>
      exact hI0.congr (sameGroups_freePeerResources h1)

theorem allGroups_step {platform : Platform} {b b' : Broker T} {i : Input} (hs : step platform b i = some b') :
    b'.allGroups = b.allGroups := by
  obtain ⟨outcomes, event⟩ := i
  cases step_cases hs with
  | notConnected p connection isLocal n => rfl
  | connected p connection isLocal n hp => rfl
  | answered p request res ret b1 b2 hp hr h1 h2 =>
    obtain ⟨_, n, l, rfl, _, _⟩ := sendResponse_some h2
    by_cases hm : request.HasMethod "authenticate"
    · rw [handlerOf_of_method _ hm, handleMethod_authenticate] at h1
      exact (does_handleAuthentication _ p request _ _ _ h1).allGroups
    · exact (sameGroups_handlerOf _ hm _ _ _ h1).allGroups
  | response p request response resultType ret b1 hp hr h1 =>
    exact (does_handleRoutingResponse _ request response resultType p _ ret b1 h1).sameGroups.allGroups
  | timeout r b1 ht h1 => exact (does_requestTimeoutHandler _ r _ _ _ h1).sameGroups.allGroups
  | disconnected p b1 hp h1 => exact (sameGroups_freePeerResources h1).allGroups

/-! ## a peer without groups -/

/-- Every set, call, fetch and get of the peer is refused for every element. -/
structure NeverGranted (b : Broker T) (p : Addr) : Prop where
  setOrCall : ∀ el what path request id, checkSetOrCall b p el what path request ≠ .ok id
  fetch : ∀ el ft, ft.peer = p → wants b.toAccounts el ft = some false
  get : ∀ env ft states e el, ft.peer = p → b.elements e = some el →
    getElement env ft states e b = some (.ok states, b)

theorem hasAccess_noGroups {all : Option (List String)} (h : all.isSome = true) (wanted : GroupSet) :
    hasAccess all wanted 0 = false := by
  obtain ⟨groups, rfl⟩ := Option.isSome_iff_exists.mp h
  exact hasAccess_zero groups wanted

theorem neverGranted {b : Broker T} {p : Addr} (hg : b.allGroups.isSome = true) (h : HasGroups b p none) :
    NeverGranted b p := by
  obtain ⟨hf, hs, hc⟩ := h
  refine ⟨fun el what path request id hok => ?_, fun el ft hft => ?_, fun env ft states e el hft hel => ?_⟩
  · have hheld : heldGroups b p what = 0 := by
      cases what with
      | state => exact hs
      | method => exact hc
    unfold checkSetOrCall at hok
    rw [hheld, hasAccess_noGroups hg] at hok
    split at hok
    · cases hok
    · split at hok
      · cases hok
      · cases hok
  · unfold wants
    rw [hft, hf, hasAccess_noGroups hg]
    rfl
  · have hread : Prog.read (fun b : Broker T => hasAccess b.allGroups el.fetchGroups (b.fetchGroups ft.peer)) b
        = some (false, b) := by
      rw [Prog.read_apply, hft, hf, hasAccess_noGroups hg]
    unfold getElement
    rw [Prog.bind_of_some (deref_element hel), Prog.bind_of_some hread]
    rfl

end

end

end Cjet
