import Cjet.Access.Groups
import Cjet.Served

/-!
# Access control over whole runs

All peers that are served have the groups of the account they last authenticated as, and none before, whether
`init_peer` has succeeded for them or not.  This is so in runs in which the memory allocated for them holds no groups.

* `Service.login`         the users that the peers are logged in as after a step;
* `allHaveGroups_serve`   what a step does to the groups;
* `access_control`        the groups of the peers in every state that a run reaches, and that a peer that is not
                          logged in is granted nothing.
-/

set_option linter.unusedVariables false
set_option linter.unusedSectionVars false

namespace Cjet
open Stateful Alloc

section
variable {T : Type} [HashTable T]

/-- the users that the peers are logged in as after a step; an authenticate that is refused unread logs nobody in -/
def Service.login (platform : Platform) (s : Service T) (i : Input) (logins : Addr → Option String) :
    Addr → Option String :=
  if s.refusesLogin i then logins else Cjet.login platform s.toBroker i logins

def loginsAfter (platform : Platform) : (Addr → Option String) → Service T → List Input → Addr → Option String
  | logins, _, [] => logins
  | logins, s, i :: l =>
    match serve platform s i with
    | none => logins
    | some t => loginsAfter platform (s.login platform i logins) t l

/-- no peer gets groups but those of its account -/
def Service.CleanLogins (platform : Platform) (s : Service T) (i : Input) : Prop :=
  s.refusesLogin i = true ∨ Cjet.CleanLogins platform s.toBroker i

/-! ## the steps -/

/-- the answer to an authenticate that is refused -/
theorem sameGroups_refuseLogin (env : Env) (p : Addr) (request : Json) (user : String) :
    Does SameGroups (refuseLogin (T := T) env p request user) := by
  intro b u b' h
  obtain ⟨response, b1, h1, h2⟩ := Prog.bind_some h
  obtain ⟨ret, b2, h3, h4⟩ := Prog.bind_some h2
  obtain rfl := Prog.update_some h4
  obtain ⟨json, n, rfl, -, rfl⟩ := errorResponse_some h1
  obtain ⟨_, k, l, rfl, -, -⟩ := sendResponse_some h3
  exact ⟨fun _ h => h, rfl, rfl, rfl, rfl, fun _ => rfl⟩

variable {platform : Platform} {s t : Service T} {i : Input}

theorem refusesLogin_known (h : ∀ p request, i.event = .rpc p request → s.uninitialised p = none) :
    s.refusesLogin i = false := by
  obtain ⟨outcomes, event⟩ := i
  cases event with
  | rpc p request =>
    show (s.uninitialised p).any _ = false
    rw [h p request rfl]
    rfl
  | _ => rfl

theorem refusesLogin_of {outcomes : Outcomes} {p : Addr} {request : Json} {memory : PeerMemory}
    (hmemory : s.uninitialised p = some memory) :
    s.refusesLogin ⟨outcomes, .rpc p request⟩ = (refusedLogin memory request).isSome := by
  show (s.uninitialised p).any _ = _
  rw [hmemory]
  rfl

theorem allHaveGroups_serve {logins : Addr → Option String} (hI : AllHaveGroups logins s.toBroker)
    (hclean : s.CleanLogins platform i) (h : serve platform s i = some t) :
    AllHaveGroups (s.login platform i logins) t.toBroker := by
  obtain ⟨outcomes, event⟩ := i
  have hI0 : AllHaveGroups logins ({ s.toBroker with calls := 0 } : Broker T) := hI
  unfold Service.login
  cases serve_cases h with
  | stepped _ b' hknown h1 =>
    have hno : s.refusesLogin ⟨outcomes, event⟩ = false := refusesLogin_known hknown
    rw [Service.CleanLogins, hno] at hclean
    rw [hno]
    exact allHaveGroups_step hI (hclean.resolve_left Bool.false_ne_true) (step_of_handleEvent h1)
  | uninitialised p connection isLocal hok =>
    refine allHaveGroups_connected hI0 ?_
    cases connection with
    | socket memory => exact (hclean.resolve_left Bool.false_ne_true).connect p memory isLocal rfl hok
    | websocket => exact ⟨rfl, rfl, rfl⟩
  | refused p memory request user b' hmemory hrefused h1 =>
    have hyes : s.refusesLogin ⟨outcomes, .rpc p request⟩ = true :=
      (refusesLogin_of (s := s) hmemory).trans (congrArg Option.isSome hrefused)
    rw [if_pos hyes]
    exact hI0.congr (sameGroups_refuseLogin _ _ _ _ _ _ _ h1)
  | heard p memory memory' request b' hmemory hrefused h1 =>
    have hno : s.refusesLogin ⟨outcomes, .rpc p request⟩ = false :=
      (refusesLogin_of (s := s) hmemory).trans (congrArg Option.isSome hrefused)
    rw [Service.CleanLogins, hno] at hclean
    rw [hno]
    exact allHaveGroups_step hI (hclean.resolve_left Bool.false_ne_true) (step_of_handleEvent h1)

theorem allGroups_serve (h : serve platform s i = some t) : t.allGroups = s.allGroups := by
  obtain ⟨outcomes, event⟩ := i
  cases serve_cases h with
  | stepped _ b' hknown h1 => exact allGroups_step (step_of_handleEvent (i := ⟨outcomes, event⟩) h1)
  | uninitialised p connection isLocal hok => rfl
  | refused p memory request user b' hmemory hrefused h1 =>
    exact (sameGroups_refuseLogin _ _ _ _ _ _ _ h1).allGroups
  | heard p memory memory' request b' hmemory hrefused h1 =>
    exact allGroups_step (step_of_handleEvent (i := ⟨outcomes, .rpc p request⟩) h1)

/-! ## the runs -/

theorem allHaveGroups_run {logins : Addr → Option String} {l : List Input} (hI : AllHaveGroups logins s.toBroker)
    (hc : Along (serve platform) (fun s i => s.CleanLogins platform i) s l) (h : run (serve platform) s l = some t) :
    AllHaveGroups (loginsAfter platform logins s l) t.toBroker := by
  induction l generalizing s logins with
  | nil =>
    obtain rfl : s = t := by simpa [run_nil] using h
    exact hI
  | cons i l ih =>
    obtain ⟨t', h1, h2⟩ := run_cons_some h
    have hlogins : loginsAfter platform logins s (i :: l) = loginsAfter platform (s.login platform i logins) t' l := by
      show (match serve platform s i with | none => _ | some t => _) = _
      rw [h1]
    rw [hlogins]
    exact ih (allHaveGroups_serve hI hc.1 h1) (hc.2 t' h1) h2

/-- The groups of each connected peer are those of the account it is logged in as, and a peer that is not
logged in is granted nothing. -/
structure AccessControl (logins : Addr → Option String) (b : Broker T) : Prop where
  groups : ∀ p ∈ b.peerList, HasGroups b p (logins p)
  denied : ∀ p ∈ b.peerList, logins p = none → NeverGranted b p

theorem access_control {start : Broker T} {l : List Input} (h0 : start.IsStart platform)
    (hg : start.allGroups.isSome = true)
    (hc : Along (serve platform) (fun s i => s.CleanLogins platform i) (.of start) l)
    (h : run (serve platform) (.of start) l = some t) :
    AccessControl (loginsAfter platform (fun _ => none) (.of start) l) t.toBroker := by
  have hstart : AllHaveGroups (fun _ => none) start := by
    obtain ⟨allGroups, userData, passwordFile, rfl⟩ := h0
    exact fun p hp => by cases hp
  have hall := allHaveGroups_run (s := .of start) hstart hc h
  have hloaded : t.allGroups.isSome = true :=
    run_keeps (I := fun s : Service T => s.allGroups.isSome = true)
      (fun s i t hs h => by rw [allGroups_serve h]; exact hs) hg h
  refine ⟨hall, fun p hp hl => neverGranted hloaded ?_⟩
  have hpg := hall p hp
  rwa [hl] at hpg

end

/-! ## a login -/

/-- one account, of the user "u" with the password "pw" -/
def oneAccount : Json :=
  .obj [("users", .obj [("u", .obj [("password", .str "pw"), ("auth", .obj [("fetchGroups", .arr [.str "g"])])])])]

def authenticateRequest : Json := .request none "authenticate" [("user", .str "u"), ("password", .str "pw")]

/-- the start of a broker that has loaded groups -/
def groupsLoaded (userData : Option Json) : Broker SlotTable :=
  Broker.start Platform.small.config (some ["g"]) userData []

/-- A peer logs in; a second one cannot, its routing table could not be allocated. -/
def oneLogin : List Input :=
  [Event.good (.connect 1 .websocket true), ⟨Outcomes.failing (· matches .malloc), .connect 2 .websocket true⟩,
   Event.good (.rpc 1 authenticateRequest), Event.good (.rpc 2 authenticateRequest)]

theorem oneLogin_access : ∃ t, run (serve Platform.small) (.of (groupsLoaded (some oneAccount))) oneLogin = some t ∧
    t.peerList = [1, 2] ∧
    AccessControl (loginsAfter Platform.small (fun _ => none) (.of (groupsLoaded (some oneAccount))) oneLogin)
      t.toBroker := by
  have hrun : (run (serve Platform.small) (.of (groupsLoaded (some oneAccount))) oneLogin).any
      (fun t => t.peerList == [1, 2]) = true := by decide +kernel
  obtain ⟨t, ht, hpeers⟩ := Option.any_eq_true _ _ |>.mp hrun
  refine ⟨t, ht, beq_iff_eq.mp hpeers,
    access_control (isStart_start _ _ _ []) rfl (Along.of_mem (fun i hi s => ?_) _) ht⟩
  simp only [oneLogin, List.mem_cons, List.not_mem_nil, or_false] at hi
  refine Or.inr ⟨fun p memory isLocal e => ?_, fun p request user auth e hm hc => ?_⟩
  · rcases hi with rfl | rfl | rfl | rfl <;> cases e
  · rcases hi with rfl | rfl | rfl | rfl
    · cases e
    · cases e
    · exact Or.inl rfl
    · exact Or.inl rfl

/-- a socket peer connects; the memory of its struct held groups -/
def groupsInMemory : List Input :=
  [Event.good (.connect 1 (.socket { PeerMemory.zero with fetchGroups := 1, setGroups := 1, callGroups := 1 }) true)]

/-- A socket peer has the groups that the memory of its struct held. -/
theorem socketPeer_groups :
    ¬ ∀ (start : Broker SlotTable) (t : Service SlotTable) l, start.IsStart Platform.small →
      start.allGroups.isSome = true → run (serve Platform.small) (.of start) l = some t →
      AccessControl (loginsAfter Platform.small (fun _ => none) (.of start) l) t.toBroker := by
  intro hall
  have hrun : (run (serve Platform.small) (.of (groupsLoaded none)) groupsInMemory).any
      (fun t => t.peerList.contains 1 && t.setGroups 1 == 1) = true := by decide +kernel
  obtain ⟨t, ht, hc⟩ := Option.any_eq_true _ _ |>.mp hrun
  simp only [Bool.and_eq_true, List.contains_iff_mem, beq_iff_eq] at hc
  obtain ⟨hp, hset⟩ := hc
  have h1 := (hall (groupsLoaded none) t groupsInMemory (isStart_start _ _ _ []) rfl ht).groups 1 hp
  have hlogin : loginsAfter Platform.small (fun _ => none) (.of (groupsLoaded none)) groupsInMemory 1 = none := by
    decide +kernel
  rw [hlogin] at h1
  rw [h1.2.1] at hset
  cases hset

end Cjet
