import Cjet.Model.Ownership
import Mathlib.Tactic.Abel

/-!
# The nodes of a response

Which allocations may fail without a node being lost or released twice.

* `make_cases`, `attach_cases`   a node, and a node that is added to an object;
* `commonResponse_cases`, `resultResponse_cases`, `errorObject_cases`   what the functions leave behind;
* `CommonCreated`, `ErrorMade`   these functions return something;
* `exactly_once_iff`             the patterns for which all nodes are returned or released, once.
-/

set_option linter.unusedVariables false

namespace Cjet
open Stateful Ledger

namespace Ownership

section
variable {env : Env} {s : Ledger} {t u : Store} {received held : Multiset Nat} {root item : Item} {α β : Type}

theorem bind_of {m : Owning α} {a : α} (h : m t = (a, u)) (f : α → Owning β) : (m >>= f) t = f a u := by
  show f (m t).1 (m t).2 = f a u
  rw [h]

theorem bind_attach {γ : Type} {m : Owning α} {g : α → Owning β} {b : β} (h : (m >>= g) t = (b, u)) (f : β → Owning γ) :
    (m >>= fun a => g a >>= f) t = f b u := bind_of h f

theorem holds_congr {other : Multiset Nat} (h : Holds s t.ledger received held) (heq : held = other) :
    Holds s t.ledger received other := heq ▸ h

theorem holds_delete (h : Holds s t.ledger received (held + item.nodes)) :
    ∃ u, delete item t = ((), u) ∧ Holds s u.ledger received held := ⟨_, rfl, h.release⟩

/-- a value in new nodes -/
theorem make_cases (env : Env) (c : Call) (j : Json) {count : Nat} (hcount : count ≠ 0)
    (h : Holds s t.ledger received held) :
    (env.ok c t.calls = true ∧ ∃ item u, make env c j count hcount t = (some item, u) ∧ u.calls = t.calls + 1 ∧
        Holds s u.ledger received (held + item.nodes)) ∨
      (env.ok c t.calls = false ∧ ∃ u, make env c j count hcount t = (none, u) ∧ u.calls = t.calls + 1 ∧
        Holds s u.ledger received held) := by
  cases hok : env.ok c t.calls with
  | true =>
    refine Or.inl ⟨rfl, placed t j count hcount, _, if_pos hok, rfl, ?_⟩
    exact h.create count
  | false =>
    have hne : ¬env.ok c t.calls = true := Bool.eq_false_iff.mp hok
    exact Or.inr ⟨rfl, _, if_neg hne, rfl, h⟩

/-- An item that is added to an object, or lost. -/
theorem add_cases (env : Env) (key : String) (h : Holds s t.ledger received (held + root.nodes + item.nodes)) :
    ∃ root' u lost, addItemToObject env root key (some item) t = (root', u) ∧ u.calls = t.calls + 1 ∧
      Holds s u.ledger received (held + root'.nodes + lost) ∧ (lost = 0 ↔ env.ok .addItem t.calls = true) := by
  cases hok : env.ok .addItem t.calls with
  | true =>
    refine ⟨root.add key item, { t with calls := t.calls + 1 }, 0, ?_, rfl, ?_, iff_of_true rfl rfl⟩
    · show (if env.ok .addItem t.calls = true then root.add key item else root, _) = _
      rw [if_pos hok]
    · refine holds_congr (t := t) h ?_
      show held + root.nodes + item.nodes = held + (root.nodes + item.nodes) + 0
      abel
  | false =>
    refine ⟨root, { t with calls := t.calls + 1 }, item.nodes, ?_, rfl, h,
      iff_of_false item.nodes_ne Bool.false_ne_true⟩
    show (if env.ok .addItem t.calls = true then root.add key item else root, _) = _
    rw [if_neg (Bool.eq_false_iff.mp hok)]

/-- a new value that is added to an object; where there is none the object is released -/
theorem attach_cases (env : Env) (c : Call) (j : Json) {count : Nat} (hcount : count ≠ 0) (key : String)
    (h : Holds s t.ledger received (held + root.nodes)) :
    (env.ok c t.calls = true ∧ ∃ root' u lost,
        (make env c j count hcount >>= fun value => addSubobjectToObject env root value key) t = (some root', u) ∧
          u.calls = t.calls + 2 ∧ Holds s u.ledger received (held + root'.nodes + lost) ∧
          (lost = 0 ↔ env.ok .addItem (t.calls + 1) = true)) ∨
      (env.ok c t.calls = false ∧ ∃ u,
        (make env c j count hcount >>= fun value => addSubobjectToObject env root value key) t = (none, u) ∧
          Holds s u.ledger received held) := by
  rcases make_cases env c j hcount h with ⟨hok, item, u, hmake, hcalls, hheld⟩ | ⟨hok, u, hmake, hcalls, hheld⟩
  · obtain ⟨root', v, lost, hadd, hcalls', hheld', hlost⟩ := add_cases env key hheld
    refine Or.inl ⟨hok, root', v, lost, ?_, by omega, hheld', ?_⟩
    · rw [bind_of hmake]
      exact bind_of hadd _
    · rw [hlost, hcalls]
  · obtain ⟨v, hdelete, hheld'⟩ := holds_delete hheld
    refine Or.inr ⟨hok, v, ?_, hheld'⟩
    rw [bind_of hmake]
    exact bind_of hdelete _

end

/-! ## when a function returns something -/

section
variable (env : Env) (n : Nat)

/-- `create_common_response` returns an object -/
def CommonCreated (id : Json) : Prop :=
  env.ok .createItem n = true ∧ (responseId id).isSome = true ∧ env.ok .createItem (n + 1) = true

/-- `create_error_object` returns an object -/
def ErrorMade : Prop :=
  env.ok .createItem n = true ∧ env.ok .createItem (n + 1) = true ∧ env.ok .createItem (n + 3) = true ∧
    (env.ok .createItem (n + 5) = true → env.ok .createItem (n + 7) = true)

/-- the calls that `create_error_object` makes then -/
def errorCalls : Nat := if env.ok .createItem (n + 5) = true then 9 else 6

/-! ## when nothing is lost -/

/-- The keys of `id` and of the result can be copied. -/
def ResultKept (id : Json) (result : Option Item) : Prop :=
  CommonCreated env n id →
    env.ok .addItem (n + 2) = true ∧ (result.isSome = true → env.ok .addItem (n + 3) = true)

/-- The keys of the error can be copied, and where there is a `data` object its text as well. -/
def ErrorKept : Prop :=
  env.ok .createItem n = true → env.ok .createItem (n + 1) = true →
    env.ok .addItem (n + 2) = true ∧ (env.ok .createItem (n + 3) = true →
      env.ok .addItem (n + 4) = true ∧ (env.ok .createItem (n + 5) = true →
        env.ok .addItem (n + 6) = true ∧ env.ok .createItem (n + 7) = true ∧ env.ok .addItem (n + 8) = true))

/-- The keys of the response and of its error can be copied, and the text of `data`. -/
def ErrorResponseKept (id : Json) : Prop :=
  CommonCreated env n id →
    env.ok .addItem (n + 2) = true ∧ ErrorKept env (n + 3) ∧
      (ErrorMade env (n + 3) → env.ok .addItem (n + 3 + errorCalls env (n + 3)) = true)

/-- the call that copies the value of a routed message -/
def copyCall (value : Option Item) : Call := if value.isSome then .duplicateItem else .createItem

/-- The keys of the message can be copied; and after the copy of a value for a state there is memory for `params`. -/
def RoutedKept (what : ElementType) (value : Option Item) : Prop :=
  env.ok .createItem n = true → env.ok .createItem (n + 1) = true →
    env.ok .addItem (n + 2) = true ∧ (env.ok .createItem (n + 3) = true →
      env.ok .addItem (n + 4) = true ∧ (env.ok (copyCall value) (n + 5) = true →
        if what = .method then env.ok .addItem (n + 6) = true
        else env.ok .createItem (n + 6) = true ∧ env.ok .addItem (n + 7) = true ∧ env.ok .addItem (n + 8) = true))

/-- If the result can be copied, the response to the requester is created, and the keys can be copied. -/
def ForwardKept (id : Json) : Prop :=
  env.ok .duplicateItem n = true →
    CommonCreated env (n + 1) id ∧ env.ok .addItem (n + 3) = true ∧ env.ok .addItem (n + 4) = true

end

/-! ## the functions -/

section
variable (env : Env) {s : Ledger} {t : Store} {received held : Multiset Nat}

theorem commonResponse_cases (id : Json) (h : Holds s t.ledger received held) :
    (CommonCreated env t.calls id ∧ ∃ root u lost, createCommonResponse env id t = (some root, u) ∧
        u.calls = t.calls + 3 ∧ Holds s u.ledger received (held + root.nodes + lost) ∧
        (lost = 0 ↔ env.ok .addItem (t.calls + 2) = true)) ∨
      (¬CommonCreated env t.calls id ∧ ∃ u, createCommonResponse env id t = (none, u) ∧
        Holds s u.ledger received held) := by
  rcases make_cases env .createItem (.obj []) Nat.one_ne_zero h with
    ⟨hok, root, u, hmake, hcalls, hheld⟩ | ⟨hok, u, hmake, -, hheld⟩
  · -- the id is a string or a number, or it is refused
    have hvalid : ∀ j, (responseId id).isSome = true →
        createCommonResponse env id t
          = (make env .createItem j 1 Nat.one_ne_zero >>= fun value => addSubobjectToObject env root value "id") u →
        (CommonCreated env t.calls id ∧ ∃ root u lost, createCommonResponse env id t = (some root, u) ∧
            u.calls = t.calls + 3 ∧ Holds s u.ledger received (held + root.nodes + lost) ∧
            (lost = 0 ↔ env.ok .addItem (t.calls + 2) = true)) ∨
          (¬CommonCreated env t.calls id ∧ ∃ u, createCommonResponse env id t = (none, u) ∧
            Holds s u.ledger received held) := by
      intro j hid hrun
      rcases attach_cases env .createItem j Nat.one_ne_zero "id" hheld with
        ⟨hok', root', v, lost, hattach, hcalls', hheld', hlost⟩ | ⟨hok', v, hattach, hheld'⟩
      · rw [hcalls] at hok' hlost hcalls'
        exact Or.inl ⟨⟨hok, hid, hok'⟩, root', v, lost, hrun.trans hattach, hcalls', hheld', hlost⟩
      · rw [hcalls] at hok'
        refine Or.inr ⟨?_, v, hrun.trans hattach, hheld'⟩
        rintro ⟨-, -, hmade⟩
        rw [hok'] at hmade
        cases hmade
    have hinvalid : (responseId id).isSome = false →
        createCommonResponse env id t = (do delete root; return none : Owning (Option Item)) u →
        ¬CommonCreated env t.calls id ∧ ∃ u, createCommonResponse env id t = (none, u) ∧
            Holds s u.ledger received held := by
      intro hid hrun
      obtain ⟨v, hdelete, hheld'⟩ := holds_delete hheld
      refine ⟨?_, v, hrun.trans (bind_of hdelete _), hheld'⟩
      rintro ⟨-, hsome, -⟩
      rw [hid] at hsome
      cases hsome
    cases id with
    | str _ => exact hvalid _ rfl (bind_of hmake _)
    | num _ => exact hvalid _ rfl (bind_of hmake _)
    | null => exact Or.inr (hinvalid rfl (bind_of hmake _))
    | bool _ => exact Or.inr (hinvalid rfl (bind_of hmake _))
    | arr _ => exact Or.inr (hinvalid rfl (bind_of hmake _))
    | obj _ => exact Or.inr (hinvalid rfl (bind_of hmake _))
  · refine Or.inr ⟨?_, u, bind_of hmake _, hheld⟩
    rintro ⟨hmade, -⟩
    rw [hok] at hmade
    cases hmade

theorem resultResponse_cases (id : Json) (result : Option Item) (resultType : String)
    (h : Holds s t.ledger received (held + nodes result)) :
    (CommonCreated env t.calls id ∧ ∃ root u lost, createResultResponse env id result resultType t = (some root, u) ∧
        Holds s u.ledger received (held + root.nodes + lost) ∧
        (lost = 0 ↔ env.ok .addItem (t.calls + 2) = true ∧
          (result.isSome = true → env.ok .addItem (t.calls + 3) = true))) ∨
      (¬CommonCreated env t.calls id ∧ ∃ u, createResultResponse env id result resultType t = (none, u) ∧
        Holds s u.ledger received held) := by
  rcases commonResponse_cases env id h with
    ⟨hcreated, root, u, lost, hrun, hcalls, hheld, hlost⟩ | ⟨hnot, u, hrun, hheld⟩
  · refine Or.inl ⟨hcreated, ?_⟩
    cases result with
    | none =>
      refine ⟨root, u, lost, bind_of hrun _, holds_congr hheld ?_, ?_⟩
      · show held + 0 + root.nodes + lost = held + root.nodes + lost
        rw [add_zero]
      · rw [hlost]
        exact ⟨fun hok => ⟨hok, nofun⟩, fun hok => hok.1⟩
    | some result =>
      have hboth : Holds s u.ledger received (held + lost + root.nodes + result.nodes) := by
        refine holds_congr hheld ?_
        show held + result.nodes + root.nodes + lost = _
        abel
      obtain ⟨root', v, lost', hadd, -, hheld', hlost'⟩ := add_cases env resultType hboth
      refine ⟨root', v, lost + lost', ?_, holds_congr hheld' (by abel), ?_⟩
      · exact (bind_of hrun _).trans (bind_of hadd _)
      · rw [Ledger.add_eq_zero, hlost, hlost', hcalls]
        exact and_congr_right fun _ => ⟨fun hok _ => hok, fun hok => hok rfl⟩
  · refine Or.inr ⟨hnot, ?_⟩
    cases result with
    | none =>
      refine ⟨u, bind_of hrun _, holds_congr hheld ?_⟩
      exact add_zero held
    | some result =>
      obtain ⟨v, hdelete, hheld'⟩ := holds_delete hheld
      exact ⟨v, (bind_of hrun _).trans (bind_of hdelete _), hheld'⟩

/-- the part of `create_error_object` behind the member `code` -/
theorem errorData_cases (error : Item) (err : Err) (h : Holds s t.ledger received (held + error.nodes)) :
    ∃ r u lost, (do
        match ← createObject env with
        | none => return some error
        | some data =>
          let attached ← call env .addItem
          match ← addSubobjectToObject env data (← createString env err.reason) err.tag with
          | none => return none
          | some data =>
            return some (if attached then error.add "data" data else error) : Owning (Option Item)) t = (r, u) ∧
      Holds s u.ledger received (held + nodes r + lost) ∧
      (lost = 0 ↔ (env.ok .createItem t.calls = true → env.ok .addItem (t.calls + 1) = true ∧
        env.ok .createItem (t.calls + 2) = true ∧ env.ok .addItem (t.calls + 3) = true)) ∧
      (r.isSome = true ↔ (env.ok .createItem t.calls = true → env.ok .createItem (t.calls + 2) = true)) ∧
      (r.isSome = true → u.calls = t.calls + if env.ok .createItem t.calls = true then 4 else 1) := by
  rcases make_cases env .createItem (.obj []) Nat.one_ne_zero h with
    ⟨hok, data, u, hmake, hcalls, hheld⟩ | ⟨hok, u, hmake, hcalls, hheld⟩
  · let v : Store := { u with calls := u.calls + 1 }
    have hcall : call env .addItem u = (env.ok .addItem (t.calls + 1), v) := by rw [← hcalls]; rfl
    have hv : Holds s v.ledger received (held + error.nodes + data.nodes) := hheld
    have hvcalls : v.calls = t.calls + 2 := congrArg Nat.succ hcalls
    rcases attach_cases env .createItem (.str err.reason) Nat.one_ne_zero err.tag hv with
      ⟨hok', data', w, lost, hattach, hcalls', hheld', hlost⟩ | ⟨hok', w, hattach, hheld'⟩
    · rw [hvcalls] at hok' hlost hcalls'
      cases hadd : env.ok .addItem (t.calls + 1) with
      | true =>
        rw [hadd] at hcall
        refine ⟨some (error.add "data" data'), w, lost, ?_, holds_congr hheld' ?_, ?_, ?_, fun _ => ?_⟩
        · refine (bind_of hmake _).trans ?_
          refine (bind_of hcall _).trans ?_
          exact bind_attach hattach _
        · show held + error.nodes + data'.nodes + lost = held + (error.nodes + data'.nodes) + lost
          abel
        · rw [hlost]
          exact ⟨fun hok'' _ => ⟨rfl, hok', hok''⟩, fun hall => (hall hok).2.2⟩
        · exact iff_of_true rfl fun _ => hok'
        · rw [if_pos hok, hcalls']
      | false =>
        rw [hadd] at hcall
        refine ⟨some error, w, lost + data'.nodes, ?_, holds_congr hheld' ?_, ?_, ?_, fun _ => ?_⟩
        · refine (bind_of hmake _).trans ?_
          refine (bind_of hcall _).trans ?_
          exact bind_attach hattach _
        · show held + error.nodes + data'.nodes + lost = held + error.nodes + (lost + data'.nodes)
          abel
        · refine iff_of_false (fun hzero => data'.nodes_ne (Ledger.add_eq_zero.mp hzero).2) fun hall => ?_
          exact Bool.false_ne_true (hall hok).1
        · exact iff_of_true rfl fun _ => hok'
        · rw [if_pos hok, hcalls']
    · -- `data` is released, and the error with it is lost
      rw [hvcalls] at hok'
      refine ⟨none, w, error.nodes, ?_, holds_congr hheld' ?_, ?_, ?_, nofun⟩
      · refine (bind_of hmake _).trans ?_
        refine (bind_of hcall _).trans ?_
        exact bind_attach hattach _
      · show held + error.nodes = held + 0 + error.nodes
        rw [add_zero]
      · refine iff_of_false error.nodes_ne fun hall => ?_
        have hreason := (hall hok).2.1
        rw [hok'] at hreason
        cases hreason
      · refine iff_of_false nofun fun hall => ?_
        have hreason := hall hok
        rw [hok'] at hreason
        cases hreason
  · have hno : env.ok .createItem t.calls ≠ true := Bool.eq_false_iff.mp hok
    refine ⟨some error, u, 0, bind_of hmake _, holds_congr hheld (add_zero _).symm, ?_, ?_, fun _ => ?_⟩
    · exact iff_of_true rfl fun hyes => absurd hyes hno
    · exact iff_of_true rfl fun hyes => absurd hyes hno
    · rw [if_neg hno, hcalls]

theorem errorObject_cases (err : Err) (h : Holds s t.ledger received held) :
    ∃ r u lost, createErrorObject env err t = (r, u) ∧ Holds s u.ledger received (held + nodes r + lost) ∧
      (lost = 0 ↔ ErrorKept env t.calls) ∧ (r.isSome = true ↔ ErrorMade env t.calls) ∧
      (r.isSome = true → u.calls = t.calls + errorCalls env t.calls) := by
  unfold ErrorKept ErrorMade errorCalls
  rcases make_cases env .createItem (.obj []) Nat.one_ne_zero h with
    ⟨hok, error, u, hmake, hcalls, hheld⟩ | ⟨hok, u, hmake, -, hheld⟩
  · rcases attach_cases env .createItem (.str (errorText err.code)) Nat.one_ne_zero "message" hheld with
      ⟨hok₁, error₁, v, lost₁, hrun₁, hcalls₁, hheld₁, hlost₁⟩ | ⟨hok₁, v, hrun₁, hheld₁⟩
    · rw [hcalls] at hok₁ hlost₁ hcalls₁
      have hheld₁ : Holds s v.ledger received (held + lost₁ + error₁.nodes) := holds_congr hheld₁ (by abel)
      rcases attach_cases env .createItem (.num err.code) Nat.one_ne_zero "code" hheld₁ with
        ⟨hok₂, error₂, w, lost₂, hrun₂, hcalls₂, hheld₂, hlost₂⟩ | ⟨hok₂, w, hrun₂, hheld₂⟩
      · rw [hcalls₁] at hok₂ hlost₂ hcalls₂
        have hheld₂ : Holds s w.ledger received (held + lost₁ + lost₂ + error₂.nodes) := holds_congr hheld₂ (by abel)
        obtain ⟨r, x, lost₃, hrun₃, hheld₃, hlost₃, hsome, hcalls₃⟩ := errorData_cases env error₂ err hheld₂
        rw [hcalls₂] at hlost₃ hsome hcalls₃
        refine ⟨r, x, lost₁ + lost₂ + lost₃, ?_, holds_congr hheld₃ (by abel), ?_, ?_, ?_⟩
        · refine (bind_of hmake _).trans ?_
          refine (bind_attach hrun₁ _).trans ?_
          refine (bind_attach hrun₂ _).trans ?_
          exact hrun₃
        · rw [Ledger.add_eq_zero, Ledger.add_eq_zero, hlost₁, hlost₂, hlost₃]
          exact ⟨fun hall _ _ => ⟨hall.1.1, fun _ => ⟨hall.1.2, hall.2⟩⟩, fun hall =>
            ⟨⟨(hall hok hok₁).1, ((hall hok hok₁).2 hok₂).1⟩, ((hall hok hok₁).2 hok₂).2⟩⟩
        · rw [hsome]
          exact ⟨fun hall => ⟨hok, hok₁, hok₂, hall⟩, fun hall => hall.2.2.2⟩
        · intro hmade
          rw [hcalls₃ hmade]
          show t.calls + 1 + 2 + 2 + (if env.ok .createItem (t.calls + 5) = true then 4 else 1)
            = t.calls + (if env.ok .createItem (t.calls + 5) = true then 9 else 6)
          split
          · rfl
          · rfl
      · rw [hcalls₁] at hok₂
        have hno : env.ok .createItem (t.calls + 3) ≠ true := Bool.eq_false_iff.mp hok₂
        refine ⟨none, w, lost₁, ?_, holds_congr hheld₂ ?_, ?_, ?_, nofun⟩
        · refine (bind_of hmake _).trans ?_
          refine (bind_attach hrun₁ _).trans ?_
          exact bind_attach hrun₂ _
        · exact congrArg (· + lost₁) (add_zero held).symm
        · rw [hlost₁]
          exact ⟨fun hkey _ _ => ⟨hkey, fun hyes => absurd hyes hno⟩, fun hall => (hall hok hok₁).1⟩
        · exact iff_of_false nofun fun hall => hno hall.2.2.1
    · rw [hcalls] at hok₁
      have hno : env.ok .createItem (t.calls + 1) ≠ true := Bool.eq_false_iff.mp hok₁
      refine ⟨none, v, 0, ?_, holds_congr hheld₁ ?_, ?_, ?_, nofun⟩
      · refine (bind_of hmake _).trans ?_
        exact bind_attach hrun₁ _
      · exact ((add_zero _).trans (add_zero held)).symm
      · exact iff_of_true rfl fun _ hyes => absurd hyes hno
      · exact iff_of_false nofun fun hall => hno hall.2.1
  · have hno : env.ok .createItem t.calls ≠ true := Bool.eq_false_iff.mp hok
    refine ⟨none, u, 0, bind_of hmake _, holds_congr hheld ?_, ?_, ?_, nofun⟩
    · exact ((add_zero _).trans (add_zero held)).symm
    · exact iff_of_true rfl fun hyes => absurd hyes hno
    · exact iff_of_false nofun fun hall => hno hall.1

theorem errorResponse_cases (id : Json) (err : Err) (h : Holds s t.ledger received held) :
    ∃ r u lost, createErrorResponse env id err t = (r, u) ∧ Holds s u.ledger received (held + nodes r + lost) ∧
      (lost = 0 ↔ ErrorResponseKept env t.calls id) := by
  unfold ErrorResponseKept
  rcases commonResponse_cases env id h with
    ⟨hcreated, root, u, lost, hrun, hcalls, hheld, hlost⟩ | ⟨hnot, u, hrun, hheld⟩
  · have hheld : Holds s u.ledger received (held + lost + root.nodes) := holds_congr hheld (by abel)
    obtain ⟨r, v, lost', hrun', hheld', hlost', hsome, hcalls'⟩ := errorObject_cases env err hheld
    rw [hcalls] at hlost' hsome hcalls'
    cases r with
    | none =>
      have hheld' : Holds s v.ledger received (held + lost + lost' + root.nodes) := by
        refine holds_congr hheld' ?_
        show held + lost + root.nodes + 0 + lost' = _
        abel
      obtain ⟨w, hdelete, hheld''⟩ := holds_delete hheld'
      refine ⟨none, w, lost + lost', ?_, holds_congr hheld'' ?_, ?_⟩
      · exact (bind_of hrun _).trans ((bind_of hrun' _).trans (bind_of hdelete _))
      · show held + lost + lost' = held + 0 + (lost + lost')
        abel
      · rw [Ledger.add_eq_zero, hlost, hlost']
        exact ⟨fun hall _ => ⟨hall.1, hall.2, fun hmade => nomatch hsome.mpr hmade⟩, fun hall =>
          ⟨(hall hcreated).1, (hall hcreated).2.1⟩⟩
    | some error =>
      have hmade := hsome.mp rfl
      have hheld' : Holds s v.ledger received (held + lost + lost' + root.nodes + error.nodes) := by
        refine holds_congr hheld' ?_
        show held + lost + root.nodes + error.nodes + lost' = _
        abel
      obtain ⟨root', w, lost'', hadd, -, hheld'', hlost''⟩ := add_cases env "error" hheld'
      rw [hcalls' rfl] at hlost''
      refine ⟨some root', w, lost + lost' + lost'', ?_, holds_congr hheld'' ?_, ?_⟩
      · exact (bind_of hrun _).trans ((bind_of hrun' _).trans (bind_of hadd _))
      · show held + lost + lost' + root'.nodes + lost'' = held + root'.nodes + (lost + lost' + lost'')
        abel
      · rw [Ledger.add_eq_zero, Ledger.add_eq_zero, hlost, hlost', hlost'']
        exact ⟨fun hall _ => ⟨hall.1.1, hall.1.2, fun _ => hall.2⟩, fun hall =>
          ⟨⟨(hall hcreated).1, (hall hcreated).2.1⟩, (hall hcreated).2.2 hmade⟩⟩
  · refine ⟨none, u, 0, bind_of hrun _, holds_congr hheld ?_, ?_⟩
    · exact ((add_zero _).trans (add_zero held)).symm
    · exact iff_of_true rfl fun hcreated => absurd hcreated hnot

theorem copy_cases (value : Option Item) (h : Holds s t.ledger received held) :
    (env.ok (copyCall value) t.calls = true ∧ ∃ item u, copyRoutedValue env value t = (some item, u) ∧
        u.calls = t.calls + 1 ∧ Holds s u.ledger received (held + item.nodes)) ∨
      (env.ok (copyCall value) t.calls = false ∧ ∃ u, copyRoutedValue env value t = (none, u) ∧
        u.calls = t.calls + 1 ∧ Holds s u.ledger received held) := by
  cases value with
  | none => exact make_cases env .createItem (.obj []) Nat.one_ne_zero h
  | some value => exact make_cases env .duplicateItem value.json _ h

/-- the end of `create_routed_message`, with the copy of the value -/
theorem routedParams_cases (message valueCopy : Item) (what : ElementType)
    (h : Holds s t.ledger received (held + message.nodes + valueCopy.nodes)) :
    ∃ r u lost, (if what = .method then do
          return some (← addItemToObject env message "params" (some valueCopy))
        else do
          match ← createObject env with
          | none =>
            delete message
            return none
          | some params =>
            let attached ← call env .addItem
            let params ← addItemToObject env params "value" (some valueCopy)
            return some (if attached then message.add "params" params else message) : Owning (Option Item)) t = (r, u) ∧
      Holds s u.ledger received (held + nodes r + lost) ∧
      (lost = 0 ↔ if what = .method then env.ok .addItem t.calls = true
        else env.ok .createItem t.calls = true ∧ env.ok .addItem (t.calls + 1) = true ∧
          env.ok .addItem (t.calls + 2) = true) := by
  by_cases hmethod : what = .method
  · rw [if_pos hmethod, if_pos hmethod]
    obtain ⟨root, u, lost, hadd, -, hheld, hlost⟩ := add_cases env "params" h
    exact ⟨some root, u, lost, bind_of hadd _, hheld, hlost⟩
  rw [if_neg hmethod, if_neg hmethod]
  rcases make_cases env .createItem (.obj []) Nat.one_ne_zero h with
    ⟨hok, params, u, hmake, hcalls, hheld⟩ | ⟨hok, u, hmake, hcalls, hheld⟩
  · let v : Store := { u with calls := u.calls + 1 }
    have hcall : call env .addItem u = (env.ok .addItem (t.calls + 1), v) := by rw [← hcalls]; rfl
    have hvcalls : v.calls = t.calls + 2 := congrArg Nat.succ hcalls
    have hv : Holds s v.ledger received (held + message.nodes + params.nodes + valueCopy.nodes) := by
      refine holds_congr (t := v) hheld ?_
      abel
    obtain ⟨params', w, lost, hadd, -, hheld', hlost⟩ := add_cases env "value" hv
    rw [hvcalls] at hlost
    cases hattached : env.ok .addItem (t.calls + 1) with
    | true =>
      rw [hattached] at hcall
      refine ⟨some (message.add "params" params'), w, lost, ?_, holds_congr hheld' ?_, ?_⟩
      · refine (bind_of hmake _).trans ?_
        refine (bind_of hcall _).trans ?_
        exact bind_of hadd _
      · show held + message.nodes + params'.nodes + lost = held + (message.nodes + params'.nodes) + lost
        abel
      · rw [hlost]
        exact ⟨fun hkey => ⟨hok, rfl, hkey⟩, fun hall => hall.2.2⟩
    | false =>
      rw [hattached] at hcall
      refine ⟨some message, w, lost + params'.nodes, ?_, holds_congr hheld' ?_, ?_⟩
      · refine (bind_of hmake _).trans ?_
        refine (bind_of hcall _).trans ?_
        exact bind_of hadd _
      · show held + message.nodes + params'.nodes + lost = held + message.nodes + (lost + params'.nodes)
        abel
      · exact iff_of_false (fun hzero => params'.nodes_ne (Ledger.add_eq_zero.mp hzero).2) fun hall =>
          Bool.false_ne_true hall.2.1
  · -- the message is released, and the copy of the value is lost
    have hheld : Holds s u.ledger received (held + valueCopy.nodes + message.nodes) := holds_congr hheld (by abel)
    obtain ⟨v, hdelete, hheld'⟩ := holds_delete hheld
    refine ⟨none, v, valueCopy.nodes, ?_, holds_congr hheld' ?_, ?_⟩
    · refine (bind_of hmake _).trans ?_
      exact bind_of hdelete _
    · exact congrArg (· + valueCopy.nodes) (add_zero held).symm
    · refine iff_of_false valueCopy.nodes_ne fun hall => ?_
      rw [hok] at hall
      exact Bool.false_ne_true hall.1

/-- a text that is added to the message, where the rest of `create_routed_message` is `rest`; where there is no text
the message is released -/
theorem member_cases (message : Item) (text key : String) (rest : Item → Owning (Option Item))
    (h : Holds s t.ledger received (held + message.nodes)) :
    (env.ok .createItem t.calls = true ∧ ∃ message' u lost, (do
          match ← createString env text with
          | none =>
            delete message
            return none
          | some item =>
            rest (← addItemToObject env message key (some item)) : Owning (Option Item)) t = rest message' u ∧
        u.calls = t.calls + 2 ∧ Holds s u.ledger received (held + message'.nodes + lost) ∧
        (lost = 0 ↔ env.ok .addItem (t.calls + 1) = true)) ∨
      (env.ok .createItem t.calls = false ∧ ∃ u, (do
          match ← createString env text with
          | none =>
            delete message
            return none
          | some item => rest (← addItemToObject env message key (some item)) : Owning (Option Item)) t = (none, u) ∧
        Holds s u.ledger received held) := by
  rcases make_cases env .createItem (.str text) Nat.one_ne_zero h with
    ⟨hok, item, u, hmake, hcalls, hheld⟩ | ⟨hok, u, hmake, -, hheld⟩
  · obtain ⟨message', v, lost, hadd, hcalls', hheld', hlost⟩ := add_cases env key hheld
    rw [hcalls] at hcalls' hlost
    exact Or.inl ⟨hok, message', v, lost, (bind_of hmake _).trans (bind_of hadd _), hcalls', hheld', hlost⟩
  · obtain ⟨v, hdelete, hheld'⟩ := holds_delete hheld
    exact Or.inr ⟨hok, v, (bind_of hmake _).trans (bind_of hdelete _), hheld'⟩

theorem routedMessage_cases (path : String) (what : ElementType) (value : Option Item) (id : String)
    (h : Holds s t.ledger received held) :
    ∃ r u lost, createRoutedMessage env path what value id t = (r, u) ∧
      Holds s u.ledger received (held + nodes r + lost) ∧ (lost = 0 ↔ RoutedKept env t.calls what value) := by
  unfold RoutedKept
  rcases make_cases env .createItem (.obj []) Nat.one_ne_zero h with
    ⟨hok, message, u, hmake, hcalls, hheld⟩ | ⟨hok, u, hmake, -, hheld⟩
  · rcases member_cases env message id "id" _ hheld with
      ⟨hok₁, message₁, v, lost₁, hrun₁, hcalls₁, hheld₁, hlost₁⟩ | ⟨hok₁, v, hrun₁, hheld₁⟩
    · rw [hcalls] at hok₁ hcalls₁ hlost₁
      have hheld₁ : Holds s v.ledger received (held + lost₁ + message₁.nodes) := holds_congr hheld₁ (by abel)
      rcases member_cases env message₁ path "method" _ hheld₁ with
        ⟨hok₂, message₂, w, lost₂, hrun₂, hcalls₂, hheld₂, hlost₂⟩ | ⟨hok₂, w, hrun₂, hheld₂⟩
      · rw [hcalls₁] at hok₂ hcalls₂ hlost₂
        have hheld₂ : Holds s w.ledger received (held + lost₁ + lost₂ + message₂.nodes) := holds_congr hheld₂ (by abel)
        have hrun : createRoutedMessage env path what value id t = _ := (bind_of hmake _).trans (hrun₁.trans hrun₂)
        rcases copy_cases env value hheld₂ with
          ⟨hok₃, valueCopy, x, hcopy, hcalls₃, hheld₃⟩ | ⟨hok₃, x, hcopy, -, hheld₃⟩
        · rw [hcalls₂] at hok₃ hcalls₃
          obtain ⟨r, y, lost₃, hparams, hheld₄, hlost₃⟩ := routedParams_cases env message₂ valueCopy what hheld₃
          rw [hcalls₃] at hlost₃
          refine ⟨r, y, lost₁ + lost₂ + lost₃, hrun.trans ((bind_of hcopy _).trans hparams),
            holds_congr hheld₄ (by abel), ?_⟩
          rw [Ledger.add_eq_zero, Ledger.add_eq_zero, hlost₁, hlost₂, hlost₃]
          exact ⟨fun hall _ _ => ⟨hall.1.1, fun _ => ⟨hall.1.2, fun _ => hall.2⟩⟩, fun hall =>
            ⟨⟨(hall hok hok₁).1, ((hall hok hok₁).2 hok₂).1⟩, ((hall hok hok₁).2 hok₂).2 hok₃⟩⟩
        · rw [hcalls₂] at hok₃
          have hno : env.ok (copyCall value) (t.calls + 5) ≠ true := Bool.eq_false_iff.mp hok₃
          obtain ⟨y, hdelete, hheld₄⟩ := holds_delete hheld₃
          refine ⟨none, y, lost₁ + lost₂, hrun.trans ((bind_of hcopy _).trans (bind_of hdelete _)),
            holds_congr hheld₄ ?_, ?_⟩
          · show held + lost₁ + lost₂ = held + 0 + (lost₁ + lost₂)
            abel
          · rw [Ledger.add_eq_zero, hlost₁, hlost₂]
            exact ⟨fun hall _ _ => ⟨hall.1, fun _ => ⟨hall.2, fun hyes => absurd hyes hno⟩⟩, fun hall =>
              ⟨(hall hok hok₁).1, ((hall hok hok₁).2 hok₂).1⟩⟩
      · rw [hcalls₁] at hok₂
        have hno : env.ok .createItem (t.calls + 3) ≠ true := Bool.eq_false_iff.mp hok₂
        refine ⟨none, w, lost₁, (bind_of hmake _).trans (hrun₁.trans hrun₂), holds_congr hheld₂ ?_, ?_⟩
        · exact congrArg (· + lost₁) (add_zero held).symm
        · rw [hlost₁]
          exact ⟨fun hkey _ _ => ⟨hkey, fun hyes => absurd hyes hno⟩, fun hall => (hall hok hok₁).1⟩
    · rw [hcalls] at hok₁
      have hno : env.ok .createItem (t.calls + 1) ≠ true := Bool.eq_false_iff.mp hok₁
      refine ⟨none, v, 0, (bind_of hmake _).trans hrun₁, holds_congr hheld₁ ?_, ?_⟩
      · exact ((add_zero _).trans (add_zero held)).symm
      · exact iff_of_true rfl fun _ hyes => absurd hyes hno
  · have hno : env.ok .createItem t.calls ≠ true := Bool.eq_false_iff.mp hok
    refine ⟨none, u, 0, bind_of hmake _, holds_congr hheld ?_, ?_⟩
    · exact ((add_zero _).trans (add_zero held)).symm
    · exact iff_of_true rfl fun hyes => absurd hyes hno

/-- where `create_result_response` fails, the copy of the result is released again -/
theorem forward_cases (id response : Item) (resultType : String) (requestingPeer : Addr) (about : About)
    (h : Holds s t.ledger received id.nodes) :
    ∃ ok u, forwardResponse env id response resultType requestingPeer about t = (ok, u) ∧
      (Holds s u.ledger received 0 ↔ ForwardKept env t.calls id.json) := by
  unfold ForwardKept
  rcases make_cases env .duplicateItem response.json (fun h => response.nodes_ne (Multiset.card_eq_zero.mp h)) h with
    ⟨hok, copy, u, hmake, hcalls, hheld⟩ | ⟨hok, u, hmake, -, hheld⟩
  · rcases resultResponse_cases env id.json (some copy) resultType hheld with
      ⟨hcreated, root, v, lost, hrun, hheld', hlost⟩ | ⟨hnot, v, hrun, hheld'⟩
    · rw [hcalls] at hcreated hlost
      -- what is printed and sent is made of no nodes
      obtain ⟨w, hsend, hledger⟩ : ∃ w, formatAndSendResponse env requestingPeer about root v = ((), w) ∧
          w.ledger = v.ledger := by
        cases hprint : env.ok (.print about) v.calls with
        | true =>
          refine ⟨_, (bind_of (a := true) (u := { v with calls := v.calls + 1 }) ?_ _).trans rfl, rfl⟩
          show (env.ok (.print about) v.calls, _) = _
          rw [hprint]
        | false =>
          refine ⟨_, (bind_of (a := false) (u := { v with calls := v.calls + 1 }) ?_ _).trans rfl, rfl⟩
          show (env.ok (.print about) v.calls, _) = _
          rw [hprint]
      have hw : Holds s w.ledger received (lost + id.nodes + root.nodes) := by
        rw [hledger]
        exact holds_congr hheld' (by abel)
      obtain ⟨x, hdelete, hx⟩ := holds_delete hw
      obtain ⟨y, hdelete', hy⟩ := holds_delete hx
      refine ⟨true, y, ?_, ?_⟩
      · refine (bind_of hmake _).trans ?_
        refine (bind_of hrun _).trans ?_
        refine (bind_of hsend _).trans ?_
        refine (bind_of hdelete _).trans ?_
        exact bind_of hdelete' _
      · rw [holds_iff hy, eq_comm, hlost]
        exact ⟨fun hall _ => ⟨hcreated, hall.1, hall.2 rfl⟩, fun hall => ⟨(hall hok).2.1, fun _ => (hall hok).2.2⟩⟩
    · rw [hcalls] at hnot
      let w : Store := { v with ledger := { v.ledger with released := v.ledger.released + copy.nodes + id.nodes } }
      refine ⟨true, w, ?_, iff_of_false ?_ fun hall => hnot (hall hok).1⟩
      · refine (bind_of hmake _).trans ?_
        exact bind_of hrun _
      · intro hw
        -- once would have been enough
        have honce := hheld'.balance
        have htwice := hw.balance
        have hcreated : created s w.ledger = created s v.ledger := rfl
        rw [hcreated, ← honce] at htwice
        have hextra : v.ledger.released + id.nodes + copy.nodes = v.ledger.released + id.nodes := by
          refine Eq.trans ?_ htwice
          show _ = v.ledger.released + copy.nodes + id.nodes + 0
          abel
        exact copy.nodes_ne (add_eq_left.mp hextra)
  · have hno : env.ok .duplicateItem t.calls ≠ true := Bool.eq_false_iff.mp hok
    have hheld : Holds s u.ledger received (0 + id.nodes) := holds_congr hheld (zero_add _).symm
    obtain ⟨v, hdelete, hheld'⟩ := holds_delete hheld
    refine ⟨false, v, ?_, iff_of_true hheld' fun hyes => absurd hyes hno⟩
    refine (bind_of hmake _).trans ?_
    exact bind_of hdelete _

section
variable {lookup : String → Option (Option Item)} {jsonRpc : Json} (response : Item) (resultType : String)
  (requestingPeer : Addr) (about : About)

theorem routingResponse_some {id : Item} (h : originOf jsonRpc lookup = some id) :
    handleRoutingResponse env lookup jsonRpc response resultType requestingPeer about
      = forwardResponse env id response resultType requestingPeer about := by
  unfold originOf at h
  unfold handleRoutingResponse
  split at h
  · rw [Option.join_eq_some_iff.mp h]
  · cases h

theorem routingResponse_none (h : originOf jsonRpc lookup = none) :
    ∃ ok, handleRoutingResponse env lookup jsonRpc response resultType requestingPeer about = pure ok := by
  unfold originOf at h
  unfold handleRoutingResponse
  split at h
  · rename_i name hname
    cases hlookup : lookup name with
    | none => exact ⟨true, rfl⟩
    | some origin =>
      cases origin with
      | none => exact ⟨true, rfl⟩
      | some origin =>
        rw [hlookup] at h
        cases h
  · exact ⟨false, rfl⟩

end

end

/-! ## the result -/

/-- All nodes that have been received or created are part of what is returned or released, once. -/
def ExactlyOnce (s : Store) (received : Multiset Nat) (run : Option Item × Store) : Prop :=
  Holds s.ledger run.2.ledger received (nodes run.1)

theorem exactlyOnce_of {s u : Store} {received lost : Multiset Nat} {r : Option Item} {run : Option Item × Store}
    (hrun : run = (r, u)) (hheld : Holds s.ledger u.ledger received (0 + nodes r + lost)) {good : Prop}
    (hlost : lost = 0 ↔ good) : ExactlyOnce s received run ↔ good := by
  subst hrun
  rw [zero_add] at hheld
  exact (holds_lost_iff hheld).trans hlost

/-- The patterns of failing allocations for which no node is lost and none is released twice. -/
theorem exactly_once_iff (env : Env) (s : Store) :
    (∀ id result resultType, ExactlyOnce s (nodes result) (createResultResponse env id result resultType s) ↔
      ResultKept env s.calls id result) ∧
    (∀ id err, ExactlyOnce s 0 (createErrorResponse env id err s) ↔ ErrorResponseKept env s.calls id) ∧
    (∀ err, ExactlyOnce s 0 (createErrorObject env err s) ↔ ErrorKept env s.calls) ∧
    (∀ path what value id, ExactlyOnce s 0 (createRoutedMessage env path what value id s) ↔
      RoutedKept env s.calls what value) ∧
    (∀ lookup jsonRpc response resultType requestingPeer about,
      Holds s.ledger (handleRoutingResponse env lookup jsonRpc response resultType requestingPeer about s).2.ledger
          (nodes (originOf jsonRpc lookup)) 0 ↔
        ∀ id, originOf jsonRpc lookup = some id → ForwardKept env s.calls id.json) := by
  have hempty : Holds s.ledger s.ledger 0 0 := Holds.refl s.ledger 0
  refine ⟨?_, ?_, ?_, ?_, ?_⟩
  · intro id result resultType
    have hstart : Holds s.ledger s.ledger (nodes result) (0 + nodes result) := by
      rw [zero_add]
      exact Holds.refl s.ledger (nodes result)
    rcases resultResponse_cases env id result resultType hstart with
      ⟨hcreated, root, u, lost, hrun, hheld, hlost⟩ | ⟨hnot, u, hrun, hheld⟩
    · refine exactlyOnce_of hrun hheld (hlost.trans ?_)
      exact ⟨fun hall _ => hall, fun hall => hall hcreated⟩
    · have hheld : Holds s.ledger u.ledger (nodes result) (0 + nodes none + 0) := hheld
      exact exactlyOnce_of hrun hheld (iff_of_true rfl fun hcreated => absurd hcreated hnot)
  · intro id err
    obtain ⟨r, u, lost, hrun, hheld, hlost⟩ := errorResponse_cases env id err hempty
    exact exactlyOnce_of hrun hheld hlost
  · intro err
    obtain ⟨r, u, lost, hrun, hheld, hlost, -⟩ := errorObject_cases env err hempty
    exact exactlyOnce_of hrun hheld hlost
  · intro path what value id
    obtain ⟨r, u, lost, hrun, hheld, hlost⟩ := routedMessage_cases env path what value id hempty
    exact exactlyOnce_of hrun hheld hlost
  · intro lookup jsonRpc response resultType requestingPeer about
    cases horigin : originOf jsonRpc lookup with
    | none =>
      obtain ⟨ok, hrun⟩ := routingResponse_none env response resultType requestingPeer about horigin
      rw [hrun]
      exact iff_of_true hempty nofun
    | some origin =>
      obtain ⟨ok, u, hrun, hkept⟩ :=
        forward_cases env origin response resultType requestingPeer about (Holds.refl s.ledger origin.nodes)
      rw [routingResponse_some env response resultType requestingPeer about horigin, hrun]
      refine hkept.trans ⟨?_, fun hall => hall origin rfl⟩
      rintro hgood _ ⟨⟩
      exact hgood

/-! ## a response that cannot be created -/

/-- no node can be allocated, but what has been received can be copied -/
def noItems : Env := { Platform.small, Outcomes.failing fun call => match call with
    | .createItem => true
    | _ => false with }

/-- the id of a request -/
def requestId : Item := ⟨.num 1, {0}, Multiset.singleton_ne_zero 0⟩

/-- the result in the answer of the owner -/
def ownersResult : Item := ⟨.bool true, {1}, Multiset.singleton_ne_zero 1⟩

theorem copy_released_twice :
    ¬Holds ⟨2, 0⟩ (handleRoutingResponse noItems (fun _ => some (some requestId))
      (.obj [("id", .str "uuid_1")]) ownersResult
        "result" 0 (.response 0) ⟨0, ⟨2, 0⟩⟩).2.ledger
      (nodes (originOf (.obj [("id", .str "uuid_1")]) fun _ => some (some requestId))) 0 := by
  have horigin : originOf (.obj [("id", .str "uuid_1")]) (fun _ => some (some requestId)) = some requestId := rfl
  obtain ⟨ok, u, hrun, hkept⟩ :=
    forward_cases noItems (t := ⟨0, ⟨2, 0⟩⟩) requestId ownersResult "result" 0 (.response 0)
    (Holds.refl ⟨2, 0⟩ requestId.nodes)
  rw [routingResponse_some noItems ownersResult "result" 0 (.response 0) horigin, hrun]
  intro h
  exact Bool.false_ne_true (hkept.mp h rfl).1.1

end Ownership
end Cjet
