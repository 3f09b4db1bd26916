import Cjet.Frame
import Mathlib.Data.List.Infix
import Mathlib.Algebra.GroupWithZero.Nat

/-!
# Writing the password file (`posix/auth_file.c`)

`write_user_data` writes in a loop, but every write starts at the beginning of the text, and the loop ends when a write
took as much as is left.

* `Writes`       the writes that the loop makes: their sizes, and whether none of them fails.  They do not depend on
                 the text;
* `writeLoop_eq` what the loop leaves in the file;
* `BeginsAnew`   the text begins anew wherever a write started, and the writes end where it ends;
* `writeUserData_complete_iff`   the file is complete exactly there.
-/

set_option linter.unusedVariables false

namespace Cjet
open Stateful Alloc

/-! ## the loop -/

/-- the bytes that a successful write takes -/
def writeSize (n toWrite : Nat) : Nat := max 1 (min n toWrite)

/-- the loop makes writes of these sizes, and ends; `false` where the next one fails -/
inductive Writes (wrote : Nat → Nat → Option Nat) : (i written toWrite : Nat) → List Nat → Bool → Prop
  | done {i written toWrite : Nat} (h : toWrite ≤ written) : Writes wrote i written toWrite [] true
  | failed {i written toWrite : Nat} (h : written < toWrite) (hw : wrote i toWrite = none) :
    Writes wrote i written toWrite [] false
  | wrote {i written toWrite n : Nat} {sizes : List Nat} {ok : Bool} (h : written < toWrite)
      (hw : wrote i toWrite = some n)
      (rest : Writes wrote (i + 1) (writeSize n toWrite) (toWrite - writeSize n toWrite) sizes ok) :
    Writes wrote i written toWrite (writeSize n toWrite :: sizes) ok

theorem writeSize_pos (n toWrite : Nat) : 0 < writeSize n toWrite :=
    Nat.lt_of_lt_of_le Nat.one_pos (Nat.le_max_left _ _)

theorem writeSize_le {n toWrite : Nat} (h : 0 < toWrite) : writeSize n toWrite ≤ toWrite :=
  Nat.max_le.mpr ⟨h, Nat.min_le_right _ _⟩

section
variable {wrote : Nat → Nat → Option Nat}

/-- the loop ends: each write leaves less to be written -/
theorem writes_end (i written toWrite : Nat) : ∃ sizes ok, Writes wrote i written toWrite sizes ok := by
  induction toWrite using Nat.strongRecOn generalizing i written with
  | ind toWrite ih =>
    by_cases h : written < toWrite
    · cases hw : wrote i toWrite with
      | none => exact ⟨[], false, .failed h hw⟩
      | some n =>
        have hpos := writeSize_pos n toWrite
        obtain ⟨sizes, ok, hrest⟩ := ih (toWrite - writeSize n toWrite) (by omega) (i + 1) (writeSize n toWrite)
        exact ⟨_, ok, .wrote h hw hrest⟩
    · exact ⟨[], true, .done (Nat.le_of_not_lt h)⟩

theorem Writes.unique {i written toWrite : Nat} {sizes sizes' : List Nat} {ok ok' : Bool}
    (h : Writes wrote i written toWrite sizes ok) (h' : Writes wrote i written toWrite sizes' ok') :
    sizes' = sizes ∧ ok' = ok := by
  induction h generalizing sizes' ok' with
  | done hd =>
    cases h' with
    | done => exact ⟨rfl, rfl⟩
    | failed hlt _ => exact absurd hlt (Nat.not_lt_of_le hd)
    | wrote hlt _ _ => exact absurd hlt (Nat.not_lt_of_le hd)
  | failed hlt hw =>
    cases h' with
    | done hd => exact absurd hlt (Nat.not_lt_of_le hd)
    | failed => exact ⟨rfl, rfl⟩
    | wrote _ hw' _ => rw [hw] at hw'; cases hw'
  | wrote hlt hw _ ih =>
    cases h' with
    | done hd => exact absurd hlt (Nat.not_lt_of_le hd)
    | failed _ hw' => rw [hw] at hw'; cases hw'
    | wrote _ hw' rest' =>
      rw [hw] at hw'
      obtain rfl := Option.some.inj hw'
      obtain ⟨rfl, rfl⟩ := ih rest'
      exact ⟨rfl, rfl⟩

/-- The loop appends the beginning of the text once for each write. -/
theorem writeLoop_eq {data file : List UInt8} {fuel i written toWrite : Nat} {sizes : List Nat} {ok : Bool}
    (h : Writes wrote i written toWrite sizes ok) (hfuel : toWrite ≤ fuel) :
    writeLoop wrote data fuel i written toWrite file = (ok, file ++ sizes.flatMap fun n => data.take n) := by
  induction h generalizing fuel file with
  | done hd =>
    rw [List.flatMap_nil, List.append_nil]
    cases fuel with
    | zero => rfl
    | succ fuel => exact if_neg (Nat.not_lt_of_le hd)
  | failed hlt hw =>
    rw [List.flatMap_nil, List.append_nil]
    cases fuel with
    | zero => omega
    | succ fuel =>
      unfold writeLoop
      rw [if_pos hlt, hw]
  | wrote hlt hw _ ih =>
    rename_i i written toWrite n sizes ok _
    have hpos := writeSize_pos n toWrite
    cases fuel with
    | zero => omega
    | succ fuel =>
      have hstep : writeLoop wrote data (fuel + 1) i written toWrite file
          = writeLoop wrote data fuel (i + 1) (writeSize n toWrite) (toWrite - writeSize n toWrite)
              (file ++ data.take (writeSize n toWrite)) := by
        rw [writeLoop, if_pos hlt, hw]
        rfl
      rw [hstep, ih (by omega), List.flatMap_cons, List.append_assoc]

end

/-! ## a complete file -/

/-- the writes end where the text ends, and the text begins anew wherever one of them started -/
structure BeginsAnew (data : List UInt8) (sizes : List Nat) : Prop where
  ends : sizes.sum = data.length
  anew : ∀ pre n post, sizes = pre ++ n :: post → data.take n <+: data.drop pre.sum

/-- one write that takes all -/
theorem beginsAnew_whole (data : List UInt8) : BeginsAnew data [data.length] where
  ends := List.sum_singleton
  anew pre n post e := by
    cases pre with
    | nil =>
      obtain rfl : data.length = n := (List.cons.inj e).1
      rw [List.take_length]
      exact List.prefix_refl data
    | cons m pre => exact absurd (List.cons.inj e).2.symm (by simp)

theorem length_writes {data : List UInt8} {sizes : List Nat} (h : ∀ n ∈ sizes, n ≤ data.length) :
    (sizes.flatMap fun n => data.take n).length = sizes.sum := by
  induction sizes with
  | nil => rfl
  | cons n sizes ih =>
    rw [List.flatMap_cons, List.length_append, List.length_take, Nat.min_eq_left (h n List.mem_cons_self),
      ih fun m hm => h m (List.mem_cons_of_mem n hm), List.sum_cons]

/-- what the writes leave is the text exactly where it begins anew -/
theorem writes_complete_iff {data : List UInt8} {sizes : List Nat} (h : ∀ n ∈ sizes, n ≤ data.length) :
    (sizes.flatMap fun n => data.take n) = data ↔ BeginsAnew data sizes := by
  constructor
  · intro e
    have hlen := length_writes h
    refine ⟨by rw [← hlen, e], fun pre n post es => ?_⟩
    have hpre : (pre.flatMap fun n => data.take n).length = pre.sum :=
      length_writes fun m hm => h m (by rw [es]; exact List.mem_append_left _ hm)
    have hdrop : data.drop pre.sum = (n :: post).flatMap fun n => data.take n := by
      rw [es, List.flatMap_append] at e
      have hd := congrArg (List.drop pre.sum) e
      rw [← hpre, List.drop_left, hpre] at hd
      exact hd.symm
    rw [hdrop, List.flatMap_cons]
    exact List.prefix_append _ _
  · rintro ⟨hends, hanew⟩
    -- the text up to the end of any number of writes
    have hgo : ∀ pre post, sizes = pre ++ post → (pre.flatMap fun n => data.take n) = data.take pre.sum := fun pre => by
      induction pre using List.reverseRecOn with
      | nil => intro _ _; rw [List.sum_nil, List.take_zero]; rfl
      | append_singleton pre n ih =>
        intro post es
        rw [List.append_assoc, List.singleton_append] at es
        have hn : n ≤ data.length := h n (by rw [es]; exact List.mem_append_right _ List.mem_cons_self)
        have hpiece := (List.prefix_iff_eq_take.mp (hanew pre n post es))
        rw [List.length_take, Nat.min_eq_left hn] at hpiece
        rw [List.flatMap_append, ih (n :: post) es, List.sum_append, List.sum_singleton, List.take_add, ← hpiece,
          List.flatMap_cons, List.flatMap_nil, List.append_nil]
    have hall := hgo sizes [] (List.append_nil _).symm
    rw [hall, hends, List.take_length]

theorem Writes.sizes_le {wrote : Nat → Nat → Option Nat} {i written toWrite : Nat} {sizes : List Nat} {ok : Bool}
    (h : Writes wrote i written toWrite sizes ok) : ∀ n ∈ sizes, n ≤ toWrite := by
  induction h with
  | done _ => exact fun n hn => absurd hn List.not_mem_nil
  | failed _ _ => exact fun n hn => absurd hn List.not_mem_nil
  | wrote hlt _ _ ih =>
    intro m hm
    rcases List.mem_cons.mp hm with rfl | hm
    · exact writeSize_le (Nat.lt_of_le_of_lt (Nat.zero_le _) hlt)
    · exact Nat.le_trans (ih m hm) (Nat.sub_le _ _)

/-! ## `write_user_data` -/

section
variable {T : Type} {env : Env}

/-- the file after the writes of these sizes -/
def fileAfter (data : List UInt8) (sizes : List Nat) : List UInt8 := sizes.flatMap fun n => data.take n

/-- what `write_user_data` does to the file, and what it returns -/
inductive WriteUserData (env : Env) (b : Broker T) : Bool → List UInt8 → Prop
  | notTruncated (h : env.ok .ftruncate b.calls = false) : WriteUserData env b false b.passwordFile
  | notPrinted (h : env.ok .ftruncate b.calls = true)
      (hp : b.userData = none ∨ env.ok .printUserData (b.calls + 1) = false) : WriteUserData env b false []
  | written (userData : Json) (sizes : List Nat) (ok : Bool) (h : env.ok .ftruncate b.calls = true)
      (hu : b.userData = some userData) (hp : env.ok .printUserData (b.calls + 1) = true)
      (hw : Writes env.wrote 0 0 (env.printJson userData).length sizes ok) :
    WriteUserData env b ok (fileAfter (env.printJson userData) sizes)

theorem writeUserData_end (env : Env) (b : Broker T) : ∃ ok file, WriteUserData env b ok file := by
  cases ht : env.ok .ftruncate b.calls with
  | false => exact ⟨_, _, .notTruncated ht⟩
  | true =>
    cases hu : b.userData with
    | none => exact ⟨_, _, .notPrinted ht (Or.inl hu)⟩
    | some userData =>
      cases hp : env.ok .printUserData (b.calls + 1) with
      | false => exact ⟨_, _, .notPrinted ht (Or.inr hp)⟩
      | true =>
        obtain ⟨sizes, ok, hw⟩ : ∃ sizes ok, Writes env.wrote 0 0 (env.printJson userData).length sizes ok :=
          writes_end 0 0 _
        exact ⟨_, _, .written userData sizes ok ht hu hp hw⟩

theorem call_of {c : Call} {b : Broker T} {ok : Bool} (h : env.ok c b.calls = ok) :
    call env c b = some (ok, { b with calls := b.calls + 1 }) := by
  rw [call_apply, h]

theorem writeUserData_of {b : Broker T} {ok : Bool} {file : List UInt8} (h : WriteUserData env b ok file) :
    ∃ n, writeUserData env b = some (ok, { b with passwordFile := file, calls := n }) := by
  unfold writeUserData
  cases h with
  | notTruncated ht =>
    rw [Prog.bind_of_some (call_of ht)]
    exact ⟨_, rfl⟩
  | notPrinted ht hp =>
    rw [Prog.bind_of_some (call_of ht), if_pos rfl, Prog.bind_of_some (Prog.update_apply _ _),
      Prog.bind_of_some (Prog.read_apply _ _)]
    cases hu : b.userData with
    | none =>
      simp only [id]
      exact ⟨b.calls + 1, by rw [Prog.pure_apply]⟩
    | some userData =>
      have hp : env.ok .printUserData (b.calls + 1) = false := hp.resolve_left (by rw [hu]; exact Option.some_ne_none _)
      simp only [id]
      rw [Prog.bind_of_some (call_of hp)]
      exact ⟨b.calls + 2, by simp [Prog.pure_apply]⟩
  | written userData sizes ok ht hu hp hw =>
    rw [Prog.bind_of_some (call_of ht), if_pos rfl, Prog.bind_of_some (Prog.update_apply _ _),
      Prog.bind_of_some (Prog.read_apply _ _)]
    simp only [id, hu]
    rw [Prog.bind_of_some (call_of hp), if_pos rfl]
    simp only [writeLoop_eq hw (Nat.le_refl _), List.nil_append]
    rw [Prog.bind_of_some (Prog.update_apply _ _)]
    exact ⟨b.calls + 2, by simp [Prog.pure_apply, fileAfter]⟩

theorem writeUserData_some {b b' : Broker T} {ok : Bool} (h : writeUserData env b = some (ok, b')) :
    ∃ file n, WriteUserData env b ok file ∧ b' = { b with passwordFile := file, calls := n } := by
  obtain ⟨ok', file, hw⟩ := writeUserData_end env b
  obtain ⟨n, e⟩ := writeUserData_of hw
  rw [e] at h
  cases h
  exact ⟨file, n, hw, rfl⟩

theorem WriteUserData.unique {b : Broker T} {ok ok' : Bool} {file file' : List UInt8} (h : WriteUserData env b ok file)
    (h' : WriteUserData env b ok' file') : ok' = ok ∧ file' = file := by
  obtain ⟨n, e⟩ := writeUserData_of h
  obtain ⟨n', e'⟩ := writeUserData_of h'
  rw [e] at e'
  cases e'
  exact ⟨rfl, rfl⟩

/-- a truncated file, a text, and writes that begin it anew where they start, as far as none of them fails -/
def WritesWhole (env : Env) (b : Broker T) : Prop :=
  env.ok .ftruncate b.calls = true → env.ok .printUserData (b.calls + 1) = true → ∀ userData,
    b.userData = some userData → ∀ sizes, Writes env.wrote 0 0 (env.printJson userData).length sizes true →
      BeginsAnew (env.printJson userData) sizes

/-- **The file holds the text whenever `write_user_data` returns 0**, exactly where a write fails or all of them begin
the text anew. -/
theorem writeUserData_complete_iff (env : Env) (b : Broker T) :
    (∀ b', writeUserData env b = some (true, b') →
      ∃ userData, b.userData = some userData ∧ b'.userData = some userData ∧ b'.passwordFile = env.printJson userData) ↔
    WritesWhole env b := by
  constructor
  · intro h ht hp userData hu sizes hw
    obtain ⟨n, e⟩ := writeUserData_of (.written userData sizes true ht hu hp hw)
    obtain ⟨userData', hu', _, hfile⟩ := h _ e
    rw [hu] at hu'
    obtain rfl := Option.some.inj hu'
    exact (writes_complete_iff hw.sizes_le).mp hfile
  · intro h b' hb'
    obtain ⟨file, n, hw, rfl⟩ := writeUserData_some hb'
    cases hw with
    | written userData sizes _ ht hu hp hw =>
      exact ⟨userData, hu, hu, (writes_complete_iff hw.sizes_le).mpr (h ht hp userData hu sizes hw)⟩

end

/-! ## a write that takes the first half -/

/-- a database without users, and its text -/
def noUsers : Json := .obj [("users", .obj [])]

def noUsersText : List UInt8 := "\x7b\n\t\"users\":\t\x7b\n\t\x7d\n\x7d".toUTF8.toList

/-- every write takes at most `n` bytes -/
def Env.writing (n : Nat) : Env where
  toPlatform := { Platform.small with printJson := fun _ => noUsersText }
  toOutcomes := { Outcomes.good with wrote := fun _ m => some (min n m) }

/-- a broker that has read the file of `noUsers` -/
def holdingNoUsers : Broker SlotTable := Broker.start Platform.small.config (some []) (some noUsers) noUsersText

/-- After a write of 10 of the 18 bytes nothing more is written. -/
theorem short_write_loses : ¬ ∀ (env : Env) (b b' : Broker SlotTable) (userData : Json), b.userData = some userData →
    writeUserData env b = some (true, b') → b'.passwordFile = env.printJson userData := by
  intro h
  have hrun : (writeUserData (Env.writing 10) holdingNoUsers).any
    (fun r => r.1 && r.2.passwordFile.length != noUsersText.length)
      = true := by decide +kernel
  obtain ⟨⟨ok, b'⟩, e, hr⟩ := Option.any_eq_true _ _ |>.mp hrun
  obtain ⟨rfl, hne⟩ := Bool.and_eq_true _ _ |>.mp hr
  rw [h _ _ b' noUsers rfl e] at hne
  exact absurd hne (by decide +kernel)

end Cjet
