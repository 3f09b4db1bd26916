import Mathlib.Data.List.Basic

/-!
# The allocator (`alloc.c`)

A block begins with its size; a counter adds up the sizes and is held against a limit.  A `size_t` has 64 bits.

* `cjetMalloc`, `cjetCalloc`, `cjetFree`   the code;
* `Accounted`       the counter is the sum of the sizes, below the limit, and all blocks are large enough;
* `Exact`           where a request is granted, nothing wraps around;
* `keeps_iff`       the runs for which the accounts are right.
-/

set_option linter.unusedVariables false

namespace Cjet

namespace Heap

/-- a block that has been handed out: the size in front of it, and how many bytes it really has -/
structure Block where
  address : Nat
  size : UInt64
  memory : Nat
  /-- a ghost: the bytes that have been asked for -/
  requested : Nat

/-- the blocks that have not been freed, and the next address -/
structure State where
  allocatedMemory : UInt64
  live : List Block
  next : Nat

def State.empty : State := ⟨0, [], 0⟩

inductive Fault where
  /-- the caller frees what is not a block -/
  | notLive
  /-- the size is written behind the end of a block -/
  | outOfBounds
  deriving DecidableEq

section
variable (limit : UInt64)

/-- `sizeof(size_t)` -/
abbrev header : UInt64 := 8

/-- What `cjet_malloc` and `cjet_calloc` have in common: `allocSize` bytes from the allocator behind them, which has them
if `ok`.  The result is null or an address. -/
def allocate (allocSize : UInt64) (requested : Nat) (ok : Bool) (s : State) : Except Fault (Option Nat × State) :=
  if s.allocatedMemory + allocSize > limit then .ok (none, s)
  else if !ok then .ok (none, s)
  else if allocSize < header then .error .outOfBounds
  else .ok (some s.next,
    { allocatedMemory := s.allocatedMemory + allocSize
      live := ⟨s.next, allocSize, allocSize.toNat, requested⟩ :: s.live
      next := s.next + 1 })

/-- `cjet_malloc` -/
def cjetMalloc (size : UInt64) : (ok : Bool) → State → Except Fault (Option Nat × State) :=
  allocate limit (size + header) size.toNat

/-- `cjet_calloc` -/
def cjetCalloc (nmemb size : UInt64) : (ok : Bool) → State → Except Fault (Option Nat × State) :=
  allocate limit (nmemb * size + header) (nmemb.toNat * size.toNat)

/-- `cjet_free` -/
def cjetFree (address : Nat) (s : State) : Except Fault State :=
  match s.live.find? fun block => block.address == address with
  | none => .error .notLive
  | some block => .ok { s with allocatedMemory := s.allocatedMemory - block.size
                               live := s.live.eraseP fun block => block.address == address }

/-! ## runs -/

/-- a call, and whether the allocator behind it has the memory -/
inductive Op where
  | malloc (size : UInt64) (ok : Bool)
  | calloc (nmemb size : UInt64) (ok : Bool)
  | free (address : Nat)

def step (s : State) : Op → Except Fault State
  | .malloc size ok => (cjetMalloc limit size ok s).map Prod.snd
  | .calloc nmemb size ok => (cjetCalloc limit nmemb size ok s).map Prod.snd
  | .free address => cjetFree address s

def run : State → List Op → Except Fault State
  | s, [] => .ok s
  | s, op :: rest =>
    match step limit s op with
    | .ok t => run t rest
    | .error fault => .error fault

/-! ## the accounts -/

/-- the sum of the sizes in front of the blocks -/
def recorded : List Block → Nat
  | [] => 0
  | block :: rest => block.size.toNat + recorded rest

/-- The counter is the sum of the sizes, it is not above the limit, and behind its size each block has the bytes that have
been asked for. -/
structure Accounted (s : State) : Prop where
  sum : s.allocatedMemory.toNat = recorded s.live
  bounded : s.allocatedMemory ≤ limit
  usable : ∀ block ∈ s.live, block.requested + 8 ≤ block.memory

/-- The accounts are right after every part of the run, unless the caller has freed what is not a block. -/
def Keeps (s : State) (ops : List Op) : Prop :=
  ∀ done, done <+: ops → match run limit s done with
    | .ok t => Accounted limit t
    | .error fault => fault = .notLive

/-- Where a request is granted, the new sum of all sizes is less than 2^64. -/
def Granted (s : State) (allocSize : UInt64) (requested : Nat) (ok : Bool) : Prop :=
  s.allocatedMemory + allocSize ≤ limit → ok = true → s.allocatedMemory.toNat + requested + 8 < 18446744073709551616

def Exact (s : State) : Op → Prop
  | .malloc size ok => Granted limit s (size + header) size.toNat ok
  | .calloc nmemb size ok => Granted limit s (nmemb * size + header) (nmemb.toNat * size.toNat) ok
  | .free _ => True

/-- every request of the run, in the state in which it is made -/
def AllExact : State → List Op → Prop
  | _, [] => True
  | s, op :: rest =>
    Exact limit s op ∧ match step limit s op with
      | .ok t => AllExact t rest
      | .error _ => True

end

/-! ## a call -/

section
variable {limit : UInt64} {s t : State} {allocSize : UInt64} {requested : Nat} {ok : Bool}

theorem allocate_refused (h : limit < s.allocatedMemory + allocSize ∨ ok = false) :
    allocate limit allocSize requested ok s = .ok (none, s) := by
  unfold allocate
  by_cases hlimit : s.allocatedMemory + allocSize > limit
  · rw [if_pos hlimit]
  · rw [if_neg hlimit, h.resolve_left hlimit]
    rfl

theorem allocate_granted (hlimit : s.allocatedMemory + allocSize ≤ limit) (hok : ok = true) :
    allocate limit allocSize requested ok s =
      if allocSize < header then .error .outOfBounds
      else .ok (some s.next,
        { allocatedMemory := s.allocatedMemory + allocSize
          live := ⟨s.next, allocSize, allocSize.toNat, requested⟩ :: s.live
          next := s.next + 1 }) := by
  unfold allocate
  rw [if_neg (UInt64.not_lt.mpr hlimit), hok]
  rfl

/-- the size of a block, where the request and the header do not wrap around -/
theorem toNat_allocSize {n : Nat} (hn : allocSize = UInt64.ofNat (n + 8)) :
    allocSize.toNat = (n + 8) % 18446744073709551616 := by
  rw [hn]
  exact UInt64.toNat_ofNat'

/-- A request keeps the accounts if nothing wraps around, and only then. -/
theorem allocate_keeps_iff (h : Accounted limit s) (hsize : allocSize = UInt64.ofNat (requested + 8)) :
    (match (allocate limit allocSize requested ok s).map Prod.snd with
      | .ok t => Accounted limit t
      | .error fault => fault = .notLive) ↔ Granted limit s allocSize requested ok := by
  unfold Granted
  by_cases hrefused : limit < s.allocatedMemory + allocSize ∨ ok = false
  · rw [allocate_refused hrefused]
    refine iff_of_true h fun hlimit hok => ?_
    rcases hrefused with hlarge | hno
    · exact absurd hlimit (UInt64.not_le.mpr hlarge)
    · rw [hno] at hok
      cases hok
  · have hlimit : s.allocatedMemory + allocSize ≤ limit := UInt64.not_lt.mp fun hlarge => hrefused (Or.inl hlarge)
    have hok : ok = true := Bool.of_not_eq_false fun hno => hrefused (Or.inr hno)
    have hnat := toNat_allocSize hsize
    have hsum := h.sum
    have hbound := s.allocatedMemory.toNat_lt
    rw [allocate_granted hlimit hok]
    by_cases hsmall : allocSize < header
    · rw [if_pos hsmall]
      have hlt : allocSize.toNat < 8 := UInt64.lt_iff_toNat_lt.mp hsmall
      refine iff_of_false nofun fun hall => ?_
      have := hall hlimit hok
      omega
    · rw [if_neg hsmall]
      have hadd : (s.allocatedMemory + allocSize).toNat
          = (s.allocatedMemory.toNat + allocSize.toNat) % 18446744073709551616 := UInt64.toNat_add _ _
      constructor
      · intro hkept _ _
        have hsum' : (s.allocatedMemory + allocSize).toNat = allocSize.toNat + recorded s.live := hkept.sum
        have husable : requested + 8 ≤ allocSize.toNat := hkept.usable _ List.mem_cons_self
        omega
      · intro hall
        have hexact := hall hlimit hok
        refine ⟨?_, hlimit, ?_⟩
        · show (s.allocatedMemory + allocSize).toNat = allocSize.toNat + recorded s.live
          omega
        · rintro block (_ | ⟨_, hblock⟩)
          · show requested + 8 ≤ allocSize.toNat
            omega
          · exact h.usable block hblock

/-! ## giving a block back -/

theorem recorded_erase {p : Block → Bool} {blocks : List Block} {block : Block} (h : blocks.find? p = some block) :
    recorded blocks = block.size.toNat + recorded (blocks.eraseP p) := by
  induction blocks with
  | nil => cases h
  | cons head rest ih =>
    cases hp : p head with
    | true =>
      rw [List.find?_cons_of_pos hp] at h
      cases h
      rw [List.eraseP_cons_of_pos hp]
      rfl
    | false =>
      have hno : ¬p head = true := Bool.eq_false_iff.mp hp
      rw [List.find?_cons_of_neg hno] at h
      rw [List.eraseP_cons_of_neg hno]
      show head.size.toNat + recorded rest = block.size.toNat + (head.size.toNat + recorded (rest.eraseP p))
      rw [ih h]
      omega

theorem free_keeps {address : Nat} (h : Accounted limit s) :
    match cjetFree address s with
    | .ok t => Accounted limit t
    | .error fault => fault = .notLive := by
  unfold cjetFree
  cases hfind : s.live.find? fun block => block.address == address with
  | none => rfl
  | some block =>
    have hsum := h.sum
    rw [recorded_erase hfind] at hsum
    have hle : block.size ≤ s.allocatedMemory := UInt64.le_iff_toNat_le.mpr (by omega)
    have hsub := UInt64.toNat_sub_of_le _ _ hle
    have hlimit := UInt64.le_iff_toNat_le.mp h.bounded
    refine ⟨?_, UInt64.le_iff_toNat_le.mpr ?_, fun other hother => h.usable other (List.mem_of_mem_eraseP hother)⟩
    · show (s.allocatedMemory - block.size).toNat = recorded (s.live.eraseP fun block => block.address == address)
      omega
    · show (s.allocatedMemory - block.size).toNat ≤ limit.toNat
      omega

/-! ## a run -/

theorem mallocSize (size : UInt64) : size + header = UInt64.ofNat (size.toNat + 8) := by
  apply UInt64.toNat_inj.mp
  rw [UInt64.toNat_add, UInt64.toNat_ofNat']
  rfl

theorem callocSize (nmemb size : UInt64) : nmemb * size + header = UInt64.ofNat (nmemb.toNat * size.toNat + 8) := by
  apply UInt64.toNat_inj.mp
  rw [UInt64.toNat_add, UInt64.toNat_mul, UInt64.toNat_ofNat']
  exact Nat.mod_add_mod _ _ _

theorem step_keeps_iff (h : Accounted limit s) (op : Op) :
    (match step limit s op with
      | .ok t => Accounted limit t
      | .error fault => fault = .notLive) ↔ Exact limit s op := by
  cases op with
  | malloc size ok => exact allocate_keeps_iff h (mallocSize size)
  | calloc nmemb size ok => exact allocate_keeps_iff h (callocSize nmemb size)
  | free address => exact iff_of_true (free_keeps h) trivial

theorem accounted_empty : Accounted limit State.empty where
  sum := rfl
  bounded := UInt64.le_iff_toNat_le.mpr (Nat.zero_le _)
  usable := fun block hblock => absurd hblock List.not_mem_nil

/-- From accounts that are right. -/
theorem keeps_from_iff (h : Accounted limit s) (ops : List Op) : Keeps limit s ops ↔ AllExact limit s ops := by
  induction ops generalizing s with
  | nil =>
    refine iff_of_true ?_ trivial
    intro done hdone
    rw [List.prefix_nil.mp hdone]
    exact h
  | cons op rest ih =>
    have hfirst := step_keeps_iff h op
    constructor
    · intro hkeeps
      have hone := hkeeps [op] (List.prefix_append [op] rest)
      unfold AllExact
      unfold run at hone
      cases hstep : step limit s op with
      | error fault =>
        rw [hstep] at hfirst hone
        exact ⟨hfirst.mp hone, trivial⟩
      | ok t =>
        rw [hstep] at hfirst hone
        refine ⟨hfirst.mp hone, (ih hone).mp ?_⟩
        intro done hdone
        have hmore := hkeeps (op :: done) (List.prefix_cons_inj op |>.mpr hdone)
        unfold run at hmore
        rw [hstep] at hmore
        exact hmore
    · rintro ⟨hexact, hrest⟩ done hdone
      have hone := hfirst.mpr hexact
      cases done with
      | nil => exact h
      | cons op' done =>
        obtain ⟨rfl, hmore⟩ := List.cons_prefix_cons.mp hdone
        unfold run
        cases hstep : step limit s op' with
        | error fault =>
          rw [hstep] at hone
          exact hone
        | ok t =>
          rw [hstep] at hone hrest
          exact (ih hone).mpr hrest done hmore

end

/-- The accounts are right in all of a run exactly if no granted request wraps around. -/
theorem keeps_iff (limit : UInt64) (ops : List Op) : Keeps limit State.empty ops ↔ AllExact limit State.empty ops :=
  keeps_from_iff accounted_empty ops

/-- 20480 KiB, and 2^32 members of 2^32 bytes: a block without any. -/
theorem calloc_wraps : ¬Keeps 20971520 State.empty [.calloc 4294967296 4294967296 true] := by
  intro h
  have hexact := ((keeps_from_iff accounted_empty _).mp h).1
  exact absurd (hexact (by decide) rfl) (by decide)

end Heap
end Cjet
