import Mathlib.Algebra.Group.Nat.Defs
import Mathlib.Logic.Function.Basic

/-!
# The hash table (`hashtable.h`)

Hopscotch hashing: the entries of a bucket stand at most `hop_range - 1` slots behind the hash position
of their keys, and the bitmap `hop_info` at that position says where.

The table is written one word at a time.  Each operation is given by its result and by the list of
its stores in program order, so that a reader that comes in between can be placed anywhere.  A
comparison with a slot that holds the invalid-entry marker is no operation on strings and has no
result.

* `Entry`, `Table`, `Store`   the table and one store to it;
* `search`, `get`, `put`, `remove`   the operations; `closerFrom`, `findCloserEntry`, `place` are the parts of
  `put` that move entries;
* `Op`, `exec`, `execAll`     sequences of calls.
-/

set_option linter.unusedVariables false

namespace Cjet
namespace Hopscotch

/-- `struct hashtable_string`; the key `HASHTABLE_INVALIDENTRY` is `none` -/
structure Entry (K V : Type) where
  hopInfo : BitVec 32
  key : Option K
  value : V

/-- `hop_range` -/
def hopRange : Nat := 32

/-- `table_size` and `add_range` -/
def tableSize (order : Nat) : Nat := 2 ^ order
def addRange (order : Nat) : Nat := 2 ^ (order - 1)

abbrev Pos (order : Nat) := Fin (tableSize order)

/-- `a - b` for numbers of 32 bits -/
def sub32 (a b : Nat) : Nat := (a + 2 ^ 32 - b) % 2 ^ 32

/-- `wrap_pos` -/
def wrapPos {order : Nat} (pos : Nat) : Pos order := ⟨pos % tableSize order, Nat.mod_lt _ (Nat.two_pow_pos order)⟩

abbrev Table (order : Nat) (K V : Type) := Pos order → Entry K V

/-! ## stores -/

inductive Store (order : Nat) (K V : Type) where
  | hopInfo (p : Pos order) (hopInfo : BitVec 32)
  | key (p : Pos order) (key : Option K)
  | value (p : Pos order) (value : V)

section
variable {order : Nat} {K V : Type}

def Store.write (t : Table order K V) : Store order K V → Table order K V
  | .hopInfo p x => Function.update t p { t p with hopInfo := x }
  | .key p x => Function.update t p { t p with key := x }
  | .value p x => Function.update t p { t p with value := x }

/-- the table after the stores -/
def writeAll (t : Table order K V) (stores : List (Store order K V)) : Table order K V :=
  stores.foldl Store.write t

theorem writeAll_nil (t : Table order K V) : writeAll t [] = t := rfl

theorem writeAll_cons (t : Table order K V) (s : Store order K V) (l : List (Store order K V)) :
    writeAll t (s :: l) = writeAll (s.write t) l := rfl

theorem writeAll_append (t : Table order K V) (l m : List (Store order K V)) :
    writeAll t (l ++ m) = writeAll (writeAll t l) m := List.foldl_append ..

/-! ## looking a key up -/

/-- `hashtable_create` -/
def create (order : Nat) (K V : Type) [Zero V] : Table order K V := fun _ => ⟨0, none, 0⟩

section
variable [DecidableEq K] (hash : K → Pos order)

/-- the loop of `hashtable_get`, which is also that of `hashtable_put` and `hashtable_remove`: the slot
of the key.  The bitmap is empty after 32 shifts. -/
def searchFrom (t : Table order K V) (k : K) : (fuel : Nat) → BitVec 32 → Pos order → Option (Option (Pos order))
  | 0, _, _ => some none
  | fuel + 1, hopInfo, pos =>
    if hopInfo = 0 then some none
    else if hopInfo &&& 1 = 1 then
      match (t pos).key with
      | none => none
      | some k' => if k' = k then some (some pos) else searchFrom t k fuel (hopInfo >>> 1) (wrapPos (pos + 1))
    else searchFrom t k fuel (hopInfo >>> 1) (wrapPos (pos + 1))

def search (t : Table order K V) (k : K) : Option (Option (Pos order)) :=
  searchFrom t k 32 (t (hash k)).hopInfo (hash k)

/-- `hashtable_get` -/
def get (t : Table order K V) (k : K) : Option (Option V) :=
  (search hash t k).map fun found => found.map fun p => (t p).value

end

/-! ## moving entries -/

/-- the inner loop of `find_closer_entry`: the first bit below `checkDistance` that is set -/
def firstHop (hopInfo : BitVec 32) (checkDistance : Nat) : Option Nat :=
  (List.range checkDistance).find? fun i => 1#32 <<< i &&& hopInfo != 0

/-- an entry that can be moved: its bucket, and its old and its new distance -/
structure Closer (order : Nat) where
  checkPosition : Pos order
  hop : Nat
  checkDistance : Nat

def Closer.hopPosition (c : Closer order) : Pos order := wrapPos (c.checkPosition + c.hop)

/-- the outer loop of `find_closer_entry` -/
def closerFrom (t : Table order K V) (free : Pos order) : (checkDistance : Nat) → Option (Closer order)
  | 0 => none
  | d + 1 =>
    match firstHop (t (wrapPos (sub32 free (d + 1)))).hopInfo (d + 1) with
    | some i => some ⟨wrapPos (sub32 free (d + 1)), i, d + 1⟩
    | none => closerFrom t free d

def Closer.moveStores (c : Closer order) (t : Table order K V) (free : Pos order) : List (Store order K V) :=
  [.key free (t c.hopPosition).key, .value free (t c.hopPosition).value,
   .hopInfo c.checkPosition
     ((t c.checkPosition).hopInfo &&& ~~~(1#32 <<< c.hop) ||| 1#32 <<< c.checkDistance)]

/-- `find_closer_entry`: the slot that becomes free, and the stores -/
def findCloserEntry (t : Table order K V) (free : Pos order) : Option (Pos order × List (Store order K V)) :=
  (closerFrom t free (hopRange - 1)).map fun c => (c.hopPosition, c.moveStores t free)

/-! ## inserting -/

/-- the linear search for a slot with the invalid-entry marker: its distance and the slot -/
def findFree (t : Table order K V) : (left : Nat) → (freeDistance : Nat) → Pos order → Option (Nat × Pos order)
  | 0, _, _ => none
  | left + 1, freeDistance, pos =>
    if (t pos).key.isNone then some (freeDistance, pos)
    else findFree t left (freeDistance + 1) (wrapPos (pos + 1))

/-- the last loop of `hashtable_put`: was there room?  The free slot comes closer with each round. -/
def place (h : Pos order) (k : K) (value : V) :
    (fuel : Nat) → Table order K V → Pos order → Nat → Option (Bool × List (Store order K V))
  | 0, _, _, _ => none
  | fuel + 1, t, free, freeDistance =>
    if freeDistance < hopRange then
      some (true, [.value free value, .key free (some k), .hopInfo h ((t h).hopInfo ||| 1#32 <<< freeDistance)])
    else
      match findCloserEntry t free with
      | none => some (false, [])
      | some (free', stores) =>
        (place h k value fuel (writeAll t stores) free' (wrapPos (sub32 free' h) : Pos order)).map fun r =>
          (r.1, stores ++ r.2)

/-- `HASHTABLE_SUCCESS`, `HASHTABLE_FULL` and `HASHTABLE_KEYINVAL` -/
inductive Status where
  | success
  | full
  | keyInval
  deriving DecidableEq

/-- what `hashtable_put` returns, what it leaves in `prev_value`, and its stores -/
structure PutResult (order : Nat) (K V : Type) where
  status : Status
  prevValue : V
  stores : List (Store order K V)

section
variable [DecidableEq K] [Zero V] (hash : K → Pos order)

/-- `hashtable_put` -/
def put (t : Table order K V) (key : Option K) (value : V) : Option (PutResult order K V) :=
  match key with
  | none => some ⟨.keyInval, 0, []⟩
  | some k =>
    match search hash t k with
    | none => none
    | some (some p) => some ⟨.success, (t p).value, [.value p value]⟩
    | some none =>
      match findFree t (addRange order) 0 (hash k) with
      | none => some ⟨.full, 0, []⟩
      | some (freeDistance, free) =>
        (place (hash k) k value (addRange order) t free freeDistance).map fun r =>
          ⟨if r.1 then .success else .full, 0, r.2⟩

/-- `hashtable_remove`: the value, if there is one, and the stores -/
def remove (t : Table order K V) (k : K) : Option (Option V × List (Store order K V)) :=
  match search hash t k with
  | none => none
  | some none => some (none, [])
  | some (some p) =>
    some (some (t p).value,
      [.key p none, .value p 0,
       .hopInfo (hash k) ((t (hash k)).hopInfo &&& ~~~(1#32 <<< (wrapPos (sub32 p (hash k)) : Pos order).val))])

/-! ## calls -/

inductive Op (K V : Type) where
  | get (k : K)
  | put (k : K) (v : V)
  | remove (k : K)

/-- what a call returns -/
inductive Out (V : Type) where
  | found (v : Option V)
  | put (status : Status) (prevValue : V)
  | removed (v : Option V)

/-- the stores of a call and what it returns -/
def call (t : Table order K V) : Op K V → Option (Out V × List (Store order K V))
  | .get k => (get hash t k).map fun v => (.found v, [])
  | .put k v => (put hash t (some k) v).map fun r => (.put r.status r.prevValue, r.stores)
  | .remove k => (remove hash t k).map fun r => (.removed r.1, r.2)

def exec (t : Table order K V) (op : Op K V) : Option (Out V × Table order K V) :=
  (call hash t op).map fun r => (r.1, writeAll t r.2)

def execAll : Table order K V → List (Op K V) → Option (List (Out V) × Table order K V)
  | t, [] => some ([], t)
  | t, op :: ops =>
    (exec hash t op).bind fun r => (execAll r.2 ops).map fun r' => (r.1 :: r'.1, r'.2)

end

end

end Hopscotch
end Cjet
