import Cjet.JsonText.Parse
import Cjet.Lib.Block
import Mathlib.Algebra.GroupWithZero.Nat

/-!
# Printing a JSON value (`json/cJSON.c`)

The text is written into a block that grows when it is too small; what has been written lies in front of the offset, and
what has been written last may lie behind it, up to a zero byte.

* `PrintBuffer`, `ensure`, `emit`     the block, and writing to it;
* `printValue`, `print`               the printer, with and without formatting;
* `Item.render`                       the text that it should write.
-/

set_option linter.unusedVariables false

namespace Cjet.JsonText
open Stateful Prog

/-! ## the block -/

/-- `printbuffer`: the block with its address, unless it has been lost -/
structure PrintBuffer where
  buffer : Option (Addr × List UInt8)
  length : Nat
  offset : Nat
  depth : Nat
  calls : Nat
  heap : Ledger

abbrev Printer := Prog PrintBuffer

/-- `INT_MAX` -/
def intMax : Nat := 2147483647

/-- what the allocator does: is the call granted, and what lies in the new block? -/
structure Allocator where
  granted : Nat → Bool
  byte : Nat → Nat → UInt8

section
variable (alloc : Allocator)

/-- a block as it is found -/
def Allocator.fresh (call size : Nat) : List UInt8 := (List.range size).map (alloc.byte call)

/-- `hooks.allocate(size)` -/
def allocateBlock (size : Nat) : Printer (Option (Addr × List UInt8)) := do
  let call ← read (·.calls)
  update fun b => { b with calls := b.calls + 1 }
  if alloc.granted call then
    let address ← read (·.heap.next)
    update fun b => { b with heap := { b.heap with next := b.heap.next + 1 } }
    pure (some (address, alloc.fresh call size))
  else pure none

/-- `hooks.deallocate` -/
def freeBlock (address : Addr) : Printer Unit :=
  update fun b => { b with heap := { b.heap with released := b.heap.released + {address} } }

/-- `ensure`: is there room for `needed` bytes at the offset? -/
def ensure (needed : Nat) : Printer Bool := do
  let p ← read id
  match p.buffer with
  | none => pure false
  | some (address, block) =>
    if 0 < p.length ∧ p.length ≤ p.offset then pure false
    else if intMax < needed then pure false
    else
      let needed := needed + p.offset + 1
      if needed ≤ p.length then pure true
      else if intMax / 2 < needed ∧ intMax < needed then pure false
      else
        let newsize := if intMax / 2 < needed then intMax else needed * 2
        match ← allocateBlock alloc newsize with
        | none =>
          freeBlock address
          update fun b => { b with length := 0, buffer := none }
          pure false
        | some (newaddress, newblock) =>
          let copied ← deref fun _ => (Block.load block 0 (p.offset + 1)).bind (Block.store newblock 0)
          freeBlock address
          update fun b => { b with length := newsize, buffer := some (newaddress, copied) }
          pure true

/-- some bytes are written at a distance from the offset -/
def write (distance : Nat) (bytes : List UInt8) : Printer Unit := do
  let p ← read id
  let block ← deref fun b => b.buffer.bind fun b => Block.store b.2 (p.offset + distance) bytes
  update fun b => { b with buffer := b.buffer.map fun b => (b.1, block) }

/-- `update_offset` -/
def updateOffset : Printer Unit := do
  let p ← read id
  match p.buffer with
  | none => pure ()
  | some (_, block) =>
    require fun _ => (block.drop p.offset).contains 0
    update fun b => { b with offset := b.offset + (cText (block.drop p.offset)).length }

/-- `output = ensure(output_buffer, needed); if (output == NULL) return false;`, some bytes at `output`, and the offset
moves on -/
def emit (needed : Nat) (bytes : List UInt8) (count : Nat) : Printer Bool := do
  if ← ensure alloc needed then
    write 0 bytes
    update fun b => { b with offset := b.offset + count }
    pure true
  else pure false

/-- `if (!m) return false; return n;` -/
def andThen (m n : Printer Bool) : Printer Bool := do
  if ← m then n else pure false

/-! ## strings and numbers -/

/-- how many bytes more than one are written for a byte of a string -/
def escapeCharacters (c : UInt8) : Nat :=
  if c ∈ [0x22, 0x5C, 0x08, 0x0C, 0x0A, 0x0D, 0x09] then 1
  else if c < 32 then 5
  else 0

/-- a digit of `%04x` -/
def hexChar (n : Nat) : UInt8 := UInt8.ofNat (if n < 10 then 0x30 + n else 0x61 + (n - 10))

/-- what is written for a byte of a string -/
def escapeByte (c : UInt8) : List UInt8 :=
  if 31 < c ∧ c ≠ 0x22 ∧ c ≠ 0x5C then [c]
  else
    0x5C :: match ([(0x5C, 0x5C), (0x22, 0x22), (0x08, 0x62), (0x0C, 0x66), (0x0A, 0x6E), (0x0D, 0x72), (0x09, 0x74)]
        : List (UInt8 × UInt8)).lookup c with
      | some d => [d]
      | none => [0x75, 0x30, 0x30, hexChar (c.toNat / 16), hexChar (c.toNat % 16)]

/-- `print_string_ptr`; the string has been read up to its zero byte -/
def printStringPtr : Option (List UInt8) → Printer Bool
  | none => emit alloc 3 [0x22, 0x22, 0] 0
  | some input => do
    let escapes := (input.map escapeCharacters).sum
    let outputLength := input.length + escapes
    if ← ensure alloc (outputLength + 3) then
      write 0 (0x22 :: if escapes = 0 then input else input.flatMap escapeByte)
      write (outputLength + 1) [0x22, 0]
      pure true
    else pure false

/-- the functions of the C library that write a number: `%1.15g`, `%1.17g`, and whether `sscanf` and `compare_double` find
the number again -/
structure Sprintf (N : Type) where
  isSpecial : N → Bool
  short : N → List UInt8
  long : N → List UInt8
  recovered : N → List UInt8 → Bool
  /-- no number takes more than the buffer for it holds -/
  short_le : ∀ n, (short n).length ≤ 25
  long_le : ∀ n, (long n).length ≤ 25
  /-- what is written is a string of C -/
  short_ne : ∀ n, 0 ∉ short n
  long_ne : ∀ n, 0 ∉ long n

/-- what `print_number` puts into its buffer -/
def Sprintf.text {N : Type} (sprintf : Sprintf N) (d : N) : List UInt8 :=
  if sprintf.isSpecial d then nullText
  else if sprintf.recovered d (sprintf.short d) then sprintf.short d
  else sprintf.long d

section
variable {N : Type} (sprintf : Sprintf N) (format : Bool)

/-- `print_number` -/
def printNumber (d : N) : Printer Bool :=
  let text := sprintf.text d
  if 25 < text.length then pure false else emit alloc (text.length + 1) (text ++ [0]) text.length

/-! ## values -/

def enterPrint : Printer Unit := update fun b => { b with depth := b.depth + 1 }
def leavePrint : Printer Unit := update fun b => { b with depth := b.depth - 1 }

/-- `count` tabulators -/
def tabs (count : Nat) : List UInt8 := List.replicate count 0x09

/-- `print_array` around its loop -/
def printArray (loop : Printer Bool) : Printer Bool :=
  andThen (emit alloc 1 [0x5B] 1) do
    enterPrint
    andThen loop (andThen (emit alloc 2 [0x5D, 0] 0) do leavePrint; pure true)

/-- `print_object` around its loop -/
def printObject (loop : Printer Bool) : Printer Bool :=
  let opening := if format then [0x7B, 0x0A] else [0x7B]
  andThen (emit alloc (opening.length + 1) opening opening.length) do
    enterPrint
    andThen loop do
      let depth ← read (·.depth)
      let indent := if format then tabs (depth - 1) else []
      andThen (emit alloc (if format then depth + 1 else 2) (indent ++ [0x7D, 0]) 0) do leavePrint; pure true

/-- the comma behind an element of an array -/
def arrayComma : List UInt8 := if format then [0x2C, 0x20] else [0x2C]

/-- what stands in front of a member, unless the output is not formatted -/
def printIndent : Printer Bool := do
  let depth ← read (·.depth)
  if format then emit alloc depth (tabs depth) depth else pure true

def memberColon : List UInt8 := if format then [0x3A, 0x09] else [0x3A]

/-- what stands behind a member; `another` if it is not the last one -/
def memberComma (another : Bool) : List UInt8 := (if another then [0x2C] else []) ++ if format then [0x0A] else []

def Nodes.isNil : Nodes N → Bool
  | .nil => true
  | .cons .. => false

mutual

/-- `print_value` -/
def printValue : Item N → Printer Bool
  | .invalid => pure false
  | .null => emit alloc 5 (nullText ++ [0]) 0
  | .bool false => emit alloc 6 (falseText ++ [0]) 0
  | .bool true => emit alloc 5 (trueText ++ [0]) 0
  | .number d => printNumber alloc sprintf d
  | .string _ s => printStringPtr alloc (some (cText s))
  | .array child => printArray alloc (printElements child)
  | .object child => printObject alloc format (printMembers child)

/-- the loop of `print_array` -/
def printElements : Nodes N → Printer Bool
  | .nil => pure true
  | .cons _ _ item next =>
    andThen (printValue item) do
      updateOffset
      if next.isNil then pure true
      else
        andThen (emit alloc ((arrayComma format).length + 1) (arrayComma format ++ [0]) (arrayComma format).length)
          (printElements next)

/-- the loop of `print_object` -/
def printMembers : Nodes N → Printer Bool
  | .nil => pure true
  | .cons _ string item next =>
    andThen (printIndent alloc format) <| andThen (printStringPtr alloc (string.map fun s => cText s.2)) do
      updateOffset
      andThen (emit alloc (memberColon format).length (memberColon format) (memberColon format).length) <|
        andThen (printValue item) do
          updateOffset
          let comma := memberComma format (!next.isNil)
          andThen (emit alloc (comma.length + 1) (comma ++ [0]) comma.length) (printMembers next)

end

/-- `fail:` in `print` -/
def printFailed : Printer (Option (Addr × List UInt8)) := do
  let p ← read id
  match p.buffer with
  | none => pure none
  | some (address, _) =>
    freeBlock address
    pure none

/-- `print`: the block with the text -/
def print (item : Item N) : Printer (Option (Addr × List UInt8)) := do
  match ← allocateBlock alloc 256 with
  | none => pure none
  | some buffer =>
    update fun b => { b with buffer := some buffer, length := 256, offset := 0, depth := 0 }
    if ← printValue alloc sprintf format item then
      updateOffset
      let p ← read id
      match ← allocateBlock alloc (p.offset + 1) with
      | none => printFailed
      | some (address, printed) =>
        let copied ← deref fun b => b.buffer.bind fun b =>
          (Block.load b.2 0 (min p.length (p.offset + 1))).bind (Block.store printed 0)
        let copied ← deref fun _ => Block.store copied p.offset [0]
        match p.buffer with
        | none => pure ()
        | some (old, _) => freeBlock old
        pure (some (address, copied))
    else printFailed

/-- `cJSON_PrintUnformatted`, with the memory as it is found -/
def printUnformatted (item : Item N) (calls : Nat) (heap : Ledger) :
    Option (Option (Addr × List UInt8) × PrintBuffer) :=
  print alloc sprintf false item { buffer := none, length := 0, offset := 0, depth := 0, calls := calls, heap := heap }

end

end

/-! ## the text -/

/-- a string with its quotes -/
def quoted (s : List UInt8) : List UInt8 := 0x22 :: (s.flatMap escapeByte ++ [0x22])

section
variable {N : Type} (sprintf : Sprintf N) (format : Bool)

mutual

/-- the text of an item at a depth -/
def Item.render (depth : Nat) : Item N → List UInt8
  | .invalid => []
  | .null => nullText
  | .bool false => falseText
  | .bool true => trueText
  | .number d => sprintf.text d
  | .string _ s => quoted (cText s)
  | .array child => 0x5B :: (child.renderElements (depth + 1) ++ [0x5D])
  | .object child =>
    (if format then [0x7B, 0x0A] else [0x7B]) ++
      (child.renderMembers (depth + 1) ++ ((if format then tabs depth else []) ++ [0x7D]))

def Nodes.renderElements (depth : Nat) : Nodes N → List UInt8
  | .nil => []
  | .cons _ _ item next =>
    item.render depth ++ ((if next.isNil then [] else arrayComma format) ++ next.renderElements depth)

def Nodes.renderMembers (depth : Nat) : Nodes N → List UInt8
  | .nil => []
  | .cons _ string item next =>
    (if format then tabs depth else []) ++ (quoted ((string.map fun s => cText s.2).getD []) ++ (memberColon format ++
      (item.render depth ++ (memberComma format (!next.isNil) ++ next.renderMembers depth))))

end

end

end Cjet.JsonText
