import Cjet.Lib.Total
import Cjet.Model.Env

/-!
# Parsing a JSON text (`json/cJSON.c`)

The parser reads the text through an offset and asks for a block of memory for each node and for each string.

* `Item`, `Nodes`, `Value`     what is built, with its addresses and without them;
* `ParseBuffer`                the text, the place that has been reached, and the memory;
* `parseString`, `parseNumber`, `parseValue`   the parser;
* `parseWithLengthOpts`, `parseWithOpts`       its entry points.
-/

set_option linter.unusedVariables false

namespace Cjet.JsonText
open Stateful Prog

/-! ## what is built -/

mutual

/-- the type of a node and what goes with it; `invalid` is that of a node that has only been allocated -/
inductive Item (N : Type) where
  | invalid
  | null
  | bool (b : Bool)
  | number (valuedouble : N)
  | string (block : Addr) (valuestring : List UInt8)
  | array (child : Nodes N)
  | object (child : Nodes N)

/-- nodes that are linked by `next`; `string` is the name of a member -/
inductive Nodes (N : Type) where
  | nil
  | cons (node : Addr) (string : Option (Addr × List UInt8)) (item : Item N) (next : Nodes N)

end

/-- what the item says, once the addresses are forgotten -/
inductive Value (N : Type) where
  | null
  | bool (b : Bool)
  | num (n : N)
  | str (s : List UInt8)
  | arr (l : List (Value N))
  | obj (l : List (List UInt8 × Value N))

/-- the text at a pointer, which ends at the first zero byte -/
def cText (bytes : List UInt8) : List UInt8 := bytes.takeWhile (· != 0)

section
variable {N : Type}

mutual

def Item.value : Item N → Value N
  | .invalid => .null
  | .null => .null
  | .bool b => .bool b
  | .number n => .num n
  | .string _ s => .str (cText s)
  | .array child => .arr child.values
  | .object child => .obj child.members

def Nodes.values : Nodes N → List (Value N)
  | .nil => []
  | .cons _ _ item next => item.value :: next.values

def Nodes.members : Nodes N → List (List UInt8 × Value N)
  | .nil => []
  | .cons _ string item next => ((string.map fun s => cText s.2).getD [], item.value) :: next.members

end

mutual

/-- the blocks that an item refers to -/
def Item.blocks : Item N → Multiset Addr
  | .string block _ => {block}
  | .array child => child.blocks
  | .object child => child.blocks
  | _ => 0

def Nodes.blocks : Nodes N → Multiset Addr
  | .nil => 0
  | .cons node string item next => {node} + string.elim 0 (fun s => {s.1}) + item.blocks + next.blocks

end

end

/-! ## the text and the memory -/

/-- `parse_buffer`; `calls` counts the blocks that have been asked for -/
structure ParseBuffer where
  content : List UInt8
  offset : Nat
  depth : Nat
  calls : Nat
  heap : Ledger

abbrev Parser := Prog ParseBuffer

/-- `buffer_at_offset(buffer)[index]`, where it can be accessed -/
def ParseBuffer.atOffset (b : ParseBuffer) (index : Nat) : Option UInt8 := b.content[b.offset + index]?

/-- `can_read(buffer, n) && strncmp(buffer_at_offset(buffer), literal, n) == 0` -/
def ParseBuffer.startsWith (b : ParseBuffer) (literal : List UInt8) : Bool :=
  (b.content.drop b.offset).take literal.length == literal

/-- `CJSON_NESTING_LIMIT` -/
def nestingLimit : Nat := 1000

def advance (count : Nat) : Parser Unit := update fun b => { b with offset := b.offset + count }
def stepBack : Parser Unit := update fun b => { b with offset := b.offset - 1 }
def jump (offset : Nat) : Parser Unit := update fun b => { b with offset := offset }
def enter : Parser Unit := update fun b => { b with depth := b.depth + 1 }
def leave : Parser Unit := update fun b => { b with depth := b.depth - 1 }

/-- `buffer_skip_whitespace` -/
def ParseBuffer.skipWhitespace (b : ParseBuffer) : ParseBuffer :=
  if b.content.length ≤ b.offset then b
  else
    let offset := b.offset + ((b.content.drop b.offset).takeWhile (· ≤ 32)).length
    { b with offset := if offset = b.content.length then offset - 1 else offset }

def bufferSkipWhitespace : Parser Unit := update ParseBuffer.skipWhitespace

def byteOrderMark : List UInt8 := [0xEF, 0xBB, 0xBF]

/-- `skip_utf8_bom` -/
def skipUtf8Bom : Parser Unit := update fun b =>
  if (b.atOffset 4).isSome && b.startsWith byteOrderMark then { b with offset := b.offset + 3 } else b

/-- `hooks.deallocate` for some blocks -/
def deallocate (blocks : Multiset Addr) : Parser Unit :=
  update fun b => { b with heap := { b.heap with released := b.heap.released + blocks } }

section
variable (granted : Nat → Bool)

/-- `hooks.allocate`: is the call that is made now granted? -/
def allocate : Parser (Option Addr) := do
  let call ← read (·.calls)
  update fun b => { b with calls := b.calls + 1 }
  if granted call then
    let block ← read (·.heap.next)
    update fun b => { b with heap := { b.heap with next := b.heap.next + 1 } }
    pure (some block)
  else pure none

end

/-! ## strings -/

def hexDigit (c : UInt8) : Option Nat :=
  if 0x30 ≤ c ∧ c ≤ 0x39 then some (c.toNat - 0x30)
  else if 0x41 ≤ c ∧ c ≤ 0x46 then some (10 + c.toNat - 0x41)
  else if 0x61 ≤ c ∧ c ≤ 0x66 then some (10 + c.toNat - 0x61)
  else none

/-- `parse_hex4`: zero, where one of the digits is none -/
def parseHex4 (input : List UInt8) : Nat :=
  ((input.take 4).foldlM (fun h c => (hexDigit c).map (16 * h + ·)) 0).getD 0

/-- a continuation byte -/
def continuation (codepoint : Nat) : UInt8 := UInt8.ofNat ((codepoint ||| 0x80) &&& 0xBF)

/-- the end of `utf16_literal_to_utf8`: the bytes that are written -/
def encodeUtf8 (codepoint : Nat) : Option (List UInt8) :=
  if codepoint < 0x80 then some [UInt8.ofNat (codepoint &&& 0x7F)]
  else if codepoint < 0x800 then some [UInt8.ofNat ((codepoint >>> 6 ||| 0xC0) &&& 0xFF), continuation codepoint]
  else if codepoint < 0x10000 then
    some [UInt8.ofNat ((codepoint >>> 12 ||| 0xE0) &&& 0xFF), continuation (codepoint >>> 6), continuation codepoint]
  else if codepoint ≤ 0x10FFFF then
    some [UInt8.ofNat ((codepoint >>> 18 ||| 0xF0) &&& 0xFF), continuation (codepoint >>> 12),
      continuation (codepoint >>> 6), continuation codepoint]
  else none

/-- `utf16_literal_to_utf8`: the bytes written and the length of the sequence; `input` ends at `input_end` -/
def utf16LiteralToUtf8 (input : List UInt8) : Option (List UInt8 × Nat) :=
  if input.length < 6 then none
  else
    let firstCode := parseHex4 (input.drop 2)
    if 0xDC00 ≤ firstCode ∧ firstCode ≤ 0xDFFF then none
    else if 0xD800 ≤ firstCode ∧ firstCode ≤ 0xDBFF then
      let second := input.drop 6
      if second.length < 6 then none
      else if second.take 2 ≠ [0x5C, 0x75] then none
      else
        let secondCode := parseHex4 (second.drop 2)
        if secondCode < 0xDC00 ∨ 0xDFFF < secondCode then none
        else (encodeUtf8 (0x10000 + ((firstCode &&& 0x3FF) <<< 10 ||| secondCode &&& 0x3FF))).map (·, 12)
    else (encodeUtf8 firstCode).map (·, 6)

/-- the escape sequences of two characters: the second one, and the byte that it stands for -/
def shortEscapes : List (UInt8 × UInt8) :=
  [(0x62, 0x08), (0x66, 0x0C), (0x6E, 0x0A), (0x72, 0x0D), (0x74, 0x09), (0x22, 0x22), (0x5C, 0x5C), (0x2F, 0x2F)]

/-- an escape sequence: the bytes written and `sequence_length`; behind `input` stands the closing quote -/
def escapeSequence (input : List UInt8) : Option (List UInt8 × Nat) :=
  let c := (input.drop 1).headD 0x22
  if c = 0x75 then utf16LiteralToUtf8 input
  else (shortEscapes.lookup c).map fun b => ([b], 2)

/-- the first loop of `parse_string`: the bytes before the closing quote, and `skipped_bytes` -/
def scanString : List UInt8 → Option (Nat × Nat)
  | [] => none
  | c :: rest =>
    if c = 0x22 then some (0, 0)
    else if c = 0x5C then
      match rest with
      | [] => none
      | _ :: rest => (scanString rest).map fun n => (n.1 + 2, n.2 + 1)
    else (scanString rest).map fun n => (n.1 + 1, n.2)

/-- The second loop of `parse_string`: the string, or nothing where an escape sequence is wrong, and the place that has
been reached.  Undefined where more is written than the block holds. -/
def unescape (capacity : Nat) : Nat → List UInt8 → List UInt8 → Nat → Option (Option (List UInt8) × Nat)
  | 0, _, _, _ => none
  | _ + 1, [], output, position =>
    -- the zero byte
    if output.length < capacity then some (some output, position) else none
  | fuel + 1, c :: rest, output, position =>
    if c ≠ 0x5C then
      if output.length < capacity then unescape capacity fuel rest (output ++ [c]) (position + 1) else none
    else
      match escapeSequence (c :: rest) with
      | none => some (none, position)
      | some (bytes, length) =>
        if output.length + bytes.length ≤ capacity then
          unescape capacity fuel ((c :: rest).drop length) (output ++ bytes) (position + length)
        else none

section
variable (granted : Nat → Bool)

/-- `parse_string`: the block and the string in it -/
def parseString : Parser (Option (Addr × List UInt8)) := do
  let first ← deref (·.atOffset 0)
  let start ← read fun b => b.offset + 1
  let input ← read fun b => b.content.drop start
  if first ≠ 0x22 then
    jump start
    pure none
  else
    match scanString input with
    | none =>
      jump start
      pure none
    | some (length, skipped) =>
      let allocationLength := length + 1 - skipped
      match ← allocate granted with
      | none =>
        jump start
        pure none
      | some output =>
        match ← deref fun _ => unescape (allocationLength + 1) (length + 1) (input.take length) [] start with
        | (none, position) =>
          deallocate {output}
          jump position
          pure none
        | (some bytes, _) =>
          jump (start + length + 1)
          pure (some (output, bytes))

end

/-! ## numbers -/

/-- the bytes that `parse_number` copies for `strtod` -/
def isNumberByte (c : UInt8) : Bool :=
  decide (0x30 ≤ c ∧ c ≤ 0x39) || c == 0x2B || c == 0x2D || c == 0x65 || c == 0x45 || c == 0x2E

/-- what is copied: at most 63 bytes -/
def numberText (input : List UInt8) : List UInt8 := (input.take 63).takeWhile isNumberByte

/-- the function of the C library that a number is left to: what it reads and how many bytes of the text it uses -/
structure Strtod (N : Type) where
  run : List UInt8 → N × Nat
  used_le : ∀ text, (run text).2 ≤ text.length
  /-- what is not used makes no difference -/
  run_used : ∀ text, run (text.take (run text).2) = run text

section
variable {N : Type} (strtod : Strtod N)

/-- `parse_number` -/
def parseNumber : Parser (Option N) := do
  let text ← read fun b => numberText (b.content.drop b.offset)
  let (number, used) := strtod.run text
  if used = 0 then pure none
  else
    advance used
    pure (some number)

/-! ## values -/

variable (granted : Nat → Bool)

/-- `parse_array` and `parse_object`: the loop builds the list and says whether it has been closed -/
def parseContainer (isOpening : Parser Bool) (closing : UInt8) (build : Nodes N → Item N)
    (loop : Parser (Nodes N × Bool)) : Parser (Option (Item N)) := do
  let depth ← read (·.depth)
  if nestingLimit ≤ depth then pure none
  else
    enter
    let opening ← isOpening
    if opening then
      advance 1
      bufferSkipWhitespace
      let c ← read (·.atOffset 0)
      if c = some closing then
        leave
        advance 1
        pure (some (build .nil))
      else if c = none then
        stepBack
        pure none
      else
        stepBack
        let (head, closed) ← loop
        if closed then
          leave
          advance 1
          pure (some (build head))
        else
          deallocate head.blocks
          pure none
    else pure none

/-- `parse_array` -/
def parseArray (loop : Parser (Nodes N × Bool)) : Parser (Option (Item N)) :=
  parseContainer (do let c ← deref (·.atOffset 0); pure (c == 0x5B)) 0x5D .array loop

/-- `parse_object` -/
def parseObject (loop : Parser (Nodes N × Bool)) : Parser (Option (Item N)) :=
  parseContainer (read fun b => b.atOffset 0 == some 0x7B) 0x7D .object loop

/-- the end of an iteration of either loop: a comma, and all goes on -/
def anotherNode (closing : UInt8) (node : Addr) (string : Option (Addr × List UInt8)) (item : Item N)
    (loop : Parser (Nodes N × Bool)) : Parser (Nodes N × Bool) := do
  bufferSkipWhitespace
  let c ← read (·.atOffset 0)
  if c = some 0x2C then
    let (next, closed) ← loop
    pure (.cons node string item next, closed)
  else pure (.cons node string item .nil, c == some closing)

def nullText : List UInt8 := [0x6E, 0x75, 0x6C, 0x6C]
def falseText : List UInt8 := [0x66, 0x61, 0x6C, 0x73, 0x65]
def trueText : List UInt8 := [0x74, 0x72, 0x75, 0x65]

mutual

/-- `parse_value` -/
def parseValue : Nat → Parser (Option (Item N))
  | 0 => undefined
  | fuel + 1 => do
    let buffer ← read id
    if buffer.startsWith nullText then
      advance 4
      pure (some .null)
    else if buffer.startsWith falseText then
      advance 5
      pure (some (.bool false))
    else if buffer.startsWith trueText then
      advance 4
      pure (some (.bool true))
    else if buffer.atOffset 0 = some 0x22 then
      let string ← parseString granted
      pure (string.map fun s => .string s.1 s.2)
    else if (buffer.atOffset 0).any fun c => c == 0x2D || decide (0x30 ≤ c ∧ c ≤ 0x39) then
      let number ← parseNumber strtod
      pure (number.map .number)
    else if buffer.atOffset 0 = some 0x5B then parseArray (parseElements fuel)
    else if buffer.atOffset 0 = some 0x7B then parseObject (parseMembers fuel)
    else pure none

/-- the loop of `parse_array` -/
def parseElements : Nat → Parser (Nodes N × Bool)
  | 0 => undefined
  | fuel + 1 => do
    match ← allocate granted with
    | none => pure (.nil, false)
    | some node =>
      advance 1
      bufferSkipWhitespace
      match ← parseValue fuel with
      | none => pure (.cons node none .invalid .nil, false)
      | some item => anotherNode 0x5D node none item (parseElements fuel)

/-- the loop of `parse_object` -/
def parseMembers : Nat → Parser (Nodes N × Bool)
  | 0 => undefined
  | fuel + 1 => do
    match ← allocate granted with
    | none => pure (.nil, false)
    | some node =>
      advance 1
      bufferSkipWhitespace
      match ← parseString granted with
      | none => pure (.cons node none .invalid .nil, false)
      | some name =>
        bufferSkipWhitespace
        let c ← read (·.atOffset 0)
        if c = some 0x3A then
          advance 1
          bufferSkipWhitespace
          match ← parseValue fuel with
          | none => pure (.cons node (some name) .invalid .nil, false)
          | some item => anotherNode 0x7D node (some name) item (parseMembers fuel)
        else pure (.cons node (some name) .invalid .nil, false)

end

/-- `fail:` in `cJSON_ParseWithLengthOpts`: the position of the error -/
def parseFailed (root : Addr) (blocks : Multiset Addr) : Parser (Option (Addr × Item N) × Nat) := do
  deallocate ({root} + blocks)
  let length ← read (·.content.length)
  let position ← read (·.offset)
  pure (none, if position < length then position else length - 1)

/-- `cJSON_ParseWithLengthOpts`: the root with its item, and the offset of `return_parse_end` -/
def parseWithLengthOpts (requireNullTerminated : Bool) : Parser (Option (Addr × Item N) × Nat) := do
  let length ← read (·.content.length)
  let root ← if length = 0 then pure none else allocate granted
  match root with
  | none => pure (none, 0)
  | some root =>
    skipUtf8Bom
    bufferSkipWhitespace
    match ← parseValue strtod granted (2 * length + 2) with
    | none => parseFailed root 0
    | some item =>
      if requireNullTerminated then bufferSkipWhitespace else pure ()
      let position ← read (·.offset)
      let c ← read (·.atOffset 0)
      if requireNullTerminated = true ∧ c ≠ some 0 then parseFailed root item.blocks
      else pure (some (root, item), position)

/-- `cJSON_ParseWithOpts` for the text at `value`, with the memory as it is found -/
def parseWithOpts (requireNullTerminated : Bool) (value : List UInt8) (calls : Nat) (heap : Ledger) :
    Option ((Option (Addr × Item N) × Nat) × ParseBuffer) :=
  parseWithLengthOpts strtod granted requireNullTerminated
    { content := cText value ++ [0], offset := 0, depth := 0, calls := calls, heap := heap }

end

end Cjet.JsonText
