import Cjet.Lib.Bytes

/-!
# The UTF-8 checker (`utf8_checker.c`)

The checker gets a text byte by byte and remembers the character that it is in.

* `isByteValid`              one byte;
* `isTextValid`, `isByteSequenceValid`   texts, in one piece or in several;
* `isWordSequenceValid`, `isWord64SequenceValid`, `isWordSequenceValidAutoAlligned`
                             the same by words: between two characters some words are accepted at once.

A word is loaded with its least significant byte first.
-/

set_option linter.unusedVariables false

namespace Cjet
open Stateful

namespace Utf8

/-- `UC_FINISH` -/
def UC_FINISH : UInt8 := 0xFF

/-- `struct cjet_utf8_checker` -/
structure Checker where
  startByte : UInt8
  length : UInt8
  nextByte : UInt8
  deriving DecidableEq

/-- `cjet_init_checker` -/
def initChecker : Checker := ⟨UC_FINISH, 1, 1⟩

/-- the first byte of a character: is it valid, is the character finished, and how long is it otherwise? -/
def startOf (byte : UInt8) (length : UInt8) : Bool × Bool × UInt8 :=
  if byte ≤ 0x7F then (true, true, length)
  else if byte ≤ 0xC1 then (false, false, length)
  else if byte ≤ 0xDF then (true, false, 2)
  else if byte ≤ 0xEF then (true, false, 3)
  else if byte ≤ 0xF4 then (true, false, 4)
  else (false, false, length)

/-- the second byte after some first bytes -/
def secondOf (startByte byte : UInt8) : Bool :=
  if startByte = 0xE0 then !(byte < 0xA0 || byte > 0xBF)
  else if startByte = 0xED then !(byte < 0x80 || byte > 0x9F)
  else if startByte = 0xF0 then !(byte < 0x90 || byte > 0xBF)
  else if startByte = 0xF4 then !(byte < 0x80 || byte > 0x8F)
  else true

def isContinuation (byte : UInt8) : Bool := byte &&& 0xC0 == 0x80

/-- the cases of `is_byte_valid`: valid, finished, and the checker with what the first byte says -/
def judge (c : Checker) (byte : UInt8) : Bool × Bool × Checker :=
  if c.nextByte = 1 then
    let (ret, finished, length) := startOf byte c.length
    (ret, finished, { c with startByte := byte, length := length })
  else if c.nextByte = 2 then (isContinuation byte && secondOf c.startByte byte, c.length == 2, c)
  else if c.nextByte = 3 then (isContinuation byte, !isContinuation byte || c.length == 3, c)
  else if c.nextByte = 4 then (isContinuation byte, true, c)
  else (false, false, c)

/-- `is_byte_valid` -/
def isByteValid (c : Checker) (byte : UInt8) : Bool × Checker :=
  let (ret, finished, c) := judge c byte
  (ret, if finished || !ret then initChecker else { c with nextByte := c.nextByte + 1 })

/-- the loop of `cjet_is_text_valid` and `cjet_is_byte_sequence_valid` -/
def areBytesValid : Checker → List UInt8 → Bool × Checker
  | c, [] => (true, c)
  | c, byte :: bytes =>
    match isByteValid c byte with
    | (true, c) => areBytesValid c bytes
    | (false, c) => (false, c)

/-- `cjet_is_byte_sequence_valid` -/
def isByteSequenceValid (c : Checker) (sequence : List UInt8) (isComplete : Bool) : Bool × Checker :=
  match areBytesValid c sequence with
  | (false, c) => (false, c)
  | (true, c) => if isComplete && c.startByte != UC_FINISH then (false, initChecker) else (true, c)

/-- `cjet_is_text_valid` -/
def isTextValid (c : Checker) (text : List UInt8) (isComplete : Bool) : Bool × Checker :=
  match areBytesValid c text with
  | (false, c) => (false, c)
  | (true, c) => if isComplete && c.startByte != UC_FINISH then (false, c) else (true, c)

/-- `ö` and half of it -/
example : (isByteSequenceValid initChecker [0xC3, 0xB6] true).1 = true ∧
    (isByteSequenceValid initChecker [0xC3] true).1 = false := by decide

/-! ## words -/

def FAST_ZONE1 : UInt32 := 0x80808080
def FAST_ZONE21 : UInt32 := 0x8080C0E0
def FAST_ZONE22 : UInt32 := 0x80C0E080
def FAST_ZONE23 : UInt32 := 0xC0E08080
def FAST_ZONE24 : UInt32 := 0xC0E0C0E0
def FAST_ZONE1_64 : UInt64 := 0x8080808080808080
def FAST_ZONE2_64 : UInt64 := 0xC0E0C0E0C0E0C0E0

/-- the words that `cjet_is_word_sequence_valid` passes over -/
def isFastWord (tmp : UInt32) : Bool :=
  tmp &&& FAST_ZONE1 == 0
    || (tmp &&& FAST_ZONE21 == 0x80C0 && decide (tmp &&& 0x1F > 0x01))
    || (tmp &&& FAST_ZONE22 == 0x80C000 && decide (tmp &&& 0x1F00 > 0x0100))
    || (tmp &&& FAST_ZONE23 == 0x80C00000 && decide (tmp &&& 0x1F0000 > 0x010000))
    || (tmp &&& FAST_ZONE24 == 0x80C080C0 && decide (tmp &&& 0x1F001F > 0x010001))

/-- the words that `cjet_is_word64_sequence_valid` passes over -/
def isFastWord64 (tmp : UInt64) : Bool :=
  tmp &&& FAST_ZONE1_64 == 0
    || (tmp &&& FAST_ZONE2_64 == 0x80C080C080C080C0 && decide (tmp &&& 0x001F001F001F001F > 0x0001000100010001))

/-- the bytes `tmp >> j * 8` of a word -/
def wordBytes (tmp : UInt32) : List UInt8 := bytesLE 4 tmp.toNat
def word64Bytes (tmp : UInt64) : List UInt8 := bytesLE 8 tmp.toNat

/-- the loop of `cjet_is_word_sequence_valid` and `cjet_is_word64_sequence_valid` -/
def areWordsValid {W : Type} (isFast : W → Bool) (bytes : W → List UInt8) : Checker → List W → Bool × Checker
  | c, [] => (true, c)
  | c, tmp :: sequence =>
    if c.nextByte == 1 && isFast tmp then areWordsValid isFast bytes c sequence
    else
      match areBytesValid c (bytes tmp) with
      | (true, c) => areWordsValid isFast bytes c sequence
      | (false, c) => (false, c)

/-- `cjet_is_word_sequence_valid` and `cjet_is_word64_sequence_valid` -/
def isSequenceValidWith {W : Type} (isFast : W → Bool) (bytes : W → List UInt8) (c : Checker) (sequence : List W)
    (isComplete : Bool) : Bool × Checker :=
  match areWordsValid isFast bytes c sequence with
  | (false, c) => (false, c)
  | (true, c) => if isComplete && c.startByte != UC_FINISH then (false, initChecker) else (true, c)

def isWordSequenceValid := isSequenceValidWith isFastWord wordBytes
def isWord64SequenceValid := isSequenceValidWith isFastWord64 word64Bytes

/-- the words at an aligned address -/
def loadWords : (mainLength : Nat) → List UInt8 → List UInt32
  | 0, _ => []
  | mainLength + 1, bytes => UInt32.ofNat (natLE (bytes.take 4)) :: loadWords mainLength (bytes.drop 4)

def loadWords64 : (mainLength : Nat) → List UInt8 → List UInt64
  | 0, _ => []
  | mainLength + 1, bytes => UInt64.ofNat (natLE (bytes.take 8)) :: loadWords64 mainLength (bytes.drop 8)

/-- the bytes before the first aligned address; a whole word of them where the sequence is aligned -/
def preLength (bytewidth address : Nat) : Nat := bytewidth - address % bytewidth

/-- `case 8` and `case 4`: bytes, words, bytes.  Each part is checked, whatever the parts before it gave. -/
def checkAlligned {W : Type} (bytewidth : Nat) (check : Checker → List W → Bool → Bool × Checker)
    (load : Nat → List UInt8 → List W) (c : Checker) (address : Nat) (sequence : List UInt8) : Bool × Checker :=
  let pre := preLength bytewidth address
  let mainLength := (sequence.length - pre) / bytewidth
  let (ret1, c) := isByteSequenceValid c (sequence.take pre) false
  let (ret2, c) := check c (load mainLength (sequence.drop pre)) false
  let (ret3, c) := isByteSequenceValid c (sequence.drop (pre + mainLength * bytewidth)) false
  (ret1 && ret2 && ret3, c)

/-- `cjet_is_word_sequence_valid_auto_alligned`; `fastSize` is the size of `uint_fast16_t`, the sequence is at
`address` -/
def isWordSequenceValidAutoAlligned (fastSize : Nat) (c : Checker) (address : Nat) (sequence : List UInt8)
    (isComplete : Bool) : Bool × Checker :=
  let bytewidth := if sequence.length < 8 then 1 else fastSize
  let (ret, c) :=
    if bytewidth = 8 then checkAlligned 8 isWord64SequenceValid loadWords64 c address sequence
    else if bytewidth = 4 then checkAlligned 4 isWordSequenceValid loadWords c address sequence
    else isByteSequenceValid c sequence isComplete
  if isComplete && c.startByte != UC_FINISH then (false, initChecker) else (ret, c)

end Utf8
end Cjet
