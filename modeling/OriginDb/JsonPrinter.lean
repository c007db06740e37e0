/-
Printing JSON: the printer of `cJSON.c` without its formatting, and the tree that
`serialize_search_results` prints.

The text is built in a buffer that `ensure` makes larger.  A cell of the buffer may not have
been written yet; a write outside the buffer and a `strlen` that leaves it or comes to such a
cell stop with `outside`, so that such an access would be seen.
-/

import OriginDb.JsonParser
import OriginDb.Responses

namespace OriginDb

/-- Why a printer stops: it returns false or NULL, or memory is accessed where it must not be. -/
inductive PrintStop where
  | refused
  | outside
deriving DecidableEq

/-- `printbuffer`; its `length` is the number of the cells. -/
structure PrintBuffer where
  cells : List (Option UInt8)
  offset : Nat

/-- `INT_MAX`. -/
def intMax : Nat := 2147483647

namespace PrintBuffer

/-- A write of some bytes one after the other. -/
def write (buffer : PrintBuffer) (position : Nat) (bytes : List UInt8) :
    Except PrintStop PrintBuffer :=
  if position + bytes.length ≤ buffer.cells.length then
    .ok
      { buffer with
        cells := buffer.cells.take position ++ bytes.map some ++
          buffer.cells.drop (position + bytes.length) }
  else .error .outside

/-- The C string that some cells begin with. -/
def textOf : List (Option UInt8) → Except PrintStop (List UInt8)
  | [] => .error .outside
  | none :: _ => .error .outside
  | some char :: rest => do
      if char = 0 then .ok []
      else
        let text ← textOf rest
        .ok (char :: text)

/-- `update_offset`. -/
def updateOffset (buffer : PrintBuffer) : Except PrintStop PrintBuffer := do
  let text ← textOf (buffer.cells.drop buffer.offset)
  .ok { buffer with offset := buffer.offset + text.length }

end PrintBuffer

section Printer

variable {ν : Type} (reallocate : Nat → Bool)

/-- `realloc` to a larger size; every size is asked for once. -/
def growBuffer (buffer : PrintBuffer) (newsize : Nat) : Except PrintStop PrintBuffer :=
  if reallocate newsize then
    .ok
      { buffer with
        cells := buffer.cells ++ List.replicate (newsize - buffer.cells.length) none }
  else .error .refused

/-- `ensure`: room for `needed` bytes and one more behind the offset. -/
def ensure (needed : Nat) (buffer : PrintBuffer) : Except PrintStop PrintBuffer :=
  if 0 < buffer.cells.length ∧ buffer.cells.length ≤ buffer.offset then .error .refused
  else if intMax < needed then .error .refused
  else
    let needed := needed + (buffer.offset + 1)
    if needed ≤ buffer.cells.length then .ok buffer
    else if intMax / 2 < needed then
      if needed ≤ intMax then growBuffer reallocate buffer intMax else .error .refused
    else growBuffer reallocate buffer (needed * 2)

/-- Bytes at the offset, for which `needed` bytes are reserved. -/
def printBytes (needed : Nat) (bytes : List UInt8) (buffer : PrintBuffer) :
    Except PrintStop PrintBuffer := do
  let buffer ← ensure reallocate needed buffer
  buffer.write buffer.offset bytes

/-- Bytes at the offset, which moves by `length`. -/
def printAndMove (needed : Nat) (bytes : List UInt8) (length : Nat) (buffer : PrintBuffer) :
    Except PrintStop PrintBuffer := do
  let buffer ← printBytes reallocate needed bytes buffer
  .ok { buffer with offset := buffer.offset + length }

/-! ### Numbers -/

/-- `%d`. -/
def intText (value : Int) : List UInt8 :=
  if value < 0 then 45 :: decimalText value.natAbs else decimalText value.natAbs

/-- What `print_number` formats. -/
def numberText (doubles : Doubles ν) (valueInt : Int) (valueDouble : ν) : List UInt8 :=
  if doubles.isFinite valueDouble = false then asciiBytes "null"
  else if doubles.equalsInt valueDouble valueInt then intText valueInt
  else (doubles.format valueDouble).bytes

/-- `print_number`, whose `number_buffer` has 26 bytes. -/
def printNumber (doubles : Doubles ν) (valueInt : Int) (valueDouble : ν) (buffer : PrintBuffer) :
    Except PrintStop PrintBuffer :=
  let text := numberText doubles valueInt valueDouble
  if 25 < text.length then .error .refused
  else printAndMove reallocate (text.length + 1) (text ++ [0]) text.length buffer

/-! ### Strings -/

/-- What the first loop of `print_string_ptr` adds for a character. -/
def extraCharacters (char : UInt8) : Nat :=
  if char ∈ [34, 92, 8, 12, 10, 13, 9] then 1 else if char < 32 then 5 else 0

/-- Written by `sprintf`, which puts a NUL behind it. -/
def isNumbered (char : UInt8) : Bool := char < 32 && !([8, 12, 10, 13, 9].contains char)

/-- The second loop of `print_string_ptr`. -/
def writeEscapes : List UInt8 → Nat → PrintBuffer → Except PrintStop PrintBuffer
  | [], _, buffer => .ok buffer
  | char :: rest, outputPointer, buffer => do
      let written := if isNumbered char then escape char ++ [0] else escape char
      let buffer ← buffer.write outputPointer written
      writeEscapes rest (outputPointer + (escape char).length) buffer

/-- `print_string_ptr`. -/
def printStringPtr (input : CString) (buffer : PrintBuffer) : Except PrintStop PrintBuffer := do
  let escapeCharacters := (input.bytes.map extraCharacters).sum
  let outputLength := input.bytes.length + escapeCharacters
  let buffer ← ensure reallocate (outputLength + 3) buffer
  if escapeCharacters = 0 then
    buffer.write buffer.offset (34 :: (input.bytes ++ [34, 0]))
  else
    let buffer ← buffer.write buffer.offset [34]
    let buffer ← writeEscapes input.bytes (buffer.offset + 1) buffer
    buffer.write (buffer.offset + outputLength + 1) [34, 0]

/-! ### Arrays and objects -/

/-- The loop of `print_array`. -/
def printElements (printItem : Json ν → PrintBuffer → Except PrintStop PrintBuffer) :
    List (Json ν) → PrintBuffer → Except PrintStop PrintBuffer
  | [], buffer => .ok buffer
  | item :: rest, buffer => do
      let buffer ← printItem item buffer
      let buffer ← buffer.updateOffset
      match rest with
      | [] => .ok buffer
      | next :: rest =>
          let buffer ← printAndMove reallocate 2 [44, 0] 1 buffer
          printElements printItem (next :: rest) buffer

/-- The loop of `print_object`. -/
def printMembers (printItem : Json ν → PrintBuffer → Except PrintStop PrintBuffer) :
    List (CString × Json ν) → PrintBuffer → Except PrintStop PrintBuffer
  | [], buffer => .ok buffer
  | (name, item) :: rest, buffer => do
      let buffer ← printStringPtr reallocate name buffer
      let buffer ← buffer.updateOffset
      let buffer ← printAndMove reallocate 1 [58] 1 buffer
      let buffer ← printItem item buffer
      let buffer ← buffer.updateOffset
      match rest with
      | [] => printAndMove reallocate 1 [0] 0 buffer
      | next :: rest =>
          let buffer ← printAndMove reallocate 2 [44, 0] 1 buffer
          printMembers printItem (next :: rest) buffer

/-- `print_array` below the nesting limit. -/
def printArray (printItem : Json ν → PrintBuffer → Except PrintStop PrintBuffer)
    (items : List (Json ν)) (buffer : PrintBuffer) : Except PrintStop PrintBuffer := do
  let buffer ← printAndMove reallocate 1 [91] 1 buffer
  let buffer ← printElements reallocate printItem items buffer
  printBytes reallocate 2 [93, 0] buffer

/-- `print_object` below the nesting limit. -/
def printObject (printItem : Json ν → PrintBuffer → Except PrintStop PrintBuffer)
    (members : List (CString × Json ν)) (buffer : PrintBuffer) :
    Except PrintStop PrintBuffer := do
  let buffer ← printAndMove reallocate 2 [123] 1 buffer
  let buffer ← printMembers reallocate printItem members buffer
  printBytes reallocate 2 [125, 0] buffer

/-! ### Values -/

/-- `print_value`; the number is what `depth` leaves of the nesting limit. -/
def printValue (doubles : Doubles ν) : Nat → Json ν → PrintBuffer → Except PrintStop PrintBuffer
  | _, .null => printBytes reallocate 5 (asciiBytes "null" ++ [0])
  | _, .bool false => printBytes reallocate 6 (asciiBytes "false" ++ [0])
  | _, .bool true => printBytes reallocate 5 (asciiBytes "true" ++ [0])
  | _, .number valueInt valueDouble => printNumber reallocate doubles valueInt valueDouble
  | _, .string valueString => printStringPtr reallocate valueString
  | 0, .array _ => fun _ => .error .refused
  | 0, .object _ => fun _ => .error .refused
  | levels + 1, .array items => printArray reallocate (printValue doubles levels) items
  | levels + 1, .object members => printObject reallocate (printValue doubles levels) members

end Printer

/-- A buffer of this size, with nothing in it. -/
def PrintBuffer.fresh (size : Nat) : PrintBuffer where
  cells := List.replicate size none
  offset := 0

/-- Outcomes of the allocations of `print`. -/
structure PrintMemory where
  allocates : Bool
  reallocate : Nat → Bool
  shrinks : Bool

/-- `cJSON_PrintUnformatted`, which begins with 256 bytes and returns the C string in a block
of its size. -/
def cJSONPrintUnformatted {ν : Type} (doubles : Doubles ν) (memory : PrintMemory) (item : Json ν) :
    Except PrintStop (List UInt8) := do
  if memory.allocates = false then .error .refused
  else
    let buffer ←
      printValue memory.reallocate doubles nestingLimit item (PrintBuffer.fresh 256)
    let buffer ← buffer.updateOffset
    if memory.shrinks then PrintBuffer.textOf (buffer.cells.take (buffer.offset + 1))
    else .error .refused

end OriginDb
