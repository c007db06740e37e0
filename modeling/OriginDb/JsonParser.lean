/-
Reading JSON: the parser of `cJSON.c`.

The parser walks over the bytes of a C string and its NUL with positions into them.  Every
access is checked here, where the source relies on its own tests: a read outside the
content or a write outside the allocated output stops with `outside`, so that such an
access would be seen.  The error position that `cJSON_GetErrorPtr` tells is left out,
nothing asks for it.
-/

import OriginDb.Foundation.JsonText
import OriginDb.Requests

namespace OriginDb

open Foundation

/-- What the C library does with doubles: `strtod` with the number of characters it uses, the
saturating conversion to `int`, the tests of `print_number` and what it writes with `%1.15g` or
`%1.17g`. -/
structure Doubles (ν : Type) where
  strtod : List UInt8 → Option (ν × Nat)
  toInt : ν → Int
  isFinite : ν → Bool
  equalsInt : ν → Int → Bool
  format : ν → CString
  strtod_used : ∀ text value used, strtod text = some (value, used) → 0 < used ∧ used ≤ text.length

/-- Why a parser stops: the text is refused, memory is accessed outside its bounds, or a
loop has not ended within its fuel. -/
inductive ParseStop where
  | refused
  | outside
  | unfinished
deriving DecidableEq

/-- `CJSON_NESTING_LIMIT`. -/
def nestingLimit : Nat := 1000

section Parser

variable {ν α : Type} (content : List UInt8)

def byteAt (index : Nat) : Except ParseStop UInt8 :=
  match content[index]? with
  | some char => .ok char
  | none => .error .outside

/-- `buffer_skip_whitespace`, which steps back from the end. -/
def skipWhitespace (offset : Nat) : Nat :=
  if content.length ≤ offset then offset
  else
    let next := offset + ((content.drop offset).takeWhile fun char => char ≤ 32).length
    if next = content.length then next - 1 else next

/-- `skip_utf8_bom` at the start of the buffer. -/
def skipUtf8Bom : Nat :=
  if 4 < content.length ∧ content.take 3 = [0xEF, 0xBB, 0xBF] then 3 else 0

/-! ### Strings -/

def hexDigitValue (char : UInt8) : Option Nat :=
  if 48 ≤ char ∧ char ≤ 57 then some (char.toNat - 48)
  else if 65 ≤ char ∧ char ≤ 70 then some (10 + char.toNat - 65)
  else if 97 ≤ char ∧ char ≤ 102 then some (10 + char.toNat - 97)
  else none

/-- The loop of `parse_hex4`; anything but a digit makes the whole number 0. -/
def parseHex : Nat → Nat → Nat → Except ParseStop Nat
  | 0, _, code => .ok code
  | more + 1, index, code => do
      let char ← byteAt content index
      match hexDigitValue char with
      | none => .ok 0
      | some digit =>
          parseHex more (index + 1) (if 0 < more then (code + digit) <<< 4 else code + digit)

def parseHex4 (index : Nat) : Except ParseStop Nat := parseHex content 4 index 0

/-- The encoding loop of `utf16_literal_to_utf8`, from the last byte to the second. -/
def utf8Tail : Nat → Nat → List UInt8 → Nat × List UInt8
  | 0, codepoint, output => (codepoint, output)
  | position + 1, codepoint, output =>
      utf8Tail position (codepoint >>> 6)
        (UInt8.ofNat ((codepoint ||| 0x80) &&& 0xBF) :: output)

def utf8Bytes (utf8Length firstByteMark codepoint : Nat) : List UInt8 :=
  let (rest, output) := utf8Tail (utf8Length - 1) codepoint []
  (if 1 < utf8Length then UInt8.ofNat ((rest ||| firstByteMark) &&& 0xFF)
    else UInt8.ofNat (rest &&& 0x7F)) :: output

def utf8OfCodepoint (codepoint : Nat) : Option (List UInt8) :=
  if codepoint < 0x80 then some (utf8Bytes 1 0 codepoint)
  else if codepoint < 0x800 then some (utf8Bytes 2 0xC0 codepoint)
  else if codepoint < 0x10000 then some (utf8Bytes 3 0xE0 codepoint)
  else if codepoint ≤ 0x10FFFF then some (utf8Bytes 4 0xF0 codepoint)
  else none

/-- `utf16_literal_to_utf8`: the bytes and the length of the sequence. -/
def utf16LiteralToUtf8 (inputPointer inputEnd : Nat) : Except ParseStop (List UInt8 × Nat) :=
  if inputEnd - inputPointer < 6 then .error .refused
  else do
    let firstCode ← parseHex4 content (inputPointer + 2)
    if 0xDC00 ≤ firstCode ∧ firstCode ≤ 0xDFFF then .error .refused
    else if 0xD800 ≤ firstCode ∧ firstCode ≤ 0xDBFF then
      let secondSequence := inputPointer + 6
      if inputEnd - secondSequence < 6 then .error .refused
      else if (← byteAt content secondSequence) ≠ 92 then .error .refused
      else if (← byteAt content (secondSequence + 1)) ≠ 117 then .error .refused
      else
        let secondCode ← parseHex4 content (secondSequence + 2)
        if secondCode < 0xDC00 ∨ 0xDFFF < secondCode then .error .refused
        else
          match utf8OfCodepoint
              (0x10000 + (((firstCode &&& 0x3FF) <<< 10) ||| (secondCode &&& 0x3FF))) with
          | none => .error .refused
          | some bytes => .ok (bytes, 12)
    else
      match utf8OfCodepoint firstCode with
      | none => .error .refused
      | some bytes => .ok (bytes, 6)

/-- The escapes of one character. -/
def shortEscape (char : UInt8) : Option UInt8 :=
  if char = 98 then some 8
  else if char = 102 then some 12
  else if char = 110 then some 10
  else if char = 114 then some 13
  else if char = 116 then some 9
  else if char = 34 ∨ char = 92 ∨ char = 47 then some char
  else none

/-- The first loop of `parse_string`, which looks for the end of the string and counts the
backslashes it skips. -/
def scanString : Nat → Nat → Nat → Except ParseStop (Nat × Nat)
  | 0, _, _ => .error .unfinished
  | fuel + 1, inputEnd, skippedBytes =>
      if inputEnd < content.length then do
        let char ← byteAt content inputEnd
        if char = 34 then .ok (inputEnd, skippedBytes)
        else if char = 92 then
          if content.length ≤ inputEnd + 1 then .error .refused
          else scanString fuel (inputEnd + 2) (skippedBytes + 1)
        else scanString fuel (inputEnd + 1) skippedBytes
      else .error .refused

/-- What the loop body of the second loop writes, and how far it goes. -/
def unescapeNext (inputEnd inputPointer : Nat) : Except ParseStop (List UInt8 × Nat) := do
  let char ← byteAt content inputPointer
  if char ≠ 92 then .ok ([char], 1)
  else
    let escape ← byteAt content (inputPointer + 1)
    match shortEscape escape with
    | some char => .ok ([char], 2)
    | none =>
        if escape = 117 then utf16LiteralToUtf8 content inputPointer inputEnd
        else .error .refused

/-- The second loop of `parse_string`; `room` is what is left of the output, whose last
byte is for the NUL. -/
def unescape (inputEnd : Nat) : Nat → Nat → Nat → Except ParseStop (List UInt8)
  | 0, _, _ => .error .unfinished
  | fuel + 1, inputPointer, room =>
      if inputPointer < inputEnd then do
        let (bytes, sequenceLength) ← unescapeNext content inputEnd inputPointer
        if room < bytes.length then .error .outside
        else
          let rest ← unescape inputEnd fuel (inputPointer + sequenceLength) (room - bytes.length)
          .ok (bytes ++ rest)
      else if room = 0 then .error .outside
      else .ok []

/-- `parse_string`: the bytes of the output and the position behind the closing quote. -/
def parseString (offset : Nat) : Except ParseStop (List UInt8 × Nat) := do
  if (← byteAt content offset) ≠ 34 then .error .refused
  else
    let (inputEnd, skippedBytes) ← scanString content (content.length + 1) (offset + 1) 0
    let allocationLength := inputEnd - offset - skippedBytes
    let output ← unescape content inputEnd (inputEnd - offset) (offset + 1) (allocationLength + 1)
    .ok (output, inputEnd + 1)

/-! ### Numbers -/

/-- The characters that `parse_number` copies for `strtod`. -/
def isNumberChar (char : UInt8) : Bool :=
  (48 ≤ char && char ≤ 57) || char == 43 || char == 45 || char == 101 || char == 69 || char == 46

def parseNumber (doubles : Doubles ν) (offset : Nat) : Except ParseStop (Json ν × Nat) :=
  match doubles.strtod ((content.drop offset).takeWhile isNumberChar) with
  | none => .error .refused
  | some (number, used) => .ok (.number (doubles.toInt number) number, offset + used)

/-! ### Arrays and objects -/

/-- The loop over comma-separated parts, each of which is read by `one` from the character
in front of it. -/
def parseSequence (one : Nat → Except ParseStop (α × Nat)) :
    Nat → Nat → Except ParseStop (List α × Nat)
  | 0, _ => .error .unfinished
  | fuel + 1, offset => do
      let (item, next) ← one offset
      if content[next]? = some 44 then
        let (items, last) ← parseSequence one fuel next
        .ok (item :: items, last)
      else .ok ([item], next)

/-- An element with the whitespace around it. -/
def parseElement (parseItem : Nat → Except ParseStop (Json ν × Nat)) (offset : Nat) :
    Except ParseStop (Json ν × Nat) := do
  let (item, next) ← parseItem (skipWhitespace content (offset + 1))
  .ok (item, skipWhitespace content next)

/-- A name, a colon and a value. -/
def parseMember (parseItem : Nat → Except ParseStop (Json ν × Nat)) (offset : Nat) :
    Except ParseStop ((CString × Json ν) × Nat) :=
  if content.length ≤ offset + 1 then .error .refused
  else do
    let (name, named) ← parseString content (skipWhitespace content (offset + 1))
    let colon := skipWhitespace content named
    if content[colon]? ≠ some 58 then .error .refused
    else
      let (value, next) ← parseItem (skipWhitespace content (colon + 1))
      .ok ((CString.ofBytes name, value), skipWhitespace content next)

/-- `parse_array` and `parse_object` below the nesting limit: what stands between the
brackets is nothing or a sequence. -/
def parseBrackets (opening closing : UInt8) (one : Nat → Except ParseStop (α × Nat))
    (offset : Nat) : Except ParseStop (List α × Nat) := do
  if (← byteAt content offset) ≠ opening then .error .refused
  else
    let start := skipWhitespace content (offset + 1)
    if content[start]? = some closing then .ok ([], start + 1)
    else if content.length ≤ start then .error .refused
    else
      let (items, last) ← parseSequence content one (content.length + 1) (start - 1)
      if content[last]? ≠ some closing then .error .refused
      else .ok (items, last + 1)

def parseArray (parseItem : Nat → Except ParseStop (Json ν × Nat)) (offset : Nat) :
    Except ParseStop (Json ν × Nat) := do
  let (items, next) ← parseBrackets content 91 93 (parseElement content parseItem) offset
  .ok (.array items, next)

def parseObject (parseItem : Nat → Except ParseStop (Json ν × Nat)) (offset : Nat) :
    Except ParseStop (Json ν × Nat) := do
  let (members, next) ← parseBrackets content 123 125 (parseMember content parseItem) offset
  .ok (.object members, next)

/-! ### Values -/

/-- The tests of `parse_value` in their order. -/
def parseValueWith (doubles : Doubles ν)
    (parseArray parseObject : Nat → Except ParseStop (Json ν × Nat)) (offset : Nat) :
    Except ParseStop (Json ν × Nat) :=
  if (content.drop offset).take 4 = asciiBytes "null" then .ok (.null, offset + 4)
  else if (content.drop offset).take 5 = asciiBytes "false" then .ok (.bool false, offset + 5)
  else if (content.drop offset).take 4 = asciiBytes "true" then .ok (.bool true, offset + 4)
  else
    match content[offset]? with
    | none => .error .refused
    | some char =>
        if char = 34 then do
          let (text, next) ← parseString content offset
          .ok (.string (CString.ofBytes text), next)
        else if char = 45 ∨ 48 ≤ char ∧ char ≤ 57 then parseNumber content doubles offset
        else if char = 91 then parseArray offset
        else if char = 123 then parseObject offset
        else .error .refused

/-- `parse_value`; the number is what `depth` leaves of the nesting limit. -/
def parseValue (doubles : Doubles ν) : Nat → Nat → Except ParseStop (Json ν × Nat)
  | 0, offset =>
      parseValueWith content doubles (fun _ => .error .refused) (fun _ => .error .refused) offset
  | levels + 1, offset =>
      parseValueWith content doubles (parseArray content (parseValue doubles levels))
        (parseObject content (parseValue doubles levels)) offset

end Parser

/-- `cJSON_Parse`, which does not look at what follows the value. -/
def cJSONParse {ν : Type} (doubles : Doubles ν) (value : CString) : Except ParseStop (Json ν) := do
  let content := value.bytes ++ [0]
  let (item, _) ←
    parseValue content doubles nestingLimit (skipWhitespace content (skipUtf8Bom content))
  .ok item

end OriginDb
