/-
The parser reads JSON.

Every JSON text of at most 1000 levels is read as the tree it denotes, whatever follows it.
The text is followed byte by byte: what is left of the content at a position is given as a
list, and each reader returns the position behind what it has read.
-/

import Mathlib.Tactic.IntervalCases
import OriginDb.Connection
import OriginDb.JsonBounds

namespace OriginDb

open Foundation

/-- The trees of cJSON; names and strings end at their first NUL. -/
def treeBuilder {ν : Type} (doubles : Doubles ν) : JsonText.Builder (Json ν) ν where
  null := .null
  bool := .bool
  number := fun value => .number (doubles.toInt value) value
  string := fun bytes => .string (CString.ofBytes bytes)
  array := .array
  object := fun members =>
    .object (members.map fun member => (CString.ofBytes member.1, member.2))

section Content

variable {content : List UInt8}

/-! ### Positions -/

theorem getElem?_of_drop {offset : Nat} {char : UInt8} {rest : List UInt8}
    (left : content.drop offset = char :: rest) : content[offset]? = some char := by
  have first := congrArg List.head? left
  rw [List.head?_drop] at first
  exact first

theorem drop_behind {offset : Nat} {text rest : List UInt8}
    (left : content.drop offset = text ++ rest) : content.drop (offset + text.length) = rest := by
  rw [← List.drop_drop, left, List.drop_left]

theorem drop_next {offset : Nat} {char : UInt8} {rest : List UInt8}
    (left : content.drop offset = char :: rest) : content.drop (offset + 1) = rest := by
  rw [← List.tail_drop, left, List.tail_cons]

theorem byteAt_of_drop {offset : Nat} {char : UInt8} {rest : List UInt8}
    (left : content.drop offset = char :: rest) : byteAt content offset = .ok char := by
  rw [byteAt, getElem?_of_drop left]

theorem length_of_drop {offset : Nat} {char : UInt8} {rest : List UInt8}
    (left : content.drop offset = char :: rest) :
    content.length = offset + (rest.length + 1) := by
  have lengthEq := congrArg List.length left
  rw [List.length_drop, List.length_cons] at lengthEq
  omega

theorem skipWhitespace_spaces {offset : Nat} {spaces rest : List UInt8} {char : UInt8}
    (left : content.drop offset = spaces ++ char :: rest) (areSpaces : JsonText.Spaces spaces)
    (visible : 32 < char) : skipWhitespace content offset = offset + spaces.length := by
  have inside := length_of_drop (drop_behind left)
  have skipped : (content.drop offset).takeWhile (fun char => decide (char ≤ 32)) = spaces := by
    have blank : ∀ char ∈ spaces, decide (char ≤ 32) = true := by
      intro space member
      rcases areSpaces space member with rfl | rfl | rfl | rfl <;> rfl
    rw [left, List.takeWhile_append_of_pos blank,
      List.takeWhile_cons_of_neg (by simpa using visible), List.append_nil]
  unfold skipWhitespace
  rw [if_neg (by omega), skipped]
  dsimp only
  rw [if_neg (by omega)]

/-! ### Hexadecimal digits -/

theorem hexDigitValue_digit {char : UInt8} {value : Nat} (digit : JsonText.HexDigit char value) :
    hexDigitValue char = some value := by
  cases digit with
  | decimal value small => interval_cases value <;> rfl
  | upper value small => interval_cases value <;> rfl
  | lower value small => interval_cases value <;> rfl

theorem parseHex_digit {more index code value : Nat} {char : UInt8} {rest : List UInt8}
    (left : content.drop index = char :: rest) (digit : JsonText.HexDigit char value) :
    parseHex content (more + 1) index code =
      parseHex content more (index + 1)
        (if 0 < more then (code + value) * 16 else code + value) := by
  rw [parseHex, byteAt_of_drop left, Outcome.ok_bind, hexDigitValue_digit digit]
  dsimp only
  rw [Nat.shiftLeft_eq]

theorem parseHex4_digits {index code : Nat} {digits rest : List UInt8}
    (hex : JsonText.Hex4 digits code) (left : content.drop index = digits ++ rest) :
    parseHex4 content index = .ok code := by
  cases hex with
  | digits firstDigit secondDigit thirdDigit fourthDigit =>
      have second := drop_next left
      have third := drop_next second
      have fourth := drop_next third
      rw [parseHex4, parseHex_digit left firstDigit, parseHex_digit second secondDigit,
        parseHex_digit third thirdDigit, parseHex_digit fourth fourthDigit]
      simp [parseHex]

theorem HexDigit.lt {char : UInt8} {value : Nat} (digit : JsonText.HexDigit char value) :
    value < 16 := by
  cases digit <;> omega

theorem Hex4.length {digits : List UInt8} {code : Nat} (hex : JsonText.Hex4 digits code) :
    digits.length = 4 := by
  cases hex
  rfl

theorem Hex4.lt {digits : List UInt8} {code : Nat} (hex : JsonText.Hex4 digits code) :
    code < 0x10000 := by
  cases hex with
  | digits firstDigit secondDigit thirdDigit fourthDigit =>
      have first := HexDigit.lt firstDigit
      have second := HexDigit.lt secondDigit
      have third := HexDigit.lt thirdDigit
      have fourth := HexDigit.lt fourthDigit
      omega

/-- No digit is a quote or a backslash. -/
theorem Hex4.plain {digits : List UInt8} {code : Nat} (hex : JsonText.Hex4 digits code) :
    ∀ char ∈ digits, char ≠ 34 ∧ char ≠ 92 := by
  have plain : ∀ {char : UInt8} {value : Nat}, JsonText.HexDigit char value →
      char ≠ 34 ∧ char ≠ 92 := by
    intro char value digit
    have known := hexDigitValue_digit digit
    constructor
    · rintro rfl
      cases known
    · rintro rfl
      cases known
  cases hex with
  | digits firstDigit secondDigit thirdDigit fourthDigit =>
      intro char member
      simp only [List.mem_cons, List.not_mem_nil, or_false] at member
      rcases member with rfl | rfl | rfl | rfl
      · exact plain firstDigit
      · exact plain secondDigit
      · exact plain thirdDigit
      · exact plain fourthDigit

/-! ### UTF-8 -/

theorem continuation_byte (code : Nat) : (code ||| 0x80) &&& 0xBF = code % 0x40 + 0x80 := by
  have narrow : ∀ small < 256, (small ||| 0x80) &&& 0xBF = small % 0x40 + 0x80 := by
    decide +kernel
  have below : (code ||| 0x80) &&& 0xBF < 2 ^ 8 := by
    exact Nat.lt_of_le_of_lt Nat.and_le_right (by decide)
  rw [← Nat.mod_eq_of_lt below, Nat.and_mod_two_pow, Nat.or_mod_two_pow,
    show 0x80 % 2 ^ 8 = 0x80 from rfl, show 0xBF % 2 ^ 8 = 0xBF from rfl,
    narrow _ (Nat.mod_lt _ (by decide))]
  omega

theorem first_byte {code mark : Nat} (bits : Nat) (disjoint : mark % 2 ^ bits = 0) (small : code < 2 ^ bits)
    (byte : mark < 256) (fits : bits ≤ 8) : (code ||| mark) &&& 0xFF = code + mark := by
  obtain ⟨high, markEq⟩ := Nat.dvd_of_mod_eq_zero disjoint
  have sum : code ||| mark = code + mark := by
    rw [Nat.or_comm, markEq, Nat.mul_comm, ← Nat.shiftLeft_eq,
      ← Nat.shiftLeft_add_eq_or_of_lt small, Nat.add_comm]
  have below : code + mark < 256 := by
    rw [← sum]
    exact Nat.or_lt_two_pow (n := 8) (Nat.lt_of_lt_of_le small (Nat.pow_le_pow_right (by decide) fits)) byte
  rw [sum, show 0xFF = 2 ^ 8 - 1 from rfl, Nat.and_two_pow_sub_one_eq_mod, Nat.mod_eq_of_lt below]

theorem ofNat_toNat {code : Nat} (valid : code.isValidChar) : (Char.ofNat code).val.toNat = code := by
  rw [Char.ofNat, dif_pos valid]
  rfl

theorem utf8Tail_succ (position code : Nat) (output : List UInt8) :
    utf8Tail (position + 1) code output =
      utf8Tail position (code / 64) (UInt8.ofNat (code % 0x40 + 0x80) :: output) := by
  rw [utf8Tail, continuation_byte, Nat.shiftRight_eq_div_pow]

theorem utf8OfCodepoint_eq {code : Nat} (valid : code.isValidChar) :
    utf8OfCodepoint code = some (JsonText.utf8 code) := by
  have within : code < 0x110000 := by
    rcases valid with low | high
    · omega
    · exact high.2
  unfold utf8OfCodepoint JsonText.utf8 String.utf8EncodeChar utf8Bytes
  rw [ofNat_toNat valid]
  dsimp only
  by_cases one : code ≤ 0x7F
  · rw [if_pos (show code < 0x80 by omega), if_pos one]
    change some [UInt8.ofNat (code &&& 0x7F)] = _
    rw [show 0x7F = 2 ^ 7 - 1 from rfl, Nat.and_two_pow_sub_one_eq_mod,
      Nat.mod_eq_of_lt (show code < 2 ^ 7 by omega)]
  rw [if_neg (show ¬code < 0x80 by omega), if_neg one]
  by_cases two : code ≤ 0x7FF
  · rw [if_pos (show code < 0x800 by omega), if_pos two, if_pos (by decide)]
    rw [utf8Tail_succ, utf8Tail]
    dsimp only
    rw [first_byte 5 rfl (by omega) (by decide) (by decide),
      Nat.mod_eq_of_lt (show code / 64 < 0x20 by omega)]
  rw [if_neg (show ¬code < 0x800 by omega), if_neg two]
  by_cases three : code ≤ 0xFFFF
  · rw [if_pos (show code < 0x10000 by omega), if_pos three, if_pos (by decide)]
    rw [utf8Tail_succ, utf8Tail_succ, utf8Tail]
    simp only [Nat.div_div_eq_div_mul]
    rw [first_byte 4 rfl (by omega) (by decide) (by decide),
      Nat.mod_eq_of_lt (show code / 4096 < 0x10 by omega)]
  · rw [if_neg (show ¬code < 0x10000 by omega), if_neg three, if_pos (by omega), if_pos (by decide)]
    rw [utf8Tail_succ, utf8Tail_succ, utf8Tail_succ, utf8Tail]
    simp only [Nat.div_div_eq_div_mul]
    rw [first_byte 3 rfl (by omega) (by decide) (by decide),
      Nat.mod_eq_of_lt (show code / 262144 < 0x08 by omega)]

theorem utf8_length {code : Nat} (valid : code.isValidChar) :
    (JsonText.utf8 code).length ≤ 4 :=
  (utf8OfCodepoint_length (utf8OfCodepoint_eq valid)).1

/-- The bits of two surrogates are put together by `|`, which adds here. -/
theorem pairCode_eq {high low : Nat} (isHigh : JsonText.HighSurrogate high)
    (isLow : JsonText.LowSurrogate low) :
    0x10000 + (((high &&& 0x3FF) <<< 10) ||| (low &&& 0x3FF)) = JsonText.pairCode high low := by
  obtain ⟨highFrom, highTo⟩ := isHigh
  obtain ⟨lowFrom, lowTo⟩ := isLow
  have masked : ∀ code, code &&& 0x3FF = code % 0x400 :=
    fun code => Nat.and_two_pow_sub_one_eq_mod code 10
  have joined : ∀ left, ∀ right < 0x400, left <<< 10 ||| right = left * 0x400 + right := by
    intro left right below
    rw [← Nat.shiftLeft_add_eq_or_of_lt below, Nat.shiftLeft_eq]
  have highBits : high % 0x400 = high - 0xD800 := by omega
  have lowBits : low % 0x400 = low - 0xDC00 := by omega
  rw [masked, masked, highBits, lowBits, joined _ _ (by omega)]
  exact (Nat.add_assoc _ _ _).symm

theorem pairCode_valid {high low : Nat} (isHigh : JsonText.HighSurrogate high)
    (isLow : JsonText.LowSurrogate low) : (JsonText.pairCode high low).isValidChar := by
  obtain ⟨highFrom, highTo⟩ := isHigh
  obtain ⟨lowFrom, lowTo⟩ := isLow
  right
  unfold JsonText.pairCode
  omega

theorem valid_of_hex4 {digits : List UInt8} {code : Nat} (hex : JsonText.Hex4 digits code)
    (notHigh : ¬JsonText.HighSurrogate code) (notLow : ¬JsonText.LowSurrogate code) :
    code.isValidChar := by
  have below := Hex4.lt hex
  unfold JsonText.HighSurrogate at notHigh
  unfold JsonText.LowSurrogate at notLow
  by_cases low : code < 0xD800
  · exact Or.inl low
  · right
    omega

/-! ### Strings -/

theorem shortEscape_known {escape char : UInt8}
    (known : (escape, char) ∈ JsonText.shortEscapes) :
    shortEscape escape = some char := by
  simp only [JsonText.shortEscapes, List.mem_cons, List.not_mem_nil, or_false,
    Prod.mk.injEq] at known
  rcases known with ⟨rfl, rfl⟩ | ⟨rfl, rfl⟩ | ⟨rfl, rfl⟩ | ⟨rfl, rfl⟩ | ⟨rfl, rfl⟩ | ⟨rfl, rfl⟩ |
    ⟨rfl, rfl⟩ | ⟨rfl, rfl⟩ <;> rfl

theorem tokens_append_plain {plain : List UInt8} (areCharacters : ∀ char ∈ plain, char ≠ 92)
    (rest : List UInt8) : tokens (plain ++ rest) = plain.length + tokens rest := by
  induction plain with
  | nil => exact (Nat.zero_add _).symm
  | cons char plain ih =>
      rw [List.cons_append, tokens_plain (areCharacters char List.mem_cons_self),
        ih fun later member => areCharacters later (List.mem_cons_of_mem _ member),
        List.length_cons]
      omega

theorem tokens_unicode {digits : List UInt8} {code : Nat} (hex : JsonText.Hex4 digits code)
    (rest : List UInt8) : tokens (92 :: 117 :: (digits ++ rest)) = 5 + tokens rest := by
  rw [tokens_escape, tokens_append_plain fun char member => (Hex4.plain hex char member).2,
    Hex4.length hex]
  omega

/-- A string is no longer than its characters and escapes are many. -/
theorem StringBody.length_le {text bytes : List UInt8} (spelled : JsonText.StringBody text bytes) :
    bytes.length ≤ tokens text := by
  induction spelled with
  | nil => exact Nat.le_refl _
  | plain _ _ notBackslash _ ih =>
      rw [tokens_plain notBackslash, List.length_cons]
      omega
  | short _ _ ih =>
      rw [tokens_escape, List.length_cons]
      omega
  | unicode hex notHigh notLow _ ih =>
      have few := utf8_length (valid_of_hex4 hex notHigh notLow)
      rw [tokens_unicode hex, List.length_append]
      omega
  | pair highHex isHigh lowHex isLow _ ih =>
      have few := utf8_length (pairCode_valid isHigh isLow)
      rw [tokens_unicode highHex, tokens_unicode lowHex, List.length_append]
      omega

/-- The first loop gets from one position to another. -/
def ScansTo (content : List UInt8) (offset next : Nat) : Prop :=
  ∀ fuel skipped, content.length < offset + fuel → ∃ less count, content.length < next + less ∧
    scanString content fuel offset skipped = scanString content less next count

theorem ScansTo.refl (offset : Nat) : ScansTo content offset offset :=
  fun fuel skipped enough => ⟨fuel, skipped, enough, rfl⟩

theorem ScansTo.trans {offset middle next : Nat} (first : ScansTo content offset middle)
    (second : ScansTo content middle next) : ScansTo content offset next := by
  intro fuel skipped enough
  obtain ⟨less, count, stillEnough, toMiddle⟩ := first fuel skipped enough
  obtain ⟨last, total, left, toNext⟩ := second less count stillEnough
  exact ⟨last, total, left, toMiddle.trans toNext⟩

theorem scansTo_char {offset : Nat} {char : UInt8} {rest : List UInt8} (notQuote : char ≠ 34)
    (notBackslash : char ≠ 92) (left : content.drop offset = char :: rest) :
    ScansTo content offset (offset + 1) := by
  intro fuel skipped enough
  have inside := length_of_drop left
  obtain ⟨fuel, rfl⟩ := Nat.exists_eq_add_one.mpr (show 0 < fuel by omega)
  refine ⟨fuel, skipped, by omega, ?_⟩
  rw [scanString, if_pos (by omega), byteAt_of_drop left, Outcome.ok_bind, if_neg notQuote,
    if_neg notBackslash]

theorem scansTo_escape {offset : Nat} {escape : UInt8} {rest : List UInt8}
    (left : content.drop offset = 92 :: escape :: rest) :
    ScansTo content offset (offset + 2) := by
  intro fuel skipped enough
  have inside := length_of_drop left
  rw [List.length_cons] at inside
  obtain ⟨fuel, rfl⟩ := Nat.exists_eq_add_one.mpr (show 0 < fuel by omega)
  refine ⟨fuel, skipped + 1, by omega, ?_⟩
  rw [scanString, if_pos (by omega), byteAt_of_drop left, Outcome.ok_bind, if_neg (by decide),
    if_pos rfl, if_neg (by omega)]

theorem scansTo_plain {offset : Nat} {plain rest : List UInt8}
    (areCharacters : ∀ char ∈ plain, char ≠ 34 ∧ char ≠ 92)
    (left : content.drop offset = plain ++ rest) :
    ScansTo content offset (offset + plain.length) := by
  induction plain generalizing offset with
  | nil => exact ScansTo.refl offset
  | cons char plain ih =>
      obtain ⟨notQuote, notBackslash⟩ := areCharacters char List.mem_cons_self
      have later := ih (fun next member => areCharacters next (List.mem_cons_of_mem _ member))
        (drop_next left)
      rw [List.length_cons, Nat.add_comm plain.length, ← Nat.add_assoc]
      exact (scansTo_char notQuote notBackslash left).trans later

theorem scansTo_unicode {offset code : Nat} {digits rest : List UInt8}
    (hex : JsonText.Hex4 digits code) (left : content.drop offset = 92 :: 117 :: (digits ++ rest)) :
    ScansTo content offset (offset + 6) ∧ content.drop (offset + 6) = rest := by
  have behind := drop_next (drop_next left)
  have digitsTo := scansTo_plain (Hex4.plain hex) behind
  have rest := drop_behind behind
  rw [Hex4.length hex] at digitsTo rest
  exact ⟨(scansTo_escape left).trans digitsTo, rest⟩

theorem scansTo_body {offset : Nat} {text bytes rest : List UInt8}
    (spelled : JsonText.StringBody text bytes) (left : content.drop offset = text ++ rest) :
    ScansTo content offset (offset + text.length) := by
  induction spelled generalizing offset with
  | nil => exact ScansTo.refl offset
  | plain _ notQuote notBackslash _ ih =>
      have later := ih (drop_next left)
      rw [List.length_cons, Nat.add_comm _ 1, ← Nat.add_assoc]
      exact (scansTo_char notQuote notBackslash left).trans later
  | short _ _ ih =>
      have later := ih (drop_next (drop_next left))
      rw [List.length_cons, List.length_cons, Nat.add_assoc _ 1, Nat.add_comm _ (1 + 1),
        ← Nat.add_assoc]
      exact (scansTo_escape left).trans later
  | unicode hex _ _ _ ih =>
      simp only [List.cons_append, List.append_assoc] at left
      obtain ⟨first, behind⟩ := scansTo_unicode hex left
      have later := ih behind
      simp only [List.length_cons, List.length_append, Hex4.length hex]
      rw [show ∀ count, offset + (4 + count + 1 + 1) = offset + 6 + count by omega]
      exact first.trans later
  | pair highHex _ lowHex _ _ ih =>
      simp only [List.cons_append, List.append_assoc] at left
      obtain ⟨first, between⟩ := scansTo_unicode highHex left
      obtain ⟨second, behind⟩ := scansTo_unicode lowHex between
      have later := ih behind
      simp only [List.length_cons, List.length_append, Hex4.length highHex, Hex4.length lowHex]
      rw [show ∀ count, offset + (4 + (4 + count + 1 + 1) + 1 + 1) = offset + 6 + 6 + count by
        omega]
      exact (first.trans second).trans later

theorem scanString_body {fuel offset : Nat} {text bytes rest : List UInt8}
    (spelled : JsonText.StringBody text bytes) (enough : content.length < offset + fuel)
    (left : content.drop offset = text ++ 34 :: rest) :
    ∃ count, scanString content fuel offset 0 = .ok (offset + text.length, count) := by
  obtain ⟨less, count, stillEnough, scanned⟩ := scansTo_body spelled left fuel 0 enough
  have behind := drop_behind left
  have inside := length_of_drop behind
  obtain ⟨less, rfl⟩ := Nat.exists_eq_add_one.mpr (show 0 < less by omega)
  refine ⟨count, ?_⟩
  rw [scanned, scanString, if_pos (by omega), byteAt_of_drop behind, Outcome.ok_bind, if_pos rfl]

section Unescape

variable {inputPointer inputEnd : Nat}

theorem utf16LiteralToUtf8_unicode {digits rest : List UInt8} {code : Nat}
    (hex : JsonText.Hex4 digits code) (notHigh : ¬JsonText.HighSurrogate code)
    (notLow : ¬JsonText.LowSurrogate code) (long : inputPointer + 6 ≤ inputEnd)
    (left : content.drop inputPointer = 92 :: 117 :: (digits ++ rest)) :
    utf16LiteralToUtf8 content inputPointer inputEnd = .ok (JsonText.utf8 code, 6) := by
  unfold JsonText.HighSurrogate at notHigh
  unfold JsonText.LowSurrogate at notLow
  rw [utf16LiteralToUtf8, if_neg (by omega), parseHex4_digits hex (drop_next (drop_next left)),
    Outcome.ok_bind, if_neg (by omega), if_neg (by omega),
    utf8OfCodepoint_eq (valid_of_hex4 hex notHigh notLow)]

theorem utf16LiteralToUtf8_pair {highDigits lowDigits rest : List UInt8} {high low : Nat}
    (highHex : JsonText.Hex4 highDigits high) (isHigh : JsonText.HighSurrogate high)
    (lowHex : JsonText.Hex4 lowDigits low) (isLow : JsonText.LowSurrogate low)
    (long : inputPointer + 12 ≤ inputEnd)
    (left : content.drop inputPointer =
      92 :: 117 :: (highDigits ++ 92 :: 117 :: (lowDigits ++ rest))) :
    utf16LiteralToUtf8 content inputPointer inputEnd =
      .ok (JsonText.utf8 (JsonText.pairCode high low), 12) := by
  have atDigits := drop_next (drop_next left)
  have second := drop_behind atDigits
  rw [Hex4.length highHex] at second
  have letter := drop_next second
  have encoded : utf8OfCodepoint (0x10000 + (((high &&& 0x3FF) <<< 10) ||| (low &&& 0x3FF))) =
      some (JsonText.utf8 (JsonText.pairCode high low)) := by
    rw [pairCode_eq isHigh isLow, utf8OfCodepoint_eq (pairCode_valid isHigh isLow)]
  obtain ⟨highFrom, highTo⟩ := isHigh
  obtain ⟨lowFrom, lowTo⟩ := isLow
  rw [utf16LiteralToUtf8, if_neg (by omega), parseHex4_digits highHex atDigits, Outcome.ok_bind,
    if_neg (by omega), if_pos (by omega)]
  dsimp only
  rw [if_neg (by omega), byteAt_of_drop second, Outcome.ok_bind, if_neg (by decide),
    byteAt_of_drop letter, Outcome.ok_bind, if_neg (by decide),
    parseHex4_digits lowHex (drop_next letter), Outcome.ok_bind, if_neg (by omega), encoded]

theorem unescapeNext_plain {char : UInt8} {rest : List UInt8} (notBackslash : char ≠ 92)
    (left : content.drop inputPointer = char :: rest) :
    unescapeNext content inputEnd inputPointer = .ok ([char], 1) := by
  rw [unescapeNext, byteAt_of_drop left, Outcome.ok_bind, if_pos notBackslash]

theorem unescapeNext_short {escape char : UInt8} {rest : List UInt8}
    (known : (escape, char) ∈ JsonText.shortEscapes)
    (left : content.drop inputPointer = 92 :: escape :: rest) :
    unescapeNext content inputEnd inputPointer = .ok ([char], 2) := by
  rw [unescapeNext, byteAt_of_drop left, Outcome.ok_bind, if_neg (by decide),
    byteAt_of_drop (drop_next left), Outcome.ok_bind, shortEscape_known known]

theorem unescapeNext_unicode {rest : List UInt8}
    (left : content.drop inputPointer = 92 :: 117 :: rest) :
    unescapeNext content inputEnd inputPointer =
      utf16LiteralToUtf8 content inputPointer inputEnd := by
  rw [unescapeNext, byteAt_of_drop left, Outcome.ok_bind, if_neg (by decide),
    byteAt_of_drop (drop_next left), Outcome.ok_bind]
  rfl

theorem unescape_step {fuel room sequenceLength : Nat} {bytes rest : List UInt8}
    (next : unescapeNext content inputEnd inputPointer = .ok (bytes, sequenceLength))
    (below : inputPointer < inputEnd) (fits : bytes.length + rest.length < room)
    (later : ∀ less, rest.length < less →
      unescape content inputEnd fuel (inputPointer + sequenceLength) less = .ok rest) :
    unescape content inputEnd (fuel + 1) inputPointer room = .ok (bytes ++ rest) := by
  rw [unescape, if_pos below, next, Outcome.ok_bind]
  dsimp only
  rw [if_neg (by omega), later _ (by omega), Outcome.ok_bind]

/-- The second loop writes what the text denotes. -/
theorem unescape_body {fuel room : Nat} {text bytes rest : List UInt8}
    (spelled : JsonText.StringBody text bytes) (left : content.drop inputPointer = text ++ rest)
    (ends : inputEnd = inputPointer + text.length) (enough : text.length < fuel)
    (fits : bytes.length < room) :
    unescape content inputEnd fuel inputPointer room = .ok bytes := by
  induction spelled generalizing fuel room inputPointer with
  | nil =>
      obtain ⟨fuel, rfl⟩ := Nat.exists_eq_add_one.mpr enough
      rw [List.length_nil] at ends fits
      rw [unescape, if_neg (by omega), if_neg (by omega)]
  | plain _ _ notBackslash _ ih =>
      obtain ⟨fuel, rfl⟩ := Nat.exists_eq_add_one.mpr (Nat.zero_lt_of_lt enough)
      rw [List.length_cons] at ends enough fits
      apply unescape_step (unescapeNext_plain notBackslash left) (by omega)
      · rw [List.length_singleton]
        omega
      · intro less fitsLess
        exact ih (drop_next left) (by omega) (by omega) fitsLess
  | short known _ ih =>
      obtain ⟨fuel, rfl⟩ := Nat.exists_eq_add_one.mpr (Nat.zero_lt_of_lt enough)
      rw [List.length_cons, List.length_cons] at ends enough
      rw [List.length_cons] at fits
      apply unescape_step (unescapeNext_short known left) (by omega)
      · rw [List.length_singleton]
        omega
      · intro less fitsLess
        exact ih (drop_next (drop_next left)) (by omega) (by omega) fitsLess
  | unicode hex notHigh notLow _ ih =>
      obtain ⟨fuel, rfl⟩ := Nat.exists_eq_add_one.mpr (Nat.zero_lt_of_lt enough)
      simp only [List.cons_append, List.append_assoc] at left
      simp only [List.length_cons, List.length_append, Hex4.length hex] at ends enough fits
      have behind := drop_behind (drop_next (drop_next left))
      rw [Hex4.length hex] at behind
      have next := utf16LiteralToUtf8_unicode hex notHigh notLow
        (show inputPointer + 6 ≤ inputEnd by omega) left
      rw [← unescapeNext_unicode left] at next
      apply unescape_step next (by omega) fits
      intro less fitsLess
      exact ih behind (by omega) (by omega) fitsLess
  | pair highHex isHigh lowHex isLow _ ih =>
      obtain ⟨fuel, rfl⟩ := Nat.exists_eq_add_one.mpr (Nat.zero_lt_of_lt enough)
      simp only [List.cons_append, List.append_assoc] at left
      simp only [List.length_cons, List.length_append, Hex4.length highHex,
        Hex4.length lowHex] at ends enough fits
      have second := drop_behind (drop_next (drop_next left))
      rw [Hex4.length highHex] at second
      have behind := drop_behind (drop_next (drop_next second))
      rw [Hex4.length lowHex] at behind
      have next := utf16LiteralToUtf8_pair highHex isHigh lowHex isLow
        (show inputPointer + 12 ≤ inputEnd by omega) left
      rw [← unescapeNext_unicode left] at next
      apply unescape_step next (by omega) fits
      intro less fitsLess
      exact ih behind (by omega) (by omega) fitsLess

end Unescape

theorem parseString_quoted {offset : Nat} {body bytes rest : List UInt8}
    (spelled : JsonText.StringBody body bytes)
    (left : content.drop offset = JsonText.quoted body ++ rest) :
    parseString content offset = .ok (bytes, offset + (JsonText.quoted body).length) := by
  have lengthEq : (JsonText.quoted body).length = body.length + 2 := by
    rw [JsonText.quoted, List.length_cons, List.length_append]
    rfl
  rw [JsonText.quoted, List.cons_append, List.append_assoc] at left
  have inside := drop_next left
  have closing := length_of_drop (drop_behind inside)
  have enough : content.length < offset + 1 + (content.length + 1) := by omega
  obtain ⟨skippedBytes, scanned⟩ := scanString_body spelled enough inside
  -- the first loop has counted what the string needs
  have counted := (scanString_stays (by omega) (by omega)).of_ok scanned
  have few := StringBody.length_le spelled
  have whole : between content (offset + 1) (offset + 1 + body.length) = body := by
    rw [between, inside, Nat.add_sub_cancel_left, List.take_left]
  rw [whole] at counted
  have written : unescape content (offset + 1 + body.length)
      (offset + 1 + body.length - offset) (offset + 1)
      (offset + 1 + body.length - offset - skippedBytes + 1) = .ok bytes := by
    apply unescape_body spelled inside rfl
    · omega
    · omega
  rw [parseString, byteAt_of_drop left, Outcome.ok_bind, if_neg (by decide), scanned,
    Outcome.ok_bind]
  dsimp only
  rw [written, Outcome.ok_bind, lengthEq]
  congr 2
  omega

/-! ### Numbers -/

theorem isNumberChar_iff {char : UInt8} : isNumberChar char = true ↔ JsonText.IsNumeric char := by
  simp only [isNumberChar, JsonText.IsNumeric, JsonText.IsDigit, Bool.or_eq_true,
    Bool.and_eq_true, decide_eq_true_eq, beq_iff_eq, or_assoc]

/-- No character of a number follows. -/
def NumberEnds (rest : List UInt8) : Prop := ∀ char ∈ rest.head?, ¬JsonText.IsNumeric char

theorem takeWhile_number {token rest : List UInt8} (isNumber : JsonText.IsNumber token)
    (ends : NumberEnds rest) : (token ++ rest).takeWhile isNumberChar = token := by
  have inside : ∀ char ∈ token, isNumberChar char = true :=
    fun char member => isNumberChar_iff.mpr (isNumber.numeric char member)
  rw [List.takeWhile_append_of_pos inside]
  cases rest with
  | nil => rw [List.takeWhile_nil, List.append_nil]
  | cons char rest =>
      have outside : ¬isNumberChar char = true :=
        fun isChar => ends char rfl (isNumberChar_iff.mp isChar)
      rw [List.takeWhile_cons_of_neg outside, List.append_nil]

/-! ### Sequences -/

section Sequence

variable {α β : Type} {one : Nat → Except ParseStop (β × Nat)} {convert : α → β}
  {part : α → List UInt8 → Prop} {closing : UInt8}

/-- `one` reads a part and the spaces around it up to a comma or the closing bracket. -/
def ReadsParts (content : List UInt8) (one : Nat → Except ParseStop (β × Nat)) (convert : α → β)
    (part : α → List UInt8 → Prop) (closing : UInt8) : Prop :=
  ∀ ⦃offset : Nat⦄ ⦃item : α⦄ ⦃before text after rest : List UInt8⦄ ⦃char : UInt8⦄,
    content.drop (offset + 1) = before ++ (text ++ (after ++ char :: rest)) →
    JsonText.Spaces before → part item text → JsonText.Spaces after →
    char = 44 ∨ char = closing →
    one offset = .ok (convert item, offset + 1 + (before ++ (text ++ after)).length)

theorem parseSequence_separated {offset fuel : Nat} {items : List α} {inside rest : List UInt8}
    (reads : ReadsParts content one convert part closing) (notComma : closing ≠ 44)
    (separated : JsonText.Separated part items inside)
    (left : content.drop (offset + 1) = inside ++ closing :: rest)
    (enough : inside.length < fuel) :
    parseSequence content one fuel offset =
      .ok (items.map convert, offset + 1 + inside.length) := by
  induction separated generalizing offset fuel with
  | @one item before text after front spelled back =>
      obtain ⟨fuel, rfl⟩ := Nat.exists_eq_add_one.mpr (Nat.zero_lt_of_lt enough)
      have behind := drop_behind left
      simp only [List.append_assoc] at left
      have read := reads left front spelled back (Or.inr rfl)
      rw [parseSequence, read, Outcome.ok_bind]
      dsimp only
      rw [getElem?_of_drop behind, if_neg (by simpa using notComma)]
      rfl
  | @cons item items before text after later front spelled back _ ih =>
      obtain ⟨fuel, rfl⟩ := Nat.exists_eq_add_one.mpr (Nat.zero_lt_of_lt enough)
      simp only [List.append_assoc, List.cons_append] at left
      have read := reads left front spelled back (Or.inl rfl)
      have comma : content.drop (offset + 1 + (before ++ (text ++ after)).length) =
          44 :: (later ++ closing :: rest) := by
        apply drop_behind
        simp only [left, List.append_assoc]
      have fewer : later.length < fuel := by
        simp only [List.length_append, List.length_cons] at enough
        omega
      have rest := ih (drop_next comma) fewer
      rw [parseSequence, read, Outcome.ok_bind]
      dsimp only
      rw [getElem?_of_drop comma, if_pos rfl, rest, Outcome.ok_bind]
      simp only [List.map_cons, List.length_append, List.length_cons]
      congr 2
      omega

/-- `parse_array` and `parse_object` on brackets with nothing or a sequence between them. -/
theorem parseBrackets_empty {opening : UInt8} {offset : Nat} {spaces rest : List UInt8}
    (areSpaces : JsonText.Spaces spaces) (visible : 32 < closing)
    (left : content.drop offset = opening :: (spaces ++ closing :: rest)) :
    parseBrackets content opening closing one offset = .ok ([], offset + (spaces.length + 2)) := by
  have inside := drop_next left
  rw [parseBrackets, byteAt_of_drop left, Outcome.ok_bind, if_neg (by simp),
    skipWhitespace_spaces inside areSpaces visible]
  dsimp only
  rw [getElem?_of_drop (drop_behind inside), if_pos rfl, Nat.add_assoc, Nat.add_assoc,
    Nat.add_comm 1, Nat.add_assoc]

theorem parseBrackets_separated {opening : UInt8} {offset : Nat} {items : List α}
    {inside rest : List UInt8} (reads : ReadsParts content one convert part closing)
    (notComma : closing ≠ 44)
    (heads : ∀ item text, part item text →
      ∃ char behind, text = char :: behind ∧ 32 < char ∧ char ≠ closing)
    (separated : JsonText.Separated part items inside)
    (left : content.drop offset = opening :: (inside ++ closing :: rest)) :
    parseBrackets content opening closing one offset =
      .ok (items.map convert, offset + (inside.length + 2)) := by
  obtain ⟨before, trimmed, rfl, front, fromFirst, item, first, behindFirst, spelled, rfl⟩ :=
    separated.front
  obtain ⟨char, behind, rfl, visible, notClosing⟩ := heads item first spelled
  simp only [List.append_assoc, List.cons_append] at left
  have atFront := drop_next left
  have atFirst := drop_behind atFront
  have long := length_of_drop atFirst
  simp only [List.length_append, List.length_cons] at long
  -- the loop steps back by one character, which it then passes over
  have stepBack : offset + 1 + before.length - 1 + 1 = offset + 1 + before.length := by omega
  have fromStep : content.drop (offset + 1 + before.length - 1 + 1) =
      (char :: behind ++ behindFirst) ++ closing :: rest := by
    rw [stepBack, atFirst, List.append_assoc]
    rfl
  have enough : (char :: behind ++ behindFirst).length < content.length + 1 := by
    rw [List.length_append, List.length_cons]
    omega
  have read := parseSequence_separated reads notComma fromFirst fromStep enough
  have closed : content.drop (offset + 1 + before.length + (char :: behind ++ behindFirst).length) =
      closing :: rest := by
    apply drop_behind
    rw [atFirst, List.append_assoc]
    rfl
  rw [parseBrackets, byteAt_of_drop left, Outcome.ok_bind, if_neg (by simp),
    skipWhitespace_spaces atFront front visible]
  dsimp only
  rw [getElem?_of_drop atFirst, if_neg (by simpa using notClosing), if_neg (by omega), read,
    Outcome.ok_bind]
  dsimp only
  rw [stepBack, getElem?_of_drop closed, if_neg (by simp)]
  simp only [List.length_append, List.length_cons]
  congr 2
  omega

end Sequence

/-! ### Values -/

variable {ν : Type} {doubles : Doubles ν} {numeral : List UInt8 → ν} {depth : Nat}

/-- `parseItem` reads the values that `part` spells, whatever follows them. -/
def ReadsValues (content : List UInt8) (parseItem : Nat → Except ParseStop (Json ν × Nat))
    (part : Json ν → List UInt8 → Prop) : Prop :=
  ∀ ⦃offset : Nat⦄ ⦃value : Json ν⦄ ⦃text rest : List UInt8⦄, part value text → NumberEnds rest →
    content.drop offset = text ++ rest → parseItem offset = .ok (value, offset + text.length)

section Parts

variable {parseItem : Nat → Except ParseStop (Json ν × Nat)} {part : Json ν → List UInt8 → Prop}
  (reads : ReadsValues content parseItem part)
  (heads : ∀ value text, part value text → ∃ char behind, text = char :: behind ∧ JsonText.Opens char)
include reads heads

/-- A value with spaces around it, up to a character that is neither a space nor in a number. -/
theorem value_reads {offset : Nat} {value : Json ν} {before text after rest : List UInt8}
    {char : UInt8} (left : content.drop offset = before ++ (text ++ (after ++ char :: rest)))
    (front : JsonText.Spaces before) (spelled : part value text) (back : JsonText.Spaces after)
    (visible : 32 < char) (notNumeric : ¬JsonText.IsNumeric char) :
    ∃ next, parseItem (skipWhitespace content offset) = .ok (value, next) ∧
      skipWhitespace content next = offset + (before ++ (text ++ after)).length := by
  have atText := drop_behind left
  have atAfter := drop_behind atText
  have ends : NumberEnds (after ++ char :: rest) := by
    cases after with
    | nil =>
        rintro _ ⟨⟩
        exact notNumeric
    | cons space after =>
        rintro _ ⟨⟩
        rcases back space List.mem_cons_self with rfl | rfl | rfl | rfl <;>
          exact fun numeric => absurd (isNumberChar_iff.mpr numeric) (by decide)
  obtain ⟨first, behind, textEq, isOpening⟩ := heads value text spelled
  have skipped : skipWhitespace content offset = offset + before.length := by
    rw [textEq] at left
    exact skipWhitespace_spaces left front isOpening.range.1
  have read := reads spelled ends atText
  rw [← skipped] at read
  refine ⟨_, read, ?_⟩
  rw [skipped]
  rw [skipWhitespace_spaces atAfter back visible, List.length_append, List.length_append,
    Nat.add_assoc, Nat.add_assoc]

theorem parseElement_reads : ReadsParts content (parseElement content parseItem) id part 93 := by
  intro offset value before text after rest char left front spelled back delimiter
  have visible : 32 < char := by rcases delimiter with rfl | rfl <;> decide
  have notNumeric : ¬JsonText.IsNumeric char := by
    rw [← isNumberChar_iff]
    rcases delimiter with rfl | rfl <;> decide
  obtain ⟨next, read, behind⟩ :=
    value_reads reads heads left front spelled back visible notNumeric
  rw [parseElement, read, Outcome.ok_bind]
  dsimp only
  rw [behind]
  rfl

theorem parseMember_reads :
    ReadsParts content (parseMember content parseItem)
      (fun member => (CString.ofBytes member.1, member.2)) (JsonText.Member part) 125 := by
  intro offset member before text after rest char left front spelled back delimiter
  have visible : 32 < char := by rcases delimiter with rfl | rfl <;> decide
  have notNumeric : ¬JsonText.IsNumeric char := by
    rw [← isNumberChar_iff]
    rcases delimiter with rfl | rfl <;> decide
  cases spelled with
  | @mk body name beforeColon behindColon valueText value named toColon toValue spelled =>
      simp only [List.append_assoc, List.cons_append] at left
      have atName := drop_behind left
      have atColon := drop_behind (drop_behind atName)
      obtain ⟨next, read, behind⟩ :=
        value_reads reads heads (drop_next atColon) toValue spelled back visible notNumeric
      have inside := length_of_drop atColon
      have skipped : skipWhitespace content (offset + 1) = offset + 1 + before.length :=
        skipWhitespace_spaces left front (by decide)
      rw [parseMember, if_neg (by omega), skipped, parseString_quoted named atName,
        Outcome.ok_bind]
      dsimp only
      rw [skipWhitespace_spaces (drop_behind atName) toColon (by decide), getElem?_of_drop atColon,
        if_neg (by simp), read, Outcome.ok_bind]
      dsimp only
      rw [behind]
      simp only [List.length_append, List.length_cons]
      congr 2
      omega

end Parts

/-- None of the three words begins with the character. -/
theorem parseValueWith_sign {array object : Nat → Except ParseStop (Json ν × Nat)} {offset : Nat}
    {char : UInt8} {rest : List UInt8} (notN : char ≠ 110) (notF : char ≠ 102) (notT : char ≠ 116)
    (left : content.drop offset = char :: rest) :
    parseValueWith content doubles array object offset =
      if char = 34 then do
        let (text, next) ← parseString content offset
        .ok (.string (CString.ofBytes text), next)
      else if char = 45 ∨ 48 ≤ char ∧ char ≤ 57 then parseNumber content doubles offset
      else if char = 91 then array offset
      else if char = 123 then object offset
      else .error .refused := by
  have differs : ∀ (first : UInt8) (word : List UInt8) (length : Nat), char ≠ first →
      (content.drop offset).take (length + 1) ≠ first :: word := by
    intro first word length notFirst same
    rw [left, List.take_succ_cons] at same
    exact notFirst (List.cons.inj same).1
  have notNull : (content.drop offset).take 4 ≠ asciiBytes "null" :=
    differs 110 [117, 108, 108] 3 notN
  have notFalse : (content.drop offset).take 5 ≠ asciiBytes "false" :=
    differs 102 [97, 108, 115, 101] 4 notF
  have notTrue : (content.drop offset).take 4 ≠ asciiBytes "true" :=
    differs 116 [114, 117, 101] 3 notT
  unfold parseValueWith
  rw [if_neg notNull, if_neg notFalse, if_neg notTrue, getElem?_of_drop left]

theorem parseValueWith_scalar {array object : Nat → Except ParseStop (Json ν × Nat)}
    (exact : ∀ token, JsonText.IsNumber token →
      doubles.strtod token = some (numeral token, token.length))
    {offset : Nat} {value : Json ν} {text rest : List UInt8}
    (scalar : JsonText.Scalar (treeBuilder doubles) numeral value text) (ends : NumberEnds rest)
    (left : content.drop offset = text ++ rest) :
    parseValueWith content doubles array object offset = .ok (value, offset + text.length) := by
  cases scalar with
  | null =>
      unfold parseValueWith
      rw [left]
      rfl
  | false =>
      unfold parseValueWith
      rw [left]
      rfl
  | true =>
      unfold parseValueWith
      rw [left]
      rfl
  | number isNumber =>
      obtain ⟨char, behind, rfl, sign⟩ := isNumber.head
      have notWord : char ≠ 110 ∧ char ≠ 102 ∧ char ≠ 116 ∧ char ≠ 34 := by
        refine ⟨?_, ?_, ?_, ?_⟩ <;> rintro rfl <;>
          exact absurd sign (by unfold JsonText.IsDigit; decide)
      change char = 45 ∨ 48 ≤ char ∧ char ≤ 57 at sign
      rw [parseValueWith_sign notWord.1 notWord.2.1 notWord.2.2.1 left, if_neg notWord.2.2.2,
        if_pos sign, parseNumber, left, takeWhile_number isNumber ends, exact _ isNumber]
      rfl
  | string spelled =>
      have read := parseString_quoted spelled left
      rw [parseValueWith_sign (by decide) (by decide) (by decide) left, if_pos rfl, read]
      rfl

/-- An array or an object of values that are read is read. -/
theorem parseCompound_reads {parseItem : Nat → Except ParseStop (Json ν × Nat)}
    {part : Json ν → List UInt8 → Prop} (reads : ReadsValues content parseItem part)
    (heads : ∀ value text, part value text →
      ∃ char behind, text = char :: behind ∧ JsonText.Opens char)
    {offset : Nat} {value : Json ν} {text rest : List UInt8}
    (compound : JsonText.Compound (treeBuilder doubles) part value text)
    (left : content.drop offset = text ++ rest) :
    parseValueWith content doubles (parseArray content parseItem) (parseObject content parseItem)
      offset = .ok (value, offset + text.length) := by
  have elementHeads : ∀ item text, part item text →
      ∃ char behind, text = char :: behind ∧ 32 < char ∧ char ≠ 93 := by
    intro item text spelled
    obtain ⟨char, behind, textEq, isOpening⟩ := heads item text spelled
    exact ⟨char, behind, textEq, isOpening.range.1, isOpening.range.2.2⟩
  have memberHeads : ∀ member text, JsonText.Member part member text →
      ∃ char behind, text = char :: behind ∧ 32 < char ∧ char ≠ 125 := by
    rintro member text ⟨_, _, _, _⟩
    exact ⟨34, _, rfl, by decide, by decide⟩
  cases compound with
  | emptyArray areSpaces =>
      rw [List.cons_append, List.append_assoc] at left
      rw [parseValueWith_sign (by decide) (by decide) (by decide) left, if_neg (by decide),
        if_neg (by decide), if_pos rfl, parseArray, parseBrackets_empty areSpaces (by decide) left]
      simp only [List.length_cons, List.length_append]
      rfl
  | array separated =>
      rw [List.cons_append, List.append_assoc] at left
      rw [parseValueWith_sign (by decide) (by decide) (by decide) left, if_neg (by decide),
        if_neg (by decide), if_pos rfl, parseArray,
        parseBrackets_separated (parseElement_reads reads heads) (by decide) elementHeads separated
          left]
      simp only [List.length_cons, List.length_append, List.map_id]
      rfl
  | emptyObject areSpaces =>
      rw [List.cons_append, List.append_assoc] at left
      rw [parseValueWith_sign (by decide) (by decide) (by decide) left, if_neg (by decide),
        if_neg (by decide), if_neg (by decide), if_pos rfl, parseObject,
        parseBrackets_empty areSpaces (by decide) left]
      simp only [List.length_cons, List.length_append]
      rfl
  | object separated =>
      rw [List.cons_append, List.append_assoc] at left
      rw [parseValueWith_sign (by decide) (by decide) (by decide) left, if_neg (by decide),
        if_neg (by decide), if_neg (by decide), if_pos rfl, parseObject,
        parseBrackets_separated (parseMember_reads reads heads) (by decide) memberHeads separated
          left]
      simp only [List.length_cons, List.length_append]
      rfl

/-- The parser reads every text with at most as many levels as are left. -/
theorem parseValue_reads
    (exact : ∀ token, JsonText.IsNumber token →
      doubles.strtod token = some (numeral token, token.length)) :
    ReadsValues content (parseValue content doubles depth)
      (JsonText.Denotes (treeBuilder doubles) numeral depth) := by
  induction depth with
  | zero =>
      intro offset value text rest denotes ends left
      exact parseValueWith_scalar exact denotes ends left
  | succ depth ih =>
      intro offset value text rest denotes ends left
      rcases denotes with scalar | compound
      · exact parseValueWith_scalar exact scalar ends left
      · exact parseCompound_reads ih (fun _ _ spelled => spelled.head) compound left

end Content

/-- A byte order mark. -/
def IsMark (text : List UInt8) : Prop := text = [] ∨ text = [0xEF, 0xBB, 0xBF]

theorem skipUtf8Bom_mark {mark text : List UInt8} (isMark : IsMark mark) (long : 1 < text.length)
    (low : ∀ char ∈ text.head?, char < 128) : skipUtf8Bom (mark ++ text) = mark.length := by
  rcases isMark with rfl | rfl
  · have notMark : text.take 3 ≠ [0xEF, 0xBB, 0xBF] := by
      intro same
      cases text with
      | nil => cases same
      | cons char rest =>
          have first := (List.cons.inj same).1
          have below := low char rfl
          rw [first] at below
          exact absurd below (by decide)
    exact if_neg fun both => notMark both.2
  · apply if_pos
    constructor
    · rw [List.length_append]
      exact Nat.add_lt_add_left long 3
    · rfl

theorem cJSONParse_denoted {ν : Type} {doubles : Doubles ν} {numeral : List UInt8 → ν}
    (exact : ∀ token, JsonText.IsNumber token →
      doubles.strtod token = some (numeral token, token.length))
    {depth : Nat} (shallow : depth ≤ nestingLimit) {value : Json ν}
    {mark before text rest : List UInt8} (input : CString)
    (inputEq : input.bytes = mark ++ (before ++ (text ++ rest))) (isMark : IsMark mark)
    (front : JsonText.Spaces before)
    (denotes : JsonText.Denotes (treeBuilder doubles) numeral depth value text)
    (ends : NumberEnds rest) : cJSONParse doubles input = .ok value := by
  obtain ⟨char, behind, textEq, isOpening⟩ := denotes.head
  have contentEq : input.bytes ++ [0] = mark ++ (before ++ (text ++ (rest ++ [0]))) := by
    simp only [inputEq, List.append_assoc]
  have stillEnds : NumberEnds (rest ++ [0]) := by
    cases rest with
    | nil =>
        rintro _ ⟨⟩
        exact fun numeric => absurd (isNumberChar_iff.mpr numeric) (by decide)
    | cons char rest => exact ends
  have atMark : (mark ++ (before ++ (text ++ (rest ++ [0])))).drop mark.length =
      before ++ (text ++ (rest ++ [0])) := List.drop_left
  have atText := drop_behind atMark
  have read := parseValue_reads exact (denotes.mono shallow) stillEnds atText
  have low : ∀ char ∈ (before ++ (text ++ (rest ++ [0]))).head?, char < 128 := by
    cases before with
    | nil =>
        rw [textEq]
        rintro _ ⟨⟩
        exact isOpening.range.2.1
    | cons space before =>
        rintro _ ⟨⟩
        rcases front space List.mem_cons_self with rfl | rfl | rfl | rfl <;> decide
  have long : 1 < (before ++ (text ++ (rest ++ [0]))).length := by
    rw [textEq]
    simp only [List.length_append, List.length_cons]
    omega
  have skipped : skipWhitespace (mark ++ (before ++ (text ++ (rest ++ [0])))) mark.length =
      mark.length + before.length := by
    rw [textEq] at atMark ⊢
    exact skipWhitespace_spaces atMark front isOpening.range.1
  rw [cJSONParse, contentEq]
  dsimp only
  rw [skipUtf8Bom_mark isMark long low, skipped, read]
  rfl

/-- Every JSON text with at most 1000 levels is parsed as the tree it denotes, with a byte order
mark and spaces in front of it and anything behind it that does not prolong a number.  No text
denotes two trees. -/
theorem cJSONParse_reads {ν : Type} {doubles : Doubles ν} {numeral : List UInt8 → ν}
    (exact : ∀ token, JsonText.IsNumber token →
      doubles.strtod token = some (numeral token, token.length))
    {depth : Nat} (shallow : depth ≤ nestingLimit) {value : Json ν}
    {mark before text rest : List UInt8} (input : CString)
    (inputEq : input.bytes = mark ++ (before ++ (text ++ rest))) (isMark : IsMark mark)
    (front : JsonText.Spaces before)
    (denotes : JsonText.Denotes (treeBuilder doubles) numeral depth value text)
    (ends : NumberEnds rest) :
    cJSONParse doubles input = .ok value ∧
      ∀ deep ≤ nestingLimit, ∀ other,
        JsonText.Denotes (treeBuilder doubles) numeral deep other text → other = value := by
  have read := cJSONParse_denoted exact shallow input inputEq isMark front denotes ends
  refine ⟨read, ?_⟩
  intro deep alsoShallow other alsoDenotes
  have same := cJSONParse_denoted exact alsoShallow input inputEq isMark front alsoDenotes ends
  rw [read] at same
  exact (Except.ok.inj same).symm

/-- Doubles for whole numbers, without their signs. -/
def wholeDoubles : Doubles Nat where
  strtod := fun text =>
    if text = [] then none else some (decimalValue text, text.length)
  toInt := Int.ofNat
  isFinite := fun _ => true
  equalsInt := fun value valueInt => (value : Int) == valueInt
  format := fun _ => CString.ofBytes [48]
  strtod_used := by
    intro text value used converted
    by_cases empty : text = []
    · rw [if_pos empty] at converted
      cases converted
    · rw [if_neg empty] at converted
      cases converted
      exact ⟨List.length_pos_of_ne_nil empty, Nat.le_refl _⟩

theorem wholeDoubles_exact (token : List UInt8) (isNumber : JsonText.IsNumber token) :
    wholeDoubles.strtod token = some (decimalValue token, token.length) := by
  obtain ⟨char, rest, rfl, -⟩ := isNumber.head
  rfl

/-- `[12, {"k": "v"}]`. -/
def nestedText : List UInt8 := asciiBytes "[12, \x7b\"k\": \"v\"\x7d]"

theorem nestedText_denotes :
    JsonText.Denotes (treeBuilder wholeDoubles) decimalValue 2
      (.array [.number 12 12, .object [(CString.ofBytes [107], .string (CString.ofBytes [118]))]])
      nestedText := by
  have none : JsonText.Spaces [] := fun _ impossible => absurd impossible List.not_mem_nil
  have space : JsonText.Spaces [32] := fun char member => Or.inl (List.mem_singleton.mp member)
  have letter : ∀ char : UInt8, 32 ≤ char → char ≠ 34 → char ≠ 92 →
      JsonText.StringBody [char] [char] :=
    fun char visible notQuote notBackslash => .plain visible notQuote notBackslash .nil
  have twelve : JsonText.IsNumber [49, 50] := by
    refine ⟨[], [49, 50], [], [], Or.inl rfl, Or.inr ⟨⟨by decide, ?_⟩, by decide⟩, Or.inl rfl,
      Or.inl rfl, rfl⟩
    intro char member
    simp only [List.mem_cons, List.not_mem_nil, or_false] at member
    rcases member with rfl | rfl <;> exact ⟨by decide, by decide⟩
  have entry : JsonText.Member (JsonText.Denotes (treeBuilder wholeDoubles) decimalValue 0)
      ([107], .string (CString.ofBytes [118]))
      (JsonText.quoted [107] ++ ([] ++ 58 :: ([32] ++ JsonText.quoted [118]))) := by
    apply JsonText.Member.mk (letter 107 (by decide) (by decide) (by decide)) none space
    exact JsonText.Scalar.string (letter 118 (by decide) (by decide) (by decide))
  have object : JsonText.Denotes (treeBuilder wholeDoubles) decimalValue 1
      (.object [(CString.ofBytes [107], .string (CString.ofBytes [118]))])
      (asciiBytes "\x7b\"k\": \"v\"\x7d") :=
    Or.inr (JsonText.Compound.object (JsonText.Separated.one none entry none))
  have number : JsonText.Denotes (treeBuilder wholeDoubles) decimalValue 1 (.number 12 12)
      [49, 50] := Or.inl (JsonText.Scalar.number twelve)
  exact Or.inr (JsonText.Compound.array
    (JsonText.Separated.cons none number none (JsonText.Separated.one space object none)))

/-- The text with a line break in front of it and more text behind it. -/
def nestedInput : CString := CString.ofBytes (10 :: (nestedText ++ asciiBytes " ]"))

theorem cJSONParse_reads_nested :
    cJSONParse wholeDoubles nestedInput = .ok
        (.array [.number 12 12,
          .object [(CString.ofBytes [107], .string (CString.ofBytes [118]))]]) ∧
      ∀ deep ≤ nestingLimit, ∀ other,
        JsonText.Denotes (treeBuilder wholeDoubles) decimalValue deep other nestedText →
          other = .array [.number 12 12,
            .object [(CString.ofBytes [107], .string (CString.ofBytes [118]))]] := by
  have front : JsonText.Spaces [10] :=
    fun char member => Or.inr (Or.inr (Or.inl (List.mem_singleton.mp member)))
  have ends : NumberEnds (asciiBytes " ]") := by
    rintro _ ⟨⟩
    exact fun numeric => absurd (isNumberChar_iff.mpr numeric) (by decide)
  have inputEq : nestedInput.bytes = [] ++ ([10] ++ (nestedText ++ asciiBytes " ]")) := by decide
  exact cJSONParse_reads wholeDoubles_exact (by decide) nestedInput inputEq (Or.inl rfl) front
    nestedText_denotes ends

end OriginDb
