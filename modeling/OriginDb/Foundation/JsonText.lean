/-
JSON texts as sequences of bytes, and the values they denote.

What a value is stays open: a `Builder` makes values of their parts, and a text denotes
what the builder makes of the parts that it spells.  Depth counts the brackets around a
value.  A reader of JSON is right when it returns what the text denotes, a writer when its
text denotes what was written.
-/

import Mathlib.Data.List.Basic

namespace Foundation.JsonText

variable {τ ν α : Type}

/-- How values are made of their parts. -/
structure Builder (τ ν : Type) where
  null : τ
  bool : Bool → τ
  number : ν → τ
  string : List UInt8 → τ
  array : List τ → τ
  object : List (List UInt8 × τ) → τ

/-! ### The characters between the parts -/

def IsSpace (char : UInt8) : Prop := char = 32 ∨ char = 9 ∨ char = 10 ∨ char = 13

def Spaces (text : List UInt8) : Prop := ∀ char ∈ text, IsSpace char

/-! ### Strings -/

/-- A hexadecimal digit with its value. -/
inductive HexDigit : UInt8 → Nat → Prop where
  | decimal (value : Nat) (small : value < 10) : HexDigit (UInt8.ofNat (48 + value)) value
  | upper (value : Nat) (small : value < 6) : HexDigit (UInt8.ofNat (65 + value)) (10 + value)
  | lower (value : Nat) (small : value < 6) : HexDigit (UInt8.ofNat (97 + value)) (10 + value)

/-- Four hexadecimal digits. -/
inductive Hex4 : List UInt8 → Nat → Prop where
  | digits {first second third fourth : UInt8} {a b c d : Nat} (firstDigit : HexDigit first a)
      (secondDigit : HexDigit second b) (thirdDigit : HexDigit third c)
      (fourthDigit : HexDigit fourth d) :
      Hex4 [first, second, third, fourth] (((a * 16 + b) * 16 + c) * 16 + d)

def HighSurrogate (code : Nat) : Prop := 0xD800 ≤ code ∧ code < 0xDC00

def LowSurrogate (code : Nat) : Prop := 0xDC00 ≤ code ∧ code < 0xE000

/-- The code point of a surrogate pair. -/
def pairCode (high low : Nat) : Nat := 0x10000 + (high - 0xD800) * 0x400 + (low - 0xDC00)

def utf8 (code : Nat) : List UInt8 := String.utf8EncodeChar (Char.ofNat code)

/-- The escapes of one character, with the character each stands for. -/
def shortEscapes : List (UInt8 × UInt8) :=
  [(34, 34), (92, 92), (47, 47), (98, 8), (102, 12), (110, 10), (114, 13), (116, 9)]

/-- What stands between the quotes of a string, and the bytes it denotes. -/
inductive StringBody : List UInt8 → List UInt8 → Prop where
  | nil : StringBody [] []
  | plain {char : UInt8} {text bytes : List UInt8} (visible : 32 ≤ char) (notQuote : char ≠ 34)
      (notBackslash : char ≠ 92) (rest : StringBody text bytes) :
      StringBody (char :: text) (char :: bytes)
  | short {escape char : UInt8} {text bytes : List UInt8} (known : (escape, char) ∈ shortEscapes)
      (rest : StringBody text bytes) : StringBody (92 :: escape :: text) (char :: bytes)
  | unicode {digits text bytes : List UInt8} {code : Nat} (hex : Hex4 digits code)
      (notHigh : ¬HighSurrogate code) (notLow : ¬LowSurrogate code)
      (rest : StringBody text bytes) :
      StringBody (92 :: 117 :: (digits ++ text)) (utf8 code ++ bytes)
  | pair {highDigits lowDigits text bytes : List UInt8} {high low : Nat}
      (highHex : Hex4 highDigits high) (isHigh : HighSurrogate high) (lowHex : Hex4 lowDigits low)
      (isLow : LowSurrogate low) (rest : StringBody text bytes) :
      StringBody (92 :: 117 :: (highDigits ++ 92 :: 117 :: (lowDigits ++ text)))
        (utf8 (pairCode high low) ++ bytes)

def quoted (body : List UInt8) : List UInt8 := 34 :: (body ++ [34])

/-! ### Numbers -/

def IsDigit (char : UInt8) : Prop := 48 ≤ char ∧ char ≤ 57

/-- One digit or more. -/
def Digits (text : List UInt8) : Prop := text ≠ [] ∧ ∀ char ∈ text, IsDigit char

/-- Digits without a leading zero. -/
def IntegerPart (text : List UInt8) : Prop := text = [48] ∨ Digits text ∧ text.head? ≠ some 48

def Fraction (text : List UInt8) : Prop := text = [] ∨ ∃ digits, Digits digits ∧ text = 46 :: digits

def Exponent (text : List UInt8) : Prop :=
  text = [] ∨ ∃ letter sign digits, (letter = 101 ∨ letter = 69) ∧
    (sign = [] ∨ sign = [43] ∨ sign = [45]) ∧ Digits digits ∧ text = letter :: (sign ++ digits)

/-- A number token: sign, integer part, fraction and exponent. -/
def IsNumber (text : List UInt8) : Prop :=
  ∃ sign integer fraction exponent, (sign = [] ∨ sign = [45]) ∧ IntegerPart integer ∧
    Fraction fraction ∧ Exponent exponent ∧ text = sign ++ (integer ++ (fraction ++ exponent))

/-! ### Values -/

/-- Items one after the other, with commas between them and spaces around them. -/
inductive Separated (part : α → List UInt8 → Prop) : List α → List UInt8 → Prop where
  | one {item : α} {before text after : List UInt8} (front : Spaces before)
      (spelled : part item text) (back : Spaces after) :
      Separated part [item] (before ++ (text ++ after))
  | cons {item : α} {items : List α} {before text after rest : List UInt8} (front : Spaces before)
      (spelled : part item text) (back : Spaces after) (more : Separated part items rest) :
      Separated part (item :: items) (before ++ (text ++ (after ++ 44 :: rest)))

/-- A name, a colon and a value. -/
inductive Member (part : τ → List UInt8 → Prop) : List UInt8 × τ → List UInt8 → Prop where
  | mk {body name before after text : List UInt8} {value : τ} (named : StringBody body name)
      (front : Spaces before) (back : Spaces after) (spelled : part value text) :
      Member part (name, value) (quoted body ++ (before ++ 58 :: (after ++ text)))

section Denotes

variable (builder : Builder τ ν) (numeral : List UInt8 → ν)

def nullText : List UInt8 := [110, 117, 108, 108]

def falseText : List UInt8 := [102, 97, 108, 115, 101]

def trueText : List UInt8 := [116, 114, 117, 101]

/-- A value without brackets; `numeral` gives the value of a number token. -/
inductive Scalar : τ → List UInt8 → Prop where
  | null : Scalar builder.null nullText
  | false : Scalar (builder.bool false) falseText
  | true : Scalar (builder.bool true) trueText
  | number {token : List UInt8} (isNumber : IsNumber token) :
      Scalar (builder.number (numeral token)) token
  | string {body bytes : List UInt8} (spelled : StringBody body bytes) :
      Scalar (builder.string bytes) (quoted body)

/-- An array or an object whose parts are spelled by `part`. -/
inductive Compound (part : τ → List UInt8 → Prop) : τ → List UInt8 → Prop where
  | emptyArray {between : List UInt8} (spaces : Spaces between) :
      Compound part (builder.array []) (91 :: (between ++ [93]))
  | array {items : List τ} {inside : List UInt8} (separated : Separated part items inside) :
      Compound part (builder.array items) (91 :: (inside ++ [93]))
  | emptyObject {between : List UInt8} (spaces : Spaces between) :
      Compound part (builder.object []) (123 :: (between ++ [125]))
  | object {members : List (List UInt8 × τ)} {inside : List UInt8}
      (separated : Separated (Member part) members inside) :
      Compound part (builder.object members) (123 :: (inside ++ [125]))

/-- The text denotes the value with at most `depth` brackets around any part of it. -/
def Denotes : Nat → τ → List UInt8 → Prop
  | 0, value, text => Scalar builder numeral value text
  | depth + 1, value, text =>
      Scalar builder numeral value text ∨ Compound builder (Denotes depth) value text

end Denotes

/-! ### First characters -/

/-- The characters that values begin with. -/
def Opens (char : UInt8) : Prop :=
  IsDigit char ∨ char ∈ ([34, 45, 91, 102, 110, 116, 123] : List UInt8)

/-- No value begins with a space, a closing bracket or a byte order mark. -/
theorem Opens.range {char : UInt8} (isOpening : Opens char) :
    32 < char ∧ char < 128 ∧ char ≠ 93 := by
  rcases isOpening with ⟨low, high⟩ | known
  · rw [UInt8.le_iff_toNat_le] at low high
    change 48 ≤ char.toNat at low
    change char.toNat ≤ 57 at high
    refine ⟨UInt8.lt_iff_toNat_lt.mpr ?_, UInt8.lt_iff_toNat_lt.mpr ?_, ?_⟩
    · change 32 < char.toNat
      omega
    · change char.toNat < 128
      omega
    · rintro rfl
      exact absurd high (by decide)
  · simp only [List.mem_cons, List.not_mem_nil, or_false] at known
    rcases known with rfl | rfl | rfl | rfl | rfl | rfl | rfl <;> decide

theorem IntegerPart.head {text : List UInt8} (integer : IntegerPart text) :
    ∃ char rest, text = char :: rest ∧ IsDigit char := by
  rcases integer with rfl | ⟨⟨notEmpty, digits⟩, -⟩
  · exact ⟨48, [], rfl, by decide, by decide⟩
  · obtain ⟨char, rest, textEq⟩ := List.exists_cons_of_ne_nil notEmpty
    exact ⟨char, rest, textEq, digits char (textEq ▸ List.mem_cons_self)⟩

/-- A number begins with a minus sign or a digit. -/
theorem IsNumber.head {text : List UInt8} (isNumber : IsNumber text) :
    ∃ char rest, text = char :: rest ∧ (char = 45 ∨ IsDigit char) := by
  obtain ⟨sign, integer, fraction, exponent, hasSign, isInteger, -, -, rfl⟩ := isNumber
  rcases hasSign with rfl | rfl
  · obtain ⟨char, rest, rfl, digit⟩ := isInteger.head
    exact ⟨char, rest ++ (fraction ++ exponent), rfl, Or.inr digit⟩
  · exact ⟨45, integer ++ (fraction ++ exponent), rfl, Or.inl rfl⟩

/-- The characters of numbers. -/
def IsNumeric (char : UInt8) : Prop :=
  IsDigit char ∨ char = 43 ∨ char = 45 ∨ char = 101 ∨ char = 69 ∨ char = 46

theorem IsNumber.numeric {text : List UInt8} (isNumber : IsNumber text) :
    ∀ char ∈ text, IsNumeric char := by
  obtain ⟨sign, integer, fraction, exponent, hasSign, isInteger, isFraction, isExponent, rfl⟩ :=
    isNumber
  intro char member
  rcases List.mem_append.mp member with inSign | behindSign
  · rcases hasSign with rfl | rfl
    · cases inSign
    · exact Or.inr (Or.inr (Or.inl (List.mem_singleton.mp inSign)))
  rcases List.mem_append.mp behindSign with inInteger | behindInteger
  · rcases isInteger with rfl | ⟨digits, -⟩
    · rw [List.mem_singleton.mp inInteger]
      exact Or.inl ⟨by decide, by decide⟩
    · exact Or.inl (digits.2 char inInteger)
  rcases List.mem_append.mp behindInteger with inFraction | inExponent
  · rcases isFraction with rfl | ⟨digits, isDigits, rfl⟩
    · cases inFraction
    · rcases List.mem_cons.mp inFraction with point | inDigits
      · exact Or.inr (Or.inr (Or.inr (Or.inr (Or.inr point))))
      · exact Or.inl (isDigits.2 char inDigits)
  · rcases isExponent with rfl | ⟨letter, mark, digits, isLetter, isMark, isDigits, rfl⟩
    · cases inExponent
    · rcases List.mem_cons.mp inExponent with rfl | behindLetter
      · rcases isLetter with small | large
        · exact Or.inr (Or.inr (Or.inr (Or.inl small)))
        · exact Or.inr (Or.inr (Or.inr (Or.inr (Or.inl large))))
      · rcases List.mem_append.mp behindLetter with inMark | inDigits
        · rcases isMark with rfl | rfl | rfl
          · cases inMark
          · exact Or.inr (Or.inl (List.mem_singleton.mp inMark))
          · exact Or.inr (Or.inr (Or.inl (List.mem_singleton.mp inMark)))
        · exact Or.inl (isDigits.2 char inDigits)

section Heads

variable {builder : Builder τ ν} {numeral : List UInt8 → ν}

theorem Scalar.head {value : τ} {text : List UInt8} (scalar : Scalar builder numeral value text) :
    ∃ char rest, text = char :: rest ∧ Opens char := by
  cases scalar with
  | null => exact ⟨110, [117, 108, 108], rfl, Or.inr (by simp)⟩
  | false => exact ⟨102, [97, 108, 115, 101], rfl, Or.inr (by simp)⟩
  | true => exact ⟨116, [114, 117, 101], rfl, Or.inr (by simp)⟩
  | number isNumber =>
      obtain ⟨char, rest, textEq, minus | digit⟩ := isNumber.head
      · exact ⟨char, rest, textEq, Or.inr (by simp [minus])⟩
      · exact ⟨char, rest, textEq, Or.inl digit⟩
  | string _ => exact ⟨34, _, rfl, Or.inr (by simp)⟩

theorem Compound.head {part : τ → List UInt8 → Prop} {value : τ} {text : List UInt8}
    (compound : Compound builder part value text) :
    ∃ char rest, text = char :: rest ∧ Opens char := by
  cases compound with
  | emptyArray _ => exact ⟨91, _, rfl, Or.inr (by simp)⟩
  | array _ => exact ⟨91, _, rfl, Or.inr (by simp)⟩
  | emptyObject _ => exact ⟨123, _, rfl, Or.inr (by simp)⟩
  | object _ => exact ⟨123, _, rfl, Or.inr (by simp)⟩

theorem Denotes.head {depth : Nat} {value : τ} {text : List UInt8}
    (denotes : Denotes builder numeral depth value text) :
    ∃ char rest, text = char :: rest ∧ Opens char := by
  cases depth with
  | zero => exact Scalar.head denotes
  | succ depth =>
      rcases denotes with scalar | compound
      · exact scalar.head
      · exact compound.head

end Heads

/-- The spaces in front of the first item stand apart. -/
theorem Separated.front {part : α → List UInt8 → Prop} {items : List α} {text : List UInt8}
    (separated : Separated part items text) :
    ∃ before rest, text = before ++ rest ∧ Spaces before ∧ Separated part items rest ∧
      ∃ item first behind, part item first ∧ rest = first ++ behind := by
  have noSpaces : Spaces [] := fun _ impossible => absurd impossible List.not_mem_nil
  cases separated with
  | @one item before first after front spelled back =>
      exact ⟨before, first ++ after, rfl, front, .one noSpaces spelled back, item, first, after,
        spelled, rfl⟩
  | @cons item items before first after more front spelled back later =>
      exact ⟨before, first ++ (after ++ 44 :: more), rfl, front,
        .cons noSpaces spelled back later, item, first, after ++ 44 :: more, spelled, rfl⟩

/-! ### Deeper texts -/

theorem Separated.imp {part weaker : α → List UInt8 → Prop}
    (weaken : ∀ item text, part item text → weaker item text) {items : List α} {text : List UInt8}
    (separated : Separated part items text) : Separated weaker items text := by
  induction separated with
  | one front spelled back => exact .one front (weaken _ _ spelled) back
  | cons front spelled back _ ih => exact .cons front (weaken _ _ spelled) back ih

theorem Member.imp {part weaker : τ → List UInt8 → Prop}
    (weaken : ∀ value text, part value text → weaker value text) (member : List UInt8 × τ)
    (text : List UInt8) (spelled : Member part member text) : Member weaker member text := by
  cases spelled with
  | mk named front back spelled => exact .mk named front back (weaken _ _ spelled)

theorem Compound.imp {builder : Builder τ ν} {part weaker : τ → List UInt8 → Prop}
    (weaken : ∀ value text, part value text → weaker value text) {value : τ} {text : List UInt8}
    (compound : Compound builder part value text) : Compound builder weaker value text := by
  cases compound with
  | emptyArray spaces => exact .emptyArray spaces
  | array separated => exact .array (separated.imp weaken)
  | emptyObject spaces => exact .emptyObject spaces
  | object separated => exact .object (separated.imp (Member.imp weaken))

theorem Denotes.succ {builder : Builder τ ν} {numeral : List UInt8 → ν} {depth : Nat} {value : τ}
    {text : List UInt8} (denotes : Denotes builder numeral depth value text) :
    Denotes builder numeral (depth + 1) value text := by
  induction depth generalizing value text with
  | zero => exact Or.inl denotes
  | succ depth ih =>
      rcases denotes with scalar | compound
      · exact Or.inl scalar
      · exact Or.inr (compound.imp fun _ _ => ih)

/-- More brackets are allowed than there are. -/
theorem Denotes.mono {builder : Builder τ ν} {numeral : List UInt8 → ν} {depth deeper : Nat}
    {value : τ} {text : List UInt8} (denotes : Denotes builder numeral depth value text)
    (atMost : depth ≤ deeper) : Denotes builder numeral deeper value text := by
  induction atMost with
  | refl => exact denotes
  | step _ ih => exact ih.succ

end Foundation.JsonText
