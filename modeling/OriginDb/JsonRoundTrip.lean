/-
What the printer writes, the parser reads back.

The text of a tree is a JSON text that denotes the tree, if the text of each of its numbers is
converted back to the number.  This is not so for every double: an infinite one is printed as
`null`, and 15 digits are taken for enough where they are nearly the same.
-/

import OriginDb.JsonPrinting
import OriginDb.JsonReading

namespace OriginDb

open Foundation

section Trees

variable {ν : Type} (doubles : Doubles ν) (numeral : List UInt8 → ν)

/-- The text of the number is a number token for this number, and its integer value is the
one that its double has. -/
def NumberReturns (valueInt : Int) (valueDouble : ν) : Prop :=
  JsonText.IsNumber (numberText doubles valueInt valueDouble) ∧
    numeral (numberText doubles valueInt valueDouble) = valueDouble ∧
    doubles.toInt valueDouble = valueInt

/-- All numbers of a tree come back. -/
inductive Returns : Json ν → Prop where
  | null : Returns .null
  | bool (value : Bool) : Returns (.bool value)
  | number {valueInt : Int} {valueDouble : ν}
      (returns : NumberReturns doubles numeral valueInt valueDouble) :
      Returns (.number valueInt valueDouble)
  | string (valueString : CString) : Returns (.string valueString)
  | array {items : List (Json ν)} (each : ∀ item ∈ items, Returns item) : Returns (.array items)
  | object {members : List (CString × Json ν)} (each : ∀ member ∈ members, Returns member.2) :
      Returns (.object members)

end Trees

/-! ### Strings -/

theorem hexDigit_digit {value : Nat} (small : value < 16) :
    JsonText.HexDigit (hexDigit (UInt8.ofNat value)) value := by
  by_cases decimal : value < 10
  · have same : ∀ value < 10, hexDigit (UInt8.ofNat value) = UInt8.ofNat (48 + value) := by
      decide +kernel
    rw [same value decimal]
    exact .decimal value decimal
  · obtain ⟨rest, rfl⟩ := Nat.exists_eq_add_of_le (Nat.not_lt.mp decimal)
    have same : ∀ rest < 6, hexDigit (UInt8.ofNat (10 + rest)) = UInt8.ofNat (97 + rest) := by
      decide +kernel
    have below : rest < 6 := by omega
    rw [same rest below]
    exact .lower rest below

theorem utf8_ascii {code : Nat} (small : code < 128) : JsonText.utf8 code = [UInt8.ofNat code] := by
  have valid : code.isValidChar := Or.inl (by omega)
  unfold JsonText.utf8 String.utf8EncodeChar
  rw [ofNat_toNat valid]
  exact if_pos (Nat.le_of_lt_succ small)

theorem escape_number {char : UInt8} {text bytes : List UInt8} (control : char < 32)
    (rest : JsonText.StringBody text bytes) :
    JsonText.StringBody
      (asciiBytes "\\u00" ++ [hexDigit (char / 16), hexDigit (char % 16)] ++ text)
      (char :: bytes) := by
  have small : char.toNat < 32 := UInt8.lt_iff_toNat_lt.mp control
  have high : char / 16 = UInt8.ofNat (char.toNat / 16) := by
    apply UInt8.toNat_inj.mp
    rw [UInt8.toNat_div, UInt8.toNat_ofNat']
    exact (Nat.mod_eq_of_lt (show char.toNat / 16 < 2 ^ 8 by omega)).symm
  have low : char % 16 = UInt8.ofNat (char.toNat % 16) := by
    apply UInt8.toNat_inj.mp
    rw [UInt8.toNat_mod, UInt8.toNat_ofNat']
    exact (Nat.mod_eq_of_lt (show char.toNat % 16 < 2 ^ 8 by omega)).symm
  have zero : JsonText.HexDigit 48 0 := .decimal 0 (by decide)
  have hex : JsonText.Hex4 [48, 48, hexDigit (char / 16), hexDigit (char % 16)]
      (((0 * 16 + 0) * 16 + char.toNat / 16) * 16 + char.toNat % 16) := by
    rw [high, low]
    exact .digits zero zero (hexDigit_digit (by omega)) (hexDigit_digit (by omega))
  have codeEq : ((0 * 16 + 0) * 16 + char.toNat / 16) * 16 + char.toNat % 16 = char.toNat := by
    omega
  rw [codeEq] at hex
  have notHigh : ¬JsonText.HighSurrogate char.toNat := fun high => by
    have from55296 := high.1
    omega
  have notLow : ¬JsonText.LowSurrogate char.toNat := fun low => by
    have from56320 := low.1
    omega
  have spelled := JsonText.StringBody.unicode hex notHigh notLow rest
  rw [utf8_ascii (by omega), UInt8.ofNat_toNat] at spelled
  exact spelled

theorem escape_body {char : UInt8} {text bytes : List UInt8}
    (rest : JsonText.StringBody text bytes) :
    JsonText.StringBody (escape char ++ text) (char :: bytes) := by
  unfold escape
  by_cases quote : char = 34
  · rw [if_pos quote, quote]
    exact .short (by decide) rest
  rw [if_neg quote]
  by_cases backslash : char = 92
  · rw [if_pos backslash, backslash]
    exact .short (by decide) rest
  rw [if_neg backslash]
  by_cases backspace : char = 8
  · rw [if_pos backspace, backspace]
    exact .short (by decide) rest
  rw [if_neg backspace]
  by_cases formFeed : char = 12
  · rw [if_pos formFeed, formFeed]
    exact .short (by decide) rest
  rw [if_neg formFeed]
  by_cases newline : char = 10
  · rw [if_pos newline, newline]
    exact .short (by decide) rest
  rw [if_neg newline]
  by_cases carriage : char = 13
  · rw [if_pos carriage, carriage]
    exact .short (by decide) rest
  rw [if_neg carriage]
  by_cases tab : char = 9
  · rw [if_pos tab, tab]
    exact .short (by decide) rest
  rw [if_neg tab]
  by_cases control : char < 32
  · rw [if_pos control]
    exact escape_number control rest
  · rw [if_neg control]
    exact .plain (by simpa using control) quote backslash rest

theorem flatMap_escape_body (bytes : List UInt8) :
    JsonText.StringBody (bytes.flatMap escape) bytes := by
  induction bytes with
  | nil => exact .nil
  | cons char bytes ih => exact escape_body ih

theorem printString_quoted (text : CString) :
    printString text = JsonText.quoted (text.bytes.flatMap escape) := rfl

/-! ### Numbers -/

theorem decimalText_integer (value : Nat) : JsonText.IntegerPart (decimalText value) := by
  unfold decimalText
  by_cases zero : value = 0
  · rw [if_pos zero]
    exact Or.inl rfl
  rw [if_neg zero]
  have digitsNe : Nat.digits 10 value ≠ [] := Nat.digits_ne_nil_iff_ne_zero.mpr zero
  have digitOf : ∀ digit < 10, JsonText.IsDigit (UInt8.ofNat (48 + digit)) := by
    unfold JsonText.IsDigit
    decide
  right
  refine ⟨⟨?_, ?_⟩, ?_⟩
  · intro isEmpty
    exact digitsNe (List.reverse_eq_nil_iff.mp (List.map_eq_nil_iff.mp isEmpty))
  · intro char member
    obtain ⟨digit, inDigits, rfl⟩ := List.mem_map.mp member
    exact digitOf digit (Nat.digits_lt_base (by decide) (List.mem_reverse.mp inDigits))
  · -- the first character is the digit with the highest value, which is not 0
    have last := Nat.getLast_digit_ne_zero 10 zero
    have small : (Nat.digits 10 value).getLast digitsNe < 10 :=
      Nat.digits_lt_base (by decide) (List.getLast_mem digitsNe)
    have positive : ∀ digit < 10, digit ≠ 0 → UInt8.ofNat (48 + digit) ≠ 48 := by decide
    rw [List.head?_map, List.head?_reverse, List.getLast?_eq_some_getLast digitsNe,
      Option.map_some]
    exact fun same => positive _ small last (Option.some.inj same)

/-- What `%d` writes is a number token. -/
theorem intText_isNumber (value : Int) : JsonText.IsNumber (intText value) := by
  unfold intText
  have integer := decimalText_integer value.natAbs
  by_cases negative : value < 0
  · rw [if_pos negative]
    refine ⟨[45], decimalText value.natAbs, [], [], Or.inr rfl, integer, Or.inl rfl, Or.inl rfl, ?_⟩
    rw [List.append_nil, List.append_nil, List.singleton_append]
  · rw [if_neg negative]
    refine ⟨[], decimalText value.natAbs, [], [], Or.inl rfl, integer, Or.inl rfl, Or.inl rfl, ?_⟩
    rw [List.append_nil, List.append_nil, List.nil_append]

/-! ### Trees -/

section Denotes

variable {ν α β : Type} {doubles : Doubles ν} {numeral : List UInt8 → ν}

theorem noSpaces : JsonText.Spaces [] := fun _ impossible => absurd impossible List.not_mem_nil

/-- Joined texts are separated by commas. -/
theorem joined_separated {textOf : α → Option (List UInt8)} {convert : α → β}
    {part : β → List UInt8 → Prop} {items : List α} {inside : List UInt8}
    (each : ∀ item ∈ items, ∀ text, textOf item = some text → part (convert item) text)
    (notEmpty : items ≠ []) (textEq : joined (items.map textOf) = some inside) :
    JsonText.Separated part (items.map convert) inside := by
  induction items generalizing inside with
  | nil => exact absurd rfl notEmpty
  | cons item rest ih =>
      have one := each item List.mem_cons_self
      cases rest with
      | nil =>
          have spelled := JsonText.Separated.one noSpaces (one inside textEq) noSpaces
          rw [List.nil_append, List.append_nil] at spelled
          exact spelled
      | cons next rest =>
          rw [List.map_cons, List.map_cons, joined] at textEq
          obtain ⟨first, firstEq, more⟩ := Option.bind_eq_some_iff.mp textEq
          obtain ⟨others, othersEq, whole⟩ := Option.bind_eq_some_iff.mp more
          cases whole
          have later := ih (fun other member => each other (List.mem_cons_of_mem _ member))
            (List.cons_ne_nil _ _) othersEq
          exact JsonText.Separated.cons noSpaces (one first firstEq) noSpaces later

theorem joined_empty {textOf : α → Option (List UInt8)} {items : List α} {inside : List UInt8}
    (isEmpty : items = []) (textEq : joined (items.map textOf) = some inside) : inside = [] := by
  rw [isEmpty] at textEq
  exact (Option.some.inj textEq).symm

theorem scalar_denotes {levels : Nat} {item : Json ν} {text : List UInt8}
    (scalar : JsonText.Scalar (treeBuilder doubles) numeral item text) :
    JsonText.Denotes (treeBuilder doubles) numeral levels item text := by
  cases levels with
  | zero => exact scalar
  | succ levels => exact Or.inl scalar

theorem array_denotes {levels : Nat} {items : List (Json ν)} {text : List UInt8}
    (each : ∀ item ∈ items, ∀ text, jsonText doubles levels item = some text →
      JsonText.Denotes (treeBuilder doubles) numeral levels item text)
    (textEq : jsonText doubles (levels + 1) (.array items) = some text) :
    JsonText.Denotes (treeBuilder doubles) numeral (levels + 1) (.array items) text := by
  rw [jsonText] at textEq
  obtain ⟨inside, insideEq, rfl⟩ := Option.map_eq_some_iff.mp textEq
  right
  by_cases isEmpty : items = []
  · rw [joined_empty isEmpty insideEq, isEmpty]
    exact JsonText.Compound.emptyArray noSpaces
  · have separated : JsonText.Separated
        (JsonText.Denotes (treeBuilder doubles) numeral levels) (items.map id) inside :=
      joined_separated each isEmpty insideEq
    rw [List.map_id] at separated
    exact JsonText.Compound.array separated

theorem object_denotes {levels : Nat} {members : List (CString × Json ν)} {text : List UInt8}
    (each : ∀ member ∈ members, ∀ text, jsonText doubles levels member.2 = some text →
      JsonText.Denotes (treeBuilder doubles) numeral levels member.2 text)
    (textEq : jsonText doubles (levels + 1) (.object members) = some text) :
    JsonText.Denotes (treeBuilder doubles) numeral (levels + 1) (.object members) text := by
  rw [jsonText] at textEq
  obtain ⟨inside, insideEq, rfl⟩ := Option.map_eq_some_iff.mp textEq
  right
  by_cases isEmpty : members = []
  · rw [joined_empty isEmpty insideEq, isEmpty]
    exact JsonText.Compound.emptyObject noSpaces
  · have named : ∀ member ∈ members, ∀ text,
        ((jsonText doubles levels member.2).map fun text => printString member.1 ++ 58 :: text) =
          some text →
        JsonText.Member (JsonText.Denotes (treeBuilder doubles) numeral levels)
          (member.1.bytes, member.2) text := by
      intro member inMembers text textEq
      obtain ⟨valueText, valueEq, rfl⟩ := Option.map_eq_some_iff.mp textEq
      exact JsonText.Member.mk (flatMap_escape_body member.1.bytes) noSpaces noSpaces
        (each member inMembers valueText valueEq)
    have separated := joined_separated named isEmpty insideEq
    have same : Json.object members = (treeBuilder doubles).object
        (members.map fun member => (member.1.bytes, member.2)) := by
      unfold treeBuilder
      simp only [List.map_map, Function.comp_def, CString.ofBytes_bytes, Prod.mk.eta, List.map_id']
    rw [same]
    exact JsonText.Compound.object separated

/-- The text of a tree whose numbers come back denotes the tree. -/
theorem jsonText_denotes {levels : Nat} {item : Json ν} {text : List UInt8}
    (returns : Returns doubles numeral item) (textEq : jsonText doubles levels item = some text) :
    JsonText.Denotes (treeBuilder doubles) numeral levels item text := by
  induction returns generalizing levels text with
  | null =>
      rw [jsonText] at textEq
      cases textEq
      exact scalar_denotes .null
  | bool value =>
      cases value with
      | false =>
          rw [jsonText] at textEq
          cases textEq
          exact scalar_denotes .false
      | true =>
          rw [jsonText] at textEq
          cases textEq
          exact scalar_denotes .true
  | @number valueInt valueDouble returns =>
      obtain ⟨isNumber, sameDouble, sameInt⟩ := returns
      rw [jsonText] at textEq
      split at textEq
      · cases textEq
      · cases textEq
        have same : Json.number valueInt valueDouble = (treeBuilder doubles).number
            (numeral (numberText doubles valueInt valueDouble)) := by
          rw [sameDouble, ← sameInt]
          rfl
        rw [same]
        exact scalar_denotes (JsonText.Scalar.number isNumber)
  | string valueString =>
      rw [jsonText] at textEq
      cases textEq
      have same : Json.string valueString =
          (treeBuilder doubles).string valueString.bytes :=
        congrArg Json.string (CString.ofBytes_bytes valueString).symm
      rw [same]
      exact scalar_denotes (JsonText.Scalar.string (flatMap_escape_body valueString.bytes))
  | array _ ih =>
      cases levels with
      | zero => cases textEq
      | succ levels => exact array_denotes (fun item member _ => ih item member) textEq
  | object _ ih =>
      cases levels with
      | zero => cases textEq
      | succ levels => exact object_denotes (fun entry member _ => ih entry member) textEq

end Denotes

/-- Of what `cJSON_PrintUnformatted` returns for a tree whose numbers come back, `cJSON_Parse`
makes the same tree. -/
theorem cJSONParse_printed {ν : Type} {doubles : Doubles ν} {numeral : List UInt8 → ν}
    (exact : ∀ token, JsonText.IsNumber token →
      doubles.strtod token = some (numeral token, token.length))
    {memory : PrintMemory} {item : Json ν} (returns : Returns doubles numeral item)
    (printed : CString)
    (ran : cJSONPrintUnformatted doubles memory item = .ok printed.bytes) :
    cJSONParse doubles printed = .ok item := by
  have textEq := (cJSONPrintUnformatted_yields doubles memory item).of_ok ran
  have whole : printed.bytes = [] ++ ([] ++ (printed.bytes ++ [])) := by
    rw [List.append_nil, List.nil_append, List.nil_append]
  exact cJSONParse_denoted exact (Nat.le_refl _) printed whole (Or.inl rfl) noSpaces
    (jsonText_denotes returns textEq) fun _ impossible => nomatch impossible

/-- `{"k":[12,"a\n"]}`. -/
def printedTree : Json Nat :=
  .object
    [(CString.ofBytes [107], .array [.number 12 12, .string (CString.ofBytes [97, 10])])]

def grantingMemory : PrintMemory where
  allocates := true
  reallocate := fun _ => true
  shrinks := true

theorem printedTree_text :
    jsonText wholeDoubles nestingLimit printedTree =
      some (asciiBytes "\x7b\"k\":[12,\"a\\n\"]\x7d") := by
  rfl

theorem printedTree_returns : Returns wholeDoubles decimalValue printedTree := by
  have twelve : numberText wholeDoubles 12 12 = intText 12 := by rfl
  have number : Returns wholeDoubles decimalValue (.number 12 12) := by
    apply Returns.number
    unfold NumberReturns
    rw [twelve]
    exact ⟨intText_isNumber 12, by rfl, rfl⟩
  apply Returns.object
  intro member inMembers
  rw [List.mem_singleton.mp inMembers]
  apply Returns.array
  intro item inItems
  simp only [List.mem_cons, List.not_mem_nil, or_false] at inItems
  rcases inItems with rfl | rfl
  · exact number
  · exact Returns.string _

theorem cJSONParse_printed_tree :
    cJSONParse wholeDoubles (CString.ofBytes (asciiBytes "\x7b\"k\":[12,\"a\\n\"]\x7d")) =
      .ok printedTree := by
  have grants : grantingMemory.Grants := ⟨rfl, fun _ => rfl, rfl⟩
  have ran := cJSONPrintUnformatted_granted printedTree_text grants (by decide)
  exact cJSONParse_printed wholeDoubles_exact printedTree_returns _ ran

end OriginDb
