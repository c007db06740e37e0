/-
The parser stays inside its buffers.

For any C string no byte outside the text and its NUL is read, no byte outside the
allocation of a string is written, and every loop ends.  The allocation of a string counts
one byte for each character or escape up to the closing quote.  A sequence `\u` with four
characters that are no digits is taken for the character 0, so the second loop may find
the escapes at other places than the first one; it never finds more of them.
-/

import OriginDb.Foundation.Outcome
import OriginDb.JsonParser

namespace OriginDb

open Foundation

/-- The outcome meets `post` or refuses the text. -/
abbrev Stays {α : Type} (outcome : Except ParseStop α) (post : α → Prop) : Prop :=
  Outcome.Yields (fun stop => stop = .refused) outcome post

section Rules

variable {α : Type} {outcome : Except ParseStop α} {post : α → Prop}

theorem stays_refused : Stays (.error .refused : Except ParseStop α) post :=
  Outcome.Yields.error rfl

/-- A test that refuses the text. -/
theorem stays_guard {condition : Prop} [Decidable condition]
    (passed : ¬condition → Stays outcome post) :
    Stays (if condition then .error .refused else outcome) post :=
  Outcome.Yields.ite (fun _ => stays_refused) passed

end Rules

section Content

variable {content : List UInt8}

/-! ### Reads -/

theorem byteAt_stays {index : Nat} (inside : index < content.length) :
    Stays (byteAt content index) fun char => content[index]? = some char := by
  rw [byteAt, List.getElem?_eq_getElem inside]
  rfl

theorem lt_length_of_getElem? {index : Nat} {char : UInt8}
    (found : content[index]? = some char) : index < content.length :=
  (List.getElem?_eq_some_iff.mp found).1

theorem le_skipWhitespace (content : List UInt8) (offset : Nat) :
    offset ≤ skipWhitespace content offset := by
  unfold skipWhitespace
  split
  · exact Nat.le_refl _
  · dsimp only
    split <;> omega

theorem skipWhitespace_le {offset : Nat} (inside : offset ≤ content.length) :
    skipWhitespace content offset ≤ content.length := by
  have skipped := (List.takeWhile_prefix (fun char : UInt8 => decide (char ≤ 32))
    (l := content.drop offset)).length_le
  rw [List.length_drop] at skipped
  unfold skipWhitespace
  split
  · exact inside
  · dsimp only
    split <;> omega

theorem skipWhitespace_lt {offset : Nat} (inside : offset < content.length) :
    skipWhitespace content offset < content.length := by
  have within := skipWhitespace_le (Nat.le_of_lt inside)
  unfold skipWhitespace at within ⊢
  rw [if_neg (Nat.not_le.mpr inside)] at within ⊢
  dsimp only at within ⊢
  split
  · omega
  · rename_i notEnd
    rw [if_neg notEnd] at within
    exact Nat.lt_of_le_of_ne within notEnd

/-- The digits are read inside the content; where the number is not 0 there are only digits. -/
theorem parseHex_stays {more index code : Nat} (inside : index + more ≤ content.length) :
    Stays (parseHex content more index code) fun value =>
      value = 0 ∨ ∀ place < more, ∃ char, content[index + place]? = some char ∧ char ≠ 92 := by
  induction more generalizing index code with
  | zero => exact Or.inr fun place impossible => absurd impossible (Nat.not_lt_zero place)
  | succ more ih =>
      apply (byteAt_stays (by omega)).bind
      intro char atIndex
      cases isDigit : hexDigitValue char with
      | none => exact Or.inl rfl
      | some digit =>
          apply (ih (by omega)).imp
          intro value known
          refine known.imp_right fun later place below => ?_
          cases place with
          | zero =>
              refine ⟨char, atIndex, ?_⟩
              intro backslash
              rw [backslash] at isDigit
              cases isDigit
          | succ place =>
              have found := later place (Nat.lt_of_succ_lt_succ below)
              rw [Nat.add_assoc, Nat.add_comm 1 place] at found
              exact found

/-! ### The size of a string -/

/-- Characters and escapes, as the first loop counts them. -/
def tokens : List UInt8 → Nat
  | [] => 0
  | [_] => 1
  | char :: next :: rest => if char = 92 then 1 + tokens rest else 1 + tokens (next :: rest)

theorem tokens_escape (escape : UInt8) (rest : List UInt8) :
    tokens (92 :: escape :: rest) = 1 + tokens rest := by
  rw [tokens, if_pos rfl]

theorem tokens_plain {char : UInt8} (plain : char ≠ 92) (rest : List UInt8) :
    tokens (char :: rest) = 1 + tokens rest := by
  cases rest with
  | nil => rfl
  | cons next rest => rw [tokens, if_neg plain]

/-- A character in front never makes it fewer. -/
theorem tokens_le_cons (char : UInt8) (rest : List UInt8) :
    tokens rest ≤ tokens (char :: rest) := by
  induction rest using tokens.induct generalizing char with
  | case1 => exact Nat.zero_le _
  | case2 last =>
      by_cases backslash : char = 92
      · rw [backslash, tokens_escape]
        exact Nat.le_refl 1
      · rw [tokens_plain backslash]
        exact Nat.le_add_left _ _
  | case3 next rest ih =>
      by_cases backslash : char = 92
      · rw [backslash, tokens_escape, tokens_escape]
        exact Nat.add_le_add_left (ih next) 1
      · rw [tokens_plain backslash]
        exact Nat.le_add_left _ _
  | case4 first next rest plain ih =>
      by_cases backslash : char = 92
      · rw [backslash, tokens_escape, tokens_plain plain]
      · rw [tokens_plain backslash]
        exact Nat.le_add_left _ _

theorem tokens_drop_le (text : List UInt8) (count : Nat) :
    tokens (text.drop count) ≤ tokens text := by
  induction count generalizing text with
  | zero => exact Nat.le_refl _
  | succ count ih =>
      cases text with
      | nil => exact Nat.le_refl _
      | cons char rest => exact Nat.le_trans (ih rest) (tokens_le_cons char rest)

/-- The bytes from one position up to another. -/
def between (content : List UInt8) (low high : Nat) : List UInt8 :=
  (content.drop low).take (high - low)

theorem between_nil {low high : Nat} (reached : high ≤ low) : between content low high = [] := by
  rw [between, Nat.sub_eq_zero_of_le reached, List.take_zero]

theorem between_cons {low high : Nat} {char : UInt8} (below : low < high)
    (atLow : content[low]? = some char) :
    between content low high = char :: between content (low + 1) high := by
  obtain ⟨inside, rfl⟩ := List.getElem?_eq_some_iff.mp atLow
  have lengthEq : high - low = high - (low + 1) + 1 := by omega
  rw [between, between, List.drop_eq_getElem_cons inside, lengthEq, List.take_succ_cons]

theorem between_escape {low high : Nat} {escape : UInt8} (below : low + 1 < high)
    (backslash : content[low]? = some 92) (next : content[low + 1]? = some escape) :
    between content low high = 92 :: escape :: between content (low + 2) high := by
  rw [between_cons (by omega) backslash, between_cons below next]

theorem between_drop (low high count : Nat) :
    (between content low high).drop count = between content (low + count) high := by
  rw [between, between, List.drop_take, List.drop_drop, Nat.sub_sub]

theorem tokens_between_plain {low high count : Nat} (below : low + count ≤ high)
    (plain : ∀ place < count, ∃ char, content[low + place]? = some char ∧ char ≠ 92) :
    tokens (between content low high) = count + tokens (between content (low + count) high) := by
  induction count generalizing low with
  | zero => rw [Nat.zero_add, Nat.add_zero]
  | succ count ih =>
      obtain ⟨char, atLow, notBackslash⟩ := plain 0 (Nat.succ_pos count)
      rw [Nat.add_zero] at atLow
      have later : ∀ place < count,
          ∃ char, content[low + 1 + place]? = some char ∧ char ≠ 92 := by
        intro place inCount
        have found := plain (place + 1) (Nat.succ_lt_succ inCount)
        rw [show low + 1 + place = low + (place + 1) by omega]
        exact found
      have rest := ih (by omega) later
      rw [between_cons (by omega) atLow, tokens_plain notBackslash, rest,
        show low + 1 + count = low + (count + 1) by omega]
      omega

/-- The first loop stops in front of a quote, and has counted one backslash for each escape. -/
theorem scanString_stays {fuel inputEnd skippedBytes : Nat} (within : inputEnd ≤ content.length)
    (enough : content.length < inputEnd + fuel) :
    Stays (scanString content fuel inputEnd skippedBytes) fun found =>
      inputEnd ≤ found.1 ∧ found.1 < content.length ∧
        tokens (between content inputEnd found.1) + found.2 =
          found.1 - inputEnd + skippedBytes := by
  induction fuel generalizing inputEnd skippedBytes with
  | zero => omega
  | succ fuel ih =>
      refine Outcome.Yields.ite (fun inside => ?_) fun _ => stays_refused
      apply (byteAt_stays inside).bind
      intro char atEnd
      refine Outcome.Yields.ite (fun quote => ?_) fun notQuote => ?_
      · refine ⟨Nat.le_refl _, inside, ?_⟩
        rw [between_nil (Nat.le_refl _), Nat.sub_self]
        rfl
      · refine Outcome.Yields.ite (fun backslash => ?_) fun notBackslash => ?_
        · apply stays_guard
          intro notLast
          have nextInside : inputEnd + 1 < content.length := Nat.not_le.mp notLast
          rw [backslash] at atEnd
          apply (ih (by omega) (by omega)).imp
          intro found scanned
          obtain ⟨beyond, foundInside, counted⟩ := scanned
          refine ⟨by omega, foundInside, ?_⟩
          rw [between_escape (by omega) atEnd (List.getElem?_eq_getElem nextInside),
            tokens_escape]
          omega
        · apply (ih (by omega) (by omega)).imp
          intro found scanned
          obtain ⟨beyond, foundInside, counted⟩ := scanned
          refine ⟨by omega, foundInside, ?_⟩
          rw [between_cons (by omega) atEnd, tokens_plain notBackslash]
          omega

/-! ### The bytes of an escape -/

theorem utf8Tail_length (position codepoint : Nat) (output : List UInt8) :
    (utf8Tail position codepoint output).2.length = position + output.length := by
  induction position generalizing codepoint output with
  | zero => exact (Nat.zero_add _).symm
  | succ position ih =>
      rw [utf8Tail, ih, List.length_cons]
      omega

theorem utf8Bytes_length {utf8Length : Nat} (positive : 0 < utf8Length)
    (firstByteMark codepoint : Nat) :
    (utf8Bytes utf8Length firstByteMark codepoint).length = utf8Length := by
  unfold utf8Bytes
  dsimp only
  rw [List.length_cons, utf8Tail_length, List.length_nil]
  omega

/-- One byte for a character below 128, never more than four. -/
theorem utf8OfCodepoint_length {codepoint : Nat} {bytes : List UInt8}
    (encoded : utf8OfCodepoint codepoint = some bytes) :
    bytes.length ≤ 4 ∧ (codepoint = 0 → bytes.length = 1) := by
  unfold utf8OfCodepoint at encoded
  split at encoded
  · cases encoded
    rw [utf8Bytes_length (by omega)]
    omega
  · split at encoded
    · cases encoded
      rw [utf8Bytes_length (by omega)]
      omega
    · split at encoded
      · cases encoded
        rw [utf8Bytes_length (by omega)]
        omega
      · split at encoded
        · cases encoded
          rw [utf8Bytes_length (by omega)]
          omega
        · cases encoded

/-- An escape writes no more than the first loop has counted for what it uses up. -/
def PaysFor (content : List UInt8) (inputPointer inputEnd : Nat) (step : List UInt8 × Nat) : Prop :=
  0 < step.2 ∧
    step.1.length + tokens (between content (inputPointer + step.2) inputEnd) ≤
      tokens (between content inputPointer inputEnd)

section Escape

variable {inputPointer inputEnd : Nat}

/-- Past a `\u` and what stands there for its digits. -/
theorem tokens_between_six {char : UInt8} (six : inputPointer + 6 ≤ inputEnd)
    (backslash : content[inputPointer]? = some 92) (letter : content[inputPointer + 1]? = some char) :
    tokens (between content (inputPointer + 6) inputEnd) + 1 ≤
      tokens (between content inputPointer inputEnd) := by
  have later := tokens_drop_le (between content (inputPointer + 2) inputEnd) 4
  rw [between_drop, show inputPointer + 2 + 4 = inputPointer + 6 from rfl] at later
  rw [between_escape (by omega) backslash letter, tokens_escape]
  omega

theorem tokens_between_digits {char : UInt8} (six : inputPointer + 6 ≤ inputEnd)
    (backslash : content[inputPointer]? = some 92) (letter : content[inputPointer + 1]? = some char)
    (digits : ∀ place < 4, ∃ digit, content[inputPointer + 2 + place]? = some digit ∧ digit ≠ 92) :
    tokens (between content inputPointer inputEnd) =
      tokens (between content (inputPointer + 6) inputEnd) + 5 := by
  rw [between_escape (by omega) backslash letter, tokens_escape,
    tokens_between_plain (by omega) digits, show inputPointer + 2 + 4 = inputPointer + 6 from rfl]
  omega

theorem utf16LiteralToUtf8_stays (short : inputPointer + 1 < inputEnd)
    (inside : inputEnd < content.length) (backslash : content[inputPointer]? = some 92)
    (letter : content[inputPointer + 1]? = some 117) :
    Stays (utf16LiteralToUtf8 content inputPointer inputEnd)
      (PaysFor content inputPointer inputEnd) := by
  apply stays_guard
  intro six
  have sixInside : inputPointer + 6 ≤ inputEnd := by omega
  have general := tokens_between_six sixInside backslash letter
  apply (parseHex_stays (by omega)).bind
  intro firstCode firstDigits
  apply stays_guard
  intro _
  refine Outcome.Yields.ite (fun high => ?_) fun _ => ?_
  · apply stays_guard
    intro twelve
    have firstFour := tokens_between_digits sixInside backslash letter
      (firstDigits.resolve_left (by omega))
    apply (byteAt_stays (by omega)).bind
    intro second atSecond
    apply stays_guard
    intro isBackslash
    apply (byteAt_stays (by omega)).bind
    intro third atThird
    apply stays_guard
    intro _
    apply (parseHex_stays (by omega)).bind
    intro secondCode secondDigits
    apply stays_guard
    intro low
    rw [not_not.mp isBackslash] at atSecond
    have secondFour := tokens_between_digits (show inputPointer + 6 + 6 ≤ inputEnd by omega) atSecond atThird
      (secondDigits.resolve_left (by omega))
    cases encoded : utf8OfCodepoint
        (0x10000 + (((firstCode &&& 0x3FF) <<< 10) ||| (secondCode &&& 0x3FF))) with
    | none => exact stays_refused
    | some bytes =>
        have few := (utf8OfCodepoint_length encoded).1
        refine ⟨Nat.succ_pos _, ?_⟩
        rw [show inputPointer + 6 + 6 = inputPointer + 12 from rfl] at secondFour
        dsimp only
        omega
  · cases encoded : utf8OfCodepoint firstCode with
    | none => exact stays_refused
    | some bytes =>
        obtain ⟨few, one⟩ := utf8OfCodepoint_length encoded
        refine ⟨Nat.succ_pos _, ?_⟩
        dsimp only
        rcases firstDigits with zero | digits
        · rw [one zero]
          omega
        · have firstFour := tokens_between_digits sixInside backslash letter digits
          omega

theorem unescapeNext_stays (below : inputPointer < inputEnd) (inside : inputEnd < content.length) :
    Stays (unescapeNext content inputEnd inputPointer)
      (PaysFor content inputPointer inputEnd) := by
  apply (byteAt_stays (by omega)).bind
  intro char atPointer
  refine Outcome.Yields.ite (fun plain => ?_) fun isBackslash => ?_
  · refine ⟨Nat.one_pos, ?_⟩
    rw [between_cons below atPointer, tokens_plain plain]
    exact Nat.le_refl _
  · rw [not_not.mp isBackslash] at atPointer
    apply (byteAt_stays (by omega)).bind
    intro escape atNext
    -- the backslash may be the last character in front of the quote
    have paysTwo : PaysFor content inputPointer inputEnd ([escape], 2) := by
      refine ⟨Nat.succ_pos _, ?_⟩
      dsimp only
      by_cases last : inputPointer + 1 < inputEnd
      · rw [between_escape last atPointer atNext, tokens_escape]
        exact Nat.le_refl _
      · rw [between_cons below atPointer, between_nil (by omega), between_nil (by omega)]
        exact Nat.le_refl _
    cases short : shortEscape escape with
    | some char => exact paysTwo
    | none =>
        refine Outcome.Yields.ite (fun letter => ?_) fun _ => stays_refused
        by_cases last : inputPointer + 1 < inputEnd
        · rw [letter] at atNext
          exact utf16LiteralToUtf8_stays last inside atPointer atNext
        · unfold utf16LiteralToUtf8
          rw [if_pos (by omega)]
          exact stays_refused

/-- The second loop has room for all it writes. -/
theorem unescape_stays {fuel room : Nat} (inside : inputEnd < content.length)
    (positive : 0 < fuel) (enough : inputEnd < inputPointer + fuel)
    (paid : tokens (between content inputPointer inputEnd) < room) :
    Stays (unescape content inputEnd fuel inputPointer room) fun _ => True := by
  induction fuel generalizing inputPointer room with
  | zero => omega
  | succ fuel ih =>
      refine Outcome.Yields.ite (fun below => ?_) fun _ => ?_
      · apply (unescapeNext_stays below inside).bind
        intro step pays
        obtain ⟨forward, cost⟩ := pays
        refine Outcome.Yields.ite (fun tooMuch => ?_) fun fits => ?_
        · omega
        · apply (ih (by omega) (by omega) (by omega)).bind
          intro rest _
          trivial
      · refine Outcome.Yields.ite (fun noRoom => ?_) fun _ => trivial
        omega

end Escape

/-! ### Moving forward -/

/-- What has been read ends behind its start, inside the content. -/
def Moves {α : Type} (content : List UInt8) (offset : Nat) (found : α × Nat) : Prop :=
  offset < found.2 ∧ found.2 ≤ content.length

theorem parseString_stays {offset : Nat} (inside : offset < content.length) :
    Stays (parseString content offset) (Moves content offset) := by
  apply (byteAt_stays inside).bind
  intro char atOffset
  apply stays_guard
  intro _
  apply (scanString_stays (by omega) (by omega)).bind
  intro found scanned
  obtain ⟨beyond, foundInside, counted⟩ := scanned
  have room : tokens (between content (offset + 1) found.1) < found.1 - offset - found.2 + 1 := by
    omega
  apply (unescape_stays foundInside (by omega) (by omega) room).bind
  intro output _
  exact ⟨Nat.lt_succ_of_lt beyond, foundInside⟩

variable {ν α : Type} {offset : Nat}

theorem parseNumber_stays (doubles : Doubles ν) :
    Stays (parseNumber content doubles offset) (Moves content offset) := by
  unfold parseNumber
  cases converted : doubles.strtod ((content.drop offset).takeWhile isNumberChar) with
  | none => exact stays_refused
  | some found =>
      obtain ⟨number, used⟩ := found
      obtain ⟨positive, withinText⟩ := doubles.strtod_used _ _ _ converted
      have withinContent := (List.takeWhile_prefix isNumberChar (l := content.drop offset)).length_le
      rw [List.length_drop] at withinContent
      exact ⟨Nat.lt_add_of_pos_right positive, by dsimp only; omega⟩

theorem parseSequence_stays {one : Nat → Except ParseStop (α × Nat)}
    (oneStays : ∀ offset < content.length, Stays (one offset) (Moves content offset)) {fuel : Nat}
    (inside : offset < content.length) (enough : content.length < offset + fuel) :
    Stays (parseSequence content one fuel offset) (Moves content offset) := by
  induction fuel generalizing offset with
  | zero => omega
  | succ fuel ih =>
      apply (oneStays offset inside).bind
      intro found moves
      obtain ⟨forward, within⟩ := moves
      refine Outcome.Yields.ite (fun comma => ?_) fun _ => ⟨forward, within⟩
      apply (ih (lt_length_of_getElem? comma) (by omega)).bind
      intro rest later
      exact ⟨Nat.lt_trans forward later.1, later.2⟩

theorem parseBrackets_stays {opening closing : UInt8} {one : Nat → Except ParseStop (α × Nat)}
    (oneStays : ∀ offset < content.length, Stays (one offset) (Moves content offset))
    (inside : offset < content.length) :
    Stays (parseBrackets content opening closing one offset) (Moves content offset) := by
  have forward := le_skipWhitespace content (offset + 1)
  apply (byteAt_stays inside).bind
  intro char _
  apply stays_guard
  intro _
  refine Outcome.Yields.ite (fun closed => ?_) fun _ => ?_
  · exact ⟨by dsimp only; omega, lt_length_of_getElem? closed⟩
  · apply stays_guard
    intro startInside
    apply (parseSequence_stays oneStays (by omega) (by omega)).bind
    intro found moves
    apply stays_guard
    intro closed
    have last := moves.1
    exact ⟨by dsimp only; omega, lt_length_of_getElem? (not_not.mp closed)⟩

section Parts

variable {parseItem : Nat → Except ParseStop (Json ν × Nat)}
  (itemStays : ∀ offset ≤ content.length, Stays (parseItem offset) (Moves content offset))
include itemStays

theorem parseElement_stays (inside : offset < content.length) :
    Stays (parseElement content parseItem offset) (Moves content offset) := by
  have front := le_skipWhitespace content (offset + 1)
  have next : offset + 1 ≤ content.length := inside
  apply (itemStays _ (skipWhitespace_le next)).bind
  intro found moves
  have back := le_skipWhitespace content found.2
  have read := moves.1
  exact ⟨by dsimp only; omega, skipWhitespace_le moves.2⟩

theorem parseMember_stays :
    Stays (parseMember content parseItem offset) (Moves content offset) := by
  apply stays_guard
  intro more
  have front := le_skipWhitespace content (offset + 1)
  apply (parseString_stays (skipWhitespace_lt (Nat.not_le.mp more))).bind
  intro name named
  have between := le_skipWhitespace content name.2
  apply stays_guard
  intro colon
  have colonInside : skipWhitespace content name.2 + 1 ≤ content.length :=
    lt_length_of_getElem? (not_not.mp colon)
  have behind := le_skipWhitespace content (skipWhitespace content name.2 + 1)
  apply (itemStays _ (skipWhitespace_le colonInside)).bind
  intro found moves
  have back := le_skipWhitespace content found.2
  have read := moves.1
  have nameRead := named.1
  exact ⟨by dsimp only; omega, skipWhitespace_le moves.2⟩

end Parts

theorem parseValueWith_stays (doubles : Doubles ν)
    {array object : Nat → Except ParseStop (Json ν × Nat)}
    (arrayStays : ∀ offset < content.length, Stays (array offset) (Moves content offset))
    (objectStays : ∀ offset < content.length, Stays (object offset) (Moves content offset)) :
    Stays (parseValueWith content doubles array object offset) (Moves content offset) := by
  have word : ∀ {text : List UInt8} {length : Nat}, (content.drop offset).take length = text →
      0 < length → text.length = length → offset + length ≤ content.length := by
    intro text length found positive textLength
    have lengthEq := congrArg List.length found
    rw [List.length_take, List.length_drop, textLength] at lengthEq
    omega
  refine Outcome.Yields.ite (fun found => ?_) fun _ => ?_
  · exact ⟨Nat.lt_add_of_pos_right (by decide), word found (by decide) (by decide)⟩
  · refine Outcome.Yields.ite (fun found => ?_) fun _ => ?_
    · exact ⟨Nat.lt_add_of_pos_right (by decide), word found (by decide) (by decide)⟩
    · refine Outcome.Yields.ite (fun found => ?_) fun _ => ?_
      · exact ⟨Nat.lt_add_of_pos_right (by decide), word found (by decide) (by decide)⟩
      · cases atOffset : content[offset]? with
        | none => exact stays_refused
        | some char =>
            have inside := lt_length_of_getElem? atOffset
            refine Outcome.Yields.ite (fun _ => ?_) fun _ => ?_
            · exact (parseString_stays inside).bind fun found moves => moves
            · refine Outcome.Yields.ite (fun _ => parseNumber_stays doubles) fun _ => ?_
              refine Outcome.Yields.ite (fun _ => arrayStays offset inside) fun _ => ?_
              exact Outcome.Yields.ite (fun _ => objectStays offset inside) fun _ => stays_refused

/-- A value that is accepted ends behind its start, at any depth. -/
theorem parseValue_stays (doubles : Doubles ν) (levels : Nat) :
    Stays (parseValue content doubles levels offset) (Moves content offset) := by
  induction levels generalizing offset with
  | zero =>
      exact parseValueWith_stays doubles (fun _ _ => stays_refused) fun _ _ => stays_refused
  | succ levels ih =>
      refine parseValueWith_stays doubles (fun start inside => ?_) fun start inside => ?_
      · refine (parseBrackets_stays (fun _ within => ?_) inside).bind fun found moves => moves
        exact parseElement_stays (fun _ _ => ih) within
      · refine (parseBrackets_stays (fun _ within => ?_) inside).bind fun found moves => moves
        exact parseMember_stays (fun _ _ => ih)

end Content

end OriginDb
