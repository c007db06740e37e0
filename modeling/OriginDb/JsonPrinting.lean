/-
The printer writes the text of a tree, inside its buffer.

`jsonText` says what the text of a tree is.  Whatever the outcomes of the allocations are, the
printer returns this text or NULL, and it returns NULL only for a reason: there is no text, a
block was not granted, or the text is too long for an `int`.
-/

import OriginDb.Foundation.Outcome
import OriginDb.JsonPrinter

namespace OriginDb

open Foundation

section Text

variable {ν : Type} (doubles : Doubles ν)

/-- Texts with commas between them, if there are all of them. -/
def joined : List (Option (List UInt8)) → Option (List UInt8)
  | [] => some []
  | [text] => text
  | text :: next :: rest => do
      let first ← text
      let others ← joined (next :: rest)
      some (first ++ 44 :: others)

def inBrackets (opening closing : UInt8) (inside : List UInt8) : List UInt8 :=
  opening :: (inside ++ [closing])

/-- The text of a tree that is not too deep and whose numbers are not too long. -/
def jsonText : Nat → Json ν → Option (List UInt8)
  | _, .null => some (asciiBytes "null")
  | _, .bool false => some (asciiBytes "false")
  | _, .bool true => some (asciiBytes "true")
  | _, .number valueInt valueDouble =>
      if 25 < (numberText doubles valueInt valueDouble).length then none
      else some (numberText doubles valueInt valueDouble)
  | _, .string valueString => some (printString valueString)
  | 0, .array _ => none
  | 0, .object _ => none
  | levels + 1, .array items => (joined (items.map (jsonText levels))).map (inBrackets 91 93)
  | levels + 1, .object members =>
      (joined (members.map fun member =>
        (jsonText levels member.2).map fun text => printString member.1 ++ 58 :: text)).map
          (inBrackets 123 125)

end Text

/-! ### What a buffer holds -/

namespace PrintBuffer

/-- The buffer holds the text up to its offset and is not full. -/
def Holds (buffer : PrintBuffer) (text : List UInt8) : Prop :=
  buffer.offset = text.length ∧ text.map some <+: buffer.cells ∧ text.length < buffer.cells.length

/-- The offset has moved behind the new text. -/
def Appended (buffer : PrintBuffer) (before text : List UInt8) : Prop :=
  (0 : UInt8) ∉ text ∧ Holds buffer (before ++ text)

/-- The new text stands with its NUL behind the old one, the offset is somewhere in it. -/
def Ended (buffer : PrintBuffer) (before text : List UInt8) : Prop :=
  (0 : UInt8) ∉ text ∧ (before ++ text ++ [0]).map some <+: buffer.cells ∧
    before.length ≤ buffer.offset ∧ buffer.offset ≤ (before ++ text).length

theorem fresh_holds {size : Nat} (positive : 0 < size) : (fresh size).Holds [] :=
  ⟨rfl, List.nil_prefix, Nat.lt_of_lt_of_eq positive List.length_replicate.symm⟩

theorem write_prefix {buffer : PrintBuffer} {text bytes : List UInt8}
    (part : text.map some <+: buffer.cells)
    (room : text.length + bytes.length ≤ buffer.cells.length) :
    ∃ after, buffer.write text.length bytes = .ok after ∧ after.offset = buffer.offset ∧
      (text ++ bytes).map some <+: after.cells ∧ after.cells.length = buffer.cells.length := by
  obtain ⟨rest, cellsEq⟩ := part
  have taken : buffer.cells.take text.length = text.map some := by
    rw [← cellsEq]
    exact List.take_left' (List.length_map _)
  refine ⟨_, if_pos room, rfl, ?_, ?_⟩
  · rw [List.map_append, taken]
    exact List.prefix_append _ _
  · simp only [taken, List.length_append, List.length_map, List.length_drop]
    omega

theorem textOf_text {text : List UInt8} (nulFree : (0 : UInt8) ∉ text) (rest : List (Option UInt8)) :
    PrintBuffer.textOf (text.map some ++ some 0 :: rest) = .ok text := by
  induction text with
  | nil => rfl
  | cons char text ih =>
      have notNul : char ≠ 0 := fun zero => nulFree (zero ▸ List.mem_cons_self)
      have later := ih fun member => nulFree (List.mem_cons_of_mem _ member)
      rw [List.map_cons, List.cons_append, PrintBuffer.textOf, if_neg notNul, later]
      rfl

/-- `update_offset` moves behind the new text. -/
theorem updateOffset_ended {buffer : PrintBuffer} {before text : List UInt8}
    (ended : Ended buffer before text) :
    ∃ after, buffer.updateOffset = .ok after ∧ Appended after before text ∧
      after.cells = buffer.cells := by
  obtain ⟨nulFree, ⟨rest, cellsEq⟩, low, high⟩ := ended
  have offsetEq : buffer.offset = before.length + (buffer.offset - before.length) := by omega
  have left : buffer.cells.drop buffer.offset =
      (text.drop (buffer.offset - before.length)).map some ++ some 0 :: rest := by
    rw [List.length_append] at high
    rw [← cellsEq, offsetEq, ← List.drop_drop]
    simp only [List.map_append, List.append_assoc]
    rw [List.drop_left' (List.length_map _), List.drop_append_of_le_length (by
      rw [List.length_map]
      omega), ← List.map_drop, Nat.add_sub_cancel_left]
    rfl
  have read := textOf_text
    (fun member => nulFree (List.mem_of_mem_drop member) : (0 : UInt8) ∉
      text.drop (buffer.offset - before.length)) rest
  have moved : buffer.updateOffset =
      .ok { buffer with
        offset := buffer.offset + (text.drop (buffer.offset - before.length)).length } := by
    rw [PrintBuffer.updateOffset, left, read]
    rfl
  refine ⟨_, moved, ⟨nulFree, ?_, ?_, ?_⟩, rfl⟩
  · rw [List.length_append] at high
    simp only [List.length_drop, List.length_append]
    omega
  · have apart : (before ++ text ++ [0]).map some = (before ++ text).map some ++ [some 0] :=
      List.map_append
    rw [← cellsEq, apart, List.append_assoc]
    exact List.prefix_append _ _
  · rw [← cellsEq]
    simp only [List.length_append, List.length_map, List.length_singleton]
    omega

end PrintBuffer

/-! ### What a printer does -/

/-- Every `realloc` succeeds. -/
def Grants (reallocate : Nat → Bool) : Prop := ∀ size, reallocate size = true

section Printers

variable {reallocate : Nat → Bool} {post after : PrintBuffer → List UInt8 → List UInt8 → Prop}
  {first second : PrintBuffer → Except PrintStop PrintBuffer} {front back text : Option (List UInt8)}

/-- The printer writes the text, or refuses for a reason. -/
def Prints (reallocate : Nat → Bool) (printer : PrintBuffer → Except PrintStop PrintBuffer)
    (text : Option (List UInt8)) (post : PrintBuffer → List UInt8 → List UInt8 → Prop) : Prop :=
  ∀ buffer before, buffer.Holds before →
    Outcome.Yields
      (fun stop => stop = .refused ∧ ∀ new, text = some new →
        ¬(Grants reallocate ∧ (before ++ new).length + 2 ≤ intMax))
      (printer buffer) fun after => ∃ new, text = some new ∧ post after before new

theorem Prints.refused : Prints reallocate (fun _ => .error .refused) none post :=
  fun _ _ _ => ⟨rfl, fun _ impossible => nomatch impossible⟩

theorem Prints.imp (prints : Prints reallocate first text post)
    (weaken : ∀ buffer before new, post buffer before new → after buffer before new) :
    Prints reallocate first text after := by
  intro buffer before holds
  apply (prints buffer before holds).imp
  intro written known
  obtain ⟨new, textEq, reached⟩ := known
  exact ⟨new, textEq, weaken _ _ _ reached⟩

/-- One printer after the other. -/
theorem Prints.bind (prints : Prints reallocate first front PrintBuffer.Appended)
    (next : Prints reallocate second back post)
    (joined : ∀ buffer before old new, (0 : UInt8) ∉ old → post buffer (before ++ old) new →
      post buffer before (old ++ new)) :
    Prints reallocate (fun buffer => first buffer >>= second)
      (front.bind fun old => back.map fun new => old ++ new) post := by
  intro buffer before holds
  have ran := prints buffer before holds
  change Outcome.Yields _ (first buffer >>= second) _
  cases moved : first buffer with
  | error stop =>
      rw [moved] at ran
      change _ ∧ _
      refine ⟨ran.1, ?_⟩
      intro new textEq enough
      obtain ⟨old, frontEq, more⟩ := Option.bind_eq_some_iff.mp textEq
      obtain ⟨last, -, rfl⟩ := Option.map_eq_some_iff.mp more
      apply ran.2 old frontEq
      simp only [List.length_append] at enough ⊢
      exact ⟨enough.1, by omega⟩
  | ok middle =>
      rw [moved] at ran
      obtain ⟨old, frontEq, nulFree, stillHolds⟩ := ran
      have later := next middle (before ++ old) stillHolds
      change Outcome.Yields _ (second middle) _
      cases written : second middle with
      | error stop =>
          rw [written] at later
          change _ ∧ _
          refine ⟨later.1, ?_⟩
          intro new textEq enough
          rw [frontEq, Option.bind_some] at textEq
          obtain ⟨last, backEq, rfl⟩ := Option.map_eq_some_iff.mp textEq
          apply later.2 last backEq
          rw [List.append_assoc]
          exact enough
      | ok last =>
          rw [written] at later
          obtain ⟨new, backEq, reached⟩ := later
          refine ⟨old ++ new, ?_, joined last before old new nulFree reached⟩
          rw [frontEq, Option.bind_some, backEq, Option.map_some]

/-! ### Fixed bytes -/

variable (reallocate) in
theorem ensure_yields {buffer : PrintBuffer} {before : List UInt8} (holds : buffer.Holds before)
    (needed : Nat) :
    Outcome.Yields
      (fun stop => stop = .refused ∧
        ¬(Grants reallocate ∧ before.length + needed + 1 ≤ intMax))
      (ensure reallocate needed buffer) fun after =>
        after.offset = before.length ∧ before.map some <+: after.cells ∧
          before.length + needed < after.cells.length := by
  obtain ⟨offsetEq, part, notFull⟩ := holds
  have grows : ∀ newsize, before.length + needed < newsize → Outcome.Yields
      (fun stop => stop = .refused ∧
        ¬(Grants reallocate ∧ before.length + needed + 1 ≤ intMax))
      (growBuffer reallocate buffer newsize) fun after =>
        after.offset = before.length ∧ before.map some <+: after.cells ∧
          before.length + needed < after.cells.length := by
    intro newsize large
    apply Outcome.Yields.ite
    · intro _
      refine ⟨offsetEq, part.trans (List.prefix_append _ _), ?_⟩
      rw [List.length_append, List.length_replicate]
      omega
    · intro refuses
      exact ⟨rfl, fun both => refuses (both.1 newsize)⟩
  unfold ensure
  rw [if_neg (by omega)]
  apply Outcome.Yields.ite
  · intro tooMuch
    exact ⟨rfl, fun both => by omega⟩
  · intro _
    apply Outcome.Yields.ite
    · intro fits
      exact ⟨offsetEq, part, by omega⟩
    · intro _
      apply Outcome.Yields.ite
      · intro _
        apply Outcome.Yields.ite
        · intro fits
          exact grows intMax (by omega)
        · intro tooMuch
          exact ⟨rfl, fun both => by omega⟩
      · intro _
        exact grows _ (by omega)

variable (reallocate) in
theorem printBytes_yields {buffer : PrintBuffer} {before bytes : List UInt8} {needed : Nat}
    (holds : buffer.Holds before) (reserved : bytes.length ≤ needed) :
    Outcome.Yields
      (fun stop => stop = .refused ∧
        ¬(Grants reallocate ∧ before.length + needed + 1 ≤ intMax))
      (printBytes reallocate needed bytes buffer) fun after =>
        after.offset = before.length ∧ (before ++ bytes).map some <+: after.cells ∧
          before.length + needed < after.cells.length := by
  apply (ensure_yields reallocate holds needed).bind
  intro grown room
  obtain ⟨offsetEq, part, notFull⟩ := room
  obtain ⟨after, written, sameOffset, newPart, sameLength⟩ := PrintBuffer.write_prefix part
    (show before.length + bytes.length ≤ grown.cells.length by omega)
  rw [offsetEq, written]
  exact ⟨sameOffset.trans offsetEq, newPart, by omega⟩

variable (reallocate) in
theorem printAndMove_yields {buffer : PrintBuffer} {before bytes : List UInt8} {needed : Nat}
    (length : Nat) (holds : buffer.Holds before) (reserved : bytes.length ≤ needed) :
    Outcome.Yields
      (fun stop => stop = .refused ∧
        ¬(Grants reallocate ∧ before.length + needed + 1 ≤ intMax))
      (printAndMove reallocate needed bytes length buffer) fun after =>
        after.offset = before.length + length ∧ (before ++ bytes).map some <+: after.cells ∧
          before.length + needed < after.cells.length := by
  apply (printBytes_yields reallocate holds reserved).bind
  intro after written
  obtain ⟨offsetEq, part, notFull⟩ := written
  exact ⟨congrArg (· + length) offsetEq, part, notFull⟩

/-- The refusals for a text of this size. -/
theorem refuses_text {before text : List UInt8} {needed : Nat} (noMore : needed ≤ text.length + 1)
    (stop : PrintStop)
    (refuses : stop = .refused ∧ ¬(Grants reallocate ∧ before.length + needed + 1 ≤ intMax)) :
    stop = .refused ∧ ∀ new, some text = some new →
      ¬(Grants reallocate ∧ (before ++ new).length + 2 ≤ intMax) := by
  refine ⟨refuses.1, ?_⟩
  rintro new ⟨⟩ enough
  rw [List.length_append] at enough
  exact refuses.2 ⟨enough.1, by omega⟩

/-- A text with its NUL. -/
theorem printBytes_prints {text : List UInt8} {needed : Nat} (nulFree : (0 : UInt8) ∉ text)
    (exactly : needed = text.length + 1) :
    Prints reallocate (printBytes reallocate needed (text ++ [0])) (some text)
      PrintBuffer.Ended := by
  intro buffer before holds
  have reserved : (text ++ [0]).length ≤ needed := by
    rw [List.length_append, exactly]
    exact Nat.le_refl _
  apply Outcome.Yields.imp_error _ (refuses_text (Nat.le_of_eq exactly))
  apply (printBytes_yields reallocate holds reserved).imp
  intro after written
  obtain ⟨offsetEq, part, -⟩ := written
  refine ⟨text, rfl, nulFree, ?_, Nat.le_of_eq offsetEq.symm, ?_⟩
  · rw [List.append_assoc]
    exact part
  · rw [offsetEq, List.length_append]
    exact Nat.le_add_right _ _

/-- The part of some bytes that the offset passes. -/
theorem printAndMove_prints {text : List UInt8} {needed : Nat} (rest : List UInt8)
    (nulFree : (0 : UInt8) ∉ text) (reserved : (text ++ rest).length ≤ needed)
    (noMore : needed ≤ text.length + 1) :
    Prints reallocate (printAndMove reallocate needed (text ++ rest) text.length) (some text)
      PrintBuffer.Appended := by
  intro buffer before holds
  apply Outcome.Yields.imp_error _ (refuses_text noMore)
  apply (printAndMove_yields reallocate text.length holds reserved).imp
  intro after written
  obtain ⟨offsetEq, part, notFull⟩ := written
  rw [← List.append_assoc, List.map_append] at part
  rw [List.length_append] at reserved
  refine ⟨text, rfl, nulFree, ?_, (List.prefix_append _ _).trans part, ?_⟩
  · rw [List.length_append]
    exact offsetEq
  · rw [List.length_append]
    omega

/-! ### Numbers -/

theorem decimalText_nulFree (value : Nat) : (0 : UInt8) ∉ decimalText value := by
  intro member
  have isDigit := isdigit_of_mem_decimalText member
  cases isDigit

theorem numberText_nulFree {ν : Type} (doubles : Doubles ν) (valueInt : Int) (valueDouble : ν) :
    (0 : UInt8) ∉ numberText doubles valueInt valueDouble := by
  unfold numberText
  split
  · decide
  · split
    · unfold intText
      split
      · intro member
        rcases List.mem_cons.mp member with minus | digits
        · cases minus
        · exact decimalText_nulFree _ digits
      · exact decimalText_nulFree _
    · exact (doubles.format valueDouble).nulFree

theorem printNumber_prints {ν : Type} (doubles : Doubles ν) (valueInt : Int) (valueDouble : ν) :
    Prints reallocate (printNumber reallocate doubles valueInt valueDouble)
      (if 25 < (numberText doubles valueInt valueDouble).length then none
        else some (numberText doubles valueInt valueDouble)) PrintBuffer.Ended := by
  have nulFree := numberText_nulFree doubles valueInt valueDouble
  unfold printNumber
  generalize numberText doubles valueInt valueDouble = text at nulFree ⊢
  dsimp only
  by_cases long : 25 < text.length
  · simp only [if_pos long]
    exact Prints.refused
  · simp only [if_neg long]
    intro buffer before holds
    have reserved : (text ++ [0]).length ≤ text.length + 1 := by
      rw [List.length_append]
      exact Nat.le_refl _
    apply Outcome.Yields.imp_error _ (refuses_text (Nat.le_refl _))
    apply (printAndMove_yields reallocate text.length holds reserved).imp
    intro after written
    obtain ⟨offsetEq, part, -⟩ := written
    refine ⟨text, rfl, nulFree, ?_, by omega, ?_⟩
    · rw [List.append_assoc]
      exact part
    · rw [List.length_append]
      exact Nat.le_of_eq offsetEq

/-! ### Strings -/

theorem escape_size (char : UInt8) : (escape char).length = 1 + extraCharacters char := by
  have all : ∀ code < 256, (escape (UInt8.ofNat code)).length =
      1 + extraCharacters (UInt8.ofNat code) := by
    decide +kernel
  have found := all char.toNat char.toNat_lt
  rw [UInt8.ofNat_toNat] at found
  exact found

theorem escape_nulFree {char : UInt8} (notNul : char ≠ 0) : (0 : UInt8) ∉ escape char := by
  have all : ∀ code < 256, code ≠ 0 → (0 : UInt8) ∉ escape (UInt8.ofNat code) := by
    decide +kernel
  have found := all char.toNat char.toNat_lt fun zero => notNul (UInt8.toNat_inj.mp zero)
  rw [UInt8.ofNat_toNat] at found
  exact found

theorem escape_plain {char : UInt8} (plain : extraCharacters char = 0) : escape char = [char] := by
  have all : ∀ code < 256, extraCharacters (UInt8.ofNat code) = 0 →
      escape (UInt8.ofNat code) = [UInt8.ofNat code] := by
    decide +kernel
  have found := all char.toNat char.toNat_lt
  rw [UInt8.ofNat_toNat] at found
  exact found plain

theorem flatMap_escape_length (bytes : List UInt8) :
    (bytes.flatMap escape).length = bytes.length + (bytes.map extraCharacters).sum := by
  induction bytes with
  | nil => rfl
  | cons char bytes ih =>
      rw [List.flatMap_cons, List.length_append, ih, escape_size, List.length_cons, List.map_cons,
        List.sum_cons]
      omega

theorem flatMap_escape_plain {bytes : List UInt8} (plain : (bytes.map extraCharacters).sum = 0) :
    bytes.flatMap escape = bytes := by
  induction bytes with
  | nil => rfl
  | cons char bytes ih =>
      rw [List.map_cons, List.sum_cons] at plain
      rw [List.flatMap_cons, escape_plain (by omega), ih (by omega), List.singleton_append]

theorem printString_eq (input : CString) :
    printString input = 34 :: (input.bytes.flatMap escape ++ [34]) := rfl

theorem printString_nulFree (input : CString) : (0 : UInt8) ∉ printString input := by
  rw [printString_eq]
  intro member
  rcases List.mem_cons.mp member with quote | member
  · cases quote
  rcases List.mem_append.mp member with member | quote
  · obtain ⟨char, inInput, zero⟩ := List.mem_flatMap.mp member
    exact escape_nulFree (fun isNul => input.nulFree (isNul ▸ inInput)) zero
  · cases List.mem_singleton.mp quote

/-- The second loop writes the escapes, and one NUL more where `sprintf` is the last. -/
theorem writeEscapes_prefix {bytes text : List UInt8} {buffer : PrintBuffer}
    (part : text.map some <+: buffer.cells)
    (room : text.length + (bytes.flatMap escape).length < buffer.cells.length) :
    ∃ after, writeEscapes bytes text.length buffer = .ok after ∧ after.offset = buffer.offset ∧
      (text ++ bytes.flatMap escape).map some <+: after.cells ∧
      after.cells.length = buffer.cells.length := by
  induction bytes generalizing text buffer with
  | nil =>
      refine ⟨buffer, rfl, rfl, ?_, rfl⟩
      rw [List.flatMap_nil, List.append_nil]
      exact part
  | cons char bytes ih =>
      rw [List.flatMap_cons, List.length_append] at room
      obtain ⟨more, writtenEq, short⟩ : ∃ more, (if isNumbered char then escape char ++ [0] else
          escape char) = escape char ++ more ∧ more.length ≤ 1 := by
        by_cases numbered : isNumbered char = true
        · exact ⟨[0], if_pos numbered, Nat.le_refl _⟩
        · exact ⟨[], by rw [if_neg numbered, List.append_nil], Nat.zero_le _⟩
      have fits : text.length + (escape char ++ more).length ≤ buffer.cells.length := by
        rw [List.length_append]
        omega
      obtain ⟨middle, written, sameOffset, middlePart, sameLength⟩ :=
        PrintBuffer.write_prefix part fits
      rw [← List.append_assoc, List.map_append] at middlePart
      obtain ⟨after, later, lastOffset, lastPart, lastLength⟩ :=
        ih ((List.prefix_append _ _).trans middlePart) (by
          rw [List.length_append, sameLength]
          omega)
      refine ⟨after, ?_, lastOffset.trans sameOffset, ?_, lastLength.trans sameLength⟩
      · rw [writeEscapes, writtenEq, written, Outcome.ok_bind, ← List.length_append]
        exact later
      · rw [List.flatMap_cons, ← List.append_assoc]
        exact lastPart

theorem printStringPtr_prints (input : CString) :
    Prints reallocate (printStringPtr reallocate input) (some (printString input))
      PrintBuffer.Ended := by
  intro buffer before holds
  have sizeEq := flatMap_escape_length input.bytes
  have textLength : (printString input).length =
      input.bytes.length + (input.bytes.map extraCharacters).sum + 2 := by
    rw [printString_eq, List.length_cons, List.length_append, sizeEq]
    rfl
  have ended : ∀ after : PrintBuffer, after.offset = before.length →
      (before ++ (34 :: (input.bytes.flatMap escape ++ [34, 0]))).map some <+: after.cells →
      ∃ new, some (printString input) = some new ∧ after.Ended before new := by
    intro after offsetEq part
    refine ⟨_, rfl, printString_nulFree input, ?_, Nat.le_of_eq offsetEq.symm, ?_⟩
    · rw [printString_eq]
      simpa only [List.append_assoc, List.cons_append, List.nil_append] using part
    · rw [offsetEq, List.length_append]
      exact Nat.le_add_right _ _
  have ran := ensure_yields reallocate holds
    (input.bytes.length + (input.bytes.map extraCharacters).sum + 3)
  apply (Outcome.Yields.imp_error ran ?_).bind
  · intro grown room
    obtain ⟨offsetEq, part, notFull⟩ := room
    rw [offsetEq]
    apply Outcome.Yields.ite
    · intro plain
      have fits : before.length + (34 :: (input.bytes ++ [34, 0])).length ≤ grown.cells.length := by
        rw [List.length_cons, List.length_append]
        simp only [List.length_cons, List.length_nil]
        omega
      obtain ⟨after, written, sameOffset, newPart, -⟩ := PrintBuffer.write_prefix part fits
      rw [written]
      apply ended after (sameOffset.trans offsetEq)
      rw [flatMap_escape_plain plain]
      exact newPart
    · intro _
      have fits : before.length + [(34 : UInt8)].length ≤ grown.cells.length := by
        rw [List.length_singleton]
        omega
      obtain ⟨opened, written, openedOffset, openedPart, openedLength⟩ :=
        PrintBuffer.write_prefix part fits
      have room : (before ++ [34]).length + (input.bytes.flatMap escape).length <
          opened.cells.length := by
        rw [List.length_append, List.length_singleton]
        omega
      obtain ⟨filled, escaped, filledOffset, filledPart, filledLength⟩ :=
        writeEscapes_prefix openedPart room
      have closes : (before ++ [34] ++ input.bytes.flatMap escape).length +
          [(34 : UInt8), 0].length ≤ filled.cells.length := by
        simp only [List.length_append, List.length_cons, List.length_nil]
        omega
      obtain ⟨closed, last, closedOffset, closedPart, -⟩ :=
        PrintBuffer.write_prefix filledPart closes
      have behindQuote : before.length + 1 = (before ++ [34]).length := by
        rw [List.length_append, List.length_singleton]
      have behindText : before.length +
          (input.bytes.length + (input.bytes.map extraCharacters).sum) + 1 =
            (before ++ [34] ++ input.bytes.flatMap escape).length := by
        simp only [List.length_append, List.length_singleton]
        omega
      rw [written, Outcome.ok_bind, openedOffset, offsetEq, behindQuote, escaped, Outcome.ok_bind,
        filledOffset, openedOffset, offsetEq, behindText, last]
      apply ended closed (closedOffset.trans (filledOffset.trans (openedOffset.trans offsetEq)))
      simpa only [List.append_assoc, List.cons_append, List.nil_append] using closedPart
  · intro stop refuses
    refine ⟨refuses.1, ?_⟩
    rintro new ⟨⟩ enough
    rw [List.length_append, textLength] at enough
    exact refuses.2 ⟨enough.1, by omega⟩

/-! ### Arrays and objects -/

/-- A printer with `update_offset` behind it. -/
theorem Prints.moved (prints : Prints reallocate first text PrintBuffer.Ended) :
    Prints reallocate (fun buffer => first buffer >>= PrintBuffer.updateOffset) text
      PrintBuffer.Appended := by
  intro buffer before holds
  apply (prints buffer before holds).bind
  intro written known
  obtain ⟨new, textEq, ended⟩ := known
  obtain ⟨after, moved, appended, -⟩ := PrintBuffer.updateOffset_ended ended
  rw [moved]
  exact ⟨new, textEq, appended⟩

theorem appended_joined (buffer : PrintBuffer) (before old new : List UInt8)
    (nulFree : (0 : UInt8) ∉ old) (appended : buffer.Appended (before ++ old) new) :
    buffer.Appended before (old ++ new) := by
  obtain ⟨stillFree, holds⟩ := appended
  rw [List.append_assoc] at holds
  exact ⟨fun member => (List.mem_append.mp member).elim nulFree stillFree, holds⟩

theorem ended_joined (buffer : PrintBuffer) (before old new : List UInt8)
    (nulFree : (0 : UInt8) ∉ old) (ended : buffer.Ended (before ++ old) new) :
    buffer.Ended before (old ++ new) := by
  obtain ⟨stillFree, part, low, high⟩ := ended
  rw [List.append_assoc before] at part high
  rw [List.length_append] at low
  exact ⟨fun member => (List.mem_append.mp member).elim nulFree stillFree, part, by omega, high⟩

theorem Prints.nothing (text : List UInt8) (isEmpty : text = []) :
    Prints reallocate .ok (some text) PrintBuffer.Appended := by
  intro buffer before holds
  rw [isEmpty]
  refine ⟨[], rfl, List.not_mem_nil, ?_⟩
  rw [List.append_nil]
  exact holds

theorem comma_prints :
    Prints reallocate (printAndMove reallocate 2 [44, 0] 1) (some [44]) PrintBuffer.Appended :=
  printAndMove_prints [0] (by decide) (Nat.le_refl _) (Nat.le_refl _)

variable {ν : Type} {printItem : Json ν → PrintBuffer → Except PrintStop PrintBuffer}
  {textOf : Json ν → Option (List UInt8)}

theorem printElements_prints (items : List (Json ν))
    (each : ∀ item ∈ items, Prints reallocate (printItem item) (textOf item) PrintBuffer.Ended) :
    Prints reallocate (printElements reallocate printItem items) (joined (items.map textOf))
      PrintBuffer.Appended := by
  induction items with
  | nil => exact Prints.nothing [] rfl
  | cons item rest ih =>
      have one := (each item List.mem_cons_self).moved
      have later := ih fun other member => each other (List.mem_cons_of_mem _ member)
      cases rest with
      | nil =>
          have same : printElements reallocate printItem [item] =
              fun buffer => printItem item buffer >>= PrintBuffer.updateOffset := by
            funext buffer
            exact congrArg _ (funext fun _ => bind_pure _)
          rw [same]
          exact one
      | cons next rest =>
          have both := one.bind (comma_prints.bind later appended_joined) appended_joined
          simp only [bind_assoc] at both
          have textEq : joined ((item :: next :: rest).map textOf) =
              (textOf item).bind fun old =>
                ((some [44]).bind fun comma =>
                  (joined ((next :: rest).map textOf)).map fun new => comma ++ new).map
                    fun new => old ++ new := by
            rw [List.map_cons, List.map_cons, joined]
            cases textOf item with
            | none => rfl
            | some first =>
                cases joined (textOf next :: rest.map textOf) with
                | none => rfl
                | some others => rfl
          rw [textEq]
          exact both

theorem printMembers_prints (members : List (CString × Json ν))
    (each : ∀ member ∈ members,
      Prints reallocate (printItem member.2) (textOf member.2) PrintBuffer.Ended) :
    Prints reallocate (printMembers reallocate printItem members)
      (joined (members.map fun member =>
        (textOf member.2).map fun text => printString member.1 ++ 58 :: text))
      PrintBuffer.Appended := by
  induction members with
  | nil => exact Prints.nothing [] rfl
  | cons member rest ih =>
      obtain ⟨name, item⟩ := member
      have named : Prints reallocate _ _ _ := (printStringPtr_prints name).moved
      have colon : Prints reallocate (printAndMove reallocate 1 [58] 1) (some [58])
          PrintBuffer.Appended :=
        printAndMove_prints [] (by decide) (Nat.le_refl _) (by decide)
      have one := (each (name, item) List.mem_cons_self).moved
      have later := ih fun other member => each other (List.mem_cons_of_mem _ member)
      cases rest with
      | nil =>
          have last : Prints reallocate (printAndMove reallocate 1 [0] 0) (some [])
              PrintBuffer.Appended :=
            printAndMove_prints [0] List.not_mem_nil (Nat.le_refl _) (Nat.le_refl _)
          have all := named.bind (colon.bind (one.bind last appended_joined) appended_joined)
            appended_joined
          simp only [bind_assoc] at all
          have textEq : joined ([(name, item)].map fun member =>
                (textOf member.2).map fun text => printString member.1 ++ 58 :: text) =
              (some (printString name)).bind fun old => (Option.map (fun new => old ++ new)
                ((some [58]).bind fun old => Option.map (fun new => old ++ new)
                  ((textOf item).bind fun old =>
                    Option.map (fun new => old ++ new) (some [])))) := by
            rw [List.map_singleton, joined]
            cases textOf item with
            | none => rfl
            | some text => simp
          rw [textEq]
          exact all
      | cons next rest =>
          have all := named.bind (colon.bind (one.bind (comma_prints.bind later appended_joined)
            appended_joined) appended_joined) appended_joined
          simp only [bind_assoc] at all
          have textEq : joined (((name, item) :: next :: rest).map fun member =>
                (textOf member.2).map fun text => printString member.1 ++ 58 :: text) =
              (some (printString name)).bind fun old => (Option.map (fun new => old ++ new)
                ((some [58]).bind fun old => Option.map (fun new => old ++ new)
                  ((textOf item).bind fun old => Option.map (fun new => old ++ new)
                    ((some [44]).bind fun old => Option.map (fun new => old ++ new)
                      (joined ((next :: rest).map fun member =>
                        (textOf member.2).map fun text =>
                          printString member.1 ++ 58 :: text)))))) := by
            rw [List.map_cons, List.map_cons, joined]
            generalize joined _ = others
            cases textOf item with
            | none => rfl
            | some text =>
                cases others with
                | none => rfl
                | some others => simp
          rw [textEq]
          exact all

/-- Brackets around what is printed between them. -/
theorem inBrackets_prints {opening closing : UInt8} {needed : Nat} (notNul : opening ≠ 0)
    (notNul' : closing ≠ 0) (low : 1 ≤ needed) (high : needed ≤ 2)
    (prints : Prints reallocate first text PrintBuffer.Appended) :
    Prints reallocate
      (fun buffer => printAndMove reallocate needed [opening] 1 buffer >>= fun buffer =>
        first buffer >>= printBytes reallocate 2 [closing, 0])
      (text.map (inBrackets opening closing)) PrintBuffer.Ended := by
  have front : Prints reallocate (printAndMove reallocate needed [opening] 1) (some [opening])
      PrintBuffer.Appended :=
    printAndMove_prints [] (by simpa using notNul.symm) low high
  have back : Prints reallocate (printBytes reallocate 2 [closing, 0]) (some [closing])
      PrintBuffer.Ended :=
    printBytes_prints (by simpa using notNul'.symm) rfl
  have all := front.bind (prints.bind back ended_joined) ended_joined
  have textEq : text.map (inBrackets opening closing) =
      (some [opening]).bind fun old => Option.map (fun new => old ++ new)
        (text.bind fun old => Option.map (fun new => old ++ new) (some [closing])) := by
    cases text with
    | none => rfl
    | some inside => rfl
  rw [textEq]
  exact all

/-! ### Values -/

theorem printValue_prints (doubles : Doubles ν) (levels : Nat) (item : Json ν) :
    Prints reallocate (printValue reallocate doubles levels item) (jsonText doubles levels item)
      PrintBuffer.Ended := by
  induction levels generalizing item with
  | zero =>
      cases item with
      | null => exact printBytes_prints (by decide) rfl
      | bool value =>
          cases value with
          | false => exact printBytes_prints (by decide) rfl
          | true => exact printBytes_prints (by decide) rfl
      | number valueInt valueDouble => exact printNumber_prints doubles valueInt valueDouble
      | string valueString => exact printStringPtr_prints valueString
      | array items => exact Prints.refused
      | object members => exact Prints.refused
  | succ levels ih =>
      cases item with
      | null => exact printBytes_prints (by decide) rfl
      | bool value =>
          cases value with
          | false => exact printBytes_prints (by decide) rfl
          | true => exact printBytes_prints (by decide) rfl
      | number valueInt valueDouble => exact printNumber_prints doubles valueInt valueDouble
      | string valueString => exact printStringPtr_prints valueString
      | array items =>
          have elements := printElements_prints items fun item _ => ih item
          exact inBrackets_prints (by decide) (by decide) (Nat.le_refl _) (by decide) elements
      | object members =>
          have entries := printMembers_prints members fun member _ => ih member.2
          exact inBrackets_prints (by decide) (by decide) (by decide) (Nat.le_refl _) entries

end Printers

/-- Every allocation of `print` succeeds. -/
def PrintMemory.Grants (memory : PrintMemory) : Prop :=
  memory.allocates = true ∧ OriginDb.Grants memory.reallocate ∧ memory.shrinks = true

theorem cJSONPrintUnformatted_yields {ν : Type} (doubles : Doubles ν) (memory : PrintMemory)
    (item : Json ν) :
    Outcome.Yields
      (fun stop => stop = .refused ∧ ∀ text, jsonText doubles nestingLimit item = some text →
        memory.Grants → intMax < text.length + 2)
      (cJSONPrintUnformatted doubles memory item)
      (fun text => jsonText doubles nestingLimit item = some text) := by
  apply Outcome.Yields.ite
  · intro refuses
    refine ⟨rfl, fun _ _ grants => ?_⟩
    rw [grants.1] at refuses
    cases refuses
  · intro _
    have fresh := PrintBuffer.fresh_holds (show 0 < 256 by decide)
    have prints : Prints memory.reallocate _ _ _ := printValue_prints doubles nestingLimit item
    have printed := prints _ _ fresh
    apply (Outcome.Yields.imp_error printed ?_).bind
    · intro written known
      obtain ⟨text, textEq, ended⟩ := known
      obtain ⟨moved, movedEq, appended, sameCells⟩ := PrintBuffer.updateOffset_ended ended
      obtain ⟨nulFree, ⟨rest, cellsEq⟩, -⟩ := ended
      rw [movedEq]
      apply Outcome.Yields.ite
      · intro _
        have taken : moved.cells.take (moved.offset + 1) = text.map some ++ [some 0] := by
          rw [sameCells, ← cellsEq, appended.2.1, List.nil_append, List.map_append]
          exact List.take_left' (by simp)
        rw [taken, PrintBuffer.textOf_text nulFree]
        exact textEq
      · intro refuses
        exact ⟨rfl, fun _ _ grants => absurd grants.2.2 refuses⟩
    · intro stop refuses
      refine ⟨refuses.1, fun text textEq grants => ?_⟩
      have tooLong := refuses.2 text textEq
      by_contra short
      exact tooLong ⟨grants.2.1, Nat.not_lt.mp short⟩

/-- There is no other reason to refuse. -/
theorem cJSONPrintUnformatted_granted {ν : Type} {doubles : Doubles ν} {memory : PrintMemory}
    {item : Json ν} {text : List UInt8} (textEq : jsonText doubles nestingLimit item = some text)
    (grants : memory.Grants) (short : text.length + 2 ≤ intMax) :
    cJSONPrintUnformatted doubles memory item = .ok text := by
  have yields := cJSONPrintUnformatted_yields doubles memory item
  cases printed : cJSONPrintUnformatted doubles memory item with
  | ok other =>
      rw [printed] at yields
      exact congrArg _ (Option.some.inj (yields.symm.trans textEq))
  | error stop =>
      rw [printed] at yields
      exact absurd (yields.2 text textEq grants) (Nat.not_lt.mpr short)

/-- `cJSON_PrintUnformatted` returns the text of the tree or NULL.  It writes nothing outside its
buffer and reads nothing there that it has not written.  NULL means that the tree has no text,
that a block was not granted, or that the text is longer than an `int` can say. -/
theorem cJSONPrintUnformatted_text {ν : Type} (doubles : Doubles ν) (memory : PrintMemory)
    (item : Json ν) :
    (∃ text, jsonText doubles nestingLimit item = some text ∧
        cJSONPrintUnformatted doubles memory item = .ok text) ∨
      (cJSONPrintUnformatted doubles memory item = .error .refused ∧
        ∀ text, jsonText doubles nestingLimit item = some text → memory.Grants →
          intMax < text.length + 2) := by
  have yields := cJSONPrintUnformatted_yields doubles memory item
  cases printed : cJSONPrintUnformatted doubles memory item with
  | ok text =>
      rw [printed] at yields
      exact Or.inl ⟨text, yields, rfl⟩
  | error stop =>
      rw [printed] at yields
      right
      rw [yields.1]
      exact ⟨rfl, yields.2⟩

end OriginDb
