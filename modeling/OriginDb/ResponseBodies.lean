/-
The bodies of responses are JSON texts.

`serialize_search_results` builds a tree of its results and prints it; the other bodies are
written by `snprintf`.  A client that reads a whole body with cJSON gets the results, or the
message.
-/

import OriginDb.JsonRoundTrip

namespace OriginDb

open Foundation

section Results

variable {ν : Type}

/-- How an id and a distance become doubles. -/
structure DoubleSources (ν : Type) where
  ofId : UInt64 → ν
  ofDistance : UInt32 → ν

variable (doubles : Doubles ν) (sources : DoubleSources ν)

/-- `cJSON_CreateNumber`. -/
def createNumber (number : ν) : Json ν := .number (doubles.toInt number) number

/-- An item of `serialize_search_results`. -/
def resultItem (result : SearchResult UInt32) : Json ν :=
  .object
    [(CString.ofBytes (asciiBytes "id"), createNumber doubles (sources.ofId result.id)),
      (CString.ofBytes (asciiBytes "distance"),
        createNumber doubles (sources.ofDistance result.calculatedDistance)),
      (CString.ofBytes (asciiBytes "metadata"), result.metadata.elim .null .string)]

/-- `json_response`. -/
def jsonResponse (results : List (SearchResult UInt32)) : Json ν :=
  .array ((results.filter fun result => result.id != 0).map (resultItem doubles sources))

/-- The texts of the numbers. -/
def printedNumbers : NumberTexts where
  id := fun id =>
    { bytes := numberText doubles (doubles.toInt (sources.ofId id)) (sources.ofId id)
      nulFree := numberText_nulFree doubles _ _ }
  distance := fun distance =>
    { bytes := numberText doubles (doubles.toInt (sources.ofDistance distance))
        (sources.ofDistance distance)
      nulFree := numberText_nulFree doubles _ _ }

/-- The numbers of a result fit `number_buffer`. -/
def NumbersFit (result : SearchResult UInt32) : Prop :=
  ((printedNumbers doubles sources).id result.id).strlen ≤ 25 ∧
    ((printedNumbers doubles sources).distance result.calculatedDistance).strlen ≤ 25

/-- The numbers of a result come back. -/
def NumbersReturn (numeral : List UInt8 → ν) (result : SearchResult UInt32) : Prop :=
  NumberReturns doubles numeral (doubles.toInt (sources.ofId result.id))
      (sources.ofId result.id) ∧
    NumberReturns doubles numeral (doubles.toInt (sources.ofDistance result.calculatedDistance))
      (sources.ofDistance result.calculatedDistance)

/-! ### The text of the results -/

theorem joined_some (texts : List (List UInt8)) :
    joined (texts.map some) = some (List.intercalate [44] texts) := by
  induction texts with
  | nil => rfl
  | cons text rest ih =>
      cases rest with
      | nil => simp [joined, List.intercalate]
      | cons next rest =>
          rw [List.map_cons] at ih
          rw [List.map_cons, List.map_cons, joined, ih, List.intercalate_cons_cons]
          simp

variable {doubles sources} in
theorem createNumber_text {levels : Nat} {number : ν}
    (fits : (numberText doubles (doubles.toInt number) number).length ≤ 25) :
    jsonText doubles levels (createNumber doubles number) =
      some (numberText doubles (doubles.toInt number) number) := by
  rw [createNumber, jsonText, if_neg (Nat.not_lt.mpr fits)]

variable {doubles sources} in
theorem resultItem_text {levels : Nat} {result : SearchResult UInt32}
    (fits : NumbersFit doubles sources result) :
    jsonText doubles (levels + 1) (resultItem doubles sources result) =
      some (itemText (printedNumbers doubles sources) result) := by
  obtain ⟨idFits, distanceFits⟩ := fits
  have metadataText : jsonText doubles levels (result.metadata.elim .null .string) =
      some (result.metadata.elim (asciiBytes "null") printString) := by
    cases result.metadata with
    | none => rw [Option.elim_none, jsonText, Option.elim_none]
    | some text => rw [Option.elim_some, jsonText, Option.elim_some]
  have names : printString (CString.ofBytes (asciiBytes "id")) = asciiBytes "\"id\"" ∧
      printString (CString.ofBytes (asciiBytes "distance")) = asciiBytes "\"distance\"" ∧
      printString (CString.ofBytes (asciiBytes "metadata")) = asciiBytes "\"metadata\"" := by
    decide
  have fixedParts : asciiBytes "\x7b\"id\":" = 123 :: (asciiBytes "\"id\"" ++ [58]) ∧
      asciiBytes ",\"distance\":" = 44 :: (asciiBytes "\"distance\"" ++ [58]) ∧
      asciiBytes ",\"metadata\":" = 44 :: (asciiBytes "\"metadata\"" ++ [58]) ∧
      asciiBytes "\x7d" = [125] := by
    decide
  rw [resultItem, jsonText]
  simp only [List.map_cons, List.map_nil, createNumber_text idFits, createNumber_text distanceFits,
    metadataText, names, Option.map_some]
  rw [← List.map_nil (f := some), ← List.map_cons, ← List.map_cons, ← List.map_cons, joined_some,
    Option.map_some, itemText, fixedParts.1, fixedParts.2.1, fixedParts.2.2.1, fixedParts.2.2.2]
  simp [List.intercalate, inBrackets, printedNumbers]

variable {doubles sources} in
theorem jsonResponse_text {levels : Nat} {results : List (SearchResult UInt32)}
    (fits : ∀ result ∈ results, result.id ≠ 0 → NumbersFit doubles sources result) :
    jsonText doubles (levels + 2) (jsonResponse doubles sources results) =
      some (resultsText (printedNumbers doubles sources) results) := by
  have each : (results.filter fun result => result.id != 0).map
      (fun result => jsonText doubles (levels + 1) (resultItem doubles sources result)) =
        ((results.filter fun result => result.id != 0).map
          (itemText (printedNumbers doubles sources))).map some := by
    rw [List.map_map]
    apply List.map_congr_left
    intro result kept
    obtain ⟨member, hasId⟩ := List.mem_filter.mp kept
    exact resultItem_text (fits result member (bne_iff_ne.mp hasId))
  have brackets : asciiBytes "[" = [91] ∧ asciiBytes "," = [44] ∧ asciiBytes "]" = [93] := by
    decide
  rw [jsonResponse, jsonText, List.map_map]
  change (joined ((results.filter fun result => result.id != 0).map
    (fun result => jsonText doubles (levels + 1) (resultItem doubles sources result)))).map _ = _
  rw [each, joined_some, Option.map_some, resultsText, brackets.1, brackets.2.1, brackets.2.2,
    List.append_assoc]
  rfl

/-- `serialize_search_results`, which returns NULL for no results. -/
def serializeWith (memory : PrintMemory) (results : List (SearchResult UInt32)) :
    Option (List UInt8) :=
  if results = [] then none
  else (cJSONPrintUnformatted doubles memory (jsonResponse doubles sources results)).toOption

/-- The printer writes the text that the responses are made of, or nothing. -/
theorem serializeWith_eq (memory : PrintMemory) (results : List (SearchResult UInt32))
    (fits : ∀ result ∈ results, result.id ≠ 0 → NumbersFit doubles sources result) :
    ∃ prints, serializeWith doubles sources memory results =
      serializeSearchResults (printedNumbers doubles sources) prints results := by
  unfold serializeWith serializeSearchResults
  by_cases isEmpty : results = []
  · refine ⟨false, ?_⟩
    rw [if_pos isEmpty, if_pos (Or.inl isEmpty)]
  · have yields := cJSONPrintUnformatted_yields doubles memory (jsonResponse doubles sources results)
    rw [if_neg isEmpty]
    cases printed : cJSONPrintUnformatted doubles memory (jsonResponse doubles sources results) with
    | ok text =>
        rw [printed] at yields
        have textEq := (jsonResponse_text fits).symm.trans yields
        refine ⟨true, ?_⟩
        rw [if_neg (by simpa using isEmpty), textEq]
        rfl
    | error stop =>
        refine ⟨false, ?_⟩
        rw [if_pos (Or.inr rfl)]
        rfl

end Results

/-! ### What a client reads -/

section Bodies

variable {δ ν : Type} {doubles : Doubles ν} {sources : DoubleSources ν}
  {numeral : List UInt8 → ν}

/-- A name with a string. -/
def textMember (name : String) (text : List UInt8) : CString × Json ν :=
  (CString.ofBytes (asciiBytes name), .string (CString.ofBytes text))

/-- The tree of a body. -/
def Answer.tree (doubles : Doubles ν) (sources : DoubleSources ν) : Answer → Json ν
  | .fixed (.success message) =>
      .object [textMember "status" (asciiBytes "success"), textMember "message" (asciiBytes message)]
  | .fixed (.error _ details) => .object [textMember "error" (asciiBytes details)]
  | .results found => jsonResponse doubles sources found

/-- Letters that stand for themselves in a string. -/
def SpelledPlainly (text : List UInt8) : Prop := ∀ char ∈ text, 32 ≤ char ∧ char ≠ 34 ∧ char ≠ 92

theorem SpelledPlainly.body {text : List UInt8} (plain : SpelledPlainly text) :
    JsonText.StringBody text text := by
  induction text with
  | nil => exact .nil
  | cons char text ih =>
      obtain ⟨visible, notQuote, notBackslash⟩ := plain char List.mem_cons_self
      have rest := ih fun later member => plain later (List.mem_cons_of_mem _ member)
      exact .plain visible notQuote notBackslash rest

def isPlainLetter (char : UInt8) : Bool := 32 ≤ char && char != 34 && char != 92

theorem spelledPlainly_of_all {text : List UInt8} (all : text.all isPlainLetter = true) :
    SpelledPlainly text := by
  intro char member
  have letter := List.all_eq_true.mp all char member
  simpa only [isPlainLetter, Bool.and_eq_true, decide_eq_true_eq, bne_iff_ne, and_assoc]
    using letter

theorem fixedResponses_plain : ∀ response ∈ fixedResponses, SpelledPlainly response.message := by
  -- Deciding the bounded quantifier instead may go through all 256 bytes for every letter.
  have letters :
      (fixedResponses.all fun response => response.message.all isPlainLetter) = true := by
    decide +kernel
  intro response member
  exact spelledPlainly_of_all (List.all_eq_true.mp letters response member)

theorem oneSpace : JsonText.Spaces [32] :=
  fun _ member => Or.inl (List.mem_singleton.mp member)

theorem textMember_denotes {name text : List UInt8} (plainName : SpelledPlainly name)
    (plainText : SpelledPlainly text) :
    JsonText.Member (JsonText.Denotes (treeBuilder doubles) numeral 0)
      (name, .string (CString.ofBytes text))
      (JsonText.quoted name ++ 58 :: 32 :: JsonText.quoted text) :=
  JsonText.Member.mk plainName.body noSpaces oneSpace (JsonText.Scalar.string plainText.body)

/-- The body of a fixed response denotes its names and strings. -/
theorem Response.json_denotes {response : Response} (isFixed : response ∈ fixedResponses) :
    JsonText.Denotes (treeBuilder doubles) numeral 1 ((Answer.fixed response).tree doubles sources)
      response.json := by
  have plain := fixedResponses_plain response isFixed
  have names : SpelledPlainly (asciiBytes "status") ∧ SpelledPlainly (asciiBytes "success") ∧
      SpelledPlainly (asciiBytes "message") ∧ SpelledPlainly (asciiBytes "error") :=
    ⟨spelledPlainly_of_all (by decide), spelledPlainly_of_all (by decide),
      spelledPlainly_of_all (by decide), spelledPlainly_of_all (by decide)⟩
  cases response with
  | success message =>
      have status : JsonText.Member (JsonText.Denotes (treeBuilder doubles) numeral 0) _ _ :=
        textMember_denotes names.1 names.2.1
      have rest : JsonText.Member (JsonText.Denotes (treeBuilder doubles) numeral 0) _ _ :=
        textMember_denotes names.2.2.1 plain
      have separated := JsonText.Separated.cons noSpaces status noSpaces
        (JsonText.Separated.one oneSpace rest noSpaces)
      have front : asciiBytes "\x7b\"status\": \"success\", \"message\": \"" =
          123 :: (JsonText.quoted (asciiBytes "status") ++ 58 :: 32 ::
            (JsonText.quoted (asciiBytes "success") ++ 44 :: 32 ::
              (JsonText.quoted (asciiBytes "message") ++ [58, 32, 34]))) := by
        decide
      have back : asciiBytes "\"\x7d" = [34, 125] := by decide
      have textEq : (Response.success message).json = 123 :: (([] ++
          ((JsonText.quoted (asciiBytes "status") ++ 58 :: 32 ::
            JsonText.quoted (asciiBytes "success")) ++ ([] ++ 44 :: ([32] ++
              ((JsonText.quoted (asciiBytes "message") ++ 58 :: 32 ::
                JsonText.quoted (Response.success message).message) ++ []))))) ++ [125]) := by
        unfold Response.json Response.message
        rw [front, back]
        simp [JsonText.quoted]
      rw [textEq]
      exact Or.inr (JsonText.Compound.object separated)
  | error code details =>
      have reason : JsonText.Member (JsonText.Denotes (treeBuilder doubles) numeral 0) _ _ :=
        textMember_denotes names.2.2.2 plain
      have separated := JsonText.Separated.one noSpaces reason noSpaces
      have front : asciiBytes "\x7b\"error\": \"" =
          123 :: (JsonText.quoted (asciiBytes "error") ++ [58, 32, 34]) := by
        decide
      have back : asciiBytes "\"\x7d" = [34, 125] := by decide
      have textEq : (Response.error code details).json = 123 :: (([] ++
          ((JsonText.quoted (asciiBytes "error") ++ 58 :: 32 ::
            JsonText.quoted (Response.error code details).message) ++ [])) ++ [125]) := by
        unfold Response.json Response.message
        rw [front, back]
        simp [JsonText.quoted]
      rw [textEq]
      exact Or.inr (JsonText.Compound.object separated)

theorem createNumber_returns {number : ν}
    (returns : NumberReturns doubles numeral (doubles.toInt number) number) :
    Returns doubles numeral (createNumber doubles number) :=
  Returns.number returns

theorem jsonResponse_returns {results : List (SearchResult UInt32)}
    (returns : ∀ result ∈ results, result.id ≠ 0 →
      NumbersReturn doubles sources numeral result) :
    Returns doubles numeral (jsonResponse doubles sources results) := by
  apply Returns.array
  intro item inItems
  obtain ⟨result, kept, rfl⟩ := List.mem_map.mp inItems
  obtain ⟨member, hasId⟩ := List.mem_filter.mp kept
  obtain ⟨idReturns, distanceReturns⟩ := returns result member (bne_iff_ne.mp hasId)
  apply Returns.object
  intro entry inEntries
  simp only [List.mem_cons, List.not_mem_nil, or_false] at inEntries
  rcases inEntries with rfl | rfl | rfl
  · exact Returns.number idReturns
  · exact Returns.number distanceReturns
  · cases result.metadata with
    | none => exact Returns.null
    | some text => exact Returns.string text

/-- Whatever the server answers, a client that reads the whole body with cJSON gets the results
with their ids, distances and metadata, or the message of a fixed response. -/
theorem response_body_read {μ : Type} [DecidableEq δ] {env : ServerEnv δ μ}
    (exact : ∀ token, JsonText.IsNumber token →
      doubles.strtod token = some (numeral token, token.length))
    {answer : Answer} (answers : Answers env (printedNumbers doubles sources) answer)
    (comeBack : ∀ found, answer = .results found → ∀ result ∈ found, result.id ≠ 0 →
      NumbersFit doubles sources result ∧ NumbersReturn doubles sources numeral result)
    (body : CString) (bodyEq : body.bytes = answer.json (printedNumbers doubles sources)) :
    cJSONParse doubles body = .ok (answer.tree doubles sources) := by
  have whole : body.bytes = [] ++ ([] ++ (body.bytes ++ [])) := by
    rw [List.append_nil, List.nil_append, List.nil_append]
  have denotes : ∃ depth ≤ nestingLimit,
      JsonText.Denotes (treeBuilder doubles) numeral depth (answer.tree doubles sources)
        body.bytes := by
    rw [bodyEq]
    cases answer with
    | fixed response =>
        have isFixed : response ∈ fixedResponses := by
          cases answers with
          | connection conn result response closed =>
              rcases ConnState.round_refuses closed with rfl | rfl <;> decide
          | refused server after io headerBuffer httpBody response handled =>
              exact handelClient_fixed handled
          | task server io task answer handled => exact taskAnswer_fixed handled
        exact ⟨1, by decide, Response.json_denotes isFixed⟩
    | results found =>
        have known := comeBack found rfl
        refine ⟨2, by decide, jsonText_denotes (jsonResponse_returns ?_) (jsonResponse_text ?_)⟩
        · exact fun result member hasId => (known result member hasId).2
        · exact fun result member hasId => (known result member hasId).1
  obtain ⟨depth, shallow, denoted⟩ := denotes
  exact cJSONParse_denoted exact shallow body whole (Or.inl rfl) noSpaces denoted
    fun _ impossible => nomatch impossible

end Bodies

/-! ### One result -/

def wholeSources : DoubleSources Nat where
  ofId := UInt64.toNat
  ofDistance := UInt32.toNat

def breakMetadata : CString := CString.ofBytes [97, 10]

theorem wholeNumber_returns (number : Nat) :
    NumberReturns wholeDoubles decimalValue (wholeDoubles.toInt number) number := by
  have textEq : numberText wholeDoubles (wholeDoubles.toInt number) number =
      intText (Int.ofNat number) := by
    unfold numberText
    rw [if_neg (by exact Bool.noConfusion), if_pos (by exact beq_self_eq_true (Int.ofNat number))]
    rfl
  unfold NumberReturns
  rw [textEq]
  refine ⟨intText_isNumber _, ?_, rfl⟩
  have notNegative : ¬Int.ofNat number < 0 := Int.not_lt.mpr (Int.natCast_nonneg number)
  rw [intText, if_neg notNegative]
  exact decimalValue_decimalText number

theorem response_body_read_result :
    cJSONParse wholeDoubles
        (CString.ofBytes (asciiBytes "[\x7b\"id\":9,\"distance\":0,\"metadata\":\"a\\n\"\x7d]")) =
      .ok (.array
        [.object
          [(CString.ofBytes (asciiBytes "id"), .number 9 9),
            (CString.ofBytes (asciiBytes "distance"), .number 0 0),
            (CString.ofBytes (asciiBytes "metadata"), .string breakMetadata)]]) := by
  have answers : Answers insertEnv (printedNumbers wholeDoubles wholeSources)
      (.results [oneResult (some breakMetadata)]) := by
    apply Answers.task (searchedServer (some breakMetadata)) answerOk (.search 0 sampleSearch)
    rfl
  have comeBack : ∀ found, Answer.results [oneResult (some breakMetadata)] = .results found →
      ∀ result ∈ found, result.id ≠ 0 →
        NumbersFit wholeDoubles wholeSources result ∧
          NumbersReturn wholeDoubles wholeSources decimalValue result := by
    rintro found ⟨⟩ result member hasId
    rw [List.mem_singleton.mp member]
    exact ⟨⟨by decide, by decide⟩, wholeNumber_returns _, wholeNumber_returns _⟩
  exact response_body_read wholeDoubles_exact answers comeBack _ rfl

end OriginDb
