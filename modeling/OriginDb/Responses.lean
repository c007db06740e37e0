/-
The bytes of a response: `send_error`, the success branches of `handel_client`
and `serialize_search_results`.

Every response is formatted by `snprintf` into a buffer on the stack, and what
the buffer holds is passed to `send_all`.  The buffers for fixed texts are large
enough for all of them; the one for search results has 4096 bytes whatever the
results are.  How `sprintf` writes a double is a parameter; everything else of the
JSON text is written as cJSON does.
-/

import Mathlib.Data.Nat.Digits.Lemmas
import OriginDb.AnnSearch
import OriginDb.HeaderDecisions
import OriginDb.Server

namespace OriginDb

open Foundation

/-! ### Formatting -/

/-- What `snprintf` leaves in a buffer of `size` bytes, without the NUL; none of
the texts has a NUL in it. -/
def snprintf (size : Nat) (text : List UInt8) : List UInt8 := text.take (size - 1)

/-- `%zu`. -/
def decimalText (value : Nat) : List UInt8 :=
  if value = 0 then [48]
  else (Nat.digits 10 value).reverse.map fun digit => UInt8.ofNat (48 + digit)

def headFront (status : String) : List UInt8 :=
  asciiBytes "HTTP/1.1 " ++ asciiBytes status ++
    asciiBytes "\r\nContent-Type: application/json\r\nContent-Length: "

def headBack (connection : String) : List UInt8 :=
  asciiBytes "\r\nConnection: " ++ asciiBytes connection ++ asciiBytes "\r\n\r\n"

def responseHead (status connection : String) (contentLength : Nat) : List UInt8 :=
  headFront status ++ decimalText contentLength ++ headBack connection

def responseText (status connection : String) (body : List UInt8) : List UInt8 :=
  responseHead status connection body.length ++ body

/-! ### Fixed responses -/

/-- `status_str`. -/
def statusStr : ClientError → String
  | .invalidParameter => "400 Bad Request"
  | .unauthorizedAccess => "401 Unauthorized"
  | .wrongRequest => "404 Not Found"
  | .internalError => "500 Internal Server Error"

namespace Response

def status : Response → String
  | .success _ => "200 OK"
  | .error code _ => statusStr code

def connection : Response → String
  | .success _ => "keep-alive"
  | .error _ _ => "close"

/-- The whole JSON text. -/
def json : Response → List UInt8
  | .success message =>
      asciiBytes "\x7b\"status\": \"success\", \"message\": \"" ++ asciiBytes message ++
        asciiBytes "\"\x7d"
  | .error _ details => asciiBytes "\x7b\"error\": \"" ++ asciiBytes details ++ asciiBytes "\"\x7d"

/-- `json_body`: the one of `send_error` has 256 bytes. -/
def jsonBody : Response → List UInt8
  | .success message => (Response.success message).json
  | .error code details => snprintf 256 (Response.error code details).json

/-- What is passed to `send_all`. -/
def sent (response : Response) : List UInt8 :=
  snprintf 1024 (responseText response.status response.connection response.jsonBody)

end Response

/-! ### Search results -/

/-- What `print_number` writes for an id and for a distance. -/
structure NumberTexts where
  id : UInt64 → CString
  distance : UInt32 → CString

def hexDigit (value : UInt8) : UInt8 := if value < 10 then 48 + value else 87 + value

/-- `print_string_ptr`, for one character. -/
def escape (char : UInt8) : List UInt8 :=
  if char = 34 then asciiBytes "\\\""
  else if char = 92 then asciiBytes "\\\\"
  else if char = 8 then asciiBytes "\\b"
  else if char = 12 then asciiBytes "\\f"
  else if char = 10 then asciiBytes "\\n"
  else if char = 13 then asciiBytes "\\r"
  else if char = 9 then asciiBytes "\\t"
  else if char < 32 then asciiBytes "\\u00" ++ [hexDigit (char / 16), hexDigit (char % 16)]
  else [char]

def printString (text : CString) : List UInt8 :=
  asciiBytes "\"" ++ text.bytes.flatMap escape ++ asciiBytes "\""

section Texts

variable (texts : NumberTexts)

/-- One object of the array. -/
def itemText (result : SearchResult UInt32) : List UInt8 :=
  asciiBytes "\x7b\"id\":" ++ (texts.id result.id).bytes ++
    asciiBytes ",\"distance\":" ++ (texts.distance result.calculatedDistance).bytes ++
    asciiBytes ",\"metadata\":" ++ (result.metadata.elim (asciiBytes "null") printString) ++
    asciiBytes "\x7d"

/-- The array of the results that have an id. -/
def resultsText (results : List (SearchResult UInt32)) : List UInt8 :=
  asciiBytes "[" ++
    List.intercalate (asciiBytes ",")
      ((results.filter fun result => result.id != 0).map (itemText texts)) ++
    asciiBytes "]"

/-- `serialize_search_results`; `prints` tells whether cJSON gets its memory. -/
def serializeSearchResults (prints : Bool) (results : List (SearchResult UInt32)) :
    Option (List UInt8) :=
  if results = [] ∨ prints = false then none else some (resultsText texts results)

end Texts

/-! ### What a handler answers -/

/-- A response with a fixed text, or the results of a search. -/
inductive Answer where
  | fixed (response : Response)
  | results (found : List (SearchResult UInt32))
deriving DecidableEq

namespace Answer

variable (texts : NumberTexts)

def json : Answer → List UInt8
  | .fixed response => response.json
  | .results found => resultsText texts found

/-- What is passed to `send_all`; the results have a buffer of 4096 bytes. -/
def sent : Answer → List UInt8
  | .fixed response => response.sent
  | .results found => snprintf 4096 (responseText "200 OK" "keep-alive" (resultsText texts found))

end Answer

/-- The checks of `/search` under the table's lock, with their errors. -/
def searchRefusal (db : FlatDb) (req : SearchReq) : Option Response :=
  if db.dimension ≠ UInt64.ofNat req.queryVector.length then
    some (.error .invalidParameter "Vector dimension does not match table configuration.")
  else if req.topK = 0 ∨ maxTopK < req.topK then
    some (.error .invalidParameter "top_k must be between 1 and 10000.")
  else if req.useAnn = true ∧ (req.nprobe = 0 ∨ maxTopK < req.nprobe) then
    some (.error .invalidParameter "nprobe must be a positive integer.")
  else none

theorem refusesSearch_eq (db : FlatDb) (req : SearchReq) :
    refusesSearch db req = (searchRefusal db req).isSome := by
  unfold refusesSearch searchRefusal
  by_cases wrong : db.dimension ≠ UInt64.ofNat req.queryVector.length
  · rw [if_pos wrong, Option.isSome_some, bne_iff_ne.mpr wrong, Bool.true_or, Bool.true_or]
  · rw [if_neg wrong, not_not.mp wrong, bne_self_eq_false, Bool.false_or]
    have topTest : (req.topK == 0 || decide (maxTopK < req.topK)) =
        decide (req.topK = 0 ∨ maxTopK < req.topK) := by
      rw [Bool.decide_or]
      rfl
    have probeTest : (req.useAnn && (req.nprobe == 0 || decide (maxTopK < req.nprobe))) =
        decide (req.useAnn = true ∧ (req.nprobe = 0 ∨ maxTopK < req.nprobe)) := by
      rw [Bool.decide_and, Bool.decide_or, Bool.decide_eq_true]
      rfl
    rw [topTest, probeTest]
    by_cases outside : req.topK = 0 ∨ maxTopK < req.topK
    · rw [if_pos outside, decide_eq_true outside, Bool.true_or]
      rfl
    · rw [if_neg outside, decide_eq_false outside, Bool.false_or]
      by_cases probes : req.useAnn = true ∧ (req.nprobe = 0 ∨ maxTopK < req.nprobe)
      · rw [if_pos probes, decide_eq_true probes]
        rfl
      · rw [if_neg probes, decide_eq_false probes]
        rfl

/-- Outcomes of the file operations and allocations behind one answer. -/
structure AnswerIO extends SectionIO where
  allocates : Bool
  prints : Bool

section Answers

variable {δ ν : Type} [DecidableEq δ] (env : ServerEnv δ ν) (texts : NumberTexts)

/-- The results of `/search`, from the index or from all records. -/
def searchFound (data : List UInt8) (ivfIndex : Option (List UInt8)) (table : OpenTable)
    (req : SearchReq) : Option (Except Response (List (SearchResult UInt32))) :=
  let topK := UInt64.ofNat req.topK.toNat
  if req.useAnn then
    match loadIndexOnDemand ivfIndex table with
    | none => none
    | some loaded =>
        match loaded.ivfIndex with
        | none =>
            some (.error (.error .invalidParameter "Index not trained. Call /train or use ENN."))
        | some clusters =>
            (dbAnnSearch env.floats data loaded.db req.queryVector topK
              (UInt64.ofNat req.nprobe.toNat) clusters loaded.ivfK).map fun found => .ok found.2
  else
    (flatSearch env.floats.toDistances data table.db req.queryVector topK).map fun found =>
      .ok found.2

def searchAnswer (io : AnswerIO) (data : List UInt8) (ivfIndex : Option (List UInt8))
    (table : OpenTable) (req : SearchReq) : Option Answer :=
  match searchRefusal table.db req with
  | some response => some (.fixed response)
  | none =>
      if io.allocates then
        (searchFound env data ivfIndex table req).map fun outcome =>
          match outcome with
          | .error response => .fixed response
          | .ok found =>
              if (serializeSearchResults texts io.prints found).isSome then .results found
              else .fixed (.error .internalError "Failed to serialize search results.")
      else some (.fixed (.error .internalError "Out of memory allocating search results."))

/-- The answer that a section of a handler sends, if it sends one. -/
def taskAnswer (server : Server δ) (io : AnswerIO) : Task → Option Answer
  | .search slot req =>
      match server.openTables[slot]? with
      | none => none
      | some table =>
          let dir := server.disk (env.dirOf table.name)
          searchAnswer env texts io (dir.dataDb.getD []) dir.ivfIndex table req
  | .insert slot req =>
      match server.openTables[slot]? with
      | none => none
      | some table =>
          let dir := server.disk (env.dirOf table.name)
          (insertLocked io.write (dir.dataDb.getD []) table req).map fun outcome =>
            .fixed outcome.1
  | .markDirty _ => some (.fixed (.success "Delete request queued."))
  | .train slot req =>
      match server.openTables[slot]? with
      | none => none
      | some table =>
          if refusesTrain table.db req then
            some (.fixed (.error .invalidParameter
              "Not enough records to train the requested clusters."))
          else none
  | .save slot k clusters =>
      match server.openTables[slot]? with
      | none => none
      | some table =>
          let dir := server.disk (env.dirOf table.name)
          (saveIvfIndex io.save clusters k table.db.dimension dir.ivfIndex).map fun outcome =>
            if outcome.1 < 0 then
              .fixed (.error .internalError "Failed to save trained index to disk.")
            else .fixed (.success "Index trained and saved successfully.")
  | .appendPending _ | .done => none

/-- The answers of the server: to a request that cannot be read, to one that is
refused at once, and by a section of a handler, whatever the tables look like. -/
inductive Answers : Answer → Prop where
  | connection (conn : ConnState) (result : RecvResult) (response : Response)
      (closed : conn.round result = .closed (some response)) : Answers (.fixed response)
  | refused (server after : Server δ) (io : OpenIO) (headerBuffer httpBody : CString)
      (response : Response)
      (handled : handelClient env io server headerBuffer httpBody = some (after, .error response)) :
      Answers (.fixed response)
  | task (server : Server δ) (io : AnswerIO) (task : Task) (answer : Answer)
      (handled : taskAnswer env texts server io task = some answer) : Answers answer

end Answers

/-! ### Framing -/

/-- The number behind `Content-Length:`. -/
def declaredLength (head : List UInt8) : Option Nat :=
  (strstr head (asciiBytes "Content-Length: ")).map fun found =>
    decimalValue ((found.drop 16).takeWhile isdigit)

/-- A header section, and behind it the whole JSON text in the declared length. -/
def Framed (sent json : List UInt8) : Prop :=
  ∃ head, sent = head ++ json ∧ IsHeaderSection head ∧ declaredLength head = some json.length

theorem decimalValue_decimalText (value : Nat) : decimalValue (decimalText value) = value := by
  unfold decimalText
  by_cases zero : value = 0
  · rw [if_pos zero, zero]
    rfl
  · have digitOf : ∀ digit ∈ Nat.digits 10 value, ∀ rest : Nat,
        10 * rest + ((UInt8.ofNat (48 + digit)).toNat - 48) = digit + 10 * rest := by
      intro digit member rest
      have small := Nat.digits_lt_base (by decide : 1 < 10) member
      rw [UInt8.toNat_ofNat']
      omega
    have sumEq := Nat.ofDigits_digits 10 value
    rw [Nat.ofDigits_eq_foldr] at sumEq
    rw [if_neg zero, decimalValue, List.foldl_map, List.foldl_reverse]
    exact (List.foldr_ext _ _ _ digitOf).trans sumEq

theorem isdigit_of_mem_decimalText {value : Nat} {char : UInt8}
    (member : char ∈ decimalText value) : isdigit char = true := by
  unfold decimalText at member
  split at member
  · rw [List.mem_singleton.mp member]
    decide
  · obtain ⟨digit, inDigits, charEq⟩ := List.mem_map.mp member
    have small := Nat.digits_lt_base (by decide : 1 < 10) (List.mem_reverse.mp inDigits)
    rw [← charEq]
    have cases10 : ∀ digit < 10, isdigit (UInt8.ofNat (48 + digit)) = true := by decide
    exact cases10 digit small

/-- The five status lines, with the `Connection` line that goes with each. -/
def statusLines : List (String × String) :=
  [("200 OK", "keep-alive"), ("400 Bad Request", "close"), ("401 Unauthorized", "close"),
    ("404 Not Found", "close"), ("500 Internal Server Error", "close")]

theorem statusLines_front : ∀ line ∈ statusLines,
    strstr (headFront line.1) headerEnd = none ∧ (headFront line.1).getLast? = some 32 ∧
      strstr (headFront line.1) (asciiBytes "Content-Length: ") =
        some (asciiBytes "Content-Length: ") := by
  decide +kernel

theorem statusLines_back : ∀ line ∈ statusLines,
    strstr (headBack line.2) headerEnd = some headerEnd ∧
      (headBack line.2).head? = some 13 := by
  decide +kernel

/-- A text of digits has no empty line in it, and none that begins there. -/
theorem strstr_digits_append {digits more : List UInt8}
    (allDigits : ∀ char ∈ digits, isdigit char = true) :
    strstr (digits ++ more) headerEnd = strstr more headerEnd := by
  induction digits with
  | nil => rfl
  | cons char digits ih =>
      have isDigit := allDigits char (List.mem_cons_self ..)
      have different : (13 == char) = false := by
        apply beq_eq_false_iff_ne.mpr
        intro same
        rw [← same] at isDigit
        cases isDigit
      rw [List.cons_append, strstr, headerEnd, List.isPrefixOf_cons_cons, different, Bool.false_and,
        if_neg Bool.false_ne_true]
      exact ih fun other member => allDigits other (List.mem_cons_of_mem _ member)

theorem responseHead_isSection {line : String × String} (known : line ∈ statusLines)
    (contentLength : Nat) : IsHeaderSection (responseHead line.1 line.2 contentLength) := by
  obtain ⟨missing, lastEq, -⟩ := statusLines_front line known
  obtain ⟨front, frontEq⟩ := List.getLast?_eq_some_iff.mp lastEq
  unfold IsHeaderSection responseHead
  rw [frontEq, strstr_eq_search] at missing
  rw [List.append_assoc, frontEq, strstr_eq_search,
    TextSearch.search_append_of_none _ (by decide) missing, ← strstr_eq_search,
    strstr_digits_append fun char => isdigit_of_mem_decimalText]
  exact (statusLines_back line known).1

theorem responseHead_declares {line : String × String} (known : line ∈ statusLines)
    (contentLength : Nat) :
    declaredLength (responseHead line.1 line.2 contentLength) = some contentLength := by
  have found := (statusLines_front line known).2.2
  obtain ⟨back, backEq⟩ := List.head?_eq_some_iff.mp (statusLines_back line known).2
  have digits : ((asciiBytes "Content-Length: " ++
      (decimalText contentLength ++ headBack line.2)).drop 16).takeWhile isdigit =
        decimalText contentLength := by
    have dropped : (asciiBytes "Content-Length: " ++
        (decimalText contentLength ++ headBack line.2)).drop 16 =
          decimalText contentLength ++ headBack line.2 := List.drop_left' (by decide)
    rw [dropped, backEq, takeWhile_append_stop _ _ (by decide)]
    exact List.takeWhile_eq_self_iff.mpr fun char => isdigit_of_mem_decimalText
  unfold declaredLength responseHead
  rw [strstr_eq_search] at found
  rw [List.append_assoc, strstr_eq_search, TextSearch.search_append_of_some _ found,
    Option.map_some, digits, decimalValue_decimalText]

/-- A response that is not cut off. -/
theorem framed_responseText {line : String × String} (known : line ∈ statusLines)
    (json : List UInt8) : Framed (responseText line.1 line.2 json) json :=
  ⟨responseHead line.1 line.2 json.length, rfl, responseHead_isSection known _,
    responseHead_declares known _⟩

/-- Two header sections at the beginning of one text. -/
theorem IsHeaderSection.eq_of_prefix {first second text : List UInt8}
    (firstSection : IsHeaderSection first) (secondSection : IsHeaderSection second)
    (firstPart : first <+: text) (secondPart : second <+: text) : first = second := by
  have notShorter : ∀ {short long : List UInt8}, IsHeaderSection short → IsHeaderSection long →
      short <+: long → short.length < long.length → False := by
    intro short long shortSection longSection part shorter
    unfold IsHeaderSection at shortSection longSection
    rw [strstr_eq_search] at shortSection longSection
    have missing := TextSearch.search_take_of_end longSection rfl shorter
    rw [← List.prefix_iff_eq_take.mp part, shortSection] at missing
    cases missing
  rcases Nat.lt_trichotomy first.length second.length with less | same | more
  · have part := List.prefix_of_prefix_length_le firstPart secondPart (Nat.le_of_lt less)
    exact absurd less fun shorter => notShorter firstSection secondSection part shorter
  · exact (List.prefix_of_prefix_length_le firstPart secondPart (Nat.le_of_eq same)).eq_of_length
      same
  · have part := List.prefix_of_prefix_length_le secondPart firstPart (Nat.le_of_lt more)
    exact absurd more fun shorter => notShorter secondSection firstSection part shorter

/-- A response is framed exactly if its buffer holds all of it. -/
theorem framed_snprintf_iff {line : String × String} (known : line ∈ statusLines) (size : Nat)
    (json : List UInt8) :
    Framed (snprintf size (responseText line.1 line.2 json)) json ↔
      (responseText line.1 line.2 json).length ≤ size - 1 := by
  unfold snprintf
  constructor
  · intro framed
    obtain ⟨head, sentEq, isSection, -⟩ := framed
    have sentPart := List.take_prefix (size - 1) (responseText line.1 line.2 json)
    have headPart : head <+: responseText line.1 line.2 json := by
      rw [sentEq] at sentPart
      exact (List.prefix_append _ _).trans sentPart
    have sameHead : head = responseHead line.1 line.2 json.length :=
      isSection.eq_of_prefix (responseHead_isSection known _) headPart (List.prefix_append _ _)
    have all : (responseText line.1 line.2 json).take (size - 1) =
        responseText line.1 line.2 json := by
      rw [sentEq, sameHead]
      rfl
    rw [← all]
    exact List.length_take_le _ _
  · intro fits
    rw [List.take_of_length_le fits]
    exact framed_responseText known json

/-! ### The fixed responses fit -/

/-- Every fixed response of the server. -/
def fixedResponses : List Response :=
  [.success "Vector inserted successfully.", .success "Delete request queued.",
    .success "Index trained and saved successfully.",
    .error .invalidParameter "Missing or excessive Content-Length header.",
    .error .invalidParameter "Malformed JSON payload.",
    .error .invalidParameter "Vector dimension does not match table configuration.",
    .error .invalidParameter "top_k must be between 1 and 10000.",
    .error .invalidParameter "nprobe must be a positive integer.",
    .error .invalidParameter "Index not trained. Call /train or use ENN.",
    .error .invalidParameter "Not enough records to train the requested clusters.",
    .error .unauthorizedAccess "Invalid or missing API key for this table.",
    .error .unauthorizedAccess "Invalid API key.",
    .error .wrongRequest "Database not found", .error .wrongRequest "Database table not found.",
    .error .wrongRequest "Invalid API route.",
    .error .internalError "Out of memory allocating request body.",
    .error .internalError "Out of memory allocating search results.",
    .error .internalError "Failed to serialize search results.",
    .error .internalError "Failed to write record to disk.",
    .error .internalError "Failed to save trained index to disk."]

/-- The text that the two formats put between their quotes. -/
def Response.message : Response → List UInt8
  | .success message => asciiBytes message
  | .error _ details => asciiBytes details

theorem fixedResponses_short : ∀ response ∈ fixedResponses, response.message.length ≤ 242 := by
  decide +kernel

theorem Response.line_known (response : Response) :
    (response.status, response.connection) ∈ statusLines := by
  cases response with
  | success message => simp [statusLines, status, connection]
  | error code details => cases code <;> simp [statusLines, status, statusStr, connection]

theorem Response.success_json_length (message : String) :
    (Response.success message).json.length = 36 + (asciiBytes message).length := by
  have fixedParts :
      (asciiBytes "\x7b\"status\": \"success\", \"message\": \"").length = 34 ∧
        (asciiBytes "\"\x7d").length = 2 := by
    decide
  unfold Response.json
  rw [List.length_append, List.length_append, fixedParts.1, fixedParts.2]
  omega

theorem Response.error_json_length (code : ClientError) (details : String) :
    (Response.error code details).json.length = 13 + (asciiBytes details).length := by
  have fixedParts : (asciiBytes "\x7b\"error\": \"").length = 11 ∧
      (asciiBytes "\"\x7d").length = 2 := by
    decide
  unfold Response.json
  rw [List.length_append, List.length_append, fixedParts.1, fixedParts.2]
  omega

/-- The 256 bytes of `json_body` hold an error with up to 242 characters of details. -/
theorem Response.jsonBody_eq {response : Response} (short : response.message.length ≤ 242) :
    response.jsonBody = response.json := by
  cases response with
  | success message => rfl
  | error code details =>
      apply List.take_of_length_le
      rw [Response.error_json_length]
      exact Nat.add_le_add_left short 13

theorem Response.json_length_le (response : Response) :
    response.json.length ≤ 36 + response.message.length := by
  cases response with
  | success message => exact Nat.le_of_eq (Response.success_json_length message)
  | error code details =>
      rw [Response.error_json_length]
      exact Nat.add_le_add_right (by omega) _

theorem decimalText_length_le {value width : Nat} (some : 0 < width) (small : value < 10 ^ width) :
    (decimalText value).length ≤ width := by
  unfold decimalText
  by_cases zero : value = 0
  · rw [if_pos zero, List.length_singleton]
    exact some
  · rw [if_neg zero, List.length_map, List.length_reverse]
    exact (Nat.digits_length_le_iff (by decide : 1 < 10) value).mpr small

theorem statusLines_length : ∀ line ∈ statusLines,
    (headFront line.1).length ≤ 84 ∧ (headBack line.2).length ≤ 28 := by
  decide

/-- The buffer of 1024 bytes holds a JSON text of up to 900. -/
theorem responseText_length_le {line : String × String} (known : line ∈ statusLines)
    {json : List UInt8} (short : json.length ≤ 900) :
    (responseText line.1 line.2 json).length ≤ 1023 := by
  obtain ⟨front, back⟩ := statusLines_length line known
  have digits : (decimalText json.length).length ≤ 3 :=
    decimalText_length_le (by decide) (by omega)
  unfold responseText responseHead
  rw [List.length_append, List.length_append, List.length_append]
  omega

theorem Response.framed {response : Response} (isFixed : response ∈ fixedResponses) :
    Framed response.sent response.json := by
  have short := fixedResponses_short response isFixed
  have jsonShort := response.json_length_le
  rw [Response.sent, Response.jsonBody_eq short]
  apply (framed_snprintf_iff response.line_known 1024 response.json).mpr
  exact responseText_length_le response.line_known (by omega)

theorem insertLocked_fixed {io : WriteIO} {data : List UInt8} {table : OpenTable}
    {req : InsertReq} {outcome : Response × List UInt8 × OpenTable}
    (ran : insertLocked io data table req = some outcome) : outcome.1 ∈ fixedResponses := by
  unfold insertLocked at ran
  split at ran
  · cases ran
    dsimp only
    decide
  · dsimp only at ran
    split at ran
    · cases ran
    · split at ran
      · cases ran
        dsimp only
        decide
      · cases ran
        dsimp only
        decide

section Fixed

variable {δ ν : Type} {env : ServerEnv δ ν} {texts : NumberTexts}

theorem checkRequest_fixed {req : Type} {server after : Server δ} {headerBuffer : CString}
    {parsed : Option req} {dbName : req → CString} {unauthorized : String}
    {next : Server δ → req → Option (Server δ × Except Response Task)} {response : Response}
    (isFixed : .error .unauthorizedAccess unauthorized ∈ fixedResponses)
    (nextFixed : ∀ server parsed after response,
      next server parsed = some (after, .error response) → response ∈ fixedResponses)
    (checked : checkRequest server headerBuffer parsed dbName unauthorized next =
      some (after, .error response)) : response ∈ fixedResponses := by
  unfold checkRequest at checked
  split at checked
  · cases checked
    decide
  · split at checked
    · exact nextFixed _ _ _ _ checked
    · cases checked
      exact isFixed

theorem searchRefusal_fixed {db : FlatDb} {req : SearchReq} {response : Response}
    (refused : searchRefusal db req = some response) : response ∈ fixedResponses := by
  unfold searchRefusal at refused
  split at refused
  · cases refused
    decide
  · split at refused
    · cases refused
      decide
    · split at refused
      · cases refused
        decide
      · cases refused

theorem searchFound_fixed {data : List UInt8} {ivfIndex : Option (List UInt8)}
    {table : OpenTable} {req : SearchReq} {response : Response}
    (ran : searchFound env data ivfIndex table req = some (.error response)) :
    response ∈ fixedResponses := by
  unfold searchFound at ran
  dsimp only at ran
  split at ran
  · split at ran
    · cases ran
    · split at ran
      · cases ran
        decide
      · obtain ⟨found, -, impossible⟩ := Option.map_eq_some_iff.mp ran
        cases impossible
  · obtain ⟨found, -, impossible⟩ := Option.map_eq_some_iff.mp ran
    cases impossible

theorem searchAnswer_fixed {io : AnswerIO} {data : List UInt8} {ivfIndex : Option (List UInt8)}
    {table : OpenTable} {req : SearchReq} {response : Response}
    (answered : searchAnswer env texts io data ivfIndex table req = some (.fixed response)) :
    response ∈ fixedResponses := by
  unfold searchAnswer at answered
  split at answered
  · rename_i refused
    cases answered
    exact searchRefusal_fixed refused
  · split at answered
    · obtain ⟨outcome, ran, answerEq⟩ := Option.map_eq_some_iff.mp answered
      split at answerEq
      · cases answerEq
        exact searchFound_fixed ran
      · split at answerEq
        · cases answerEq
        · cases answerEq
          decide
    · cases answered
      decide

/-- A section of a handler answers a fixed response, or the results of a search. -/
theorem taskAnswer_fixed {server : Server δ} {io : AnswerIO} {task : Task} {response : Response}
    (handled : taskAnswer env texts server io task = some (.fixed response)) :
    response ∈ fixedResponses := by
  cases task with
  | search slot req =>
      simp only [taskAnswer] at handled
      split at handled
      · cases handled
      · exact searchAnswer_fixed handled
  | insert slot req =>
      simp only [taskAnswer] at handled
      split at handled
      · cases handled
      · obtain ⟨outcome, ran, answerEq⟩ := Option.map_eq_some_iff.mp handled
        cases answerEq
        exact insertLocked_fixed ran
  | appendPending req => cases handled
  | markDirty dbName =>
      cases handled
      decide
  | train slot req =>
      simp only [taskAnswer] at handled
      split at handled
      · cases handled
      · split at handled
        · cases handled
          decide
        · cases handled
  | save slot k clusters =>
      simp only [taskAnswer] at handled
      split at handled
      · cases handled
      · obtain ⟨outcome, -, answerEq⟩ := Option.map_eq_some_iff.mp handled
        split at answerEq
        · cases answerEq
          decide
        · cases answerEq
          decide
  | done => cases handled

variable [DecidableEq δ]

theorem onTable_fixed {io : OpenIO} {server after : Server δ} {dbName : CString}
    {notFound : String} {task : Nat → Task} {response : Response}
    (isFixed : .error .wrongRequest notFound ∈ fixedResponses)
    (ran : onTable env io server dbName notFound task = some (after, .error response)) :
    response ∈ fixedResponses := by
  unfold onTable at ran
  obtain ⟨⟨opened, slot⟩, -, sameEq⟩ := Option.map_eq_some_iff.mp ran
  cases slot with
  | none =>
      cases sameEq
      exact isFixed
  | some slot => cases sameEq

theorem handelClient_fixed {io : OpenIO} {server after : Server δ}
    {headerBuffer httpBody : CString} {response : Response}
    (handled : handelClient env io server headerBuffer httpBody = some (after, .error response)) :
    response ∈ fixedResponses := by
  unfold handelClient at handled
  dsimp only at handled
  split at handled
  · apply checkRequest_fixed (by decide) ?_ handled
    exact fun _ _ _ _ => onTable_fixed (by decide)
  · apply checkRequest_fixed (by decide) ?_ handled
    exact fun _ _ _ _ => onTable_fixed (by decide)
  · apply checkRequest_fixed (by decide) ?_ handled
    intro server parsed after response queued
    cases queued
  · apply checkRequest_fixed (by decide) ?_ handled
    exact fun _ _ _ _ => onTable_fixed (by decide)
  · cases handled
    decide

end Fixed

/-! ### The size of a search response -/

/-- A character in a JSON string: itself, with a backslash, or as `u00` and two digits. -/
def escapedSize (char : UInt8) : Nat :=
  if char ∈ [34, 92, 8, 12, 10, 13, 9] then 2 else if char < 32 then 6 else 1

section Sizes

variable (texts : NumberTexts)

def itemSize (result : SearchResult UInt32) : Nat :=
  31 + (texts.id result.id).strlen + (texts.distance result.calculatedDistance).strlen +
    result.metadata.elim 4 fun text => 2 + (text.bytes.map escapedSize).sum

def jsonSize (results : List (SearchResult UInt32)) : Nat :=
  let kept := results.filter fun result => result.id != 0
  2 + (kept.map (itemSize texts)).sum + (kept.length - 1)

/-- The header section and the JSON text. -/
def searchResponseSize (results : List (SearchResult UInt32)) : Nat :=
  93 + (decimalText (jsonSize texts results)).length + jsonSize texts results

theorem escape_length (char : UInt8) : (escape char).length = escapedSize char := by
  have all : ∀ code < 256, (escape (UInt8.ofNat code)).length = escapedSize (UInt8.ofNat code) := by
    decide +kernel
  have found := all char.toNat char.toNat_lt
  rw [UInt8.ofNat_toNat] at found
  exact found

theorem itemText_length (result : SearchResult UInt32) :
    (itemText texts result).length = itemSize texts result := by
  have metadataLength : (result.metadata.elim (asciiBytes "null") printString).length =
      result.metadata.elim 4 fun text => 2 + (text.bytes.map escapedSize).sum := by
    cases result.metadata with
    | none => rfl
    | some text =>
        have escaped : (text.bytes.flatMap escape).length = (text.bytes.map escapedSize).sum := by
          rw [List.length_flatMap]
          exact congrArg List.sum (List.map_congr_left fun char _ => escape_length char)
        have quote : (asciiBytes "\"").length = 1 := by decide
        rw [Option.elim_some, Option.elim_some, printString, List.length_append,
          List.length_append, escaped, quote]
        omega
  have fixedParts : (asciiBytes "\x7b\"id\":").length = 6 ∧
      (asciiBytes ",\"distance\":").length = 12 ∧ (asciiBytes ",\"metadata\":").length = 12 ∧
        (asciiBytes "\x7d").length = 1 := by
    decide
  unfold itemText itemSize CString.strlen
  simp only [List.length_append]
  omega

theorem intercalate_length {α : Type} (separator : α) (items : List (List α)) :
    (List.intercalate [separator] items).length =
      (items.map List.length).sum + (items.length - 1) := by
  induction items with
  | nil => rfl
  | cons item rest ih =>
      cases rest with
      | nil => simp [List.intercalate]
      | cons next rest =>
          rw [List.intercalate_cons_cons, List.length_append, List.length_append, ih]
          simp only [List.map_cons, List.sum_cons, List.length_cons, List.length_nil]
          omega

theorem resultsText_length (results : List (SearchResult UInt32)) :
    (resultsText texts results).length = jsonSize texts results := by
  have comma : asciiBytes "," = [44] := by decide
  have brackets : (asciiBytes "[").length = 1 ∧ (asciiBytes "]").length = 1 := by decide
  have itemSizes : ∀ kept : List (SearchResult UInt32),
      (kept.map (itemText texts)).map List.length = kept.map (itemSize texts) := by
    intro kept
    rw [List.map_map]
    exact List.map_congr_left fun result _ => itemText_length texts result
  unfold resultsText jsonSize
  dsimp only
  rw [List.length_append, List.length_append, comma, intercalate_length, itemSizes,
    List.length_map, brackets.1, brackets.2]
  omega

theorem searchResponse_length (results : List (SearchResult UInt32)) :
    (responseText "200 OK" "keep-alive" (resultsText texts results)).length =
      searchResponseSize texts results := by
  have fixedParts : (headFront "200 OK").length = 65 ∧ (headBack "keep-alive").length = 28 := by
    decide
  unfold responseText responseHead searchResponseSize
  rw [List.length_append, List.length_append, List.length_append, resultsText_length]
  omega

/-- The response fits its buffer. -/
def Answer.Fits : Answer → Prop
  | .fixed _ => True
  | .results found => searchResponseSize texts found ≤ 4095

theorem results_framed_iff (found : List (SearchResult UInt32)) :
    Framed ((Answer.results found).sent texts) ((Answer.results found).json texts) ↔
      searchResponseSize texts found ≤ 4095 := by
  have known : ("200 OK", "keep-alive") ∈ statusLines := by decide
  rw [← searchResponse_length]
  exact framed_snprintf_iff known 4096 (resultsText texts found)

end Sizes

/-- Every response of the server is framed, except search results that their
buffer does not hold. -/
theorem response_framed_iff {δ ν : Type} [DecidableEq δ] {env : ServerEnv δ ν}
    {texts : NumberTexts} {answer : Answer} (answers : Answers env texts answer) :
    Framed (answer.sent texts) (answer.json texts) ↔ answer.Fits texts := by
  have fixed : ∀ response ∈ fixedResponses,
      Framed ((Answer.fixed response).sent texts) ((Answer.fixed response).json texts) ↔
        (Answer.fixed response).Fits texts :=
    fun response isFixed => iff_of_true (Response.framed isFixed) trivial
  cases answers with
  | connection conn result response closed =>
      apply fixed
      rcases ConnState.round_refuses closed with rfl | rfl
      · decide
      · decide
  | refused server after io headerBuffer httpBody response handled =>
      exact fixed response (handelClient_fixed handled)
  | task server io task answer handled =>
      cases answer with
      | fixed response => exact fixed response (taskAnswer_fixed handled)
      | results found => exact results_framed_iff texts found

/-! ### Two searches -/

def sampleTexts : NumberTexts where
  id := fun _ => ⟨asciiBytes "9", by decide⟩
  distance := fun _ => ⟨asciiBytes "0", by decide⟩

/-- A record with the vector (1.0), and a query that is equal to it. -/
def searchedTable (metadata : Option CString) : OpenTable :=
  { moviesSlot with
    db :=
      { moviesSlot.db with
        records :=
          [{ id := 9
             vector := .heap [1065353216]
             metadata := metadata
             isDeleted := false
             byteOffset := 0
             isMmap := false }] } }

def oneResult (metadata : Option CString) : SearchResult UInt32 where
  id := 9
  metadata := metadata
  calculatedDistance := 0

def searchedServer (metadata : Option CString) : Server CString :=
  { scheduledServer with openTables := [searchedTable metadata] }

def sampleSearch : SearchReq where
  dbName := moviesName
  topK := 1
  nprobe := 1
  useAnn := false
  queryVector := [1065353216]

def answerOk : AnswerIO :=
  { sectionOk 3 with
    allocates := true
    prints := true }

theorem answers_search (metadata : Option CString) :
    Answers insertEnv sampleTexts (.results [oneResult metadata]) := by
  apply Answers.task (searchedServer metadata) answerOk (.search 0 sampleSearch)
  rfl

theorem short_result_framed_iff :
    Framed ((Answer.results [oneResult none]).sent sampleTexts)
        ((Answer.results [oneResult none]).json sampleTexts) ↔
      (Answer.results [oneResult none]).Fits sampleTexts :=
  response_framed_iff (answers_search none)

/-- 4000 times `a`. -/
def longMetadata : CString where
  bytes := List.replicate 4000 97
  nulFree := fun member => absurd (List.eq_of_mem_replicate member) (by decide)

/-- One record with long metadata is enough to overrun the buffer. -/
theorem long_metadata_cut_off :
    Answers insertEnv sampleTexts (.results [oneResult (some longMetadata)]) ∧
      ¬Framed ((Answer.results [oneResult (some longMetadata)]).sent sampleTexts)
        ((Answer.results [oneResult (some longMetadata)]).json sampleTexts) := by
  refine ⟨answers_search _, ?_⟩
  rw [results_framed_iff]
  have metadataSize : (longMetadata.bytes.map escapedSize).sum = 4000 := by
    rw [longMetadata, List.map_replicate, List.sum_replicate]
    decide
  have itemEq : itemSize sampleTexts (oneResult (some longMetadata)) = 4035 := by
    have texts : (sampleTexts.id 9).strlen = 1 ∧ (sampleTexts.distance 0).strlen = 1 := by decide
    unfold itemSize oneResult
    dsimp only
    rw [Option.elim_some, metadataSize, texts.1, texts.2]
  have jsonEq : jsonSize sampleTexts [oneResult (some longMetadata)] = 4037 := by
    unfold jsonSize
    rw [List.filter_cons_of_pos (by decide), List.filter_nil]
    dsimp only
    rw [List.map_singleton, List.sum_singleton, itemEq, List.length_singleton]
  unfold searchResponseSize
  rw [jsonEq]
  omega

end OriginDb
