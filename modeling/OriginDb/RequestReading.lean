/-
Reading one request from a connection.

A request is its header section, up to and including the first empty line, and
its body.  `Position` says where the reader stands in it: in the header section,
in the body, or at the end, with the part of the body that came together with
the end of the header section still in the header buffer.  The module shows that
a round keeps this, for any pieces in which the bytes arrive.
-/

import OriginDb.Connection

namespace OriginDb

open Foundation

structure Request where
  head : List UInt8
  body : List UInt8
deriving DecidableEq

namespace Request

def encode (request : Request) : List UInt8 := request.head ++ request.body

/-- The header section ends with its first empty line and fits the buffer; the
body has a length that the server accepts. -/
structure WellFormed (request : Request) : Prop where
  nulFree : (0 : UInt8) ∉ request.head
  endsAtFirst : strstr request.head headerEnd = some headerEnd
  fits : request.head.length ≤ 4095
  bodySome : 1 ≤ request.body.length
  bodyMost : request.body.length ≤ 10485760

instance (request : Request) : Decidable request.WellFormed :=
  decidable_of_iff
    ((0 : UInt8) ∉ request.head ∧ strstr request.head headerEnd = some headerEnd ∧
      request.head.length ≤ 4095 ∧ 1 ≤ request.body.length ∧ request.body.length ≤ 10485760)
    ⟨fun ⟨nulFree, endsAtFirst, fits, bodySome, bodyMost⟩ =>
        ⟨nulFree, endsAtFirst, fits, bodySome, bodyMost⟩,
      fun ⟨nulFree, endsAtFirst, fits, bodySome, bodyMost⟩ =>
        ⟨nulFree, endsAtFirst, fits, bodySome, bodyMost⟩⟩

/-- The first `Content-Length:` in the header section is followed by the length
of the body. -/
def FindsLength (request : Request) : Prop :=
  announcedLength request.head = request.body.length

instance (request : Request) : Decidable request.FindsLength :=
  inferInstanceAs (Decidable (_ = _))

/-- The body buffer when the first `read` bytes have come. -/
def bodyBuffer (request : Request) (read : Nat) : List UInt8 :=
  request.body.take read ++ List.replicate (request.body.length + 1 - read) 0

end Request

/-- Where the reader stands in a request that `after` follows. -/
inductive Position (request : Request) (after : List UInt8) (reader : Reader) : Prop where
  | header (conn : ConnState) (statusEq : reader.status = .active conn)
      (phaseEq : conn.phase = .readingHeaders) (fresh : conn.bodyBytesRead = 0)
      (short : conn.headerBuffer.length < request.head.length)
      (streamEq : conn.headerBuffer ++ reader.unread = request.head ++ (request.body ++ after))
  | body (conn : ConnState) (shared read : Nat) (statusEq : reader.status = .active conn)
      (phaseEq : conn.phase = .readingBody)
      (headerEq : conn.headerBuffer = request.head ++ request.body.take shared)
      (lengthEq : conn.contentLength = request.body.length)
      (bodyEq : conn.httpBody = some (request.bodyBuffer read))
      (readEq : conn.bodyBytesRead = read) (more : read < request.body.length)
      (unreadEq : reader.unread = request.body.drop read ++ after)
  | done (conn : ConnState) (shared : Nat) (statusEq : reader.status = .active conn)
      (phaseEq : conn.phase = .done)
      (headerEq : conn.headerBuffer = request.head ++ request.body.take shared)
      (bodyEq : conn.httpBody = some (request.body ++ [0]))
      (unreadEq : reader.unread = after)

/-! ### The length in a longer buffer -/

theorem strstr_eq_search (text needle : List UInt8) :
    strstr text needle = TextSearch.search (fun char wanted => char == wanted) needle text := by
  have here : ∀ (needle text : List UInt8), needle.isPrefixOf text =
      TextSearch.matchesHere (fun char wanted => char == wanted) needle text := by
    intro needle
    induction needle with
    | nil => intro text; cases text <;> rfl
    | cons wanted needle ih =>
        intro text
        cases text with
        | nil => rfl
        | cons char text =>
            rw [List.isPrefixOf_cons_cons, TextSearch.matchesHere, ih, Bool.beq_comm]
  induction text with
  | nil => rfl
  | cons char rest ih => rw [strstr, TextSearch.search, here, ih]

theorem takeWhile_append_stop {test : UInt8 → Bool} {stop : UInt8} (front back : List UInt8)
    (stops : test stop = false) :
    (front ++ stop :: back).takeWhile test = front.takeWhile test := by
  induction front with
  | nil => rw [List.nil_append, List.takeWhile_cons_of_neg (by simp [stops]), List.takeWhile_nil]
  | cons char front ih =>
      rw [List.cons_append, List.takeWhile_cons, List.takeWhile_cons, ih]

/-- A number that ends before a line end is not affected by what follows it. -/
theorem strtol_append {text : List UInt8} (more : List UInt8)
    (someNumber : strtol (text ++ [10]) ≠ 0) :
    strtol (text ++ [10] ++ more) = strtol (text ++ [10]) := by
  have trims : text.dropWhile isspace ≠ [] := by
    intro empty
    apply someNumber
    have allSpace : (text ++ [10]).dropWhile isspace = [] := by
      rw [List.dropWhile_append, empty]
      rfl
    unfold strtol
    rw [allSpace]
    rfl
  have trimmed : ∀ rest, (text ++ rest).dropWhile isspace = text.dropWhile isspace ++ rest := by
    intro rest
    rw [List.dropWhile_append, if_neg (by simpa using trims)]
  obtain ⟨char, rest, shape⟩ := List.exists_cons_of_ne_nil trims
  have digits : ∀ front back, (front ++ 10 :: back).takeWhile isdigit = front.takeWhile isdigit :=
    fun front back => takeWhile_append_stop front back (by decide)
  unfold strtol
  rw [List.append_assoc, trimmed, trimmed, shape]
  simp only [List.cons_append, List.nil_append, List.head?_cons, List.drop_one, List.tail_cons]
  by_cases signed : some char = some 45 ∨ some char = some 43
  · rw [if_pos signed, if_pos signed, digits, digits]
  · have digitsFrom : ∀ back, (char :: (rest ++ 10 :: back)).takeWhile isdigit =
        (char :: rest).takeWhile isdigit := digits (char :: rest)
    rw [if_neg signed, if_neg signed, digitsFrom, digitsFrom]

/-- A text that ends at its first empty line ends with a line feed. -/
theorem ends_of_headerEnd {head : List UInt8}
    (endsAtFirst : strstr head headerEnd = some headerEnd) :
    ∃ front, head = front ++ [13, 10, 13] ++ [10] := by
  rw [strstr_eq_search] at endsAtFirst
  obtain ⟨front, shape⟩ := (TextSearch.search_eq_some endsAtFirst).2
  exact ⟨front, by rw [← shape, headerEnd, List.append_assoc]; rfl⟩

theorem Request.WellFormed.head_eq {request : Request} (wellFormed : request.WellFormed) :
    ∃ front, request.head = front ++ [13, 10, 13] ++ [10] :=
  ends_of_headerEnd wellFormed.endsAtFirst

theorem Request.WellFormed.head_long {request : Request} (wellFormed : request.WellFormed) :
    4 ≤ request.head.length := by
  obtain ⟨front, headEq⟩ := wellFormed.head_eq
  rw [headEq]
  simp only [List.length_append, List.length_cons, List.length_nil]
  omega

theorem length_le_of_strcasestr {text needle found : List UInt8}
    (searched : strcasestr text needle = some found) : needle.length ≤ found.length :=
  TextSearch.length_le_of_matchesHere (TextSearch.search_eq_some searched).1

theorem announcedLength_append {request : Request} (wellFormed : request.WellFormed)
    (finds : request.FindsLength) (more : List UInt8) :
    announcedLength (request.head ++ more) = request.body.length := by
  have bodySome := wellFormed.bodySome
  unfold Request.FindsLength announcedLength at finds
  unfold announcedLength
  cases searched : strcasestr request.head (asciiBytes "Content-Length:") with
  | none =>
      rw [searched] at finds
      dsimp only at finds
      omega
  | some found =>
      have continued : strcasestr (request.head ++ more) (asciiBytes "Content-Length:") =
          some (found ++ more) := TextSearch.search_append_of_some more searched
      rw [searched] at finds
      dsimp only at finds
      rw [continued]
      dsimp only
      have long : 15 ≤ found.length := length_le_of_strcasestr searched
      rw [List.drop_append_of_le_length long]
      -- The text behind the field name reaches to the end of the header section.
      have suffix : found.drop 15 <:+ request.head :=
        (List.drop_suffix 15 found).trans (TextSearch.search_eq_some searched).2
      obtain ⟨front, headEq⟩ := wellFormed.head_eq
      rw [headEq] at suffix
      rcases List.suffix_concat_iff.mp suffix with empty | ⟨value, valueEq, -⟩
      · rw [empty] at finds
        have zero : atoi [] = 0 := by decide
        omega
      · rw [valueEq] at finds ⊢
        have someNumber : strtol (value ++ [10]) ≠ 0 := by
          intro zero
          unfold atoi at finds
          rw [zero] at finds
          have none : Int.bmod 0 (2 ^ 32) = 0 := by decide
          omega
        unfold atoi at finds ⊢
        rw [strtol_append more someNumber, finds]

/-! ### The header section -/

theorem ofBytes_append {front : List UInt8} (more : List UInt8) (nulFree : (0 : UInt8) ∉ front) :
    (CString.ofBytes (front ++ more)).bytes = front ++ (CString.ofBytes more).bytes := by
  apply List.takeWhile_append_of_pos
  intro char member
  exact bne_iff_ne.mpr fun zero => nulFree (zero ▸ member)

theorem ofBytes_of_nulFree {bytes : List UInt8} (nulFree : (0 : UInt8) ∉ bytes) :
    (CString.ofBytes bytes).bytes = bytes := by
  have appended := ofBytes_append [] nulFree
  rw [List.append_nil] at appended
  exact appended.trans (List.append_nil _)

/-- Before its end has come, the header section has no empty line. -/
theorem Request.WellFormed.no_empty_line {request : Request} (wellFormed : request.WellFormed)
    {length : Nat} (short : length < request.head.length) :
    strstr (CString.ofBytes (request.head.take length)).bytes headerEnd = none := by
  have nulFree : (0 : UInt8) ∉ request.head.take length := fun member =>
    wellFormed.nulFree (List.mem_of_mem_take member)
  have found := wellFormed.endsAtFirst
  rw [ofBytes_of_nulFree nulFree]
  rw [strstr_eq_search] at found ⊢
  exact TextSearch.search_take_of_end found rfl short

/-- Once its end has come, the body starts behind it. -/
theorem Request.WellFormed.empty_line {request : Request} (wellFormed : request.WellFormed)
    (more : List UInt8) :
    strstr (CString.ofBytes (request.head ++ more)).bytes headerEnd =
      some (headerEnd ++ (CString.ofBytes more).bytes) := by
  have found := wellFormed.endsAtFirst
  rw [ofBytes_append more wellFormed.nulFree]
  rw [strstr_eq_search] at found ⊢
  exact TextSearch.search_append_of_some _ found

/-! ### The body buffer -/

theorem overwrite_zeros {front : List UInt8} {offset : Nat} (atEnd : front.length = offset)
    (bytes : List UInt8) (zeros : Nat) :
    overwrite (front ++ List.replicate zeros 0) offset bytes =
      front ++ bytes ++ List.replicate (zeros - bytes.length) 0 := by
  subst atEnd
  unfold overwrite
  rw [List.take_left, List.drop_append, List.drop_of_length_le (by omega), List.nil_append,
    List.drop_replicate]
  congr 2
  omega

theorem Request.bodyBuffer_all (request : Request) :
    request.bodyBuffer request.body.length = request.body ++ [0] := by
  unfold Request.bodyBuffer
  rw [List.take_length, Nat.add_sub_cancel_left]
  rfl

theorem Request.bodyBuffer_more (request : Request) (read : Nat) {bytes : List UInt8}
    (isNext : bytes <+: request.body.drop read) (within : read ≤ request.body.length) :
    overwrite (request.bodyBuffer read) read bytes =
      request.bodyBuffer (read + bytes.length) := by
  have taken : (request.body.take read).length = read := List.length_take_of_le within
  have next : request.body.take (read + bytes.length) = request.body.take read ++ bytes := by
    rw [List.take_add, ← List.prefix_iff_eq_take.mp isNext]
  unfold Request.bodyBuffer
  rw [overwrite_zeros taken, next]
  congr 2
  omega

/-! ### One round -/

/-- No more bytes than the announced length come together with the end of a
header section, and `calloc` succeeds. -/
def Reader.KeepsToRequest (reader : Reader) (action : ReaderAction) : Prop :=
  ∀ conn ∈ reader.status.conn?, ∀ piece ∈ action.recv?, conn.phase = .readingHeaders →
    reader.CanRecv conn piece.1 →
      let received := conn.received (reader.unread.take piece.1)
      let text := received.headerText.bytes
      ∀ bodyStart ∈ strstr text headerEnd,
        piece.2 = true ∧
          (received.headerBuffer.length : Int) - (text.length - bodyStart.length + 4 : Nat) ≤
            announcedLength text

instance (reader : Reader) (action : ReaderAction) : Decidable (reader.KeepsToRequest action) :=
  inferInstanceAs (Decidable (∀ conn ∈ reader.status.conn?, ∀ piece ∈ action.recv?, _ → _ → _))

/-- The same, said of the request that is being read. -/
def SharesBody (request : Request) (reader : Reader) (action : ReaderAction) : Prop :=
  ∀ conn ∈ reader.status.conn?, ∀ piece ∈ action.recv?, conn.phase = .readingHeaders →
    reader.CanRecv conn piece.1 →
      ∀ part, conn.headerBuffer ++ reader.unread.take piece.1 = request.head ++ part →
        piece.2 = true ∧ part.length ≤ request.body.length

theorem Reader.KeepsToRequest.sharesBody {request : Request} (wellFormed : request.WellFormed)
    (finds : request.FindsLength) {reader : Reader} {action : ReaderAction}
    (keeps : reader.KeepsToRequest action) : SharesBody request reader action := by
  intro conn isConn piece isPiece phaseEq canRecv part receivedEq
  have textEq : (conn.received (reader.unread.take piece.1)).headerText.bytes =
      request.head ++ (CString.ofBytes part).bytes := by
    rw [ConnState.headerText, ConnState.received, receivedEq, ofBytes_append _ wellFormed.nulFree]
  have found : strstr (conn.received (reader.unread.take piece.1)).headerText.bytes headerEnd =
      some (headerEnd ++ (CString.ofBytes part).bytes) := by
    rw [ConnState.headerText, ConnState.received, receivedEq]
    exact wellFormed.empty_line part
  obtain ⟨allocatesEq, leftover⟩ := keeps conn isConn piece isPiece phaseEq canRecv _ found
  have long := wellFormed.head_long
  rw [textEq, announcedLength_append wellFormed finds, ConnState.received, receivedEq,
    List.length_append, List.length_append, List.length_append,
    show headerEnd.length = 4 from rfl] at leftover
  exact ⟨allocatesEq, by omega⟩

theorem callocBody_of_positive {length : Nat} (small : length ≤ 10485760) :
    callocBody true length = some (List.replicate (length + 1) 0) := by
  have size : (((length : Int) + 1) % 2 ^ 64).toNat = length + 1 := by omega
  have granted : (true && decide (length + 1 < 2 ^ 63)) = true := by
    rw [Bool.true_and, decide_eq_true_eq]
    omega
  unfold callocBody
  dsimp only
  rw [size, if_pos granted]

/-- The end of the header section has come, with `shared` bytes of the body. -/
theorem startBody_of_request {request : Request} (wellFormed : request.WellFormed)
    (finds : request.FindsLength) {conn : ConnState} {shared : Nat}
    (headerEq : conn.headerBuffer = request.head ++ request.body.take shared)
    (within : shared ≤ request.body.length) (fresh : conn.bodyBytesRead = 0) :
    conn.startBody true (headerEnd ++ (CString.ofBytes (request.body.take shared)).bytes) =
      { conn with
        contentLength := request.body.length
        httpBody := some (request.bodyBuffer shared)
        bodyBytesRead := shared }.bodyRound := by
  have textEq : conn.headerText.bytes =
      request.head ++ (CString.ofBytes (request.body.take shared)).bytes := by
    rw [ConnState.headerText, headerEq, ofBytes_append _ wellFormed.nulFree]
  have announced : announcedLength conn.headerText.bytes = request.body.length := by
    rw [textEq]
    exact announcedLength_append wellFormed finds _
  have bodySome := wellFormed.bodySome
  have bodyMost := wellFormed.bodyMost
  have sharedLength : (request.body.take shared).length = shared := List.length_take_of_le within
  have headersSize : conn.headerText.bytes.length -
      (headerEnd ++ (CString.ofBytes (request.body.take shared)).bytes).length + 4 =
        request.head.length := by
    have long := wellFormed.head_long
    rw [textEq, List.length_append, List.length_append, show headerEnd.length = 4 from rfl]
    omega
  have leftover : (conn.headerBuffer.length : Int) - request.head.length = shared := by
    rw [headerEq, List.length_append, sharedLength]
    omega
  have accepted : ¬((request.body.length : Int) = 0 ∨ 10485760 < (request.body.length : Int)) := by
    omega
  unfold ConnState.startBody
  dsimp only
  rw [announced, if_neg accepted, callocBody_of_positive bodyMost]
  dsimp only
  rw [headersSize, leftover]
  by_cases someShared : 0 < (shared : Int)
  · have notMore : ¬(request.body.length : Int) < shared := by omega
    rw [if_pos someShared, if_neg notMore]
    unfold ConnState.takeLeftover
    have fits : BodyWrite.Fits
        { offset := 0
          length := shared
          size := (List.replicate (request.body.length + 1) (0 : UInt8)).length } := by
      rw [List.length_replicate]
      refine ⟨Int.le_refl _, ?_, ?_⟩ <;> dsimp only <;> omega
    have moved : overwrite (List.replicate (request.body.length + 1) 0) 0
        ((conn.headerBuffer.drop request.head.length).take (shared : Int).toNat) =
          request.bodyBuffer shared := by
      have started := request.bodyBuffer_more 0 (List.take_prefix shared request.body)
        (Nat.zero_le _)
      rw [headerEq, List.drop_left, Int.toNat_natCast, List.take_take, Nat.min_self]
      rw [sharedLength, Nat.zero_add] at started
      exact started
    dsimp only
    rw [if_pos fits, moved]
  · have noneShared : shared = 0 := by omega
    subst noneShared
    rw [if_neg someShared, fresh]
    rfl

theorem bodyRound_position {request : Request} {after : List UInt8} {reader : Reader}
    {conn : ConnState} {shared : Nat} (read : Nat) (statusEq : reader.status = conn.bodyRound)
    (headerEq : conn.headerBuffer = request.head ++ request.body.take shared)
    (lengthEq : conn.contentLength = request.body.length)
    (bodyEq : conn.httpBody = some (request.bodyBuffer read))
    (readEq : conn.bodyBytesRead = read) (within : read ≤ request.body.length)
    (unreadEq : reader.unread = request.body.drop read ++ after) :
    Position request after reader := by
  unfold ConnState.bodyRound at statusEq
  by_cases complete : conn.contentLength ≤ conn.bodyBytesRead
  · have allRead : read = request.body.length := by omega
    subst allRead
    rw [if_pos complete] at statusEq
    rw [request.bodyBuffer_all] at bodyEq
    rw [List.drop_length, List.nil_append] at unreadEq
    exact .done _ shared statusEq rfl headerEq bodyEq unreadEq
  · rw [if_neg complete] at statusEq
    exact .body _ shared read statusEq rfl headerEq lengthEq bodyEq readEq (by omega) unreadEq

/-- Two ways to cut one text, the first of them inside the front of the second. -/
theorem append_within {text more front back : List UInt8} (split : text ++ more = front ++ back)
    (short : text.length ≤ front.length) :
    text = front.take text.length ∧ more = front.drop text.length ++ back := by
  constructor
  · have taken := congrArg (List.take text.length) split
    rw [List.take_left, List.take_append_of_le_length short] at taken
    exact taken
  · have dropped := congrArg (List.drop text.length) split
    rw [List.drop_left, List.drop_append_of_le_length short] at dropped
    exact dropped

/-- A piece of the header section, or its end with a piece of the body. -/
theorem receiveHeader_position {request : Request} (wellFormed : request.WellFormed)
    (finds : request.FindsLength) {after bytes : List UInt8} {allocates : Bool}
    {conn : ConnState} {reader : Reader}
    (statusEq : reader.status = conn.receiveHeader bytes allocates)
    (phaseEq : conn.phase = .readingHeaders) (fresh : conn.bodyBytesRead = 0)
    (streamEq : conn.headerBuffer ++ bytes ++ reader.unread =
      request.head ++ (request.body ++ after))
    (shares : ∀ part, conn.headerBuffer ++ bytes = request.head ++ part →
      allocates = true ∧ part.length ≤ request.body.length) :
    Position request after reader := by
  by_cases complete : request.head.length ≤ (conn.headerBuffer ++ bytes).length
  · obtain ⟨headEq, partEq⟩ := append_within streamEq.symm complete
    have receivedEq := List.take_append_drop request.head.length (conn.headerBuffer ++ bytes)
    rw [← headEq] at receivedEq
    generalize (conn.headerBuffer ++ bytes).drop request.head.length = part at partEq receivedEq
    have found : strstr (conn.received bytes).headerText.bytes headerEnd =
        some (headerEnd ++ (CString.ofBytes part).bytes) := by
      rw [ConnState.headerText, ConnState.received, ← receivedEq]
      exact wellFormed.empty_line part
    obtain ⟨allocatesEq, within⟩ := shares part receivedEq.symm
    subst allocatesEq
    obtain ⟨partTake, unreadEq⟩ := append_within partEq.symm within
    have headerEq : (conn.received bytes).headerBuffer =
        request.head ++ request.body.take part.length := by
      rw [← partTake]
      exact receivedEq.symm
    rw [ConnState.receiveHeader_of_complete found, partTake,
      startBody_of_request wellFormed finds headerEq within fresh] at statusEq
    exact bodyRound_position _ statusEq headerEq rfl rfl rfl within unreadEq
  · have short : (conn.headerBuffer ++ bytes).length < request.head.length := by omega
    obtain ⟨isPart, -⟩ := append_within streamEq (Nat.le_of_lt short)
    have missing : strstr (conn.received bytes).headerText.bytes headerEnd = none := by
      rw [ConnState.headerText, ConnState.received, isPart]
      exact wellFormed.no_empty_line short
    rw [ConnState.receiveHeader, missing] at statusEq
    exact .header _ statusEq phaseEq fresh short streamEq

/-- A piece of the body. -/
theorem receiveBody_position {request : Request} {after bytes : List UInt8} {conn : ConnState}
    {reader : Reader} {shared read : Nat} (statusEq : reader.status = conn.receiveBody bytes)
    (headerEq : conn.headerBuffer = request.head ++ request.body.take shared)
    (lengthEq : conn.contentLength = request.body.length)
    (bodyEq : conn.httpBody = some (request.bodyBuffer read))
    (readEq : conn.bodyBytesRead = read) (within : read + bytes.length ≤ request.body.length)
    (streamEq : bytes ++ reader.unread = request.body.drop read ++ after) :
    Position request after reader := by
  have short : bytes.length ≤ (request.body.drop read).length := by
    rw [List.length_drop]
    omega
  obtain ⟨bytesEq, unreadEq⟩ := append_within streamEq short
  have isNext : bytes <+: request.body.drop read := List.prefix_iff_eq_take.mpr bytesEq
  rw [List.drop_drop] at unreadEq
  apply bodyRound_position (read + bytes.length) statusEq headerEq lengthEq
  · dsimp only
    rw [bodyEq, readEq, Option.map_some, Int.toNat_natCast,
      request.bodyBuffer_more read isNext (by omega)]
  · dsimp only
    rw [readEq]
    omega
  · exact within
  · exact unreadEq

theorem Request.bodyBuffer_length (request : Request) {read : Nat}
    (within : read ≤ request.body.length) :
    (request.bodyBuffer read).length = request.body.length + 1 := by
  rw [Request.bodyBuffer, List.length_append, List.length_take_of_le within,
    List.length_replicate]
  omega

theorem ConnState.round_of_body {conn : ConnState} (bytes : List UInt8) (allocates : Bool)
    (phaseEq : conn.phase = .readingBody) (fits : conn.recvWrite.Fits) :
    conn.round (.data bytes allocates) = conn.receiveBody bytes := by
  have started : conn.phase ≠ .readingHeaders := by
    rw [phaseEq]
    nofun
  unfold ConnState.round
  rw [if_neg started, if_pos fits]

theorem destCap_of_body {conn : ConnState} (phaseEq : conn.phase = .readingBody) :
    conn.destCap = conn.contentLength - conn.bodyBytesRead := by
  apply if_neg
  rw [phaseEq]
  nofun

theorem recvWrite_fits_of_body {request : Request} {conn : ConnState} {read : Nat}
    (phaseEq : conn.phase = .readingBody) (lengthEq : conn.contentLength = request.body.length)
    (bodyEq : conn.httpBody = some (request.bodyBuffer read)) (readEq : conn.bodyBytesRead = read)
    (more : read < request.body.length) : conn.recvWrite.Fits := by
  have capEq := destCap_of_body phaseEq
  have size := request.bodyBuffer_length (Nat.le_of_lt more)
  unfold ConnState.recvWrite
  rw [bodyEq, Option.getD_some, size]
  refine ⟨?_, ?_, ?_⟩ <;> dsimp only <;> omega

/-- Outside the end of a request, a pause leaves the connection as it is and an
end closes it. -/
theorem round_of_pause {conn : ConnState} {action : ReaderAction} {result : RecvResult}
    (kind : action = .again ∧ result = .again ∨ action = .eof ∧ result = .eof ∨
      action = .failed ∧ result = .failed)
    (room : conn.phase = .readingHeaders → ¬conn.destCap ≤ 0)
    (fits : conn.phase ≠ .readingHeaders → conn.recvWrite.Fits) :
    conn.round result = .active conn ∨
      ((action = .eof ∨ action = .failed) ∧ conn.round result = .closed none) := by
  unfold ConnState.round
  by_cases phaseEq : conn.phase = .readingHeaders
  · rw [if_pos phaseEq, if_neg (room phaseEq)]
    rcases kind with ⟨-, rfl⟩ | ⟨eof, rfl⟩ | ⟨failed, rfl⟩
    · exact Or.inl rfl
    · exact Or.inr ⟨Or.inl eof, rfl⟩
    · exact Or.inr ⟨Or.inr failed, rfl⟩
  · rw [if_neg phaseEq, if_pos (fits phaseEq)]
    rcases kind with ⟨-, rfl⟩ | ⟨eof, rfl⟩ | ⟨failed, rfl⟩
    · exact Or.inl rfl
    · exact Or.inr ⟨Or.inl eof, rfl⟩
    · exact Or.inr ⟨Or.inr failed, rfl⟩

/-- A step within a request keeps the position, unless the connection ends. -/
theorem Position.step {request : Request} (wellFormed : request.WellFormed)
    (finds : request.FindsLength) {after : List UInt8} {reader next : Reader}
    {action : ReaderAction} (position : Position request after reader)
    (shares : SharesBody request reader action) (stepped : reader.step action = some next) :
    (Position request after next ∧ next.calls = reader.calls) ∨
      (∃ conn, reader.status = .active conn ∧ conn.phase = .done ∧ action = .handle ∧
        next = reader.handleRequest conn) ∨
      ((action = .eof ∨ action = .failed) ∧ next.status = .closed none ∧
        next.calls = reader.calls) := by
  cases Reader.step_cases stepped with
  | handle conn statusEq done actionEq nextEq =>
      exact Or.inr (Or.inl ⟨conn, statusEq, done, actionEq, nextEq⟩)
  | recv conn count allocates statusEq notDone canRecv actionEq nextEq =>
      left
      subst nextEq
      refine ⟨?_, rfl⟩
      have countLength : (reader.unread.take count).length = count :=
        List.length_take_of_le canRecv.2.1
      cases position with
      | header conn' statusEq' phaseEq fresh short streamEq =>
          cases ConnStatus.active.inj (statusEq.symm.trans statusEq')
          have statusNext :=
            ConnState.round_of_header (reader.unread.take count) allocates phaseEq canRecv.room
          apply receiveHeader_position wellFormed finds statusNext phaseEq fresh
          · dsimp only
            rw [List.append_assoc, List.take_append_drop]
            exact streamEq
          · apply shares conn ?_ (count, allocates) ?_ phaseEq canRecv
            · rw [statusEq]
              rfl
            · rw [actionEq]
              rfl
      | body conn' shared read statusEq' phaseEq headerEq lengthEq bodyEq readEq more unreadEq =>
          cases ConnStatus.active.inj (statusEq.symm.trans statusEq')
          have capEq := destCap_of_body phaseEq
          have small := canRecv.2.2
          have fits := recvWrite_fits_of_body phaseEq lengthEq bodyEq readEq more
          have statusNext :=
            ConnState.round_of_body (reader.unread.take count) allocates phaseEq fits
          apply receiveBody_position statusNext headerEq lengthEq bodyEq readEq
          · rw [countLength]
            omega
          · dsimp only
            rw [List.take_append_drop]
            exact unreadEq
      | done conn' shared statusEq' phaseEq headerEq bodyEq unreadEq =>
          cases ConnStatus.active.inj (statusEq.symm.trans statusEq')
          exact absurd phaseEq notDone
  | pause conn result statusEq notDone kind nextEq =>
      subst nextEq
      have ends : (conn.phase = .readingHeaders → ¬conn.destCap ≤ 0) ∧
          (conn.phase ≠ .readingHeaders → conn.recvWrite.Fits) := by
        cases position with
        | header conn' statusEq' phaseEq fresh short streamEq =>
            cases ConnStatus.active.inj (statusEq.symm.trans statusEq')
            have capEq : conn.destCap = 4096 - 1 - conn.headerBuffer.length := if_pos phaseEq
            have fits := wellFormed.fits
            exact ⟨fun _ => by omega, fun started => absurd phaseEq started⟩
        | body conn' shared read statusEq' phaseEq headerEq lengthEq bodyEq readEq more unreadEq =>
            cases ConnStatus.active.inj (statusEq.symm.trans statusEq')
            exact ⟨fun unstarted => absurd (phaseEq.symm.trans unstarted) nofun,
              fun _ => recvWrite_fits_of_body phaseEq lengthEq bodyEq readEq more⟩
        | done conn' shared statusEq' phaseEq headerEq bodyEq unreadEq =>
            cases ConnStatus.active.inj (statusEq.symm.trans statusEq')
            exact absurd phaseEq notDone
      rcases round_of_pause kind ends.1 ends.2 with stays | ⟨ended, closed⟩
      · left
        have same : { reader with status := conn.round result } = reader := by
          rw [stays, ← statusEq]
        rw [same]
        exact ⟨position, rfl⟩
      · exact Or.inr (Or.inr ⟨ended, closed, rfl⟩)

end OriginDb
