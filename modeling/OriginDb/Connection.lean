/-
One connection: `handle_conn_event` of `server.c`.

The bytes of a client arrive in pieces of any size.  A connection first fills
`header_buffer` until it holds an empty line, takes the announced length from
it, allocates the body and moves over what has come of it, and then reads the
rest of the body.  A round of the loop is one step here, and so is the handling
of a complete request; a copy outside the body buffer ends the run, since
nothing is defined from there on.
-/

import OriginDb.Foundation.GuardedRun
import OriginDb.Foundation.TextSearch
import OriginDb.Requests

namespace OriginDb

open Foundation

/-! ### Text functions -/

def tolower (char : UInt8) : UInt8 := if 65 ≤ char && char ≤ 90 then char + 32 else char

/-- `strcasestr`: the text from the first occurrence on. -/
def strcasestr (text needle : List UInt8) : Option (List UInt8) :=
  TextSearch.search (fun char wanted => tolower char == tolower wanted) needle text

def isdigit (char : UInt8) : Bool := 48 ≤ char && char ≤ 57

def decimalValue (digits : List UInt8) : Nat :=
  digits.foldl (fun value digit => 10 * value + (digit.toNat - 48)) 0

/-- `strtol` with base 10, which stops at the ends of a 64-bit `long`. -/
def strtol (text : List UInt8) : Int :=
  let trimmed := text.dropWhile isspace
  let sign := trimmed.head?
  let digits := if sign = some 45 ∨ sign = some 43 then trimmed.drop 1 else trimmed
  let value : Int := decimalValue (digits.takeWhile isdigit)
  if sign = some 45 then max (-value) (-2 ^ 63) else min value (2 ^ 63 - 1)

/-- `atoi`: `strtol` cut down to an `int`. -/
def atoi (text : List UInt8) : Int := (strtol text).bmod (2 ^ 32)

def headerEnd : List UInt8 := [13, 10, 13, 10]

/-- The length that `handle_conn_event` takes from the header buffer. -/
def announcedLength (text : List UInt8) : Int :=
  match strcasestr text (asciiBytes "Content-Length:") with
  | none => 0
  | some found => atoi (found.drop 15)

def asksToClose (headerText : CString) : Bool :=
  (strcasestr headerText.bytes (asciiBytes "Connection: close")).isSome

/-! ### The state of a connection -/

inductive ConnPhase where
  | readingHeaders
  | readingBody
  | done
deriving DecidableEq

/-- `conn_state_t`; `header_length` is the length of `headerBuffer`. -/
structure ConnState where
  fd : Nat
  phase : ConnPhase
  headerBuffer : List UInt8
  contentLength : Int
  httpBody : Option (List UInt8)
  bodyBytesRead : Int
deriving DecidableEq

/-- What `acceptor_loop` makes of a new descriptor. -/
def ConnState.accepted (fd : Nat) : ConnState where
  fd := fd
  phase := .readingHeaders
  headerBuffer := []
  contentLength := 0
  httpBody := none
  bodyBytesRead := 0

/-- The state after a request on a connection that is kept. -/
def ConnState.reset (conn : ConnState) : ConnState :=
  { conn with
    phase := .readingHeaders
    headerBuffer := []
    contentLength := 0
    httpBody := none
    bodyBytesRead := 0 }

/-- The header buffer as a C string: a byte 0 in it ends the text. -/
def ConnState.headerText (conn : ConnState) : CString := CString.ofBytes conn.headerBuffer

/-- `dest_cap`. -/
def ConnState.destCap (conn : ConnState) : Int :=
  if conn.phase = .readingHeaders then 4096 - 1 - conn.headerBuffer.length
  else conn.contentLength - conn.bodyBytesRead

/-- A copy or `recv` into `http_body`, which has `size` bytes. -/
structure BodyWrite where
  offset : Int
  length : Int
  size : Nat
deriving DecidableEq

def BodyWrite.Fits (write : BodyWrite) : Prop :=
  0 ≤ write.offset ∧ 0 ≤ write.length ∧ write.offset + write.length ≤ write.size

instance (write : BodyWrite) : Decidable write.Fits :=
  inferInstanceAs (Decidable (_ ∧ _ ∧ _))

/-- The `recv` of the next round, if it goes to the body. -/
def ConnState.recvWrite (conn : ConnState) : BodyWrite where
  offset := conn.bodyBytesRead
  length := conn.destCap
  size := (conn.httpBody.getD []).length

/-- A closed connection remembers the error that `handle_conn_event` has sent. -/
inductive ConnStatus where
  | active (conn : ConnState)
  | closed (answer : Option Response)
  | overrun (write : BodyWrite)
deriving DecidableEq

def ConnStatus.conn? : ConnStatus → Option ConnState
  | .active conn => some conn
  | _ => none

/-- `calloc(content_length + 1, 1)`: the argument becomes a `size_t`, and a size
beyond `PTRDIFF_MAX` is refused whatever `allocates` says. -/
def callocBody (allocates : Bool) (contentLength : Int) : Option (List UInt8) :=
  let size := ((contentLength + 1) % 2 ^ 64).toNat
  if allocates && decide (size < 2 ^ 63) then some (List.replicate size 0) else none

/-- The overwriting of a part of a buffer. -/
def overwrite (buffer : List UInt8) (offset : Nat) (bytes : List UInt8) : List UInt8 :=
  buffer.take offset ++ bytes ++ buffer.drop (offset + bytes.length)

/-- The end of a round that may have completed the body. -/
def ConnState.bodyRound (conn : ConnState) : ConnStatus :=
  if conn.contentLength ≤ conn.bodyBytesRead then .active { conn with phase := .done }
  else .active { conn with phase := .readingBody }

/-- The `memcpy` of `take` bytes that stand behind the header section. -/
def ConnState.takeLeftover (conn : ConnState) (contentLength : Int) (buffer : List UInt8)
    (headersSize : Nat) (take : Int) : ConnStatus :=
  let write : BodyWrite := { offset := 0, length := take, size := buffer.length }
  if write.Fits then
    { conn with
      contentLength := contentLength
      httpBody :=
        some (overwrite buffer 0 ((conn.headerBuffer.drop headersSize).take take.toNat))
      bodyBytesRead := take }.bodyRound
  else .overrun write

/-- The empty line stands where `bodyStart` begins: allocate the body and move
over what has come of it. -/
def ConnState.startBody (conn : ConnState) (allocates : Bool) (bodyStart : List UInt8) :
    ConnStatus :=
  let text := conn.headerText.bytes
  let contentLength := announcedLength text
  if contentLength = 0 ∨ 10485760 < contentLength then
    .closed (some (.error .invalidParameter "Missing or excessive Content-Length header."))
  else
    match callocBody allocates contentLength with
    | none =>
        .closed (some (.error .internalError "Out of memory allocating request body."))
    | some buffer =>
        let headersSize := text.length - bodyStart.length + 4
        let leftover : Int := conn.headerBuffer.length - headersSize
        if 0 < leftover then
          conn.takeLeftover contentLength buffer headersSize
            (if contentLength < leftover then contentLength else leftover)
        else
          { conn with
            contentLength := contentLength
            httpBody := some buffer }.bodyRound

def ConnState.received (conn : ConnState) (bytes : List UInt8) : ConnState :=
  { conn with headerBuffer := conn.headerBuffer ++ bytes }

def ConnState.receiveHeader (conn : ConnState) (bytes : List UInt8) (allocates : Bool) :
    ConnStatus :=
  match strstr (conn.received bytes).headerText.bytes headerEnd with
  | none => .active (conn.received bytes)
  | some bodyStart => (conn.received bytes).startBody allocates bodyStart

def ConnState.receiveBody (conn : ConnState) (bytes : List UInt8) : ConnStatus :=
  { conn with
    httpBody := conn.httpBody.map fun buffer => overwrite buffer conn.bodyBytesRead.toNat bytes
    bodyBytesRead := conn.bodyBytesRead + bytes.length }.bodyRound

/-- What `recv` returns; `allocates` is the outcome of the allocation that may
follow. -/
inductive RecvResult where
  | data (bytes : List UInt8) (allocates : Bool)
  | again
  | eof
  | failed
deriving DecidableEq

/-- One round of the loop. -/
def ConnState.round (conn : ConnState) (result : RecvResult) : ConnStatus :=
  if conn.phase = .readingHeaders then
    if conn.destCap ≤ 0 then .closed none
    else
      match result with
      | .data bytes allocates => conn.receiveHeader bytes allocates
      | .again => .active conn
      | _ => .closed none
  else if conn.recvWrite.Fits then
    match result with
    | .data bytes _ => conn.receiveBody bytes
    | .again => .active conn
    | _ => .closed none
  else .overrun conn.recvWrite

theorem ConnState.receiveHeader_of_complete {conn : ConnState} {bytes bodyStart : List UInt8}
    {allocates : Bool}
    (found : strstr (conn.received bytes).headerText.bytes headerEnd = some bodyStart) :
    conn.receiveHeader bytes allocates =
      (conn.received bytes).startBody allocates bodyStart := by
  unfold ConnState.receiveHeader
  rw [found]

theorem ConnState.round_of_header {conn : ConnState} (bytes : List UInt8) (allocates : Bool)
    (phaseEq : conn.phase = .readingHeaders) (room : ¬conn.destCap ≤ 0) :
    conn.round (.data bytes allocates) = conn.receiveHeader bytes allocates := by
  unfold ConnState.round
  rw [if_pos phaseEq, if_neg room]

theorem ConnState.bodyRound_open (conn : ConnState) (answer : Option Response) :
    conn.bodyRound ≠ .closed answer := by
  unfold ConnState.bodyRound
  split <;> nofun

theorem ConnState.takeLeftover_open (conn : ConnState) (contentLength take : Int)
    (buffer : List UInt8) (headersSize : Nat) (answer : Option Response) :
    conn.takeLeftover contentLength buffer headersSize take ≠ .closed answer := by
  unfold ConnState.takeLeftover
  dsimp only
  split
  · exact ConnState.bodyRound_open _ answer
  · nofun

/-- The two responses that `handle_conn_event` sends itself. -/
theorem ConnState.round_refuses {conn : ConnState} {result : RecvResult} {response : Response}
    (refused : conn.round result = .closed (some response)) :
    response = .error .invalidParameter "Missing or excessive Content-Length header." ∨
      response = .error .internalError "Out of memory allocating request body." := by
  unfold ConnState.round at refused
  split at refused
  · split at refused
    · cases refused
    · split at refused
      · unfold ConnState.receiveHeader at refused
        split at refused
        · cases refused
        · unfold ConnState.startBody at refused
          dsimp only at refused
          split at refused
          · cases refused
            exact Or.inl rfl
          · split at refused
            · cases refused
              exact Or.inr rfl
            · split at refused
              · exact absurd refused (ConnState.takeLeftover_open _ _ _ _ _ _)
              · exact absurd refused (ConnState.bodyRound_open _ _)
      · cases refused
      · cases refused
  · split at refused
    · split at refused
      · exact absurd refused (ConnState.bodyRound_open _ _)
      · cases refused
      · cases refused
    · cases refused

/-! ### A connection and its client -/

/-- A call of `handel_client`: what stands in the header buffer and in the body. -/
structure HandlerCall where
  headerText : CString
  httpBody : List UInt8
deriving DecidableEq

/-- A connection, the bytes that its client has sent and it has not read yet, and
the calls of `handel_client` so far. -/
structure Reader where
  status : ConnStatus
  unread : List UInt8
  calls : List HandlerCall
deriving DecidableEq

inductive ReaderAction where
  | recv (count : Nat) (allocates : Bool)
  | again
  | eof
  | failed
  | handle
deriving DecidableEq

def ReaderAction.recv? : ReaderAction → Option (Nat × Bool)
  | .recv count allocates => some (count, allocates)
  | _ => none

namespace Reader

def start (fd : Nat) (stream : List UInt8) : Reader where
  status := .active (ConnState.accepted fd)
  unread := stream
  calls := []

/-- A `recv` takes at least one byte, and at most what is asked for and there. -/
def CanRecv (reader : Reader) (conn : ConnState) (count : Nat) : Prop :=
  0 < count ∧ count ≤ reader.unread.length ∧ (count : Int) ≤ conn.destCap

instance (reader : Reader) (conn : ConnState) (count : Nat) :
    Decidable (reader.CanRecv conn count) := inferInstanceAs (Decidable (_ ∧ _ ∧ _))

/-- The call of `handel_client` and the decision about the connection.  On an
unknown route `handel_client` itself closes the descriptor. -/
def handleRequest (reader : Reader) (conn : ConnState) : Reader :=
  { reader with
    status :=
      if routeOf conn.headerText = .invalid || asksToClose conn.headerText then .closed none
      else .active conn.reset
    calls := reader.calls ++
      [{ headerText := conn.headerText, httpBody := conn.httpBody.getD [] }] }

def step (reader : Reader) (action : ReaderAction) : Option Reader :=
  match reader.status with
  | .active conn =>
      if conn.phase = .done then
        if action = .handle then some (reader.handleRequest conn) else none
      else
        match action with
        | .recv count allocates =>
            if reader.CanRecv conn count then
              some
                { reader with
                  status := conn.round (.data (reader.unread.take count) allocates)
                  unread := reader.unread.drop count }
            else none
        | .again => some { reader with status := conn.round .again }
        | .eof => some { reader with status := conn.round .eof }
        | .failed => some { reader with status := conn.round .failed }
        | .handle => none
  | _ => none

/-- What a step can be. -/
inductive Effect (reader : Reader) (action : ReaderAction) (next : Reader) : Prop where
  | recv (conn : ConnState) (count : Nat) (allocates : Bool)
      (statusEq : reader.status = .active conn) (notDone : conn.phase ≠ .done)
      (canRecv : reader.CanRecv conn count) (actionEq : action = .recv count allocates)
      (nextEq : next =
        { reader with
          status := conn.round (.data (reader.unread.take count) allocates)
          unread := reader.unread.drop count })
  | pause (conn : ConnState) (result : RecvResult) (statusEq : reader.status = .active conn)
      (notDone : conn.phase ≠ .done)
      (kind : action = .again ∧ result = .again ∨ action = .eof ∧ result = .eof ∨
        action = .failed ∧ result = .failed)
      (nextEq : next = { reader with status := conn.round result })
  | handle (conn : ConnState) (statusEq : reader.status = .active conn)
      (done : conn.phase = .done) (actionEq : action = .handle)
      (nextEq : next = reader.handleRequest conn)

theorem step_cases {reader next : Reader} {action : ReaderAction}
    (stepped : reader.step action = some next) : Effect reader action next := by
  unfold step at stepped
  split at stepped
  · rename_i conn statusEq
    split at stepped
    · rename_i done
      split at stepped
      · rename_i actionEq
        cases stepped
        exact .handle conn statusEq done actionEq rfl
      · cases stepped
    · rename_i notDone
      split at stepped
      · rename_i count allocates
        split at stepped
        · rename_i canRecv
          cases stepped
          exact .recv conn count allocates statusEq notDone canRecv rfl rfl
        · cases stepped
      · cases stepped
        exact .pause conn .again statusEq notDone (Or.inl ⟨rfl, rfl⟩) rfl
      · cases stepped
        exact .pause conn .eof statusEq notDone (Or.inr (Or.inl ⟨rfl, rfl⟩)) rfl
      · cases stepped
        exact .pause conn .failed statusEq notDone (Or.inr (Or.inr ⟨rfl, rfl⟩)) rfl
      · cases stepped
  · cases stepped

end Reader

/-! ### The buffers stay in bounds -/

structure ConnState.InBounds (conn : ConnState) : Prop where
  header : conn.headerBuffer.length ≤ 4095
  announced : conn.phase ≠ .readingHeaders →
    1 ≤ conn.contentLength ∧ conn.contentLength ≤ 10485760
  read : conn.phase ≠ .readingHeaders →
    0 ≤ conn.bodyBytesRead ∧ conn.bodyBytesRead ≤ conn.contentLength

/-- The fields are in bounds, and no copy has left the body buffer. -/
def ConnStatus.InBounds : ConnStatus → Prop
  | .active conn => conn.InBounds
  | .closed _ => True
  | .overrun _ => False

def Reader.InBounds (reader : Reader) : Prop := reader.status.InBounds

/-- The step does not complete a header section that announces -1 bytes and gets
a body buffer for it. -/
def Reader.NoMinusOne (reader : Reader) (action : ReaderAction) : Prop :=
  ∀ conn count, reader.status = .active conn → conn.phase = .readingHeaders →
    action = .recv count true → reader.CanRecv conn count →
      let text := (conn.received (reader.unread.take count)).headerText.bytes
      (strstr text headerEnd).isSome = true → announcedLength text ≠ -1

theorem atoi_ge (text : List UInt8) : -2 ^ 31 ≤ atoi text := by
  have bound := Int.le_bmod (x := strtol text) (m := 2 ^ 32) (by decide)
  exact bound

theorem announcedLength_ge (text : List UInt8) : -2 ^ 31 ≤ announcedLength text := by
  unfold announcedLength
  split
  · decide
  · exact atoi_ge _

/-- Only -1 gets past the checks with a negative length. -/
theorem callocBody_eq_some {allocates : Bool} {contentLength : Int} {buffer : List UInt8}
    (low : -2 ^ 31 ≤ contentLength) (high : contentLength ≤ 10485760)
    (called : callocBody allocates contentLength = some buffer) :
    allocates = true ∧ -1 ≤ contentLength ∧ (buffer.length : Int) = contentLength + 1 := by
  unfold callocBody at called
  dsimp only at called
  split at called
  · rename_i granted
    obtain ⟨allocatesEq, small⟩ := Bool.and_eq_true_iff.mp granted
    have smallSize := of_decide_eq_true small
    cases called
    rw [List.length_replicate]
    refine ⟨allocatesEq, ?_, ?_⟩ <;> omega
  · cases called

/-- What keeps a connection in bounds from one round to the next. -/
structure ConnState.Sound (conn : ConnState) : Prop where
  inBounds : conn.InBounds
  notStarted : conn.phase = .readingHeaders → conn.bodyBytesRead = 0
  buffer : conn.phase ≠ .readingHeaders →
    ((conn.httpBody.getD []).length : Int) = conn.contentLength + 1
  unfinished : conn.phase = .readingBody → conn.bodyBytesRead < conn.contentLength

def ConnStatus.Sound : ConnStatus → Prop
  | .active conn => conn.Sound
  | .closed _ => True
  | .overrun _ => False

theorem ConnStatus.Sound.inBounds {status : ConnStatus} (sound : status.Sound) :
    status.InBounds := by
  cases status with
  | active conn => exact ConnState.Sound.inBounds sound
  | closed answer => trivial
  | overrun write => exact sound

theorem ConnState.accepted_sound (fd : Nat) : (ConnState.accepted fd).Sound where
  inBounds :=
    { header := Nat.zero_le _
      announced := fun started => absurd rfl started
      read := fun started => absurd rfl started }
  notStarted := fun _ => rfl
  buffer := fun started => absurd rfl started
  unfinished := nofun

theorem ConnState.bodyRound_sound {conn : ConnState} (header : conn.headerBuffer.length ≤ 4095)
    (announced : 1 ≤ conn.contentLength ∧ conn.contentLength ≤ 10485760)
    (read : 0 ≤ conn.bodyBytesRead ∧ conn.bodyBytesRead ≤ conn.contentLength)
    (buffer : ((conn.httpBody.getD []).length : Int) = conn.contentLength + 1) :
    conn.bodyRound.Sound := by
  unfold ConnState.bodyRound
  split
  · exact ⟨⟨header, fun _ => announced, fun _ => read⟩, nofun, fun _ => buffer, nofun⟩
  · rename_i more
    exact ⟨⟨header, fun _ => announced, fun _ => read⟩, nofun, fun _ => buffer,
      fun _ => Int.not_le.mp more⟩

theorem overwrite_length {buffer : List UInt8} {offset : Nat} {bytes : List UInt8}
    (fits : offset + bytes.length ≤ buffer.length) :
    (overwrite buffer offset bytes).length = buffer.length := by
  simp only [overwrite, List.length_append, List.length_take, List.length_drop]
  omega

theorem ConnState.takeLeftover_sound {conn : ConnState} {contentLength take : Int}
    {buffer : List UInt8} {headersSize : Nat} (header : conn.headerBuffer.length ≤ 4095)
    (announced : 1 ≤ contentLength ∧ contentLength ≤ 10485760)
    (length : (buffer.length : Int) = contentLength + 1) (someBytes : 0 ≤ take)
    (within : take ≤ contentLength) :
    (conn.takeLeftover contentLength buffer headersSize take).Sound := by
  have fits : BodyWrite.Fits { offset := 0, length := take, size := buffer.length } := by
    refine ⟨Int.le_refl _, someBytes, ?_⟩
    dsimp only
    omega
  unfold ConnState.takeLeftover
  dsimp only
  rw [if_pos fits]
  apply ConnState.bodyRound_sound
  · exact header
  · exact announced
  · exact ⟨someBytes, within⟩
  · dsimp only [Option.getD_some]
    rw [overwrite_length, length]
    simp only [List.length_take]
    omega

theorem ConnState.startBody_sound {conn : ConnState} {allocates : Bool} {bodyStart : List UInt8}
    (header : conn.headerBuffer.length ≤ 4095) (notStarted : conn.bodyBytesRead = 0)
    (noMinusOne : allocates = true → announcedLength conn.headerText.bytes ≠ -1) :
    (conn.startBody allocates bodyStart).Sound := by
  unfold ConnState.startBody
  dsimp only
  split
  · trivial
  · rename_i accepted
    have nonzero : announcedLength conn.headerText.bytes ≠ 0 := fun zero => accepted (Or.inl zero)
    have high : announcedLength conn.headerText.bytes ≤ 10485760 :=
      Int.not_lt.mp fun larger => accepted (Or.inr larger)
    split
    · trivial
    · rename_i buffer called
      obtain ⟨allocatesEq, low, length⟩ :=
        callocBody_eq_some (announcedLength_ge _) high called
      have notMinusOne := noMinusOne allocatesEq
      have positive : 1 ≤ announcedLength conn.headerText.bytes := by omega
      split
      · rename_i someLeft
        apply ConnState.takeLeftover_sound header ⟨positive, high⟩ length
        · split
          · omega
          · exact Int.le_of_lt someLeft
        · split
          · exact Int.le_refl _
          · rename_i notMore
            exact Int.not_lt.mp notMore
      · apply ConnState.bodyRound_sound
        · exact header
        · exact ⟨positive, high⟩
        · dsimp only
          omega
        · exact length

/-- A length of -1 for which `calloc` returns a buffer. -/
theorem ConnState.startBody_minusOne {conn : ConnState} {bodyStart : List UInt8}
    (minusOne : announcedLength conn.headerText.bytes = -1) :
    ¬(conn.startBody true bodyStart).InBounds := by
  have called : callocBody true (-1) = some [] := by decide
  have notRefused : ¬((-1 : Int) = 0 ∨ 10485760 < (-1 : Int)) := by decide
  unfold ConnState.startBody
  dsimp only
  rw [minusOne, if_neg notRefused, called]
  dsimp only
  split
  · rename_i someLeft
    have less : (-1 : Int) < conn.headerBuffer.length -
        ((conn.headerText.bytes.length - bodyStart.length + 4 : Nat) : Int) := by omega
    have outside : ¬BodyWrite.Fits
        { offset := 0, length := -1, size := ([] : List UInt8).length } := by decide
    unfold ConnState.takeLeftover
    dsimp only
    rw [if_pos less, if_neg outside]
    exact id
  · unfold ConnState.bodyRound
    split
    · intro inBounds
      exact absurd (inBounds.announced nofun).1 (by decide : ¬(1 : Int) ≤ -1)
    · intro inBounds
      exact absurd (inBounds.announced nofun).1 (by decide : ¬(1 : Int) ≤ -1)

theorem ConnState.receiveHeader_sound {conn : ConnState} {bytes : List UInt8} {allocates : Bool}
    (header : conn.headerBuffer.length + bytes.length ≤ 4095) (sound : conn.Sound)
    (phaseEq : conn.phase = .readingHeaders)
    (noMinusOne : let text := (conn.received bytes).headerText.bytes
      (strstr text headerEnd).isSome = true → allocates = true → announcedLength text ≠ -1) :
    (conn.receiveHeader bytes allocates).Sound := by
  have lengthEq : (conn.received bytes).headerBuffer.length ≤ 4095 := by
    rw [ConnState.received, List.length_append]
    exact header
  unfold ConnState.receiveHeader
  split
  · exact ⟨⟨lengthEq, fun started => absurd phaseEq started, fun started => absurd phaseEq started⟩,
      fun _ => sound.notStarted phaseEq, fun started => absurd phaseEq started,
      fun started => absurd (phaseEq.symm.trans started) nofun⟩
  · rename_i bodyStart found
    apply ConnState.startBody_sound lengthEq (sound.notStarted phaseEq)
    apply noMinusOne
    have isFound := congrArg Option.isSome found
    exact isFound

theorem ConnState.receiveBody_sound {conn : ConnState} {bytes : List UInt8} (sound : conn.Sound)
    (started : conn.phase ≠ .readingHeaders) (within : (bytes.length : Int) ≤ conn.destCap) :
    (conn.receiveBody bytes).Sound := by
  have capEq : conn.destCap = conn.contentLength - conn.bodyBytesRead := if_neg started
  have length := sound.buffer started
  have read := sound.inBounds.read started
  unfold ConnState.receiveBody
  apply ConnState.bodyRound_sound
  · exact sound.inBounds.header
  · exact sound.inBounds.announced started
  · dsimp only
    omega
  · dsimp only
    cases bodyEq : conn.httpBody with
    | none =>
        rw [bodyEq, Option.getD_none, List.length_nil] at length
        omega
    | some buffer =>
        rw [bodyEq, Option.getD_some] at length
        rw [Option.map_some, Option.getD_some, overwrite_length, length]
        omega

/-- What a `recv` in the middle of the body may write. -/
theorem ConnState.Sound.recvWrite_fits {conn : ConnState} (sound : conn.Sound)
    (started : conn.phase ≠ .readingHeaders) : conn.recvWrite.Fits := by
  have capEq : conn.destCap = conn.contentLength - conn.bodyBytesRead := if_neg started
  have length := sound.buffer started
  have read := sound.inBounds.read started
  unfold ConnState.recvWrite
  refine ⟨read.1, ?_, ?_⟩
  · dsimp only
    omega
  · dsimp only
    omega

/-- A round keeps the connection sound if it does not start a body of -1 bytes. -/
theorem ConnState.round_sound {conn : ConnState} {result : RecvResult} (sound : conn.Sound)
    (within : ∀ bytes allocates, result = .data bytes allocates →
      (bytes.length : Int) ≤ conn.destCap)
    (noMinusOne : ∀ bytes, result = .data bytes true → conn.phase = .readingHeaders →
      let text := (conn.received bytes).headerText.bytes
      (strstr text headerEnd).isSome = true → announcedLength text ≠ -1) :
    (conn.round result).Sound := by
  unfold ConnState.round
  split
  · rename_i phaseEq
    split
    · trivial
    · split
      · rename_i bytes allocates
        have small := within bytes allocates rfl
        have capEq : conn.destCap = 4096 - 1 - conn.headerBuffer.length := if_pos phaseEq
        apply ConnState.receiveHeader_sound ?_ sound phaseEq
        · intro text complete allocatesEq
          subst allocatesEq
          exact noMinusOne bytes rfl phaseEq complete
        · omega
      · exact sound
      · trivial
  · rename_i started
    split
    · split
      · rename_i bytes allocates
        exact ConnState.receiveBody_sound sound started (within bytes allocates rfl)
      · exact sound
      · trivial
    · rename_i outside
      exact outside (sound.recvWrite_fits started)

theorem ConnState.reset_sound (conn : ConnState) : conn.reset.Sound where
  inBounds :=
    { header := Nat.zero_le _
      announced := fun started => absurd rfl started
      read := fun started => absurd rfl started }
  notStarted := fun _ => rfl
  buffer := fun started => absurd rfl started
  unfinished := nofun

theorem Reader.step_sound {reader next : Reader} {action : ReaderAction}
    (sound : reader.status.Sound) (noMinusOne : reader.NoMinusOne action)
    (stepped : reader.step action = some next) : next.status.Sound := by
  cases Reader.step_cases stepped with
  | recv conn count allocates statusEq notDone canRecv actionEq nextEq =>
      rw [statusEq] at sound
      rw [nextEq]
      have within : ∀ bytes granted, RecvResult.data (reader.unread.take count) allocates =
          .data bytes granted → (bytes.length : Int) ≤ conn.destCap := by
        intro bytes granted same
        cases same
        rw [List.length_take]
        have small := canRecv.2.2
        omega
      apply ConnState.round_sound sound within
      intro bytes same phaseEq
      cases same
      exact noMinusOne conn count statusEq phaseEq actionEq canRecv
  | pause conn result statusEq notDone kind nextEq =>
      have notData : ∀ bytes allocates, result ≠ .data bytes allocates := by
        intro bytes allocates same
        rcases kind with ⟨-, again⟩ | ⟨-, eof⟩ | ⟨-, failed⟩
        · exact absurd (again.symm.trans same) nofun
        · exact absurd (eof.symm.trans same) nofun
        · exact absurd (failed.symm.trans same) nofun
      rw [statusEq] at sound
      rw [nextEq]
      apply ConnState.round_sound sound
      · intro bytes granted same
        exact absurd same (notData bytes granted)
      · intro bytes same
        exact absurd same (notData bytes true)
  | handle conn statusEq done actionEq nextEq =>
      rw [nextEq]
      unfold Reader.handleRequest
      dsimp only
      split
      · trivial
      · exact conn.reset_sound

/-- Where bytes can be received there is room for them. -/
theorem Reader.CanRecv.room {reader : Reader} {conn : ConnState} {count : Nat}
    (canRecv : reader.CanRecv conn count) : ¬conn.destCap ≤ 0 := by
  obtain ⟨positive, -, small⟩ := canRecv
  omega

/-- A step that starts a body of -1 bytes leaves the bounds. -/
theorem Reader.noMinusOne_of_inBounds {reader : Reader} {action : ReaderAction}
    (after : ∀ next, reader.step action = some next → next.InBounds) :
    reader.NoMinusOne action := by
  intro conn count statusEq phaseEq actionEq canRecv text complete minusOne
  have notDone : conn.phase ≠ .done := fun done => absurd (phaseEq.symm.trans done) nofun
  have stepped : reader.step action = some
      { reader with
        status := conn.round (.data (reader.unread.take count) true)
        unread := reader.unread.drop count } := by
    unfold Reader.step
    rw [statusEq, actionEq]
    dsimp only
    rw [if_neg notDone, if_pos canRecv]
  have inBounds := after _ stepped
  obtain ⟨bodyStart, found⟩ := Option.isSome_iff_exists.mp complete
  have roundEq : conn.round (.data (reader.unread.take count) true) =
      (conn.received (reader.unread.take count)).startBody true bodyStart := by
    rw [ConnState.round_of_header _ _ phaseEq canRecv.room,
      ConnState.receiveHeader_of_complete found]
  rw [Reader.InBounds, roundEq] at inBounds
  exact ConnState.startBody_minusOne minusOne inBounds

/-- Every reachable state of a connection is in bounds, exactly if no header
section in the run announces -1 bytes and gets a buffer for them. -/
theorem connection_in_bounds_iff (fd : Nat) (stream : List UInt8) (actions : List ReaderAction) :
    GuardedRun.Throughout Reader.step Reader.InBounds (Reader.start fd stream) actions ↔
      GuardedRun.Admits Reader.step Reader.NoMinusOne (Reader.start fd stream) actions := by
  have startSound : (Reader.start fd stream).status.Sound := ConnState.accepted_sound fd
  have stepKeeps : ∀ (reader : Reader) action next, reader.status.Sound →
      reader.NoMinusOne action → reader.step action = some next → next.status.Sound :=
    fun reader action next => Reader.step_sound
  constructor
  · intro always
    exact GuardedRun.admits_of_throughout stepKeeps
      (fun reader action _ _ after => Reader.noMinusOne_of_inBounds after)
      startSound always
  · intro admitted
    exact GuardedRun.throughout_of_step stepKeeps
      (fun reader sound => ConnStatus.Sound.inBounds sound) startSound admitted

/-- A request that announces -1 bytes. -/
def minusOneRequest : List UInt8 :=
  asciiBytes "POST /search HTTP/1.1\r\nContent-Length: -1\r\n\r\n"

/-- Alone it is complete with a length of -1; with one byte behind it, it makes
the copy of -1 bytes. -/
theorem minus_one_leaves_bounds :
    (∃ final, GuardedRun.run Reader.step (Reader.start 5 (minusOneRequest ++ []))
        [.recv (minusOneRequest ++ []).length true] = some final ∧ ¬final.InBounds) ∧
      ∃ final, GuardedRun.run Reader.step (Reader.start 5 (minusOneRequest ++ [123]))
        [.recv (minusOneRequest ++ [123]).length true] = some final ∧ ¬final.InBounds := by
  have complete : GuardedRun.run Reader.step (Reader.start 5 (minusOneRequest ++ []))
      [.recv (minusOneRequest ++ []).length true] =
        some
          { status := .active
              { ConnState.accepted 5 with
                phase := .done
                headerBuffer := minusOneRequest
                contentLength := -1
                httpBody := some [] }
            unread := []
            calls := [] } := by
    decide +kernel
  have copies : GuardedRun.run Reader.step (Reader.start 5 (minusOneRequest ++ [123]))
      [.recv (minusOneRequest ++ [123]).length true] =
        some
          { status := .overrun { offset := 0, length := -1, size := 0 }
            unread := []
            calls := [] } := by
    decide +kernel
  constructor
  · refine ⟨_, complete, ?_⟩
    intro inBounds
    exact absurd (inBounds.announced nofun).1 (by decide : ¬(1 : Int) ≤ -1)
  · exact ⟨_, copies, id⟩

end OriginDb
