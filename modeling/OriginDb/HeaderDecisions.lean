/-
What the header section decides.

`handel_client` and `handle_conn_event` search the header buffer for the route,
for the key and for the wish to close.  The buffer holds the header section and
what of the body has arrived together with its end, so two requests with the
same header section can be treated differently.  The module states exactly when
they are not.
-/

import OriginDb.KeepAlive

namespace OriginDb

open Foundation

/-! ### The three searches -/

def searchText : List UInt8 := asciiBytes "POST /search"

def insertText : List UInt8 := asciiBytes "POST /insert"

def deleteRequestText : List UInt8 := asciiBytes "POST /delete-request"

def trainText : List UInt8 := asciiBytes "POST /train"

def authorizationText : List UInt8 := asciiBytes "Authorization: Bearer "

/-- The route with whose name the request line starts. -/
def routeNamed (head : List UInt8) : Route :=
  if searchText.isPrefixOf head then .search
  else if insertText.isPrefixOf head then .insert
  else if deleteRequestText.isPrefixOf head then .deleteRequest
  else if trainText.isPrefixOf head then .train
  else .invalid

/-- What `handel_client` has looked for in vain when it comes to a branch. -/
def testedBefore : Route → List (List UInt8)
  | .search => []
  | .insert => [searchText]
  | .deleteRequest => [searchText, insertText]
  | .train => [searchText, insertText, deleteRequestText]
  | .invalid => [searchText, insertText, deleteRequestText, trainText]

/-- What it has found there. -/
def testedLast : Route → Option (List UInt8)
  | .search => some searchText
  | .insert => some insertText
  | .deleteRequest => some deleteRequestText
  | .train => some trainText
  | .invalid => none

def occursIn (needle text : List UInt8) : Bool := (strstr text needle).isSome

/-- The key that `authenticate_request` takes from the header buffer. -/
def bearerToken (text : List UInt8) : Option (List UInt8) :=
  (strstr text authorizationText).map fun found => scanToken (found.drop 22)

theorem authenticateRequest_eq (authCache : List AuthEntry) (headerBuffer dbName : CString) :
    authenticateRequest authCache headerBuffer dbName =
      match bearerToken headerBuffer.bytes with
      | none => false
      | some token => verifyApiKey authCache dbName token := by
  unfold authenticateRequest bearerToken authorizationText
  cases strstr headerBuffer.bytes (asciiBytes "Authorization: Bearer ") with
  | none => rfl
  | some found => rfl

theorem routeOf_eq_iff (headerBuffer : CString) (route : Route) :
    routeOf headerBuffer = route ↔
      (∀ needle ∈ testedBefore route, occursIn needle headerBuffer.bytes = false) ∧
        ∀ needle ∈ testedLast route, occursIn needle headerBuffer.bytes = true := by
  have chain : routeOf headerBuffer =
      if occursIn searchText headerBuffer.bytes then .search
      else if occursIn insertText headerBuffer.bytes then .insert
      else if occursIn deleteRequestText headerBuffer.bytes then .deleteRequest
      else if occursIn trainText headerBuffer.bytes then .train
      else .invalid := rfl
  rw [chain]
  cases route <;>
    simp only [testedBefore, testedLast, List.forall_mem_cons, List.not_mem_nil,
      Option.mem_def, Option.some.injEq, reduceCtorEq, false_implies, implies_true, forall_eq',
      and_true, true_and] <;>
    cases occursIn searchText headerBuffer.bytes <;>
    cases occursIn insertText headerBuffer.bytes <;>
    cases occursIn deleteRequestText headerBuffer.bytes <;>
    cases occursIn trainText headerBuffer.bytes <;> decide

/-- The request line starts with the text that leads to its branch. -/
theorem routeNamed_occurs (head : List UInt8) :
    ∀ needle ∈ testedLast (routeNamed head), occursIn needle head = true := by
  have atStart : ∀ needle, needle.isPrefixOf head = true → occursIn needle head = true := by
    intro needle starts
    unfold occursIn
    cases head with
    | nil =>
        cases needle with
        | nil => rfl
        | cons wanted needle => cases starts
    | cons char rest =>
        rw [strstr, if_pos starts]
        rfl
  intro needle isLast
  unfold routeNamed at isLast
  split at isLast
  · rename_i starts
    cases isLast
    exact atStart _ starts
  · split at isLast
    · rename_i starts
      cases isLast
      exact atStart _ starts
    · split at isLast
      · rename_i starts
        cases isLast
        exact atStart _ starts
      · split at isLast
        · rename_i starts
          cases isLast
          exact atStart _ starts
        · cases isLast

/-! ### Searching behind the header section -/

/-- `head` ends with its first empty line. -/
def IsHeaderSection (head : List UInt8) : Prop := strstr head headerEnd = some headerEnd

instance (head : List UInt8) : Decidable (IsHeaderSection head) :=
  inferInstanceAs (Decidable (_ = _))

theorem IsHeaderSection.ends {head : List UInt8} (isSection : IsHeaderSection head) :
    ∃ front, head = front ++ [10] := by
  obtain ⟨front, headEq⟩ := ends_of_headerEnd isSection
  exact ⟨front ++ [13, 10, 13], headEq⟩

theorem IsHeaderSection.occursIn_append {head : List UInt8} (isSection : IsHeaderSection head)
    {needle : List UInt8} (oneLine : (10 : UInt8) ∉ needle) (more : List UInt8) :
    occursIn needle (head ++ more) = (occursIn needle head || occursIn needle more) := by
  obtain ⟨front, headEq⟩ := isSection.ends
  unfold occursIn
  rw [headEq, strstr_eq_search, strstr_eq_search, strstr_eq_search]
  apply TextSearch.search_append_isSome
  intro wanted member
  apply beq_eq_false_iff_ne.mpr
  intro same
  exact oneLine (same ▸ member)

theorem IsHeaderSection.asksToClose_append {head : List UInt8} (isSection : IsHeaderSection head)
    (more : List UInt8) :
    (strcasestr (head ++ more) (asciiBytes "Connection: close")).isSome =
      ((strcasestr head (asciiBytes "Connection: close")).isSome ||
        (strcasestr more (asciiBytes "Connection: close")).isSome) := by
  obtain ⟨front, headEq⟩ := isSection.ends
  unfold strcasestr
  rw [headEq]
  apply TextSearch.search_append_isSome
  decide

/-! ### The key behind the header section -/

theorem scanToken_append_of_blank {value : List UInt8} (blank : value.all isspace = true)
    (more : List UInt8) : scanToken (value ++ more) = scanToken more := by
  have dropped : value.dropWhile isspace = [] :=
    List.dropWhile_eq_nil_iff.mpr (List.all_eq_true.mp blank)
  unfold scanToken
  rw [List.dropWhile_append, dropped]
  rfl

/-- A key that is followed by a line end does not go on behind it. -/
theorem scanToken_append {value : List UInt8} (notBlank : (value ++ [10]).all isspace = false)
    (more : List UInt8) : scanToken (value ++ [10] ++ more) = scanToken (value ++ [10]) := by
  have starts : value.dropWhile isspace ≠ [] := by
    intro empty
    have allSpace := List.all_eq_true.mpr (List.dropWhile_eq_nil_iff.mp empty)
    rw [List.all_append, allSpace] at notBlank
    cases notBlank
  have dropped : ∀ rest, (value ++ rest).dropWhile isspace = value.dropWhile isspace ++ rest := by
    intro rest
    rw [List.dropWhile_append, if_neg (by simpa using starts)]
  have stops : ∀ back,
      (value.dropWhile isspace ++ 10 :: back).takeWhile (fun char => !isspace char) =
        (value.dropWhile isspace).takeWhile fun char => !isspace char :=
    fun back => takeWhile_append_stop _ back (by decide)
  unfold scanToken
  rw [List.append_assoc, dropped, dropped, List.singleton_append, stops, stops]

/-- The key is looked for behind the header section if that names none, and read
from there if that names a blank one. -/
theorem IsHeaderSection.bearerToken_append {head : List UInt8} (isSection : IsHeaderSection head)
    (more : List UInt8) :
    bearerToken (head ++ more) =
      match strstr head authorizationText with
      | none => bearerToken more
      | some found =>
          if (found.drop 22).all isspace then some (scanToken more)
          else some (scanToken (found.drop 22)) := by
  obtain ⟨front, headEq⟩ := isSection.ends
  unfold bearerToken
  cases searched : strstr head authorizationText with
  | none =>
      have later : strstr (head ++ more) authorizationText = strstr more authorizationText := by
        rw [headEq, strstr_eq_search] at searched ⊢
        rw [strstr_eq_search]
        exact TextSearch.search_append_of_none more (by decide) searched
      rw [later]
  | some found =>
      have continued : strstr (head ++ more) authorizationText = some (found ++ more) := by
        rw [strstr_eq_search] at searched ⊢
        exact TextSearch.search_append_of_some more searched
      rw [strstr_eq_search] at searched
      have place := TextSearch.search_eq_some searched
      have long : 22 ≤ found.length := TextSearch.length_le_of_matchesHere place.1
      rw [continued, Option.map_some, List.drop_append_of_le_length long]
      dsimp only
      split
      · rename_i blank
        rw [scanToken_append_of_blank blank]
      · rename_i notBlank
        have suffix : found.drop 22 <:+ head := (List.drop_suffix 22 found).trans place.2
        rw [headEq] at suffix
        rcases List.suffix_concat_iff.mp suffix with empty | ⟨value, valueEq, -⟩
        · rw [empty] at notBlank
          exact absurd rfl notBlank
        · rw [valueEq] at notBlank ⊢
          rw [scanToken_append (Bool.eq_false_iff.mpr notBlank)]

/-! ### What stands in the header buffer -/

/-- Between two requests, with `stream` to come. -/
def Reader.AtRequest (reader : Reader) (stream : List UInt8) : Prop :=
  ∃ conn, reader.status = .active conn ∧ conn.phase = .readingHeaders ∧
    conn.headerBuffer = [] ∧ reader.unread = stream

/-- In some run from there, `call` is the next call of `handel_client`. -/
def Handles (stream : List UInt8) (call : HandlerCall) : Prop :=
  ∃ (reader final : Reader) (actions : List ReaderAction), reader.AtRequest stream ∧
    GuardedRun.run Reader.step reader actions = some final ∧
      final.calls[reader.calls.length]? = some call

/-- The header section, and behind it the beginning of what follows. -/
def HeadThen (head rest text : List UInt8) : Prop :=
  ∃ shared, text = head ++ (CString.ofBytes (rest.take shared)).bytes

/-- Where the reader stands between the end of one call and the end of the next. -/
inductive Reading (head rest : List UInt8) (calls : Nat) (reader : Reader) : Prop where
  | header (conn : ConnState) (statusEq : reader.status = .active conn)
      (phaseEq : conn.phase = .readingHeaders) (callsEq : reader.calls.length = calls)
      (streamEq : conn.headerBuffer ++ reader.unread = head ++ rest)
  | behind (conn : ConnState) (statusEq : reader.status = .active conn)
      (started : conn.phase ≠ .readingHeaders) (callsEq : reader.calls.length = calls)
      (textEq : HeadThen head rest conn.headerText.bytes)
  | ended (statusEq : reader.status.conn? = none) (callsEq : reader.calls.length = calls)
  | called (call : HandlerCall) (callEq : reader.calls[calls]? = some call)
      (textEq : HeadThen head rest call.headerText.bytes)

/-- A text with an empty line has all of the header section in it. -/
theorem IsHeaderSection.headThen {head : List UInt8} (isSection : IsHeaderSection head)
    {buffer unread rest : List UInt8} (streamEq : buffer ++ unread = head ++ rest)
    (complete : (strstr (CString.ofBytes buffer).bytes headerEnd).isSome = true) :
    HeadThen head rest (CString.ofBytes buffer).bytes := by
  have textPart : (CString.ofBytes buffer).bytes <+: head ++ rest := by
    rw [← streamEq]
    exact (List.takeWhile_prefix _).trans (List.prefix_append _ _)
  have reached : head.length ≤ (CString.ofBytes buffer).bytes.length := by
    apply Nat.le_of_not_lt
    intro short
    have textEq : (CString.ofBytes buffer).bytes =
        head.take (CString.ofBytes buffer).bytes.length := by
      rw [List.prefix_iff_eq_take.mp textPart, List.take_append_of_le_length (Nat.le_of_lt ?_)]
      · rw [List.length_take_of_le (Nat.le_of_lt short)]
      · exact short
    unfold IsHeaderSection at isSection
    rw [textEq] at complete
    rw [strstr_eq_search] at isSection complete
    rw [TextSearch.search_take_of_end isSection rfl short] at complete
    cases complete
  have headPart : head <+: (CString.ofBytes buffer).bytes :=
    List.prefix_of_prefix_length_le (List.prefix_append _ _) textPart reached
  have nulFree : (0 : UInt8) ∉ head := fun member =>
    (CString.ofBytes buffer).nulFree (headPart.subset member)
  obtain ⟨part, bufferEq⟩ := headPart.trans (List.takeWhile_prefix _)
  rw [← bufferEq, List.append_assoc] at streamEq
  have partEq : part = rest.take part.length := by
    rw [← List.append_cancel_left streamEq, List.take_left]
  refine ⟨part.length, ?_⟩
  rw [← partEq, ← bufferEq]
  exact ofBytes_append part nulFree

theorem ConnState.bodyRound_header {conn next : ConnState}
    (isNext : next ∈ conn.bodyRound.conn?) :
    next.headerBuffer = conn.headerBuffer ∧ next.phase ≠ .readingHeaders := by
  unfold ConnState.bodyRound at isNext
  split at isNext
  · cases isNext
    exact ⟨rfl, nofun⟩
  · cases isNext
    exact ⟨rfl, nofun⟩

theorem ConnState.takeLeftover_header {conn next : ConnState} {contentLength take : Int}
    {buffer : List UInt8} {headersSize : Nat}
    (isNext : next ∈ (conn.takeLeftover contentLength buffer headersSize take).conn?) :
    next.headerBuffer = conn.headerBuffer ∧ next.phase ≠ .readingHeaders := by
  unfold ConnState.takeLeftover at isNext
  dsimp only at isNext
  by_cases fits : BodyWrite.Fits { offset := 0, length := take, size := buffer.length }
  · rw [if_pos fits] at isNext
    have kept := ConnState.bodyRound_header isNext
    exact kept
  · rw [if_neg fits] at isNext
    cases isNext

theorem ConnState.startBody_header {conn next : ConnState} {allocates : Bool}
    {bodyStart : List UInt8} (isNext : next ∈ (conn.startBody allocates bodyStart).conn?) :
    next.headerBuffer = conn.headerBuffer ∧ next.phase ≠ .readingHeaders := by
  unfold ConnState.startBody at isNext
  dsimp only at isNext
  split at isNext
  · cases isNext
  · split at isNext
    · cases isNext
    · split at isNext
      · exact ConnState.takeLeftover_header isNext
      · have kept := ConnState.bodyRound_header isNext
        exact kept

/-- In the body the header buffer is left alone. -/
theorem ConnState.round_header {conn next : ConnState} {result : RecvResult}
    (started : conn.phase ≠ .readingHeaders) (isNext : next ∈ (conn.round result).conn?) :
    next.headerBuffer = conn.headerBuffer ∧ next.phase ≠ .readingHeaders := by
  unfold ConnState.round at isNext
  rw [if_neg started] at isNext
  split at isNext
  · split at isNext
    · have kept := ConnState.bodyRound_header isNext
      exact kept
    · cases isNext
      exact ⟨rfl, started⟩
    · cases isNext
  · cases isNext

theorem ConnStatus.cases_conn? (status : ConnStatus) :
    status.conn? = none ∨ ∃ conn, status = .active conn := by
  cases status with
  | active conn => exact Or.inr ⟨conn, rfl⟩
  | closed answer => exact Or.inl rfl
  | overrun write => exact Or.inl rfl

theorem Reading.behind_round {head rest : List UInt8} {calls : Nat} {reader next : Reader}
    {conn : ConnState} (result : RecvResult) (started : conn.phase ≠ .readingHeaders)
    (callsEq : reader.calls.length = calls) (textEq : HeadThen head rest conn.headerText.bytes)
    (statusNext : next.status = conn.round result) (callsNext : next.calls = reader.calls) :
    Reading head rest calls next := by
  rw [← callsNext] at callsEq
  rcases next.status.cases_conn? with gone | ⟨after, statusEq⟩
  · exact .ended gone callsEq
  · have isNext : after ∈ (conn.round result).conn? := by
      rw [← statusNext, statusEq]
      rfl
    obtain ⟨headerEq, startedNext⟩ := ConnState.round_header started isNext
    apply Reading.behind after statusEq startedNext callsEq
    rw [ConnState.headerText, headerEq]
    exact textEq

/-- A piece of the header section, or of more. -/
theorem Reading.header_recv {head rest bytes : List UInt8} (isSection : IsHeaderSection head)
    {calls : Nat} {reader : Reader} {conn : ConnState} {allocates : Bool}
    (phaseEq : conn.phase = .readingHeaders) (callsEq : reader.calls.length = calls)
    (streamEq : conn.headerBuffer ++ bytes ++ reader.unread = head ++ rest)
    (statusEq : reader.status = conn.receiveHeader bytes allocates) :
    Reading head rest calls reader := by
  cases found : strstr (conn.received bytes).headerText.bytes headerEnd with
  | none =>
      rw [ConnState.receiveHeader, found] at statusEq
      exact .header _ statusEq phaseEq callsEq streamEq
  | some bodyStart =>
      rw [ConnState.receiveHeader_of_complete found] at statusEq
      rcases reader.status.cases_conn? with gone | ⟨after, statusAfter⟩
      · exact .ended gone callsEq
      · have isNext : after ∈ ((conn.received bytes).startBody allocates bodyStart).conn? := by
          rw [← statusEq, statusAfter]
          rfl
        obtain ⟨headerEq, started⟩ := ConnState.startBody_header isNext
        apply Reading.behind after statusAfter started callsEq
        rw [ConnState.headerText, headerEq]
        apply isSection.headThen streamEq
        have isFound := congrArg Option.isSome found
        exact isFound

theorem Reader.step_calls {reader next : Reader} {action : ReaderAction}
    (stepped : reader.step action = some next) : reader.calls <+: next.calls := by
  cases Reader.step_cases stepped with
  | recv conn count allocates statusEq notDone canRecv actionEq nextEq => rw [nextEq]
  | pause conn result statusEq notDone kind nextEq => rw [nextEq]
  | handle conn statusEq done actionEq nextEq =>
      rw [nextEq]
      exact List.prefix_append _ _

theorem Reading.step {head rest : List UInt8} (isSection : IsHeaderSection head) {calls : Nat}
    {reader next : Reader} {action : ReaderAction} (reading : Reading head rest calls reader)
    (stepped : reader.step action = some next) : Reading head rest calls next := by
  have prefixed := Reader.step_calls stepped
  cases reading with
  | called call callEq textEq =>
      apply Reading.called call ?_ textEq
      obtain ⟨more, callsEq⟩ := prefixed
      rw [← callsEq, List.getElem?_append_left (List.getElem?_eq_some_iff.mp callEq).1]
      exact callEq
  | ended statusEq callsEq =>
      have stuck : reader.step action = none := by
        unfold Reader.step
        split
        · rename_i conn active
          rw [active] at statusEq
          cases statusEq
        · rfl
      rw [stuck] at stepped
      cases stepped
  | header conn statusEq phaseEq callsEq streamEq =>
      cases Reader.step_cases stepped with
      | recv conn' count allocates statusEq' notDone canRecv actionEq nextEq =>
          cases ConnStatus.active.inj (statusEq.symm.trans statusEq')
          subst nextEq
          have statusNext :=
            ConnState.round_of_header (reader.unread.take count) allocates phaseEq canRecv.room
          refine Reading.header_recv isSection phaseEq ?_ ?_ statusNext
          · exact callsEq
          · dsimp only
            rw [List.append_assoc, List.take_append_drop]
            exact streamEq
      | pause conn' result statusEq' notDone kind nextEq =>
          cases ConnStatus.active.inj (statusEq.symm.trans statusEq')
          subst nextEq
          rcases round_of_idle_pause kind phaseEq with stays | closes
          · exact .header conn stays phaseEq callsEq streamEq
          · refine Reading.ended ?_ ?_
            · dsimp only
              rw [closes]
              rfl
            · exact callsEq
      | handle conn' statusEq' done actionEq nextEq =>
          cases ConnStatus.active.inj (statusEq.symm.trans statusEq')
          exact absurd (phaseEq.symm.trans done) nofun
  | behind conn statusEq started callsEq textEq =>
      cases Reader.step_cases stepped with
      | recv conn' count allocates statusEq' notDone canRecv actionEq nextEq =>
          cases ConnStatus.active.inj (statusEq.symm.trans statusEq')
          subst nextEq
          exact Reading.behind_round (.data (reader.unread.take count) allocates) started callsEq
            textEq rfl rfl
      | pause conn' result statusEq' notDone kind nextEq =>
          cases ConnStatus.active.inj (statusEq.symm.trans statusEq')
          subst nextEq
          exact Reading.behind_round result started callsEq textEq rfl rfl
      | handle conn' statusEq' done actionEq nextEq =>
          cases ConnStatus.active.inj (statusEq.symm.trans statusEq')
          subst nextEq
          apply Reading.called
            { headerText := conn.headerText, httpBody := conn.httpBody.getD [] } ?_ textEq
          rw [← callsEq]
          exact List.getElem?_concat_length

/-- The text of a call is the header section with some of the body behind it. -/
theorem Handles.headThen {head rest : List UInt8} (isSection : IsHeaderSection head)
    {call : HandlerCall} (handles : Handles (head ++ rest) call) :
    HeadThen head rest call.headerText.bytes := by
  obtain ⟨reader, final, actions, ⟨conn, statusEq, phaseEq, emptyEq, unreadEq⟩, ran, isCall⟩ :=
    handles
  have started : Reading head rest reader.calls.length reader := by
    apply Reading.header conn statusEq phaseEq rfl
    rw [emptyEq, unreadEq, List.nil_append]
  have reading : Reading head rest reader.calls.length final :=
    GuardedRun.invariant_of_run
      (fun _ _ _ reading stepped => Reading.step isSection reading stepped) started ran
  have shortCall : ¬final.calls.length = reader.calls.length := by
    intro same
    rw [List.getElem?_eq_none (Nat.le_of_eq same)] at isCall
    cases isCall
  cases reading with
  | header conn statusEq phaseEq callsEq streamEq => exact absurd callsEq shortCall
  | behind conn statusEq started callsEq textEq => exact absurd callsEq shortCall
  | ended statusEq callsEq => exact absurd callsEq shortCall
  | called call' callEq textEq =>
      cases Option.some.inj (isCall.symm.trans callEq)
      exact textEq

/-! ### Two requests with one header section -/

/-- What the server does about two calls depends on the header section alone. -/
structure DecidedByHeader (head : List UInt8) (first second : HandlerCall) : Prop where
  routeFirst : routeOf first.headerText = routeNamed head
  routeSecond : routeOf second.headerText = routeNamed head
  token : bearerToken first.headerText.bytes = bearerToken second.headerText.bytes
  closing : asksToClose first.headerText = asksToClose second.headerText

/-- What stands behind the header section in the header buffer. -/
def HandlerCall.behind (call : HandlerCall) (head : List UInt8) : List UInt8 :=
  call.headerText.bytes.drop head.length

/-- The text of no route that is tested earlier is in the header section or behind it. -/
def KeepsRoute (head behind : List UInt8) : Prop :=
  ∀ needle ∈ testedBefore (routeNamed head),
    occursIn needle head = false ∧ occursIn needle behind = false

/-- The header section names a key, or what is behind it makes no difference. -/
def KeepsToken (head first second : List UInt8) : Prop :=
  match strstr head authorizationText with
  | none => bearerToken first = bearerToken second
  | some found => (found.drop 22).all isspace = true → scanToken first = scanToken second

/-- The header section asks to close, or what is behind it makes no difference. -/
def KeepsClosing (head first second : List UInt8) : Prop :=
  (strcasestr head (asciiBytes "Connection: close")).isSome = true ∨
    (strcasestr first (asciiBytes "Connection: close")).isSome =
      (strcasestr second (asciiBytes "Connection: close")).isSome

theorem HeadThen.split {head rest text : List UInt8} (headThen : HeadThen head rest text) :
    text = head ++ text.drop head.length := by
  obtain ⟨shared, textEq⟩ := headThen
  rw [textEq, List.drop_left]

theorem IsHeaderSection.route_iff {head behind : List UInt8} (isSection : IsHeaderSection head)
    {headerText : CString} (textEq : headerText.bytes = head ++ behind) :
    routeOf headerText = routeNamed head ↔ KeepsRoute head behind := by
  have oneLine : ∀ route, (∀ needle ∈ testedBefore route, (10 : UInt8) ∉ needle) ∧
      ∀ needle ∈ testedLast route, (10 : UInt8) ∉ needle := by
    intro route
    cases route <;> decide
  rw [routeOf_eq_iff, textEq]
  constructor
  · intro kept needle member
    have missing := kept.1 needle member
    rw [isSection.occursIn_append ((oneLine _).1 needle member), Bool.or_eq_false_iff] at missing
    exact missing
  · intro keeps
    constructor
    · intro needle member
      rw [isSection.occursIn_append ((oneLine _).1 needle member), Bool.or_eq_false_iff]
      exact keeps needle member
    · intro needle isLast
      rw [isSection.occursIn_append ((oneLine _).2 needle isLast),
        routeNamed_occurs head needle isLast, Bool.true_or]

theorem IsHeaderSection.token_iff {head first second : List UInt8}
    (isSection : IsHeaderSection head) :
    bearerToken (head ++ first) = bearerToken (head ++ second) ↔
      KeepsToken head first second := by
  rw [isSection.bearerToken_append, isSection.bearerToken_append]
  unfold KeepsToken
  cases strstr head authorizationText with
  | none => exact Iff.rfl
  | some found =>
      dsimp only
      by_cases blank : (found.drop 22).all isspace = true
      · rw [if_pos blank, if_pos blank]
        constructor
        · exact fun same _ => Option.some.inj same
        · exact fun same => congrArg some (same blank)
      · rw [if_neg blank, if_neg blank]
        constructor
        · exact fun _ isBlank => absurd isBlank blank
        · exact fun _ => rfl

theorem IsHeaderSection.closing_iff {head first second : List UInt8}
    (isSection : IsHeaderSection head) :
    (strcasestr (head ++ first) (asciiBytes "Connection: close")).isSome =
        (strcasestr (head ++ second) (asciiBytes "Connection: close")).isSome ↔
      KeepsClosing head first second := by
  rw [isSection.asksToClose_append, isSection.asksToClose_append]
  unfold KeepsClosing
  cases (strcasestr head (asciiBytes "Connection: close")).isSome with
  | true =>
      constructor
      · exact fun _ => Or.inl rfl
      · exact fun _ => rfl
  | false =>
      rw [Bool.false_or, Bool.false_or]
      constructor
      · exact fun same => Or.inr same
      · intro keeps
        rcases keeps with asks | same
        · cases asks
        · exact same

/-- For any bodies and any pieces in which they arrive. -/
theorem decided_by_header_iff {head : List UInt8} (isSection : IsHeaderSection head)
    {rest₁ rest₂ : List UInt8} {first second : HandlerCall}
    (firstHandled : Handles (head ++ rest₁) first)
    (secondHandled : Handles (head ++ rest₂) second) :
    DecidedByHeader head first second ↔
      KeepsRoute head (first.behind head) ∧ KeepsRoute head (second.behind head) ∧
        KeepsToken head (first.behind head) (second.behind head) ∧
          KeepsClosing head (first.behind head) (second.behind head) := by
  have firstText := (firstHandled.headThen isSection).split
  have secondText := (secondHandled.headThen isSection).split
  have tokens : bearerToken first.headerText.bytes = bearerToken second.headerText.bytes ↔
      KeepsToken head (first.behind head) (second.behind head) := by
    rw [firstText, secondText]
    exact isSection.token_iff
  have closings : asksToClose first.headerText = asksToClose second.headerText ↔
      KeepsClosing head (first.behind head) (second.behind head) := by
    unfold asksToClose
    rw [firstText, secondText]
    exact isSection.closing_iff
  constructor
  · intro decided
    exact ⟨(isSection.route_iff firstText).mp decided.routeFirst,
      (isSection.route_iff secondText).mp decided.routeSecond, tokens.mp decided.token,
      closings.mp decided.closing⟩
  · intro keeps
    rcases keeps with ⟨routeFirst, routeSecond, token, closing⟩
    exact
      { routeFirst := (isSection.route_iff firstText).mpr routeFirst
        routeSecond := (isSection.route_iff secondText).mpr routeSecond
        token := tokens.mpr token
        closing := closings.mpr closing }

/-- An insert whose metadata looks like a header. -/
def insertRequest : Request where
  head := asciiBytes "POST /insert HTTP/1.1\r\nContent-Length: 69\r\n\r\n"
  body := asciiBytes
    "\x7b\"metadata\":\"POST /search Authorization: Bearer k Connection: close\"\x7d"

def insertCall (arrived : List UInt8) : HandlerCall where
  headerText := CString.ofBytes (insertRequest.head ++ arrived)
  httpBody := insertRequest.body ++ [0]

/-- The body comes in two pieces, the first together with the header section. -/
theorem handles_insert_with (arrived : Nat) (among : arrived ∈ [0, 13, 69]) :
    Handles (insertRequest.head ++ insertRequest.body)
      (insertCall (insertRequest.body.take arrived)) := by
  have ran : ∀ arrived ∈ [0, 13, 69],
      GuardedRun.run Reader.step (Reader.start 5 (insertRequest.head ++ insertRequest.body))
        (.recv (45 + arrived) true ::
          (if arrived = 69 then [.handle] else [.recv (69 - arrived) true, .handle])) =
        some
          { status :=
              if asksToClose (insertCall (insertRequest.body.take arrived)).headerText then
                .closed none
              else .active (ConnState.accepted 5)
            unread := []
            calls := [insertCall (insertRequest.body.take arrived)] } := by
    decide +kernel
  refine ⟨Reader.start 5 (insertRequest.head ++ insertRequest.body), _, _, ?_, ran _ among, rfl⟩
  exact ⟨ConnState.accepted 5, rfl, rfl, rfl, rfl⟩

theorem decided_by_insert_header :
    DecidedByHeader insertRequest.head (insertCall []) (insertCall (insertRequest.body.take 13)) ↔
      KeepsRoute insertRequest.head ((insertCall []).behind insertRequest.head) ∧
        KeepsRoute insertRequest.head
          ((insertCall (insertRequest.body.take 13)).behind insertRequest.head) ∧
        KeepsToken insertRequest.head ((insertCall []).behind insertRequest.head)
          ((insertCall (insertRequest.body.take 13)).behind insertRequest.head) ∧
        KeepsClosing insertRequest.head ((insertCall []).behind insertRequest.head)
          ((insertCall (insertRequest.body.take 13)).behind insertRequest.head) :=
  decided_by_header_iff (by decide +kernel) (handles_insert_with 0 (by decide))
    (handles_insert_with 13 (by decide))

/-- Arriving at once, the same request is a search, has a key and is the last one. -/
theorem metadata_decides :
    insertRequest.WellFormed ∧ insertRequest.FindsLength ∧
      Handles (insertRequest.head ++ insertRequest.body) (insertCall []) ∧
      Handles (insertRequest.head ++ insertRequest.body) (insertCall insertRequest.body) ∧
      routeNamed insertRequest.head = .insert ∧
      routeOf (insertCall insertRequest.body).headerText = .search ∧
      bearerToken (insertCall []).headerText.bytes = none ∧
      bearerToken (insertCall insertRequest.body).headerText.bytes = some [107] ∧
      asksToClose (insertCall []).headerText = false ∧
      asksToClose (insertCall insertRequest.body).headerText = true ∧
      ¬DecidedByHeader insertRequest.head (insertCall []) (insertCall insertRequest.body) := by
  have searches : routeOf (insertCall insertRequest.body).headerText = .search := by
    decide +kernel
  have named : routeNamed insertRequest.head = .insert := by
    decide +kernel
  refine ⟨by decide +kernel, by decide +kernel, handles_insert_with 0 (by decide),
    handles_insert_with 69 (by decide), named, searches, by decide +kernel, by decide +kernel,
    by decide +kernel, by decide +kernel, ?_⟩
  intro decided
  have other := decided.routeSecond
  rw [searches, named] at other
  cases other

end OriginDb
