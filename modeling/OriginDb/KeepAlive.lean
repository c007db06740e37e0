/-
Requests on a connection that is kept.

A client may send one request after the other on a connection, and the bytes may
be cut anywhere.  What the server takes for one request is then a matter of how
they are cut: bytes of the next request that come together with the end of a
header section are dropped.  The module states when every request is handled,
once and in order.
-/

import OriginDb.RequestReading

namespace OriginDb

open Foundation

def streamOf (requests : List Request) : List UInt8 := requests.flatMap Request.encode

/-- With more bytes to come, the handling of a request keeps the connection: the
route is known and the header buffer does not ask to close. -/
def Reader.StaysOpen (reader : Reader) (action : ReaderAction) : Prop :=
  action = .handle → reader.unread ≠ [] → ∀ conn ∈ reader.status.conn?,
    routeOf conn.headerText ≠ .invalid ∧ asksToClose conn.headerText = false

instance (reader : Reader) (action : ReaderAction) : Decidable (reader.StaysOpen action) :=
  inferInstanceAs (Decidable (_ → _ → ∀ conn ∈ reader.status.conn?, _))

/-- A step that keeps requests apart. -/
def Reader.KeepsFraming (reader : Reader) (action : ReaderAction) : Prop :=
  reader.KeepsToRequest action ∧ reader.StaysOpen action ∧ action ≠ .eof ∧ action ≠ .failed

instance (reader : Reader) (action : ReaderAction) : Decidable (reader.KeepsFraming action) :=
  inferInstanceAs (Decidable (_ ∧ _ ∧ _ ∧ _))

/-- `handel_client` has been called once for each of the first requests, in order
and with their bodies; for all of them, when every byte has been read and handled. -/
def AnswersInOrder (requests : List Request) (reader : Reader) : Prop :=
  ∃ handled rest, requests = handled ++ rest ∧
    reader.calls.map HandlerCall.httpBody = handled.map (fun request => request.body ++ [0]) ∧
      (reader.unread = [] → (∀ conn ∈ reader.status.conn?, conn.phase ≠ .done) → rest = [])

/-- Where the reader stands in the requests: in one of them, or behind the last. -/
inductive KeptAlive (requests : List Request) (reader : Reader) : Prop where
  | within (handled : List Request) (request : Request) (rest : List Request)
      (requestsEq : requests = handled ++ request :: rest)
      (callsEq : reader.calls.map HandlerCall.httpBody =
        handled.map fun request => request.body ++ [0])
      (position : Position request (streamOf rest) reader)
  | behind (callsEq : reader.calls.map HandlerCall.httpBody =
        requests.map fun request => request.body ++ [0])
      (unreadEq : reader.unread = [])
      (idle : ∀ conn ∈ reader.status.conn?, conn.phase = .readingHeaders)

theorem Position.unread_or_done {request : Request} {after : List UInt8} {reader : Reader}
    (position : Position request after reader)
    (unreadEq : reader.unread = []) : ∃ conn ∈ reader.status.conn?, conn.phase = .done := by
  cases position with
  | header conn statusEq phaseEq fresh short streamEq =>
      have lengths := congrArg List.length streamEq
      rw [unreadEq, List.append_nil, List.length_append] at lengths
      omega
  | body conn shared read statusEq phaseEq headerEq lengthEq bodyEq readEq more streamEq =>
      have lengths := congrArg List.length (unreadEq.symm.trans streamEq)
      rw [List.length_nil, List.length_append, List.length_drop] at lengths
      omega
  | done conn shared statusEq phaseEq headerEq bodyEq streamEq =>
      refine ⟨conn, ?_, phaseEq⟩
      rw [statusEq]
      rfl

theorem Position.at_done {request : Request} {after : List UInt8} {reader : Reader}
    {conn : ConnState} (position : Position request after reader)
    (statusEq : reader.status = .active conn) (phaseEq : conn.phase = .done) :
    conn.httpBody = some (request.body ++ [0]) ∧ reader.unread = after := by
  cases position with
  | header conn' statusEq' phaseEq' fresh short streamEq =>
      cases ConnStatus.active.inj (statusEq.symm.trans statusEq')
      exact absurd (phaseEq.symm.trans phaseEq') nofun
  | body conn' shared read statusEq' phaseEq' headerEq lengthEq bodyEq readEq more streamEq =>
      cases ConnStatus.active.inj (statusEq.symm.trans statusEq')
      exact absurd (phaseEq.symm.trans phaseEq') nofun
  | done conn' shared statusEq' phaseEq' headerEq bodyEq unreadEq =>
      cases ConnStatus.active.inj (statusEq.symm.trans statusEq')
      exact ⟨bodyEq, unreadEq⟩

theorem KeptAlive.answersInOrder {requests : List Request} {reader : Reader}
    (kept : KeptAlive requests reader) :
    AnswersInOrder requests reader := by
  cases kept with
  | within handled request rest requestsEq callsEq position =>
      refine ⟨handled, request :: rest, requestsEq, callsEq, ?_⟩
      intro unreadEq notDone
      obtain ⟨conn, isConn, done⟩ := position.unread_or_done unreadEq
      exact absurd done (notDone conn isConn)
  | behind callsEq unreadEq idle =>
      exact ⟨requests, [], (List.append_nil _).symm, callsEq, fun _ _ => rfl⟩

/-- The start of the next request, or of what is behind the last. -/
theorem keptAlive_of_next {requests : List Request} {reader : Reader}
    (handled rest : List Request)
    (requestsEq : requests = handled ++ rest)
    (wellFormed : ∀ request ∈ requests, request.WellFormed)
    (callsEq : reader.calls.map HandlerCall.httpBody =
      handled.map fun request => request.body ++ [0])
    (unreadEq : reader.unread = streamOf rest)
    (idle : ∀ conn ∈ reader.status.conn?, conn.phase = .readingHeaders)
    (stays : rest ≠ [] → ∃ conn, reader.status = .active conn ∧ conn.headerBuffer = [] ∧
      conn.bodyBytesRead = 0) : KeptAlive requests reader := by
  cases rest with
  | nil =>
      rw [List.append_nil] at requestsEq
      subst requestsEq
      exact .behind callsEq unreadEq idle
  | cons request rest =>
      obtain ⟨conn, statusEq, headerEq, fresh⟩ := stays nofun
      have phaseEq : conn.phase = .readingHeaders := by
        apply idle
        rw [statusEq]
        rfl
      have member : request ∈ requests := by
        rw [requestsEq]
        exact List.mem_append_right _ (List.mem_cons_self ..)
      have long := (wellFormed request member).head_long
      apply KeptAlive.within handled request rest requestsEq callsEq
      apply Position.header conn statusEq phaseEq fresh
      · rw [headerEq, List.length_nil]
        omega
      · rw [headerEq, unreadEq, streamOf, List.flatMap_cons, Request.encode, List.nil_append,
          List.append_assoc]
        rfl

theorem streamOf_ne_nil {request : Request} (wellFormed : request.WellFormed)
    (rest : List Request) : streamOf (request :: rest) ≠ [] := by
  intro empty
  have bodySome := wellFormed.bodySome
  have lengths := congrArg List.length empty
  rw [streamOf, List.flatMap_cons, Request.encode, List.length_append, List.length_append,
    List.length_nil] at lengths
  omega

theorem handleRequest_idle (reader : Reader) (conn : ConnState) :
    ∀ other ∈ (reader.handleRequest conn).status.conn?, other.phase = .readingHeaders := by
  intro other isConn
  unfold Reader.handleRequest at isConn
  dsimp only at isConn
  split at isConn
  · cases isConn
  · cases isConn
    rfl

theorem handleRequest_stays (reader : Reader) {conn : ConnState}
    (known : routeOf conn.headerText ≠ .invalid) (notAsked : asksToClose conn.headerText = false) :
    (reader.handleRequest conn).status = .active conn.reset := by
  have keeps : ¬(decide (routeOf conn.headerText = .invalid) || asksToClose conn.headerText) =
      true := by
    rw [notAsked, Bool.or_false, decide_eq_true_eq]
    exact known
  exact if_neg keeps

/-- A pause or an end between two requests. -/
theorem round_of_idle_pause {conn : ConnState} {action : ReaderAction} {result : RecvResult}
    (kind : action = .again ∧ result = .again ∨ action = .eof ∧ result = .eof ∨
      action = .failed ∧ result = .failed)
    (phaseEq : conn.phase = .readingHeaders) :
    conn.round result = .active conn ∨ conn.round result = .closed none := by
  unfold ConnState.round
  rw [if_pos phaseEq]
  split
  · exact Or.inr rfl
  · rcases kind with ⟨-, rfl⟩ | ⟨-, rfl⟩ | ⟨-, rfl⟩
    · exact Or.inl rfl
    · exact Or.inr rfl
    · exact Or.inr rfl

theorem step_keeps_alive {requests : List Request}
    (wellFormed : ∀ request ∈ requests, request.WellFormed)
    (finds : ∀ request ∈ requests, request.FindsLength) (reader : Reader)
    (action : ReaderAction) (next : Reader) (kept : KeptAlive requests reader)
    (keeps : reader.KeepsFraming action) (stepped : reader.step action = some next) :
    KeptAlive requests next := by
  rcases keeps with ⟨keepsTo, staysOpen, notEof, notFailed⟩
  cases kept with
  | within handled request rest requestsEq callsEq position =>
      have member : request ∈ requests := by
        rw [requestsEq]
        exact List.mem_append_right _ (List.mem_cons_self ..)
      have shares := keepsTo.sharesBody (wellFormed request member) (finds request member)
      rcases position.step (wellFormed request member) (finds request member) shares stepped with
        ⟨positionNext, callsNext⟩ | ⟨conn, statusEq, done, actionEq, nextEq⟩ | ⟨ended, -, -⟩
      · exact .within handled request rest requestsEq (callsNext ▸ callsEq) positionNext
      · obtain ⟨bodyEq, unreadEq⟩ := position.at_done statusEq done
        rw [nextEq]
        apply keptAlive_of_next (handled ++ [request]) rest ?_ wellFormed
        · rw [Reader.handleRequest, List.map_append, List.map_append, callsEq]
          simp only [List.map_cons, List.map_nil, bodyEq, Option.getD_some]
        · exact unreadEq
        · exact handleRequest_idle reader conn
        · intro more
          have moreUnread : reader.unread ≠ [] := by
            obtain ⟨following, others, shape⟩ := List.exists_cons_of_ne_nil more
            have memberNext : following ∈ requests := by
              rw [requestsEq, shape]
              simp
            rw [unreadEq, shape]
            exact streamOf_ne_nil (wellFormed following memberNext) others
          have isConn : conn ∈ reader.status.conn? := by
            rw [statusEq]
            rfl
          obtain ⟨known, notAsked⟩ := staysOpen actionEq moreUnread conn isConn
          refine ⟨conn.reset, ?_, rfl, rfl⟩
          exact handleRequest_stays reader known notAsked
        · rw [requestsEq, List.append_assoc, List.singleton_append]
      · rcases ended with eof | failed
        · exact absurd eof notEof
        · exact absurd failed notFailed
  | behind callsEq unreadEq idle =>
      cases Reader.step_cases stepped with
      | recv conn count allocates statusEq notDone canRecv actionEq nextEq =>
          have positive := canRecv.1
          have there := canRecv.2.1
          rw [unreadEq, List.length_nil] at there
          omega
      | pause conn result statusEq notDone kind nextEq =>
          have phaseEq : conn.phase = .readingHeaders := by
            apply idle
            rw [statusEq]
            rfl
          subst nextEq
          refine .behind callsEq unreadEq ?_
          intro other isConn
          dsimp only at isConn
          rcases round_of_idle_pause kind phaseEq with stays | closes
          · rw [stays] at isConn
            cases isConn
            exact phaseEq
          · rw [closes] at isConn
            cases isConn
      | handle conn statusEq done actionEq nextEq =>
          have phaseEq : conn.phase = .readingHeaders := by
            apply idle
            rw [statusEq]
            rfl
          exact absurd (phaseEq.symm.trans done) nofun

def searchRequest : Request where
  head := asciiBytes "POST /search HTTP/1.1\r\nContent-Length: 2\r\n\r\n"
  body := asciiBytes "{}"

/-- Cut inside the first header section and inside the first body. -/
def cutInside : List ReaderAction :=
  [.recv 30 true, .again, .recv 15 true, .recv 1 true, .handle, .recv 46 true, .handle, .again]

/-- Both requests in one piece. -/
def cutNowhere : List ReaderAction := [.recv 92 true, .handle, .again]

end OriginDb
