/-
Closing connections: `handle_conn_event`, `rearm`, `close_conn` and
`acceptor_loop` of `server.c`, and the sweep of `sync_worker` over idle
connections.

A descriptor number names a connection only until it is closed: `accept` may
return the same number at once.  The kernel's tables are therefore kept by
number, with the connection that each number stands for, and every call that the
threads make on them is a step of its own.
-/

import Mathlib.Logic.Function.Basic
import OriginDb.HeaderDecisions

namespace OriginDb

open Foundation

/-! ### Connections and descriptor tables -/

/-- The next call that the thread of a connection makes. -/
inductive Stage where
  | accepted
  | tracked
  | waiting
  | reading
  | routeClosing
  | deciding
  | rearming
  | clearing
  | closing
  | gone
deriving DecidableEq

/-- A `conn_state_t` with the point its thread has reached.  `mustClose` is what
the last response and the request it answers say about the connection, `closed`
tells that its descriptor has been closed for it, and `touched` that its number
or its slot was used once more after that. -/
structure Peer where
  conn : ConnState
  stage : Stage
  mustClose : Option Bool
  closed : Bool
  touched : Bool
deriving DecidableEq

/-- `files` is the descriptor table, `slots` is `active_connections` and `epoll`
the interest list, by descriptor number. -/
structure Sockets where
  peers : List Peer
  files : Nat → Option Nat
  slots : Nat → Option Nat
  epoll : Nat → Option Nat

/-- `MAX_CONNECTIONS`. -/
def maxConnections : Nat := 100000

def noSockets : Sockets where
  peers := []
  files := fun _ => none
  slots := fun _ => none
  epoll := fun _ => none

/-- The `Connection` line of a response. -/
def Response.saysClose : Response → Bool
  | .success _ => false
  | .error _ _ => true

/-- The header section of a request asks to close. -/
def clientAsks (headerBuffer : List UInt8) : Bool :=
  let text := (CString.ofBytes headerBuffer).bytes
  let headerSection :=
    match strstr text headerEnd with
    | none => text
    | some bodyStart => text.take (text.length - bodyStart.length + 4)
  (strcasestr headerSection (asciiBytes "Connection: close")).isSome

def RecvResult.bytes : RecvResult → List UInt8
  | .data bytes _ => bytes
  | _ => []

/-- `recv` returns at least one byte, and at most what was asked for. -/
def RecvResult.Fits (result : RecvResult) (conn : ConnState) : Prop :=
  ∀ bytes allocates, result = .data bytes allocates →
    bytes ≠ [] ∧ (bytes.length : Int) ≤ conn.destCap

instance (result : RecvResult) (conn : ConnState) : Decidable (result.Fits conn) :=
  match result with
  | .data bytes allocates =>
      decidable_of_iff (bytes ≠ [] ∧ (bytes.length : Int) ≤ conn.destCap)
        ⟨fun fits _ _ same => by cases same; exact fits, fun fits => fits bytes allocates rfl⟩
  | .again => isTrue nofun
  | .eof => isTrue nofun
  | .failed => isTrue nofun

/-! ### Steps -/

/-- The calls of the acceptor and of the handlers; `granted` is the outcome of an
`epoll_ctl` that nothing else makes fail. -/
inductive Move where
  | discard
  | track
  | register (granted : Bool)
  | event
  | round (result : RecvResult)
  | answer (response : Response)
  | closeRoute
  | decide
  | rearm (granted : Bool)
  | clearSlot
  | close
  | reap
deriving DecidableEq

inductive SocketAction where
  | accept (fd : Nat)
  | move (id : Nat) (move : Move)
deriving DecidableEq

namespace Peer

def fd (peer : Peer) : Nat := peer.conn.fd

def accepted (fd : Nat) : Peer where
  conn := ConnState.accepted fd
  stage := .accepted
  mustClose := none
  closed := false
  touched := false

/-- The descriptor is closed on behalf of the connection. -/
def closes (peer : Peer) (stage : Stage) : Peer :=
  { peer with
    stage := stage
    closed := true
    touched := peer.touched || peer.closed }

/-- What a round of `handle_conn_event` leads to. -/
def afterRound (peer : Peer) (result : RecvResult) : Option Peer :=
  match peer.conn.round result with
  | .active conn =>
      some { peer with conn := conn, stage := if result = .again then .rearming else .reading }
  | .closed none => some { peer with stage := .clearing }
  | .closed (some response) =>
      some
        { peer with
          stage := .clearing
          mustClose :=
            some (response.saysClose || clientAsks (peer.conn.headerBuffer ++ result.bytes)) }
  | .overrun _ => none

/-- `handel_client` has sent its response. -/
def answered (peer : Peer) (response : Response) : Peer :=
  { peer with
    stage := if routeOf peer.conn.headerText = .invalid then .routeClosing else .deciding
    mustClose := some (response.saysClose || clientAsks peer.conn.headerBuffer) }

/-- The test of `handle_conn_event` behind the call of `handel_client`. -/
def decided (peer : Peer) : Peer :=
  if asksToClose peer.conn.headerText then { peer with stage := .clearing }
  else { peer with conn := peer.conn.reset, stage := .rearming }

end Peer

namespace Sockets

def put (sockets : Sockets) (id : Nat) (peer : Peer) : Sockets :=
  { sockets with peers := sockets.peers.set id peer }

/-- `close`: the kernel forgets the number and what `epoll` holds for it. -/
def closeFd (sockets : Sockets) (fd : Nat) : Sockets :=
  { sockets with
    files := Function.update sockets.files fd none
    epoll := Function.update sockets.epoll fd none }

def setSlot (sockets : Sockets) (fd : Nat) (slot : Option Nat) : Sockets :=
  if fd < maxConnections then { sockets with slots := Function.update sockets.slots fd slot }
  else sockets

def setEpoll (sockets : Sockets) (fd id : Nat) : Sockets :=
  { sockets with epoll := Function.update sockets.epoll fd (some id) }

def accept (sockets : Sockets) (fd : Nat) : Sockets :=
  { sockets with
    peers := sockets.peers ++ [Peer.accepted fd]
    files := Function.update sockets.files fd (some sockets.peers.length) }

/-- `EPOLL_CTL_ADD`. -/
def canAdd (sockets : Sockets) (fd : Nat) (granted : Bool) : Bool :=
  granted && (sockets.files fd).isSome && (sockets.epoll fd).isNone

/-- `EPOLL_CTL_MOD`. -/
def canMod (sockets : Sockets) (fd : Nat) (granted : Bool) : Bool :=
  granted && (sockets.files fd).isSome && (sockets.epoll fd).isSome

/-- A call on behalf of one connection. -/
def moveStep (sockets : Sockets) (id : Nat) (peer : Peer) : Move → Option Sockets
  | .discard =>
      if peer.stage = .accepted then
        some ((sockets.closeFd peer.fd).put id (peer.closes .gone))
      else none
  | .track =>
      if peer.stage = .accepted then
        some ((sockets.setSlot peer.fd (some id)).put id { peer with stage := .tracked })
      else none
  | .register granted =>
      if peer.stage = .tracked then
        if sockets.canAdd peer.fd granted then
          some ((sockets.setEpoll peer.fd id).put id { peer with stage := .waiting })
        else some (sockets.put id { peer with stage := .clearing })
      else none
  | .event =>
      if peer.stage = .waiting ∧ sockets.epoll peer.fd = some id then
        some (sockets.put id { peer with stage := .reading, mustClose := none })
      else none
  | .round result =>
      if peer.stage = .reading ∧ peer.conn.phase ≠ .done ∧ result.Fits peer.conn then
        (peer.afterRound result).map (sockets.put id)
      else none
  | .answer response =>
      if peer.stage = .reading ∧ peer.conn.phase = .done ∧
          (routeOf peer.conn.headerText = .invalid →
            response = .error .wrongRequest "Invalid API route.") then
        some (sockets.put id (peer.answered response))
      else none
  | .closeRoute =>
      if peer.stage = .routeClosing then
        some ((sockets.closeFd peer.fd).put id (peer.closes .deciding))
      else none
  | .decide => if peer.stage = .deciding then some (sockets.put id peer.decided) else none
  | .rearm granted =>
      if peer.stage = .rearming then
        if sockets.canMod peer.fd granted then
          some ((sockets.setEpoll peer.fd id).put id { peer with stage := .waiting })
        else some (sockets.put id { peer with stage := .clearing })
      else none
  | .clearSlot =>
      if peer.stage = .clearing then
        some
          ((sockets.setSlot peer.fd none).put id
            { peer with
              stage := .closing
              touched := peer.touched || (peer.closed && decide (peer.fd < maxConnections)) })
      else none
  | .close =>
      if peer.stage = .closing then
        some ((sockets.closeFd peer.fd).put id (peer.closes .gone))
      else none
  | .reap =>
      -- The sweep takes what its slot holds, whether a handler runs or not.  It may
      -- come at any moment: the clock is left out.
      if sockets.slots peer.fd = some id then
        some
          (((sockets.setSlot peer.fd none).closeFd peer.fd).put id
            { peer.closes (if peer.stage = .waiting then .gone else peer.stage) with
              mustClose := none })
      else none

def step (sockets : Sockets) : SocketAction → Option Sockets
  | .accept fd => if sockets.files fd = none then some (sockets.accept fd) else none
  | .move id move =>
      match sockets.peers[id]? with
      | none => none
      | some peer => sockets.moveStep id peer move

end Sockets

/-! ### Closing as the responses say -/

/-- Once a connection waits for the next request or is gone, it has been closed
exactly if its last response or the request asked for it; and no number or slot
is used again after that. -/
structure Sockets.ClosesAsSaid (sockets : Sockets) : Prop where
  asSaid : ∀ (id : Nat) (peer : Peer), sockets.peers[id]? = some peer → ∀ must ∈ peer.mustClose,
    peer.stage = .waiting ∨ peer.stage = .gone →
      (must = true ↔ sockets.files peer.fd ≠ some id)
  once : ∀ (id : Nat) (peer : Peer), sockets.peers[id]? = some peer → peer.touched = false

/-- A known route is answered, and the header buffer asks to close exactly if the
response or the header section does. -/
def Peer.AnswersHonestly (peer : Peer) (response : Response) : Prop :=
  routeOf peer.conn.headerText ≠ .invalid ∧
    asksToClose peer.conn.headerText =
      (response.saysClose || clientAsks peer.conn.headerBuffer)

/-- A response is honest, `epoll_ctl` takes the connection back behind it, and the
sweep finds no connection that is being handled. -/
def Peer.Honest (peer : Peer) : Move → Prop
  | .answer response => peer.AnswersHonestly response
  | .rearm granted => peer.mustClose = none ∨ granted = true
  | .reap => peer.stage = .waiting
  | _ => True

instance (peer : Peer) (move : Move) : Decidable (peer.Honest move) :=
  match move with
  | .answer _ => inferInstanceAs (Decidable (_ ∧ _))
  | .rearm _ => inferInstanceAs (Decidable (_ ∨ _))
  | .reap => inferInstanceAs (Decidable (_ = _))
  | .discard | .track | .register _ | .event | .round _ | .closeRoute | .decide | .clearSlot
  | .close => isTrue trivial

def Sockets.Honest (sockets : Sockets) : SocketAction → Prop
  | .accept _ => True
  | .move id move => ∀ peer ∈ sockets.peers[id]?, peer.Honest move

instance (sockets : Sockets) (action : SocketAction) : Decidable (sockets.Honest action) :=
  match action with
  | .accept _ => isTrue trivial
  | .move id move => inferInstanceAs (Decidable (∀ peer ∈ sockets.peers[id]?, peer.Honest move))

/-- `epoll` knows the connection. -/
def Stage.armed : Stage → Bool
  | .waiting | .reading | .deciding | .rearming => true
  | _ => false

/-- What the stage tells about the last response; `finds` is the outcome of the
test for `Connection: close`. -/
def Stage.Promises (finds must : Bool) : Stage → Prop
  | .waiting | .rearming => must = false
  | .clearing | .closing | .gone => must = true
  | .deciding => finds = must
  | _ => False

structure Sockets.Keeps (sockets : Sockets) (id : Nat) (peer : Peer) : Prop where
  untouched : peer.touched = false
  known : peer.stage ≠ .routeClosing
  owns : peer.stage ≠ .gone → peer.closed = false ∧ sockets.files peer.fd = some id
  registered : peer.stage.armed = true → sockets.epoll peer.fd = some id
  left : peer.stage = .gone → sockets.files peer.fd ≠ some id
  promised : ∀ must ∈ peer.mustClose,
    peer.stage.Promises (asksToClose peer.conn.headerText) must

def Sockets.Sound (sockets : Sockets) : Prop :=
  ∀ (id : Nat) (peer : Peer), sockets.peers[id]? = some peer → sockets.Keeps id peer

theorem Sockets.Sound.closesAsSaid {sockets : Sockets} (sound : sockets.Sound) :
    sockets.ClosesAsSaid where
  once := fun id peer isPeer => (sound id peer isPeer).untouched
  asSaid := by
    intro id peer isPeer must said settled
    have kept := sound id peer isPeer
    have promised := kept.promised must said
    rcases settled with waiting | gone
    · rw [waiting] at promised
      have stays : must = false := promised
      have owned := (kept.owns (by rw [waiting]; nofun)).2
      rw [stays, owned]
      simp
    · rw [gone] at promised
      have leaves : must = true := promised
      rw [leaves]
      exact ⟨fun _ => kept.left gone, fun _ => rfl⟩

/-- A call for one connection that uses only its own number leaves the others
as they are. -/
theorem Sockets.Sound.update {sockets next : Sockets} {id : Nat} {peer peer' : Peer}
    (sound : sockets.Sound) (isPeer : sockets.peers[id]? = some peer)
    (peersEq : next.peers = sockets.peers.set id peer')
    (owned : sockets.files peer.fd = some id)
    (filesEq : ∀ fd, fd ≠ peer.fd → next.files fd = sockets.files fd)
    (epollEq : ∀ fd, fd ≠ peer.fd → next.epoll fd = sockets.epoll fd)
    (released : next.files peer.fd = some id ∨ next.files peer.fd = none)
    (kept : next.Keeps id peer') : next.Sound := by
  intro other peerOther isOther
  rw [peersEq, List.getElem?_set] at isOther
  by_cases same : id = other
  · have bound := (List.getElem?_eq_some_iff.mp isPeer).1
    rw [if_pos same, if_pos bound] at isOther
    cases isOther
    exact same ▸ kept
  · rw [if_neg same] at isOther
    have keptOther := sound other peerOther isOther
    by_cases shares : peerOther.fd = peer.fd
    · -- Two connections have one number only if the other one is gone.
      have gone : peerOther.stage = .gone := by
        by_contra live
        have ownedOther := (keptOther.owns live).2
        rw [shares, owned] at ownedOther
        exact same (Option.some.inj ownedOther)
      have notOther : next.files peerOther.fd ≠ some other := by
        rw [shares]
        rcases released with mine | nobody
        · rw [mine]
          exact fun owner => same (Option.some.inj owner)
        · rw [nobody]
          nofun
      exact
        { keptOther with
          owns := fun live => absurd gone live
          registered := fun armed => by
            rw [gone] at armed
            cases armed
          left := fun _ => notOther }
    · exact
        { keptOther with
          owns := fun live => by
            rw [filesEq _ shares]
            exact keptOther.owns live
          registered := fun armed => by
            rw [epollEq _ shares]
            exact keptOther.registered armed
          left := fun goneOther => by
            rw [filesEq _ shares]
            exact keptOther.left goneOther }

/-- What a call that does not close the descriptor leaves as it is. -/
structure Peer.Continues (peer peer' : Peer) : Prop where
  fdEq : peer'.fd = peer.fd
  closedEq : peer'.closed = peer.closed
  touchedEq : peer'.touched = peer.touched
  stays : peer'.stage ≠ .gone
  known : peer'.stage ≠ .routeClosing

theorem Sockets.Sound.continues {sockets next : Sockets} {id : Nat} {peer peer' : Peer}
    (sound : sockets.Sound) (isPeer : sockets.peers[id]? = some peer)
    (live : peer.stage ≠ .gone) (continues : peer.Continues peer')
    (peersEq : next.peers = sockets.peers.set id peer')
    (filesEq : next.files = sockets.files)
    (epollEq : ∀ fd, fd ≠ peer.fd → next.epoll fd = sockets.epoll fd)
    (registered : peer'.stage.armed = true → next.epoll peer.fd = some id)
    (promised : ∀ must ∈ peer'.mustClose,
      peer'.stage.Promises (asksToClose peer'.conn.headerText) must) : next.Sound := by
  have kept := sound id peer isPeer
  have owned := kept.owns live
  apply sound.update isPeer peersEq owned.2 ?_ epollEq
  · left
    rw [filesEq]
    exact owned.2
  · exact
      { untouched := by rw [continues.touchedEq, kept.untouched]
        known := continues.known
        owns := fun _ => by
          rw [continues.closedEq, continues.fdEq, filesEq]
          exact owned
        registered := fun armed => by
          rw [continues.fdEq]
          exact registered armed
        left := fun gone => absurd gone continues.stays
        promised := promised }
  · intro fd _
    rw [filesEq]

/-- A call that touches no table. -/
theorem Sockets.Sound.put {sockets : Sockets} {id : Nat} {peer peer' : Peer}
    (sound : sockets.Sound) (isPeer : sockets.peers[id]? = some peer)
    (live : peer.stage ≠ .gone) (continues : peer.Continues peer')
    (registered : peer'.stage.armed = true → peer.stage.armed = true)
    (promised : ∀ must ∈ peer'.mustClose,
      peer'.stage.Promises (asksToClose peer'.conn.headerText) must) :
    (sockets.put id peer').Sound :=
  sound.continues isPeer live continues rfl rfl (fun _ _ => rfl)
    (fun armed => (sound id peer isPeer).registered (registered armed)) promised

/-- `epoll` takes the connection, or takes it back. -/
theorem Sockets.Sound.arm {sockets : Sockets} {id : Nat} {peer : Peer} (sound : sockets.Sound)
    (isPeer : sockets.peers[id]? = some peer) (live : peer.stage ≠ .gone)
    (stays : ∀ must ∈ peer.mustClose, must = false) :
    ((sockets.setEpoll peer.fd id).put id { peer with stage := .waiting }).Sound := by
  have continues : peer.Continues { peer with stage := .waiting } :=
    ⟨rfl, rfl, rfl, nofun, nofun⟩
  apply sound.continues isPeer live continues
  · rfl
  · rfl
  · intro fd different
    exact Function.update_of_ne different _ _
  · exact fun _ => Function.update_self ..
  · exact stays

theorem Sockets.setSlot_tables (sockets : Sockets) (fd : Nat) (slot : Option Nat) :
    (sockets.setSlot fd slot).peers = sockets.peers ∧
      (sockets.setSlot fd slot).files = sockets.files ∧
        (sockets.setSlot fd slot).epoll = sockets.epoll := by
  unfold Sockets.setSlot
  split <;> exact ⟨rfl, rfl, rfl⟩

/-- A slot is written, or cleared before the descriptor is closed. -/
theorem Sockets.Sound.slot {sockets : Sockets} {id : Nat} {peer peer' : Peer}
    (sound : sockets.Sound) (isPeer : sockets.peers[id]? = some peer)
    (live : peer.stage ≠ .gone) (continues : peer.Continues peer') (slot : Option Nat)
    (unarmed : peer'.stage.armed = false)
    (promised : ∀ must ∈ peer'.mustClose,
      peer'.stage.Promises (asksToClose peer'.conn.headerText) must) :
    ((sockets.setSlot peer.fd slot).put id peer').Sound := by
  have tables := sockets.setSlot_tables peer.fd slot
  apply sound.continues isPeer live continues
  · rw [Sockets.put, tables.1]
  · exact tables.2.1
  · intro fd _
    exact congrFun tables.2.2 fd
  · intro armed
    rw [unarmed] at armed
    cases armed
  · exact promised

/-- A call that closes the descriptor, for a connection that goes with it. -/
theorem Sockets.Sound.leave {sockets next : Sockets} {id : Nat} {peer peer' : Peer}
    (sound : sockets.Sound) (isPeer : sockets.peers[id]? = some peer)
    (live : peer.stage ≠ .gone) (peersEq : next.peers = sockets.peers.set id peer')
    (filesEq : next.files = Function.update sockets.files peer.fd none)
    (epollEq : next.epoll = Function.update sockets.epoll peer.fd none)
    (fdEq : peer'.fd = peer.fd) (stageEq : peer'.stage = .gone)
    (touchedEq : peer'.touched = (peer.touched || peer.closed))
    (promised : ∀ must ∈ peer'.mustClose, must = true) : next.Sound := by
  have kept := sound id peer isPeer
  have owned := kept.owns live
  have closedFile : next.files peer.fd = none := by
    rw [filesEq, Function.update_self]
  apply sound.update isPeer peersEq owned.2
  · intro fd different
    rw [filesEq, Function.update_of_ne different]
  · intro fd different
    rw [epollEq, Function.update_of_ne different]
  · exact Or.inr closedFile
  · exact
      { untouched := by rw [touchedEq, kept.untouched, owned.1, Bool.or_false]
        known := by rw [stageEq]; nofun
        owns := fun stays => absurd stageEq stays
        registered := fun armed => by
          rw [stageEq] at armed
          cases armed
        left := fun _ => by
          rw [fdEq, closedFile]
          nofun
        promised := by
          rw [stageEq]
          exact promised }

theorem Sockets.Sound.accept {sockets : Sockets} {fd : Nat} (sound : sockets.Sound)
    (free : sockets.files fd = none) : (sockets.accept fd).Sound := by
  intro id peer isPeer
  unfold Sockets.accept at isPeer
  dsimp only at isPeer
  rw [List.getElem?_append] at isPeer
  split at isPeer
  · rename_i old
    have kept := sound id peer isPeer
    have different : id ≠ sockets.peers.length := Nat.ne_of_lt old
    have filesNext : ∀ number, (sockets.accept fd).files number = some id ↔
        sockets.files number = some id := by
      intro number
      unfold Sockets.accept
      dsimp only
      by_cases same : number = fd
      · rw [same, Function.update_self, free]
        constructor
        · exact fun owner => absurd (Option.some.inj owner).symm different
        · nofun
      · rw [Function.update_of_ne same]
    exact
      { kept with
        owns := fun live => ⟨(kept.owns live).1, (filesNext _).mpr (kept.owns live).2⟩
        left := fun gone => fun owner => kept.left gone ((filesNext _).mp owner) }
  · rename_i new
    rw [List.getElem?_singleton] at isPeer
    split at isPeer
    · rename_i first
      cases isPeer
      have idEq : id = sockets.peers.length := by omega
      rw [idEq]
      exact
        { untouched := rfl
          known := nofun
          owns := fun _ => ⟨rfl, Function.update_self ..⟩
          registered := nofun
          left := nofun
          promised := nofun }
    · cases isPeer

/-! ### One call -/

theorem ConnState.takeLeftover_fd {conn next : ConnState} {contentLength take : Int}
    {buffer : List UInt8} {headersSize : Nat}
    (isNext : next ∈ (conn.takeLeftover contentLength buffer headersSize take).conn?) :
    next.fd = conn.fd := by
  unfold ConnState.takeLeftover at isNext
  dsimp only at isNext
  split at isNext
  · unfold ConnState.bodyRound at isNext
    split at isNext <;> cases isNext <;> rfl
  · cases isNext

/-- A round reads from the same descriptor. -/
theorem ConnState.round_fd {conn next : ConnState} {result : RecvResult}
    (isNext : next ∈ (conn.round result).conn?) : next.fd = conn.fd := by
  have bodyRound : ∀ other : ConnState, next ∈ other.bodyRound.conn? → next.fd = other.fd := by
    intro other isOther
    unfold ConnState.bodyRound at isOther
    split at isOther <;> cases isOther <;> rfl
  unfold ConnState.round at isNext
  split at isNext
  · split at isNext
    · cases isNext
    · split at isNext
      · unfold ConnState.receiveHeader at isNext
        split at isNext
        · cases isNext
          rfl
        · unfold ConnState.startBody at isNext
          dsimp only at isNext
          split at isNext
          · cases isNext
          · split at isNext
            · cases isNext
            · split at isNext
              · have kept := ConnState.takeLeftover_fd isNext
                exact kept
              · have kept := bodyRound _ isNext
                exact kept
      · cases isNext
        rfl
      · cases isNext
  · split at isNext
    · split at isNext
      · have kept := bodyRound _ isNext
        exact kept
      · cases isNext
        rfl
      · cases isNext
    · cases isNext

/-- The responses that `handle_conn_event` sends itself are errors. -/
theorem ConnState.round_saysClose {conn : ConnState} {result : RecvResult} {response : Response}
    (refused : conn.round result = .closed (some response)) : response.saysClose = true := by
  rcases ConnState.round_refuses refused with rfl | rfl
  · rfl
  · rfl

/-- A connection that is being read has sent no response yet. -/
theorem Sockets.Keeps.silent {sockets : Sockets} {id : Nat} {peer : Peer}
    (kept : sockets.Keeps id peer)
    (stageEq : peer.stage = .accepted ∨ peer.stage = .tracked ∨ peer.stage = .reading) :
    ∀ must ∈ peer.mustClose, False := by
  intro must said
  have promised := kept.promised must said
  rcases stageEq with stageEq | stageEq | stageEq
  · rw [stageEq] at promised
    exact promised
  · rw [stageEq] at promised
    exact promised
  · rw [stageEq] at promised
    exact promised

theorem Sockets.Sound.round {sockets : Sockets} {id : Nat} {peer peer' : Peer}
    {result : RecvResult} (sound : sockets.Sound) (isPeer : sockets.peers[id]? = some peer)
    (stageEq : peer.stage = .reading) (rounded : peer.afterRound result = some peer') :
    (sockets.put id peer').Sound := by
  have live : peer.stage ≠ .gone := by rw [stageEq]; nofun
  have silent := (sound id peer isPeer).silent (Or.inr (Or.inr stageEq))
  unfold Peer.afterRound at rounded
  split at rounded
  · rename_i conn active
    cases rounded
    have fdEq : conn.fd = peer.conn.fd := by
      apply ConnState.round_fd
      rw [active]
      rfl
    have continues : peer.Continues
        { peer with conn := conn, stage := if result = .again then .rearming else .reading } := by
      refine ⟨fdEq, rfl, rfl, ?_, ?_⟩ <;> dsimp only <;> split <;> nofun
    apply sound.put isPeer live continues
    · intro _
      rw [stageEq]
      rfl
    · exact fun must said => absurd said (silent must)
  · cases rounded
    have continues : peer.Continues { peer with stage := .clearing } :=
      ⟨rfl, rfl, rfl, nofun, nofun⟩
    apply sound.put isPeer live continues nofun
    exact fun must said => absurd said (silent must)
  · rename_i response refused
    cases rounded
    have continues : peer.Continues
        { peer with
          stage := .clearing
          mustClose :=
            some (response.saysClose || clientAsks (peer.conn.headerBuffer ++ result.bytes)) } :=
      ⟨rfl, rfl, rfl, nofun, nofun⟩
    apply sound.put isPeer live continues nofun
    intro must said
    cases said
    rw [ConnState.round_saysClose refused]
    rfl
  · cases rounded

theorem Sockets.Sound.answer {sockets : Sockets} {id : Nat} {peer : Peer} {response : Response}
    (sound : sockets.Sound) (isPeer : sockets.peers[id]? = some peer)
    (stageEq : peer.stage = .reading) (honest : peer.AnswersHonestly response) :
    (sockets.put id (peer.answered response)).Sound := by
  have live : peer.stage ≠ .gone := by rw [stageEq]; nofun
  have answeredEq : peer.answered response =
      { peer with
        stage := .deciding
        mustClose := some (response.saysClose || clientAsks peer.conn.headerBuffer) } := by
    unfold Peer.answered
    rw [if_neg honest.1]
  rw [answeredEq]
  have continues : peer.Continues
      { peer with
        stage := .deciding
        mustClose := some (response.saysClose || clientAsks peer.conn.headerBuffer) } :=
    ⟨rfl, rfl, rfl, nofun, nofun⟩
  apply sound.put isPeer live continues
  · intro _
    rw [stageEq]
    rfl
  · intro must said
    cases said
    exact honest.2

/-- The test finds what the response and the request have said. -/
theorem Sockets.Sound.decide {sockets : Sockets} {id : Nat} {peer : Peer} (sound : sockets.Sound)
    (isPeer : sockets.peers[id]? = some peer) (stageEq : peer.stage = .deciding) :
    (sockets.put id peer.decided).Sound := by
  have live : peer.stage ≠ .gone := by rw [stageEq]; nofun
  have finds : ∀ must ∈ peer.mustClose, asksToClose peer.conn.headerText = must := by
    intro must said
    have promised := (sound id peer isPeer).promised must said
    rw [stageEq] at promised
    exact promised
  unfold Peer.decided
  split
  · rename_i asks
    have continues : peer.Continues { peer with stage := .clearing } :=
      ⟨rfl, rfl, rfl, nofun, nofun⟩
    apply sound.put isPeer live continues nofun
    intro must said
    exact (finds must said).symm.trans asks
  · rename_i keeps
    have continues : peer.Continues { peer with conn := peer.conn.reset, stage := .rearming } :=
      ⟨rfl, rfl, rfl, nofun, nofun⟩
    apply sound.put isPeer live continues
    · intro _
      rw [stageEq]
      rfl
    · intro must said
      exact (finds must said).symm.trans (Bool.eq_false_iff.mpr keeps)

/-- The connection has not been closed under its handler, so `epoll` still has it. -/
theorem Sockets.Sound.rearm {sockets next : Sockets} {id : Nat} {peer : Peer} {granted : Bool}
    (sound : sockets.Sound) (isPeer : sockets.peers[id]? = some peer)
    (stageEq : peer.stage = .rearming) (takes : peer.mustClose = none ∨ granted = true)
    (nextEq : (if sockets.canMod peer.fd granted then
        some ((sockets.setEpoll peer.fd id).put id { peer with stage := .waiting })
      else some (sockets.put id { peer with stage := .clearing })) = some next) :
    next.Sound := by
  have live : peer.stage ≠ .gone := by rw [stageEq]; nofun
  have kept := sound id peer isPeer
  split at nextEq
  · cases nextEq
    apply sound.arm isPeer live
    intro must said
    have promised := kept.promised must said
    rw [stageEq] at promised
    exact promised
  · rename_i refused
    cases nextEq
    have unsaid : peer.mustClose = none := by
      rcases takes with silent | yes
      · exact silent
      · have registered : sockets.epoll peer.fd = some id := kept.registered (by rw [stageEq]; rfl)
        apply absurd _ refused
        rw [Sockets.canMod, yes, (kept.owns live).2, registered]
        rfl
    have continues : peer.Continues { peer with stage := .clearing } :=
      ⟨rfl, rfl, rfl, nofun, nofun⟩
    apply sound.put isPeer live continues nofun
    intro must said
    rw [unsaid] at said
    cases said

/-- A connection that closes leaves no promise behind but to close. -/
theorem Sockets.Sound.closes {sockets : Sockets} {id : Nat} {peer : Peer} (sound : sockets.Sound)
    (isPeer : sockets.peers[id]? = some peer) (live : peer.stage ≠ .gone)
    (promised : ∀ must ∈ peer.mustClose, must = true) :
    ((sockets.closeFd peer.fd).put id (peer.closes .gone)).Sound := by
  apply sound.leave isPeer live
  · rfl
  · rfl
  · rfl
  · exact rfl
  · rfl
  · rfl
  · exact promised

theorem Sockets.moveStep_sound {sockets next : Sockets} {id : Nat} {peer : Peer} {move : Move}
    (sound : sockets.Sound) (isPeer : sockets.peers[id]? = some peer) (honest : peer.Honest move)
    (stepped : sockets.moveStep id peer move = some next) : next.Sound := by
  have kept := sound id peer isPeer
  have liveAt : ∀ stage, peer.stage = stage → stage ≠ .gone → peer.stage ≠ .gone :=
    fun stage stageEq different => stageEq ▸ different
  cases move with
  | discard =>
      simp only [Sockets.moveStep] at stepped
      split at stepped
      · rename_i stageEq
        cases stepped
        apply sound.closes isPeer (liveAt _ stageEq nofun)
        exact fun must said => absurd said (kept.silent (Or.inl stageEq) must)
      · cases stepped
  | track =>
      simp only [Sockets.moveStep] at stepped
      split at stepped
      · rename_i stageEq
        cases stepped
        have continues : peer.Continues { peer with stage := .tracked } :=
          ⟨rfl, rfl, rfl, nofun, nofun⟩
        apply sound.slot isPeer (liveAt _ stageEq nofun) continues (some id) rfl
        exact fun must said => absurd said (kept.silent (Or.inl stageEq) must)
      · cases stepped
  | register granted =>
      simp only [Sockets.moveStep] at stepped
      split at stepped
      · rename_i stageEq
        have live := liveAt _ stageEq nofun
        have silent := kept.silent (Or.inr (Or.inl stageEq))
        split at stepped
        · cases stepped
          exact sound.arm isPeer live fun must said => absurd said (silent must)
        · cases stepped
          have continues : peer.Continues { peer with stage := .clearing } :=
            ⟨rfl, rfl, rfl, nofun, nofun⟩
          apply sound.put isPeer live continues nofun
          exact fun must said => absurd said (silent must)
      · cases stepped
  | event =>
      simp only [Sockets.moveStep] at stepped
      split at stepped
      · rename_i ready
        cases stepped
        have continues : peer.Continues { peer with stage := .reading, mustClose := none } :=
          ⟨rfl, rfl, rfl, nofun, nofun⟩
        apply sound.put isPeer (liveAt _ ready.1 nofun) continues
        · intro _
          rw [ready.1]
          rfl
        · nofun
      · cases stepped
  | round result =>
      simp only [Sockets.moveStep] at stepped
      split at stepped
      · rename_i ready
        obtain ⟨peer', rounded, nextEq⟩ := Option.map_eq_some_iff.mp stepped
        rw [← nextEq]
        exact sound.round isPeer ready.1 rounded
      · cases stepped
  | answer response =>
      simp only [Sockets.moveStep] at stepped
      split at stepped
      · rename_i ready
        cases stepped
        exact sound.answer isPeer ready.1 honest
      · cases stepped
  | closeRoute =>
      simp only [Sockets.moveStep] at stepped
      split at stepped
      · rename_i stageEq
        exact absurd stageEq kept.known
      · cases stepped
  | decide =>
      simp only [Sockets.moveStep] at stepped
      split at stepped
      · rename_i stageEq
        cases stepped
        exact sound.decide isPeer stageEq
      · cases stepped
  | rearm granted =>
      simp only [Sockets.moveStep] at stepped
      split at stepped
      · rename_i stageEq
        exact sound.rearm isPeer stageEq honest stepped
      · cases stepped
  | clearSlot =>
      simp only [Sockets.moveStep] at stepped
      split at stepped
      · rename_i stageEq
        cases stepped
        have live := liveAt _ stageEq nofun
        have continues : peer.Continues
            { peer with
              stage := .closing
              touched := peer.touched ||
                (peer.closed && Decidable.decide (peer.fd < maxConnections)) } := by
          refine ⟨rfl, rfl, ?_, nofun, nofun⟩
          dsimp only
          rw [(kept.owns live).1, Bool.false_and, Bool.or_false]
        apply sound.slot isPeer live continues none rfl
        intro must said
        have promised := kept.promised must said
        rw [stageEq] at promised
        exact promised
      · cases stepped
  | close =>
      simp only [Sockets.moveStep] at stepped
      split at stepped
      · rename_i stageEq
        cases stepped
        apply sound.closes isPeer (liveAt _ stageEq nofun)
        intro must said
        have promised := kept.promised must said
        rw [stageEq] at promised
        exact promised
      · cases stepped
  | reap =>
      have waiting : peer.stage = .waiting := honest
      simp only [Sockets.moveStep] at stepped
      split at stepped
      · cases stepped
        have tables := sockets.setSlot_tables peer.fd none
        apply sound.leave isPeer (liveAt _ waiting nofun)
        · rw [Sockets.put, Sockets.closeFd, tables.1]
        · rw [Sockets.put, Sockets.closeFd, tables.2.1]
        · rw [Sockets.put, Sockets.closeFd, tables.2.2]
        · rfl
        · rfl
        · rfl
        · nofun
      · cases stepped

theorem Sockets.step_sound (sockets : Sockets) (action : SocketAction) (next : Sockets)
    (sound : sockets.Sound) (honest : sockets.Honest action)
    (stepped : sockets.step action = some next) : next.Sound := by
  cases action with
  | accept fd =>
      unfold Sockets.step at stepped
      dsimp only at stepped
      split at stepped
      · rename_i free
        cases stepped
        exact sound.accept free
      · cases stepped
  | move id move =>
      unfold Sockets.step at stepped
      dsimp only at stepped
      split at stepped
      · cases stepped
      · rename_i peer isPeer
        exact Sockets.moveStep_sound sound isPeer (honest peer isPeer) stepped

/-- In any order of the calls of the acceptor, the handlers and the sweep. -/
theorem closed_as_said (actions : List SocketAction)
    (honest : GuardedRun.Admits Sockets.step Sockets.Honest noSockets actions) :
    GuardedRun.Throughout Sockets.step Sockets.ClosesAsSaid noSockets actions := by
  apply GuardedRun.throughout_of_step Sockets.step_sound
  · exact fun sockets sound => sound.closesAsSaid
  · intro id peer isPeer
    cases isPeer
  · exact honest

/-! ### Runs with one descriptor number -/

/-- `accept` returns 5, and the connection is announced to `epoll`. -/
def opens (id : Nat) : List SocketAction :=
  [.accept 5, .move id .track, .move id (.register true)]

/-- A request comes in one piece and is answered. -/
def serves (id : Nat) (request : String) (response : Response) : List SocketAction :=
  [.move id .event, .move id (.round (.data (asciiBytes request) true)),
    .move id (.answer response)]

def queued : Response := .success "Delete request queued."

def malformed : Response := .error .invalidParameter "Malformed JSON payload."

def unknownRoute : Response := .error .wrongRequest "Invalid API route."

/-- The second request asks to close, and the next connection gets the number. -/
def closedOnRequest : List SocketAction :=
  opens 0 ++
    serves 0 "POST /delete-request HTTP/1.1\r\nContent-Length: 2\r\n\r\n\x7b\x7d" queued ++
    [.move 0 .decide, .move 0 (.rearm true)] ++
    serves 0 "POST /train HTTP/1.1\r\nConnection: close\r\nContent-Length: 1\r\n\r\n[" malformed ++
    [.move 0 .decide, .move 0 .clearSlot, .move 0 .close] ++ opens 1

theorem closed_on_request :
    GuardedRun.Throughout Sockets.step Sockets.ClosesAsSaid noSockets closedOnRequest :=
  closed_as_said closedOnRequest (by decide +kernel)

/-- An error is answered on a connection whose client does not ask to close. -/
def keptAfterError : List SocketAction :=
  opens 0 ++
    serves 0 "POST /train HTTP/1.1\r\nContent-Length: 1\r\n\r\n[" malformed ++
    [.move 0 .decide, .move 0 (.rearm true)]

/-- A request for an unknown route; its number is handed out before the handler
goes on. -/
def closedTwice : List SocketAction :=
  opens 0 ++ serves 0 "GET / HTTP/1.1\r\nContent-Length: 1\r\n\r\n[" unknownRoute ++
    [.move 0 .closeRoute, .accept 5, .move 1 .track, .move 0 .decide, .move 0 (.rearm true),
      .move 0 .clearSlot, .move 0 .close]

/-- The first response says that it closes and does not; the second connection of
the other run loses its descriptor and its slot to the first. -/
theorem closing_goes_wrong :
    (∃ final, GuardedRun.run Sockets.step noSockets keptAfterError = some final ∧
        final.files 5 = some 0 ∧ ¬final.ClosesAsSaid) ∧
      ∃ final, GuardedRun.run Sockets.step noSockets closedTwice = some final ∧
        final.files 5 = none ∧ final.slots 5 = none ∧
          (final.peers.map fun peer => (peer.stage, peer.closed, peer.touched)) =
            [(.gone, true, true), (.tracked, false, false)] ∧
          ¬final.ClosesAsSaid := by
  constructor
  · have ran : ((GuardedRun.run Sockets.step noSockets keptAfterError).map fun final =>
        (final.files 5, final.peers.map fun peer => (peer.fd, peer.stage, peer.mustClose))) =
          some (some 0, [(5, .waiting, some true)]) := by
      decide +kernel
    obtain ⟨final, ran, seen⟩ := Option.map_eq_some_iff.mp ran
    obtain ⟨filesEq, peersEq⟩ := Prod.mk.inj seen
    refine ⟨final, ran, filesEq, ?_⟩
    intro closes
    obtain ⟨peer, peerEq, fields⟩ := List.map_eq_singleton_iff.mp peersEq
    obtain ⟨fdEq, others⟩ := Prod.mk.inj fields
    obtain ⟨stageEq, mustEq⟩ := Prod.mk.inj others
    have first : final.peers[0]? = some peer := by rw [peerEq]; rfl
    have leaves := (closes.asSaid 0 peer first true mustEq (Or.inl stageEq)).mp rfl
    rw [fdEq] at leaves
    exact leaves filesEq
  · have ran : ((GuardedRun.run Sockets.step noSockets closedTwice).map fun final =>
        (final.files 5, final.slots 5,
          final.peers.map fun peer => (peer.stage, peer.closed, peer.touched))) =
          some (none, none, [(.gone, true, true), (.tracked, false, false)]) := by
      decide +kernel
    obtain ⟨final, ran, seen⟩ := Option.map_eq_some_iff.mp ran
    obtain ⟨filesEq, others⟩ := Prod.mk.inj seen
    obtain ⟨slotsEq, peersEq⟩ := Prod.mk.inj others
    refine ⟨final, ran, filesEq, slotsEq, peersEq, ?_⟩
    intro closes
    have first := congrArg (fun peers => peers[0]?) peersEq
    simp only [List.getElem?_map, List.getElem?_cons_zero, Option.map_eq_some_iff] at first
    obtain ⟨peer, isPeer, fields⟩ := first
    have untouched := closes.once 0 peer isPeer
    have touched : peer.touched = true := congrArg (fun flags => flags.2.2) fields
    rw [touched] at untouched
    cases untouched

end OriginDb
