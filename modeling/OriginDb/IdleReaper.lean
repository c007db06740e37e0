/-
The idle reaper: the first part of `sync_worker`.

A pass takes the time, then the lock of the connection table, and compares the time
with the `last_active` of every connection.  The other threads store `last_active`
without that lock, from clock reads of their own.  A connection whose `last_active` is
later than the time of the pass has, in unsigned arithmetic, been idle for ages.
-/

import OriginDb.ConnectionClosing

namespace OriginDb

open Foundation

/-! ### The threads around `active_connections` -/

/-- A `conn_state_t`, with the time at which its `last_active` was stored. -/
structure TimedConnection where
  fd : Nat
  lastActive : UInt64
  setAt : UInt64
deriving DecidableEq

/-- Where `acceptor_loop` stands: it has read the clock for a new connection, or has
stored the time and not yet entered the connection into the table. -/
inductive AcceptorStage where
  | waiting
  | clockRead (fd : Nat) (time : UInt64)
  | stored (connection : Nat)
deriving DecidableEq

/-- Where `sync_worker` stands; while it sweeps it holds `conn_tracker_lock`. -/
inductive SweepStage where
  | away
  | sampled (now : UInt64)
  | sweeping (now : UInt64) (slot : Nat)
deriving DecidableEq

/-- A connection that was reaped, and the time at which it was inspected. -/
structure Reaping where
  connection : TimedConnection
  inspectedAt : UInt64
deriving DecidableEq

/-- Connections are numbered as they are allocated; `none` is memory that is free. -/
structure ReaperState where
  clock : UInt64
  connections : Nat → Option TimedConnection
  allocated : Nat
  activeConnections : Nat → Option Nat
  acceptor : AcceptorStage
  workers : Nat → Option (Nat × UInt64)
  sweep : SweepStage
  reaped : List Reaping

def ReaperState.initial : ReaperState where
  clock := 0
  connections := fun _ => none
  allocated := 0
  activeConnections := fun _ => none
  acceptor := .waiting
  workers := fun _ => none
  sweep := .away
  reaped := []

/-- One step of one thread, or of the clock.  An assignment `last_active = time(NULL)` is
two steps, the clock read and the store. -/
inductive ReaperAction where
  | tick (time : UInt64)
  | accept (fd : Nat)
  | storeAccepted
  | track
  | event (worker connection : Nat)
  | storeActive (worker : Nat)
  | closeConn (connection : Nat)
  | sample
  | lock
  | inspect
  | unlock
deriving DecidableEq

def SweepStage.holdsLock : SweepStage → Bool
  | .sweeping _ _ => true
  | _ => false

namespace ReaperState

/-- `active_connections[fd] = entry`, for a descriptor inside the table. -/
def setActive (state : ReaperState) (fd : Nat) (entry : Option Nat) : Nat → Option Nat :=
  if fd < maxConnections then Function.update state.activeConnections fd entry
  else state.activeConnections

/-- The inspection of one slot. -/
def inspectSlot (state : ReaperState) (now : UInt64) (slot : Nat) : Option ReaperState :=
  match state.activeConnections slot with
  | none => some { state with sweep := .sweeping now (slot + 1) }
  | some index =>
      match state.connections index with
      | none => none
      | some connection =>
          if 300 < now - connection.lastActive then
            some
              { state with
                activeConnections := Function.update state.activeConnections slot none
                connections := Function.update state.connections index none
                sweep := .sweeping now (slot + 1)
                reaped := ⟨connection, state.clock⟩ :: state.reaped }
          else some { state with sweep := .sweeping now (slot + 1) }

/-- What an action does; `none` where it is not enabled.  A `time_t` has 63 bits. -/
def step (state : ReaperState) : ReaperAction → Option ReaperState
  | .tick time =>
      if state.clock ≤ time ∧ time.toNat < 2 ^ 63 then some { state with clock := time } else none
  | .accept fd =>
      match state.acceptor with
      | .waiting => some { state with acceptor := .clockRead fd state.clock }
      | _ => none
  | .storeAccepted =>
      match state.acceptor with
      | .clockRead fd time =>
          some
            { state with
              connections := Function.update state.connections state.allocated
                (some { fd := fd, lastActive := time, setAt := state.clock })
              allocated := state.allocated + 1
              acceptor := .stored state.allocated }
      | _ => none
  | .track =>
      if state.sweep.holdsLock then none
      else
        match state.acceptor with
        | .stored index =>
            (state.connections index).map fun connection =>
              { state with
                activeConnections := state.setActive connection.fd (some index)
                acceptor := .waiting }
        | _ => none
  | .event worker index =>
      if state.workers worker = none ∧ (state.connections index).isSome then
        some
          { state with
            workers := Function.update state.workers worker (some (index, state.clock)) }
      else none
  | .storeActive worker =>
      match state.workers worker with
      | none => none
      | some (index, time) =>
          (state.connections index).map fun connection =>
            { state with
              connections := Function.update state.connections index
                (some { connection with lastActive := time, setAt := state.clock })
              workers := Function.update state.workers worker none }
  | .closeConn index =>
      if state.sweep.holdsLock then none
      else
        (state.connections index).map fun connection =>
          { state with
            activeConnections := state.setActive connection.fd none
            connections := Function.update state.connections index none }
  | .sample =>
      if state.sweep = .away then some { state with sweep := .sampled state.clock } else none
  | .lock =>
      match state.sweep with
      | .sampled now => some { state with sweep := .sweeping now 0 }
      | _ => none
  | .inspect =>
      match state.sweep with
      | .sweeping now slot => if slot < maxConnections then state.inspectSlot now slot else none
      | _ => none
  | .unlock =>
      match state.sweep with
      | .sweeping _ slot =>
          if slot = maxConnections then some { state with sweep := .away } else none
      | _ => none

/-- Everything that a step can do, with what it finds. -/
inductive StepCase (state : ReaperState) : ReaperAction → ReaperState → Prop where
  | tick {time : UInt64} (later : state.clock ≤ time) (small : time.toNat < 2 ^ 63) :
      StepCase state (.tick time) { state with clock := time }
  | accept {fd : Nat} (waiting : state.acceptor = .waiting) :
      StepCase state (.accept fd) { state with acceptor := .clockRead fd state.clock }
  | storeAccepted {fd : Nat} {time : UInt64} (read : state.acceptor = .clockRead fd time) :
      StepCase state .storeAccepted
        { state with
          connections := Function.update state.connections state.allocated
            (some { fd := fd, lastActive := time, setAt := state.clock })
          allocated := state.allocated + 1
          acceptor := .stored state.allocated }
  | track {index : Nat} {connection : TimedConnection} (free : state.sweep.holdsLock = false)
      (stored : state.acceptor = .stored index)
      (found : state.connections index = some connection) :
      StepCase state .track
        { state with
          activeConnections := state.setActive connection.fd (some index)
          acceptor := .waiting }
  | event {worker index : Nat} (idle : state.workers worker = none)
      (allocated : (state.connections index).isSome = true) :
      StepCase state (.event worker index)
        { state with
          workers := Function.update state.workers worker (some (index, state.clock)) }
  | storeActive {worker index : Nat} {time : UInt64} {connection : TimedConnection}
      (read : state.workers worker = some (index, time))
      (found : state.connections index = some connection) :
      StepCase state (.storeActive worker)
        { state with
          connections := Function.update state.connections index
            (some { connection with lastActive := time, setAt := state.clock })
          workers := Function.update state.workers worker none }
  | closeConn {index : Nat} {connection : TimedConnection} (free : state.sweep.holdsLock = false)
      (found : state.connections index = some connection) :
      StepCase state (.closeConn index)
        { state with
          activeConnections := state.setActive connection.fd none
          connections := Function.update state.connections index none }
  | sample (away : state.sweep = .away) :
      StepCase state .sample { state with sweep := .sampled state.clock }
  | lock {now : UInt64} (sampled : state.sweep = .sampled now) :
      StepCase state .lock { state with sweep := .sweeping now 0 }
  | pass {now : UInt64} {slot : Nat} (sweeping : state.sweep = .sweeping now slot) :
      StepCase state .inspect { state with sweep := .sweeping now (slot + 1) }
  | reap {now : UInt64} {slot index : Nat} {connection : TimedConnection}
      (sweeping : state.sweep = .sweeping now slot) (inside : slot < maxConnections)
      (active : state.activeConnections slot = some index)
      (found : state.connections index = some connection)
      (tooOld : 300 < now - connection.lastActive) :
      StepCase state .inspect
        { state with
          activeConnections := Function.update state.activeConnections slot none
          connections := Function.update state.connections index none
          sweep := .sweeping now (slot + 1)
          reaped := ⟨connection, state.clock⟩ :: state.reaped }
  | unlock {now : UInt64} (done : state.sweep = .sweeping now maxConnections) :
      StepCase state .unlock { state with sweep := .away }

theorem inspectSlot_case {state next : ReaperState} {now : UInt64} {slot : Nat}
    (sweeping : state.sweep = .sweeping now slot) (inside : slot < maxConnections)
    (inspected : state.inspectSlot now slot = some next) : StepCase state .inspect next := by
  unfold inspectSlot at inspected
  split at inspected
  · cases inspected
    exact .pass sweeping
  · next active =>
      split at inspected
      · cases inspected
      · next found =>
          split at inspected
          · next tooOld =>
              cases inspected
              exact .reap sweeping inside active found tooOld
          · cases inspected
            exact .pass sweeping

theorem step_case {state next : ReaperState} {action : ReaperAction}
    (stepped : state.step action = some next) : StepCase state action next := by
  cases action with
  | tick time =>
      simp only [step] at stepped
      split at stepped
      · next bounds =>
          cases stepped
          exact .tick bounds.1 bounds.2
      · cases stepped
  | accept fd =>
      simp only [step] at stepped
      split at stepped
      · next waiting =>
          cases stepped
          exact .accept waiting
      · cases stepped
  | storeAccepted =>
      simp only [step] at stepped
      split at stepped
      · next read =>
          cases stepped
          exact .storeAccepted read
      · cases stepped
  | track =>
      simp only [step] at stepped
      split at stepped
      · cases stepped
      · next free =>
          split at stepped
          · next stored =>
              obtain ⟨connection, found, rfl⟩ := Option.map_eq_some_iff.mp stepped
              exact .track (Bool.not_eq_true _ ▸ free) stored found
          · cases stepped
  | event worker index =>
      simp only [step] at stepped
      split at stepped
      · next enabled =>
          cases stepped
          exact .event enabled.1 enabled.2
      · cases stepped
  | storeActive worker =>
      simp only [step] at stepped
      split at stepped
      · cases stepped
      · next read =>
          obtain ⟨connection, found, rfl⟩ := Option.map_eq_some_iff.mp stepped
          exact .storeActive read found
  | closeConn index =>
      simp only [step] at stepped
      split at stepped
      · cases stepped
      · next free =>
          obtain ⟨connection, found, rfl⟩ := Option.map_eq_some_iff.mp stepped
          exact .closeConn (Bool.not_eq_true _ ▸ free) found
  | sample =>
      simp only [step] at stepped
      split at stepped
      · next away =>
          cases stepped
          exact .sample away
      · cases stepped
  | lock =>
      simp only [step] at stepped
      split at stepped
      · next sampled =>
          cases stepped
          exact .lock sampled
      · cases stepped
  | inspect =>
      simp only [step] at stepped
      split at stepped
      · next sweeping =>
          split at stepped
          · next inside => exact inspectSlot_case sweeping inside stepped
          · cases stepped
      · cases stepped
  | unlock =>
      simp only [step] at stepped
      split at stepped
      · next sweeping =>
          split at stepped
          · next last =>
              cases stepped
              exact .unlock (last ▸ sweeping)
          · cases stepped
      · cases stepped

/-- More than 300 seconds had passed for whatever has been reaped. -/
def OnlyIdleReaped (state : ReaperState) : Prop :=
  ∀ reaping ∈ state.reaped,
    reaping.connection.setAt.toNat + 300 < reaping.inspectedAt.toNat

/-- The connection that the next inspection looks at, with the time of the pass. -/
def Inspects (state : ReaperState) (now : UInt64) (connection : TimedConnection) : Prop :=
  ∃ slot index, state.sweep = .sweeping now slot ∧ slot < maxConnections ∧
    state.activeConnections slot = some index ∧ state.connections index = some connection

/-- A connection whose `last_active` was stored at most 300 seconds ago is inspected by a
pass that took its time no earlier than that of `last_active`, and no more than 300
seconds later. -/
def InOrder (state : ReaperState) : ReaperAction → Prop
  | .inspect => ∀ now connection, state.Inspects now connection →
      connection.setAt.toNat + 300 < state.clock.toNat ∨
        (connection.lastActive ≤ now ∧ now.toNat ≤ connection.lastActive.toNat + 300)
  | _ => True

/-! ### Every time is one that the clock has shown -/

structure Clocked (state : ReaperState) : Prop where
  clockSmall : state.clock.toNat < 2 ^ 63
  stored : ∀ index connection, state.connections index = some connection →
    connection.lastActive ≤ connection.setAt ∧ connection.setAt ≤ state.clock
  accepting : ∀ fd time, state.acceptor = .clockRead fd time → time ≤ state.clock
  working : ∀ worker index time, state.workers worker = some (index, time) → time ≤ state.clock
  sampled : ∀ now, state.sweep = .sampled now → now ≤ state.clock
  sweeping : ∀ now slot, state.sweep = .sweeping now slot → now ≤ state.clock

theorem of_update {α : Type} {entries : Nat → Option α} {index key : Nat} {value : Option α}
    {found : α} (atKey : Function.update entries index value key = some found) :
    value = some found ∨ entries key = some found := by
  by_cases same : key = index
  · subst same
    rw [Function.update_self] at atKey
    exact Or.inl atKey
  · rw [Function.update_of_ne same] at atKey
    exact Or.inr atKey

/-- Stores put in times that the clock has shown, and frees put in nothing. -/
theorem stored_update {state : ReaperState} (clocked : state.Clocked) {index : Nat}
    {entry : Option TimedConnection}
    (entryClocked : ∀ connection, entry = some connection →
      connection.lastActive ≤ connection.setAt ∧ connection.setAt ≤ state.clock) :
    ∀ key connection, Function.update state.connections index entry key = some connection →
      connection.lastActive ≤ connection.setAt ∧ connection.setAt ≤ state.clock := by
  intro key connection found
  rcases of_update found with entryEq | earlier
  · exact entryClocked connection entryEq
  · exact clocked.stored key connection earlier

/-- The next slot is inspected with the same time. -/
theorem sweeping_onward {now clock : UInt64} {slot : Nat} (shown : now ≤ clock) :
    ∀ time other, SweepStage.sweeping now slot = .sweeping time other → time ≤ clock := by
  intro time other same
  cases same
  exact shown

theorem step_clocked {state next : ReaperState} {action : ReaperAction} (clocked : state.Clocked)
    (stepped : state.step action = some next) : next.Clocked := by
  cases step_case stepped with
  | tick later small =>
      constructor
      · exact small
      · exact fun index connection found =>
          ⟨(clocked.stored index connection found).1,
            UInt64.le_trans (clocked.stored index connection found).2 later⟩
      · exact fun fd read reading => UInt64.le_trans (clocked.accepting fd read reading) later
      · exact fun worker index read reading =>
          UInt64.le_trans (clocked.working worker index read reading) later
      · exact fun now sampled => UInt64.le_trans (clocked.sampled now sampled) later
      · exact fun now slot sweeping => UInt64.le_trans (clocked.sweeping now slot sweeping) later
  | accept _ =>
      exact { clocked with
        accepting := by
          intro other time reading
          cases reading
          exact UInt64.le_refl _ }
  | @storeAccepted fd time read =>
      exact { clocked with
        stored := stored_update clocked (by
          intro connection entryEq
          cases entryEq
          exact ⟨clocked.accepting fd time read, UInt64.le_refl _⟩)
        accepting := fun _ _ impossible => nomatch impossible }
  | track _ _ _ =>
      exact { clocked with
        accepting := fun _ _ impossible => nomatch impossible }
  | event _ _ =>
      exact { clocked with
        working := by
          intro other otherIndex time reading
          rcases of_update reading with here | earlier
          · cases here
            exact UInt64.le_refl _
          · exact clocked.working other otherIndex time earlier }
  | @storeActive worker index time _ read _ =>
      exact { clocked with
        stored := stored_update clocked (by
          intro stored entryEq
          cases entryEq
          exact ⟨clocked.working worker index time read, UInt64.le_refl _⟩)
        working := by
          intro other otherIndex otherTime otherReading
          rcases of_update otherReading with impossible | earlier
          · cases impossible
          · exact clocked.working other otherIndex otherTime earlier }
  | closeConn _ _ =>
      exact { clocked with
        stored := stored_update clocked fun _ impossible => nomatch impossible }
  | sample _ =>
      exact { clocked with
        sampled := by
          intro now sampled
          cases sampled
          exact UInt64.le_refl _
        sweeping := fun _ _ impossible => nomatch impossible }
  | @lock now sampled =>
      exact { clocked with
        sampled := fun _ impossible => nomatch impossible
        sweeping := sweeping_onward (clocked.sampled now sampled) }
  | @pass now slot sweeping =>
      exact { clocked with
        sampled := fun _ impossible => nomatch impossible
        sweeping := sweeping_onward (clocked.sweeping now slot sweeping) }
  | @reap now slot _ _ sweeping _ _ _ _ =>
      exact { clocked with
        stored := stored_update clocked fun _ impossible => nomatch impossible
        sampled := fun _ impossible => nomatch impossible
        sweeping := sweeping_onward (clocked.sweeping now slot sweeping) }
  | unlock _ =>
      exact { clocked with
        sampled := fun _ impossible => nomatch impossible
        sweeping := fun _ _ impossible => nomatch impossible }

/-! ### What is reaped -/

/-- In unsigned arithmetic a time after the sample is as good as one long before it. -/
theorem tooOld_iff {now lastActive : UInt64} (nowSmall : now.toNat < 2 ^ 63)
    (lastSmall : lastActive.toNat < 2 ^ 63) :
    300 < now - lastActive ↔
      ¬(lastActive ≤ now ∧ now.toNat ≤ lastActive.toNat + 300) := by
  have limit : (300 : UInt64).toNat = 300 := rfl
  rw [UInt64.lt_iff_toNat_lt, UInt64.le_iff_toNat_le, UInt64.toNat_sub, limit]
  omega

theorem Inspects.tooOld_iff {state : ReaperState} (clocked : state.Clocked) {now : UInt64}
    {connection : TimedConnection} (inspects : state.Inspects now connection) :
    300 < now - connection.lastActive ↔
      ¬(connection.lastActive ≤ now ∧ now.toNat ≤ connection.lastActive.toNat + 300) := by
  obtain ⟨slot, index, sweeping, -, -, found⟩ := inspects
  have small := clocked.clockSmall
  have nowShown := UInt64.le_iff_toNat_le.mp (clocked.sweeping now slot sweeping)
  obtain ⟨readFirst, storedShown⟩ := clocked.stored index connection found
  rw [UInt64.le_iff_toNat_le] at readFirst storedShown
  exact ReaperState.tooOld_iff (by omega) (by omega)

/-- An inspection reaps the connection that it finds too old. -/
theorem inspect_reaps {state : ReaperState} {now : UInt64} {connection : TimedConnection}
    (inspects : state.Inspects now connection) (tooOld : 300 < now - connection.lastActive) :
    ∃ next, state.step .inspect = some next ∧
      next.reaped = ⟨connection, state.clock⟩ :: state.reaped := by
  obtain ⟨slot, index, sweeping, inside, active, found⟩ := inspects
  simp only [step, sweeping, if_pos inside, inspectSlot, active, found, if_pos tooOld]
  exact ⟨_, rfl, rfl⟩

/-- Nothing else is reaped. -/
theorem step_reaped {state next : ReaperState} {action : ReaperAction}
    (stepped : state.step action = some next) :
    next.reaped = state.reaped ∨
      action = .inspect ∧ ∃ now connection, state.Inspects now connection ∧
        300 < now - connection.lastActive ∧
          next.reaped = ⟨connection, state.clock⟩ :: state.reaped := by
  cases step_case stepped with
  | @reap now slot index connection sweeping inside active found tooOld =>
      have inspects : state.Inspects now connection :=
        ⟨slot, index, sweeping, inside, active, found⟩
      exact Or.inr ⟨rfl, now, connection, inspects, tooOld, rfl⟩
  | _ => exact Or.inl rfl

/-- An inspection in order reaps nothing that has been active. -/
theorem step_onlyIdle {state next : ReaperState} {action : ReaperAction} (clocked : state.Clocked)
    (onlyIdle : state.OnlyIdleReaped) (inOrder : state.InOrder action)
    (stepped : state.step action = some next) : next.OnlyIdleReaped := by
  rcases step_reaped stepped with same | ⟨rfl, now, connection, inspects, tooOld, reapedEq⟩
  · intro reaping member
    exact onlyIdle reaping (same ▸ member)
  · intro reaping member
    rw [reapedEq] at member
    rcases List.mem_cons.mp member with rfl | earlier
    · rcases inOrder now connection inspects with idle | recent
      · exact idle
      · exact absurd recent ((inspects.tooOld_iff clocked).mp tooOld)
    · exact onlyIdle reaping earlier

/-- An inspection out of order reaps a connection that has been active. -/
theorem inOrder_of_next {state : ReaperState} {action : ReaperAction} (clocked : state.Clocked)
    (nextIdle : ∀ next, state.step action = some next → next.OnlyIdleReaped) :
    state.InOrder action := by
  cases action with
  | inspect =>
      intro now connection inspects
      by_cases tooOld : 300 < now - connection.lastActive
      · obtain ⟨next, stepped, reapedEq⟩ := inspect_reaps inspects tooOld
        exact Or.inl (nextIdle next stepped _ (reapedEq ▸ List.mem_cons_self ..))
      · rw [inspects.tooOld_iff clocked, not_not] at tooOld
        exact Or.inr tooOld
  | _ => trivial

theorem initial_clocked : ReaperState.initial.Clocked where
  clockSmall := by decide
  stored := fun _ _ impossible => nomatch impossible
  accepting := fun _ _ impossible => nomatch impossible
  working := fun _ _ _ impossible => nomatch impossible
  sampled := fun _ impossible => nomatch impossible
  sweeping := fun _ _ impossible => nomatch impossible

/-- The pass takes its time, the clock moves on by a second, and a connection comes in
before the pass has the lock. -/
def lateArrival : List ReaperAction :=
  [.tick 1000, .sample, .tick 1001, .accept 2, .storeAccepted, .track, .lock, .inspect, .inspect,
    .inspect]

end ReaperState

end OriginDb
