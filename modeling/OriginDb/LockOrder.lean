/-
The lock programs of the request handlers and of the sync worker.

Every handler is the sequence of its operations on the server's locks, one
program for each way through its code.  Almost all of it is ordered:
`open_tables_lock` before a table's `pending_dirty_lock`, that before the
table's `lock`, and the locks taken last above it.  The exception is the merge:
the worker asks for a table's `lock` under its `insert_queue_lock`, while an
`/insert` asks for the queue lock under the table's `lock`.
-/

import OriginDb.Foundation.GuardedRun
import OriginDb.Foundation.RankedLocks

namespace OriginDb

open Foundation RankedLocks

/-- The locks; a number stands for an open table. -/
inductive Lock where
  | openTables
  | pendingDelete
  | pendingDirty (table : Nat)
  | table (table : Nat)
  | diskWrite (table : Nat)
  | insertQueue (table : Nat)
  | index
deriving DecidableEq

/-- What the threads do to the length of an insert queue. -/
inductive QueueAction where
  | enqueue (table : Nat)
  | mergeIfQueued (table : Nat)
  | drain (table : Nat)
deriving DecidableEq

abbrev LockOp := Op Lock QueueAction
abbrev ServerThread := Thread Lock QueueAction

/-! ### The programs -/

inductive InsertPath where
  | dimensionMismatch
  | writeFailed
  | queued
deriving DecidableEq

/-- The ways through `/search` after the table has been opened: refused or
exact, with a loaded index, or with an index to load. -/
inductive SearchPath where
  | withoutIndex
  | indexLoaded
  | indexToLoad
deriving DecidableEq

/-- A request that reaches the locks, with the way it takes. -/
inductive Handler where
  | tableNotFound
  | search (table : Nat) (path : SearchPath)
  | insert (table : Nat) (path : InsertPath)
  | deleteRequest (openTable : Option Nat)
  | train (table : Nat) (trains : Bool)
deriving DecidableEq

def getOrOpenTableLocks : List LockOp :=
  [.acquire .openTables .exclusive, .release .openTables]

def InsertPath.ops (table : Nat) : InsertPath → List LockOp
  | .dimensionMismatch => []
  | .writeFailed => [.acquire (.diskWrite table) .exclusive, .release (.diskWrite table)]
  | .queued =>
      [.acquire (.diskWrite table) .exclusive, .release (.diskWrite table),
        .acquire (.insertQueue table) .exclusive, .act (.enqueue table),
        .release (.insertQueue table)]

def SearchPath.ops : SearchPath → List LockOp
  | .withoutIndex => []
  | .indexLoaded => [.acquire .index .shared, .release .index]
  | .indexToLoad =>
      [.acquire .index .shared, .release .index, .acquire .index .exclusive, .release .index,
        .acquire .index .shared, .release .index]

/-- `mark_table_pending_dirty`. -/
def markTablePendingDirtyLocks : Option Nat → List LockOp
  | none => [.acquire .openTables .exclusive, .release .openTables]
  | some table =>
      [.acquire .openTables .exclusive, .acquire (.pendingDirty table) .exclusive,
        .release (.pendingDirty table), .release .openTables]

def Handler.ops : Handler → List LockOp
  | .tableNotFound => getOrOpenTableLocks
  | .search table path =>
      getOrOpenTableLocks ++
        .acquire (.table table) .shared :: (path.ops ++ [.release (.table table)])
  | .insert table path =>
      getOrOpenTableLocks ++
        .acquire (.table table) .exclusive :: (path.ops table ++ [.release (.table table)])
  | .deleteRequest openTable =>
      -- `append_pending_delete` can block on its own mutex in between; such a
      -- handler takes no further step.
      .acquire .pendingDelete .exclusive :: .release .pendingDelete ::
        markTablePendingDirtyLocks openTable
  | .train table trains =>
      getOrOpenTableLocks ++ .acquire (.table table) .shared ::
        ((if trains then [.acquire .index .exclusive, .release .index] else []) ++
          [.release (.table table)])

/-- What the worker finds at a table, apart from the length of the queue. -/
structure TablePass where
  table : Nat
  dirty : Bool
  compacted : Bool
deriving DecidableEq

def mergeOps (table : Nat) : List LockOp :=
  [.acquire (.table table) .exclusive, .release (.table table), .act (.drain table)]

def TablePass.ops (pass : TablePass) : List LockOp :=
  .acquire (.insertQueue pass.table) .exclusive :: .act (.mergeIfQueued pass.table) ::
    .release (.insertQueue pass.table) :: .acquire (.pendingDirty pass.table) .exclusive ::
    ((if pass.dirty then [.acquire (.table pass.table) .exclusive, .release (.table pass.table)]
      else []) ++
    .release (.pendingDirty pass.table) :: .acquire (.table pass.table) .exclusive ::
    .release (.table pass.table) ::
    (if pass.compacted then [.acquire .index .exclusive, .release .index] else []))

/-- One round of `sync_worker`. -/
def syncWorkerOps (passes : List TablePass) : List LockOp :=
  .acquire .openTables .exclusive :: (passes.flatMap TablePass.ops ++ [.release .openTables])

/-! ### The step system -/

structure LockState where
  worker : ServerThread
  handlers : List ServerThread
  queued : Nat → Nat

def LockState.threads (state : LockState) : List ServerThread :=
  state.worker :: state.handlers

inductive LockStep where
  | request (handler : Handler)
  | round (passes : List TablePass)
  | worker
  | handler (index : Nat)
deriving DecidableEq

/-- The next operation of a thread, if it can be done. -/
def runOp (state : LockState) (thread : ServerThread) : Option (ServerThread × (Nat → Nat)) :=
  match thread.ops with
  | [] => none
  | .acquire lock mode :: rest =>
      if Grants state.threads lock mode then
        some (⟨(lock, mode) :: thread.held, rest⟩, state.queued)
      else none
  | .release lock :: rest =>
      some (⟨thread.held.filter fun hold => hold.1 ≠ lock, rest⟩, state.queued)
  | .act (.enqueue table) :: rest =>
      some (⟨thread.held, rest⟩, Function.update state.queued table (state.queued table + 1))
  | .act (.mergeIfQueued table) :: rest =>
      some (⟨thread.held, if 0 < state.queued table then mergeOps table ++ rest else rest⟩,
        state.queued)
  | .act (.drain table) :: rest =>
      some (⟨thread.held, rest⟩, Function.update state.queued table 0)

def lockStep (state : LockState) : LockStep → Option LockState
  | .request handler =>
      some { state with handlers := state.handlers ++ [⟨[], handler.ops⟩] }
  | .round passes =>
      if state.worker.ops = [] then
        some { state with worker := ⟨state.worker.held, syncWorkerOps passes⟩ }
      else none
  | .worker =>
      (runOp state state.worker).map fun (worker, queued) =>
        { state with worker := worker, queued := queued }
  | .handler index =>
      match state.handlers[index]? with
      | none => none
      | some thread =>
          (runOp state thread).map fun (moved, queued) =>
            { state with handlers := state.handlers.set index moved, queued := queued }

def takesQueueLock (table : Nat) (ops : List LockOp) : Bool :=
  ops.any fun
    | .acquire (.insertQueue other) _ => other == table
    | _ => false

/-- An `/insert` that has the table's lock and has its queue lock still before it. -/
def OnTheWayToQueue (table : Nat) (thread : ServerThread) : Prop :=
  thread.Holds (.table table) ∧ takesQueueLock table thread.ops = true

/-- The worker, between finding the queue non-empty and getting the table's lock. -/
def AboutToMerge (table : Nat) (thread : ServerThread) : Prop :=
  thread.Holds (.insertQueue table) ∧ mergeOps table <+: thread.ops

/-- No `/insert` is between a table's lock and its queue when the worker finds
the queue non-empty, and none gets there before the worker has merged it. -/
def LockSafe (state : LockState) : LockStep → Prop
  | .worker =>
      match state.worker.ops with
      | .act (.mergeIfQueued table) :: _ =>
          0 < state.queued table → ∀ thread ∈ state.handlers, ¬OnTheWayToQueue table thread
      | _ => True
  | .handler index =>
      match state.handlers[index]? with
      | some ⟨_, .acquire (.table table) _ :: rest⟩ =>
          takesQueueLock table rest = true → ¬AboutToMerge table state.worker
      | _ => True
  | _ => True

/-! ### What the programs ask for -/

def lockRank : Lock → Nat
  | .openTables => 0
  | .pendingDelete => 0
  | .pendingDirty _ => 1
  | .table _ => 2
  | .diskWrite _ => 3
  | .insertQueue _ => 3
  | .index => 3

def Above (held : List (Lock × Mode)) (lock : Lock) : Prop :=
  ∀ hold ∈ held, lockRank hold.1 < lockRank lock

/-- A handler asks upwards, and for a queue only under the table's lock. -/
def HandlerAsks (held : List (Lock × Mode)) (lock : Lock) : Prop :=
  Above held lock ∧ ∀ table, lock = .insertQueue table → ∃ hold ∈ held, hold.1 = .table table

/-- Nothing held but the table's queue lock keeps the worker from merging. -/
def MayMerge (held : List (Lock × Mode)) : QueueAction → Prop
  | .mergeIfQueued table => ∀ hold ∈ held, hold.1 = .insertQueue table ∨
      lockRank hold.1 < lockRank (.table table)
  | _ => True

def OnlyEnqueues (_ : List (Lock × Mode)) : QueueAction → Prop
  | .enqueue _ => True
  | _ => False

abbrev HandlerFollows (thread : ServerThread) : Prop :=
  thread.Follows HandlerAsks OnlyEnqueues

abbrev WorkerFollows (thread : ServerThread) : Prop :=
  thread.Follows Above MayMerge

/-- The worker follows its own rule, except where it merges. -/
def WorkerOrdered (worker : ServerThread) : Prop :=
  WorkerFollows worker ∨ ∃ table rest, worker.ops = mergeOps table ++ rest ∧
    MayMerge worker.held (.mergeIfQueued table) ∧ WorkerFollows ⟨worker.held, rest⟩

theorem handler_follows (handler : Handler) : HandlerFollows ⟨[], handler.ops⟩ := by
  cases handler with
  | tableNotFound =>
      simp [Thread.Follows, Follows, Handler.ops, getOrOpenTableLocks, HandlerAsks, Above]
  | search table path =>
      cases path <;> simp [Thread.Follows, Follows, Handler.ops, getOrOpenTableLocks,
        SearchPath.ops, HandlerAsks, Above, lockRank]
  | insert table path =>
      cases path <;> simp [Thread.Follows, Follows, Handler.ops, getOrOpenTableLocks,
        InsertPath.ops, HandlerAsks, OnlyEnqueues, Above, lockRank]
  | deleteRequest openTable =>
      cases openTable <;> simp [Thread.Follows, Follows, Handler.ops, markTablePendingDirtyLocks,
        HandlerAsks, Above, lockRank]
  | train table trains =>
      cases trains <;> simp [Thread.Follows, Follows, Handler.ops, getOrOpenTableLocks, HandlerAsks,
        Above, lockRank]

theorem syncWorker_follows (passes : List TablePass) :
    WorkerFollows ⟨[], syncWorkerOps passes⟩ := by
  have loop : WorkerFollows ⟨[(.openTables, .exclusive)],
      passes.flatMap TablePass.ops ++ [.release .openTables]⟩ := by
    induction passes with
    | nil => simp [Thread.Follows, Follows]
    | cons pass passes ih =>
        rcases pass with ⟨table, dirty, compacted⟩
        unfold WorkerFollows Thread.Follows at ih ⊢
        rw [List.flatMap_cons, List.append_assoc]
        cases dirty <;> cases compacted <;>
          simpa [Follows, TablePass.ops, MayMerge, Above, lockRank] using ih
  constructor
  · intro hold member
    cases member
  · exact loop

/-! ### The invariant -/

structure LockInvariant (state : LockState) : Prop where
  handlers : ∀ thread ∈ state.handlers, HandlerFollows thread
  worker : WorkerOrdered state.worker
  apart : ∀ table, AboutToMerge table state.worker →
    ∀ thread ∈ state.handlers, ¬OnTheWayToQueue table thread

/-- Under its rule the worker never asks for a table's lock with the queue lock held. -/
theorem not_aboutToMerge_of_follows {table : Nat} {worker : ServerThread}
    (follows : WorkerFollows worker) : ¬AboutToMerge table worker := by
  intro waiting
  rcases waiting with ⟨⟨hold, member, same⟩, rest, opsEq⟩
  have wants : worker.Wants (.table table) := ⟨_, _, opsEq.symm⟩
  have above := follows.asks_of_wants wants hold member
  rw [same] at above
  exact absurd above (by decide : ¬(3 : Nat) < 2)

/-- What one operation does to its thread. -/
theorem runOp_cases {state : LockState} {thread moved : ServerThread} {queued : Nat → Nat}
    (ran : runOp state thread = some (moved, queued)) :
    (∃ lock mode rest, thread.ops = .acquire lock mode :: rest ∧
      moved = ⟨(lock, mode) :: thread.held, rest⟩) ∨
    (∃ lock rest, thread.ops = .release lock :: rest ∧
      moved = ⟨thread.held.filter fun hold => hold.1 ≠ lock, rest⟩) ∨
    ∃ action rest, thread.ops = .act action :: rest ∧
      (moved = ⟨thread.held, rest⟩ ∨ ∃ table, action = .mergeIfQueued table ∧
        0 < state.queued table ∧ moved = ⟨thread.held, mergeOps table ++ rest⟩) := by
  unfold runOp at ran
  split at ran
  · cases ran
  · rename_i lock mode rest opsEq
    split at ran
    · cases ran
      exact Or.inl ⟨lock, mode, rest, opsEq, rfl⟩
    · cases ran
  · rename_i lock rest opsEq
    cases ran
    exact Or.inr (Or.inl ⟨lock, rest, opsEq, rfl⟩)
  · rename_i table rest opsEq
    cases ran
    exact Or.inr (Or.inr ⟨_, rest, opsEq, Or.inl rfl⟩)
  · rename_i table rest opsEq
    cases ran
    refine Or.inr (Or.inr ⟨_, rest, opsEq, ?_⟩)
    by_cases some_queued : 0 < state.queued table
    · rw [if_pos some_queued]
      exact Or.inr ⟨table, rfl, some_queued, rfl⟩
    · rw [if_neg some_queued]
      exact Or.inl rfl
  · rename_i table rest opsEq
    cases ran
    exact Or.inr (Or.inr ⟨_, rest, opsEq, Or.inl rfl⟩)

theorem takesQueueLock_cons {table : Nat} {op : LockOp} {rest : List LockOp}
    (ahead : takesQueueLock table rest = true) : takesQueueLock table (op :: rest) = true := by
  unfold takesQueueLock at ahead ⊢
  rw [List.any_cons, ahead, Bool.or_true]

theorem handler_runOp {state : LockState} {thread moved : ServerThread} {queued : Nat → Nat}
    (follows : HandlerFollows thread) (ran : runOp state thread = some (moved, queued)) :
    HandlerFollows moved ∧ ∀ table, OnTheWayToQueue table moved →
      OnTheWayToQueue table thread ∨ ∃ mode rest,
        thread.ops = .acquire (.table table) mode :: rest ∧
          takesQueueLock table rest = true := by
  rcases thread with ⟨held, ops⟩
  rcases runOp_cases ran with ⟨lock, mode, rest, rfl, rfl⟩ | ⟨lock, rest, rfl, rfl⟩ |
    ⟨action, rest, rfl, rfl | ⟨table, rfl, -, -⟩⟩
  · constructor
    · exact follows.2
    · intro table heading
      rcases heading with ⟨⟨hold, member, same⟩, ahead⟩
      rcases List.mem_cons.mp member with rfl | inHeld
      · cases same
        exact Or.inr ⟨mode, rest, rfl, ahead⟩
      · exact Or.inl ⟨⟨hold, inHeld, same⟩, takesQueueLock_cons ahead⟩
  · constructor
    · exact follows
    · intro table heading
      rcases heading with ⟨holds, ahead⟩
      exact Or.inl ⟨holds_of_release holds, takesQueueLock_cons ahead⟩
  · constructor
    · exact follows.2
    · intro table heading
      rcases heading with ⟨holds, ahead⟩
      exact Or.inl ⟨holds, takesQueueLock_cons ahead⟩
  · exact follows.1.elim

/-- A worker that is about to merge gets the lock and is back under its rule. -/
theorem worker_merges {state : LockState} {held : List (Lock × Mode)} {rest : List LockOp}
    {table : Nat} {moved : ServerThread} {queued : Nat → Nat}
    (mayMerge : MayMerge held (.mergeIfQueued table)) (follows : WorkerFollows ⟨held, rest⟩)
    (ran : runOp state ⟨held, mergeOps table ++ rest⟩ = some (moved, queued)) :
    WorkerFollows moved := by
  rcases runOp_cases ran with ⟨lock, mode, later, opsEq, rfl⟩ | ⟨lock, later, opsEq, -⟩ |
    ⟨action, later, opsEq, -⟩
  · cases opsEq
    have others : (held.filter fun hold => hold.1 ≠ Lock.table table) = held := by
      apply List.filter_eq_self.mpr
      intro hold member
      apply decide_eq_true
      intro same
      rcases mayMerge hold member with queueLock | below
      · rw [queueLock] at same
        cases same
      · rw [same] at below
        exact Nat.lt_irrefl _ below
    have released : ((Lock.table table, Mode.exclusive) :: held).filter
        (fun hold => hold.1 ≠ Lock.table table) = held := by
      rw [List.filter_cons_of_neg (by simp), others]
    change Follows Above MayMerge (List.filter _ _) (.act (.drain table) :: rest)
    rw [released]
    exact ⟨trivial, follows⟩
  · cases opsEq
  · cases opsEq

theorem worker_runOp {state : LockState} {worker moved : ServerThread} {queued : Nat → Nat}
    (ordered : WorkerOrdered worker) (ran : runOp state worker = some (moved, queued)) :
    WorkerFollows moved ∨ ∃ table rest, worker.ops = .act (.mergeIfQueued table) :: rest ∧
      0 < state.queued table ∧ moved.ops = mergeOps table ++ rest ∧
      MayMerge moved.held (.mergeIfQueued table) ∧ WorkerFollows ⟨moved.held, rest⟩ := by
  rcases worker with ⟨held, ops⟩
  rcases ordered with follows | ⟨table, rest, rfl, mayMerge, follows⟩
  · rcases runOp_cases ran with ⟨lock, mode, rest, rfl, rfl⟩ | ⟨lock, rest, rfl, rfl⟩ |
      ⟨action, rest, rfl, rfl | ⟨table, rfl, someQueued, rfl⟩⟩
    · exact Or.inl follows.2
    · exact Or.inl follows
    · exact Or.inl follows.2
    · exact Or.inr ⟨table, rest, rfl, someQueued, rfl, follows.1, follows.2⟩
  · exact Or.inl (worker_merges mayMerge follows ran)

theorem mergeOps_prefix_inj {first second : Nat} {rest : List LockOp}
    (isPrefixOf : mergeOps first <+: mergeOps second ++ rest) : first = second := by
  rcases isPrefixOf with ⟨later, same⟩
  injection same with sameHead _
  injection sameHead with sameLock _
  injection sameLock

theorem lockStep_invariant (state : LockState) (action : LockStep) (next : LockState)
    (invariant : LockInvariant state) (safe : LockSafe state action)
    (stepped : lockStep state action = some next) : LockInvariant next := by
  cases action with
  | request handler =>
      cases stepped
      constructor
      · intro thread member
        rcases List.mem_append.mp member with old | new
        · exact invariant.handlers thread old
        · rw [List.mem_singleton.mp new]
          exact handler_follows handler
      · exact invariant.worker
      · intro table merging thread member
        rcases List.mem_append.mp member with old | new
        · exact invariant.apart table merging thread old
        · rw [List.mem_singleton.mp new]
          intro heading
          rcases heading with ⟨⟨hold, inHeld, -⟩, -⟩
          cases inHeld
  | round passes =>
      simp only [lockStep] at stepped
      split at stepped
      · rename_i idle
        cases stepped
        have nothingHeld : state.worker.held = [] := by
          rcases invariant.worker with follows | ⟨table, rest, opsEq, -⟩
          · unfold WorkerFollows Thread.Follows at follows
            rw [idle] at follows
            exact follows
          · rw [idle] at opsEq
            cases opsEq
        have follows : WorkerFollows ⟨state.worker.held, syncWorkerOps passes⟩ := by
          rw [nothingHeld]
          exact syncWorker_follows passes
        constructor
        · exact invariant.handlers
        · exact Or.inl follows
        · intro table merging
          exact absurd merging (not_aboutToMerge_of_follows follows)
      · cases stepped
  | worker =>
      obtain ⟨⟨moved, queued⟩, ran, rfl⟩ := Option.map_eq_some_iff.mp stepped
      rcases worker_runOp invariant.worker ran with
        follows | ⟨table, rest, head, someQueued, opsEq, mayMerge, follows⟩
      · constructor
        · exact invariant.handlers
        · exact Or.inl follows
        · intro table merging
          exact absurd merging (not_aboutToMerge_of_follows follows)
      · constructor
        · exact invariant.handlers
        · exact Or.inr ⟨table, rest, opsEq, mayMerge, follows⟩
        · intro other heading
          rcases heading with ⟨-, merging⟩
          have same : other = table := mergeOps_prefix_inj (opsEq ▸ merging)
          simp only [LockSafe, head] at safe
          rw [same]
          exact safe someQueued
  | handler index =>
      simp only [lockStep] at stepped
      cases found : state.handlers[index]? with
      | none =>
          rw [found] at stepped
          cases stepped
      | some thread =>
          rw [found] at stepped
          obtain ⟨⟨moved, queued⟩, ran, rfl⟩ := Option.map_eq_some_iff.mp stepped
          have member := List.mem_of_getElem? found
          obtain ⟨follows, onTheWay⟩ := handler_runOp (invariant.handlers thread member) ran
          constructor
          · intro other inHandlers
            rcases List.mem_or_eq_of_mem_set inHandlers with old | rfl
            · exact invariant.handlers other old
            · exact follows
          · exact invariant.worker
          · intro table merging other inHandlers
            rcases List.mem_or_eq_of_mem_set inHandlers with old | rfl
            · exact invariant.apart table merging other old
            · intro ready
              rcases onTheWay table ready with already | ⟨mode, rest, head, ahead⟩
              · exact invariant.apart table merging thread member already
              · rcases thread with ⟨held, ops⟩
                cases head
                simp only [LockSafe, found] at safe
                exact safe ahead merging

/-! ### No cycle -/

theorem lockRank_le (lock : Lock) : lockRank lock ≤ 3 := by
  cases lock <;> simp [lockRank]

theorem LockInvariant.no_wait_cycle {state : LockState} (invariant : LockInvariant state) :
    ¬WaitCycle state.threads := by
  apply no_cycle_of_ranked lockRank 3 lockRank_le
  intro waiter isWaiter holder isHolder lock next wants holds wantsNext
  rcases holds with ⟨hold, member, rfl⟩
  rcases List.mem_cons.mp isHolder with rfl | inHandlers
  · rcases invariant.worker with follows | ⟨table, rest, opsEq, mayMerge, -⟩
    · exact follows.asks_of_wants wantsNext hold member
    · have wantsTable : state.worker.Wants (.table table) := ⟨_, _, opsEq⟩
      obtain rfl := wantsNext.unique wantsTable
      rcases mayMerge hold member with queueLock | below
      · -- Nobody waits for the queue lock of the table that is about to be merged.
        rw [queueLock] at wants
        rcases List.mem_cons.mp isWaiter with rfl | waits
        · cases wants.unique wantsTable
        · have merging : AboutToMerge table state.worker :=
            ⟨⟨hold, member, queueLock⟩, rest, opsEq.symm⟩
          have follows := invariant.handlers waiter waits
          obtain ⟨underTable, underMember, sameTable⟩ :=
            (follows.asks_of_wants wants).2 table rfl
          rcases wants with ⟨mode, later, head⟩
          have onTheWay : OnTheWayToQueue table waiter := by
            constructor
            · exact ⟨underTable, underMember, sameTable⟩
            · simp [takesQueueLock, head]
          exact absurd onTheWay (invariant.apart table merging waiter waits)
      · exact below
  · exact ((invariant.handlers holder inHandlers).asks_of_wants wantsNext).1 hold member

/-- The server before its first request. -/
def startLocks : LockState where
  worker := ⟨[], []⟩
  handlers := []
  queued := fun _ => 0

theorem startLocks_invariant : LockInvariant startLocks where
  handlers := by
    intro thread member
    cases member
  worker := Or.inl rfl
  apart := by
    intro table _ thread member
    cases member

theorem locks_have_no_cycle (actions : List LockStep)
    (admitted : GuardedRun.Admits lockStep LockSafe startLocks actions) :
    GuardedRun.Throughout lockStep (fun state => ¬WaitCycle state.threads) startLocks actions :=
  GuardedRun.throughout_of_step lockStep_invariant (fun _ invariant => invariant.no_wait_cycle)
    startLocks_invariant admitted

instance (table : Nat) (thread : ServerThread) : Decidable (OnTheWayToQueue table thread) := by
  unfold OnTheWayToQueue
  infer_instance

instance (table : Nat) (thread : ServerThread) : Decidable (AboutToMerge table thread) := by
  unfold AboutToMerge
  infer_instance

instance (state : LockState) (action : LockStep) : Decidable (LockSafe state action) := by
  unfold LockSafe
  split
  · split <;> infer_instance
  · split <;> infer_instance
  · infer_instance

/-- An `/insert` that runs to its end, a round that merges its vector, and a
search that is still reading when the round asks for the table. -/
theorem merge_between_requests_has_no_cycle :
    GuardedRun.Throughout lockStep (fun state => ¬WaitCycle state.threads) startLocks
      (.request (.insert 0 .queued) :: List.replicate 9 (.handler 0) ++
        [.request (.search 0 .indexLoaded), .handler 1, .handler 1, .handler 1,
          .round [⟨0, false, true⟩], .worker, .worker, .worker, .handler 1]) :=
  locks_have_no_cycle _ (by decide +kernel)

/-- The second `/insert` has the table's lock, the worker its queue lock. -/
def crossedSteps : List LockStep :=
  .request (.insert 0 .queued) :: List.replicate 9 (.handler 0) ++
    .request (.insert 0 .queued) :: List.replicate 5 (.handler 1) ++
    .round [⟨0, false, false⟩] :: List.replicate 3 .worker

theorem insert_and_worker_wait_for_each_other :
    ¬GuardedRun.Throughout lockStep (fun state => ¬WaitCycle state.threads) startLocks
      crossedSteps := by
  intro always
  let worker : ServerThread :=
    ⟨[(.insertQueue 0, .exclusive), (.openTables, .exclusive)],
      mergeOps 0 ++ (syncWorkerOps [⟨0, false, false⟩]).drop 3⟩
  let insert : ServerThread :=
    ⟨[(.table 0, .exclusive)],
      [.acquire (.insertQueue 0) .exclusive, .act (.enqueue 0), .release (.insertQueue 0),
        .release (.table 0)]⟩
  have reached : (GuardedRun.run lockStep startLocks crossedSteps).map LockState.threads =
      some [worker, ⟨[], []⟩, insert] := by
    decide +kernel
  obtain ⟨final, ran, threadsEq⟩ := Option.map_eq_some_iff.mp reached
  have noCycle := always.of_run ran
  apply noCycle
  rw [threadsEq]
  have workerWaits : worker.WaitsFor [worker, ⟨[], []⟩, insert] (.table 0) :=
    ⟨_, _, rfl, by decide⟩
  have insertWaits : insert.WaitsFor [worker, ⟨[], []⟩, insert] (.insertQueue 0) :=
    ⟨_, _, rfl, by decide⟩
  have workerHolds : worker.Holds (.insertQueue 0) := by decide
  have insertHolds : insert.Holds (.table 0) := by decide
  refine ⟨{0, 2}, ⟨0, Or.inl rfl⟩, ?_⟩
  intro index member
  rcases member with rfl | rfl
  · exact ⟨worker, rfl, .table 0, workerWaits, 2, Or.inr rfl, by decide, insert, rfl, insertHolds⟩
  · exact ⟨insert, rfl, .insertQueue 0, insertWaits, 0, Or.inl rfl, by decide, worker, rfl,
      workerHolds⟩

end OriginDb
