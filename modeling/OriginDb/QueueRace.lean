/-
Delete requests that arrive while the queue is executed.

An execution loads the ids of `pending.bin`, calls `db_delete` for each of them
and truncates the file; the command line waits for an answer in between.  The
module takes an execution apart into these steps, lets requests be added to the
file between any two of them, and states which runs lose none.
-/

import OriginDb.Foundation.GuardedRun
import OriginDb.PendingCache

namespace OriginDb

open Foundation

/-- Who executes the queue: the server's pass, or `process-deletes` of the
command line on the table `name`. -/
inductive ExecutionCaller where
  | server
  | commandLine (name : CString)
deriving DecidableEq

/-- Where an execution stands.  `remaining` are the loaded ids that have not been
passed to `db_delete` yet, and `index` numbers the next call. -/
inductive ExecutionPhase where
  | checkingSchedule (now : UInt64) (db : FlatDb)
  | loading (name : CString)
  | confirming (name : CString) (ids : List UInt64)
  | deleting (caller : ExecutionCaller) (remaining : List UInt64) (index : Nat) (db : FlatDb)
      (successes : Nat)
  | clearing (caller : ExecutionCaller) (db : FlatDb) (successes : Nat)
  | compacting (caller : ExecutionCaller) (db : FlatDb) (successes : Nat)
  | finished (successes : Nat) (db : Option FlatDb)

def ExecutionPhase.initial : QueueExecutor → ExecutionPhase
  | .autoDelete now db => .checkingSchedule now db
  | .processDeletes name => .loading name

def ExecutionPhase.BeforeLoad : ExecutionPhase → Prop
  | .checkingSchedule _ _ => True
  | .loading _ => True
  | _ => False

def ExecutionPhase.isClearing : ExecutionPhase → Bool
  | .clearing _ _ _ => true
  | _ => false

/-- The loaded ids still to be passed on, from the load to the truncation. -/
def ExecutionPhase.remaining? : ExecutionPhase → Option (List UInt64)
  | .confirming _ ids => some ids
  | .deleting _ remaining _ _ _ => some remaining
  | .compacting (.commandLine _) _ _ => some []
  | .clearing _ _ _ => some []
  | _ => none

theorem ExecutionPhase.eq_clearing {phase : ExecutionPhase} (clearing : phase.isClearing = true) :
    ∃ caller db successes, phase = .clearing caller db successes := by
  cases phase with
  | clearing caller db successes => exact ⟨caller, db, successes, rfl⟩
  | checkingSchedule now db => cases clearing
  | loading name => cases clearing
  | confirming name ids => cases clearing
  | deleting caller remaining index db successes => cases clearing
  | compacting caller db successes => cases clearing
  | finished successes db => cases clearing

/-- The directory of the table and the execution, with the ids it has loaded and
passed to `db_delete`, and the ids added to the file meanwhile. -/
structure QueueRace where
  dir : TableDir
  phase : ExecutionPhase
  loaded : List UInt64
  passed : List UInt64
  added : List UInt64

inductive RaceAction where
  | add (id timestamp : UInt64)
  | execute

namespace QueueRace

def start (dir : TableDir) (executor : QueueExecutor) : QueueRace where
  dir := dir
  phase := .initial executor
  loaded := []
  passed := []
  added := []

def pendingEntry (id timestamp : UInt64) : List UInt8 :=
  LittleEndian.encode 8 id.toNat ++ LittleEndian.encode 8 timestamp.toNat

def addRequest (id timestamp : UInt64) (race : QueueRace) : QueueRace :=
  { race with
    dir :=
      { race.dir with
        pendingBin := some (race.dir.pendingBin.getD [] ++ pendingEntry id timestamp) }
    added := race.added ++ [id] }

def scheduleStep (now : UInt64) (db : FlatDb) (race : QueueRace) : QueueRace :=
  let scheduledTime := getAutoDeleteSchedule race.dir.autoDeleteSchedule
  if scheduledTime = 0 then { race with phase := .finished 0 (some db) }
  else if now < scheduledTime then { race with phase := .finished 0 (some db) }
  else
    match loadPendingDeletes race.dir.pendingBin with
    | (some ids, _) => { race with phase := .deleting .server ids 0 db 0, loaded := ids }
    | (none, _) =>
        { race with
          dir := { race.dir with autoDeleteSchedule := none }
          phase := .finished 0 (some db) }

def loadStep (name : CString) (race : QueueRace) : QueueRace :=
  match loadPendingDeletes race.dir.pendingBin with
  | (some ids, _) => { race with phase := .confirming name ids, loaded := ids }
  | (none, _) => { race with phase := .finished 0 none }

/-- The answer to the question, and the opening of the table that follows a yes. -/
def confirmStep (fuel : Nat) (confirms : Bool) (name : CString) (ids : List UInt64)
    (race : QueueRace) : Option QueueRace :=
  if confirms then
    match dbOpen fuel name race.dir with
    | none => none
    | some (opened, none) => some { race with dir := opened, phase := .finished 0 none }
    | some (opened, some tempDb) =>
        some { race with dir := opened, phase := .deleting (.commandLine name) ids 0 tempDb 0 }
  else some { race with phase := .finished 0 none }

/-- One `db_delete` call of the loop, or the way out of it: the server clears the
file at once, the command line compacts first. -/
def deleteStep (io : ExecuteIO) (caller : ExecutionCaller) (remaining : List UInt64)
    (index : Nat) (db : FlatDb) (successes : Nat) (race : QueueRace) : QueueRace :=
  match remaining with
  | id :: rest =>
      let (code, file, next) := dbDelete (io.deletes index) (race.dir.dataDb.getD []) db id
      { race with
        dir := { race.dir with dataDb := some file }
        phase := .deleting caller rest (index + 1) next
          (if code = 0 then successes + 1 else successes)
        passed := race.passed ++ [id] }
  | [] =>
      match caller with
      | .server => { race with phase := .clearing .server db successes }
      | .commandLine name =>
          { race with
            phase :=
              if 0 < successes then .compacting (.commandLine name) db successes
              else .clearing (.commandLine name) db successes }

/-- The truncation, with which the server also removes the schedule. -/
def clearStep (io : ExecuteIO) (caller : ExecutionCaller) (db : FlatDb) (successes : Nat)
    (race : QueueRace) : QueueRace :=
  let cleared :=
    { race.dir with pendingBin := (clearPendingDeletes io.clears race.dir.pendingBin).2 }
  match caller with
  | .server =>
      { race with
        dir := { cleared with autoDeleteSchedule := none }
        phase :=
          if 0 < successes then .compacting .server db successes
          else .finished successes (some db) }
  | .commandLine _ => { race with dir := cleared, phase := .finished successes none }

/-- The compaction; the command line opens the table once more for it. -/
def compactStep (fuel : Nat) (io : ExecuteIO) (caller : ExecutionCaller) (db : FlatDb)
    (successes : Nat) (race : QueueRace) : Option QueueRace :=
  match caller with
  | .server =>
      (dbCompact io.compact (race.dir.dataDb.getD []) db).map fun (_, file, compacted) =>
        { race with
          dir := { race.dir with dataDb := some file }
          phase := .finished successes (some compacted) }
  | .commandLine name =>
      match dbOpen fuel name race.dir with
      | none => none
      | some (reopened, none) =>
          some { race with dir := reopened, phase := .clearing (.commandLine name) db successes }
      | some (reopened, some compactDb) =>
          (dbCompact io.compact (reopened.dataDb.getD []) compactDb).map fun (code, file, _) =>
            { race with
              dir :=
                { reopened with
                  dataDb := some file
                  ivfIndex := if code = 0 then none else reopened.ivfIndex }
              phase := .clearing (.commandLine name) db successes }

/-- The next step of the execution; `confirms` is the answer to the question of
the command line. -/
def executeStep (fuel : Nat) (confirms : Bool) (io : ExecuteIO) (race : QueueRace) :
    Option QueueRace :=
  match race.phase with
  | .checkingSchedule now db => some (scheduleStep now db race)
  | .loading name => some (loadStep name race)
  | .confirming name ids => confirmStep fuel confirms name ids race
  | .deleting caller remaining index db successes =>
      some (deleteStep io caller remaining index db successes race)
  | .clearing caller db successes => some (clearStep io caller db successes race)
  | .compacting caller db successes => compactStep fuel io caller db successes race
  | .finished _ _ => none

def step (fuel : Nat) (confirms : Bool) (io : ExecuteIO) (race : QueueRace) :
    RaceAction → Option QueueRace
  | .add id timestamp => some (race.addRequest id timestamp)
  | .execute => race.executeStep fuel confirms io

/-- No request is lost: every added id has been passed to `db_delete` or is still
in the file. -/
def NoneLost (race : QueueRace) : Prop :=
  ∀ id ∈ race.added, id ∈ race.passed ∨ id ∈ queuedIds race.dir.pendingBin

/-- The file consists of whole entries. -/
def WholeEntries (pendingBin : Option (List UInt8)) : Prop :=
  (pendingBin.getD []).length % 16 = 0

/-- If this step truncates the file, then the file holds no id that was not in it
when it was loaded. -/
def ClearsOnlyLoaded (io : ExecuteIO) (race : QueueRace) : Prop :=
  race.phase.isClearing = true → io.clears = true →
    ∀ id ∈ queuedIds race.dir.pendingBin, id ∈ race.loaded

/-- A request finds whole entries to stand behind, and the file is not truncated
over an id that came after the load. -/
def Undisturbed (io : ExecuteIO) (race : QueueRace) : RaceAction → Prop
  | .add _ _ => WholeEntries race.dir.pendingBin
  | .execute => race.ClearsOnlyLoaded io

/-- The ids are those of the file, not all words. -/
instance (race : QueueRace) :
    Decidable (∀ id ∈ queuedIds race.dir.pendingBin, id ∈ race.loaded) :=
  List.decidableBAll _ _

instance (io : ExecuteIO) (race : QueueRace) : Decidable (race.ClearsOnlyLoaded io) :=
  inferInstanceAs (Decidable (_ → _ → ∀ id ∈ queuedIds race.dir.pendingBin, id ∈ race.loaded))

instance (io : ExecuteIO) (race : QueueRace) : ∀ action, Decidable (race.Undisturbed io action)
  | .add _ _ => inferInstanceAs (Decidable (_ = _))
  | .execute => inferInstanceAs (Decidable (race.ClearsOnlyLoaded io))

/-! ### What a request does -/

theorem pendingEntry_length (id timestamp : UInt64) : (pendingEntry id timestamp).length = 16 := by
  simp only [pendingEntry, List.length_append, LittleEndian.encode_length]

theorem pendingIds_pendingEntry (id timestamp : UInt64) :
    pendingIds (pendingEntry id timestamp) = [id] := by
  have notShort : ¬(pendingEntry id timestamp).length < 16 := by
    rw [pendingEntry_length]
    decide
  have first : u64At (pendingEntry id timestamp) 0 = id := u64At_append [] _ id
  have rest : (pendingEntry id timestamp).drop 16 = [] := by
    apply List.drop_eq_nil_of_le
    rw [pendingEntry_length]
  rw [pendingIds, if_neg notShort, first, rest, pendingIds, if_pos (by decide)]

theorem u64At_append_left {front back : List UInt8} (enough : 8 ≤ front.length) :
    u64At (front ++ back) 0 = u64At front 0 := by
  simp only [u64At, bytesAt, List.drop_zero]
  rw [List.take_append_of_le_length enough]

theorem pendingIds_append (front back : List UInt8) (whole : front.length % 16 = 0) :
    pendingIds (front ++ back) = pendingIds front ++ pendingIds back := by
  induction front using pendingIds.induct with
  | case1 front short =>
      have empty : front = [] := by
        apply List.eq_nil_of_length_eq_zero
        omega
      rw [empty, List.nil_append]
      have noEntry : pendingIds [] = [] := by
        rw [pendingIds, if_pos (by decide)]
      rw [noEntry, List.nil_append]
  | case2 front enough ih =>
      have restWhole : (front.drop 16).length % 16 = 0 := by
        rw [List.length_drop]
        omega
      have notShort : ¬(front ++ back).length < 16 := by
        rw [List.length_append]
        omega
      rw [pendingIds, if_neg notShort, pendingIds.eq_def front, if_neg enough,
        u64At_append_left (by omega), List.drop_append_of_le_length (by omega), ih restWhole,
        List.cons_append]

theorem queuedIds_addRequest (id timestamp : UInt64) (race : QueueRace)
    (whole : WholeEntries race.dir.pendingBin) :
    queuedIds (race.addRequest id timestamp).dir.pendingBin =
      queuedIds race.dir.pendingBin ++ [id] := by
  have before : queuedIds race.dir.pendingBin = pendingIds (race.dir.pendingBin.getD []) := by
    cases race.dir.pendingBin with
    | none =>
        rw [Option.getD_none, pendingIds, if_pos (by decide)]
        rfl
    | some file => rfl
  rw [before, ← pendingIds_pendingEntry id timestamp, ← pendingIds_append _ _ whole]
  rfl

/-! ### What a step of the execution does -/

theorem dbInit_dataDb {fuel : Nat} {name : CString} {dimension capacity : UInt64}
    {metric : UInt32} {dir opened : TableDir} {db : FlatDb}
    (called : dbInit fuel name dimension capacity metric dir = some (opened, some db)) :
    opened.dataDb = some (dir.dataDb.getD []) := by
  unfold dbInit at called
  split at called
  · obtain ⟨loaded, -, same⟩ := Option.map_eq_some_iff.mp called
    cases same
    rfl
  · cases called

theorem dbOpen_dataDb {fuel : Nat} {name : CString} {dir opened : TableDir} {db : FlatDb}
    (called : dbOpen fuel name dir = some (opened, some db)) :
    opened.dataDb = some (dir.dataDb.getD []) := by
  unfold dbOpen at called
  split at called
  · split at called
    · cases called
    · split at called
      · cases called
      · exact dbInit_dataDb called
  · cases called

theorem dbInit_pendingBin {fuel : Nat} {name : CString} {dimension capacity : UInt64}
    {metric : UInt32} {dir opened : TableDir} {db : Option FlatDb}
    (called : dbInit fuel name dimension capacity metric dir = some (opened, db)) :
    opened.pendingBin = dir.pendingBin := by
  unfold dbInit at called
  split at called
  · obtain ⟨loaded, -, same⟩ := Option.map_eq_some_iff.mp called
    cases same
    rfl
  · cases called
    rfl

theorem dbOpen_pendingBin {fuel : Nat} {name : CString} {dir opened : TableDir}
    {db : Option FlatDb} (called : dbOpen fuel name dir = some (opened, db)) :
    opened.pendingBin = dir.pendingBin := by
  unfold dbOpen at called
  split at called
  · split at called
    · cases called
      rfl
    · split at called
      · cases called
        rfl
      · exact dbInit_pendingBin called
  · cases called
    rfl

/-- The effect of one step of the execution on the queue. -/
inductive Effect (io : ExecuteIO) (race next : QueueRace) : Prop where
  | load (ids : List UInt64) (before : race.phase.BeforeLoad)
      (members : ∀ id, id ∈ ids ↔ id ∈ queuedIds race.dir.pendingBin)
      (remainingEq : next.phase.remaining? = some ids) (loadedEq : next.loaded = ids)
      (passedEq : next.passed = race.passed)
      (pendingEq : next.dir.pendingBin = race.dir.pendingBin)
  | proceed (now later : List UInt64) (before : race.phase.remaining? = some (now ++ later))
      (remainingEq : next.phase.remaining? = some later) (loadedEq : next.loaded = race.loaded)
      (passedEq : next.passed = race.passed ++ now)
      (pendingEq : next.dir.pendingBin = race.dir.pendingBin)
  | leave (remainingEq : next.phase.remaining? = none)
      (passedEq : next.passed = race.passed)
      (pendingEq : next.dir.pendingBin = race.dir.pendingBin)
  | clear (caller : ExecutionCaller) (db : FlatDb) (successes : Nat)
      (before : race.phase = .clearing caller db successes)
      (remainingEq : next.phase.remaining? = none) (passedEq : next.passed = race.passed)
      (pendingEq : next.dir.pendingBin = (clearPendingDeletes io.clears race.dir.pendingBin).2)

theorem loadPendingDeletes_members {pendingBin : Option (List UInt8)} {ids : List UInt64}
    {count : Nat} (loadedEq : loadPendingDeletes pendingBin = (some ids, count)) (id : UInt64) :
    id ∈ ids ↔ id ∈ queuedIds pendingBin := by
  have members := loaded_mem_iff pendingBin id
  rw [loadedEq] at members
  exact members

theorem scheduleStep_effect {io : ExecuteIO} {race : QueueRace} {now : UInt64} {db : FlatDb}
    (phaseEq : race.phase = .checkingSchedule now db) :
    Effect io race (scheduleStep now db race) ∧
      (scheduleStep now db race).added = race.added ∧
        ¬(scheduleStep now db race).phase.BeforeLoad := by
  unfold scheduleStep
  dsimp only
  split
  · exact ⟨.leave rfl rfl rfl, rfl, id⟩
  · split
    · exact ⟨.leave rfl rfl rfl, rfl, id⟩
    · split
      · rename_i ids count loadedEq
        have before : race.phase.BeforeLoad := by
          rw [phaseEq]
          trivial
        exact ⟨.load ids before (loadPendingDeletes_members loadedEq) rfl rfl rfl rfl, rfl, id⟩
      · exact ⟨.leave rfl rfl rfl, rfl, id⟩

theorem loadStep_effect {io : ExecuteIO} {race : QueueRace} {name : CString}
    (phaseEq : race.phase = .loading name) :
    Effect io race (loadStep name race) ∧ (loadStep name race).added = race.added ∧
      ¬(loadStep name race).phase.BeforeLoad := by
  unfold loadStep
  split
  · rename_i ids count loadedEq
    have before : race.phase.BeforeLoad := by
      rw [phaseEq]
      trivial
    exact ⟨.load ids before (loadPendingDeletes_members loadedEq) rfl rfl rfl rfl, rfl, id⟩
  · exact ⟨.leave rfl rfl rfl, rfl, id⟩

theorem confirmStep_effect {fuel : Nat} {confirms : Bool} {io : ExecuteIO}
    {race next : QueueRace} {name : CString} {ids : List UInt64}
    (phaseEq : race.phase = .confirming name ids)
    (stepped : confirmStep fuel confirms name ids race = some next) :
    Effect io race next ∧ next.added = race.added ∧ ¬next.phase.BeforeLoad := by
  have before : race.phase.remaining? = some ids := by
    rw [phaseEq]
    rfl
  unfold confirmStep at stepped
  split at stepped
  · split at stepped
    · cases stepped
    · rename_i opened openedEq
      cases stepped
      exact ⟨.leave rfl rfl (dbOpen_pendingBin openedEq), rfl, id⟩
    · rename_i opened tempDb openedEq
      cases stepped
      exact ⟨.proceed [] ids before rfl rfl (List.append_nil _).symm
        (dbOpen_pendingBin openedEq), rfl, id⟩
  · cases stepped
    exact ⟨.leave rfl rfl rfl, rfl, id⟩

theorem deleteStep_effect {io : ExecuteIO} {race : QueueRace} {caller : ExecutionCaller}
    {remaining : List UInt64} {index : Nat} {db : FlatDb} {successes : Nat}
    (phaseEq : race.phase = .deleting caller remaining index db successes) :
    let next := deleteStep io caller remaining index db successes race
    Effect io race next ∧ next.added = race.added ∧ ¬next.phase.BeforeLoad := by
  have before : race.phase.remaining? = some remaining := by
    rw [phaseEq]
    rfl
  unfold deleteStep
  cases remaining with
  | cons id rest =>
      exact ⟨.proceed [id] rest before rfl rfl rfl rfl, rfl, fun impossible => impossible⟩
  | nil =>
      cases caller with
      | server =>
          exact ⟨.proceed [] [] before rfl rfl (List.append_nil _).symm rfl, rfl, id⟩
      | commandLine name =>
          dsimp only
          split
          · exact ⟨.proceed [] [] before rfl rfl (List.append_nil _).symm rfl, rfl, id⟩
          · exact ⟨.proceed [] [] before rfl rfl (List.append_nil _).symm rfl, rfl, id⟩

theorem clearStep_effect {io : ExecuteIO} {race : QueueRace} {caller : ExecutionCaller}
    {db : FlatDb} {successes : Nat} (phaseEq : race.phase = .clearing caller db successes) :
    let next := clearStep io caller db successes race
    Effect io race next ∧ next.added = race.added ∧ ¬next.phase.BeforeLoad := by
  unfold clearStep
  cases caller with
  | server =>
      dsimp only
      split
      · exact ⟨.clear .server db successes phaseEq rfl rfl rfl, rfl, id⟩
      · exact ⟨.clear .server db successes phaseEq rfl rfl rfl, rfl, id⟩
  | commandLine name => exact ⟨.clear (.commandLine name) db successes phaseEq rfl rfl rfl, rfl, id⟩

theorem compactStep_effect {fuel : Nat} {io : ExecuteIO} {race next : QueueRace}
    {caller : ExecutionCaller} {db : FlatDb} {successes : Nat}
    (phaseEq : race.phase = .compacting caller db successes)
    (stepped : compactStep fuel io caller db successes race = some next) :
    Effect io race next ∧ next.added = race.added ∧ ¬next.phase.BeforeLoad := by
  unfold compactStep at stepped
  cases caller with
  | server =>
      obtain ⟨⟨code, file, compacted⟩, -, same⟩ := Option.map_eq_some_iff.mp stepped
      cases same
      exact ⟨.leave rfl rfl rfl, rfl, id⟩
  | commandLine name =>
      have before : race.phase.remaining? = some [] := by
        rw [phaseEq]
        rfl
      dsimp only at stepped
      split at stepped
      · cases stepped
      · rename_i reopened openedEq
        cases stepped
        exact ⟨.proceed [] [] before rfl rfl (List.append_nil _).symm
          (dbOpen_pendingBin openedEq), rfl, id⟩
      · rename_i reopened compactDb openedEq
        obtain ⟨⟨code, file, compacted⟩, -, same⟩ := Option.map_eq_some_iff.mp stepped
        cases same
        have pendingEq : reopened.pendingBin = race.dir.pendingBin := dbOpen_pendingBin openedEq
        exact ⟨.proceed [] [] before rfl rfl (List.append_nil _).symm pendingEq, rfl, id⟩

theorem executeStep_effect {fuel : Nat} {confirms : Bool} {io : ExecuteIO}
    {race next : QueueRace} (stepped : race.executeStep fuel confirms io = some next) :
    Effect io race next ∧ next.added = race.added ∧ ¬next.phase.BeforeLoad := by
  unfold executeStep at stepped
  split at stepped
  · rename_i now db phaseEq
    cases stepped
    exact scheduleStep_effect phaseEq
  · rename_i name phaseEq
    cases stepped
    exact loadStep_effect phaseEq
  · rename_i name ids phaseEq
    exact confirmStep_effect phaseEq stepped
  · rename_i caller remaining index db successes phaseEq
    cases stepped
    exact deleteStep_effect phaseEq
  · rename_i caller db successes phaseEq
    cases stepped
    exact clearStep_effect phaseEq
  · rename_i caller db successes phaseEq
    exact compactStep_effect phaseEq stepped
  · cases stepped

/-! ### Runs -/

/-- From the load to the truncation every loaded id has been passed on or is
still to be. -/
structure Accounts (race : QueueRace) : Prop where
  fresh : race.phase.BeforeLoad → race.passed = []
  accounted : ∀ remaining, race.phase.remaining? = some remaining →
    race.loaded = race.passed ++ remaining

theorem accounts_start (dir : TableDir) (executor : QueueExecutor) :
    (start dir executor).Accounts := by
  constructor
  · intro _
    rfl
  · intro remaining remainingEq
    cases executor with
    | autoDelete now db => cases remainingEq
    | processDeletes name => cases remainingEq

theorem step_keeps_accounts {fuel : Nat} {confirms : Bool} {io : ExecuteIO}
    {race next : QueueRace} {action : RaceAction} (accounts : race.Accounts)
    (stepped : race.step fuel confirms io action = some next) : next.Accounts := by
  cases action with
  | add id timestamp =>
      cases stepped
      exact ⟨accounts.fresh, accounts.accounted⟩
  | execute =>
      obtain ⟨effect, -, loadedOnce⟩ := executeStep_effect stepped
      constructor
      · intro before
        exact absurd before loadedOnce
      · intro remaining remainingEq
        cases effect with
        | load ids before members nextEq loadedEq passedEq pendingEq =>
            cases Option.some.inj (nextEq.symm.trans remainingEq)
            rw [loadedEq, passedEq, accounts.fresh before, List.nil_append]
        | proceed now later before nextEq loadedEq passedEq pendingEq =>
            cases Option.some.inj (nextEq.symm.trans remainingEq)
            rw [loadedEq, passedEq, accounts.accounted _ before, List.append_assoc]
        | leave nextEq passedEq pendingEq =>
            rw [nextEq] at remainingEq
            cases remainingEq
        | clear caller db successes before nextEq passedEq pendingEq =>
            rw [nextEq] at remainingEq
            cases remainingEq

theorem step_keeps_noneLost {fuel : Nat} {confirms : Bool} {io : ExecuteIO}
    {race next : QueueRace} {action : RaceAction} (accounts : race.Accounts)
    (noneLost : race.NoneLost) (undisturbed : race.Undisturbed io action)
    (stepped : race.step fuel confirms io action = some next) : next.NoneLost := by
  cases action with
  | add id timestamp =>
      cases stepped
      intro other member
      rw [queuedIds_addRequest id timestamp race undisturbed]
      rcases List.mem_append.mp member with earlier | isNew
      · rcases noneLost other earlier with passed | queued
        · exact Or.inl passed
        · exact Or.inr (List.mem_append_left _ queued)
      · exact Or.inr (List.mem_append_right _ isNew)
  | execute =>
      obtain ⟨effect, addedEq, -⟩ := executeStep_effect stepped
      intro id member
      rw [addedEq] at member
      cases effect with
      | load ids before members nextEq loadedEq passedEq pendingEq =>
          rw [passedEq, pendingEq]
          exact noneLost id member
      | proceed now later before nextEq loadedEq passedEq pendingEq =>
          rw [passedEq, pendingEq]
          rcases noneLost id member with passed | queued
          · exact Or.inl (List.mem_append_left _ passed)
          · exact Or.inr queued
      | leave nextEq passedEq pendingEq =>
          rw [passedEq, pendingEq]
          exact noneLost id member
      | clear caller db successes before nextEq passedEq pendingEq =>
          rw [passedEq, pendingEq, queuedIds_clear]
          rcases noneLost id member with passed | queued
          · exact Or.inl passed
          · cases clears : io.clears with
            | false => exact Or.inr queued
            | true =>
                left
                have onlyLoaded : race.ClearsOnlyLoaded io := undisturbed
                have clearing : race.phase.isClearing = true := by
                  rw [before]
                  rfl
                have allPassed := accounts.accounted [] (by rw [before]; rfl)
                rw [List.append_nil] at allPassed
                rw [← allPassed]
                exact onlyLoaded clearing clears id queued

theorem noneLost_throughout (fuel : Nat) (confirms : Bool) (io : ExecuteIO)
    (dir : TableDir) (executor : QueueExecutor) (actions : List RaceAction)
    (undisturbed : GuardedRun.Admits (step fuel confirms io) (Undisturbed io)
      (start dir executor) actions) :
    GuardedRun.Throughout (step fuel confirms io) NoneLost (start dir executor) actions := by
  have stepKeeps : ∀ (race : QueueRace) action next, race.Accounts ∧ race.NoneLost →
      race.Undisturbed io action → race.step fuel confirms io action = some next →
        next.Accounts ∧ next.NoneLost := by
    intro race action next kept admitted stepped
    exact ⟨step_keeps_accounts kept.1 stepped, step_keeps_noneLost kept.1 kept.2 admitted stepped⟩
  have startKeeps : (start dir executor).Accounts ∧ (start dir executor).NoneLost := by
    constructor
    · exact accounts_start dir executor
    · intro id member
      cases member
  exact GuardedRun.throughout_of_step stepKeeps (fun _ kept => kept.2) startKeeps undisturbed

/-! ### The condition is needed -/

/-- The file consists of whole entries, each loaded or added since. -/
structure Covers (race : QueueRace) : Prop where
  accounts : race.Accounts
  whole : WholeEntries race.dir.pendingBin
  covered : ∀ remaining, race.phase.remaining? = some remaining →
    ∀ id ∈ queuedIds race.dir.pendingBin, id ∈ race.loaded ∨ id ∈ race.added

theorem wholeEntries_clear {clears : Bool} {pendingBin : Option (List UInt8)}
    (whole : WholeEntries pendingBin) : WholeEntries (clearPendingDeletes clears pendingBin).2 := by
  cases clears with
  | true => rfl
  | false => exact whole

theorem Effect.whole {io : ExecuteIO} {race next : QueueRace} (effect : Effect io race next)
    (whole : WholeEntries race.dir.pendingBin) : WholeEntries next.dir.pendingBin := by
  cases effect with
  | load ids before members remainingEq loadedEq passedEq pendingEq =>
      rw [pendingEq]
      exact whole
  | proceed now later before remainingEq loadedEq passedEq pendingEq =>
      rw [pendingEq]
      exact whole
  | leave remainingEq passedEq pendingEq =>
      rw [pendingEq]
      exact whole
  | clear caller db successes before remainingEq passedEq pendingEq =>
      rw [pendingEq]
      exact wholeEntries_clear whole

theorem step_keeps_covers {fuel : Nat} {confirms : Bool} {io : ExecuteIO}
    {race next : QueueRace} {action : RaceAction} (covers : race.Covers)
    (stepped : race.step fuel confirms io action = some next) : next.Covers := by
  have accounts := step_keeps_accounts covers.accounts stepped
  cases action with
  | add id timestamp =>
      cases stepped
      refine ⟨accounts, ?_, ?_⟩
      · have before : (race.dir.pendingBin.getD []).length % 16 = 0 := covers.whole
        change (race.dir.pendingBin.getD [] ++ pendingEntry id timestamp).length % 16 = 0
        rw [List.length_append, pendingEntry_length]
        omega
      · intro remaining remainingEq other queued
        rw [queuedIds_addRequest id timestamp race covers.whole] at queued
        rcases List.mem_append.mp queued with earlier | isNew
        · rcases covers.covered remaining remainingEq other earlier with loaded | added
          · exact Or.inl loaded
          · exact Or.inr (List.mem_append_left _ added)
        · exact Or.inr (List.mem_append_right _ isNew)
  | execute =>
      obtain ⟨effect, addedEq, -⟩ := executeStep_effect stepped
      refine ⟨accounts, effect.whole covers.whole, ?_⟩
      intro remaining nextRemaining id queued
      cases effect with
      | load ids before members remainingEq loadedEq passedEq pendingEq =>
          left
          rw [pendingEq] at queued
          rw [loadedEq]
          exact (members id).mpr queued
      | proceed now later before remainingEq loadedEq passedEq pendingEq =>
          rw [pendingEq] at queued
          rw [loadedEq, addedEq]
          exact covers.covered _ before id queued
      | leave remainingEq passedEq pendingEq =>
          rw [remainingEq] at nextRemaining
          cases nextRemaining
      | clear caller db successes before remainingEq passedEq pendingEq =>
          rw [remainingEq] at nextRemaining
          cases nextRemaining

/-- A truncation over an id that came after the load loses that id. -/
theorem clearsOnlyLoaded_of_noneLost {fuel : Nat} {confirms : Bool} {io : ExecuteIO}
    {race : QueueRace} (covers : race.Covers)
    (after : ∀ next, race.executeStep fuel confirms io = some next → next.NoneLost) :
    race.ClearsOnlyLoaded io := by
  intro clearing clears id queued
  obtain ⟨caller, db, successes, phaseEq⟩ := ExecutionPhase.eq_clearing clearing
  have remainingEq : race.phase.remaining? = some [] := by
    rw [phaseEq]
    rfl
  rcases covers.covered [] remainingEq id queued with loaded | added
  · exact loaded
  · have stepped : race.executeStep fuel confirms io =
        some (clearStep io caller db successes race) := by
      unfold executeStep
      rw [phaseEq]
    have kept := after _ stepped
    obtain ⟨-, addedEq, -⟩ := executeStep_effect stepped
    have stillThere := kept id (by rw [addedEq]; exact added)
    have passedEq : (clearStep io caller db successes race).passed = race.passed := by
      cases caller with
      | server => rfl
      | commandLine name => rfl
    have empty : queuedIds (clearStep io caller db successes race).dir.pendingBin = [] := by
      have cleared := queuedIds_clear io.clears race.dir.pendingBin
      rw [clears, if_pos rfl] at cleared
      cases caller with
      | server => simpa only [clearStep, clears] using cleared
      | commandLine name => simpa only [clearStep, clears] using cleared
    rw [passedEq, empty] at stillThere
    rcases stillThere with passed | impossible
    · rw [covers.accounts.accounted [] remainingEq, List.append_nil]
      exact passed
    · cases impossible

theorem undisturbed_of_noneLost {fuel : Nat} {confirms : Bool} {io : ExecuteIO}
    {dir : TableDir} {executor : QueueExecutor} {actions : List RaceAction}
    (whole : WholeEntries dir.pendingBin)
    (noneLost : GuardedRun.Throughout (step fuel confirms io) NoneLost (start dir executor)
      actions) :
    GuardedRun.Admits (step fuel confirms io) (Undisturbed io) (start dir executor) actions := by
  have needed : ∀ (race : QueueRace) action, race.Covers → race.NoneLost →
      (∀ next, race.step fuel confirms io action = some next → next.NoneLost) →
        race.Undisturbed io action := by
    intro race action covers _ after
    cases action with
    | add id timestamp => exact covers.whole
    | execute => exact clearsOnlyLoaded_of_noneLost covers after
  have startCovers : (start dir executor).Covers := by
    refine ⟨accounts_start dir executor, whole, ?_⟩
    intro remaining remainingEq
    cases executor with
    | autoDelete now db => cases remainingEq
    | processDeletes name => cases remainingEq
  exact GuardedRun.admits_of_throughout
    (fun race action next covers _ stepped => step_keeps_covers covers stepped) needed
    startCovers noneLost

/-- In a run of an execution and any number of requests none is lost, as long as
the file is never truncated over an id that came after the load; on a file of
whole entries there is no other way to lose none. -/
theorem no_request_lost_while_executing (fuel : Nat) (confirms : Bool) (io : ExecuteIO)
    (dir : TableDir) (executor : QueueExecutor) (actions : List RaceAction) :
    (GuardedRun.Admits (step fuel confirms io) (Undisturbed io) (start dir executor) actions →
        GuardedRun.Throughout (step fuel confirms io) NoneLost (start dir executor) actions) ∧
      (WholeEntries dir.pendingBin →
        GuardedRun.Throughout (step fuel confirms io) NoneLost (start dir executor) actions →
          GuardedRun.Admits (step fuel confirms io) (Undisturbed io) (start dir executor)
            actions) :=
  ⟨noneLost_throughout fuel confirms io dir executor actions, undisturbed_of_noneLost⟩

/-! ### Without requests the steps are the execution -/

def Executes (fuel : Nat) (confirms : Bool) (io : ExecuteIO) (race final : QueueRace) : Prop :=
  ∃ steps, GuardedRun.run (step fuel confirms io) race (List.replicate steps .execute) =
    some final

theorem Executes.refl (fuel : Nat) (confirms : Bool) (io : ExecuteIO) (race : QueueRace) :
    Executes fuel confirms io race race :=
  ⟨0, rfl⟩

theorem Executes.of_step {fuel : Nat} {confirms : Bool} {io : ExecuteIO}
    {race next final : QueueRace} (stepped : race.executeStep fuel confirms io = some next)
    (later : Executes fuel confirms io next final) : Executes fuel confirms io race final := by
  rcases later with ⟨steps, ran⟩
  refine ⟨steps + 1, ?_⟩
  rw [List.replicate_succ, GuardedRun.run]
  simp only [step, stepped]
  exact ran

theorem Executes.trans {fuel : Nat} {confirms : Bool} {io : ExecuteIO}
    {race middle final : QueueRace} (first : Executes fuel confirms io race middle)
    (second : Executes fuel confirms io middle final) : Executes fuel confirms io race final := by
  rcases first with ⟨steps, ran⟩
  induction steps generalizing race with
  | zero =>
      cases Option.some.inj ran
      exact second
  | succ steps ih =>
      rw [List.replicate_succ, GuardedRun.run] at ran
      cases stepped : step fuel confirms io race .execute with
      | none =>
          rw [stepped] at ran
          cases ran
      | some next =>
          rw [stepped] at ran
          exact Executes.of_step stepped (ih ran)

/-- Where the loop over the loaded ids ends. -/
def afterLoop (io : ExecuteIO) (caller : ExecutionCaller) (ids : List UInt64) (index : Nat)
    (db : FlatDb) (successes : Nat) (race : QueueRace) : QueueRace :=
  let (data, deleted, more) := deleteLoop io.deletes ids index (race.dir.dataDb.getD []) db
  { race with
    dir := { race.dir with dataDb := some data }
    phase := .deleting caller [] (index + ids.length) deleted (successes + more)
    passed := race.passed ++ ids }

theorem executes_afterLoop (fuel : Nat) (confirms : Bool) (io : ExecuteIO) (race : QueueRace)
    {caller : ExecutionCaller} {ids : List UInt64} {index : Nat} {db : FlatDb} {successes : Nat}
    (phaseEq : race.phase = .deleting caller ids index db successes)
    (hasData : ids = [] → ∃ data, race.dir.dataDb = some data) :
    Executes fuel confirms io race (afterLoop io caller ids index db successes race) := by
  induction ids generalizing index db successes race with
  | nil =>
      obtain ⟨data, dataEq⟩ := hasData rfl
      have same : afterLoop io caller [] index db successes race = race := by
        rcases race with ⟨⟨metaBin, dataDb, pendingBin, schedule, ivfIndex⟩, phase, loaded,
          passed, added⟩
        cases dataEq
        cases phaseEq
        simp only [afterLoop, deleteLoop, Option.getD_some, List.length_nil, Nat.add_zero,
          List.append_nil]
      rw [same]
      exact Executes.refl _ _ _ _
  | cons id rest ih =>
      have stepped : race.executeStep fuel confirms io =
          some (deleteStep io caller (id :: rest) index db successes race) := by
        unfold executeStep
        rw [phaseEq]
      apply Executes.of_step stepped
      have looped := ih (deleteStep io caller (id :: rest) index db successes race) rfl
        (fun _ => ⟨_, rfl⟩)
      have same : afterLoop io caller rest (index + 1)
          (dbDelete (io.deletes index) (race.dir.dataDb.getD []) db id).2.2
          (if (dbDelete (io.deletes index) (race.dir.dataDb.getD []) db id).1 = 0 then
            successes + 1 else successes)
          (deleteStep io caller (id :: rest) index db successes race) =
          afterLoop io caller (id :: rest) index db successes race := by
        simp only [afterLoop, deleteStep, deleteLoop, Option.getD_some, List.length_cons,
          List.append_assoc, List.singleton_append]
        split
        · simp only [Nat.add_assoc, Nat.add_comm, Nat.add_left_comm]
        · simp only [Nat.add_comm, Nat.add_left_comm]
      rw [← same]
      exact looped

theorem loadPendingDeletes_ne_nil {pendingBin : Option (List UInt8)} {ids : List UInt64}
    {count : Nat} (loadedEq : loadPendingDeletes pendingBin = (some ids, count)) : ids ≠ [] := by
  cases pendingBin with
  | none => cases loadedEq
  | some file =>
      unfold loadPendingDeletes at loadedEq
      dsimp only at loadedEq
      split at loadedEq
      · cases loadedEq
      · rename_i some_entry
        intro empty
        cases loadedEq
        have lengthEq := (qsort_perm ((List.range (file.length / 16)).map
          fun index => u64At file (16 * index))).length_eq
        rw [empty, List.length_map, List.length_range] at lengthEq
        exact some_entry lengthEq.symm

/-- The server's way from the end of the loop to the end of the execution. -/
theorem executes_after_loop_server (fuel : Nat) (confirms : Bool) (io : ExecuteIO)
    (race : QueueRace) {index : Nat} {db : FlatDb} {successes : Nat}
    (phaseEq : race.phase = .deleting .server [] index db successes) :
    let cleared := (clearPendingDeletes io.clears race.dir.pendingBin).2
    (0 < successes → ∀ code file compacted,
      dbCompact io.compact (race.dir.dataDb.getD []) db = some (code, file, compacted) →
        Executes fuel confirms io race
          { race with
            dir :=
              { race.dir with
                pendingBin := cleared
                autoDeleteSchedule := none
                dataDb := some file }
            phase := .finished successes (some compacted) }) ∧
      (¬0 < successes →
        Executes fuel confirms io race
          { race with
            dir := { race.dir with pendingBin := cleared, autoDeleteSchedule := none }
            phase := .finished successes (some db) }) := by
  have leaves : race.executeStep fuel confirms io =
      some { race with phase := .clearing .server db successes } := by
    unfold executeStep
    rw [phaseEq]
    rfl
  have clears : executeStep fuel confirms io
      { race with phase := .clearing .server db successes } =
        some (clearStep io .server db successes
          { race with phase := .clearing .server db successes }) := rfl
  constructor
  · intro anySuccess code file compacted compactedEq
    apply Executes.of_step leaves
    apply Executes.of_step clears
    rw [clearStep, if_pos anySuccess]
    apply Executes.of_step ?_ (Executes.refl _ _ _ _)
    dsimp only [executeStep, compactStep]
    rw [compactedEq]
    rfl
  · intro noSuccess
    apply Executes.of_step leaves
    apply Executes.of_step clears
    rw [clearStep, if_neg noSuccess]
    exact Executes.refl _ _ _ _

theorem Executes.schedule {fuel : Nat} {confirms : Bool} {io : ExecuteIO} {now : UInt64}
    {dir : TableDir} {db : FlatDb} {next final : QueueRace}
    (scheduled : scheduleStep now db (start dir (.autoDelete now db)) = next)
    (later : Executes fuel confirms io next final) :
    Executes fuel confirms io (start dir (.autoDelete now db)) final := by
  have stepped : (start dir (.autoDelete now db)).executeStep fuel confirms io = some next := by
    rw [← scheduled]
    rfl
  exact Executes.of_step stepped later

theorem executes_server {fuel : Nat} {confirms : Bool} {io : ExecuteIO} {now : UInt64}
    {dir after : TableDir} {db next : FlatDb} {code : Int}
    (called : checkAndRunAutoDelete io now dir db = some (code, after, next)) :
    ∃ final, Executes fuel confirms io (start dir (.autoDelete now db)) final ∧
      final.dir = after ∧ ∃ successes, final.phase = .finished successes (some next) := by
  unfold checkAndRunAutoDelete at called
  dsimp only at called
  split at called
  · rename_i unset
    cases called
    have scheduled : scheduleStep now db (start dir (.autoDelete now db)) =
        { start dir (.autoDelete now db) with phase := .finished 0 (some db) } := by
      exact if_pos unset
    exact ⟨_, Executes.schedule scheduled (Executes.refl _ _ _ _), rfl, 0, rfl⟩
  · rename_i isSet
    split at called
    · rename_i early
      cases called
      have scheduled : scheduleStep now db (start dir (.autoDelete now db)) =
          { start dir (.autoDelete now db) with phase := .finished 0 (some db) } := by
        exact (if_neg isSet).trans (if_pos early)
      exact ⟨_, Executes.schedule scheduled (Executes.refl _ _ _ _), rfl, 0, rfl⟩
    · rename_i due
      split at called
      · rename_i ids count loadedEq
        have scheduled : scheduleStep now db (start dir (.autoDelete now db)) =
            { start dir (.autoDelete now db) with
              phase := .deleting .server ids 0 db 0
              loaded := ids } := by
          apply (if_neg isSet).trans ((if_neg due).trans _)
          dsimp only [start]
          rw [loadedEq]
        have looped := executes_afterLoop fuel confirms io
          { start dir (.autoDelete now db) with
            phase := .deleting .server ids 0 db 0
            loaded := ids } rfl
          (fun empty => absurd empty (loadPendingDeletes_ne_nil loadedEq))
        obtain ⟨compacts, stays⟩ := executes_after_loop_server fuel confirms io
          (afterLoop io .server ids 0 db 0
            { start dir (.autoDelete now db) with
              phase := .deleting .server ids 0 db 0
              loaded := ids }) rfl
        split at called
        · rename_i anySuccess
          obtain ⟨⟨status, file, compacted⟩, compactedEq, same⟩ :=
            Option.map_eq_some_iff.mp called
          cases same
          exact ⟨_, Executes.schedule scheduled (looped.trans
            (compacts (by rwa [Nat.zero_add]) status file _ compactedEq)), rfl, _, rfl⟩
        · rename_i noSuccess
          cases called
          exact ⟨_, Executes.schedule scheduled (looped.trans
            (stays (by rwa [Nat.zero_add]))), rfl, _, rfl⟩
      · rename_i count loadedEq
        cases called
        have scheduled : scheduleStep now db (start dir (.autoDelete now db)) =
            { start dir (.autoDelete now db) with
              dir := { dir with autoDeleteSchedule := none }
              phase := .finished 0 (some db) } := by
          apply (if_neg isSet).trans ((if_neg due).trans _)
          dsimp only [start]
          rw [loadedEq]
        exact ⟨_, Executes.schedule scheduled (Executes.refl _ _ _ _), rfl, 0, rfl⟩

/-- The way of the command line, which compacts before it clears. -/
theorem executes_after_loop_commandLine (fuel : Nat) (confirms : Bool) (io : ExecuteIO)
    (race : QueueRace) {name : CString} {index : Nat} {db : FlatDb} {successes : Nat}
    (phaseEq : race.phase = .deleting (.commandLine name) [] index db successes) :
    let cleared := (clearPendingDeletes io.clears race.dir.pendingBin).2
    (0 < successes → ∀ reopened, dbOpen fuel name race.dir = some (reopened, none) →
      Executes fuel confirms io race
        { race with
          dir := { reopened with pendingBin := cleared }
          phase := .finished successes none }) ∧
      (0 < successes → ∀ reopened compactDb code file compacted,
        dbOpen fuel name race.dir = some (reopened, some compactDb) →
        dbCompact io.compact (race.dir.dataDb.getD []) compactDb = some (code, file, compacted) →
          Executes fuel confirms io race
            { race with
              dir :=
                { reopened with
                  dataDb := some file
                  ivfIndex := if code = 0 then none else reopened.ivfIndex
                  pendingBin := cleared }
              phase := .finished successes none }) ∧
      (¬0 < successes →
        Executes fuel confirms io race
          { race with
            dir := { race.dir with pendingBin := cleared }
            phase := .finished successes none }) := by
  have leaves : race.executeStep fuel confirms io =
      some (deleteStep io (.commandLine name) [] index db successes race) := by
    unfold executeStep
    rw [phaseEq]
  have clears : ∀ dir, dir.pendingBin = race.dir.pendingBin →
      Executes fuel confirms io
        { race with dir := dir, phase := .clearing (.commandLine name) db successes }
        { race with
          dir := { dir with pendingBin := (clearPendingDeletes io.clears race.dir.pendingBin).2 }
          phase := .finished successes none } := by
    intro dir pendingEq
    apply Executes.of_step ?_ (Executes.refl _ _ _ _)
    dsimp only [executeStep, clearStep]
    rw [pendingEq]
  refine ⟨?_, ?_, ?_⟩
  · intro anySuccess reopened reopenedEq
    apply Executes.of_step leaves
    rw [deleteStep, if_pos anySuccess]
    apply Executes.of_step ?_ (clears reopened (dbOpen_pendingBin reopenedEq))
    dsimp only [executeStep, compactStep]
    rw [reopenedEq]
  · intro anySuccess reopened compactDb code file compacted reopenedEq compactedEq
    have pendingEq : reopened.pendingBin = race.dir.pendingBin := dbOpen_pendingBin reopenedEq
    apply Executes.of_step leaves
    rw [deleteStep, if_pos anySuccess]
    apply Executes.of_step ?_ (clears
      { reopened with
        dataDb := some file
        ivfIndex := if code = 0 then none else reopened.ivfIndex } pendingEq)
    dsimp only [executeStep, compactStep]
    rw [reopenedEq]
    dsimp only
    rw [dbOpen_dataDb reopenedEq, Option.getD_some, compactedEq]
    rfl
  · intro noSuccess
    apply Executes.of_step leaves
    rw [deleteStep, if_neg noSuccess]
    exact clears race.dir rfl

theorem executes_commandLine {fuel : Nat} {io : ExecuteIO} {name : CString} {dir after : TableDir}
    (called : processDeletes fuel io name dir = some after) :
    ∃ final, Executes fuel true io (start dir (.processDeletes name)) final ∧
      final.dir = after ∧ ∃ successes, final.phase = .finished successes none := by
  have loads : (start dir (.processDeletes name)).executeStep fuel true io =
      some (loadStep name (start dir (.processDeletes name))) := rfl
  unfold processDeletes at called
  split at called
  · rename_i count loadedEq
    cases called
    have stops : loadStep name (start dir (.processDeletes name)) =
        { start dir (.processDeletes name) with phase := .finished 0 none } := by
      unfold loadStep
      dsimp only [start]
      rw [loadedEq]
    rw [stops] at loads
    exact ⟨_, Executes.of_step loads (Executes.refl _ _ _ _), rfl, 0, rfl⟩
  · rename_i ids count loadedEq
    have asks : loadStep name (start dir (.processDeletes name)) =
        { start dir (.processDeletes name) with phase := .confirming name ids, loaded := ids } := by
      unfold loadStep
      dsimp only [start]
      rw [loadedEq]
    rw [asks] at loads
    split at called
    · cases called
    · rename_i opened openedEq
      cases called
      have givesUp : executeStep fuel true io
          { start dir (.processDeletes name) with phase := .confirming name ids, loaded := ids } =
          some { start after (.processDeletes name) with
            phase := .finished 0 none
            loaded := ids } := by
        dsimp only [executeStep, confirmStep, start]
        rw [openedEq]
        rfl
      exact ⟨_, Executes.of_step loads (Executes.of_step givesUp (Executes.refl _ _ _ _)), rfl, 0,
        rfl⟩
    · rename_i opened tempDb openedEq
      dsimp only at called
      have opens : executeStep fuel true io
          { start dir (.processDeletes name) with phase := .confirming name ids, loaded := ids } =
          some { start opened (.processDeletes name) with
            phase := .deleting (.commandLine name) ids 0 tempDb 0
            loaded := ids } := by
        dsimp only [executeStep, confirmStep, start]
        rw [openedEq]
        rfl
      have looped := executes_afterLoop fuel true io
        { start opened (.processDeletes name) with
          phase := .deleting (.commandLine name) ids 0 tempDb 0
          loaded := ids } rfl
        (fun empty => absurd empty (loadPendingDeletes_ne_nil loadedEq))
      obtain ⟨givesUp, compacts, stays⟩ := executes_after_loop_commandLine fuel true io
        (afterLoop io (.commandLine name) ids 0 tempDb 0
          { start opened (.processDeletes name) with
            phase := .deleting (.commandLine name) ids 0 tempDb 0
            loaded := ids }) rfl
      have upToLoop : ∀ {final}, Executes fuel true io _ final → _ := fun later =>
        Executes.of_step loads (Executes.of_step opens (looped.trans later))
      have pendingOpened : dir.pendingBin = opened.pendingBin :=
        (dbOpen_pendingBin openedEq).symm
      rw [pendingOpened] at called
      split at called
      · rename_i anySuccess
        have successful :
            0 < 0 + (deleteLoop io.deletes ids 0 (opened.dataDb.getD []) tempDb).2.2 := by
          rwa [Nat.zero_add]
        split at called
        · cases called
        · rename_i reopened reopenedEq
          cases called
          exact ⟨_, upToLoop (givesUp successful reopened reopenedEq), rfl, _, rfl⟩
        · rename_i reopened compactDb reopenedEq
          obtain ⟨⟨status, file, compacted⟩, compactedEq, same⟩ :=
            Option.map_eq_some_iff.mp called
          cases same
          exact ⟨_, upToLoop (compacts successful reopened compactDb status file compacted
            reopenedEq compactedEq), rfl, _, rfl⟩
      · rename_i noSuccess
        cases called
        exact ⟨_, upToLoop (stays (by rwa [Nat.zero_add])), rfl, _, rfl⟩

/-- The steps, with no request between them, leave what the executors of the
queue leave. -/
theorem executes_run {fuel : Nat} {io : ExecuteIO} {dir after : TableDir}
    (executor : QueueExecutor) (ran : executor.run fuel io dir = some after) :
    ∃ final, Executes fuel true io (start dir executor) final ∧ final.dir = after ∧
      ∃ successes db, final.phase = .finished successes db := by
  cases executor with
  | autoDelete now db =>
      obtain ⟨⟨code, cleared, next⟩, called, same⟩ := Option.map_eq_some_iff.mp ran
      obtain ⟨final, executes, dirEq, successes, finished⟩ := executes_server called
      exact ⟨final, executes, dirEq.trans same, successes, some next, finished⟩
  | processDeletes name =>
      obtain ⟨final, executes, dirEq, successes, finished⟩ := executes_commandLine ran
      exact ⟨final, executes, dirEq, successes, none, finished⟩

/-! ### A request between the load and the truncation -/

/-- The scheduled execution of a queue with id 7, and a request for id 9 that
comes when `before` steps are done. -/
def lateRequest (before : Nat) : List RaceAction :=
  List.replicate before .execute ++ .add 9 0 :: List.replicate (5 - before) .execute

/-- A request that comes once the file is truncated stays in it. -/
theorem request_after_clearing_is_kept :
    GuardedRun.Throughout (step 1 true .ok) NoneLost
      (start (twinsDir [7]) (.autoDelete 5 twinsTable)) (lateRequest 4) :=
  (no_request_lost_while_executing 1 true .ok (twinsDir [7]) (.autoDelete 5 twinsTable)
    (lateRequest 4)).1 (by decide +kernel)

/-- A final state in which the added id 9 is neither in the file nor passed on. -/
theorem not_noneLost_of_shape {race : QueueRace}
    (shape : (race.phase.remaining?, race.dir.pendingBin, race.passed, race.added) =
      (none, some [], [7], [9])) : race.phase.remaining? = none ∧ ¬race.NoneLost := by
  obtain ⟨remainingEq, shape⟩ := Prod.mk.inj shape
  obtain ⟨pendingEq, shape⟩ := Prod.mk.inj shape
  obtain ⟨passedEq, addedEq⟩ := Prod.mk.inj shape
  refine ⟨remainingEq, ?_⟩
  intro noneLost
  have kept := noneLost 9 (by rw [addedEq]; exact List.mem_singleton_self 9)
  rw [passedEq, pendingEq] at kept
  rcases kept with passed | queued
  · exact absurd passed (by decide)
  · exact absurd queued (by decide +kernel)

/-- A request that comes right after the load is truncated away, on the server
and on the command line. -/
theorem request_after_load_is_lost :
    (∃ final, GuardedRun.run (step 1 true .ok)
        (start (twinsDir [7]) (.autoDelete 5 twinsTable)) (lateRequest 1) = some final ∧
          final.phase.remaining? = none ∧ ¬final.NoneLost) ∧
      ∃ final, GuardedRun.run (step 1 true .ok)
        (start (twinsDir [7]) (.processDeletes moviesName)) (lateRequest 1) = some final ∧
          final.phase.remaining? = none ∧ ¬final.NoneLost := by
  have onServer : (GuardedRun.run (step 1 true .ok)
      (start (twinsDir [7]) (.autoDelete 5 twinsTable)) (lateRequest 1)).map (fun race =>
        (race.phase.remaining?, race.dir.pendingBin, race.passed, race.added)) =
        some (none, some [], [7], [9]) := by
    decide +kernel
  have onCommandLine : (GuardedRun.run (step 1 true .ok)
      (start (twinsDir [7]) (.processDeletes moviesName)) (lateRequest 1)).map (fun race =>
        (race.phase.remaining?, race.dir.pendingBin, race.passed, race.added)) =
        some (none, some [], [7], [9]) := by
    decide +kernel
  obtain ⟨serverFinal, serverRan, serverShape⟩ := Option.map_eq_some_iff.mp onServer
  obtain ⟨lineFinal, lineRan, lineShape⟩ := Option.map_eq_some_iff.mp onCommandLine
  exact ⟨⟨serverFinal, serverRan, not_noneLost_of_shape serverShape⟩,
    lineFinal, lineRan, not_noneLost_of_shape lineShape⟩

end QueueRace

end OriginDb
