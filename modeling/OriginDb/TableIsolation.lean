/-
A table is closed to whoever does not have its key.

A run in which no request brings the key of a table, to a server that has the table neither
open nor in work, does not depend on what is in the table's directory: with any other contents
there every step goes as it goes with these, every client gets the same answers, and the
contents stay.
-/

import OriginDb.Responses
import OriginDb.TableRegistry

namespace OriginDb

open Foundation

section Isolation

variable {δ ν : Type} (env : ServerEnv δ ν)

/-! ### What a request asks for -/

/-- No request for the directory has a key that the server accepts. -/
def KeyRefused (place : δ) (server : Server δ) : ServerAction → Prop
  | .request headerBuffer httpBody _ =>
      ∀ name, requestedName env headerBuffer httpBody = some name → env.dirOf name = place →
        authenticateRequest server.authCache headerBuffer name = false
  | _ => True

/-- A table whose key is accepted lies elsewhere. -/
theorem KeyRefused.apart {env : ServerEnv δ ν} {place : δ} {server : Server δ}
    {headerBuffer httpBody : CString} {io : OpenIO}
    (refused : KeyRefused env place server (.request headerBuffer httpBody io)) (name : CString)
    (named : requestedName env headerBuffer httpBody = some name)
    (accepted : authenticateRequest server.authCache headerBuffer name = true) :
    env.dirOf name ≠ place := by
  intro same
  have rejected := refused name named same
  rw [accepted] at rejected
  cases rejected

/-- No open table and no handler's request is about the directory. -/
structure Shut (place : δ) (server : Server δ) : Prop where
  tables : ∀ entry ∈ server.registry, env.dirOf entry.name ≠ place
  tasks : ∀ req, Task.appendPending req ∈ server.tasks → env.dirOf req.dbName ≠ place

/-- What the server sends in a step; `memory` tells whether the allocations of an answer, and
those of cJSON, succeed. -/
def answerTo [DecidableEq δ] (texts : NumberTexts) (memory : SectionIO → Bool × Bool)
    (server : Server δ) : ServerAction → Option Answer
  | .request headerBuffer httpBody io =>
      match handelClient env io server headerBuffer httpBody with
      | some (_, .error response) => some (.fixed response)
      | _ => none
  | .task index io =>
      match server.tasks[index]? with
      | none => none
      | some task =>
          taskAnswer env texts server
            { io with
              allocates := (memory io).1
              prints := (memory io).2 } task
  | _ => none

end Isolation

/-! ### Steps beside the directory -/

section Beside

variable {δ ν : Type} [DecidableEq δ] {env : ServerEnv δ ν} {place : δ} {server : Server δ}
  (dir : TableDir)

theorem setDir_disk_of_ne {other : δ} (apart : other ≠ place) :
    (server.setDir place dir).disk other = server.disk other := by
  unfold Server.setDir
  exact Function.update_of_ne apart dir server.disk

@[simp] theorem setDir_openTables : (server.setDir place dir).openTables = server.openTables := rfl

@[simp] theorem setDir_authCache : (server.setDir place dir).authCache = server.authCache := rfl

@[simp] theorem setDir_tasks : (server.setDir place dir).tasks = server.tasks := rfl

@[simp] theorem setDir_removals : (server.setDir place dir).removals = server.removals := rfl

theorem setDir_comm {other : δ} (apart : other ≠ place) (written : TableDir) :
    (server.setDir place dir).setDir other written =
      (server.setDir other written).setDir place dir := by
  unfold Server.setDir
  dsimp only
  rw [Function.update_comm apart.symm]

theorem getOrOpenTable_beside {io : OpenIO} {dbName : CString} (apart : env.dirOf dbName ≠ place) :
    getOrOpenTable env io (server.setDir place dir) dbName =
      (getOrOpenTable env io server dbName).map fun opened =>
        (opened.1.setDir place dir, opened.2) := by
  unfold getOrOpenTable
  rw [setDir_openTables]
  dsimp only
  rw [setDir_disk_of_ne dir apart]
  cases server.openTables.findIdx? (fun table => table.name == dbName) with
  | some slot => rfl
  | none =>
      dsimp only
      by_cases full : maxOpenTables ≤ server.openTables.length
      · rw [if_pos full, if_pos full]
        rfl
      · rw [if_neg full, if_neg full]
        cases dbOpenWith io (((server.disk (env.dirOf dbName)).dataDb.getD []).length + 1) dbName
            (server.disk (env.dirOf dbName)) with
        | none => rfl
        | some opened =>
            obtain ⟨written, db⟩ := opened
            cases db with
            | none =>
                dsimp only
                rw [setDir_comm dir apart]
                rfl
            | some db =>
                dsimp only
                rw [setDir_comm dir apart]
                rfl

/-- The common head of the handlers, beside the directory. -/
theorem checkRequest_beside {req : Type} {headerBuffer : CString} {parsed : Option req}
    {dbName : req → CString} {unauthorized : String}
    {next : Server δ → req → Option (Server δ × Except Response Task)}
    (sameNext : ∀ req, parsed = some req →
      authenticateRequest server.authCache headerBuffer (dbName req) = true →
      next (server.setDir place dir) req = (next server req).map fun handled =>
        (handled.1.setDir place dir, handled.2)) :
    checkRequest (server.setDir place dir) headerBuffer parsed dbName unauthorized next =
      (checkRequest server headerBuffer parsed dbName unauthorized next).map fun handled =>
        (handled.1.setDir place dir, handled.2) := by
  unfold checkRequest
  cases parsed with
  | none => rfl
  | some req =>
      rw [setDir_authCache]
      dsimp only
      by_cases accepted : authenticateRequest server.authCache headerBuffer (dbName req) = true
      · rw [if_pos accepted, if_pos accepted]
        exact sameNext req rfl accepted
      · rw [if_neg accepted, if_neg accepted]
        rfl

theorem onTable_beside {io : OpenIO} {dbName : CString} {notFound : String} {task : Nat → Task}
    (apart : env.dirOf dbName ≠ place) :
    onTable env io (server.setDir place dir) dbName notFound task =
      (onTable env io server dbName notFound task).map fun handled =>
        (handled.1.setDir place dir, handled.2) := by
  unfold onTable
  rw [getOrOpenTable_beside dir apart, Option.map_map, Option.map_map]
  congr 1
  funext opened
  obtain ⟨after, slot⟩ := opened
  cases slot <;> rfl

/-- A request whose key is not for the directory. -/
theorem handelClient_beside {io : OpenIO} {headerBuffer httpBody : CString}
    (refused : KeyRefused env place server (.request headerBuffer httpBody io)) :
    handelClient env io (server.setDir place dir) headerBuffer httpBody =
      (handelClient env io server headerBuffer httpBody).map fun handled =>
        (handled.1.setDir place dir, handled.2) := by
  have apart := refused.apart
  unfold requestedName at apart
  unfold handelClient
  dsimp only at apart ⊢
  cases route : routeOf headerBuffer with
  | search =>
      rw [route] at apart
      apply checkRequest_beside
      intro req parsed accepted
      exact onTable_beside dir (apart req.dbName (by rw [parsed]; rfl) accepted)
  | insert =>
      rw [route] at apart
      apply checkRequest_beside
      intro req parsed accepted
      exact onTable_beside dir (apart req.dbName (by rw [parsed]; rfl) accepted)
  | deleteRequest =>
      apply checkRequest_beside
      intro req parsed accepted
      rfl
  | train =>
      rw [route] at apart
      apply checkRequest_beside
      intro req parsed accepted
      exact onTable_beside dir (apart req.dbName (by rw [parsed]; rfl) accepted)
  | invalid => rfl

/-! ### Sections beside the directory -/

/-- A section on a slot whose table lies elsewhere. -/
theorem onSlot_beside {slot : Nat}
    {critical critical' : OpenTable → δ → TableDir → Option (Server δ)}
    (shut : Shut env place server)
    (same : ∀ table ∈ server.openTables, ∀ other, env.dirOf table.name ≠ place →
      critical' table (env.dirOf table.name) other =
        (critical table (env.dirOf table.name) other).map fun next => next.setDir place dir) :
    onSlot env (server.setDir place dir) slot critical' =
      (onSlot env server slot critical).map fun next => next.setDir place dir := by
  unfold onSlot
  rw [setDir_openTables]
  cases found : server.openTables[slot]? with
  | none => rfl
  | some table =>
      have member := List.mem_of_getElem? found
      have apart : env.dirOf table.name ≠ place :=
        shut.tables table.identity (List.mem_map_of_mem member)
      dsimp only
      rw [setDir_disk_of_ne dir apart]
      exact same table member _ apart

/-- The branches of a section are alike. -/
theorem ite_beside {condition : Prop} [Decidable condition] {yes yes' no no' : Option (Server δ)}
    (sameYes : yes' = yes.map fun next => next.setDir place dir)
    (sameNo : no' = no.map fun next => next.setDir place dir) :
    (if condition then yes' else no') =
      (if condition then yes else no).map fun next => next.setDir place dir := by
  by_cases holds : condition
  · rw [if_pos holds, if_pos holds]
    exact sameYes
  · rw [if_neg holds, if_neg holds]
    exact sameNo

theorem map_beside {α : Type} {outcome : Option α} {after after' : α → Server δ}
    (same : ∀ value, after' value = (after value).setDir place dir) :
    outcome.map after' = (outcome.map after).map fun next => next.setDir place dir := by
  rw [Option.map_map]
  congr 1
  funext value
  exact same value

theorem taskStep_beside {index : Nat} {io : SectionIO} {task : Task}
    (shut : Shut env place server) (inWork : task ∈ server.tasks) :
    taskStep env (server.setDir place dir) index io task =
      (taskStep env server index io task).map fun next => next.setDir place dir := by
  cases task with
  | search slot req =>
      simp only [taskStep]
      apply onSlot_beside dir shut
      intro table _ other _
      apply ite_beside dir
      · rfl
      · exact map_beside dir fun _ => rfl
  | insert slot req =>
      simp only [taskStep]
      apply onSlot_beside dir shut
      intro table _ other apart
      apply map_beside dir
      intro outcome
      obtain ⟨response, file, written⟩ := outcome
      dsimp only
      rw [setDir_comm dir apart]
      rfl
  | appendPending req =>
      have apart := shut.tasks req inWork
      simp only [taskStep]
      rw [setDir_disk_of_ne dir apart]
      apply map_beside dir
      intro outcome
      rw [setDir_comm dir apart]
      rfl
  | markDirty dbName => rfl
  | train slot req =>
      simp only [taskStep]
      apply onSlot_beside dir shut
      intro table _ other _
      apply ite_beside dir
      · rfl
      · exact map_beside dir fun _ => rfl
  | save slot k clusters =>
      simp only [taskStep]
      apply onSlot_beside dir shut
      intro table _ other apart
      apply map_beside dir
      intro outcome
      obtain ⟨status, file⟩ := outcome
      dsimp only
      rw [setDir_comm dir apart]
      rfl
  | done => rfl

/-- A step that brings no key for the directory goes the same way whatever is in it. -/
theorem serverStep_beside (action : ServerAction) (shut : Shut env place server)
    (refused : KeyRefused env place server action) :
    serverStep env (server.setDir place dir) action =
      (serverStep env server action).map fun next => next.setDir place dir := by
  cases action with
  | request headerBuffer httpBody io =>
      simp only [serverStep]
      rw [handelClient_beside dir refused, Option.map_map]
      apply map_beside dir
      intro handled
      obtain ⟨after, outcome⟩ := handled
      cases outcome <;> rfl
  | task index io =>
      simp only [serverStep, setDir_tasks]
      cases found : server.tasks[index]? with
      | none => rfl
      | some task => exact taskStep_beside dir shut (List.mem_of_getElem? found)
  | reloadAuth authKeys => rfl
  | merge slot =>
      simp only [serverStep]
      apply onSlot_beside dir shut
      intro table _ other _
      exact map_beside dir fun _ => rfl
  | refresh slot =>
      simp only [serverStep]
      apply onSlot_beside dir shut
      intro table _ other _
      rfl
  | autoDelete slot io now =>
      simp only [serverStep]
      apply onSlot_beside dir shut
      intro table _ other apart
      apply map_beside dir
      intro outcome
      obtain ⟨compacted, written, next⟩ := outcome
      dsimp only
      rw [setDir_comm dir apart]
      rfl
  | removeIndex slot removed =>
      simp only [serverStep]
      apply ite_beside dir
      · apply onSlot_beside dir shut
        intro table _ other apart
        rw [setDir_comm dir apart]
        rfl
      · rfl

/-! ### Answers beside the directory -/

theorem taskAnswer_beside {texts : NumberTexts} {io : AnswerIO} {task : Task}
    (shut : Shut env place server) :
    taskAnswer env texts (server.setDir place dir) io task =
      taskAnswer env texts server io task := by
  have sameDir : ∀ (slot : Nat) (table : OpenTable), server.openTables[slot]? = some table →
      (server.setDir place dir).disk (env.dirOf table.name) =
        server.disk (env.dirOf table.name) := by
    intro slot table found
    apply setDir_disk_of_ne
    exact shut.tables table.identity (List.mem_map_of_mem (List.mem_of_getElem? found))
  cases task with
  | search slot req =>
      simp only [taskAnswer, setDir_openTables]
      cases found : server.openTables[slot]? with
      | none => rfl
      | some table =>
          dsimp only
          rw [sameDir slot table found]
  | insert slot req =>
      simp only [taskAnswer, setDir_openTables]
      cases found : server.openTables[slot]? with
      | none => rfl
      | some table =>
          dsimp only
          rw [sameDir slot table found]
  | save slot k clusters =>
      simp only [taskAnswer, setDir_openTables]
      cases found : server.openTables[slot]? with
      | none => rfl
      | some table =>
          dsimp only
          rw [sameDir slot table found]
  | train slot req => rfl
  | appendPending req => rfl
  | markDirty dbName => rfl
  | done => rfl

theorem answerTo_beside {texts : NumberTexts} {memory : SectionIO → Bool × Bool}
    (action : ServerAction) (shut : Shut env place server)
    (refused : KeyRefused env place server action) :
    answerTo env texts memory (server.setDir place dir) action =
      answerTo env texts memory server action := by
  cases action with
  | request headerBuffer httpBody io =>
      simp only [answerTo]
      rw [handelClient_beside dir refused]
      cases handelClient env io server headerBuffer httpBody with
      | none => rfl
      | some handled =>
          obtain ⟨after, outcome⟩ := handled
          cases outcome with
          | error response => rfl
          | ok task => rfl
  | task index io =>
      simp only [answerTo, setDir_tasks]
      cases server.tasks[index]? with
      | none => rfl
      | some task => exact taskAnswer_beside dir shut
  | _ => rfl

end Beside

/-! ### The directory stays shut -/

section Shutting

variable {δ ν : Type} {env : ServerEnv δ ν} {place : δ} {server next : Server δ}

theorem Shut.of_steady {before after : Server δ} (shut : Shut env place before)
    (steady : Steady before after) (tasks : after.tasks = before.tasks) :
    Shut env place after := by
  constructor
  · rw [steady.registry]
    exact shut.tables
  · rw [tasks]
    exact shut.tasks

variable [DecidableEq δ]

theorem Opening.shut {dbName : CString} {slot : Option Nat} (shut : Shut env place server)
    (apart : env.dirOf dbName ≠ place) (opening : Opening env server dbName next slot) :
    Shut env place next := by
  cases opening with
  | found slot table atSlot named => exact shut
  | refused => exact shut
  | failed dir metaBin data => exact ⟨shut.tables, shut.tasks⟩
  | opened fuel dir db new room opens =>
      constructor
      · rw [Server.withTable_registry]
        intro entry member
        rcases List.mem_append.mp member with old | isNew
        · exact shut.tables entry old
        · rw [List.mem_singleton.mp isNew]
          exact apart
      · exact shut.tasks

/-- A handler that gets as far as this has the key of its table. -/
theorem handelClient_shut {io : OpenIO} {headerBuffer httpBody : CString}
    {outcome : Except Response Task} (shut : Shut env place server)
    (refused : KeyRefused env place server (.request headerBuffer httpBody io))
    (ran : handelClient env io server headerBuffer httpBody = some (next, outcome)) :
    Shut env place next ∧
      ∀ req, outcome = .ok (.appendPending req) → env.dirOf req.dbName ≠ place := by
  cases handelClient_cases ran with
  | refused response => exact ⟨shut, nofun⟩
  | queued req named accepted =>
      refine ⟨shut, ?_⟩
      intro other same
      cases same
      exact refused.apart req.dbName named accepted
  | notFound name response named accepted opening =>
      exact ⟨opening.shut shut (refused.apart name named accepted), nofun⟩
  | found name slot task named accepted opening isTask =>
      refine ⟨opening.shut shut (refused.apart name named accepted), ?_⟩
      intro other same
      cases same
      cases isTask

theorem serverStep_shut (action : ServerAction) (shut : Shut env place server)
    (refused : KeyRefused env place server action)
    (stepped : serverStep env server action = some next) : Shut env place next := by
  cases action with
  | request headerBuffer httpBody io =>
      obtain ⟨⟨admitted, outcome⟩, ran, rfl⟩ := Option.map_eq_some_iff.mp stepped
      obtain ⟨stays, elsewhere⟩ := handelClient_shut shut refused ran
      cases outcome with
      | error response => exact stays
      | ok task =>
          refine ⟨stays.tables, ?_⟩
          intro req member
          rcases List.mem_append.mp member with old | new
          · exact stays.tasks req old
          · exact elsewhere req (congrArg Except.ok (List.mem_singleton.mp new).symm)
  | task index io =>
      simp only [serverStep] at stepped
      split at stepped
      · cases stepped
      · obtain ⟨steady, -, later, tasks, follows⟩ := taskStep_steady stepped
        refine ⟨?_, ?_⟩
        · rw [steady.registry]
          exact shut.tables
        · rw [tasks]
          intro req member
          rcases List.mem_or_eq_of_mem_set member with old | new
          · exact shut.tasks req old
          · rw [← new] at follows
            cases follows
  | _ =>
      obtain ⟨steady, tasks, -⟩ := workerStep_steady rfl stepped
      exact shut.of_steady steady tasks

end Shutting

/-! ### Whole runs -/

/-- Where no request brings the key of the directory, its contents are neither seen nor
touched: with others in their place the run goes the same way, with the same answers, and
what was there is there at the end. -/
theorem table_isolated {δ ν : Type} [DecidableEq δ] (env : ServerEnv δ ν) (texts : NumberTexts)
    (memory : SectionIO → Bool × Bool) (place : δ) (server : Server δ)
    (actions : List ServerAction) (shut : Shut env place server)
    (noKey : GuardedRun.Admits (serverStep env) (KeyRefused env place) server actions) :
    (∀ dir, GuardedRun.run (serverStep env) (server.setDir place dir) actions =
      (GuardedRun.run (serverStep env) server actions).map fun final => final.setDir place dir) ∧
    (∀ dir, GuardedRun.outputs (serverStep env) (answerTo env texts memory)
        (server.setDir place dir) actions =
      GuardedRun.outputs (serverStep env) (answerTo env texts memory) server actions) ∧
    ∀ final, GuardedRun.run (serverStep env) server actions = some final →
      final.disk place = server.disk place := by
  have stepKeeps : ∀ state action next, Shut env place state → KeyRefused env place state action →
      serverStep env state action = some next → Shut env place next := by
    intro state action next
    exact serverStep_shut action
  have same : ∀ dir, GuardedRun.run (serverStep env) (server.setDir place dir) actions =
      (GuardedRun.run (serverStep env) server actions).map fun final =>
        final.setDir place dir := by
    intro dir
    apply GuardedRun.run_of_alike stepKeeps _ shut noKey
    intro state action
    exact serverStep_beside dir action
  refine ⟨same, ?_, ?_⟩
  · intro dir
    apply GuardedRun.outputs_of_alike stepKeeps _ _ shut noKey
    · intro state action
      exact serverStep_beside dir action
    · intro state action
      exact answerTo_beside dir action
  · intro final ran
    have own := same (server.disk place)
    have unchanged : server.setDir place (server.disk place) = server := by
      unfold Server.setDir
      rw [Function.update_eq_self]
    rw [unchanged, ran] at own
    have finalEq := Option.some.inj own
    rw [finalEq]
    exact Function.update_self ..

def otherKeyHeader : CString :=
  ⟨asciiBytes "POST /insert HTTP/1.1 Authorization: Bearer j", by decide +kernel⟩

/-- An insert with another key than the table's, and a reload of the keys. -/
def otherKeyRun : List ServerAction := [.request otherKeyHeader insertHeader .ok, .reloadAuth none]

theorem table_isolated_other_key :
    (GuardedRun.run (serverStep insertEnv) scheduledServer otherKeyRun).isSome = true ∧
    (∀ dir, GuardedRun.run (serverStep insertEnv) (scheduledServer.setDir moviesName dir)
        otherKeyRun =
      (GuardedRun.run (serverStep insertEnv) scheduledServer otherKeyRun).map fun final =>
        final.setDir moviesName dir) ∧
    (∀ dir, GuardedRun.outputs (serverStep insertEnv)
        (answerTo insertEnv sampleTexts fun _ => (true, true))
        (scheduledServer.setDir moviesName dir) otherKeyRun =
      GuardedRun.outputs (serverStep insertEnv)
        (answerTo insertEnv sampleTexts fun _ => (true, true)) scheduledServer otherKeyRun) ∧
    ∀ final, GuardedRun.run (serverStep insertEnv) scheduledServer otherKeyRun = some final →
      final.disk moviesName = scheduledServer.disk moviesName := by
  constructor
  · decide +kernel
  · apply table_isolated
    · exact ⟨nofun, nofun⟩
    · constructor
      · intro name _ same
        change name = moviesName at same
        rw [same]
        decide +kernel
      · intro next _
        exact ⟨trivial, fun _ _ => trivial⟩

end OriginDb
