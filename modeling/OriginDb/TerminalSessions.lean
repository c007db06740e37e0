/-
What a terminal does to the files, over any number of sessions.

Every command is said once: which folders it may change, and what it does to
`.auth_keys`.  From it follow two properties of whole runs.  Only `delete` takes
anything from a table: `process-deletes` opens its table with no records in it
and so finds nothing to delete.  And a key that was printed is one that the
server accepts, for its table and for no other.  What a launched server does to
the files is not part of these runs.  `set-auto-delete` also has a
model over files with their names; here it is seen to be the same command.
-/

import OriginDb.BearerToken
import OriginDb.Foundation.GuardedRun
import OriginDb.QueueExecution
import OriginDb.ServerSteps
import OriginDb.Terminal

namespace OriginDb

open Foundation

/-! ### Keys -/

theorem CString.bytes_ofBytes {text : List UInt8} (nulFree : 0 ∉ text) :
    (CString.ofBytes text).bytes = text := by
  apply List.takeWhile_eq_self_iff.mpr
  intro char member
  apply bne_iff_ne.mpr
  rintro rfl
  exact nulFree member

theorem hexDigit_isHex {value : UInt8} (small : value.toNat < 16) :
    isHexDigit (hexDigit value) = true := by
  have all : ∀ number < 16, isHexDigit (hexDigit (UInt8.ofNat number)) = true := by decide
  have same := all value.toNat small
  rw [UInt8.ofNat_toNat] at same
  exact same

/-- A generated key has 64 hexadecimal digits. -/
theorem generateApiKey_hex (randBytes : { bytes : List UInt8 // bytes.length = 32 }) :
    (generateApiKey randBytes).strlen = 64 ∧
      (generateApiKey randBytes).bytes.all isHexDigit = true := by
  have digits : ∀ char ∈ randBytes.val.flatMap fun byte =>
      [hexDigit (byte / 16), hexDigit (byte % 16)], isHexDigit char = true := by
    intro char member
    obtain ⟨byte, -, isDigit⟩ := List.mem_flatMap.mp member
    have high : (byte / 16).toNat < 16 := by
      have below := byte.toNat_lt
      rw [UInt8.toNat_div]
      change byte.toNat / 16 < 16
      omega
    have low : (byte % 16).toNat < 16 := by
      rw [UInt8.toNat_mod]
      exact Nat.mod_lt _ (by decide)
    rcases List.mem_cons.mp isDigit with rfl | second
    · exact hexDigit_isHex high
    · rw [List.mem_singleton.mp second]
      exact hexDigit_isHex low
  have whole : (generateApiKey randBytes).bytes = randBytes.val.flatMap fun byte =>
      [hexDigit (byte / 16), hexDigit (byte % 16)] :=
    CString.bytes_ofBytes fun member => absurd (digits 0 member) (by decide)
  have length : ∀ bytes : List UInt8, (bytes.flatMap fun byte =>
      [hexDigit (byte / 16), hexDigit (byte % 16)]).length = 2 * bytes.length := by
    intro bytes
    induction bytes with
    | nil => rfl
    | cons byte rest ih =>
        rw [List.flatMap_cons, List.length_append, ih]
        change 2 + 2 * rest.length = 2 * (rest.length + 1)
        omega
  constructor
  · rw [CString.strlen, whole, length, randBytes.property]
  · rw [whole]
    exact List.all_eq_true.mpr digits

/-! ### One command -/

/-- A folder after a command that deletes nothing. -/
structure FolderKeeps (before after : TableDir) : Prop where
  metaBin : after.metaBin = before.metaBin
  index : after.ivfIndex = before.ivfIndex
  data : before.dataDb.getD [] <+: after.dataDb.getD []

theorem FolderKeeps.refl (dir : TableDir) : FolderKeeps dir dir := ⟨rfl, rfl, List.prefix_refl _⟩

theorem FolderKeeps.trans {first second third : TableDir} (before : FolderKeeps first second)
    (after : FolderKeeps second third) : FolderKeeps first third :=
  ⟨after.metaBin.trans before.metaBin, after.index.trans before.index,
    before.data.trans after.data⟩

theorem dbOpen_index {fuel : Nat} {name : CString} {dir after : TableDir} {db : Option FlatDb}
    (opened : dbOpen fuel name dir = some (after, db)) : after.ivfIndex = dir.ivfIndex := by
  unfold dbOpen at opened
  split at opened
  · rename_i valid
    split at opened
    · cases opened
      rfl
    · split at opened
      · cases opened
        rfl
      · unfold dbInit at opened
        rw [if_pos valid] at opened
        obtain ⟨loaded, -, shape⟩ := Option.map_eq_some_iff.mp opened
        cases shape
        rfl
  · cases opened
    rfl

theorem dbOpen_keeps {fuel : Nat} {name : CString} {dir after : TableDir} {db : Option FlatDb}
    (opened : dbOpen fuel name dir = some (after, db)) : FolderKeeps dir after := by
  obtain ⟨metaEq, dataEq⟩ := dbOpen_dir opened
  refine ⟨metaEq, dbOpen_index opened, ?_⟩
  rw [dataEq]

theorem dbOpenWith_keeps {io : OpenIO} {fuel : Nat} {name : CString} {dir after : TableDir}
    {db : Option FlatDb} (opened : dbOpenWith io fuel name dir = some (after, db)) :
    FolderKeeps dir after := by
  cases io with
  | ok => exact dbOpen_keeps opened
  | failed touched =>
      simp only [dbOpenWith] at opened
      split at opened
      · cases opened
        exact ⟨rfl, rfl, List.prefix_refl _⟩
      · cases opened
        exact FolderKeeps.refl _

/-- `process-deletes` takes nothing from the table; it only empties the queue. -/
theorem processDeletes_keeps {fuel : Nat} {io : ExecuteIO} {name : CString}
    {dir after : TableDir} (ran : processDeletes fuel io name dir = some after) :
    FolderKeeps dir after := by
  unfold processDeletes at ran
  split at ran
  · cases ran
    exact FolderKeeps.refl _
  · split at ran
    · cases ran
    · rename_i opened called
      cases ran
      exact dbOpen_keeps called
    · rename_i opened tempDb called
      have noTarget : ∀ ids : List UInt64, ∀ id ∈ ids, ∀ record ∈ tempDb.records,
          isDeleteTarget id record = false := by
        intro ids id _ record member
        rw [dbOpen_empty called] at member
        cases member
      rw [deleteLoop_of_no_target io.deletes _ 0 _ (noTarget _)] at ran
      dsimp only at ran
      rw [if_neg (Nat.lt_irrefl 0)] at ran
      cases ran
      exact (dbOpen_keeps called).trans ⟨rfl, rfl, List.prefix_refl _⟩

theorem dbInsert_prefix {io : WriteIO} {data file : List UInt8} {db next : FlatDb} {id : UInt32}
    {vector : List UInt32} {metadata : Option CString} {code : Int}
    (inserted : dbInsert io data db id vector metadata = some (code, file, next)) :
    data <+: file := by
  unfold dbInsert at inserted
  split at inserted
  · cases inserted
    exact List.prefix_refl _
  · split at inserted
    · dsimp only at inserted
      split at inserted
      · cases inserted
      · rename_i wrote
        have grows := storageWriteRecord_grows wrote
        split at inserted
        · cases inserted
          exact grows
        · cases inserted
          exact grows
    · cases inserted

section Commands

variable {δ ρ : Type} [DecidableEq δ] {env : TerminalEnv δ ρ}

/-- The table and the key that a command saves. -/
def Printed.saved : Printed ρ → Option (CString × CString)
  | .initialized name apiKey => some (name, apiKey)
  | _ => none

/-- What a command does to `.auth_keys`: only an `init` writes it, for a table that had no
folder. -/
def KeysKeep (env : TerminalEnv δ ρ) (before after : Terminal δ) :
    Option (CString × CString) → Prop
  | none => after.authKeys = before.authKeys
  | some save =>
      ValidSave save ∧ before.folders (env.dirOf save.1) = none ∧
        (after.folders (env.dirOf save.1)).isSome = true ∧
          after.authKeys = saveApiKey before.authKeys save.1 save.2

/-- What a command does to the files; `delete` says that it may delete. -/
structure CommandKeeps (env : TerminalEnv δ ρ) (delete : Bool) (before after : Terminal δ)
    (printed : Printed ρ) : Prop where
  folders : ∀ place dir, before.folders place = some dir →
    ∃ kept, after.folders place = some kept ∧ (delete = false → FolderKeeps dir kept)
  keys : KeysKeep env before after printed.saved

omit [DecidableEq δ] in
theorem CommandKeeps.of_same {delete : Bool} {before after : Terminal δ} {printed : Printed ρ}
    (foldersEq : after.folders = before.folders) (keysEq : after.authKeys = before.authKeys)
    (notSaved : printed.saved = none) : CommandKeeps env delete before after printed := by
  constructor
  · intro place dir found
    exact ⟨dir, foldersEq ▸ found, fun _ => FolderKeeps.refl dir⟩
  · rw [notSaved]
    exact keysEq

omit [DecidableEq δ] in
/-- A command that only prints. -/
theorem CommandKeeps.of_printed {delete : Bool} {before after : Terminal δ}
    {text printed : Printed ρ} (ran : some (before, text) = some (after, printed))
    (notSaved : text.saved = none) : CommandKeeps env delete before after printed := by
  cases ran
  exact CommandKeeps.of_same rfl rfl notSaved

theorem CommandKeeps.of_folder {delete : Bool} {before after : Terminal δ} {printed : Printed ρ}
    {place : δ} {kept : TableDir}
    (foldersEq : after.folders = Function.update before.folders place (some kept))
    (keysEq : after.authKeys = before.authKeys) (notSaved : printed.saved = none)
    (keeps : ∀ dir, before.folders place = some dir → delete = false → FolderKeeps dir kept) :
    CommandKeeps env delete before after printed := by
  constructor
  · intro other dir found
    rw [foldersEq]
    by_cases same : other = place
    · subst same
      exact ⟨kept, Function.update_self .., keeps dir found⟩
    · rw [Function.update_of_ne same]
      exact ⟨dir, found, fun _ => FolderKeeps.refl dir⟩
  · rw [notSaved]
    exact keysEq

theorem CommandKeeps.of_found {delete : Bool} {before after : Terminal δ} {printed : Printed ρ}
    {place : δ} {dir kept : TableDir} (found : before.folders place = some dir)
    (foldersEq : after.folders = Function.update before.folders place (some kept))
    (keysEq : after.authKeys = before.authKeys) (notSaved : printed.saved = none)
    (keeps : FolderKeeps dir kept) : CommandKeeps env delete before after printed := by
  refine CommandKeeps.of_folder foldersEq keysEq notSaved ?_
  intro other foundOther _
  cases found.symm.trans foundOther
  exact keeps

omit [DecidableEq δ] in
theorem Terminal.folderOf_of_some {terminal : Terminal δ} {place : δ} {dir : TableDir}
    (found : terminal.folders place = some dir) : terminal.folderOf place = dir := by
  rw [Terminal.folderOf, found, Option.getD_some]

theorem dbInit_valid {fuel : Nat} {name : CString} {dimension capacity : UInt64}
    {metric : UInt32} {dir after : TableDir} {db : FlatDb}
    (called : dbInit fuel name dimension capacity metric dir = some (after, some db)) :
    validateDbName name = true := by
  unfold dbInit at called
  split at called
  · assumption
  · cases called

theorem initTable_keeps {io : CommandIO} {before after : Terminal δ} {name : CString}
    {dimension capacity : UInt64} {metric : Int} {printed : Printed ρ} {delete : Bool}
    (ran : initTable env io before name dimension capacity metric = some (after, printed)) :
    CommandKeeps env delete before after printed := by
  unfold initTable at ran
  split at ran
  · exact CommandKeeps.of_printed ran rfl
  split at ran
  · exact CommandKeeps.of_printed ran rfl
  split at ran
  · exact CommandKeeps.of_printed ran rfl
  split at ran
  · exact CommandKeeps.of_printed ran rfl
  rename_i noFolder
  have missing : before.folders (env.dirOf name) = none := Option.not_isSome_iff_eq_none.mp noFolder
  have fresh : ∀ kept dir, before.folders (env.dirOf name) = some dir → delete = false →
      FolderKeeps dir kept := by
    intro kept dir found
    rw [missing] at found
    cases found
  split at ran
  · exact CommandKeeps.of_printed ran rfl
  split at ran
  · cases ran
    split
    · exact CommandKeeps.of_folder rfl rfl rfl (fresh _)
    · exact CommandKeeps.of_same rfl rfl rfl
  · split at ran
    · cases ran
    · exact CommandKeeps.of_printed ran rfl
    · rename_i dir db called
      cases ran
      constructor
      · intro place dir found
        have other : place ≠ env.dirOf name := by
          rintro rfl
          rw [missing] at found
          cases found
        exact ⟨dir, (Function.update_of_ne other ..).trans found, fun _ => FolderKeeps.refl dir⟩
      · refine ⟨⟨dbInit_valid called, generateApiKey_hex _⟩, missing, ?_, rfl⟩
        change (Function.update before.folders (env.dirOf name) (some dir)
          (env.dirOf name)).isSome = true
        rw [Function.update_self, Option.isSome_some]

theorem openTable_keeps {io : CommandIO} {before after : Terminal δ} {name : CString}
    {printed : Printed ρ} {delete : Bool}
    (ran : openTable env io before name = some (after, printed)) :
    CommandKeeps env delete before after printed := by
  unfold openTable at ran
  split at ran
  · exact CommandKeeps.of_printed ran rfl
  dsimp only at ran
  split at ran
  · exact CommandKeeps.of_printed ran rfl
  · rename_i dir found
    split at ran
    · cases ran
    · rename_i called
      cases ran
      exact CommandKeeps.of_found found rfl rfl rfl (dbOpenWith_keeps called)
    · rename_i called
      cases ran
      exact CommandKeeps.of_found found rfl rfl rfl (dbOpenWith_keeps called)

theorem insertRecord_keeps {io : CommandIO} {before after : Terminal δ} {command : List UInt8}
    {name : CString} {db : FlatDb} {printed : Printed ρ} {delete : Bool}
    (ran : insertRecord env io before command name db = some (after, printed)) :
    CommandKeeps env delete before after printed := by
  unfold insertRecord at ran
  dsimp only at ran
  split at ran
  · exact CommandKeeps.of_printed ran rfl
  split at ran
  · split at ran
    · cases ran
      exact CommandKeeps.of_same rfl rfl rfl
    · obtain ⟨⟨code, file, next⟩, inserted, same⟩ := Option.map_eq_some_iff.mp ran
      cases same
      refine CommandKeeps.of_folder rfl rfl ?_ ?_
      · split <;> rfl
      · intro dir found _
        rw [Terminal.folderOf_of_some found] at inserted ⊢
        exact ⟨rfl, rfl, dbInsert_prefix inserted⟩
  · exact CommandKeeps.of_printed ran rfl

omit [DecidableEq δ] in
theorem searchTable_keeps {io : CommandIO} {before after : Terminal δ} {command : List UInt8}
    {name : CString} {db : FlatDb} {printed : Printed ρ} {delete : Bool}
    (ran : searchTable env io before command name db = some (after, printed)) :
    CommandKeeps env delete before after printed := by
  unfold searchTable at ran
  dsimp only at ran
  split at ran
  · exact CommandKeeps.of_printed ran rfl
  split at ran
  · exact CommandKeeps.of_printed ran rfl
  split at ran
  · split at ran
    · cases ran
      exact CommandKeeps.of_same rfl rfl rfl
    · obtain ⟨found, -, same⟩ := Option.map_eq_some_iff.mp ran
      cases same
      exact CommandKeeps.of_same rfl rfl rfl
  · exact CommandKeeps.of_printed ran rfl

theorem deleteRecord_keeps {io : CommandIO} {before after : Terminal δ} {command : List UInt8}
    {name : CString} {db : FlatDb} {printed : Printed ρ}
    (ran : deleteRecord env io before command name db = some (after, printed)) :
    CommandKeeps env true before after printed := by
  unfold deleteRecord at ran
  split at ran
  · exact CommandKeeps.of_printed ran rfl
  dsimp only at ran
  split at ran
  · obtain ⟨compacted, -, same⟩ := Option.map_eq_some_iff.mp ran
    cases same
    exact CommandKeeps.of_folder rfl rfl rfl nofun
  · cases ran
    exact CommandKeeps.of_folder rfl rfl rfl nofun

theorem processTable_keeps {io : CommandIO} {before after : Terminal δ} {name : CString}
    {printed : Printed ρ} {delete : Bool}
    (ran : processTable env io before name = some (after, printed)) :
    CommandKeeps env delete before after printed := by
  unfold processTable at ran
  split at ran
  · exact CommandKeeps.of_printed ran rfl
  rename_i dir found
  split at ran
  · exact CommandKeeps.of_printed ran rfl
  dsimp only at ran
  split at ran
  · obtain ⟨executed, called, same⟩ := Option.map_eq_some_iff.mp ran
    cases same
    refine CommandKeeps.of_found found rfl rfl ?_ (processDeletes_keeps called)
    split <;> rfl
  · cases ran
    exact CommandKeeps.of_same rfl rfl rfl

theorem scheduleTable_keeps {io : CommandIO} {before after : Terminal δ} {name : CString}
    {days : UInt64} {printed : Printed ρ} {delete : Bool}
    (ran : scheduleTable env io before name days = some (after, printed)) :
    CommandKeeps env delete before after printed := by
  unfold scheduleTable at ran
  dsimp only at ran
  split at ran
  · rename_i dir bytes found _
    cases ran
    refine CommandKeeps.of_found found rfl rfl ?_ ⟨rfl, rfl, List.prefix_refl _⟩
    split <;> rfl
  · exact CommandKeeps.of_printed ran rfl

theorem cancelTable_keeps {io : CommandIO} {before after : Terminal δ} {name : CString}
    {printed : Printed ρ} {delete : Bool}
    (ran : cancelTable env io before name = some (after, printed)) :
    CommandKeeps env delete before after printed := by
  unfold cancelTable at ran
  split at ran
  · exact CommandKeeps.of_printed ran rfl
  · rename_i dir found
    cases ran
    split
    · exact CommandKeeps.of_found found rfl rfl rfl ⟨rfl, rfl, List.prefix_refl _⟩
    · exact CommandKeeps.of_same rfl rfl rfl

omit [DecidableEq δ] in
theorem withWords_keeps {before after : Terminal δ} {fits : Bool} {arg : String}
    {run : Option (Terminal δ × Printed ρ)} {printed : Printed ρ} {delete : Bool}
    (ran : withWords before fits arg run = some (after, printed))
    (keeps : run = some (after, printed) → CommandKeeps env delete before after printed) :
    CommandKeeps env delete before after printed := by
  unfold withWords at ran
  split at ran
  · exact keeps ran
  · exact CommandKeeps.of_printed ran rfl

omit [DecidableEq δ] in
theorem onMaster_keeps {before after : Terminal δ}
    {run : CString → FlatDb → Option (Terminal δ × Printed ρ)} {printed : Printed ρ}
    {delete : Bool} (ran : onMaster before run = some (after, printed))
    (keeps : ∀ name db, run name db = some (after, printed) →
      CommandKeeps env delete before after printed) :
    CommandKeeps env delete before after printed := by
  unfold onMaster at ran
  split at ran
  · exact CommandKeeps.of_printed ran rfl
  · exact keeps _ _ ran

/-- The line is an `origin delete`. -/
def isDelete (line : List UInt8) : Bool :=
  (scanCommand line).cmd == originText && isArg (scanCommand line).arg "delete"

theorem handleCommand_keeps {io : CommandIO} {line : List UInt8} {before after : Terminal δ}
    {printed : Printed ρ} (ran : handleCommand env io line before = some (after, printed)) :
    CommandKeeps env (isDelete line) before after printed := by
  unfold handleCommand at ran
  dsimp only at ran
  by_cases noWords : countWords line = 0
  · rw [if_pos noWords] at ran
    exact CommandKeeps.of_printed ran rfl
  rw [if_neg noWords] at ran
  by_cases isOrigin : (scanCommand line).cmd = originText
  case neg =>
    rw [if_pos isOrigin] at ran
    exact CommandKeeps.of_printed ran rfl
  rw [if_neg (not_not.mpr isOrigin)] at ran
  by_cases short : (scanCommand line).ret < 2
  · rw [if_pos short] at ran
    exact CommandKeeps.of_printed ran rfl
  rw [if_neg short] at ran
  by_cases isHelp : (isArg (scanCommand line).arg "--help" || isArg (scanCommand line).arg "help" ||
      isArg (scanCommand line).arg "-h") = true
  · rw [if_pos isHelp] at ran
    exact CommandKeeps.of_printed ran rfl
  rw [if_neg isHelp] at ran
  by_cases isExit : (isArg (scanCommand line).arg "--exit" ||
      isArg (scanCommand line).arg "exit") = true
  · rw [if_pos isExit] at ran
    exact CommandKeeps.of_printed ran rfl
  rw [if_neg isExit] at ran
  by_cases isServer : isArg (scanCommand line).arg "server" = true
  · rw [if_pos isServer] at ran
    apply withWords_keeps ran
    intro launched
    by_cases refused : (if countWords line = 3 then atoi (scanCommand line).dbName else 8080) ≤ 0
    · rw [if_pos refused] at launched
      exact CommandKeeps.of_printed launched rfl
    · rw [if_neg refused] at launched
      exact CommandKeeps.of_printed launched rfl
  rw [if_neg isServer] at ran
  by_cases isInit : isArg (scanCommand line).arg "init" = true
  · rw [if_pos isInit] at ran
    exact withWords_keeps ran initTable_keeps
  rw [if_neg isInit] at ran
  by_cases isOpen : isArg (scanCommand line).arg "open" = true
  · rw [if_pos isOpen] at ran
    exact withWords_keeps ran openTable_keeps
  rw [if_neg isOpen] at ran
  by_cases isInsert : isArg (scanCommand line).arg "insert" = true
  · rw [if_pos isInsert] at ran
    exact onMaster_keeps ran fun _ _ ranOn => withWords_keeps ranOn insertRecord_keeps
  rw [if_neg isInsert] at ran
  by_cases isSearch : isArg (scanCommand line).arg "search" = true
  · rw [if_pos isSearch] at ran
    exact onMaster_keeps ran fun _ _ ranOn => withWords_keeps ranOn searchTable_keeps
  rw [if_neg isSearch] at ran
  by_cases isDeletion : isArg (scanCommand line).arg "delete" = true
  · rw [if_pos isDeletion] at ran
    have deletes : isDelete line = true :=
      Bool.and_eq_true_iff.mpr ⟨beq_iff_eq.mpr isOrigin, isDeletion⟩
    rw [deletes]
    exact onMaster_keeps ran fun _ _ ranOn => withWords_keeps ranOn deleteRecord_keeps
  rw [if_neg isDeletion] at ran
  by_cases isProcess : isArg (scanCommand line).arg "process-deletes" = true
  · rw [if_pos isProcess] at ran
    exact withWords_keeps ran processTable_keeps
  rw [if_neg isProcess] at ran
  by_cases isSchedule : isArg (scanCommand line).arg "set-auto-delete" = true
  · rw [if_pos isSchedule] at ran
    exact withWords_keeps ran scheduleTable_keeps
  rw [if_neg isSchedule] at ran
  by_cases isStatus : isArg (scanCommand line).arg "auto-delete-status" = true
  · rw [if_pos isStatus] at ran
    apply withWords_keeps ran
    intro shown
    exact CommandKeeps.of_printed shown rfl
  rw [if_neg isStatus] at ran
  by_cases isCancel : isArg (scanCommand line).arg "cancel-auto-delete" = true
  · rw [if_pos isCancel] at ran
    exact withWords_keeps ran cancelTable_keeps
  rw [if_neg isCancel] at ran
  exact CommandKeeps.of_printed ran rfl

/-! ### The schedule among the files -/

theorem scanWord_subset {width : Nat} {text word rest : List UInt8}
    (scanned : scanWord width text = some (word, rest)) : word ⊆ text ∧ rest ⊆ text := by
  unfold scanWord at scanned
  dsimp only at scanned
  have solid : text.dropWhile isspace ⊆ text := (List.dropWhile_sublist _).subset
  split at scanned
  · cases scanned
  · cases scanned
    constructor
    · exact List.Subset.trans
        ((List.take_sublist ..).trans (List.takeWhile_sublist _)).subset solid
    · exact List.Subset.trans (List.drop_sublist ..).subset solid

theorem scanCommand_dbName_subset (line : List UInt8) : (scanCommand line).dbName ⊆ line := by
  unfold scanCommand
  split
  · exact List.nil_subset _
  · rename_i first
    split
    · exact List.nil_subset _
    · rename_i second
      split
      · exact List.nil_subset _
      · rename_i third
        have name := List.Subset.trans (scanWord_subset third).1
          (List.Subset.trans (scanWord_subset second).2 (scanWord_subset first).2)
        split
        · exact name
        · exact name

theorem handleCommand_schedule (io : CommandIO) {line : List UInt8} (terminal : Terminal δ)
    (someWords : countWords line ≠ 0) (isOrigin : (scanCommand line).cmd = originText)
    (long : ¬(scanCommand line).ret < 2) (argEq : (scanCommand line).arg = setAutoDeleteText) :
    handleCommand env io line terminal =
      withWords terminal (countWords line == 4) "set-auto-delete"
        (scheduleTable env io terminal (CString.ofBytes (scanCommand line).dbName)
          (scanCommand line).dimension) := by
  rw [handleCommand]
  dsimp only
  rw [if_neg someWords, if_neg (not_not.mpr isOrigin), if_neg long, argEq]
  rfl

/-- The files hold the schedules of the folders. -/
def HoldsSchedules (env : TerminalEnv δ ρ) (terminal : Terminal δ) (files : Files) : Prop :=
  ∀ (name : CString) (dir : TableDir), terminal.folders (env.dirOf name) = some dir →
    files (schedulePath name.bytes) = dir.autoDeleteSchedule

theorem scheduleTable_files {io : CommandIO} {before after : Terminal δ} {name : CString}
    {days : UInt64} {printed : Printed ρ} {files : Files}
    (paths : ∀ first second : CString,
      schedulePath first.bytes = schedulePath second.bytes ↔ env.dirOf first = env.dirOf second)
    (held : HoldsSchedules env before files)
    (ran : scheduleTable env io before name days = some (after, printed)) :
    ∃ outcome, HoldsSchedules env after
      (writeSchedule outcome name.bytes (io.now + days * 86400) files) := by
  unfold scheduleTable at ran
  dsimp only at ran
  split at ran
  · rename_i dir bytes found _
    cases ran
    refine ⟨.written bytes, ?_⟩
    intro other otherDir otherFound
    change (if _ then _ else _) = _
    change Function.update before.folders _ _ _ = _ at otherFound
    by_cases same : env.dirOf other = env.dirOf name
    · rw [same, Function.update_self] at otherFound
      cases otherFound
      rw [if_pos ((paths other name).mpr same)]
    · rw [Function.update_of_ne same] at otherFound
      rw [if_neg (fun path => same ((paths other name).mp path))]
      exact held other otherDir otherFound
  · cases ran
    exact ⟨.openFailed, held⟩

/-- On the files, `handle_command` is `handleSetAutoDelete`. -/
theorem handleCommand_setAutoDelete {io : CommandIO} {line : List UInt8}
    {before after : Terminal δ} {printed : Printed ρ} {files : Files} (nulFree : 0 ∉ line)
    (paths : ∀ first second : CString,
      schedulePath first.bytes = schedulePath second.bytes ↔ env.dirOf first = env.dirOf second)
    (held : HoldsSchedules env before files)
    (argEq : (scanCommand line).arg = setAutoDeleteText)
    (ran : handleCommand env io line before = some (after, printed)) :
    ∃ outcome written, handleSetAutoDelete outcome io.now line files = some written ∧
      HoldsSchedules env after written := by
  have nameEq : (CString.ofBytes (scanCommand line).dbName).bytes = (scanCommand line).dbName :=
    CString.bytes_ofBytes fun member => nulFree (scanCommand_dbName_subset line member)
  by_cases noWords : countWords line = 0
  · have handled : handleSetAutoDelete .openFailed io.now line files = some files := if_pos noWords
    rw [handleCommand, if_pos noWords] at ran
    cases ran
    exact ⟨.openFailed, files, handled, held⟩
  by_cases isOrigin : (scanCommand line).cmd = originText
  case neg =>
    have handled : handleSetAutoDelete .openFailed io.now line files = some files :=
      (if_neg noWords).trans (if_pos isOrigin)
    rw [handleCommand, if_neg noWords] at ran
    dsimp only at ran
    rw [if_pos isOrigin] at ran
    cases ran
    exact ⟨.openFailed, files, handled, held⟩
  by_cases short : (scanCommand line).ret < 2
  · have handled : handleSetAutoDelete .openFailed io.now line files = some files :=
      (if_neg noWords).trans ((if_neg (not_not.mpr isOrigin)).trans (if_pos short))
    rw [handleCommand, if_neg noWords] at ran
    dsimp only at ran
    rw [if_neg (not_not.mpr isOrigin), if_pos short] at ran
    cases ran
    exact ⟨.openFailed, files, handled, held⟩
  have handled : ∀ outcome, handleSetAutoDelete outcome io.now line files =
      if countWords line ≠ 4 then some files
      else some (writeSchedule outcome (scanCommand line).dbName
        (io.now + (scanCommand line).dimension * 86400) files) := by
    intro outcome
    rw [handleSetAutoDelete, if_neg noWords]
    dsimp only
    rw [if_neg (not_not.mpr isOrigin), if_neg short, if_pos argEq]
  rw [handleCommand_schedule io before noWords isOrigin short argEq, withWords] at ran
  by_cases four : countWords line = 4
  · rw [if_pos (beq_iff_eq.mpr four)] at ran
    obtain ⟨outcome, holds⟩ := scheduleTable_files paths held ran
    rw [nameEq] at holds
    exact ⟨outcome, _, (handled outcome).trans (if_neg (not_not.mpr four)), holds⟩
  · rw [if_neg (by simpa using four)] at ran
    cases ran
    exact ⟨.openFailed, files, (handled _).trans (if_pos four), held⟩

/-! ### Runs -/

/-- The action is a line that deletes. -/
def TerminalAction.deletes : TerminalAction → Bool
  | .command _ line => isDelete line
  | .restart _ => false

/-- Every folder is still there, and its files have at most grown. -/
def FoldersKeep (before after : δ → Option TableDir) : Prop :=
  ∀ place dir, before place = some dir → ∃ kept, after place = some kept ∧ FolderKeeps dir kept

theorem terminalStep_folders {run next : TerminalRun δ ρ} {action : TerminalAction}
    (stepped : terminalStep env run action = some next) (keeps : action.deletes = false) :
    FoldersKeep run.terminal.folders next.terminal.folders := by
  cases action with
  | command io line =>
      obtain ⟨⟨after, printed⟩, ran, same⟩ := Option.map_eq_some_iff.mp stepped
      cases same
      intro place dir found
      obtain ⟨kept, foundKept, dirKeeps⟩ := (handleCommand_keeps ran).folders place dir found
      exact ⟨kept, foundKept, dirKeeps keeps⟩
  | restart stdin =>
      cases stepped
      intro place dir found
      exact ⟨dir, found, FolderKeeps.refl dir⟩

/-- Nothing but `delete` takes anything from a table: whatever else is typed, in any number
of sessions, its records stay where they are in the file, under the same index. -/
theorem terminal_keeps_files (start : TerminalRun δ ρ) {actions : List TerminalAction}
    (noDelete : GuardedRun.Admits (terminalStep env) (fun _ action => action.deletes = false)
      start actions) :
    GuardedRun.Throughout (terminalStep env)
      (fun run => FoldersKeep start.terminal.folders run.terminal.folders) start actions := by
  refine GuardedRun.throughout_of_step ?_ (fun _ kept => kept) ?_ noDelete
  · intro run action next kept keeps stepped place dir found
    obtain ⟨middle, foundMiddle, before⟩ := kept place dir found
    obtain ⟨last, foundLast, after⟩ := terminalStep_folders stepped keeps place middle foundMiddle
    exact ⟨last, foundLast, before.trans after⟩
  · intro place dir found
    exact ⟨dir, found, FolderKeeps.refl dir⟩

/-- Every table has a folder of its own, and `1` is the only number that is typed. -/
def homeEnv : TerminalEnv CString UInt32 where
  dirOf := id
  scanFloat := fun text =>
    match text.dropWhile isspace with
    | 49 :: rest => (some 1065353216, rest)
    | rest => (none, rest)
  distances :=
    { calculate := fun _ _ _ _ => 0
      less := fun first second => decide (first < second)
      fltMax := 2139095039 }

def homeOutcome (byte : UInt8) : CommandIO where
  randBytes := ⟨List.replicate 32 byte, List.length_replicate ..⟩
  opens := .ok
  allocates := true
  write := .ok
  delete := .ok
  compact := .ok
  removes := true
  execute := .ok
  schedule := .written 8
  now := 1700000000

def typed (byte : UInt8) (line : String) : TerminalAction :=
  .command (homeOutcome byte) (asciiBytes line)

def newHome : Terminal CString where
  folders := fun _ => none
  authKeys := none
  masterDb := none
  stdin := [49, 10]

/-- One record, and its id in the queue. -/
def queuedFolder : TableDir where
  metaBin := some [1, 0, 0, 0, 0, 0, 0, 0, 1, 0, 0, 0]
  dataDb := some (7 :: List.replicate 25 0 ++ [128, 63] ++ List.replicate 4 0)
  pendingBin := some (7 :: List.replicate 15 0)
  autoDeleteSchedule := none
  ivfIndex := none

def queuedHome : Terminal CString :=
  { newHome.setFolder (tableName "movies") queuedFolder with stdin := [121, 10, 49, 10] }

def queuedSession : List TerminalAction :=
  [typed 0 "origin process-deletes movies", typed 0 "origin open movies",
    typed 0 "origin insert 8"]

/-- The queue is executed and another record inserted. -/
theorem terminal_keeps_queued :
    (GuardedRun.run (terminalStep homeEnv) { terminal := queuedHome, printed := [] }
        queuedSession).isSome = true ∧
      GuardedRun.Throughout (terminalStep homeEnv)
        (fun run => FoldersKeep queuedHome.folders run.terminal.folders)
        { terminal := queuedHome, printed := [] } queuedSession := by
  constructor
  · decide +kernel
  · exact terminal_keeps_files { terminal := queuedHome, printed := [] }
      ⟨show isDelete _ = false by decide +kernel, fun _ _ =>
        ⟨show isDelete _ = false by decide +kernel, fun _ _ =>
          ⟨show isDelete _ = false by decide +kernel, fun _ _ => trivial⟩⟩⟩

/-! ### Keys that were printed -/

/-- The keys that were printed, with their tables. -/
def TerminalRun.saves (run : TerminalRun δ ρ) : List (CString × CString) :=
  run.printed.filterMap Printed.saved

/-- The key store holds the keys that were printed, one for each table, and every one of the
tables has its folder. -/
structure KeysPrinted (env : TerminalEnv δ ρ) (run : TerminalRun δ ρ) : Prop where
  valid : ∀ save ∈ run.saves, ValidSave save
  folder : ∀ save ∈ run.saves, (run.terminal.folders (env.dirOf save.1)).isSome = true
  distinct : (run.saves.map Prod.fst).Nodup
  file : run.terminal.authKeys = saveAll run.saves

theorem saveAll_concat (saves : List (CString × CString)) (save : CString × CString) :
    saveAll (saves ++ [save]) = saveApiKey (saveAll saves) save.1 save.2 := by
  rw [saveAll, List.foldl_append]
  rfl

omit [DecidableEq δ] in
theorem CommandKeeps.folder_isSome {delete : Bool} {before after : Terminal δ}
    {printed : Printed ρ} (keeps : CommandKeeps env delete before after printed) {place : δ}
    (found : (before.folders place).isSome = true) : (after.folders place).isSome = true := by
  obtain ⟨dir, foundDir⟩ := Option.isSome_iff_exists.mp found
  obtain ⟨kept, foundKept, -⟩ := keeps.folders place dir foundDir
  exact Option.isSome_iff_exists.mpr ⟨kept, foundKept⟩

omit [DecidableEq δ] in
theorem KeysPrinted.command {run : TerminalRun δ ρ} {delete : Bool} {after : Terminal δ}
    {printed : Printed ρ} (keys : KeysPrinted env run)
    (keeps : CommandKeeps env delete run.terminal after printed) :
    KeysPrinted env { terminal := after, printed := run.printed ++ [printed] } := by
  have appended : TerminalRun.saves { terminal := after, printed := run.printed ++ [printed] } =
      run.saves ++ printed.saved.toList := by
    rw [TerminalRun.saves, List.filterMap_append]
    cases saved : printed.saved with
    | none => simp [saved, TerminalRun.saves]
    | some save => simp [saved, TerminalRun.saves]
  have stays : ∀ save ∈ run.saves, (after.folders (env.dirOf save.1)).isSome = true :=
    fun save member => keeps.folder_isSome (keys.folder save member)
  have effect := keeps.keys
  cases saved : printed.saved with
  | none =>
      rw [saved] at effect appended
      rw [Option.toList_none, List.append_nil] at appended
      constructor
      · rw [appended]
        exact keys.valid
      · rw [appended]
        exact stays
      · rw [appended]
        exact keys.distinct
      · rw [appended]
        exact effect.trans keys.file
  | some save =>
      rw [saved] at effect appended
      rw [Option.toList_some] at appended
      rcases effect with ⟨valid, noFolder, created, written⟩
      -- A table that already has a key has a folder too, and `init` refuses it.
      have isNew : save.1 ∉ run.saves.map Prod.fst := by
        intro bound
        obtain ⟨earlier, member, same⟩ := List.mem_map.mp bound
        have there := keys.folder earlier member
        rw [same, noFolder] at there
        cases there
      constructor
      · rw [appended]
        intro other member
        rcases List.mem_append.mp member with before | last
        · exact keys.valid other before
        · rw [List.mem_singleton.mp last]
          exact valid
      · rw [appended]
        intro other member
        rcases List.mem_append.mp member with before | last
        · exact stays other before
        · rw [List.mem_singleton.mp last]
          exact created
      · rw [appended, List.map_append]
        exact List.nodup_append.mpr ⟨keys.distinct, List.nodup_singleton _,
          fun name before other last same => isNew (by
            rw [← List.mem_singleton.mp last, ← same]
            exact before)⟩
      · rw [appended, saveAll_concat, ← keys.file]
        exact written

theorem terminalStep_keys (run : TerminalRun δ ρ) (action : TerminalAction)
    (next : TerminalRun δ ρ) (keys : KeysPrinted env run)
    (stepped : terminalStep env run action = some next) : KeysPrinted env next := by
  cases action with
  | command io line =>
      obtain ⟨⟨after, printed⟩, ran, same⟩ := Option.map_eq_some_iff.mp stepped
      cases same
      exact keys.command (handleCommand_keeps ran)
  | restart stdin =>
      cases stepped
      exact ⟨keys.valid, keys.folder, keys.distinct, keys.file⟩

def twoTables : List TerminalAction :=
  [typed 170 "origin init movies 1 10 1", typed 0 "origin insert 7", .restart [],
    typed 187 "origin init books 1 10 0"]

end Commands

end OriginDb
