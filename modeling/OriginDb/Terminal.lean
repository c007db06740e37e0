/-
The terminal: `handle_command` of `terminal.c`, with `generate_api_key`.

One `sscanf` reads the words of every command; `insert`, `search` and `delete`
read theirs once more.  A session has at most one open table.  What a command
prints is a value here that says which text it is, with what is printed in it.
`origin server` hands over to the server and is not followed.
-/

import OriginDb.AutoDeleteCommand
import OriginDb.FlatSearch
import OriginDb.KeyStore
import OriginDb.Responses

namespace OriginDb

open Foundation

/-! ### Reading -/

/-- What is left behind a number. -/
def behindNumber (text : List UInt8) : List UInt8 :=
  let trimmed := text.dropWhile isspace
  (if trimmed.head? = some 45 ∨ trimmed.head? = some 43 then trimmed.drop 1 else trimmed).dropWhile
    isdigit

/-- `%u`: the low half of what `strtoul` makes of it. -/
def scanU32 (text : List UInt8) : Option UInt32 := (scanU64 text).map UInt64.toUInt32

/-- `%d`: what does not fit a `long` becomes its largest or smallest value, of which the
`int` takes the low half. -/
def scanInt (text : List UInt8) : Option Int :=
  let trimmed := text.dropWhile isspace
  let sign := trimmed.head?
  let digits := (if sign = some 45 ∨ sign = some 43 then trimmed.drop 1 else trimmed).takeWhile
    isdigit
  if digits = [] then none
  else
    let value : Int :=
      if sign = some 45 then max (-(decimalValue digits : Int)) (-2 ^ 63)
      else min (decimalValue digits) (2 ^ 63 - 1)
    some (asInt (value % 2 ^ 64).toNat)

/-- The text behind the three words that every command is read for. -/
def behindName (command : List UInt8) : List UInt8 :=
  match scanWord 19 command with
  | none => []
  | some (_, afterCmd) =>
      match scanWord 19 afterCmd with
      | none => []
      | some (_, afterArg) =>
          match scanWord 199 afterArg with
          | none => []
          | some (_, afterName) => afterName

/-- `initial_capacity` and `metric_int`, 0 where the `sscanf` does not get that far. -/
def scanInitArgs (command : List UInt8) : UInt64 × Int :=
  match scanU64 (behindName command) with
  | none => (0, 0)
  | some _ =>
      let afterDimension := behindNumber (behindName command)
      match scanU64 afterDimension with
      | none => (0, 0)
      | some capacity => (capacity, (scanInt (behindNumber afterDimension)).getD 0)

/-- `%*s %*s`. -/
def behindCommand (command : List UInt8) : List UInt8 :=
  Words.behind isspace (Words.behind isspace command)

/-- The `getchar` loop up to the end of the line. -/
def skipLine (stdin : List UInt8) : List UInt8 := (stdin.dropWhile fun char => char != 10).drop 1

/-- `read_vector`; `scanFloat` is `scanf` with `%f`. -/
def readTerminalVector (scanFloat : List UInt8 → Option UInt32 × List UInt8) :
    Nat → List UInt8 → Option (List UInt32) × List UInt8
  | 0, stdin => (some [], skipLine stdin)
  | n + 1, stdin =>
      match scanFloat stdin with
      | (none, rest) => (none, skipLine rest)
      | (some value, rest) =>
          let (values, left) := readTerminalVector scanFloat n rest
          (values.map fun values => value :: values, left)

/-- `generate_api_key`: each of the 32 bytes as `%02x`. -/
def generateApiKey (randBytes : { bytes : List UInt8 // bytes.length = 32 }) : CString :=
  CString.ofBytes (randBytes.val.flatMap fun byte => [hexDigit (byte / 16), hexDigit (byte % 16)])

/-! ### A session -/

/-- The meaning of paths, the reader of numbers and the floating-point side of a search. -/
structure TerminalEnv (δ ρ : Type) where
  dirOf : CString → δ
  scanFloat : List UInt8 → Option UInt32 × List UInt8
  distances : Distances ρ

/-- The folders under `origin_data`, `.auth_keys`, `master_db` with its name, and the input from
which the commands read numbers and answers. -/
structure Terminal (δ : Type) where
  folders : δ → Option TableDir
  authKeys : Option (List UInt8)
  masterDb : Option (CString × FlatDb)
  stdin : List UInt8

/-- Outcomes of the allocations and file operations of one command, the clock and the random
bytes. -/
structure CommandIO where
  randBytes : { bytes : List UInt8 // bytes.length = 32 }
  opens : OpenIO
  allocates : Bool
  write : WriteIO
  delete : DeleteIO
  compact : CompactIO
  removes : Bool
  execute : ExecuteIO
  schedule : ScheduleIO
  now : UInt64

inductive Printed (ρ : Type) where
  | nothing
  | unknownCommand (cmd : List UInt8)
  | missingCommand
  | help
  | goodbye
  | usage (arg : String)
  | error (text : String)
  | launching (port : Int)
  | initialized (name apiKey : CString)
  | opened (name : CString) (dimension : UInt64)
  | inserted (id : UInt32)
  | results (found : List (SearchResult ρ))
  | deleted (id : UInt64) (compacted : Bool)
  | noPending
  | executed
  | aborted
  | scheduled (days time : UInt64)
  | status (scheduledTime now : UInt64)
  | cancelled

def emptyFolder : TableDir where
  metaBin := none
  dataDb := none
  pendingBin := none
  autoDeleteSchedule := none
  ivfIndex := none

section Commands

variable {δ ρ : Type} [DecidableEq δ] (env : TerminalEnv δ ρ)

def Terminal.setFolder (terminal : Terminal δ) (place : δ) (dir : TableDir) : Terminal δ :=
  { terminal with folders := Function.update terminal.folders place (some dir) }

/-- The folder of a table that is open. -/
def Terminal.folderOf (terminal : Terminal δ) (place : δ) : TableDir :=
  (terminal.folders place).getD emptyFolder

/-- `origin init`, behind the count of its words. -/
def initTable (io : CommandIO) (terminal : Terminal δ) (name : CString)
    (dimension capacity : UInt64) (metric : Int) : Option (Terminal δ × Printed ρ) :=
  if dimension = 0 then some (terminal, .error "dimension must be a positive integer.")
  else if capacity = 0 then some (terminal, .error "capacity must be a positive integer.")
  else if metric ≠ 0 ∧ metric ≠ 1 then
    some (terminal, .error "metric must be 0 (cosine) or 1 (euclidean)")
  else if (terminal.folders (env.dirOf name)).isSome then
    some (terminal, .error "Table already exists. Use 'origin open' instead.")
  else if terminal.masterDb.isSome then
    some (terminal, .error "A database is already open in this session.")
  else
    match io.opens with
    | .failed touched =>
        some
          (if touched && validateDbName name then
            terminal.setFolder (env.dirOf name) { emptyFolder with dataDb := some [] }
          else terminal,
          .error "Failed to initialize table.")
    | .ok =>
        match dbInit 1 name dimension capacity (UInt32.ofNat metric.toNat) emptyFolder with
        | none => none
        | some (_, none) => some (terminal, .error "Failed to initialize table.")
        | some (dir, some db) =>
            let apiKey := generateApiKey io.randBytes
            some
              ({ terminal.setFolder (env.dirOf name) dir with
                masterDb := some (name, db)
                authKeys := saveApiKey terminal.authKeys name apiKey },
              .initialized name apiKey)

/-- `origin open`. -/
def openTable (io : CommandIO) (terminal : Terminal δ) (name : CString) :
    Option (Terminal δ × Printed ρ) :=
  if terminal.masterDb.isSome then
    some (terminal, .error "A database is already open in this session.")
  else
    let missing : Printed ρ := .error "Table does not exist or is corrupted."
    match terminal.folders (env.dirOf name) with
    | none => some (terminal, missing)
    | some dir =>
        match dbOpenWith io.opens ((dir.dataDb.getD []).length + 1) name dir with
        | none => none
        | some (opened, none) => some (terminal.setFolder (env.dirOf name) opened, missing)
        | some (opened, some db) =>
            some
              ({ terminal.setFolder (env.dirOf name) opened with masterDb := some (name, db) },
              .opened name db.dimension)

/-- `origin insert`, for the open table. -/
def insertRecord (io : CommandIO) (terminal : Terminal δ) (command : List UInt8) (name : CString)
    (db : FlatDb) : Option (Terminal δ × Printed ρ) :=
  let text := behindCommand command
  match scanU32 text with
  | none => some (terminal, .error "<id> must be a non-negative integer.")
  | some id =>
      let metadata := (scanWord 255 (behindNumber text)).map fun word => CString.ofBytes word.1
      if io.allocates then
        match readTerminalVector env.scanFloat db.dimension.toNat terminal.stdin with
        | (none, stdin) =>
            some ({ terminal with stdin := stdin }, .error "expected a number for value")
        | (some vector, stdin) =>
            let dir := terminal.folderOf (env.dirOf name)
            (dbInsert io.write (dir.dataDb.getD []) db id vector metadata).map
              fun (code, file, next) =>
                ({ terminal.setFolder (env.dirOf name) { dir with dataDb := some file } with
                  masterDb := some (name, next)
                  stdin := stdin },
                if code = 0 then .inserted id else .error "Insert failed (see message above).")
      else some (terminal, .error "out of memory while allocating the vector buffer.")

/-- `origin search`, in the open table. -/
def searchTable (io : CommandIO) (terminal : Terminal δ) (command : List UInt8) (name : CString)
    (db : FlatDb) : Option (Terminal δ × Printed ρ) :=
  let refused : Printed ρ := .error "<top_k> must be a positive integer."
  match scanU32 (behindCommand command) with
  | none => some (terminal, refused)
  | some topK =>
      if topK = 0 then some (terminal, refused)
      else if io.allocates then
        match readTerminalVector env.scanFloat db.dimension.toNat terminal.stdin with
        | (none, stdin) =>
            some ({ terminal with stdin := stdin }, .error "expected a number for value")
        | (some query, stdin) =>
            let dir := terminal.folderOf (env.dirOf name)
            (flatSearch env.distances (dir.dataDb.getD []) db query topK.toUInt64).map
              fun (_, found) => ({ terminal with stdin := stdin }, .results found)
      else some (terminal, .error "out of memory while allocating search buffers.")

/-- `origin delete`, in the open table: a success is followed by a compaction. -/
def deleteRecord (io : CommandIO) (terminal : Terminal δ) (command : List UInt8) (name : CString)
    (db : FlatDb) : Option (Terminal δ × Printed ρ) :=
  match scanU64 (behindCommand command) with
  | none => some (terminal, .error "<id> must be a valid positive integer.")
  | some id =>
      let dir := terminal.folderOf (env.dirOf name)
      let (code, file, flagged) := dbDelete io.delete (dir.dataDb.getD []) db id
      if code = 0 then
        (dbCompact io.compact file flagged).map fun (compacted, rewritten, next) =>
          ({ terminal.setFolder (env.dirOf name)
              { dir with
                dataDb := some rewritten
                ivfIndex := if compacted = 0 ∧ io.removes = true then none else dir.ivfIndex } with
            masterDb := some (name, next) },
          .deleted id (decide (compacted = 0)))
      else
        some
          ({ terminal.setFolder (env.dirOf name) { dir with dataDb := some file } with
            masterDb := some (name, flagged) },
          .error "not found, already deleted, or disk write failed.")

/-- `origin process-deletes`; the question is answered from the input. -/
def processTable (io : CommandIO) (terminal : Terminal δ) (name : CString) :
    Option (Terminal δ × Printed ρ) :=
  match terminal.folders (env.dirOf name) with
  | none => some (terminal, .noPending)
  | some dir =>
      match (loadPendingDeletes dir.pendingBin).1 with
      | none => some (terminal, .noPending)
      | some _ =>
          let answer := terminal.stdin.dropWhile isspace
          let asked := { terminal with stdin := skipLine (answer.drop 1) }
          let fuel := (dir.dataDb.getD []).length + 1
          if answer.head? = some 121 ∨ answer.head? = some 89 then
            (processDeletes fuel io.execute name dir).map fun after =>
              (asked.setFolder (env.dirOf name) after,
                match dbOpen fuel name dir with
                | some (_, some _) => .executed
                | _ => .error "Could not open table.")
          else some (asked, .aborted)

/-- `origin set-auto-delete`. -/
def scheduleTable (io : CommandIO) (terminal : Terminal δ) (name : CString) (days : UInt64) :
    Option (Terminal δ × Printed ρ) :=
  let time := io.now + days * 86400
  let failed : Printed ρ := .error "Failed to write auto-delete schedule."
  match terminal.folders (env.dirOf name), io.schedule with
  | some dir, .written bytes =>
      some
        (terminal.setFolder (env.dirOf name)
          { dir with autoDeleteSchedule := some ((setAutoDeleteSchedule time).take bytes) },
        if 8 ≤ bytes then .scheduled days time else failed)
  | _, _ => some (terminal, failed)

/-- `origin cancel-auto-delete`; the outcome of the `remove` is not looked at. -/
def cancelTable (io : CommandIO) (terminal : Terminal δ) (name : CString) :
    Option (Terminal δ × Printed ρ) :=
  match terminal.folders (env.dirOf name) with
  | none => some (terminal, .cancelled)
  | some dir =>
      some
        (if io.removes then
          terminal.setFolder (env.dirOf name) { dir with autoDeleteSchedule := none }
        else terminal,
        .cancelled)

/-- The commands that need an open table. -/
def onMaster (terminal : Terminal δ)
    (run : CString → FlatDb → Option (Terminal δ × Printed ρ)) :
    Option (Terminal δ × Printed ρ) :=
  match terminal.masterDb with
  | none => some (terminal, .error "No database open.")
  | some (name, db) => run name db

/-- A command with its number of words. -/
def withWords (terminal : Terminal δ) (fits : Bool) (arg : String)
    (run : Option (Terminal δ × Printed ρ)) : Option (Terminal δ × Printed ρ) :=
  if fits then run else some (terminal, .usage arg)

def isArg (arg : List UInt8) (name : String) : Bool := arg == asciiBytes name

/-- `handle_command`; it returns `TUI_EXIT` where it prints `goodbye`. -/
def handleCommand (io : CommandIO) (command : List UInt8) (terminal : Terminal δ) :
    Option (Terminal δ × Printed ρ) :=
  let words := countWords command
  let scanned := scanCommand command
  let arg := scanned.arg
  let name := CString.ofBytes scanned.dbName
  if words = 0 then some (terminal, .nothing)
  else if scanned.cmd ≠ originText then some (terminal, .unknownCommand scanned.cmd)
  else if scanned.ret < 2 then some (terminal, .missingCommand)
  else if isArg arg "--help" || isArg arg "help" || isArg arg "-h" then some (terminal, .help)
  else if isArg arg "--exit" || isArg arg "exit" then some (terminal, .goodbye)
  else if isArg arg "server" then
    withWords terminal (words ≤ 3) "server"
      (let port := if words = 3 then atoi scanned.dbName else 8080
      if port ≤ 0 then some (terminal, .error "not a valid port number.")
      else some (terminal, .launching port))
  else if isArg arg "init" then
    withWords terminal (words == 6) "init"
      (initTable env io terminal name scanned.dimension (scanInitArgs command).1
        (scanInitArgs command).2)
  else if isArg arg "open" then
    withWords terminal (words == 3) "open" (openTable env io terminal name)
  else if isArg arg "insert" then
    onMaster terminal fun name db =>
      withWords terminal (3 ≤ words && words ≤ 4) "insert"
        (insertRecord env io terminal command name db)
  else if isArg arg "search" then
    onMaster terminal fun name db =>
      withWords terminal (words == 3) "search" (searchTable env io terminal command name db)
  else if isArg arg "delete" then
    onMaster terminal fun name db =>
      withWords terminal (words == 3) "delete" (deleteRecord env io terminal command name db)
  else if isArg arg "process-deletes" then
    withWords terminal (words == 3) "process-deletes" (processTable env io terminal name)
  else if isArg arg "set-auto-delete" then
    withWords terminal (words == 4) "set-auto-delete"
      (scheduleTable env io terminal name scanned.dimension)
  else if isArg arg "auto-delete-status" then
    withWords terminal (words == 3) "auto-delete-status"
      (some (terminal, .status
        (getAutoDeleteSchedule (terminal.folderOf (env.dirOf name)).autoDeleteSchedule) io.now))
  else if isArg arg "cancel-auto-delete" then
    withWords terminal (words == 3) "cancel-auto-delete" (cancelTable env io terminal name)
  else some (terminal, .error "Unknown command.")

/-! ### Runs -/

/-- The terminal with all that it has printed since it was first started. -/
structure TerminalRun (δ ρ : Type) where
  terminal : Terminal δ
  printed : List (Printed ρ)

/-- A line is typed, or the program is started again with another input. -/
inductive TerminalAction where
  | command (io : CommandIO) (line : List UInt8)
  | restart (stdin : List UInt8)

def terminalStep (run : TerminalRun δ ρ) : TerminalAction → Option (TerminalRun δ ρ)
  | .command io line =>
      (handleCommand env io line run.terminal).map fun (terminal, printed) =>
        { terminal := terminal
          printed := run.printed ++ [printed] }
  | .restart stdin =>
      some { run with terminal := { run.terminal with masterDb := none, stdin := stdin } }

end Commands

end OriginDb
