/-
The command that schedules a deletion: the branch `set-auto-delete` of
`handle_command` in `terminal.c`.

The day count is the fourth field of a `sscanf` that serves every command.  When the
field is no number the count stays 0, which means now; and the time is a product
and a sum modulo 2^64.
-/

import OriginDb.Foundation.Words
import OriginDb.QueueExecution
import OriginDb.Connection

namespace OriginDb

open Foundation

/-! ### Reading the command line -/

/-- The loop of `count_words`. -/
def countWordsFrom : List UInt8 → Bool → Nat → Nat
  | [], _, n => n
  | char :: rest, inWord, n =>
      if !isspace char then
        if !inWord then countWordsFrom rest true (n + 1) else countWordsFrom rest inWord n
      else countWordsFrom rest false n

def countWords (text : List UInt8) : Nat := countWordsFrom text false 0

/-- `%s` with a width: the word and what is left of the text. -/
def scanWord (width : Nat) (text : List UInt8) : Option (List UInt8 × List UInt8) :=
  let solid := text.dropWhile isspace
  if solid = [] then none
  else
    let taken := (solid.takeWhile fun char => !isspace char).take width
    some (taken, solid.drop taken.length)

/-- `%" SCNu64`: a sign is allowed, a negative number is taken modulo 2^64, and what
does not fit becomes the largest value. -/
def scanU64 (text : List UInt8) : Option UInt64 :=
  let trimmed := text.dropWhile isspace
  let sign := trimmed.head?
  let digits := (if sign = some 45 ∨ sign = some 43 then trimmed.drop 1 else trimmed).takeWhile
    isdigit
  if digits = [] then none
  else if 2 ^ 64 ≤ decimalValue digits then some (UInt64.ofNat (2 ^ 64 - 1))
  else if sign = some 45 then some (0 - UInt64.ofNat (decimalValue digits))
  else some (UInt64.ofNat (decimalValue digits))

/-- What the `sscanf` of `handle_command` leaves; a field it does not reach stays
empty.  The two numbers behind `dimension` only serve `init`. -/
structure ScannedCommand where
  ret : Nat
  cmd : List UInt8
  arg : List UInt8
  dbName : List UInt8
  dimension : UInt64
deriving DecidableEq

def scanCommand (command : List UInt8) : ScannedCommand :=
  match scanWord 19 command with
  | none => { ret := 0, cmd := [], arg := [], dbName := [], dimension := 0 }
  | some (cmd, afterCmd) =>
      match scanWord 19 afterCmd with
      | none => { ret := 1, cmd := cmd, arg := [], dbName := [], dimension := 0 }
      | some (arg, afterArg) =>
          match scanWord 199 afterArg with
          | none => { ret := 2, cmd := cmd, arg := arg, dbName := [], dimension := 0 }
          | some (dbName, afterName) =>
              match scanU64 afterName with
              | none => { ret := 3, cmd := cmd, arg := arg, dbName := dbName, dimension := 0 }
              | some days =>
                  { ret := 4, cmd := cmd, arg := arg, dbName := dbName, dimension := days }

/-! ### Writing the schedule -/

/-- The contents of files by their paths. -/
abbrev Files := List UInt8 → Option (List UInt8)

/-- The path that `snprintf` prints into 256 bytes. -/
def schedulePath (dbName : List UInt8) : List UInt8 :=
  (asciiBytes "origin_data/" ++ dbName ++ asciiBytes "/auto_delete_schedule.bin").take 255

/-- The outcome of writing a schedule: the open fails, or it empties the file and so many
bytes get there. -/
inductive ScheduleIO where
  | openFailed
  | written (bytes : Nat)
deriving DecidableEq

/-- `set_auto_delete_schedule` on the files. -/
def writeSchedule (io : ScheduleIO) (dbName : List UInt8) (unixTimestamp : UInt64)
    (files : Files) : Files :=
  match io with
  | .openFailed => files
  | .written bytes => fun path =>
      if path = schedulePath dbName then some ((setAutoDeleteSchedule unixTimestamp).take bytes)
      else files path

def originText : List UInt8 := asciiBytes "origin"

def setAutoDeleteText : List UInt8 := asciiBytes "set-auto-delete"

/-- `handle_command` at clock time `now`, as far as `set-auto-delete` goes; `none` is
another command. -/
def handleSetAutoDelete (io : ScheduleIO) (now : UInt64) (command : List UInt8)
    (files : Files) : Option Files :=
  if countWords command = 0 then some files
  else
    let scanned := scanCommand command
    if scanned.cmd ≠ originText then some files
    else if scanned.ret < 2 then some files
    else if scanned.arg = setAutoDeleteText then
      if countWords command ≠ 4 then some files
      else some (writeSchedule io scanned.dbName (now + scanned.dimension * 86400) files)
    else none

/-! ### What the command promises -/

def Blank (text : List UInt8) : Prop := ∀ char ∈ text, isspace char = true

/-- A word: some bytes, none of them blank. -/
structure Solid (text : List UInt8) : Prop where
  nonempty : text ≠ []
  notBlank : ∀ char ∈ text, isspace char = false

instance (text : List UInt8) : Decidable (Solid text) :=
  decidable_of_iff (text ≠ [] ∧ text.all (fun char => isspace char == false) = true)
    ⟨fun both => ⟨both.1, fun char member => eq_of_beq (List.all_eq_true.mp both.2 char member)⟩,
      fun solid => ⟨solid.nonempty, List.all_eq_true.mpr fun char member =>
        beq_of_eq (solid.notBlank char member)⟩⟩

/-- The command line `origin set-auto-delete <table> <days>`, with any blanks between
the words and around them. -/
structure FourWords (command table days : List UInt8) : Prop where
  tableSolid : Solid table
  daysSolid : Solid days
  shape : ∃ lead first second third trail, Blank lead ∧ Blank first ∧ Blank second ∧ Blank third ∧
    Blank trail ∧ first ≠ [] ∧ second ≠ [] ∧ third ≠ [] ∧
    command = lead ++ (originText ++ (first ++ (setAutoDeleteText ++ (second ++ (table ++
      (third ++ (days ++ trail)))))))

/-- `days` is a decimal numeral with this value. -/
structure Denotes (days : List UInt8) (value : Nat) : Prop where
  nonempty : days ≠ []
  digits : ∀ char ∈ days, isdigit char = true
  valueEq : decimalValue days = value

instance (days : List UInt8) (value : Nat) : Decidable (Denotes days value) :=
  decidable_of_iff (days ≠ [] ∧ days.all isdigit = true ∧ decimalValue days = value)
    ⟨fun all => ⟨all.1, List.all_eq_true.mp all.2.1, all.2.2⟩,
      fun denotes => ⟨denotes.nonempty, List.all_eq_true.mpr denotes.digits, denotes.valueEq⟩⟩

/-- With the schedule of these files, `check_and_run_auto_delete` leaves the records, the
data file and the queue of the table as they are. -/
def PerformsNoDeletion (files : Files) (table : List UInt8) (time : UInt64) : Prop :=
  ∀ io dir db code after next, dir.autoDeleteSchedule = files (schedulePath table) →
    checkAndRunAutoDelete io time dir db = some (code, after, next) →
      next = db ∧ after.dataDb = dir.dataDb ∧ after.pendingBin = dir.pendingBin

/-- A schedule is stored only for a numeral, and nothing is deleted before its days
have passed. -/
structure NeverEarly (now : UInt64) (command table days : List UInt8) : Prop where
  numeral : ∀ io files after, handleSetAutoDelete io now command files = some after →
    after ≠ files → ∃ value, Denotes days value
  waits : ∀ bytes files after, handleSetAutoDelete (.written bytes) now command files = some after →
    ∀ value, Denotes days value → ∀ time : UInt64,
      time.toNat < now.toNat + 86400 * value → PerformsNoDeletion after table time

/-- The count is a numeral, and the time it asks for is below 2^64 (or the one that comes
out is 0, which switches the schedule off).  A name that is cut off at 199 bytes leaves the
schedule of the table itself alone, which is early unless hardly any time is asked for. -/
def ScheduleFits (now : UInt64) (table days : List UInt8) : Prop :=
  ∃ value, Denotes days value ∧
    if table.length ≤ 199 then
      now.toNat + 86400 * value < 2 ^ 64 ∨
        (now.toNat + 86400 * min value (2 ^ 64 - 1)) % 2 ^ 64 = 0
    else now.toNat + 86400 * value ≤ 1

/-! ### The four words are read -/

theorem countWordsFrom_blank {gap : List UInt8} (blank : Blank gap) (text : List UInt8) (n : Nat) :
    countWordsFrom (gap ++ text) false n = countWordsFrom text false n := by
  induction gap with
  | nil => rfl
  | cons char gap ih =>
      have isBlank := blank char (List.mem_cons_self ..)
      rw [List.cons_append, countWordsFrom, isBlank, Bool.not_true, if_neg Bool.false_ne_true]
      exact ih fun other member => blank other (List.mem_cons_of_mem char member)

theorem countWordsFrom_gap {gap : List UInt8} (blank : Blank gap) (some : gap ≠ [])
    (text : List UInt8) (n : Nat) :
    countWordsFrom (gap ++ text) true n = countWordsFrom text false n := by
  cases gap with
  | nil => exact absurd rfl some
  | cons char gap =>
      have isBlank := blank char (List.mem_cons_self ..)
      rw [List.cons_append, countWordsFrom, isBlank, Bool.not_true, if_neg Bool.false_ne_true]
      exact countWordsFrom_blank
        (fun other member => blank other (List.mem_cons_of_mem char member)) text n

theorem countWordsFrom_inWord {word : List UInt8} (solid : ∀ char ∈ word, isspace char = false)
    (text : List UInt8) (n : Nat) :
    countWordsFrom (word ++ text) true n = countWordsFrom text true n := by
  induction word with
  | nil => rfl
  | cons char word ih =>
      have notBlank := solid char (List.mem_cons_self ..)
      rw [List.cons_append, countWordsFrom, notBlank, Bool.not_false, if_pos rfl, Bool.not_true,
        if_neg Bool.false_ne_true]
      exact ih fun other member => solid other (List.mem_cons_of_mem char member)

theorem countWordsFrom_word {word : List UInt8} (solid : Solid word) (text : List UInt8)
    (n : Nat) : countWordsFrom (word ++ text) false n = countWordsFrom text true (n + 1) := by
  obtain ⟨nonempty, notBlank⟩ := solid
  cases word with
  | nil => exact absurd rfl nonempty
  | cons char word =>
      rw [List.cons_append, countWordsFrom, notBlank char (List.mem_cons_self ..), Bool.not_false,
        if_pos rfl, if_pos rfl]
      exact countWordsFrom_inWord
        (fun other member => notBlank other (List.mem_cons_of_mem char member)) text (n + 1)

theorem countWordsFrom_trail {gap : List UInt8} (blank : Blank gap) (inWord : Bool) (n : Nat) :
    countWordsFrom gap inWord n = n := by
  induction gap generalizing inWord with
  | nil => rfl
  | cons char gap ih =>
      have isBlank := blank char (List.mem_cons_self ..)
      rw [countWordsFrom, isBlank, Bool.not_true, if_neg Bool.false_ne_true]
      exact ih (fun other member => blank other (List.mem_cons_of_mem char member)) false

theorem dropWhile_blank {gap : List UInt8} (blank : Blank gap) (text : List UInt8) :
    (gap ++ text).dropWhile isspace = text.dropWhile isspace := by
  induction gap with
  | nil => rfl
  | cons char gap ih =>
      rw [List.cons_append, List.dropWhile_cons, if_pos (blank char (List.mem_cons_self ..))]
      exact ih fun other member => blank other (List.mem_cons_of_mem char member)

theorem dropWhile_solid {word : List UInt8} (solid : Solid word) (text : List UInt8) :
    (word ++ text).dropWhile isspace = word ++ text := by
  obtain ⟨nonempty, notBlank⟩ := solid
  cases word with
  | nil => exact absurd rfl nonempty
  | cons char word =>
      rw [List.cons_append, List.dropWhile_cons, notBlank char (List.mem_cons_self ..),
        if_neg Bool.false_ne_true]

/-- A word behind blanks is read up to the width of its field. -/
theorem scanWord_word (width : Nat) {gap word rest : List UInt8} (blank : Blank gap)
    (solid : Solid word) (ended : ∀ char ∈ rest.head?, isspace char = true) :
    scanWord width (gap ++ (word ++ rest)) = some (word.take width, word.drop width ++ rest) := by
  have all : ∀ char ∈ word, (!isspace char) = true := by
    intro char member
    rw [solid.notBlank char member, Bool.not_false]
  have taken : (word ++ rest).takeWhile (fun char => !isspace char) = word := by
    rw [Words.takeWhile_append_of_blank isspace ended]
    exact List.takeWhile_eq_self_iff.mpr all
  have some : ¬word ++ rest = [] := fun empty => solid.nonempty (List.append_eq_nil_iff.mp empty).1
  rw [scanWord, dropWhile_blank blank, dropWhile_solid solid, if_neg some, taken]
  dsimp only
  rw [List.length_take]
  by_cases fits : word.length ≤ width
  · rw [Nat.min_eq_right fits, List.take_of_length_le fits, List.drop_of_length_le fits,
      List.drop_left, List.nil_append]
  · rw [Nat.min_eq_left (by omega), List.drop_append_of_le_length (by omega)]

theorem head_blank {gap : List UInt8} (blank : Blank gap) (some : gap ≠ []) (text : List UInt8) :
    ∀ char ∈ (gap ++ text).head?, isspace char = true := by
  intro char first
  cases gap with
  | nil => exact absurd rfl some
  | cons head gap =>
      rw [← Option.some.inj first]
      exact blank head (List.mem_cons_self ..)

theorem isspace_of_isdigit {char : UInt8} (digit : isdigit char = true) :
    isspace char = false := by
  simp only [isdigit, Bool.and_eq_true, decide_eq_true_iff, UInt8.le_iff_toNat_le] at digit
  rw [Bool.eq_false_iff]
  intro space
  simp only [isspace, Bool.or_eq_true, Bool.and_eq_true, beq_iff_eq, decide_eq_true_iff,
    UInt8.le_iff_toNat_le] at space
  rcases space with rfl | ⟨-, below⟩
  · exact absurd digit.1 (by decide)
  · have low : 48 ≤ char.toNat := digit.1
    have high : char.toNat ≤ 13 := below
    omega

/-- A numeral is read as its value, or as the largest one that there is. -/
theorem scanU64_numeral {gap days trail : List UInt8} (gapBlank : Blank gap)
    (trailBlank : Blank trail) {value : Nat} (denotes : Denotes days value) :
    scanU64 (gap ++ (days ++ trail)) = some (UInt64.ofNat (min value (2 ^ 64 - 1))) := by
  obtain ⟨nonempty, digits, valueEq⟩ := denotes
  have solid : Solid days := ⟨nonempty, fun char member => isspace_of_isdigit (digits char member)⟩
  have noneBehind : trail.takeWhile isdigit = [] := by
    cases trail with
    | nil => rfl
    | cons char trail =>
        rw [List.takeWhile_cons, if_neg]
        intro digit
        exact Bool.false_ne_true
          ((isspace_of_isdigit digit).symm.trans (trailBlank char (List.mem_cons_self ..)))
  have taken : (days ++ trail).takeWhile isdigit = days := by
    rw [List.takeWhile_append_of_pos digits, noneBehind, List.append_nil]
  have noSign : ∀ sign, isdigit sign = false → (days ++ trail).head? ≠ some sign := by
    intro sign notDigit first
    cases days with
    | nil => exact nonempty rfl
    | cons head days =>
        rw [Option.some.inj first] at digits
        exact Bool.false_ne_true (notDigit.symm.trans (digits sign (List.mem_cons_self ..)))
  have unsigned : ¬((days ++ trail).head? = some 45 ∨ (days ++ trail).head? = some 43) := by
    rintro (minus | plus)
    · exact noSign 45 rfl minus
    · exact noSign 43 rfl plus
  rw [scanU64, dropWhile_blank gapBlank, dropWhile_solid solid, if_neg unsigned, taken,
    if_neg nonempty, valueEq, if_neg (noSign 45 rfl)]
  by_cases large : 2 ^ 64 ≤ value
  · rw [if_pos large, Nat.min_eq_right (by omega)]
  · rw [if_neg large, Nat.min_eq_left (by omega)]

theorem origin_solid : Solid originText := by decide

theorem setAutoDelete_solid : Solid setAutoDeleteText := by decide

/-- Four such words get a schedule written. -/
theorem handleSetAutoDelete_fourWords {command table days : List UInt8}
    (fourWords : FourWords command table days) :
    ∃ count : UInt64,
      (∀ io now files, handleSetAutoDelete io now command files =
        some (writeSchedule io (table.take 199) (now + count * 86400) files)) ∧
      (table.length ≤ 199 → ∀ value, Denotes days value →
        count = UInt64.ofNat (min value (2 ^ 64 - 1))) := by
  obtain ⟨tableSolid, daysSolid, lead, first, second, third, trail, leadBlank, firstBlank,
    secondBlank, thirdBlank, trailBlank, firstSome, secondSome, thirdSome, rfl⟩ := fourWords
  have words : countWords (lead ++ (originText ++ (first ++ (setAutoDeleteText ++ (second ++
      (table ++ (third ++ (days ++ trail)))))))) = 4 := by
    rw [countWords, countWordsFrom_blank leadBlank, countWordsFrom_word origin_solid,
      countWordsFrom_gap firstBlank firstSome, countWordsFrom_word setAutoDelete_solid,
      countWordsFrom_gap secondBlank secondSome, countWordsFrom_word tableSolid,
      countWordsFrom_gap thirdBlank thirdSome, countWordsFrom_word daysSolid,
      countWordsFrom_trail trailBlank]
  generalize leftEq : table.drop 199 ++ (third ++ (days ++ trail)) = left
  obtain ⟨ret, enough, scanned⟩ : ∃ ret, 2 ≤ ret ∧
      scanCommand (lead ++ (originText ++ (first ++ (setAutoDeleteText ++ (second ++
        (table ++ (third ++ (days ++ trail)))))))) =
          { ret := ret, cmd := originText, arg := setAutoDeleteText, dbName := table.take 199
            dimension := (scanU64 left).getD 0 } := by
    have originFits : originText.take 19 = originText := by decide
    have originDone : originText.drop 19 = [] := by decide
    have argFits : setAutoDeleteText.take 19 = setAutoDeleteText := by decide
    have argDone : setAutoDeleteText.drop 19 = [] := by decide
    rw [scanCommand, scanWord_word 19 leadBlank origin_solid (head_blank firstBlank firstSome _),
      originFits, originDone, List.nil_append]
    dsimp only
    rw [scanWord_word 19 firstBlank setAutoDelete_solid (head_blank secondBlank secondSome _),
      argFits, argDone, List.nil_append]
    dsimp only
    rw [scanWord_word 199 secondBlank tableSolid (head_blank thirdBlank thirdSome _), leftEq]
    dsimp only
    cases scanU64 left with
    | none => exact ⟨3, by decide, rfl⟩
    | some count => exact ⟨4, by decide, rfl⟩
  apply Exists.intro ((scanU64 left).getD 0)
  constructor
  · intro io now files
    rw [handleSetAutoDelete, words, if_neg (by decide), scanned]
    dsimp only
    rw [if_neg (fun different => different rfl), if_neg (by omega), if_pos rfl,
      if_neg (fun different => different rfl)]
  · intro short value denotes
    have nothingLeft : left = third ++ (days ++ trail) := by
      rw [← leftEq, List.drop_of_length_le short, List.nil_append]
    rw [nothingLeft, scanU64_numeral thirdBlank trailBlank denotes, Option.getD_some]

/-! ### The schedule that is written -/

/-- Once it is due, the queue of a table is executed. -/
theorem checkAndRunAutoDelete_due {schedule : Option (List UInt8)} {time : UInt64}
    (scheduled : getAutoDeleteSchedule schedule ≠ 0)
    (due : ¬time < getAutoDeleteSchedule schedule) :
    checkAndRunAutoDelete .ok time { twinsDir [7] with autoDeleteSchedule := schedule } twinsTable =
      checkAndRunAutoDelete .ok 1 (twinsDir [7]) twinsTable := by
  have sampleScheduled : getAutoDeleteSchedule (twinsDir [7]).autoDeleteSchedule ≠ 0 := by
    decide +kernel
  have sampleDue : ¬1 < getAutoDeleteSchedule (twinsDir [7]).autoDeleteSchedule := by
    decide +kernel
  unfold checkAndRunAutoDelete
  dsimp only
  rw [if_neg scheduled, if_neg due, if_neg sampleScheduled, if_neg sampleDue]

theorem performsNoDeletion_iff (files : Files) (table : List UInt8) (time : UInt64) :
    PerformsNoDeletion files table time ↔
      getAutoDeleteSchedule (files (schedulePath table)) = 0 ∨
        time < getAutoDeleteSchedule (files (schedulePath table)) := by
  constructor
  · intro noDeletion
    by_contra runs
    obtain ⟨scheduled, due⟩ := not_or.mp runs
    obtain ⟨⟨code, after, next⟩, executed, changed⟩ : ∃ result,
        checkAndRunAutoDelete .ok 1 (twinsDir [7]) twinsTable = some result ∧
          result.2.2 ≠ twinsTable := by
      have executed : ((checkAndRunAutoDelete .ok 1 (twinsDir [7]) twinsTable).any
          fun result => decide (result.2.2 ≠ twinsTable)) = true := by decide +kernel
      obtain ⟨result, resultEq, differs⟩ := (Option.any_eq_true _ _).mp executed
      exact ⟨result, resultEq, of_decide_eq_true differs⟩
    exact changed (noDeletion _ _ _ _ _ _ rfl
      ((checkAndRunAutoDelete_due scheduled due).trans executed)).1
  · intro waits io dir db code after next sameSchedule ran
    unfold checkAndRunAutoDelete at ran
    rw [sameSchedule] at ran
    dsimp only at ran
    have unchanged : some ((0 : Int), dir, db) = some (code, after, next) := by
      rcases waits with off | early
      · rw [if_pos off] at ran
        exact ran
      · by_cases off : getAutoDeleteSchedule (files (schedulePath table)) = 0
        · rw [if_pos off] at ran
          exact ran
        · rw [if_neg off, if_pos early] at ran
          exact ran
    cases unchanged
    exact ⟨rfl, rfl, rfl⟩

theorem getAutoDeleteSchedule_take (time : UInt64) (bytes : Nat) :
    getAutoDeleteSchedule (some ((setAutoDeleteSchedule time).take bytes)) =
      if bytes < 8 then 0 else time := by
  have lengthEq : (setAutoDeleteSchedule time).length = 8 := LittleEndian.encode_length 8 _
  unfold getAutoDeleteSchedule
  dsimp only
  rw [List.length_take, lengthEq]
  by_cases torn : bytes < 8
  · rw [if_pos (by omega), if_pos torn]
  · rw [if_neg (by omega), if_neg torn, List.take_of_length_le (by omega)]
    have read := u64At_append [] [] time
    rw [List.nil_append, List.append_nil] at read
    exact read

theorem writeSchedule_self (bytes : Nat) (dbName : List UInt8) (time : UInt64) (files : Files) :
    writeSchedule (.written bytes) dbName time files (schedulePath dbName) =
      some ((setAutoDeleteSchedule time).take bytes) :=
  if_pos rfl

theorem writeSchedule_other (bytes : Nat) {path dbName : List UInt8}
    (different : path ≠ schedulePath dbName) (time : UInt64) (files : Files) :
    writeSchedule (.written bytes) dbName time files path = files path :=
  if_neg different

/-- A name that was cut off is not the name of the table. -/
theorem schedulePath_take_ne {table : List UInt8} (long : 199 < table.length) :
    schedulePath table ≠ schedulePath (table.take 199) := by
  intro same
  have lengths := congrArg List.length same
  have front : (asciiBytes "origin_data/").length = 12 := by decide
  have back : (asciiBytes "/auto_delete_schedule.bin").length = 25 := by decide
  simp only [schedulePath, List.length_take, List.length_append, front, back] at lengths
  omega

theorem Denotes.unique {days : List UInt8} {value other : Nat} (denotes : Denotes days value)
    (another : Denotes days other) : value = other :=
  denotes.valueEq.symm.trans another.valueEq

/-- The time that is written, modulo 2^64. -/
theorem schedule_toNat (now : UInt64) (value : Nat) :
    (now + UInt64.ofNat (min value (2 ^ 64 - 1)) * 86400).toNat =
      (now.toNat + 86400 * min value (2 ^ 64 - 1)) % 2 ^ 64 := by
  have small : min value (2 ^ 64 - 1) < 2 ^ 64 := by omega
  have secondsPerDay : (86400 : UInt64).toNat = 86400 := rfl
  rw [UInt64.toNat_add, UInt64.toNat_mul, UInt64.toNat_ofNat_of_lt' small, secondsPerDay]
  omega

theorem scheduleFits_of_neverEarly {now : UInt64} {command table days : List UInt8}
    (fourWords : FourWords command table days) (neverEarly : NeverEarly now command table days) :
    ScheduleFits now table days := by
  obtain ⟨count, handled, counts⟩ := handleSetAutoDelete_fourWords fourWords
  let empty : Files := fun _ => none
  have changes :
      writeSchedule (.written 8) (table.take 199) (now + count * 86400) empty ≠ empty := by
    intro same
    have atPath := congrFun same (schedulePath (table.take 199))
    rw [writeSchedule_self] at atPath
    cases atPath
  obtain ⟨value, denotes⟩ := neverEarly.numeral _ empty _ (handled _ now empty) changes
  apply Exists.intro value
  apply And.intro denotes
  by_cases short : table.length ≤ 199
  · have countEq := counts short value denotes
    rw [if_pos short]
    by_contra early
    obtain ⟨large, notOff⟩ := not_or.mp early
    have asked : (now + count * 86400).toNat < now.toNat + 86400 * value := by
      have below := UInt64.toNat_lt (now + count * 86400)
      omega
    have waits := (performsNoDeletion_iff _ _ _).mp
      (neverEarly.waits 8 empty _ (handled _ now empty) value denotes _ asked)
    have nameFits : table.take 199 = table := List.take_of_length_le short
    rw [nameFits, writeSchedule_self, getAutoDeleteSchedule_take,
      if_neg (Nat.lt_irrefl 8)] at waits
    rcases waits with off | before
    · rw [countEq] at off
      apply notOff
      rw [← schedule_toNat, off]
      rfl
    · exact UInt64.lt_irrefl _ before
  · rw [if_neg short]
    by_contra long
    have asked : (1 : UInt64).toNat < now.toNat + 86400 * value := Nat.lt_of_not_le long
    let old : Files := fun path =>
      if path = schedulePath table then some (setAutoDeleteSchedule 1) else none
    have waits := (performsNoDeletion_iff _ _ _).mp
      (neverEarly.waits 8 old _ (handled _ now old) value denotes 1 asked)
    rw [writeSchedule_other _ (schedulePath_take_ne (Nat.lt_of_not_le short))] at waits
    have stays : getAutoDeleteSchedule (old (schedulePath table)) = 1 := by
      change getAutoDeleteSchedule (if schedulePath table = schedulePath table then _ else _) = 1
      rw [if_pos rfl]
      decide
    rw [stays] at waits
    exact absurd waits (by decide)

theorem neverEarly_of_scheduleFits {now : UInt64} {command table days : List UInt8}
    (fourWords : FourWords command table days) (fits : ScheduleFits now table days) :
    NeverEarly now command table days := by
  obtain ⟨count, handled, counts⟩ := handleSetAutoDelete_fourWords fourWords
  obtain ⟨value, denotes, enough⟩ := fits
  constructor
  · exact fun _ _ _ _ _ => ⟨value, denotes⟩
  · intro bytes files after ran other otherDenotes time asked
    rw [← denotes.unique otherDenotes] at asked
    rw [← Option.some.inj ((handled _ now files).symm.trans ran), performsNoDeletion_iff]
    by_cases short : table.length ≤ 199
    · rw [if_pos short] at enough
      have nameFits : table.take 199 = table := List.take_of_length_le short
      rw [nameFits, writeSchedule_self, getAutoDeleteSchedule_take,
        counts short value denotes]
      by_cases torn : bytes < 8
      · exact Or.inl (if_pos torn)
      · rw [if_neg torn]
        have timeEq := schedule_toNat now value
        rcases enough with below | off
        · right
          rw [UInt64.lt_iff_toNat_lt, timeEq, Nat.min_eq_left (by omega),
            Nat.mod_eq_of_lt below]
          exact asked
        · left
          apply UInt64.toNat_inj.mp
          rw [timeEq, off]
          rfl
    · rw [if_neg short] at enough
      have start : time = 0 :=
        UInt64.toNat_inj.mp (Nat.lt_one_iff.mp (Nat.lt_of_lt_of_le asked enough))
      rw [start]
      generalize getAutoDeleteSchedule _ = schedule
      by_cases off : schedule = 0
      · exact Or.inl off
      · exact Or.inr (UInt64.pos_iff_ne_zero.mpr off)

/-- The scheduled deletion is never early exactly when the count is a numeral whose time
fits. -/
theorem scheduled_deletion_never_early_iff {now : UInt64} {command table days : List UInt8}
    (fourWords : FourWords command table days) :
    NeverEarly now command table days ↔ ScheduleFits now table days := by
  constructor
  · exact scheduleFits_of_neverEarly fourWords
  · exact neverEarly_of_scheduleFits fourWords

def moviesText : List UInt8 := asciiBytes "movies"

def commandLine (days : List UInt8) : List UInt8 :=
  originText ++ [32] ++ setAutoDeleteText ++ [32] ++ moviesText ++ [32] ++ days

theorem commandLine_fourWords {days : List UInt8} (solid : Solid days) :
    FourWords (commandLine days) moviesText days where
  tableSolid := by decide
  daysSolid := solid
  shape := by
    have blank : Blank [32] := by
      intro char member
      rw [List.mem_singleton.mp member]
      rfl
    have none : Blank [] := fun char member => absurd member List.not_mem_nil
    exact ⟨[], [32], [32], [32], [], none, blank, blank, blank, none, List.cons_ne_nil _ _,
      List.cons_ne_nil _ _, List.cons_ne_nil _ _, by
        simp only [commandLine, List.append_assoc, List.nil_append, List.append_nil]⟩

/-- `origin set-auto-delete movies 1` -/
theorem scheduled_deletion_waits_a_day :
    NeverEarly 1700000000 (commandLine [49]) moviesText [49] :=
  (scheduled_deletion_never_early_iff (commandLine_fourWords (by decide))).mpr
    ⟨1, by decide, by decide⟩

/-- `origin set-auto-delete movies soon` is due at once. -/
theorem soon_is_now :
    ¬∀ (now : UInt64) (command table days : List UInt8),
      FourWords command table days → NeverEarly now command table days := by
  intro claimed
  let soon := asciiBytes "soon"
  have neverEarly := claimed 1700000000 (commandLine soon) moviesText soon
    (commandLine_fourWords (by decide))
  have handled : handleSetAutoDelete (.written 8) 1700000000 (commandLine soon) (fun _ => none) =
      some (writeSchedule (.written 8) moviesText 1700000000 fun _ => none) := by
    have words : countWords (commandLine soon) = 4 := by decide +kernel
    have scanned : scanCommand (commandLine soon) =
        { ret := 3, cmd := originText, arg := setAutoDeleteText, dbName := moviesText
          dimension := 0 } := by decide +kernel
    rw [handleSetAutoDelete, words, scanned]
    rfl
  obtain ⟨value, denotes⟩ := neverEarly.numeral _ _ _ handled (by
    intro same
    have atPath := congrFun same (schedulePath moviesText)
    rw [writeSchedule_self] at atPath
    cases atPath)
  exact absurd (denotes.digits 115 (by decide)) (by decide)

end OriginDb
