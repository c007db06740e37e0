/-
The key store: `api-key-generate.c` writes it, `server.c` reads it.

`.auth_keys` holds one line per table.  Saving a key rewrites the file without
the lines of the table and appends a new one, so the lines stand in the order of
the last saves.  The server reads the first `MAX_AUTH_KEYS` of them.  Files are
bytes here and lines are cut by `fgets`, as on the reading side.
-/

import Mathlib.Data.List.Find
import OriginDb.Foundation.LatestBindings
import OriginDb.Requests

namespace OriginDb

open Foundation

/-! ### Writing -/

/-- `strncmp(line, db_name, name_len) == 0 && line[name_len] == ':'`. -/
def belongsTo (dbName : CString) (line : List UInt8) : Bool :=
  line.take dbName.strlen == dbName.bytes && (line)[dbName.strlen]? == some 58

/-- The loop of `prune_api_key`; `fputs` writes a line up to its first NUL. -/
def pruneLines (dbName : CString) : Nat → List UInt8 → List UInt8
  | 0, _ => []
  | fuel + 1, file =>
      if file = [] then []
      else
        let (line, rest) := fgets file
        if belongsTo dbName line then pruneLines dbName fuel rest
        else (CString.ofBytes line).bytes ++ pruneLines dbName fuel rest

/-- `prune_api_key`; a missing file is left missing. -/
def pruneApiKey (dbName : CString) (authKeys : Option (List UInt8)) : Option (List UInt8) :=
  authKeys.map fun file => pruneLines dbName file.length file

/-- `save_api_key`. -/
def saveApiKey (authKeys : Option (List UInt8)) (dbName apiKey : CString) :
    Option (List UInt8) :=
  some ((pruneApiKey dbName authKeys).getD [] ++
    (dbName.bytes ++ [58] ++ apiKey.bytes ++ [10]))

/-- A run of `save_api_key` calls on a store that has no file yet. -/
def saveAll (saves : List (CString × CString)) : Option (List UInt8) :=
  saves.foldl (fun authKeys save => saveApiKey authKeys save.1 save.2) none

def isHexDigit (char : UInt8) : Bool :=
  (48 ≤ char && char ≤ 57) || (65 ≤ char && char ≤ 70) || (97 ≤ char && char ≤ 102)

/-- What `init` passes to `save_api_key`. -/
def ValidSave (save : CString × CString) : Prop :=
  validateDbName save.1 = true ∧ save.2.strlen = 64 ∧ save.2.bytes.all isHexDigit = true

instance (save : CString × CString) : Decidable (ValidSave save) :=
  inferInstanceAs (Decidable (_ ∧ _ ∧ _))

/-! ### What the store is for -/

/-- `providedKey` is the key of the last save of `dbName`, and the last saves of
fewer than 128 other tables come before it. -/
def IsLatestKey (saves : List (CString × CString)) (dbName : CString)
    (providedKey : List UInt8) : Prop :=
  ∃ earlier apiKey later, saves = earlier ++ (dbName, apiKey) :: later ∧
    dbName ∉ later.map Prod.fst ∧ apiKey.bytes = providedKey ∧
      (LatestBindings.keysBefore earlier dbName later).card < 128

/-! ### Lines -/

def lineOf (save : CString × CString) : List UInt8 :=
  save.1.bytes ++ [58] ++ save.2.bytes ++ [10]

/-- No character that ends a name, a key or a line. -/
def Plain (text : List UInt8) : Prop :=
  ∀ char ∈ text, char ∉ ([0, 10, 13, 58] : List UInt8)

theorem plain_of_all {allowed : UInt8 → Bool} {text : List UInt8}
    (refuses : ([0, 10, 13, 58] : List UInt8).any allowed = false)
    (all : text.all allowed = true) : Plain text := by
  intro char member ending
  have isAllowed := List.all_eq_true.mp all char member
  exact absurd isAllowed (List.any_eq_false.mp refuses char ending)

theorem validateDbName_plain {name : CString} (valid : validateDbName name = true) :
    Plain name.bytes ∧ name.bytes.length ≤ 64 := by
  unfold validateDbName at valid
  obtain ⟨lengthOk, charsOk⟩ := Bool.and_eq_true_iff.mp valid
  constructor
  · exact plain_of_all (by decide) charsOk
  · have notLong := (Bool.or_eq_false_iff.mp (Bool.not_eq_true' _ ▸ lengthOk)).2
    exact Nat.le_of_not_lt (of_decide_eq_false notLong)

/-- The parts of a line that `ValidSave` promises. -/
structure PlainSave (save : CString × CString) : Prop where
  name : Plain save.1.bytes
  nameLength : save.1.bytes.length ≤ 64
  key : Plain save.2.bytes
  keyLength : save.2.bytes.length = 64

theorem ValidSave.plain {save : CString × CString} (valid : ValidSave save) : PlainSave save where
  name := (validateDbName_plain valid.1).1
  nameLength := (validateDbName_plain valid.1).2
  key := plain_of_all (by decide) valid.2.2
  keyLength := valid.2.1

theorem findIdx?_append_cons {test : UInt8 → Bool} {front : List UInt8} (back : List UInt8)
    {char : UInt8} (notFront : ∀ other ∈ front, test other = false) (found : test char = true) :
    (front ++ char :: back).findIdx? test = some front.length := by
  have none : front.findIdx? test = none := List.findIdx?_eq_none_iff.mpr notFront
  rw [List.findIdx?_append, none, List.findIdx?_cons, if_pos found]
  simp

theorem fgets_line {body : List UInt8} (rest : List UInt8) (oneLine : 10 ∉ body)
    (fits : body.length < 255) : fgets (body ++ [10] ++ rest) = (body ++ [10], rest) := by
  have taken : (body ++ [10] ++ rest).take 255 = body ++ 10 :: rest.take (254 - body.length) := by
    rw [List.append_assoc, List.take_append, List.take_of_length_le (by omega),
      List.singleton_append, show 255 - body.length = (254 - body.length) + 1 by omega,
      List.take_succ_cons]
  have notBody : ∀ other ∈ body, (other == 10) = false := by
    intro other member
    apply beq_eq_false_iff_ne.mpr
    intro same
    exact oneLine (same ▸ member)
  have newline := findIdx?_append_cons (rest.take (254 - body.length)) notBody
    (beq_self_eq_true (10 : UInt8))
  have length : (body ++ [10]).length = body.length + 1 := by
    rw [List.length_append, List.length_singleton]
  unfold fgets
  rw [taken, newline]
  dsimp only
  rw [← length, List.take_left, List.drop_left]

theorem PlainSave.fgets {save : CString × CString} (plain : PlainSave save) (rest : List UInt8) :
    fgets (lineOf save ++ rest) = (lineOf save, rest) := by
  apply fgets_line
  · intro member
    rw [List.mem_append, List.mem_append, List.mem_singleton] at member
    rcases member with (inName | isColon) | inKey
    · exact plain.name 10 inName (by decide)
    · exact absurd isColon (by decide)
    · exact plain.key 10 inKey (by decide)
  · simp only [List.length_append, List.length_singleton, plain.keyLength]
    have nameLength := plain.nameLength
    omega

theorem CString.eq_of_bytes {first second : CString} (same : first.bytes = second.bytes) :
    first = second := by
  cases first
  cases second
  cases same
  rfl

theorem belongsTo_lineOf {save : CString × CString} (plain : PlainSave save) {dbName : CString}
    (plainName : Plain dbName.bytes) :
    belongsTo dbName (lineOf save) = true ↔ save.1 = dbName := by
  have shape : lineOf save = save.1.bytes ++ 58 :: (save.2.bytes ++ [10]) := by
    simp [lineOf]
  unfold belongsTo
  rw [Bool.and_eq_true, beq_iff_eq, beq_iff_eq, shape]
  constructor
  · intro belongs
    rcases belongs with ⟨sameFront, colon⟩
    change List.take dbName.bytes.length _ = _ at sameFront
    change _[dbName.bytes.length]? = _ at colon
    rcases Nat.lt_trichotomy dbName.bytes.length save.1.bytes.length with shorter | same | longer
    · -- The colon would stand inside the name of the line.
      rw [List.getElem?_append_left shorter] at colon
      exact absurd (by decide) (plain.name 58 (List.mem_of_getElem? colon))
    · rw [same, List.take_left] at sameFront
      exact CString.eq_of_bytes sameFront
    · -- The name of the line would end inside the given name.
      have inside : (58 : UInt8) ∈ dbName.bytes := by
        rw [← sameFront, List.take_append, List.mem_append]
        right
        obtain ⟨more, lengthEq⟩ := Nat.exists_eq_add_of_lt longer
        rw [show dbName.bytes.length - save.1.bytes.length = more + 1 by omega,
          List.take_succ_cons]
        exact List.mem_cons_self ..
      exact absurd (by decide) (plainName 58 inside)
  · intro same
    rw [← same]
    constructor
    · exact List.take_left ..
    · exact (List.getElem?_append_right (Nat.le_refl _)).trans (by rw [Nat.sub_self]; rfl)

theorem ofBytes_lineOf {save : CString × CString} (plain : PlainSave save) :
    (CString.ofBytes (lineOf save)).bytes = lineOf save := by
  apply List.takeWhile_eq_self_iff.mpr
  intro char member
  apply bne_iff_ne.mpr
  intro zero
  rw [zero, lineOf, List.mem_append, List.mem_append, List.mem_append, List.mem_singleton,
    List.mem_singleton] at member
  rcases member with ((inName | isColon) | inKey) | isNewline
  · exact plain.name 0 inName (by decide)
  · exact absurd isColon (by decide)
  · exact plain.key 0 inKey (by decide)
  · exact absurd isNewline (by decide)

/-! ### The file as the list of the last saves -/

def linesOf (saves : List (CString × CString)) : List UInt8 := saves.flatMap lineOf

theorem lineOf_append_ne_nil (save : CString × CString) (rest : List UInt8) :
    lineOf save ++ rest ≠ [] := by
  simp [lineOf]

theorem length_lineOf_pos (save : CString × CString) : 0 < (lineOf save).length := by
  simp only [lineOf, List.length_append, List.length_singleton]
  omega

theorem pruneLines_linesOf {dbName : CString} (plainName : Plain dbName.bytes)
    {entries : List (CString × CString)} (plain : ∀ save ∈ entries, PlainSave save) {fuel : Nat}
    (enough : (linesOf entries).length ≤ fuel) :
    pruneLines dbName fuel (linesOf entries) =
      linesOf (entries.filter fun entry => entry.1 ≠ dbName) := by
  induction entries generalizing fuel with
  | nil => cases fuel <;> rfl
  | cons save rest ih =>
      have plainSave := plain save (List.mem_cons_self ..)
      have plainRest : ∀ other ∈ rest, PlainSave other := fun other member =>
        plain other (List.mem_cons_of_mem _ member)
      have positive := length_lineOf_pos save
      rw [linesOf, List.flatMap_cons, List.length_append] at enough
      cases fuel with
      | zero => omega
      | succ fuel =>
          have pruned : pruneLines dbName fuel (linesOf rest) =
              linesOf (rest.filter fun entry => entry.1 ≠ dbName) := by
            apply ih plainRest
            unfold linesOf
            omega
          rw [linesOf, List.flatMap_cons, pruneLines, if_neg (lineOf_append_ne_nil _ _),
            plainSave.fgets]
          dsimp only
          unfold linesOf at pruned
          by_cases same : save.1 = dbName
          · rw [if_pos ((belongsTo_lineOf plainSave plainName).mpr same), pruned,
              List.filter_cons_of_neg (by simpa using same)]
            rfl
          · rw [if_neg (fun belongs => same ((belongsTo_lineOf plainSave plainName).mp belongs)),
              pruned, ofBytes_lineOf plainSave, List.filter_cons_of_pos (by simpa using same)]
            rfl

theorem saveApiKey_linesOf {authKeys : Option (List UInt8)} {entries : List (CString × CString)}
    {save : CString × CString} (fileEq : authKeys.getD [] = linesOf entries)
    (plain : ∀ entry ∈ entries, PlainSave entry) (plainSave : PlainSave save) :
    (saveApiKey authKeys save.1 save.2).getD [] =
      linesOf (LatestBindings.bind entries save) := by
  have pruned : (pruneApiKey save.1 authKeys).getD [] =
      linesOf (entries.filter fun entry => entry.1 ≠ save.1) := by
    cases authKeys with
    | none =>
        rw [← pruneLines_linesOf plainSave.name plain (Nat.le_refl _), ← fileEq]
        rfl
    | some file =>
        cases fileEq
        exact pruneLines_linesOf plainSave.name plain (Nat.le_refl _)
  rw [saveApiKey, Option.getD_some, pruned, LatestBindings.bind, linesOf, linesOf,
    List.flatMap_append, List.flatMap_singleton]
  rfl

theorem foldl_saveApiKey (saves : List (CString × CString)) (authKeys : Option (List UInt8))
    {entries : List (CString × CString)} (fileEq : authKeys.getD [] = linesOf entries)
    (plain : ∀ entry ∈ entries, PlainSave entry) (plainSaves : ∀ save ∈ saves, PlainSave save) :
    (saves.foldl (fun authKeys save => saveApiKey authKeys save.1 save.2) authKeys).getD [] =
      linesOf (saves.foldl LatestBindings.bind entries) := by
  induction saves generalizing authKeys entries with
  | nil => exact fileEq
  | cons save rest ih =>
      have plainSave := plainSaves save (List.mem_cons_self ..)
      apply ih _ (saveApiKey_linesOf fileEq plain plainSave)
      · intro entry member
        rcases List.mem_append.mp member with kept | isNew
        · exact plain entry (List.mem_of_mem_filter kept)
        · rw [List.mem_singleton.mp isNew]
          exact plainSave
      · intro other member
        exact plainSaves other (List.mem_cons_of_mem _ member)

/-- The file holds one line per table, in the order of the last saves. -/
theorem saveAll_linesOf {saves : List (CString × CString)}
    (plain : ∀ save ∈ saves, PlainSave save) :
    (saveAll saves).getD [] = linesOf (LatestBindings.latest saves) := by
  have noEntry : ∀ entry ∈ ([] : List (CString × CString)), PlainSave entry := by
    intro entry member
    cases member
  have folded := foldl_saveApiKey saves none rfl noEntry plain
  rw [LatestBindings.foldl_bind, List.filter_nil, List.nil_append] at folded
  exact folded

/-! ### Reading the file -/

/-- What `load_auth_cache` keeps of a line. -/
def entryOf (save : CString × CString) : AuthEntry where
  dbName := save.1.bytes.take 64
  apiKey := save.2.bytes.take 64
  dbNameFits := List.length_take_le _ _
  apiKeyFits := List.length_take_le _ _

theorem plain_kept {char : UInt8} (plain : char ∉ ([0, 10, 13, 58] : List UInt8)) :
    (char != 0 && char != 13 && char != 10) = true := by
  simp only [List.mem_cons, not_or] at plain
  simp [plain]

theorem PlainSave.authEntryOfLine {save : CString × CString} (plain : PlainSave save) :
    authEntryOfLine (lineOf save) = some (entryOf save) := by
  have text : (lineOf save).takeWhile (fun char => char != 0 && char != 13 && char != 10) =
      save.1.bytes ++ 58 :: save.2.bytes := by
    have shape : lineOf save = (save.1.bytes ++ 58 :: save.2.bytes) ++ [10] := by
      simp only [lineOf, List.append_assoc, List.nil_append, List.cons_append]
    rw [shape, List.takeWhile_append_of_pos, List.takeWhile_cons_of_neg (by decide),
      List.append_nil]
    intro char member
    rcases List.mem_append.mp member with inName | inRest
    · exact plain_kept (plain.name char inName)
    · rcases List.mem_cons.mp inRest with isColon | inKey
      · rw [isColon]
        rfl
      · exact plain_kept (plain.key char inKey)
  have notName : ∀ other ∈ save.1.bytes, (other == 58) = false := by
    intro other member
    apply beq_eq_false_iff_ne.mpr
    intro same
    exact absurd (by decide) (plain.name 58 (same ▸ member))
  have colon := findIdx?_append_cons save.2.bytes notName (beq_self_eq_true (58 : UInt8))
  have nameEq : (save.1.bytes ++ 58 :: save.2.bytes).take save.1.bytes.length = save.1.bytes :=
    List.take_left ..
  have keyEq : (save.1.bytes ++ 58 :: save.2.bytes).drop (save.1.bytes.length + 1) =
      save.2.bytes := by
    rw [List.drop_append, List.drop_of_length_le (by omega), Nat.add_sub_cancel_left]
    rfl
  simp only [OriginDb.authEntryOfLine, text, colon, nameEq, keyEq]
  rfl

theorem readAuthEntries_linesOf {entries : List (CString × CString)}
    (plain : ∀ save ∈ entries, PlainSave save) {fuel room : Nat}
    (enough : (linesOf entries).length ≤ fuel) :
    readAuthEntries fuel room (linesOf entries) = (entries.take room).map entryOf := by
  induction entries generalizing fuel room with
  | nil => cases fuel <;> cases room <;> rfl
  | cons save rest ih =>
      have plainSave := plain save (List.mem_cons_self ..)
      have plainRest : ∀ other ∈ rest, PlainSave other := fun other member =>
        plain other (List.mem_cons_of_mem _ member)
      have positive := length_lineOf_pos save
      rw [linesOf, List.flatMap_cons, List.length_append] at enough
      cases fuel with
      | zero => omega
      | succ fuel =>
          cases room with
          | zero => rfl
          | succ room =>
              have read : readAuthEntries fuel room (linesOf rest) =
                  (rest.take room).map entryOf := by
                apply ih plainRest
                unfold linesOf
                omega
              rw [linesOf, List.flatMap_cons, readAuthEntries,
                if_neg (lineOf_append_ne_nil _ _), plainSave.fgets]
              dsimp only
              rw [plainSave.authEntryOfLine, List.take_succ_cons, List.map_cons, ← read]
              rfl

theorem loadAuthCache_saveAll {saves : List (CString × CString)}
    (plain : ∀ save ∈ saves, PlainSave save) :
    loadAuthCache (saveAll saves) [] = ((LatestBindings.latest saves).take 128).map entryOf := by
  have plainLatest : ∀ save ∈ LatestBindings.latest saves, PlainSave save :=
    fun save member => plain save (LatestBindings.mem_of_mem_latest member)
  have read : loadAuthCache (saveAll saves) [] =
      readAuthEntries ((saveAll saves).getD []).length 128 ((saveAll saves).getD []) := by
    cases saveAll saves with
    | none => rfl
    | some file => rfl
  rw [read, saveAll_linesOf plain, readAuthEntries_linesOf plainLatest (Nat.le_refl _)]

/-- Looking a name up in the cache is looking it up among the last saves. -/
theorem verifyApiKey_entries {entries : List (CString × CString)}
    (plain : ∀ save ∈ entries, PlainSave save)
    (distinct : (entries.map Prod.fst).Nodup) (dbName : CString) (providedKey : List UInt8) :
    verifyApiKey (entries.map entryOf) dbName providedKey = true ↔
      ∃ apiKey, (dbName, apiKey) ∈ entries ∧ apiKey.bytes = providedKey := by
  have names : ∀ save ∈ entries,
      ((entryOf save).dbName == dbName.bytes) = decide (save.1 = dbName) := by
    intro save member
    have whole : (entryOf save).dbName = save.1.bytes :=
      List.take_of_length_le (plain save member).nameLength
    rw [whole, Bool.eq_iff_iff, beq_iff_eq, decide_eq_true_eq]
    exact ⟨CString.eq_of_bytes, congrArg CString.bytes⟩
  have looked : (entries.map entryOf).find? (fun entry => entry.dbName == dbName.bytes) =
      (entries.find? fun save => save.1 = dbName).map entryOf := by
    rw [List.find?_map]
    congr 1
    exact List.find?_congr names
  unfold verifyApiKey
  rw [looked]
  cases found : entries.find? fun save => save.1 = dbName with
  | none =>
      constructor
      · intro impossible
        cases impossible
      · intro saved
        rcases saved with ⟨apiKey, member, -⟩
        have missing := List.find?_eq_none.mp found (dbName, apiKey) member
        exact absurd (decide_eq_true rfl) missing
  | some save =>
      have named := List.find?_some found
      have nameEq : save.1 = dbName := of_decide_eq_true named
      have member := List.mem_of_find?_eq_some found
      subst nameEq
      have whole : (entryOf save).apiKey = save.2.bytes :=
        List.take_of_length_le (Nat.le_of_eq (plain save member).keyLength)
      rw [Option.map_some]
      dsimp only
      rw [whole, beq_iff_eq]
      constructor
      · intro same
        exact ⟨save.2, member, same⟩
      · intro saved
        rcases saved with ⟨apiKey, memberKey, same⟩
        have unique := (LatestBindings.find?_key_eq_some_iff distinct save.1 apiKey).mpr memberKey
        rw [found] at unique
        rw [← same, Option.some.inj unique]

/-- A key authenticates exactly if it is the latest key of the table and fewer
than 128 other tables have theirs before it in the file. -/
theorem verify_latest_keys (saves : List (CString × CString)) (dbName : CString)
    (providedKey : List UInt8) (valid : ∀ save ∈ saves, ValidSave save) :
    verifyApiKey (loadAuthCache (saveAll saves) []) dbName providedKey = true ↔
      IsLatestKey saves dbName providedKey := by
  have plain : ∀ save ∈ saves, PlainSave save := fun save member => (valid save member).plain
  have plainKept : ∀ save ∈ (LatestBindings.latest saves).take 128, PlainSave save :=
    fun save member => plain save (LatestBindings.mem_of_mem_latest (List.mem_of_mem_take member))
  have distinct : (((LatestBindings.latest saves).take 128).map Prod.fst).Nodup :=
    (LatestBindings.nodup_keys_latest saves).sublist ((List.take_sublist ..).map _)
  rw [loadAuthCache_saveAll plain, verifyApiKey_entries plainKept distinct]
  constructor
  · intro kept
    rcases kept with ⟨apiKey, member, same⟩
    obtain ⟨earlier, later, split, lastOne, within⟩ :=
      (LatestBindings.mem_take_latest_iff saves 128 dbName apiKey).mp member
    exact ⟨earlier, apiKey, later, split, lastOne, same, within⟩
  · intro isLatest
    rcases isLatest with ⟨earlier, apiKey, later, split, lastOne, same, within⟩
    exact ⟨apiKey, (LatestBindings.mem_take_latest_iff saves 128 dbName apiKey).mpr
      ⟨earlier, later, split, lastOne, within⟩, same⟩

/-! ### Few tables and many -/

def tableName (name : String) : CString := CString.ofBytes (asciiBytes name)

def sampleKey (digit : UInt8) : CString := CString.ofBytes (List.replicate 64 digit)

/-- A table, another whose name begins with that name, and the first once more. -/
def resavedKeys : List (CString × CString) :=
  [(tableName "movies", sampleKey 97), (tableName "movies2", sampleKey 98),
    (tableName "movies", sampleKey 99)]

/-- 129 tables, the names of two letters. -/
def manyTables : List (CString × CString) :=
  (List.range 129).map fun index =>
    (CString.ofBytes [UInt8.ofNat (97 + index / 26), UInt8.ofNat (97 + index % 26)],
      sampleKey 97)

theorem verify_resaved_key :
    verifyApiKey (loadAuthCache (saveAll resavedKeys) []) (tableName "movies")
        (sampleKey 99).bytes = true ↔
      IsLatestKey resavedKeys (tableName "movies") (sampleKey 99).bytes :=
  verify_latest_keys resavedKeys (tableName "movies") (sampleKey 99).bytes (by decide +kernel)

/-- The key of the table that was saved last is refused once 128 others have one. -/
theorem key_of_129th_table_refused :
    (∀ save ∈ manyTables, ValidSave save) ∧
      ∃ earlier dbName apiKey, manyTables = earlier ++ [(dbName, apiKey)] ∧
        verifyApiKey (loadAuthCache (saveAll manyTables) []) dbName apiKey.bytes = false := by
  have valid : ∀ save ∈ manyTables, ValidSave save := by decide +kernel
  constructor
  · exact valid
  · refine ⟨manyTables.take 128, CString.ofBytes [101, 121], sampleKey 97, by decide +kernel, ?_⟩
    rw [loadAuthCache_saveAll fun save member => (valid save member).plain]
    decide +kernel

end OriginDb
