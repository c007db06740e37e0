/-
The token of a request.

`authenticate_request` reads at most 64 bytes of a word, and its scan skips line
ends.  A longer token passes by its first 64 bytes, and a line without a token is
given the first word of what follows.
-/

import OriginDb.Foundation.Words
import OriginDb.HeaderDecisions

namespace OriginDb

open Foundation

/-- The line that starts here, without its line end. -/
def bearerLine (text : List UInt8) : List UInt8 := text.takeWhile fun char => char != 10

/-- The first word of the line behind `Authorization: Bearer `. -/
def lineToken (rest : List UInt8) : List UInt8 := Words.word isspace (bearerLine rest)

/-- The header text has one such line, and `rest` is what stands behind the words. -/
structure SingleBearer (header rest : List UInt8) : Prop where
  stands : ∃ before, header = before ++ authorizationText ++ rest
  single : ∀ before other, header = before ++ authorizationText ++ other → other = rest

/-- `authenticate_request` accepts exactly when the whole token on the line is the key of
the first entry of the table. -/
def ComparesWholeToken (authCache : List AuthEntry) (header dbName : CString)
    (rest : List UInt8) : Prop :=
  authenticateRequest authCache header dbName = true ↔
    ∃ entry, authCache.find? (fun entry => entry.dbName == dbName.bytes) = some entry ∧
      lineToken rest = entry.apiKey

/-- The word that is read, line ends skipped, starts with the key only if it is no longer
than a key and does not come from a later line. -/
def TokenInPlace (authCache : List AuthEntry) (dbName : CString) (rest : List UInt8) : Prop :=
  ∀ entry, authCache.find? (fun entry => entry.dbName == dbName.bytes) = some entry →
    entry.apiKey <+: Words.word isspace rest →
      (Words.word isspace rest).length ≤ 64 ∧ ∃ char ∈ bearerLine rest, isspace char = false

theorem strstr_of_occurs (before needle rest : List UInt8) :
    (strstr (before ++ needle ++ rest) needle).isSome = true := by
  induction before with
  | nil =>
      rw [List.nil_append]
      have here : needle.isPrefixOf (needle ++ rest) = true :=
        List.isPrefixOf_iff_prefix.mpr (List.prefix_append needle rest)
      cases textEq : needle ++ rest with
      | nil =>
          rw [strstr, if_pos (List.append_eq_nil_iff.mp textEq).1]
          rfl
      | cons char text =>
          rw [textEq] at here
          rw [strstr, if_pos here]
          rfl
  | cons char before ih =>
      rw [List.cons_append, List.cons_append, strstr]
      split
      · rfl
      · exact ih

theorem strstr_eq_some_prefix {text needle found : List UInt8}
    (searched : strstr text needle = some found) : needle <+: found := by
  induction text with
  | nil =>
      rw [strstr] at searched
      split at searched
      · rename_i empty
        rw [empty]
        exact List.nil_prefix
      · cases searched
  | cons char rest ih =>
      rw [strstr] at searched
      split at searched
      · rename_i here
        rw [← Option.some.inj searched]
        exact List.isPrefixOf_iff_prefix.mp here
      · exact ih searched

theorem strstr_of_single {header rest : List UInt8} (bearer : SingleBearer header rest) :
    strstr header authorizationText = some (authorizationText ++ rest) := by
  obtain ⟨before, headerEq⟩ := bearer.stands
  have occurs := strstr_of_occurs before authorizationText rest
  rw [← headerEq] at occurs
  obtain ⟨found, searched⟩ := Option.isSome_iff_exists.mp occurs
  have searchedAlso := searched
  rw [strstr_eq_search] at searchedAlso
  obtain ⟨-, earlier, suffix⟩ := TextSearch.search_eq_some searchedAlso
  obtain ⟨other, foundEq⟩ := strstr_eq_some_prefix searched
  have headerSplit : header = earlier ++ authorizationText ++ other := by
    rw [← suffix, ← foundEq, List.append_assoc]
  rw [searched, ← foundEq, bearer.single earlier other headerSplit]

theorem authenticateRequest_of_single (authCache : List AuthEntry) {header : CString}
    (dbName : CString) {rest : List UInt8} (bearer : SingleBearer header.bytes rest) :
    authenticateRequest authCache header dbName =
      verifyApiKey authCache dbName ((Words.word isspace rest).take 64) := by
  rw [authenticateRequest_eq, bearerToken, strstr_of_single bearer]
  rfl

theorem verifyApiKey_eq_true_iff (authCache : List AuthEntry) (dbName : CString)
    (provided : List UInt8) :
    verifyApiKey authCache dbName provided = true ↔
      ∃ entry, authCache.find? (fun entry => entry.dbName == dbName.bytes) = some entry ∧
        entry.apiKey = provided := by
  unfold verifyApiKey
  cases authCache.find? fun entry => entry.dbName == dbName.bytes with
  | none => exact ⟨fun accepted => Bool.noConfusion accepted, fun ⟨_, found, _⟩ => nomatch found⟩
  | some entry =>
      dsimp only
      rw [beq_iff_eq]
      constructor
      · exact fun same => ⟨entry, rfl, same⟩
      · rintro ⟨other, found, same⟩
        rw [Option.some.inj found]
        exact same

/-- On a line with a token the scan finds it. -/
theorem word_eq_lineToken {rest : List UInt8} (token : lineToken rest ≠ []) :
    Words.word isspace rest = lineToken rest := by
  have split : rest = bearerLine rest ++ rest.dropWhile fun char => char != 10 :=
    List.takeWhile_append_dropWhile.symm
  have ended : ∀ char ∈ (rest.dropWhile fun char => char != 10).head?, isspace char = true := by
    intro char first
    have stopped := List.head?_dropWhile_not (fun char => char != 10) rest
    rw [first] at stopped
    have newline : char = 10 := by simpa using stopped
    rw [newline]
    rfl
  calc Words.word isspace rest
      = Words.word isspace (bearerLine rest ++ rest.dropWhile fun char => char != 10) := by
        rw [← split]
    _ = lineToken rest := Words.word_append isspace _ token ended

theorem lineToken_ne_nil_iff {rest : List UInt8} :
    lineToken rest ≠ [] ↔ ∃ char ∈ bearerLine rest, isspace char = false := by
  rw [lineToken, ne_eq, Words.word_eq_nil_iff]
  constructor
  · intro notAll
    by_contra none
    apply notAll
    intro char member
    by_contra solid
    exact none ⟨char, member, Bool.eq_false_iff.mpr solid⟩
  · rintro ⟨char, member, solid⟩ all
    exact Bool.false_ne_true (solid.symm.trans (all char member))

/-- The whole token is compared exactly when the word that is read is in its place. -/
theorem whole_token_compared_iff {authCache : List AuthEntry}
    (keys : ∀ entry ∈ authCache, entry.apiKey.length = 64) {header : CString} (dbName : CString)
    {rest : List UInt8} (bearer : SingleBearer header.bytes rest) :
    ComparesWholeToken authCache header dbName rest ↔ TokenInPlace authCache dbName rest := by
  let first := authCache.find? fun entry => entry.dbName == dbName.bytes
  let word := Words.word isspace rest
  have keyLength : ∀ entry, first = some entry → entry.apiKey.length = 64 :=
    fun entry found => keys entry (List.mem_of_find?_eq_some found)
  have notEmpty : ∀ entry, first = some entry → entry.apiKey ≠ [] := by
    intro entry found empty
    have lengthEq := keyLength entry found
    rw [empty] at lengthEq
    cases lengthEq
  have accepted : authenticateRequest authCache header dbName = true ↔
      ∃ entry, first = some entry ∧ entry.apiKey <+: word := by
    rw [authenticateRequest_of_single authCache dbName bearer, verifyApiKey_eq_true_iff]
    constructor
    · rintro ⟨entry, found, same⟩
      exact ⟨entry, found, same ▸ List.take_prefix 64 word⟩
    · rintro ⟨entry, found, starts⟩
      exact ⟨entry, found, keyLength entry found ▸ List.prefix_iff_eq_take.mp starts⟩
  unfold ComparesWholeToken TokenInPlace
  rw [accepted]
  constructor
  · intro compares entry found starts
    obtain ⟨other, otherFound, whole⟩ := compares.mp ⟨entry, found, starts⟩
    have token : lineToken rest ≠ [] := whole ▸ notEmpty other otherFound
    constructor
    · rw [word_eq_lineToken token, whole, keyLength other otherFound]
    · exact lineToken_ne_nil_iff.mp token
  · intro inPlace
    constructor
    · rintro ⟨entry, found, starts⟩
      obtain ⟨short, onLine⟩ := inPlace entry found starts
      have wordEq := word_eq_lineToken (lineToken_ne_nil_iff.mpr onLine)
      have same : entry.apiKey = word :=
        starts.eq_of_length_le ((keyLength entry found).symm ▸ short)
      exact ⟨entry, found, wordEq.symm.trans same.symm⟩
    · rintro ⟨entry, found, whole⟩
      have token : lineToken rest ≠ [] := whole ▸ notEmpty entry found
      have wordEq := word_eq_lineToken token
      exact ⟨entry, found, (wordEq.trans whole).symm ▸ List.prefix_refl _⟩

/-! ### Two requests -/

theorem authorizationText_length : authorizationText.length = 22 := by decide

theorem singleBearer_of_positions {header : List UInt8} {position : Nat}
    (inside : position < header.length)
    (only : ∀ index, index < header.length →
      (authorizationText.isPrefixOf (header.drop index) = true ↔ index = position)) :
    SingleBearer header (header.drop (position + 22)) where
  stands := by
    obtain ⟨rest, split⟩ := List.isPrefixOf_iff_prefix.mp ((only position inside).mpr rfl)
    have restEq : header.drop (position + 22) = rest := by
      rw [← List.drop_drop, ← split]
      exact List.drop_left' authorizationText_length
    apply Exists.intro (header.take position)
    rw [restEq, List.append_assoc, split, List.take_append_drop]
  single := by
    intro before other split
    have beforeInside : before.length < header.length := by
      have lengths := congrArg List.length split
      rw [List.length_append, List.length_append, authorizationText_length] at lengths
      omega
    have dropped : header.drop before.length = authorizationText ++ other := by
      rw [split, List.append_assoc]
      exact List.drop_left
    have here := (only before.length beforeInside).mp
      (List.isPrefixOf_iff_prefix.mpr (dropped ▸ List.prefix_append _ _))
    rw [← here, ← List.drop_drop, dropped]
    exact (List.drop_left' authorizationText_length).symm

def keyOfA : List UInt8 := List.replicate 64 97

def keyCache : List AuthEntry :=
  [{ dbName := asciiBytes "movies"
     apiKey := keyOfA
     dbNameFits := by decide
     apiKeyFits := by decide }]

def bearerTable : CString where
  bytes := asciiBytes "movies"
  nulFree := by decide

def requestHeader (count : Nat) : List UInt8 :=
  asciiBytes "POST /search" ++ [13, 10] ++ authorizationText ++ List.replicate count 97 ++
    [13, 10, 13, 10]

def keyHeader : CString := ⟨requestHeader 64, by decide⟩

def longHeader : CString := ⟨requestHeader 65, by decide⟩

theorem keyHeader_single : SingleBearer keyHeader.bytes (keyHeader.bytes.drop 36) :=
  singleBearer_of_positions (by decide) (by decide)

theorem longHeader_single : SingleBearer longHeader.bytes (longHeader.bytes.drop 36) :=
  singleBearer_of_positions (by decide) (by decide)

theorem keyCache_keys : ∀ entry ∈ keyCache, entry.apiKey.length = 64 := by decide

theorem whole_token_compared_on_key :
    ComparesWholeToken keyCache keyHeader bearerTable (keyHeader.bytes.drop 36) :=
  (whole_token_compared_iff keyCache_keys bearerTable keyHeader_single).mpr
    fun _ _ _ => ⟨by decide, by decide⟩

/-- A token of 65 bytes whose first 64 are the key is accepted. -/
theorem longer_token_accepted :
    ¬∀ (authCache : List AuthEntry) (header dbName : CString) (rest : List UInt8),
      (∀ entry ∈ authCache, entry.apiKey.length = 64) → SingleBearer header.bytes rest →
        ComparesWholeToken authCache header dbName rest := by
  intro claimed
  have compares := claimed keyCache longHeader bearerTable _ keyCache_keys longHeader_single
  obtain ⟨entry, found, whole⟩ := compares.mp (by decide)
  have keyEq : entry.apiKey = keyOfA := by
    rw [← Option.some.inj found]
  rw [keyEq] at whole
  revert whole
  decide

end OriginDb
