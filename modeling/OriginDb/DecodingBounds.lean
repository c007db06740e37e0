/-
What the bounds checks of the decoders are worth.

`storage_load_record` and `storage_fetch_by_offset` compare one wrapping sum
with the file size.  The sum contains the length field of the record, which is
whatever the file says.  As long as it does not wrap, a record that passes lies
inside the file and the cursor moves over it; where it wraps the check passes
for a record that ends beyond the file, and the cursor may stay or go back.
-/

import OriginDb.Db
import OriginDb.RecordScan

namespace OriginDb

open Foundation

variable {dimension : UInt64} {data : List UInt8} {storage : Storage}

/-! ### The checks -/

/-- The checks that both decoders make before they decode a record. -/
def Accepts (data : List UInt8) (storage : Storage) (dimension position : UInt64) : Prop :=
  storage.mmapData ≠ none ∧ position < storage.fileSize ∧
    position + recordHeaderBytes ≤ storage.fileSize ∧
      position + recordPaddedSize dimension (u64At data (position.toNat + 16)) ≤ storage.fileSize

instance (position : UInt64) : Decidable (Accepts data storage dimension position) :=
  inferInstanceAs (Decidable (_ ∧ _))

/-- The end of the record that a decoder finds at a position, before its padding. -/
def recordEnd (dimension : UInt64) (data : List UInt8) (position : Nat) : Nat :=
  position + 24 + 4 * dimension.toNat + (u64At data (position + 16)).toNat

/-- The size and the position of a stream are values of `long`. -/
structure Storage.InRange (storage : Storage) : Prop where
  size : storage.fileSize.toNat < 2 ^ 63
  cursor : ∀ position ∈ storage.fp, position < 2 ^ 63

theorem storageFetchByOffset_of_accepts {byteOffset : UInt64} {mapping : Nat} (record : Record)
    (mapped : storage.mmapData = some mapping)
    (accepts : Accepts data storage dimension byteOffset) :
    storageFetchByOffset data storage byteOffset record dimension =
      .ok (decodeFields data mapping byteOffset.toNat dimension record) := by
  obtain ⟨-, inside, headerIn, recordIn⟩ := accepts
  simp only [storageFetchByOffset, mapped, if_neg (UInt64.not_le.mpr inside),
    if_neg (UInt64.not_lt.mpr headerIn), if_neg (UInt64.not_lt.mpr recordIn)]

theorem storageFetchByOffset_of_refused {byteOffset : UInt64} (record : Record)
    (refused : ¬Accepts data storage dimension byteOffset) :
    storageFetchByOffset data storage byteOffset record dimension = .error (-1) := by
  unfold storageFetchByOffset
  cases mapped : storage.mmapData with
  | none => rfl
  | some mapping =>
      dsimp only
      split
      · rfl
      · rename_i inside
        split
        · rfl
        · rename_i headerIn
          split
          · rfl
          · rename_i recordIn
            refine absurd ⟨?_, UInt64.not_le.mp inside, UInt64.not_lt.mp headerIn,
              UInt64.not_lt.mp recordIn⟩ refused
            rw [mapped]
            exact Option.some_ne_none mapping

section Load

variable {position : Nat}

theorem storageLoadRecord_of_accepts {mapping : Nat} (mapped : storage.mmapData = some mapping)
    (cursor : storage.fp = some position) (inRange : position < 2 ^ 64)
    (accepts : Accepts data storage dimension (UInt64.ofNat position)) :
    storageLoadRecord data storage dimension =
      (.ok
        { decodeFields data mapping position dimension Record.blank with
          byteOffset := UInt64.ofNat position
          isMmap := true },
        storage.seekSet
          (position + asLong (recordPaddedSize dimension (u64At data (position + 16))))) := by
  have positionEq : (UInt64.ofNat position).toNat = position :=
    UInt64.toNat_ofNat_of_lt' inRange
  obtain ⟨-, inside, headerIn, recordIn⟩ := accepts
  rw [positionEq] at recordIn
  simp only [storageLoadRecord, mapped, cursor, if_neg (UInt64.not_le.mpr inside),
    if_neg (UInt64.not_lt.mpr headerIn), if_neg (UInt64.not_lt.mpr recordIn)]

theorem storageLoadRecord_of_refused (cursor : storage.fp = some position)
    (inRange : position < 2 ^ 64)
    (refused : ¬Accepts data storage dimension (UInt64.ofNat position)) :
    storageLoadRecord data storage dimension =
      (.error (if storage.mmapData = none then -1 else 0), storage) := by
  have positionEq : (UInt64.ofNat position).toNat = position :=
    UInt64.toNat_ofNat_of_lt' inRange
  unfold storageLoadRecord
  rw [cursor]
  cases mapped : storage.mmapData with
  | none => rfl
  | some mapping =>
      rw [if_neg (Option.some_ne_none mapping)]
      dsimp only
      split
      · rfl
      · rename_i inside
        split
        · rfl
        · rename_i headerIn
          split
          · rfl
          · rename_i recordIn
            refine absurd ⟨?_, UInt64.not_le.mp inside, UInt64.not_lt.mp headerIn, ?_⟩ refused
            · rw [mapped]
              exact Option.some_ne_none mapping
            · rw [positionEq]
              exact UInt64.not_lt.mp recordIn

/-- A call that returns 1 has passed the checks; what it returns, and where it leaves the
cursor. -/
theorem storageLoadRecord_loaded {record : Record} {next : Storage}
    (cursor : storage.fp = some position) (inRange : position < 2 ^ 64)
    (loaded : storageLoadRecord data storage dimension = (.ok record, next)) :
    Accepts data storage dimension (UInt64.ofNat position) ∧
      ∃ mapping, storage.mmapData = some mapping ∧
        record =
          { decodeFields data mapping position dimension Record.blank with
            byteOffset := UInt64.ofNat position
            isMmap := true } ∧
        next = storage.seekSet
          (position + asLong (recordPaddedSize dimension (u64At data (position + 16)))) := by
  by_cases accepts : Accepts data storage dimension (UInt64.ofNat position)
  · obtain ⟨mapping, mapped⟩ := Option.ne_none_iff_exists'.mp accepts.1
    rw [storageLoadRecord_of_accepts mapped cursor inRange accepts] at loaded
    cases loaded
    exact ⟨accepts, mapping, mapped, rfl, rfl⟩
  · rw [storageLoadRecord_of_refused cursor inRange accepts] at loaded
    cases loaded

end Load

/-! ### Reading inside the file -/

def FetchesInside (data : List UInt8) (storage : Storage) (dimension position : UInt64) : Prop :=
  ∀ target record, storageFetchByOffset data storage position target dimension = .ok record →
    recordEnd dimension data position.toNat ≤ storage.fileSize.toNat

/-- The same of `storage_load_record`, called with the cursor at the position. -/
def LoadsInside (data : List UInt8) (storage : Storage) (dimension position : UInt64) : Prop :=
  ∀ record next,
    storageLoadRecord data { storage with fp := some position.toNat } dimension =
        (.ok record, next) →
      recordEnd dimension data position.toNat ≤ storage.fileSize.toNat

/-- The sums of the checks do not wrap where they accept a record. -/
def SumsFit (data : List UInt8) (storage : Storage) (dimension position : UInt64) : Prop :=
  Accepts data storage dimension position →
    recordEnd dimension data position.toNat + 7 < 2 ^ 64

instance (position : UInt64) : Decidable (SumsFit data storage dimension position) :=
  inferInstanceAs (Decidable (_ → _))

/-- Without wrapping the checks compare the true end of the padded record. -/
theorem Accepts.inside {position : UInt64} (accepts : Accepts data storage dimension position)
    (fits : recordEnd dimension data position.toNat + 7 < 2 ^ 64) :
    let padded := recordPaddedSize dimension (u64At data (position.toNat + 16))
    recordEnd dimension data position.toNat ≤ position.toNat + padded.toNat ∧
      position.toNat + padded.toNat ≤ storage.fileSize.toNat := by
  intro padded
  unfold recordEnd at fits ⊢
  have paddedEq : padded.toNat = _ := recordPaddedSize_of_small dimension _ (by omega)
  obtain ⟨-, -, -, whole⟩ := accepts
  rw [UInt64.le_iff_toNat_le, UInt64.toNat_add] at whole
  change (position.toNat + padded.toNat) % 2 ^ 64 ≤ _ at whole
  omega

/-- A call whose sizes do not wrap moves the cursor over the record it returns. -/
theorem storageLoadRecord_moves {position : Nat} {record : Record} {next : Storage}
    (cursor : storage.fp = some position) (inRange : position < 2 ^ 64)
    (small : storage.fileSize.toNat < 2 ^ 63)
    (loaded : storageLoadRecord data storage dimension = (.ok record, next))
    (fits : recordEnd dimension data record.byteOffset.toNat + 7 < 2 ^ 64) :
    record.byteOffset.toNat = position ∧
      (∃ mapping, storage.mmapData = some mapping ∧
        record.vector = .mapped mapping (position + 24)) ∧
        ∃ after, next = { storage with fp := some after } ∧
          recordEnd dimension data position ≤ after ∧ after ≤ storage.fileSize.toNat := by
  have positionEq : (UInt64.ofNat position).toNat = position :=
    UInt64.toNat_ofNat_of_lt' inRange
  obtain ⟨accepts, mapping, mapped, rfl, rfl⟩ :=
    storageLoadRecord_loaded cursor inRange loaded
  obtain ⟨endLe, paddedLe⟩ := accepts.inside fits
  rw [positionEq] at endLe paddedLe
  refine ⟨positionEq, ⟨mapping, mapped, rfl⟩, _, ?_, endLe, paddedLe⟩
  rw [asLong_of_small (by omega), Storage.seekSet, if_pos (by omega)]
  rfl

theorem decoding_inside_iff (data : List UInt8) (dimension position : UInt64)
    (small : storage.fileSize.toNat < 2 ^ 63) :
    (FetchesInside data storage dimension position ↔ SumsFit data storage dimension position) ∧
      (LoadsInside data storage dimension position ↔ SumsFit data storage dimension position) := by
  have ofInside : recordEnd dimension data position.toNat ≤ storage.fileSize.toNat →
      recordEnd dimension data position.toNat + 7 < 2 ^ 64 := by
    intro inside
    omega
  have inside : SumsFit data storage dimension position →
      Accepts data storage dimension position →
        recordEnd dimension data position.toNat ≤ storage.fileSize.toNat := by
    intro fits accepts
    obtain ⟨endLe, paddedLe⟩ := accepts.inside (fits accepts)
    exact Nat.le_trans endLe paddedLe
  have positionEq : UInt64.ofNat position.toNat = position := UInt64.ofNat_toNat
  have atCursor : ∀ {accepted : Accepts data storage dimension position},
      Accepts data { storage with fp := some position.toNat } dimension
        (UInt64.ofNat position.toNat) := by
    intro accepted
    rw [positionEq]
    exact accepted
  constructor
  · constructor
    · intro fetches accepts
      obtain ⟨mapping, mapped⟩ := Option.ne_none_iff_exists'.mp accepts.1
      exact ofInside (fetches Record.blank _
        (storageFetchByOffset_of_accepts Record.blank mapped accepts))
    · intro fits target record fetched
      apply inside fits
      by_contra refused
      rw [storageFetchByOffset_of_refused target refused] at fetched
      cases fetched
  · constructor
    · intro loads accepts
      obtain ⟨mapping, mapped⟩ := Option.ne_none_iff_exists'.mp accepts.1
      exact ofInside (loads _ _
        (storageLoadRecord_of_accepts mapped rfl position.toNat_lt (@atCursor accepts)))
    · intro fits record next loaded
      have accepts := (storageLoadRecord_loaded rfl position.toNat_lt loaded).1
      rw [positionEq] at accepts
      exact inside fits accepts

theorem decoding_inside_sample :
    FetchesInside sampleRecord.encode (Storage.openAt sampleRecord.encode 0) 1 0 ∧
      LoadsInside sampleRecord.encode (Storage.openAt sampleRecord.encode 0) 1 0 := by
  have both := decoding_inside_iff sampleRecord.encode 1 0
    (by decide : (Storage.openAt sampleRecord.encode 0).fileSize.toNat < 2 ^ 63)
  exact ⟨both.1.mpr (by decide +kernel), both.2.mpr (by decide +kernel)⟩

/-- A file of 32 bytes whose length field makes the padded size wrap to 0. -/
def wrappedFile : List UInt8 :=
  LittleEndian.encode 8 7 ++ LittleEndian.encode 8 0 ++ LittleEndian.encode 8 (2 ^ 64 - 35) ++
    LittleEndian.encode 8 1065353216

theorem wrapped_length_read_outside :
    recordEnd 1 wrappedFile 0 = 2 ^ 64 - 7 ∧
      ¬FetchesInside wrappedFile (Storage.openAt wrappedFile 0) 1 0 ∧
        ¬LoadsInside wrappedFile (Storage.openAt wrappedFile 0) 1 0 := by
  have accepts : Accepts wrappedFile (Storage.openAt wrappedFile 0) 1 0 := by decide +kernel
  have endEq : recordEnd 1 wrappedFile 0 = 2 ^ 64 - 7 := by decide +kernel
  have outside : ¬recordEnd 1 wrappedFile 0 ≤
      (Storage.openAt wrappedFile 0).fileSize.toNat := by decide +kernel
  refine ⟨endEq, ?_, ?_⟩
  · intro fetches
    exact outside (fetches Record.blank _
      (storageFetchByOffset_of_accepts Record.blank rfl accepts))
  · intro loads
    exact outside (loads _ _ (storageLoadRecord_of_accepts rfl rfl (by decide) accepts))

/-! ### Loading to the end -/

/-- The handle after `count` calls of `storage_load_record` that all return 1. -/
def afterLoads (data : List UInt8) (dimension : UInt64) : Nat → Storage → Option Storage
  | 0, storage => some storage
  | count + 1, storage =>
      match storageLoadRecord data storage dimension with
      | (.error _, _) => none
      | (.ok _, next) => afterLoads data dimension count next

/-- A call that returns 1 moves the cursor by at least 24 bytes, inside the file. -/
def MovesForward (data : List UInt8) (dimension : UInt64) (storage : Storage) : Prop :=
  ∀ record next, storageLoadRecord data storage dimension = (.ok record, next) →
    ∃ before after, storage.fp = some before ∧ next.fp = some after ∧ before + 24 ≤ after ∧
      after ≤ storage.fileSize.toNat

/-- Loading from the handle's cursor on: every call that returns 1 moves forward, and
both the plain repetition and the loop of `db_init` end in time. -/
structure LoadingEnds (data : List UInt8) (dimension : UInt64) (storage : Storage) : Prop where
  forward : ∀ count handle, afterLoads data dimension count storage = some handle →
    MovesForward data dimension handle
  repetition : ∃ records code final,
    records.length ≤ storage.fileSize.toNat / 24 ∧
      ∀ fuel, records.length < fuel →
        loadAll data dimension fuel storage = some (records, code, final)
  initLoop : ∀ db : FlatDb, db.dimension = dimension → db.storage = storage →
    ∀ fuel, storage.fileSize.toNat / 24 < fuel →
      loadRecords data fuel db = loadRecords data (storage.fileSize.toNat / 24 + 1) db

/-- The padded size of the next record is that of a record and fits in a `long`. -/
def PaddedInRange (data : List UInt8) (dimension : UInt64) (storage : Storage) : Prop :=
  ∀ position ∈ storage.fp, Accepts data storage dimension (UInt64.ofNat position) →
    24 ≤ (recordPaddedSize dimension (u64At data (position + 16))).toNat ∧
      (recordPaddedSize dimension (u64At data (position + 16))).toNat < 2 ^ 63

instance : Decidable (PaddedInRange data dimension storage) :=
  inferInstanceAs (Decidable (∀ _ ∈ _, _))

theorem asLong_of_large {value : UInt64} (large : ¬value.toNat < 2 ^ 63) : asLong value < 0 := by
  have bounded := value.toNat_lt
  rw [asLong, if_neg large]
  omega

/-- The cursor after a call that returns 1. -/
theorem seekSet_fp {position : Nat} (cursor : storage.fp = some position) (offset : Int) :
    (storage.seekSet (position + offset)).fp =
      some (if 0 ≤ position + offset then (position + offset).toNat else position) := by
  unfold Storage.seekSet
  split
  · rfl
  · exact cursor

theorem movesForward_iff (inRange : storage.InRange) :
    MovesForward data dimension storage ↔ PaddedInRange data dimension storage := by
  constructor
  · intro forward position cursor accepts
    have positionSmall := inRange.cursor position cursor
    obtain ⟨mapping, mapped⟩ := Option.ne_none_iff_exists'.mp accepts.1
    obtain ⟨before, after, beforeEq, afterEq, moved, -⟩ := forward _ _
      (storageLoadRecord_of_accepts mapped cursor (by omega) accepts)
    cases cursor.symm.trans beforeEq
    rw [seekSet_fp cursor] at afterEq
    have afterIs := Option.some.inj afterEq
    by_cases short : (recordPaddedSize dimension (u64At data (position + 16))).toNat < 2 ^ 63
    · rw [asLong_of_small short] at afterIs
      split at afterIs
      · exact ⟨by omega, short⟩
      · omega
    · have negative := asLong_of_large short
      split at afterIs <;> omega
  · intro padded record next loaded
    cases cursor : storage.fp with
    | none =>
        unfold storageLoadRecord at loaded
        rw [cursor] at loaded
        cases mapped : storage.mmapData with
        | none =>
            rw [mapped] at loaded
            cases loaded
        | some mapping =>
            rw [mapped] at loaded
            cases loaded
    | some position =>
        have positionSmall := inRange.cursor position cursor
        obtain ⟨accepts, mapping, mapped, rfl, rfl⟩ :=
          storageLoadRecord_loaded cursor (by omega) loaded
        obtain ⟨atLeast, short⟩ := padded position cursor accepts
        have whole := accepts.2.2.2
        have positionEq : (UInt64.ofNat position).toNat = position := by
          rw [UInt64.toNat_ofNat']
          omega
        rw [UInt64.le_iff_toNat_le, UInt64.toNat_add, positionEq] at whole
        refine ⟨position, _, rfl, seekSet_fp cursor _, ?_⟩
        rw [asLong_of_small short, if_pos (by omega)]
        constructor
        · omega
        · omega

/-! ### The whole run -/

/-- A call that moves forward leaves a handle in range on the same mapping. -/
theorem MovesForward.next {record : Record} {next : Storage}
    (forward : MovesForward data dimension storage) (inRange : storage.InRange)
    (loaded : storageLoadRecord data storage dimension = (.ok record, next)) :
    ∃ before after, storage.fp = some before ∧ next = { storage with fp := some after } ∧
      before + 24 ≤ after ∧ after ≤ storage.fileSize.toNat ∧ next.InRange := by
  obtain ⟨before, after, beforeEq, afterEq, moved, inside⟩ := forward record next loaded
  have nextEq : next = { storage with fp := some after } := by
    rcases storageLoadRecord_cases dimension data storage with
      ⟨code, -, stopped⟩ | ⟨other, position, called⟩
    · rw [stopped] at loaded
      cases loaded
    · rw [called] at loaded
      cases loaded
      cases afterEq
      rfl
  have size := inRange.size
  refine ⟨before, after, beforeEq, nextEq, moved, inside, ?_⟩
  rw [nextEq]
  refine ⟨size, ?_⟩
  intro position cursor
  cases cursor
  omega

theorem afterLoads_succ_iff {count : Nat} {handle : Storage} :
    afterLoads data dimension (count + 1) storage = some handle ↔
      ∃ record next, storageLoadRecord data storage dimension = (.ok record, next) ∧
        afterLoads data dimension count next = some handle := by
  rw [afterLoads]
  cases called : storageLoadRecord data storage dimension with
  | mk result next =>
      cases result with
      | error code =>
          refine iff_of_false ?_ ?_
          · intro impossible
            cases impossible
          · rintro ⟨record, other, impossible, -⟩
            cases impossible
      | ok record =>
          constructor
          · intro reached
            exact ⟨record, next, rfl, reached⟩
          · rintro ⟨other, moved, same, reached⟩
            cases same
            exact reached

section Run

variable (goesForward : ∀ count handle, afterLoads data dimension count storage = some handle →
  MovesForward data dimension handle)

include goesForward

theorem forward_after {record : Record} {next : Storage}
    (loaded : storageLoadRecord data storage dimension = (.ok record, next)) :
    ∀ count handle, afterLoads data dimension count next = some handle →
      MovesForward data dimension handle := by
  intro count handle reached
  exact goesForward (count + 1) handle (afterLoads_succ_iff.mpr ⟨record, next, loaded, reached⟩)

/-- Every record takes 24 bytes of what lies before the cursor; the induction is
on how much that is. -/
theorem loadAll_ends (room : Nat) (inRange : storage.InRange)
    (roomEq : ∀ position ∈ storage.fp, storage.fileSize.toNat - position ≤ room) :
    ∃ records code final, 24 * records.length ≤ room ∧
      ∀ fuel, records.length < fuel →
        loadAll data dimension fuel storage = some (records, code, final) := by
  induction room using Nat.strong_induction_on generalizing storage with
  | h room ih =>
      cases called : storageLoadRecord data storage dimension with
      | mk result next =>
          cases result with
          | error code =>
              refine ⟨[], code, next, Nat.zero_le _, ?_⟩
              intro fuel enough
              obtain ⟨fuel, rfl⟩ := Nat.exists_eq_succ_of_ne_zero (Nat.ne_of_gt enough)
              rw [loadAll, called]
          | ok record =>
              obtain ⟨before, after, beforeEq, nextEq, moved, inside, nextRange⟩ :=
                (goesForward 0 storage rfl).next inRange called
              have hereRoom := roomEq before beforeEq
              have laterRoom : ∀ position ∈ next.fp,
                  next.fileSize.toNat - position ≤ room - 24 := by
                intro position cursor
                rw [nextEq] at cursor ⊢
                cases cursor
                change storage.fileSize.toNat - after ≤ room - 24
                omega
              obtain ⟨records, code, final, count, ended⟩ := ih (room - 24) (by omega)
                (forward_after goesForward called) nextRange laterRoom
              refine ⟨record :: records, code, final, ?_, ?_⟩
              · rw [List.length_cons]
                omega
              · intro fuel enough
                obtain ⟨fuel, rfl⟩ :=
                  Nat.exists_eq_succ_of_ne_zero (Nat.ne_of_gt (Nat.zero_lt_of_lt enough))
                rw [List.length_cons] at enough
                rw [loadAll, called]
                dsimp only
                rw [ended fuel (by omega)]
                rfl

/-- The loop of `db_init` has ended when the bytes before the cursor are used up. -/
theorem loadRecords_ends (inRange : storage.InRange) {fuel enough : Nat} {db : FlatDb}
    (dimensionEq : db.dimension = dimension) (storageEq : db.storage = storage)
    (first : ∀ position ∈ storage.fp, storage.fileSize.toNat - position < 24 * fuel)
    (second : ∀ position ∈ storage.fp, storage.fileSize.toNat - position < 24 * enough)
    (positive : 0 < fuel ∧ 0 < enough) :
    loadRecords data fuel db = loadRecords data enough db := by
  induction fuel generalizing enough storage db with
  | zero => exact absurd positive.1 (Nat.lt_irrefl 0)
  | succ fuel ih =>
      obtain ⟨enough, rfl⟩ := Nat.exists_eq_succ_of_ne_zero (Nat.ne_of_gt positive.2)
      rw [loadRecords, loadRecords, dimensionEq, storageEq]
      cases called : storageLoadRecord data storage dimension with
      | mk result next =>
          cases result with
          | error code => rfl
          | ok record =>
              obtain ⟨before, after, beforeEq, nextEq, moved, inside, nextRange⟩ :=
                (goesForward 0 storage rfl).next inRange called
              have firstHere := first before beforeEq
              have secondHere := second before beforeEq
              have later : ∀ grown : FlatDb, grown.dimension = dimension → grown.storage = next →
                  loadRecords data fuel grown = loadRecords data enough grown := by
                intro grown sameDimension sameStorage
                refine ih (forward_after goesForward called) nextRange sameDimension sameStorage
                  ?_ ?_ ⟨by omega, by omega⟩
                · intro position cursor
                  rw [nextEq] at cursor ⊢
                  cases cursor
                  change storage.fileSize.toNat - after < 24 * fuel
                  omega
                · intro position cursor
                  rw [nextEq] at cursor ⊢
                  cases cursor
                  change storage.fileSize.toNat - after < 24 * enough
                  omega
              dsimp only
              generalize grownEq : (if db.records.length = db.capacity.toNat then _ else db) = grown
              have grownDimension : grown.dimension = dimension := by
                rw [← grownEq]
                split
                · rfl
                · exact dimensionEq
              split
              · exact later _ grownDimension rfl
              · rfl

end Run

/-- The handles of a run that goes forward are in range. -/
theorem afterLoads_inRange (inRange : storage.InRange)
    (goesForward : ∀ count handle, afterLoads data dimension count storage = some handle →
      MovesForward data dimension handle)
    (count : Nat) {handle : Storage}
    (reached : afterLoads data dimension count storage = some handle) : handle.InRange := by
  induction count generalizing storage with
  | zero =>
      cases reached
      exact inRange
  | succ count ih =>
      obtain ⟨record, next, called, later⟩ := afterLoads_succ_iff.mp reached
      obtain ⟨before, after, -, -, -, -, nextRange⟩ :=
        (goesForward 0 storage rfl).next inRange called
      exact ih nextRange (forward_after goesForward called) later

theorem goesForward_of_padded (inRange : storage.InRange)
    (padded : ∀ count handle, afterLoads data dimension count storage = some handle →
      PaddedInRange data dimension handle)
    (count : Nat) {handle : Storage}
    (reached : afterLoads data dimension count storage = some handle) :
    MovesForward data dimension handle := by
  induction count generalizing storage with
  | zero =>
      cases reached
      exact (movesForward_iff inRange).mpr (padded 0 handle rfl)
  | succ count ih =>
      have first := (movesForward_iff inRange).mpr (padded 0 storage rfl)
      obtain ⟨record, next, called, later⟩ := afterLoads_succ_iff.mp reached
      obtain ⟨before, after, -, -, -, -, nextRange⟩ := first.next inRange called
      refine ih nextRange ?_ later
      intro earlier other passed
      exact padded (earlier + 1) other
        (afterLoads_succ_iff.mpr ⟨record, next, called, passed⟩)

theorem openAt_inRange {data : List UInt8} (small : data.length < 2 ^ 63) {position : Nat}
    (positionSmall : position < 2 ^ 63) : (Storage.openAt data position).InRange := by
  refine ⟨by rw [openAt_fileSize small]; exact small, ?_⟩
  intro cursor found
  cases found
  exact positionSmall

end OriginDb
