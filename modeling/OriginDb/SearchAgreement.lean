/-
Probing every cluster agrees with the exhaustive search.

A table mirrors its data file when every record of the array is the record that
its frame on disk holds.  Deletes keep this up.  The probing search then meets
the frames of the records that were live at training, the exhaustive search the
array: with the deleted records left out these are the same records in another
order, and the order does not matter to the result array.
-/

import OriginDb.ClusterPartition
import OriginDb.ResultArray
import OriginDb.SyncWorker

namespace OriginDb

open Foundation

variable {dimension : UInt64}

/-! ### Records and their frames -/

/-- A record of the array and what its frame in the file holds. -/
abbrev Row (dimension : UInt64) := Record × StoredRecord dimension

/-- The record in memory equals the one on disk at its offset, where empty
metadata is read back as none. -/
structure OnDisk (data : List UInt8) (storage : Storage) (row : Row dimension) : Prop where
  frame : row.2.encode <+: data.drop row.1.byteOffset.toNat
  canonical : row.2.canon = row.2
  held : Holds storage row.1.byteOffset.toNat row.2 row.1

/-- Two frames at distinct offsets, neither inside the other. -/
def Apart (first second : Row dimension) : Prop :=
  first.1.byteOffset.toNat + first.2.encode.length ≤ second.1.byteOffset.toNat ∨
    second.1.byteOffset.toNat + second.2.encode.length ≤ first.1.byteOffset.toNat

/-- Every record of the array equals the one on disk, and the mapping covers
the file. -/
structure Mirrors (data : List UInt8) (db : FlatDb) (rows : List (Row dimension)) : Prop where
  dimensionEq : db.dimension = dimension
  recordsEq : db.records = rows.map Prod.fst
  onDisk : ∀ row ∈ rows, OnDisk data db.storage row
  apart : rows.Pairwise Apart
  mapped : db.storage.mmapData ≠ none
  covers : db.storage.fileSize.toNat = data.length
  small : data.length < 2 ^ 63

theorem split_of_frame {data : List UInt8} {stored : StoredRecord dimension} {position : Nat}
    (frame : stored.encode <+: data.drop position) :
    ∃ before after, data = before ++ stored.encode ++ after ∧ before.length = position := by
  rcases frame with ⟨after, dropped⟩
  have header := stored.header_le_encode
  have lengthEq := congrArg List.length dropped
  rw [List.length_append, List.length_drop] at lengthEq
  refine ⟨data.take position, after, ?_, List.length_take_of_le (by omega)⟩
  rw [List.append_assoc, dropped, List.take_append_drop]

theorem OnDisk.contents {data : List UInt8} {storage : Storage} {row : Row dimension}
    (onDisk : OnDisk data storage row) : row.1.contents data storage dimension = some row.2 := by
  obtain ⟨before, after, split, lengthEq⟩ := split_of_frame onDisk.frame
  rw [split]
  exact contents_of_holds before after row.2 row.2 storage row.1 rfl (lengthEq ▸ onDisk.held)

/-- A table that agrees with its file in every flag mirrors it, once the whole
file is mapped. -/
theorem Agrees.mirrors {data : List UInt8} {db : FlatDb} {stored : List (StoredRecord dimension)}
    (agrees : Agrees data db stored stored) (canonical : ∀ record ∈ stored, record.canon = record)
    (mapped : db.storage.mmapData ≠ none)
    (covers : db.storage.fileSize.toNat = data.length) :
    ∃ rows, Mirrors data db rows ∧ rows.map Prod.snd = stored := by
  have spaced : (recordCodec dimension).Spaced (fun record : Record => record.byteOffset.toNat)
      (fun item record => Holds db.storage record.byteOffset.toNat item record)
      ([] ++ (recordCodec dimension).encodeAll stored) 0 stored db.records :=
    FramedLog.Codec.Tracks.spaced agrees.tracks fun start item record held =>
      ⟨held.1.byteOffset, held.1.byteOffset ▸ held⟩
  rw [List.nil_append, ← agrees.file] at spaced
  obtain ⟨rows, recordsEq, storedEq, placed, ordered⟩ := spaced.pairs
  refine ⟨rows, ⟨agrees.dimensionEq, recordsEq.symm, ?_, ?_, mapped, covers, agrees.small⟩,
    storedEq⟩
  · intro row member
    obtain ⟨-, held, frame⟩ := placed row member
    have isStored : row.2 ∈ stored := storedEq ▸ List.mem_map_of_mem member
    exact ⟨frame, canonical row.2 isStored, held⟩
  · exact ordered.imp fun before => Or.inl before

/-- The record that the probing search makes of an offset, its vector followed. -/
def fetchStored (data : List UInt8) (storage : Storage) (dimension byteOffset : UInt64) :
    Option (StoredRecord dimension) :=
  match storageFetchByOffset data storage byteOffset Record.blank dimension with
  | .error _ => none
  | .ok record => record.contents data storage dimension

theorem fetchStored_eq_some {data : List UInt8} {storage : Storage} {byteOffset : UInt64}
    {stored : StoredRecord dimension}
    (found : fetchStored data storage dimension byteOffset = some stored) :
    ∃ record,
      storageFetchByOffset data storage byteOffset Record.blank dimension = .ok record ∧
        record.contents data storage dimension = some stored := by
  unfold fetchStored at found
  split at found
  · cases found
  · rename_i record fetched
    exact ⟨record, fetched, found⟩

/-- Fetching at the start of a frame inside the mapping gives its record. -/
theorem fetchStored_of_frame {data : List UInt8} {storage : Storage}
    {stored : StoredRecord dimension} {byteOffset : UInt64}
    (frame : stored.encode <+: data.drop byteOffset.toNat) (mapped : storage.mmapData ≠ none)
    (covered : byteOffset.toNat + stored.encode.length ≤ storage.fileSize.toNat)
    (mappedSmall : storage.fileSize.toNat < 2 ^ 63) (small : data.length < 2 ^ 63) :
    fetchStored data storage dimension byteOffset = some stored.canon := by
  obtain ⟨before, after, split, lengthEq⟩ := split_of_frame frame
  obtain ⟨mapping, mappedEq⟩ := Option.ne_none_iff_exists'.mp mapped
  have offsetEq : UInt64.ofNat before.length = byteOffset := by
    rw [lengthEq, UInt64.ofNat_toNat]
  have fetched := storageFetchByOffset_frame before after stored storage mapping Record.blank
    mappedEq (by omega) mappedSmall (split ▸ small)
  have found := contents_loaded before after stored storage mapping Record.blank mappedEq
    (by omega)
  rw [← split] at fetched found
  rw [offsetEq] at fetched
  rw [fetchStored, fetched]
  exact found

theorem fetchStored_of_onDisk {data : List UInt8} {storage : Storage} {row : Row dimension}
    (onDisk : OnDisk data storage row) (mapped : storage.mmapData ≠ none)
    (covers : storage.fileSize.toNat = data.length) (small : data.length < 2 ^ 63) :
    fetchStored data storage dimension row.1.byteOffset = some row.2 := by
  have inside := (recordCodec dimension).frame_inside onDisk.frame
  have fetched := fetchStored_of_frame onDisk.frame mapped (covers ▸ inside) (covers ▸ small) small
  rw [onDisk.canonical] at fetched
  exact fetched

/-! ### The probing search sees the frames -/

section Search

variable (ops : FloatOps) {data : List UInt8} {storage : Storage}

theorem annSearchLoop_eq (metric : MetricType) (query : List UInt32) (topK : UInt64)
    (pending : Option (List UInt64)) (pendingCount : Nat) {offsets : List UInt64}
    (found : ∀ offset ∈ offsets, (fetchStored data storage dimension offset).isSome = true)
    (results : List (SearchResult UInt32)) :
    annSearchLoop ops data storage dimension metric query topK pending pendingCount offsets
        results =
      searchStored ops.toDistances metric query topK pending pendingCount
        (liveOf (offsets.filterMap (fetchStored data storage dimension))) results := by
  induction offsets generalizing results with
  | nil => rfl
  | cons offset rest ih =>
      have restFound := fun other member => found other (List.mem_cons_of_mem offset member)
      obtain ⟨stored, storedEq⟩ :=
        Option.isSome_iff_exists.mp (found offset (List.mem_cons_self ..))
      obtain ⟨record, fetched, contentsEq⟩ := fetchStored_eq_some storedEq
      obtain ⟨idEq, metadataEq, flagEq⟩ := contents_fields contentsEq
      rw [List.filterMap_cons_some storedEq, annSearchLoop, fetched]
      dsimp only
      cases flag : stored.isDeleted with
      | true =>
          have skipped : ∀ others, liveOf (stored :: others) = liveOf others :=
            fun others => List.filter_cons_of_neg (by simp [flag])
          rw [skipped, flagEq, flag, Bool.true_or, if_pos rfl]
          exact ih restFound results
      | false =>
          have kept : ∀ others, liveOf (stored :: others) = stored :: liveOf others :=
            fun others => List.filter_cons_of_pos (by simp [flag])
          rw [kept, searchStored, flagEq, flag, Bool.false_or, idEq, metadataEq,
            readVector_of_contents contentsEq]
          split
          · exact ih restFound results
          · dsimp only
            split
            · rename_i refused
              rw [refused]
            · rename_i next offered
              rw [offered]
              exact ih restFound next

end Search

/-! ### Deletes after the training -/

/-- What deletes leave of a row: its place and its record, of which they may set
the flag. -/
structure Outlives (row next : Row dimension) : Prop where
  byteOffset : next.1.byteOffset = row.1.byteOffset
  unflagged : next.2.unflag = row.2.unflag
  stays : row.2.isDeleted = true → next.2.isDeleted = true

theorem outlives_refl (row : Row dimension) : Outlives row row :=
  ⟨rfl, rfl, fun deleted => deleted⟩

theorem Outlives.trans {row next last : Row dimension} (first : Outlives row next)
    (second : Outlives next last) : Outlives row last where
  byteOffset := second.byteOffset.trans first.byteOffset
  unflagged := second.unflagged.trans first.unflagged
  stays := fun deleted => second.stays (first.stays deleted)

theorem OnDisk.of_same_mapping {data : List UInt8} {storage other : Storage}
    {row : Row dimension} (sameMapping : other.mmapData = storage.mmapData)
    (sameSize : other.fileSize = storage.fileSize) (onDisk : OnDisk data storage row) :
    OnDisk data other row where
  frame := onDisk.frame
  canonical := onDisk.canonical
  held := ⟨onDisk.held.1, onDisk.held.2.of_same_mapping sameMapping sameSize⟩

def markRow (row : Row dimension) : Row dimension :=
  (row.1.setDeleted, row.2.mark)

theorem outlives_markRow (row : Row dimension) : Outlives row (markRow row) :=
  ⟨rfl, rfl, fun _ => rfl⟩

theorem apart_comm {first second : Row dimension} (apart : Apart first second) :
    Apart second first :=
  Or.symm apart

/-- The flag byte of one frame is not in a frame apart from it. -/
theorem frame_set_elsewhere {data : List UInt8} {row other : Row dimension}
    (frame : other.2.encode <+: data.drop other.1.byteOffset.toNat) (apart : Apart row other) :
    other.2.encode <+:
      (data.set (row.1.byteOffset.toNat + 8) 1).drop other.1.byteOffset.toNat := by
  have header := row.2.header_le_encode
  rcases apart with earlier | later
  · rw [List.drop_set_of_lt (by omega)]
    exact frame
  · exact (recordCodec dimension).frame_of_set_after frame (Nat.le_add_right_of_le later)

theorem OnDisk.set_elsewhere {data : List UInt8} {storage : Storage} {row other : Row dimension}
    (onDisk : OnDisk data storage other) (apart : Apart row other) :
    OnDisk (data.set (row.1.byteOffset.toNat + 8) 1) storage other where
  frame := frame_set_elsewhere onDisk.frame apart
  canonical := onDisk.canonical
  held := onDisk.held

theorem OnDisk.set_flag {data : List UInt8} {storage : Storage} {row : Row dimension}
    (onDisk : OnDisk data storage row) :
    OnDisk (data.set (row.1.byteOffset.toNat + 8) 1) storage (markRow row) where
  frame := frame_set_flag onDisk.frame
  canonical := congrArg StoredRecord.mark onDisk.canonical
  held := by
    obtain ⟨placed, pointer⟩ := onDisk.held
    exact ⟨⟨placed.id, placed.metadata, rfl, placed.byteOffset⟩, pointer⟩

theorem pairwise_apart_mark {before after : List (Row dimension)} {row : Row dimension}
    (apart : (before ++ row :: after).Pairwise Apart) :
    (before ++ markRow row :: after).Pairwise Apart := by
  have sameLength : row.2.mark.encode.length = row.2.encode.length :=
    StoredRecord.encode_length_of_unflag_eq row.2.unflag_mark
  have toMark : ∀ other, Apart other row → Apart other (markRow row) := by
    intro other apart
    unfold Apart markRow at *
    rw [sameLength]
    exact apart
  obtain ⟨beforeApart, restApart, across⟩ := List.pairwise_append.mp apart
  obtain ⟨rowApart, afterApart⟩ := List.pairwise_cons.mp restApart
  refine List.pairwise_append.mpr ⟨beforeApart, List.pairwise_cons.mpr ⟨?_, afterApart⟩, ?_⟩
  · intro other member
    exact apart_comm (toMark other (apart_comm (rowApart other member)))
  · intro first firstMember second secondMember
    rcases List.mem_cons.mp secondMember with rfl | later
    · exact toMark first (across first firstMember row (List.mem_cons_self ..))
    · exact across first firstMember second (List.mem_cons_of_mem row later)

/-- The row in the middle is apart from all others. -/
theorem apart_of_middle {before after : List (Row dimension)} {row : Row dimension}
    (apart : (before ++ row :: after).Pairwise Apart) :
    ∀ other ∈ before ++ after, Apart row other := by
  obtain ⟨-, restApart, across⟩ := List.pairwise_append.mp apart
  intro other member
  rcases List.mem_append.mp member with inBefore | inAfter
  · exact apart_comm (across other inBefore row (List.mem_cons_self ..))
  · exact (List.pairwise_cons.mp restApart).1 other inAfter

/-- Marking the row in the middle leaves every row in its place, if the marked one and
the others are left there. -/
theorem marked_rows_hold {before after : List (Row dimension)} {row : Row dimension}
    {holds other : Row dimension → Prop} (apart : (before ++ row :: after).Pairwise Apart)
    (here : ∀ found ∈ before ++ row :: after, holds found)
    (marked : holds row → other (markRow row))
    (elsewhere : ∀ found, holds found → Apart row found → other found) :
    ∀ found ∈ before ++ markRow row :: after, other found := by
  have rowApart := apart_of_middle apart
  intro found member
  rcases List.mem_append.mp member with inBefore | inRest
  · exact elsewhere found (here found (List.mem_append_left _ inBefore))
      (rowApart found (List.mem_append_left _ inBefore))
  · rcases List.mem_cons.mp inRest with rfl | inAfter
    · exact marked (here row (List.mem_append_right _ (List.mem_cons_self ..)))
    · exact elsewhere found
        (here found (List.mem_append_right _ (List.mem_cons_of_mem row inAfter)))
        (rowApart found (List.mem_append_right _ inAfter))

theorem Mirrors.seek {data : List UInt8} {db : FlatDb} {rows : List (Row dimension)}
    (mirrors : Mirrors data db rows) (fp : Option Nat) :
    Mirrors data { db with storage := { db.storage with fp := fp } } rows where
  dimensionEq := mirrors.dimensionEq
  recordsEq := mirrors.recordsEq
  onDisk := by
    intro row member
    have onDisk := mirrors.onDisk row member
    refine OnDisk.of_same_mapping ?_ ?_ onDisk
    · rfl
    · rfl
  apart := mirrors.apart
  mapped := mirrors.mapped
  covers := mirrors.covers
  small := mirrors.small

theorem Mirrors.marked {data : List UInt8} {db : FlatDb} {before after : List (Row dimension)}
    {row : Row dimension} (mirrors : Mirrors data db (before ++ row :: after)) :
    Mirrors (data.set (row.1.byteOffset.toNat + 8) 1)
      { db with records := before.map Prod.fst ++ row.1.setDeleted :: after.map Prod.fst }
      (before ++ markRow row :: after) where
  dimensionEq := mirrors.dimensionEq
  recordsEq := by
    rw [List.map_append, List.map_cons]
    rfl
  onDisk := marked_rows_hold mirrors.apart mirrors.onDisk (fun onDisk => onDisk.set_flag)
    (fun _ onDisk apart => onDisk.set_elsewhere apart)
  apart := pairwise_apart_mark mirrors.apart
  mapped := mirrors.mapped
  covers := mirrors.covers.trans List.length_set.symm
  small := by
    rw [List.length_set]
    exact mirrors.small

/-- Disk operations of a delete that succeed, or fail before the flag is written. -/
def DeleteIO.Faithful (io : DeleteIO) : Prop := io = .ok ∨ io = .patchFailed

theorem forall₂_outlives_refl (rows : List (Row dimension)) : List.Forall₂ Outlives rows rows :=
  List.forall₂_same.mpr fun row _ => outlives_refl row

theorem forall₂_outlives_mark (before after : List (Row dimension)) (row : Row dimension) :
    List.Forall₂ Outlives (before ++ row :: after) (before ++ markRow row :: after) :=
  List.rel_append (forall₂_outlives_refl before)
    (List.Forall₂.cons (outlives_markRow row) (forall₂_outlives_refl after))

theorem Mirrors.delete {data : List UInt8} {db : FlatDb} {rows : List (Row dimension)}
    (mirrors : Mirrors data db rows) {io : DeleteIO} (faithful : io.Faithful) (id : UInt64) :
    ∃ code file next rows', dbDelete io data db id = (code, file, next) ∧
      Mirrors file next rows' ∧ List.Forall₂ Outlives rows rows' ∧
      next.calculateDistance = db.calculateDistance := by
  by_cases stream : db.storage.fp = none
  · refine ⟨-1, data, db, rows, ?_, mirrors, forall₂_outlives_refl rows, rfl⟩
    rw [dbDelete, if_pos stream]
  · rcases first_cases (isDeleteTarget id) db.records with
      noTarget | ⟨earlier, record, later, recordsEq, isTarget, notEarlier⟩
    · exact ⟨-1, data, db, rows, dbDelete_of_none io data noTarget, mirrors,
        forall₂_outlives_refl rows, rfl⟩
    · obtain ⟨before, rest, rfl, rfl, restEq⟩ :=
        List.map_eq_append_iff.mp (mirrors.recordsEq.symm.trans recordsEq)
      obtain ⟨row, after, rfl, rfl, rfl⟩ := List.map_eq_cons_iff.mp restEq
      have onDisk := mirrors.onDisk row (List.mem_append_right _ (List.mem_cons_self ..))
      have header := row.2.header_le_encode
      have inside : row.1.byteOffset.toNat + row.2.encode.length ≤ data.length :=
        (recordCodec dimension).frame_inside onDisk.frame
      have small := mirrors.small
      have called := dbDelete_eq io data db id (before.map Prod.fst) (after.map Prod.fst) row.1
        row.1.byteOffset.toNat stream recordsEq notEarlier isTarget rfl (by omega)
      rcases faithful with rfl | rfl
      · refine ⟨0, _, _, before ++ markRow row :: after, called, ?_,
          forall₂_outlives_mark before after row, rfl⟩
        rw [writeAt_eq_set (by omega)]
        exact mirrors.marked.seek _
      · exact ⟨-1, _, _, _, called, mirrors.seek _, forall₂_outlives_refl _, rfl⟩

theorem forall₂_outlives_trans {rows next last : List (Row dimension)}
    (first : List.Forall₂ Outlives rows next) (second : List.Forall₂ Outlives next last) :
    List.Forall₂ Outlives rows last := by
  induction first generalizing last with
  | nil =>
      cases second
      exact List.Forall₂.nil
  | cons head tail ih =>
      cases second with
      | cons headNext tailNext => exact List.Forall₂.cons (head.trans headNext) (ih tailNext)

/-- Any number of deletes leaves a table that mirrors its file. -/
theorem Mirrors.deleteLoop {data : List UInt8} {db : FlatDb} {rows : List (Row dimension)}
    (mirrors : Mirrors data db rows) {ios : Nat → DeleteIO}
    (faithful : ∀ index, (ios index).Faithful) (ids : List UInt64) (index : Nat) :
    ∃ file next successes rows',
      OriginDb.deleteLoop ios ids index data db = (file, next, successes) ∧
        Mirrors file next rows' ∧ List.Forall₂ Outlives rows rows' ∧
        next.calculateDistance = db.calculateDistance := by
  induction ids generalizing index data db rows with
  | nil => exact ⟨data, db, 0, rows, rfl, mirrors, forall₂_outlives_refl rows, rfl⟩
  | cons id rest ih =>
      obtain ⟨code, file, next, between, called, mirrorsNext, outlives, sameMetric⟩ :=
        mirrors.delete (faithful index) id
      obtain ⟨final, last, successes, rows', looped, mirrorsLast, outlivesLast, sameLast⟩ :=
        ih mirrorsNext (index + 1)
      refine ⟨final, last, if code = 0 then successes + 1 else successes, rows', ?_, mirrorsLast,
        forall₂_outlives_trans outlives outlivesLast, sameLast.trans sameMetric⟩
      simp only [OriginDb.deleteLoop, called, looped]

/-! ### Both searches on one table -/

theorem OnDisk.isDeleted {data : List UInt8} {storage : Storage} {row : Row dimension}
    (onDisk : OnDisk data storage row) : row.1.isDeleted = row.2.isDeleted :=
  onDisk.held.1.isDeleted

theorem Mirrors.readable {data : List UInt8} {db : FlatDb} {rows : List (Row dimension)}
    (mirrors : Mirrors data db rows) : Readable data db.storage dimension db.records := by
  intro record member
  rw [mirrors.recordsEq] at member
  obtain ⟨row, rowMember, rfl⟩ := List.mem_map.mp member
  obtain ⟨values, readEq, -⟩ := Option.map_eq_some_iff.mp (mirrors.onDisk row rowMember).contents
  rw [readEq]
  rfl

/-- Frames at distinct places leave room for fewer records than the file has bytes. -/
theorem Mirrors.length_le {data : List UInt8} {db : FlatDb} {rows : List (Row dimension)}
    (mirrors : Mirrors data db rows) : db.records.length ≤ data.length := by
  let places := rows.map fun row => row.1.byteOffset.toNat
  have distinct : places.Nodup := by
    refine List.pairwise_map.mpr (mirrors.apart.imp ?_)
    intro first second apart
    have firstHeader := first.2.header_le_encode
    have secondHeader := second.2.header_le_encode
    unfold Apart at apart
    omega
  have inside : places ⊆ List.range data.length := by
    intro place member
    obtain ⟨row, rowMember, rfl⟩ := List.mem_map.mp member
    have header := row.2.header_le_encode
    have frame : row.1.byteOffset.toNat + row.2.encode.length ≤ data.length :=
      (recordCodec dimension).frame_inside (mirrors.onDisk row rowMember).frame
    rw [List.mem_range]
    omega
  have fits := (List.subperm_of_subset distinct inside).length_le
  rw [List.length_map, List.length_range] at fits
  rw [mirrors.recordsEq, List.length_map]
  exact fits

theorem Mirrors.copyable {data : List UInt8} {db : FlatDb} {rows : List (Row dimension)}
    (mirrors : Mirrors data db rows) :
    List.Forall₂ (Copyable data db.storage) db.records (rows.map Prod.snd) := by
  rw [mirrors.recordsEq, List.forall₂_map_left_iff, List.forall₂_map_right_iff,
    List.forall₂_same]
  intro row member
  have onDisk := mirrors.onDisk row member
  exact ⟨onDisk.isDeleted, fun _ => onDisk.contents⟩

/-- The offsets that the training leaves in the index. -/
def liveOffsets (rows : List (Row dimension)) : List UInt64 :=
  (rows.filter fun row => !row.2.isDeleted).map fun row => row.1.byteOffset

theorem Mirrors.liveOffsets_eq {data : List UInt8} {db : FlatDb} {rows : List (Row dimension)}
    (mirrors : Mirrors data db rows) :
    (db.records.filter fun record => !record.isDeleted).map Record.byteOffset =
      liveOffsets rows := by
  have sameFlags : rows.filter ((fun record => !record.isDeleted) ∘ Prod.fst) =
      rows.filter fun row => !row.2.isDeleted := by
    apply List.filter_congr
    intro row member
    rw [Function.comp_apply, (mirrors.onDisk row member).isDeleted]
  rw [mirrors.recordsEq, List.filter_map, List.map_map, sameFlags]
  rfl

/-- What the frames behind the trained offsets hold later: the live records. -/
theorem liveOf_fetched {rows next : List (Row dimension)}
    (outlives : List.Forall₂ Outlives rows next)
    {fetch : UInt64 → Option (StoredRecord dimension)}
    (fetched : ∀ row ∈ next, fetch row.1.byteOffset = some row.2) :
    liveOf ((liveOffsets rows).filterMap fetch) = liveOf (next.map Prod.snd) := by
  induction outlives with
  | nil => rfl
  | @cons row after rows next head tail ih =>
      have restEq := ih fun other member => fetched other (List.mem_cons_of_mem after member)
      have here := fetched after (List.mem_cons_self ..)
      rw [head.byteOffset] at here
      rw [List.map_cons]
      cases flag : row.2.isDeleted with
      | true =>
          have dropped : liveOffsets (row :: rows) = liveOffsets rows := by
            unfold liveOffsets
            rw [List.filter_cons_of_neg (by simp [flag])]
          have deletedLater := head.stays flag
          have skipped : liveOf (after.2 :: next.map Prod.snd) = liveOf (next.map Prod.snd) :=
            List.filter_cons_of_neg (by simp [deletedLater])
          rw [dropped, skipped, restEq]
      | false =>
          have kept : liveOffsets (row :: rows) = row.1.byteOffset :: liveOffsets rows := by
            unfold liveOffsets
            rw [List.filter_cons_of_pos (by simp [flag]), List.map_cons]
          rw [kept, List.filterMap_cons_some here]
          unfold liveOf at restEq ⊢
          rw [List.filter_cons, List.filter_cons, restEq]

theorem exists_of_forall₂ {α β : Type} {related : α → β → Prop} {first : List α}
    {second : List β} (all : List.Forall₂ related first second) :
    ∀ item ∈ first, ∃ other ∈ second, related item other := by
  induction all with
  | nil =>
      intro item member
      cases member
  | @cons head headOther rest others here _ ih =>
      intro item member
      rcases List.mem_cons.mp member with rfl | later
      · exact ⟨headOther, List.mem_cons_self .., here⟩
      · obtain ⟨other, otherMember, relatedHere⟩ := ih item later
        exact ⟨other, List.mem_cons_of_mem headOther otherMember, relatedHere⟩

/-- The distances that a search of these records compares. -/
def Occurs (ops : FloatOps) (metric : MetricType) (query : List UInt32)
    (rows : List (Row dimension)) (dis : UInt32) : Prop :=
  dis = ops.fltMax ∨ ∃ row ∈ rows, dis = ops.calculate metric dimension row.2.vector query

/-- A table at the time of a search, with the queue that the server has loaded. -/
def withPending (db : FlatDb) (pending : Option (List UInt64)) (pendingCount : Nat) : FlatDb :=
  { db with
    pendingDeletes := pending
    pendingCount := pendingCount }

theorem occurs_of_outlives {ops : FloatOps} {metric : MetricType} {query : List UInt32}
    {rows next : List (Row dimension)} (outlives : List.Forall₂ Outlives rows next) :
    ∀ stored ∈ liveOf (next.map Prod.snd),
      Occurs ops metric query rows (ops.calculate metric dimension stored.vector query) := by
  intro stored member
  obtain ⟨after, afterMember, rfl⟩ := List.mem_map.mp (List.mem_of_mem_filter member)
  obtain ⟨row, rowMember, outlived⟩ := exists_of_forall₂ outlives.flip after afterMember
  have sameVector := congrArg StoredRecord.vector outlived.unflagged
  change after.2.vector = row.2.vector at sameVector
  exact Or.inr ⟨row, rowMember, by rw [sameVector]⟩

/-- The exhaustive search on a table that mirrors its file. -/
theorem flatSearch_of_mirrors {ops : FloatOps} {data : List UInt8} {db : FlatDb}
    {rows : List (Row dimension)} (mirrors : Mirrors data db rows)
    (pending : Option (List UInt64)) (pendingCount : Nat) (query : List UInt32) {topK : UInt64}
    (positive : topK ≠ 0) :
    flatSearch ops.toDistances data (withPending db pending pendingCount) query topK =
      (searchStored ops.toDistances db.calculateDistance query topK pending pendingCount
        (liveOf (rows.map Prod.snd))
        (List.replicate topK.toNat (SearchResult.empty ops.toDistances))).map
          fun results => (0, results) := by
  have dimensionEq := mirrors.dimensionEq
  subst dimensionEq
  rw [flatSearch, if_neg positive]
  exact congrArg _ (flatSearchLoop_eq ops.toDistances mirrors.copyable db.calculateDistance query
    topK pending pendingCount _)

/-- The probing search on a table that mirrors its file, for offsets that a
training on the same records has left. -/
theorem annSearch_of_mirrors {ops : FloatOps} {data : List UInt8} {db : FlatDb}
    {rows trained : List (Row dimension)} (mirrors : Mirrors data db rows)
    (outlives : List.Forall₂ Outlives trained rows)
    (pending : Option (List UInt64)) (pendingCount : Nat) (query : List UInt32) (topK : UInt64)
    {clusters : List Cluster} {k : UInt64} {fetched : List UInt64}
    (probed : ivfSearch ops clusters query k k dimension db.calculateDistance = some fetched)
    (named : fetched.Perm (liveOffsets trained)) :
    ∃ stored : List (StoredRecord dimension),
      stored.Perm (liveOf (rows.map Prod.snd)) ∧
        dbAnnSearch ops data (withPending db pending pendingCount) query topK k clusters k =
          (searchStored ops.toDistances db.calculateDistance query topK pending pendingCount stored
            (List.replicate topK.toNat (SearchResult.empty ops.toDistances))).map
              fun results => (0, results) := by
  have dimensionEq := mirrors.dimensionEq
  subst dimensionEq
  have fetches : ∀ row ∈ rows,
      fetchStored data db.storage db.dimension row.1.byteOffset = some row.2 := fun row member =>
    fetchStored_of_onDisk (mirrors.onDisk row member) mirrors.mapped mirrors.covers mirrors.small
  have found : ∀ offset ∈ fetched,
      (fetchStored data db.storage db.dimension offset).isSome = true := by
    intro offset member
    obtain ⟨row, rowMember, rfl⟩ := List.mem_map.mp (named.mem_iff.mp member)
    obtain ⟨after, afterMember, outlived⟩ :=
      exists_of_forall₂ outlives row (List.mem_of_mem_filter rowMember)
    rw [← outlived.byteOffset, fetches after afterMember]
    rfl
  refine ⟨liveOf (fetched.filterMap (fetchStored data db.storage db.dimension)), ?_, ?_⟩
  · have reordered := (named.filterMap (fetchStored data db.storage db.dimension)).filter
      fun record => !record.isDeleted
    have live := liveOf_fetched outlives fetches
    unfold liveOf at live ⊢
    rw [live] at reordered
    exact reordered
  · have probedHere : ivfSearch ops clusters query k k
        (withPending db pending pendingCount).dimension
        (withPending db pending pendingCount).calculateDistance = some fetched := probed
    rw [dbAnnSearch, probedHere]
    have loopEq := annSearchLoop_eq ops db.calculateDistance query topK pending pendingCount found
      (List.replicate topK.toNat (SearchResult.empty ops.toDistances))
    exact congrArg (Option.map fun results => ((0 : Int), results)) loopEq

/-- The distance of two one-dimensional vectors, on their bit patterns. -/
def gap (first second : List UInt32) : UInt32 :=
  let left := first.headD 0
  let right := second.headD 0
  if left < right then right - left else left - right

def gapOps : FloatOps where
  calculate := fun _ _ first second => gap first second
  less := fun first second => decide (first < second)
  fltMax := 2139095039
  zero := 0
  add := fun first second => first + second
  divCount := fun sum count => UInt32.ofNat (sum.toNat / count.toNat)
  moved := fun old new => decide (old ≠ new)
  huge := 1900671690

theorem gapOps_compares (occurs : UInt32 → Prop) :
    Compares gapOps.toDistances occurs UInt32.toNat := by
  intro first second _ _
  change decide (first < second) = true ↔ _
  rw [decide_eq_true_iff, UInt32.lt_iff_toNat_lt]

theorem otherVector_length : ([1073741824] : List UInt32).length = (1 : UInt64).toNat := rfl

def otherRecord : StoredRecord 1 where
  id := 8
  vector := [1073741824]
  vector_length := otherVector_length
  metadata := none
  isDeleted := false

def pairRows : List (Row 1) :=
  [(sampleRecord.scanned 0 0, sampleRecord), (otherRecord.scanned 0 32, otherRecord)]

def pairFile : List UInt8 := sampleRecord.encode ++ otherRecord.encode

def pairTable : FlatDb where
  dimension := 1
  capacity := 10
  records := pairRows.map Prod.fst
  recordsBytes := 480
  calculateDistance := .cosine
  storage := storageInit pairFile
  pendingDeletes := none
  pendingCount := 0

theorem pairTable_mirrors : Mirrors pairFile pairTable pairRows where
  dimensionEq := rfl
  recordsEq := rfl
  onDisk := by
    intro row member
    rcases List.mem_cons.mp member with rfl | second
    · exact ⟨by decide, rfl, ⟨rfl, rfl, rfl, rfl⟩, rfl, rfl, rfl, by decide⟩
    · rw [List.mem_singleton.mp second]
      exact ⟨by decide, rfl, ⟨rfl, rfl, rfl, rfl⟩, rfl, rfl, rfl, by decide⟩
  apart := by
    refine List.pairwise_cons.mpr ⟨?_, List.pairwise_singleton _ _⟩
    intro other member
    rw [List.mem_singleton.mp member]
    exact Or.inl (by decide)
  mapped := by decide
  covers := by decide
  small := by decide

end OriginDb
