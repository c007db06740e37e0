/-
The lookup in the queue file: `load_pending_deletes` with `is_pending_delete`.

`qsort` and `bsearch` belong to the C library, so the two functions take them as arguments
here; the file may have any length and any content.  With the sort and the search of
`PendingDelete` they are the functions of that module.
-/

import OriginDb.PendingDelete

namespace OriginDb

open Foundation

/-! ### The two functions -/

/-- The loop of `load_pending_deletes` from a position of the stream on: an id, and a
timestamp that is skipped.  `none` is a slot that the read leaves as `malloc` made it. -/
def readIds (file : List UInt8) : Nat → Nat → Option (List UInt64)
  | 0, _ => some []
  | more + 1, position =>
      if position + 8 ≤ file.length then
        (readIds file more (position + 8 + 8)).map fun ids => u64At file position :: ids
      else none

section Library

variable (sort : (UInt64 → UInt64 → Int) → List UInt64 → List UInt64)
  (search : (UInt64 → UInt64 → Int) → UInt64 → List UInt64 → Option Nat)

def loadPendingDeletesWith (pendingBin : Option (List UInt8)) :
    Option (Option (List UInt64) × Nat) :=
  match pendingBin with
  | none => some (none, 0)
  | some file =>
      let count := file.length / 16
      if count = 0 then some (none, 0)
      else (readIds file count 0).map fun ids => (some (sort cmpUint32 ids), count)

def isPendingDeleteWith (id : UInt64) (pending : Option (List UInt64)) (count : Nat) : Bool :=
  match pending with
  | none => false
  | some ids => if count = 0 then false else (search cmpUint32 id (ids.take count)).isSome

/-- The id is the first 8 bytes of a complete entry of the file. -/
def StartsEntry (file : List UInt8) (id : UInt64) : Prop :=
  ∃ index, 16 * index + 16 ≤ file.length ∧
    bytesAt file (16 * index) 8 = LittleEndian.encode 8 id.toNat

/-- The loader returns the ids of the complete entries in order, and the lookup finds the
ids that start one. -/
def LookupMatches (file : List UInt8) : Prop :=
  ∃ pending count, loadPendingDeletesWith sort (some file) = some (pending, count) ∧
    (pending.getD []).Perm (pendingIds file) ∧ (pending.getD []).Pairwise (· ≤ ·) ∧
    count = (pending.getD []).length ∧
    ∀ id, isPendingDeleteWith search id pending count = true ↔ StartsEntry file id

end Library

/-! ### The strided reads -/

/-- As many reads as there are complete entries all succeed, and give their ids. -/
theorem readIds_eq_pendingIds (file : List UInt8) {count position : Nat}
    (counted : (file.length - position) / 16 = count) :
    readIds file count position = some (pendingIds (file.drop position)) := by
  induction count generalizing position with
  | zero =>
      have short : (file.drop position).length < 16 := by
        rw [List.length_drop]
        omega
      rw [readIds, pendingIds, if_pos short]
  | succ count ih =>
      have enough : ¬(file.drop position).length < 16 := by
        rw [List.length_drop]
        omega
      have inside : position + 8 ≤ file.length := by omega
      have first : u64At (file.drop position) 0 = u64At file position := by
        simp only [u64At, bytesAt, List.drop_drop, Nat.add_zero]
      have entries : pendingIds (file.drop position) =
          u64At file position :: pendingIds (file.drop (position + 8 + 8)) := by
        rw [pendingIds, if_neg enough, first, List.drop_drop]
      rw [readIds, if_pos inside, ih (by omega), entries, Option.map_some]

/-- The id that is read at a position is the one whose bytes stand there. -/
theorem u64At_eq_iff {file : List UInt8} {position : Nat} (inside : position + 8 ≤ file.length)
    (id : UInt64) :
    u64At file position = id ↔ bytesAt file position 8 = LittleEndian.encode 8 id.toNat := by
  have length : (bytesAt file position 8).length = 8 := by
    rw [bytesAt, List.length_take, List.length_drop]
    omega
  constructor
  · intro read
    have small := LittleEndian.decode_lt (bytesAt file position 8)
    have written := LittleEndian.encode_decode (bytesAt file position 8)
    rw [length] at small written
    rw [← read, u64At, UInt64.toNat_ofNat_of_lt' small, written]
  · intro bytes
    rw [u64At, bytes, LittleEndian.decode_encode_of_lt id.toNat_lt, UInt64.ofNat_toNat]

theorem mem_pendingIds_iff (file : List UInt8) (id : UInt64) :
    id ∈ pendingIds file ↔ StartsEntry file id := by
  rw [← map_u64At_eq_pendingIds, List.mem_map]
  constructor
  · rintro ⟨index, inRange, read⟩
    have complete : 16 * index + 16 ≤ file.length := by
      have below := List.mem_range.mp inRange
      omega
    exact ⟨index, complete, (u64At_eq_iff (by omega) id).mp read⟩
  · rintro ⟨index, complete, bytes⟩
    have inRange : index ∈ List.range (file.length / 16) := List.mem_range.mpr (by omega)
    exact ⟨index, inRange, (u64At_eq_iff (by omega) id).mpr bytes⟩

theorem pendingIds_length (file : List UInt8) : (pendingIds file).length = file.length / 16 := by
  rw [← map_u64At_eq_pendingIds, List.length_map, List.length_range]

/-! ### The lookup -/

variable {sort : (UInt64 → UInt64 → Int) → List UInt64 → List UInt64}
  {search : (UInt64 → UInt64 → Int) → UInt64 → List UInt64 → Option Nat}

/-- In an array of ids, sorted by the library, the library finds exactly these ids. -/
theorem isPendingDeleteWith_sorted_iff (sorts : Comparator.Sorts sort)
    (searches : Comparator.Searches search) (ids : List UInt64) (id : UInt64) :
    isPendingDeleteWith search id (some (sort cmpUint32 ids)) ids.length = true ↔ id ∈ ids := by
  have lengthEq : (sort cmpUint32 ids).length = ids.length :=
    (sorts cmpUint32 cmpUint32_total ids).1.length_eq
  cases ids with
  | nil => exact iff_of_false Bool.false_ne_true List.not_mem_nil
  | cons first rest =>
      have whole : (sort cmpUint32 (first :: rest)).take (first :: rest).length =
          sort cmpUint32 (first :: rest) := List.take_of_length_le (Nat.le_of_eq lengthEq)
      have someIds : (first :: rest).length ≠ 0 := Nat.succ_ne_zero rest.length
      rw [isPendingDeleteWith, if_neg someIds, whole]
      exact searches.sorted_isSome_iff_mem sorts cmpUint32_total (first :: rest) id

/-- What the loader returns: the sorted ids, or NULL where there are none. -/
theorem loadPendingDeletesWith_eq (file : List UInt8) :
    loadPendingDeletesWith sort (some file) =
      some (if pendingIds file = [] then (none, 0)
        else (some (sort cmpUint32 (pendingIds file)), (pendingIds file).length)) := by
  have lengthEq := pendingIds_length file
  have read := readIds_eq_pendingIds file (Nat.sub_zero file.length ▸ rfl :
    (file.length - 0) / 16 = file.length / 16)
  rw [List.drop_zero] at read
  rw [loadPendingDeletesWith]
  by_cases noEntries : pendingIds file = []
  · rw [noEntries, List.length_nil] at lengthEq
    rw [if_pos lengthEq.symm, if_pos noEntries]
  · have someEntries : file.length / 16 ≠ 0 := by
      rw [← lengthEq]
      exact mt List.length_eq_zero_iff.mp noEntries
    rw [if_neg someEntries, if_neg noEntries, read, Option.map_some, lengthEq]

theorem lookupMatches (sorts : Comparator.Sorts sort) (searches : Comparator.Searches search)
    (file : List UInt8) : LookupMatches sort search file := by
  by_cases noEntries : pendingIds file = []
  · refine ⟨none, 0, ?_, ?_, ?_, rfl, ?_⟩
    · rw [loadPendingDeletesWith_eq, if_pos noEntries]
    · rw [noEntries]
      exact List.Perm.refl []
    · exact List.Pairwise.nil
    · intro id
      rw [← mem_pendingIds_iff, noEntries]
      exact iff_of_false Bool.false_ne_true List.not_mem_nil
  · obtain ⟨perm, ordered⟩ := sorts cmpUint32 cmpUint32_total (pendingIds file)
    refine ⟨some (sort cmpUint32 (pendingIds file)), (pendingIds file).length, ?_, perm, ?_, ?_, ?_⟩
    · rw [loadPendingDeletesWith_eq, if_neg noEntries]
    · exact (ordered_iff _).mp ordered
    · exact perm.length_eq.symm
    · intro id
      rw [isPendingDeleteWith_sorted_iff sorts searches, mem_pendingIds_iff]

/-- `cmp_uint32` is a total order on the 64-bit values, and with any sort and search that
work under one, a lookup in the loaded array is a lookup in the file. -/
theorem pending_lookup_matches_file (sorts : Comparator.Sorts sort)
    (searches : Comparator.Searches search) :
    Comparator.TotalOrder cmpUint32 ∧ ∀ file, LookupMatches sort search file := by
  constructor
  · exact cmpUint32_total
  · exact lookupMatches sorts searches

/-- Three entries, two of them for one id, and a part of a fourth. -/
def tornQueueFile : List UInt8 :=
  [9, 7, 9].flatMap (fun id => LittleEndian.encode 8 id ++ LittleEndian.encode 8 100) ++
    LittleEndian.encode 8 5 ++ [1]

theorem torn_queue_is_looked_up :
    LookupMatches qsort Comparator.binarySearch tornQueueFile :=
  (pending_lookup_matches_file qsort_sorts Comparator.binarySearch_searches).2 tornQueueFile

/-! ### The functions of the model -/

theorem loadPendingDeletesWith_qsort (pendingBin : Option (List UInt8)) :
    loadPendingDeletesWith qsort pendingBin = some (loadPendingDeletes pendingBin) := by
  cases pendingBin with
  | none => rfl
  | some file =>
      rw [loadPendingDeletesWith_eq, loadPendingDeletes, map_u64At_eq_pendingIds,
        ← pendingIds_length]
      simp only [List.length_eq_zero_iff]

/-- On what the loader returns, the two lookups agree. -/
theorem isPendingDeleteWith_binarySearch (pendingBin : Option (List UInt8)) (id : UInt64) :
    isPendingDeleteWith Comparator.binarySearch id (loadPendingDeletes pendingBin).1
        (loadPendingDeletes pendingBin).2 =
      isPendingDelete id (loadPendingDeletes pendingBin).1 (loadPendingDeletes pendingBin).2 := by
  obtain ⟨-, -, counted⟩ := loadsSorted_pendingIds pendingBin
  rw [counted]
  cases (loadPendingDeletes pendingBin).1 with
  | none => rfl
  | some ids =>
      rw [isPendingDeleteWith, isPendingDelete, Option.getD_some, List.take_length, bsearch_eq]
      rfl

end OriginDb
