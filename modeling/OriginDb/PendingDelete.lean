/-
The per-table queue of delete requests and its schedule: `pending-delete.c`.

`pending.bin` is a sequence of 16-byte entries, an id and a timestamp.  The
appending side is guarded by one process-wide mutex, which is part of the state
here because the function that takes it does not always give it back.
-/

import OriginDb.Foundation.Comparator
import OriginDb.Record

namespace OriginDb

open Foundation

def cmpUint32 (left right : UInt64) : Int :=
  if left < right then -1 else if right < left then 1 else 0

/-- `qsort` under a comparator that is a total order. -/
def qsort (cmp : UInt64 → UInt64 → Int) (ids : List UInt64) : List UInt64 :=
  ids.insertionSort (fun left right => cmp left right ≤ 0)

/-- `load_pending_deletes`: the array (or NULL) and `*out_count`. -/
def loadPendingDeletes (pendingBin : Option (List UInt8)) : Option (List UInt64) × Nat :=
  match pendingBin with
  | none => (none, 0)
  | some file =>
      let count := file.length / 16
      if count = 0 then (none, 0)
      else (some (qsort cmpUint32 ((List.range count).map fun index => u64At file (16 * index))),
        count)

/-- The binary search of `bsearch` over the index range `[low, high)`. -/
def bsearch (id : UInt64) (ids : List UInt64) : Nat → Nat → Nat → Bool
  | 0, _, _ => false
  | fuel + 1, low, high =>
      if low < high then
        let middle := (low + high) / 2
        match ids[middle]? with
        | none => false
        | some found =>
            if cmpUint32 id found < 0 then bsearch id ids fuel low middle
            else if 0 < cmpUint32 id found then bsearch id ids fuel (middle + 1) high
            else true
      else false

def isPendingDelete (id : UInt64) (pending : Option (List UInt64)) (count : Nat) : Bool :=
  match pending with
  | none => false
  | some ids => if count = 0 then false else bsearch id ids (count + 1) 0 count

/-- `clear_pending_deletes`, which truncates the file when it can open it. -/
def clearPendingDeletes (opens : Bool) (pendingBin : Option (List UInt8)) :
    Int × Option (List UInt8) :=
  if opens then (0, some []) else (-1, pendingBin)

def setAutoDeleteSchedule (unixTimestamp : UInt64) : List UInt8 :=
  LittleEndian.encode 8 unixTimestamp.toNat

def getAutoDeleteSchedule (schedule : Option (List UInt8)) : UInt64 :=
  match schedule with
  | none => 0
  | some file => if file.length < 8 then 0 else u64At file 0

/-! ### The appending side -/

structure PendingQueue where
  appendLocked : Bool
  pendingBin : Option (List UInt8)
deriving DecidableEq

/-- `append_pending_delete`; `none` is a caller blocked on the mutex.  The
`return -1` after the failed-open block stands outside its braces, so the
function returns there on both paths and nothing below it runs: the file is
created by the open but never written, and the mutex stays locked. -/
def appendPendingDelete (opens : Bool) (_id _timestamp : UInt64) (queue : PendingQueue) :
    Option (Int × PendingQueue) :=
  if queue.appendLocked then none
  else if opens then
    some (-1, { appendLocked := true, pendingBin := some (queue.pendingBin.getD []) })
  else some (-1, queue)

/-! ### What the queue is for -/

/-- The ids of the complete entries of a queue file, in file order. -/
def pendingIds (file : List UInt8) : List UInt64 :=
  if file.length < 16 then [] else u64At file 0 :: pendingIds (file.drop 16)
termination_by file.length
decreasing_by
  simp only [List.length_drop]
  omega

/-- A run of requests in which every call finds the mutex free, gives it back
and reports success. -/
def AppendsAll : List (UInt64 × UInt64) → PendingQueue → PendingQueue → Prop
  | [], before, after => after = before
  | (id, timestamp) :: rest, before, after =>
      ∃ middle, before.appendLocked = false ∧
        appendPendingDelete true id timestamp before = some (0, middle) ∧
        middle.appendLocked = false ∧ AppendsAll rest middle after

/-- The loader returns the given ids sorted, with their number. -/
def LoadsSorted (pendingBin : Option (List UInt8)) (ids : List UInt64) : Prop :=
  let loaded := loadPendingDeletes pendingBin
  (loaded.1.getD []).Perm ids ∧ (loaded.1.getD []).Pairwise (· ≤ ·) ∧
    loaded.2 = (loaded.1.getD []).length

/-- Every one of the requests is recorded on top of what the file held. -/
def RecordsEveryRequest (pendingBin : Option (List UInt8))
    (requests : List (UInt64 × UInt64)) : Prop :=
  ∃ after, AppendsAll requests { appendLocked := false, pendingBin := pendingBin } after ∧
    LoadsSorted after.pendingBin
      ((pendingBin.map pendingIds).getD [] ++ requests.map Prod.fst)

/-! ### The comparator -/

theorem cmpUint32_neg_iff (left right : UInt64) : cmpUint32 left right < 0 ↔ left < right := by
  unfold cmpUint32
  split
  · rename_i less
    exact iff_of_true (by decide) less
  · rename_i notLess
    split
    · exact iff_of_false (by decide) notLess
    · exact iff_of_false (by decide) notLess

theorem cmpUint32_pos_iff (left right : UInt64) : 0 < cmpUint32 left right ↔ right < left := by
  unfold cmpUint32
  split
  · rename_i less
    exact iff_of_false (by decide) (UInt64.lt_asymm less)
  · split
    · rename_i greater
      exact iff_of_true (by decide) greater
    · rename_i notGreater
      exact iff_of_false (by decide) notGreater

theorem cmpUint32_le_zero_iff (left right : UInt64) :
    cmpUint32 left right ≤ 0 ↔ left ≤ right := by
  rw [← Int.not_lt, cmpUint32_pos_iff, UInt64.not_lt]

theorem cmpUint32_zero_iff (left right : UInt64) : cmpUint32 left right = 0 ↔ left = right := by
  rw [Int.le_antisymm_iff, cmpUint32_le_zero_iff, ← Int.not_lt, cmpUint32_neg_iff, UInt64.not_lt,
    UInt64.le_antisymm_iff]

/-- The comparator orders all 64-bit values, and no two are equal to it. -/
theorem cmpUint32_total : Comparator.TotalOrder cmpUint32 where
  zero_iff := cmpUint32_zero_iff
  reverse := by
    intro left right
    rw [cmpUint32_neg_iff, cmpUint32_pos_iff]
  trans := by
    intro left middle right
    rw [cmpUint32_le_zero_iff, cmpUint32_le_zero_iff, cmpUint32_le_zero_iff]
    exact UInt64.le_trans

theorem ordered_iff (ids : List UInt64) :
    Comparator.Ordered cmpUint32 ids ↔ ids.Pairwise (· ≤ ·) := by
  unfold Comparator.Ordered
  simp only [cmpUint32_le_zero_iff]

/-! ### Loading -/

theorem qsort_sorts : Comparator.Sorts qsort := Comparator.insertionSort_sorts

theorem qsort_perm (ids : List UInt64) : (qsort cmpUint32 ids).Perm ids :=
  (qsort_sorts cmpUint32 cmpUint32_total ids).1

theorem qsort_sorted (ids : List UInt64) : (qsort cmpUint32 ids).Pairwise (· ≤ ·) :=
  (ordered_iff _).mp (qsort_sorts cmpUint32 cmpUint32_total ids).2

/-- The strided reads of the loader see the complete entries of the file. -/
theorem map_u64At_eq_pendingIds (file : List UInt8) :
    (List.range (file.length / 16)).map (fun index => u64At file (16 * index)) =
      pendingIds file := by
  induction file using pendingIds.induct with
  | case1 file short =>
      have none : file.length / 16 = 0 := by omega
      rw [pendingIds, if_pos short, none]
      rfl
  | case2 file enough ih =>
      have count : file.length / 16 = (file.drop 16).length / 16 + 1 := by
        simp only [List.length_drop]
        omega
      have shifted : ∀ index,
          u64At file (16 * (index + 1)) = u64At (file.drop 16) (16 * index) := by
        intro index
        simp only [u64At, bytesAt, List.drop_drop]
        rw [show 16 + 16 * index = 16 * (index + 1) by omega]
      rw [pendingIds, if_neg enough, count, List.range_succ_eq_map, List.map_cons, List.map_map,
        ← ih]
      simp only [Function.comp_def, Nat.succ_eq_add_one, shifted, Nat.mul_zero]

theorem loadsSorted_pendingIds (pendingBin : Option (List UInt8)) :
    LoadsSorted pendingBin ((pendingBin.map pendingIds).getD []) := by
  cases pendingBin with
  | none => exact ⟨List.Perm.refl _, List.Pairwise.nil, rfl⟩
  | some file =>
      simp only [LoadsSorted, loadPendingDeletes, Option.map_some, Option.getD_some,
        map_u64At_eq_pendingIds]
      by_cases empty : file.length / 16 = 0
      · have short : file.length < 16 := by omega
        rw [pendingIds, if_pos short]
        simp only [if_pos empty]
        exact ⟨List.Perm.refl _, List.Pairwise.nil, rfl⟩
      · simp only [if_neg empty, Option.getD_some]
        refine ⟨qsort_perm _, qsort_sorted _, ?_⟩
        rw [(qsort_perm _).length_eq, ← map_u64At_eq_pendingIds, List.length_map,
          List.length_range]

/-! ### Looking an id up -/

theorem bsearch_eq (id : UInt64) (ids : List UInt64) (fuel low high : Nat) :
    bsearch id ids fuel low high =
      (Comparator.searchRange cmpUint32 id ids fuel low high).isSome := by
  induction fuel generalizing low high with
  | zero => rfl
  | succ fuel ih =>
      rw [bsearch, Comparator.searchRange]
      by_cases nonempty : low < high
      · rw [if_pos nonempty, if_pos nonempty]
        dsimp only
        cases ids[(low + high) / 2]? with
        | none => rfl
        | some found =>
            dsimp only
            by_cases less : cmpUint32 id found < 0
            · rw [if_pos less, if_pos less, ih]
            · rw [if_neg less, if_neg less]
              by_cases greater : 0 < cmpUint32 id found
              · rw [if_pos greater, if_pos greater, ih]
              · rw [if_neg greater, if_neg greater]
                rfl
      · rw [if_neg nonempty, if_neg nonempty]
        rfl

theorem mem_of_bsearch {id : UInt64} {ids : List UInt64} {fuel low high : Nat}
    (found : bsearch id ids fuel low high = true) : id ∈ ids := by
  rw [bsearch_eq] at found
  obtain ⟨index, atIndex⟩ := Option.isSome_iff_exists.mp found
  obtain ⟨item, held, zero⟩ := Comparator.searchRange_sound atIndex
  rw [(cmpUint32_zero_iff id item).mp zero]
  exact List.mem_of_getElem? held

/-- The binary search finds the ids of a sorted list. -/
theorem isPendingDelete_iff {id : UInt64} {pending : Option (List UInt64)} {count : Nat}
    (sorted : (pending.getD []).Pairwise (· ≤ ·)) (counted : count = (pending.getD []).length) :
    isPendingDelete id pending count = true ↔ id ∈ pending.getD [] := by
  subst counted
  cases pending with
  | none => exact iff_of_false Bool.false_ne_true List.not_mem_nil
  | some ids =>
      rw [Option.getD_some] at sorted ⊢
      have searched := Comparator.binarySearch_searches.isSome_iff_mem cmpUint32_total
        ((ordered_iff ids).mpr sorted) id
      rw [← searched, isPendingDelete, Comparator.binarySearch, ← bsearch_eq]
      cases ids with
      | nil => exact iff_of_false Bool.false_ne_true Bool.false_ne_true
      | cons _ _ => exact Iff.rfl

/-! ### Appending -/

/-- No call reports success, whether or not the file opens. -/
theorem appendPendingDelete_ne_zero (opens : Bool) (id timestamp : UInt64)
    (before after : PendingQueue) :
    appendPendingDelete opens id timestamp before ≠ some (0, after) := by
  intro returned
  unfold appendPendingDelete at returned
  split at returned
  · cases returned
  · split at returned
    · cases returned
    · cases returned

theorem append_records_requests_iff (pendingBin : Option (List UInt8))
    (requests : List (UInt64 × UInt64)) :
    RecordsEveryRequest pendingBin requests ↔ requests = [] := by
  constructor
  · intro recorded
    rcases recorded with ⟨after, appended, -⟩
    cases requests with
    | nil => rfl
    | cons request rest =>
        rcases appended with ⟨middle, -, returned, -⟩
        exact absurd returned (appendPendingDelete_ne_zero true _ _ _ _)
  · intro empty
    subst empty
    refine ⟨_, rfl, ?_⟩
    simpa only [List.map_nil, List.append_nil] using loadsSorted_pendingIds pendingBin

/-- One request against a table that has no queue file yet is not recorded. -/
theorem append_drops_first_request : ¬RecordsEveryRequest none [(42, 0)] := by
  intro recorded
  rcases recorded with ⟨after, ⟨middle, -, returned, -⟩, -⟩
  exact absurd returned (appendPendingDelete_ne_zero true _ _ _ _)

end OriginDb
