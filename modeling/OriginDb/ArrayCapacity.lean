/-
The room in the record array of a table.

Four places resize the array: the load loop of `db_init`, `db_insert`, the merge of
`sync_worker` and `db_compact`.  Each computes its request in 64 bits, and each doubles in
its own way: the load loop treats a capacity of 0 apart, the other two do not.  Only the
numbers of the array are kept here.
-/

import OriginDb.ServerTable
import OriginDb.Foundation.GuardedRun

namespace OriginDb

open Foundation

/-- `count`, `capacity` and the size of the allocation behind `records`; `bytes` is `none`
once a `realloc` to zero bytes has released the array.  Records have been stored at the
indices below `stored`, the last of them perhaps by an insert that then failed. -/
structure RecordArray where
  count : Nat
  stored : Nat
  capacity : UInt64
  bytes : Option UInt64
deriving DecidableEq

/-- The calls that change the array.  `written` says whether the record reached the file,
`swapped` whether `storage_compact` succeeded, `deleted` how many records it left out. -/
inductive ArrayAction where
  | load
  | insert (written : Bool)
  | merge (n : UInt64)
  | compact (swapped : Bool) (deleted : Nat)
deriving DecidableEq

namespace RecordArray

/-- The array of `db_init` before the load loop. -/
def create (initialCapacity : UInt64) : RecordArray where
  count := 0
  stored := 0
  capacity := initialCapacity
  bytes := some (sizeofRecord * initialCapacity)

/-- What a `realloc` for `capacity` records yields. -/
def granted (capacity : UInt64) : Option UInt64 :=
  if sizeofRecord * capacity = 0 then none else some (sizeofRecord * capacity)

/-- `realloc` for `capacity` records.  An array that has been released is no argument for
`realloc`. -/
def realloc (array : RecordArray) (capacity : UInt64) : Option RecordArray :=
  array.bytes.map fun _ =>
    { array with
      capacity := capacity
      bytes := granted capacity }

/-- The stores of `n` records behind the last one, undefined outside the allocation. -/
def store (array : RecordArray) (n : Nat) : Option RecordArray :=
  if hasRoom (array.bytes.getD 0) (array.count + n) then
    some
      { array with
        count := array.count + n
        stored := array.count + n }
  else none

/-- One round of the load loop.  Where `realloc` returns NULL the array is freed again,
which is no more defined than the store. -/
def load (array : RecordArray) : Option RecordArray :=
  if array.count = array.capacity.toNat then
    let newCapacity := if array.capacity = 0 then 8 else array.capacity * 2
    (array.realloc newCapacity).bind fun grown => grown.store 1
  else array.store 1

/-- The growth of `db_insert`; the flag is false where `realloc` returned NULL, and the
function then returns with the capacity as it was. -/
def growInsert (array : RecordArray) : Option (RecordArray × Bool) :=
  if array.count = array.capacity.toNat then
    (array.realloc (array.capacity * 2)).map fun grown =>
      if grown.bytes = none then ({ array with bytes := none }, false) else (grown, true)
  else some (array, true)

/-- The record is stored before it is written to the file, and counted after. -/
def storeInserted (array : RecordArray) (written : Bool) : Option RecordArray :=
  (array.store 1).map fun next => if written then next else { next with count := array.count }

def insert (array : RecordArray) (written : Bool) : Option RecordArray :=
  match array.growInsert with
  | none => none
  | some (grown, true) => grown.storeInserted written
  | some (released, false) => some released

/-- The merge of `n` queued records. -/
def merge (array : RecordArray) (n : UInt64) : Option RecordArray :=
  if n = 0 then some array
  else
    let needed := UInt64.ofNat array.count + n
    if array.capacity < needed then
      match growCapacity needed 65 array.capacity with
      | none => none
      | some capacity => (array.realloc capacity).bind fun grown => grown.store n.toNat
    else array.store n.toNat

/-- `db_compact`.  A compaction that succeeds frees the old array, and what it puts in its
place is cut to the records that are left. -/
def compact (array : RecordArray) (swapped : Bool) (deleted : Nat) : Option RecordArray :=
  if swapped then
    let kept := array.count - deleted
    let newCapacity := if 0 < kept then UInt64.ofNat kept else 1
    (array.realloc newCapacity).map fun shrunk =>
      { shrunk with
        count := kept
        stored := kept }
  else some array

def step (array : RecordArray) : ArrayAction → Option RecordArray
  | .load => array.load
  | .insert written => array.insert written
  | .merge n => array.merge n
  | .compact swapped deleted => array.compact swapped deleted

/-- The records fit the capacity, no store was past it, and the allocation is as long as
the capacity says. -/
structure HasRoom (array : RecordArray) : Prop where
  countLe : array.count ≤ array.capacity.toNat
  storedBelow : ∀ index, index < array.stored → index < array.capacity.toNat
  bytesLe : sizeofRecord.toNat * array.capacity.toNat ≤ (array.bytes.getD 0).toNat

/-- The array has room after every call of the run, and every call ends. -/
def AlwaysRoom (initialCapacity : UInt64) (actions : List ArrayAction) : Prop :=
  GuardedRun.AllStates step HasRoom (create initialCapacity) actions

/-! ### When a call can grow the array -/

/-- Doubling the capacity reaches room for `n` more records with a size in range. -/
def RoomFor (array : RecordArray) (n : Nat) : Prop :=
  ∃ doublings, array.count + n ≤ array.capacity.toNat * 2 ^ doublings ∧
    sizeofRecord.toNat * (array.capacity.toNat * 2 ^ doublings) < 2 ^ 64

/-- A capacity of 0 is the case that the load loop treats apart; `db_insert` then fails
and releases the array, after which no call that needs it is defined. -/
def Growable (array : RecordArray) : ArrayAction → Prop
  | .load | .insert _ => (array.capacity = 0 ∧ array.bytes ≠ none) ∨ array.RoomFor 1
  | .merge n => n = 0 ∨ array.RoomFor n.toNat
  | .compact swapped _ => swapped = true → array.bytes ≠ none

/-! ### The doubling loop -/

theorem toNat_double {capacity : UInt64} (small : capacity.toNat < 2 ^ 63) :
    (capacity * 2).toNat = capacity.toNat * 2 := by
  rw [UInt64.toNat_mul]
  change capacity.toNat * 2 % 2 ^ 64 = _
  exact Nat.mod_eq_of_lt (by omega)

/-- A loop that ends has reached the count and, below 2 ^ 63, has not wrapped. -/
theorem growCapacity_doubles {needed grown : UInt64} (small : needed.toNat ≤ 2 ^ 63) {fuel : Nat}
    {capacity : UInt64} (grew : growCapacity needed fuel capacity = some grown) :
    needed ≤ grown ∧ ∃ doublings, grown.toNat = capacity.toNat * 2 ^ doublings := by
  induction fuel generalizing capacity with
  | zero => cases grew
  | succ fuel ih =>
      simp only [growCapacity] at grew
      by_cases short : capacity < needed
      · rw [if_pos short] at grew
        obtain ⟨reached, doublings, grownEq⟩ := ih grew
        have below := UInt64.lt_iff_toNat_lt.mp short
        rw [toNat_double (by omega)] at grownEq
        exact ⟨reached, doublings + 1, by rw [grownEq, Nat.pow_succ']; ring⟩
      · rw [if_neg short] at grew
        cases grew
        exact ⟨UInt64.not_lt.mp short, 0, by simp⟩

/-- Where some number of doublings in range is enough, the loop ends within it. -/
theorem growCapacity_reaches {needed : UInt64} {doublings fuel : Nat} {capacity : UInt64}
    (enough : needed.toNat ≤ capacity.toNat * 2 ^ doublings)
    (inRange : capacity.toNat * 2 ^ doublings < 2 ^ 64) (fuelled : doublings < fuel) :
    ∃ grown, growCapacity needed fuel capacity = some grown ∧ needed ≤ grown ∧
      grown.toNat ≤ capacity.toNat * 2 ^ doublings := by
  induction doublings generalizing fuel capacity with
  | zero =>
      obtain ⟨fuel, rfl⟩ := Nat.exists_eq_succ_of_ne_zero (by omega : fuel ≠ 0)
      have reached : needed ≤ capacity := UInt64.le_iff_toNat_le.mpr (by simpa using enough)
      exact ⟨capacity, by rw [growCapacity, if_neg (UInt64.not_lt.mpr reached)], reached, by simp⟩
  | succ doublings ih =>
      obtain ⟨fuel, rfl⟩ := Nat.exists_eq_succ_of_ne_zero (by omega : fuel ≠ 0)
      have split : capacity.toNat * 2 ^ (doublings + 1) = capacity.toNat * 2 * 2 ^ doublings := by
        rw [Nat.pow_succ']
        ring
      have atLeast : capacity.toNat * 2 ≤ capacity.toNat * 2 ^ (doublings + 1) := by
        rw [split]
        exact Nat.le_mul_of_pos_right _ (Nat.two_pow_pos doublings)
      by_cases short : capacity < needed
      · have doubled := toNat_double (by omega : capacity.toNat < 2 ^ 63)
        rw [split, ← doubled] at enough inRange ⊢
        obtain ⟨grown, grew, reached, bound⟩ := ih enough inRange (by omega : doublings < fuel)
        exact ⟨grown, by rw [growCapacity, if_pos short, grew], reached, bound⟩
      · exact ⟨capacity, by rw [growCapacity, if_neg short], UInt64.not_lt.mp short, by omega⟩

theorem growCapacity_eq_none_iff {needed : UInt64} {fuel : Nat} {capacity : UInt64} :
    growCapacity needed fuel capacity = none ↔
      ∀ round, round < fuel → capacity * 2 ^ round < needed := by
  induction fuel generalizing capacity with
  | zero => simp [growCapacity]
  | succ fuel ih =>
      have later : ∀ round, capacity * 2 * 2 ^ round = capacity * 2 ^ (round + 1) := by
        intro round
        rw [UInt64.pow_succ, UInt64.mul_assoc, UInt64.mul_comm 2]
      by_cases short : capacity < needed
      · rw [growCapacity, if_pos short, ih, Nat.forall_lt_succ_left]
        simp only [later, UInt64.pow_zero, UInt64.mul_one, short, true_and]
      · rw [growCapacity, if_neg short, Nat.forall_lt_succ_left]
        simp [short]

theorem two_pow_vanishes (extra : Nat) : (2 : UInt64) ^ (64 + extra) = 0 := by
  induction extra with
  | zero => decide +kernel
  | succ extra ih => rw [← Nat.add_assoc, UInt64.pow_succ, ih, UInt64.zero_mul]

/-- After 64 doublings the capacity is 0 and stays so: a loop that has not ended by then
does not end. -/
theorem growCapacity_never_ends {needed capacity : UInt64}
    (stuck : growCapacity needed 65 capacity = none) (fuel : Nat) :
    growCapacity needed fuel capacity = none := by
  rw [growCapacity_eq_none_iff] at stuck ⊢
  intro round _
  by_cases early : round < 65
  · exact stuck round early
  · obtain ⟨extra, rfl⟩ := Nat.exists_eq_add_of_le (by omega : 64 ≤ round)
    rw [two_pow_vanishes, ← two_pow_vanishes 0]
    exact stuck 64 (by omega)

/-! ### One call -/

variable {array next : RecordArray} {capacity : UInt64} {n : Nat}

theorem toNat_sizeofRecord : sizeofRecord.toNat = 48 := rfl

theorem granted_getD (capacity : UInt64) : (granted capacity).getD 0 = sizeofRecord * capacity := by
  unfold granted
  split
  · next wrapped => rw [wrapped]; rfl
  · rfl

theorem toNat_recordBytes (capacity : UInt64) :
    (sizeofRecord * capacity).toNat = sizeofRecord.toNat * capacity.toNat % 2 ^ 64 :=
  UInt64.toNat_mul _ _

/-- The array is as long as its capacity says, so the size did not wrap. -/
theorem HasRoom.inRange (room : array.HasRoom) :
    sizeofRecord.toNat * array.capacity.toNat < 2 ^ 64 :=
  Nat.lt_of_le_of_lt room.bytesLe (UInt64.toNat_lt _)

theorem HasRoom.capacity_lt (room : array.HasRoom) : array.capacity.toNat < 2 ^ 59 := by
  have inRange := room.inRange
  rw [toNat_sizeofRecord] at inRange
  omega

theorem HasRoom.held (room : array.HasRoom) (positive : array.capacity ≠ 0) :
    array.bytes ≠ none := by
  intro released
  have bytesLe := room.bytesLe
  rw [released, toNat_sizeofRecord, Option.getD_none, UInt64.toNat_zero] at bytesLe
  exact positive (UInt64.toNat_inj.mp (by rw [UInt64.toNat_zero]; omega))

theorem create_hasRoom_iff {initialCapacity : UInt64} :
    (create initialCapacity).HasRoom ↔
      sizeofRecord.toNat * initialCapacity.toNat < 2 ^ 64 := by
  constructor
  · exact HasRoom.inRange
  · intro inRange
    constructor
    · exact Nat.zero_le _
    · exact fun _ impossible => absurd impossible (Nat.not_lt_zero _)
    · change sizeofRecord.toNat * initialCapacity.toNat ≤ (sizeofRecord * initialCapacity).toNat
      rw [toNat_recordBytes, Nat.mod_eq_of_lt inRange]

theorem store_eq_some_iff :
    array.store n = some next ↔
      sizeofRecord.toNat * (array.count + n) ≤ (array.bytes.getD 0).toNat ∧
        next = { array with count := array.count + n, stored := array.count + n } := by
  unfold store hasRoom
  split
  · next fits => simpa [of_decide_eq_true fits] using eq_comm
  · next fits =>
      have short := of_decide_eq_false (Bool.not_eq_true _ ▸ fits)
      simp only [reduceCtorEq, short, false_and]

/-- What the state is after stores of `n` records in an array of the given capacity. -/
theorem store_keeps_iff
    (bytesLe : sizeofRecord.toNat * array.capacity.toNat ≤ (array.bytes.getD 0).toNat) :
    (∃ next, array.store n = some next ∧ next.HasRoom) ↔
      array.count + n ≤ array.capacity.toNat := by
  constructor
  · rintro ⟨next, stored, room⟩
    rw [(store_eq_some_iff.mp stored).2] at room
    exact room.countLe
  · intro fits
    have inside := (Nat.mul_le_mul_left sizeofRecord.toNat fits).trans bytesLe
    exact ⟨_, store_eq_some_iff.mpr ⟨inside, rfl⟩, fits,
      fun index below => Nat.lt_of_lt_of_le below fits, bytesLe⟩

theorem realloc_store_keeps_iff :
    (∃ next, ((array.realloc capacity).bind fun grown => grown.store n) = some next ∧
        next.HasRoom) ↔
      array.bytes ≠ none ∧ array.count + n ≤ capacity.toNat ∧
        sizeofRecord.toNat * capacity.toNat < 2 ^ 64 := by
  cases held : array.bytes with
  | none => simp only [realloc, held, Option.map_none, Option.bind_none, reduceCtorEq, false_and,
      exists_false, ne_eq, not_true_eq_false]
  | some bytes =>
      simp only [realloc, held, Option.map_some, Option.bind_some, ne_eq, reduceCtorEq,
        not_false_eq_true, true_and]
      constructor
      · rintro ⟨next, stored, room⟩
        rw [(store_eq_some_iff.mp stored).2] at room
        exact ⟨room.countLe, room.inRange⟩
      · rintro ⟨fits, inRange⟩
        apply (store_keeps_iff _).mpr fits
        change sizeofRecord.toNat * capacity.toNat ≤ ((granted capacity).getD 0).toNat
        rw [granted_getD, toNat_recordBytes, Nat.mod_eq_of_lt inRange]

theorem HasRoom.roomFor_of_fits (room : array.HasRoom)
    (fits : array.count + n ≤ array.capacity.toNat) : array.RoomFor n :=
  ⟨0, by simpa using fits, by simpa using room.inRange⟩

/-- A full array has room for one more record after one doubling, or never. -/
theorem HasRoom.roomFor_one_iff (room : array.HasRoom)
    (full : array.count = array.capacity.toNat) :
    array.RoomFor 1 ↔ array.count + 1 ≤ (array.capacity * 2).toNat ∧
      sizeofRecord.toNat * (array.capacity * 2).toNat < 2 ^ 64 := by
  have small := room.capacity_lt
  rw [toNat_double (by omega)]
  constructor
  · rintro ⟨doublings, fits, inRange⟩
    cases doublings with
    | zero => simp [full] at fits
    | succ doublings =>
        have further : array.capacity.toNat * 2 ≤ array.capacity.toNat * 2 ^ (doublings + 1) :=
          Nat.mul_le_mul_left _ (Nat.le_self_pow (Nat.succ_ne_zero _) 2)
        constructor
        · rcases Nat.eq_zero_or_pos array.capacity.toNat with empty | positive
          · rw [empty, Nat.zero_mul] at fits
            omega
          · omega
        · exact Nat.lt_of_le_of_lt (Nat.mul_le_mul_left _ further) inRange
  · rintro ⟨fits, inRange⟩
    exact ⟨1, by simpa using fits, by simpa using inRange⟩

theorem HasRoom.spare (room : array.HasRoom) (notFull : ¬array.count = array.capacity.toNat) :
    array.count + 1 ≤ array.capacity.toNat :=
  Nat.lt_of_le_of_ne room.countLe notFull

/-- The doubling of 0 leaves no room. -/
theorem double_of_empty (count : Nat) (empty : capacity = 0) :
    ¬count + 1 ≤ (capacity * 2).toNat := by
  rw [empty]
  exact Nat.not_succ_le_zero count

theorem load_keeps_iff (room : array.HasRoom) :
    (∃ next, array.load = some next ∧ next.HasRoom) ↔ array.Growable .load := by
  unfold load Growable
  by_cases full : array.count = array.capacity.toNat
  · simp only [if_pos full, realloc_store_keeps_iff, room.roomFor_one_iff full]
    by_cases empty : array.capacity = 0
    · have eight : sizeofRecord.toNat * (8 : UInt64).toNat < 2 ^ 64 := by decide
      have noDoubling := double_of_empty array.count empty
      have first : array.count + 1 ≤ (8 : UInt64).toNat := by
        rw [full, empty]
        decide
      rw [if_pos empty]
      constructor
      · rintro ⟨held, -⟩
        exact Or.inl ⟨empty, held⟩
      · rintro (⟨-, held⟩ | ⟨fits, -⟩)
        · exact ⟨held, first, eight⟩
        · exact absurd fits noDoubling
    · simp [empty, room.held empty]
  · have spare := room.spare full
    rw [if_neg full, store_keeps_iff room.bytesLe]
    exact ⟨fun _ => Or.inr (room.roomFor_of_fits spare), fun _ => spare⟩

/-- An insert that fails on the disk has stored its record all the same. -/
theorem storeInserted_keeps_iff (written : Bool) :
    (∃ next, array.storeInserted written = some next ∧ next.HasRoom) ↔
      ∃ next, array.store 1 = some next ∧ next.HasRoom := by
  unfold storeInserted
  cases stored : array.store 1 with
  | none => simp
  | some next =>
      cases written with
      | true => simp
      | false =>
          obtain ⟨-, rfl⟩ := store_eq_some_iff.mp stored
          simp only [Option.map_some, Bool.false_eq_true, if_false, Option.some.injEq,
            exists_eq_left']
          constructor
          · intro room
            have countLe := room.storedBelow array.count (Nat.lt_succ_self _)
            exact ⟨countLe, room.storedBelow, room.bytesLe⟩
          · intro room
            exact ⟨(Nat.le_succ _).trans room.countLe, room.storedBelow, room.bytesLe⟩

theorem realloc_storeInserted_keeps_iff (written : Bool) :
    (∃ next, ((array.realloc capacity).bind fun grown => grown.storeInserted written) =
        some next ∧ next.HasRoom) ↔
      ∃ next, ((array.realloc capacity).bind fun grown => grown.store 1) = some next ∧
        next.HasRoom := by
  cases array.realloc capacity with
  | none => exact Iff.rfl
  | some grown => exact storeInserted_keeps_iff written

/-- Three does not divide a power of two: the request of a full array is never for zero
bytes, unless its capacity is 0. -/
theorem HasRoom.granted_double (room : array.HasRoom) (positive : array.capacity ≠ 0) :
    granted (array.capacity * 2) ≠ none := by
  have small := room.capacity_lt
  unfold granted
  split
  · next wrapped =>
      have size := congrArg UInt64.toNat wrapped
      rw [toNat_recordBytes, toNat_double (by omega), toNat_sizeofRecord, UInt64.toNat_zero] at size
      have regroup : 48 * (array.capacity.toNat * 2) = 32 * (3 * array.capacity.toNat) := by ring
      have scaled := Nat.dvd_of_mod_eq_zero size
      rw [regroup, show 2 ^ 64 = 32 * 2 ^ 59 from rfl] at scaled
      have thrice := Nat.dvd_of_mul_dvd_mul_left (by decide) scaled
      have divides := Nat.Coprime.dvd_of_dvd_mul_left (by decide : Nat.Coprime (2 ^ 59) 3) thrice
      have zero : array.capacity.toNat = 0 := Nat.eq_zero_of_dvd_of_lt divides small
      exact (positive (UInt64.toNat_inj.mp zero)).elim
  · nofun

theorem HasRoom.insert_of_full (room : array.HasRoom)
    (full : array.count = array.capacity.toNat) (positive : array.capacity ≠ 0)
    (written : Bool) :
    array.insert written =
      (array.realloc (array.capacity * 2)).bind fun grown => grown.storeInserted written := by
  obtain ⟨bytes, held⟩ := Option.ne_none_iff_exists'.mp (room.held positive)
  simp only [insert, growInsert, if_pos full, realloc, held, Option.map_some, Option.bind_some,
    if_neg (room.granted_double positive)]

/-- A full array of capacity 0 is released. -/
theorem insert_of_empty (full : array.count = array.capacity.toNat) (empty : array.capacity = 0)
    (held : array.bytes ≠ none) (written : Bool) :
    array.insert written = some { array with bytes := none } := by
  obtain ⟨bytes, held⟩ := Option.ne_none_iff_exists'.mp held
  have released : granted (array.capacity * 2) = none := by
    rw [empty]
    rfl
  simp only [insert, growInsert, if_pos full, realloc, held, Option.map_some, released, if_true]

theorem insert_keeps_iff (written : Bool) (room : array.HasRoom) :
    (∃ next, array.insert written = some next ∧ next.HasRoom) ↔
      array.Growable (.insert written) := by
  unfold Growable
  by_cases full : array.count = array.capacity.toNat
  · rw [room.roomFor_one_iff full]
    by_cases empty : array.capacity = 0
    · have noDoubling := double_of_empty array.count empty
      constructor
      · rintro ⟨next, inserted, -⟩
        have held : array.bytes ≠ none := by
          intro released
          simp [insert, growInsert, full, realloc, released] at inserted
        exact Or.inl ⟨empty, held⟩
      · rintro (⟨-, held⟩ | ⟨fits, -⟩)
        · have noBytes : sizeofRecord.toNat * array.capacity.toNat ≤ 0 := by
            rw [empty]
            exact Nat.le_refl _
          have released := insert_of_empty full empty held written
          exact ⟨_, released, room.countLe, room.storedBelow, noBytes⟩
        · exact absurd fits noDoubling
    · rw [room.insert_of_full full empty, realloc_storeInserted_keeps_iff, realloc_store_keeps_iff]
      simp only [empty, room.held empty, ne_eq, not_false_eq_true, true_and, false_and, false_or]
  · have spare := room.spare full
    have kept : array.insert written = array.storeInserted written := by
      simp only [insert, growInsert, if_neg full]
    rw [kept, storeInserted_keeps_iff, store_keeps_iff room.bytesLe]
    exact ⟨fun _ => Or.inr (room.roomFor_of_fits spare), fun _ => spare⟩

theorem RoomFor.count_lt (reaches : array.RoomFor n) : array.count + n < 2 ^ 59 := by
  obtain ⟨doublings, fits, inRange⟩ := reaches
  rw [toNat_sizeofRecord] at inRange
  omega

theorem realloc_store_count
    (stored : ((array.realloc capacity).bind fun grown => grown.store n) = some next) :
    next.count = array.count + n := by
  obtain ⟨grown, reallocated, kept⟩ := Option.bind_eq_some_iff.mp stored
  obtain ⟨bytes, -, rfl⟩ := Option.map_eq_some_iff.mp reallocated
  rw [(store_eq_some_iff.mp kept).2]

theorem merge_count {n : UInt64} (merged : array.merge n = some next) :
    next.count = array.count + n.toNat := by
  unfold merge at merged
  split at merged
  · next nothing =>
      cases merged
      rw [nothing]
      rfl
  · dsimp only at merged
    split at merged
    · split at merged
      · cases merged
      · exact realloc_store_count merged
    · rw [(store_eq_some_iff.mp merged).2]

/-- The count to reach, where it is in range. -/
theorem toNat_needed {n : UInt64} (small : array.count + n.toNat < 2 ^ 59) :
    (UInt64.ofNat array.count + n).toNat = array.count + n.toNat := by
  rw [UInt64.toNat_add, UInt64.toNat_ofNat_of_lt' (by omega : array.count < 2 ^ 64)]
  exact Nat.mod_eq_of_lt (by omega)

/-- A merge that has to grow the array. -/
theorem HasRoom.merge_short_iff {n : UInt64} (room : array.HasRoom)
    (small : array.count + n.toNat < 2 ^ 59) (queued : n ≠ 0)
    (short : array.capacity.toNat < array.count + n.toNat) :
    (∃ next, array.merge n = some next ∧ next.HasRoom) ↔ array.RoomFor n.toNat := by
  have needed := toNat_needed small
  have shortWords : array.capacity < UInt64.ofNat array.count + n :=
    UInt64.lt_iff_toNat_lt.mpr (by rw [needed]; exact short)
  simp only [merge, if_neg queued, if_pos shortWords]
  constructor
  · rintro ⟨next, merged, good⟩
    cases grew : growCapacity (UInt64.ofNat array.count + n) 65 array.capacity with
    | none => simp only [grew, reduceCtorEq] at merged
    | some capacity =>
        simp only [grew] at merged
        obtain ⟨-, fits, inRange⟩ := realloc_store_keeps_iff.mp ⟨next, merged, good⟩
        obtain ⟨-, doublings, capacityEq⟩ := growCapacity_doubles (by omega) grew
        rw [capacityEq] at fits inRange
        exact ⟨doublings, fits, inRange⟩
  · rintro ⟨doublings, fits, inRange⟩
    have positive : 0 < array.capacity.toNat := by
      apply Nat.pos_of_ne_zero
      intro zero
      rw [zero, Nat.zero_mul] at fits
      omega
    have capacityRange : array.capacity.toNat * 2 ^ doublings < 2 ^ 64 := by
      rw [toNat_sizeofRecord] at inRange
      omega
    have few : 2 ^ doublings < 2 ^ 64 :=
      Nat.lt_of_le_of_lt (Nat.le_mul_of_pos_left _ positive) capacityRange
    have rounds := (Nat.pow_lt_pow_iff_right (by decide : 1 < 2)).mp few
    obtain ⟨capacity, grew, reached, bound⟩ :=
      growCapacity_reaches (by rw [needed]; exact fits) capacityRange (by omega : doublings < 65)
    have nonzero : array.capacity ≠ 0 := by
      intro zero
      rw [zero, UInt64.toNat_zero] at positive
      exact Nat.lt_irrefl 0 positive
    simp only [grew]
    have reachedCount : array.count + n.toNat ≤ capacity.toNat := by
      rw [← needed]
      exact UInt64.le_iff_toNat_le.mp reached
    have grownRange := Nat.lt_of_le_of_lt (Nat.mul_le_mul_left sizeofRecord.toNat bound) inRange
    exact realloc_store_keeps_iff.mpr ⟨room.held nonzero, reachedCount, grownRange⟩

theorem merge_keeps_iff (n : UInt64) (room : array.HasRoom) :
    (∃ next, array.merge n = some next ∧ next.HasRoom) ↔ array.Growable (.merge n) := by
  unfold Growable
  by_cases nothing : n = 0
  · simpa [merge, nothing] using room
  · simp only [nothing, false_or]
    by_cases small : array.count + n.toNat < 2 ^ 59
    · by_cases short : array.capacity.toNat < array.count + n.toNat
      · exact room.merge_short_iff small nothing short
      · have enough : ¬array.capacity < UInt64.ofNat array.count + n := by
          rw [UInt64.lt_iff_toNat_lt, toNat_needed small]
          exact short
        simp only [merge, if_neg nothing, if_neg enough, store_keeps_iff room.bytesLe]
        have fits := Nat.le_of_not_lt short
        exact ⟨fun _ => room.roomFor_of_fits fits, fun _ => fits⟩
    · -- So many records fit no array whose size is in range.
      constructor
      · rintro ⟨next, merged, good⟩
        have countLe := good.countLe
        rw [merge_count merged] at countLe
        exact absurd (Nat.lt_of_le_of_lt countLe good.capacity_lt) small
      · intro reaches
        exact absurd reaches.count_lt small

/-- The capacity that `db_compact` leaves for the records it kept. -/
theorem HasRoom.kept_fits (room : array.HasRoom) {kept : Nat} (fewer : kept ≤ array.count) :
    let newCapacity : UInt64 := if 0 < kept then UInt64.ofNat kept else 1
    kept ≤ newCapacity.toNat ∧
      sizeofRecord.toNat * newCapacity.toNat ≤ ((granted newCapacity).getD 0).toNat := by
  have small := room.capacity_lt
  have countLe := room.countLe
  have inRange := room.inRange
  intro newCapacity
  have least : newCapacity.toNat = max kept 1 := by
    by_cases any : 0 < kept
    · simp only [newCapacity, if_pos any]
      rw [UInt64.toNat_ofNat_of_lt' (by omega : kept < 2 ^ 64)]
      omega
    · simp only [newCapacity, if_neg any]
      change 1 = _
      omega
  rw [granted_getD, toNat_recordBytes, least, toNat_sizeofRecord, Nat.mod_eq_of_lt]
  · exact ⟨Nat.le_max_left _ _, Nat.le_refl _⟩
  · rw [toNat_sizeofRecord] at inRange
    omega

theorem compact_keeps_iff (swapped : Bool) (deleted : Nat) (room : array.HasRoom) :
    (∃ next, array.compact swapped deleted = some next ∧ next.HasRoom) ↔
      array.Growable (.compact swapped deleted) := by
  unfold Growable compact
  cases swapped with
  | false => simpa using room
  | true =>
      cases held : array.bytes with
      | none => simp [realloc, held]
      | some bytes =>
          simp only [if_true, realloc, held, Option.map_some, Option.some.injEq, exists_eq_left',
            ne_eq, reduceCtorEq, not_false_eq_true, implies_true, iff_true]
          have fits := room.kept_fits (Nat.sub_le array.count deleted)
          exact ⟨fits.1, fun index below => Nat.lt_of_lt_of_le below fits.1, fits.2⟩

theorem step_keeps_iff (array : RecordArray) (action : ArrayAction) (room : array.HasRoom) :
    (∃ next, array.step action = some next ∧ next.HasRoom) ↔ array.Growable action := by
  cases action with
  | load => exact load_keeps_iff room
  | insert written => exact insert_keeps_iff written room
  | merge n => exact merge_keeps_iff n room
  | compact swapped deleted => exact compact_keeps_iff swapped deleted room

/-! ### Every run -/

/-- The array has room after every call exactly when its first size does not wrap and every
call finds a capacity that it can grow. -/
theorem record_array_always_room_iff (initialCapacity : UInt64) (actions : List ArrayAction) :
    AlwaysRoom initialCapacity actions ↔
      sizeofRecord.toNat * initialCapacity.toNat < 2 ^ 64 ∧
        GuardedRun.Admits step Growable (create initialCapacity) actions := by
  unfold AlwaysRoom
  rw [GuardedRun.allStates_iff_admits step_keeps_iff, create_hasRoom_iff]

/-- The merge of one record into an empty array of capacity 0 does not end, and the size of
2 ^ 60 records wraps to 0. -/
theorem zero_capacity_never_grows :
    ¬AlwaysRoom 0 [.merge 1] ∧ ¬AlwaysRoom 1152921504606846976 [] := by
  constructor
  · rintro ⟨-, next, merged, -⟩
    cases (show (create 0).step (.merge 1) = none by decide).symm.trans merged
  · intro room
    have inRange := create_hasRoom_iff.mp room
    exact absurd inRange (by decide +kernel)

end RecordArray

end OriginDb
