/-
Appending to a storage handle and fetching from it.

Records are written through the handle's stream, at the end of the file, and
fetched through its mapping, which keeps the size that the file had when it was
made.  None of the calls that write, load or fetch makes a new mapping: what a
handle has written it does not fetch before `storage_remap`.
-/

import OriginDb.DecodingBounds
import OriginDb.Foundation.GuardedRun
import OriginDb.SearchAgreement

namespace OriginDb

open Foundation

variable {dimension : UInt64}

/-- `append` is `storage_current_offset` followed by `storage_write_record`. -/
inductive HandleCall where
  | append (record : Record)
  | fetch (byteOffset : UInt64)
  | load

/-- A record that a run has written: the offset taken just before, the end of the
file at that time, and the value that the record had. -/
structure Written (dimension : UInt64) where
  offset : UInt64
  endOfFile : Nat
  stored : StoredRecord dimension

/-- One handle, its file, and what has been written so far. -/
structure HandleRun (dimension : UInt64) where
  data : List UInt8
  storage : Storage
  written : List (Written dimension)

/-- `none` is a record whose vector cannot be read. -/
def handleStep (state : HandleRun dimension) : HandleCall → Option (HandleRun dimension)
  | .append record =>
      let (offset, sought) := storageCurrentOffset state.data state.storage
      (record.contents state.data sought dimension).bind fun stored =>
        (storageWriteRecord .ok state.data sought record dimension).map
          fun (code, file, storage) =>
            { data := file
              storage := storage
              written :=
                if code = 0 then state.written ++ [⟨offset, state.data.length, stored⟩]
                else state.written }
  -- A fetch moves neither the stream nor the mapping.
  | .fetch _ => some state
  | .load =>
      some
        { state with
          storage := (storageLoadRecord state.data state.storage dimension).2 }

/-- The offsets taken before the writes are the ends of the file, one behind the other. -/
structure TrueOffsets (state : HandleRun dimension) : Prop where
  atEnd : ∀ entry ∈ state.written, entry.offset.toNat = entry.endOfFile
  increasing : state.written.Pairwise fun first second => first.offset < second.offset

/-- Every record written so far is fetched at its offset as it was written. -/
def FetchesBack (state : HandleRun dimension) : Prop :=
  ∀ entry ∈ state.written,
    fetchStored state.data state.storage dimension entry.offset = some entry.stored

/-! ### One call -/

/-- The calls on an open handle: one appends a frame, the others move the stream at most. -/
theorem handleStep_cases {state next : HandleRun dimension} {call : HandleCall}
    (opened : state.storage.fp ≠ none) (stepped : handleStep state call = some next) :
    (∃ record stored fp, call = .append record ∧
      next =
        { data := state.data ++ stored.encode
          storage := { state.storage with fp := some fp }
          written := state.written ++
            [⟨UInt64.ofNat state.data.length, state.data.length, stored⟩] }) ∨
      (∀ record, call ≠ .append record) ∧
        ∃ fp, next = { state with storage := { state.storage with fp := some fp } } := by
  obtain ⟨position, stream⟩ := Option.ne_none_iff_exists'.mp opened
  have streamSame : { state.storage with fp := some position } = state.storage := by
    rw [← stream]
  cases call with
  | append record =>
      rw [handleStep, storageCurrentOffset, stream] at stepped
      obtain ⟨stored, contentsEq, wrote⟩ := Option.bind_eq_some_iff.mp stepped
      simp only [storageWriteRecord, contentsEq, Option.map_some] at wrote
      cases wrote
      exact Or.inl ⟨record, stored, _, rfl, rfl⟩
  | fetch byteOffset =>
      cases stepped
      refine Or.inr ⟨?_, position, by rw [streamSame]⟩
      intro record impossible
      cases impossible
  | load =>
      cases stepped
      refine Or.inr ⟨?_, ?_⟩
      · intro record impossible
        cases impossible
      · rcases storageLoadRecord_cases dimension state.data state.storage with
          ⟨code, -, stopped⟩ | ⟨record, moved, loaded⟩
        · refine ⟨position, ?_⟩
          rw [stopped, streamSame]
        · exact ⟨moved, by rw [loaded]⟩

/-- What holds of a handle that was opened, or mapped again, when the file had
`mapped` bytes. -/
structure HandleInvariant (mapped : UInt64) (state : HandleRun dimension) : Prop where
  stream : state.storage.fp ≠ none
  size : state.storage.fileSize = mapped
  grown : mapped.toNat ≤ state.data.length
  offset : ∀ entry ∈ state.written, entry.offset = UInt64.ofNat entry.endOfFile
  behind : ∀ entry ∈ state.written, mapped.toNat ≤ entry.endOfFile
  frame : ∀ entry ∈ state.written, entry.stored.encode <+: state.data.drop entry.endOfFile
  ordered : state.written.Pairwise fun first second => first.endOfFile < second.endOfFile

theorem handleStep_invariant {mapped : UInt64} {state next : HandleRun dimension}
    {call : HandleCall} (invariant : HandleInvariant mapped state)
    (stepped : handleStep state call = some next) :
    HandleInvariant mapped next ∧ state.data.length ≤ next.data.length ∧
      state.written <+: next.written := by
  rcases handleStep_cases invariant.stream stepped with
    ⟨record, stored, fp, -, rfl⟩ | ⟨-, fp, rfl⟩
  · have longer : state.data.length ≤ (state.data ++ stored.encode).length :=
      (List.prefix_append _ _).length_le
    refine ⟨⟨Option.some_ne_none fp, invariant.size, Nat.le_trans invariant.grown longer,
      ?_, ?_, ?_, ?_⟩, longer, List.prefix_append _ _⟩
    · intro entry member
      rcases List.mem_append.mp member with earlier | last
      · exact invariant.offset entry earlier
      · rw [List.mem_singleton.mp last]
    · intro entry member
      rcases List.mem_append.mp member with earlier | last
      · exact invariant.behind entry earlier
      · rw [List.mem_singleton.mp last]
        exact invariant.grown
    · intro entry member
      rcases List.mem_append.mp member with earlier | last
      · have frame := invariant.frame entry earlier
        have inside : entry.endOfFile + entry.stored.encode.length ≤ state.data.length :=
          (recordCodec dimension).frame_inside frame
        rw [List.drop_append_of_le_length (by omega)]
        exact frame.trans (List.prefix_append _ _)
      · rw [List.mem_singleton.mp last, List.drop_left]
    · refine List.pairwise_append.mpr ⟨invariant.ordered, List.pairwise_singleton _ _, ?_⟩
      intro first earlier second last
      rw [List.mem_singleton.mp last]
      have inside := (recordCodec dimension).frame_inside (invariant.frame first earlier)
      have positive := first.stored.header_le_encode
      change first.endOfFile + first.stored.encode.length ≤ state.data.length at inside
      change first.endOfFile < state.data.length
      omega
  · exact ⟨⟨Option.some_ne_none fp, invariant.size, invariant.grown, invariant.offset,
      invariant.behind, invariant.frame, invariant.ordered⟩, Nat.le_refl _, List.prefix_rfl⟩

/-! ### One state -/

section State

variable {mapped : UInt64} {state : HandleRun dimension}

theorem HandleInvariant.endOfFile_lt (invariant : HandleInvariant mapped state)
    {entry : Written dimension} (member : entry ∈ state.written) :
    entry.endOfFile + 24 ≤ state.data.length := by
  have inside := (recordCodec dimension).frame_inside (invariant.frame entry member)
  have header := entry.stored.header_le_encode
  change entry.endOfFile + entry.stored.encode.length ≤ state.data.length at inside
  omega

theorem HandleInvariant.offset_toNat (invariant : HandleInvariant mapped state)
    (small : state.data.length < 2 ^ 63) {entry : Written dimension}
    (member : entry ∈ state.written) : entry.offset.toNat = entry.endOfFile := by
  have inside := invariant.endOfFile_lt member
  rw [invariant.offset entry member, UInt64.toNat_ofNat']
  omega

theorem HandleInvariant.trueOffsets (invariant : HandleInvariant mapped state)
    (small : state.data.length < 2 ^ 63) : TrueOffsets state where
  atEnd := fun _ member => invariant.offset_toNat small member
  increasing := by
    refine List.Pairwise.imp_of_mem ?_ invariant.ordered
    intro first second firstMember secondMember ordered
    rw [UInt64.lt_iff_toNat_lt, invariant.offset_toNat small firstMember,
      invariant.offset_toNat small secondMember]
    exact ordered

/-- What was written lies behind the mapping. -/
theorem HandleInvariant.fetchStored_eq_none (invariant : HandleInvariant mapped state)
    (small : state.data.length < 2 ^ 63) {entry : Written dimension}
    (member : entry ∈ state.written) :
    fetchStored state.data state.storage dimension entry.offset = none := by
  have behind := invariant.behind entry member
  have refused : ¬Accepts state.data state.storage dimension entry.offset := by
    rintro ⟨-, inside, -⟩
    rw [UInt64.lt_iff_toNat_lt, invariant.offset_toNat small member, invariant.size] at inside
    omega
  rw [fetchStored, storageFetchByOffset_of_refused Record.blank refused]

theorem HandleInvariant.fetchesBack_iff (invariant : HandleInvariant mapped state)
    (small : state.data.length < 2 ^ 63) : FetchesBack state ↔ state.written = [] := by
  constructor
  · intro fetches
    apply List.eq_nil_iff_forall_not_mem.mpr
    intro entry member
    have found := fetches entry member
    rw [invariant.fetchStored_eq_none small member] at found
    cases found
  · intro none entry member
    rw [none] at member
    cases member

/-- After `storage_remap` everything written is fetched, empty metadata as none. -/
theorem HandleInvariant.fetched_after_remap (invariant : HandleInvariant mapped state)
    (small : state.data.length < 2 ^ 63) :
    ∀ entry ∈ state.written,
      fetchStored state.data (storageRemap state.data state.storage).2 dimension entry.offset =
        some entry.stored.canon := by
  intro entry member
  obtain ⟨position, stream⟩ := Option.ne_none_iff_exists'.mp invariant.stream
  have inside := invariant.endOfFile_lt member
  have behind := invariant.behind entry member
  have offsetEq := invariant.offset_toNat small member
  have sizeEq : (UInt64.ofNat state.data.length).toNat = state.data.length := by
    rw [UInt64.toNat_ofNat']
    omega
  have differs : UInt64.ofNat state.data.length ≠ state.storage.fileSize := by
    intro same
    rw [invariant.size] at same
    rw [same] at sizeEq
    omega
  have positive : 0 < UInt64.ofNat state.data.length := by
    rw [UInt64.lt_iff_toNat_lt, sizeEq]
    change 0 < state.data.length
    omega
  have remapped : (storageRemap state.data state.storage).2 =
      ({ state.storage with fp := some state.data.length } : Storage).mapFile
        (UInt64.ofNat state.data.length) := by
    simp only [storageRemap, stream, if_neg differs]
  have frame := invariant.frame entry member
  have covered : entry.endOfFile + entry.stored.encode.length ≤ state.data.length :=
    (recordCodec dimension).frame_inside frame
  rw [remapped, Storage.mapFile, if_pos positive]
  apply fetchStored_of_frame
  · rw [offsetEq]
    exact frame
  · exact Option.some_ne_none _
  · rw [offsetEq, sizeEq]
    exact covered
  · rw [sizeEq]
    exact small
  · exact small

end State

/-! ### Runs -/

section Run

variable {mapped : UInt64} {state final : HandleRun dimension} {calls : List HandleCall}

theorem handleRun_grows (invariant : HandleInvariant mapped state)
    (ran : GuardedRun.run handleStep state calls = some final) :
    state.data.length ≤ final.data.length ∧ state.written <+: final.written := by
  induction calls generalizing state with
  | nil =>
      cases ran
      exact ⟨Nat.le_refl _, List.prefix_rfl⟩
  | cons call rest ih =>
      rw [GuardedRun.run] at ran
      cases stepped : handleStep state call with
      | none =>
          rw [stepped] at ran
          cases ran
      | some next =>
          rw [stepped] at ran
          obtain ⟨nextInvariant, longer, isPrefix⟩ := handleStep_invariant invariant stepped
          obtain ⟨laterLonger, laterPrefix⟩ := ih nextInvariant ran
          exact ⟨Nat.le_trans longer laterLonger, isPrefix.trans laterPrefix⟩

/-- What the invariant gives for a small file holds throughout a run that stays small. -/
theorem throughout_of_invariant {holds : HandleRun dimension → Prop}
    (gives : ∀ state : HandleRun dimension, HandleInvariant mapped state →
      state.data.length < 2 ^ 63 → state.written <+: final.written → holds state)
    (invariant : HandleInvariant mapped state)
    (ran : GuardedRun.run handleStep state calls = some final)
    (small : final.data.length < 2 ^ 63) :
    GuardedRun.Throughout handleStep holds state calls := by
  induction calls generalizing state with
  | nil =>
      cases ran
      exact gives final invariant small List.prefix_rfl
  | cons call rest ih =>
      obtain ⟨shorter, isPrefix⟩ := handleRun_grows invariant ran
      refine ⟨gives state invariant (Nat.lt_of_le_of_lt shorter small) isPrefix, ?_⟩
      intro next stepped
      rw [GuardedRun.run, stepped] at ran
      exact ih (handleStep_invariant invariant stepped).1 ran

/-- A run writes something exactly when it has an append. -/
theorem written_nil_iff (invariant : HandleInvariant mapped state) (fresh : state.written = [])
    (ran : GuardedRun.run handleStep state calls = some final) :
    final.written = [] ↔ ∀ record, HandleCall.append record ∉ calls := by
  induction calls generalizing state with
  | nil =>
      cases ran
      exact iff_of_true fresh fun record member => by cases member
  | cons call rest ih =>
      rw [GuardedRun.run] at ran
      cases stepped : handleStep state call with
      | none =>
          rw [stepped] at ran
          cases ran
      | some next =>
          rw [stepped] at ran
          have nextInvariant := (handleStep_invariant invariant stepped).1
          rcases handleStep_cases invariant.stream stepped with
            ⟨record, stored, fp, rfl, nextEq⟩ | ⟨other, fp, nextEq⟩
          · refine iff_of_false ?_ ?_
            · intro nothing
              have isPrefix := (handleRun_grows nextInvariant ran).2
              rw [nothing, nextEq] at isPrefix
              have impossible := List.prefix_nil.mp isPrefix
              exact List.append_ne_nil_of_right_ne_nil _ (List.cons_ne_nil _ _) impossible
            · intro noAppend
              exact noAppend record (List.mem_cons_self ..)
          · have nextFresh : next.written = [] := by
              rw [nextEq]
              exact fresh
            rw [ih nextInvariant nextFresh ran]
            constructor
            · intro noAppend record member
              rcases List.mem_cons.mp member with same | later
              · exact other record same.symm
              · exact noAppend record later
            · intro noAppend record later
              exact noAppend record (List.mem_cons_of_mem _ later)

end Run

/-- In every run of appends, fetches and loads the offsets taken before the writes
are the ends of the file; the records are fetched back only when there are none. -/
theorem appended_fetched_back_iff {start final : HandleRun dimension} {calls : List HandleCall}
    (opened : start.storage.fp ≠ none)
    (mappedEarlier : start.storage.fileSize.toNat ≤ start.data.length)
    (nothingWritten : start.written = [])
    (ran : GuardedRun.run handleStep start calls = some final)
    (small : final.data.length < 2 ^ 63) :
    GuardedRun.Throughout handleStep TrueOffsets start calls ∧
      (GuardedRun.Throughout handleStep FetchesBack start calls ↔
        ∀ record, HandleCall.append record ∉ calls) := by
  have invariant : HandleInvariant start.storage.fileSize start := by
    refine ⟨opened, rfl, mappedEarlier, ?_, ?_, ?_, ?_⟩
    · rw [nothingWritten]
      intro entry member
      cases member
    · rw [nothingWritten]
      intro entry member
      cases member
    · rw [nothingWritten]
      intro entry member
      cases member
    · rw [nothingWritten]
      exact List.Pairwise.nil
  constructor
  · exact throughout_of_invariant (fun state here stateSmall _ => here.trueOffsets stateSmall)
      invariant ran small
  · rw [← written_nil_iff invariant nothingWritten ran]
    constructor
    · intro fetches
      have finalInvariant := GuardedRun.invariant_of_run
        (fun state call next here stepped => (handleStep_invariant here stepped).1) invariant ran
      exact (finalInvariant.fetchesBack_iff small).mp (fetches.of_run ran)
    · intro nothing
      refine throughout_of_invariant ?_ invariant ran small
      intro state here stateSmall isPrefix
      rw [nothing] at isPrefix
      exact (here.fetchesBack_iff stateSmall).mpr (List.prefix_nil.mp isPrefix)

/-! ### Runs on one handle -/

def handleOn (data : List UInt8) : HandleRun 1 where
  data := data
  storage := storageInit data
  written := []

/-- A record is appended to a file of one, then one loaded and one fetched. -/
def loadingCalls : List HandleCall :=
  [.append (otherRecord.onHeap 0), .load, .fetch 0, .append (otherRecord.onHeap 0)]

theorem appended_fetched_back_on_sample :
    GuardedRun.Throughout handleStep TrueOffsets (handleOn sampleRecord.encode) loadingCalls ∧
      ¬GuardedRun.Throughout handleStep FetchesBack (handleOn sampleRecord.encode)
        loadingCalls := by
  have computed : (GuardedRun.run handleStep (handleOn sampleRecord.encode) loadingCalls).map
      (fun final => final.data.length) = some 96 := by
    decide +kernel
  obtain ⟨final, ran, lengthEq⟩ := Option.map_eq_some_iff.mp computed
  have law := appended_fetched_back_iff (by decide) (by decide) rfl ran (by omega)
  refine ⟨law.1, ?_⟩
  rw [law.2]
  intro noAppend
  exact noAppend _ (List.mem_cons_self ..)

/-- Two records written to a new table; the first is not found at the offset taken
before its write. -/
theorem written_record_not_fetched :
    ∃ final, GuardedRun.run handleStep (handleOn [])
        [.append (sampleRecord.onHeap 0), .append (otherRecord.onHeap 0)] = some final ∧
      final.written.map Written.offset = [0, 32] ∧
        storageFetchByOffset final.data final.storage 0 Record.blank 1 = .error (-1) ∧
          ¬GuardedRun.Throughout handleStep FetchesBack (handleOn [])
            [.append (sampleRecord.onHeap 0), .append (otherRecord.onHeap 0)] := by
  have computed : (GuardedRun.run handleStep (handleOn [])
      [.append (sampleRecord.onHeap 0), .append (otherRecord.onHeap 0)]).map (fun final =>
        (final.written.map Written.offset, final.storage.mmapData)) = some ([0, 32], none) := by
    decide +kernel
  obtain ⟨final, ran, shape⟩ := Option.map_eq_some_iff.mp computed
  obtain ⟨offsetsEq, unmapped⟩ := Prod.mk.inj shape
  have refused : storageFetchByOffset final.data final.storage 0 Record.blank 1 =
      .error (-1) := by
    rw [storageFetchByOffset, unmapped]
  refine ⟨final, ran, offsetsEq, refused, ?_⟩
  intro fetches
  have first : (0 : UInt64) ∈ final.written.map Written.offset := by
    rw [offsetsEq]
    exact List.mem_cons_self ..
  obtain ⟨entry, member, offsetEq⟩ := List.mem_map.mp first
  have found := fetches.of_run ran entry member
  rw [offsetEq, fetchStored, refused] at found
  cases found

end OriginDb
