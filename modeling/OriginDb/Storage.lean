/-
The storage handle of one table: `storage.c` without its index files.

A file is the list of its bytes.  `fp` is the position of the handle's stream,
`mmapData` the identity of its current mapping; a mapping shows the current
bytes of the file up to the size it was made for.  Every function that
dereferences a vector returns `none` when the pointer it would follow is not
readable, which is undefined behaviour in the source.

The outcome of an input or output operation that may fail is a parameter of
the function that performs it.  Allocation succeeds throughout.
-/

import OriginDb.Record

namespace OriginDb

/-- `storage_t`; `mappings` counts the mappings made so far, so that each has
an identity of its own. -/
structure Storage where
  fp : Option Nat
  mmapData : Option Nat
  fileSize : UInt64
  mappings : Nat
deriving DecidableEq

/-- The value of a `size_t` converted to `long`. -/
def asLong (value : UInt64) : Int :=
  if value.toNat < 2 ^ 63 then value.toNat else value.toNat - 2 ^ 64

/-- `fseek(fp, target, SEEK_SET)`; a negative target leaves the stream where it is. -/
def Storage.seekSet (storage : Storage) (target : Int) : Storage :=
  if 0 ≤ target then { storage with fp := some target.toNat } else storage

/-- Map the whole file of the given size; an empty file is not mapped. -/
def Storage.mapFile (storage : Storage) (size : UInt64) : Storage :=
  if 0 < size then
    { storage with
      mmapData := some storage.mappings
      fileSize := size
      mappings := storage.mappings + 1 }
  else { storage with mmapData := none, fileSize := size }

/-- `storage_init` on an existing data file.  The stream is left where the
size was measured, at the end of the file. -/
def storageInit (data : List UInt8) : Storage :=
  Storage.mapFile
    { fp := some data.length
      mmapData := none
      fileSize := 0
      mappings := 0 }
    (UInt64.ofNat data.length)

/-- The floats a vector pointer leads to, when all of them can be read. -/
def readVector (data : List UInt8) (storage : Storage) (dimension : UInt64) :
    VectorRef → Option { values : List UInt32 // values.length = dimension.toNat }
  | .null =>
      if empty : dimension.toNat = 0 then some ⟨[], empty.symm⟩ else none
  | .heap values =>
      if enough : dimension.toNat ≤ values.length then
        some ⟨values.take dimension.toNat, List.length_take_of_le enough⟩
      else none
  | .mapped mapping offset =>
      if storage.mmapData = some mapping ∧
          offset + 4 * dimension.toNat ≤ storage.fileSize.toNat then
        some ⟨floatsAt data offset dimension.toNat, floatsAt_length _ _ _⟩
      else none

/-- The value of an in-memory record, its vector followed through its pointer. -/
def Record.contents (data : List UInt8) (storage : Storage) (dimension : UInt64)
    (record : Record) : Option (StoredRecord dimension) :=
  (readVector data storage dimension record.vector).map fun values =>
    { id := record.id
      vector := values.val
      vector_length := values.property
      metadata := record.metadata
      isDeleted := record.isDeleted }

/-! ### Appending a record -/

/-- Outcome of the writes of one `storage_write_record`: all of them succeed,
or one fails after `appended` bytes of the record have reached the file. -/
inductive WriteIO where
  | ok
  | failed (appended : Nat)
deriving DecidableEq

/-- `storage_write_record`: return value, file and handle afterwards. -/
def storageWriteRecord (io : WriteIO) (data : List UInt8) (storage : Storage)
    (record : Record) (dimension : UInt64) : Option (Int × List UInt8 × Storage) :=
  match storage.fp with
  | none => some (-1, data, storage)
  | some _ =>
      match record.contents data storage dimension with
      | none => none
      | some stored =>
          match io with
          | .ok =>
              let file := data ++ stored.encode
              some (0, file, { storage with fp := some file.length })
          | .failed appended =>
              let file := data ++ stored.encode.take appended
              some (-1, file, { storage with fp := some file.length })

/-- `storage_current_offset`: seeks to the end and reports the position. -/
def storageCurrentOffset (data : List UInt8) (storage : Storage) : UInt64 × Storage :=
  match storage.fp with
  | none => (0, storage)
  | some _ => (UInt64.ofNat data.length, { storage with fp := some data.length })

/-! ### Decoding records -/

/-- The fields both decoders read at a position whose header is in bounds. -/
def decodeFields (data : List UInt8) (mapping position : Nat) (dimension : UInt64)
    (record : Record) : Record :=
  let len := u64At data (position + 16)
  let metaStart := UInt64.ofNat position + recordHeaderBytes + 4 * dimension
  { record with
    id := u64At data position
    isDeleted := u64At data (position + 8) &&& 1 != 0
    vector := .mapped mapping (position + 24)
    metadata :=
      if 0 < len then some (CString.ofBytes (bytesAt data metaStart.toNat len.toNat)) else none }

/-- Contents of a `Record_t` on the stack that no one has written to. -/
def Record.blank : Record :=
  { id := 0
    vector := .null
    metadata := none
    isDeleted := false
    byteOffset := 0
    isMmap := false }

/-- `storage_load_record`: the return value 1 is `.ok`, the others are `.error`. -/
def storageLoadRecord (data : List UInt8) (storage : Storage) (dimension : UInt64) :
    Except Int Record × Storage :=
  match storage.mmapData, storage.fp with
  | some mapping, some currentPos =>
      let position := UInt64.ofNat currentPos
      if storage.fileSize ≤ position then (.error 0, storage)
      else if storage.fileSize < position + recordHeaderBytes then (.error 0, storage)
      else
        let total := recordPaddedSize dimension (u64At data (currentPos + 16))
        if storage.fileSize < position + total then (.error 0, storage)
        else
          let record := decodeFields data mapping currentPos dimension Record.blank
          (.ok { record with byteOffset := position, isMmap := true },
            storage.seekSet ((currentPos : Int) + asLong total))
  | _, _ => (.error (-1), storage)

/-- `storage_fetch_by_offset` fills the given record, but not its offset. -/
def storageFetchByOffset (data : List UInt8) (storage : Storage) (byteOffset : UInt64)
    (record : Record) (dimension : UInt64) : Except Int Record :=
  match storage.mmapData with
  | none => .error (-1)
  | some mapping =>
      if storage.fileSize ≤ byteOffset then .error (-1)
      else if storage.fileSize < byteOffset + recordHeaderBytes then .error (-1)
      else
        let len := u64At data (byteOffset.toNat + 16)
        if storage.fileSize < byteOffset + recordPaddedSize dimension len then .error (-1)
        else .ok (decodeFields data mapping byteOffset.toNat dimension record)

/-- Repeat `storage_load_record` until it returns something other than 1.
The result is the loaded records, the last return value and the handle;
`none` is a repetition that has not ended within `fuel` calls. -/
def loadAll (data : List UInt8) (dimension : UInt64) :
    Nat → Storage → Option (List Record × Int × Storage)
  | 0, _ => none
  | fuel + 1, storage =>
      match storageLoadRecord data storage dimension with
      | (.error code, stopped) => some ([], code, stopped)
      | (.ok record, next) =>
          (loadAll data dimension fuel next).map fun (records, code, stopped) =>
            (record :: records, code, stopped)

/-! ### Remapping and compaction -/

/-- `storage_remap`. -/
def storageRemap (data : List UInt8) (storage : Storage) : Int × Storage :=
  match storage.fp with
  | none => (-1, storage)
  | some _ =>
      let sought := { storage with fp := some data.length }
      let newSize := UInt64.ofNat data.length
      if newSize = storage.fileSize then (0, sought) else (0, sought.mapFile newSize)

/-- Outcome of the file operations of `storage_compact`: the temporary file
cannot be written, the swap fails (the old file may reopen or not), the
swapped file does not reopen, or everything succeeds. -/
inductive CompactIO where
  | ok
  | writeFailed
  | renameFailed (reopened : Bool)
  | reopenFailed
deriving DecidableEq

/-- The frame `storage_compact` writes for one record, field by field. -/
def compactFrame {dimension : UInt64} (stored : StoredRecord dimension) : List UInt8 :=
  Foundation.LittleEndian.encode 8 stored.id.toNat ++
    Foundation.LittleEndian.encode 8 stored.flags.toNat ++
    Foundation.LittleEndian.encode 8 stored.metaLen.toNat ++
    StoredRecord.vectorBytes stored.vector ++
    stored.metaBytes ++
    List.replicate stored.padding 0

/-- The copy loop of `storage_compact`: live records are appended to `out` and
kept with the offset they get there. -/
def compactCopy (data : List UInt8) (storage : Storage) (dimension : UInt64) :
    List Record → List UInt8 → Option (List (Record × UInt64) × List UInt8)
  | [], out => some ([], out)
  | record :: rest, out =>
      if record.isDeleted then compactCopy data storage dimension rest out
      else
        match record.contents data storage dimension with
        | none => none
        | some stored =>
            (compactCopy data storage dimension rest (out ++ compactFrame stored)).map
              fun (kept, file) => ((record, UInt64.ofNat out.length) :: kept, file)

/-- The loop that points the kept records at the new file.  A record that was
not mapped loses its vector. -/
def compactRebase (storage : Storage) (kept : Record × UInt64) : Record :=
  match kept.1.isMmap, storage.mmapData with
  | true, some mapping =>
      { kept.1 with
        byteOffset := kept.2
        vector := .mapped mapping (kept.2 + recordHeaderBytes).toNat
        isMmap := true }
  | _, _ =>
      { kept.1 with
        byteOffset := kept.2
        vector := .null
        isMmap := false }

/-- `storage_compact`: return value, data file, handle and record array. -/
def storageCompact (io : CompactIO) (data : List UInt8) (storage : Storage)
    (records : List Record) (dimension : UInt64) :
    Option (Int × List UInt8 × Storage × List Record) :=
  match io with
  | .writeFailed => some (-1, data, storage, records)
  | .renameFailed reopened =>
      (compactCopy data storage dimension records []).map fun _ =>
        let closed := { storage with fp := none, mmapData := none }
        let reopenedStorage :=
          if reopened then { closed with fp := some 0 }.mapFile storage.fileSize else closed
        (-1, data, reopenedStorage, records)
  | .reopenFailed =>
      (compactCopy data storage dimension records []).map fun (_, file) =>
        (-1, file, { storage with fp := none, mmapData := none }, records)
  | .ok =>
      (compactCopy data storage dimension records []).map fun (kept, file) =>
        let closed := { storage with fp := some file.length, mmapData := none }
        let swapped := closed.mapFile (UInt64.ofNat file.length)
        (0, file, swapped, kept.map (compactRebase swapped))

/-! ### Writing in place -/

/-- Write `bytes` at `offset`; a gap past the end of the file is filled with zeros. -/
def writeAt (data : List UInt8) (offset : Nat) (bytes : List UInt8) : List UInt8 :=
  data.take offset ++ List.replicate (offset - data.length) 0 ++ bytes ++
    data.drop (offset + bytes.length)

end OriginDb
