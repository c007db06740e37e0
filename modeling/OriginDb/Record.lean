/-
Records, their vectors in memory and their byte layout.

A vector pointer is null, a heap block, or an address inside one identified
mapping of the data file; a pointer into a mapping that has been replaced is
thereby distinct from one into the current mapping.  Floating-point values are
kept as their 32-bit patterns: storage copies them and never computes on them.
-/

import Mathlib.Data.List.TakeWhile
import OriginDb.Foundation.LittleEndian

namespace OriginDb

open Foundation

/-- The characters of a C string before its terminating NUL. -/
structure CString where
  bytes : List UInt8
  nulFree : (0 : UInt8) ∉ bytes
deriving DecidableEq

/-- The C string that starts a byte buffer: everything before its first NUL. -/
def CString.ofBytes (bytes : List UInt8) : CString where
  bytes := bytes.takeWhile (fun byte => byte != 0)
  nulFree := by
    intro member
    have kept := List.mem_takeWhile_imp member
    simp at kept

def CString.strlen (text : CString) : Nat := text.bytes.length

theorem CString.ofBytes_bytes (text : CString) : CString.ofBytes text.bytes = text := by
  have unchanged : text.bytes.takeWhile (fun byte => byte != 0) = text.bytes := by
    apply List.takeWhile_eq_self_iff.mpr
    intro byte member
    have nonzero : byte ≠ 0 := fun zero => text.nulFree (zero ▸ member)
    simpa using nonzero
  cases text
  simp only [CString.ofBytes] at unchanged ⊢
  congr

/-- Where `Record_t.vector` points. -/
inductive VectorRef where
  | null
  | heap (values : List UInt32)
  | mapped (mapping offset : Nat)
deriving DecidableEq

/-- `Record_t`: an entry of the in-memory record array. -/
structure Record where
  id : UInt64
  vector : VectorRef
  metadata : Option CString
  isDeleted : Bool
  byteOffset : UInt64
  isMmap : Bool
deriving DecidableEq

/-- The value of a record of a table with the given dimension: what one frame
of the data file holds. -/
structure StoredRecord (dimension : UInt64) where
  id : UInt64
  vector : List UInt32
  vector_length : vector.length = dimension.toNat
  metadata : Option CString
  isDeleted : Bool
deriving DecidableEq

/-- `sizeof(Record_t)` with 8-byte pointers and natural alignment. -/
def sizeofRecord : UInt64 := 48

/-- `RECORD_HEADER_BYTES`: id, flags and metadata length, 8 bytes each. -/
def recordHeaderBytes : UInt64 := 24

/-- `record_padded_size`, in wrapping 64-bit arithmetic as `size_t` is. -/
def recordPaddedSize (dimension metaLen : UInt64) : UInt64 :=
  (recordHeaderBytes + 4 * dimension + metaLen + 7) &&& ~~~7

namespace StoredRecord

variable {dimension : UInt64}

def metaBytes (record : StoredRecord dimension) : List UInt8 :=
  (record.metadata.map CString.bytes).getD []

/-- `len` of `storage_write_record`: `strlen` of the metadata, 0 when it is NULL. -/
def metaLen (record : StoredRecord dimension) : UInt64 :=
  UInt64.ofNat record.metaBytes.length

def flags (record : StoredRecord dimension) : UInt64 := if record.isDeleted then 1 else 0

def vectorBytes (values : List UInt32) : List UInt8 :=
  values.flatMap (fun value => LittleEndian.encode 4 value.toNat)

/-- `pad` of `storage_write_record`. -/
def padding (record : StoredRecord dimension) : Nat :=
  (recordPaddedSize dimension record.metaLen -
    (recordHeaderBytes + 4 * dimension + record.metaLen)).toNat

/-- The bytes that the successive `fwrite` calls of `storage_write_record`
append, in order: id, flags, metadata length, vector, metadata, padding. -/
def encode (record : StoredRecord dimension) : List UInt8 :=
  LittleEndian.encode 8 record.id.toNat ++
    LittleEndian.encode 8 record.flags.toNat ++
    LittleEndian.encode 8 record.metaLen.toNat ++
    vectorBytes record.vector ++
    record.metaBytes ++
    List.replicate record.padding 0

/-- Empty metadata has length 0 on disk and is read back as absent. -/
def canon (record : StoredRecord dimension) : StoredRecord dimension :=
  { record with
    metadata := if record.metaBytes = [] then none else record.metadata }

end StoredRecord

theorem vector_length_of_subtype {dimension : UInt64}
    (vector : { values : List UInt32 // values.length = dimension.toNat }) :
    vector.val.length = dimension.toNat := vector.property

/-! ### Reading words out of a byte list -/

def bytesAt (data : List UInt8) (offset count : Nat) : List UInt8 :=
  (data.drop offset).take count

def u64At (data : List UInt8) (offset : Nat) : UInt64 :=
  UInt64.ofNat (LittleEndian.decode (bytesAt data offset 8))

def u32At (data : List UInt8) (offset : Nat) : UInt32 :=
  UInt32.ofNat (LittleEndian.decode (bytesAt data offset 4))

/-- `count` consecutive floats, as a pointer to the first of them reads them. -/
def floatsAt (data : List UInt8) (offset : Nat) : Nat → List UInt32
  | 0 => []
  | count + 1 => u32At data offset :: floatsAt data (offset + 4) count

@[simp] theorem floatsAt_length (data : List UInt8) (offset count : Nat) :
    (floatsAt data offset count).length = count := by
  induction count generalizing offset with
  | zero => rfl
  | succ count ih => simp only [floatsAt, List.length_cons, ih]

end OriginDb
