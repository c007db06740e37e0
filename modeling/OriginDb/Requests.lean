/-
What a request says: `parser.c`, the routing of `handel_client`, and the key
check of `server.c`.

The JSON text is parsed by cJSON, which is a parameter here: a body is whatever
tree it returns, or none.  A number is the pair of its integer value and its
double; the conversions of the double are parameters too.  Header and body are
C strings, as the functions that look into them take them.
-/

import OriginDb.ServerTable

namespace OriginDb

def asciiBytes (text : String) : List UInt8 := text.toList.map fun char => UInt8.ofNat char.toNat

/-! ### JSON bodies -/

/-- `cJSON`, with the doubles in `ν`. -/
inductive Json (ν : Type) where
  | null
  | bool (value : Bool)
  | number (valueInt : Int) (valueDouble : ν)
  | string (valueString : CString)
  | array (items : List (Json ν))
  | object (members : List (CString × Json ν))

/-- The casts of `valuedouble` to `uint32_t`, `uint64_t` and `float`. -/
structure NumberCasts (ν : Type) where
  toUint32 : ν → UInt32
  toUint64 : ν → UInt64
  toFloat : ν → UInt32

variable {ν : Type}

/-- `cJSON_GetObjectItemCaseSensitive`: the first member with the name. -/
def Json.getObjectItem (json : Json ν) (name : String) : Option (Json ν) :=
  match json with
  | .object members =>
      (members.find? fun entry => entry.1.bytes == asciiBytes name).map Prod.snd
  | _ => none

def CString.truncate (text : CString) (length : Nat) : CString where
  bytes := text.bytes.take length
  nulFree := fun member => text.nulFree (List.mem_of_mem_take member)

/-- `char db_name[100]` filled by `strncpy`. -/
def copyDbName (name : CString) : CString := name.truncate 99

structure SearchReq where
  dbName : CString
  topK : UInt32
  nprobe : UInt32
  useAnn : Bool
  queryVector : List UInt32
deriving DecidableEq

structure TrainReq where
  dbName : CString
  k : UInt64
  maxIterations : UInt64
deriving DecidableEq

structure DeleteReq where
  dbName : CString
  id : UInt64
deriving DecidableEq

/-- An `int` converted to `uint32_t`. -/
def uint32OfInt (value : Int) : UInt32 := UInt32.ofNat (value % 2 ^ 32).toNat

/-- The loop over a JSON array that refuses anything but numbers. -/
def parseVector (casts : NumberCasts ν) (items : List (Json ν)) : Option (List UInt32) :=
  items.mapM fun item =>
    match item with
    | .number _ value => some (casts.toFloat value)
    | _ => none

def parseSearchRequest (casts : NumberCasts ν) (json : Json ν) : Option SearchReq :=
  match json.getObjectItem "db_name", json.getObjectItem "top_k", json.getObjectItem "use_ann",
      json.getObjectItem "query_vector" with
  | some (.string dbName), some (.number topK _), some (.bool useAnn), some (.array items) =>
      let nprobe :=
        match json.getObjectItem "nprobe" with
        | some (.number value _) => value
        | _ => 1
      (parseVector casts items).map fun vector =>
        { dbName := copyDbName dbName
          topK := uint32OfInt topK
          nprobe := uint32OfInt nprobe
          useAnn := useAnn
          queryVector := vector }
  | _, _, _, _ => none

/-- A body has at most 10485760 bytes, so an array that `cJSON_GetArraySize`
cannot count does not occur. -/
def parseInsertRequest (casts : NumberCasts ν) (json : Json ν) : Option InsertReq :=
  match json.getObjectItem "db_name", json.getObjectItem "id", json.getObjectItem "vector" with
  | some (.string dbName), some (.number _ id), some (.array items) =>
      match parseVector casts items with
      | none => none
      | some vector =>
          if bounded : vector.length < 2 ^ 31 then
            some
              { dbName := copyDbName dbName
                id := casts.toUint32 id
                vector := vector
                bounded := bounded
                metadata :=
                  match json.getObjectItem "metadata" with
                  | some (.string text) => some text
                  | _ => none }
          else none
  | _, _, _ => none

def parseTrainRequest (casts : NumberCasts ν) (json : Json ν) : Option TrainReq :=
  match json.getObjectItem "db_name", json.getObjectItem "k",
      json.getObjectItem "max_iterations" with
  | some (.string dbName), some (.number _ k), some (.number _ maxIterations) =>
      some
        { dbName := copyDbName dbName
          k := casts.toUint64 k
          maxIterations := casts.toUint64 maxIterations }
  | _, _, _ => none

def parseDeleteRequest (casts : NumberCasts ν) (json : Json ν) : Option DeleteReq :=
  match json.getObjectItem "db_name", json.getObjectItem "id" with
  | some (.string dbName), some (.number _ id) =>
      some
        { dbName := copyDbName dbName
          id := (casts.toUint32 id).toUInt64 }
  | _, _ => none

/-! ### Headers -/

/-- `strstr`: the text from the first occurrence on. -/
def strstr : List UInt8 → List UInt8 → Option (List UInt8)
  | [], needle => if needle = [] then some [] else none
  | char :: rest, needle =>
      if needle.isPrefixOf (char :: rest) then some (char :: rest) else strstr rest needle

inductive Route where
  | search
  | insert
  | deleteRequest
  | train
  | invalid
deriving DecidableEq

/-- The chain of `strstr` tests of `handel_client`. -/
def routeOf (headerBuffer : CString) : Route :=
  if (strstr headerBuffer.bytes (asciiBytes "POST /search")).isSome then .search
  else if (strstr headerBuffer.bytes (asciiBytes "POST /insert")).isSome then .insert
  else if (strstr headerBuffer.bytes (asciiBytes "POST /delete-request")).isSome then
    .deleteRequest
  else if (strstr headerBuffer.bytes (asciiBytes "POST /train")).isSome then .train
  else .invalid

/-- `isspace` in the C locale. -/
def isspace (char : UInt8) : Bool := char == 32 || (9 ≤ char && char ≤ 13)

/-- `sscanf` with `%64s`. -/
def scanToken (text : List UInt8) : List UInt8 :=
  ((text.dropWhile isspace).takeWhile fun char => !isspace char).take 64

/-! ### The key store -/

/-- `auth_entry_t`, two buffers of 65 bytes; both texts end before their first NUL. -/
structure AuthEntry where
  dbName : List UInt8
  apiKey : List UInt8
  dbNameFits : dbName.length ≤ 64
  apiKeyFits : apiKey.length ≤ 64
deriving DecidableEq

/-- `fgets` into `char line[256]`: the line and the rest of the file. -/
def fgets (file : List UInt8) : List UInt8 × List UInt8 :=
  match (file.take 255).findIdx? (· == 10) with
  | some newline => (file.take (newline + 1), file.drop (newline + 1))
  | none => (file.take 255, file.drop 255)

/-- The entry of one line: what stands around its first colon, 64 bytes each. -/
def authEntryOfLine (line : List UInt8) : Option AuthEntry :=
  let text := line.takeWhile fun char => char != 0 && char != 13 && char != 10
  match text.findIdx? (· == 58) with
  | none => none
  | some colon =>
      some
        { dbName := (text.take colon).take 64
          apiKey := (text.drop (colon + 1)).take 64
          dbNameFits := List.length_take_le _ _
          apiKeyFits := List.length_take_le _ _ }

/-- The loop over the lines of `.auth_keys`; `room` is what is left of
`MAX_AUTH_KEYS`, and every round takes at least one byte. -/
def readAuthEntries : Nat → Nat → List UInt8 → List AuthEntry
  | 0, _, _ => []
  | _, 0, _ => []
  | fuel + 1, room + 1, file =>
      if file = [] then []
      else
        let (line, rest) := fgets file
        match authEntryOfLine line with
        | none => readAuthEntries fuel (room + 1) rest
        | some entry => entry :: readAuthEntries fuel room rest

/-- `load_auth_cache`: a missing key file leaves the cache as it is. -/
def loadAuthCache (authKeys : Option (List UInt8)) (authCache : List AuthEntry) :
    List AuthEntry :=
  match authKeys with
  | none => authCache
  | some file => readAuthEntries file.length 128 file

/-- `verify_api_key`: the first entry of the table decides. -/
def verifyApiKey (authCache : List AuthEntry) (dbName : CString) (providedKey : List UInt8) :
    Bool :=
  match authCache.find? fun entry => entry.dbName == dbName.bytes with
  | none => false
  | some entry => entry.apiKey == providedKey

def authenticateRequest (authCache : List AuthEntry) (headerBuffer dbName : CString) : Bool :=
  match strstr headerBuffer.bytes (asciiBytes "Authorization: Bearer ") with
  | none => false
  | some found => verifyApiKey authCache dbName (scanToken (found.drop 22))

end OriginDb
