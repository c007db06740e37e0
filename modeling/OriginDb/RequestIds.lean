/-
The id that a request names and the id that it acts on.

Both parsers take the number of the field `id` for a `uint32_t` by a cast that nothing
guards.  The numbers are the rational numbers that a JSON text can name; the cast
truncates those from 0 to 2^32, and of the others nothing is known.
-/

import Mathlib.Data.Rat.Floor
import OriginDb.Requests

namespace OriginDb

/-- The cast of a `double` to `uint32_t`, where it is defined. -/
def NumberCasts.Truncates (casts : NumberCasts ℚ) : Prop :=
  ∀ number : ℚ, 0 ≤ number → number < 2 ^ 32 → (casts.toUint32 number).toNat = ⌊number⌋₊

/-- The requests that name an id. -/
inductive IdRequest where
  | insert
  | deleteRequest
deriving DecidableEq

/-- The id that `parse_insert_request` or `parse_delete_request` puts into its request,
if it accepts the body. -/
def acceptedId (casts : NumberCasts ℚ) (body : Json ℚ) : IdRequest → Option UInt64
  | .insert => (parseInsertRequest casts body).map fun req => req.id.toUInt64
  | .deleteRequest => (parseDeleteRequest casts body).map DeleteReq.id

def Json.isNumber : Json ℚ → Bool
  | .number _ _ => true
  | _ => false

/-- What a parser asks of the other fields. -/
def OtherFieldsFit (body : Json ℚ) (request : IdRequest) : Prop :=
  (∃ dbName, body.getObjectItem "db_name" = some (.string dbName)) ∧
    match request with
    | .insert => ∃ items, body.getObjectItem "vector" = some (.array items) ∧
        (∀ item ∈ items, item.isNumber = true) ∧ items.length < 2 ^ 31
    | .deleteRequest => True

/-- The number of the field `id`. -/
def NamesNumber (body : Json ℚ) (number : ℚ) : Prop :=
  ∃ valueInt, body.getObjectItem "id" = some (.number valueInt number)

def Whole (number : ℚ) : Prop := ∃ id : UInt32, number = id.toNat

/-- An accepted body acts on the number it names, and a body that names no integer from
0 to 2^32 is refused. -/
structure ActsOnNamedId (casts : NumberCasts ℚ) (body : Json ℚ) (request : IdRequest) : Prop where
  exact : ∀ id, acceptedId casts body request = some id →
    ∃ number, NamesNumber body number ∧ (id.toNat : ℚ) = number
  refused : ∀ number, NamesNumber body number → ¬Whole number →
    acceptedId casts body request = none

/-- Two accepted bodies with different ids do not act on the same record id. -/
def NeverAlias (casts : NumberCasts ℚ) (body other : Json ℚ) (request otherRequest : IdRequest) :
    Prop :=
  ∀ number otherNumber id otherId, NamesNumber body number → NamesNumber other otherNumber →
    number ≠ otherNumber → acceptedId casts body request = some id →
      acceptedId casts other otherRequest = some otherId → id ≠ otherId

/-- The other fields are refused, or the id is an integer from 0 to 2^32. -/
def NamesWholeId (body : Json ℚ) (request : IdRequest) : Prop :=
  OtherFieldsFit body request → ∀ number, NamesNumber body number → Whole number

theorem parseVector_eq_some {casts : NumberCasts ℚ} {items : List (Json ℚ)} {vector : List UInt32}
    (parsed : parseVector casts items = some vector) :
    (∀ item ∈ items, item.isNumber = true) ∧ vector.length = items.length := by
  induction items generalizing vector with
  | nil =>
      cases Option.some.inj parsed
      exact ⟨fun item none => absurd none List.not_mem_nil, rfl⟩
  | cons item items ih =>
      rw [parseVector, List.mapM_cons] at parsed
      cases item with
      | number valueInt number =>
          obtain ⟨first, -, restBind⟩ := Option.bind_eq_some_iff.mp parsed
          obtain ⟨rest, restParsed, vectorEq⟩ := Option.bind_eq_some_iff.mp restBind
          obtain ⟨restNumbers, restLength⟩ := ih restParsed
          cases Option.some.inj vectorEq
          exact ⟨List.forall_mem_cons.mpr ⟨rfl, restNumbers⟩, congrArg Nat.succ restLength⟩
      | null => cases parsed
      | bool value => cases parsed
      | string valueString => cases parsed
      | array values => cases parsed
      | object members => cases parsed

theorem parseVector_of_numbers (casts : NumberCasts ℚ) {items : List (Json ℚ)}
    (numbers : ∀ item ∈ items, item.isNumber = true) :
    ∃ vector, parseVector casts items = some vector := by
  induction items with
  | nil => exact ⟨[], rfl⟩
  | cons item items ih =>
      obtain ⟨rest, restParsed⟩ :=
        ih fun other member => numbers other (List.mem_cons_of_mem item member)
      cases item with
      | number valueInt number =>
          apply Exists.intro (casts.toFloat number :: rest)
          unfold parseVector at restParsed ⊢
          rw [List.mapM_cons, restParsed]
          rfl
      | null => cases numbers _ (List.mem_cons_self ..)
      | bool value => cases numbers _ (List.mem_cons_self ..)
      | string valueString => cases numbers _ (List.mem_cons_self ..)
      | array values => cases numbers _ (List.mem_cons_self ..)
      | object members => cases numbers _ (List.mem_cons_self ..)

/-- A body is accepted when its fields fit, with the cast of its number as id. -/
theorem acceptedId_eq_some_iff (casts : NumberCasts ℚ) (body : Json ℚ) (request : IdRequest)
    (id : UInt64) :
    acceptedId casts body request = some id ↔
      OtherFieldsFit body request ∧
        ∃ number, NamesNumber body number ∧ id = (casts.toUint32 number).toUInt64 := by
  constructor
  · intro accepted
    cases request with
    | insert =>
        obtain ⟨req, parsed, rfl⟩ := Option.map_eq_some_iff.mp accepted
        unfold parseInsertRequest at parsed
        split at parsed
        · rename_i dbName valueInt number items dbNameEq idEq vectorEq
          split at parsed
          · cases parsed
          · rename_i vector vectorParsed
            split at parsed
            · rename_i bounded
              obtain ⟨numbers, lengthEq⟩ := parseVector_eq_some vectorParsed
              cases Option.some.inj parsed
              exact ⟨⟨⟨dbName, dbNameEq⟩, items, vectorEq, numbers, lengthEq ▸ bounded⟩, number,
                ⟨valueInt, idEq⟩, rfl⟩
            · cases parsed
        · cases parsed
    | deleteRequest =>
        obtain ⟨req, parsed, rfl⟩ := Option.map_eq_some_iff.mp accepted
        unfold parseDeleteRequest at parsed
        split at parsed
        · rename_i dbName valueInt number dbNameEq idEq
          cases Option.some.inj parsed
          exact ⟨⟨⟨dbName, dbNameEq⟩, trivial⟩, number, ⟨valueInt, idEq⟩, rfl⟩
        · cases parsed
  · rintro ⟨⟨⟨dbName, dbNameEq⟩, fits⟩, number, ⟨valueInt, idEq⟩, rfl⟩
    cases request with
    | insert =>
        obtain ⟨items, vectorEq, numbers, short⟩ := fits
        obtain ⟨vector, parsed⟩ := parseVector_of_numbers casts numbers
        have bounded : vector.length < 2 ^ 31 := (parseVector_eq_some parsed).2 ▸ short
        rw [acceptedId, parseInsertRequest, dbNameEq, idEq, vectorEq]
        dsimp only
        rw [parsed]
        dsimp only
        rw [dif_pos bounded]
        rfl
    | deleteRequest =>
        rw [acceptedId, parseDeleteRequest, dbNameEq, idEq]
        rfl

theorem NamesNumber.unique {body : Json ℚ} {number other : ℚ} (names : NamesNumber body number)
    (another : NamesNumber body other) : number = other := by
  obtain ⟨valueInt, found⟩ := names
  obtain ⟨otherInt, otherFound⟩ := another
  cases Option.some.inj (found.symm.trans otherFound)
  rfl

/-- Whole numbers survive the cast. -/
theorem toUint32_whole {casts : NumberCasts ℚ} (truncates : casts.Truncates) {number : ℚ}
    (whole : Whole number) : ((casts.toUint32 number).toUInt64.toNat : ℚ) = number := by
  obtain ⟨id, rfl⟩ := whole
  have small : (id.toNat : ℚ) < 2 ^ 32 := by
    exact_mod_cast id.toNat_lt
  have castEq := truncates id.toNat (Nat.cast_nonneg _) small
  rw [Nat.floor_natCast] at castEq
  rw [UInt32.toNat_toUInt64, castEq]

theorem acceptedId_exact {casts : NumberCasts ℚ} (truncates : casts.Truncates) {body : Json ℚ}
    {request : IdRequest} (names : NamesWholeId body request) {id : UInt64}
    (accepted : acceptedId casts body request = some id) :
    ∃ number, NamesNumber body number ∧ (id.toNat : ℚ) = number := by
  obtain ⟨fits, number, named, rfl⟩ := (acceptedId_eq_some_iff casts body request id).mp accepted
  exact ⟨number, named, toUint32_whole truncates (names fits number named)⟩

/-- A request acts on the id it names, and on none that another names, exactly when the id
is an integer from 0 to 2^32 or another field is refused. -/
theorem request_acts_on_named_id_iff {casts : NumberCasts ℚ} (truncates : casts.Truncates)
    (body : Json ℚ) (request : IdRequest) :
    (ActsOnNamedId casts body request ∧
      ∀ other otherRequest, NamesWholeId other otherRequest →
        NeverAlias casts body other request otherRequest) ↔
      NamesWholeId body request := by
  constructor
  · rintro ⟨acts, -⟩ fits number named
    by_contra notWhole
    have accepted := (acceptedId_eq_some_iff casts body request _).mpr ⟨fits, number, named, rfl⟩
    rw [acts.refused number named notWhole] at accepted
    cases accepted
  · intro names
    constructor
    · constructor
      · exact fun id accepted => acceptedId_exact truncates names accepted
      · intro number named notWhole
        cases accepted : acceptedId casts body request with
        | none => rfl
        | some id =>
            have fits := ((acceptedId_eq_some_iff casts body request id).mp accepted).1
            exact absurd (names fits number named) notWhole
    · intro other otherRequest otherNames number otherNumber id otherId named otherNamed different
        accepted otherAccepted same
      obtain ⟨value, valueNamed, idEq⟩ := acceptedId_exact truncates names accepted
      obtain ⟨otherValue, otherValueNamed, otherIdEq⟩ :=
        acceptedId_exact truncates otherNames otherAccepted
      apply different
      rw [named.unique valueNamed, otherNamed.unique otherValueNamed, ← idEq, ← otherIdEq, same]

def truncatingCasts : NumberCasts ℚ where
  toUint32 := fun number => UInt32.ofNat ⌊number⌋₊
  toUint64 := fun number => UInt64.ofNat ⌊number⌋₊
  toFloat := fun _ => 0

theorem truncatingCasts_truncates : truncatingCasts.Truncates := by
  intro number nonnegative small
  have below : ⌊number⌋₊ < 2 ^ 32 := by
    rw [Nat.floor_lt nonnegative]
    exact_mod_cast small
  exact UInt32.toNat_ofNat_of_lt' below

theorem dbNameKey_nulFree : (0 : UInt8) ∉ asciiBytes "db_name" := by decide

theorem idKey_nulFree : (0 : UInt8) ∉ asciiBytes "id" := by decide

theorem movies_nulFree : (0 : UInt8) ∉ asciiBytes "movies" := by decide

/-- A request to delete a record by its number. -/
def deleteBody (number : ℚ) : Json ℚ :=
  .object
    [(⟨asciiBytes "db_name", dbNameKey_nulFree⟩, .string ⟨asciiBytes "movies", movies_nulFree⟩),
      (⟨asciiBytes "id", idKey_nulFree⟩, .number ⌊number⌋ number)]

theorem deleteBody_names (number : ℚ) : NamesNumber (deleteBody number) number :=
  ⟨⌊number⌋, rfl⟩

theorem delete_one_acts_on_one : ActsOnNamedId truncatingCasts (deleteBody 1) .deleteRequest :=
  ((request_acts_on_named_id_iff truncatingCasts_truncates (deleteBody 1) .deleteRequest).mpr
    fun _ number named => ⟨1, by
      rw [named.unique (deleteBody_names 1)]
      exact Nat.cast_one.symm⟩).1

/-- A request to delete record 1.5 is accepted, for record 1. -/
theorem fraction_deletes_another_record :
    ¬∀ (casts : NumberCasts ℚ), casts.Truncates → ∀ (body : Json ℚ) (request : IdRequest),
      ActsOnNamedId casts body request := by
  intro claimed
  have acts := claimed truncatingCasts truncatingCasts_truncates (deleteBody (3 / 2)) .deleteRequest
  have accepted : acceptedId truncatingCasts (deleteBody (3 / 2)) .deleteRequest =
      some (UInt32.ofNat ⌊(3 / 2 : ℚ)⌋₊).toUInt64 := rfl
  have floorEq : ⌊(3 / 2 : ℚ)⌋₊ = 1 := by
    rw [Nat.floor_eq_iff (by norm_num)]
    norm_num
  rw [floorEq] at accepted
  obtain ⟨number, named, exact⟩ := acts.exact _ accepted
  rw [named.unique (deleteBody_names _)] at exact
  have one : ((UInt32.ofNat 1).toUInt64.toNat : ℚ) = 1 := Nat.cast_one
  rw [one] at exact
  norm_num at exact

end OriginDb
