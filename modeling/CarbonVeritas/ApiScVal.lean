/-
# The encoders of the API

`api/src/stellar/scval.ts`: the arguments that the API builds for contract calls and the way it
reads a `CreditMetadata` that a contract returned.

The encoders write a struct as a vector of its fields in declaration order and an `Option` as a
vector of at most one value, where the contract reads a map and a bare value or void
(`ScVal`); the decoder expects a vector of a struct as well.  `agrees_iff` lists what the two
sides exchange and says which of it they agree on: the addresses of accounts.
-/
import CarbonVeritas.ScVal

namespace CarbonVeritas

/-! ## Inputs -/

/-- A `number | bigint`. -/
inductive Numeric where
  | number (x : JsNumber)
  | bigint (z : ℤ)

namespace Numeric

def toJsValue : Numeric → JsValue
  | .number x => .number x
  | .bigint z => .bigint z

/-- The number that is meant, where it is finite. -/
def value : Numeric → Option ℚ
  | .number (.finite q) => some q
  | .number _ => none
  | .bigint z => some z

end Numeric

/-- A `CreditMetadataInput`; a field may be missing. -/
structure CreditMetadataInput where
  projectId : Option String := none
  methodology : Option String := none
  vintageStart : Option Numeric := none
  vintageEnd : Option Numeric := none
  tonnes : Option Numeric := none
  geography : Option String := none
  serialPrefix : Option String := none
  sdgFlags : Option JsNumber := none
  permanenceRating : Option JsNumber := none
  bufferContributionPct : Option JsNumber := none
  additionalityType : Option JsNumber := none
  ipfsHash : Option String := none
  status : Option JsNumber := none
  createdAt : Option Numeric := none
  tokenId : Option String := none

/-- What the SDK does with the numbers of an argument. -/
structure ArgumentSdk extends StellarSdk where
  /-- `xdr.Uint64.fromString(text)`; `none` when it throws -/
  uint64FromString : String → Option ℕ
  /-- `new ScInt(value).toI128()`; `none` when it throws -/
  toI128 : Numeric → Option ℤ

inductive ApiError where
  /-- an `Error` of the API with its message -/
  | message (text : String)
  /-- an error of the SDK -/
  | sdk
  deriving DecidableEq, Repr

namespace ApiScVal

/-! ## Encoders -/

section Encoders

variable (engine : JsEngine) (sdk : ArgumentSdk)

def orThrow {α : Type} (x : Option α) (e : ApiError) : Except ApiError α :=
  match x with
  | some a => .ok a
  | none => .error e

def scAddress (addr : String) : Except ApiError ScVal :=
  if sdk.isValidEd25519PublicKey addr then
    (orThrow (sdk.readAddress addr) .sdk).map .address
  else .error (.message ("Invalid Stellar address: " ++ addr))

/-- The UTF-8 bytes of a text. -/
def utf8 (value : String) : List UInt8 := value.toUTF8.data.toList

def scString (value : String) : ScVal := .string (utf8 value)

/-- `Number.isInteger(value)` -/
def asInteger : JsNumber → Option ℤ
  | .finite q => if q.den = 1 then some q.num else none
  | _ => none

def scU32 (value : JsNumber) : Except ApiError ScVal :=
  match asInteger value with
  | some (.ofNat n) => .ok (.u32 n)
  | _ => .error (.message ("Invalid u32 value: " ++ JsValue.numberText engine value))

def scU64 (value : Numeric) : Except ApiError ScVal := do
  if let .number x := value then
    if asInteger x = none then
      throw (.message ("Invalid u64 value: " ++ JsValue.numberText engine x))
  let n ← orThrow (sdk.uint64FromString (value.toJsValue.text engine)) .sdk
  return .u64 n

def scI128 (value : Numeric) : Except ApiError ScVal :=
  (orThrow (sdk.toI128 value) .sdk).map .i128

def hexPairs : List Char → Option (List UInt8)
  | [] => some []
  | [_] => none
  | a :: b :: rest => do
      let x ← JsNumber.digitValue 16 a
      let y ← JsNumber.digitValue 16 b
      let bytes ← hexPairs rest
      return UInt8.ofNat (16 * x + y) :: bytes

def hexToBytes (hex : String) : Except ApiError (List UInt8) :=
  orThrow (hexPairs hex.toList) (.message ("Invalid hex string: " ++ hex))

def scBytes32 (hex : String) : Except ApiError ScVal := do
  let buf ← hexToBytes hex
  if buf.length ≠ 32 then
    throw (.message ("BytesN<32> requires 32 bytes, got " ++ toString buf.length))
  return .bytes buf

/-- The encoder of an `Option`. -/
def scOption {α : Type} (encode : α → Except ApiError ScVal) (value : Option α) :
    Except ApiError ScVal :=
  match value with
  | none => .ok (.vec [])
  | some a => (encode a).map fun v => .vec [v]

def scOptionU64 (value : Option Numeric) : Except ApiError ScVal :=
  scOption (scU64 engine sdk) value

def scOptionString (value : Option String) : Except ApiError ScVal :=
  scOption (fun s => .ok (scString s)) value

def scOptionI128 (value : Option Numeric) : Except ApiError ScVal := scOption (scI128 sdk) value

def scStruct (fields : List ScVal) : ScVal := .vec fields

/-- `input.tokenId ? scBytes32(input.tokenId) : xdr.ScVal.scvBytes(Buffer.alloc(32))` -/
def tokenIdScVal : Option String → Except ApiError ScVal
  | none => .ok (.bytes (List.replicate 32 0))
  | some hex => if hex = "" then .ok (.bytes (List.replicate 32 0)) else scBytes32 hex

/-- The fields of `toCreditMetadataScVal` in declaration order. -/
def metadataFields (input : CreditMetadataInput) : Except ApiError (List ScVal) := do
  return [
    scString (input.projectId.getD ""),
    scString (input.methodology.getD ""),
    ← scU64 engine sdk (input.vintageStart.getD (.number (.finite 0))),
    ← scU64 engine sdk (input.vintageEnd.getD (.number (.finite 0))),
    ← scI128 sdk (input.tonnes.getD (.number (.finite 0))),
    scString (input.geography.getD ""),
    scString (input.serialPrefix.getD ""),
    ← scU32 engine (input.sdgFlags.getD (.finite 0)),
    ← scU32 engine (input.permanenceRating.getD (.finite 0)),
    ← scU32 engine (input.bufferContributionPct.getD (.finite 0)),
    ← scU32 engine (input.additionalityType.getD (.finite 0)),
    scString (input.ipfsHash.getD ""),
    ← scU32 engine (input.status.getD (.finite 0)),
    ← scU64 engine sdk (input.createdAt.getD (.number (.finite 0))),
    ← tokenIdScVal input.tokenId]

def toCreditMetadataScVal (input : CreditMetadataInput) : Except ApiError ScVal :=
  (metadataFields engine sdk input).map scStruct

end Encoders

/-! ## Decoders -/

def METADATA_FIELDS : List String := ["projectId", "methodology", "vintageStart", "vintageEnd",
  "tonnes", "geography", "serialPrefix", "sdgFlags", "permanenceRating", "bufferContributionPct",
  "additionalityType", "ipfsHash", "status", "createdAt", "tokenId"]

/-- The fields that are missing from the values are `undefined`. -/
def zipNativeFields (fields : List String) (values : List JsValue) : List (String × JsValue) :=
  fields.mapIdx fun i name => (name, values.getD i .undefined)

/-- `typeof v` -/
def typeName : JsValue → String
  | .undefined => "undefined"
  | .bool _ => "boolean"
  | .number _ => "number"
  | .bigint _ => "bigint"
  | .string _ => "string"
  | _ => "object"

section Decoders

variable (sdk : StellarSdk)

def decodeStruct (fields : List String) (sv : ScVal) : Except ApiError (List (String × JsValue)) :=
  match sv.toNative sdk with
  | .array values => .ok (zipNativeFields fields values)
  | v => .error (.message ("Expected struct Vec, got " ++ typeName v))

def decodeCreditMetadata (sv : ScVal) : Except ApiError (List (String × JsValue)) :=
  decodeStruct sdk METADATA_FIELDS sv

/-- The fields of the metadata as the SDK decodes them. -/
def nativeFields (m : CreditMetadata) : List (String × JsValue) :=
  zipNativeFields METADATA_FIELDS [
    .string (sdk.decodeText m.projectId), .string (sdk.decodeText m.methodology),
    .bigint m.vintageStart, .bigint m.vintageEnd, .bigint m.tonnes,
    .string (sdk.decodeText m.geography), .string (sdk.decodeText m.serialPrefix),
    .number (.finite m.sdgFlags), .number (.finite m.permanenceRating),
    .number (.finite m.bufferContributionPct), .number (.finite m.additionalityType),
    .string (sdk.decodeText m.ipfsHash), .number (.finite m.status.toU32),
    .bigint m.createdAt, .buffer m.tokenId.toBytes]

end Decoders

/-! ## Agreement -/

/-- The input describes the metadata; a missing field stands for its default. -/
structure Corresponds (input : CreditMetadataInput) (m : CreditMetadata) : Prop where
  projectId : utf8 (input.projectId.getD "") = m.projectId
  methodology : utf8 (input.methodology.getD "") = m.methodology
  vintageStart : (input.vintageStart.getD (.bigint 0)).value = some m.vintageStart
  vintageEnd : (input.vintageEnd.getD (.bigint 0)).value = some m.vintageEnd
  tonnes : (input.tonnes.getD (.bigint 0)).value = some m.tonnes
  geography : utf8 (input.geography.getD "") = m.geography
  serialPrefix : utf8 (input.serialPrefix.getD "") = m.serialPrefix
  sdgFlags : input.sdgFlags.getD (.finite 0) = .finite m.sdgFlags
  permanenceRating : input.permanenceRating.getD (.finite 0) = .finite m.permanenceRating
  bufferContributionPct :
    input.bufferContributionPct.getD (.finite 0) = .finite m.bufferContributionPct
  additionalityType : input.additionalityType.getD (.finite 0) = .finite m.additionalityType
  ipfsHash : utf8 (input.ipfsHash.getD "") = m.ipfsHash
  status : input.status.getD (.finite 0) = .finite m.status.toU32
  createdAt : (input.createdAt.getD (.bigint 0)).value = some m.createdAt
  tokenId : hexPairs (input.tokenId.getD "").toList = some m.tokenId.toBytes ∨
    input.tokenId.getD "" = "" ∧ m.tokenId = 0

/-- What the API and a contract exchange. -/
inductive Exchange where
  /-- metadata that the API encodes -/
  | submitted (input : CreditMetadataInput) (m : CreditMetadata) (h : Corresponds input m)
  /-- metadata that a contract returns -/
  | returned (m : CreditMetadata)
  | optionU64 (value : Option Numeric)
  | optionString (value : Option String)
  | optionI128 (value : Option Numeric)
  | address (a : Address)

section Agreement

variable (engine : JsEngine) (sdk : ArgumentSdk)

/-- The receiver reads what the sender meant. -/
def Agrees : Exchange → Prop
  | .submitted input m _ =>
      ∃ v, toCreditMetadataScVal engine sdk input = .ok v ∧ CreditMetadata.ofScVal v = some m
  | .returned m =>
      decodeCreditMetadata sdk.toStellarSdk m.toScVal = .ok (nativeFields sdk.toStellarSdk m)
  | .optionU64 value =>
      ∃ v n, scOptionU64 engine sdk value = .ok v ∧ v.toOption ScVal.toU64 = some n ∧
        n.map (fun k => some (k : ℚ)) = value.map Numeric.value
  | .optionString value =>
      ∃ v, scOptionString value = .ok v ∧
        v.toOption ScVal.toSorobanString = some (value.map utf8)
  | .optionI128 value =>
      ∃ v z, scOptionI128 sdk value = .ok v ∧ v.toOption ScVal.toI128 = some z ∧
        z.map (fun k => some (k : ℚ)) = value.map Numeric.value
  | .address a =>
      ∃ v, scAddress sdk (sdk.addressText a) = .ok v ∧ v.toAddress = some a

/-- The SDK reads the text of the address that is exchanged, and tells accounts from contracts. -/
def AddressLaws : Exchange → Prop
  | .address a => sdk.readAddress (sdk.addressText a) = some a ∧
      (sdk.isValidEd25519PublicKey (sdk.addressText a) = true ↔ ∃ k, a = .account k)
  | _ => True

end Agreement

section Disagreement

variable {engine : JsEngine} {sdk : ArgumentSdk}

/-- What is written as a vector is no struct to the contract. -/
theorem ofScVal_vec (items : List ScVal) : CreditMetadata.ofScVal (.vec items) = none := rfl

theorem map_eq_ok {α β : Type} {x : Except ApiError α} {f : α → β} {b : β}
    (h : x.map f = .ok b) : ∃ a, f a = b := by
  cases x with
  | error e => cases h
  | ok a => exact ⟨a, Except.ok.inj h⟩

theorem scOption_eq_vec {α : Type} {encode : α → Except ApiError ScVal} {value : Option α}
    {v : ScVal} (h : scOption encode value = .ok v) : ∃ items, v = .vec items := by
  cases value with
  | none => exact ⟨[], (Except.ok.inj h).symm⟩
  | some a =>
      obtain ⟨w, hw⟩ := map_eq_ok h
      exact ⟨[w], hw.symm⟩

/-- The contract reads no option from a vector. -/
theorem toOption_vec {α : Type} {decode : ScVal → Option α} {items : List ScVal}
    (hdecode : decode (.vec items) = none) : (ScVal.vec items).toOption decode = none := by
  show (decode (.vec items)).map some = none
  rw [hdecode]
  rfl

theorem not_agrees_submitted (input : CreditMetadataInput) (m : CreditMetadata)
    (h : Corresponds input m) : ¬ Agrees engine sdk (.submitted input m h) := by
  rintro ⟨v, hv, hread⟩
  obtain ⟨fields, rfl⟩ := map_eq_ok hv
  rw [scStruct, ofScVal_vec] at hread
  cases hread

/-- A struct that a contract returns decodes to an object, which the decoder refuses. -/
theorem decodeCreditMetadata_toScVal (m : CreditMetadata) :
    decodeCreditMetadata sdk.toStellarSdk m.toScVal =
      .error (.message "Expected struct Vec, got object") := rfl

theorem not_agrees_option {α : Type} {encode : α → Except ApiError ScVal} {value : Option α}
    {β : Type} {decode : ScVal → Option β} (hdecode : ∀ items, decode (.vec items) = none)
    {v : ScVal} (hv : scOption encode value = .ok v) {n : Option β} :
    v.toOption decode ≠ some n := by
  obtain ⟨items, rfl⟩ := scOption_eq_vec hv
  rw [toOption_vec (hdecode items)]
  exact nofun

/-- Only the addresses of accounts are encoded. -/
theorem agrees_address_iff (a : Address) (hsdk : AddressLaws sdk (.address a)) :
    Agrees engine sdk (.address a) ↔ ∃ k, a = .account k := by
  obtain ⟨hread, hvalid⟩ := hsdk
  show (∃ v, scAddress sdk (sdk.addressText a) = .ok v ∧ v.toAddress = some a) ↔ _
  unfold scAddress
  by_cases haccount : sdk.isValidEd25519PublicKey (sdk.addressText a) = true
  · rw [if_pos haccount, hread]
    exact iff_of_true ⟨.address a, rfl, rfl⟩ (hvalid.mp haccount)
  · rw [if_neg haccount]
    refine iff_of_false ?_ (fun h => haccount (hvalid.mpr h))
    rintro ⟨v, hv, -⟩
    cases hv

end Disagreement

/-- The two sides agree on the addresses of accounts, and on nothing else that they
exchange. -/
theorem agrees_iff (engine : JsEngine) (sdk : ArgumentSdk) (x : Exchange)
    (hsdk : AddressLaws sdk x) : Agrees engine sdk x ↔ ∃ k, x = .address (.account k) := by
  cases x with
  | submitted input m h => exact iff_of_false (not_agrees_submitted input m h) (by simp)
  | returned m =>
      refine iff_of_false (fun h => ?_) (by simp)
      rw [Agrees, decodeCreditMetadata_toScVal] at h
      cases h
  | optionU64 value =>
      refine iff_of_false ?_ (by simp)
      rintro ⟨v, n, hv, hread, -⟩
      exact not_agrees_option (fun _ => rfl) hv hread
  | optionString value =>
      refine iff_of_false ?_ (by simp)
      rintro ⟨v, hv, hread⟩
      exact not_agrees_option (fun _ => rfl) hv hread
  | optionI128 value =>
      refine iff_of_false ?_ (by simp)
      rintro ⟨v, z, hv, hread, -⟩
      exact not_agrees_option (fun _ => rfl) hv hread
  | address a =>
      rw [agrees_address_iff a hsdk]
      simp

end ApiScVal

namespace Sample

/-- The SDK with its readers of numbers. -/
def argumentSdk : ArgumentSdk where
  toStellarSdk := sdk
  uint64FromString text := text.toNat?.map fun n => n % 2 ^ 64
  toI128
    | .number x => ApiScVal.asInteger x
    | .bigint z => some z

/-- Metadata of a pending credit. -/
def pendingMetadata : CreditMetadata where
  projectId := ApiScVal.utf8 "PRJ-001"
  methodology := ApiScVal.utf8 "VCS-VM0007"
  vintageStart := 1704067200
  vintageEnd := 1735689600
  tonnes := 1000
  geography := ApiScVal.utf8 "BR"
  serialPrefix := ApiScVal.utf8 "VCS-123"
  sdgFlags := 0
  permanenceRating := 100
  bufferContributionPct := 10
  additionalityType := 1
  ipfsHash := ApiScVal.utf8 "bafy..."
  status := .pending
  createdAt := 0
  tokenId := 0

end Sample

namespace ApiScVal

open Sample in
theorem agrees_account : Agrees asciiEngine argumentSdk (.address (.account 0)) :=
  (agrees_iff asciiEngine argumentSdk (.address (.account 0))
    ⟨rfl, iff_of_true rfl ⟨0, rfl⟩⟩).mpr ⟨0, rfl⟩

open Sample in
/-- The metadata of a pending credit is not decoded. -/
theorem metadata_not_decoded :
    ¬ ∀ (engine : JsEngine) (sdk : ArgumentSdk) (x : Exchange),
      AddressLaws sdk x → Agrees engine sdk x := by
  intro h
  have hagrees := h asciiEngine argumentSdk (.returned pendingMetadata) trivial
  rw [Agrees, decodeCreditMetadata_toScVal] at hagrees
  cases hagrees

end ApiScVal

end CarbonVeritas
