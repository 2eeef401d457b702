/-
# Soroban values

The values that cross the boundary of a contract (`ScVal`), what a `#[contracttype]` type and
an `Option` become there and are read back from, and what `scValToNative` of the SDK makes of
a value.

A struct becomes a map under the names of its fields in sorted order, an enumeration with
`#[repr(u32)]` its number, a tuple a vector, and an `Option` the bare value or void.  The maps
of the contracts' interface are those of structs, so the keys of a map are symbols.

The addresses, texts and byte strings of the SDK are left to `StellarSdk`.
-/
import CarbonVeritas.JsValues
import CarbonVeritas.SharedTypes
import Mathlib.Algebra.Order.Ring.Nat

namespace CarbonVeritas

inductive ScVal where
  | void
  | bool (b : Bool)
  | u32 (n : ℕ)
  | u64 (n : ℕ)
  | i128 (z : ℤ)
  | bytes (bs : List UInt8)
  | string (s : SorobanString)
  | symbol (name : String)
  | address (a : Address)
  | vec (items : List ScVal)
  | map (entries : List (String × ScVal))

/-! ## Bytes -/

/-- The value of big-endian bytes. -/
def bigEndian (bytes : List UInt8) : ℕ := bytes.foldl (fun n b => 256 * n + b.toNat) 0

/-- The bytes of a `BytesN<32>`. -/
def Bytes32.toBytes (b : Bytes32) : List UInt8 :=
  (List.range 32).reverse.map fun i => UInt8.ofNat (b.toNat / 256 ^ i)

def Bytes32.ofBytes (bytes : List UInt8) : Option Bytes32 :=
  if bytes.length = 32 then some (BitVec.ofNat 256 (bigEndian bytes)) else none

theorem foldl_bytes (n k acc : ℕ) :
    ((List.range k).reverse.map fun i => UInt8.ofNat (n / 256 ^ i)).foldl
      (fun a b => 256 * a + b.toNat) acc = 256 ^ k * acc + n % 256 ^ k := by
  induction k generalizing acc with
  | zero => simp [Nat.mod_one]
  | succ k ih =>
      have hsplit : n % 256 ^ (k + 1) = n % 256 ^ k + 256 ^ k * (n / 256 ^ k % 256) := by
        rw [pow_succ, Nat.mod_mul]
      rw [List.range_succ, List.reverse_append, List.reverse_singleton, List.singleton_append,
        List.map_cons, List.foldl_cons, ih, UInt8.toNat_ofNat', hsplit, pow_succ 256 k]
      ring

theorem Bytes32.ofBytes_toBytes (b : Bytes32) : Bytes32.ofBytes b.toBytes = some b := by
  have hvalue : bigEndian b.toBytes = b.toNat := by
    unfold bigEndian Bytes32.toBytes
    rw [foldl_bytes, Nat.mul_zero, Nat.zero_add]
    exact Nat.mod_eq_of_lt (lt_of_lt_of_eq b.isLt (by norm_num))
  have hlength : b.toBytes.length = 32 := by simp [Bytes32.toBytes]
  unfold Bytes32.ofBytes
  rw [if_pos hlength, hvalue, BitVec.ofNat_toNat, BitVec.setWidth_eq]

namespace ScVal

/-! ## Reading scalars -/

def toU32 : ScVal → Option ℕ
  | .u32 n => some n
  | _ => none

def toU64 : ScVal → Option ℕ
  | .u64 n => some n
  | _ => none

def toI128 : ScVal → Option ℤ
  | .i128 z => some z
  | _ => none

def toSorobanString : ScVal → Option SorobanString
  | .string s => some s
  | _ => none

def toBytes32 : ScVal → Option Bytes32
  | .bytes bs => Bytes32.ofBytes bs
  | _ => none

def toAddress : ScVal → Option Address
  | .address a => some a
  | _ => none

/-! ## Options -/

def ofOption {α : Type} (encode : α → ScVal) : Option α → ScVal
  | none => .void
  | some a => encode a

def toOption {α : Type} (decode : ScVal → Option α) : ScVal → Option (Option α)
  | .void => some none
  | v => (decode v).map some

/-! ## Structs -/

/-- The values of a struct whose fields have these names. -/
def fieldValues (names : List String) : ScVal → Option (List ScVal)
  | .map entries => if entries.map Prod.fst = names then some (entries.map Prod.snd) else none
  | _ => none

end ScVal

namespace CreditStatus

/-- The number of `#[repr(u32)]`. -/
def toU32 : CreditStatus → ℕ
  | .pending => 0
  | .active => 1
  | .retired => 2
  | .rejected => 3
  | .bridged => 4

def ofU32 : ℕ → Option CreditStatus
  | 0 => some .pending
  | 1 => some .active
  | 2 => some .retired
  | 3 => some .rejected
  | 4 => some .bridged
  | _ => none

theorem ofU32_toU32 (s : CreditStatus) : ofU32 s.toU32 = some s := by
  cases s <;> rfl

end CreditStatus

namespace CreditMetadata

def toScVal (m : CreditMetadata) : ScVal := .map [
  ("additionality_type", .u32 m.additionalityType),
  ("buffer_contribution_pct", .u32 m.bufferContributionPct),
  ("created_at", .u64 m.createdAt),
  ("geography", .string m.geography),
  ("ipfs_hash", .string m.ipfsHash),
  ("methodology", .string m.methodology),
  ("permanence_rating", .u32 m.permanenceRating),
  ("project_id", .string m.projectId),
  ("sdg_flags", .u32 m.sdgFlags),
  ("serial_prefix", .string m.serialPrefix),
  ("status", .u32 m.status.toU32),
  ("token_id", .bytes m.tokenId.toBytes),
  ("tonnes", .i128 m.tonnes),
  ("vintage_end", .u64 m.vintageEnd),
  ("vintage_start", .u64 m.vintageStart)]

/-- The names of the fields in sorted order. -/
def fieldNames : List String := ["additionality_type", "buffer_contribution_pct", "created_at",
  "geography", "ipfs_hash", "methodology", "permanence_rating", "project_id", "sdg_flags",
  "serial_prefix", "status", "token_id", "tonnes", "vintage_end", "vintage_start"]

/-- The metadata with these values of its fields, in the order of the declaration. -/
def ofFields : List ScVal → Option CreditMetadata
  | [projectId, methodology, vintageStart, vintageEnd, tonnes, geography, serialPrefix, sdgFlags,
      permanenceRating, bufferContributionPct, additionalityType, ipfsHash, status, createdAt,
      tokenId] => do
      let tokenId ← tokenId.toBytes32
      let status ← status.toU32.bind CreditStatus.ofU32
      return {
        projectId := ← projectId.toSorobanString
        methodology := ← methodology.toSorobanString
        vintageStart := ← vintageStart.toU64
        vintageEnd := ← vintageEnd.toU64
        tonnes := ← tonnes.toI128
        geography := ← geography.toSorobanString
        serialPrefix := ← serialPrefix.toSorobanString
        sdgFlags := ← sdgFlags.toU32
        permanenceRating := ← permanenceRating.toU32
        bufferContributionPct := ← bufferContributionPct.toU32
        additionalityType := ← additionalityType.toU32
        ipfsHash := ← ipfsHash.toSorobanString
        status
        createdAt := ← createdAt.toU64
        tokenId }
  | _ => none

/-- Each value is read as its field. -/
theorem ofFields_eq_some {projectId methodology vintageStart vintageEnd tonnes geography
    serialPrefix sdgFlags permanenceRating bufferContributionPct additionalityType ipfsHash status
    createdAt tokenId : ScVal} {m : CreditMetadata} :
    ofFields [projectId, methodology, vintageStart, vintageEnd, tonnes, geography, serialPrefix,
        sdgFlags, permanenceRating, bufferContributionPct, additionalityType, ipfsHash, status,
        createdAt, tokenId] = some m ↔
      (projectId.toSorobanString = some m.projectId ∧
        methodology.toSorobanString = some m.methodology ∧
        vintageStart.toU64 = some m.vintageStart ∧ vintageEnd.toU64 = some m.vintageEnd ∧
        tonnes.toI128 = some m.tonnes ∧ geography.toSorobanString = some m.geography ∧
        serialPrefix.toSorobanString = some m.serialPrefix ∧ sdgFlags.toU32 = some m.sdgFlags ∧
        permanenceRating.toU32 = some m.permanenceRating ∧
        bufferContributionPct.toU32 = some m.bufferContributionPct ∧
        additionalityType.toU32 = some m.additionalityType ∧
        ipfsHash.toSorobanString = some m.ipfsHash) ∧
      status.toU32.bind CreditStatus.ofU32 = some m.status ∧
      createdAt.toU64 = some m.createdAt ∧ tokenId.toBytes32 = some m.tokenId := by
  constructor
  · intro h
    obtain ⟨token, htoken, h⟩ := Option.bind_eq_some_iff.mp h
    obtain ⟨st, hst, h⟩ := Option.bind_eq_some_iff.mp h
    obtain ⟨_, h1, h⟩ := Option.bind_eq_some_iff.mp h
    obtain ⟨_, h2, h⟩ := Option.bind_eq_some_iff.mp h
    obtain ⟨_, h3, h⟩ := Option.bind_eq_some_iff.mp h
    obtain ⟨_, h4, h⟩ := Option.bind_eq_some_iff.mp h
    obtain ⟨_, h5, h⟩ := Option.bind_eq_some_iff.mp h
    obtain ⟨_, h6, h⟩ := Option.bind_eq_some_iff.mp h
    obtain ⟨_, h7, h⟩ := Option.bind_eq_some_iff.mp h
    obtain ⟨_, h8, h⟩ := Option.bind_eq_some_iff.mp h
    obtain ⟨_, h9, h⟩ := Option.bind_eq_some_iff.mp h
    obtain ⟨_, h10, h⟩ := Option.bind_eq_some_iff.mp h
    obtain ⟨_, h11, h⟩ := Option.bind_eq_some_iff.mp h
    obtain ⟨_, h12, h⟩ := Option.bind_eq_some_iff.mp h
    obtain ⟨_, h13, h⟩ := Option.bind_eq_some_iff.mp h
    obtain rfl := Option.some.inj h
    exact ⟨⟨h1, h2, h3, h4, h5, h6, h7, h8, h9, h10, h11, h12⟩, hst, h13, htoken⟩
  · rintro ⟨⟨h1, h2, h3, h4, h5, h6, h7, h8, h9, h10, h11, h12⟩, hst, h13, htoken⟩
    rw [ofFields, htoken, hst, h1, h2, h3, h4, h5, h6, h7, h8, h9, h10, h11, h12, h13]
    rfl
def ofScVal (v : ScVal) : Option CreditMetadata := do
  match ← v.fieldValues fieldNames with
  | [additionalityType, bufferContributionPct, createdAt, geography, ipfsHash, methodology,
      permanenceRating, projectId, sdgFlags, serialPrefix, status, tokenId, tonnes, vintageEnd,
      vintageStart] =>
      ofFields [projectId, methodology, vintageStart, vintageEnd, tonnes, geography, serialPrefix,
        sdgFlags, permanenceRating, bufferContributionPct, additionalityType, ipfsHash, status,
        createdAt, tokenId]
  | _ => none

/-- The contract reads back what it writes. -/
theorem ofScVal_toScVal (m : CreditMetadata) : ofScVal m.toScVal = some m := by
  show ((Bytes32.ofBytes m.tokenId.toBytes).bind fun tokenId =>
    (CreditStatus.ofU32 m.status.toU32).bind fun status =>
      some { m with tokenId := tokenId, status := status }) = some m
  rw [Bytes32.ofBytes_toBytes, CreditStatus.ofU32_toU32]
  rfl

end CreditMetadata

def RetirementRecord.toScVal (r : RetirementRecord) : ScVal := .map [
  ("accounting_period", .string r.accountingPeriod),
  ("beneficiary", .string r.beneficiary),
  ("certificate_hash", .bytes r.certificateHash.toBytes),
  ("credit_id", .u64 r.creditId),
  ("ledger_sequence", .u32 r.ledgerSequence),
  ("reason", .string r.reason),
  ("retired_by", .address r.retiredBy),
  ("timestamp", .u64 r.timestamp),
  ("tonnes_retired", .i128 r.tonnesRetired),
  ("tx_hash", .bytes r.txHash.toBytes)]

/-! ## The SDK -/

/-- What the SDK does with addresses and texts. -/
structure StellarSdk where
  /-- `address.toString()` -/
  addressText : Address → String
  /-- `new Address(text)`; `none` when it throws -/
  readAddress : String → Option Address
  /-- `StrKey.isValidEd25519PublicKey(text)` -/
  isValidEd25519PublicKey : String → Bool
  /-- `new TextDecoder().decode(bytes)` -/
  decodeText : List UInt8 → String

namespace ScVal

variable (sdk : StellarSdk)

mutual

/-- `scValToNative(v)` -/
def toNative : ScVal → JsValue
  | .void => .null
  | .bool b => .bool b
  | .u32 n => .number (.finite n)
  | .u64 n => .bigint n
  | .i128 z => .bigint z
  | .bytes bs => .buffer bs
  | .string s => .string (sdk.decodeText s)
  | .symbol name => .string name
  | .address a => .string (sdk.addressText a)
  | .vec items => .array (toNatives items)
  | .map entries => .object (toNativeFields entries)

def toNatives : List ScVal → List JsValue
  | [] => []
  | v :: items => toNative v :: toNatives items

def toNativeFields : List (String × ScVal) → List (String × JsValue)
  | [] => []
  | (name, v) :: entries => (name, toNative v) :: toNativeFields entries

end

end ScVal

namespace Sample

def ascii (bytes : List UInt8) : String := String.ofList (bytes.map fun b => Char.ofNat b.toNat)

/-- An engine on ASCII texts and small integers. -/
def asciiEngine : JsEngine where
  printDouble _ := ""
  decodeUtf8 := ascii

/-- The SDK on the account of the zero key and on ASCII texts. -/
def sdk : StellarSdk where
  addressText
    | .account 0 => "GAAAAAAAAAAAAAAAAAAAAAAAAAAAAAAAAAAAAAAAAAAAAAAAAAAAAWHF"
    | .account (k + 1) => "G" ++ toString k
    | .contract k => "C" ++ toString k
  readAddress
    | "GAAAAAAAAAAAAAAAAAAAAAAAAAAAAAAAAAAAAAAAAAAAAAAAAAAAAWHF" => some (.account 0)
    | _ => none
  isValidEd25519PublicKey text :=
    text = "GAAAAAAAAAAAAAAAAAAAAAAAAAAAAAAAAAAAAAAAAAAAAAAAAAAAAWHF"
  decodeText := ascii

theorem addressText_ne_empty (a : Address) : sdk.addressText a ≠ "" := by
  unfold sdk
  dsimp only
  split
  · decide
  · simp
  · simp

end Sample

end CarbonVeritas
