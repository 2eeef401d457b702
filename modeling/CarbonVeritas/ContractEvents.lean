/-
# From published events to sync events

What the four contracts publish (`events.rs` of each), the forms in which the topics and the
value of an event reach the indexer, and when `parseRpcEvent` reads back what was published
(`parse_matches_iff`).

* `ContractEvent` : the published events, with their topics and data;
* `Form` : a value arrives decoded, in the JSON form that the tests of the indexer use, or in
  the JSON form that the snapshots of the contracts record;
* `Matches` : the sync event is of the kind of the contract operation and carries its data;
* `Readable` : the events and forms that the parser reads.

The registry, the marketplace and the tracker publish under the topics `credit`, `offer`,
`retire` and `config`, of which the parser knows none, so of their events none is read.
-/
import CarbonVeritas.EventParser
import CarbonVeritas.Marketplace
import CarbonVeritas.MerkleBridge
import CarbonVeritas.RetirementTracker
import CarbonVeritas.ScVal

namespace CarbonVeritas

/-! ## Published events -/

namespace RegistryEvent

def topics : RegistryEvent → List ScVal
  | .creditSubmitted .. => [.symbol "credit", .symbol "submit"]
  | .creditApproved .. => [.symbol "credit", .symbol "approve"]
  | .creditMinted .. => [.symbol "credit", .symbol "minted"]
  | .creditRejected .. => [.symbol "credit", .symbol "reject"]
  | .creditTransferred .. => [.symbol "credit", .symbol "transfer"]
  | .configUpdated .. => [.symbol "config", .symbol "update"]

def data : RegistryEvent → ScVal
  | .creditSubmitted creditId issuer ipfsHash =>
      .vec [.u64 creditId, .address issuer, .string ipfsHash]
  | .creditApproved creditId verifier => .vec [.u64 creditId, .address verifier]
  | .creditMinted creditId => .u64 creditId
  | .creditRejected creditId verifier => .vec [.u64 creditId, .address verifier]
  | .creditTransferred creditId fromAddr toAddr =>
      .vec [.u64 creditId, .address fromAddr, .address toAddr]
  | .configUpdated admin => .address admin

end RegistryEvent

namespace MarketplaceEvent

def topics : MarketplaceEvent → List ScVal
  | .offerCreated .. => [.symbol "offer", .symbol "created"]
  | .offerFilled .. => [.symbol "offer", .symbol "filled"]
  | .offerCancelled .. => [.symbol "offer", .symbol "cancel"]

def data : MarketplaceEvent → ScVal
  | .offerCreated offerId seller => .vec [.u64 offerId, .address seller]
  | .offerFilled offerId buyer amount => .vec [.u64 offerId, .address buyer, .i128 amount]
  | .offerCancelled offerId => .u64 offerId

end MarketplaceEvent

namespace BridgeEvent

def topics : BridgeEvent → List ScVal
  | .creditBridged registry serial _ => [.symbol "bridged", .string registry, .string serial]
  | .bridgeOut creditId _ => [.symbol "bridge_ot", .u64 creditId]
  | .rootUpdated registry _ => [.symbol "root_upd", .string registry]

def data : BridgeEvent → ScVal
  | .creditBridged _ _ creditId => .u64 creditId
  | .bridgeOut _ owner => .address owner
  | .rootUpdated _ root => .bytes root.toBytes

end BridgeEvent

inductive ContractEvent where
  | registry (event : RegistryEvent)
  | marketplace (event : MarketplaceEvent)
  | tracker (record : RetirementRecord)
  | bridge (event : BridgeEvent)

namespace ContractEvent

def topics : ContractEvent → List ScVal
  | .registry event => event.topics
  | .marketplace event => event.topics
  | .tracker _ => [.symbol "retire", .symbol "retired"]
  | .bridge event => event.topics

def data : ContractEvent → ScVal
  | .registry event => event.data
  | .marketplace event => event.data
  | .tracker record => record.toScVal
  | .bridge event => event.data

end ContractEvent

/-! ## Delivered events -/

/-- The form in which a value arrives. -/
inductive Form where
  /-- decoded by `scValToNative` -/
  | native
  /-- JSON-XDR as the tests of the indexer write it, `{ u64: { value: "7" } }` -/
  | tested
  /-- JSON-XDR as the snapshots of the contracts record it, `{ u64: 7 }` -/
  | recorded
  deriving DecidableEq, Repr

def hexDigit (n : ℕ) : Char := Char.ofNat (if n < 10 then 48 + n else 87 + n)

def hexText (bytes : List UInt8) : String :=
  String.ofList (bytes.flatMap fun b => [hexDigit (b.toNat / 16), hexDigit (b.toNat % 16)])

/-- Some bytes have some digits. -/
theorem hexText_ne_empty {bytes : List UInt8} (h : bytes ≠ []) : hexText bytes ≠ "" := by
  cases bytes with
  | nil => exact absurd rfl h
  | cons b bs => simp [hexText, String.ext_iff]

namespace ScVal

variable (sdk : StellarSdk)

def addressJson : Form → Address → JsValue
  | .recorded, a => .string (sdk.addressText a)
  | _, .account k => .object [("account", .object [
      ("publicKey", .string (sdk.addressText (.account k)))])]
  | _, .contract k => .object [("contract", .object [
      ("contract_id", .string (sdk.addressText (.contract k)))])]

mutual

/-- The JSON-XDR form of a value. -/
def toJson (form : Form) : ScVal → JsValue
  | .void => .string "void"
  | .bool b => .object [("bool", .bool b)]
  | .u32 n => .object [("u32", .number (.finite n))]
  | .u64 n => .object [("u64", match form with
      | .recorded => .number (.roundDouble n)
      | _ => .object [("value", .string (toString n))])]
  | .i128 z => .object [("i128", match form with
      | .recorded => .object [("hi", .number (.roundDouble (z / 2 ^ 64 : ℤ))),
          ("lo", .number (.roundDouble (z % 2 ^ 64 : ℤ)))]
      | _ => .object [("value", .string (toString z))])]
  | .bytes bs => .object [("bytes", match form with
      | .recorded => .string (hexText bs)
      | _ => .string ("0x" ++ hexText bs))]
  | .string s => match form with
      | .recorded => .object [("string", .string (sdk.decodeText s))]
      | _ => .object [("str", .string (sdk.decodeText s))]
  | .symbol name => .object [("symbol", .string name)]
  | .address a => .object [("address", addressJson sdk form a)]
  | .vec items => .object [("vec", .array (toJsons form items))]
  | .map entries => .object [("map", .array (toJsonEntries form entries))]

def toJsons (form : Form) : List ScVal → List JsValue
  | [] => []
  | v :: items => toJson form v :: toJsons form items

def toJsonEntries (form : Form) : List (String × ScVal) → List JsValue
  | [] => []
  | (name, v) :: entries =>
      .object [("key", .object [("symbol", .string name)]), ("val", toJson form v)] ::
        toJsonEntries form entries

end

def delivered (form : Form) (v : ScVal) : JsValue :=
  match form with
  | .native => v.toNative sdk
  | form => v.toJson sdk form

end ScVal

/-- How an event is delivered, apart from what was published. -/
structure Delivery where
  topicForm : ℕ → Form
  valueForm : Form
  ledger : Option ℕ
  txIndex : Option ℕ
  inSuccessfulContractCall : Option Bool
  txHash : Option String

def Delivery.rpcEvent (sdk : StellarSdk) (d : Delivery) (e : ContractEvent) : RpcEvent where
  ledger := d.ledger
  txIndex := d.txIndex
  inSuccessfulContractCall := d.inSuccessfulContractCall
  txHash := d.txHash
  topic := some (e.topics.mapIdx fun i v => v.delivered sdk (d.topicForm i))
  value := e.data.delivered sdk d.valueForm

/-! ## Agreement -/

section Agreement

variable (sdk : StellarSdk)

/-- The sync event is of the kind of the contract operation and carries what was published. -/
def Matches : ContractEvent → SyncEvent → Prop
  | .registry (.creditSubmitted creditId issuer ipfsHash), .creditSubmitted data =>
      data.creditId = .finite creditId ∧ data.issuer = sdk.addressText issuer ∧
        data.ipfsHash = sdk.decodeText ipfsHash
  | .registry (.creditApproved creditId verifier), .creditApproved data =>
      data.creditId = .finite creditId ∧ data.verifier = sdk.addressText verifier
  | .registry (.creditMinted creditId), .creditMinted data => data.creditId = .finite creditId
  | .registry (.creditRejected creditId verifier), .creditRejected data =>
      data.creditId = .finite creditId ∧ data.verifier = sdk.addressText verifier
  | .registry (.creditTransferred creditId fromAddr toAddr), .creditTransferred data =>
      data.creditId = .finite creditId ∧ data.fromAddr = sdk.addressText fromAddr ∧
        data.toAddr = sdk.addressText toAddr
  | .marketplace (.offerCreated offerId seller), .offerCreated data =>
      data.offerId = .finite offerId ∧ data.seller = sdk.addressText seller
  | .marketplace (.offerFilled offerId buyer amount), .offerFilled data =>
      data.offerId = .finite offerId ∧ data.buyer = sdk.addressText buyer ∧
        data.amount = .finite amount
  | .marketplace (.offerCancelled offerId), .offerCancelled data => data.offerId = .finite offerId
  | .tracker record, .creditRetired data =>
      data.creditId = .finite record.creditId ∧
        data.retiredBy = sdk.addressText record.retiredBy ∧
        data.beneficiary = sdk.decodeText record.beneficiary ∧
        data.reason = sdk.decodeText record.reason ∧
        data.accountingPeriod = sdk.decodeText record.accountingPeriod ∧
        data.tonnesRetired = .finite record.tonnesRetired ∧
        data.ledgerSequence = .finite record.ledgerSequence ∧
        data.timestamp = .finite record.timestamp
  | .bridge (.creditBridged registry serial creditId), .creditBridged data =>
      data.creditId = .finite creditId ∧ data.sourceRegistry = sdk.decodeText registry ∧
        data.sourceSerial = sdk.decodeText serial
  | .bridge (.bridgeOut creditId owner), .creditBridgedOut data =>
      data.creditId = .finite creditId ∧ data.owner = sdk.addressText owner
  | .bridge (.rootUpdated registry root), .registryRootUpdated data =>
      data.registry = sdk.decodeText registry ∧
        (data.root = hexText root.toBytes ∨ data.root = "0x" ++ hexText root.toBytes)
  | _, _ => False

/-- A text among the topics is read when it arrives decoded, or is what any object prints as. -/
def ReadsText (form : Form) (s : SorobanString) : Prop :=
  form = .native ∨ sdk.decodeText s = "[object Object]"

/-- The events that the parser reads, with the forms in which it does. -/
def Readable (d : Delivery) : ContractEvent → Prop
  | .bridge (.creditBridged registry serial creditId) =>
      d.topicForm 0 = .native ∧ ReadsText sdk (d.topicForm 1) registry ∧
        ReadsText sdk (d.topicForm 2) serial ∧ JsNumber.Represents creditId ∧
        (d.valueForm = .native → creditId ≠ 0)
  | .bridge (.bridgeOut creditId _) =>
      d.topicForm 0 = .native ∧ JsNumber.Represents creditId ∧ d.valueForm ≠ .recorded
  | .bridge (.rootUpdated registry _) =>
      d.topicForm 0 = .native ∧ ReadsText sdk (d.topicForm 1) registry ∧ d.valueForm ≠ .native
  | _ => False

end Agreement

/-! ## Reading scalars -/

section Reading

open EventParser

variable (sdk : StellarSdk) (engine : JsEngine)

theorem toNumber_object_u64 (text : String) :
    toNumber engine (.object [("u64", .object [("value", .string text)])]) =
      JsNumber.ofString text.toList := rfl

/-- An integer of 64 bits is read as the double next to it. -/
theorem toNumber_u64 (form : Form) (n : ℕ) :
    toNumber engine ((ScVal.u64 n).delivered sdk form) = .roundDouble n := by
  cases form with
  | native =>
      have hnative : (ScVal.u64 n).delivered sdk .native = .bigint n := rfl
      rw [hnative, toNumber, JsNumber.ofBigInt, Int.cast_natCast]
  | tested =>
      have htested : (ScVal.u64 n).delivered sdk .tested =
          .object [("u64", .object [("value", .string (toString n))])] := rfl
      rw [htested, toNumber_object_u64]
      exact JsNumber.ofString_toString n
  | recorded => rfl

/-- It is read as itself when a double represents it. -/
theorem toNumber_u64_eq_iff (form : Form) (n : ℕ) :
    toNumber engine ((ScVal.u64 n).delivered sdk form) = .finite n ↔ JsNumber.Represents n := by
  rw [toNumber_u64]
  unfold JsNumber.Represents JsNumber.ofBigInt
  rw [Int.cast_natCast]

/-- It is truthy unless it arrives as the number zero. -/
theorem truthy_u64 (form : Form) (n : ℕ) :
    ((ScVal.u64 n).delivered sdk form).truthy = true ↔ (form = .native → n ≠ 0) := by
  cases form with
  | native =>
      show decide ((n : ℤ) ≠ 0) = true ↔ _
      simp
  | tested => exact ⟨fun _ => nofun, fun _ => rfl⟩
  | recorded => exact ⟨fun _ => nofun, fun _ => rfl⟩

/-- An address is read as its text, unless it arrives as recorded. -/
theorem toStringValue_address (form : Form) (a : Address) :
    toStringValue engine ((ScVal.address a).delivered sdk form) =
      if form = .recorded then "" else sdk.addressText a := by
  cases form with
  | native => rfl
  | tested => cases a <;> rfl
  | recorded => rfl

/-- An address is truthy. -/
theorem truthy_address (hsdk : ∀ a, sdk.addressText a ≠ "") (form : Form) (a : Address) :
    ((ScVal.address a).delivered sdk form).truthy = true := by
  cases form with
  | native => exact decide_eq_true (hsdk a)
  | tested => cases a <;> rfl
  | recorded => rfl

/-- What the parser makes of a byte string. -/
def readHex : Form → List UInt8 → String
  | .native, _ => ""
  | .tested, bytes => "0x" ++ hexText bytes
  | .recorded, bytes => hexText bytes

/-- Bytes are read as their hexadecimal text, by the form they arrive in. -/
theorem toHexValue_bytes (form : Form) (bytes : List UInt8) :
    toHexValue engine ((ScVal.bytes bytes).delivered sdk form) = readHex form bytes := by
  cases form <;> rfl

/-- Bytes are truthy, even an empty sequence. -/
theorem truthy_bytes (form : Form) (bytes : List UInt8) :
    ((ScVal.bytes bytes).delivered sdk form).truthy = true := by
  cases form <;> rfl

/-- A text that arrives as an object prints as one. -/
theorem text_string (form : Form) (s : SorobanString) :
    (((ScVal.string s).delivered sdk form).orElse (.string "")).text engine =
      if form = .native then sdk.decodeText s else "[object Object]" := by
  cases form <;> rfl

/-- A string is read as its text when its form can be read. -/
theorem text_string_eq_iff (form : Form) (s : SorobanString) :
    (((ScVal.string s).delivered sdk form).orElse (.string "")).text engine = sdk.decodeText s ↔
      ReadsText sdk form s := by
  rw [text_string]
  unfold ReadsText
  by_cases h : form = .native
  · simp [h]
  · simp [h, eq_comm]

/-- The name of an event is matched only when it arrives decoded. -/
theorem parseRpcEvent_symbol {d : Delivery} {e : ContractEvent} {name : String}
    {rest : List ScVal} (htopics : e.topics = .symbol name :: rest) :
    parseRpcEvent engine (d.rpcEvent sdk e) =
      if d.topicForm 0 = .native ∧ (d.rpcEvent sdk e).value.truthy = true then
        parseTopic engine name (d.rpcEvent sdk e) else none := by
  have hname : ((d.rpcEvent sdk e).topic.getD []).getD 0 .undefined =
      (ScVal.symbol name).delivered sdk (d.topicForm 0) := by
    simp [Delivery.rpcEvent, htopics]
  unfold parseRpcEvent
  rw [hname]
  by_cases hvalue : (d.rpcEvent sdk e).value.truthy = true
  · cases hform : d.topicForm 0 with
    | native =>
        simp [hvalue]
        rfl
    | tested => simp [hvalue, ScVal.delivered, ScVal.toJson]
    | recorded => simp [hvalue, ScVal.delivered, ScVal.toJson]
  · simp [hvalue]

end Reading

/-! ## The parser and the contracts -/

section Parser

open EventParser

variable (sdk : StellarSdk) (engine : JsEngine) (d : Delivery)

/-- The topics of the registry, the marketplace and the tracker are dropped. -/
theorem parseRpcEvent_of_unknown {e : ContractEvent} {name : String} {rest : List ScVal}
    (htopics : e.topics = .symbol name :: rest)
    (hname : name ∈ ["credit", "config", "offer", "retire"]) :
    parseRpcEvent engine (d.rpcEvent sdk e) = none := by
  have hnone : parseTopic engine name (d.rpcEvent sdk e) = none := by
    simp only [List.mem_cons, List.not_mem_nil, or_false] at hname
    rcases hname with rfl | rfl | rfl | rfl <;> rfl
  rw [parseRpcEvent_symbol sdk engine htopics, hnone, ite_self]

/-- A topic is read as its text when its form can be read. -/
theorem topicText_rpcEvent {e : ContractEvent} {i : ℕ} {s : SorobanString}
    (h : e.topics[i]? = some (.string s)) :
    topicText engine ((d.rpcEvent sdk e).topic.getD []) i = sdk.decodeText s ↔
      ReadsText sdk (d.topicForm i) s := by
  have htopic : ((d.rpcEvent sdk e).topic.getD []).getD i .undefined =
      (ScVal.string s).delivered sdk (d.topicForm i) := by
    simp [Delivery.rpcEvent, List.getD_eq_getElem?_getD, h]
  unfold topicText
  rw [htopic]
  exact text_string_eq_iff sdk engine (d.topicForm i) s

/-- An import is parsed as it was published when it can be read. -/
theorem parse_creditBridged_iff (registry serial : SorobanString) (creditId : ℕ) :
    (∃ event, parseRpcEvent engine
        (d.rpcEvent sdk (.bridge (.creditBridged registry serial creditId))) = some event ∧
        Matches sdk (.bridge (.creditBridged registry serial creditId)) event) ↔
      Readable sdk d (.bridge (.creditBridged registry serial creditId)) := by
  have hregistry := topicText_rpcEvent sdk engine d
    (e := .bridge (.creditBridged registry serial creditId)) (i := 1) (s := registry) rfl
  have hserial := topicText_rpcEvent sdk engine d
    (e := .bridge (.creditBridged registry serial creditId)) (i := 2) (s := serial) rfl
  have hid := toNumber_u64_eq_iff sdk engine d.valueForm creditId
  have hvalue := truthy_u64 sdk d.valueForm creditId
  rw [parseRpcEvent_symbol sdk engine rfl]
  constructor
  · rintro ⟨event, hparse, hmatch⟩
    split_ifs at hparse with hread
    cases hparse
    obtain ⟨hid', hregistry', hserial'⟩ := hmatch
    exact ⟨hread.1, hregistry.mp hregistry', hserial.mp hserial', hid.mp hid', hvalue.mp hread.2⟩
  · rintro ⟨htopic, hregistry', hserial', hid', hzero⟩
    rw [if_pos ⟨htopic, hvalue.mpr hzero⟩]
    exact ⟨_, rfl, hid.mpr hid', hregistry.mpr hregistry', hserial.mpr hserial'⟩

/-- A return is parsed as it was published when it can be read. -/
theorem parse_bridgeOut_iff (hsdk : ∀ a, sdk.addressText a ≠ "") (creditId : ℕ)
    (owner : Address) :
    (∃ event, parseRpcEvent engine (d.rpcEvent sdk (.bridge (.bridgeOut creditId owner)))
        = some event ∧ Matches sdk (.bridge (.bridgeOut creditId owner)) event) ↔
      Readable sdk d (.bridge (.bridgeOut creditId owner)) := by
  have hid := toNumber_u64_eq_iff sdk engine (d.topicForm 1) creditId
  have howner := toStringValue_address sdk engine d.valueForm owner
  rw [parseRpcEvent_symbol sdk engine rfl]
  constructor
  · rintro ⟨event, hparse, hmatch⟩
    split_ifs at hparse with hread
    cases hparse
    obtain ⟨hid', howner'⟩ := hmatch
    refine ⟨hread.1, hid.mp hid', fun hform => ?_⟩
    rw [if_pos hform] at howner
    exact hsdk owner (howner'.symm.trans howner)
  · rintro ⟨htopic, hid', hform⟩
    rw [if_pos ⟨htopic, truthy_address sdk hsdk d.valueForm owner⟩]
    rw [if_neg hform] at howner
    exact ⟨_, rfl, hid.mpr hid', howner⟩

/-- A new root is parsed as it was published when it can be read. -/
theorem parse_rootUpdated_iff (registry : SorobanString) (root : Bytes32) :
    (∃ event, parseRpcEvent engine (d.rpcEvent sdk (.bridge (.rootUpdated registry root)))
        = some event ∧ Matches sdk (.bridge (.rootUpdated registry root)) event) ↔
      Readable sdk d (.bridge (.rootUpdated registry root)) := by
  have hregistry := topicText_rpcEvent sdk engine d
    (e := .bridge (.rootUpdated registry root)) (i := 1) (s := registry) rfl
  have hroot := toHexValue_bytes sdk engine d.valueForm root.toBytes
  have hhex : hexText root.toBytes ≠ "" := hexText_ne_empty (by simp [Bytes32.toBytes])
  have hprefixed : "0x" ++ hexText root.toBytes ≠ "" := by simp
  rw [parseRpcEvent_symbol sdk engine rfl]
  constructor
  · rintro ⟨event, hparse, hmatch⟩
    split_ifs at hparse with hread
    cases hparse
    obtain ⟨hregistry', hroot'⟩ := hmatch
    refine ⟨hread.1, hregistry.mp hregistry', fun hform => ?_⟩
    have hempty : readHex d.valueForm root.toBytes = "" := by
      rw [hform]
      rfl
    rcases hroot' with hroot' | hroot'
    · exact hhex ((hroot'.symm.trans hroot).trans hempty)
    · exact hprefixed ((hroot'.symm.trans hroot).trans hempty)
  · rintro ⟨htopic, hregistry', hform⟩
    rw [if_pos ⟨htopic, truthy_bytes sdk d.valueForm root.toBytes⟩]
    refine ⟨_, rfl, hregistry.mpr hregistry', ?_⟩
    cases hvalue : d.valueForm with
    | native => exact absurd hvalue hform
    | tested => exact Or.inr (hroot.trans (by rw [hvalue]; rfl))
    | recorded => exact Or.inl (hroot.trans (by rw [hvalue]; rfl))

/-- The parser reads back exactly the readable ones of the published events. -/
theorem parse_matches_iff (hsdk : ∀ a, sdk.addressText a ≠ "") (e : ContractEvent) :
    (∃ event, parseRpcEvent engine (d.rpcEvent sdk e) = some event ∧ Matches sdk e event) ↔
      Readable sdk d e := by
  have hunread : ∀ {name : String} {rest : List ScVal}, e.topics = .symbol name :: rest →
      name ∈ ["credit", "config", "offer", "retire"] →
      ¬ ∃ event, parseRpcEvent engine (d.rpcEvent sdk e) = some event ∧ Matches sdk e event := by
    rintro name rest htopics hname ⟨event, hparse, -⟩
    rw [parseRpcEvent_of_unknown sdk engine d htopics hname] at hparse
    cases hparse
  cases e with
  | registry event =>
      refine iff_of_false ?_ id
      cases event <;> exact hunread rfl (by decide)
  | marketplace event =>
      refine iff_of_false ?_ id
      cases event <;> exact hunread rfl (by decide)
  | tracker record => exact iff_of_false (hunread rfl (by decide)) id
  | bridge event =>
      cases event with
      | creditBridged registry serial creditId =>
          exact parse_creditBridged_iff sdk engine d registry serial creditId
      | bridgeOut creditId owner => exact parse_bridgeOut_iff sdk engine d hsdk creditId owner
      | rootUpdated registry root => exact parse_rootUpdated_iff sdk engine d registry root

end Parser

namespace Sample

/-- An event whose topics and value are decoded. -/
def decoded : Delivery where
  topicForm _ := .native
  valueForm := .native
  ledger := some 7
  txIndex := some 1
  inSuccessfulContractCall := some true
  txHash := some "t1"

end Sample

open Sample in
/-- A credit that leaves the ledger is read. -/
theorem parse_matches_bridgeOut :
    ∃ event, EventParser.parseRpcEvent asciiEngine
        (decoded.rpcEvent sdk (.bridge (.bridgeOut 7 (.account 0)))) = some event ∧
      Matches sdk (.bridge (.bridgeOut 7 (.account 0))) event := by
  have hrepresents : JsNumber.Represents (7 : ℕ) := JsNumber.represents_of_abs_le (by decide)
  exact (parse_matches_iff sdk asciiEngine decoded addressText_ne_empty _).mpr
    ⟨rfl, hrepresents, by decide⟩

open Sample in
/-- The mint of a credit is dropped. -/
theorem mint_not_parsed :
    ¬ ∀ (sdk : StellarSdk) (engine : JsEngine) (d : Delivery),
      (∀ a, sdk.addressText a ≠ "") → ∀ e : ContractEvent,
        ∃ event, EventParser.parseRpcEvent engine (d.rpcEvent sdk e) = some event ∧
          Matches sdk e event := by
  intro h
  obtain ⟨event, hparse, -⟩ := h sdk asciiEngine decoded addressText_ne_empty
    (.registry (.creditMinted 7))
  rw [parseRpcEvent_of_unknown sdk asciiEngine decoded rfl (by decide)] at hparse
  cases hparse

end CarbonVeritas
