/-
# The event parser of the indexer

`indexer/src/sync.ts`: the records that the processors take (`SyncEvent`), the events that
the RPC server answers with (`RpcEvent`), and `parseRpcEvent`, which turns the one into the
other, or drops it.

The topics `bridged`, `bridge_ot` and `root_upd` are read by position; every other topic is
read as a record of named fields, each under one or two names and with a default.
-/
import CarbonVeritas.JsValues

namespace CarbonVeritas

/-! ## The records of the processors -/

structure CreditSubmittedEvent where
  creditId : JsNumber
  issuer : String
  projectId : String
  methodology : String
  vintageStart : String
  vintageEnd : String
  tonnes : JsNumber
  geography : String
  serialPrefix : String
  sdgFlags : JsNumber
  permanenceRating : JsNumber
  bufferContributionPct : JsNumber
  additionalityType : JsNumber
  ipfsHash : String
  timestamp : JsNumber
  txHash : String
  deriving DecidableEq, Repr

structure CreditApprovedEvent where
  creditId : JsNumber
  verifier : String
  approved : Bool
  comments : Option String
  timestamp : JsNumber
  txHash : String
  deriving DecidableEq, Repr

structure CreditMintedEvent where
  creditId : JsNumber
  tokenId : String
  timestamp : JsNumber
  txHash : String
  deriving DecidableEq, Repr

structure CreditRejectedEvent where
  creditId : JsNumber
  verifier : String
  reason : String
  timestamp : JsNumber
  txHash : String
  deriving DecidableEq, Repr

structure CreditTransferredEvent where
  creditId : JsNumber
  fromAddr : String
  toAddr : String
  timestamp : JsNumber
  txHash : String
  deriving DecidableEq, Repr

structure CreditRetiredEvent where
  creditId : JsNumber
  retiredBy : String
  beneficiary : String
  reason : String
  accountingPeriod : String
  tonnesRetired : JsNumber
  txHash : String
  ledgerSequence : JsNumber
  timestamp : JsNumber
  deriving DecidableEq, Repr

structure OfferCreatedEvent where
  offerId : JsNumber
  seller : String
  creditId : JsNumber
  pricePerTonne : JsNumber
  amount : JsNumber
  currency : String
  expiresAt : Option JsNumber
  timestamp : JsNumber
  txHash : String
  deriving DecidableEq, Repr

structure OfferFilledEvent where
  offerId : JsNumber
  buyer : String
  amount : JsNumber
  totalPrice : JsNumber
  timestamp : JsNumber
  txHash : String
  deriving DecidableEq, Repr

structure OfferCancelledEvent where
  offerId : JsNumber
  timestamp : JsNumber
  txHash : String
  deriving DecidableEq, Repr

structure CreditBridgedEvent where
  creditId : JsNumber
  sourceRegistry : String
  sourceSerial : String
  txHash : String
  timestamp : JsNumber
  deriving DecidableEq, Repr

structure CreditBridgedOutEvent where
  creditId : JsNumber
  owner : String
  txHash : String
  timestamp : JsNumber
  deriving DecidableEq, Repr

structure RegistryRootUpdatedEvent where
  registry : String
  root : String
  ledgerSequence : JsNumber
  txHash : String
  timestamp : JsNumber
  deriving DecidableEq, Repr

inductive SyncEvent where
  | creditSubmitted (data : CreditSubmittedEvent)
  | creditApproved (data : CreditApprovedEvent)
  | creditMinted (data : CreditMintedEvent)
  | creditRejected (data : CreditRejectedEvent)
  | creditTransferred (data : CreditTransferredEvent)
  | creditRetired (data : CreditRetiredEvent)
  | offerCreated (data : OfferCreatedEvent)
  | offerFilled (data : OfferFilledEvent)
  | offerCancelled (data : OfferCancelledEvent)
  | creditBridged (data : CreditBridgedEvent)
  | creditBridgedOut (data : CreditBridgedOutEvent)
  | registryRootUpdated (data : RegistryRootUpdatedEvent)
  deriving DecidableEq, Repr

/-! ## The events of the RPC server -/

/-- An event as `getEvents` delivers it; `value` is `undefined` when it is missing. -/
structure RpcEvent where
  ledger : Option ℕ := none
  txIndex : Option ℕ := none
  inSuccessfulContractCall : Option Bool := none
  txHash : Option String := none
  topic : Option (List JsValue) := none
  value : JsValue := .undefined

namespace EventParser

open JsValue

variable (engine : JsEngine)

/-! ## Scalars -/

/-- A number that may arrive as a JSON-XDR value, such as `{ u64: { value: "7" } }`. -/
def toNumber (v : JsValue) : JsNumber :=
  match v with
  | .number x => x
  | .bigint z => .ofBigInt z
  | v =>
      if v.isObject then
        let inner := (v.getFirst ["u64", "i128", "i256", "value"]).orElse v
        if inner.isObject then ((inner.get "value").orElse (.number (.finite 0))).toNumber engine
        else (inner.orElse (.number (.finite 0))).toNumber engine
      else (v.orElse (.number (.finite 0))).toNumber engine

/-- A string that may arrive as a JSON-XDR value, such as an address. -/
def toStringValue (v : JsValue) : String :=
  match v with
  | .string s => s
  | v =>
      if v.isObject then
        let container := (v.get "address").orElse v
        if container.isObject then
          let account := (container.get "account").orElse
            (match container.get "publicKey" with
              | .string _ => container
              | _ => .undefined)
          if account.isObject then
            ((account.getFirst ["publicKey", "contract", "value"]).orElse (.string "")).text engine
          else if (container.get "contract").isObject then
            (((container.get "contract").get "contract_id").orElse (.string "")).text engine
          else
            ((container.getFirst ["contract_id", "publicKey", "value"]).orElse
              (.string "")).text engine
        else
          ((v.getFirst ["symbol", "str", "bytes", "value"]).orElse (.string "")).text engine
      else (v.orElse (.string "")).text engine

/-- A hex string that may arrive as a JSON-XDR value, `{ bytes: "0x..." }`. -/
def toHexValue (v : JsValue) : String :=
  match v with
  | .string s => s
  | v =>
      if v.isObject then
        ((v.getFirst ["bytes", "hex", "value"]).orElse (.string "")).text engine
      else (v.orElse (.string "")).text engine

/-! ## Fields of a record -/

/-- `Number(v.a ?? v.b ?? 0)` -/
def numberField (v : JsValue) (names : List String) : JsNumber :=
  ((v.getFirst names).orElse (.number (.finite 0))).toNumber engine

/-- `String(v.a ?? v.b ?? '')`, or with another default. -/
def stringField (v : JsValue) (names : List String) (default : String := "") : String :=
  ((v.getFirst names).orElse (.string default)).text engine

/-- `v.expires_at ? Number(v.expires_at) : v.expiresAt ? Number(v.expiresAt) : undefined` -/
def optionalNumberField (v : JsValue) (names : List String) : Option JsNumber :=
  names.findSome? fun name =>
    if (v.get name).truthy then some ((v.get name).toNumber engine) else none

/-! ## Events -/

/-- `String(topic[i] ?? '')` -/
def topicText (topic : List JsValue) (i : ℕ) : String :=
  ((topic.getD i .undefined).orElse (.string "")).text engine

/-- `Number(rpcEvent.ledger ?? 0)` -/
def ledgerNumber (e : RpcEvent) : JsNumber := .finite (e.ledger.getD 0 : ℕ)

/-- `String(rpcEvent.txHash ?? '')` -/
def txHashText (e : RpcEvent) : String := e.txHash.getD ""

/-- `String(rpcEvent.txHash ?? v.txHash ?? '')` -/
def txHashField (e : RpcEvent) : String := e.txHash.getD (stringField engine e.value ["txHash"])

/-- The branches of the `switch` on the first topic. -/
def parseTopic (name : String) (e : RpcEvent) : Option SyncEvent :=
  let topic := e.topic.getD []
  let v := e.value
  match name with
  | "bridged" => some (.creditBridged {
      creditId := toNumber engine v
      sourceRegistry := topicText engine topic 1
      sourceSerial := topicText engine topic 2
      txHash := txHashText e
      timestamp := ledgerNumber e })
  | "bridge_ot" => some (.creditBridgedOut {
      creditId := toNumber engine (topic.getD 1 .undefined)
      owner := toStringValue engine v
      txHash := txHashText e
      timestamp := ledgerNumber e })
  | "root_upd" => some (.registryRootUpdated {
      registry := topicText engine topic 1
      root := toHexValue engine v
      ledgerSequence := ledgerNumber e
      txHash := txHashText e
      timestamp := ledgerNumber e })
  | "credit_submitted" => some (.creditSubmitted {
      creditId := numberField engine v ["credit_id", "creditId"]
      issuer := stringField engine v ["issuer"]
      projectId := stringField engine v ["project_id", "projectId"]
      methodology := stringField engine v ["methodology"]
      vintageStart := stringField engine v ["vintage_start", "vintageStart"]
      vintageEnd := stringField engine v ["vintage_end", "vintageEnd"]
      tonnes := numberField engine v ["tonnes"]
      geography := stringField engine v ["geography"]
      serialPrefix := stringField engine v ["serial_prefix", "serialPrefix"]
      sdgFlags := numberField engine v ["sdg_flags", "sdgFlags"]
      permanenceRating := numberField engine v ["permanence_rating", "permanenceRating"]
      bufferContributionPct :=
        numberField engine v ["buffer_contribution_pct", "bufferContributionPct"]
      additionalityType := numberField engine v ["additionality_type", "additionalityType"]
      ipfsHash := stringField engine v ["ipfs_hash", "ipfsHash"]
      timestamp := numberField engine v ["timestamp"]
      txHash := txHashField engine e })
  | "credit_approved" => some (.creditApproved {
      creditId := numberField engine v ["credit_id", "creditId"]
      verifier := stringField engine v ["verifier"]
      approved := match v.get "approved" with
        | .bool b => b
        | .string s => s = "true"
        | _ => false
      comments := if (v.get "comments").truthy then some ((v.get "comments").text engine) else none
      timestamp := numberField engine v ["timestamp"]
      txHash := txHashField engine e })
  | "credit_minted" => some (.creditMinted {
      creditId := numberField engine v ["credit_id", "creditId"]
      tokenId := stringField engine v ["token_id", "tokenId"]
      timestamp := numberField engine v ["timestamp"]
      txHash := txHashField engine e })
  | "credit_rejected" => some (.creditRejected {
      creditId := numberField engine v ["credit_id", "creditId"]
      verifier := stringField engine v ["verifier"]
      reason := stringField engine v ["reason"]
      timestamp := numberField engine v ["timestamp"]
      txHash := txHashField engine e })
  | "credit_transferred" => some (.creditTransferred {
      creditId := numberField engine v ["credit_id", "creditId"]
      fromAddr := stringField engine v ["from"]
      toAddr := stringField engine v ["to"]
      timestamp := numberField engine v ["timestamp"]
      txHash := txHashField engine e })
  | "credit_retired" => some (.creditRetired {
      creditId := numberField engine v ["credit_id", "creditId"]
      retiredBy := stringField engine v ["retired_by", "retiredBy"]
      beneficiary := stringField engine v ["beneficiary"]
      reason := stringField engine v ["reason"]
      accountingPeriod := stringField engine v ["accounting_period", "accountingPeriod"]
      tonnesRetired := numberField engine v ["tonnes_retired", "tonnesRetired"]
      txHash := txHashField engine e
      ledgerSequence := numberField engine v ["ledger_sequence", "ledgerSequence"]
      timestamp := numberField engine v ["timestamp"] })
  | "offer_created" => some (.offerCreated {
      offerId := numberField engine v ["offer_id", "offerId"]
      seller := stringField engine v ["seller"]
      creditId := numberField engine v ["credit_id", "creditId"]
      pricePerTonne := numberField engine v ["price_per_tonne", "pricePerTonne"]
      amount := numberField engine v ["amount"]
      currency := stringField engine v ["currency"] "USDC"
      expiresAt := optionalNumberField engine v ["expires_at", "expiresAt"]
      timestamp := numberField engine v ["timestamp"]
      txHash := txHashField engine e })
  | "offer_filled" => some (.offerFilled {
      offerId := numberField engine v ["offer_id", "offerId"]
      buyer := stringField engine v ["buyer"]
      amount := numberField engine v ["amount"]
      totalPrice := numberField engine v ["total_price", "totalPrice"]
      timestamp := numberField engine v ["timestamp"]
      txHash := txHashField engine e })
  | "offer_cancelled" => some (.offerCancelled {
      offerId := numberField engine v ["offer_id", "offerId"]
      timestamp := numberField engine v ["timestamp"]
      txHash := txHashField engine e })
  | _ => none

/-- `parseRpcEvent`: an event without a value, or whose first topic is no text or an unknown
one, is dropped. -/
def parseRpcEvent (e : RpcEvent) : Option SyncEvent :=
  if e.value.truthy then
    match (e.topic.getD []).getD 0 .undefined with
    | .string name => parseTopic engine name e
    | _ => none
  else none

/-- Only texts are matched against the names of the topics. -/
theorem parseRpcEvent_eq_some {e : RpcEvent} {event : SyncEvent}
    (h : parseRpcEvent engine e = some event) :
    e.value.truthy = true ∧ ∃ name, (e.topic.getD []).getD 0 .undefined = .string name ∧
      parseTopic engine name e = some event := by
  unfold parseRpcEvent at h
  by_cases hvalue : e.value.truthy = true
  · rw [if_pos hvalue] at h
    cases htopic : (e.topic.getD []).getD 0 .undefined with
    | string name =>
        rw [htopic] at h
        exact ⟨hvalue, name, rfl, h⟩
    | _ =>
        rw [htopic] at h
        cases h
  · rw [if_neg hvalue] at h
    cases h

end EventParser

end CarbonVeritas
