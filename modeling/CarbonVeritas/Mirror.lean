/-
# The database of the indexer and its processors

`indexer/src/processors`: the twelve event processors, and `processEvent` of `sync.ts`,
which hands an event to its processor.  The tables are those of the Prisma schema that the
processors read or write.  A row is addressed by its unique column in place of its generated
id: a user by `stellarPub`, a credit by `creditId`, an offer by `offerId`.

A processor makes its queries one after the other, without a transaction, so `Db` keeps what
was written before a query failed.  A query fails on a value that its column does not take,
or when it updates a row that does not exist.
-/
import CarbonVeritas.EventParser
import CarbonVeritas.SharedTypes
import Mathlib.Logic.Function.Basic

namespace CarbonVeritas

/-! ## Tables -/

/-- A row of `Credit`; the dates are in milliseconds. -/
structure CreditRow where
  projectId : String
  methodology : String
  vintageStart : ℤ
  vintageEnd : ℤ
  tonnes : ℚ
  geography : String
  serialPrefix : String
  sdgFlags : ℤ
  permanenceRating : ℤ
  bufferContributionPct : ℤ
  additionalityType : ℤ
  ipfsHash : String
  status : CreditStatus
  tokenId : Option String
  issuer : String
  owner : String
  deriving DecidableEq, Repr

structure ApprovalRow where
  creditId : ℤ
  verifier : String
  approved : Bool
  comments : Option String
  deriving DecidableEq, Repr

/-- A row of `Offer`. -/
structure OfferRow where
  creditId : ℤ
  seller : String
  pricePerTonne : ℚ
  amount : ℚ
  amountFilled : ℚ
  currency : String
  status : OfferStatus
  expiresAt : Option ℤ
  deriving DecidableEq, Repr

structure TradeRow where
  offerId : ℤ
  buyer : String
  amount : ℚ
  totalPrice : ℚ
  creditId : ℤ
  deriving DecidableEq, Repr

structure RetirementRow where
  creditId : ℤ
  retiredBy : String
  beneficiary : String
  reason : String
  accountingPeriod : String
  tonnesRetired : ℚ
  txHash : String
  ledgerSequence : ℤ
  timestamp : ℤ
  deriving DecidableEq, Repr

inductive BridgeStatus where
  | inbound
  | outbound
  deriving DecidableEq, Repr

structure BridgeRow where
  creditId : ℤ
  sourceRegistry : String
  sourceSerial : String
  merkleRoot : String
  status : BridgeStatus
  bridger : String
  txHash : String
  deriving DecidableEq, Repr

/-- The tables of the database. -/
structure Mirror where
  users : List String := []
  credits : ℤ → Option CreditRow := fun _ => none
  approvals : List ApprovalRow := []
  offers : ℤ → Option OfferRow := fun _ => none
  trades : List TradeRow := []
  retirements : List RetirementRow := []
  bridgeRecords : List BridgeRow := []

/-! ## Queries -/

/-- What depends on the database and the engine. -/
structure DbClient where
  /-- the texts that a text column takes -/
  storesText : String → Bool
  /-- `new Date(s)`, in milliseconds; `none` for an invalid date -/
  dateOfText : String → Option ℤ

inductive DbError where
  /-- the value does not fit its column -/
  | invalidValue
  /-- the row to update does not exist -/
  | rowNotFound
  /-- the database failed -/
  | unavailable
  deriving DecidableEq, Repr

/-- Queries on the database; what was written before an error stays written. -/
abbrev Db := EStateM DbError Mirror

namespace Mirror

/-! ### Columns -/

/-- A value of an `Int` column, a 32-bit integer. -/
def intColumn (x : JsNumber) : Option ℤ :=
  match x with
  | .finite q => if q.den = 1 ∧ -2 ^ 31 ≤ q.num ∧ q.num < 2 ^ 31 then some q.num else none
  | _ => none

/-- A value of a `Float` column. -/
def floatColumn (x : JsNumber) : Option ℚ :=
  match x with
  | .finite q => some q
  | _ => none

/-- A value of a `String` column. -/
def textColumn (client : DbClient) (s : String) : Option String :=
  if client.storesText s then some s else none

/-- `new Date(x)`, in milliseconds, where the time is in range. -/
def dateOfNumber (x : JsNumber) : Option ℤ :=
  match x with
  | .finite q =>
      if |q| ≤ 8640000000000000 then some (if 0 ≤ q then ⌊q⌋ else ⌈q⌉) else none
  | _ => none

/-- A query is sent only when its values fit their columns. -/
def columnValue {α : Type} (x : Option α) : Db α :=
  match x with
  | some a => pure a
  | none => throw .invalidValue

/-! ### Tables -/

def insertUser (db : Mirror) (stellarPub : String) : Mirror :=
  if stellarPub ∈ db.users then db else { db with users := db.users ++ [stellarPub] }

def writeCredit (db : Mirror) (creditId : ℤ) (row : CreditRow) : Mirror :=
  { db with credits := Function.update db.credits creditId (some row) }

def writeOffer (db : Mirror) (offerId : ℤ) (row : OfferRow) : Mirror :=
  { db with offers := Function.update db.offers offerId (some row) }

def insertApproval (db : Mirror) (row : ApprovalRow) : Mirror :=
  { db with approvals := db.approvals ++ [row] }

def insertTrade (db : Mirror) (row : TradeRow) : Mirror :=
  { db with trades := db.trades ++ [row] }

def insertRetirement (db : Mirror) (row : RetirementRow) : Mirror :=
  { db with retirements := db.retirements ++ [row] }

/-- Changes the first bridge record that meets the condition. -/
def updateBridge (db : Mirror) (p : BridgeRow → Bool) (f : BridgeRow → BridgeRow) : Mirror :=
  { db with bridgeRecords := match db.bridgeRecords.findIdx? p with
      | some i => db.bridgeRecords.modify i f
      | none => db.bridgeRecords }

/-! ### Prisma -/

variable (client : DbClient)

/-- `prisma.user.upsert({ where: { stellarPub }, update: {}, create: { stellarPub } })` -/
def upsertUser (stellarPub : String) : Db String := do
  let stellarPub ← columnValue (textColumn client stellarPub)
  modify fun db => db.insertUser stellarPub
  return stellarPub

/-- `prisma.credit.findUnique({ where: { creditId } })` -/
def findCredit (creditId : JsNumber) : Db (Option (ℤ × CreditRow)) := do
  let creditId ← columnValue (intColumn creditId)
  let db ← get
  return (db.credits creditId).map fun row => (creditId, row)

/-- A processor that looks a credit up and returns when there is none. -/
def forCredit (creditId : JsNumber) (process : ℤ → CreditRow → Db Unit) : Db Unit := do
  match ← findCredit creditId with
  | none => return
  | some (creditId, credit) => process creditId credit

/-- `prisma.credit.update({ where: { creditId }, data })` -/
def updateCredit (creditId : ℤ) (data : CreditRow → CreditRow) : Db Unit := do
  let db ← get
  match db.credits creditId with
  | some row => set (db.writeCredit creditId (data row))
  | none => throw .rowNotFound

/-- `prisma.offer.findUnique({ where: { offerId } })` -/
def findOffer (offerId : JsNumber) : Db (Option (ℤ × OfferRow)) := do
  let offerId ← columnValue (intColumn offerId)
  let db ← get
  return (db.offers offerId).map fun row => (offerId, row)

/-- A processor that looks an offer up and returns when there is none. -/
def forOffer (offerId : JsNumber) (process : ℤ → OfferRow → Db Unit) : Db Unit := do
  match ← findOffer offerId with
  | none => return
  | some (offerId, offer) => process offerId offer

/-- `prisma.offer.update({ where: { offerId }, data })` -/
def updateOffer (offerId : ℤ) (data : OfferRow → OfferRow) : Db Unit := do
  let db ← get
  match db.offers offerId with
  | some row => set (db.writeOffer offerId (data row))
  | none => throw .rowNotFound

/-- `prisma.approval.create`, `prisma.trade.create` and `prisma.retirement.create` -/
def insert {α : Type} (table : Mirror → α → Mirror) (row : Option α) : Db Unit := do
  let row ← columnValue row
  modify fun db => table db row

/-! ## Processors -/

/-- A value of an optional `String` column. -/
def optionalTextColumn : Option String → Option (Option String)
  | none => some none
  | some s => (textColumn client s).map some

/-- The row that `processCreditSubmitted` creates. -/
def submittedRow (event : CreditSubmittedEvent) (issuer : String) : Option CreditRow := do
  let projectId ← textColumn client event.projectId
  let methodology ← textColumn client event.methodology
  let vintageStart ← client.dateOfText event.vintageStart
  let vintageEnd ← client.dateOfText event.vintageEnd
  let tonnes ← floatColumn event.tonnes
  let geography ← textColumn client event.geography
  let serialPrefix ← textColumn client event.serialPrefix
  let sdgFlags ← intColumn event.sdgFlags
  let permanenceRating ← intColumn event.permanenceRating
  let bufferContributionPct ← intColumn event.bufferContributionPct
  let additionalityType ← intColumn event.additionalityType
  let ipfsHash ← textColumn client event.ipfsHash
  return {
    projectId, methodology, vintageStart, vintageEnd, tonnes, geography, serialPrefix, sdgFlags,
    permanenceRating, bufferContributionPct, additionalityType, ipfsHash
    status := .pending
    tokenId := none
    issuer := issuer
    owner := issuer }

/-- The upsert of a credit: an existing row keeps its token, its issuer and its owner. -/
def upsertCredit (db : Mirror) (creditId : ℤ) (created : CreditRow) : Mirror :=
  db.writeCredit creditId (match db.credits creditId with
    | some row =>
        { created with tokenId := row.tokenId, issuer := row.issuer, owner := row.owner }
    | none => created)

def processCreditSubmitted (event : CreditSubmittedEvent) : Db Unit := do
  let issuer ← upsertUser client event.issuer
  let creditId ← columnValue (intColumn event.creditId)
  let created ← columnValue (submittedRow client event issuer)
  modify fun db => db.upsertCredit creditId created

def processCreditApproved (event : CreditApprovedEvent) : Db Unit :=
  forCredit event.creditId fun creditId _ => do
    let verifier ← upsertUser client event.verifier
    insert insertApproval ((optionalTextColumn client event.comments).map fun comments =>
      { creditId, verifier, approved := event.approved, comments })

def processCreditMinted (event : CreditMintedEvent) : Db Unit := do
  let creditId ← columnValue (intColumn event.creditId)
  let tokenId ← columnValue (textColumn client event.tokenId)
  updateCredit creditId fun row => { row with status := .active, tokenId := some tokenId }

def processCreditRejected (event : CreditRejectedEvent) : Db Unit :=
  forCredit event.creditId fun creditId _ => do
    let verifier ← upsertUser client event.verifier
    insert insertApproval ((textColumn client event.reason).map fun reason =>
      { creditId, verifier, approved := false, comments := some reason })
    updateCredit creditId fun row => { row with status := .rejected }

def processCreditTransferred (event : CreditTransferredEvent) : Db Unit := do
  let newOwner ← upsertUser client event.toAddr
  let creditId ← columnValue (intColumn event.creditId)
  updateCredit creditId fun row => { row with owner := newOwner }

/-- The row that `processCreditRetired` creates. -/
def retiredRow (event : CreditRetiredEvent) (creditId : ℤ) (retiredBy : String) :
    Option RetirementRow := do
  let beneficiary ← textColumn client event.beneficiary
  let reason ← textColumn client event.reason
  let accountingPeriod ← textColumn client event.accountingPeriod
  let tonnesRetired ← floatColumn event.tonnesRetired
  let txHash ← textColumn client event.txHash
  let ledgerSequence ← intColumn event.ledgerSequence
  let timestamp ← dateOfNumber event.timestamp
  return {
    creditId, retiredBy, beneficiary, reason, accountingPeriod, tonnesRetired, txHash,
    ledgerSequence, timestamp }

def processCreditRetired (event : CreditRetiredEvent) : Db Unit :=
  forCredit event.creditId fun creditId _ => do
    let retirer ← upsertUser client event.retiredBy
    insert insertRetirement (retiredRow client event creditId retirer)
    updateCredit creditId fun row => { row with status := .retired }

/-- `event.expiresAt ? new Date(event.expiresAt) : null` -/
def expiryColumn : Option JsNumber → Option (Option ℤ)
  | none => some none
  | some x => if (JsValue.number x).truthy then (dateOfNumber x).map some else some none

/-- The row that `processOfferCreated` creates. -/
def offerRow (event : OfferCreatedEvent) (creditId : ℤ) (seller : String) : Option OfferRow := do
  let pricePerTonne ← floatColumn event.pricePerTonne
  let amount ← floatColumn event.amount
  let currency ← textColumn client event.currency
  let expiresAt ← expiryColumn event.expiresAt
  return {
    creditId, seller, pricePerTonne, amount, currency, expiresAt
    amountFilled := 0
    status := .active }

/-- The upsert of an offer: an existing row keeps its credit, its seller and its fill. -/
def upsertOffer (db : Mirror) (offerId : ℤ) (created : OfferRow) : Mirror :=
  db.writeOffer offerId (match db.offers offerId with
    | some row =>
        { created with
          creditId := row.creditId, seller := row.seller, amountFilled := row.amountFilled }
    | none => created)

def processOfferCreated (event : OfferCreatedEvent) : Db Unit := do
  let seller ← upsertUser client event.seller
  forCredit event.creditId fun creditId _ => do
    let offerId ← columnValue (intColumn event.offerId)
    let created ← columnValue (offerRow client event creditId seller)
    modify fun db => db.upsertOffer offerId created

/-- The row that `processOfferFilled` creates. -/
def tradeRow (event : OfferFilledEvent) (offerId creditId : ℤ) (buyer : String) :
    Option TradeRow := do
  let amount ← floatColumn event.amount
  let totalPrice ← floatColumn event.totalPrice
  return { offerId, buyer, amount, totalPrice, creditId }

/-- The offer after a fill. -/
def filledOffer (row : OfferRow) (newFilled : JsNumber) (amountFilled : ℚ) : OfferRow :=
  { row with
    amountFilled := amountFilled
    status := if newFilled.ge (.finite row.amount) then .filled else row.status }

def processOfferFilled (event : OfferFilledEvent) : Db Unit :=
  forOffer event.offerId fun offerId offer => do
    let buyer ← upsertUser client event.buyer
    let newFilled := (JsNumber.finite offer.amountFilled).add event.amount
    let amountFilled ← columnValue (floatColumn newFilled)
    updateOffer offerId fun row => filledOffer row newFilled amountFilled
    insert insertTrade (tradeRow event offerId offer.creditId buyer)
    updateCredit offer.creditId fun row => { row with owner := buyer }

def processOfferCancelled (event : OfferCancelledEvent) : Db Unit := do
  let offerId ← columnValue (intColumn event.offerId)
  updateOffer offerId fun row => { row with status := .cancelled }

/-- `event.txHash || record.txHash`, of which the second is in its column already. -/
def newTxHash (txHash : String) (record : BridgeRow) : Option String :=
  if txHash = "" then some record.txHash else textColumn client txHash

/-- `where: { sourceRegistry_sourceSerial: { sourceRegistry, sourceSerial } }` -/
def ofSource (sourceRegistry sourceSerial : String) (record : BridgeRow) : Bool :=
  record.sourceRegistry = sourceRegistry ∧ record.sourceSerial = sourceSerial

/-- `where: { creditId }` -/
def ofCredit (creditId : ℤ) (record : BridgeRow) : Bool := record.creditId = creditId

/-- Finds a bridge record and updates its status and transaction. -/
def updateFoundBridge (p : BridgeRow → Bool) (txHash : String) (status : BridgeStatus) :
    Db Unit := do
  let db ← get
  match db.bridgeRecords.find? p with
  | none => return
  | some record =>
      let txHash ← columnValue (newTxHash client txHash record)
      set (db.updateBridge p fun record => { record with status := status, txHash := txHash })

def processCreditBridged (event : CreditBridgedEvent) : Db Unit := do
  let sourceRegistry ← columnValue (textColumn client event.sourceRegistry)
  let sourceSerial ← columnValue (textColumn client event.sourceSerial)
  updateFoundBridge client (ofSource sourceRegistry sourceSerial) event.txHash .inbound

def processCreditBridgedOut (event : CreditBridgedOutEvent) : Db Unit := do
  let creditId ← columnValue (intColumn event.creditId)
  updateCredit creditId fun row => { row with status := .retired }
  updateFoundBridge client (ofCredit creditId) event.txHash .outbound

/-- The rotation is only logged. -/
def processRegistryRootUpdated (_event : RegistryRootUpdatedEvent) : Db Unit := return

def processEvent : SyncEvent → Db Unit
  | .creditSubmitted data => processCreditSubmitted client data
  | .creditApproved data => processCreditApproved client data
  | .creditMinted data => processCreditMinted client data
  | .creditRejected data => processCreditRejected client data
  | .creditTransferred data => processCreditTransferred client data
  | .creditRetired data => processCreditRetired client data
  | .offerCreated data => processOfferCreated client data
  | .offerFilled data => processOfferFilled client data
  | .offerCancelled data => processOfferCancelled data
  | .creditBridged data => processCreditBridged client data
  | .creditBridgedOut data => processCreditBridgedOut client data
  | .registryRootUpdated data => processRegistryRootUpdated data

/-- The events of a list, processed one after the other. -/
def processAll : List SyncEvent → Db Unit
  | [] => return
  | event :: events => do
      processEvent client event
      processAll events

end Mirror

end CarbonVeritas
