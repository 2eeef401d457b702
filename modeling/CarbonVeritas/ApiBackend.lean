/-
# The backend of the API

What the services of `api/src` work on: the database behind `PrismaService`, the contracts
behind `StellarService`, and the clock.  An endpoint is a program over the queries that it
makes of them; `ApiHost.handle` answers one query.

The database is the one of the indexer with the tables that only the API reads and writes.  A
user is addressed by `stellarPub`, which is also the wallet of its requests; where the source
uses the generated id of a user as a text, this is `ApiConfig.cuid` of the user.  A retirement, a
bridge record or a certificate is addressed by its place in its table.

The contracts stay abstract here: `ApiHost.stellar` answers a call of `StellarService` on a
state of any type.  The loggers and the event emitter, which catches its errors, are left out.
-/
import CarbonVeritas.ApiScVal
import CarbonVeritas.HostCalls
import CarbonVeritas.Mirror
import CarbonVeritas.Programs

namespace CarbonVeritas

/-! ## Tables -/

/-- A row of `Verifier`, with the enumeration of its statuses. -/
inductive VerifierStatus where
  | pending
  | active
  | slashed
  | unregistered
  deriving DecidableEq, Repr

structure VerifierRow where
  user : String
  status : VerifierStatus
  deriving DecidableEq, Repr

/-- A row of `Certificate`; the metadata are those of the credit and of the retirement. -/
structure CertificateRow where
  user : String
  creditId : ℤ
  txHash : String
  credit : CreditRow
  retirement : RetirementRow
  certificateHash : String
  deriving DecidableEq, Repr

/-- The database of the API. -/
structure ApiDb extends Mirror where
  verifiers : List VerifierRow := []
  /-- the ids of the credits -/
  creditIds : List ℤ := []
  /-- the ids of the offers -/
  offerIds : List ℤ := []
  /-- the column `certificateHash` of the retirements -/
  certificateHashes : ℕ → Option String := fun _ => none
  certificates : List CertificateRow := []

/-- The columns of a credit that an update sets. -/
structure CreditData where
  status : Option CreditStatus := none
  tokenId : Option String := none
  owner : Option String := none

/-- The columns of an offer that an update sets. -/
structure OfferData where
  amountFilled : Option ℚ := none
  status : Option OfferStatus := none
  deriving DecidableEq

def CreditData.apply (data : CreditData) (row : CreditRow) : CreditRow :=
  { row with
    status := data.status.getD row.status
    tokenId := data.tokenId.or row.tokenId
    owner := data.owner.getD row.owner }

def OfferData.apply (data : OfferData) (row : OfferRow) : OfferRow :=
  { row with
    amountFilled := data.amountFilled.getD row.amountFilled
    status := data.status.getD row.status }

namespace ApiDb

variable (db : ApiDb)

def writeCredit (creditId : ℤ) (row : CreditRow) : ApiDb :=
  { db with toMirror := db.toMirror.writeCredit creditId row }

def writeOffer (offerId : ℤ) (row : OfferRow) : ApiDb :=
  { db with toMirror := db.toMirror.writeOffer offerId row }

def insertUser (stellarPub : String) : ApiDb :=
  { db with toMirror := db.toMirror.insertUser stellarPub }

def insertCredit (creditId : ℤ) (row : CreditRow) : ApiDb :=
  { db.writeCredit creditId row with creditIds := db.creditIds ++ [creditId] }

def insertOffer (offerId : ℤ) (row : OfferRow) : ApiDb :=
  { db.writeOffer offerId row with offerIds := db.offerIds ++ [offerId] }

def insertTrade (row : TradeRow) : ApiDb := { db with toMirror := db.toMirror.insertTrade row }

def insertApproval (row : ApprovalRow) : ApiDb :=
  { db with toMirror := db.toMirror.insertApproval row }

def insertRetirement (row : RetirementRow) : ApiDb :=
  { db with toMirror := db.toMirror.insertRetirement row }

def insertBridge (row : BridgeRow) : ApiDb :=
  { db with bridgeRecords := db.bridgeRecords ++ [row] }

def writeBridge (place : ℕ) (status : BridgeStatus) (txHash : String) : ApiDb :=
  { db with
    bridgeRecords := db.bridgeRecords.modify place fun row => { row with status, txHash } }

def insertCertificate (row : CertificateRow) : ApiDb :=
  { db with certificates := db.certificates ++ [row] }

def writeCertificateHash (place : ℕ) (certificateHash : String) : ApiDb :=
  { db with
    certificateHashes := Function.update db.certificateHashes place (some certificateHash) }

/-- The first row that meets the condition, with its place. -/
def findFirst {α : Type} (rows : List α) (p : ℕ → α → Bool) : Option (ℕ × α) :=
  (rows.zipIdx.find? fun row => p row.2 row.1).map Prod.swap

/-- The latest retirement of the credit by the user. -/
def latestRetirement (creditId : ℤ) (user : String) : Option (ℕ × RetirementRow) :=
  db.retirements.zipIdx.foldl (fun latest row =>
    if row.1.creditId = creditId ∧ row.1.retiredBy = user ∧
        latest.all (fun l => l.2.timestamp ≤ row.1.timestamp) then some row.swap
    else latest) none

end ApiDb

/-! ## Queries -/

inductive ServiceError where
  | notFound (message : String)
  | badRequest (message : String)
  | forbidden (message : String)
  | badGateway (message : String)
  /-- an argument of a contract call is not encoded, or a result is not decoded -/
  | argument (e : ApiError)
  /-- the contract call panicked -/
  | contract (p : Panic)
  | database (e : DbError)
  | uniqueConstraint
  deriving DecidableEq

/-- What `retire` of `StellarService` returns and its caller reads. -/
structure RetireReceipt where
  txHash : String
  ledgerSequence : JsNumber
  deriving DecidableEq

/-- What `bridgeIn` of `StellarService` returns. -/
structure BridgeReceipt where
  creditId : JsNumber
  txHash : String
  deriving DecidableEq

/-- The calls of `StellarService`. -/
inductive StellarCall where
  | submitCredit (issuer : String) (metadata : CreditMetadataInput) (ipfsHash : String)
  | approveAndMint (verifier : String) (creditId : JsNumber) (comments : String)
  | rejectCredit (verifier : String) (creditId : JsNumber) (reason : String)
  | transferCredit (fromAddr toAddr : String) (creditId : JsNumber)
  | retire (owner : String) (creditId : JsNumber) (reason beneficiary accountingPeriod : String)
  | isRetired (creditId : JsNumber)
  | createOffer (seller : String) (creditId pricePerTonne amount : JsNumber) (currency : String)
      (expiry : Option JsNumber)
  | buyCredits (buyer : String) (offerId amount : JsNumber)
  | cancelOffer (caller : String) (offerId : JsNumber)
  | bridgeIn (bridger sourceRegistry sourceSerial : String) (merkleProof : List String)
      (merkleRoot : String) (metadata : CreditMetadataInput)
  | bridgeOut (owner : String) (creditId : JsNumber)
  | verifyProof (leaf : String) (proof : List String) (root : String)
  | getCertificateHash (creditId : JsNumber)

def StellarCall.Reply : StellarCall → Type
  | submitCredit _ _ _ => String
  | approveAndMint _ _ _ => Option String
  | rejectCredit _ _ _ => Bool
  | transferCredit _ _ _ => Bool
  | retire _ _ _ _ _ => RetireReceipt
  | isRetired _ => Bool
  | createOffer _ _ _ _ _ _ => JsNumber
  | buyCredits _ _ _ => Bool
  | cancelOffer _ _ => Bool
  | bridgeIn _ _ _ _ _ _ => BridgeReceipt
  | bridgeOut _ _ => String
  | verifyProof _ _ _ => Bool
  | getCertificateHash _ => String

/-- The queries of the database.  A row, or the data of an update, is `none` when one of its
values does not fit its column. -/
inductive DbQuery where
  | findUser (stellarPub : String)
  | upsertUser (stellarPub : String)
  | findVerifier (user : String)
  | findCredit (creditId : JsNumber)
  /-- with `include: { approvals: true }` -/
  | findCreditApprovals (creditId : JsNumber)
  | findLastCredit
  | insertCredit (row : Option (ℤ × CreditRow))
  | updateCredit (creditId : ℤ) (data : Option CreditData)
  | insertApproval (row : Option ApprovalRow)
  | countApprovals (creditId : ℤ) (approved : Bool)
  | findOffer (offerId : JsNumber)
  /-- with `include: { credit: true }` -/
  | findOfferCredit (offerId : JsNumber)
  | findActiveOffer (creditId : ℤ) (seller : String)
  | findLastOffer
  | insertOffer (row : Option (ℤ × OfferRow))
  | updateOffer (offerId : ℤ) (data : Option OfferData)
  | insertTrade (row : Option TradeRow)
  | insertRetirement (row : Option RetirementRow)
  | insertBridge (row : Option BridgeRow)
  | findBridge (creditId : JsNumber)
  | updateBridge (place : ℕ) (status : BridgeStatus) (txHash : Option String)
  | findRetiredCredits (creditIds : List ℤ) (user : String)
  | findCertificate (certificateHash : String)
  | insertCertificate (row : CertificateRow)
  | updateRetirementHash (place : ℕ) (certificateHash : String)
  /-- with `include: { credit: .. }` -/
  | findRetirement (certificateHash : String)

def DbQuery.Reply : DbQuery → Type
  | findUser _ => Bool
  | upsertUser _ => String
  | findVerifier _ => Option VerifierRow
  | findCredit _ => Option (ℤ × CreditRow)
  | findCreditApprovals _ => Option (ℤ × CreditRow × List ApprovalRow)
  | findLastCredit => Option ℤ
  | insertCredit _ => Unit
  | updateCredit _ _ => Unit
  | insertApproval _ => Unit
  | countApprovals _ _ => ℕ
  | findOffer _ => Option (ℤ × OfferRow)
  | findOfferCredit _ => Option (ℤ × OfferRow × CreditRow)
  | findActiveOffer _ _ => Bool
  | findLastOffer => Option ℤ
  | insertOffer _ => Unit
  | updateOffer _ _ => Unit
  | insertTrade _ => Unit
  | insertRetirement _ => Unit
  | insertBridge _ => Unit
  | findBridge _ => Option (ℕ × BridgeRow)
  | updateBridge _ _ _ => Unit
  | findRetiredCredits _ _ => List (ℤ × CreditRow × Option (ℕ × RetirementRow))
  | findCertificate _ => Option (ℕ × CertificateRow)
  | insertCertificate _ => ℕ
  | updateRetirementHash _ _ => Unit
  | findRetirement _ => Option (ℕ × RetirementRow × CreditRow)

inductive ApiQuery where
  /-- `new Date()`, in milliseconds -/
  | now
  /-- whether the second query of a `Promise.all` reaches the database first -/
  | overtakes
  | db (q : DbQuery)
  /-- a query of a `Promise.all`, whose failure does not keep the other from being made -/
  | attempt (q : DbQuery)
  | stellar (call : StellarCall)

def ApiQuery.Reply : ApiQuery → Type
  | now => ℕ
  | overtakes => Bool
  | db q => q.Reply
  | attempt q => Except ServiceError q.Reply
  | stellar call => call.Reply

abbrev ApiProgram := Program ApiQuery.Reply ServiceError

/-! ## Answers -/

/-- What the services work on; `σ` is the state of the contracts. -/
structure BackendState (σ : Type) where
  db : ApiDb
  chain : σ
  /-- the calls of `StellarService` so far -/
  calls : List StellarCall
  /-- the number of queries so far -/
  served : ℕ

namespace BackendState

variable {σ : Type} (s : BackendState σ)

/-- After one more query. -/
@[simps] def tick : BackendState σ := { s with served := s.served + 1 }

/-- After a query that left the database `db`. -/
@[simps] def store (db : ApiDb) : BackendState σ := { s with db, served := s.served + 1 }

/-- After a call that left the contracts in `chain`. -/
@[simps] def called (call : StellarCall) (chain : σ) : BackendState σ :=
  { s with chain, calls := s.calls ++ [call], served := s.served + 1 }

end BackendState

/-- What the API is configured with, and its surroundings other than the contracts. -/
structure ApiConfig where
  client : DbClient
  VERIFIER_THRESHOLD : Option String
  VERIFIER_QUORUM : Option String
  /-- the clock at each query, in milliseconds -/
  time : ℕ → ℕ
  /-- the answers to `overtakes` -/
  overtakes : ℕ → Bool
  /-- the generated id of a user -/
  cuid : String → String
  cuid_length : ∀ user, (cuid user).length = 25

/-- What the API is run with. -/
structure ApiHost (σ : Type) extends ApiConfig where
  stellar : (call : StellarCall) → ℕ → σ → Except ServiceError call.Reply × σ

namespace DbQuery

/-- A lookup by a unique `Int` column. -/
def lookup {α : Type} (x : JsNumber) (rows : ℤ → Option α) :
    Except ServiceError (Option (ℤ × α)) :=
  match Mirror.intColumn x with
  | some k => .ok ((rows k).map fun row => (k, row))
  | none => .error (.database .invalidValue)

/-- An `insert` of a row, or an update of a row that exists. -/
def write {α : Type} (db : ApiDb) (row : Option α) (f : α → ApiDb) :
    Except ServiceError Unit × ApiDb :=
  match row with
  | some row => (.ok (), f row)
  | none => (.error (.database .invalidValue), db)

/-- An update of a row, which has to exist. -/
def update {α β : Type} (db : ApiDb) (data : Option α) (row : Option β) (f : α → β → ApiDb) :
    Except ServiceError Unit × ApiDb :=
  match data, row with
  | none, _ => (.error (.database .invalidValue), db)
  | some _, none => (.error (.database .rowNotFound), db)
  | some data, some row => (.ok (), f data row)

def answer (client : DbClient) : (q : DbQuery) → ApiDb → Except ServiceError q.Reply × ApiDb
  | .findUser stellarPub, db => (.ok (decide (stellarPub ∈ db.users)), db)
  | .upsertUser stellarPub, db =>
      match Mirror.textColumn client stellarPub with
      | some stellarPub => (.ok stellarPub, db.insertUser stellarPub)
      | none => (.error (.database .invalidValue), db)
  | .findVerifier user, db => (.ok (db.verifiers.find? fun row => row.user = user), db)
  | .findCredit creditId, db => (lookup creditId db.credits, db)
  | .findCreditApprovals creditId, db =>
      (lookup creditId fun k =>
        (db.credits k).map fun row => (row, db.approvals.filter fun a => a.creditId = k), db)
  | .findLastCredit, db => (.ok db.creditIds.max?, db)
  | .insertCredit row, db =>
      match row with
      | some (creditId, row) =>
          if (db.credits creditId).isSome then (.error .uniqueConstraint, db)
          else (.ok (), db.insertCredit creditId row)
      | none => (.error (.database .invalidValue), db)
  | .updateCredit creditId data, db =>
      update db data (db.credits creditId) fun data row =>
        db.writeCredit creditId (data.apply row)
  | .insertApproval row, db => write db row db.insertApproval
  | .countApprovals creditId approved, db =>
      (.ok (db.approvals.countP fun a => a.creditId = creditId ∧ a.approved = approved), db)
  | .findOffer offerId, db => (lookup offerId db.offers, db)
  | .findOfferCredit offerId, db =>
      (lookup offerId fun k => do
        let offer ← db.offers k
        let credit ← db.credits offer.creditId
        return (offer, credit), db)
  | .findActiveOffer creditId seller, db =>
      (.ok (db.offerIds.any fun k => (db.offers k).any fun row =>
        row.creditId = creditId ∧ row.seller = seller ∧ row.status = .active), db)
  | .findLastOffer, db => (.ok db.offerIds.max?, db)
  | .insertOffer row, db =>
      match row with
      | some (offerId, row) =>
          if (db.offers offerId).isSome then (.error .uniqueConstraint, db)
          else (.ok (), db.insertOffer offerId row)
      | none => (.error (.database .invalidValue), db)
  | .updateOffer offerId data, db =>
      update db data (db.offers offerId) fun data row => db.writeOffer offerId (data.apply row)
  | .insertTrade row, db => write db row db.insertTrade
  | .insertRetirement row, db => write db row db.insertRetirement
  | .insertBridge row, db =>
      match row with
      | some row =>
          if db.bridgeRecords.any (Mirror.ofSource row.sourceRegistry row.sourceSerial) then
            (.error .uniqueConstraint, db)
          else (.ok (), db.insertBridge row)
      | none => (.error (.database .invalidValue), db)
  | .findBridge creditId, db =>
      match Mirror.intColumn creditId with
      | some k => (.ok (ApiDb.findFirst db.bridgeRecords fun _ row => Mirror.ofCredit k row), db)
      | none => (.error (.database .invalidValue), db)
  | .updateBridge place status txHash, db =>
      update db txHash db.bridgeRecords[place]? fun txHash _ => db.writeBridge place status txHash
  | .findRetiredCredits creditIds user, db =>
      (.ok (creditIds.eraseDups.filterMap fun k => do
        let row ← db.credits k
        guard (row.status = .retired)
        return (k, row, db.latestRetirement k user)), db)
  | .findCertificate certificateHash, db =>
      (.ok (ApiDb.findFirst db.certificates fun _ row => row.certificateHash = certificateHash), db)
  | .insertCertificate row, db => (.ok db.certificates.length, db.insertCertificate row)
  | .updateRetirementHash place certificateHash, db =>
      (.ok (), db.writeCertificateHash place certificateHash)
  | .findRetirement certificateHash, db =>
      (.ok do
        let (place, row) ← ApiDb.findFirst db.retirements fun place _ =>
          db.certificateHashes place = some certificateHash
        let credit ← db.credits row.creditId
        return (place, row, credit), db)

end DbQuery

namespace ApiHost

variable {σ : Type} (host : ApiHost σ)

/-- The answer to a query, and the state after it. -/
def handle : (q : ApiQuery) → BackendState σ → Except ServiceError q.Reply × BackendState σ
  | .now, s => (.ok (host.time s.served), s.tick)
  | .overtakes, s => (.ok (host.overtakes s.served), s.tick)
  | .db q, s => ((q.answer host.client s.db).1, s.store (q.answer host.client s.db).2)
  | .attempt q, s => (.ok (q.answer host.client s.db).1, s.store (q.answer host.client s.db).2)
  | .stellar call, s =>
      ((host.stellar call s.served s.chain).1, s.called call (host.stellar call s.served s.chain).2)

end ApiHost

end CarbonVeritas
