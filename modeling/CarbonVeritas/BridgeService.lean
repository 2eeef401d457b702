/-
# The bridge service

`api/src/bridge/bridge.service.ts`: `bridgeIn` and `bridgeOut`.

A bridge record is what `bridgeIn` leaves in the database, and neither it nor the indexer creates
a row of the credit.  But `bridgeOut` looks the credit up, and finds nothing to return.

* `bridgeOut_eq_ok` : what `bridgeOut` does when it succeeds;
* `bridgeOut_refused` : a credit without an inbound record is refused before any call.
-/
import CarbonVeritas.MirrorSpec
import CarbonVeritas.StellarService

namespace CarbonVeritas

namespace BridgeService

open Program (exec orThrow throwIf)
open ApiService

/-- A `BridgeMetadataDto`. -/
structure BridgeMetadataDto where
  projectId : String
  methodology : String
  vintageStart : JsNumber
  vintageEnd : JsNumber
  tonnes : JsNumber
  geography : String
  serialPrefix : String
  sdgFlags : Option JsNumber := none
  permanenceRating : Option JsNumber := none
  bufferContributionPct : Option JsNumber := none
  additionalityType : Option JsNumber := none
  ipfsHash : Option String := none

/-- A `BridgeInDto`. -/
structure BridgeInDto where
  sourceRegistry : String
  sourceSerial : String
  leaf : String
  merkleProof : List String
  merkleRoot : String
  metadata : BridgeMetadataDto

def toOnChainMetadata (dto : BridgeInDto) : CreditMetadataInput where
  projectId := some dto.metadata.projectId
  methodology := some dto.metadata.methodology
  vintageStart := some (.number dto.metadata.vintageStart)
  vintageEnd := some (.number dto.metadata.vintageEnd)
  tonnes := some (.number dto.metadata.tonnes)
  geography := some dto.metadata.geography
  serialPrefix := some dto.metadata.serialPrefix
  sdgFlags := some (dto.metadata.sdgFlags.getD (.finite 0))
  permanenceRating := some (dto.metadata.permanenceRating.getD (.finite 50))
  bufferContributionPct := some (dto.metadata.bufferContributionPct.getD (.finite 10))
  additionalityType := some (dto.metadata.additionalityType.getD (.finite 0))
  ipfsHash := some (dto.metadata.ipfsHash.getD "")

section Service

variable (config : ApiConfig)

/-- The row of an import. -/
def bridgeRow (userId : String) (dto : BridgeInDto) (receipt : BridgeReceipt) :
    Option BridgeRow := do
  let creditId ← Mirror.intColumn receipt.creditId
  let sourceRegistry ← Mirror.textColumn config.client dto.sourceRegistry
  let sourceSerial ← Mirror.textColumn config.client dto.sourceSerial
  let merkleRoot ← Mirror.textColumn config.client dto.merkleRoot
  let txHash ← Mirror.textColumn config.client receipt.txHash
  return {
    creditId, sourceRegistry, sourceSerial, merkleRoot, status := .inbound, bridger := userId
    txHash }

def bridgeIn (userId wallet : String) (dto : BridgeInDto) : ApiProgram (Option BridgeRow) := do
  let user ← prisma.user.findUnique userId
  throwIf (user = false) (.notFound "User not found")
  let proofOk ← stellar.verifyProof dto.leaf dto.merkleProof dto.merkleRoot
  throwIf (proofOk = false)
    (.badRequest "Merkle proof does not verify against the provided root")
  let receipt ← stellar.bridgeIn wallet dto.sourceRegistry dto.sourceSerial
    (dto.leaf :: dto.merkleProof) dto.merkleRoot (toOnChainMetadata dto)
  let row := bridgeRow config userId dto receipt
  prisma.bridgeRecord.create row
  return row

/-- The checks of `bridgeOut`, and the record that they find. -/
def checkBridgeOut (userId : String) (creditId : JsNumber) : ApiProgram (ℕ × BridgeRow) := do
  let found ← prisma.credit.findUnique creditId
  let (_, credit) ← orThrow found (.notFound "Credit not found")
  throwIf (credit.owner ≠ userId) (.forbidden "You do not own this credit")
  let found ← prisma.bridgeRecord.findFirst creditId
  let (place, record) ← orThrow found
    (.badRequest "Only credits imported from a legacy registry can be bridged out")
  throwIf (record.status = .outbound) (.badRequest "Credit has already been bridged out")
  return (place, record)

def bridgeOut (userId wallet : String) (creditId : JsNumber) : ApiProgram BridgeRow := do
  let (place, record) ← checkBridgeOut userId creditId
  let txHash ← stellar.bridgeOut wallet creditId
  prisma.bridgeRecord.update place .outbound (Mirror.textColumn config.client txHash)
  return { record with status := .outbound, txHash }

end Service

/-! ## `bridgeOut` -/

/-- The record that `bridgeOut` finds for a credit of the user. -/
structure Found (db : ApiDb) (user : String) (k : ℤ) (place : ℕ) (record : BridgeRow) : Prop where
  owned : ∃ credit, db.credits k = some credit ∧ credit.owner = user
  first : ApiDb.findFirst db.bridgeRecords (fun _ row => Mirror.ofCredit k row) =
    some (place, record)
  inbound : record.status = .inbound

section Checks

variable {σ : Type} {host : ApiHost σ} {s u : BackendState σ} {user : String}
  {creditId : JsNumber} {place : ℕ} {record : BridgeRow}

theorem status_ne_outbound {status : BridgeStatus} : ¬ status = .outbound ↔ status = .inbound := by
  cases status <;> decide

theorem exec_bridgeRecord_findFirst {k : ℤ} (h : Mirror.intColumn creditId = some k) :
    exec host.handle (prisma.bridgeRecord.findFirst creditId) s =
      (.ok (ApiDb.findFirst s.db.bridgeRecords fun _ row => Mirror.ofCredit k row), s.tick) := by
  refine (Program.exec_ask (ApiQuery.db (.findBridge creditId)) s).trans ?_
  rw [ApiHost.handle, DbQuery.answer, h]
  rfl

theorem exec_bridgeRecord_update {status : BridgeStatus} {txHash : Option String} {x : Unit} :
    exec host.handle (prisma.bridgeRecord.update place status txHash) s = (.ok x, u) ↔
      ∃ text, txHash = some text ∧ (s.db.bridgeRecords[place]?).isSome ∧
        u = s.store (s.db.writeBridge place status text) := by
  refine (iff_of_eq (congrArg (· = (Except.ok x, u))
    (Program.exec_ask (ApiQuery.db (.updateBridge place status txHash)) s))).trans ?_
  rw [ApiHost.handle, DbQuery.answer]
  cases txHash with
  | none =>
      refine iff_of_false (fun h => ?_) ?_
      · cases h
      · rintro ⟨_, h, -⟩
        cases h
  | some text =>
      cases hrow : s.db.bridgeRecords[place]? with
      | none =>
          refine iff_of_false (fun h => ?_) ?_
          · cases h
          · rintro ⟨_, -, h, -⟩
            cases h
      | some row =>
          constructor
          · intro h
            exact ⟨text, rfl, rfl, (Prod.mk.inj h).2.symm⟩
          · rintro ⟨_, htext, -, rfl⟩
            cases htext
            rfl

theorem exec_bridgeRecord_create {row : Option BridgeRow} {x : Unit}
    (h : exec host.handle (prisma.bridgeRecord.create row) s = (.ok x, u)) :
    ∃ record, row = some record ∧ u = s.store (s.db.insertBridge record) := by
  replace h := (Program.exec_ask (ApiQuery.db (.insertBridge row)) s).symm.trans h
  cases row with
  | none => cases h
  | some record =>
      rw [ApiHost.handle, DbQuery.answer] at h
      split at h
      · cases h
      · exact ⟨record, rfl, (Prod.mk.inj h).2.symm⟩

theorem exec_stellar_bridgeOut (wallet : String) (creditId : JsNumber) :
    exec host.handle (stellar.bridgeOut wallet creditId) s =
      ((host.stellar (.bridgeOut wallet creditId) s.served s.chain).1,
        s.called (.bridgeOut wallet creditId)
          (host.stellar (.bridgeOut wallet creditId) s.served s.chain).2) :=
  Program.exec_ask (ApiQuery.stellar (.bridgeOut wallet creditId)) s

theorem exec_checkBridgeOut_eq_ok :
    exec host.handle (checkBridgeOut user creditId) s = (.ok (place, record), u) ↔
      ∃ k, Mirror.intColumn creditId = some k ∧ Found s.db user k place record ∧
        u = s.tick.tick := by
  simp only [checkBridgeOut, Program.exec_bind_eq_ok, exec_credit_findUnique,
    Program.exec_orThrow_eq_ok, Program.exec_throwIf_eq_ok]
  constructor
  · rintro ⟨found, u₁, hfound, ⟨k, credit⟩, u₂, ⟨rfl, rfl⟩, _, u₃, ⟨howner, rfl⟩, found', u₄,
      hrecord, ⟨place', record'⟩, u₅, ⟨rfl, rfl⟩, _, u₆, ⟨hstatus, rfl⟩, hret⟩
    cases hret
    obtain ⟨hlookup, rfl⟩ := Prod.mk.inj hfound
    obtain ⟨hk, hcredit⟩ := lookup_eq_ok_some.mp hlookup
    rw [exec_bridgeRecord_findFirst hk] at hrecord
    obtain ⟨hfirst, rfl⟩ := Prod.mk.inj hrecord
    exact ⟨k, hk, ⟨⟨credit, hcredit, not_not.mp howner⟩, Except.ok.inj hfirst,
      status_ne_outbound.mp hstatus⟩, rfl⟩
  · rintro ⟨k, hk, ⟨⟨credit, hcredit, howner⟩, hfirst, hinbound⟩, rfl⟩
    refine ⟨_, _, Prod.ext (lookup_eq_ok_some.mpr ⟨hk, hcredit⟩) rfl, ⟨k, credit⟩, s.tick,
      ⟨rfl, rfl⟩, (), s.tick, ⟨not_not.mpr howner, rfl⟩, some (place, record), s.tick.tick, ?_,
      (place, record), s.tick.tick, ⟨rfl, rfl⟩, (), s.tick.tick,
      ⟨status_ne_outbound.mpr hinbound, rfl⟩, rfl⟩
    rw [exec_bridgeRecord_findFirst hk]
    exact Prod.ext (congrArg Except.ok hfirst) rfl

end Checks

/-! ## `bridgeOut` on a deployment -/

section Chain

variable {T : Type} {host : StellarHost T} {config : ApiConfig} {s s' : BackendState (World T)}
  {user : String} {creditId : JsNumber} {place : ℕ} {record out : BridgeRow}

theorem onBridge_eq_ok {α : Type} {w w' : World T} {call : Result (α × MerkleBridge × Ledger T)}
    {a : α} :
    StellarHost.onBridge w call = .ok (a, w') ↔
      ∃ bridge ledger, call = .ok (a, bridge, ledger) ∧
        w' = { w with bridge := bridge, ledger := ledger } := by
  simp only [StellarHost.onBridge, bind_eq_ok, pure_eq_ok, Prod.exists, Prod.mk.injEq]
  constructor
  · rintro ⟨_, bridge, ledger, hcall, rfl, rfl⟩
    exact ⟨bridge, ledger, hcall, rfl⟩
  · rintro ⟨bridge, ledger, hcall, rfl⟩
    exact ⟨a, bridge, ledger, hcall, rfl, rfl⟩

/-- The contracts let a user return the credit `id`. -/
def ReturnsOnChain (host : StellarHost T) (n : ℕ) (w : World T) (user : String) (id : ℕ)
    (w' : World T) : Prop :=
  ∃ owner r credit, host.address user = .ok owner ∧
    MerkleBridge.MayBridgeOut host.ch (host.env host.admin n) w.bridge w.ledger owner id r credit ∧
    w' = { w with
      bridge := w.bridge.emit (.bridgeOut id owner)
      ledger := w.ledger.writeRegistry r
        ((w.ledger.registries r).writeCredit id { credit with status := .retired }) }

theorem answer_bridgeOut_eq_ok {n : ℕ} {w w' : World T} {txHash : String} :
    host.answer (.bridgeOut user creditId) n w = (.ok txHash, w') ↔
      txHash = host.txHash n ∧
        ∃ id, host.u64 (.number creditId) = .ok id ∧ ReturnsOnChain host n w user id w' := by
  refine StellarHost.invoke_eq_ok.trans ?_
  simp only [StellarHost.args_bind_eq_ok, StellarHost.args_pure_eq_ok, map_eq_ok, Prod.exists,
    onBridge_eq_ok, MerkleBridge.bridgeOut_eq_ok]
  constructor
  · rintro ⟨owner, howner, id, hid, _, _, ⟨_, _, ⟨r, credit, hmay, -, rfl, rfl⟩, rfl⟩, heq⟩
    obtain ⟨rfl, rfl⟩ := Prod.mk.inj heq
    exact ⟨rfl, id, hid, owner, r, credit, howner, hmay, rfl⟩
  · rintro ⟨rfl, id, hid, owner, r, credit, howner, hmay, rfl⟩
    exact ⟨owner, howner, id, hid, true, _, ⟨_, _, ⟨r, credit, hmay, rfl, rfl, rfl⟩, rfl⟩, rfl⟩

/-- The import at `place` can be returned. -/
structure Returns (host : StellarHost T) (config : ApiConfig) (s : BackendState (World T))
    (user : String) (id : ℕ) (place : ℕ) (record : BridgeRow) (w' : World T) : Prop where
  found : Found s.db user id place record
  chain : ReturnsOnChain host (s.served + 2) s.chain user id w'
  stores : config.client.storesText (host.txHash (s.served + 2)) = true

/-- `bridgeOut` checks, calls the contracts, and flips the record that it has found. -/
theorem bridgeOut_eq_ok :
    exec (host.api config).handle (bridgeOut config user user creditId) s = (.ok out, s') ↔
      ∃ (id : ℕ) (place : ℕ) (record : BridgeRow) (w' : World T),
        Mirror.intColumn creditId = some (id : ℤ) ∧
        Returns host config s user id place record w' ∧
        out = { record with status := .outbound, txHash := host.txHash (s.served + 2) } ∧
        s' = (s.tick.tick.called (.bridgeOut user creditId) w').store
          (s.db.writeBridge place .outbound (host.txHash (s.served + 2))) := by
  simp only [bridgeOut, Program.exec_bind_eq_ok, exec_stellar_bridgeOut, exec_bridgeRecord_update]
  constructor
  · rintro ⟨⟨place, record⟩, u₁, hcheck, txHash, u₂, hcall, _, u₃, ⟨text, htext, -, rfl⟩, hret⟩
    cases hret
    obtain ⟨k, hk, hfound, rfl⟩ := exec_checkBridgeOut_eq_ok.mp hcheck
    obtain ⟨hreply, rfl⟩ := Prod.mk.inj hcall
    obtain ⟨rfl, id, hid, hchain⟩ := answer_bridgeOut_eq_ok.mp (Prod.ext hreply rfl)
    obtain rfl := (StellarHost.u64_of_intColumn hk).mp hid
    obtain ⟨hstores, rfl⟩ := Mirror.textColumn_eq_some.mp htext
    exact ⟨id, place, record, _, hk, ⟨hfound, hchain, hstores⟩, rfl, rfl⟩
  · rintro ⟨id, place, record, w', hk, ⟨hfound, hchain, hstores⟩, rfl, rfl⟩
    have hanswer : host.answer (.bridgeOut user creditId) (s.served + 2) s.chain =
        (.ok (host.txHash (s.served + 2)), w') :=
      answer_bridgeOut_eq_ok.mpr ⟨rfl, id, (StellarHost.u64_of_intColumn hk).mpr rfl, hchain⟩
    have hrow : (s.db.bridgeRecords[place]?).isSome := by
      rw [(findFirst_eq_some hfound.first).1]
      rfl
    refine ⟨(place, record), s.tick.tick, exec_checkBridgeOut_eq_ok.mpr ⟨id, hk, hfound, rfl⟩,
      host.txHash (s.served + 2), s.tick.tick.called (.bridgeOut user creditId) w', ?_, (), _,
      ⟨_, Mirror.textColumn_eq_some.mpr ⟨hstores, rfl⟩, hrow, rfl⟩, rfl⟩
    exact congrArg (fun r : Except ServiceError String × World T =>
      (r.1, s.tick.tick.called (.bridgeOut user creditId) r.2)) hanswer

end Chain

end BridgeService

end CarbonVeritas
