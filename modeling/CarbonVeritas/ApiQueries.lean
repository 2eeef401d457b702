/-
# The queries of the services

The calls of Prisma, of `StellarService` and of the clock, as programs of one query, and what
each of them answers to a program that runs alone.
-/
import CarbonVeritas.ApiBackend

namespace CarbonVeritas

namespace ApiService

/-! ## The clock -/

def Date.now : ApiProgram ℕ := .query .now .ret

/-! ## The database -/

namespace prisma

def user.findUnique (stellarPub : String) : ApiProgram Bool :=
  .query (.db (.findUser stellarPub)) .ret

def user.upsert (stellarPub : String) : ApiProgram String :=
  .query (.db (.upsertUser stellarPub)) .ret

def verifier.findFirst (user : String) : ApiProgram (Option VerifierRow) :=
  .query (.db (.findVerifier user)) .ret

def credit.findUnique (creditId : JsNumber) : ApiProgram (Option (ℤ × CreditRow)) :=
  .query (.db (.findCredit creditId)) .ret

def credit.findWithApprovals (creditId : JsNumber) :
    ApiProgram (Option (ℤ × CreditRow × List ApprovalRow)) :=
  .query (.db (.findCreditApprovals creditId)) .ret

def credit.findLast : ApiProgram (Option ℤ) := .query (.db .findLastCredit) .ret

def credit.create (row : Option (ℤ × CreditRow)) : ApiProgram Unit :=
  .query (.db (.insertCredit row)) .ret

def credit.update (creditId : ℤ) (data : Option CreditData) : ApiProgram Unit :=
  .query (.db (.updateCredit creditId data)) .ret

def approval.create (row : Option ApprovalRow) : ApiProgram Unit :=
  .query (.db (.insertApproval row)) .ret

def approval.count (creditId : ℤ) (approved : Bool) : ApiProgram ℕ :=
  .query (.db (.countApprovals creditId approved)) .ret

def offer.findUnique (offerId : JsNumber) : ApiProgram (Option (ℤ × OfferRow)) :=
  .query (.db (.findOffer offerId)) .ret

def offer.findWithCredit (offerId : JsNumber) :
    ApiProgram (Option (ℤ × OfferRow × CreditRow)) :=
  .query (.db (.findOfferCredit offerId)) .ret

def offer.findActive (creditId : ℤ) (seller : String) : ApiProgram Bool :=
  .query (.db (.findActiveOffer creditId seller)) .ret

def offer.findLast : ApiProgram (Option ℤ) := .query (.db .findLastOffer) .ret

def offer.create (row : Option (ℤ × OfferRow)) : ApiProgram Unit :=
  .query (.db (.insertOffer row)) .ret

def offer.update (offerId : ℤ) (data : Option OfferData) : ApiProgram Unit :=
  .query (.db (.updateOffer offerId data)) .ret

def trade.create (row : Option TradeRow) : ApiProgram Unit := .query (.db (.insertTrade row)) .ret

def retirement.create (row : Option RetirementRow) : ApiProgram Unit :=
  .query (.db (.insertRetirement row)) .ret

def retirement.update (place : ℕ) (certificateHash : String) : ApiProgram Unit :=
  .query (.db (.updateRetirementHash place certificateHash)) .ret

def retirement.findFirst (certificateHash : String) :
    ApiProgram (Option (ℕ × RetirementRow × CreditRow)) :=
  .query (.db (.findRetirement certificateHash)) .ret

def bridgeRecord.create (row : Option BridgeRow) : ApiProgram Unit :=
  .query (.db (.insertBridge row)) .ret

def bridgeRecord.findFirst (creditId : JsNumber) : ApiProgram (Option (ℕ × BridgeRow)) :=
  .query (.db (.findBridge creditId)) .ret

def bridgeRecord.update (place : ℕ) (status : BridgeStatus) (txHash : Option String) :
    ApiProgram Unit :=
  .query (.db (.updateBridge place status txHash)) .ret

def credit.findRetired (creditIds : List ℤ) (user : String) :
    ApiProgram (List (ℤ × CreditRow × Option (ℕ × RetirementRow))) :=
  .query (.db (.findRetiredCredits creditIds user)) .ret

def certificate.findFirst (certificateHash : String) :
    ApiProgram (Option (ℕ × CertificateRow)) :=
  .query (.db (.findCertificate certificateHash)) .ret

def certificate.create (row : CertificateRow) : ApiProgram ℕ :=
  .query (.db (.insertCertificate row)) .ret

end prisma

/-! ## Two queries at once -/

section PromiseAll

def attempt.tradeCreate (row : Option TradeRow) : ApiProgram (Except ServiceError Unit) :=
  .query (.attempt (.insertTrade row)) .ret

def attempt.creditUpdate (creditId : ℤ) (data : Option CreditData) :
    ApiProgram (Except ServiceError Unit) :=
  .query (.attempt (.updateCredit creditId data)) .ret

def settled {α : Type} : Except ServiceError α → ApiProgram α
  | .ok a => .ret a
  | .error e => .throw e

def overtakes : ApiProgram Bool := .query .overtakes .ret

/-- `Promise.all([p, q])` : both queries are made, in either order, also when one fails. -/
def promiseAll (p q : ApiProgram (Except ServiceError Unit)) : ApiProgram Unit := do
  if ← overtakes then
    let b ← q
    let a ← p
    settled a
    settled b
  else
    let a ← p
    let b ← q
    settled a
    settled b

end PromiseAll

/-! ## The contracts -/

namespace stellar

def submitCredit (issuer : String) (metadata : CreditMetadataInput) (ipfsHash : String) :
    ApiProgram String :=
  .query (.stellar (.submitCredit issuer metadata ipfsHash)) .ret

def approveAndMint (verifier : String) (creditId : JsNumber) (comments : String) :
    ApiProgram (Option String) :=
  .query (.stellar (.approveAndMint verifier creditId comments)) .ret

def rejectCredit (verifier : String) (creditId : JsNumber) (reason : String) : ApiProgram Bool :=
  .query (.stellar (.rejectCredit verifier creditId reason)) .ret

def transferCredit (fromAddr toAddr : String) (creditId : JsNumber) : ApiProgram Bool :=
  .query (.stellar (.transferCredit fromAddr toAddr creditId)) .ret

def retire (owner : String) (creditId : JsNumber) (reason beneficiary accountingPeriod : String) :
    ApiProgram RetireReceipt :=
  .query (.stellar (.retire owner creditId reason beneficiary accountingPeriod)) .ret

def isRetired (creditId : JsNumber) : ApiProgram Bool :=
  .query (.stellar (.isRetired creditId)) .ret

def createOffer (seller : String) (creditId pricePerTonne amount : JsNumber) (currency : String)
    (expiry : Option JsNumber) : ApiProgram JsNumber :=
  .query (.stellar (.createOffer seller creditId pricePerTonne amount currency expiry)) .ret

def buyCredits (buyer : String) (offerId amount : JsNumber) : ApiProgram Bool :=
  .query (.stellar (.buyCredits buyer offerId amount)) .ret

def cancelOffer (caller : String) (offerId : JsNumber) : ApiProgram Bool :=
  .query (.stellar (.cancelOffer caller offerId)) .ret

def bridgeIn (bridger sourceRegistry sourceSerial : String) (merkleProof : List String)
    (merkleRoot : String) (metadata : CreditMetadataInput) : ApiProgram BridgeReceipt :=
  .query (.stellar (.bridgeIn bridger sourceRegistry sourceSerial merkleProof merkleRoot metadata))
    .ret

def bridgeOut (owner : String) (creditId : JsNumber) : ApiProgram String :=
  .query (.stellar (.bridgeOut owner creditId)) .ret

def verifyProof (leaf : String) (proof : List String) (root : String) : ApiProgram Bool :=
  .query (.stellar (.verifyProof leaf proof root)) .ret

def getCertificateHash (creditId : JsNumber) : ApiProgram String :=
  .query (.stellar (.getCertificateHash creditId)) .ret

end stellar

/-! ## Programs that only read -/

end ApiService

/-- The queries that leave the database and the contracts as they are. -/
def DbQuery.reads : DbQuery → Bool
  | findUser _ => true
  | findVerifier _ => true
  | findCredit _ => true
  | findCreditApprovals _ => true
  | findLastCredit => true
  | countApprovals _ _ => true
  | findOffer _ => true
  | findOfferCredit _ => true
  | findActiveOffer _ _ => true
  | findLastOffer => true
  | findBridge _ => true
  | findRetiredCredits _ _ => true
  | findCertificate _ => true
  | findRetirement _ => true
  | _ => false

def ApiQuery.reads : ApiQuery → Bool
  | now => true
  | overtakes => true
  | db q => q.reads
  | attempt q => q.reads
  | stellar _ => false

/-- A query that reads leaves the database. -/
theorem DbQuery.answer_reads (client : DbClient) {q : DbQuery} (h : q.reads = true) (db : ApiDb) :
    (q.answer client db).2 = db := by
  cases q <;> first | rfl | exact Bool.noConfusion h | skip
  case findBridge creditId =>
    rw [answer]
    cases Mirror.intColumn creditId <;> rfl

section Reads

variable {σ : Type} {host : ApiHost σ} {α : Type}

open Program (exec)

/-- A query that reads leaves the state, but for its count. -/
theorem ApiHost.handle_reads {q : ApiQuery} (h : q.reads = true) (s : BackendState σ) :
    (host.handle q s).2 = s.tick := by
  cases q with
  | now => rfl
  | overtakes => rfl
  | db q =>
      show s.store (q.answer host.client s.db).2 = s.tick
      rw [DbQuery.answer_reads _ h]
      rfl
  | attempt q =>
      show s.store (q.answer host.client s.db).2 = s.tick
      rw [DbQuery.answer_reads _ h]
      rfl
  | stellar call => cases h

/-- A program that only reads leaves the database, the contracts and the calls. -/
theorem exec_reads (host : ApiHost σ) {p : ApiProgram α}
    (hp : p.Uses fun q => q.reads = true) (s : BackendState σ) :
    (exec host.handle p s).2.db = s.db ∧ (exec host.handle p s).2.chain = s.chain ∧
      (exec host.handle p s).2.calls = s.calls := by
  refine Program.exec_invariant
    (I := fun u : BackendState σ => u.db = s.db ∧ u.chain = s.chain ∧ u.calls = s.calls)
    ?_ hp ⟨rfl, rfl, rfl⟩
  intro q u hq hu
  rw [ApiHost.handle_reads hq]
  exact hu

end Reads

namespace ApiService

open Program (exec exec_ask)

/-! ## Programs that fail -/

/-- A request that fails without effect on the database and on the contracts. -/
structure Fails {σ α : Type} (s : BackendState σ) (r : Except ServiceError α × BackendState σ) :
    Prop where
  error : ∃ e, r.1 = .error e
  db : r.2.db = s.db
  chain : r.2.chain = s.chain

section Fails

variable {σ α β : Type} {host : ApiHost σ} {s : BackendState σ}

/-- A failure leaves what an equal state holds. -/
theorem Fails.of_eq {u : BackendState σ} {r : Except ServiceError α × BackendState σ}
    (h : Fails u r) (hdb : u.db = s.db) (hchain : u.chain = s.chain) : Fails s r :=
  ⟨h.error, h.db.trans hdb, h.chain.trans hchain⟩

/-- A sequence whose first part only reads, and whose second part fails. -/
theorem fails_bind {p : ApiProgram α} {f : α → ApiProgram β}
    (hp : p.Uses fun q => q.reads = true)
    (hf : ∀ a u, exec host.handle p s = (.ok a, u) → Fails u (exec host.handle (f a) u)) :
    Fails s (exec host.handle (p >>= f) s) := by
  obtain ⟨hdb, hchain, -⟩ := exec_reads host hp s
  refine Program.exec_bind_rule (fun a u hret => ?_) fun e u hfail => ?_
  · rw [hret] at hdb hchain
    exact (hf a u hret).of_eq hdb hchain
  · rw [hfail] at hdb hchain
    exact ⟨⟨e, rfl⟩, hdb, hchain⟩

/-- A condition that throws. -/
theorem fails_throwIf {c : Prop} [Decidable c] {e : ServiceError} {f : Unit → ApiProgram β}
    (hc : c) : Fails s (exec host.handle (Program.throwIf c e >>= f) s) := by
  rw [Program.throwIf_bind, if_pos hc]
  exact ⟨⟨e, rfl⟩, rfl, rfl⟩

end Fails

/-! ## What each query answers -/

section Answers

variable {σ : Type} {host : ApiHost σ} {s : BackendState σ}

theorem exec_now : exec host.handle Date.now s = (.ok (host.time s.served), s.tick) :=
  exec_ask ApiQuery.now s

/-- A search for a credit reads its row. -/
theorem exec_credit_findUnique (creditId : JsNumber) :
    exec host.handle (prisma.credit.findUnique creditId) s =
      (DbQuery.lookup creditId s.db.credits, s.tick) :=
  exec_ask (ApiQuery.db (.findCredit creditId)) s

/-- A search for a verifier reads the first row of the user. -/
theorem exec_verifier_findFirst (user : String) :
    exec host.handle (prisma.verifier.findFirst user) s =
      (.ok (s.db.verifiers.find? fun row => row.user = user), s.tick) :=
  exec_ask (ApiQuery.db (.findVerifier user)) s

/-- The credit with the id, and its votes. -/
def creditApprovals (db : ApiDb) (id : ℤ) : Option (CreditRow × List ApprovalRow) :=
  (db.credits id).map fun row => (row, db.approvals.filter fun a => a.creditId = id)

/-- A credit comes with the votes on it. -/
theorem creditApprovals_eq_some {db : ApiDb} {id : ℤ} {row : CreditRow}
    {approvals : List ApprovalRow} :
    creditApprovals db id = some (row, approvals) ↔
      db.credits id = some row ∧ approvals = db.approvals.filter fun a => a.creditId = id := by
  simp only [creditApprovals, Option.map_eq_some_iff, Prod.mk.injEq]
  constructor
  · rintro ⟨_, hrow, rfl, rfl⟩
    exact ⟨hrow, rfl⟩
  · rintro ⟨hrow, rfl⟩
    exact ⟨row, hrow, rfl, rfl⟩

/-- A search for a credit reads its row and its votes. -/
theorem exec_credit_findWithApprovals (creditId : JsNumber) :
    exec host.handle (prisma.credit.findWithApprovals creditId) s =
      (DbQuery.lookup creditId (creditApprovals s.db), s.tick) :=
  exec_ask (ApiQuery.db (.findCreditApprovals creditId)) s

/-- A vote is written if its columns fit. -/
theorem exec_approval_create (row : Option ApprovalRow) :
    exec host.handle (prisma.approval.create row) s =
      ((DbQuery.answer host.client (.insertApproval row) s.db).1,
        s.store (DbQuery.answer host.client (.insertApproval row) s.db).2) :=
  exec_ask (ApiQuery.db (.insertApproval row)) s

/-- The votes of the credit with this verdict. -/
def countVotes (db : ApiDb) (id : ℤ) (approved : Bool) : ℕ :=
  db.approvals.countP fun a => a.creditId = id ∧ a.approved = approved

/-- The votes of a credit are counted in the table. -/
theorem exec_approval_count (id : ℤ) (approved : Bool) :
    exec host.handle (prisma.approval.count id approved) s =
      (.ok (countVotes s.db id approved), s.tick) :=
  exec_ask (ApiQuery.db (.countApprovals id approved)) s

/-- A credit is updated if its columns fit and it is there. -/
theorem exec_credit_update (id : ℤ) (data : Option CreditData) :
    exec host.handle (prisma.credit.update id data) s =
      ((DbQuery.answer host.client (.updateCredit id data) s.db).1,
        s.store (DbQuery.answer host.client (.updateCredit id data) s.db).2) :=
  exec_ask (ApiQuery.db (.updateCredit id data)) s

/-- An update of a row that is stored. -/
theorem exec_credit_update_some {id : ℤ} {data : CreditData} {row : CreditRow}
    (hrow : s.db.credits id = some row) :
    exec host.handle (prisma.credit.update id (some data)) s =
      (.ok (), s.store (s.db.writeCredit id (data.apply row))) := by
  rw [exec_credit_update, DbQuery.answer, hrow]
  rfl

/-- A retirement is written if its columns fit. -/
theorem exec_retirement_create (row : Option RetirementRow) :
    exec host.handle (prisma.retirement.create row) s =
      ((DbQuery.answer host.client (.insertRetirement row) s.db).1,
        s.store (DbQuery.answer host.client (.insertRetirement row) s.db).2) :=
  exec_ask (ApiQuery.db (.insertRetirement row)) s

/-- A search for an offer reads its row. -/
theorem exec_offer_findUnique (offerId : JsNumber) :
    exec host.handle (prisma.offer.findUnique offerId) s =
      (DbQuery.lookup offerId s.db.offers, s.tick) :=
  exec_ask (ApiQuery.db (.findOffer offerId)) s

/-- The offer with the id, and its credit. -/
def offerCredit (db : ApiDb) (id : ℤ) : Option (OfferRow × CreditRow) := do
  let offer ← db.offers id
  let credit ← db.credits offer.creditId
  return (offer, credit)

/-- An offer comes with its credit. -/
theorem offerCredit_eq_some {db : ApiDb} {id : ℤ} {offer : OfferRow} {credit : CreditRow} :
    offerCredit db id = some (offer, credit) ↔
      db.offers id = some offer ∧ db.credits offer.creditId = some credit := by
  simp only [offerCredit, Option.bind_eq_bind, Option.bind_eq_some_iff, Option.pure_def,
    Option.some.injEq, Prod.mk.injEq]
  constructor
  · rintro ⟨_, hoffer, _, hcredit, rfl, rfl⟩
    exact ⟨hoffer, hcredit⟩
  · rintro ⟨hoffer, hcredit⟩
    exact ⟨offer, hoffer, credit, hcredit, rfl, rfl⟩

/-- A search for an offer reads its row and that of its credit. -/
theorem exec_offer_findWithCredit (offerId : JsNumber) :
    exec host.handle (prisma.offer.findWithCredit offerId) s =
      (DbQuery.lookup offerId (offerCredit s.db), s.tick) :=
  exec_ask (ApiQuery.db (.findOfferCredit offerId)) s

/-- A transfer is answered by the deployment. -/
theorem exec_stellar_transferCredit (fromAddr toAddr : String) (creditId : JsNumber) :
    exec host.handle (stellar.transferCredit fromAddr toAddr creditId) s =
      ((host.stellar (.transferCredit fromAddr toAddr creditId) s.served s.chain).1,
        s.called (.transferCredit fromAddr toAddr creditId)
          (host.stellar (.transferCredit fromAddr toAddr creditId) s.served s.chain).2) :=
  exec_ask (ApiQuery.stellar (.transferCredit fromAddr toAddr creditId)) s

/-- A call of the contracts that returns. -/
theorem exec_call_ok {α : Type} {call : StellarCall}
    {f : (ApiQuery.stellar call).Reply → ApiProgram α} {r : call.Reply} {chain : σ}
    (h : host.stellar call s.served s.chain = (.ok r, chain)) :
    exec host.handle (.query (.stellar call) .ret >>= f) s =
      exec host.handle (f r) (s.called call chain) := by
  have hreply : (host.stellar call s.served s.chain).1 = .ok r := by rw [h]
  have hchain : (host.stellar call s.served s.chain).2 = chain := by rw [h]
  have hhandle : host.handle (.stellar call) s = (.ok r, s.called call chain) :=
    Prod.ext hreply (congrArg (s.called call) hchain)
  show exec host.handle (.query (.stellar call) f) s = _
  exact Program.exec_query_ok hhandle

/-- A call of the contracts that fails. -/
theorem exec_call_error {α : Type} {call : StellarCall}
    {f : (ApiQuery.stellar call).Reply → ApiProgram α} {e : ServiceError}
    (h : (host.stellar call s.served s.chain).1 = .error e) :
    exec host.handle (.query (.stellar call) .ret >>= f) s =
      (.error e, s.called call (host.stellar call s.served s.chain).2) := by
  have hhandle : host.handle (.stellar call) s =
      (.error e, s.called call (host.stellar call s.served s.chain).2) := Prod.ext h rfl
  show exec host.handle (.query (.stellar call) f) s = _
  exact Program.exec_query_error hhandle

/-- A row is looked up under an integer, and a number that is none fails the query. -/
theorem lookup_eq_ok {α : Type} {x : JsNumber} {rows : ℤ → Option α}
    {found : Option (ℤ × α)} :
    DbQuery.lookup x rows = .ok found ↔
      ∃ k, Mirror.intColumn x = some k ∧ found = (rows k).map fun row => (k, row) := by
  unfold DbQuery.lookup
  cases Mirror.intColumn x with
  | none => simp
  | some k => simp [eq_comm]

/-- A row that is found by its id. -/
theorem lookup_eq_ok_some {α : Type} {x : JsNumber} {rows : ℤ → Option α} {k : ℤ} {row : α} :
    DbQuery.lookup x rows = .ok (some (k, row)) ↔
      Mirror.intColumn x = some k ∧ rows k = some row := by
  rw [lookup_eq_ok]
  constructor
  · rintro ⟨i, hi, hfound⟩
    obtain ⟨row', hrow, heq⟩ := Option.map_eq_some_iff.mp hfound.symm
    obtain ⟨rfl, rfl⟩ := Prod.mk.injEq .. ▸ heq
    exact ⟨hi, hrow⟩
  · rintro ⟨hk, hrow⟩
    exact ⟨k, hk, by rw [hrow]; rfl⟩

/-- The first row that meets a condition, and its place. -/
theorem findFirst_eq_some_iff {α : Type} {rows : List α} {p : ℕ → α → Bool} {place : ℕ}
    {row : α} :
    ApiDb.findFirst rows p = some (place, row) ↔
      rows[place]? = some row ∧ p place row = true ∧
        ∀ k a, k < place → rows[k]? = some a → p k a = false := by
  have hfind : ApiDb.findFirst rows p = some (place, row) ↔
      rows.zipIdx.find? (fun row => p row.2 row.1) = some (row, place) := by
    unfold ApiDb.findFirst
    rw [Option.map_eq_some_iff]
    constructor
    · rintro ⟨⟨a, k⟩, h, hswap⟩
      cases hswap
      exact h
    · intro h
      exact ⟨_, h, rfl⟩
  rw [hfind, List.find?_eq_some_iff_getElem]
  constructor
  · rintro ⟨hp, i, hi, hrow, hbefore⟩
    rw [List.getElem_zipIdx, Prod.mk.injEq, Nat.zero_add] at hrow
    obtain ⟨hrow, rfl⟩ := hrow
    refine ⟨List.getElem?_eq_some_iff.mpr ⟨_, hrow⟩, hp, fun k a hk ha => ?_⟩
    obtain ⟨_, rfl⟩ := List.getElem?_eq_some_iff.mp ha
    have hnot := hbefore k hk
    rw [List.getElem_zipIdx, Nat.zero_add] at hnot
    exact (Bool.not_eq_true' _).mp hnot
  · rintro ⟨hrow, hp, hbefore⟩
    obtain ⟨hplace, rfl⟩ := List.getElem?_eq_some_iff.mp hrow
    refine ⟨hp, place, by rwa [List.length_zipIdx], ?_, fun k hk => ?_⟩
    · rw [List.getElem_zipIdx, Nat.zero_add]
    · rw [List.getElem_zipIdx, Nat.zero_add]
      exact (Bool.not_eq_true' _).mpr
        (hbefore k _ hk (List.getElem?_eq_some_iff.mpr ⟨hk.trans hplace, rfl⟩))

/-- A row that is found stands at its place and meets the condition. -/
theorem findFirst_eq_some {α : Type} {rows : List α} {p : ℕ → α → Bool} {place : ℕ} {row : α}
    (h : ApiDb.findFirst rows p = some (place, row)) :
    rows[place]? = some row ∧ p place row = true :=
  ⟨(findFirst_eq_some_iff.mp h).1, (findFirst_eq_some_iff.mp h).2.1⟩

/-- An update of the first row that keeps the condition keeps its place. -/
theorem findFirst_modify {α : Type} {rows : List α} {p : ℕ → α → Bool} {place : ℕ} {row : α}
    {f : α → α} (hf : ∀ k a, p k (f a) = p k a)
    (h : ApiDb.findFirst rows p = some (place, row)) :
    ApiDb.findFirst (rows.modify place f) p = some (place, f row) := by
  obtain ⟨hrow, hp, hbefore⟩ := findFirst_eq_some_iff.mp h
  refine findFirst_eq_some_iff.mpr ⟨?_, ?_, fun k a hk ha => ?_⟩
  · rw [List.getElem?_modify, hrow]
    exact congrArg some (if_pos rfl)
  · rw [hf]
    exact hp
  · rw [List.getElem?_modify] at ha
    obtain ⟨b, hb, hbeq⟩ := Option.map_eq_some_iff.mp ha
    rw [if_neg hk.ne'] at hbeq
    exact hbefore k a hk (hbeq ▸ hb)

end Answers

end ApiService

end CarbonVeritas
