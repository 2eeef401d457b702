/-
# The processors as programs

The processors of `indexer/src/processors` whose events the API also records: the same code as
in `Mirror`, as programs that make their queries one at a time on the database that they share
with the API.  A processor that runs alone does to the database what it does in `Mirror`
(`runsAs_processCreditApproved`, and so on).
-/
import CarbonVeritas.ApiQueries

namespace CarbonVeritas

namespace Indexer

open ApiService
open Program (exec)

/-! ## Processors -/

section Processors

variable (client : DbClient)

/-- `if (!row) return;`, and the rest for a row that is found. -/
def whenFound {α : Type} (found : Option (ℤ × α)) (process : ℤ → α → ApiProgram Unit) :
    ApiProgram Unit :=
  match found with
  | none => .ret ()
  | some (id, row) => process id row

/-- The row that `processCreditApproved` creates. -/
def approvedRow (event : CreditApprovedEvent) (creditId : ℤ) (verifier : String) :
    Option ApprovalRow :=
  (Mirror.optionalTextColumn client event.comments).map fun comments =>
    { creditId, verifier, approved := event.approved, comments }

def processCreditApproved (event : CreditApprovedEvent) : ApiProgram Unit := do
  let found ← prisma.credit.findUnique event.creditId
  whenFound found fun creditId _ => do
    let verifier ← prisma.user.upsert event.verifier
    prisma.approval.create (approvedRow client event creditId verifier)

/-- The row that `processCreditRejected` creates. -/
def rejectedRow (event : CreditRejectedEvent) (creditId : ℤ) (verifier : String) :
    Option ApprovalRow :=
  (Mirror.textColumn client event.reason).map fun reason =>
    { creditId, verifier, approved := false, comments := some reason }

def processCreditRejected (event : CreditRejectedEvent) : ApiProgram Unit := do
  let found ← prisma.credit.findUnique event.creditId
  whenFound found fun creditId _ => do
    let verifier ← prisma.user.upsert event.verifier
    prisma.approval.create (rejectedRow client event creditId verifier)
    prisma.credit.update creditId (some { status := some .rejected })

def processCreditRetired (event : CreditRetiredEvent) : ApiProgram Unit := do
  let found ← prisma.credit.findUnique event.creditId
  whenFound found fun creditId _ => do
    let retirer ← prisma.user.upsert event.retiredBy
    prisma.retirement.create (Mirror.retiredRow client event creditId retirer)
    prisma.credit.update creditId (some { status := some .retired })

/-- What `processOfferFilled` writes to the offer. -/
def filledData (event : OfferFilledEvent) (offer : OfferRow) : Option OfferData :=
  let newFilled := (JsNumber.finite offer.amountFilled).add event.amount
  let isFullyFilled := newFilled.ge (.finite offer.amount)
  (Mirror.floatColumn newFilled).map fun x =>
    { amountFilled := some x, status := if isFullyFilled then some .filled else none }

def processOfferFilled (event : OfferFilledEvent) : ApiProgram Unit := do
  let found ← prisma.offer.findUnique event.offerId
  whenFound found fun offerId offer => do
    let buyer ← prisma.user.upsert event.buyer
    prisma.offer.update offerId (filledData event offer)
    prisma.trade.create (Mirror.tradeRow event offerId offer.creditId buyer)
    prisma.credit.update offer.creditId (some { owner := some buyer })

end Processors

/-! ## A processor that runs alone -/

section Alone

variable {σ : Type} {host : ApiHost σ} {α β : Type} {s : BackendState σ}

/-- What an action of the indexer on its tables is to the API. -/
def outcome (db : ApiDb) : EStateM.Result DbError Mirror α → Except ServiceError α × ApiDb
  | .ok a m => (.ok a, { db with toMirror := m })
  | .error e m => (.error (.database e), { db with toMirror := m })

/-- The program does to the database what the action does. -/
def RunsAs (host : ApiHost σ) (s : BackendState σ) (p : ApiProgram α) (m : Db α) : Prop :=
  ((exec host.handle p s).1, (exec host.handle p s).2.db) = outcome s.db (m.run s.db.toMirror)

/-- Only the tables of the indexer are replaced. -/
theorem outcome_toMirror (db : ApiDb) (m : Mirror) (r : EStateM.Result DbError Mirror α) :
    outcome { db with toMirror := m } r = outcome db r := by
  cases r <;> rfl

/-- A sequence runs as its parts do. -/
theorem RunsAs.bind {p : ApiProgram α} {f : α → ApiProgram β} {m : Db α} {g : α → Db β}
    (hp : RunsAs host s p m)
    (hf : ∀ a u, exec host.handle p s = (.ok a, u) → RunsAs host u (f a) (g a)) :
    RunsAs host s (p >>= f) (m >>= g) := by
  unfold RunsAs at hp
  show _ = outcome s.db (EStateM.bind m g s.db.toMirror)
  unfold EStateM.bind
  cases hm : m s.db.toMirror with
  | ok b m' =>
      rw [show m.run s.db.toMirror = .ok b m' from hm] at hp
      obtain ⟨hret, hdb⟩ := Prod.mk.inj hp
      have hexec : exec host.handle p s = (.ok b, (exec host.handle p s).2) := Prod.ext hret rfl
      have hrest := hf b _ hexec
      unfold RunsAs at hrest
      rw [Program.exec_bind_of_ok hexec, hrest, hdb]
      exact outcome_toMirror s.db m' _
  | error e m' =>
      rw [show m.run s.db.toMirror = .error e m' from hm] at hp
      obtain ⟨hfail, hdb⟩ := Prod.mk.inj hp
      have hexec : exec host.handle p s = (.error (.database e), (exec host.handle p s).2) :=
        Prod.ext hfail rfl
      rw [Program.exec_bind_of_error hexec, hdb]
      rfl

theorem runsAs_ret (a : α) : RunsAs host s (.ret a) (pure a) := rfl

/-! ### Queries -/

/-- A lookup of a row. -/
theorem runsAs_findCredit (creditId : JsNumber) :
    RunsAs host s (prisma.credit.findUnique creditId) (Mirror.findCredit creditId) := by
  unfold RunsAs Mirror.findCredit
  rw [exec_credit_findUnique]
  unfold DbQuery.lookup
  cases Mirror.intColumn creditId with
  | none => rfl
  | some k => rfl

/-- The search for an offer runs as that of the mirror. -/
theorem runsAs_findOffer (offerId : JsNumber) :
    RunsAs host s (prisma.offer.findUnique offerId) (Mirror.findOffer offerId) := by
  unfold RunsAs Mirror.findOffer
  rw [exec_offer_findUnique]
  unfold DbQuery.lookup
  cases Mirror.intColumn offerId with
  | none => rfl
  | some k => rfl

/-- A query of one table. -/
theorem runsAs_query {q : DbQuery} {m : Db q.Reply}
    (h : q.answer host.client s.db = outcome s.db (m.run s.db.toMirror)) :
    RunsAs host s (.query (.db q) .ret) m := by
  unfold RunsAs
  rw [show exec host.handle (.query (.db q) .ret) s = host.handle (.db q) s from
    Program.exec_ask (ApiQuery.db q) s]
  exact h

/-- So does the insertion of a user. -/
theorem runsAs_upsertUser (stellarPub : String) :
    RunsAs host s (prisma.user.upsert stellarPub) (Mirror.upsertUser host.client stellarPub) := by
  refine runsAs_query (q := .upsertUser stellarPub) ?_
  unfold Mirror.upsertUser
  rw [DbQuery.answer]
  cases Mirror.textColumn host.client stellarPub with
  | none => rfl
  | some text => rfl

/-- So does the insertion of a vote. -/
theorem runsAs_insertApproval (row : Option ApprovalRow) :
    RunsAs host s (prisma.approval.create row) (Mirror.insert Mirror.insertApproval row) := by
  refine runsAs_query (q := .insertApproval row) ?_
  cases row with
  | none => rfl
  | some row => rfl

/-- So does the insertion of a trade. -/
theorem runsAs_insertTrade (row : Option TradeRow) :
    RunsAs host s (prisma.trade.create row) (Mirror.insert Mirror.insertTrade row) := by
  refine runsAs_query (q := .insertTrade row) ?_
  cases row with
  | none => rfl
  | some row => rfl

/-- So does the insertion of a retirement. -/
theorem runsAs_insertRetirement (row : Option RetirementRow) :
    RunsAs host s (prisma.retirement.create row) (Mirror.insert Mirror.insertRetirement row) := by
  refine runsAs_query (q := .insertRetirement row) ?_
  cases row with
  | none => rfl
  | some row => rfl

/-- The update of a credit finds a row to write, or fails. -/
theorem updateCredit_run (creditId : ℤ) (f : CreditRow → CreditRow) (db : Mirror) :
    Mirror.updateCredit creditId f db = match db.credits creditId with
      | some row => .ok () (db.writeCredit creditId (f row))
      | none => .error .rowNotFound db := by
  show (match db.credits creditId with
    | some row => (set (db.writeCredit creditId (f row)) : Db Unit)
    | none => throw DbError.rowNotFound) db = _
  cases db.credits creditId <;> rfl

/-- The update of an offer finds a row to write, or fails. -/
theorem updateOffer_run (offerId : ℤ) (f : OfferRow → OfferRow) (db : Mirror) :
    Mirror.updateOffer offerId f db = match db.offers offerId with
      | some row => .ok () (db.writeOffer offerId (f row))
      | none => .error .rowNotFound db := by
  show (match db.offers offerId with
    | some row => (set (db.writeOffer offerId (f row)) : Db Unit)
    | none => throw DbError.rowNotFound) db = _
  cases db.offers offerId <;> rfl

/-- The update of a credit runs as that of the mirror. -/
theorem runsAs_updateCredit (creditId : ℤ) {data : CreditData} {f : CreditRow → CreditRow}
    (h : ∀ row, data.apply row = f row) :
    RunsAs host s (prisma.credit.update creditId (some data)) (Mirror.updateCredit creditId f) := by
  refine runsAs_query (q := .updateCredit creditId (some data)) ?_
  show _ = outcome s.db (Mirror.updateCredit creditId f s.db.toMirror)
  rw [updateCredit_run, DbQuery.answer]
  cases s.db.credits creditId with
  | none => rfl
  | some row =>
      show (Except.ok (), s.db.writeCredit creditId (data.apply row)) = _
      rw [h row]
      rfl

/-- The fill is written to the row that was read. -/
theorem runsAs_updateOffer (host : ApiHost σ) (event : OfferFilledEvent) {offerId : ℤ}
    {offer : OfferRow} (hrow : s.db.offers offerId = some offer) :
    RunsAs host s (prisma.offer.update offerId (filledData event offer)) (do
      let newFilled := (JsNumber.finite offer.amountFilled).add event.amount
      let amountFilled ← Mirror.columnValue (Mirror.floatColumn newFilled)
      Mirror.updateOffer offerId fun row => Mirror.filledOffer row newFilled amountFilled) := by
  refine runsAs_query (q := .updateOffer offerId (filledData event offer)) ?_
  unfold filledData
  dsimp only
  set newFilled := (JsNumber.finite offer.amountFilled).add event.amount
  cases hfits : Mirror.floatColumn newFilled with
  | none => rfl
  | some x =>
      show _ = outcome s.db (Mirror.updateOffer offerId
        (fun row => Mirror.filledOffer row newFilled x) s.db.toMirror)
      rw [updateOffer_run, Option.map_some, DbQuery.answer, hrow]
      have hrow' : OfferData.apply
          { amountFilled := some x
            status := if newFilled.ge (.finite offer.amount) = true then some .filled else none }
          offer = Mirror.filledOffer offer newFilled x := by
        unfold OfferData.apply Mirror.filledOffer
        split_ifs <;> rfl
      show (Except.ok (), s.db.writeOffer offerId (OfferData.apply _ offer)) = _
      rw [hrow']
      rfl

/-- A user that is stored leaves the offers. -/
theorem exec_upsert_offers (host : ApiHost σ) (s : BackendState σ) (stellarPub : String) :
    (exec host.handle (prisma.user.upsert stellarPub) s).2.db.offers = s.db.offers := by
  rw [show exec host.handle (prisma.user.upsert stellarPub) s = _ from
    Program.exec_ask (ApiQuery.db (.upsertUser stellarPub)) s]
  show (DbQuery.answer host.client (.upsertUser stellarPub) s.db).2.offers = _
  rw [DbQuery.answer]
  cases Mirror.textColumn host.client stellarPub with
  | none => rfl
  | some text =>
      show (s.db.toMirror.insertUser text).offers = _
      unfold Mirror.insertUser
      split_ifs <;> rfl

/-! ### Processors -/

/-- The processor of an approval runs as that of the mirror. -/
theorem runsAs_processCreditApproved (event : CreditApprovedEvent) :
    RunsAs host s (processCreditApproved host.client event)
      (Mirror.processCreditApproved host.client event) := by
  refine (runsAs_findCredit event.creditId).bind fun found u _ => ?_
  cases found with
  | none => exact runsAs_ret ()
  | some found => exact (runsAs_upsertUser _).bind fun verifier v _ => runsAs_insertApproval _

/-- So does the processor of a rejection. -/
theorem runsAs_processCreditRejected (event : CreditRejectedEvent) :
    RunsAs host s (processCreditRejected host.client event)
      (Mirror.processCreditRejected host.client event) := by
  refine (runsAs_findCredit event.creditId).bind fun found u _ => ?_
  cases found with
  | none => exact runsAs_ret ()
  | some found =>
      refine (runsAs_upsertUser _).bind fun verifier v _ => ?_
      refine (runsAs_insertApproval _).bind fun _ w _ => ?_
      exact runsAs_updateCredit _ fun row => rfl

/-- So does the processor of a retirement. -/
theorem runsAs_processCreditRetired (event : CreditRetiredEvent) :
    RunsAs host s (processCreditRetired host.client event)
      (Mirror.processCreditRetired host.client event) := by
  refine (runsAs_findCredit event.creditId).bind fun found u _ => ?_
  cases found with
  | none => exact runsAs_ret ()
  | some found =>
      refine (runsAs_upsertUser _).bind fun verifier v _ => ?_
      refine (runsAs_insertRetirement _).bind fun _ w _ => ?_
      exact runsAs_updateCredit _ fun row => rfl

/-- So does the processor of a fill. -/
theorem runsAs_processOfferFilled (event : OfferFilledEvent) :
    RunsAs host s (processOfferFilled event)
      (Mirror.processOfferFilled host.client event) := by
  refine (runsAs_findOffer event.offerId).bind fun found u hfound => ?_
  cases found with
  | none => exact runsAs_ret ()
  | some found =>
      obtain ⟨offerId, offer⟩ := found
      rw [exec_offer_findUnique, Prod.mk.injEq] at hfound
      obtain ⟨hlookup, rfl⟩ := hfound
      refine (runsAs_upsertUser _).bind fun buyer v hbuyer => ?_
      have hrow : v.db.offers offerId = some offer := by
        have hoffers := exec_upsert_offers host s.tick event.buyer
        rw [hbuyer] at hoffers
        rw [show v.db.offers = s.tick.db.offers from hoffers]
        exact (lookup_eq_ok_some.mp hlookup).2
      have hwrite := (runsAs_updateOffer host event hrow).bind
        (f := fun _ => prisma.trade.create (Mirror.tradeRow event offerId offer.creditId buyer) >>=
          fun _ => prisma.credit.update offer.creditId (some { owner := some buyer }))
        (g := fun _ => Mirror.insert Mirror.insertTrade
          (Mirror.tradeRow event offerId offer.creditId buyer) >>= fun _ =>
            Mirror.updateCredit offer.creditId fun row => { row with owner := buyer })
        fun _ w _ => (runsAs_insertTrade _).bind fun _ w' _ => runsAs_updateCredit _ fun row => rfl
      rw [bind_assoc] at hwrite
      exact hwrite

end Alone

end Indexer

end CarbonVeritas
