/-
# One transaction, two writers

A handler of the API submits a transaction, and writes its result to the database into which the
indexer writes the event of the same transaction.  The two take turns in any order, one query a
turn, once the contracts have answered.

Both insert a row, since neither looks for the other's: `rows_run` counts the rows.  A
transaction has one effect in every order exactly when one of the two rows is refused by the
database, and for a fill when it is the API's (`oneEffect_iff`).
-/
import CarbonVeritas.CreditsService
import CarbonVeritas.IndexerPrograms
import CarbonVeritas.FillRaces
import CarbonVeritas.RetirementService

namespace CarbonVeritas

open ApiService Transition
open Program

/-! ## What a query leaves -/

section Queries

variable {σ α V : Type} {host : ApiHost σ}

/-- The query leaves the credits that there are. -/
theorem DbQuery.answer_credit (client : DbClient) (q : DbQuery) {db : ApiDb} {k : ℤ}
    (h : (db.credits k).isSome = true) : ((q.answer client db).2.credits k).isSome = true := by
  have hwrite : ∀ creditId row, ((db.writeCredit creditId row).credits k).isSome = true := by
    intro creditId row
    show (Function.update db.credits creditId (some row) k).isSome = true
    by_cases hk : k = creditId
    · rw [hk, Function.update_self]
      rfl
    · rw [Function.update_of_ne hk]
      exact h
  have hupdate : ∀ {β γ : Type} (data : Option β) (row : Option γ) (f : β → γ → ApiDb),
      (∀ d r, ((f d r).credits k).isSome = true) →
        ((update db data row f).2.credits k).isSome = true := by
    intro β γ data row f hf
    cases data with
    | none => exact h
    | some d =>
        cases row with
        | none => exact h
        | some r => exact hf d r
  -- only an update writes to the credits, and it writes a row
  cases q with
  | updateCredit creditId data => exact hupdate _ _ _ fun d r => hwrite _ _
  | updateOffer offerId data => exact hupdate _ _ _ fun d r => h
  | updateBridge place status txHash => exact hupdate _ _ _ fun d r => h
  | upsertUser stellarPub =>
      rw [answer]
      cases Mirror.textColumn client stellarPub with
      | none => exact h
      | some text =>
          show ((db.toMirror.insertUser text).credits k).isSome = true
          unfold Mirror.insertUser
          split_ifs <;> exact h
  | insertCredit row =>
      cases row with
      | none => exact h
      | some row =>
          rw [answer]
          split_ifs
          · exact h
          · exact hwrite _ _
  | insertOffer row =>
      cases row with
      | none => exact h
      | some row =>
          rw [answer]
          split_ifs <;> exact h
  | insertBridge row =>
      cases row with
      | none => exact h
      | some row =>
          rw [answer]
          split_ifs <;> exact h
  | insertApproval row => cases row <;> exact h
  | insertTrade row => cases row <;> exact h
  | insertRetirement row => cases row <;> exact h
  | insertCertificate row => exact h
  | updateRetirementHash place certificateHash => exact h
  | _ =>
      rw [answer_reads client rfl]
      exact h

/-- Every query leaves the credits that there are. -/
theorem ApiHost.handle_credit (q : ApiQuery) {s : BackendState σ} {k : ℤ}
    (h : (s.db.credits k).isSome = true) :
    ((host.handle q s).2.db.credits k).isSome = true := by
  cases q with
  | now => exact h
  | overtakes => exact h
  | db q => exact q.answer_credit host.client h
  | attempt q => exact q.answer_credit host.client h
  | stellar call => exact h

/-- A part of the database that does not depend on the credits, the offers and the users. -/
structure Apart (g : ApiDb → V) : Prop where
  writeCredit : ∀ db creditId row, g (db.writeCredit creditId row) = g db
  writeOffer : ∀ db offerId row, g (db.writeOffer offerId row) = g db
  insertUser : ∀ db stellarPub, g (db.insertUser stellarPub) = g db

variable {g : ApiDb → V}

/-- The program keeps this part of the database. -/
abbrev KeepsDb (host : ApiHost σ) (g : ApiDb → V) (p : ApiProgram α) : Prop :=
  Keeps host.handle (fun s => g s.db) p

/-- A query that keeps a view, and then a program that does. -/
theorem keeps_ask {q : ApiQuery} (hq : ∀ s : BackendState σ, g (host.handle q s).2.db = g s.db)
    {f : q.Reply → ApiProgram α} (hf : ∀ r, KeepsDb host g (f r)) :
    KeepsDb host g (.query q .ret >>= f) :=
  fun s => ⟨hq s, fun r _ => hf r⟩

theorem keeps_ret (a : α) : KeepsDb host g (.ret a) := trivial

/-- A query that only reads keeps the database. -/
theorem handle_reads_db {q : ApiQuery} (h : q.reads = true) (s : BackendState σ) :
    g (host.handle q s).2.db = g s.db := by
  rw [ApiHost.handle_reads h]
  rfl

/-- An update of a credit keeps a view that does not see the rows of credits. -/
theorem handle_updateCredit_db (h : ∀ db creditId row, g (db.writeCredit creditId row) = g db)
    (creditId : ℤ) (data : Option CreditData) (s : BackendState σ) :
    g (host.handle (.db (.updateCredit creditId data)) s).2.db = g s.db := by
  show g (DbQuery.answer host.client (.updateCredit creditId data) s.db).2 = g s.db
  rw [DbQuery.answer]
  cases data with
  | none => rfl
  | some data =>
      cases s.db.credits creditId with
      | none => rfl
      | some row => exact h _ _ _

/-- An update of an offer keeps a view that does not see the rows of offers. -/
theorem handle_updateOffer_db (h : ∀ db offerId row, g (db.writeOffer offerId row) = g db)
    (offerId : ℤ) (data : Option OfferData) (s : BackendState σ) :
    g (host.handle (.db (.updateOffer offerId data)) s).2.db = g s.db := by
  show g (DbQuery.answer host.client (.updateOffer offerId data) s.db).2 = g s.db
  rw [DbQuery.answer]
  cases data with
  | none => rfl
  | some data =>
      cases s.db.offers offerId with
      | none => rfl
      | some row => exact h _ _ _

/-- A new user keeps a view that does not see the users. -/
theorem handle_upsertUser_db (h : ∀ db stellarPub, g (db.insertUser stellarPub) = g db)
    (stellarPub : String) (s : BackendState σ) :
    g (host.handle (.db (.upsertUser stellarPub)) s).2.db = g s.db := by
  show g (DbQuery.answer host.client (.upsertUser stellarPub) s.db).2 = g s.db
  rw [DbQuery.answer]
  cases Mirror.textColumn host.client stellarPub with
  | none => rfl
  | some text => exact h _ _

end Queries

/-! ## Counting rows -/

section Rows

variable {σ α β : Type} {host : ApiHost σ} {g : ApiDb → ℕ} {k : ℤ}

/-- The program adds `m` rows, as long as the credit is stored. -/
abbrev AddsRows (host : ApiHost σ) (g : ApiDb → ℕ) (k : ℤ) (p : ApiProgram α) (m : ℕ) : Prop :=
  Adds host.handle (fun s => (s.db.credits k).isSome = true) (fun _ _ => True) (fun s => g s.db) p m

/-- A program that keeps the rows adds none. -/
theorem KeepsDb.adds {p : ApiProgram α} (hp : KeepsDb host g p) : AddsRows host g k p 0 :=
  adds_of_keeps hp fun q _ => ApiHost.handle_credit q

/-- A query that adds no row. -/
theorem adds_skip {q : ApiQuery} (hq : ∀ s : BackendState σ, g (host.handle q s).2.db = g s.db)
    {m : ℕ} {f : q.Reply → ApiProgram α}
    (hf : ∀ (s : BackendState σ) r, (s.db.credits k).isSome = true →
      (host.handle q s).1 = .ok r → AddsRows host g k (f r) m)
    (herror : ∀ (s : BackendState σ) e, (s.db.credits k).isSome = true →
      (host.handle q s).1 = .error e → m = 0) :
    AddsRows host g k (.query q .ret >>= f) m :=
  adds_keep (fun s hs _ => ⟨ApiHost.handle_credit q hs, hq s⟩) (fun s r hs _ hr => hf s r hs hr)
    fun s e hs _ he => herror s e hs he

/-- An insert of a row, if it fits its columns. -/
theorem adds_insert {q : ApiQuery} (row : Option β) {f : q.Reply → ApiProgram α}
    (hnone : row = none → ∀ s : BackendState σ, (∃ e, (host.handle q s).1 = .error e) ∧
      g (host.handle q s).2.db = g s.db)
    (hsome : row.isSome = true → ∀ s : BackendState σ, g (host.handle q s).2.db = g s.db + 1)
    (hf : ∀ r, KeepsDb host g (f r)) :
    AddsRows host g k (.query q .ret >>= f) (if row.isSome then 1 else 0) := by
  cases hrow : row with
  | none =>
      refine adds_skip (fun s => (hnone hrow s).2) (fun s r _ hr => ?_) fun _ _ _ _ => rfl
      obtain ⟨⟨e, he⟩, -⟩ := hnone hrow s
      rw [he] at hr
      cases hr
  | some new =>
      have hfits : row.isSome = true := by
        rw [hrow]
        rfl
      show AddsRows host g k _ (1 + 0)
      exact adds_query (fun s hs _ => ⟨ApiHost.handle_credit q hs, hsome hfits s⟩)
        (fun s r _ _ _ => (hf r).adds) fun _ _ _ _ _ => rfl

def approvalRows (db : ApiDb) : ℕ := db.approvals.length

def retirementRows (db : ApiDb) : ℕ := db.retirements.length

def tradeRows (db : ApiDb) : ℕ := db.trades.length

/-- The rows of approvals do not depend on credits, offers and users. -/
theorem apart_approvals : Apart approvalRows where
  writeCredit _ _ _ := rfl
  writeOffer _ _ _ := rfl
  insertUser db stellarPub := by
    show (db.toMirror.insertUser stellarPub).approvals.length = _
    unfold Mirror.insertUser
    split_ifs <;> rfl

/-- Neither do the rows of retirements. -/
theorem apart_retirements : Apart retirementRows where
  writeCredit _ _ _ := rfl
  writeOffer _ _ _ := rfl
  insertUser db stellarPub := by
    show (db.toMirror.insertUser stellarPub).retirements.length = _
    unfold Mirror.insertUser
    split_ifs <;> rfl

/-- Nor do the rows of trades. -/
theorem apart_trades : Apart tradeRows where
  writeCredit _ _ _ := rfl
  writeOffer _ _ _ := rfl
  insertUser db stellarPub := by
    show (db.toMirror.insertUser stellarPub).trades.length = _
    unfold Mirror.insertUser
    split_ifs <;> rfl

/-- An approval that is inserted. -/
theorem adds_approval (row : Option ApprovalRow) {f : Unit → ApiProgram α}
    (hf : ∀ r, KeepsDb host approvalRows (f r)) :
    AddsRows host approvalRows k (prisma.approval.create row >>= f)
      (if row.isSome then 1 else 0) := by
  refine adds_insert (q := .db (.insertApproval row)) row ?_ ?_ hf
  · rintro rfl s
    exact ⟨⟨_, rfl⟩, rfl⟩
  · intro hrow s
    obtain ⟨new, rfl⟩ := Option.isSome_iff_exists.mp hrow
    exact List.length_append

/-- Creating a retirement adds one row, unless a column does not fit. -/
theorem adds_retirement (row : Option RetirementRow) {f : Unit → ApiProgram α}
    (hf : ∀ r, KeepsDb host retirementRows (f r)) :
    AddsRows host retirementRows k (prisma.retirement.create row >>= f)
      (if row.isSome then 1 else 0) := by
  refine adds_insert (q := .db (.insertRetirement row)) row ?_ ?_ hf
  · rintro rfl s
    exact ⟨⟨_, rfl⟩, rfl⟩
  · intro hrow s
    obtain ⟨new, rfl⟩ := Option.isSome_iff_exists.mp hrow
    exact List.length_append

end Rows

/-! ## Submitted transactions -/

/-- A transaction of the API that the contracts have accepted: what its handler goes on with, and
the event of it.  The handler of a purchase has also had its second call answered, which leaves
the database. -/
inductive Submission where
  | approve (user : String) (creditId : ℤ) (comments minted : Option String)
      (event : CreditApprovedEvent)
  | reject (user : String) (creditId : ℤ) (reason : String) (event : CreditRejectedEvent)
  | retire (user : String) (creditId : ℤ) (credit : CreditRow)
      (dto : RetirementService.RetireCreditDto) (tonnes : JsNumber) (receipt : RetireReceipt)
      (event : CreditRetiredEvent)
  | buy (user : String) (offerId : ℤ) (offer : OfferRow) (amount : JsNumber)
      (transferred : Except ServiceError Bool) (event : OfferFilledEvent)

namespace Submission

/-- What is left of the handler. -/
def handler (config : ApiConfig) : Submission → ApiProgram Unit
  | approve user creditId comments minted _ => do
      CreditsService.recordApproval config user creditId comments minted
      let _ ← prisma.credit.findWithApprovals (.finite creditId)
      return ()
  | reject user creditId reason _ => do
      CreditsService.recordRejection config user creditId reason
      let _ ← prisma.credit.findWithApprovals (.finite creditId)
      return ()
  | retire user creditId credit dto tonnes receipt _ => do
      let _ ← RetirementService.recordRetirement config user creditId credit dto tonnes receipt
      return ()
  | buy user offerId offer amount transferred _ => do
      let _ ← settled transferred
      let _ ← MarketplaceService.recordTrade user offerId offer amount
      return ()

/-- The processor of the event. -/
def processor (client : DbClient) : Submission → ApiProgram Unit
  | approve _ _ _ _ event => Indexer.processCreditApproved client event
  | reject _ _ _ event => Indexer.processCreditRejected client event
  | retire _ _ _ _ _ _ event => Indexer.processCreditRetired client event
  | buy _ _ _ _ _ event => Indexer.processOfferFilled event

/-- The rows of the table in which the transaction is recorded. -/
def rows : Submission → ApiDb → ℕ
  | approve .. => approvalRows
  | reject .. => approvalRows
  | retire .. => retirementRows
  | buy .. => tradeRows

/-- The row that the handler has read is stored, and the event is that of the transaction: its
account is a stored wallet, and its numbers are those of the chain. -/
def Accepted (client : DbClient) (db : ApiDb) : Submission → Prop
  | approve _ creditId _ _ event =>
      (db.credits creditId).isSome = true ∧ Mirror.intColumn event.creditId = some creditId ∧
        client.storesText event.verifier = true
  | reject _ creditId _ event =>
      (db.credits creditId).isSome = true ∧ Mirror.intColumn event.creditId = some creditId ∧
        client.storesText event.verifier = true
  | retire _ creditId _ _ _ _ event =>
      (db.credits creditId).isSome = true ∧ Mirror.intColumn event.creditId = some creditId ∧
        client.storesText event.retiredBy = true
  | buy _ offerId offer amount _ event =>
      db.offers offerId = some offer ∧ (db.credits offer.creditId).isSome = true ∧
        JsNumber.roundDouble offer.amountFilled = .finite offer.amountFilled ∧
        Mirror.intColumn event.offerId = some offerId ∧ client.storesText event.buyer = true ∧
        event.amount = amount ∧ (Mirror.floatColumn event.amount).isSome = true ∧
        (Mirror.floatColumn event.totalPrice).isSome = true

/-- One row has been added, and the offer that is filled has grown by the amount. -/
def OneEffect (sub : Submission) (db db' : ApiDb) : Prop :=
  sub.rows db' = sub.rows db + 1 ∧
    match sub with
    | buy _ offerId offer amount _ _ => ∃ filled row, amount = .finite filled ∧
        db'.offers offerId = some row ∧ row.amountFilled = offer.amountFilled + filled
    | _ => True

/-- The database takes the row of the handler. -/
def HandlerFits (config : ApiConfig) : Submission → Prop
  | approve user creditId comments _ _ =>
      (CreditsService.approvalRow config user creditId comments).isSome = true
  | reject user creditId reason _ =>
      (CreditsService.rejectionRow config user creditId reason).isSome = true
  | retire user creditId _ dto tonnes receipt _ =>
      (RetirementService.retirementRow config user creditId dto tonnes receipt 0).isSome = true
  | buy user offerId offer amount transferred _ =>
      (∃ b, transferred = .ok b) ∧
        (MarketplaceService.tradeRow user offerId offer amount).isSome = true

/-- The database takes the row of the processor. -/
def ProcessorFits (client : DbClient) : Submission → Prop
  | approve _ creditId _ _ event =>
      (Indexer.approvedRow client event creditId event.verifier).isSome = true
  | reject _ creditId _ event =>
      (Indexer.rejectedRow client event creditId event.verifier).isSome = true
  | retire _ creditId _ _ _ _ event =>
      (Mirror.retiredRow client event creditId event.retiredBy).isSome = true
  | buy _ _ offer amount _ _ => ∃ filled, amount = .finite filled ∧
      JsNumber.roundDouble (offer.amountFilled + filled) = .finite (offer.amountFilled + filled)

/-- Just one of the two writers has a row that the database takes; of a purchase it is the
processor, which adds to an exact total. -/
def OneWriter (config : ApiConfig) (sub : Submission) : Prop :=
  match sub with
  | buy .. => ¬ sub.HandlerFits config ∧ sub.ProcessorFits config.client
  | _ => ¬ (sub.HandlerFits config ↔ sub.ProcessorFits config.client)

end Submission

/-! ## Two programs -/

/-- The parties that write. -/
inductive Writer where
  | api
  | indexer
  deriving DecidableEq

instance : Fintype Writer where
  elems := {.api, .indexer}
  complete w := by cases w <;> decide

namespace Submission

variable {σ : Type} {host : ApiHost σ} {sub : Submission} {s : BackendState σ}

/-- The handler and the processor, both before their first queries. -/
def writers (host : ApiHost σ) (sub : Submission) (s : BackendState σ) :
    Pool Writer (BackendState σ) ApiQuery.Reply ServiceError Unit where
  state := s
  programs
    | .api => sub.handler host.toApiConfig
    | .indexer => sub.processor host.client

/-- The database when both have ended, in every order of turns. -/
def InEveryOrder (host : ApiHost σ) (sub : Submission) (s : BackendState σ)
    (P : ApiDb → Prop) : Prop :=
  ∀ turns, (∀ w, ((run (Pool.next host.handle) (sub.writers host s) turns).programs w).Ended) →
    P (run (Pool.next host.handle) (sub.writers host s) turns).state.db

/-- What holds in every order may be said in other words. -/
theorem InEveryOrder.congr {P P' : ApiDb → Prop} (h : ∀ db, P db ↔ P' db) :
    sub.InEveryOrder host s P ↔ sub.InEveryOrder host s P' :=
  forall₂_congr fun _ _ => h _

/-! ### What each of them adds -/

section Adds

variable {g : ApiDb → ℕ} {k : ℤ}

/-- An update of a credit keeps a view that does not see the rows of credits. -/
theorem keeps_updateCredit {V : Type} {g : ApiDb → V}
    (hg : ∀ db creditId row, g (db.writeCredit creditId row) = g db) (creditId : ℤ)
    (data : Option CreditData) : KeepsDb host g (prisma.credit.update creditId data) :=
  fun s => ⟨handle_updateCredit_db hg creditId data s, fun _ _ => trivial⟩

/-- The handler of an approval. -/
theorem adds_approve (config : ApiConfig) (user : String) (creditId : ℤ)
    (comments minted : Option String) (event : CreditApprovedEvent) :
    AddsRows host approvalRows k
      ((approve user creditId comments minted event).handler config)
      (if (CreditsService.approvalRow config user creditId comments).isSome then 1 else 0) := by
  unfold handler CreditsService.recordApproval
  simp only [Program.bind_assoc]
  refine adds_approval _ fun _ => keeps_ask (handle_reads_db rfl) fun total => ?_
  refine Keeps.bind ?_ fun _ => keeps_ask (handle_reads_db rfl) fun _ => keeps_ret ()
  cases minted.filter fun hash => hash ≠ "" with
  | none => trivial
  | some hash =>
      dsimp only
      split_ifs
      · exact keeps_updateCredit apart_approvals.writeCredit _ _
      · trivial

/-- The handler of a rejection. -/
theorem adds_reject (config : ApiConfig) (user : String) (creditId : ℤ) (reason : String)
    (event : CreditRejectedEvent) :
    AddsRows host approvalRows k
      ((reject user creditId reason event).handler config)
      (if (CreditsService.rejectionRow config user creditId reason).isSome then 1 else 0) := by
  unfold handler CreditsService.recordRejection
  simp only [Program.bind_assoc]
  refine adds_approval _ fun _ => keeps_ask (handle_reads_db rfl) fun total => ?_
  refine Keeps.bind ?_ fun _ => keeps_ask (handle_reads_db rfl) fun _ => keeps_ret ()
  split_ifs
  · exact keeps_updateCredit apart_approvals.writeCredit _ _
  · trivial

/-- Whether the row of a retirement fits does not depend on the time. -/
theorem retirementRow_isSome (config : ApiConfig) (user : String) (creditId : ℤ)
    (dto : RetirementService.RetireCreditDto) (tonnes : JsNumber) (receipt : RetireReceipt)
    (now : ℕ) :
    (RetirementService.retirementRow config user creditId dto tonnes receipt now).isSome =
      (RetirementService.retirementRow config user creditId dto tonnes receipt 0).isSome := by
  simp only [RetirementService.retirementRow, Option.bind_eq_bind, Option.isSome_bind,
    Option.pure_def]
  rfl

/-- The handler of a retirement. -/
theorem adds_retire (config : ApiConfig) (user : String) (creditId : ℤ) (credit : CreditRow)
    (dto : RetirementService.RetireCreditDto) (tonnes : JsNumber) (receipt : RetireReceipt)
    (event : CreditRetiredEvent) :
    AddsRows host retirementRows k
      ((retire user creditId credit dto tonnes receipt event).handler config)
      (if (RetirementService.retirementRow config user creditId dto tonnes receipt 0).isSome
        then 1 else 0) := by
  unfold handler RetirementService.recordRetirement
  simp only [Program.bind_assoc]
  refine adds_skip (q := .now) (fun _ => rfl) (fun s now _ _ => ?_) fun _ _ _ he => by cases he
  rw [← retirementRow_isSome config user creditId dto tonnes receipt now]
  refine adds_retirement _ fun _ => ?_
  split_ifs
  · exact Keeps.bind (keeps_updateCredit apart_retirements.writeCredit _ _) fun _ => keeps_ret ()
  · trivial

/-- A processor that finds the credit of its event. -/
theorem adds_found {x : JsNumber} (hk : Mirror.intColumn x = some k)
    {process : ℤ → CreditRow → ApiProgram Unit} {m : ℕ}
    (hf : ∀ row, AddsRows host g k (process k row) m) :
    AddsRows host g k
      (prisma.credit.findUnique x >>= fun found => Indexer.whenFound found process) m := by
  have hanswer : ∀ s : BackendState σ, (s.db.credits k).isSome = true →
      ∃ row, (host.handle (.db (.findCredit x)) s).1 = .ok (some (k, row)) := by
    intro s hs
    obtain ⟨row, hrow⟩ := Option.isSome_iff_exists.mp hs
    exact ⟨row, lookup_eq_ok_some.mpr ⟨hk, hrow⟩⟩
  refine adds_skip (q := .db (.findCredit x)) (handle_reads_db rfl) (fun s r hs hr => ?_)
    fun s e hs he => ?_
  · obtain ⟨row, hrow⟩ := hanswer s hs
    rw [hrow] at hr
    obtain rfl := Except.ok.inj hr
    exact hf row
  · obtain ⟨row, hrow⟩ := hanswer s hs
    rw [hrow] at he
    cases he

/-- The user of an event. -/
theorem adds_upsert (hg : ∀ db stellarPub, g (db.insertUser stellarPub) = g db)
    {stellarPub : String} (hfits : host.client.storesText stellarPub = true) {m : ℕ}
    {f : String → ApiProgram α} (hf : AddsRows host g k (f stellarPub) m) :
    AddsRows host g k (prisma.user.upsert stellarPub >>= f) m := by
  have hanswer : ∀ s : BackendState σ,
      (host.handle (.db (.upsertUser stellarPub)) s).1 = .ok stellarPub := by
    intro s
    show (DbQuery.answer host.client (.upsertUser stellarPub) s.db).1 = _
    rw [DbQuery.answer, Mirror.textColumn, if_pos hfits]
    rfl
  refine adds_skip (q := .db (.upsertUser stellarPub)) (handle_upsertUser_db hg stellarPub)
    (fun s r _ hr => ?_) fun s e _ he => ?_
  · rw [hanswer s] at hr
    obtain rfl := Except.ok.inj hr
    exact hf
  · rw [hanswer s] at he
    cases he

/-- The processor of an approval adds one row, unless a column does not fit. -/
theorem adds_processCreditApproved {event : CreditApprovedEvent}
    (hk : Mirror.intColumn event.creditId = some k)
    (huser : host.client.storesText event.verifier = true) :
    AddsRows host approvalRows k
      (Indexer.processCreditApproved host.client event)
      (if (Indexer.approvedRow host.client event k event.verifier).isSome then 1 else 0) :=
  adds_found hk fun _ => adds_upsert apart_approvals.insertUser huser
    (adds_approval _ fun _ => keeps_ret ())

/-- The processor of a rejection adds one row, unless a column does not fit. -/
theorem adds_processCreditRejected {event : CreditRejectedEvent}
    (hk : Mirror.intColumn event.creditId = some k)
    (huser : host.client.storesText event.verifier = true) :
    AddsRows host approvalRows k
      (Indexer.processCreditRejected host.client event)
      (if (Indexer.rejectedRow host.client event k event.verifier).isSome then 1 else 0) :=
  adds_found hk fun _ => adds_upsert apart_approvals.insertUser huser
    (adds_approval _ fun _ => keeps_updateCredit apart_approvals.writeCredit _ _)

/-- The processor of a retirement adds one row, unless a column does not fit. -/
theorem adds_processCreditRetired {event : CreditRetiredEvent}
    (hk : Mirror.intColumn event.creditId = some k)
    (huser : host.client.storesText event.retiredBy = true) :
    AddsRows host retirementRows k
      (Indexer.processCreditRetired host.client event)
      (if (Mirror.retiredRow host.client event k event.retiredBy).isSome then 1 else 0) :=
  adds_found hk fun _ => adds_upsert apart_retirements.insertUser huser
    (adds_retirement _ fun _ => keeps_updateCredit apart_retirements.writeCredit _ _)

end Adds

/-! ### Both of them -/

section Both

variable {k : ℤ}

/-- The rows when both have ended. -/
theorem rows_run (sub : Submission) {m n : ℕ} (hs : (s.db.credits k).isSome = true)
    (hhandler : AddsRows host sub.rows k (sub.handler host.toApiConfig) m)
    (hprocessor : AddsRows host sub.rows k (sub.processor host.client) n) :
    sub.InEveryOrder host s fun db => sub.rows db = sub.rows s.db + (m + n) := by
  intro turns hended
  let amounts : Writer → ℕ := fun w => match w with
    | .api => m
    | .indexer => n
  have hadds : ∀ w, AddsRows host sub.rows k ((sub.writers host s).programs w) (amounts w) := by
    intro w
    cases w with
    | api => exact hhandler
    | indexer => exact hprocessor
  have hmeets : Always (Pool.next host.handle) (Pool.NextMeets fun _ _ _ => True)
      (sub.writers host s) turns := by
    refine always_of_forall_mem (fun w _ pool => ?_) _
    unfold Pool.NextMeets
    split <;> trivial
  have hsum := (run_adds hs hadds hmeets hended).2
  rw [show ∑ w, amounts w = m + n from Finset.sum_pair (by decide)] at hsum
  exact hsum

/-- The order in which the processor goes first. -/
theorem exists_indexer_first (host : ApiHost σ) (sub : Submission) (s : BackendState σ) :
    ∃ turns, (∀ w, ((run (Pool.next host.handle) (sub.writers host s) turns).programs w).Ended) ∧
      (run (Pool.next host.handle) (sub.writers host s) turns).state =
        (exec host.handle (sub.handler host.toApiConfig)
          (exec host.handle (sub.processor host.client) s).2).2 := by
  obtain ⟨i, hstate, hended, hwaits⟩ :=
    Pool.exists_run_alone host.handle (sub.writers host s) .indexer
  obtain ⟨j, hstate', hended', hwaits'⟩ := Pool.exists_run_alone host.handle
    (run (Pool.next host.handle) (sub.writers host s) (List.replicate i .indexer)) .api
  rw [← run_append] at hstate' hended' hwaits'
  refine ⟨List.replicate i .indexer ++ List.replicate j .api, fun w => ?_, ?_⟩
  · cases w with
    | api => exact hended'
    | indexer =>
        rw [hwaits' .indexer (by decide)]
        exact hended
  · rw [hstate', hwaits .api (by decide), hstate]
    rfl

/-- One of two rows is added exactly when just one fits. -/
theorem oneRow_iff (sub : Submission) {a b : Bool} (hs : (s.db.credits k).isSome = true)
    (hhandler : AddsRows host sub.rows k (sub.handler host.toApiConfig) (if a then 1 else 0))
    (hprocessor : AddsRows host sub.rows k (sub.processor host.client) (if b then 1 else 0)) :
    sub.InEveryOrder host s (fun db => sub.rows db = sub.rows s.db + 1) ↔
      ¬ (a = true ↔ b = true) := by
  have hrows := rows_run sub hs hhandler hprocessor
  have hcount : (if a then 1 else 0) + (if b then 1 else 0) = 1 ↔ ¬ (a = true ↔ b = true) := by
    cases a <;> cases b <;> decide
  constructor
  · intro hone
    obtain ⟨turns, hended, -⟩ := exists_indexer_first host sub s
    have hsame := (hrows turns hended).symm.trans (hone turns hended)
    exact hcount.mp (Nat.add_left_cancel hsame)
  · intro hjust turns hended
    have hsum := hrows turns hended
    rw [hcount.mpr hjust] at hsum
    exact hsum

end Both

/-! ### Fills -/

section Fills

variable {user : String} {offerId : ℤ} {offer : OfferRow} {amount : JsNumber}
  {transferred : Except ServiceError Bool} {event : OfferFilledEvent}

/-- What the processor of a fill reads, apart from the users. -/
def fillView (db : ApiDb) : (ℤ → Option OfferRow) × List TradeRow × (ℤ → Bool) :=
  (db.offers, db.trades, fun k => (db.credits k).isSome)

/-- A row that replaces another keeps the credits that are known. -/
theorem fillView_writeCredit {db : ApiDb} {creditId : ℤ} {old : CreditRow}
    (hold : db.credits creditId = some old) (row : CreditRow) :
    fillView (db.writeCredit creditId row) = fillView db := by
  refine congrArg (fun f => (db.offers, db.trades, f)) (funext fun k => ?_)
  show (Function.update db.credits creditId (some row) k).isSome = _
  by_cases hk : k = creditId
  · rw [hk, Function.update_self, hold]
    rfl
  · rw [Function.update_of_ne hk]

/-- Whether its columns fit or not, an update of a credit keeps the view of the fills. -/
theorem fillView_updateCredit (client : DbClient) (creditId : ℤ) (data : Option CreditData)
    (db : ApiDb) :
    fillView (DbQuery.answer client (.updateCredit creditId data) db).2 = fillView db := by
  rw [DbQuery.answer]
  cases data with
  | none => rfl
  | some data =>
      cases hrow : db.credits creditId with
      | none => rfl
      | some row => exact fillView_writeCredit hrow _

/-- The view of the fills does not see the users. -/
theorem fillView_insertUser (db : ApiDb) (stellarPub : String) :
    fillView (db.insertUser stellarPub) = fillView db := by
  have hsame : (db.toMirror.insertUser stellarPub).offers = db.offers ∧
      (db.toMirror.insertUser stellarPub).trades = db.trades ∧
      (db.toMirror.insertUser stellarPub).credits = db.credits := by
    unfold Mirror.insertUser
    split_ifs <;> exact ⟨rfl, rfl, rfl⟩
  unfold fillView
  show ((db.toMirror.insertUser stellarPub).offers, (db.toMirror.insertUser stellarPub).trades,
    fun k => ((db.toMirror.insertUser stellarPub).credits k).isSome) = _
  rw [hsame.1, hsame.2.1, hsame.2.2]

/-- The view shows the offers, the trades and which credits are known. -/
theorem fillView_eq_iff {db db' : ApiDb} : fillView db = fillView db' ↔ db.offers = db'.offers ∧
    db.trades = db'.trades ∧ ∀ k, (db.credits k).isSome = (db'.credits k).isSome := by
  simp only [fillView, Prod.mk.injEq, funext_iff]

/-- A query of which the answer depends on this view alone. -/
theorem reads_db {q : DbQuery} (h : ∀ db db', fillView db = fillView db' →
    (q.answer host.client db).1 = (q.answer host.client db').1 ∧
      fillView (q.answer host.client db).2 = fillView (q.answer host.client db').2) :
    Reads host.handle (fun s : BackendState σ => fillView s.db) (.db q) :=
  fun s s' hview => h s.db s'.db hview

/-- The search for an offer depends on the view alone. -/
theorem reads_findOffer (x : JsNumber) :
    Reads host.handle (fun s : BackendState σ => fillView s.db) (.db (.findOffer x)) := by
  refine reads_db fun db db' h => ⟨?_, h⟩
  rw [DbQuery.answer, DbQuery.answer, (fillView_eq_iff.mp h).1]

/-- So does the insertion of a user. -/
theorem reads_upsertUser (stellarPub : String) :
    Reads host.handle (fun s : BackendState σ => fillView s.db) (.db (.upsertUser stellarPub)) := by
  refine reads_db fun db db' h => ?_
  rw [DbQuery.answer, DbQuery.answer]
  cases Mirror.textColumn host.client stellarPub with
  | none => exact ⟨rfl, h⟩
  | some text =>
      refine ⟨rfl, ?_⟩
      rw [fillView_insertUser, fillView_insertUser, h]

/-- So does the update of an offer. -/
theorem reads_updateOffer (offerId : ℤ) (data : Option OfferData) :
    Reads host.handle (fun s : BackendState σ => fillView s.db)
      (.db (.updateOffer offerId data)) := by
  refine reads_db fun db db' h => ?_
  obtain ⟨hoffers, htrades, hcredits⟩ := fillView_eq_iff.mp h
  rw [DbQuery.answer, DbQuery.answer, hoffers]
  cases data with
  | none => exact ⟨rfl, h⟩
  | some data =>
      cases db'.offers offerId with
      | none => exact ⟨rfl, h⟩
      | some row =>
          refine ⟨rfl, fillView_eq_iff.mpr ⟨?_, htrades, hcredits⟩⟩
          show Function.update db.offers _ _ = Function.update db'.offers _ _
          rw [hoffers]

/-- So does the insertion of a trade. -/
theorem reads_insertTrade (row : Option TradeRow) :
    Reads host.handle (fun s : BackendState σ => fillView s.db) (.db (.insertTrade row)) := by
  refine reads_db fun db db' h => ?_
  obtain ⟨hoffers, htrades, hcredits⟩ := fillView_eq_iff.mp h
  cases row with
  | none => exact ⟨rfl, h⟩
  | some row =>
      exact ⟨rfl, fillView_eq_iff.mpr ⟨hoffers, congrArg (· ++ [row]) htrades, hcredits⟩⟩

/-- So does the update of a credit. -/
theorem reads_updateCredit (creditId : ℤ) (data : Option CreditData) :
    Reads host.handle (fun s : BackendState σ => fillView s.db)
      (.db (.updateCredit creditId data)) := by
  refine reads_db fun db db' h => ⟨?_, ?_⟩
  · have hcredit := (fillView_eq_iff.mp h).2.2 creditId
    rw [DbQuery.answer, DbQuery.answer]
    cases data with
    | none => rfl
    | some data =>
        cases hrow : db.credits creditId with
        | none =>
            rw [hrow, eq_comm, Option.isSome_none, Option.isSome_eq_false_iff,
              Option.isNone_iff_eq_none] at hcredit
            rw [hcredit]
            rfl
        | some row =>
            rw [hrow, eq_comm, Option.isSome_some, Option.isSome_iff_exists] at hcredit
            obtain ⟨row', hrow'⟩ := hcredit
            rw [hrow']
            rfl
  · rw [fillView_updateCredit, fillView_updateCredit, h]

/-- The processor of a fill reads nothing else. -/
theorem reads_processOfferFilled (host : ApiHost σ) (event : OfferFilledEvent) :
    (Indexer.processOfferFilled event).Uses
      (Reads host.handle fun s : BackendState σ => fillView s.db) := by
  refine ⟨reads_findOffer event.offerId, fun found => ?_⟩
  cases found with
  | none => trivial
  | some found =>
      refine ⟨reads_upsertUser event.buyer, fun buyer => ?_⟩
      refine ⟨reads_updateOffer _ _, fun _ => ?_⟩
      refine ⟨reads_insertTrade _, fun _ => ?_⟩
      exact ⟨reads_updateCredit _ _, fun _ => trivial⟩

/-- A handler whose trade is refused leaves the offers and the trades. -/
theorem keeps_buy (h : ¬ (buy user offerId offer amount transferred event).HandlerFits
    host.toApiConfig) :
    KeepsDb host fillView
      ((buy user offerId offer amount transferred event).handler host.toApiConfig) := by
  unfold handler
  cases transferred with
  | error e => trivial
  | ok b =>
      have hrefused : MarketplaceService.tradeRow user offerId offer amount = none := by
        rw [← Option.not_isSome_iff_eq_none]
        exact fun hfits => h ⟨⟨b, rfl⟩, hfits⟩
      unfold MarketplaceService.recordTrade promiseAll
      simp only [Program.bind_assoc, hrefused]
      have hcredit : ∀ {γ : Type} (f : Except ServiceError Unit → ApiProgram γ),
          (∀ r, KeepsDb host fillView (f r)) → KeepsDb host fillView
            (attempt.creditUpdate offer.creditId (some { owner := some user }) >>= f) :=
        fun f hf => keeps_ask (fun s => fillView_updateCredit host.client _ _ s.db) hf
      refine keeps_ask (q := .overtakes) (fun _ => rfl) fun overtaken => ?_
      cases overtaken with
      | false =>
          intro s
          refine ⟨rfl, fun r hr => ?_⟩
          obtain rfl := Except.ok.inj hr
          exact hcredit _ fun _ => trivial
      | true =>
          refine hcredit _ fun r s => ⟨rfl, fun r' hr => ?_⟩
          obtain rfl := Except.ok.inj hr
          trivial

/-- The total that a fill leads to. -/
def newFilled (offer : OfferRow) (event : OfferFilledEvent) : Option ℚ :=
  Mirror.floatColumn ((JsNumber.finite offer.amountFilled).add event.amount)

/-- A user whose wallet the client stores is inserted. -/
theorem exec_upsert (host : ApiHost σ) (s : BackendState σ) {stellarPub : String}
    (hfits : host.client.storesText stellarPub = true) :
    exec host.handle (prisma.user.upsert stellarPub) s =
      (.ok stellarPub, s.store (s.db.insertUser stellarPub)) := by
  have hanswer : DbQuery.answer host.client (.upsertUser stellarPub) s.db =
      (.ok stellarPub, s.db.insertUser stellarPub) := by
    rw [DbQuery.answer, Mirror.textColumn, if_pos hfits]
  refine (exec_ask (ApiQuery.db (.upsertUser stellarPub)) s).trans ?_
  show ((DbQuery.answer host.client (.upsertUser stellarPub) s.db).1,
    s.store (DbQuery.answer host.client (.upsertUser stellarPub) s.db).2) = _
  rw [hanswer]
  rfl

/-- The processor of a fill alone, after its lookups. -/
theorem exec_processOfferFilled (hid : Mirror.intColumn event.offerId = some offerId)
    (hoffer : s.db.offers offerId = some offer)
    (hbuyer : host.client.storesText event.buyer = true) :
    ∃ u, fillView u.db = fillView s.db ∧
      exec host.handle (Indexer.processOfferFilled event) s = exec host.handle (do
        prisma.offer.update offerId (Indexer.filledData event offer)
        prisma.trade.create (Mirror.tradeRow event offerId offer.creditId event.buyer)
        prisma.credit.update offer.creditId (some { owner := some event.buyer })) u := by
  refine ⟨s.tick.store (s.db.insertUser event.buyer), fillView_insertUser _ _, ?_⟩
  have hfound : exec host.handle (prisma.offer.findUnique event.offerId) s =
      (.ok (some (offerId, offer)), s.tick) := by
    rw [exec_offer_findUnique, lookup_eq_ok_some.mpr ⟨hid, hoffer⟩]
  refine (exec_bind_of_ok hfound).trans ?_
  exact exec_bind_of_ok (exec_upsert host s.tick hbuyer)

/-- A total that fits is written, and the trade is inserted. -/
theorem exec_fill {x : ℚ} (hid : Mirror.intColumn event.offerId = some offerId)
    (hoffer : s.db.offers offerId = some offer) (hbuyer : host.client.storesText event.buyer = true)
    (htrade : (Mirror.tradeRow event offerId offer.creditId event.buyer).isSome = true)
    (hx : newFilled offer event = some x) :
    tradeRows (exec host.handle (Indexer.processOfferFilled event) s).2.db = tradeRows s.db + 1 ∧
      ∃ row, (exec host.handle (Indexer.processOfferFilled event) s).2.db.offers offerId =
          some row ∧ row.amountFilled = x := by
  obtain ⟨u, hu, hexec⟩ := exec_processOfferFilled hid hoffer hbuyer
  obtain ⟨hoffers, htrades, -⟩ := fillView_eq_iff.mp hu
  obtain ⟨trade, htrade⟩ := Option.isSome_iff_exists.mp htrade
  rw [hexec, htrade]
  obtain ⟨data, hdata, hfilled⟩ : ∃ data, Indexer.filledData event offer = some data ∧
      data.amountFilled = some x := by
    have hmap : Indexer.filledData event offer = (newFilled offer event).map _ := rfl
    rw [hx] at hmap
    exact ⟨_, hmap, rfl⟩
  rw [hdata]
  have hrow : u.db.offers offerId = some offer := by rw [hoffers, hoffer]
  have hwrite : exec host.handle (prisma.offer.update offerId (some data)) u =
      (.ok (), u.store (u.db.writeOffer offerId (data.apply offer))) :=
    (exec_ask (ApiQuery.db (.updateOffer offerId (some data))) u).trans
      (MarketplaceService.handle_updateOffer data hrow)
  rw [exec_bind_of_ok hwrite]
  have hinsert : ∀ w : BackendState σ, exec host.handle (prisma.trade.create (some trade)) w =
      (.ok (), w.store (w.db.insertTrade trade)) :=
    fun w => exec_ask (ApiQuery.db (.insertTrade (some trade))) w
  rw [exec_bind_of_ok (hinsert _)]
  set w := (u.store (u.db.writeOffer offerId (data.apply offer))).store
    ((u.store (u.db.writeOffer offerId (data.apply offer))).db.insertTrade trade)
  -- the last query changes the owner of the credit
  have hlast : KeepsDb host fillView (prisma.credit.update offer.creditId
      (some { owner := some event.buyer })) :=
    fun s => ⟨fillView_updateCredit host.client _ _ s.db, fun _ _ => trivial⟩
  obtain ⟨hoffers', htrades', -⟩ := fillView_eq_iff.mp (hlast.exec w)
  constructor
  · unfold tradeRows
    rw [htrades', ← htrades]
    exact List.length_append
  · refine ⟨data.apply offer, ?_, ?_⟩
    · rw [hoffers']
      exact Function.update_self _ _ _
    · show data.amountFilled.getD _ = x
      rw [hfilled]
      rfl

/-- A total that does not fit ends the processor. -/
theorem exec_fill_refused (hid : Mirror.intColumn event.offerId = some offerId)
    (hoffer : s.db.offers offerId = some offer) (hbuyer : host.client.storesText event.buyer = true)
    (hx : newFilled offer event = none) :
    fillView (exec host.handle (Indexer.processOfferFilled event) s).2.db = fillView s.db := by
  obtain ⟨u, hu, hexec⟩ := exec_processOfferFilled hid hoffer hbuyer
  have hdata : Indexer.filledData event offer = none := by
    have hmap : Indexer.filledData event offer = (newFilled offer event).map _ := rfl
    rw [hx] at hmap
    exact hmap
  have hfail : exec host.handle (prisma.offer.update offerId none) u =
      (.error (.database .invalidValue), u.store u.db) :=
    exec_ask (ApiQuery.db (.updateOffer offerId none)) u
  rw [hexec, hdata, exec_bind_of_error hfail, ← hu]
  rfl

def offersOf (db : ApiDb) : ℤ → Option OfferRow := db.offers

/-- An update that may fail keeps a view that does not see the rows of credits. -/
theorem keeps_creditUpdate {V : Type} {g : ApiDb → V}
    (hg : ∀ db creditId row, g (db.writeCredit creditId row) = g db) {creditId : ℤ}
    {data : Option CreditData} {f : Except ServiceError Unit → ApiProgram α}
    (hf : ∀ r, KeepsDb host g (f r)) :
    KeepsDb host g (attempt.creditUpdate creditId data >>= f) := by
  have hquery : ∀ s : BackendState σ,
      g (host.handle (.db (.updateCredit creditId data)) s).2.db = g s.db :=
    handle_updateCredit_db hg creditId data
  exact keeps_ask (q := .attempt (.updateCredit creditId data)) hquery hf

/-- A handler whose total is refused leaves the offers. -/
theorem keeps_offers (hrefused : MarketplaceService.fillData offer amount = none) :
    KeepsDb host offersOf
      ((buy user offerId offer amount transferred event).handler host.toApiConfig) := by
  unfold handler
  cases transferred with
  | error e => trivial
  | ok b =>
      unfold MarketplaceService.recordTrade promiseAll
      simp only [Program.bind_assoc, hrefused]
      have hinsert : ∀ (row : Option TradeRow) (s : BackendState σ),
          offersOf (host.handle (.attempt (.insertTrade row)) s).2.db = offersOf s.db := by
        intro row s
        cases row with
        | none => rfl
        | some row => rfl
      refine keeps_ask (q := .overtakes) (fun _ => rfl) fun overtaken => ?_
      cases overtaken with
      | false =>
          refine keeps_ask (hinsert _) fun a => keeps_creditUpdate (fun _ _ _ => rfl) fun c => ?_
          cases a with
          | error e => trivial
          | ok a =>
              cases c with
              | error e => trivial
              | ok c => exact fun s => ⟨rfl, fun _ _ => trivial⟩
      | true =>
          refine keeps_creditUpdate (fun _ _ _ => rfl) fun c => keeps_ask (hinsert _) fun a => ?_
          cases a with
          | error e => trivial
          | ok a =>
              cases c with
              | error e => trivial
              | ok c => exact fun s => ⟨rfl, fun _ _ => trivial⟩

/-- A handler whose trade fits inserts it. -/
theorem adds_buy {k : ℤ}
    (h : (buy user offerId offer amount transferred event).HandlerFits host.toApiConfig) :
    AddsRows host tradeRows k
      ((buy user offerId offer amount transferred event).handler host.toApiConfig) 1 := by
  obtain ⟨⟨b, rfl⟩, hfits⟩ := h
  obtain ⟨trade, htrade⟩ := Option.isSome_iff_exists.mp hfits
  have hinsert : ∀ {f : Except ServiceError Unit → ApiProgram Unit},
      (∀ r, KeepsDb host tradeRows (f r)) → AddsRows host tradeRows k
        (attempt.tradeCreate (some trade) >>= f) 1 :=
    fun hf => adds_insert (q := .attempt (.insertTrade (some trade))) (some trade) nofun
      (fun _ s => List.length_append) hf
  unfold handler MarketplaceService.recordTrade promiseAll
  simp only [Program.bind_assoc, htrade]
  have hupdate : KeepsDb host tradeRows (prisma.offer.update offerId
      (MarketplaceService.fillData offer amount) >>= fun _ => .ret ()) :=
    keeps_ask (handle_updateOffer_db apart_trades.writeOffer _ _) fun _ => keeps_ret ()
  refine adds_skip (q := .overtakes) (fun _ => rfl) (fun s overtaken _ _ => ?_) fun _ _ _ he => by
    cases he
  -- the update of the owner ends before the insertion, or after it
  cases overtaken with
  | false =>
      refine hinsert fun a => keeps_creditUpdate apart_trades.writeCredit fun c => ?_
      cases a with
      | error e => trivial
      | ok a =>
          cases c with
          | error e => trivial
          | ok c => exact hupdate
  | true =>
      refine adds_skip (q := .attempt (.updateCredit offer.creditId (some { owner := some user })))
        (handle_updateCredit_db apart_trades.writeCredit _ _) (fun s c _ _ => ?_) fun _ _ _ he => by
          cases he
      refine hinsert fun a => ?_
      cases a with
      | error e => trivial
      | ok a =>
          cases c with
          | error e => trivial
          | ok c => exact hupdate

/-- The fill of an accepted transaction. -/
structure Fill (client : DbClient) (db : ApiDb) (offerId : ℤ) (offer : OfferRow) (filled : ℚ)
    (event : OfferFilledEvent) : Prop where
  stored : db.offers offerId = some offer
  credit : (db.credits offer.creditId).isSome = true
  double : JsNumber.roundDouble offer.amountFilled = .finite offer.amountFilled
  id : Mirror.intColumn event.offerId = some offerId
  buyer : client.storesText event.buyer = true
  trade : (Mirror.tradeRow event offerId offer.creditId event.buyer).isSome = true
  total : newFilled offer event =
    Mirror.floatColumn (JsNumber.roundDouble (offer.amountFilled + filled))

/-- A purchase that the database accepts is a fill by a finite amount. -/
theorem fill_of_accepted {client : DbClient} {db : ApiDb}
    (h : (buy user offerId offer amount transferred event).Accepted client db) :
    ∃ filled, amount = .finite filled ∧ Fill client db offerId offer filled event := by
  obtain ⟨hoffer, hcredit, hdouble, hid, hbuyer, rfl, hamount, hprice⟩ := h
  obtain ⟨filled, hfilled⟩ := Option.isSome_iff_exists.mp hamount
  obtain ⟨price, hprice⟩ := Option.isSome_iff_exists.mp hprice
  have hfinite := MarketplaceService.floatColumn_eq_some.mp hfilled
  refine ⟨filled, hfinite, hoffer, hcredit, hdouble, hid, hbuyer, ?_, ?_⟩
  · unfold Mirror.tradeRow
    rw [hfilled, hprice]
    rfl
  · unfold newFilled
    rw [hfinite]
    rfl

/-- Without a trade of the handler, an exact fill has one effect. -/
theorem oneEffect_of_refused {filled : ℚ} (hfill : Fill host.client s.db offerId offer filled event)
    (hrefused : ¬ (buy user offerId offer (.finite filled) transferred event).HandlerFits
      host.toApiConfig)
    (hexact : JsNumber.roundDouble (offer.amountFilled + filled) =
      .finite (offer.amountFilled + filled)) :
    (buy user offerId offer (.finite filled) transferred event).InEveryOrder host s
      ((buy user offerId offer (.finite filled) transferred event).OneEffect s.db) := by
  intro turns hended
  have hx : newFilled offer event = some (offer.amountFilled + filled) := by
    rw [hfill.total, hexact]
    rfl
  -- the processor does what it does alone
  have hview := run_frame (v := fun s : BackendState σ => fillView s.db)
    ((buy user offerId offer (.finite filled) transferred event).writers host s) .indexer
    (reads_processOfferFilled host event) (fun w hw => by
      cases w with
      | api => exact keeps_buy hrefused
      | indexer => exact absurd rfl hw) (hended .indexer)
  obtain ⟨hoffers, htrades, -⟩ := fillView_eq_iff.mp hview
  obtain ⟨hrows, row, hrow, hamount⟩ := exec_fill hfill.id hfill.stored hfill.buyer hfill.trade hx
  refine ⟨?_, filled, row, rfl, ?_, hamount⟩
  · exact (congrArg List.length htrades).trans hrows
  · rw [hoffers]
    exact hrow

/-- A fill that has one effect when the processor goes first is exact, and is not recorded by the
handler. -/
theorem refused_of_oneEffect {filled : ℚ} (hfill : Fill host.client s.db offerId offer filled event)
    (hone : (buy user offerId offer (.finite filled) transferred event).InEveryOrder host s
      ((buy user offerId offer (.finite filled) transferred event).OneEffect s.db)) :
    ¬ (buy user offerId offer (.finite filled) transferred event).HandlerFits host.toApiConfig ∧
      JsNumber.roundDouble (offer.amountFilled + filled) =
        .finite (offer.amountFilled + filled) := by
  obtain ⟨turns, hended, hstate⟩ := exists_indexer_first host
    (buy user offerId offer (.finite filled) transferred event) s
  obtain ⟨hrows, filled', row, hfilled, hrow, hamount⟩ := hone turns hended
  obtain rfl : filled = filled' := JsNumber.finite.inj hfilled
  rw [hstate] at hrows hrow
  set u := (exec host.handle (Indexer.processOfferFilled event) s).2 with hu
  have hcredit : (u.db.credits offer.creditId).isSome = true :=
    exec_invariant (I := fun s : BackendState σ => (s.db.credits offer.creditId).isSome = true)
      (fun q _ _ hs => ApiHost.handle_credit q hs) (uses_true _) hfill.credit
  cases hx : newFilled offer event with
  | none =>
      -- neither of the two writes the total
      obtain ⟨hoffers, htrades, -⟩ :=
        fillView_eq_iff.mp (exec_fill_refused hfill.id hfill.stored hfill.buyer hx)
      by_cases hfits : (buy user offerId offer (.finite filled) transferred event).HandlerFits
          host.toApiConfig
      · have hrefused : MarketplaceService.fillData offer (.finite filled) = none := by
          show (Mirror.floatColumn (JsNumber.roundDouble _)).map _ = none
          rw [← hfill.total, hx]
          rfl
        have hkeep : KeepsDb host offersOf
            ((buy user offerId offer (.finite filled) transferred event).handler
              host.toApiConfig) := keeps_offers hrefused
        have hsame : row = offer := by
          have hstored := (congrFun ((hkeep.exec u).trans hoffers) offerId).trans hfill.stored
          exact Option.some.inj (hrow.symm.trans hstored)
        rw [hsame] at hamount
        have hzero : filled = 0 := left_eq_add.mp hamount
        have htotal := hfill.total
        rw [hzero, add_zero, hfill.double, hx] at htotal
        cases htotal
      · have hkeep := (keeps_buy hfits).exec u
        have hsame : tradeRows _ = tradeRows s.db :=
          congrArg List.length ((fillView_eq_iff.mp hkeep).2.1.trans htrades)
        exact absurd (hsame.symm.trans hrows) (Nat.ne_of_lt (Nat.lt_succ_self _))
  | some x =>
      obtain ⟨hmore, row', hrow', hx'⟩ :=
        exec_fill hfill.id hfill.stored hfill.buyer hfill.trade hx
      by_cases hfits : (buy user offerId offer (.finite filled) transferred event).HandlerFits
          host.toApiConfig
      · -- both trades are inserted
        have htwice : tradeRows u.db + 1 = tradeRows s.db + 1 :=
          ((adds_buy hfits).exec hcredit).symm.trans hrows
        have honce : tradeRows u.db = tradeRows s.db + 1 := hmore
        omega
      · refine ⟨hfits, ?_⟩
        obtain ⟨hoffers, -, -⟩ := fillView_eq_iff.mp ((keeps_buy hfits).exec u)
        have hsame : row = row' := by
          have hstored := (congrFun hoffers offerId).trans hrow'
          exact Option.some.inj (hrow.symm.trans hstored)
        have htotal := hfill.total
        rw [hx, ← hx', ← hsame, hamount, eq_comm] at htotal
        exact MarketplaceService.floatColumn_eq_some.mp htotal

end Fills

/-! ### Every transaction -/

/-- A transaction has one effect in every order of turns exactly when just one of the two writers
has a row that fits, which of a purchase is the processor with an exact total. -/
theorem oneEffect_iff (host : ApiHost σ) (sub : Submission) (s : BackendState σ)
    (h : sub.Accepted host.client s.db) :
    sub.InEveryOrder host s (sub.OneEffect s.db) ↔ sub.OneWriter host.toApiConfig := by
  cases sub with
  | approve user creditId comments minted event =>
      obtain ⟨hcredit, hid, hverifier⟩ := h
      have hrows := oneRow_iff (approve user creditId comments minted event) hcredit
        (adds_approve host.toApiConfig user creditId comments minted event)
        (adds_processCreditApproved hid hverifier)
      exact (InEveryOrder.congr fun _ => and_iff_left trivial).trans hrows
  | reject user creditId reason event =>
      obtain ⟨hcredit, hid, hverifier⟩ := h
      have hrows := oneRow_iff (reject user creditId reason event) hcredit
        (adds_reject host.toApiConfig user creditId reason event)
        (adds_processCreditRejected hid hverifier)
      exact (InEveryOrder.congr fun _ => and_iff_left trivial).trans hrows
  | retire user creditId credit dto tonnes receipt event =>
      obtain ⟨hcredit, hid, hretirer⟩ := h
      have hrows := oneRow_iff (retire user creditId credit dto tonnes receipt event) hcredit
        (adds_retire host.toApiConfig user creditId credit dto tonnes receipt event)
        (adds_processCreditRetired hid hretirer)
      exact (InEveryOrder.congr fun _ => and_iff_left trivial).trans hrows
  | buy user offerId offer amount transferred event =>
      obtain ⟨filled, rfl, hfill⟩ := fill_of_accepted h
      constructor
      · intro hone
        obtain ⟨hrefused, hexact⟩ := refused_of_oneEffect hfill hone
        exact ⟨hrefused, filled, rfl, hexact⟩
      · rintro ⟨hrefused, filled', hfilled, hexact⟩
        obtain rfl := JsNumber.finite.inj hfilled
        exact oneEffect_of_refused hfill hrefused hexact

end Submission

/-! ## Two transactions -/

namespace Sample

open RetirementService

/-- The API retires credit 1, and so does the processor of the event. -/
def retirement : Submission :=
  .retire wallet 1 (creditRow .active)
    { reason := "r", beneficiary := "b", accountingPeriod := "p", tonnesRetired := none }
    (.finite 1000) { txHash := "t", ledgerSequence := .finite 5 }
    { creditId := .finite 1, retiredBy := wallet, beneficiary := "b", reason := "r"
      accountingPeriod := "p", tonnesRetired := .finite 1000, txHash := "t"
      ledgerSequence := .finite 5, timestamp := .finite 20 }

/-- A purchase of which the transfer failed, so that the API does not record it. -/
def unrecordedPurchase : Submission :=
  .buy "a" 1 hundredTonnes (.finite 60) (.error (.badGateway ""))
    { offerId := .finite 1, buyer := "a", amount := .finite 60, totalPrice := .finite 600
      timestamp := .finite 20, txHash := "t" }

end Sample

namespace Submission

open Sample in
/-- The retirement is recorded twice. -/
theorem not_oneEffect :
    ¬ ∀ (σ : Type) (host : ApiHost σ) (sub : Submission) (s : BackendState σ),
      sub.Accepted host.client s.db → sub.InEveryOrder host s (sub.OneEffect s.db) := by
  intro h
  have hone : retirement.InEveryOrder acceptingHost offering (retirement.OneEffect offering.db) :=
    h Unit acceptingHost retirement offering ⟨rfl, by decide +kernel, rfl⟩
  have hcredit : (offering.db.credits 1).isSome = true := rfl
  have hrows : retirement.InEveryOrder acceptingHost offering
      (fun db => retirement.rows db = retirement.rows offering.db + 1) ↔ ¬ (_ = true ↔ _ = true) :=
    oneRow_iff retirement hcredit (adds_retire acceptingHost.toApiConfig _ _ _ _ _ _ _)
      (adds_processCreditRetired (by decide +kernel) rfl)
  exact hrows.mp (fun turns hended => (hone turns hended).1) (by decide +kernel)

open Sample in
/-- The purchase is recorded by the processor alone. -/
theorem oneEffect_unrecorded :
    unrecordedPurchase.InEveryOrder acceptingHost offering
      (unrecordedPurchase.OneEffect offering.db) := by
  refine (oneEffect_iff acceptingHost unrecordedPurchase offering ?_).mpr ⟨?_, ?_⟩
  · exact ⟨rfl, rfl, by decide +kernel, by decide +kernel, rfl, rfl, rfl, rfl⟩
  · rintro ⟨⟨b, hb⟩, -⟩
    cases hb
  · exact ⟨60, rfl, by decide +kernel⟩

end Submission

end CarbonVeritas
