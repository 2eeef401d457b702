/-
# Offers in the database and on chain

The requests of the marketplace service on a deployment: when the database and the contracts
agree over a run, and when every seller can cancel (`agreement_iff`).

* `createOffer_fails` : no request to create an offer succeeds, since the contract does not read
  the expiry that is sent;
* `cancelOffer_fails` : no request to cancel succeeds, since the contract is given the id of the
  user's row in place of a wallet;
* `buyCredits_ne_ok` : no purchase succeeds, since the credit is then transferred to the id of
  the seller's row; a purchase that the contract accepted is left without a trade.
-/
import CarbonVeritas.MarketplaceService
import CarbonVeritas.StellarService

namespace CarbonVeritas

namespace MarketplaceService

open ApiService Transition
open Program (exec throwIf orThrow)

variable {T : Type} {host : StellarHost T} {config : ApiConfig} {s : BackendState (World T)}

/-! ## Requests that fail -/

/-- The id of a user's row names no account. -/
theorem cancel_fails (host : StellarHost T) (config : ApiConfig) (user : String)
    (offerId : JsNumber) (n : ℕ) (w : World T) :
    ∃ e, (host.answer (.cancelOffer (config.cuid user) offerId) n w).1 = .error e := by
  obtain ⟨e, he⟩ := host.address_cuid config user
  refine ⟨.argument e, ?_⟩
  rw [StellarHost.answer, he]
  rfl

theorem transfer_fails (host : StellarHost T) (config : ApiConfig) (wallet user : String)
    (creditId : JsNumber) (n : ℕ) (w : World T) :
    ∃ e, (host.answer (.transferCredit wallet (config.cuid user) creditId) n w).1 = .error e := by
  obtain ⟨e, he⟩ := host.address_cuid config user
  rw [StellarHost.answer, he]
  cases host.address wallet with
  | error e' => exact ⟨.argument e', rfl⟩
  | ok a => exact ⟨.argument e, rfl⟩

/-- No request to cancel succeeds. -/
theorem cancelOffer_fails (host : StellarHost T) (config : ApiConfig)
    (s : BackendState (World T)) (user : String) (offerId : JsNumber) :
    Fails s (exec (host.api config).handle (cancelOffer config user offerId) s) := by
  refine fails_bind (Program.uses_query (by rfl)) fun found u _ => ?_
  refine fails_bind (Program.uses_orThrow _ _) fun p u _ => ?_
  refine fails_bind (Program.uses_throwIf _ _) fun _ u _ => ?_
  refine fails_bind (Program.uses_throwIf _ _) fun _ u _ => ?_
  obtain ⟨e, he⟩ := cancel_fails host config user offerId u.served u.chain
  exact fails_call he

/-- No purchase succeeds. -/
theorem buyCredits_ne_ok (user wallet : String) (offerId amount : JsNumber)
    (trade : Option TradeRow) (s' : BackendState (World T)) :
    exec (host.api config).handle (buyCredits config user wallet offerId amount) s
      ≠ (.ok trade, s') := by
  intro h
  simp only [buyCredits, Program.exec_bind_eq_ok, exec_stellar_transferCredit] at h
  obtain ⟨⟨id, offer⟩, u₁, -, success, u₂, -, _, u₃, -, _, u₄, htransfer, -⟩ := h
  obtain ⟨e, he⟩ := transfer_fails host config wallet offer.seller
    (.finite offer.creditId) u₃.served u₃.chain
  have hok := (Prod.mk.inj htransfer).1
  rw [show (host.api config).stellar = host.answer from rfl, he] at hok
  cases hok

/-- A purchase that the contract accepts is not recorded. -/
theorem buyCredits_unrecorded {user wallet : String} {offerId amount : JsNumber} {id : ℤ}
    {offer : OfferRow} {u : BackendState (World T)} {w' : World T}
    (hchecks : exec (host.api config).handle (checkBuy user offerId amount) s =
      (.ok (id, offer), u))
    (hbuy : host.answer (.buyCredits wallet offerId amount) u.served u.chain =
      ((.ok true : Except ServiceError Bool), w')) :
    ∃ e s', exec (host.api config).handle (buyCredits config user wallet offerId amount) s =
      (.error e, s') ∧ s'.db = u.db ∧ s'.chain = w' := by
  obtain ⟨e, he⟩ := transfer_fails host config wallet offer.seller (.finite offer.creditId)
    (u.served + 1) w'
  have hexec : exec (host.api config).handle (buyCredits config user wallet offerId amount) s =
      exec (host.api config).handle (do
        throwIf (true = false) (.badRequest "On-chain transaction failed")
        let _ ← stellar.transferCredit wallet (config.cuid offer.seller) (.finite offer.creditId)
        recordTrade user id offer amount) (u.called (.buyCredits wallet offerId amount) w') :=
    (Program.exec_bind_of_ok hchecks).trans (exec_call_ok hbuy)
  rw [Program.throwIf_bind, if_neg (by decide)] at hexec
  exact ⟨e, _, hexec.trans (exec_call_error he), rfl, StellarHost.answer_error he⟩

/-! ## Databases without an active offer -/

def NoActiveOffer (db : ApiDb) : Prop :=
  ∀ id offer, db.offers id = some offer → offer.status ≠ .active

/-- Without an active offer nothing can be bought. -/
theorem buyCredits_fails (host : StellarHost T) (config : ApiConfig) (hnone : NoActiveOffer s.db)
    (user wallet : String) (offerId amount : JsNumber) :
    Fails s (exec (host.api config).handle (buyCredits config user wallet offerId amount) s) := by
  unfold buyCredits checkBuy
  simp only [Program.bind_assoc]
  refine fails_bind (Program.uses_query (by rfl)) fun found u hfound => ?_
  refine fails_bind (Program.uses_orThrow _ _) fun p v hp => ?_
  obtain ⟨id, offer, credit⟩ := p
  rw [exec_offer_findWithCredit, Prod.mk.injEq] at hfound
  obtain ⟨rfl, rfl⟩ := Program.exec_orThrow_eq_ok.mp hp
  obtain ⟨-, hrow⟩ := lookup_eq_ok_some.mp hfound.1
  have hinactive : offer.status ≠ .active := hnone id offer (offerCredit_eq_some.mp hrow).1
  exact fails_throwIf hinactive

/-! ## Creating an offer -/

theorem uses_checkOffer (user : String) (dto : CreateOfferDto) :
    (checkOffer user dto).Uses fun q => q.reads = true := by
  refine (Program.uses_query (by rfl)).bind fun found => ?_
  refine (Program.uses_orThrow _ _).bind fun p => ?_
  refine (Program.uses_throwIf _ _).bind fun _ => ?_
  refine (Program.uses_throwIf _ _).bind fun _ => ?_
  refine (Program.uses_query (by rfl)).bind fun existing => ?_
  refine (Program.uses_throwIf _ _).bind fun _ => ?_
  refine (Program.uses_query (by rfl)).bind fun last => ?_
  refine Program.Uses.bind ?_ fun _ => trivial
  cases expiryDate dto.expiresAt with
  | none => trivial
  | some date => exact (Program.uses_query (by rfl)).bind fun now => Program.uses_throwIf _ _

theorem createOffer_stopsAt (config : ApiConfig) (userId wallet : String) (dto : CreateOfferDto) :
    (createOffer config userId wallet dto).StopsAt (fun q => q.sendsVector = true)
      fun q => q.reads = true := by
  refine (uses_checkOffer userId dto).stopsAt fun ids => ?_
  exact Program.stopsAt_query (by rfl) _

/-- No request to create an offer succeeds. -/
theorem createOffer_fails (hreads : host.ReadsContractTypes) (config : ApiConfig)
    (s : BackendState (World T)) (userId wallet : String) (dto : CreateOfferDto) :
    Fails s (exec (host.api config).handle (createOffer config userId wallet dto) s) :=
  fails_of_stopsAt hreads config (createOffer_stopsAt config userId wallet dto) s

/-! ## Agreement -/

/-- The request changes the database and the contracts, or neither. -/
def InBothOrNeither (api : ApiHost (World T)) (s : BackendState (World T)) (req : Request) :
    Prop :=
  (serve api s req).db = s.db ↔ (serve api s req).chain = s.chain

/-- After a purchase that succeeds, the buyer owns the credit in the database and on chain. -/
def BuyerOwns (host : StellarHost T) (config : ApiConfig) (s : BackendState (World T)) :
    Request → Prop
  | .buyCredits user offerId amount => ∀ trade s',
      exec (host.api config).handle (buyCredits config user user offerId amount) s
          = (.ok trade, s') →
        ∃ id offer credit wallet, Mirror.intColumn offerId = some id ∧
          s.db.offers id = some offer ∧ s'.db.credits offer.creditId = some credit ∧
          credit.owner = user ∧ host.address user = .ok wallet ∧
          (s'.chain.registry host.registry).owners offer.creditId.toNat = some wallet
  | _ => True

/-- The seller of every active offer of the database can cancel it. -/
def SellersCanCancel (host : StellarHost T) (config : ApiConfig) (s : BackendState (World T)) :
    Prop :=
  ∀ id offer, s.db.offers id = some offer → offer.status = .active →
    ∃ s', exec (host.api config).handle (cancelOffer config offer.seller (.finite id)) s
      = (.ok (), s')

/-- The marketplace of the API and the contract agree over a run of requests. -/
structure Agreement (host : StellarHost T) (config : ApiConfig) (s : BackendState (World T))
    (reqs : List Request) : Prop where
  requests : Always (serve (host.api config))
    (fun s req => InBothOrNeither (host.api config) s req ∧ BuyerOwns host config s req) s reqs
  sellers : Throughout (serve (host.api config)) (SellersCanCancel host config) s reqs

/-- Since no request to cancel succeeds. -/
theorem sellersCanCancel_iff : SellersCanCancel host config s ↔ NoActiveOffer s.db := by
  constructor
  · intro h id offer hoffer hactive
    obtain ⟨s', hcancel⟩ := h id offer hoffer hactive
    obtain ⟨e, he⟩ := (cancelOffer_fails host config s offer.seller (.finite id)).error
    rw [hcancel] at he
    cases he
  · intro hnone id offer hoffer hactive
    exact absurd hactive (hnone id offer hoffer)

theorem buyerOwns (req : Request) : BuyerOwns host config s req := by
  cases req with
  | buyCredits user offerId amount =>
      intro trade s' h
      exact absurd h (buyCredits_ne_ok user user offerId amount trade s')
  | createOffer user dto => trivial
  | cancelOffer user offerId => trivial

/-- Without an active offer, a request has no effect. -/
theorem serve_fails (hreads : host.ReadsContractTypes) (hnone : NoActiveOffer s.db)
    (req : Request) :
    (serve (host.api config) s req).db = s.db ∧
      (serve (host.api config) s req).chain = s.chain := by
  cases req with
  | createOffer user dto =>
      have hfails := createOffer_fails hreads config s user user dto
      exact ⟨hfails.db, hfails.chain⟩
  | buyCredits user offerId amount =>
      have hfails := buyCredits_fails host config hnone user user offerId amount
      exact ⟨hfails.db, hfails.chain⟩
  | cancelOffer user offerId =>
      have hfails := cancelOffer_fails host config s user offerId
      exact ⟨hfails.db, hfails.chain⟩

/-- **Agreement.**  A run keeps the agreement exactly when no offer is active at its start. -/
theorem agreement_iff (host : StellarHost T) (hreads : host.ReadsContractTypes)
    (config : ApiConfig) (s : BackendState (World T)) (reqs : List Request) :
    Agreement host config s reqs ↔ NoActiveOffer s.db := by
  constructor
  · rintro ⟨-, hsellers⟩
    exact sellersCanCancel_iff.mp hsellers.first
  · intro hnone
    have hkeep : ∀ (u : BackendState (World T)) (req : Request), NoActiveOffer u.db →
        True → NoActiveOffer (serve (host.api config) u req).db := by
      intro u req hu _
      rw [(serve_fails hreads hu req).1]
      exact hu
    have htrue : Always (serve (host.api config)) (fun _ _ => True) s reqs :=
      always_of_forall_mem (fun _ _ _ => trivial) s
    refine ⟨(always_invariant hkeep hnone htrue).mono fun u req h => ⟨?_, buyerOwns req⟩,
      fun us hus => sellersCanCancel_iff.mpr (throughout_invariant hkeep hnone htrue us hus)⟩
    obtain ⟨hdb, hchain⟩ := serve_fails hreads h.1 req
    exact iff_of_true hdb hchain

end MarketplaceService

namespace Sample

open MarketplaceService

/-- Account 0 offers the credit 1. -/
def offerDto : MarketplaceService.CreateOfferDto where
  creditId := .finite 1
  pricePerTonne := .finite 10
  amount := .finite 1000
  currency := wallet
  expiresAt := none

/-- Account 0 has created the same offer without the API. -/
def offeredWorld : World Balances := World.apply chain activeWorld
  (tx 0 11 (.marketplace (.createOffer (.account 0) 1 10 1000 (.account 0) none)))

/-- Its row. -/
def offeredRow : OfferRow where
  creditId := 1
  seller := wallet
  pricePerTonne := 10
  amount := 1000
  amountFilled := 0
  currency := wallet
  status := .active
  expiresAt := none

def offeredDb : ApiDb := (apiDb .active).insertOffer 1 offeredRow

/-- It is the row that the indexer stores for the offer. -/
example : (Mirror.processOfferCreated apiConfig.client
    { offerId := .finite 1, creditId := .finite 1, seller := wallet, amount := .finite 1000,
      pricePerTonne := .finite 10, currency := wallet, expiresAt := none, timestamp := .finite 31,
      txHash := "tx" }).run (apiDb .active).toMirror = .ok () offeredDb.toMirror := rfl

/-- The database and the contracts have the offer. -/
def offeredBackend : BackendState (World Balances) :=
  { backend .active offeredWorld with db := offeredDb }

end Sample

namespace MarketplaceService

open Sample in
/-- While there is no offer, the requests of account 0 have no effect on either side. -/
theorem agreement_unused : Agreement stellarHost apiConfig (backend .active activeWorld)
    [.createOffer wallet offerDto, .buyCredits wallet (.finite 1) (.finite 500),
      .cancelOffer wallet (.finite 1)] :=
  (agreement_iff stellarHost stellarHost_readsContractTypes apiConfig
    (backend .active activeWorld) _).mpr fun _ _ hoffer => by cases hoffer

open Sample in
/-- Account 0 cannot cancel its offer. -/
theorem not_agreement :
    ¬ ∀ (T : Type) (host : StellarHost T) (config : ApiConfig) (s : BackendState (World T))
      (reqs : List Request), host.ReadsContractTypes → Agreement host config s reqs := by
  intro h
  have hagree := h _ stellarHost apiConfig offeredBackend [.cancelOffer wallet (.finite 1)]
    stellarHost_readsContractTypes
  exact sellersCanCancel_iff.mp hagree.sellers.first 1 offeredRow rfl rfl

end MarketplaceService

end CarbonVeritas
