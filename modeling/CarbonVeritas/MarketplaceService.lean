/-
# The marketplace service

`api/src/marketplace/marketplace.service.ts`: `createOffer`, `buyCredits` and `cancelOffer`.
-/
import CarbonVeritas.ApiQueries

namespace CarbonVeritas

namespace MarketplaceService

open ApiService
open Program (throwIf orThrow)

structure CreateOfferDto where
  creditId : JsNumber
  pricePerTonne : JsNumber
  amount : JsNumber
  currency : String
  expiresAt : Option JsNumber

/-- `dto.expiresAt ? new Date(dto.expiresAt) : null`; the time of an invalid date is `none`. -/
def expiryDate (expiresAt : Option JsNumber) : Option (Option ℤ) :=
  (expiresAt.filter fun x => (JsValue.number x).truthy).map Mirror.dateOfNumber

/-- `date.getTime()` -/
def getTime : Option ℤ → JsNumber
  | some time => .finite time
  | none => .nan

/-- The column of a `Date`. -/
def dateColumn : Option (Option ℤ) → Option (Option ℤ)
  | none => some none
  | some none => none
  | some (some time) => some (some time)

section Service

variable (config : ApiConfig)

/-! ## Creating an offer -/

/-- `if (expiresAt && expiresAt <= new Date()) throw ..` -/
def requireFuture : Option (Option ℤ) → ApiProgram Unit
  | none => .ret ()
  | some date => do
      let now ← Date.now
      throwIf (∃ time ∈ date, time ≤ now) (.badRequest "Expiry must be in the future")

/-- The row of a new offer. -/
def offerRow (offerId creditId : ℤ) (seller : String) (dto : CreateOfferDto) :
    Option (ℤ × OfferRow) := do
  let offerId ← Mirror.intColumn (.finite offerId)
  let pricePerTonne ← Mirror.floatColumn dto.pricePerTonne
  let amount ← Mirror.floatColumn dto.amount
  let currency ← Mirror.textColumn config.client dto.currency
  let expiresAt ← dateColumn (expiryDate dto.expiresAt)
  return (offerId, {
    creditId, seller, pricePerTonne, amount, currency, expiresAt
    amountFilled := 0
    status := .active })

/-- The checks of `createOffer` on the database: the credit, and the id of the new offer. -/
def checkOffer (userId : String) (dto : CreateOfferDto) : ApiProgram (ℤ × ℤ) := do
  let found ← prisma.credit.findUnique dto.creditId
  let (creditId, credit) ← orThrow found (.notFound "Credit not found")
  throwIf (credit.owner ≠ userId) (.forbidden "You do not own this credit")
  throwIf (credit.status ≠ .active) (.badRequest "Credit is not ACTIVE")
  let existingOffer ← prisma.offer.findActive creditId userId
  throwIf (existingOffer = true)
    (.badRequest "You already have an active offer for this credit")
  let lastOffer ← prisma.offer.findLast
  requireFuture (expiryDate dto.expiresAt)
  return (creditId, lastOffer.getD 0 + 1)

def createOffer (userId wallet : String) (dto : CreateOfferDto) :
    ApiProgram (Option (ℤ × OfferRow)) := do
  let (creditId, offerId) ← checkOffer userId dto
  let _ ← stellar.createOffer wallet dto.creditId dto.pricePerTonne dto.amount dto.currency
    ((expiryDate dto.expiresAt).map getTime)
  let offer := offerRow config offerId creditId userId dto
  prisma.offer.create offer
  return offer

/-! ## Buying -/

/-- `if (offer.expiresAt && offer.expiresAt <= new Date()) { .. throw .. }` -/
def expire (offerId : ℤ) (offer : OfferRow) : ApiProgram Unit :=
  match offer.expiresAt with
  | none => .ret ()
  | some expiresAt => do
      let now ← Date.now
      if expiresAt ≤ now then
        prisma.offer.update offerId (some { status := some .expired })
        .throw (.badRequest "Offer has expired")
      else
        return ()

/-- The checks of `buyCredits` on the database. -/
def checkBuy (userId : String) (offerId amount : JsNumber) : ApiProgram (ℤ × OfferRow) := do
  let found ← prisma.offer.findWithCredit offerId
  let (id, offer, _) ← orThrow found (.notFound "Offer not found")
  throwIf (offer.status ≠ .active) (.badRequest "Offer is not active")
  throwIf (offer.seller = userId) (.badRequest "Cannot buy your own offer")
  throwIf (amount.gt ((JsNumber.finite offer.amount).sub (.finite offer.amountFilled)) = true)
    (.badRequest "Requested amount exceeds available tonnes")
  expire id offer
  return (id, offer)

/-- `amount * offer.pricePerTonne` -/
def totalPrice (offer : OfferRow) (amount : JsNumber) : JsNumber :=
  amount.mul (.finite offer.pricePerTonne)

/-- The row of the trade. -/
def tradeRow (userId : String) (offerId : ℤ) (offer : OfferRow) (amount : JsNumber) :
    Option TradeRow := do
  let price ← Mirror.floatColumn (totalPrice offer amount)
  let amount ← Mirror.floatColumn amount
  return { offerId, buyer := userId, amount, totalPrice := price, creditId := offer.creditId }

/-- What is written to the offer. -/
def fillData (offer : OfferRow) (amount : JsNumber) : Option OfferData :=
  let newFilled := (JsNumber.finite offer.amountFilled).add amount
  let isFilled := newFilled.ge (.finite offer.amount)
  (Mirror.floatColumn newFilled).map fun x =>
    { amountFilled := some x, status := some (if isFilled then .filled else .active) }

/-- What `buyCredits` writes after its calls of the contracts. -/
def recordTrade (userId : String) (offerId : ℤ) (offer : OfferRow) (amount : JsNumber) :
    ApiProgram (Option TradeRow) := do
  let trade := tradeRow userId offerId offer amount
  promiseAll (attempt.tradeCreate trade)
    (attempt.creditUpdate offer.creditId (some { owner := some userId }))
  prisma.offer.update offerId (fillData offer amount)
  return trade

def buyCredits (userId wallet : String) (offerId amount : JsNumber) :
    ApiProgram (Option TradeRow) := do
  let (id, offer) ← checkBuy userId offerId amount
  let success ← stellar.buyCredits wallet offerId amount
  throwIf (success = false) (.badRequest "On-chain transaction failed")
  -- the seller is named by the id of its row
  let _ ← stellar.transferCredit wallet (config.cuid offer.seller) (.finite offer.creditId)
  recordTrade userId id offer amount

/-! ## Cancelling -/

def cancelOffer (userId : String) (offerId : JsNumber) : ApiProgram Unit := do
  let found ← prisma.offer.findUnique offerId
  let (id, offer) ← orThrow found (.notFound "Offer not found")
  throwIf (offer.seller ≠ userId) (.forbidden "You can only cancel your own offers")
  throwIf (offer.status ≠ .active) (.badRequest "Offer is not active")
  -- the caller is named by the id of its row
  let _ ← stellar.cancelOffer (config.cuid userId) offerId
  prisma.offer.update id (some { status := some .cancelled })

end Service

/-! ## Requests -/

/-- A request of a user, whose wallet is the user's. -/
inductive Request where
  | createOffer (user : String) (dto : CreateOfferDto)
  | buyCredits (user : String) (offerId amount : JsNumber)
  | cancelOffer (user : String) (offerId : JsNumber)

/-- The state after a request that runs alone. -/
def serve {σ : Type} (host : ApiHost σ) (s : BackendState σ) : Request → BackendState σ
  | .createOffer user dto =>
      (Program.exec host.handle (createOffer host.toApiConfig user user dto) s).2
  | .buyCredits user offerId amount =>
      (Program.exec host.handle (buyCredits host.toApiConfig user user offerId amount) s).2
  | .cancelOffer user offerId =>
      (Program.exec host.handle (cancelOffer host.toApiConfig user offerId) s).2

end MarketplaceService

end CarbonVeritas
