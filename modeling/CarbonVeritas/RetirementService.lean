/-
# The retirement service

`api/src/retirement/retirement.service.ts`: `retireCredit` checks the credit in the database and
on chain, retires it on chain, and records the tonnage that the user has asked for.
-/
import CarbonVeritas.ApiQueries

namespace CarbonVeritas

namespace RetirementService

open ApiService
open Program (throwIf orThrow)

structure RetireCreditDto where
  reason : String
  beneficiary : String
  accountingPeriod : String
  tonnesRetired : Option String

section Service

variable (config : ApiConfig)

/-- `dto.tonnesRetired ? parseFloat(dto.tonnesRetired) : credit.tonnes` -/
def tonnesRetired (dto : RetireCreditDto) (credit : CreditRow) : JsNumber :=
  match dto.tonnesRetired.filter fun text => text ≠ "" with
  | some text => .parseFloat text.toList
  | none => .finite credit.tonnes

/-- The checks of `retireCredit` on the database. -/
def checkCredit (userId : String) (creditId : JsNumber) : ApiProgram (ℤ × CreditRow) := do
  let found ← prisma.credit.findUnique creditId
  let (id, credit) ← orThrow found (.notFound "Credit not found")
  throwIf (credit.owner ≠ userId) (.badRequest "You do not own this credit")
  throwIf (credit.status ≠ .active) (.badRequest "Credit is not ACTIVE")
  return (id, credit)

/-- `if (tonnesRetired <= 0 || tonnesRetired > credit.tonnes) throw ..` -/
def requireAmount (tonnes : JsNumber) (credit : CreditRow) : ApiProgram Unit :=
  throwIf ((JsNumber.finite 0).ge tonnes = true ∨ tonnes.gt (.finite credit.tonnes) = true)
    (.badRequest "Invalid retirement amount")

/-- The row of a retirement. -/
def retirementRow (userId : String) (id : ℤ) (dto : RetireCreditDto) (tonnes : JsNumber)
    (receipt : RetireReceipt) (now : ℕ) : Option RetirementRow := do
  let beneficiary ← Mirror.textColumn config.client dto.beneficiary
  let reason ← Mirror.textColumn config.client dto.reason
  let accountingPeriod ← Mirror.textColumn config.client dto.accountingPeriod
  let tonnesRetired ← Mirror.floatColumn tonnes
  let txHash ← Mirror.textColumn config.client receipt.txHash
  let ledgerSequence ← Mirror.intColumn receipt.ledgerSequence
  return {
    creditId := id, retiredBy := userId, beneficiary, reason, accountingPeriod, tonnesRetired,
    txHash, ledgerSequence
    timestamp := now }

/-- What `retireCredit` writes after its call of the tracker. -/
def recordRetirement (userId : String) (id : ℤ) (credit : CreditRow) (dto : RetireCreditDto)
    (tonnes : JsNumber) (receipt : RetireReceipt) : ApiProgram (Option RetirementRow) := do
  -- the column `timestamp` has the default `now()`
  let now ← Date.now
  let retirement := retirementRow config userId id dto tonnes receipt now
  prisma.retirement.create retirement
  if tonnes.ge (.finite credit.tonnes) then
    prisma.credit.update id (some { status := some .retired })
    return retirement
  else
    return retirement

def retireCredit (userId wallet : String) (creditId : JsNumber) (dto : RetireCreditDto) :
    ApiProgram (Option RetirementRow) := do
  let (id, credit) ← checkCredit userId creditId
  let alreadyRetired ← stellar.isRetired creditId
  throwIf (alreadyRetired = true) (.badRequest "Credit is already retired on-chain")
  let tonnes := tonnesRetired dto credit
  requireAmount tonnes credit
  let result ← stellar.retire wallet creditId dto.reason dto.beneficiary dto.accountingPeriod
  recordRetirement config userId id credit dto tonnes result

end Service

end RetirementService

end CarbonVeritas
