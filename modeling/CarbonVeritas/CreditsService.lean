/-
# The votes of the credits service

`api/src/credits/credits.service.ts`: `approveCredit` and `rejectCredit`.  Each checks the
verifier and the credit in the database, makes its call of the registry, and records the vote.
-/
import CarbonVeritas.ApiQueries
import CarbonVeritas.AuthService

namespace CarbonVeritas

namespace CreditsService

open ApiService
open AuthService (parseInt)
open Program (throwIf orThrow)

section Service

variable (config : ApiConfig)

/-- `parseInt(process.env.VERIFIER_THRESHOLD ?? '2', 10)` -/
def threshold : JsNumber := parseInt (config.VERIFIER_THRESHOLD.getD "2").toList

/-- `parseInt(process.env.VERIFIER_QUORUM ?? '3', 10)` -/
def quorum : JsNumber := parseInt (config.VERIFIER_QUORUM.getD "3").toList

def requireVerifier (userId : String) : ApiProgram Unit := do
  let verifier ← prisma.verifier.findFirst userId
  throwIf (¬ ∃ row ∈ verifier, row.status = .active) (.forbidden "Not an active verifier")

/-- The checks of a vote; `message` says that the user has voted like this already. -/
def checkVote (userId : String) (creditId : JsNumber) (approved : Bool) (message : String) :
    ApiProgram ℤ := do
  requireVerifier userId
  let found ← prisma.credit.findWithApprovals creditId
  let (id, credit, approvals) ← orThrow found (.notFound "Credit not found")
  throwIf (credit.status ≠ .pending) (.badRequest "Credit is not in PENDING status")
  let already := approvals.any fun a => a.verifier = userId ∧ a.approved = approved
  throwIf (already = true) (.badRequest message)
  return id

/-- The row of an approval. -/
def approvalRow (userId : String) (id : ℤ) (comments : Option String) : Option ApprovalRow :=
  (Mirror.optionalTextColumn config.client comments).map fun comments =>
    { creditId := id, verifier := userId, approved := true, comments }

/-- What a minted credit is updated with. -/
def mintedData (txHash : String) : Option CreditData :=
  (Mirror.textColumn config.client txHash).map fun tokenId =>
    { status := some .active, tokenId := some tokenId }

/-- What `approveCredit` writes after its call of the registry. -/
def recordApproval (userId : String) (id : ℤ) (comments txHash : Option String) :
    ApiProgram Unit := do
  prisma.approval.create (approvalRow config userId id comments)
  let totalApprovals ← prisma.approval.count id true
  match txHash.filter fun hash => hash ≠ "" with
  | some hash =>
      if (JsNumber.finite totalApprovals).ge (threshold config) then
        prisma.credit.update id (mintedData config hash)
      else
        return ()
  | none => return ()

def approveCredit (userId wallet : String) (creditId : JsNumber) (comments : Option String) :
    ApiProgram (Option (ℤ × CreditRow × List ApprovalRow)) := do
  let id ← checkVote userId creditId true "Already approved this credit"
  let txHash ← stellar.approveAndMint wallet creditId (comments.getD "")
  recordApproval config userId id comments txHash
  prisma.credit.findWithApprovals creditId

/-- The row of a rejection. -/
def rejectionRow (userId : String) (id : ℤ) (reason : String) : Option ApprovalRow :=
  (Mirror.textColumn config.client reason).map fun reason =>
    { creditId := id, verifier := userId, approved := false, comments := some reason }

/-- What `rejectCredit` writes after its call of the registry. -/
def recordRejection (userId : String) (id : ℤ) (reason : String) : ApiProgram Unit := do
  prisma.approval.create (rejectionRow config userId id reason)
  let totalRejections ← prisma.approval.count id false
  if (JsNumber.finite totalRejections).ge (quorum config) then
    prisma.credit.update id (some { status := some .rejected })
  else
    return ()

def rejectCredit (userId wallet : String) (creditId : JsNumber) (reason : String) :
    ApiProgram (Option (ℤ × CreditRow × List ApprovalRow)) := do
  let id ← checkVote userId creditId false "Already recorded a decision on this credit"
  let _ ← stellar.rejectCredit wallet creditId reason
  recordRejection config userId id reason
  prisma.credit.findWithApprovals creditId

end Service

end CreditsService

end CarbonVeritas
