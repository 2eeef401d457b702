/-
# The CreditRegistry contract

`contracts/credit-registry`: the storage of the contract (`storage.rs`), the
metadata checks (`validation.rs`), the events it publishes (`events.rs`) and its
entry points (`lib.rs`).  The instance storage is a record with one field for each
kind of key; the map under a prefix is a function from the rest of the key.

`CreditRegistry.Call` lists the public entry points and `CreditRegistry.exec` runs
one of them.  Credit ids are natural numbers: the `u64` counter of the source agrees
with them in every run of fewer than `2 ^ 64` creations.
-/
import CarbonVeritas.HostCalls
import Mathlib.Logic.Function.Basic
import Mathlib.Tactic.Simps.Basic

namespace CarbonVeritas

/-! ## Events and storage -/

/-- The events of `events.rs`, with their topics as the constructor. -/
inductive RegistryEvent where
  | creditSubmitted (creditId : ℕ) (issuer : Address) (ipfsHash : SorobanString)
  | creditApproved (creditId : ℕ) (verifier : Address)
  | creditMinted (creditId : ℕ)
  | creditRejected (creditId : ℕ) (verifier : Address)
  | creditTransferred (creditId : ℕ) (fromAddr toAddr : Address)
  | configUpdated (admin : Address)
  deriving DecidableEq, Repr

/-- The instance storage of the registry, with the events it has published. -/
structure CreditRegistry where
  /-- `DataKey::CreditCounter` -/
  creditCounter : ℕ := 0
  /-- `("c", credit_id)` -/
  credits : ℕ → Option CreditMetadata := fun _ => none
  /-- `("o", credit_id)` -/
  owners : ℕ → Option Address := fun _ => none
  /-- `("a", credit_id)` -/
  approvals : ℕ → List ApprovalRecord := fun _ => []
  /-- `("il", issuer)` -/
  issuerCredits : Address → List ℕ := fun _ => []
  /-- `("ol", owner)` -/
  ownerCredits : Address → List ℕ := fun _ => []
  /-- `"vl"` -/
  verifiers : List Address := []
  /-- `("b", bridge)` -/
  bridges : Address → Bool := fun _ => false
  /-- `("r", retirer)` -/
  retirers : Address → Bool := fun _ => false
  /-- `DataKey::ContractConfig` -/
  config : Option ContractConfig := none
  events : List RegistryEvent := []

namespace CreditRegistry

/-- The storage of a contract just deployed. -/
def empty : CreditRegistry := {}

/-! ### `storage.rs` -/

section Storage

variable (s : CreditRegistry)

@[simps -fullyApplied] def nextCreditId : ℕ × CreditRegistry :=
  (s.creditCounter + 1, { s with creditCounter := s.creditCounter + 1 })

@[simps -fullyApplied] def writeCredit (id : ℕ) (metadata : CreditMetadata) : CreditRegistry :=
  { s with credits := Function.update s.credits id (some metadata) }

def readCredit (id : ℕ) : Result CreditMetadata :=
  orPanic (s.credits id) (.error .creditNotFound)

@[simps -fullyApplied] def writeOwner (creditId : ℕ) (owner : Address) : CreditRegistry :=
  { s with owners := Function.update s.owners creditId (some owner) }

def readOwner (creditId : ℕ) : Result Address :=
  orPanic (s.owners creditId) (.error .creditNotFound)

@[simps -fullyApplied] def writeApproval (creditId : ℕ) (record : ApprovalRecord) :
    CreditRegistry :=
  { s with approvals := Function.update s.approvals creditId (s.approvals creditId ++ [record]) }

def hasApproval (creditId : ℕ) (verifier : Address) : Bool :=
  (s.approvals creditId).any fun r => r.verifier = verifier

def countApprovals (creditId : ℕ) : ℕ :=
  (s.approvals creditId).countP fun r => r.approved

def countRejections (creditId : ℕ) : ℕ :=
  (s.approvals creditId).countP fun r => !r.approved

def readProvenance (creditId : ℕ) : List ApprovalRecord := s.approvals creditId

@[simps -fullyApplied] def addCreditToIssuer (issuer : Address) (creditId : ℕ) : CreditRegistry :=
  { s with
    issuerCredits := Function.update s.issuerCredits issuer (s.issuerCredits issuer ++ [creditId]) }

/-- The loop pushes the entries at `offset..end`. -/
def readCreditsByIssuer (issuer : Address) (offset limit : ℕ) : List ℕ :=
  let list := s.issuerCredits issuer
  let stop := min (u32SaturatingAdd offset limit) list.length
  if list.length ≤ offset then [] else (list.take stop).drop offset

@[simps -fullyApplied] def addCreditToOwner (owner : Address) (creditId : ℕ) : CreditRegistry :=
  { s with
    ownerCredits := Function.update s.ownerCredits owner (s.ownerCredits owner ++ [creditId]) }

def readCreditsByOwner (owner : Address) : List ℕ := s.ownerCredits owner

@[simps -fullyApplied] def writeConfig (config : ContractConfig) : CreditRegistry :=
  { s with config := some config }

def readConfig : Result ContractConfig := orPanic s.config .unwrap

def readAdmin : Result Address := do
  let config ← s.readConfig
  return config.admin

@[simps -fullyApplied] def writeVerifiers (verifiers : List Address) : CreditRegistry :=
  { s with verifiers := verifiers }

def isVerifier (addr : Address) : Bool := s.verifiers.any fun v => v = addr

def isAuthorizedBridge (bridge : Address) : Bool := s.bridges bridge

@[simps -fullyApplied] def setAuthorizedBridge (bridge : Address) (authorized : Bool) :
    CreditRegistry :=
  { s with bridges := Function.update s.bridges bridge authorized }

def isAuthorizedRetirer (retirer : Address) : Bool := s.retirers retirer

@[simps -fullyApplied] def setAuthorizedRetirer (retirer : Address) (authorized : Bool) :
    CreditRegistry :=
  { s with retirers := Function.update s.retirers retirer authorized }

/-- `env.events().publish` -/
@[simps -fullyApplied] def emit (event : RegistryEvent) : CreditRegistry :=
  { s with events := s.events ++ [event] }

end Storage

/-! ### `validation.rs` -/

def validateMetadata (metadata : CreditMetadata) : Result Unit := do
  panicIf (metadata.projectId = []) .invalidInput
  panicIf (metadata.methodology = []) .invalidInput
  panicIf (metadata.vintageStart = 0 ∨ metadata.vintageEnd = 0) .invalidInput
  panicIf (metadata.vintageStart > metadata.vintageEnd) .invalidInput
  panicIf (metadata.tonnes ≤ 0 ∨ metadata.tonnes > MAX_TONNES) .invalidInput
  panicIf (metadata.geography.length ≠ 2) .invalidInput
  panicIf (metadata.sdgFlags > 0x3FFF) .invalidInput
  panicIf (metadata.bufferContributionPct > 20) .invalidInput
  panicIf (metadata.permanenceRating > 100) .invalidInput
  panicIf (metadata.additionalityType > 2) .invalidInput

def requireAdmin (env : Env) (s : CreditRegistry) : Result Unit := do
  let admin ← s.readAdmin
  env.requireAuth admin

def requireVerifier (s : CreditRegistry) (verifier : Address) : Result Unit :=
  panicIf (¬ s.isVerifier verifier) .notAuthorized

/-! ### Entry points -/

/-- The token id of a credit: `sha256` of the eight big-endian bytes of its id. -/
def tokenIdOf (sha256 : (n : ℕ) → BitVec n → Bytes32) (creditId : ℕ) : Bytes32 :=
  sha256 64 (BitVec.ofNat 64 creditId)

variable (sha256 : (n : ℕ) → BitVec n → Bytes32) (env : Env) (s : CreditRegistry)

def submitCredit (issuer : Address) (metadata : CreditMetadata) (ipfsHash : SorobanString) :
    Result (ℕ × CreditRegistry) := do
  env.requireAuth issuer
  validateMetadata metadata
  let creditId := s.nextCreditId.1
  let s := s.nextCreditId.2
  let m := { metadata with
    status := .pending, ipfsHash := ipfsHash, tokenId := 0#256, createdAt := env.timestamp }
  let s := s.writeCredit creditId m
  let s := s.writeOwner creditId issuer
  let s := s.addCreditToIssuer issuer creditId
  let s := s.addCreditToOwner issuer creditId
  let s := s.emit (.creditSubmitted creditId issuer m.ipfsHash)
  return (creditId, s)

def approveAndMint (verifier : Address) (creditId : ℕ) (comments : SorobanString) :
    Result (Option Bytes32 × CreditRegistry) := do
  env.requireAuth verifier
  s.requireVerifier verifier
  let credit ← s.readCredit creditId
  panicIf (credit.status ≠ .pending) .creditNotPending
  panicIf (s.hasApproval creditId verifier) .alreadyVoted
  let s := s.writeApproval creditId
    { verifier := verifier, approved := true, timestamp := env.timestamp, comments := comments }
  let s := s.emit (.creditApproved creditId verifier)
  let config ← s.readConfig
  if s.countApprovals creditId ≥ config.verifierThreshold then
    let hash := tokenIdOf sha256 creditId
    let s := s.writeCredit creditId { credit with status := .active, tokenId := hash }
    let s := s.emit (.creditMinted creditId)
    return (some hash, s)
  else
    return (none, s)

def rejectCredit (verifier : Address) (creditId : ℕ) (reason : SorobanString) :
    Result (Bool × CreditRegistry) := do
  env.requireAuth verifier
  s.requireVerifier verifier
  let credit ← s.readCredit creditId
  panicIf (credit.status ≠ .pending) .creditNotPending
  panicIf (s.hasApproval creditId verifier) .alreadyVoted
  let s := s.writeApproval creditId
    { verifier := verifier, approved := false, timestamp := env.timestamp, comments := reason }
  let s := s.emit (.creditRejected creditId verifier)
  let config ← s.readConfig
  if s.countRejections creditId > u32Sub config.verifierQuorum config.verifierThreshold then
    let s := s.writeCredit creditId { credit with status := .rejected }
    return (true, s)
  else
    return (false, s)

def transferCredit (fromAddr toAddr : Address) (creditId : ℕ) :
    Result (Bool × CreditRegistry) := do
  env.requireAuth fromAddr
  let owner ← s.readOwner creditId
  panicIf (owner ≠ fromAddr) .creditNotOwned
  let credit ← s.readCredit creditId
  panicIf (credit.status ≠ .active) .creditNotActive
  let s := s.writeOwner creditId toAddr
  let s := s.addCreditToOwner toAddr creditId
  let s := s.emit (.creditTransferred creditId fromAddr toAddr)
  return (true, s)

def getOwner (creditId : ℕ) : Result Address := s.readOwner creditId

def markRetired (caller : Address) (creditId : ℕ) : Result (Unit × CreditRegistry) := do
  env.requireAuth caller
  panicIf (¬ s.isAuthorizedRetirer caller) .notAuthorized
  let credit ← s.readCredit creditId
  panicIf (credit.status ≠ .active) .creditNotActive
  let s := s.writeCredit creditId { credit with status := .retired }
  return ((), s)

/-- The configuration that `init` stores. -/
def initConfig (admin : Address) (threshold quorum : ℕ) : ContractConfig where
  admin := admin
  verifierThreshold := threshold
  verifierQuorum := quorum
  approvalWindow := APPROVAL_WINDOW_SECONDS
  protocolFeeBps := PROTOCOL_FEE_BPS
  bufferPoolPct := 10

/-- `init` reads neither its caller nor the storage. -/
def init (admin : Address) (threshold quorum : ℕ) : Result (Unit × CreditRegistry) := do
  panicIf (threshold = 0 ∨ quorum = 0 ∨ threshold > quorum) .invalidInput
  return ((), s.writeConfig (initConfig admin threshold quorum))

def updateConfig (admin : Address) (verifierThreshold verifierQuorum approvalWindow protocolFeeBps
    bufferPoolPct : ℕ) : Result (Bool × CreditRegistry) := do
  env.requireAuth admin
  let storedAdmin ← s.readAdmin
  panicIf (admin ≠ storedAdmin) .notAuthorized
  panicIf (verifierThreshold = 0 ∨ verifierQuorum = 0 ∨ verifierThreshold > verifierQuorum ∨
    verifierQuorum > MAX_VERIFIERS) .invalidInput
  panicIf (¬ (3600 ≤ approvalWindow ∧ approvalWindow ≤ 90 * 24 * 3600)) .invalidInput
  panicIf (protocolFeeBps > 1000) .invalidInput
  panicIf (bufferPoolPct > 50) .invalidInput
  let config ← s.readConfig
  let s := s.writeConfig { config with
    verifierThreshold := verifierThreshold
    verifierQuorum := verifierQuorum
    approvalWindow := approvalWindow
    protocolFeeBps := protocolFeeBps
    bufferPoolPct := bufferPoolPct }
  let s := s.emit (.configUpdated admin)
  return (true, s)

def addVerifier (admin verifier : Address) : Result (Unit × CreditRegistry) := do
  env.requireAuth admin
  requireAdmin env s
  panicIf (s.verifiers.any fun v => v = verifier) .verifierAlreadyRegistered
  panicIf (s.verifiers.length ≥ MAX_VERIFIERS) .invalidInput
  return ((), s.writeVerifiers (s.verifiers ++ [verifier]))

def removeVerifier (admin verifier : Address) : Result (Unit × CreditRegistry) := do
  env.requireAuth admin
  requireAdmin env s
  let newList := s.verifiers.filter fun v => v ≠ verifier
  panicIf (¬ s.verifiers.any fun v => v = verifier) .verifierNotFound
  return ((), s.writeVerifiers newList)

def mintBridged (bridge toAddr : Address) (metadata : CreditMetadata) :
    Result (ℕ × CreditRegistry) := do
  env.requireAuth bridge
  panicIf (¬ s.isAuthorizedBridge bridge) .notAuthorized
  validateMetadata metadata
  let creditId := s.nextCreditId.1
  let s := s.nextCreditId.2
  let m := { metadata with
    status := .active, createdAt := env.timestamp, tokenId := tokenIdOf sha256 creditId }
  let s := s.writeCredit creditId m
  let s := s.writeOwner creditId toAddr
  let s := s.addCreditToOwner toAddr creditId
  let s := s.emit (.creditMinted creditId)
  return (creditId, s)

/-- `add_bridge` and `remove_bridge` store the flag `authorized`. -/
def changeBridge (authorized : Bool) (admin bridge : Address) :
    Result (Unit × CreditRegistry) := do
  env.requireAuth admin
  requireAdmin env s
  return ((), s.setAuthorizedBridge bridge authorized)

def addBridge (admin bridge : Address) : Result (Unit × CreditRegistry) :=
  changeBridge env s true admin bridge

def removeBridge (admin bridge : Address) : Result (Unit × CreditRegistry) :=
  changeBridge env s false admin bridge

/-- `add_retirer` and `remove_retirer` store the flag `authorized`. -/
def changeRetirer (authorized : Bool) (admin retirer : Address) :
    Result (Unit × CreditRegistry) := do
  env.requireAuth admin
  requireAdmin env s
  return ((), s.setAuthorizedRetirer retirer authorized)

def addRetirer (admin retirer : Address) : Result (Unit × CreditRegistry) :=
  changeRetirer env s true admin retirer

def removeRetirer (admin retirer : Address) : Result (Unit × CreditRegistry) :=
  changeRetirer env s false admin retirer

/-! ### Calls -/

/-- The public entry points of the contract. -/
inductive Call where
  | submitCredit (issuer : Address) (metadata : CreditMetadata) (ipfsHash : SorobanString)
  | approveAndMint (verifier : Address) (creditId : ℕ) (comments : SorobanString)
  | rejectCredit (verifier : Address) (creditId : ℕ) (reason : SorobanString)
  | transferCredit (fromAddr toAddr : Address) (creditId : ℕ)
  | getCredit (creditId : ℕ)
  | getProvenance (creditId : ℕ)
  | getCreditsByIssuer (issuer : Address) (offset limit : ℕ)
  | getOwner (creditId : ℕ)
  | getCreditsByOwner (owner : Address)
  | markRetired (caller : Address) (creditId : ℕ)
  | init (admin : Address) (threshold quorum : ℕ)
  | getConfig
  | updateConfig (admin : Address) (verifierThreshold verifierQuorum approvalWindow protocolFeeBps
      bufferPoolPct : ℕ)
  | addVerifier (admin verifier : Address)
  | removeVerifier (admin verifier : Address)
  | mintBridged (bridge toAddr : Address) (metadata : CreditMetadata)
  | addBridge (admin bridge : Address)
  | removeBridge (admin bridge : Address)
  | addRetirer (admin retirer : Address)
  | removeRetirer (admin retirer : Address)
  | isRetirer (retirer : Address)

/-- The storage after a call; what the call returns is dropped. -/
def exec : Call → Result CreditRegistry
  | .submitCredit issuer metadata ipfsHash =>
      (submitCredit env s issuer metadata ipfsHash).map Prod.snd
  | .approveAndMint verifier creditId comments =>
      (approveAndMint sha256 env s verifier creditId comments).map Prod.snd
  | .rejectCredit verifier creditId reason =>
      (rejectCredit env s verifier creditId reason).map Prod.snd
  | .transferCredit fromAddr toAddr creditId =>
      (transferCredit env s fromAddr toAddr creditId).map Prod.snd
  | .getCredit creditId => (s.readCredit creditId).map fun _ => s
  | .getProvenance _ => .ok s
  | .getCreditsByIssuer _ _ _ => .ok s
  | .getOwner creditId => (s.getOwner creditId).map fun _ => s
  | .getCreditsByOwner _ => .ok s
  | .markRetired caller creditId => (markRetired env s caller creditId).map Prod.snd
  | .init admin threshold quorum => (s.init admin threshold quorum).map Prod.snd
  | .getConfig => s.readConfig.map fun _ => s
  | .updateConfig admin verifierThreshold verifierQuorum approvalWindow protocolFeeBps
      bufferPoolPct =>
      (updateConfig env s admin verifierThreshold verifierQuorum approvalWindow protocolFeeBps
        bufferPoolPct).map Prod.snd
  | .addVerifier admin verifier => (addVerifier env s admin verifier).map Prod.snd
  | .removeVerifier admin verifier => (removeVerifier env s admin verifier).map Prod.snd
  | .mintBridged bridge toAddr metadata =>
      (mintBridged sha256 env s bridge toAddr metadata).map Prod.snd
  | .addBridge admin bridge => (addBridge env s admin bridge).map Prod.snd
  | .removeBridge admin bridge => (removeBridge env s admin bridge).map Prod.snd
  | .addRetirer admin retirer => (addRetirer env s admin retirer).map Prod.snd
  | .removeRetirer admin retirer => (removeRetirer env s admin retirer).map Prod.snd
  | .isRetirer _ => .ok s

/-- One transaction on the registry alone: a panic leaves the storage as it was. -/
def apply (s : CreditRegistry) (tx : Env × Call) : CreditRegistry :=
  match exec sha256 tx.1 s tx.2 with
  | .ok s' => s'
  | .error _ => s

end CreditRegistry

end CarbonVeritas
