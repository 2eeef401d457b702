/-
# What each registry entry point does

One lemma `f_eq_ok` for every entry point `f` of `CreditRegistry.lean` that writes:
exactly when the call returns, what it returns and the storage it leaves.  Later
files use these lemmas and never unfold an entry point.

`exec_returns` collects them, and the inversions of the later files read off it.  The
first is `exec_creditChange`, which says what a call can do to the credits and their
owners: nothing, one new credit, one decision of a pending credit, one transfer, or
one retirement.
-/
import CarbonVeritas.CreditRegistry

namespace CarbonVeritas

namespace CreditRegistry

variable {sha256 : (n : ℕ) → BitVec n → Bytes32} {env : Env} {s s' : CreditRegistry}

/-! ## Metadata checks -/

/-- The metadata that `validate_metadata` accepts. -/
structure ValidMetadata (m : CreditMetadata) : Prop where
  projectId : m.projectId ≠ []
  methodology : m.methodology ≠ []
  vintage : m.vintageStart ≠ 0 ∧ m.vintageEnd ≠ 0 ∧ m.vintageStart ≤ m.vintageEnd
  tonnes : 0 < m.tonnes ∧ m.tonnes ≤ MAX_TONNES
  geography : m.geography.length = 2
  sdgFlags : m.sdgFlags ≤ 0x3FFF
  bufferContributionPct : m.bufferContributionPct ≤ 20
  permanenceRating : m.permanenceRating ≤ 100
  additionalityType : m.additionalityType ≤ 2

/-- The validation passes exactly for valid metadata. -/
theorem validateMetadata_eq_ok {m : CreditMetadata} {u : Unit} :
    validateMetadata m = .ok u ↔ ValidMetadata m := by
  simp only [validateMetadata, bind_eq_ok, panicIf_eq_ok]
  constructor
  · rintro ⟨-, h1, -, h2, -, h3, -, h4, -, h5, -, h6, -, h7, -, h8, -, h9, h10⟩
    exact ⟨h1, h2, by omega, by omega, by omega, by omega, by omega, by omega, by omega⟩
  · rintro ⟨h1, h2, h3, h4, h5, h6, h7, h8, h9⟩
    exact ⟨(), h1, (), h2, (), by omega, (), by omega, (), by omega, (), by omega, (), by omega,
      (), by omega, (), by omega, by omega⟩

/-- The admin's authorisation is required, and a configuration to read the admin from. -/
theorem requireAdmin_eq_ok {u : Unit} :
    requireAdmin env s = .ok u ↔
      ∃ config, s.config = some config ∧ env.Authorised config.admin := by
  simp only [requireAdmin, readAdmin, readConfig, bind_eq_ok, orPanic_eq_ok, pure_eq_ok,
    Env.requireAuth_eq_ok]
  constructor
  · rintro ⟨_, ⟨config, hconfig, rfl⟩, hauth⟩
    exact ⟨config, hconfig, hauth⟩
  · rintro ⟨config, hconfig, hauth⟩
    exact ⟨_, ⟨config, hconfig, rfl⟩, hauth⟩

/-! ## Submission, votes and mints -/

/-- The metadata that `submit_credit` stores. -/
def submittedMetadata (env : Env) (metadata : CreditMetadata) (ipfsHash : SorobanString) :
    CreditMetadata :=
  { metadata with
    status := .pending, ipfsHash := ipfsHash, tokenId := 0#256, createdAt := env.timestamp }

/-- A submission that returns stores a pending credit under the next id. -/
theorem submitCredit_eq_ok {issuer : Address} {metadata : CreditMetadata}
    {ipfsHash : SorobanString} {id : ℕ} :
    submitCredit env s issuer metadata ipfsHash = .ok (id, s') ↔
      env.Authorised issuer ∧ ValidMetadata metadata ∧ id = s.creditCounter + 1 ∧
        s' = ((((s.nextCreditId.2.writeCredit (s.creditCounter + 1)
              (submittedMetadata env metadata ipfsHash)).writeOwner (s.creditCounter + 1)
              issuer).addCreditToIssuer issuer (s.creditCounter + 1)).addCreditToOwner issuer
              (s.creditCounter + 1)).emit
              (.creditSubmitted (s.creditCounter + 1) issuer ipfsHash) := by
  simp only [submitCredit, bind_eq_ok, Env.requireAuth_eq_ok, validateMetadata_eq_ok, pure_eq_ok,
    Prod.mk.injEq, nextCreditId_fst, exists_and_left, exists_const]
  constructor
  · rintro ⟨hauth, hvalid, rfl, rfl⟩
    exact ⟨hauth, hvalid, rfl, rfl⟩
  · rintro ⟨hauth, hvalid, rfl, rfl⟩
    exact ⟨hauth, hvalid, rfl, rfl⟩

/-- The metadata that `mint_bridged` stores for credit `id`. -/
def bridgedMetadata (sha256 : (n : ℕ) → BitVec n → Bytes32) (env : Env)
    (metadata : CreditMetadata) (id : ℕ) : CreditMetadata :=
  { metadata with
    status := .active, createdAt := env.timestamp, tokenId := tokenIdOf sha256 id }

/-- A bridged mint that returns stores an active credit under the next id. -/
theorem mintBridged_eq_ok {bridge toAddr : Address} {metadata : CreditMetadata} {id : ℕ} :
    mintBridged sha256 env s bridge toAddr metadata = .ok (id, s') ↔
      env.Authorised bridge ∧ s.bridges bridge = true ∧ ValidMetadata metadata ∧
        id = s.creditCounter + 1 ∧
        s' = (((s.nextCreditId.2.writeCredit (s.creditCounter + 1)
              (bridgedMetadata sha256 env metadata (s.creditCounter + 1))).writeOwner
              (s.creditCounter + 1) toAddr).addCreditToOwner toAddr (s.creditCounter + 1)).emit
              (.creditMinted (s.creditCounter + 1)) := by
  simp only [mintBridged, bind_eq_ok, Env.requireAuth_eq_ok, panicIf_eq_ok, not_not,
    validateMetadata_eq_ok, pure_eq_ok, Prod.mk.injEq, nextCreditId_fst,
    exists_and_left, exists_const]
  constructor
  · rintro ⟨hauth, hbridge, hvalid, rfl, rfl⟩
    exact ⟨hauth, hbridge, hvalid, rfl, rfl⟩
  · rintro ⟨hauth, hbridge, hvalid, rfl, rfl⟩
    exact ⟨hauth, hbridge, hvalid, rfl, rfl⟩

/-- The record of a vote. -/
def voteRecord (env : Env) (verifier : Address) (approved : Bool) (comments : SorobanString) :
    ApprovalRecord where
  verifier := verifier
  approved := approved
  timestamp := env.timestamp
  comments := comments

/-- The conditions that `approve_and_mint` and `reject_credit` share: a registered
verifier who has not voted votes on a pending credit. -/
structure MayVote (env : Env) (s : CreditRegistry) (verifier : Address) (id : ℕ)
    (credit : CreditMetadata) : Prop where
  authorised : env.Authorised verifier
  isVerifier : s.isVerifier verifier = true
  stored : s.credits id = some credit
  pending : credit.status = .pending
  fresh : s.hasApproval id verifier = false

/-- The storage after an approval, before the threshold is looked at. -/
def approvalRecorded (env : Env) (s : CreditRegistry) (verifier : Address) (id : ℕ)
    (comments : SorobanString) : CreditRegistry :=
  (s.writeApproval id (voteRecord env verifier true comments)).emit (.creditApproved id verifier)

/-- The storage after a rejection, before the threshold is looked at. -/
def rejectionRecorded (env : Env) (s : CreditRegistry) (verifier : Address) (id : ℕ)
    (reason : SorobanString) : CreditRegistry :=
  (s.writeApproval id (voteRecord env verifier false reason)).emit (.creditRejected id verifier)

/-- An approval that returns is recorded, and mints the credit when it reaches the threshold. -/
theorem approveAndMint_eq_ok {verifier : Address} {id : ℕ} {comments : SorobanString}
    {r : Option Bytes32} :
    approveAndMint sha256 env s verifier id comments = .ok (r, s') ↔
      ∃ credit config, MayVote env s verifier id credit ∧ s.config = some config ∧
        (config.verifierThreshold ≤ (approvalRecorded env s verifier id comments).countApprovals id
            ∧ r = some (tokenIdOf sha256 id)
            ∧ s' = ((approvalRecorded env s verifier id comments).writeCredit id
                { credit with status := .active, tokenId := tokenIdOf sha256 id }).emit
                (.creditMinted id)
          ∨ (approvalRecorded env s verifier id comments).countApprovals id
              < config.verifierThreshold
            ∧ r = none ∧ s' = approvalRecorded env s verifier id comments) := by
  simp only [approveAndMint, requireVerifier, readCredit, readConfig, bind_eq_ok,
    Env.requireAuth_eq_ok, panicIf_eq_ok, orPanic_eq_ok, not_not, ge_iff_le]
  constructor
  · rintro ⟨-, hauth, -, hver, credit, hcredit, -, hpending, -, hfresh, config, hconfig, h⟩
    refine ⟨credit, config, ⟨hauth, hver, hcredit, hpending, by simpa using hfresh⟩, hconfig, ?_⟩
    split_ifs at h with hcount
    · obtain ⟨rfl, rfl⟩ := Prod.mk.inj (pure_eq_ok.mp h)
      exact Or.inl ⟨hcount, rfl, rfl⟩
    · obtain ⟨rfl, rfl⟩ := Prod.mk.inj (pure_eq_ok.mp h)
      exact Or.inr ⟨Nat.not_le.mp hcount, rfl, rfl⟩
  · rintro ⟨credit, config, ⟨hauth, hver, hcredit, hpending, hfresh⟩, hconfig, h⟩
    refine ⟨(), hauth, (), hver, credit, hcredit, (), hpending, (), by simp [hfresh],
      config, hconfig, ?_⟩
    rcases h with ⟨hcount, rfl, rfl⟩ | ⟨hcount, rfl, rfl⟩
    · exact if_pos hcount
    · exact if_neg (Nat.not_le.mpr hcount)

/-- A rejection that returns is recorded, and rejects the credit when more than the quorum allows
oppose it. -/
theorem rejectCredit_eq_ok {verifier : Address} {id : ℕ} {reason : SorobanString} {b : Bool} :
    rejectCredit env s verifier id reason = .ok (b, s') ↔
      ∃ credit config, MayVote env s verifier id credit ∧ s.config = some config ∧
        (u32Sub config.verifierQuorum config.verifierThreshold
              < (rejectionRecorded env s verifier id reason).countRejections id
            ∧ b = true
            ∧ s' = (rejectionRecorded env s verifier id reason).writeCredit id
                { credit with status := .rejected }
          ∨ (rejectionRecorded env s verifier id reason).countRejections id
              ≤ u32Sub config.verifierQuorum config.verifierThreshold
            ∧ b = false ∧ s' = rejectionRecorded env s verifier id reason) := by
  simp only [rejectCredit, requireVerifier, readCredit, readConfig, bind_eq_ok,
    Env.requireAuth_eq_ok, panicIf_eq_ok, orPanic_eq_ok, not_not, gt_iff_lt]
  constructor
  · rintro ⟨-, hauth, -, hver, credit, hcredit, -, hpending, -, hfresh, config, hconfig, h⟩
    refine ⟨credit, config, ⟨hauth, hver, hcredit, hpending, by simpa using hfresh⟩, hconfig, ?_⟩
    split_ifs at h with hcount
    · obtain ⟨rfl, rfl⟩ := Prod.mk.inj (pure_eq_ok.mp h)
      exact Or.inl ⟨hcount, rfl, rfl⟩
    · obtain ⟨rfl, rfl⟩ := Prod.mk.inj (pure_eq_ok.mp h)
      exact Or.inr ⟨Nat.not_lt.mp hcount, rfl, rfl⟩
  · rintro ⟨credit, config, ⟨hauth, hver, hcredit, hpending, hfresh⟩, hconfig, h⟩
    refine ⟨(), hauth, (), hver, credit, hcredit, (), hpending, (), by simp [hfresh],
      config, hconfig, ?_⟩
    rcases h with ⟨hcount, rfl, rfl⟩ | ⟨hcount, rfl, rfl⟩
    · exact if_pos hcount
    · exact if_neg (Nat.not_lt.mpr hcount)

/-! ## Transfers and retirements -/

/-- The storage after a transfer. -/
def transferred (s : CreditRegistry) (fromAddr toAddr : Address) (id : ℕ) : CreditRegistry :=
  ((s.writeOwner id toAddr).addCreditToOwner toAddr id).emit
    (.creditTransferred id fromAddr toAddr)

@[simp] theorem transferred_owners (s : CreditRegistry) (fromAddr toAddr : Address) (id : ℕ) :
    (s.transferred fromAddr toAddr id).owners = Function.update s.owners id (some toAddr) := rfl

@[simp] theorem transferred_credits (s : CreditRegistry) (fromAddr toAddr : Address) (id : ℕ) :
    (s.transferred fromAddr toAddr id).credits = s.credits := rfl

/-- The owner of an active credit may transfer it. -/
theorem transferCredit_eq_ok {fromAddr toAddr : Address} {id : ℕ} {b : Bool} :
    transferCredit env s fromAddr toAddr id = .ok (b, s') ↔
      env.Authorised fromAddr ∧ s.owners id = some fromAddr ∧
        (∃ credit, s.credits id = some credit ∧ credit.status = .active) ∧
        b = true ∧ s' = transferred s fromAddr toAddr id := by
  simp only [transferCredit, readOwner, readCredit, bind_eq_ok, Env.requireAuth_eq_ok,
    panicIf_eq_ok, orPanic_eq_ok, pure_eq_ok, not_not, Prod.mk.injEq]
  constructor
  · rintro ⟨-, hauth, _, howner, -, rfl, credit, hcredit, -, hactive, rfl, rfl⟩
    exact ⟨hauth, howner, ⟨credit, hcredit, hactive⟩, rfl, rfl⟩
  · rintro ⟨hauth, howner, ⟨credit, hcredit, hactive⟩, rfl, rfl⟩
    exact ⟨(), hauth, _, howner, (), rfl, credit, hcredit, (), hactive, rfl, rfl⟩

/-- The owner that is read is the one stored. -/
theorem getOwner_eq_ok {id : ℕ} {owner : Address} :
    s.getOwner id = .ok owner ↔ s.owners id = some owner := by
  simp only [getOwner, readOwner, orPanic_eq_ok]

/-- A retirer may retire an active credit. -/
theorem markRetired_eq_ok {caller : Address} {id : ℕ} {u : Unit} :
    markRetired env s caller id = .ok (u, s') ↔
      env.Authorised caller ∧ s.retirers caller = true ∧
        ∃ credit, s.credits id = some credit ∧ credit.status = .active ∧
          s' = s.writeCredit id { credit with status := .retired } := by
  simp only [markRetired, readCredit, bind_eq_ok, Env.requireAuth_eq_ok,
    panicIf_eq_ok, orPanic_eq_ok, pure_eq_ok, not_not, Prod.mk.injEq, true_and]
  constructor
  · rintro ⟨-, hauth, -, hret, credit, hcredit, -, hactive, rfl⟩
    exact ⟨hauth, hret, credit, hcredit, hactive, rfl⟩
  · rintro ⟨hauth, hret, credit, hcredit, hactive, rfl⟩
    exact ⟨(), hauth, (), hret, credit, hcredit, (), hactive, rfl⟩

/-! ## Governance -/

/-- Whoever calls, `init` writes the configuration. -/
theorem init_eq_ok {admin : Address} {threshold quorum : ℕ} {u : Unit} :
    s.init admin threshold quorum = .ok (u, s') ↔
      (1 ≤ threshold ∧ threshold ≤ quorum) ∧
        s' = s.writeConfig (initConfig admin threshold quorum) := by
  simp only [init, bind_eq_ok, panicIf_eq_ok, pure_eq_ok, Prod.mk.injEq, true_and]
  constructor
  · rintro ⟨-, hparams, rfl⟩
    exact ⟨by omega, rfl⟩
  · rintro ⟨hparams, rfl⟩
    exact ⟨(), by omega, rfl⟩

/-- The bounds that `update_config` checks. -/
structure ConfigBounds (threshold quorum window fee buffer : ℕ) : Prop where
  threshold : 1 ≤ threshold ∧ threshold ≤ quorum
  quorum : quorum ≤ MAX_VERIFIERS
  window : 3600 ≤ window ∧ window ≤ 90 * 24 * 3600
  fee : fee ≤ 1000
  buffer : buffer ≤ 50

/-- The stored admin may change the configuration within its bounds. -/
theorem updateConfig_eq_ok {admin : Address} {threshold quorum window fee buffer : ℕ} {b : Bool} :
    updateConfig env s admin threshold quorum window fee buffer = .ok (b, s') ↔
      env.Authorised admin ∧ ConfigBounds threshold quorum window fee buffer ∧
        b = true ∧ ∃ config, s.config = some config ∧ admin = config.admin ∧
          s' = (s.writeConfig
            { config with
              verifierThreshold := threshold, verifierQuorum := quorum, approvalWindow := window,
              protocolFeeBps := fee, bufferPoolPct := buffer }).emit (.configUpdated admin) := by
  simp only [updateConfig, readAdmin, readConfig, bind_eq_ok, Env.requireAuth_eq_ok,
    panicIf_eq_ok, orPanic_eq_ok, pure_eq_ok, not_not, Prod.mk.injEq]
  constructor
  · rintro ⟨-, hauth, _, ⟨config, hconfig, rfl⟩, -, rfl, -, hparams, -, hwindow, -, hfee, -,
      hbuffer, config', hconfig', rfl, rfl⟩
    obtain rfl : config = config' := Option.some.inj (hconfig.symm.trans hconfig')
    exact ⟨hauth, ⟨by omega, by omega, hwindow, by omega, by omega⟩, rfl, config, hconfig, rfl, rfl⟩
  · rintro ⟨hauth, ⟨hthreshold, hquorum, hwindow, hfee, hbuffer⟩, rfl, config, hconfig, rfl, rfl⟩
    exact ⟨(), hauth, _, ⟨config, hconfig, rfl⟩, (), rfl, (), by omega, (), hwindow, (), by omega,
      (), by omega, config, hconfig, rfl, rfl⟩

/-- The two admin checks of the verifier, bridge and retirer entry points: `admin` is an
argument that need not be the stored admin, and both have to authorise the call. -/
def AdminCall (env : Env) (s : CreditRegistry) (admin : Address) : Prop :=
  env.Authorised admin ∧ ∃ config, s.config = some config ∧ env.Authorised config.admin

/-- The admin may add a new verifier while there is room. -/
theorem addVerifier_eq_ok {admin verifier : Address} {u : Unit} :
    addVerifier env s admin verifier = .ok (u, s') ↔
      AdminCall env s admin ∧ verifier ∉ s.verifiers ∧ s.verifiers.length < MAX_VERIFIERS ∧
        s' = s.writeVerifiers (s.verifiers ++ [verifier]) := by
  simp only [addVerifier, AdminCall, bind_eq_ok, Env.requireAuth_eq_ok, requireAdmin_eq_ok,
    panicIf_eq_ok, pure_eq_ok, Prod.mk.injEq, true_and, List.any_eq_true, decide_eq_true_eq,
    exists_eq_right, ge_iff_le, Nat.not_le]
  constructor
  · rintro ⟨-, hauth, -, hadmin, -, hnew, -, hlen, rfl⟩
    exact ⟨⟨hauth, hadmin⟩, hnew, hlen, rfl⟩
  · rintro ⟨⟨hauth, hadmin⟩, hnew, hlen, rfl⟩
    exact ⟨(), hauth, (), hadmin, (), hnew, (), hlen, rfl⟩

/-- The admin may remove a verifier that is listed. -/
theorem removeVerifier_eq_ok {admin verifier : Address} {u : Unit} :
    removeVerifier env s admin verifier = .ok (u, s') ↔
      AdminCall env s admin ∧ verifier ∈ s.verifiers ∧
        s' = s.writeVerifiers (s.verifiers.filter fun v => v ≠ verifier) := by
  simp only [removeVerifier, AdminCall, bind_eq_ok, Env.requireAuth_eq_ok, requireAdmin_eq_ok,
    panicIf_eq_ok, pure_eq_ok, Prod.mk.injEq, true_and, not_not, List.any_eq_true,
    decide_eq_true_eq, exists_eq_right]
  constructor
  · rintro ⟨-, hauth, -, hadmin, -, hmem, rfl⟩
    exact ⟨⟨hauth, hadmin⟩, hmem, rfl⟩
  · rintro ⟨⟨hauth, hadmin⟩, hmem, rfl⟩
    exact ⟨(), hauth, (), hadmin, (), hmem, rfl⟩

/-- The admin may authorise a bridge or take this back. -/
theorem changeBridge_eq_ok {authorized : Bool} {admin bridge : Address} {u : Unit} :
    changeBridge env s authorized admin bridge = .ok (u, s') ↔
      AdminCall env s admin ∧ s' = s.setAuthorizedBridge bridge authorized := by
  simp only [changeBridge, AdminCall, bind_eq_ok, Env.requireAuth_eq_ok, requireAdmin_eq_ok,
    pure_eq_ok, Prod.mk.injEq, true_and]
  constructor
  · rintro ⟨-, hauth, -, hadmin, rfl⟩
    exact ⟨⟨hauth, hadmin⟩, rfl⟩
  · rintro ⟨⟨hauth, hadmin⟩, rfl⟩
    exact ⟨(), hauth, (), hadmin, rfl⟩

/-- The admin may authorise a retirer or take this back. -/
theorem changeRetirer_eq_ok {authorized : Bool} {admin retirer : Address} {u : Unit} :
    changeRetirer env s authorized admin retirer = .ok (u, s') ↔
      AdminCall env s admin ∧ s' = s.setAuthorizedRetirer retirer authorized := by
  simp only [changeRetirer, AdminCall, bind_eq_ok, Env.requireAuth_eq_ok, requireAdmin_eq_ok,
    pure_eq_ok, Prod.mk.injEq, true_and]
  constructor
  · rintro ⟨-, hauth, -, hadmin, rfl⟩
    exact ⟨⟨hauth, hadmin⟩, rfl⟩
  · rintro ⟨⟨hauth, hadmin⟩, rfl⟩
    exact ⟨(), hauth, (), hadmin, rfl⟩

/-! ## All entry points -/

/-- The checks that a call has passed when it returns, and the storage that it leaves. -/
inductive Returns (sha256 : (n : ℕ) → BitVec n → Bytes32) (env : Env) (s : CreditRegistry) :
    Call → CreditRegistry → Prop where
  | submitCredit {issuer : Address} {metadata : CreditMetadata} {ipfsHash : SorobanString}
      (hauth : env.Authorised issuer) (hvalid : ValidMetadata metadata) :
      Returns sha256 env s (.submitCredit issuer metadata ipfsHash)
        (((((s.nextCreditId.2.writeCredit (s.creditCounter + 1)
          (submittedMetadata env metadata ipfsHash)).writeOwner (s.creditCounter + 1)
          issuer).addCreditToIssuer issuer (s.creditCounter + 1)).addCreditToOwner issuer
          (s.creditCounter + 1)).emit (.creditSubmitted (s.creditCounter + 1) issuer ipfsHash))
  | mintBridged {bridge toAddr : Address} {metadata : CreditMetadata}
      (hauth : env.Authorised bridge) (hbridge : s.bridges bridge = true)
      (hvalid : ValidMetadata metadata) :
      Returns sha256 env s (.mintBridged bridge toAddr metadata)
        ((((s.nextCreditId.2.writeCredit (s.creditCounter + 1)
          (bridgedMetadata sha256 env metadata (s.creditCounter + 1))).writeOwner
          (s.creditCounter + 1) toAddr).addCreditToOwner toAddr (s.creditCounter + 1)).emit
          (.creditMinted (s.creditCounter + 1)))
  | approve {verifier : Address} {id : ℕ} {comments : SorobanString} {credit : CreditMetadata}
      {config : ContractConfig} (hvote : MayVote env s verifier id credit)
      (hconfig : s.config = some config)
      (hcount : (approvalRecorded env s verifier id comments).countApprovals id <
        config.verifierThreshold) :
      Returns sha256 env s (.approveAndMint verifier id comments)
        (approvalRecorded env s verifier id comments)
  | mint {verifier : Address} {id : ℕ} {comments : SorobanString} {credit : CreditMetadata}
      {config : ContractConfig} (hvote : MayVote env s verifier id credit)
      (hconfig : s.config = some config)
      (hcount : config.verifierThreshold ≤
        (approvalRecorded env s verifier id comments).countApprovals id) :
      Returns sha256 env s (.approveAndMint verifier id comments)
        (((approvalRecorded env s verifier id comments).writeCredit id
          { credit with status := .active, tokenId := tokenIdOf sha256 id }).emit
          (.creditMinted id))
  | oppose {verifier : Address} {id : ℕ} {reason : SorobanString} {credit : CreditMetadata}
      {config : ContractConfig} (hvote : MayVote env s verifier id credit)
      (hconfig : s.config = some config)
      (hcount : (rejectionRecorded env s verifier id reason).countRejections id ≤
        u32Sub config.verifierQuorum config.verifierThreshold) :
      Returns sha256 env s (.rejectCredit verifier id reason)
        (rejectionRecorded env s verifier id reason)
  | reject {verifier : Address} {id : ℕ} {reason : SorobanString} {credit : CreditMetadata}
      {config : ContractConfig} (hvote : MayVote env s verifier id credit)
      (hconfig : s.config = some config)
      (hcount : u32Sub config.verifierQuorum config.verifierThreshold <
        (rejectionRecorded env s verifier id reason).countRejections id) :
      Returns sha256 env s (.rejectCredit verifier id reason)
        ((rejectionRecorded env s verifier id reason).writeCredit id
          { credit with status := .rejected })
  | transferCredit {fromAddr toAddr : Address} {id : ℕ} {credit : CreditMetadata}
      (hauth : env.Authorised fromAddr) (howner : s.owners id = some fromAddr)
      (hstored : s.credits id = some credit) (hactive : credit.status = .active) :
      Returns sha256 env s (.transferCredit fromAddr toAddr id) (transferred s fromAddr toAddr id)
  | markRetired {caller : Address} {id : ℕ} {credit : CreditMetadata}
      (hauth : env.Authorised caller) (hretirer : s.retirers caller = true)
      (hstored : s.credits id = some credit) (hactive : credit.status = .active) :
      Returns sha256 env s (.markRetired caller id)
        (s.writeCredit id { credit with status := .retired })
  | init {admin : Address} {threshold quorum : ℕ} (hparams : 1 ≤ threshold ∧ threshold ≤ quorum) :
      Returns sha256 env s (.init admin threshold quorum)
        (s.writeConfig (initConfig admin threshold quorum))
  | updateConfig {threshold quorum window fee buffer : ℕ} {config : ContractConfig}
      (hauth : env.Authorised config.admin)
      (hbounds : ConfigBounds threshold quorum window fee buffer)
      (hconfig : s.config = some config) :
      Returns sha256 env s (.updateConfig config.admin threshold quorum window fee buffer)
        ((s.writeConfig
          { config with
            verifierThreshold := threshold, verifierQuorum := quorum, approvalWindow := window,
            protocolFeeBps := fee, bufferPoolPct := buffer }).emit (.configUpdated config.admin))
  | addVerifier {admin verifier : Address} (hadmin : AdminCall env s admin)
      (hnew : verifier ∉ s.verifiers) (hlen : s.verifiers.length < MAX_VERIFIERS) :
      Returns sha256 env s (.addVerifier admin verifier)
        (s.writeVerifiers (s.verifiers ++ [verifier]))
  | removeVerifier {admin verifier : Address} (hadmin : AdminCall env s admin)
      (hmem : verifier ∈ s.verifiers) :
      Returns sha256 env s (.removeVerifier admin verifier)
        (s.writeVerifiers (s.verifiers.filter fun v => v ≠ verifier))
  | addBridge {admin bridge : Address} (hadmin : AdminCall env s admin) :
      Returns sha256 env s (.addBridge admin bridge) (s.setAuthorizedBridge bridge true)
  | removeBridge {admin bridge : Address} (hadmin : AdminCall env s admin) :
      Returns sha256 env s (.removeBridge admin bridge) (s.setAuthorizedBridge bridge false)
  | addRetirer {admin retirer : Address} (hadmin : AdminCall env s admin) :
      Returns sha256 env s (.addRetirer admin retirer) (s.setAuthorizedRetirer retirer true)
  | removeRetirer {admin retirer : Address} (hadmin : AdminCall env s admin) :
      Returns sha256 env s (.removeRetirer admin retirer) (s.setAuthorizedRetirer retirer false)
  -- the entry points that only read
  | getCredit {id : ℕ} : Returns sha256 env s (.getCredit id) s
  | getProvenance {id : ℕ} : Returns sha256 env s (.getProvenance id) s
  | getCreditsByIssuer {issuer : Address} {offset limit : ℕ} :
      Returns sha256 env s (.getCreditsByIssuer issuer offset limit) s
  | getOwner {id : ℕ} : Returns sha256 env s (.getOwner id) s
  | getCreditsByOwner {owner : Address} : Returns sha256 env s (.getCreditsByOwner owner) s
  | getConfig : Returns sha256 env s .getConfig s
  | isRetirer {retirer : Address} : Returns sha256 env s (.isRetirer retirer) s

/-- **Inversion.**  What is known of every call that returns; the other inversions of `exec`
read off it. -/
theorem exec_returns {call : Call} (h : exec sha256 env s call = .ok s') :
    Returns sha256 env s call s' := by
  cases call <;> simp only [exec, map_eq_ok, Prod.exists, Except.ok.injEq] at h
  case submitCredit =>
    obtain ⟨_, _, h, rfl⟩ := h
    obtain ⟨hauth, hvalid, -, rfl⟩ := submitCredit_eq_ok.mp h
    exact .submitCredit hauth hvalid
  case mintBridged =>
    obtain ⟨_, _, h, rfl⟩ := h
    obtain ⟨hauth, hbridge, hvalid, -, rfl⟩ := mintBridged_eq_ok.mp h
    exact .mintBridged hauth hbridge hvalid
  case approveAndMint =>
    obtain ⟨_, _, h, rfl⟩ := h
    obtain ⟨credit, config, hvote, hconfig, ⟨hcount, -, rfl⟩ | ⟨hcount, -, rfl⟩⟩ :=
      approveAndMint_eq_ok.mp h
    · exact .mint hvote hconfig hcount
    · exact .approve hvote hconfig hcount
  case rejectCredit =>
    obtain ⟨_, _, h, rfl⟩ := h
    obtain ⟨credit, config, hvote, hconfig, ⟨hcount, -, rfl⟩ | ⟨hcount, -, rfl⟩⟩ :=
      rejectCredit_eq_ok.mp h
    · exact .reject hvote hconfig hcount
    · exact .oppose hvote hconfig hcount
  case transferCredit =>
    obtain ⟨_, _, h, rfl⟩ := h
    obtain ⟨hauth, howner, ⟨credit, hstored, hactive⟩, -, rfl⟩ := transferCredit_eq_ok.mp h
    exact .transferCredit hauth howner hstored hactive
  case markRetired =>
    obtain ⟨_, _, h, rfl⟩ := h
    obtain ⟨hauth, hretirer, credit, hstored, hactive, rfl⟩ := markRetired_eq_ok.mp h
    exact .markRetired hauth hretirer hstored hactive
  case init =>
    obtain ⟨_, _, h, rfl⟩ := h
    obtain ⟨hparams, rfl⟩ := init_eq_ok.mp h
    exact .init hparams
  case updateConfig =>
    obtain ⟨_, _, h, rfl⟩ := h
    obtain ⟨hauth, hbounds, -, config, hconfig, rfl, rfl⟩ := updateConfig_eq_ok.mp h
    exact .updateConfig hauth hbounds hconfig
  case addVerifier =>
    obtain ⟨_, _, h, rfl⟩ := h
    obtain ⟨hadmin, hnew, hlen, rfl⟩ := addVerifier_eq_ok.mp h
    exact .addVerifier hadmin hnew hlen
  case removeVerifier =>
    obtain ⟨_, _, h, rfl⟩ := h
    obtain ⟨hadmin, hmem, rfl⟩ := removeVerifier_eq_ok.mp h
    exact .removeVerifier hadmin hmem
  case addBridge =>
    obtain ⟨_, _, h, rfl⟩ := h
    obtain ⟨hadmin, rfl⟩ := changeBridge_eq_ok.mp h
    exact .addBridge hadmin
  case removeBridge =>
    obtain ⟨_, _, h, rfl⟩ := h
    obtain ⟨hadmin, rfl⟩ := changeBridge_eq_ok.mp h
    exact .removeBridge hadmin
  case addRetirer =>
    obtain ⟨_, _, h, rfl⟩ := h
    obtain ⟨hadmin, rfl⟩ := changeRetirer_eq_ok.mp h
    exact .addRetirer hadmin
  case removeRetirer =>
    obtain ⟨_, _, h, rfl⟩ := h
    obtain ⟨hadmin, rfl⟩ := changeRetirer_eq_ok.mp h
    exact .removeRetirer hadmin
  -- the getters return what is stored, and write nothing
  case getCredit | getOwner | getConfig =>
    obtain ⟨_, -, rfl⟩ := h
    constructor
  case getProvenance | getCreditsByIssuer | getCreditsByOwner | isRetirer =>
    subst h
    constructor

/-! ## What a call can do to the credits -/

/-- The seven ways in which a call that returns changes the counter, the credits and
the owners. -/
inductive CreditChange (sha256 : (n : ℕ) → BitVec n → Bytes32) (env : Env)
    (s s' : CreditRegistry) : Call → Prop where
  | keep {call : Call} (hcounter : s'.creditCounter = s.creditCounter)
      (hcredits : s'.credits = s.credits) (howners : s'.owners = s.owners) :
      CreditChange sha256 env s s' call
  | submit {issuer : Address} {metadata : CreditMetadata} {ipfsHash : SorobanString}
      (hauth : env.Authorised issuer)
      (hcounter : s'.creditCounter = s.creditCounter + 1)
      (hcredits : s'.credits = Function.update s.credits (s.creditCounter + 1)
        (some (submittedMetadata env metadata ipfsHash)))
      (howners : s'.owners = Function.update s.owners (s.creditCounter + 1) (some issuer)) :
      CreditChange sha256 env s s' (.submitCredit issuer metadata ipfsHash)
  | mint {bridge toAddr : Address} {metadata : CreditMetadata}
      (hauth : env.Authorised bridge) (hbridge : s.bridges bridge = true)
      (hcounter : s'.creditCounter = s.creditCounter + 1)
      (hcredits : s'.credits = Function.update s.credits (s.creditCounter + 1)
        (some (bridgedMetadata sha256 env metadata (s.creditCounter + 1))))
      (howners : s'.owners = Function.update s.owners (s.creditCounter + 1) (some toAddr)) :
      CreditChange sha256 env s s' (.mintBridged bridge toAddr metadata)
  | approve {verifier : Address} {id : ℕ} {comments : SorobanString} {credit : CreditMetadata}
      (hvote : MayVote env s verifier id credit)
      (hcounter : s'.creditCounter = s.creditCounter)
      (hcredits : s'.credits = Function.update s.credits id
        (some { credit with status := .active, tokenId := tokenIdOf sha256 id }))
      (howners : s'.owners = s.owners) :
      CreditChange sha256 env s s' (.approveAndMint verifier id comments)
  | reject {verifier : Address} {id : ℕ} {reason : SorobanString} {credit : CreditMetadata}
      (hvote : MayVote env s verifier id credit)
      (hcounter : s'.creditCounter = s.creditCounter)
      (hcredits : s'.credits = Function.update s.credits id
        (some { credit with status := .rejected }))
      (howners : s'.owners = s.owners) :
      CreditChange sha256 env s s' (.rejectCredit verifier id reason)
  | transfer {fromAddr toAddr : Address} {id : ℕ} {credit : CreditMetadata}
      (hauth : env.Authorised fromAddr) (howner : s.owners id = some fromAddr)
      (hstored : s.credits id = some credit) (hactive : credit.status = .active)
      (hcounter : s'.creditCounter = s.creditCounter)
      (hcredits : s'.credits = s.credits)
      (howners : s'.owners = Function.update s.owners id (some toAddr)) :
      CreditChange sha256 env s s' (.transferCredit fromAddr toAddr id)
  | retire {caller : Address} {id : ℕ} {credit : CreditMetadata}
      (hauth : env.Authorised caller) (hretirer : s.retirers caller = true)
      (hstored : s.credits id = some credit) (hactive : credit.status = .active)
      (hcounter : s'.creditCounter = s.creditCounter)
      (hcredits : s'.credits = Function.update s.credits id
        (some { credit with status := .retired }))
      (howners : s'.owners = s.owners) :
      CreditChange sha256 env s s' (.markRetired caller id)

/-- **Inversion.**  Every call that returns makes one of the seven changes. -/
theorem exec_creditChange {call : Call} (h : exec sha256 env s call = .ok s') :
    CreditChange sha256 env s s' call := by
  cases exec_returns h with
  | submitCredit hauth _ => exact .submit hauth rfl rfl rfl
  | mintBridged hauth hbridge _ => exact .mint hauth hbridge rfl rfl rfl
  | mint hvote _ _ => exact .approve hvote rfl rfl rfl
  | reject hvote _ _ => exact .reject hvote rfl rfl rfl
  | transferCredit hauth howner hstored hactive =>
      exact .transfer hauth howner hstored hactive rfl rfl rfl
  | markRetired hauth hretirer hstored hactive =>
      exact .retire hauth hretirer hstored hactive rfl rfl rfl
  | _ => exact .keep rfl rfl rfl

/-- After a write, a stored credit is the one written or one from before. -/
theorem stored_of_update {i id : ℕ} {c m : CreditMetadata}
    (hcredits : s'.credits = Function.update s.credits i (some c))
    (hm : s'.credits id = some m) : id = i ∧ m = c ∨ s.credits id = some m := by
  rw [hcredits] at hm
  by_cases hid : id = i
  · rw [hid, Function.update_self] at hm
    exact Or.inl ⟨hid, (Option.some.inj hm).symm⟩
  · rw [Function.update_of_ne hid] at hm
    exact Or.inr hm

/-! ## Ids are used once -/

/-- The ids of the stored credits, and of the stored owners, are `1, …, creditCounter`. -/
def CreditsIndexed (s : CreditRegistry) : Prop :=
  ∀ id, ((s.credits id).isSome = true ↔ 1 ≤ id ∧ id ≤ s.creditCounter) ∧
    ((s.owners id).isSome = true ↔ 1 ≤ id ∧ id ≤ s.creditCounter)

/-- Before the first submission there is nothing to index. -/
theorem creditsIndexed_empty : CreditsIndexed empty := by
  intro id
  simp [empty]
  omega

/-- A credit with an owner has an id that was counted. -/
theorem CreditsIndexed.le_of_owner (h : CreditsIndexed s) {id : ℕ} {a : Address}
    (ha : s.owners id = some a) : 1 ≤ id ∧ id ≤ s.creditCounter :=
  (h id).2.mp (by simp [ha])

/-- A stored credit has an id that was counted. -/
theorem CreditsIndexed.le_of_credit (h : CreditsIndexed s) {id : ℕ} {m : CreditMetadata}
    (hm : s.credits id = some m) : 1 ≤ id ∧ id ≤ s.creditCounter :=
  (h id).1.mp (by simp [hm])

/-- The id that the next creation takes is not in use. -/
theorem CreditsIndexed.fresh (h : CreditsIndexed s) :
    s.credits (s.creditCounter + 1) = none ∧ s.owners (s.creditCounter + 1) = none := by
  obtain ⟨hcredits, howners⟩ := h (s.creditCounter + 1)
  constructor
  · rw [← Option.not_isSome_iff_eq_none, hcredits]
    omega
  · rw [← Option.not_isSome_iff_eq_none, howners]
    omega

/-- Creating the next credit keeps the ids in order. -/
theorem CreditsIndexed.create (h : CreditsIndexed s) {m : CreditMetadata} {a : Address}
    (hcounter : s'.creditCounter = s.creditCounter + 1)
    (hcredits : s'.credits = Function.update s.credits (s.creditCounter + 1) (some m))
    (howners : s'.owners = Function.update s.owners (s.creditCounter + 1) (some a)) :
    CreditsIndexed s' := by
  intro id
  rw [hcounter, hcredits, howners]
  by_cases hid : id = s.creditCounter + 1
  · subst hid
    simp
  · rw [Function.update_of_ne hid, Function.update_of_ne hid, (h id).1, (h id).2]
    omega

/-- Rewriting the metadata of a stored credit keeps the ids in order. -/
theorem CreditsIndexed.rewrite (h : CreditsIndexed s) {id : ℕ} {m m' : CreditMetadata}
    (hm : s.credits id = some m) (hcounter : s'.creditCounter = s.creditCounter)
    (hcredits : s'.credits = Function.update s.credits id (some m'))
    (howners : s'.owners = s.owners) : CreditsIndexed s' := by
  intro i
  rw [hcounter, hcredits, howners]
  refine ⟨?_, (h i).2⟩
  by_cases hi : i = id
  · subst hi
    simpa using h.le_of_credit hm
  · rw [Function.update_of_ne hi, (h i).1]

/-- A credit stays with its owner, or its owner transfers it while it is active. -/
theorem CreditChange.owner_moves {call : Call} (h : CreditChange sha256 env s s' call)
    (hidx : CreditsIndexed s) {id : ℕ} {a : Address} (ha : s.owners id = some a) :
    s'.owners id = some a ∨ ∃ b, call = .transferCredit a b id ∧ env.Authorised a ∧
      (∃ m, s.credits id = some m ∧ m.status = .active) ∧ s'.owners id = some b := by
  -- a creation writes at an id that is not in use
  have hnew : id ≠ s.creditCounter + 1 := by
    have := (hidx.le_of_owner ha).2
    omega
  cases h with
  | keep _ _ howners => exact Or.inl (by rw [howners, ha])
  | submit _ _ _ howners => exact Or.inl (by rw [howners, Function.update_of_ne hnew, ha])
  | mint _ _ _ _ howners => exact Or.inl (by rw [howners, Function.update_of_ne hnew, ha])
  | approve _ _ _ howners => exact Or.inl (by rw [howners, ha])
  | reject _ _ _ howners => exact Or.inl (by rw [howners, ha])
  | @transfer fromAddr toAddr i credit hfrom howner hstored hactive _ _ howners =>
      by_cases hi : id = i
      · subst hi
        obtain rfl : fromAddr = a := Option.some.inj (howner.symm.trans ha)
        exact Or.inr ⟨toAddr, rfl, hfrom, ⟨credit, hstored, hactive⟩,
          by rw [howners, Function.update_self]⟩
      · exact Or.inl (by rw [howners, Function.update_of_ne hi, ha])
  | retire _ _ _ _ _ _ howners => exact Or.inl (by rw [howners, ha])

/-- A credit stays with an owner who authorises nothing. -/
theorem CreditChange.owner_kept {call : Call} (h : CreditChange sha256 env s s' call)
    (hidx : CreditsIndexed s) {id : ℕ} {a : Address} (ha : s.owners id = some a)
    (hauth : ¬ env.Authorised a) : s'.owners id = some a := by
  rcases h.owner_moves hidx ha with hkept | ⟨_, -, hyes, -⟩
  · exact hkept
  · exact absurd hyes hauth

/-- Every call keeps the ids in step with the counter. -/
theorem CreditsIndexed.step {call : Call} (h : CreditsIndexed s)
    (hexec : exec sha256 env s call = .ok s') : CreditsIndexed s' := by
  cases exec_creditChange hexec with
  | keep hcounter hcredits howners =>
      intro id
      rw [hcounter, hcredits, howners]
      exact h id
  | submit _ hcounter hcredits howners => exact h.create hcounter hcredits howners
  | mint _ _ hcounter hcredits howners => exact h.create hcounter hcredits howners
  | approve hvote hcounter hcredits howners =>
      exact h.rewrite hvote.stored hcounter hcredits howners
  | reject hvote hcounter hcredits howners => exact h.rewrite hvote.stored hcounter hcredits howners
  | @transfer fromAddr toAddr id credit _ howner _ _ hcounter hcredits howners =>
      intro i
      rw [hcounter, hcredits, howners]
      refine ⟨(h i).1, ?_⟩
      by_cases hi : i = id
      · subst hi
        simpa using h.le_of_owner howner
      · rw [Function.update_of_ne hi, (h i).2]
  | retire _ _ hstored _ hcounter hcredits howners =>
      exact h.rewrite hstored hcounter hcredits howners

end CreditRegistry

end CarbonVeritas
