/-
# Voting

`approve_and_mint` and `reject_credit` are one operation with two verdicts: they append a
record to the approval log of a pending credit and decide the credit if the records of that
verdict suffice under the stored configuration.  `exec_voteChange` says this once; every
other call leaves the logs.

`mint_soundness` : the log of a credit is the history of its votes.
-/
import CarbonVeritas.RegistryLifecycle

namespace CarbonVeritas

open Transition

namespace CreditRegistry

variable {sha256 : (n : ℕ) → BitVec n → Bytes32} {env : Env} {s s' : CreditRegistry}

/-! ## Ballots -/

/-- A vote as a call asks for it. -/
structure Ballot where
  verifier : Address
  creditId : ℕ
  approved : Bool
  comments : SorobanString

def Call.ballot : Call → Option Ballot
  | .approveAndMint verifier creditId comments => some ⟨verifier, creditId, true, comments⟩
  | .rejectCredit verifier creditId reason => some ⟨verifier, creditId, false, reason⟩
  | _ => none

/-- The record that the vote leaves in the log. -/
def Ballot.record (env : Env) (b : Ballot) : ApprovalRecord :=
  voteRecord env b.verifier b.approved b.comments

/-- The verdicts in the log of a credit, in order. -/
def verdicts (s : CreditRegistry) (id : ℕ) : List Bool :=
  (s.approvals id).map ApprovalRecord.approved

theorem countApprovals_eq (s : CreditRegistry) (id : ℕ) :
    s.countApprovals id = (s.verdicts id).count true := by
  unfold countApprovals verdicts List.count
  rw [List.countP_map]
  congr 1
  funext r
  cases hr : r.approved <;> simp [hr]

theorem countRejections_eq (s : CreditRegistry) (id : ℕ) :
    s.countRejections id = (s.verdicts id).count false := by
  unfold countRejections verdicts List.count
  rw [List.countP_map]
  congr 1
  funext r
  cases hr : r.approved <;> simp [hr]

theorem isVerifier_eq_true {v : Address} : s.isVerifier v = true ↔ v ∈ s.verifiers := by
  simp [isVerifier]

theorem hasApproval_eq_false {id : ℕ} {v : Address} :
    s.hasApproval id v = false ↔ ∀ r ∈ s.approvals id, r.verifier ≠ v := by
  simp [hasApproval]

/-- The votes suffice for the verdict, under this configuration. -/
def Decides (config : ContractConfig) (verdicts : List Bool) : Bool → Prop
  | true => config.verifierThreshold ≤ verdicts.count true
  | false => u32Sub config.verifierQuorum config.verifierThreshold < verdicts.count false

/-- The metadata of a decided credit. -/
def decided (sha256 : (n : ℕ) → BitVec n → Bytes32) (credit : CreditMetadata) (id : ℕ) :
    Bool → CreditMetadata
  | true => { credit with status := .active, tokenId := tokenIdOf sha256 id }
  | false => { credit with status := .rejected }

/-! ## What a call does to the logs -/

/-- A call that returns leaves the logs, or it is a vote. -/
inductive VoteChange (sha256 : (n : ℕ) → BitVec n → Bytes32) (env : Env)
    (s s' : CreditRegistry) : Call → Prop where
  | other {call : Call} (hcall : call.ballot = none) (hlog : s'.approvals = s.approvals)
      (hchange : CreditChange sha256 env s s' call) : VoteChange sha256 env s s' call
  | vote {call : Call} {b : Ballot} {credit : CreditMetadata} {config : ContractConfig}
      (hcall : call.ballot = some b) (hmay : MayVote env s b.verifier b.creditId credit)
      (hconfig : s.config = some config) (hconfig' : s'.config = some config)
      (hverifiers : s'.verifiers = s.verifiers)
      (hlog : s'.approvals = Function.update s.approvals b.creditId
        (s.approvals b.creditId ++ [b.record env]))
      (hcredits : Decides config (s'.verdicts b.creditId) b.approved ∧
          s'.credits = Function.update s.credits b.creditId
            (some (decided sha256 credit b.creditId b.approved)) ∨
        ¬ Decides config (s'.verdicts b.creditId) b.approved ∧ s'.credits = s.credits) :
      VoteChange sha256 env s s' call

/-- **Inversion.**  Only a vote writes a log, and it decides the credit exactly if the votes
of its verdict then suffice. -/
theorem exec_voteChange {call : Call} (h : exec sha256 env s call = .ok s') :
    VoteChange sha256 env s s' call := by
  have hchange := exec_creditChange h
  cases exec_returns h with
  | @mint verifier id comments credit config hvote hconfig hcount =>
      rw [countApprovals_eq] at hcount
      exact .vote (b := ⟨verifier, id, true, comments⟩) rfl hvote hconfig hconfig rfl rfl
        (Or.inl ⟨hcount, rfl⟩)
  | @approve verifier id comments credit config hvote hconfig hcount =>
      rw [countApprovals_eq] at hcount
      exact .vote (b := ⟨verifier, id, true, comments⟩) rfl hvote hconfig hconfig rfl rfl
        (Or.inr ⟨Nat.not_le.mpr hcount, rfl⟩)
  | @reject verifier id reason credit config hvote hconfig hcount =>
      rw [countRejections_eq] at hcount
      exact .vote (b := ⟨verifier, id, false, reason⟩) rfl hvote hconfig hconfig rfl rfl
        (Or.inl ⟨hcount, rfl⟩)
  | @oppose verifier id reason credit config hvote hconfig hcount =>
      rw [countRejections_eq] at hcount
      exact .vote (b := ⟨verifier, id, false, reason⟩) rfl hvote hconfig hconfig rfl rfl
        (Or.inr ⟨Nat.not_lt.mpr hcount, rfl⟩)
  | _ => exact .other rfl rfl hchange

/-- A vote leaves the other credits and their logs as they were. -/
theorem vote_frame {b : Ballot} {yes no : Prop} {credit : CreditMetadata}
    (hlog : s'.approvals = Function.update s.approvals b.creditId
      (s.approvals b.creditId ++ [b.record env]))
    (hcredits : yes ∧ s'.credits = Function.update s.credits b.creditId (some credit) ∨
      no ∧ s'.credits = s.credits) {id : ℕ} (hid : id ≠ b.creditId) :
    s'.credits id = s.credits id ∧ s'.approvals id = s.approvals id := by
  refine ⟨?_, by rw [hlog, Function.update_of_ne hid]⟩
  rcases hcredits with ⟨-, hcredits⟩ | ⟨-, hcredits⟩
  · rw [hcredits, Function.update_of_ne hid]
  · rw [hcredits]

/-- Only a stored credit has votes. -/
def LogsStored (s : CreditRegistry) : Prop := ∀ id, s.credits id = none → s.approvals id = []

theorem logsStored_empty : LogsStored empty := fun _ _ => rfl

theorem LogsStored.exec (h : LogsStored s) (hidx : CreditsIndexed s) {call : Call}
    (hexec : exec sha256 env s call = .ok s') : LogsStored s' := by
  intro id hnone
  -- no credit is ever removed
  have hbefore : s.credits id = none := by
    cases hm : s.credits id with
    | none => rfl
    | some m =>
        obtain ⟨m', hm', -⟩ := (exec_creditChange hexec).metadata hidx hm
        rw [hnone] at hm'
        cases hm'
  cases exec_voteChange hexec with
  | other _ hlog _ => rw [hlog, h id hbefore]
  | @vote b _ _ _ hmay _ _ _ hlog _ =>
      have hne : id ≠ b.creditId := by
        rintro rfl
        rw [hmay.stored] at hbefore
        cases hbefore
      rw [hlog, Function.update_of_ne hne, h id hbefore]

theorem LogsStored.apply (h : LogsStored s) (hidx : CreditsIndexed s) (tx : Env × Call) :
    LogsStored (apply sha256 s tx) :=
  apply_rule h fun _ hexec => h.exec hidx hexec

/-! ## The log of a credit -/

/-- A step of a run: the storage before the transaction, and the transaction. -/
abbrev RunStep := CreditRegistry × (Env × Call)

/-- The storage after the step. -/
def after (sha256 : (n : ℕ) → BitVec n → Bytes32) (p : RunStep) : CreditRegistry :=
  apply sha256 p.1 p.2

/-- The step adds the record `r` to the log of the credit `id`: a vote that its verifier
authorised, on a pending credit, while being in the verifier list and without an earlier
record. -/
structure Casts (sha256 : (n : ℕ) → BitVec n → Bytes32) (p : RunStep) (id : ℕ)
    (r : ApprovalRecord) : Prop where
  written : (after sha256 p).approvals id = p.1.approvals id ++ [r]
  authorised : p.2.1.Authorised r.verifier
  registered : r.verifier ∈ p.1.verifiers
  pending : ∃ m, p.1.credits id = some m ∧ m.status = .pending
  first : ∀ r' ∈ p.1.approvals id, r'.verifier ≠ r.verifier

/-- A step leaves the log of a credit, or it casts one vote. -/
theorem step_log (sha256 : (n : ℕ) → BitVec n → Bytes32) (p : RunStep) (id : ℕ) :
    (after sha256 p).approvals id = p.1.approvals id ∨ ∃ r, Casts sha256 p id r := by
  obtain ⟨s, env, call⟩ := p
  cases hexec : exec sha256 env s call with
  | error _ =>
      refine Or.inl ?_
      show (apply sha256 s (env, call)).approvals id = s.approvals id
      simp only [apply, hexec]
  | ok s' =>
      have hafter : after sha256 (s, env, call) = s' := apply_of_ok hexec
      cases exec_voteChange hexec with
      | other _ hlog _ =>
          rw [hafter, hlog]
          exact Or.inl rfl
      | @vote b credit config _ hmay _ _ _ hlog _ =>
          by_cases hid : id = b.creditId
          · subst hid
            refine Or.inr ⟨b.record env, ?_, hmay.authorised, isVerifier_eq_true.mp hmay.isVerifier,
              ⟨credit, hmay.stored, hmay.pending⟩, hasApproval_eq_false.mp hmay.fresh⟩
            rw [hafter, hlog, Function.update_self]
          · rw [hafter, hlog, Function.update_of_ne hid]
            exact Or.inl rfl

/-- A log only grows. -/
theorem log_prefix (sha256 : (n : ℕ) → BitVec n → Bytes32) (s : CreditRegistry)
    (ts : List (Env × Call)) (id : ℕ) :
    s.approvals id <+: (run (apply sha256) s ts).approvals id := by
  refine run_invariant (C := fun _ _ => True)
    (I := fun s' : CreditRegistry => s.approvals id <+: s'.approvals id) ?_ List.prefix_rfl
    fun _ _ => trivial
  intro u tx hu _
  rcases step_log sha256 (u, tx) id with hsame | ⟨r, hcast⟩
  · rwa [← hsame] at hu
  · refine hu.trans ?_
    show u.approvals id <+: (after sha256 (u, tx)).approvals id
    rw [hcast.written]
    exact List.prefix_append _ _

/-- No verifier votes twice on a credit. -/
theorem log_nodup (sha256 : (n : ℕ) → BitVec n → Bytes32) (ts : List (Env × Call)) (id : ℕ) :
    (((run (apply sha256) empty ts).approvals id).map ApprovalRecord.verifier).Nodup := by
  refine run_invariant (C := fun _ _ => True)
    (I := fun s : CreditRegistry => ((s.approvals id).map ApprovalRecord.verifier).Nodup) ?_
    List.nodup_nil fun _ _ => trivial
  intro u tx hu _
  show (((after sha256 (u, tx)).approvals id).map ApprovalRecord.verifier).Nodup
  rcases step_log sha256 (u, tx) id with hsame | ⟨r, hcast⟩
  · rw [hsame]
    exact hu
  · rw [hcast.written, List.map_append, List.map_singleton]
    refine List.nodup_append.mpr ⟨hu, List.pairwise_singleton _ _, ?_⟩
    intro v hv v' hv' heq
    obtain ⟨r', hr', rfl⟩ := List.mem_map.mp hv
    exact hcast.first r' hr' (heq.trans (List.mem_singleton.mp hv'))

/-- Every record was cast by a step of the run. -/
theorem record_cast (sha256 : (n : ℕ) → BitVec n → Bytes32) (ts : List (Env × Call)) (id : ℕ) :
    ∀ r ∈ (run (apply sha256) empty ts).approvals id,
      ∃ p ∈ steps (apply sha256) empty ts, Casts sha256 p id r := by
  refine history_invariant (C := fun _ _ => True)
    (I := fun hist s => ∀ r ∈ s.approvals id, ∃ p ∈ hist, Casts sha256 p id r) ?_ ?_
    fun _ _ => trivial
  · intro r hr
    cases hr
  · intro hist u tx ih _ r hr
    have hold : r ∈ u.approvals id → ∃ p ∈ hist ++ [(u, tx)], Casts sha256 p id r := by
      intro hmem
      obtain ⟨p, hp, hcast⟩ := ih r hmem
      exact ⟨p, List.mem_append_left _ hp, hcast⟩
    replace hr : r ∈ (after sha256 (u, tx)).approvals id := hr
    rcases step_log sha256 (u, tx) id with hsame | ⟨r', hcast⟩
    · rw [hsame] at hr
      exact hold hr
    · rw [hcast.written] at hr
      rcases List.mem_append.mp hr with hr | hr
      · exact hold hr
      · obtain rfl := List.mem_singleton.mp hr
        exact ⟨(u, tx), List.mem_append_right _ (List.mem_singleton.mpr rfl), hcast⟩

/-- A credit that is not pending stays so, and its log is closed. -/
theorem log_closed (sha256 : (n : ℕ) → BitVec n → Bytes32) (hidx : CreditsIndexed s) {id : ℕ}
    {m : CreditMetadata} (hm : s.credits id = some m) (hstatus : m.status ≠ .pending)
    (ts : List (Env × Call)) : (run (apply sha256) s ts).approvals id = s.approvals id := by
  have hinv : CreditsIndexed (run (apply sha256) s ts) ∧
      (∃ m', (run (apply sha256) s ts).credits id = some m' ∧ m'.status ≠ .pending) ∧
      (run (apply sha256) s ts).approvals id = s.approvals id := by
    refine run_invariant (C := fun _ _ => True)
      (I := fun u : CreditRegistry => CreditsIndexed u ∧
        (∃ m', u.credits id = some m' ∧ m'.status ≠ .pending) ∧ u.approvals id = s.approvals id)
      ?_ ⟨hidx, ⟨m, hm, hstatus⟩, rfl⟩ fun _ _ => trivial
    rintro u tx ⟨hu, ⟨m₁, hm₁, hstatus₁⟩, hlog⟩ -
    refine ⟨hu.apply tx, ?_, ?_⟩
    · obtain ⟨m₂, hm₂, -, hsame | hmove⟩ := apply_metadata sha256 hu tx hm₁
      · exact ⟨m₂, hm₂, by rwa [hsame]⟩
      · exact ⟨m₂, hm₂, hmove.ne_pending⟩
    · show (after sha256 (u, tx)).approvals id = s.approvals id
      rcases step_log sha256 (u, tx) id with hsame | ⟨r, hcast⟩
      · rw [hsame, hlog]
      · obtain ⟨m₂, hm₂, hpending⟩ := hcast.pending
        obtain rfl : m₁ = m₂ := Option.some.inj (hm₁.symm.trans hm₂)
        exact absurd hpending hstatus₁
  exact hinv.2.2

/-! ## Mints -/

/-- The step is a call of `approve_and_mint` that turns the credit `id` active. -/
structure MintsByVote (sha256 : (n : ℕ) → BitVec n → Bytes32) (p : RunStep) (id : ℕ) : Prop where
  call : ∃ verifier comments, p.2.2 = .approveAndMint verifier id comments
  pending : ∃ m, p.1.credits id = some m ∧ m.status = .pending
  active : ∃ m, (after sha256 p).credits id = some m ∧ m.status = .active

/-- The step is a call of `mint_bridged` that returns `id`. -/
structure MintsBridged (sha256 : (n : ℕ) → BitVec n → Bytes32) (p : RunStep) (id : ℕ) : Prop where
  call : ∃ bridge toAddr metadata, p.2.2 = .mintBridged bridge toAddr metadata
  created : createdId sha256 p.1 p.2 = some id

/-- The verifiers whose approvals are in the log. -/
def approvers (s : CreditRegistry) (id : ℕ) : List Address :=
  ((s.approvals id).filter ApprovalRecord.approved).map ApprovalRecord.verifier

theorem length_approvers (s : CreditRegistry) (id : ℕ) :
    (s.approvers id).length = (s.verdicts id).count true := by
  rw [← countApprovals_eq]
  unfold approvers countApprovals
  rw [List.length_map, List.countP_eq_length_filter]

/-- A mint by vote has found the threshold reached. -/
theorem MintsByVote.threshold {p : RunStep} {id : ℕ} (h : MintsByVote sha256 p id) :
    ∃ config, p.1.config = some config ∧
      config.verifierThreshold ≤ ((after sha256 p).approvers id).length := by
  obtain ⟨s, env, call⟩ := p
  obtain ⟨verifier, comments, rfl⟩ := h.call
  obtain ⟨m, hm, hpending⟩ := h.pending
  obtain ⟨m', hm', hactive⟩ := h.active
  -- the credit has changed, so the call returned and decided it
  have hchanged : ∀ s' : CreditRegistry,
      after sha256 (s, env, .approveAndMint verifier id comments) = s' →
      s'.credits id ≠ some m := by
    rintro s' rfl hsame
    obtain rfl : m' = m := Option.some.inj (hm'.symm.trans hsame)
    rw [hpending] at hactive
    cases hactive
  cases hexec : exec sha256 env s (.approveAndMint verifier id comments) with
  | error _ =>
      refine absurd hm (hchanged s ?_)
      show apply sha256 s (env, .approveAndMint verifier id comments) = s
      simp only [apply, hexec]
  | ok s' =>
      have hafter := hchanged s' (apply_of_ok hexec)
      have hs' : after sha256 (s, env, .approveAndMint verifier id comments) = s' :=
        apply_of_ok hexec
      cases exec_voteChange hexec with
      | other hcall _ _ => cases hcall
      | vote hcall _ hconfig _ _ _ hcredits =>
          obtain rfl := Option.some.inj hcall
          rcases hcredits with ⟨hdecides, -⟩ | ⟨-, hsame⟩
          · refine ⟨_, hconfig, ?_⟩
            rw [hs', length_approvers]
            exact hdecides
          · rw [hsame] at hafter
            exact absurd hm hafter

/-- What `mint_bridged` creates. -/
theorem mintsBridged_of_exec {bridge toAddr : Address} {metadata : CreditMetadata}
    (h : exec sha256 env s (.mintBridged bridge toAddr metadata) = .ok s') :
    MintsBridged sha256 (s, env, .mintBridged bridge toAddr metadata) (s.creditCounter + 1) := by
  refine ⟨⟨bridge, toAddr, metadata, rfl⟩, ?_⟩
  simp only [exec, map_eq_ok, Prod.exists] at h
  obtain ⟨id, _, hmint, -⟩ := h
  obtain ⟨-, -, -, rfl, -⟩ := mintBridged_eq_ok.mp hmint
  simp only [createdId, hmint]

/-- The credit `id` is stored as active or retired. -/
def Live (s : CreditRegistry) (id : ℕ) : Prop :=
  ∃ m, s.credits id = some m ∧ (m.status = .active ∨ m.status = .retired)

/-- A credit becomes live by one of the two mints. -/
theorem live_of_exec {call : Call} (h : exec sha256 env s call = .ok s') {id : ℕ}
    (hlive : Live s' id) : Live s id ∨ MintsByVote sha256 (s, env, call) id ∨
      MintsBridged sha256 (s, env, call) id := by
  have hafter : after sha256 (s, env, call) = s' := apply_of_ok h
  obtain ⟨m, hm, hstatus⟩ := hlive
  cases exec_creditChange h with
  | keep _ hcredits _ =>
      rw [hcredits] at hm
      exact Or.inl ⟨m, hm, hstatus⟩
  | transfer _ _ _ _ _ hcredits _ =>
      rw [hcredits] at hm
      exact Or.inl ⟨m, hm, hstatus⟩
  -- a submission is pending
  | submit _ _ hcredits _ =>
      rcases stored_of_update hcredits hm with ⟨-, rfl⟩ | hold
      · simp [submittedMetadata] at hstatus
      · exact Or.inl ⟨m, hold, hstatus⟩
  | mint _ _ _ hcredits _ =>
      rcases stored_of_update hcredits hm with ⟨rfl, -⟩ | hold
      · exact Or.inr (Or.inr (mintsBridged_of_exec h))
      · exact Or.inl ⟨m, hold, hstatus⟩
  -- the approval that reaches the threshold
  | approve hvote _ hcredits _ =>
      rcases stored_of_update hcredits hm with ⟨rfl, rfl⟩ | hold
      · exact Or.inr (Or.inl ⟨⟨_, _, rfl⟩, ⟨_, hvote.stored, hvote.pending⟩, _,
          by rw [hafter, hm], rfl⟩)
      · exact Or.inl ⟨m, hold, hstatus⟩
  | reject _ _ hcredits _ =>
      rcases stored_of_update hcredits hm with ⟨-, rfl⟩ | hold
      · simp at hstatus
      · exact Or.inl ⟨m, hold, hstatus⟩
  | retire _ _ hstored hactive _ hcredits _ =>
      rcases stored_of_update hcredits hm with ⟨rfl, -⟩ | hold
      · exact Or.inl ⟨_, hstored, Or.inl hactive⟩
      · exact Or.inl ⟨m, hold, hstatus⟩

/-- In a run, a live credit was minted. -/
theorem live_minted (sha256 : (n : ℕ) → BitVec n → Bytes32) (ts : List (Env × Call)) (id : ℕ) :
    Live (run (apply sha256) empty ts) id →
      ∃ p ∈ steps (apply sha256) empty ts, MintsByVote sha256 p id ∨ MintsBridged sha256 p id := by
  refine history_invariant (C := fun _ _ => True)
    (I := fun hist s => Live s id →
      ∃ p ∈ hist, MintsByVote sha256 p id ∨ MintsBridged sha256 p id) ?_ ?_ fun _ _ => trivial
  · rintro ⟨m, hm, -⟩
    cases hm
  · rintro hist u ⟨env, call⟩ ih - hlive
    have hold : Live u id → ∃ p ∈ hist ++ [(u, env, call)],
        MintsByVote sha256 p id ∨ MintsBridged sha256 p id := by
      intro h
      obtain ⟨p, hp, hmint⟩ := ih h
      exact ⟨p, List.mem_append_left _ hp, hmint⟩
    have hnew : (u, env, call) ∈ hist ++ [(u, env, call)] :=
      List.mem_append_right _ (List.mem_singleton.mpr rfl)
    cases hexec : exec sha256 env u call with
    | error _ =>
        refine hold ?_
        simpa only [apply, hexec] using hlive
    | ok s' =>
        rw [show apply sha256 u (env, call) = s' from apply_of_ok hexec] at hlive
        rcases live_of_exec hexec hlive with h | h
        · exact hold h
        · exact ⟨_, hnew, h⟩

/-! ## The main theorem -/

/-- **Mint soundness.**  In every run from the empty storage: a log only grows, holds no two
records of one verifier, and each record was cast by a transaction of the run; a vote that
turns a credit active leaves at least `verifier_threshold` approvals by distinct verifiers,
for the threshold stored at that moment; a credit that is active or retired and was not
minted by a bridge was minted by such a vote; and once a credit is not pending, its log
stays as it is. -/
theorem mint_soundness (sha256 : (n : ℕ) → BitVec n → Bytes32) (ts : List (Env × Call)) :
    (∀ us vs, ts = us ++ vs → ∀ id, (run (apply sha256) empty us).approvals id <+:
        (run (apply sha256) empty ts).approvals id) ∧
      (∀ id, (((run (apply sha256) empty ts).approvals id).map ApprovalRecord.verifier).Nodup) ∧
      (∀ id, ∀ r ∈ (run (apply sha256) empty ts).approvals id,
        ∃ p ∈ steps (apply sha256) empty ts, Casts sha256 p id r) ∧
      (∀ p ∈ steps (apply sha256) empty ts, ∀ id, MintsByVote sha256 p id →
        ((after sha256 p).approvers id).Nodup ∧ ∃ config, p.1.config = some config ∧
          config.verifierThreshold ≤ ((after sha256 p).approvers id).length) ∧
      (∀ id, Live (run (apply sha256) empty ts) id →
        (∀ p ∈ steps (apply sha256) empty ts, ¬ MintsBridged sha256 p id) →
        ∃ p ∈ steps (apply sha256) empty ts, MintsByVote sha256 p id) ∧
      ∀ us vs, ts = us ++ vs → ∀ id m, (run (apply sha256) empty us).credits id = some m →
        m.status ≠ .pending →
        (run (apply sha256) empty ts).approvals id = (run (apply sha256) empty us).approvals id :=
        by
  refine ⟨?_, log_nodup sha256 ts, record_cast sha256 ts, ?_, ?_, ?_⟩
  · rintro us vs rfl id
    rw [run_append]
    exact log_prefix sha256 _ vs id
  · intro p hp id hmint
    refine ⟨?_, hmint.threshold⟩
    obtain ⟨us, vs, -, hstate⟩ := (mem_steps_iff _ _ _ _).mp hp
    -- the log after the vote is the log of a run, so no verifier is in it twice
    have hnodup := log_nodup sha256 (us ++ [p.2]) id
    rw [run_concat, ← hstate] at hnodup
    exact hnodup.sublist (List.filter_sublist.map _)
  · intro id hlive hbridged
    obtain ⟨p, hp, hvote | hbridge⟩ := live_minted sha256 ts id hlive
    · exact ⟨p, hp, hvote⟩
    · exact absurd hbridge (hbridged p hp)
  · rintro us vs rfl id m hm hstatus
    rw [run_append]
    exact log_closed sha256 (creditsIndexed_empty.run us) hm hstatus vs

end CreditRegistry

end CarbonVeritas
