/-
# What the votes decide

Under a configuration with threshold `t` and quorum `q`, the log of a credit is a vote with
two thresholds: `t` approvals accept it and `q - t + 1` rejections reject it.

* `Reflects` : the credit refines the count of `QuorumVote`, one ballot at a time;
* `voting_decides` : hence up to `q` votes decide it in any order alike, and the logs of a
  run under one configuration have exact sizes.
-/
import CarbonVeritas.QuorumVote
import CarbonVeritas.Voting

namespace CarbonVeritas

open Transition QuorumVote

namespace CreditRegistry

variable {sha256 : (n : ℕ) → BitVec n → Bytes32} {env : Env} {s s' : CreditRegistry} {t q : ℕ}

/-! ## The count of a credit -/

/-- The votes in the log of the credit. -/
def tallyOf (s : CreditRegistry) (id : ℕ) : Tally := fullCount (s.verdicts id)

theorem tallyOf_ayes (s : CreditRegistry) (id : ℕ) : (s.tallyOf id).ayes = s.countApprovals id :=
  (countApprovals_eq s id).symm

theorem tallyOf_noes (s : CreditRegistry) (id : ℕ) : (s.tallyOf id).noes = s.countRejections id :=
  (countRejections_eq s id).symm

/-- Every vote in the log is an aye or a no. -/
theorem tallyOf_length (s : CreditRegistry) (id : ℕ) :
    (s.tallyOf id).ayes + (s.tallyOf id).noes = (s.approvals id).length := by
  have hlen := List.count_true_add_count_false (s.verdicts id)
  rw [show (s.verdicts id).length = (s.approvals id).length from List.length_map _] at hlen
  exact hlen

/-- Without votes the tally is empty. -/
theorem tallyOf_of_empty {id : ℕ} (h : s.approvals id = []) : s.tallyOf id = {} := by
  unfold tallyOf verdicts
  rw [h]
  rfl

/-- A vote adds its verdict. -/
theorem verdicts_vote {b : Ballot} (hlog : s'.approvals = Function.update s.approvals b.creditId
    (s.approvals b.creditId ++ [b.record env])) :
    s'.verdicts b.creditId = s.verdicts b.creditId ++ [b.approved] := by
  unfold verdicts
  rw [hlog, Function.update_self, List.map_append, List.map_singleton]
  rfl

/-- One more vote in the log is one more in the tally. -/
theorem tallyOf_vote {b : Ballot} (hlog : s'.approvals = Function.update s.approvals b.creditId
    (s.approvals b.creditId ++ [b.record env])) :
    s'.tallyOf b.creditId = (s.tallyOf b.creditId).add b.approved := by
  unfold tallyOf
  rw [verdicts_vote hlog, fullCount_concat]

/-- The configuration has the threshold `t` and the quorum `q`. -/
def ConfigHas (t q : ℕ) (config : ContractConfig) : Prop :=
  config.verifierThreshold = t ∧ config.verifierQuorum = q

/-- The comparisons of the two entry points are those of the vote: a ballot on an open count
decides it exactly if it reaches its own threshold. -/
theorem decides_iff {config : ContractConfig} (hconfig : ConfigHas t q config) (htq : t ≤ q)
    (hq : q < 2 ^ 32) {bs : List Bool} (b : Bool)
    (hopen : outcome t (q - t + 1) (fullCount bs) = none) :
    Decides config (bs ++ [b]) b ↔
      outcome t (q - t + 1) (fullCount (bs ++ [b])) = some b := by
  obtain ⟨rfl, rfl⟩ := hconfig
  obtain ⟨hayes, hnoes⟩ := outcome_eq_none.mp hopen
  cases b with
  | true =>
      rw [outcome_eq_true]
      exact Iff.rfl
  | false =>
      have hayes' : (fullCount (bs ++ [false])).ayes = (fullCount bs).ayes := by
        simp [fullCount]
      rw [outcome_eq_false, hayes']
      show u32Sub _ _ < (fullCount (bs ++ [false])).noes ↔ _
      rw [u32Sub_of_le hq htq]
      omega

/-! ## One vote -/

/-- A decision of a verifier, with the transaction that submits it. -/
structure Vote where
  env : Env
  verifier : Address
  approved : Bool
  comments : SorobanString

namespace Vote

def ballot (v : Vote) (id : ℕ) : Ballot := ⟨v.verifier, id, v.approved, v.comments⟩

/-- The call that submits the decision on the credit `id`. -/
def call (id : ℕ) (v : Vote) : Call :=
  match v.approved with
  | true => .approveAndMint v.verifier id v.comments
  | false => .rejectCredit v.verifier id v.comments

def tx (id : ℕ) (v : Vote) : Env × Call := (v.env, v.call id)

/-- Who decides what; the rest is the transaction. -/
def decision (v : Vote) : Address × Bool := (v.verifier, v.approved)

/-- The call of a vote casts its ballot. -/
theorem call_ballot (v : Vote) (id : ℕ) : (v.call id).ballot = some (v.ballot id) := by
  obtain ⟨env, verifier, approved, comments⟩ := v
  cases approved with
  | true => rfl
  | false => rfl

/-- A vote that passes the checks returns. -/
theorem exec_ok (sha256 : (n : ℕ) → BitVec n → Bytes32) {v : Vote} {id : ℕ}
    {credit : CreditMetadata} {config : ContractConfig}
    (hmay : MayVote v.env s v.verifier id credit) (hconfig : s.config = some config) :
    ∃ s', exec sha256 v.env s (v.call id) = .ok s' := by
  obtain ⟨env, verifier, approved, comments⟩ := v
  cases approved with
  | true =>
      have hvote : ∃ r s', approveAndMint sha256 env s verifier id comments = .ok (r, s') := by
        by_cases hcount : config.verifierThreshold ≤
            (approvalRecorded env s verifier id comments).countApprovals id
        · exact ⟨_, _, approveAndMint_eq_ok.mpr
            ⟨credit, config, hmay, hconfig, Or.inl ⟨hcount, rfl, rfl⟩⟩⟩
        · exact ⟨_, _, approveAndMint_eq_ok.mpr
            ⟨credit, config, hmay, hconfig, Or.inr ⟨Nat.not_le.mp hcount, rfl, rfl⟩⟩⟩
      obtain ⟨r, s', hvote⟩ := hvote
      exact ⟨s', map_eq_ok.mpr ⟨(r, s'), hvote, rfl⟩⟩
  | false =>
      have hvote : ∃ r s', rejectCredit env s verifier id comments = .ok (r, s') := by
        by_cases hcount : u32Sub config.verifierQuorum config.verifierThreshold <
            (rejectionRecorded env s verifier id comments).countRejections id
        · exact ⟨_, _, rejectCredit_eq_ok.mpr
            ⟨credit, config, hmay, hconfig, Or.inl ⟨hcount, rfl, rfl⟩⟩⟩
        · exact ⟨_, _, rejectCredit_eq_ok.mpr
            ⟨credit, config, hmay, hconfig, Or.inr ⟨Nat.not_lt.mp hcount, rfl, rfl⟩⟩⟩
      obtain ⟨r, s', hvote⟩ := hvote
      exact ⟨s', map_eq_ok.mpr ⟨(r, s'), hvote, rfl⟩⟩

end Vote

/-- The status of a credit with this outcome. -/
def statusOf : Option Bool → CreditStatus
  | none => .pending
  | some true => .active
  | some false => .rejected

/-- A credit is pending as long as nothing is decided. -/
theorem statusOf_eq_pending {o : Option Bool} : statusOf o = .pending ↔ o = none := by
  rcases o with _ | _ | _ <;> simp [statusOf]

/-- A credit is active when it is decided for. -/
theorem statusOf_eq_active {o : Option Bool} : statusOf o = .active ↔ o = some true := by
  rcases o with _ | _ | _ <;> simp [statusOf]

/-- A credit is rejected when it is decided against. -/
theorem statusOf_eq_rejected {o : Option Bool} : statusOf o = .rejected ↔ o = some false := by
  rcases o with _ | _ | _ <;> simp [statusOf]

/-- The metadata of a decided credit has the status of the decision. -/
theorem decided_status (sha256 : (n : ℕ) → BitVec n → Bytes32) (credit : CreditMetadata) (id : ℕ)
    (b : Bool) : (decided sha256 credit id b).status = statusOf (some b) := by
  cases b with
  | true => rfl
  | false => rfl

/-- A vote on an open count leaves the credit with the status of the new count. -/
theorem vote_status {b : Ballot} {credit : CreditMetadata} {config : ContractConfig}
    (hmay : MayVote env s b.verifier b.creditId credit)
    (hlog : s'.approvals = Function.update s.approvals b.creditId
      (s.approvals b.creditId ++ [b.record env]))
    (hcredits : Decides config (s'.verdicts b.creditId) b.approved ∧
        s'.credits = Function.update s.credits b.creditId
          (some (decided sha256 credit b.creditId b.approved)) ∨
      ¬ Decides config (s'.verdicts b.creditId) b.approved ∧ s'.credits = s.credits)
    (hhas : ConfigHas t q config) (htq : t ≤ q) (hq : q < 2 ^ 32)
    (hopen : outcome t (q - t + 1) (s.tallyOf b.creditId) = none) :
    ∃ m, s'.credits b.creditId = some m ∧
      m.status = statusOf (outcome t (q - t + 1) (s'.tallyOf b.creditId)) := by
  have hdecides := decides_iff hhas htq hq b.approved hopen
  rw [← verdicts_vote hlog] at hdecides
  rcases hcredits with ⟨hyes, hcredits⟩ | ⟨hno, hcredits⟩
  · refine ⟨decided sha256 credit b.creditId b.approved, ?_, ?_⟩
    · rw [hcredits, Function.update_self]
    · rw [decided_status]
      exact congrArg statusOf (hdecides.mp hyes).symm
  · -- the ballot did not decide for its own side, so the count is still open
    have hstill : outcome t (q - t + 1) (s'.tallyOf b.creditId) = none := by
      rw [tallyOf_vote hlog]
      rcases outcome_add hopen b.approved with hout | hout
      · rw [← tallyOf_vote hlog] at hout
        exact absurd (hdecides.mpr hout) hno
      · exact hout
    refine ⟨credit, ?_, ?_⟩
    · rw [hcredits, hmay.stored]
    · rw [hstill, hmay.pending]
      rfl

/-- The credit stands as the count `x` says: it refines the vote with the thresholds `t`
and `q - t + 1`. -/
structure Reflects (t q : ℕ) (s : CreditRegistry) (id : ℕ) (x : Tally) : Prop where
  votes : s.tallyOf id = x
  stored : ∃ m, s.credits id = some m ∧ m.status = statusOf (outcome t (q - t + 1) x)

/-- A vote on a credit that is not pending panics. -/
theorem apply_vote_of_decided (sha256 : (n : ℕ) → BitVec n → Bytes32) {id : ℕ}
    {m : CreditMetadata} (hm : s.credits id = some m) (hstatus : m.status ≠ .pending) (v : Vote) :
    apply sha256 s (v.tx id) = s := by
  refine apply_rule (P := fun s' => s' = s) rfl fun s' hexec => ?_
  cases exec_voteChange hexec with
  | other hcall _ _ =>
      rw [show (v.tx id).2.ballot = some (v.ballot id) from v.call_ballot id] at hcall
      cases hcall
  | vote hcall hmay _ _ _ _ _ =>
      obtain rfl := Option.some.inj ((v.call_ballot id).symm.trans hcall)
      obtain rfl := Option.some.inj (hm.symm.trans hmay.stored)
      exact absurd hmay.pending hstatus

/-- **Simulation.**  A vote of a registered verifier who has not voted is one ballot. -/
theorem Reflects.step (sha256 : (n : ℕ) → BitVec n → Bytes32) {id : ℕ} {x : Tally}
    (h : Reflects t q s id x) (htq : t ≤ q) (hq : q < 2 ^ 32) {config : ContractConfig}
    (hconfig : s.config = some config) (hhas : ConfigHas t q config) {v : Vote}
    (hregistered : v.verifier ∈ s.verifiers) (hauth : v.env.Authorised v.verifier)
    (hfirst : ∀ r ∈ s.approvals id, r.verifier ≠ v.verifier) :
    Reflects t q (apply sha256 s (v.tx id)) id (castBallot t (q - t + 1) x v.approved) ∧
      (apply sha256 s (v.tx id)).config = s.config ∧
      (apply sha256 s (v.tx id)).verifiers = s.verifiers ∧
      ∀ r ∈ (apply sha256 s (v.tx id)).approvals id, r ∈ s.approvals id ∨ r.verifier = v.verifier :=
    by
  obtain ⟨m, hm, hstatus⟩ := h.stored
  -- after the decision a vote is refused, before it a vote is one ballot
  cases hx : outcome t (q - t + 1) x with
  | some d =>
      have hdecided : m.status ≠ .pending := by
        intro hpending
        rw [hstatus, statusOf_eq_pending, hx] at hpending
        cases hpending
      rw [apply_vote_of_decided sha256 hm hdecided v, castBallot_of_decided hx]
      exact ⟨h, rfl, rfl, fun r hr => Or.inl hr⟩
  | none =>
      have hmay : MayVote v.env s v.verifier id m := by
        refine ⟨hauth, isVerifier_eq_true.mpr hregistered, hm, ?_, hasApproval_eq_false.mpr hfirst⟩
        rw [hstatus, hx]
        rfl
      obtain ⟨s', hexec⟩ := Vote.exec_ok sha256 hmay hconfig
      rw [show apply sha256 s (v.tx id) = s' from apply_of_ok hexec, castBallot_of_open hx]
      cases exec_voteChange hexec with
      | other hcall _ _ =>
          rw [v.call_ballot id] at hcall
          cases hcall
      | vote hcall hmay' hconfig₁ hconfig' hverifiers hlog hcredits =>
          obtain rfl := Option.some.inj ((v.call_ballot id).symm.trans hcall)
          obtain rfl := Option.some.inj (hm.symm.trans hmay'.stored)
          obtain rfl := Option.some.inj (hconfig.symm.trans hconfig₁)
          rw [← h.votes] at hx ⊢
          have hcount : s'.tallyOf id = (s.tallyOf id).add v.approved := tallyOf_vote hlog
          refine ⟨⟨hcount, ?_⟩, hconfig'.trans hconfig.symm, hverifiers, ?_⟩
          · rw [← hcount]
            exact vote_status hmay' hlog hcredits hhas htq hq hx
          · intro r hr
            have hlog' : s'.approvals id = s.approvals id ++ [(v.ballot id).record v.env] := by
              rw [hlog]
              exact Function.update_self _ _ _
            rw [hlog'] at hr
            rcases List.mem_append.mp hr with hr | hr
            · exact Or.inl hr
            · rw [List.mem_singleton.mp hr]
              exact Or.inr rfl

/-! ## A sequence of votes -/

/-- The credit `id` is pending, has no votes, and is decided by the thresholds `t` and `q`. -/
structure Opens (t q : ℕ) (s : CreditRegistry) (id : ℕ) : Prop where
  pending : ∃ m, s.credits id = some m ∧ m.status = .pending
  noVotes : s.approvals id = []
  config : ∃ config, s.config = some config ∧ ConfigHas t q config

/-- Distinct registered verifiers, each of whom authorises the transaction of its vote. -/
structure Eligible (s : CreditRegistry) (votes : List Vote) : Prop where
  distinct : (votes.map Vote.verifier).Nodup
  registered : ∀ v ∈ votes, v.verifier ∈ s.verifiers
  authorised : ∀ v ∈ votes, v.env.Authorised v.verifier

/-- The storage after the votes are submitted in this order. -/
def afterVotes (sha256 : (n : ℕ) → BitVec n → Bytes32) (s : CreditRegistry) (id : ℕ)
    (votes : List Vote) : CreditRegistry :=
  run (apply sha256) s (votes.map (Vote.tx id))

/-- **Refinement.**  Submitting votes is counting ballots. -/
theorem reflects_votes {id : ℕ} (hopens : Opens t q s id) (ht : 1 ≤ t) (htq : t ≤ q)
    (hq : q < 2 ^ 32) {votes : List Vote} (helig : Eligible s votes) :
    Reflects t q (afterVotes sha256 s id votes) id
      (tally t (q - t + 1) (votes.map Vote.approved)) := by
  obtain ⟨config, hconfig, hhas⟩ := hopens.config
  -- the log holds votes of verifiers who are done
  have hrun : Reflects t q (afterVotes sha256 s id votes) id
        (tally t (q - t + 1) (votes.map Vote.approved)) ∧
      (afterVotes sha256 s id votes).config = s.config ∧
      (afterVotes sha256 s id votes).verifiers = s.verifiers ∧
      ∀ r ∈ (afterVotes sha256 s id votes).approvals id,
        r.verifier ∈ votes.map Vote.verifier := by
    induction votes using List.reverseRecOn with
    | nil =>
        refine ⟨⟨tallyOf_of_empty hopens.noVotes, ?_⟩, rfl, rfl, fun r hr => ?_⟩
        · obtain ⟨m, hm, hpending⟩ := hopens.pending
          refine ⟨m, hm, ?_⟩
          rw [hpending]
          exact (statusOf_eq_pending.mpr (outcome_eq_none.mpr ⟨ht, Nat.succ_pos _⟩)).symm
        · rw [show (afterVotes sha256 s id []).approvals id = [] from hopens.noVotes] at hr
          cases hr
    | append_singleton votes v ih =>
        have hdistinct := helig.distinct
        rw [List.map_append, List.nodup_append] at hdistinct
        obtain ⟨hdistinct, -, hnew⟩ := hdistinct
        obtain ⟨href, hcfg, hver, hlog⟩ := ih ⟨hdistinct,
          fun w hw => helig.registered w (List.mem_append_left _ hw),
          fun w hw => helig.authorised w (List.mem_append_left _ hw)⟩
        have hv : v ∈ votes ++ [v] := List.mem_append_right _ (List.mem_singleton.mpr rfl)
        have hregistered : v.verifier ∈ (afterVotes sha256 s id votes).verifiers := by
          rw [hver]
          exact helig.registered v hv
        have hfirst : ∀ r ∈ (afterVotes sha256 s id votes).approvals id,
            r.verifier ≠ v.verifier :=
          fun r hr => hnew _ (hlog r hr) _ (List.mem_singleton.mpr rfl)
        have hconcat : afterVotes sha256 s id (votes ++ [v]) =
            apply sha256 (afterVotes sha256 s id votes) (v.tx id) := by
          unfold afterVotes
          rw [List.map_append, List.map_singleton, run_concat]
        obtain ⟨href', hcfg', hver', hlog'⟩ := href.step sha256 htq hq
          (hcfg.trans hconfig) hhas hregistered (helig.authorised v hv) hfirst
        rw [hconcat, List.map_append, List.map_singleton, List.map_append, List.map_singleton,
          tally_concat]
        refine ⟨href', hcfg'.trans hcfg, hver'.trans hver, fun r hr => ?_⟩
        rcases hlog' r hr with hold | hnew'
        · exact List.mem_append_left _ (hlog r hold)
        · exact List.mem_append_right _ (List.mem_singleton.mpr hnew')
  exact hrun.1

/-- The status of a credit, if it is stored. -/
def statusAt (s : CreditRegistry) (id : ℕ) : Option CreditStatus :=
  (s.credits id).map CreditMetadata.status

/-- The status of a credit is that of the outcome of its tally. -/
theorem Reflects.statusAt_eq {id : ℕ} {x : Tally} (h : Reflects t q s id x) :
    s.statusAt id = some (statusOf (outcome t (q - t + 1) x)) := by
  obtain ⟨m, hm, hstatus⟩ := h.stored
  unfold statusAt
  rw [hm, Option.map_some, hstatus]

/-- Up to `q` votes leave the credit with the status of the full count. -/
theorem statusAt_afterVotes {id : ℕ} (hopens : Opens t q s id) (ht : 1 ≤ t) (htq : t ≤ q)
    (hq : q < 2 ^ 32) {votes : List Vote} (helig : Eligible s votes) (hlen : votes.length ≤ q) :
    (afterVotes sha256 s id votes).statusAt id =
      some (statusOf (outcome t (q - t + 1) (fullCount (votes.map Vote.approved)))) := by
  rw [(reflects_votes hopens ht htq hq helig).statusAt_eq, outcome_tally]
  rw [List.length_map]
  omega

/-- The order of the votes does not matter. -/
theorem statusAt_afterVotes_perm {id : ℕ} (hopens : Opens t q s id) (ht : 1 ≤ t) (htq : t ≤ q)
    (hq : q < 2 ^ 32) {votes votes' : List Vote} (helig : Eligible s votes)
    (helig' : Eligible s votes') (hlen : votes.length ≤ q)
    (hperm : (votes.map Vote.approved).Perm (votes'.map Vote.approved)) :
    (afterVotes sha256 s id votes).statusAt id = (afterVotes sha256 s id votes').statusAt id := by
  have hfew : (votes.map Vote.approved).length < t + (q - t + 1) := by
    rw [List.length_map]
    omega
  rw [(reflects_votes hopens ht htq hq helig).statusAt_eq,
    (reflects_votes hopens ht htq hq helig').statusAt_eq, outcome_tally_perm hperm hfew]

/-! ## Logs of exact size -/

/-- The status and the log of a stored credit agree: an open count is pending, a decided one
has its status or has been retired since, and a credit without votes may have been minted by
a bridge. -/
structure Settled (t q : ℕ) (status : CreditStatus) (x : Tally) : Prop where
  sound : Sound t (q - t + 1) x
  pending : status = .pending → outcome t (q - t + 1) x = none
  rejected : status = .rejected → outcome t (q - t + 1) x = some false
  live : status ≠ .pending → status ≠ .rejected →
    outcome t (q - t + 1) x = some true ∨ x = {}

/-- Every log agrees with the status of its credit. -/
def LogsSettled (t q : ℕ) (s : CreditRegistry) : Prop :=
  ∀ id m, s.credits id = some m → Settled t q m.status (s.tallyOf id)

/-- Every stored configuration has the threshold `t` and the quorum `q`. -/
def ConfigFixed (t q : ℕ) (s : CreditRegistry) : Prop :=
  ∀ config, s.config = some config → ConfigHas t q config

/-- The status of the outcome of a sound tally is settled. -/
theorem settled_statusOf {x : Tally} (h : Sound t (q - t + 1) x) :
    Settled t q (statusOf (outcome t (q - t + 1) x)) x where
  sound := h
  pending := statusOf_eq_pending.mp
  rejected := statusOf_eq_rejected.mp
  live := by
    intro hpending hrejected
    rcases hx : outcome t (q - t + 1) x with _ | _ | _
    · exact absurd (statusOf_eq_pending.mpr hx) hpending
    · exact absurd (statusOf_eq_rejected.mpr hx) hrejected
    · exact Or.inl rfl

/-- A vote settles its own credit. -/
theorem LogsSettled.vote (h : LogsSettled t q s) {b : Ballot} {credit : CreditMetadata}
    {config : ContractConfig} (hmay : MayVote env s b.verifier b.creditId credit)
    (hhas : ConfigHas t q config) (htq : t ≤ q) (hq : q < 2 ^ 32)
    (hlog : s'.approvals = Function.update s.approvals b.creditId
      (s.approvals b.creditId ++ [b.record env]))
    (hcredits : Decides config (s'.verdicts b.creditId) b.approved ∧
        s'.credits = Function.update s.credits b.creditId
          (some (decided sha256 credit b.creditId b.approved)) ∨
      ¬ Decides config (s'.verdicts b.creditId) b.approved ∧ s'.credits = s.credits) :
    LogsSettled t q s' := by
  have hnone := (h b.creditId credit hmay.stored).pending hmay.pending
  obtain ⟨m, hm, hstatus⟩ := vote_status hmay hlog hcredits hhas htq hq hnone
  intro id m' hm'
  by_cases hid : id = b.creditId
  · subst hid
    obtain rfl : m = m' := Option.some.inj (hm.symm.trans hm')
    rw [hstatus]
    refine settled_statusOf ?_
    rw [tallyOf_vote hlog]
    exact Sound.add hnone b.approved
  · obtain ⟨hcredit, happrovals⟩ := vote_frame hlog hcredits hid
    rw [hcredit] at hm'
    unfold tallyOf verdicts
    rw [happrovals]
    exact h id m' hm'

/-- A call that leaves the logs settles what it writes: a new credit has no votes, and a
retirement finds its credit live. -/
theorem LogsSettled.other (h : LogsSettled t q s) (hlogs : LogsStored s)
    (hidx : CreditsIndexed s) (ht : 1 ≤ t) {call : Call} (hcall : call.ballot = none)
    (hlog : s'.approvals = s.approvals) (hchange : CreditChange sha256 env s s' call) :
    LogsSettled t q s' := by
  have hzero : Sound t (q - t + 1) {} := sound_zero ht
  have hopen : outcome t (q - t + 1) {} = none :=
    outcome_eq_none.mpr ⟨ht, Nat.succ_pos _⟩
  have hsame : ∀ id, s'.tallyOf id = s.tallyOf id := by
    intro id
    unfold tallyOf verdicts
    rw [hlog]
  -- a call that writes the credit `i` and leaves the log
  have hwrite : ∀ {i : ℕ} {c : CreditMetadata},
      s'.credits = Function.update s.credits i (some c) →
      Settled t q c.status (s.tallyOf i) → LogsSettled t q s' := by
    intro i c hcredits hc id m hm
    rw [hsame]
    rcases stored_of_update hcredits hm with ⟨rfl, rfl⟩ | hold
    · exact hc
    · exact h id m hold
  have hkeep : s'.credits = s.credits → LogsSettled t q s' := by
    intro hcredits id m hm
    rw [hcredits] at hm
    rw [hsame]
    exact h id m hm
  -- a new credit has an empty log
  have hfresh : s.tallyOf (s.creditCounter + 1) = {} :=
    tallyOf_of_empty (hlogs _ hidx.fresh.1)
  cases hchange with
  | keep _ hcredits _ => exact hkeep hcredits
  | transfer _ _ _ _ _ hcredits _ => exact hkeep hcredits
  -- a vote is no call without a ballot
  | approve _ _ _ _ => cases hcall
  | reject _ _ _ _ => cases hcall
  | submit _ _ hcredits _ =>
      refine hwrite hcredits ?_
      rw [hfresh]
      exact ⟨hzero, fun _ => hopen, nofun, fun h => absurd rfl h⟩
  | mint _ _ _ hcredits _ =>
      refine hwrite hcredits ?_
      rw [hfresh]
      exact ⟨hzero, nofun, nofun, fun _ _ => Or.inr rfl⟩
  | retire _ _ hstored hactive _ hcredits _ =>
      refine hwrite hcredits ?_
      have hlive := h _ _ hstored
      refine ⟨hlive.sound, nofun, nofun, fun _ _ => ?_⟩
      exact hlive.live (by simp [hactive]) (by simp [hactive])

/-- Every call keeps the statuses settled by the logs. -/
theorem LogsSettled.exec (h : LogsSettled t q s) (hlogs : LogsStored s)
    (hidx : CreditsIndexed s) (hfixed : ConfigFixed t q s) (ht : 1 ≤ t) (htq : t ≤ q)
    (hq : q < 2 ^ 32) {call : Call} (hexec : exec sha256 env s call = .ok s') :
    LogsSettled t q s' := by
  cases exec_voteChange hexec with
  | vote _ hmay hconfig _ _ hlog hcredits =>
      exact h.vote hmay (hfixed _ hconfig) htq hq hlog hcredits
  | other hcall hlog hchange => exact h.other hlogs hidx ht hcall hlog hchange

/-- In every run the statuses are settled by the logs. -/
theorem logsSettled_run (sha256 : (n : ℕ) → BitVec n → Bytes32) (ht : 1 ≤ t) (htq : t ≤ q)
    (hq : q < 2 ^ 32) {ts : List (Env × Call)}
    (hfixed : Throughout (apply sha256) (ConfigFixed t q) empty ts) :
    LogsSettled t q (run (apply sha256) empty ts) := by
  have hinv : (CreditsIndexed (run (apply sha256) empty ts) ∧
      LogsStored (run (apply sha256) empty ts)) ∧
      LogsSettled t q (run (apply sha256) empty ts) := by
    refine run_invariant (I := fun s => (CreditsIndexed s ∧ LogsStored s) ∧ LogsSettled t q s) ?_
      ⟨⟨creditsIndexed_empty, logsStored_empty⟩, ?_⟩ hfixed.always
    · rintro s tx ⟨⟨hidx, hlogs⟩, hs⟩ hconfig
      exact ⟨⟨hidx.apply tx, hlogs.apply hidx tx⟩,
        apply_rule hs fun s' hexec => hs.exec hlogs hidx hconfig ht htq hq hexec⟩
    · intro id m hm
      cases hm
  exact hinv.2

/-! ## The outcome of a vote -/

/-- The full count of the votes, by ayes and noes. -/
theorem fullCount_votes (votes : List Vote) :
    fullCount (votes.map Vote.approved) =
      { ayes := votes.countP fun v => v.approved, noes := votes.countP fun v => !v.approved } := by
  unfold fullCount List.count
  rw [List.countP_map, List.countP_map]
  congr 1
  · congr 1
    funext v
    cases hv : v.approved <;> simp [hv]
  · congr 1
    funext v
    cases hv : v.approved <;> simp [hv]

/-- Every vote is for or against. -/
theorem countP_votes (votes : List Vote) :
    (votes.countP fun v => v.approved) + (votes.countP fun v => !v.approved) = votes.length := by
  have hall := List.count_true_add_count_false (votes.map Vote.approved)
  have hcount := fullCount_votes votes
  have hayes : (votes.map Vote.approved).count true = votes.countP fun v => v.approved :=
    congrArg Tally.ayes hcount
  have hnoes : (votes.map Vote.approved).count false = votes.countP fun v => !v.approved :=
    congrArg Tally.noes hcount
  rw [← hayes, ← hnoes, hall, List.length_map]

/-- A credit minted by a vote keeps exactly `t` approvals. -/
theorem countApprovals_of_mint (sha256 : (n : ℕ) → BitVec n → Bytes32) (ht : 1 ≤ t) (htq : t ≤ q)
    (hq : q < 2 ^ 32) {ts : List (Env × Call)}
    (hfixed : Throughout (apply sha256) (ConfigFixed t q) empty ts) {p : RunStep}
    (hp : p ∈ steps (apply sha256) empty ts) {id : ℕ} (hmint : MintsByVote sha256 p id) :
    (run (apply sha256) empty ts).countApprovals id = t := by
  obtain ⟨us, vs, rfl, hstate⟩ := (mem_steps_iff _ _ _ _).mp hp
  have hafter : after sha256 p = run (apply sha256) empty (us ++ [p.2]) := by
    rw [run_concat, ← hstate]
    rfl
  have hsplit : us ++ p.2 :: vs = (us ++ [p.2]) ++ vs := by simp
  -- at the mint, the log has reached the threshold
  obtain ⟨config, hconfig, hthreshold⟩ := hmint.threshold
  have hhas : ConfigHas t q config := by
    refine hfixed us ⟨p.2 :: vs, rfl⟩ config ?_
    rw [← hstate]
    exact hconfig
  obtain ⟨m, hm, hactive⟩ := hmint.active
  have hsettled : LogsSettled t q (after sha256 p) := by
    rw [hafter]
    refine logsSettled_run sha256 ht htq hq fun ws hws => hfixed ws (hws.trans ?_)
    rw [hsplit]
    exact List.prefix_append _ _
  have hlive := hsettled id m hm
  have hayes : t ≤ ((after sha256 p).tallyOf id).ayes := by
    rw [tallyOf_ayes, countApprovals_eq, ← length_approvers, ← hhas.1]
    exact hthreshold
  have hexact := (hlive.sound.accepted (outcome_eq_true.mpr hayes)).1
  -- from then on the log is closed
  have hclosed : (run (apply sha256) empty (us ++ p.2 :: vs)).approvals id =
      (after sha256 p).approvals id := by
    rw [hsplit, run_append, ← hafter]
    refine log_closed sha256 ?_ hm (by simp [hactive]) vs
    rw [hafter]
    exact creditsIndexed_empty.run _
  unfold countApprovals
  rw [hclosed, ← hexact, tallyOf_ayes]
  rfl

/-- **Voting decides.**  Let `1 ≤ t ≤ q`, in the range of a `u32`.  On a pending credit without
votes, up to `q` distinct registered verifiers with one decision each leave the same status in
any two orders: active if at least `t` approve, rejected if more than `q - t` reject, and
pending otherwise.  And in every state of a run in which every stored configuration has the
threshold `t` and the quorum `q`, a pending credit has at most `q - 1` votes, a decided one at
most `q`, a rejected one exactly `q - t + 1` rejections and one minted by a vote exactly `t`
approvals; the subtraction of the two thresholds does not wrap. -/
theorem voting_decides (sha256 : (n : ℕ) → BitVec n → Bytes32) (t q : ℕ) (ht : 1 ≤ t)
    (htq : t ≤ q) (hq : q < 2 ^ 32) :
    (∀ (s : CreditRegistry) (id : ℕ) (votes votes' : List Vote), Opens t q s id →
      Eligible s votes → Eligible s votes' → votes.length ≤ q →
      (votes.map Vote.decision).Perm (votes'.map Vote.decision) →
      (afterVotes sha256 s id votes').statusAt id = (afterVotes sha256 s id votes).statusAt id ∧
      ((afterVotes sha256 s id votes).statusAt id = some .active ↔
        t ≤ votes.countP fun v => v.approved) ∧
      ((afterVotes sha256 s id votes).statusAt id = some .rejected ↔
        q - t < votes.countP fun v => !v.approved) ∧
      ((afterVotes sha256 s id votes).statusAt id = some .pending ↔
        (votes.countP fun v => v.approved) < t ∧ (votes.countP fun v => !v.approved) ≤ q - t)) ∧
    ∀ ts : List (Env × Call), Throughout (apply sha256) (ConfigFixed t q) empty ts →
      (∀ id m, (run (apply sha256) empty ts).credits id = some m →
        (m.status = .pending → ((run (apply sha256) empty ts).approvals id).length ≤ q - 1) ∧
        (m.status ≠ .pending → ((run (apply sha256) empty ts).approvals id).length ≤ q) ∧
        (m.status = .rejected →
          (run (apply sha256) empty ts).countRejections id = q - t + 1)) ∧
      (∀ p ∈ steps (apply sha256) empty ts, ∀ id, MintsByVote sha256 p id →
        (run (apply sha256) empty ts).countApprovals id = t) ∧
      ∀ config, (run (apply sha256) empty ts).config = some config →
        config.verifierThreshold ≤ config.verifierQuorum ∧
        u32Sub config.verifierQuorum config.verifierThreshold = q - t := by
  refine ⟨?_, fun ts hfixed => ⟨?_, ?_, ?_⟩⟩
  · intro s id votes votes' hopens helig helig' hlen hperm
    have happroved : (votes.map Vote.approved).Perm (votes'.map Vote.approved) := by
      have hsnd := hperm.map Prod.snd
      rw [List.map_map, List.map_map] at hsnd
      exact hsnd
    refine ⟨(statusAt_afterVotes_perm hopens ht htq hq helig helig' hlen happroved).symm, ?_⟩
    -- at most one of the two thresholds is reached
    have hall := countP_votes votes
    rw [statusAt_afterVotes hopens ht htq hq helig hlen, fullCount_votes]
    simp only [Option.some.injEq, statusOf_eq_active, statusOf_eq_rejected, statusOf_eq_pending,
      outcome_eq_true, outcome_eq_false, outcome_eq_none, true_and]
    omega
  · intro id m hm
    have hsettled := logsSettled_run sha256 ht htq hq hfixed id m hm
    rw [← tallyOf_length, ← tallyOf_noes]
    refine ⟨fun hpending => ?_, fun _ => ?_, fun hrejected => ?_⟩
    · have hopen := Sound.open_count (hsettled.pending hpending)
      omega
    · have hone := hsettled.sound.one
      omega
    · exact (hsettled.sound.rejected (hsettled.rejected hrejected)).1
  · intro p hp id hmint
    exact countApprovals_of_mint sha256 ht htq hq hfixed hp hmint
  · intro config hconfig
    obtain ⟨hthreshold, hquorum⟩ := hfixed.last config hconfig
    rw [hthreshold, hquorum]
    exact ⟨htq, u32Sub_of_le hq htq⟩

/-! A panel of three verifiers, two of whom have to approve. -/

namespace Panel

/-- A transaction of account `key`. -/
def signedBy (key : ℕ) : Env where
  signers := [.account key]
  invoker := none
  timestamp := 1000
  sequence := 5

def metadata : CreditMetadata where
  projectId := [86]
  methodology := [77]
  vintageStart := 1
  vintageEnd := 2
  tonnes := 1000
  geography := [66, 82]
  serialPrefix := [83]
  sdgFlags := 0
  permanenceRating := 0
  bufferContributionPct := 0
  additionalityType := 0
  ipfsHash := []
  status := .pending
  createdAt := 0
  tokenId := 0#256

/-- Account 0 registers the verifiers 1, 2 and 3, and account 4 submits the credit 1. -/
def setup : List (Env × Call) :=
  [(signedBy 0, .init (.account 0) 2 3),
   (signedBy 0, .addVerifier (.account 0) (.account 1)),
   (signedBy 0, .addVerifier (.account 0) (.account 2)),
   (signedBy 0, .addVerifier (.account 0) (.account 3)),
   (signedBy 4, .submitCredit (.account 4) metadata [73])]

def registry : CreditRegistry := run (apply fun _ _ => 0#256) empty setup

def vote (key : ℕ) (approved : Bool) : Vote := ⟨signedBy key, .account key, approved, []⟩

end Panel

/-- Two rejections of three decide, in either order. -/
theorem voting_decides_two_rejections :
    (afterVotes (fun _ _ => 0#256) Panel.registry 1
        [Panel.vote 1 true, Panel.vote 2 false, Panel.vote 3 false]).statusAt 1 = some .rejected ∧
      (afterVotes (fun _ _ => 0#256) Panel.registry 1
        [Panel.vote 3 false, Panel.vote 2 false, Panel.vote 1 true]).statusAt 1 =
      some .rejected := by
  obtain ⟨hsame, -, hrejected, -⟩ :=
    (voting_decides (fun _ _ => 0#256) 2 3 (by decide) (by decide) (by decide)).1 Panel.registry 1
      [Panel.vote 1 true, Panel.vote 2 false, Panel.vote 3 false]
      [Panel.vote 3 false, Panel.vote 2 false, Panel.vote 1 true]
      ⟨⟨_, rfl, rfl⟩, rfl, ⟨_, rfl, rfl, rfl⟩⟩ ⟨by decide, by decide, by decide⟩
      ⟨by decide, by decide, by decide⟩ (by decide) (by decide)
  have hfirst := hrejected.mpr (by decide)
  exact ⟨hfirst, hsame.trans hfirst⟩

end CreditRegistry

end CarbonVeritas
