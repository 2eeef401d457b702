/-
# Votes under changing thresholds

A credit is decided in the call of a vote, under the configuration stored at that time.
Between two votes the configuration can change, and the votes already in the log are not
looked at again.

`undecided_iff` : a run keeps every pending credit undecided under the stored configuration
exactly as long as no configuration is written that decides one.
-/
import CarbonVeritas.VoteOutcome

namespace CarbonVeritas

open Transition

namespace CreditRegistry

variable {sha256 : (n : ℕ) → BitVec n → Bytes32} {env : Env} {s s' : CreditRegistry} {t q : ℕ}

/-! ## The configuration -/

/-- The threshold and the quorum that a call writes. -/
def Call.configWrite : Call → Option (ℕ × ℕ)
  | .init _ threshold quorum => some (threshold, quorum)
  | .updateConfig _ verifierThreshold verifierQuorum _ _ _ =>
      some (verifierThreshold, verifierQuorum)
  | _ => none

/-- A call leaves the configuration, or it writes admissible thresholds and nothing of the
credits. -/
theorem exec_config {call : Call} (h : exec sha256 env s call = .ok s') :
    (call.configWrite = none ∧ s'.config = s.config) ∨
      ∃ t q config, call.configWrite = some (t, q) ∧ s'.config = some config ∧
        ConfigHas t q config ∧ (1 ≤ t ∧ t ≤ q) ∧ s'.credits = s.credits ∧
        s'.approvals = s.approvals := by
  cases exec_returns h with
  | init hparams => exact Or.inr ⟨_, _, _, rfl, rfl, ⟨rfl, rfl⟩, hparams, rfl, rfl⟩
  | updateConfig _ hbounds _ =>
      exact Or.inr ⟨_, _, _, rfl, rfl, ⟨rfl, rfl⟩, hbounds.threshold, rfl, rfl⟩
  | _ => exact Or.inl ⟨rfl, rfl⟩

/-- The stored thresholds are those that `init` and `update_config` admit. -/
def ConfigAdmissible (s : CreditRegistry) : Prop :=
  ∀ config, s.config = some config →
    1 ≤ config.verifierThreshold ∧ config.verifierThreshold ≤ config.verifierQuorum

theorem ConfigAdmissible.exec (h : ConfigAdmissible s) {call : Call}
    (hexec : exec sha256 env s call = .ok s') : ConfigAdmissible s' := by
  intro config hconfig
  rcases exec_config hexec with ⟨-, hsame⟩ | ⟨t, q, config', -, hwritten, hhas, hparams, -, -⟩
  · rw [hsame] at hconfig
    exact h config hconfig
  · obtain rfl := Option.some.inj (hconfig.symm.trans hwritten)
    rw [hhas.1, hhas.2]
    exact hparams

/-! ## Undecided credits -/

/-- The votes of no pending credit decide it under the thresholds `t` and `q`. -/
def UndecidedBy (t q : ℕ) (s : CreditRegistry) : Prop :=
  ∀ id m, s.credits id = some m → m.status = .pending →
    s.countApprovals id < t ∧ s.countRejections id ≤ q - t

/-- The same for the stored configuration. -/
def Undecided (s : CreditRegistry) : Prop :=
  ∀ config, s.config = some config →
    UndecidedBy config.verifierThreshold config.verifierQuorum s

/-- An accepted write of a configuration finds every pending credit undecided by it. -/
def WritesUndecided (sha256 : (n : ℕ) → BitVec n → Bytes32) (s : CreditRegistry)
    (tx : Env × Call) : Prop :=
  ∀ t q, tx.2.configWrite = some (t, q) → (∃ s', exec sha256 tx.1 s tx.2 = .ok s') →
    UndecidedBy t q s

/-- What holds in every state, whatever the votes. -/
structure VotingInvariant (s : CreditRegistry) : Prop where
  indexed : CreditsIndexed s
  logs : LogsStored s
  config : ConfigAdmissible s

theorem VotingInvariant.apply (h : VotingInvariant s) (tx : Env × Call) :
    VotingInvariant (apply sha256 s tx) where
  indexed := h.indexed.apply tx
  logs := h.logs.apply h.indexed tx
  config := apply_rule h.config fun _ hexec => h.config.exec hexec

/-- A vote that leaves its credit pending leaves it undecided. -/
theorem undecided_vote {b : Ballot} {credit : CreditMetadata} {config : ContractConfig}
    (hmay : MayVote env s b.verifier b.creditId credit)
    (hlog : s'.approvals = Function.update s.approvals b.creditId
      (s.approvals b.creditId ++ [b.record env]))
    (hno : ¬ Decides config (s'.verdicts b.creditId) b.approved)
    (hparams : config.verifierThreshold ≤ config.verifierQuorum)
    (h : UndecidedBy config.verifierThreshold config.verifierQuorum s) :
    s'.countApprovals b.creditId < config.verifierThreshold ∧
      s'.countRejections b.creditId ≤ config.verifierQuorum - config.verifierThreshold := by
  obtain ⟨hayes, hnoes⟩ := h b.creditId credit hmay.stored hmay.pending
  have hverdicts := verdicts_vote hlog
  rw [countApprovals_eq] at hayes ⊢
  rw [countRejections_eq] at hnoes ⊢
  cases hb : b.approved with
  | true =>
      rw [hb] at hno hverdicts
      refine ⟨Nat.not_le.mp hno, ?_⟩
      rw [hverdicts, List.count_append]
      exact hnoes
  | false =>
      rw [hb] at hno hverdicts
      have hsub := u32Sub_le hparams
      have hle : (s'.verdicts b.creditId).count false ≤ _ := Nat.not_lt.mp hno
      refine ⟨?_, Nat.le_trans hle hsub⟩
      rw [hverdicts, List.count_append]
      exact hayes

/-- A credit that is pending after a call other than a vote was pending before, or is new. -/
theorem CreditChange.pending_of {call : Call} (h : CreditChange sha256 env s s' call) {id : ℕ}
    {m : CreditMetadata} (hm : s'.credits id = some m) (hpending : m.status = .pending) :
    s.credits id = some m ∨ id = s.creditCounter + 1 := by
  -- a decision and a retirement store another status
  have hrewrite : ∀ {i : ℕ} {c : CreditMetadata},
      s'.credits = Function.update s.credits i (some c) → c.status ≠ .pending →
      s.credits id = some m := by
    intro i c hcredits hc
    rcases stored_of_update hcredits hm with ⟨-, rfl⟩ | hold
    · exact absurd hpending hc
    · exact hold
  cases h with
  | keep _ hcredits _ => exact Or.inl (by rw [← hcredits, hm])
  | transfer _ _ _ _ _ hcredits _ => exact Or.inl (by rw [← hcredits, hm])
  | mint _ _ _ hcredits _ => exact Or.inl (hrewrite hcredits (by simp [bridgedMetadata]))
  | approve _ _ hcredits _ => exact Or.inl (hrewrite hcredits (by simp))
  | reject _ _ hcredits _ => exact Or.inl (hrewrite hcredits (by simp))
  | retire _ _ _ _ _ hcredits _ => exact Or.inl (hrewrite hcredits (by simp))
  | submit _ _ hcredits _ =>
      rcases stored_of_update hcredits hm with ⟨hid, -⟩ | hold
      · exact Or.inr hid
      · exact Or.inl hold

/-- A call that does not write the configuration keeps the pending credits undecided. -/
theorem Undecided.exec (h : Undecided s) (hinv : VotingInvariant s) {call : Call}
    (hexec : exec sha256 env s call = .ok s') (hcall : call.configWrite = none) :
    Undecided s' := by
  have hsame : s'.config = s.config := by
    rcases exec_config hexec with ⟨-, hsame⟩ | ⟨_, _, _, hwrite, -⟩
    · exact hsame
    · rw [hcall] at hwrite
      cases hwrite
  intro config hconfig id m hm hpending
  rw [hsame] at hconfig
  have hparams := hinv.config config hconfig
  cases exec_voteChange hexec with
  | @vote b credit config' _ hmay hconfig' _ _ hlog hcredits =>
      obtain rfl := Option.some.inj (hconfig.symm.trans hconfig')
      by_cases hid : id = b.creditId
      · subst hid
        refine undecided_vote hmay hlog ?_ hparams.2 (h config hconfig)
        rcases hcredits with ⟨-, hcredits⟩ | ⟨hno, -⟩
        · -- a decided credit is not pending
          rw [hcredits, Function.update_self] at hm
          obtain rfl := Option.some.inj hm
          rw [decided_status, statusOf_eq_pending] at hpending
          cases hpending
        · exact hno
      · obtain ⟨hcredit, happrovals⟩ := vote_frame hlog hcredits hid
        rw [hcredit] at hm
        unfold countApprovals countRejections
        rw [happrovals]
        exact h config hconfig id m hm hpending
  | other _ hlog hchange =>
      unfold countApprovals countRejections
      rw [hlog]
      rcases hchange.pending_of hm hpending with hold | rfl
      · exact h config hconfig id m hold hpending
      · rw [hinv.logs _ hinv.indexed.fresh.1]
        exact ⟨hparams.1, Nat.zero_le _⟩

/-- One transaction keeps the pending credits undecided if and only if it writes no
configuration that decides one. -/
theorem apply_undecided_iff (hinv : VotingInvariant s) (h : Undecided s) (tx : Env × Call) :
    Undecided (apply sha256 s tx) ↔ WritesUndecided sha256 s tx := by
  cases hexec : exec sha256 tx.1 s tx.2 with
  | error _ =>
      have hsame : apply sha256 s tx = s := by simp only [apply, hexec]
      rw [hsame]
      refine ⟨fun _ t q _ hok => ?_, fun _ => h⟩
      obtain ⟨s', hok⟩ := hok
      rw [hexec] at hok
      cases hok
  | ok s' =>
      rw [apply_of_ok hexec]
      rcases exec_config hexec with ⟨hnone, -⟩ | ⟨t, q, config, hwrite, hconfig, hhas, -, hcredits,
        happrovals⟩
      · refine ⟨fun _ t q hwrite => ?_, fun _ => h.exec hinv hexec hnone⟩
        rw [hnone] at hwrite
        cases hwrite
      · -- the counts are those from before, compared with the new thresholds
        have hiff : UndecidedBy t q s' ↔ UndecidedBy t q s := by
          unfold UndecidedBy countApprovals countRejections
          rw [hcredits, happrovals]
        obtain ⟨rfl, rfl⟩ := hhas
        constructor
        · intro hund t q hwrite' _
          obtain ⟨rfl, rfl⟩ := Prod.mk.inj (Option.some.inj (hwrite.symm.trans hwrite'))
          exact hiff.mp (hund config hconfig)
        · intro hwrites config' hconfig'
          obtain rfl := Option.some.inj (hconfig.symm.trans hconfig')
          exact hiff.mpr (hwrites _ _ hwrite ⟨s', hexec⟩)

/-- **Undecided while pending.**  In a run from the empty storage, every pending credit has
fewer approvals than the stored threshold and at most as many rejections as the stored quorum
exceeds it, in every state, if and only if every accepted write of a configuration (by
`update_config`, or by calling `init` again) finds the votes of every pending credit undecided
by the new thresholds.  No vote and no other call can break it. -/
theorem undecided_iff (sha256 : (n : ℕ) → BitVec n → Bytes32) (ts : List (Env × Call)) :
    Throughout (apply sha256) Undecided empty ts ↔
      Always (apply sha256) (WritesUndecided sha256) empty ts := by
  refine throughout_iff_always (C := fun _ _ => True) (J := VotingInvariant)
    (fun s tx h _ => h.apply tx) (fun s tx hinv _ h => apply_undecided_iff hinv h tx) ?_ ?_
    fun _ _ => trivial
  · refine ⟨creditsIndexed_empty, logsStored_empty, fun config hconfig => ?_⟩
    cases hconfig
  · intro config hconfig
    cases hconfig

/-- Verifier 1 approves the credit 1, and the admin lowers the threshold to 1: the credit has
the approvals it needs, and stays pending. -/
theorem not_always_undecided :
    ¬ ∀ (sha256 : (n : ℕ) → BitVec n → Bytes32) (ts : List (Env × Call)),
      Undecided (run (apply sha256) empty ts) := by
  intro h
  have hund := h (fun _ _ => 0#256) (Panel.setup ++ [(Panel.vote 1 true).tx 1,
    (Panel.signedBy 0, .updateConfig (.account 0) 1 3 604800 50 10)]) _ rfl 1 _ rfl rfl
  exact absurd hund.1 (by decide)

end CreditRegistry

end CarbonVeritas
