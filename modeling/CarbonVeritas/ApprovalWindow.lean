/-
# The approval window

The registry stores an approval window, `init` and `update_config` write it, and no call reads
it: a vote is accepted whatever the ledger time and the window (`vote_accepted_iff`).  So the
votes of a run are in time exactly if no vote that passes the checks of the code is late
(`approval_window_iff`).
-/
import CarbonVeritas.VoteOutcome

namespace CarbonVeritas

open Transition

namespace CreditRegistry

variable {sha256 : (n : ℕ) → BitVec n → Bytes32} {env : Env} {s s' : CreditRegistry}

/-! ## Accepted votes -/

/-- A vote is accepted exactly if it passes the checks and a configuration is stored. -/
theorem vote_accepted_iff {call : Call} {b : Ballot} (hcall : call.ballot = some b) :
    (∃ s', exec sha256 env s call = .ok s') ↔
      ∃ credit config, MayVote env s b.verifier b.creditId credit ∧ s.config = some config := by
  constructor
  · rintro ⟨s', hexec⟩
    cases exec_voteChange hexec with
    | other hnone _ _ =>
        rw [hcall] at hnone
        cases hnone
    | vote hcall' hmay hconfig _ _ _ _ =>
        obtain rfl := Option.some.inj (hcall.symm.trans hcall')
        exact ⟨_, _, hmay, hconfig⟩
  · rintro ⟨credit, config, hmay, hconfig⟩
    cases call with
    | approveAndMint verifier id comments =>
        cases hcall
        exact Vote.exec_ok sha256 (v := ⟨env, verifier, true, comments⟩) hmay hconfig
    | rejectCredit verifier id reason =>
        cases hcall
        exact Vote.exec_ok sha256 (v := ⟨env, verifier, false, reason⟩) hmay hconfig
    | _ => cases hcall

/-- The ledger time at which the window of the credit closes. -/
def windowEnd (credit : CreditMetadata) (config : ContractConfig) : ℕ :=
  credit.createdAt + config.approvalWindow

/-- If the transaction is an accepted vote, it comes before the window closes that is stored
at the time of the vote. -/
def VotesInTime (sha256 : (n : ℕ) → BitVec n → Bytes32) (s : CreditRegistry) (tx : Env × Call) :
    Prop :=
  ∀ b s' credit config, tx.2.ballot = some b → exec sha256 tx.1 s tx.2 = .ok s' →
    s.credits b.creditId = some credit → s.config = some config →
      tx.1.timestamp ≤ windowEnd credit config

/-- The transaction is a vote of a registered verifier who has not voted yet, on a pending
credit whose window has closed. -/
def LateVote (s : CreditRegistry) (tx : Env × Call) : Prop :=
  ∃ b credit config, tx.2.ballot = some b ∧ MayVote tx.1 s b.verifier b.creditId credit ∧
    s.config = some config ∧ windowEnd credit config < tx.1.timestamp

/-- A late vote is accepted as any other. -/
theorem votesInTime_iff {tx : Env × Call} : VotesInTime sha256 s tx ↔ ¬ LateVote s tx := by
  constructor
  · rintro hintime ⟨b, credit, config, hballot, hmay, hconfig, hlate⟩
    obtain ⟨s', hexec⟩ := (vote_accepted_iff hballot).mpr ⟨credit, config, hmay, hconfig⟩
    have hle := hintime b s' credit config hballot hexec hmay.stored hconfig
    omega
  · intro hnone b s' credit config hballot hexec hcredit hconfig
    obtain ⟨credit', config', hmay, hconfig'⟩ := (vote_accepted_iff hballot).mp ⟨s', hexec⟩
    obtain rfl := Option.some.inj (hcredit.symm.trans hmay.stored)
    obtain rfl := Option.some.inj (hconfig.symm.trans hconfig')
    by_contra hlate
    exact hnone ⟨b, credit, config, hballot, hmay, hconfig, Nat.not_le.mp hlate⟩

/-- Whether a vote is accepted depends neither on the ledger time nor on the stored window. -/
theorem vote_anytime {call : Call} {b : Ballot} (hcall : call.ballot = some b)
    {config : ContractConfig} (hconfig : s.config = some config) (time window : ℕ) :
    (∃ s', exec sha256 { env with timestamp := time }
        (s.writeConfig { config with approvalWindow := window }) call = .ok s') ↔
      ∃ s', exec sha256 env s call = .ok s' := by
  rw [vote_accepted_iff hcall, vote_accepted_iff hcall]
  constructor
  · rintro ⟨credit, -, ⟨hauth, hver, hstored, hpending, hfresh⟩, -⟩
    exact ⟨credit, config, ⟨hauth, hver, hstored, hpending, hfresh⟩, hconfig⟩
  · rintro ⟨credit, -, ⟨hauth, hver, hstored, hpending, hfresh⟩, -⟩
    exact ⟨credit, _, ⟨hauth, hver, hstored, hpending, hfresh⟩, rfl⟩

/-! ## The main theorem -/

/-- **The approval window.**  In a run of the registry, every accepted vote comes before the
window of its credit closes if and only if no vote of the run that passes the checks of
`approve_and_mint` and `reject_credit` comes later. -/
theorem approval_window_iff (sha256 : (n : ℕ) → BitVec n → Bytes32) (ts : List (Env × Call)) :
    Always (apply sha256) (VotesInTime sha256) empty ts ↔
      Always (apply sha256) (fun s tx => ¬ LateVote s tx) empty ts := by
  constructor
  · intro h
    exact h.mono fun _ _ => votesInTime_iff.mp
  · intro h
    exact h.mono fun _ _ => votesInTime_iff.mpr

/-- The second approval, after 999000 seconds, mints the credit; the window has 604800. -/
theorem approval_window_ignored :
    ¬ ∀ (sha256 : (n : ℕ) → BitVec n → Bytes32) (ts : List (Env × Call)),
      Always (apply sha256) (VotesInTime sha256) empty ts := by
  intro h
  have hlast := (always_concat.mp (h (fun _ _ => 0#256) (Panel.setup ++
    [(Panel.signedBy 1, .approveAndMint (.account 1) 1 [])] ++
    [({ Panel.signedBy 2 with timestamp := 1000000 }, .approveAndMint (.account 2) 1 [])]))).2
  have hle := hlast _ _ _ _ rfl rfl rfl rfl
  exact absurd hle (by decide)

end CreditRegistry

end CarbonVeritas
