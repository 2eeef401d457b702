/-
# Governance of the registry

The governance state of a registry is its configuration, its verifier list and its
sets of authorised bridges and retirers.  `exec_governanceChange` says once which
calls can change it: the eight entry points that check the stored admin, and `init`,
which checks nothing.  Hence, in a run of transactions that the stored admin did not
authorise, the governance state is fixed exactly as long as every accepted `init`
stores the configuration that is already there (`governance_fixed_iff`).
-/
import CarbonVeritas.TransitionRun
import CarbonVeritas.RegistryLifecycle

namespace CarbonVeritas

open Transition

namespace CreditRegistry

variable {sha256 : (n : ℕ) → BitVec n → Bytes32} {env : Env} {s s' : CreditRegistry}

/-! ## Governance state -/

/-- The part of the storage that only the admin should change. -/
@[ext] structure Governance where
  config : Option ContractConfig
  verifiers : List Address
  bridges : Address → Bool
  retirers : Address → Bool

def governance (s : CreditRegistry) : Governance where
  config := s.config
  verifiers := s.verifiers
  bridges := s.bridges
  retirers := s.retirers

/-- The ways in which a call that returns treats the governance state. -/
inductive GovernanceChange (env : Env) (s s' : CreditRegistry) : Call → Prop where
  | keep {call : Call} (h : s'.governance = s.governance) : GovernanceChange env s s' call
  | byAdmin {call : Call} {config : ContractConfig} (hconfig : s.config = some config)
      (hauth : env.Authorised config.admin) (hcall : ∀ admin t q, call ≠ .init admin t q)
      (hretirers : ∀ a, s'.retirers a = true →
        s.retirers a = true ∨ ∃ admin, call = .addRetirer admin a) :
      GovernanceChange env s s' call
  | init {admin : Address} {threshold quorum : ℕ} (hparams : 1 ≤ threshold ∧ threshold ≤ quorum)
      (h : s'.governance =
        { s.governance with config := some (initConfig admin threshold quorum) }) :
      GovernanceChange env s s' (.init admin threshold quorum)

/-- A call of an entry point that checks the stored admin was authorised by that admin. -/
theorem AdminCall.change {admin : Address} (h : AdminCall env s admin) {call : Call}
    (hcall : ∀ admin t q, call ≠ .init admin t q)
    (hretirers : ∀ a, s'.retirers a = true →
      s.retirers a = true ∨ ∃ admin, call = .addRetirer admin a) :
    GovernanceChange env s s' call := by
  obtain ⟨-, config, hconfig, hauth⟩ := h
  exact .byAdmin hconfig hauth hcall hretirers

/-- **Inversion.**  Only `init` changes the governance state without the stored admin. -/
theorem exec_governanceChange {call : Call} (h : exec sha256 env s call = .ok s') :
    GovernanceChange env s s' call := by
  cases exec_returns h with
  | init hparams => exact .init hparams rfl
  | updateConfig hauth _ hconfig => exact .byAdmin hconfig hauth (by simp) fun _ ha => Or.inl ha
  | addVerifier hadmin _ _ => exact hadmin.change (by simp) fun _ ha => Or.inl ha
  | removeVerifier hadmin _ => exact hadmin.change (by simp) fun _ ha => Or.inl ha
  | addBridge hadmin => exact hadmin.change (by simp) fun _ ha => Or.inl ha
  | removeBridge hadmin => exact hadmin.change (by simp) fun _ ha => Or.inl ha
  | @addRetirer admin retirer hadmin =>
      refine hadmin.change (by simp) fun a ha => ?_
      by_cases hnew : a = retirer
      · exact Or.inr ⟨admin, by rw [hnew]⟩
      · rw [setAuthorizedRetirer_retirers, Function.update_of_ne hnew] at ha
        exact Or.inl ha
  | @removeRetirer admin retirer hadmin =>
      refine hadmin.change (by simp) fun a ha => ?_
      by_cases hgone : a = retirer
      · rw [hgone, setAuthorizedRetirer_retirers, Function.update_self] at ha
        cases ha
      · rw [setAuthorizedRetirer_retirers, Function.update_of_ne hgone] at ha
        exact Or.inl ha
  | _ => exact .keep rfl

/-- A retirer is added by `add_retirer` only. -/
theorem exec_retirers {call : Call} (h : exec sha256 env s call = .ok s') {a : Address}
    (ha : s'.retirers a = true) : s.retirers a = true ∨ ∃ admin, call = .addRetirer admin a := by
  cases exec_governanceChange h with
  | keep hsame =>
      have hretirers : s'.retirers = s.retirers := congrArg Governance.retirers hsame
      rw [hretirers] at ha
      exact Or.inl ha
  | byAdmin _ _ _ hretirers => exact hretirers a ha
  | init _ hsame =>
      have hretirers : s'.retirers = s.retirers := congrArg Governance.retirers hsame
      rw [hretirers] at ha
      exact Or.inl ha

/-! ## Transactions without the admin -/

/-- The stored admin, if there is one, did not authorise the transaction. -/
def NotByAdmin (s : CreditRegistry) (tx : Env × Call) : Prop :=
  ∀ config, s.config = some config → ¬ tx.1.Authorised config.admin

/-- The call is not an `init` with admissible thresholds that would store another
configuration than the present one. -/
def NoReinit (s : CreditRegistry) (tx : Env × Call) : Prop :=
  ∀ admin threshold quorum, tx.2 = .init admin threshold quorum →
    1 ≤ threshold ∧ threshold ≤ quorum → s.config = some (initConfig admin threshold quorum)

/-- One transaction without the admin keeps the governance state if and only if it is not
a re-initialisation. -/
theorem apply_governance_iff {tx : Env × Call} (htx : NotByAdmin s tx) :
    (apply sha256 s tx).governance = s.governance ↔ NoReinit s tx := by
  obtain ⟨env, call⟩ := tx
  constructor
  · rintro h admin threshold quorum rfl hparams
    have happly : apply sha256 s (env, .init admin threshold quorum)
        = s.writeConfig (initConfig admin threshold quorum) :=
      apply_of_ok (by
        simp only [exec, map_eq_ok, Prod.exists]
        exact ⟨(), _, init_eq_ok.mpr ⟨hparams, rfl⟩, rfl⟩)
    rw [happly] at h
    exact (congrArg Governance.config h).symm
  · intro hno
    refine apply_rule (P := fun s' => s'.governance = s.governance) rfl fun s' hexec => ?_
    cases exec_governanceChange hexec with
    | keep h => exact h
    | byAdmin hconfig' hauth _ _ => exact absurd hauth (htx _ hconfig')
    | init hparams h =>
        have hsame : s.config = some _ := hno _ _ _ rfl hparams
        rw [h, ← hsame]
        rfl

/-! ## The main theorem -/

/-- **Governance noninterference.**  From any state, in any run of transactions that the
admin stored at their time did not authorise, the configuration, the verifier list and the
sets of bridges and retirers stay what they are throughout the run if and only if no call
of the run is a re-initialisation. -/
theorem governance_fixed_iff (sha256 : (n : ℕ) → BitVec n → Bytes32) (s : CreditRegistry)
    (ts : List (Env × Call)) (hts : Always (apply sha256) NotByAdmin s ts) :
    Throughout (apply sha256) (fun s' => s'.governance = s.governance) s ts ↔
      Always (apply sha256) NoReinit s ts := by
  refine throughout_iff_always (J := fun _ => True) (fun _ _ _ _ => trivial) ?_ trivial rfl hts
  intro u tx _ htx hu
  rw [← hu]
  exact apply_governance_iff htx

/-- The registry after the deployer's `init`. -/
def deployed : CreditRegistry := empty.writeConfig (initConfig (.account 0) 2 3)

/-- A transaction of account 1. -/
def byAccountOne : Env where
  signers := [.account 1]
  invoker := none
  timestamp := 1000
  sequence := 5

theorem governance_fixed_addVerifier :
    Throughout (apply fun _ _ => 0#256) (fun s' => s'.governance = deployed.governance) deployed
      [(byAccountOne, .addVerifier (.account 1) (.account 1))] := by
  refine (governance_fixed_iff _ deployed _ ?_).mpr ?_
  · refine always_cons.mpr ⟨?_, always_nil _ _⟩
    intro config hconfig
    obtain rfl : initConfig (.account 0) 2 3 = config := Option.some.inj hconfig
    decide
  · refine always_cons.mpr ⟨?_, always_nil _ _⟩
    intro admin threshold quorum hcall
    cases hcall

/-- Account 1 makes itself the admin of a deployed registry by calling `init` again. -/
theorem governance_not_fixed :
    ¬ ∀ (sha256 : (n : ℕ) → BitVec n → Bytes32) (ts : List (Env × Call)) (tx : Env × Call)
      (config : ContractConfig), (run (apply sha256) empty ts).config = some config →
      ¬ tx.1.Authorised config.admin →
      (apply sha256 (run (apply sha256) empty ts) tx).governance =
        (run (apply sha256) empty ts).governance := by
  intro h
  have hfixed := h (fun _ _ => 0#256)
    [({ byAccountOne with signers := [.account 0] }, .init (.account 0) 2 3)]
    (byAccountOne, .init (.account 1) 1 1) (initConfig (.account 0) 2 3) rfl (by decide)
  have hadmin : some (initConfig (.account 1) 1 1) = some (initConfig (.account 0) 2 3) :=
    congrArg Governance.config hfixed
  exact absurd hadmin (by decide)

end CreditRegistry

end CarbonVeritas
