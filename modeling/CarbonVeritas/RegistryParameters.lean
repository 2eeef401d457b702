/-
# The parameters of the registry

`update_config` checks five bounds, and `add_verifier` a sixth.  `init` writes the same
configuration and checks two of the five; the window, the fee and the buffer it stores are
constants within their bounds, but the quorum may exceed `MAX_VERIFIERS`.

* `AdmissibleList` : what the verifier list is in every run;
* `InBounds` : what the stored parameters should be;
* `parameters_inBounds_iff` : they are, exactly if no `init` stores a quorum that is too large.
-/
import CarbonVeritas.RegistryLifecycle
import Mathlib.Data.List.Nodup

namespace CarbonVeritas

open Transition

namespace CreditRegistry

variable {sha256 : (n : ℕ) → BitVec n → Bytes32} {env : Env} {s s' : CreditRegistry}

/-! ## Verifier lists -/

/-- The lists of verifiers that `add_verifier` admits. -/
structure AdmissibleList (l : List Address) : Prop where
  nodup : l.Nodup
  length_le : l.length ≤ MAX_VERIFIERS

theorem AdmissibleList.step {call : Call} (h : AdmissibleList s.verifiers)
    (hexec : exec sha256 env s call = .ok s') : AdmissibleList s'.verifiers := by
  cases exec_returns hexec with
  | addVerifier _ hnew hlen =>
      constructor
      · refine List.nodup_append.mpr ⟨h.nodup, List.pairwise_singleton _ _, ?_⟩
        rintro a ha b hb rfl
        exact hnew (List.mem_singleton.mp hb ▸ ha)
      · rw [writeVerifiers_verifiers, List.length_append, List.length_singleton]
        exact hlen
  | removeVerifier _ _ =>
      exact ⟨h.nodup.filter _, Nat.le_trans (List.length_filter_le _ _) h.length_le⟩
  | _ => exact h

theorem AdmissibleList.apply (h : AdmissibleList s.verifiers) (tx : Env × Call) :
    AdmissibleList (apply sha256 s tx).verifiers :=
  apply_rule (P := fun s' => AdmissibleList s'.verifiers) h fun _ hexec => h.step hexec

theorem AdmissibleList.run (h : AdmissibleList s.verifiers) (ts : List (Env × Call)) :
    AdmissibleList (run (CreditRegistry.apply sha256) s ts).verifiers :=
  run_invariant (C := fun _ _ => True) (I := fun s : CreditRegistry => AdmissibleList s.verifiers)
    (fun _ tx hs _ => hs.apply tx) h fun _ _ => trivial

/-- The list can approve a credit. -/
def Reachable (threshold : ℕ) : Prop := ∃ l, AdmissibleList l ∧ threshold ≤ l.length

/-- There are as many addresses as a list may need. -/
theorem reachable_iff {threshold : ℕ} : Reachable threshold ↔ threshold ≤ MAX_VERIFIERS := by
  constructor
  · rintro ⟨l, hl, hle⟩
    exact Nat.le_trans hle hl.length_le
  · intro h
    refine ⟨(List.range threshold).map Address.account, ⟨?_, ?_⟩, ?_⟩
    · refine List.Nodup.map ?_ List.nodup_range
      intro a b hab
      exact Address.account.inj hab
    · simpa using h
    · simp

/-! ## Bounds -/

/-- The bounds of `update_config` on a configuration. -/
def ContractConfigBounds (config : ContractConfig) : Prop :=
  ConfigBounds config.verifierThreshold config.verifierQuorum config.approvalWindow
    config.protocolFeeBps config.bufferPoolPct

/-- A configuration is stored, it meets the bounds of `update_config`, the verifier list is
admissible, and the threshold is reachable. -/
structure InBounds (s : CreditRegistry) : Prop where
  config : ∃ config, s.config = some config ∧ ContractConfigBounds config ∧
    Reachable config.verifierThreshold
  verifiers : AdmissibleList s.verifiers

theorem inBounds_iff {config : ContractConfig} (hconfig : s.config = some config)
    (hverifiers : AdmissibleList s.verifiers) :
    InBounds s ↔ ContractConfigBounds config := by
  constructor
  · rintro ⟨⟨config', hconfig', hbounds, -⟩, -⟩
    obtain rfl := Option.some.inj (hconfig.symm.trans hconfig')
    exact hbounds
  · intro hbounds
    refine ⟨⟨config, hconfig, hbounds, reachable_iff.mpr ?_⟩, hverifiers⟩
    exact Nat.le_trans hbounds.threshold.2 hbounds.quorum

/-- What `init` leaves unchecked. -/
theorem initConfig_bounds_iff {admin : Address} {threshold quorum : ℕ}
    (h : 1 ≤ threshold ∧ threshold ≤ quorum) :
    ContractConfigBounds (initConfig admin threshold quorum) ↔ quorum ≤ MAX_VERIFIERS := by
  constructor
  · intro hbounds
    exact hbounds.quorum
  · intro hquorum
    refine ⟨h, hquorum, ?_, ?_, ?_⟩
    · show 3600 ≤ APPROVAL_WINDOW_SECONDS ∧ APPROVAL_WINDOW_SECONDS ≤ 90 * 24 * 3600
      decide
    · show PROTOCOL_FEE_BPS ≤ 1000
      decide
    · show 10 ≤ 50
      decide

theorem inBounds_init_iff {admin : Address} {threshold quorum : ℕ}
    (h : 1 ≤ threshold ∧ threshold ≤ quorum) (hverifiers : AdmissibleList s.verifiers) :
    InBounds (s.writeConfig (initConfig admin threshold quorum)) ↔ quorum ≤ MAX_VERIFIERS :=
  (inBounds_iff (s := s.writeConfig (initConfig admin threshold quorum)) rfl hverifiers).trans
    (initConfig_bounds_iff h)

/-- An `init` that returns stores a quorum of at most `MAX_VERIFIERS`. -/
def QuorumFits (_ : CreditRegistry) (tx : Env × Call) : Prop :=
  ∀ admin threshold quorum, tx.2 = .init admin threshold quorum →
    1 ≤ threshold ∧ threshold ≤ quorum → quorum ≤ MAX_VERIFIERS

/-- The storage after `init`. -/
theorem apply_init {admin : Address} {threshold quorum : ℕ}
    (h : 1 ≤ threshold ∧ threshold ≤ quorum) :
    apply sha256 s (env, .init admin threshold quorum) =
      s.writeConfig (initConfig admin threshold quorum) := by
  refine apply_of_ok ?_
  show (s.init admin threshold quorum).map Prod.snd = _
  have hok : s.init admin threshold quorum =
      .ok ((), s.writeConfig (initConfig admin threshold quorum)) := init_eq_ok.mpr ⟨h, rfl⟩
  rw [hok]
  rfl

/-- A call other than `init` keeps the parameters within the bounds. -/
theorem InBounds.step {call : Call} (h : InBounds s) (hexec : exec sha256 env s call = .ok s')
    (hinit : ∀ admin threshold quorum, call ≠ .init admin threshold quorum) : InBounds s' := by
  have hverifiers : AdmissibleList s'.verifiers := h.verifiers.step hexec
  cases exec_returns hexec with
  | init _ => exact absurd rfl (hinit _ _ _)
  | updateConfig _ hbounds _ =>
      refine ⟨⟨_, rfl, hbounds, reachable_iff.mpr ?_⟩, hverifiers⟩
      exact Nat.le_trans hbounds.threshold.2 hbounds.quorum
  | _ => exact ⟨h.config, hverifiers⟩

/-- One transaction keeps the parameters within the bounds exactly if it stores no quorum that
is too large. -/
theorem apply_inBounds_iff (sha256 : (n : ℕ) → BitVec n → Bytes32) (h : InBounds s)
    (tx : Env × Call) : InBounds (apply sha256 s tx) ↔ QuorumFits s tx := by
  obtain ⟨env, call⟩ := tx
  by_cases hinit : ∃ admin threshold quorum, call = .init admin threshold quorum ∧
      1 ≤ threshold ∧ threshold ≤ quorum
  · obtain ⟨admin, threshold, quorum, rfl, hparams⟩ := hinit
    have hiff : InBounds (apply sha256 s (env, .init admin threshold quorum)) ↔
        quorum ≤ MAX_VERIFIERS := by
      rw [apply_init hparams]
      exact inBounds_init_iff hparams h.verifiers
    rw [hiff]
    constructor
    · rintro hfits _ _ _ hcall -
      cases hcall
      exact hfits
    · intro hfits
      exact hfits admin threshold quorum rfl hparams
  · have hfits : QuorumFits s (env, call) := fun admin threshold quorum hcall hparams =>
      absurd ⟨admin, threshold, quorum, hcall, hparams⟩ hinit
    refine iff_of_true ?_ hfits
    refine apply_rule h fun s' hexec => h.step hexec ?_
    rintro admin threshold quorum rfl
    -- an `init` that returns has its parameters in order
    obtain ⟨r, hok, -⟩ := map_eq_ok.mp hexec
    exact hinit ⟨admin, threshold, quorum, rfl, (init_eq_ok.mp hok).1⟩

/-- **Parameters in bounds.**  Whatever happened before, and whatever `init` accepts: the
parameters are within the bounds in every later state if and only if neither this `init` nor a
later one stores a quorum above `MAX_VERIFIERS`. -/
theorem parameters_inBounds_iff (sha256 : (n : ℕ) → BitVec n → Bytes32)
    (before : List (Env × Call)) (env : Env) (admin : Address) (threshold quorum : ℕ)
    (hparams : 1 ≤ threshold ∧ threshold ≤ quorum) (ts : List (Env × Call)) :
    Throughout (apply sha256) InBounds
        (apply sha256 (run (apply sha256) empty before) (env, .init admin threshold quorum)) ts ↔
      quorum ≤ MAX_VERIFIERS ∧ Always (apply sha256) QuorumFits
        (apply sha256 (run (apply sha256) empty before) (env, .init admin threshold quorum))
        ts := by
  have hempty : AdmissibleList empty.verifiers := ⟨List.nodup_nil, Nat.zero_le _⟩
  have hverifiers : AdmissibleList (run (apply sha256) empty before).verifiers :=
    hempty.run before
  rw [apply_init hparams]
  have hfirst : InBounds ((run (apply sha256) empty before).writeConfig
      (initConfig admin threshold quorum)) ↔ quorum ≤ MAX_VERIFIERS :=
    inBounds_init_iff hparams hverifiers
  have hrun : InBounds ((run (apply sha256) empty before).writeConfig
      (initConfig admin threshold quorum)) →
      (Throughout (apply sha256) InBounds _ ts ↔ Always (apply sha256) QuorumFits _ ts) :=
    fun hbounds => throughout_iff_always (C := fun _ _ => True) (J := fun _ => True)
      (fun _ _ _ _ => trivial) (fun s tx _ _ hs => apply_inBounds_iff sha256 hs tx) trivial hbounds
      (fun _ _ => trivial)
  constructor
  · intro h
    exact ⟨hfirst.mp h.first, (hrun h.first).mp h⟩
  · rintro ⟨hquorum, hfits⟩
    exact (hrun (hfirst.mpr hquorum)).mpr hfits

/-! ### Two calls of `init` -/

/-- The admin, account 0, signs. -/
def signedByAdmin : Env where
  signers := [.account 0]
  invoker := none
  timestamp := 0
  sequence := 0

/-- One verifier joins. -/
def joining : List (Env × Call) := [(signedByAdmin, .addVerifier (.account 0) (.account 1))]

theorem quorumFits_joining (s : CreditRegistry) :
    Always (apply fun _ _ => 0#256) QuorumFits s joining := by
  refine always_of_forall_mem (fun tx htx s => ?_) s
  obtain rfl := List.mem_singleton.mp htx
  rintro admin threshold quorum hcall -
  cases hcall

/-- Two of three. -/
theorem parameters_inBounds_joining :
    Throughout (apply fun _ _ => 0#256) InBounds
      (apply (fun _ _ => 0#256) (run (apply fun _ _ => 0#256) empty [])
        (signedByAdmin, .init (.account 0) 2 3)) joining :=
  (parameters_inBounds_iff (fun _ _ => 0#256) [] signedByAdmin (.account 0) 2 3 (by decide)
    joining).mpr ⟨by decide, quorumFits_joining _⟩

/-- A threshold of 21 is accepted, and no list of verifiers reaches it. -/
theorem parameters_not_inBounds :
    ¬ ∀ (sha256 : (n : ℕ) → BitVec n → Bytes32) (before : List (Env × Call)) (env : Env)
      (admin : Address) (threshold quorum : ℕ), 1 ≤ threshold ∧ threshold ≤ quorum →
      ∀ ts : List (Env × Call), Throughout (apply sha256) InBounds
        (apply sha256 (run (apply sha256) empty before) (env, .init admin threshold quorum))
        ts := by
  intro h
  obtain ⟨config, hconfig, -, hreachable⟩ := (h (fun _ _ => 0#256) [] signedByAdmin (.account 0)
    21 21 (by decide) []).first.config
  cases hconfig
  exact absurd (reachable_iff.mp hreachable) (by decide)

end CreditRegistry

end CarbonVeritas
