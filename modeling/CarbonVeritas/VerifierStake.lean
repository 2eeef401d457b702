/-
# The VerifierStake contract

`contracts/verifier-stake`: the instance storage of the contract and its entry points
(`lib.rs`).  Every verifier has one record, stored under the verifier's address; `v_list`
holds these addresses, so that `get_all_verifiers` can enumerate the records.

The contract holds the stakes in a token that is not part of the repository.  `StakeHost`
stands for it: the storage of the tokens after a transfer, or a refusal.

`exec_stakeChange` says once what a call can do.
-/
import CarbonVeritas.HostCalls
import CarbonVeritas.Roster
import Mathlib.Tactic.Simps.Basic

namespace CarbonVeritas

/-! ## Storage -/

/-- The surroundings of the contract; `T` is the storage of the tokens. -/
structure StakeHost (T : Type) where
  /-- `env.current_contract_address()` -/
  address : Address
  /-- `token::Client::transfer` of an asset: the storage of the tokens after a transfer, or
  `none` if the token refuses it -/
  tokenTransfer : T → (asset fromAddr toAddr : Address) → ℤ → Option T

/-- The instance storage of the contract. -/
structure VerifierStake where
  /-- `symbol_short!("admin")` -/
  admin : Option Address := none
  /-- `symbol_short!("asset")` -/
  asset : Option Address := none
  /-- `symbol_short!("v_list")`, where a missing entry is read as the empty list -/
  vList : List Address := []
  /-- the records, under the addresses of the verifiers -/
  verifiers : Address → Option Verifier := fun _ => none

namespace VerifierStake

@[simps -fullyApplied] def writeVerifier (s : VerifierStake) (verifier : Address)
    (record : Verifier) : VerifierStake :=
  { s with verifiers := Function.update s.verifiers verifier (some record) }

@[simps -fullyApplied] def removeVerifier (s : VerifierStake) (verifier : Address) :
    VerifierStake :=
  { s with verifiers := Function.update s.verifiers verifier none }

@[simps -fullyApplied] def writeList (s : VerifierStake) (list : List Address) : VerifierStake :=
  { s with vList := list }

/-! ## Entry points -/

variable {T : Type} (host : StakeHost T) (env : Env) (s : VerifierStake) (t : T)

/-- `token::Client::new(&env, &asset).transfer(..)` -/
def transfer (asset fromAddr toAddr : Address) (amount : ℤ) : Result T :=
  orPanic (host.tokenTransfer t asset fromAddr toAddr amount) .token

def init (admin stakingAsset : Address) : Result (Unit × VerifierStake) := do
  panicIf (s.admin.isSome = true) .alreadyExists
  return ((), { s with admin := some admin, asset := some stakingAsset })

/-- The record of a new verifier. -/
def newRecord (verifier : Address) : Verifier where
  address := verifier
  totalStaked := MIN_STAKE_AMOUNT
  reputationScore := 100
  approvalCount := 0
  rejectionCount := 0
  lastHeartbeat := env.timestamp
  registeredAt := env.timestamp

def register (verifier : Address) : Result (Bool × VerifierStake × T) := do
  env.requireAuth verifier
  panicIf ((s.verifiers verifier).isSome = true) .verifierAlreadyRegistered
  let asset ← orPanic s.asset .unwrap
  let t ← transfer host t asset verifier host.address MIN_STAKE_AMOUNT
  let s := s.writeVerifier verifier (newRecord env verifier)
  let s := s.writeList (s.vList ++ [verifier])
  return (true, s, t)

def stake (verifier : Address) (amount : ℤ) : Result (Bool × VerifierStake × T) := do
  env.requireAuth verifier
  panicIf (amount ≤ 0) .invalidInput
  let record ← orPanic (s.verifiers verifier) (.error .verifierNotFound)
  let asset ← orPanic s.asset .unwrap
  let t ← transfer host t asset verifier host.address amount
  let totalStaked ← orPanic (i128CheckedAdd record.totalStaked amount) (.error .invalidInput)
  return (true, s.writeVerifier verifier { record with totalStaked := totalStaked }, t)

def slash (admin verifier : Address) (amount : ℤ) : Result (Bool × VerifierStake) := do
  let storedAdmin ← orPanic s.admin .unwrap
  env.requireAuth admin
  panicIf (admin ≠ storedAdmin) .notAuthorized
  panicIf (amount ≤ 0) .invalidInput
  let record ← orPanic (s.verifiers verifier) (.error .verifierNotFound)
  panicIf (amount > record.totalStaked) .insufficientStake
  let totalStaked ← orPanic (i128CheckedSub record.totalStaked amount)
    (.error .insufficientStake)
  return (true, s.writeVerifier verifier
    { record with
      totalStaked := totalStaked, reputationScore := u32SaturatingSub record.reputationScore 10 })

def unregister (verifier : Address) : Result (Bool × VerifierStake × T) := do
  env.requireAuth verifier
  let record ← orPanic (s.verifiers verifier) (.error .verifierNotFound)
  let elapsed := u64Sub env.timestamp record.registeredAt
  panicIf (elapsed < COOLDOWN_PERIOD_SECONDS) .cooldownActive
  let asset ← orPanic s.asset .unwrap
  let t ← transfer host t asset host.address verifier record.totalStaked
  let s := s.removeVerifier verifier
  let s := s.writeList (s.vList.filter fun v => v ≠ verifier)
  return (true, s, t)

def getVerifier (verifier : Address) : Result Verifier :=
  orPanic (s.verifiers verifier) (.error .verifierNotFound)

def isVerifier (verifier : Address) : Bool := (s.verifiers verifier).isSome

def getAllVerifiers : List Verifier := s.vList.filterMap s.verifiers

def updateHeartbeat (verifier : Address) : Result (Unit × VerifierStake) := do
  env.requireAuth verifier
  let record ← orPanic (s.verifiers verifier) (.error .verifierNotFound)
  return ((), s.writeVerifier verifier { record with lastHeartbeat := env.timestamp })

/-! ### Calls -/

/-- The public entry points of the contract. -/
inductive Call where
  | init (admin stakingAsset : Address)
  | register (verifier : Address)
  | stake (verifier : Address) (amount : ℤ)
  | slash (admin verifier : Address) (amount : ℤ)
  | unregister (verifier : Address)
  | getVerifier (verifier : Address)
  | isVerifier (verifier : Address)
  | getAllVerifiers
  | updateHeartbeat (verifier : Address)

/-- The storage after a call; what the call returns is dropped. -/
def exec : Call → Result (VerifierStake × T)
  | .init admin stakingAsset => (s.init admin stakingAsset).map fun r => (r.2, t)
  | .register verifier => (register host env s t verifier).map Prod.snd
  | .stake verifier amount => (stake host env s t verifier amount).map Prod.snd
  | .slash admin verifier amount => (slash env s admin verifier amount).map fun r => (r.2, t)
  | .unregister verifier => (unregister host env s t verifier).map Prod.snd
  | .getVerifier verifier => (s.getVerifier verifier).map fun _ => (s, t)
  | .isVerifier _ => .ok (s, t)
  | .getAllVerifiers => .ok (s, t)
  | .updateHeartbeat verifier => (updateHeartbeat env s verifier).map fun r => (r.2, t)

/-! ## What each entry point does -/

section Spec

variable {host env s t} {s' : VerifierStake} {t' : T}

@[simp] theorem transfer_eq_ok {asset fromAddr toAddr : Address} {amount : ℤ} :
    transfer host t asset fromAddr toAddr amount = .ok t' ↔
      host.tokenTransfer t asset fromAddr toAddr amount = some t' := by
  unfold transfer
  rw [orPanic_eq_ok]

theorem init_eq_ok {admin stakingAsset : Address} {u : Unit} :
    s.init admin stakingAsset = .ok (u, s') ↔
      s.admin = none ∧ s' = { s with admin := some admin, asset := some stakingAsset } := by
  simp only [init, bind_eq_ok, panicIf_eq_ok, pure_eq_ok, Prod.mk.injEq, true_and,
    Option.not_isSome_iff_eq_none, exists_const]
  constructor
  · rintro ⟨hnone, rfl⟩
    exact ⟨hnone, rfl⟩
  · rintro ⟨hnone, rfl⟩
    exact ⟨hnone, rfl⟩

/-- The storage with a new verifier. -/
def registered (env : Env) (s : VerifierStake) (verifier : Address) : VerifierStake :=
  (s.writeVerifier verifier (newRecord env verifier)).writeList (s.vList ++ [verifier])

theorem register_eq_ok {verifier : Address} {b : Bool} :
    register host env s t verifier = .ok (b, s', t') ↔
      env.Authorised verifier ∧ s.verifiers verifier = none ∧ b = true ∧
        s' = registered env s verifier ∧ ∃ asset, s.asset = some asset ∧
          host.tokenTransfer t asset verifier host.address MIN_STAKE_AMOUNT = some t' := by
  simp only [register, bind_eq_ok, Env.requireAuth_eq_ok, panicIf_eq_ok, orPanic_eq_ok,
    transfer_eq_ok, pure_eq_ok, Prod.mk.injEq, Option.not_isSome_iff_eq_none]
  constructor
  · rintro ⟨-, hauth, -, hnone, asset, hasset, t', htransfer, rfl, rfl, rfl⟩
    exact ⟨hauth, hnone, rfl, rfl, asset, hasset, htransfer⟩
  · rintro ⟨hauth, hnone, rfl, rfl, asset, hasset, htransfer⟩
    exact ⟨(), hauth, (), hnone, asset, hasset, t', htransfer, rfl, rfl, rfl⟩

theorem stake_eq_ok {verifier : Address} {amount : ℤ} {b : Bool} :
    stake host env s t verifier amount = .ok (b, s', t') ↔
      env.Authorised verifier ∧ 0 < amount ∧ b = true ∧ ∃ record total asset,
        s.verifiers verifier = some record ∧
        i128CheckedAdd record.totalStaked amount = some total ∧ s.asset = some asset ∧
        host.tokenTransfer t asset verifier host.address amount = some t' ∧
        s' = s.writeVerifier verifier { record with totalStaked := total } := by
  simp only [stake, bind_eq_ok, Env.requireAuth_eq_ok, panicIf_eq_ok, orPanic_eq_ok,
    transfer_eq_ok, pure_eq_ok, Prod.mk.injEq, Int.not_le]
  constructor
  · rintro ⟨-, hauth, -, hpos, record, hrecord, asset, hasset, t', htransfer, total, htotal, rfl,
      rfl, rfl⟩
    exact ⟨hauth, hpos, rfl, record, total, asset, hrecord, htotal, hasset, htransfer, rfl⟩
  · rintro ⟨hauth, hpos, rfl, record, total, asset, hrecord, htotal, hasset, htransfer, rfl⟩
    exact ⟨(), hauth, (), hpos, record, hrecord, asset, hasset, t', htransfer, total, htotal, rfl,
      rfl, rfl⟩

theorem slash_eq_ok {admin verifier : Address} {amount : ℤ} {b : Bool} :
    slash env s admin verifier amount = .ok (b, s') ↔
      s.admin = some admin ∧ env.Authorised admin ∧ 0 < amount ∧ b = true ∧ ∃ record total,
        s.verifiers verifier = some record ∧ amount ≤ record.totalStaked ∧
        i128CheckedSub record.totalStaked amount = some total ∧
        s' = s.writeVerifier verifier
          { record with
            totalStaked := total
            reputationScore := u32SaturatingSub record.reputationScore 10 } := by
  simp only [slash, bind_eq_ok, Env.requireAuth_eq_ok, panicIf_eq_ok, orPanic_eq_ok, pure_eq_ok,
    Prod.mk.injEq, not_not, Int.not_le, gt_iff_lt, Int.not_lt]
  constructor
  · rintro ⟨_, hadmin, -, hauth, -, rfl, -, hpos, record, hrecord, -, hle, total, htotal, rfl, rfl⟩
    exact ⟨hadmin, hauth, hpos, rfl, record, total, hrecord, hle, htotal, rfl⟩
  · rintro ⟨hadmin, hauth, hpos, rfl, record, total, hrecord, hle, htotal, rfl⟩
    exact ⟨admin, hadmin, (), hauth, (), rfl, (), hpos, record, hrecord, (), hle, total, htotal,
      rfl, rfl⟩

/-- The storage without the verifier. -/
def unregistered (s : VerifierStake) (verifier : Address) : VerifierStake :=
  (s.removeVerifier verifier).writeList (s.vList.filter fun v => v ≠ verifier)

/-- The cooldown, as `unregister` measures it, is over. -/
def CooldownOver (env : Env) (record : Verifier) : Prop :=
  COOLDOWN_PERIOD_SECONDS ≤ u64Sub env.timestamp record.registeredAt

theorem unregister_eq_ok {verifier : Address} {b : Bool} :
    unregister host env s t verifier = .ok (b, s', t') ↔
      env.Authorised verifier ∧ b = true ∧ s' = unregistered s verifier ∧ ∃ record asset,
        s.verifiers verifier = some record ∧ CooldownOver env record ∧ s.asset = some asset ∧
        host.tokenTransfer t asset host.address verifier record.totalStaked = some t' := by
  simp only [unregister, bind_eq_ok, Env.requireAuth_eq_ok, panicIf_eq_ok, orPanic_eq_ok,
    transfer_eq_ok, pure_eq_ok, Prod.mk.injEq, Nat.not_lt]
  constructor
  · rintro ⟨-, hauth, record, hrecord, -, hover, asset, hasset, t', htransfer, rfl, rfl, rfl⟩
    exact ⟨hauth, rfl, rfl, record, asset, hrecord, hover, hasset, htransfer⟩
  · rintro ⟨hauth, rfl, rfl, record, asset, hrecord, hover, hasset, htransfer⟩
    exact ⟨(), hauth, record, hrecord, (), hover, asset, hasset, t', htransfer, rfl, rfl, rfl⟩

theorem updateHeartbeat_eq_ok {verifier : Address} {u : Unit} :
    updateHeartbeat env s verifier = .ok (u, s') ↔
      env.Authorised verifier ∧ ∃ record, s.verifiers verifier = some record ∧
        s' = s.writeVerifier verifier { record with lastHeartbeat := env.timestamp } := by
  simp only [updateHeartbeat, bind_eq_ok, Env.requireAuth_eq_ok, orPanic_eq_ok, pure_eq_ok,
    Prod.mk.injEq, true_and]
  constructor
  · rintro ⟨-, hauth, record, hrecord, rfl⟩
    exact ⟨hauth, record, hrecord, rfl⟩
  · rintro ⟨hauth, record, hrecord, rfl⟩
    exact ⟨(), hauth, record, hrecord, rfl⟩

/-! ## What a call can do -/

/-- What a call that returns does. -/
inductive StakeChange (host : StakeHost T) (env : Env) (s : VerifierStake) (t : T)
    (s' : VerifierStake) (t' : T) : Call → Prop where
  | keep {call : Call} (hs : s' = s) (ht : t' = t)
      (hread : (∃ v, call = .getVerifier v) ∨ (∃ v, call = .isVerifier v) ∨
        call = .getAllVerifiers) : StakeChange host env s t s' t' call
  | init {admin stakingAsset : Address} (hnone : s.admin = none)
      (hs : s' = { s with admin := some admin, asset := some stakingAsset }) (ht : t' = t) :
      StakeChange host env s t s' t' (.init admin stakingAsset)
  | register {verifier asset : Address} (hauth : env.Authorised verifier)
      (hnone : s.verifiers verifier = none) (hasset : s.asset = some asset)
      (htransfer : host.tokenTransfer t asset verifier host.address MIN_STAKE_AMOUNT = some t')
      (hs : s' = registered env s verifier) :
      StakeChange host env s t s' t' (.register verifier)
  | stake {verifier asset : Address} {amount : ℤ} {record : Verifier}
      (hauth : env.Authorised verifier) (hpos : 0 < amount)
      (hrecord : s.verifiers verifier = some record) (hasset : s.asset = some asset)
      (htransfer : host.tokenTransfer t asset verifier host.address amount = some t')
      (hs : s' = s.writeVerifier verifier
        { record with totalStaked := record.totalStaked + amount }) :
      StakeChange host env s t s' t' (.stake verifier amount)
  | slash {admin verifier : Address} {amount : ℤ} {record : Verifier}
      (hadmin : s.admin = some admin) (hauth : env.Authorised admin) (hpos : 0 < amount)
      (hrecord : s.verifiers verifier = some record) (hle : amount ≤ record.totalStaked)
      (hs : s' = s.writeVerifier verifier
        { record with
          totalStaked := record.totalStaked - amount
          reputationScore := u32SaturatingSub record.reputationScore 10 }) (ht : t' = t) :
      StakeChange host env s t s' t' (.slash admin verifier amount)
  | unregister {verifier asset : Address} {record : Verifier} (hauth : env.Authorised verifier)
      (hrecord : s.verifiers verifier = some record) (hover : CooldownOver env record)
      (hasset : s.asset = some asset)
      (htransfer :
        host.tokenTransfer t asset host.address verifier record.totalStaked = some t')
      (hs : s' = unregistered s verifier) :
      StakeChange host env s t s' t' (.unregister verifier)
  | heartbeat {verifier : Address} {record : Verifier} (hauth : env.Authorised verifier)
      (hrecord : s.verifiers verifier = some record)
      (hs : s' = s.writeVerifier verifier { record with lastHeartbeat := env.timestamp })
      (ht : t' = t) : StakeChange host env s t s' t' (.updateHeartbeat verifier)

/-- **Inversion.**  Every call that returns makes one of these changes. -/
theorem exec_stakeChange {call : Call} (h : exec host env s t call = .ok (s', t')) :
    StakeChange host env s t s' t' call := by
  cases call <;> simp only [exec, map_eq_ok, Prod.exists, Except.ok.injEq, Prod.mk.injEq] at h
  case init =>
    obtain ⟨_, _, hinit, rfl, rfl⟩ := h
    obtain ⟨hnone, hs⟩ := init_eq_ok.mp hinit
    exact .init hnone hs rfl
  case register =>
    obtain ⟨_, _, _, hregister, rfl, rfl⟩ := h
    obtain ⟨hauth, hnone, -, hs, asset, hasset, htransfer⟩ := register_eq_ok.mp hregister
    exact .register hauth hnone hasset htransfer hs
  case stake =>
    obtain ⟨_, _, _, hstake, rfl, rfl⟩ := h
    obtain ⟨hauth, hpos, -, record, total, asset, hrecord, htotal, hasset, htransfer, hs⟩ :=
      stake_eq_ok.mp hstake
    obtain rfl := i128CheckedAdd_eq_some htotal
    exact .stake hauth hpos hrecord hasset htransfer hs
  case slash =>
    obtain ⟨_, _, hslash, rfl, rfl⟩ := h
    obtain ⟨hadmin, hauth, hpos, -, record, total, hrecord, hle, htotal, hs⟩ :=
      slash_eq_ok.mp hslash
    obtain rfl := i128CheckedSub_eq_some htotal
    exact .slash hadmin hauth hpos hrecord hle hs rfl
  case unregister =>
    obtain ⟨_, _, _, hunregister, rfl, rfl⟩ := h
    obtain ⟨hauth, -, hs, record, asset, hrecord, hover, hasset, htransfer⟩ :=
      unregister_eq_ok.mp hunregister
    exact .unregister hauth hrecord hover hasset htransfer hs
  case updateHeartbeat =>
    obtain ⟨_, _, hbeat, rfl, rfl⟩ := h
    obtain ⟨hauth, record, hrecord, hs⟩ := updateHeartbeat_eq_ok.mp hbeat
    exact .heartbeat hauth hrecord hs rfl
  case getVerifier v =>
    obtain ⟨_, -, rfl, rfl⟩ := h
    exact .keep rfl rfl (Or.inl ⟨v, rfl⟩)
  case isVerifier v =>
    obtain ⟨rfl, rfl⟩ := h
    exact .keep rfl rfl (Or.inr (Or.inl ⟨v, rfl⟩))
  case getAllVerifiers =>
    obtain ⟨rfl, rfl⟩ := h
    exact .keep rfl rfl (Or.inr (Or.inr rfl))

end Spec

end VerifierStake

end CarbonVeritas
