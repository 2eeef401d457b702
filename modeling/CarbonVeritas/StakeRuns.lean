/-
# Runs of the stake contract

`StakeLedger` is the contract with the storage of the tokens and the time of the ledger.  A
transaction is a call of the contract, or some other transaction, of which only the storage
of the tokens that it leaves matters.  A call that panics moves nothing but the time.

The second half names the amounts that an accepted call moves: what it deposits, what it
pays out and what it slashes.  One lemma each says what the call then does to the stake of a
verifier, to the total stake and to the balance of the contract.
-/
import CarbonVeritas.TransitionRun
import CarbonVeritas.VerifierStake
import CarbonVeritas.Token

namespace CarbonVeritas

open Transition

/-! ## States and transactions -/

/-- The contract, the tokens and the ledger time of the last transaction. -/
structure StakeLedger (T : Type) where
  contract : VerifierStake := {}
  tokens : T
  now : ℕ := 0

/-- A transaction, with its ledger time. -/
inductive StakeTx {T : Type} (host : StakeHost T) where
  /-- a call of the contract, which itself can only authorise what it calls -/
  | call (env : Env) (external : ¬ env.Authorised host.address) (call : VerifierStake.Call)
  /-- a transaction that does not call the contract; it leaves the tokens as given -/
  | other (timestamp : ℕ) (tokens : T)

def StakeTx.timestamp {T : Type} {host : StakeHost T} : StakeTx host → ℕ
  | .call env _ _ => env.timestamp
  | .other timestamp _ => timestamp

/-- The transaction calls the contract. -/
def StakeTx.isCall {T : Type} {host : StakeHost T} : StakeTx host → Bool
  | .call _ _ _ => true
  | .other _ _ => false

namespace StakeLedger

variable {T : Type} {host : StakeHost T} {w w' : StakeLedger T} {tx : StakeTx host}

/-- The deployment before its first transaction. -/
def genesis (tokens : T) : StakeLedger T where
  tokens := tokens

/-- One transaction: a panic leaves the contract and the tokens as they were. -/
def apply (host : StakeHost T) (w : StakeLedger T) : StakeTx host → StakeLedger T
  | .call env _ call =>
      match VerifierStake.exec host env w.contract w.tokens call with
      | .ok (s, t) => { contract := s, tokens := t, now := env.timestamp }
      | .error _ => { w with now := env.timestamp }
  | .other timestamp tokens => { w with tokens := tokens, now := timestamp }

/-- The call of a transaction that takes effect. -/
def accepted (host : StakeHost T) (w : StakeLedger T) : StakeTx host → Option VerifierStake.Call
  | .call env _ call =>
      match VerifierStake.exec host env w.contract w.tokens call with
      | .ok _ => some call
      | .error _ => none
  | .other _ _ => none

@[simp] theorem apply_now (host : StakeHost T) (w : StakeLedger T) (tx : StakeTx host) :
    (apply host w tx).now = tx.timestamp := by
  cases tx with
  | call env _ call =>
      simp only [apply]
      split <;> rfl
  | other _ _ => rfl

/-- What a transaction does to the contract and the tokens. -/
inductive Step (host : StakeHost T) (w w' : StakeLedger T) : StakeTx host →
    Option VerifierStake.Call → Prop where
  | accepted {env : Env} {external : ¬ env.Authorised host.address} {call : VerifierStake.Call}
      (h : VerifierStake.StakeChange host env w.contract w.tokens w'.contract w'.tokens call) :
      Step host w w' (.call env external call) (some call)
  | refused {env : Env} {external : ¬ env.Authorised host.address} {call : VerifierStake.Call}
      (hcontract : w'.contract = w.contract) (htokens : w'.tokens = w.tokens) :
      Step host w w' (.call env external call) none
  | other {timestamp : ℕ} {tokens : T} (hcontract : w'.contract = w.contract)
      (htokens : w'.tokens = tokens) : Step host w w' (.other timestamp tokens) none

/-- **Inversion.**  Every transaction is one of these steps. -/
theorem apply_step (host : StakeHost T) (w : StakeLedger T) (tx : StakeTx host) :
    Step host w (apply host w tx) tx (accepted host w tx) := by
  cases tx with
  | call env external call =>
      cases hexec : VerifierStake.exec host env w.contract w.tokens call with
      | ok r =>
          simp only [apply, accepted, hexec]
          exact .accepted (VerifierStake.exec_stakeChange hexec)
      | error _ =>
          simp only [apply, accepted, hexec]
          exact .refused rfl rfl
  | other _ _ => exact .other rfl rfl

/-- An accepted call changes the contract as the entry point says. -/
theorem change_of_accepted {call : VerifierStake.Call} (h : accepted host w tx = some call) :
    ∃ env, env.timestamp = tx.timestamp ∧ ¬ env.Authorised host.address ∧
      VerifierStake.StakeChange host env w.contract w.tokens (apply host w tx).contract
        (apply host w tx).tokens call := by
  have hstep := apply_step host w tx
  rw [h] at hstep
  cases hstep with
  | @accepted env external call hchange => exact ⟨env, rfl, external, hchange⟩

/-- Only an accepted call changes the contract. -/
theorem contract_of_not_accepted (h : accepted host w tx = none) :
    (apply host w tx).contract = w.contract := by
  have hstep := apply_step host w tx
  rw [h] at hstep
  cases hstep with
  | refused hcontract _ => exact hcontract
  | other hcontract _ => exact hcontract

/-! ## Conditions on the surroundings -/

/-- The ledger time does not go back. -/
def TimeFlows (w : StakeLedger T) (tx : StakeTx host) : Prop := w.now ≤ tx.timestamp

/-- Other transactions take no tokens from the contract. -/
def KeepsBalance (host : StakeHost T) (balance : T → Address → Address → ℤ) (w : StakeLedger T) :
    StakeTx host → Prop
  | .call _ _ _ => True
  | .other _ tokens =>
      ∀ asset, balance w.tokens asset host.address ≤ balance tokens asset host.address

/-- The condition on the times of a run, by evaluation. -/
theorem always_timeFlows {ts : List (StakeTx host)}
    (h : (w.now :: ts.map StakeTx.timestamp).Pairwise (· ≤ ·)) :
    Always (apply host) TimeFlows w ts := by
  induction ts generalizing w with
  | nil => exact always_nil _ _
  | cons tx ts ih =>
      rw [List.map_cons, List.pairwise_cons, List.pairwise_cons] at h
      refine always_cons.mpr ⟨h.1 _ List.mem_cons_self, ih ?_⟩
      rw [apply_now, List.pairwise_cons]
      exact h.2

/-- In a run of calls there are no other transactions. -/
theorem always_keepsBalance {balance : T → Address → Address → ℤ} {ts : List (StakeTx host)}
    (h : ts.all StakeTx.isCall = true) (w : StakeLedger T) :
    Always (apply host) (KeepsBalance host balance) w ts := by
  refine always_of_forall_mem (fun tx htx _ => ?_) w
  have hcall := List.all_eq_true.mp h tx htx
  cases tx with
  | call _ _ _ => trivial
  | other _ _ => cases hcall

end StakeLedger

/-! ## The amounts of a call -/

namespace VerifierStake

/-- The stake of a verifier, 0 without a record. -/
def stakeOf (s : VerifierStake) (v : Address) : ℤ :=
  match s.verifiers v with
  | some record => record.totalStaked
  | none => 0

/-- The sum of the stakes of the registered verifiers. -/
def totalStake (s : VerifierStake) : ℤ := (s.getAllVerifiers.map Verifier.totalStaked).sum

theorem stakeOf_of_some {s : VerifierStake} {v : Address} {record : Verifier}
    (h : s.verifiers v = some record) : s.stakeOf v = record.totalStaked := by
  simp only [stakeOf, h]

theorem stakeOf_of_none {s : VerifierStake} {v : Address} (h : s.verifiers v = none) :
    s.stakeOf v = 0 := by
  simp only [stakeOf, h]

theorem stakeOf_congr {s s' : VerifierStake} {v : Address} (h : s'.verifiers v = s.verifiers v) :
    s'.stakeOf v = s.stakeOf v := by
  simp only [stakeOf, h]

/-- The verifier whose record a call writes. -/
def Call.verifier : Call → Option Address
  | .register v | .stake v _ | .slash _ v _ | .unregister v | .updateHeartbeat v => some v
  | _ => none

def Call.deposit : Call → ℤ
  | .register _ => MIN_STAKE_AMOUNT
  | .stake _ amount => amount
  | _ => 0

def Call.slashing : Call → ℤ
  | .slash _ _ amount => amount
  | _ => 0

def Call.payout (s : VerifierStake) : Call → ℤ
  | .unregister v => s.stakeOf v
  | _ => 0

section Effects

variable {T : Type} {host : StakeHost T} {env : Env} {s s' : VerifierStake} {t t' : T}
  {call : Call}

/-- A call writes the record of its verifier only. -/
theorem StakeChange.verifiers_of_ne (h : StakeChange host env s t s' t' call) {v : Address}
    (hv : call.verifier ≠ some v) : s'.verifiers v = s.verifiers v := by
  have hne : ∀ {u : Address}, call.verifier = some u → v ≠ u := by
    rintro u hu rfl
    exact hv hu
  cases h with
  | keep hs _ _ => rw [hs]
  | init _ hs _ => rw [hs]
  | register _ _ _ _ hs => rw [hs, registered]; simp [hne rfl]
  | stake _ _ _ _ _ hs => rw [hs]; simp [hne rfl]
  | slash _ _ _ _ _ hs _ => rw [hs]; simp [hne rfl]
  | unregister _ _ _ _ _ hs => rw [hs, unregistered]; simp [hne rfl]
  | heartbeat _ _ hs _ => rw [hs]; simp [hne rfl]

/-- What a call does to the record of `v`, where there is one after it. -/
inductive RecordChange (env : Env) (s : VerifierStake) (v : Address) : Verifier → Call → Prop where
  | other {record : Verifier} {call : Call} (hcall : call.verifier ≠ some v)
      (hrecord : s.verifiers v = some record) : RecordChange env s v record call
  | register (hnone : s.verifiers v = none) :
      RecordChange env s v (newRecord env v) (.register v)
  | stake {record : Verifier} {amount : ℤ} (hpos : 0 < amount)
      (hrecord : s.verifiers v = some record) :
      RecordChange env s v { record with totalStaked := record.totalStaked + amount }
        (.stake v amount)
  | slash {record : Verifier} {admin : Address} {amount : ℤ} (hpos : 0 < amount)
      (hrecord : s.verifiers v = some record) (hle : amount ≤ record.totalStaked) :
      RecordChange env s v
        { record with
          totalStaked := record.totalStaked - amount
          reputationScore := u32SaturatingSub record.reputationScore 10 }
        (.slash admin v amount)
  | heartbeat {record : Verifier} (hrecord : s.verifiers v = some record) :
      RecordChange env s v { record with lastHeartbeat := env.timestamp } (.updateHeartbeat v)

/-- **Inversion.**  A record was there before, or is new. -/
theorem StakeChange.record (h : StakeChange host env s t s' t' call) {v : Address}
    {record : Verifier} (hrecord : s'.verifiers v = some record) :
    RecordChange env s v record call := by
  by_cases hv : call.verifier = some v
  · -- the record that the call writes
    have hwrite : ∀ {r : Verifier}, s'.verifiers = Function.update s.verifiers v (some r) →
        r = record := by
      intro r hs
      rw [hs, Function.update_self] at hrecord
      exact Option.some.inj hrecord
    cases h with
    | keep _ _ hread => rcases hread with ⟨_, rfl⟩ | ⟨_, rfl⟩ | rfl <;> cases hv
    | init _ _ _ => cases hv
    | @register u _ _ hnone _ _ hs =>
        obtain rfl : u = v := Option.some.inj hv
        obtain rfl := hwrite (by rw [hs]; rfl)
        exact .register hnone
    | @stake u _ _ r _ hpos hr _ _ hs =>
        obtain rfl : u = v := Option.some.inj hv
        obtain rfl := hwrite (by rw [hs]; rfl)
        exact .stake hpos hr
    | @slash _ u _ r _ _ hpos hr hle hs _ =>
        obtain rfl : u = v := Option.some.inj hv
        obtain rfl := hwrite (by rw [hs]; rfl)
        exact .slash hpos hr hle
    | @unregister u _ _ _ _ _ _ _ hs =>
        obtain rfl : u = v := Option.some.inj hv
        rw [hs, unregistered, writeList_verifiers, removeVerifier_verifiers,
          Function.update_self] at hrecord
        cases hrecord
    | @heartbeat u r _ hr hs _ =>
        obtain rfl : u = v := Option.some.inj hv
        obtain rfl := hwrite (by rw [hs]; rfl)
        exact .heartbeat hr
  · rw [h.verifiers_of_ne hv] at hrecord
    exact .other hv hrecord

/-- The stake of the verifier of a call. -/
theorem StakeChange.stakeOf_self (h : StakeChange host env s t s' t' call) {v : Address}
    (hv : call.verifier = some v) :
    s'.stakeOf v = s.stakeOf v + (call.deposit - call.payout s - call.slashing) := by
  have hwrite : ∀ record : Verifier, (s.writeVerifier v record).stakeOf v = record.totalStaked :=
    fun record => stakeOf_of_some (by simp)
  cases h with
  | keep _ _ hread => rcases hread with ⟨_, rfl⟩ | ⟨_, rfl⟩ | rfl <;> cases hv
  | init _ _ _ => cases hv
  | @register u _ _ hnone _ _ hs =>
      obtain rfl : u = v := Option.some.inj hv
      have hnew : s'.stakeOf u = MIN_STAKE_AMOUNT := by
        rw [hs]
        exact hwrite _
      rw [hnew, stakeOf_of_none hnone]
      simp [Call.deposit, Call.payout, Call.slashing]
  | stake _ _ hrecord _ _ hs =>
      obtain rfl := Option.some.inj hv
      rw [hs, hwrite, stakeOf_of_some hrecord]
      simp [Call.deposit, Call.payout, Call.slashing]
  | slash _ _ _ hrecord _ hs _ =>
      obtain rfl := Option.some.inj hv
      rw [hs, hwrite, stakeOf_of_some hrecord]
      simp [Call.deposit, Call.payout, Call.slashing]
      omega
  | @unregister u _ _ _ _ _ _ _ hs =>
      obtain rfl : u = v := Option.some.inj hv
      have hgone : s'.stakeOf u = 0 := by
        rw [hs]
        exact stakeOf_of_none (Function.update_self ..)
      rw [hgone]
      simp [Call.deposit, Call.payout, Call.slashing]
  | heartbeat _ hrecord hs _ =>
      obtain rfl := Option.some.inj hv
      rw [hs, hwrite, stakeOf_of_some hrecord]
      simp [Call.deposit, Call.payout, Call.slashing]

/-- The list of the verifiers stays right. -/
theorem StakeChange.lists (h : StakeChange host env s t s' t' call)
    (hlists : Roster.Lists s.vList s.verifiers) : Roster.Lists s'.vList s'.verifiers := by
  cases h with
  | keep hs _ _ =>
      rw [hs]
      exact hlists
  | init _ hs _ =>
      rw [hs]
      exact hlists
  | register _ hnone _ _ hs =>
      rw [hs]
      exact hlists.insert hnone _
  | stake _ _ hrecord _ _ hs =>
      rw [hs]
      exact hlists.update hrecord _
  | slash _ _ _ hrecord _ hs _ =>
      rw [hs]
      exact hlists.update hrecord _
  | unregister _ _ _ _ _ hs =>
      rw [hs]
      exact hlists.erase _
  | heartbeat _ hrecord hs _ =>
      rw [hs]
      exact hlists.update hrecord _

theorem totalStake_eq (s : VerifierStake) :
    s.totalStake = Roster.total Verifier.totalStaked s.vList s.verifiers := rfl

/-- The total stake. -/
theorem StakeChange.totalStake (h : StakeChange host env s t s' t' call)
    (hlists : Roster.Lists s.vList s.verifiers) :
    s'.totalStake = s.totalStake + (call.deposit - call.payout s - call.slashing) := by
  -- a new record for a key
  have hwrite : ∀ {v : Address} {record record' : Verifier}, s.verifiers v = some record →
      s' = s.writeVerifier v record' →
      s'.totalStake = s.totalStake + (record'.totalStaked - record.totalStaked) := by
    rintro v record record' hrecord rfl
    have htotal := Roster.total_update hlists hrecord record' Verifier.totalStaked
    rw [totalStake_eq, totalStake_eq, writeVerifier_verifiers, writeVerifier_vList]
    omega
  cases h with
  | keep hs _ hread =>
      rw [hs]
      rcases hread with ⟨_, rfl⟩ | ⟨_, rfl⟩ | rfl <;>
        simp [Call.deposit, Call.payout, Call.slashing]
  | init _ hs _ =>
      rw [hs]
      show s.totalStake = s.totalStake + (0 - 0 - 0)
      omega
  | @register u _ _ hnone _ _ hs =>
      have htotal := Roster.total_insert hlists hnone (newRecord env u) Verifier.totalStaked
      have hnew : s'.totalStake = s.totalStake + MIN_STAKE_AMOUNT := by
        rw [hs]
        exact htotal
      rw [hnew]
      simp [Call.deposit, Call.payout, Call.slashing]
  | stake _ _ hrecord _ _ hs =>
      rw [hwrite hrecord hs]
      simp [Call.deposit, Call.payout, Call.slashing]
  | slash _ _ _ hrecord _ hs _ =>
      rw [hwrite hrecord hs]
      simp [Call.deposit, Call.payout, Call.slashing]
  | @unregister u _ record _ hrecord _ _ _ hs =>
      have htotal := Roster.total_erase hlists hrecord Verifier.totalStaked
      have hgone : s'.totalStake + record.totalStaked = s.totalStake := by
        rw [hs]
        exact htotal
      simp only [Call.deposit, Call.payout, Call.slashing, stakeOf_of_some hrecord]
      omega
  | heartbeat _ hrecord hs _ =>
      rw [hwrite hrecord hs]
      simp [Call.deposit, Call.payout, Call.slashing]

/-- The balance of the contract in the staking asset. -/
theorem StakeChange.balance (h : StakeChange host env s t s' t' call)
    {balance : T → Address → Address → ℤ} (hexact : ExactTransfer host.tokenTransfer balance)
    (hself : ¬ env.Authorised host.address) {asset : Address}
    (hasset : ∀ a, s.asset = some a → a = asset) :
    balance t' asset host.address =
      balance t asset host.address + (call.deposit - call.payout s) := by
  -- tokens that the contract gets from a verifier
  have hin : ∀ {v a : Address} {x : ℤ}, env.Authorised v → s.asset = some a →
      host.tokenTransfer t a v host.address x = some t' →
      balance t' asset host.address = balance t asset host.address + x := by
    intro v a x hauth ha htransfer
    obtain rfl := hasset a ha
    have hv : host.address ≠ v := by
      rintro rfl
      exact hself hauth
    rw [hexact _ _ _ _ _ _ htransfer, if_neg fun hboth => hv hboth.2, if_pos ⟨rfl, rfl⟩]
    omega
  cases h with
  | keep _ ht hread =>
      rw [ht]
      rcases hread with ⟨_, rfl⟩ | ⟨_, rfl⟩ | rfl <;> simp [Call.deposit, Call.payout]
  | init _ _ ht =>
      rw [ht]
      simp [Call.deposit, Call.payout]
  | register hauth _ ha htransfer _ =>
      rw [hin hauth ha htransfer]
      simp [Call.deposit, Call.payout]
  | stake hauth _ _ ha htransfer _ =>
      rw [hin hauth ha htransfer]
      simp [Call.deposit, Call.payout]
  | slash _ _ _ _ _ _ ht =>
      rw [ht]
      simp [Call.deposit, Call.payout]
  | @unregister v a record hauth hrecord _ ha htransfer _ =>
      obtain rfl := hasset a ha
      have hv : host.address ≠ v := by
        rintro rfl
        exact hself hauth
      rw [hexact _ _ _ _ _ _ htransfer, if_pos ⟨rfl, rfl⟩, if_neg fun hboth => hv hboth.2]
      simp only [Call.deposit, Call.payout, stakeOf_of_some hrecord]
      omega
  | heartbeat _ _ _ ht =>
      rw [ht]
      simp [Call.deposit, Call.payout]

end Effects

end VerifierStake

/-! ## A small deployment -/

namespace Sample

/-- The contract, staking a token that keeps balances. -/
def stakeHost : StakeHost Balances where
  address := .contract 4
  tokenTransfer := transfer

def stakeAsset : Address := .contract 9

/-- A call signed by account `key`. -/
def stakeCall (key timestamp : ℕ) (call : VerifierStake.Call) : StakeTx stakeHost :=
  .call
    { signers := [.account key]
      invoker := none
      timestamp := timestamp
      sequence := timestamp }
    (by simp [Env.Authorised, stakeHost]) call

/-- Everybody starts with two minimum stakes. -/
def stakeBalances : Balances := fun _ _ => 2 * MIN_STAKE_AMOUNT

/-- Account 0 sets the contract up, and account 1 registers at time 10. -/
def stakeSetup : List (StakeTx stakeHost) :=
  [stakeCall 0 0 (.init (.account 0) stakeAsset), stakeCall 1 10 (.register (.account 1))]

end Sample

end CarbonVeritas
