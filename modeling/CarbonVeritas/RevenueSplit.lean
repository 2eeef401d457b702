/-
# The RevenueSplit contract

`contracts/revenue-split`: the instance storage of the contract and its entry points
(`lib.rs`).  A configuration is stored under the project id, which is a `String` and so never
meets the two symbols under which the addresses are stored.

The shares are paid in a token that is not part of the repository; `RevenueHost` stands for
it.  The sums and products of the contract are those of the release profile, which the
workspace leaves without overflow checks.
-/
import CarbonVeritas.HostCalls
import CarbonVeritas.TransitionRun
import Mathlib.Logic.Function.Basic
import Mathlib.Tactic.Simps.Basic

namespace CarbonVeritas

/-! ## Storage -/

/-- The token of a distribution; `T` is the storage of the tokens. -/
structure RevenueHost (T : Type) where
  /-- `token::Client::transfer` of an asset: the storage of the tokens after a transfer, or
  `none` if the token refuses it -/
  tokenTransfer : T → (asset fromAddr toAddr : Address) → ℤ → Option T

structure RevenueConfig where
  projectId : SorobanString
  beneficiaries : List (Address × ℕ)
  protocolFeeBps : ℕ
  deriving DecidableEq, Repr

/-- The instance storage of the contract. -/
structure RevenueSplit where
  /-- `symbol_short!("admin")` -/
  admin : Option Address := none
  /-- `symbol_short!("fee_addr")` -/
  feeAddr : Option Address := none
  /-- the configurations, under the project ids -/
  configs : SorobanString → Option RevenueConfig := fun _ => none

namespace RevenueSplit

@[simps -fullyApplied] def writeConfig (s : RevenueSplit) (projectId : SorobanString)
    (config : RevenueConfig) : RevenueSplit :=
  { s with configs := Function.update s.configs projectId (some config) }

/-! ## Entry points -/

variable {T : Type} (host : RevenueHost T) (env : Env) (s : RevenueSplit) (t : T)

def init (admin protocolFeeAddress : Address) : Result (Unit × RevenueSplit) := do
  panicIf (s.admin.isSome = true) .alreadyExists
  return ((), { s with admin := some admin, feeAddr := some protocolFeeAddress })

/-- The loop of `configure` over the beneficiaries. -/
def totalBps (beneficiaries : List (Address × ℕ)) : ℕ :=
  beneficiaries.foldl (fun total b => u32Add total b.2) 0

def configure (admin : Address) (projectId : SorobanString)
    (beneficiaries : List (Address × ℕ)) : Result (Unit × RevenueSplit) := do
  let storedAdmin ← orPanic s.admin .unwrap
  env.requireAuth admin
  panicIf (admin ≠ storedAdmin) .notAuthorized
  panicIf (projectId = [] ∨ beneficiaries = []) .invalidInput
  panicIf (totalBps beneficiaries ≠ 10000) .invalidInput
  return ((), s.writeConfig projectId
    { projectId := projectId
      beneficiaries := beneficiaries
      protocolFeeBps := PROTOCOL_FEE_BPS })

/-- `if x > 0 { client.transfer(..) }` -/
def transferPositive (asset fromAddr toAddr : Address) (x : ℤ) : Result T :=
  if x > 0 then orPanic (host.tokenTransfer t asset fromAddr toAddr x) .token else pure t

/-- `amount * (bps as i128) / 10000` -/
def portion (amount : ℤ) (bps : ℕ) : ℤ := (i128Mul amount bps).tdiv 10000

/-- The loop of `distribute` over the beneficiaries. -/
def payShares (asset caller : Address) (netAmount : ℤ) : List (Address × ℕ) → T → Result T
  | [], t => pure t
  | (beneficiary, bps) :: rest, t => do
      let t ← transferPositive host t asset caller beneficiary (portion netAmount bps)
      payShares asset caller netAmount rest t

def distribute (caller : Address) (projectId : SorobanString) (asset : Address) (amount : ℤ) :
    Result (Bool × T) := do
  env.requireAuth caller
  let config ← orPanic (s.configs projectId) (.error .notFound)
  let feeAddress ← orPanic s.feeAddr .unwrap
  let fee := portion amount config.protocolFeeBps
  let netAmount := i128Sub amount fee
  let t ← transferPositive host t asset caller feeAddress fee
  let t ← payShares host asset caller netAmount config.beneficiaries t
  return (true, t)

def getConfig (projectId : SorobanString) : Result RevenueConfig :=
  orPanic (s.configs projectId) (.error .notFound)

/-! ### Calls -/

/-- The public entry points of the contract. -/
inductive Call where
  | init (admin protocolFeeAddress : Address)
  | configure (admin : Address) (projectId : SorobanString)
      (beneficiaries : List (Address × ℕ))
  | distribute (caller : Address) (projectId : SorobanString) (asset : Address) (amount : ℤ)
  | getConfig (projectId : SorobanString)

/-- The storage after a call; what the call returns is dropped. -/
def exec : Call → Result (RevenueSplit × T)
  | .init admin protocolFeeAddress => (s.init admin protocolFeeAddress).map fun r => (r.2, t)
  | .configure admin projectId beneficiaries =>
      (configure env s admin projectId beneficiaries).map fun r => (r.2, t)
  | .distribute caller projectId asset amount =>
      (distribute host env s t caller projectId asset amount).map fun r => (s, r.2)
  | .getConfig projectId => (s.getConfig projectId).map fun _ => (s, t)

/-- One call, on the tokens as the transactions before it left them: a call that panics
leaves the storage as it was. -/
def apply (s : RevenueSplit) (call : Env × T × Call) : RevenueSplit :=
  match exec host call.1 s call.2.1 call.2.2 with
  | .ok (s', _) => s'
  | .error _ => s

/-! ## What each entry point does -/

section Spec

variable {host env s t} {s' : RevenueSplit} {t' : T}

/-- `init` stores its arguments, once. -/
theorem init_eq_ok {admin protocolFeeAddress : Address} {u : Unit} :
    s.init admin protocolFeeAddress = .ok (u, s') ↔
      s.admin = none ∧
        s' = { s with admin := some admin, feeAddr := some protocolFeeAddress } := by
  simp only [init, bind_eq_ok, panicIf_eq_ok, pure_eq_ok, Prod.mk.injEq, true_and,
    Option.not_isSome_iff_eq_none, exists_const]
  constructor
  · rintro ⟨hnone, rfl⟩
    exact ⟨hnone, rfl⟩
  · rintro ⟨hnone, rfl⟩
    exact ⟨hnone, rfl⟩

/-- The configuration that `configure` stores. -/
def configured (projectId : SorobanString) (beneficiaries : List (Address × ℕ)) :
    RevenueConfig :=
  { projectId := projectId, beneficiaries := beneficiaries, protocolFeeBps := PROTOCOL_FEE_BPS }

/-- The admin may configure a project whose shares add up. -/
theorem configure_eq_ok {admin : Address} {projectId : SorobanString}
    {beneficiaries : List (Address × ℕ)} {u : Unit} :
    configure env s admin projectId beneficiaries = .ok (u, s') ↔
      s.admin = some admin ∧ env.Authorised admin ∧ projectId ≠ [] ∧ beneficiaries ≠ [] ∧
        totalBps beneficiaries = 10000 ∧
        s' = s.writeConfig projectId (configured projectId beneficiaries) := by
  simp only [configure, bind_eq_ok, orPanic_eq_ok, Env.requireAuth_eq_ok, panicIf_eq_ok,
    pure_eq_ok, Prod.mk.injEq, true_and, not_or, not_not]
  constructor
  · rintro ⟨_, hadmin, -, hauth, -, rfl, -, ⟨hid, hlist⟩, -, htotal, rfl⟩
    exact ⟨hadmin, hauth, hid, hlist, htotal, rfl⟩
  · rintro ⟨hadmin, hauth, hid, hlist, htotal, rfl⟩
    exact ⟨admin, hadmin, (), hauth, (), rfl, (), ⟨hid, hlist⟩, (), htotal, rfl⟩

end Spec

/-! ## The transfers of a distribution -/

/-- A transfer that a distribution asks the token for. -/
structure Transfer where
  asset : Address
  fromAddr : Address
  toAddr : Address
  amount : ℤ
  deriving DecidableEq, Repr

/-- Transfers made one after the other; the first that the token refuses ends them. -/
def transferAll (host : RevenueHost T) (t : T) (made : List Transfer) : Option T :=
  made.foldlM (fun t x => host.tokenTransfer t x.asset x.fromAddr x.toAddr x.amount) t

/-- The transfers of the positive amounts among those due. -/
def positiveTransfers (asset caller : Address) (due : List (Address × ℤ)) : List Transfer :=
  (due.filter fun d => 0 < d.2).map fun d =>
    { asset := asset, fromAddr := caller, toAddr := d.1, amount := d.2 }

/-- What the code computes as due: the fee and the shares, in the machine's arithmetic. -/
def computedDue (config : RevenueConfig) (feeAddress : Address) (amount : ℤ) :
    List (Address × ℤ) :=
  (feeAddress, portion amount config.protocolFeeBps) ::
    config.beneficiaries.map fun b =>
      (b.1, portion (i128Sub amount (portion amount config.protocolFeeBps)) b.2)

section Transfers

variable {host env s t} {t' : T} {asset caller : Address}

/-- An amount that is not positive is not transferred. -/
theorem transferPositive_eq_ok {toAddr : Address} {x : ℤ} :
    transferPositive host t asset caller toAddr x = .ok t' ↔
      transferAll host t (positiveTransfers asset caller [(toAddr, x)]) = some t' := by
  unfold transferPositive
  by_cases hx : 0 < x
  · rw [if_pos hx, orPanic_eq_ok]
    simp [positiveTransfers, transferAll, hx]
  · rw [if_neg hx, pure_eq_ok]
    simp [positiveTransfers, transferAll, hx]

/-- Each due is transferred if it is positive. -/
theorem positiveTransfers_cons (d : Address × ℤ) (due : List (Address × ℤ)) :
    positiveTransfers asset caller (d :: due)
      = positiveTransfers asset caller [d] ++ positiveTransfers asset caller due := by
  unfold positiveTransfers
  rw [← List.map_append, ← List.filter_append]
  rfl

@[simp] theorem transferAll_nil : transferAll host t [] = some t := rfl

theorem transferAll_cons (x : Transfer) (made : List Transfer) :
    transferAll host t (x :: made)
      = (host.tokenTransfer t x.asset x.fromAddr x.toAddr x.amount).bind fun t =>
          transferAll host t made := by
  unfold transferAll
  rw [List.foldlM_cons]
  rfl

/-- Transfers are made one after the other. -/
theorem transferAll_append (made rest : List Transfer) :
    transferAll host t (made ++ rest)
      = (transferAll host t made).bind fun t => transferAll host t rest := by
  unfold transferAll
  rw [List.foldlM_append]
  rfl

/-- The shares are paid when all their transfers are made. -/
theorem payShares_eq_ok {netAmount : ℤ} {beneficiaries : List (Address × ℕ)} :
    payShares host asset caller netAmount beneficiaries t = .ok t' ↔
      transferAll host t (positiveTransfers asset caller
        (beneficiaries.map fun b => (b.1, portion netAmount b.2))) = some t' := by
  induction beneficiaries generalizing t with
  | nil => simp [payShares, positiveTransfers, transferAll]
  | cons b rest ih =>
      rw [List.map_cons, positiveTransfers_cons, transferAll_append, Option.bind_eq_some_iff]
      simp only [payShares, bind_eq_ok, transferPositive_eq_ok, ih]

/-- The fee is paid first, and then the shares of what is left. -/
theorem transferAll_computedDue {config : RevenueConfig} {feeAddress : Address} {amount : ℤ} :
    transferAll host t (positiveTransfers asset caller (computedDue config feeAddress amount))
        = some t' ↔
      ∃ t₁, transferPositive host t asset caller feeAddress
          (portion amount config.protocolFeeBps) = .ok t₁ ∧
        payShares host asset caller (i128Sub amount (portion amount config.protocolFeeBps))
          config.beneficiaries t₁ = .ok t' := by
  unfold computedDue
  rw [positiveTransfers_cons, transferAll_append, Option.bind_eq_some_iff]
  simp only [transferPositive_eq_ok, payShares_eq_ok]

/-- A distribution that returns has made the transfers that the code computes as due. -/
theorem distribute_eq_ok {projectId : SorobanString} {amount : ℤ} {b : Bool} :
    distribute host env s t caller projectId asset amount = .ok (b, t') ↔
      env.Authorised caller ∧ b = true ∧ ∃ config feeAddress,
        s.configs projectId = some config ∧ s.feeAddr = some feeAddress ∧
        transferAll host t (positiveTransfers asset caller
          (computedDue config feeAddress amount)) = some t' := by
  simp only [transferAll_computedDue]
  simp only [distribute, bind_eq_ok, Env.requireAuth_eq_ok, orPanic_eq_ok, pure_eq_ok,
    Prod.mk.injEq]
  constructor
  · rintro ⟨-, hauth, config, hconfig, feeAddress, hfee, t₁, hpaid, t₂, hshares, rfl, rfl⟩
    exact ⟨hauth, rfl, config, feeAddress, hconfig, hfee, t₁, hpaid, hshares⟩
  · rintro ⟨hauth, rfl, config, feeAddress, hconfig, hfee, t₁, hpaid, hshares⟩
    exact ⟨(), hauth, config, hconfig, feeAddress, hfee, t₁, hpaid, t', hshares, rfl, rfl⟩

end Transfers

/-! ## The stored configurations -/

/-- What `configure` has checked of a configuration. -/
structure Checked (projectId : SorobanString) (config : RevenueConfig) : Prop where
  projectId_eq : config.projectId = projectId
  total : totalBps config.beneficiaries = 10000
  feeBps : config.protocolFeeBps = PROTOCOL_FEE_BPS

/-- Every stored configuration went through `configure`. -/
def ConfigsChecked (s : RevenueSplit) : Prop :=
  ∀ projectId config, s.configs projectId = some config → Checked projectId config

/-- Before the first configuration there is nothing to check. -/
theorem configsChecked_empty : ConfigsChecked {} := by
  intro projectId config h
  cases h

/-- A configuration is only stored once it is checked. -/
theorem exec_configsChecked {host : RevenueHost T} {env : Env} {s s' : RevenueSplit} {t t' : T}
    {call : Call}
    (h : exec host env s t call = .ok (s', t')) (hs : ConfigsChecked s) : ConfigsChecked s' := by
  cases call <;> simp only [exec, map_eq_ok, Prod.exists, Prod.mk.injEq] at h
  case init =>
    obtain ⟨_, _, hinit, rfl, rfl⟩ := h
    obtain ⟨-, rfl⟩ := init_eq_ok.mp hinit
    exact hs
  case configure admin projectId beneficiaries =>
    obtain ⟨_, _, hconfigure, rfl, rfl⟩ := h
    obtain ⟨-, -, -, -, htotal, rfl⟩ := configure_eq_ok.mp hconfigure
    intro p config hp
    rw [writeConfig_configs] at hp
    by_cases hpid : p = projectId
    · subst hpid
      rw [Function.update_self] at hp
      obtain rfl := Option.some.inj hp
      exact ⟨rfl, htotal, rfl⟩
    · rw [Function.update_of_ne hpid] at hp
      exact hs p config hp
  case distribute =>
    obtain ⟨_, _, _, rfl, rfl⟩ := h
    exact hs
  case getConfig =>
    obtain ⟨_, _, rfl, rfl⟩ := h
    exact hs

/-- In every run the stored configurations are checked. -/
theorem run_configsChecked (host : RevenueHost T) (calls : List (Env × T × Call)) :
    ConfigsChecked (Transition.run (apply host) {} calls) := by
  refine Transition.run_invariant (C := fun _ _ => True) ?_ configsChecked_empty
    fun _ _ => trivial
  intro s call hs _
  unfold apply
  split
  · next hexec => exact exec_configsChecked hexec hs
  · exact hs

end RevenueSplit

end CarbonVeritas
