/-
# Runs of the whole deployment

`World` is the storage of a deployment: the registries and tokens of the ledger, one
marketplace, one retirement tracker and one bridge.  A transaction (`Tx`) is one call of
one entry point with the accounts that authorised it; none of them is a contract of the
deployment, since these contracts sign nothing.  A transaction that panics is rolled back
as a whole (`apply`).

The second half collects what every later file needs from one step:

* `exec_step` : which contract was called and what it left of the others;
* `exec_wiring` : the stored admin and registry address of a satellite change in calls of
  its `init` only;
* `exec_registryCalls` : to each registry a transaction is a sequence of its own calls, so
  that what these calls preserve holds in the deployment (`apply_registry_rule`).
-/
import CarbonVeritas.TransitionRun
import CarbonVeritas.Token
import CarbonVeritas.RegistryLifecycle
import CarbonVeritas.Marketplace
import CarbonVeritas.RetirementTracker
import CarbonVeritas.MerkleBridge
import Mathlib.Logic.Relation

namespace CarbonVeritas

open Transition

/-! ## States and transactions -/

/-- The storage of a deployment. -/
structure World (T : Type) where
  ledger : Ledger T
  marketplace : Marketplace := {}
  tracker : RetirementTracker := {}
  bridge : MerkleBridge := {}

/-- A call of a public entry point of the deployment. -/
inductive Call where
  | registry (r : Address) (call : CreditRegistry.Call)
  | marketplace (call : Marketplace.Call)
  | tracker (call : RetirementTracker.Call)
  | bridge (call : MerkleBridge.Call)

/-- A transaction: a call, and the addresses that authorised it. -/
structure Tx {T : Type} (ch : Chain T) where
  signers : List Address
  external : ∀ a ∈ signers, ¬ ch.Deployed a
  timestamp : ℕ
  sequence : ℕ
  call : Call

namespace World

variable {T : Type} {ch : Chain T}

/-- The deployment before its first transaction. -/
def genesis (tokens : T) : World T where
  ledger := { tokens := tokens }

/-- The storage of the registry at `r`. -/
def registry (w : World T) (r : Address) : CreditRegistry := w.ledger.registries r

end World

namespace Tx

variable {T : Type} {ch : Chain T} (tx : Tx ch)

/-- What the called contract sees of the transaction. -/
def env : Env where
  signers := tx.signers
  invoker := none
  timestamp := tx.timestamp
  sequence := tx.sequence

/-- A transaction authorises those who sign it. -/
@[simp] theorem env_authorised {a : Address} : tx.env.Authorised a ↔ a ∈ tx.signers := by
  simp [Env.Authorised, env]

/-- A contract of the deployment authorises nothing in a call made from outside. -/
theorem not_authorised_of_deployed {a : Address} (ha : ch.Deployed a) :
    ¬ tx.env.Authorised a := by
  rw [env_authorised]
  exact fun hmem => tx.external a hmem ha

/-- A contract signs no transaction. -/
theorem ne_of_signed {a b : Address} (ha : a ∈ tx.signers) (hb : ch.Deployed b) : a ≠ b := by
  rintro rfl
  exact tx.external a ha hb

/-- In a call made by the contract `c`, another address has to have signed. -/
theorem calledBy_authorised {a c : Address} (hac : a ≠ c) :
    (tx.env.calledBy c).Authorised a ↔ a ∈ tx.signers := by
  unfold Env.Authorised
  rw [Env.calledBy_signers, Env.calledBy_invoker, Option.some.injEq]
  constructor
  · rintro (hmem | heq)
    · exact hmem
    · exact absurd heq.symm hac
  · intro hmem
    exact Or.inl hmem

/-- What the calls of a registry within the transaction see: the transaction itself, or a
call made by a satellite. -/
def callEnv : Call → Env
  | .registry _ _ => tx.env
  | .marketplace _ => tx.env.calledBy (ch.address .marketplace)
  | .tracker _ => tx.env.calledBy (ch.address .tracker)
  | .bridge _ => tx.env.calledBy (ch.address .bridge)

/-- The marketplace authorises nothing outside its own calls. -/
theorem callEnv_not_authorised {call : Call} (hcall : ∀ c, call ≠ .marketplace c) :
    ¬ (tx.callEnv call).Authorised (ch.address .marketplace) := by
  have hsigned : ch.address .marketplace ∉ tx.signers := fun hmem =>
    tx.external _ hmem (ch.deployed_address _)
  cases call with
  | registry r c => exact tx.not_authorised_of_deployed (ch.deployed_address _)
  | marketplace c => exact absurd rfl (hcall c)
  | tracker c =>
      have hne : ch.address .marketplace ≠ ch.address .tracker := fun heq =>
        absurd (ch.address_injective heq) (by decide)
      rw [callEnv, calledBy_authorised tx hne]
      exact hsigned
  | bridge c =>
      have hne : ch.address .marketplace ≠ ch.address .bridge := fun heq =>
        absurd (ch.address_injective heq) (by decide)
      rw [callEnv, calledBy_authorised tx hne]
      exact hsigned

end Tx

namespace World

variable {T : Type} {ch : Chain T} {w w' : World T} {tx : Tx ch}

/-! ## Execution -/

/-- The storage after a transaction that does not panic. -/
def exec (ch : Chain T) (w : World T) (tx : Tx ch) : Result (World T) :=
  match tx.call with
  | .registry r call => do
      let (_, l) ← w.ledger.callRegistry ch r fun s =>
        (CreditRegistry.exec ch.sha256 tx.env s call).map fun s => ((), s)
      return { w with ledger := l }
  | .marketplace call => do
      let (m, l) ← Marketplace.exec ch tx.env w.marketplace w.ledger call
      return { w with marketplace := m, ledger := l }
  | .tracker call => do
      let (t, l) ← RetirementTracker.exec ch tx.env w.tracker w.ledger call
      return { w with tracker := t, ledger := l }
  | .bridge call => do
      let (b, l) ← MerkleBridge.exec ch tx.env w.bridge w.ledger call
      return { w with bridge := b, ledger := l }

/-- One transaction: a panic leaves the storage as it was. -/
def apply (ch : Chain T) (w : World T) (tx : Tx ch) : World T :=
  match exec ch w tx with
  | .ok w' => w'
  | .error _ => w

/-- The transaction takes effect. -/
def Succeeds (ch : Chain T) (w : World T) (tx : Tx ch) : Prop := ∃ w', exec ch w tx = .ok w'

/-- A transaction that is executed leaves what it is executed to. -/
theorem apply_of_ok (h : exec ch w tx = .ok w') : apply ch w tx = w' := by
  simp only [apply, h]

/-- A transaction that fails leaves the deployment. -/
theorem apply_of_not_succeeds (h : ¬ Succeeds ch w tx) : apply ch w tx = w := by
  unfold apply
  cases hexec : exec ch w tx with
  | error _ => rfl
  | ok w' => exact absurd ⟨w', hexec⟩ h

/-- A transaction that succeeds is executed. -/
theorem Succeeds.exec_eq (h : Succeeds ch w tx) : exec ch w tx = .ok (apply ch w tx) := by
  obtain ⟨w', hexec⟩ := h
  rw [apply_of_ok hexec, hexec]

/-- A transaction leaves the storage as it was, or its call returned. -/
theorem apply_rule {P : World T → Prop} (hpanic : P w)
    (hok : ∀ w', exec ch w tx = .ok w' → P w') : P (apply ch w tx) := by
  by_cases h : Succeeds ch w tx
  · exact hok _ h.exec_eq
  · rw [apply_of_not_succeeds h]
    exact hpanic

/-! ## One step -/

/-- What a transaction that takes effect does, by the contract it calls. -/
inductive Step (ch : Chain T) (w : World T) (tx : Tx ch) : World T → Call → Prop where
  | registry {r : Address} {call : CreditRegistry.Call} {s : CreditRegistry}
      (hr : ch.isRegistry r = true)
      (h : CreditRegistry.exec ch.sha256 tx.env (w.registry r) call = .ok s) :
      Step ch w tx { w with ledger := w.ledger.writeRegistry r s } (.registry r call)
  | marketplace {call : Marketplace.Call} {m : Marketplace} {l : Ledger T}
      (h : Marketplace.MarketplaceChange ch tx.env w.marketplace w.ledger m l call) :
      Step ch w tx { w with marketplace := m, ledger := l } (.marketplace call)
  | tracker {call : RetirementTracker.Call} {t : RetirementTracker} {l : Ledger T}
      (h : RetirementTracker.TrackerChange ch tx.env w.tracker w.ledger t l call) :
      Step ch w tx { w with tracker := t, ledger := l } (.tracker call)
  | bridge {call : MerkleBridge.Call} {b : MerkleBridge} {l : Ledger T}
      (h : MerkleBridge.BridgeChange ch tx.env w.bridge w.ledger b l call) :
      Step ch w tx { w with bridge := b, ledger := l } (.bridge call)

/-- **Inversion.**  A transaction that takes effect is one of the four kinds of step. -/
theorem exec_step (h : exec ch w tx = .ok w') : Step ch w tx w' tx.call := by
  unfold exec at h
  cases hcall : tx.call with
  | registry r call =>
      simp only [hcall, bind_eq_ok, Ledger.callRegistry_eq_ok, map_eq_ok, pure_eq_ok,
        Prod.exists, Prod.mk.injEq] at h
      obtain ⟨_, _, ⟨hr, s, ⟨s', hexec, -, rfl⟩, rfl⟩, rfl⟩ := h
      exact .registry hr hexec
  | marketplace call =>
      simp only [hcall, bind_eq_ok, pure_eq_ok, Prod.exists] at h
      obtain ⟨m, l, hexec, rfl⟩ := h
      exact .marketplace (Marketplace.exec_marketplaceChange hexec)
  | tracker call =>
      simp only [hcall, bind_eq_ok, pure_eq_ok, Prod.exists] at h
      obtain ⟨t, l, hexec, rfl⟩ := h
      exact .tracker (RetirementTracker.exec_trackerChange hexec)
  | bridge call =>
      simp only [hcall, bind_eq_ok, pure_eq_ok, Prod.exists] at h
      obtain ⟨b, l, hexec, rfl⟩ := h
      exact .bridge (MerkleBridge.exec_bridgeChange hexec)

/-! ## Wiring -/

/-- The registry address that a satellite stores. -/
def creditRegistryOf (w : World T) : Satellite → Option Address
  | .marketplace => w.marketplace.creditRegistry
  | .tracker => w.tracker.creditRegistry
  | .bridge => w.bridge.creditRegistry

/-- The admin that a satellite stores. -/
def adminOf (w : World T) : Satellite → Option Address
  | .marketplace => w.marketplace.admin
  | .tracker => w.tracker.admin
  | .bridge => w.bridge.admin

/-- The arguments of a call of the satellite's `init`. -/
def initArgs : Call → Satellite → Option (Address × Address)
  | .marketplace call, .marketplace => call.initArgs
  | .tracker call, .tracker => call.initArgs
  | .bridge call, .bridge => call.initArgs
  | _, _ => none

/-- An accepted `init` of the satellite `k`. -/
structure Rewired (w w' : World T) (tx : Tx ch) (k : Satellite) (a r : Address) : Prop where
  call : initArgs tx.call k = some (a, r)
  admin : w'.adminOf k = some a
  registry : w'.creditRegistryOf k = some r
  guard : k = .bridge ∧ w.adminOf k = none ∨ k ≠ .bridge ∧ a ∈ tx.signers

/-- The stored admin and registry address of a satellite change in its `init` only. -/
theorem exec_wiring (h : exec ch w tx = .ok w') (k : Satellite) :
    (initArgs tx.call k = none ∧ w'.adminOf k = w.adminOf k ∧
        w'.creditRegistryOf k = w.creditRegistryOf k) ∨
      ∃ a r, Rewired w w' tx k a r := by
  have hstep := exec_step h
  generalize hcall : tx.call = call at hstep
  cases hstep with
  -- no registry call touches what the satellites have stored
  | registry _ _ =>
      refine Or.inl ⟨rfl, ?_, ?_⟩
      · cases k <;> rfl
      · cases k <;> rfl
  | marketplace hchange =>
      cases k with
      | tracker => exact Or.inl ⟨rfl, rfl, rfl⟩
      | bridge => exact Or.inl ⟨rfl, rfl, rfl⟩
      | marketplace =>
          rcases hchange.wiring with hkeep | ⟨a, r, hargs, hauth, hadmin, hregistry⟩
          · exact Or.inl hkeep
          · rw [Tx.env_authorised] at hauth
            exact Or.inr ⟨a, r, by rw [hcall]; exact hargs, hadmin, hregistry,
              Or.inr ⟨by simp, hauth⟩⟩
  | tracker hchange =>
      cases k with
      | marketplace => exact Or.inl ⟨rfl, rfl, rfl⟩
      | bridge => exact Or.inl ⟨rfl, rfl, rfl⟩
      | tracker =>
          rcases hchange.wiring with hkeep | ⟨a, r, hargs, hauth, hadmin, hregistry⟩
          · exact Or.inl hkeep
          · rw [Tx.env_authorised] at hauth
            exact Or.inr ⟨a, r, by rw [hcall]; exact hargs, hadmin, hregistry,
              Or.inr ⟨by simp, hauth⟩⟩
  -- `init` of the bridge asks for no signature
  | bridge hchange =>
      cases k with
      | marketplace => exact Or.inl ⟨rfl, rfl, rfl⟩
      | tracker => exact Or.inl ⟨rfl, rfl, rfl⟩
      | bridge =>
          rcases hchange.wiring with hkeep | ⟨a, r, hargs, hnone, hadmin, hregistry⟩
          · exact Or.inl hkeep
          · exact Or.inr ⟨a, r, by rw [hcall]; exact hargs, hadmin, hregistry,
              Or.inl ⟨rfl, hnone⟩⟩

/-- An accepted `init` of the satellite `k` names `R`, or an address without a registry. -/
def InitsOn (R : Address) (k : Satellite) (w : World T) (tx : Tx ch) : Prop :=
  Succeeds ch w tx → ∀ a r, initArgs tx.call k = some (a, r) → ch.isRegistry r = true → r = R

/-- An accepted `init` of the satellite `k` names `R`. -/
def InitsAt (R : Address) (k : Satellite) (w : World T) (tx : Tx ch) : Prop :=
  Succeeds ch w tx → ∀ a r, initArgs tx.call k = some (a, r) → r = R

/-- An `init` that names `R` is one that names no other registry. -/
theorem InitsAt.initsOn {R : Address} {k : Satellite} (h : InitsAt R k w tx) :
    InitsOn R k w tx :=
  fun hsucc a r hargs _ => h hsucc a r hargs

/-- The condition on every call of a run, by evaluation. -/
theorem always_initsAt {R : Address} {k : Satellite} {ts : List (Tx ch)}
    (h : (ts.all fun tx => (initArgs tx.call k).all fun p => p.2 = R) = true) (w : World T) :
    Always (apply ch) (InitsAt R k) w ts := by
  refine always_of_forall_mem (fun tx htx _ _ a r hargs => ?_) w
  have hall := List.all_eq_true.mp h tx htx
  rw [hargs, Option.all_some, decide_eq_true_eq] at hall
  exact hall

/-- The condition on `init` can be read off the calls of a run. -/
theorem always_initsOn {R : Address} {k : Satellite} {ts : List (Tx ch)}
    (h : (ts.all fun tx => (initArgs tx.call k).all fun p => p.2 = R) = true) (w : World T) :
    Always (apply ch) (InitsOn R k) w ts :=
  (always_initsAt h w).mono fun _ _ hinits => hinits.initsOn

/-- The satellite `k` can call no other registry than `R`. -/
def WiredWithin (ch : Chain T) (R : Address) (k : Satellite) (w : World T) : Prop :=
  ∀ r, w.creditRegistryOf k = some r → ch.isRegistry r = true → r = R

/-- Nothing is wired at the start. -/
theorem wiredWithin_genesis (R : Address) (k : Satellite) (tokens : T) :
    WiredWithin ch R k (genesis tokens) := by
  intro r hr
  cases k <;> cases hr

/-- A contract stays wired within the registry while no `init` names another. -/
theorem WiredWithin.apply {R : Address} {k : Satellite} (hw : WiredWithin ch R k w)
    (htx : InitsOn R k w tx) : WiredWithin ch R k (apply ch w tx) := by
  refine apply_rule hw fun w' hexec => ?_
  intro r hr hreg
  rcases exec_wiring hexec k with ⟨-, -, hkeep⟩ | ⟨a, r', hrewired⟩
  · rw [hkeep] at hr
    exact hw r hr hreg
  · rw [hrewired.registry] at hr
    obtain rfl : r' = r := Option.some.inj hr
    exact htx ⟨w', hexec⟩ a r' hrewired.call hreg

/-! ## The registries -/

/-- The calls that a transaction makes of the registry at an address. -/
inductive Makes (tx : Tx ch) : Call → Address → CreditRegistry.Call → Prop where
  | direct {r : Address} {call : CreditRegistry.Call} : Makes tx (.registry r call) r call
  | transfer {c : Marketplace.Call} {r fromAddr toAddr : Address} {id : ℕ} :
      Makes tx (.marketplace c) r (.transferCredit fromAddr toAddr id)
  | retire {c : RetirementTracker.Call} {r : Address} {id : ℕ} :
      Makes tx (.tracker c) r (.markRetired (ch.address .tracker) id)
  | bridgeIn {c : MerkleBridge.Call} {r bridger : Address} {metadata : CreditMetadata}
      (hbridger : bridger ∈ tx.signers) :
      Makes tx (.bridge c) r (.mintBridged (ch.address .bridge) bridger metadata)
  | bridgeOut {c : MerkleBridge.Call} {r : Address} {id : ℕ} :
      Makes tx (.bridge c) r (.markRetired (ch.address .bridge) id)

/-- `s'` is reached from `s` by calls that the transaction makes of the registry at `r`. -/
def RegistryCalls (tx : Tx ch) (env : Env) (c : Call) (r : Address) :
    CreditRegistry → CreditRegistry → Prop :=
  Relation.ReflTransGen fun s s' =>
    ∃ call, Makes tx c r call ∧ CreditRegistry.exec ch.sha256 env s call = .ok s'

/-- One call of the registry at `r₀` is such a sequence for every registry. -/
theorem registryCalls_writeRegistry {l : Ledger T} {r₀ : Address} {s : CreditRegistry} {env : Env}
    {c : Call} {call : CreditRegistry.Call} (hmakes : Makes tx c r₀ call)
    (hexec : CreditRegistry.exec ch.sha256 env (l.registries r₀) call = .ok s) (r : Address) :
    RegistryCalls tx env c r (l.registries r) ((l.writeRegistry r₀ s).registries r) := by
  by_cases hr : r = r₀
  · subst hr
    rw [Ledger.registry_writeRegistry_self]
    exact .single ⟨call, hmakes, hexec⟩
  · rw [Ledger.registry_writeRegistry_ne hr]
    exact .refl

/-- **Projection.**  To each registry, a transaction is a sequence of its own calls. -/
theorem exec_registryCalls (h : exec ch w tx = .ok w') (r : Address) :
    RegistryCalls tx (tx.callEnv tx.call) tx.call r (w.registry r) (w'.registry r) := by
  have hstep := exec_step h
  generalize tx.call = call at hstep ⊢
  cases hstep with
  | registry _ hcall => exact registryCalls_writeRegistry .direct hcall r
  | marketplace hchange =>
      cases hchange with
      | keep _ hl _ =>
          subst hl
          exact .refl
      | init _ _ hl =>
          subst hl
          exact .refl
      | create hchecks _ hl =>
          subst hl
          exact registryCalls_writeRegistry .transfer (hchecks.transferable.exec_eq _) r
      | @buy _ _ _ _ _ tokens hchecks _ hl =>
          subst hl
          -- the payment comes first and leaves the registries
          exact registryCalls_writeRegistry (l := { w.ledger with tokens := tokens })
            .transfer (hchecks.transferable.exec_eq _) r
      | cancel hchecks _ hl =>
          subst hl
          exact registryCalls_writeRegistry .transfer (hchecks.transferable.exec_eq _) r
  | @tracker c _ _ hchange =>
      cases hchange with
      | keep _ hl _ =>
          subst hl
          exact .refl
      | init _ _ hl =>
          subst hl
          exact .refl
      | retire _ _ _ hall =>
          -- a batch is one call of `mark_retired` an item
          refine RetirementTracker.retireAll_rule
            (P := fun _ l => RegistryCalls tx (tx.env.calledBy (ch.address .tracker)) (.tracker c) r
              (w.registry r) (l.registries r)) ?_ .refl hall
          intro t l input record t' l' hl hitem
          obtain ⟨credit, hchecks, -, -, rfl⟩ := RetirementTracker.retireItem_eq_ok.mp hitem
          exact hl.trans (registryCalls_writeRegistry .retire hchecks.exec_eq r)
  | bridge hchange =>
      cases hchange with
      | keep _ hl _ =>
          subst hl
          exact .refl
      | init _ _ hl =>
          subst hl
          exact .refl
      | updateRoot _ _ _ hl =>
          subst hl
          exact .refl
      | bridgeIn hchecks _ hl =>
          subst hl
          exact registryCalls_writeRegistry (.bridgeIn (tx.env_authorised.mp hchecks.authorised))
            hchecks.exec_eq r
      | bridgeOut hchecks _ hl =>
          subst hl
          exact registryCalls_writeRegistry .bridgeOut hchecks.exec_eq r

/-- What every call that the transaction makes of a registry preserves, the transaction
preserves. -/
theorem apply_registry_rule {P : CreditRegistry → Prop} {r : Address}
    (hcall : ∀ s call s', P s → Makes tx tx.call r call →
      CreditRegistry.exec ch.sha256 (tx.callEnv tx.call) s call = .ok s' → P s')
    (hP : P (w.registry r)) : P ((apply ch w tx).registry r) := by
  refine apply_rule (P := fun w' => P (w'.registry r)) hP fun w' hexec => ?_
  have hcalls := exec_registryCalls hexec r
  generalize w'.registry r = s' at hcalls ⊢
  -- by induction on the calls made so far
  induction hcalls with
  | refl => exact hP
  | tail _ hlast ih =>
      obtain ⟨call, hmakes, hok⟩ := hlast
      exact hcall _ call _ ih hmakes hok

/-- At the start there is nothing to index. -/
theorem indexed_genesis (r : Address) (tokens : T) :
    ((genesis tokens).registry r).CreditsIndexed :=
  CreditRegistry.creditsIndexed_empty

/-- The credit ids of every registry stay in order. -/
theorem indexed_apply {r : Address} (h : (w.registry r).CreditsIndexed) :
    ((apply ch w tx).registry r).CreditsIndexed :=
  apply_registry_rule (fun _ _ _ hs _ hok => hs.step hok) h

/-- In every run the ids are in step with the counter. -/
theorem indexed_run (tokens : T) (ts : List (Tx ch)) (r : Address) :
    ((run (apply ch) (genesis tokens) ts).registry r).CreditsIndexed :=
  run_invariant (C := fun _ _ => True) (I := fun w : World T => (w.registry r).CreditsIndexed)
    (fun _ _ h _ => indexed_apply h) (indexed_genesis r tokens) fun _ _ => trivial

/-- A stored credit stays stored with its record, and its status only moves. -/
theorem credit_kept {r : Address} (hidx : (w.registry r).CreditsIndexed) {id : ℕ}
    {m : CreditMetadata} (hm : (w.registry r).credits id = some m) (tx : Tx ch) :
    ∃ m', ((apply ch w tx).registry r).credits id = some m' ∧ m.SameRecord m' ∧
      Relation.ReflTransGen CreditStatus.Moves m.status m'.status := by
  have hboth : ((apply ch w tx).registry r).CreditsIndexed ∧
      ∃ m', ((apply ch w tx).registry r).credits id = some m' ∧ m.SameRecord m' ∧
        Relation.ReflTransGen CreditStatus.Moves m.status m'.status := by
    refine apply_registry_rule (P := fun s => s.CreditsIndexed ∧ ∃ m', s.credits id = some m' ∧
      m.SameRecord m' ∧ Relation.ReflTransGen CreditStatus.Moves m.status m'.status) ?_
      ⟨hidx, m, hm, .refl m, .refl⟩
    rintro s call s' ⟨hs, m₁, hm₁, hsame, hreach⟩ - hok
    obtain ⟨m₂, hm₂, hsame', hmove⟩ := (CreditRegistry.exec_creditChange hok).metadata hs hm₁
    refine ⟨hs.step hok, m₂, hm₂, hsame.trans hsame', ?_⟩
    rcases hmove with hkeep | hmove
    · rwa [hkeep]
    · exact hreach.tail hmove
  exact hboth.2

/-- A stored credit stays stored, and its status moves forward. -/
theorem credit_reaches {r : Address} (hidx : (w.registry r).CreditsIndexed) {id : ℕ}
    {m : CreditMetadata} (hm : (w.registry r).credits id = some m) (tx : Tx ch) :
    ∃ m', ((apply ch w tx).registry r).credits id = some m' ∧
      Relation.ReflTransGen CreditStatus.Moves m.status m'.status := by
  obtain ⟨m', hm', -, hreach⟩ := credit_kept hidx hm tx
  exact ⟨m', hm', hreach⟩

end World

/-! ## A small deployment

Accounts 0 to 9 on a chain with two registries and a token that keeps balances; later
files run their examples on it. -/

namespace Sample

/-- SHA-256 on the inputs of the runs: the eight bytes of the credit ids 1 and 2, and the
64 bytes of the leaves 1 and 2. -/
def sha256 (n : ℕ) (x : BitVec n) : Bytes32 :=
  if n = 64 ∧ x.toNat = 1 then
    0xcd2662154e6d76b2b2b92e70c0cac3ccf534f9b74eb5b89819ec509083d00a50#256
  else if n = 64 ∧ x.toNat = 2 then
    0xcd04a4754498e06db5a13c5f371f1f04ff6d2470f24aa9bd886540e5dce77f70#256
  else if n = 512 ∧ x.toNat = 2 ^ 256 + 2 then
    0xd6ba9329f8932c12192b37849f772104d20048f76434a3290512d9d814e4116f#256
  else 0#256

def registry : Address := .contract 100
def otherRegistry : Address := .contract 101
def currency : Address := .contract 9

def chain : Chain Balances where
  sha256 := sha256
  mulI128 := fun a b => a * b
  tokenTransfer := transfer
  isRegistry := fun a => a = registry ∨ a = otherRegistry
  address
    | .marketplace => .contract 1
    | .tracker => .contract 2
    | .bridge => .contract 3
  address_injective := by
    intro a b h
    cases a <;> cases b <;> first | rfl | cases h
  address_not_registry := by
    intro k
    cases k <;> rfl

/-- A transaction signed by account `key`. -/
def tx (key timestamp : ℕ) (call : Call) : Tx chain where
  signers := [.account key]
  external := by
    intro a ha hdeployed
    obtain rfl := List.mem_singleton.mp ha
    rcases hdeployed with hreg | ⟨k, hk⟩
    · cases hreg
    · cases k <;> cases hk
  timestamp := timestamp
  sequence := timestamp
  call := call

/-- Every account starts with the balance 1000000. -/
def start : World Balances := World.genesis fun _ _ => 1000000

def metadata : CreditMetadata where
  projectId := [86]
  methodology := [77]
  vintageStart := 1
  vintageEnd := 2
  tonnes := 1000
  geography := [66, 82]
  serialPrefix := [83]
  sdgFlags := 0
  permanenceRating := 0
  bufferContributionPct := 0
  additionalityType := 0
  ipfsHash := []
  status := .pending
  createdAt := 0
  tokenId := 0#256

/-- Account 0 sets the contracts up, and account 2 gets the active credit 1. -/
def setup : List (Tx chain) :=
  [tx 0 1 (.registry registry (.init (.account 0) 1 1)),
   tx 0 2 (.registry registry (.addVerifier (.account 0) (.account 1))),
   tx 0 3 (.marketplace (.init (.account 0) registry)),
   tx 0 4 (.tracker (.init (.account 0) registry)),
   tx 0 5 (.bridge (.init (.account 0) registry)),
   tx 0 6 (.registry registry (.addRetirer (.account 0) (.contract 2))),
   tx 0 7 (.registry registry (.addRetirer (.account 0) (.contract 3))),
   tx 0 8 (.registry registry (.addBridge (.account 0) (.contract 3))),
   tx 2 9 (.registry registry (.submitCredit (.account 2) metadata [73])),
   tx 1 10 (.registry registry (.approveAndMint (.account 1) 1 []))]

/-- Account 2 offers the 1000 tonnes of credit 1. -/
def offerOne : Tx chain :=
  tx 2 11 (.marketplace (.createOffer (.account 2) 1 10000 1000 currency none))

/-- Account 3 buys `amount` tonnes from the first offer. -/
def buyOne (amount : ℤ) : Tx chain := tx 3 12 (.marketplace (.buyCredits (.account 3) 1 amount))

/-- Account 2 retires credit 1. -/
def retireOne : Tx chain := tx 2 13 (.tracker (.retire (.account 2) 1 [1] [2] [3]))

/-- Account 2 bridges credit 1 out. -/
def bridgeOutOne : Tx chain := tx 2 13 (.bridge (.bridgeOut (.account 2) 1))

end Sample

end CarbonVeritas
