/-
# Wiring of the satellites

A satellite that has been initialised stores an admin and the address of its registry, and
its calls write no other registry (`exec_satellite_registry`).  The `init` of the bridge
refuses a second call; the `init` of the marketplace and of the tracker accepts any call
whose own admin argument signed it, whoever the stored admin is.

`wiring_stable_iff` : in a run without the stored admin, the wiring stays and the calls of
the satellite are calls of its registry, for the bridge always, and for the other two
exactly if no such call of `init` is made.
-/
import CarbonVeritas.World

namespace CarbonVeritas

open Transition

/-- The satellite that a call is addressed to. -/
def Call.satellite : Call → Option Satellite
  | .registry _ _ => none
  | .marketplace _ => some .marketplace
  | .tracker _ => some .tracker
  | .bridge _ => some .bridge

namespace World

variable {T : Type} {ch : Chain T} {w w' : World T} {tx : Tx ch} {k : Satellite} {a r : Address}

/-! ## One step -/

/-- The satellite `k` stores the admin `a` and the registry `r`. -/
def WiredTo (k : Satellite) (a r : Address) (w : World T) : Prop :=
  w.adminOf k = some a ∧ w.creditRegistryOf k = some r

/-- A call of a satellite leaves every registry but the one that it is wired to. -/
theorem exec_satellite_registry (hexec : exec ch w tx = .ok w')
    (hcall : tx.call.satellite = some k) (hr : w.creditRegistryOf k = some r) {r' : Address}
    (hr' : r' ≠ r) : w'.registry r' = w.registry r' := by
  -- one call of the stored registry
  have hwrite : ∀ {l : Ledger T} {r₀ : Address} {s : CreditRegistry}, some r₀ = some r →
      (l.writeRegistry r₀ s).registries r' = l.registries r' := by
    intro l r₀ s heq
    obtain rfl : r₀ = r := Option.some.inj heq
    exact Ledger.registry_writeRegistry_ne hr' l s
  have hstep := exec_step hexec
  generalize tx.call = call at hstep hcall
  unfold registry
  cases hstep with
  | registry _ _ => cases hcall
  | marketplace hchange =>
      cases hcall
      cases hchange with
      | keep _ hl _ => rw [hl]
      | init _ _ hl => rw [hl]
      | create hchecks _ hl => rw [hl]; exact hwrite (hchecks.wired.symm.trans hr)
      | buy hchecks _ hl => rw [hl]; exact hwrite (hchecks.wired.symm.trans hr)
      | cancel hchecks _ hl => rw [hl]; exact hwrite (hchecks.wired.symm.trans hr)
  | tracker hchange =>
      cases hcall
      cases hchange with
      | keep _ hl _ => rw [hl]
      | init _ _ hl => rw [hl]
      | retire _ _ hwired hall =>
          refine RetirementTracker.retireAll_rule
            (P := fun _ l => l.registries r' = w.ledger.registries r') ?_ rfl hall
          intro t l input record t' l' hl hitem
          obtain ⟨credit, hchecks, -, -, rfl⟩ := RetirementTracker.retireItem_eq_ok.mp hitem
          rw [hwrite (hwired.symm.trans hr), hl]
  | bridge hchange =>
      cases hcall
      cases hchange with
      | keep _ hl _ => rw [hl]
      | init _ _ hl => rw [hl]
      | updateRoot _ _ _ hl => rw [hl]
      | bridgeIn hchecks _ hl => rw [hl]; exact hwrite (hchecks.wired.symm.trans hr)
      | bridgeOut hchecks _ hl => rw [hl]; exact hwrite (hchecks.wired.symm.trans hr)

/-- A call of the satellite's `init` that its own admin argument signed. -/
def SelfInit (k : Satellite) (tx : Tx ch) : Prop :=
  ∃ a r, initArgs tx.call k = some (a, r) ∧ a ∈ tx.signers

/-- The marketplace and the tracker check nothing else. -/
theorem SelfInit.succeeds (h : SelfInit k tx) (hk : k ≠ .bridge) (w : World T) :
    Succeeds ch w tx := by
  obtain ⟨a, r, hargs, hsigned⟩ := h
  have hauth : tx.env.Authorised a := tx.env_authorised.mpr hsigned
  unfold Succeeds exec
  generalize tx.call = call at hargs ⊢
  cases k with
  | bridge => exact absurd rfl hk
  | marketplace =>
      cases call with
      | registry _ _ => cases hargs
      | tracker _ => cases hargs
      | bridge _ => cases hargs
      | marketplace call =>
          cases call <;> cases hargs
          have hinit : w.marketplace.init tx.env a r = .ok ((), _) :=
            Marketplace.init_eq_ok.mpr ⟨hauth, rfl⟩
          simp only [Marketplace.exec, hinit]
          exact ⟨_, rfl⟩
  | tracker =>
      cases call with
      | registry _ _ => cases hargs
      | marketplace _ => cases hargs
      | bridge _ => cases hargs
      | tracker call =>
          cases call <;> cases hargs
          have hinit : w.tracker.init tx.env a r = .ok ((), _) :=
            RetirementTracker.init_eq_ok.mpr ⟨hauth, rfl⟩
          simp only [RetirementTracker.exec, hinit]
          exact ⟨_, rfl⟩

/-- A transaction without the stored admin keeps the wiring if and only if the satellite is
the bridge, or the transaction is no such call of `init`. -/
theorem wiredTo_apply_iff (h : WiredTo k a r w) (htx : a ∉ tx.signers) :
    WiredTo k a r (apply ch w tx) ↔ k = .bridge ∨ ¬ SelfInit k tx := by
  constructor
  · intro h'
    by_cases hk : k = .bridge
    · exact Or.inl hk
    · refine Or.inr fun hself => ?_
      have hexec := (hself.succeeds hk w).exec_eq
      obtain ⟨a', r', hargs, hsigned⟩ := hself
      -- it would store an admin who signed, and `a` did not
      rcases exec_wiring hexec k with ⟨hnone, -⟩ | ⟨a'', r'', hrewired⟩
      · rw [hargs] at hnone
        cases hnone
      · have hadmin : a'' = a := Option.some.inj (hrewired.admin.symm.trans h'.1)
        obtain ⟨rfl, rfl⟩ := Prod.mk.inj (Option.some.inj (hargs.symm.trans hrewired.call))
        rw [hadmin] at hsigned
        exact htx hsigned
  · intro hcond
    refine apply_rule h fun w' hexec => ?_
    rcases exec_wiring hexec k with ⟨-, hadmin, hregistry⟩ | ⟨a', r', hrewired⟩
    · exact ⟨hadmin.trans h.1, hregistry.trans h.2⟩
    · -- the bridge has an admin already; the others ask for a signature
      rcases hrewired.guard with ⟨-, hnone⟩ | ⟨hk, hsigned⟩
      · rw [h.1] at hnone
        cases hnone
      · rcases hcond with hbridge | hself
        · exact absurd hbridge hk
        · exact absurd ⟨a', r', hrewired.call, hsigned⟩ hself

/-! ## Whole runs -/

/-- The calls of the satellite `k` write no other registry than `r`. -/
def CallsOnly (ch : Chain T) (k : Satellite) (r : Address) (w : World T) (tx : Tx ch) : Prop :=
  tx.call.satellite = some k → ∀ r', r' ≠ r → (apply ch w tx).registry r' = w.registry r'

theorem WiredTo.callsOnly (h : WiredTo k a r w) (tx : Tx ch) : CallsOnly ch k r w tx := by
  intro hcall r' hr'
  refine apply_rule (P := fun w' => w'.registry r' = w.registry r') rfl fun w' hexec => ?_
  exact exec_satellite_registry hexec hcall h.2 hr'

/-- **Stable wiring.**  Let the satellite `k` be initialised with the admin `a` and the
registry `r`.  In a run that `a` signs nothing of, the stored admin and registry stay as they
are and the calls of the satellite write no registry but `r`, if and only if `k` is the
bridge or no transaction of the run is a call of its `init` that its own admin argument
signed. -/
theorem wiring_stable_iff (ch : Chain T) (k : Satellite) (w : World T) (a r : Address)
    (hw : WiredTo k a r w) (ts : List (Tx ch)) (hts : ∀ tx ∈ ts, a ∉ tx.signers) :
    (Throughout (apply ch) (WiredTo k a r) w ts ∧ Always (apply ch) (CallsOnly ch k r) w ts) ↔
      k = .bridge ∨ ∀ tx ∈ ts, ¬ SelfInit k tx := by
  have hiff : Throughout (apply ch) (WiredTo k a r) w ts ↔
      Always (apply ch) (fun _ tx => k = .bridge ∨ ¬ SelfInit k tx) w ts :=
    throughout_iff_always (J := fun _ => True) (C := fun _ tx => a ∉ tx.signers)
      (fun _ _ _ _ => trivial) (fun w tx _ htx h => wiredTo_apply_iff h htx) trivial hw
      (always_labels_iff.mpr hts)
  rw [always_labels_iff] at hiff
  constructor
  · rintro ⟨hwired, -⟩
    by_cases hk : k = .bridge
    · exact Or.inl hk
    · exact Or.inr fun tx htx => (hiff.mp hwired tx htx).resolve_left hk
  · intro hcond
    have hwired : Throughout (apply ch) (WiredTo k a r) w ts := by
      refine hiff.mpr fun tx htx => ?_
      rcases hcond with hk | hself
      · exact Or.inl hk
      · exact Or.inr (hself tx htx)
    exact ⟨hwired, hwired.always.mono fun w tx h => h.callsOnly tx⟩

/-- Account 2 escrows its credit: the wiring to the registry of the first `init` stays. -/
theorem wiring_stable_offer :
    Throughout (apply Sample.chain) (WiredTo .marketplace (.account 0) Sample.registry)
      (run (apply Sample.chain) Sample.start Sample.setup) [Sample.offerOne] := by
  refine ((wiring_stable_iff Sample.chain .marketplace _ (.account 0) Sample.registry
    ⟨by rfl, by rfl⟩ [Sample.offerOne] ?_).mpr (Or.inr ?_)).1
  · intro tx htx
    obtain rfl := List.mem_singleton.mp htx
    decide
  · rintro tx htx ⟨_, _, hargs, -⟩
    obtain rfl := List.mem_singleton.mp htx
    cases hargs

/-- Account 1, not the admin, wires the marketplace to another registry. -/
theorem wiring_not_stable :
    ¬ ∀ (T : Type) (ch : Chain T) (tokens : T) (us : List (Tx ch)) (k : Satellite)
        (a r : Address), WiredTo k a r (run (apply ch) (genesis tokens) us) →
      ∀ ts : List (Tx ch), (∀ tx ∈ ts, a ∉ tx.signers) →
        Throughout (apply ch) (WiredTo k a r) (run (apply ch) (genesis tokens) us) ts ∧
          Always (apply ch) (CallsOnly ch k r) (run (apply ch) (genesis tokens) us) ts := by
  intro h
  obtain ⟨hwired, -⟩ := h Sample.Balances Sample.chain (fun _ _ => 1000000) Sample.setup
    .marketplace (.account 0) Sample.registry ⟨by rfl, by rfl⟩
    [Sample.tx 1 11 (.marketplace (.init (.account 1) Sample.otherRegistry))] (by
      intro tx htx
      obtain rfl := List.mem_singleton.mp htx
      decide)
  exact absurd (Option.some.inj hwired.last.2) (by decide)

end World

end CarbonVeritas
