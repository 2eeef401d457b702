/-
# Ownership

The four contracts move credits in one way only: by `transfer_credit` of the registry, which
the owner calls, or which the marketplace calls for the seller or for itself.

`ownership_security` : in every run, the owner of a credit changes in such a call alone.
-/
import CarbonVeritas.World

namespace CarbonVeritas

open Transition

namespace World

variable {T : Type} {ch : Chain T} {R : Address} {w w' : World T} {tx : Tx ch} {c : ℕ}
  {a : Address}

/-! ## One step -/

/-- The transaction calls `transfer_credit(a, b, c)` of the registry `R`, directly or through
the marketplace, while `a` owns the active credit `c`; `a` authorised the call, and the
registry is left as this call leaves it. -/
structure Transfers (ch : Chain T) (w w' : World T) (tx : Tx ch) (R : Address) (c : ℕ)
    (a b : Address) : Prop where
  made : Makes tx tx.call R (.transferCredit a b c)
  authorised : (tx.callEnv tx.call).Authorised a
  owner : (w.registry R).owners c = some a
  active : ∃ m, (w.registry R).credits c = some m ∧ m.status = .active
  returned : CreditRegistry.exec ch.sha256 (tx.callEnv tx.call) (w.registry R)
    (.transferCredit a b c) = .ok (w'.registry R)
  owner' : (w'.registry R).owners c = some b

/-- One call of a registry that the transaction makes, as its only one. -/
theorem owner_of_call {l : Ledger T} {r : Address} {s : CreditRegistry}
    {call : CreditRegistry.Call} (hmakes : Makes tx tx.call r call)
    (hregistries : l.registries = w.ledger.registries)
    (hledger : w'.ledger = l.writeRegistry r s)
    (hexec : CreditRegistry.exec ch.sha256 (tx.callEnv tx.call) (l.registries r) call = .ok s)
    (hidx : (w.registry R).CreditsIndexed) (ha : (w.registry R).owners c = some a) :
    (w'.registry R).owners c = some a ∨ ∃ b, Transfers ch w w' tx R c a b := by
  unfold registry at hidx ha ⊢
  rw [hregistries] at hexec
  by_cases hr : R = r
  · subst hr
    have hs : w'.ledger.registries R = s := by
      rw [hledger, Ledger.registry_writeRegistry_self]
    rw [hs]
    rcases (CreditRegistry.exec_creditChange hexec).owner_moves hidx ha with
      hkept | ⟨b, rfl, hauth, hactive, hb⟩
    · exact Or.inl hkept
    · refine Or.inr ⟨b, hmakes, hauth, ha, hactive, ?_, ?_⟩
      · unfold registry
        rw [hs]
        exact hexec
      · unfold registry
        rw [hs]
        exact hb
  · rw [hledger, Ledger.registry_writeRegistry_ne hr, hregistries]
    exact Or.inl ha

/-- A transaction that transfers nothing keeps the owners. -/
theorem owner_of_no_transfer (hexec : exec ch w tx = .ok w')
    (hcalls : ∀ call, Makes tx tx.call R call → ∀ a b id, call ≠ .transferCredit a b id)
    (hidx : (w.registry R).CreditsIndexed) (ha : (w.registry R).owners c = some a) :
    (w'.registry R).owners c = some a := by
  have hboth : ((apply ch w tx).registry R).CreditsIndexed ∧
      ((apply ch w tx).registry R).owners c = some a := by
    refine apply_registry_rule (P := fun s => s.CreditsIndexed ∧ s.owners c = some a) ?_
      ⟨hidx, ha⟩
    rintro s call s' ⟨hs, hown⟩ hmakes hok
    refine ⟨hs.step hok, ?_⟩
    rcases (CreditRegistry.exec_creditChange hok).owner_moves hs hown with
      hkept | ⟨b, hcall, -⟩
    · exact hkept
    · exact absurd hcall (hcalls call hmakes _ _ _)
  rw [apply_of_ok hexec] at hboth
  exact hboth.2

/-- **Inversion.**  The owner of a credit stays, or transfers it. -/
theorem exec_owner (hexec : exec ch w tx = .ok w') (hidx : (w.registry R).CreditsIndexed)
    (ha : (w.registry R).owners c = some a) :
    (w'.registry R).owners c = some a ∨ ∃ b, Transfers ch w w' tx R c a b := by
  have hstep := exec_step hexec
  generalize hcall : tx.call = call at hstep
  have hsame : ∀ {l : Ledger T}, l = w.ledger → w'.ledger = l →
      (w'.registry R).owners c = some a := by
    rintro l rfl hl
    unfold registry
    rw [hl]
    exact ha
  cases hstep with
  | @registry r call s _ hcall' =>
      have hmakes : Makes tx tx.call r call := by
        rw [hcall]
        exact .direct
      exact owner_of_call hmakes rfl rfl (by rw [hcall]; exact hcall') hidx ha
  | marketplace hchange =>
      cases hchange with
      | keep _ hl _ => exact Or.inl (hsame hl rfl)
      | init _ _ hl => exact Or.inl (hsame hl rfl)
      | create hchecks _ hl =>
          refine owner_of_call ?_ rfl hl (by rw [hcall]; exact hchecks.transferable.exec_eq _)
            hidx ha
          rw [hcall]
          exact .transfer
      | @buy _ _ _ _ _ tokens hchecks _ hl =>
          -- the payment leaves the registries
          refine owner_of_call (l := { w.ledger with tokens := tokens }) ?_ rfl hl
            (by rw [hcall]; exact hchecks.transferable.exec_eq _) hidx ha
          rw [hcall]
          exact .transfer
      | cancel hchecks _ hl =>
          refine owner_of_call ?_ rfl hl (by rw [hcall]; exact hchecks.transferable.exec_eq _)
            hidx ha
          rw [hcall]
          exact .transfer
  | tracker _ =>
      refine Or.inl (owner_of_no_transfer hexec (fun call hmakes => ?_) hidx ha)
      rw [hcall] at hmakes
      cases hmakes
      simp
  | bridge _ =>
      refine Or.inl (owner_of_no_transfer hexec (fun call hmakes => ?_) hidx ha)
      rw [hcall] at hmakes
      cases hmakes <;> simp

/-! ## The main theorem -/

/-- Whoever authorises a transfer signed the transaction, or is the calling marketplace. -/
theorem Transfers.signed {b : Address} (h : Transfers ch w w' tx R c a b)
    (ha : ¬ ch.Deployed a) : a ∈ tx.signers := by
  have hauth := h.authorised
  generalize tx.call = call at hauth
  cases call with
  | registry _ _ => exact tx.env_authorised.mp hauth
  | marketplace _ =>
      refine (tx.calledBy_authorised fun heq => ha ?_).mp hauth
      rw [heq]
      exact ch.deployed_address _
  | tracker _ =>
      refine (tx.calledBy_authorised fun heq => ha ?_).mp hauth
      rw [heq]
      exact ch.deployed_address _
  | bridge _ =>
      refine (tx.calledBy_authorised fun heq => ha ?_).mp hauth
      rw [heq]
      exact ch.deployed_address _

/-- **Ownership security.**  In every run of the four contracts a credit has an owner exactly
if it is stored, and in each step: the owner stays, or it transfers the credit, by a call of
`transfer_credit` that it authorised and that returns; it stays if the credit is not active,
and if it is no contract of the deployment and did not sign the transaction. -/
theorem ownership_security (ch : Chain T) (tokens : T) (ts : List (Tx ch)) :
    (∀ R c, (((run (apply ch) (genesis tokens) ts).registry R).owners c).isSome =
        (((run (apply ch) (genesis tokens) ts).registry R).credits c).isSome) ∧
      ∀ p ∈ steps (apply ch) (genesis tokens) ts, ∀ R c a, (p.1.registry R).owners c = some a →
        (((apply ch p.1 p.2).registry R).owners c = some a ∨
          Succeeds ch p.1 p.2 ∧ ∃ b, Transfers ch p.1 (apply ch p.1 p.2) p.2 R c a b) ∧
        (∀ m, (p.1.registry R).credits c = some m → m.status ≠ .active →
          ((apply ch p.1 p.2).registry R).owners c = some a) ∧
        (¬ ch.Deployed a → a ∉ p.2.signers →
          ((apply ch p.1 p.2).registry R).owners c = some a) := by
  refine ⟨fun R c => ?_, ?_⟩
  · have hidx : ((run (apply ch) (genesis tokens) ts).registry R).CreditsIndexed :=
      indexed_run tokens ts R
    rw [Bool.eq_iff_iff, (hidx c).1, (hidx c).2]
  · rintro ⟨w, tx⟩ hp R c a ha
    obtain ⟨us, vs, -, hw⟩ := (mem_steps_iff _ _ _ _).mp hp
    have hstep : ((apply ch w tx).registry R).owners c = some a ∨
        Succeeds ch w tx ∧ ∃ b, Transfers ch w (apply ch w tx) tx R c a b := by
      by_cases hsucc : Succeeds ch w tx
      · have hindexed : (w.registry R).CreditsIndexed := by
          rw [show w = run (apply ch) (genesis tokens) us from hw]
          exact indexed_run tokens us R
        exact (exec_owner hsucc.exec_eq hindexed ha).imp_right fun h => ⟨hsucc, h⟩
      · rw [apply_of_not_succeeds hsucc]
        exact Or.inl ha
    refine ⟨hstep, fun m hm hstatus => ?_, fun hexternal hsigned => ?_⟩
    · rcases hstep with hkept | ⟨-, b, htransfer⟩
      · exact hkept
      · obtain ⟨m', hm', hactive⟩ := htransfer.active
        obtain rfl : m = m' := Option.some.inj (hm.symm.trans hm')
        exact absurd hactive hstatus
    · rcases hstep with hkept | ⟨-, b, htransfer⟩
      · exact hkept
      · exact absurd (htransfer.signed hexternal) hsigned

end World

end CarbonVeritas
