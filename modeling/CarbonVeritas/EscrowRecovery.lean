/-
# Recovery of deposits

A deployment wired to the registry `R` only, in which the tracker and the bridge are the
only retirers and a credit comes into escrow by `create_offer` only.  Each deposit leaves
an offer behind; the latest deposit of a credit is read off the history of the run.

`escrow_never_stuck` : a credit in escrow is active, the offer of its latest deposit is
active, and cancelling that offer hands the credit back.
-/
import CarbonVeritas.Escrow
import CarbonVeritas.RetirementSafety

namespace CarbonVeritas

open Transition

/-- A direct call of a registry that names `a` as the new owner of a credit. -/
def Call.gives (a : Address) : Call → Bool
  | .registry _ (.transferCredit _ toAddr _) => toAddr = a
  | .registry _ (.mintBridged _ toAddr _) => toAddr = a
  | _ => false

namespace World

variable {T : Type} {ch : Chain T} {R : Address} {w w' : World T} {tx : Tx ch}
  {seller : Address} {c o : ℕ}

/-! ## Ways into escrow -/

/-- A credit that comes into escrow is offered. -/
def EntersByDeposit (ch : Chain T) (R : Address) (w : World T) (tx : Tx ch) : Prop :=
  ∀ c, ¬ InEscrow ch R w c → InEscrow ch R (apply ch w tx) c →
    ∃ seller price amount currency expiry,
      tx.call = .marketplace (.createOffer seller c price amount currency expiry)

/-- A transfer to someone else than `b` does not make `b` the owner. -/
theorem not_owner_update {owners owners' : ℕ → Option Address} {i : ℕ} {a b : Address}
    (howners : owners' = Function.update owners i (some a)) (hab : a ≠ b)
    (hc : owners c ≠ some b) : owners' c ≠ some b := by
  rw [howners]
  by_cases hi : c = i
  · rw [hi, Function.update_self]
    exact fun heq => hab (Option.some.inj heq)
  · rw [Function.update_of_ne hi]
    exact hc

/-- No call that another contract receives or makes puts a credit into escrow, unless it is
addressed to the marketplace. -/
theorem not_inEscrow_of_not_marketplace (hcall : ∀ c, tx.call ≠ .marketplace c)
    (hgives : tx.call.gives (ch.address .marketplace) = false) (hc : ¬ InEscrow ch R w c) :
    ¬ InEscrow ch R (apply ch w tx) c := by
  refine apply_registry_rule (P := fun s => s.owners c ≠ some (ch.address .marketplace)) ?_ hc
  rintro s call s' hs hmakes hok
  -- whoever signs is no contract of the deployment
  have hsigned : ∀ {a : Address}, a ∈ tx.signers → a ≠ ch.address .marketplace :=
    fun ha => tx.ne_of_signed ha (ch.deployed_address .marketplace)
  generalize tx.call = c₀ at hcall hgives hmakes hok
  cases CreditRegistry.exec_creditChange hok with
  | keep _ _ howners => rw [howners]; exact hs
  | approve _ _ _ howners => rw [howners]; exact hs
  | reject _ _ _ howners => rw [howners]; exact hs
  | retire _ _ _ _ _ _ howners => rw [howners]; exact hs
  | submit hauth _ _ howners =>
      cases hmakes with
      | direct => exact not_owner_update howners (hsigned (tx.env_authorised.mp hauth)) hs
  | mint _ _ _ _ howners =>
      cases hmakes with
      | direct => exact not_owner_update howners (of_decide_eq_false hgives) hs
      | bridgeIn hbridger => exact not_owner_update howners (hsigned hbridger) hs
  | transfer _ _ _ _ _ _ howners =>
      cases hmakes with
      | direct => exact not_owner_update howners (of_decide_eq_false hgives) hs
      | transfer => exact absurd rfl (hcall _)

/-- A credit comes into escrow by `create_offer`, or in a call that hands it to the
marketplace directly. -/
theorem entersByDeposit_of_not_gives (hR : OnRegistry ch R w)
    (hgives : tx.call.gives (ch.address .marketplace) = false) : EntersByDeposit ch R w tx := by
  intro c hbefore hafter
  have hsucc : Succeeds ch w tx := by
    by_contra hfail
    rw [apply_of_not_succeeds hfail] at hafter
    exact hbefore hafter
  cases exec_escrowStep hsucc.exec_eq hR.wired hR.indexed with
  | other _ _ _ _ hledger =>
      rcases hledger with hsame | hcalls
      · unfold InEscrow registry at hafter
        rw [hsame] at hafter
        exact absurd hafter hbefore
      · exact absurd hafter (not_inEscrow_of_not_marketplace hcalls hgives hbefore)
  | @deposit seller i price amount currency expiry hcall hchecks hoffers hcounter howners =>
      by_cases hi : c = i
      · subst hi
        exact ⟨seller, price, amount, currency, expiry, hcall⟩
      · unfold InEscrow at hafter
        rw [howners, Function.update_of_ne hi] at hafter
        exact absurd hafter hbefore
  | fill _ hchecks _ _ howners =>
      exact absurd hafter (not_owner_update howners (buyer_ne_marketplace hchecks) hbefore)
  | cancel _ hchecks _ _ howners =>
      refine absurd hafter (not_owner_update howners ?_ hbefore)
      intro heq
      refine hR.external _ _ hchecks.stored ?_
      rw [heq]
      exact ch.deployed_address _

/-- The condition on every call of a run, by evaluation. -/
theorem always_entersByDeposit {tokens : T} {ts : List (Tx ch)}
    (hinits : Always (apply ch) (InitsOn R .marketplace) (genesis tokens) ts)
    (h : (ts.all fun tx => !tx.call.gives (ch.address .marketplace)) = true) :
    Always (apply ch) (EntersByDeposit ch R) (genesis tokens) ts := by
  have hcalls : Always (apply ch)
      (fun _ tx => tx.call.gives (ch.address .marketplace) = false) (genesis tokens) ts :=
    always_of_forall_mem (fun tx htx _ => by simpa using List.all_eq_true.mp h tx htx) _
  have hinv : Always (apply ch) (fun w tx => OnRegistry ch R w ∧ InitsOn R .marketplace w tx)
      (genesis tokens) ts :=
    always_invariant (fun w tx hw htx => hw.apply htx) (onRegistry_genesis ch R tokens) hinits
  exact (hinv.and hcalls).mono fun w tx hw => entersByDeposit_of_not_gives hw.1.1 hw.2

/-! ## Deposits in a history -/

/-- In the history, the latest deposit of the credit `c` is by `seller`, and returned `o`. -/
def LatestDeposit (ch : Chain T) (hist : List (World T × Tx ch)) (seller : Address) (c o : ℕ) :
    Prop :=
  ∃ p, LastOf (fun q => ∃ s o', Deposit ch q.1 q.2 s c o') hist p ∧ Deposit ch p.1 p.2 seller c o

/-! ## While a credit stays in escrow -/

theorem wired_apply (h : w.marketplace.creditRegistry = some R)
    (htx : InitsAt R .marketplace w tx) :
    (apply ch w tx).marketplace.creditRegistry = some R := by
  refine apply_rule (P := fun w' => w'.marketplace.creditRegistry = some R) h fun w' hexec => ?_
  rcases exec_wiring hexec .marketplace with ⟨-, -, hkeep⟩ | ⟨a, r, hrewired⟩
  · exact hkeep.trans h
  · obtain rfl : r = R := htx ⟨w', hexec⟩ a r hrewired.call
    exact hrewired.registry

/-- A stored offer whose credit stays in escrow is not touched. -/
theorem offers_apply (hR : OnRegistry ch R w) (hc' : InEscrow ch R (apply ch w tx) c)
    {offer : Offer} (ho : w.marketplace.offers o = some offer) (hcredit : offer.creditId = c) :
    (apply ch w tx).marketplace.offers o = some offer := by
  by_cases hsucc : Succeeds ch w tx
  · cases exec_escrowStep hsucc.exec_eq hR.wired hR.indexed with
    | other _ hoffers => rw [hoffers, ho]
    | deposit _ _ hoffers =>
        have hne : o ≠ w.marketplace.offerCounter + 1 := by
          have := hR.le_counter ho
          omega
        rw [hoffers, Function.update_of_ne hne, ho]
    | @fill buyer o₀ _ offer₀ _ _ hchecks hoffers _ howners =>
        -- a fill of this offer would take the credit out
        have hne : o ≠ o₀ := by
          rintro rfl
          obtain rfl : offer = offer₀ := Option.some.inj (ho.symm.trans hchecks.stored)
          unfold InEscrow at hc'
          rw [howners, hcredit, Function.update_self] at hc'
          exact buyer_ne_marketplace hchecks (Option.some.inj hc')
        rw [hoffers, Function.update_of_ne hne, ho]
    | @cancel _ o₀ offer₀ _ hchecks hoffers _ howners =>
        have hne : o ≠ o₀ := by
          rintro rfl
          obtain rfl : offer = offer₀ := Option.some.inj (ho.symm.trans hchecks.stored)
          unfold InEscrow at hc'
          rw [howners, hcredit, Function.update_self] at hc'
          refine hR.external o offer ho ?_
          rw [Option.some.inj hc']
          exact ch.deployed_address _
        rw [hoffers, Function.update_of_ne hne, ho]
  · rw [apply_of_not_succeeds hsucc, ho]

/-- An active credit in escrow stays active: the marketplace signs no retirement. -/
theorem active_apply (hret : RetirementInvariant ch R w) (htx : RetirementStep ch R w tx)
    (hc : InEscrow ch R w c)
    (h : ∃ credit, (w.registry R).credits c = some credit ∧ credit.status = .active) :
    ∃ credit, ((apply ch w tx).registry R).credits c = some credit ∧
      credit.status = .active := by
  have hmoves : ((apply ch w tx).registry R).CreditsIndexed ∧
      ∃ credit, ((apply ch w tx).registry R).credits c = some credit ∧
        (credit.status = .active ∨ credit.status = .retired) := by
    obtain ⟨credit, hcredit, hactive⟩ := h
    refine apply_registry_rule
      (P := fun s => s.CreditsIndexed ∧ ∃ credit, s.credits c = some credit ∧
        (credit.status = .active ∨ credit.status = .retired)) ?_
      ⟨hret.indexed, credit, hcredit, Or.inl hactive⟩
    rintro s call s' ⟨hs, m, hm, hstatus⟩ - hok
    -- from `Active` the only move is to `Retired`, which is final
    obtain ⟨m', hm', -, hsame | hmove⟩ :=
      (CreditRegistry.exec_creditChange hok).metadata hs hm
    · rw [← hsame] at hstatus
      exact ⟨hs.step hok, m', hm', hstatus⟩
    · refine ⟨hs.step hok, m', hm', Or.inr ?_⟩
      generalize m'.status = status' at hmove
      rcases hstatus with hstatus | hstatus
      · rw [hstatus] at hmove
        cases hmove
        rfl
      · exact absurd hstatus hmove.not_final.2
  obtain ⟨-, credit, hcredit, hactive | hretired⟩ := hmoves
  · exact ⟨credit, hcredit, hactive⟩
  · have hbefore : ¬ (w.registry R).IsRetired c := by
      rintro ⟨m, hm, hmretired⟩
      obtain ⟨m', hm', hmactive⟩ := h
      obtain rfl : m = m' := Option.some.inj (hm.symm.trans hm')
      rw [hmretired] at hmactive
      cases hmactive
    obtain ⟨owner, howner, hsigned, -⟩ :=
      retired_by_owner hret htx hbefore ⟨credit, hcredit, hretired⟩
    obtain rfl : owner = ch.address .marketplace := Option.some.inj (howner.symm.trans hc)
    exact absurd (ch.deployed_address _) (tx.external _ hsigned)

/-! ## Whole runs -/

/-- The conditions on the steps. -/
def RecoveryStep (ch : Chain T) (R : Address) (w : World T) (tx : Tx ch) : Prop :=
  InitsAt R .marketplace w tx ∧ RetirementStep ch R w tx ∧ EntersByDeposit ch R w tx

/-- What the history says of the credits in escrow. -/
structure RecoveryInvariant (ch : Chain T) (R : Address) (hist : List (World T × Tx ch))
    (w : World T) : Prop where
  onRegistry : OnRegistry ch R w
  retirement : RetirementInvariant ch R w
  deposits : ∀ c, InEscrow ch R w c →
    ∃ seller o, LatestDeposit ch hist seller c o ∧ Recoverable ch R w seller c o

theorem recoveryInvariant_genesis (ch : Chain T) (R : Address) (tokens : T) :
    RecoveryInvariant ch R [] (genesis tokens) where
  onRegistry := onRegistry_genesis ch R tokens
  retirement := retirementInvariant_genesis ch R tokens
  deposits := fun _ hc => by cases hc

theorem RecoveryInvariant.step {hist : List (World T × Tx ch)}
    (h : RecoveryInvariant ch R hist w) (htx : RecoveryStep ch R w tx) :
    RecoveryInvariant ch R (hist ++ [(w, tx)]) (apply ch w tx) := by
  obtain ⟨hinits, hretire, henters⟩ := htx
  have hR := h.onRegistry
  refine ⟨hR.apply hinits.initsOn, h.retirement.apply hretire, fun c hc' => ?_⟩
  by_cases hc : InEscrow ch R w c
  · -- still in escrow: the offer of the latest deposit is as it was
    obtain ⟨seller, o, ⟨p, hlast, hp⟩, hrec⟩ := h.deposits c hc
    have hother : ¬ ∃ s o', Deposit ch w tx s c o' := by
      rintro ⟨s, o', hdeposit⟩
      obtain ⟨_, _, _, _, _, _, -, hok⟩ := hdeposit
      obtain ⟨r, hchecks, -⟩ := Marketplace.createOffer_eq_ok.mp hok
      obtain rfl : r = R := hR.wired r hchecks.wired hchecks.transferable.isRegistry
      exact not_inEscrow_of_mayCreate hchecks hc
    obtain ⟨offer, ho, hactive, hcredit, hseller⟩ := hrec.offer
    refine ⟨seller, o, ⟨p, hlast.concat hother, hp⟩, ?_⟩
    exact
      { wired := wired_apply hrec.wired hinits
        isRegistry := hrec.isRegistry
        offer := ⟨offer, offers_apply hR hc' ho hcredit, hactive, hcredit, hseller⟩
        credit := active_apply h.retirement hretire hc hrec.credit }
  · -- just deposited
    obtain ⟨seller, price, amount, currency, expiry, hcall⟩ := henters c hc hc'
    have hsucc : Succeeds ch w tx := by
      by_contra hfail
      rw [apply_of_not_succeeds hfail] at hc'
      exact hc hc'
    have hdeposit : ∃ o, Deposit ch w tx seller c o := by
      obtain ⟨w', hexec⟩ := hsucc
      rw [exec, hcall] at hexec
      simp only [Marketplace.exec, bind_eq_ok, map_eq_ok, Prod.exists] at hexec
      obtain ⟨m, l, ⟨o, _, _, hok, -⟩, -⟩ := hexec
      exact ⟨o, price, amount, currency, expiry, _, _, hcall, hok⟩
    obtain ⟨o, hdeposit⟩ := hdeposit
    obtain ⟨-, -, hrec, -⟩ := hdeposit.after hR
    exact ⟨seller, o, ⟨(w, tx), lastOf_concat_self ⟨seller, o, hdeposit⟩, hdeposit⟩, hrec⟩

/-- **Escrow is never stuck.**  Let the marketplace be wired to the registry `R`, let the
tracker and the bridge be wired to `R` only and be its only retirers, and let credits come
into escrow by `create_offer` only.  Then a credit in escrow is active, the offer of its
latest deposit is active, and a cancellation of this offer succeeds and hands the credit back:
by its seller at any time, and by anyone after its expiry. -/
theorem escrow_never_stuck (ch : Chain T) (R : Address) (tokens : T) (ts : List (Tx ch))
    (hmarketplace : Always (apply ch) (InitsAt R .marketplace) (genesis tokens) ts)
    (htracker : Always (apply ch) (InitsOn R .tracker) (genesis tokens) ts)
    (hbridge : Always (apply ch) (InitsOn R .bridge) (genesis tokens) ts)
    (hretirers : Throughout (apply ch) (RetirersWithin ch R) (genesis tokens) ts)
    (hdeposits : Always (apply ch) (EntersByDeposit ch R) (genesis tokens) ts) (c : ℕ)
    (hc : InEscrow ch R (run (apply ch) (genesis tokens) ts) c) :
    (∃ credit, ((run (apply ch) (genesis tokens) ts).registry R).credits c = some credit ∧
        credit.status = .active) ∧
      ∃ seller o offer, LatestDeposit ch (steps (apply ch) (genesis tokens) ts) seller c o ∧
        (run (apply ch) (genesis tokens) ts).marketplace.offers o = some offer ∧
        offer.status = .active ∧ offer.creditId = c ∧ offer.seller = seller ∧
        ¬ ch.Deployed seller ∧
        ∀ (tx : Tx ch) (caller : Address),
          tx.call = .marketplace (.cancelOffer caller o) → caller ∈ tx.signers →
          (caller = seller ∨ ∃ e ∈ offer.expiry, e < tx.timestamp) →
          Succeeds ch (run (apply ch) (genesis tokens) ts) tx ∧
            ((apply ch (run (apply ch) (genesis tokens) ts) tx).registry R).owners c =
              some seller := by
  have hsteps : Always (apply ch) (RecoveryStep ch R) (genesis tokens) ts :=
    (hmarketplace.and ((htracker.and (hbridge.and hretirers.always)).and hdeposits)).mono
      fun _ _ h => h
  have hinv : RecoveryInvariant ch R (steps (apply ch) (genesis tokens) ts)
      (run (apply ch) (genesis tokens) ts) :=
    history_invariant (I := RecoveryInvariant ch R) (recoveryInvariant_genesis ch R tokens)
      (fun hist w tx h htx => h.step htx) hsteps
  -- the latest deposit of the credit names the offer that returns it
  obtain ⟨seller, o, hlatest, hrec⟩ := hinv.deposits c hc
  obtain ⟨offer, ho, hactive, hcredit, hseller⟩ := hrec.offer
  have hexternal : ¬ ch.Deployed seller := by
    rw [← hseller]
    exact hinv.onRegistry.external o offer ho
  refine ⟨hrec.credit, seller, o, offer, hlatest, ho, hactive, hcredit, hseller, hexternal, ?_⟩
  intro tx caller hcall hsigned hallowed
  exact hrec.cancel hc ho hcall hsigned hallowed

theorem escrow_never_stuck_first_offer :
    ∃ seller o offer,
      LatestDeposit Sample.chain (steps (apply Sample.chain) Sample.start
        (Sample.setup ++ [Sample.offerOne])) seller 1 o ∧
      (run (apply Sample.chain) Sample.start
        (Sample.setup ++ [Sample.offerOne])).marketplace.offers o = some offer ∧
      offer.status = .active := by
  have hinits : ∀ k, Always (apply Sample.chain) (InitsAt Sample.registry k) Sample.start
      (Sample.setup ++ [Sample.offerOne]) := by
    intro k
    cases k
    · exact always_initsAt (by rfl) _
    · exact always_initsAt (by rfl) _
    · exact always_initsAt (by rfl) _
  have hon : ∀ k, Always (apply Sample.chain) (InitsOn Sample.registry k) Sample.start
      (Sample.setup ++ [Sample.offerOne]) := fun k => (hinits k).mono fun _ _ => InitsAt.initsOn
  have hretirers : Throughout (apply Sample.chain) (RetirersWithin Sample.chain Sample.registry)
      Sample.start (Sample.setup ++ [Sample.offerOne]) := by
    refine throughout_retirersWithin (by rfl) fun a ha => ?_
    cases ha
  obtain ⟨-, seller, o, offer, hlatest, ho, hactive, -⟩ :=
    escrow_never_stuck Sample.chain Sample.registry (fun _ _ => 1000000)
      (Sample.setup ++ [Sample.offerOne]) (hinits .marketplace) (hon .tracker) (hon .bridge)
      hretirers (always_entersByDeposit (hon .marketplace) (by rfl)) 1 (by rfl)
  exact ⟨seller, o, offer, hlatest, ho, hactive⟩

end World

end CarbonVeritas
