/-
# The flow of the settlement tokens

Where the tokens of an account go in a run of the deployment, with the `i128` multiplication of
any build.  A fill moves the payment from its buyer to the seller of the offer, and nothing else
moves tokens (`balance_apply`); so a balance is what the run started with, less what the account
spent and with what it earned, it falls only by purchases that the account signed, and the
contracts of the deployment hold no money of their users (`balances_accounted`).
-/
import CarbonVeritas.OfferAccounts

namespace CarbonVeritas

open Transition

/-- The transfer of a negative amount fails. -/
def RefusesNegative {T : Type}
    (transfer : T → (asset fromAddr toAddr : Address) → ℤ → Option T) : Prop :=
  ∀ t t' asset fromAddr toAddr x, transfer t asset fromAddr toAddr x = some t' → 0 ≤ x

theorem Sample.transfer_refusesNegative : RefusesNegative Sample.transfer := by
  intro b b' currency fromAddr toAddr x h
  unfold Sample.transfer at h
  split_ifs at h with hx
  exact hx.1

namespace World

variable {T : Type} {ch : Chain T} {w w' : World T} {tx : Tx ch}

/-! ## Payments -/

/-- The buyer, the offer and the payment of an accepted fill. -/
def paymentOf (ch : Chain T) (w : World T) (tx : Tx ch) : Option (Address × Offer × ℤ) := do
  let (b, o, amount) ← fillOf ch w tx
  let offer ← w.marketplace.offers o
  return (b, offer, Marketplace.paymentAmount ch amount offer.pricePerTonne)

/-- What `a` pays in the currency in one step. -/
def spentIn (ch : Chain T) (cur a : Address) (p : World T × Tx ch) : ℤ :=
  match paymentOf ch p.1 p.2 with
  | some (b, offer, x) => if cur = offer.currency ∧ a = b then x else 0
  | none => 0

/-- What `a` is paid in the currency in one step. -/
def earnedIn (ch : Chain T) (cur a : Address) (p : World T × Tx ch) : ℤ :=
  match paymentOf ch p.1 p.2 with
  | some (_, offer, x) => if cur = offer.currency ∧ a = offer.seller then x else 0
  | none => 0

/-- What `a` has paid in the currency. -/
def spent (ch : Chain T) (hist : List (World T × Tx ch)) (cur a : Address) : ℤ :=
  (hist.map (spentIn ch cur a)).sum

/-- What `a` has been paid in the currency. -/
def earned (ch : Chain T) (hist : List (World T × Tx ch)) (cur a : Address) : ℤ :=
  (hist.map (earnedIn ch cur a)).sum

theorem spent_concat (hist : List (World T × Tx ch)) (p : World T × Tx ch) (cur a : Address) :
    spent ch (hist ++ [p]) cur a = spent ch hist cur a + spentIn ch cur a p :=
  sum_map_concat _ _ _

theorem earned_concat (hist : List (World T × Tx ch)) (p : World T × Tx ch) (cur a : Address) :
    earned ch (hist ++ [p]) cur a = earned ch hist cur a + earnedIn ch cur a p :=
  sum_map_concat _ _ _

/-- Only a purchase reaches the tokens. -/
theorem tokens_of_not_buy (hexec : exec ch w tx = .ok w')
    (hbuy : ∀ b o amount, tx.call ≠ .marketplace (.buyCredits b o amount)) :
    w'.ledger.tokens = w.ledger.tokens := by
  have hstep := exec_step hexec
  generalize hcall : tx.call = call at hstep
  cases hstep with
  | registry _ _ => rfl
  | marketplace hchange =>
      cases hchange with
      | keep _ hl _ => rw [hl]
      | init _ _ hl => rw [hl]
      | create _ _ hl => rw [hl, Ledger.writeRegistry_tokens]
      | cancel _ _ hl => rw [hl, Ledger.writeRegistry_tokens]
      | buy _ _ _ => exact absurd hcall (hbuy _ _ _)
  | tracker hchange =>
      cases hchange with
      | keep _ hl _ => rw [hl]
      | init _ _ hl => rw [hl]
      | retire _ _ _ hall =>
          refine RetirementTracker.retireAll_rule
            (P := fun _ l => l.tokens = w.ledger.tokens) ?_ rfl hall
          intro t l input record t' l' hl hitem
          obtain ⟨credit, -, -, -, rfl⟩ := RetirementTracker.retireItem_eq_ok.mp hitem
          exact hl
  | bridge hchange =>
      cases hchange with
      | keep _ hl _ => rw [hl]
      | init _ _ hl => rw [hl]
      | updateRoot _ _ _ hl => rw [hl]
      | bridgeIn _ _ hl => rw [hl, Ledger.writeRegistry_tokens]
      | bridgeOut _ _ hl => rw [hl, Ledger.writeRegistry_tokens]

/-- A payment was signed by the buyer, and the token has moved it to the seller. -/
theorem paymentOf_eq_some {b : Address} {offer : Offer} {x : ℤ}
    (h : paymentOf ch w tx = some (b, offer, x)) :
    b ∈ tx.signers ∧ (∃ o, w.marketplace.offers o = some offer) ∧
      ch.tokenTransfer w.ledger.tokens offer.currency b offer.seller x =
        some (apply ch w tx).ledger.tokens := by
  unfold paymentOf at h
  obtain ⟨⟨b', o, amount⟩, hfill, h⟩ := Option.bind_eq_some_iff.mp h
  obtain ⟨offer', hoffer, h⟩ := Option.bind_eq_some_iff.mp h
  cases h
  obtain ⟨hcall, offer', r, tokens, hchecks⟩ := fillOf_eq_some.mp hfill
  obtain rfl := Option.some.inj (hchecks.stored.symm.trans hoffer)
  refine ⟨tx.env_authorised.mp hchecks.authorised, ⟨o, hoffer⟩, ?_⟩
  rw [apply_of_ok (exec_buyCredits hcall hchecks)]
  exact hchecks.paid

theorem tokens_of_paymentOf_none (h : paymentOf ch w tx = none) :
    (apply ch w tx).ledger.tokens = w.ledger.tokens := by
  by_cases hsucceeds : Succeeds ch w tx
  · obtain ⟨w', hexec⟩ := hsucceeds
    rw [apply_of_ok hexec]
    refine tokens_of_not_buy hexec fun b o amount hcall => ?_
    cases exec_offerStep hexec with
    | other hother _ _ _ =>
        rw [hcall] at hother
        cases hother
    | deposit hcall' _ _ _ _ =>
        rw [hcall] at hcall'
        cases hcall'
    | cancel hcall' _ _ _ _ =>
        rw [hcall] at hcall'
        cases hcall'
    | fill hcall' hchecks _ _ _ =>
        have hfill := fillOf_eq_some.mpr ⟨hcall', _, _, _, hchecks⟩
        simp [paymentOf, hfill, hchecks.stored] at h
  · rw [apply_of_not_succeeds hsucceeds]

/-- **One step.**  A balance changes by what is spent and earned. -/
theorem balance_apply {balance : T → Address → Address → ℤ}
    (htoken : ExactTransfer ch.tokenTransfer balance) (w : World T) (tx : Tx ch)
    (cur a : Address) :
    balance (apply ch w tx).ledger.tokens cur a = balance w.ledger.tokens cur a -
      spentIn ch cur a (w, tx) + earnedIn ch cur a (w, tx) := by
  unfold spentIn earnedIn
  cases h : paymentOf ch w tx with
  | none =>
      rw [tokens_of_paymentOf_none h]
      simp
  | some payment =>
      obtain ⟨b, offer, x⟩ := payment
      exact htoken _ _ _ _ _ _ (paymentOf_eq_some h).2.2 cur a

/-! ## Runs -/

/-- No contract of the deployment sells. -/
def SellersExternal (ch : Chain T) (w : World T) : Prop :=
  ∀ o offer, w.marketplace.offers o = some offer → ¬ ch.Deployed offer.seller

theorem SellersExternal.apply (h : SellersExternal ch w) (tx : Tx ch) :
    SellersExternal ch (apply ch w tx) := by
  refine apply_rule h fun w' hexec o offer ho => ?_
  have hupdate : ∀ (k : ℕ) (new : Offer),
      w'.marketplace.offers = Function.update w.marketplace.offers k (some new) →
      ¬ ch.Deployed new.seller → ¬ ch.Deployed offer.seller := by
    intro k new hoffers hnew
    rw [hoffers] at ho
    by_cases hok : o = k
    · subst hok
      rw [Function.update_self] at ho
      rwa [← Option.some.inj ho]
    · rw [Function.update_of_ne hok] at ho
      exact h o offer ho
  cases exec_offerStep hexec with
  | other _ hoffers _ _ =>
      rw [hoffers] at ho
      exact h o offer ho
  | deposit _ hchecks hoffers _ _ => exact hupdate _ _ hoffers (seller_external hchecks)
  | fill _ hchecks hoffers _ _ =>
      have hold := h _ _ hchecks.stored
      exact hupdate _ _ hoffers hold
  | cancel _ hchecks hoffers _ _ =>
      have hold := h _ _ hchecks.stored
      exact hupdate _ _ hoffers hold

/-- The contracts of the deployment neither pay nor are paid. -/
theorem SellersExternal.balance_apply {balance : T → Address → Address → ℤ}
    (htoken : ExactTransfer ch.tokenTransfer balance) (h : SellersExternal ch w) (tx : Tx ch)
    {a : Address} (ha : ch.Deployed a) (cur : Address) :
    balance (World.apply ch w tx).ledger.tokens cur a = balance w.ledger.tokens cur a := by
  rw [World.balance_apply htoken]
  unfold spentIn earnedIn
  cases hpayment : paymentOf ch w tx with
  | none => simp
  | some payment =>
      obtain ⟨b, offer, x⟩ := payment
      obtain ⟨hsigned, ⟨o, ho⟩, -⟩ := paymentOf_eq_some hpayment
      have hbuyer : a ≠ b := (tx.ne_of_signed hsigned ha).symm
      have hseller : a ≠ offer.seller := fun heq => h o offer ho (heq ▸ ha)
      simp [hbuyer, hseller]

/-- A balance that falls belongs to a buyer. -/
theorem signed_of_balance_lt {balance : T → Address → Address → ℤ}
    (htoken : ExactTransfer ch.tokenTransfer balance) (hrefuses : RefusesNegative ch.tokenTransfer)
    {cur a : Address}
    (h : balance (apply ch w tx).ledger.tokens cur a < balance w.ledger.tokens cur a) :
    a ∈ tx.signers := by
  rw [balance_apply htoken] at h
  unfold spentIn earnedIn at h
  cases hpayment : paymentOf ch w tx with
  | none =>
      simp only [hpayment] at h
      omega
  | some payment =>
      obtain ⟨b, offer, x⟩ := payment
      obtain ⟨hsigned, -, hmoved⟩ := paymentOf_eq_some hpayment
      have hpositive := hrefuses _ _ _ _ _ _ hmoved
      by_contra hnot
      have hbuyer : a ≠ b := fun heq => hnot (heq ▸ hsigned)
      simp only [hpayment, hbuyer, and_false, if_false] at h
      split_ifs at h <;> omega

/-- **Money.**  A balance after a run is the balance before, less what the account paid in
purchases and with what it was paid for its offers.  It falls in transactions that the account
signed only, and the contracts of the deployment have neither gained nor lost. -/
theorem balances_accounted (ch : Chain T) {balance : T → Address → Address → ℤ}
    (htoken : ExactTransfer ch.tokenTransfer balance)
    (hrefuses : RefusesNegative ch.tokenTransfer) (tokens : T) (ts : List (Tx ch))
    (cur a : Address) :
    balance (run (apply ch) (genesis tokens) ts).ledger.tokens cur a =
      balance tokens cur a - spent ch (steps (apply ch) (genesis tokens) ts) cur a +
        earned ch (steps (apply ch) (genesis tokens) ts) cur a ∧
    (∀ tx, balance (run (apply ch) (genesis tokens) (ts ++ [tx])).ledger.tokens cur a <
      balance (run (apply ch) (genesis tokens) ts).ledger.tokens cur a → a ∈ tx.signers) ∧
    (ch.Deployed a → balance (run (apply ch) (genesis tokens) ts).ledger.tokens cur a =
      balance tokens cur a) := by
  refine ⟨?_, fun tx hlt => ?_, fun ha => ?_⟩
  · -- by the history of the run
    refine history_invariant (C := fun _ _ => True)
      (I := fun hist w => balance w.ledger.tokens cur a =
        balance tokens cur a - spent ch hist cur a + earned ch hist cur a)
      (by simp [spent, earned, genesis]) ?_ fun _ _ => trivial
    intro hist w tx hw _
    rw [balance_apply htoken, spent_concat, earned_concat, hw]
    omega
  · rw [run_concat] at hlt
    exact signed_of_balance_lt htoken hrefuses hlt
  · have hinit : SellersExternal ch (genesis tokens) := fun _ _ ho => by cases ho
    have hinv : SellersExternal ch (run (apply ch) (genesis tokens) ts) ∧
        balance (run (apply ch) (genesis tokens) ts).ledger.tokens cur a = balance tokens cur a :=
      run_invariant (C := fun _ _ => True)
        (I := fun w => SellersExternal ch w ∧ balance w.ledger.tokens cur a = balance tokens cur a)
        (fun w tx hw _ => ⟨hw.1.apply tx, (hw.1.balance_apply htoken tx ha cur).trans hw.2⟩)
        ⟨hinit, rfl⟩ fun _ _ => trivial
    exact hinv.2

/-- Account 3 buys the first offer of account 2 for 10000. -/
theorem balances_accounted_whole_fill :
    (run (apply Sample.chain) (genesis fun _ _ => 1000000)
      (Sample.setup ++ [Sample.offerOne, Sample.buyOne 1000])).ledger.tokens Sample.currency
        (.account 3) = 990000 ∧
    (run (apply Sample.chain) (genesis fun _ _ => 1000000)
      (Sample.setup ++ [Sample.offerOne, Sample.buyOne 1000])).ledger.tokens Sample.currency
        (.account 2) = 1010000 := by
  have hbuyer := (balances_accounted Sample.chain Sample.transfer_exact
    Sample.transfer_refusesNegative (fun _ _ => 1000000)
    (Sample.setup ++ [Sample.offerOne, Sample.buyOne 1000]) Sample.currency (.account 3)).1
  have hseller := (balances_accounted Sample.chain Sample.transfer_exact
    Sample.transfer_refusesNegative (fun _ _ => 1000000)
    (Sample.setup ++ [Sample.offerOne, Sample.buyOne 1000]) Sample.currency (.account 2)).1
  exact ⟨hbuyer.trans (by decide), hseller.trans (by decide)⟩

end World

end CarbonVeritas
