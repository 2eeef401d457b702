/-
# Offers

What a transaction does to the stored offers of the marketplace, whichever registry it is
wired to: it leaves them, or it creates, fills or cancels one of them
(`exec_offerStep`), and exactly then it moves the credit of that offer.
-/
import CarbonVeritas.World

namespace CarbonVeritas

open Transition

/-! ## Calls on offers -/

/-- The calls of the marketplace that move a credit. -/
def Call.trades : Call → Bool
  | .marketplace (.createOffer ..) => true
  | .marketplace (.buyCredits ..) => true
  | .marketplace (.cancelOffer ..) => true
  | _ => false

/-- The offer that a call fills or cancels. -/
def Call.tradedOffer : Call → Option ℕ
  | .marketplace (.buyCredits _ o _) => some o
  | .marketplace (.cancelOffer _ o) => some o
  | _ => none

theorem Call.tradedOffer_eq_none {call : Call} (h : call.trades = false) :
    call.tradedOffer = none := by
  unfold tradedOffer
  split
  · cases h
  · cases h
  · rfl

namespace World

variable {T : Type} {ch : Chain T} {w w' : World T} {tx : Tx ch}

/-! ## One step -/

/-- What a transaction that takes effect does to the offers. -/
inductive OfferStep (ch : Chain T) (w w' : World T) (tx : Tx ch) : Prop where
  | other (hcall : tx.call.trades = false)
      (hoffers : w'.marketplace.offers = w.marketplace.offers)
      (hcounter : w'.marketplace.offerCounter = w.marketplace.offerCounter)
      (hledger : w'.ledger = w.ledger ∨ ∀ call, tx.call ≠ .marketplace call)
  | deposit {seller : Address} {c : ℕ} {price amount : ℤ} {currency : Address}
      {expiry : Option ℕ} {r : Address}
      (hcall : tx.call = .marketplace (.createOffer seller c price amount currency expiry))
      (hchecks : Marketplace.MayCreate ch tx.env w.marketplace w.ledger seller c price amount
        expiry r)
      (hoffers : w'.marketplace.offers = Function.update w.marketplace.offers
        (w.marketplace.offerCounter + 1) (some (Marketplace.newOffer tx.env
          (w.marketplace.offerCounter + 1) seller c price amount currency expiry)))
      (hcounter : w'.marketplace.offerCounter = w.marketplace.offerCounter + 1)
      (hledger : w'.ledger = w.ledger.writeRegistry r
        ((w.ledger.registries r).transferred seller (ch.address .marketplace) c))
  | fill {buyer : Address} {o : ℕ} {amount : ℤ} {offer : Offer} {r : Address} {tokens : T}
      (hcall : tx.call = .marketplace (.buyCredits buyer o amount))
      (hchecks : Marketplace.MayBuy ch tx.env w.marketplace w.ledger buyer o amount offer r
        tokens)
      (hoffers : w'.marketplace.offers = Function.update w.marketplace.offers o
        (some (Marketplace.filledOffer offer amount)))
      (hcounter : w'.marketplace.offerCounter = w.marketplace.offerCounter)
      (hledger : w'.ledger = { w.ledger with tokens := tokens }.writeRegistry r
        ((w.ledger.registries r).transferred (ch.address .marketplace) buyer offer.creditId))
  | cancel {caller : Address} {o : ℕ} {offer : Offer} {r : Address}
      (hcall : tx.call = .marketplace (.cancelOffer caller o))
      (hchecks : Marketplace.MayCancel ch tx.env w.marketplace w.ledger caller o offer r)
      (hoffers : w'.marketplace.offers = Function.update w.marketplace.offers o
        (some { offer with status := .cancelled }))
      (hcounter : w'.marketplace.offerCounter = w.marketplace.offerCounter)
      (hledger : w'.ledger = w.ledger.writeRegistry r ((w.ledger.registries r).transferred
        (ch.address .marketplace) offer.seller offer.creditId))

/-- **Inversion.**  For the offers, a transaction that takes effect is one of four steps. -/
theorem exec_offerStep (hexec : exec ch w tx = .ok w') : OfferStep ch w w' tx := by
  have hstep := exec_step hexec
  generalize hcall : tx.call = call at hstep
  cases hstep with
  -- calls of the other contracts do not reach the offers
  | registry _ _ =>
      exact .other (by rw [hcall]; rfl) rfl rfl (Or.inr (by simp [hcall]))
  | tracker _ =>
      exact .other (by rw [hcall]; rfl) rfl rfl (Or.inr (by simp [hcall]))
  | bridge _ =>
      exact .other (by rw [hcall]; rfl) rfl rfl (Or.inr (by simp [hcall]))
  | marketplace hchange =>
      cases hchange with
      | keep hm hl hread =>
          subst hm hl
          refine .other ?_ rfl rfl (Or.inl rfl)
          rcases hread with ⟨_, _, _, _, _, rfl⟩ | ⟨_, rfl⟩ | ⟨_, rfl⟩
          · rw [hcall]; rfl
          · rw [hcall]; rfl
          · rw [hcall]; rfl
      | init _ hm hl =>
          subst hm hl
          exact .other (by rw [hcall]; rfl) rfl rfl (Or.inl rfl)
      | create hchecks hm hl =>
          subst hm hl
          exact .deposit hcall hchecks rfl rfl rfl
      | buy hchecks hm hl =>
          subst hm hl
          exact .fill hcall hchecks rfl rfl rfl
      | cancel hchecks hm hl =>
          subst hm hl
          exact .cancel hcall hchecks rfl rfl rfl

theorem exec_createOffer {seller : Address} {c o : ℕ} {price amount : ℤ} {currency : Address}
    {expiry : Option ℕ} {m : Marketplace} {l : Ledger T}
    (hcall : tx.call = .marketplace (.createOffer seller c price amount currency expiry))
    (h : Marketplace.createOffer ch tx.env w.marketplace w.ledger seller c price amount currency
      expiry = .ok (o, m, l)) :
    exec ch w tx = .ok { w with marketplace := m, ledger := l } := by
  rw [exec, hcall]
  simp only [Marketplace.exec, h]
  rfl

theorem exec_buyCredits {buyer : Address} {o : ℕ} {amount : ℤ} {offer : Offer} {r : Address}
    {tokens : T} (hcall : tx.call = .marketplace (.buyCredits buyer o amount))
    (h : Marketplace.MayBuy ch tx.env w.marketplace w.ledger buyer o amount offer r tokens) :
    exec ch w tx = .ok { w with
      marketplace := (w.marketplace.writeOffer o (Marketplace.filledOffer offer amount)).emit
        (.offerFilled o buyer amount)
      ledger := { w.ledger with tokens := tokens }.writeRegistry r
        ((w.registry r).transferred (ch.address .marketplace) buyer offer.creditId) } := by
  have hbuy := Marketplace.buyCredits_eq_ok.mpr ⟨offer, r, tokens, h, rfl, rfl, rfl⟩
  rw [exec, hcall]
  simp only [Marketplace.exec, hbuy]
  rfl

theorem exec_cancelOffer {caller : Address} {o : ℕ} {offer : Offer} {r : Address}
    (hcall : tx.call = .marketplace (.cancelOffer caller o))
    (h : Marketplace.MayCancel ch tx.env w.marketplace w.ledger caller o offer r) :
    exec ch w tx = .ok { w with
      marketplace := (w.marketplace.writeOffer o { offer with status := .cancelled }).emit
        (.offerCancelled o)
      ledger := w.ledger.writeRegistry r
        ((w.registry r).transferred (ch.address .marketplace) offer.seller offer.creditId) } := by
  have hcancel := Marketplace.cancelOffer_eq_ok.mpr ⟨offer, r, h, rfl, rfl, rfl⟩
  rw [exec, hcall]
  simp only [Marketplace.exec, hcancel]
  rfl

/-- The seller of a new offer signed the transaction, and is no contract of the deployment. -/
theorem seller_external {seller : Address} {c : ℕ} {price amount : ℤ} {expiry : Option ℕ}
    {r : Address} (h : Marketplace.MayCreate ch tx.env w.marketplace w.ledger seller c price amount
      expiry r) : ¬ ch.Deployed seller :=
  tx.external seller (tx.env_authorised.mp h.authorised)

/-- The buyer of a credit takes it out of escrow. -/
theorem buyer_ne_marketplace {buyer : Address} {o : ℕ} {amount : ℤ} {offer : Offer} {r : Address}
    {tokens : T} (h : Marketplace.MayBuy ch tx.env w.marketplace w.ledger buyer o amount offer r
      tokens) : buyer ≠ ch.address .marketplace :=
  tx.ne_of_signed (tx.env_authorised.mp h.authorised) (ch.deployed_address _)

/-! ## Active offers -/

/-- The offer `o` is stored with the status `Active` and names the credit `c`. -/
def ActiveOffer (w : World T) (o c : ℕ) : Prop :=
  ∃ offer, w.marketplace.offers o = some offer ∧ offer.status = .active ∧ offer.creditId = c

/-- An update of the offers at `o₀` leaves the other offers. -/
theorem activeOffer_update_ne {o₀ : ℕ} {offer : Offer}
    (hoffers : w'.marketplace.offers = Function.update w.marketplace.offers o₀ (some offer))
    {o c : ℕ} (ho : o ≠ o₀) : ActiveOffer w' o c ↔ ActiveOffer w o c := by
  unfold ActiveOffer
  rw [hoffers, Function.update_of_ne ho]

theorem activeOffer_update_self {o₀ : ℕ} {offer : Offer}
    (hoffers : w'.marketplace.offers = Function.update w.marketplace.offers o₀ (some offer))
    {c : ℕ} : ActiveOffer w' o₀ c ↔ offer.status = .active ∧ offer.creditId = c := by
  unfold ActiveOffer
  rw [hoffers, Function.update_self]
  constructor
  · rintro ⟨f, hf, hactive, hc⟩
    obtain rfl : offer = f := Option.some.inj hf
    exact ⟨hactive, hc⟩
  · rintro ⟨hactive, hc⟩
    exact ⟨offer, rfl, hactive, hc⟩

/-- An accepted fill of less than what is left of its offer. -/
def PartialFill (ch : Chain T) (w : World T) (tx : Tx ch) : Prop :=
  ∃ buyer o amount offer r tokens, tx.call = .marketplace (.buyCredits buyer o amount) ∧
    Marketplace.MayBuy ch tx.env w.marketplace w.ledger buyer o amount offer r tokens ∧
    amount < offer.amount - offer.filled

end World

end CarbonVeritas
