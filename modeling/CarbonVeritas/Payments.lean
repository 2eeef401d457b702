/-
# Payments

What the buyer of a fill pays, against `⌊amount · price_per_tonne / 1000⌋` over the integers.
The code multiplies in `i128`, where a product from `2^127` on wraps, and the division rounds
a product below 1000 down to nothing (`payment_exact_iff`).
-/
import CarbonVeritas.Delivery

namespace CarbonVeritas

open Transition

namespace Marketplace

variable {T : Type} {ch : Chain T}

/-- The payment is the exact quotient, and something is paid. -/
def ExactPayment (ch : Chain T) (amount pricePerTonne : ℤ) : Prop :=
  paymentAmount ch amount pricePerTonne = amount * pricePerTonne / 1000 ∧
    0 < paymentAmount ch amount pricePerTonne

theorem exactPayment_iff (hmul : ∀ a b, ch.mulI128 a b = i128Mul a b) {amount price : ℤ}
    (hamount : 0 < amount) (hprice : 0 < price) :
    ExactPayment ch amount price ↔ 1000 ≤ amount * price ∧ amount * price < 2 ^ 127 := by
  have hprod : 0 ≤ amount * price := Int.mul_nonneg hamount.le hprice.le
  have hexact : paymentAmount ch amount price = amount * price / 1000 ↔
      amount * price < 2 ^ 127 := by
    unfold paymentAmount
    rw [hmul]
    exact i128Mul_tdiv_eq_iff hprod (by decide) (by decide)
  unfold ExactPayment
  rw [hexact]
  constructor
  · rintro ⟨hlt, hpos⟩
    rw [hexact.mpr hlt] at hpos
    exact ⟨by omega, hlt⟩
  · rintro ⟨hle, hlt⟩
    refine ⟨hlt, ?_⟩
    rw [hexact.mpr hlt]
    omega

end Marketplace

namespace World

variable {T : Type}

/-- **Payments.**  With the wrapping `i128` multiplication of the release profile: every
accepted fill of every run transfers `paymentAmount` from its buyer to the seller, and this is
the exact floor and positive if and only if `1000 ≤ amount · price < 2^127`. -/
theorem payment_exact_iff (ch : Chain T) (hmul : ∀ a b, ch.mulI128 a b = i128Mul a b)
    (tokens : T) (us : List (Tx ch)) (tx : Tx ch) (b : Address) (o : ℕ) (amount : ℤ)
    (offer : Offer)
    (hfill : fillOf ch (run (apply ch) (genesis tokens) us) tx = some (b, o, amount))
    (hoffer : (run (apply ch) (genesis tokens) us).marketplace.offers o = some offer) :
    ch.tokenTransfer (run (apply ch) (genesis tokens) us).ledger.tokens offer.currency b
        offer.seller (Marketplace.paymentAmount ch amount offer.pricePerTonne) =
      some (run (apply ch) (genesis tokens) (us ++ [tx])).ledger.tokens ∧
    (Marketplace.ExactPayment ch amount offer.pricePerTonne ↔
      1000 ≤ amount * offer.pricePerTonne ∧ amount * offer.pricePerTonne < 2 ^ 127) := by
  have hprice := (fillHistory_run ch tokens us).price o offer hoffer
  rw [run_concat]
  generalize run (apply ch) (genesis tokens) us = w at hfill hoffer ⊢
  obtain ⟨hcall, offer', r, tokens', hchecks⟩ := fillOf_eq_some.mp hfill
  obtain rfl : offer' = offer := Option.some.inj (hchecks.stored.symm.trans hoffer)
  refine ⟨?_, Marketplace.exactPayment_iff hmul hchecks.available.1 hprice⟩
  rw [apply_of_ok (exec_buyCredits hcall hchecks)]
  exact hchecks.paid

end World

namespace Sample

/-- The deployment with the multiplication of the release profile. -/
def releaseChain : Chain Balances := { chain with mulI128 := i128Mul }

/-- The same transaction in that deployment. -/
def release (tx : Tx chain) : Tx releaseChain where
  signers := tx.signers
  external := tx.external
  timestamp := tx.timestamp
  sequence := tx.sequence
  call := tx.call

end Sample

namespace World

/-- Account 3 buys 1000 tonnes at 10000 and pays 10000. -/
theorem payment_exact_thousand_tonnes :
    Marketplace.ExactPayment Sample.releaseChain 1000 10000 :=
  (payment_exact_iff Sample.releaseChain (fun _ _ => rfl) (fun _ _ => 1000000)
    ((Sample.setup ++ [Sample.offerOne]).map Sample.release)
    (Sample.release (Sample.buyOne 1000)) (.account 3) 1 1000 _ rfl rfl).2.mpr (by decide)

/-- At the price 1, account 3 gets the credit and 999 tonnes for nothing. -/
theorem payment_not_positive :
    ¬ ∀ (T : Type) (ch : Chain T), (∀ a b, ch.mulI128 a b = i128Mul a b) →
      ∀ (tokens : T) (us : List (Tx ch)) (tx : Tx ch) (b : Address) (o : ℕ) (amount : ℤ)
        (offer : Offer), fillOf ch (run (apply ch) (genesis tokens) us) tx = some (b, o, amount) →
        (run (apply ch) (genesis tokens) us).marketplace.offers o = some offer →
        Marketplace.ExactPayment ch amount offer.pricePerTonne := by
  intro h
  have hpaid := h Sample.Balances Sample.releaseChain (fun _ _ => rfl) (fun _ _ => 1000000)
    ((Sample.setup ++ [Sample.tx 2 11 (.marketplace
      (.createOffer (.account 2) 1 1 1000 Sample.currency none))]).map Sample.release)
    (Sample.release (Sample.buyOne 999)) (.account 3) 1 999 _ rfl rfl
  exact absurd hpaid.2 (by decide)

end World

end CarbonVeritas
