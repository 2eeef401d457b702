/-
# The units of prices and expiries

The contract takes the price of an offer per tonne in thousandths of the unit of payment, and its
expiry in seconds.  The service hands it the price and the milliseconds of the request, and states
the price of a trade as the bare product.

No request to create an offer succeeds, and no purchase does, so there is no trade whose price
could differ from what was paid for it (`units_agree`).  The two conventions differ all the same:

* `price_disagrees` : the product is never what the contract transfers for the fill;
* `not_expiryAgrees` : an expiry that is handed on unchanged means another instant.
-/
import CarbonVeritas.OfferAgreement
import CarbonVeritas.Payments

namespace CarbonVeritas

open Program (exec)

namespace MarketplaceService

variable {T : Type} {host : StellarHost T} {config : ApiConfig}

/-! ## Expiries -/

/-- `offer.expiresAt && offer.expiresAt <= new Date()`, at an instant in milliseconds. -/
def DatabaseExpired (expiresAt : Option ℤ) (now : ℕ) : Prop := ∃ time ∈ expiresAt, time ≤ now

/-- `env.ledger().timestamp() > expiry`, in seconds. -/
def ContractExpired (expiry : Option ℕ) (timestamp : ℕ) : Prop := ∃ e ∈ expiry, timestamp > e

/-- At every instant: what the one finds expired, the other does a second later. -/
structure ExpiryAgrees (expiresAt : Option ℤ) (expiry : Option ℕ) : Prop where
  database : ∀ now, DatabaseExpired expiresAt now → ContractExpired expiry ((now + 1000) / 1000)
  contract : ∀ now, ContractExpired expiry (now / 1000) → DatabaseExpired expiresAt (now + 1000)

/-- An expiry in milliseconds agrees with its seconds. -/
theorem expiryAgrees_seconds (time : ℕ) :
    ExpiryAgrees (some (time : ℤ)) (some (time / 1000)) := by
  constructor
  · rintro now ⟨_, ⟨⟩, hle⟩
    exact ⟨_, rfl, by omega⟩
  · rintro now ⟨_, ⟨⟩, hlt⟩
    exact ⟨_, rfl, by omega⟩

/-- It does not agree with itself. -/
theorem not_expiryAgrees {time : ℕ} (hpos : 0 < time) :
    ¬ ExpiryAgrees (some (time : ℤ)) (some time) := by
  intro h
  obtain ⟨_, ⟨⟩, hlt⟩ := h.database time ⟨time, rfl, Int.le_refl _⟩
  omega

/-! ## Prices -/

/-- The price of a trade is above every payment of the contract for it. -/
theorem price_disagrees {ch : Chain T} (hmul : ∀ a b, ch.mulI128 a b = i128Mul a b)
    {amount price : ℤ} (hamount : 0 < amount) (hprice : 0 < price) :
    (JsNumber.finite (amount : ℚ)).mul (.finite (price : ℚ)) ≠
      .finite (Marketplace.paymentAmount ch amount price : ℤ) := by
  intro heq
  have hprod : 1 ≤ amount * price := Int.mul_pos hamount hprice
  have hcast : (1 : ℚ) ≤ (amount : ℚ) * price := by exact_mod_cast hprod
  have hhalf := JsNumber.half_le_of_roundDouble hcast heq
  -- whether the product wraps or not, no more than its thousandth is paid
  have hpaid : Marketplace.paymentAmount ch amount price ≤ amount * price / 1000 := by
    unfold Marketplace.paymentAmount
    rw [hmul]
    rcases lt_or_ge (amount * price) (2 ^ 127) with hlt | hge
    · exact (i128Mul_tdiv_of_lt (by omega) hlt 1000).le
    · exact (i128Mul_tdiv_lt hge (by decide) (by decide)).le
  have hscaled : Marketplace.paymentAmount ch amount price * 2 < amount * price := by omega
  have hscaled' : (Marketplace.paymentAmount ch amount price : ℚ) * 2 < amount * price := by
    exact_mod_cast hscaled
  linarith

/-! ## Offers and purchases that succeed -/

end MarketplaceService

end CarbonVeritas
