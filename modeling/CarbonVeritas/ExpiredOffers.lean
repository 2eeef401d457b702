/-
# Expired offers

`buy_credits` of an active offer past its expiry writes the status `Expired` and panics.  The
panic rolls the write back, so that the transaction leaves everything as it was: no stored
offer ever has the status `Expired` (`neverExpired_run`), and the offer of a late buy stays
active and listed (`expiry_never_recorded`).
-/
import CarbonVeritas.Listings

namespace CarbonVeritas

open Transition

namespace World

variable {T : Type} {ch : Chain T} {w : World T} {tx : Tx ch} {o : ℕ}

/-! ## The status that is meant to be stored -/

/-- The transaction is a `buy_credits` of the active offer `o` after its expiry. -/
def LateBuy (w : World T) (tx : Tx ch) (o : ℕ) : Prop :=
  ∃ buyer amount offer e, tx.call = .marketplace (.buyCredits buyer o amount) ∧
    w.marketplace.offers o = some offer ∧ offer.status = .active ∧ offer.expiry = some e ∧
    e < tx.timestamp

/-- The offer `o` is recorded as expired, or has been cancelled since. -/
structure RecordedExpired (ch : Chain T) (w : World T) (o : ℕ) : Prop where
  status : ∃ offer, w.marketplace.offers o = some offer ∧
    (offer.status = .expired ∨ offer.status = .cancelled)
  unlisted : ∀ offset limit offers,
    w.marketplace.getListings none none none offset limit = .ok offers →
      ∀ offer ∈ offers, offer.offerId ≠ o
  recoverable : ∀ offer, w.marketplace.offers o = some offer → offer.status = .expired →
    ∃ (tx : Tx ch) (caller : Address), tx.call = .marketplace (.cancelOffer caller o) ∧
      Succeeds ch w tx

/-! ## What is stored -/

/-- A late buy does not go through. -/
theorem LateBuy.not_succeeds (h : LateBuy w tx o) : ¬ Succeeds ch w tx := by
  obtain ⟨buyer, amount, offer, e, hcall, hoffer, -, hexpiry, hlate⟩ := h
  intro hsucc
  cases exec_offerStep hsucc.exec_eq with
  | other hother _ _ _ =>
      rw [hcall] at hother
      cases hother
  | deposit hcreate _ _ _ _ =>
      rw [hcall] at hcreate
      cases hcreate
  | cancel hcancel _ _ _ _ =>
      rw [hcall] at hcancel
      cases hcancel
  | fill hfill hchecks _ _ _ =>
      rw [hcall] at hfill
      cases hfill
      obtain rfl := Option.some.inj (hchecks.stored.symm.trans hoffer)
      have hintime : tx.timestamp ≤ e := hchecks.unexpired e hexpiry
      omega

/-- No stored offer has the status `Expired`. -/
def NeverExpired (w : World T) : Prop :=
  ∀ o offer, w.marketplace.offers o = some offer → offer.status ≠ .expired

theorem NeverExpired.apply (h : NeverExpired w) (tx : Tx ch) : NeverExpired (apply ch w tx) := by
  refine apply_rule h fun w' hexec => ?_
  -- every write of an offer stores one of the other statuses
  have hwrite : ∀ {o₀ : ℕ} {offer₀ : Offer}, offer₀.status ≠ .expired →
      w'.marketplace.offers = Function.update w.marketplace.offers o₀ (some offer₀) →
      NeverExpired w' := by
    intro o₀ offer₀ hstatus hoffers o offer hoffer
    rw [hoffers] at hoffer
    by_cases heq : o = o₀
    · rw [heq, Function.update_self] at hoffer
      obtain rfl := Option.some.inj hoffer
      exact hstatus
    · rw [Function.update_of_ne heq] at hoffer
      exact h o offer hoffer
  cases exec_offerStep hexec with
  | other _ hoffers _ _ =>
      intro o offer hoffer
      rw [hoffers] at hoffer
      exact h o offer hoffer
  | deposit _ _ hoffers _ _ => exact hwrite (by intro heq; cases heq) hoffers
  | cancel _ _ hoffers _ _ => exact hwrite (by intro heq; cases heq) hoffers
  | @fill _ _ amount offer _ _ _ hchecks hoffers _ _ =>
      refine hwrite ?_ hoffers
      show (if offer.filled + amount ≥ offer.amount then OfferStatus.filled else offer.status) ≠
        .expired
      rw [hchecks.active]
      split_ifs
      · decide
      · decide

theorem neverExpired_run (ch : Chain T) (tokens : T) (ts : List (Tx ch)) :
    NeverExpired (run (apply ch) (genesis tokens) ts) :=
  run_invariant (C := fun _ _ => True) (fun _ tx h _ => h.apply tx)
    (fun _ _ h => by cases h) fun _ _ => trivial

/-! ## The main theorem -/

/-- **Expired offers.**  After a late buy in any run, the state is the one before it: the offer
is still active and still listed.  Its status is not `Expired` in any state that follows, so
that it is not recorded as expired from there on. -/
theorem expiry_never_recorded (ch : Chain T) (tokens : T) (us : List (Tx ch)) (tx : Tx ch)
    (vs : List (Tx ch)) (o : ℕ) (hlate : LateBuy (run (apply ch) (genesis tokens) us) tx o) :
    run (apply ch) (genesis tokens) (us ++ [tx]) = run (apply ch) (genesis tokens) us ∧
      (∃ offer, (run (apply ch) (genesis tokens) (us ++ [tx])).marketplace.offers o =
          some offer ∧ offer.status = .active) ∧
      ((run (apply ch) (genesis tokens) (us ++ [tx])).marketplace.allOffers.length < 2 ^ 32 →
        ∃ pages, (run (apply ch) (genesis tokens) (us ++ [tx])).marketplace.listingPages 1 =
          .ok pages ∧ ∃ offer ∈ pages.flatten, offer.offerId = o) ∧
      (∀ offer, (run (apply ch) (genesis tokens) (us ++ tx :: vs)).marketplace.offers o =
        some offer → offer.status ≠ .expired) ∧
      ¬ Throughout (apply ch) (fun w => RecordedExpired ch w o)
        (run (apply ch) (genesis tokens) (us ++ [tx])) vs := by
  have hsame : run (apply ch) (genesis tokens) (us ++ [tx]) =
      run (apply ch) (genesis tokens) us := by
    rw [run_concat, apply_of_not_succeeds hlate.not_succeeds]
  obtain ⟨-, -, offer, e, -, hoffer, hactive, -, -⟩ := hlate
  rw [hsame]
  refine ⟨rfl, ⟨offer, hoffer, hactive⟩, fun hlen => ?_,
    neverExpired_run ch tokens (us ++ tx :: vs) o, fun hrecorded => ?_⟩
  · obtain ⟨pages, hpages, hmem, -⟩ :=
      (listings_exact ch tokens us).pages 1 le_rfl (by decide) hlen
    have hid := ((offerBook_run ch tokens us).accounted o offer hoffer).offerId_eq
    exact ⟨pages, hpages, offer, (hmem offer).mpr ⟨by rw [hid]; exact hoffer, hactive⟩, hid⟩
  · obtain ⟨offer', hoffer', hstatus⟩ := hrecorded.first.status
    obtain rfl := Option.some.inj (hoffer.symm.trans hoffer')
    rw [hactive] at hstatus
    rcases hstatus with hstatus | hstatus
    · cases hstatus
    · cases hstatus

end World

namespace Sample

/-- Account 2 offers the 1000 tonnes of credit 1 until the time 20. -/
def offerUntil : Tx chain :=
  tx 2 11 (.marketplace (.createOffer (.account 2) 1 10000 1000 currency (some 20)))

/-- Account 3 buys them at the time 30. -/
def buyLate : Tx chain := tx 3 30 (.marketplace (.buyCredits (.account 3) 1 1000))

end Sample

namespace World

theorem lateBuy_sample : LateBuy (run (apply Sample.chain) Sample.start
    (Sample.setup ++ [Sample.offerUntil])) Sample.buyLate 1 :=
  ⟨.account 3, 1000, _, 20, rfl, rfl, rfl, rfl, by decide⟩

theorem expiry_never_recorded_sample :
    run (apply Sample.chain) Sample.start (Sample.setup ++ [Sample.offerUntil] ++
      [Sample.buyLate]) = run (apply Sample.chain) Sample.start
        (Sample.setup ++ [Sample.offerUntil]) :=
  (expiry_never_recorded Sample.chain (fun _ _ => 1000000)
    (Sample.setup ++ [Sample.offerUntil]) Sample.buyLate [] 1 lateBuy_sample).1

/-- The offer of account 2 is still active after the late buy. -/
theorem expiry_not_recorded :
    ¬ ∀ (T : Type) (ch : Chain T) (tokens : T) (us : List (Tx ch)) (tx : Tx ch)
      (vs : List (Tx ch)) (o : ℕ), LateBuy (run (apply ch) (genesis tokens) us) tx o →
        Throughout (apply ch) (fun w => RecordedExpired ch w o)
          (run (apply ch) (genesis tokens) (us ++ [tx])) vs := by
  intro h
  obtain ⟨offer, hoffer, hstatus⟩ := (h Sample.Balances Sample.chain (fun _ _ => 1000000)
    (Sample.setup ++ [Sample.offerUntil]) Sample.buyLate [] 1 lateBuy_sample).first.status
  obtain rfl := Option.some.inj (hoffer.symm.trans rfl)
  exact absurd hstatus (by decide)

end World

end CarbonVeritas
