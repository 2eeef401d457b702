/-
# Offers and the tonnes behind them

An offer is backed by the credit of the registry that `create_offer` has called (`backingIn`).
`create_offer` takes any positive amount: it does not look at the tonnes of the credit.

* `Covered` : the offers whose credit has the tonnes that they offer;
* `not_oversold_iff` : no active offer exceeds its credit, and no offer sells more than its
  credit has, exactly in the runs whose accepted `create_offer` calls stay within the tonnes
  of the credit.
-/
import CarbonVeritas.OfferAccounts

namespace CarbonVeritas

open Transition

namespace World

variable {T : Type} {ch : Chain T} {w : World T} {tx : Tx ch}

/-! ## Backing -/

/-- The id of a created offer, and the registry that holds its credit. -/
def backingIn (ch : Chain T) (p : World T × Tx ch) : Option (ℕ × Address) :=
  match createdIn ch p.1 p.2, p.1.marketplace.creditRegistry with
  | some o, some r => some (o, r)
  | _, _ => none

/-- The credit of the offer in the registry `r` has at least the tonnes `x`. -/
def HasTonnes (w : World T) (r : Address) (offer : Offer) (x : ℤ) : Prop :=
  ∃ credit, (w.registry r).credits offer.creditId = some credit ∧ x ≤ credit.tonnes

/-- No offer of the history promises, or has sold, more tonnes than the credit behind it. -/
structure NotOversold (ch : Chain T) (hist : List (World T × Tx ch)) (w : World T) : Prop where
  active : ∀ p ∈ hist, ∀ o r offer, backingIn ch p = some (o, r) →
    w.marketplace.offers o = some offer → offer.status = .active →
      HasTonnes w r offer offer.amount
  sold : ∀ p ∈ hist, ∀ o r offer, backingIn ch p = some (o, r) →
    w.marketplace.offers o = some offer → HasTonnes w r offer (sold ch hist o)

/-- If the transaction is an accepted `create_offer`, its amount is within the tonnes that the
called registry records for the credit. -/
def WithinTonnes (ch : Chain T) (w : World T) (tx : Tx ch) : Prop :=
  ∀ seller c price amount currency expiry r,
    tx.call = .marketplace (.createOffer seller c price amount currency expiry) →
    Succeeds ch w tx → w.marketplace.creditRegistry = some r →
      ∃ credit, (w.registry r).credits c = some credit ∧ amount ≤ credit.tonnes

theorem backingIn_eq_some {o : ℕ} {r : Address} :
    backingIn ch (w, tx) = some (o, r) ↔
      createdIn ch w tx = some o ∧ w.marketplace.creditRegistry = some r := by
  unfold backingIn
  cases createdIn ch w tx with
  | none => simp
  | some o' =>
      cases w.marketplace.creditRegistry with
      | none => simp
      | some r' => simp

/-- A creation stores a new active offer, backed by the registry that it has called. -/
theorem created_of_create {seller : Address} {c : ℕ} {price amount : ℤ} {currency : Address}
    {expiry : Option ℕ}
    (hcall : tx.call = .marketplace (.createOffer seller c price amount currency expiry))
    (hsucc : Succeeds ch w tx) : ∃ r, w.marketplace.creditRegistry = some r ∧
      backingIn ch (w, tx) = some (w.marketplace.offerCounter + 1, r) ∧
      (apply ch w tx).marketplace.offers (w.marketplace.offerCounter + 1) =
        some (Marketplace.newOffer tx.env (w.marketplace.offerCounter + 1) seller c price amount
          currency expiry) ∧
      ((apply ch w tx).registry r).credits = (w.registry r).credits := by
  cases exec_offerStep hsucc.exec_eq with
  | other hother _ _ _ =>
      rw [hcall] at hother
      cases hother
  | fill hfill _ _ _ _ =>
      rw [hcall] at hfill
      cases hfill
  | cancel hcancel _ _ _ _ =>
      rw [hcall] at hcancel
      cases hcancel
  | @deposit _ _ _ _ _ _ r hcreate hchecks hoffers _ hledger =>
      rw [hcall] at hcreate
      cases hcreate
      refine ⟨r, hchecks.wired,
        backingIn_eq_some.mpr ⟨createdIn_of_create hcall hchecks, hchecks.wired⟩,
        by rw [hoffers, Function.update_self], ?_⟩
      unfold registry
      rw [hledger, Ledger.registry_writeRegistry_self, CreditRegistry.transferred_credits]

/-! ## The invariant -/

/-- The offer `o` is stored, and its credit in the registry `r` has the tonnes offered. -/
def Covered (w : World T) (o : ℕ) (r : Address) : Prop :=
  ∃ offer, w.marketplace.offers o = some offer ∧ HasTonnes w r offer offer.amount

/-- Neither the terms of an offer nor the tonnes of a credit change. -/
theorem Covered.apply {hist : List (World T × Tx ch)} {o : ℕ} {r : Address} (h : Covered w o r)
    (hbook : OfferBook ch hist w) (hidx : (w.registry r).CreditsIndexed) (tx : Tx ch) :
    Covered (apply ch w tx) o r := by
  obtain ⟨offer, hoffer, credit, hcredit, hle⟩ := h
  obtain ⟨offer', hoffer', hterms⟩ := terms_kept hbook hoffer tx
  obtain ⟨credit', hcredit', hrecord, -⟩ := credit_kept hidx hcredit tx
  have hid : offer'.creditId = offer.creditId := by rw [hterms]
  have hamount : offer'.amount = offer.amount := by rw [hterms]
  have htonnes : credit'.tonnes = credit.tonnes := by rw [hrecord]
  refine ⟨offer', hoffer', credit', ?_, ?_⟩
  · rw [hid]
    exact hcredit'
  · rw [hamount, htonnes]
    exact hle

/-- All the offers that the history has created are covered. -/
structure AllCovered (ch : Chain T) (hist : List (World T × Tx ch)) (w : World T) : Prop where
  book : OfferBook ch hist w
  indexed : ∀ r, (w.registry r).CreditsIndexed
  covered : ∀ p ∈ hist, ∀ o r, backingIn ch p = some (o, r) → Covered w o r

theorem allCovered_genesis (tokens : T) : AllCovered ch [] (genesis tokens) where
  book := offerBook_genesis tokens
  indexed := fun r => indexed_genesis r tokens
  covered := fun p hp => by cases hp

theorem AllCovered.step {hist : List (World T × Tx ch)} (h : AllCovered ch hist w)
    (hwithin : WithinTonnes ch w tx) :
    AllCovered ch (hist ++ [(w, tx)]) (apply ch w tx) := by
  refine ⟨h.book.step tx, fun r => indexed_apply (h.indexed r), fun p hp o r hbacking => ?_⟩
  rcases List.mem_append.mp hp with hp | hp
  · exact (h.covered p hp o r hbacking).apply h.book (h.indexed r) tx
  · obtain rfl := List.mem_singleton.mp hp
    obtain ⟨hcreated, hwired⟩ := backingIn_eq_some.mp hbacking
    -- the step is an accepted creation
    have hsucc : Succeeds ch w tx := by
      by_contra hfail
      rw [createdIn_of_not_succeeds hfail] at hcreated
      cases hcreated
    have hcall : ∃ seller c price amount currency expiry,
        tx.call = .marketplace (.createOffer seller c price amount currency expiry) := by
      by_contra hother
      push Not at hother
      rw [createdIn_of_not_create hother] at hcreated
      cases hcreated
    obtain ⟨seller, c, price, amount, currency, expiry, hcall⟩ := hcall
    obtain ⟨r', hwired', hnew, hoffer, hcredits⟩ := created_of_create hcall hsucc
    obtain rfl : r' = r := Option.some.inj (hwired'.symm.trans hwired)
    obtain rfl : w.marketplace.offerCounter + 1 = o :=
      Option.some.inj ((backingIn_eq_some.mp hnew).1.symm.trans hcreated)
    obtain ⟨credit, hcredit, hle⟩ :=
      hwithin seller c price amount currency expiry r' hcall hsucc hwired
    exact ⟨_, hoffer, credit, by rw [hcredits]; exact hcredit, hle⟩

/-- What is offered is within the tonnes, and no more is sold than was offered. -/
theorem AllCovered.notOversold {hist : List (World T × Tx ch)} (h : AllCovered ch hist w) :
    NotOversold ch hist w := by
  have hcovered : ∀ p ∈ hist, ∀ o r offer, backingIn ch p = some (o, r) →
      w.marketplace.offers o = some offer → HasTonnes w r offer offer.amount := by
    intro p hp o r offer hbacking hoffer
    obtain ⟨offer', hoffer', htonnes⟩ := h.covered p hp o r hbacking
    obtain rfl := Option.some.inj (hoffer.symm.trans hoffer')
    exact htonnes
  constructor
  · intro p hp o r offer hbacking hoffer _
    exact hcovered p hp o r offer hbacking hoffer
  · intro p hp o r offer hbacking hoffer
    obtain ⟨credit, hcredit, hle⟩ := hcovered p hp o r offer hbacking hoffer
    have hacc := h.book.accounted o offer hoffer
    refine ⟨credit, hcredit, ?_⟩
    rw [← hacc.filled_eq]
    exact hacc.le_amount.trans hle

/-- A creation beyond the tonnes of the credit leaves an active offer that exceeds them. -/
theorem NotOversold.withinTonnes {hist : List (World T × Tx ch)}
    (h : NotOversold ch (hist ++ [(w, tx)]) (apply ch w tx)) : WithinTonnes ch w tx := by
  intro seller c price amount currency expiry r hcall hsucc hwired
  obtain ⟨r', hwired', hbacking, hoffer, hcredits⟩ := created_of_create hcall hsucc
  obtain rfl : r' = r := Option.some.inj (hwired'.symm.trans hwired)
  obtain ⟨credit, hcredit, hle⟩ := h.active (w, tx)
    (List.mem_append_right _ List.mem_cons_self) _ r' _ hbacking hoffer rfl
  rw [hcredits] at hcredit
  exact ⟨credit, hcredit, hle⟩

/-! ## The main theorem -/

/-- **No overselling.**  In every state of a run, no active offer exceeds the tonnes of its
credit and no offer has sold more than its credit has, if and only if every accepted
`create_offer` of the run offers at most the tonnes of the credit. -/
theorem not_oversold_iff (ch : Chain T) (tokens : T) (ts : List (Tx ch)) :
    (∀ us, us <+: ts → NotOversold ch (steps (apply ch) (genesis tokens) us)
        (run (apply ch) (genesis tokens) us)) ↔
      Always (apply ch) (WithinTonnes ch) (genesis tokens) ts := by
  constructor
  · rintro h ⟨w, tx⟩ hp
    obtain ⟨us, vs, hts, rfl⟩ := (mem_steps_iff _ _ _ _).mp hp
    have hprefix : us ++ [tx] <+: ts := by
      rw [hts]
      exact ⟨vs, by rw [List.append_assoc]; rfl⟩
    have hafter := h (us ++ [tx]) hprefix
    rw [steps_concat, run_concat] at hafter
    exact hafter.withinTonnes
  · rintro hwithin us ⟨vs, rfl⟩
    exact (history_invariant (allCovered_genesis tokens) (fun _ _ _ h hw => h.step hw)
      (always_append.mp hwithin).1).notOversold

/-- Account 2 offers two million tonnes of its credit of 1000 tonnes. -/
theorem oversold :
    ¬ ∀ (T : Type) (ch : Chain T) (tokens : T) (ts : List (Tx ch)),
      NotOversold ch (steps (apply ch) (genesis tokens) ts)
        (run (apply ch) (genesis tokens) ts) := by
  intro h
  have hbig := h Sample.Balances Sample.chain (fun _ _ => 1000000) (Sample.setup ++
    [Sample.tx 2 11 (.marketplace
      (.createOffer (.account 2) 1 1000 2000000 Sample.currency none))])
  rw [steps_concat, run_concat] at hbig
  obtain ⟨credit, hcredit, hle⟩ := hbig.withinTonnes (.account 2) 1 1000 2000000 Sample.currency
    none Sample.registry rfl ⟨_, rfl⟩ rfl
  obtain rfl := Option.some.inj (hcredit.symm.trans rfl)
  exact absurd hle (by decide)

end World

end CarbonVeritas
