/-
# The accounts of the offers

The stored offers against the history of a run: which `create_offer` stored an offer
(`createdIn`), and how many tonnes the accepted fills took from it in all (`sold`).

* `OfferBook` : the invariant that ties the stored offers to the history;
* `closed_kept` : a filled or cancelled offer is never written again;
* `offers_sound` : in every run, the offers are numbered 1, 2, 3, ..., each keeps the terms it
  was created with, and `filled` counts exactly what was sold of it.
-/
import CarbonVeritas.Delivery

namespace CarbonVeritas

open Transition

namespace World

variable {T : Type} {ch : Chain T} {w w' : World T} {tx : Tx ch}

/-! ## Offers in the history -/

/-- The id that an accepted `create_offer` returns. -/
def createdIn (ch : Chain T) (w : World T) (tx : Tx ch) : Option ℕ :=
  match tx.call with
  | .marketplace (.createOffer seller c price amount currency expiry) =>
      match Marketplace.createOffer ch tx.env w.marketplace w.ledger seller c price amount currency
          expiry with
      | .ok (o, _, _) => some o
      | .error _ => none
  | _ => none

/-- The tonnes that all buyers together take from the offer `o` in one step. -/
def soldIn (ch : Chain T) (o : ℕ) (p : World T × Tx ch) : ℤ :=
  match fillOf ch p.1 p.2 with
  | some (_, o', amount) => if o' = o then amount else 0
  | none => 0

/-- The tonnes that were sold of the offer `o`. -/
def sold (ch : Chain T) (hist : List (World T × Tx ch)) (o : ℕ) : ℤ :=
  (hist.map (soldIn ch o)).sum

/-- The offer keeps the terms of `terms`: it differs in `filled` and `status` at most. -/
def SameTerms (terms offer : Offer) : Prop :=
  offer = { terms with filled := offer.filled, status := offer.status }

/-- The step created the offer `o`, on the terms of `offer`. -/
def CreatedBy (ch : Chain T) (o : ℕ) (offer : Offer) (p : World T × Tx ch) : Prop :=
  createdIn ch p.1 p.2 = some o ∧ ∃ seller c price amount currency expiry,
    p.2.call = .marketplace (.createOffer seller c price amount currency expiry) ∧
      SameTerms (Marketplace.newOffer p.2.env o seller c price amount currency expiry) offer

/-- One more transaction adds what it fills of the offer. -/
theorem sold_concat (hist : List (World T × Tx ch)) (p : World T × Tx ch) (o : ℕ) :
    sold ch (hist ++ [p]) o = sold ch hist o + soldIn ch o p :=
  sum_map_concat _ _ _

/-- A transaction that fills nothing sells nothing. -/
theorem soldIn_of_none (h : fillOf ch w tx = none) (o : ℕ) : soldIn ch o (w, tx) = 0 := by
  simp only [soldIn, h]

/-- A fill sells of its own offer only. -/
theorem soldIn_of_fill {b : Address} {o : ℕ} {amount : ℤ}
    (h : fillOf ch w tx = some (b, o, amount)) (o' : ℕ) :
    soldIn ch o' (w, tx) = if o = o' then amount else 0 := by
  simp only [soldIn, h]

/-- Any other filled count or status leaves the terms. -/
theorem SameTerms.change {terms offer : Offer} (h : SameTerms terms offer) (filled : ℤ)
    (status : OfferStatus) :
    SameTerms terms { offer with filled := filled, status := status } := by
  unfold SameTerms at h ⊢
  rw [h]

/-- An accepted `create_offer` creates the offer with the next id. -/
theorem createdIn_of_create {seller : Address} {c : ℕ} {price amount : ℤ} {currency : Address}
    {expiry : Option ℕ} {r : Address}
    (hcall : tx.call = .marketplace (.createOffer seller c price amount currency expiry))
    (hchecks : Marketplace.MayCreate ch tx.env w.marketplace w.ledger seller c price amount
      expiry r) : createdIn ch w tx = some (w.marketplace.offerCounter + 1) := by
  obtain ⟨m, l, hok⟩ : ∃ m l, Marketplace.createOffer ch tx.env w.marketplace w.ledger seller c
      price amount currency expiry = .ok (w.marketplace.offerCounter + 1, m, l) :=
    ⟨_, _, Marketplace.createOffer_eq_ok.mpr ⟨r, hchecks, rfl, rfl, rfl⟩⟩
  simp only [createdIn, hcall, hok]

/-- No other call creates an offer. -/
theorem createdIn_of_not_create (h : ∀ seller c price amount currency expiry,
    tx.call ≠ .marketplace (.createOffer seller c price amount currency expiry)) :
    createdIn ch w tx = none := by
  unfold createdIn
  split
  case h_1 hcall => exact absurd hcall (h _ _ _ _ _ _)
  case h_2 => rfl

/-- A transaction that fails creates none. -/
theorem createdIn_of_not_succeeds (h : ¬ Succeeds ch w tx) : createdIn ch w tx = none := by
  unfold createdIn
  split
  case h_2 => rfl
  case h_1 hcall =>
      split
      case h_2 => rfl
      case h_1 hok => exact absurd ⟨_, exec_createOffer hcall hok⟩ h

/-- Only `buy_credits` fills an offer. -/
theorem fillOf_of_not_buy (h : ∀ b o amount,
    tx.call ≠ .marketplace (.buyCredits b o amount)) : fillOf ch w tx = none := by
  cases hfill : fillOf ch w tx with
  | none => rfl
  | some f =>
      obtain ⟨b, o, amount⟩ := f
      exact absurd (fillOf_eq_some.mp hfill).1 (h b o amount)

/-- A transaction that fails fills none. -/
theorem fillOf_of_not_succeeds (h : ¬ Succeeds ch w tx) : fillOf ch w tx = none := by
  cases hfill : fillOf ch w tx with
  | none => rfl
  | some f =>
      obtain ⟨hcall, offer, r, tokens, hchecks⟩ := fillOf_eq_some.mp hfill
      exact absurd ⟨_, exec_buyCredits hcall hchecks⟩ h

/-! ## The invariant -/

/-- The counts of one stored offer. -/
structure Accounted (ch : Chain T) (hist : List (World T × Tx ch)) (o : ℕ) (offer : Offer) :
    Prop where
  nonneg : 0 ≤ offer.filled
  le_amount : offer.filled ≤ offer.amount
  filled_eq : offer.filled = sold ch hist o
  status_iff : offer.status = .filled ↔ offer.filled = offer.amount
  created : ∃ p ∈ hist, CreatedBy ch o offer p

/-- The stored offers and the history of the run. -/
structure OfferBook (ch : Chain T) (hist : List (World T × Tx ch)) (w : World T) : Prop where
  numbered : hist.filterMap (fun p => createdIn ch p.1 p.2) =
    List.range' 1 w.marketplace.offerCounter
  stored : ∀ o, (w.marketplace.offers o).isSome = true ↔ 1 ≤ o ∧ o ≤ w.marketplace.offerCounter
  accounted : ∀ o offer, w.marketplace.offers o = some offer → Accounted ch hist o offer
  unsold : ∀ o, w.marketplace.offers o = none → sold ch hist o = 0

/-- Before the first offer the book is in order. -/
theorem offerBook_genesis (tokens : T) : OfferBook ch [] (genesis tokens) where
  numbered := rfl
  stored := by
    intro o
    show (none : Option Offer).isSome = true ↔ 1 ≤ o ∧ o ≤ 0
    simp only [Option.isSome_none, Bool.false_eq_true, false_iff]
    omega
  accounted := fun _ _ h => by cases h
  unsold := fun _ _ => rfl

/-- A stored offer has an id that was counted. -/
theorem OfferBook.le_counter {hist : List (World T × Tx ch)} (h : OfferBook ch hist w) {o : ℕ}
    {offer : Offer} (ho : w.marketplace.offers o = some offer) :
    1 ≤ o ∧ o ≤ w.marketplace.offerCounter :=
  (h.stored o).mp (by rw [ho]; rfl)

/-- The next id is free. -/
theorem OfferBook.fresh {hist : List (World T × Tx ch)} (h : OfferBook ch hist w) :
    w.marketplace.offers (w.marketplace.offerCounter + 1) = none := by
  cases hnew : w.marketplace.offers (w.marketplace.offerCounter + 1) with
  | none => rfl
  | some offer =>
      have hle := (h.le_counter hnew).2
      omega

/-- Another step that sells nothing of an offer leaves its counts. -/
theorem Accounted.concat {hist : List (World T × Tx ch)} {o : ℕ} {offer : Offer}
    (h : Accounted ch hist o offer) {p : World T × Tx ch} (hzero : soldIn ch o p = 0) :
    Accounted ch (hist ++ [p]) o offer where
  nonneg := h.nonneg
  le_amount := h.le_amount
  filled_eq := by rw [sold_concat, hzero, Int.add_zero, h.filled_eq]
  status_iff := h.status_iff
  created := by
    obtain ⟨q, hq, hcreated⟩ := h.created
    exact ⟨q, List.mem_append_left _ hq, hcreated⟩

/-- Without a new offer, the ids created stay the ids counted. -/
theorem offerBook_numbered_concat {hist : List (World T × Tx ch)} (h : OfferBook ch hist w)
    (hnone : createdIn ch w tx = none) :
    (hist ++ [(w, tx)]).filterMap (fun p => createdIn ch p.1 p.2) =
      List.range' 1 w.marketplace.offerCounter := by
  rw [filterMap_concat, hnone, Option.toList_none, List.append_nil, h.numbered]

/-- A step that writes no offer. -/
theorem OfferBook.keep {hist : List (World T × Tx ch)} (h : OfferBook ch hist w)
    (hcreated : createdIn ch w tx = none) (hfill : fillOf ch w tx = none)
    (hoffers : w'.marketplace.offers = w.marketplace.offers)
    (hcounter : w'.marketplace.offerCounter = w.marketplace.offerCounter) :
    OfferBook ch (hist ++ [(w, tx)]) w' where
  numbered := by rw [offerBook_numbered_concat h hcreated, hcounter]
  stored := by
    rw [hoffers, hcounter]
    exact h.stored
  accounted := by
    intro o offer ho
    rw [hoffers] at ho
    exact (h.accounted o offer ho).concat (soldIn_of_none hfill o)
  unsold := by
    intro o ho
    rw [hoffers] at ho
    rw [sold_concat, soldIn_of_none hfill, Int.add_zero, h.unsold o ho]

/-- A step that rewrites the offer `o₀`, with its new counts. -/
theorem OfferBook.rewrite {hist : List (World T × Tx ch)} (h : OfferBook ch hist w)
    (hcreated : createdIn ch w tx = none) {o₀ : ℕ} {offer₀ offer₁ : Offer}
    (hstored : w.marketplace.offers o₀ = some offer₀)
    (hoffers : w'.marketplace.offers = Function.update w.marketplace.offers o₀ (some offer₁))
    (hcounter : w'.marketplace.offerCounter = w.marketplace.offerCounter)
    (hother : ∀ o, o ≠ o₀ → soldIn ch o (w, tx) = 0)
    (hself : Accounted ch (hist ++ [(w, tx)]) o₀ offer₁) :
    OfferBook ch (hist ++ [(w, tx)]) w' where
  numbered := by rw [offerBook_numbered_concat h hcreated, hcounter]
  stored := by
    intro o
    rw [hoffers, hcounter]
    by_cases ho : o = o₀
    · subst ho
      rw [Function.update_self]
      exact ⟨fun _ => h.le_counter hstored, fun _ => rfl⟩
    · rw [Function.update_of_ne ho]
      exact h.stored o
  accounted := by
    intro o offer hoffer
    rw [hoffers] at hoffer
    by_cases ho : o = o₀
    · subst ho
      rw [Function.update_self] at hoffer
      obtain rfl := Option.some.inj hoffer
      exact hself
    · rw [Function.update_of_ne ho] at hoffer
      exact (h.accounted o offer hoffer).concat (hother o ho)
  unsold := by
    intro o hnone
    rw [hoffers] at hnone
    by_cases ho : o = o₀
    · rw [ho, Function.update_self] at hnone
      cases hnone
    · rw [Function.update_of_ne ho] at hnone
      rw [sold_concat, hother o ho, Int.add_zero, h.unsold o hnone]

/-! ### One step -/

/-- A new offer takes the next number, and nothing was sold of it. -/
theorem OfferBook.deposit {hist : List (World T × Tx ch)} (h : OfferBook ch hist w)
    {seller : Address} {c : ℕ} {price amount : ℤ} {currency : Address} {expiry : Option ℕ}
    {r : Address}
    (hcall : tx.call = .marketplace (.createOffer seller c price amount currency expiry))
    (hchecks : Marketplace.MayCreate ch tx.env w.marketplace w.ledger seller c price amount
      expiry r)
    (hoffers : w'.marketplace.offers = Function.update w.marketplace.offers
      (w.marketplace.offerCounter + 1) (some (Marketplace.newOffer tx.env
        (w.marketplace.offerCounter + 1) seller c price amount currency expiry)))
    (hcounter : w'.marketplace.offerCounter = w.marketplace.offerCounter + 1) :
    OfferBook ch (hist ++ [(w, tx)]) w' := by
  have hcreated := createdIn_of_create hcall hchecks
  have hfill : fillOf ch w tx = none := fillOf_of_not_buy (by simp [hcall])
  have hsold : ∀ o, sold ch (hist ++ [(w, tx)]) o = sold ch hist o := by
    intro o
    rw [sold_concat, soldIn_of_none hfill, Int.add_zero]
  have hpos := hchecks.positive.1
  constructor
  · rw [filterMap_concat, hcreated, h.numbered, hcounter, List.range'_1_concat, Option.toList_some,
      Nat.add_comm 1]
  · intro o
    rw [hoffers, hcounter]
    by_cases ho : o = w.marketplace.offerCounter + 1
    · subst ho
      rw [Function.update_self]
      exact ⟨fun _ => ⟨by omega, le_rfl⟩, fun _ => rfl⟩
    · rw [Function.update_of_ne ho, h.stored o]
      omega
  · intro o offer hoffer
    rw [hoffers] at hoffer
    by_cases ho : o = w.marketplace.offerCounter + 1
    · subst ho
      rw [Function.update_self] at hoffer
      obtain rfl := Option.some.inj hoffer
      refine ⟨le_rfl, hpos.le, ?_, ?_, (w, tx), List.mem_append_right _ List.mem_cons_self,
        hcreated, seller, c, price, amount, currency, expiry, hcall, rfl⟩
      · rw [hsold, h.unsold _ h.fresh]
        rfl
      · -- the new offer is active, and its amount is positive
        show OfferStatus.active = .filled ↔ (0 : ℤ) = amount
        simp only [reduceCtorEq, false_iff]
        omega
    · rw [Function.update_of_ne ho] at hoffer
      exact (h.accounted o offer hoffer).concat (soldIn_of_none hfill o)
  · intro o hnone
    rw [hoffers] at hnone
    by_cases ho : o = w.marketplace.offerCounter + 1
    · rw [ho, Function.update_self] at hnone
      cases hnone
    · rw [Function.update_of_ne ho] at hnone
      rw [hsold, h.unsold o hnone]

/-- A fill adds what it takes, and closes the offer when nothing is left. -/
theorem Accounted.fill {hist : List (World T × Tx ch)} {b : Address} {o : ℕ} {amount : ℤ}
    {offer : Offer} (h : Accounted ch hist o offer)
    (hfill : fillOf ch w tx = some (b, o, amount)) (hactive : offer.status = .active)
    (hamount : 0 < amount ∧ amount ≤ offer.amount - offer.filled) :
    Accounted ch (hist ++ [(w, tx)]) o (Marketplace.filledOffer offer amount) := by
  have hnonneg := h.nonneg
  constructor
  · show 0 ≤ offer.filled + amount
    omega
  · show offer.filled + amount ≤ offer.amount
    omega
  · show offer.filled + amount = sold ch (hist ++ [(w, tx)]) o
    rw [sold_concat, soldIn_of_fill hfill, if_pos rfl, h.filled_eq]
  · show (if offer.filled + amount ≥ offer.amount then OfferStatus.filled else offer.status) =
      .filled ↔ offer.filled + amount = offer.amount
    split_ifs with hall
    · simp only [true_iff]
      omega
    · rw [hactive]
      simp only [reduceCtorEq, false_iff]
      omega
  · obtain ⟨p, hp, hcreated, seller, c, price, amount', currency, expiry, hcall, hterms⟩ :=
      h.created
    exact ⟨p, List.mem_append_left _ hp, hcreated, seller, c, price, amount', currency, expiry,
      hcall, hterms.change _ _⟩

/-- Only an active offer is cancelled, so it is not filled. -/
theorem Accounted.cancel {hist : List (World T × Tx ch)} {o : ℕ} {offer : Offer}
    (h : Accounted ch hist o offer) (hzero : soldIn ch o (w, tx) = 0)
    (hactive : offer.status = .active) :
    Accounted ch (hist ++ [(w, tx)]) o { offer with status := .cancelled } := by
  have hleft : offer.filled ≠ offer.amount := by
    intro heq
    have hfilled := h.status_iff.mpr heq
    rw [hactive] at hfilled
    cases hfilled
  constructor
  · exact h.nonneg
  · exact h.le_amount
  · exact (h.concat hzero).filled_eq
  · show OfferStatus.cancelled = .filled ↔ offer.filled = offer.amount
    simp only [reduceCtorEq, false_iff]
    exact hleft
  · obtain ⟨p, hp, hcreated, seller, c, price, amount, currency, expiry, hcall, hterms⟩ :=
      h.created
    exact ⟨p, List.mem_append_left _ hp, hcreated, seller, c, price, amount, currency, expiry,
      hcall, hterms.change _ _⟩

/-- Every transaction keeps the book in order. -/
theorem OfferBook.step {hist : List (World T × Tx ch)} (h : OfferBook ch hist w) (tx : Tx ch) :
    OfferBook ch (hist ++ [(w, tx)]) (apply ch w tx) := by
  by_cases hsucc : Succeeds ch w tx
  · cases exec_offerStep hsucc.exec_eq with
    | other hcall hoffers hcounter _ =>
        refine h.keep (createdIn_of_not_create ?_) (fillOf_of_not_buy ?_) hoffers hcounter
        · intro _ _ _ _ _ _ heq
          rw [heq] at hcall
          cases hcall
        · intro _ _ _ heq
          rw [heq] at hcall
          cases hcall
    | deposit hcall hchecks hoffers hcounter _ => exact h.deposit hcall hchecks hoffers hcounter
    | fill hcall hchecks hoffers hcounter _ =>
        have hfill := fillOf_eq_some.mpr ⟨hcall, _, _, _, hchecks⟩
        refine h.rewrite (createdIn_of_not_create (by simp [hcall])) hchecks.stored hoffers
          hcounter (fun o ho => ?_)
          ((h.accounted _ _ hchecks.stored).fill hfill hchecks.active hchecks.available)
        rw [soldIn_of_fill hfill, if_neg (Ne.symm ho)]
    | cancel hcall hchecks hoffers hcounter _ =>
        have hfill : fillOf ch w tx = none := fillOf_of_not_buy (by simp [hcall])
        exact h.rewrite (createdIn_of_not_create (by simp [hcall])) hchecks.stored hoffers hcounter
          (fun o _ => soldIn_of_none hfill o)
          ((h.accounted _ _ hchecks.stored).cancel (soldIn_of_none hfill _) hchecks.active)
  · rw [apply_of_not_succeeds hsucc]
    exact h.keep (createdIn_of_not_succeeds hsucc) (fillOf_of_not_succeeds hsucc) rfl rfl

/-- In every run the book is in order. -/
theorem offerBook_run (ch : Chain T) (tokens : T) (ts : List (Tx ch)) :
    OfferBook ch (steps (apply ch) (genesis tokens) ts) (run (apply ch) (genesis tokens) ts) :=
  history_invariant (C := fun _ _ => True) (offerBook_genesis tokens)
    (fun _ _ tx h _ => h.step tx) fun _ _ => trivial

/-! ## Closed offers -/

/-- No buy and no cancel of an offer that is not active succeeds. -/
theorem closed_refuses {o : ℕ} {offer : Offer} (ho : w.marketplace.offers o = some offer)
    (hclosed : offer.status ≠ .active) (htrade : tx.call.tradedOffer = some o) :
    ¬ Succeeds ch w tx := by
  intro hsucc
  cases exec_offerStep hsucc.exec_eq with
  | other hcall _ _ _ =>
      rw [Call.tradedOffer_eq_none hcall] at htrade
      cases htrade
  | deposit hcall _ _ _ _ =>
      rw [hcall] at htrade
      cases htrade
  | fill hcall hchecks _ _ _ =>
      rw [hcall] at htrade
      obtain rfl : _ = o := Option.some.inj htrade
      obtain rfl := Option.some.inj (hchecks.stored.symm.trans ho)
      exact hclosed hchecks.active
  | cancel hcall hchecks _ _ _ =>
      rw [hcall] at htrade
      obtain rfl : _ = o := Option.some.inj htrade
      obtain rfl := Option.some.inj (hchecks.stored.symm.trans ho)
      exact hclosed hchecks.active

/-- An offer that is not active is never written again. -/
theorem closed_kept {hist : List (World T × Tx ch)} (h : OfferBook ch hist w) {o : ℕ}
    {offer : Offer} (ho : w.marketplace.offers o = some offer) (hclosed : offer.status ≠ .active)
    (tx : Tx ch) : (apply ch w tx).marketplace.offers o = some offer := by
  refine apply_rule (P := fun w' => w'.marketplace.offers o = some offer) ho fun w' hexec => ?_
  have hne : ∀ {o₀ : ℕ}, tx.call.tradedOffer = some o₀ → o ≠ o₀ := by
    rintro o₀ htrade rfl
    exact closed_refuses ho hclosed htrade ⟨w', hexec⟩
  cases exec_offerStep hexec with
  | other _ hoffers _ _ =>
      rw [hoffers]
      exact ho
  | deposit _ _ hoffers _ _ =>
      have hle := (h.le_counter ho).2
      rw [hoffers, Function.update_of_ne (by omega)]
      exact ho
  | fill hcall _ hoffers _ _ =>
      rw [hoffers, Function.update_of_ne (hne (by rw [hcall]; rfl))]
      exact ho
  | cancel hcall _ hoffers _ _ =>
      rw [hoffers, Function.update_of_ne (hne (by rw [hcall]; rfl))]
      exact ho

/-- A stored offer stays stored on its terms. -/
theorem terms_kept {hist : List (World T × Tx ch)} (h : OfferBook ch hist w) {o : ℕ}
    {offer : Offer} (ho : w.marketplace.offers o = some offer) (tx : Tx ch) :
    ∃ offer', (apply ch w tx).marketplace.offers o = some offer' ∧ SameTerms offer offer' := by
  refine apply_rule (P := fun w' => ∃ offer', w'.marketplace.offers o = some offer' ∧
    SameTerms offer offer') ⟨offer, ho, rfl⟩ fun w' hexec => ?_
  -- a fill and a cancel rewrite one offer, in its filled count and its status
  have hrewrite : ∀ {o₀ : ℕ} {offer₀ offer₁ : Offer}, w.marketplace.offers o₀ = some offer₀ →
      w'.marketplace.offers = Function.update w.marketplace.offers o₀ (some offer₁) →
      SameTerms offer₀ offer₁ →
      ∃ offer', w'.marketplace.offers o = some offer' ∧ SameTerms offer offer' := by
    intro o₀ offer₀ offer₁ hstored hoffers hterms
    rw [hoffers]
    by_cases heq : o = o₀
    · subst heq
      obtain rfl := Option.some.inj (hstored.symm.trans ho)
      exact ⟨offer₁, by rw [Function.update_self], hterms⟩
    · exact ⟨offer, by rw [Function.update_of_ne heq, ho], rfl⟩
  cases exec_offerStep hexec with
  | other _ hoffers _ _ => exact ⟨offer, by rw [hoffers, ho], rfl⟩
  | deposit _ _ hoffers _ _ =>
      have hle := (h.le_counter ho).2
      exact ⟨offer, by rw [hoffers, Function.update_of_ne (by omega), ho], rfl⟩
  | fill _ hchecks hoffers _ _ => exact hrewrite hchecks.stored hoffers rfl
  | cancel _ hchecks hoffers _ _ => exact hrewrite hchecks.stored hoffers rfl

/-- An offer that is filled or cancelled stays as it is. -/
theorem closed_run (tokens : T) (us vs : List (Tx ch)) {o : ℕ} {offer : Offer}
    (ho : (run (apply ch) (genesis tokens) us).marketplace.offers o = some offer)
    (hclosed : offer.status ≠ .active) :
    (run (apply ch) (genesis tokens) (us ++ vs)).marketplace.offers o = some offer := by
  induction vs using List.reverseRecOn with
  | nil =>
      rw [List.append_nil]
      exact ho
  | append_singleton vs tx ih =>
      rw [← List.append_assoc, run_concat]
      exact closed_kept (offerBook_run ch tokens (us ++ vs)) ih hclosed tx

/-! ## The accounts of a run -/

/-- The amounts that the run creates offers with are `i128` values. -/
def AmountsFit (ts : List (Tx ch)) : Prop :=
  ∀ tx ∈ ts, ∀ seller c price amount currency expiry,
    tx.call = .marketplace (.createOffer seller c price amount currency expiry) →
      amount < 2 ^ 127

/-- The offers after the run `ts`. -/
structure SoundOffers (ch : Chain T) (tokens : T) (ts : List (Tx ch)) : Prop where
  /-- the ids are 1, 2, 3, ..., in the order of the creations -/
  numbered : (steps (apply ch) (genesis tokens) ts).filterMap (fun p => createdIn ch p.1 p.2) =
    List.range' 1 (run (apply ch) (genesis tokens) ts).marketplace.offerCounter
  stored : ∀ o, ((run (apply ch) (genesis tokens) ts).marketplace.offers o).isSome = true ↔
    1 ≤ o ∧ o ≤ (run (apply ch) (genesis tokens) ts).marketplace.offerCounter
  /-- the counts, and the terms of the creation -/
  counted : ∀ o offer, (run (apply ch) (genesis tokens) ts).marketplace.offers o = some offer →
    Accounted ch (steps (apply ch) (genesis tokens) ts) o offer
  /-- what is filled or cancelled once stays as it is -/
  closed : ∀ us o offer, us <+: ts →
    (run (apply ch) (genesis tokens) us).marketplace.offers o = some offer →
    offer.status = .filled ∨ offer.status = .cancelled →
      (run (apply ch) (genesis tokens) ts).marketplace.offers o = some offer ∧
        ∀ tx : Tx ch, tx.call.tradedOffer = some o →
          ¬ Succeeds ch (run (apply ch) (genesis tokens) ts) tx
  /-- neither `amount - filled` nor an accepted `filled + amount` leaves `i128` -/
  inRange : AmountsFit ts → ∀ o offer,
    (run (apply ch) (genesis tokens) ts).marketplace.offers o = some offer →
      (0 ≤ offer.amount - offer.filled ∧ offer.amount - offer.filled < 2 ^ 127) ∧
        ∀ x, 0 < x → x ≤ offer.amount - offer.filled →
          i128CheckedAdd offer.filled x = some (offer.filled + x)
  failing : ∀ tx : Tx ch, ¬ Succeeds ch (run (apply ch) (genesis tokens) ts) tx →
    (apply ch (run (apply ch) (genesis tokens) ts) tx).marketplace.offers =
      (run (apply ch) (genesis tokens) ts).marketplace.offers

/-- A created offer has the amount of a call of the run. -/
theorem amount_lt_of_created {tokens : T} {ts : List (Tx ch)} (hfit : AmountsFit ts) {o : ℕ}
    {offer : Offer} (h : ∃ p ∈ steps (apply ch) (genesis tokens) ts, CreatedBy ch o offer p) :
    offer.amount < 2 ^ 127 := by
  obtain ⟨p, hp, -, seller, c, price, amount, currency, expiry, hcall, hterms⟩ := h
  obtain ⟨us, vs, hts, -⟩ := (mem_steps_iff _ _ _ _).mp hp
  have hmem : p.2 ∈ ts := by
    rw [hts]
    exact List.mem_append_right _ List.mem_cons_self
  have hamount : offer.amount = amount := by
    unfold SameTerms at hterms
    rw [hterms]
    rfl
  rw [hamount]
  exact hfit p.2 hmem seller c price amount currency expiry hcall

/-- **Offer accounting.**  In every state that a run reaches: the offers are numbered
1, 2, 3, ... without reuse; each has the terms of the call that created it, with `filled`
between 0 and its amount and equal to the sum of its accepted fills; it is filled exactly when
nothing is left of it; filled and cancelled offers are final; the sums of the code stay in
`i128`; and a failing call changes no offer. -/
theorem offers_sound (ch : Chain T) (tokens : T) (ts : List (Tx ch)) :
    SoundOffers ch tokens ts := by
  have h := offerBook_run ch tokens ts
  refine ⟨h.numbered, h.stored, h.accounted, ?_, ?_, ?_⟩
  · rintro us o offer ⟨vs, rfl⟩ ho hstatus
    have hclosed : offer.status ≠ .active := by
      rcases hstatus with hstatus | hstatus
      · rw [hstatus]
        decide
      · rw [hstatus]
        decide
    have hrun := closed_run tokens us vs ho hclosed
    exact ⟨hrun, fun tx htrade => closed_refuses hrun hclosed htrade⟩
  · intro hfit o offer ho
    have hacc := h.accounted o offer ho
    have hnonneg := hacc.nonneg
    have hle := hacc.le_amount
    have hlt := amount_lt_of_created hfit hacc.created
    refine ⟨⟨by omega, by omega⟩, fun x hx hxle => ?_⟩
    unfold i128CheckedAdd
    rw [if_pos ⟨by omega, by omega⟩]
  · intro tx hfail
    rw [apply_of_not_succeeds hfail]

end World

end CarbonVeritas
