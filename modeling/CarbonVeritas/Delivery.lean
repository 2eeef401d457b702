/-
# Delivery versus payment

The fills that a run accepts, read off its steps: who buys how many tonnes of which offer
(`fillOf`), and the sums of the tonnes and of the payments of one buyer on one offer
(`bought`, `paid`).  Every accepted fill hands the whole credit over.

`delivery_versus_payment` : each fill moves exactly its own payment, and every buyer who
gets a credit has by then bought and paid the whole amount offered if and only if no fill
of the run takes less than what is left of its offer.
-/
import CarbonVeritas.Offers

namespace CarbonVeritas

open Transition

namespace World

variable {T : Type} {ch : Chain T} {w w' : World T} {tx : Tx ch}

/-! ## Fills -/

/-- The buyer, the offer and the tonnes of an accepted fill. -/
def fillOf (ch : Chain T) (w : World T) (tx : Tx ch) : Option (Address × ℕ × ℤ) :=
  match tx.call, exec ch w tx with
  | .marketplace (.buyCredits buyer o amount), .ok _ => some (buyer, o, amount)
  | _, _ => none

/-- The tonnes that `b` buys from the offer `o` in one step. -/
def boughtIn (ch : Chain T) (b : Address) (o : ℕ) (p : World T × Tx ch) : ℤ :=
  match fillOf ch p.1 p.2 with
  | some (b', o', amount) => if b' = b ∧ o' = o then amount else 0
  | none => 0

/-- What `b` pays on the offer `o` in one step. -/
def paidIn (ch : Chain T) (b : Address) (o : ℕ) (p : World T × Tx ch) : ℤ :=
  match fillOf ch p.1 p.2, p.1.marketplace.offers o with
  | some (b', o', amount), some offer =>
      if b' = b ∧ o' = o then Marketplace.paymentAmount ch amount offer.pricePerTonne else 0
  | _, _ => 0

/-- The tonnes that `b` has bought from the offer `o`. -/
def bought (ch : Chain T) (hist : List (World T × Tx ch)) (b : Address) (o : ℕ) : ℤ :=
  (hist.map (boughtIn ch b o)).sum

/-- What `b` has paid on the offer `o`. -/
def paid (ch : Chain T) (hist : List (World T × Tx ch)) (b : Address) (o : ℕ) : ℤ :=
  (hist.map (paidIn ch b o)).sum

theorem bought_concat (hist : List (World T × Tx ch)) (p : World T × Tx ch) (b : Address) (o : ℕ) :
    bought ch (hist ++ [p]) b o = bought ch hist b o + boughtIn ch b o p :=
  sum_map_concat _ _ _

theorem paid_concat (hist : List (World T × Tx ch)) (p : World T × Tx ch) (b : Address) (o : ℕ) :
    paid ch (hist ++ [p]) b o = paid ch hist b o + paidIn ch b o p :=
  sum_map_concat _ _ _

theorem fillOf_eq_some {b : Address} {o : ℕ} {amount : ℤ} :
    fillOf ch w tx = some (b, o, amount) ↔
      tx.call = .marketplace (.buyCredits b o amount) ∧ ∃ offer r tokens,
        Marketplace.MayBuy ch tx.env w.marketplace w.ledger b o amount offer r tokens := by
  constructor
  · intro h
    unfold fillOf at h
    split at h
    case h_1 hcall hexec =>
      obtain ⟨rfl, rfl, rfl⟩ : _ ∧ _ ∧ _ := by simpa using h
      refine ⟨hcall, ?_⟩
      cases exec_offerStep hexec with
      | other hother _ _ _ =>
          rw [hcall] at hother
          cases hother
      | deposit hcall' _ _ _ _ =>
          rw [hcall] at hcall'
          cases hcall'
      | cancel hcall' _ _ _ _ =>
          rw [hcall] at hcall'
          cases hcall'
      | fill hcall' hchecks _ _ _ =>
          rw [hcall] at hcall'
          cases hcall'
          exact ⟨_, _, _, hchecks⟩
    case h_2 => cases h
  · rintro ⟨hcall, offer, r, tokens, hchecks⟩
    unfold fillOf
    rw [exec_buyCredits hcall hchecks, hcall]

/-- A step that is no fill buys and pays nothing. -/
theorem boughtIn_of_none (h : fillOf ch w tx = none) (b : Address) (o : ℕ) :
    boughtIn ch b o (w, tx) = 0 ∧ paidIn ch b o (w, tx) = 0 := by
  simp only [boughtIn, paidIn, h]
  exact ⟨trivial, trivial⟩

/-- A fill is of one offer. -/
theorem boughtIn_of_ne {b b' : Address} {o o' : ℕ} {amount : ℤ}
    (h : fillOf ch w tx = some (b', o', amount)) (hne : ¬ (b' = b ∧ o' = o)) :
    boughtIn ch b o (w, tx) = 0 ∧ paidIn ch b o (w, tx) = 0 := by
  simp only [boughtIn, paidIn, h]
  rw [if_neg hne]
  refine ⟨rfl, ?_⟩
  cases w.marketplace.offers o with
  | none => rfl
  | some offer => exact if_neg hne

theorem boughtIn_self {b : Address} {o : ℕ} {amount : ℤ} {offer : Offer}
    (h : fillOf ch w tx = some (b, o, amount)) (ho : w.marketplace.offers o = some offer) :
    boughtIn ch b o (w, tx) = amount ∧
      paidIn ch b o (w, tx) = Marketplace.paymentAmount ch amount offer.pricePerTonne := by
  simp only [boughtIn, paidIn, h, ho, and_self, if_true]

/-! ## What holds in every run -/

/-- The stored offers and the fills of the past: nothing was bought of an offer still to
come, and no buyer has bought more of an offer than its `filled` counts. -/
structure FillHistory (ch : Chain T) (hist : List (World T × Tx ch)) (w : World T) : Prop where
  fresh : ∀ o, w.marketplace.offerCounter < o → w.marketplace.offers o = none ∧
    ∀ b, bought ch hist b o = 0 ∧ paid ch hist b o = 0
  price : ∀ o offer, w.marketplace.offers o = some offer → 0 < offer.pricePerTonne
  filled : ∀ o offer, w.marketplace.offers o = some offer →
    0 ≤ offer.filled ∧ ∀ b, bought ch hist b o ≤ offer.filled

/-- Without partial fills, nothing was bought of an offer that is still active. -/
def NothingBought (ch : Chain T) (hist : List (World T × Tx ch)) (w : World T) : Prop :=
  ∀ o offer, w.marketplace.offers o = some offer → offer.status = .active →
    offer.filled = 0 ∧ ∀ b, bought ch hist b o = 0 ∧ paid ch hist b o = 0

theorem fillHistory_genesis (tokens : T) : FillHistory ch [] (genesis tokens) where
  fresh := fun _ _ => ⟨rfl, fun _ => ⟨rfl, rfl⟩⟩
  price := fun _ _ h => by cases h
  filled := fun _ _ h => by cases h

/-- A step that counts nothing for a buyer and an offer leaves their sums. -/
theorem sums_of_zero (hist : List (World T × Tx ch)) {b : Address} {o : ℕ}
    (h : boughtIn ch b o (w, tx) = 0 ∧ paidIn ch b o (w, tx) = 0) :
    bought ch (hist ++ [(w, tx)]) b o = bought ch hist b o ∧
      paid ch (hist ++ [(w, tx)]) b o = paid ch hist b o := by
  rw [bought_concat, paid_concat, h.1, h.2, Int.add_zero, Int.add_zero]
  exact ⟨rfl, rfl⟩

/-- Without a fill, a stored offer is new, or is an old one with at most its status closed. -/
theorem offers_of_no_fill (hnone : fillOf ch w tx = none)
    (hfresh : ∀ o, w.marketplace.offerCounter < o → w.marketplace.offers o = none) :
    (∀ o, (apply ch w tx).marketplace.offerCounter < o →
        w.marketplace.offerCounter < o ∧ (apply ch w tx).marketplace.offers o = none) ∧
      ∀ o offer', (apply ch w tx).marketplace.offers o = some offer' →
        (w.marketplace.offerCounter < o ∧ offer'.filled = 0 ∧ 0 < offer'.pricePerTonne) ∨
          ∃ offer, w.marketplace.offers o = some offer ∧ offer'.filled = offer.filled ∧
            offer'.pricePerTonne = offer.pricePerTonne ∧
            (offer'.status = .active → offer.status = .active) := by
  by_cases hsucc : Succeeds ch w tx
  · cases exec_offerStep hsucc.exec_eq with
    | other _ hoffers hcounter _ =>
        rw [hoffers, hcounter]
        exact ⟨fun o ho => ⟨ho, hfresh o ho⟩, fun o f hf => Or.inr ⟨f, hf, rfl, rfl, id⟩⟩
    | deposit _ hchecks hoffers hcounter _ =>
        rw [hoffers, hcounter]
        constructor
        · intro o ho
          rw [Function.update_of_ne (by omega)]
          exact ⟨by omega, hfresh o (by omega)⟩
        · intro o f hf
          by_cases hnew : o = w.marketplace.offerCounter + 1
          · rw [hnew, Function.update_self] at hf
            obtain rfl := Option.some.inj hf
            exact Or.inl ⟨by omega, rfl, hchecks.positive.2⟩
          · rw [Function.update_of_ne hnew] at hf
            exact Or.inr ⟨f, hf, rfl, rfl, id⟩
    -- excluded by the hypothesis
    | fill hcall hchecks _ _ _ =>
        rw [fillOf_eq_some.mpr ⟨hcall, _, _, _, hchecks⟩] at hnone
        cases hnone
    | @cancel _ o₀ offer₀ _ _ hchecks hoffers hcounter _ =>
        rw [hoffers, hcounter]
        constructor
        · intro o ho
          have hne : o ≠ o₀ := by
            rintro rfl
            have hstored := hchecks.stored
            rw [hfresh o ho] at hstored
            cases hstored
          rw [Function.update_of_ne hne]
          exact ⟨ho, hfresh o ho⟩
        · intro o f hf
          by_cases heq : o = o₀
          · subst heq
            rw [Function.update_self] at hf
            obtain rfl := Option.some.inj hf
            exact Or.inr ⟨offer₀, hchecks.stored, rfl, rfl, fun h => by cases h⟩
          · rw [Function.update_of_ne heq] at hf
            exact Or.inr ⟨f, hf, rfl, rfl, id⟩
  · rw [apply_of_not_succeeds hsucc]
    exact ⟨fun o ho => ⟨ho, hfresh o ho⟩, fun o f hf => Or.inr ⟨f, hf, rfl, rfl, id⟩⟩

theorem FillHistory.step_of_no_fill {hist : List (World T × Tx ch)} (h : FillHistory ch hist w)
    (hnone : fillOf ch w tx = none) : FillHistory ch (hist ++ [(w, tx)]) (apply ch w tx) := by
  have hsums := fun b o => sums_of_zero hist (boughtIn_of_none hnone b o)
  obtain ⟨hcounter, hoffers⟩ := offers_of_no_fill hnone fun o ho => (h.fresh o ho).1
  constructor
  · intro o ho
    obtain ⟨hold, hfree⟩ := hcounter o ho
    refine ⟨hfree, fun b => ?_⟩
    rw [(hsums b o).1, (hsums b o).2]
    exact (h.fresh o hold).2 b
  · intro o f hf
    rcases hoffers o f hf with ⟨-, -, hprice⟩ | ⟨g, hg, -, hprice, -⟩
    · exact hprice
    · rw [hprice]
      exact h.price o g hg
  · intro o f hf
    rcases hoffers o f hf with ⟨hnew, hzero, -⟩ | ⟨g, hg, hfilled, -, -⟩
    · rw [hzero]
      refine ⟨Int.le_refl 0, fun b => ?_⟩
      exact Int.le_of_eq ((hsums b o).1.trans ((h.fresh o hnew).2 b).1)
    · rw [hfilled]
      refine ⟨(h.filled o g hg).1, fun b => ?_⟩
      rw [(hsums b o).1]
      exact (h.filled o g hg).2 b

/-- A fill counts for its buyer and its offer only. -/
theorem FillHistory.step_of_fill {hist : List (World T × Tx ch)} (h : FillHistory ch hist w)
    {b₀ : Address} {o₀ : ℕ} {amount : ℤ} {offer : Offer} {r : Address} {tokens : T}
    (hcall : tx.call = .marketplace (.buyCredits b₀ o₀ amount))
    (hchecks : Marketplace.MayBuy ch tx.env w.marketplace w.ledger b₀ o₀ amount offer r tokens) :
    FillHistory ch (hist ++ [(w, tx)]) (apply ch w tx) := by
  have hfill : fillOf ch w tx = some (b₀, o₀, amount) :=
    fillOf_eq_some.mpr ⟨hcall, offer, r, tokens, hchecks⟩
  have hle : o₀ ≤ w.marketplace.offerCounter := by
    refine Nat.not_lt.mp fun hlt => ?_
    have hstored := hchecks.stored
    rw [(h.fresh o₀ hlt).1] at hstored
    cases hstored
  have hother : ∀ b o, o ≠ o₀ → bought ch (hist ++ [(w, tx)]) b o = bought ch hist b o ∧
      paid ch (hist ++ [(w, tx)]) b o = paid ch hist b o := fun b o hne =>
    sums_of_zero hist (boughtIn_of_ne hfill fun heq => hne heq.2.symm)
  rw [apply_of_ok (exec_buyCredits hcall hchecks)]
  constructor
  · intro o ho
    have hne : o ≠ o₀ := by
      rintro rfl
      exact absurd ho (Nat.not_lt.mpr hle)
    refine ⟨?_, fun b => ?_⟩
    · show Function.update w.marketplace.offers o₀ _ o = none
      rw [Function.update_of_ne hne]
      exact (h.fresh o ho).1
    · rw [(hother b o hne).1, (hother b o hne).2]
      exact (h.fresh o ho).2 b
  · intro o f hf
    replace hf : Function.update w.marketplace.offers o₀ _ o = some f := hf
    by_cases heq : o = o₀
    · rw [heq, Function.update_self] at hf
      obtain rfl := Option.some.inj hf
      exact h.price o₀ offer hchecks.stored
    · rw [Function.update_of_ne heq] at hf
      exact h.price o f hf
  · intro o f hf
    replace hf : Function.update w.marketplace.offers o₀ _ o = some f := hf
    by_cases heq : o = o₀
    · subst heq
      rw [Function.update_self] at hf
      obtain rfl := Option.some.inj hf
      obtain ⟨hnonneg, hbought⟩ := h.filled o offer hchecks.stored
      have hpos := hchecks.available.1
      refine ⟨show 0 ≤ offer.filled + amount by omega, fun b => ?_⟩
      show bought ch (hist ++ [(w, tx)]) b o ≤ offer.filled + amount
      have hb := hbought b
      rw [bought_concat]
      -- `filled` grows by the amount, `bought` only for the buyer of this fill
      by_cases hbuyer : b₀ = b
      · subst hbuyer
        rw [(boughtIn_self hfill hchecks.stored).1]
        omega
      · rw [(boughtIn_of_ne hfill fun heq => hbuyer heq.1).1]
        omega
    · rw [Function.update_of_ne heq] at hf
      refine ⟨(h.filled o f hf).1, fun b => ?_⟩
      rw [(hother b o heq).1]
      exact (h.filled o f hf).2 b

theorem FillHistory.step {hist : List (World T × Tx ch)} (h : FillHistory ch hist w) (tx : Tx ch) :
    FillHistory ch (hist ++ [(w, tx)]) (apply ch w tx) := by
  cases hfill : fillOf ch w tx with
  | none => exact h.step_of_no_fill hfill
  | some f =>
      obtain ⟨hcall, offer, r, tokens, hchecks⟩ := fillOf_eq_some.mp hfill
      exact h.step_of_fill hcall hchecks

theorem fillHistory_run (ch : Chain T) (tokens : T) (ts : List (Tx ch)) :
    FillHistory ch (steps (apply ch) (genesis tokens) ts) (run (apply ch) (genesis tokens) ts) :=
  history_invariant (C := fun _ _ => True) (fillHistory_genesis tokens)
    (fun _ _ tx h _ => h.step tx) fun _ _ => trivial

/-- A step that is no partial fill keeps `NothingBought`: a whole fill closes its offer. -/
theorem FillHistory.nothingBought_step {hist : List (World T × Tx ch)} (h : FillHistory ch hist w)
    (hnothing : NothingBought ch hist w) (hwhole : ¬ PartialFill ch w tx) :
    NothingBought ch (hist ++ [(w, tx)]) (apply ch w tx) := by
  intro o f hf hactive
  cases hfill : fillOf ch w tx with
  | none =>
      have hsums := fun b o => sums_of_zero hist (boughtIn_of_none hfill b o)
      obtain ⟨-, hoffers⟩ := offers_of_no_fill hfill fun o ho => (h.fresh o ho).1
      rcases hoffers o f hf with ⟨hnew, hzero, -⟩ | ⟨g, hg, hfilled, -, hopen⟩
      · refine ⟨hzero, fun b => ?_⟩
        rw [(hsums b o).1, (hsums b o).2]
        exact (h.fresh o hnew).2 b
      · obtain ⟨hzero, hbought⟩ := hnothing o g hg (hopen hactive)
        refine ⟨hfilled.trans hzero, fun b => ?_⟩
        rw [(hsums b o).1, (hsums b o).2]
        exact hbought b
  | some fill =>
      obtain ⟨b₀, o₀, amount⟩ := fill
      obtain ⟨hcall, offer, r, tokens, hchecks⟩ := fillOf_eq_some.mp hfill
      rw [apply_of_ok (exec_buyCredits hcall hchecks)] at hf
      replace hf : Function.update w.marketplace.offers o₀
        (some (Marketplace.filledOffer offer amount)) o = some f := hf
      by_cases heq : o = o₀
      · rw [heq, Function.update_self] at hf
        obtain rfl := Option.some.inj hf
        -- the offer is filled, so it is not active
        have hall : offer.filled + amount ≥ offer.amount := by
          by_contra hlt
          exact hwhole ⟨b₀, o₀, amount, offer, r, tokens, hcall, hchecks, by omega⟩
        unfold Marketplace.filledOffer at hactive
        rw [if_pos hall] at hactive
        cases hactive
      · rw [Function.update_of_ne heq] at hf
        obtain ⟨hzero, hbought⟩ := hnothing o f hf hactive
        refine ⟨hzero, fun b => ?_⟩
        obtain ⟨hb, hp⟩ := sums_of_zero hist (boughtIn_of_ne (b := b) hfill fun h => heq h.2.symm)
        rw [hb, hp]
        exact hbought b

/-! ## The main theorem -/

/-- A token that moves exactly the requested amount or fails; `balance` reads its storage. -/
def ExactToken (ch : Chain T) (balance : T → Address → Address → ℤ) : Prop :=
  ∀ t t' currency fromAddr toAddr x, ch.tokenTransfer t currency fromAddr toAddr x = some t' →
    ∀ cur a, balance t' cur a = balance t cur a
      - (if cur = currency ∧ a = fromAddr then x else 0)
      + (if cur = currency ∧ a = toAddr then x else 0)

/-- If the transaction is an accepted fill: the buyer becomes the owner of the credit in the
wired registry, and the token has moved the payment of this fill to the seller. -/
def HandsOver (ch : Chain T) (balance : T → Address → Address → ℤ) (w : World T) (tx : Tx ch) :
    Prop :=
  ∀ b o amount, fillOf ch w tx = some (b, o, amount) →
    ∃ offer r, w.marketplace.offers o = some offer ∧ w.marketplace.creditRegistry = some r ∧
      ((apply ch w tx).registry r).owners offer.creditId = some b ∧
      ∀ cur a, balance (apply ch w tx).ledger.tokens cur a = balance w.ledger.tokens cur a
        - (if cur = offer.currency ∧ a = b then paidIn ch b o (w, tx) else 0)
        + (if cur = offer.currency ∧ a = offer.seller then paidIn ch b o (w, tx) else 0)

/-- If the transaction is an accepted fill: with it, the buyer has bought the whole amount
of the offer, and has paid the price of the whole amount. -/
def PaidInFull (ch : Chain T) (hist : List (World T × Tx ch)) (w : World T) (tx : Tx ch) : Prop :=
  ∀ b o amount offer, fillOf ch w tx = some (b, o, amount) →
    w.marketplace.offers o = some offer →
    bought ch (hist ++ [(w, tx)]) b o = offer.amount ∧
      paid ch (hist ++ [(w, tx)]) b o = offer.amount * offer.pricePerTonne / 1000

theorem handsOver_of_exactToken {balance : T → Address → Address → ℤ}
    (htoken : ExactToken ch balance) (w : World T) (tx : Tx ch) : HandsOver ch balance w tx := by
  intro b o amount hfill
  obtain ⟨hcall, offer, r, tokens, hchecks⟩ := fillOf_eq_some.mp hfill
  refine ⟨offer, r, hchecks.stored, hchecks.wired, ?_⟩
  rw [apply_of_ok (exec_buyCredits hcall hchecks), (boughtIn_self hfill hchecks.stored).2]
  constructor
  · unfold registry
    rw [Ledger.registry_writeRegistry_self, CreditRegistry.transferred_owners,
      Function.update_self]
  · exact htoken _ _ _ _ _ _ hchecks.paid

/-- The sums after a whole fill of an offer of which nothing was bought before. -/
theorem NothingBought.paidInFull {hist : List (World T × Tx ch)}
    (hmul : ∀ a b, ch.mulI128 a b = a * b) (h : FillHistory ch hist w)
    (hnothing : NothingBought ch hist w) (hwhole : ¬ PartialFill ch w tx) :
    PaidInFull ch hist w tx := by
  intro b o amount offer hfill hstored
  obtain ⟨hcall, offer', r, tokens, hchecks⟩ := fillOf_eq_some.mp hfill
  obtain rfl : offer' = offer := Option.some.inj (hchecks.stored.symm.trans hstored)
  obtain ⟨hzero, hbought⟩ := hnothing o offer' hstored hchecks.active
  have hall : amount = offer'.amount := by
    have hle := hchecks.available.2
    by_contra hne
    exact hwhole ⟨b, o, amount, offer', r, tokens, hcall, hchecks, by omega⟩
  obtain ⟨hb, hp⟩ := boughtIn_self hfill hstored
  rw [bought_concat, paid_concat, hb, hp, (hbought b).1, (hbought b).2, Int.zero_add, Int.zero_add]
  refine ⟨hall, ?_⟩
  have hprice := h.price o offer' hstored
  have hpos := hchecks.available.1
  unfold Marketplace.paymentAmount
  rw [hmul, ← hall, Int.tdiv_eq_ediv_of_nonneg (Int.mul_nonneg (by omega) (by omega))]

/-- **Delivery versus payment.**  Read `i128` as the integers and let the tokens move exactly
what they are asked for or fail.  In every run, each accepted fill hands the credit to its
buyer and moves its own payment to the seller; and at every fill of the run the buyer has, in
all, bought the whole amount of the offer and paid the price of the whole amount, if and only
if no transaction of the run is a partial fill. -/
theorem delivery_versus_payment (ch : Chain T) (hmul : ∀ a b, ch.mulI128 a b = a * b)
    (balance : T → Address → Address → ℤ) (htoken : ExactToken ch balance) (tokens : T)
    (ts : List (Tx ch)) :
    (∀ us tx vs, ts = us ++ tx :: vs →
        HandsOver ch balance (run (apply ch) (genesis tokens) us) tx) ∧
      ((∀ us tx vs, ts = us ++ tx :: vs →
          PaidInFull ch (steps (apply ch) (genesis tokens) us)
            (run (apply ch) (genesis tokens) us) tx) ↔
        Always (apply ch) (fun w tx => ¬ PartialFill ch w tx) (genesis tokens) ts) := by
  have hhist := fillHistory_run ch tokens
  refine ⟨fun us tx _ _ => handsOver_of_exactToken htoken _ tx, ?_, ?_⟩
  · -- after a partial fill, the buyer has bought less than the amount of the offer
    rintro hpaid ⟨w, tx⟩ hp ⟨b, o, amount, offer, r, t, hcall, hchecks, hpart⟩
    obtain ⟨us, vs, hts, rfl⟩ := (mem_steps_iff _ _ _ _).mp hp
    have hfill := fillOf_eq_some.mpr ⟨hcall, offer, r, t, hchecks⟩
    have hfull := (hpaid us tx vs hts b o amount offer hfill hchecks.stored).1
    have hle := ((hhist us).filled o offer hchecks.stored).2 b
    rw [bought_concat, (boughtIn_self hfill hchecks.stored).1] at hfull
    omega
  · intro hwhole us tx vs hts
    rw [hts, always_append, always_cons] at hwhole
    obtain ⟨hus, htx, -⟩ := hwhole
    have hnothing : FillHistory ch (steps (apply ch) (genesis tokens) us)
          (run (apply ch) (genesis tokens) us) ∧
        NothingBought ch (steps (apply ch) (genesis tokens) us)
          (run (apply ch) (genesis tokens) us) := by
      refine history_invariant (I := fun hist w => FillHistory ch hist w ∧ NothingBought ch hist w)
        ⟨fillHistory_genesis tokens, fun o f hf => by cases hf⟩ ?_ hus
      rintro hist w tx ⟨h, hn⟩ hw
      exact ⟨h.step tx, h.nothingBought_step hn hw⟩
    exact hnothing.2.paidInFull hmul hnothing.1 htx

/-- The token of the small deployment is exact. -/
theorem exactToken_sample : ExactToken Sample.chain fun t => t :=
  Sample.transfer_exact

/-- Account 3 buys the whole of the first offer. -/
theorem delivery_versus_payment_whole_fill :
    PaidInFull Sample.chain
      (steps (apply Sample.chain) Sample.start (Sample.setup ++ [Sample.offerOne]))
      (run (apply Sample.chain) Sample.start (Sample.setup ++ [Sample.offerOne]))
      (Sample.buyOne 1000) := by
  refine (delivery_versus_payment Sample.chain (fun _ _ => rfl) (fun t => t) exactToken_sample
    (fun _ _ => 1000000) (Sample.setup ++ [Sample.offerOne, Sample.buyOne 1000])).2.mpr ?_
    _ _ [] (by rw [List.append_assoc]; rfl)
  refine always_append.mpr ⟨always_of_forall_mem ?_ _, always_cons.mpr ⟨?_, always_cons.mpr
    ⟨?_, always_nil _ _⟩⟩⟩
  · simp [Sample.setup, Sample.tx, PartialFill]
  · rintro ⟨_, _, _, _, _, _, hcall, -⟩
    cases hcall
  · rintro ⟨_, _, _, offer, _, _, hcall, hchecks, hpart⟩
    cases hcall
    obtain rfl := Option.some.inj (hchecks.stored.symm.trans rfl)
    exact absurd hpart (by decide)

/-- Account 3 gets a credit offered for 10000 and has paid 3000, for 300 of 1000 tonnes. -/
theorem delivery_not_paid_in_full :
    ¬ ∀ (T : Type) (ch : Chain T), (∀ a b, ch.mulI128 a b = a * b) →
      ∀ balance : T → Address → Address → ℤ, ExactToken ch balance →
        ∀ (tokens : T) (us : List (Tx ch)) (tx : Tx ch) (b : Address) (o : ℕ) (amount : ℤ)
          (offer : Offer),
          fillOf ch (run (apply ch) (genesis tokens) us) tx = some (b, o, amount) →
          (run (apply ch) (genesis tokens) us).marketplace.offers o = some offer →
          paid ch (steps (apply ch) (genesis tokens) (us ++ [tx])) b o =
            offer.amount * offer.pricePerTonne / 1000 := by
  intro h
  have hpaid := h Sample.Balances Sample.chain (fun _ _ => rfl) (fun t => t) exactToken_sample
    (fun _ _ => 1000000) (Sample.setup ++ [Sample.offerOne]) (Sample.buyOne 300) (.account 3) 1
    300 _ rfl rfl
  exact absurd hpaid (by decide)

end World

end CarbonVeritas
