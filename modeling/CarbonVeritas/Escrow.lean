/-
# Escrow

A marketplace whose `init` names the registry `R` only, and the credits of `R` that it
holds.  `exec_escrowStep` says once what a transaction does to the stored offers and to
the owners in `R`: nothing to either, or it creates, fills or cancels one offer and moves
the credit of that offer.

* `escrow_invariant_iff` : the credit of every active offer is in escrow, and no credit is
  named by two of them, in every state of a run exactly if no fill of the run takes less
  than what is left of its offer;
* `deposit_safe_iff` : a deposited credit leaves escrow only through its own offer,
  whatever follows, exactly if no other active offer named it before the deposit.
-/
import CarbonVeritas.Offers

namespace CarbonVeritas

open Transition

namespace World

variable {T : Type} {ch : Chain T} {R : Address} {w w' : World T} {tx : Tx ch}

/-! ## Offers and escrow -/

/-- The registry `R` lists the marketplace as the owner of the credit `c`. -/
def InEscrow (ch : Chain T) (R : Address) (w : World T) (c : ℕ) : Prop :=
  (w.registry R).owners c = some (ch.address .marketplace)

/-- What a transaction that takes effect does to the offers and to the owners in `R`. -/
inductive EscrowStep (ch : Chain T) (R : Address) (w w' : World T) (tx : Tx ch) : Prop where
  | other (hcall : tx.call.trades = false)
      (hoffers : w'.marketplace.offers = w.marketplace.offers)
      (hcounter : w'.marketplace.offerCounter = w.marketplace.offerCounter)
      (hkeep : ∀ c, InEscrow ch R w c → InEscrow ch R w' c)
      (hledger : w'.ledger = w.ledger ∨ ∀ call, tx.call ≠ .marketplace call)
  | deposit {seller : Address} {c : ℕ} {price amount : ℤ} {currency : Address}
      {expiry : Option ℕ}
      (hcall : tx.call = .marketplace (.createOffer seller c price amount currency expiry))
      (hchecks : Marketplace.MayCreate ch tx.env w.marketplace w.ledger seller c price amount
        expiry R)
      (hoffers : w'.marketplace.offers = Function.update w.marketplace.offers
        (w.marketplace.offerCounter + 1) (some (Marketplace.newOffer tx.env
          (w.marketplace.offerCounter + 1) seller c price amount currency expiry)))
      (hcounter : w'.marketplace.offerCounter = w.marketplace.offerCounter + 1)
      (howners : (w'.registry R).owners =
        Function.update (w.registry R).owners c (some (ch.address .marketplace)))
  | fill {buyer : Address} {o : ℕ} {amount : ℤ} {offer : Offer} {tokens : T}
      (hcall : tx.call = .marketplace (.buyCredits buyer o amount))
      (hchecks : Marketplace.MayBuy ch tx.env w.marketplace w.ledger buyer o amount offer R
        tokens)
      (hoffers : w'.marketplace.offers = Function.update w.marketplace.offers o
        (some (Marketplace.filledOffer offer amount)))
      (hcounter : w'.marketplace.offerCounter = w.marketplace.offerCounter)
      (howners : (w'.registry R).owners =
        Function.update (w.registry R).owners offer.creditId (some buyer))
  | cancel {caller : Address} {o : ℕ} {offer : Offer}
      (hcall : tx.call = .marketplace (.cancelOffer caller o))
      (hchecks : Marketplace.MayCancel ch tx.env w.marketplace w.ledger caller o offer R)
      (hoffers : w'.marketplace.offers = Function.update w.marketplace.offers o
        (some { offer with status := .cancelled }))
      (hcounter : w'.marketplace.offerCounter = w.marketplace.offerCounter)
      (howners : (w'.registry R).owners =
        Function.update (w.registry R).owners offer.creditId (some offer.seller))

/-- Calls of other contracts leave the credits in escrow where they are. -/
theorem inEscrow_of_not_marketplace (hexec : exec ch w tx = .ok w')
    (hidx : (w.registry R).CreditsIndexed) (hcall : ∀ c, tx.call ≠ .marketplace c) {c : ℕ}
    (hc : InEscrow ch R w c) : InEscrow ch R w' c := by
  have hauth := tx.callEnv_not_authorised hcall
  have hboth : ((apply ch w tx).registry R).CreditsIndexed ∧
      ((apply ch w tx).registry R).owners c = some (ch.address .marketplace) := by
    refine apply_registry_rule
      (P := fun s => s.CreditsIndexed ∧ s.owners c = some (ch.address .marketplace)) ?_ ⟨hidx, hc⟩
    rintro s call s' ⟨hs, hown⟩ - hok
    exact ⟨hs.step hok, (CreditRegistry.exec_creditChange hok).owner_kept hs hown hauth⟩
  rw [apply_of_ok hexec] at hboth
  exact hboth.2

/-- **Inversion.**  While the marketplace can call no other registry than `R`. -/
theorem exec_escrowStep (hexec : exec ch w tx = .ok w')
    (hwired : WiredWithin ch R .marketplace w) (hidx : (w.registry R).CreditsIndexed) :
    EscrowStep ch R w w' tx := by
  cases exec_offerStep hexec with
  | other hcall hoffers hcounter hledger =>
      refine .other hcall hoffers hcounter (fun c hc => ?_) hledger
      rcases hledger with hsame | hcalls
      · unfold InEscrow registry
        rw [hsame]
        exact hc
      · exact inEscrow_of_not_marketplace hexec hidx hcalls hc
  | @deposit _ _ _ _ _ _ r hcall hchecks hoffers hcounter hledger =>
      obtain rfl : r = R := hwired r hchecks.wired hchecks.transferable.isRegistry
      refine .deposit hcall hchecks hoffers hcounter ?_
      unfold registry
      rw [hledger, Ledger.registry_writeRegistry_self, CreditRegistry.transferred_owners]
  | @fill _ _ _ _ r _ hcall hchecks hoffers hcounter hledger =>
      obtain rfl : r = R := hwired r hchecks.wired hchecks.transferable.isRegistry
      refine .fill hcall hchecks hoffers hcounter ?_
      unfold registry
      rw [hledger, Ledger.registry_writeRegistry_self, CreditRegistry.transferred_owners]
  | @cancel _ _ _ r hcall hchecks hoffers hcounter hledger =>
      obtain rfl : r = R := hwired r hchecks.wired hchecks.transferable.isRegistry
      refine .cancel hcall hchecks hoffers hcounter ?_
      unfold registry
      rw [hledger, Ledger.registry_writeRegistry_self, CreditRegistry.transferred_owners]

/-- A credit that is deposited was not in escrow. -/
theorem not_inEscrow_of_mayCreate {seller : Address} {c : ℕ} {price amount : ℤ}
    {expiry : Option ℕ} (h : Marketplace.MayCreate ch tx.env w.marketplace w.ledger seller c price
      amount expiry R) : ¬ InEscrow ch R w c := by
  intro hc
  have howner : (w.registry R).owners c = some seller := h.transferable.owner
  obtain rfl : seller = ch.address .marketplace := Option.some.inj (howner.symm.trans hc)
  exact seller_external h (ch.deployed_address _)

/-! ## What holds in every run -/

/-- The facts that every run keeps while the marketplace is wired to `R` only. -/
structure OnRegistry (ch : Chain T) (R : Address) (w : World T) : Prop where
  indexed : (w.registry R).CreditsIndexed
  wired : WiredWithin ch R .marketplace w
  fresh : ∀ o, w.marketplace.offerCounter < o → w.marketplace.offers o = none
  external : ∀ o offer, w.marketplace.offers o = some offer → ¬ ch.Deployed offer.seller

theorem onRegistry_genesis (ch : Chain T) (R : Address) (tokens : T) :
    OnRegistry ch R (genesis tokens) where
  indexed := indexed_genesis R tokens
  wired := wiredWithin_genesis R .marketplace tokens
  fresh := fun _ _ => rfl
  external := fun _ _ h => by cases h

/-- The id of a stored offer is not above the counter. -/
theorem OnRegistry.le_counter (h : OnRegistry ch R w) {o : ℕ} {offer : Offer}
    (ho : w.marketplace.offers o = some offer) : o ≤ w.marketplace.offerCounter := by
  refine Nat.not_lt.mp fun hlt => ?_
  rw [h.fresh o hlt] at ho
  cases ho

/-- Rewriting a stored offer keeps the ids and the sellers. -/
theorem OnRegistry.rewrite (h : OnRegistry ch R w) {o : ℕ} {offer offer' : Offer}
    (ho : w.marketplace.offers o = some offer) (hseller : offer'.seller = offer.seller)
    (hoffers : w'.marketplace.offers = Function.update w.marketplace.offers o (some offer'))
    (hcounter : w'.marketplace.offerCounter = w.marketplace.offerCounter)
    (hindexed : (w'.registry R).CreditsIndexed) (hwired : WiredWithin ch R .marketplace w') :
    OnRegistry ch R w' := by
  refine ⟨hindexed, hwired, fun i hi => ?_, fun i f hf => ?_⟩
  · rw [hcounter] at hi
    have hne : i ≠ o := by
      have := h.le_counter ho
      omega
    rw [hoffers, Function.update_of_ne hne]
    exact h.fresh i hi
  · rw [hoffers] at hf
    by_cases hi : i = o
    · rw [hi, Function.update_self] at hf
      obtain rfl : offer' = f := Option.some.inj hf
      rw [hseller]
      exact h.external o offer ho
    · rw [Function.update_of_ne hi] at hf
      exact h.external i f hf

theorem OnRegistry.apply (h : OnRegistry ch R w) (htx : InitsOn R .marketplace w tx) :
    OnRegistry ch R (apply ch w tx) := by
  by_cases hsucc : Succeeds ch w tx
  · have hindexed : ((World.apply ch w tx).registry R).CreditsIndexed := indexed_apply h.indexed
    have hwired : WiredWithin ch R .marketplace (World.apply ch w tx) := h.wired.apply htx
    cases exec_escrowStep hsucc.exec_eq h.wired h.indexed with
    | other _ hoffers hcounter _ =>
        refine ⟨hindexed, hwired, ?_, ?_⟩
        · rw [hoffers, hcounter]
          exact h.fresh
        · rw [hoffers]
          exact h.external
    | deposit _ hchecks hoffers hcounter _ =>
        -- the new offer takes the next id, and its seller signed the transaction
        refine ⟨hindexed, hwired, fun o ho => ?_, fun o f hf => ?_⟩
        · rw [hcounter] at ho
          rw [hoffers, Function.update_of_ne (by omega)]
          exact h.fresh o (by omega)
        · rw [hoffers] at hf
          by_cases ho : o = w.marketplace.offerCounter + 1
          · rw [ho, Function.update_self] at hf
            obtain rfl := Option.some.inj hf
            exact seller_external hchecks
          · rw [Function.update_of_ne ho] at hf
            exact h.external o f hf
    | fill _ hchecks hoffers hcounter _ =>
        refine h.rewrite hchecks.stored ?_ hoffers hcounter hindexed hwired
        rfl
    | cancel _ hchecks hoffers hcounter _ =>
        refine h.rewrite hchecks.stored ?_ hoffers hcounter hindexed hwired
        rfl
  · rw [apply_of_not_succeeds hsucc]
    exact h

/-! ## The escrow invariant -/

/-- Every active offer has its credit in escrow, and has it for itself. -/
structure EscrowInvariant (ch : Chain T) (R : Address) (w : World T) : Prop where
  held : ∀ o c, ActiveOffer w o c → InEscrow ch R w c
  unique : ∀ o o' c, ActiveOffer w o c → ActiveOffer w o' c → o = o'

/-- Closing an offer and moving its credit keeps the invariant. -/
theorem EscrowInvariant.close (h : EscrowInvariant ch R w) {o₀ c₀ : ℕ} {offer : Offer}
    {owner : Address} (hold : ActiveOffer w o₀ c₀) (hclosed : offer.status ≠ .active)
    (hoffers : w'.marketplace.offers = Function.update w.marketplace.offers o₀ (some offer))
    (howners : (w'.registry R).owners = Function.update (w.registry R).owners c₀ (some owner)) :
    EscrowInvariant ch R w' := by
  have hother : ∀ {o c}, ActiveOffer w' o c → ActiveOffer w o c ∧ o ≠ o₀ := by
    intro o c ho
    have hne : o ≠ o₀ := by
      rintro rfl
      exact hclosed ((activeOffer_update_self hoffers).mp ho).1
    exact ⟨(activeOffer_update_ne hoffers hne).mp ho, hne⟩
  constructor
  · intro o c ho
    obtain ⟨ho, hne⟩ := hother ho
    have hc : c ≠ c₀ := by
      rintro rfl
      exact hne (h.unique o o₀ c ho hold)
    unfold InEscrow
    rw [howners, Function.update_of_ne hc]
    exact h.held o c ho
  · intro o o' c ho ho'
    exact h.unique o o' c (hother ho).1 (hother ho').1

/-- Offering a credit that was not in escrow, and depositing it, keeps the invariant. -/
theorem EscrowInvariant.deposit (h : EscrowInvariant ch R w) {o₀ c₀ : ℕ} {offer : Offer}
    (hfree : ¬ InEscrow ch R w c₀) (hcredit : offer.creditId = c₀)
    (hoffers : w'.marketplace.offers = Function.update w.marketplace.offers o₀ (some offer))
    (howners : (w'.registry R).owners =
      Function.update (w.registry R).owners c₀ (some (ch.address .marketplace))) :
    EscrowInvariant ch R w' := by
  -- the new offer is the only one that names the deposited credit
  have hnew : ∀ {o c}, ActiveOffer w' o c → o = o₀ ∧ c = c₀ ∨ ActiveOffer w o c ∧ c ≠ c₀ := by
    intro o c ho
    by_cases heq : o = o₀
    · subst heq
      exact Or.inl ⟨rfl, ((activeOffer_update_self hoffers).mp ho).2.symm.trans hcredit⟩
    · rw [activeOffer_update_ne hoffers heq] at ho
      refine Or.inr ⟨ho, ?_⟩
      rintro rfl
      exact hfree (h.held o c ho)
  constructor
  · intro o c ho
    unfold InEscrow
    rw [howners]
    rcases hnew ho with ⟨-, rfl⟩ | ⟨ho, hc⟩
    · rw [Function.update_self]
    · rw [Function.update_of_ne hc]
      exact h.held o c ho
  · intro o o' c ho ho'
    rcases hnew ho with ⟨rfl, rfl⟩ | ⟨ho, hc⟩
    · rcases hnew ho' with ⟨rfl, -⟩ | ⟨-, hne⟩
      · rfl
      · exact absurd rfl hne
    · rcases hnew ho' with ⟨-, rfl⟩ | ⟨ho', -⟩
      · exact absurd rfl hc
      · exact h.unique o o' c ho ho'

/-- A fill that takes less than what is left breaks the invariant. -/
theorem PartialFill.breaks (h : PartialFill ch w tx) (hR : OnRegistry ch R w) :
    ¬ EscrowInvariant ch R (apply ch w tx) := by
  obtain ⟨buyer, o, amount, offer, r, tokens, hcall, hchecks, hpart⟩ := h
  obtain rfl : r = R := hR.wired r hchecks.wired hchecks.transferable.isRegistry
  intro hinv
  rw [apply_of_ok (exec_buyCredits hcall hchecks)] at hinv
  have hstatus : (Marketplace.filledOffer offer amount).status = .active := by
    unfold Marketplace.filledOffer
    rw [if_neg (by omega)]
    exact hchecks.active
  have hheld := hinv.held o offer.creditId
    ((activeOffer_update_self (w := w) rfl).mpr ⟨hstatus, rfl⟩)
  unfold InEscrow registry at hheld
  rw [Ledger.registry_writeRegistry_self, CreditRegistry.transferred_owners,
    Function.update_self] at hheld
  exact buyer_ne_marketplace hchecks (Option.some.inj hheld)

/-- A transaction keeps the invariant if and only if it is no partial fill. -/
theorem escrowInvariant_apply_iff (hR : OnRegistry ch R w) (h : EscrowInvariant ch R w) :
    EscrowInvariant ch R (apply ch w tx) ↔ ¬ PartialFill ch w tx := by
  constructor
  · exact fun hinv hpart => hpart.breaks hR hinv
  · intro hpart
    by_cases hsucc : Succeeds ch w tx
    · cases exec_escrowStep hsucc.exec_eq hR.wired hR.indexed with
      | other _ hoffers _ hkeep =>
          have hsame : ∀ o c, ActiveOffer (apply ch w tx) o c ↔ ActiveOffer w o c := by
            intro o c
            unfold ActiveOffer
            rw [hoffers]
          constructor
          · intro o c ho
            exact hkeep c (h.held o c ((hsame o c).mp ho))
          · intro o o' c ho ho'
            exact h.unique o o' c ((hsame o c).mp ho) ((hsame o' c).mp ho')
      | deposit _ hchecks hoffers _ howners =>
          exact h.deposit (not_inEscrow_of_mayCreate hchecks) (by rfl) hoffers howners
      | @fill buyer o amount offer tokens hcall hchecks hoffers _ howners =>
          have hold : ActiveOffer w o offer.creditId :=
            ⟨offer, hchecks.stored, hchecks.active, rfl⟩
          -- the fill takes all that is left, so it closes the offer
          have hwhole : offer.amount ≤ offer.filled + amount := by
            by_contra hlt
            exact hpart ⟨buyer, o, amount, offer, R, tokens, hcall, hchecks, by omega⟩
          have hclosed : (Marketplace.filledOffer offer amount).status ≠ .active := by
            unfold Marketplace.filledOffer
            rw [if_pos hwhole]
            simp
          exact h.close hold hclosed hoffers howners
      | @cancel _ o offer _ hchecks hoffers _ howners =>
          have hold : ActiveOffer w o offer.creditId :=
            ⟨offer, hchecks.stored, hchecks.active, rfl⟩
          exact h.close hold (by simp) hoffers howners
    · rw [apply_of_not_succeeds hsucc]
      exact h

/-- **Escrow invariant.**  In a run in which the marketplace is wired to the registry `R`
only, the credit of every active offer is in escrow and no two active offers name the same
credit throughout the run if and only if no transaction of the run is a partial fill. -/
theorem escrow_invariant_iff (ch : Chain T) (R : Address) (tokens : T) (ts : List (Tx ch))
    (hts : Always (apply ch) (InitsOn R .marketplace) (genesis tokens) ts) :
    Throughout (apply ch) (EscrowInvariant ch R) (genesis tokens) ts ↔
      Always (apply ch) (fun w tx => ¬ PartialFill ch w tx) (genesis tokens) ts := by
  refine throughout_iff_always (J := OnRegistry ch R) (fun w tx hR htx => hR.apply htx)
    (fun w tx hR _ h => escrowInvariant_apply_iff hR h) (onRegistry_genesis ch R tokens) ?_ hts
  constructor
  · rintro o c ⟨_, hnone, -⟩
    cases hnone
  · rintro o o' c ⟨_, hnone, -⟩
    cases hnone

theorem escrow_invariant_whole_fill :
    Throughout (apply Sample.chain) (EscrowInvariant Sample.chain Sample.registry) Sample.start
      (Sample.setup ++ [Sample.offerOne, Sample.buyOne 1000]) := by
  refine (escrow_invariant_iff Sample.chain Sample.registry (fun _ _ => 1000000) _
    (always_initsOn (by rfl) _)).mpr ?_
  refine always_append.mpr ⟨always_of_forall_mem ?_ _, always_cons.mpr ⟨?_, always_cons.mpr
    ⟨?_, always_nil _ _⟩⟩⟩
  · simp [Sample.setup, Sample.tx, PartialFill]
  · rintro ⟨_, _, _, _, _, _, hcall, -⟩
    cases hcall
  · rintro ⟨_, _, _, offer, _, _, hcall, hchecks, hpart⟩
    cases hcall
    obtain rfl := Option.some.inj (hchecks.stored.symm.trans rfl)
    exact absurd hpart (by decide)

/-- After a partial fill the offer is still active, and its credit belongs to the buyer. -/
theorem escrow_invariant_partial_fill :
    ¬ ∀ (T : Type) (ch : Chain T) (R : Address) (tokens : T) (ts : List (Tx ch)),
      Always (apply ch) (InitsOn R .marketplace) (genesis tokens) ts →
      Throughout (apply ch) (EscrowInvariant ch R) (genesis tokens) ts := by
  intro h
  have hinv := (h Sample.Balances Sample.chain Sample.registry (fun _ _ => 1000000)
    (Sample.setup ++ [Sample.offerOne, Sample.buyOne 300]) (always_initsOn (by rfl) _)).last
  have hheld := hinv.held 1 1 ⟨_, rfl, rfl, rfl⟩
  exact absurd (Option.some.inj hheld) (by decide)

/-! ## Cancellations -/

/-- What a cancellation needs: the offer `o` of `seller` is active, and so is its credit. -/
structure Recoverable (ch : Chain T) (R : Address) (w : World T) (seller : Address) (c o : ℕ) :
    Prop where
  wired : w.marketplace.creditRegistry = some R
  isRegistry : ch.isRegistry R = true
  offer : ∃ offer, w.marketplace.offers o = some offer ∧ offer.status = .active ∧
    offer.creditId = c ∧ offer.seller = seller
  credit : ∃ credit, (w.registry R).credits c = some credit ∧ credit.status = .active

/-- The seller, and after the expiry anyone, can take the credit out of escrow. -/
theorem Recoverable.cancel {seller : Address} {c o : ℕ} (h : Recoverable ch R w seller c o)
    (hc : InEscrow ch R w c) {offer : Offer} (ho : w.marketplace.offers o = some offer)
    {caller : Address} (hcall : tx.call = .marketplace (.cancelOffer caller o))
    (hsigned : caller ∈ tx.signers)
    (hallowed : caller = seller ∨ ∃ e ∈ offer.expiry, e < tx.timestamp) :
    Succeeds ch w tx ∧ ((apply ch w tx).registry R).owners c = some seller := by
  obtain ⟨f, hf, hactive, rfl, rfl⟩ := h.offer
  obtain rfl : f = offer := Option.some.inj (hf.symm.trans ho)
  have hchecks : Marketplace.MayCancel ch tx.env w.marketplace w.ledger caller o f R :=
    { authorised := tx.env_authorised.mpr hsigned
      stored := ho
      allowed := hallowed.imp_left Eq.symm
      active := hactive
      wired := h.wired
      transferable :=
        { isRegistry := h.isRegistry
          authorised := Env.calledBy_authorised_self _ _
          owner := hc
          active := h.credit } }
  have hexec := exec_cancelOffer hcall hchecks
  refine ⟨⟨_, hexec⟩, ?_⟩
  rw [apply_of_ok hexec]
  unfold registry
  rw [Ledger.registry_writeRegistry_self, CreditRegistry.transferred_owners, Function.update_self]

/-! ## Deposits -/

/-- The transaction is an accepted `create_offer` of `seller` for the credit `c`, and
returns `o`. -/
def Deposit (ch : Chain T) (w : World T) (tx : Tx ch) (seller : Address) (c o : ℕ) : Prop :=
  ∃ price amount currency expiry m l,
    tx.call = .marketplace (.createOffer seller c price amount currency expiry) ∧
    Marketplace.createOffer ch tx.env w.marketplace w.ledger seller c price amount currency expiry
      = .ok (o, m, l)

/-- The transaction hands the credit `c` over in a call on the offer `o`: back to `seller`,
or to a buyer who has paid `seller` for it. -/
inductive ReleasedBy (ch : Chain T) (R : Address) (w : World T) (tx : Tx ch) (seller : Address)
    (c o : ℕ) : Prop where
  | returned {caller : Address} (hcall : tx.call = .marketplace (.cancelOffer caller o))
      (howner : ((apply ch w tx).registry R).owners c = some seller)
  | sold {buyer : Address} {amount : ℤ} {offer : Offer}
      (hcall : tx.call = .marketplace (.buyCredits buyer o amount))
      (hoffer : w.marketplace.offers o = some offer)
      (hpaid : ch.tokenTransfer w.ledger.tokens offer.currency buyer seller
        (Marketplace.paymentAmount ch amount offer.pricePerTonne)
          = some (apply ch w tx).ledger.tokens)
      (howner : ((apply ch w tx).registry R).owners c = some buyer)

/-- The transaction is an accepted call on the offer `o`, which names the credit `c`. -/
def CallsOffer (ch : Chain T) (w : World T) (tx : Tx ch) (o c : ℕ) : Prop :=
  Succeeds ch w tx ∧ tx.call.tradedOffer = some o ∧
    ∃ offer, w.marketplace.offers o = some offer ∧ offer.creditId = c

theorem CallsOffer.traded {o o' c : ℕ} {offer : Offer} (h : CallsOffer ch w tx o c)
    (hcall : tx.call.tradedOffer = some o') (hstored : w.marketplace.offers o' = some offer) :
    o = o' ∧ offer.creditId = c := by
  obtain ⟨-, htraded, f, hf, hfc⟩ := h
  obtain rfl : o = o' := Option.some.inj (htraded.symm.trans hcall)
  obtain rfl : offer = f := Option.some.inj (hstored.symm.trans hf)
  exact ⟨rfl, hfc⟩

/-- Whatever follows the state `w`: as long as the credit `c` has not left escrow, it leaves
only by the offer `o` and no call on another offer for it is accepted. -/
def SafeDeposit (ch : Chain T) (R : Address) (w : World T) (seller : Address) (c o : ℕ) : Prop :=
  ∀ (us : List (Tx ch)) (tx : Tx ch),
    Always (apply ch) (InitsOn R .marketplace) w (us ++ [tx]) →
    Throughout (apply ch) (fun w => InEscrow ch R w c) w us →
    (¬ InEscrow ch R (apply ch (run (apply ch) w us) tx) c →
      ReleasedBy ch R (run (apply ch) w us) tx seller c o) ∧
    ∀ o', CallsOffer ch (run (apply ch) w us) tx o' c → o' = o

/-- While the credit is in escrow: the offer of the deposit is the only one for it that can
be active. -/
structure OwnOffer (ch : Chain T) (R : Address) (seller : Address) (c o : ℕ) (w : World T) :
    Prop where
  onRegistry : OnRegistry ch R w
  stored : ∃ offer, w.marketplace.offers o = some offer ∧ offer.seller = seller ∧
    offer.creditId = c
  only : ∀ o', ActiveOffer w o' c → o' = o

/-- Rewriting one offer without reactivating it keeps `OwnOffer`. -/
theorem OwnOffer.rewrite {seller : Address} {c o o₀ : ℕ} (h : OwnOffer ch R seller c o w)
    (hR : OnRegistry ch R w') {offer offer' : Offer} (hold : w.marketplace.offers o₀ = some offer)
    (hactive : offer.status = .active) (hseller : offer'.seller = offer.seller)
    (hcredit : offer'.creditId = offer.creditId)
    (hoffers : w'.marketplace.offers = Function.update w.marketplace.offers o₀ (some offer')) :
    OwnOffer ch R seller c o w' := by
  refine ⟨hR, ?_, fun o' ho' => h.only o' ?_⟩
  · obtain ⟨f, hf, hfseller, hfc⟩ := h.stored
    rw [hoffers]
    by_cases ho : o = o₀
    · subst ho
      obtain rfl : offer = f := Option.some.inj (hold.symm.trans hf)
      exact ⟨offer', by rw [Function.update_self], hseller.trans hfseller, hcredit.trans hfc⟩
    · exact ⟨f, by rw [Function.update_of_ne ho, hf], hfseller, hfc⟩
  · by_cases heq : o' = o₀
    · subst heq
      obtain ⟨-, hc⟩ := (activeOffer_update_self hoffers).mp ho'
      exact ⟨offer, hold, hactive, hcredit.symm.trans hc⟩
    · exact (activeOffer_update_ne hoffers heq).mp ho'

theorem OwnOffer.apply {seller : Address} {c o : ℕ} (h : OwnOffer ch R seller c o w)
    (hc : InEscrow ch R w c) (htx : InitsOn R .marketplace w tx) :
    OwnOffer ch R seller c o (apply ch w tx) := by
  have hR := h.onRegistry.apply htx
  by_cases hsucc : Succeeds ch w tx
  · cases exec_escrowStep hsucc.exec_eq h.onRegistry.wired h.onRegistry.indexed with
    | other _ hoffers _ _ =>
        refine ⟨hR, ?_, ?_⟩
        · rw [hoffers]
          exact h.stored
        · intro o' ho'
          unfold ActiveOffer at ho'
          rw [hoffers] at ho'
          exact h.only o' ho'
    | @deposit _ c₀ _ _ _ _ _ hchecks hoffers _ _ =>
        -- a credit in escrow cannot be offered again
        have hne : c₀ ≠ c := by
          rintro rfl
          exact not_inEscrow_of_mayCreate hchecks hc
        obtain ⟨offer, ho, hseller, hcredit⟩ := h.stored
        have hle := h.onRegistry.le_counter ho
        refine ⟨hR, ⟨offer, ?_, hseller, hcredit⟩, fun o' ho' => ?_⟩
        · rw [hoffers, Function.update_of_ne (by omega), ho]
        · by_cases heq : o' = w.marketplace.offerCounter + 1
          · subst heq
            exact absurd ((activeOffer_update_self hoffers).mp ho').2 hne
          · exact h.only o' ((activeOffer_update_ne hoffers heq).mp ho')
    | fill _ hchecks hoffers _ _ =>
        exact h.rewrite hR hchecks.stored hchecks.active (by rfl) (by rfl) hoffers
    | cancel _ hchecks hoffers _ _ =>
        exact h.rewrite hR hchecks.stored hchecks.active (by rfl) (by rfl) hoffers
  · rw [apply_of_not_succeeds hsucc]
    exact h

/-- With `OwnOffer`, the credit can leave escrow through its own offer only. -/
theorem OwnOffer.released {seller : Address} {c o : ℕ} (h : OwnOffer ch R seller c o w)
    (hc : InEscrow ch R w c) :
    (¬ InEscrow ch R (World.apply ch w tx) c → ReleasedBy ch R w tx seller c o) ∧
      ∀ o', CallsOffer ch w tx o' c → o' = o := by
  obtain ⟨f, hf, rfl, hfc⟩ := h.stored
  -- a transfer of another credit leaves `c` in escrow
  have hstay : ∀ {c₀ : ℕ} {owner : Address}, c ≠ c₀ → ((World.apply ch w tx).registry R).owners =
      Function.update (w.registry R).owners c₀ (some owner) →
      InEscrow ch R (World.apply ch w tx) c := by
    intro c₀ owner hne howners
    unfold InEscrow
    rw [howners, Function.update_of_ne hne]
    exact hc
  by_cases hsucc : Succeeds ch w tx
  · cases exec_escrowStep hsucc.exec_eq h.onRegistry.wired h.onRegistry.indexed with
    | other hcall _ _ hkeep =>
        refine ⟨fun hout => absurd (hkeep c hc) hout, ?_⟩
        rintro o' ⟨-, htraded, -⟩
        rw [Call.tradedOffer_eq_none hcall] at htraded
        cases htraded
    | @deposit _ c₀ _ _ _ _ hcall hchecks _ _ howners =>
        have hne : c ≠ c₀ := by
          rintro rfl
          exact not_inEscrow_of_mayCreate hchecks hc
        refine ⟨fun hout => absurd (hstay hne howners) hout, ?_⟩
        rintro o' ⟨-, htraded, -⟩
        rw [hcall] at htraded
        cases htraded
    | @fill buyer o₀ amount offer tokens hcall hchecks _ _ howners =>
        have htrade : ∀ o', CallsOffer ch w tx o' c → o' = o₀ ∧ offer.creditId = c :=
          fun o' ho' => ho'.traded (by rw [hcall]; rfl) hchecks.stored
        by_cases hcredit : offer.creditId = c
        · -- the only active offer that names `c` is the offer of the deposit
          obtain rfl := h.only o₀ ⟨offer, hchecks.stored, hchecks.active, hcredit⟩
          obtain rfl : offer = f := Option.some.inj (hchecks.stored.symm.trans hf)
          refine ⟨fun _ => .sold hcall hf ?_ ?_, fun o' ho' => (htrade o' ho').1⟩
          · rw [apply_of_ok (exec_buyCredits hcall hchecks)]
            exact hchecks.paid
          · rw [howners, hcredit, Function.update_self]
        · exact ⟨fun hout => absurd (hstay (Ne.symm hcredit) howners) hout,
            fun o' ho' => absurd (htrade o' ho').2 hcredit⟩
    | @cancel caller o₀ offer hcall hchecks _ _ howners =>
        have htrade : ∀ o', CallsOffer ch w tx o' c → o' = o₀ ∧ offer.creditId = c :=
          fun o' ho' => ho'.traded (by rw [hcall]; rfl) hchecks.stored
        by_cases hcredit : offer.creditId = c
        · -- as for a fill; the credit goes back to the seller of that offer
          obtain rfl := h.only o₀ ⟨offer, hchecks.stored, hchecks.active, hcredit⟩
          obtain rfl : offer = f := Option.some.inj (hchecks.stored.symm.trans hf)
          refine ⟨fun _ => .returned hcall ?_, fun o' ho' => (htrade o' ho').1⟩
          rw [howners, hcredit, Function.update_self]
        · exact ⟨fun hout => absurd (hstay (Ne.symm hcredit) howners) hout,
            fun o' ho' => absurd (htrade o' ho').2 hcredit⟩
  · rw [apply_of_not_succeeds hsucc]
    exact ⟨fun hout => absurd hc hout, fun o' ho' => absurd ho'.1 hsucc⟩

/-- The state after a deposit: the credit is in escrow, the new offer can be cancelled, and the
other offers are as before. -/
theorem Deposit.after {seller : Address} {c o : ℕ} (h : Deposit ch w tx seller c o)
    (hR : OnRegistry ch R w) :
    InEscrow ch R (apply ch w tx) c ∧ w.marketplace.offers o = none ∧
      Recoverable ch R (apply ch w tx) seller c o ∧
      ∃ offer, (apply ch w tx).marketplace.offers =
        Function.update w.marketplace.offers o (some offer) := by
  obtain ⟨price, amount, currency, expiry, m, l, hcall, hok⟩ := h
  rw [apply_of_ok (exec_createOffer hcall hok)]
  obtain ⟨r, hchecks, rfl, rfl, rfl⟩ := Marketplace.createOffer_eq_ok.mp hok
  obtain rfl : r = R := hR.wired r hchecks.wired hchecks.transferable.isRegistry
  refine ⟨?_, hR.fresh _ (Nat.lt_succ_self _),
    ⟨hchecks.wired, hchecks.transferable.isRegistry, ⟨_, Function.update_self _ _ _, ?_⟩, ?_⟩,
    _, rfl⟩
  · unfold InEscrow registry
    rw [Ledger.registry_writeRegistry_self, CreditRegistry.transferred_owners,
      Function.update_self]
  · exact ⟨rfl, rfl, rfl⟩
  · unfold registry
    rw [Ledger.registry_writeRegistry_self, CreditRegistry.transferred_credits]
    exact hchecks.transferable.active

/-- The transaction in which `seller`, an account from outside, cancels the offer `o` in the
ledger of `tx`. -/
def cancelBy (tx : Tx ch) (seller : Address) (hseller : ¬ ch.Deployed seller) (o : ℕ) :
    Tx ch where
  signers := [seller]
  external := by
    intro a ha
    rw [List.mem_singleton.mp ha]
    exact hseller
  timestamp := tx.timestamp
  sequence := tx.sequence
  call := .marketplace (.cancelOffer seller o)

/-- After a safe deposit no other offer is active for its credit: the seller of that offer
could cancel it next. -/
theorem SafeDeposit.only {seller : Address} {c o : ℕ} (h : SafeDeposit ch R w seller c o)
    (hR : OnRegistry ch R w) (hc : InEscrow ch R w c) (hrec : Recoverable ch R w seller c o)
    (tx : Tx ch) {o' : ℕ} (ho' : ActiveOffer w o' c) : o' = o := by
  obtain ⟨offer, hstored, hactive, hcredit⟩ := ho'
  let tx' := cancelBy tx offer.seller (hR.external o' offer hstored) o'
  have hinits : Always (apply ch) (InitsOn R .marketplace) w ([] ++ [tx']) := by
    refine always_of_forall_mem (fun t ht _ _ a r hargs => ?_) w
    obtain rfl := List.mem_singleton.mp ht
    cases hargs
  have hesc : Throughout (apply ch) (fun w => InEscrow ch R w c) w [] := by
    intro us hus
    rw [List.prefix_nil.mp hus]
    exact hc
  have hrec' : Recoverable ch R w offer.seller c o' :=
    { wired := hrec.wired
      isRegistry := hrec.isRegistry
      offer := ⟨offer, hstored, hactive, hcredit, rfl⟩
      credit := hrec.credit }
  have hcancel : Succeeds ch w tx' :=
    (hrec'.cancel hc hstored rfl (List.mem_singleton.mpr rfl) (Or.inl rfl)).1
  exact (h [] tx' hinits hesc).2 o' ⟨hcancel, rfl, offer, hstored, hcredit⟩

/-- A deposit whose offer is the only active one for its credit is safe. -/
theorem OwnOffer.safeDeposit {seller : Address} {c o : ℕ} (h : OwnOffer ch R seller c o w) :
    SafeDeposit ch R w seller c o := by
  intro us tx hinits hesc
  have hrun : OwnOffer ch R seller c o (run (World.apply ch) w us) :=
    run_invariant (fun w tx hw hstep => hw.apply hstep.1 hstep.2) h
      (hesc.always.and (always_append.mp hinits).1)
  exact hrun.released hesc.last

/-- **Safety of a deposit.**  Let the marketplace be wired to the registry `R` only, and let
`seller` deposit the credit `c` in the state that a run has reached.  Then, whatever follows,
the credit leaves escrow only by its own offer, back to `seller` or to a buyer who pays
`seller`, and no call on another offer for it is accepted, if and only if no active offer
named the credit before the deposit. -/
theorem deposit_safe_iff (ch : Chain T) (R : Address) (tokens : T) (ts : List (Tx ch))
    (hts : Always (apply ch) (InitsOn R .marketplace) (genesis tokens) ts)
    (tx : Tx ch) (seller : Address) (c o : ℕ)
    (hdeposit : Deposit ch (run (apply ch) (genesis tokens) ts) tx seller c o) :
    SafeDeposit ch R (apply ch (run (apply ch) (genesis tokens) ts) tx) seller c o ↔
      ∀ o', ¬ ActiveOffer (run (apply ch) (genesis tokens) ts) o' c := by
  have hR : OnRegistry ch R (run (apply ch) (genesis tokens) ts) :=
    run_invariant (fun w tx hw htx => hw.apply htx) (onRegistry_genesis ch R tokens) hts
  generalize run (apply ch) (genesis tokens) ts = w at hdeposit hR ⊢
  obtain ⟨hin, hnone, hrec, offer, hoffers⟩ := hdeposit.after hR
  have htx : InitsOn R .marketplace w tx := by
    obtain ⟨_, _, _, _, _, _, hcall, -⟩ := hdeposit
    intro _ a r hargs
    rw [hcall] at hargs
    cases hargs
  have hR' := hR.apply htx
  constructor
  · rintro hsafe o' ho'
    have hne : o' ≠ o := by
      rintro rfl
      obtain ⟨_, hstored, -⟩ := ho'
      rw [hnone] at hstored
      cases hstored
    exact hne (hsafe.only hR' hin hrec tx ((activeOffer_update_ne hoffers hne).mpr ho'))
  · intro hfree
    obtain ⟨offer', hstored, -, hcredit, hseller⟩ := hrec.offer
    have hown : OwnOffer ch R seller c o (apply ch w tx) := by
      refine ⟨hR', ⟨offer', hstored, hseller, hcredit⟩, fun o' ho' => ?_⟩
      by_contra hne
      exact hfree o' ((activeOffer_update_ne hoffers hne).mp ho')
    exact hown.safeDeposit

theorem deposit_safe_first_offer :
    SafeDeposit Sample.chain Sample.registry
      (apply Sample.chain (run (apply Sample.chain) Sample.start Sample.setup) Sample.offerOne)
      (.account 2) 1 1 := by
  refine (deposit_safe_iff Sample.chain Sample.registry (fun _ _ => 1000000) Sample.setup
    (always_initsOn (by rfl) _) Sample.offerOne (.account 2) 1 1
    ⟨10000, 1000, Sample.currency, none, _, _, rfl, rfl⟩).mpr ?_
  rintro o' ⟨offer, hoffer, -⟩
  have hnone : (run (apply Sample.chain) Sample.start Sample.setup).marketplace.offers o' = none :=
    rfl
  rw [Sample.start] at hnone
  rw [hnone] at hoffer
  cases hoffer

/-- Account 3 has bought 300 tonnes of offer 1, which gave it the whole credit, and offers
that credit again; account 2 cancels offer 1 and gets the credit back. -/
theorem deposit_not_safe :
    ¬ ∀ (T : Type) (ch : Chain T) (R : Address) (tokens : T) (ts : List (Tx ch)),
      Always (apply ch) (InitsOn R .marketplace) (genesis tokens) ts →
      ∀ (tx : Tx ch) (seller : Address) (c o : ℕ),
        Deposit ch (run (apply ch) (genesis tokens) ts) tx seller c o →
        SafeDeposit ch R (apply ch (run (apply ch) (genesis tokens) ts) tx) seller c o := by
  intro h
  have hsafe := h Sample.Balances Sample.chain Sample.registry (fun _ _ => 1000000)
    (Sample.setup ++ [Sample.offerOne, Sample.buyOne 300]) (always_initsOn (by rfl) _)
    (Sample.tx 3 13 (.marketplace (.createOffer (.account 3) 1 20000 1000 Sample.currency none)))
    (.account 3) 1 2 ⟨20000, 1000, Sample.currency, none, _, _, rfl, rfl⟩
  have hcalls := (hsafe [] (Sample.tx 2 14 (.marketplace (.cancelOffer (.account 2) 1)))
    (always_initsOn (by rfl) _) ?_).2 1 ⟨⟨_, rfl⟩, rfl, _, rfl, rfl⟩
  · exact absurd hcalls (by decide)
  · intro us hus
    rw [List.prefix_nil.mp hus]
    rfl

end World

end CarbonVeritas
