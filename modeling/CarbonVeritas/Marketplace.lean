/-
# The Marketplace contract

`contracts/marketplace`: the storage of the contract (`storage.rs`), its events
(`events.rs`) and its entry points (`lib.rs`).  An offer escrows one whole credit, and
the fills of the offer are counted in tonnes.

`createOffer_eq_ok`, `buyCredits_eq_ok` and `cancelOffer_eq_ok` say exactly when these
calls return and what they leave.
-/
import CarbonVeritas.Ledger

namespace CarbonVeritas

/-! ## Events and storage -/

/-- The events of `events.rs`, with their topics as the constructor. -/
inductive MarketplaceEvent where
  | offerCreated (offerId : ℕ) (seller : Address)
  | offerFilled (offerId : ℕ) (buyer : Address) (amount : ℤ)
  | offerCancelled (offerId : ℕ)
  deriving DecidableEq, Repr

/-- The instance storage of the marketplace, with the events it has published. -/
structure Marketplace where
  /-- `"adm"` -/
  admin : Option Address := none
  /-- `"cr"` -/
  creditRegistry : Option Address := none
  /-- the key `0` -/
  offerCounter : ℕ := 0
  /-- `("o", offer_id)` -/
  offers : ℕ → Option Offer := fun _ => none
  /-- `("s", seller)` -/
  sellerOffers : Address → List ℕ := fun _ => []
  /-- `"all"` -/
  allOffers : List ℕ := []
  events : List MarketplaceEvent := []

namespace Marketplace

/-! ### `storage.rs` -/

section Storage

variable (m : Marketplace)

@[simps -fullyApplied] def nextOfferId : ℕ × Marketplace :=
  (m.offerCounter + 1, { m with offerCounter := m.offerCounter + 1 })

@[simps -fullyApplied] def writeOffer (offerId : ℕ) (offer : Offer) : Marketplace :=
  { m with offers := Function.update m.offers offerId (some offer) }

def readOffer (offerId : ℕ) : Result Offer := orPanic (m.offers offerId) (.error .offerNotFound)

@[simps -fullyApplied] def addOfferToSeller (seller : Address) (offerId : ℕ) : Marketplace :=
  { m with
    sellerOffers := Function.update m.sellerOffers seller (m.sellerOffers seller ++ [offerId]) }

def readOffersBySeller (seller : Address) : List ℕ := m.sellerOffers seller

@[simps -fullyApplied] def addOfferToAll (offerId : ℕ) : Marketplace :=
  { m with allOffers := m.allOffers ++ [offerId] }

/-- The loop reads the offers of the entries at `offset..end` and keeps the active ones. -/
def readAllOffers (offset limit : ℕ) : Result (List Offer) := do
  let list := m.allOffers
  let pageLimit := min limit MAX_LISTINGS_PAGE
  let stop := min (u32SaturatingAdd offset pageLimit) list.length
  if list.length ≤ offset then
    return []
  else
    let offers ← ((list.take stop).drop offset).mapM m.readOffer
    return offers.filter fun offer => offer.status = .active

@[simps -fullyApplied] def writeCreditRegistry (addr : Address) : Marketplace :=
  { m with creditRegistry := some addr }

def readCreditRegistry : Result Address := orPanic m.creditRegistry .unwrap

@[simps -fullyApplied] def writeAdmin (admin : Address) : Marketplace :=
  { m with admin := some admin }

/-- `env.events().publish` -/
@[simps -fullyApplied] def emit (event : MarketplaceEvent) : Marketplace :=
  { m with events := m.events ++ [event] }

end Storage

/-! ### Entry points -/

variable {T : Type} (ch : Chain T) (env : Env) (m : Marketplace) (l : Ledger T)

def init (admin creditRegistry : Address) : Result (Unit × Marketplace) := do
  env.requireAuth admin
  let m := m.writeAdmin admin
  let m := m.writeCreditRegistry creditRegistry
  return ((), m)

def createOffer (seller : Address) (creditId : ℕ) (pricePerTonne amount : ℤ)
    (currency : Address) (expiry : Option ℕ) : Result (ℕ × Marketplace × Ledger T) := do
  env.requireAuth seller
  panicIf (amount ≤ 0 ∨ pricePerTonne ≤ 0) .invalidInput
  panicIf (∃ e ∈ expiry, e ≤ env.timestamp) .invalidInput
  let creditRegistry ← m.readCreditRegistry
  let (_, l) ← l.callRegistry ch creditRegistry fun s =>
    s.transferCredit (env.calledBy (ch.address .marketplace)) seller (ch.address .marketplace)
      creditId
  let offerId := m.nextOfferId.1
  let m := m.nextOfferId.2
  let offer : Offer :=
    { offerId := offerId, seller := seller, creditId := creditId,
      pricePerTonne := pricePerTonne, amount := amount, filled := 0, currency := currency,
      expiry := expiry, createdAt := env.timestamp, status := .active }
  let m := m.writeOffer offerId offer
  let m := m.addOfferToSeller seller offerId
  let m := m.addOfferToAll offerId
  let m := m.emit (.offerCreated offerId seller)
  return (offerId, m, l)

/-- `(amount * offer.price_per_tonne) / 1000`, which truncates. -/
def paymentAmount (amount pricePerTonne : ℤ) : ℤ := (ch.mulI128 amount pricePerTonne).tdiv 1000

def buyCredits (buyer : Address) (offerId : ℕ) (amount : ℤ) :
    Result (Bool × Marketplace × Ledger T) := do
  env.requireAuth buyer
  let offer ← m.readOffer offerId
  panicIf (offer.status ≠ .active) .offerAlreadyFilled
  -- the offer is first written as `Expired`, which the panic rolls back
  panicIf (∃ e ∈ offer.expiry, env.timestamp > e) .offerExpired
  let available := offer.amount - offer.filled
  panicIf (amount ≤ 0 ∨ amount > available) .insufficientAmount
  let l ← l.transferToken ch offer.currency buyer offer.seller
    (paymentAmount ch amount offer.pricePerTonne)
  let creditRegistry ← m.readCreditRegistry
  let (_, l) ← l.callRegistry ch creditRegistry fun s =>
    s.transferCredit (env.calledBy (ch.address .marketplace)) (ch.address .marketplace) buyer
      offer.creditId
  let filled ← orPanic (i128CheckedAdd offer.filled amount) (.error .invalidInput)
  let offer := { offer with filled := filled }
  let offer := if offer.filled ≥ offer.amount then { offer with status := .filled } else offer
  let m := m.writeOffer offerId offer
  let m := m.emit (.offerFilled offerId buyer amount)
  return (true, m, l)

def cancelOffer (caller : Address) (offerId : ℕ) : Result (Bool × Marketplace × Ledger T) := do
  env.requireAuth caller
  let offer ← m.readOffer offerId
  -- both inner branches: before the expiry, and without one
  panicIf (offer.seller ≠ caller ∧ ∀ e ∈ offer.expiry, env.timestamp ≤ e) .offerNotCancellable
  panicIf (offer.status ≠ .active) .offerAlreadyFilled
  let creditRegistry ← m.readCreditRegistry
  let (_, l) ← l.callRegistry ch creditRegistry fun s =>
    s.transferCredit (env.calledBy (ch.address .marketplace)) (ch.address .marketplace)
      offer.seller offer.creditId
  let m := m.writeOffer offerId { offer with status := .cancelled }
  let m := m.emit (.offerCancelled offerId)
  return (true, m, l)

/-- The three filters are arguments that the source does not read. -/
def getListings (_methodologyFilter _geographyFilter : Option SorobanString)
    (_maxPrice : Option ℤ) (offset limit : ℕ) : Result (List Offer) :=
  m.readAllOffers offset limit

def getOffer (offerId : ℕ) : Result Offer := m.readOffer offerId

def getOffersBySeller (seller : Address) : List ℕ := m.readOffersBySeller seller

/-! ### Calls -/

/-- The public entry points of the contract. -/
inductive Call where
  | init (admin creditRegistry : Address)
  | createOffer (seller : Address) (creditId : ℕ) (pricePerTonne amount : ℤ)
      (currency : Address) (expiry : Option ℕ)
  | buyCredits (buyer : Address) (offerId : ℕ) (amount : ℤ)
  | cancelOffer (caller : Address) (offerId : ℕ)
  | getListings (methodologyFilter geographyFilter : Option SorobanString)
      (maxPrice : Option ℤ) (offset limit : ℕ)
  | getOffer (offerId : ℕ)
  | getOffersBySeller (seller : Address)

/-- The storage after a call; what the call returns is dropped. -/
def exec : Call → Result (Marketplace × Ledger T)
  | .init admin creditRegistry =>
      (m.init env admin creditRegistry).map fun r => (r.2, l)
  | .createOffer seller creditId pricePerTonne amount currency expiry =>
      (createOffer ch env m l seller creditId pricePerTonne amount currency expiry).map Prod.snd
  | .buyCredits buyer offerId amount => (buyCredits ch env m l buyer offerId amount).map Prod.snd
  | .cancelOffer caller offerId => (cancelOffer ch env m l caller offerId).map Prod.snd
  | .getListings methodologyFilter geographyFilter maxPrice offset limit =>
      (m.getListings methodologyFilter geographyFilter maxPrice offset limit).map fun _ => (m, l)
  | .getOffer offerId => (m.getOffer offerId).map fun _ => (m, l)
  | .getOffersBySeller _ => .ok (m, l)

/-! ## What each entry point does -/

section Spec

variable {ch env m l} {m' : Marketplace} {l' : Ledger T}

theorem init_eq_ok {admin creditRegistry : Address} {u : Unit} :
    m.init env admin creditRegistry = .ok (u, m') ↔
      env.Authorised admin ∧ m' = (m.writeAdmin admin).writeCreditRegistry creditRegistry := by
  simp only [init, bind_eq_ok, Env.requireAuth_eq_ok, pure_eq_ok, Prod.mk.injEq, true_and,
    exists_and_left, exists_const]
  constructor
  · rintro ⟨hauth, rfl⟩
    exact ⟨hauth, rfl⟩
  · rintro ⟨hauth, rfl⟩
    exact ⟨hauth, rfl⟩

/-- The registry at `r` lets `fromAddr` hand over the credit `id` in a call of the
marketplace. -/
structure Transferable (ch : Chain T) (env : Env) (l : Ledger T) (r fromAddr : Address)
    (id : ℕ) : Prop where
  isRegistry : ch.isRegistry r = true
  authorised : (env.calledBy (ch.address .marketplace)).Authorised fromAddr
  owner : (l.registries r).owners id = some fromAddr
  active : ∃ credit, (l.registries r).credits id = some credit ∧ credit.status = .active

theorem callTransfer_eq_ok {r fromAddr toAddr : Address} {id : ℕ} {b : Bool} :
    l.callRegistry ch r (fun s =>
        s.transferCredit (env.calledBy (ch.address .marketplace)) fromAddr toAddr id)
        = .ok (b, l') ↔
      Transferable ch env l r fromAddr id ∧ b = true ∧
        l' = l.writeRegistry r ((l.registries r).transferred fromAddr toAddr id) := by
  simp only [Ledger.callRegistry_eq_ok, CreditRegistry.transferCredit_eq_ok]
  constructor
  · rintro ⟨hr, _, ⟨hauth, howner, hactive, rfl, rfl⟩, rfl⟩
    exact ⟨⟨hr, hauth, howner, hactive⟩, rfl, rfl⟩
  · rintro ⟨⟨hr, hauth, howner, hactive⟩, rfl, rfl⟩
    exact ⟨hr, _, ⟨hauth, howner, hactive, rfl, rfl⟩, rfl⟩

/-- The transfer is a call of the registry that returns. -/
theorem Transferable.exec_eq {r fromAddr : Address} {id : ℕ}
    (h : Transferable ch env l r fromAddr id) (toAddr : Address) :
    CreditRegistry.exec ch.sha256 (env.calledBy (ch.address .marketplace)) (l.registries r)
        (.transferCredit fromAddr toAddr id) =
      .ok ((l.registries r).transferred fromAddr toAddr id) := by
  have hcall : (l.registries r).transferCredit (env.calledBy (ch.address .marketplace)) fromAddr
      toAddr id = .ok (true, (l.registries r).transferred fromAddr toAddr id) :=
    CreditRegistry.transferCredit_eq_ok.mpr ⟨h.authorised, h.owner, h.active, rfl, rfl⟩
  rw [CreditRegistry.exec, hcall]
  rfl

/-- The offer that `create_offer` stores. -/
def newOffer (env : Env) (offerId : ℕ) (seller : Address) (creditId : ℕ)
    (pricePerTonne amount : ℤ) (currency : Address) (expiry : Option ℕ) : Offer where
  offerId := offerId
  seller := seller
  creditId := creditId
  pricePerTonne := pricePerTonne
  amount := amount
  filled := 0
  currency := currency
  expiry := expiry
  createdAt := env.timestamp
  status := .active

/-- The checks of `create_offer`. -/
structure MayCreate (ch : Chain T) (env : Env) (m : Marketplace) (l : Ledger T)
    (seller : Address) (creditId : ℕ) (pricePerTonne amount : ℤ) (expiry : Option ℕ)
    (r : Address) : Prop where
  authorised : env.Authorised seller
  positive : 0 < amount ∧ 0 < pricePerTonne
  expiry : ∀ e ∈ expiry, env.timestamp < e
  wired : m.creditRegistry = some r
  transferable : Transferable ch env l r seller creditId

theorem createOffer_eq_ok {seller : Address} {creditId : ℕ} {pricePerTonne amount : ℤ}
    {currency : Address} {expiry : Option ℕ} {o : ℕ} :
    createOffer ch env m l seller creditId pricePerTonne amount currency expiry
        = .ok (o, m', l') ↔
      ∃ r, MayCreate ch env m l seller creditId pricePerTonne amount expiry r ∧
        o = m.offerCounter + 1 ∧
        m' = (((m.nextOfferId.2.writeOffer (m.offerCounter + 1)
              (newOffer env (m.offerCounter + 1) seller creditId pricePerTonne amount currency
                expiry)).addOfferToSeller seller (m.offerCounter + 1)).addOfferToAll
              (m.offerCounter + 1)).emit (.offerCreated (m.offerCounter + 1) seller) ∧
        l' = l.writeRegistry r
          ((l.registries r).transferred seller (ch.address .marketplace) creditId) := by
  simp only [createOffer, readCreditRegistry, bind_eq_ok, Env.requireAuth_eq_ok, panicIf_eq_ok,
    orPanic_eq_ok, pure_eq_ok, Prod.exists, callTransfer_eq_ok, Prod.mk.injEq, nextOfferId_fst]
  constructor
  · rintro ⟨-, hauth, -, hpos, -, hexpiry, r, hwired, _, _, ⟨htransfer, rfl, rfl⟩, rfl, rfl, rfl⟩
    refine ⟨r, ⟨hauth, by omega, ?_, hwired, htransfer⟩, rfl, rfl, rfl⟩
    intro e he
    exact Nat.not_le.mp fun hle => hexpiry ⟨e, he, hle⟩
  · rintro ⟨r, ⟨hauth, hpos, hexpiry, hwired, htransfer⟩, rfl, rfl, rfl⟩
    refine ⟨(), hauth, (), by omega, (), ?_, r, hwired, true, _, ⟨htransfer, rfl, rfl⟩, rfl, rfl,
      rfl⟩
    rintro ⟨e, he, hle⟩
    exact absurd (hexpiry e he) (Nat.not_lt.mpr hle)

/-- The checks of `buy_credits`; `tokens` is the storage of the tokens after the payment. -/
structure MayBuy (ch : Chain T) (env : Env) (m : Marketplace) (l : Ledger T) (buyer : Address)
    (o : ℕ) (amount : ℤ) (offer : Offer) (r : Address) (tokens : T) : Prop where
  authorised : env.Authorised buyer
  stored : m.offers o = some offer
  active : offer.status = .active
  unexpired : ∀ e ∈ offer.expiry, env.timestamp ≤ e
  available : 0 < amount ∧ amount ≤ offer.amount - offer.filled
  paid : ch.tokenTransfer l.tokens offer.currency buyer offer.seller
    (paymentAmount ch amount offer.pricePerTonne) = some tokens
  wired : m.creditRegistry = some r
  transferable : Transferable ch env l r (ch.address .marketplace) offer.creditId
  inRange : i128CheckedAdd offer.filled amount = some (offer.filled + amount)

/-- The offer after a fill. -/
def filledOffer (offer : Offer) (amount : ℤ) : Offer :=
  { offer with
    filled := offer.filled + amount
    status := if offer.filled + amount ≥ offer.amount then .filled else offer.status }

theorem buyCredits_eq_ok {buyer : Address} {o : ℕ} {amount : ℤ} {b : Bool} :
    buyCredits ch env m l buyer o amount = .ok (b, m', l') ↔
      ∃ offer r tokens, MayBuy ch env m l buyer o amount offer r tokens ∧ b = true ∧
        m' = (m.writeOffer o (filledOffer offer amount)).emit (.offerFilled o buyer amount) ∧
        l' = { l with tokens := tokens }.writeRegistry r
          ((l.registries r).transferred (ch.address .marketplace) buyer offer.creditId) := by
  have hfill : ∀ (offer : Offer) (filled : ℤ), filled = offer.filled + amount →
      (if filled ≥ offer.amount then { offer with filled := filled, status := .filled }
        else { offer with filled := filled }) = filledOffer offer amount := by
    rintro offer _ rfl
    unfold filledOffer
    split_ifs <;> rfl
  simp only [buyCredits, readOffer, readCreditRegistry, bind_eq_ok, Env.requireAuth_eq_ok,
    panicIf_eq_ok, orPanic_eq_ok, pure_eq_ok, Prod.exists, callTransfer_eq_ok, Prod.mk.injEq,
    Ledger.transferToken_eq_ok, not_not]
  constructor
  · rintro ⟨-, hauth, offer, hstored, -, hactive, -, hexpiry, -, hamount, _, ⟨tokens, hpaid, rfl⟩,
      r, hwired, _, _, ⟨⟨hr, hown, howner, hcredit⟩, rfl, rfl⟩, filled, hfilled, rfl, rfl, rfl⟩
    obtain rfl := i128CheckedAdd_eq_some hfilled
    refine ⟨offer, r, tokens,
      ⟨hauth, hstored, hactive, ?_, by omega, hpaid, hwired, ⟨hr, hown, howner, hcredit⟩, hfilled⟩,
      rfl, by rw [hfill offer _ rfl], rfl⟩
    intro e he
    exact Nat.not_lt.mp fun hlt => hexpiry ⟨e, he, hlt⟩
  · rintro ⟨offer, r, tokens,
      ⟨hauth, hstored, hactive, hexpiry, hamount, hpaid, hwired, ⟨hr, hown, howner, hcredit⟩,
        hfilled⟩, rfl, rfl, rfl⟩
    refine ⟨(), hauth, offer, hstored, (), hactive, (), ?_, (), by omega, _, ⟨tokens, hpaid, rfl⟩,
      r, hwired, true, _, ⟨⟨hr, hown, howner, hcredit⟩, rfl, rfl⟩, _, hfilled, rfl,
      by rw [hfill offer _ rfl], rfl⟩
    rintro ⟨e, he, hlt⟩
    exact absurd (hexpiry e he) (Nat.not_le.mpr hlt)

/-- The checks of `cancel_offer`. -/
structure MayCancel (ch : Chain T) (env : Env) (m : Marketplace) (l : Ledger T)
    (caller : Address) (o : ℕ) (offer : Offer) (r : Address) : Prop where
  authorised : env.Authorised caller
  stored : m.offers o = some offer
  allowed : offer.seller = caller ∨ ∃ e ∈ offer.expiry, e < env.timestamp
  active : offer.status = .active
  wired : m.creditRegistry = some r
  transferable : Transferable ch env l r (ch.address .marketplace) offer.creditId

theorem cancelOffer_eq_ok {caller : Address} {o : ℕ} {b : Bool} :
    cancelOffer ch env m l caller o = .ok (b, m', l') ↔
      ∃ offer r, MayCancel ch env m l caller o offer r ∧ b = true ∧
        m' = (m.writeOffer o { offer with status := .cancelled }).emit (.offerCancelled o) ∧
        l' = l.writeRegistry r
          ((l.registries r).transferred (ch.address .marketplace) offer.seller offer.creditId) := by
  have hallowed : ∀ offer : Offer,
      ¬ (offer.seller ≠ caller ∧ ∀ e ∈ offer.expiry, env.timestamp ≤ e) ↔
        (offer.seller = caller ∨ ∃ e ∈ offer.expiry, e < env.timestamp) := by
    intro offer
    simp only [not_and_or, not_not, not_forall, Nat.not_le, exists_prop]
  simp only [cancelOffer, readOffer, readCreditRegistry, bind_eq_ok, Env.requireAuth_eq_ok,
    panicIf_eq_ok, orPanic_eq_ok, pure_eq_ok, Prod.exists, callTransfer_eq_ok, Prod.mk.injEq,
    not_not, hallowed]
  constructor
  · rintro ⟨-, hauth, offer, hstored, -, hallow, -, hactive, r, hwired, _, _,
      ⟨htransfer, rfl, rfl⟩, rfl, rfl, rfl⟩
    exact ⟨offer, r, ⟨hauth, hstored, hallow, hactive, hwired, htransfer⟩, rfl, rfl, rfl⟩
  · rintro ⟨offer, r, ⟨hauth, hstored, hallow, hactive, hwired, htransfer⟩, rfl, rfl, rfl⟩
    exact ⟨(), hauth, offer, hstored, (), hallow, (), hactive, r, hwired, true, _,
      ⟨htransfer, rfl, rfl⟩, rfl, rfl, rfl⟩

/-- The arguments of a call of `init`. -/
def Call.initArgs : Call → Option (Address × Address)
  | .init admin creditRegistry => some (admin, creditRegistry)
  | _ => none

/-- What a call that returns does: it reads, it wires the marketplace, or it creates, fills
or cancels an offer. -/
inductive MarketplaceChange (ch : Chain T) (env : Env) (m : Marketplace) (l : Ledger T)
    (m' : Marketplace) (l' : Ledger T) : Call → Prop where
  | keep {call : Call} (hm : m' = m) (hl : l' = l)
      (hread : (∃ f g p i n, call = .getListings f g p i n) ∨ (∃ o, call = .getOffer o) ∨
        ∃ a, call = .getOffersBySeller a) : MarketplaceChange ch env m l m' l' call
  | init {admin creditRegistry : Address} (hauth : env.Authorised admin)
      (hm : m' = (m.writeAdmin admin).writeCreditRegistry creditRegistry) (hl : l' = l) :
      MarketplaceChange ch env m l m' l' (.init admin creditRegistry)
  | create {seller : Address} {creditId : ℕ} {pricePerTonne amount : ℤ} {currency : Address}
      {expiry : Option ℕ} {r : Address}
      (hchecks : MayCreate ch env m l seller creditId pricePerTonne amount expiry r)
      (hm : m' = (((m.nextOfferId.2.writeOffer (m.offerCounter + 1)
        (newOffer env (m.offerCounter + 1) seller creditId pricePerTonne amount currency
          expiry)).addOfferToSeller seller (m.offerCounter + 1)).addOfferToAll
        (m.offerCounter + 1)).emit (.offerCreated (m.offerCounter + 1) seller))
      (hl : l' = l.writeRegistry r
        ((l.registries r).transferred seller (ch.address .marketplace) creditId)) :
      MarketplaceChange ch env m l m' l'
        (.createOffer seller creditId pricePerTonne amount currency expiry)
  | buy {buyer : Address} {o : ℕ} {amount : ℤ} {offer : Offer} {r : Address} {tokens : T}
      (hchecks : MayBuy ch env m l buyer o amount offer r tokens)
      (hm : m' = (m.writeOffer o (filledOffer offer amount)).emit (.offerFilled o buyer amount))
      (hl : l' = { l with tokens := tokens }.writeRegistry r
        ((l.registries r).transferred (ch.address .marketplace) buyer offer.creditId)) :
      MarketplaceChange ch env m l m' l' (.buyCredits buyer o amount)
  | cancel {caller : Address} {o : ℕ} {offer : Offer} {r : Address}
      (hchecks : MayCancel ch env m l caller o offer r)
      (hm : m' = (m.writeOffer o { offer with status := .cancelled }).emit (.offerCancelled o))
      (hl : l' = l.writeRegistry r
        ((l.registries r).transferred (ch.address .marketplace) offer.seller offer.creditId)) :
      MarketplaceChange ch env m l m' l' (.cancelOffer caller o)

theorem exec_marketplaceChange {call : Call} (h : exec ch env m l call = .ok (m', l')) :
    MarketplaceChange ch env m l m' l' call := by
  cases call <;> simp only [exec, map_eq_ok, Prod.exists, Except.ok.injEq, Prod.mk.injEq] at h
  case init admin creditRegistry =>
    obtain ⟨_, m', hinit, rfl, rfl⟩ := h
    obtain ⟨hauth, hm⟩ := init_eq_ok.mp hinit
    exact .init hauth hm rfl
  case createOffer =>
    obtain ⟨_, m', l', hcreate, rfl, rfl⟩ := h
    obtain ⟨r, hchecks, -, hm, hl⟩ := createOffer_eq_ok.mp hcreate
    exact .create hchecks hm hl
  case buyCredits =>
    obtain ⟨_, m', l', hbuy, rfl, rfl⟩ := h
    obtain ⟨offer, r, tokens, hchecks, -, hm, hl⟩ := buyCredits_eq_ok.mp hbuy
    exact .buy hchecks hm hl
  case cancelOffer =>
    obtain ⟨_, m', l', hcancel, rfl, rfl⟩ := h
    obtain ⟨offer, r, hchecks, -, hm, hl⟩ := cancelOffer_eq_ok.mp hcancel
    exact .cancel hchecks hm hl
  case getListings =>
    obtain ⟨_, -, rfl, rfl⟩ := h
    exact .keep rfl rfl (Or.inl ⟨_, _, _, _, _, rfl⟩)
  case getOffer =>
    obtain ⟨_, -, rfl, rfl⟩ := h
    exact .keep rfl rfl (Or.inr (Or.inl ⟨_, rfl⟩))
  case getOffersBySeller =>
    obtain ⟨rfl, rfl⟩ := h
    exact .keep rfl rfl (Or.inr (Or.inr ⟨_, rfl⟩))

/-- Only `init` changes the stored admin and registry address. -/
theorem MarketplaceChange.wiring {call : Call} (h : MarketplaceChange ch env m l m' l' call) :
    (call.initArgs = none ∧ m'.admin = m.admin ∧ m'.creditRegistry = m.creditRegistry) ∨
      ∃ admin r, call.initArgs = some (admin, r) ∧ env.Authorised admin ∧
        m'.admin = some admin ∧ m'.creditRegistry = some r := by
  cases h with
  | keep hm _ hread =>
      subst hm
      rcases hread with ⟨_, _, _, _, _, rfl⟩ | ⟨_, rfl⟩ | ⟨_, rfl⟩
      · exact Or.inl ⟨rfl, rfl, rfl⟩
      · exact Or.inl ⟨rfl, rfl, rfl⟩
      · exact Or.inl ⟨rfl, rfl, rfl⟩
  | @init admin r hauth hm _ =>
      subst hm
      exact Or.inr ⟨admin, r, rfl, hauth, rfl, rfl⟩
  | create _ hm _ =>
      subst hm
      exact Or.inl ⟨rfl, rfl, rfl⟩
  | buy _ hm _ =>
      subst hm
      exact Or.inl ⟨rfl, rfl, rfl⟩
  | cancel _ hm _ =>
      subst hm
      exact Or.inl ⟨rfl, rfl, rfl⟩

end Spec

end Marketplace

end CarbonVeritas
