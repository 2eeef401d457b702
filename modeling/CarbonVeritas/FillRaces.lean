/-
# Concurrent purchases of one offer

Every purchase is a program, and the programs take turns in any order, one query a turn.
`buyCredits` reads the offer, calls the contracts, and then writes a total that it computes from
the row it has read before.  Two purchases that have both read the row write the same total, and
one of the fills is lost (`not_fillsCounted`).

The fills are counted if every purchase writes its total to the row that it was computed from,
and the doubles of the row are exact (`fillsCounted`), which is what an update that increments
the column under the condition of the check would ensure.

* `tradedTonnes` : the tonnes of the trades of an offer;
* `unrecorded` : what the trades of an offer are ahead of its total, to which no purchase adds.
-/
import CarbonVeritas.MarketplaceService
import CarbonVeritas.StellarService

namespace CarbonVeritas

open ApiService Transition
open Program

namespace MarketplaceService

/-! ## The total of an offer -/

/-- The tonnes of the trades of an offer. -/
def tradedTonnes (db : ApiDb) (offerId : ℤ) : ℚ :=
  ((db.trades.filter fun trade => trade.offerId = offerId).map TradeRow.amount).sum

/-- The total is within the offer, and the status says when it is reached. -/
structure Sound (offer : OfferRow) : Prop where
  filled_le : offer.amountFilled ≤ offer.amount
  filled_iff : offer.status = .filled ↔ offer.amount ≤ offer.amountFilled

/-- The total of the offer is the sum of its trades. -/
def FillsCounted (db : ApiDb) (offerId : ℤ) : Prop :=
  ∀ offer ∈ db.offers offerId, offer.amountFilled = tradedTonnes db offerId ∧ Sound offer

/-- What the trades are ahead of the total. -/
def unrecorded (db : ApiDb) (offerId : ℤ) : ℚ :=
  tradedTonnes db offerId - (db.offers offerId).elim 0 OfferRow.amountFilled

/-- What no purchase changes: the size of the offer, and that its credit exists. -/
def listing (db : ApiDb) (offerId : ℤ) : Option (ℚ × ℤ × Bool) :=
  (db.offers offerId).map fun offer =>
    (offer.amount, offer.creditId, (db.credits offer.creditId).isSome)

/-- A new trade of the offer. -/
theorem unrecorded_insertTrade (db : ApiDb) (row : TradeRow) :
    unrecorded (db.insertTrade row) row.offerId = unrecorded db row.offerId + row.amount := by
  have htraded : tradedTonnes (db.insertTrade row) row.offerId =
      tradedTonnes db row.offerId + row.amount := by
    show ((List.filter _ (db.trades ++ [row])).map _).sum = _
    rw [List.filter_append, List.map_append, List.sum_append, List.filter_cons_of_pos (by simp)]
    simp [tradedTonnes]
  unfold unrecorded
  rw [htraded]
  exact add_sub_right_comm _ _ _

/-- A new total of the offer. -/
theorem unrecorded_writeOffer {db : ApiDb} {offerId : ℤ} {old : OfferRow}
    (hold : db.offers offerId = some old) (new : OfferRow) :
    unrecorded (db.writeOffer offerId new) offerId =
      unrecorded db offerId + (old.amountFilled - new.amountFilled) := by
  have hnew : (db.writeOffer offerId new).offers offerId = some new := Function.update_self _ _ _
  unfold unrecorded
  rw [hnew, hold]
  show tradedTonnes db offerId - new.amountFilled = _
  simp only [Option.elim_some]
  ring

/-- An offer that keeps its amount and its credit stays listed. -/
theorem listing_writeOffer {db : ApiDb} {offerId : ℤ} {old : OfferRow}
    (hold : db.offers offerId = some old) (new : OfferRow) (hamount : new.amount = old.amount)
    (hcredit : new.creditId = old.creditId) :
    listing (db.writeOffer offerId new) offerId = listing db offerId := by
  have hnew : (db.writeOffer offerId new).offers offerId = some new := Function.update_self _ _ _
  unfold listing
  rw [hnew, hold]
  show some (new.amount, new.creditId, (db.credits new.creditId).isSome) = _
  rw [hamount, hcredit]
  rfl

theorem listing_writeCredit {db : ApiDb} {creditId : ℤ} {old : CreditRow}
    (hold : db.credits creditId = some old) (new : CreditRow) (offerId : ℤ) :
    listing (db.writeCredit creditId new) offerId = listing db offerId := by
  have hcredits : ∀ k, ((db.writeCredit creditId new).credits k).isSome =
      (db.credits k).isSome := by
    intro k
    show (Function.update db.credits creditId (some new) k).isSome = _
    by_cases hk : k = creditId
    · rw [hk, Function.update_self, hold]
      rfl
    · rw [Function.update_of_ne hk]
  show (db.offers offerId).map _ = (db.offers offerId).map _
  refine congrArg (fun f => (db.offers offerId).map f) (funext fun offer => ?_)
  rw [hcredits]

/-! ## Conditions on the queries -/

/-- The doubles in which the offer and the amount are added and compared are exact. -/
def ExactFill (offer : OfferRow) (amount : JsNumber) : Prop :=
  ∀ q ∈ Mirror.floatColumn amount,
    JsNumber.roundDouble (offer.amountFilled + q) = .finite (offer.amountFilled + q) ∧
      JsNumber.roundDouble (offer.amount - offer.amountFilled) =
        .finite (offer.amount - offer.amountFilled)

/-- The data that the query writes to an offer. -/
def offerWrite : ApiQuery → Option (Option OfferData)
  | .db (.updateOffer _ data) => some data
  | _ => none

/-- The offer is as it was when the request has read it: a fill that it writes is the fill of
the present row, and it does not let a filled offer expire. -/
def Undisturbed {σ : Type} (offerId : ℤ) (amount : JsNumber) (q : ApiQuery)
    (s : BackendState σ) : Prop :=
  ∀ offer ∈ s.db.offers offerId, ExactFill offer amount ∧ ∀ data ∈ offerWrite q,
    data = fillData offer amount ∨
      data = some { status := some .expired } ∧ offer.status ≠ .filled

instance (offer : OfferRow) (amount : JsNumber) : Decidable (ExactFill offer amount) :=
  inferInstanceAs (Decidable (∀ q ∈ Mirror.floatColumn amount, _))

instance {σ : Type} (offerId : ℤ) (amount : JsNumber) (q : ApiQuery) (s : BackendState σ) :
    Decidable (Undisturbed offerId amount q s) :=
  inferInstanceAs (Decidable (∀ offer ∈ s.db.offers offerId, _))

theorem floatColumn_eq_some {x : JsNumber} {q : ℚ} :
    Mirror.floatColumn x = some q ↔ x = .finite q := by
  cases x <;> simp [Mirror.floatColumn]

/-- A column that takes an integer stores it. -/
theorem eq_of_intColumn {z k : ℤ} (h : Mirror.intColumn (.finite z) = some k) : k = z := by
  have hnum : k = (z : ℚ).num := by
    dsimp only [Mirror.intColumn] at h
    split_ifs at h with hfits
    exact (Option.some.inj h).symm
  rw [hnum, Rat.num_intCast]

section Exact

variable {offer : OfferRow} {q : ℚ}

/-- The fill that an exact sum writes. -/
theorem fillData_exact (h : ExactFill offer (.finite q)) :
    fillData offer (.finite q) = some
      { amountFilled := some (offer.amountFilled + q)
        status := some (if offer.amount ≤ offer.amountFilled + q then .filled else .active) } := by
  have hsum : (JsNumber.finite offer.amountFilled).add (.finite q) =
      .finite (offer.amountFilled + q) := (h q rfl).1
  unfold fillData
  simp only [hsum, JsNumber.ge_finite, Mirror.floatColumn, Option.map_some, decide_eq_true_eq]

/-- The check on the amount, in exact doubles. -/
theorem le_of_check (h : ExactFill offer (.finite q))
    (hcheck : ¬ (JsNumber.finite q).gt ((JsNumber.finite offer.amount).sub
      (.finite offer.amountFilled)) = true) : offer.amountFilled + q ≤ offer.amount := by
  have hsub : (JsNumber.finite offer.amount).sub (.finite offer.amountFilled) =
      .finite (offer.amount - offer.amountFilled) := by
    rw [← (h q rfl).2, sub_eq_add_neg]
    rfl
  rw [hsub, JsNumber.gt_finite, decide_eq_true_eq, not_lt] at hcheck
  linarith

end Exact

/-! ## What a purchase adds -/

section Purchase

variable {σ α : Type} {host : ApiHost σ} {config : ApiConfig} {offerId : ℤ} {amount : JsNumber}
  {listed : Option (ℚ × ℤ × Bool)}

/-- The offer is sound, and listed as `listed`. -/
structure Listed (listed : Option (ℚ × ℤ × Bool)) (offerId : ℤ) (s : BackendState σ) : Prop where
  listing_eq : listing s.db offerId = listed
  sound : ∀ offer ∈ s.db.offers offerId, Sound offer

/-- The program adds `m` to what is unrecorded. -/
abbrev AddsUnrecorded (host : ApiHost σ) (listed : Option (ℚ × ℤ × Bool)) (offerId : ℤ)
    (amount : JsNumber) (p : ApiProgram α) (m : ℚ) : Prop :=
  Adds host.handle (Listed listed offerId) (Undisturbed offerId amount)
    (fun s => unrecorded s.db offerId) p m

/-- A query that leaves the database. -/
theorem adds_quiet {q : ApiQuery} (hq : ∀ s : BackendState σ, (host.handle q s).2.db = s.db)
    {f : q.Reply → ApiProgram α}
    (hf : ∀ (s : BackendState σ) r, Listed listed offerId s → Undisturbed offerId amount q s →
      (host.handle q s).1 = .ok r → AddsUnrecorded host listed offerId amount (f r) 0) :
    AddsUnrecorded host listed offerId amount (.query q .ret >>= f) 0 := by
  refine adds_keep (fun s hs _ => ?_) hf fun _ _ _ _ _ => rfl
  have hdb := hq s
  refine ⟨⟨?_, ?_⟩, ?_⟩
  · rw [hdb]
    exact hs.listing_eq
  · rw [hdb]
    exact hs.sound
  · rw [hdb]

/-- The offer of which a purchase has read the row `offer`. -/
structure HasRead (listed : Option (ℚ × ℤ × Bool)) (offer : OfferRow) (amount : JsNumber) :
    Prop where
  listed_eq : listed = some (offer.amount, offer.creditId, true)
  exact : ExactFill offer amount
  fits : ¬ amount.gt ((JsNumber.finite offer.amount).sub (.finite offer.amountFilled)) = true

/-- The row that is stored when a purchase goes on. -/
theorem HasRead.stored {offer : OfferRow} (h : HasRead listed offer amount) {s : BackendState σ}
    (hs : Listed listed offerId s) :
    ∃ row, s.db.offers offerId = some row ∧ row.amount = offer.amount ∧
      row.creditId = offer.creditId ∧ ∃ credit, s.db.credits offer.creditId = some credit := by
  have hlisting := hs.listing_eq.trans h.listed_eq
  obtain ⟨row, hrow, heq⟩ := Option.map_eq_some_iff.mp hlisting
  obtain ⟨hamount, hcredit⟩ := Prod.mk.inj heq
  obtain ⟨hcreditId, hexists⟩ := Prod.mk.inj hcredit
  rw [hcreditId] at hexists
  exact ⟨row, hrow, hamount, hcreditId, Option.isSome_iff_exists.mp hexists⟩

/-- A trade that does not fit its columns. -/
theorem adds_tradeCreate_none {f : Except ServiceError Unit → ApiProgram α}
    (hf : ∀ e, AddsUnrecorded host listed offerId amount (f (.error e)) 0) :
    AddsUnrecorded host listed offerId amount (attempt.tradeCreate none >>= f) 0 := by
  refine adds_quiet (q := .attempt (.insertTrade none)) (fun _ => rfl) ?_
  rintro s r - - hr
  obtain rfl := Except.ok.inj hr
  exact hf _

/-- A trade of the offer. -/
theorem adds_tradeCreate {row : TradeRow} (hrow : row.offerId = offerId) {m : ℚ}
    {f : Except ServiceError Unit → ApiProgram α}
    (hf : AddsUnrecorded host listed offerId amount (f (.ok ())) m) :
    AddsUnrecorded host listed offerId amount (attempt.tradeCreate (some row) >>= f)
      (row.amount + m) := by
  subst hrow
  refine adds_query (q := ApiQuery.attempt (.insertTrade (some row))) (fun s hs _ => ⟨?_, ?_⟩) ?_ ?_
  · exact ⟨hs.listing_eq, hs.sound⟩
  · exact unrecorded_insertTrade s.db row
  · rintro s r - - hr
    obtain rfl := Except.ok.inj hr
    exact hf
  · intro s e _ _ he
    cases he

/-- The owner of the credit of the offer is written. -/
theorem adds_creditUpdate {offer : OfferRow} (h : HasRead listed offer amount) (data : CreditData)
    {m : ℚ} {f : Except ServiceError Unit → ApiProgram α}
    (hf : AddsUnrecorded host listed offerId amount (f (.ok ())) m) :
    AddsUnrecorded host listed offerId amount
      (attempt.creditUpdate offer.creditId (some data) >>= f) m := by
  -- the credit of a listed offer exists
  have hanswer : ∀ s : BackendState σ, Listed listed offerId s →
      ∃ credit, s.db.credits offer.creditId = some credit ∧
        DbQuery.answer host.client (.updateCredit offer.creditId (some data)) s.db =
          (.ok (), s.db.writeCredit offer.creditId (data.apply credit)) := by
    intro s hs
    obtain ⟨-, -, -, -, credit, hcredit⟩ := h.stored hs
    refine ⟨credit, hcredit, ?_⟩
    rw [DbQuery.answer, hcredit]
    rfl
  refine adds_keep (q := ApiQuery.attempt (.updateCredit offer.creditId (some data)))
    (fun s hs _ => ?_) ?_ ?_
  · obtain ⟨credit, hcredit, heq⟩ := hanswer s hs
    have hdb : (host.handle (.attempt (.updateCredit offer.creditId (some data))) s).2.db =
        s.db.writeCredit offer.creditId (data.apply credit) := congrArg Prod.snd heq
    rw [hdb]
    refine ⟨⟨?_, ?_⟩, rfl⟩
    · rw [hdb, listing_writeCredit hcredit]
      exact hs.listing_eq
    · rw [hdb]
      exact hs.sound
  · intro s r hs _ hr
    obtain ⟨credit, -, heq⟩ := hanswer s hs
    have hreply := Except.ok.inj hr
    rw [heq] at hreply
    rw [← hreply]
    exact hf
  · intro s e _ _ he
    cases he

/-- A write to the offer, after which it is sound. -/
theorem Listed.write {s : BackendState σ} (hs : Listed listed offerId s) {row : OfferRow}
    (hrow : s.db.offers offerId = some row) {data : OfferData}
    (hsound : Sound (data.apply row)) :
    Listed listed offerId (s.store (s.db.writeOffer offerId (data.apply row))) := by
  refine ⟨?_, fun offer hoffer => ?_⟩
  · exact (listing_writeOffer hrow (data.apply row) rfl rfl).trans hs.listing_eq
  · have hself : (s.db.writeOffer offerId (data.apply row)).offers offerId =
        some (data.apply row) := Function.update_self _ _ _
    obtain rfl := Option.some.inj (hself.symm.trans hoffer)
    exact hsound

theorem handle_updateOffer {s : BackendState σ} {row : OfferRow} (data : OfferData)
    (hrow : s.db.offers offerId = some row) :
    host.handle (.db (.updateOffer offerId (some data))) s =
      (.ok (), s.store (s.db.writeOffer offerId (data.apply row))) := by
  have hanswer : DbQuery.answer host.client (.updateOffer offerId (some data)) s.db =
      (.ok (), s.db.writeOffer offerId (data.apply row)) := by
    rw [DbQuery.answer, hrow]
    rfl
  show ((DbQuery.answer host.client (.updateOffer offerId (some data)) s.db).1,
    s.store (DbQuery.answer host.client (.updateOffer offerId (some data)) s.db).2) = _
  rw [hanswer]
  rfl

/-- The total that a purchase writes is that of the row as it is stored. -/
theorem adds_fill {offer : OfferRow} {q : ℚ} (h : HasRead listed offer (.finite q))
    {f : Unit → ApiProgram α}
    (hf : AddsUnrecorded host listed offerId (.finite q) (f ()) 0) :
    AddsUnrecorded host listed offerId (.finite q)
      (prisma.offer.update offerId (fillData offer (.finite q)) >>= f) (-q) := by
  rw [fillData_exact h.exact, ← add_zero (-q)]
  set data : OfferData :=
    { amountFilled := some (offer.amountFilled + q)
      status := some (if offer.amount ≤ offer.amountFilled + q then .filled else .active) }
  refine adds_query (q := ApiQuery.db (.updateOffer offerId (some data))) (fun s hs hK => ?_) ?_ ?_
  · obtain ⟨row, hrow, hamount, -, -⟩ := h.stored hs
    obtain ⟨hexact, hwrite⟩ := hK row hrow
    -- the row has the total that the purchase has read
    have hfilled : row.amountFilled = offer.amountFilled := by
      rcases hwrite (some data) rfl with hsame | ⟨hexpired, -⟩
      · rw [fillData_exact hexact] at hsame
        have htotal := congrArg OfferData.amountFilled (Option.some.inj hsame)
        have hsum : offer.amountFilled + q = row.amountFilled + q := Option.some.inj htotal
        linarith
      · exact absurd (congrArg OfferData.amountFilled (Option.some.inj hexpired)) (by simp [data])
    rw [handle_updateOffer data hrow]
    refine ⟨hs.write hrow ⟨?_, ?_⟩, ?_⟩
    · show offer.amountFilled + q ≤ row.amount
      rw [hamount]
      exact le_of_check h.exact h.fits
    · show (if offer.amount ≤ offer.amountFilled + q then OfferStatus.filled else .active) =
        .filled ↔ row.amount ≤ offer.amountFilled + q
      rw [hamount]
      split_ifs with hfull <;> simp [hfull]
    · show unrecorded (s.db.writeOffer offerId (data.apply row)) offerId = _
      rw [unrecorded_writeOffer hrow, hfilled]
      show _ + (offer.amountFilled - (offer.amountFilled + q)) = _
      ring
  · intro s r _ _ _
    exact hf
  · intro _ _ _ _ _
    rfl

theorem tradeRow_eq_some {user : String} {offer : OfferRow} {row : TradeRow}
    (h : tradeRow user offerId offer amount = some row) :
    ∃ q, amount = .finite q ∧ row.amount = q ∧ row.offerId = offerId := by
  simp only [tradeRow, Option.bind_eq_bind, Option.bind_eq_some_iff, Option.pure_def,
    Option.some.injEq] at h
  obtain ⟨_, -, q, hq, rfl⟩ := h
  exact ⟨q, floatColumn_eq_some.mp hq, rfl, rfl⟩

/-- What a purchase writes after its calls adds nothing in the end. -/
theorem adds_recordTrade {offer : OfferRow} (h : HasRead listed offer amount) (user : String) :
    AddsUnrecorded host listed offerId amount (recordTrade user offerId offer amount) 0 := by
  unfold recordTrade promiseAll
  simp only [Program.bind_assoc]
  cases htrade : tradeRow user offerId offer amount with
  | none =>
      -- the trade is refused, and the total is not written
      refine adds_quiet (q := .overtakes) (fun _ => rfl) fun s b _ _ _ => ?_
      cases b with
      | false =>
          refine adds_tradeCreate_none fun e => adds_creditUpdate h _ ?_
          exact rfl
      | true =>
          refine adds_creditUpdate h _ (adds_tradeCreate_none fun e => ?_)
          exact rfl
  | some row =>
      obtain ⟨q, rfl, hq, hrow⟩ := tradeRow_eq_some htrade
      have hfill : AddsUnrecorded host listed offerId (.finite q)
          (prisma.offer.update offerId (fillData offer (.finite q)) >>= fun _ => .ret (some row))
          (-q) := adds_fill h rfl
      have hzero : (0 : ℚ) = row.amount + -q := by
        rw [hq]
        ring
      refine adds_quiet (q := .overtakes) (fun _ => rfl) fun s b _ _ _ => ?_
      rw [hzero]
      cases b with
      | false => exact adds_tradeCreate hrow (adds_creditUpdate h _ hfill)
      | true => exact adds_creditUpdate h _ (adds_tradeCreate hrow hfill)

/-- An offer expires only when it is not filled. -/
theorem adds_expire {offer : OfferRow} (h : HasRead listed offer amount) :
    AddsUnrecorded host listed offerId amount (expire offerId offer) 0 := by
  unfold expire
  cases offer.expiresAt with
  | none => exact rfl
  | some expiresAt =>
      refine adds_quiet (q := .now) (fun _ => rfl) fun _ now _ _ _ => ?_
      split_ifs with hpast
      · refine adds_keep (q := ApiQuery.db (.updateOffer offerId
          (some { status := some .expired }))) (fun s hs hK => ?_) (fun _ _ _ _ _ => rfl)
          fun _ _ _ _ _ => rfl
        obtain ⟨row, hrow, -⟩ := h.stored hs
        have hunfilled : row.status ≠ .filled := by
          rcases (hK row hrow).2 _ rfl with hfill | ⟨-, hne⟩
          · obtain ⟨x, -, heq⟩ := Option.map_eq_some_iff.mp hfill.symm
            exact absurd (congrArg OfferData.amountFilled heq) (by simp)
          · exact hne
        rw [handle_updateOffer _ hrow]
        refine ⟨hs.write hrow ⟨(hs.sound row hrow).filled_le, ?_⟩, ?_⟩
        · show OfferStatus.expired = .filled ↔ row.amount ≤ row.amountFilled
          refine iff_of_false nofun fun hfull => hunfilled ?_
          exact (hs.sound row hrow).filled_iff.mpr hfull
        · show unrecorded (s.db.writeOffer offerId _) offerId = _
          rw [unrecorded_writeOffer hrow]
          show _ + (row.amountFilled - row.amountFilled) = _
          ring
      · exact rfl

/-- **Step lemma.**  A purchase whose writes are not disturbed records what it adds. -/
theorem adds_buyCredits (user wallet : String) :
    AddsUnrecorded host listed offerId amount
      (buyCredits config user wallet (.finite offerId) amount) 0 := by
  unfold buyCredits checkBuy
  simp only [Program.bind_assoc]
  refine adds_quiet (q := .db (.findOfferCredit (.finite offerId))) (fun _ => rfl)
    fun s found hs hK hr => ?_
  cases found with
  | none => exact rfl
  | some found =>
      obtain ⟨id, offer, credit⟩ := found
      obtain ⟨hcolumn, hrow⟩ := lookup_eq_ok_some.mp hr
      obtain ⟨hoffer, hcredit⟩ := offerCredit_eq_some.mp hrow
      obtain rfl : id = offerId := eq_of_intColumn hcolumn
      have hlisted : listed = some (offer.amount, offer.creditId, true) := by
        rw [← hs.listing_eq, listing, hoffer, Option.map_some, hcredit]
        rfl
      rw [Program.orThrow_some, Program.ret_bind]
      refine Adds.bind adds_throwIf fun _ => Adds.bind adds_throwIf fun _ => ?_
      rw [throwIf_bind]
      split_ifs with hexceeds
      · exact rfl
      · have hread : HasRead listed offer amount := ⟨hlisted, (hK offer hoffer).1, hexceeds⟩
        refine Adds.bind (adds_expire hread) fun _ => ?_
        rw [Program.pure_eq, Program.ret_bind]
        refine adds_quiet (q := .stellar (.buyCredits wallet (.finite id) amount)) (fun _ => rfl)
          fun _ (success : Bool) _ _ _ => Adds.bind adds_throwIf fun _ => ?_
        refine adds_quiet (q := .stellar (.transferCredit wallet (config.cuid offer.seller)
          (.finite offer.creditId))) (fun _ => rfl) fun _ _ _ _ _ => ?_
        exact adds_recordTrade hread user

end Purchase

/-! ## Any order of turns -/

/-- A request to buy. -/
structure Purchase where
  user : String
  wallet : String
  amount : JsNumber

section Runs

variable {σ ι : Type} [DecidableEq ι] [Fintype ι]

/-- The requests for one offer, before their first turns. -/
def purchases (host : ApiHost σ) (offerId : ℤ) (requests : ι → Purchase) (s : BackendState σ) :
    Pool ι (BackendState σ) ApiQuery.Reply ServiceError (Option TradeRow) where
  state := s
  programs i := buyCredits host.toApiConfig (requests i).user (requests i).wallet (.finite offerId)
    (requests i).amount

/-- When all requests have finished, no fill is lost or counted twice, provided that every
request writes to the row that it has read. -/
theorem fillsCounted (host : ApiHost σ) (offerId : ℤ) (requests : ι → Purchase)
    (s : BackendState σ) (turns : List ι) (hstart : FillsCounted s.db offerId)
    (hundisturbed : Always (Pool.next host.handle)
      (Pool.NextMeets fun i => Undisturbed offerId (requests i).amount)
      (purchases host offerId requests s) turns)
    (hended : ∀ i, ((run (Pool.next host.handle) (purchases host offerId requests s)
      turns).programs i).Ended) :
    FillsCounted (run (Pool.next host.handle) (purchases host offerId requests s) turns).state.db
      offerId := by
  have hlisted : Listed (listing s.db offerId) offerId s :=
    ⟨rfl, fun offer hoffer => (hstart offer hoffer).2⟩
  have hadds : ∀ i, AddsUnrecorded host (listing s.db offerId) offerId (requests i).amount
      ((purchases host offerId requests s).programs i) 0 :=
    fun i => adds_buyCredits (requests i).user (requests i).wallet
  obtain ⟨hend, hsum⟩ := run_adds hlisted hadds hundisturbed hended
  rw [Finset.sum_const_zero, add_zero] at hsum
  intro offer hoffer
  refine ⟨?_, hend.sound offer hoffer⟩
  -- nothing was unrecorded at the start
  have hzero : unrecorded s.db offerId = 0 := by
    obtain ⟨old, hold, -⟩ := Option.map_eq_some_iff.mp (hend.listing_eq.symm.trans
      (congrArg _ hoffer))
    show tradedTonnes s.db offerId - (s.db.offers offerId).elim 0 _ = 0
    rw [hold, ← (hstart old hold).1]
    exact sub_self _
  have hrecorded : tradedTonnes _ offerId - Option.elim _ 0 _ = 0 := hsum.trans hzero
  rw [show _ = some offer from hoffer] at hrecorded
  exact (sub_eq_zero.mp hrecorded).symm

end Runs

/-- The contracts accept every purchase and every transfer. -/
structure CallsSucceed {σ : Type} (host : ApiHost σ) : Prop where
  buyCredits : ∀ buyer offerId amount n s,
    (host.stellar (.buyCredits buyer offerId amount) n s).1 = .ok true
  transferCredit : ∀ fromAddr toAddr creditId n s,
    (host.stellar (.transferCredit fromAddr toAddr creditId) n s).1 = .ok true

end MarketplaceService

/-! ## A race -/

namespace Sample

open MarketplaceService

/-- Contracts that accept every purchase. -/
def acceptingHost : ApiHost Unit where
  toApiConfig := apiConfig
  stellar call _ s :=
    match call with
    | .buyCredits _ _ _ => (.ok true, s)
    | .transferCredit _ _ _ => (.ok true, s)
    | _ => (.error (.badGateway ""), s)

/-- An offer of 100 tonnes of credit 1. -/
def hundredTonnes : OfferRow where
  creditId := 1
  seller := wallet
  pricePerTonne := 10
  amount := 100
  amountFilled := 0
  currency := wallet
  status := .active
  expiresAt := none

def offering : BackendState Unit where
  db := { apiDb .active with offers := fun k => if k = 1 then some hundredTonnes else none }
  chain := ()
  calls := []
  served := 0

theorem offering_counted : FillsCounted offering.db 1 := by
  intro offer hoffer
  obtain rfl : hundredTonnes = offer := Option.some.inj hoffer
  exact ⟨rfl, by decide, by decide⟩

/-- Two users buy, each the amount given. -/
def twoBuyers (amounts : Fin 2 → ℚ) (i : Fin 2) : Purchase where
  user := if i.val = 0 then "a" else "b"
  wallet := wallet
  amount := .finite (amounts i)

/-- The second user waits for the first. -/
def oneByOne : List (Fin 2) :=
  List.replicate 7 ⟨0, Nat.two_pos⟩ ++ List.replicate 7 ⟨1, Nat.one_lt_two⟩

end Sample

namespace MarketplaceService

open Sample in
/-- Both users buy 60 tonnes of the 100, and one of the fills is lost. -/
theorem not_fillsCounted :
    ¬ ∀ (σ : Type) (host : ApiHost σ) (n : ℕ) (offerId : ℤ) (requests : Fin n → Purchase)
      (s : BackendState σ) (turns : List (Fin n)), CallsSucceed host → FillsCounted s.db offerId →
      (∀ i, ((run (Pool.next host.handle) (purchases host offerId requests s)
        turns).programs i).Ended) →
      FillsCounted (run (Pool.next host.handle) (purchases host offerId requests s) turns).state.db
        offerId := by
  intro h
  -- both read the offer before either of them writes to it
  let turns : List (Fin 2) := [0, 1] ++ List.replicate 6 0 ++ List.replicate 6 1
  let pool := run (Pool.next acceptingHost.handle)
    (purchases acceptingHost 1 (twoBuyers fun _ => 60) offering) turns
  have hcounted : FillsCounted pool.state.db 1 := h Unit acceptingHost 2 1 (twoBuyers fun _ => 60)
    offering turns ⟨fun _ _ _ _ _ => rfl, fun _ _ _ _ _ => rfl⟩ offering_counted
    (by decide +kernel)
  have hfilled : (pool.state.db.offers 1).map OfferRow.amountFilled = some 60 := by decide +kernel
  have htraded : tradedTonnes pool.state.db 1 = 120 := by decide +kernel
  obtain ⟨offer, hoffer, hsixty⟩ := Option.map_eq_some_iff.mp hfilled
  have hsum := (hcounted offer hoffer).1
  rw [hsixty, htraded] at hsum
  exact absurd hsum (by decide)

open Sample in
/-- One after the other they buy 60 tonnes and 40 tonnes. -/
theorem fillsCounted_queue :
    FillsCounted (run (Pool.next acceptingHost.handle)
      (purchases acceptingHost 1 (twoBuyers fun i => if i = 0 then 60 else 40) offering)
      oneByOne).state.db 1 := by
  refine fillsCounted acceptingHost 1 (twoBuyers fun i => if i = 0 then 60 else 40) offering
    oneByOne offering_counted ?_ (by decide +kernel)
  show ∀ p ∈ steps (Pool.next acceptingHost.handle) _ oneByOne, Pool.NextMeets _ p.1 p.2
  decide +kernel

end MarketplaceService

end CarbonVeritas
