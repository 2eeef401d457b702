/-
# What the processors do

One lemma for each query and each processor of `Mirror`: when it completes, and the database
that it leaves.
-/
import CarbonVeritas.Mirror

namespace CarbonVeritas

namespace Mirror

/-! ## Completed queries -/

section Queries

variable {α β : Type} {client : DbClient} {db db' : Mirror}

/-- A sequence succeeds when both its parts do. -/
@[simp] theorem bind_eq_ok {x : Db α} {f : α → Db β} {b : β} :
    (x >>= f) db = .ok b db' ↔ ∃ a db₁, x db = .ok a db₁ ∧ f a db₁ = .ok b db' := by
  show EStateM.bind x f db = .ok b db' ↔ _
  unfold EStateM.bind
  cases hx : x db with
  | ok a db₁ => simp
  | error e db₁ => simp

@[simp] theorem pure_eq_ok {a b : α} : (pure a : Db α) db = .ok b db' ↔ a = b ∧ db' = db := by
  show EStateM.Result.ok a db = .ok b db' ↔ _
  simp [eq_comm]

@[simp] theorem get_eq_ok {d : Mirror} : (get : Db Mirror) db = .ok d db' ↔ d = db ∧ db' = db := by
  show EStateM.Result.ok db db = .ok d db' ↔ _
  simp [eq_comm]

/-- A write of the whole database never fails. -/
@[simp] theorem modify_eq_ok {f : Mirror → Mirror} {u : PUnit} :
    (modify f : Db PUnit) db = .ok u db' ↔ db' = f db := by
  show EStateM.Result.ok PUnit.unit (f db) = .ok u db' ↔ _
  simp [eq_comm]

/-- A value that fits its column is taken as it is. -/
@[simp] theorem columnValue_eq_ok {x : Option α} {a : α} :
    columnValue x db = .ok a db' ↔ x = some a ∧ db' = db := by
  unfold columnValue
  cases x with
  | none =>
      show EStateM.Result.error DbError.invalidValue db = .ok a db' ↔ _
      simp
  | some b => simp

/-- A text fits when the client stores it. -/
@[simp] theorem textColumn_eq_some {s t : String} :
    textColumn client s = some t ↔ client.storesText s = true ∧ t = s := by
  unfold textColumn
  split_ifs with h
  · simp [h, eq_comm]
  · simp [h]

/-- A user is inserted unless it is there; its wallet has to be a text that the client stores. -/
@[simp] theorem upsertUser_eq_ok {s u : String} :
    upsertUser client s db = .ok u db' ↔
      client.storesText s = true ∧ u = s ∧ db' = db.insertUser s := by
  simp only [upsertUser, bind_eq_ok, columnValue_eq_ok, textColumn_eq_some, modify_eq_ok,
    pure_eq_ok]
  constructor
  · rintro ⟨_, _, ⟨⟨hs, rfl⟩, rfl⟩, _, _, rfl, rfl, rfl⟩
    exact ⟨hs, rfl, rfl⟩
  · rintro ⟨hs, rfl, rfl⟩
    exact ⟨_, _, ⟨⟨hs, rfl⟩, rfl⟩, (), _, rfl, rfl, rfl⟩

/-- A credit is found under an integer, and a number that is none fails the query. -/
@[simp] theorem findCredit_eq_ok {x : JsNumber} {r : Option (ℤ × CreditRow)} :
    findCredit x db = .ok r db' ↔
      ∃ c, intColumn x = some c ∧ r = (db.credits c).map (fun row => (c, row)) ∧ db' = db := by
  simp only [findCredit, bind_eq_ok, columnValue_eq_ok, get_eq_ok, pure_eq_ok]
  constructor
  · rintro ⟨c, _, ⟨hc, rfl⟩, _, _, ⟨rfl, rfl⟩, rfl, rfl⟩
    exact ⟨c, hc, rfl, rfl⟩
  · rintro ⟨c, hc, rfl, rfl⟩
    exact ⟨c, _, ⟨hc, rfl⟩, _, _, ⟨rfl, rfl⟩, rfl, rfl⟩

/-- An offer is found under an integer, and a number that is none fails the query. -/
@[simp] theorem findOffer_eq_ok {x : JsNumber} {r : Option (ℤ × OfferRow)} :
    findOffer x db = .ok r db' ↔
      ∃ o, intColumn x = some o ∧ r = (db.offers o).map (fun row => (o, row)) ∧ db' = db := by
  simp only [findOffer, bind_eq_ok, columnValue_eq_ok, get_eq_ok, pure_eq_ok]
  constructor
  · rintro ⟨o, _, ⟨ho, rfl⟩, _, _, ⟨rfl, rfl⟩, rfl, rfl⟩
    exact ⟨o, ho, rfl, rfl⟩
  · rintro ⟨o, ho, rfl, rfl⟩
    exact ⟨o, _, ⟨ho, rfl⟩, _, _, ⟨rfl, rfl⟩, rfl, rfl⟩

/-- Only a row that exists is updated. -/
@[simp] theorem updateCredit_eq_ok {c : ℤ} {f : CreditRow → CreditRow} {u : Unit} :
    updateCredit c f db = .ok u db' ↔
      ∃ row, db.credits c = some row ∧ db' = db.writeCredit c (f row) := by
  unfold updateCredit
  rw [bind_eq_ok]
  simp only [get_eq_ok]
  constructor
  · rintro ⟨_, _, ⟨hd, hd'⟩, h⟩
    rw [hd, hd'] at h
    cases hrow : db.credits c with
    | none =>
        rw [hrow] at h
        cases h
    | some row =>
        rw [hrow] at h
        cases h
        exact ⟨row, rfl, rfl⟩
  · rintro ⟨row, hrow, rfl⟩
    refine ⟨db, db, ⟨rfl, rfl⟩, ?_⟩
    rw [hrow]
    rfl

/-- Only an offer that exists is updated. -/
@[simp] theorem updateOffer_eq_ok {o : ℤ} {f : OfferRow → OfferRow} {u : Unit} :
    updateOffer o f db = .ok u db' ↔
      ∃ row, db.offers o = some row ∧ db' = db.writeOffer o (f row) := by
  unfold updateOffer
  rw [bind_eq_ok]
  simp only [get_eq_ok]
  constructor
  · rintro ⟨_, _, ⟨hd, hd'⟩, h⟩
    rw [hd, hd'] at h
    cases hrow : db.offers o with
    | none =>
        rw [hrow] at h
        cases h
    | some row =>
        rw [hrow] at h
        cases h
        exact ⟨row, rfl, rfl⟩
  · rintro ⟨row, hrow, rfl⟩
    refine ⟨db, db, ⟨rfl, rfl⟩, ?_⟩
    rw [hrow]
    rfl

/-- A row is inserted when all its columns fit. -/
@[simp] theorem insert_eq_ok {table : Mirror → α → Mirror} {row : Option α} {u : Unit} :
    insert table row db = .ok u db' ↔ ∃ r, row = some r ∧ db' = table db r := by
  simp only [insert, bind_eq_ok, columnValue_eq_ok, modify_eq_ok]
  constructor
  · rintro ⟨r, _, ⟨hr, rfl⟩, rfl⟩
    exact ⟨r, hr, rfl⟩
  · rintro ⟨r, hr, rfl⟩
    exact ⟨r, _, ⟨hr, rfl⟩, rfl⟩

end Queries

/-! ## Tables after a write -/

section Tables

variable (db : Mirror)

/-- A new user leaves the other tables. -/
@[simp] theorem insertUser_credits (u : String) : (db.insertUser u).credits = db.credits := by
  unfold insertUser
  split_ifs <;> rfl

@[simp] theorem insertUser_offers (u : String) : (db.insertUser u).offers = db.offers := by
  unfold insertUser
  split_ifs <;> rfl

@[simp] theorem insertUser_approvals (u : String) :
    (db.insertUser u).approvals = db.approvals := by
  unfold insertUser
  split_ifs <;> rfl

@[simp] theorem insertUser_trades (u : String) : (db.insertUser u).trades = db.trades := by
  unfold insertUser
  split_ifs <;> rfl

@[simp] theorem insertUser_retirements (u : String) :
    (db.insertUser u).retirements = db.retirements := by
  unfold insertUser
  split_ifs <;> rfl

@[simp] theorem insertUser_bridgeRecords (u : String) :
    (db.insertUser u).bridgeRecords = db.bridgeRecords := by
  unfold insertUser
  split_ifs <;> rfl

end Tables

/-! ## Completed processors -/

section Processors

variable {client : DbClient} {db db' : Mirror}

/-- A submission upserts the credit and its issuer. -/
theorem processCreditSubmitted_eq_ok {e : CreditSubmittedEvent} :
    processCreditSubmitted client e db = .ok () db' ↔
      client.storesText e.issuer = true ∧ ∃ c row, intColumn e.creditId = some c ∧
        submittedRow client e e.issuer = some row ∧
        db' = (db.insertUser e.issuer).upsertCredit c row := by
  simp only [processCreditSubmitted, bind_eq_ok, upsertUser_eq_ok, columnValue_eq_ok,
    modify_eq_ok]
  constructor
  · rintro ⟨_, _, ⟨hissuer, rfl, rfl⟩, c, _, ⟨hc, rfl⟩, row, _, ⟨hrow, rfl⟩, rfl⟩
    exact ⟨hissuer, c, row, hc, hrow, rfl⟩
  · rintro ⟨hissuer, c, row, hc, hrow, rfl⟩
    exact ⟨_, _, ⟨hissuer, rfl, rfl⟩, c, _, ⟨hc, rfl⟩, row, _, ⟨hrow, rfl⟩, rfl⟩

/-- A mint makes the row of the credit active, and fails without one. -/
theorem processCreditMinted_eq_ok {e : CreditMintedEvent} :
    processCreditMinted client e db = .ok () db' ↔
      client.storesText e.tokenId = true ∧ ∃ c row, intColumn e.creditId = some c ∧
        db.credits c = some row ∧
        db' = db.writeCredit c { row with status := .active, tokenId := some e.tokenId } := by
  simp only [processCreditMinted, bind_eq_ok, columnValue_eq_ok, textColumn_eq_some,
    updateCredit_eq_ok]
  constructor
  · rintro ⟨c, _, ⟨hc, rfl⟩, _, _, ⟨⟨htoken, rfl⟩, rfl⟩, row, hrow, rfl⟩
    exact ⟨htoken, c, row, hc, hrow, rfl⟩
  · rintro ⟨htoken, c, row, hc, hrow, rfl⟩
    exact ⟨c, _, ⟨hc, rfl⟩, _, _, ⟨⟨htoken, rfl⟩, rfl⟩, row, hrow, rfl⟩

/-- A transfer gives the row of the credit its new owner, and fails without one. -/
theorem processCreditTransferred_eq_ok {e : CreditTransferredEvent} :
    processCreditTransferred client e db = .ok () db' ↔
      client.storesText e.toAddr = true ∧ ∃ c row, intColumn e.creditId = some c ∧
        db.credits c = some row ∧
        db' = (db.insertUser e.toAddr).writeCredit c { row with owner := e.toAddr } := by
  simp only [processCreditTransferred, bind_eq_ok, upsertUser_eq_ok, columnValue_eq_ok,
    updateCredit_eq_ok]
  constructor
  · rintro ⟨_, _, ⟨howner, rfl, rfl⟩, c, _, ⟨hc, rfl⟩, row, hrow, rfl⟩
    exact ⟨howner, c, row, hc, by simpa using hrow, rfl⟩
  · rintro ⟨howner, c, row, hc, hrow, rfl⟩
    exact ⟨_, _, ⟨howner, rfl, rfl⟩, c, _, ⟨hc, rfl⟩, row, by simpa using hrow, rfl⟩

/-- A processor that looks a credit up does nothing when there is none. -/
@[simp] theorem forCredit_eq_ok {x : JsNumber} {f : ℤ → CreditRow → Db Unit} {u : Unit} :
    forCredit x f db = .ok u db' ↔
      ∃ c, intColumn x = some c ∧ ((db.credits c = none ∧ db' = db) ∨
        ∃ row, db.credits c = some row ∧ f c row db = .ok () db') := by
  simp only [forCredit, bind_eq_ok, findCredit_eq_ok]
  constructor
  · rintro ⟨_, _, ⟨c, hc, rfl, hd⟩, h⟩
    rw [hd] at h
    refine ⟨c, hc, ?_⟩
    cases hrow : db.credits c with
    | none =>
        rw [hrow] at h
        exact Or.inl ⟨rfl, (pure_eq_ok.mp h).2⟩
    | some row =>
        rw [hrow] at h
        exact Or.inr ⟨row, rfl, h⟩
  · rintro ⟨c, hc, ⟨hrow, rfl⟩ | ⟨row, hrow, h⟩⟩
    · refine ⟨none, db', ⟨c, hc, by rw [hrow]; rfl, rfl⟩, ?_⟩
      exact pure_eq_ok.mpr ⟨rfl, rfl⟩
    · exact ⟨some (c, row), db, ⟨c, hc, by rw [hrow]; rfl, rfl⟩, h⟩

/-- A processor that looks a offer up does nothing when there is none. -/
@[simp] theorem forOffer_eq_ok {x : JsNumber} {f : ℤ → OfferRow → Db Unit} {u : Unit} :
    forOffer x f db = .ok u db' ↔
      ∃ c, intColumn x = some c ∧ ((db.offers c = none ∧ db' = db) ∨
        ∃ row, db.offers c = some row ∧ f c row db = .ok () db') := by
  simp only [forOffer, bind_eq_ok, findOffer_eq_ok]
  constructor
  · rintro ⟨_, _, ⟨c, hc, rfl, hd⟩, h⟩
    rw [hd] at h
    refine ⟨c, hc, ?_⟩
    cases hrow : db.offers c with
    | none =>
        rw [hrow] at h
        exact Or.inl ⟨rfl, (pure_eq_ok.mp h).2⟩
    | some row =>
        rw [hrow] at h
        exact Or.inr ⟨row, rfl, h⟩
  · rintro ⟨c, hc, ⟨hrow, rfl⟩ | ⟨row, hrow, h⟩⟩
    · refine ⟨none, db', ⟨c, hc, by rw [hrow]; rfl, rfl⟩, ?_⟩
      exact pure_eq_ok.mpr ⟨rfl, rfl⟩
    · exact ⟨some (c, row), db, ⟨c, hc, by rw [hrow]; rfl, rfl⟩, h⟩

/-- An approval is recorded when the credit is known, and skipped otherwise. -/
theorem processCreditApproved_eq_ok {e : CreditApprovedEvent} :
    processCreditApproved client e db = .ok () db' ↔
      ∃ c, intColumn e.creditId = some c ∧ ((db.credits c = none ∧ db' = db) ∨
        ∃ row comments, db.credits c = some row ∧ client.storesText e.verifier = true ∧
          optionalTextColumn client e.comments = some comments ∧
          db' = (db.insertUser e.verifier).insertApproval
            { creditId := c, verifier := e.verifier, approved := e.approved, comments }) := by
  simp only [processCreditApproved, forCredit_eq_ok, bind_eq_ok, upsertUser_eq_ok, insert_eq_ok,
    Option.map_eq_some_iff]
  refine exists_congr fun c => and_congr_right fun _ => or_congr_right ?_
  constructor
  · rintro ⟨row, hrow, _, _, ⟨hverifier, rfl, rfl⟩, _, ⟨comments, hcomments, rfl⟩, rfl⟩
    exact ⟨row, comments, hrow, hverifier, hcomments, rfl⟩
  · rintro ⟨row, comments, hrow, hverifier, hcomments, rfl⟩
    exact ⟨row, hrow, _, _, ⟨hverifier, rfl, rfl⟩, _, ⟨comments, hcomments, rfl⟩, rfl⟩

/-- A rejection is recorded and rejects the row when the credit is known, and is skipped otherwise.
-/
theorem processCreditRejected_eq_ok {e : CreditRejectedEvent} :
    processCreditRejected client e db = .ok () db' ↔
      ∃ c, intColumn e.creditId = some c ∧ ((db.credits c = none ∧ db' = db) ∨
        ∃ row, db.credits c = some row ∧ client.storesText e.verifier = true ∧
          client.storesText e.reason = true ∧
          db' = ((db.insertUser e.verifier).insertApproval
            { creditId := c, verifier := e.verifier, approved := false,
              comments := some e.reason }).writeCredit c { row with status := .rejected }) := by
  simp only [processCreditRejected, forCredit_eq_ok, bind_eq_ok, upsertUser_eq_ok, insert_eq_ok,
    Option.map_eq_some_iff, textColumn_eq_some, updateCredit_eq_ok]
  refine exists_congr fun c => and_congr_right fun _ => or_congr_right ?_
  constructor
  · rintro ⟨row, hrow, _, _, ⟨hverifier, rfl, rfl⟩, _, _, ⟨_, ⟨_, ⟨hreason, rfl⟩, rfl⟩, rfl⟩,
      row', hrow', rfl⟩
    obtain rfl : row = row' := by simpa [insertApproval, hrow] using hrow'
    exact ⟨row, hrow, hverifier, hreason, rfl⟩
  · rintro ⟨row, hrow, hverifier, hreason, rfl⟩
    exact ⟨row, hrow, _, _, ⟨hverifier, rfl, rfl⟩, (), _, ⟨_, ⟨_, ⟨hreason, rfl⟩, rfl⟩, rfl⟩,
      row, by simpa [insertApproval] using hrow, rfl⟩

/-- A retirement is recorded and retires the row when the credit is known, and is skipped otherwise.
-/
theorem processCreditRetired_eq_ok {e : CreditRetiredEvent} :
    processCreditRetired client e db = .ok () db' ↔
      ∃ c, intColumn e.creditId = some c ∧ ((db.credits c = none ∧ db' = db) ∨
        ∃ row retirement, db.credits c = some row ∧ client.storesText e.retiredBy = true ∧
          retiredRow client e c e.retiredBy = some retirement ∧
          db' = ((db.insertUser e.retiredBy).insertRetirement retirement).writeCredit c
            { row with status := .retired }) := by
  simp only [processCreditRetired, forCredit_eq_ok, bind_eq_ok, upsertUser_eq_ok, insert_eq_ok,
    updateCredit_eq_ok]
  refine exists_congr fun c => and_congr_right fun _ => or_congr_right ?_
  constructor
  · rintro ⟨row, hrow, _, _, ⟨hretirer, rfl, rfl⟩, _, _, ⟨retirement, hretirement, rfl⟩,
      row', hrow', rfl⟩
    obtain rfl : row = row' := by simpa [insertRetirement, hrow] using hrow'
    exact ⟨row, retirement, hrow, hretirer, hretirement, rfl⟩
  · rintro ⟨row, retirement, hrow, hretirer, hretirement, rfl⟩
    exact ⟨row, hrow, _, _, ⟨hretirer, rfl, rfl⟩, (), _, ⟨retirement, hretirement, rfl⟩,
      row, by simpa [insertRetirement] using hrow, rfl⟩

/-- An offer is upserted when its credit is known; the seller is inserted anyway. -/
theorem processOfferCreated_eq_ok {e : OfferCreatedEvent} :
    processOfferCreated client e db = .ok () db' ↔
      client.storesText e.seller = true ∧ ∃ c, intColumn e.creditId = some c ∧
        ((db.credits c = none ∧ db' = db.insertUser e.seller) ∨
          ∃ row o offer, db.credits c = some row ∧ intColumn e.offerId = some o ∧
            offerRow client e c e.seller = some offer ∧
            db' = (db.insertUser e.seller).upsertOffer o offer) := by
  simp only [processOfferCreated, upsertUser_eq_ok, forCredit_eq_ok, bind_eq_ok, columnValue_eq_ok,
    modify_eq_ok]
  constructor
  · rintro ⟨_, _, ⟨hseller, rfl, rfl⟩, c, hc, ⟨hnone, rfl⟩ |
      ⟨row, hrow, o, _, ⟨ho, rfl⟩, offer, _, ⟨hoffer, rfl⟩, rfl⟩⟩
    · exact ⟨hseller, c, hc, Or.inl ⟨by simpa using hnone, rfl⟩⟩
    · exact ⟨hseller, c, hc, Or.inr ⟨row, o, offer, by simpa using hrow, ho, hoffer, rfl⟩⟩
  · rintro ⟨hseller, c, hc, ⟨hnone, rfl⟩ | ⟨row, o, offer, hrow, ho, hoffer, rfl⟩⟩
    · exact ⟨_, _, ⟨hseller, rfl, rfl⟩, c, hc, Or.inl ⟨by simpa using hnone, rfl⟩⟩
    · exact ⟨_, _, ⟨hseller, rfl, rfl⟩, c, hc, Or.inr ⟨row, by simpa using hrow, o, _,
        ⟨ho, rfl⟩, offer, _, ⟨hoffer, rfl⟩, rfl⟩⟩

/-- A cancellation writes the status of the offer, and fails without one. -/
theorem processOfferCancelled_eq_ok {e : OfferCancelledEvent} :
    processOfferCancelled e db = .ok () db' ↔
      ∃ o row, intColumn e.offerId = some o ∧ db.offers o = some row ∧
        db' = db.writeOffer o { row with status := .cancelled } := by
  simp only [processOfferCancelled, bind_eq_ok, columnValue_eq_ok, updateOffer_eq_ok]
  constructor
  · rintro ⟨o, _, ⟨ho, rfl⟩, row, hrow, rfl⟩
    exact ⟨o, row, ho, hrow, rfl⟩
  · rintro ⟨o, row, ho, hrow, rfl⟩
    exact ⟨o, _, ⟨ho, rfl⟩, row, hrow, rfl⟩

/-- A fill of a known offer adds its amount, inserts a trade and gives the credit to the buyer; that
of an unknown offer is skipped. -/
theorem processOfferFilled_eq_ok {e : OfferFilledEvent} :
    processOfferFilled client e db = .ok () db' ↔
      ∃ o, intColumn e.offerId = some o ∧ ((db.offers o = none ∧ db' = db) ∨
        ∃ offer amountFilled trade row, db.offers o = some offer ∧
          client.storesText e.buyer = true ∧
          floatColumn ((JsNumber.finite offer.amountFilled).add e.amount) = some amountFilled ∧
          tradeRow e o offer.creditId e.buyer = some trade ∧
          db.credits offer.creditId = some row ∧
          db' = (((db.insertUser e.buyer).writeOffer o (filledOffer offer
            ((JsNumber.finite offer.amountFilled).add e.amount) amountFilled)).insertTrade
              trade).writeCredit offer.creditId { row with owner := e.buyer }) := by
  simp only [processOfferFilled, forOffer_eq_ok, bind_eq_ok, upsertUser_eq_ok, columnValue_eq_ok,
    updateOffer_eq_ok, insert_eq_ok, updateCredit_eq_ok]
  refine exists_congr fun o => and_congr_right fun _ => or_congr_right ?_
  constructor
  · rintro ⟨offer, hoffer, _, _, ⟨hbuyer, rfl, rfl⟩, filled, _, ⟨hfilled, rfl⟩, _, _,
      ⟨offer', hoffer', rfl⟩, _, _, ⟨trade, htrade, rfl⟩, row, hrow, rfl⟩
    obtain rfl : offer = offer' := by simpa [hoffer] using hoffer'
    exact ⟨offer, filled, trade, row, hoffer, hbuyer, hfilled, htrade,
      by simpa [insertTrade, writeOffer] using hrow, rfl⟩
  · rintro ⟨offer, filled, trade, row, hoffer, hbuyer, hfilled, htrade, hrow, rfl⟩
    exact ⟨offer, hoffer, _, _, ⟨hbuyer, rfl, rfl⟩, filled, _, ⟨hfilled, rfl⟩, (), _,
      ⟨offer, by simpa using hoffer, rfl⟩, (), _, ⟨trade, htrade, rfl⟩, row,
      by simpa [insertTrade, writeOffer] using hrow, rfl⟩

/-- The first record found is updated, and nothing happens without one. -/
@[simp] theorem updateFoundBridge_eq_ok {p : BridgeRow → Bool} {txHash : String}
    {status : BridgeStatus} {u : Unit} :
    updateFoundBridge client p txHash status db = .ok u db' ↔
      (db.bridgeRecords.find? p = none ∧ db' = db) ∨ ∃ record tx,
        db.bridgeRecords.find? p = some record ∧ newTxHash client txHash record = some tx ∧
        db' = db.updateBridge p fun record => { record with status := status, txHash := tx } := by
  simp only [updateFoundBridge, bind_eq_ok, get_eq_ok]
  constructor
  · rintro ⟨_, _, ⟨hd, hd'⟩, h⟩
    rw [hd, hd'] at h
    cases hfind : db.bridgeRecords.find? p with
    | none =>
        rw [hfind] at h
        exact Or.inl ⟨rfl, (pure_eq_ok.mp h).2⟩
    | some record =>
        rw [hfind] at h
        obtain ⟨tx, _, hcolumn, hset⟩ := bind_eq_ok.mp h
        obtain ⟨htx, rfl⟩ := columnValue_eq_ok.mp hcolumn
        cases hset
        exact Or.inr ⟨record, tx, rfl, htx, rfl⟩
  · rintro (⟨hnone, rfl⟩ | ⟨record, tx, hrecord, htx, rfl⟩)
    · refine ⟨_, _, ⟨rfl, rfl⟩, ?_⟩
      rw [hnone]
      exact pure_eq_ok.mpr ⟨rfl, rfl⟩
    · refine ⟨_, _, ⟨rfl, rfl⟩, ?_⟩
      rw [hrecord]
      exact bind_eq_ok.mpr ⟨tx, db, columnValue_eq_ok.mpr ⟨htx, rfl⟩, rfl⟩

/-- An import updates the record of its registry and serial, if there is one. -/
theorem processCreditBridged_eq_ok {e : CreditBridgedEvent} :
    processCreditBridged client e db = .ok () db' ↔
      client.storesText e.sourceRegistry = true ∧ client.storesText e.sourceSerial = true ∧
        updateFoundBridge client (ofSource e.sourceRegistry e.sourceSerial) e.txHash .inbound db
          = .ok () db' := by
  simp only [processCreditBridged, bind_eq_ok, columnValue_eq_ok, textColumn_eq_some]
  constructor
  · rintro ⟨_, _, ⟨⟨hregistry, rfl⟩, rfl⟩, _, _, ⟨⟨hserial, rfl⟩, rfl⟩, h⟩
    exact ⟨hregistry, hserial, h⟩
  · rintro ⟨hregistry, hserial, h⟩
    exact ⟨_, _, ⟨⟨hregistry, rfl⟩, rfl⟩, _, _, ⟨⟨hserial, rfl⟩, rfl⟩, h⟩

/-- A return retires the row of the credit and updates its record, if there is one. -/
theorem processCreditBridgedOut_eq_ok {e : CreditBridgedOutEvent} :
    processCreditBridgedOut client e db = .ok () db' ↔
      ∃ c row, intColumn e.creditId = some c ∧ db.credits c = some row ∧
        updateFoundBridge client (ofCredit c) e.txHash .outbound
          (db.writeCredit c { row with status := .retired }) = .ok () db' := by
  simp only [processCreditBridgedOut, bind_eq_ok, columnValue_eq_ok, updateCredit_eq_ok]
  constructor
  · rintro ⟨c, _, ⟨hc, rfl⟩, _, _, ⟨row, hrow, rfl⟩, h⟩
    exact ⟨c, row, hc, hrow, h⟩
  · rintro ⟨c, row, hc, hrow, h⟩
    exact ⟨c, _, ⟨hc, rfl⟩, (), _, ⟨row, hrow, rfl⟩, h⟩

/-- A list of events is processed one after the other. -/
theorem processAll_cons_eq_ok {e : SyncEvent} {events : List SyncEvent} :
    processAll client (e :: events) db = .ok () db' ↔
      ∃ db₁, processEvent client e db = .ok () db₁ ∧ processAll client events db₁ = .ok () db' := by
  simp only [processAll, bind_eq_ok]
  constructor
  · rintro ⟨_, db₁, h, hrest⟩
    exact ⟨db₁, h, hrest⟩
  · rintro ⟨db₁, h, hrest⟩
    exact ⟨(), db₁, h, hrest⟩

/-- No events leave the database. -/
@[simp] theorem processAll_nil_eq_ok : processAll client [] db = .ok () db' ↔ db' = db := by
  simp [processAll]

/-- A sequence of events is processed part by part. -/
theorem processAll_append_eq_ok {events rest : List SyncEvent} :
    processAll client (events ++ rest) db = .ok () db' ↔
      ∃ db₁, processAll client events db = .ok () db₁ ∧
        processAll client rest db₁ = .ok () db' := by
  induction events generalizing db with
  | nil => simp
  | cons e events ih =>
      rw [List.cons_append, processAll_cons_eq_ok]
      constructor
      · rintro ⟨db₁, he, h⟩
        obtain ⟨db₂, hevents, hrest⟩ := ih.mp h
        exact ⟨db₂, processAll_cons_eq_ok.mpr ⟨db₁, he, hevents⟩, hrest⟩
      · rintro ⟨db₂, h, hrest⟩
        obtain ⟨db₁, he, hevents⟩ := processAll_cons_eq_ok.mp h
        exact ⟨db₁, he, ih.mpr ⟨db₂, hevents, hrest⟩⟩

end Processors

end Mirror

end CarbonVeritas
