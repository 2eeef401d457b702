/-
# When an event is processed

An event of a credit is processed exactly when its values fit their columns (`Fits`), as long
as the row that it updates is stored and there are no bridge records
(`processEvent_completes_iff`).  The four events that set a status write it to that row and
keep its owner (`processEvent_setStatus`).

Bridge records are inserted by the API alone, so a database that only processed events has
none (`processEvent_bridgeRecords`).
-/
import CarbonVeritas.MirrorReplay

namespace CarbonVeritas

namespace Mirror

/-! ## Columns of the chain's values -/

/-- A natural number fits its column below `2^31`. -/
theorem intColumn_natCast (n : ℕ) :
    intColumn (.finite n) = if n < 2 ^ 31 then some (n : ℤ) else none := by
  unfold intColumn
  have hden : ((n : ℕ) : ℚ).den = 1 := Rat.den_natCast n
  have hnum : ((n : ℕ) : ℚ).num = n := Rat.num_natCast n
  dsimp only
  rw [hden, hnum]
  by_cases hn : n < 2 ^ 31
  · rw [if_pos hn, if_pos ⟨rfl, by omega, by omega⟩]
  · rw [if_neg hn, if_neg (by omega)]

/-- A number that fits is stored as it is. -/
theorem eq_of_intColumn_natCast {n : ℕ} {c : ℤ} (h : intColumn (.finite n) = some c) : c = n := by
  rw [intColumn_natCast] at h
  split at h
  · exact (Option.some.inj h).symm
  · cases h

/-! ## Values that fit -/

/-- The values of an event of a credit fit their columns; the events of offers are left out. -/
def Fits (client : DbClient) : SyncEvent → Prop
  | .creditSubmitted e =>
      client.storesText e.issuer = true ∧ (intColumn e.creditId).isSome = true ∧
        (submittedRow client e e.issuer).isSome = true
  | .creditApproved e =>
      (intColumn e.creditId).isSome = true ∧ client.storesText e.verifier = true ∧
        (optionalTextColumn client e.comments).isSome = true
  | .creditMinted e => client.storesText e.tokenId = true ∧ (intColumn e.creditId).isSome = true
  | .creditRejected e =>
      (intColumn e.creditId).isSome = true ∧ client.storesText e.verifier = true ∧
        client.storesText e.reason = true
  | .creditTransferred e =>
      client.storesText e.toAddr = true ∧ (intColumn e.creditId).isSome = true
  | .creditRetired e =>
      client.storesText e.retiredBy = true ∧
        ((intColumn e.creditId).bind fun c => retiredRow client e c e.retiredBy).isSome = true
  | .creditBridged e =>
      client.storesText e.sourceRegistry = true ∧ client.storesText e.sourceSerial = true
  | .creditBridgedOut e => (intColumn e.creditId).isSome = true
  | .registryRootUpdated _ => True
  | .offerCreated _ => False
  | .offerFilled _ => False
  | .offerCancelled _ => False

instance (client : DbClient) (e : SyncEvent) : Decidable (Fits client e) :=
  match e with
  | .creditSubmitted _ => inferInstanceAs (Decidable (_ ∧ _ ∧ _))
  | .creditApproved _ => inferInstanceAs (Decidable (_ ∧ _ ∧ _))
  | .creditMinted _ => inferInstanceAs (Decidable (_ ∧ _))
  | .creditRejected _ => inferInstanceAs (Decidable (_ ∧ _ ∧ _))
  | .creditTransferred _ => inferInstanceAs (Decidable (_ ∧ _))
  | .creditRetired _ => inferInstanceAs (Decidable (_ ∧ _))
  | .creditBridged _ => inferInstanceAs (Decidable (_ ∧ _))
  | .creditBridgedOut _ => inferInstanceAs (Decidable (_ = _))
  | .registryRootUpdated _ => inferInstanceAs (Decidable True)
  | .offerCreated _ => inferInstanceAs (Decidable False)
  | .offerFilled _ => inferInstanceAs (Decidable False)
  | .offerCancelled _ => inferInstanceAs (Decidable False)

/-- The credit has a row, if its number fits the column. -/
def HasRow (db : Mirror) (creditId : JsNumber) : Prop :=
  ∀ c, intColumn creditId = some c → ∃ row, db.credits c = some row

/-- The event is one of a credit, and the row that it is about is stored. -/
def Known (db : Mirror) : SyncEvent → Prop
  | .creditSubmitted _ => True
  | .creditApproved e => db.HasRow e.creditId
  | .creditMinted e => db.HasRow e.creditId
  | .creditRejected e => db.HasRow e.creditId
  | .creditTransferred e => db.HasRow e.creditId
  | .creditRetired e => db.HasRow e.creditId
  | .creditBridged _ => True
  | .creditBridgedOut e => db.HasRow e.creditId
  | .registryRootUpdated _ => True
  | .offerCreated _ => False
  | .offerFilled _ => False
  | .offerCancelled _ => False

section Completion

variable {client : DbClient} {db db' : Mirror} {e : SyncEvent}

/-! ### One event

The row that an event is about is stored, so that only its values can be refused. -/

/-- A submission is processed when its columns fit. -/
theorem processCreditSubmitted_completes_iff {e : CreditSubmittedEvent} :
    (∃ db', processCreditSubmitted client e db = .ok () db') ↔
      Fits client (.creditSubmitted e) := by
  constructor
  · rintro ⟨_, h⟩
    obtain ⟨hissuer, c, row, hc, hrow, -⟩ := processCreditSubmitted_eq_ok.mp h
    exact ⟨hissuer, by rw [hc]; rfl, by rw [hrow]; rfl⟩
  · rintro ⟨hissuer, hc, hrow⟩
    obtain ⟨c, hc⟩ := Option.isSome_iff_exists.mp hc
    obtain ⟨row, hrow⟩ := Option.isSome_iff_exists.mp hrow
    exact ⟨_, processCreditSubmitted_eq_ok.mpr ⟨hissuer, c, row, hc, hrow, rfl⟩⟩

/-- An approval of a known credit is processed when its columns fit. -/
theorem processCreditApproved_completes_iff {e : CreditApprovedEvent}
    (hknown : db.HasRow e.creditId) :
    (∃ db', processCreditApproved client e db = .ok () db') ↔ Fits client (.creditApproved e) := by
  constructor
  · rintro ⟨_, h⟩
    obtain ⟨c, hc, hcases⟩ := processCreditApproved_eq_ok.mp h
    obtain ⟨row, hrow⟩ := hknown c hc
    rcases hcases with ⟨hnone, -⟩ | ⟨_, comments, -, hverifier, hcomments, -⟩
    · rw [hrow] at hnone
      cases hnone
    · exact ⟨by rw [hc]; rfl, hverifier, by rw [hcomments]; rfl⟩
  · rintro ⟨hc, hverifier, hcomments⟩
    obtain ⟨c, hc⟩ := Option.isSome_iff_exists.mp hc
    obtain ⟨comments, hcomments⟩ := Option.isSome_iff_exists.mp hcomments
    obtain ⟨row, hrow⟩ := hknown c hc
    exact ⟨_, processCreditApproved_eq_ok.mpr
      ⟨c, hc, Or.inr ⟨row, comments, hrow, hverifier, hcomments, rfl⟩⟩⟩

/-- So is the mint of a known credit. -/
theorem processCreditMinted_completes_iff {e : CreditMintedEvent} (hknown : db.HasRow e.creditId) :
    (∃ db', processCreditMinted client e db = .ok () db') ↔ Fits client (.creditMinted e) := by
  constructor
  · rintro ⟨_, h⟩
    obtain ⟨htoken, c, row, hc, -, -⟩ := processCreditMinted_eq_ok.mp h
    exact ⟨htoken, by rw [hc]; rfl⟩
  · rintro ⟨htoken, hc⟩
    obtain ⟨c, hc⟩ := Option.isSome_iff_exists.mp hc
    obtain ⟨row, hrow⟩ := hknown c hc
    exact ⟨_, processCreditMinted_eq_ok.mpr ⟨htoken, c, row, hc, hrow, rfl⟩⟩

/-- So is the rejection of a known credit. -/
theorem processCreditRejected_completes_iff {e : CreditRejectedEvent}
    (hknown : db.HasRow e.creditId) :
    (∃ db', processCreditRejected client e db = .ok () db') ↔ Fits client (.creditRejected e) := by
  constructor
  · rintro ⟨_, h⟩
    obtain ⟨c, hc, hcases⟩ := processCreditRejected_eq_ok.mp h
    obtain ⟨row, hrow⟩ := hknown c hc
    rcases hcases with ⟨hnone, -⟩ | ⟨_, -, hverifier, hreason, -⟩
    · rw [hrow] at hnone
      cases hnone
    · exact ⟨by rw [hc]; rfl, hverifier, hreason⟩
  · rintro ⟨hc, hverifier, hreason⟩
    obtain ⟨c, hc⟩ := Option.isSome_iff_exists.mp hc
    obtain ⟨row, hrow⟩ := hknown c hc
    exact ⟨_, processCreditRejected_eq_ok.mpr
      ⟨c, hc, Or.inr ⟨row, hrow, hverifier, hreason, rfl⟩⟩⟩

/-- So is the transfer of a known credit. -/
theorem processCreditTransferred_completes_iff {e : CreditTransferredEvent}
    (hknown : db.HasRow e.creditId) :
    (∃ db', processCreditTransferred client e db = .ok () db') ↔
      Fits client (.creditTransferred e) := by
  constructor
  · rintro ⟨_, h⟩
    obtain ⟨howner, c, row, hc, -, -⟩ := processCreditTransferred_eq_ok.mp h
    exact ⟨howner, by rw [hc]; rfl⟩
  · rintro ⟨howner, hc⟩
    obtain ⟨c, hc⟩ := Option.isSome_iff_exists.mp hc
    obtain ⟨row, hrow⟩ := hknown c hc
    exact ⟨_, processCreditTransferred_eq_ok.mpr ⟨howner, c, row, hc, hrow, rfl⟩⟩

/-- So is the retirement of a known credit. -/
theorem processCreditRetired_completes_iff {e : CreditRetiredEvent}
    (hknown : db.HasRow e.creditId) :
    (∃ db', processCreditRetired client e db = .ok () db') ↔ Fits client (.creditRetired e) := by
  constructor
  · rintro ⟨_, h⟩
    obtain ⟨c, hc, hcases⟩ := processCreditRetired_eq_ok.mp h
    obtain ⟨row, hrow⟩ := hknown c hc
    rcases hcases with ⟨hnone, -⟩ | ⟨_, retirement, -, hretirer, hretirement, -⟩
    · rw [hrow] at hnone
      cases hnone
    · exact ⟨hretirer, by rw [hc, Option.bind_some, hretirement]; rfl⟩
  · rintro ⟨hretirer, hsome⟩
    obtain ⟨retirement, hretirement⟩ := Option.isSome_iff_exists.mp hsome
    obtain ⟨c, hc, hretirement⟩ := Option.bind_eq_some_iff.mp hretirement
    obtain ⟨row, hrow⟩ := hknown c hc
    exact ⟨_, processCreditRetired_eq_ok.mpr
      ⟨c, hc, Or.inr ⟨row, retirement, hrow, hretirer, hretirement, rfl⟩⟩⟩

/-- Without bridge records, an import is processed when its texts fit. -/
theorem processCreditBridged_completes_iff {e : CreditBridgedEvent}
    (hbridge : db.bridgeRecords = []) :
    (∃ db', processCreditBridged client e db = .ok () db') ↔ Fits client (.creditBridged e) := by
  constructor
  · rintro ⟨_, h⟩
    obtain ⟨hregistry, hserial, -⟩ := processCreditBridged_eq_ok.mp h
    exact ⟨hregistry, hserial⟩
  · rintro ⟨hregistry, hserial⟩
    exact ⟨db, processCreditBridged_eq_ok.mpr ⟨hregistry, hserial,
      updateFoundBridge_eq_ok.mpr (Or.inl ⟨by rw [hbridge]; rfl, rfl⟩)⟩⟩

/-- Without bridge records, the return of a known credit is processed when its columns fit. -/
theorem processCreditBridgedOut_completes_iff {e : CreditBridgedOutEvent}
    (hknown : db.HasRow e.creditId)
    (hbridge : db.bridgeRecords = []) :
    (∃ db', processCreditBridgedOut client e db = .ok () db') ↔
      Fits client (.creditBridgedOut e) := by
  constructor
  · rintro ⟨_, h⟩
    obtain ⟨c, row, hc, -, -⟩ := processCreditBridgedOut_eq_ok.mp h
    show (intColumn e.creditId).isSome = true
    rw [hc]
    rfl
  · intro hc
    obtain ⟨c, hc⟩ := Option.isSome_iff_exists.mp hc
    obtain ⟨row, hrow⟩ := hknown c hc
    refine ⟨_, processCreditBridgedOut_eq_ok.mpr ⟨c, row, hc, hrow,
      updateFoundBridge_eq_ok.mpr (Or.inl ⟨?_, rfl⟩)⟩⟩
    show db.bridgeRecords.find? _ = none
    rw [hbridge]
    rfl

/-- **Completion.**  An event about a stored row is processed exactly when it fits. -/
theorem processEvent_completes_iff (hknown : db.Known e) (hbridge : db.bridgeRecords = []) :
    (∃ db', processEvent client e db = .ok () db') ↔ Fits client e := by
  cases e with
  | creditSubmitted e => exact processCreditSubmitted_completes_iff
  | creditApproved e => exact processCreditApproved_completes_iff hknown
  | creditMinted e => exact processCreditMinted_completes_iff hknown
  | creditRejected e => exact processCreditRejected_completes_iff hknown
  | creditTransferred e => exact processCreditTransferred_completes_iff hknown
  | creditRetired e => exact processCreditRetired_completes_iff hknown
  | creditBridged e => exact processCreditBridged_completes_iff hbridge
  | creditBridgedOut e => exact processCreditBridgedOut_completes_iff hknown hbridge
  | registryRootUpdated e => exact iff_of_true ⟨db, pure_eq_ok.mpr ⟨rfl, rfl⟩⟩ trivial
  | offerCreated e => exact absurd hknown id
  | offerFilled e => exact absurd hknown id
  | offerCancelled e => exact absurd hknown id

end Completion

/-! ## What an event leaves -/

/-- The status that an event sets, with the number of the credit. -/
def setStatus : SyncEvent → Option (JsNumber × CreditStatus)
  | .creditMinted e => some (e.creditId, .active)
  | .creditRejected e => some (e.creditId, .rejected)
  | .creditRetired e => some (e.creditId, .retired)
  | .creditBridgedOut e => some (e.creditId, .retired)
  | _ => none

section Effects

variable {client : DbClient} {db db' : Mirror} {e : SyncEvent}

/-- Processing events leaves a database without bridge records without them. -/
theorem processAll_bridgeRecords {events : List SyncEvent}
    (h : processAll client events db = .ok () db') (hbridge : db.bridgeRecords = []) :
    db'.bridgeRecords = [] := by
  have hkeys := (processAll_grown h).records
  rw [hbridge, List.map_nil, List.map_eq_nil_iff] at hkeys
  exact hkeys

/-- No event makes a bridge record. -/
theorem processEvent_bridgeRecords (h : processEvent client e db = .ok () db')
    (hbridge : db.bridgeRecords = []) : db'.bridgeRecords = [] := by
  have hall : processAll client [e] db = .ok () db' :=
    processAll_cons_eq_ok.mpr ⟨db', h, processAll_nil_eq_ok.mpr rfl⟩
  exact processAll_bridgeRecords hall hbridge

/-- An event that sets a status writes it to the row of its credit. -/
theorem processEvent_setStatus {x : JsNumber} {status : CreditStatus} {c : ℤ} {row : CreditRow}
    (hset : setStatus e = some (x, status)) (hc : ∀ c', intColumn x = some c' → c' = c)
    (hrow : db.credits c = some row) (hbridge : db.bridgeRecords = [])
    (h : processEvent client e db = .ok () db') :
    ∃ row', db'.credits = Function.update db.credits c (some row') ∧ row'.status = status ∧
      row'.owner = row.owner := by
  have hsame : ∀ {r}, db.credits c = some r → r = row :=
    fun hr => Option.some.inj (hr.symm.trans hrow)
  -- the four processors that set a status, and no other
  cases e with
  | creditMinted e =>
      cases hset
      obtain ⟨-, c', r, hc', hr, rfl⟩ := processCreditMinted_eq_ok.mp h
      obtain rfl := hc c' hc'
      obtain rfl := hsame hr
      exact ⟨_, rfl, rfl, rfl⟩
  | creditRejected e =>
      cases hset
      obtain ⟨c', hc', ⟨hnone, -⟩ | ⟨r, hr, -, -, rfl⟩⟩ := processCreditRejected_eq_ok.mp h
      · obtain rfl := hc c' hc'
        rw [hrow] at hnone
        cases hnone
      · obtain rfl := hc c' hc'
        obtain rfl := hsame hr
        exact ⟨{ r with status := .rejected }, by simp [writeCredit, insertApproval], rfl, rfl⟩
  | creditRetired e =>
      cases hset
      obtain ⟨c', hc', ⟨hnone, -⟩ | ⟨r, _, hr, -, -, rfl⟩⟩ := processCreditRetired_eq_ok.mp h
      · obtain rfl := hc c' hc'
        rw [hrow] at hnone
        cases hnone
      · obtain rfl := hc c' hc'
        obtain rfl := hsame hr
        exact ⟨{ r with status := .retired }, by simp [writeCredit, insertRetirement], rfl, rfl⟩
  | creditBridgedOut e =>
      cases hset
      obtain ⟨c', r, hc', hr, hfound⟩ := processCreditBridgedOut_eq_ok.mp h
      obtain rfl := hc c' hc'
      obtain rfl := hsame hr
      rcases updateFoundBridge_eq_ok.mp hfound with ⟨-, rfl⟩ | ⟨record, _, hrecord, -, -⟩
      · exact ⟨_, rfl, rfl, rfl⟩
      · change db.bridgeRecords.find? _ = some record at hrecord
        rw [hbridge] at hrecord
        cases hrecord
  | _ => cases hset

/-- The submission of a new credit stores its row. -/
theorem credits_of_submitted {e : CreditSubmittedEvent} {c : ℤ}
    (h : processEvent client (.creditSubmitted e) db = .ok () db')
    (hc : ∀ c', intColumn e.creditId = some c' → c' = c) (hnew : db.credits c = none) :
    ∃ row, db'.credits = Function.update db.credits c (some row) ∧ row.status = .pending ∧
      row.owner = e.issuer := by
  obtain ⟨-, c', row, hc', hrow, rfl⟩ := processCreditSubmitted_eq_ok.mp h
  obtain rfl := hc c' hc'
  refine ⟨row, ?_, submittedRow_written hrow⟩
  simp [upsertCredit, writeCredit, hnew]

/-- An approval leaves the credits as they are. -/
theorem credits_of_approved {e : CreditApprovedEvent}
    (h : processEvent client (.creditApproved e) db = .ok () db') : db'.credits = db.credits := by
  obtain ⟨c, -, ⟨-, rfl⟩ | ⟨_, _, -, -, -, rfl⟩⟩ := processCreditApproved_eq_ok.mp h
  · rfl
  · simp [insertApproval]

/-- A transfer writes the new owner to the row. -/
theorem credits_of_transferred {e : CreditTransferredEvent} {c : ℤ} {row : CreditRow}
    (h : processEvent client (.creditTransferred e) db = .ok () db')
    (hc : ∀ c', intColumn e.creditId = some c' → c' = c) (hrow : db.credits c = some row) :
    db'.credits = Function.update db.credits c (some { row with owner := e.toAddr }) := by
  obtain ⟨-, c', r, hc', hr, rfl⟩ := processCreditTransferred_eq_ok.mp h
  obtain rfl := hc c' hc'
  obtain rfl : r = row := Option.some.inj (hr.symm.trans hrow)
  simp [writeCredit]

/-- Rewriting a stored row stores no new one. -/
theorem isSome_of_writeCredit {d : Mirror} {c x : ℤ} {row row' : CreditRow}
    (hsame : d.credits = db.credits) (hrow : db.credits c = some row)
    (hx : ((d.writeCredit c row').credits x).isSome = true) : (db.credits x).isSome = true := by
  change (Function.update d.credits c (some row') x).isSome = true at hx
  by_cases hxc : x = c
  · rw [hxc, hrow]
    rfl
  · rwa [Function.update_of_ne hxc, hsame] at hx

/-- Only a submission stores a new row. -/
theorem processEvent_rows (h : processEvent client e db = .ok () db') {c : ℤ}
    (hc : (db'.credits c).isSome = true) :
    (db.credits c).isSome = true ∨
      ∃ data, e = .creditSubmitted data ∧ intColumn data.creditId = some c := by
  -- every other processor updates a row that it has found
  cases e with
  | creditSubmitted e =>
      obtain ⟨-, x, row, hx, -, rfl⟩ := processCreditSubmitted_eq_ok.mp h
      by_cases hcx : c = x
      · exact Or.inr ⟨e, rfl, by rw [hx, hcx]⟩
      · refine Or.inl ?_
        simpa [upsertCredit, writeCredit, Function.update_of_ne hcx] using hc
  | creditApproved e =>
      obtain ⟨x, -, ⟨-, rfl⟩ | ⟨_, _, -, -, -, rfl⟩⟩ := processCreditApproved_eq_ok.mp h
      · exact Or.inl hc
      · exact Or.inl (by simpa [insertApproval] using hc)
  | creditMinted e =>
      obtain ⟨-, x, row, -, hrow, rfl⟩ := processCreditMinted_eq_ok.mp h
      exact Or.inl (isSome_of_writeCredit rfl hrow hc)
  | creditRejected e =>
      obtain ⟨x, -, ⟨-, rfl⟩ | ⟨row, hrow, -, -, rfl⟩⟩ := processCreditRejected_eq_ok.mp h
      · exact Or.inl hc
      · exact Or.inl (isSome_of_writeCredit (by simp [insertApproval]) hrow hc)
  | creditTransferred e =>
      obtain ⟨-, x, row, -, hrow, rfl⟩ := processCreditTransferred_eq_ok.mp h
      exact Or.inl (isSome_of_writeCredit (by simp) hrow hc)
  | creditRetired e =>
      obtain ⟨x, -, ⟨-, rfl⟩ | ⟨row, _, hrow, -, -, rfl⟩⟩ := processCreditRetired_eq_ok.mp h
      · exact Or.inl hc
      · exact Or.inl (isSome_of_writeCredit (by simp [insertRetirement]) hrow hc)
  | offerCreated e =>
      obtain ⟨-, x, -, ⟨-, rfl⟩ | ⟨_, _, _, -, -, -, rfl⟩⟩ := processOfferCreated_eq_ok.mp h
      · exact Or.inl (by simpa using hc)
      · exact Or.inl (by simpa [upsertOffer, writeOffer] using hc)
  | offerFilled e =>
      obtain ⟨o, -, ⟨-, rfl⟩ | ⟨_, _, _, row, -, -, -, -, hrow, rfl⟩⟩ :=
        processOfferFilled_eq_ok.mp h
      · exact Or.inl hc
      · exact Or.inl (isSome_of_writeCredit (by simp [writeOffer, insertTrade]) hrow hc)
  | offerCancelled e =>
      obtain ⟨o, row, -, -, rfl⟩ := processOfferCancelled_eq_ok.mp h
      exact Or.inl hc
  | creditBridged e =>
      obtain ⟨-, -, hfound⟩ := processCreditBridged_eq_ok.mp h
      rcases updateFoundBridge_eq_ok.mp hfound with ⟨-, rfl⟩ | ⟨_, _, -, -, rfl⟩
      · exact Or.inl hc
      · exact Or.inl hc
  | creditBridgedOut e =>
      obtain ⟨x, row, -, hrow, hfound⟩ := processCreditBridgedOut_eq_ok.mp h
      rcases updateFoundBridge_eq_ok.mp hfound with ⟨-, rfl⟩ | ⟨_, _, -, -, rfl⟩
      · exact Or.inl (isSome_of_writeCredit rfl hrow hc)
      · exact Or.inl (isSome_of_writeCredit rfl hrow hc)
  | registryRootUpdated e =>
      obtain ⟨-, rfl⟩ := pure_eq_ok.mp h
      exact Or.inl hc

/-- Only a submission makes a row of a credit. -/
theorem processAll_rows {events : List SyncEvent} (h : processAll client events db = .ok () db')
    {c : ℤ} (hc : (db'.credits c).isSome = true) :
    (db.credits c).isSome = true ∨
      ∃ data, .creditSubmitted data ∈ events ∧ intColumn data.creditId = some c := by
  induction events generalizing db with
  | nil =>
      rw [processAll_nil_eq_ok.mp h] at hc
      exact Or.inl hc
  | cons e events ih =>
      obtain ⟨db₁, he, hevents⟩ := processAll_cons_eq_ok.mp h
      rcases ih hevents with hold | ⟨data, hmem, hdata⟩
      · rcases processEvent_rows he hold with hfirst | ⟨data, rfl, hdata⟩
        · exact Or.inl hfirst
        · exact Or.inr ⟨data, List.mem_cons_self, hdata⟩
      · exact Or.inr ⟨data, List.mem_cons_of_mem e hmem, hdata⟩

end Effects

end Mirror

end CarbonVeritas
