/-
# Replaying events

A segment of the events that the database has already processed is processed again.
`replay_unchanged_iff` says when this changes nothing that the mirror shows: the statuses and
owners of the credits, the statuses and fills of the offers, and the numbers of approvals,
trades and retirements (`SameMirror`).

The processors that only insert or add (approvals, rejections, retirements, fills) must find
nothing to do, an offer must not be created late, and the last write of the segment to each
status and owner must be the one that the database shows (`Replayable`).

Rows never disappear (`Grown`), so what the first pass found the replay finds too.  A replay
that inserts nothing only rewrites statuses and owners, which `Replayed` says for one event and
`replayed_all` for a list.
-/
import CarbonVeritas.MirrorSpec

namespace CarbonVeritas

/-! ## The last write of a list -/

section LastWrite

variable {α ε : Type}

/-- The last of the values that the members of a list write. -/
def lastWrite (w : ε → Option α) (events : List ε) : Option α :=
  (events.filterMap w).getLast?

@[simp] theorem lastWrite_nil (w : ε → Option α) : lastWrite w [] = none := rfl

/-- The last write comes from the later events, if these write. -/
theorem lastWrite_cons (w : ε → Option α) (e : ε) (events : List ε) :
    lastWrite w (e :: events) = (lastWrite w events).or (w e) := by
  unfold lastWrite
  cases hw : w e with
  | none => rw [List.filterMap_cons_none hw, Option.or_none]
  | some y =>
      rw [List.filterMap_cons_some hw, List.getLast?_cons]
      cases (List.filterMap w events).getLast? <;> rfl

/-- A write of the second part hides those of the first. -/
theorem lastWrite_append (w : ε → Option α) (events rest : List ε) :
    lastWrite w (events ++ rest) = (lastWrite w rest).or (lastWrite w events) := by
  unfold lastWrite
  rw [List.filterMap_append, List.getLast?_append]

@[simp] theorem lastWrite_singleton (w : ε → Option α) (e : ε) : lastWrite w [e] = w e := by
  rw [lastWrite_cons, lastWrite_nil, Option.none_or]

/-- A last write leaves what was there only when it writes just that. -/
theorem or_eq_self_iff {x y : Option α} : x.or y = y ↔ ∀ a, x = some a → y = some a := by
  cases x with
  | none => simp
  | some a => simp [eq_comm]

end LastWrite

/-- The columns by which the processors find a bridge record. -/
def BridgeRow.key (r : BridgeRow) : ℤ × String × String :=
  (r.creditId, r.sourceRegistry, r.sourceSerial)

namespace Mirror

/-! ## Growth -/

/-- Rows do not disappear, and bridge records keep their keys. -/
structure Grown (db db' : Mirror) : Prop where
  credits : ∀ c, (db.credits c).isSome = true → (db'.credits c).isSome = true
  offers : ∀ o, (db.offers o).isSome = true → (db'.offers o).isSome = true
  records : db'.bridgeRecords.map BridgeRow.key = db.bridgeRecords.map BridgeRow.key
  approvals : db.approvals.length ≤ db'.approvals.length
  trades : db.trades.length ≤ db'.trades.length
  retirements : db.retirements.length ≤ db'.retirements.length

theorem Grown.refl (db : Mirror) : Grown db db :=
  ⟨fun _ h => h, fun _ h => h, rfl, le_rfl, le_rfl, le_rfl⟩

/-- Rows that stay twice stay. -/
theorem Grown.trans {a b c : Mirror} (h : Grown a b) (h' : Grown b c) : Grown a c where
  credits x hx := h'.credits x (h.credits x hx)
  offers x hx := h'.offers x (h.offers x hx)
  records := h'.records.trans h.records
  approvals := h.approvals.trans h'.approvals
  trades := h.trades.trans h'.trades
  retirements := h.retirements.trans h'.retirements

section Writes

variable (db : Mirror)

/-- A new user removes nothing. -/
theorem grown_insertUser (u : String) : Grown db (db.insertUser u) := by
  constructor <;> simp

/-- Writing a credit removes nothing. -/
theorem grown_writeCredit (c : ℤ) (row : CreditRow) : Grown db (db.writeCredit c row) := by
  refine ⟨fun x hx => ?_, fun _ h => h, rfl, le_rfl, le_rfl, le_rfl⟩
  unfold writeCredit
  by_cases hxc : x = c
  · simp [hxc]
  · simpa [Function.update_of_ne hxc] using hx

/-- Writing an offer removes nothing. -/
theorem grown_writeOffer (o : ℤ) (row : OfferRow) : Grown db (db.writeOffer o row) := by
  refine ⟨fun _ h => h, fun x hx => ?_, rfl, le_rfl, le_rfl, le_rfl⟩
  unfold writeOffer
  by_cases hxo : x = o
  · simp [hxo]
  · simpa [Function.update_of_ne hxo] using hx

/-- A new vote removes nothing. -/
theorem grown_insertApproval (row : ApprovalRow) : Grown db (db.insertApproval row) :=
  ⟨fun _ h => h, fun _ h => h, rfl, by simp [insertApproval], le_rfl, le_rfl⟩

/-- A new trade removes nothing. -/
theorem grown_insertTrade (row : TradeRow) : Grown db (db.insertTrade row) :=
  ⟨fun _ h => h, fun _ h => h, rfl, le_rfl, by simp [insertTrade], le_rfl⟩

/-- A new retirement removes nothing. -/
theorem grown_insertRetirement (row : RetirementRow) : Grown db (db.insertRetirement row) :=
  ⟨fun _ h => h, fun _ h => h, rfl, le_rfl, le_rfl, by simp [insertRetirement]⟩

/-- An update of a bridge record keeps the keys. -/
theorem records_updateBridge (p : BridgeRow → Bool) (status : BridgeStatus) (tx : String) :
    (db.updateBridge p fun r => { r with status := status, txHash := tx }).bridgeRecords.map
      BridgeRow.key = db.bridgeRecords.map BridgeRow.key := by
  unfold updateBridge
  dsimp only
  cases db.bridgeRecords.findIdx? p with
  | none => rfl
  | some i =>
      dsimp only
      refine List.ext_getElem? fun j => ?_
      rw [List.getElem?_map, List.getElem?_map, List.getElem?_modify]
      cases db.bridgeRecords[j]? with
      | none => rfl
      | some r =>
          by_cases hij : i = j
          · simp [hij, BridgeRow.key]
          · simp [hij]

/-- An update keeps the bridge records and what they are found by. -/
theorem grown_updateBridge (p : BridgeRow → Bool) (status : BridgeStatus) (tx : String) :
    Grown db (db.updateBridge p fun r => { r with status := status, txHash := tx }) :=
  ⟨fun _ h => h, fun _ h => h, records_updateBridge db p status tx, le_rfl, le_rfl, le_rfl⟩

end Writes

section Processed

variable {client : DbClient} {db db' : Mirror}

/-- So does an update of the record that was found. -/
theorem grown_updateFoundBridge {p : BridgeRow → Bool} {txHash : String} {status : BridgeStatus}
    (h : updateFoundBridge client p txHash status db = .ok () db') : Grown db db' := by
  rcases updateFoundBridge_eq_ok.mp h with ⟨-, rfl⟩ | ⟨_, tx, -, -, rfl⟩
  · exact Grown.refl _
  · exact grown_updateBridge db p status tx

/-- Every processor only adds. -/
theorem processEvent_grown {e : SyncEvent} (h : processEvent client e db = .ok () db') :
    Grown db db' := by
  cases e with
  | creditSubmitted e =>
      obtain ⟨-, c, row, -, -, rfl⟩ := processCreditSubmitted_eq_ok.mp h
      exact (grown_insertUser _ _).trans (grown_writeCredit _ _ _)
  | creditApproved e =>
      obtain ⟨c, -, ⟨-, rfl⟩ | ⟨_, _, -, -, -, rfl⟩⟩ := processCreditApproved_eq_ok.mp h
      · exact Grown.refl _
      · exact (grown_insertUser _ _).trans (grown_insertApproval _ _)
  | creditMinted e =>
      obtain ⟨-, c, row, -, -, rfl⟩ := processCreditMinted_eq_ok.mp h
      exact grown_writeCredit _ _ _
  | creditRejected e =>
      obtain ⟨c, -, ⟨-, rfl⟩ | ⟨_, -, -, -, rfl⟩⟩ := processCreditRejected_eq_ok.mp h
      · exact Grown.refl _
      · exact ((grown_insertUser _ _).trans (grown_insertApproval _ _)).trans
          (grown_writeCredit _ _ _)
  | creditTransferred e =>
      obtain ⟨-, c, row, -, -, rfl⟩ := processCreditTransferred_eq_ok.mp h
      exact (grown_insertUser _ _).trans (grown_writeCredit _ _ _)
  | creditRetired e =>
      obtain ⟨c, -, ⟨-, rfl⟩ | ⟨_, _, -, -, -, rfl⟩⟩ := processCreditRetired_eq_ok.mp h
      · exact Grown.refl _
      · exact ((grown_insertUser _ _).trans (grown_insertRetirement _ _)).trans
          (grown_writeCredit _ _ _)
  | offerCreated e =>
      obtain ⟨-, c, -, ⟨-, rfl⟩ | ⟨_, _, _, -, -, -, rfl⟩⟩ := processOfferCreated_eq_ok.mp h
      · exact grown_insertUser _ _
      · exact (grown_insertUser _ _).trans (grown_writeOffer _ _ _)
  | offerFilled e =>
      obtain ⟨o, -, ⟨-, rfl⟩ | ⟨_, _, _, _, -, -, -, -, -, rfl⟩⟩ := processOfferFilled_eq_ok.mp h
      · exact Grown.refl _
      · exact (((grown_insertUser _ _).trans (grown_writeOffer _ _ _)).trans
          (grown_insertTrade _ _)).trans (grown_writeCredit _ _ _)
  | offerCancelled e =>
      obtain ⟨o, row, -, -, rfl⟩ := processOfferCancelled_eq_ok.mp h
      exact grown_writeOffer _ _ _
  | creditBridged e =>
      obtain ⟨-, -, hbridge⟩ := processCreditBridged_eq_ok.mp h
      exact grown_updateFoundBridge hbridge
  | creditBridgedOut e =>
      obtain ⟨c, row, -, -, hbridge⟩ := processCreditBridgedOut_eq_ok.mp h
      exact (grown_writeCredit _ _ _).trans (grown_updateFoundBridge hbridge)
  | registryRootUpdated e =>
      obtain ⟨-, rfl⟩ := pure_eq_ok.mp h
      exact Grown.refl _

/-- Processing removes nothing. -/
theorem processAll_grown {events : List SyncEvent}
    (h : processAll client events db = .ok () db') : Grown db db' := by
  induction events generalizing db with
  | nil =>
      rw [processAll_nil_eq_ok.mp h]
      exact Grown.refl _
  | cons e events ih =>
      obtain ⟨db₁, he, hevents⟩ := processAll_cons_eq_ok.mp h
      exact (processEvent_grown he).trans (ih hevents)

/-- Every event of a processed list was processed at some point on the way. -/
theorem processed_mem {events : List SyncEvent} (h : processAll client events db = .ok () db')
    {e : SyncEvent} (he : e ∈ events) :
    ∃ d d', Grown db d ∧ processEvent client e d = .ok () d' ∧ Grown d' db' := by
  induction events generalizing db with
  | nil => cases he
  | cons x events ih =>
      obtain ⟨db₁, hx, hevents⟩ := processAll_cons_eq_ok.mp h
      rcases List.mem_cons.mp he with rfl | he
      · exact ⟨db, db₁, Grown.refl _, hx, processAll_grown hevents⟩
      · obtain ⟨d, d', hd, hprocess, hd'⟩ := ih hevents he
        exact ⟨d, d', (processEvent_grown hx).trans hd, hprocess, hd'⟩

end Processed

/-! ## What the mirror shows -/

section Shown

variable (db : Mirror)

def creditStatus (c : ℤ) : Option CreditStatus := (db.credits c).map CreditRow.status

def creditOwner (c : ℤ) : Option String := (db.credits c).map CreditRow.owner

def offerStatus (o : ℤ) : Option OfferStatus := (db.offers o).map OfferRow.status

def amountFilled (o : ℤ) : Option ℚ := (db.offers o).map OfferRow.amountFilled

/-- Writing a credit writes its status. -/
theorem creditStatus_writeCredit (c x : ℤ) (row : CreditRow) :
    (db.writeCredit c row).creditStatus x =
      if x = c then some row.status else db.creditStatus x := by
  by_cases hx : x = c
  · simp [creditStatus, writeCredit, hx]
  · simp [creditStatus, writeCredit, hx]

/-- Writing a credit writes its owner. -/
theorem creditOwner_writeCredit (c x : ℤ) (row : CreditRow) :
    (db.writeCredit c row).creditOwner x = if x = c then some row.owner else db.creditOwner x := by
  by_cases hx : x = c
  · simp [creditOwner, writeCredit, hx]
  · simp [creditOwner, writeCredit, hx]

/-- Writing an offer writes its status. -/
theorem offerStatus_writeOffer (o x : ℤ) (row : OfferRow) :
    (db.writeOffer o row).offerStatus x = if x = o then some row.status else db.offerStatus x := by
  by_cases hx : x = o
  · simp [offerStatus, writeOffer, hx]
  · simp [offerStatus, writeOffer, hx]

/-- Writing an offer writes how much of it is filled. -/
theorem amountFilled_writeOffer (o x : ℤ) (row : OfferRow) :
    (db.writeOffer o row).amountFilled x =
      if x = o then some row.amountFilled else db.amountFilled x := by
  by_cases hx : x = o
  · simp [amountFilled, writeOffer, hx]
  · simp [amountFilled, writeOffer, hx]

end Shown

/-- The databases show the same statuses, owners and fills, and as many rows of each kind that
is only inserted. -/
structure SameMirror (db db' : Mirror) : Prop where
  status : ∀ c, db'.creditStatus c = db.creditStatus c
  owner : ∀ c, db'.creditOwner c = db.creditOwner c
  offerStatus : ∀ o, db'.offerStatus o = db.offerStatus o
  amountFilled : ∀ o, db'.amountFilled o = db.amountFilled o
  approvals : db'.approvals.length = db.approvals.length
  trades : db'.trades.length = db.trades.length
  retirements : db'.retirements.length = db.retirements.length

/-- The status that an event which inserts nothing writes to a credit. -/
def statusWrite (c : ℤ) : SyncEvent → Option CreditStatus
  | .creditSubmitted e => if intColumn e.creditId = some c then some .pending else none
  | .creditMinted e => if intColumn e.creditId = some c then some .active else none
  | .creditBridgedOut e => if intColumn e.creditId = some c then some .retired else none
  | _ => none

/-- The owner that an event which inserts nothing writes to a credit. -/
def ownerWrite (c : ℤ) : SyncEvent → Option String
  | .creditTransferred e => if intColumn e.creditId = some c then some e.toAddr else none
  | _ => none

/-- The status that an event which inserts nothing writes to an offer, where the credits of the
database are known. -/
def offerStatusWrite (db : Mirror) (o : ℤ) : SyncEvent → Option OfferStatus
  | .offerCreated e =>
      if intColumn e.offerId = some o ∧ ((intColumn e.creditId).bind db.credits).isSome = true
        then some .active else none
  | .offerCancelled e => if intColumn e.offerId = some o then some .cancelled else none
  | _ => none

/-- The event inserts nothing: approvals, rejections, retirements and fills find no row to act
on, and an offer for a known credit is stored already, and can be stored again. -/
def Quiet (client : DbClient) (db : Mirror) : SyncEvent → Prop
  | .creditApproved e => (intColumn e.creditId).bind db.credits = none
  | .creditRejected e => (intColumn e.creditId).bind db.credits = none
  | .creditRetired e => (intColumn e.creditId).bind db.credits = none
  | .offerFilled e => (intColumn e.offerId).bind db.offers = none
  | .offerCreated e =>
      ∀ c, intColumn e.creditId = some c → (db.credits c).isSome = true →
        ((intColumn e.offerId).bind db.offers).isSome = true ∧
          (offerRow client e c e.seller).isSome = true
  | _ => True

/-- The events of the segment insert nothing into the database, and the last value that they
write to a status or an owner is the one that it has. -/
structure Replayable (client : DbClient) (db : Mirror) (segment : List SyncEvent) : Prop where
  quiet : ∀ e ∈ segment, Quiet client db e
  status : ∀ c s, lastWrite (statusWrite c) segment = some s → db.creditStatus c = some s
  owner : ∀ c u, lastWrite (ownerWrite c) segment = some u → db.creditOwner c = some u
  offerStatus : ∀ o s, lastWrite (offerStatusWrite db o) segment = some s →
    db.offerStatus o = some s

/-! ## Events that only rewrite -/

/-- What processing events that insert nothing does to the database. -/
structure Replayed (base : Mirror) (events : List SyncEvent) (db db' : Mirror) : Prop where
  credits : ∀ c, (db'.credits c).isSome = (db.credits c).isSome
  offers : ∀ o, (db'.offers o).isSome = (db.offers o).isSome
  status : ∀ c, db'.creditStatus c = (lastWrite (statusWrite c) events).or (db.creditStatus c)
  owner : ∀ c, db'.creditOwner c = (lastWrite (ownerWrite c) events).or (db.creditOwner c)
  offerStatus : ∀ o, db'.offerStatus o =
    (lastWrite (offerStatusWrite base o) events).or (db.offerStatus o)
  amountFilled : ∀ o, db'.amountFilled o = db.amountFilled o
  approvals : db'.approvals.length = db.approvals.length
  trades : db'.trades.length = db.trades.length
  retirements : db'.retirements.length = db.retirements.length

/-- Two parts that only rewrite do so together. -/
theorem Replayed.append {base a b c : Mirror} {events rest : List SyncEvent}
    (h : Replayed base events a b) (h' : Replayed base rest b c) :
    Replayed base (events ++ rest) a c where
  credits x := (h'.credits x).trans (h.credits x)
  offers x := (h'.offers x).trans (h.offers x)
  status x := by rw [h'.status, h.status, lastWrite_append, Option.or_assoc]
  owner x := by rw [h'.owner, h.owner, lastWrite_append, Option.or_assoc]
  offerStatus x := by rw [h'.offerStatus, h.offerStatus, lastWrite_append, Option.or_assoc]
  amountFilled x := (h'.amountFilled x).trans (h.amountFilled x)
  approvals := h'.approvals.trans h.approvals
  trades := h'.trades.trans h.trades
  retirements := h'.retirements.trans h.retirements

/-- A replay that only rewrites shows the same when its last writes do. -/
theorem Replayed.sameMirror_iff {base db db' : Mirror} {events : List SyncEvent}
    (h : Replayed base events db db') :
    SameMirror db db' ↔
      (∀ c s, lastWrite (statusWrite c) events = some s → db.creditStatus c = some s) ∧
      (∀ c u, lastWrite (ownerWrite c) events = some u → db.creditOwner c = some u) ∧
      ∀ o s, lastWrite (offerStatusWrite base o) events = some s →
        db.offerStatus o = some s := by
  constructor
  · intro hsame
    refine ⟨fun c => ?_, fun c => ?_, fun o => ?_⟩
    · exact or_eq_self_iff.mp ((h.status c).symm.trans (hsame.status c))
    · exact or_eq_self_iff.mp ((h.owner c).symm.trans (hsame.owner c))
    · exact or_eq_self_iff.mp ((h.offerStatus o).symm.trans (hsame.offerStatus o))
  · rintro ⟨hstatus, howner, hoffer⟩
    exact {
      status := fun c => (h.status c).trans (or_eq_self_iff.mpr (hstatus c))
      owner := fun c => (h.owner c).trans (or_eq_self_iff.mpr (howner c))
      offerStatus := fun o => (h.offerStatus o).trans (or_eq_self_iff.mpr (hoffer o))
      amountFilled := h.amountFilled
      approvals := h.approvals
      trades := h.trades
      retirements := h.retirements }

section Rewriting

variable {client : DbClient} {base db db' : Mirror}

theorem Replayed.refl : Replayed base [] db db := by
  constructor <;> simp

/-- Users are not part of what the mirror shows. -/
theorem Replayed.of_insertUser (u : String) {events : List SyncEvent}
    (h : Replayed base events (db.insertUser u) db') : Replayed base events db db' where
  credits x := by simpa using h.credits x
  offers x := by simpa using h.offers x
  status x := by simpa [creditStatus] using h.status x
  owner x := by simpa [creditOwner] using h.owner x
  offerStatus x := by simpa [Mirror.offerStatus] using h.offerStatus x
  amountFilled x := by simpa [Mirror.amountFilled] using h.amountFilled x
  approvals := by simpa using h.approvals
  trades := by simpa using h.trades
  retirements := by simpa using h.retirements

/-- An event that writes nothing and leaves the database. -/
theorem replayed_self {e : SyncEvent} (hstatus : ∀ c, statusWrite c e = none)
    (howner : ∀ c, ownerWrite c e = none) (hoffer : ∀ o, offerStatusWrite base o e = none) :
    Replayed base [e] db db := by
  constructor <;> simp [hstatus, howner, hoffer]

/-- What becomes of a column that is written in one row. -/
theorem written_column {α : Type} {key : Option ℤ} {c : ℤ} (hkey : key = some c) (a : α)
    (old : ℤ → Option α) (x : ℤ) :
    (if key = some x then some a else none).or (old x) = if x = c then some a else old x := by
  rw [hkey]
  by_cases hx : x = c
  · rw [hx, if_pos rfl, if_pos rfl, Option.some_or]
  · rw [if_neg hx, if_neg fun h => hx (Option.some.inj h).symm, Option.none_or]

/-- A column that no event writes and that the written row keeps. -/
theorem kept_column {α : Type} {c : ℤ} {a : α} {old : ℤ → Option α} (hold : old c = some a)
    (x : ℤ) : (none : Option α).or (old x) = if x = c then some a else old x := by
  rw [Option.none_or]
  by_cases hx : x = c
  · rw [if_pos hx, hx, hold]
  · rw [if_neg hx]

/-- An event that rewrites the row of one credit. -/
theorem replayed_writeCredit {e : SyncEvent} {c : ℤ} {row row' : CreditRow}
    (hrow : db.credits c = some row)
    (hstatus : ∀ x, (statusWrite x e).or (db.creditStatus x) =
      if x = c then some row'.status else db.creditStatus x)
    (howner : ∀ x, (ownerWrite x e).or (db.creditOwner x) =
      if x = c then some row'.owner else db.creditOwner x)
    (hoffer : ∀ o, offerStatusWrite base o e = none) :
    Replayed base [e] db (db.writeCredit c row') where
  credits x := by
    by_cases hx : x = c
    · simp [writeCredit, hx, hrow]
    · simp [writeCredit, hx]
  offers _ := rfl
  status x := by rw [creditStatus_writeCredit, lastWrite_singleton, hstatus]
  owner x := by rw [creditOwner_writeCredit, lastWrite_singleton, howner]
  offerStatus o := by
    rw [lastWrite_singleton, hoffer, Option.none_or]
    rfl
  amountFilled _ := rfl
  approvals := rfl
  trades := rfl
  retirements := rfl

/-- An event that rewrites the row of one offer and keeps its fill. -/
theorem replayed_writeOffer {e : SyncEvent} {o : ℤ} {row row' : OfferRow}
    (hrow : db.offers o = some row) (hfilled : row'.amountFilled = row.amountFilled)
    (hstatus : ∀ c, statusWrite c e = none) (howner : ∀ c, ownerWrite c e = none)
    (hoffer : ∀ x, (offerStatusWrite base x e).or (db.offerStatus x) =
      if x = o then some row'.status else db.offerStatus x) :
    Replayed base [e] db (db.writeOffer o row') where
  credits _ := rfl
  offers x := by
    by_cases hx : x = o
    · simp [writeOffer, hx, hrow]
    · simp [writeOffer, hx]
  status c := by
    rw [lastWrite_singleton, hstatus, Option.none_or]
    rfl
  owner c := by
    rw [lastWrite_singleton, howner, Option.none_or]
    rfl
  offerStatus x := by rw [offerStatus_writeOffer, lastWrite_singleton, hoffer]
  amountFilled x := by
    rw [amountFilled_writeOffer]
    by_cases hx : x = o
    · simp [Mirror.amountFilled, hx, hrow, hfilled]
    · simp [hx]
  approvals := rfl
  trades := rfl
  retirements := rfl

/-- The status of a bridge record is not shown. -/
theorem replayed_updateBridge (p : BridgeRow → Bool) (f : BridgeRow → BridgeRow) :
    Replayed base [] db (db.updateBridge p f) := by
  constructor <;> intros <;> rfl

/-- A bridge record that could be updated can be updated again. -/
theorem updateFoundBridge_again (base db : Mirror) {p : BridgeRow → Bool}
    (q : ℤ × String × String → Bool) {txHash : String} {status : BridgeStatus} {d d' : Mirror}
    (hp : ∀ r, p r = q r.key)
    (hfirst : updateFoundBridge client p txHash status d = .ok () d')
    (hrecords : db.bridgeRecords.map BridgeRow.key = d.bridgeRecords.map BridgeRow.key) :
    ∃ db', updateFoundBridge client p txHash status db = .ok () db' ∧
      Replayed base [] db db' := by
  have hfind : ∀ m : Mirror, (m.bridgeRecords.find? p).isSome =
      (m.bridgeRecords.map BridgeRow.key).any q := by
    intro m
    rw [List.isSome_find?, List.any_map]
    exact congrArg _ (funext hp)
  have hsome : (db.bridgeRecords.find? p).isSome = (d.bridgeRecords.find? p).isSome := by
    rw [hfind, hfind, hrecords]
  rcases updateFoundBridge_eq_ok.mp hfirst with ⟨hnone, -⟩ | ⟨record, tx, hrecord, htx, -⟩
  · rw [hnone, Option.isSome_none, Option.isSome_eq_false_iff, Option.isNone_iff_eq_none] at hsome
    exact ⟨db, updateFoundBridge_eq_ok.mpr (Or.inl ⟨hsome, rfl⟩), Replayed.refl⟩
  · rw [hrecord, Option.isSome_some, Option.isSome_iff_exists] at hsome
    obtain ⟨again, hagain⟩ := hsome
    have hcolumn : ∃ tx', newTxHash client txHash again = some tx' := by
      unfold newTxHash at htx ⊢
      split_ifs at htx ⊢
      · exact ⟨_, rfl⟩
      · exact ⟨tx, htx⟩
    obtain ⟨tx', htx'⟩ := hcolumn
    exact ⟨_, updateFoundBridge_eq_ok.mpr (Or.inr ⟨again, tx', hagain, htx', rfl⟩),
      replayed_updateBridge _ _⟩

/-- A submission is written as pending, and its issuer owns it. -/
theorem submittedRow_written {e : CreditSubmittedEvent} {issuer : String} {row : CreditRow}
    (h : submittedRow client e issuer = some row) :
    row.status = .pending ∧ row.owner = issuer := by
  unfold submittedRow at h
  -- one column after the other
  iterate 12 obtain ⟨_, -, h⟩ := Option.bind_eq_some_iff.mp h
  cases h
  exact ⟨rfl, rfl⟩

/-- A new offer is active. -/
theorem offerRow_status {e : OfferCreatedEvent} {c : ℤ} {seller : String} {row : OfferRow}
    (h : offerRow client e c seller = some row) : row.status = .active := by
  simp only [offerRow, Option.bind_eq_bind, Option.bind_eq_some_iff, Option.pure_def,
    Option.some.injEq] at h
  obtain ⟨_, -, _, -, _, -, _, -, rfl⟩ := h
  rfl

/-- The upsert of a known credit keeps its token, its issuer and its owner. -/
theorem upsertCredit_of_some {c : ℤ} {row : CreditRow} (h : db.credits c = some row)
    (created : CreditRow) : db.upsertCredit c created = db.writeCredit c
      { created with tokenId := row.tokenId, issuer := row.issuer, owner := row.owner } := by
  unfold upsertCredit
  rw [h]

/-- The upsert of a known offer keeps its credit, its seller and what is filled. -/
theorem upsertOffer_of_some {o : ℤ} {row : OfferRow} (h : db.offers o = some row)
    (created : OfferRow) : db.upsertOffer o created = db.writeOffer o
      { created with
        creditId := row.creditId, seller := row.seller, amountFilled := row.amountFilled } := by
  unfold upsertOffer
  rw [h]

/-- The offer of a known credit is upserted again; that of an unknown one is skipped again. -/
theorem processOfferCreated_again {e : OfferCreatedEvent} {d d' : Mirror}
    (hfirst : processEvent client (.offerCreated e) d = .ok () d')
    (hcredits : ∀ c, (db.credits c).isSome = (base.credits c).isSome)
    (hoffers : ∀ o, (db.offers o).isSome = (base.offers o).isSome)
    (hquiet : Quiet client base (.offerCreated e)) :
    ∃ db', processEvent client (.offerCreated e) db = .ok () db' ∧
      Replayed base [.offerCreated e] db db' := by
  obtain ⟨hseller, c, hc, -⟩ := processOfferCreated_eq_ok.mp hfirst
  cases hbase : base.credits c with
  | none =>
      have hdb : db.credits c = none := by
        rw [← Option.isNone_iff_eq_none, ← Option.not_isSome, hcredits, hbase]
        rfl
      refine ⟨_, processOfferCreated_eq_ok.mpr ⟨hseller, c, hc,
        Or.inl ⟨hdb, rfl⟩⟩, Replayed.of_insertUser e.seller ?_⟩
      refine replayed_self (fun _ => rfl) (fun _ => rfl) fun o => ?_
      simp [offerStatusWrite, hc, hbase]
  | some known =>
      obtain ⟨hstored, hvalues⟩ := hquiet c hc (by rw [hbase]; rfl)
      obtain ⟨o, ho⟩ : ∃ o, intColumn e.offerId = some o := by
        cases hcolumn : intColumn e.offerId with
        | none => simp [hcolumn] at hstored
        | some o => exact ⟨o, rfl⟩
      obtain ⟨offer, hvalue⟩ := Option.isSome_iff_exists.mp hvalues
      obtain ⟨credit, hcredit⟩ : ∃ row, db.credits c = some row :=
        Option.isSome_iff_exists.mp (by rw [hcredits, hbase]; rfl)
      obtain ⟨kept, hkept⟩ : ∃ row, db.offers o = some row :=
        Option.isSome_iff_exists.mp (by simpa [ho, hoffers] using hstored)
      refine ⟨_, processOfferCreated_eq_ok.mpr ⟨hseller, c, hc,
        Or.inr ⟨credit, o, offer, hcredit, ho, hvalue, rfl⟩⟩,
        Replayed.of_insertUser e.seller ?_⟩
      have hkept' : (db.insertUser e.seller).offers o = some kept := by
        rw [insertUser_offers, hkept]
      rw [upsertOffer_of_some hkept']
      refine replayed_writeOffer hkept' rfl (fun _ => rfl) (fun _ => rfl) fun x => ?_
      have hknown : ((intColumn e.creditId).bind base.credits).isSome = true := by
        rw [hc, Option.bind_some, hbase]
        rfl
      rw [offerStatusWrite, hknown, offerRow_status hvalue]
      simpa using written_column ho OfferStatus.active (db.insertUser e.seller).offerStatus x

/-- The submitted credit is there, and its row becomes pending again; the owner stays. -/
theorem processCreditSubmitted_again {e : CreditSubmittedEvent} {d d' : Mirror}
    (hfirst : processEvent client (.creditSubmitted e) d = .ok () d')
    (hstays : ∀ c row, d'.credits c = some row → ∃ row', db.credits c = some row') :
    ∃ db', processEvent client (.creditSubmitted e) db = .ok () db' ∧
      Replayed base [.creditSubmitted e] db db' := by
  obtain ⟨hissuer, c, row, hc, hrow, rfl⟩ := processCreditSubmitted_eq_ok.mp hfirst
  obtain ⟨kept, hkept⟩ := hstays c _ (Function.update_self ..)
  refine ⟨_, processCreditSubmitted_eq_ok.mpr ⟨hissuer, c, row, hc, hrow, rfl⟩,
    Replayed.of_insertUser e.issuer ?_⟩
  have hkept' : (db.insertUser e.issuer).credits c = some kept := by
    rw [insertUser_credits]
    exact hkept
  rw [upsertCredit_of_some hkept']
  refine replayed_writeCredit hkept' ?_ (kept_column (by simp [creditOwner, hkept']))
    fun o => rfl
  rw [(submittedRow_written hrow).1]
  exact written_column hc CreditStatus.pending (db.insertUser e.issuer).creditStatus

/-- The minted credit is there, and becomes active again. -/
theorem processCreditMinted_again {e : CreditMintedEvent} {d d' : Mirror}
    (hfirst : processEvent client (.creditMinted e) d = .ok () d')
    (hstays : ∀ c row, d'.credits c = some row → ∃ row', db.credits c = some row') :
    ∃ db', processEvent client (.creditMinted e) db = .ok () db' ∧
      Replayed base [.creditMinted e] db db' := by
  obtain ⟨htoken, c, row, hc, hrow, rfl⟩ := processCreditMinted_eq_ok.mp hfirst
  obtain ⟨kept, hkept⟩ := hstays c _ (Function.update_self ..)
  exact ⟨_, processCreditMinted_eq_ok.mpr ⟨htoken, c, kept, hc, hkept, rfl⟩,
    replayed_writeCredit hkept (written_column hc CreditStatus.active db.creditStatus)
      (kept_column (by simp [creditOwner, hkept])) fun o => rfl⟩

/-- The approval of an unknown credit is skipped again. -/
theorem processCreditApproved_again {e : CreditApprovedEvent} {d d' : Mirror}
    (hfirst : processEvent client (.creditApproved e) d = .ok () d')
    (hunknown : ∀ c, base.credits c = none → db.credits c = none)
    (hquiet : Quiet client base (.creditApproved e)) :
    ∃ db', processEvent client (.creditApproved e) db = .ok () db' ∧
      Replayed base [.creditApproved e] db db' := by
  obtain ⟨c, hc, -⟩ := processCreditApproved_eq_ok.mp hfirst
  have hnone : base.credits c = none := by simpa [Quiet, hc] using hquiet
  exact ⟨db, processCreditApproved_eq_ok.mpr ⟨c, hc, Or.inl ⟨hunknown c hnone, rfl⟩⟩,
    replayed_self (fun _ => rfl) (fun _ => rfl) fun _ => rfl⟩

/-- The rejection of an unknown credit is skipped again. -/
theorem processCreditRejected_again {e : CreditRejectedEvent} {d d' : Mirror}
    (hfirst : processEvent client (.creditRejected e) d = .ok () d')
    (hunknown : ∀ c, base.credits c = none → db.credits c = none)
    (hquiet : Quiet client base (.creditRejected e)) :
    ∃ db', processEvent client (.creditRejected e) db = .ok () db' ∧
      Replayed base [.creditRejected e] db db' := by
  obtain ⟨c, hc, -⟩ := processCreditRejected_eq_ok.mp hfirst
  have hnone : base.credits c = none := by simpa [Quiet, hc] using hquiet
  exact ⟨db, processCreditRejected_eq_ok.mpr ⟨c, hc, Or.inl ⟨hunknown c hnone, rfl⟩⟩,
    replayed_self (fun _ => rfl) (fun _ => rfl) fun _ => rfl⟩

/-- The retirement of an unknown credit is skipped again. -/
theorem processCreditRetired_again {e : CreditRetiredEvent} {d d' : Mirror}
    (hfirst : processEvent client (.creditRetired e) d = .ok () d')
    (hunknown : ∀ c, base.credits c = none → db.credits c = none)
    (hquiet : Quiet client base (.creditRetired e)) :
    ∃ db', processEvent client (.creditRetired e) db = .ok () db' ∧
      Replayed base [.creditRetired e] db db' := by
  obtain ⟨c, hc, -⟩ := processCreditRetired_eq_ok.mp hfirst
  have hnone : base.credits c = none := by simpa [Quiet, hc] using hquiet
  exact ⟨db, processCreditRetired_eq_ok.mpr ⟨c, hc, Or.inl ⟨hunknown c hnone, rfl⟩⟩,
    replayed_self (fun _ => rfl) (fun _ => rfl) fun _ => rfl⟩

/-- The transferred credit is there, and its owner is written again. -/
theorem processCreditTransferred_again {e : CreditTransferredEvent} {d d' : Mirror}
    (hfirst : processEvent client (.creditTransferred e) d = .ok () d')
    (hstays : ∀ c row, d'.credits c = some row → ∃ row', db.credits c = some row') :
    ∃ db', processEvent client (.creditTransferred e) db = .ok () db' ∧
      Replayed base [.creditTransferred e] db db' := by
  obtain ⟨howner, c, row, hc, hrow, rfl⟩ := processCreditTransferred_eq_ok.mp hfirst
  obtain ⟨kept, hkept⟩ := hstays c _ (Function.update_self ..)
  refine ⟨_, processCreditTransferred_eq_ok.mpr ⟨howner, c, kept, hc, hkept, rfl⟩,
    Replayed.of_insertUser e.toAddr ?_⟩
  exact replayed_writeCredit (by rw [insertUser_credits, hkept])
    (kept_column (by simp [creditStatus, hkept]))
    (written_column hc e.toAddr (db.insertUser e.toAddr).creditOwner) fun o => rfl

/-- The fill of an unknown offer is skipped again. -/
theorem processOfferFilled_again {e : OfferFilledEvent} {d d' : Mirror}
    (hfirst : processEvent client (.offerFilled e) d = .ok () d')
    (hunknown : ∀ o, base.offers o = none → db.offers o = none)
    (hquiet : Quiet client base (.offerFilled e)) :
    ∃ db', processEvent client (.offerFilled e) db = .ok () db' ∧
      Replayed base [.offerFilled e] db db' := by
  obtain ⟨o, ho, -⟩ := processOfferFilled_eq_ok.mp hfirst
  have hnone : base.offers o = none := by simpa [Quiet, ho] using hquiet
  exact ⟨db, processOfferFilled_eq_ok.mpr ⟨o, ho, Or.inl ⟨hunknown o hnone, rfl⟩⟩,
    replayed_self (fun _ => rfl) (fun _ => rfl) fun _ => rfl⟩

/-- The cancelled offer is there, and is cancelled again. -/
theorem processOfferCancelled_again {e : OfferCancelledEvent} {d d' : Mirror}
    (hfirst : processEvent client (.offerCancelled e) d = .ok () d')
    (hstays : ∀ o row, d'.offers o = some row → ∃ row', db.offers o = some row') :
    ∃ db', processEvent client (.offerCancelled e) db = .ok () db' ∧
      Replayed base [.offerCancelled e] db db' := by
  obtain ⟨o, row, ho, hrow, rfl⟩ := processOfferCancelled_eq_ok.mp hfirst
  obtain ⟨kept, hkept⟩ := hstays o _ (Function.update_self ..)
  exact ⟨_, processOfferCancelled_eq_ok.mpr ⟨o, kept, ho, hkept, rfl⟩,
    replayed_writeOffer hkept rfl (fun _ => rfl) (fun _ => rfl)
      (written_column ho OfferStatus.cancelled db.offerStatus)⟩

/-- The bridge record of the registry and serial is updated again, or missing again. -/
theorem processCreditBridged_again {e : CreditBridgedEvent} {d d' : Mirror}
    (hfirst : processEvent client (.creditBridged e) d = .ok () d')
    (hrecords : db.bridgeRecords.map BridgeRow.key = d.bridgeRecords.map BridgeRow.key) :
    ∃ db', processEvent client (.creditBridged e) db = .ok () db' ∧
      Replayed base [.creditBridged e] db db' := by
  obtain ⟨hregistry, hserial, hbridge⟩ := processCreditBridged_eq_ok.mp hfirst
  obtain ⟨db', hdb', hreplayed⟩ := updateFoundBridge_again base db
    (fun k => k.2.1 = e.sourceRegistry ∧ k.2.2 = e.sourceSerial) (fun _ => rfl)
    hbridge hrecords
  refine ⟨db', processCreditBridged_eq_ok.mpr ⟨hregistry, hserial, hdb'⟩, ?_⟩
  exact (replayed_self (fun _ => rfl) (fun _ => rfl) fun _ => rfl).append hreplayed

/-- The bridged credit is retired again, and its bridge record is updated again. -/
theorem processCreditBridgedOut_again {e : CreditBridgedOutEvent} {d d' : Mirror}
    (hfirst : processEvent client (.creditBridgedOut e) d = .ok () d')
    (hstays : ∀ c row, d'.credits c = some row → ∃ row', db.credits c = some row')
    (hrecords : db.bridgeRecords.map BridgeRow.key = d.bridgeRecords.map BridgeRow.key) :
    ∃ db', processEvent client (.creditBridgedOut e) db = .ok () db' ∧
      Replayed base [.creditBridgedOut e] db db' := by
  obtain ⟨c, row, hc, hrow, hbridge⟩ := processCreditBridgedOut_eq_ok.mp hfirst
  have hstored : (d'.credits c).isSome :=
    (grown_updateFoundBridge hbridge).credits c (by simp [writeCredit])
  obtain ⟨stored, hstored⟩ := Option.isSome_iff_exists.mp hstored
  obtain ⟨kept, hkept⟩ := hstays c stored hstored
  obtain ⟨db', hdb', hreplayed⟩ := updateFoundBridge_again base
    (db.writeCredit c { kept with status := .retired }) (fun k => k.1 = c) (fun _ => rfl)
    hbridge hrecords
  refine ⟨db', processCreditBridgedOut_eq_ok.mpr ⟨c, kept, hc, hkept, hdb'⟩, ?_⟩
  have hcreditWritten : Replayed base [.creditBridgedOut e] db
      (db.writeCredit c { kept with status := .retired }) := by
    exact replayed_writeCredit hkept (written_column hc CreditStatus.retired db.creditStatus)
      (kept_column (by simp [creditOwner, hkept])) fun _ => rfl
  exact hcreditWritten.append hreplayed

/-- A quiet event that was processed once is processed again, and only rewrites. -/
theorem processEvent_again {e : SyncEvent} {d d' : Mirror}
    (hfirst : processEvent client e d = .ok () d') (hgrown : Grown d' db)
    (hcredits : ∀ c, (db.credits c).isSome = (base.credits c).isSome)
    (hoffers : ∀ o, (db.offers o).isSome = (base.offers o).isSome)
    (hquiet : Quiet client base e) :
    ∃ db', processEvent client e db = .ok () db' ∧ Replayed base [e] db db' := by
  -- what the first pass has stored is there, and what it has skipped is still missing
  have hcredit : ∀ c row, d'.credits c = some row → ∃ row', db.credits c = some row' :=
    fun c row h => Option.isSome_iff_exists.mp (hgrown.credits c (by rw [h]; rfl))
  have hoffer : ∀ o row, d'.offers o = some row → ∃ row', db.offers o = some row' :=
    fun o row h => Option.isSome_iff_exists.mp (hgrown.offers o (by rw [h]; rfl))
  have hunknown : ∀ c, base.credits c = none → db.credits c = none := by
    intro c hc
    rw [← Option.isNone_iff_eq_none, ← Option.not_isSome, hcredits, hc]
    rfl
  have hunknownOffer : ∀ o, base.offers o = none → db.offers o = none := by
    intro o ho
    rw [← Option.isNone_iff_eq_none, ← Option.not_isSome, hoffers, ho]
    rfl
  have hrecords : db.bridgeRecords.map BridgeRow.key = d.bridgeRecords.map BridgeRow.key :=
    hgrown.records.trans (processEvent_grown hfirst).records
  cases e with
  | creditSubmitted e => exact processCreditSubmitted_again hfirst hcredit
  | creditMinted e => exact processCreditMinted_again hfirst hcredit
  | creditApproved e => exact processCreditApproved_again hfirst hunknown hquiet
  | creditRejected e => exact processCreditRejected_again hfirst hunknown hquiet
  | creditRetired e => exact processCreditRetired_again hfirst hunknown hquiet
  | creditTransferred e => exact processCreditTransferred_again hfirst hcredit
  | offerCreated e => exact processOfferCreated_again hfirst hcredits hoffers hquiet
  | offerFilled e => exact processOfferFilled_again hfirst hunknownOffer hquiet
  | offerCancelled e => exact processOfferCancelled_again hfirst hoffer
  | creditBridged e => exact processCreditBridged_again hfirst hrecords
  | creditBridgedOut e => exact processCreditBridgedOut_again hfirst hcredit hrecords
  | registryRootUpdated e =>
      exact ⟨db, pure_eq_ok.mpr ⟨rfl, rfl⟩,
        replayed_self (fun _ => rfl) (fun _ => rfl) fun _ => rfl⟩

end Rewriting

/-! ## Segments -/

section Segments

variable {client : DbClient} {base db db' : Mirror} {segment : List SyncEvent}

/-- Quiet events that were processed on the way to `base` are processed again from there, and
only rewrite. -/
theorem replayed_all (hfirst : ∀ e ∈ segment, ∃ d d', processEvent client e d = .ok () d' ∧
      Grown d' base)
    (hquiet : ∀ e ∈ segment, Quiet client base e) (hgrown : Grown base db)
    (hcredits : ∀ c, (db.credits c).isSome = (base.credits c).isSome)
    (hoffers : ∀ o, (db.offers o).isSome = (base.offers o).isSome) :
    ∃ db', processAll client segment db = .ok () db' ∧ Replayed base segment db db' := by
  induction segment generalizing db with
  | nil => exact ⟨db, processAll_nil_eq_ok.mpr rfl, Replayed.refl⟩
  | cons e events ih =>
      obtain ⟨d, d', hd, hd'⟩ := hfirst e List.mem_cons_self
      obtain ⟨db₁, he, hreplayed⟩ := processEvent_again hd (hd'.trans hgrown) hcredits hoffers
        (hquiet e List.mem_cons_self)
      obtain ⟨db', hevents, hrest⟩ := ih (fun x hx => hfirst x (List.mem_cons_of_mem e hx))
        (fun x hx => hquiet x (List.mem_cons_of_mem e hx))
        (hgrown.trans (processEvent_grown he))
        (fun c => (hreplayed.credits c).trans (hcredits c))
        (fun o => (hreplayed.offers o).trans (hoffers o))
      exact ⟨db', processAll_cons_eq_ok.mpr ⟨db₁, he, hevents⟩, hreplayed.append hrest⟩

/-- A credit that is missing later was missing before. -/
theorem Grown.unknown {d : Mirror} (hd : Grown base d) {c : ℤ} (hc : d.credits c = none) :
    base.credits c = none := by
  by_contra hne
  have hsome := hd.credits c (Option.isSome_iff_ne_none.mpr hne)
  rw [hc] at hsome
  cases hsome

/-- So was an offer. -/
theorem Grown.unknownOffer {d : Mirror} (hd : Grown base d) {o : ℤ} (ho : d.offers o = none) :
    base.offers o = none := by
  by_contra hne
  have hsome := hd.offers o (Option.isSome_iff_ne_none.mpr hne)
  rw [ho] at hsome
  cases hsome

section Processed

variable {d d' : Mirror} (hd : Grown base d) (hd' : Grown d' db') (hsame : SameMirror base db')

include hd hd' hsame

/-- An approval of a known credit would have been inserted. -/
theorem quiet_creditApproved {e : CreditApprovedEvent}
    (hprocess : processEvent client (.creditApproved e) d = .ok () d') :
    Quiet client base (.creditApproved e) := by
  obtain ⟨c, hc, ⟨hnone, -⟩ | ⟨_, _, -, -, -, rfl⟩⟩ := processCreditApproved_eq_ok.mp hprocess
  · show (intColumn e.creditId).bind base.credits = none
    rw [hc]
    exact hd.unknown hnone
  · -- the vote would have been inserted, and the log be longer
    have hlength := hd'.approvals
    have hbefore := hd.approvals
    have hafter := hsame.approvals
    simp [insertApproval] at hlength
    omega

/-- So would its rejection. -/
theorem quiet_creditRejected {e : CreditRejectedEvent}
    (hprocess : processEvent client (.creditRejected e) d = .ok () d') :
    Quiet client base (.creditRejected e) := by
  obtain ⟨c, hc, ⟨hnone, -⟩ | ⟨_, -, -, -, rfl⟩⟩ := processCreditRejected_eq_ok.mp hprocess
  · show (intColumn e.creditId).bind base.credits = none
    rw [hc]
    exact hd.unknown hnone
  · have hlength := hd'.approvals
    have hbefore := hd.approvals
    have hafter := hsame.approvals
    simp [insertApproval, writeCredit] at hlength
    omega

/-- So would its retirement. -/
theorem quiet_creditRetired {e : CreditRetiredEvent}
    (hprocess : processEvent client (.creditRetired e) d = .ok () d') :
    Quiet client base (.creditRetired e) := by
  obtain ⟨c, hc, ⟨hnone, -⟩ | ⟨_, _, -, -, -, rfl⟩⟩ := processCreditRetired_eq_ok.mp hprocess
  · show (intColumn e.creditId).bind base.credits = none
    rw [hc]
    exact hd.unknown hnone
  · -- the retirement would have been inserted
    have hlength := hd'.retirements
    have hbefore := hd.retirements
    have hafter := hsame.retirements
    simp [insertRetirement, writeCredit] at hlength
    omega

/-- A fill of a known offer would have inserted a trade. -/
theorem quiet_offerFilled {e : OfferFilledEvent}
    (hprocess : processEvent client (.offerFilled e) d = .ok () d') :
    Quiet client base (.offerFilled e) := by
  obtain ⟨o, ho, ⟨hnone, -⟩ | ⟨_, _, _, _, -, -, -, -, -, rfl⟩⟩ :=
    processOfferFilled_eq_ok.mp hprocess
  · show (intColumn e.offerId).bind base.offers = none
    rw [ho]
    exact hd.unknownOffer hnone
  · -- the trade would have been inserted
    have hlength := hd'.trades
    have hbefore := hd.trades
    have hafter := hsame.trades
    simp [insertTrade, writeCredit, writeOffer] at hlength
    omega

/-- An offer of a known credit is stored, and its values fit. -/
theorem quiet_offerCreated {e : OfferCreatedEvent}
    (hprocess : processEvent client (.offerCreated e) d = .ok () d') :
    Quiet client base (.offerCreated e) := by
  intro c hc hsome
  obtain ⟨-, c', hc', hcases⟩ := processOfferCreated_eq_ok.mp hprocess
  obtain rfl : c = c' := Option.some.inj (hc.symm.trans hc')
  rcases hcases with ⟨hnone, -⟩ | ⟨row, o, offer, hrow, ho, hoffer, rfl⟩
  · rw [hd.unknown hnone] at hsome
    cases hsome
  · have hwritten := hd'.offers o (by simp [upsertOffer, writeOffer])
    have hshown := congrArg Option.isSome (hsame.offerStatus o)
    simp only [Mirror.offerStatus, Option.isSome_map] at hshown
    rw [ho, hoffer]
    exact ⟨hshown.symm.trans hwritten, rfl⟩

/-- An event that is processed on the way from `base` to a database that shows the same inserts
nothing. -/
theorem quiet_of_processed {e : SyncEvent} (hprocess : processEvent client e d = .ok () d') :
    Quiet client base e := by
  cases e with
  | creditApproved e => exact quiet_creditApproved hd hd' hsame hprocess
  | creditRejected e => exact quiet_creditRejected hd hd' hsame hprocess
  | creditRetired e => exact quiet_creditRetired hd hd' hsame hprocess
  | offerFilled e => exact quiet_offerFilled hd hd' hsame hprocess
  | offerCreated e => exact quiet_offerCreated hd hd' hsame hprocess
  | _ => trivial

end Processed

/-- Processing a segment again leaves what the mirror shows exactly when its events insert
nothing and their last writes are what it shows. -/
theorem replay_unchanged_iff (client : DbClient) (start db : Mirror)
    (before segment after : List SyncEvent)
    (h : processAll client (before ++ segment ++ after) start = .ok () db) :
    (∃ db', processAll client segment db = .ok () db' ∧ SameMirror db db') ↔
      Replayable client db segment := by
  have hfirst : ∀ e ∈ segment, ∃ d d', processEvent client e d = .ok () d' ∧ Grown d' db := by
    intro e he
    have hmem : e ∈ before ++ segment ++ after :=
      List.mem_append_left after (List.mem_append_right before he)
    obtain ⟨d, d', -, hd, hd'⟩ := processed_mem h hmem
    exact ⟨d, d', hd, hd'⟩
  have hreplay : (∀ e ∈ segment, Quiet client db e) →
      ∃ db', processAll client segment db = .ok () db' ∧ Replayed db segment db db' :=
    fun hquiet => replayed_all hfirst hquiet (Grown.refl db) (fun _ => rfl) fun _ => rfl
  constructor
  · rintro ⟨db', hdb', hsame⟩
    have hquiet : ∀ e ∈ segment, Quiet client db e := by
      intro e he
      obtain ⟨d, d', hd, hprocess, hd'⟩ := processed_mem hdb' he
      exact quiet_of_processed hd hd' hsame hprocess
    obtain ⟨db'', hdb'', hreplayed⟩ := hreplay hquiet
    obtain rfl : db' = db'' := by
      rw [hdb'] at hdb''
      cases hdb''
      rfl
    obtain ⟨hstatus, howner, hoffer⟩ := hreplayed.sameMirror_iff.mp hsame
    exact ⟨hquiet, hstatus, howner, hoffer⟩
  · intro hreplayable
    obtain ⟨db', hdb', hreplayed⟩ := hreplay hreplayable.quiet
    exact ⟨db', hdb', hreplayed.sameMirror_iff.mpr
      ⟨hreplayable.status, hreplayable.owner, hreplayable.offerStatus⟩⟩

end Segments

end Mirror

namespace Sample

open Mirror

/-- A database that takes every text, and an engine that reads two dates. -/
def datedClient : DbClient where
  storesText _ := true
  dateOfText s := [("2020-01-01", 1577836800000), ("2020-12-31", 1609372800000)].lookup s

def one : JsNumber := .finite 1

def submitted : SyncEvent := .creditSubmitted {
  creditId := one, issuer := "G1", projectId := "P1", methodology := "VM0042"
  vintageStart := "2020-01-01", vintageEnd := "2020-12-31", tonnes := one, geography := "PE"
  serialPrefix := "VM", sdgFlags := one, permanenceRating := one, bufferContributionPct := one
  additionalityType := one, ipfsHash := "Qm", timestamp := one, txHash := "t1" }

def minted : SyncEvent := .creditMinted {
  creditId := one, tokenId := "T1", timestamp := one, txHash := "t2" }

def offered : SyncEvent := .offerCreated {
  offerId := one, seller := "G1", creditId := one, pricePerTonne := one, amount := .finite 10
  currency := "USDC", expiresAt := none, timestamp := one, txHash := "t3" }

/-- A fill of a part of the offer. -/
def filled : SyncEvent := .offerFilled {
  offerId := one, buyer := "G2", amount := .finite 4, totalPrice := .finite 4, timestamp := one
  txHash := "t4" }

/-- The database after a list of events. -/
def mirrorAfter (events : List SyncEvent) : Mirror :=
  match processAll datedClient events {} with
  | .ok _ db => db
  | .error _ db => db

def completes (events : List SyncEvent) : Bool :=
  match processAll datedClient events {} with
  | .ok _ _ => true
  | .error _ _ => false

/-- The events of the example are processed to the end. -/
theorem processAll_mirrorAfter (events : List SyncEvent) (h : completes events = true) :
    processAll datedClient events {} = .ok () (mirrorAfter events) := by
  unfold completes at h
  unfold mirrorAfter
  cases hrun : processAll datedClient events {} with
  | ok u db => rfl
  | error e db =>
      rw [hrun] at h
      cases h

end Sample

open Sample in
/-- A mint is written again over the submission before it. -/
theorem Mirror.replay_unchanged_iff_minted :
    ∃ db', Mirror.processAll datedClient [submitted, minted] (mirrorAfter [submitted, minted])
        = .ok () db' ∧
      Mirror.SameMirror (mirrorAfter [submitted, minted]) db' := by
  refine (Mirror.replay_unchanged_iff datedClient {} _ [] [submitted, minted] []
    (processAll_mirrorAfter _ (by rfl))).mpr ⟨?_, ?_, ?_, ?_⟩
  · intro e he
    rcases List.mem_pair.mp he with rfl | rfl <;> trivial
  · intro c s h
    have hone : Mirror.intColumn one = some 1 := by decide +kernel
    by_cases hc : 1 = c
    · subst hc
      have hs : lastWrite (Mirror.statusWrite 1) [submitted, minted] = some .active := by
        decide +kernel
      rw [← h, hs]
      decide +kernel
    · simp [lastWrite, Mirror.statusWrite, submitted, minted, hone, hc] at h
  · intro c u h
    cases h
  · intro o s h
    cases h

open Sample in
/-- A fill that is processed again is counted twice. -/
theorem Mirror.replay_counts_twice :
    ¬ ∀ (client : DbClient) (start db : Mirror) (before segment after : List SyncEvent),
      Mirror.processAll client (before ++ segment ++ after) start = .ok () db →
        ∃ db', Mirror.processAll client segment db = .ok () db' ∧ Mirror.SameMirror db db' := by
  intro h
  obtain ⟨db', hagain, hsame⟩ := h datedClient {} (mirrorAfter [submitted, offered, filled])
    [submitted, offered] [filled] [] (processAll_mirrorAfter _ (by decide +kernel))
  have htwice := Mirror.processAll_append_eq_ok.mpr
    ⟨_, processAll_mirrorAfter [submitted, offered, filled] (by decide +kernel), hagain⟩
  have hdb' : mirrorAfter [submitted, offered, filled, filled] = db' := by
    rw [List.cons_append, List.cons_append, List.cons_append, List.nil_append,
      processAll_mirrorAfter _ (by decide +kernel)] at htwice
    cases htwice
    rfl
  have hfilled := hsame.amountFilled 1
  rw [← hdb'] at hfilled
  revert hfilled
  decide +kernel

end CarbonVeritas
