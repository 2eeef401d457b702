/-
# The cursor of the indexer

What `fetchEvents` does to the cursor whatever the RPC server answers: the positions of the
events that it accepts increase strictly, within a call and from call to call
(`positions_increase`), and the cursor ends at or after them.

The one assumption is that ledger numbers are below `2^53`, where `+ 1` is exact.  Without it
the drained exit can leave the cursor behind what was accepted (`positions_repeat`).

The cursor moves before the batch is processed, so an event whose processing rejects is
behind the cursor, and no later call accepts its position again (`rejected_not_retried`).
-/
import CarbonVeritas.IndexerSync
import CarbonVeritas.TransitionRun

namespace CarbonVeritas

open Transition

/-! ## The loop over a page -/

/-- An event is passed over, or accepted at a position behind those seen. -/
theorem positionOf_event (st : Scan) (e : RpcEvent) :
    st.event e = st ∨ (e.inSuccessfulContractCall ≠ some false ∧ st.seen < positionOf st.seen e ∧
      st.event e =
        { seen := positionOf st.seen e
          handed := st.handed ++ [(positionOf st.seen e, e)]
          sawEvents := true }) := by
  unfold Scan.event
  by_cases hfailed : e.inSuccessfulContractCall = some false
  · left
    rw [if_pos hfailed]
  · rw [if_neg hfailed]
    dsimp only
    split_ifs with hcovered hlater
    · exact Or.inl rfl
    · refine Or.inr ⟨hfailed, ?_, rfl⟩
      rw [SyncCursor.lt_iff]
      omega
    · exfalso
      omega

/-- What the variables of a call satisfy, from its first cursor on. -/
structure ScanInvariant (cursor : SyncCursor) (st : Scan) : Prop where
  cursor_le : cursor ≤ st.seen
  increasing : (st.handed.map Prod.fst).Pairwise (· < ·)
  after_cursor : ∀ p ∈ st.handed, cursor < p.1
  le_seen : ∀ p ∈ st.handed, p.1 ≤ st.seen
  saw_iff : st.sawEvents = true ↔ st.handed ≠ []
  exact_ledger : st.seen.ledgerSequence < 2 ^ 53

/-- A scan starts at the cursor, with nothing accepted. -/
theorem scanInvariant_first {cursor : SyncCursor} (h : cursor.ledgerSequence < 2 ^ 53) :
    ScanInvariant cursor { seen := cursor } where
  cursor_le := le_rfl
  increasing := List.Pairwise.nil
  after_cursor := by simp
  le_seen := by simp
  saw_iff := by simp
  exact_ledger := h

/-- Every event keeps the invariant of the scan. -/
theorem ScanInvariant.event {cursor : SyncCursor} {st : Scan} {e : RpcEvent}
    (h : ScanInvariant cursor st) (he : ∀ l, e.ledger = some l → l < 2 ^ 53) :
    ScanInvariant cursor (st.event e) := by
  rcases positionOf_event st e with hsame | ⟨-, hlt, hnext⟩
  · rwa [hsame]
  · rw [hnext]
    have hcursor : cursor < positionOf st.seen e := lt_of_le_of_lt h.cursor_le hlt
    refine ⟨hcursor.le, ?_, ?_, ?_, by simp, ?_⟩
    · rw [List.map_append, List.pairwise_append]
      refine ⟨h.increasing, by simp, fun p hp q hq => ?_⟩
      obtain ⟨x, hx, rfl⟩ := List.mem_map.mp hp
      have hq : q = positionOf st.seen e := by simpa using hq
      rw [hq]
      exact lt_of_le_of_lt (h.le_seen x hx) hlt
    · intro p hp
      rcases List.mem_append.mp hp with hp | hp
      · exact h.after_cursor p hp
      · rw [List.mem_singleton.mp hp]
        exact hcursor
    · intro p hp
      rcases List.mem_append.mp hp with hp | hp
      · exact (h.le_seen p hp).trans hlt.le
      · rw [List.mem_singleton.mp hp]
    · show e.ledger.getD st.seen.ledgerSequence < 2 ^ 53
      cases hledger : e.ledger with
      | none => exact h.exact_ledger
      | some l => exact he l hledger

/-! ## The loop over the pages -/

/-- The server has the event on some page. -/
def Reports (rpc : ℕ → ℕ → RpcAnswer) (e : RpcEvent) : Prop :=
  ∃ n startLedger page, rpc n startLedger = .events page ∧ e ∈ page

/-- **Loop rule.**  What every event of the server preserves, the loop preserves. -/
theorem fetchPages_invariant {rpc : ℕ → ℕ → RpcAnswer} {I : Scan → Prop}
    (hevent : ∀ st e, I st → Reports rpc e → I (st.event e)) (pagesLeft : ℕ) :
    ∀ (pageCount startLedger : ℕ) (st : Scan), I st → ∀ r ∈
      (fetchPages rpc pagesLeft pageCount startLedger st).result, I r.1 := by
  have hpage : ∀ (page : List RpcEvent) (st : Scan), I st → (∀ e ∈ page, Reports rpc e) →
      I (st.page page) := by
    intro page
    induction page with
    | nil =>
        intro st hst _
        exact hst
    | cons e page ih =>
        intro st hst hreports
        exact ih _ (hevent st e hst (hreports e List.mem_cons_self))
          fun x hx => hreports x (List.mem_cons_of_mem _ hx)
  -- on the pages that may still be fetched
  induction pagesLeft with
  | zero =>
      intro pageCount startLedger st hst r hr
      obtain rfl : (st, false) = r := Option.some.inj hr
      exact hst
  | succ pagesLeft ih =>
      intro pageCount startLedger st hst r hr
      unfold fetchPages at hr
      cases hanswer : rpc pageCount startLedger with
      | throws =>
          rw [hanswer] at hr
          cases hr
      | failed =>
          rw [hanswer] at hr
          obtain rfl : (st, true) = r := Option.some.inj hr
          exact hst
      | events page =>
          have hreports : ∀ e ∈ page, Reports rpc e := fun e he =>
            ⟨pageCount, startLedger, page, hanswer, he⟩
          rw [hanswer] at hr
          cases page with
          | nil =>
              obtain rfl : (st, true) = r := Option.some.inj hr
              exact hst
          | cons e page =>
              dsimp only [fetchEventPage] at hr
              split_ifs at hr with hshort
              · obtain rfl := Option.some.inj hr
                exact hpage _ st hst hreports
              · exact ih _ _ _ (hpage _ st hst hreports) r hr

/-- A call asks for at most as many pages as it may. -/
theorem fetchPages_requests_le (rpc : ℕ → ℕ → RpcAnswer) (pagesLeft : ℕ) :
    ∀ (pageCount startLedger : ℕ) (st : Scan),
      (fetchPages rpc pagesLeft pageCount startLedger st).requests.length ≤ pagesLeft := by
  induction pagesLeft with
  | zero =>
      intro pageCount startLedger st
      exact le_rfl
  | succ pagesLeft ih =>
      intro pageCount startLedger st
      unfold fetchPages
      split
      · simp
      · simp
      · split_ifs
        · simp
        · simpa using ih _ _ _

/-! ## Calls -/

/-- The ledger numbers that a call meets are such that adding one is exact. -/
def ExactLedgers (sync : IndexerSync) (rpc : ℕ → ℕ → RpcAnswer) : Prop :=
  sync.cursor.ledgerSequence < 2 ^ 53 ∧
    ∀ e, Reports rpc e → ∀ l, e.ledger = some l → l < 2 ^ 53

/-- The cursor that is stored is not before the last position seen. -/
theorem le_advance {cursor : SyncCursor} {st : Scan} (h : ScanInvariant cursor st)
    (drained : Bool) : st.seen ≤ advance cursor st drained := by
  have hle := SyncCursor.le_iff.mp h.cursor_le
  unfold advance
  split_ifs with hdrained hlater
  · rw [JsNumber.succ_of_lt h.exact_ledger, SyncCursor.le_iff]
    left
    exact Nat.lt_succ_self _
  · exact le_rfl
  · rw [SyncCursor.le_iff]
    omega

/-- What a call does, whatever the server answers. -/
structure CallSpec (sync : IndexerSync) (fetched : Fetched) : Prop where
  requests_le : fetched.requests.length ≤ MAX_PAGES
  unchanged_of_throw : fetched.handed = none → fetched.sync = sync
  cursor_le : sync.cursor ≤ fetched.sync.cursor
  increasing : ∀ handed ∈ fetched.handed, (handed.map Prod.fst).Pairwise (· < ·)
  after_cursor : ∀ handed ∈ fetched.handed, ∀ p ∈ handed, sync.cursor < p.1
  le_cursor : ∀ handed ∈ fetched.handed, ∀ p ∈ handed, p.1 ≤ fetched.sync.cursor

/-- A call meets its specification while the ledgers are exact. -/
theorem fetchEvents_spec {sync : IndexerSync} {rpc : ℕ → ℕ → RpcAnswer}
    (h : ExactLedgers sync rpc) : CallSpec sync (fetchEvents sync rpc) := by
  unfold fetchEvents
  split_ifs with hidle
  · exact ⟨by simp, fun _ => rfl, le_rfl, by simp, by simp, by simp⟩
  · have hrequests := fetchPages_requests_le rpc MAX_PAGES 0 sync.cursor.ledgerSequence
      { seen := sync.cursor }
    have hinv := fetchPages_invariant (I := ScanInvariant sync.cursor)
      (fun st e hst he => hst.event (h.2 e he)) MAX_PAGES 0 sync.cursor.ledgerSequence _
      (scanInvariant_first h.1)
    dsimp only
    cases hresult : (fetchPages rpc MAX_PAGES 0 sync.cursor.ledgerSequence
        { seen := sync.cursor }).result with
    | none => exact ⟨hrequests, fun _ => rfl, le_rfl, by simp, by simp, by simp⟩
    | some r =>
        have hst := hinv r hresult
        have hadvance := le_advance hst r.2
        refine ⟨hrequests, by simp, hst.cursor_le.trans hadvance, ?_, ?_, ?_⟩
        · simpa using hst.increasing
        · simpa using hst.after_cursor
        · intro handed hhanded p hp
          obtain rfl : r.1.handed = handed := by simpa using hhanded
          exact (hst.le_seen p hp).trans hadvance

/-! ## Sequences of calls -/

/-- The indexer after a call; the answers of its page requests are the label. -/
def nextSync (sync : IndexerSync) (rpc : ℕ → ℕ → RpcAnswer) : IndexerSync :=
  (fetchEvents sync rpc).sync

/-- The positions that a call accepts; a call that throws delivers nothing. -/
def acceptedPositions (call : IndexerSync × (ℕ → ℕ → RpcAnswer)) : List SyncCursor :=
  ((fetchEvents call.1 call.2).handed.getD []).map Prod.fst

/-- The positions accepted by a call increase, and lie between the two cursors. -/
theorem CallSpec.accepted {sync : IndexerSync} {rpc : ℕ → ℕ → RpcAnswer}
    (h : CallSpec sync (fetchEvents sync rpc)) :
    (acceptedPositions (sync, rpc)).Pairwise (· < ·) ∧ ∀ p ∈ acceptedPositions (sync, rpc),
      sync.cursor < p ∧ p ≤ (nextSync sync rpc).cursor := by
  unfold acceptedPositions nextSync
  cases hhanded : (fetchEvents sync rpc).handed with
  | none => simp
  | some handed =>
      refine ⟨h.increasing handed hhanded, fun p hp => ?_⟩
      obtain ⟨x, hx, rfl⟩ := List.mem_map.mp hp
      exact ⟨h.after_cursor handed hhanded x hx, h.le_cursor handed hhanded x hx⟩

/-- Over a history, the accepted positions increase, up to the cursor. -/
def PositionsIncrease (hist : List (IndexerSync × (ℕ → ℕ → RpcAnswer))) (sync : IndexerSync) :
    Prop :=
  (hist.flatMap acceptedPositions).Pairwise (· < ·) ∧
    ∀ p ∈ hist.flatMap acceptedPositions, p ≤ sync.cursor

/-- One more call keeps the positions increasing. -/
theorem PositionsIncrease.call {hist : List (IndexerSync × (ℕ → ℕ → RpcAnswer))}
    {sync : IndexerSync} {rpc : ℕ → ℕ → RpcAnswer} (h : PositionsIncrease hist sync)
    (hexact : ExactLedgers sync rpc) :
    PositionsIncrease (hist ++ [(sync, rpc)]) (nextSync sync rpc) := by
  have hspec := fetchEvents_spec hexact
  obtain ⟨hincreasing, hbetween⟩ := hspec.accepted
  unfold PositionsIncrease
  rw [List.flatMap_append, List.flatMap_singleton]
  constructor
  · rw [List.pairwise_append]
    exact ⟨h.1, hincreasing, fun p hp q hq => lt_of_le_of_lt (h.2 p hp) (hbetween q hq).1⟩
  · intro p hp
    rcases List.mem_append.mp hp with hp | hp
    · exact (h.2 p hp).trans hspec.cursor_le
    · exact (hbetween p hp).2

/-- What the calls of a run guarantee. -/
structure RunSpec (hist : List (IndexerSync × (ℕ → ℕ → RpcAnswer))) : Prop where
  increasing : (hist.flatMap acceptedPositions).Pairwise (· < ·)
  calls : ∀ call ∈ hist, CallSpec call.1 (fetchEvents call.1 call.2)

/-- **Safety against any server.**  As long as ledger numbers are below `2^53`, the accepted
positions increase strictly over all calls; each call makes at most fifty requests, never moves
the cursor back, leaves it when it throws, and ends with the cursor at or after every position
it accepted. -/
theorem positions_increase (sync : IndexerSync) (calls : List (ℕ → ℕ → RpcAnswer))
    (h : Always nextSync ExactLedgers sync calls) : RunSpec (steps nextSync sync calls) where
  increasing :=
    (history_invariant (I := PositionsIncrease) ⟨by simp, by simp⟩
      (fun _ _ _ hhist hexact => hhist.call hexact) h).1
  calls := fun call hcall => fetchEvents_spec (h call hcall)

/-! ### Two servers -/

namespace Sample

def indexer (ledgerSequence : ℕ) : IndexerSync where
  cursor := { ledgerSequence := ledgerSequence, txIndex := 0 }
  contractIds := ["C1"]

/-- A mint of a credit that the database does not know, as the parser reads it. -/
def mintEvent (ledger : ℕ) : RpcEvent where
  ledger := some ledger
  txIndex := some 1
  topic := some [.string "credit_minted"]
  value := .object [("credit_id", .number (.finite 1))]

/-- A server that answers every request with these events. -/
def pageOf (events : List RpcEvent) : ℕ → ℕ → RpcAnswer := fun _ _ => .events events

/-- A page of events below `2^53` is exact. -/
theorem pageOf_exact {sync : IndexerSync} {events : List RpcEvent}
    (hcursor : sync.cursor.ledgerSequence < 2 ^ 53)
    (hevents : ∀ e ∈ events, ∀ l ∈ e.ledger, l < 2 ^ 53) : ExactLedgers sync (pageOf events) := by
  refine ⟨hcursor, ?_⟩
  rintro e ⟨_, _, page, hpage, he⟩ l hl
  obtain rfl := RpcAnswer.events.inj hpage
  exact hevents e he l hl

/-- A server that answers every request with the one event. -/
def oneEvent (ledger : ℕ) : ℕ → ℕ → RpcAnswer := pageOf [mintEvent ledger]

/-- So is a page with one event. -/
theorem oneEvent_exact {ledger : ℕ} (h : ledger < 2 ^ 53) :
    ExactLedgers (indexer ledger) (oneEvent ledger) := by
  refine pageOf_exact h fun e he l hl => ?_
  obtain rfl := List.mem_singleton.mp he
  obtain rfl := Option.some.inj hl
  exact h

def eventAt (ledger txIndex : ℕ) : RpcEvent := { mintEvent ledger with txIndex := some txIndex }

/-- Polls that find three events; then the last of them, one they left behind, and two new ones;
and then one more. -/
def polledPages : List (ℕ → ℕ → RpcAnswer) :=
  [pageOf [eventAt 7 1, eventAt 7 3, eventAt 8 1],
    pageOf [eventAt 8 1, eventAt 7 2, eventAt 9 2, eventAt 9 5], pageOf [eventAt 12 1]]

/-- The pages of the example are exact. -/
theorem polledPages_exact : Always nextSync ExactLedgers (indexer 7) polledPages := by
  unfold polledPages
  rw [always_cons, always_cons, always_cons]
  exact ⟨pageOf_exact (by decide) (by decide), pageOf_exact (by decide +kernel) (by decide),
    pageOf_exact (by decide +kernel) (by decide), always_nil _ _⟩

/-- The accepted positions. -/
example : (steps nextSync (indexer 7) polledPages).flatMap
    (fun call => (acceptedPositions call).map fun p => (p.ledgerSequence, p.txIndex)) =
      [(7, 1), (7, 3), (8, 1), (9, 2), (9, 5), (12, 1)] := by
  decide +kernel

end Sample

open Sample in
/-- The positions of three polls increase, over repeated and out-of-order events. -/
theorem positions_increase_pages : RunSpec (steps nextSync (indexer 7) polledPages) :=
  positions_increase (indexer 7) polledPages polledPages_exact

open Sample in
/-- At ledger `2^53` the drained exit puts the cursor before the event just accepted. -/
theorem positions_repeat :
    ¬ ∀ (sync : IndexerSync) (calls : List (ℕ → ℕ → RpcAnswer)),
      RunSpec (steps nextSync sync calls) := by
  intro h
  have hspec := (h (indexer (2 ^ 53)) [oneEvent (2 ^ 53)]).calls _ List.mem_cons_self
  have hle := hspec.le_cursor [({ ledgerSequence := 2 ^ 53, txIndex := 1 }, mintEvent (2 ^ 53))]
    rfl _ List.mem_cons_self
  have hcursor : (fetchEvents (indexer (2 ^ 53)) (oneEvent (2 ^ 53))).sync.cursor
      = { ledgerSequence := JsNumber.succ (2 ^ 53), txIndex := 0 } := rfl
  rw [hcursor, JsNumber.succ_two_pow, SyncCursor.le_iff] at hle
  simp at hle

/-! ## Events whose processing rejects -/

/-- The positions of the events of the batch. -/
def batchPositions (engine : JsEngine) (handed : List (SyncCursor × RpcEvent)) :
    List SyncCursor :=
  handed.filterMap fun p => (EventParser.parseRpcEvent engine p.2).map fun _ => p.1

/-- The batch has as many positions as events. -/
theorem length_batchPositions (engine : JsEngine) (handed : List (SyncCursor × RpcEvent)) :
    (batchPositions engine handed).length = (batch engine handed).length := by
  induction handed with
  | nil => rfl
  | cons p handed ih =>
      unfold batchPositions batch at ih ⊢
      cases hparse : EventParser.parseRpcEvent engine p.2 with
      | none => simpa [hparse] using ih
      | some event => simpa [hparse] using ih

/-- The positions of the batch are those of the events handed on. -/
theorem mem_handed_of_batchPositions {engine : JsEngine} {handed : List (SyncCursor × RpcEvent)}
    {c : SyncCursor} (h : c ∈ batchPositions engine handed) : c ∈ handed.map Prod.fst := by
  obtain ⟨p, hp, hparse⟩ := List.mem_filterMap.mp h
  obtain ⟨_, _, rfl⟩ := Option.map_eq_some_iff.mp hparse
  exact List.mem_map_of_mem hp

/-- The event that a batch stops at is one of its events. -/
theorem lt_of_rejected {client : DbClient} {outage : ℕ → Bool} {i k : ℕ}
    {events : List SyncEvent} {db : Mirror}
    (h : (processBatch client outage i events db).2 = some k) : k < i + events.length := by
  induction events generalizing i db with
  | nil => cases h
  | cons event events ih =>
      unfold processBatch at h
      split_ifs at h with hout
      · obtain rfl := Option.some.inj h
        simp
      · split at h
        · have := ih h
          simp only [List.length_cons]
          omega
        · obtain rfl := Option.some.inj h
          simp

section Rejected

variable (engine : JsEngine) (client : DbClient) (sync : IndexerSync) (db : Mirror)
  (rpc : ℕ → ℕ → RpcAnswer) (outage : ℕ → Bool) (k : ℕ)

/-- The positions of the batch of a poll. -/
def polledPositions : List SyncCursor :=
  batchPositions engine ((fetchEvents sync rpc).handed.getD [])

/-- After the poll, the cursor is not past event `k` of its batch. -/
def Retried : Prop :=
  ∀ c ∈ (polledPositions engine sync rpc)[k]?,
    (poll engine client sync db rpc outage).sync.cursor < c

variable {engine client sync db rpc outage k}

/-- Whatever the database answers, the cursor is the one of the call. -/
theorem poll_sync : (poll engine client sync db rpc outage).sync = nextSync sync rpc := by
  unfold poll nextSync
  dsimp only
  split <;> rfl

/-- The rejected event has a position in the batch. -/
theorem getElem?_of_rejected (h : (poll engine client sync db rpc outage).rejected = some k) :
    ∃ c, (polledPositions engine sync rpc)[k]? = some c := by
  unfold poll at h
  unfold polledPositions
  dsimp only at h
  cases hhanded : (fetchEvents sync rpc).handed with
  | none =>
      rw [hhanded] at h
      cases h
  | some handed =>
      rw [hhanded] at h
      have hlt := lt_of_rejected h
      rw [Nat.zero_add, ← length_batchPositions] at hlt
      exact ⟨_, List.getElem?_eq_getElem hlt⟩

/-- No position of the batch is behind the cursor that is stored. -/
theorem polledPositions_le (hexact : ExactLedgers sync rpc) {c : SyncCursor}
    (hc : c ∈ polledPositions engine sync rpc) : c ≤ (nextSync sync rpc).cursor := by
  have hmem : c ∈ acceptedPositions (sync, rpc) := mem_handed_of_batchPositions hc
  exact ((fetchEvents_spec hexact).accepted.2 c hmem).2

/-- No later call accepts a position that the cursor has reached. -/
theorem not_accepted_later {later : List (ℕ → ℕ → RpcAnswer)} {c : SyncCursor}
    (hc : c ≤ sync.cursor) (h : Always nextSync ExactLedgers sync later) :
    c ∉ (steps nextSync sync later).flatMap acceptedPositions := by
  induction later generalizing sync with
  | nil => simp
  | cons rpc later ih =>
      obtain ⟨hexact, hlater⟩ := always_cons.mp h
      have hspec := fetchEvents_spec hexact
      rw [steps_cons, List.flatMap_cons, List.mem_append]
      rintro (hnow | hthen)
      · exact absurd (hspec.accepted.2 c hnow).1 (not_lt_of_ge hc)
      · exact ih (hc.trans hspec.cursor_le) hlater hthen

end Rejected

/-- **Failed processing is not retried.**  Whenever the processing of an event of a batch
rejects, the cursor is past the event, and no later call hands it, or an event after it in the
batch, to the parser again. -/
theorem rejected_not_retried (engine : JsEngine) (client : DbClient) (sync : IndexerSync)
    (db : Mirror) (rpc : ℕ → ℕ → RpcAnswer) (outage : ℕ → Bool) (k : ℕ)
    (hexact : ExactLedgers sync rpc)
    (hrejected : (poll engine client sync db rpc outage).rejected = some k) :
    ¬ Retried engine client sync db rpc outage k ∧
      ∀ later, Always nextSync ExactLedgers (poll engine client sync db rpc outage).sync later →
        ∀ c ∈ (polledPositions engine sync rpc).drop k,
          c ∉ (steps nextSync (poll engine client sync db rpc outage).sync later).flatMap
            acceptedPositions := by
  rw [poll_sync]
  constructor
  · intro hretried
    obtain ⟨c, hc⟩ := getElem?_of_rejected hrejected
    have hbefore := hretried c hc
    rw [poll_sync] at hbefore
    exact absurd hbefore (not_lt_of_ge (polledPositions_le hexact (List.mem_of_getElem? hc)))
  · intro later hlater c hc
    exact not_accepted_later (polledPositions_le hexact (List.mem_of_mem_drop hc)) hlater

namespace Sample

def engine : JsEngine where
  printDouble _ := ""
  decodeUtf8 _ := ""

/-- A database that takes every text and no date text. -/
def dbClient : DbClient where
  storesText _ := true
  dateOfText _ := none

/-- The update of a credit that does not exist rejects. -/
theorem mint_rejected :
    (poll engine dbClient (indexer 7) {} (oneEvent 7) fun _ => false).rejected = some 0 := rfl

end Sample

open Sample in
/-- A mint that the database refuses is not polled again. -/
theorem rejected_not_retried_mint :
    ¬ Retried engine dbClient (indexer 7) {} (oneEvent 7) (fun _ => false) 0 ∧
      ∀ later, Always nextSync ExactLedgers
          (poll engine dbClient (indexer 7) {} (oneEvent 7) fun _ => false).sync later →
        ∀ c ∈ (polledPositions engine (indexer 7) (oneEvent 7)).drop 0,
          c ∉ (steps nextSync
            (poll engine dbClient (indexer 7) {} (oneEvent 7) fun _ => false).sync later).flatMap
              acceptedPositions :=
  rejected_not_retried engine dbClient (indexer 7) {} (oneEvent 7) (fun _ => false) 0
    (oneEvent_exact (by decide)) mint_rejected

open Sample in
/-- Not every rejected event is tried again. -/
theorem mint_not_retried :
    ¬ ∀ (engine : JsEngine) (client : DbClient) (sync : IndexerSync) (db : Mirror)
      (rpc : ℕ → ℕ → RpcAnswer) (outage : ℕ → Bool) (k : ℕ),
      ExactLedgers sync rpc → (poll engine client sync db rpc outage).rejected = some k →
        Retried engine client sync db rpc outage k := by
  intro h
  have hretried := h engine dbClient (indexer 7) {} (oneEvent 7) (fun _ => false) 0
    (oneEvent_exact (by decide)) mint_rejected
  have hbefore := hretried { ledgerSequence := 7, txIndex := 1 } rfl
  have hcursor : (poll engine dbClient (indexer 7) {} (oneEvent 7) fun _ => false).sync.cursor
      = { ledgerSequence := JsNumber.succ 7, txIndex := 0 } := rfl
  rw [hcursor, JsNumber.succ_of_lt (by decide), SyncCursor.lt_iff] at hbefore
  simp at hbefore

end CarbonVeritas
