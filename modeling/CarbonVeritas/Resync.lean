/-
# The full re-sync of the indexer

`indexer/src/sync.ts`: `resyncFromGenesis`, which sets the cursor back to the first ledger and
then fetches and processes batch after batch, as long as the flag `running` is up and the batch
is not empty.  The flag and the cursor belong to the polling loop of `start` as well, so what
is left of them at each turn is a parameter (`Turn`).

* `resync_spans`: on a log of one event for each transaction, the events handed to
  `processEvent` are the parsed events of the spans of the log that the turns read;
* `Resync.returnsComplete_iff`: a call returns only after all known events if and only if the
  turn at which it ends finds none left and no turn began anywhere but at the next one;
* `Resync.returnsComplete_iff_of_quiet`: what this says when nobody else moves the cursor.
-/
import CarbonVeritas.IndexerDelivery
import CarbonVeritas.Stretches

namespace CarbonVeritas

open Stretches

/-! ## The loop -/

/-- What a turn of the loop meets: the flag, what the polling loop makes of the cursor before
the turn and during its page requests, and which of its calls of `processEvent` fulfil. -/
structure Turn where
  running : Bool := true
  before : SyncCursor → SyncCursor := id
  during : SyncCursor → SyncCursor := id
  fulfils : ℕ → Bool := fun _ => true

/-- How a call ends, if it ends within the turns allowed. -/
inductive Ending where
  | returned
  | threw
  | unfinished
  deriving DecidableEq, Repr

/-- What a call does: what it hands to `processEvent`, with the positions of the events, and
how it ends. -/
structure Resynced where
  sync : IndexerSync
  handed : List (SyncCursor × SyncEvent) := []
  ending : Ending

/-- `fetchEvents` when the cursor moves during its page requests: the end compares with the
cursor that it finds then. -/
def fetchEventsAmid (during : SyncCursor → SyncCursor) (sync : IndexerSync)
    (rpc : ℕ → ℕ → RpcAnswer) : Fetched :=
  if sync.contractIds = [] then { requests := [], sync := sync, handed := some [] }
  else
    let paged := fetchPages rpc MAX_PAGES 0 sync.cursor.ledgerSequence { seen := sync.cursor }
    let found := during sync.cursor
    { requests := paged.requests
      sync := match paged.result with
        | some (st, drained) => { sync with cursor := advance found st drained }
        | none => { sync with cursor := found }
      handed := paged.result.map fun r => r.1.handed }

/-- On its own, it is `fetchEvents`. -/
theorem fetchEventsAmid_id (sync : IndexerSync) (rpc : ℕ → ℕ → RpcAnswer) :
    fetchEventsAmid id sync rpc = fetchEvents sync rpc := rfl

/-- The batch, with the positions of its events. -/
def batchAt (engine : JsEngine) (handed : List (SyncCursor × RpcEvent)) :
    List (SyncCursor × SyncEvent) :=
  handed.filterMap fun p => (EventParser.parseRpcEvent engine p.2).map fun event => (p.1, event)

/-- Without their positions, the events of a batch are the batch. -/
theorem batchAt_events (engine : JsEngine) (handed : List (SyncCursor × RpcEvent)) :
    (batchAt engine handed).map Prod.snd = batch engine handed := by
  unfold batchAt batch
  rw [List.map_filterMap]
  refine List.filterMap_congr fun p _ => ?_
  rw [Option.map_map]
  exact Option.map_id'

/-- The loop over a batch, which stops at the first event whose processing rejects: the events
handed on, and whether all of them were processed. -/
def processAll {ε : Type*} (fulfils : ℕ → Bool) : ℕ → List ε → List ε × Bool
  | _, [] => ([], true)
  | k, event :: rest =>
      if fulfils k then
        (event :: (processAll fulfils (k + 1) rest).1, (processAll fulfils (k + 1) rest).2)
      else ([event], false)

/-- The loop of `resyncFromGenesis`, from the turn `i` on. -/
def resyncLoop (engine : JsEngine) (rpc : ℕ → ℕ → RpcAnswer) (turns : ℕ → Turn) :
    (turnsLeft i : ℕ) → IndexerSync → Resynced
  | 0, _, sync => { sync := sync, ending := .unfinished }
  | turnsLeft + 1, i, sync =>
      let sync := { sync with cursor := (turns i).before sync.cursor }
      if (turns i).running then
        let fetched := fetchEventsAmid (turns i).during sync rpc
        match fetched.handed with
        | none => { sync := fetched.sync, ending := .threw }
        | some handed =>
            let events := batchAt engine handed
            if events = [] then { sync := fetched.sync, ending := .returned }
            else
              let processed := processAll (turns i).fulfils 0 events
              if processed.2 then
                let rest := resyncLoop engine rpc turns turnsLeft (i + 1) fetched.sync
                { rest with handed := processed.1 ++ rest.handed }
              else { sync := fetched.sync, handed := processed.1, ending := .threw }
      else { sync := sync, ending := .returned }

def genesis : SyncCursor where
  ledgerSequence := 1
  txIndex := 0

/-- `resyncFromGenesis` -/
def resyncFromGenesis (engine : JsEngine) (rpc : ℕ → ℕ → RpcAnswer) (turns : ℕ → Turn)
    (turnsLeft : ℕ) (sync : IndexerSync) : Resynced :=
  resyncLoop engine rpc turns turnsLeft 0 { sync with cursor := genesis }

/-- A batch that was processed to its end has handed on all its events. -/
theorem processAll_fst {ε : Type*} {fulfils : ℕ → Bool} (events : List ε) (k : ℕ)
    (h : (processAll fulfils k events).2 = true) : (processAll fulfils k events).1 = events := by
  induction events generalizing k with
  | nil => rfl
  | cons event rest ih =>
      unfold processAll at h ⊢
      split_ifs at h ⊢
      · rw [ih (k + 1) h]

/-- A batch is processed to its end when the turn of each of its events is fulfilled. -/
theorem processAll_snd {ε : Type*} {fulfils : ℕ → Bool} (events : List ε) (k : ℕ) :
    (processAll fulfils k events).2 = true ↔ ∀ j < events.length, fulfils (k + j) = true := by
  induction events generalizing k with
  | nil => simp [processAll]
  | cons event rest ih =>
      unfold processAll
      rw [List.length_cons, Nat.forall_lt_succ_left]
      split_ifs with hk
      · rw [ih (k + 1)]
        simp only [Nat.add_zero, hk, true_and, Nat.add_right_comm k 1, Nat.add_assoc]
      · simp [hk]

/-! ## Known events -/

/-- The names that the `switch` of `parseRpcEvent` has a case for. -/
def knownTopics : List String :=
  ["bridged", "bridge_ot", "root_upd", "credit_submitted", "credit_approved", "credit_minted",
    "credit_rejected", "credit_transferred", "credit_retired", "offer_created", "offer_filled",
    "offer_cancelled"]

/-- An event is parsed when its topic is known. -/
theorem parseTopic_isSome (engine : JsEngine) (name : String) (e : RpcEvent) :
    (EventParser.parseTopic engine name e).isSome = true ↔ name ∈ knownTopics := by
  unfold EventParser.parseTopic knownTopics
  dsimp only
  split <;> simp_all

namespace LogEvent

def hasKnownTopic (e : LogEvent) : Bool :=
  match e.topic.getD 0 .undefined with
  | .string name => name ∈ knownTopics
  | _ => false

/-- What the call of `processEvent` for the event is handed, if there is one. -/
def handing (engine : JsEngine) (e : LogEvent) : Option (SyncCursor × SyncEvent) :=
  (EventParser.parseRpcEvent engine e.rpcEvent).map fun event => (e.position, event)

/-- An event is parsed if its topic is known and its value is not falsy. -/
theorem handing_isSome (engine : JsEngine) (e : LogEvent) :
    (e.handing engine).isSome = true ↔ e.hasKnownTopic = true ∧ e.value.truthy = true := by
  have htopic : (e.rpcEvent.topic.getD []).getD 0 .undefined = e.topic.getD 0 .undefined := rfl
  have hvalue : e.rpcEvent.value = e.value := rfl
  unfold handing EventParser.parseRpcEvent hasKnownTopic
  rw [Option.isSome_map, htopic, hvalue]
  by_cases htruthy : e.value.truthy = true
  · rw [if_pos htruthy]
    cases e.topic.getD 0 .undefined with
    | string name => simpa [htruthy] using parseTopic_isSome engine name e.rpcEvent
    | _ => simp
  · rw [if_neg htruthy]
    simp [htruthy]

end LogEvent

/-- The successful events with a known topic. -/
def knownEvents (log : List LogEvent) : List LogEvent :=
  log.filter fun e => e.successful ∧ e.hasKnownTopic

/-- Those of them that are parsed. -/
def parsedEvents (engine : JsEngine) (log : List LogEvent) : List LogEvent :=
  log.filter fun e => e.successful ∧ (e.handing engine).isSome

/-! ## Where the pages of a turn lead -/

/-- The last position that a turn accepts, reading pages until one is not full. -/
def pagesLead (log : List LogEvent) : (pagesLeft : ℕ) → SyncCursor → SyncCursor
  | 0, seen => seen
  | pagesLeft + 1, seen =>
      let page := window log seen.ledgerSequence
      if page.length < PAGE_LIMIT then reach seen page
      else pagesLead log pagesLeft (reach seen page)

/-- Whether a page that is not full is among them. -/
def pagesDrain (log : List LogEvent) : (pagesLeft : ℕ) → SyncCursor → Bool
  | 0, _ => false
  | pagesLeft + 1, seen =>
      let page := window log seen.ledgerSequence
      if page.length < PAGE_LIMIT then true else pagesDrain log pagesLeft (reach seen page)

/-- Where a turn that read the cursor `c` leaves it, if it is `found` when the pages are in. -/
def leaves (log : List LogEvent) (found c : SyncCursor) : SyncCursor :=
  advance found { seen := pagesLead log MAX_PAGES c
                  sawEvents := between log c (pagesLead log MAX_PAGES c) ≠ [] }
    (pagesDrain log MAX_PAGES c)

section Pages

variable {log : List LogEvent}

/-- A call without failures sees what the pages lead to, and drains when they do. -/
theorem fetchPages_lead (h : Regular log) (pagesLeft : ℕ) :
    ∀ (pageCount : ℕ) (st : Scan), ∀ r ∈ (fetchPages (server log fun _ => false) pagesLeft
      pageCount st.seen.ledgerSequence st).result,
        r.1.seen = pagesLead log pagesLeft st.seen ∧ r.2 = pagesDrain log pagesLeft st.seen := by
  induction pagesLeft with
  | zero =>
      rintro pageCount st r ⟨⟩
      exact ⟨rfl, rfl⟩
  | succ pagesLeft ih =>
      intro pageCount st r hr
      have hseen := (page_map (window log st.seen.ledgerSequence) st (window_distinct h _)).1
      unfold fetchPages server at hr
      unfold pagesLead pagesDrain
      dsimp only
      simp only [Bool.false_eq_true, if_false, fetchEventPage] at hr
      cases hwindow : window log st.seen.ledgerSequence with
      | nil =>
          rw [hwindow] at hr
          obtain rfl := Option.some.inj hr
          exact ⟨rfl, rfl⟩
      | cons e rest =>
          rw [hwindow] at hr hseen
          rw [List.map_cons] at hr hseen
          dsimp only at hr
          have hlength : (e.rpcEvent :: rest.map LogEvent.rpcEvent).length
              = (e :: rest).length := by simp
          rw [hlength] at hr
          split_ifs at hr ⊢ with hshort
          · obtain rfl := Option.some.inj hr
            exact ⟨hseen, rfl⟩
          · rw [← hseen]
            exact ih _ _ r hr

/-- The pages of a turn, from its first cursor on. -/
theorem fetchPages_turn (h : Regular log) (c : SyncCursor) :
    ∃ r, (fetchPages (server log fun _ => false) MAX_PAGES 0 c.ledgerSequence
        { seen := c }).result = some r ∧ LogScan log c r.1 ∧
      (r.2 = true → r.1.sawEvents = true → between log r.1.seen (nextLedger r.1.seen) = []) ∧
      r.1.seen = pagesLead log MAX_PAGES c ∧
      ∀ found, advance found r.1 r.2 = leaves log found c := by
  obtain ⟨r, hresult, hr, hdone⟩ := fetchPages_server h MAX_PAGES 0 _ (logScan_first log c)
    (harmless_none log c MAX_PAGES 0 c)
  obtain ⟨hseen, hdrained⟩ := fetchPages_lead h MAX_PAGES 0 { seen := c } r hresult
  refine ⟨r, hresult, hr, hdone, hseen, fun found => ?_⟩
  have hsaw : r.1.sawEvents = decide (between log c (pagesLead log MAX_PAGES c) ≠ []) := by
    rw [Bool.eq_iff_iff, hr.saw_iff, hr.handed_eq, hseen, decide_eq_true_eq, ne_eq,
      List.map_eq_nil_iff]
  unfold leaves advance
  rw [hseen, hdrained, hsaw]

/-- **A turn on the log.**  It hands on the successful events between the cursor that it reads
and where its pages lead. -/
theorem fetchEventsAmid_server (h : Regular log) (sync : IndexerSync)
    (during : SyncCursor → SyncCursor) (hne : sync.contractIds ≠ []) :
    (fetchEventsAmid during sync (server log fun _ => false)).handed
        = some ((between log sync.cursor (pagesLead log MAX_PAGES sync.cursor)).map
            LogEvent.entry) ∧
      (fetchEventsAmid during sync (server log fun _ => false)).sync
        = { sync with cursor := leaves log (during sync.cursor) sync.cursor } := by
  obtain ⟨r, hresult, hr, -, hseen, hleaves⟩ := fetchPages_turn h sync.cursor
  unfold fetchEventsAmid
  rw [if_neg hne]
  dsimp only
  rw [hresult, ← hseen, ← hleaves]
  exact ⟨congrArg some hr.handed_eq, rfl⟩

/-- The pages lead on from the cursor. -/
theorem le_pagesLead (h : Regular log) (c : SyncCursor) : c ≤ pagesLead log MAX_PAGES c := by
  obtain ⟨r, -, hr, -, hseen, -⟩ := fetchPages_turn h c
  rw [← hseen]
  exact hr.cursor_le

/-- A turn during which the cursor stays where it was leaves it after the last event accepted
and before the next one. -/
theorem leaves_self (h : Regular log) (c : SyncCursor) :
    pagesLead log MAX_PAGES c ≤ leaves log c c ∧
      between log (pagesLead log MAX_PAGES c) (leaves log c c) = [] := by
  obtain ⟨r, -, hr, hdone, hseen, hleaves⟩ := fetchPages_turn h c
  obtain ⟨hle, hcovered⟩ := advance_server h hr hdone
  rw [hr.handed_eq, hleaves, ← between_append h hr.cursor_le (hle.trans_eq (hleaves c)),
    List.map_append] at hcovered
  rw [← hseen, ← hleaves]
  rw [hleaves] at hle ⊢
  refine ⟨hle, ?_⟩
  simpa using hcovered

end Pages

/-! ## The spans of a call -/

/-- A log of one event for each transaction, from the first ledger on. -/
structure OneEventEach (log : List LogEvent) : Prop where
  increasing : log.Pairwise fun a b => a.position < b.position
  first_ledger : ∀ e ∈ log, 1 ≤ e.position.ledgerSequence
  first_tx : ∀ e ∈ log, 1 ≤ e.position.txIndex
  exact_ledger : ∀ e ∈ log, e.position.ledgerSequence < 2 ^ 53

/-- A log with one event for each position is a regular one. -/
theorem OneEventEach.regular {log : List LogEvent} (h : OneEventEach log) : Regular log where
  sorted := h.increasing.imp le_of_lt
  distinct := h.increasing.sublist List.filter_sublist
  exact_ledger := h.exact_ledger

/-- All events lie behind the first cursor. -/
theorem OneEventEach.genesis_lt {log : List LogEvent} (h : OneEventEach log) {e : LogEvent}
    (he : e ∈ log) : genesis < e.position := by
  have hledger := h.first_ledger e he
  have htx := h.first_tx e he
  rw [SyncCursor.lt_iff]
  unfold genesis
  dsimp only
  omega

/-- An event is known by its position. -/
theorem OneEventEach.eq_of_position {log : List LogEvent} (h : OneEventEach log)
    {x y : LogEvent} (hx : x ∈ log) (hy : y ∈ log) (hxy : x.position = y.position) : x = y := by
  have hnodup : (log.map LogEvent.position).Nodup :=
    List.pairwise_map.mpr (h.increasing.imp ne_of_lt)
  exact List.inj_on_of_nodup_map hnodup hx hy hxy

/-- A call of `resyncFromGenesis`: the log it is served, the contracts watched, and what its
turns meet. -/
structure Resync where
  engine : JsEngine
  contractIds : List String
  log : List LogEvent
  turns : ℕ → Turn

namespace Resync

variable (R : Resync)

/-- The call, on an indexer with some cursor. -/
def call (turnsLeft : ℕ) (cursor : SyncCursor) : Resynced :=
  resyncFromGenesis R.engine (server R.log fun _ => false) R.turns turnsLeft
    { cursor := cursor, contractIds := R.contractIds }

/-- The parsed events after one cursor and up to another. -/
def parsedBetween (c d : SyncCursor) : List LogEvent :=
  stretch LogEvent.position (parsedEvents R.engine R.log) c d

/-- The cursor as the last turn left it. -/
def cursorAt : ℕ → SyncCursor
  | 0 => genesis
  | i + 1 =>
      let c := (R.turns i).before (cursorAt i)
      leaves R.log ((R.turns i).during c) c

/-- The cursor that a turn reads. -/
def readAt (i : ℕ) : SyncCursor := (R.turns i).before (R.cursorAt i)

/-- Where its pages lead. -/
def endAt (i : ℕ) : SyncCursor := pagesLead R.log MAX_PAGES (R.readAt i)

/-- The place up to which the turns before have read. -/
def reachedAt : ℕ → SyncCursor
  | 0 => genesis
  | i + 1 => R.endAt i

/-- A turn finds something to process: the flag is up, contracts are watched, and its pages hold
an event to parse. -/
def HasBatch (i : ℕ) : Prop :=
  (R.turns i).running = true ∧ R.contractIds ≠ [] ∧ R.parsedBetween (R.readAt i) (R.endAt i) ≠ []

/-- The whole batch of a turn is processed. -/
def Processed (i : ℕ) : Prop :=
  ∀ k < (R.parsedBetween (R.readAt i) (R.endAt i)).length, (R.turns i).fulfils k = true

/-- From the turn `i` on, `k` turns process a batch and the next one finds none. -/
def EndsAfter (i k : ℕ) : Prop :=
  (∀ j < k, R.HasBatch (i + j) ∧ R.Processed (i + j)) ∧ ¬ R.HasBatch (i + k)

/-- The spans of the log that `k` turns from the turn `i` on read. -/
def spans (i k : ℕ) : List (SyncCursor × SyncCursor) :=
  (List.range' i k).map fun j => (R.readAt j, R.endAt j)

variable {R}

/-- The batch of a call holds the parsed events between its cursors. -/
theorem batchAt_between (log : List LogEvent) (engine : JsEngine) (c d : SyncCursor) :
    batchAt engine ((between log c d).map LogEvent.entry)
      = (stretch LogEvent.position (parsedEvents engine log) c d).filterMap
          (LogEvent.handing engine) := by
  have hparsed : stretch LogEvent.position (parsedEvents engine log) c d
      = (between log c d).filter fun e => (e.handing engine).isSome := by
    unfold stretch parsedEvents between
    rw [List.filter_filter, List.filter_filter]
    refine List.filter_congr fun e _ => ?_
    rw [Bool.eq_iff_iff]
    simp only [Bool.and_eq_true, decide_eq_true_eq]
    tauto
  unfold batchAt
  rw [hparsed, List.filterMap_map, List.filterMap_filter]
  refine List.filterMap_congr fun e _ => ?_
  have hentry : ((EventParser.parseRpcEvent engine e.entry.2).map fun event => (e.entry.1, event))
      = e.handing engine := rfl
  rw [Function.comp_apply, hentry]
  cases e.handing engine <;> rfl

/-- Nothing is lost in handing on parsed events. -/
theorem map_some_filterMap {engine : JsEngine} {events : List LogEvent}
    (h : ∀ e ∈ events, (e.handing engine).isSome = true) :
    (events.filterMap (LogEvent.handing engine)).map some
      = events.map (LogEvent.handing engine) := by
  induction events with
  | nil => rfl
  | cons e events ih =>
      obtain ⟨handed, hhanded⟩ := Option.isSome_iff_exists.mp (h e List.mem_cons_self)
      rw [List.filterMap_cons_some hhanded, List.map_cons, List.map_cons, hhanded,
        ih fun x hx => h x (List.mem_cons_of_mem _ hx)]

/-- A parsed event is handed on. -/
theorem handing_of_mem_parsedBetween {c d : SyncCursor} {e : LogEvent}
    (he : e ∈ R.parsedBetween c d) : (e.handing R.engine).isSome = true := by
  have hparsed := (mem_stretch.mp he).1
  unfold parsedEvents at hparsed
  exact (of_decide_eq_true (List.mem_filter.mp hparsed).2).2

/-- None of the parsed events is lost when they are handed on. -/
theorem length_filterMap_parsedBetween (c d : SyncCursor) :
    ((R.parsedBetween c d).filterMap (LogEvent.handing R.engine)).length
      = (R.parsedBetween c d).length := by
  have hmap := congrArg List.length
    (map_some_filterMap fun e (he : e ∈ R.parsedBetween c d) => handing_of_mem_parsedBetween he)
  rwa [List.length_map, List.length_map] at hmap

/-! ### Turn after turn -/

variable (R) in
/-- The loop from the turn `i` on, as the turns before leave the cursor. -/
def callFrom (turnsLeft i : ℕ) : Resynced :=
  resyncLoop R.engine (server R.log fun _ => false) R.turns turnsLeft i
    { cursor := R.cursorAt i, contractIds := R.contractIds }

/-- A call starts at its first page. -/
theorem call_eq (turnsLeft : ℕ) (cursor : SyncCursor) :
    R.call turnsLeft cursor = R.callFrom turnsLeft 0 := rfl

variable (R) in
/-- What a turn hands to `processEvent`, unless one of the events rejects. -/
def handedAt (i : ℕ) : List (SyncCursor × SyncEvent) :=
  (R.parsedBetween (R.readAt i) (R.endAt i)).filterMap (LogEvent.handing R.engine)

/-- A call hands nothing on when no parsed event lies between its cursors. -/
theorem handedAt_eq_nil_iff {i : ℕ} :
    R.handedAt i = [] ↔ R.parsedBetween (R.readAt i) (R.endAt i) = [] := by
  rw [← List.length_eq_zero_iff, ← List.length_eq_zero_iff]
  unfold handedAt
  rw [length_filterMap_parsedBetween]

/-- A batch is processed when the turns of all its events are fulfilled. -/
theorem processed_iff {i : ℕ} :
    R.Processed i ↔ (processAll (R.turns i).fulfils 0 (R.handedAt i)).2 = true := by
  rw [processAll_snd]
  unfold handedAt Processed
  rw [length_filterMap_parsedBetween]
  simp only [Nat.zero_add]

/-- A turn with the flag up. -/
theorem callFrom_succ (h : OneEventEach R.log) {i : ℕ} (hrunning : (R.turns i).running = true)
    (hconfigured : R.contractIds ≠ []) (turnsLeft : ℕ) :
    R.callFrom (turnsLeft + 1) i =
      let left : IndexerSync := { cursor := R.cursorAt (i + 1), contractIds := R.contractIds }
      let processed := processAll (R.turns i).fulfils 0 (R.handedAt i)
      if R.handedAt i = [] then { sync := left, ending := .returned }
      else if processed.2 then
        { R.callFrom turnsLeft (i + 1) with
          handed := processed.1 ++ (R.callFrom turnsLeft (i + 1)).handed }
      else { sync := left, handed := processed.1, ending := .threw } := by
  obtain ⟨hhanded, hsync⟩ := fetchEventsAmid_server h.regular
    { cursor := (R.turns i).before (R.cursorAt i), contractIds := R.contractIds }
    (R.turns i).during hconfigured
  have hbatch : batchAt R.engine ((between R.log (R.readAt i) (R.endAt i)).map LogEvent.entry)
      = R.handedAt i := batchAt_between R.log R.engine _ _
  show resyncLoop R.engine _ R.turns (turnsLeft + 1) i _ = _
  rw [resyncLoop, if_pos hrunning]
  dsimp only at hhanded hsync ⊢
  rw [hhanded, hsync, ← hbatch]
  rfl

/-- A turn without a batch ends the call. -/
theorem callFrom_of_not_hasBatch (h : OneEventEach R.log) {i : ℕ} (hnone : ¬ R.HasBatch i)
    (turnsLeft : ℕ) :
    (R.callFrom (turnsLeft + 1) i).ending = .returned ∧
      (R.callFrom (turnsLeft + 1) i).handed = [] := by
  by_cases hrunning : (R.turns i).running = true
  · by_cases hidle : R.contractIds = []
    · unfold callFrom resyncLoop fetchEventsAmid
      dsimp only
      rw [if_pos hrunning, if_pos hidle]
      exact ⟨rfl, rfl⟩
    · have hempty : R.handedAt i = [] := by
        rw [handedAt_eq_nil_iff]
        by_contra hne
        exact hnone ⟨hrunning, hidle, hne⟩
      rw [callFrom_succ h hrunning hidle]
      dsimp only
      rw [if_pos hempty]
      exact ⟨rfl, rfl⟩
  · unfold callFrom resyncLoop
    dsimp only
    rw [if_neg hrunning]
    exact ⟨rfl, rfl⟩

/-- A turn whose batch is processed hands it on and goes to the next turn. -/
theorem callFrom_of_processed (h : OneEventEach R.log) {i : ℕ} (hbatch : R.HasBatch i)
    (hprocessed : R.Processed i) (turnsLeft : ℕ) :
    (R.callFrom (turnsLeft + 1) i).ending = (R.callFrom turnsLeft (i + 1)).ending ∧
      (R.callFrom (turnsLeft + 1) i).handed
        = R.handedAt i ++ (R.callFrom turnsLeft (i + 1)).handed := by
  rw [callFrom_succ h hbatch.1 hbatch.2.1]
  dsimp only
  rw [if_neg (mt handedAt_eq_nil_iff.mp hbatch.2.2), if_pos (processed_iff.mp hprocessed)]
  refine ⟨rfl, ?_⟩
  dsimp only
  rw [processAll_fst _ _ (processed_iff.mp hprocessed)]

/-- A turn whose batch rejects makes the call throw. -/
theorem callFrom_of_rejected (h : OneEventEach R.log) {i : ℕ} (hbatch : R.HasBatch i)
    (hrejected : ¬ R.Processed i) (turnsLeft : ℕ) :
    (R.callFrom (turnsLeft + 1) i).ending = .threw := by
  rw [callFrom_succ h hbatch.1 hbatch.2.1]
  dsimp only
  rw [if_neg (mt handedAt_eq_nil_iff.mp hbatch.2.2), if_neg (mt processed_iff.mpr hrejected)]

/-- The loop ends at once when the first call has no batch. -/
theorem endsAfter_zero {i : ℕ} : R.EndsAfter i 0 ↔ ¬ R.HasBatch i := by
  unfold EndsAfter
  simp

/-- The loop goes on after a batch that was processed. -/
theorem endsAfter_succ {i k : ℕ} :
    R.EndsAfter i (k + 1) ↔ (R.HasBatch i ∧ R.Processed i) ∧ R.EndsAfter (i + 1) k := by
  unfold EndsAfter
  rw [Nat.forall_lt_succ_left]
  simp only [Nat.add_zero, and_assoc, Nat.add_assoc, Nat.add_comm 1]

/-- **The spans of a call.**  A call that ends after `k` turns has handed on the parsed events
of the spans that they read. -/
theorem resync_spans (h : OneEventEach R.log) {k : ℕ} :
    ∀ {i turnsLeft : ℕ}, R.EndsAfter i k → k < turnsLeft →
      (R.callFrom turnsLeft i).ending = .returned ∧ (R.callFrom turnsLeft i).handed
        = ((R.spans i k).flatMap fun s => R.parsedBetween s.1 s.2).filterMap
            (LogEvent.handing R.engine) := by
  induction k with
  | zero =>
      intro i turnsLeft hends hlt
      obtain ⟨turnsLeft, rfl⟩ := Nat.exists_eq_succ_of_ne_zero (Nat.ne_of_gt hlt)
      exact callFrom_of_not_hasBatch h (endsAfter_zero.mp hends) turnsLeft
  | succ k ih =>
      intro i turnsLeft hends hlt
      obtain ⟨⟨hbatch, hprocessed⟩, hrest⟩ := endsAfter_succ.mp hends
      obtain ⟨turnsLeft, rfl⟩ := Nat.exists_eq_succ_of_ne_zero (Nat.ne_of_gt (k.succ_pos.trans hlt))
      obtain ⟨hending, hhanded⟩ := callFrom_of_processed h hbatch hprocessed turnsLeft
      obtain ⟨hreturned, hlater⟩ := ih hrest (Nat.lt_of_succ_lt_succ hlt)
      refine ⟨hending.trans hreturned, ?_⟩
      rw [hhanded, hlater]
      unfold spans
      rw [List.range'_succ, List.map_cons, List.flatMap_cons, List.filterMap_append]
      rfl

/-- Only a turn without a batch lets the call return. -/
theorem endsAfter_of_returned (h : OneEventEach R.log) {turnsLeft : ℕ} :
    ∀ {i : ℕ}, (R.callFrom turnsLeft i).ending = .returned →
      ∃ k < turnsLeft, R.EndsAfter i k := by
  induction turnsLeft with
  | zero =>
      intro i hreturned
      cases hreturned
  | succ turnsLeft ih =>
      intro i hreturned
      by_cases hbatch : R.HasBatch i
      · by_cases hprocessed : R.Processed i
        · rw [(callFrom_of_processed h hbatch hprocessed turnsLeft).1] at hreturned
          obtain ⟨k, hlt, hends⟩ := ih hreturned
          exact ⟨k + 1, Nat.succ_lt_succ hlt, endsAfter_succ.mpr ⟨⟨hbatch, hprocessed⟩, hends⟩⟩
        · rw [callFrom_of_rejected h hbatch hprocessed] at hreturned
          cases hreturned
      · exact ⟨0, Nat.succ_pos _, endsAfter_zero.mpr hbatch⟩

/-! ## Completeness -/

variable (R) in
/-- The call returns only after the successful events with a known topic have been handed to
`processEvent`, each once and in the order of the log. -/
def ReturnsComplete : Prop :=
  ∀ (turnsLeft : ℕ) (cursor : SyncCursor), (R.call turnsLeft cursor).ending = .returned →
    (R.call turnsLeft cursor).handed.map some
      = (knownEvents R.log).map (LogEvent.handing R.engine)

variable (R) in
/-- After `k` turns nothing is left: no known event has a falsy value; no turn began anywhere
but at the first event that the turns before had not read; and none comes after the last
turn. -/
structure LeavesNothing (k : ℕ) : Prop where
  values : ∀ e ∈ knownEvents R.log, e.value.truthy = true
  resumes : ∀ j < k, Clear LogEvent.position (parsedEvents R.engine R.log) (R.reachedAt j)
    (R.readAt j)
  exhausted : ∀ e ∈ parsedEvents R.engine R.log, e.position ≤ R.reachedAt k

/-- The spans tile the log when nothing lies between one and the next, or behind the last. -/
theorem tiles_spans_iff {k : ℕ} : ∀ {i : ℕ},
    Tiles LogEvent.position (parsedEvents R.engine R.log) (R.reachedAt i) (R.spans i k) ↔
      (∀ j < k, Clear LogEvent.position (parsedEvents R.engine R.log) (R.reachedAt (i + j))
        (R.readAt (i + j))) ∧
      ∀ e ∈ parsedEvents R.engine R.log, e.position ≤ R.reachedAt (i + k) := by
  induction k with
  | zero =>
      intro i
      unfold spans Tiles
      simp
  | succ k ih =>
      intro i
      have hspans : R.spans i (k + 1) = (R.readAt i, R.endAt i) :: R.spans (i + 1) k := by
        unfold spans
        rw [List.range'_succ, List.map_cons]
      rw [hspans, Nat.forall_lt_succ_left]
      show Clear _ _ _ _ ∧ Tiles LogEvent.position (parsedEvents R.engine R.log)
        (R.reachedAt (i + 1)) (R.spans (i + 1) k) ↔ _
      rw [ih]
      simp only [Nat.add_zero, and_assoc, Nat.add_assoc, Nat.add_comm 1]

/-- The parsed events stand in the log in their order. -/
theorem parsedEvents_sublist (engine : JsEngine) (log : List LogEvent) :
    (parsedEvents engine log).Sublist log := List.filter_sublist

/-- The known events whose values are not falsy are those that are parsed. -/
theorem knownEvents_eq (engine : JsEngine) {log : List LogEvent}
    (h : ∀ e ∈ knownEvents log, e.value.truthy = true) :
    knownEvents log = parsedEvents engine log := by
  unfold knownEvents parsedEvents
  refine List.filter_congr fun e he => ?_
  rw [decide_eq_decide, LogEvent.handing_isSome]
  refine ⟨fun hknown => ⟨hknown.1, hknown.2, ?_⟩, fun hparsed => ⟨hparsed.1, hparsed.2.1⟩⟩
  exact h e (List.mem_filter.mpr ⟨he, by simpa using hknown⟩)

/-- Parsed events are all that is known, each once and in order, if and only if no known event
has a falsy value and they are the parsed events of the log. -/
theorem handed_complete_iff (h : OneEventEach R.log) {events : List LogEvent}
    (hevents : ∀ e ∈ events, e ∈ parsedEvents R.engine R.log) :
    (events.filterMap (LogEvent.handing R.engine)).map some
        = (knownEvents R.log).map (LogEvent.handing R.engine) ↔
      (∀ e ∈ knownEvents R.log, e.value.truthy = true) ∧
        events = parsedEvents R.engine R.log := by
  have hsome : ∀ e ∈ parsedEvents R.engine R.log, (e.handing R.engine).isSome = true := by
    intro e he
    exact (of_decide_eq_true (List.mem_filter.mp he).2).2
  rw [map_some_filterMap fun e he => hsome e (hevents e he)]
  constructor
  · intro hmap
    have hvalues : ∀ e ∈ knownEvents R.log, e.value.truthy = true := by
      intro e he
      have hmem : e.handing R.engine ∈ events.map (LogEvent.handing R.engine) := by
        rw [hmap]
        exact List.mem_map_of_mem he
      obtain ⟨x, hx, hsame⟩ := List.mem_map.mp hmem
      have hparsed := hsome x (hevents x hx)
      rw [hsame, LogEvent.handing_isSome] at hparsed
      exact hparsed.2
    refine ⟨hvalues, ?_⟩
    rw [knownEvents_eq R.engine hvalues] at hmap
    have hlength : events.length = (parsedEvents R.engine R.log).length := by
      simpa using congrArg List.length hmap
    refine List.ext_getElem hlength fun n hn hn' => ?_
    -- events that hand on the same are at the same position
    have hsame : (events[n]).handing R.engine
        = ((parsedEvents R.engine R.log)[n]).handing R.engine := by
      have hget := congrArg (fun l => l[n]?) hmap
      simpa [hn, hn'] using hget
    obtain ⟨x, hx⟩ := Option.isSome_iff_exists.mp (hsome _ (hevents _ (List.getElem_mem hn)))
    have hx' := hsame.symm.trans hx
    obtain ⟨_, _, hleft⟩ := Option.map_eq_some_iff.mp hx
    obtain ⟨_, _, hright⟩ := Option.map_eq_some_iff.mp hx'
    have hposition := congrArg Prod.fst (hleft.trans hright.symm)
    have hlog := (parsedEvents_sublist R.engine R.log).subset
    exact h.eq_of_position (hlog (hevents _ (List.getElem_mem hn)))
      (hlog (List.getElem_mem hn')) hposition
  · rintro ⟨hvalues, rfl⟩
    rw [knownEvents_eq R.engine hvalues]

/-- What a call that ends after `k` turns has handed on. -/
theorem complete_iff_leavesNothing (h : OneEventEach R.log) {k turnsLeft : ℕ}
    (hends : R.EndsAfter 0 k) (hlt : k < turnsLeft) :
    (R.callFrom turnsLeft 0).handed.map some
        = (knownEvents R.log).map (LogEvent.handing R.engine) ↔ R.LeavesNothing k := by
  have hsorted : (parsedEvents R.engine R.log).Pairwise fun a b => a.position < b.position :=
    h.increasing.sublist (parsedEvents_sublist _ _)
  have hne : ∀ s ∈ R.spans 0 k,
      stretch LogEvent.position (parsedEvents R.engine R.log) s.1 s.2 ≠ [] := by
    intro s hs
    obtain ⟨j, hj, rfl⟩ := List.mem_map.mp hs
    have hbatch := (hends.1 j (by simpa using hj)).1
    rw [Nat.zero_add] at hbatch
    exact hbatch.2.2
  -- everything comes after the first cursor
  have hall : (parsedEvents R.engine R.log).filter (fun e => genesis < e.position)
      = parsedEvents R.engine R.log := by
    refine List.filter_eq_self.mpr fun e he => ?_
    simpa using h.genesis_lt ((parsedEvents_sublist _ _).subset he)
  have htiles := flatMap_stretch_eq_iff (a := genesis) hsorted hne
  rw [hall] at htiles
  have hspans := tiles_spans_iff (R := R) (i := 0) (k := k)
  simp only [Nat.zero_add] at hspans
  have hmem : ∀ e ∈ (R.spans 0 k).flatMap fun s => R.parsedBetween s.1 s.2,
      e ∈ parsedEvents R.engine R.log := by
    intro e he
    obtain ⟨s, -, hs⟩ := List.mem_flatMap.mp he
    exact (mem_stretch.mp hs).1
  rw [(resync_spans h hends hlt).2, handed_complete_iff h hmem]
  constructor
  · rintro ⟨hvalues, hevents⟩
    obtain ⟨hresumes, hexhausted⟩ := hspans.mp (htiles.mp hevents)
    exact ⟨hvalues, hresumes, hexhausted⟩
  · intro hnothing
    exact ⟨hnothing.values, htiles.mpr (hspans.mpr ⟨hnothing.resumes, hnothing.exhausted⟩)⟩

/-! ## A call on its own -/

/-- Nobody else moves the cursor, and no event rejects. -/
structure Quiet (R : Resync) : Prop where
  before : ∀ i c, (R.turns i).before c = c
  during : ∀ i c, (R.turns i).during c = c
  fulfils : ∀ i k, (R.turns i).fulfils k = true

variable (R) in
/-- A parsed event comes after the cursor. -/
def Ahead (i : ℕ) : Prop :=
  ∃ e ∈ parsedEvents R.engine R.log, R.cursorAt i < e.position

/-- While nobody else moves the cursor, a call reads from it. -/
theorem Quiet.readAt_eq (hquiet : R.Quiet) (i : ℕ) : R.readAt i = R.cursorAt i := hquiet.before i _

/-- On its own, the indexer goes on to the cursor that the call leaves. -/
theorem Quiet.cursorAt_succ (hquiet : R.Quiet) (i : ℕ) :
    R.cursorAt (i + 1) = leaves R.log (R.cursorAt i) (R.cursorAt i) := by
  show leaves R.log ((R.turns i).during ((R.turns i).before (R.cursorAt i)))
    ((R.turns i).before (R.cursorAt i)) = _
  rw [hquiet.before, hquiet.during]

/-- While no event rejects, every batch is processed. -/
theorem Quiet.processed (hquiet : R.Quiet) (i : ℕ) : R.Processed i := fun k _ => hquiet.fulfils i k

/-- A call ends between its cursor and the next one. -/
theorem Quiet.endAt_le (hquiet : R.Quiet) (h : OneEventEach R.log) (i : ℕ) :
    R.cursorAt i ≤ R.endAt i ∧ R.endAt i ≤ R.cursorAt (i + 1) := by
  have hregular := h.regular
  unfold endAt
  rw [hquiet.readAt_eq, hquiet.cursorAt_succ]
  exact ⟨le_pagesLead hregular _, (leaves_self hregular _).1⟩

/-- On its own, the indexer does not move the cursor backwards. -/
theorem Quiet.cursorAt_mono (hquiet : R.Quiet) (h : OneEventEach R.log) : Monotone R.cursorAt :=
  monotone_nat_of_le_succ fun i => (hquiet.endAt_le h i).1.trans (hquiet.endAt_le h i).2

/-- Every turn begins where the turns before have stopped reading. -/
theorem Quiet.resumes (hquiet : R.Quiet) (h : OneEventEach R.log) (i : ℕ) :
    Clear LogEvent.position (parsedEvents R.engine R.log) (R.reachedAt i) (R.readAt i) := by
  intro e he
  rw [hquiet.readAt_eq]
  cases i with
  | zero => exact Iff.rfl
  | succ i =>
      have hread : R.reachedAt (i + 1) = pagesLead R.log MAX_PAGES (R.cursorAt i) := by
        rw [← hquiet.readAt_eq]
        rfl
      rw [hread, hquiet.cursorAt_succ]
      obtain ⟨hle, hnone⟩ := leaves_self h.regular (R.cursorAt i)
      refine ⟨fun hlt => ?_, fun hlt => hle.trans_lt hlt⟩
      by_contra hnot
      have hmem : e ∈ between R.log (pagesLead R.log MAX_PAGES (R.cursorAt i))
          (leaves R.log (R.cursorAt i) (R.cursorAt i)) := by
        obtain ⟨hlog, hparsed⟩ := List.mem_filter.mp he
        exact List.mem_filter.mpr
          ⟨hlog, by simpa using ⟨(of_decide_eq_true hparsed).1, hlt, not_lt.mp hnot⟩⟩
      rw [hnone] at hmem
      cases hmem

/-- All events have been reached when none lies ahead. -/
theorem Quiet.exhausted_iff (hquiet : R.Quiet) (h : OneEventEach R.log) (i : ℕ) :
    (∀ e ∈ parsedEvents R.engine R.log, e.position ≤ R.reachedAt i) ↔ ¬ R.Ahead i := by
  unfold Ahead
  push Not
  refine forall₂_congr fun e he => ?_
  have hclear := hquiet.resumes h i e he
  rw [hquiet.readAt_eq] at hclear
  rw [← not_lt, ← not_lt, hclear]

/-- A turn with a batch leaves fewer parsed events ahead. -/
theorem Quiet.ahead_lt (hquiet : R.Quiet) (h : OneEventEach R.log) {i : ℕ}
    (hbatch : R.HasBatch i) :
    ((parsedEvents R.engine R.log).filter fun e => R.cursorAt (i + 1) < e.position).length
      < ((parsedEvents R.engine R.log).filter fun e => R.cursorAt i < e.position).length := by
  have hsorted : (parsedEvents R.engine R.log).Pairwise fun a b => a.position < b.position :=
    h.increasing.sublist (parsedEvents_sublist _ _)
  have hlater : (parsedEvents R.engine R.log).filter (fun e => R.cursorAt (i + 1) < e.position)
      = (parsedEvents R.engine R.log).filter fun e => R.endAt i < e.position := by
    refine List.filter_congr fun e he => ?_
    rw [decide_eq_decide, ← hquiet.readAt_eq]
    exact (hquiet.resumes h (i + 1) e he).symm
  rw [hlater, ← append_filter_lt hsorted (hquiet.endAt_le h i).1, List.length_append]
  have hne := hbatch.2.2
  rw [hquiet.readAt_eq] at hne
  exact Nat.lt_add_of_pos_left (List.length_pos_of_ne_nil hne)

/-- The loop ends within as many calls as there are events ahead. -/
theorem Quiet.endsAfter (hquiet : R.Quiet) (h : OneEventEach R.log) {n : ℕ} : ∀ {i : ℕ},
    ((parsedEvents R.engine R.log).filter fun e => R.cursorAt i < e.position).length ≤ n →
      ∃ k ≤ n, R.EndsAfter i k := by
  induction n with
  | zero =>
      intro i hle
      refine ⟨0, le_rfl, endsAfter_zero.mpr fun hbatch => ?_⟩
      have hlt := hquiet.ahead_lt h hbatch
      omega
  | succ n ih =>
      intro i hle
      by_cases hbatch : R.HasBatch i
      · have hlt := hquiet.ahead_lt h hbatch
        obtain ⟨k, hk, hends⟩ := ih (i := i + 1) (by omega)
        exact ⟨k + 1, Nat.succ_le_succ hk,
          endsAfter_succ.mpr ⟨⟨hbatch, hquiet.processed i⟩, hends⟩⟩
      · exact ⟨0, Nat.zero_le _, endsAfter_zero.mpr hbatch⟩

/-- On its own, a call returns: every turn but the last hands on an event. -/
theorem Quiet.call_returns (hquiet : R.Quiet) (h : OneEventEach R.log) {turnsLeft : ℕ}
    (hlt : (parsedEvents R.engine R.log).length < turnsLeft) (cursor : SyncCursor) :
    (R.call turnsLeft cursor).ending = .returned := by
  obtain ⟨k, hle, hends⟩ := hquiet.endsAfter h (i := 0) (List.length_filter_le _ _)
  rw [call_eq]
  exact (resync_spans h hends (hle.trans_lt hlt)).1

/-- **A re-sync on its own.**  It returns only after every known event if and only if none has a
falsy value and every turn with a parsed event ahead finds one: the flag is up, contracts are
watched, and the pages that it reads hold one. -/
theorem returnsComplete_iff_of_quiet (hquiet : R.Quiet) (h : OneEventEach R.log) :
    R.ReturnsComplete ↔
    (∀ e ∈ knownEvents R.log, e.value.truthy = true) ∧ ∀ i, R.Ahead i → R.HasBatch i := by
  constructor
  · intro hcomplete
    have hleaves : ∀ k, R.EndsAfter 0 k → R.LeavesNothing k := fun k hends =>
      (complete_iff_leavesNothing h hends k.lt_succ_self).mp
        (hcomplete (k + 1) genesis (resync_spans h hends k.lt_succ_self).1)
    obtain ⟨k, -, hends⟩ := hquiet.endsAfter h (i := 0) (List.length_filter_le _ _)
    refine ⟨(hleaves k hends).values, fun i hahead => ?_⟩
    by_contra hnone
    -- the call ends at the first turn without a batch
    classical
    have hex : ∃ m, ¬ R.HasBatch m := ⟨i, hnone⟩
    have hfirst : R.EndsAfter 0 (Nat.find hex) := by
      unfold EndsAfter
      rw [Nat.zero_add]
      refine ⟨fun j hj => ?_, Nat.find_spec hex⟩
      rw [Nat.zero_add]
      exact ⟨not_not.mp (Nat.find_min hex hj), hquiet.processed j⟩
    have hdone := (hquiet.exhausted_iff h _).mp (hleaves _ hfirst).exhausted
    obtain ⟨e, he, hlt⟩ := hahead
    exact hdone ⟨e, he, (hquiet.cursorAt_mono h (Nat.find_min' hex hnone)).trans_lt hlt⟩
  · rintro ⟨hvalues, hbatches⟩ turnsLeft cursor hreturned
    rw [call_eq] at hreturned ⊢
    obtain ⟨k, hlt, hends⟩ := endsAfter_of_returned h hreturned
    refine (complete_iff_leavesNothing h hends hlt).mpr
      ⟨hvalues, fun j _ => hquiet.resumes h j, (hquiet.exhausted_iff h k).mpr fun hahead => ?_⟩
    have hlast := hends.2
    rw [Nat.zero_add] at hlast
    exact hlast (hbatches k hahead)

/-- `main` calls `resyncFromGenesis` before `start`, when the flag is still down: then it
returns at once, and only a log without known events is complete. -/
theorem returnsComplete_before_start (h : OneEventEach R.log)
    (hdown : (R.turns 0).running = false) : R.ReturnsComplete ↔ knownEvents R.log = [] := by
  have hnone : ¬ R.HasBatch 0 := by
    rintro ⟨hrunning, -⟩
    rw [hdown] at hrunning
    cases hrunning
  constructor
  · intro hcomplete
    obtain ⟨hreturned, hhanded⟩ := callFrom_of_not_hasBatch h hnone 0
    have hempty := hcomplete 1 genesis hreturned
    rw [call_eq, hhanded, List.map_nil] at hempty
    exact List.map_eq_nil_iff.mp hempty.symm
  · intro hnothing turnsLeft cursor hreturned
    rw [call_eq] at hreturned ⊢
    cases turnsLeft with
    | zero => cases hreturned
    | succ turnsLeft =>
        rw [(callFrom_of_not_hasBatch h hnone turnsLeft).2, hnothing]
        rfl

/-- **The full re-sync.**  It returns only after every known event if and only if wherever it
ends, nothing is left. -/
theorem returnsComplete_iff (R : Resync) (h : OneEventEach R.log) :
    R.ReturnsComplete ↔ ∀ k, R.EndsAfter 0 k → R.LeavesNothing k := by
  constructor
  · intro hcomplete k hends
    have hreturned := (resync_spans h hends k.lt_succ_self).1
    exact (complete_iff_leavesNothing h hends k.lt_succ_self).mp
      (hcomplete (k + 1) genesis hreturned)
  · intro hnothing turnsLeft cursor hreturned
    rw [call_eq] at hreturned ⊢
    obtain ⟨k, hlt, hends⟩ := endsAfter_of_returned h hreturned
    exact (complete_iff_leavesNothing h hends hlt).mpr (hnothing k hends)

end Resync

/-! ## One bridged credit -/

namespace Sample

/-- A credit that was bridged, with its registry and serial. -/
def bridgedEvent (ledger txIndex : ℕ) : LogEvent where
  position := { ledgerSequence := ledger, txIndex := txIndex }
  successful := true
  txHash := "9c41"
  topic := [.string "bridged", .string "verra", .string "VCS-1"]
  value := .number (.finite 7)

/-- A re-sync of a log with an unknown and a known event, the flag as given. -/
def bridgedResync (running : Bool) : Resync where
  engine := engine
  contractIds := ["C1"]
  log := [logEvent 7 1, bridgedEvent 7 2]
  turns _ := { running := running }

/-- The log of the example has one event for each position. -/
theorem bridgedResync_oneEventEach (running : Bool) : OneEventEach (bridgedResync running).log where
  increasing := by
    simp [bridgedResync, logEvent, bridgedEvent, SyncCursor.lt_iff]
  first_ledger := by simp [bridgedResync, logEvent, bridgedEvent]
  first_tx := by simp [bridgedResync, logEvent, bridgedEvent]
  exact_ledger := by simp [bridgedResync, logEvent, bridgedEvent]

end Sample

/-- The loop over the log of the example is complete when it leaves nothing. -/
theorem returnsComplete_iff_bridged :
    (Sample.bridgedResync true).ReturnsComplete ↔
      ∀ k, (Sample.bridgedResync true).EndsAfter 0 k →
        (Sample.bridgedResync true).LeavesNothing k :=
  Resync.returnsComplete_iff (Sample.bridgedResync true) (Sample.bridgedResync_oneEventEach true)

/-- In the order of `main`, the bridged credit is never handed on. -/
theorem resync_not_complete :
    ¬ ∀ R : Resync, OneEventEach R.log → R.contractIds ≠ [] → R.ReturnsComplete := by
  intro h
  have hcomplete := h (Sample.bridgedResync false) (Sample.bridgedResync_oneEventEach false)
    (List.cons_ne_nil _ _)
  have hempty := (Resync.returnsComplete_before_start (Sample.bridgedResync_oneEventEach false)
    rfl).mp hcomplete
  have hknown : Sample.bridgedEvent 7 2 ∈ knownEvents (Sample.bridgedResync false).log :=
    List.mem_filter.mpr ⟨List.mem_cons_of_mem _ List.mem_cons_self, by decide⟩
  rw [hempty] at hknown
  cases hknown

end CarbonVeritas
