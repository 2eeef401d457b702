/-
# Delivery of a growing event log

The indexer polls while the log grows by whole ledgers.  `Exact` says that the events handed
to the parser so far are the successful events of the log up to the cursor, in order and once
each.

The resume key is coarser than an event, so this needs two things of the log
(`Distinguished`): no two successful events share a position, and none arrives at a position
that the cursor has already reached.  `run_delivered` is the run rule, with page requests that
fail harmlessly; `passes_iff` says when the cursor passes a log that has stopped growing.
-/
import CarbonVeritas.EventLog

namespace CarbonVeritas

open Transition

/-! ## Polls on a growing log -/

/-- The indexer, the log so far and the events handed to the parser so far. -/
structure Indexing where
  sync : IndexerSync
  log : List LogEvent := []
  handed : List (SyncCursor × RpcEvent) := []

/-- A poll: the events logged since the last one, and the page requests of the poll that fail. -/
structure Poll where
  arrived : List LogEvent
  fails : ℕ → Bool

namespace Indexing

/-- The log that a poll meets. -/
def polledLog (w : Indexing) (poll : Poll) : List LogEvent := w.log ++ poll.arrived

/-- The call of `fetchEvents` in a poll. -/
def fetched (w : Indexing) (poll : Poll) : Fetched :=
  fetchEvents w.sync (server (w.polledLog poll) poll.fails)

def next (w : Indexing) (poll : Poll) : Indexing where
  sync := (w.fetched poll).sync
  log := w.polledLog poll
  handed := w.handed ++ (w.fetched poll).handed.getD []

/-- The events handed to the parser are the successful events up to the cursor, each once and
in the order of the log. -/
def Exact (w : Indexing) : Prop := w.handed = (upTo w.log w.sync.cursor).map LogEvent.entry

/-- The log grows in order and by whole ledgers, whose numbers are exact. -/
structure Grows (w : Indexing) (poll : Poll) : Prop where
  sorted : poll.arrived.Pairwise fun a b => a.position ≤ b.position
  later : ∀ a ∈ w.log, ∀ b ∈ poll.arrived,
    a.position.ledgerSequence < b.position.ledgerSequence
  exact_ledger : ∀ e ∈ poll.arrived, e.position.ledgerSequence < 2 ^ 53

/-- The resume key tells the arriving events apart: no two successful ones share a position,
and none has a position that the cursor has already reached. -/
structure Distinguished (w : Indexing) (poll : Poll) : Prop where
  distinct : ((poll.arrived.filter fun e => e.successful).map LogEvent.position).Nodup
  after_cursor : ∀ e ∈ poll.arrived, e.successful = true → w.sync.cursor < e.position

/-- The failing page requests of the poll skip nothing. -/
def FailsHarmlessly (w : Indexing) (poll : Poll) : Prop :=
  Harmless (w.polledLog poll) poll.fails w.sync.cursor MAX_PAGES 0 w.sync.cursor

/-- What every state of a run satisfies. -/
structure Delivered (w : Indexing) : Prop where
  regular : Regular w.log
  exact : w.Exact

/-- The log stays regular when a poll adds distinguished events to it. -/
theorem regular_polledLog {w : Indexing} {poll : Poll} (h : Regular w.log) (hgrows : w.Grows poll)
    (hnew : w.Distinguished poll) : Regular (w.polledLog poll) where
  sorted := by
    unfold polledLog
    rw [List.pairwise_append]
    refine ⟨h.sorted, hgrows.sorted, fun a ha b hb => ?_⟩
    rw [SyncCursor.le_iff]
    exact Or.inl (hgrows.later a ha b hb)
  distinct := by
    unfold polledLog
    rw [List.filter_append, List.pairwise_append]
    refine ⟨h.distinct, ?_, fun a ha b hb => ?_⟩
    · -- in order and without repetition
      have hdistinct := List.pairwise_map.mp hnew.distinct
      have hsorted : (poll.arrived.filter fun e => e.successful).Pairwise
          fun a b => a.position ≤ b.position := hgrows.sorted.sublist List.filter_sublist
      exact (hsorted.and hdistinct).imp fun hab => lt_of_le_of_ne hab.1 hab.2
    · rw [SyncCursor.lt_iff]
      exact Or.inl (hgrows.later a (List.mem_of_mem_filter ha) b (List.mem_of_mem_filter hb))
  exact_ledger := by
    intro e he
    rcases List.mem_append.mp he with he | he
    · exact h.exact_ledger e he
    · exact hgrows.exact_ledger e he

/-- The step of the run rule. -/
theorem Delivered.next {w : Indexing} {poll : Poll} (h : w.Delivered) (hgrows : w.Grows poll)
    (hnew : w.Distinguished poll) (hfails : w.FailsHarmlessly poll) : (w.next poll).Delivered := by
  have hregular := regular_polledLog h.regular hgrows hnew
  obtain ⟨d, hle, hsync, hhanded⟩ := fetchEvents_server hregular hfails
  refine ⟨hregular, ?_⟩
  -- the arriving events are all after the old cursor
  have hold : upTo w.log w.sync.cursor = upTo (w.polledLog poll) w.sync.cursor := by
    unfold upTo polledLog
    rw [List.filter_append]
    have hnone : (poll.arrived.filter fun e =>
        e.successful ∧ e.position ≤ w.sync.cursor) = [] := by
      rw [List.filter_eq_nil_iff]
      intro e he hcovered
      obtain ⟨hs, hle⟩ := of_decide_eq_true hcovered
      exact absurd (hnew.after_cursor e he hs) (not_lt_of_ge hle)
    rw [hnone, List.append_nil]
  show w.handed ++ (w.fetched poll).handed.getD []
    = (upTo (w.polledLog poll) (w.fetched poll).sync.cursor).map LogEvent.entry
  unfold fetched
  rw [hsync, hhanded, h.exact, hold, Option.getD_some, ← List.map_append,
    upTo_append_between hregular hle]

/-- The indexer before its first poll, on an empty log. -/
def first (ledgerSequence : ℕ) (contractIds : List String) : Indexing where
  sync := { cursor := { ledgerSequence := ledgerSequence, txIndex := 0 }, contractIds }

/-- At the start there is nothing to deliver. -/
theorem first_delivered (ledgerSequence : ℕ) (contractIds : List String) :
    (first ledgerSequence contractIds).Delivered :=
  ⟨⟨List.Pairwise.nil, List.Pairwise.nil, by simp [first]⟩, rfl⟩

/-- The condition on a poll. -/
structure Admissible (w : Indexing) (poll : Poll) : Prop where
  grows : w.Grows poll
  distinguished : w.Distinguished poll
  harmless : w.FailsHarmlessly poll

/-- Every run of admissible polls keeps to the invariant. -/
theorem run_delivered {ledgerSequence : ℕ} {contractIds : List String} {polls : List Poll}
    (h : Always next Admissible (first ledgerSequence contractIds) polls) :
    Throughout next Delivered (first ledgerSequence contractIds) polls :=
  throughout_invariant (fun _ _ hw hpoll => hw.next hpoll.grows hpoll.distinguished hpoll.harmless)
    (first_delivered _ _) h

/-! ## Progress on a log that has stopped growing -/

/-- A poll in which nothing has arrived and nothing fails. -/
def idle : Poll where
  arrived := []
  fails _ := false

/-- The state after `m` idle polls. -/
def idleRun (w : Indexing) (m : ℕ) : Indexing := run next w (List.replicate m idle)

/-- Idle polls add up. -/
theorem idleRun_add (w : Indexing) (m k : ℕ) : w.idleRun (m + k) = (w.idleRun m).idleRun k := by
  unfold idleRun
  rw [List.replicate_add, run_append]

/-- An idle poll leaves the log. -/
@[simp] theorem next_idle_log (w : Indexing) : (w.next idle).log = w.log :=
  List.append_nil w.log

/-- The cursor is past every ledger of the log. -/
def Passed (w : Indexing) : Prop :=
  ∀ e ∈ w.log, e.position.ledgerSequence < w.sync.cursor.ledgerSequence

/-- A ledger is not passed yet, but the first page from the cursor's ledger holds no successful
event after the cursor. -/
def Stuck (w : Indexing) : Prop :=
  ¬ w.Passed ∧ (w.sync.contractIds = [] ∨
    ∀ e ∈ window w.log w.sync.cursor.ledgerSequence, e.successful = true →
      e.position ≤ w.sync.cursor)

/-- An idle poll keeps to the invariant. -/
theorem Delivered.next_idle {w : Indexing} (h : w.Delivered) : (w.next idle).Delivered := by
  refine h.next ⟨List.Pairwise.nil, ?_, ?_⟩ ⟨List.nodup_nil, ?_⟩ ?_
  · intro _ _ _ hb
    cases hb
  · intro _ he
    cases he
  · intro _ he
    cases he
  · exact harmless_of_no_failure (fun _ => rfl) _ _ _ _

/-- An idle poll fetches from the log as it is. -/
theorem fetched_idle (w : Indexing) :
    w.fetched idle = fetchEvents w.sync (server w.log fun _ => false) := by
  unfold fetched polledLog idle
  rw [List.append_nil]

/-- An idle poll does not move the cursor backwards. -/
theorem Delivered.cursor_le_idle {w : Indexing} (h : w.Delivered) :
    w.sync.cursor ≤ (w.next idle).sync.cursor := by
  obtain ⟨d, hle, hsync, -⟩ := fetchEvents_server h.regular
    (harmless_none w.log w.sync.cursor MAX_PAGES 0 w.sync.cursor)
  show w.sync.cursor ≤ (w.fetched idle).sync.cursor
  rw [fetched_idle, hsync]
  exact hle

/-- When all events have been passed, an idle poll leaves it so. -/
theorem Delivered.passed_idle {w : Indexing} (h : w.Delivered) (hpassed : w.Passed) :
    (w.next idle).Passed := by
  intro e he
  rw [next_idle_log] at he
  exact lt_of_lt_of_le (hpassed e he) (SyncCursor.ledger_le h.cursor_le_idle)

/-- A page without anything new changes nothing. -/
theorem page_quiet {page : List LogEvent} {st : Scan}
    (h : ∀ e ∈ page, e.successful = true → e.position ≤ st.seen) :
    st.page (page.map LogEvent.rpcEvent) = st := by
  induction page with
  | nil => rfl
  | cons e page ih =>
      have hskip : st.event e.rpcEvent = st := by
        rw [event_rpcEvent, if_neg]
        rintro ⟨hs, hlt⟩
        exact absurd (h e List.mem_cons_self hs) (not_le_of_gt hlt)
      show (st.event e.rpcEvent).page (page.map LogEvent.rpcEvent) = st
      rw [hskip]
      exact ih fun x hx => h x (List.mem_cons_of_mem _ hx)

/-- Pages without new events leave the scan as it was. -/
theorem fetchPages_quiet {log : List LogEvent} (st : Scan)
    (h : ∀ e ∈ window log st.seen.ledgerSequence, e.successful = true → e.position ≤ st.seen)
    (pagesLeft : ℕ) : ∀ pageCount, ∃ drained,
      (fetchPages (server log fun _ => false) pagesLeft pageCount st.seen.ledgerSequence st).result
        = some (st, drained) := by
  induction pagesLeft with
  | zero =>
      intro _
      exact ⟨false, rfl⟩
  | succ pagesLeft ih =>
      intro pageCount
      unfold fetchPages server
      simp only [Bool.false_eq_true, if_false, fetchEventPage]
      cases hwindow : window log st.seen.ledgerSequence with
      | nil => exact ⟨true, rfl⟩
      | cons e rest =>
          rw [hwindow] at h
          have hsame := page_quiet h
          rw [List.map_cons] at hsame ⊢
          dsimp only
          rw [hsame]
          split_ifs
          · exact ⟨true, rfl⟩
          · exact ih (pageCount + 1)

/-- An indexer that is stuck stays where it is. -/
theorem Stuck.sync_idle {w : Indexing} (h : w.Stuck) : (w.next idle).sync = w.sync := by
  show (w.fetched idle).sync = w.sync
  rw [fetched_idle]
  by_cases hidle : w.sync.contractIds = []
  · rw [fetchEvents_of_idle _ hidle]
  · have hquiet := h.2.resolve_left hidle
    obtain ⟨drained, hresult⟩ := fetchPages_quiet { seen := w.sync.cursor } hquiet MAX_PAGES 0
    rw [(fetchEvents_of_pages hidle hresult).1]
    unfold advance
    simp

/-- It is stuck after the next idle poll, too. -/
theorem Stuck.next_idle {w : Indexing} (h : w.Stuck) : (w.next idle).Stuck := by
  have hsync := h.sync_idle
  unfold Stuck Passed at h ⊢
  rw [hsync, next_idle_log]
  exact h

/-- After a first page with something new, the call ends at or after it. -/
theorem fetchPages_first {rpc : ℕ → ℕ → RpcAnswer} (page : List RpcEvent) {c : SyncCursor}
    {pageCount startLedger pagesLeft : ℕ} {st : Scan}
    (hanswer : rpc pageCount startLedger = .events page) (hfirst : c ≤ (st.page page).seen)
    (hne : page ≠ []) : ∀ r ∈ (fetchPages rpc (pagesLeft + 1) pageCount startLedger st).result,
      c ≤ r.1.seen := by
  intro r hr
  unfold fetchPages at hr
  rw [hanswer] at hr
  cases page with
  | nil => exact absurd rfl hne
  | cons e page =>
      dsimp only [fetchEventPage] at hr
      split_ifs at hr
      · obtain rfl := Option.some.inj hr
        exact hfirst
      · refine fetchPages_invariant (I := fun st => c ≤ st.seen) ?_ pagesLeft _ _ _ hfirst r hr
        intro st e hst _
        rcases positionOf_event st e with hsame | ⟨-, hlt, hnext⟩
        · rwa [hsame]
        · rw [hnext]
          exact hst.trans hlt.le

/-- A poll that is not stuck moves the cursor to a successful event after it, or beyond. -/
theorem Delivered.moves {w : Indexing} (h : w.Delivered) (hpassed : ¬ w.Passed)
    (hstuck : ¬ w.Stuck) : ∃ e ∈ w.log, e.successful = true ∧ w.sync.cursor < e.position ∧
      e.position ≤ (w.next idle).sync.cursor := by
  obtain ⟨hconfigured, hnew⟩ := not_or.mp fun hquiet => hstuck ⟨hpassed, hquiet⟩
  push Not at hnew
  obtain ⟨e, he, hs, hlt⟩ := hnew
  refine ⟨e, mem_of_mem_window he, hs, hlt, ?_⟩
  show e.position ≤ (w.fetched idle).sync.cursor
  rw [fetched_idle]
  obtain ⟨r, hresult, hr, hdrained⟩ := fetchPages_server h.regular MAX_PAGES 0 _
    (logScan_first w.log w.sync.cursor)
    (harmless_none w.log w.sync.cursor MAX_PAGES 0 w.sync.cursor)
  have hpage := (page_map (window w.log w.sync.cursor.ledgerSequence)
    { seen := w.sync.cursor } (window_distinct h.regular _)).1
  have hreach : e.position ≤ r.1.seen := by
    refine fetchPages_first ((window w.log w.sync.cursor.ledgerSequence).map LogEvent.rpcEvent)
      rfl ?_ ?_ r hresult
    · rw [hpage]
      exact position_le_reach he hs
    · exact fun hnil => List.ne_nil_of_mem he (List.map_eq_nil_iff.mp hnil)
  rw [(fetchEvents_of_pages hconfigured hresult).1]
  exact hreach.trans (advance_server h.regular hr hdrained).1

/-- The successful events that the cursor has not reached. -/
def ahead (w : Indexing) : List LogEvent :=
  w.log.filter fun e => e.successful ∧ w.sync.cursor < e.position

/-- An indexer that is neither done nor stuck comes closer with every idle poll. -/
theorem Delivered.ahead_lt {w : Indexing} (h : w.Delivered) (hpassed : ¬ w.Passed)
    (hstuck : ¬ w.Stuck) : (w.next idle).ahead.length < w.ahead.length := by
  obtain ⟨e, he, hs, hlt, hle⟩ := h.moves hpassed hstuck
  have hcursor := h.cursor_le_idle
  have hfilter : (w.next idle).ahead
      = w.ahead.filter fun x => (w.next idle).sync.cursor < x.position := by
    unfold ahead
    rw [next_idle_log, List.filter_filter]
    refine List.filter_congr fun x _ => ?_
    rw [Bool.eq_iff_iff]
    simp only [decide_eq_true_eq, Bool.and_eq_true]
    exact ⟨fun hx => ⟨hx.2, hx.1, lt_of_le_of_lt hcursor hx.2⟩, fun hx => ⟨hx.2.1, hx.1⟩⟩
  rw [hfilter]
  refine List.length_filter_lt_length_iff_exists.mpr ⟨e, ?_, by simpa using hle⟩
  exact List.mem_filter.mpr ⟨he, by simpa using ⟨hs, hlt⟩⟩

/-- **Progress.**  The cursor passes the whole log if and only if no poll finds it stuck. -/
theorem passes_iff {w : Indexing} (h : w.Delivered) :
    (∃ m, (w.idleRun m).Passed) ↔ ∀ m, ¬ (w.idleRun m).Stuck := by
  have hdelivered : ∀ m (w : Indexing), w.Delivered → (w.idleRun m).Delivered := by
    intro m
    induction m with
    | zero => exact fun w hw => hw
    | succ m ih => exact fun w hw => ih _ hw.next_idle
  constructor
  · rintro ⟨m, hm⟩ k hk
    rcases le_total m k with hle | hle
    · obtain ⟨j, rfl⟩ := Nat.exists_eq_add_of_le hle
      have hstays : ∀ j (w : Indexing), w.Delivered → w.Passed → (w.idleRun j).Passed := by
        intro j
        induction j with
        | zero => exact fun w _ hw => hw
        | succ j ih => exact fun w hw hp => ih _ hw.next_idle (hw.passed_idle hp)
      rw [idleRun_add] at hk
      exact hk.1 (hstays j _ (hdelivered m w h) hm)
    · obtain ⟨j, rfl⟩ := Nat.exists_eq_add_of_le hle
      have hstays : ∀ j (w : Indexing), w.Stuck → (w.idleRun j).Stuck := by
        intro j
        induction j with
        | zero => exact fun w hw => hw
        | succ j ih => exact fun w hw => ih _ hw.next_idle
      rw [idleRun_add] at hm
      exact (hstays j _ hk).1 hm
  · -- every poll leaves fewer successful events ahead
    intro hstuck
    generalize hn : w.ahead.length = n
    induction n using Nat.strong_induction_on generalizing w with
    | _ n ih =>
        by_cases hpassed : w.Passed
        · exact ⟨0, hpassed⟩
        · have hlt := h.ahead_lt hpassed (hstuck 0)
          rw [hn] at hlt
          obtain ⟨m, hm⟩ := ih _ hlt h.next_idle (fun m => hstuck (m + 1)) rfl
          exact ⟨m + 1, hm⟩

/-! ## Exactly once -/

/-- A poll without failures, of a log whose events the resume key tells apart. -/
structure Timely (w : Indexing) (poll : Poll) : Prop where
  grows : w.Grows poll
  distinguished : w.Distinguished poll
  no_failure : ∀ n, poll.fails n = false

/-- A poll in time is an admissible one. -/
theorem Timely.admissible {w : Indexing} {poll : Poll} (h : w.Timely poll) : w.Admissible poll where
  grows := h.grows
  distinguished := h.distinguished
  harmless := harmless_of_no_failure h.no_failure _ _ _ _

/-- **Exactly-once delivery.**  Throughout a run of such polls the successful events up to the
cursor have been handed on, each once and in order; and once the log stops growing, the cursor
passes it if and only if no poll finds it stuck. -/
theorem delivered_exactly_once (ledgerSequence : ℕ) (contractIds : List String)
    (polls : List Poll) (h : Always next Timely (first ledgerSequence contractIds) polls) :
    Throughout next Exact (first ledgerSequence contractIds) polls ∧
      ((∃ m, ((run next (first ledgerSequence contractIds) polls).idleRun m).Passed) ↔
        ∀ m, ¬ ((run next (first ledgerSequence contractIds) polls).idleRun m).Stuck) := by
  have hdelivered := run_delivered (h.mono fun _ _ => Timely.admissible)
  exact ⟨fun us hus => (hdelivered us hus).exact, passes_iff hdelivered.last⟩

/-! ## Failing requests -/

/-- Every successful event that the cursor has reached was handed to the parser. -/
def NothingSkipped (w : Indexing) : Prop :=
  ∀ e ∈ w.log, e.successful = true → e.position ≤ w.sync.cursor → e.entry ∈ w.handed

/-- **Failures skip nothing.**  Throughout a run whose failing requests are harmless, every
successful event up to the cursor has been handed on. -/
theorem failures_skip_nothing (ledgerSequence : ℕ) (contractIds : List String)
    (polls : List Poll) (h : Always next Admissible (first ledgerSequence contractIds) polls) :
    Throughout next NothingSkipped (first ledgerSequence contractIds) polls := by
  intro us hus e he hs hle
  have hexact := (run_delivered h us hus).exact
  rw [hexact]
  exact List.mem_map_of_mem (List.mem_filter.mpr ⟨he, by simpa using ⟨hs, hle⟩⟩)

end Indexing

/-! ## Three logs -/

namespace Sample

/-- A successful event of a transaction. -/
def logEvent (ledger txIndex : ℕ) : LogEvent where
  position := { ledgerSequence := ledger, txIndex := txIndex }
  successful := true
  txHash := ""
  topic := []
  value := .undefined

/-- A poll that meets new events, none of its requests failing. -/
def arrival (arrived : List LogEvent) : Poll where
  arrived := arrived
  fails _ := false

def twoTransactions : List LogEvent := [logEvent 7 1, logEvent 7 2]

/-- Two events of one transaction. -/
def oneTransaction : List LogEvent := [logEvent 7 1, logEvent 7 1]

/-- The events of the example arrive in time. -/
theorem twoTransactions_timely :
    Transition.Always Indexing.next Indexing.Timely (Indexing.first 7 ["C1"])
      [arrival twoTransactions] := by
  refine always_cons.mpr ⟨⟨⟨?_, ?_, ?_⟩, ⟨?_, ?_⟩, fun _ => rfl⟩, always_nil _ _⟩
  · simp [arrival, twoTransactions, logEvent, SyncCursor.le_iff]
  · simp [Indexing.first]
  · simp [arrival, twoTransactions, logEvent]
  · simp [arrival, twoTransactions, logEvent]
  · simp [arrival, twoTransactions, logEvent, Indexing.first, SyncCursor.lt_iff]

/-- A ledger with one event more than a page holds. -/
def longLedger : List LogEvent := (List.range 101).map fun i => logEvent 1 (i + 1)

/-- A poll whose second page request fails. -/
def secondPageFails : Poll where
  arrived := longLedger
  fails n := n = 1

end Sample

open Sample Indexing in
/-- The two transactions of the example are delivered once. -/
theorem delivered_exactly_once_twoTransactions :
    Throughout next Exact (first 7 ["C1"]) [arrival twoTransactions] ∧
      ((∃ m, ((run next (first 7 ["C1"]) [arrival twoTransactions]).idleRun m).Passed) ↔
        ∀ m, ¬ ((run next (first 7 ["C1"]) [arrival twoTransactions]).idleRun m).Stuck) :=
  delivered_exactly_once 7 ["C1"] [arrival twoTransactions] twoTransactions_timely

open Sample Indexing in
/-- Of two successful events of one transaction, the second is never handed on. -/
theorem delivered_not_exactly_once :
    ¬ ∀ (ledgerSequence : ℕ) (contractIds : List String) (polls : List Poll),
      Always next (fun w poll => w.Grows poll ∧ ∀ n, poll.fails n = false)
          (first ledgerSequence contractIds) polls →
        Throughout next Exact (first ledgerSequence contractIds) polls := by
  intro h
  have hgrows : Grows (first 7 ["C1"]) (arrival oneTransaction) := by
    refine ⟨?_, ?_, ?_⟩
    · simp [arrival, oneTransaction]
    · simp [first]
    · simp [arrival, oneTransaction, logEvent]
  have hexact := (h 7 ["C1"] [arrival oneTransaction]
    (always_cons.mpr ⟨⟨hgrows, fun _ => rfl⟩, always_nil _ _⟩)).last
  have hcursor : (run next (first 7 ["C1"]) [arrival oneTransaction]).sync.cursor
      = { ledgerSequence := JsNumber.succ 7, txIndex := 0 } := rfl
  have hlength := congrArg List.length hexact
  rw [hcursor, JsNumber.succ_of_lt (by decide), List.length_map] at hlength
  have hone : (run next (first 7 ["C1"]) [arrival oneTransaction]).handed.length = 1 := rfl
  rw [hone] at hlength
  exact absurd hlength (by decide)

open Sample Indexing in
/-- Nothing of the two transactions is skipped. -/
theorem failures_skip_nothing_twoTransactions :
    Throughout next NothingSkipped (first 7 ["C1"]) [arrival twoTransactions] :=
  failures_skip_nothing 7 ["C1"] [arrival twoTransactions]
    (twoTransactions_timely.mono fun _ _ => Timely.admissible)

namespace Sample

/-- The first page hands on a hundred events of the ledger, and the second, which fails, ends
the call. -/
theorem longLedger_pages :
    ((fetchPages (server longLedger fun n => n = 1) MAX_PAGES 0 1
        { seen := { ledgerSequence := 1, txIndex := 0 } }).result.map fun r =>
          (r.1.seen, r.1.sawEvents, r.2, r.1.handed.map fun p => p.1.txIndex))
      = some ({ ledgerSequence := 1, txIndex := 100 }, true, true,
          (List.range 100).map (· + 1)) := by
  decide +kernel

/-- When the second page fails, the cursor is moved past the ledger. -/
theorem longLedger_fetched :
    (Indexing.fetched (.first 1 ["C1"]) secondPageFails).sync.cursor
        = { ledgerSequence := 2, txIndex := 0 } ∧
      ((Indexing.fetched (.first 1 ["C1"]) secondPageFails).handed.getD []).map
        (fun p => p.1.txIndex) = (List.range 100).map (· + 1) := by
  obtain ⟨r, hresult, hr⟩ := Option.map_eq_some_iff.mp longLedger_pages
  simp only [Prod.mk.injEq] at hr
  obtain ⟨hseen, hsaw, hdrained, hhanded⟩ := hr
  have hconfigured : (Indexing.first 1 ["C1"]).sync.contractIds ≠ [] := by simp [Indexing.first]
  obtain ⟨hsync, hevents⟩ := fetchEvents_of_pages hconfigured hresult
  have hfetched : Indexing.fetched (.first 1 ["C1"]) secondPageFails
      = fetchEvents (Indexing.first 1 ["C1"]).sync (server longLedger fun n => n = 1) := rfl
  rw [hfetched, hsync, hevents]
  refine ⟨?_, hhanded⟩
  show advance _ r.1 r.2 = _
  unfold advance
  rw [hsaw, hdrained, hseen, if_pos ⟨rfl, rfl⟩, JsNumber.succ_of_lt (by decide)]

end Sample

open Sample Indexing in
/-- The event that follows the last one of a full page is skipped when the next page fails. -/
theorem failure_skips_event :
    ¬ ∀ (ledgerSequence : ℕ) (contractIds : List String) (polls : List Poll),
      Always next (fun w poll => w.Grows poll ∧ w.Distinguished poll)
          (first ledgerSequence contractIds) polls →
        Throughout next NothingSkipped (first ledgerSequence contractIds) polls := by
  intro h
  have hgrows : Grows (first 1 ["C1"]) secondPageFails := by
    refine ⟨?_, ?_, ?_⟩
    · exact List.pairwise_map.mpr (List.pairwise_lt_range.imp fun hij => by
        rw [SyncCursor.le_iff]
        exact Or.inr ⟨rfl, by simpa [logEvent] using hij.le⟩)
    · simp [first]
    · simp [secondPageFails, longLedger, logEvent]
  have hnew : Distinguished (first 1 ["C1"]) secondPageFails := by
    refine ⟨by decide +kernel, ?_⟩
    simp [secondPageFails, longLedger, logEvent, first, SyncCursor.lt_iff]
  have hskipped : (next (first 1 ["C1"]) secondPageFails).NothingSkipped :=
    (h 1 ["C1"] [secondPageFails] (always_cons.mpr ⟨⟨hgrows, hnew⟩, always_nil _ _⟩)).last
  obtain ⟨hcursor, hhanded⟩ := longLedger_fetched
  have hlast : logEvent 1 101 ∈ longLedger :=
    List.mem_map.mpr ⟨100, List.mem_range.mpr (by decide), rfl⟩
  have hpassed : (logEvent 1 101).position
      ≤ (fetched (first 1 ["C1"]) secondPageFails).sync.cursor := by
    rw [hcursor, SyncCursor.le_iff]
    exact Or.inl (by decide)
  have hmem : (logEvent 1 101).entry
      ∈ (first 1 ["C1"]).handed ++ (fetched (first 1 ["C1"]) secondPageFails).handed.getD [] :=
    hskipped (logEvent 1 101) hlast rfl hpassed
  rw [show (first 1 ["C1"]).handed = [] from rfl, List.nil_append] at hmem
  have htx := List.mem_map_of_mem (f := fun p => p.1.txIndex) hmem
  rw [hhanded] at htx
  simp [LogEvent.entry, logEvent] at htx

end CarbonVeritas
