/-
# An event log behind the RPC server

The RPC server as it should be: a log of events in the order of their positions, of which
`getEvents` answers with the first hundred from a start ledger on; page requests may fail.

`fetchEvents_server` says what a call does on a log whose successful events have positions of
their own: it hands on exactly the successful events between the old cursor and the new one.
A failed page is taken for the end of the log; `Harmless` says when that skips nothing.
-/
import CarbonVeritas.IndexerSafety
import CarbonVeritas.Stretches

namespace CarbonVeritas

open Transition
open Stretches (filter_le_append_filter_lt)

/-! ## Logs -/

/-- An event of the chain. -/
structure LogEvent where
  position : SyncCursor
  successful : Bool
  txHash : String
  topic : List JsValue
  value : JsValue

/-- The event as `getEvents` delivers it. -/
def LogEvent.rpcEvent (e : LogEvent) : RpcEvent where
  ledger := some e.position.ledgerSequence
  txIndex := some e.position.txIndex
  inSuccessfulContractCall := some e.successful
  txHash := some e.txHash
  topic := some e.topic
  value := e.value

/-- What `fetchEvents` hands on when it accepts the event. -/
def LogEvent.entry (e : LogEvent) : SyncCursor × RpcEvent := (e.position, e.rpcEvent)

/-- The events that a request from a start ledger is answered with. -/
def window (log : List LogEvent) (startLedger : ℕ) : List LogEvent :=
  (log.filter fun e => startLedger ≤ e.position.ledgerSequence).take PAGE_LIMIT

/-- `getEvents` over a log, with the numbers of the requests that fail. -/
def server (log : List LogEvent) (fails : ℕ → Bool) : ℕ → ℕ → RpcAnswer :=
  fun pageCount startLedger =>
    if fails pageCount then .failed
    else .events ((window log startLedger).map LogEvent.rpcEvent)

/-- The successful events after one cursor and up to another. -/
def between (log : List LogEvent) (c d : SyncCursor) : List LogEvent :=
  log.filter fun e => e.successful ∧ c < e.position ∧ e.position ≤ d

/-- The successful events up to a cursor. -/
def upTo (log : List LogEvent) (c : SyncCursor) : List LogEvent :=
  log.filter fun e => e.successful ∧ e.position ≤ c

/-- A log in order, whose successful events have positions of their own. -/
structure Regular (log : List LogEvent) : Prop where
  sorted : log.Pairwise fun a b => a.position ≤ b.position
  distinct : (log.filter fun e => e.successful).Pairwise fun a b => a.position < b.position
  exact_ledger : ∀ e ∈ log, e.position.ledgerSequence < 2 ^ 53

/-- Two neighbouring stretches of the log are one. -/
theorem between_append {log : List LogEvent} (h : Regular log) {b c d : SyncCursor} (hbc : b ≤ c)
    (hcd : c ≤ d) : between log b c ++ between log c d = between log b d := by
  have hsplit := filter_le_append_filter_lt LogEvent.position
    (fun e => e.successful = true ∧ b < e.position ∧ e.position ≤ d) c h.sorted
  unfold between
  rw [← hsplit]
  congr 1
  · refine List.filter_congr fun e _ => ?_
    rw [decide_eq_decide]
    constructor
    · rintro ⟨hs, hb, hc⟩
      exact ⟨⟨hs, hb, hc.trans hcd⟩, hc⟩
    · rintro ⟨⟨hs, hb, -⟩, hc⟩
      exact ⟨hs, hb, hc⟩
  · refine List.filter_congr fun e _ => ?_
    rw [decide_eq_decide]
    constructor
    · rintro ⟨hs, hc, hd⟩
      exact ⟨⟨hs, lt_of_le_of_lt hbc hc, hd⟩, hc⟩
    · rintro ⟨⟨hs, -, hd⟩, hc⟩
      exact ⟨hs, hc, hd⟩

/-- The log up to a place and what follows it up to another. -/
theorem upTo_append_between {log : List LogEvent} (h : Regular log) {c d : SyncCursor}
    (hcd : c ≤ d) : upTo log c ++ between log c d = upTo log d := by
  have hsplit := filter_le_append_filter_lt LogEvent.position
    (fun e => e.successful = true ∧ e.position ≤ d) c h.sorted
  unfold upTo between
  rw [← hsplit]
  congr 1
  · refine List.filter_congr fun e _ => ?_
    rw [decide_eq_decide]
    constructor
    · rintro ⟨hs, hc⟩
      exact ⟨⟨hs, hc.trans hcd⟩, hc⟩
    · rintro ⟨⟨hs, -⟩, hc⟩
      exact ⟨hs, hc⟩
  · refine List.filter_congr fun e _ => ?_
    rw [decide_eq_decide]
    constructor
    · rintro ⟨hs, hc, hd⟩
      exact ⟨⟨hs, hd⟩, hc⟩
    · rintro ⟨⟨hs, hd⟩, hc⟩
      exact ⟨hs, hc, hd⟩

theorem between_self (log : List LogEvent) (c : SyncCursor) : between log c c = [] := by
  unfold between
  rw [List.filter_eq_nil_iff]
  intro e _
  simp only [decide_eq_true_eq, not_and]
  intro _ hlt
  exact not_le_of_gt hlt

/-! ## A page of the log -/

/-- The position that scanning a page leads to. -/
def reach (seen : SyncCursor) (page : List LogEvent) : SyncCursor :=
  page.foldl (fun seen e => if e.successful ∧ seen < e.position then e.position else seen) seen

/-- A page leads no further back. -/
theorem le_reach (seen : SyncCursor) (page : List LogEvent) : seen ≤ reach seen page := by
  induction page generalizing seen with
  | nil => exact le_rfl
  | cons e page ih =>
      unfold reach
      rw [List.foldl_cons]
      split_ifs with h
      · exact h.2.le.trans (ih e.position)
      · exact ih seen

/-- A page leads at least to each of its successful events. -/
theorem position_le_reach {seen : SyncCursor} {page : List LogEvent} {e : LogEvent}
    (he : e ∈ page) (hs : e.successful = true) : e.position ≤ reach seen page := by
  induction page generalizing seen with
  | nil => cases he
  | cons x page ih =>
      unfold reach
      rw [List.foldl_cons]
      rcases List.mem_cons.mp he with rfl | he
      · split_ifs with h
        · exact le_reach e.position page
        · have hle : e.position ≤ seen := not_lt.mp fun hlt => h ⟨hs, hlt⟩
          exact hle.trans (le_reach seen page)
      · exact ih he

/-- A page leads nowhere, or to one of its successful events. -/
theorem reach_eq (seen : SyncCursor) (page : List LogEvent) :
    reach seen page = seen ∨
      ∃ e ∈ page, e.successful = true ∧ seen < e.position ∧ reach seen page = e.position := by
  induction page generalizing seen with
  | nil => exact Or.inl rfl
  | cons x page ih =>
      unfold reach
      rw [List.foldl_cons]
      split_ifs with h
      · right
        rcases ih x.position with hsame | ⟨e, he, hs, hlt, heq⟩
        · exact ⟨x, List.mem_cons_self, h.1, h.2, hsame⟩
        · exact ⟨e, List.mem_cons_of_mem _ he, hs, h.2.trans hlt, heq⟩
      · rcases ih seen with hsame | ⟨e, he, hs, hlt, heq⟩
        · exact Or.inl hsame
        · exact Or.inr ⟨e, List.mem_cons_of_mem _ he, hs, hlt, heq⟩

/-- An event of the log is read at its own position. -/
@[simp] theorem positionOf_rpcEvent (seen : SyncCursor) (e : LogEvent) :
    positionOf seen e.rpcEvent = e.position := rfl

/-- An event of the log is accepted when it is successful and new. -/
theorem event_rpcEvent (st : Scan) (e : LogEvent) :
    st.event e.rpcEvent = if e.successful ∧ st.seen < e.position then
      { seen := e.position, handed := st.handed ++ [e.entry], sawEvents := true } else st := by
  by_cases hs : e.successful = true
  · rcases positionOf_event st e.rpcEvent with hsame | ⟨-, hlt, hnext⟩
    · by_cases hlt : st.seen < e.position
      · -- the body of the loop accepts an event after `seen`
        have hacc : ¬ (e.position.ledgerSequence < st.seen.ledgerSequence ∨
            e.position.ledgerSequence = st.seen.ledgerSequence ∧
              e.position.txIndex ≤ st.seen.txIndex) := by
          rw [SyncCursor.lt_iff] at hlt
          omega
        have hsaw : (st.event e.rpcEvent).handed = st.handed ++ [e.entry] := by
          unfold Scan.event
          rw [if_neg (by simp [LogEvent.rpcEvent, hs])]
          dsimp only [positionOf_rpcEvent]
          rw [if_neg hacc]
          rfl
        rw [hsame] at hsaw
        simp at hsaw
      · rw [hsame, if_neg (by simp [hlt])]
    · rw [hnext, positionOf_rpcEvent, if_pos ⟨hs, hlt⟩]
      rfl
  · rw [if_neg (by simp [hs])]
    unfold Scan.event
    rw [if_pos (by simpa [LogEvent.rpcEvent] using hs)]

/-- Scanning a page whose successful events have positions of their own hands on exactly those
after `seen`. -/
theorem page_map (page : List LogEvent) (st : Scan)
    (h : (page.filter fun e => e.successful).Pairwise fun a b => a.position < b.position) :
    (st.page (page.map LogEvent.rpcEvent)).seen = reach st.seen page ∧
      (st.page (page.map LogEvent.rpcEvent)).handed = st.handed ++
        (page.filter fun e => e.successful ∧ st.seen < e.position).map LogEvent.entry := by
  induction page generalizing st with
  | nil => exact ⟨rfl, (List.append_nil _).symm⟩
  | cons e page ih =>
      have hcons : st.page ((e :: page).map LogEvent.rpcEvent)
          = (st.event e.rpcEvent).page (page.map LogEvent.rpcEvent) := rfl
      have hreach : reach st.seen (e :: page) = reach
          (if e.successful ∧ st.seen < e.position then e.position else st.seen) page := rfl
      have htail : (page.filter fun e => e.successful).Pairwise
          fun a b => a.position < b.position := by
        by_cases hs : e.successful = true
        · rw [List.filter_cons_of_pos (by simpa using hs)] at h
          exact (List.pairwise_cons.mp h).2
        · rwa [List.filter_cons_of_neg (by simpa using hs)] at h
      obtain ⟨hseen, hhanded⟩ := ih (st.event e.rpcEvent) htail
      rw [hcons, hreach, hseen, hhanded, event_rpcEvent]
      by_cases hacc : e.successful = true ∧ st.seen < e.position
      · refine ⟨by rw [if_pos hacc, if_pos hacc], ?_⟩
        rw [if_pos hacc, List.filter_cons_of_pos (by simpa using hacc), List.map_cons,
          List.append_assoc, List.singleton_append]
        -- the later successful events are after `e`, hence after `seen`
        have hlater : (page.filter fun x => x.successful ∧ e.position < x.position)
            = page.filter fun x => x.successful ∧ st.seen < x.position := by
          refine List.filter_congr fun x hx => ?_
          rw [decide_eq_decide]
          refine ⟨fun hx' => ⟨hx'.1, hacc.2.trans hx'.2⟩, fun hx' => ⟨hx'.1, ?_⟩⟩
          rw [List.filter_cons_of_pos (by simpa using hacc.1)] at h
          exact (List.pairwise_cons.mp h).1 x (List.mem_filter.mpr ⟨hx, by simpa using hx'.1⟩)
        show st.handed ++ e.entry :: (page.filter fun x =>
          x.successful ∧ e.position < x.position).map LogEvent.entry = _
        rw [hlater]
      · refine ⟨by rw [if_neg hacc, if_neg hacc], ?_⟩
        rw [if_neg hacc, List.filter_cons_of_neg (by simpa using hacc)]

section Window

variable {log : List LogEvent} {seen : SyncCursor}

/-- A page stands in the log in its order. -/
theorem window_sublist (log : List LogEvent) (startLedger : ℕ) :
    (window log startLedger).Sublist log :=
  (List.take_sublist _ _).trans List.filter_sublist

/-- The events of a page are events of the log. -/
theorem mem_of_mem_window {startLedger : ℕ} {e : LogEvent} (he : e ∈ window log startLedger) :
    e ∈ log :=
  (window_sublist log startLedger).subset he

/-- The successful events of a page have increasing positions. -/
theorem window_distinct (h : Regular log) (startLedger : ℕ) :
    ((window log startLedger).filter fun e => e.successful).Pairwise
      fun a b => a.position < b.position :=
  h.distinct.sublist ((window_sublist log startLedger).filter _)

/-- A window that is not full holds every event from its start ledger on. -/
theorem window_of_short {startLedger : ℕ} (hshort : (window log startLedger).length < PAGE_LIMIT) :
    window log startLedger = log.filter fun e => startLedger ≤ e.position.ledgerSequence := by
  unfold window at hshort ⊢
  rw [List.length_take] at hshort
  exact List.take_of_length_le (by omega)

/-- The successful events of a window that are new are those up to where it leads. -/
theorem window_filter (h : Regular log) :
    ((window log seen.ledgerSequence).filter fun e => e.successful ∧ seen < e.position)
      = between log seen (reach seen (window log seen.ledgerSequence)) := by
  have hledger : ∀ e : LogEvent, seen < e.position →
      seen.ledgerSequence ≤ e.position.ledgerSequence := fun e he => SyncCursor.ledger_le he.le
  -- the events of the log after `seen` are in the window or after it
  obtain ⟨rest, hrest⟩ : ∃ rest, (log.filter fun e =>
      seen.ledgerSequence ≤ e.position.ledgerSequence)
        = window log seen.ledgerSequence ++ rest :=
    ⟨_, (List.take_append_drop PAGE_LIMIT _).symm⟩
  have hbetween : between log seen (reach seen (window log seen.ledgerSequence))
      = ((log.filter fun e => seen.ledgerSequence ≤ e.position.ledgerSequence).filter
          fun e => e.successful ∧ seen < e.position ∧
            e.position ≤ reach seen (window log seen.ledgerSequence)) := by
    unfold between
    rw [List.filter_filter]
    refine List.filter_congr fun e _ => ?_
    by_cases hlt : seen < e.position
    · simp [hledger e hlt]
    · simp [hlt]
  have hsorted : ((log.filter fun e =>
      seen.ledgerSequence ≤ e.position.ledgerSequence).filter fun e => e.successful).Pairwise
        fun a b => a.position < b.position :=
    h.distinct.sublist (List.filter_sublist.filter _)
  rw [hrest, List.filter_append, List.pairwise_append] at hsorted
  have hnone : (rest.filter fun e => e.successful ∧ seen < e.position ∧
      e.position ≤ reach seen (window log seen.ledgerSequence)) = [] := by
    rw [List.filter_eq_nil_iff]
    intro e he hacc
    obtain ⟨hs, hlt, hle⟩ := of_decide_eq_true hacc
    rcases reach_eq seen (window log seen.ledgerSequence) with hsame | ⟨w, hw, hws, -, hreach⟩
    · rw [hsame] at hle
      exact absurd hlt (not_lt_of_ge hle)
    · rw [hreach] at hle
      have hwe := hsorted.2.2 w (List.mem_filter.mpr ⟨hw, by simpa using hws⟩) e
        (List.mem_filter.mpr ⟨he, by simpa using hs⟩)
      exact absurd hwe (not_lt_of_ge hle)
  rw [hbetween, hrest, List.filter_append, hnone, List.append_nil]
  refine List.filter_congr fun e he => ?_
  rw [decide_eq_decide]
  exact ⟨fun hx => ⟨hx.1, hx.2, position_le_reach he hx.1⟩, fun hx => ⟨hx.1, hx.2.1⟩⟩

/-- After a window that is not full, nothing is left. -/
theorem between_of_short (hshort : (window log seen.ledgerSequence).length < PAGE_LIMIT)
    (d : SyncCursor) : between log (reach seen (window log seen.ledgerSequence)) d = [] := by
  unfold between
  rw [List.filter_eq_nil_iff]
  intro e he hacc
  obtain ⟨hs, hlt, -⟩ := of_decide_eq_true hacc
  have hledger := SyncCursor.ledger_le ((le_reach seen _).trans hlt.le)
  have hmem : e ∈ window log seen.ledgerSequence := by
    rw [window_of_short hshort]
    exact List.mem_filter.mpr ⟨he, by simpa using hledger⟩
  exact absurd (position_le_reach hmem hs) (not_le_of_gt hlt)

end Window

/-! ## A call on the log -/

/-- Where the drained exit leaves the cursor. -/
def nextLedger (seen : SyncCursor) : SyncCursor :=
  { ledgerSequence := seen.ledgerSequence + 1, txIndex := 0 }

/-- The failing page requests of a call skip nothing: the first page that fails comes before
the call has accepted an event, or after the last successful event that the drained exit would
pass. -/
def Harmless (log : List LogEvent) (fails : ℕ → Bool) (cursor : SyncCursor) :
    (pagesLeft pageCount : ℕ) → SyncCursor → Prop
  | 0, _, _ => True
  | pagesLeft + 1, pageCount, seen =>
      if fails pageCount then seen = cursor ∨ between log seen (nextLedger seen) = []
      else (window log seen.ledgerSequence).length = PAGE_LIMIT →
        Harmless log fails cursor pagesLeft (pageCount + 1)
          (reach seen (window log seen.ledgerSequence))

/-- No failure does no harm. -/
theorem harmless_of_no_failure {log : List LogEvent} {fails : ℕ → Bool}
    (h : ∀ n, fails n = false) (cursor : SyncCursor) (pagesLeft : ℕ) :
    ∀ (pageCount : ℕ) (seen : SyncCursor), Harmless log fails cursor pagesLeft pageCount seen := by
  induction pagesLeft with
  | zero =>
      intro _ _
      trivial
  | succ pagesLeft ih =>
      intro pageCount seen
      unfold Harmless
      rw [h pageCount]
      exact fun _ => ih _ _

theorem harmless_none (log : List LogEvent) (cursor : SyncCursor) (pagesLeft pageCount : ℕ)
    (seen : SyncCursor) : Harmless log (fun _ => false) cursor pagesLeft pageCount seen :=
  harmless_of_no_failure (fun _ => rfl) cursor pagesLeft pageCount seen

/-- The variables of a call on a log. -/
structure LogScan (log : List LogEvent) (cursor : SyncCursor) (st : Scan) : Prop where
  cursor_le : cursor ≤ st.seen
  handed_eq : st.handed = (between log cursor st.seen).map LogEvent.entry
  saw_iff : st.sawEvents = true ↔ st.handed ≠ []
  exact_ledger : st.handed ≠ [] → st.seen.ledgerSequence < 2 ^ 53

/-- A scan of the log starts at the cursor. -/
theorem logScan_first (log : List LogEvent) (cursor : SyncCursor) :
    LogScan log cursor { seen := cursor } where
  cursor_le := le_rfl
  handed_eq := by
    rw [between_self]
    rfl
  saw_iff := by simp
  exact_ledger := by simp

/-- A scan has seen events exactly when it hands some on, page after page. -/
theorem saw_iff_page (st : Scan) (h : st.sawEvents = true ↔ st.handed ≠ [])
    (page : List RpcEvent) :
    (st.page page).sawEvents = true ↔ (st.page page).handed ≠ [] := by
  induction page generalizing st with
  | nil => exact h
  | cons e page ih =>
      refine ih (st.event e) ?_
      rcases positionOf_event st e with hsame | ⟨-, -, hnext⟩
      · rwa [hsame]
      · rw [hnext]
        simp

section Call

variable {log : List LogEvent} {cursor : SyncCursor} {fails : ℕ → Bool}

/-- One page of the log. -/
theorem LogScan.page {st : Scan} (h : Regular log) (hst : LogScan log cursor st) :
    LogScan log cursor (st.page ((window log st.seen.ledgerSequence).map LogEvent.rpcEvent)) := by
  obtain ⟨hseen, hhanded⟩ := page_map (window log st.seen.ledgerSequence) st
    (window_distinct h _)
  rw [window_filter h] at hhanded
  have hle := le_reach st.seen (window log st.seen.ledgerSequence)
  refine ⟨?_, ?_, saw_iff_page st hst.saw_iff _, ?_⟩
  · rw [hseen]
    exact hst.cursor_le.trans hle
  · rw [hseen, hhanded, hst.handed_eq, ← List.map_append, between_append h hst.cursor_le hle]
  · intro hne
    rw [hseen]
    rcases reach_eq st.seen (window log st.seen.ledgerSequence) with
      hsame | ⟨e, he, -, -, hreach⟩
    · rw [hsame]
      refine hst.exact_ledger ?_
      rw [hhanded, hsame, between_self] at hne
      simpa using hne
    · rw [hreach]
      exact h.exact_ledger e (mem_of_mem_window he)

/-- The end of the loop: if the call takes the log for drained after accepting an event, then
nothing successful is left up to the next ledger. -/
theorem fetchPages_server (h : Regular log) (pagesLeft : ℕ) :
    ∀ (pageCount : ℕ) (st : Scan), LogScan log cursor st →
      Harmless log fails cursor pagesLeft pageCount st.seen →
      ∃ r, (fetchPages (server log fails) pagesLeft pageCount st.seen.ledgerSequence st).result
          = some r ∧ LogScan log cursor r.1 ∧
        (r.2 = true → r.1.sawEvents = true → between log r.1.seen (nextLedger r.1.seen) = []) := by
  induction pagesLeft with
  | zero =>
      intro pageCount st hst _
      exact ⟨(st, false), rfl, hst, fun hdrained => absurd hdrained (by simp)⟩
  | succ pagesLeft ih =>
      intro pageCount st hst hharmless
      unfold Harmless at hharmless
      unfold fetchPages server
      by_cases hfails : fails pageCount = true
      · rw [if_pos hfails] at hharmless
        simp only [hfails, if_true, fetchEventPage]
        refine ⟨(st, true), rfl, hst, fun _ hsaw => ?_⟩
        rcases hharmless with hsame | hnone
        · -- nothing has been accepted
          have hne := hst.saw_iff.mp hsaw
          rw [hst.handed_eq, hsame, between_self] at hne
          exact absurd rfl hne
        · exact hnone
      · have hpage := hst.page h
        have hseen := (page_map (window log st.seen.ledgerSequence) st (window_distinct h _)).1
        rw [if_neg hfails] at hharmless
        simp only [hfails, Bool.false_eq_true, if_false, fetchEventPage]
        cases hwindow : window log st.seen.ledgerSequence with
        | nil =>
            have hshort : (window log st.seen.ledgerSequence).length < PAGE_LIMIT := by
              rw [hwindow]
              decide
            have hnone := between_of_short hshort (nextLedger st.seen)
            rw [hwindow] at hnone
            exact ⟨(st, true), rfl, hst, fun _ _ => hnone⟩
        | cons e rest =>
            rw [hwindow] at hpage hseen hharmless
            rw [List.map_cons] at hpage hseen ⊢
            dsimp only
            split_ifs with hlength
            · have hshort : (window log st.seen.ledgerSequence).length < PAGE_LIMIT := by
                rw [hwindow]
                simpa using hlength
              have hnone := between_of_short hshort
              rw [hwindow, ← hseen] at hnone
              exact ⟨_, rfl, hpage, fun _ _ => hnone _⟩
            · have hfull : (e :: rest).length = PAGE_LIMIT := by
                have hle : (window log st.seen.ledgerSequence).length ≤ PAGE_LIMIT :=
                  List.length_take_le _ _
                rw [hwindow] at hle
                have hge : ¬ (e :: rest).length < PAGE_LIMIT := by simpa using hlength
                omega
              have hnext := hharmless hfull
              rw [← hseen] at hnext
              exact ih _ _ hpage hnext

/-- The new cursor covers the events handed on and no others. -/
theorem advance_server {st : Scan} {drained : Bool} (h : Regular log) (hst : LogScan log cursor st)
    (hdrained : drained = true → st.sawEvents = true →
      between log st.seen (nextLedger st.seen) = []) :
    st.seen ≤ advance cursor st drained ∧
      st.handed = (between log cursor (advance cursor st drained)).map LogEvent.entry := by
  have hle := SyncCursor.le_iff.mp hst.cursor_le
  unfold advance
  split_ifs with hexit hlater
  · have hexact := hst.exact_ledger (hst.saw_iff.mp hexit.2)
    have hnone := hdrained hexit.1 hexit.2
    have hseen : st.seen ≤ nextLedger st.seen := by
      rw [SyncCursor.le_iff]
      exact Or.inl (Nat.lt_succ_self _)
    rw [JsNumber.succ_of_lt hexact]
    refine ⟨hseen, ?_⟩
    show st.handed = (between log cursor (nextLedger st.seen)).map LogEvent.entry
    rw [← between_append h hst.cursor_le hseen, hnone, List.append_nil]
    exact hst.handed_eq
  · exact ⟨le_rfl, hst.handed_eq⟩
  · have hsame : st.seen = cursor := by
      refine le_antisymm ?_ hst.cursor_le
      rw [SyncCursor.le_iff]
      omega
    exact ⟨hsame.le, by rw [hst.handed_eq, hsame]⟩

/-- **A call on the log.**  It hands on the successful events up to the cursor that it
leaves. -/
theorem fetchEvents_server {sync : IndexerSync} (h : Regular log)
    (hharmless : Harmless log fails sync.cursor MAX_PAGES 0 sync.cursor) :
    ∃ d, sync.cursor ≤ d ∧ (fetchEvents sync (server log fails)).sync = { sync with cursor := d } ∧
      (fetchEvents sync (server log fails)).handed
        = some ((between log sync.cursor d).map LogEvent.entry) := by
  by_cases hidle : sync.contractIds = []
  · rw [fetchEvents_of_idle _ hidle]
    refine ⟨sync.cursor, le_rfl, rfl, ?_⟩
    rw [between_self]
    rfl
  · obtain ⟨r, hresult, hr, hdrained⟩ :=
      fetchPages_server h MAX_PAGES 0 _ (logScan_first log sync.cursor) hharmless
    obtain ⟨hsync, hhanded⟩ := fetchEvents_of_pages hidle hresult
    obtain ⟨hle, hcovered⟩ := advance_server h hr hdrained
    exact ⟨advance sync.cursor r.1 r.2, hr.cursor_le.trans hle, hsync,
      hhanded.trans (congrArg some hcovered)⟩

end Call

end CarbonVeritas
