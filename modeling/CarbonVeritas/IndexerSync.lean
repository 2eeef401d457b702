/-
# The sync loop of the indexer

`indexer/src/sync.ts`: the cursor, `fetchEventPage`, `fetchEvents` and `poll`.

The RPC server is whatever answers the page requests of a call: a function from the number of
the request and its start ledger to an answer.  `fetchEvents` keeps with every event that it
hands to `parseRpcEvent` the position at which it accepted it.

Ledger numbers and transaction indices are JavaScript numbers; they are only compared, save
for the `+ 1` of the drained exit, which is `JsNumber.succ`.
-/
import CarbonVeritas.Mirror
import Mathlib.Data.Prod.Lex

namespace CarbonVeritas

def PAGE_LIMIT : ℕ := 100
def MAX_PAGES : ℕ := 50

/-! ## Cursors -/

structure SyncCursor where
  ledgerSequence : ℕ
  txIndex : ℕ
  deriving DecidableEq, Repr

namespace SyncCursor

/-- Ledgers first, transactions within a ledger second. -/
def toPair (c : SyncCursor) : ℕ ×ₗ ℕ := toLex (c.ledgerSequence, c.txIndex)

theorem toPair_injective : Function.Injective toPair := by
  rintro ⟨l, t⟩ ⟨l', t'⟩ h
  have hpair : (l, t) = (l', t') := toLex.injective h
  rw [Prod.mk.injEq] at hpair
  rw [hpair.1, hpair.2]

instance : LinearOrder SyncCursor := LinearOrder.lift' toPair toPair_injective

theorem lt_iff {c d : SyncCursor} :
    c < d ↔ c.ledgerSequence < d.ledgerSequence ∨
      c.ledgerSequence = d.ledgerSequence ∧ c.txIndex < d.txIndex :=
  Prod.Lex.toLex_lt_toLex

theorem le_iff {c d : SyncCursor} :
    c ≤ d ↔ c.ledgerSequence < d.ledgerSequence ∨
      c.ledgerSequence = d.ledgerSequence ∧ c.txIndex ≤ d.txIndex :=
  Prod.Lex.toLex_le_toLex

theorem ledger_le {c d : SyncCursor} (h : c ≤ d) : c.ledgerSequence ≤ d.ledgerSequence := by
  rw [le_iff] at h
  omega

end SyncCursor

/-! ## Pages -/

/-- What the server does with a page request. -/
inductive RpcAnswer where
  /-- the request, or reading its answer, throws -/
  | throws
  /-- a status that is not OK, or a JSON-RPC error -/
  | failed
  | events (page : List RpcEvent)

/-- `fetchEventPage`: a failed request is an empty page; `none` if it throws. -/
def fetchEventPage : RpcAnswer → Option (List RpcEvent)
  | .throws => none
  | .failed => some []
  | .events page => some page

/-- The variables of `fetchEvents` that its loops change. -/
structure Scan where
  seen : SyncCursor
  /-- the events handed to `parseRpcEvent`, with their positions -/
  handed : List (SyncCursor × RpcEvent) := []
  sawEvents : Bool := false

/-- The position that `fetchEvents` reads off an event. -/
def positionOf (seen : SyncCursor) (e : RpcEvent) : SyncCursor :=
  { ledgerSequence := e.ledger.getD seen.ledgerSequence, txIndex := e.txIndex.getD 0 }

/-- The body of the loop over a page. -/
def Scan.event (st : Scan) (e : RpcEvent) : Scan :=
  if e.inSuccessfulContractCall = some false then st
  else
    let evLedger := (positionOf st.seen e).ledgerSequence
    let evTxIndex := (positionOf st.seen e).txIndex
    if evLedger < st.seen.ledgerSequence ∨
        evLedger = st.seen.ledgerSequence ∧ evTxIndex ≤ st.seen.txIndex then st
    else
      { seen :=
          if evLedger > st.seen.ledgerSequence ∨
              evLedger = st.seen.ledgerSequence ∧ evTxIndex > st.seen.txIndex then
            { ledgerSequence := evLedger, txIndex := evTxIndex }
          else st.seen
        handed := st.handed ++ [(positionOf st.seen e, e)]
        sawEvents := true }

/-- The loop over a page. -/
def Scan.page (st : Scan) (page : List RpcEvent) : Scan := page.foldl Scan.event st

/-- How the loop over the pages ends. -/
structure Paged where
  /-- the start ledgers of the requests made -/
  requests : List ℕ
  /-- the variables and `drained` after the loop, or `none` if a request threw -/
  result : Option (Scan × Bool)

/-- The loop over the pages, with the number of pages that it may still ask for. -/
def fetchPages (rpc : ℕ → ℕ → RpcAnswer) :
    (pagesLeft pageCount startLedger : ℕ) → Scan → Paged
  | 0, _, _, st => { requests := [], result := some (st, false) }
  | pagesLeft + 1, pageCount, startLedger, st =>
      match fetchEventPage (rpc pageCount startLedger) with
      | none => { requests := [startLedger], result := none }
      | some [] => { requests := [startLedger], result := some (st, true) }
      | some page =>
          let st := st.page page
          if page.length < PAGE_LIMIT then
            { requests := [startLedger], result := some (st, true) }
          else
            let rest := fetchPages rpc pagesLeft (pageCount + 1) st.seen.ledgerSequence st
            { requests := startLedger :: rest.requests, result := rest.result }

/-! ## Calls of `fetchEvents` -/

/-- The fields of `IndexerSync` that the loop reads. -/
structure IndexerSync where
  cursor : SyncCursor
  contractIds : List String

/-- What a call of `fetchEvents` does. -/
structure Fetched where
  requests : List ℕ
  sync : IndexerSync
  /-- the events handed to `parseRpcEvent`, or `none` if the call throws -/
  handed : Option (List (SyncCursor × RpcEvent))

/-- The cursor that the end of `fetchEvents` leaves. -/
def advance (cursor : SyncCursor) (st : Scan) (drained : Bool) : SyncCursor :=
  if drained ∧ st.sawEvents then
    { ledgerSequence := JsNumber.succ st.seen.ledgerSequence, txIndex := 0 }
  else if st.seen.ledgerSequence > cursor.ledgerSequence ∨
      st.seen.ledgerSequence = cursor.ledgerSequence ∧ st.seen.txIndex > cursor.txIndex then
    st.seen
  else cursor

def fetchEvents (sync : IndexerSync) (rpc : ℕ → ℕ → RpcAnswer) : Fetched :=
  if sync.contractIds = [] then { requests := [], sync := sync, handed := some [] }
  else
    let paged := fetchPages rpc MAX_PAGES 0 sync.cursor.ledgerSequence { seen := sync.cursor }
    { requests := paged.requests
      sync := match paged.result with
        | some (st, drained) => { sync with cursor := advance sync.cursor st drained }
        | none => sync
      handed := paged.result.map fun r => r.1.handed }

theorem fetchEvents_of_idle {sync : IndexerSync} (rpc : ℕ → ℕ → RpcAnswer)
    (h : sync.contractIds = []) :
    fetchEvents sync rpc = { requests := [], sync := sync, handed := some [] } := by
  unfold fetchEvents
  rw [if_pos h]

theorem fetchEvents_of_pages {sync : IndexerSync} {rpc : ℕ → ℕ → RpcAnswer} {r : Scan × Bool}
    (hne : sync.contractIds ≠ [])
    (hresult : (fetchPages rpc MAX_PAGES 0 sync.cursor.ledgerSequence
      { seen := sync.cursor }).result = some r) :
    (fetchEvents sync rpc).sync = { sync with cursor := advance sync.cursor r.1 r.2 } ∧
      (fetchEvents sync rpc).handed = some r.1.handed := by
  unfold fetchEvents
  rw [if_neg hne]
  dsimp only
  rw [hresult]
  exact ⟨rfl, rfl⟩

/-- The batch that `fetchEvents` returns. -/
def batch (engine : JsEngine) (handed : List (SyncCursor × RpcEvent)) : List SyncEvent :=
  handed.filterMap fun p => EventParser.parseRpcEvent engine p.2

/-! ## Polls -/

/-- The loop of `poll` over its batch, with the events at which the database fails.  The
second component is the position in the batch at which it stops, if it stops. -/
def processBatch (client : DbClient) (outage : ℕ → Bool) :
    ℕ → List SyncEvent → Mirror → Mirror × Option ℕ
  | _, [], db => (db, none)
  | i, event :: rest, db =>
      if outage i then (db, some i)
      else match Mirror.processEvent client event db with
        | .ok _ db => processBatch client outage (i + 1) rest db
        | .error _ db => (db, some i)

/-- What a poll leaves. -/
structure Polled where
  sync : IndexerSync
  db : Mirror
  /-- the event of the batch whose processing rejected -/
  rejected : Option ℕ

/-- `poll`; what it throws, `start` catches. -/
def poll (engine : JsEngine) (client : DbClient) (sync : IndexerSync) (db : Mirror)
    (rpc : ℕ → ℕ → RpcAnswer) (outage : ℕ → Bool) : Polled :=
  let fetched := fetchEvents sync rpc
  match fetched.handed with
  | none => { sync := fetched.sync, db := db, rejected := none }
  | some handed =>
      let processed := processBatch client outage 0 (batch engine handed) db
      { sync := fetched.sync, db := processed.1, rejected := processed.2 }

end CarbonVeritas
