/-
# Scope 3 reports

`api/src/reporting/reporting.service.ts`: `getScope3Report`, `fetchRetirements`, `toLineItem`,
`buildSummary` and `accumulate`.  Tonnages are exact rationals.

The three maps of a summary gather the rows under a key (`OrderedMap.gather`), so that every
breakdown divides the inventory (`buildSummary_partitions`), and a yearly report has the rows
whose timestamps are in the year (`fetchRetirements_year`).
-/
import CarbonVeritas.OrderedMap
import CarbonVeritas.ReportingService
import CarbonVeritas.UtcCalendar
import Mathlib.Data.List.Sort

namespace CarbonVeritas

/-! ## The inventory -/

/-- The columns of a credit that a report shows. -/
structure ReportCredit where
  creditId : ℤ
  projectId : String
  methodology : String
  geography : String
  vintageStart : ℤ
  vintageEnd : ℤ
  serialPrefix : String

/-- `RetirementRow`, with the user who retired the credit. -/
structure InventoryRow where
  id : String
  retiredById : String
  beneficiary : String
  reason : String
  accountingPeriod : String
  tonnesRetired : ℚ
  txHash : String
  ledgerSequence : ℤ
  timestamp : ℤ
  certificateHash : Option String
  credit : ReportCredit

/-- `{ gte, lt }` -/
structure TimestampFilter where
  gte : ℤ
  lt : ℤ

structure RetirementFilter where
  retiredById : String
  timestamp : Option TimestampFilter

def RetirementFilter.matches (filter : RetirementFilter) (row : InventoryRow) : Bool :=
  row.retiredById = filter.retiredById ∧
    ∀ t ∈ filter.timestamp, t.gte ≤ row.timestamp ∧ row.timestamp < t.lt

/-- The table of the retirements.  A query is answered with the latest rows first, those of one
timestamp in any order. -/
structure RetirementTable where
  rows : List InventoryRow
  findMany : RetirementFilter → List InventoryRow
  findMany_perm : ∀ filter, (findMany filter).Perm (rows.filter filter.matches)
  findMany_sorted : ∀ filter, (findMany filter).Pairwise fun a b => b.timestamp ≤ a.timestamp

/-- Sorting with a comparison of values in falling order. -/
theorem pairwise_insertionSort_of_iff {α : Type} (f : α → ℚ) {r : α → α → Prop} [DecidableRel r]
    (hr : ∀ a b, r a b ↔ f b ≤ f a) (l : List α) :
    (l.insertionSort r).Pairwise fun a b => f b ≤ f a := by
  have : Std.Total r := ⟨fun a b => by
    rw [hr, hr]
    exact le_total (f b) (f a)⟩
  have : IsTrans α r := ⟨fun a b c hab hbc => by
    rw [hr] at *
    exact hbc.trans hab⟩
  exact (List.pairwise_insertionSort r l).imp fun hab => (hr _ _).mp hab

/-- A table that keeps its own order among the rows of one timestamp. -/
def RetirementTable.ofRows (rows : List InventoryRow) : RetirementTable where
  rows := rows
  findMany filter :=
    (rows.filter filter.matches).insertionSort fun a b => b.timestamp ≤ a.timestamp
  findMany_perm _ := List.perm_insertionSort _ _
  findMany_sorted filter :=
    (pairwise_insertionSort_of_iff (fun row => (row.timestamp : ℚ))
      (fun _ _ => Int.cast_le.symm) (rows.filter filter.matches)).imp fun h => Int.cast_le.mp h

/-! ## The report -/

structure ReportLineItem extends Scope3LineItem where
  retirementId : String

structure Totals where
  tonnes : ℚ
  retirements : ℕ
  deriving DecidableEq

/-- An entry of a breakdown, the key being the methodology, the geography or the vintage. -/
structure BreakdownEntry (κ : Type) extends Totals where
  key : κ
  deriving DecidableEq

structure Scope3Summary where
  totalTonnesRetired : ℚ
  totalRetirements : ℕ
  totalCredits : ℕ
  byMethodology : List (BreakdownEntry String)
  byGeography : List (BreakdownEntry String)
  byVintage : List (BreakdownEntry ℤ)

/-- `Scope3Report` -/
structure InventoryReport where
  reportingPeriod : String
  generatedAt : String
  wallet : String
  summary : Scope3Summary
  lineItems : List ReportLineItem

/-- What of a report is exported. -/
def InventoryReport.toScope3Report (report : InventoryReport) : Scope3Report where
  lineItems := report.lineItems.map ReportLineItem.toScope3LineItem

namespace ReportingService

/-- `toISOString().split('T')[0]` -/
def toDateString (date : ℤ) : String :=
  String.ofList ((JsDate.toISOString date).toList.takeWhile fun c => c ≠ 'T')

def toLineItem (row : InventoryRow) : ReportLineItem where
  retirementId := row.id
  creditId := .finite row.credit.creditId
  projectId := row.credit.projectId
  methodology := row.credit.methodology
  geography := row.credit.geography
  vintageStart := toDateString row.credit.vintageStart
  vintageEnd := toDateString row.credit.vintageEnd
  serialPrefix := row.credit.serialPrefix
  tonnesRetired := .finite row.tonnesRetired
  beneficiary := row.beneficiary
  reason := row.reason
  accountingPeriod := row.accountingPeriod
  retirementDate := JsDate.toISOString row.timestamp
  txHash := row.txHash
  ledgerSequence := .finite row.ledgerSequence
  certificateHash := row.certificateHash

def accumulate {κ : Type} [DecidableEq κ] (map : OrderedMap κ Totals) (key : κ) (tonnes : ℚ) :
    OrderedMap κ Totals :=
  let current := (map.get key).getD { tonnes := 0, retirements := 0 }
  map.set key
    { tonnes := current.tonnes + tonnes, retirements := current.retirements + 1 }

/-- `s || 'UNKNOWN'` -/
def orUnknown (s : String) : String := if s = "" then "UNKNOWN" else s

/-- The variables of the loop of `buildSummary`. -/
structure SummaryLoop where
  byMethodology : OrderedMap String Totals
  byGeography : OrderedMap String Totals
  byVintage : OrderedMap ℤ Totals
  totalTonnesRetired : ℚ
  uniqueCredits : Finset ℤ

/-- The body of the loop. -/
def summaryRow (loop : SummaryLoop) (row : InventoryRow) : SummaryLoop where
  totalTonnesRetired := loop.totalTonnesRetired + row.tonnesRetired
  uniqueCredits := insert row.credit.creditId loop.uniqueCredits
  byMethodology :=
    accumulate loop.byMethodology (orUnknown row.credit.methodology) row.tonnesRetired
  byGeography := accumulate loop.byGeography (orUnknown row.credit.geography) row.tonnesRetired
  byVintage :=
    accumulate loop.byVintage (JsDate.yearFromTime row.credit.vintageStart) row.tonnesRetired

/-- The entries of a map, sorted with the comparison `b.tonnes - a.tonnes`. -/
def breakdown {κ : Type} (map : OrderedMap κ Totals) : List (BreakdownEntry κ) :=
  (map.entries.map fun e => { e.2 with key := e.1 }).insertionSort fun a b =>
    b.tonnes - a.tonnes ≤ 0

def buildSummary (rows : List InventoryRow) : Scope3Summary :=
  let loop := Transition.run summaryRow
    { byMethodology := .empty, byGeography := .empty, byVintage := .empty,
      totalTonnesRetired := 0, uniqueCredits := ∅ } rows
  { totalTonnesRetired := loop.totalTonnesRetired
    totalRetirements := rows.length
    totalCredits := loop.uniqueCredits.card
    byMethodology := breakdown loop.byMethodology
    byGeography := breakdown loop.byGeography
    byVintage := breakdown loop.byVintage }

section Reports

variable (engine : JsEngine) (parseOther : String → Option ℤ)

/-- `year ? .. : ..` -/
def givenYear (year : Option JsNumber) : Option JsNumber :=
  year.filter fun year => (JsValue.number year).truthy

/-- `fetchRetirements`, which the database refuses for borders that are no dates. -/
def fetchRetirements (table : RetirementTable) (userId : String) (year : Option JsNumber) :
    Option (List InventoryRow) :=
  match givenYear year with
  | none => some (table.findMany { retiredById := userId, timestamp := none })
  | some year => do
      let gte ← JsDate.parse parseOther
        (JsValue.numberText engine year ++ "-01-01T00:00:00.000Z")
      let lt ← JsDate.parse parseOther
        (JsValue.numberText engine (year.add (.finite 1)) ++ "-01-01T00:00:00.000Z")
      return table.findMany { retiredById := userId, timestamp := some { gte, lt } }

/-- `getScope3Report` at the time `now`. -/
def getScope3Report (table : RetirementTable) (userId wallet : String) (year : Option JsNumber)
    (now : ℤ) : Option InventoryReport :=
  (fetchRetirements engine parseOther table userId year).map fun rows =>
    { reportingPeriod := ((givenYear year).map (JsValue.numberText engine)).getD "all-time"
      generatedAt := JsDate.toISOString now
      wallet := wallet
      summary := buildSummary rows
      lineItems := rows.map toLineItem }

end Reports

/-! ## A summary divides its inventory -/

/-- A breakdown of the rows by a key. -/
structure Breakdown {κ : Type} [DecidableEq κ] (key : InventoryRow → κ)
    (rows : List InventoryRow) (entries : List (BreakdownEntry κ)) : Prop where
  /-- no key has two entries -/
  distinct : (entries.map fun e => e.key).Nodup
  tonnes : (entries.map fun e => e.tonnes).sum = (rows.map fun row => row.tonnesRetired).sum
  retirements : (entries.map fun e => e.retirements).sum = rows.length
  /-- the entries are those of the keys that rows have, with the totals of these rows -/
  totals : ∀ e, e ∈ entries ↔
    (rows.filter fun row => key row = e.key) ≠ [] ∧
      e.tonnes = ((rows.filter fun row => key row = e.key).map fun row => row.tonnesRetired).sum ∧
      e.retirements = (rows.filter fun row => key row = e.key).length
  sorted : entries.Pairwise fun a b => b.tonnes ≤ a.tonnes

structure Partitions (rows : List InventoryRow) (summary : Scope3Summary) : Prop where
  totalTonnesRetired :
    summary.totalTonnesRetired = (rows.map fun row => row.tonnesRetired).sum
  totalRetirements : summary.totalRetirements = rows.length
  totalCredits :
    summary.totalCredits = (rows.map fun row => row.credit.creditId).toFinset.card
  byMethodology :
    Breakdown (fun row => orUnknown row.credit.methodology) rows summary.byMethodology
  byGeography : Breakdown (fun row => orUnknown row.credit.geography) rows summary.byGeography
  byVintage :
    Breakdown (fun row => JsDate.yearFromTime row.credit.vintageStart) rows summary.byVintage

def noTotals : Totals := { tonnes := 0, retirements := 0 }

/-- What `accumulate` makes of the totals of a key. -/
def addRow (totals : Totals) (row : InventoryRow) : Totals where
  tonnes := totals.tonnes + row.tonnesRetired
  retirements := totals.retirements + 1

/-- Adding rows one by one adds up their tonnes and counts them. -/
theorem foldl_addRow (totals : Totals) (rows : List InventoryRow) :
    rows.foldl addRow totals =
      { tonnes := totals.tonnes + (rows.map fun row => row.tonnesRetired).sum
        retirements := totals.retirements + rows.length } := by
  induction rows generalizing totals with
  | nil => simp
  | cons row rows ih =>
      rw [List.foldl_cons, ih]
      simp only [addRow, List.map_cons, List.sum_cons, List.length_cons, Totals.mk.injEq]
      constructor
      · ring
      · omega

/-- The loop gathers the rows in three maps at once. -/
theorem run_summaryRow (loop : SummaryLoop) (rows : List InventoryRow) :
    Transition.run summaryRow loop rows =
      { byMethodology := Transition.run (OrderedMap.gatherRow
          (fun row => orUnknown row.credit.methodology) addRow noTotals) loop.byMethodology rows
        byGeography := Transition.run (OrderedMap.gatherRow
          (fun row => orUnknown row.credit.geography) addRow noTotals) loop.byGeography rows
        byVintage := Transition.run (OrderedMap.gatherRow
          (fun row => JsDate.yearFromTime row.credit.vintageStart) addRow noTotals)
          loop.byVintage rows
        totalTonnesRetired :=
          loop.totalTonnesRetired + (rows.map fun row => row.tonnesRetired).sum
        uniqueCredits :=
          loop.uniqueCredits ∪ (rows.map fun row => row.credit.creditId).toFinset } := by
  induction rows generalizing loop with
  | nil => simp
  | cons row rows ih =>
      rw [Transition.run_cons, ih]
      simp only [Transition.run_cons, List.map_cons, List.sum_cons, List.toFinset_cons,
        SummaryLoop.mk.injEq]
      refine ⟨rfl, rfl, rfl, ?_, ?_⟩
      · exact add_assoc _ _ _
      · rw [Finset.union_insert, ← Finset.insert_union]
        rfl

/-- A breakdown has the entries of its map, in some order. -/
theorem perm_breakdown {κ : Type} (map : OrderedMap κ Totals) :
    (breakdown map).Perm (map.entries.map fun e => { e.2 with key := e.1 }) :=
  List.perm_insertionSort _ _

/-- An entry of a breakdown is an entry of its map. -/
theorem mem_breakdown_iff {κ : Type} {map : OrderedMap κ Totals} {e : BreakdownEntry κ} :
    e ∈ breakdown map ↔ (e.key, e.toTotals) ∈ map.entries := by
  rw [(perm_breakdown map).mem_iff, List.mem_map]
  constructor
  · rintro ⟨⟨k, v⟩, hmem, rfl⟩
    exact hmem
  · intro hmem
    exact ⟨_, hmem, rfl⟩

/-- The entries of what was gathered under a key are a breakdown. -/
theorem breakdown_gather {κ : Type} [DecidableEq κ] (key : InventoryRow → κ)
    (rows : List InventoryRow) :
    Breakdown key rows (breakdown (OrderedMap.gather key addRow noTotals rows)) where
  distinct := by
    rw [((perm_breakdown _).map _).nodup_iff, List.map_map]
    exact (OrderedMap.gather key addRow noTotals rows).nodup
  tonnes := by
    have hsum : ((OrderedMap.gather key addRow noTotals rows).entries.map fun e =>
        e.2.tonnes).sum = (rows.map fun row => row.tonnesRetired).sum := by
      refine OrderedMap.sum_gather Totals.tonnes _ (fun rows => ?_) rows
      rw [foldl_addRow]
      exact zero_add _
    rw [((perm_breakdown _).map _).sum_eq, List.map_map]
    exact hsum
  retirements := by
    have hsum : ((OrderedMap.gather key addRow noTotals rows).entries.map fun e =>
        e.2.retirements).sum = (rows.map fun _ => 1).sum := by
      refine OrderedMap.sum_gather Totals.retirements _ (fun rows => ?_) rows
      rw [foldl_addRow]
      simp [noTotals]
    rw [List.map_const', List.sum_replicate, Nat.nsmul_eq_mul, mul_one] at hsum
    rw [((perm_breakdown _).map _).sum_eq, List.map_map]
    exact hsum
  totals e := by
    rw [mem_breakdown_iff, OrderedMap.mem_gather_iff, foldl_addRow, Totals.mk.injEq]
    simp only [noTotals, zero_add]
    rfl
  sorted :=
    pairwise_insertionSort_of_iff (fun e : BreakdownEntry κ => e.tonnes)
      (fun _ _ => sub_nonpos) _

/-- **The summary of an inventory divides it**, by methodology, by geography and by vintage. -/
theorem buildSummary_partitions (rows : List InventoryRow) :
    Partitions rows (buildSummary rows) := by
  unfold buildSummary
  rw [run_summaryRow]
  exact {
    totalTonnesRetired := zero_add _
    totalRetirements := rfl
    totalCredits := by
      dsimp only
      rw [Finset.empty_union]
    byMethodology := breakdown_gather _ rows
    byGeography := breakdown_gather _ rows
    byVintage := breakdown_gather _ rows }

/-- A breakdown does not depend on the order of the rows. -/
theorem Breakdown.of_perm {κ : Type} [DecidableEq κ] {key : InventoryRow → κ}
    {rows rows' : List InventoryRow} {entries : List (BreakdownEntry κ)} (hperm : rows.Perm rows')
    (h : Breakdown key rows entries) : Breakdown key rows' entries where
  distinct := h.distinct
  tonnes := h.tonnes.trans (hperm.map _).sum_eq
  retirements := h.retirements.trans hperm.length_eq
  totals e := by
    have hfilter := hperm.filter fun row => key row = e.key
    rw [h.totals, Ne, Ne, ← List.length_eq_zero_iff, ← List.length_eq_zero_iff,
      hfilter.length_eq, (hfilter.map _).sum_eq]
  sorted := h.sorted

/-- Nor does a partition. -/
theorem Partitions.of_perm {rows rows' : List InventoryRow} {summary : Scope3Summary}
    (hperm : rows.Perm rows') (h : Partitions rows summary) : Partitions rows' summary where
  totalTonnesRetired := h.totalTonnesRetired.trans (hperm.map _).sum_eq
  totalRetirements := h.totalRetirements.trans hperm.length_eq
  totalCredits := by
    rw [h.totalCredits, List.toFinset_eq_of_perm _ _ (hperm.map _)]
  byMethodology := h.byMethodology.of_perm hperm
  byGeography := h.byGeography.of_perm hperm
  byVintage := h.byVintage.of_perm hperm

/-! ## Yearly reports -/

/-- The retirements of a user. -/
def inventory (table : RetirementTable) (userId : String) : List InventoryRow :=
  table.rows.filter fun row => row.retiredById = userId

/-- The retirements of a user in a year. -/
def inventoryOf (table : RetirementTable) (userId : String) (y : ℕ) : List InventoryRow :=
  (inventory table userId).filter fun row => JsDate.yearFromTime row.timestamp = y

/-- A report on these retirements. -/
structure Covers (rows : List InventoryRow) (report : InventoryReport) : Prop where
  lineItems : report.lineItems.Perm (rows.map toLineItem)
  summary : Partitions rows report.summary

/-- A small natural number is written with its digits. -/
theorem numberText_natCast (engine : JsEngine) {n : ℕ} (h : n ≤ 2 ^ 53) :
    JsValue.numberText engine (.finite n) = toString n :=
  if_pos ⟨Rat.den_natCast n, h⟩

/-- The years for which a report can be asked and whose borders have four digits. -/
def reportYears : List ℕ := List.range' 1000 8999

/-- The years of a report are those from 1000 to 9998. -/
theorem mem_reportYears_iff {y : ℕ} : y ∈ reportYears ↔ 1000 ≤ y ∧ y ≤ 9998 := by
  unfold reportYears
  rw [List.mem_range'_1]
  omega

/-- A year other than 0 is taken as given. -/
theorem givenYear_natCast {y : ℕ} (hy : y ≠ 0) :
    givenYear (some (.finite y)) = some (.finite y) := by
  have hne : (y : ℚ) ≠ 0 := Nat.cast_ne_zero.mpr hy
  simp [givenYear, JsValue.truthy, hne]

section Reports

variable (engine : JsEngine) (parseOther : String → Option ℤ) (table : RetirementTable)
  (userId wallet : String) (now : ℤ)

/-- Without a year, the rows of the user are found. -/
theorem perm_findMany_all :
    (table.findMany { retiredById := userId, timestamp := none }).Perm
      (inventory table userId) := by
  refine (table.findMany_perm _).trans (.of_eq (List.filter_congr fun row _ => ?_))
  simp [RetirementFilter.matches]

/-- The borders of a year take the rows of that year. -/
theorem perm_findMany_year (y : ℕ) :
    (table.findMany { retiredById := userId, timestamp := some {
        gte := JsDate.timeFromYear y, lt := JsDate.timeFromYear (y + 1) } }).Perm
      (inventoryOf table userId y) := by
  refine (table.findMany_perm _).trans (.of_eq ?_)
  unfold inventoryOf inventory
  rw [List.filter_filter]
  refine List.filter_congr fun row _ => ?_
  simp [RetirementFilter.matches, JsDate.yearFromTime_eq_iff, Bool.and_comm]

/-- With a year, the rows of the user in that year are found. -/
theorem fetchRetirements_year {y : ℕ} (hy : y ∈ reportYears) :
    ∃ rows, fetchRetirements engine parseOther table userId (some (.finite y)) = some rows ∧
      rows.Perm (inventoryOf table userId y) := by
  obtain ⟨hlow, hhigh⟩ := mem_reportYears_iff.mp hy
  refine ⟨_, ?_, perm_findMany_year table userId y⟩
  have hnext : (JsNumber.finite y).add (.finite 1) = .finite ((y + 1 : ℕ) : ℚ) := by
    show JsNumber.roundDouble ((y : ℚ) + 1) = _
    have hround := JsNumber.roundDouble_intCast (z := (y + 1 : ℕ)) (by
      rw [Nat.abs_cast]
      omega)
    push_cast at hround ⊢
    exact hround
  have hgte := JsDate.parse_newYear parseOther hlow (by omega)
  have hlt := JsDate.parse_newYear parseOther (y := y + 1) (by omega) (by omega)
  unfold JsDate.newYear at hgte hlt
  unfold fetchRetirements
  rw [givenYear_natCast (by omega)]
  dsimp only
  rw [hnext, numberText_natCast engine (by omega), numberText_natCast engine (by omega), hgte,
    hlt]
  push_cast
  rfl

/-- A report of the rows covers them in any order. -/
theorem covers_of_perm {rows rows' : List InventoryRow} (hperm : rows.Perm rows')
    {report : InventoryReport} (hitems : report.lineItems = rows.map toLineItem)
    (hsummary : report.summary = buildSummary rows) : Covers rows' report where
  lineItems := hitems ▸ hperm.map toLineItem
  summary := hsummary ▸ (buildSummary_partitions rows).of_perm hperm

/-- The export of a report has a record for each of the retirements, after the header. -/
theorem Covers.perm_records {rows : List InventoryRow} {report : InventoryReport}
    (h : Covers rows report) :
    (records engine report.toScope3Report).Perm
      (CSV_HEADERS :: rows.map fun row => fields engine (toLineItem row).toScope3LineItem) := by
  refine List.Perm.cons _ ?_
  have hrows : ((rows.map toLineItem).map ReportLineItem.toScope3LineItem).map (fields engine) =
      rows.map fun row => fields engine (toLineItem row).toScope3LineItem := by
    rw [List.map_map, List.map_map]
    rfl
  rw [← hrows]
  exact (h.lineItems.map ReportLineItem.toScope3LineItem).map (fields engine)

/-- The report on all retirements of a user. -/
theorem getScope3Report_all :
    ∃ report, getScope3Report engine parseOther table userId wallet none now = some report ∧
      Covers (inventory table userId) report :=
  ⟨_, rfl, covers_of_perm (perm_findMany_all table userId) rfl rfl⟩

/-- The report on a year. -/
theorem getScope3Report_year {y : ℕ} (hy : y ∈ reportYears) :
    ∃ report, getScope3Report engine parseOther table userId wallet (some (.finite y)) now =
      some report ∧ Covers (inventoryOf table userId y) report := by
  obtain ⟨rows, hrows, hperm⟩ := fetchRetirements_year engine parseOther table userId hy
  unfold getScope3Report
  rw [hrows]
  exact ⟨_, rfl, covers_of_perm hperm rfl rfl⟩

/-- The retirements of a user, year by year. -/
theorem perm_flatMap_inventoryOf
    (hyears : ∀ row ∈ inventory table userId,
      1000 ≤ JsDate.yearFromTime row.timestamp ∧ JsDate.yearFromTime row.timestamp ≤ 9998) :
    (reportYears.flatMap (inventoryOf table userId)).Perm (inventory table userId) := by
  have hofYear : ∀ y ∈ reportYears, inventoryOf table userId y = Transition.labelsOf
      (fun row => (JsDate.yearFromTime row.timestamp).toNat) y (inventory table userId) := by
    intro y hy
    have hlow := (mem_reportYears_iff.mp hy).1
    refine List.filter_congr fun row _ => decide_eq_decide.mpr ?_
    dsimp only
    omega
  have hflat : reportYears.flatMap (inventoryOf table userId) =
      reportYears.flatMap fun y => Transition.labelsOf
        (fun row => (JsDate.yearFromTime row.timestamp).toNat) y (inventory table userId) :=
    congrArg List.flatten (List.map_congr_left hofYear)
  rw [hflat]
  refine Transition.perm_flatMap_labelsOf List.nodup_range' fun row hrow => ?_
  obtain ⟨hlow, hhigh⟩ := hyears row hrow
  exact mem_reportYears_iff.mpr (by omega)

/-- **The yearly reports divide the inventory.**  If all retirements of a user are of these
years, then the line items of the yearly reports are those of the report on all retirements, and
so are the tonnages; and every report covers its retirements. -/
theorem getScope3Report_partition
    (hyears : ∀ row ∈ table.rows, row.retiredById = userId →
      1000 ≤ JsDate.yearFromTime row.timestamp ∧ JsDate.yearFromTime row.timestamp ≤ 9998) :
    ∃ all : InventoryReport, ∃ yearly : ℕ → InventoryReport,
      getScope3Report engine parseOther table userId wallet none now = some all ∧
      (∀ y ∈ reportYears,
        getScope3Report engine parseOther table userId wallet (some (.finite y)) now =
          some (yearly y)) ∧
      Covers (inventory table userId) all ∧
      (∀ y ∈ reportYears, Covers (inventoryOf table userId y) (yearly y)) ∧
      (reportYears.flatMap fun y => (yearly y).lineItems).Perm all.lineItems ∧
      (reportYears.map fun y => (yearly y).summary.totalTonnesRetired).sum =
        all.summary.totalTonnesRetired := by
  obtain ⟨all, hall, hcovers⟩ := getScope3Report_all engine parseOther table userId wallet now
  have hyearly : ∀ y, ∃ report, y ∈ reportYears →
      getScope3Report engine parseOther table userId wallet (some (.finite y)) now = some report ∧
        Covers (inventoryOf table userId y) report := by
    intro y
    by_cases hy : y ∈ reportYears
    · obtain ⟨report, h⟩ := getScope3Report_year engine parseOther table userId wallet now hy
      exact ⟨report, fun _ => h⟩
    · exact ⟨all, fun h => absurd h hy⟩
  choose yearly hyearly using hyearly
  have hperm := perm_flatMap_inventoryOf table userId (by
    intro row hrow
    obtain ⟨hmem, huser⟩ := List.mem_filter.mp hrow
    exact hyears row hmem (of_decide_eq_true huser))
  refine ⟨all, yearly, hall, fun y hy => (hyearly y hy).1, hcovers,
    fun y hy => (hyearly y hy).2, ?_, ?_⟩
  · -- the line items of the years, and those of their rows
    have hitems : (reportYears.flatMap fun y => (yearly y).lineItems).Perm
        ((reportYears.flatMap (inventoryOf table userId)).map toLineItem) := by
      rw [List.map_flatMap]
      exact List.Perm.flatMap_left _ fun y hy => (hyearly y hy).2.lineItems
    exact hitems.trans ((hperm.map toLineItem).trans hcovers.lineItems.symm)
  · have htotals : reportYears.map (fun y => (yearly y).summary.totalTonnesRetired) =
        reportYears.map fun y => ((inventoryOf table userId y).map fun row =>
          row.tonnesRetired).sum :=
      List.map_congr_left fun y hy => (hyearly y hy).2.summary.totalTonnesRetired
    rw [htotals, hcovers.summary.totalTonnesRetired, ← (hperm.map _).sum_eq, List.map_flatMap,
      List.flatMap, List.sum_flatten, List.map_map]
    rfl

end Reports

/-- A retirement in the first millisecond of 2026. -/
def sampleRow : InventoryRow where
  id := "r-1"
  retiredById := "user-1"
  beneficiary := "NetZero Corp"
  reason := "2026 emissions offset"
  accountingPeriod := "2026-Q1"
  tonnesRetired := 100
  txHash := "0xtx1"
  ledgerSequence := 42
  timestamp := 1767225600000
  certificateHash := some "cert-1"
  credit := {
    creditId := 7, projectId := "P-001", methodology := "", geography := "BR"
    vintageStart := 1704067200000, vintageEnd := 1735603200000, serialPrefix := "VCS-" }

/-- One in the last millisecond of 2025, of another methodology. -/
def earlierRow : InventoryRow :=
  { sampleRow with
    id := "r-2"
    tonnesRetired := 25
    timestamp := 1767225599999
    credit := { sampleRow.credit with creditId := 8, methodology := "VM0007" } }

/-- The rows of the user, and one of another user in the same year. -/
def sampleRows : List InventoryRow :=
  [sampleRow, earlierRow, { sampleRow with id := "r-3", retiredById := "user-2" }]

example : (buildSummary [sampleRow, earlierRow]).byMethodology =
    [{ key := "UNKNOWN", tonnes := 100, retirements := 1 },
      { key := "VM0007", tonnes := 25, retirements := 1 }] := by
  decide +kernel

/-- Each year has its row. -/
example : (inventoryOf (.ofRows sampleRows) "user-1" 2025).map InventoryRow.id = ["r-2"] ∧
    (inventoryOf (.ofRows sampleRows) "user-1" 2026).map InventoryRow.id = ["r-1"] := by
  decide +kernel

/-- The reports of two rows of different years and methodologies. -/
theorem getScope3Report_partition_sampleRows :
    ∃ all : InventoryReport, ∃ yearly : ℕ → InventoryReport,
      getScope3Report { printDouble := fun _ => "", decodeUtf8 := fun _ => "" } (fun _ => none)
        (.ofRows sampleRows) "user-1" "GWALLET" none 0 = some all ∧
      (∀ y ∈ reportYears,
        getScope3Report { printDouble := fun _ => "", decodeUtf8 := fun _ => "" } (fun _ => none)
          (.ofRows sampleRows) "user-1" "GWALLET" (some (.finite y)) 0 = some (yearly y)) ∧
      Covers (inventory (.ofRows sampleRows) "user-1") all ∧
      (∀ y ∈ reportYears,
        Covers (inventoryOf (.ofRows sampleRows) "user-1" y) (yearly y)) ∧
      (reportYears.flatMap fun y => (yearly y).lineItems).Perm all.lineItems ∧
      (reportYears.map fun y => (yearly y).summary.totalTonnesRetired).sum =
        all.summary.totalTonnesRetired := by
  refine getScope3Report_partition _ _ (.ofRows sampleRows) "user-1" "GWALLET" 0 ?_
  have hyears : ∀ row ∈ sampleRows, 1000 ≤ JsDate.yearFromTime row.timestamp ∧
      JsDate.yearFromTime row.timestamp ≤ 9998 := by
    decide +kernel
  exact fun row hrow _ => hyears row hrow

end ReportingService

end CarbonVeritas
