/-
# The CSV export of a report

`api/src/reporting/reporting.service.ts`: `toScope3Csv` and `escapeCsv`.

The export is a file in the sense of `Csv`, with line feeds between the records:
`toScope3Csv_parses` says that reading it without its byte order mark gives the header and then
one record for each line item, whatever characters its fields hold.
-/
import CarbonVeritas.Csv
import CarbonVeritas.JsValues

namespace CarbonVeritas

/-- The fields of a line item that are exported. -/
structure Scope3LineItem where
  creditId : JsNumber
  projectId : String
  methodology : String
  geography : String
  vintageStart : String
  vintageEnd : String
  serialPrefix : String
  tonnesRetired : JsNumber
  beneficiary : String
  reason : String
  accountingPeriod : String
  retirementDate : String
  txHash : String
  ledgerSequence : JsNumber
  certificateHash : Option String

structure Scope3Report where
  lineItems : List Scope3LineItem

def CSV_HEADERS : List String :=
  ["credit_id", "project_id", "methodology", "geography", "vintage_start", "vintage_end",
    "serial_prefix", "tonnes_retired", "beneficiary", "reason", "accounting_period",
    "retirement_date", "tx_hash", "ledger_sequence", "certificate_hash"]

namespace ReportingService

/-! ## The export -/

/-- The values of a line item, in the order of the headers. -/
def values (item : Scope3LineItem) : List JsValue :=
  [.number item.creditId, .string item.projectId, .string item.methodology,
    .string item.geography, .string item.vintageStart, .string item.vintageEnd,
    .string item.serialPrefix, .number item.tonnesRetired, .string item.beneficiary,
    .string item.reason, .string item.accountingPeriod, .string item.retirementDate,
    .string item.txHash, .number item.ledgerSequence,
    (item.certificateHash.elim .null .string : JsValue).orElse (.string "")]

/-- `escapeCsv` -/
def escapeCsv (value : String) : String :=
  if value.toList.any fun c => c = '\x22' ∨ c = ',' ∨ c = '\n' ∨ c = '\r' then
    "\x22" ++ String.ofList (value.toList.flatMap fun c => if c = '\x22' then [c, c] else [c])
      ++ "\x22"
  else value

/-- The byte order mark, for which Excel opens the file with the right encoding. -/
def BOM : String := "\uFEFF"

/-- The header and the lines, one for each line item. -/
def csvRows (engine : JsEngine) (report : Scope3Report) : List String :=
  let lines := report.lineItems.map fun item =>
    ",".intercalate ((values item).map fun value => escapeCsv (value.text engine))
  ",".intercalate CSV_HEADERS :: lines

/-- `toScope3Csv` -/
def toScope3Csv (engine : JsEngine) (report : Scope3Report) : String :=
  let rows := csvRows engine report
  let rows := if rows.length > 1 then rows ++ [""] else rows
  BOM ++ "\n".intercalate rows

/-! ## Reading it -/

/-- Commas between the fields and line feeds between the records. -/
def marks : Csv.Marks Char where
  dquote := '\x22'
  comma := ','
  cr := '\r'
  lf := '\n'
  distinct := by decide

/-- Reading a text as a file of comma-separated values. -/
def readCsv (text : String) : Option (List (List String)) :=
  (Csv.parse marks text.toList).map fun records =>
    records.map fun fields => fields.map String.ofList

/-- The texts of the values of a line item. -/
def fields (engine : JsEngine) (item : Scope3LineItem) : List String :=
  (values item).map fun value => value.text engine

/-- The header, and one record for each line item. -/
def records (engine : JsEngine) (report : Scope3Report) : List (List String) :=
  CSV_HEADERS :: report.lineItems.map (fields engine)

theorem length_fields (engine : JsEngine) (item : Scope3LineItem) :
    (fields engine item).length = 15 := rfl

/-- An escaped value is a field: quoted, with its quotes doubled, if it holds a character that
means something, and as it is otherwise. -/
theorem field_escapeCsv (value : String) :
    Csv.Field marks (escapeCsv value).toList value.toList := by
  unfold escapeCsv
  split_ifs with hspecial
  · have htext : ("\x22" ++ String.ofList (value.toList.flatMap fun c =>
        if c = '\x22' then [c, c] else [c]) ++ "\x22").toList
          = marks.dquote :: (Csv.doubled marks value.toList ++ [marks.dquote]) := by
      simp only [String.toList_append, String.toList_ofList]
      rfl
    rw [htext]
    exact .quoted value.toList
  · refine .bare fun c hc => ?_
    have hnone : ¬ (c = '\x22' ∨ c = ',' ∨ c = '\n' ∨ c = '\r') := by
      intro hc'
      exact hspecial (List.any_eq_true.mpr ⟨c, hc, by simpa using hc'⟩)
    push Not at hnone
    obtain ⟨hdquote, hcomma, hlf, hcr⟩ := hnone
    exact ⟨hdquote, hcomma, hcr, hlf⟩

example : escapeCsv "Offset \x22with quotes\x22"
    = "\x22Offset \x22\x22with quotes\x22\x22\x22" := by
  decide +kernel

/-- Escaped values joined with commas are a record. -/
theorem record_escapeCsv (texts : List String) (hne : texts ≠ []) :
    Csv.Record marks (",".intercalate (texts.map escapeCsv)).toList
      (texts.map String.toList) := by
  rw [String.toList_intercalate, List.map_map]
  refine Csv.record_intercalate ?_ (by simpa using hne)
  rw [List.forall₂_map_left_iff, List.forall₂_map_right_iff, List.forall₂_same]
  exact fun text _ => field_escapeCsv text

/-- The headers need no escaping. -/
theorem escapeCsv_headers : CSV_HEADERS.map escapeCsv = CSV_HEADERS := by
  decide +kernel

/-- The rows of the export are records: the header, and the texts of every line item. -/
theorem record_csvRows (engine : JsEngine) (report : Scope3Report) :
    List.Forall₂ (Csv.Record marks) ((csvRows engine report).map String.toList)
      ((records engine report).map fun texts => texts.map String.toList) := by
  unfold csvRows records
  rw [List.map_cons, List.map_cons, List.map_map, List.map_map]
  refine .cons ?_ ?_
  · rw [← escapeCsv_headers]
    exact record_escapeCsv CSV_HEADERS (List.cons_ne_nil _ _)
  · rw [List.forall₂_map_left_iff, List.forall₂_map_right_iff, List.forall₂_same]
    intro item _
    have hrecord := record_escapeCsv (fields engine item) (List.cons_ne_nil _ _)
    unfold fields at hrecord
    rw [List.map_map] at hrecord
    exact hrecord

theorem readCsv_of_file {text : String} {records : List (List String)}
    (h : Csv.File marks text.toList (records.map fun fields => fields.map String.toList))
    (hfields : ∀ fields ∈ records, fields ≠ [""]) : readCsv text = some records := by
  unfold readCsv
  rw [Csv.parse_of_file h, Option.map_some, List.map_map]
  · congr 1
    refine (List.map_congr_left fun fields _ => ?_).trans (List.map_id records)
    simp
  · intro fields hmem hlone
    obtain ⟨texts, htexts, rfl⟩ := List.mem_map.mp hmem
    obtain ⟨text, rfl, htext⟩ := List.map_eq_singleton_iff.mp hlone
    rw [String.toList_eq_nil_iff] at htext
    exact hfields [text] htexts (by rw [htext])

/-- **The export, read back.**  Without its byte order mark it is a file of comma-separated
values, and reading it gives the header and then one record of fifteen fields for each line
item. -/
theorem toScope3Csv_parses (engine : JsEngine) (report : Scope3Report) :
    ∃ body, toScope3Csv engine report = BOM ++ body ∧
      Csv.File marks body.toList
        ((CSV_HEADERS :: report.lineItems.map (fields engine)).map fun texts =>
          texts.map String.toList) ∧
      readCsv body = some (CSV_HEADERS :: report.lineItems.map (fields engine)) ∧
      ∀ record ∈ report.lineItems.map (fields engine), record.length = 15 := by
  have hlength : ∀ record ∈ report.lineItems.map (fields engine), record.length = 15 := by
    intro record hrecord
    obtain ⟨item, -, rfl⟩ := List.mem_map.mp hrecord
    exact length_fields engine item
  have hmany : ∀ record ∈ records engine report, record ≠ [""] := by
    intro record hrecord hlone
    rcases List.mem_cons.mp hrecord with rfl | hrecord
    · exact absurd hlone (by decide)
    · have hfifteen := hlength record hrecord
      rw [hlone] at hfifteen
      cases hfifteen
  -- the last row ends with a line break only if there is a line item
  have hfile : Csv.File marks ("\n".intercalate (if (csvRows engine report).length > 1
        then csvRows engine report ++ [""] else csvRows engine report)).toList
      ((records engine report).map fun texts => texts.map String.toList) := by
    obtain ⟨hplain, hline⟩ := Csv.file_intercalate (record_csvRows engine report)
      (List.cons_ne_nil _ _)
    rw [String.toList_intercalate]
    split_ifs
    · rw [List.map_append]
      exact hline
    · exact hplain
  exact ⟨_, rfl, hfile, readCsv_of_file hfile hmany, hlength⟩

end ReportingService

end CarbonVeritas
