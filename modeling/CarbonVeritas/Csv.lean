/-
# Comma-separated values

The format of RFC 4180 over any alphabet, with line feeds between the records: its grammar
(`Field`, `Record`, `File`), and a reader that goes through a text character by character
(`parse`).

The grammar is ambiguous in one place: after a final line break it allows for one more record
that is a single empty field.  The reader takes the break for the end of the last record, and
`parse_of_file` says that it recovers the records of every file in which no record is a single
empty field.
-/
import Mathlib.Data.List.Basic
import Mathlib.Logic.Basic

namespace Csv

/-! ## The grammar -/

/-- The characters that the format gives a meaning to. -/
structure Marks (α : Type*) where
  dquote : α
  comma : α
  cr : α
  lf : α
  distinct : [dquote, comma, cr, lf].Nodup

namespace Marks

variable {α : Type*} (m : Marks α)

theorem comma_ne_dquote : m.comma ≠ m.dquote := by
  have h := m.distinct
  simp only [List.nodup_cons, List.mem_cons, not_or] at h
  exact Ne.symm h.1.1

theorem lf_ne_dquote : m.lf ≠ m.dquote := by
  have h := m.distinct
  simp only [List.nodup_cons, List.mem_cons, not_or] at h
  exact Ne.symm h.1.2.2.1

theorem lf_ne_comma : m.lf ≠ m.comma := by
  have h := m.distinct
  simp only [List.nodup_cons, List.mem_cons, not_or] at h
  exact Ne.symm h.2.1.2.1

/-- A character that stands for itself outside quotes. -/
def Plain (c : α) : Prop := c ≠ m.dquote ∧ c ≠ m.comma ∧ c ≠ m.cr ∧ c ≠ m.lf

end Marks

variable {α : Type*} [DecidableEq α] (m : Marks α)

/-- Every quote twice. -/
def doubled (field : List α) : List α :=
  field.flatMap fun c => if c = m.dquote then [c, c] else [c]

/-- The texts of a field. -/
inductive Field : List α → List α → Prop
  | bare {field : List α} (h : ∀ c ∈ field, m.Plain c) : Field field field
  | quoted (field : List α) : Field (m.dquote :: (doubled m field ++ [m.dquote])) field

/-- The texts of a record. -/
inductive Record : List α → List (List α) → Prop
  | last {text field : List α} (h : Field m text field) : Record text [field]
  | cons {text field rest : List α} {fields : List (List α)} (h : Field m text field)
      (hrest : Record rest fields) : Record (text ++ m.comma :: rest) (field :: fields)

/-- The texts of a file; the last record may end with a line break. -/
inductive File : List α → List (List (List α)) → Prop
  | last {text : List α} {fields : List (List α)} (h : Record m text fields) : File text [fields]
  | lastLine {text : List α} {fields : List (List α)} (h : Record m text fields) :
      File (text ++ [m.lf]) [fields]
  | cons {text rest : List α} {fields : List (List α)} {records : List (List (List α))}
      (h : Record m text fields) (hrest : File rest records) :
      File (text ++ m.lf :: rest) (fields :: records)

/-! ## The reader -/

/-- Where the reader stands. -/
inductive Place where
  /-- at the first character of a field -/
  | start
  | bare
  | quoted
  /-- after a quote that may have ended a field -/
  | closed
  deriving DecidableEq

/-- What it has read: the field, the fields of the record before it, the records before. -/
structure Reading (α : Type*) where
  place : Place := .start
  field : List α := []
  fields : List (List α) := []
  records : List (List (List α)) := []

namespace Reading

variable {m}

def endField (st : Reading α) : Reading α :=
  { fields := st.fields ++ [st.field], records := st.records }

def endRecord (st : Reading α) : Reading α :=
  { records := st.records ++ [st.fields ++ [st.field]] }

variable (m) in
/-- One character. -/
def step (st : Reading α) (c : α) : Option (Reading α) :=
  match st.place with
  | .quoted =>
      if c = m.dquote then some { st with place := .closed }
      else some { st with field := st.field ++ [c] }
  | .closed =>
      if c = m.dquote then some { st with place := .quoted, field := st.field ++ [c] }
      else if c = m.comma then some st.endField
      else if c = m.lf then some st.endRecord
      else none
  | place =>
      if c = m.dquote then
        if place = .start then some { st with place := .quoted } else none
      else if c = m.comma then some st.endField
      else if c = m.lf then some st.endRecord
      else if c = m.cr then none
      else some { st with place := .bare, field := st.field ++ [c] }

/-- The end of the text: a final line break has ended the last record. -/
def finish (st : Reading α) : Option (List (List (List α))) :=
  if st.place = .quoted then none
  else if st.place = .start ∧ st.fields = [] ∧ st.records ≠ [] then some st.records
  else some st.endRecord.records

variable (m) in
def read (st : Reading α) (text : List α) : Option (Reading α) := text.foldlM (step m) st

theorem read_append (st : Reading α) (s t : List α) :
    read m st (s ++ t) = (read m st s).bind fun st => read m st t := List.foldlM_append

@[simp] theorem read_cons (st : Reading α) (c : α) (t : List α) :
    read m st (c :: t) = (step m st c).bind fun st => read m st t := rfl

@[simp] theorem read_nil (st : Reading α) : read m st [] = some st := rfl

end Reading

/-- Reading a text as a file. -/
def parse (text : List α) : Option (List (List (List α))) :=
  (Reading.read m {} text).bind Reading.finish

/-! ## Reading what the grammar allows -/

namespace Reading

variable {m}

theorem step_plain {st : Reading α} {c : α} (hc : m.Plain c)
    (hplace : st.place = .start ∨ st.place = .bare) :
    step m st c = some { st with place := .bare, field := st.field ++ [c] } := by
  obtain ⟨hdquote, hcomma, hcr, hlf⟩ := hc
  unfold step
  rcases hplace with h | h <;> rw [h] <;> simp [hdquote, hcomma, hcr, hlf]

/-- Characters that stand for themselves. -/
theorem read_plain {text : List α} (htext : ∀ c ∈ text, m.Plain c) :
    ∀ {st : Reading α}, st.place = .start ∨ st.place = .bare →
      read m st text = some { st with
        place := if text = [] then st.place else .bare, field := st.field ++ text } := by
  induction text with
  | nil =>
      intro st _
      simp
  | cons c text ih =>
      intro st hplace
      rw [read_cons, step_plain (htext c List.mem_cons_self) hplace, Option.bind_some,
        ih (fun x hx => htext x (List.mem_cons_of_mem _ hx)) (Or.inr rfl)]
      simp

/-- What stands between quotes. -/
theorem read_doubled (field : List α) :
    ∀ {st : Reading α}, st.place = .quoted →
      read m st (doubled m field) = some { st with field := st.field ++ field } := by
  induction field with
  | nil =>
      intro st _
      simp [doubled]
  | cons c field ih =>
      intro st hplace
      have hstep : read m st (if c = m.dquote then [c, c] else [c])
          = some { st with field := st.field ++ [c] } := by
        by_cases hc : c = m.dquote
        · simp [hc, step, hplace]
        · simp [hc, step, hplace]
      unfold doubled at ih ⊢
      rw [List.flatMap_cons, read_append, hstep, Option.bind_some, ih (by exact hplace)]
      simp

/-- A field from its first character on.  Where the reader then stands, any separator ends the
field; and it still stands at the first character only if the field is empty. -/
theorem read_field {text field : List α} (h : Field m text field) (fields : List (List α))
    (records : List (List (List α))) :
    ∃ place, place ≠ .quoted ∧ (place = .start → field = []) ∧
      read m { fields := fields, records := records } text
        = some { place := place, field := field, fields := fields, records := records } := by
  cases h with
  | bare h =>
      refine ⟨_, ?_, ?_, read_plain h (Or.inl rfl)⟩
      · split_ifs <;> simp
      · split_ifs with hnil
        · exact fun _ => hnil
        · simp
  | quoted =>
      refine ⟨.closed, by simp, by simp, ?_⟩
      have hopen : step m { fields := fields, records := records } m.dquote
          = some { place := .quoted, fields := fields, records := records } := by
        simp [step]
      rw [read_cons, hopen, Option.bind_some, read_append, read_doubled field rfl,
        Option.bind_some]
      simp [step]

theorem step_comma {st : Reading α} (hplace : st.place ≠ .quoted) :
    step m st m.comma = some st.endField := by
  have hne := m.comma_ne_dquote
  unfold step
  cases h : st.place <;> simp_all

theorem step_lf {st : Reading α} (hplace : st.place ≠ .quoted) :
    step m st m.lf = some st.endRecord := by
  have hne := m.lf_ne_dquote
  have hcomma := m.lf_ne_comma
  unfold step
  cases h : st.place <;> simp_all

/-- A record from its first field on: the reader stands in its last field. -/
theorem read_record {text : List α} {fields : List (List α)} (h : Record m text fields) :
    ∀ (before : List (List α)) (records : List (List (List α))),
      ∃ st, read m { fields := before, records := records } text = some st ∧
        st.place ≠ .quoted ∧ (st.place = .start → st.field = []) ∧ st.records = records ∧
        st.fields ++ [st.field] = before ++ fields := by
  induction h with
  | last h =>
      intro before records
      obtain ⟨place, hplace, hstart, hread⟩ := read_field h before records
      exact ⟨_, hread, hplace, hstart, rfl, rfl⟩
  | cons h _ ih =>
      intro before records
      obtain ⟨place, hplace, -, hread⟩ := read_field h before records
      obtain ⟨st, hst, hrest⟩ := ih (before ++ [_]) records
      refine ⟨st, ?_, ?_⟩
      · rw [read_append, hread, Option.bind_some, read_cons, step_comma hplace, Option.bind_some]
        exact hst
      · rw [List.append_assoc] at hrest
        exact hrest

/-- A file from its first record on. -/
theorem read_file {text : List α} {records : List (List (List α))} (h : File m text records)
    (hfields : ∀ fields ∈ records, fields ≠ [[]]) : ∀ before : List (List (List α)),
      (read m { records := before } text).bind finish = some (before ++ records) := by
  induction h with
  | last h =>
      intro before
      obtain ⟨st, hread, hplace, hstart, hrecords, hst⟩ := read_record h [] before
      rw [List.nil_append] at hst
      rw [hread, Option.bind_some]
      unfold finish endRecord
      rw [if_neg hplace, if_neg, hst, hrecords]
      -- the reader is not at the first character of a record
      rintro ⟨hp, hnil, -⟩
      rw [hnil, hstart hp] at hst
      exact hfields _ List.mem_cons_self hst.symm
  | lastLine h =>
      intro before
      obtain ⟨st, hread, hplace, -, hrecords, hst⟩ := read_record h [] before
      rw [List.nil_append] at hst
      rw [read_append, hread, Option.bind_some, read_cons, step_lf hplace, Option.bind_some,
        read_nil, Option.bind_some]
      unfold finish endRecord
      simp [hst, hrecords]
  | cons h _ ih =>
      intro before
      obtain ⟨st, hread, hplace, -, hrecords, hst⟩ := read_record h [] before
      rw [List.nil_append] at hst
      rw [read_append, hread, Option.bind_some, read_cons, step_lf hplace, Option.bind_some]
      unfold endRecord
      rw [hst, hrecords, ih (fun x hx => hfields x (List.mem_cons_of_mem _ hx)),
        List.append_assoc, List.singleton_append]

end Reading

variable {m}

/-- **Reading a file.**  The reader recovers the records of a file in which no record is a
single empty field. -/
theorem parse_of_file {text : List α} {records : List (List (List α))} (h : File m text records)
    (hfields : ∀ fields ∈ records, fields ≠ [[]]) : parse m text = some records :=
  Reading.read_file h hfields []

/-! ## Joining -/

/-- Fields joined with commas. -/
theorem record_intercalate {texts fields : List (List α)}
    (h : List.Forall₂ (Field m) texts fields) (hne : fields ≠ []) :
    Record m ([m.comma].intercalate texts) fields := by
  induction h with
  | nil => exact absurd rfl hne
  | cons hfield hrest ih =>
      cases hrest with
      | nil =>
          rw [List.intercalate_singleton]
          exact .last hfield
      | cons _ _ =>
          rw [List.intercalate_cons_cons, List.append_assoc, List.singleton_append]
          exact .cons hfield (ih (List.cons_ne_nil _ _))

/-- Records joined with line feeds, and with one more after the last record. -/
theorem file_intercalate {texts : List (List α)} {records : List (List (List α))}
    (h : List.Forall₂ (Record m) texts records) (hne : records ≠ []) :
    File m ([m.lf].intercalate texts) records ∧
      File m ([m.lf].intercalate (texts ++ [[]])) records := by
  induction h with
  | nil => exact absurd rfl hne
  | cons hrecord hrest ih =>
      cases hrest with
      | nil =>
          rw [List.singleton_append, List.intercalate_cons_cons, List.intercalate_singleton,
            List.intercalate_singleton, List.append_nil]
          exact ⟨.last hrecord, .lastLine hrecord⟩
      | cons _ _ =>
          obtain ⟨hplain, hline⟩ := ih (List.cons_ne_nil _ _)
          rw [List.cons_append, List.cons_append, List.intercalate_cons_cons,
            List.intercalate_cons_cons, List.append_assoc, List.append_assoc,
            List.singleton_append, List.singleton_append]
          exact ⟨.cons hrecord hplain, .cons hrecord hline⟩

end Csv
