/-
# Dates in the UTC calendar

A date of JavaScript is the number of milliseconds since the first of January 1970, without leap
seconds.

* `yearFromTime` : `date.getUTCFullYear()`, the year whose half-open interval holds the date
  (`yearFromTime_eq_iff`);
* `toISOString` : `date.toISOString()`;
* `parse` : `new Date(text)`, for the texts in the date-time format; what other texts mean is left
  to the engine.
-/
import CarbonVeritas.JsNumbers

namespace JsDate

/-! ## Years -/

def msPerDay : ℤ := 86400000

/-- The day on which a year begins. -/
def dayFromYear (y : ℤ) : ℤ :=
  365 * (y - 1970) + (y - 1969) / 4 - (y - 1901) / 100 + (y - 1601) / 400

def timeFromYear (y : ℤ) : ℤ := msPerDay * dayFromYear y

/-- `getUTCFullYear` -/
def yearFromTime (t : ℤ) : ℤ :=
  let day := t / msPerDay
  -- 400 years have 146097 days, so that the estimate is at most one year off
  let y := 1970 + 400 * day / 146097
  if day < dayFromYear y then y - 1 else if day < dayFromYear (y + 1) then y else y + 1

theorem dayFromYear_mono {y z : ℤ} (h : y ≤ z) : dayFromYear y ≤ dayFromYear z := by
  unfold dayFromYear
  omega

theorem day_mem_year (t : ℤ) :
    dayFromYear (yearFromTime t) ≤ t / msPerDay ∧
      t / msPerDay < dayFromYear (yearFromTime t + 1) := by
  unfold yearFromTime
  generalize t / msPerDay = day
  dsimp only
  split_ifs with hbefore hwithin
  · rw [sub_add_cancel]
    refine ⟨?_, hbefore⟩
    unfold dayFromYear
    omega
  · exact ⟨not_lt.mp hbefore, hwithin⟩
  · unfold dayFromYear at *
    omega

/-- **Years are half-open intervals.**  A date is in the year that has begun and whose successor
has not. -/
theorem yearFromTime_eq_iff {t y : ℤ} :
    yearFromTime t = y ↔ timeFromYear y ≤ t ∧ t < timeFromYear (y + 1) := by
  have hstart : ∀ z, timeFromYear z ≤ t ↔ dayFromYear z ≤ t / msPerDay := by
    intro z
    unfold timeFromYear msPerDay
    omega
  rw [← not_le, hstart, hstart, not_le]
  obtain ⟨hbegun, hnot⟩ := day_mem_year t
  constructor
  · rintro rfl
    exact ⟨hbegun, hnot⟩
  · rintro ⟨hle, hlt⟩
    rcases lt_trichotomy (yearFromTime t) y with hless | heq | hmore
    · have := dayFromYear_mono (show yearFromTime t + 1 ≤ y by omega)
      omega
    · exact heq
    · have := dayFromYear_mono (show y + 1 ≤ yearFromTime t by omega)
      omega

/-! ## The ISO format -/

def inLeapYear (y : ℤ) : Bool := dayFromYear (y + 1) - dayFromYear y = 366

/-- The days of a year on which its months begin. -/
def monthStarts (y : ℤ) : List ℤ :=
  let leap := if inLeapYear y then 1 else 0
  [0, 31, 59 + leap, 90 + leap, 120 + leap, 151 + leap, 181 + leap, 212 + leap, 243 + leap,
    273 + leap, 304 + leap, 334 + leap]

/-- `padStart` with zeros. -/
def padded (width n : ℕ) : String := String.ofList ((toString n).toList.leftpad width '0')

/-- Four digits, or a sign and six digits. -/
def yearText (y : ℤ) : String :=
  if 0 ≤ y ∧ y ≤ 9999 then padded 4 y.toNat
  else (if y < 0 then "-" else "+") ++ padded 6 y.natAbs

def toISOString (t : ℤ) : String :=
  let y := yearFromTime t
  let dayWithinYear := t / msPerDay - dayFromYear y
  let begun := (monthStarts y).filter fun start => start ≤ dayWithinYear
  let date := dayWithinYear - begun.getLastD 0 + 1
  let ms := (t % msPerDay).toNat
  yearText y ++ "-" ++ padded 2 begun.length ++ "-" ++ padded 2 date.toNat ++ "T" ++
    padded 2 (ms / 3600000) ++ ":" ++ padded 2 (ms / 60000 % 60) ++ ":" ++
    padded 2 (ms / 1000 % 60) ++ "." ++ padded 3 (ms % 1000) ++ "Z"

example : toISOString 1780272000000 = "2026-06-01T00:00:00.000Z" := by
  decide +kernel

/-! ## Reading a text in the format -/

/-- A number of `n` digits, and the text after it. -/
def digits (n : ℕ) (cs : List Char) : Option (ℕ × List Char) :=
  if cs.length < n then none
  else (JsNumber.digitsValue 10 (cs.take n)).map fun value => (value, cs.drop n)

/-- A year in four digits, or in a sign and six digits. -/
def yearDigits : List Char → Option (ℤ × List Char)
  | '+' :: cs => (digits 6 cs).map fun p => (p.1, p.2)
  | '-' :: cs => (digits 6 cs).bind fun p => if p.1 = 0 then none else some (-p.1, p.2)
  | cs => (digits 4 cs).map fun p => (p.1, p.2)

/-- The text after a mark. -/
def mark (c : Char) : List Char → Option (List Char)
  | [] => none
  | c' :: cs => if c' = c then some cs else none

/-- The parts of a text in the date-time format. -/
structure Parts where
  year : ℤ
  month : ℕ
  day : ℕ
  hour : ℕ
  minute : ℕ
  second : ℕ
  ms : ℕ

def Parts.InBounds (p : Parts) : Prop :=
  1 ≤ p.month ∧ p.month ≤ 12 ∧ 1 ≤ p.day ∧ p.day ≤ 31 ∧ p.minute ≤ 59 ∧ p.second ≤ 59 ∧
    (p.hour ≤ 23 ∨ p.hour = 24 ∧ p.minute = 0 ∧ p.second = 0 ∧ p.ms = 0)

instance (p : Parts) : Decidable p.InBounds := by
  unfold Parts.InBounds
  infer_instance

def Parts.time (p : Parts) : ℤ :=
  let day := dayFromYear p.year + (monthStarts p.year).getD (p.month - 1) 0 + p.day - 1
  msPerDay * day + 3600000 * p.hour + 60000 * p.minute + 1000 * p.second + p.ms

/-- `YYYY-MM-DDTHH:mm:ss.sssZ` -/
def dateTimeParts (cs : List Char) : Option Parts := do
  let (year, cs) ← yearDigits cs
  let cs ← mark '-' cs
  let (month, cs) ← digits 2 cs
  let cs ← mark '-' cs
  let (day, cs) ← digits 2 cs
  let cs ← mark 'T' cs
  let (hour, cs) ← digits 2 cs
  let cs ← mark ':' cs
  let (minute, cs) ← digits 2 cs
  let cs ← mark ':' cs
  let (second, cs) ← digits 2 cs
  let cs ← mark '.' cs
  let (ms, cs) ← digits 3 cs
  let cs ← mark 'Z' cs
  if cs = [] then some { year, month, day, hour, minute, second, ms } else none

/-- The dates are a hundred million days on either side of 1970. -/
def timeClip (t : ℤ) : Option ℤ := if |t| ≤ 8640000000000000 then some t else none

/-- `new Date(text)`, `none` for an invalid date. -/
def parse (other : String → Option ℤ) (text : String) : Option ℤ :=
  match dateTimeParts text.toList with
  | some parts => if parts.InBounds then timeClip parts.time else other text
  | none => other text

example : parse (fun _ => none) "2026-06-01T00:00:00.000Z" = some 1780272000000 := by
  decide +kernel

/-- `YYYY-MM-DD`, which stands for its first millisecond. -/
def dateParts (cs : List Char) : Option Parts := do
  let (year, cs) ← yearDigits cs
  let cs ← mark '-' cs
  let (month, cs) ← digits 2 cs
  let cs ← mark '-' cs
  let (day, cs) ← digits 2 cs
  if cs = [] then
    some { year, month, day, hour := 0, minute := 0, second := 0, ms := 0 }
  else none

/-- `new Date(text)` for a text that may be a date alone. -/
def parseDate (other : String → Option ℤ) (text : String) : Option ℤ :=
  match dateParts text.toList with
  | some parts => if parts.InBounds then timeClip parts.time else other text
  | none => parse other text

/-! ## The borders of a year -/

/-- The text of the first millisecond of a year. -/
def newYear (year : String) : String := year ++ "-01-01T00:00:00.000Z"

/-- A year from 1000 on is written in four digits. -/
theorem exists_four_digits {y : ℕ} (hlow : 1000 ≤ y) (hhigh : y ≤ 9999) :
    ∃ a b c d, Nat.toDigits 10 y = [a, b, c, d] := by
  have hle : (Nat.toDigits 10 y).length ≤ 4 :=
    (Nat.length_toDigits_le_iff (by omega) (by omega)).mpr (by omega)
  have hlt : ¬ (Nat.toDigits 10 y).length ≤ 3 := fun h =>
    absurd ((Nat.length_toDigits_le_iff (by omega) (by omega)).mp h) (by omega)
  exact List.length_eq_four.mp (by omega)

theorem yearDigits_toDigits {y : ℕ} (hlow : 1000 ≤ y) (hhigh : y ≤ 9999) (rest : List Char) :
    yearDigits (Nat.toDigits 10 y ++ rest) = some ((y : ℤ), rest) := by
  obtain ⟨a, b, c, d, htext⟩ := exists_four_digits hlow hhigh
  have hdigit : ∀ x ∈ [a, b, c, d], x.isDigit = true := by
    intro x hx
    rw [← htext] at hx
    exact Nat.isDigit_of_mem_toDigits (by decide) (by decide) hx
  have hvalue : JsNumber.digitsValue 10 [a, b, c, d] = some y := by
    rw [JsNumber.digitsValue_of_isDigit (List.cons_ne_nil _ _) hdigit, ← htext,
      Nat.ofDigitChars_ten_toDigits]
  rw [htext]
  unfold yearDigits
  split
  -- the first character is no sign
  case h_1 heq => exact absurd ((List.cons.inj heq).1 ▸ hdigit a List.mem_cons_self) (by decide)
  case h_2 heq => exact absurd ((List.cons.inj heq).1 ▸ hdigit a List.mem_cons_self) (by decide)
  case h_3 =>
    unfold digits
    rw [if_neg (by simp)]
    simp [hvalue]

theorem dateTimeParts_newYear {y : ℕ} (hlow : 1000 ≤ y) (hhigh : y ≤ 9999) :
    dateTimeParts (newYear (toString y)).toList =
      some { year := y, month := 1, day := 1, hour := 0, minute := 0, second := 0, ms := 0 } := by
  have htoList : (newYear (toString y)).toList =
      Nat.toDigits 10 y ++ "-01-01T00:00:00.000Z".toList := by
    unfold newYear
    rw [String.toList_append]
    show y.repr.toList ++ _ = _
    rw [Nat.toList_repr]
  rw [htoList]
  unfold dateTimeParts
  rw [yearDigits_toDigits hlow hhigh]
  rfl

theorem timeClip_timeFromYear {y : ℤ} (hlow : 1000 ≤ y) (hhigh : y ≤ 9999) :
    timeClip (timeFromYear y) = some (timeFromYear y) := by
  refine if_pos (abs_le.mpr ⟨?_, ?_⟩)
  · calc -8640000000000000 ≤ msPerDay * dayFromYear 1000 := by decide
      _ ≤ timeFromYear y := Int.mul_le_mul_of_nonneg_left (dayFromYear_mono hlow) (by decide)
  · calc timeFromYear y ≤ msPerDay * dayFromYear 9999 :=
          Int.mul_le_mul_of_nonneg_left (dayFromYear_mono hhigh) (by decide)
      _ ≤ 8640000000000000 := by decide

/-- The text of the first millisecond of a year is read as the date on which the year begins. -/
theorem parse_newYear (other : String → Option ℤ) {y : ℕ} (hlow : 1000 ≤ y) (hhigh : y ≤ 9999) :
    parse other (newYear (toString y)) = some (timeFromYear y) := by
  unfold parse
  rw [dateTimeParts_newYear hlow hhigh]
  dsimp only
  rw [if_pos (by simp [Parts.InBounds]),
    ← timeClip_timeFromYear (show (1000 : ℤ) ≤ y by omega) (by omega)]
  congr 1
  show msPerDay * (dayFromYear y + 0 + 1 - 1) + 0 + 0 + 0 + 0 = timeFromYear y
  unfold timeFromYear
  ring

end JsDate
