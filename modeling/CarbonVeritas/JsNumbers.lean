/-
# JavaScript numbers

A number of JavaScript is a 64-bit binary floating-point value.  `JsNumber` keeps the
rational it stands for; the sign of zero is not kept.

* `roundDouble` : the double nearest to a rational, ties to the even significand;
* `ofBigInt`, `ofString` : the conversion `Number(..)` of a bigint and of a string;
* `parseFloat` : the number that a string begins with;
* `add`, `sub`, `mul` : the arithmetic of two numbers, and `ge`, `gt` their comparison;
* `floor` : the integer below a number;
* `succ` : what `n + 1` is for an integer `n`, which past `2^53` need not be its successor.

Integers of absolute value at most `2^53` are doubles (`roundDouble_intCast`).
-/
import Mathlib.Data.Int.Log
import Mathlib.Data.List.TakeWhile
import Mathlib.Data.Rat.Floor
import Mathlib.Tactic.FieldSimp
import Mathlib.Tactic.NormNum
import Mathlib.Tactic.Positivity

inductive JsNumber where
  | nan
  | infinity (negative : Bool)
  | finite (q : ℚ)
  deriving DecidableEq, Repr

namespace JsNumber

/-! ## Rounding -/

/-- The integer nearest to `q`, the even one of two. -/
def roundHalfEven (q : ℚ) : ℤ :=
  let k := ⌊q⌋
  if q - k < 1 / 2 then k else if 1 / 2 < q - k then k + 1 else k + k % 2

/-- An integer is rounded to itself. -/
@[simp] theorem roundHalfEven_intCast (k : ℤ) : roundHalfEven k = k := by
  simp [roundHalfEven]

/-- The exponent of the last place of the doubles around `q`. -/
def lastPlace (q : ℚ) : ℤ := max (Int.log 2 |q| - 52) (-1074)

def roundDouble (q : ℚ) : JsNumber :=
  let r : ℚ := roundHalfEven (q / 2 ^ lastPlace q) * 2 ^ lastPlace q
  if |r| < 2 ^ 1024 then .finite r else .infinity (decide (r < 0))

/-- A multiple of the last place is a double. -/
theorem roundDouble_of_multiple {q : ℚ} {m : ℤ} (hq : q = m * 2 ^ lastPlace q)
    (hlt : |q| < 2 ^ 1024) : roundDouble q = .finite q := by
  have hne : (2 : ℚ) ^ lastPlace q ≠ 0 := zpow_ne_zero _ two_ne_zero
  have hdiv : q / 2 ^ lastPlace q = m := by
    rw [div_eq_iff hne]
    exact hq
  have hround : (roundHalfEven (q / 2 ^ lastPlace q) : ℚ) * 2 ^ lastPlace q = q := by
    rw [hdiv, roundHalfEven_intCast]
    exact hq.symm
  unfold roundDouble
  rw [hround]
  exact if_pos hlt

/-- Below `2^53` the last place of a double is a fraction or one. -/
theorem lastPlace_nonpos {z : ℤ} (hz : |z| < 2 ^ 53) : lastPlace z ≤ 0 := by
  have hlog : Int.log 2 |(z : ℚ)| ≤ 52 := by
    rcases eq_or_ne z 0 with rfl | hne
    · simp [Int.log]
    · have hpos : 0 < |(z : ℚ)| := abs_pos.mpr (by exact_mod_cast hne)
      have hlt : |(z : ℚ)| < (2 : ℕ) ^ (53 : ℤ) := by exact_mod_cast hz
      have := (Int.lt_zpow_iff_log_lt (by norm_num) hpos).mp hlt
      omega
  unfold lastPlace
  omega

/-- At `2^53` doubles lie two apart. -/
theorem lastPlace_two_pow {q : ℚ} (hq : |q| = 2 ^ 53) : lastPlace q = 1 := by
  have hlog : Int.log 2 ((2 : ℚ) ^ 53) = 53 := by
    exact_mod_cast Int.log_zpow (R := ℚ) one_lt_two 53
  unfold lastPlace
  rw [hq, hlog]
  decide

/-- The integers up to `2^53` are doubles. -/
theorem roundDouble_intCast {z : ℤ} (hz : |z| ≤ 2 ^ 53) : roundDouble z = .finite z := by
  have hbound : |(z : ℚ)| < 2 ^ 1024 := by
    have hcast : |(z : ℚ)| ≤ 2 ^ 53 := by exact_mod_cast hz
    exact lt_of_le_of_lt hcast (pow_lt_pow_right₀ one_lt_two (by norm_num))
  rcases lt_or_eq_of_le hz with hlt | heq
  · have hexp := lastPlace_nonpos hlt
    obtain ⟨n, hn⟩ := Int.eq_ofNat_of_zero_le (neg_nonneg.mpr hexp)
    refine roundDouble_of_multiple (m := z * 2 ^ n) ?_ hbound
    have hplace : lastPlace z = -(n : ℤ) := by omega
    rw [hplace, zpow_neg, zpow_natCast]
    push_cast
    field_simp
  · -- the two integers of absolute value 2^53 are even, and the last place there is 2
    rcases abs_eq (by norm_num : (0 : ℤ) ≤ 2 ^ 53) |>.mp heq with rfl | rfl
    · refine roundDouble_of_multiple (m := 2 ^ 52) ?_ hbound
      rw [lastPlace_two_pow (by norm_num)]
      norm_num
    · refine roundDouble_of_multiple (m := -2 ^ 52) ?_ hbound
      rw [lastPlace_two_pow (by norm_num)]
      norm_num

/-- The first integer that is not a double. -/
theorem roundDouble_two_pow_add_one : roundDouble (2 ^ 53 + 1) = .finite (2 ^ 53) := by
  have hplace : lastPlace (2 ^ 53 + 1) = 1 := by
    have hlog : Int.log 2 |(2 : ℚ) ^ 53 + 1| = 53 := by
      rw [abs_of_pos (by positivity)]
      have hle : ((2 : ℕ) : ℚ) ^ (53 : ℤ) ≤ 2 ^ 53 + 1 := by norm_num
      have hlt : (2 : ℚ) ^ 53 + 1 < ((2 : ℕ) : ℚ) ^ (54 : ℤ) := by norm_num
      have h1 := (Int.zpow_le_iff_le_log one_lt_two (by positivity)).mp hle
      have h2 := (Int.lt_zpow_iff_log_lt one_lt_two (by positivity)).mp hlt
      omega
    unfold lastPlace
    omega
  have hhalf : roundHalfEven ((2 ^ 53 + 1) / 2) = 2 ^ 52 := by
    have hfloor : ⌊((2 : ℚ) ^ 53 + 1) / 2⌋ = 2 ^ 52 := by
      rw [Int.floor_eq_iff]
      norm_num
    unfold roundHalfEven
    rw [hfloor]
    norm_num
  unfold roundDouble
  rw [hplace, zpow_one, hhalf]
  have hvalue : ((2 ^ 52 : ℤ) : ℚ) * 2 = 2 ^ 53 := by norm_num
  rw [hvalue]
  exact if_pos (by
    rw [abs_of_pos (by positivity)]
    exact pow_lt_pow_right₀ one_lt_two (by norm_num))

/-- Rounding goes no further down than the floor. -/
theorem floor_le_roundHalfEven (q : ℚ) : ⌊q⌋ ≤ roundHalfEven q := by
  unfold roundHalfEven
  dsimp only
  split_ifs <;> omega

/-- A number beyond the integers that all are doubles does not become one of them. -/
theorem two_pow_le_of_roundDouble {q r : ℚ} (hq : 2 ^ 53 ≤ q) (h : roundDouble q = .finite r) :
    2 ^ 53 ≤ r := by
  have hpos : 0 < q := lt_of_lt_of_le (by norm_num) hq
  have hlog : 53 ≤ Int.log 2 |q| := by
    refine (Int.zpow_le_iff_le_log one_lt_two (abs_pos.mpr hpos.ne')).mp ?_
    rw [abs_of_pos hpos]
    exact_mod_cast hq
  have hplace : lastPlace q = Int.log 2 |q| - 52 := max_eq_left (by omega)
  have hone : (2 : ℚ) ≤ 2 ^ lastPlace q := by
    calc (2 : ℚ) = 2 ^ (1 : ℤ) := (zpow_one 2).symm
      _ ≤ 2 ^ lastPlace q := zpow_le_zpow_right₀ one_le_two (by omega)
  have hscaled : (2 : ℚ) ^ (52 : ℤ) ≤ q / 2 ^ lastPlace q := by
    rw [le_div_iff₀ (zpow_pos two_pos _), ← zpow_add₀ two_ne_zero, hplace]
    have hle : ((2 : ℕ) : ℚ) ^ Int.log 2 |q| ≤ |q| :=
      Int.zpow_log_le_self one_lt_two (abs_pos.mpr hpos.ne')
    rw [abs_of_pos hpos] at hle ⊢
    rw [show (52 : ℤ) + (Int.log 2 q - 52) = Int.log 2 q by omega]
    exact_mod_cast hle
  have hround : (2 ^ 52 : ℤ) ≤ roundHalfEven (q / 2 ^ lastPlace q) :=
    (Int.le_floor.mpr (by exact_mod_cast hscaled)).trans (floor_le_roundHalfEven _)
  unfold roundDouble at h
  dsimp only at h
  split_ifs at h
  rw [← JsNumber.finite.inj h]
  calc (2 : ℚ) ^ 53 = (2 ^ 52 : ℤ) * 2 := by norm_num
    _ ≤ roundHalfEven (q / 2 ^ lastPlace q) * 2 ^ lastPlace q := by gcongr

/-- Rounding moves by half at most. -/
theorem abs_roundHalfEven_sub_le (q : ℚ) : |(roundHalfEven q : ℚ) - q| ≤ 1 / 2 := by
  have hle := Int.floor_le q
  have hlt := Int.lt_floor_add_one q
  unfold roundHalfEven
  dsimp only
  rw [abs_le]
  split_ifs with hlow hhigh
  · constructor <;> linarith
  · push_cast
    constructor <;> linarith
  · have hhalf : q - ⌊q⌋ = 1 / 2 := le_antisymm (not_lt.mp hhigh) (not_lt.mp hlow)
    rcases Int.emod_two_eq_zero_or_one ⌊q⌋ with heven | hodd
    · rw [heven]
      constructor <;> norm_num <;> linarith
    · rw [hodd]
      push_cast
      constructor <;> linarith

/-- The doubles below `2^43` are at most `2^(-10)` apart. -/
theorem lastPlace_le {q : ℚ} (hq : |q| < 2 ^ 43) : lastPlace q ≤ -10 := by
  have hlog : Int.log 2 |q| ≤ 42 := by
    rcases eq_or_ne q 0 with rfl | hne
    · simp [Int.log]
    · have hlt : |q| < (2 : ℕ) ^ (43 : ℤ) := by exact_mod_cast hq
      have := (Int.lt_zpow_iff_log_lt (by norm_num) (abs_pos.mpr hne)).mp hlt
      omega
  unfold lastPlace
  omega

/-- Rounding moves a number below `2^43` by at most half a last place, and over no integer. -/
theorem exists_roundDouble {q : ℚ} (hq : |q| < 2 ^ 43) :
    ∃ r, roundDouble q = .finite r ∧ (⌊q⌋ : ℚ) ≤ r ∧ r ≤ q + 1 / 2 ^ 11 := by
  have hplace := lastPlace_le hq
  have hpos : (0 : ℚ) < 2 ^ lastPlace q := zpow_pos two_pos _
  have hsmall : (2 : ℚ) ^ lastPlace q ≤ 1 / 2 ^ 10 := by
    calc (2 : ℚ) ^ lastPlace q ≤ 2 ^ (-10 : ℤ) := zpow_le_zpow_right₀ one_le_two hplace
      _ = 1 / 2 ^ 10 := by norm_num
  have herror := abs_le.mp (abs_roundHalfEven_sub_le (q / 2 ^ lastPlace q))
  have hscale : q / 2 ^ lastPlace q * 2 ^ lastPlace q = q := div_mul_cancel₀ _ hpos.ne'
  have hlower : q - 1 / 2 ^ 11 ≤ roundHalfEven (q / 2 ^ lastPlace q) * 2 ^ lastPlace q := by
    have := mul_le_mul_of_nonneg_right herror.1 hpos.le
    linarith
  have hupper : roundHalfEven (q / 2 ^ lastPlace q) * 2 ^ lastPlace q ≤ q + 1 / 2 ^ 11 := by
    have := mul_le_mul_of_nonneg_right herror.2 hpos.le
    linarith
  refine ⟨_, if_pos ?_, ?_, hupper⟩
  · have hbounds := abs_lt.mp hq
    have habs : |roundHalfEven (q / 2 ^ lastPlace q) * (2 : ℚ) ^ lastPlace q| < 2 ^ 44 :=
      abs_lt.mpr ⟨by linarith, by linarith⟩
    exact habs.trans (pow_lt_pow_right₀ one_lt_two (by norm_num))
  · -- an integer is a multiple of the last place
    obtain ⟨n, hn⟩ := Int.eq_ofNat_of_zero_le (show 0 ≤ -lastPlace q by omega)
    have hn' : lastPlace q = -(n : ℤ) := by omega
    have hinteger : ((⌊q⌋ * 2 ^ n : ℤ) : ℚ) = ⌊q⌋ / 2 ^ lastPlace q := by
      rw [hn', zpow_neg, zpow_natCast, div_inv_eq_mul]
      push_cast
      rfl
    have hfloor : ⌊q⌋ * 2 ^ n ≤ ⌊q / 2 ^ lastPlace q⌋ := by
      rw [Int.le_floor, hinteger]
      exact div_le_div_of_nonneg_right (Int.floor_le q) hpos.le
    have hround : ((⌊q⌋ * 2 ^ n : ℤ) : ℚ) ≤ roundHalfEven (q / 2 ^ lastPlace q) := by
      exact_mod_cast hfloor.trans (floor_le_roundHalfEven _)
    rw [hinteger, div_le_iff₀ hpos] at hround
    exact hround

/-- Rounding leaves at least half of a number from 1 on. -/
theorem half_le_of_roundDouble {q r : ℚ} (hq : 1 ≤ q) (h : roundDouble q = .finite r) :
    q / 2 ≤ r := by
  have hpos : 0 < q := lt_of_lt_of_le one_pos hq
  have hlog : 0 ≤ Int.log 2 |q| := by
    rw [abs_of_pos hpos]
    exact (Int.zpow_le_iff_le_log one_lt_two hpos).mp (by simpa using hq)
  have hplace : lastPlace q = Int.log 2 |q| - 52 := max_eq_left (by omega)
  have hscale : 0 < (2 : ℚ) ^ lastPlace q := zpow_pos two_pos _
  have hulp : (2 : ℚ) ^ lastPlace q ≤ q := by
    calc (2 : ℚ) ^ lastPlace q ≤ 2 ^ Int.log 2 |q| := zpow_le_zpow_right₀ one_le_two (by omega)
      _ ≤ |q| := by exact_mod_cast Int.zpow_log_le_self one_lt_two (abs_pos.mpr hpos.ne')
      _ = q := abs_of_pos hpos
  have herror := (abs_le.mp (abs_roundHalfEven_sub_le (q / 2 ^ lastPlace q))).1
  have hmul := mul_le_mul_of_nonneg_right herror hscale.le
  rw [sub_mul, div_mul_cancel₀ _ hscale.ne'] at hmul
  unfold roundDouble at h
  dsimp only at h
  split_ifs at h
  rw [← JsNumber.finite.inj h]
  linarith

/-! ## Conversions -/

/-- `Number(z)` of a bigint. -/
def ofBigInt (z : ℤ) : JsNumber := roundDouble z

/-- The bigint is a double. -/
def Represents (z : ℤ) : Prop := ofBigInt z = .finite z

instance (z : ℤ) : Decidable (Represents z) := inferInstanceAs (Decidable (_ = _))

/-- Up to `2^53` every integer is a double. -/
theorem represents_of_abs_le {z : ℤ} (hz : |z| ≤ 2 ^ 53) : Represents z :=
  roundDouble_intCast hz

/-- The white space and line terminators that the conversion of a string skips. -/
def isSpace (c : Char) : Bool :=
  c.toNat ∈ [9, 10, 11, 12, 13, 32, 0xa0, 0x1680, 0x2028, 0x2029, 0x202f, 0x205f, 0x3000, 0xfeff] ||
    (0x2000 ≤ c.toNat && c.toNat ≤ 0x200a)

/-- The value of a digit in a base of at most 36. -/
def digitValue (base : ℕ) (c : Char) : Option ℕ :=
  let v := if c.isDigit then c.toNat - 48
    else if c.isLower then c.toNat - 87
    else if c.isUpper then c.toNat - 55
    else base
  if v < base then some v else none

/-- The value of a non-empty string of digits, most significant first. -/
def digitsValue (base : ℕ) (cs : List Char) : Option ℕ :=
  if cs = [] then none
  else cs.foldlM (fun n c => (digitValue base c).map fun d => base * n + d) 0

/-- An exponent part: digits, with an optional sign. -/
def exponentValue : List Char → Option ℤ
  | '-' :: cs => (digitsValue 10 cs).map fun n => -(n : ℤ)
  | '+' :: cs => (digitsValue 10 cs).map fun n => (n : ℤ)
  | cs => (digitsValue 10 cs).map fun n => (n : ℤ)

/-- An unsigned decimal literal: digits, a fraction and an exponent, each optional, with at
least one digit before the exponent. -/
def decimalValue (cs : List Char) : Option ℚ := do
  let whole := cs.takeWhile Char.isDigit
  let rest := cs.dropWhile Char.isDigit
  let (fraction, rest) := match rest with
    | '.' :: tail => (tail.takeWhile Char.isDigit, tail.dropWhile Char.isDigit)
    | _ => ([], rest)
  let mantissa ← digitsValue 10 (whole ++ fraction)
  let exponent ← match rest with
    | [] => some 0
    | c :: tail => if c = 'e' ∨ c = 'E' then exponentValue tail else none
  return mantissa * 10 ^ (exponent - fraction.length)

/-- A signed decimal literal, or a signed `Infinity`. -/
def signedLiteral (negative : Bool) (cs : List Char) : JsNumber :=
  if cs = "Infinity".toList then .infinity negative
  else match decimalValue cs with
    | some q => roundDouble (if negative then -q else q)
    | none => .nan

/-- An integer literal in another base. -/
def radixLiteral (base : ℕ) (cs : List Char) : JsNumber :=
  match digitsValue base cs with
  | some n => roundDouble n
  | none => .nan

/-- `Number(s)` of a string. -/
def ofString (s : List Char) : JsNumber :=
  let trimmed := ((s.dropWhile isSpace).reverse.dropWhile isSpace).reverse
  match trimmed with
  | [] => .finite 0
  | '0' :: c :: rest =>
      if c = 'x' ∨ c = 'X' then radixLiteral 16 rest
      else if c = 'o' ∨ c = 'O' then radixLiteral 8 rest
      else if c = 'b' ∨ c = 'B' then radixLiteral 2 rest
      else signedLiteral false trimmed
  | '-' :: rest => signedLiteral true rest
  | '+' :: rest => signedLiteral false rest
  | _ => signedLiteral false trimmed

/-- A literal with an optional sign. -/
def decimalLiteral : List Char → JsNumber
  | '-' :: rest => signedLiteral true rest
  | '+' :: rest => signedLiteral false rest
  | cs => signedLiteral false cs

/-- `parseFloat(s)` : the longest prefix that is a decimal literal. -/
def parseFloat (s : List Char) : JsNumber :=
  (((s.dropWhile isSpace).inits.reverse.map decimalLiteral).find? fun x => x ≠ .nan).getD .nan

/-! ## Decimal texts -/

section Decimal

variable {cs : List Char}

/-- A digit has its value. -/
theorem digitValue_of_isDigit {c : Char} (h : c.isDigit = true) :
    digitValue 10 c = some (c.toNat - 48) := by
  have hrange : 48 ≤ c.toNat ∧ c.toNat ≤ 57 := by
    simpa [Char.isDigit, UInt32.le_iff_toNat_le] using h
  unfold digitValue
  rw [if_pos h]
  exact if_pos (by omega)

/-- A text of digits has the value that its digits spell. -/
theorem digitsValue_of_isDigit (hne : cs ≠ []) (h : ∀ c ∈ cs, c.isDigit = true) :
    digitsValue 10 cs = some (Nat.ofDigitChars 10 cs 0) := by
  have hfold : ∀ (l : List Char) (n : ℕ), (∀ c ∈ l, c.isDigit = true) →
      l.foldlM (fun n c => (digitValue 10 c).map fun d => 10 * n + d) n =
        some (Nat.ofDigitChars 10 l n) := by
    intro l
    induction l with
    | nil =>
        intro n _
        rfl
    | cons c l ih =>
        intro n hl
        rw [List.foldlM_cons, digitValue_of_isDigit (hl c List.mem_cons_self),
          Nat.ofDigitChars_cons]
        exact ih _ fun x hx => hl x (List.mem_cons_of_mem c hx)
  unfold digitsValue
  rw [if_neg hne]
  exact hfold cs 0 h

/-- A text of digits has the value they spell. -/
theorem decimalValue_of_isDigit (hne : cs ≠ []) (h : ∀ c ∈ cs, c.isDigit = true) :
    decimalValue cs = some (Nat.ofDigitChars 10 cs 0 : ℕ) := by
  have htake : cs.takeWhile Char.isDigit = cs := List.takeWhile_eq_self_iff.mpr h
  have hdrop : cs.dropWhile Char.isDigit = [] := List.dropWhile_eq_nil_iff.mpr h
  unfold decimalValue
  rw [htake, hdrop]
  simp [digitsValue_of_isDigit hne h]

/-- A digit is no space. -/
theorem isSpace_of_isDigit {c : Char} (h : c.isDigit = true) : isSpace c = false := by
  have hrange : 48 ≤ c.toNat ∧ c.toNat ≤ 57 := by
    simpa [Char.isDigit, UInt32.le_iff_toNat_le] using h
  simp [isSpace]
  omega

/-- There is no space to skip before digits. -/
theorem dropWhile_isSpace_of_isDigit {l : List Char} (h : ∀ c ∈ l, c.isDigit = true) :
    l.dropWhile isSpace = l := by
  cases l with
  | nil => rfl
  | cons c l =>
      rw [List.dropWhile_cons_of_neg]
      rw [isSpace_of_isDigit (h c List.mem_cons_self)]
      decide

/-- The conversion of a text of digits. -/
theorem ofString_of_isDigit (hne : cs ≠ []) (h : ∀ c ∈ cs, c.isDigit = true) :
    ofString cs = roundDouble (Nat.ofDigitChars 10 cs 0 : ℕ) := by
  have hsigned : signedLiteral false cs = roundDouble (Nat.ofDigitChars 10 cs 0 : ℕ) := by
    unfold signedLiteral
    rw [if_neg, decimalValue_of_isDigit hne h]
    · rfl
    · rintro rfl
      exact absurd (h 'I' (by decide)) (by decide)
  have htrim : ((cs.dropWhile isSpace).reverse.dropWhile isSpace).reverse = cs := by
    rw [dropWhile_isSpace_of_isDigit h,
      dropWhile_isSpace_of_isDigit fun c hc => h c (List.mem_reverse.mp hc), List.reverse_reverse]
  unfold ofString
  rw [htrim]
  dsimp only
  split
  case h_1 => exact absurd rfl hne
  case h_2 c rest =>
    have hdigit : c.isDigit = true := h c (by simp)
    have hletter : ∀ x : Char, x.isDigit = false → c ≠ x := by
      rintro x hx rfl
      rw [hx] at hdigit
      cases hdigit
    simp only [hletter _ (show 'x'.isDigit = false by decide),
      hletter _ (show 'X'.isDigit = false by decide),
      hletter _ (show 'o'.isDigit = false by decide),
      hletter _ (show 'O'.isDigit = false by decide),
      hletter _ (show 'b'.isDigit = false by decide),
      hletter _ (show 'B'.isDigit = false by decide), or_self, if_false]
    exact hsigned
  case h_3 => exact absurd (h '-' (by simp)) (by decide)
  case h_4 => exact absurd (h '+' (by simp)) (by decide)
  case h_5 => exact hsigned

/-- `Number(String(n))` of a natural number rounds it. -/
theorem ofString_toString (n : ℕ) : ofString (toString n).toList = roundDouble (n : ℕ) := by
  have htext : (toString n).toList = Nat.toDigits 10 n := Nat.toList_repr
  rw [htext, ofString_of_isDigit Nat.toDigits_ne_nil
    fun c hc => Nat.isDigit_of_mem_toDigits (by decide) (by decide) hc,
    Nat.ofDigitChars_ten_toDigits]

end Decimal

/-! ## Arithmetic -/

/-- `x + y` -/
def add : JsNumber → JsNumber → JsNumber
  | .finite p, .finite q => roundDouble (p + q)
  | .nan, _ => .nan
  | _, .nan => .nan
  | .infinity a, .infinity b => if a = b then .infinity a else .nan
  | .infinity a, .finite _ => .infinity a
  | .finite _, .infinity b => .infinity b

/-- `x >= y`, false when a side is `NaN`. -/
def ge : JsNumber → JsNumber → Bool
  | .nan, _ => false
  | _, .nan => false
  | .finite p, .finite q => q ≤ p
  | .infinity a, .infinity b => !a || b
  | .infinity a, .finite _ => !a
  | .finite _, .infinity b => b

/-- `-x` -/
def neg : JsNumber → JsNumber
  | .nan => .nan
  | .infinity a => .infinity !a
  | .finite q => .finite (-q)

/-- `x - y` -/
def sub (x y : JsNumber) : JsNumber := x.add y.neg

/-- `x * y` -/
def mul : JsNumber → JsNumber → JsNumber
  | .finite p, .finite q => roundDouble (p * q)
  | .nan, _ => .nan
  | _, .nan => .nan
  | .infinity a, .infinity b => .infinity (a != b)
  | .infinity a, .finite q => if q = 0 then .nan else .infinity (a != decide (q < 0))
  | .finite p, .infinity b => if p = 0 then .nan else .infinity (b != decide (p < 0))

/-- `x > y`, false when a side is `NaN`. -/
def gt : JsNumber → JsNumber → Bool
  | .nan, _ => false
  | _, .nan => false
  | x, y => !y.ge x

/-- Numbers are compared by their values. -/
@[simp] theorem gt_finite (p q : ℚ) : (finite p).gt (.finite q) = decide (q < p) := by
  simp [gt, ge, ← not_le]

/-- Equal numbers are compared so, too. -/
@[simp] theorem ge_finite (p q : ℚ) : (finite p).ge (.finite q) = decide (q ≤ p) := rfl

/-- `Math.floor(x)` -/
def floor : JsNumber → JsNumber
  | .finite q => .finite ⌊q⌋
  | x => x

/-- The whole seconds of a time in milliseconds, within the range of a `Date`. -/
theorem floor_roundDouble_div {t : ℤ} (ht : |t| ≤ 8640000000000000) :
    (roundDouble (t / 1000)).floor = .finite ((t / 1000 : ℤ) : ℚ) := by
  have hbound : |(t : ℚ) / 1000| < 2 ^ 43 := by
    have hcast : |(t : ℚ)| ≤ 8640000000000000 := by exact_mod_cast ht
    rw [abs_div, abs_of_pos (by norm_num : (0 : ℚ) < 1000)]
    calc |(t : ℚ)| / 1000 ≤ 8640000000000000 / 1000 := by gcongr
      _ < 2 ^ 43 := by norm_num
  have hfloor : ⌊(t : ℚ) / 1000⌋ = t / 1000 := by
    exact_mod_cast Rat.floor_intCast_div_natCast t 1000
  obtain ⟨r, hround, hlower, hupper⟩ := exists_roundDouble hbound
  rw [hround]
  show finite ⌊r⌋ = _
  rw [hfloor] at hlower
  -- the next whole second is a millisecond away
  have hnext : (t : ℚ) / 1000 + 1 / 1000 ≤ (t / 1000 : ℤ) + 1 := by
    have hint : t + 1 ≤ (t / 1000 + 1) * 1000 := by omega
    have hcast : ((t + 1 : ℤ) : ℚ) ≤ (((t / 1000 + 1) * 1000 : ℤ) : ℚ) := by exact_mod_cast hint
    push_cast at hcast
    linarith
  have hr : ⌊r⌋ = t / 1000 := Int.floor_eq_iff.mpr ⟨hlower, by linarith⟩
  rw [hr]

/-- `n + 1` of an integer that is a double. -/
def succ (n : ℕ) : ℕ :=
  match roundDouble ((n : ℚ) + 1) with
  | .finite q => q.num.toNat
  | _ => n

/-- Below `2^53` the next integer is exact. -/
theorem succ_of_lt {n : ℕ} (hn : n < 2 ^ 53) : succ n = n + 1 := by
  have habs : |((n + 1 : ℕ) : ℤ)| ≤ 2 ^ 53 := by
    rw [abs_of_nonneg (Int.natCast_nonneg _)]
    omega
  have hround := roundDouble_intCast habs
  unfold succ
  rw [show ((n : ℚ) + 1) = (((n + 1 : ℕ) : ℤ) : ℚ) by push_cast; rfl, hround]
  show ((((n + 1 : ℕ) : ℤ) : ℚ).num).toNat = n + 1
  rw [Rat.num_intCast]
  exact Int.toNat_natCast (n + 1)

/-- Adding one to `2^53` changes nothing. -/
theorem succ_two_pow : succ (2 ^ 53) = 2 ^ 53 := by
  have hround : roundDouble (((2 ^ 53 : ℕ) : ℚ) + 1) = .finite (2 ^ 53) := by
    push_cast
    exact roundDouble_two_pow_add_one
  unfold succ
  rw [hround]
  rfl

end JsNumber
