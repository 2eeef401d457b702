/-
# The list endpoints

`getCredits`, `getListings` and `getRecords` read one page of a table and count its rows.  The two
queries of a request are sent together (`Promise.all`), so that a response may show the table at
two moments (`ListQuery.Responds`).

A client that turns the pages until the last one sees every row that was there when it started,
if no row that it looks for disappears meanwhile and the last count is not older than the last
page; over a table that does not change it sees the rows once each, in their order.  Both hold of
all three endpoints (`listings_complete`).
-/
import CarbonVeritas.Mirror
import CarbonVeritas.ScVal
import CarbonVeritas.TableQueries
import CarbonVeritas.UtcCalendar

namespace CarbonVeritas

open TableQueries

/-! ## Pages of a table -/

/-- `orderBy`, by a column of numbers. -/
inductive SortOrder where
  | asc
  | desc
  deriving DecidableEq, Repr

/-- What a list endpoint asks the database for; `page` counts from one. -/
structure ListQuery (Row : Type) where
  selects : Row → Bool
  key : Row → ℤ
  order : SortOrder
  page : ℕ
  limit : ℕ

structure ListMeta where
  total : ℕ
  page : ℕ
  limit : ℕ
  totalPages : ℕ
  deriving DecidableEq, Repr

structure ListResponse (Row : Type) where
  data : List Row
  info : ListMeta

namespace ListQuery

variable {Row : Type} (q : ListQuery Row)

def skip : ℕ := (q.page - 1) * q.limit

def before : Row → Row → Prop :=
  match q.order with
  | .asc => Ascending q.key
  | .desc => Descending q.key

/-- The query as another page asks it. -/
def atPage (page : ℕ) : ListQuery Row := { q with page := page }

/-- What an endpoint responds if `findMany` meets the rows `found` and `count` the rows
`counted`. -/
structure Responds (found counted : List Row) (response : ListResponse Row) : Prop where
  data : Answers q.before q.selects found q.skip q.limit response.data
  info : response.info =
    { total := (counted.filter q.selects).length
      page := q.page
      limit := q.limit
      totalPages := totalPages (counted.filter q.selects).length q.limit }

/-- A client reads the pages `1, …, m` of a table that changes in time, and stops when there are
no more by the last response. -/
structure Walks (table : ℕ → List Row) (found counted : ℕ → ℕ) (m : ℕ)
    (response : ℕ → ListResponse Row) : Prop where
  responds : ∀ i < m,
    (q.atPage (i + 1)).Responds (table (found i)) (table (counted i)) (response i)
  ordered : ∀ i, i + 1 < m → found i ≤ found (i + 1)
  started : 0 < m
  finished : (response (m - 1)).info.totalPages ≤ m

/-- The rows that are looked for have one place each at every moment. -/
def Unambiguous (table : ℕ → List Row) : Prop :=
  ∀ t, DistinctKeys q.key q.selects (table t)

/-- Rows that are looked for may change, but neither disappear nor move. -/
def Grows {ι : Type} (ident : Row → ι) (table : ℕ → List Row) : Prop :=
  ∀ s t, s ≤ t → ∀ a ∈ table s, q.selects a →
    ∃ b ∈ table t, q.selects b ∧ q.key b = q.key a ∧ ident b = ident a

/-- What a client sees that reads all pages. -/
structure Complete {ι : Type} (ident : Row → ι) : Prop where
  /-- nothing is missed while the table grows -/
  growing : ∀ table found counted m response, q.Walks table found counted m response →
    q.Unambiguous table → q.Grows ident table → found (m - 1) ≤ counted (m - 1) →
    ∀ a ∈ table (found 0), q.selects a → ∃ i < m, ∃ b ∈ (response i).data, ident b = ident a
  /-- a table that stays is shown as it is -/
  still : ∀ rows m response, q.Walks (fun _ => rows) (fun _ => 0) (fun _ => 0) m response →
    q.Unambiguous (fun _ => rows) →
    Selects q.before q.selects rows ((List.range m).map fun i => (response i).data).flatten ∧
      ∀ i < m, (response i).data.length ≤ q.limit ∧
        (response i).info.total = (rows.filter q.selects).length

/-! ### Every query is complete -/

variable {q}

/-- The column that the rows rise in. -/
def sortKey (q : ListQuery Row) (row : Row) : ℤ :=
  match q.order with
  | .asc => q.key row
  | .desc => -q.key row

/-- The order of a list is that of its sort key. -/
theorem before_eq : q.before = Ascending q.sortKey := by
  unfold before sortKey
  cases q.order with
  | asc => rfl
  | desc =>
      funext a b
      exact propext neg_le_neg_iff.symm

/-- Two rows tie in the order exactly when they have the same key, whatever its direction. -/
theorem sortKey_eq_iff {a b : Row} : q.sortKey a = q.sortKey b ↔ q.key a = q.key b := by
  unfold sortKey
  cases q.order with
  | asc => exact Iff.rfl
  | desc => exact neg_inj

/-- Rows with distinct keys have distinct sort keys. -/
theorem distinctKeys_sortKey {rows : List Row} (h : DistinctKeys q.key q.selects rows) :
    DistinctKeys q.sortKey q.selects rows := by
  unfold DistinctKeys at h ⊢
  rw [List.Nodup, List.pairwise_map] at h ⊢
  exact h.imp fun hne heq => hne (sortKey_eq_iff.mp heq)

/-- Rows with distinct keys are strictly ordered. -/
theorem strict_of_distinctKeys {rows : List Row} (h : DistinctKeys q.key q.selects rows) :
    Strict q.before q.selects rows := by
  rw [before_eq]
  refine (strict_of_injOn fun a ha b hb hpa hpb hkey => ?_).1
  exact List.inj_on_of_nodup_map (distinctKeys_sortKey h) (List.mem_filter.mpr ⟨ha, hpa⟩)
    (List.mem_filter.mpr ⟨hb, hpb⟩) hkey

/-- A page of the walk, from the rows that stand before it. -/
theorem Walks.answers {table : ℕ → List Row} {found counted : ℕ → ℕ} {m : ℕ}
    {response : ℕ → ListResponse Row} (h : q.Walks table found counted m response) {i : ℕ}
    (hi : i < m) :
    Answers q.before q.selects (table (found i)) (i * q.limit) q.limit (response i).data :=
  (h.responds i hi).data

/-- The pages that were read hold all rows that were counted at the end. -/
theorem Walks.counted_le {table : ℕ → List Row} {found counted : ℕ → ℕ} {m : ℕ}
    {response : ℕ → ListResponse Row} (h : q.Walks table found counted m response)
    (hlimit : 0 < q.limit) :
    ((table (counted (m - 1))).filter q.selects).length ≤ m * q.limit := by
  have hpages := h.finished
  rw [(h.responds (m - 1) (Nat.sub_lt h.started Nat.one_pos)).info] at hpages
  exact (le_totalPages_mul _ hlimit).trans (Nat.mul_le_mul_right _ hpages)

/-- A query with a positive limit misses none of its rows. -/
theorem complete {ι : Type} (ident : Row → ι) (hlimit : 0 < q.limit) : q.Complete ident where
  growing table found counted m response h hkeys hgrows hcounted a ha hp := by
    have hm := h.started
    refine exists_answer_of_grows q.limit
      (fun i hi => by
        have hanswers := h.answers hi
        rwa [before_eq] at hanswers)
      (fun i _ => distinctKeys_sortKey (hkeys _)) (fun i hi b hb hpb => ?_) hm ?_ ha hp
    · obtain ⟨b', hb', hpb', hkey, hident⟩ := hgrows _ _ (h.ordered i hi) b hb hpb
      exact ⟨b', hb', hpb', sortKey_eq_iff.mpr hkey, hident⟩
    · -- what the last page was cut from had been there when its rows were counted
      refine (length_filter_le (hkeys _) fun b hb hpb => ?_).trans (h.counted_le hlimit)
      obtain ⟨b', hb', hpb', hkey, -⟩ := hgrows _ _ hcounted b hb hpb
      exact ⟨b', hb', hpb', hkey⟩
  still rows m response h hkeys := by
    obtain ⟨sorted, hsorted⟩ : ∃ sorted, Selects (Ascending q.sortKey) q.selects rows sorted :=
      exists_selects q.selects rows
    rw [← before_eq] at hsorted
    have hcover : ((List.range m).map fun i => (response i).data).flatten = sorted :=
      pages_cover (strict_of_distinctKeys (hkeys 0)) (fun i hi => h.answers hi)
        (h.counted_le hlimit) hsorted
    rw [hcover]
    refine ⟨hsorted, fun i hi => ⟨?_, ?_⟩⟩
    · rw [(h.answers hi).length_eq]
      exact min_le_left _ _
    · exact congrArg ListMeta.total (h.responds i hi).info

end ListQuery

/-! ## The rows -/

/-- A row of `Credit`, with the numbers of its approvals and offers. -/
structure ListedCredit extends CreditRow where
  creditId : ℤ
  createdAt : ℤ
  approvals : ℕ
  offers : ℕ

/-- A row of `Offer`, with its credit and the number of its trades. -/
structure ListedOffer extends OfferRow where
  offerId : ℤ
  createdAt : ℤ
  credit : CreditRow
  trades : ℕ

/-- A row of `BridgeRecord`. -/
structure ListedRecord extends BridgeRow where
  timestamp : ℤ

/-! ## The filters -/

/-- `@Min(1)` -/
abbrev PageNumber := { n : ℕ // 1 ≤ n }

/-- `@Min(1) @Max(100)` -/
abbrev PageSize := { n : ℕ // 1 ≤ n ∧ n ≤ 100 }

structure CreditFilterDto where
  methodology : Option String := none
  geography : Option String := none
  vintageMin : Option ℤ := none
  vintageMax : Option ℤ := none
  status : Option String := none
  issuer : Option String := none
  owner : Option String := none
  page : Option PageNumber := none
  limit : Option PageSize := none
  sort : Option String := none

structure MarketplaceFilterDto where
  methodology : Option String := none
  geography : Option String := none
  maxPrice : Option ℤ := none
  status : Option String := none
  page : Option PageNumber := none
  limit : Option PageSize := none

structure BridgeFilterDto where
  registry : Option String := none
  status : Option BridgeStatus := none
  page : Option PageNumber := none
  limit : Option PageSize := none

/-- What the endpoints take from the engine and the database. -/
structure ListHost where
  engine : JsEngine
  /-- `toUpperCase` -/
  toUpperCase : String → String
  /-- `{ contains, mode: 'insensitive' }` -/
  containsInsensitive : String → String → Bool
  /-- `new Date(text)` for a text in no standard format -/
  parseOther : String → Option ℤ

/-- `filters.page ?? 1` -/
def pageOf (page : Option PageNumber) : ℕ := (page.map Subtype.val).getD 1

/-- `filters.limit ?? 20` -/
def limitOf (limit : Option PageSize) : ℕ := (limit.map Subtype.val).getD 20

/-- The limit of a page is positive, whatever the request says. -/
theorem limitOf_pos (limit : Option PageSize) : 0 < limitOf limit := by
  cases limit with
  | none => decide
  | some limit => exact limit.2.1

/-- A text that is given and not empty. -/
def givenText (text : Option String) : Option String := text.filter fun text => text ≠ ""

/-- A number that is given and not zero. -/
def givenNumber (n : Option ℤ) : Option ℤ := n.filter fun n => n ≠ 0

def CreditStatus.ofName : String → Option CreditStatus
  | "PENDING" => some .pending
  | "ACTIVE" => some .active
  | "RETIRED" => some .retired
  | "REJECTED" => some .rejected
  | "BRIDGED" => some .bridged
  | _ => none

def OfferStatus.ofName : String → Option OfferStatus
  | "ACTIVE" => some .active
  | "FILLED" => some .filled
  | "CANCELLED" => some .cancelled
  | "EXPIRED" => some .expired
  | _ => none

variable (host : ListHost)

/-- `new Date(`${year}${rest}`)`, if the year is given.  The database refuses an invalid date. -/
def yearBorder (year : Option ℤ) (rest : String) : Option (Option ℤ) :=
  match givenNumber year with
  | none => some none
  | some year =>
      (JsDate.parseDate host.parseOther
        (JsValue.numberText host.engine (.finite year) ++ rest)).map some

namespace CreditsService

def orderBy (sort : Option String) : (ListedCredit → ℤ) × SortOrder :=
  match sort with
  | some "created_asc" => (ListedCredit.createdAt, .asc)
  | some "vintage_asc" => (fun row => row.vintageStart, .asc)
  | _ => (ListedCredit.createdAt, .desc)

/-- The status in capitals, if it is given.  The database refuses a text that names none. -/
def givenStatus (status : Option String) : Option (Option CreditStatus) :=
  match givenText status with
  | none => some none
  | some status => (CreditStatus.ofName (host.toUpperCase status)).map some

/-- The query with the borders of the vintages and the status. -/
def creditsQuery (filters : CreditFilterDto) (gte lte : Option ℤ) (status : Option CreditStatus) :
    ListQuery ListedCredit where
  selects row :=
    (∀ m ∈ givenText filters.methodology, host.containsInsensitive row.methodology m) ∧
    (∀ g ∈ givenText filters.geography, row.geography = host.toUpperCase g) ∧
    (∀ t ∈ gte, t ≤ row.vintageStart) ∧ (∀ t ∈ lte, row.vintageStart ≤ t) ∧
    (∀ s ∈ status, row.status = s) ∧
    (∀ a ∈ givenText filters.issuer, row.issuer = a) ∧
    ∀ a ∈ givenText filters.owner, row.owner = a
  key := (orderBy filters.sort).1
  order := (orderBy filters.sort).2
  page := pageOf filters.page
  limit := limitOf filters.limit

/-- The query of `getCredits`, which the database may refuse. -/
def getCredits (filters : CreditFilterDto) : Option (ListQuery ListedCredit) := do
  let gte ← yearBorder host filters.vintageMin "-01-01"
  let lte ← yearBorder host filters.vintageMax "-12-31"
  let status ← givenStatus host filters.status
  return creditsQuery host filters gte lte status

/-- The query of a credit list, when its borders are dates and its status is one. -/
theorem getCredits_eq_some {host : ListHost} {filters : CreditFilterDto}
    {q : ListQuery ListedCredit} :
    getCredits host filters = some q ↔ ∃ gte lte status,
      yearBorder host filters.vintageMin "-01-01" = some gte ∧
      yearBorder host filters.vintageMax "-12-31" = some lte ∧
      givenStatus host filters.status = some status ∧
      q = creditsQuery host filters gte lte status := by
  simp only [getCredits, Option.bind_eq_bind, Option.bind_eq_some_iff, Option.pure_def,
    Option.some.injEq, exists_and_left]
  constructor
  · rintro ⟨gte, hgte, lte, hlte, status, hstatus, rfl⟩
    exact ⟨gte, hgte, lte, hlte, status, hstatus, rfl⟩
  · rintro ⟨gte, hgte, lte, hlte, status, hstatus, rfl⟩
    exact ⟨gte, hgte, lte, hlte, status, hstatus, rfl⟩

end CreditsService

namespace MarketplaceService

/-- The query of `getListings`, which the database may refuse. -/
def getListings (filters : MarketplaceFilterDto) : Option (ListQuery ListedOffer) := do
  let status ← OfferStatus.ofName (filters.status.getD "ACTIVE")
  return {
    selects := fun row =>
      row.status = status ∧
      (∀ m ∈ givenText filters.methodology, host.containsInsensitive row.credit.methodology m) ∧
      (∀ g ∈ givenText filters.geography, row.credit.geography = host.toUpperCase g) ∧
      ∀ x ∈ givenNumber filters.maxPrice, row.pricePerTonne ≤ x
    key := ListedOffer.createdAt
    order := .desc
    page := pageOf filters.page
    limit := limitOf filters.limit }

end MarketplaceService

namespace BridgeService

/-- The query of `getRecords`. -/
def getRecords (filters : BridgeFilterDto) : ListQuery ListedRecord where
  selects row :=
    (∀ r ∈ givenText filters.registry, row.sourceRegistry = host.toUpperCase r) ∧
    ∀ s ∈ filters.status, row.status = s
  key := ListedRecord.timestamp
  order := .desc
  page := pageOf filters.page
  limit := limitOf filters.limit

end BridgeService

/-! ## Years -/

/-- The first millisecond of the last day of a year. -/
def lastDay (y : ℤ) : ℤ := JsDate.timeFromYear (y + 1) - JsDate.msPerDay

/-- The text of a year starts with its digits. -/
theorem toList_yearText (y : ℕ) (rest : String) :
    (toString y ++ rest).toList = Nat.toDigits 10 y ++ rest.toList := by
  rw [String.toList_append]
  show y.repr.toList ++ _ = _
  rw [Nat.toList_repr]

/-- A year of four digits is parsed as its first day. -/
theorem dateParts_year {y : ℕ} (hlow : 1000 ≤ y) (hhigh : y ≤ 9999) :
    JsDate.dateParts (toString y ++ "-01-01").toList =
        some { year := y, month := 1, day := 1, hour := 0, minute := 0, second := 0, ms := 0 } ∧
      JsDate.dateParts (toString y ++ "-12-31").toList = some
        { year := y, month := 12, day := 31, hour := 0, minute := 0, second := 0, ms := 0 } := by
  rw [toList_yearText, toList_yearText]
  unfold JsDate.dateParts
  rw [JsDate.yearDigits_toDigits hlow hhigh, JsDate.yearDigits_toDigits hlow hhigh]
  exact ⟨rfl, rfl⟩

/-- The first day of a year is where it begins. -/
theorem time_firstDay (y : ℤ) :
    JsDate.Parts.time
        { year := y, month := 1, day := 1, hour := 0, minute := 0, second := 0, ms := 0 } =
      JsDate.timeFromYear y := by
  show JsDate.msPerDay * (JsDate.dayFromYear y + 0 + 1 - 1) + 0 + 0 + 0 + 0 = _
  unfold JsDate.timeFromYear
  ring

/-- The last day of a year is its 365th, or its 366th. -/
theorem time_lastDay (y : ℤ) :
    JsDate.Parts.time
        { year := y, month := 12, day := 31, hour := 0, minute := 0, second := 0, ms := 0 } =
      lastDay y := by
  have hlength : JsDate.dayFromYear (y + 1) =
      JsDate.dayFromYear y + 365 + if JsDate.inLeapYear y then 1 else 0 := by
    unfold JsDate.inLeapYear
    by_cases hleap : JsDate.dayFromYear (y + 1) - JsDate.dayFromYear y = 366
    · simp only [hleap, decide_true, if_true]
      omega
    · simp only [hleap, decide_false, Bool.false_eq_true, if_false]
      unfold JsDate.dayFromYear at hleap ⊢
      omega
  show JsDate.msPerDay * (JsDate.dayFromYear y + (334 + if JsDate.inLeapYear y then 1 else 0) +
    31 - 1) + 0 + 0 + 0 + 0 = _
  unfold lastDay JsDate.timeFromYear
  rw [hlength]
  ring

/-- The last day of such a year is a date. -/
theorem timeClip_lastDay {y : ℤ} (hlow : 1000 ≤ y) (hhigh : y ≤ 9999) :
    JsDate.timeClip (lastDay y) = some (lastDay y) := by
  refine if_pos (abs_le.mpr ⟨?_, ?_⟩)
  · have hmono := JsDate.dayFromYear_mono (show (1000 : ℤ) ≤ y + 1 by omega)
    have hfirst : JsDate.dayFromYear 1000 = -354285 := by decide
    unfold lastDay JsDate.timeFromYear JsDate.msPerDay
    omega
  · have hmono := JsDate.dayFromYear_mono (show y + 1 ≤ 10000 by omega)
    have hlast : JsDate.dayFromYear 10000 = 2932897 := by decide
    unfold lastDay JsDate.timeFromYear JsDate.msPerDay
    omega

/-- The borders of the years that are written in four digits. -/
theorem yearBorder_eq {y : ℤ} (hlow : 1000 ≤ y) (hhigh : y ≤ 9999) :
    yearBorder host (some y) "-01-01" = some (some (JsDate.timeFromYear y)) ∧
      yearBorder host (some y) "-12-31" = some (some (lastDay y)) := by
  obtain ⟨n, rfl⟩ := Int.eq_ofNat_of_zero_le (show 0 ≤ y by omega)
  have hgiven : givenNumber (some (n : ℤ)) = some (n : ℤ) :=
    Option.filter_some_pos (decide_eq_true (by omega))
  have htext : JsValue.numberText host.engine (.finite ((n : ℤ) : ℚ)) = toString n := by
    have hsmall : ((n : ℤ) : ℚ).den = 1 ∧ ((n : ℤ) : ℚ).num.natAbs ≤ 2 ^ 53 := by
      refine ⟨Rat.den_intCast _, ?_⟩
      rw [Rat.num_intCast]
      omega
    refine (if_pos hsmall).trans ?_
    rw [Rat.num_intCast]
    rfl
  obtain ⟨hfirst, hlast⟩ := dateParts_year (show 1000 ≤ n by omega) (show n ≤ 9999 by omega)
  unfold yearBorder
  rw [hgiven]
  simp only [htext, JsDate.parseDate, hfirst, hlast]
  constructor
  · rw [if_pos (by simp [JsDate.Parts.InBounds]), time_firstDay,
      JsDate.timeClip_timeFromYear hlow hhigh]
    rfl
  · rw [if_pos (by simp [JsDate.Parts.InBounds]), time_lastDay, timeClip_lastDay hlow hhigh]
    rfl

/-- Between the borders lie the years asked for, without what follows the first instant of the last
day. -/
theorem between_borders_iff {first last t : ℤ} :
    JsDate.timeFromYear first ≤ t ∧ t ≤ lastDay last ↔
      first ≤ JsDate.yearFromTime t ∧ JsDate.yearFromTime t ≤ last ∧
        ¬ (lastDay last < t ∧ JsDate.yearFromTime t = last) := by
  obtain ⟨hbegun, hnot⟩ := JsDate.yearFromTime_eq_iff.mp (Eq.refl (JsDate.yearFromTime t))
  have hmono : ∀ {y z : ℤ}, y ≤ z → JsDate.timeFromYear y ≤ JsDate.timeFromYear z := fun h =>
    Int.mul_le_mul_of_nonneg_left (JsDate.dayFromYear_mono h) (by decide)
  have hfirst : JsDate.timeFromYear first ≤ t ↔ first ≤ JsDate.yearFromTime t := by
    constructor
    · intro hle
      by_contra hlt
      have := hmono (show JsDate.yearFromTime t + 1 ≤ first by omega)
      omega
    · exact fun hle => (hmono hle).trans hbegun
  have hlast : t < JsDate.timeFromYear (last + 1) ↔ JsDate.yearFromTime t ≤ last := by
    constructor
    · intro hlt
      by_contra hgt
      have := hmono (show last + 1 ≤ JsDate.yearFromTime t by omega)
      omega
    · exact fun hle => hnot.trans_le (hmono (by omega))
  have hday : JsDate.timeFromYear last ≤ lastDay last := by
    unfold lastDay JsDate.timeFromYear JsDate.msPerDay JsDate.dayFromYear
    omega
  have hborder : lastDay last < JsDate.timeFromYear (last + 1) := by
    unfold lastDay JsDate.msPerDay
    omega
  rw [hfirst, ← hlast]
  refine and_congr_right fun _ => ⟨fun hle => ⟨hle.trans_lt hborder, fun h => ?_⟩, ?_⟩
  · exact absurd h.1 (not_lt.mpr hle)
  · rintro ⟨hlt, hnotlast⟩
    by_contra hgt
    -- after the last day begins, the year is the last one or later
    have hyear : JsDate.yearFromTime t ≠ last := fun heq => hnotlast ⟨not_le.mp hgt, heq⟩
    have hle := hlast.mp hlt
    have := hmono (show JsDate.yearFromTime t + 1 ≤ last by omega)
    omega

/-- **Vintages.**  The years of a filter add exactly one condition: the vintage of a credit starts
in the first year or later, and in the last year or earlier, but not after midnight of its last
day. -/
theorem getCredits_vintage (host : ListHost) (filters : CreditFilterDto)
    {first last : ℤ} (hfirst : 1000 ≤ first ∧ first ≤ 9999) (hlast : 1000 ≤ last ∧ last ≤ 9999)
    {q : ListQuery ListedCredit}
    (hq : CreditsService.getCredits host
      { filters with vintageMin := none, vintageMax := none } = some q) :
    ∃ q', CreditsService.getCredits host
        { filters with vintageMin := some first, vintageMax := some last } = some q' ∧
      ∀ row, q'.selects row ↔ q.selects row ∧
        first ≤ JsDate.yearFromTime row.vintageStart ∧
        JsDate.yearFromTime row.vintageStart ≤ last ∧
        ¬ (lastDay last < row.vintageStart ∧ JsDate.yearFromTime row.vintageStart = last) := by
  obtain ⟨gte, lte, status, hgte, hlte, hstatus, rfl⟩ := CreditsService.getCredits_eq_some.mp hq
  -- without years there are no borders
  obtain rfl : none = gte := Option.some.inj hgte
  obtain rfl : none = lte := Option.some.inj hlte
  refine ⟨CreditsService.creditsQuery host filters (some (JsDate.timeFromYear first))
    (some (lastDay last)) status, ?_, fun row => ?_⟩
  · exact CreditsService.getCredits_eq_some.mpr ⟨_, _, status,
      (yearBorder_eq host hfirst.1 hfirst.2).1, (yearBorder_eq host hlast.1 hlast.2).2, hstatus,
      rfl⟩
  · rw [← between_borders_iff]
    simp only [CreditsService.creditsQuery, Option.mem_def, Option.some.injEq, forall_eq',
      reduceCtorEq, false_implies, implies_true, true_and, decide_eq_true_eq]
    tauto

namespace Sample

def listHost : ListHost where
  engine := asciiEngine
  toUpperCase := String.toUpper
  containsInsensitive text part := part.toLower.toList <:+: text.toLower.toList
  parseOther _ := none

end Sample

/-- The credits of the years from 2020 to 2024. -/
theorem getCredits_vintage_of_years :
    ∃ q', CreditsService.getCredits Sample.listHost
        { vintageMin := some 2020, vintageMax := some 2024 } = some q' ∧
      ∀ row, q'.selects row ↔
        (CreditsService.creditsQuery Sample.listHost {} none none none).selects row ∧
        2020 ≤ JsDate.yearFromTime row.vintageStart ∧
        JsDate.yearFromTime row.vintageStart ≤ 2024 ∧
        ¬ (lastDay 2024 < row.vintageStart ∧ JsDate.yearFromTime row.vintageStart = 2024) :=
  getCredits_vintage Sample.listHost {} (by decide) (by decide) rfl

/-! ## The main theorem -/

/-- **Listings.**  Whatever the filters, the credits, the offers and the bridge records are shown
completely to a client that reads all pages. -/
theorem listings_complete (host : ListHost) :
    (∀ filters q, CreditsService.getCredits host filters = some q →
      q.Complete ListedCredit.creditId) ∧
    (∀ filters q, MarketplaceService.getListings host filters = some q →
      q.Complete ListedOffer.offerId) ∧
    ∀ filters, (BridgeService.getRecords host filters).Complete fun row =>
      (row.sourceRegistry, row.sourceSerial) := by
  refine ⟨fun filters q hq => ?_, fun filters q hq => ?_, fun filters => ?_⟩
  · obtain ⟨gte, lte, status, -, -, -, rfl⟩ := CreditsService.getCredits_eq_some.mp hq
    exact ListQuery.complete _ (limitOf_pos _)
  · obtain ⟨status, -, hq⟩ := Option.bind_eq_some_iff.mp hq
    cases hq
    exact ListQuery.complete _ (limitOf_pos _)
  · exact ListQuery.complete _ (limitOf_pos _)

namespace Sample

def record (timestamp : ℤ) : ListedRecord where
  creditId := timestamp
  sourceRegistry := "VERRA"
  sourceSerial := toString timestamp
  merkleRoot := ""
  status := .inbound
  bridger := "user-1"
  txHash := ""
  timestamp := timestamp

/-- A third record is added after the first moment. -/
def records (t : ℕ) : List ListedRecord :=
  [record 10, record 20] ++ if t = 0 then [] else [record 30]

/-- Pages of one record. -/
def recordsQuery : ListQuery ListedRecord :=
  BridgeService.getRecords listHost { limit := some ⟨1, by decide⟩ }

/-- The first page is read before the third record is added.  The latest record comes first, so the
second page shows the record of the first again. -/
def recordsResponse (i : ℕ) : ListResponse ListedRecord where
  data := if i = 2 then [record 10] else [record 20]
  info :=
    { total := if i = 0 then 2 else 3
      page := i + 1
      limit := 1
      totalPages := if i = 0 then 2 else 3 }

/-- The first answer shows both records, latest first. -/
theorem selects_two : Selects recordsQuery.before recordsQuery.selects (records 0)
    [record 20, record 10] where
  perm := List.Perm.swap _ _ _
  sorted := by
    show List.Pairwise (Descending ListedRecord.timestamp) _
    decide

/-- The second answer shows all three. -/
theorem selects_three : Selects recordsQuery.before recordsQuery.selects (records 1)
    [record 30, record 20, record 10] where
  perm := List.reverse_perm [record 10, record 20, record 30]
  sorted := by
    show List.Pairwise (Descending ListedRecord.timestamp) _
    decide

/-- The client of the example walks through three pages while a record is added. -/
theorem recordsQuery_walks : recordsQuery.Walks records (fun i => min i 1) (fun i => min i 1) 3
    recordsResponse where
  responds i hi := by
    match i, hi with
    | 0, _ => exact ⟨⟨_, selects_two, rfl⟩, rfl⟩
    | 1, _ => exact ⟨⟨_, selects_three, rfl⟩, rfl⟩
    | 2, _ => exact ⟨⟨_, selects_three, rfl⟩, rfl⟩
  ordered i _ := by omega
  started := by decide
  finished := by decide

/-- No two records of the example tie. -/
theorem recordsQuery_unambiguous : recordsQuery.Unambiguous records := by
  intro t
  unfold records
  split_ifs
  · show [10, 20].Nodup
    decide
  · show [10, 20, 30].Nodup
    decide

/-- The table of the example grows. -/
theorem recordsQuery_grows :
    recordsQuery.Grows (fun row => (row.sourceRegistry, row.sourceSerial)) records := by
  intro s t hst a ha hselects
  refine ⟨a, ?_, hselects, rfl, rfl⟩
  by_cases hs : s = 0
  · rw [hs] at ha
    exact List.mem_append_left _ ha
  · unfold records at ha ⊢
    rw [if_neg hs] at ha
    rwa [if_neg (by omega)]

end Sample

open Sample in
/-- A client that reads three pages of the growing table sees both records of the beginning. -/
theorem listings_complete_records :
    ∀ a ∈ records 0, ∃ i < 3, ∃ b ∈ (recordsResponse i).data,
      (b.sourceRegistry, b.sourceSerial) = (a.sourceRegistry, a.sourceSerial) := by
  intro a ha
  exact ((listings_complete listHost).2.2 _).growing records _ _ 3 recordsResponse
    recordsQuery_walks recordsQuery_unambiguous recordsQuery_grows le_rfl a ha rfl

end CarbonVeritas
