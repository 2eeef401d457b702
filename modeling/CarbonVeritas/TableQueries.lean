/-
# Queries of a table

A query selects the rows of a table with a property, in an order, and shows a part of them.  The
order leaves open how rows stand that tie in it, and a database may settle this for every query
anew: what a query is answered with is a relation (`Answers`).

* `Answers.mem_iff` : every row that is shown is selected, and a query without bounds shows all;
* `pages_cover` : where no selected rows tie, the pages of a query, each read by a query of its
  own, show every selected row once and in order;
* `exists_answer_of_grows` : where rows are added between the readings of the pages, every row of
  the beginning is still shown.
-/
import CarbonVeritas.Pages
import Mathlib.Data.List.Sort

namespace TableQueries

open Pages

variable {α : Type*} {before : α → α → Prop} {p : α → Bool} {table rows rows' answer : List α}
  {skip take : ℕ}

/-- The selected rows, in an order in which they may stand. -/
structure Selects (before : α → α → Prop) (p : α → Bool) (table rows : List α) : Prop where
  perm : rows.Perm (table.filter p)
  sorted : rows.Pairwise before

/-- What a query that skips and takes so many rows may be answered with. -/
def Answers (before : α → α → Prop) (p : α → Bool) (table : List α) (skip take : ℕ)
    (answer : List α) : Prop :=
  ∃ rows, Selects before p table rows ∧ answer = page rows skip take

/-- No two selected rows tie in the order. -/
def Strict (before : α → α → Prop) (p : α → Bool) (table : List α) : Prop :=
  ∀ a ∈ table, ∀ b ∈ table, p a → p b → before a b → before b a → a = b

theorem Selects.mem_iff (h : Selects before p table rows) {a : α} :
    a ∈ rows ↔ a ∈ table ∧ p a := by
  rw [h.perm.mem_iff, List.mem_filter]

theorem Selects.length_eq (h : Selects before p table rows) :
    rows.length = (table.filter p).length :=
  h.perm.length_eq

/-- Without ties there is one order. -/
theorem Selects.unique (hstrict : Strict before p table) (h : Selects before p table rows)
    (h' : Selects before p table rows') : rows = rows' := by
  refine List.Perm.eq_of_pairwise (fun a b ha hb hab hba => ?_) h.sorted h'.sorted
    (h.perm.trans h'.perm.symm)
  obtain ⟨hat, hpa⟩ := h.mem_iff.mp ha
  obtain ⟨hbt, hpb⟩ := h'.mem_iff.mp hb
  exact hstrict a hat b hbt hpa hpb hab hba

/-- There is an order, if any two rows can stand in one. -/
theorem exists_selects [DecidableRel before] [Std.Total before] [IsTrans α before]
    (p : α → Bool) (table : List α) : ∃ rows, Selects before p table rows :=
  ⟨(table.filter p).insertionSort before, List.perm_insertionSort _ _,
    List.pairwise_insertionSort _ _⟩

/-! ## One query -/

theorem Answers.mem (h : Answers before p table skip take answer) {a : α} (ha : a ∈ answer) :
    a ∈ table ∧ p a := by
  obtain ⟨rows, hrows, rfl⟩ := h
  exact hrows.mem_iff.mp (mem_of_mem_page ha)

theorem Answers.length_eq (h : Answers before p table skip take answer) :
    answer.length = min take ((table.filter p).length - skip) := by
  obtain ⟨rows, hrows, rfl⟩ := h
  unfold page
  rw [List.length_take, List.length_drop, hrows.length_eq]

theorem Answers.sorted (h : Answers before p table skip take answer) : answer.Pairwise before := by
  obtain ⟨rows, hrows, rfl⟩ := h
  exact hrows.sorted.sublist ((List.take_sublist _ _).trans (List.drop_sublist _ _))

/-- The query that takes all rows. -/
theorem Answers.mem_iff (h : Answers before p table 0 take answer)
    (htake : (table.filter p).length ≤ take) {a : α} : a ∈ answer ↔ a ∈ table ∧ p a := by
  obtain ⟨rows, hrows, rfl⟩ := h
  unfold page
  rw [List.drop_zero, List.take_of_length_le (hrows.length_eq.trans_le htake), hrows.mem_iff]

/-- A query that selects nothing. -/
theorem answers_nil (h : ∀ a ∈ table, p a = false) : Answers before p table skip take [] := by
  refine ⟨[], ⟨?_, List.Pairwise.nil⟩, ?_⟩
  · rw [List.filter_eq_nil_iff.mpr fun a ha => by simp [h a ha]]
  · rw [page_of_length_le (by simp)]

/-! ## Pages -/

/-- The number of pages of `limit` rows. -/
def totalPages (total limit : ℕ) : ℕ := (total + limit - 1) / limit

theorem le_totalPages_mul (total : ℕ) {limit : ℕ} (h : 0 < limit) :
    total ≤ totalPages total limit * limit := by
  unfold totalPages
  have hlt := Nat.lt_mul_div_succ (total + limit - 1) h
  rw [Nat.mul_succ, Nat.mul_comm] at hlt
  omega

/-- **All pages.**  Where no selected rows tie, the pages show the selected rows in their order,
each once. -/
theorem pages_cover (hstrict : Strict before p table) {limit k : ℕ} {answers : ℕ → List α}
    (h : ∀ i < k, Answers before p table (i * limit) limit (answers i))
    (hk : (table.filter p).length ≤ k * limit) (hrows : Selects before p table rows) :
    ((List.range k).map answers).flatten = rows := by
  have hpages : (List.range k).map answers =
      (List.range k).map fun i => page rows (i * limit) limit := by
    refine List.map_congr_left fun i hi => ?_
    obtain ⟨rows', hrows', heq⟩ := h i (List.mem_range.mp hi)
    rw [heq, hrows.unique hstrict hrows']
  rw [hpages, flatten_pages_of_le (hrows.length_eq.trans_le hk)]

/-! ## Orders by a key -/

section Keys

variable {κ : Type*} [LinearOrder κ] (key : α → κ)

/-- Rising order. -/
def Ascending (a b : α) : Prop := key a ≤ key b

/-- Falling order. -/
def Descending (a b : α) : Prop := key b ≤ key a

instance : DecidableRel (Ascending key) := fun a b => inferInstanceAs (Decidable (key a ≤ key b))

instance : DecidableRel (Descending key) := fun a b => inferInstanceAs (Decidable (key b ≤ key a))

instance : Std.Total (Ascending key) := ⟨fun a b => le_total (key a) (key b)⟩

instance : Std.Total (Descending key) := ⟨fun a b => le_total (key b) (key a)⟩

instance : IsTrans α (Ascending key) := ⟨fun _ _ _ hab hbc => le_trans hab hbc⟩

instance : IsTrans α (Descending key) := ⟨fun _ _ _ hab hbc => le_trans hbc hab⟩

variable {key}

/-- Distinct keys do not tie. -/
theorem strict_of_injOn (hkey : ∀ a ∈ table, ∀ b ∈ table, p a → p b → key a = key b → a = b) :
    Strict (Ascending key) p table ∧ Strict (Descending key) p table :=
  ⟨fun a ha b hb hpa hpb hab hba => hkey a ha b hb hpa hpb (le_antisymm hab hba),
    fun a ha b hb hpa hpb hab hba => hkey a ha b hb hpa hpb (le_antisymm hba hab)⟩

end Keys

/-! ## Reading page after page while rows are added -/

section Walks

variable {κ ι : Type*} [LinearOrder κ] {key : α → κ} {a : α}

/-- The number of selected rows that stand before a key. -/
def ahead (key : α → κ) (p : α → Bool) (table : List α) (k : κ) : ℕ :=
  (table.filter p).countP fun b => key b < k

/-- No two selected rows have the same key. -/
def DistinctKeys (key : α → κ) (p : α → Bool) (table : List α) : Prop :=
  ((table.filter p).map key).Nodup

/-- The rows before a row in rising order, counted. -/
theorem countP_lt_of_sorted {l l' : List α} (hsorted : (l ++ a :: l').Pairwise (Ascending key))
    (hkeys : ((l ++ a :: l').map key).Nodup) :
    (l ++ a :: l').countP (fun b => key b < key a) = l.length := by
  rw [List.pairwise_append, List.pairwise_cons] at hsorted
  obtain ⟨-, ⟨hafter, -⟩, hbefore⟩ := hsorted
  rw [List.map_append, List.map_cons, List.nodup_append] at hkeys
  have hlow : l.countP (fun b => key b < key a) = l.length := by
    refine List.countP_eq_length.mpr fun b hb => decide_eq_true ?_
    refine lt_of_le_of_ne (hbefore b hb a List.mem_cons_self) ?_
    exact hkeys.2.2 _ (List.mem_map_of_mem hb) _ List.mem_cons_self
  have hhigh : (a :: l').countP (fun b => key b < key a) = 0 := by
    refine List.countP_eq_zero.mpr fun b hb => ?_
    rw [decide_eq_true_eq, not_lt]
    rcases List.mem_cons.mp hb with rfl | hb
    · exact le_refl _
    · exact hafter b hb
  rw [List.countP_append, hlow, hhigh, Nat.add_zero]

/-- A row stands on the page that its place is in. -/
theorem Answers.mem_of_ahead (h : Answers (Ascending key) p table skip take answer)
    (hkeys : DistinctKeys key p table) (ha : a ∈ table) (hp : p a)
    (hskip : skip ≤ ahead key p table (key a)) (hlt : ahead key p table (key a) < skip + take) :
    a ∈ answer := by
  obtain ⟨rows, hrows, rfl⟩ := h
  obtain ⟨l, l', rfl⟩ := List.append_of_mem (hrows.mem_iff.mpr ⟨ha, hp⟩)
  have hplace : ahead key p table (key a) = l.length := by
    unfold ahead
    rw [← hrows.perm.countP_eq]
    exact countP_lt_of_sorted hrows.sorted ((hrows.perm.map key).nodup_iff.mpr hkeys)
  rw [hplace] at hskip hlt
  unfold page
  rw [List.drop_append_of_le_length hskip]
  have htake : (l.drop skip).length < take := by
    rw [List.length_drop]
    omega
  rw [List.take_append, List.take_of_length_le htake.le]
  obtain ⟨n, hn⟩ := Nat.exists_eq_succ_of_ne_zero (Nat.sub_ne_zero_of_lt htake)
  rw [hn, List.take_succ_cons]
  exact List.mem_append_right _ List.mem_cons_self

theorem ahead_lt_length (ha : a ∈ table) (hp : p a) :
    ahead key p table (key a) < (table.filter p).length := by
  refine lt_of_le_of_ne List.countP_le_length fun heq => ?_
  have hall := List.countP_eq_length.mp heq a (List.mem_filter.mpr ⟨ha, hp⟩)
  exact absurd (of_decide_eq_true hall) (lt_irrefl _)

omit [LinearOrder κ] in
/-- A table that has grown has the selected keys of before. -/
theorem keys_subperm {table' : List α} (hkeys : DistinctKeys key p table)
    (hgrows : ∀ b ∈ table, p b → ∃ b' ∈ table', p b' ∧ key b' = key b) :
    ((table.filter p).map key).Subperm ((table'.filter p).map key) := by
  refine List.subperm_of_subset hkeys fun k hk => ?_
  obtain ⟨b, hb, rfl⟩ := List.mem_map.mp hk
  obtain ⟨hbt, hpb⟩ := List.mem_filter.mp hb
  obtain ⟨b', hb', hpb', hkey⟩ := hgrows b hbt hpb
  exact List.mem_map.mpr ⟨b', List.mem_filter.mpr ⟨hb', hpb'⟩, hkey⟩

/-- The place of a row moves back only if selected rows disappear. -/
theorem ahead_le {table' : List α} (hkeys : DistinctKeys key p table)
    (hgrows : ∀ b ∈ table, p b → ∃ b' ∈ table', p b' ∧ key b' = key b) (k : κ) :
    ahead key p table k ≤ ahead key p table' k := by
  have hcount : ∀ rows : List α, ahead key p rows k =
      ((rows.filter p).map key).countP fun k' => k' < k := by
    intro rows
    rw [List.countP_map]
    rfl
  rw [hcount, hcount]
  exact (keys_subperm hkeys hgrows).countP_le _

omit [LinearOrder κ] in
theorem length_filter_le {table' : List α} (hkeys : DistinctKeys key p table)
    (hgrows : ∀ b ∈ table, p b → ∃ b' ∈ table', p b' ∧ key b' = key b) :
    (table.filter p).length ≤ (table'.filter p).length := by
  have hle := (keys_subperm hkeys hgrows).length_le
  rwa [List.length_map, List.length_map] at hle

/-- A place that never moves back is on one of the pages up to the end. -/
theorem exists_page_of_mono {place : ℕ → ℕ} {m limit : ℕ}
    (hmono : ∀ i, i + 1 < m → place i ≤ place (i + 1)) (hm : 0 < m)
    (hlast : place (m - 1) < m * limit) :
    ∃ i < m, i * limit ≤ place i ∧ place i < i * limit + limit := by
  have hex : ∃ i, place i < (i + 1) * limit := ⟨m - 1, by rwa [Nat.sub_add_cancel hm]⟩
  -- the first page that the place is not past
  obtain ⟨i, hi, hmin⟩ : ∃ i, place i < (i + 1) * limit ∧ ∀ j < i, ¬ place j < (j + 1) * limit :=
    ⟨Nat.find hex, Nat.find_spec hex, fun j hj => Nat.find_min hex hj⟩
  have him : i < m := by
    by_contra hge
    exact hmin (m - 1) (by omega) (by rwa [Nat.sub_add_cancel hm])
  refine ⟨i, him, ?_, by rwa [Nat.succ_mul] at hi⟩
  cases i with
  | zero => simp
  | succ j => exact (not_lt.mp (hmin j (Nat.lt_succ_self j))).trans (hmono j him)

/-- **Nothing is missed.**  Pages are read one after the other, and between the readings selected
rows may be added and changed, but none is removed and the keys stay.  Then every row that was
selected at the first reading is shown. -/
theorem exists_answer_of_grows {tables answers : ℕ → List α} {m : ℕ} (limit : ℕ) {ident : α → ι}
    (hanswers : ∀ i < m, Answers (Ascending key) p (tables i) (i * limit) limit (answers i))
    (hkeys : ∀ i < m, DistinctKeys key p (tables i))
    (hgrows : ∀ i, i + 1 < m → ∀ b ∈ tables i, p b →
      ∃ b' ∈ tables (i + 1), p b' ∧ key b' = key b ∧ ident b' = ident b)
    (hm : 0 < m) (hlast : ((tables (m - 1)).filter p).length ≤ m * limit)
    (ha : a ∈ tables 0) (hp : p a) : ∃ i < m, ∃ b ∈ answers i, ident b = ident a := by
  have hstays : ∀ i < m, ∃ b ∈ tables i, p b ∧ key b = key a ∧ ident b = ident a := by
    intro i
    induction i with
    | zero => exact fun _ => ⟨a, ha, hp, rfl, rfl⟩
    | succ i ih =>
        intro hi
        obtain ⟨b, hb, hpb, hkey, hident⟩ := ih (by omega)
        obtain ⟨b', hb', hpb', hkey', hident'⟩ := hgrows i hi b hb hpb
        exact ⟨b', hb', hpb', hkey'.trans hkey, hident'.trans hident⟩
  have hmono : ∀ i, i + 1 < m →
      ahead key p (tables i) (key a) ≤ ahead key p (tables (i + 1)) (key a) := by
    intro i hi
    refine ahead_le (hkeys i (by omega)) (fun b hb hpb => ?_) _
    obtain ⟨b', hb', hpb', hkey, -⟩ := hgrows i hi b hb hpb
    exact ⟨b', hb', hpb', hkey⟩
  have hend : ahead key p (tables (m - 1)) (key a) < m * limit := by
    obtain ⟨b, hb, hpb, hkey, -⟩ := hstays (m - 1) (by omega)
    rw [← hkey]
    exact (ahead_lt_length hb hpb).trans_le hlast
  obtain ⟨i, hi, hskip, hlt⟩ := exists_page_of_mono hmono hm hend
  obtain ⟨b, hb, hpb, hkey, hident⟩ := hstays i hi
  rw [← hkey] at hskip hlt
  exact ⟨i, hi, b, (hanswers i hi).mem_of_ahead (hkeys i hi) hb hpb hskip hlt, hident⟩

end Walks

end TableQueries
