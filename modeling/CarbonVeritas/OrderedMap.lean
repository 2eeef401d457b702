/-
# Maps that keep the order of their keys

An `OrderedMap` keeps its entries in the order in which their keys were first set, and carries
the fact that no key has two of them.  Setting a key replaces its value in place, or appends an
entry.

`gather` folds the rows of a list into the entries of their keys.  What is gathered under a key
depends on the rows of that key alone (`get_gather`), and what is gathered over all keys is
what the rows have together (`sum_gather`).
-/
import CarbonVeritas.KeyedRuns
import Mathlib.Algebra.BigOperators.Group.List.Basic

structure OrderedMap (κ ν : Type*) where
  entries : List (κ × ν)
  nodup : (entries.map Prod.fst).Nodup

namespace OrderedMap

open Transition

variable {κ ν α : Type*} [DecidableEq κ]

/-! ## Reading and setting a key -/

/-- The keys, in the order in which they were first set. -/
def keys (m : OrderedMap κ ν) : List κ := m.entries.map Prod.fst

def get (m : OrderedMap κ ν) (k : κ) : Option ν := m.entries.lookup k

def setEntries (k : κ) (v : ν) : List (κ × ν) → List (κ × ν)
  | [] => [(k, v)]
  | e :: es => if e.1 = k then (k, v) :: es else e :: setEntries k v es

/-- Setting a key adds it to the keys. -/
theorem mem_keys_setEntries {k k' : κ} {v : ν} {es : List (κ × ν)} :
    k' ∈ (setEntries k v es).map Prod.fst ↔ k' = k ∨ k' ∈ es.map Prod.fst := by
  induction es with
  | nil => simp [setEntries]
  | cons e es ih =>
      unfold setEntries
      split_ifs with he
      · rw [List.map_cons, List.map_cons, List.mem_cons, List.mem_cons, he]
        exact or_self_left.symm
      · rw [List.map_cons, List.map_cons, List.mem_cons, List.mem_cons, ih]
        exact or_left_comm

/-- Setting a key adds it once. -/
theorem nodup_setEntries {k : κ} {v : ν} {es : List (κ × ν)}
    (h : (es.map Prod.fst).Nodup) : ((setEntries k v es).map Prod.fst).Nodup := by
  induction es with
  | nil => exact List.pairwise_singleton _ k
  | cons e es ih =>
      rw [List.map_cons, List.nodup_cons] at h
      unfold setEntries
      split_ifs with he
      · rw [List.map_cons, List.nodup_cons, ← he]
        exact h
      · rw [List.map_cons, List.nodup_cons, mem_keys_setEntries]
        exact ⟨fun hmem => hmem.elim he h.1, ih h.2⟩

theorem lookup_cons_eq_ite (k : κ) (e : κ × ν) (es : List (κ × ν)) :
    (e :: es).lookup k = if k = e.1 then some e.2 else es.lookup k := by
  rw [List.lookup_cons]
  split_ifs with hk
  · rw [hk, beq_self_eq_true]
  · rw [beq_false_of_ne hk]

/-- After a key was set it has its value, and the others have theirs. -/
theorem lookup_setEntries (k k' : κ) (v : ν) (es : List (κ × ν)) :
    (setEntries k v es).lookup k' = if k' = k then some v else es.lookup k' := by
  induction es with
  | nil => exact lookup_cons_eq_ite k' (k, v) []
  | cons e es ih =>
      unfold setEntries
      by_cases he : e.1 = k
      · rw [if_pos he, lookup_cons_eq_ite, lookup_cons_eq_ite, he]
        by_cases hk : k' = k
        · rw [if_pos hk, if_pos hk]
        · rw [if_neg hk, if_neg hk, if_neg hk]
      · rw [if_neg he, lookup_cons_eq_ite, lookup_cons_eq_ite, ih]
        by_cases hk : k' = k
        · rw [if_neg (hk ▸ Ne.symm he), if_pos hk, if_pos hk]
        · rw [if_neg hk, if_neg hk]

/-- The map without entries. -/
def empty : OrderedMap κ ν where
  entries := []
  nodup := List.nodup_nil

/-- The value of a key, replaced in place or appended. -/
def set (m : OrderedMap κ ν) (k : κ) (v : ν) : OrderedMap κ ν where
  entries := setEntries k v m.entries
  nodup := nodup_setEntries m.nodup

/-- Setting a key updates the map at this key. -/
theorem get_set (m : OrderedMap κ ν) (k : κ) (v : ν) :
    (m.set k v).get = Function.update m.get k (some v) := by
  funext k'
  rw [Function.update_apply]
  exact lookup_setEntries k k' v m.entries

/-- The entries are the keys with their values. -/
theorem mem_entries_iff {m : OrderedMap κ ν} {k : κ} {v : ν} :
    (k, v) ∈ m.entries ↔ m.get k = some v := by
  obtain ⟨es, hnodup⟩ := m
  unfold get
  dsimp only
  induction es with
  | nil => simp
  | cons e es ih =>
      rw [List.map_cons, List.nodup_cons] at hnodup
      rw [List.mem_cons, lookup_cons_eq_ite]
      by_cases hk : k = e.1
      · -- the other entries have other keys
        have hnone : (k, v) ∉ es := by
          intro hmem
          exact hnodup.1 (hk ▸ List.mem_map_of_mem hmem)
        rw [if_pos hk, Option.some_inj, or_iff_left hnone, hk]
        exact ⟨fun he => (congrArg Prod.snd he).symm, fun he => he ▸ rfl⟩
      · have hne : (k, v) ≠ e := fun he => hk (congrArg Prod.fst he)
        rw [or_iff_right hne, if_neg hk]
        exact ih hnodup.2

/-- The keys are what has a value. -/
theorem mem_keys_iff {m : OrderedMap κ ν} {k : κ} : k ∈ m.keys ↔ m.get k ≠ none := by
  rw [← Option.isSome_iff_ne_none, Option.isSome_iff_exists]
  constructor
  · intro hmem
    obtain ⟨⟨k, v⟩, hv, rfl⟩ := List.mem_map.mp hmem
    exact ⟨v, mem_entries_iff.mp hv⟩
  · rintro ⟨v, hv⟩
    exact List.mem_map_of_mem (mem_entries_iff.mpr hv)

/-! ## Gathering rows under their keys -/

section Gather

variable (key : α → κ) (add : ν → α → ν) (zero : ν)

/-- A row is added to what is gathered under its key. -/
def gatherRow (m : OrderedMap κ ν) (row : α) : OrderedMap κ ν :=
  m.set (key row) (add ((m.get (key row)).getD zero) row)

def gather (rows : List α) : OrderedMap κ ν := run (gatherRow key add zero) empty rows

/-- What is gathered under the key of a row, after the row. -/
def gathered (o : Option ν) (row : α) : Option ν := some (add (o.getD zero) row)

/-- One more row is added to the value of its key. -/
theorem get_gatherRow (m : OrderedMap κ ν) (row : α) :
    (gatherRow key add zero m row).get = tableNext key (gathered add zero) m.get row :=
  get_set m (key row) _

/-- The map refines a table with an entry for every key. -/
theorem get_run_gatherRow (m : OrderedMap κ ν) (rows : List α) :
    (run (gatherRow key add zero) m rows).get =
      run (tableNext key (gathered add zero)) m.get rows :=
  (run_hom (fun row _ m' => (get_gatherRow key add zero m' row).symm) m).symm

/-- The rows of a key are added to its value one by one. -/
theorem run_gathered (v : ν) (rows : List α) :
    run (gathered add zero) (some v) rows = some (rows.foldl add v) := by
  induction rows generalizing v with
  | nil => rfl
  | cons row rows ih => exact ih (add v row)

/-- The value of a key is the sum of its rows. -/
theorem get_gather (k : κ) (rows : List α) :
    (gather key add zero rows).get k =
      if labelsOf key k rows = [] then none
      else some ((labelsOf key k rows).foldl add zero) := by
  unfold gather
  rw [get_run_gatherRow, run_entry]
  show run (gathered add zero) none (labelsOf key k rows) = _
  cases labelsOf key k rows with
  | nil => rfl
  | cons row rows =>
      rw [if_neg (List.cons_ne_nil row rows)]
      exact run_gathered add zero (add zero row) rows

variable {key} {add} {zero}

/-- The entries are the keys of the rows with their sums. -/
theorem mem_gather_iff {k : κ} {v : ν} {rows : List α} :
    (k, v) ∈ (gather key add zero rows).entries ↔
      labelsOf key k rows ≠ [] ∧ v = (labelsOf key k rows).foldl add zero := by
  rw [mem_entries_iff, get_gather]
  split_ifs with hnil
  · exact iff_of_false (by simp) fun h => h.1 hnil
  · rw [Option.some_inj, eq_comm]
    exact (and_iff_right hnil).symm

/-- The keys are those of the rows. -/
theorem mem_keys_gather_iff {k : κ} {rows : List α} :
    k ∈ (gather key add zero rows).keys ↔ ∃ row ∈ rows, key row = k := by
  rw [mem_keys_iff, get_gather]
  have hnil : labelsOf key k rows = [] ↔ ∀ row ∈ rows, key row ≠ k := labelsOf_eq_nil_iff
  split_ifs with hrows
  · refine iff_of_false (fun h => h rfl) ?_
    rintro ⟨row, hrow, hkey⟩
    exact hnil.mp hrows row hrow hkey
  · refine iff_of_true (Option.some_ne_none _) ?_
    rw [hnil] at hrows
    push Not at hrows
    exact hrows

/-- The rows, key by key. -/
theorem perm_gather (rows : List α) :
    ((gather key add zero rows).keys.flatMap fun k => labelsOf key k rows).Perm rows :=
  perm_flatMap_labelsOf (gather key add zero rows).nodup fun row hrow =>
    mem_keys_gather_iff.mpr ⟨row, hrow, rfl⟩

/-- **Nothing is lost or counted twice.**  A weight that adds up over the rows of a key adds up
over the keys to that of all rows. -/
theorem sum_gather {ω : Type*} [AddCommMonoid ω] (weight : ν → ω) (part : α → ω)
    (hweight : ∀ rows : List α, weight (rows.foldl add zero) = (rows.map part).sum)
    (rows : List α) :
    ((gather key add zero rows).entries.map fun e => weight e.2).sum = (rows.map part).sum := by
  have hentries : (gather key add zero rows).entries.map (fun e => weight e.2) =
      (gather key add zero rows).keys.map fun k => ((labelsOf key k rows).map part).sum := by
    unfold keys
    rw [List.map_map]
    refine List.map_congr_left fun e he => ?_
    rw [(mem_gather_iff.mp he).2, hweight]
    rfl
  have hperm :
      (((gather key add zero rows).keys.flatMap fun k => labelsOf key k rows).map part).Perm
        (rows.map part) := (perm_gather rows).map part
  rw [hentries, ← hperm.sum_eq, List.map_flatMap, List.flatMap, List.sum_flatten, List.map_map]
  rfl

end Gather

end OrderedMap
