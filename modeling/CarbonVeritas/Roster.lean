/-
# Finite maps with a list of their keys

A store that can only look records up by key keeps the keys in a list beside the records, so
that it can enumerate them.  `Lists l f` says that the list is right: it holds the keys of the
map `f`, each once.  The three operations on such a store (a new key, a new record for a key, a
removal) keep it right, and `total` of an amount changes by the amount of the one record
concerned.

`InOrder log l f` adds the order: the keys stand in the order of their last entries in a log of
all the keys that were ever new.
-/
import Mathlib.Algebra.BigOperators.Group.List.Basic
import Mathlib.Algebra.Order.BigOperators.Group.List
import Mathlib.Data.List.Dedup
import Mathlib.Data.List.Nodup
import Mathlib.Logic.Function.Basic
import Mathlib.Tactic.Abel
import Mathlib.Tactic.Common

namespace Roster

variable {α β M : Type*} {l : List α} {f f' : α → Option β} {a : α} {b : β}

/-- `l` holds the keys of the map `f`, each once. -/
structure Lists (l : List α) (f : α → Option β) : Prop where
  nodup : l.Nodup
  mem_iff : ∀ a, a ∈ l ↔ (f a).isSome = true

/-- The sum of an amount over the records of the listed keys. -/
def total [Add M] [Zero M] (amount : β → M) (l : List α) (f : α → Option β) : M :=
  ((l.filterMap f).map amount).sum

/-- What has a value is listed. -/
theorem Lists.mem (h : Lists l f) (ha : f a = some b) : a ∈ l := by
  rw [h.mem_iff, ha]
  rfl

/-- What has none is not. -/
theorem Lists.not_mem (h : Lists l f) (ha : f a = none) : a ∉ l := by
  rw [h.mem_iff, ha]
  simp

/-- The records of keys that a change does not touch. -/
theorem filterMap_update [DecidableEq α] (ha : a ∉ l) (o : Option β) :
    l.filterMap (Function.update f a o) = l.filterMap f := by
  refine List.filterMap_congr fun x hx => ?_
  have hne : x ≠ a := by
    rintro rfl
    exact ha hx
  rw [Function.update_of_ne hne]

/-- A value that is not listed does not count. -/
theorem total_eq_of_not_mem [DecidableEq α] [Add M] [Zero M] (ha : a ∉ l) (o : Option β)
    (amount : β → M) : total amount l (Function.update f a o) = total amount l f := by
  unfold total
  rw [filterMap_update ha]

/-- The listed keys before and after `a`. -/
theorem Lists.split (h : Lists l f) (ha : f a = some b) :
    ∃ l₁ l₂, l = l₁ ++ a :: l₂ ∧ a ∉ l₁ ∧ a ∉ l₂ := by
  obtain ⟨l₁, l₂, rfl⟩ := List.append_of_mem (h.mem ha)
  have hnodup := h.nodup
  rw [List.nodup_middle, List.nodup_cons, List.mem_append, not_or] at hnodup
  exact ⟨l₁, l₂, rfl, hnodup.1⟩

/-- A total is the value of one member and that of the others. -/
theorem total_split [AddMonoid M] {l₁ l₂ : List α} (ha : f a = some b) (amount : β → M) :
    total amount (l₁ ++ a :: l₂) f = total amount l₁ f + (amount b + total amount l₂ f) := by
  unfold total
  rw [List.filterMap_append, List.filterMap_cons_some ha, List.map_append, List.sum_append,
    List.map_cons, List.sum_cons]

/-! ## A new key -/

/-- A new member is appended. -/
theorem Lists.insert [DecidableEq α] (h : Lists l f) (ha : f a = none) (b : β) :
    Lists (l ++ [a]) (Function.update f a (some b)) := by
  constructor
  · refine List.nodup_append.mpr ⟨h.nodup, List.pairwise_singleton _ _, ?_⟩
    rintro x hx y hy rfl
    rw [List.mem_singleton.mp hy] at hx
    exact h.not_mem ha hx
  · intro x
    rw [List.mem_append, List.mem_singleton, h.mem_iff]
    by_cases hx : x = a
    · subst hx
      simp
    · rw [Function.update_of_ne hx]
      simp [hx]

/-- A new member adds its value. -/
theorem total_insert [DecidableEq α] [AddMonoid M] (h : Lists l f) (ha : f a = none) (b : β)
    (amount : β → M) :
    total amount (l ++ [a]) (Function.update f a (some b)) = total amount l f + amount b := by
  unfold total
  rw [List.filterMap_append, filterMap_update (h.not_mem ha), List.map_append, List.sum_append]
  simp

/-! ## A new record for a key -/

/-- A new value of a member leaves the list. -/
theorem Lists.update [DecidableEq α] (h : Lists l f) (ha : f a = some b) (b' : β) :
    Lists l (Function.update f a (some b')) := by
  refine ⟨h.nodup, fun x => ?_⟩
  rw [h.mem_iff]
  by_cases hx : x = a
  · subst hx
    simp [ha]
  · rw [Function.update_of_ne hx]

/-- A new value takes the place of the old one in the total. -/
theorem total_update [DecidableEq α] [AddCommMonoid M] (h : Lists l f) (ha : f a = some b)
    (b' : β) (amount : β → M) :
    total amount l (Function.update f a (some b')) + amount b = total amount l f + amount b' := by
  obtain ⟨l₁, l₂, rfl, h₁, h₂⟩ := h.split ha
  rw [total_split (Function.update_self ..), total_split ha, total_eq_of_not_mem h₁,
    total_eq_of_not_mem h₂]
  abel

/-! ## A removal -/

/-- A member that loses its value is removed. -/
theorem Lists.erase [DecidableEq α] (h : Lists l f) (a : α) :
    Lists (l.filter fun x => x ≠ a) (Function.update f a none) := by
  constructor
  · exact h.nodup.filter _
  · intro x
    rw [List.mem_filter, h.mem_iff, decide_eq_true_eq]
    by_cases hx : x = a
    · subst hx
      simp
    · rw [Function.update_of_ne hx]
      simp [hx]

/-- A member that is removed takes its value away. -/
theorem total_erase [DecidableEq α] [AddCommMonoid M] (h : Lists l f) (ha : f a = some b)
    (amount : β → M) :
    total amount (l.filter fun x => x ≠ a) (Function.update f a none) + amount b =
      total amount l f := by
  obtain ⟨l₁, l₂, rfl, h₁, h₂⟩ := h.split ha
  have hkeep : ∀ k : List α, a ∉ k → (k.filter fun x => x ≠ a) = k := by
    intro k hk
    refine List.filter_eq_self.mpr fun x hx => decide_eq_true ?_
    rintro rfl
    exact hk hx
  have hfilter : ((l₁ ++ a :: l₂).filter fun x => x ≠ a) = l₁ ++ l₂ := by
    rw [List.filter_append, List.filter_cons_of_neg (by simp), hkeep l₁ h₁, hkeep l₂ h₂]
  have happend : a ∉ l₁ ++ l₂ := by
    simp [h₁, h₂]
  rw [hfilter, total_eq_of_not_mem happend, total_split ha]
  unfold total
  rw [List.filterMap_append, List.map_append, List.sum_append]
  abel

/-! ## Bounds -/

/-- Values that are not negative have no negative total. -/
theorem total_nonneg {amount : β → ℤ} (hnonneg : ∀ a b, f a = some b → 0 ≤ amount b)
    (l : List α) : 0 ≤ total amount l f := by
  refine List.sum_nonneg fun x hx => ?_
  obtain ⟨b, hb, rfl⟩ := List.mem_map.mp hx
  obtain ⟨a, -, ha⟩ := List.mem_filterMap.mp hb
  exact hnonneg a b ha

/-- One record is at most the total of nonnegative amounts. -/
theorem le_total {amount : β → ℤ} (h : Lists l f) (hnonneg : ∀ a b, f a = some b → 0 ≤ amount b)
    (ha : f a = some b) : amount b ≤ total amount l f := by
  obtain ⟨l₁, l₂, rfl, -, -⟩ := h.split ha
  rw [total_split ha]
  have h₁ := total_nonneg hnonneg l₁
  have h₂ := total_nonneg hnonneg l₂
  omega

/-! ## The order of the keys -/

variable {log : List α}

/-- `l` holds the keys of the map `f` in the order of their last entries in the log. -/
structure InOrder [DecidableEq α] (log l : List α) (f : α → Option β) : Prop where
  list_eq : l = log.dedup.filter fun a => (f a).isSome
  logged : ∀ a, (f a).isSome = true → a ∈ log

/-- A new last entry moves its key to the end. -/
theorem dedup_concat [DecidableEq α] (l : List α) (a : α) :
    (l ++ [a]).dedup = (l.dedup.filter fun x => x ≠ a) ++ [a] := by
  induction l with
  | nil => simp
  | cons x l ih =>
      rw [List.cons_append, List.dedup_cons, List.dedup_cons, ih]
      by_cases hxa : x = a
      · subst hxa
        rw [if_pos (List.mem_append_right l List.mem_cons_self)]
        by_cases hx : x ∈ l
        · rw [if_pos hx]
        · rw [if_neg hx, List.filter_cons_of_neg (by simp)]
      · by_cases hx : x ∈ l
        · rw [if_pos hx, if_pos (List.mem_append_left _ hx)]
        · have hnot : x ∉ l ++ [a] := by
            simp [hx, hxa]
          rw [if_neg hx, if_neg hnot, List.filter_cons_of_pos (by simpa using hxa),
            List.cons_append]

section InOrder

variable [DecidableEq α]

/-- A list in order is a list of those that have a value. -/
theorem InOrder.lists (h : InOrder log l f) : Lists l f := by
  rw [h.list_eq]
  constructor
  · exact (List.nodup_dedup log).filter _
  · intro a
    rw [List.mem_filter, List.mem_dedup]
    exact ⟨fun ha => ha.2, fun ha => ⟨h.logged a ha, ha⟩⟩

/-- A new member comes last. -/
theorem InOrder.insert (h : InOrder log l f) (ha : f a = none) (b : β) :
    InOrder (log ++ [a]) (l ++ [a]) (Function.update f a (some b)) := by
  constructor
  · rw [dedup_concat, List.filter_append, List.filter_filter, h.list_eq]
    congr 1
    · refine List.filter_congr fun x _ => ?_
      by_cases hx : x = a
      · subst hx
        simp [ha]
      · rw [Function.update_of_ne hx]
        simp [hx]
    · simp
  · intro x hx
    by_cases hxa : x = a
    · exact List.mem_append_right _ (List.mem_singleton.mpr hxa)
    · rw [Function.update_of_ne hxa] at hx
      exact List.mem_append_left _ (h.logged x hx)

/-- A new value keeps the order. -/
theorem InOrder.update (h : InOrder log l f) (ha : f a = some b) (b' : β) :
    InOrder log l (Function.update f a (some b')) := by
  have hsame : ∀ x, (Function.update f a (some b') x).isSome = (f x).isSome := by
    intro x
    by_cases hx : x = a
    · subst hx
      simp [ha]
    · rw [Function.update_of_ne hx]
  constructor
  · rw [h.list_eq]
    exact List.filter_congr fun x _ => (hsame x).symm
  · intro x hx
    rw [hsame] at hx
    exact h.logged x hx

/-- Removing a member keeps the order of the others. -/
theorem InOrder.erase (h : InOrder log l f) (a : α) :
    InOrder log (l.filter fun x => x ≠ a) (Function.update f a none) := by
  constructor
  · rw [h.list_eq, List.filter_filter]
    refine List.filter_congr fun x _ => ?_
    by_cases hx : x = a
    · subst hx
      simp
    · rw [Function.update_of_ne hx]
      simp [hx]
  · intro x hx
    by_cases hxa : x = a
    · subst hxa
      simp at hx
    · rw [Function.update_of_ne hxa] at hx
      exact h.logged x hx

end InOrder

end Roster
