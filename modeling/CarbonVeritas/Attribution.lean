/-
# Attributing a payment to deposits

Money has no identity: a payment out of a pot can be attributed to the deposits in it in many
ways.  An attribution takes from each deposit a part of its amount, and the parts add up to the
payment.  When the deposits carry a mark (their time, say), one can ask whether some
attribution avoids the marked deposits, or whether every one does.

* `exists_avoids_iff` : some attribution avoids the marked deposits exactly if the others
  cover the payment;
* `forall_avoids_iff` : every attribution avoids them exactly if the payment is zero or no
  deposit is marked.
-/
import Mathlib.Data.List.Forall2
import Mathlib.Algebra.Order.BigOperators.Group.List
import Mathlib.Algebra.Order.Ring.Int
import Mathlib.Tactic.Common

namespace Attribution

variable {ι : Type*} {deposits : List (ι × ℤ)} {x : ℤ} {parts : List ℤ}

/-- The sum of the amounts. -/
def capacity (deposits : List (ι × ℤ)) : ℤ := (deposits.map Prod.snd).sum

@[simp] theorem capacity_nil : capacity ([] : List (ι × ℤ)) = 0 := rfl

@[simp] theorem capacity_cons (d : ι × ℤ) (deposits : List (ι × ℤ)) :
    capacity (d :: deposits) = d.2 + capacity deposits := by
  unfold capacity
  rw [List.map_cons, List.sum_cons]

theorem capacity_concat (deposits : List (ι × ℤ)) (d : ι × ℤ) :
    capacity (deposits ++ [d]) = capacity deposits + d.2 := by
  unfold capacity
  rw [List.map_append, List.sum_append, List.map_singleton, List.sum_singleton]

theorem capacity_nonneg (h : ∀ d ∈ deposits, 0 ≤ d.2) : 0 ≤ capacity deposits := by
  refine List.sum_nonneg fun y hy => ?_
  obtain ⟨d, hd, rfl⟩ := List.mem_map.mp hy
  exact h d hd

theorem capacity_pos (h : ∀ d ∈ deposits, 0 < d.2) (hne : deposits ≠ []) :
    0 < capacity deposits := by
  cases deposits with
  | nil => exact absurd rfl hne
  | cons d deposits =>
      rw [capacity_cons]
      have hd := h d List.mem_cons_self
      have hrest := capacity_nonneg fun e he => Int.le_of_lt (h e (List.mem_cons_of_mem _ he))
      omega

/-- The marked deposits and the others. -/
theorem capacity_filter_add (p : ι → Prop) [DecidablePred p] (deposits : List (ι × ℤ)) :
    capacity (deposits.filter fun d => ¬ p d.1) + capacity (deposits.filter fun d => p d.1) =
      capacity deposits := by
  induction deposits with
  | nil => rfl
  | cons d deposits ih =>
      by_cases hd : p d.1
      · rw [List.filter_cons_of_neg (by simp [hd]), List.filter_cons_of_pos (by simp [hd]),
          capacity_cons, capacity_cons]
        omega
      · rw [List.filter_cons_of_pos (by simp [hd]), List.filter_cons_of_neg (by simp [hd]),
          capacity_cons, capacity_cons]
        omega

/-- `parts` says how much of each deposit is in the payment `x`. -/
structure Attributes (deposits : List (ι × ℤ)) (x : ℤ) (parts : List ℤ) : Prop where
  within : List.Forall₂ (fun d part => 0 ≤ part ∧ part ≤ d.2) deposits parts
  sum : parts.sum = x

/-- No marked deposit is in the payment. -/
def Avoids (p : ι → Prop) (deposits : List (ι × ℤ)) (parts : List ℤ) : Prop :=
  List.Forall₂ (fun d part => p d.1 → part = 0) deposits parts

theorem Attributes.cons {d : ι × ℤ} {part : ℤ} (hpart : 0 ≤ part ∧ part ≤ d.2)
    (h : Attributes deposits (x - part) parts) : Attributes (d :: deposits) x (part :: parts) := by
  refine ⟨.cons hpart h.within, ?_⟩
  rw [List.sum_cons, h.sum]
  omega

/-- What an attribution that avoids the marked deposits can pay. -/
theorem Attributes.le_capacity {p : ι → Prop} [DecidablePred p] (h : Attributes deposits x parts)
    (havoids : Avoids p deposits parts) :
    0 ≤ x ∧ x ≤ capacity (deposits.filter fun d => ¬ p d.1) := by
  obtain ⟨hwithin, rfl⟩ := h
  induction hwithin with
  | nil => exact ⟨Int.le_refl 0, Int.le_refl 0⟩
  | @cons d part deposits parts hpart _ ih =>
      obtain ⟨hd, hrest⟩ := List.forall₂_cons.mp havoids
      obtain ⟨hnonneg, hle⟩ := ih hrest
      rw [List.sum_cons]
      by_cases hp : p d.1
      · rw [List.filter_cons_of_neg (by simp [hp]), hd hp]
        omega
      · rw [List.filter_cons_of_pos (by simp [hp]), capacity_cons]
        omega

/-- **Some attribution.** -/
theorem exists_avoids_iff (p : ι → Prop) [DecidablePred p] (hnonneg : ∀ d ∈ deposits, 0 ≤ d.2)
    (x : ℤ) : (∃ parts, Attributes deposits x parts ∧ Avoids p deposits parts) ↔
      0 ≤ x ∧ x ≤ capacity (deposits.filter fun d => ¬ p d.1) := by
  constructor
  · rintro ⟨parts, h, havoids⟩
    exact h.le_capacity havoids
  · -- fill the unmarked deposits from the left
    intro hx
    induction deposits generalizing x with
    | nil =>
        refine ⟨[], ⟨.nil, ?_⟩, .nil⟩
        rw [List.filter_nil, capacity_nil] at hx
        rw [List.sum_nil]
        omega
    | cons d deposits ih =>
        have hd := hnonneg d List.mem_cons_self
        have hrest : ∀ e ∈ deposits, 0 ≤ e.2 := fun e he => hnonneg e (List.mem_cons_of_mem _ he)
        by_cases hp : p d.1
        · rw [List.filter_cons_of_neg (by simp [hp])] at hx
          obtain ⟨parts, h, havoids⟩ := ih hrest x hx
          refine ⟨0 :: parts, .cons ⟨Int.le_refl 0, hd⟩ ?_, .cons (fun _ => rfl) havoids⟩
          rwa [Int.sub_zero]
        · rw [List.filter_cons_of_pos (by simp [hp]), capacity_cons] at hx
          have hcapacity : 0 ≤ capacity (deposits.filter fun e => ¬ p e.1) :=
            capacity_nonneg fun e he => hrest e (List.mem_filter.mp he).1
          obtain ⟨parts, h, havoids⟩ := ih hrest (x - min x d.2) (by omega)
          refine ⟨min x d.2 :: parts, .cons (by omega) h, .cons (fun h => absurd h hp) havoids⟩

/-- Every payment that the deposits cover has an attribution. -/
theorem exists_attributes (hnonneg : ∀ d ∈ deposits, 0 ≤ d.2) (hx : 0 ≤ x)
    (hle : x ≤ capacity deposits) : ∃ parts, Attributes deposits x parts := by
  obtain ⟨parts, h, -⟩ :=
    (exists_avoids_iff (fun _ => False) hnonneg x).mpr ⟨hx, by simpa using hle⟩
  exact ⟨parts, h⟩

/-- A payment can be taken from any one deposit in part. -/
theorem exists_not_avoids {p : ι → Prop} (hpos : ∀ d ∈ deposits, 0 < d.2) (hx : 0 < x)
    (hle : x ≤ capacity deposits) (hmarked : ∃ d ∈ deposits, p d.1) :
    ∃ parts, Attributes deposits x parts ∧ ¬ Avoids p deposits parts := by
  induction deposits generalizing x with
  | nil =>
      obtain ⟨d, hd, -⟩ := hmarked
      cases hd
  | cons d deposits ih =>
      have hd := hpos d List.mem_cons_self
      have hrest : ∀ e ∈ deposits, 0 < e.2 := fun e he => hpos e (List.mem_cons_of_mem _ he)
      rw [capacity_cons] at hle
      by_cases hp : p d.1
      · -- as much as possible from `d`
        have hcapacity := capacity_nonneg fun e he => Int.le_of_lt (hrest e he)
        obtain ⟨parts, h⟩ := exists_attributes (x := x - min x d.2)
          (fun e he => Int.le_of_lt (hrest e he)) (by omega) (by omega)
        refine ⟨min x d.2 :: parts, .cons (by omega) h, fun havoids => ?_⟩
        have hzero := (List.forall₂_cons.mp havoids).1 hp
        omega
      · -- as little as possible from `d`
        have htail : ∃ e ∈ deposits, p e.1 := by
          obtain ⟨e, he, hmark⟩ := hmarked
          rcases List.mem_cons.mp he with rfl | he
          · exact absurd hmark hp
          · exact ⟨e, he, hmark⟩
        have hcapacity : 0 < capacity deposits := by
          refine capacity_pos hrest ?_
          rintro rfl
          obtain ⟨e, he, -⟩ := htail
          cases he
        obtain ⟨parts, h, havoids⟩ := ih (x := min x (capacity deposits)) hrest (by omega)
          (by omega) htail
        refine ⟨(x - min x (capacity deposits)) :: parts, .cons (by omega) ?_, fun h => ?_⟩
        · rwa [Int.sub_sub_self]
        · exact havoids (List.forall₂_cons.mp h).2

/-- Nothing is taken from any deposit for a payment of zero. -/
theorem avoids_of_sum_eq_zero
    (h : List.Forall₂ (fun d part => 0 ≤ part ∧ part ≤ d.2) deposits parts) (hsum : parts.sum = 0)
    (p : ι → Prop) : Avoids p deposits parts := by
  induction h with
  | nil => exact .nil
  | @cons d part deposits parts hpart hwithin ih =>
      rw [List.sum_cons] at hsum
      have hrest : 0 ≤ parts.sum := by
        have htrivial : Avoids (fun _ => False) deposits parts :=
          hwithin.imp fun _ _ _ => False.elim
        exact (Attributes.le_capacity ⟨hwithin, rfl⟩ htrivial).1
      exact .cons (fun _ => by omega) (ih (by omega))

theorem avoids_of_forall_not {p : ι → Prop}
    (h : List.Forall₂ (fun d part => 0 ≤ part ∧ part ≤ d.2) deposits parts)
    (hnone : ∀ d ∈ deposits, ¬ p d.1) : Avoids p deposits parts := by
  induction h with
  | nil => exact .nil
  | cons _ _ ih =>
      refine .cons (fun hmark => absurd hmark (hnone _ List.mem_cons_self)) (ih fun d hd => ?_)
      exact hnone d (List.mem_cons_of_mem _ hd)

/-- **Every attribution.** -/
theorem forall_avoids_iff (p : ι → Prop) (hpos : ∀ d ∈ deposits, 0 < d.2) (hx : 0 ≤ x)
    (hle : x ≤ capacity deposits) :
    (∀ parts, Attributes deposits x parts → Avoids p deposits parts) ↔
      x = 0 ∨ ∀ d ∈ deposits, ¬ p d.1 := by
  constructor
  · intro h
    by_contra hneither
    rw [not_or, not_forall] at hneither
    obtain ⟨hne, d, hd⟩ := hneither
    obtain ⟨hmem, hmark⟩ := Classical.not_imp.mp hd
    obtain ⟨parts, hattributes, havoids⟩ := exists_not_avoids hpos (by omega) hle
      ⟨d, hmem, Classical.not_not.mp hmark⟩
    exact havoids (h parts hattributes)
  · rintro (rfl | hnone) parts ⟨hwithin, hsum⟩
    · exact avoids_of_sum_eq_zero hwithin hsum p
    · exact avoids_of_forall_not hwithin hnone

end Attribution
