/-
# Binary hash trees

A tree of values whose inner nodes are combined by a function `H` of two values, and
the check that folds a list of siblings from a value up to the root.  Nothing marks
whether a value is a leaf or comes from an inner node.

The assumption on `H` is that an inner node of the tree has no second preimage
(`Binding`); an `H` that is injective on unordered pairs has this property for every
tree (`UnorderedInjective.binding`).

* `fold_eq_root` : a value that folds to the root is the value of some node of the
  tree, provided that `H` never yields a leaf;
* `mem_leaves_iff` : it is a leaf if and only if it is not itself a value of `H`;
* `fold_siblings` : every leaf folds to the root by the siblings of its position;
* `exists_position_of_fold` : in a perfect tree these are the only proofs of full length.
-/
import Mathlib.Data.List.Basic
import Mathlib.Data.List.Induction
import Mathlib.Tactic.Common

/-- A binary tree of any shape with values at its leaves. -/
inductive PairTree (α : Type*) where
  | leaf (a : α)
  | node (l r : PairTree α)

namespace PairTree

variable {α : Type*} (H : α → α → α)

/-! ## Values of a tree -/

/-- The value at the root. -/
def root : PairTree α → α
  | leaf a => a
  | node l r => H (root l) (root r)

/-- The values at the leaves, from left to right. -/
def leaves : PairTree α → List α
  | leaf a => [a]
  | node l r => l.leaves ++ r.leaves

/-- The values at the inner nodes. -/
def inner : PairTree α → List α
  | leaf _ => []
  | node l r => H (l.root H) (r.root H) :: (inner l ++ inner r)

/-- The check of a proof: the siblings are folded onto the value. -/
def fold (x : α) (proof : List α) : α := proof.foldl H x

@[simp] theorem fold_nil (x : α) : fold H x [] = x := rfl

theorem fold_append (x : α) (p q : List α) : fold H x (p ++ q) = fold H (fold H x p) q := by
  unfold fold
  rw [List.foldl_append]

theorem fold_concat (x : α) (p : List α) (y : α) : fold H x (p ++ [y]) = H (fold H x p) y := by
  rw [fold_append]
  rfl

/-- The root is the value of a node. -/
theorem root_mem (t : PairTree α) : t.root H ∈ t.leaves ∨ t.root H ∈ t.inner H := by
  cases t with
  | leaf a => exact Or.inl (List.mem_singleton.mpr rfl)
  | node l r => exact Or.inr List.mem_cons_self

/-- The values of inner nodes are values of `H`. -/
theorem exists_of_mem_inner {t : PairTree α} {x : α} (hx : x ∈ t.inner H) : ∃ a b, H a b = x := by
  induction t with
  | leaf a => cases hx
  | node l r ihl ihr =>
      rcases List.mem_cons.mp hx with rfl | hx
      · exact ⟨_, _, rfl⟩
      · rcases List.mem_append.mp hx with hx | hx
        · exact ihl hx
        · exact ihr hx

/-! ## Assumptions on the combining function -/

/-- `H` determines its two arguments up to their order. -/
def UnorderedInjective : Prop :=
  ∀ a b c d, H a b = H c d → (a = c ∧ b = d) ∨ (a = d ∧ b = c)

/-- No inner node of the tree has a second preimage. -/
def Binding : PairTree α → Prop
  | leaf _ => True
  | node l r => (∀ a b, H a b = H (l.root H) (r.root H) →
      (a = l.root H ∧ b = r.root H) ∨ (a = r.root H ∧ b = l.root H)) ∧ Binding l ∧ Binding r

theorem UnorderedInjective.binding {H : α → α → α} (h : UnorderedInjective H) (t : PairTree α) :
    t.Binding H := by
  induction t with
  | leaf a => trivial
  | node l r ihl ihr => exact ⟨fun a b hab => h a b _ _ hab, ihl, ihr⟩

/-! ## Soundness and completeness of the check -/

variable {H}

/-- **Soundness.**  If `H` never yields a leaf of the tree, then a value that folds to
the root is the value of a node. -/
theorem fold_eq_root {t : PairTree α} (hbind : t.Binding H) (hleaf : ∀ a b, H a b ∉ t.leaves)
    {x : α} {proof : List α} (h : fold H x proof = t.root H) : x ∈ t.leaves ∨ x ∈ t.inner H := by
  -- the last sibling is compared with the children of the root
  induction proof using List.reverseRecOn generalizing t with
  | nil =>
      rw [fold_nil] at h
      rw [h]
      exact root_mem H t
  | append_singleton p y ih =>
      rw [fold_concat] at h
      cases t with
      | leaf a =>
          have hmem : H (fold H x p) y ∈ (leaf a).leaves := by
            rw [h]
            exact List.mem_singleton.mpr rfl
          exact absurd hmem (hleaf _ _)
      | node l r =>
          obtain ⟨hpair, hl, hr⟩ := hbind
          have hleafl : ∀ a b, H a b ∉ l.leaves := fun a b hab =>
            hleaf a b (List.mem_append_left _ hab)
          have hleafr : ∀ a b, H a b ∉ r.leaves := fun a b hab =>
            hleaf a b (List.mem_append_right _ hab)
          rcases hpair _ _ h with ⟨hx, -⟩ | ⟨hx, -⟩
          · rcases ih hl hleafl hx with hmem | hmem
            · exact Or.inl (List.mem_append_left _ hmem)
            · exact Or.inr (List.mem_cons_of_mem _ (List.mem_append_left _ hmem))
          · rcases ih hr hleafr hx with hmem | hmem
            · exact Or.inl (List.mem_append_right _ hmem)
            · exact Or.inr (List.mem_cons_of_mem _ (List.mem_append_right _ hmem))

/-- A value that folds to the root is a leaf exactly if it is not a value of `H`. -/
theorem mem_leaves_iff {t : PairTree α} (hbind : t.Binding H) (hleaf : ∀ a b, H a b ∉ t.leaves)
    {x : α} {proof : List α} (h : fold H x proof = t.root H) :
    x ∈ t.leaves ↔ ∀ a b, H a b ≠ x := by
  constructor
  · rintro hx a b rfl
    exact hleaf a b hx
  · intro hx
    rcases fold_eq_root hbind hleaf h with hmem | hmem
    · exact hmem
    · obtain ⟨a, b, hab⟩ := exists_of_mem_inner H hmem
      exact absurd hab (hx a b)

/-! ## Positions -/

/-- The positions of the leaves of a tree. -/
inductive Position : PairTree α → Type _ where
  | here (a : α) : Position (leaf a)
  | left {l : PairTree α} (r : PairTree α) (p : Position l) : Position (node l r)
  | right (l : PairTree α) {r : PairTree α} (p : Position r) : Position (node l r)

namespace Position

/-- The value at a position. -/
def value : {t : PairTree α} → Position t → α
  | _, here a => a
  | _, left _ p => p.value
  | _, right _ p => p.value

variable (H) in
/-- The siblings on the way from a position up to the root. -/
def siblings : {t : PairTree α} → Position t → List α
  | _, here _ => []
  | _, left r p => p.siblings ++ [r.root H]
  | _, right l p => p.siblings ++ [l.root H]

end Position

theorem exists_position {t : PairTree α} {x : α} (hx : x ∈ t.leaves) :
    ∃ p : Position t, p.value = x := by
  induction t with
  | leaf a => exact ⟨.here a, (List.mem_singleton.mp hx).symm⟩
  | node l r ihl ihr =>
      rcases List.mem_append.mp hx with hx | hx
      · obtain ⟨p, hp⟩ := ihl hx
        exact ⟨.left r p, hp⟩
      · obtain ⟨p, hp⟩ := ihr hx
        exact ⟨.right l p, hp⟩

/-- **Completeness.**  If `H` is symmetric, the siblings of a position are a proof of the
value there, on whatever side they stand. -/
theorem fold_siblings (hsymm : ∀ a b, H a b = H b a) {t : PairTree α} (p : Position t) :
    fold H p.value (p.siblings H) = t.root H := by
  induction p with
  | here a => rfl
  | left r p ih =>
      show fold H p.value (p.siblings H ++ [r.root H]) = _
      rw [fold_concat, ih]
      rfl
  | right l p ih =>
      show fold H p.value (p.siblings H ++ [l.root H]) = _
      rw [fold_concat, ih, hsymm]
      rfl

/-- Every leaf has a proof. -/
theorem exists_proof (hsymm : ∀ a b, H a b = H b a) {t : PairTree α} {x : α}
    (hx : x ∈ t.leaves) : ∃ proof, fold H x proof = t.root H := by
  obtain ⟨p, rfl⟩ := exists_position hx
  exact ⟨p.siblings H, fold_siblings hsymm p⟩

/-! ## Perfect trees -/

/-- All leaves of the tree stand at one depth. -/
inductive Perfect : ℕ → PairTree α → Prop where
  | leaf (a : α) : Perfect 0 (leaf a)
  | node {n : ℕ} {l r : PairTree α} (hl : Perfect n l) (hr : Perfect n r) :
      Perfect (n + 1) (node l r)

/-- **The proofs of full length.**  In a perfect tree a proof as long as the tree is deep is
the list of siblings of a position, and the value that it proves is the one there. -/
theorem exists_position_of_fold {n : ℕ} {t : PairTree α} (ht : Perfect n t)
    (hbind : t.Binding H) {x : α} {proof : List α} (hlen : proof.length = n)
    (h : fold H x proof = t.root H) :
    ∃ p : Position t, p.value = x ∧ p.siblings H = proof := by
  induction ht generalizing proof with
  | leaf a =>
      obtain rfl := List.length_eq_zero_iff.mp hlen
      exact ⟨.here a, h.symm, rfl⟩
  | @node n l r hl hr ihl ihr =>
      obtain ⟨hpair, hbindl, hbindr⟩ := hbind
      -- the last sibling is the one just below the root
      rcases List.eq_nil_or_concat proof with rfl | ⟨q, y, rfl⟩
      · cases hlen
      · rw [List.concat_eq_append] at hlen h ⊢
        rw [List.length_append, List.length_singleton] at hlen
        have hq : q.length = n := by omega
        rw [fold_concat] at h
        rcases hpair _ _ h with ⟨hfold, rfl⟩ | ⟨hfold, rfl⟩
        · obtain ⟨p, hx, hp⟩ := ihl hbindl hq hfold
          exact ⟨.left r p, hx, congrArg (· ++ [r.root H]) hp⟩
        · obtain ⟨p, hx, hp⟩ := ihr hbindr hq hfold
          exact ⟨.right l p, hx, congrArg (· ++ [l.root H]) hp⟩

end PairTree
