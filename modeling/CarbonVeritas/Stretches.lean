/-
# Stretches of a sorted list

A list in which a key strictly increases, and its stretches: the elements whose keys lie after
one bound and up to another.  A reader that walks along such a list takes it stretch by
stretch; between two stretches its place may change.

* `filter_le_append_filter_lt`, `append_filter_lt`: what comes up to a bound and what comes
  after it;
* `flatMap_stretch_eq_iff`: non-empty stretches, joined together, are all that comes after a
  given key, each element once and in order, exactly when they tile it (`Tiles`): no element
  lies between the end of one stretch and the beginning of the next, and none is left at the
  end.
-/
import Mathlib.Data.List.Basic
import Mathlib.Order.Lattice

namespace Stretches

variable {α β : Type*} [LinearOrder β] (key : α → β)

/-- The elements after one bound and up to another. -/
def stretch (l : List α) (a b : β) : List α := l.filter fun x => a < key x ∧ key x ≤ b

/-- No element lies between two bounds, whichever of them is the smaller. -/
def Clear (l : List α) (a b : β) : Prop := ∀ x ∈ l, a < key x ↔ b < key x

/-- The stretches, each given by its bounds, follow one another from a bound on to the end. -/
def Tiles (l : List α) : β → List (β × β) → Prop
  | a, [] => ∀ x ∈ l, key x ≤ a
  | a, s :: rest => Clear key l a s.1 ∧ Tiles l s.2 rest

variable {key} {l : List α} {a b c : β}

theorem mem_stretch {x : α} : x ∈ stretch key l a b ↔ x ∈ l ∧ a < key x ∧ key x ≤ b := by
  unfold stretch
  rw [List.mem_filter, decide_eq_true_eq]

theorem mem_filter_lt {x : α} : x ∈ l.filter (fun x => a < key x) ↔ x ∈ l ∧ a < key x := by
  rw [List.mem_filter, decide_eq_true_eq]

theorem Clear.stretch_eq (h : Clear key l a b) : stretch key l a c = stretch key l b c := by
  unfold stretch
  refine List.filter_congr fun x hx => ?_
  rw [decide_eq_decide, h x hx]

/-- A stretch that is not empty ends after it begins. -/
theorem lt_of_stretch_ne_nil (h : stretch key l a b ≠ []) : a < b := by
  obtain ⟨x, hx⟩ := List.exists_mem_of_ne_nil _ h
  obtain ⟨-, hlt, hle⟩ := mem_stretch.mp hx
  exact hlt.trans_le hle

variable (key) in
/-- In a sorted list, the elements up to `c` come before the others. -/
theorem filter_le_append_filter_lt (p : α → Prop) [DecidablePred p] (c : β)
    (h : l.Pairwise fun x y => key x ≤ key y) :
    (l.filter fun x => p x ∧ key x ≤ c) ++ (l.filter fun x => p x ∧ c < key x)
      = l.filter fun x => p x := by
  induction l with
  | nil => rfl
  | cons x l ih =>
      obtain ⟨hle, hl⟩ := List.pairwise_cons.mp h
      by_cases hp : p x
      · by_cases hc : key x ≤ c
        · have hnot : ¬ c < key x := not_lt_of_ge hc
          simp only [List.filter_cons, hp, hc, hnot, and_self, and_false, decide_true,
            decide_false, if_true, if_false, Bool.false_eq_true, List.cons_append, ih hl]
        · -- from here on everything is after `c`
          have hlt : c < key x := lt_of_not_ge hc
          have hnone : (l.filter fun y => p y ∧ key y ≤ c) = [] := by
            rw [List.filter_eq_nil_iff]
            intro y hy
            have hcy : c < key y := lt_of_lt_of_le hlt (hle y hy)
            simp [not_le_of_gt hcy]
          have htail := ih hl
          rw [hnone, List.nil_append] at htail
          simp only [List.filter_cons, hp, hc, hlt, and_self, and_false, decide_true,
            decide_false, if_true, if_false, Bool.false_eq_true, hnone, List.nil_append, htail]
      · simpa [List.filter_cons, hp] using ih hl

/-- What comes after `a` is the stretch up to `b` and then what comes after `b`. -/
theorem append_filter_lt (h : l.Pairwise fun x y => key x < key y) (hab : a ≤ b) :
    stretch key l a b ++ l.filter (fun x => b < key x) = l.filter fun x => a < key x := by
  have hsplit := filter_le_append_filter_lt key (fun x => a < key x) b (h.imp le_of_lt)
  have hafter : (l.filter fun x => a < key x ∧ b < key x) = l.filter fun x => b < key x := by
    refine List.filter_congr fun x _ => ?_
    rw [decide_eq_decide]
    exact ⟨fun hx => hx.2, fun hx => ⟨hab.trans_lt hx, hx⟩⟩
  rw [hafter] at hsplit
  exact hsplit

/-- A first stretch that is not empty begins where the walk stands. -/
theorem clear_of_append_eq (h : l.Pairwise fun x y => key x < key y) {rest : List α}
    (hne : stretch key l b c ≠ []) (happend : stretch key l b c ++ rest
      = l.filter fun x => a < key x) : Clear key l a b := by
  obtain ⟨y, hy⟩ := List.exists_mem_of_ne_nil _ hne
  obtain ⟨-, hby, hyc⟩ := mem_stretch.mp hy
  have hmem : ∀ x, x ∈ stretch key l b c ++ rest → x ∈ l ∧ a < key x := by
    intro x hx
    rw [happend] at hx
    exact mem_filter_lt.mp hx
  have hay := (hmem y (List.mem_append_left _ hy)).2
  have hsorted : (stretch key l b c ++ rest).Pairwise fun x y => key x < key y := by
    rw [happend]
    exact h.sublist List.filter_sublist
  intro x hx
  constructor
  · intro hax
    have hjoined : x ∈ stretch key l b c ++ rest := by
      rw [happend]
      exact mem_filter_lt.mpr ⟨hx, hax⟩
    rcases List.mem_append.mp hjoined with hfirst | hlater
    · exact (mem_stretch.mp hfirst).2.1
    · -- an element of the rest comes after the stretch
      exact hby.trans ((List.pairwise_append.mp hsorted).2.2 y hy x hlater)
  · intro hbx
    by_cases hxc : key x ≤ c
    · exact (hmem x (List.mem_append_left _ (mem_stretch.mpr ⟨hx, hbx, hxc⟩))).2
    · exact hay.trans (hyc.trans_lt (not_le.mp hxc))

/-- **Tiling.**  Stretches that are not empty, joined together, are what comes after `a` if and
only if they tile it. -/
theorem flatMap_stretch_eq_iff (h : l.Pairwise fun x y => key x < key y)
    {spans : List (β × β)} (hne : ∀ s ∈ spans, stretch key l s.1 s.2 ≠ []) :
    (spans.flatMap fun s => stretch key l s.1 s.2) = l.filter (fun x => a < key x)
      ↔ Tiles key l a spans := by
  induction spans generalizing a with
  | nil =>
      rw [List.flatMap_nil, eq_comm, List.filter_eq_nil_iff]
      simp only [decide_eq_true_eq, not_lt]
      exact Iff.rfl
  | cons s spans ih =>
      have hs := hne s List.mem_cons_self
      have hrest := ih (a := s.2) fun t ht => hne t (List.mem_cons_of_mem _ ht)
      rw [List.flatMap_cons]
      -- once the first stretch begins at the right place, what follows it is the tail's matter
      have hafter : Clear key l a s.1 → stretch key l s.1 s.2 ++ l.filter (fun x => s.2 < key x)
          = l.filter fun x => a < key x := by
        intro hclear
        rw [← hclear.stretch_eq] at hs ⊢
        exact append_filter_lt h (lt_of_stretch_ne_nil hs).le
      constructor
      · intro happend
        have hclear := clear_of_append_eq h hs happend
        rw [← hafter hclear] at happend
        exact ⟨hclear, hrest.mp (List.append_cancel_left happend)⟩
      · rintro ⟨hclear, htail⟩
        rw [hrest.mpr htail, hafter hclear]

end Stretches
