/-
# A vote with two thresholds

A motion is accepted by `a` ayes or rejected by `n` noes, whichever comes first, and the
ballots cast after that are not counted (`tally`).  Stopping early makes the count depend on
the order of the ballots; the outcome does not depend on it as long as fewer than `a + n`
ballots are cast, since then only one of the two thresholds is within reach:

* `outcome_tally` : the outcome is that of the full count;
* `outcome_tally_perm` : hence the order of the ballots does not matter;
* `Sound` : a decided count has reached its threshold exactly, and an open one neither.
-/
import Mathlib.Data.Bool.Count
import Mathlib.Data.List.Induction
import Mathlib.Tactic.Common

namespace QuorumVote

/-- The ballots counted so far. -/
@[ext] structure Tally where
  ayes : ℕ := 0
  noes : ℕ := 0
  deriving DecidableEq, Repr

/-- One more ballot. -/
def Tally.add (x : Tally) : Bool → Tally
  | true => { x with ayes := x.ayes + 1 }
  | false => { x with noes := x.noes + 1 }

/-- The count of a list of ballots, all of them. -/
def fullCount (bs : List Bool) : Tally where
  ayes := bs.count true
  noes := bs.count false

variable (a n : ℕ)

/-- `some true` if the motion is accepted, `some false` if it is rejected. -/
def outcome (x : Tally) : Option Bool :=
  if a ≤ x.ayes then some true else if n ≤ x.noes then some false else none

/-- A ballot counts while the motion is open. -/
def castBallot (x : Tally) (b : Bool) : Tally :=
  match outcome a n x with
  | none => x.add b
  | some _ => x

/-- The count of a list of ballots that stops at a threshold. -/
def tally (bs : List Bool) : Tally := bs.foldl (castBallot a n) {}

variable {a n} {x : Tally} {bs : List Bool}

/-! ## One ballot -/

/-- The vote is open while neither side has enough. -/
theorem outcome_eq_none : outcome a n x = none ↔ x.ayes < a ∧ x.noes < n := by
  unfold outcome
  split_ifs with h₁ h₂
  · simp
    omega
  · simp
    omega
  · simp
    omega

/-- The ayes decide when there are enough of them. -/
theorem outcome_eq_true : outcome a n x = some true ↔ a ≤ x.ayes := by
  unfold outcome
  split_ifs with h₁ h₂
  · simp [h₁]
  · simp [h₁]
  · simp [h₁]

/-- The noes decide when there are enough of them and not of the ayes. -/
theorem outcome_eq_false : outcome a n x = some false ↔ x.ayes < a ∧ n ≤ x.noes := by
  unfold outcome
  split_ifs with h₁ h₂
  · simp
    omega
  · simp [h₂]
    omega
  · simp [h₂]

/-- A ballot counts while the vote is open. -/
theorem castBallot_of_open (h : outcome a n x = none) (b : Bool) :
    castBallot a n x b = x.add b := by
  simp only [castBallot, h]

/-- A ballot does not count after the decision. -/
theorem castBallot_of_decided {d : Bool} (h : outcome a n x = some d) (b : Bool) :
    castBallot a n x b = x := by
  simp only [castBallot, h]

/-- A ballot on an open count either decides for its own side, or leaves the count open. -/
theorem outcome_add (hopen : outcome a n x = none) (b : Bool) :
    outcome a n (x.add b) = some b ∨ outcome a n (x.add b) = none := by
  obtain ⟨hayes, hnoes⟩ := outcome_eq_none.mp hopen
  cases b with
  | true =>
      rw [outcome_eq_true, outcome_eq_none]
      show a ≤ x.ayes + 1 ∨ x.ayes + 1 < a ∧ x.noes < n
      omega
  | false =>
      rw [outcome_eq_false, outcome_eq_none]
      show (x.ayes < a ∧ n ≤ x.noes + 1) ∨ x.ayes < a ∧ x.noes + 1 < n
      omega

/-- The full count counts every ballot. -/
theorem fullCount_concat (bs : List Bool) (b : Bool) :
    fullCount (bs ++ [b]) = (fullCount bs).add b := by
  cases b with
  | true => simp [fullCount, Tally.add]
  | false => simp [fullCount, Tally.add]

/-- The tally counts one ballot after the other. -/
theorem tally_concat (bs : List Bool) (b : Bool) :
    tally a n (bs ++ [b]) = castBallot a n (tally a n bs) b := by
  unfold tally
  rw [List.foldl_append]
  rfl

/-! ## Exact counts -/

/-- A count that has stopped in time: no threshold is passed, and at most one is reached. -/
structure Sound (a n : ℕ) (x : Tally) : Prop where
  ayes : x.ayes ≤ a
  noes : x.noes ≤ n
  one : x.ayes + x.noes < a + n

/-- The empty tally is sound. -/
theorem sound_zero (ha : 0 < a) : Sound a n {} where
  ayes := Nat.zero_le a
  noes := Nat.zero_le n
  one := by
    show 0 + 0 < a + n
    omega

/-- A ballot keeps the tally sound while the vote is open. -/
theorem Sound.add (h : outcome a n x = none) (b : Bool) : Sound a n (x.add b) := by
  obtain ⟨hayes, hnoes⟩ := outcome_eq_none.mp h
  cases b with
  | true =>
      refine ⟨hayes, Nat.le_of_lt hnoes, ?_⟩
      show x.ayes + 1 + x.noes < a + n
      omega
  | false =>
      refine ⟨Nat.le_of_lt hayes, hnoes, ?_⟩
      show x.ayes + (x.noes + 1) < a + n
      omega

/-- An open count is one ballot short of the most that can be counted. -/
theorem Sound.open_count (h : outcome a n x = none) : x.ayes + x.noes + 2 ≤ a + n := by
  have hshort := outcome_eq_none.mp h
  omega

/-- An accepted vote has just enough ayes. -/
theorem Sound.accepted (h : Sound a n x) (hx : outcome a n x = some true) :
    x.ayes = a ∧ x.noes < n := by
  have hreached := outcome_eq_true.mp hx
  have hle := h.ayes
  have hone := h.one
  omega

/-- A rejected vote has just enough noes. -/
theorem Sound.rejected (h : Sound a n x) (hx : outcome a n x = some false) :
    x.noes = n ∧ x.ayes < a := by
  have hreached := outcome_eq_false.mp hx
  have hle := h.noes
  omega

/-! ## The order of the ballots -/

/-- The early count is part of the full count, and all of it while the motion is open. -/
theorem tally_le (bs : List Bool) :
    (tally a n bs).ayes ≤ bs.count true ∧ (tally a n bs).noes ≤ bs.count false ∧
      (outcome a n (tally a n bs) = none → tally a n bs = fullCount bs) := by
  induction bs using List.reverseRecOn with
  | nil => exact ⟨Nat.le_refl 0, Nat.le_refl 0, fun _ => rfl⟩
  | append_singleton bs b ih =>
      obtain ⟨hayes, hnoes, hopen⟩ := ih
      rw [tally_concat]
      cases hx : outcome a n (tally a n bs) with
      | some d =>
          rw [castBallot_of_decided hx]
          refine ⟨?_, ?_, fun h => ?_⟩
          · rw [List.count_append]
            omega
          · rw [List.count_append]
            omega
          · rw [hx] at h
            cases h
      | none =>
          rw [castBallot_of_open hx, hopen hx]
          rw [← fullCount_concat]
          exact ⟨Nat.le_refl _, Nat.le_refl _, fun _ => rfl⟩

/-- **Early stopping.**  With fewer than `a + n` ballots, the outcome is that of the full
count. -/
theorem outcome_tally (h : bs.length < a + n) :
    outcome a n (tally a n bs) = outcome a n (fullCount bs) := by
  obtain ⟨hayes, hnoes, hopen⟩ := tally_le (a := a) (n := n) bs
  have hlen := List.count_true_add_count_false bs
  cases hx : outcome a n (tally a n bs) with
  | none => rw [← hopen hx, hx]
  | some d =>
      cases d with
      | true =>
          have hreached := outcome_eq_true.mp hx
          exact (outcome_eq_true.mpr (Nat.le_trans hreached hayes)).symm
      | false =>
          -- the noes have reached their threshold, so the ayes cannot
          have hreached := (outcome_eq_false.mp hx).2
          refine (outcome_eq_false.mpr ⟨?_, Nat.le_trans hreached hnoes⟩).symm
          show bs.count true < a
          omega

/-- **Order.**  Two orders of fewer than `a + n` ballots have the same outcome. -/
theorem outcome_tally_perm {bs' : List Bool} (hperm : bs.Perm bs') (h : bs.length < a + n) :
    outcome a n (tally a n bs) = outcome a n (tally a n bs') := by
  have h' : bs'.length < a + n := by rwa [← hperm.length_eq]
  have hcount : fullCount bs = fullCount bs' := by
    unfold fullCount
    rw [hperm.count_eq, hperm.count_eq]
  rw [outcome_tally h, outcome_tally h', hcount]

end QuorumVote
