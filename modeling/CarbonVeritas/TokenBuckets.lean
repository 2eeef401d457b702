/-
# Token buckets

A bucket holds at most `capacity` tokens, and a request takes one of them.  The bucket is
refilled when a request comes, with `rate` tokens for every whole interval since the last refill,
and counts the next interval from there: what is left of the interval is lost.

The tokens of a bucket and those that it accrues up to a deadline are its *credit*.  A refill
does not raise the credit (`credit_refill_le`) and a grant costs one token of it, so that a
bucket grants no more than its credit (`length_grantedUntil`), and in a window no more than its
capacity and the tokens of the intervals that the window touches (`length_grantedIn`).
After a pause that fills the bucket, as many requests as its capacity are granted in a row
(`granted_of_idle`).
-/
import CarbonVeritas.TransitionRun
import Mathlib.Algebra.Order.Floor.Div
import Mathlib.GroupTheory.GroupAction.Ring

namespace TokenBuckets

open Transition

structure Policy where
  capacity : ℕ
  /-- the tokens that an interval is worth -/
  rate : ℕ
  interval : ℕ
  rate_pos : 0 < rate
  interval_pos : 0 < interval

theorem Policy.interval_cast_pos (P : Policy) : (0 : ℤ) < P.interval :=
  Int.natCast_pos.mpr P.interval_pos

/-- A bucket: its tokens are never negative, and never more than the capacity. -/
structure Bucket (P : Policy) where
  tokens : ℤ
  filledAt : ℤ
  tokens_nonneg : 0 ≤ tokens
  tokens_le : tokens ≤ P.capacity

namespace Bucket

variable {P : Policy} {b : Bucket P} {now T : ℤ}

/-! ## One bucket -/

/-- The bucket of a client that was not seen before. -/
def full (P : Policy) (now : ℤ) : Bucket P where
  tokens := P.capacity
  filledAt := now
  tokens_nonneg := Int.natCast_nonneg _
  tokens_le := le_rfl

/-- The tokens for the whole intervals since the last refill. -/
def accrued (b : Bucket P) (now : ℤ) : ℤ := (now - b.filledAt) / P.interval * P.rate

def refill (now : ℤ) (b : Bucket P) : Bucket P :=
  if h : 0 < b.accrued now then
    { tokens := min P.capacity (b.tokens + b.accrued now)
      filledAt := now
      tokens_nonneg := le_min (Int.natCast_nonneg _) (add_nonneg b.tokens_nonneg h.le)
      tokens_le := min_le_left _ _ }
  else b

def take (b : Bucket P) : Bucket P :=
  if h : 0 < b.tokens then
    { b with
      tokens := b.tokens - 1
      tokens_nonneg := Int.sub_nonneg_of_le h
      tokens_le := (Int.sub_le_self _ zero_le_one).trans b.tokens_le }
  else b

/-- What a bucket has to grant up to a deadline. -/
def credit (T : ℤ) (b : Bucket P) : ℤ := b.tokens + b.accrued T

/-- While the clock goes forward, nothing is lost. -/
theorem accrued_nonneg (h : b.filledAt ≤ now) : 0 ≤ b.accrued now :=
  mul_nonneg (Int.ediv_nonneg (Int.sub_nonneg_of_le h) (Int.natCast_nonneg _))
    (Int.natCast_nonneg _)

/-- The credit of a bucket is not negative later on. -/
theorem credit_nonneg (h : b.filledAt ≤ T) : 0 ≤ b.credit T :=
  add_nonneg b.tokens_nonneg (accrued_nonneg h)

/-- Taking a token leaves the time of the last fill. -/
@[simp] theorem filledAt_take (b : Bucket P) : b.take.filledAt = b.filledAt := by
  unfold take
  split <;> rfl

/-- A token that is there is taken. -/
theorem tokens_take_of_pos (h : 0 < b.tokens) : b.take.tokens = b.tokens - 1 := by
  unfold take
  rw [dif_pos h]

/-- Nothing is taken from an empty bucket. -/
theorem take_of_not_pos (h : ¬ 0 < b.tokens) : b.take = b := dif_neg h

/-- A refill leaves the time of the last fill, or sets it to now. -/
theorem filledAt_refill (now : ℤ) (b : Bucket P) :
    (b.refill now).filledAt = b.filledAt ∨ (b.refill now).filledAt = now := by
  unfold refill
  split
  · exact Or.inr rfl
  · exact Or.inl rfl

/-- A refill sets no time that is still to come. -/
theorem filledAt_refill_le (h : b.filledAt ≤ now) : (b.refill now).filledAt ≤ now := by
  rcases filledAt_refill now b with hr | hr
  · rwa [hr]
  · rw [hr]

/-- After a refill, less than an interval has passed since the last one. -/
theorem sub_filledAt_refill_lt (now : ℤ) (b : Bucket P) :
    now - (b.refill now).filledAt < P.interval := by
  unfold refill
  split
  · show now - now < P.interval
    rw [sub_self]
    exact P.interval_cast_pos
  case isFalse h =>
    by_contra hle
    have hone : 1 ≤ (now - b.filledAt) / P.interval :=
      (Int.le_ediv_iff_mul_le P.interval_cast_pos).mpr (by omega)
    exact h (mul_pos hone (Int.natCast_pos.mpr P.rate_pos))

/-- A refill loses no tokens. -/
theorem tokens_le_refill (now : ℤ) (b : Bucket P) : b.tokens ≤ (b.refill now).tokens := by
  unfold refill
  split
  case isTrue h => exact le_min b.tokens_le (by omega)
  case isFalse => exact le_rfl

/-- The intervals up to a refill and those from it to the deadline are intervals up to the
deadline. -/
theorem accrued_add_le (now T : ℤ) (b : Bucket P) :
    b.accrued now + (T - now) / P.interval * P.rate ≤ b.accrued T := by
  have hsplit : (now - b.filledAt) / P.interval + (T - now) / P.interval ≤
      (T - b.filledAt) / P.interval := by
    refine (Int.le_ediv_iff_mul_le P.interval_cast_pos).mpr ?_
    have hbefore : (now - b.filledAt) / P.interval * P.interval ≤ now - b.filledAt :=
      Int.ediv_mul_le _ P.interval_cast_pos.ne'
    have hafter : (T - now) / P.interval * P.interval ≤ T - now :=
      Int.ediv_mul_le _ P.interval_cast_pos.ne'
    rw [Int.add_mul]
    omega
  rw [accrued, ← Int.add_mul]
  exact Int.mul_le_mul_of_nonneg_right hsplit (Int.natCast_nonneg _)

/-- **Refills are paid for.**  A refill does not raise the credit. -/
theorem credit_refill_le (now T : ℤ) (b : Bucket P) : (b.refill now).credit T ≤ b.credit T := by
  unfold refill
  split
  · calc min (P.capacity : ℤ) (b.tokens + b.accrued now) + (T - now) / P.interval * P.rate
        ≤ b.tokens + b.accrued now + (T - now) / P.interval * P.rate :=
          Int.add_le_add_right (min_le_right _ _) _
      _ = b.tokens + (b.accrued now + (T - now) / P.interval * P.rate) := Int.add_assoc _ _ _
      _ ≤ b.credit T := Int.add_le_add_left (accrued_add_le now T b) _
  · exact le_rfl

/-- A token that is taken is taken from the credit. -/
theorem credit_take_of_pos (h : 0 < b.tokens) : b.take.credit T = b.credit T - 1 := by
  unfold credit accrued
  rw [tokens_take_of_pos h, filledAt_take]
  omega

/-- What a bucket has at the first request of a window. -/
theorem credit_le {t : ℤ} (hlate : t ≤ now) (hfilled : now - b.filledAt < P.interval) (w : ℕ) :
    b.credit (t + w) ≤ P.capacity + P.rate * (w ⌈/⌉ P.interval : ℕ) := by
  have hintervals : (t + w - b.filledAt) / P.interval ≤ (w ⌈/⌉ P.interval : ℕ) := by
    have hceil : (w : ℤ) ≤ P.interval * (w ⌈/⌉ P.interval : ℕ) := by
      exact_mod_cast le_smul_ceilDiv P.interval_pos
    refine Int.lt_add_one_iff.mp ((Int.ediv_lt_iff_lt_mul P.interval_cast_pos).mpr ?_)
    rw [Int.add_mul, Int.one_mul, Int.mul_comm]
    omega
  have haccrued : b.accrued (t + w) ≤ P.rate * (w ⌈/⌉ P.interval : ℕ) := by
    rw [accrued, Int.mul_comm]
    exact Int.mul_le_mul_of_nonneg_left hintervals (Int.natCast_nonneg _)
  exact Int.add_le_add b.tokens_le haccrued

/-- **A pause fills the bucket.** -/
theorem tokens_refill_of_idle (h : b.filledAt + P.interval * P.capacity ≤ now) :
    (b.refill now).tokens = P.capacity := by
  have hintervals : (P.capacity : ℤ) ≤ (now - b.filledAt) / P.interval :=
    (Int.le_ediv_iff_mul_le P.interval_cast_pos).mpr (by rw [Int.mul_comm]; omega)
  have haccrued : (P.capacity : ℤ) ≤ b.accrued now := by
    have hrate : (1 : ℤ) ≤ P.rate := Int.natCast_pos.mpr P.rate_pos
    calc (P.capacity : ℤ) = P.capacity * 1 := (Int.mul_one _).symm
      _ ≤ (now - b.filledAt) / P.interval * P.rate :=
        mul_le_mul hintervals hrate zero_le_one ((Int.natCast_nonneg _).trans hintervals)
  have hnonneg := b.tokens_nonneg
  have hle := b.tokens_le
  unfold refill
  split
  · exact min_eq_left (by omega)
  · omega

end Bucket

/-! ## The requests of a client -/

variable {P : Policy} {τ : Type*} (now : τ → ℤ)

/-- The bucket of a client when a request looks for a token in it. -/
def found (entry : Option (Bucket P)) (r : τ) : Bucket P :=
  (entry.getD (.full P (now r))).refill (now r)

/-- The bucket of a client after a request. -/
def serve (entry : Option (Bucket P)) (r : τ) : Option (Bucket P) := some (found now entry r).take

def Grants (entry : Option (Bucket P)) (r : τ) : Prop := 0 < (found now entry r).tokens

instance (entry : Option (Bucket P)) (r : τ) : Decidable (Grants now entry r) :=
  inferInstanceAs (Decidable (0 < _))

/-- The grants up to a deadline. -/
def grantedUntil (T : ℤ) (entry : Option (Bucket P)) (rs : List τ) :
    List (Option (Bucket P) × τ) :=
  (steps (serve now) entry rs).filter fun p => Grants now p.1 p.2 ∧ now p.2 ≤ T

/-- The grants in a window, both of its ends included. -/
def grantedIn (t T : ℤ) (entry : Option (Bucket P)) (rs : List τ) :
    List (Option (Bucket P) × τ) :=
  (steps (serve now) entry rs).filter fun p => Grants now p.1 p.2 ∧ t ≤ now p.2 ∧ now p.2 ≤ T

variable {now} {T : ℤ} {entry : Option (Bucket P)} {r : τ} {rs : List τ}

/-- The bucket that is found was filled before now. -/
theorem filledAt_found_le (h : ∀ b ∈ entry, b.filledAt ≤ now r) :
    (found now entry r).filledAt ≤ now r := by
  cases entry with
  | none => exact Bucket.filledAt_refill_le le_rfl
  | some b => exact Bucket.filledAt_refill_le (h b rfl)

/-- **A grant costs a token.**  If the later grants are within the credit that a request leaves,
then so are the grants with that of the request within the credit that it finds. -/
theorem length_grantedUntil_cons (hr : now r ≤ T)
    (hrest : (grantedUntil now T (serve now entry r) rs).length ≤
      (found now entry r).take.credit T) :
    (grantedUntil now T entry (r :: rs)).length ≤ (found now entry r).credit T := by
  unfold grantedUntil at hrest ⊢
  rw [steps_cons, List.filter_cons]
  by_cases hg : Grants now entry r
  · rw [if_pos (decide_eq_true ⟨hg, hr⟩), List.length_cons]
    rw [Bucket.credit_take_of_pos hg] at hrest
    omega
  · rw [if_neg (by rw [decide_eq_true_eq]; exact fun h => hg h.1)]
    rwa [Bucket.take_of_not_pos hg] at hrest

/-- Nothing is granted until a deadline that the clock has passed. -/
theorem grantedUntil_eq_nil (hr : T < now r) (hfirst : ∀ r' ∈ rs, now r ≤ now r') :
    grantedUntil now T entry (r :: rs) = [] := by
  have hlate : Always (serve now) (fun _ r' => T < now r') entry (r :: rs) :=
    always_labels_iff.mpr
      (List.forall_mem_cons.mpr ⟨hr, fun r' hr' => hr.trans_le (hfirst r' hr')⟩)
  refine List.filter_eq_nil_iff.mpr fun p hp => ?_
  rw [decide_eq_true_eq]
  exact fun h => (hlate p hp).not_ge h.2

/-- A bucket grants no more than its credit. -/
theorem length_grantedUntil {b : Bucket P} (hsorted : rs.Pairwise fun r r' => now r ≤ now r')
    (hafter : ∀ r ∈ rs, b.filledAt ≤ now r) (hT : b.filledAt ≤ T) :
    (grantedUntil now T (some b) rs).length ≤ b.credit T := by
  induction rs generalizing b with
  | nil => exact Bucket.credit_nonneg hT
  | cons r rs ih =>
      obtain ⟨hfirst, hsorted⟩ := List.pairwise_cons.mp hsorted
      by_cases hr : now r ≤ T
      · have hfilled : (found now (some b) r).take.filledAt ≤ now r := by
          rw [Bucket.filledAt_take]
          exact Bucket.filledAt_refill_le (hafter r List.mem_cons_self)
        have hrest : (grantedUntil now T (serve now (some b) r) rs).length ≤
            (found now (some b) r).take.credit T :=
          ih hsorted (fun r' hr' => hfilled.trans (hfirst r' hr')) (hfilled.trans hr)
        exact (length_grantedUntil_cons hr hrest).trans (Bucket.credit_refill_le _ _ _)
      · rw [grantedUntil_eq_nil (not_le.mp hr) hfirst]
        exact Bucket.credit_nonneg hT

/-- **The bound of a window.**  A client is granted at most the capacity and the tokens of the
intervals that the window touches. -/
theorem length_grantedIn (hsorted : rs.Pairwise fun r r' => now r ≤ now r')
    (hafter : ∀ b ∈ entry, ∀ r ∈ rs, b.filledAt ≤ now r) (t : ℤ) (w : ℕ) :
    (grantedIn now t (t + w) entry rs).length ≤ P.capacity + P.rate * (w ⌈/⌉ P.interval) := by
  induction rs generalizing entry with
  | nil => exact Nat.zero_le _
  | cons r rs ih =>
      obtain ⟨hfirst, hsorted'⟩ := List.pairwise_cons.mp hsorted
      have hfilled : (found now entry r).take.filledAt ≤ now r := by
        rw [Bucket.filledAt_take]
        exact filledAt_found_le fun b hb => hafter b hb r List.mem_cons_self
      by_cases hr : t ≤ now r
      · -- the first request of the window: all that follow are in it until its end
        have hin : Always (serve now) (fun _ r' => t ≤ now r') entry (r :: rs) :=
          always_labels_iff.mpr (List.forall_mem_cons.mpr
            ⟨hr, fun r' hr' => hr.trans (hfirst r' hr')⟩)
        have huntil : grantedIn now t (t + w) entry (r :: rs) =
            grantedUntil now (t + w) entry (r :: rs) := by
          refine List.filter_congr fun p hp => decide_eq_decide.mpr ?_
          rw [and_iff_right (hin p hp)]
        have hcredit : (found now entry r).credit (t + w) ≤
            P.capacity + P.rate * (w ⌈/⌉ P.interval : ℕ) :=
          Bucket.credit_le hr (Bucket.sub_filledAt_refill_lt _ _) w
        rw [huntil]
        by_cases hend : now r ≤ t + w
        · have hrest : (grantedUntil now (t + w) (serve now entry r) rs).length ≤
              (found now entry r).take.credit (t + w) :=
            length_grantedUntil hsorted' (fun r' hr' => hfilled.trans (hfirst r' hr'))
              (hfilled.trans hend)
          exact_mod_cast (length_grantedUntil_cons hend hrest).trans hcredit
        · rw [grantedUntil_eq_nil (not_le.mp hend) hfirst]
          exact Nat.zero_le _
      · have hout : grantedIn now t (t + w) entry (r :: rs) =
            grantedIn now t (t + w) (serve now entry r) rs :=
          List.filter_cons_of_neg (by rw [decide_eq_true_eq]; exact fun h => hr h.2.1)
        rw [hout]
        refine ih hsorted' fun b hb r' hr' => ?_
        obtain rfl := Option.mem_some_iff.mp hb
        exact hfilled.trans (hfirst r' hr')

/-! ## Requests in a row -/

/-- A client is granted as many requests in a row as the first one finds tokens. -/
theorem granted_of_found {n : ℕ} (h : ∀ r ∈ rs.head?, n ≤ (found now entry r).tokens) :
    ∀ p ∈ (steps (serve now) entry rs).take n, Grants now p.1 p.2 := by
  induction rs generalizing entry n with
  | nil => simp
  | cons r rs ih =>
      cases n with
      | zero => simp
      | succ n =>
          have hfound : (n + 1 : ℤ) ≤ (found now entry r).tokens := h r rfl
          have hg : 0 < (found now entry r).tokens := by omega
          refine List.forall_mem_cons.mpr ⟨hg, ih fun r' _ => ?_⟩
          -- a grant costs one token, and a refill none
          calc (n : ℤ) ≤ (found now entry r).take.tokens := by
                rw [Bucket.tokens_take_of_pos hg]
                omega
            _ ≤ (found now (serve now entry r) r').tokens := Bucket.tokens_le_refill _ _

/-- A bucket was last refilled at one of the requests of its client. -/
theorem exists_filledAt {b : Bucket P} (hb : b ∈ run (serve now) none rs) :
    ∃ r ∈ rs, b.filledAt = now r := by
  induction rs using List.reverseRecOn generalizing b with
  | nil => cases hb
  | append_singleton rs r ih =>
      rw [run_concat] at hb
      obtain rfl := Option.mem_some_iff.mp hb
      have hlast : r ∈ rs ++ [r] := List.mem_append_right rs List.mem_cons_self
      rw [Bucket.filledAt_take, found]
      cases hentry : run (serve now) none rs with
      | none => exact ⟨r, hlast, (Bucket.filledAt_refill _ _).elim id id⟩
      | some b =>
          rcases Bucket.filledAt_refill (now r) b with hfilled | hfilled
          · obtain ⟨r', hr', hb⟩ := ih hentry
            exact ⟨r', List.mem_append_left _ hr', hfilled.trans hb⟩
          · exact ⟨r, hlast, hfilled⟩

/-- After a long pause the bucket that is found is full. -/
theorem capacity_le_found (h : ∀ b ∈ entry, b.filledAt + P.interval * P.capacity ≤ now r) :
    P.capacity ≤ (found now entry r).tokens := by
  cases entry with
  | none => exact Bucket.tokens_le_refill (now r) (.full P (now r))
  | some b => exact (Bucket.tokens_refill_of_idle (h b rfl)).ge

/-- **Requests after a pause.**  A client that has made no request for as long as it takes to
fill the bucket is granted as many requests in a row as the bucket holds. -/
theorem granted_of_idle {before after : List τ}
    (hidle : ∀ r ∈ before, ∀ r' ∈ after, now r + P.interval * P.capacity ≤ now r') :
    ∀ p ∈ (steps (serve now) (run (serve now) (none : Option (Bucket P)) before) after).take
      P.capacity, Grants now p.1 p.2 := by
  refine granted_of_found fun r' hr' => capacity_le_found fun b hb => ?_
  obtain ⟨r, hr, hfilled⟩ := exists_filledAt hb
  rw [hfilled]
  exact hidle r hr r' (List.mem_of_mem_head? hr')

end TokenBuckets
