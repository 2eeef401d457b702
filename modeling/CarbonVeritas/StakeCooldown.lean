/-
# The cooldown of a stake

`unregister` measures the cooldown from the registration.  What `stake` adds later has no
cooldown of its own: it is paid out with the rest, however new it is.

A payout does not say which deposits it returns, so the result is about attributions of the
payout to the deposits of the current registration.

`no_flash_stake_iff` : some attribution takes old deposits only, exactly if the stakes added
within the cooldown are covered by what was slashed since the registration; every attribution
does, exactly if there are no such stakes or nothing is paid.
-/
import CarbonVeritas.StakeSolvency
import CarbonVeritas.Attribution

namespace CarbonVeritas

open Transition Attribution

namespace VerifierStake

/-! ## The deposits of a registration -/

/-- A list of deposits of `v`, with their times, after one more call: a registration starts
it anew with `start`, a stake is added to it. -/
def countDeposit (start : List (ℕ × ℤ)) (v : Address) (time : ℕ) (deposits : List (ℕ × ℤ)) :
    Option Call → List (ℕ × ℤ)
  | some (.register u) => if u = v then start else deposits
  | some (.stake u amount) => if u = v then deposits ++ [(time, amount)] else deposits
  | _ => deposits

/-- What was slashed from `v` since its registration, after one more call. -/
def countSlashed (v : Address) (cut : ℤ) : Option Call → ℤ
  | some (.register u) => if u = v then 0 else cut
  | some (.slash _ u amount) => if u = v then cut + amount else cut
  | _ => cut

variable {T : Type} {host : StakeHost T} {env : Env} {s s' : VerifierStake} {t t' : T}
  {call : Call} {v : Address} {record : Verifier}

theorem countDeposit_of_ne (hv : call.verifier ≠ some v) (start : List (ℕ × ℤ)) (time : ℕ)
    (deposits : List (ℕ × ℤ)) : countDeposit start v time deposits (some call) = deposits := by
  cases call with
  | register u => exact if_neg fun h => hv (congrArg some h)
  | stake u _ => exact if_neg fun h => hv (congrArg some h)
  | _ => rfl

theorem countSlashed_of_ne (hv : call.verifier ≠ some v) (cut : ℤ) :
    countSlashed v cut (some call) = cut := by
  cases call with
  | register u => exact if_neg fun h => hv (congrArg some h)
  | slash _ u _ => exact if_neg fun h => hv (congrArg some h)
  | _ => rfl

/-- The stake of a record is what was deposited since the registration, less what was
slashed. -/
structure Tracked (deposits added : List (ℕ × ℤ)) (cut : ℤ) (record : Verifier) : Prop where
  first : deposits = (record.registeredAt, MIN_STAKE_AMOUNT) :: added
  sum : capacity deposits = record.totalStaked + cut
  pos : ∀ d ∈ added, 0 < d.2
  cut : 0 ≤ cut

theorem StakeChange.tracked (h : StakeChange host env s t s' t' call)
    {deposits added : List (ℕ × ℤ)} {cut : ℤ}
    (hold : ∀ record, s.verifiers v = some record → Tracked deposits added cut record)
    (hrecord : s'.verifiers v = some record) :
    Tracked
      (countDeposit [(env.timestamp, MIN_STAKE_AMOUNT)] v env.timestamp deposits (some call))
      (countDeposit [] v env.timestamp added (some call)) (countSlashed v cut (some call))
      record := by
  cases h.record hrecord with
  | other hcall hrecord =>
      rw [countDeposit_of_ne hcall, countDeposit_of_ne hcall, countSlashed_of_ne hcall]
      exact hold record hrecord
  | register _ =>
      rw [countDeposit, countDeposit, countSlashed, if_pos rfl, if_pos rfl, if_pos rfl]
      exact ⟨rfl, rfl, nofun, Int.le_refl 0⟩
  | @stake r amount hpos hr =>
      obtain ⟨hdeposits, hsum, hadded, hcut⟩ := hold r hr
      rw [countDeposit, countDeposit, if_pos rfl, if_pos rfl]
      refine ⟨?_, ?_, ?_, hcut⟩
      · rw [hdeposits, List.cons_append]
      · rw [capacity_concat, hsum]
        show r.totalStaked + cut + amount = r.totalStaked + amount + cut
        omega
      · intro d hd
        rcases List.mem_append.mp hd with hd | hd
        · exact hadded d hd
        · rw [List.mem_singleton.mp hd]
          exact hpos
  | @slash r _ amount hpos hr _ =>
      obtain ⟨hdeposits, hsum, hadded, hcut⟩ := hold r hr
      rw [countSlashed, if_pos rfl]
      refine ⟨hdeposits, ?_, hadded, by omega⟩
      show capacity deposits = r.totalStaked - amount + (cut + amount)
      omega
  | heartbeat hr =>
      obtain ⟨hdeposits, hsum, hadded, hcut⟩ := hold _ hr
      exact ⟨hdeposits, hsum, hadded, hcut⟩

end VerifierStake

namespace StakeLedger

variable {T : Type} {host : StakeHost T} {w : StakeLedger T} {tx : StakeTx host}
  {hist : List (StakeLedger T × StakeTx host)} {v : Address}

/-! ## The deposits of a run -/

/-- The deposits of `v` since its latest registration, by time and amount. -/
def currentDeposits (host : StakeHost T) (v : Address)
    (hist : List (StakeLedger T × StakeTx host)) : List (ℕ × ℤ) :=
  hist.foldl (fun deposits p =>
    VerifierStake.countDeposit [(p.2.timestamp, MIN_STAKE_AMOUNT)] v p.2.timestamp deposits
      (accepted host p.1 p.2)) []

/-- Those of them that `stake` made. -/
def addedStakes (host : StakeHost T) (v : Address)
    (hist : List (StakeLedger T × StakeTx host)) : List (ℕ × ℤ) :=
  hist.foldl (fun added p =>
    VerifierStake.countDeposit [] v p.2.timestamp added (accepted host p.1 p.2)) []

/-- What was slashed from `v` since its latest registration. -/
def slashedSince (host : StakeHost T) (v : Address)
    (hist : List (StakeLedger T × StakeTx host)) : ℤ :=
  hist.foldl (fun cut p => VerifierStake.countSlashed v cut (accepted host p.1 p.2)) 0

/-- At the time `now`, a deposit has been at stake for less than the cooldown. -/
def Late (now time : ℕ) : Prop := now < time + COOLDOWN_PERIOD_SECONDS

instance (now : ℕ) : DecidablePred (Late now) := fun _ => inferInstanceAs (Decidable (_ < _))

/-- What the history says about a stored record. -/
structure Traced (host : StakeHost T) (hist : List (StakeLedger T × StakeTx host))
    (w : StakeLedger T) : Prop where
  standing : ∀ v record, w.contract.verifiers v = some record →
    VerifierStake.Standing (slashes host v hist) w.now record
  tracked : ∀ v record, w.contract.verifiers v = some record →
    VerifierStake.Tracked (currentDeposits host v hist) (addedStakes host v hist)
      (slashedSince host v hist) record

theorem Traced.step (h : Traced host hist w) (htime : TimeFlows w tx) :
    Traced host (hist ++ [(w, tx)]) (apply host w tx) := by
  refine ⟨fun v record hrecord => standing_apply h.standing htime hrecord, ?_⟩
  intro v record hrecord
  rw [currentDeposits, addedStakes, slashedSince, List.foldl_concat, List.foldl_concat,
    List.foldl_concat]
  cases hcall : accepted host w tx with
  | none =>
      rw [contract_of_not_accepted hcall] at hrecord
      exact h.tracked v record hrecord
  | some call =>
      obtain ⟨env, htimestamp, -, hchange⟩ := change_of_accepted hcall
      rw [← htimestamp]
      exact hchange.tracked (h.tracked v) hrecord

theorem traced_run {tokens : T} {ts : List (StakeTx host)}
    (htime : Always (apply host) TimeFlows (genesis tokens) ts) :
    Traced host (steps (apply host) (genesis tokens) ts) (run (apply host) (genesis tokens) ts) :=
  history_invariant ⟨nofun, nofun⟩ (fun _ _ _ h htx => h.step htx) htime

/-! ## One payout -/

/-- What an accepted `unregister` has found: its record is past the cooldown. -/
theorem unregister_record (hcall : accepted host w tx = some (.unregister v)) :
    ∃ record, w.contract.verifiers v = some record ∧
      COOLDOWN_PERIOD_SECONDS ≤ u64Sub tx.timestamp record.registeredAt := by
  obtain ⟨env, htimestamp, -, hchange⟩ := change_of_accepted hcall
  rw [← htimestamp]
  cases hchange with
  | keep _ _ hread => simp at hread
  | unregister _ hrecord hover _ _ _ => exact ⟨_, hrecord, hover⟩

/-- The accounts of an accepted `unregister`: the registration is old, every deposit is
positive, and the payout is what the slashes have left of the deposits. -/
structure PayoutAccounts (host : StakeHost T) (v : Address)
    (hist : List (StakeLedger T × StakeTx host)) (w : StakeLedger T) (now : ℕ) : Prop where
  first : ∃ time, currentDeposits host v hist = (time, MIN_STAKE_AMOUNT) :: addedStakes host v hist
    ∧ ¬ Late now time
  pos : ∀ d ∈ currentDeposits host v hist, 0 < d.2
  nonneg : 0 ≤ w.contract.stakeOf v
  cut : 0 ≤ slashedSince host v hist
  sum : capacity (currentDeposits host v hist) = w.contract.stakeOf v + slashedSince host v hist

theorem Traced.payoutAccounts (h : Traced host hist w) (htime : TimeFlows w tx)
    (hcall : accepted host w tx = some (.unregister v)) :
    PayoutAccounts host v hist w tx.timestamp := by
  obtain ⟨record, hrecord, hover⟩ := unregister_record hcall
  obtain ⟨hnonneg, -, hregistered⟩ := h.standing v record hrecord
  obtain ⟨hfirst, hsum, hadded, hcut⟩ := h.tracked v record hrecord
  have hstake := VerifierStake.stakeOf_of_some hrecord
  refine ⟨⟨record.registeredAt, hfirst, ?_⟩, ?_, ?_, hcut, ?_⟩
  · -- the subtraction of `unregister` does not wrap
    have hle : record.registeredAt ≤ tx.timestamp := Nat.le_trans hregistered htime
    have helapsed := u64Sub_le hle
    unfold Late
    omega
  · intro d hd
    rw [hfirst] at hd
    rcases List.mem_cons.mp hd with rfl | hd
    · exact minStakeAmount_pos
    · exact hadded d hd
  · rw [hstake]
    exact hnonneg
  · rw [hstake]
    exact hsum

/-- The late deposits are late stakes. -/
theorem PayoutAccounts.late_eq {now : ℕ} (h : PayoutAccounts host v hist w now) :
    ((currentDeposits host v hist).filter fun d => Late now d.1) =
      (addedStakes host v hist).filter fun d => Late now d.1 := by
  obtain ⟨time, hfirst, hold⟩ := h.first
  rw [hfirst, List.filter_cons_of_neg (by simp [hold])]

theorem PayoutAccounts.exists_old_iff {now : ℕ} (h : PayoutAccounts host v hist w now) :
    (∃ parts, Attributes (currentDeposits host v hist) (w.contract.stakeOf v) parts ∧
        Avoids (Late now) (currentDeposits host v hist) parts) ↔
      capacity ((addedStakes host v hist).filter fun d => Late now d.1) ≤
        slashedSince host v hist := by
  rw [exists_avoids_iff (Late now) fun d hd => Int.le_of_lt (h.pos d hd)]
  have hsplit := capacity_filter_add (Late now) (currentDeposits host v hist)
  have hsum := h.sum
  have hnonneg := h.nonneg
  rw [h.late_eq] at hsplit
  omega

theorem PayoutAccounts.forall_old_iff {now : ℕ} (h : PayoutAccounts host v hist w now) :
    (∀ parts, Attributes (currentDeposits host v hist) (w.contract.stakeOf v) parts →
        Avoids (Late now) (currentDeposits host v hist) parts) ↔
      w.contract.stakeOf v = 0 ∨ ∀ d ∈ addedStakes host v hist, ¬ Late now d.1 := by
  have hle : w.contract.stakeOf v ≤ capacity (currentDeposits host v hist) := by
    have hsum := h.sum
    have hcut := h.cut
    omega
  rw [forall_avoids_iff (Late now) h.pos h.nonneg hle]
  obtain ⟨time, hfirst, hold⟩ := h.first
  rw [hfirst]
  simp only [List.forall_mem_cons, hold, not_false_eq_true, true_and]

/-! ## The main theorem -/

/-- **No flash stake.**  Let the time not go back, and let a run accept an `unregister` of `v`.
Some attribution of the payout to the deposits of the current registration takes only deposits
that have been at stake for the cooldown, if and only if the stakes added within the cooldown
are at most what was slashed since the registration; and every attribution does, if and only
if nothing is paid or no stake was added within the cooldown. -/
theorem no_flash_stake_iff (host : StakeHost T) (tokens : T) (ts : List (StakeTx host))
    (htime : Always (apply host) TimeFlows (genesis tokens) ts) :
    ∀ us tx vs, ts = us ++ tx :: vs → ∀ v,
      accepted host (run (apply host) (genesis tokens) us) tx = some (.unregister v) →
      ((∃ parts,
          Attributes (currentDeposits host v (steps (apply host) (genesis tokens) us))
            ((run (apply host) (genesis tokens) us).contract.stakeOf v) parts ∧
          Avoids (Late tx.timestamp)
            (currentDeposits host v (steps (apply host) (genesis tokens) us)) parts) ↔
        capacity ((addedStakes host v (steps (apply host) (genesis tokens) us)).filter
            fun d => Late tx.timestamp d.1) ≤
          slashedSince host v (steps (apply host) (genesis tokens) us)) ∧
      ((∀ parts,
          Attributes (currentDeposits host v (steps (apply host) (genesis tokens) us))
            ((run (apply host) (genesis tokens) us).contract.stakeOf v) parts →
          Avoids (Late tx.timestamp)
            (currentDeposits host v (steps (apply host) (genesis tokens) us)) parts) ↔
        (run (apply host) (genesis tokens) us).contract.stakeOf v = 0 ∨
          ∀ d ∈ addedStakes host v (steps (apply host) (genesis tokens) us),
            ¬ Late tx.timestamp d.1) := by
  rintro us tx vs rfl v hcall
  obtain ⟨hus, hrest⟩ := always_append.mp htime
  have haccounts := (traced_run hus).payoutAccounts (always_cons.mp hrest).1 hcall
  exact ⟨haccounts.exists_old_iff, haccounts.forall_old_iff⟩

end StakeLedger

namespace Sample

/-- Account 1 stakes 500 at time `time` and unregisters when the cooldown of its registration
ends. -/
def stakeLate (time : ℕ) : List (StakeTx stakeHost) :=
  stakeSetup ++ [stakeCall 1 time (.stake (.account 1) 500)]

def unregisterOne : StakeTx stakeHost := stakeCall 1 2592010 (.unregister (.account 1))

end Sample

namespace StakeLedger

/-- A stake made at the time of the registration is old enough. -/
theorem no_flash_stake_early :
    ∃ parts,
      Attributes (currentDeposits Sample.stakeHost (.account 1)
          (steps (apply Sample.stakeHost) (genesis Sample.stakeBalances) (Sample.stakeLate 10)))
        ((run (apply Sample.stakeHost) (genesis Sample.stakeBalances)
          (Sample.stakeLate 10)).contract.stakeOf (.account 1)) parts ∧
      Avoids (Late 2592010) (currentDeposits Sample.stakeHost (.account 1)
        (steps (apply Sample.stakeHost) (genesis Sample.stakeBalances) (Sample.stakeLate 10)))
        parts :=
  (no_flash_stake_iff Sample.stakeHost Sample.stakeBalances
    (Sample.stakeLate 10 ++ [Sample.unregisterOne]) (always_timeFlows (by decide))
    (Sample.stakeLate 10) Sample.unregisterOne [] rfl (.account 1) (by rfl)).1.mpr (by decide)

/-- Account 1 stakes 500 one second before it unregisters, and gets them back: the deposits
that are old enough are 500 short of the payout. -/
theorem flash_stake :
    ¬ ∀ (T : Type) (host : StakeHost T) (tokens : T) (ts : List (StakeTx host)),
      Always (apply host) TimeFlows (genesis tokens) ts →
      ∀ us tx vs, ts = us ++ tx :: vs → ∀ v,
        accepted host (run (apply host) (genesis tokens) us) tx = some (.unregister v) →
        ∃ parts,
          Attributes (currentDeposits host v (steps (apply host) (genesis tokens) us))
            ((run (apply host) (genesis tokens) us).contract.stakeOf v) parts ∧
          Avoids (Late tx.timestamp)
            (currentDeposits host v (steps (apply host) (genesis tokens) us)) parts := by
  intro h
  obtain ⟨parts, hattributes, havoids⟩ := h Sample.Balances Sample.stakeHost Sample.stakeBalances
    (Sample.stakeLate 2592009 ++ [Sample.unregisterOne]) (always_timeFlows (by decide))
    (Sample.stakeLate 2592009) Sample.unregisterOne [] rfl (.account 1) (by rfl)
  have hle := (hattributes.le_capacity havoids).2
  exact absurd hle (by decide)

end StakeLedger

end CarbonVeritas
