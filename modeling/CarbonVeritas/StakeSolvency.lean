/-
# Solvency of the stakes

The contract pays every stake out of one balance, which also holds what it has slashed and
what others have sent to it.  `Books` is the invariant behind the accounts: the balance is the
sum of these parts, and what a verifier has deposited is what it got back, what it lost and
what it still has at stake.

`stake_solvency` : the books are right in every run, so that every stake can be paid out and
what was slashed stays.
-/
import CarbonVeritas.StakeRuns

namespace CarbonVeritas

open Transition

namespace VerifierStake

/-! ## One call and one record -/

/-- The slashes of `v` since its latest registration, after one more call. -/
def countSlash (v : Address) (n : ℕ) : Option Call → ℕ
  | some (.register u) => if u = v then 0 else n
  | some (.slash _ u _) => if u = v then n + 1 else n
  | _ => n

/-- A record after `n` slashes, at a time. -/
structure Standing (n now : ℕ) (record : Verifier) : Prop where
  nonneg : 0 ≤ record.totalStaked
  reputation : record.reputationScore = 100 - 10 * n
  registered : record.registeredAt ≤ now

variable {T : Type} {host : StakeHost T} {env : Env} {s s' : VerifierStake} {t t' : T}
  {call : Call} {v : Address} {record : Verifier}

/-- A call of another verifier does not count. -/
theorem countSlash_of_ne (hv : call.verifier ≠ some v) (n : ℕ) :
    countSlash v n (some call) = n := by
  cases call with
  | register u => exact if_neg fun h => hv (congrArg some h)
  | slash _ u _ => exact if_neg fun h => hv (congrArg some h)
  | _ => rfl

/-- Every call keeps the standing of a verifier, with the slashes counted. -/
theorem StakeChange.standing (h : StakeChange host env s t s' t' call) {n now : ℕ}
    (hnow : now ≤ env.timestamp)
    (hold : ∀ record, s.verifiers v = some record → Standing n now record)
    (hrecord : s'.verifiers v = some record) :
    Standing (countSlash v n (some call)) env.timestamp record := by
  cases h.record hrecord with
  | other hcall hrecord =>
      rw [countSlash_of_ne hcall]
      obtain ⟨hnonneg, hreputation, hregistered⟩ := hold record hrecord
      exact ⟨hnonneg, hreputation, Nat.le_trans hregistered hnow⟩
  | register _ =>
      rw [countSlash, if_pos rfl]
      exact ⟨Int.le_of_lt minStakeAmount_pos, rfl, Nat.le_refl _⟩
  | @stake r amount hpos hr =>
      obtain ⟨hnonneg, hreputation, hregistered⟩ := hold r hr
      refine ⟨?_, hreputation, Nat.le_trans hregistered hnow⟩
      show 0 ≤ r.totalStaked + amount
      omega
  | @slash r _ amount hpos hr hle =>
      obtain ⟨hnonneg, hreputation, hregistered⟩ := hold r hr
      rw [countSlash, if_pos rfl]
      refine ⟨?_, ?_, Nat.le_trans hregistered hnow⟩
      · show 0 ≤ r.totalStaked - amount
        omega
      · show r.reputationScore - 10 = 100 - 10 * (n + 1)
        omega
  | @heartbeat r hr =>
      obtain ⟨hnonneg, hreputation, hregistered⟩ := hold r hr
      exact ⟨hnonneg, hreputation, Nat.le_trans hregistered hnow⟩

/-- Nothing is stored before `init`. -/
def Unset (s : VerifierStake) : Prop :=
  s.admin = none → s.asset = none ∧ ∀ v, s.verifiers v = none

/-- Every call keeps the storage empty until there is an admin. -/
theorem StakeChange.unset (h : StakeChange host env s t s' t' call) (hunset : Unset s) :
    Unset s' := by
  intro hadmin
  -- a call that needs the asset or a record
  have habsurd : s'.admin = s.admin → (∀ a, s.asset = some a → False) ∧
      ∀ v r, s.verifiers v = some r → False := by
    intro hsame
    rw [hsame] at hadmin
    obtain ⟨hasset, hverifiers⟩ := hunset hadmin
    refine ⟨fun a ha => ?_, fun v r hr => ?_⟩
    · rw [hasset] at ha
      cases ha
    · rw [hverifiers v] at hr
      cases hr
  cases h with
  | keep hs _ _ =>
      rw [hs] at hadmin ⊢
      exact hunset hadmin
  | init _ hs _ =>
      rw [hs] at hadmin
      cases hadmin
  | register _ _ hasset _ hs => exact ((habsurd (by rw [hs]; rfl)).1 _ hasset).elim
  | stake _ _ hr _ _ hs => exact ((habsurd (by rw [hs]; rfl)).2 _ _ hr).elim
  | slash _ _ _ hr _ hs _ => exact ((habsurd (by rw [hs]; rfl)).2 _ _ hr).elim
  | unregister _ hr _ _ _ hs => exact ((habsurd (by rw [hs]; rfl)).2 _ _ hr).elim
  | heartbeat _ hr hs _ => exact ((habsurd (by rw [hs]; rfl)).2 _ _ hr).elim

/-- The asset is stored once. -/
theorem StakeChange.asset (h : StakeChange host env s t s' t' call) (hunset : Unset s)
    {a : Address} (ha : s.asset = some a) : s'.asset = some a := by
  cases h with
  | keep hs _ _ => rwa [hs]
  | init hnone _ _ =>
      rw [(hunset hnone).1] at ha
      cases ha
  | register _ _ _ _ hs => rwa [hs]
  | stake _ _ _ _ _ hs => rwa [hs]
  | slash _ _ _ _ _ hs _ => rwa [hs]
  | unregister _ _ _ _ _ hs => rwa [hs]
  | heartbeat _ _ hs _ => rwa [hs]

/-- No slash is negative. -/
theorem StakeChange.slashing_nonneg (h : StakeChange host env s t s' t' call) :
    0 ≤ call.slashing := by
  cases h with
  | keep _ _ hread =>
      rcases hread with ⟨_, rfl⟩ | ⟨_, rfl⟩ | rfl <;> exact Int.le_refl 0
  | slash _ _ hpos _ _ _ _ => exact Int.le_of_lt hpos
  | _ => exact Int.le_refl 0

end VerifierStake

namespace StakeLedger

variable {T : Type} {host : StakeHost T} {w w' : StakeLedger T} {tx : StakeTx host}
  {hist : List (StakeLedger T × StakeTx host)}

/-! ## Sums over a history -/

/-- The sum of an amount of the accepted calls. -/
def sumOf (host : StakeHost T) (f : VerifierStake → VerifierStake.Call → ℤ)
    (hist : List (StakeLedger T × StakeTx host)) : ℤ :=
  (hist.map fun p => (accepted host p.1 p.2).elim 0 (f p.1.contract)).sum

/-- One more transaction adds its amount, if it is accepted. -/
theorem sumOf_concat (f : VerifierStake → VerifierStake.Call → ℤ)
    (hist : List (StakeLedger T × StakeTx host)) (w : StakeLedger T) (tx : StakeTx host) :
    sumOf host f (hist ++ [(w, tx)]) =
      sumOf host f hist + (accepted host w tx).elim 0 (f w.contract) :=
  sum_map_concat _ _ _

/-- The amount of the calls that write the record of `v`. -/
def only (v : Address) (f : VerifierStake → VerifierStake.Call → ℤ) (s : VerifierStake)
    (call : VerifierStake.Call) : ℤ :=
  if call.verifier = some v then f s call else 0

/-- What `v` has deposited, over all its registrations. -/
def deposited (host : StakeHost T) (v : Address) (hist : List (StakeLedger T × StakeTx host)) :
    ℤ :=
  sumOf host (only v fun _ call => call.deposit) hist

/-- What `v` has been paid out, over all its registrations. -/
def withdrawn (host : StakeHost T) (v : Address) (hist : List (StakeLedger T × StakeTx host)) :
    ℤ :=
  sumOf host (only v fun s call => call.payout s) hist

/-- What was slashed from `v`, over all its registrations. -/
def slashedFrom (host : StakeHost T) (v : Address)
    (hist : List (StakeLedger T × StakeTx host)) : ℤ :=
  sumOf host (only v fun _ call => call.slashing) hist

/-- What was slashed from all verifiers. -/
def slashed (host : StakeHost T) (hist : List (StakeLedger T × StakeTx host)) : ℤ :=
  sumOf host (fun _ call => call.slashing) hist

/-- What a transaction adds to the balance of the contract without a call of it. -/
def donation (host : StakeHost T) (balance : T → Address → Address → ℤ) (asset : Address)
    (w : StakeLedger T) : StakeTx host → ℤ
  | .call _ _ _ => 0
  | .other _ tokens => balance tokens asset host.address - balance w.tokens asset host.address

/-- The direct donations. -/
def donated (host : StakeHost T) (balance : T → Address → Address → ℤ) (asset : Address)
    (hist : List (StakeLedger T × StakeTx host)) : ℤ :=
  (hist.map fun p => donation host balance asset p.1 p.2).sum

/-- One more transaction adds what it donates. -/
theorem donated_concat (balance : T → Address → Address → ℤ) (asset : Address)
    (hist : List (StakeLedger T × StakeTx host)) (w : StakeLedger T) (tx : StakeTx host) :
    donated host balance asset (hist ++ [(w, tx)]) =
      donated host balance asset hist + donation host balance asset w tx :=
  sum_map_concat _ _ _

/-- The slashes of `v` since its latest registration. -/
def slashes (host : StakeHost T) (v : Address) (hist : List (StakeLedger T × StakeTx host)) : ℕ :=
  hist.foldl (fun n p => VerifierStake.countSlash v n (accepted host p.1 p.2)) 0

/-- The records after one more transaction. -/
theorem standing_apply
    (h : ∀ v record, w.contract.verifiers v = some record →
      VerifierStake.Standing (slashes host v hist) w.now record) (htime : TimeFlows w tx)
    {v : Address} {record : Verifier}
    (hrecord : (apply host w tx).contract.verifiers v = some record) :
    VerifierStake.Standing (slashes host v (hist ++ [(w, tx)])) (apply host w tx).now record := by
  rw [apply_now, slashes, List.foldl_concat]
  cases hcall : accepted host w tx with
  | none =>
      rw [contract_of_not_accepted hcall] at hrecord
      obtain ⟨hnonneg, hreputation, hregistered⟩ := h v record hrecord
      exact ⟨hnonneg, hreputation, Nat.le_trans hregistered htime⟩
  | some call =>
      obtain ⟨env, htimestamp, -, hchange⟩ := change_of_accepted hcall
      rw [← htimestamp]
      refine hchange.standing ?_ (h v) hrecord
      rw [htimestamp]
      exact htime

/-! ## The books -/

/-- The accounts after the steps `hist`, which started with the tokens `t₀`. -/
structure Books (host : StakeHost T) (balance : T → Address → Address → ℤ) (t₀ : T)
    (hist : List (StakeLedger T × StakeTx host)) (w : StakeLedger T) : Prop where
  /-- `v_list` holds the registered verifiers, each once -/
  lists : Roster.Lists w.contract.vList w.contract.verifiers
  unset : w.contract.Unset
  record : ∀ v record, w.contract.verifiers v = some record →
    VerifierStake.Standing (slashes host v hist) w.now record
  account : ∀ v, deposited host v hist =
    withdrawn host v hist + slashedFrom host v hist + w.contract.stakeOf v
  /-- the balance of the contract in the stored asset, and in every asset before `init` -/
  pot : ∀ asset, (∀ a, w.contract.asset = some a → a = asset) →
    balance w.tokens asset host.address = balance t₀ asset host.address +
      donated host balance asset hist + w.contract.totalStake + slashed host hist

/-- Before the first transaction the books are empty. -/
theorem books_genesis (host : StakeHost T) (balance : T → Address → Address → ℤ) (t₀ : T) :
    Books host balance t₀ [] (genesis t₀) where
  lists := ⟨List.nodup_nil, fun a => by simp [genesis]⟩
  unset _ := ⟨rfl, fun _ => rfl⟩
  record := nofun
  account _ := rfl
  pot asset _ := by
    show balance t₀ asset host.address = balance t₀ asset host.address + 0 + 0 + 0
    omega

variable {balance : T → Address → Address → ℤ} {t₀ : T}

/-- A transaction without an accepted call. -/
theorem Books.idle (h : Books host balance t₀ hist w) (htime : TimeFlows w tx)
    (hnone : accepted host w tx = none) :
    Books host balance t₀ (hist ++ [(w, tx)]) (apply host w tx) := by
  have hcontract := contract_of_not_accepted hnone
  have hsum : ∀ f, sumOf host f (hist ++ [(w, tx)]) = sumOf host f hist := by
    intro f
    rw [sumOf_concat, hnone]
    exact Int.add_zero _
  refine ⟨?_, ?_, ?_, ?_, ?_⟩
  · rw [hcontract]
    exact h.lists
  · rw [hcontract]
    exact h.unset
  · exact fun v record hrecord => standing_apply h.record htime hrecord
  · intro v
    rw [hcontract, deposited, withdrawn, slashedFrom, hsum, hsum, hsum]
    exact h.account v
  · rw [hcontract, slashed, hsum]
    intro asset hasset
    have hpot := h.pot asset hasset
    rw [donated_concat]
    have hstep := apply_step host w tx
    rw [hnone] at hstep
    cases hstep with
    | refused _ htokens =>
        rw [htokens, hpot, slashed]
        simp only [donation]
        omega
    | other _ htokens =>
        rw [htokens]
        simp only [donation, slashed] at hpot ⊢
        omega

/-- An accepted call. -/
theorem Books.call (h : Books host balance t₀ hist w)
    (hexact : ExactTransfer host.tokenTransfer balance) (htime : TimeFlows w tx)
    {call : VerifierStake.Call} (hcall : accepted host w tx = some call) :
    Books host balance t₀ (hist ++ [(w, tx)]) (apply host w tx) := by
  obtain ⟨env, -, hself, hchange⟩ := change_of_accepted hcall
  have hsum : ∀ f, sumOf host f (hist ++ [(w, tx)]) = sumOf host f hist + f w.contract call := by
    intro f
    rw [sumOf_concat, hcall]
    rfl
  refine ⟨hchange.lists h.lists, hchange.unset h.unset, ?_, ?_, ?_⟩
  · exact fun v record hrecord => standing_apply h.record htime hrecord
  · intro v
    have haccount := h.account v
    simp only [deposited, withdrawn, slashedFrom, hsum] at haccount ⊢
    -- the account of the caller moves, the others stay
    by_cases hv : call.verifier = some v
    · rw [hchange.stakeOf_self hv]
      simp only [only, if_pos hv]
      omega
    · rw [VerifierStake.stakeOf_congr (hchange.verifiers_of_ne hv)]
      simp only [only, if_neg hv]
      omega
  · intro asset hasset
    have hasset₀ : ∀ a, w.contract.asset = some a → a = asset := fun a ha =>
      hasset a (hchange.asset h.unset ha)
    have hpot := h.pot asset hasset₀
    have hbalance := hchange.balance hexact hself hasset₀
    have htotal := hchange.totalStake h.lists
    have hdonation : donation host balance asset w tx = 0 := by
      cases tx with
      | call _ _ _ => rfl
      | other _ _ => cases hcall
    rw [donated_concat, hdonation, hbalance, htotal]
    simp only [slashed, hsum] at hpot ⊢
    omega

/-- Every transaction keeps the books. -/
theorem Books.step (h : Books host balance t₀ hist w)
    (hexact : ExactTransfer host.tokenTransfer balance) (htime : TimeFlows w tx) :
    Books host balance t₀ (hist ++ [(w, tx)]) (apply host w tx) := by
  cases hcall : accepted host w tx with
  | none => exact h.idle htime hcall
  | some call => exact h.call hexact htime hcall

/-- In every run the books are kept. -/
theorem books_run (hexact : ExactTransfer host.tokenTransfer balance) {tokens : T}
    {ts : List (StakeTx host)} (htime : Always (apply host) TimeFlows (genesis tokens) ts) :
    Books host balance tokens (steps (apply host) (genesis tokens) ts)
      (run (apply host) (genesis tokens) ts) :=
  history_invariant (books_genesis host balance tokens) (fun _ _ _ h htx => h.step hexact htx)
    htime

/-! ## Solvency -/

/-- The stakes are nonnegative, so each is at most their total. -/
theorem Books.stake_le (h : Books host balance t₀ hist w) {v : Address} {record : Verifier}
    (hrecord : w.contract.verifiers v = some record) :
    0 ≤ record.totalStaked ∧ record.totalStaked ≤ w.contract.totalStake :=
  ⟨(h.record v record hrecord).nonneg,
    Roster.le_total h.lists (fun u r hr => (h.record u r hr).nonneg) hrecord⟩

/-- The total stake is not negative. -/
theorem Books.totalStake_nonneg (h : Books host balance t₀ hist w) :
    0 ≤ w.contract.totalStake :=
  Roster.total_nonneg (fun u r hr => (h.record u r hr).nonneg) _

/-- What is slashed in two parts of a run adds up. -/
theorem slashed_append (us vs : List (StakeLedger T × StakeTx host)) :
    slashed host (us ++ vs) = slashed host us + slashed host vs := by
  unfold slashed sumOf
  rw [List.map_append, List.sum_append]

/-- What is slashed is not negative. -/
theorem slashed_nonneg (hist : List (StakeLedger T × StakeTx host)) : 0 ≤ slashed host hist := by
  refine List.sum_nonneg fun x hx => ?_
  obtain ⟨⟨w, tx⟩, -, rfl⟩ := List.mem_map.mp hx
  cases hcall : accepted host w tx with
  | none => exact Int.le_refl 0
  | some call =>
      obtain ⟨_, _, _, hchange⟩ := change_of_accepted hcall
      exact hchange.slashing_nonneg

/-- What is donated in two parts of a run adds up. -/
theorem donated_append (asset : Address) (us vs : List (StakeLedger T × StakeTx host)) :
    donated host balance asset (us ++ vs) =
      donated host balance asset us + donated host balance asset vs := by
  unfold donated
  rw [List.map_append, List.sum_append]

/-- Donations are not negative when no token takes from the contract. -/
theorem donated_nonneg (asset : Address) {ts : List (StakeTx host)}
    (h : Always (apply host) (KeepsBalance host balance) w ts) :
    0 ≤ donated host balance asset (steps (apply host) w ts) := by
  refine List.sum_nonneg fun x hx => ?_
  obtain ⟨⟨u, tx⟩, hp, rfl⟩ := List.mem_map.mp hx
  have hkeeps := h _ hp
  cases tx with
  | call _ _ _ => exact Int.le_refl 0
  | other _ tokens => exact Int.sub_nonneg_of_le (hkeeps asset)

/-- A stake that the balance covers is paid out after the cooldown. -/
theorem unregister_succeeds (hhonours : HonoursBalance host.tokenTransfer balance) {env : Env}
    {asset v : Address} {record : Verifier} (hasset : w.contract.asset = some asset)
    (hrecord : w.contract.verifiers v = some record) (hnonneg : 0 ≤ record.totalStaked)
    (hcovered : record.totalStaked ≤ balance w.tokens asset host.address)
    (hauth : env.Authorised v) (hover : VerifierStake.CooldownOver env record) :
    ∃ s t, VerifierStake.exec host env w.contract w.tokens (.unregister v) = .ok (s, t) := by
  obtain ⟨t, htransfer⟩ := Option.isSome_iff_exists.mp
    (hhonours w.tokens asset host.address v record.totalStaked hnonneg hcovered)
  have hunregister : VerifierStake.unregister host env w.contract w.tokens v =
      .ok (true, w.contract.unregistered v, t) :=
    VerifierStake.unregister_eq_ok.mpr ⟨hauth, rfl, rfl, record, asset, hrecord, hover, hasset,
      htransfer⟩
  refine ⟨w.contract.unregistered v, t, ?_⟩
  rw [VerifierStake.exec, hunregister]
  rfl

/-- **Stake solvency.**  Let the asset move exactly the requested amount or fail, let no other
transaction take tokens from the contract, and let the time not go back.  Then after every run
the books are right; the balance stays above what the contract started with, was given and has
slashed at any earlier time; it covers every stake, so that after the cooldown an asset that
honours its balances pays every stake out; and no record is newer than a transaction that
finds it. -/
theorem stake_solvency (host : StakeHost T) (balance : T → Address → Address → ℤ)
    (hexact : ExactTransfer host.tokenTransfer balance) (tokens : T) (ts : List (StakeTx host))
    (htime : Always (apply host) TimeFlows (genesis tokens) ts)
    (hothers : Always (apply host) (KeepsBalance host balance) (genesis tokens) ts) :
    Books host balance tokens (steps (apply host) (genesis tokens) ts)
        (run (apply host) (genesis tokens) ts) ∧
      (∀ asset, (run (apply host) (genesis tokens) ts).contract.asset = some asset →
        (∀ us vs, ts = us ++ vs →
          balance tokens asset host.address +
              donated host balance asset (steps (apply host) (genesis tokens) us) +
              slashed host (steps (apply host) (genesis tokens) us) ≤
            balance (run (apply host) (genesis tokens) ts).tokens asset host.address) ∧
        (0 ≤ balance tokens asset host.address → ∀ v record,
          (run (apply host) (genesis tokens) ts).contract.verifiers v = some record →
          record.totalStaked ≤
              balance (run (apply host) (genesis tokens) ts).tokens asset host.address ∧
            (HonoursBalance host.tokenTransfer balance → ∀ env : Env, env.Authorised v →
              VerifierStake.CooldownOver env record →
              ∃ s t, VerifierStake.exec host env (run (apply host) (genesis tokens) ts).contract
                (run (apply host) (genesis tokens) ts).tokens (.unregister v) = .ok (s, t)))) ∧
      ∀ p ∈ steps (apply host) (genesis tokens) ts, ∀ v record,
        p.1.contract.verifiers v = some record → record.registeredAt ≤ p.2.timestamp := by
  have hbooks := books_run hexact htime
  refine ⟨hbooks, fun asset hasset => ⟨?_, ?_⟩, ?_⟩
  · rintro us vs rfl
    have hpot := hbooks.pot asset fun a ha => Option.some.inj (ha.symm.trans hasset)
    have htotal := hbooks.totalStake_nonneg
    have hslashed := slashed_nonneg (steps (apply host) (run (apply host) (genesis tokens) us) vs)
    have hdonated := donated_nonneg asset (always_append.mp hothers).2
    rw [steps_append, slashed_append, donated_append] at hpot
    omega
  · intro hinitial v record hrecord
    have hpot := hbooks.pot asset fun a ha => Option.some.inj (ha.symm.trans hasset)
    have hslashed := slashed_nonneg (steps (apply host) (genesis tokens) ts)
    have hdonated := donated_nonneg asset hothers
    obtain ⟨hnonneg, hle⟩ := hbooks.stake_le hrecord
    -- the pot holds at least the stakes of all verifiers
    have hcovered : record.totalStaked ≤
        balance (run (apply host) (genesis tokens) ts).tokens asset host.address := by
      omega
    exact ⟨hcovered, fun hhonours env hauth hover =>
      unregister_succeeds hhonours hasset hrecord hnonneg hcovered hauth hover⟩
  · rintro ⟨w, tx⟩ hp v record hrecord
    obtain ⟨us, vs, rfl, hw⟩ := (mem_steps_iff _ _ _ _).mp hp
    have hregistered := ((books_run hexact (always_append.mp htime).1).record v record
      (by rw [← hw]; exact hrecord)).registered
    rw [← hw] at hregistered
    exact Nat.le_trans hregistered (htime _ hp)

/-- Account 1 is slashed by 1000 of its stake; the 1000 stay. -/
theorem stake_solvency_slashed :
    Sample.stakeBalances Sample.stakeAsset Sample.stakeHost.address +
        donated Sample.stakeHost (fun t => t) Sample.stakeAsset
          (steps (apply Sample.stakeHost) (genesis Sample.stakeBalances) (Sample.stakeSetup ++
            [Sample.stakeCall 0 20 (.slash (.account 0) (.account 1) 1000)])) +
        slashed Sample.stakeHost
          (steps (apply Sample.stakeHost) (genesis Sample.stakeBalances) (Sample.stakeSetup ++
            [Sample.stakeCall 0 20 (.slash (.account 0) (.account 1) 1000)])) ≤
      (run (apply Sample.stakeHost) (genesis Sample.stakeBalances) (Sample.stakeSetup ++
        [Sample.stakeCall 0 20 (.slash (.account 0) (.account 1) 1000)])).tokens
        Sample.stakeAsset Sample.stakeHost.address :=
  ((stake_solvency Sample.stakeHost (fun t => t) Sample.transfer_exact Sample.stakeBalances
    (Sample.stakeSetup ++ [Sample.stakeCall 0 20 (.slash (.account 0) (.account 1) 1000)])
    (always_timeFlows (by decide)) (always_keepsBalance (by rfl) _)).2.1 Sample.stakeAsset
    (by rfl)).1 _ [] (by rfl)

end StakeLedger

end CarbonVeritas
