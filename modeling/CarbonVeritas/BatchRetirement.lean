/-
# Batches of retirements

`batch_retire` against the same retirements one after the other, each a transaction of its
own in the same ledger (`Tx.single`).  A batch is the loop over `retireItem` and a single call
is one turn of it, so that they go through together and leave the same storage
(`batch_eq_sequence`).

The batch reads the address of the registry before its loop.  An empty batch therefore fails
on a tracker that has not been set up, where a sequence of no calls does nothing.
-/
import CarbonVeritas.IndexPages

namespace CarbonVeritas

open Transition

namespace Tx

variable {T : Type} {ch : Chain T}

/-- One retirement, with the signatures and in the ledger of the transaction. -/
def single (tx : Tx ch) (owner : Address) (input : RetireInput) : Tx ch where
  signers := tx.signers
  external := tx.external
  timestamp := tx.timestamp
  sequence := tx.sequence
  call := .tracker (.retire owner input.creditId input.reason input.beneficiary
    input.accountingPeriod)

@[simp] theorem single_env (tx : Tx ch) (owner : Address) (input : RetireInput) :
    (tx.single owner input).env = tx.env := rfl

@[simp] theorem single_call (tx : Tx ch) (owner : Address) (input : RetireInput) :
    (tx.single owner input).call = .tracker (.retire owner input.creditId input.reason
      input.beneficiary input.accountingPeriod) := rfl

end Tx

namespace World

variable {T : Type} {ch : Chain T} {w w' : World T} {tx : Tx ch} {r owner : Address}
  {inputs : List RetireInput} {records : List RetirementRecord} {t : RetirementTracker}
  {l : Ledger T}

/-! ## One retirement -/

/-- A single call that goes through is one turn of the loop. -/
theorem exec_single (hauth : owner ∈ tx.signers) (hwired : w.tracker.creditRegistry = some r)
    {input : RetireInput} {record : RetirementRecord}
    (hitem : RetirementTracker.retireItem ch tx.env w.tracker w.ledger r owner input =
      .ok (record, t, l)) :
    exec ch w (tx.single owner input) = .ok { w with tracker := t, ledger := l } ∧
      retiredIn ch (w, tx.single owner input) = [record] := by
  have hretire : RetirementTracker.retire ch tx.env w.tracker w.ledger owner input.creditId
      input.reason input.beneficiary input.accountingPeriod = .ok (record, t, l) :=
    RetirementTracker.retire_eq_ok.mpr ⟨tx.env_authorised.mpr hauth, r, hwired, hitem⟩
  have hexec : RetirementTracker.exec ch (tx.single owner input).env w.tracker w.ledger
      (.retire owner input.creditId input.reason input.beneficiary input.accountingPeriod) =
      .ok (t, l) := by
    rw [Tx.single_env, RetirementTracker.exec, hretire]
    rfl
  refine ⟨exec_tracker rfl hexec, ?_⟩
  simp only [retiredIn, Tx.single_call, Tx.single_env, hretire]

/-- And the other way round, on a tracker that is set up. -/
theorem item_of_single {input : RetireInput} (hsucc : Succeeds ch w (tx.single owner input)) :
    ∃ r, w.tracker.creditRegistry = some r ∧ ∃ record t l,
      RetirementTracker.retireItem ch tx.env w.tracker w.ledger r owner input =
        .ok (record, t, l) := by
  obtain ⟨w', hexec⟩ := hsucc
  simp only [exec, Tx.single, RetirementTracker.exec, bind_eq_ok, map_eq_ok, Prod.exists] at hexec
  obtain ⟨t, l, ⟨record, t', l', hretire, -⟩, -⟩ := hexec
  obtain ⟨-, r, hwired, hitem⟩ := RetirementTracker.retire_eq_ok.mp hretire
  exact ⟨r, hwired, record, t', l', hitem⟩

theorem wired_of_item {input : RetireInput} {record : RetirementRecord} {env : Env}
    (hitem : RetirementTracker.retireItem ch env w.tracker w.ledger r owner input =
      .ok (record, t, l)) : t.creditRegistry = w.tracker.creditRegistry := by
  obtain ⟨_, -, -, rfl, -⟩ := RetirementTracker.retireItem_eq_ok.mp hitem
  rfl

/-! ## The loop -/

/-- If the loop goes through, so does every single call, with the same effect. -/
theorem sequence_of_retireAll (hauth : owner ∈ tx.signers)
    (hwired : w.tracker.creditRegistry = some r)
    (hall : RetirementTracker.retireAll ch tx.env r owner inputs w.tracker w.ledger =
      .ok (records, t, l)) :
    Always (apply ch) (Succeeds ch) w (inputs.map (tx.single owner)) ∧
      run (apply ch) w (inputs.map (tx.single owner)) = { w with tracker := t, ledger := l } ∧
      (steps (apply ch) w (inputs.map (tx.single owner))).flatMap (retiredIn ch) = records := by
  induction inputs generalizing w records with
  | nil =>
      obtain ⟨rfl, rfl, rfl⟩ := RetirementTracker.retireAll_nil_eq_ok.mp hall
      exact ⟨always_nil _ _, rfl, rfl⟩
  | cons input inputs ih =>
      obtain ⟨record, t₁, l₁, rest, hitem, hrest, rfl⟩ :=
        RetirementTracker.retireAll_cons_eq_ok.mp hall
      obtain ⟨hexec, hrecord⟩ := exec_single hauth hwired hitem
      have hnext := apply_of_ok hexec
      obtain ⟨hsucc, hrun, hrecords⟩ := ih (w := { w with tracker := t₁, ledger := l₁ })
        ((wired_of_item hitem).trans hwired) hrest
      rw [List.map_cons, always_cons, run_cons, steps_cons, List.flatMap_cons, hnext, hrecord,
        hrecords]
      exact ⟨⟨⟨_, hexec⟩, hsucc⟩, hrun, rfl⟩

/-- If every single call goes through, so does the loop. -/
theorem retireAll_of_sequence (hauth : owner ∈ tx.signers)
    (hwired : w.tracker.creditRegistry = some r)
    (hsucc : Always (apply ch) (Succeeds ch) w (inputs.map (tx.single owner))) :
    ∃ records t l, RetirementTracker.retireAll ch tx.env r owner inputs w.tracker w.ledger =
      .ok (records, t, l) := by
  induction inputs generalizing w with
  | nil => exact ⟨[], _, _, RetirementTracker.retireAll_nil_eq_ok.mpr ⟨rfl, rfl, rfl⟩⟩
  | cons input inputs ih =>
      rw [List.map_cons, always_cons] at hsucc
      obtain ⟨hfirst, hrest⟩ := hsucc
      obtain ⟨r', hwired', record, t₁, l₁, hitem⟩ := item_of_single hfirst
      obtain rfl : r' = r := Option.some.inj (hwired'.symm.trans hwired)
      rw [apply_of_ok (exec_single hauth hwired hitem).1] at hrest
      obtain ⟨records, t, l, hall⟩ := ih (w := { w with tracker := t₁, ledger := l₁ })
        ((wired_of_item hitem).trans hwired) hrest
      exact ⟨_, t, l, RetirementTracker.retireAll_cons_eq_ok.mpr
        ⟨record, t₁, l₁, records, hitem, hall, rfl⟩⟩

/-! ## The main theorem -/

/-- A batch on a tracker that is set up goes through exactly if the loop does. -/
theorem exec_batch_iff (w' : World T)
    (hcall : tx.call = .tracker (.batchRetire owner inputs)) (hauth : owner ∈ tx.signers)
    (hlen : inputs.length ≤ MAX_BATCH_RETIRE) (hwired : w.tracker.creditRegistry = some r) :
    (exec ch w tx = .ok w' ↔ ∃ records t l,
      RetirementTracker.retireAll ch tx.env r owner inputs w.tracker w.ledger =
        .ok (records, t, l) ∧ w' = { w with tracker := t, ledger := l }) ∧
      ∀ records t l, RetirementTracker.retireAll ch tx.env r owner inputs w.tracker w.ledger =
        .ok (records, t, l) → retiredIn ch (w, tx) = records := by
  -- the checks of `batch_retire` pass, so the loop decides
  have hbatch : ∀ records t l,
      RetirementTracker.batchRetire ch tx.env w.tracker w.ledger owner inputs =
        .ok (records, t, l) ↔
      RetirementTracker.retireAll ch tx.env r owner inputs w.tracker w.ledger =
        .ok (records, t, l) := by
    intro records t l
    rw [RetirementTracker.batchRetire_eq_ok]
    constructor
    · rintro ⟨-, -, r', hwired', hall⟩
      obtain rfl : r' = r := Option.some.inj (hwired'.symm.trans hwired)
      exact hall
    · intro hall
      exact ⟨tx.env_authorised.mpr hauth, hlen, r, hwired, hall⟩
  constructor
  · simp only [exec, hcall, RetirementTracker.exec, bind_eq_ok, map_eq_ok, pure_eq_ok, Prod.exists,
      hbatch]
    constructor
    · rintro ⟨t, l, ⟨records, _, _, hall, heq⟩, rfl⟩
      cases heq
      exact ⟨records, t, l, hall, rfl⟩
    · rintro ⟨records, t, l, hall, rfl⟩
      exact ⟨t, l, ⟨records, t, l, hall, rfl⟩, rfl⟩
  · intro records t l hall
    simp only [retiredIn, hcall, (hbatch records t l).mpr hall]

/-- A batch reads the address of the registry. -/
theorem wired_of_batch (hcall : tx.call = .tracker (.batchRetire owner inputs))
    (hsucc : Succeeds ch w tx) : w.tracker.creditRegistry ≠ none := by
  obtain ⟨w', hexec⟩ := hsucc
  simp only [exec, hcall, RetirementTracker.exec, bind_eq_ok, map_eq_ok, Prod.exists] at hexec
  obtain ⟨t, l, ⟨records, t', l', hbatch, -⟩, -⟩ := hexec
  obtain ⟨-, -, r, hwired, -⟩ := RetirementTracker.batchRetire_eq_ok.mp hbatch
  rw [hwired]
  exact Option.some_ne_none r

/-- So does the first of the single calls. -/
theorem wired_of_sequence (hne : inputs ≠ [])
    (hsucc : Always (apply ch) (Succeeds ch) w (inputs.map (tx.single owner))) :
    w.tracker.creditRegistry ≠ none := by
  obtain ⟨input, rest, rfl⟩ := List.exists_cons_of_ne_nil hne
  rw [List.map_cons, always_cons] at hsucc
  obtain ⟨r, hwired, -⟩ := item_of_single hsucc.1
  rw [hwired]
  exact Option.some_ne_none r

/-- **Batches.**  Let the owner have signed a batch of at most 100 retirements, which is not
empty or meets a tracker that is set up.  Then the batch goes through if and only if the
single retirements all go through one after the other; both then leave the same deployment
and return the same records in the same order; and otherwise the batch changes nothing. -/
theorem batch_eq_sequence (ch : Chain T) (w : World T) (tx : Tx ch) (owner : Address)
    (inputs : List RetireInput) (hcall : tx.call = .tracker (.batchRetire owner inputs))
    (hauth : owner ∈ tx.signers) (hlen : inputs.length ≤ MAX_BATCH_RETIRE)
    (hready : inputs ≠ [] ∨ w.tracker.creditRegistry ≠ none) :
    (Succeeds ch w tx ↔
        Always (apply ch) (Succeeds ch) w (inputs.map (tx.single owner))) ∧
      (Succeeds ch w tx →
        apply ch w tx = run (apply ch) w (inputs.map (tx.single owner)) ∧
          retiredIn ch (w, tx) =
            (steps (apply ch) w (inputs.map (tx.single owner))).flatMap (retiredIn ch)) ∧
      (¬ Always (apply ch) (Succeeds ch) w (inputs.map (tx.single owner)) →
        apply ch w tx = w) := by
  have hiff : Succeeds ch w tx ↔
      Always (apply ch) (Succeeds ch) w (inputs.map (tx.single owner)) := by
    cases hwired : w.tracker.creditRegistry with
    | none =>
        -- neither the batch nor the first call finds a registry
        constructor
        · intro hsucc
          exact absurd hwired (wired_of_batch hcall hsucc)
        · intro hsucc
          have hne : inputs ≠ [] := hready.resolve_right fun h => h hwired
          exact absurd hwired (wired_of_sequence hne hsucc)
    | some r =>
        have hbatch := fun w' => (exec_batch_iff w' hcall hauth hlen hwired).1
        constructor
        · rintro ⟨w', hexec⟩
          obtain ⟨records, t, l, hall, -⟩ := (hbatch w').mp hexec
          exact (sequence_of_retireAll hauth hwired hall).1
        · intro hsucc
          obtain ⟨records, t, l, hall⟩ := retireAll_of_sequence hauth hwired hsucc
          exact ⟨_, (hbatch _).mpr ⟨records, t, l, hall, rfl⟩⟩
  refine ⟨hiff, fun hsucc => ?_, fun hfail => apply_of_not_succeeds fun h => hfail (hiff.mp h)⟩
  obtain ⟨r, hwired⟩ := Option.ne_none_iff_exists'.mp (wired_of_batch hcall hsucc)
  obtain ⟨hbatch, hreturned⟩ := exec_batch_iff (apply ch w tx) hcall hauth hlen hwired
  obtain ⟨records, t, l, hall, happly⟩ := hbatch.mp hsucc.exec_eq
  obtain ⟨-, hrun, hrecords⟩ := sequence_of_retireAll hauth hwired hall
  exact ⟨happly.trans hrun.symm, (hreturned records t l hall).trans hrecords.symm⟩

end World

namespace Sample

/-- Account 2 has the active credits 1 and 2. -/
def twoCredits : World Balances :=
  run (World.apply chain) start (setup ++
    [tx 2 11 (.registry registry (.submitCredit (.account 2) metadata [74])),
     tx 1 12 (.registry registry (.approveAndMint (.account 1) 2 []))])

/-- A batch of account 2. -/
def retireBatch (inputs : List RetireInput) : Tx chain :=
  tx 2 13 (.tracker (.batchRetire (.account 2) inputs))

def bothCredits : List RetireInput := [⟨1, [1], [2], [3]⟩, ⟨2, [1], [2], [3]⟩]

/-- Credit 1 comes twice. -/
def creditTwice : List RetireInput := bothCredits ++ [⟨1, [1], [2], [3]⟩]

end Sample

namespace World

/-- A batch of both credits does what two calls do, and one that has a credit twice does nothing. -/
theorem batch_eq_sequence_two :
    apply Sample.chain Sample.twoCredits (Sample.retireBatch Sample.bothCredits) =
        run (apply Sample.chain) Sample.twoCredits
          (Sample.bothCredits.map ((Sample.retireBatch Sample.bothCredits).single (.account 2))) ∧
      apply Sample.chain Sample.twoCredits (Sample.retireBatch Sample.creditTwice) =
        Sample.twoCredits := by
  have hboth := batch_eq_sequence Sample.chain Sample.twoCredits
    (Sample.retireBatch Sample.bothCredits) (.account 2) Sample.bothCredits rfl List.mem_cons_self
    (by decide) (Or.inl nofun)
  have htwice := batch_eq_sequence Sample.chain Sample.twoCredits
    (Sample.retireBatch Sample.creditTwice) (.account 2) Sample.creditTwice rfl List.mem_cons_self
    (by decide) (Or.inl nofun)
  have hsucceeds : Succeeds Sample.chain Sample.twoCredits
      (Sample.retireBatch Sample.bothCredits) := ⟨_, rfl⟩
  have hpanics : ¬ Succeeds Sample.chain Sample.twoCredits
      (Sample.retireBatch Sample.creditTwice) := by
    rintro ⟨w', hexec⟩
    cases hexec
  exact ⟨(hboth.2.1 hsucceeds).1, htwice.2.2 (mt htwice.1.mpr hpanics)⟩

/-- An empty batch fails on a tracker that has not been set up. -/
theorem batch_ne_empty_sequence :
    ¬ ∀ (T : Type) (ch : Chain T) (w : World T) (tx : Tx ch) (owner : Address)
      (inputs : List RetireInput), tx.call = .tracker (.batchRetire owner inputs) →
      owner ∈ tx.signers → inputs.length ≤ MAX_BATCH_RETIRE →
      (Succeeds ch w tx ↔
        Always (apply ch) (Succeeds ch) w (inputs.map (tx.single owner))) := by
  intro h
  obtain ⟨w', hexec⟩ := (h Sample.Balances Sample.chain Sample.start (Sample.retireBatch [])
    (.account 2) [] rfl List.mem_cons_self (by decide)).mpr (always_nil _ _)
  have hpanic : exec Sample.chain Sample.start (Sample.retireBatch []) =
      .error .unwrap := rfl
  rw [hpanic] at hexec
  cases hexec

end World

end CarbonVeritas
