/-
# The two retirement records

The status `Retired` in the registry and the record in the tracker are two stores of one
fact.  `retire` and `batch_retire` write both; `bridge_out` retires a credit in the registry
and has no tracker to tell.

`retirements_agree_iff` : the two stores agree about a credit exactly as long as it is not
bridged out.
-/
import CarbonVeritas.RetirementSafety
import Mathlib.Algebra.BigOperators.Group.List.Basic

namespace CarbonVeritas

open Transition

/-- How often a call asks the tracker for the retirement of the credit `c`. -/
def Call.retiresTracked : Call → ℕ → ℕ
  | .tracker call, c => (RetirementTracker.creditIds call.inputs).count c
  | _, _ => 0

/-- How often a call bridges the credit `c` out. -/
def Call.bridgesOut : Call → ℕ → ℕ
  | .bridge (.bridgeOut _ id), c => if id = c then 1 else 0
  | _, _ => 0

theorem Call.retires_eq (call : Call) (c : ℕ) :
    call.retires c = call.retiresTracked c + call.bridgesOut c := by
  cases call with
  | registry _ _ => rfl
  | marketplace _ => rfl
  | tracker _ => rfl
  | bridge call =>
      cases call with
      | bridgeOut owner id =>
          show (if id = c then 1 else 0) = 0 + if id = c then 1 else 0
          omega
      | _ => rfl

theorem Call.retiresTracked_pos {call : Call} {c : ℕ} :
    0 < call.retiresTracked c ↔ call.tracks c := by
  cases call with
  | tracker _ => exact List.count_pos_iff
  | registry _ _ => exact ⟨fun h => absurd h (Nat.lt_irrefl 0), False.elim⟩
  | marketplace _ => exact ⟨fun h => absurd h (Nat.lt_irrefl 0), False.elim⟩
  | bridge _ => exact ⟨fun h => absurd h (Nat.lt_irrefl 0), False.elim⟩

theorem Call.bridgesOut_pos {call : Call} {c : ℕ} :
    0 < call.bridgesOut c ↔ ∃ owner, call = .bridge (.bridgeOut owner c) := by
  constructor
  · intro h
    unfold bridgesOut at h
    split at h
    · next owner id =>
        by_cases hid : id = c
        · subst hid
          exact ⟨owner, rfl⟩
        · rw [if_neg hid] at h
          omega
    · omega
  · rintro ⟨owner, rfl⟩
    show 0 < if c = c then 1 else 0
    rw [if_pos rfl]
    omega

namespace World

variable {T : Type} {ch : Chain T} {R : Address} {w w' : World T} {tx : Tx ch}

/-- The transaction is an accepted `bridge_out` of the credit `c`. -/
def BridgesOut (ch : Chain T) (w : World T) (tx : Tx ch) (c : ℕ) : Prop :=
  Succeeds ch w tx ∧ ∃ owner, tx.call = .bridge (.bridgeOut owner c)

/-- A weight of the accepted calls. -/
def accepted (ch : Chain T) (f : Call → ℕ) (w : World T) (tx : Tx ch) : ℕ :=
  match exec ch w tx with
  | .ok _ => f tx.call
  | .error _ => 0

theorem accepted_pos {f : Call → ℕ} :
    0 < accepted ch f w tx ↔ Succeeds ch w tx ∧ 0 < f tx.call := by
  unfold accepted Succeeds
  cases h : exec ch w tx with
  | error _ => simp
  | ok w' => simp

theorem retirements_eq (w : World T) (tx : Tx ch) (c : ℕ) :
    retirements ch w tx c =
      accepted ch (fun call => call.retiresTracked c) w tx +
        accepted ch (fun call => call.bridgesOut c) w tx := by
  unfold retirements accepted
  cases exec ch w tx with
  | error _ => rfl
  | ok _ => exact tx.call.retires_eq c

/-- A weight of the accepted calls, summed over the steps, is positive if it is at a step. -/
theorem sum_accepted_pos {f : Call → ℕ} {hist : List (World T × Tx ch)} :
    0 < (hist.map fun p => accepted ch f p.1 p.2).sum ↔
      ∃ p ∈ hist, Succeeds ch p.1 p.2 ∧ 0 < f p.2.call := by
  rw [List.sum_pos_iff_exists_pos_nat]
  constructor
  · rintro ⟨x, hx, hpos⟩
    obtain ⟨p, hp, rfl⟩ := List.mem_map.mp hx
    exact ⟨p, hp, accepted_pos.mp hpos⟩
  · rintro ⟨p, hp, hpos⟩
    exact ⟨_, List.mem_map.mpr ⟨p, hp, rfl⟩, accepted_pos.mpr hpos⟩

/-- **The two stores.**  Let the tracker and the bridge be wired to the registry `R` only, and
let the authorised retirers of `R` be these two in every state of the run.  Then `is_retired`
of the tracker and the status in the registry agree about a credit if and only if no
`bridge_out` of this credit was accepted. -/
theorem retirements_agree_iff (ch : Chain T) (R : Address) (tokens : T) (ts : List (Tx ch))
    (htracker : Always (apply ch) (InitsOn R .tracker) (genesis tokens) ts)
    (hbridge : Always (apply ch) (InitsOn R .bridge) (genesis tokens) ts)
    (hretirers : Throughout (apply ch) (RetirersWithin ch R) (genesis tokens) ts) (c : ℕ) :
    ((run (apply ch) (genesis tokens) ts).tracker.isRetired c = true ↔
        ((run (apply ch) (genesis tokens) ts).registry R).IsRetired c) ↔
      Always (apply ch) (fun w tx => ¬ BridgesOut ch w tx c) (genesis tokens) ts := by
  -- the status counts the retirements of both kinds
  have hcount : ((run (apply ch) (genesis tokens) ts).registry R).retiredCount c =
      ((steps (apply ch) (genesis tokens) ts).map fun p =>
          accepted ch (fun call => call.retiresTracked c) p.1 p.2).sum +
        ((steps (apply ch) (genesis tokens) ts).map fun p =>
          accepted ch (fun call => call.bridgesOut c) p.1 p.2).sum := by
    have hsum := retiredCount_run (always_retirementStep htracker hbridge hretirers) c
    simp only [retirements_eq] at hsum
    rw [hsum, List.sum_map_add]
  have hle := ((run (apply ch) (genesis tokens) ts).registry R).retiredCount_le_one c
  have htracked : (run (apply ch) (genesis tokens) ts).tracker.isRetired c = true ↔
      0 < ((steps (apply ch) (genesis tokens) ts).map fun p =>
        accepted ch (fun call => call.retiresTracked c) p.1 p.2).sum := by
    rw [sum_accepted_pos, RetirementTracker.isRetired, Option.isSome_iff_exists,
      records_iff_tracked]
    simp only [Call.retiresTracked_pos]
  have hbridged : Always (apply ch) (fun w tx => ¬ BridgesOut ch w tx c) (genesis tokens) ts ↔
      ¬ 0 < ((steps (apply ch) (genesis tokens) ts).map fun p =>
        accepted ch (fun call => call.bridgesOut c) p.1 p.2).sum := by
    rw [sum_accepted_pos]
    simp only [Call.bridgesOut_pos]
    constructor
    · rintro hnever ⟨p, hp, hout⟩
      exact hnever p hp hout
    · intro hnever p hp hout
      exact hnever ⟨p, hp, hout⟩
  rw [htracked, hbridged, ← CreditRegistry.retiredCount_eq_one]
  omega

/-- The condition on every call of a run, by evaluation. -/
theorem never_bridgesOut {c : ℕ} {ts : List (Tx ch)}
    (h : (ts.all fun tx => tx.call.bridgesOut c = 0) = true) (w : World T) :
    Always (apply ch) (fun w tx => ¬ BridgesOut ch w tx c) w ts := by
  refine always_of_forall_mem (fun tx htx _ hout => ?_) w
  have hzero := of_decide_eq_true (List.all_eq_true.mp h tx htx)
  have hpos := Call.bridgesOut_pos.mpr hout.2
  omega

theorem retirements_agree_retire_one :
    ((run (apply Sample.chain) Sample.start (Sample.setup ++ [Sample.retireOne])).tracker.isRetired
        1 = true ↔
      ((run (apply Sample.chain) Sample.start (Sample.setup ++ [Sample.retireOne])).registry
        Sample.registry).IsRetired 1) := by
  have hretirers : Throughout (apply Sample.chain) (RetirersWithin Sample.chain Sample.registry)
      Sample.start (Sample.setup ++ [Sample.retireOne]) := by
    refine throughout_retirersWithin (by rfl) fun a ha => ?_
    cases ha
  exact (retirements_agree_iff Sample.chain Sample.registry (fun _ _ => 1000000)
    (Sample.setup ++ [Sample.retireOne]) (always_initsOn (by rfl) _) (always_initsOn (by rfl) _)
    hretirers 1).mpr (never_bridgesOut (by rfl) _)

/-- After account 2 has bridged credit 1 out, it is `Retired` and `is_retired` says no. -/
theorem retirements_disagree :
    ¬ ∀ (T : Type) (ch : Chain T) (R : Address) (tokens : T) (ts : List (Tx ch)),
      Always (apply ch) (InitsOn R .tracker) (genesis tokens) ts →
      Always (apply ch) (InitsOn R .bridge) (genesis tokens) ts →
      Throughout (apply ch) (RetirersWithin ch R) (genesis tokens) ts →
      ∀ c, (run (apply ch) (genesis tokens) ts).tracker.isRetired c = true ↔
        ((run (apply ch) (genesis tokens) ts).registry R).IsRetired c := by
  intro h
  have hretirers : Throughout (apply Sample.chain) (RetirersWithin Sample.chain Sample.registry)
      Sample.start (Sample.setup ++ [Sample.bridgeOutOne]) := by
    refine throughout_retirersWithin (by rfl) fun a ha => ?_
    cases ha
  have hagree := h Sample.Balances Sample.chain Sample.registry (fun _ _ => 1000000)
    (Sample.setup ++ [Sample.bridgeOutOne]) (always_initsOn (by rfl) _)
    (always_initsOn (by rfl) _) hretirers 1
  have hretired := hagree.mpr ⟨_, rfl, rfl⟩
  exact absurd hretired (by decide)

end World

end CarbonVeritas
