/-
# Retirement

A registry `R` whose authorised retirers are the tracker and the bridge, both wired to `R`
only.  The registry status is the latch of a retirement: it counts the accepted
retirements of a credit (`retiredCount_apply`), and a credit that is retired keeps its
status and its owner.  The tracker's record is written with the latch and never rewritten.

`retirement_safety` : a credit is retired by its owner, at most once, and a tracker record
stands for a retirement through the tracker and names the owner of the credit.
-/
import CarbonVeritas.World
import CarbonVeritas.RegistryGovernance

namespace CarbonVeritas

open Transition

/-! ## The latch in the registry -/

namespace CreditRegistry

variable {sha256 : (n : ℕ) → BitVec n → Bytes32} {env : Env} {s s' : CreditRegistry}

/-- The credit `c` is stored with the status `Retired`. -/
def IsRetired (s : CreditRegistry) (c : ℕ) : Prop :=
  ∃ m, s.credits c = some m ∧ m.status = .retired

/-- The same as a number: 1 if the credit is retired. -/
def retiredCount (s : CreditRegistry) (c : ℕ) : ℕ :=
  match s.credits c with
  | some m => if m.status = .retired then 1 else 0
  | none => 0

/-- A credit counts as retired when it is. -/
theorem retiredCount_eq_one {c : ℕ} : s.retiredCount c = 1 ↔ s.IsRetired c := by
  unfold retiredCount IsRetired
  cases h : s.credits c with
  | none => simp
  | some m => simp

/-- A credit is retired once at most. -/
theorem retiredCount_le_one (s : CreditRegistry) (c : ℕ) : s.retiredCount c ≤ 1 := by
  unfold retiredCount
  split
  · split_ifs <;> omega
  · omega

/-- A stored credit counts by its status. -/
theorem retiredCount_of_some {c : ℕ} {m : CreditMetadata} (h : s.credits c = some m) :
    s.retiredCount c = if m.status = .retired then 1 else 0 := by
  simp only [retiredCount, h]

/-- A credit that is not stored is not retired. -/
theorem retiredCount_of_none {c : ℕ} (h : s.credits c = none) : s.retiredCount c = 0 := by
  simp only [retiredCount, h]

/-- The count depends on the stored credit only. -/
theorem retiredCount_congr {c : ℕ} (h : s'.credits c = s.credits c) :
    s'.retiredCount c = s.retiredCount c := by
  simp only [retiredCount, h]

/-- Replacing the metadata of `id` by one that is not retired, where the old was not. -/
theorem retiredCount_update {id : ℕ} {m : CreditMetadata}
    (hcredits : s'.credits = Function.update s.credits id (some m))
    (hold : s.retiredCount id = 0) (hm : m.status ≠ .retired) (c : ℕ) :
    s'.retiredCount c = s.retiredCount c := by
  by_cases hc : c = id
  · rw [hc, hold, retiredCount_of_some (by rw [hcredits, Function.update_self]), if_neg hm]
  · exact retiredCount_congr (by rw [hcredits, Function.update_of_ne hc])

/-- Only `mark_retired` retires a credit. -/
theorem CreditChange.retiredCount {call : Call} (h : CreditChange sha256 env s s' call)
    (hidx : CreditsIndexed s) (hcall : ∀ caller id, call ≠ .markRetired caller id) (c : ℕ) :
    s'.retiredCount c = s.retiredCount c := by
  have hfree : s.retiredCount (s.creditCounter + 1) = 0 := retiredCount_of_none hidx.fresh.1
  have hvoted : ∀ {verifier : Address} {id : ℕ} {credit : CreditMetadata},
      MayVote env s verifier id credit → s.retiredCount id = 0 := by
    intro verifier id credit hvote
    rw [retiredCount_of_some hvote.stored, hvote.pending]
    rfl
  cases h with
  | keep _ hcredits _ => exact retiredCount_congr (by rw [hcredits])
  | submit _ _ hcredits _ =>
      exact retiredCount_update hcredits hfree (by simp [submittedMetadata]) c
  | mint _ _ _ hcredits _ =>
      exact retiredCount_update hcredits hfree (by simp [bridgedMetadata]) c
  | approve hvote _ hcredits _ => exact retiredCount_update hcredits (hvoted hvote) (by simp) c
  | reject hvote _ hcredits _ => exact retiredCount_update hcredits (hvoted hvote) (by simp) c
  | transfer _ _ _ _ _ hcredits _ => exact retiredCount_congr (by rw [hcredits])
  | @retire caller id _ _ _ _ _ _ _ _ => exact absurd rfl (hcall caller id)

/-- A retirement counts once, for its own credit. -/
theorem retiredCount_retire {id : ℕ} {credit : CreditMetadata}
    (hstored : s.credits id = some credit) (hactive : credit.status = .active) (c : ℕ) :
    (s.writeCredit id { credit with status := .retired }).retiredCount c =
      s.retiredCount c + if id = c then 1 else 0 := by
  by_cases hc : id = c
  · subst hc
    rw [retiredCount_of_some hstored, hactive, retiredCount_of_some (by
      rw [writeCredit_credits, Function.update_self])]
    simp
  · rw [if_neg hc, Nat.add_zero]
    exact retiredCount_congr (by rw [writeCredit_credits, Function.update_of_ne (Ne.symm hc)])

/-- A retired credit stays retired, with the same owner. -/
theorem CreditChange.retired_kept {call : Call} (h : CreditChange sha256 env s s' call)
    (hidx : CreditsIndexed s) {c : ℕ} (hc : s.IsRetired c) :
    s'.IsRetired c ∧ s'.owners c = s.owners c := by
  obtain ⟨m, hm, hretired⟩ := hc
  have hnew : c ≠ s.creditCounter + 1 := by
    have := (hidx.le_of_credit hm).2
    omega
  have hstays : s'.IsRetired c := by
    obtain ⟨m', hm', -, heq | hmove⟩ := h.metadata hidx hm
    · exact ⟨m', hm', heq.trans hretired⟩
    · rw [hretired] at hmove
      cases hmove
  refine ⟨hstays, ?_⟩
  cases h with
  | keep _ _ howners => rw [howners]
  | submit _ _ _ howners => rw [howners, Function.update_of_ne hnew]
  | mint _ _ _ _ howners => rw [howners, Function.update_of_ne hnew]
  | approve _ _ _ howners => rw [howners]
  | reject _ _ _ howners => rw [howners]
  | @transfer _ _ id credit _ _ hstored hactive _ _ howners =>
      have hne : c ≠ id := by
        rintro rfl
        obtain rfl : credit = m := Option.some.inj (hstored.symm.trans hm)
        rw [hretired] at hactive
        cases hactive
      rw [howners, Function.update_of_ne hne]
  | retire _ _ _ _ _ _ howners => rw [howners]

end CreditRegistry

/-- Another call of a registry than `mark_retired` retires nothing. -/
theorem Ledger.retiredCount_writeRegistry {T : Type} {ch : Chain T} {R r : Address} {l : Ledger T}
    {s : CreditRegistry} {env : Env} {call : CreditRegistry.Call}
    (hidx : (l.registries R).CreditsIndexed)
    (hexec : CreditRegistry.exec ch.sha256 env (l.registries r) call = .ok s)
    (hcall : ∀ caller id, call ≠ .markRetired caller id) (c : ℕ) :
    ((l.writeRegistry r s).registries R).retiredCount c = (l.registries R).retiredCount c := by
  by_cases hr : R = r
  · subst hr
    rw [registry_writeRegistry_self]
    exact (CreditRegistry.exec_creditChange hexec).retiredCount hidx hcall c
  · rw [registry_writeRegistry_ne hr]

/-- The marketplace retires nothing. -/
theorem Marketplace.MarketplaceChange.retiredCount {T : Type} {ch : Chain T} {R : Address}
    {env : Env} {m m' : Marketplace} {l l' : Ledger T} {call : Marketplace.Call}
    (h : MarketplaceChange ch env m l m' l' call) (hidx : (l.registries R).CreditsIndexed)
    (c : ℕ) : (l'.registries R).retiredCount c = (l.registries R).retiredCount c := by
  cases h with
  | keep _ hl _ => rw [hl]
  | init _ _ hl => rw [hl]
  | create hchecks _ hl =>
      rw [hl]
      exact Ledger.retiredCount_writeRegistry hidx (hchecks.transferable.exec_eq _) (by simp) c
  | @buy _ _ _ _ _ tokens hchecks _ hl =>
      rw [hl]
      exact Ledger.retiredCount_writeRegistry (l := { l with tokens := tokens }) hidx
        (hchecks.transferable.exec_eq _) (by simp) c
  | cancel hchecks _ hl =>
      rw [hl]
      exact Ledger.retiredCount_writeRegistry hidx (hchecks.transferable.exec_eq _) (by simp) c

/-! ## One batch of the tracker -/

namespace RetirementTracker

variable {T : Type} {ch : Chain T} {env : Env} {t t' : RetirementTracker} {l l' : Ledger T}
  {r owner : Address} {inputs : List RetireInput} {records : List RetirementRecord}

/-- The ids that the inputs name. -/
def creditIds (inputs : List RetireInput) : List ℕ := inputs.map RetireInput.creditId

/-- What a batch leaves: each of its credits was the owner's, and is counted once more. -/
theorem retireAll_registry (h : retireAll ch env r owner inputs t l = .ok (records, t', l')) :
    (∀ c ∈ creditIds inputs, (l.registries r).owners c = some owner) ∧
      (l'.registries r).owners = (l.registries r).owners ∧
      (∀ c, (l'.registries r).retiredCount c =
        (l.registries r).retiredCount c + (creditIds inputs).count c) ∧
      ∀ r', r' ≠ r → l'.registries r' = l.registries r' := by
  induction inputs generalizing t l records with
  | nil =>
      obtain ⟨-, -, rfl⟩ := retireAll_nil_eq_ok.mp h
      refine ⟨?_, rfl, fun c => rfl, fun _ _ => rfl⟩
      intro c hc
      cases hc
  | cons input inputs ih =>
      -- the first item leaves the owners, so the checks of the rest are about the same owners
      obtain ⟨record, t₁, l₁, rest, hitem, hrest, -⟩ := retireAll_cons_eq_ok.mp h
      obtain ⟨credit, hchecks, -, -, rfl⟩ := retireItem_eq_ok.mp hitem
      obtain ⟨howned, howners, hcount, hother⟩ := ih hrest
      rw [Ledger.registry_writeRegistry_self] at howned howners hcount
      refine ⟨?_, howners, ?_, ?_⟩
      · intro c hc
        rcases List.mem_cons.mp hc with rfl | hc
        · exact hchecks.owner
        · exact howned c hc
      · intro c
        rw [hcount c, CreditRegistry.retiredCount_retire hchecks.stored hchecks.active]
        show _ = _ + (input.creditId :: creditIds inputs).count c
        rw [List.count_cons]
        simp only [beq_iff_eq]
        omega
      · intro r' hr'
        rw [hother r' hr', Ledger.registry_writeRegistry_ne hr']

/-- A batch that retires something calls a registry. -/
theorem retireAll_isRegistry (h : retireAll ch env r owner inputs t l = .ok (records, t', l'))
    {c : ℕ} (hc : c ∈ creditIds inputs) : ch.isRegistry r = true := by
  cases inputs with
  | nil => cases hc
  | cons input inputs =>
      obtain ⟨record, t₁, l₁, rest, hitem, -, -⟩ := retireAll_cons_eq_ok.mp h
      obtain ⟨credit, hchecks, -⟩ := retireItem_eq_ok.mp hitem
      exact hchecks.isRegistry

/-- A batch adds the records of its inputs and keeps the others. -/
theorem retireAll_records (h : retireAll ch env r owner inputs t l = .ok (records, t', l'))
    (c : ℕ) :
    (c ∈ creditIds inputs → t.records c = none ∧
        ∃ record, t'.records c = some record ∧ record.retiredBy = owner) ∧
      (c ∉ creditIds inputs → t'.records c = t.records c) := by
  induction inputs generalizing t l records with
  | nil =>
      obtain ⟨-, rfl, -⟩ := retireAll_nil_eq_ok.mp h
      refine ⟨fun hc => ?_, fun _ => rfl⟩
      cases hc
  | cons input inputs ih =>
      obtain ⟨record, t₁, l₁, rest, hitem, hrest, -⟩ := retireAll_cons_eq_ok.mp h
      obtain ⟨credit, hchecks, rfl, rfl, -⟩ := retireItem_eq_ok.mp hitem
      obtain ⟨hin, hout⟩ := ih hrest
      have hwritten : (recorded env t owner input).records =
          Function.update t.records input.creditId (some (retirementRecord env owner input)) := rfl
      rw [hwritten] at hin hout
      by_cases hc : c = input.creditId
      · subst hc
        -- a second input for the same credit would find the record
        have hnot : input.creditId ∉ creditIds inputs := by
          intro hmem
          have hnone := (hin hmem).1
          rw [Function.update_self] at hnone
          cases hnone
        refine ⟨fun _ => ⟨hchecks.fresh, retirementRecord env owner input, ?_, rfl⟩,
          fun hmem => absurd List.mem_cons_self hmem⟩
        rw [hout hnot, Function.update_self]
      · rw [Function.update_of_ne hc] at hin hout
        refine ⟨fun hmem => hin ?_, fun hmem => hout fun h => hmem (List.mem_cons_of_mem _ h)⟩
        exact (List.mem_cons.mp hmem).resolve_left hc

end RetirementTracker

/-! ## One transaction -/

/-- How often a call asks for the retirement of the credit `c`. -/
def Call.retires : Call → ℕ → ℕ
  | .tracker call, c => (RetirementTracker.creditIds call.inputs).count c
  | .bridge (.bridgeOut _ id), c => if id = c then 1 else 0
  | _, _ => 0

/-- The owner that a call of `retire`, `batch_retire` or `bridge_out` names. -/
def Call.retireOwner : Call → Option Address
  | .tracker (.retire owner _ _ _ _) => some owner
  | .tracker (.batchRetire owner _) => some owner
  | .bridge (.bridgeOut owner _) => some owner
  | _ => none

/-- The registry and the address of a call of `add_retirer`. -/
def Call.addedRetirer : Call → Option (Address × Address)
  | .registry r (.addRetirer _ a) => some (r, a)
  | _ => none

/-- The call asks the tracker for the retirement of the credit `c`. -/
def Call.tracks : Call → ℕ → Prop
  | .tracker call, c => c ∈ RetirementTracker.creditIds call.inputs
  | _, _ => False

namespace World

variable {T : Type} {ch : Chain T} {R : Address} {w w' : World T} {tx : Tx ch}

/-- The authorised retirers of the registry `R` are the tracker and the bridge at most. -/
def RetirersWithin (ch : Chain T) (R : Address) (w : World T) : Prop :=
  ∀ a, (w.registry R).retirers a = true → a = ch.address .tracker ∨ a = ch.address .bridge

/-- It stays so while the admin of `R` adds no other retirer. -/
theorem RetirersWithin.apply (h : RetirersWithin ch R w)
    (htx : ∀ a, tx.call.addedRetirer = some (R, a) →
      a = ch.address .tracker ∨ a = ch.address .bridge) :
    RetirersWithin ch R (apply ch w tx) := by
  refine apply_registry_rule (P := fun s => ∀ a, s.retirers a = true →
    a = ch.address .tracker ∨ a = ch.address .bridge) ?_ h
  intro s call s' hs hmakes hok a ha
  rcases CreditRegistry.exec_retirers hok ha with hold | ⟨admin, rfl⟩
  · exact hs a hold
  · generalize hcall : tx.call = c at hmakes
    cases hmakes
    exact htx a (by rw [hcall]; rfl)

/-- The condition on every call of a run, by evaluation. -/
theorem throughout_retirersWithin {ts : List (Tx ch)}
    (h : (ts.all fun tx => tx.call.addedRetirer.all fun p =>
      p.2 = ch.address .tracker ∨ p.2 = ch.address .bridge) = true) (hw : RetirersWithin ch R w) :
    Throughout (World.apply ch) (RetirersWithin ch R) w ts := by
  refine throughout_invariant (fun w tx hw htx => RetirersWithin.apply hw htx) hw
    (always_of_forall_mem (fun tx htx _ a hadded => ?_) w)
  have hall := List.all_eq_true.mp h tx htx
  rw [hadded, Option.all_some, decide_eq_true_eq] at hall
  exact hall

/-- The accepted retirements of the credit `c` in one transaction. -/
def retirements (ch : Chain T) (w : World T) (tx : Tx ch) (c : ℕ) : ℕ :=
  match exec ch w tx with
  | .ok _ => tx.call.retires c
  | .error _ => 0

/-- A transaction that succeeds retires what its call retires. -/
theorem retirements_of_ok (h : exec ch w tx = .ok w') (c : ℕ) :
    retirements ch w tx c = tx.call.retires c := by
  simp only [retirements, h]

/-- A transaction that fails retires nothing. -/
theorem retirements_of_not_succeeds (h : ¬ Succeeds ch w tx) (c : ℕ) :
    retirements ch w tx c = 0 := by
  unfold retirements
  cases hexec : exec ch w tx with
  | error _ => rfl
  | ok w' => exact absurd ⟨w', hexec⟩ h

/-- A direct call of `mark_retired` fails, since the retirers are contracts. -/
theorem not_direct_markRetired (hret : RetirersWithin ch R w) {call : CreditRegistry.Call}
    {s : CreditRegistry}
    (hexec : CreditRegistry.exec ch.sha256 tx.env (w.registry R) call = .ok s)
    (caller : Address) (id : ℕ) : call ≠ .markRetired caller id := by
  rintro rfl
  simp only [CreditRegistry.exec, map_eq_ok, Prod.exists] at hexec
  obtain ⟨_, _, hmark, -⟩ := hexec
  obtain ⟨hauth, hretirer, -⟩ := CreditRegistry.markRetired_eq_ok.mp hmark
  refine tx.not_authorised_of_deployed ?_ hauth
  rcases hret caller hretirer with rfl | rfl
  · exact ch.deployed_address _
  · exact ch.deployed_address _

/-- What a call of the tracker retires in `R`, and whose signature it needs. -/
theorem trackerChange_retires {env : Env} {t t' : RetirementTracker} {l l' : Ledger T}
    {call : RetirementTracker.Call}
    (h : RetirementTracker.TrackerChange ch env t l t' l' call)
    (hwired : ∀ r, t.creditRegistry = some r → ch.isRegistry r = true → r = R) (c : ℕ) :
    (l'.registries R).retiredCount c =
        (l.registries R).retiredCount c + Call.retires (.tracker call) c ∧
      (0 < Call.retires (.tracker call) c → ∃ owner, (l.registries R).owners c = some owner ∧
        env.Authorised owner ∧ Call.retireOwner (.tracker call) = some owner) := by
  cases h with
  | keep _ hl hread =>
      have hzero : Call.retires (.tracker call) c = 0 := by
        rcases hread with ⟨_, rfl⟩ | ⟨_, rfl⟩ | ⟨_, _, _, rfl⟩ <;> rfl
      rw [hzero, hl]
      exact ⟨rfl, fun hpos => absurd hpos (Nat.lt_irrefl 0)⟩
  | init _ _ hl =>
      rw [hl]
      exact ⟨rfl, fun hpos => absurd hpos (Nat.lt_irrefl 0)⟩
  | @retire _ r owner records hcall hauth hstored hall =>
      obtain ⟨howned, -, hcount, hother⟩ := RetirementTracker.retireAll_registry hall
      have howner : Call.retireOwner (.tracker call) = some owner := by
        rcases hcall with ⟨_, _, _, _, rfl⟩ | ⟨_, rfl⟩ <;> rfl
      by_cases hr : r = R
      · subst hr
        exact ⟨hcount c, fun hpos => ⟨owner, howned c (List.count_pos_iff.mp hpos), hauth, howner⟩⟩
      · -- a batch that retires something is one of `R`
        have hnone : c ∉ RetirementTracker.creditIds call.inputs := fun hc =>
          hr (hwired r hstored (RetirementTracker.retireAll_isRegistry hall hc))
        have hzero : Call.retires (.tracker call) c = 0 := List.count_eq_zero.mpr hnone
        rw [hzero, hother R (Ne.symm hr)]
        exact ⟨rfl, fun hpos => absurd hpos (Nat.lt_irrefl 0)⟩

/-- The same for a call of the bridge. -/
theorem bridgeChange_retires {env : Env} {b b' : MerkleBridge} {l l' : Ledger T}
    {call : MerkleBridge.Call} (h : MerkleBridge.BridgeChange ch env b l b' l' call)
    (hidx : (l.registries R).CreditsIndexed)
    (hwired : ∀ r, b.creditRegistry = some r → ch.isRegistry r = true → r = R) (c : ℕ) :
    (l'.registries R).retiredCount c =
        (l.registries R).retiredCount c + Call.retires (.bridge call) c ∧
      (0 < Call.retires (.bridge call) c → ∃ owner, (l.registries R).owners c = some owner ∧
        env.Authorised owner ∧ Call.retireOwner (.bridge call) = some owner) := by
  cases h with
  | keep _ hl hread =>
      have hzero : Call.retires (.bridge call) c = 0 := by
        rcases hread with ⟨_, _, _, rfl⟩ | ⟨_, rfl⟩ <;> rfl
      rw [hzero, hl]
      exact ⟨rfl, fun hpos => absurd hpos (Nat.lt_irrefl 0)⟩
  | init _ _ hl =>
      rw [hl]
      exact ⟨rfl, fun hpos => absurd hpos (Nat.lt_irrefl 0)⟩
  | updateRoot _ _ _ hl =>
      rw [hl]
      exact ⟨rfl, fun hpos => absurd hpos (Nat.lt_irrefl 0)⟩
  | bridgeIn hchecks _ hl =>
      rw [hl]
      exact ⟨Ledger.retiredCount_writeRegistry hidx hchecks.exec_eq (by simp) c,
        fun hpos => absurd hpos (Nat.lt_irrefl 0)⟩
  | @bridgeOut owner id r credit hchecks _ hl =>
      obtain rfl : r = R := hwired r hchecks.wired hchecks.isRegistry
      rw [hl, Ledger.registry_writeRegistry_self]
      refine ⟨CreditRegistry.retiredCount_retire hchecks.stored hchecks.active c, fun hpos => ?_⟩
      have hid : id = c := by
        by_contra hne
        simp [Call.retires, hne] at hpos
      subst hid
      exact ⟨owner, hchecks.owner, hchecks.authorised, rfl⟩

/-- **Inversion.**  A transaction retires in `R` the credits that its call asks for, once for
each time, and their owner signed it. -/
theorem exec_retires (hexec : exec ch w tx = .ok w') (hidx : (w.registry R).CreditsIndexed)
    (hret : RetirersWithin ch R w) (htracker : WiredWithin ch R .tracker w)
    (hbridge : WiredWithin ch R .bridge w) (c : ℕ) :
    (w'.registry R).retiredCount c = (w.registry R).retiredCount c + tx.call.retires c ∧
      (0 < tx.call.retires c → ∃ owner, (w.registry R).owners c = some owner ∧
        owner ∈ tx.signers ∧ tx.call.retireOwner = some owner) := by
  have hstep := exec_step hexec
  simp only [← tx.env_authorised]
  generalize tx.call = call at hstep ⊢
  cases hstep with
  | @registry r call s _ hcall =>
      refine ⟨?_, fun hpos => absurd hpos (Nat.lt_irrefl 0)⟩
      by_cases hr : r = R
      · subst hr
        exact Ledger.retiredCount_writeRegistry hidx hcall (not_direct_markRetired hret hcall) c
      · unfold registry
        rw [Ledger.registry_writeRegistry_ne (Ne.symm hr)]
        rfl
  | marketplace hchange =>
      exact ⟨hchange.retiredCount hidx c, fun hpos => absurd hpos (Nat.lt_irrefl 0)⟩
  | tracker hchange => exact trackerChange_retires hchange htracker c
  | bridge hchange => exact bridgeChange_retires hchange hidx hbridge c

/-- The records that a transaction adds name the owner; the others are kept. -/
theorem exec_records (hexec : exec ch w tx = .ok w') (c : ℕ) :
    (tx.call.tracks c → w.tracker.records c = none ∧ ∃ record,
        w'.tracker.records c = some record ∧ tx.call.retireOwner = some record.retiredBy) ∧
      (¬ tx.call.tracks c → w'.tracker.records c = w.tracker.records c) := by
  have hstep := exec_step hexec
  generalize tx.call = call at hstep ⊢
  cases hstep with
  | registry _ _ => exact ⟨fun h => h.elim, fun _ => rfl⟩
  | marketplace _ => exact ⟨fun h => h.elim, fun _ => rfl⟩
  | bridge _ => exact ⟨fun h => h.elim, fun _ => rfl⟩
  | tracker hchange =>
      cases hchange with
      | keep ht _ hread =>
          subst ht
          refine ⟨fun h => ?_, fun _ => rfl⟩
          rcases hread with ⟨_, rfl⟩ | ⟨_, rfl⟩ | ⟨_, _, _, rfl⟩
          · cases h
          · cases h
          · cases h
      | init _ ht _ =>
          subst ht
          refine ⟨fun h => ?_, fun _ => rfl⟩
          cases h
      | retire hcall _ _ hall =>
          obtain ⟨hin, hout⟩ := RetirementTracker.retireAll_records hall c
          refine ⟨fun h => ?_, hout⟩
          obtain ⟨hnone, record, hrecord, hby⟩ := hin h
          refine ⟨hnone, record, hrecord, ?_⟩
          rcases hcall with ⟨_, _, _, _, rfl⟩ | ⟨_, rfl⟩
          · rw [hby]; rfl
          · rw [hby]; rfl

/-- A record is never rewritten. -/
theorem records_apply {c : ℕ} {record : RetirementRecord}
    (h : w.tracker.records c = some record) (tx : Tx ch) :
    (apply ch w tx).tracker.records c = some record := by
  refine apply_rule (P := fun w' => w'.tracker.records c = some record) h fun w' hexec => ?_
  obtain ⟨hin, hout⟩ := exec_records hexec c
  by_cases htracks : tx.call.tracks c
  · rw [(hin htracks).1] at h
    cases h
  · rw [hout htracks, h]

/-- A retired credit stays retired, with the same owner, whatever transaction follows. -/
theorem retired_apply {c : ℕ} {a : Address} (hidx : (w.registry R).CreditsIndexed)
    (hretired : (w.registry R).IsRetired c) (howner : (w.registry R).owners c = some a)
    (tx : Tx ch) : ((apply ch w tx).registry R).IsRetired c ∧
      ((apply ch w tx).registry R).owners c = some a := by
  have hkeep : ((apply ch w tx).registry R).CreditsIndexed ∧
      ((apply ch w tx).registry R).IsRetired c ∧
      ((apply ch w tx).registry R).owners c = some a := by
    refine apply_registry_rule
      (P := fun s => s.CreditsIndexed ∧ s.IsRetired c ∧ s.owners c = some a) ?_
      ⟨hidx, hretired, howner⟩
    rintro s call s' ⟨hs, hc, ha⟩ - hok
    obtain ⟨hc', ha'⟩ := (CreditRegistry.exec_creditChange hok).retired_kept hs hc
    exact ⟨hs.step hok, hc', ha'.trans ha⟩
  exact hkeep.2

/-! ## Whole runs -/

/-- What every run keeps whose tracker and bridge are wired to `R` and whose retirers of `R`
are these two: a record stands for a retired credit and names its owner. -/
structure RetirementInvariant (ch : Chain T) (R : Address) (w : World T) : Prop where
  indexed : (w.registry R).CreditsIndexed
  tracker : WiredWithin ch R .tracker w
  bridge : WiredWithin ch R .bridge w
  records : ∀ c record, w.tracker.records c = some record →
    (w.registry R).IsRetired c ∧ (w.registry R).owners c = some record.retiredBy

/-- At the start nothing is retired. -/
theorem retirementInvariant_genesis (ch : Chain T) (R : Address) (tokens : T) :
    RetirementInvariant ch R (genesis tokens) where
  indexed := indexed_genesis R tokens
  tracker := wiredWithin_genesis R .tracker tokens
  bridge := wiredWithin_genesis R .bridge tokens
  records := fun _ _ h => by cases h

/-- The conditions on the steps. -/
def RetirementStep (ch : Chain T) (R : Address) (w : World T) (tx : Tx ch) : Prop :=
  InitsOn R .tracker w tx ∧ InitsOn R .bridge w tx ∧ RetirersWithin ch R w

/-- The status `Retired` counts the accepted retirements. -/
theorem retiredCount_apply (h : RetirementInvariant ch R w) (htx : RetirementStep ch R w tx)
    (c : ℕ) : ((apply ch w tx).registry R).retiredCount c =
      (w.registry R).retiredCount c + retirements ch w tx c := by
  by_cases hsucc : Succeeds ch w tx
  · rw [retirements_of_ok hsucc.exec_eq]
    exact (exec_retires hsucc.exec_eq h.indexed htx.2.2 h.tracker h.bridge c).1
  · rw [apply_of_not_succeeds hsucc, retirements_of_not_succeeds hsucc, Nat.add_zero]

/-- A transaction that retires a credit was signed by its owner. -/
theorem retired_by_owner (h : RetirementInvariant ch R w) (htx : RetirementStep ch R w tx) {c : ℕ}
    (hbefore : ¬ (w.registry R).IsRetired c) (hafter : ((apply ch w tx).registry R).IsRetired c) :
    ∃ owner, (w.registry R).owners c = some owner ∧ owner ∈ tx.signers ∧
      tx.call.retireOwner = some owner ∧ 0 < tx.call.retires c := by
  have hsucc : Succeeds ch w tx := by
    by_contra hfail
    rw [apply_of_not_succeeds hfail] at hafter
    exact hbefore hafter
  -- the count has gone from 0 to 1, so the call asked for the retirement of `c`
  have hcount := retiredCount_apply h htx c
  rw [retirements_of_ok hsucc.exec_eq, CreditRegistry.retiredCount_eq_one.mpr hafter] at hcount
  have hle := (w.registry R).retiredCount_le_one c
  have hne : (w.registry R).retiredCount c ≠ 1 := fun heq =>
    hbefore (CreditRegistry.retiredCount_eq_one.mp heq)
  have hpos : 0 < tx.call.retires c := by omega
  obtain ⟨owner, howner, hsigned, hnamed⟩ :=
    (exec_retires hsucc.exec_eq h.indexed htx.2.2 h.tracker h.bridge c).2 hpos
  exact ⟨owner, howner, hsigned, hnamed, hpos⟩

/-- The calls that the tracker makes leave the owners. -/
theorem owners_of_tracks {c : ℕ} (htracks : tx.call.tracks c) :
    ((apply ch w tx).registry R).owners = (w.registry R).owners := by
  refine apply_registry_rule (P := fun s => s.owners = (w.registry R).owners) ?_ rfl
  rintro s call s' hs hmakes hok
  generalize tx.call = c₀ at htracks hmakes
  cases hmakes with
  | direct => exact htracks.elim
  | transfer => exact htracks.elim
  | bridgeIn => exact htracks.elim
  | bridgeOut => exact htracks.elim
  | retire =>
      cases CreditRegistry.exec_creditChange hok with
      | keep _ _ howners => rw [howners, hs]
      | retire _ _ _ _ _ _ howners => rw [howners, hs]

/-- Every transaction keeps the invariant. -/
theorem RetirementInvariant.apply (h : RetirementInvariant ch R w)
    (htx : RetirementStep ch R w tx) : RetirementInvariant ch R (apply ch w tx) := by
  refine ⟨indexed_apply h.indexed, h.tracker.apply htx.1, h.bridge.apply htx.2.1, ?_⟩
  intro c record hrecord
  by_cases hnew : Succeeds ch w tx ∧ tx.call.tracks c
  · -- a record just written
    obtain ⟨hsucc, htracks⟩ := hnew
    obtain ⟨-, record', hrecord', hnamed⟩ := (exec_records hsucc.exec_eq c).1 htracks
    obtain rfl : record' = record := Option.some.inj (hrecord'.symm.trans hrecord)
    obtain ⟨hcount, howned⟩ :=
      exec_retires hsucc.exec_eq h.indexed htx.2.2 h.tracker h.bridge c
    have hpos : 0 < tx.call.retires c := by
      revert htracks
      generalize tx.call = call
      intro htracks
      cases call with
      | tracker call => exact List.count_pos_iff.mpr htracks
      | registry _ _ => exact htracks.elim
      | marketplace _ => exact htracks.elim
      | bridge _ => exact htracks.elim
    have hle := ((World.apply ch w tx).registry R).retiredCount_le_one c
    refine ⟨CreditRegistry.retiredCount_eq_one.mp (by omega), ?_⟩
    obtain ⟨owner, howner, -, hnamed'⟩ := howned hpos
    rw [owners_of_tracks htracks, howner, ← hnamed', hnamed]
  · -- a record from before
    have hold : w.tracker.records c = some record := by
      by_cases hsucc : Succeeds ch w tx
      · rw [← (exec_records hsucc.exec_eq c).2 fun htracks => hnew ⟨hsucc, htracks⟩, hrecord]
      · rwa [apply_of_not_succeeds hsucc] at hrecord
    obtain ⟨hretired, howner⟩ := h.records c record hold
    exact retired_apply h.indexed hretired howner tx

/-- The conditions on a run under which the tracker and the bridge alone retire on `R`. -/
theorem always_retirementStep {tokens : T} {ts : List (Tx ch)}
    (htracker : Always (apply ch) (InitsOn R .tracker) (genesis tokens) ts)
    (hbridge : Always (apply ch) (InitsOn R .bridge) (genesis tokens) ts)
    (hretirers : Throughout (apply ch) (RetirersWithin ch R) (genesis tokens) ts) :
    Always (apply ch) (RetirementStep ch R) (genesis tokens) ts :=
  (htracker.and (hbridge.and hretirers.always)).mono fun _ _ h => h

/-- In such a run the credit `c` is retired as often as it was asked for. -/
theorem retiredCount_run {tokens : T} {ts : List (Tx ch)}
    (h : Always (apply ch) (RetirementStep ch R) (genesis tokens) ts) (c : ℕ) :
    ((run (apply ch) (genesis tokens) ts).registry R).retiredCount c =
      ((steps (apply ch) (genesis tokens) ts).map fun p =>
        retirements ch p.1 p.2 c).sum := by
  have hinv := always_invariant (fun w tx h htx => h.apply htx)
    (retirementInvariant_genesis ch R tokens) h
  have hsum := sum_steps_eq (φ := fun w : World T => (w.registry R).retiredCount c)
    (f := fun w tx => retirements ch w tx c) (fun w tx h => retiredCount_apply h.1 h.2 c) hinv
  rw [hsum]
  exact Nat.zero_add _

/-- The records are those of the retirements through the tracker. -/
theorem records_iff_tracked (tokens : T) (ts : List (Tx ch)) (c : ℕ) :
    (∃ record, (run (apply ch) (genesis tokens) ts).tracker.records c = some record) ↔
      ∃ p ∈ steps (apply ch) (genesis tokens) ts, Succeeds ch p.1 p.2 ∧ p.2.call.tracks c := by
  refine history_invariant (C := fun _ _ => True)
    (I := fun hist w => (∃ record, w.tracker.records c = some record) ↔
      ∃ p ∈ hist, Succeeds ch p.1 p.2 ∧ p.2.call.tracks c) ?_ ?_ fun _ _ => trivial
  · constructor
    · rintro ⟨record, hrecord⟩
      cases hrecord
    · rintro ⟨p, hp, -⟩
      cases hp
  · intro hist w tx ih _
    constructor
    · rintro ⟨record, hrecord⟩
      by_cases hnew : Succeeds ch w tx ∧ tx.call.tracks c
      · exact ⟨(w, tx), List.mem_append_right _ (List.mem_singleton.mpr rfl), hnew⟩
      · have hold : ∃ record, w.tracker.records c = some record := by
          by_cases hsucc : Succeeds ch w tx
          · refine ⟨record, ?_⟩
            rw [← (exec_records hsucc.exec_eq c).2 fun htracks => hnew ⟨hsucc, htracks⟩, hrecord]
          · rw [apply_of_not_succeeds hsucc] at hrecord
            exact ⟨record, hrecord⟩
        obtain ⟨p, hp, hretired⟩ := ih.mp hold
        exact ⟨p, List.mem_append_left _ hp, hretired⟩
    · rintro ⟨p, hp, hsucc, htracks⟩
      rcases List.mem_append.mp hp with hp | hp
      · obtain ⟨record, hrecord⟩ := ih.mpr ⟨p, hp, hsucc, htracks⟩
        exact ⟨record, records_apply hrecord tx⟩
      · obtain rfl := List.mem_singleton.mp hp
        obtain ⟨-, record, hrecord, -⟩ := (exec_records hsucc.exec_eq c).1 htracks
        exact ⟨record, hrecord⟩

/-- **Retirement safety.**  Let the tracker and the bridge be wired to the registry `R` only,
and let the authorised retirers of `R` be these two in every state of the run.  Then a credit
becomes `Retired` only in a transaction that its owner signed, by `retire`, `batch_retire` or
`bridge_out`; these are accepted at most once for a credit, all together; a credit has a
tracker record exactly if it was retired through the tracker; and from the state in which a
record exists on, it stays, the credit is `Retired`, and the record names its owner. -/
theorem retirement_safety (ch : Chain T) (R : Address) (tokens : T) (ts : List (Tx ch))
    (htracker : Always (apply ch) (InitsOn R .tracker) (genesis tokens) ts)
    (hbridge : Always (apply ch) (InitsOn R .bridge) (genesis tokens) ts)
    (hretirers : Throughout (apply ch) (RetirersWithin ch R) (genesis tokens) ts) :
    (∀ p ∈ steps (apply ch) (genesis tokens) ts, ∀ c, ¬ (p.1.registry R).IsRetired c →
        ((apply ch p.1 p.2).registry R).IsRetired c →
        ∃ owner, (p.1.registry R).owners c = some owner ∧ owner ∈ p.2.signers ∧
          p.2.call.retireOwner = some owner ∧ 0 < p.2.call.retires c) ∧
      (∀ c, ((steps (apply ch) (genesis tokens) ts).map fun p =>
        retirements ch p.1 p.2 c).sum ≤ 1) ∧
      (∀ c, (∃ record, (run (apply ch) (genesis tokens) ts).tracker.records c = some record) ↔
        ∃ p ∈ steps (apply ch) (genesis tokens) ts, Succeeds ch p.1 p.2 ∧ p.2.call.tracks c) ∧
      ∀ us vs, ts = us ++ vs → ∀ c record,
        (run (apply ch) (genesis tokens) us).tracker.records c = some record →
        (run (apply ch) (genesis tokens) ts).tracker.records c = some record ∧
          ((run (apply ch) (genesis tokens) ts).registry R).IsRetired c ∧
          ((run (apply ch) (genesis tokens) ts).registry R).owners c = some record.retiredBy := by
  have hsteps := always_retirementStep htracker hbridge hretirers
  have hinv : Always (apply ch) (fun w tx => RetirementInvariant ch R w ∧ RetirementStep ch R w tx)
      (genesis tokens) ts :=
    always_invariant (fun w tx h htx => h.apply htx) (retirementInvariant_genesis ch R tokens)
      hsteps
  refine ⟨?_, ?_, records_iff_tracked tokens ts, ?_⟩
  · intro p hp c hbefore hafter
    obtain ⟨h, htx⟩ := hinv p hp
    exact retired_by_owner h htx hbefore hafter
  · intro c
    have hsum := retiredCount_run hsteps c
    have hle := ((run (apply ch) (genesis tokens) ts).registry R).retiredCount_le_one c
    omega
  · rintro us vs rfl c record hrecord
    have hstays : (run (apply ch) (genesis tokens) (us ++ vs)).tracker.records c = some record := by
      rw [run_append]
      exact run_invariant (C := fun _ _ => True)
        (I := fun w : World T => w.tracker.records c = some record)
        (fun w tx h _ => records_apply h tx) hrecord fun _ _ => trivial
    have hlast : RetirementInvariant ch R (run (apply ch) (genesis tokens) (us ++ vs)) :=
      run_invariant (fun w tx h htx => h.apply htx) (retirementInvariant_genesis ch R tokens)
        hsteps
    exact ⟨hstays, hlast.records c record hstays⟩

/-- The run of the sample retires the credit 1, which keeps its owner. -/
theorem retirement_safety_retire_one :
    ((run (apply Sample.chain) Sample.start (Sample.setup ++ [Sample.retireOne])).registry
      Sample.registry).IsRetired 1 ∧
    ((run (apply Sample.chain) Sample.start (Sample.setup ++ [Sample.retireOne])).registry
      Sample.registry).owners 1 = some (.account 2) := by
  have hretirers : Throughout (apply Sample.chain) (RetirersWithin Sample.chain Sample.registry)
      Sample.start (Sample.setup ++ [Sample.retireOne]) := by
    refine throughout_retirersWithin (by rfl) fun a ha => ?_
    cases ha
  have hsafe := (retirement_safety Sample.chain Sample.registry (fun _ _ => 1000000)
    (Sample.setup ++ [Sample.retireOne]) (always_initsOn (by rfl) _) (always_initsOn (by rfl) _)
    hretirers).2.2.2 _ [] (List.append_nil _).symm 1 _ rfl
  exact hsafe.2

end World

end CarbonVeritas
