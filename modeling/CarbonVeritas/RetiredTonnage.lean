/-
# Retired tonnes

The records of a beneficiary name credits of the registry, each with a positive tonnage; the
field `tonnes_retired` of a record is 0, whatever the credit.

`retired_tonnage_iff` : the records account for the tonnes of their credits exactly if there
are no records.
-/
import CarbonVeritas.RetirementSafety
import Mathlib.Algebra.Order.BigOperators.Group.List

namespace CarbonVeritas

open Transition

/-! ## Tonnes in the registry -/

namespace CreditRegistry

variable {sha256 : (n : ℕ) → BitVec n → Bytes32} {env : Env} {s s' : CreditRegistry}

/-- Every stored credit has a positive tonnage. -/
def TonnesPositive (s : CreditRegistry) : Prop :=
  ∀ id m, s.credits id = some m → 0 < m.tonnes

/-- A rewritten credit has the tonnage of the old one, and a new one has been validated. -/
theorem TonnesPositive.exec (h : TonnesPositive s) {call : Call}
    (hexec : exec sha256 env s call = .ok s') : TonnesPositive s' := by
  -- a call that writes one credit
  have hwrite : ∀ {i : ℕ} {c : CreditMetadata},
      s'.credits = Function.update s.credits i (some c) → 0 < c.tonnes → TonnesPositive s' := by
    intro i c hcredits hc id m hm
    rcases stored_of_update hcredits hm with ⟨-, rfl⟩ | hold
    · exact hc
    · exact h id m hold
  cases exec_creditChange hexec with
  | keep _ hcredits _ =>
      intro id m hm
      rw [hcredits] at hm
      exact h id m hm
  | transfer _ _ _ _ _ hcredits _ =>
      intro id m hm
      rw [hcredits] at hm
      exact h id m hm
  | approve hvote _ hcredits _ =>
      have hpos := h _ _ hvote.stored
      exact hwrite hcredits hpos
  | reject hvote _ hcredits _ =>
      have hpos := h _ _ hvote.stored
      exact hwrite hcredits hpos
  | retire _ _ hstored _ _ hcredits _ =>
      have hpos := h _ _ hstored
      exact hwrite hcredits hpos
  | submit _ _ hcredits _ =>
      simp only [CreditRegistry.exec, map_eq_ok, Prod.exists] at hexec
      obtain ⟨_, _, hsubmit, -⟩ := hexec
      exact hwrite hcredits (submitCredit_eq_ok.mp hsubmit).2.1.tonnes.1
  | mint _ _ _ hcredits _ =>
      simp only [CreditRegistry.exec, map_eq_ok, Prod.exists] at hexec
      obtain ⟨_, _, hmint, -⟩ := hexec
      exact hwrite hcredits (mintBridged_eq_ok.mp hmint).2.2.1.tonnes.1

end CreditRegistry

/-! ## Records in the tracker -/

namespace RetirementTracker

variable {T : Type} {ch : Chain T} {env : Env} {t t' : RetirementTracker} {l l' : Ledger T}
  {r R owner : Address} {inputs : List RetireInput} {records : List RetirementRecord}

/-- Every record is stored under its own credit and says 0 tonnes, every id in an index has a
record, and every record stands for a credit of the registry `R`. -/
structure RecordsSound (R : Address) (t : RetirementTracker) (l : Ledger T) : Prop where
  record : ∀ id record, t.records id = some record → record.creditId = id ∧
    record.tonnesRetired = 0
  listed : ∀ b, ∀ id ∈ t.beneficiaryCredits b, ∃ record, t.records id = some record
  stored : ∀ id record, t.records id = some record → ∃ m, (l.registries R).credits id = some m

theorem RecordsSound.item {input : RetireInput} {record : RetirementRecord}
    (h : RecordsSound r t l) (hitem : retireItem ch env t l r owner input = .ok (record, t', l')) :
    RecordsSound r t' l' := by
  obtain ⟨credit, hchecks, -, rfl, rfl⟩ := retireItem_eq_ok.mp hitem
  have hrecords : (recorded env t owner input).records =
      Function.update t.records input.creditId (some (retirementRecord env owner input)) := rfl
  -- the credits of the registry stay stored
  have hcredits : ∀ id m, (l.registries r).credits id = some m →
      ∃ m', ((l.writeRegistry r ((l.registries r).writeCredit input.creditId
        { credit with status := .retired })).registries r).credits id = some m' := by
    intro id m hm
    rw [Ledger.registry_writeRegistry_self, CreditRegistry.writeCredit_credits]
    by_cases hid : id = input.creditId
    · exact ⟨_, by rw [hid, Function.update_self]⟩
    · exact ⟨m, by rw [Function.update_of_ne hid, hm]⟩
  refine ⟨?_, ?_, ?_⟩
  · intro id record hrecord
    rw [hrecords] at hrecord
    by_cases hid : id = input.creditId
    · rw [hid, Function.update_self] at hrecord
      obtain rfl := Option.some.inj hrecord
      exact ⟨hid.symm, rfl⟩
    · rw [Function.update_of_ne hid] at hrecord
      exact h.record id record hrecord
  · -- the index of the beneficiary grows by the credit that is recorded
    intro b id hid
    rw [hrecords]
    by_cases hnew : id = input.creditId
    · exact ⟨_, by rw [hnew, Function.update_self]⟩
    · rw [Function.update_of_ne hnew]
      refine h.listed b id ?_
      have hindex : (recorded env t owner input).beneficiaryCredits =
          Function.update t.beneficiaryCredits input.beneficiary
            (t.beneficiaryCredits input.beneficiary ++ [input.creditId]) := rfl
      rw [hindex] at hid
      by_cases hb : b = input.beneficiary
      · rw [hb, Function.update_self] at hid
        rw [hb]
        exact (List.mem_append.mp hid).resolve_right fun hmem => hnew (List.mem_singleton.mp hmem)
      · rwa [Function.update_of_ne hb] at hid
  · intro id record hrecord
    rw [hrecords] at hrecord
    by_cases hid : id = input.creditId
    · exact hcredits id credit (by rw [hid, hchecks.stored])
    · rw [Function.update_of_ne hid] at hrecord
      obtain ⟨m, hm⟩ := h.stored id record hrecord
      exact hcredits id m hm

/-- The ids that a batch adds to the index of the beneficiary `b`. -/
def idsFor (inputs : List RetireInput) (b : SorobanString) : List ℕ :=
  creditIds (inputs.filter fun input => input.beneficiary = b)

/-- A batch appends its items to the indexes of their beneficiaries. -/
theorem retireAll_index (h : retireAll ch env r owner inputs t l = .ok (records, t', l'))
    (b : SorobanString) : t'.beneficiaryCredits b = t.beneficiaryCredits b ++ idsFor inputs b := by
  induction inputs generalizing t l records with
  | nil =>
      obtain ⟨-, rfl, -⟩ := retireAll_nil_eq_ok.mp h
      exact (List.append_nil _).symm
  | cons input inputs ih =>
      obtain ⟨record, t₁, l₁, rest, hitem, hrest, -⟩ := retireAll_cons_eq_ok.mp h
      obtain ⟨credit, -, -, rfl, -⟩ := retireItem_eq_ok.mp hitem
      have hindex : (recorded env t owner input).beneficiaryCredits =
          Function.update t.beneficiaryCredits input.beneficiary
            (t.beneficiaryCredits input.beneficiary ++ [input.creditId]) := rfl
      rw [ih hrest, hindex]
      unfold idsFor creditIds
      by_cases hb : b = input.beneficiary
      · subst hb
        rw [Function.update_self, List.filter_cons_of_pos (by simp), List.map_cons,
          List.append_assoc, List.singleton_append]
      · rw [Function.update_of_ne hb, List.filter_cons_of_neg (by simpa using Ne.symm hb)]

theorem getRetirementsByBeneficiary_eq (t : RetirementTracker) (b : SorobanString)
    (offset limit : ℕ) : t.getRetirementsByBeneficiary b offset limit =
      if (t.beneficiaryCredits b).length ≤ offset then []
      else (((t.beneficiaryCredits b).take (min (u32SaturatingAdd offset limit)
        (t.beneficiaryCredits b).length)).drop offset).filterMap t.records := rfl

/-- The records on the first `n` pages of size `limit`. -/
def pages (t : RetirementTracker) (beneficiary : SorobanString) (limit n : ℕ) :
    List RetirementRecord :=
  (List.range n).flatMap fun k => t.getRetirementsByBeneficiary beneficiary (k * limit) limit

/-- Whatever the pages show is a stored record. -/
theorem mem_pages {b : SorobanString} {limit n : ℕ} {record : RetirementRecord}
    (h : record ∈ t.pages b limit n) : ∃ id, t.records id = some record := by
  obtain ⟨k, -, hk⟩ := List.mem_flatMap.mp h
  rw [getRetirementsByBeneficiary_eq] at hk
  split_ifs at hk
  · cases hk
  · obtain ⟨id, -, hid⟩ := List.mem_filterMap.mp hk
    exact ⟨id, hid⟩

/-- A beneficiary with an entry has a record on the first page. -/
theorem pages_ne_nil {b : SorobanString} {limit n : ℕ} (hlimit : 1 ≤ limit) (hn : 1 ≤ n)
    (hlisted : ∀ id ∈ t.beneficiaryCredits b, ∃ record, t.records id = some record)
    (hb : t.beneficiaryCredits b ≠ []) : t.pages b limit n ≠ [] := by
  obtain ⟨id, ids, hids⟩ := List.exists_cons_of_ne_nil hb
  obtain ⟨record, hrecord⟩ := hlisted id (by rw [hids]; exact List.mem_cons_self)
  have hfirst : record ∈ t.getRetirementsByBeneficiary b (0 * limit) limit := by
    have hstop : ∃ k, min (u32SaturatingAdd (0 * limit) limit)
        (t.beneficiaryCredits b).length = k + 1 := by
      refine ⟨_, (Nat.sub_add_cancel ?_).symm⟩
      unfold u32SaturatingAdd
      rw [hids, List.length_cons]
      omega
    obtain ⟨k, hk⟩ := hstop
    rw [getRetirementsByBeneficiary_eq, hk, hids, if_neg (by simp), Nat.zero_mul, List.drop_zero,
      List.take_succ_cons, List.filterMap_cons_some hrecord]
    exact List.mem_cons_self
  exact List.ne_nil_of_mem (List.mem_flatMap.mpr ⟨0, List.mem_range.mpr hn, hfirst⟩)

end RetirementTracker

/-! ## Runs -/

/-- The ids that a call adds to the index of the beneficiary `b`. -/
def Call.idsFor : Call → SorobanString → List ℕ
  | .tracker call, b => RetirementTracker.idsFor call.inputs b
  | _, _ => []

namespace World

variable {T : Type} {ch : Chain T} {R : Address} {w w' : World T} {tx : Tx ch}

/-- The transaction is an accepted retirement for the beneficiary `b`. -/
def RetiresFor (ch : Chain T) (w : World T) (tx : Tx ch) (b : SorobanString) : Prop :=
  Succeeds ch w tx ∧ tx.call.idsFor b ≠ []

/-- The index of a beneficiary grows by the ids of the accepted calls. -/
theorem exec_index (hexec : exec ch w tx = .ok w') (b : SorobanString) :
    w'.tracker.beneficiaryCredits b = w.tracker.beneficiaryCredits b ++ tx.call.idsFor b := by
  have hstep := exec_step hexec
  generalize tx.call = call at hstep ⊢
  cases hstep with
  | registry _ _ => exact (List.append_nil _).symm
  | marketplace _ => exact (List.append_nil _).symm
  | bridge _ => exact (List.append_nil _).symm
  | tracker hchange =>
      cases hchange with
      | keep ht _ hread =>
          subst ht
          rcases hread with ⟨_, rfl⟩ | ⟨_, rfl⟩ | ⟨_, _, _, rfl⟩
          · exact (List.append_nil _).symm
          · exact (List.append_nil _).symm
          · exact (List.append_nil _).symm
      | init _ ht _ =>
          subst ht
          exact (List.append_nil _).symm
      | retire _ _ _ hall => exact RetirementTracker.retireAll_index hall b

/-- The index of a beneficiary is empty as long as nothing was retired for it. -/
theorem index_eq_nil_iff (tokens : T) (ts : List (Tx ch)) (b : SorobanString) :
    (run (apply ch) (genesis tokens) ts).tracker.beneficiaryCredits b = [] ↔
      Always (apply ch) (fun w tx => ¬ RetiresFor ch w tx b) (genesis tokens) ts := by
  induction ts using List.reverseRecOn with
  | nil => exact ⟨fun _ => always_nil _ _, fun _ => rfl⟩
  | append_singleton ts tx ih =>
      rw [run_concat, always_concat, ← ih]
      by_cases hsucc : Succeeds ch (run (apply ch) (genesis tokens) ts) tx
      · rw [exec_index hsucc.exec_eq, List.append_eq_nil_iff]
        unfold RetiresFor
        constructor
        · rintro ⟨hold, hnew⟩
          exact ⟨hold, fun h => h.2 hnew⟩
        · rintro ⟨hold, hnot⟩
          refine ⟨hold, ?_⟩
          by_contra hnew
          exact hnot ⟨hsucc, hnew⟩
      · rw [apply_of_not_succeeds hsucc]
        exact ⟨fun hold => ⟨hold, fun h => hsucc h.1⟩, fun h => h.1⟩

/-- What every run keeps whose tracker is wired to `R`. -/
structure TonnageInvariant (ch : Chain T) (R : Address) (w : World T) : Prop where
  indexed : (w.registry R).CreditsIndexed
  tonnes : (w.registry R).TonnesPositive
  wired : WiredWithin ch R .tracker w
  sound : RetirementTracker.RecordsSound R w.tracker w.ledger

theorem tonnageInvariant_genesis (ch : Chain T) (R : Address) (tokens : T) :
    TonnageInvariant ch R (genesis tokens) where
  indexed := indexed_genesis R tokens
  tonnes := nofun
  wired := wiredWithin_genesis R .tracker tokens
  sound := ⟨nofun, nofun, nofun⟩

theorem TonnageInvariant.apply (h : TonnageInvariant ch R w) (htx : InitsOn R .tracker w tx) :
    TonnageInvariant ch R (apply ch w tx) := by
  refine ⟨indexed_apply h.indexed, ?_, h.wired.apply htx, ?_⟩
  · exact apply_registry_rule (P := CreditRegistry.TonnesPositive)
      (fun s call s' hs _ hok => hs.exec hok) h.tonnes
  · -- a transaction that leaves the records
    have hkeep : (World.apply ch w tx).tracker.records = w.tracker.records →
        (World.apply ch w tx).tracker.beneficiaryCredits = w.tracker.beneficiaryCredits →
        RetirementTracker.RecordsSound R (World.apply ch w tx).tracker
          (World.apply ch w tx).ledger := by
      intro hrecords hindex
      refine ⟨?_, ?_, ?_⟩
      · rw [hrecords]
        exact h.sound.record
      · rw [hrecords, hindex]
        exact h.sound.listed
      · rw [hrecords]
        intro id record hrecord
        obtain ⟨m, hm⟩ := h.sound.stored id record hrecord
        obtain ⟨m', hm', -⟩ := credit_reaches h.indexed hm tx
        exact ⟨m', hm'⟩
    by_cases hsucc : Succeeds ch w tx
    · have hstep := exec_step hsucc.exec_eq
      generalize tx.call = call at hstep
      generalize World.apply ch w tx = w' at hstep hkeep ⊢
      cases hstep with
      | registry _ _ => exact hkeep rfl rfl
      | marketplace _ => exact hkeep rfl rfl
      | bridge _ => exact hkeep rfl rfl
      | tracker hchange =>
          cases hchange with
          | keep ht _ _ =>
              subst ht
              exact hkeep rfl rfl
          | init _ ht _ =>
              subst ht
              exact hkeep rfl rfl
          | @retire _ r owner records _ _ hwired hall =>
              refine RetirementTracker.retireAll_rule
                (P := fun t l => RetirementTracker.RecordsSound R t l) ?_ h.sound hall
              intro t l input record t' l' hsound hitem
              obtain ⟨credit, hchecks, -⟩ := RetirementTracker.retireItem_eq_ok.mp hitem
              obtain rfl : r = R := h.wired r hwired hchecks.isRegistry
              exact hsound.item hitem
    · rw [apply_of_not_succeeds hsucc]
      exact h.sound

/-- The tonnes of the credit that a record names. -/
def tonnesOf (w : World T) (R : Address) (record : RetirementRecord) : ℤ :=
  match (w.registry R).credits record.creditId with
  | some m => m.tonnes
  | none => 0

/-- **Retired tonnes.**  Let the tracker be wired to the registry `R` only, and let `n` pages
of a positive size show the whole index of the beneficiary `b`.  Then the tonnes that the
records on these pages state add up to the tonnes of the credits they name if and only if no
retirement for `b` was accepted. -/
theorem retired_tonnage_iff (ch : Chain T) (R : Address) (tokens : T) (ts : List (Tx ch))
    (htracker : Always (apply ch) (InitsOn R .tracker) (genesis tokens) ts) (b : SorobanString)
    (limit n : ℕ) (hlimit : 1 ≤ limit)
    (hpages : ((run (apply ch) (genesis tokens) ts).tracker.beneficiaryCredits b).length ≤
      n * limit) :
    (((run (apply ch) (genesis tokens) ts).tracker.pages b limit n).map
        RetirementRecord.tonnesRetired).sum =
      (((run (apply ch) (genesis tokens) ts).tracker.pages b limit n).map
        ((run (apply ch) (genesis tokens) ts).tonnesOf R)).sum ↔
      Always (apply ch) (fun w tx => ¬ RetiresFor ch w tx b) (genesis tokens) ts := by
  have hinv : TonnageInvariant ch R (run (apply ch) (genesis tokens) ts) :=
    run_invariant (fun w tx h htx => h.apply htx) (tonnageInvariant_genesis ch R tokens) htracker
  rw [← index_eq_nil_iff]
  generalize run (apply ch) (genesis tokens) ts = w at hinv hpages ⊢
  -- the records state 0 tonnes, and name credits that have some
  have hzero : ((w.tracker.pages b limit n).map RetirementRecord.tonnesRetired).sum = 0 := by
    refine List.sum_eq_zero fun x hx => ?_
    obtain ⟨record, hrecord, rfl⟩ := List.mem_map.mp hx
    obtain ⟨id, hid⟩ := RetirementTracker.mem_pages hrecord
    exact (hinv.sound.record id record hid).2
  have hpos : ∀ x ∈ (w.tracker.pages b limit n).map (w.tonnesOf R), 0 < x := by
    intro x hx
    obtain ⟨record, hrecord, rfl⟩ := List.mem_map.mp hx
    obtain ⟨id, hid⟩ := RetirementTracker.mem_pages hrecord
    obtain ⟨m, hm⟩ := hinv.sound.stored id record hid
    have hnamed : (w.registry R).credits record.creditId = some m := by
      rw [(hinv.sound.record id record hid).1]
      exact hm
    unfold tonnesOf
    rw [hnamed]
    exact hinv.tonnes _ m hnamed
  rw [hzero]
  constructor
  · intro hsum
    by_contra hindex
    have hlen : 0 < (w.tracker.beneficiaryCredits b).length := List.length_pos_iff.mpr hindex
    have hn : 1 ≤ n := by
      by_contra hnone
      obtain rfl : n = 0 := by omega
      omega
    have hne := RetirementTracker.pages_ne_nil hlimit hn (hinv.sound.listed b) hindex
    have hsum_pos := List.sum_pos _ hpos (by simpa using hne)
    omega
  · intro hindex
    have hnil : w.tracker.pages b limit n = [] := by
      refine List.flatMap_eq_nil_iff.mpr fun k _ => ?_
      rw [RetirementTracker.getRetirementsByBeneficiary_eq, hindex]
      simp
    rw [hnil]
    rfl

/-- The condition on every call of a run, by evaluation. -/
theorem never_retiresFor {b : SorobanString} {ts : List (Tx ch)}
    (h : (ts.all fun tx => tx.call.idsFor b = []) = true) (w : World T) :
    Always (apply ch) (fun w tx => ¬ RetiresFor ch w tx b) w ts := by
  refine always_of_forall_mem (fun tx htx _ hfor => ?_) w
  exact hfor.2 (of_decide_eq_true (List.all_eq_true.mp h tx htx))

/-- Account 2 retires credit 1 for the beneficiary `[2]`; the beneficiary `[9]` has no records. -/
theorem retired_tonnage_other :
    (((run (apply Sample.chain) Sample.start (Sample.setup ++ [Sample.retireOne])).tracker.pages
        [9] 10 1).map RetirementRecord.tonnesRetired).sum =
      (((run (apply Sample.chain) Sample.start (Sample.setup ++ [Sample.retireOne])).tracker.pages
        [9] 10 1).map ((run (apply Sample.chain) Sample.start
          (Sample.setup ++ [Sample.retireOne])).tonnesOf Sample.registry)).sum :=
  (retired_tonnage_iff Sample.chain Sample.registry (fun _ _ => 1000000)
    (Sample.setup ++ [Sample.retireOne]) (always_initsOn (by rfl) _) [9] 10 1 (by decide)
    (by decide)).mpr (never_retiresFor (by rfl) _)

/-- The 1000 tonnes of credit 1, retired for the beneficiary `[2]`, are recorded as 0. -/
theorem retired_tonnage_lost :
    ¬ ∀ (T : Type) (ch : Chain T) (R : Address) (tokens : T) (ts : List (Tx ch)),
      Always (apply ch) (InitsOn R .tracker) (genesis tokens) ts →
      ∀ (b : SorobanString) (limit n : ℕ), 1 ≤ limit →
        ((run (apply ch) (genesis tokens) ts).tracker.beneficiaryCredits b).length ≤ n * limit →
        (((run (apply ch) (genesis tokens) ts).tracker.pages b limit n).map
          RetirementRecord.tonnesRetired).sum =
          (((run (apply ch) (genesis tokens) ts).tracker.pages b limit n).map
            ((run (apply ch) (genesis tokens) ts).tonnesOf R)).sum := by
  intro h
  have hsum := h Sample.Balances Sample.chain Sample.registry (fun _ _ => 1000000)
    (Sample.setup ++ [Sample.retireOne]) (always_initsOn (by rfl) _) [2] 10 1 (by decide)
    (by decide)
  exact absurd hsum (by decide)

end World

end CarbonVeritas
