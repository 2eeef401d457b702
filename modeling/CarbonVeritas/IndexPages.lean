/-
# The indexes of issuers and beneficiaries

The list of an issuer holds the ids of its accepted submissions, and the list of a
beneficiary the credits of its accepted retirements, each in the order of the run.  A request
for a page computes its end with a saturating sum, which is past every list whose length is a
`u32`; so it returns the slice it is asked for, and the pages together are the whole list
(`indexes_exact`).
-/
import CarbonVeritas.OwnerIndex
import CarbonVeritas.RetiredTonnage
import CarbonVeritas.Pages

namespace CarbonVeritas

open Transition

/-! ## Submissions -/

namespace CreditRegistry

variable {sha256 : (n : ℕ) → BitVec n → Bytes32} {env : Env} {s s' : CreditRegistry}

/-- The ids in the list of an issuer increase, up to the counter. -/
def IssuerSorted (s : CreditRegistry) : Prop :=
  ∀ a, (s.issuerCredits a).Pairwise (· < ·) ∧ ∀ id ∈ s.issuerCredits a, id ≤ s.creditCounter

/-- Before the first submission the lists are empty. -/
theorem issuerSorted_empty : IssuerSorted empty :=
  fun _ => ⟨List.Pairwise.nil, fun _ h => by cases h⟩

/-- Only a submission has a submitter. -/
theorem submitter_eq_some {call : Call} {a : Address} :
    call.submitter = some a ↔ ∃ metadata ipfsHash, call = .submitCredit a metadata ipfsHash := by
  constructor
  · intro h
    cases call with
    | submitCredit issuer metadata ipfsHash =>
        cases h
        exact ⟨metadata, ipfsHash, rfl⟩
    | _ => cases h
  · rintro ⟨metadata, ipfsHash, rfl⟩
    rfl

/-- A submission is appended to the list of its issuer. -/
theorem IndexChange.issuerCredits_self {a : Address} {metadata : CreditMetadata}
    {ipfsHash : SorobanString} (h : IndexChange s s' (.submitCredit a metadata ipfsHash)) :
    s'.issuerCredits a = s.issuerCredits a ++ [s.creditCounter + 1] := by
  cases h with
  | keep _ hnone _ _ _ _ => cases hnone
  | submit _ _ _ hissued => rw [hissued, Function.update_self]

/-- Only a submission of `a` changes its list. -/
theorem IndexChange.issuerCredits_of_ne {call : Call} {a : Address} (h : IndexChange s s' call)
    (hne : call.submitter ≠ some a) : s'.issuerCredits a = s.issuerCredits a := by
  cases h with
  | keep _ _ _ _ _ hissued => rw [hissued]
  | mint _ _ _ hissued => rw [hissued]
  | transfer _ _ _ _ hissued => rw [hissued]
  | submit _ _ _ hissued =>
      rw [hissued, Function.update_of_ne fun heq => hne (congrArg some heq.symm)]

/-- Every call keeps the lists sorted. -/
theorem IssuerSorted.exec (h : IssuerSorted s) {call : Call}
    (hexec : exec sha256 env s call = .ok s') : IssuerSorted s' := by
  -- a call that leaves the lists
  have hkeep : s'.issuerCredits = s.issuerCredits → s.creditCounter ≤ s'.creditCounter →
      IssuerSorted s' := by
    intro hissued hcounter a
    rw [hissued]
    exact ⟨(h a).1, fun id hid => ((h a).2 id hid).trans hcounter⟩
  cases exec_indexChange hexec with
  | keep _ _ hcounter _ _ hissued => exact hkeep hissued hcounter.ge
  | mint hcounter _ _ hissued => exact hkeep hissued (by omega)
  | transfer _ hcounter _ _ hissued => exact hkeep hissued hcounter.ge
  | @submit issuer _ _ hcounter _ _ hissued =>
      intro a
      rw [hissued, hcounter]
      by_cases ha : a = issuer
      · subst ha
        rw [Function.update_self]
        refine ⟨List.pairwise_append.mpr ⟨(h a).1, List.pairwise_singleton _ _, ?_⟩, ?_⟩
        · intro i hi j hj
          have hle := (h a).2 i hi
          rw [List.mem_singleton.mp hj]
          omega
        · intro i hi
          rcases List.mem_append.mp hi with hi | hi
          · exact ((h a).2 i hi).trans (Nat.le_succ _)
          · exact (List.mem_singleton.mp hi).le
      · rw [Function.update_of_ne ha]
        exact ⟨(h a).1, fun i hi => ((h a).2 i hi).trans (Nat.le_succ _)⟩

/-- A page of an issuer's credits is a page of its list. -/
theorem readCreditsByIssuer_eq {a : Address} (hlen : (s.issuerCredits a).length < 2 ^ 32)
    (offset limit : ℕ) :
    s.readCreditsByIssuer a offset limit = Pages.page (s.issuerCredits a) offset limit := by
  show (if (s.issuerCredits a).length ≤ offset then [] else _) = _
  split_ifs with hend
  · rw [Pages.page_of_length_le hend]
  · exact Pages.drop_take_saturating (by omega) offset limit

end CreditRegistry

/-! ## Retirements -/

namespace RetirementTracker

variable {T : Type} {ch : Chain T} {env : Env} {t t' : RetirementTracker} {l l' : Ledger T}
  {r owner : Address} {inputs : List RetireInput} {rs records : List RetirementRecord}

/-- The tracker holds the records `rs`, made in this order. -/
structure Holds (rs : List RetirementRecord) (t : RetirementTracker) : Prop where
  index : ∀ b, t.beneficiaryCredits b =
    (rs.filter fun record => record.beneficiary = b).map RetirementRecord.creditId
  stored : ∀ id record, t.records id = some record ↔ record ∈ rs ∧ record.creditId = id
  nodup : (rs.map RetirementRecord.creditId).Nodup

/-- Before the first retirement the tracker holds no record. -/
theorem holds_nil : Holds [] {} where
  index := fun _ => rfl
  stored := by
    intro id record
    show none = some record ↔ record ∈ [] ∧ record.creditId = id
    simp only [reduceCtorEq, List.not_mem_nil, false_and]
  nodup := List.nodup_nil

/-- A credit without a record is in none of the records. -/
theorem Holds.fresh {id : ℕ} (h : Holds rs t) (hnone : t.records id = none) :
    ∀ old ∈ rs, old.creditId ≠ id := by
  intro old hold heq
  have hsome := (h.stored id old).mpr ⟨hold, heq⟩
  rw [hnone] at hsome
  cases hsome

/-- One retirement of a credit without a record. -/
theorem Holds.item {input : RetireInput} {record : RetirementRecord} (h : Holds rs t)
    (hitem : retireItem ch env t l r owner input = .ok (record, t', l')) :
    Holds (rs ++ [record]) t' := by
  obtain ⟨credit, hchecks, rfl, rfl, -⟩ := retireItem_eq_ok.mp hitem
  have hfresh := h.fresh hchecks.fresh
  constructor
  · -- the index of the beneficiary grows by the credit
    intro b
    show Function.update t.beneficiaryCredits input.beneficiary
      (t.beneficiaryCredits input.beneficiary ++ [input.creditId]) b = _
    rw [List.filter_append, List.map_append, ← h.index b]
    by_cases hb : b = input.beneficiary
    · subst hb
      rw [Function.update_self, List.filter_cons_of_pos (by simp [retirementRecord])]
      rfl
    · have hother : [retirementRecord env owner input].filter
          (fun record => record.beneficiary = b) = [] := by
        refine List.filter_eq_nil_iff.mpr fun record hrecord heq => hb ?_
        rw [List.mem_singleton.mp hrecord] at heq
        exact (of_decide_eq_true heq).symm
      rw [Function.update_of_ne hb, hother]
      exact (List.append_nil _).symm
  · -- the record of the credit is stored, the others are as before
    intro id record
    show Function.update t.records input.creditId (some (retirementRecord env owner input)) id =
      some record ↔ _
    rw [List.mem_append, List.mem_singleton]
    by_cases hid : id = input.creditId
    · subst hid
      rw [Function.update_self, Option.some.injEq]
      constructor
      · rintro rfl
        exact ⟨Or.inr rfl, rfl⟩
      · rintro ⟨hold | rfl, hcredit⟩
        · exact absurd hcredit (hfresh record hold)
        · rfl
    · rw [Function.update_of_ne hid, h.stored id record]
      constructor
      · rintro ⟨hold, hcredit⟩
        exact ⟨Or.inl hold, hcredit⟩
      · rintro ⟨hold | rfl, hcredit⟩
        · exact ⟨hold, hcredit⟩
        · exact absurd hcredit.symm hid
  · -- no credit has two records
    rw [List.map_append]
    refine List.nodup_append.mpr ⟨h.nodup, List.pairwise_singleton _ _, ?_⟩
    rintro i hi _ hmem rfl
    obtain ⟨old, hold, rfl⟩ := List.mem_map.mp hi
    exact hfresh old hold (List.mem_singleton.mp hmem)

/-- A batch adds its records to those that are held. -/
theorem Holds.all (h : Holds rs t)
    (hall : retireAll ch env r owner inputs t l = .ok (records, t', l')) :
    Holds (rs ++ records) t' := by
  induction inputs generalizing rs t l records with
  | nil =>
      obtain ⟨rfl, rfl, -⟩ := retireAll_nil_eq_ok.mp hall
      rw [List.append_nil]
      exact h
  | cons input inputs ih =>
      obtain ⟨record, t₁, l₁, rest, hitem, hrest, rfl⟩ := retireAll_cons_eq_ok.mp hall
      rw [List.append_cons]
      exact ih (h.item hitem) hrest

/-- Every entry of an index is found in the records. -/
theorem Holds.filterMap_records (h : Holds rs t) {part : List RetirementRecord}
    (hpart : ∀ record ∈ part, record ∈ rs) :
    (part.map RetirementRecord.creditId).filterMap t.records = part := by
  rw [List.filterMap_map]
  induction part with
  | nil => rfl
  | cons record rest ih =>
      have hfound : (t.records ∘ RetirementRecord.creditId) record = some record :=
        (h.stored _ _).mpr ⟨hpart record List.mem_cons_self, rfl⟩
      rw [List.filterMap_cons_some hfound,
        ih fun old hold => hpart old (List.mem_cons_of_mem _ hold)]

/-- The records of one beneficiary. -/
def recordsOf (rs : List RetirementRecord) (b : SorobanString) : List RetirementRecord :=
  rs.filter fun record => record.beneficiary = b

/-- A page of a beneficiary's retirements is a page of its records. -/
theorem Holds.getRetirementsByBeneficiary_eq (h : Holds rs t) {b : SorobanString}
    (hlen : (t.beneficiaryCredits b).length < 2 ^ 32) (offset limit : ℕ) :
    t.getRetirementsByBeneficiary b offset limit = Pages.page (recordsOf rs b) offset limit := by
  have hindex : t.beneficiaryCredits b = (recordsOf rs b).map RetirementRecord.creditId :=
    h.index b
  rw [RetirementTracker.getRetirementsByBeneficiary_eq]
  split_ifs with hend
  · rw [hindex, List.length_map] at hend
    rw [Pages.page_of_length_le hend]
  · have hread : ((t.beneficiaryCredits b).take (min (u32SaturatingAdd offset limit)
        (t.beneficiaryCredits b).length)).drop offset =
        Pages.page (t.beneficiaryCredits b) offset limit :=
      Pages.drop_take_saturating (by omega) offset limit
    rw [hread, hindex, Pages.page_map]
    refine h.filterMap_records fun record hrecord => ?_
    exact (List.mem_filter.mp (Pages.mem_of_mem_page hrecord)).1

end RetirementTracker

/-! ## The indexes of a run -/

namespace World

variable {T : Type} {ch : Chain T} {w w' : World T} {tx : Tx ch} {r a : Address}

/-- The id that `submit_credit` of the registry `r` returns to the issuer `a`. -/
def submittedIn (ch : Chain T) (r a : Address) (p : World T × Tx ch) : Option ℕ :=
  match p.2.call with
  | .registry r' (.submitCredit issuer metadata ipfsHash) =>
      if r' = r ∧ issuer = a then
        match p.1.ledger.callRegistry ch r fun s =>
            s.submitCredit p.2.env issuer metadata ipfsHash with
        | .ok (id, _) => some id
        | .error _ => none
      else none
  | _ => none

/-- The records that `retire` or `batch_retire` returns. -/
def retiredIn (ch : Chain T) (p : World T × Tx ch) : List RetirementRecord :=
  match p.2.call with
  | .tracker (.retire owner id reason beneficiary accountingPeriod) =>
      match RetirementTracker.retire ch p.2.env p.1.tracker p.1.ledger owner id reason beneficiary
          accountingPeriod with
      | .ok (record, _) => [record]
      | .error _ => []
  | .tracker (.batchRetire owner retirements) =>
      match RetirementTracker.batchRetire ch p.2.env p.1.tracker p.1.ledger owner
          retirements with
      | .ok (records, _) => records
      | .error _ => []
  | _ => []

/-- The ids that `a` submitted to the registry `r`, in the order of the run. -/
def submissions (ch : Chain T) (hist : List (World T × Tx ch)) (r a : Address) : List ℕ :=
  hist.filterMap (submittedIn ch r a)

/-- The records of all retirements, in the order of the run. -/
def retiredRecords (ch : Chain T) (hist : List (World T × Tx ch)) : List RetirementRecord :=
  hist.flatMap (retiredIn ch)

/-- Another call submits nothing for this issuer. -/
theorem submittedIn_of_ne {r' : Address} {call : CreditRegistry.Call}
    (hcall : tx.call = .registry r' call) (hne : ¬ (r' = r ∧ call.submitter = some a)) :
    submittedIn ch r a (w, tx) = none := by
  unfold submittedIn
  simp only [hcall]
  split
  case h_1 issuer _ _ heq =>
      cases heq
      exact if_neg fun h => hne ⟨h.1, congrArg some h.2⟩
  case h_2 => rfl

/-- Only a call of a registry submits. -/
theorem submittedIn_of_not_registry (hcall : ∀ r' call, tx.call ≠ .registry r' call) :
    submittedIn ch r a (w, tx) = none := by
  unfold submittedIn
  split
  case h_1 heq => exact absurd heq (hcall _ _)
  case h_2 => rfl

/-- An accepted submission returns the next id. -/
theorem submittedIn_of_ok {metadata : CreditMetadata} {ipfsHash : SorobanString}
    {s : CreditRegistry} (hcall : tx.call = .registry r (.submitCredit a metadata ipfsHash))
    (hr : ch.isRegistry r = true)
    (hexec : CreditRegistry.exec ch.sha256 tx.env (w.registry r)
      (.submitCredit a metadata ipfsHash) = .ok s) :
    submittedIn ch r a (w, tx) = some ((w.registry r).creditCounter + 1) := by
  simp only [CreditRegistry.exec, map_eq_ok, Prod.exists] at hexec
  obtain ⟨id, s', hsubmit, -⟩ := hexec
  have hid := (CreditRegistry.submitCredit_eq_ok.mp hsubmit).2.2.1
  have hok : (w.ledger.callRegistry ch r fun s => s.submitCredit tx.env a metadata ipfsHash) =
      .ok (id, w.ledger.writeRegistry r s') :=
    Ledger.callRegistry_eq_ok.mpr ⟨hr, s', hsubmit, rfl⟩
  unfold submittedIn
  simp only [hcall, hok, and_self, if_true, hid]

/-- A call that no transaction makes within another one leaves the list of an issuer. -/
theorem issuerCredits_of_not_registry (hexec : exec ch w tx = .ok w')
    (hcall : ∀ r' call, tx.call ≠ .registry r' call) :
    (w'.registry r).issuerCredits a = (w.registry r).issuerCredits a := by
  have hkeep : ((apply ch w tx).registry r).issuerCredits a = (w.registry r).issuerCredits a := by
    refine apply_registry_rule
      (P := fun s => s.issuerCredits a = (w.registry r).issuerCredits a) ?_ rfl
    intro s call s' hs hmakes hok
    rw [← hs]
    refine (CreditRegistry.exec_indexChange hok).issuerCredits_of_ne fun hsub => ?_
    -- a call within another one is no submission
    obtain ⟨metadata, ipfsHash, rfl⟩ := CreditRegistry.submitter_eq_some.mp hsub
    generalize hc : tx.call = c at hmakes
    cases hmakes
    exact absurd hc (hcall _ _)
  rwa [apply_of_ok hexec] at hkeep

/-- The list of an issuer grows by what its call returns. -/
theorem exec_issuerCredits (hexec : exec ch w tx = .ok w') (r a : Address) :
    (w'.registry r).issuerCredits a =
      (w.registry r).issuerCredits a ++ (submittedIn ch r a (w, tx)).toList := by
  by_cases hdirect : ∃ r' call, tx.call = .registry r' call
  · obtain ⟨r', call, hcall⟩ := hdirect
    have hstep := exec_step hexec
    rw [hcall] at hstep
    cases hstep with
    | @registry _ _ s hr hok =>
      -- only a submission of `a` to the registry `r` is in the list
      show ((w.ledger.writeRegistry r' s).registries r).issuerCredits a = _
      by_cases hrr : r = r'
      · subst hrr
        rw [Ledger.registry_writeRegistry_self]
        have hchange := CreditRegistry.exec_indexChange hok
        by_cases hsub : call.submitter = some a
        · obtain ⟨metadata, ipfsHash, rfl⟩ := CreditRegistry.submitter_eq_some.mp hsub
          rw [submittedIn_of_ok hcall hr hok, hchange.issuerCredits_self]
          rfl
        · rw [submittedIn_of_ne hcall fun h => hsub h.2, Option.toList_none, List.append_nil]
          exact hchange.issuerCredits_of_ne hsub
      · rw [Ledger.registry_writeRegistry_ne hrr, submittedIn_of_ne hcall fun h => hrr h.1.symm,
          Option.toList_none, List.append_nil]
        rfl
  · have hcall : ∀ r' call, tx.call ≠ .registry r' call :=
      fun r' call heq => hdirect ⟨r', call, heq⟩
    rw [issuerCredits_of_not_registry hexec hcall, submittedIn_of_not_registry hcall,
      Option.toList_none, List.append_nil]

/-- A transaction that fails submits nothing. -/
theorem submittedIn_of_not_succeeds (h : ¬ Succeeds ch w tx) (r a : Address) :
    submittedIn ch r a (w, tx) = none := by
  unfold submittedIn
  split
  case h_2 => rfl
  case h_1 r' issuer metadata ipfsHash hcall =>
      split_ifs with heq
      · split
        case h_2 => rfl
        case h_1 id _ hok =>
            obtain ⟨rfl, rfl⟩ := heq
            obtain ⟨hr, s, hsubmit, -⟩ := Ledger.callRegistry_eq_ok.mp hok
            have hexec : CreditRegistry.exec ch.sha256 tx.env (w.ledger.registries r')
                (.submitCredit issuer metadata ipfsHash) = .ok s := by
              rw [CreditRegistry.exec, hsubmit]
              rfl
            have hcalled : (w.ledger.callRegistry ch r' fun s => (CreditRegistry.exec ch.sha256
                tx.env s (.submitCredit issuer metadata ipfsHash)).map fun s => ((), s)) =
                .ok ((), w.ledger.writeRegistry r' s) :=
              Ledger.callRegistry_eq_ok.mpr ⟨hr, s, by rw [hexec]; rfl, rfl⟩
            refine absurd ⟨{ w with ledger := w.ledger.writeRegistry r' s }, ?_⟩ h
            rw [exec, hcall]
            simp only [hcalled]
            rfl
      · rfl

/-- A transaction that calls the tracker leaves what the call leaves. -/
theorem exec_tracker {call : RetirementTracker.Call} {p : RetirementTracker × Ledger T}
    (hcall : tx.call = .tracker call)
    (h : RetirementTracker.exec ch tx.env w.tracker w.ledger call = .ok p) :
    exec ch w tx = .ok { w with tracker := p.1, ledger := p.2 } := by
  rw [exec, hcall]
  simp only [h]
  rfl

/-- A transaction that fails retires nothing. -/
theorem retiredIn_of_not_succeeds (h : ¬ Succeeds ch w tx) : retiredIn ch (w, tx) = [] := by
  unfold retiredIn
  split
  case h_1 owner id reason beneficiary accountingPeriod hcall =>
      split
      case h_2 => rfl
      case h_1 record p hok =>
          have hexec : RetirementTracker.exec ch tx.env w.tracker w.ledger
              (.retire owner id reason beneficiary accountingPeriod) = .ok p := by
            rw [RetirementTracker.exec, hok]
            rfl
          exact absurd ⟨_, exec_tracker hcall hexec⟩ h
  case h_2 owner inputs hcall =>
      split
      case h_2 => rfl
      case h_1 records p hok =>
          have hexec : RetirementTracker.exec ch tx.env w.tracker w.ledger
              (.batchRetire owner inputs) = .ok p := by
            rw [RetirementTracker.exec, hok]
            rfl
          exact absurd ⟨_, exec_tracker hcall hexec⟩ h
  case h_3 => rfl

/-- Only a call of the tracker retires. -/
theorem retiredIn_of_not_tracker (hcall : ∀ call, tx.call ≠ .tracker call) :
    retiredIn ch (w, tx) = [] := by
  unfold retiredIn
  split
  case h_1 heq => exact absurd heq (hcall _)
  case h_2 heq => exact absurd heq (hcall _)
  case h_3 => rfl

/-- The tracker holds the records that its calls return. -/
theorem exec_holds (hexec : exec ch w tx = .ok w') {rs : List RetirementRecord}
    (h : RetirementTracker.Holds rs w.tracker) :
    RetirementTracker.Holds (rs ++ retiredIn ch (w, tx)) w'.tracker := by
  by_cases htracker : ∃ call, tx.call = .tracker call
  · obtain ⟨call, hcall⟩ := htracker
    -- a call that returns no record
    have hkeep : ∀ {t : RetirementTracker}, retiredIn ch (w, tx) = [] →
        t.records = w.tracker.records →
        t.beneficiaryCredits = w.tracker.beneficiaryCredits →
        RetirementTracker.Holds (rs ++ retiredIn ch (w, tx)) t := by
      intro t hnone hrecords hindex
      rw [hnone, List.append_nil]
      exact ⟨by rw [hindex]; exact h.index, by rw [hrecords]; exact h.stored, h.nodup⟩
    simp only [exec, hcall, bind_eq_ok, pure_eq_ok, Prod.exists] at hexec
    obtain ⟨t, l, hok, rfl⟩ := hexec
    cases call <;>
      simp only [RetirementTracker.exec, map_eq_ok, Prod.exists, Except.ok.injEq,
        Prod.mk.injEq] at hok
    case init =>
      obtain ⟨_, _, hinit, rfl, rfl⟩ := hok
      obtain ⟨-, rfl⟩ := RetirementTracker.init_eq_ok.mp hinit
      exact hkeep (by simp only [retiredIn, hcall]) rfl rfl
    case isRetired | getRetirementRecord | getRetirementsByBeneficiary =>
      obtain ⟨rfl, rfl⟩ := hok
      exact hkeep (by simp only [retiredIn, hcall]) rfl rfl
    case retire =>
      obtain ⟨record, _, _, hretire, rfl, rfl⟩ := hok
      have hretired : retiredIn ch (w, tx) = [record] := by simp only [retiredIn, hcall, hretire]
      obtain ⟨-, r, -, hitem⟩ := RetirementTracker.retire_eq_ok.mp hretire
      rw [hretired]
      exact h.item hitem
    case batchRetire =>
      obtain ⟨records, _, _, hbatch, rfl, rfl⟩ := hok
      have hretired : retiredIn ch (w, tx) = records := by simp only [retiredIn, hcall, hbatch]
      obtain ⟨-, -, r, -, hall⟩ := RetirementTracker.batchRetire_eq_ok.mp hbatch
      rw [hretired]
      exact h.all hall
  · have hcall : ∀ call, tx.call ≠ .tracker call := fun call heq => htracker ⟨call, heq⟩
    rw [retiredIn_of_not_tracker hcall, List.append_nil]
    have hstep := exec_step hexec
    generalize hc : tx.call = c at hstep
    cases hstep with
    | registry _ _ => exact h
    | marketplace _ => exact h
    | bridge _ => exact h
    | tracker _ => exact absurd hc (hcall _)

/-! ## The main theorem -/

/-- The indexes after a history of transactions. -/
structure Indexed (ch : Chain T) (hist : List (World T × Tx ch)) (w : World T) : Prop where
  issuers : ∀ r a, (w.registry r).issuerCredits a = submissions ch hist r a
  sorted : ∀ r, (w.registry r).IssuerSorted
  tracker : RetirementTracker.Holds (retiredRecords ch hist) w.tracker

/-- Every transaction keeps the lists in step with the history. -/
theorem Indexed.step {hist : List (World T × Tx ch)} (h : Indexed ch hist w) (tx : Tx ch) :
    Indexed ch (hist ++ [(w, tx)]) (apply ch w tx) := by
  have hsub : ∀ r a, submissions ch (hist ++ [(w, tx)]) r a =
      submissions ch hist r a ++ (submittedIn ch r a (w, tx)).toList :=
    fun r a => filterMap_concat _ _ _
  have hret : retiredRecords ch (hist ++ [(w, tx)]) =
      retiredRecords ch hist ++ retiredIn ch (w, tx) := by
    unfold retiredRecords
    rw [List.flatMap_append, List.flatMap_singleton]
  have hsorted : ∀ r, ((apply ch w tx).registry r).IssuerSorted := fun r =>
    apply_registry_rule (P := CreditRegistry.IssuerSorted)
      (fun _ _ _ hs _ hok => hs.exec hok) (h.sorted r)
  by_cases hsucc : Succeeds ch w tx
  · refine ⟨fun r a => ?_, hsorted, ?_⟩
    · rw [exec_issuerCredits hsucc.exec_eq, hsub, h.issuers r a]
    · rw [hret]
      exact exec_holds hsucc.exec_eq h.tracker
  · refine ⟨fun r a => ?_, hsorted, ?_⟩
    · rw [hsub, submittedIn_of_not_succeeds hsucc, Option.toList_none, List.append_nil,
        apply_of_not_succeeds hsucc]
      exact h.issuers r a
    · rw [hret, retiredIn_of_not_succeeds hsucc, List.append_nil, apply_of_not_succeeds hsucc]
      exact h.tracker

/-- In every run the lists are in step with the history. -/
theorem indexed_steps (ch : Chain T) (tokens : T) (ts : List (Tx ch)) :
    Indexed ch (steps (apply ch) (genesis tokens) ts) (run (apply ch) (genesis tokens) ts) :=
  history_invariant (C := fun _ _ => True)
    ⟨fun _ _ => rfl, fun _ => CreditRegistry.issuerSorted_empty, RetirementTracker.holds_nil⟩
    (fun _ _ tx h _ => h.step tx) fun _ _ => trivial

/-- What the requests for the credits of an issuer and for the retirements of a beneficiary
return, as long as the lists have a length in `u32`. -/
structure ExactIndexes (ch : Chain T) (hist : List (World T × Tx ch)) (w : World T) : Prop where
  /-- a page is the slice of the submissions -/
  issuerPage : ∀ r a, (submissions ch hist r a).length < 2 ^ 32 → ∀ offset limit,
    (w.registry r).readCreditsByIssuer a offset limit =
      Pages.page (submissions ch hist r a) offset limit
  /-- the pages together are the submissions, whose ids increase -/
  issuerPages : ∀ r a, (submissions ch hist r a).length < 2 ^ 32 → ∀ n k,
    (submissions ch hist r a).length ≤ k * n →
      ((List.range k).map fun i => (w.registry r).readCreditsByIssuer a (i * n) n).flatten =
        submissions ch hist r a
  increasing : ∀ r a, (submissions ch hist r a).Pairwise (· < ·)
  /-- a page is the slice of the records of the beneficiary -/
  beneficiaryPage : ∀ b, (w.tracker.beneficiaryCredits b).length < 2 ^ 32 → ∀ offset limit,
    w.tracker.getRetirementsByBeneficiary b offset limit =
      Pages.page (RetirementTracker.recordsOf (retiredRecords ch hist) b) offset limit
  /-- the pages together are these records -/
  beneficiaryPages : ∀ b, (w.tracker.beneficiaryCredits b).length < 2 ^ 32 → ∀ n k,
    (w.tracker.beneficiaryCredits b).length ≤ k * n →
      w.tracker.pages b n k = RetirementTracker.recordsOf (retiredRecords ch hist) b
  /-- which are the stored ones, once each -/
  stored : ∀ b record, record ∈ RetirementTracker.recordsOf (retiredRecords ch hist) b ↔
    w.tracker.getRetirementRecord record.creditId = some record ∧ record.beneficiary = b
  nodup : ∀ b, ((RetirementTracker.recordsOf (retiredRecords ch hist) b).map
    RetirementRecord.creditId).Nodup

/-- **Indexes.**  After every run, for every registry, issuer and beneficiary: a request for a
page returns the slice of the submissions of the issuer, or of the retirements for the
beneficiary, that it asks for, and the pages together are these submissions and retirements,
once each and in the order of the run. -/
theorem indexes_exact (ch : Chain T) (tokens : T) (ts : List (Tx ch)) :
    ExactIndexes ch (steps (apply ch) (genesis tokens) ts)
      (run (apply ch) (genesis tokens) ts) := by
  have h := indexed_steps ch tokens ts
  generalize steps (apply ch) (genesis tokens) ts = hist at h ⊢
  generalize run (apply ch) (genesis tokens) ts = w at h ⊢
  have hissuer : ∀ r a, (submissions ch hist r a).length < 2 ^ 32 → ∀ offset limit,
      (w.registry r).readCreditsByIssuer a offset limit =
        Pages.page (submissions ch hist r a) offset limit := by
    intro r a hlen offset limit
    rw [← h.issuers r a] at hlen ⊢
    exact CreditRegistry.readCreditsByIssuer_eq hlen offset limit
  have hindex : ∀ b, w.tracker.beneficiaryCredits b =
      (RetirementTracker.recordsOf (retiredRecords ch hist) b).map RetirementRecord.creditId :=
    h.tracker.index
  constructor
  · exact hissuer
  · intro r a hlen n k hk
    exact Pages.flatten_reads (hissuer r a hlen) hk
  · intro r a
    rw [← h.issuers r a]
    exact (h.sorted r a).1
  · intro b hlen offset limit
    exact h.tracker.getRetirementsByBeneficiary_eq hlen offset limit
  · intro b hlen n k hk
    rw [hindex, List.length_map] at hk
    rw [RetirementTracker.pages, List.flatMap_def]
    exact Pages.flatten_reads
      (fun offset limit => h.tracker.getRetirementsByBeneficiary_eq hlen offset limit) hk
  · intro b record
    unfold RetirementTracker.recordsOf
    rw [List.mem_filter, decide_eq_true_eq]
    have hstored := h.tracker.stored record.creditId record
    constructor
    · rintro ⟨hmem, hb⟩
      exact ⟨hstored.mpr ⟨hmem, rfl⟩, hb⟩
    · rintro ⟨hrecord, hb⟩
      exact ⟨(hstored.mp hrecord).1, hb⟩
  · intro b
    rw [← hindex]
    have hsub : (w.tracker.beneficiaryCredits b).Sublist
        ((retiredRecords ch hist).map RetirementRecord.creditId) := by
      rw [hindex]
      exact List.filter_sublist.map _
    exact hsub.nodup h.tracker.nodup

end World

end CarbonVeritas
