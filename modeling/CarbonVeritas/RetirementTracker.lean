/-
# The RetirementTracker contract

`contracts/retirement-tracker`: the storage of the contract (`storage.rs`), its events
(`events.rs`) and its entry points (`lib.rs`).  `retire` and every item of
`batch_retire` make the same checks (`checkRetire`) and the same writes
(`recordRetirement`); the batch is the loop `retireAll` over its items.

`exec_trackerChange` reduces both entry points to one run of that loop, and
`retireItem_eq_ok` says what one item of it does.
-/
import CarbonVeritas.Ledger

namespace CarbonVeritas

/-! ## Storage -/

structure RetireInput where
  creditId : ℕ
  reason : SorobanString
  beneficiary : SorobanString
  accountingPeriod : SorobanString
  deriving DecidableEq, Repr

/-- The instance storage of the tracker; its only event publishes the whole record. -/
structure RetirementTracker where
  /-- `"adm"` -/
  admin : Option Address := none
  /-- `"cr"` -/
  creditRegistry : Option Address := none
  /-- `("r", credit_id)` -/
  records : ℕ → Option RetirementRecord := fun _ => none
  /-- `("b", beneficiary)` -/
  beneficiaryCredits : SorobanString → List ℕ := fun _ => []
  events : List RetirementRecord := []

namespace RetirementTracker

/-! ### `storage.rs` -/

section Storage

variable (t : RetirementTracker)

@[simps -fullyApplied] def writeRetirementRecord (creditId : ℕ) (record : RetirementRecord) :
    RetirementTracker :=
  { t with records := Function.update t.records creditId (some record) }

def readRetirementRecord (creditId : ℕ) : Option RetirementRecord := t.records creditId

def isRetired (creditId : ℕ) : Bool := (t.records creditId).isSome

@[simps -fullyApplied] def addRetirementToBeneficiary (beneficiary : SorobanString)
    (creditId : ℕ) : RetirementTracker :=
  { t with
    beneficiaryCredits := Function.update t.beneficiaryCredits beneficiary
      (t.beneficiaryCredits beneficiary ++ [creditId]) }

/-- The loop reads the records of the entries at `offset..end`. -/
def readRetirementsByBeneficiary (beneficiary : SorobanString) (offset limit : ℕ) :
    List RetirementRecord :=
  let ids := t.beneficiaryCredits beneficiary
  let stop := min (u32SaturatingAdd offset limit) ids.length
  if ids.length ≤ offset then [] else ((ids.take stop).drop offset).filterMap t.records

@[simps -fullyApplied] def writeCreditRegistry (addr : Address) : RetirementTracker :=
  { t with creditRegistry := some addr }

def readCreditRegistry : Result Address := orPanic t.creditRegistry .unwrap

@[simps -fullyApplied] def writeAdmin (admin : Address) : RetirementTracker :=
  { t with admin := some admin }

/-- `events::emit_retired` -/
@[simps -fullyApplied] def emit (record : RetirementRecord) : RetirementTracker :=
  { t with events := t.events ++ [record] }

end Storage

/-! ### Entry points -/

variable {T : Type} (ch : Chain T) (env : Env) (t : RetirementTracker) (l : Ledger T)

def init (admin creditRegistry : Address) : Result (Unit × RetirementTracker) := do
  env.requireAuth admin
  let t := t.writeAdmin admin
  let t := t.writeCreditRegistry creditRegistry
  return ((), t)

/-- The checks on the input of one retirement. -/
def checkRetire (input : RetireInput) : Result Unit := do
  panicIf (input.reason = [] ∨ input.beneficiary = [] ∨ input.accountingPeriod = []) .invalidInput
  panicIf (t.isRetired input.creditId) .creditAlreadyRetired

/-- The record of one retirement. -/
def retirementRecord (owner : Address) (input : RetireInput) : RetirementRecord where
  creditId := input.creditId
  retiredBy := owner
  beneficiary := input.beneficiary
  reason := input.reason
  accountingPeriod := input.accountingPeriod
  tonnesRetired := 0
  txHash := 0#256
  ledgerSequence := env.sequence
  timestamp := env.timestamp
  certificateHash := 0#256

/-- The calls and the writes of one retirement. -/
def recordRetirement (creditRegistry owner : Address) (input : RetireInput) :
    Result (RetirementRecord × RetirementTracker × Ledger T) := do
  let ownerOnChain ← l.readRegistry ch creditRegistry fun s => s.getOwner input.creditId
  panicIf (ownerOnChain ≠ owner) .creditNotOwned
  let (_, l) ← l.callRegistry ch creditRegistry fun s =>
    s.markRetired (env.calledBy (ch.address .tracker)) (ch.address .tracker) input.creditId
  let record := retirementRecord env owner input
  let t := t.writeRetirementRecord input.creditId record
  let t := t.addRetirementToBeneficiary record.beneficiary input.creditId
  let t := t.emit record
  return (record, t, l)

def retire (owner : Address) (creditId : ℕ)
    (reason beneficiary accountingPeriod : SorobanString) :
    Result (RetirementRecord × RetirementTracker × Ledger T) := do
  let input : RetireInput :=
    { creditId := creditId, reason := reason, beneficiary := beneficiary,
      accountingPeriod := accountingPeriod }
  env.requireAuth owner
  t.checkRetire input
  let creditRegistry ← t.readCreditRegistry
  recordRetirement ch env t l creditRegistry owner input

/-- One item of a batch. -/
def retireItem (creditRegistry owner : Address) (input : RetireInput) :
    Result (RetirementRecord × RetirementTracker × Ledger T) := do
  t.checkRetire input
  recordRetirement ch env t l creditRegistry owner input

/-- The loop over the items of a batch. -/
def retireAll (creditRegistry owner : Address) :
    List RetireInput → RetirementTracker → Ledger T →
      Result (List RetirementRecord × RetirementTracker × Ledger T)
  | [], t, l => return ([], t, l)
  | input :: inputs, t, l => do
      let (record, t, l) ← retireItem ch env t l creditRegistry owner input
      let (records, t, l) ← retireAll creditRegistry owner inputs t l
      return (record :: records, t, l)

def batchRetire (owner : Address) (retirements : List RetireInput) :
    Result (List RetirementRecord × RetirementTracker × Ledger T) := do
  env.requireAuth owner
  panicIf (retirements.length > MAX_BATCH_RETIRE) .invalidInput
  let creditRegistry ← t.readCreditRegistry
  retireAll ch env creditRegistry owner retirements t l

def getRetirementRecord (creditId : ℕ) : Option RetirementRecord :=
  t.readRetirementRecord creditId

def getRetirementsByBeneficiary (beneficiary : SorobanString) (offset limit : ℕ) :
    List RetirementRecord :=
  t.readRetirementsByBeneficiary beneficiary offset limit

/-! ### Calls -/

/-- The public entry points of the contract. -/
inductive Call where
  | init (admin creditRegistry : Address)
  | retire (owner : Address) (creditId : ℕ)
      (reason beneficiary accountingPeriod : SorobanString)
  | batchRetire (owner : Address) (retirements : List RetireInput)
  | isRetired (creditId : ℕ)
  | getRetirementRecord (creditId : ℕ)
  | getRetirementsByBeneficiary (beneficiary : SorobanString) (offset limit : ℕ)

/-- The storage after a call; what the call returns is dropped. -/
def exec : Call → Result (RetirementTracker × Ledger T)
  | .init admin creditRegistry => (t.init env admin creditRegistry).map fun r => (r.2, l)
  | .retire owner creditId reason beneficiary accountingPeriod =>
      (retire ch env t l owner creditId reason beneficiary accountingPeriod).map Prod.snd
  | .batchRetire owner retirements => (batchRetire ch env t l owner retirements).map Prod.snd
  | .isRetired _ => .ok (t, l)
  | .getRetirementRecord _ => .ok (t, l)
  | .getRetirementsByBeneficiary _ _ _ => .ok (t, l)

/-! ## What each entry point does -/

section Spec

variable {ch env t l} {t' : RetirementTracker} {l' : Ledger T} {r owner : Address}

theorem init_eq_ok {admin creditRegistry : Address} {u : Unit} :
    t.init env admin creditRegistry = .ok (u, t') ↔
      env.Authorised admin ∧ t' = (t.writeAdmin admin).writeCreditRegistry creditRegistry := by
  simp only [init, bind_eq_ok, Env.requireAuth_eq_ok, pure_eq_ok, Prod.mk.injEq, true_and,
    exists_and_left, exists_const]
  constructor
  · rintro ⟨hauth, rfl⟩
    exact ⟨hauth, rfl⟩
  · rintro ⟨hauth, rfl⟩
    exact ⟨hauth, rfl⟩

/-- The checks of one retirement. -/
structure MayRetire (ch : Chain T) (t : RetirementTracker) (l : Ledger T) (r owner : Address)
    (input : RetireInput) (credit : CreditMetadata) : Prop where
  texts : input.reason ≠ [] ∧ input.beneficiary ≠ [] ∧ input.accountingPeriod ≠ []
  fresh : t.records input.creditId = none
  isRegistry : ch.isRegistry r = true
  owner : (l.registries r).owners input.creditId = some owner
  retirer : (l.registries r).retirers (ch.address .tracker) = true
  stored : (l.registries r).credits input.creditId = some credit
  active : credit.status = .active

/-- The retirement is a call of the registry that returns. -/
theorem MayRetire.exec_eq {input : RetireInput} {credit : CreditMetadata}
    (h : MayRetire ch t l r owner input credit) :
    CreditRegistry.exec ch.sha256 (env.calledBy (ch.address .tracker)) (l.registries r)
        (.markRetired (ch.address .tracker) input.creditId) =
      .ok ((l.registries r).writeCredit input.creditId { credit with status := .retired }) := by
  have hcall : (l.registries r).markRetired (env.calledBy (ch.address .tracker))
      (ch.address .tracker) input.creditId =
      .ok ((), (l.registries r).writeCredit input.creditId { credit with status := .retired }) :=
    CreditRegistry.markRetired_eq_ok.mpr
      ⟨Env.calledBy_authorised_self _ _, h.retirer, credit, h.stored, h.active, rfl⟩
  rw [CreditRegistry.exec, hcall]
  rfl

/-- The tracker after one retirement. -/
def recorded (env : Env) (t : RetirementTracker) (owner : Address) (input : RetireInput) :
    RetirementTracker :=
  ((t.writeRetirementRecord input.creditId (retirementRecord env owner input)
    ).addRetirementToBeneficiary input.beneficiary input.creditId
    ).emit (retirementRecord env owner input)

theorem retireItem_eq_ok {input : RetireInput} {record : RetirementRecord} :
    retireItem ch env t l r owner input = .ok (record, t', l') ↔
      ∃ credit, MayRetire ch t l r owner input credit ∧
        record = retirementRecord env owner input ∧ t' = recorded env t owner input ∧
        l' = l.writeRegistry r
          ((l.registries r).writeCredit input.creditId { credit with status := .retired }) := by
  have hfresh : ¬ t.isRetired input.creditId = true ↔ t.records input.creditId = none := by
    unfold isRetired
    rw [Option.not_isSome_iff_eq_none]
  simp only [retireItem, checkRetire, recordRetirement, bind_eq_ok, panicIf_eq_ok, hfresh,
    Ledger.readRegistry_eq_ok, Ledger.callRegistry_eq_ok, CreditRegistry.getOwner_eq_ok,
    CreditRegistry.markRetired_eq_ok, Env.calledBy_authorised_self, pure_eq_ok, Prod.exists,
    Prod.mk.injEq, not_not, not_or, true_and]
  constructor
  · rintro ⟨-, ⟨-, htexts, hnone⟩, _, ⟨hr, howner⟩, -, rfl, -, _,
      ⟨-, _, ⟨hretirer, credit, hstored, hactive, rfl⟩, rfl⟩, rfl, rfl, rfl⟩
    exact ⟨credit, ⟨htexts, hnone, hr, howner, hretirer, hstored, hactive⟩, rfl, rfl, rfl⟩
  · rintro ⟨credit, ⟨htexts, hnone, hr, howner, hretirer, hstored, hactive⟩, rfl, rfl, rfl⟩
    exact ⟨(), ⟨(), htexts, hnone⟩, _, ⟨hr, howner⟩, (), rfl, (), _,
      ⟨hr, _, ⟨hretirer, credit, hstored, hactive, rfl⟩, rfl⟩, rfl, rfl, rfl⟩

theorem retire_eq_ok {creditId : ℕ} {reason beneficiary accountingPeriod : SorobanString}
    {record : RetirementRecord} :
    retire ch env t l owner creditId reason beneficiary accountingPeriod = .ok (record, t', l') ↔
      env.Authorised owner ∧ ∃ r, t.creditRegistry = some r ∧
        retireItem ch env t l r owner ⟨creditId, reason, beneficiary, accountingPeriod⟩ =
          .ok (record, t', l') := by
  simp only [retire, retireItem, bind_eq_ok, Env.requireAuth_eq_ok, readCreditRegistry,
    orPanic_eq_ok]
  constructor
  · rintro ⟨_, hauth, _, hcheck, r, hwired, hrecord⟩
    exact ⟨hauth, r, hwired, _, hcheck, hrecord⟩
  · rintro ⟨hauth, r, hwired, _, hcheck, hrecord⟩
    exact ⟨(), hauth, (), hcheck, r, hwired, hrecord⟩

theorem batchRetire_eq_ok {retirements : List RetireInput} {records : List RetirementRecord} :
    batchRetire ch env t l owner retirements = .ok (records, t', l') ↔
      env.Authorised owner ∧ retirements.length ≤ MAX_BATCH_RETIRE ∧
        ∃ r, t.creditRegistry = some r ∧
          retireAll ch env r owner retirements t l = .ok (records, t', l') := by
  simp only [batchRetire, bind_eq_ok, Env.requireAuth_eq_ok, panicIf_eq_ok, readCreditRegistry,
    orPanic_eq_ok, gt_iff_lt, Nat.not_lt]
  constructor
  · rintro ⟨-, hauth, -, hlen, hall⟩
    exact ⟨hauth, hlen, hall⟩
  · rintro ⟨hauth, hlen, hall⟩
    exact ⟨(), hauth, (), hlen, hall⟩

theorem retireAll_nil_eq_ok {records : List RetirementRecord} :
    retireAll ch env r owner [] t l = .ok (records, t', l') ↔ records = [] ∧ t' = t ∧ l' = l := by
  simp only [retireAll, pure_eq_ok, Prod.mk.injEq]
  constructor
  · rintro ⟨rfl, rfl, rfl⟩
    exact ⟨rfl, rfl, rfl⟩
  · rintro ⟨rfl, rfl, rfl⟩
    exact ⟨rfl, rfl, rfl⟩

theorem retireAll_cons_eq_ok {input : RetireInput} {inputs : List RetireInput}
    {records : List RetirementRecord} :
    retireAll ch env r owner (input :: inputs) t l = .ok (records, t', l') ↔
      ∃ record t₁ l₁ rest, retireItem ch env t l r owner input = .ok (record, t₁, l₁) ∧
        retireAll ch env r owner inputs t₁ l₁ = .ok (rest, t', l') ∧ records = record :: rest := by
  simp only [retireAll, bind_eq_ok, pure_eq_ok, Prod.exists, Prod.mk.injEq]
  constructor
  · rintro ⟨record, t₁, l₁, hitem, rest, _, _, hrest, rfl, rfl, rfl⟩
    exact ⟨record, t₁, l₁, rest, hitem, hrest, rfl⟩
  · rintro ⟨record, t₁, l₁, rest, hitem, hrest, rfl⟩
    exact ⟨record, t₁, l₁, hitem, rest, t', l', hrest, rfl, rfl, rfl⟩

/-- **Loop rule.**  What every item preserves, the batch preserves. -/
theorem retireAll_rule {P : RetirementTracker → Ledger T → Prop}
    (hitem : ∀ t l input record t' l', P t l →
      retireItem ch env t l r owner input = .ok (record, t', l') → P t' l')
    {inputs : List RetireInput} {records : List RetirementRecord} (hP : P t l)
    (h : retireAll ch env r owner inputs t l = .ok (records, t', l')) : P t' l' := by
  induction inputs generalizing t l records with
  | nil =>
      obtain ⟨-, rfl, rfl⟩ := retireAll_nil_eq_ok.mp h
      exact hP
  | cons input inputs ih =>
      obtain ⟨record, t₁, l₁, rest, hfirst, hrest, -⟩ := retireAll_cons_eq_ok.mp h
      exact ih (hitem _ _ _ _ _ _ hP hfirst) hrest

/-- The inputs of the retirements that a call asks for. -/
def Call.inputs : Call → List RetireInput
  | .retire _ creditId reason beneficiary accountingPeriod =>
      [{ creditId := creditId, reason := reason, beneficiary := beneficiary,
         accountingPeriod := accountingPeriod }]
  | .batchRetire _ retirements => retirements
  | _ => []

/-- The arguments of a call of `init`. -/
def Call.initArgs : Call → Option (Address × Address)
  | .init admin creditRegistry => some (admin, creditRegistry)
  | _ => none

/-- What a call that returns does: it reads, it wires the tracker, or it retires all its
inputs for an owner who authorised it. -/
inductive TrackerChange (ch : Chain T) (env : Env) (t : RetirementTracker) (l : Ledger T)
    (t' : RetirementTracker) (l' : Ledger T) : Call → Prop where
  | keep {call : Call} (ht : t' = t) (hl : l' = l)
      (hread : (∃ id, call = .isRetired id) ∨ (∃ id, call = .getRetirementRecord id) ∨
        ∃ b i n, call = .getRetirementsByBeneficiary b i n) : TrackerChange ch env t l t' l' call
  | init {admin creditRegistry : Address} (hauth : env.Authorised admin)
      (ht : t' = (t.writeAdmin admin).writeCreditRegistry creditRegistry) (hl : l' = l) :
      TrackerChange ch env t l t' l' (.init admin creditRegistry)
  | retire {call : Call} {r owner : Address} {records : List RetirementRecord}
      (hcall : (∃ creditId reason beneficiary accountingPeriod,
        call = .retire owner creditId reason beneficiary accountingPeriod) ∨
        ∃ retirements, call = .batchRetire owner retirements)
      (hauth : env.Authorised owner) (hwired : t.creditRegistry = some r)
      (h : retireAll ch env r owner call.inputs t l = .ok (records, t', l')) :
      TrackerChange ch env t l t' l' call

theorem exec_trackerChange {call : Call} (h : exec ch env t l call = .ok (t', l')) :
    TrackerChange ch env t l t' l' call := by
  cases call <;> simp only [exec, map_eq_ok, Prod.exists, Except.ok.injEq, Prod.mk.injEq] at h
  case init admin creditRegistry =>
    obtain ⟨_, _, hinit, rfl, rfl⟩ := h
    obtain ⟨hauth, rfl⟩ := init_eq_ok.mp hinit
    exact .init hauth rfl rfl
  case retire owner creditId reason beneficiary accountingPeriod =>
    obtain ⟨record, t', l', hretire, rfl, rfl⟩ := h
    obtain ⟨hauth, r, hwired, hitem⟩ := retire_eq_ok.mp hretire
    have hall := retireAll_cons_eq_ok.mpr ⟨record, t', l', [], hitem,
      retireAll_nil_eq_ok.mpr ⟨rfl, rfl, rfl⟩, rfl⟩
    exact .retire (Or.inl ⟨_, _, _, _, rfl⟩) hauth hwired hall
  case batchRetire owner retirements =>
    obtain ⟨records, _, _, hretire, rfl, rfl⟩ := h
    obtain ⟨hauth, -, r, hwired, hall⟩ := batchRetire_eq_ok.mp hretire
    exact .retire (Or.inr ⟨_, rfl⟩) hauth hwired hall
  case isRetired =>
    obtain ⟨rfl, rfl⟩ := h
    exact .keep rfl rfl (Or.inl ⟨_, rfl⟩)
  case getRetirementRecord =>
    obtain ⟨rfl, rfl⟩ := h
    exact .keep rfl rfl (Or.inr (Or.inl ⟨_, rfl⟩))
  case getRetirementsByBeneficiary =>
    obtain ⟨rfl, rfl⟩ := h
    exact .keep rfl rfl (Or.inr (Or.inr ⟨_, _, _, rfl⟩))

/-- Only `init` changes the stored admin and registry address. -/
theorem TrackerChange.wiring {call : Call} (h : TrackerChange ch env t l t' l' call) :
    (call.initArgs = none ∧ t'.admin = t.admin ∧ t'.creditRegistry = t.creditRegistry) ∨
      ∃ admin r, call.initArgs = some (admin, r) ∧ env.Authorised admin ∧
        t'.admin = some admin ∧ t'.creditRegistry = some r := by
  cases h with
  | keep ht _ hread =>
      subst ht
      rcases hread with ⟨_, rfl⟩ | ⟨_, rfl⟩ | ⟨_, _, _, rfl⟩
      · exact Or.inl ⟨rfl, rfl, rfl⟩
      · exact Or.inl ⟨rfl, rfl, rfl⟩
      · exact Or.inl ⟨rfl, rfl, rfl⟩
  | @init admin r hauth ht _ =>
      subst ht
      exact Or.inr ⟨admin, r, rfl, hauth, rfl, rfl⟩
  | retire hcall _ _ hall =>
      have hkeep : t'.admin = t.admin ∧ t'.creditRegistry = t.creditRegistry := by
        refine retireAll_rule
          (P := fun u _ => u.admin = t.admin ∧ u.creditRegistry = t.creditRegistry) ?_
          ⟨rfl, rfl⟩ hall
        intro u k input record u' k' hu hitem
        obtain ⟨_, -, -, rfl, -⟩ := retireItem_eq_ok.mp hitem
        exact hu
      refine Or.inl ⟨?_, hkeep⟩
      rcases hcall with ⟨_, _, _, _, rfl⟩ | ⟨_, rfl⟩
      · rfl
      · rfl

end Spec

end RetirementTracker

end CarbonVeritas
