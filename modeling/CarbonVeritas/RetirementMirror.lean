/-
# Retirements in the database and on chain

The tracker retires a credit as a whole, where `retireCredit` records the tonnage that the
user has asked for.

* `serve_cases` : a request fails without effect, or it has retired the credit on chain;
* `retirements_agree_iff_whole` : a credit retired on chain does not stay active in the database
  exactly in the runs in which the retirements that the chain accepts ask for the whole credit, in
  texts that the database takes.
-/
import CarbonVeritas.RetirementService
import CarbonVeritas.StellarService

namespace CarbonVeritas

namespace RetirementService

open ApiService Transition
open RetirementTracker (MayRetire)
open Program (exec)

/-! ## Requests -/

structure RetireRequest where
  user : String
  creditId : JsNumber
  dto : RetireCreditDto

def serve {σ : Type} (api : ApiHost σ) (s : BackendState σ) (req : RetireRequest) :
    BackendState σ :=
  (exec api.handle (retireCredit api.toApiConfig req.user req.user req.creditId req.dto) s).2

/-- The input that the tracker is called with. -/
def RetireRequest.input (req : RetireRequest) (id : ℕ) : RetireInput where
  creditId := id
  reason := ApiScVal.utf8 req.dto.reason
  beneficiary := ApiScVal.utf8 req.dto.beneficiary
  accountingPeriod := ApiScVal.utf8 req.dto.accountingPeriod

/-! ## The side of the contracts -/

variable {T : Type} {host : StellarHost T} {config : ApiConfig} {s : BackendState (World T)}

/-- A retirement that the contracts accept, with the deployment `w'` after it. -/
def RetiresOnChain (host : StellarHost T) (n : ℕ) (w : World T) (req : RetireRequest) (id : ℕ)
    (w' : World T) : Prop :=
  ∃ owner registry metadata, host.address req.user = .ok owner ∧
    (host.env host.admin n).Authorised owner ∧ w.tracker.creditRegistry = some registry ∧
    MayRetire host.ch w.tracker w.ledger registry owner (req.input id) metadata ∧
    w' = { w with
      tracker := RetirementTracker.recorded (host.env host.admin n) w.tracker owner (req.input id)
      ledger := w.ledger.writeRegistry registry
        ((w.ledger.registries registry).writeCredit id { metadata with status := .retired }) }

/-- The receipt: the ledger is not found in the record, which is no array. -/
def receipt (host : StellarHost T) (n : ℕ) : RetireReceipt where
  txHash := host.txHash n
  ledgerSequence := .finite 0

/-- The contract accepts a retirement when the request can be retired on chain. -/
theorem answer_retire_eq_ok (req : RetireRequest) {n : ℕ} {w w' : World T} {r : RetireReceipt} :
    host.answer (.retire req.user req.creditId req.dto.reason req.dto.beneficiary
        req.dto.accountingPeriod) n w = (.ok r, w') ↔
      r = receipt host n ∧
        ∃ id, host.u64 (.number req.creditId) = .ok id ∧ RetiresOnChain host n w req id w' := by
  refine StellarHost.invoke_eq_ok.trans ?_
  simp only [StellarHost.args_bind_eq_ok, StellarHost.args_pure_eq_ok, map_eq_ok, Prod.exists,
    StellarHost.onTracker_eq_ok, RetirementTracker.retire_eq_ok,
    RetirementTracker.retireItem_eq_ok]
  constructor
  · rintro ⟨owner, howner, id, hid, record, _, ⟨_, _, ⟨hauth, registry, hwired, metadata, hmay,
      rfl, rfl, rfl⟩, rfl⟩, heq⟩
    obtain ⟨rfl, rfl⟩ := Prod.mk.inj heq
    exact ⟨rfl, id, hid, owner, registry, metadata, howner, hauth, hwired, hmay, rfl⟩
  · rintro ⟨rfl, id, hid, owner, registry, metadata, howner, hauth, hwired, hmay, rfl⟩
    exact ⟨owner, howner, id, hid, _, _, ⟨_, _, ⟨hauth, registry, hwired, metadata, hmay, rfl, rfl,
      rfl⟩, rfl⟩, rfl⟩

/-- The question whether a credit is retired is answered by the tracker. -/
theorem answer_isRetired_eq_ok {creditId : JsNumber} {n : ℕ} {w w' : World T} {retired : Bool} :
    host.answer (.isRetired creditId) n w = (.ok retired, w') ↔
      w' = w ∧ ∃ id, host.u64 (.number creditId) = .ok id ∧ retired = w.tracker.isRetired id := by
  refine StellarHost.invoke_eq_ok.trans ?_
  simp only [StellarHost.args_bind_eq_ok, StellarHost.args_pure_eq_ok]
  constructor
  · rintro ⟨id, hid, heq⟩
    obtain ⟨rfl, rfl⟩ := Prod.mk.inj (Except.ok.inj heq)
    exact ⟨rfl, id, hid, rfl⟩
  · rintro ⟨rfl, id, hid, rfl⟩
    exact ⟨id, hid, rfl⟩

/-! ## The side of the database -/

/-- The database and the amount let the user retire the credit. -/
structure PassesChecks (db : ApiDb) (user : String) (dto : RetireCreditDto) (id : ℤ)
    (credit : CreditRow) : Prop where
  stored : db.credits id = some credit
  owner : credit.owner = user
  active : credit.status = .active
  amount : ¬ ((JsNumber.finite 0).ge (tonnesRetired dto credit) = true ∨
    (tonnesRetired dto credit).gt (.finite credit.tonnes) = true)

/-- An amount that passes is no number, or a part of the credit. -/
theorem PassesChecks.amount_cases {db : ApiDb} {user : String} {dto : RetireCreditDto} {id : ℤ}
    {credit : CreditRow} (h : PassesChecks db user dto id credit) :
    tonnesRetired dto credit = .nan ∨
      ∃ x, tonnesRetired dto credit = .finite x ∧ 0 < x ∧ x ≤ credit.tonnes := by
  have hamount := h.amount
  cases htonnes : tonnesRetired dto credit with
  | nan => exact Or.inl rfl
  | infinity negative =>
      rw [htonnes] at hamount
      cases negative with
      | true => exact absurd (Or.inl rfl) hamount
      | false => exact absurd (Or.inr rfl) hamount
  | finite x =>
      rw [htonnes, JsNumber.ge_finite, JsNumber.gt_finite, decide_eq_true_eq, decide_eq_true_eq,
        not_or, not_le, not_lt] at hamount
      exact Or.inr ⟨x, rfl, hamount⟩

section Database

variable {σ : Type} {api : ApiHost σ} {u : BackendState σ} {id : ℤ} {credit : CreditRow}

/-- A credit passes the checks when it is the user's and active. -/
theorem exec_checkCredit_eq_ok {user : String} {creditId : JsNumber} {u' : BackendState σ} :
    exec api.handle (checkCredit user creditId) u = (.ok (id, credit), u') ↔
      Mirror.intColumn creditId = some id ∧ u.db.credits id = some credit ∧
        credit.owner = user ∧ credit.status = .active ∧ u' = u.tick := by
  simp only [checkCredit, Program.exec_bind_eq_ok, exec_credit_findUnique,
    Program.exec_orThrow_eq_ok, Program.exec_throwIf_eq_ok, Program.pure_eq, Program.exec_ret,
    Prod.mk.injEq, Except.ok.injEq, not_not]
  constructor
  · rintro ⟨_, _, ⟨hfound, rfl⟩, ⟨_, _⟩, _, ⟨rfl, rfl⟩, _, _, ⟨howner, rfl⟩, _, _,
      ⟨hactive, rfl⟩, ⟨rfl, rfl⟩, rfl⟩
    obtain ⟨hcolumn, hrow⟩ := lookup_eq_ok_some.mp hfound
    exact ⟨hcolumn, hrow, howner, hactive, rfl⟩
  · rintro ⟨hcolumn, hrow, howner, hactive, rfl⟩
    exact ⟨_, _, ⟨lookup_eq_ok_some.mpr ⟨hcolumn, hrow⟩, rfl⟩, (id, credit), _, ⟨rfl, rfl⟩, (), _,
      ⟨howner, rfl⟩, (), _, ⟨hactive, rfl⟩, ⟨rfl, rfl⟩, rfl⟩

/-- The checks only read. -/
theorem uses_checkCredit (user : String) (creditId : JsNumber) :
    (checkCredit user creditId).Uses fun q => q.reads = true := by
  refine (Program.uses_query (by rfl)).bind fun found => ?_
  refine (Program.uses_orThrow _ _).bind fun p => ?_
  refine (Program.uses_throwIf _ _).bind fun _ => ?_
  exact (Program.uses_throwIf _ _).bind fun _ => trivial

/-- A retirement whose row is refused. -/
theorem exec_recordRetirement_none {user : String} {dto : RetireCreditDto} {tonnes : JsNumber}
    {r : RetireReceipt}
    (hrow : retirementRow api.toApiConfig user id dto tonnes r (api.time u.served) = none) :
    exec api.handle (recordRetirement api.toApiConfig user id credit dto tonnes r) u =
      (.error (.database .invalidValue), u.tick.tick) := by
  unfold recordRetirement
  refine (Program.exec_bind_of_ok exec_now).trans ?_
  rw [hrow]
  exact Program.exec_bind_of_error (exec_retirement_create none)

/-- A retirement that is stored. -/
theorem exec_recordRetirement_some {user : String} {dto : RetireCreditDto} {tonnes : JsNumber}
    {r : RetireReceipt} {row : RetirementRow}
    (hrow : retirementRow api.toApiConfig user id dto tonnes r (api.time u.served) = some row)
    (hcredit : u.db.credits id = some credit) :
    ∃ u', exec api.handle (recordRetirement api.toApiConfig user id credit dto tonnes r) u =
        (.ok (some row), u') ∧ u'.chain = u.chain ∧
      u'.db.retirements = u.db.retirements ++ [row] ∧
      u'.db.credits = if tonnes.ge (.finite credit.tonnes) then
          Function.update u.db.credits id (some { credit with status := .retired })
        else u.db.credits := by
  have hexec : exec api.handle (recordRetirement api.toApiConfig user id credit dto tonnes r) u =
      exec api.handle
        (if tonnes.ge (.finite credit.tonnes) then do
          prisma.credit.update id (some { status := some .retired })
          return some row
        else return some row) (u.tick.store (u.db.insertRetirement row)) := by
    unfold recordRetirement
    refine (Program.exec_bind_of_ok exec_now).trans ?_
    rw [hrow]
    exact Program.exec_bind_of_ok (exec_retirement_create (some row))
  rw [hexec]
  have hstored : (u.db.insertRetirement row).credits id = some credit := hcredit
  split_ifs with hall
  · exact ⟨_, Program.exec_bind_of_ok (exec_credit_update_some hstored), rfl, rfl, rfl⟩
  · exact ⟨_, rfl, rfl, rfl, rfl⟩

end Database

/-! ## One request -/

/-- The request retires the credit `id` on chain, and the database lets it. -/
structure Takes (host : StellarHost T) (s : BackendState (World T)) (req : RetireRequest) (id : ℕ)
    (credit : CreditRow) (w' : World T) : Prop where
  column : Mirror.intColumn req.creditId = some (id : ℤ)
  checks : PassesChecks s.db req.user req.dto id credit
  chain : RetiresOnChain host (s.served + 2) s.chain req id w'

/-- A request that takes effect on chain goes on to write its record. -/
theorem exec_retireCredit_of_takes {req : RetireRequest} {id : ℕ} {credit : CreditRow}
    {w' : World T} (h : Takes host s req id credit w') (config : ApiConfig) :
    ∃ u : BackendState (World T), u.db = s.db ∧ u.chain = w' ∧
      exec (host.api config).handle
          (retireCredit config req.user req.user req.creditId req.dto) s =
        exec (host.api config).handle (recordRetirement (host.api config).toApiConfig req.user id
          credit req.dto (tonnesRetired req.dto credit) (receipt host (s.served + 2))) u := by
  obtain ⟨hcolumn, ⟨hstored, howner, hactive, hamount⟩, hchain⟩ := h
  have hcheck : exec (host.api config).handle (checkCredit req.user req.creditId) s =
      (.ok ((id : ℤ), credit), s.tick) :=
    exec_checkCredit_eq_ok.mpr ⟨hcolumn, hstored, howner, hactive, rfl⟩
  have hid : host.u64 (.number req.creditId) = .ok id :=
    (StellarHost.u64_of_intColumn hcolumn).mpr rfl
  have hfresh : s.chain.tracker.isRetired id = false := by
    obtain ⟨_, _, _, -, -, -, hmay, -⟩ := hchain
    show (s.chain.tracker.records id).isSome = false
    rw [show s.chain.tracker.records id = none from hmay.fresh]
    rfl
  have hretired : host.answer (.isRetired req.creditId) s.tick.served s.tick.chain =
      ((.ok false : Except ServiceError Bool), s.chain) :=
    answer_isRetired_eq_ok.mpr ⟨rfl, id, hid, hfresh.symm⟩
  have hretire : host.answer (.retire req.user req.creditId req.dto.reason req.dto.beneficiary
      req.dto.accountingPeriod) (s.served + 2) s.chain = (.ok (receipt host (s.served + 2)), w') :=
    (answer_retire_eq_ok req).mpr ⟨rfl, id, hid, hchain⟩
  refine ⟨(s.tick.called (.isRetired req.creditId) s.chain).called (.retire req.user req.creditId
    req.dto.reason req.dto.beneficiary req.dto.accountingPeriod) w', rfl, rfl, ?_⟩
  refine (Program.exec_bind_of_ok hcheck).trans ((exec_call_ok hretired).trans ?_)
  rw [Program.throwIf_bind, if_neg (by decide)]
  unfold requireAmount
  rw [Program.throwIf_bind, if_neg hamount]
  exact exec_call_ok hretire

/-- A request that retires nothing fails without effect. -/
theorem retireCredit_fails {req : RetireRequest} (config : ApiConfig)
    (h : ∀ id credit w', ¬ Takes host s req id credit w') :
    Fails s (exec (host.api config).handle
      (retireCredit config req.user req.user req.creditId req.dto) s) := by
  refine fails_bind (uses_checkCredit req.user req.creditId) fun found u hcheck => ?_
  obtain ⟨k, credit⟩ := found
  obtain ⟨hcolumn, hstored, howner, hactive, rfl⟩ := exec_checkCredit_eq_ok.mp hcheck
  cases hasked : (host.answer (.isRetired req.creditId) s.tick.served s.tick.chain).1 with
  | error e => exact fails_call hasked
  | ok retired =>
      obtain ⟨hkept, id, hid, -⟩ := answer_isRetired_eq_ok.mp (Prod.ext hasked rfl)
      have hretired : host.answer (.isRetired req.creditId) s.tick.served s.tick.chain =
          (.ok retired, s.chain) := Prod.ext hasked hkept
      have hnext : ∀ f : Bool → ApiProgram (Option RetirementRow),
          exec (host.api config).handle (stellar.isRetired req.creditId >>= f) s.tick =
            exec (host.api config).handle (f retired)
              (s.tick.called (.isRetired req.creditId) s.chain) := fun f => exec_call_ok hretired
      rw [hnext]
      -- the state at the next call
      obtain ⟨v, hdb, hchain, hserved, hv⟩ : ∃ v : BackendState (World T), v.db = s.db ∧
          v.chain = s.chain ∧ v.served = s.served + 2 ∧
          s.tick.called (.isRetired req.creditId) s.chain = v :=
        ⟨s.tick.called (.isRetired req.creditId) s.chain, rfl, rfl, rfl, rfl⟩
      rw [hv]
      refine Fails.of_eq (u := v) ?_ hdb hchain
      unfold requireAmount
      rw [Program.throwIf_bind]
      split_ifs with halready
      · exact ⟨⟨_, rfl⟩, rfl, rfl⟩
      · rw [Program.throwIf_bind]
        split_ifs with hamount
        · exact ⟨⟨_, rfl⟩, rfl, rfl⟩
        · -- all checks have passed, so the contracts refuse the retirement
          have hk : k = id := (StellarHost.u64_of_intColumn hcolumn).mp hid
          subst hk
          cases hretire : (host.answer (.retire req.user req.creditId req.dto.reason
              req.dto.beneficiary req.dto.accountingPeriod) v.served v.chain).1 with
          | error e => exact fails_call hretire
          | ok r =>
              obtain ⟨-, id', hid', hretires⟩ :=
                (answer_retire_eq_ok req).mp (Prod.ext hretire rfl)
              obtain rfl : id' = id := Except.ok.inj (hid'.symm.trans hid)
              rw [hserved, hchain] at hretires
              exact absurd ⟨hcolumn, ⟨hstored, howner, hactive, hamount⟩, hretires⟩
                (h id' credit _)

/-! ## What a retirement leaves -/

/-- The texts of the row and the transaction hash fit their columns. -/
structure TextsFit (config : ApiConfig) (dto : RetireCreditDto) (txHash : String) : Prop where
  beneficiary : config.client.storesText dto.beneficiary = true
  reason : config.client.storesText dto.reason = true
  accountingPeriod : config.client.storesText dto.accountingPeriod = true
  txHash : config.client.storesText txHash = true

/-- The record is written when its texts fit and the tonnes are a number. -/
theorem retirementRow_eq_some {user : String} {id : ℤ} {dto : RetireCreditDto} {tonnes : JsNumber}
    {n now : ℕ} {row : RetirementRow} :
    retirementRow config user id dto tonnes (receipt host n) now = some row ↔
      TextsFit config dto (host.txHash n) ∧ ∃ x, tonnes = .finite x ∧ row =
        { creditId := id, retiredBy := user, beneficiary := dto.beneficiary, reason := dto.reason,
          accountingPeriod := dto.accountingPeriod, tonnesRetired := x, txHash := host.txHash n,
          ledgerSequence := 0, timestamp := now } := by
  have hledger : Mirror.intColumn (receipt host n).ledgerSequence = some 0 := rfl
  simp only [retirementRow, Mirror.textColumn, Option.bind_eq_bind, Option.bind_eq_some_iff,
    Option.ite_none_right_eq_some, Option.some.injEq, hledger, Option.pure_def]
  constructor
  · rintro ⟨_, ⟨hbeneficiary, rfl⟩, _, ⟨hreason, rfl⟩, _, ⟨hperiod, rfl⟩, x, hx, _, ⟨hhash, rfl⟩,
      _, rfl, rfl⟩
    cases tonnes with
    | nan => cases hx
    | infinity negative => cases hx
    | finite q =>
        obtain rfl := Option.some.inj hx
        exact ⟨⟨hbeneficiary, hreason, hperiod, hhash⟩, q, rfl, rfl⟩
  · rintro ⟨⟨hbeneficiary, hreason, hperiod, hhash⟩, x, rfl, rfl⟩
    exact ⟨_, ⟨hbeneficiary, rfl⟩, _, ⟨hreason, rfl⟩, _, ⟨hperiod, rfl⟩, x, rfl, _, ⟨hhash, rfl⟩,
      _, rfl, rfl⟩

/-- The request asks for the whole credit, in texts that the database takes. -/
structure AsksWhole (host : StellarHost T) (config : ApiConfig) (s : BackendState (World T))
    (req : RetireRequest) (credit : CreditRow) : Prop where
  tonnes : tonnesRetired req.dto credit = .finite credit.tonnes
  texts : TextsFit config req.dto (host.txHash (s.served + 2))

/-- What the API makes of a retirement: nothing, if its row is refused; a row of a part of the
credit; or a row of the whole credit, which is then retired. -/
inductive Recorded (host : StellarHost T) (config : ApiConfig) (s : BackendState (World T))
    (req : RetireRequest) (id : ℕ) (credit : CreditRow) :
    Except ServiceError (Option RetirementRow) × BackendState (World T) → Prop where
  | refused {e : ServiceError} {u : BackendState (World T)}
      (hnot : ¬ AsksWhole host config s req credit) (hdb : u.db = s.db) :
      Recorded host config s req id credit (.error e, u)
  | part {row : RetirementRow} {u : BackendState (World T)}
      (hid : row.creditId = id) (hpos : 0 < row.tonnesRetired)
      (hpart : row.tonnesRetired < credit.tonnes)
      (hnot : ¬ AsksWhole host config s req credit)
      (hretirements : u.db.retirements = s.db.retirements ++ [row])
      (hcredits : u.db.credits = s.db.credits) :
      Recorded host config s req id credit (.ok (some row), u)
  | whole {row : RetirementRow} {u : BackendState (World T)}
      (hid : row.creditId = id) (hpos : 0 < row.tonnesRetired)
      (hwhole : row.tonnesRetired = credit.tonnes)
      (hasks : AsksWhole host config s req credit)
      (hretirements : u.db.retirements = s.db.retirements ++ [row])
      (hcredits : u.db.credits =
        Function.update s.db.credits id (some { credit with status := .retired })) :
      Recorded host config s req id credit (.ok (some row), u)

/-- **Inversion.**  A request fails without effect, or it retires its credit on chain. -/
theorem retireCredit_cases (host : StellarHost T) (config : ApiConfig)
    (s : BackendState (World T)) (req : RetireRequest) :
    (Fails s (exec (host.api config).handle
        (retireCredit config req.user req.user req.creditId req.dto) s) ∧
      ∀ id credit w', ¬ Takes host s req id credit w') ∨
    ∃ id credit, Takes host s req id credit (serve (host.api config) s req).chain ∧
      Recorded host config s req id credit (exec (host.api config).handle
        (retireCredit config req.user req.user req.creditId req.dto) s) := by
  by_cases htakes : ∃ id credit w', Takes host s req id credit w'
  · obtain ⟨id, credit, w', htake⟩ := htakes
    obtain ⟨u, hdb, hchain, hexec⟩ := exec_retireCredit_of_takes htake config
    refine Or.inr ⟨id, credit, ?_⟩
    have hserve : serve (host.api config) s req = _ := congrArg Prod.snd hexec
    rw [hserve, hexec]
    have hstored : u.db.credits id = some credit := by
      rw [hdb]
      exact htake.checks.stored
    -- on chain it is retired; whether it is recorded depends on its texts
    cases hrow : retirementRow (host.api config).toApiConfig req.user id req.dto
        (tonnesRetired req.dto credit) (receipt host (s.served + 2))
        ((host.api config).time u.served) with
    | none =>
        rw [exec_recordRetirement_none hrow]
        refine ⟨⟨htake.column, htake.checks, hchain ▸ htake.chain⟩, .refused (fun hasks => ?_) hdb⟩
        obtain ⟨row, hsome⟩ : ∃ row, retirementRow (host.api config).toApiConfig req.user id req.dto
            (tonnesRetired req.dto credit) (receipt host (s.served + 2))
            ((host.api config).time u.served) = some row :=
          ⟨_, retirementRow_eq_some.mpr ⟨hasks.texts, credit.tonnes, hasks.tonnes, rfl⟩⟩
        rw [hrow] at hsome
        cases hsome
    | some row =>
        obtain ⟨u', hret, hchain', hretirements, hcredits⟩ :=
          exec_recordRetirement_some hrow hstored
        obtain ⟨htexts, x, hx, hfields⟩ := retirementRow_eq_some.mp hrow
        obtain ⟨hpos, hle⟩ : 0 < x ∧ x ≤ credit.tonnes := by
          rcases htake.checks.amount_cases with hnan | ⟨y, hy, hbounds⟩
          · rw [hx] at hnan
            cases hnan
          · obtain rfl := JsNumber.finite.inj (hx.symm.trans hy)
            exact hbounds
        have hrowTonnes : row.tonnesRetired = x := by rw [hfields]
        have hrowId : row.creditId = id := by rw [hfields]
        rw [hret]
        rw [hdb] at hretirements hcredits
        rw [hx, JsNumber.ge_finite] at hcredits
        refine ⟨⟨htake.column, htake.checks, (hchain'.trans hchain) ▸ htake.chain⟩, ?_⟩
        -- the database retires the credit only if all of it is asked for
        rcases hle.lt_or_eq with hlt | heq
        · rw [if_neg fun h => absurd (of_decide_eq_true h) (not_le.mpr hlt)] at hcredits
          refine .part hrowId (hrowTonnes ▸ hpos) (hrowTonnes ▸ hlt) (fun hasks => ?_) hretirements
            hcredits
          exact hlt.ne (JsNumber.finite.inj (hx.symm.trans hasks.tonnes))
        · rw [if_pos (decide_eq_true heq.ge)] at hcredits
          exact .whole hrowId (hrowTonnes ▸ hpos) (hrowTonnes.trans heq) ⟨heq ▸ hx, htexts⟩
            hretirements hcredits
  · have hnone : ∀ id credit w', ¬ Takes host s req id credit w' :=
      fun id credit w' h => htakes ⟨id, credit, w', h⟩
    exact Or.inl ⟨retireCredit_fails config hnone, hnone⟩

/-! ## Credits in both -/

/-- What the API has recorded as retired of the credit. -/
def recordedTonnes (db : ApiDb) (id : ℤ) : ℚ :=
  ((db.retirements.filter fun row => row.creditId = id).map RetirementRow.tonnesRetired).sum

/-- The credit is in both, retired on chain if it is in the database; what is recorded of it has
been retired by the tracker, and is no more than the credit. -/
structure Tracked (host : StellarHost T) (id : ℕ) (s : BackendState (World T)) : Prop where
  wired : s.chain.tracker.creditRegistry = some host.registry
  stored : ∃ row metadata, s.db.credits id = some row ∧
    (s.chain.registry host.registry).credits id = some metadata ∧
    (row.status = .retired → metadata.status = .retired)
  recorded : ∀ row ∈ s.db.retirements, row.creditId = id → s.chain.tracker.records id ≠ none
  total : ∀ row, s.db.credits id = some row → recordedTonnes s.db id ≤ row.tonnes

/-- The credit is not retired on chain and still active in the database. -/
def NotLeftActive (host : StellarHost T) (id : ℕ) (s : BackendState (World T)) : Prop :=
  ∀ row metadata, s.db.credits id = some row →
    (s.chain.registry host.registry).credits id = some metadata → metadata.status = .retired →
    row.status ≠ .active

/-- A request on the credit that succeeds has recorded a part of it, and has retired it on both
sides or on neither. -/
def RecordsRetirement (host : StellarHost T) (config : ApiConfig) (id : ℕ)
    (s : BackendState (World T)) (req : RetireRequest) : Prop :=
  ∀ r s', exec (host.api config).handle
      (retireCredit config req.user req.user req.creditId req.dto) s = (.ok r, s') →
    Mirror.intColumn req.creditId = some (id : ℤ) →
    ∃ row credit metadata, r = some row ∧ row ∈ s'.db.retirements ∧ row.creditId = id ∧
      s'.db.credits id = some credit ∧ 0 < row.tonnesRetired ∧ row.tonnesRetired ≤ credit.tonnes ∧
      (s'.chain.registry host.registry).credits id = some metadata ∧
      (credit.status = .retired ↔ metadata.status = .retired)

/-- The retirements of the credit agree over a run of requests. -/
structure Agreement (host : StellarHost T) (config : ApiConfig) (id : ℕ)
    (s : BackendState (World T)) (reqs : List RetireRequest) : Prop where
  requests : Always (serve (host.api config)) (RecordsRetirement host config id) s reqs
  statuses : Throughout (serve (host.api config)) (NotLeftActive host id) s reqs
  totals : Throughout (serve (host.api config)) (fun s => ∀ row, s.db.credits id = some row →
    recordedTonnes s.db id ≤ row.tonnes) s reqs

/-- A retirement of the credit that the chain accepts and the database lets the user make asks
for the whole credit. -/
def RetiresWhole (host : StellarHost T) (config : ApiConfig) (id : ℕ) (s : BackendState (World T))
    (req : RetireRequest) : Prop :=
  ∀ credit w', Takes host s req id credit w' → AsksWhole host config s req credit

section Runs

variable {id n : ℕ} {req : RetireRequest} {credit : CreditRow} {w' : World T}

/-- What a retirement does to the contracts. -/
theorem Takes.effect (h : Takes host s req n credit w')
    (hwired : s.chain.tracker.creditRegistry = some host.registry) :
    ∃ metadata record, (s.chain.registry host.registry).credits n = some metadata ∧
      metadata.status = .active ∧ s.chain.tracker.records n = none ∧
      (w'.registry host.registry).credits = Function.update
        (s.chain.registry host.registry).credits n (some { metadata with status := .retired }) ∧
      w'.tracker.records = Function.update s.chain.tracker.records n (some record) ∧
      w'.tracker.creditRegistry = some host.registry := by
  obtain ⟨owner, registry, metadata, -, -, hregistry, hmay, rfl⟩ := h.chain
  obtain rfl := Option.some.inj (hregistry.symm.trans hwired)
  refine ⟨metadata, _, hmay.stored, hmay.active, hmay.fresh, ?_, rfl, hwired⟩
  exact congrArg CreditRegistry.credits (Ledger.registry_writeRegistry_self _ _ _)

/-- The tonnes on record depend on the retirements only. -/
theorem recordedTonnes_congr {db db' : ApiDb} {k : ℤ} (h : db'.retirements = db.retirements) :
    recordedTonnes db' k = recordedTonnes db k := by
  unfold recordedTonnes
  rw [h]

/-- A new row of another credit, or of this one. -/
theorem recordedTonnes_append {db db' : ApiDb} {row : RetirementRow} {k : ℤ}
    (h : db'.retirements = db.retirements ++ [row]) :
    recordedTonnes db' k =
      recordedTonnes db k + if row.creditId = k then row.tonnesRetired else 0 := by
  unfold recordedTonnes
  rw [h, List.filter_append, List.map_append, List.sum_append]
  refine congrArg (recordedTonnes db k + ·) ?_
  split_ifs with hk
  · have hown : [row].filter (fun row => row.creditId = k) = [row] := by simp [hk]
    rw [hown]
    exact List.sum_singleton
  · have hother : [row].filter (fun row => row.creditId = k) = [] := by simp [hk]
    rw [hother]
    rfl

/-- A credit without a record has no tonnes on record. -/
theorem recordedTonnes_eq_zero {db : ApiDb} {k : ℤ}
    (h : ∀ row ∈ db.retirements, row.creditId ≠ k) : recordedTonnes db k = 0 := by
  unfold recordedTonnes
  rw [List.filter_eq_nil_iff.mpr fun row hrow hk => h row hrow (of_decide_eq_true hk)]
  rfl

/-- The row of a credit after a retirement of the credit `n`. -/
theorem Recorded.credits {out : Except ServiceError (Option RetirementRow) × BackendState (World T)}
    (h : Recorded host config s req n credit out) :
    (¬ AsksWhole host config s req credit ∧ out.2.db.credits = s.db.credits) ∨
      AsksWhole host config s req credit ∧ out.2.db.credits =
        Function.update s.db.credits n (some { credit with status := .retired }) := by
  cases h with
  | refused hnot hdb => exact Or.inl ⟨hnot, congrArg (fun db : ApiDb => db.credits) hdb⟩
  | part _ _ _ hnot _ hcredits => exact Or.inl ⟨hnot, hcredits⟩
  | whole _ _ _ hasks _ hcredits => exact Or.inr ⟨hasks, hcredits⟩

/-- At most one row is recorded, of at most the whole credit. -/
theorem Recorded.retirements
    {out : Except ServiceError (Option RetirementRow) × BackendState (World T)}
    (h : Recorded host config s req n credit out) :
    out.2.db.retirements = s.db.retirements ∨ ∃ row : RetirementRow, row.creditId = n ∧
      row.tonnesRetired ≤ credit.tonnes ∧ out.2.db.retirements = s.db.retirements ++ [row] := by
  cases h with
  | refused _ hdb => exact Or.inl (congrArg (fun db : ApiDb => db.retirements) hdb)
  | part hid _ hpart _ hretirements _ => exact Or.inr ⟨_, hid, hpart.le, hretirements⟩
  | whole hid _ hwhole _ hretirements _ => exact Or.inr ⟨_, hid, hwhole.le, hretirements⟩

/-- A stored row keeps its tonnage. -/
theorem Recorded.tonnes {out : Except ServiceError (Option RetirementRow) × BackendState (World T)}
    (h : Recorded host config s req n credit out) (hcredit : s.db.credits n = some credit)
    {row' : CreditRow} (hrow' : out.2.db.credits id = some row') :
    ∃ row, s.db.credits id = some row ∧ row.tonnes = row'.tonnes := by
  rcases h.credits with ⟨-, hcredits⟩ | ⟨-, hcredits⟩
  · rw [hcredits] at hrow'
    exact ⟨row', hrow', rfl⟩
  · rw [hcredits] at hrow'
    by_cases hid : (id : ℤ) = n
    · rw [hid, Function.update_self] at hrow'
      obtain rfl := Option.some.inj hrow'
      exact ⟨credit, hid ▸ hcredit, rfl⟩
    · rw [Function.update_of_ne hid] at hrow'
      exact ⟨row', hrow', rfl⟩

/-- A request keeps what is tracked. -/
theorem Tracked.serve (h : Tracked host id s) :
    Tracked host id (serve (host.api config) s req) := by
  rcases retireCredit_cases host config s req with ⟨hfails, -⟩ | ⟨n, credit, htakes, hrecorded⟩
  · have hdb : (RetirementService.serve (host.api config) s req).db = s.db := hfails.db
    have hchain : (RetirementService.serve (host.api config) s req).chain = s.chain := hfails.chain
    exact ⟨hchain ▸ h.wired, hdb ▸ hchain ▸ h.stored, hdb ▸ hchain ▸ h.recorded, hdb ▸ h.total⟩
  · obtain ⟨metadata, record, hmetadata, -, hfresh, hcredits, hrecords, hwired⟩ :=
      htakes.effect h.wired
    have hown := htakes.checks.stored
    refine ⟨hwired, ?_, ?_, ?_⟩
    · obtain ⟨row, metadata', hrow, hmetadata', hretired⟩ := h.stored
      rw [hcredits]
      by_cases hid : id = n
      · subst hid
        rcases hrecorded.credits with ⟨-, hdb⟩ | ⟨-, hdb⟩
        · exact ⟨row, _, (congrFun hdb _).trans hrow, Function.update_self _ _ _, fun _ => rfl⟩
        · exact ⟨_, _, (congrFun hdb _).trans (Function.update_self _ _ _),
            Function.update_self _ _ _, fun _ => rfl⟩
      · have hne : (id : ℤ) ≠ (n : ℤ) := fun heq => hid (Int.ofNat.inj heq)
        refine ⟨row, metadata', ?_, (Function.update_of_ne hid _ _).trans hmetadata', hretired⟩
        rcases hrecorded.credits with ⟨-, hdb⟩ | ⟨-, hdb⟩
        · exact (congrFun hdb _).trans hrow
        · exact (congrFun hdb _).trans ((Function.update_of_ne hne _ _).trans hrow)
    · intro row hrow hid
      rw [hrecords]
      by_cases hn : id = n
      · rw [hn, Function.update_self]
        exact Option.some_ne_none _
      · rw [Function.update_of_ne hn]
        rcases hrecorded.retirements with hsame | ⟨new, hnew, -, happend⟩
        · exact h.recorded row (hsame ▸ hrow) hid
        · rcases List.mem_append.mp (happend ▸ hrow) with hold | hlast
          · exact h.recorded row hold hid
          · obtain rfl := List.mem_singleton.mp hlast
            exact absurd (Int.ofNat.inj (hid.symm.trans hnew)) hn
    · intro row' hrow'
      obtain ⟨row, hrow, htonnes⟩ := hrecorded.tonnes hown hrow'
      have htotal := h.total row hrow
      rw [← htonnes]
      rcases hrecorded.retirements with hsame | ⟨new, hnew, hpart, happend⟩
      · exact (recordedTonnes_congr hsame).trans_le htotal
      · refine (recordedTonnes_append happend).trans_le ?_
        split_ifs with hid
        · -- the tracker had no record of the credit, so neither had the database
          obtain rfl : n = id := Int.ofNat.inj (hnew.symm.trans hid)
          obtain rfl := Option.some.inj (hrow.symm.trans hown)
          rw [recordedTonnes_eq_zero fun row hrow hid => h.recorded row hrow hid hfresh, zero_add]
          exact hpart
        · rw [add_zero]
          exact htotal

/-- The credit is not left active exactly when it is retired as a whole. -/
theorem notLeftActive_serve_iff (h : Tracked host id s) (hnot : NotLeftActive host id s) :
    NotLeftActive host id (serve (host.api config) s req) ↔
      RetiresWhole host config id s req := by
  rcases retireCredit_cases host config s req with ⟨hfails, hnone⟩ | ⟨n, credit, htakes, hrecorded⟩
  · have hdb : (RetirementService.serve (host.api config) s req).db = s.db := hfails.db
    have hchain : (RetirementService.serve (host.api config) s req).chain = s.chain := hfails.chain
    refine iff_of_true ?_ fun credit w' htakes => absurd htakes (hnone id credit w')
    unfold NotLeftActive
    rw [hdb, hchain]
    exact hnot
  · obtain ⟨metadata, record, hmetadata, -, -, hcredits, -, -⟩ := htakes.effect h.wired
    have hown := htakes.checks.stored
    -- the request retires the credit itself, or another one
    by_cases hid : id = n
    · subst hid
      have hchain : ((RetirementService.serve (host.api config) s req).chain.registry
          host.registry).credits id = some { metadata with status := .retired } := by
        rw [hcredits, Function.update_self]
      rcases hrecorded.credits with ⟨hpart, hdb⟩ | ⟨hwhole, hdb⟩
      · refine iff_of_false (fun hkept => ?_) fun hall => hpart (hall credit _ htakes)
        exact hkept credit _ ((congrFun hdb _).trans hown) hchain rfl htakes.checks.active
      · refine iff_of_true ?_ fun credit' w' htakes' => ?_
        · intro row metadata' hrow _ _
          obtain rfl := Option.some.inj (((congrFun hdb _).trans
            (Function.update_self _ _ _)).symm.trans hrow)
          exact fun hactive => by cases hactive
        · obtain rfl := Option.some.inj (hown.symm.trans htakes'.checks.stored)
          exact hwhole
    · have hne : (id : ℤ) ≠ (n : ℤ) := fun heq => hid (Int.ofNat.inj heq)
      have hsame : (RetirementService.serve (host.api config) s req).db.credits id =
          s.db.credits id := by
        rcases hrecorded.credits with ⟨-, hdb⟩ | ⟨-, hdb⟩
        · exact congrFun hdb _
        · exact (congrFun hdb _).trans (Function.update_of_ne hne _ _)
      refine iff_of_true ?_ fun credit' w' htakes' => ?_
      · intro row metadata' hrow hmetadata'
        rw [hcredits, Function.update_of_ne hid] at hmetadata'
        exact hnot row metadata' (hsame ▸ hrow) hmetadata'
      · have hcolumn := Option.some.inj (htakes'.column.symm.trans htakes.column)
        exact absurd (Int.ofNat.inj hcolumn) hid

/-- What a request that succeeds has recorded; when it retires the whole credit, it has retired
it on both sides. -/
theorem recordsRetirement (h : Tracked host id s) (hwhole : RetiresWhole host config id s req) :
    RecordsRetirement host config id s req := by
  intro r s' hexec hcolumn
  rcases retireCredit_cases host config s req with ⟨hfails, -⟩ | ⟨n, credit, htakes, hrecorded⟩
  · obtain ⟨e, he⟩ := hfails.error
    rw [hexec] at he
    cases he
  · obtain rfl : id = n := Int.ofNat.inj (Option.some.inj (hcolumn.symm.trans htakes.column))
    obtain ⟨metadata, record, -, -, -, hcredits, -, -⟩ := htakes.effect h.wired
    have hasks := hwhole credit _ htakes
    have hserve : RetirementService.serve (host.api config) s req = s' := congrArg Prod.snd hexec
    rw [hserve] at hcredits
    rw [hexec] at hrecorded
    cases hrecorded with
    | part _ _ _ hnot _ _ => exact absurd hasks hnot
    | @whole row u hid hpos hall _ hretirements hdb =>
        refine ⟨row, _, _, rfl, ?_, hid, (congrFun hdb _).trans (Function.update_self _ _ _), hpos,
          hall.le, (congrFun hcredits _).trans (Function.update_self _ _ _), iff_of_true rfl rfl⟩
        rw [hretirements]
        exact List.mem_append_right _ (List.mem_singleton.mpr rfl)

end Runs

/-- The retirements of a credit agree over a run exactly when every retirement of it that the
chain accepts asks for the whole credit. -/
theorem retirements_agree_iff_whole (host : StellarHost T) (config : ApiConfig) (id : ℕ)
    (s : BackendState (World T)) (htracked : Tracked host id s) (hnot : NotLeftActive host id s)
    (reqs : List RetireRequest) :
    Agreement host config id s reqs ↔
      Always (serve (host.api config)) (RetiresWhole host config id) s reqs := by
  have hkeep : ∀ (u : BackendState (World T)) (req : RetireRequest), Tracked host id u →
      True → Tracked host id (serve (host.api config) u req) := fun u req hu _ => hu.serve
  have htrue : Always (serve (host.api config)) (fun _ _ => True) s reqs :=
    always_of_forall_mem (fun _ _ _ => trivial) s
  have hstatuses : Throughout (serve (host.api config)) (NotLeftActive host id) s reqs ↔
      Always (serve (host.api config)) (RetiresWhole host config id) s reqs :=
    throughout_iff_always hkeep (fun u req hu _ hactive => notLeftActive_serve_iff hu hactive)
      htracked hnot htrue
  constructor
  · exact fun hagree => hstatuses.mp hagree.statuses
  · intro hwhole
    refine ⟨?_, hstatuses.mpr hwhole, ?_⟩
    · exact (always_invariant (I := Tracked host id) (fun u req hu _ => hu.serve) htracked
        hwhole).mono fun u req h => recordsRetirement h.1 h.2
    · exact fun us hus => (throughout_invariant (I := Tracked host id) hkeep htracked htrue us
        hus).total

end RetirementService

namespace Sample

open RetirementService

/-- Account 0 retires its credit as a whole. -/
def wholeDto : RetireCreditDto := ⟨"Offset", "B", "2024", none⟩

/-- Account 0 retires 400 of the 1000 tonnes. -/
def partDto : RetireCreditDto := ⟨"Offset", "B", "2024", some "400"⟩

/-- The active credit of the sample is tracked. -/
theorem tracked_active : Tracked stellarHost 1 (backend .active activeWorld) where
  wired := rfl
  stored := ⟨creditRow .active, _, rfl, rfl, nofun⟩
  recorded := nofun
  total := by
    intro row hrow
    obtain rfl : creditRow .active = row := Option.some.inj hrow
    exact Nat.cast_nonneg 1000

/-- It is active on both sides. -/
theorem notLeftActive_active : NotLeftActive stellarHost 1 (backend .active activeWorld) := by
  intro row metadata _ hmetadata hretired
  have hactive : some metadata.status = some .active :=
    congrArg (Option.map CreditMetadata.status) hmetadata.symm
  rw [hretired] at hactive
  cases hactive

end Sample

namespace RetirementService

open Transition

open Sample in
/-- Retiring it as a whole keeps both sides in agreement. -/
theorem retirements_agree_whole : Agreement stellarHost apiConfig 1 (backend .active activeWorld)
    [⟨wallet, .finite 1, wholeDto⟩] := by
  refine (retirements_agree_iff_whole stellarHost apiConfig 1 _ tracked_active
    notLeftActive_active _).mpr ?_
  refine always_cons.mpr ⟨fun credit w' htakes => ⟨rfl, rfl, rfl, rfl, rfl⟩, always_nil _ _⟩

open Sample in
/-- A part of the credit is retired in the database, and all of it on chain. -/
theorem not_retirements_agree :
    ¬ ∀ (T : Type) (host : StellarHost T) (config : ApiConfig) (id : ℕ)
      (s : BackendState (World T)) (reqs : List RetireRequest), Tracked host id s →
      NotLeftActive host id s → Agreement host config id s reqs := by
  intro h
  have hstatuses := (h _ stellarHost apiConfig 1 (backend .active activeWorld)
    [⟨wallet, .finite 1, partDto⟩] tracked_active notLeftActive_active).statuses
  have hwhole := (notLeftActive_serve_iff tracked_active notLeftActive_active).mp hstatuses.last
  have hasks := hwhole (creditRow .active) _
    ⟨rfl, ⟨rfl, rfl, rfl, by decide +kernel⟩, .account 0, registry, _, rfl, by decide, rfl,
      ⟨by decide +kernel, rfl, rfl, rfl, rfl, rfl, rfl⟩, rfl⟩
  exact absurd hasks.tonnes (by decide +kernel)

end RetirementService

end CarbonVeritas
