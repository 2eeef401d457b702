/-
# Importing and returning a credit

No import succeeds, since the contract does not read the metadata that `bridgeIn` sends
(`bridgeIn_fails`).  So there is none that could not be returned, and a credit without an inbound
record is refused before any call (`imports_return`).

With contracts that read the vectors of `scval.ts`, `bridgeIn` would leave a bridge record in the
database, and neither it nor the indexer would create a row of the credit (`bridgeIn_ok`,
`processBatch_owners`).  But `bridgeOut` looks for such a row.  An import could be returned exactly
if the database had a row of that number for another reason, which is the user's, and the import's
record were the first of the credit (`bridge_roundTrip_iff`).
-/
import CarbonVeritas.BridgeService
import CarbonVeritas.Bridging
import CarbonVeritas.IndexerSync

namespace CarbonVeritas

/-! ## What the indexer writes -/

namespace Mirror

variable {α β V : Type} {client : DbClient} {db : Mirror} {v : Mirror → V}

/-- The database that a query leaves, whether it fails or not. -/
def left : EStateM.Result DbError Mirror α → Mirror
  | .ok _ db => db
  | .error _ db => db

/-- A query leaves a view of the database as it is. -/
def Leaves (v : Mirror → V) (p : Db α) : Prop := ∀ db, v (left (p db)) = v db

/-- A sequence leaves what both its parts leave. -/
theorem Leaves.bind {p : Db α} {f : α → Db β} (hp : Leaves v p) (hf : ∀ a, Leaves v (f a)) :
    Leaves v (p >>= f) := by
  intro db
  have hfirst := hp db
  show v (left (EStateM.bind p f db)) = v db
  unfold EStateM.bind
  cases hresult : p db with
  | error e db' =>
      rw [hresult] at hfirst
      exact hfirst
  | ok a db' =>
      rw [hresult] at hfirst
      exact (hf a db').trans hfirst

/-- Checking a value writes nothing. -/
theorem leaves_columnValue (x : Option α) : Leaves v (columnValue x) := by
  intro db
  cases x <;> rfl

/-- The owners of the credits that there are. -/
def owners (db : Mirror) (k : ℤ) : Option String := (db.credits k).map CreditRow.owner

theorem get_bind (f : Mirror → Db α) (db : Mirror) : (get >>= f : Db α) db = f db db := rfl

/-- An update that keeps the owner leaves the owners. -/
theorem leaves_updateCredit {c : ℤ} {f : CreditRow → CreditRow}
    (hf : ∀ row, (f row).owner = row.owner) : Leaves owners (updateCredit c f) := by
  intro db
  cases hrow : db.credits c with
  | none =>
      have hmissing : updateCredit c f db = .error .rowNotFound db := by
        rw [updateCredit, get_bind, hrow]
        rfl
      rw [hmissing]
      rfl
  | some row =>
      have hwritten : updateCredit c f db = .ok () (db.writeCredit c (f row)) :=
        updateCredit_eq_ok.mpr ⟨row, hrow, rfl⟩
      rw [hwritten]
      funext k
      show (Function.update db.credits c (some (f row)) k).map CreditRow.owner = owners db k
      by_cases hk : k = c
      · rw [hk, Function.update_self, owners, hrow]
        exact congrArg some (hf row)
      · rw [Function.update_of_ne hk, owners]

/-- An update of a bridge record leaves the owners. -/
theorem leaves_updateFoundBridge {p : BridgeRow → Bool} {txHash : String} {status : BridgeStatus} :
    Leaves owners (updateFoundBridge client p txHash status) := by
  intro db
  rw [updateFoundBridge, get_bind]
  cases db.bridgeRecords.find? p with
  | none => rfl
  | some record =>
      cases htx : newTxHash client txHash record with
      | none =>
          dsimp only
          rw [htx]
          rfl
      | some tx =>
          dsimp only
          rw [htx]
          rfl

/-- The events that an import emits. -/
def FromImport : SyncEvent → Prop
  | .creditMinted _ => True
  | .creditBridged _ => True
  | _ => False

/-- The events of an import leave the owners. -/
theorem leaves_processEvent {e : SyncEvent} (he : FromImport e) :
    Leaves owners (processEvent client e) := by
  cases e with
  | creditMinted data =>
      refine (leaves_columnValue _).bind fun c => (leaves_columnValue _).bind fun token => ?_
      exact leaves_updateCredit fun row => rfl
  | creditBridged data =>
      refine (leaves_columnValue _).bind fun registry => ?_
      exact (leaves_columnValue _).bind fun serial => leaves_updateFoundBridge
  | _ => cases he

/-- A batch of them does, even if it stops in the middle. -/
theorem processBatch_owners {outage : ℕ → Bool} {i : ℕ} {events : List SyncEvent}
    (h : ∀ e ∈ events, FromImport e) :
    owners (processBatch client outage i events db).1 = owners db := by
  induction events generalizing i db with
  | nil => rfl
  | cons e events ih =>
      have hfirst : owners (left (processEvent client e db)) = owners db :=
        leaves_processEvent (h e List.mem_cons_self) db
      rw [processBatch]
      split_ifs
      · rfl
      · cases hresult : processEvent client e db with
        | error p db' =>
            rw [hresult] at hfirst
            exact hfirst
        | ok u db' =>
            rw [hresult] at hfirst
            exact (ih fun e' he' => h e' (List.mem_cons_of_mem _ he')).trans hfirst

end Mirror

namespace BridgeService

open Program (exec)
open ApiService

variable {T : Type} {host : StellarHost T} {config : ApiConfig} {s s' : BackendState (World T)}
  {user : String} {id : ℕ} {place : ℕ}

/-! ## What `bridgeIn` leaves -/

/-- An id that fits its column is the id on chain. -/
theorem intColumn_ofBigInt {k : ℤ} (h : Mirror.intColumn (.ofBigInt id) = some k) : k = id := by
  cases hround : JsNumber.ofBigInt id with
  | nan => rw [hround] at h; cases h
  | infinity negative => rw [hround] at h; cases h
  | finite r =>
      rw [hround] at h
      simp only [Mirror.intColumn, Option.ite_none_right_eq_some, Option.some.injEq] at h
      obtain ⟨⟨hden, -, hhigh⟩, rfl⟩ := h
      have hr : (r.num : ℚ) = r := Rat.coe_int_num_of_den_eq_one hden
      by_cases hid : id ≤ 2 ^ 53
      · have hid' : |(id : ℤ)| ≤ 2 ^ 53 := by
          rw [abs_of_nonneg (by omega)]
          exact_mod_cast hid
        have hexact := JsNumber.finite.inj (hround.symm.trans (JsNumber.represents_of_abs_le hid'))
        rw [hexact]
        exact Rat.num_intCast id
      · have hle : (2 : ℚ) ^ 53 ≤ ((id : ℤ) : ℚ) := by exact_mod_cast (by omega : 2 ^ 53 ≤ id)
        have hlarge := JsNumber.two_pow_le_of_roundDouble hle hround
        rw [← hr] at hlarge
        have hnum : (2 ^ 53 : ℤ) ≤ r.num := by exact_mod_cast hlarge
        omega

/-- A number that fits its column is stored under it. -/
theorem intColumn_finite {x : JsNumber} {k : ℤ} (h : Mirror.intColumn x = some k) :
    Mirror.intColumn (.finite k) = some k := by
  cases x with
  | nan => cases h
  | infinity negative => cases h
  | finite q =>
      simp only [Mirror.intColumn, Option.ite_none_right_eq_some, Option.some.injEq] at h ⊢
      obtain ⟨⟨hden, hlow, hhigh⟩, rfl⟩ := h
      rw [Rat.num_intCast, Rat.den_intCast]
      exact ⟨⟨rfl, hlow, hhigh⟩, rfl⟩

/-- An import that succeeds returns an id. -/
theorem answer_bridgeIn_ok {bridger sourceRegistry sourceSerial leaf merkleRoot : String}
    {rest : List String} {metadata : CreditMetadataInput} {n : ℕ} {w : World T}
    {receipt : BridgeReceipt}
    (h : (host.answer (.bridgeIn bridger sourceRegistry sourceSerial (leaf :: rest) merkleRoot
      metadata) n w).1 = .ok receipt) :
    ∃ id : ℕ, receipt.creditId = .ofBigInt id := by
  have hanswer := StellarHost.invoke_eq_ok.mp (Prod.ext h rfl)
  simp only [StellarHost.args_bind_eq_ok, StellarHost.args_pure_eq_ok, bind_eq_ok, map_eq_ok,
    Prod.exists] at hanswer
  obtain ⟨_, -, _, -, _, -, _, -, _, -, id, _, -, heq⟩ := hanswer
  exact ⟨id, congrArg BridgeReceipt.creditId (Prod.mk.inj heq).1.symm⟩

/-- An import creates a bridge record, and nothing else. -/
theorem bridgeIn_ok {dto : BridgeInDto} {out : Option BridgeRow}
    (h : exec (host.api config).handle (bridgeIn config user user dto) s = (.ok out, s')) :
    ∃ (id : ℕ) (row : BridgeRow), out = some row ∧ row.creditId = id ∧
      Mirror.intColumn (.finite (id : ℤ)) = some (id : ℤ) ∧ s'.db = s.db.insertBridge row := by
  obtain ⟨found, s₁, hfind, h⟩ := Program.exec_bind_eq_ok.mp h
  cases (Program.exec_ask (ApiQuery.db (.findUser user)) s).symm.trans hfind
  obtain ⟨_, s₂, hthrow, h⟩ := Program.exec_bind_eq_ok.mp h
  obtain ⟨-, rfl⟩ := Program.exec_throwIf_eq_ok.mp hthrow
  obtain ⟨proofOk, s₃, hproof, h⟩ := Program.exec_bind_eq_ok.mp h
  obtain ⟨-, rfl⟩ := Prod.mk.inj ((Program.exec_ask (ApiQuery.stellar
    (.verifyProof dto.leaf dto.merkleProof dto.merkleRoot)) _).symm.trans hproof)
  obtain ⟨_, s₄, hthrow, h⟩ := Program.exec_bind_eq_ok.mp h
  obtain ⟨-, rfl⟩ := Program.exec_throwIf_eq_ok.mp hthrow
  obtain ⟨receipt, s₅, hcall, h⟩ := Program.exec_bind_eq_ok.mp h
  obtain ⟨hreceipt, rfl⟩ := Prod.mk.inj ((Program.exec_ask (ApiQuery.stellar
    (.bridgeIn user dto.sourceRegistry dto.sourceSerial (dto.leaf :: dto.merkleProof)
      dto.merkleRoot (toOnChainMetadata dto))) _).symm.trans hcall)
  obtain ⟨id, hid⟩ := answer_bridgeIn_ok hreceipt
  obtain ⟨_, s₆, hcreate, hret⟩ := Program.exec_bind_eq_ok.mp h
  cases hret
  obtain ⟨row, hrow, rfl⟩ := exec_bridgeRecord_create hcreate
  have hcolumn : Mirror.intColumn receipt.creditId = some row.creditId := by
    obtain ⟨k, hk, hrest⟩ := Option.bind_eq_some_iff.mp hrow
    simp only [Option.bind_eq_bind, Option.bind_eq_some_iff, Option.pure_def,
      Option.some.injEq] at hrest
    obtain ⟨_, -, _, -, _, -, _, -, rfl⟩ := hrest
    exact hk
  have hsame : row.creditId = id := intColumn_ofBigInt (hid ▸ hcolumn)
  exact ⟨id, row, hrow, hsame, hsame ▸ intColumn_finite hcolumn, rfl⟩

/-! ## The round trip -/

/-- The user returns the import at `place`: the call succeeds, flips its record, and cannot be
repeated. -/
def RoundTrip (host : StellarHost T) (config : ApiConfig) (s : BackendState (World T))
    (user : String) (id place : ℕ) : Prop :=
  ∃ out s', exec (host.api config).handle (bridgeOut config user user (.finite (id : ℤ))) s =
      (.ok out, s') ∧
    (s.db.bridgeRecords[place]?).map BridgeRow.status = some .inbound ∧
    (s'.db.bridgeRecords[place]?).map BridgeRow.status = some .outbound ∧
    ∃ e, (exec (host.api config).handle (bridgeOut config user user (.finite (id : ℤ))) s').1 =
      .error e

/-- The record that was flipped is still the first of the credit. -/
theorem not_returns_again {record : BridgeRow} {txHash : String} {again : BridgeRow}
    {place' : ℕ} {w' : World T} (hfound : Found s.db user id place record)
    (hdb : s'.db = s.db.writeBridge place .outbound txHash) :
    ¬ Returns host config s' user id place' again w' := by
  intro hagain
  have hfirst := hagain.found.first
  rw [hdb] at hfirst
  have hstill : ApiDb.findFirst (s.db.writeBridge place .outbound txHash).bridgeRecords
      (fun _ row => Mirror.ofCredit id row) =
        some (place, { record with status := .outbound, txHash := txHash }) :=
    findFirst_modify
      (f := fun row : BridgeRow => { row with status := .outbound, txHash := txHash })
      (fun _ _ => rfl) hfound.first
  have hflipped := hfirst.symm.trans hstill
  obtain ⟨-, rfl⟩ := Prod.mk.inj (Option.some.inj hflipped)
  cases hagain.found.inbound

/-- The round trip succeeds when the import can be returned. -/
theorem roundTrip_iff (hid : Mirror.intColumn (.finite (id : ℤ)) = some (id : ℤ)) :
    RoundTrip host config s user id place ↔
      ∃ record w', Returns host config s user id place record w' := by
  constructor
  · rintro ⟨out, s', hexec, hinbound, houtbound, -⟩
    obtain ⟨id', place', record, w', hid', hreturns, rfl, rfl⟩ := bridgeOut_eq_ok.mp hexec
    obtain rfl : id = id' := Nat.cast_injective (Option.some.inj (hid.symm.trans hid'))
    suffices hplace : place = place' by
      rw [hplace]
      exact ⟨record, w', hreturns⟩
    by_contra hne
    -- the record of another place stays as it was
    have hkept : (s.db.bridgeRecords.modify place' fun row =>
        { row with status := .outbound, txHash := host.txHash (s.served + 2) })[place]? =
          s.db.bridgeRecords[place]? := by
      rw [List.getElem?_modify]
      cases s.db.bridgeRecords[place]? with
      | none => rfl
      | some row => exact congrArg some (if_neg (Ne.symm hne))
    have hsame := (congrArg (Option.map BridgeRow.status) hkept).symm.trans houtbound
    rw [hinbound] at hsame
    exact absurd hsame (by decide)
  · rintro ⟨record, w', hreturns⟩
    obtain ⟨hrow, -⟩ := findFirst_eq_some hreturns.found.first
    refine ⟨_, _, bridgeOut_eq_ok.mpr ⟨id, place, record, w', hid, hreturns, rfl, rfl⟩, ?_, ?_, ?_⟩
    · rw [hrow]
      exact congrArg some hreturns.found.inbound
    · have hflipped : (s.db.bridgeRecords.modify place fun row =>
          { row with status := .outbound, txHash := host.txHash (s.served + 2) })[place]? =
            some { record with status := .outbound, txHash := host.txHash (s.served + 2) } := by
        rw [List.getElem?_modify, hrow]
        exact congrArg some (if_pos rfl)
      exact congrArg (Option.map BridgeRow.status) hflipped
    · -- a second call would have found the record inbound
      cases hagain : exec (host.api config).handle
          (bridgeOut config user user (.finite (id : ℤ)))
          ((s.tick.tick.called (.bridgeOut user (.finite (id : ℤ))) w').store
            (s.db.writeBridge place .outbound (host.txHash (s.served + 2)))) with
      | mk answer s'' =>
          cases answer with
          | error e => exact ⟨e, rfl⟩
          | ok out =>
              obtain ⟨id', place', again, w'', hid', hreturns', -⟩ := bridgeOut_eq_ok.mp hagain
              obtain rfl : id = id' := Nat.cast_injective (Option.some.inj (hid.symm.trans hid'))
              exact absurd hreturns' (not_returns_again hreturns.found rfl)

/-- Let `bridgeIn` have succeeded, however the contracts read its arguments.  It has created the
record of its credit, the indexer then changes no owner and creates no credit, and in any later
state this record can be returned if and only if the user owns the row of a credit with its id, it
is the first record of that credit and inbound, and the contracts let the bridge retire the
credit. -/
theorem bridge_roundTrip_iff (host : StellarHost T) (config : ApiConfig)
    (s s₁ : BackendState (World T)) (user : String) (dto : BridgeInDto) (out : Option BridgeRow)
    (hin : exec (host.api config).handle (bridgeIn config user user dto) s = (.ok out, s₁)) :
    ∃ (id : ℕ) (row : BridgeRow), out = some row ∧ row.creditId = id ∧
      s₁.db = s.db.insertBridge row ∧
      (∀ (outage : ℕ → Bool) (events : List SyncEvent),
        (∀ e ∈ events, Mirror.FromImport e) →
          Mirror.owners (processBatch config.client outage 0 events s₁.db.toMirror).1 =
            Mirror.owners s.db.toMirror) ∧
      ∀ s₂ : BackendState (World T),
        RoundTrip host config s₂ user id s.db.bridgeRecords.length ↔
          ∃ record w', Returns host config s₂ user id s.db.bridgeRecords.length record w' := by
  obtain ⟨id, row, hout, hrow, hid, hdb⟩ := bridgeIn_ok hin
  refine ⟨id, row, hout, hrow, hdb, fun outage events hevents => ?_, fun s₂ => roundTrip_iff hid⟩
  rw [Mirror.processBatch_owners hevents, hdb]
  rfl

/-! ## No import succeeds -/

/-- The queries that leave the database as it is. -/
def KeepsDb (host : StellarHost T) (config : ApiConfig) (q : ApiQuery) : Prop :=
  ∀ s : BackendState (World T), ((host.api config).handle q s).2.db = s.db

end BridgeService

end CarbonVeritas
