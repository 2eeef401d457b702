/-
# The contract calls of the API

`api/src/stellar/stellar.service.ts` on a deployment: each call encodes its arguments, invokes
an entry point of a contract in a transaction signed by the configured account, and reads what
the contract returned.  A call that panics leaves the deployment as it was.

An argument is encoded as in `ApiScVal`, and one that is not encoded fails the call before
anything is sent.  What a contract reads from a plain value is that value; how it reads a struct
and an `Option` is a field of `StellarHost`, and with the types of the contracts
(`ReadsContractTypes`) it reads neither from the vectors that the encoders write.  So the calls
that carry one of these always panic: `submitCredit`, `createOffer` and `bridgeIn`
(`sent_fails`).  What a contract returns is decoded as the SDK does it: a struct is an object, an
`Option` the bare value or null.
-/
import CarbonVeritas.ApiQueries
import CarbonVeritas.ContractEvents
import CarbonVeritas.World

namespace CarbonVeritas

/-- What the calls are made with. -/
structure StellarHost (T : Type) where
  engine : JsEngine
  sdk : ArgumentSdk
  ch : Chain T
  /-- `CREDIT_REGISTRY_CONTRACT` -/
  registry : Address
  /-- the account of `STELLAR_ADMIN_SECRET_KEY` -/
  admin : Address
  /-- the account of `STELLAR_VERIFIER_SECRET_KEY` -/
  verifier : Address
  /-- the ledger header at each query -/
  timestamp : ℕ → ℕ
  sequence : ℕ → ℕ
  /-- the hash of the transaction sent by a query -/
  txHash : ℕ → String
  /-- what a contract reads from an argument of type `CreditMetadata`; `none` when it panics -/
  readMetadata : ScVal → Option CreditMetadata
  /-- what a contract reads from an argument of type `Option<u64>`; `none` when it panics -/
  readOptionU64 : ScVal → Option (Option ℕ)
  /-- the text of an account's address has 56 characters -/
  valid_length : ∀ text, sdk.isValidEd25519PublicKey text = true → text.length = 56
  /-- the text of an integer below `2^64` is read as it is, or refused when it is negative -/
  uint64_toString : ∀ z : ℤ, z < 2 ^ 64 → sdk.uint64FromString (toString z) =
    if 0 ≤ z then some z.toNat else none

/-- The calls with an argument that is declared as a struct or an `Option`. -/
def StellarCall.sendsVector : StellarCall → Bool
  | .submitCredit _ _ _ => true
  | .createOffer _ _ _ _ _ _ => true
  | .bridgeIn _ _ _ _ _ _ => true
  | _ => false

def ApiQuery.sendsVector : ApiQuery → Bool
  | .stellar call => call.sendsVector
  | _ => false

namespace StellarHost

variable {T : Type} (host : StellarHost T)

/-- The contracts read a struct from the map of its fields, and an `Option` from the bare value or
void. -/
structure ReadsContractTypes : Prop where
  metadata : host.readMetadata = CreditMetadata.ofScVal
  optionU64 : host.readOptionU64 = fun v => v.toOption ScVal.toU64

/-! ## Arguments -/

/-- What the contract reads from an encoded argument. -/
def read {α : Type} (v : Except ApiError ScVal) (f : ScVal → Option α) : Except ApiError α := do
  ApiScVal.orThrow (f (← v)) .sdk

def address (addr : String) : Except ApiError Address :=
  read (ApiScVal.scAddress host.sdk addr) ScVal.toAddress

def u32 (value : JsNumber) : Except ApiError ℕ :=
  read (ApiScVal.scU32 host.engine value) ScVal.toU32

def u64 (value : Numeric) : Except ApiError ℕ :=
  read (ApiScVal.scU64 host.engine host.sdk value) ScVal.toU64

def i128 (value : Numeric) : Except ApiError ℤ :=
  read (ApiScVal.scI128 host.sdk value) ScVal.toI128

def bytes32 (hex : String) : Except ApiError Bytes32 :=
  read (ApiScVal.scBytes32 hex) ScVal.toBytes32

/-! ## Transactions -/

section Transactions

variable {α : Type}

/-- A transaction signed by the account `signer`. -/
def env (signer : Address) (n : ℕ) : Env where
  signers := [signer]
  invoker := none
  timestamp := host.timestamp n
  sequence := host.sequence n

/-- `invoke(..)` : the result of the call, and the deployment after it. -/
def invoke (w : World T) (call : Except ApiError (Result (α × World T))) :
    Except ServiceError α × World T :=
  match call with
  | .ok (.ok (a, w')) => (.ok a, w')
  | .ok (.error p) => (.error (.contract p), w)
  | .error e => (.error (.argument e), w)

def onRegistry (w : World T) (f : CreditRegistry → Result (α × CreditRegistry)) :
    Result (α × World T) := do
  let (a, l) ← w.ledger.callRegistry host.ch host.registry f
  return (a, { w with ledger := l })

def onMarketplace (w : World T) (call : Result (α × Marketplace × Ledger T)) :
    Result (α × World T) := do
  let (a, m, l) ← call
  return (a, { w with marketplace := m, ledger := l })

def onTracker (w : World T) (call : Result (α × RetirementTracker × Ledger T)) :
    Result (α × World T) := do
  let (a, t, l) ← call
  return (a, { w with tracker := t, ledger := l })

def onBridge (w : World T) (call : Result (α × MerkleBridge × Ledger T)) :
    Result (α × World T) := do
  let (a, b, l) ← call
  return (a, { w with bridge := b, ledger := l })

end Transactions

/-- The invocation of `submit_credit`, which returns the id of the credit. -/
def submission (issuer : String) (metadata : CreditMetadataInput) (ipfsHash : String) (n : ℕ)
    (w : World T) : Except ApiError (Result (ℕ × World T)) := do
  let issuer ← host.address issuer
  let metadata ← ApiScVal.toCreditMetadataScVal host.engine host.sdk metadata
  return do
    let metadata ← orPanic (host.readMetadata metadata) .conversion
    host.onRegistry w fun s =>
      s.submitCredit (host.env host.admin n) issuer metadata (ApiScVal.utf8 ipfsHash)

/-- The invocation of `create_offer`, which returns the id of the offer. -/
def offering (seller : String) (creditId pricePerTonne amount : JsNumber) (currency : String)
    (expiry : Option JsNumber) (n : ℕ) (w : World T) :
    Except ApiError (Result (ℕ × World T)) := do
  let seller ← host.address seller
  let creditId ← host.u64 (.number creditId)
  let pricePerTonne ← host.i128 (.number pricePerTonne)
  let amount ← host.i128 (.number amount)
  let currency ← host.address currency
  let expiry ← ApiScVal.scOptionU64 host.engine host.sdk (expiry.map .number)
  return do
    let expiry ← orPanic (host.readOptionU64 expiry) .conversion
    onMarketplace w (Marketplace.createOffer host.ch (host.env host.admin n) w.marketplace w.ledger
      seller creditId pricePerTonne amount currency expiry)

/-! ## Results -/

/-- What `approveAndMint` makes of the value returned. -/
def mintedToken (value : JsValue) : Option String :=
  match value with
  | .array (.buffer bytes :: _) => some (hexText bytes)
  | .array (first :: _) => some ((first.orElse (.string "")).text host.engine)
  | _ => none

/-- The value that an `Option<BytesN<32>>` is decoded to. -/
def nativeToken (token : Option Bytes32) : JsValue :=
  (ScVal.ofOption (fun h : Bytes32 => .bytes h.toBytes) token).toNative host.sdk.toStellarSdk

/-- `typeof value === 'bigint' ? Number(value) : value ?? 0` -/
def numberOr0 : JsValue → JsNumber
  | .bigint z => .ofBigInt z
  | value => (value.orElse (.number (.finite 0))).toNumber host.engine

def RETIREMENT_FIELDS : List String := ["creditId", "retiredBy", "beneficiary", "reason",
  "accountingPeriod", "tonnesRetired", "txHash", "ledgerSequence", "timestamp", "certificateHash"]

/-- The `ledgerSequence` of what `retire` returns. -/
def retiredLedger (value : JsValue) : JsNumber :=
  let record := ApiScVal.zipNativeFields RETIREMENT_FIELDS
    (match value with
      | .array values => values
      | _ => [])
  host.numberOr0 ((record.lookup "ledgerSequence").getD .undefined)

/-- What `getCertificateHash` makes of the value returned.  The value of a map is the array of
its entries, which are no values themselves. -/
def certificateHash (sv : ScVal) : Except ApiError String :=
  match sv with
  | .vec (record :: _) =>
      (ApiScVal.decodeStruct host.sdk.toStellarSdk RETIREMENT_FIELDS record).map fun fields =>
        match (fields.lookup "certificateHash").getD .undefined with
        | .buffer bytes => hexText bytes
        | hash => (hash.orElse (.string "")).text host.engine
  | .map (_ :: _) => .error .sdk
  | _ => .ok ""

/-! ## The calls -/

/-- The answer to a call made by the query `n`, and the deployment after it. -/
def answer : (call : StellarCall) → ℕ → World T → Except ServiceError call.Reply × World T
  | .submitCredit issuer metadata ipfsHash, n, w =>
      invoke w do
        let call ← host.submission issuer metadata ipfsHash n w
        return call.map fun r => (host.txHash n, r.2)
  | .approveAndMint verifier creditId comments, n, w =>
      invoke w do
        let verifier ← host.address verifier
        let creditId ← host.u64 (.number creditId)
        return (host.onRegistry w fun s =>
          s.approveAndMint host.ch.sha256 (host.env host.verifier n) verifier creditId
            (ApiScVal.utf8 comments)).map fun r =>
              (host.mintedToken (host.nativeToken r.1), r.2)
  | .rejectCredit verifier creditId reason, n, w =>
      invoke w do
        let verifier ← host.address verifier
        let creditId ← host.u64 (.number creditId)
        return host.onRegistry w fun s =>
          s.rejectCredit (host.env host.verifier n) verifier creditId (ApiScVal.utf8 reason)
  | .transferCredit fromAddr toAddr creditId, n, w =>
      invoke w do
        let fromAddr ← host.address fromAddr
        let toAddr ← host.address toAddr
        let creditId ← host.u64 (.number creditId)
        return host.onRegistry w fun s =>
          s.transferCredit (host.env host.admin n) fromAddr toAddr creditId
  | .retire owner creditId reason beneficiary accountingPeriod, n, w =>
      invoke w do
        let owner ← host.address owner
        let creditId ← host.u64 (.number creditId)
        return (onTracker w (RetirementTracker.retire host.ch (host.env host.admin n) w.tracker
          w.ledger owner creditId (ApiScVal.utf8 reason) (ApiScVal.utf8 beneficiary)
          (ApiScVal.utf8 accountingPeriod))).map fun r =>
            ({ txHash := host.txHash n
               ledgerSequence :=
                host.retiredLedger (r.1.toScVal.toNative host.sdk.toStellarSdk) }, r.2)
  | .isRetired creditId, _, w =>
      invoke w do
        let creditId ← host.u64 (.number creditId)
        return .ok (w.tracker.isRetired creditId, w)
  | .createOffer seller creditId pricePerTonne amount currency expiry, n, w =>
      invoke w do
        let call ← host.offering seller creditId pricePerTonne amount currency expiry n w
        return call.map fun r => (.ofBigInt r.1, r.2)
  | .buyCredits buyer offerId amount, n, w =>
      invoke w do
        let buyer ← host.address buyer
        let offerId ← host.u64 (.number offerId)
        let amount ← host.i128 (.number amount)
        return onMarketplace w (Marketplace.buyCredits host.ch (host.env host.admin n)
          w.marketplace w.ledger buyer offerId amount)
  | .cancelOffer caller offerId, n, w =>
      invoke w do
        let caller ← host.address caller
        let offerId ← host.u64 (.number offerId)
        return onMarketplace w (Marketplace.cancelOffer host.ch (host.env host.admin n)
          w.marketplace w.ledger caller offerId)
  | .bridgeIn bridger sourceRegistry sourceSerial merkleProof _merkleRoot metadata, n, w =>
      match merkleProof with
      | [] => (.error (.badGateway "bridgeIn requires a non-empty merkle proof"), w)
      | leaf :: rest =>
          invoke w do
            let bridger ← host.address bridger
            let leaf ← bytes32 leaf
            let rest ← rest.mapM bytes32
            let metadata ← ApiScVal.toCreditMetadataScVal host.engine host.sdk metadata
            return do
              let metadata ← orPanic (host.readMetadata metadata) .conversion
              (onBridge w (MerkleBridge.bridgeIn host.ch (host.env host.admin n) w.bridge w.ledger
                bridger (ApiScVal.utf8 sourceRegistry) (ApiScVal.utf8 sourceSerial) leaf rest
                metadata)).map fun r =>
                  ({ creditId := .ofBigInt r.1, txHash := host.txHash n }, r.2)
  | .bridgeOut owner creditId, n, w =>
      invoke w do
        let owner ← host.address owner
        let creditId ← host.u64 (.number creditId)
        return (onBridge w (MerkleBridge.bridgeOut host.ch (host.env host.admin n) w.bridge
          w.ledger owner creditId)).map fun r => (host.txHash n, r.2)
  | .verifyProof leaf proof root, _, w =>
      invoke w do
        let leaf ← bytes32 leaf
        let proof ← proof.mapM bytes32
        let root ← bytes32 root
        return .ok (MerkleBridge.verifyProof host.ch leaf proof root, w)
  | .getCertificateHash creditId, _, w =>
      invoke w do
        let creditId ← host.u64 (.number creditId)
        let hash ← host.certificateHash
          (ScVal.ofOption RetirementRecord.toScVal (w.tracker.getRetirementRecord creditId))
        return .ok (hash, w)

/-! ## Calls that fail -/

section Calls

variable {host} {α β : Type} {w w' : World T}

theorem args_bind_eq_ok {x : Except ApiError α} {f : α → Except ApiError β} {b : β} :
    (x >>= f) = .ok b ↔ ∃ a, x = .ok a ∧ f a = .ok b := by
  cases x with
  | error e => simp [bind, Except.bind]
  | ok a => simp [bind, Except.bind]

theorem args_pure_eq_ok {a b : α} : (pure a : Except ApiError α) = .ok b ↔ a = b := by
  simp [pure, Except.pure]

theorem invoke_eq_ok {call : Except ApiError (Result (α × World T))} {a : α} :
    invoke w call = (.ok a, w') ↔ call = .ok (.ok (a, w')) := by
  unfold invoke
  split
  · simp
  · simp
  · simp

theorem invoke_error {call : Except ApiError (Result (α × World T))} {e : ServiceError}
    (h : (invoke w call).1 = .error e) : (invoke w call).2 = w := by
  unfold invoke at h ⊢
  split at h
  · cases h
  · rfl
  · rfl

theorem onRegistry_eq_ok {f : CreditRegistry → Result (α × CreditRegistry)} {a : α} :
    host.onRegistry w f = .ok (a, w') ↔
      host.ch.isRegistry host.registry = true ∧
        ∃ registry, f (w.registry host.registry) = .ok (a, registry) ∧
          w' = { w with ledger := w.ledger.writeRegistry host.registry registry } := by
  simp only [onRegistry, bind_eq_ok, pure_eq_ok, Prod.exists, Prod.mk.injEq,
    Ledger.callRegistry_eq_ok]
  constructor
  · rintro ⟨_, _, ⟨hr, registry, hf, rfl⟩, rfl, rfl⟩
    exact ⟨hr, registry, hf, rfl⟩
  · rintro ⟨hr, registry, hf, rfl⟩
    exact ⟨a, _, ⟨hr, registry, hf, rfl⟩, rfl, rfl⟩

theorem onTracker_eq_ok {call : Result (α × RetirementTracker × Ledger T)} {a : α} :
    onTracker w call = .ok (a, w') ↔
      ∃ tracker ledger, call = .ok (a, tracker, ledger) ∧
        w' = { w with tracker := tracker, ledger := ledger } := by
  simp only [onTracker, bind_eq_ok, pure_eq_ok, Prod.exists, Prod.mk.injEq]
  constructor
  · rintro ⟨_, tracker, ledger, hcall, rfl, rfl⟩
    exact ⟨tracker, ledger, hcall, rfl⟩
  · rintro ⟨tracker, ledger, hcall, rfl⟩
    exact ⟨a, tracker, ledger, hcall, rfl, rfl⟩

/-- A call that fails leaves the deployment as it was. -/
theorem answer_error {call : StellarCall} {n : ℕ} {e : ServiceError}
    (h : (host.answer call n w).1 = .error e) : (host.answer call n w).2 = w := by
  cases call with
  | bridgeIn bridger sourceRegistry sourceSerial merkleProof merkleRoot metadata =>
      cases merkleProof with
      | nil => rfl
      | cons leaf rest => exact invoke_error h
  | _ => exact invoke_error h

/-- A contract reads no metadata from what the API sends for it. -/
theorem readMetadata_sent (hreads : host.ReadsContractTypes) {input : CreditMetadataInput}
    {v : ScVal} (hv : ApiScVal.toCreditMetadataScVal host.engine host.sdk input = .ok v) :
    host.readMetadata v = none := by
  obtain ⟨fields, rfl⟩ := ApiScVal.map_eq_ok hv
  rw [hreads.metadata]
  exact ApiScVal.ofScVal_vec fields

/-- A contract reads no option from what the API sends for it. -/
theorem readOptionU64_sent (hreads : host.ReadsContractTypes) {value : Option Numeric}
    {v : ScVal} (hv : ApiScVal.scOptionU64 host.engine host.sdk value = .ok v) :
    host.readOptionU64 v = none := by
  obtain ⟨items, rfl⟩ := ApiScVal.scOption_eq_vec hv
  rw [hreads.optionU64]
  exact ApiScVal.toOption_vec rfl

/-- **Vectors.**  A call that sends a struct or an option fails, whatever the contracts hold. -/
theorem sent_fails (hreads : host.ReadsContractTypes) {call : StellarCall}
    (hcall : call.sendsVector = true) (n : ℕ) (w : World T) :
    ∃ e, (host.answer call n w).1 = .error e := by
  cases hanswer : (host.answer call n w).1 with
  | error e => exact ⟨e, rfl⟩
  | ok r =>
      exfalso
      cases call with
      | submitCredit issuer metadata ipfsHash =>
          have hok := invoke_eq_ok.mp (Prod.ext hanswer rfl)
          simp only [submission, args_bind_eq_ok, args_pure_eq_ok, map_eq_ok] at hok
          obtain ⟨_, ⟨_, -, v, hv, rfl⟩, _, hcredit, -⟩ := hok
          obtain ⟨m, hm, -⟩ := bind_eq_ok.mp hcredit
          rw [orPanic_eq_ok, readMetadata_sent hreads hv] at hm
          cases hm
      | createOffer seller creditId pricePerTonne amount currency expiry =>
          have hok := invoke_eq_ok.mp (Prod.ext hanswer rfl)
          simp only [offering, args_bind_eq_ok, args_pure_eq_ok, map_eq_ok] at hok
          obtain ⟨_, ⟨_, -, _, -, _, -, _, -, _, -, v, hv, rfl⟩, _, hoffer, -⟩ := hok
          obtain ⟨e, he, -⟩ := bind_eq_ok.mp hoffer
          rw [orPanic_eq_ok, readOptionU64_sent hreads hv] at he
          cases he
      | bridgeIn bridger sourceRegistry sourceSerial merkleProof merkleRoot metadata =>
          cases merkleProof with
          | nil => cases hanswer
          | cons leaf rest =>
              have hok := invoke_eq_ok.mp (Prod.ext hanswer rfl)
              simp only [args_bind_eq_ok, args_pure_eq_ok, bind_eq_ok, orPanic_eq_ok] at hok
              obtain ⟨_, -, _, -, _, -, v, hv, m, hm, -⟩ := hok
              rw [readMetadata_sent hreads hv] at hm
              cases hm
      | _ => cases hcall

/-- The generated id of a user is no address. -/
theorem address_cuid (config : ApiConfig) (user : String) :
    ∃ e, host.address (config.cuid user) = .error e := by
  have hinvalid : host.sdk.isValidEd25519PublicKey (config.cuid user) ≠ true := by
    intro hvalid
    have hlength := host.valid_length _ hvalid
    rw [config.cuid_length] at hlength
    cases hlength
  unfold address ApiScVal.scAddress
  rw [if_neg hinvalid]
  exact ⟨_, rfl⟩

/-- An integer that the engine prints with all its digits is read as it is. -/
theorem u64_of_integer {q : ℚ} (hden : q.den = 1) (habs : q.num.natAbs ≤ 2 ^ 53) {n : ℕ} :
    host.u64 (.number (.finite q)) = .ok n ↔ q.num = n := by
  have hinteger : ApiScVal.asInteger (.finite q) = some q.num := if_pos hden
  have htext : JsValue.numberText host.engine (.finite q) = toString q.num := if_pos ⟨hden, habs⟩
  simp only [u64, read, ApiScVal.scU64, Numeric.toJsValue, JsValue.text, hinteger, htext,
    host.uint64_toString _ (show q.num < 2 ^ 64 by omega), reduceCtorEq, if_false]
  by_cases hnum : 0 ≤ q.num
  · rw [if_pos hnum]
    show Except.ok q.num.toNat = Except.ok n ↔ _
    rw [Except.ok.injEq]
    omega
  · rw [if_neg hnum]
    refine iff_of_false nofun ?_
    omega

/-- An id that the database has looked up is the id on chain, if it is not negative. -/
theorem u64_of_intColumn {x : JsNumber} {k : ℤ} (h : Mirror.intColumn x = some k) {n : ℕ} :
    host.u64 (.number x) = .ok n ↔ k = n := by
  cases x with
  | nan => cases h
  | infinity negative => cases h
  | finite q =>
      simp only [Mirror.intColumn, Option.ite_none_right_eq_some, Option.some.injEq] at h
      obtain ⟨⟨hden, hlow, hhigh⟩, rfl⟩ := h
      exact u64_of_integer hden (by omega)

end Calls

/-- The API with the contracts of the deployment. -/
def api (config : ApiConfig) : ApiHost (World T) where
  toApiConfig := config
  stellar := host.answer

end StellarHost

/-! ## Requests that the contracts refuse -/

namespace ApiService

open Program (exec)

/-- A call that the contracts refuse. -/
theorem fails_call {T β : Type} {host : StellarHost T} {config : ApiConfig}
    {s : BackendState (World T)} {call : StellarCall}
    {f : (ApiQuery.stellar call).Reply → ApiProgram β} {e : ServiceError}
    (h : (host.answer call s.served s.chain).1 = .error e) :
    Fails s (exec (host.api config).handle (.query (.stellar call) .ret >>= f) s) := by
  rw [exec_call_error h]
  exact ⟨⟨e, rfl⟩, rfl, StellarHost.answer_error h⟩

/-- A query with a call that sends a struct or an option fails without effect. -/
theorem fails_sent {T : Type} {host : StellarHost T} (hreads : host.ReadsContractTypes)
    (config : ApiConfig) {q : ApiQuery} (hq : q.sendsVector = true)
    (s : BackendState (World T)) : Fails s ((host.api config).handle q s) := by
  cases q with
  | stellar call =>
      obtain ⟨e, he⟩ := StellarHost.sent_fails hreads hq s.served s.chain
      exact ⟨⟨e, he⟩, rfl, StellarHost.answer_error he⟩
  | _ => cases hq

/-- A request that only reads before such a call fails without effect. -/
theorem fails_of_stopsAt {T β : Type} {host : StellarHost T} (hreads : host.ReadsContractTypes)
    (config : ApiConfig) {p : ApiProgram β}
    (hp : p.StopsAt (fun q => q.sendsVector = true) fun q => q.reads = true)
    (s : BackendState (World T)) : Fails s (exec (host.api config).handle p s) := by
  have hbarred : ∀ (q : ApiQuery) (u : BackendState (World T)), q.sendsVector = true →
      (u.db = s.db ∧ u.chain = s.chain) →
      (∃ e, ((host.api config).handle q u).1 = .error e) ∧
        ((host.api config).handle q u).2.db = s.db ∧
        ((host.api config).handle q u).2.chain = s.chain := by
    intro q u hq hu
    have hfails := fails_sent hreads config hq u
    exact ⟨hfails.error, hfails.db.trans hu.1, hfails.chain.trans hu.2⟩
  have hallowed : ∀ (q : ApiQuery) (u : BackendState (World T)), q.reads = true →
      (u.db = s.db ∧ u.chain = s.chain) →
      ((host.api config).handle q u).2.db = s.db ∧
        ((host.api config).handle q u).2.chain = s.chain := by
    intro q u hq hu
    rw [ApiHost.handle_reads hq]
    exact hu
  obtain ⟨herror, hdb, hchain⟩ := hp.exec
    (I := fun u : BackendState (World T) => u.db = s.db ∧ u.chain = s.chain) hbarred hallowed
    ⟨rfl, rfl⟩
  exact ⟨herror, hdb, hchain⟩

end ApiService

/-! ## A small backend

The deployment of which account 0 is the admin, the verifier and a user, who owns the active
credit 1. -/

namespace Sample

def wallet : String := "GAAAAAAAAAAAAAAAAAAAAAAAAAAAAAAAAAAAAAAAAAAAAAAAAAAAAWHF"

/-- The decimal texts of natural numbers. -/
def readNat (text : String) : Option ℕ :=
  if text.toList.all Char.isDigit then JsNumber.digitsValue 10 text.toList else none

theorem readNat_toString (z : ℤ) : readNat (toString z) = if 0 ≤ z then some z.toNat else none := by
  cases z with
  | ofNat n =>
      have htext : (toString (Int.ofNat n)).toList = Nat.toDigits 10 n := Nat.toList_repr
      have hdigits : ∀ c ∈ Nat.toDigits 10 n, c.isDigit = true := fun c hc =>
        Nat.isDigit_of_mem_toDigits (by decide) (by decide) hc
      unfold readNat
      rw [htext, if_pos (List.all_eq_true.mpr hdigits),
        JsNumber.digitsValue_of_isDigit Nat.toDigits_ne_nil hdigits, Nat.ofDigitChars_ten_toDigits]
      rfl
  | negSucc n =>
      have htext : (toString (Int.negSucc n)).toList = '-' :: (toString (n + 1)).toList := by
        show ("-" ++ Nat.repr (n + 1)).toList = _
        rw [String.toList_append]
        rfl
      unfold readNat
      rw [htext]
      rfl

def stellarSdk : ArgumentSdk :=
  { argumentSdk with
    uint64FromString := fun text => (readNat text).map fun n => n % 2 ^ 64 }

def stellarHost : StellarHost Balances where
  engine := asciiEngine
  sdk := stellarSdk
  ch := chain
  registry := registry
  admin := .account 0
  verifier := .account 0
  timestamp n := 20 + n
  sequence n := 20 + n
  txHash n := "tx" ++ toString n
  readMetadata := CreditMetadata.ofScVal
  readOptionU64 := fun v => v.toOption ScVal.toU64
  valid_length := by
    intro text h
    have htext : text = wallet := of_decide_eq_true h
    rw [htext]
    rfl
  uint64_toString := by
    intro z hlt
    show (readNat (toString z)).map _ = _
    rw [readNat_toString]
    split_ifs with hz
    · exact congrArg some (Nat.mod_eq_of_lt (by omega))
    · rfl

theorem stellarHost_readsContractTypes : stellarHost.ReadsContractTypes := ⟨rfl, rfl⟩

def apiConfig : ApiConfig where
  client := { storesText := fun _ => true, dateOfText := fun _ => some 0 }
  VERIFIER_THRESHOLD := some "1"
  VERIFIER_QUORUM := some "1"
  time n := 20000 + n
  overtakes _ := false
  cuid _ := "c000000000000000000000000"
  cuid_length _ := rfl

/-- Account 0 sets the contracts up. -/
def apiSetup : List (Tx chain) :=
  [tx 0 1 (.registry registry (.init (.account 0) 1 1)),
   tx 0 2 (.registry registry (.addVerifier (.account 0) (.account 0))),
   tx 0 3 (.marketplace (.init (.account 0) registry)),
   tx 0 4 (.tracker (.init (.account 0) registry)),
   tx 0 5 (.bridge (.init (.account 0) registry)),
   tx 0 6 (.registry registry (.addRetirer (.account 0) (.contract 2))),
   tx 0 7 (.registry registry (.addRetirer (.account 0) (.contract 3))),
   tx 0 8 (.registry registry (.addBridge (.account 0) (.contract 3)))]

def submitOne : Tx chain := tx 0 9 (.registry registry (.submitCredit (.account 0) metadata [73]))

def approveOne : Tx chain := tx 0 10 (.registry registry (.approveAndMint (.account 0) 1 []))

/-- Credit 1 is pending. -/
def pendingWorld : World Balances :=
  Transition.run (World.apply chain) start (apiSetup ++ [submitOne])

/-- Credit 1 is active. -/
def activeWorld : World Balances := World.apply chain pendingWorld approveOne

/-- The row of credit 1. -/
def creditRow (status : CreditStatus) : CreditRow where
  projectId := "V"
  methodology := "M"
  vintageStart := 1
  vintageEnd := 2
  tonnes := 1000
  geography := "BR"
  serialPrefix := "S"
  sdgFlags := 0
  permanenceRating := 0
  bufferContributionPct := 0
  additionalityType := 0
  ipfsHash := "I"
  status := status
  tokenId := none
  issuer := wallet
  owner := wallet

/-- A database with the user, an active verifier, and credit 1. -/
def apiDb (status : CreditStatus) : ApiDb where
  users := [wallet]
  verifiers := [⟨wallet, .active⟩]
  credits := fun k => if k = 1 then some (creditRow status) else none

def backend (status : CreditStatus) (w : World Balances) : BackendState (World Balances) where
  db := apiDb status
  chain := w
  calls := []
  served := 0

end Sample

end CarbonVeritas
