/-
# The Soroban client

`api/src/stellar/soroban-client.ts`: `invoke`, `waitForReceipt` and `defaultFee`.

An invocation asks for the account of its signer, builds and signs a transaction, sends it, and
polls for its result until the transaction has settled or the time is up.  Between two of its
requests others move: other invocations, other clients of the network, the ledger and the clock.
A request is served at some moment, and the code continues with the answer at a later one; any
request may fail.  The loop of `waitForReceipt` has no bound of its own, so an invocation is a
state machine (`Invocation`) and not a program of finitely many queries.

The network is a ledger of numbered operations (`SequencedLedger`): a transaction carries the
next sequence number of its source account and a time bound.  What a contract call does to the
ledger is the parameter `SorobanHost.exec`.  The logger is left out.
-/
import CarbonVeritas.ScVal
import CarbonVeritas.SequencedLedger
import CarbonVeritas.TransitionRun
import CarbonVeritas.WebhooksService

namespace CarbonVeritas

open SequencedLedger Transition

/-! ## Transactions -/

/-- The transaction that `TransactionBuilder` builds for one contract call.  It is signed by
its source account. -/
structure Transaction where
  source : String
  sequence : ℕ
  fee : String
  networkPassphrase : String
  contractId : String
  method : String
  args : List ScVal
  /-- the upper time bound, in seconds -/
  maxTime : ℕ

structure SorobanInvokeOptions where
  contractId : String
  method : String
  args : List ScVal
  signerSecret : String
  fee : Option String := none

inductive SorobanStatus where
  | SUCCESS
  | FAILED
  deriving DecidableEq, Repr

structure SorobanInvokeReceipt where
  hash : String
  status : SorobanStatus
  /-- `null` if the call returned nothing -/
  returnValue : JsValue

/-- How an invocation throws. -/
inductive SorobanError where
  /-- the SDK rejects the secret or the contract id -/
  | sdk
  /-- a request to the server fails -/
  | rpc
  | rejected (method errorResult : String)
  | failed (hash result : String)
  | timedOut (hash : String)
  deriving DecidableEq, Repr

/-- The message of a `SorobanError`. -/
def SorobanError.message : SorobanError → Option String
  | .sdk => none
  | .rpc => none
  | .rejected method errorResult => some s!"Contract call {method} rejected: {errorResult}"
  | .failed hash result => some s!"Transaction {hash} failed on-chain: {result}"
  | .timedOut hash => some s!"Timed out waiting for transaction {hash} to settle"

/-! ## Answers of the server -/

inductive SendStatus where
  | PENDING
  | DUPLICATE
  | TRY_AGAIN_LATER
  | ERROR
  deriving DecidableEq, Repr

structure SendTransactionResponse where
  status : SendStatus
  hash : String
  errorResult : Option String

inductive GetTransactionResponse where
  | success (returnValue : Option ScVal)
  | failed (resultXdr : Option String)
  | notFound

/-! ## The host -/

/-- What the client runs with. -/
structure SorobanHost (σ : Type) where
  engine : JsEngine
  sdk : StellarSdk
  STELLAR_NETWORK_PASSPHRASE : Option String
  STELLAR_TX_FEE : Option String
  /-- `Keypair.fromSecret(secret).publicKey()` -/
  fromSecret : String → Option String
  /-- `new Contract(contractId)` accepts the id -/
  isContractId : String → Bool
  /-- the hash of a transaction -/
  hash : Transaction → String
  /-- the call of a transaction in a ledger that closes at a time -/
  exec : σ → Transaction → ℕ → Option (σ × Option ScVal)
  /-- how far the time of a closing ledger may be behind the clock, in seconds -/
  lag : ℕ

/-- Where an invocation stands. -/
inductive Invocation where
  | ready
  /-- `server.getAccount(publicKey)` is under way -/
  | account (publicKey : String)
  | accountAnswered (publicKey : String) (sequence : ℕ)
  /-- `server.sendTransaction(tx)` is under way -/
  | send (tx : Transaction)
  | sendAnswered (tx : Transaction) (response : SendTransactionResponse)
  /-- `server.getTransaction(hash)` is under way, in a loop that started at a time -/
  | poll (tx : Transaction) (hash : String) (started : ℕ)
  | pollAnswered (tx : Transaction) (hash : String) (started : ℕ)
      (response : GetTransactionResponse)
  /-- the timer fires at a time -/
  | wait (tx : Transaction) (hash : String) (started due : ℕ)
  /-- the invocation has ended, after building the transaction `tx` -/
  | ended (tx : Option Transaction) (result : Except SorobanError SorobanInvokeReceipt)

/-- The transaction that an invocation has built. -/
def Invocation.tx : Invocation → Option Transaction
  | .send tx => some tx
  | .sendAnswered tx _ => some tx
  | .poll tx _ _ => some tx
  | .pollAnswered tx _ _ _ => some tx
  | .wait tx _ _ _ => some tx
  | .ended tx _ => tx
  | _ => none

namespace SorobanHost

variable {σ : Type} (host : SorobanHost σ)

/-! ## The code -/

/-- `Networks.TESTNET` -/
def TESTNET : String := "Test SDF Network ; September 2015"

def networkPassphrase : String := host.STELLAR_NETWORK_PASSPHRASE.getD TESTNET

def defaultFee : String :=
  let raw := host.STELLAR_TX_FEE.getD ""
  let parsed := if raw ≠ "" then JsNumber.parseInt raw.toList else .finite 100000
  match parsed with
  | .finite q => if 0 < q then JsValue.numberText host.engine (.finite q) else "100000"
  | _ => "100000"

def timeoutMs : ℕ := 30000

def pollMs : ℕ := 1500

/-- The transaction of a call, built at the time `now`. -/
def buildTransaction (o : SorobanInvokeOptions) (publicKey : String) (sequence now : ℕ) :
    Transaction where
  source := publicKey
  sequence := sequence + 1
  fee := o.fee.getD host.defaultFee
  networkPassphrase := host.networkPassphrase
  contractId := o.contractId
  method := o.method
  args := o.args
  maxTime := now / 1000 + 30

def receipt (hash : String) (returnValue : Option ScVal) : SorobanInvokeReceipt where
  hash := hash
  status := .SUCCESS
  returnValue := match returnValue with
    | some v => v.toNative host.sdk
    | none => .null

/-- The code between two requests, run at the time `now`. -/
def resume (o : SorobanInvokeOptions) (now : ℕ) : Invocation → Invocation
  | .ready =>
      match host.fromSecret o.signerSecret with
      | none => .ended none (.error .sdk)
      | some publicKey =>
          if host.isContractId o.contractId then .account publicKey
          else .ended none (.error .sdk)
  | .accountAnswered publicKey sequence =>
      .send (host.buildTransaction o publicKey sequence now)
  | .sendAnswered tx response =>
      if response.status = .ERROR then
        .ended (some tx)
          (.error (.rejected o.method (response.errorResult.getD "no error result")))
      else .poll tx response.hash now
  | .pollAnswered tx hash started response =>
      match response with
      | .success returnValue => .ended (some tx) (.ok (host.receipt hash returnValue))
      | .failed resultXdr =>
          .ended (some tx) (.error (.failed hash (resultXdr.getD "no result XDR")))
      | .notFound =>
          if now - started > timeoutMs then .ended (some tx) (.error (.timedOut hash))
          else .wait tx hash started (now + pollMs)
  | .wait tx hash started due =>
      if due ≤ now then .poll tx hash started else .wait tx hash started due
  | i => i

/-! ## The network -/

/-- The rules of the ledger. -/
def rules : Rules σ String Transaction (Option ScVal) where
  account := Transaction.source
  number := Transaction.sequence
  expiry := Transaction.maxTime
  exec := host.exec

abbrev Network (σ : Type) := State σ String Transaction (Option ScVal)

/-- What the ledger knows of the transaction with a hash. -/
def lookup (l : Network σ) (hash : String) (resultXdr : Option String) : GetTransactionResponse :=
  match l.history.find? fun e => host.hash e.op = hash with
  | none => .notFound
  | some e =>
      match e.outcome with
      | some returnValue => .success returnValue
      | none => .failed resultXdr

end SorobanHost

/-! ## Turns -/

/-- Invocations of the client, the network and the clock (in milliseconds). -/
structure SorobanRun (κ σ : Type) where
  clock : ℕ
  network : SorobanHost.Network σ
  calls : κ → Invocation

/-- A turn of somebody. -/
inductive SorobanTurn (κ : Type) where
  /-- time passes -/
  | tick (ms : ℕ)
  /-- another client submits a transaction -/
  | submit (tx : Transaction)
  /-- the ledger applies the `i`-th received transaction -/
  | close (i time : ℕ)
  /-- `getAccount` of the invocation `k` is served -/
  | serveAccount (k : κ)
  /-- `sendTransaction` is served -/
  | serveSend (k : κ) (status : SendStatus) (errorResult : Option String)
  /-- `getTransaction` is served, by a server that has `caught up` with the ledger or not -/
  | serveTransaction (k : κ) (caughtUp : Bool) (resultXdr : Option String)
  /-- the request of `k` fails; a transaction may have arrived all the same -/
  | fail (k : κ) (arrived : Bool)
  /-- the code of `k` continues -/
  | resume (k : κ)

namespace SorobanRun

variable {κ σ : Type} [DecidableEq κ]

/-- The state with the invocation `k` at `i`. -/
def setCall (s : SorobanRun κ σ) (k : κ) (i : Invocation) : SorobanRun κ σ :=
  { s with calls := Function.update s.calls k i }

@[simp] theorem setCall_clock (s : SorobanRun κ σ) (k : κ) (i : Invocation) :
    (s.setCall k i).clock = s.clock := rfl

@[simp] theorem setCall_network (s : SorobanRun κ σ) (k : κ) (i : Invocation) :
    (s.setCall k i).network = s.network := rfl

@[simp] theorem setCall_calls (s : SorobanRun κ σ) (k : κ) (i : Invocation) :
    (s.setCall k i).calls k = i := by
  simp [setCall]

theorem setCall_calls_of_ne {j k : κ} (h : j ≠ k) (s : SorobanRun κ σ) (i : Invocation) :
    (s.setCall k i).calls j = s.calls j := by
  simp [setCall, h]

variable (host : SorobanHost σ) (options : κ → SorobanInvokeOptions)

/-- The server takes a transaction that it answers `PENDING`. -/
def serveSend (s : SorobanRun κ σ) (k : κ) (tx : Transaction) (status : SendStatus)
    (errorResult : Option String) : SorobanRun κ σ :=
  let network := if status = .PENDING then s.network.submit tx else s.network
  { s with network := network }.setCall k
    (.sendAnswered tx ⟨status, host.hash tx, errorResult⟩)

/-- The request of an invocation fails, and with it the invocation. -/
def failRequest (s : SorobanRun κ σ) (k : κ) (arrived : Bool) : SorobanRun κ σ :=
  match s.calls k with
  | .account _ => s.setCall k (.ended none (.error .rpc))
  | .send tx =>
      let network := if arrived then s.network.submit tx else s.network
      { s with network := network }.setCall k (.ended (some tx) (.error .rpc))
  | .poll tx _ _ => s.setCall k (.ended (some tx) (.error .rpc))
  | _ => s

/-- One turn.  A turn that is not due leaves everything as it was. -/
def next (s : SorobanRun κ σ) : SorobanTurn κ → SorobanRun κ σ
  | .tick ms => { s with clock := s.clock + ms }
  | .submit tx => { s with network := s.network.submit tx }
  | .close i time =>
      if s.clock / 1000 ≤ time + host.lag then
        { s with network := s.network.close host.rules i time }
      else s
  | .serveAccount k =>
      match s.calls k with
      | .account publicKey =>
          s.setCall k (.accountAnswered publicKey (s.network.number publicKey))
      | _ => s
  | .serveSend k status errorResult =>
      match s.calls k with
      | .send tx => s.serveSend host k tx status errorResult
      | _ => s
  | .serveTransaction k caughtUp resultXdr =>
      match s.calls k with
      | .poll tx hash started =>
          s.setCall k (.pollAnswered tx hash started
            (if caughtUp then host.lookup s.network hash resultXdr else .notFound))
      | _ => s
  | .fail k arrived => s.failRequest k arrived
  | .resume k => s.setCall k (host.resume (options k) s.clock (s.calls k))

end SorobanRun

end CarbonVeritas
