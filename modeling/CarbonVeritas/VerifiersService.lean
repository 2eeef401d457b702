/-
# Requests of verifiers

`register` and `heartbeat` of `api/src/verifiers/verifiers.service.ts`, with `registerVerifier` of
`StellarService`.  They work on the table `Verifier` and on the stake contract, which other clients
call as well; the chain is the list of its transactions.

`registerVerifier` signs with the verifier key of the API, whoever asks for it, and the amount of
the request is not sent.  An invocation can fail although its transaction takes effect, and two
invocations of one account that have loaded the same sequence number can send the same transaction,
whose result both return (`Settlement` says when).  A query of the database is answered at one point
of time, or not at all.  The loggers, the event emitter, which catches its errors, and a missing
configuration are left out.
-/
import CarbonVeritas.ApiBackend
import CarbonVeritas.AuthService
import CarbonVeritas.StakeRegister
import CarbonVeritas.StellarService

namespace CarbonVeritas

open Transition

/-! ## Tables -/

/-- A row of `Verifier`. -/
structure VerifierRecord where
  id : String
  userId : String
  status : VerifierStatus
  stake : ℚ
  reputation : ℤ
  heartbeatAt : Option ℤ
  createdAt : ℤ
  updatedAt : ℤ
  deriving DecidableEq

/-- A row with a new time of its heartbeat. -/
def VerifierRecord.beat (row : VerifierRecord) (heartbeatAt updatedAt : ℤ) : VerifierRecord :=
  { row with heartbeatAt := some heartbeatAt, updatedAt }

inductive VerifiersError where
  | badRequest (message : String)
  | notFound (message : String)
  | badGateway (message : String)
  /-- an argument of the contract call is not encoded -/
  | argument (e : ApiError)
  /-- the contract call panicked -/
  | contract (p : Panic)
  /-- the database does not answer -/
  | unavailable (message : String)
  | foreignKey
  | recordNotFound
  deriving DecidableEq

/-- How an invocation of the contract goes. -/
inductive InvokeOutcome where
  | settles
  /-- it has sent a transaction that was sent already, the one at `place` of the chain -/
  | shares (place : ℕ)
  /-- it throws, and its transaction takes effect or does not -/
  | throws (executed : Bool) (message : String)

/-- What the requests are served with. -/
structure VerifiersHost (T : Type) where
  sdk : ArgumentSdk
  /-- `VERIFIER_STAKE_CONTRACT` -/
  ch : StakeHost T
  /-- the tokens before the first transaction -/
  tokens : T
  /-- the account of `STELLAR_VERIFIER_SECRET_KEY` -/
  verifier : Address
  verifier_external : verifier ≠ ch.address
  /-- the ledger header, at each query -/
  timestamp : ℕ → ℕ
  sequence : ℕ → ℕ
  invocation : ℕ → InvokeOutcome
  /-- the database does not answer the query -/
  outage : ℕ → Option String
  /-- the clock at each query, in milliseconds -/
  time : ℕ → ℤ
  /-- the id that a row created by a query gets -/
  cuid : ℕ → String
  users : List UserRow

/-- The user that `JwtStrategy.validate` returns. -/
abbrev VerifiersHost.AuthUser {T : Type} (host : VerifiersHost T) := { u // u ∈ host.users }

/-- The table and the chain after some queries. -/
structure VerifiersState {T : Type} (host : VerifiersHost T) where
  verifiers : List VerifierRecord := []
  /-- the transactions of the chain -/
  txs : List (StakeTx host.ch) := []
  /-- the number of queries so far -/
  served : ℕ := 0

namespace VerifiersState

variable {T : Type} {host : VerifiersHost T} (s : VerifiersState host)

/-- The chain after its transactions. -/
def ledger : StakeLedger T :=
  run (StakeLedger.apply host.ch) (StakeLedger.genesis host.tokens) s.txs

/-- The transactions of the chain, with the states they were executed in. -/
def history : List (StakeLedger T × StakeTx host.ch) :=
  steps (StakeLedger.apply host.ch) (StakeLedger.genesis host.tokens) s.txs

@[simps] def tick : VerifiersState host := { s with served := s.served + 1 }

@[simps] def append (tx : StakeTx host.ch) : VerifiersState host :=
  { s with txs := s.txs ++ [tx], served := s.served + 1 }

@[simps] def insert (row : VerifierRecord) : VerifiersState host :=
  { s with verifiers := s.verifiers ++ [row], served := s.served + 1 }

@[simps] def write (id : String) (f : VerifierRecord → VerifierRecord) : VerifiersState host :=
  { s with
    verifiers := s.verifiers.map fun row => if row.id = id then f row else row
    served := s.served + 1 }

end VerifiersState

/-! ## Queries -/

inductive VerifiersQuery {T : Type} (host : VerifiersHost T) where
  /-- `new Date()`, in milliseconds -/
  | now
  | findVerifier (userId : String)
  | createVerifier (userId : String) (stake : ℚ) (status : VerifierStatus) (reputation : ℤ)
      (heartbeatAt : ℤ)
  | findVerifierById (id : String)
  | updateVerifier (id : String) (heartbeatAt : ℤ)
  /-- the account of the verifier key: how many transactions its sequence number comes after -/
  | loadAccount
  /-- the transaction with the sequence number that was loaded -/
  | invokeRegister (account : Address) (loaded : ℕ)
  /-- a transaction of another client -/
  | transaction (tx : StakeTx host.ch)

def VerifiersQuery.Reply {T : Type} {host : VerifiersHost T} : VerifiersQuery host → Type
  | now => ℤ
  | findVerifier _ => Option VerifierRecord
  | createVerifier _ _ _ _ _ => VerifierRecord
  | findVerifierById _ => Option VerifierRecord
  | updateVerifier _ _ => VerifierRecord
  | loadAccount => ℕ
  | invokeRegister _ _ => Bool
  | transaction _ => Unit

abbrev VerifiersProgram {T : Type} (host : VerifiersHost T) :=
  Program (fun q : VerifiersQuery host => q.Reply) VerifiersError

namespace VerifiersHost

variable {T : Type} (host : VerifiersHost T)

/-- The answer of the database, if it answers. -/
def reach {R : Type} (s : VerifiersState host)
    (answer : Except VerifiersError R × VerifiersState host) :
    Except VerifiersError R × VerifiersState host :=
  match host.outage s.served with
  | some message => (.error (.unavailable message), s.tick)
  | none => answer

/-- A transaction signed with the verifier key. -/
def env (n : ℕ) : Env where
  signers := [host.verifier]
  invoker := none
  timestamp := host.timestamp n
  sequence := host.sequence n

theorem env_external (n : ℕ) : ¬ (host.env n).Authorised host.ch.address := by
  rintro (hsigner | hinvoker)
  · exact host.verifier_external (List.mem_singleton.mp hsigner).symm
  · cases hinvoker

/-- The transaction that registers an account. -/
def registration (n : ℕ) (account : Address) : StakeTx host.ch :=
  .call (host.env n) (host.env_external n) (.register account)

/-- The row that a query creates. -/
def newRow (n : ℕ) (userId : String) (stake : ℚ) (status : VerifierStatus) (reputation : ℤ)
    (heartbeatAt : ℤ) : VerifierRecord where
  id := host.cuid n
  userId := userId
  status := status
  stake := stake
  reputation := reputation
  heartbeatAt := some heartbeatAt
  createdAt := host.time n
  updatedAt := host.time n

/-- A transaction of its own. -/
def settle (account : Address) (s : VerifiersState host) :
    Except VerifiersError Bool × VerifiersState host :=
  match VerifierStake.register host.ch (host.env s.served) s.ledger.contract s.ledger.tokens
      account with
  | .ok (registered, _, _) => (.ok registered, s.append (host.registration s.served account))
  | .error p => (.error (.contract p), s.tick)

/-- The transaction is signed with the verifier key alone. -/
def signedAlone : StakeTx host.ch → Bool
  | .call env _ _ => env.signers = [host.verifier] ∧ env.invoker = none
  | .other _ _ => false

/-- The transaction at `place` could be the one that is sent: it is executed after the sequence
number was loaded, is signed with the verifier key, and has registered the account. -/
def canShare (account : Address) (loaded place : ℕ) (s : VerifiersState host) : Bool :=
  s.history[place]?.any fun p => decide (loaded ≤ place) && host.signedAlone p.2 &&
    decide ((StakeLedger.accepted host.ch p.1 p.2).bind VerifierStake.Call.registered =
      some account)

/-- `invoke(..)` of the client, once the sequence number is loaded. -/
def invoke (account : Address) (loaded : ℕ) (s : VerifiersState host) :
    Except VerifiersError Bool × VerifiersState host :=
  match host.invocation s.served with
  | .settles => host.settle account s
  | .shares place =>
      if host.canShare account loaded place s = true then (.ok true, s.tick)
      else host.settle account s
  | .throws executed message =>
      (.error (.badGateway message),
        if executed then s.append (host.registration s.served account) else s.tick)

/-- The account that a wallet is the address of. -/
def account (wallet : String) : Except ApiError Address :=
  StellarHost.read (ApiScVal.scAddress host.sdk wallet) ScVal.toAddress

/-- The answer to a query, and the state after it. -/
def handle : (q : VerifiersQuery host) → VerifiersState host →
    Except VerifiersError q.Reply × VerifiersState host
  | .now, s => (.ok (host.time s.served), s.tick)
  | .findVerifier userId, s =>
      host.reach s (.ok (s.verifiers.find? fun row => row.userId = userId), s.tick)
  | .createVerifier userId stake status reputation heartbeatAt, s =>
      let row := host.newRow s.served userId stake status reputation heartbeatAt
      host.reach s
        (if ∃ u ∈ host.users, u.id = userId then (.ok row, s.insert row)
          else (.error .foreignKey, s.tick))
  | .findVerifierById id, s =>
      host.reach s (.ok (s.verifiers.find? fun row => row.id = id), s.tick)
  | .updateVerifier id heartbeatAt, s =>
      host.reach s
        (match s.verifiers.find? fun row => row.id = id with
          | some row =>
              (.ok (row.beat heartbeatAt (host.time s.served)),
                s.write id fun row => row.beat heartbeatAt (host.time s.served))
          | none => (.error .recordNotFound, s.tick))
  | .loadAccount, s => (.ok s.txs.length, s.tick)
  | .invokeRegister account loaded, s => host.invoke account loaded s
  | .transaction tx, s => (.ok (), s.append tx)

end VerifiersHost

/-! ## The service -/

/-- A body that passes the validation of `RegisterVerifierDto`. -/
structure RegisterVerifierDto where
  stake : ℚ
  min : 1 ≤ stake

inductive VerifiersResponse where
  | registered (verifier : VerifierRecord)
  | alive (verifier : VerifierRecord)
  | executed

namespace VerifiersService

open Program (throwIf orThrow)

variable {T : Type} {host : VerifiersHost T}

def Date.now : VerifiersProgram host ℤ := .query .now .ret

namespace prisma

def verifier.findFirst (userId : String) : VerifiersProgram host (Option VerifierRecord) :=
  .query (.findVerifier userId) .ret

def verifier.create (userId : String) (stake : ℚ) (status : VerifierStatus) (reputation : ℤ)
    (heartbeatAt : ℤ) : VerifiersProgram host VerifierRecord :=
  .query (.createVerifier userId stake status reputation heartbeatAt) .ret

def verifier.findUnique (id : String) : VerifiersProgram host (Option VerifierRecord) :=
  .query (.findVerifierById id) .ret

def verifier.update (id : String) (heartbeatAt : ℤ) : VerifiersProgram host VerifierRecord :=
  .query (.updateVerifier id heartbeatAt) .ret

end prisma

/-- `scAddress(address)` -/
def encoded (address : String) : VerifiersProgram host Address :=
  match host.account address with
  | .ok account => .ret account
  | .error e => .throw (.argument e)

/-- The stake is not sent. -/
def stellar.registerVerifier (address : String) (_stake : ℚ) : VerifiersProgram host Bool := do
  let account ← encoded address
  let loaded ← (.query .loadAccount .ret : VerifiersProgram host ℕ)
  .query (.invokeRegister account loaded) .ret

/-- What is done once the account is registered on the chain. -/
def recordVerifier (userId : String) (dto : RegisterVerifierDto) (success : Bool) :
    VerifiersProgram host VerifiersResponse := do
  throwIf (success = false) (.badRequest "On-chain verifier registration failed")
  let now ← Date.now
  let verifier ← prisma.verifier.create userId dto.stake .active 0 now
  return .registered verifier

def register (userId wallet : String) (dto : RegisterVerifierDto) :
    VerifiersProgram host VerifiersResponse := do
  let existing ← prisma.verifier.findFirst userId
  throwIf (existing.isSome = true) (.badRequest "Already registered as a verifier")
  let success ← stellar.registerVerifier wallet dto.stake
  recordVerifier userId dto success

/-- Anyone keeps any verifier alive. -/
def heartbeat (id : String) : VerifiersProgram host VerifiersResponse := do
  let verifier ← prisma.verifier.findUnique id
  let _ ← orThrow verifier (.notFound "Verifier not found")
  let now ← Date.now
  let updated ← prisma.verifier.update id now
  return .alive updated

end VerifiersService

/-- The requests of users, and the transactions of other clients. -/
inductive VerifiersRequest {T : Type} (host : VerifiersHost T) where
  | register (user : host.AuthUser) (dto : RegisterVerifierDto)
  | heartbeat (id : String)
  | transaction (tx : StakeTx host.ch)

/-- What a request does. -/
def VerifiersRequest.program {T : Type} {host : VerifiersHost T} :
    VerifiersRequest host → VerifiersProgram host VerifiersResponse
  | register user dto => VerifiersService.register user.1.id user.1.stellarPub dto
  | heartbeat id => VerifiersService.heartbeat id
  | transaction tx => .query (.transaction tx) fun _ => .ret .executed

end CarbonVeritas
