/-
# The login service

`api/src/auth/auth.service.ts` and `api/src/auth/jwt.strategy.ts`: SEP-10 challenges, the tokens
that a signed challenge is exchanged for, and the check of the bearer token of a request.

The three endpoints and the check are programs over the queries they make: to the database, to
the clock and to the JWT library.  `WebAuth` and the JWT library are modelled by what they are
documented to do: a challenge transaction is read and its signatures are checked, and a token is
accepted when it was signed with the secret and has not expired.  A text that is no challenge
transaction is `none`, and a token is the claims that it carries.
-/
import CarbonVeritas.Programs
import CarbonVeritas.JsNumbers

namespace CarbonVeritas

/-! ## Challenge transactions -/

/-- A SEP-10 challenge transaction. -/
structure ChallengeTx where
  serverAccountID : String
  clientAccountID : String
  homeDomain : String
  webAuthDomain : String
  networkPassphrase : String
  nonce : ℕ
  /-- in seconds -/
  minTime : ℕ
  maxTime : ℕ
  deriving DecidableEq

/-- A challenge transaction with signatures over it. -/
structure Envelope where
  transaction : ChallengeTx
  /-- the accounts of the signatures -/
  signers : List String

namespace WebAuth

/-- `WebAuth.buildChallengeTx(..)`; the transaction that it returns is signed by the server. -/
def buildChallengeTx (now nonce : ℕ) (server clientAccountID homeDomain : String) (timeout : ℕ)
    (networkPassphrase webAuthDomain : String) : ChallengeTx where
  serverAccountID := server
  clientAccountID := clientAccountID
  homeDomain := homeDomain
  webAuthDomain := webAuthDomain
  networkPassphrase := networkPassphrase
  nonce := nonce
  minTime := now / 1000
  maxTime := now / 1000 + timeout

/-- The time bounds may be missed by this many seconds. -/
def gracePeriod : ℕ := 300

/-- `WebAuth.readChallengeTx(..)` : the client of a challenge that the server signed and whose
time has come; `none` when it throws. -/
def readChallengeTx (now : ℕ) (challenge : Envelope)
    (server networkPassphrase homeDomain webAuthDomain : String) : Option String :=
  let tx := challenge.transaction
  if tx.serverAccountID = server ∧ server ∈ challenge.signers ∧
      tx.networkPassphrase = networkPassphrase ∧ tx.homeDomain = homeDomain ∧
      tx.webAuthDomain = webAuthDomain ∧ tx.maxTime ≠ 0 ∧
      tx.minTime ≤ now / 1000 + gracePeriod ∧ now / 1000 ≤ tx.maxTime + gracePeriod
  then some tx.clientAccountID
  else none

/-- `WebAuth.verifyChallengeTxSigners(..)` : those of the given accounts that signed, where they and
the server use up the signatures, one each; `none` when it throws. -/
def verifyChallengeTxSigners (now : ℕ) (challenge : Envelope) (server networkPassphrase : String)
    (signers : List String) (homeDomain webAuthDomain : String) : Option (List String) :=
  let clientSigners := (signers.filter fun signer => signer ≠ server).dedup
  let signersFound := clientSigners.filter fun signer => signer ∈ challenge.signers
  if (readChallengeTx now challenge server networkPassphrase homeDomain webAuthDomain).isSome ∧
      signersFound ≠ [] ∧ signersFound.length + 1 = challenge.signers.length
  then some signersFound
  else none

end WebAuth

/-! ## The database and the tokens -/

/-- A row of `Challenge`; times are in milliseconds. -/
structure ChallengeRow where
  id : String
  wallet : String
  transaction : ChallengeTx
  expiresAt : ℕ
  usedAt : Option ℕ

/-- A row of `User`. -/
structure UserRow where
  id : String
  stellarPub : String

structure JwtPayload where
  sub : String
  wallet : String
  type : Option String := none
  deriving DecidableEq

/-- The claims of a token; `iat` and `exp` are in seconds. -/
structure Token extends JwtPayload where
  iat : ℕ
  exp : ℕ
  deriving DecidableEq

/-- What a token is issued as. -/
inductive TokenUse where
  | accessToken
  | refreshToken
  deriving DecidableEq

/-- A token that was signed, what it was issued as, and when. -/
structure Issue where
  use : TokenUse
  token : Token
  time : ℕ
  deriving DecidableEq

structure AuthState where
  challenges : List ChallengeRow
  users : List UserRow
  /-- every token signed so far -/
  issued : List Issue
  /-- the number of queries so far -/
  served : ℕ

namespace AuthState

/-- Before the first call. -/
def initial : AuthState := ⟨[], [], [], 0⟩

/-- `update({ where: { id }, data: { usedAt } })` -/
def markRow (id : String) (usedAt : ℕ) (row : ChallengeRow) : ChallengeRow :=
  if row.id = id then { row with usedAt := some usedAt } else row

def mark (s : AuthState) (id : String) (usedAt : ℕ) : AuthState :=
  { s with challenges := s.challenges.map (markRow id usedAt) }

def addChallenge (s : AuthState) (row : ChallengeRow) : AuthState :=
  { s with challenges := s.challenges ++ [row] }

def addUser (s : AuthState) (user : UserRow) : AuthState := { s with users := s.users ++ [user] }

def addIssue (s : AuthState) (issue : Issue) : AuthState :=
  { s with issued := s.issued ++ [issue] }

/-- After `n` more queries. -/
def tick (s : AuthState) (n : ℕ) : AuthState := { s with served := s.served + n }

def findChallenge (s : AuthState) (id : String) : Option ChallengeRow :=
  s.challenges.find? fun row => row.id = id

def findUser (s : AuthState) (stellarPub : String) : Option UserRow :=
  s.users.find? fun user => user.stellarPub = stellarPub

def findUserById (s : AuthState) (id : String) : Option UserRow :=
  s.users.find? fun user => user.id = id

end AuthState

/-! ## Queries -/

inductive AuthError where
  | badRequest (message : String)
  | unauthorized (message : String)
  | internal
  deriving DecidableEq

inductive AuthQuery where
  /-- `Date.now()`, `new Date()` -/
  | now
  /-- the random value of a challenge -/
  | nonce
  | deleteSpentChallenges (now : ℕ)
  | createChallenge (wallet : String) (transaction : ChallengeTx) (expiresAt : ℕ)
  | findChallenge (id : String)
  | markUsed (id : String) (usedAt : ℕ)
  | findUser (stellarPub : String)
  | findUserById (id : String)
  | createUser (stellarPub : String)
  /-- `jwtService.sign(payload, { expiresIn })`; the result is named `use` -/
  | sign (use : TokenUse) (payload : JwtPayload) (expiresIn : ℕ)
  /-- `jwtService.verify(token)`; `none` when it throws -/
  | verify (token : Token)

namespace AuthQuery

def Reply : AuthQuery → Type
  | now => ℕ
  | nonce => ℕ
  | deleteSpentChallenges _ => Unit
  | createChallenge _ _ _ => ChallengeRow
  | findChallenge _ => Option ChallengeRow
  | markUsed _ _ => Unit
  | findUser _ => Option UserRow
  | findUserById _ => Option UserRow
  | createUser _ => UserRow
  | sign _ _ _ => Token
  | verify _ => Option JwtPayload

def usesDatabase : AuthQuery → Bool
  | now => false
  | nonce => false
  | sign _ _ _ => false
  | verify _ => false
  | _ => true

end AuthQuery

/-- What the service is run with. -/
structure AuthHost where
  SEP10_SIGNING_KEY : Option String
  STELLAR_NETWORK_PASSPHRASE : Option String
  SEP10_HOME_DOMAIN : Option String
  SEP10_CHALLENGE_TIMEOUT : Option String
  STELLAR_NETWORK : Option String
  /-- `StrKey.isValidEd25519PublicKey(text)` -/
  isValidEd25519PublicKey : String → Bool
  /-- the public key of `Keypair.fromSecret(secret)`; `none` when it throws -/
  fromSecret : String → Option String
  /-- the clock at each query, in milliseconds -/
  time : ℕ → ℕ
  /-- the id that a row created by a query gets -/
  cuid : ℕ → String
  cuid_injective : Function.Injective cuid
  /-- the database does not answer the query -/
  outage : ℕ → Bool

namespace AuthHost

variable (host : AuthHost)

/-- The largest time of a `Date`. -/
def maxDate : ℕ := 8640000000000000

/-- `jwtService.sign(payload, { expiresIn })` at the time `now`. -/
def signToken (now : ℕ) (payload : JwtPayload) (expiresIn : ℕ) : Token where
  toJwtPayload := payload
  iat := now / 1000
  exp := now / 1000 + expiresIn

/-- Signed with the secret and not expired. -/
def Accepts (s : AuthState) (now : ℕ) (token : Token) : Prop :=
  (∃ issue ∈ s.issued, issue.token = token) ∧ now / 1000 < token.exp

instance (s : AuthState) (now : ℕ) (token : Token) : Decidable (Accepts s now token) :=
  inferInstanceAs (Decidable (_ ∧ _))

def answer (s : AuthState) : (q : AuthQuery) → Except AuthError q.Reply × AuthState
  | .now => (.ok (host.time s.served), s)
  | .nonce => (.ok s.served, s)
  | .deleteSpentChallenges now =>
      (.ok (), { s with
        challenges := s.challenges.filter fun row => ¬ (row.expiresAt < now ∨ row.usedAt.isSome) })
  | .createChallenge wallet transaction expiresAt =>
      -- an invalid date, or the unique constraint of `transaction`
      if maxDate < expiresAt ∨ ∃ row ∈ s.challenges, row.transaction = transaction then
        (.error .internal, s)
      else
        let row : ChallengeRow :=
          { id := host.cuid s.served, wallet, transaction, expiresAt, usedAt := none }
        (.ok row, s.addChallenge row)
  | .findChallenge id => (.ok (s.findChallenge id), s)
  | .markUsed id usedAt =>
      -- `update` of a row that does not exist throws
      if (s.findChallenge id).isSome then
        (.ok (), s.mark id usedAt)
      else
        (.error .internal, s)
  | .findUser stellarPub => (.ok (s.findUser stellarPub), s)
  | .findUserById id => (.ok (s.findUserById id), s)
  | .createUser stellarPub =>
      if (s.findUser stellarPub).isSome then
        (.error .internal, s)
      else
        let user : UserRow := { id := host.cuid s.served, stellarPub }
        (.ok user, s.addUser user)
  | .sign use payload expiresIn =>
      let token := signToken (host.time s.served) payload expiresIn
      (.ok token, s.addIssue { use, token, time := host.time s.served })
  | .verify token =>
      (.ok (if Accepts s (host.time s.served) token then some token.toJwtPayload else none), s)

/-- The answer to a query, and the state after it. -/
def handle (q : AuthQuery) (s : AuthState) : Except AuthError q.Reply × AuthState :=
  if q.usesDatabase ∧ host.outage s.served then
    (.error .internal, s.tick 1)
  else
    ((host.answer s q).1, (host.answer s q).2.tick 1)

end AuthHost

abbrev AuthProgram := Program AuthQuery.Reply AuthError

namespace AuthService

open Program (throwIf orThrow)

/-! ## What the service calls -/

def Date.now : AuthProgram ℕ := .query .now .ret

/-- The random value of a challenge. -/
def randomBytes : AuthProgram ℕ := .query .nonce .ret

namespace prisma

def challenge.deleteSpent (now : ℕ) : AuthProgram Unit := .query (.deleteSpentChallenges now) .ret

def challenge.create (wallet : String) (transaction : ChallengeTx) (expiresAt : ℕ) :
    AuthProgram ChallengeRow :=
  .query (.createChallenge wallet transaction expiresAt) .ret

def challenge.findUnique (id : String) : AuthProgram (Option ChallengeRow) :=
  .query (.findChallenge id) .ret

def challenge.update (id : String) (usedAt : ℕ) : AuthProgram Unit :=
  .query (.markUsed id usedAt) .ret

def user.findUnique (stellarPub : String) : AuthProgram (Option UserRow) :=
  .query (.findUser stellarPub) .ret

def user.findById (id : String) : AuthProgram (Option UserRow) := .query (.findUserById id) .ret

def user.create (stellarPub : String) : AuthProgram UserRow := .query (.createUser stellarPub) .ret

end prisma

def jwtService.sign (use : TokenUse) (payload : JwtPayload) (expiresIn : ℕ) : AuthProgram Token :=
  .query (.sign use payload expiresIn) .ret

def jwtService.verify (token : Token) : AuthProgram (Option JwtPayload) :=
  .query (.verify token) .ret

/-! ## The endpoints -/

structure Challenge where
  challengeId : String
  transaction : ChallengeTx
  network : String
  homeDomain : String
  expiresIn : ℕ
  deriving DecidableEq

structure Session where
  accessToken : Token
  refreshToken : Token
  deriving DecidableEq

section Service

variable (host : AuthHost)

def getNetworkPassphrase : String :=
  host.STELLAR_NETWORK_PASSPHRASE.getD "Test SDF Network ; September 2015"

/-- The public key of the server. -/
def getServerKeypair : AuthProgram String :=
  match host.SEP10_SIGNING_KEY with
  | none => .throw (.unauthorized "SEP-10 signing key not configured")
  | some secret =>
      if secret = "" then .throw (.unauthorized "SEP-10 signing key not configured")
      else orThrow (host.fromSecret secret) (.unauthorized "Invalid SEP-10 signing key")

def getHomeDomain : String := host.SEP10_HOME_DOMAIN.getD "api.carbonveritas.io"

def DEFAULT_CHALLENGE_TIMEOUT_SECONDS : ℕ := 300

/-- `parseInt(raw, 10)` -/
def parseInt (raw : List Char) : JsNumber :=
  let digits (sign : ℤ) (cs : List Char) : JsNumber :=
    match JsNumber.digitsValue 10 (cs.takeWhile Char.isDigit) with
    | some n => JsNumber.ofBigInt (sign * n)
    | none => .nan
  match raw.dropWhile JsNumber.isSpace with
  | '-' :: cs => digits (-1) cs
  | '+' :: cs => digits 1 cs
  | cs => digits 1 cs

def getChallengeTimeoutSeconds : ℕ :=
  match host.SEP10_CHALLENGE_TIMEOUT with
  | none => DEFAULT_CHALLENGE_TIMEOUT_SECONDS
  | some raw =>
      if raw = "" then DEFAULT_CHALLENGE_TIMEOUT_SECONDS
      else
        match parseInt raw.toList with
        | .finite q => if 0 < q then q.num.toNat else DEFAULT_CHALLENGE_TIMEOUT_SECONDS
        | _ => DEFAULT_CHALLENGE_TIMEOUT_SECONDS

/-- The transaction of a new challenge for a valid wallet. -/
def newTransaction (wallet : String) : AuthProgram ChallengeTx := do
  throwIf (¬ host.isValidEd25519PublicKey wallet) (.badRequest "Invalid Stellar public key")
  let server ← getServerKeypair host
  let homeDomain := getHomeDomain host
  let networkPassphrase := getNetworkPassphrase host
  let timeoutSeconds := getChallengeTimeoutSeconds host
  let nonce ← randomBytes
  let now ← Date.now
  return WebAuth.buildChallengeTx now nonce server wallet homeDomain timeoutSeconds
    networkPassphrase homeDomain

def generateChallenge (wallet : String) : AuthProgram Challenge := do
  let transaction ← newTransaction host wallet
  let now ← Date.now
  prisma.challenge.deleteSpent now
  let timeoutSeconds := getChallengeTimeoutSeconds host
  let now ← Date.now
  let challenge ← prisma.challenge.create wallet transaction (now + timeoutSeconds * 1000)
  return {
    challengeId := challenge.id
    transaction
    network := host.STELLAR_NETWORK.getD "testnet"
    homeDomain := getHomeDomain host
    expiresIn := timeoutSeconds }

/-- The two tokens of a session. -/
def issueTokens (sub wallet : String) : AuthProgram Session := do
  let accessToken ← jwtService.sign .accessToken { sub, wallet } (24 * 3600)
  let refreshToken ← jwtService.sign .refreshToken { sub, wallet, type := "refresh" }
    (7 * 24 * 3600)
  return { accessToken, refreshToken }

/-- The checks of the signed transaction, which do not read the stored one. -/
def checkSigned (wallet : String) (signedChallenge : Option Envelope) : AuthProgram Unit := do
  let server ← getServerKeypair host
  let homeDomain := getHomeDomain host
  let networkPassphrase := getNetworkPassphrase host
  let now ← Date.now
  let verifiedSigners ← orThrow
    (signedChallenge.bind fun signed => WebAuth.verifyChallengeTxSigners now signed server
      networkPassphrase [wallet] homeDomain homeDomain)
    (.unauthorized "Invalid challenge signature")
  throwIf (wallet ∉ verifiedSigners) (.unauthorized "Challenge was not signed by this wallet")
  let now ← Date.now
  let clientAccountID ← orThrow
    (signedChallenge.bind fun signed => WebAuth.readChallengeTx now signed server
      networkPassphrase homeDomain homeDomain)
    (.unauthorized "Invalid challenge transaction")
  throwIf (clientAccountID ≠ wallet)
    (.unauthorized "Challenge transaction is not bound to this wallet")
  let parsed ← orThrow signedChallenge .internal
  let now ← Date.now
  throwIf (parsed.transaction.maxTime < now / 1000) (.unauthorized "Challenge has expired")

/-- The user of a wallet, created at the first login. -/
def userOfWallet (wallet : String) : AuthProgram UserRow := do
  match ← prisma.user.findUnique wallet with
  | some user => return user
  | none => prisma.user.create wallet

def exchangeToken (wallet : String) (signedChallenge : Option Envelope) (challengeId : String) :
    AuthProgram Session := do
  throwIf (¬ host.isValidEd25519PublicKey wallet) (.badRequest "Invalid Stellar public key")
  let challenge ← orThrow (← prisma.challenge.findUnique challengeId)
    (.unauthorized "Unknown challenge")
  throwIf (challenge.wallet ≠ wallet)
    (.unauthorized "Challenge belongs to a different wallet")
  throwIf challenge.usedAt.isSome (.unauthorized "Challenge has already been used")
  let now ← Date.now
  throwIf (challenge.expiresAt < now) (.unauthorized "Challenge has expired")
  checkSigned host wallet signedChallenge
  let now ← Date.now
  prisma.challenge.update challengeId now
  let user ← userOfWallet wallet
  issueTokens user.id wallet

/-- Every error becomes the one that the `catch` throws. -/
def refreshToken (token : Token) : AuthProgram Session := do
  let decoded ← orThrow (← jwtService.verify token)
    (.unauthorized "Invalid or expired refresh token")
  throwIf (decoded.type ≠ some "refresh") (.unauthorized "Invalid or expired refresh token")
  issueTokens decoded.sub decoded.wallet

end Service

end AuthService

namespace JwtStrategy

open Program (orThrow)
open AuthService

/-- The user of a request. -/
structure AuthUser where
  id : String
  wallet : String
  deriving DecidableEq

def validate (payload : JwtPayload) : AuthProgram AuthUser := do
  let user ← orThrow (← prisma.user.findById payload.sub) (.unauthorized "Unauthorized")
  return { id := user.id, wallet := user.stellarPub }

/-- A request with a bearer token; the strategy is configured with the secret of the service. -/
def authenticate (token : Token) : AuthProgram AuthUser := do
  let payload ← orThrow (← jwtService.verify token) (.unauthorized "Unauthorized")
  validate payload

end JwtStrategy

/-! ## Calls -/

inductive AuthCall where
  | generateChallenge (wallet : String)
  | exchangeToken (wallet : String) (signedChallenge : Option Envelope) (challengeId : String)
  | refreshToken (token : Token)
  | request (token : Token)

inductive AuthReply where
  | challenge (c : AuthService.Challenge)
  | session (tokens : AuthService.Session)
  | user (u : JwtStrategy.AuthUser)
  deriving DecidableEq

def AuthCall.program (host : AuthHost) : AuthCall → AuthProgram AuthReply
  | .generateChallenge wallet => return .challenge (← AuthService.generateChallenge host wallet)
  | .exchangeToken wallet signedChallenge challengeId =>
      return .session (← AuthService.exchangeToken host wallet signedChallenge challengeId)
  | .refreshToken token => return .session (← AuthService.refreshToken token)
  | .request token => return .user (← JwtStrategy.authenticate token)

end CarbonVeritas
