/-
# What the endpoints of the login service do

One lemma for each query and for each endpoint, for a call that runs alone: when the checks of
`exchangeToken` pass (`exec_checkExchange`), when it returns and what it leaves (`exchangeToken_ok`,
`exchangeToken_returns`), and what `generateChallenge` adds to the rows
(`generateChallenge_cases`).  All other calls leave old rows (`exec_oldRows`).
-/
import CarbonVeritas.AuthService

namespace CarbonVeritas

open Transition AuthService
open Program

namespace AuthState

variable (s : AuthState) (m n : ℕ)

@[simp] theorem tick_served : (s.tick n).served = s.served + n := rfl

@[simp] theorem tick_challenges : (s.tick n).challenges = s.challenges := rfl

@[simp] theorem mark_served (id : String) (usedAt : ℕ) : (s.mark id usedAt).served = s.served := rfl

@[simp] theorem mark_challenges (id : String) (usedAt : ℕ) :
    (s.mark id usedAt).challenges = s.challenges.map (markRow id usedAt) := rfl

/-- Redeeming a challenge finds the same users. -/
@[simp] theorem findUser_mark (id : String) (usedAt : ℕ) (stellarPub : String) :
    (s.mark id usedAt).findUser stellarPub = s.findUser stellarPub := rfl

@[simp] theorem addUser_challenges (user : UserRow) :
    (s.addUser user).challenges = s.challenges := rfl

@[simp] theorem addIssue_challenges (issue : Issue) :
    (s.addIssue issue).challenges = s.challenges := rfl

/-- Answering queries one after the other counts them together. -/
@[simp] theorem tick_tick : (s.tick m).tick n = s.tick (m + n) := by
  simp [tick, Nat.add_assoc]

/-- A query that only reads leaves the challenges that are found. -/
@[simp] theorem findChallenge_tick (id : String) :
    (s.tick n).findChallenge id = s.findChallenge id := rfl

/-- A query that only reads leaves the users that are found. -/
@[simp] theorem findUser_tick (stellarPub : String) :
    (s.tick n).findUser stellarPub = s.findUser stellarPub := rfl

end AuthState

namespace AuthHost

variable (host : AuthHost)

/-! ## One query -/

section Queries

variable {host} {s s' : AuthState}

/-- A query succeeds when it needs no database or the database is up, and is counted. -/
theorem handle_eq_ok {q : AuthQuery} {r : q.Reply} :
    host.handle q s = (.ok r, s') ↔ ¬ (q.usesDatabase ∧ host.outage s.served) ∧
      (host.answer s q).1 = .ok r ∧ s' = (host.answer s q).2.tick 1 := by
  unfold handle
  split_ifs with houtage
  · exact ⟨fun h => absurd (congrArg Prod.fst h) nofun, fun h => absurd houtage h.1⟩
  · rw [Prod.mk.injEq]
    exact ⟨fun h => ⟨houtage, h.1, h.2.symm⟩, fun h => ⟨h.2.1, h.2.2.symm⟩⟩

/-- Every query is counted, whether it succeeds or fails. -/
theorem handle_served (q : AuthQuery) (s : AuthState) :
    (host.handle q s).2.served = s.served + 1 := by
  have hanswer : (host.answer s q).2.served = s.served := by
    cases q with
    | sign use payload expiresIn => rfl
    | _ => simp only [answer] <;> split_ifs <;> rfl
  unfold handle
  split_ifs
  · rfl
  · exact congrArg (· + 1) hanswer

/-- A program of one query succeeds as its query does. -/
theorem exec_query_eq_ok {q : AuthQuery} {r : q.Reply} :
    exec host.handle (.query q .ret) s = (.ok r, s') ↔
      ¬ (q.usesDatabase ∧ host.outage s.served) ∧ (host.answer s q).1 = .ok r ∧
        s' = (host.answer s q).2.tick 1 := by
  have hask : exec host.handle (.query q .ret) s = host.handle q s := exec_ask q s
  rw [hask, handle_eq_ok]

/-- A query that the clock, or another part than the database, answers. -/
theorem exec_local {q : AuthQuery} {r a : q.Reply} {u : AuthState} (hq : q.usesDatabase = false)
    (hanswer : host.answer s q = (.ok a, u)) :
    exec host.handle (.query q .ret) s = (.ok r, s') ↔ r = a ∧ s' = u.tick 1 := by
  rw [exec_query_eq_ok, hq, hanswer, Except.ok.injEq, eq_comm (a := r)]
  exact and_iff_right fun h => absurd h.1 nofun

/-- A query that the database answers. -/
theorem exec_database {q : AuthQuery} {r a : q.Reply} {u : AuthState} (hq : q.usesDatabase = true)
    (hanswer : host.answer s q = (.ok a, u)) :
    exec host.handle (.query q .ret) s = (.ok r, s') ↔
      host.outage s.served = false ∧ r = a ∧ s' = u.tick 1 := by
  rw [exec_query_eq_ok, hq, hanswer, Except.ok.injEq, eq_comm (a := r)]
  exact and_congr_left' (by simp)

/-- Reading the clock gives the time of this query. -/
theorem exec_now {n : ℕ} :
    exec host.handle Date.now s = (.ok n, s') ↔ n = host.time s.served ∧ s' = s.tick 1 :=
  exec_local rfl rfl

/-- A search for a challenge reads the row and leaves it. -/
theorem exec_findChallenge {id : String} {row : Option ChallengeRow} :
    exec host.handle (prisma.challenge.findUnique id) s = (.ok row, s') ↔
      host.outage s.served = false ∧ row = s.findChallenge id ∧ s' = s.tick 1 :=
  exec_database rfl rfl

/-- A search for a user reads the row and leaves it. -/
theorem exec_findUser {stellarPub : String} {user : Option UserRow} :
    exec host.handle (prisma.user.findUnique stellarPub) s = (.ok user, s') ↔
      host.outage s.served = false ∧ user = s.findUser stellarPub ∧ s' = s.tick 1 :=
  exec_database rfl rfl

/-- The update of a challenge that exists writes the time of use. -/
theorem exec_markUsed {id : String} {usedAt : ℕ} {u : Unit}
    (hrow : (s.findChallenge id).isSome) :
    exec host.handle (prisma.challenge.update id usedAt) s = (.ok u, s') ↔
      host.outage s.served = false ∧
        s' = (s.mark id usedAt).tick 1 :=
  (exec_database (q := .markUsed id usedAt) (a := ()) rfl (if_pos hrow)).trans
    (and_congr_right' (and_iff_right rfl))

/-- A wallet without a user gets the next id. -/
theorem exec_createUser {stellarPub : String} {user : UserRow}
    (hnew : s.findUser stellarPub = none) :
    exec host.handle (prisma.user.create stellarPub) s = (.ok user, s') ↔
      host.outage s.served = false ∧ user = { id := host.cuid s.served, stellarPub } ∧
        s' = (s.addUser { id := host.cuid s.served, stellarPub }).tick 1 :=
  have hnew' : ¬ (s.findUser stellarPub).isSome := by simp [hnew]
  exec_database (q := .createUser stellarPub) rfl (if_neg hnew')

/-- A signed token is recorded with its use and its time. -/
theorem exec_sign {use : TokenUse} {payload : JwtPayload} {expiresIn : ℕ} {token : Token} :
    exec host.handle (jwtService.sign use payload expiresIn) s = (.ok token, s') ↔
      token = signToken (host.time s.served) payload expiresIn ∧
        s' = (s.addIssue { use, token, time := host.time s.served }).tick 1 := by
  refine (exec_local (q := .sign use payload expiresIn) rfl rfl).trans (and_congr_right ?_)
  rintro rfl
  rfl

end Queries

/-! ## The checks of an exchange -/

/-- The signed transaction passes the checks that start at the `n`-th query. -/
def Verifies (n : ℕ) (wallet : String) (signed : Envelope) : Prop :=
  ∃ server, getServerKeypair host = .ret server ∧
    (∃ signers, WebAuth.verifyChallengeTxSigners (host.time n) signed server
      (getNetworkPassphrase host) [wallet] (getHomeDomain host) (getHomeDomain host) =
        some signers ∧ wallet ∈ signers) ∧
    WebAuth.readChallengeTx (host.time (n + 1)) signed server (getNetworkPassphrase host)
      (getHomeDomain host) (getHomeDomain host) = some wallet ∧
    ¬ signed.transaction.maxTime < host.time (n + 2) / 1000

/-- The row may be exchanged: it is one of the wallet, unused and unexpired. -/
structure Live (s : AuthState) (wallet : String) (row : ChallengeRow) : Prop where
  wallet_eq : row.wallet = wallet
  unused : row.usedAt = none
  unexpired : ¬ row.expiresAt < host.time (s.served + 1)

/-- The database answers the queries of an exchange. -/
structure Connected (s : AuthState) (wallet : String) : Prop where
  find : host.outage s.served = false
  mark : host.outage (s.served + 6) = false
  user : host.outage (s.served + 7) = false
  create : s.findUser wallet = none → host.outage (s.served + 8) = false

/-- The checks of the code, which say nothing about the transaction of the row. -/
structure Redeemable (s : AuthState) (wallet : String) (e : Envelope) (row : ChallengeRow) :
    Prop where
  valid : host.isValidEd25519PublicKey wallet = true
  live : host.Live s wallet row
  verifies : host.Verifies (s.served + 2) wallet e
  connected : host.Connected s wallet

section Exchange

variable {host} {s s' : AuthState} {wallet : String} {signed : Option Envelope}

/-- The key of the server is configured, or the request throws. -/
theorem getServerKeypair_cases (host : AuthHost) :
    (∃ server, getServerKeypair host = .ret server) ∨ ∃ e, getServerKeypair host = .throw e := by
  unfold getServerKeypair
  cases host.SEP10_SIGNING_KEY with
  | none => exact Or.inr ⟨_, rfl⟩
  | some secret =>
      by_cases hempty : secret = ""
      · exact Or.inr ⟨_, if_pos hempty⟩
      · simp only [if_neg hempty]
        cases host.fromSecret secret with
        | none => exact Or.inr ⟨_, rfl⟩
        | some server => exact Or.inl ⟨server, rfl⟩

/-- A signed challenge is accepted when it verifies for the wallet. -/
theorem exec_checkSigned {u : Unit} :
    exec host.handle (checkSigned host wallet signed) s = (.ok u, s') ↔
      (∃ e, signed = some e ∧ host.Verifies s.served wallet e) ∧
        s' = s.tick 3 := by
  unfold checkSigned
  rcases getServerKeypair_cases host with ⟨server, hserver⟩ | ⟨e, hthrow⟩
  · simp only [hserver, ret_bind, exec_bind_eq_ok, exec_now, exec_orThrow_eq_ok,
      exec_throwIf_eq_ok]
    constructor
    · rintro ⟨_, _, ⟨rfl, rfl⟩, signers, _, ⟨hverify, rfl⟩, _, _, ⟨hmem, rfl⟩, _, _, ⟨rfl, rfl⟩,
        client, _, ⟨hread, rfl⟩, _, _, ⟨hclient, rfl⟩, e, _, ⟨rfl, rfl⟩, _, _, ⟨rfl, rfl⟩, htime,
        rfl⟩
      obtain rfl := not_not.mp hclient
      exact ⟨⟨e, rfl, server, hserver, ⟨signers, hverify, not_not.mp hmem⟩, hread, htime⟩, rfl⟩
    · rintro ⟨⟨e, rfl, server', hserver', ⟨signers, hverify, hmem⟩, hread, htime⟩, rfl⟩
      obtain rfl : server = server' := Program.ret.inj (hserver.symm.trans hserver')
      exact ⟨_, _, ⟨rfl, rfl⟩, signers, _, ⟨hverify, rfl⟩, (), _, ⟨not_not.mpr hmem, rfl⟩, _, _,
        ⟨rfl, rfl⟩, wallet, _, ⟨hread, rfl⟩, (), _, ⟨not_not.mpr rfl, rfl⟩, e, _, ⟨rfl, rfl⟩, _, _,
        ⟨rfl, rfl⟩, htime, rfl⟩
  · rw [hthrow, throw_bind]
    constructor
    · intro h
      cases h
    · rintro ⟨⟨e, -, server, hserver, -⟩, -⟩
      rw [hthrow] at hserver
      cases hserver

/-- `issueTokens` signs the two tokens and returns them. -/
theorem exec_issueTokens {sub : String} {tokens : Session}
    (h : exec host.handle (issueTokens sub wallet) s = (.ok tokens, s')) :
    s'.challenges = s.challenges := by
  simp only [issueTokens, exec_bind_eq_ok, exec_sign, pure_eq, exec_ret] at h
  obtain ⟨_, _, ⟨-, rfl⟩, _, _, ⟨-, rfl⟩, hs⟩ := h
  rw [← (Prod.mk.inj hs).2]
  rfl

variable (host) in
/-- Tokens are signed without the database, so this never fails. -/
theorem issueTokens_returns (wallet sub : String) (s : AuthState) :
    ∃ tokens s', exec host.handle (issueTokens sub wallet) s = (.ok tokens, s') := by
  simp only [issueTokens, exec_bind_eq_ok, exec_sign, pure_eq, exec_ret]
  exact ⟨_, _, _, _, ⟨rfl, rfl⟩, _, _, ⟨rfl, rfl⟩, rfl⟩

/-- The user of a wallet is the one found, or a new one. -/
theorem exec_userOfWallet {user : UserRow} :
    exec host.handle (userOfWallet wallet) s = (.ok user, s') ↔
      host.outage s.served = false ∧
        match s.findUser wallet with
        | some found => user = found ∧ s' = s.tick 1
        | none => host.outage (s.served + 1) = false ∧
            user = { id := host.cuid (s.served + 1), stellarPub := wallet } ∧
              s' = (s.addUser user).tick 2 := by
  unfold userOfWallet
  simp only [exec_bind_eq_ok, exec_findUser]
  cases hfound : s.findUser wallet with
  | some found =>
      constructor
      · rintro ⟨_, _, ⟨hup, rfl, rfl⟩, hret⟩
        cases hret
        exact ⟨hup, rfl, rfl⟩
      · rintro ⟨hup, rfl, rfl⟩
        exact ⟨_, _, ⟨hup, rfl, rfl⟩, rfl⟩
  | none =>
      constructor
      · rintro ⟨_, _, ⟨hup, rfl, rfl⟩, hcreate⟩
        obtain ⟨hup', rfl, rfl⟩ := (exec_createUser (by exact hfound)).mp hcreate
        exact ⟨hup, hup', rfl, rfl⟩
      · rintro ⟨hup, hup', rfl, rfl⟩
        exact ⟨_, _, ⟨hup, rfl, rfl⟩, (exec_createUser (by exact hfound)).mpr ⟨hup', rfl, rfl⟩⟩

/-- Finding or creating a user leaves the challenges. -/
theorem userOfWallet_challenges {user : UserRow}
    (h : exec host.handle (userOfWallet wallet) s = (.ok user, s')) :
    s'.challenges = s.challenges := by
  obtain ⟨-, h⟩ := exec_userOfWallet.mp h
  cases hfound : s.findUser wallet with
  | some found =>
      rw [hfound] at h
      rw [h.2, AuthState.tick_challenges]
  | none =>
      rw [hfound] at h
      rw [h.2.2, AuthState.tick_challenges, AuthState.addUser_challenges]

/-- An exchange checks, and then marks the row and opens the session. -/
def checkExchange (host : AuthHost) (wallet : String) (signed : Option Envelope)
    (challengeId : String) : AuthProgram Unit := do
  throwIf (¬ host.isValidEd25519PublicKey wallet) (.badRequest "Invalid Stellar public key")
  let challenge ← orThrow (← prisma.challenge.findUnique challengeId)
    (.unauthorized "Unknown challenge")
  throwIf (challenge.wallet ≠ wallet)
    (.unauthorized "Challenge belongs to a different wallet")
  throwIf challenge.usedAt.isSome (.unauthorized "Challenge has already been used")
  let now ← Date.now
  throwIf (challenge.expiresAt < now) (.unauthorized "Challenge has expired")
  checkSigned host wallet signed

/-- What an exchange does once its checks are passed. -/
def redeemExchange (wallet challengeId : String) : AuthProgram Session := do
  let now ← Date.now
  prisma.challenge.update challengeId now
  let user ← userOfWallet wallet
  issueTokens user.id wallet

/-- `exchangeToken` checks the signed challenge, and then redeems it. -/
theorem exchangeToken_eq (wallet : String) (signed : Option Envelope) (challengeId : String) :
    exchangeToken host wallet signed challengeId =
      checkExchange host wallet signed challengeId >>= fun _ =>
        redeemExchange wallet challengeId := by
  simp only [exchangeToken, checkExchange, redeemExchange, Program.bind_assoc]

/-- The checks pass for a live row and a transaction that verifies. -/
theorem exec_checkExchange {challengeId : String} {u : Unit} :
    exec host.handle (checkExchange host wallet signed challengeId) s = (.ok u, s') ↔
      (∃ row e, s.findChallenge challengeId = some row ∧ signed = some e ∧
        host.isValidEd25519PublicKey wallet = true ∧ host.Live s wallet row ∧
          host.Verifies (s.served + 2) wallet e ∧ host.outage s.served = false) ∧
        s' = s.tick 5 := by
  simp only [checkExchange, exec_bind_eq_ok, exec_now, exec_orThrow_eq_ok, exec_throwIf_eq_ok,
    exec_findChallenge, exec_checkSigned]
  constructor
  · rintro ⟨_, _, ⟨hvalid, rfl⟩, _, _, ⟨hup, rfl, rfl⟩, row, _, ⟨hrow, rfl⟩, _, _, ⟨hwallet, rfl⟩,
      _, _, ⟨hunused, rfl⟩, _, _, ⟨rfl, rfl⟩, _, _, ⟨hunexpired, rfl⟩, ⟨e, rfl, hverifies⟩, rfl⟩
    refine ⟨⟨row, e, hrow, rfl, not_not.mp hvalid, ⟨not_not.mp hwallet, ?_, hunexpired⟩, hverifies,
      hup⟩, rfl⟩
    simpa using hunused
  · rintro ⟨⟨row, e, hrow, rfl, hvalid, hlive, hverifies, hup⟩, rfl⟩
    exact ⟨(), _, ⟨not_not.mpr hvalid, rfl⟩, _, _, ⟨hup, rfl, rfl⟩, row, _, ⟨hrow, rfl⟩, (), _,
      ⟨not_not.mpr hlive.wallet_eq, rfl⟩, (), _, ⟨by simp [hlive.unused], rfl⟩, _, _, ⟨rfl, rfl⟩,
      (), _, ⟨hlive.unexpired, rfl⟩, ⟨e, rfl, hverifies⟩, rfl⟩

/-- An exchange that returns found a live row and a transaction that verifies, and marks the
row. -/
theorem exchangeToken_ok {challengeId : String} {tokens : Session}
    (h : exec host.handle (exchangeToken host wallet signed challengeId) s = (.ok tokens, s')) :
    ∃ row e, s.findChallenge challengeId = some row ∧ signed = some e ∧
      host.Redeemable s wallet e row ∧
        s'.challenges = (s.mark challengeId (host.time (s.served + 5))).challenges := by
  rw [exchangeToken_eq, exec_bind_eq_ok] at h
  obtain ⟨_, _, hcheck, hredeem⟩ := h
  obtain ⟨⟨row, e, hrow, rfl, hvalid, hlive, hverifies, hup⟩, rfl⟩ := exec_checkExchange.mp hcheck
  simp only [redeemExchange, exec_bind_eq_ok, exec_now] at hredeem
  obtain ⟨_, _, ⟨rfl, rfl⟩, _, _, hmark, user, _, huser, htokens⟩ := hredeem
  obtain ⟨hup', rfl⟩ := (exec_markUsed (by simp [hrow])).mp hmark
  obtain ⟨hup'', hcreate⟩ := exec_userOfWallet.mp huser
  refine ⟨row, e, hrow, rfl, ⟨hvalid, hlive, hverifies, ⟨hup, hup', hup'', fun hnew => ?_⟩⟩, ?_⟩
  · rw [AuthState.findUser_tick, AuthState.findUser_mark] at hcreate
    simp only [AuthState.findUser_tick, hnew] at hcreate
    exact hcreate.1
  · rw [exec_issueTokens htokens, userOfWallet_challenges huser]
    rfl

/-- The converse: an exchange with such a row and transaction returns. -/
theorem exchangeToken_returns {challengeId : String} {row : ChallengeRow} {e : Envelope}
    (hrow : s.findChallenge challengeId = some row) (h : host.Redeemable s wallet e row) :
    ∃ tokens s',
      exec host.handle (exchangeToken host wallet (some e) challengeId) s = (.ok tokens, s') := by
  obtain ⟨hvalid, hlive, hverifies, hup⟩ := h
  simp only [exchangeToken_eq, redeemExchange, exec_bind_eq_ok, exec_checkExchange, exec_now]
  have huser : ∃ user u, exec host.handle (userOfWallet wallet)
      (((s.tick 6).mark challengeId (host.time (s.served + 5))).tick 1) = (.ok user, u) := by
    simp only [exec_userOfWallet, AuthState.findUser_tick, AuthState.findUser_mark]
    cases hfound : s.findUser wallet with
    | some found => exact ⟨found, _, hup.user, rfl, rfl⟩
    | none => exact ⟨_, _, hup.user, hup.create hfound, rfl, rfl⟩
  obtain ⟨user, u, huser⟩ := huser
  obtain ⟨tokens, s', htokens⟩ := issueTokens_returns host wallet user.id u
  have hmark : exec host.handle (prisma.challenge.update challengeId (host.time (s.served + 5)))
      (s.tick 6) = (.ok (), ((s.tick 6).mark challengeId (host.time (s.served + 5))).tick 1) :=
    (exec_markUsed (by simp [hrow])).mpr ⟨hup.mark, rfl⟩
  exact ⟨tokens, s', (), _, ⟨⟨row, e, hrow, rfl, hvalid, hlive, hverifies, hup.find⟩, rfl⟩, _, _,
    ⟨rfl, rfl⟩, (), _, hmark, user, u, huser, htokens⟩

end Exchange

end AuthHost

/-! ## The rows over a call -/

/-- A row after a call is a row before it, and used when that was used. -/
structure OldRows (s s' : AuthState) : Prop where
  served_le : s.served ≤ s'.served
  row : ∀ row' ∈ s'.challenges, ∃ row ∈ s.challenges, row'.id = row.id ∧
    row'.transaction = row.transaction ∧ (row.usedAt.isSome → row'.usedAt.isSome)

namespace OldRows

variable {s s' s'' : AuthState}

/-- A state with the same challenges keeps the old rows. -/
theorem of_challenges_eq (hserved : s.served ≤ s'.served) (h : s'.challenges = s.challenges) :
    OldRows s s' := by
  refine ⟨hserved, fun row hrow => ⟨row, ?_, rfl, rfl, id⟩⟩
  rwa [← h]

/-- No time passes and no row changes. -/
theorem refl (s : AuthState) : OldRows s s := of_challenges_eq le_rfl rfl

/-- What is kept twice is kept. -/
theorem trans (h : OldRows s s') (h' : OldRows s' s'') : OldRows s s'' := by
  refine ⟨h.served_le.trans h'.served_le, fun row'' hrow'' => ?_⟩
  obtain ⟨row', hrow', hid', htx', hused'⟩ := h'.row row'' hrow''
  obtain ⟨row, hrow, hid, htx, hused⟩ := h.row row' hrow'
  exact ⟨row, hrow, hid'.trans hid, htx'.trans htx, hused' ∘ hused⟩

/-- Redeeming a challenge keeps the rows, but for their time of use. -/
theorem mark (s : AuthState) (id : String) (usedAt : ℕ) : OldRows s (s.mark id usedAt) := by
  refine ⟨le_rfl, fun row' hrow' => ?_⟩
  obtain ⟨row, hrow, rfl⟩ := List.mem_map.mp hrow'
  refine ⟨row, hrow, ?_⟩
  unfold AuthState.markRow
  split_ifs <;> simp

end OldRows

/-! ## The queries of the endpoints -/

namespace TokenUse

/-- The `type` of a token of the kind. -/
def type : TokenUse → Option String
  | accessToken => none
  | refreshToken => some "refresh"

/-- In seconds. -/
def lifetime : TokenUse → ℕ
  | accessToken => 24 * 3600
  | refreshToken => 7 * 24 * 3600

end TokenUse

/-- The query creates a challenge. -/
def AuthQuery.Creates : AuthQuery → Prop
  | .createChallenge _ _ _ => True
  | _ => False

/-- The query creates no challenge, and a token that it signs is of the kind it is issued as. -/
def AuthQuery.Ordinary : AuthQuery → Prop
  | .createChallenge _ _ _ => False
  | .sign use payload expiresIn => payload.type = use.type ∧ expiresIn = use.lifetime
  | _ => True

/-- The same of a query that leaves the challenges as they are. -/
def AuthQuery.KeepsChallenges : AuthQuery → Prop
  | .deleteSpentChallenges _ => False
  | .markUsed _ _ => False
  | q => q.Ordinary

/-- The query marks no other challenge than the one with the id. -/
def AuthQuery.Redeems (id : String) : AuthQuery → Prop
  | .markUsed id' _ => id' = id
  | q => q.KeepsChallenges

namespace AuthQuery

variable {q : AuthQuery} {id : String}

/-- A query that leaves the challenges marks no other one. -/
theorem KeepsChallenges.redeems (h : q.KeepsChallenges) : q.Redeems id := by
  cases q with
  | markUsed id' usedAt => exact h.elim
  | _ => exact h

/-- A query that marks no other challenge is ordinary. -/
theorem Redeems.ordinary (h : q.Redeems id) : q.Ordinary := by
  cases q with
  | markUsed id' usedAt => trivial
  | deleteSpentChallenges now => exact h.elim
  | _ => exact h

/-- A query that leaves the challenges is ordinary. -/
theorem KeepsChallenges.ordinary (h : q.KeepsChallenges) : q.Ordinary := by
  have hredeems : q.Redeems "" := h.redeems
  exact hredeems.ordinary

end AuthQuery

namespace AuthHost

variable (host : AuthHost)

section Rows

variable {host} {s s' : AuthState}

/-- An ordinary query is not one that creates a challenge. -/
theorem not_creates {q : AuthQuery} (h : q.Ordinary) : ¬ q.Creates := by
  cases q <;> first | exact id | exact h.elim

/-- Only the creation of a challenge adds a row. -/
theorem handle_oldRows (q : AuthQuery) (hq : ¬ q.Creates) (s : AuthState) :
    OldRows s (host.handle q s).2 := by
  have htick : ∀ u : AuthState, OldRows u (u.tick 1) :=
    fun u => .of_challenges_eq (Nat.le_succ _) rfl
  have hanswer : OldRows s (host.answer s q).2 := by
    cases q with
    | deleteSpentChallenges now =>
        exact ⟨le_rfl, fun row hrow => ⟨row, (List.mem_filter.mp hrow).1, rfl, rfl, id⟩⟩
    | createChallenge wallet transaction expiresAt => exact absurd trivial hq
    | markUsed id usedAt =>
        simp only [answer]
        split_ifs
        · exact .mark s id usedAt
        · exact .refl s
    | createUser stellarPub =>
        simp only [answer]
        split_ifs
        · exact .refl s
        · exact .of_challenges_eq le_rfl rfl
    | sign use payload expiresIn => exact .of_challenges_eq le_rfl rfl
    | now => exact .refl s
    | nonce => exact .refl s
    | findChallenge id => exact .refl s
    | findUser stellarPub => exact .refl s
    | findUserById id => exact .refl s
    | verify token => exact .refl s
  unfold handle
  split_ifs
  · exact htick s
  · exact hanswer.trans (htick _)

variable (host) in
/-- A program of ordinary queries keeps the old rows, whether it fails or not. -/
theorem exec_oldRows {α : Type} {p : AuthProgram α} (hp : p.Uses AuthQuery.Ordinary)
    {result : Except AuthError α} (h : exec host.handle p s = (result, s')) : OldRows s s' := by
  have hinv : OldRows s (exec host.handle p s).2 :=
    exec_invariant (fun q _ hq hs => hs.trans (handle_oldRows q (not_creates hq) _)) hp (.refl s)
  rwa [h] at hinv

/-- Reading the key of the server asks nothing. -/
theorem uses_getServerKeypair (allowed : AuthQuery → Prop) :
    (getServerKeypair host).Uses allowed := by
  rcases getServerKeypair_cases host with ⟨server, h⟩ | ⟨e, h⟩ <;> rw [h] <;> trivial

/-- Signing the tokens touches no challenge. -/
theorem uses_issueTokens (sub wallet : String) :
    (issueTokens sub wallet).Uses AuthQuery.KeepsChallenges :=
  .bind (uses_query ⟨rfl, rfl⟩) fun _ => .bind (uses_query ⟨rfl, rfl⟩) fun _ => trivial

/-- Checking a signature touches no challenge. -/
theorem uses_checkSigned (wallet : String) (signed : Option Envelope) :
    (checkSigned host wallet signed).Uses AuthQuery.KeepsChallenges :=
  .bind (uses_getServerKeypair _) fun _ => .bind (uses_query trivial) fun _ =>
    .bind (uses_orThrow _ _) fun _ => .bind (uses_throwIf _ _) fun _ =>
    .bind (uses_query trivial) fun _ => .bind (uses_orThrow _ _) fun _ =>
    .bind (uses_throwIf _ _) fun _ => .bind (uses_orThrow _ _) fun _ =>
    .bind (uses_query trivial) fun _ => uses_throwIf _ _

/-- The checks of an exchange touch no challenge. -/
theorem uses_checkExchange (wallet : String) (signed : Option Envelope) (challengeId : String) :
    (checkExchange host wallet signed challengeId).Uses AuthQuery.KeepsChallenges :=
  .bind (uses_throwIf _ _) fun _ => .bind (uses_query trivial) fun _ =>
    .bind (uses_orThrow _ _) fun _ => .bind (uses_throwIf _ _) fun _ =>
    .bind (uses_throwIf _ _) fun _ => .bind (uses_query trivial) fun _ =>
    .bind (uses_throwIf _ _) fun _ => uses_checkSigned _ _

/-- The second half of an exchange writes its own challenge only. -/
theorem uses_redeemExchange (wallet challengeId : String) :
    (redeemExchange wallet challengeId).Uses (AuthQuery.Redeems challengeId) := by
  refine .bind (uses_query trivial) fun now => .bind ⟨rfl, fun _ => trivial⟩ fun _ =>
    .bind (.bind (uses_query trivial) ?_) fun _ =>
      (uses_issueTokens _ _).mono fun _ => AuthQuery.KeepsChallenges.redeems
  rintro (- | user)
  · exact uses_query trivial
  · trivial

/-- An exchange writes its own challenge only. -/
theorem uses_exchangeToken (wallet : String) (signed : Option Envelope) (challengeId : String) :
    (exchangeToken host wallet signed challengeId).Uses (AuthQuery.Redeems challengeId) := by
  rw [exchangeToken_eq]
  exact .bind ((uses_checkExchange _ _ _).mono fun _ => AuthQuery.KeepsChallenges.redeems)
    fun _ => uses_redeemExchange _ _

/-- A refresh touches no challenge. -/
theorem uses_refreshToken (token : Token) :
    (refreshToken token).Uses AuthQuery.KeepsChallenges :=
  .bind (uses_query trivial) fun _ => .bind (uses_orThrow _ _) fun _ =>
    .bind (uses_throwIf _ _) fun _ => uses_issueTokens _ _

/-- Authentication touches no challenge. -/
theorem uses_authenticate (token : Token) :
    (JwtStrategy.authenticate token).Uses AuthQuery.KeepsChallenges :=
  .bind (uses_query trivial) fun _ => .bind (uses_orThrow _ _) fun _ =>
    .bind (uses_query trivial) fun _ => .bind (uses_orThrow _ _) fun _ => trivial

/-- Building the transaction of a challenge touches no challenge. -/
theorem uses_newTransaction (wallet : String) :
    (newTransaction host wallet).Uses AuthQuery.KeepsChallenges :=
  .bind (uses_throwIf _ _) fun _ => .bind (uses_getServerKeypair _) fun _ =>
    .bind (uses_query trivial) fun _ => .bind (uses_query trivial) fun _ => trivial

/-- The transaction of a challenge that is asked for at the `n`-th query. -/
def challengeTx (host : AuthHost) (n : ℕ) (server wallet : String) : ChallengeTx :=
  WebAuth.buildChallengeTx (host.time (n + 1)) n server wallet (getHomeDomain host)
    (getChallengeTimeoutSeconds host) (getNetworkPassphrase host) (getHomeDomain host)

/-- The transaction of a new challenge is the one that the SDK builds for the server's key and the
wallet. -/
theorem exec_newTransaction {wallet : String} {tx : ChallengeTx}
    (h : exec host.handle (newTransaction host wallet) s = (.ok tx, s')) :
    (∃ server, getServerKeypair host = .ret server ∧
      host.isValidEd25519PublicKey wallet = true ∧ tx = host.challengeTx s.served server wallet) ∧
      s' = s.tick 2 := by
  simp only [newTransaction, exec_bind_eq_ok, exec_throwIf_eq_ok, exec_now, pure_eq, exec_ret] at h
  obtain ⟨_, _, ⟨hvalid, rfl⟩, server, _, hserver, nonce, _, hnonce, _, _, ⟨rfl, rfl⟩, hret⟩ := h
  obtain ⟨rfl, rfl⟩ := (exec_local (q := .nonce) (r := nonce) rfl rfl).mp hnonce
  cases hret
  rcases getServerKeypair_cases host with ⟨key, hkey⟩ | ⟨e, hkey⟩
  · rw [hkey] at hserver
    cases hserver
    exact ⟨⟨_, hkey, not_not.mp hvalid, rfl⟩, rfl⟩
  · rw [hkey] at hserver
    cases hserver

end Rows

/-- What `generateChallenge` does when it returns `c`. -/
structure Created (s s' : AuthState) (c : Challenge) : Prop where
  nonce_ge : s.served ≤ c.transaction.nonce
  nonce_lt : c.transaction.nonce < s'.served
  id_fresh : ∃ n, s.served ≤ n ∧ n < s'.served ∧ c.challengeId = host.cuid n
  row : ∀ row' ∈ s'.challenges, (∃ row ∈ s.challenges, row'.id = row.id ∧
    row'.transaction = row.transaction ∧ (row.usedAt.isSome → row'.usedAt.isSome)) ∨
      row'.id = c.challengeId ∧ row'.transaction = c.transaction

section Rows

variable {host} {s s' : AuthState}

/-- All of `generateChallenge` before the row is created. -/
def prepareChallenge (host : AuthHost) (wallet : String) : AuthProgram (ChallengeTx × ℕ) := do
  let transaction ← newTransaction host wallet
  let now ← Date.now
  prisma.challenge.deleteSpent now
  let now ← Date.now
  return (transaction, now)

/-- The creation of the row. -/
def storeChallenge (host : AuthHost) (wallet : String) (prepared : ChallengeTx × ℕ) :
    AuthProgram Challenge := do
  let timeoutSeconds := getChallengeTimeoutSeconds host
  let challenge ← prisma.challenge.create wallet prepared.1 (prepared.2 + timeoutSeconds * 1000)
  return {
    challengeId := challenge.id
    transaction := prepared.1
    network := host.STELLAR_NETWORK.getD "testnet"
    homeDomain := getHomeDomain host
    expiresIn := timeoutSeconds }

/-- `generateChallenge` builds a transaction, and then stores it. -/
theorem generateChallenge_eq (wallet : String) :
    generateChallenge host wallet =
      prepareChallenge host wallet >>= storeChallenge host wallet := by
  unfold generateChallenge prepareChallenge
  rw [Program.bind_assoc]
  rfl

/-- Before it stores the challenge, the request creates none. -/
theorem uses_prepareChallenge (wallet : String) :
    (prepareChallenge host wallet).Uses AuthQuery.Ordinary :=
  .bind ((uses_newTransaction wallet).mono fun _ => AuthQuery.KeepsChallenges.ordinary) fun _ =>
    .bind (uses_query trivial) fun _ => .bind (uses_query trivial) fun _ =>
    .bind (uses_query trivial) fun _ => trivial

/-- What is stored is the transaction of the wallet, with a time read after it was built. -/
theorem exec_prepareChallenge {wallet : String} {tx : ChallengeTx} {now : ℕ}
    (h : exec host.handle (prepareChallenge host wallet) s = (.ok (tx, now), s')) :
    (∃ server, getServerKeypair host = .ret server ∧
      host.isValidEd25519PublicKey wallet = true ∧ tx = host.challengeTx s.served server wallet) ∧
      (∃ n, s.served ≤ n ∧ now = host.time n) ∧ s.served < s'.served := by
  simp only [prepareChallenge, exec_bind_eq_ok, exec_now, pure_eq, exec_ret] at h
  obtain ⟨tx, _, htx, _, _, ⟨rfl, rfl⟩, _, u, hdelete, _, _, ⟨rfl, rfl⟩, hret⟩ := h
  obtain ⟨hbuilt, rfl⟩ := exec_newTransaction htx
  have hle := (exec_oldRows host (uses_query trivial) hdelete).served_le
  cases hret
  simp only [AuthState.tick_served] at hle ⊢
  exact ⟨hbuilt, ⟨u.served, by omega, rfl⟩, by omega⟩

/-- A new challenge is stored with the next id and unused. -/
theorem exec_createChallenge (wallet : String) (tx : ChallengeTx) (expiresAt : ℕ) (s : AuthState) :
    (∃ row : ChallengeRow, exec host.handle (prisma.challenge.create wallet tx expiresAt) s =
        (.ok row, (s.addChallenge row).tick 1) ∧
      row = { id := host.cuid s.served, wallet, transaction := tx, expiresAt, usedAt := none }) ∨
    ∃ e, exec host.handle (prisma.challenge.create wallet tx expiresAt) s =
      (.error e, s.tick 1) := by
  have hexec : exec host.handle (prisma.challenge.create wallet tx expiresAt) s =
      host.handle (.createChallenge wallet tx expiresAt) s := exec_ask _ _
  rw [hexec]
  unfold handle
  split_ifs with houtage
  · exact Or.inr ⟨_, rfl⟩
  · simp only [answer]
    split_ifs with hrefused
    · exact Or.inr ⟨_, rfl⟩
    · exact Or.inl ⟨_, rfl, rfl⟩

/-- The row of a challenge that is stored at the time `now`. -/
structure Stored (host : AuthHost) (wallet : String) (now : ℕ) (c : Challenge)
    (row : ChallengeRow) : Prop where
  id : row.id = c.challengeId
  wallet_eq : row.wallet = wallet
  transaction : row.transaction = c.transaction
  unused : row.usedAt = none
  expiresAt : row.expiresAt = now + c.expiresIn * 1000
  expiresIn : c.expiresIn = getChallengeTimeoutSeconds host

/-- The row is created with a fresh id, or nothing is. -/
theorem exec_storeChallenge (wallet : String) (prepared : ChallengeTx × ℕ) (s : AuthState) :
    (∃ c row, exec host.handle (storeChallenge host wallet prepared) s =
      (.ok c, (s.addChallenge row).tick 1) ∧ Stored host wallet prepared.2 c row ∧
        c.challengeId = host.cuid s.served ∧ c.transaction = prepared.1) ∨
    ∃ e, exec host.handle (storeChallenge host wallet prepared) s = (.error e, s.tick 1) := by
  rcases exec_createChallenge wallet prepared.1
    (prepared.2 + getChallengeTimeoutSeconds host * 1000) s with
    ⟨row, hcreate, rfl⟩ | ⟨e, hcreate⟩
  · exact Or.inl ⟨_, _, exec_bind_eq_ok.mpr ⟨_, _, hcreate, rfl⟩,
      ⟨rfl, rfl, rfl, rfl, rfl, rfl⟩, rfl, rfl⟩
  · rcases exec_bind_cases (prisma.challenge.create wallet prepared.1
      (prepared.2 + getChallengeTimeoutSeconds host * 1000)) _ s with
      ⟨row, u, hok, -⟩ | ⟨e', u, hfail, heq⟩
    · rw [hcreate] at hok
      cases hok
    · rw [hcreate] at hfail
      cases hfail
      exact Or.inr ⟨e, heq⟩

/-- A request for a challenge stores exactly the one it returns, or returns none and stores none. -/
theorem generateChallenge_cases {wallet : String} {result : Except AuthError Challenge}
    (h : exec host.handle (generateChallenge host wallet) s = (result, s')) :
    (∃ c, result = .ok c ∧ Created host s s' c) ∨ (∃ e, result = .error e) ∧ OldRows s s' := by
  rw [generateChallenge_eq] at h
  rcases exec_bind_cases (prepareChallenge host wallet) (storeChallenge host wallet) s with
    ⟨⟨tx, now⟩, u, hprepare, heq⟩ | ⟨e, u, hprepare, heq⟩
  · have hold := exec_oldRows host (uses_prepareChallenge wallet) hprepare
    obtain ⟨⟨server, -, -, rfl⟩, -, hlt⟩ := exec_prepareChallenge hprepare
    rcases exec_storeChallenge wallet (host.challengeTx s.served server wallet, now) u with
      ⟨c, row, hstore, hrow, hfresh, hc⟩ | ⟨e, hstore⟩
    · rw [heq, hstore] at h
      obtain ⟨rfl, rfl⟩ := Prod.mk.inj h
      refine Or.inl ⟨c, rfl, ?_, ?_, ⟨u.served, hlt.le, Nat.lt_succ_self _, hfresh⟩, ?_⟩
      · rw [hc]
        exact le_rfl
      · rw [hc]
        exact Nat.lt_succ_of_lt hlt
      · intro row' hrow'
        rcases List.mem_append.mp hrow' with hrow' | hrow'
        · exact Or.inl (hold.row row' hrow')
        · rw [List.mem_singleton.mp hrow']
          exact Or.inr ⟨hrow.id, hrow.transaction⟩
    · rw [heq, hstore] at h
      obtain ⟨rfl, rfl⟩ := Prod.mk.inj h
      exact Or.inr ⟨⟨e, rfl⟩, hold.trans (.of_challenges_eq (Nat.le_succ _) rfl)⟩
  · rw [heq] at h
    obtain ⟨rfl, rfl⟩ := Prod.mk.inj h
    exact Or.inr ⟨⟨e, rfl⟩, exec_oldRows host (uses_prepareChallenge wallet) hprepare⟩

end Rows

end AuthHost

end CarbonVeritas
