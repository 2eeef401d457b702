/-
# One login for a challenge

`exchangeToken` looks a challenge up by its id, checks that the row is one of the wallet, unused
and unexpired, and checks the signed transaction on its own.  What it does not do is compare the
signed transaction with the one of the row.  So a signed challenge is good for every fresh
challenge of its wallet (`not_oneLogin`), and for one login exactly as long as nobody presents it
under another id (`oneLogin_iff`).
-/
import CarbonVeritas.AuthSpec

namespace CarbonVeritas

open Transition AuthService
open Program

namespace AuthHost

variable (host : AuthHost)

/-! ## Calls -/

/-- What a call returns when no other call runs. -/
def outcome (s : AuthState) (call : AuthCall) : Except AuthError AuthReply :=
  (exec host.handle (call.program host) s).1

/-- The state after such a call. -/
def serve (s : AuthState) (call : AuthCall) : AuthState :=
  (exec host.handle (call.program host) s).2

/-- The challenge that a call issues: its id and its transaction. -/
def issue (p : AuthState × AuthCall) : Option (String × ChallengeTx) :=
  match host.outcome p.1 p.2 with
  | .ok (.challenge c) => some (c.challengeId, c.transaction)
  | _ => none

/-- An exchange that succeeds: the id that it names and what it carries. -/
def login (p : AuthState × AuthCall) : Option (String × Option Envelope) :=
  match p.2, host.outcome p.1 p.2 with
  | .exchangeToken _ signed id, .ok _ => some (id, signed)
  | _, _ => none

/-- The transaction of the signed copy that a successful exchange carries. -/
def loginTx (p : AuthState × AuthCall) : Option ChallengeTx :=
  (host.login p).bind fun l => l.2.map Envelope.transaction

/-- An exchange succeeds only with a signed copy of the transaction that was issued under the id
that it names, and no transaction is good for two. -/
structure OneLogin (hist : List (AuthState × AuthCall)) : Prop where
  bound : ∀ id signed, (id, signed) ∈ hist.filterMap host.login →
    ∃ e, signed = some e ∧ (id, e.transaction) ∈ hist.filterMap host.issue
  once : (hist.filterMap host.loginTx).Nodup

/-- No transaction passes the checks for the row of another one. -/
def Matches (s : AuthState) (call : AuthCall) : Prop :=
  ∀ wallet e id row, call = .exchangeToken wallet (some e) id → s.findChallenge id = some row →
    host.Redeemable s wallet e row → e.transaction = row.transaction

section Calls

variable {host} {s : AuthState} {call : AuthCall}

/-- The call for an exchange runs the exchange. -/
theorem exec_exchange (wallet : String) (signed : Option Envelope) (id : String) (s : AuthState) :
    exec host.handle ((AuthCall.exchangeToken wallet signed id).program host) s =
      ((exec host.handle (exchangeToken host wallet signed id) s).1.map .session,
        (exec host.handle (exchangeToken host wallet signed id) s).2) :=
  exec_bind_ret _ _ s

/-- The call for a challenge runs its generation. -/
theorem exec_generate (wallet : String) (s : AuthState) :
    exec host.handle ((AuthCall.generateChallenge wallet).program host) s =
      ((exec host.handle (generateChallenge host wallet) s).1.map .challenge,
        (exec host.handle (generateChallenge host wallet) s).2) :=
  exec_bind_ret _ _ s

/-- What a successful exchange found, and that it marks its row. -/
theorem login_eq_some {id : String} {signed : Option Envelope}
    (h : host.login (s, call) = some (id, signed)) :
    ∃ wallet row e, call = .exchangeToken wallet (some e) id ∧ signed = some e ∧
      s.findChallenge id = some row ∧ host.Redeemable s wallet e row ∧
        ∃ usedAt, (host.serve s call).challenges = (s.mark id usedAt).challenges := by
  cases call with
  | exchangeToken wallet signed' id' =>
      simp only [login, outcome, exec_exchange] at h
      cases hexec : exec host.handle (exchangeToken host wallet signed' id') s with
      | mk result s' =>
          rw [hexec] at h
          cases result with
          | ok tokens =>
              cases h
              obtain ⟨row, e, hrow, rfl, hredeem, hmark⟩ := exchangeToken_ok hexec
              refine ⟨wallet, row, e, rfl, rfl, hrow, hredeem, host.time (s.served + 5), ?_⟩
              rw [serve, exec_exchange, hexec]
              exact hmark
          | error e => cases h
  | generateChallenge wallet => cases h
  | refreshToken token => cases h
  | request token => cases h

/-- A redeemable challenge logs in. -/
theorem login_of_redeemable {wallet id : String} {e : Envelope} {row : ChallengeRow}
    (hrow : s.findChallenge id = some row) (h : host.Redeemable s wallet e row) :
    host.login (s, .exchangeToken wallet (some e) id) = some (id, some e) := by
  obtain ⟨tokens, s', hexec⟩ := exchangeToken_returns hrow h
  simp only [login, outcome, exec_exchange, hexec]
  rfl

/-- Only `generateChallenge` creates. -/
theorem uses_program (h : ∀ wallet, call ≠ .generateChallenge wallet) :
    (call.program host).Uses AuthQuery.Ordinary := by
  cases call with
  | generateChallenge wallet => exact absurd rfl (h wallet)
  | exchangeToken wallet signed id =>
      exact .bind ((uses_exchangeToken _ _ _).mono fun _ => AuthQuery.Redeems.ordinary)
        fun _ => trivial
  | refreshToken token =>
      exact .bind ((uses_refreshToken _).mono fun _ => AuthQuery.KeepsChallenges.ordinary)
        fun _ => trivial
  | request token =>
      exact .bind ((uses_authenticate _).mono fun _ => AuthQuery.KeepsChallenges.ordinary)
        fun _ => trivial

/-- Only `generateChallenge` issues. -/
theorem issue_eq_none (h : ∀ wallet, call ≠ .generateChallenge wallet) :
    host.issue (s, call) = none := by
  have hmap : ∀ {α : Type} (p : AuthProgram α) (f : α → AuthReply), (∀ a c, f a ≠ .challenge c) →
      (match (exec host.handle (p >>= fun a => .ret (f a)) s).1 with
        | .ok (.challenge c) => some (c.challengeId, c.transaction)
        | _ => none) = none := by
    intro α p f hf
    rw [exec_bind_ret]
    cases (exec host.handle p s).1 with
    | ok a =>
        cases hfa : f a with
        | challenge c => exact absurd hfa (hf a c)
        | session tokens => simp [Except.map, hfa]
        | user u => simp [Except.map, hfa]
    | error e => rfl
  cases call with
  | generateChallenge wallet => exact absurd rfl (h wallet)
  | exchangeToken wallet signed id => exact hmap _ _ nofun
  | refreshToken token => exact hmap _ _ nofun
  | request token => exact hmap _ _ nofun

/-- What a call that issues a challenge does. -/
theorem issue_eq_some {id : String} {tx : ChallengeTx}
    (h : host.issue (s, call) = some (id, tx)) :
    ∃ c, id = c.challengeId ∧ tx = c.transaction ∧ Created host s (host.serve s call) c := by
  by_cases hcall : ∃ wallet, call = .generateChallenge wallet
  · obtain ⟨wallet, rfl⟩ := hcall
    simp only [issue, outcome, exec_generate] at h
    cases hexec : exec host.handle (generateChallenge host wallet) s with
    | mk result s' =>
        rw [hexec] at h
        rcases generateChallenge_cases hexec with ⟨c, rfl, hcreated⟩ | ⟨⟨e, rfl⟩, -⟩
        · cases h
          refine ⟨c, rfl, rfl, ?_⟩
          rw [serve, exec_generate, hexec]
          exact hcreated
        · cases h
  · rw [issue_eq_none fun wallet heq => hcall ⟨wallet, heq⟩] at h
    cases h

/-- A call that issues no challenge leaves old rows. -/
theorem oldRows_of_issue_eq_none (h : host.issue (s, call) = none) :
    OldRows s (host.serve s call) := by
  cases call with
  | generateChallenge wallet =>
      simp only [issue, outcome, exec_generate] at h
      cases hexec : exec host.handle (generateChallenge host wallet) s with
      | mk result s' =>
          rw [hexec] at h
          rcases generateChallenge_cases hexec with ⟨c, rfl, -⟩ | ⟨-, hold⟩
          · cases h
          · rw [serve, exec_generate, hexec]
            exact hold
  | exchangeToken wallet signed id => exact exec_oldRows host (uses_program (by simp)) rfl
  | refreshToken token => exact exec_oldRows host (uses_program (by simp)) rfl
  | request token => exact exec_oldRows host (uses_program (by simp)) rfl

end Calls

/-! ## The ledger of challenges -/

/-- What the rows have to do with the challenges issued so far. -/
structure Ledger (hist : List (AuthState × AuthCall)) (s : AuthState) : Prop where
  row_issued : ∀ row ∈ s.challenges, (row.id, row.transaction) ∈ hist.filterMap host.issue
  known : ∀ id tx, (id, tx) ∈ hist.filterMap host.issue →
    (∃ n < s.served, id = host.cuid n) ∧ tx.nonce < s.served
  functional : ∀ id tx tx', (id, tx) ∈ hist.filterMap host.issue →
    (id, tx') ∈ hist.filterMap host.issue → tx = tx'
  injective : ∀ id id' tx, (id, tx) ∈ hist.filterMap host.issue →
    (id', tx) ∈ hist.filterMap host.issue → id = id'

section Ledger

variable {host} {hist : List (AuthState × AuthCall)} {s : AuthState} {call : AuthCall}

/-- A call only adds to the count of queries. -/
theorem served_le : s.served ≤ (host.serve s call).served := by
  cases hissue : host.issue (s, call) with
  | none => exact (oldRows_of_issue_eq_none hissue).served_le
  | some issued =>
      obtain ⟨c, -, -, hcreated⟩ := issue_eq_some hissue
      exact hcreated.nonce_ge.trans hcreated.nonce_lt.le

/-- Another call keeps the ledger. -/
theorem Ledger.quiet (h : host.Ledger hist s) (hissue : host.issue (s, call) = none) :
    host.Ledger (hist ++ [(s, call)]) (host.serve s call) := by
  have hlog : (hist ++ [(s, call)]).filterMap host.issue = hist.filterMap host.issue := by
    rw [filterMap_concat, hissue, Option.toList_none, List.append_nil]
  have hold := oldRows_of_issue_eq_none hissue
  refine ⟨fun row' hrow' => ?_, fun id tx hmem => ?_, ?_, ?_⟩
  · obtain ⟨row, hrow, hid, htx, -⟩ := hold.row row' hrow'
    rw [hlog, hid, htx]
    exact h.row_issued row hrow
  · rw [hlog] at hmem
    obtain ⟨⟨n, hn, hid⟩, hnonce⟩ := h.known id tx hmem
    exact ⟨⟨n, hn.trans_le hold.served_le, hid⟩, hnonce.trans_le hold.served_le⟩
  · rw [hlog]
    exact h.functional
  · rw [hlog]
    exact h.injective

/-- A new challenge has an id and a transaction that no earlier one has. -/
theorem Ledger.issue (h : host.Ledger hist s) {c : Challenge}
    (hissue : host.issue (s, call) = some (c.challengeId, c.transaction))
    (hcreated : Created host s (host.serve s call) c) :
    host.Ledger (hist ++ [(s, call)]) (host.serve s call) := by
  have hlog : (hist ++ [(s, call)]).filterMap host.issue =
      hist.filterMap host.issue ++ [(c.challengeId, c.transaction)] := by
    rw [filterMap_concat, hissue, Option.toList_some]
  have hmem : ∀ id tx, (id, tx) ∈ (hist ++ [(s, call)]).filterMap host.issue →
      (id, tx) ∈ hist.filterMap host.issue ∨ id = c.challengeId ∧ tx = c.transaction := by
    intro id tx hin
    rw [hlog] at hin
    rcases List.mem_append.mp hin with hin | hin
    · exact Or.inl hin
    · exact Or.inr (Prod.mk.inj (List.mem_singleton.mp hin))
  obtain ⟨n, hn, hn', hid⟩ := hcreated.id_fresh
  have hserved : s.served ≤ (host.serve s call).served := served_le
  -- an issued id is the one of an earlier query, and the nonce of its transaction as well
  have hnew : ∀ id tx, (id, tx) ∈ hist.filterMap host.issue →
      id ≠ c.challengeId ∧ tx ≠ c.transaction := by
    intro id tx hin
    obtain ⟨⟨m, hm, hid'⟩, hnonce⟩ := h.known id tx hin
    constructor
    · rintro rfl
      have hmn : m = n := host.cuid_injective (hid'.symm.trans hid)
      omega
    · rintro rfl
      have hge := hcreated.nonce_ge
      omega
  refine ⟨fun row' hrow' => ?_, fun id tx hin => ?_, fun id tx tx' hin hin' => ?_,
    fun id id' tx hin hin' => ?_⟩
  · rw [hlog, List.mem_append]
    rcases hcreated.row row' hrow' with ⟨row, hrow, hrid, hrtx, -⟩ | ⟨hrid, hrtx⟩
    · rw [hrid, hrtx]
      exact Or.inl (h.row_issued row hrow)
    · rw [hrid, hrtx]
      exact Or.inr (List.mem_singleton_self _)
  · rcases hmem id tx hin with hin | ⟨rfl, rfl⟩
    · obtain ⟨⟨m, hm, hid'⟩, hnonce⟩ := h.known id tx hin
      exact ⟨⟨m, hm.trans_le hserved, hid'⟩, hnonce.trans_le hserved⟩
    · exact ⟨⟨n, hn', hid⟩, hcreated.nonce_lt⟩
  · rcases hmem id tx hin with hin | ⟨rfl, rfl⟩ <;> rcases hmem _ tx' hin' with hin' | ⟨hid', rfl⟩
    · exact h.functional id tx tx' hin hin'
    · exact absurd hid' (hnew id tx hin).1
    · exact absurd rfl (hnew _ tx' hin').1
    · rfl
  · rcases hmem id tx hin with hin | ⟨rfl, rfl⟩ <;> rcases hmem id' _ hin' with hin' | ⟨rfl, htx⟩
    · exact h.injective id id' tx hin hin'
    · exact absurd htx (hnew id tx hin).2
    · exact absurd rfl (hnew id' _ hin').2
    · rfl

/-- Every call keeps the ledger of challenges. -/
theorem Ledger.next (h : host.Ledger hist s) (call : AuthCall) :
    host.Ledger (hist ++ [(s, call)]) (host.serve s call) := by
  cases hissue : host.issue (s, call) with
  | none => exact h.quiet hissue
  | some issued =>
      obtain ⟨c, hid, htx, hcreated⟩ := issue_eq_some hissue
      refine h.issue ?_ hcreated
      rw [hissue, ← hid, ← htx]

/-- In every run the ledger of challenges is kept. -/
theorem ledger (calls : List AuthCall) :
    host.Ledger (steps host.serve AuthState.initial calls)
      (run host.serve AuthState.initial calls) := by
  refine history_invariant (C := fun _ _ => True) (I := host.Ledger) ⟨?_, ?_, ?_, ?_⟩
    (fun hist s call h _ => h.next call) fun _ _ => trivial
  · intro row hrow
    cases hrow
  · intro id tx hmem
    cases hmem
  · intro id tx tx' hmem
    cases hmem
  · intro id id' tx hmem
    cases hmem

end Ledger

/-! ## One login -/

section Login

variable {host} {hist : List (AuthState × AuthCall)} {s : AuthState} {call : AuthCall}

/-- No row with the transaction is left to be exchanged. -/
def Spent (s : AuthState) (tx : ChallengeTx) : Prop :=
  ∀ row ∈ s.challenges, row.transaction = tx → row.usedAt.isSome

/-- A challenge that is found is stored under its id. -/
theorem mem_of_findChallenge {id : String} {row : ChallengeRow}
    (h : s.findChallenge id = some row) : row ∈ s.challenges ∧ row.id = id :=
  ⟨List.mem_of_find?_eq_some h, by simpa using List.find?_some h⟩

/-- A spent transaction stays spent: a new row has a new one. -/
theorem Spent.serve {tx : ChallengeTx} (h : Spent s tx) (hnonce : tx.nonce < s.served) :
    Spent (host.serve s call) tx := by
  intro row' hrow' htx
  cases hissue : host.issue (s, call) with
  | none =>
      obtain ⟨row, hrow, -, hrtx, hused⟩ := (oldRows_of_issue_eq_none hissue).row row' hrow'
      exact hused (h row hrow (hrtx.symm.trans htx))
  | some issued =>
      obtain ⟨c, -, -, hcreated⟩ := issue_eq_some hissue
      rcases hcreated.row row' hrow' with ⟨row, hrow, -, hrtx, hused⟩ | ⟨-, hrtx⟩
      · exact hused (h row hrow (hrtx.symm.trans htx))
      · have hge := hcreated.nonce_ge
        rw [← hrtx, htx] at hge
        omega

/-- A successful exchange spends the transaction of its row, which was not spent before. -/
theorem spent_of_login (hledger : host.Ledger hist s) {id : String} {signed : Option Envelope}
    {row : ChallengeRow} (hlogin : host.login (s, call) = some (id, signed))
    (hrow : s.findChallenge id = some row) :
    ¬ Spent s row.transaction ∧ Spent (host.serve s call) row.transaction := by
  obtain ⟨wallet, row', e, -, -, hrow', hredeem, usedAt, hmark⟩ := login_eq_some hlogin
  obtain rfl : row' = row := Option.some.inj (hrow'.symm.trans hrow)
  obtain ⟨hmem, hid⟩ := mem_of_findChallenge hrow
  constructor
  · intro hspent
    have hused := hspent row' hmem rfl
    rw [hredeem.live.unused] at hused
    exact absurd hused (by simp)
  · intro row₂ hrow₂ htx
    rw [hmark, AuthState.mark_challenges] at hrow₂
    obtain ⟨row₁, hrow₁, rfl⟩ := List.mem_map.mp hrow₂
    -- a row with this transaction is the row of this id
    have hsame : row₁.id = id := by
      have htx₁ : row₁.transaction = row'.transaction := by
        rw [← htx, AuthState.markRow]
        split_ifs <;> rfl
      have hissued := hledger.row_issued row₁ hrow₁
      rw [htx₁] at hissued
      exact (hledger.injective _ _ _ hissued (hledger.row_issued row' hmem)).trans hid
    rw [AuthState.markRow, if_pos hsame]
    rfl

/-- A call that does not log in uses no transaction. -/
theorem loginTx_eq_none (h : host.login (s, call) = none) : host.loginTx (s, call) = none := by
  rw [loginTx, h]
  rfl

/-- What holds as long as every call matches. -/
structure Good (host : AuthHost) (hist : List (AuthState × AuthCall)) (s : AuthState) : Prop where
  ledger : host.Ledger hist s
  oneLogin : host.OneLogin hist
  spent : ∀ tx ∈ hist.filterMap host.loginTx, Spent s tx ∧ tx.nonce < s.served

/-- Every call whose transaction matches keeps the run good. -/
theorem Good.next (h : Good host hist s) (hmatches : host.Matches s call) :
    Good host (hist ++ [(s, call)]) (host.serve s call) := by
  have hkept : ∀ tx ∈ hist.filterMap host.loginTx,
      Spent (host.serve s call) tx ∧ tx.nonce < (host.serve s call).served := by
    intro tx htx
    obtain ⟨hspent, hnonce⟩ := h.spent tx htx
    exact ⟨hspent.serve hnonce, hnonce.trans_le served_le⟩
  have hissued : ∀ p, p ∈ hist.filterMap host.issue →
      p ∈ (hist ++ [(s, call)]).filterMap host.issue := by
    intro p hp
    rw [filterMap_concat]
    exact List.mem_append_left _ hp
  cases hlogin : host.login (s, call) with
  -- no login: the list of logins is as before
  | none =>
      have htx := loginTx_eq_none hlogin
      refine ⟨h.ledger.next call, ⟨fun id signed hmem => ?_, ?_⟩, ?_⟩
      · rw [filterMap_concat, hlogin, Option.toList_none, List.append_nil] at hmem
        obtain ⟨e, hsigned, he⟩ := h.oneLogin.bound id signed hmem
        exact ⟨e, hsigned, hissued _ he⟩
      · rw [filterMap_concat, htx, Option.toList_none, List.append_nil]
        exact h.oneLogin.once
      · rw [filterMap_concat, htx, Option.toList_none, List.append_nil]
        exact hkept
  | some l =>
      obtain ⟨id, signed⟩ := l
      obtain ⟨wallet, row, e, hcall, rfl, hrow, hredeem, -⟩ := login_eq_some hlogin
      have hsame : e.transaction = row.transaction := hmatches wallet e id row hcall hrow hredeem
      have htx : host.loginTx (s, call) = some row.transaction := by
        rw [loginTx, hlogin, ← hsame]
        rfl
      obtain ⟨hmem, hid⟩ := mem_of_findChallenge hrow
      have hrowIssued := h.ledger.row_issued row hmem
      -- the row was unused, so no login before this one has spent it
      obtain ⟨hfresh, hspent⟩ := spent_of_login h.ledger hlogin hrow
      refine ⟨h.ledger.next call, ⟨fun id' signed hin => ?_, ?_⟩, fun tx hin => ?_⟩
      · rw [filterMap_concat, hlogin, Option.toList_some] at hin
        rcases List.mem_append.mp hin with hin | hin
        · obtain ⟨e', hsigned, he⟩ := h.oneLogin.bound id' signed hin
          exact ⟨e', hsigned, hissued _ he⟩
        · obtain ⟨rfl, rfl⟩ := Prod.mk.inj (List.mem_singleton.mp hin)
          refine ⟨e, rfl, hissued _ ?_⟩
          rwa [hsame, ← hid]
      · rw [filterMap_concat, htx, Option.toList_some]
        refine List.nodup_append.mpr ⟨h.oneLogin.once, List.pairwise_singleton _ _, ?_⟩
        rintro tx hin _ hnew rfl
        rw [List.mem_singleton.mp hnew] at hin
        exact hfresh (h.spent _ hin).1
      · rw [filterMap_concat, htx, Option.toList_some] at hin
        rcases List.mem_append.mp hin with hin | hin
        · exact hkept tx hin
        · rw [List.mem_singleton.mp hin]
          exact ⟨hspent, (h.ledger.known _ _ hrowIssued).2.trans_le served_le⟩

/-- A run in which a transaction passes the checks for the row of another one has an exchange
that succeeds with a transaction that was not issued under its id. -/
theorem matches_of_oneLogin {calls : List AuthCall}
    (h : host.OneLogin (steps host.serve AuthState.initial calls)) :
    Always host.serve host.Matches AuthState.initial calls := by
  rintro ⟨s, call⟩ hstep wallet e id row rfl hrow hredeem
  obtain ⟨before, after, hcalls, hs⟩ := (mem_steps_iff _ _ _ _).mp hstep
  have hrowIssued : (row.id, row.transaction) ∈
      (steps host.serve AuthState.initial calls).filterMap host.issue := by
    have hledger : host.Ledger (steps host.serve AuthState.initial before) s := by
      rw [show s = _ from hs]
      exact ledger before
    have hbefore := hledger.row_issued row (mem_of_findChallenge hrow).1
    rw [hcalls, steps_append, List.filterMap_append]
    exact List.mem_append_left _ hbefore
  have hlogin : (id, some e) ∈
      (steps host.serve AuthState.initial calls).filterMap host.login :=
    List.mem_filterMap.mpr ⟨_, hstep, login_of_redeemable hrow hredeem⟩
  obtain ⟨e', he, hissued⟩ := h.bound id (some e) hlogin
  obtain rfl := Option.some.inj he
  rw [(mem_of_findChallenge hrow).2] at hrowIssued
  exact (ledger calls).functional id _ _ hissued hrowIssued

/-- **One login.**  In a run of calls a signed challenge is good for one login exactly if no
exchange presents, for the row of one challenge, a transaction of another one that passes all the
checks. -/
theorem oneLogin_iff (host : AuthHost) (calls : List AuthCall) :
    host.OneLogin (steps host.serve AuthState.initial calls) ↔
      Always host.serve host.Matches AuthState.initial calls := by
  refine ⟨matches_of_oneLogin, fun h => ?_⟩
  have hinit : Good host [] AuthState.initial := by
    refine ⟨ledger [], ⟨?_, List.nodup_nil⟩, ?_⟩
    · intro id signed hmem
      cases hmem
    · intro tx hmem
      cases hmem
  exact (history_invariant hinit (fun hist s call hgood hmatches => hgood.next hmatches) h).oneLogin

end Login

/-! ## A replayed challenge -/

/-- A host with a clock that runs and a database that answers. -/
def sample : AuthHost where
  SEP10_SIGNING_KEY := some "SERVER"
  STELLAR_NETWORK_PASSPHRASE := none
  SEP10_HOME_DOMAIN := none
  SEP10_CHALLENGE_TIMEOUT := none
  STELLAR_NETWORK := none
  isValidEd25519PublicKey text := text.length = 56
  fromSecret secret := some secret
  time n := 1750000000000 + n
  cuid n := String.ofList (List.replicate n 'c')
  cuid_injective := by
    intro m n h
    have hlist := congrArg List.length (String.ofList_injective h)
    rwa [List.length_replicate, List.length_replicate] at hlist
  outage _ := false

def sampleWallet : String := "GAAAAAAAAAAAAAAAAAAAAAAAAAAAAAAAAAAAAAAAAAAAAAAAAAAAAWHF"

/-- The first challenge of the wallet, signed by it. -/
def signedSample : Envelope where
  transaction := WebAuth.buildChallengeTx 1750000000001 0 "SERVER" sampleWallet
    (getHomeDomain sample) (getChallengeTimeoutSeconds sample) (getNetworkPassphrase sample)
    (getHomeDomain sample)
  signers := ["SERVER", sampleWallet]

/-- A login with the first challenge; then a second challenge is asked for and answered with the
signed copy of the first. -/
def replay : List AuthCall :=
  [.generateChallenge sampleWallet,
    .exchangeToken sampleWallet (some signedSample) (sample.cuid 5),
    .generateChallenge sampleWallet,
    .exchangeToken sampleWallet (some signedSample) (sample.cuid 22)]

/-- The replay of the example logs in twice with one transaction. -/
theorem loginTx_replay : (steps sample.serve AuthState.initial replay).filterMap sample.loginTx =
    [signedSample.transaction, signedSample.transaction] := by
  decide +kernel

/-- Not every run keeps to one login for each transaction. -/
theorem not_oneLogin : ¬ ∀ (host : AuthHost) (calls : List AuthCall),
    host.OneLogin (steps host.serve AuthState.initial calls) := by
  intro h
  have honce := (h sample replay).once
  rw [loginTx_replay] at honce
  exact absurd honce (by simp)

end AuthHost

end CarbonVeritas
