/-
# A challenge is good until it expires

Who asks for a challenge and signs it can log in with it until it expires, whatever the service is
called for in between: others ask for challenges, which deletes spent ones, log in, refresh their
tokens, or present this challenge without the signature of the wallet (`login_of_challenge`).

The row of the challenge stays `Pending`: a query that marks another row or deletes rows that have
expired spares it, and an exchange comes to its mark only with a signature of the wallet.
-/
import CarbonVeritas.ChallengeRace

namespace CarbonVeritas

open Transition AuthService
open Program

/-- The transaction of a challenge, signed by the server and by the wallet. -/
def AuthService.Challenge.sign (c : Challenge) (wallet : String) : Envelope where
  transaction := c.transaction
  signers := [c.transaction.serverAccountID, wallet]

/-- The call presents no transaction that the wallet has signed under the id of a challenge. -/
def AuthCall.Unsigned (wallet id : String) (call : AuthCall) : Prop :=
  ∀ sender e, call = .exchangeToken sender (some e) id → wallet ∉ e.signers

/-- The query neither marks the row nor deletes it while it is unused. -/
def AuthQuery.Spares (row : ChallengeRow) : AuthQuery → Prop
  | .deleteSpentChallenges cutoff => cutoff ≤ row.expiresAt
  | .markUsed id _ => id ≠ row.id
  | _ => True

namespace AuthHost

variable (host : AuthHost)

/-- The row is to be exchanged, and no other row has its id. -/
structure Pending (row : ChallengeRow) (s : AuthState) : Prop where
  issued : ∃ n < s.served, row.id = host.cuid n
  unused : row.usedAt = none
  mem : row ∈ s.challenges
  unique : ∀ row' ∈ s.challenges, row'.id = row.id → row' = row

/-! ## One query -/

section Queries

variable {host} {row : ChallengeRow} {s s' : AuthState}

/-- A pending challenge is found under its id. -/
theorem Pending.find (h : host.Pending row s) : s.findChallenge row.id = some row := by
  cases hfind : s.findChallenge row.id with
  | none =>
      have hnot := List.find?_eq_none.mp hfind row h.mem
      exact absurd (decide_eq_true rfl) hnot
  | some row' =>
      obtain ⟨hmem, hid⟩ := mem_of_findChallenge hfind
      rw [h.unique row' hmem hid]

/-- A pending challenge stays pending while no challenge is written. -/
theorem Pending.of_challenges_eq (h : host.Pending row s) (hserved : s.served ≤ s'.served)
    (heq : s'.challenges = s.challenges) : host.Pending row s' := by
  obtain ⟨⟨n, hn, hid⟩, hunused, hmem, hunique⟩ := h
  refine ⟨⟨n, hn.trans_le hserved, hid⟩, hunused, ?_, ?_⟩
  · rwa [heq]
  · rwa [heq]

/-- Until it expires, the challenge is not swept away. -/
theorem Pending.delete (h : host.Pending row s) {now : ℕ} (hnow : now ≤ row.expiresAt) :
    host.Pending row (host.answer s (.deleteSpentChallenges now)).2 := by
  refine ⟨h.issued, h.unused, List.mem_filter.mpr ⟨h.mem, ?_⟩, fun row' hrow' => ?_⟩
  · simp [h.unused, hnow]
  · exact h.unique row' (List.mem_filter.mp hrow').1

/-- Redeeming another challenge leaves it pending. -/
theorem Pending.mark (h : host.Pending row s) {id : String} (hid : id ≠ row.id) (usedAt : ℕ) :
    host.Pending row (s.mark id usedAt) := by
  refine ⟨h.issued, h.unused, List.mem_map.mpr ⟨row, h.mem, if_neg hid.symm⟩,
    fun row' hrow' hsame => ?_⟩
  obtain ⟨old, hold, rfl⟩ := List.mem_map.mp hrow'
  unfold AuthState.markRow at hsame ⊢
  split_ifs at hsame ⊢ with hmarked
  · exact absurd (hmarked.symm.trans hsame) hid
  · exact h.unique old hold hsame

/-- A new challenge has another id. -/
theorem Pending.add (h : host.Pending row s) {new : ChallengeRow}
    (hnew : new.id = host.cuid s.served) :
    host.Pending row ((s.addChallenge new).tick 1) := by
  obtain ⟨⟨n, hn, hid⟩, hunused, hmem, hunique⟩ := h
  refine ⟨⟨n, Nat.lt_succ_of_lt hn, hid⟩, hunused, List.mem_append_left _ hmem,
    fun row' hrow' hsame => ?_⟩
  rcases List.mem_append.mp hrow' with hold | hadded
  · exact hunique row' hold hsame
  · rw [List.mem_singleton.mp hadded] at hsame
    have hn' : n = s.served := host.cuid_injective (hid.symm.trans (hsame.symm.trans hnew))
    omega

/-- A query that spares the row leaves it pending. -/
theorem handle_pending {q : AuthQuery} (hq : q.Spares row) (h : host.Pending row s) :
    host.Pending row (host.handle q s).2 := by
  have htick : ∀ {u : AuthState}, host.Pending row u → host.Pending row (u.tick 1) :=
    fun hu => hu.of_challenges_eq (Nat.le_succ _) rfl
  unfold handle
  split_ifs
  · exact htick h
  cases q with
  | createChallenge wallet transaction expiresAt =>
      simp only [answer]
      split_ifs
      · exact htick h
      · exact h.add rfl
  | deleteSpentChallenges now => exact htick (h.delete hq)
  | markUsed id usedAt =>
      simp only [answer]
      split_ifs
      · exact htick (h.mark hq usedAt)
      · exact htick h
  | createUser stellarPub =>
      simp only [answer]
      split_ifs
      · exact htick h
      · exact h.of_challenges_eq (Nat.le_succ _) rfl
  | sign use payload expiresIn => exact h.of_challenges_eq (Nat.le_succ _) rfl
  | now => exact htick h
  | nonce => exact htick h
  | findChallenge id => exact htick h
  | findUser stellarPub => exact htick h
  | findUserById id => exact htick h
  | verify token => exact htick h

/-- Redeeming another challenge spares this one. -/
theorem spares_of_redeems {q : AuthQuery} {id : String} (hid : id ≠ row.id) (hq : q.Redeems id) :
    q.Spares row := by
  cases q with
  | deleteSpentChallenges now => exact hq.elim
  | markUsed id' usedAt =>
      have hsame : id' = id := hq
      exact hsame ▸ hid
  | _ => trivial

/-- A query that writes no challenge spares it. -/
theorem spares_of_keepsChallenges {q : AuthQuery} (hq : q.KeepsChallenges) : q.Spares row := by
  cases q with
  | deleteSpentChallenges now => exact hq.elim
  | markUsed id usedAt => exact hq.elim
  | _ => trivial

end Queries

/-! ## One call -/

section Calls

variable {host} {row : ChallengeRow} {s : AuthState}

/-- A program that spares the challenge leaves it pending. -/
theorem exec_pending {α : Type} {p : AuthProgram α} (hp : p.Uses (AuthQuery.Spares row))
    (h : host.Pending row s) : host.Pending row (exec host.handle p s).2 := by
  refine exec_invariant (I := host.Pending row) (fun q u hq hu => ?_) hp h
  exact handle_pending hq hu

variable (host) in
/-- A program only adds to the count of queries. -/
theorem exec_served_le {α : Type} (p : AuthProgram α) (s : AuthState) :
    s.served ≤ (exec host.handle p s).2.served := by
  refine exec_invariant (I := fun u : AuthState => s.served ≤ u.served) (fun q u _ hu => ?_)
    (uses_true p) le_rfl
  rw [handle_served]
  exact Nat.le_succ_of_le hu

/-- What `generateChallenge` deletes expired before the call was over. -/
theorem generateChallenge_pending (hclock : Monotone host.time) (wallet : String)
    (h : host.Pending row s)
    (htime : host.time (exec host.handle (generateChallenge host wallet) s).2.served ≤
      row.expiresAt) :
    host.Pending row (exec host.handle (generateChallenge host wallet) s).2 := by
  have hstart : host.Pending row (exec host.handle (newTransaction host wallet) s).2 :=
    exec_pending ((uses_newTransaction wallet).mono fun _ => spares_of_keepsChallenges) h
  revert htime
  unfold generateChallenge
  refine exec_bind_rule (P := fun result : Except AuthError Challenge × AuthState =>
    host.time result.2.served ≤ row.expiresAt → host.Pending row result.2)
    (fun tx u htx => ?_) (fun e u htx _ => ?_)
  · rw [htx] at hstart
    refine exec_bind_rule (P := fun result : Except AuthError Challenge × AuthState =>
      host.time result.2.served ≤ row.expiresAt → host.Pending row result.2)
      (fun now v hnow htime => ?_) (fun e v hnow _ => ?_)
    · obtain ⟨rfl, rfl⟩ := exec_now.mp hnow
      have hle := (hclock ((Nat.le_succ _).trans (exec_served_le host _ (u.tick 1)))).trans htime
      refine exec_pending ?_ (hstart.of_challenges_eq (Nat.le_succ _) rfl)
      exact .bind ⟨hle, fun _ => trivial⟩ fun _ => .bind (uses_query trivial) fun _ =>
        .bind (uses_query trivial) fun _ => trivial
    · cases hnow
  · rwa [htx] at hstart

/-- A transaction that passes the checks is signed by the wallet. -/
theorem Verifies.signed {n : ℕ} {wallet : String} {e : Envelope} (h : host.Verifies n wallet e) :
    wallet ∈ e.signers := by
  obtain ⟨server, -, ⟨signers, hverify, hmem⟩, -, -⟩ := h
  simp only [WebAuth.verifyChallengeTxSigners] at hverify
  split_ifs at hverify
  rw [← Option.some.inj hverify] at hmem
  exact of_decide_eq_true (List.mem_filter.mp hmem).2

/-- Without the signature of the wallet an exchange does not come to its mark. -/
theorem exchangeToken_pending {wallet id : String} {signed : Option Envelope}
    (h : host.Pending row s)
    (hunsigned : (AuthCall.exchangeToken wallet signed id).Unsigned row.wallet row.id) :
    host.Pending row (exec host.handle (exchangeToken host wallet signed id) s).2 := by
  by_cases hid : id = row.id
  · have hcheck : host.Pending row
        (exec host.handle (checkExchange host wallet signed id) s).2 :=
      exec_pending ((uses_checkExchange _ _ _).mono fun _ => spares_of_keepsChallenges) h
    rw [exchangeToken_eq]
    refine exec_bind_rule (P := fun result : Except AuthError Session × AuthState =>
      host.Pending row result.2)
      (fun u v hok => ?_) (fun e v herror => ?_)
    · obtain ⟨⟨found, e, hfound, rfl, -, hlive, hverifies, -⟩, -⟩ := exec_checkExchange.mp hok
      rw [hid, h.find] at hfound
      obtain rfl := Option.some.inj hfound
      refine absurd ?_ (hunsigned wallet e (by rw [hid]))
      rw [hlive.wallet_eq]
      exact hverifies.signed
    · rwa [herror] at hcheck
  · exact exec_pending ((uses_exchangeToken _ _ _).mono fun _ => spares_of_redeems hid) h

/-- **One call** keeps the row pending until it expires. -/
theorem serve_pending (hclock : Monotone host.time) {call : AuthCall} (h : host.Pending row s)
    (hunsigned : call.Unsigned row.wallet row.id)
    (htime : host.time (host.serve s call).served ≤ row.expiresAt) :
    host.Pending row (host.serve s call) := by
  cases call with
  | generateChallenge wallet =>
      rw [serve, exec_generate] at htime ⊢
      exact generateChallenge_pending hclock wallet h htime
  | exchangeToken wallet signed id =>
      rw [serve, exec_exchange]
      exact exchangeToken_pending h hunsigned
  | refreshToken token =>
      exact exec_pending (.bind ((uses_refreshToken token).mono fun _ =>
        spares_of_keepsChallenges) fun _ => trivial) h
  | request token =>
      exact exec_pending (.bind ((uses_authenticate token).mono fun _ =>
        spares_of_keepsChallenges) fun _ => trivial) h

variable (host) in
/-- So do all calls of a run. -/
theorem run_served_le (s : AuthState) (calls : List AuthCall) :
    s.served ≤ (run host.serve s calls).served := by
  refine run_invariant (C := fun _ _ => True) (I := fun u : AuthState => s.served ≤ u.served)
    (fun u call hu _ => hu.trans served_le) le_rfl (always_of_forall_mem (fun _ _ _ => trivial) _)

/-- **Any calls** do. -/
theorem run_pending (hclock : Monotone host.time) {calls : List AuthCall} (h : host.Pending row s)
    (hunsigned : ∀ call ∈ calls, call.Unsigned row.wallet row.id)
    (htime : host.time (run host.serve s calls).served ≤ row.expiresAt) :
    host.Pending row (run host.serve s calls) := by
  induction calls generalizing s with
  | nil => exact h
  | cons call rest ih =>
      rw [run_cons] at htime ⊢
      have hcall : host.time (host.serve s call).served ≤ row.expiresAt :=
        (hclock (run_served_le host _ rest)).trans htime
      have hnext := serve_pending hclock h (hunsigned call List.mem_cons_self) hcall
      exact ih hnext (fun call' hmem => hunsigned call' (List.mem_cons_of_mem _ hmem)) htime

end Calls

/-! ## A challenge that was issued -/

section Issued

variable {host} {s s' : AuthState} {wallet : String} {c : Challenge}

variable (host) in
/-- A challenge is valid for some time. -/
theorem getChallengeTimeoutSeconds_pos : 0 < getChallengeTimeoutSeconds host := by
  unfold getChallengeTimeoutSeconds
  split
  · decide
  · split_ifs
    · decide
    · split
      · split_ifs with hpos
        · have hnum := Rat.num_pos.mpr hpos
          omega
        · decide
      · decide

/-- What a program stores has been counted. -/
theorem exec_known {α : Type} (p : AuthProgram α) (h : host.Known s) :
    host.Known (exec host.handle p s).2 :=
  exec_invariant (I := host.Known) (fun q _ _ hu => handle_known q hu) (uses_true p) h

/-- In every run what is stored has been counted. -/
theorem known_run (calls : List AuthCall) :
    host.Known (run host.serve AuthState.initial calls) :=
  run_invariant (C := fun _ _ => True) (I := host.Known) (fun _ _ hu _ => exec_known _ hu) nofun
    (always_of_forall_mem (fun _ _ _ => trivial) _)

/-- A challenge that was answered is the one that was issued. -/
theorem exec_of_issue (h : host.outcome s (.generateChallenge wallet) = .ok (.challenge c)) :
    exec host.handle (generateChallenge host wallet) s =
      (.ok c, host.serve s (.generateChallenge wallet)) := by
  rw [outcome, exec_generate] at h
  rw [serve, exec_generate]
  cases hexec : exec host.handle (generateChallenge host wallet) s with
  | mk result s₁ =>
      rw [hexec] at h
      cases result with
      | ok c' =>
          cases h
          rfl
      | error e => cases h

/-- The tokens of a session are those of the wallet. -/
theorem exchangeToken_wallet {signed : Option Envelope} {id : String} {tokens : Session}
    (h : exec host.handle (exchangeToken host wallet signed id) s = (.ok tokens, s')) :
    tokens.accessToken.wallet = wallet ∧ tokens.refreshToken.wallet = wallet := by
  simp only [exchangeToken_eq, redeemExchange, issueTokens, exec_bind_eq_ok, exec_sign, pure_eq,
    exec_ret] at h
  obtain ⟨_, _, -, _, _, -, _, _, -, user, _, -, _, _, ⟨rfl, rfl⟩, _, _, ⟨rfl, rfl⟩, hret⟩ := h
  cases hret
  exact ⟨rfl, rfl⟩

/-- What `generateChallenge` has stored when it returns. -/
theorem generateChallenge_ok (hknown : host.Known s)
    (h : exec host.handle (generateChallenge host wallet) s = (.ok c, s')) :
    ∃ server row n, getServerKeypair host = .ret server ∧
      host.isValidEd25519PublicKey wallet = true ∧
      c.transaction = host.challengeTx s.served server wallet ∧ s.served ≤ n ∧
      Stored host wallet (host.time n) c row ∧ host.Pending row s' := by
  rw [generateChallenge_eq, exec_bind_eq_ok] at h
  obtain ⟨⟨tx, now⟩, u, hprepare, hstore⟩ := h
  have hprepared : host.Known u := by
    have hexec := exec_known (prepareChallenge host wallet) hknown
    rwa [hprepare] at hexec
  obtain ⟨⟨server, hserver, hvalid, rfl⟩, ⟨n, hn, rfl⟩, -⟩ := exec_prepareChallenge hprepare
  rcases exec_storeChallenge wallet (host.challengeTx s.served server wallet, host.time n) u with
    ⟨c', row, hexec, hrow, hfresh, htx⟩ | ⟨e, hexec⟩
  · rw [hexec] at hstore
    cases hstore
    have hid : row.id = host.cuid u.served := hrow.id.trans hfresh
    refine ⟨server, row, n, hserver, hvalid, htx, hn, hrow, ⟨u.served, Nat.lt_succ_self _, hid⟩,
      hrow.unused, List.mem_append_right _ (List.mem_singleton_self _), fun row' hrow' hsame => ?_⟩
    rcases List.mem_append.mp hrow' with hold | hadded
    · obtain ⟨m, hm, hrid⟩ := hprepared row' hold
      have hmu : m = u.served := host.cuid_injective (hrid.symm.trans (hsame.trans hid))
      omega
    · exact List.mem_singleton.mp hadded
  · rw [hexec] at hstore
    cases hstore

/-- `WebAuth` reads the signed copy of a challenge until the challenge expires. -/
theorem readChallengeTx_sign {server : String} {m now : ℕ}
    (htx : c.transaction = host.challengeTx m server wallet)
    (hlow : host.time (m + 1) ≤ now)
    (hhigh : now ≤ host.time (m + 1) + getChallengeTimeoutSeconds host * 1000) :
    WebAuth.readChallengeTx now (c.sign wallet) server (getNetworkPassphrase host)
      (getHomeDomain host) (getHomeDomain host) = some wallet := by
  have hpos := getChallengeTimeoutSeconds_pos host
  simp only [WebAuth.readChallengeTx, Challenge.sign, htx, challengeTx, WebAuth.buildChallengeTx]
  rw [if_pos]
  refine ⟨trivial, List.mem_cons_self, trivial, trivial, trivial, ?_, ?_, ?_⟩
  · omega
  · have hmin : host.time (m + 1) / 1000 ≤ now / 1000 := Nat.div_le_div_right hlow
    omega
  · omega

/-- The signed copy of a challenge verifies until the challenge expires. -/
theorem verifies_sign (hclock : Monotone host.time) {server : String} {m n : ℕ}
    (hserver : getServerKeypair host = .ret server)
    (htx : c.transaction = host.challengeTx m server wallet) (hne : server ≠ wallet)
    (hmn : m + 1 ≤ n)
    (htime : host.time (n + 2) ≤ host.time (m + 1) + getChallengeTimeoutSeconds host * 1000) :
    host.Verifies n wallet (c.sign wallet) := by
  have hread : ∀ k, m + 1 ≤ k → k ≤ n + 2 → WebAuth.readChallengeTx (host.time k) (c.sign wallet)
      server (getNetworkPassphrase host) (getHomeDomain host) (getHomeDomain host) =
        some wallet := fun k hlow hhigh =>
    readChallengeTx_sign htx (hclock hlow) ((hclock hhigh).trans htime)
  refine ⟨server, hserver, ⟨[wallet], ?_, List.mem_singleton_self _⟩,
    hread (n + 1) (by omega) (by omega), ?_⟩
  · have hclient : ([wallet].filter fun signer => signer ≠ server).dedup = [wallet] := by
      simp [hne.symm]
    have hfound : [wallet].filter (fun signer => signer ∈ (c.sign wallet).signers) = [wallet] := by
      simp [Challenge.sign]
    simp only [WebAuth.verifyChallengeTxSigners, hclient, hfound, hread n hmn (by omega)]
    -- the signatures are those of the server and of the wallet
    rw [if_pos]
    exact ⟨rfl, List.cons_ne_nil _ _, rfl⟩
  · simp only [Challenge.sign, htx, challengeTx, WebAuth.buildChallengeTx]
    omega

/-- **A challenge is good until it expires.**  A wallet asks for a challenge, signs it and comes
back before it has expired.  Whatever calls are served before and in between, if none of them
presents a transaction that the wallet has signed under the id of the challenge, it gets its
session. -/
theorem login_of_challenge (hclock : Monotone host.time) (before between : List AuthCall)
    {s₀ : AuthState} (hbefore : s₀ = run host.serve AuthState.initial before)
    (hissue : host.outcome s₀ (.generateChallenge wallet) = .ok (.challenge c))
    (hbetween : s = run host.serve (host.serve s₀ (.generateChallenge wallet)) between)
    (hunsigned : ∀ call ∈ between, call.Unsigned wallet c.challengeId)
    (hserver : c.transaction.serverAccountID ≠ wallet)
    (htime : host.time (s.served + 4) ≤ host.time s₀.served + c.expiresIn * 1000)
    (hup : host.Connected s wallet) :
    ∃ tokens, host.outcome s (.exchangeToken wallet (some (c.sign wallet)) c.challengeId) =
        .ok (.session tokens) ∧
      tokens.accessToken.wallet = wallet ∧ tokens.refreshToken.wallet = wallet := by
  have hexec := exec_of_issue hissue
  have hknown : host.Known s₀ := by
    rw [hbefore]
    exact known_run before
  obtain ⟨server, row, n, hkey, hvalid, htx, hn, hrow, hpending⟩ :=
    generateChallenge_ok hknown hexec
  have hserved : s₀.served ≤ s.served := by
    rw [hbetween]
    exact served_le.trans (run_served_le host _ between)
  have hexpiry : host.time (s.served + 4) ≤ row.expiresAt := by
    rw [hrow.expiresAt]
    exact htime.trans (Nat.add_le_add_right (hclock hn) _)
  have hstill : host.Pending row s := by
    rw [hbetween]
    refine run_pending hclock hpending ?_ ?_
    · rw [hrow.wallet_eq, hrow.id]
      exact hunsigned
    · rw [← hbetween]
      exact (hclock (Nat.le_add_right _ 4)).trans hexpiry
  have hfind : s.findChallenge c.challengeId = some row := by
    rw [← hrow.id]
    exact hstill.find
  have hverifies : host.Verifies (s.served + 2) wallet (c.sign wallet) := by
    refine verifies_sign hclock hkey htx ?_ (by omega) ?_
    · rw [htx] at hserver
      exact hserver
    · rw [← hrow.expiresIn]
      exact htime.trans (Nat.add_le_add_right (hclock (Nat.le_succ _)) _)
  have hlive : host.Live s wallet row := by
    refine ⟨hrow.wallet_eq, hrow.unused, not_lt.mpr ?_⟩
    exact (hclock (by omega)).trans hexpiry
  obtain ⟨tokens, s₂, hlogin⟩ := exchangeToken_returns hfind ⟨hvalid, hlive, hverifies, hup⟩
  refine ⟨tokens, ?_, exchangeToken_wallet hlogin⟩
  rw [outcome, exec_exchange, hlogin]
  rfl

end Issued

/-! ## A challenge in the hands of others -/

/-- Another challenge, and an attempt to use this one that only the server has signed. -/
def meddling : List AuthCall :=
  [.generateChallenge sampleWallet,
    .exchangeToken sampleWallet (some { signedSample with signers := ["SERVER"] })
      (sample.cuid 5)]

/-- The challenge that the sample wallet asks for first. -/
def sampleChallenge : Challenge where
  challengeId := sample.cuid 5
  transaction := signedSample.transaction
  network := "testnet"
  homeDomain := getHomeDomain sample
  expiresIn := getChallengeTimeoutSeconds sample

/-- The wallet of the example logs in although others meddle. -/
theorem login_of_challenge_meddling : ∃ tokens,
    sample.outcome
        (run sample.serve (sample.serve AuthState.initial (.generateChallenge sampleWallet))
          meddling)
        (.exchangeToken sampleWallet (some (sampleChallenge.sign sampleWallet))
          sampleChallenge.challengeId) = .ok (.session tokens) ∧
      tokens.accessToken.wallet = sampleWallet ∧ tokens.refreshToken.wallet = sampleWallet := by
  have hclock : Monotone sample.time := fun _ _ h => Nat.add_le_add_left h _
  refine login_of_challenge hclock [] meddling rfl (by decide +kernel) rfl ?_ (by decide)
    (by decide +kernel) ⟨rfl, rfl, rfl, fun _ => rfl⟩
  rintro call hcall sender e rfl
  rcases List.mem_cons.mp hcall with hcall | hcall
  · cases hcall
  · cases List.mem_singleton.mp hcall
    decide

end AuthHost

end CarbonVeritas
