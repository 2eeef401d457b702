/-
# The lifetime of a session

`exchangeToken` and `refreshToken` sign an access token for 24 hours and a refresh token for
seven days, with one secret.  `refreshToken` checks the `type` of the token that it is given;
`JwtStrategy.validate` does not, so a refresh token is a bearer token for seven days.

After any run of calls that take turns (`Issued`), every token that was signed is of the kind it
was issued as and expires with its kind.  From this, `session_lifetime` : a refresh is only
granted for a refresh token of the last seven days, and a bearer token meets the limit of 24 hours
exactly if it is no refresh token that is still accepted.
-/
import CarbonVeritas.ChallengeRace

namespace CarbonVeritas

open Transition AuthService
open Program

namespace AuthHost

variable (host : AuthHost)

/-! ## What is signed -/

/-- The query signs nothing, or a token of the kind that it is issued as. -/
def SignsKind : AuthQuery → Prop
  | .sign use payload expiresIn => payload.type = use.type ∧ expiresIn = use.lifetime
  | _ => True

/-- A token that was signed is of the kind that it was issued as. -/
def Issued (s : AuthState) : Prop :=
  ∀ issue ∈ s.issued, issue.token.type = issue.use.type ∧
    issue.token.exp = issue.time / 1000 + issue.use.lifetime

section Signing

variable {host} {s : AuthState}

theorem handle_issued {q : AuthQuery} (hq : SignsKind q) (h : Issued s) :
    Issued (host.handle q s).2 := by
  have hanswer : Issued (host.answer s q).2 := by
    cases q with
    | sign use payload expiresIn =>
        intro issue hissue
        rcases List.mem_append.mp hissue with hissue | hissue
        · exact h issue hissue
        · rw [List.mem_singleton.mp hissue]
          obtain ⟨htype, hexp⟩ := hq
          refine ⟨htype, ?_⟩
          show host.time s.served / 1000 + expiresIn = _
          rw [hexp]
    | createChallenge wallet transaction expiresAt =>
        simp only [answer]
        split_ifs <;> exact h
    | markUsed id usedAt =>
        simp only [answer]
        split_ifs <;> exact h
    | createUser stellarPub =>
        simp only [answer]
        split_ifs <;> exact h
    | _ => exact h
  unfold handle
  split_ifs
  · exact h
  · exact hanswer

theorem signsKind_of_ordinary {q : AuthQuery} (h : q.Ordinary) : SignsKind q := by
  cases q <;> first | exact h | trivial

theorem signs_program (call : AuthCall) : (call.program host).Uses SignsKind := by
  cases call with
  | generateChallenge wallet =>
      refine .bind ?_ fun _ => trivial
      rw [generateChallenge_eq]
      exact .bind ((uses_prepareChallenge wallet).mono fun q => signsKind_of_ordinary) fun _ =>
        .bind (uses_query trivial) fun _ => trivial
  | exchangeToken wallet signed id =>
      exact (uses_program (by simp)).mono fun q => signsKind_of_ordinary
  | refreshToken token => exact (uses_program (by simp)).mono fun q => signsKind_of_ordinary
  | request token => exact (uses_program (by simp)).mono fun q => signsKind_of_ordinary

/-- After any run of calls that take turns, tokens are of the kind that they were issued as. -/
theorem issued_run {ι : Type} [DecidableEq ι] (calls : ι → AuthCall) (turns : List ι) :
    Issued (run (Pool.next host.handle) (host.begin calls) turns).state := by
  refine Pool.run_state (fun q s => handle_issued) (fun i => signs_program (calls i)) ?_ turns
  intro issue hissue
  cases hissue

end Signing

/-! ## What is accepted -/

/-- The token was issued as such a token, at most a lifetime before `now`. -/
def IssuedAs (s : AuthState) (use : TokenUse) (token : Token) (now : ℕ) : Prop :=
  ∃ issue ∈ s.issued, issue.use = use ∧ issue.token = token ∧
    now ≤ issue.time + use.lifetime * 1000

/-- A refresh token of a known user that is still accepted. -/
structure LiveRefresh (s : AuthState) (token : Token) : Prop where
  type : token.type = some "refresh"
  accepted : Accepts s (host.time s.served) token
  user : (s.findUserById token.sub).isSome
  connected : host.outage (s.served + 1) = false

section Acceptance

variable {host} {s : AuthState} {token : Token}

/-- A token that the library accepts was issued as a token of its type, and in time. -/
theorem issuedAs_of_accepts {now : ℕ} (hs : Issued s) (h : Accepts s now token) :
    ∃ use : TokenUse, token.type = use.type ∧ IssuedAs s use token now := by
  obtain ⟨⟨issue, hissue, rfl⟩, hexp⟩ := h
  obtain ⟨htype, hlife⟩ := hs issue hissue
  refine ⟨issue.use, htype, issue, hissue, rfl, rfl, ?_⟩
  rw [hlife] at hexp
  omega

theorem exec_verify {payload : Option JwtPayload} {s' : AuthState} :
    exec host.handle (jwtService.verify token) s = (.ok payload, s') ↔
      payload = (if Accepts s (host.time s.served) token then some token.toJwtPayload else none) ∧
        s' = s.tick 1 :=
  exec_local rfl rfl

theorem exec_findUserById {id : String} {user : Option UserRow} {s' : AuthState} :
    exec host.handle (prisma.user.findById id) s = (.ok user, s') ↔
      host.outage s.served = false ∧ user = s.findUserById id ∧ s' = s.tick 1 :=
  exec_database rfl rfl

/-- The strategy asks for a token that the library accepts and for its user, and for no type. -/
theorem authenticate_returns_iff :
    (∃ user s', exec host.handle (JwtStrategy.authenticate token) s = (.ok user, s')) ↔
      Accepts s (host.time s.served) token ∧ (s.findUserById token.sub).isSome ∧
        host.outage (s.served + 1) = false := by
  simp only [JwtStrategy.authenticate, JwtStrategy.validate, exec_bind_eq_ok, exec_verify,
    exec_orThrow_eq_ok, exec_findUserById, pure_eq, exec_ret]
  constructor
  · rintro ⟨user, s', _, _, ⟨rfl, rfl⟩, payload, _, ⟨hpayload, rfl⟩, _, _, ⟨hup, rfl, rfl⟩, row, _,
      ⟨hrow, rfl⟩, -⟩
    split_ifs at hpayload with haccepts
    cases hpayload
    exact ⟨haccepts, Option.isSome_iff_exists.mpr ⟨row, hrow⟩, hup⟩
  · rintro ⟨haccepts, huser, hup⟩
    obtain ⟨row, hrow⟩ := Option.isSome_iff_exists.mp huser
    exact ⟨_, _, _, _, ⟨rfl, rfl⟩, token.toJwtPayload, _, ⟨if_pos haccepts, rfl⟩, _, _,
      ⟨hup, rfl, rfl⟩, row, _, ⟨hrow, rfl⟩, rfl⟩

/-- A refresh is granted only for an accepted token of the type `refresh`. -/
theorem refreshToken_ok {tokens : Session} {s' : AuthState}
    (h : exec host.handle (refreshToken token) s = (.ok tokens, s')) :
    Accepts s (host.time s.served) token ∧ token.type = some "refresh" := by
  simp only [refreshToken, exec_bind_eq_ok, exec_verify, exec_orThrow_eq_ok,
    exec_throwIf_eq_ok] at h
  obtain ⟨_, _, ⟨rfl, rfl⟩, decoded, _, ⟨hdecoded, rfl⟩, _, _, ⟨htype, rfl⟩, -⟩ := h
  split_ifs at hdecoded with haccepts
  cases hdecoded
  exact ⟨haccepts, not_not.mp htype⟩

end Acceptance

/-! ## The lifetime -/

section Lifetime

variable {ι : Type} [DecidableEq ι]

/-- **Session lifetime.**  After any run of calls that take turns, a token that is accepted as the
bearer token of a request was issued as an access token in the last 24 hours exactly if it is no
refresh token that is still accepted; and a refresh is granted only for a token that was issued
as a refresh token in the last seven days. -/
theorem session_lifetime (host : AuthHost) (calls : ι → AuthCall) (turns : List ι)
    (token : Token) :
    let s := (run (Pool.next host.handle) (host.begin calls) turns).state
    ((∀ user s', exec host.handle (JwtStrategy.authenticate token) s = (.ok user, s') →
        IssuedAs s .accessToken token (host.time s.served)) ↔ ¬ host.LiveRefresh s token) ∧
      ∀ tokens s', exec host.handle (refreshToken token) s = (.ok tokens, s') →
        IssuedAs s .refreshToken token (host.time s.served) := by
  intro s
  have hs : Issued s := issued_run calls turns
  refine ⟨⟨fun h hlive => ?_, fun h user s' hexec => ?_⟩, fun tokens s' hexec => ?_⟩
  · obtain ⟨user, s', hexec⟩ := authenticate_returns_iff.mpr
      ⟨hlive.accepted, hlive.user, hlive.connected⟩
    obtain ⟨issue, hissue, huse, htoken, -⟩ := h user s' hexec
    have htype := (hs issue hissue).1
    rw [huse, htoken, hlive.type] at htype
    cases htype
  · obtain ⟨haccepts, huser, hup⟩ := authenticate_returns_iff.mp ⟨user, s', hexec⟩
    obtain ⟨use, htype, hissued⟩ := issuedAs_of_accepts hs haccepts
    cases use with
    | accessToken => exact hissued
    | refreshToken => exact absurd ⟨htype, haccepts, huser, hup⟩ h
  · obtain ⟨haccepts, hrefresh⟩ := refreshToken_ok hexec
    obtain ⟨use, htype, hissued⟩ := issuedAs_of_accepts hs haccepts
    cases use with
    | refreshToken => exact hissued
    | accessToken =>
        rw [hrefresh] at htype
        cases htype

end Lifetime

/-! ## A refresh token as a bearer token -/

/-- The clock is put forward by three days after the login. -/
def sampleLater : AuthHost :=
  { sample with time := fun n => if n < 17 then 1750000000000 else 1750259200000 }

def loginCalls : Fin 2 → AuthCall
  | 0 => .generateChallenge sampleWallet
  | _ => .exchangeToken sampleWallet (some signedSample) (sample.cuid 5)

def loginTurns : List (Fin 2) := List.replicate 6 0 ++ List.replicate 11 1

/-- The refresh token of the login. -/
def sampleRefresh : Token where
  sub := sample.cuid 14
  wallet := sampleWallet
  type := some "refresh"
  iat := 1750000000
  exp := 1750000000 + 7 * 24 * 3600

theorem not_session_lifetime : ¬ ∀ (host : AuthHost) (calls : Fin 2 → AuthCall)
    (turns : List (Fin 2)) (token : Token),
    let s := (run (Pool.next host.handle) (host.begin calls) turns).state
    ∀ user s', exec host.handle (JwtStrategy.authenticate token) s = (.ok user, s') →
      IssuedAs s .accessToken token (host.time s.served) := by
  intro h
  obtain ⟨user, s', hexec⟩ : ∃ user s', exec sampleLater.handle
      (JwtStrategy.authenticate sampleRefresh)
      (run (Pool.next sampleLater.handle) (sampleLater.begin loginCalls) loginTurns).state =
        (.ok user, s') :=
    authenticate_returns_iff.mpr (by decide +kernel)
  obtain ⟨issue, hissue, huse, htoken, -⟩ :=
    h sampleLater loginCalls loginTurns sampleRefresh user s' hexec
  have hnone : ∀ issue ∈ (run (Pool.next sampleLater.handle) (sampleLater.begin loginCalls)
      loginTurns).state.issued, issue.use = .accessToken → issue.token ≠ sampleRefresh := by
    decide +kernel
  exact hnone issue hissue huse htoken

end AuthHost

end CarbonVeritas
