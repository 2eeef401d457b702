/-
# Votes in the database and on chain

`approveCredit` and `rejectCredit` count in the database the votes that the registry counts.
The API takes the token of a minted credit from the first item of an array, which no token that
the registry returns is, so it never mints; and it waits for `q` rejections, where the registry
rejects with `q - t + 1`.

* `serve_cases` : a request fails without effect, or is one vote on both sides;
* `mirrored_iff` : hence the database keeps the status of the registry exactly in the runs in
  which no vote decides the credit on chain alone.
-/
import CarbonVeritas.CreditsService
import CarbonVeritas.StellarService
import CarbonVeritas.VoteOutcome

namespace CarbonVeritas

namespace CreditsService

open ApiService Transition
open CreditRegistry (MayVote ConfigHas Vote)
open Program (exec)

/-! ## Requests -/

inductive VoteRequest where
  | approve (user : String) (creditId : JsNumber) (comments : Option String)
  | reject (user : String) (creditId : JsNumber) (reason : String)

namespace VoteRequest

def user : VoteRequest → String
  | approve user _ _ => user
  | reject user _ _ => user

def creditId : VoteRequest → JsNumber
  | approve _ creditId _ => creditId
  | reject _ creditId _ => creditId

def approved : VoteRequest → Bool
  | approve _ _ _ => true
  | reject _ _ _ => false

/-- The text that the registry stores. -/
def comments : VoteRequest → SorobanString
  | approve _ _ comments => ApiScVal.utf8 (comments.getD "")
  | reject _ _ reason => ApiScVal.utf8 reason

end VoteRequest

def serve {σ : Type} (api : ApiHost σ) (s : BackendState σ) : VoteRequest → BackendState σ
  | .approve user creditId comments =>
      (exec api.handle (approveCredit api.toApiConfig user user creditId comments) s).2
  | .reject user creditId reason =>
      (exec api.handle (rejectCredit api.toApiConfig user user creditId reason) s).2

/-! ## The side of the database -/

/-- The database lets the user vote like this on the credit. -/
structure PassesChecks (db : ApiDb) (user : String) (id : ℤ) (approved : Bool) : Prop where
  verifier : ∃ row ∈ db.verifiers.find? fun row => row.user = user, row.status = .active
  pending : ∃ row, db.credits id = some row ∧ row.status = .pending
  first : ∀ a ∈ db.approvals, a.creditId = id → ¬ (a.verifier = user ∧ a.approved = approved)

section Database

variable {σ : Type} {api : ApiHost σ} {s : BackendState σ} {id : ℤ}

/-- A vote passes when the database lets the user vote on the credit. -/
theorem exec_checkVote_eq_ok {user message : String} {creditId : JsNumber} {approved : Bool}
    {u : BackendState σ} :
    exec api.handle (checkVote user creditId approved message) s = (.ok id, u) ↔
      Mirror.intColumn creditId = some id ∧ PassesChecks s.db user id approved ∧
        u = { s with served := s.served + 2 } := by
  simp only [checkVote, requireVerifier, Program.exec_bind_eq_ok, exec_verifier_findFirst,
    exec_credit_findWithApprovals, Program.exec_orThrow_eq_ok, Program.exec_throwIf_eq_ok,
    Program.pure_eq, Program.exec_ret, Prod.mk.injEq, Except.ok.injEq, not_not]
  constructor
  · rintro ⟨_, _, ⟨_, _, ⟨rfl, rfl⟩, hactive, rfl⟩, _, _, ⟨hfound, rfl⟩, ⟨k, row, approvals⟩, _,
      ⟨rfl, rfl⟩, _, _, ⟨hpending, rfl⟩, _, _, ⟨hfirst, rfl⟩, rfl, rfl⟩
    obtain ⟨hcolumn, hcredit⟩ := lookup_eq_ok_some.mp hfound
    obtain ⟨hrow, rfl⟩ := creditApprovals_eq_some.mp hcredit
    refine ⟨hcolumn, ⟨hactive, ⟨row, hrow, hpending⟩, fun a ha hid hvoted => hfirst ?_⟩, rfl⟩
    exact List.any_eq_true.mpr
      ⟨a, List.mem_filter.mpr ⟨ha, decide_eq_true hid⟩, decide_eq_true hvoted⟩
  · rintro ⟨hcolumn, ⟨hactive, ⟨row, hrow, hpending⟩, hfirst⟩, rfl⟩
    refine ⟨(), s.tick, ⟨_, _, ⟨rfl, rfl⟩, hactive, rfl⟩, _, _,
      ⟨lookup_eq_ok_some.mpr ⟨hcolumn, creditApprovals_eq_some.mpr ⟨hrow, rfl⟩⟩, rfl⟩,
      ⟨id, row, _⟩, _, ⟨rfl, rfl⟩, (), _, ⟨hpending, rfl⟩, (), _, ⟨fun hany => ?_, rfl⟩, rfl, rfl⟩
    obtain ⟨a, ha, hvoted⟩ := List.any_eq_true.mp hany
    obtain ⟨ha, hid⟩ := List.mem_filter.mp ha
    exact hfirst a ha (of_decide_eq_true hid) (of_decide_eq_true hvoted)

/-- The checks only read. -/
theorem uses_checkVote (user message : String) (creditId : JsNumber) (approved : Bool) :
    (checkVote user creditId approved message).Uses fun q => q.reads = true := by
  refine Program.Uses.bind ?_ fun _ => ?_
  · exact (Program.uses_query (by rfl)).bind fun _ => Program.uses_throwIf _ _
  · refine (Program.uses_query (by rfl)).bind fun found => ?_
    refine (Program.uses_orThrow _ _).bind fun p => ?_
    refine (Program.uses_throwIf _ _).bind fun _ => ?_
    exact (Program.uses_throwIf _ _).bind fun _ => trivial

/-- The API decides the credit with this vote: never with an approval, and with a rejection that
is stored and has `q - 1` before it. -/
def DecidesInDatabase (config : ApiConfig) (q : ℕ) (db : ApiDb) (id : ℤ) : VoteRequest → Prop
  | .approve _ _ _ => False
  | .reject user _ reason =>
      (rejectionRow config user id reason).isSome = true ∧ q ≤ countVotes db id false + 1

/-- What the API has recorded of a vote on the credit `id`. -/
structure Recorded (config : ApiConfig) (q : ℕ) (id : ℤ) (req : VoteRequest) (db db' : ApiDb) :
    Prop where
  credits : (DecidesInDatabase config q db id req ∧ ∃ row, db.credits id = some row ∧
      db'.credits = Function.update db.credits id (some { row with status := .rejected })) ∨
    (¬ DecidesInDatabase config q db id req ∧ db'.credits = db.credits)
  approvals : ∃ rows : List ApprovalRow, rows.length ≤ 1 ∧
    (∀ a ∈ rows, a.creditId = id ∧ a.approved = req.approved) ∧
    db'.approvals = db.approvals ++ rows

/-- An approval that has minted nothing. -/
theorem exec_recordApproval (api : ApiHost σ) (s : BackendState σ) (id : ℤ) (user : String)
    (comments : Option String) (creditId : JsNumber) (q : ℕ) :
    (exec api.handle (recordApproval api.toApiConfig user id comments none) s).2.chain = s.chain ∧
      Recorded api.toApiConfig q id (.approve user creditId comments) s.db
        (exec api.handle (recordApproval api.toApiConfig user id comments none) s).2.db := by
  cases hrow : approvalRow api.toApiConfig user id comments with
  | none =>
      have hexec : exec api.handle (recordApproval api.toApiConfig user id comments none) s =
          (.error (.database .invalidValue), s.tick) := by
        unfold recordApproval
        rw [hrow]
        exact Program.exec_bind_of_error (exec_approval_create none)
      rw [hexec]
      exact ⟨rfl, Or.inr ⟨not_false, rfl⟩, [], Nat.zero_le 1, nofun, (List.append_nil _).symm⟩
  | some row =>
      have hexec : exec api.handle (recordApproval api.toApiConfig user id comments none) s =
          (.ok (), (s.store (s.db.insertApproval row)).tick) := by
        unfold recordApproval
        rw [hrow]
        exact (Program.exec_bind_of_ok (exec_approval_create (some row))).trans
          (Program.exec_bind_of_ok (exec_approval_count id true))
      rw [hexec]
      refine ⟨rfl, Or.inr ⟨not_false, rfl⟩, [row], le_rfl, fun a ha => ?_, rfl⟩
      obtain rfl := List.mem_singleton.mp ha
      obtain ⟨_, -, rfl⟩ := Option.map_eq_some_iff.mp hrow
      exact ⟨rfl, rfl⟩

/-- A rejection of a stored credit. -/
theorem exec_recordRejection (api : ApiHost σ) (s : BackendState σ) (user reason : String)
    (creditId : JsNumber) {q : ℕ}
    (hquorum : quorum api.toApiConfig = .finite q) {credit : CreditRow}
    (hcredit : s.db.credits id = some credit) :
    (exec api.handle (recordRejection api.toApiConfig user id reason) s).2.chain = s.chain ∧
      Recorded api.toApiConfig q id (.reject user creditId reason) s.db
        (exec api.handle (recordRejection api.toApiConfig user id reason) s).2.db := by
  cases hrow : rejectionRow api.toApiConfig user id reason with
  | none =>
      have hexec : exec api.handle (recordRejection api.toApiConfig user id reason) s =
          (.error (.database .invalidValue), s.tick) := by
        unfold recordRejection
        rw [hrow]
        exact Program.exec_bind_of_error (exec_approval_create none)
      rw [hexec]
      refine ⟨rfl, Or.inr ⟨?_, rfl⟩, [], Nat.zero_le 1, nofun, (List.append_nil _).symm⟩
      rintro ⟨hstored, -⟩
      rw [hrow] at hstored
      cases hstored
  | some row =>
      have hstored : (rejectionRow api.toApiConfig user id reason).isSome = true := by
        rw [hrow]
        rfl
      obtain ⟨hid, hverdict⟩ : row.creditId = id ∧ row.approved = false := by
        obtain ⟨_, -, rfl⟩ := Option.map_eq_some_iff.mp hrow
        exact ⟨rfl, rfl⟩
      have hcount : countVotes (s.db.insertApproval row) id false =
          countVotes s.db id false + 1 := by
        refine List.countP_append.trans (congrArg (countVotes s.db id false + ·) ?_)
        exact List.countP_singleton.trans (if_pos (decide_eq_true ⟨hid, hverdict⟩))
      have happrovals : ∃ rows : List ApprovalRow, rows.length ≤ 1 ∧
          (∀ a ∈ rows, a.creditId = id ∧ a.approved = false) ∧
          (s.db.insertApproval row).approvals = s.db.approvals ++ rows := by
        refine ⟨[row], le_rfl, fun a ha => ?_, rfl⟩
        obtain rfl := List.mem_singleton.mp ha
        exact ⟨hid, hverdict⟩
      -- the two queries before the comparison with the quorum
      have hexec : exec api.handle (recordRejection api.toApiConfig user id reason) s =
          exec api.handle
            (if (JsNumber.finite ((countVotes s.db id false + 1 : ℕ) : ℚ)).ge
                (quorum api.toApiConfig) then
              prisma.credit.update id (some { status := some .rejected })
            else .ret ()) (s.store (s.db.insertApproval row)).tick := by
        unfold recordRejection
        rw [hrow, ← hcount]
        exact (Program.exec_bind_of_ok (exec_approval_create (some row))).trans
          (Program.exec_bind_of_ok (exec_approval_count id false))
      rw [hexec, hquorum, JsNumber.ge_finite]
      by_cases hreached : q ≤ countVotes s.db id false + 1
      · have hfound : (s.store (s.db.insertApproval row)).tick.db.credits id = some credit :=
          hcredit
        rw [if_pos (decide_eq_true (Nat.cast_le.mpr hreached)), exec_credit_update_some hfound]
        exact ⟨rfl, Or.inl ⟨⟨hstored, hreached⟩, credit, hcredit, rfl⟩, happrovals⟩
      · rw [if_neg fun hle => hreached (Nat.cast_le.mp (of_decide_eq_true hle))]
        exact ⟨rfl, Or.inr ⟨fun hdecides => hreached hdecides.2, rfl⟩, happrovals⟩

end Database

/-! ## The side of the registry -/

variable {T : Type} {host : StellarHost T} {config : ApiConfig} {s : BackendState (World T)}

/-- The vote of a request, in a transaction sent by the query `n`. -/
def VoteRequest.vote (host : StellarHost T) (n : ℕ) (verifier : Address) (req : VoteRequest) :
    Vote :=
  ⟨host.env host.verifier n, verifier, req.approved, req.comments⟩

/-- The deployment takes the vote, and is `w'` after it. -/
def VotesOnChain (host : StellarHost T) (n : ℕ) (w : World T) (req : VoteRequest)
    (w' : World T) : Prop :=
  ∃ verifier id registry, host.ch.isRegistry host.registry = true ∧
    host.address req.user = .ok verifier ∧ host.u64 (.number req.creditId) = .ok id ∧
    CreditRegistry.exec host.ch.sha256 (host.env host.verifier n) (w.registry host.registry)
      ((req.vote host n verifier).call id) = .ok registry ∧
    w' = { w with ledger := w.ledger.writeRegistry host.registry registry }

/-- A returned token is a buffer or null, and no array. -/
theorem mintedToken_nativeToken (token : Option Bytes32) :
    host.mintedToken (host.nativeToken token) = none := by
  cases token <;> rfl

/-- The contract accepts an approval when the vote can be cast on chain, and its token is not
decoded. -/
theorem answer_approve_eq_ok {user : String} {creditId : JsNumber} {comments : Option String}
    {n : ℕ} {w w' : World T} {token : Option String} :
    host.answer (.approveAndMint user creditId (comments.getD "")) n w = (.ok token, w') ↔
      token = none ∧ VotesOnChain host n w (.approve user creditId comments) w' := by
  refine StellarHost.invoke_eq_ok.trans ?_
  simp only [StellarHost.args_bind_eq_ok, StellarHost.args_pure_eq_ok, map_eq_ok, Prod.exists,
    StellarHost.onRegistry_eq_ok]
  constructor
  · rintro ⟨verifier, hverifier, id, hid, minted, _, ⟨hr, registry, hvote, rfl⟩, heq⟩
    obtain ⟨rfl, rfl⟩ := Prod.mk.inj heq
    exact ⟨mintedToken_nativeToken minted, verifier, id, registry, hr, hverifier, hid,
      map_eq_ok.mpr ⟨_, hvote, rfl⟩, rfl⟩
  · rintro ⟨rfl, verifier, id, registry, hr, hverifier, hid, hvote, rfl⟩
    obtain ⟨⟨minted, _⟩, hminted, rfl⟩ := map_eq_ok.mp hvote
    exact ⟨verifier, hverifier, id, hid, minted, _, ⟨hr, _, hminted, rfl⟩,
      Prod.ext (mintedToken_nativeToken minted) rfl⟩

/-- The contract accepts a rejection when the vote can be cast on chain. -/
theorem answer_reject_eq_ok {user : String} {creditId : JsNumber} {reason : String} {n : ℕ}
    {w w' : World T} :
    (∃ rejected : Bool, host.answer (.rejectCredit user creditId reason) n w =
        (.ok rejected, w')) ↔
      VotesOnChain host n w (.reject user creditId reason) w' := by
  refine (exists_congr fun rejected => StellarHost.invoke_eq_ok).trans ?_
  simp only [StellarHost.args_bind_eq_ok, StellarHost.args_pure_eq_ok]
  constructor
  · rintro ⟨rejected, verifier, hverifier, id, hid, hcall⟩
    obtain ⟨hr, registry, hvote, rfl⟩ := StellarHost.onRegistry_eq_ok.mp hcall
    exact ⟨verifier, id, registry, hr, hverifier, hid, map_eq_ok.mpr ⟨_, hvote, rfl⟩, rfl⟩
  · rintro ⟨verifier, id, registry, hr, hverifier, hid, hvote, rfl⟩
    obtain ⟨⟨rejected, _⟩, hrejected, rfl⟩ := map_eq_ok.mp hvote
    exact ⟨rejected, verifier, hverifier, id, hid,
      StellarHost.onRegistry_eq_ok.mpr ⟨hr, _, hrejected, rfl⟩⟩

/-! ## One request -/

/-- The form of the two requests: checks, a call, and a record of what it returns. -/
def request (user : String) (creditId : JsNumber) (approved : Bool) (message : String)
    (call : StellarCall) (record : ℤ → call.Reply → ApiProgram Unit) :
    ApiProgram (Option (ℤ × CreditRow × List ApprovalRow)) := do
  let id ← checkVote user creditId approved message
  let r ← (.query (.stellar call) .ret : ApiProgram call.Reply)
  record id r
  prisma.credit.findWithApprovals creditId

section Request

variable {user message : String} {creditId : JsNumber} {approved : Bool} {call : StellarCall}

/-- A request whose call is made and returns `r`, with the deployment `w'` after it. -/
def Calls (host : StellarHost T) (s : BackendState (World T)) (user : String)
    (creditId : JsNumber) (approved : Bool) (call : StellarCall) (id : ℤ) (r : call.Reply)
    (w' : World T) : Prop :=
  Mirror.intColumn creditId = some id ∧ PassesChecks s.db user id approved ∧
    host.answer call (s.served + 2) s.chain = (.ok r, w')

/-- A request whose call is accepted goes on to record the vote. -/
theorem exec_request_of_calls {id : ℤ} {r : call.Reply} {w' : World T}
    (h : Calls host s user creditId approved call id r w') (config : ApiConfig) (message : String)
    (record : ℤ → call.Reply → ApiProgram Unit) :
    ∃ u : BackendState (World T), u.db = s.db ∧ u.chain = w' ∧
      (exec (host.api config).handle
          (request user creditId approved message call record) s).2.db =
        (exec (host.api config).handle (record id r) u).2.db ∧
      (exec (host.api config).handle
          (request user creditId approved message call record) s).2.chain =
        (exec (host.api config).handle (record id r) u).2.chain := by
  obtain ⟨hcolumn, hchecks, hanswer⟩ := h
  let u : BackendState (World T) := { s with served := s.served + 2 }.called call w'
  have hcheck : exec (host.api config).handle (checkVote user creditId approved message) s =
      (.ok id, { s with served := s.served + 2 }) :=
    exec_checkVote_eq_ok.mpr ⟨hcolumn, hchecks, rfl⟩
  have hexec : exec (host.api config).handle
      (request user creditId approved message call record) s =
      exec (host.api config).handle
        (record id r >>= fun _ => prisma.credit.findWithApprovals creditId) u :=
    (Program.exec_bind_of_ok hcheck).trans (exec_call_ok hanswer)
  refine ⟨u, rfl, rfl, ?_⟩
  rw [hexec]
  refine Program.exec_bind_rule
    (P := fun out : Except ServiceError _ × BackendState (World T) =>
      out.2.db = (exec (host.api config).handle (record id r) u).2.db ∧
      out.2.chain = (exec (host.api config).handle (record id r) u).2.chain)
    (fun _ v hrecord => ?_) fun e v hrecord => ?_
  · rw [hrecord, exec_credit_findWithApprovals]
    exact ⟨rfl, rfl⟩
  · rw [hrecord]
    exact ⟨rfl, rfl⟩

/-- A request whose call is not accepted fails. -/
theorem fails_request (h : ∀ id r w', ¬ Calls host s user creditId approved call id r w')
    (config : ApiConfig) (message : String) (record : ℤ → call.Reply → ApiProgram Unit) :
    Fails s (exec (host.api config).handle
      (request user creditId approved message call record) s) := by
  refine fails_bind (uses_checkVote user message creditId approved) fun id u hcheck => ?_
  obtain ⟨hcolumn, hchecks, rfl⟩ := exec_checkVote_eq_ok.mp hcheck
  cases hanswer : (host.answer call (s.served + 2) s.chain).1 with
  | error e => exact fails_call hanswer
  | ok r => exact absurd ⟨hcolumn, hchecks, Prod.ext hanswer rfl⟩ (h id r _)

end Request

/-- The registry takes the vote on the credit, which the database lets the user cast. -/
def Takes (host : StellarHost T) (s : BackendState (World T)) (id : ℤ) (req : VoteRequest)
    (w' : World T) : Prop :=
  Mirror.intColumn req.creditId = some id ∧ PassesChecks s.db req.user id req.approved ∧
    VotesOnChain host (s.served + 2) s.chain req w'

/-- A request fails without effect, or is a vote on both sides. -/
theorem serve_cases (host : StellarHost T) {q : ℕ} (hquorum : quorum config = .finite q)
    (s : BackendState (World T)) (req : VoteRequest) :
    ((serve (host.api config) s req).db = s.db ∧ (serve (host.api config) s req).chain = s.chain ∧
        ∀ id w', ¬ Takes host s id req w') ∨
      ∃ id, Takes host s id req (serve (host.api config) s req).chain ∧
        Recorded config q id req s.db (serve (host.api config) s req).db := by
  cases req with
  | approve user creditId comments =>
      by_cases hcalls : ∃ id r w', Calls host s user creditId true
          (.approveAndMint user creditId (comments.getD "")) id r w'
      · obtain ⟨id, r, w', hcall⟩ := hcalls
        obtain ⟨rfl, hvotes⟩ := answer_approve_eq_ok.mp hcall.2.2
        -- the row is written after the contract has accepted the vote
        obtain ⟨u, hdb, rfl, hdb', hchain'⟩ := exec_request_of_calls hcall config
          "Already approved this credit"
          fun id txHash => recordApproval (host.api config).toApiConfig user id comments txHash
        obtain ⟨hchain, hrecorded⟩ := exec_recordApproval (host.api config) u id user comments
          creditId q
        refine Or.inr ⟨id, ⟨hcall.1, hcall.2.1, ?_⟩, ?_⟩
        · rw [← hchain, ← hchain'] at hvotes
          exact hvotes
        · rw [hdb, ← hdb'] at hrecorded
          exact hrecorded
      · have hfails := fails_request (fun id r w' h => hcalls ⟨id, r, w', h⟩) config
          "Already approved this credit"
          fun id txHash => recordApproval (host.api config).toApiConfig user id comments txHash
        refine Or.inl ⟨hfails.db, hfails.chain, fun id w' h => hcalls ⟨id, none, w', ?_⟩⟩
        exact ⟨h.1, h.2.1, answer_approve_eq_ok.mpr ⟨rfl, h.2.2⟩⟩
  | reject user creditId reason =>
      by_cases hcalls : ∃ id r w', Calls host s user creditId false
          (.rejectCredit user creditId reason) id r w'
      · obtain ⟨id, r, w', hcall⟩ := hcalls
        have hvotes := answer_reject_eq_ok.mp ⟨r, hcall.2.2⟩
        obtain ⟨u, hdb, rfl, hdb', hchain'⟩ := exec_request_of_calls hcall config
          "Already recorded a decision on this credit"
          fun id _ => recordRejection (host.api config).toApiConfig user id reason
        obtain ⟨credit, hcredit, -⟩ := hcall.2.1.pending
        rw [← hdb] at hcredit
        obtain ⟨hchain, hrecorded⟩ := exec_recordRejection (host.api config) u user reason
          creditId hquorum hcredit
        refine Or.inr ⟨id, ⟨hcall.1, hcall.2.1, ?_⟩, ?_⟩
        · rw [← hchain, ← hchain'] at hvotes
          exact hvotes
        · rw [hdb, ← hdb'] at hrecorded
          exact hrecorded
      · have hfails := fails_request (fun id r w' h => hcalls ⟨id, r, w', h⟩) config
          "Already recorded a decision on this credit"
          fun id _ => recordRejection (host.api config).toApiConfig user id reason
        refine Or.inl ⟨hfails.db, hfails.chain, fun id w' h => ?_⟩
        obtain ⟨r, hanswer⟩ := answer_reject_eq_ok.mpr h.2.2
        exact hcalls ⟨id, r, w', h.1, h.2.1, hanswer⟩

/-! ## Credits in both -/

/-- The text of the token of a credit that has been minted. -/
def tokenOf (credit : CreditMetadata) : Option String :=
  if credit.status = .active ∨ credit.status = .retired then
    some (hexText credit.tokenId.toBytes)
  else none

/-- The row of the credit has the status of the registry, and the token if it has been minted. -/
def Mirrored (host : StellarHost T) (id : ℕ) (s : BackendState (World T)) : Prop :=
  ∃ row credit, s.db.credits id = some row ∧
    (s.chain.registry host.registry).credits id = some credit ∧
    row.status = credit.status ∧ row.tokenId = tokenOf credit

/-- The credit has been submitted, and nobody has voted on it. -/
structure Submitted (host : StellarHost T) (t q id : ℕ) (s : BackendState (World T)) : Prop where
  row : ∃ row, s.db.credits id = some row ∧ row.status = .pending ∧ row.tokenId = none
  noRows : ∀ a ∈ s.db.approvals, a.creditId ≠ id
  opens : CreditRegistry.Opens t q (s.chain.registry host.registry) id

/-- The registry accepts the vote on the credit, and the database lets the user cast it. -/
structure Accepted (host : StellarHost T) (id : ℕ) (s : BackendState (World T))
    (req : VoteRequest) : Prop where
  column : Mirror.intColumn req.creditId = some (id : ℤ)
  checks : PassesChecks s.db req.user id req.approved
  deployed : host.ch.isRegistry host.registry = true
  mayVote : ∃ verifier credit, host.address req.user = .ok verifier ∧
    MayVote (host.env host.verifier (s.served + 2)) (s.chain.registry host.registry) verifier id
      credit

/-- The registry decides the credit with this vote. -/
def DecidesOnChain (t q : ℕ) (registry : CreditRegistry) (id : ℕ) : VoteRequest → Prop
  | .approve _ _ _ => t ≤ registry.countApprovals id + 1
  | .reject _ _ _ => q - t < registry.countRejections id + 1

/-- A vote that decides the credit on chain decides it in the database. -/
def DecidesInBoth (host : StellarHost T) (config : ApiConfig) (t q id : ℕ)
    (s : BackendState (World T)) (req : VoteRequest) : Prop :=
  Accepted host id s req → DecidesOnChain t q (s.chain.registry host.registry) id req →
    DecidesInDatabase config q s.db id req

section Registry

variable {id t q : ℕ} {req : VoteRequest} {w' : World T}

/-- What the registry keeps of the votes, beside the rejections of the database. -/
structure Counted (host : StellarHost T) (t q id : ℕ) (s : BackendState (World T)) : Prop where
  config : ∃ config, (s.chain.registry host.registry).config = some config ∧ ConfigHas t q config
  fewer : countVotes s.db id false ≤ (s.chain.registry host.registry).countRejections id

/-- A vote that is taken. -/
theorem Takes.voteChange {k : ℤ} (h : Takes host s k req w') :
    ∃ (n : ℕ) (verifier : Address), k = n ∧ host.ch.isRegistry host.registry = true ∧
      host.address req.user = .ok verifier ∧
      CreditRegistry.VoteChange host.ch.sha256 (host.env host.verifier (s.served + 2))
        (s.chain.registry host.registry) (w'.registry host.registry)
        ((req.vote host (s.served + 2) verifier).call n) := by
  obtain ⟨hcolumn, -, verifier, n, registry, hr, hverifier, hn, hexec, rfl⟩ := h
  refine ⟨n, verifier, (StellarHost.u64_of_intColumn hcolumn).mp hn, hr, hverifier, ?_⟩
  have hself : (({ s.chain with
      ledger := s.chain.ledger.writeRegistry host.registry registry } : World T).registry
        host.registry) = registry := Ledger.registry_writeRegistry_self _ _ _
  rw [hself]
  exact CreditRegistry.exec_voteChange hexec

/-- A vote that both sides accept takes effect. -/
theorem takes_of_accepted (hcounted : Counted host t q id s) (h : Accepted host id s req) :
    ∃ w', Takes host s id req w' := by
  obtain ⟨hcolumn, hchecks, hr, verifier, credit, hverifier, hmay⟩ := h
  obtain ⟨config, hconfig, -⟩ := hcounted.config
  obtain ⟨registry, hexec⟩ := Vote.exec_ok host.ch.sha256
    (v := req.vote host (s.served + 2) verifier) hmay hconfig
  exact ⟨_, hcolumn, hchecks, verifier, id, registry, hr, hverifier,
    (StellarHost.u64_of_intColumn hcolumn).mpr rfl, hexec, rfl⟩

/-- The comparison of the registry, after the vote `req` on the credit `id`. -/
theorem decides_iff {config : ContractConfig} {registry registry' : CreditRegistry}
    (hhas : ConfigHas t q config) (htq : t ≤ q) (hq : q < 2 ^ 32)
    (hverdicts : registry'.verdicts id = registry.verdicts id ++ [req.approved]) :
    CreditRegistry.Decides config (registry'.verdicts id) req.approved ↔
      DecidesOnChain t q registry id req := by
  obtain ⟨rfl, rfl⟩ := hhas
  rw [hverdicts]
  cases req with
  | approve user creditId comments =>
      show _ ≤ (registry.verdicts id ++ [true]).count true ↔ _ ≤ registry.countApprovals id + 1
      rw [CreditRegistry.countApprovals_eq, List.count_append]
      exact Iff.rfl
  | reject user creditId reason =>
      show u32Sub _ _ < (registry.verdicts id ++ [false]).count false ↔
        _ < registry.countRejections id + 1
      rw [CreditRegistry.countRejections_eq, List.count_append, u32Sub_of_le hq htq]
      exact Iff.rfl

/-- What a vote that is taken does to the registry. -/
theorem Takes.effect {k : ℤ} (h : Takes host s k req w') :
    ∃ (n : ℕ) (verifier : Address) (credit : CreditMetadata) (config : ContractConfig), k = n ∧
      host.ch.isRegistry host.registry = true ∧ host.address req.user = .ok verifier ∧
      MayVote (host.env host.verifier (s.served + 2)) (s.chain.registry host.registry) verifier n
        credit ∧
      (s.chain.registry host.registry).config = some config ∧
      (w'.registry host.registry).config = some config ∧
      (w'.registry host.registry).verdicts n =
        (s.chain.registry host.registry).verdicts n ++ [req.approved] ∧
      (CreditRegistry.Decides config ((w'.registry host.registry).verdicts n) req.approved ∧
          (w'.registry host.registry).credits n =
            some (CreditRegistry.decided host.ch.sha256 credit n req.approved) ∨
        ¬ CreditRegistry.Decides config ((w'.registry host.registry).verdicts n) req.approved ∧
          (w'.registry host.registry).credits n = some credit) ∧
      ∀ i, i ≠ n →
        (w'.registry host.registry).credits i = (s.chain.registry host.registry).credits i ∧
        (w'.registry host.registry).approvals i = (s.chain.registry host.registry).approvals i := by
  obtain ⟨n, verifier, hn, hr, hverifier, hchange⟩ := h.voteChange
  have hballot := (req.vote host (s.served + 2) verifier).call_ballot n
  cases hchange with
  | other hcall _ _ =>
      rw [hballot] at hcall
      cases hcall
  | @vote b credit config hcall hmay hconfig hconfig' _ hlog hcredits =>
      obtain rfl := Option.some.inj (hballot.symm.trans hcall)
      refine ⟨n, verifier, credit, config, hn, hr, hverifier, hmay, hconfig, hconfig',
        CreditRegistry.verdicts_vote hlog, ?_, fun i hi =>
          CreditRegistry.vote_frame hlog hcredits hi⟩
      rcases hcredits with ⟨hdecides, hcredits⟩ | ⟨hopen, hcredits⟩
      · exact Or.inl ⟨hdecides, (congrFun hcredits n).trans (Function.update_self _ _ _)⟩
      · exact Or.inr ⟨hopen, (congrFun hcredits n).trans hmay.stored⟩

/-- A vote that takes effect is accepted by both sides. -/
theorem accepted_of_takes (h : Takes host s id req w') : Accepted host id s req := by
  obtain ⟨n, verifier, credit, -, hn, hr, hverifier, hmay, -⟩ := h.effect
  obtain rfl := Int.ofNat.inj hn
  exact ⟨h.1, h.2.1, hr, verifier, credit, hverifier, hmay⟩

/-- The rows that the API adds. -/
theorem Recorded.countVotes {config : ApiConfig} {k : ℤ} {db db' : ApiDb}
    (h : Recorded config q k req db db') (j : ℤ) :
    ApiService.countVotes db' j false ≤ ApiService.countVotes db j false +
      (if j = k ∧ req.approved = false then 1 else 0) := by
  obtain ⟨rows, hlength, hrows, happrovals⟩ := h.approvals
  unfold ApiService.countVotes
  rw [happrovals, List.countP_append]
  refine Nat.add_le_add_left ?_ _
  split_ifs with hown
  · exact List.countP_le_length.trans hlength
  · refine (List.countP_eq_zero.mpr fun a ha => ?_).le
    obtain ⟨hid, hverdict⟩ := hrows a ha
    rw [hid, hverdict]
    exact fun hboth => hown ⟨(of_decide_eq_true hboth).1.symm, (of_decide_eq_true hboth).2⟩

/-- A request keeps the counts. -/
theorem Counted.serve {config : ApiConfig} (hquorum : quorum config = .finite q)
    (h : Counted host t q id s) : Counted host t q id (serve (host.api config) s req) := by
  rcases serve_cases host hquorum s req with ⟨hdb, hchain, -⟩ | ⟨k, htakes, hrecorded⟩
  · exact ⟨by rw [hchain]; exact h.config, by rw [hdb, hchain]; exact h.fewer⟩
  · obtain ⟨n, verifier, credit, config', rfl, -, -, -, hconfig, hconfig', hverdicts, -, hframe⟩ :=
      htakes.effect
    obtain ⟨config₀, hconfig₀, hhas⟩ := h.config
    obtain rfl := Option.some.inj (hconfig₀.symm.trans hconfig)
    refine ⟨⟨config₀, hconfig', hhas⟩, (hrecorded.countVotes id).trans ?_⟩
    have hfewer := h.fewer
    by_cases hid : id = n
    · subst hid
      -- the registry has counted every rejection that the API may have recorded
      rw [CreditRegistry.countRejections_eq] at hfewer ⊢
      rw [hverdicts, List.count_append]
      cases happroved : req.approved with
      | true => simpa using hfewer
      | false => simpa using hfewer
    · have hother : ¬ ((id : ℤ) = (n : ℤ) ∧ req.approved = false) :=
        fun hboth => hid (Int.ofNat.inj hboth.1)
      rw [if_neg hother]
      unfold CreditRegistry.countRejections at hfewer ⊢
      rw [(hframe id hid).2]
      exact hfewer

/-- A rejection that the API decides with is decided on chain. -/
theorem decidesOnChain_of_database {config : ApiConfig} (ht : 1 ≤ t) (htq : t ≤ q)
    (hcounted : Counted host t q id s) (h : DecidesInDatabase config q s.db id req) :
    DecidesOnChain t q (s.chain.registry host.registry) id req := by
  cases req with
  | approve user creditId comments => exact h.elim
  | reject user creditId reason =>
      have hfewer := hcounted.fewer
      have hreached : q ≤ countVotes s.db id false + 1 := h.2
      show q - t < _
      omega

/-- The credit stays in both exactly when the vote decides it in both. -/
theorem mirrored_serve_iff {config : ApiConfig} (hquorum : quorum config = .finite q)
    (ht : 1 ≤ t) (htq : t ≤ q) (hq : q < 2 ^ 32) (hcounted : Counted host t q id s)
    (hmirrored : Mirrored host id s) :
    Mirrored host id (serve (host.api config) s req) ↔ DecidesInBoth host config t q id s req := by
  obtain ⟨row, credit, hrow, hcredit, hstatus, htoken⟩ := hmirrored
  rcases serve_cases host hquorum s req with ⟨hdb, hchain, hnot⟩ | ⟨k, htakes, hrecorded⟩
  · refine iff_of_true ⟨row, credit, by rw [hdb]; exact hrow, by rw [hchain]; exact hcredit,
      hstatus, htoken⟩ fun haccepted => ?_
    obtain ⟨w', htakes⟩ := takes_of_accepted hcounted haccepted
    exact absurd htakes (hnot id w')
  · obtain ⟨n, verifier, credit', config', rfl, -, -, hmay, hconfig, -, hverdicts, hcredits,
      hframe⟩ := htakes.effect
    obtain ⟨config₀, hconfig₀, hhas⟩ := hcounted.config
    obtain rfl := Option.some.inj (hconfig₀.symm.trans hconfig)
    by_cases hid : id = n
    · subst hid
      obtain rfl := Option.some.inj (hcredit.symm.trans hmay.stored)
      rw [decides_iff hhas htq hq hverdicts] at hcredits
      have haccepted := accepted_of_takes htakes
      have hpending := hmay.pending
      have hnoToken : row.tokenId = none := by
        rw [htoken, tokenOf, hpending]
        rfl
      rcases hcredits with ⟨hchain, hcredit'⟩ | ⟨hopen, hcredit'⟩
      · rcases hrecorded.credits with ⟨hdatabase, row', hrow', hcredits'⟩ | ⟨hnot, hcredits'⟩
        · -- both reject
          refine iff_of_true ?_ fun _ _ => hdatabase
          obtain rfl := Option.some.inj (hrow.symm.trans hrow')
          cases req with
          | approve user creditId comments => exact hdatabase.elim
          | reject user creditId reason =>
              exact ⟨_, _, (congrFun hcredits' id).trans (Function.update_self _ _ _), hcredit',
                rfl, hnoToken⟩
        · -- the registry decides alone
          refine iff_of_false ?_ fun hboth => hnot (hboth haccepted hchain)
          rintro ⟨row', credit', hrow', hcredit'', hstatus', -⟩
          rw [hcredits', hrow] at hrow'
          rw [hcredit'] at hcredit''
          obtain rfl := Option.some.inj hrow'
          obtain rfl := Option.some.inj hcredit''
          rw [hstatus, hpending, CreditRegistry.decided_status] at hstatus'
          cases CreditRegistry.statusOf_eq_pending.mp hstatus'.symm
      · have hnot : ¬ DecidesInDatabase config q s.db id req :=
          fun h => hopen (decidesOnChain_of_database ht htq hcounted h)
        refine iff_of_true ⟨row, credit, ?_, hcredit', hstatus, htoken⟩ fun _ h => absurd h hopen
        rcases hrecorded.credits with ⟨hdatabase, -⟩ | ⟨-, hcredits'⟩
        · exact absurd hdatabase hnot
        · rw [hcredits', hrow]
    · -- another credit
      have hne : (id : ℤ) ≠ (n : ℤ) := fun h => hid (Int.ofNat.inj h)
      have hrow' : (serve (host.api config) s req).db.credits id = some row := by
        rcases hrecorded.credits with ⟨-, _, -, hdb⟩ | ⟨-, hdb⟩
        · rw [hdb, Function.update_of_ne hne, hrow]
        · rw [hdb, hrow]
      refine iff_of_true ⟨row, credit, hrow', (hframe id hid).1.trans hcredit, hstatus, htoken⟩
        fun haccepted => ?_
      have hcolumn := Option.some.inj (haccepted.column.symm.trans htakes.1)
      exact absurd (Int.ofNat.inj hcolumn) hid

end Registry

/-- The numbers of votes that the API waits for are those of the registry. -/
def ThresholdsAre (config : ApiConfig) (t q : ℕ) : Prop :=
  threshold config = .finite t ∧ quorum config = .finite q

/-- The credit stays mirrored in a run of requests exactly when every vote that decides it on
chain decides it in the database. -/
theorem mirrored_iff (host : StellarHost T) (config : ApiConfig) (t q id : ℕ)
    (hthresholds : ThresholdsAre config t q) (ht : 1 ≤ t) (htq : t ≤ q) (hq : q < 2 ^ 32)
    (s : BackendState (World T)) (hstart : Submitted host t q id s) (reqs : List VoteRequest) :
    Throughout (serve (host.api config)) (Mirrored host id) s reqs ↔
      Always (serve (host.api config)) (DecidesInBoth host config t q id) s reqs := by
  obtain ⟨row, hrow, hpending, htoken⟩ := hstart.row
  obtain ⟨credit, hcredit, hopen⟩ := hstart.opens.pending
  have hmirrored : Mirrored host id s := by
    refine ⟨row, credit, hrow, hcredit, hpending.trans hopen.symm, ?_⟩
    rw [htoken, tokenOf, hopen]
    rfl
  have hcounted : Counted host t q id s := by
    refine ⟨hstart.opens.config, ?_⟩
    have hnone : countVotes s.db id false = 0 := by
      refine List.countP_eq_zero.mpr fun a ha hvoted => ?_
      exact hstart.noRows a ha (of_decide_eq_true hvoted).1
    rw [hnone]
    exact Nat.zero_le _
  exact throughout_iff_always (C := fun _ _ => True) (J := Counted host t q id)
    (fun _ _ h _ => h.serve hthresholds.2)
    (fun _ _ h _ hkept => mirrored_serve_iff hthresholds.2 ht htq hq h hkept) hcounted hmirrored
    (always_of_forall_mem (fun _ _ _ => trivial) s)

open Sample in
/-- The pending credit of the sample has been submitted. -/
theorem submitted_pending : Submitted stellarHost 1 1 1 (backend .pending pendingWorld) where
  row := ⟨creditRow .pending, rfl, rfl, rfl⟩
  noRows := nofun
  opens := ⟨⟨_, rfl, rfl⟩, rfl, ⟨_, rfl, rfl, rfl⟩⟩

open Sample in
/-- Its thresholds are one vote of one. -/
theorem thresholdsAre_one : ThresholdsAre apiConfig 1 1 := ⟨by decide +kernel, by decide +kernel⟩

open Sample in
/-- A rejection of the only verifier is final on both sides. -/
theorem mirrored_rejection :
    Throughout (serve (stellarHost.api apiConfig)) (Mirrored stellarHost 1)
      (backend .pending pendingWorld) [.reject wallet (.finite 1) "No baseline"] := by
  refine (mirrored_iff stellarHost apiConfig 1 1 1 thresholdsAre_one le_rfl le_rfl (by decide) _
    submitted_pending _).mpr ?_
  refine always_cons.mpr ⟨fun _ _ => ⟨rfl, ?_⟩, always_nil _ _⟩
  decide

open Sample in
/-- The approval of the only verifier mints the credit, which the database keeps pending. -/
theorem not_mirrored :
    ¬ ∀ (T : Type) (host : StellarHost T) (config : ApiConfig) (t q id : ℕ)
      (s : BackendState (World T)) (reqs : List VoteRequest), ThresholdsAre config t q → 1 ≤ t →
      t ≤ q → q < 2 ^ 32 → Submitted host t q id s →
        Throughout (serve (host.api config)) (Mirrored host id) s reqs := by
  intro h
  have hkept := h _ stellarHost apiConfig 1 1 1 (backend .pending pendingWorld)
    [.approve wallet (.finite 1) none] thresholdsAre_one le_rfl le_rfl (by decide)
    submitted_pending
  obtain ⟨row, credit, hrow, hcredit, hstatus, -⟩ := hkept.last
  obtain rfl : row = creditRow .pending := Option.some.inj (hrow.symm.trans rfl)
  have hactive : credit.status = .active := by
    refine Option.some.inj ((congrArg (Option.map CreditMetadata.status) hcredit).symm.trans ?_)
    rfl
  rw [hactive] at hstatus
  cases hstatus

end CreditsService

end CarbonVeritas
