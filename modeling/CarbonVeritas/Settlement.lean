/-
# Settlement of contract calls

What an invocation of the Soroban client tells its caller about the ledger, in every run of any
number of invocations among other clients, failing requests, a server that lags behind the ledger
and an account that several invocations use at once.

* `invoke_settles` : an invocation that returns has taken effect as one atomic call, at exactly
  one place of the history, between its start and its end;
* `invokes_of_one_account` : invocations that were given the same sequence number of an account
  and both return are one transaction, and the places of others follow real time;
* `timedOut_settled`, `invoke_throws` : what an error says about the ledger.
-/
import CarbonVeritas.SorobanRuns
import CarbonVeritas.StellarService
import CarbonVeritas.ValueCodes

namespace CarbonVeritas

open SequencedLedger Transition

namespace SorobanRun

open SorobanHost

variable {κ σ : Type} [DecidableEq κ] {host : SorobanHost σ} {options : κ → SorobanInvokeOptions}
  {s₀ : σ} {s u : SorobanRun κ σ}

/-! ## A sample network -/

section Sample

/-- A hash that tells all transactions apart. -/
def sampleHash (tx : Transaction) : String :=
  String.ofList (List.replicate (Encodable.encode [textCode tx.source, tx.sequence,
    textCode tx.fee, textCode tx.networkPassphrase, textCode tx.contractId, textCode tx.method,
    codeItems tx.args, tx.maxTime]) 'x')

/-- Different transactions of the sample have different hashes. -/
theorem sampleHash_injective : Function.Injective sampleHash := by
  intro tx tx' h
  have hcode := congrArg List.length (String.ofList_injective h)
  rw [List.length_replicate, List.length_replicate, Encodable.encode_inj] at hcode
  simp only [List.cons.injEq, textCode_inj] at hcode
  obtain ⟨hsource, hsequence, hfee, hnetwork, hcontract, hmethod, hargs, htime, -⟩ := hcode
  have hargs' := codeItems_inj _ _ hargs
  cases tx
  cases tx'
  simp_all

/-- A contract that counts its calls. -/
def sampleHost (hash : Transaction → String) : SorobanHost ℕ where
  engine := { printDouble := fun _ => "", decodeUtf8 := fun _ => "" }
  sdk :=
    { addressText := fun _ => ""
      readAddress := fun _ => none
      isValidEd25519PublicKey := fun _ => false
      decodeText := fun _ => "" }
  STELLAR_NETWORK_PASSPHRASE := none
  STELLAR_TX_FEE := none
  fromSecret secret := if secret = "S" then some "G" else none
  isContractId id := id = "C"
  hash := hash
  exec n tx _ := if tx.method = "count" then some (n + 1, some (.u64 (n + 1))) else none
  lag := 0

def sampleOptions (method : String) : SorobanInvokeOptions where
  contractId := "C"
  method := method
  args := []
  signerSecret := "S"
  fee := some "100"

def sampleOrigin : Origin ℕ where
  state := 0
  clock := 5000
  received := []
  number := fun _ => 7

/-- The transaction of a request made at the start. -/
def sampleTx (method : String) : Transaction where
  source := "G"
  sequence := 8
  fee := "100"
  networkPassphrase := SorobanHost.TESTNET
  contractId := "C"
  method := method
  args := []
  maxTime := 35

/-- Two requests at once, up to the ledger that takes them. -/
def sampleTurns : List (SorobanTurn Bool) :=
  [.resume false, .resume true, .serveAccount false, .serveAccount true, .resume false,
    .resume true, .serveSend false .PENDING none, .serveSend true .DUPLICATE none, .close 0 5,
    .resume false, .resume true, .serveTransaction false true none,
    .serveTransaction true true none, .resume false, .resume true]

/-- The state after some turns of the sample, by evaluation. -/
theorem sample_returns (hash : Transaction → String) (b : Bool) :
    (reached (sampleHost hash) (fun _ => sampleOptions "count") sampleOrigin sampleTurns).calls b =
      .ended (some (sampleTx "count"))
        (.ok ⟨hash (sampleTx "count"), .SUCCESS, .bigint 1⟩) := by
  cases b <;>
    simp [reached, sampleTurns, sampleOrigin, start, next, setCall, serveSend, resume,
      sampleOptions, State.submit, State.close, State.Admits, State.applied, rules, lookup,
      buildTransaction, sampleTx, Rules.effect, sampleHost, networkPassphrase, receipt,
      ScVal.toNative]

/-- A request, up to its end. -/
def firstTurns : List (SorobanTurn Bool) :=
  [.resume false, .serveAccount false, .resume false, .serveSend false .PENDING none, .close 0 5,
    .resume false, .serveTransaction false true none, .resume false]

/-- And another after it, which is given the next sequence number. -/
def serialTurns : List (SorobanTurn Bool) := firstTurns ++
  [.resume true, .serveAccount true, .resume true, .serveSend true .PENDING none, .close 1 5,
    .resume true, .serveTransaction true true none, .resume true]

def nextTx : Transaction := { sampleTx "count" with sequence := 9 }

/-- The first call of the sample returns 1. -/
theorem first_returns (hash : Transaction → String) :
    (reached (sampleHost hash) (fun _ => sampleOptions "count") sampleOrigin firstTurns).calls
        false =
      .ended (some (sampleTx "count"))
        (.ok ⟨hash (sampleTx "count"), .SUCCESS, .bigint 1⟩) ∧
    ((reached (sampleHost hash) (fun _ => sampleOptions "count") sampleOrigin firstTurns).calls
      true).Unserved := by
  simp [reached, firstTurns, sampleOrigin, start, next, setCall, serveSend, resume, sampleOptions,
    State.submit, State.close, State.Admits, State.applied, rules, lookup, buildTransaction,
    sampleTx, Rules.effect, sampleHost, networkPassphrase, receipt, ScVal.toNative,
    Invocation.Unserved]

/-- Of two calls of the sample, one after the other, the second returns 2. -/
theorem serial_returns {hash : Transaction → String} (hhash : Function.Injective hash) :
    (reached (sampleHost hash) (fun _ => sampleOptions "count") sampleOrigin serialTurns).calls
        false =
      .ended (some (sampleTx "count"))
        (.ok ⟨hash (sampleTx "count"), .SUCCESS, .bigint 1⟩) ∧
    (reached (sampleHost hash) (fun _ => sampleOptions "count") sampleOrigin serialTurns).calls
        true =
      .ended (some nextTx) (.ok ⟨hash nextTx, .SUCCESS, .bigint 2⟩) := by
  simp [reached, serialTurns, firstTurns, sampleOrigin, start, next, setCall, serveSend, resume,
    sampleOptions, State.submit, State.close, State.Admits, State.applied, rules, lookup,
    buildTransaction, sampleTx, nextTx, Rules.effect, sampleHost, networkPassphrase, receipt,
    ScVal.toNative, hhash.eq_iff]

/-- A call of the sample that panics on chain throws. -/
theorem sample_fails (hash : Transaction → String) :
    (reached (sampleHost hash) (fun _ => sampleOptions "count off") sampleOrigin sampleTurns).calls
        false =
      .ended (some (sampleTx "count off"))
        (.error (.failed (hash (sampleTx "count off")) "no result XDR")) := by
  simp [reached, sampleTurns, sampleOrigin, start, next, setCall, serveSend, resume,
    sampleOptions, State.submit, State.close, State.Admits, State.applied, rules, lookup,
    buildTransaction, sampleTx, Rules.effect, sampleHost, networkPassphrase]

/-- The ledger takes no transaction for `ms` milliseconds. -/
def lateTurns (ms : ℕ) : List (SorobanTurn Bool) :=
  [.resume false, .serveAccount false, .resume false, .serveSend false .TRY_AGAIN_LATER none,
    .resume false, .tick ms, .serveTransaction false true none, .resume false]

/-- A call of the sample that is not settled in time throws. -/
theorem sample_timedOut (hash : Transaction → String) {ms : ℕ} (hms : 30000 < ms) :
    (reached (sampleHost hash) (fun _ => sampleOptions "count") sampleOrigin
        (lateTurns ms)).calls false =
      .ended (some (sampleTx "count")) (.error (.timedOut (hash (sampleTx "count")))) := by
  simp [reached, lateTurns, sampleOrigin, start, next, setCall, serveSend, resume,
    sampleOptions, lookup, buildTransaction, sampleTx, sampleHost, networkPassphrase,
    timeoutMs, hms]

end Sample

/-! ## Results -/

variable (host) in
/-- The call of `o` took effect, with this receipt, at the place `i` of the history. -/
def EffectAt (s₀ : σ) (o : SorobanInvokeOptions) (receipt : SorobanInvokeReceipt)
    (l : Network σ) (i : ℕ) : Prop :=
  ∃ entry rv, l.history[i]? = some entry ∧ host.Builds o entry.op ∧
    receipt = host.receipt (host.hash entry.op) rv ∧
    host.exec (host.rules.replay s₀ (l.history.take i)) entry.op entry.time =
      some (host.rules.replay s₀ (l.history.take (i + 1)), rv)

omit [DecidableEq κ] in
/-- What is known of an invocation that has returned. -/
theorem Sane.returned (h : Sane host options s₀ s) {k : κ} {tx : Option Transaction}
    {receipt : SorobanInvokeReceipt} (hend : s.calls k = .ended tx (.ok receipt)) :
    ∃ (sent : Transaction) (rv : Option ScVal) (i : ℕ)
      (entry : Entry Transaction (Option ScVal)), tx = some sent ∧ host.Builds (options k) sent ∧
      receipt = host.receipt (host.hash sent) rv ∧ s.network.history[i]? = some entry ∧
      entry.op = sent ∧ entry.outcome = some rv := by
  have hsound := h.sound k
  rw [hend] at hsound
  cases tx with
  | none => rcases hsound with herr | herr <;> cases herr
  | some sent =>
      obtain ⟨hbuilds, rv, hreceipt, entry, hmem, hop, hout⟩ := hsound
      obtain ⟨i, hi⟩ := List.mem_iff_getElem?.mp hmem
      exact ⟨sent, rv, i, entry, rfl, hbuilds, hreceipt, hi, hop, hout⟩

omit [DecidableEq κ] in
/-- A call that has returned took effect at some place of the history. -/
theorem Sane.exists_effectAt (h : Sane host options s₀ s) {k : κ} {tx : Option Transaction}
    {receipt : SorobanInvokeReceipt} (hend : s.calls k = .ended tx (.ok receipt)) :
    ∃ i, EffectAt host s₀ (options k) receipt s.network i := by
  obtain ⟨_, rv, i, entry, -, hbuilds, hreceipt, hi, rfl, hout⟩ := h.returned hend
  exact ⟨i, entry, rv, hi, hbuilds, hreceipt, h.ledger.exec_of_outcome hi hout⟩

omit [DecidableEq κ] in
/-- The transaction of an invocation that is still to be told its number has not been applied. -/
theorem Later.length_le (h : Later u s) (hu : Sane host options s₀ u)
    {k : κ} (hk : (u.calls k).Unserved) {tx : Transaction} (htx : (s.calls k).tx = some tx)
    {i : ℕ} {entry : Entry Transaction (Option ScVal)}
    (hi : s.network.history[i]? = some entry) (hop : entry.op = tx) :
    u.network.history.length ≤ i := by
  by_contra hlt
  rw [not_le] at hlt
  have hnumbered : (s.calls k).numbered = some (tx.source, tx.sequence) := by
    cases hcall : s.calls k with
    | ready => rw [hcall] at htx; cases htx
    | account publicKey => rw [hcall] at htx; cases htx
    | accountAnswered publicKey sequence => rw [hcall] at htx; cases htx
    | _ =>
        rw [hcall] at htx
        simp only [Invocation.numbered, htx, Option.map_some]
  have hmem : entry ∈ u.network.history := by
    obtain ⟨rest, hrest⟩ := h.history
    rw [← hrest, List.getElem?_append_left hlt] at hi
    exact List.mem_of_getElem? hi
  exact hu.ledger.notMem_of_lt (h.numbered k hk _ _ hnumbered) entry hmem hop

omit [DecidableEq κ] in
/-- A transaction is applied at one place. -/
theorem Sane.place_unique (h : Sane host options s₀ s) {i j : ℕ}
    {e f : Entry Transaction (Option ScVal)} (hi : s.network.history[i]? = some e)
    (hj : s.network.history[j]? = some f) (hop : f.op = e.op) : j = i := by
  refine h.ledger.position_unique hj hi ?_ ?_
  · rw [hop]
  · rw [hop]

omit [DecidableEq κ] in
/-- The effect of an invocation is the entry of its transaction. -/
theorem Sane.effectAt_op (hhash : Function.Injective host.hash) (h : Sane host options s₀ s)
    {k : κ} {tx : Option Transaction} {receipt : SorobanInvokeReceipt}
    (hend : s.calls k = .ended tx (.ok receipt)) {i : ℕ}
    (hi : EffectAt host s₀ (options k) receipt s.network i) :
    ∃ sent, tx = some sent ∧ ∃ entry : Entry Transaction (Option ScVal),
      s.network.history[i]? = some entry ∧ entry.op = sent := by
  obtain ⟨sent, rv, _, _, hsent, -, hreceipt, -⟩ := h.returned hend
  obtain ⟨entry, _, hentry, -, hreceipt', -⟩ := hi
  rw [hreceipt] at hreceipt'
  exact ⟨sent, hsent, entry, hentry,
    hhash (congrArg SorobanInvokeReceipt.hash hreceipt').symm⟩

/-- **Atomicity.**  An invocation that returns has taken effect as one call on the ledger, at
exactly one place of the history, after it was told its sequence number and before it ended. -/
theorem invoke_settles (hhash : Function.Injective host.hash) {g : Origin σ}
    {ts : List (SorobanTurn κ)} {k : κ} {tx : Option Transaction}
    {receipt : SorobanInvokeReceipt}
    (hend : (reached host options g ts).calls k = .ended tx (.ok receipt)) :
    ∃ i, EffectAt host g.state (options k) receipt (reached host options g ts).network i ∧
      (∀ j, EffectAt host g.state (options k) receipt (reached host options g ts).network j →
        j = i) ∧
      ∀ us, us <+: ts →
        (((reached host options g us).calls k).Unserved →
          (reached host options g us).network.history.length ≤ i) ∧
        ((reached host options g us).calls k = .ended tx (.ok receipt) →
          i < (reached host options g us).network.history.length) := by
  have hsane := sane_reached options hhash g ts
  obtain ⟨i, heffect⟩ := hsane.exists_effectAt hend
  obtain ⟨sent, hsent, hat⟩ := hsane.effectAt_op hhash hend heffect
  subst hsent
  obtain ⟨entry, hi, hop⟩ := hat
  refine ⟨i, heffect, fun j hj => ?_, ?_⟩
  · obtain ⟨_, hsame, f, hf, hfop⟩ := hsane.effectAt_op hhash hend hj
    obtain rfl := Option.some.inj hsame
    exact hsane.place_unique hi hf (hfop.trans hop.symm)
  · intro us hus
    have hsane' := sane_reached options hhash g us
    have hlater := later_reached host options g hus
    constructor
    · intro hunserved
      exact hlater.length_le hsane' hunserved (by rw [hend]; rfl) hi hop
    · intro hended
      obtain ⟨sent', rv', j, f, hsome, -, -, hj, hf, -⟩ := hsane'.returned hended
      obtain rfl := Option.some.inj hsome
      obtain ⟨rest, hrest⟩ := hlater.history
      have hlt := (List.getElem?_eq_some_iff.mp hj).1
      have hj' : (reached host options g ts).network.history[j]? = some f := by
        rw [← hrest, List.getElem?_append_left hlt]
        exact hj
      rw [← hsane.place_unique hi hj' (hf.trans hop.symm)]
      exact hlt

/-- The first call of the sample took effect. -/
theorem invoke_settles_sample :
    ∃ i, EffectAt (sampleHost sampleHash) 0 (sampleOptions "count")
      ⟨sampleHash (sampleTx "count"), .SUCCESS, .bigint 1⟩
      (reached (sampleHost sampleHash) (fun _ => sampleOptions "count") sampleOrigin
        sampleTurns).network i := by
  obtain ⟨i, hi, -⟩ := invoke_settles (k := false) sampleHash_injective
    (sample_returns sampleHash false)
  exact ⟨i, hi⟩

/-- **One account.**  Of two invocations that return, the effects are at one place exactly when
they used the same sequence number of the same account.  Then they have sent the same transaction
and return the same; otherwise the hashes differ, and the one that ended before the other was told
its number comes first. -/
theorem invokes_of_one_account (hhash : Function.Injective host.hash) {g : Origin σ}
    {ts : List (SorobanTurn κ)} {j k : κ} {tx tx' : Transaction}
    {receipt receipt' : SorobanInvokeReceipt}
    (hj : (reached host options g ts).calls j = .ended (some tx) (.ok receipt))
    (hk : (reached host options g ts).calls k = .ended (some tx') (.ok receipt')) {a b : ℕ}
    (ha : EffectAt host g.state (options j) receipt (reached host options g ts).network a)
    (hb : EffectAt host g.state (options k) receipt' (reached host options g ts).network b) :
    (a = b ↔ tx.source = tx'.source ∧ tx.sequence = tx'.sequence) ∧
      (a = b → tx = tx' ∧ receipt = receipt') ∧
      (a ≠ b → receipt.hash ≠ receipt'.hash) ∧
      ∀ us, us <+: ts → ((reached host options g us).calls k).Unserved →
        (reached host options g us).calls j = .ended (some tx) (.ok receipt) → a < b := by
  have hsane := sane_reached options hhash g ts
  obtain ⟨_, rv, i, e, hsome, -, hreceipt, hi, rfl, hout⟩ := hsane.returned hj
  obtain rfl := Option.some.inj hsome
  obtain ⟨_, rv', i', e', hsome, -, hreceipt', hi', rfl, hout'⟩ := hsane.returned hk
  obtain rfl := Option.some.inj hsome
  -- the places are those of the two transactions
  obtain rfl : a = i := by
    obtain ⟨_, hsome, f, hf, hfop⟩ := hsane.effectAt_op hhash hj ha
    exact hsane.place_unique hi hf (hfop.trans (Option.some.inj hsome).symm)
  obtain rfl : b = i' := by
    obtain ⟨_, hsome, f, hf, hfop⟩ := hsane.effectAt_op hhash hk hb
    exact hsane.place_unique hi' hf (hfop.trans (Option.some.inj hsome).symm)
  have hentries : a = b → e = e' := by
    rintro rfl
    exact Option.some.inj (hi.symm.trans hi')
  refine ⟨⟨?_, ?_⟩, ?_, ?_, ?_⟩
  · intro hab
    rw [hentries hab]
    exact ⟨rfl, rfl⟩
  · rintro ⟨hsource, hsequence⟩
    exact hsane.ledger.position_unique hi hi' hsource hsequence
  · intro hab
    obtain rfl := hentries hab
    obtain rfl := Option.some.inj (hout.symm.trans hout')
    exact ⟨rfl, hreceipt.trans hreceipt'.symm⟩
  · intro hab hhashes
    rw [hreceipt, hreceipt'] at hhashes
    exact hab (hsane.place_unique hi' hi (hhash hhashes))
  · intro us hus hunserved hended
    have hsane' := sane_reached options hhash g us
    have hlater := later_reached host options g hus
    have hle := hlater.length_le hsane' hunserved (by rw [hk]; rfl) hi' rfl
    obtain ⟨_, _, c, f, hsome, -, -, hc, hf, -⟩ := hsane'.returned hended
    obtain rfl := Option.some.inj hsome
    obtain ⟨rest, hrest⟩ := hlater.history
    have hlt := (List.getElem?_eq_some_iff.mp hc).1
    have hc' : (reached host options g ts).network.history[c]? = some f := by
      rw [← hrest, List.getElem?_append_left hlt]
      exact hc
    rw [← hsane.place_unique hi hc' hf]
    exact lt_of_lt_of_le hlt hle

/-- Two requests in a row send different transactions, and their effects come in this order. -/
theorem invokes_of_one_account_sample :
    ∃ a b, EffectAt (sampleHost sampleHash) 0 (sampleOptions "count")
        ⟨sampleHash (sampleTx "count"), .SUCCESS, .bigint 1⟩
        (reached (sampleHost sampleHash) (fun _ => sampleOptions "count") sampleOrigin
          serialTurns).network a ∧
      EffectAt (sampleHost sampleHash) 0 (sampleOptions "count")
        ⟨sampleHash nextTx, .SUCCESS, .bigint 2⟩
        (reached (sampleHost sampleHash) (fun _ => sampleOptions "count") sampleOrigin
          serialTurns).network b ∧
      a < b ∧ sampleHash (sampleTx "count") ≠ sampleHash nextTx := by
  obtain ⟨hfirst, hunserved⟩ := first_returns sampleHash
  obtain ⟨hj, hk⟩ := serial_returns sampleHash_injective
  have hsane : Sane (sampleHost sampleHash) (fun _ => sampleOptions "count") 0
      (reached (sampleHost sampleHash) (fun _ => sampleOptions "count") sampleOrigin serialTurns) :=
    sane_reached _ sampleHash_injective sampleOrigin serialTurns
  obtain ⟨a, ha⟩ := hsane.exists_effectAt hj
  obtain ⟨b, hb⟩ := hsane.exists_effectAt hk
  obtain ⟨-, -, hhashes, horder⟩ :=
    invokes_of_one_account (j := false) (k := true) sampleHash_injective hj hk ha hb
  have hlt : a < b := horder firstTurns (List.prefix_append _ _) hunserved hfirst
  exact ⟨a, b, ha, hb, hlt, hhashes hlt.ne⟩

/-! ## Failures -/

/-- The transaction has been applied. -/
def Applied (l : Network σ) (tx : Transaction) : Prop := ∃ e ∈ l.history, e.op = tx

omit [DecidableEq κ] in
/-- After its time bound a transaction is not applied any more. -/
theorem Passes.applied {clock clock' : ℕ} {l l' : Network σ} {t : SorobanTurn κ}
    (h : Passes host clock l t clock' l')
    {tx : Transaction} (htx : Applied l' tx) (hexpired : tx.maxTime + host.lag < clock / 1000) :
    Applied l tx := by
  cases h with
  | close i time hlag =>
      rcases close_cases host.rules l i time with hsame | ⟨op, -, ⟨-, htime⟩, heq⟩
      · rwa [hsame] at htx
      · obtain ⟨e, he, hop⟩ := htx
        rw [heq] at he
        rcases List.mem_append.mp he with he | he
        · exact ⟨e, he, hop⟩
        · -- an expired transaction is not applied
          rw [List.mem_singleton.mp he] at hop
          obtain rfl : op = tx := hop
          have hle : time ≤ op.maxTime := htime
          omega
  | _ => exact htx

/-- After its time bound a transaction is applied no more. -/
theorem applied_of_expired {tx : Transaction} {ts : List (SorobanTurn κ)}
    (hexpired : tx.maxTime + host.lag < s.clock / 1000)
    (h : Applied (run (next host options) s ts).network tx) : Applied s.network tx := by
  have hinv : s.clock ≤ (run (next host options) s ts).clock ∧
      (Applied (run (next host options) s ts).network tx → Applied s.network tx) := by
    refine run_invariant (C := fun _ _ => True)
      (I := fun u : SorobanRun κ σ =>
        s.clock ≤ u.clock ∧ (Applied u.network tx → Applied s.network tx)) ?_
      ⟨le_rfl, id⟩ fun _ _ => trivial
    rintro u t ⟨hclock, hback⟩ -
    rcases next_cases host options u t with
      ⟨clock, network, hpass, hnext⟩ | ⟨k, network, i, hmove, hnext⟩
    · rw [hnext]
      refine ⟨le_trans hclock hpass.clock_le, fun happlied => hback (hpass.applied happlied ?_)⟩
      have := Nat.div_le_div_right (c := 1000) hclock
      omega
    · rw [hnext]
      refine ⟨hclock, fun happlied => hback ?_⟩
      obtain ⟨e, he, hop⟩ := happlied
      exact ⟨e, by rwa [setCall_network, hmove.history] at he, hop⟩
  exact hinv.2 h

/-- **Time-outs.**  When an invocation gives up, the time bound of its transaction has come: from
the next second on, the lag of the ledger aside, it is settled for good whether the transaction
takes effect. -/
theorem timedOut_settled (hhash : Function.Injective host.hash) {g : Origin σ}
    {us vs ws : List (SorobanTurn κ)} {k : κ} {tx : Transaction} {hash : String}
    (hend : (reached host options g us).calls k = .ended (some tx) (.error (.timedOut hash)))
    (hlater : (reached host options g us).clock + 1000 * (host.lag + 1) ≤
      (reached host options g (us ++ vs)).clock) :
    Applied (reached host options g (us ++ vs ++ ws)).network tx ↔
      Applied (reached host options g (us ++ vs)).network tx := by
  have htimed := (sane_reached options hhash g us).timed k
  rw [hend] at htimed
  have hmax : tx.maxTime ≤ (reached host options g us).clock / 1000 := htimed
  constructor
  · intro happlied
    unfold reached at happlied ⊢
    rw [run_append] at happlied
    refine applied_of_expired ?_ happlied
    show tx.maxTime + host.lag < (reached host options g (us ++ vs)).clock / 1000
    omega
  · rintro ⟨e, he, hop⟩
    have hmore := later_reached host options g
      (List.prefix_append (us ++ vs) ws)
    exact ⟨e, hmore.history.subset he, hop⟩

/-- What becomes of the late call of the sample is settled when its time has run out. -/
theorem timedOut_settled_sample :
    Applied (reached (sampleHost sampleHash) (fun _ => sampleOptions "count") sampleOrigin
        (lateTurns 30001 ++ [.tick 1000] ++ [.submit (sampleTx "count"), .close 0 36])).network
        (sampleTx "count") ↔
      Applied (reached (sampleHost sampleHash) (fun _ => sampleOptions "count") sampleOrigin
        (lateTurns 30001 ++ [.tick 1000])).network (sampleTx "count") := by
  refine timedOut_settled (k := false) sampleHash_injective
    (sample_timedOut sampleHash (by decide)) ?_
  unfold reached
  rw [run_append]
  exact le_rfl

/-- The transaction of the invocation may have reached the server. -/
def Delivered : Invocation → Prop
  | .sendAnswered _ response => response.status ≠ .ERROR
  | .poll _ _ _ => True
  | .pollAnswered _ _ _ _ => True
  | .wait _ _ _ _ => True
  | .ended _ (.error (.rejected _ _)) => False
  | .ended _ _ => True
  | _ => False

omit [DecidableEq κ] in
/-- A delivered transaction stays delivered. -/
theorem Moves.delivered {o : SorobanInvokeOptions} {clock : ℕ} {l l' : Network σ}
    {i i' : Invocation} (h : Moves host o clock l i l' i') {tx : Transaction}
    (htx : i.tx = some tx) (hi : Delivered i) : i'.tx = some tx ∧ Delivered i' := by
  cases h with
  | serveAccount publicKey => exact absurd hi not_false
  | serveSend => exact absurd hi not_false
  | serveTransaction => exact ⟨htx, trivial⟩
  | failAccount publicKey => exact absurd hi not_false
  | failSend => exact absurd hi not_false
  | failPoll => exact ⟨htx, trivial⟩
  | resume hcode =>
      cases hcode with
      | reject => exact absurd hi not_false
      | start _ => exact absurd hi not_false
      | build publicKey sequence => exact absurd hi not_false
      | rejected tx result herror => exact absurd herror hi
      | stay => exact ⟨htx, hi⟩
      | _ => exact ⟨htx, trivial⟩

omit [DecidableEq κ] in
/-- What a turn of an invocation adds to the received transactions is its own. -/
theorem Moves.received {o : SorobanInvokeOptions} {clock : ℕ} {l l' : Network σ}
    {i i' : Invocation} (h : Moves host o clock l i l' i') {tx : Transaction}
    (htx : tx ∈ l'.received) : tx ∈ l.received ∨ i'.tx = some tx ∧ Delivered i' := by
  have hsubmit : ∀ sent : Transaction, tx ∈ (l.submit sent).received →
      tx ∈ l.received ∨ sent = tx := by
    intro sent hmem
    rcases List.mem_append.mp hmem with hold | hnew
    · exact Or.inl hold
    · exact Or.inr (List.mem_singleton.mp hnew).symm
  cases h with
  | serveSend sent status errorResult hl =>
      rcases hl with rfl | ⟨rfl, rfl⟩
      · exact Or.inl htx
      · rcases hsubmit sent htx with hold | rfl
        · exact Or.inl hold
        · exact Or.inr ⟨rfl, show SendStatus.PENDING ≠ .ERROR by decide⟩
  | failSend sent hl =>
      rcases hl with rfl | rfl
      · exact Or.inl htx
      · rcases hsubmit sent htx with hold | rfl
        · exact Or.inl hold
        · exact Or.inr ⟨rfl, trivial⟩
  | _ => exact Or.inl htx

omit [DecidableEq κ] in
/-- A transaction is received when it is submitted. -/
theorem Passes.received {clock clock' : ℕ} {l l' : Network σ} {t : SorobanTurn κ}
    (h : Passes host clock l t clock' l') {tx : Transaction} (htx : tx ∈ l'.received) :
    tx ∈ l.received ∨ t = .submit tx := by
  cases h with
  | submit sent =>
      rcases List.mem_append.mp htx with hold | hnew
      · exact Or.inl hold
      · exact Or.inr (by rw [List.mem_singleton.mp hnew])
  | close i time _ =>
      rcases close_cases host.rules l i time with hsame | ⟨op, -, -, heq⟩
      · rw [hsame] at htx
        exact Or.inl htx
      · rw [heq] at htx
        exact Or.inl htx
  | _ => exact Or.inl htx

/-- The ledger has received nothing but what it was sent. -/
theorem received_from (g : Origin σ) (ts : List (SorobanTurn κ)) {tx : Transaction}
    (htx : tx ∈ (reached host options g ts).network.received) :
    tx ∈ g.received ∨ .submit tx ∈ ts ∨ ∃ j, ((reached host options g ts).calls j).tx = some tx ∧
      Delivered ((reached host options g ts).calls j) := by
  induction ts using List.reverseRecOn with
  | nil => exact Or.inl htx
  | append_singleton ts t ih =>
      have hlast : reached host options g (ts ++ [t]) =
          next host options (reached host options g ts) t := run_concat _ _ _ _
      -- what had been received stays accounted for
      have hkeep : tx ∈ (reached host options g ts).network.received →
          tx ∈ g.received ∨ .submit tx ∈ ts ++ [t] ∨
            ∃ j, ((reached host options g (ts ++ [t])).calls j).tx = some tx ∧
              Delivered ((reached host options g (ts ++ [t])).calls j) := by
        intro hold
        rcases ih hold with hg | hsubmit | ⟨j, hj, hdelivered⟩
        · exact Or.inl hg
        · exact Or.inr (Or.inl (List.mem_append_left _ hsubmit))
        · refine Or.inr (Or.inr ⟨j, ?_⟩)
          rw [hlast]
          rcases next_cases host options (reached host options g ts) t with
            ⟨clock, network, -, hnext⟩ | ⟨k, network, i, hmove, hnext⟩
          · rw [hnext]
            exact ⟨hj, hdelivered⟩
          · rw [hnext]
            by_cases hjk : j = k
            · subst hjk
              rw [setCall_calls]
              exact hmove.delivered hj hdelivered
            · rw [setCall_calls_of_ne hjk]
              exact ⟨hj, hdelivered⟩
      rcases next_cases host options (reached host options g ts) t with
        ⟨clock, network, hpass, hnext⟩ | ⟨k, network, i, hmove, hnext⟩
      · rw [hlast, hnext] at htx
        rcases hpass.received htx with hold | rfl
        · exact hkeep hold
        · exact Or.inr (Or.inl (List.mem_append_right _ (List.mem_singleton_self _)))
      · rw [hlast, hnext] at htx
        rcases hmove.received htx with hold | hnew
        · exact hkeep hold
        · refine Or.inr (Or.inr ⟨k, ?_⟩)
          rw [hlast, hnext, setCall_calls]
          exact hnew

/-- **Errors.**  A transaction that failed on chain stands at one place of the history and has no
effect there.  A transaction that was rejected is applied only if the ledger has it from
somebody else. -/
theorem invoke_throws (hhash : Function.Injective host.hash) {g : Origin σ}
    {ts : List (SorobanTurn κ)} {k : κ} {tx : Transaction} {e : SorobanError}
    (hend : (reached host options g ts).calls k = .ended (some tx) (.error e)) :
    (∀ hash result, e = .failed hash result →
      ∃ i entry, (reached host options g ts).network.history[i]? = some entry ∧ entry.op = tx ∧
        (∀ j f, (reached host options g ts).network.history[j]? = some f → f.op = tx → j = i) ∧
        host.exec (host.rules.replay g.state
          ((reached host options g ts).network.history.take i)) tx entry.time = none ∧
        host.rules.replay g.state ((reached host options g ts).network.history.take (i + 1)) =
          host.rules.replay g.state ((reached host options g ts).network.history.take i)) ∧
    (∀ method result, e = .rejected method result →
      Applied (reached host options g ts).network tx →
        tx ∈ g.received ∨ .submit tx ∈ ts ∨
          ∃ j, j ≠ k ∧ ((reached host options g ts).calls j).tx = some tx) := by
  have hsane := sane_reached options hhash g ts
  have hsound := hsane.sound k
  rw [hend] at hsound
  constructor
  · rintro hash result rfl
    obtain ⟨-, -, entry, hmem, rfl, hout⟩ := hsound
    obtain ⟨i, hi⟩ := List.mem_iff_getElem?.mp hmem
    obtain ⟨hexec, hreplay⟩ := hsane.ledger.exec_of_failure hi hout
    exact ⟨i, entry, hi, rfl, fun j f hj hf => hsane.place_unique hi hj hf, hexec, hreplay⟩
  · rintro method result rfl ⟨entry, hmem, rfl⟩
    rcases received_from g ts (hsane.ledger.received entry hmem) with
      hg | hsubmit | ⟨j, hj, hdelivered⟩
    · exact Or.inl hg
    · exact Or.inr (Or.inl hsubmit)
    · refine Or.inr (Or.inr ⟨j, ?_, hj⟩)
      rintro rfl
      rw [hend] at hdelivered
      exact hdelivered

/-- The call of the sample that panics is in the history. -/
theorem invoke_throws_sample :
    ∃ (i : ℕ) (entry : Entry Transaction (Option ScVal)),
      (reached (sampleHost sampleHash) (fun _ => sampleOptions "count off") sampleOrigin
        sampleTurns).network.history[i]? = some entry ∧ entry.op = sampleTx "count off" := by
  obtain ⟨i, entry, hi, hop, -⟩ := (invoke_throws (k := false) sampleHash_injective
    (sample_fails sampleHash)).1 _ _ rfl
  exact ⟨i, entry, hi, hop⟩

/-! ## The calls of the API -/

/-- The ledger runs a contract call as `call` does. -/
def Executes {T : Type} (host : SorobanHost (World T))
    (call : Transaction → ℕ → World T → Result (Option ScVal × World T)) : Prop :=
  ∀ w tx time, host.exec w tx time =
    match call tx time w with
    | .ok (returnValue, w') => some (w', returnValue)
    | .error _ => none

omit [DecidableEq κ] in
/-- **Refinement.**  On a deployment, an invocation that takes effect is one `StellarHost.invoke`:
of a transaction that it built, in the state that the history before it has made. -/
theorem EffectAt.invoke {T : Type} {host : SorobanHost (World T)}
    {call : Transaction → ℕ → World T → Result (Option ScVal × World T)}
    (hexec : Executes host call) {w₀ : World T} {o : SorobanInvokeOptions}
    {receipt : SorobanInvokeReceipt} {l : Network (World T)} {i : ℕ}
    (h : EffectAt host w₀ o receipt l i) :
    ∃ tx time returnValue, host.Builds o tx ∧
      receipt = host.receipt (host.hash tx) returnValue ∧
      StellarHost.invoke (host.rules.replay w₀ (l.history.take i))
          (.ok (call tx time (host.rules.replay w₀ (l.history.take i)))) =
        (.ok returnValue, host.rules.replay w₀ (l.history.take (i + 1))) := by
  obtain ⟨entry, returnValue, -, hbuilds, hreceipt, hcall⟩ := h
  refine ⟨entry.op, entry.time, returnValue, hbuilds, hreceipt, ?_⟩
  rw [hexec] at hcall
  cases hresult : call entry.op entry.time (host.rules.replay w₀ (l.history.take i)) with
  | error p =>
      rw [hresult] at hcall
      cases hcall
  | ok r =>
      rw [hresult] at hcall
      obtain ⟨hworld, hvalue⟩ := Prod.mk.injEq _ _ _ _ ▸ Option.some.inj hcall
      rw [← hworld, ← hvalue]
      rfl

end SorobanRun

end CarbonVeritas
