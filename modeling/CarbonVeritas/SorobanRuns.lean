/-
# Turns of the Soroban client

What an invocation knows of the ledger wherever it stands (`Sound`), what one turn can do
(`next_cases`), and what holds in every reachable state (`sane_reached`) and between two of them
(`later_reached`).
-/
import CarbonVeritas.SorobanClient

namespace CarbonVeritas

open SequencedLedger Transition

/-! ## What an invocation knows -/

/-- The invocation has not been told the sequence number of its account. -/
def Invocation.Unserved : Invocation → Prop
  | .ready => True
  | .account _ => True
  | _ => False

/-- The account and the sequence number that the transaction of the invocation uses. -/
def Invocation.numbered : Invocation → Option (String × ℕ)
  | .accountAnswered publicKey sequence => some (publicKey, sequence + 1)
  | i => i.tx.map fun tx => (tx.source, tx.sequence)

namespace SorobanHost

variable {σ : Type} {host : SorobanHost σ} {o : SorobanInvokeOptions} {l l' : Network σ}

/-- The transaction is one that an invocation with these options builds. -/
def Builds (host : SorobanHost σ) (o : SorobanInvokeOptions) (tx : Transaction) : Prop :=
  ∃ publicKey sequence now, host.fromSecret o.signerSecret = some publicKey ∧
    tx = host.buildTransaction o publicKey sequence now

/-- The transaction has been applied with this outcome. -/
def Settled (l : Network σ) (tx : Transaction) (outcome : Option (Option ScVal)) : Prop :=
  ∃ e ∈ l.history, e.op = tx ∧ e.outcome = outcome

/-- What is settled stays settled. -/
theorem Settled.mono {tx : Transaction} {outcome : Option (Option ScVal)}
    (hgrown : l.history <+: l'.history) (h : Settled l tx outcome) : Settled l' tx outcome := by
  obtain ⟨e, he, hop, hout⟩ := h
  exact ⟨e, hgrown.subset he, hop, hout⟩

/-- What an answer of `getTransaction` says about the transaction. -/
def Reports (l : Network σ) (tx : Transaction) : GetTransactionResponse → Prop
  | .success returnValue => Settled l tx (some returnValue)
  | .failed _ => Settled l tx none
  | .notFound => True

/-- How an invocation with these options ends. -/
def Ends (host : SorobanHost σ) (o : SorobanInvokeOptions) (l : Network σ) (tx : Transaction) :
    Except SorobanError SorobanInvokeReceipt → Prop
  | .ok receipt =>
      ∃ rv, receipt = host.receipt (host.hash tx) rv ∧ Settled l tx (some rv)
  | .error .sdk => False
  | .error .rpc => True
  | .error (.rejected method _) => method = o.method
  | .error (.failed hash _) => hash = host.hash tx ∧ Settled l tx none
  | .error (.timedOut hash) => hash = host.hash tx

/-- What an invocation knows is so. -/
def Sound (host : SorobanHost σ) (o : SorobanInvokeOptions) (l : Network σ) : Invocation → Prop
  | .ready => True
  | .account publicKey => host.fromSecret o.signerSecret = some publicKey
  | .accountAnswered publicKey _ => host.fromSecret o.signerSecret = some publicKey
  | .send tx => host.Builds o tx
  | .sendAnswered tx response => host.Builds o tx ∧ response.hash = host.hash tx
  | .poll tx hash _ => host.Builds o tx ∧ hash = host.hash tx
  | .pollAnswered tx hash _ response =>
      host.Builds o tx ∧ hash = host.hash tx ∧ Reports l tx response
  | .wait tx hash _ _ => host.Builds o tx ∧ hash = host.hash tx
  | .ended (some tx) result => host.Builds o tx ∧ host.Ends o l tx result
  | .ended none result => result = .error .sdk ∨ result = .error .rpc

/-- What an answer reports stays true. -/
theorem Reports.mono {tx : Transaction} {response : GetTransactionResponse}
    (hgrown : l.history <+: l'.history) (h : Reports l tx response) : Reports l' tx response := by
  cases response with
  | success rv => exact Settled.mono hgrown h
  | failed x => exact Settled.mono hgrown h
  | notFound => trivial

/-- An end stays true of the network. -/
theorem Ends.mono {tx : Transaction} {result : Except SorobanError SorobanInvokeReceipt}
    (hgrown : l.history <+: l'.history) (h : host.Ends o l tx result) :
    host.Ends o l' tx result := by
  cases result with
  | ok receipt =>
      obtain ⟨rv, hreceipt, hsettled⟩ := h
      exact ⟨rv, hreceipt, hsettled.mono hgrown⟩
  | error e =>
      cases e with
      | failed hash x => exact ⟨h.1, h.2.mono hgrown⟩
      | _ => exact h

/-- A longer history takes nothing back. -/
theorem Sound.mono {i : Invocation} (hgrown : l.history <+: l'.history) (h : host.Sound o l i) :
    host.Sound o l' i := by
  cases i with
  | pollAnswered tx hash started response => exact ⟨h.1, h.2.1, h.2.2.mono hgrown⟩
  | ended tx result =>
      cases tx with
      | none => exact h
      | some tx => exact ⟨h.1, h.2.mono hgrown⟩
  | _ => exact h

/-- The ledger is asked for a hash, and hashes identify transactions. -/
theorem reports_lookup (hhash : Function.Injective host.hash) (l : Network σ) (tx : Transaction)
    (resultXdr : Option String) : Reports l tx (host.lookup l (host.hash tx) resultXdr) := by
  unfold lookup
  cases hfind : l.history.find? fun e => host.hash e.op = host.hash tx with
  | none => trivial
  | some e =>
      have hop : e.op = tx := hhash (by simpa using List.find?_some hfind)
      have hmem := List.mem_of_find?_eq_some hfind
      simp only []
      cases hout : e.outcome with
      | some rv => exact ⟨e, hmem, hop, hout⟩
      | none => exact ⟨e, hmem, hop, hout⟩

/-- What the code makes of where an invocation stands. -/
inductive Resumes (host : SorobanHost σ) (o : SorobanInvokeOptions) (now : ℕ) :
    Invocation → Invocation → Prop where
  | reject : Resumes host o now .ready (.ended none (.error .sdk))
  | start {publicKey : String} (h : host.fromSecret o.signerSecret = some publicKey) :
      Resumes host o now .ready (.account publicKey)
  | build (publicKey : String) (sequence : ℕ) :
      Resumes host o now (.accountAnswered publicKey sequence)
        (.send (host.buildTransaction o publicKey sequence now))
  | rejected (tx : Transaction) {response : SendTransactionResponse} (result : String)
      (h : response.status = .ERROR) :
      Resumes host o now (.sendAnswered tx response)
        (.ended (some tx) (.error (.rejected o.method result)))
  | sent (tx : Transaction) {response : SendTransactionResponse} (h : response.status ≠ .ERROR) :
      Resumes host o now (.sendAnswered tx response) (.poll tx response.hash now)
  | success (tx : Transaction) (hash : String) (started : ℕ) (returnValue : Option ScVal) :
      Resumes host o now (.pollAnswered tx hash started (.success returnValue))
        (.ended (some tx) (.ok (host.receipt hash returnValue)))
  | failed (tx : Transaction) (hash : String) (started : ℕ) (resultXdr : Option String) :
      Resumes host o now (.pollAnswered tx hash started (.failed resultXdr))
        (.ended (some tx) (.error (.failed hash (resultXdr.getD "no result XDR"))))
  | timedOut (tx : Transaction) (hash : String) {started : ℕ} (h : timeoutMs < now - started) :
      Resumes host o now (.pollAnswered tx hash started .notFound)
        (.ended (some tx) (.error (.timedOut hash)))
  | again (tx : Transaction) (hash : String) {started : ℕ} (h : now - started ≤ timeoutMs) :
      Resumes host o now (.pollAnswered tx hash started .notFound)
        (.wait tx hash started (now + pollMs))
  | fire (tx : Transaction) (hash : String) (started : ℕ) {due : ℕ} (h : due ≤ now) :
      Resumes host o now (.wait tx hash started due) (.poll tx hash started)
  | stay (i : Invocation) : Resumes host o now i i

/-- **Inversion.**  The code does one of these. -/
theorem resumes_resume (host : SorobanHost σ) (o : SorobanInvokeOptions) (now : ℕ)
    (i : Invocation) : host.Resumes o now i (host.resume o now i) := by
  cases i with
  | ready =>
      unfold resume
      cases hkey : host.fromSecret o.signerSecret with
      | none => exact .reject
      | some publicKey =>
          by_cases hid : host.isContractId o.contractId
          · simp only [hid, if_true]
            exact .start hkey
          · simp only [hid]
            exact .reject
  | accountAnswered publicKey sequence => exact .build publicKey sequence
  | sendAnswered tx response =>
      by_cases herror : response.status = .ERROR
      · simp only [resume, if_pos herror]
        exact .rejected tx _ herror
      · simp only [resume, if_neg herror]
        exact .sent tx herror
  | pollAnswered tx hash started response =>
      cases response with
      | success rv => exact .success tx hash started rv
      | failed x => exact .failed tx hash started x
      | notFound =>
          by_cases htime : now - started > timeoutMs
          · simp only [resume, if_pos htime]
            exact .timedOut tx hash htime
          · simp only [resume, if_neg htime]
            exact .again tx hash (not_lt.mp htime)
  | wait tx hash started due =>
      by_cases hdue : due ≤ now
      · simp only [resume, if_pos hdue]
        exact .fire tx hash started hdue
      · simp only [resume, if_neg hdue]
        exact .stay _
  | _ => exact .stay _

/-- The code draws its conclusions from what it knows. -/
theorem Resumes.sound {i i' : Invocation} {now : ℕ} (h : host.Resumes o now i i')
    (hi : host.Sound o l i) : host.Sound o l i' := by
  cases h with
  | reject => exact Or.inl rfl
  | start hkey => exact hkey
  | build publicKey sequence => exact ⟨publicKey, sequence, now, hi, rfl⟩
  | rejected tx result _ => exact ⟨hi.1, rfl⟩
  | sent tx _ => exact hi
  | success tx hash started rv =>
      obtain ⟨hbuilds, rfl, hsettled⟩ := hi
      exact ⟨hbuilds, rv, rfl, hsettled⟩
  | failed tx hash started x => exact hi
  | timedOut tx hash _ => exact ⟨hi.1, hi.2.1⟩
  | again tx hash _ => exact ⟨hi.1, hi.2.1⟩
  | fire tx hash started _ => exact hi
  | stay => exact hi

/-- The code does not change the number of its transaction. -/
theorem Resumes.numbered {i i' : Invocation} {now : ℕ} (h : host.Resumes o now i i') :
    i'.numbered = i.numbered := by
  cases h with
  | _ => rfl

end SorobanHost

/-! ## One turn -/

namespace SorobanRun

open SorobanHost

variable {κ σ : Type} {host : SorobanHost σ} {options : κ → SorobanInvokeOptions}

/-- What a turn of an invocation does: where it stood, the network after it, and where it
stands. -/
inductive Moves (host : SorobanHost σ) (o : SorobanInvokeOptions) (clock : ℕ) (l : Network σ) :
    Invocation → Network σ → Invocation → Prop where
  | serveAccount (publicKey : String) :
      Moves host o clock l (.account publicKey) l
        (.accountAnswered publicKey (l.number publicKey))
  | serveSend {l' : Network σ} (tx : Transaction) (status : SendStatus)
      (errorResult : Option String) (hl : l' = l ∨ status = .PENDING ∧ l' = l.submit tx) :
      Moves host o clock l (.send tx) l' (.sendAnswered tx ⟨status, host.hash tx, errorResult⟩)
  | serveTransaction {response : GetTransactionResponse} (tx : Transaction) (hash : String)
      (started : ℕ)
      (hresponse : response = .notFound ∨ ∃ x, response = host.lookup l hash x) :
      Moves host o clock l (.poll tx hash started) l (.pollAnswered tx hash started response)
  | failAccount (publicKey : String) :
      Moves host o clock l (.account publicKey) l (.ended none (.error .rpc))
  | failSend {l' : Network σ} (tx : Transaction) (hl : l' = l ∨ l' = l.submit tx) :
      Moves host o clock l (.send tx) l' (.ended (some tx) (.error .rpc))
  | failPoll (tx : Transaction) (hash : String) (started : ℕ) :
      Moves host o clock l (.poll tx hash started) l (.ended (some tx) (.error .rpc))
  | resume {i i' : Invocation} (h : host.Resumes o clock i i') : Moves host o clock l i l i'

/-- What a turn of anybody else does to the clock and the network. -/
inductive Passes (host : SorobanHost σ) (clock : ℕ) (l : Network σ) :
    SorobanTurn κ → ℕ → Network σ → Prop where
  | idle (t : SorobanTurn κ) : Passes host clock l t clock l
  | tick (ms : ℕ) : Passes host clock l (.tick ms) (clock + ms) l
  | submit (tx : Transaction) : Passes host clock l (.submit tx) clock (l.submit tx)
  | close (i time : ℕ) (h : clock / 1000 ≤ time + host.lag) :
      Passes host clock l (.close i time) clock (l.close host.rules i time)

variable [DecidableEq κ]

/-- **Inversion.**  A turn is one of an invocation, or of somebody else. -/
theorem next_cases (host : SorobanHost σ) (options : κ → SorobanInvokeOptions)
    (s : SorobanRun κ σ) (t : SorobanTurn κ) :
    (∃ clock network, Passes host s.clock s.network t clock network ∧
        next host options s t = { s with clock, network }) ∨
      ∃ k network i, Moves host (options k) s.clock s.network (s.calls k) network i ∧
        next host options s t = { s with network := network }.setCall k i := by
  have hidle : ∃ clock network, Passes host s.clock s.network t clock network ∧
      s = { s with clock, network } := ⟨_, _, .idle t, rfl⟩
  cases t with
  | tick ms => exact Or.inl ⟨_, _, .tick ms, rfl⟩
  | submit tx => exact Or.inl ⟨_, _, .submit tx, rfl⟩
  | close i time =>
      by_cases htime : s.clock / 1000 ≤ time + host.lag
      · exact Or.inl ⟨_, _, .close i time htime, if_pos htime⟩
      · rw [next, if_neg htime]
        exact Or.inl hidle
  | serveAccount k =>
      cases hcall : s.calls k with
      | account publicKey =>
          refine Or.inr ⟨k, s.network, .accountAnswered publicKey (s.network.number publicKey),
            ?_, by simp only [next, hcall]⟩
          rw [hcall]
          exact .serveAccount publicKey
      | _ =>
          simp only [next, hcall]
          exact Or.inl hidle
  | serveSend k status errorResult =>
      cases hcall : s.calls k with
      | send tx =>
          refine Or.inr ⟨k, _, _, ?_, by simp only [next, hcall, serveSend]; rfl⟩
          rw [hcall]
          refine .serveSend tx status errorResult ?_
          by_cases hstatus : status = .PENDING
          · exact Or.inr ⟨hstatus, if_pos hstatus⟩
          · exact Or.inl (if_neg hstatus)
      | _ =>
          simp only [next, hcall]
          exact Or.inl hidle
  | serveTransaction k caughtUp resultXdr =>
      cases hcall : s.calls k with
      | poll tx hash started =>
          refine Or.inr ⟨k, s.network, _, ?_, by simp only [next, hcall]; rfl⟩
          rw [hcall]
          refine .serveTransaction tx hash started ?_
          cases caughtUp with
          | true => exact Or.inr ⟨resultXdr, if_pos rfl⟩
          | false => exact Or.inl (if_neg (by decide))
      | _ =>
          simp only [next, hcall]
          exact Or.inl hidle
  | fail k arrived =>
      cases hcall : s.calls k with
      | account publicKey =>
          refine Or.inr ⟨k, s.network, _, ?_, by simp only [next, failRequest, hcall]; rfl⟩
          rw [hcall]
          exact .failAccount publicKey
      | send tx =>
          refine Or.inr ⟨k, _, _, ?_, by simp only [next, failRequest, hcall]; rfl⟩
          rw [hcall]
          refine .failSend tx ?_
          cases arrived with
          | true => exact Or.inr (if_pos rfl)
          | false => exact Or.inl (if_neg (by decide))
      | poll tx hash started =>
          refine Or.inr ⟨k, s.network, _, ?_, by simp only [next, failRequest, hcall]; rfl⟩
          rw [hcall]
          exact .failPoll tx hash started
      | _ =>
          simp only [next, failRequest, hcall]
          exact Or.inl hidle
  | resume k => exact Or.inr ⟨k, _, _, .resume (resumes_resume _ _ _ _), rfl⟩

/-! ## What every turn keeps -/

section Turns

variable {o : SorobanInvokeOptions} {clock clock' : ℕ} {l l' : Network σ} {i i' : Invocation}
  {t : SorobanTurn κ} {s₀ : σ}

omit [DecidableEq κ]

/-- A move leaves the network, or submits a transaction to it. -/
theorem Moves.network (h : Moves host o clock l i l' i') :
    l' = l ∨ ∃ tx, l' = l.submit tx := by
  cases h with
  | serveSend tx _ _ hl =>
      rcases hl with rfl | ⟨-, rfl⟩
      · exact Or.inl rfl
      · exact Or.inr ⟨tx, rfl⟩
  | failSend tx hl =>
      rcases hl with rfl | rfl
      · exact Or.inl rfl
      · exact Or.inr ⟨tx, rfl⟩
  | _ => exact Or.inl rfl

/-- A move settles nothing by itself. -/
theorem Moves.history (h : Moves host o clock l i l' i') : l'.history = l.history := by
  rcases h.network with rfl | ⟨tx, rfl⟩
  · rfl
  · rfl

/-- A move changes no sequence number. -/
theorem Moves.number (h : Moves host o clock l i l' i') : l'.number = l.number := by
  rcases h.network with rfl | ⟨tx, rfl⟩
  · rfl
  · rfl

/-- A move keeps the network consistent. -/
theorem Moves.ledger (h : Moves host o clock l i l' i') (hl : Consistent host.rules s₀ l) :
    Consistent host.rules s₀ l' := by
  rcases h.network with rfl | ⟨tx, rfl⟩
  · exact hl
  · exact hl.submit tx

/-- The turns of others only add to the history. -/
theorem Passes.history (h : Passes host clock l t clock' l') : l.history <+: l'.history := by
  cases h with
  | close i time _ => exact history_close_prefix _ _ _ _
  | _ => exact List.prefix_rfl

/-- The turns of others do not lower a sequence number. -/
theorem Passes.number_le (h : Passes host clock l t clock' l') (a : String) :
    l.number a ≤ l'.number a := by
  cases h with
  | close i time _ => exact number_le_close _ _ _ _
  | _ => exact le_rfl

/-- The turns of others keep the network consistent. -/
theorem Passes.ledger (h : Passes host clock l t clock' l') (hl : Consistent host.rules s₀ l) :
    Consistent host.rules s₀ l' := by
  cases h with
  | submit tx => exact hl.submit tx
  | close i time _ => exact hl.close i time
  | _ => exact hl

/-- No turn sets the clock back. -/
theorem Passes.clock_le (h : Passes host clock l t clock' l') : clock ≤ clock' := by
  cases h with
  | tick ms => exact Nat.le_add_right _ _
  | _ => exact le_rfl

/-- A move keeps what the invocation knows true. -/
theorem Moves.sound (hhash : Function.Injective host.hash) (h : Moves host o clock l i l' i')
    (hi : host.Sound o l i) : host.Sound o l' i' := by
  cases h with
  | serveAccount publicKey => exact hi
  | serveSend tx status errorResult _ => exact ⟨hi, rfl⟩
  | serveTransaction tx hash started hresponse =>
      obtain ⟨hbuilds, rfl⟩ := hi
      refine ⟨hbuilds, rfl, ?_⟩
      rcases hresponse with rfl | ⟨x, rfl⟩
      · trivial
      · exact reports_lookup hhash _ _ _
  | failAccount publicKey => exact Or.inr rfl
  | failSend tx _ => exact ⟨hi, trivial⟩
  | failPoll tx hash started => exact ⟨hi.1, trivial⟩
  | resume hcode => exact hcode.sound hi

/-- The time bound of a transaction against the time its result is waited for. -/
def Timed (clock : ℕ) : Invocation → Prop
  | .send tx => tx.maxTime ≤ clock / 1000 + 30
  | .sendAnswered tx _ => tx.maxTime ≤ clock / 1000 + 30
  | .poll tx _ started => tx.maxTime ≤ started / 1000 + 30
  | .pollAnswered tx _ started _ => tx.maxTime ≤ started / 1000 + 30
  | .wait tx _ started _ => tx.maxTime ≤ started / 1000 + 30
  | .ended (some tx) (.error (.timedOut _)) => tx.maxTime ≤ clock / 1000
  | _ => True

/-- A time bound that is near enough stays so while time passes. -/
theorem Timed.mono (hclock : clock ≤ clock') (h : Timed clock i) : Timed clock' i := by
  have hseconds := Nat.div_le_div_right (c := 1000) hclock
  cases i with
  | send tx => exact le_trans h (Nat.add_le_add_right hseconds 30)
  | sendAnswered tx response => exact le_trans h (Nat.add_le_add_right hseconds 30)
  | ended tx result =>
      rcases tx with _ | tx
      · trivial
      · rcases result with e | receipt
        · cases e with
          | timedOut hash => exact le_trans h hseconds
          | _ => trivial
        · trivial
  | _ => exact h

/-- Waiting longer than the time-out outlasts the time bound. -/
theorem Timed.resumes (h : host.Resumes o clock i i') (hi : Timed clock i) : Timed clock i' := by
  cases h with
  | build publicKey sequence => exact le_rfl
  | sent tx _ => exact hi
  | timedOut tx hash hlate =>
      rename_i started
      have hmax : tx.maxTime ≤ started / 1000 + 30 := hi
      show tx.maxTime ≤ clock / 1000
      simp only [timeoutMs] at hlate
      omega
  | again tx hash _ => exact hi
  | fire tx hash started _ => exact hi
  | stay => exact hi
  | _ => trivial

/-- A move keeps the time bounds near enough. -/
theorem Moves.timed (h : Moves host o clock l i l' i') (hi : Timed clock i) : Timed clock i' := by
  cases h with
  | resume hcode => exact hi.resumes hcode
  | serveSend tx _ _ _ => exact hi
  | serveTransaction tx hash started _ => exact hi
  | _ => trivial

/-- The number of a transaction is past the number that its account had before the invocation
was told it. -/
theorem Moves.numbered (h : Moves host o clock l i l' i') {a : String} {n : ℕ}
    (hn : i'.numbered = some (a, n)) : i.numbered = some (a, n) ∨ n = l.number a + 1 := by
  cases h with
  | serveAccount publicKey =>
      obtain ⟨rfl, rfl⟩ := Prod.mk.injEq _ _ _ _ ▸ Option.some.inj hn
      exact Or.inr rfl
  | failAccount publicKey => cases hn
  | serveSend tx _ _ _ => exact Or.inl hn
  | serveTransaction tx hash started _ => exact Or.inl hn
  | failSend tx _ => exact Or.inl hn
  | failPoll tx hash started => exact Or.inl hn
  | resume hcode => exact Or.inl (hcode.numbered ▸ hn)

end Turns

/-! ## Runs -/

variable (host options)

/-- The ledger before the first invocation. -/
structure Origin (σ : Type) where
  state : σ
  clock : ℕ
  received : List Transaction
  number : String → ℕ

def start (g : Origin σ) : SorobanRun κ σ where
  clock := g.clock
  network := { received := g.received, state := g.state, number := g.number, history := [] }
  calls := fun _ => .ready

/-- The state after the turns `ts`. -/
def reached (g : Origin σ) (ts : List (SorobanTurn κ)) : SorobanRun κ σ :=
  run (next host options) (start g) ts

/-- What holds in every state that is reached from the ledger `s₀`. -/
structure Sane (s₀ : σ) (s : SorobanRun κ σ) : Prop where
  ledger : Consistent host.rules s₀ s.network
  sound : ∀ k, host.Sound (options k) s.network (s.calls k)
  timed : ∀ k, Timed s.clock (s.calls k)

/-- The state `s` is later than `u`. -/
structure Later (u s : SorobanRun κ σ) : Prop where
  clock_le : u.clock ≤ s.clock
  history : u.network.history <+: s.network.history
  number_le : ∀ a, u.network.number a ≤ s.network.number a
  numbered : ∀ k, (u.calls k).Unserved → ∀ a n, (s.calls k).numbered = some (a, n) →
    u.network.number a < n
  ended : ∀ k tx result, u.calls k = .ended tx result → s.calls k = .ended tx result

variable {host options} {s₀ : σ} {s u : SorobanRun κ σ}

omit [DecidableEq κ] in
/-- A run starts sane. -/
theorem sane_start (g : Origin σ) : Sane host options g.state (start g : SorobanRun κ σ) where
  ledger := consistent_initial g.received g.number
  sound _ := trivial
  timed _ := trivial

/-- Every turn keeps the run sane. -/
theorem Sane.next (hhash : Function.Injective host.hash) (h : Sane host options s₀ s)
    (t : SorobanTurn κ) : Sane host options s₀ (next host options s t) := by
  rcases next_cases host options s t with
    ⟨clock, network, hpass, hnext⟩ | ⟨k, network, i, hmove, hnext⟩
  · rw [hnext]
    exact ⟨hpass.ledger h.ledger, fun k => (h.sound k).mono hpass.history,
      fun k => (h.timed k).mono hpass.clock_le⟩
  · rw [hnext]
    refine ⟨hmove.ledger h.ledger, fun j => ?_, fun j => ?_⟩
    · by_cases hj : j = k
      · subst hj
        rw [setCall_calls]
        exact hmove.sound hhash (h.sound j)
      · rw [setCall_calls_of_ne hj]
        exact (h.sound j).mono (hmove.history ▸ List.prefix_rfl)
    · by_cases hj : j = k
      · subst hj
        rw [setCall_calls]
        exact hmove.timed (h.timed j)
      · rw [setCall_calls_of_ne hj]
        exact h.timed j

omit [DecidableEq κ] in
/-- An invocation that has ended stays as it is. -/
theorem Moves.ended {o : SorobanInvokeOptions} {clock : ℕ} {l l' : Network σ} {i' : Invocation}
    {tx : Option Transaction} {result : Except SorobanError SorobanInvokeReceipt}
    (h : Moves host o clock l (.ended tx result) l' i') : i' = .ended tx result := by
  cases h with
  | resume hcode =>
      cases hcode with
      | stay => rfl

omit [DecidableEq κ] in
/-- An invocation that has not been served has no sequence number. -/
theorem numbered_of_unserved {i : Invocation} (h : i.Unserved) : i.numbered = none := by
  cases i with
  | ready => rfl
  | account publicKey => rfl
  | _ => exact absurd h not_false

omit [DecidableEq κ] in
/-- No turn passes. -/
theorem Later.refl (s : SorobanRun κ σ) : Later s s where
  clock_le := le_rfl
  history := List.prefix_rfl
  number_le _ := le_rfl
  numbered k hk a n hn := by
    rw [numbered_of_unserved hk] at hn
    cases hn
  ended _ _ _ h := h

/-- One more turn is later. -/
theorem Later.next (h : Later u s) (t : SorobanTurn κ) : Later u (next host options s t) := by
  rcases next_cases host options s t with
    ⟨clock, network, hpass, hnext⟩ | ⟨k, network, i, hmove, hnext⟩
  · rw [hnext]
    exact ⟨le_trans h.clock_le hpass.clock_le, h.history.trans hpass.history,
      fun a => le_trans (h.number_le a) (hpass.number_le a), h.numbered, h.ended⟩
  · rw [hnext]
    refine ⟨h.clock_le, h.history.trans (hmove.history ▸ List.prefix_rfl), fun a => ?_,
      fun j hj a n hn => ?_, fun j tx result hj => ?_⟩
    · show _ ≤ network.number a
      rw [hmove.number]
      exact h.number_le a
    · by_cases hjk : j = k
      · subst hjk
        rw [setCall_calls] at hn
        rcases hmove.numbered hn with hold | rfl
        · exact h.numbered j hj a n hold
        · exact Nat.lt_succ_of_le (h.number_le a)
      · rw [setCall_calls_of_ne hjk] at hn
        exact h.numbered j hj a n hn
    · have hold := h.ended j tx result hj
      by_cases hjk : j = k
      · subst hjk
        rw [setCall_calls]
        rw [hold] at hmove
        exact hmove.ended
      · rw [setCall_calls_of_ne hjk]
        exact hold

/-- Every run stays sane. -/
theorem sane_reached (options : κ → SorobanInvokeOptions) (hhash : Function.Injective host.hash)
    (g : Origin σ) (ts : List (SorobanTurn κ)) :
    Sane host options g.state (reached host options g ts) :=
  run_invariant (C := fun _ _ => True) (fun _ t h _ => h.next hhash t) (sane_start g)
    fun _ _ => trivial

/-- Further turns lead to a later state. -/
theorem later_reached (host : SorobanHost σ) (options : κ → SorobanInvokeOptions) (g : Origin σ)
    {us ts : List (SorobanTurn κ)} (h : us <+: ts) :
    Later (reached host options g us) (reached host options g ts) := by
  obtain ⟨vs, rfl⟩ := h
  unfold reached
  rw [run_append]
  exact run_invariant (C := fun _ _ => True) (fun _ t h _ => h.next t) (Later.refl _)
    fun _ _ => trivial

end SorobanRun

end CarbonVeritas
