/-
# The transactions of the API

A call of `StellarService` is one transaction of the deployment, signed with the key that is
configured for the call, or it changes nothing (`answer_eq_apply`).  So whatever is requested of
the API, in any interleaving and together with the transactions of other clients, the contracts
pass through a run of the deployment (`chain_refines`), and what holds of all such runs holds of
the API.

`custody` : the API can take nothing from a user.  As long as an account signs no transaction of
its own, its credits stay with it and its balances do not fall.
-/
import CarbonVeritas.StellarService
import CarbonVeritas.Ownership
import CarbonVeritas.TokenFlows

namespace CarbonVeritas

open Transition

/-- `updateRegistryRoot(..)` -/
def StellarHost.updateRegistryRoot {T : Type} (host : StellarHost T)
    (admin registry root : String) (blockHeight : JsNumber) (n : ℕ) (w : World T) :
    Except ServiceError String × World T :=
  invoke w do
    let admin ← host.address admin
    let root ← bytes32 root
    let blockHeight ← host.u64 (.number blockHeight)
    return (onBridge w ((w.bridge.updateRegistryRoot (host.env host.admin n) admin
      (ApiScVal.utf8 registry) root blockHeight).map fun r => (r.1, r.2, w.ledger))).map fun r =>
        (host.txHash n, r.2)

/-- The API with its two keys, which are those of accounts. -/
structure SigningHost (T : Type) extends StellarHost T where
  admin_external : ¬ ch.Deployed admin
  verifier_external : ¬ ch.Deployed verifier

namespace SigningHost

variable {T α : Type} (host : SigningHost T) {w w' : World T} {n : ℕ}

/-! ## One call -/

/-- The two secret keys. -/
inductive Key where
  | admin
  | verifier

def keyAccount : Key → Address
  | .admin => host.admin
  | .verifier => host.verifier

/-- The key that a call is signed with. -/
def keyOf : StellarCall → Key
  | .approveAndMint _ _ _ => .verifier
  | .rejectCredit _ _ _ => .verifier
  | _ => .admin

/-- No contract has an account of the API. -/
theorem keyAccount_external (key : Key) : ¬ host.ch.Deployed (host.keyAccount key) := by
  cases key with
  | admin => exact host.admin_external
  | verifier => exact host.verifier_external

/-- The transaction of the query `n` that calls a contract. -/
def transaction (key : Key) (n : ℕ) (onChain : Call) : Tx host.ch where
  signers := [host.keyAccount key]
  external a ha := by
    rw [List.mem_singleton.mp ha]
    exact host.keyAccount_external key
  timestamp := host.timestamp n
  sequence := host.sequence n
  call := onChain

@[simp] theorem transaction_call (key : Key) (n : ℕ) (onChain : Call) :
    (host.transaction key n onChain).call = onChain := rfl

@[simp] theorem transaction_env (key : Key) (n : ℕ) (onChain : Call) :
    (host.transaction key n onChain).env = host.env (host.keyAccount key) n := rfl

variable {host} {key : Key} {β : Type}

/-- Whatever the contract returns, it leaves the deployment as it was, or as one transaction signed
with the key leaves it. -/
def Settles (host : SigningHost T) (key : Key) (n : ℕ) (w : World T)
    (call : Result (α × World T)) : Prop :=
  ∀ a w', call = .ok (a, w') →
    w' = w ∨ ∃ onChain, World.exec host.ch w (host.transaction key n onChain) = .ok w'

/-- So does the call once its arguments are encoded. -/
def Sends (host : SigningHost T) (key : Key) (n : ℕ) (w : World T)
    (call : Except ApiError (Result (α × World T))) : Prop :=
  ∀ result, call = .ok result → Settles host key n w result

/-! ### Rules -/

/-- A call that reads. -/
theorem settles_read (a : α) : Settles host key n w (.ok (a, w)) := by
  intro b w' h
  cases h
  exact Or.inl rfl

/-- The result may be decoded. -/
theorem Settles.map {call : Result (α × World T)} (h : Settles host key n w call)
    {f : α × World T → β × World T} (hf : ∀ r, (f r).2 = r.2) :
    Settles host key n w (call.map f) := by
  intro b w' hmap
  obtain ⟨⟨a, w''⟩, hcall, heq⟩ := map_eq_ok.mp hmap
  obtain rfl : w'' = w' := (hf (a, w'')).symm.trans (congrArg Prod.snd heq)
  exact h a w'' hcall

/-- The contract may read an argument first. -/
theorem settles_bind {x : Result β} {f : β → Result (α × World T)}
    (hf : ∀ b, Settles host key n w (f b)) : Settles host key n w (x >>= f) := by
  intro a w' h
  obtain ⟨b, -, hb⟩ := bind_eq_ok.mp h
  exact hf b a w' hb

/-- An argument may be encoded first. -/
theorem sends_bind {x : Except ApiError β} {f : β → Except ApiError (Result (α × World T))}
    (hf : ∀ b, Sends host key n w (f b)) : Sends host key n w (x >>= f) := by
  intro result h
  obtain ⟨b, -, hb⟩ := StellarHost.args_bind_eq_ok.mp h
  exact hf b result hb

/-- What is sent settles as it does. -/
theorem sends_return {call : Result (α × World T)} (h : Settles host key n w call) :
    Sends host key n w (.ok call) := by
  intro result hresult
  cases hresult
  exact h

/-- What is sent may be given another result. -/
theorem Sends.map {call : Except ApiError (Result (α × World T))}
    (h : Sends host key n w call) {f : α × World T → β × World T} (hf : ∀ r, (f r).2 = r.2) :
    Sends host key n w (call >>= fun result => .ok (result.map f)) := by
  intro mapped hmapped
  obtain ⟨result, hresult, heq⟩ := StellarHost.args_bind_eq_ok.mp hmapped
  cases heq
  exact (h result hresult).map hf

/-- A call of the registry settles as the transaction that makes it. -/
theorem settles_onRegistry {f : CreditRegistry → Result (α × CreditRegistry)}
    (call : CreditRegistry.Call)
    (hf : ∀ s, CreditRegistry.exec host.ch.sha256 (host.env (host.keyAccount key) n) s call =
      (f s).map Prod.snd) : Settles host key n w (host.onRegistry w f) := by
  intro a w' h
  obtain ⟨hr, s, hs, rfl⟩ := StellarHost.onRegistry_eq_ok.mp h
  have hwrite : CreditRegistry.exec host.ch.sha256 (host.env (host.keyAccount key) n)
      (w.registry host.registry) call = .ok s := by
    rw [hf, hs]
    rfl
  refine Or.inr ⟨.registry host.registry call, ?_⟩
  unfold World.exec
  simp only [transaction, bind_eq_ok, Ledger.callRegistry_eq_ok, map_eq_ok, pure_eq_ok,
    Prod.exists]
  exact ⟨(), _, ⟨hr, s, ⟨s, hwrite, rfl⟩, rfl⟩, rfl⟩

/-- So does a call of the marketplace. -/
theorem settles_onMarketplace {call : Result (α × Marketplace × Ledger T)}
    (mcall : Marketplace.Call)
    (hcall : Marketplace.exec host.ch (host.env (host.keyAccount key) n) w.marketplace w.ledger
      mcall = call.map Prod.snd) :
    Settles host key n w (StellarHost.onMarketplace w call) := by
  intro a w' h
  simp only [StellarHost.onMarketplace, bind_eq_ok, pure_eq_ok, Prod.exists, Prod.mk.injEq] at h
  obtain ⟨_, m, l, rfl, -, rfl⟩ := h
  refine Or.inr ⟨.marketplace mcall, ?_⟩
  unfold World.exec
  simp only [transaction_call, transaction_env, hcall]
  rfl

/-- So does a call of the tracker. -/
theorem settles_onTracker {call : Result (α × RetirementTracker × Ledger T)}
    (tcall : RetirementTracker.Call)
    (hcall : RetirementTracker.exec host.ch (host.env (host.keyAccount key) n) w.tracker w.ledger
      tcall = call.map Prod.snd) : Settles host key n w (StellarHost.onTracker w call) := by
  intro a w' h
  obtain ⟨t, l, rfl, rfl⟩ := StellarHost.onTracker_eq_ok.mp h
  refine Or.inr ⟨.tracker tcall, ?_⟩
  unfold World.exec
  simp only [transaction_call, transaction_env, hcall]
  rfl

/-- So does a call of the bridge. -/
theorem settles_onBridge {call : Result (α × MerkleBridge × Ledger T)} (bcall : MerkleBridge.Call)
    (hcall : MerkleBridge.exec host.ch (host.env (host.keyAccount key) n) w.bridge w.ledger
      bcall = call.map Prod.snd) : Settles host key n w (StellarHost.onBridge w call) := by
  intro a w' h
  simp only [StellarHost.onBridge, bind_eq_ok, pure_eq_ok, Prod.exists, Prod.mk.injEq] at h
  obtain ⟨_, b, l, rfl, -, rfl⟩ := h
  refine Or.inr ⟨.bridge bcall, ?_⟩
  unfold World.exec
  simp only [transaction_call, transaction_env, hcall]
  rfl

/-- What an invocation leaves, by its result. -/
theorem Sends.eq_apply {call : Except ApiError (Result (α × World T))}
    (h : Sends host key n w call) :
    (StellarHost.invoke w call).2 = w ∨
      ∃ onChain, (StellarHost.invoke w call).2 =
        World.apply host.ch w (host.transaction key n onChain) := by
  cases hanswer : StellarHost.invoke w call with
  | mk answer w' =>
      cases answer with
      | error e =>
          have herror := StellarHost.invoke_error (congrArg Prod.fst hanswer)
          rw [hanswer] at herror
          exact Or.inl herror
      | ok a =>
          refine (h _ (StellarHost.invoke_eq_ok.mp hanswer) a w' rfl).imp_right ?_
          rintro ⟨onChain, hexec⟩
          exact ⟨onChain, (World.apply_of_ok hexec).symm⟩

/-! ### The calls -/

/-- **One call.**  A call leaves the deployment as it was, or as one transaction leaves it that
is signed with the key of the call. -/
theorem answer_eq_apply (call : StellarCall) (n : ℕ) (w : World T) :
    (host.answer call n w).2 = w ∨
      ∃ onChain, (host.answer call n w).2 =
        World.apply host.ch w (host.transaction (keyOf call) n onChain) := by
  cases call with
  | submitCredit issuer metadata ipfsHash =>
      refine Sends.eq_apply (Sends.map ?_ fun _ => rfl)
      refine sends_bind fun issuer => sends_bind fun sent => sends_return (settles_bind fun m => ?_)
      exact settles_onRegistry (.submitCredit issuer m (ApiScVal.utf8 ipfsHash)) fun _ => rfl
  | approveAndMint verifier creditId comments =>
      refine Sends.eq_apply (sends_bind fun verifier => sends_bind fun creditId =>
        sends_return (Settles.map ?_ fun _ => rfl))
      exact settles_onRegistry (.approveAndMint verifier creditId (ApiScVal.utf8 comments))
        fun _ => rfl
  | rejectCredit verifier creditId reason =>
      refine Sends.eq_apply (sends_bind fun verifier => sends_bind fun creditId =>
        sends_return ?_)
      exact settles_onRegistry (.rejectCredit verifier creditId (ApiScVal.utf8 reason))
        fun _ => rfl
  | transferCredit fromAddr toAddr creditId =>
      refine Sends.eq_apply (sends_bind fun fromAddr => sends_bind fun toAddr =>
        sends_bind fun creditId => sends_return ?_)
      exact settles_onRegistry (.transferCredit fromAddr toAddr creditId) fun _ => rfl
  | retire owner creditId reason beneficiary accountingPeriod =>
      refine Sends.eq_apply (sends_bind fun owner => sends_bind fun creditId =>
        sends_return (Settles.map ?_ fun _ => rfl))
      exact settles_onTracker (.retire owner creditId (ApiScVal.utf8 reason)
        (ApiScVal.utf8 beneficiary) (ApiScVal.utf8 accountingPeriod)) rfl
  | isRetired creditId =>
      exact Sends.eq_apply (sends_bind fun creditId => sends_return (settles_read _))
  | createOffer seller creditId pricePerTonne amount currency expiry =>
      refine Sends.eq_apply (Sends.map ?_ fun _ => rfl)
      refine sends_bind fun seller => sends_bind fun creditId => sends_bind fun price =>
        sends_bind fun amount => sends_bind fun currency => sends_bind fun sent =>
        sends_return (settles_bind fun expiry => ?_)
      exact settles_onMarketplace (.createOffer seller creditId price amount currency expiry) rfl
  | buyCredits buyer offerId amount =>
      refine Sends.eq_apply (sends_bind fun buyer => sends_bind fun offerId =>
        sends_bind fun amount => sends_return ?_)
      exact settles_onMarketplace (.buyCredits buyer offerId amount) rfl
  | cancelOffer caller offerId =>
      refine Sends.eq_apply (sends_bind fun caller => sends_bind fun offerId => sends_return ?_)
      exact settles_onMarketplace (.cancelOffer caller offerId) rfl
  | bridgeIn bridger sourceRegistry sourceSerial merkleProof merkleRoot metadata =>
      cases merkleProof with
      | nil => exact Or.inl rfl
      | cons leaf rest =>
          refine Sends.eq_apply (sends_bind fun bridger => sends_bind fun leaf =>
            sends_bind fun rest => sends_bind fun sent => sends_return (settles_bind fun metadata =>
              Settles.map ?_ fun _ => rfl))
          exact settles_onBridge (.bridgeIn bridger (ApiScVal.utf8 sourceRegistry)
            (ApiScVal.utf8 sourceSerial) leaf rest metadata) rfl
  | bridgeOut owner creditId =>
      refine Sends.eq_apply (sends_bind fun owner => sends_bind fun creditId =>
        sends_return (Settles.map ?_ fun _ => rfl))
      exact settles_onBridge (.bridgeOut owner creditId) rfl
  | verifyProof leaf proof root =>
      exact Sends.eq_apply (sends_bind fun leaf => sends_bind fun proof => sends_bind fun root =>
        sends_return (settles_read _))
  | getCertificateHash creditId =>
      exact Sends.eq_apply (sends_bind fun creditId => sends_bind fun hash =>
        sends_return (settles_read _))

/-- The update of a root leaves the deployment, or is one transaction of the admin key. -/
theorem updateRegistryRoot_eq_apply (admin registry root : String) (blockHeight : JsNumber)
    (n : ℕ) (w : World T) :
    (host.updateRegistryRoot admin registry root blockHeight n w).2 = w ∨
      ∃ onChain, (host.updateRegistryRoot admin registry root blockHeight n w).2 =
        World.apply host.ch w (host.transaction .admin n onChain) := by
  have hdrop : ∀ updated : Result (Bool × MerkleBridge),
      (updated.map fun r => (r.2, w.ledger)) =
        (updated.map fun r => (r.1, r.2, w.ledger)).map Prod.snd := by
    intro updated
    cases updated <;> rfl
  refine Sends.eq_apply (sends_bind fun admin => sends_bind fun root =>
    sends_bind fun blockHeight => sends_return (Settles.map ?_ fun _ => rfl))
  exact settles_onBridge (.updateRegistryRoot admin (ApiScVal.utf8 registry) root blockHeight)
    (hdrop _)

end SigningHost

/-! ## The requests of the API and the transactions of others -/

/-- What happens next: a query of the request `i` is answered, the one call that no modelled request
makes is answered, or another client's transaction is executed. -/
inductive SystemTurn {T : Type} (ι : Type) (ch : Chain T) where
  | request (i : ι)
  | updateRegistryRoot (admin registry root : String) (blockHeight : JsNumber)
  | client (tx : Tx ch)

namespace SigningHost

variable {T α ι : Type} [DecidableEq ι] {host : SigningHost T} {config : ApiConfig}

/-- Requests in progress, with the backend that serves them. -/
abbrev Requests (T ι α : Type) :=
  Program.Pool ι (BackendState (World T)) ApiQuery.Reply ServiceError α

/-- The requests with other contracts, after one more query. -/
def onChain (system : Requests T ι α) (w : World T) : Requests T ι α :=
  { system with state := { system.state.tick with chain := w } }

/-- One turn. -/
def turn (host : SigningHost T) (config : ApiConfig) (system : Requests T ι α) :
    SystemTurn ι host.ch → Requests T ι α
  | .request i => system.next (host.api config).handle i
  | .updateRegistryRoot admin registry root blockHeight =>
      onChain system (host.updateRegistryRoot admin registry root blockHeight
        system.state.served system.state.chain).2
  | .client tx => onChain system (World.apply host.ch system.state.chain tx)

/-- The admin or the verifier account of the API has signed the transaction alone. -/
def SignedByApi (host : SigningHost T) (tx : Tx host.ch) : Prop :=
  ∃ key, tx.signers = [host.keyAccount key]

/-- A transaction that a turn may make. -/
def Makes (host : SigningHost T) : SystemTurn ι host.ch → Tx host.ch → Prop
  | .client tx', tx => tx = tx'
  | _, tx => host.SignedByApi tx

/-- A query leaves the contracts as they were, or makes one transaction. -/
theorem handle_chain (q : ApiQuery) (s : BackendState (World T)) :
    ((host.api config).handle q s).2.chain = s.chain ∨
      ∃ tx, host.SignedByApi tx ∧
        ((host.api config).handle q s).2.chain = World.apply host.ch s.chain tx := by
  cases q with
  | now => exact Or.inl rfl
  | overtakes => exact Or.inl rfl
  | db q => exact Or.inl rfl
  | attempt q => exact Or.inl rfl
  | stellar call =>
      exact (answer_eq_apply call s.served s.chain).imp_right fun ⟨onChain, heq⟩ =>
        ⟨host.transaction (keyOf call) s.served onChain, ⟨_, rfl⟩, heq⟩

/-- A turn leaves the deployment, or is one of the transactions that it may make. -/
theorem turn_chain (host : SigningHost T) (config : ApiConfig) (system : Requests T ι α)
    (t : SystemTurn ι host.ch) :
    (turn host config system t).state.chain = system.state.chain ∨
      ∃ tx, Makes host t tx ∧
        (turn host config system t).state.chain =
          World.apply host.ch system.state.chain tx := by
  cases t with
  | client tx => exact Or.inr ⟨tx, rfl, rfl⟩
  | updateRegistryRoot admin registry root blockHeight =>
      exact (updateRegistryRoot_eq_apply admin registry root blockHeight system.state.served
        system.state.chain).imp_right fun ⟨onChain, heq⟩ =>
          ⟨host.transaction .admin system.state.served onChain, ⟨_, rfl⟩, heq⟩
  | request i =>
      have hturn : turn host config system (.request i) =
          system.next (host.api config).handle i := rfl
      rw [hturn]
      rcases Program.Pool.next_cases (host.api config).handle system i with
        ⟨q, next, hquery⟩ | hdone
      · rw [Program.Pool.next_state hquery]
        exact handle_chain q system.state
      · rw [hdone]
        exact Or.inl rfl

/-- **Refinement.**  Whatever the requests are, in any interleaving and with any transactions of
other clients between them, the contracts go through a run of the deployment, whose transactions
are those of the clients and others that one of the two accounts of the API has signed alone. -/
theorem chain_refines (host : SigningHost T) (config : ApiConfig) (system : Requests T ι α)
    (turns : List (SystemTurn ι host.ch)) :
    ∃ ts : List (Tx host.ch),
      (run (turn host config) system turns).state.chain =
        run (World.apply host.ch) system.state.chain ts ∧
      ∀ tx ∈ ts, .client tx ∈ turns ∨ host.SignedByApi tx := by
  obtain ⟨ts, hrun, hmem⟩ := exists_run_of_steps (f := fun s : Requests T ι α => s.state.chain)
    (M := Makes host) (turn_chain host config) system turns
  refine ⟨ts, hrun, fun tx htx => ?_⟩
  obtain ⟨t, ht, hmakes⟩ := hmem tx htx
  cases t with
  | client tx' =>
      obtain rfl : tx = tx' := hmakes
      exact Or.inl ht
  | _ => exact Or.inr hmakes

/-! ## Custody -/

/-- The account has signed none of the transactions of the clients. -/
def Silent (a : Address) {ch : Chain T} (turns : List (SystemTurn ι ch)) : Prop :=
  ∀ tx : Tx ch, .client tx ∈ turns → a ∉ tx.signers

/-- What an account owns, and what it has of a currency, where it signs nothing. -/
theorem run_keeps {ch : Chain T} {balance : T → Address → Address → ℤ}
    (htoken : ExactTransfer ch.tokenTransfer balance) (hrefuses : RefusesNegative ch.tokenTransfer)
    {w : World T} {a R : Address} (hexternal : ¬ ch.Deployed a) {c : ℕ} (cur : Address)
    (hidx : (w.registry R).CreditsIndexed) {ts : List (Tx ch)} (hts : ∀ tx ∈ ts, a ∉ tx.signers) :
    ((w.registry R).owners c = some a →
        ((run (World.apply ch) w ts).registry R).owners c = some a) ∧
      balance w.ledger.tokens cur a ≤
        balance (run (World.apply ch) w ts).ledger.tokens cur a := by
  have hinv : ((run (World.apply ch) w ts).registry R).CreditsIndexed ∧
      ((w.registry R).owners c = some a →
        ((run (World.apply ch) w ts).registry R).owners c = some a) ∧
      balance w.ledger.tokens cur a ≤
        balance (run (World.apply ch) w ts).ledger.tokens cur a := by
    refine run_invariant (C := fun _ tx => a ∉ tx.signers)
      (I := fun w' : World T => (w'.registry R).CreditsIndexed ∧
        ((w.registry R).owners c = some a → (w'.registry R).owners c = some a) ∧
        balance w.ledger.tokens cur a ≤ balance w'.ledger.tokens cur a)
      ?_ ⟨hidx, id, le_refl _⟩ (always_of_forall_mem (fun tx htx _ => hts tx htx) w)
    rintro w' tx ⟨hidx', howner, hbalance⟩ hsigned
    refine ⟨World.indexed_apply hidx', fun hw => ?_, hbalance.trans ?_⟩
    · by_cases hsucc : World.Succeeds ch w' tx
      · rcases World.exec_owner hsucc.exec_eq hidx' (howner hw) with hkept | ⟨b, htransfer⟩
        · exact hkept
        · exact absurd (htransfer.signed hexternal) hsigned
      · rw [World.apply_of_not_succeeds hsucc]
        exact howner hw
    · by_contra hfalls
      exact hsigned (World.signed_of_balance_lt htoken hrefuses (not_le.mp hfalls))
  exact hinv.2

/-- **Custody.**  Let an account that is none of the deployment's contracts and neither key of the
API sign nothing after some moment.  Whatever is requested of the API from then on, and whatever
other clients do, it keeps every credit that it owns at that moment, and its balances do not
fall. -/
theorem custody (host : SigningHost T) (config : ApiConfig) (tokens : T)
    {balance : T → Address → Address → ℤ}
    (htoken : ExactTransfer host.ch.tokenTransfer balance)
    (hrefuses : RefusesNegative host.ch.tokenTransfer) (system : Requests T ι α)
    (hgenesis : system.state.chain = World.genesis tokens)
    (before later : List (SystemTurn ι host.ch)) {a : Address} (hexternal : ¬ host.ch.Deployed a)
    (hadmin : a ≠ host.admin) (hverifier : a ≠ host.verifier) (hsilent : Silent a later)
    (R : Address) (c : ℕ) (cur : Address) :
    (((run (turn host config) system before).state.chain.registry R).owners c = some a →
      ((run (turn host config) system (before ++ later)).state.chain.registry R).owners c =
        some a) ∧
    balance (run (turn host config) system before).state.chain.ledger.tokens cur a ≤
      balance (run (turn host config) system (before ++ later)).state.chain.ledger.tokens cur
        a := by
  obtain ⟨ts, hbefore, -⟩ := chain_refines host config system before
  obtain ⟨us, hlater, hus⟩ :=
    chain_refines host config (run (turn host config) system before) later
  rw [run_append, hlater]
  refine run_keeps htoken hrefuses hexternal cur ?_ fun tx htx hsigned => ?_
  · rw [hbefore, hgenesis]
    exact World.indexed_run tokens ts R
  · rcases hus tx htx with hclient | ⟨key, hapi⟩
    · exact hsilent tx hclient hsigned
    · rw [hapi, List.mem_singleton] at hsigned
      cases key with
      | admin => exact hadmin hsigned
      | verifier => exact hverifier hsigned

end SigningHost

namespace Sample

/-- In the sample no contract has the address of an account. -/
theorem account_external (key : ℕ) : ¬ chain.Deployed (.account key) :=
  (tx key 0 (.registry registry .getConfig)).external _ (List.mem_singleton.mpr rfl)

def signingHost : SigningHost Balances :=
  { stellarHost with
    admin_external := account_external 0
    verifier_external := account_external 0 }

/-- Account 2 submits credit 1. -/
def clientTurns : List (SystemTurn Unit chain) :=
  (apiSetup ++ [tx 2 9 (.registry registry (.submitCredit (.account 2) metadata [73]))]).map .client

/-- A request of account 0 to bridge credit 1 out. -/
def bridgeRequest : SigningHost.Requests Balances Unit String where
  state := backend .active (World.genesis fun _ _ => 1000000)
  programs _ := .query (.stellar (.bridgeOut wallet (.finite 1))) .ret

end Sample

/-- Account 2 keeps its credit. -/
theorem SigningHost.custody_of_submitter :
    ((run (turn Sample.signingHost Sample.apiConfig) Sample.bridgeRequest
      (Sample.clientTurns ++ [.request ()])).state.chain.registry Sample.registry).owners 1 =
        some (.account 2) := by
  refine (custody Sample.signingHost Sample.apiConfig (fun _ _ => 1000000) Sample.transfer_exact
    Sample.transfer_refusesNegative Sample.bridgeRequest rfl Sample.clientTurns [.request ()]
    (Sample.account_external 2) (by decide) (by decide) ?_ Sample.registry 1
    Sample.currency).1 (by decide)
  intro tx htx
  cases List.mem_singleton.mp htx

end CarbonVeritas
