/-
# Verifiers of the API

What requests to register do, in every run of any requests of any users among any transactions of
other clients, in any order of their queries and with queries that fail.

* `count_registrations` : on the chain, an account has registered once more than it has left while
  it has a record, and as often as it has left while it has none;
* `rows_registered` : the rows of `Verifier` are those of different requests, of users whose wallet
  is the verifier account of the API, and that account has been registered for them; two requests
  that have sent one transaction both record it;
* `registered_once` : without transactions of that account from elsewhere the API records nothing
  once the account is registered.
-/
import CarbonVeritas.GuardedPrograms
import CarbonVeritas.VerifiersService

namespace CarbonVeritas

open Program Transition

/-! ## Registrations and departures on the chain -/

namespace VerifierStake

/-- The verifier that a call removes. -/
def Call.departed : Call → Option Address
  | .unregister v => some v
  | _ => none

/-- A record makes its account a verifier. -/
theorem isVerifier_writeVerifier (s : VerifierStake) (u v : Address) (record : Verifier) :
    (s.writeVerifier u record).isVerifier v = (decide (v = u) || s.isVerifier v) := by
  unfold VerifierStake.isVerifier
  rw [writeVerifier_verifiers, Function.update_apply]
  by_cases hv : v = u <;> simp [hv]

/-- Without its record an account is no verifier. -/
theorem isVerifier_removeVerifier (s : VerifierStake) (u v : Address) :
    (s.removeVerifier u).isVerifier v = (!decide (v = u) && s.isVerifier v) := by
  unfold VerifierStake.isVerifier
  rw [removeVerifier_verifiers, Function.update_apply]
  by_cases hv : v = u <;> simp [hv]

/-- An account with a record is a verifier. -/
theorem isVerifier_of_some {s : VerifierStake} {u : Address} {record : Verifier}
    (h : s.verifiers u = some record) : s.isVerifier u = true := by
  unfold VerifierStake.isVerifier
  rw [h]
  rfl

/-- A record that is rewritten was there. -/
theorem isVerifier_rewrite {s : VerifierStake} {u : Address} {record : Verifier}
    (h : s.verifiers u = some record) (v : Address) (record' : Verifier) :
    (s.writeVerifier u record').isVerifier v = s.isVerifier v := by
  rw [isVerifier_writeVerifier]
  by_cases hv : v = u
  · rw [hv, isVerifier_of_some h]
    simp
  · simp [hv]

/-- **One call.**  Who registers has no record and gets one, who leaves has one and loses it. -/
theorem StakeChange.isVerifier {T : Type} {host : StakeHost T} {env : Env} {s s' : VerifierStake}
    {t t' : T} {call : Call} (h : StakeChange host env s t s' t' call) (v : Address) :
    call.registered.toList.count v + (s.isVerifier v).toNat =
      call.departed.toList.count v + (s'.isVerifier v).toNat := by
  cases h with
  | keep hs _ hread =>
      rw [hs]
      rcases hread with ⟨_, rfl⟩ | ⟨_, rfl⟩ | rfl <;> rfl
  | init _ hs _ => rw [hs]; rfl
  | @register u _ _ hnone _ _ hs =>
      have hafter : s'.isVerifier v = (decide (v = u) || s.isVerifier v) := by
        rw [hs]
        exact isVerifier_writeVerifier s u v _
      rw [hafter]
      by_cases hv : v = u
      · have hbefore : s.isVerifier u = false := by
          unfold VerifierStake.isVerifier
          rw [hnone]
          rfl
        subst hv
        simp [Call.registered, Call.departed, hbefore]
      · simp [Call.registered, Call.departed, hv, Ne.symm hv]
  | stake _ _ hrecord _ _ hs =>
      rw [hs, isVerifier_rewrite hrecord]
      rfl
  | slash _ _ _ hrecord _ hs _ =>
      rw [hs, isVerifier_rewrite hrecord]
      rfl
  | @unregister u _ _ _ hrecord _ _ _ hs =>
      have hafter : s'.isVerifier v = (!decide (v = u) && s.isVerifier v) := by
        rw [hs]
        exact isVerifier_removeVerifier s u v
      rw [hafter]
      by_cases hv : v = u
      · subst hv
        simp [Call.registered, Call.departed, isVerifier_of_some hrecord]
      · simp [Call.registered, Call.departed, hv, Ne.symm hv]
  | heartbeat _ hrecord hs _ =>
      rw [hs, isVerifier_rewrite hrecord]
      rfl

end VerifierStake

namespace StakeLedger

variable {T : Type} {host : StakeHost T}

/-- The accepted departures of a history, in their order. -/
def departures (host : StakeHost T) (hist : List (StakeLedger T × StakeTx host)) : List Address :=
  hist.filterMap fun p => (accepted host p.1 p.2).bind VerifierStake.Call.departed

/-- One more transaction adds its departure, if it is accepted and one. -/
theorem departures_concat (hist : List (StakeLedger T × StakeTx host)) (w : StakeLedger T)
    (tx : StakeTx host) :
    departures host (hist ++ [(w, tx)]) = departures host hist ++
      ((accepted host w tx).bind VerifierStake.Call.departed).toList := by
  unfold departures
  rw [List.filterMap_append]
  congr 1

/-- **Registrations and departures.** -/
theorem count_registrations (host : StakeHost T) (tokens : T) (ts : List (StakeTx host))
    (v : Address) :
    (registrations host (steps (apply host) (genesis tokens) ts)).count v =
      (departures host (steps (apply host) (genesis tokens) ts)).count v +
        ((run (apply host) (genesis tokens) ts).contract.isVerifier v).toNat := by
  refine history_invariant (C := fun _ _ => True) (I := fun hist w =>
    (registrations host hist).count v =
      (departures host hist).count v + (w.contract.isVerifier v).toNat) rfl ?_
    (always_of_forall_mem (fun _ _ _ => trivial) _)
  intro hist w tx hcount _
  rw [registrations_concat, departures_concat, List.count_append, List.count_append]
  cases hcall : accepted host w tx with
  | none =>
      rw [contract_of_not_accepted hcall]
      exact hcount
  | some call =>
      obtain ⟨_, -, -, hchange⟩ := change_of_accepted hcall
      have hstep := hchange.isVerifier v
      simp only [Option.bind_some]
      omega

/-- Who registers or leaves has signed. -/
theorem authorised_of_accepted {w : StakeLedger T} {env : Env}
    {external : ¬ env.Authorised host.address} {call call' : VerifierStake.Call} {v : Address}
    (hcall : accepted host w (.call env external call) = some call')
    (hv : call'.registered = some v ∨ call'.departed = some v) : env.Authorised v := by
  have hstep := apply_step host w (.call env external call)
  rw [hcall] at hstep
  cases hstep with
  | accepted hchange =>
      cases hchange with
      | register hauth _ _ _ _ =>
          obtain rfl := Option.some.inj (hv.resolve_right nofun)
          exact hauth
      | unregister hauth _ _ _ _ _ =>
          obtain rfl := Option.some.inj (hv.resolve_left nofun)
          exact hauth
      | keep _ _ hread =>
          rcases hread with ⟨_, rfl⟩ | ⟨_, rfl⟩ | rfl <;> rcases hv with h | h <;> cases h
      | init _ _ _ => rcases hv with h | h <;> cases h
      | stake _ _ _ _ _ _ => rcases hv with h | h <;> cases h
      | slash _ _ _ _ _ _ _ => rcases hv with h | h <;> cases h
      | heartbeat _ _ _ _ => rcases hv with h | h <;> cases h

end StakeLedger

/-! ## One query -/

section Queries

variable {T : Type} {host : VerifiersHost T} {s : VerifiersState host}

namespace VerifiersState

/-- How often the verifier account of the API has registered. -/
def registeredCount (s : VerifiersState host) : ℕ :=
  (StakeLedger.registrations host.ch s.history).count host.verifier

/-- How often it has left. -/
def departedCount (s : VerifiersState host) : ℕ :=
  (StakeLedger.departures host.ch s.history).count host.verifier

/-- The verifier account has a record. -/
def registered (s : VerifiersState host) : Bool := s.ledger.contract.isVerifier host.verifier

/-- One more transaction counts when it registers the API's account. -/
theorem registeredCount_append (s : VerifiersState host) (tx : StakeTx host.ch) :
    (s.append tx).registeredCount = s.registeredCount +
      ((StakeLedger.accepted host.ch s.ledger tx).bind
        VerifierStake.Call.registered).toList.count host.verifier := by
  unfold registeredCount history
  rw [append_txs, steps_concat, StakeLedger.registrations_concat, List.count_append]
  rfl

/-- One more transaction counts when the API's account departs with it. -/
theorem departedCount_append (s : VerifiersState host) (tx : StakeTx host.ch) :
    (s.append tx).departedCount = s.departedCount +
      ((StakeLedger.accepted host.ch s.ledger tx).bind
        VerifierStake.Call.departed).toList.count host.verifier := by
  unfold departedCount history
  rw [append_txs, steps_concat, StakeLedger.departures_concat, List.count_append]
  rfl

/-- The account is registered once more than it has departed, or as often. -/
theorem registeredCount_eq (s : VerifiersState host) :
    s.registeredCount = s.departedCount + s.registered.toNat :=
  StakeLedger.count_registrations host.ch host.tokens s.txs host.verifier

end VerifiersState

/-- What a query leaves of the table and of the chain. -/
inductive VerifiersChange (s : VerifiersState host) :
    VerifiersQuery host → VerifiersState host → Prop where
  | keeps (q : VerifiersQuery host) : VerifiersChange s q s.tick
  | creates (userId : String) (stake : ℚ) (status : VerifierStatus) (reputation : ℤ)
      (heartbeatAt : ℤ) :
      VerifiersChange s (.createVerifier userId stake status reputation heartbeatAt)
        (s.insert (host.newRow s.served userId stake status reputation heartbeatAt))
  | beats (id : String) (heartbeatAt updatedAt : ℤ) :
      VerifiersChange s (.updateVerifier id heartbeatAt)
        (s.write id fun row => row.beat heartbeatAt updatedAt)
  | registers (account : Address) (loaded : ℕ) :
      VerifiersChange s (.invokeRegister account loaded)
        (s.append (host.registration s.served account))
  | executes (tx : StakeTx host.ch) : VerifiersChange s (.transaction tx) (s.append tx)

/-- Whether an answer arrives or not, the state is as before or as the answer leaves it. -/
theorem VerifiersHost.reach_snd (s : VerifiersState host) {R : Type}
    (answer : Except VerifiersError R × VerifiersState host) :
    (host.reach s answer).2 = s.tick ∨ (host.reach s answer).2 = answer.2 := by
  unfold reach
  cases host.outage s.served with
  | some message => exact Or.inl rfl
  | none => exact Or.inr rfl

/-- Settling a transaction changes what an invocation may change. -/
theorem VerifiersHost.settle_change (s : VerifiersState host) (account : Address) (loaded : ℕ) :
    VerifiersChange s (.invokeRegister account loaded) (host.settle account s).2 := by
  unfold settle
  cases VerifierStake.register host.ch (host.env s.served) s.ledger.contract s.ledger.tokens
      account with
  | ok r => exact .registers account loaded
  | error p => exact .keeps _

/-- So does the whole invocation, with a transaction of its own or one that was sent before. -/
theorem VerifiersHost.invoke_change (s : VerifiersState host) (account : Address) (loaded : ℕ) :
    VerifiersChange s (.invokeRegister account loaded) (host.invoke account loaded s).2 := by
  unfold invoke
  cases host.invocation s.served with
  | settles => exact settle_change s account loaded
  | shares place =>
      dsimp only
      split_ifs with hshare
      · exact .keeps _
      · exact settle_change s account loaded
  | throws executed message =>
      cases executed with
      | true => exact .registers account loaded
      | false => exact .keeps _

/-- **Inversion.**  A query does one of these things. -/
theorem VerifiersHost.handle_change (s : VerifiersState host) (q : VerifiersQuery host) :
    VerifiersChange s q (host.handle q s).2 := by
  have hreach : ∀ {R : Type} {answer : Except VerifiersError R × VerifiersState host},
      VerifiersChange s q answer.2 → VerifiersChange s q (host.reach s answer).2 := by
    intro R answer h
    rcases reach_snd s answer with hsnd | hsnd
    · rw [hsnd]
      exact .keeps q
    · rw [hsnd]
      exact h
  cases q with
  | now => exact .keeps _
  | findVerifier userId => exact hreach (.keeps _)
  | createVerifier userId stake status reputation heartbeatAt =>
      refine hreach ?_
      split_ifs with hu
      · exact .creates userId stake status reputation heartbeatAt
      · exact .keeps _
  | findVerifierById id => exact hreach (.keeps _)
  | updateVerifier id heartbeatAt =>
      refine hreach ?_
      cases s.verifiers.find? fun row => row.id = id with
      | some row => exact .beats id heartbeatAt _
      | none => exact .keeps _
  | loadAccount => exact .keeps _
  | invokeRegister account loaded => exact invoke_change s account loaded
  | transaction tx => exact .executes tx

/-! ### Accepted registrations -/

/-- A registration that is signed with the verifier key alone is one of the verifier account. -/
theorem VerifiersHost.eq_verifier_of_signedAlone {w : StakeLedger T} {tx : StakeTx host.ch}
    {account : Address} (halone : host.signedAlone tx = true)
    (haccepted : (StakeLedger.accepted host.ch w tx).bind VerifierStake.Call.registered =
      some account) : account = host.verifier := by
  cases tx with
  | other timestamp tokens => cases halone
  | call env external call =>
      obtain ⟨hsigners, hinvoker⟩ := of_decide_eq_true halone
      obtain ⟨call', hcall, hregistered⟩ := Option.bind_eq_some_iff.mp haccepted
      rcases StakeLedger.authorised_of_accepted hcall (Or.inl hregistered) with hmem | hsome
      · rw [hsigners] at hmem
        exact List.mem_singleton.mp hmem
      · rw [hinvoker] at hsome
        cases hsome

/-- A registration of its own that returns is one of the verifier account, and the contract has
accepted it. -/
theorem VerifiersHost.settle_ok {account : Address} {registered : Bool}
    (h : (host.settle account s).1 = .ok registered) :
    account = host.verifier ∧
      (host.settle account s).2 = s.append (host.registration s.served host.verifier) ∧
      StakeLedger.accepted host.ch s.ledger (host.registration s.served host.verifier) =
        some (.register host.verifier) := by
  unfold settle at h ⊢
  cases hregister : VerifierStake.register host.ch (host.env s.served) s.ledger.contract
      s.ledger.tokens account with
  | error p =>
      rw [hregister] at h
      cases h
  | ok r =>
      obtain ⟨b, contract, tokens⟩ := r
      obtain ⟨hauth, -⟩ := VerifierStake.register_eq_ok.mp hregister
      have hsigner : account = host.verifier := by
        rcases hauth with hmem | hinvoker
        · exact List.mem_singleton.mp hmem
        · cases hinvoker
      subst hsigner
      refine ⟨rfl, rfl, ?_⟩
      simp only [registration, StakeLedger.accepted, VerifierStake.exec, hregister]
      rfl

/-- A query leaves the past of the chain. -/
theorem VerifiersHost.handle_txs (s : VerifiersState host) (q : VerifiersQuery host) :
    s.txs <+: (host.handle q s).2.txs := by
  have hchange := handle_change s q
  generalize (host.handle q s).2 = s' at hchange
  cases hchange with
  | keeps => exact List.prefix_refl _
  | creates => exact List.prefix_refl _
  | beats => exact List.prefix_refl _
  | registers => exact List.prefix_append _ _
  | executes => exact List.prefix_append _ _

namespace VerifiersState

/-- With more transactions there are at least as many registrations. -/
theorem registeredCount_mono {s s' : VerifiersState host} (h : s.txs <+: s'.txs) :
    s.registeredCount ≤ s'.registeredCount := by
  obtain ⟨later, htxs⟩ := h
  unfold registeredCount history StakeLedger.registrations
  rw [← htxs, steps_append, List.filterMap_append, List.count_append]
  exact Nat.le_add_right _ _

/-- A registration of the verifier account that comes later adds to their number. -/
theorem registeredCount_lt {s s' : VerifiersState host} (h : s.txs <+: s'.txs) {place : ℕ}
    (hplace : s.txs.length ≤ place) {p : StakeLedger T × StakeTx host.ch}
    (hp : s'.history[place]? = some p)
    (hregistered : (StakeLedger.accepted host.ch p.1 p.2).bind VerifierStake.Call.registered =
      some host.verifier) : s.registeredCount < s'.registeredCount := by
  obtain ⟨later, htxs⟩ := h
  have hlength : (steps (StakeLedger.apply host.ch) (StakeLedger.genesis host.tokens)
      s.txs).length ≤ place := by
    rw [length_steps]
    exact hplace
  unfold history at hp
  rw [← htxs, steps_append, List.getElem?_append_right hlength] at hp
  unfold registeredCount history StakeLedger.registrations
  rw [← htxs, steps_append, List.filterMap_append, List.count_append]
  refine Nat.lt_add_of_pos_right (List.count_pos_iff.mpr ?_)
  exact List.mem_filterMap.mpr ⟨p, List.mem_of_getElem? hp, hregistered⟩

end VerifiersState

/-- An invocation that returns is one of the verifier account, which has been registered since the
sequence number was loaded. -/
theorem VerifiersHost.invoke_ok {start : VerifiersState host} {account : Address} {loaded : ℕ}
    {registered : Bool} (hstart : start.txs <+: s.txs) (hloaded : start.txs.length ≤ loaded)
    (h : (host.invoke account loaded s).1 = .ok registered) :
    account = host.verifier ∧
      start.registeredCount < (host.invoke account loaded s).2.registeredCount := by
  have hsettle : (host.settle account s).1 = .ok registered → account = host.verifier ∧
      start.registeredCount < (host.settle account s).2.registeredCount := by
    intro hok
    obtain ⟨haccount, hstate, hcall⟩ := settle_ok hok
    refine ⟨haccount, lt_of_le_of_lt (VerifiersState.registeredCount_mono hstart) ?_⟩
    rw [hstate, VerifiersState.registeredCount_append, hcall]
    simp [VerifierStake.Call.registered]
  unfold invoke at h ⊢
  cases hinv : host.invocation s.served with
  | throws executed message =>
      rw [hinv] at h
      cases h
  | settles =>
      rw [hinv] at h
      exact hsettle h
  | shares place =>
      rw [hinv] at h
      dsimp only at h ⊢
      split_ifs at h ⊢ with hshare
      · -- the transaction of another call, which is executed after the sequence number was loaded
        obtain ⟨p, hp, hcond⟩ := (Option.any_eq_true _ _).mp hshare
        simp only [Bool.and_eq_true, decide_eq_true_eq] at hcond
        obtain ⟨⟨hplace, halone⟩, hregistered⟩ := hcond
        obtain rfl := eq_verifier_of_signedAlone halone hregistered
        exact ⟨rfl, VerifiersState.registeredCount_lt hstart (hloaded.trans hplace) hp hregistered⟩
      · exact hsettle h

/-- The query creates a row. -/
def VerifiersQuery.creates : VerifiersQuery host → Bool
  | .createVerifier _ _ _ _ _ => true
  | _ => false

/-- A row without the columns that a heartbeat sets. -/
def VerifierRecord.core (row : VerifierRecord) : VerifierRecord :=
  { row with heartbeatAt := none, updatedAt := 0 }

namespace VerifiersState

/-- The rows, without the columns that a heartbeat sets. -/
def cores (s : VerifiersState host) : List VerifierRecord := s.verifiers.map VerifierRecord.core

/-- A heartbeat keeps the cores of the rows. -/
theorem cores_write (s : VerifiersState host) (id : String) (heartbeatAt updatedAt : ℤ) :
    (s.write id fun row => row.beat heartbeatAt updatedAt).cores = s.cores := by
  unfold cores
  rw [write_verifiers, List.map_map]
  refine List.map_congr_left fun row _ => ?_
  show VerifierRecord.core (if row.id = id then _ else row) = row.core
  split_ifs <;> rfl

/-- A new row adds its core. -/
theorem cores_insert (s : VerifiersState host) (row : VerifierRecord) :
    (s.insert row).cores = s.cores ++ [row.core] := by
  unfold cores
  rw [insert_verifiers, List.map_append]
  rfl

end VerifiersState

/-- The row that the query creates, without the columns that a heartbeat sets. -/
def VerifiersQuery.Creates (q : VerifiersQuery host) (core : VerifierRecord) : Prop :=
  ∃ userId stake status reputation heartbeatAt n,
    q = .createVerifier userId stake status reputation heartbeatAt ∧
      core = (host.newRow n userId stake status reputation heartbeatAt).core

/-- No query changes a row, but for its heartbeat, or removes one. -/
theorem VerifiersHost.handle_cores_of_not_creates {q : VerifiersQuery host}
    (hq : q.creates = false) (s : VerifiersState host) : (host.handle q s).2.cores = s.cores := by
  have hchange := handle_change s q
  generalize (host.handle q s).2 = s' at hchange
  cases hchange with
  | keeps => rfl
  | creates => cases hq
  | beats => exact VerifiersState.cores_write _ _ _ _
  | registers => rfl
  | executes => rfl

/-- A query that creates a row adds its core, or fails and adds none. -/
theorem VerifiersHost.handle_cores_of_creates {q : VerifiersQuery host} (hq : q.creates = true)
    (s : VerifiersState host) : (host.handle q s).2.cores = s.cores ∨
      ∃ core, (host.handle q s).2.cores = s.cores ++ [core] ∧ q.Creates core := by
  have hchange := handle_change s q
  generalize (host.handle q s).2 = s' at hchange
  cases hchange with
  | keeps => exact Or.inl rfl
  | creates userId stake status reputation heartbeatAt =>
      exact Or.inr ⟨_, VerifiersState.cores_insert _ _, userId, stake, status, reputation,
        heartbeatAt, s.served, rfl, rfl⟩
  | beats => cases hq
  | registers => cases hq
  | executes => cases hq

end Queries

/-! ## The programs -/

section Programs

variable {T : Type} {host : VerifiersHost T} {start : VerifiersState host}

open VerifiersService

/-- The queries of a heartbeat. -/
theorem uses_heartbeat {allowed : VerifiersQuery host → Prop} (id : String)
    (hfind : allowed (.findVerifierById id)) (hnow : allowed .now)
    (hupdate : ∀ heartbeatAt, allowed (.updateVerifier id heartbeatAt)) :
    (heartbeat id : VerifiersProgram host VerifiersResponse).Uses allowed := by
  refine ⟨hfind, fun found => ?_⟩
  cases found with
  | none => trivial
  | some row => exact ⟨hnow, fun now => ⟨hupdate now, fun _ => trivial⟩⟩

/-- Reading an address asks nothing. -/
theorem uses_encoded {allowed : VerifiersQuery host → Prop} (address : String) :
    (encoded address : VerifiersProgram host Address).Uses allowed := by
  unfold encoded
  cases host.account address <;> trivial

/-- The wallet of the user is the verifier account, which has been registered since the start. -/
def VerifiersRequest.Entitled (start : VerifiersState host) :
    VerifiersRequest host → VerifiersState host → Prop
  | .register user _, s => host.account user.1.stellarPub = .ok host.verifier ∧
      start.registeredCount < s.registeredCount
  | _, _ => False

/-- The query with which a request records its verifier. -/
def VerifiersRequest.Records : VerifiersRequest host → VerifiersQuery host → Prop
  | .register user dto, q => ∃ now, q = .createVerifier user.1.id dto.stake .active 0 now
  | _, _ => False

/-- What entitles a request stays, whatever is asked next. -/
theorem VerifiersRequest.Entitled.handle {request : VerifiersRequest host}
    {s : VerifiersState host} (h : request.Entitled start s) (q : VerifiersQuery host) :
    request.Entitled start (host.handle q s).2 := by
  cases request with
  | register user dto =>
      have hmono := VerifiersState.registeredCount_mono (VerifiersHost.handle_txs s q)
      exact ⟨h.1, lt_of_lt_of_le h.2 hmono⟩
  | heartbeat id => cases h
  | transaction tx => cases h

/-- A request is guarded: it records its verifier once, after the account has been registered. -/
abbrev VerifiersRequest.RecordsOnce (start : VerifiersState host) (request : VerifiersRequest host)
    (p : VerifiersProgram host VerifiersResponse) : Prop :=
  Guarded host.handle (fun s => start.txs <+: s.txs) (request.Entitled start)
    VerifiersQuery.creates request.Records p

/-- The last part of a registration creates at most one row. -/
theorem recordVerifier_makesOnce (user : host.AuthUser) (dto : RegisterVerifierDto)
    (success : Bool) :
    MakesOnce VerifiersQuery.creates (VerifiersRequest.Records (.register user dto))
      (recordVerifier user.1.id dto success : VerifiersProgram host VerifiersResponse) := by
  refine Uses.makesOnce_bind (p := throwIf _ _) (uses_throwIf _ _) fun _ => ?_
  refine Uses.makesOnce_bind (p := Date.now) ⟨rfl, fun _ => trivial⟩ fun now => ?_
  exact makesOnce_query rfl ⟨now, rfl⟩ fun _ => trivial

/-- A registration creates at most one row, and only after its call. -/
theorem register_recordsOnce (user : host.AuthUser) (dto : RegisterVerifierDto) :
    VerifiersRequest.RecordsOnce start (.register user dto)
      (register user.1.id user.1.stellarPub dto) := by
  refine Uses.guarded_bind (p := prisma.verifier.findFirst _) ⟨rfl, fun _ => trivial⟩
    fun existing => ?_
  refine Uses.guarded_bind (p := throwIf _ _) (uses_throwIf _ _) fun _ => ?_
  show VerifiersRequest.RecordsOnce start _
    (stellar.registerVerifier user.1.stellarPub dto.stake >>= recordVerifier user.1.id dto)
  unfold stellar.registerVerifier encoded
  cases haccount : host.account user.1.stellarPub with
  | error e => trivial
  | ok account =>
      refine ⟨rfl, fun s loaded hs hloaded => Or.inr ?_⟩
      refine guarded_query rfl (fun s' registered hs' hok => ?_)
        fun success => recordVerifier_makesOnce user dto success
      obtain rfl := Except.ok.inj hloaded
      obtain ⟨rfl, hlt⟩ := VerifiersHost.invoke_ok hs' hs.length_le hok
      exact ⟨haccount, hlt⟩

/-- Every request creates at most one row, and only when it is entitled to it. -/
theorem program_recordsOnce (request : VerifiersRequest host) :
    request.RecordsOnce start request.program := by
  cases request with
  | register user dto => exact register_recordsOnce user dto
  | heartbeat id => exact Uses.guarded (uses_heartbeat id rfl rfl fun _ => rfl)
  | transaction tx => exact Uses.guarded ⟨rfl, fun _ => trivial⟩

/-! ### Who leaves -/

/-- The transaction calls the contract with the authorisation of `a`. -/
def StakeTx.Authorises {ch : StakeHost T} (a : Address) : StakeTx ch → Prop
  | .call env _ _ => env.Authorised a
  | .other _ _ => False

/-- A registration is no departure. -/
theorem departedCount_registration (s : VerifiersState host) (n : ℕ) (account : Address) :
    (s.append (host.registration n account)).departedCount = s.departedCount := by
  rw [VerifiersState.departedCount_append]
  cases hcall : StakeLedger.accepted host.ch s.ledger (host.registration n account) with
  | none => rfl
  | some call =>
      obtain rfl := StakeLedger.accepted_call hcall
      rfl

/-- Nobody leaves without an own signature. -/
theorem departedCount_of_silent {tx : StakeTx host.ch} (h : ¬ tx.Authorises host.verifier)
    (s : VerifiersState host) : (s.append tx).departedCount = s.departedCount := by
  rw [VerifiersState.departedCount_append]
  cases tx with
  | other timestamp tokens => rfl
  | call env external call =>
      cases hdeparted : (StakeLedger.accepted host.ch s.ledger (.call env external call)).bind
          VerifierStake.Call.departed with
      | none => rfl
      | some v =>
          have hne : v ≠ host.verifier := by
            rintro rfl
            obtain ⟨call', hcall, hleft⟩ := Option.bind_eq_some_iff.mp hdeparted
            exact h (StakeLedger.authorised_of_accepted hcall (Or.inr hleft))
          simp [hne]

/-- The query is no transaction with the authorisation of the verifier account. -/
def VerifiersQuery.Silent (q : VerifiersQuery host) : Prop :=
  ∀ tx, q = .transaction tx → ¬ tx.Authorises host.verifier

/-- No request of the API makes its account depart. -/
theorem departedCount_handle {q : VerifiersQuery host} (hq : q.Silent) (s : VerifiersState host) :
    (host.handle q s).2.departedCount = s.departedCount := by
  have hchange := VerifiersHost.handle_change s q
  generalize (host.handle q s).2 = s' at hchange
  cases hchange with
  | keeps => rfl
  | creates => rfl
  | beats => rfl
  | registers account loaded => exact departedCount_registration s _ account
  | executes tx => exact departedCount_of_silent (hq tx rfl) s

/-- A registration asks only silent queries. -/
theorem uses_register_silent {userId wallet : String} {dto : RegisterVerifierDto} :
    (register userId wallet dto : VerifiersProgram host VerifiersResponse).Uses
      VerifiersQuery.Silent := by
  refine Uses.bind (p := prisma.verifier.findFirst _) ⟨nofun, fun _ => trivial⟩ fun existing => ?_
  refine Uses.bind (p := throwIf _ _) (uses_throwIf _ _) fun _ => ?_
  refine Uses.bind (p := stellar.registerVerifier wallet dto.stake) ?_ fun success => ?_
  · refine (uses_encoded wallet).bind fun account => ?_
    exact ⟨nofun, fun loaded => ⟨nofun, fun _ => trivial⟩⟩
  · refine Uses.bind (p := throwIf _ _) (uses_throwIf _ _) fun _ => ?_
    exact ⟨nofun, fun now => ⟨nofun, fun _ => trivial⟩⟩

end Programs

/-! ## Runs -/

section Runs

variable {T ι : Type} [DecidableEq ι] {host : VerifiersHost T}

/-- The requests, before their first queries. -/
def VerifiersHost.system (start : VerifiersState host) (requests : ι → VerifiersRequest host) :
    Pool ι (VerifiersState host) (fun q : VerifiersQuery host => q.Reply) VerifiersError
      VerifiersResponse where
  state := start
  programs i := (requests i).program

/-- The state after some turns of the requests. -/
def VerifiersHost.serve (start : VerifiersState host) (requests : ι → VerifiersRequest host)
    (turns : List ι) : VerifiersState host :=
  (run (Pool.next host.handle) (system start requests) turns).state

/-- The row is that of a request to register, whose user has the verifier account. -/
def VerifierRecord.OfRequest (request : VerifiersRequest host) (row : VerifierRecord) : Prop :=
  ∃ user dto, request = .register user dto ∧ row.userId = user.1.id ∧ row.stake = dto.stake ∧
    row.status = .active ∧ row.reputation = 0 ∧
      host.account user.1.stellarPub = .ok host.verifier

/-- What an entitled request has recorded. -/
theorem VerifiersRequest.Records.ofRequest {request : VerifiersRequest host}
    {start s : VerifiersState host} {q : VerifiersQuery host} {core : VerifierRecord}
    (hentitled : request.Entitled start s) (hq : request.Records q) (hcore : q.Creates core) :
    core.OfRequest request := by
  obtain ⟨_, _, _, _, _, n, rfl, rfl⟩ := hcore
  cases request with
  | register user dto =>
      obtain ⟨now, hquery⟩ := hq
      cases hquery
      exact ⟨user, dto, rfl, rfl, rfl, rfl, rfl, hentitled.1⟩
  | heartbeat id => cases hq
  | transaction tx => cases hq

/-- An entitled request finds the account registered more often than at the start. -/
theorem VerifiersRequest.Entitled.lt {request : VerifiersRequest host}
    {start s : VerifiersState host} (h : request.Entitled start s) :
    start.registeredCount < s.registeredCount := by
  cases request with
  | register user dto => exact h.2
  | heartbeat id => cases h
  | transaction tx => cases h

variable (start : VerifiersState host) (requests : ι → VerifiersRequest host) (turns : List ι)

/-- What the requests add: rows of different requests, after a registration. -/
theorem serve_cores : ∃ (makers : List ι) (new : List VerifierRecord), makers.Nodup ∧
    (VerifiersHost.serve start requests turns).cores = start.cores ++ new ∧
    List.Forall₂ (fun i core => core.OfRequest (requests i)) makers new ∧
    (new ≠ [] → start.registeredCount <
      (VerifiersHost.serve start requests turns).registeredCount) := by
  have hmakes : ∃ (makers : List ι) (new : List VerifierRecord), makers.Nodup ∧
      (VerifiersHost.serve start requests turns).cores = start.cores ++ new ∧
      List.Forall₂ (fun i core =>
        (requests i).Entitled start (VerifiersHost.serve start requests turns) ∧
          ∃ q, (requests i).Records q ∧ q.Creates core) makers new :=
    run_makes (I := fun s : VerifiersState host => start.txs <+: s.txs)
      (P := fun i s => (requests i).Entitled start s) VerifiersState.cores
      (VerifiersHost.system start requests)
      (fun q s hs => hs.trans (VerifiersHost.handle_txs s q)) (fun i q s hs => hs.handle q)
      (fun q s hq => VerifiersHost.handle_cores_of_not_creates hq s)
      (fun q s hq => VerifiersHost.handle_cores_of_creates hq s) (List.prefix_refl _)
      (fun i => program_recordsOnce (requests i)) turns
  obtain ⟨makers, new, hnodup, hcores, hall⟩ := hmakes
  refine ⟨makers, new, hnodup, hcores, hall.imp ?_, fun hnew => ?_⟩
  · rintro i core ⟨hentitled, q, hq, hcore⟩
    exact hq.ofRequest hentitled hcore
  · cases hall with
    | nil => exact absurd rfl hnew
    | cons hfirst _ => exact hfirst.1.lt

/-- **Rows and registrations.**  Whatever is requested, in any order and with any transactions of
others: the rows recorded are those of different requests, whose users have the verifier account of
the API as wallet, and with a row the contract has accepted a registration of that account since the
start. -/
theorem rows_registered (hstart : start.verifiers = []) :
    (∃ makers : List ι, makers.Nodup ∧
      List.Forall₂ (fun i row => row.OfRequest (requests i)) makers
        (VerifiersHost.serve start requests turns).verifiers) ∧
      ((VerifiersHost.serve start requests turns).verifiers ≠ [] →
        start.registeredCount < (VerifiersHost.serve start requests turns).registeredCount) := by
  obtain ⟨makers, new, hnodup, hcores, hall, hcount⟩ := serve_cores start requests turns
  have hempty : start.cores = [] := by
    unfold VerifiersState.cores
    rw [hstart, List.map_nil]
  rw [hempty, List.nil_append] at hcores
  rw [← hcores] at hall hcount
  refine ⟨⟨makers, hnodup, ?_⟩, fun hrows => hcount (mt List.map_eq_nil_iff.mp hrows)⟩
  exact (List.forall₂_map_right_iff.mp hall).imp fun i row h => h

/-- While no other client signs for the API's account, it does not depart. -/
theorem serve_departedCount (hsilent : ∀ i tx, requests i = .transaction tx →
      ¬ tx.Authorises host.verifier) :
    (VerifiersHost.serve start requests turns).departedCount = start.departedCount := by
  refine (run_keeps (VerifiersHost.system start requests) (fun i => ?_) turns).1
  show Keeps host.handle _ (requests i).program
  have hkeeps : ∀ q : VerifiersQuery host, q.Silent → ∀ s,
      (host.handle q s).2.departedCount = s.departedCount := fun q hq s =>
    departedCount_handle hq s
  cases hrequest : requests i with
  | register user dto => exact keeps_of_uses hkeeps uses_register_silent
  | heartbeat id => exact keeps_of_uses hkeeps (uses_heartbeat id nofun nofun fun _ => nofun)
  | transaction tx =>
      refine keeps_of_uses hkeeps ⟨fun tx' htx => ?_, fun _ => trivial⟩
      obtain rfl := VerifiersQuery.transaction.inj htx
      exact hsilent i tx hrequest

/-- **Registered once.**  Let no transaction of another client be authorised by the verifier account
of the API.  Then no request removes a row or changes it, but for its heartbeat; none is added when
the account was registered on the chain before; and once a row is added the account is
registered. -/
theorem registered_once (hsilent : ∀ i tx, requests i = .transaction tx →
      ¬ tx.Authorises host.verifier) :
    start.cores <+: (VerifiersHost.serve start requests turns).cores ∧
      (start.registered = true →
        (VerifiersHost.serve start requests turns).cores = start.cores) ∧
      ((VerifiersHost.serve start requests turns).cores ≠ start.cores →
        (VerifiersHost.serve start requests turns).registered = true) := by
  obtain ⟨makers, new, -, hcores, -, hcount⟩ := serve_cores start requests turns
  have hdeparted := serve_departedCount start requests turns hsilent
  rw [VerifiersState.registeredCount_eq, VerifiersState.registeredCount_eq, hdeparted] at hcount
  generalize VerifiersHost.serve start requests turns = s at hcores hcount
  have hone := Bool.toNat_le s.registered
  -- a new row means that the account was not registered before, and is now
  have hnew : new ≠ [] → start.registered = false ∧ s.registered = true := by
    intro hne
    have hlt := hcount hne
    cases hs : s.registered with
    | false =>
        rw [hs, Bool.toNat_false] at hlt
        omega
    | true =>
        cases hstart : start.registered with
        | false => exact ⟨rfl, rfl⟩
        | true =>
            rw [hs, hstart] at hlt
            omega
  refine ⟨hcores ▸ List.prefix_append _ _, fun hregistered => ?_, fun hadded => ?_⟩
  · have hnone : new = [] := by
      by_contra hne
      exact Bool.noConfusion ((hnew hne).1.symm.trans hregistered)
    rw [hcores, hnone, List.append_nil]
  · refine (hnew fun hnone => hadded ?_).2
    rw [hcores, hnone, List.append_nil]

end Runs

namespace Sample

/-- The second invocation sends the transaction of the first. -/
def verifiersHost : VerifiersHost Balances where
  sdk := stellarSdk
  ch := stakeHost
  tokens := stakeBalances
  verifier := .account 0
  verifier_external := by decide
  timestamp n := 20 + n
  sequence n := 20 + n
  invocation n := if n = 5 then .shares 1 else .settles
  outage _ := none
  time n := n
  cuid n := "verifier" ++ toString n
  users := [⟨"user", wallet⟩]

/-- The stake contract is set up. -/
def verifiersStart : VerifiersState verifiersHost where
  txs := [stakeCall 1 0 (.init (.account 1) stakeAsset)]

/-- The user of the verifier account asks twice. -/
def registerTwice (_ : Bool) : VerifiersRequest verifiersHost :=
  .register ⟨_, List.mem_singleton.mpr rfl⟩ ⟨50000, by norm_num⟩

/-- Both requests find no row, and load the same sequence number, before either registers. -/
def raceTurns : List Bool :=
  [true, false, true, false, true, false, true, true, false, false]

/-- Both are recorded, with one registration. -/
example : ((VerifiersHost.serve verifiersStart registerTwice raceTurns).verifiers.map
      VerifierRecord.userId) = ["user", "user"] ∧
    (VerifiersHost.serve verifiersStart registerTwice raceTurns).registeredCount = 1 := by
  decide +kernel

end Sample

/-- Two racing registrations share one transaction, and each row is one of theirs. -/
theorem rows_registered_race :
    ∃ makers : List Bool, makers.Nodup ∧
      List.Forall₂ (fun i row => row.OfRequest (Sample.registerTwice i)) makers
        (VerifiersHost.serve Sample.verifiersStart Sample.registerTwice
          Sample.raceTurns).verifiers :=
  (rows_registered Sample.verifiersStart Sample.registerTwice Sample.raceTurns rfl).1

/-- The rows of the race come behind those at the start. -/
theorem registered_once_race :
    Sample.verifiersStart.cores <+:
      (VerifiersHost.serve Sample.verifiersStart Sample.registerTwice Sample.raceTurns).cores := by
  refine (registered_once Sample.verifiersStart Sample.registerTwice Sample.raceTurns ?_).1
  intro i tx h
  cases h

end CarbonVeritas
