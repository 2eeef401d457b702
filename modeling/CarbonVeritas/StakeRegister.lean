/-
# The register of verifiers

The records and the list of their keys are stored side by side.  `Kept` is the invariant of a
history: the list holds the keys in the order of their latest registrations, and a record knows
its key.  `register_consistent` is what a reader of the contract gets from it after any run.
-/
import CarbonVeritas.StakeRuns

namespace CarbonVeritas

open Transition

namespace VerifierStake

/-- The verifier that a call registers. -/
def Call.registered : Call → Option Address
  | .register v => some v
  | _ => none

section Records

variable {T : Type} {host : StakeHost T} {env : Env} {s s' : VerifierStake} {t t' : T}
  {call : Call}

/-- A record is stored under its address. -/
def Addressed (s : VerifierStake) : Prop :=
  ∀ v record, s.verifiers v = some record → record.address = v

theorem StakeChange.addressed (h : StakeChange host env s t s' t' call) (hs : Addressed s) :
    Addressed s' := by
  intro v record hrecord
  cases h.record hrecord with
  | other _ hold => exact hs v record hold
  | register _ => rfl
  | stake _ hold =>
      have hkey := hs v _ hold
      exact hkey
  | slash _ hold _ =>
      have hkey := hs v _ hold
      exact hkey
  | heartbeat hold =>
      have hkey := hs v _ hold
      exact hkey

/-- A call that registers enters its verifier in the log. -/
theorem StakeChange.inOrder (h : StakeChange host env s t s' t' call) {log : List Address}
    (hlog : Roster.InOrder log s.vList s.verifiers) :
    Roster.InOrder (log ++ call.registered.toList) s'.vList s'.verifiers := by
  have hsame : Roster.InOrder (log ++ []) s.vList s.verifiers := by
    rwa [List.append_nil]
  cases h with
  | keep hs _ hread =>
      rw [hs]
      rcases hread with ⟨_, rfl⟩ | ⟨_, rfl⟩ | rfl <;> exact hsame
  | init _ hs _ =>
      rw [hs]
      exact hsame
  | register _ hnone _ _ hs =>
      rw [hs]
      exact hlog.insert hnone _
  | stake _ _ hrecord _ _ hs =>
      rw [hs]
      exact hsame.update hrecord _
  | slash _ _ _ hrecord _ hs _ =>
      rw [hs]
      exact hsame.update hrecord _
  | unregister _ _ _ _ _ hs =>
      rw [hs]
      exact hsame.erase _
  | heartbeat _ hrecord hs _ =>
      rw [hs]
      exact hsame.update hrecord _

/-- What `get_all_verifiers` returns is what `get_verifier` returns for each listed key. -/
theorem mem_getAllVerifiers (hlists : Roster.Lists s.vList s.verifiers) (hs : Addressed s)
    {record : Verifier} :
    record ∈ s.getAllVerifiers ↔ s.getVerifier record.address = .ok record := by
  unfold getAllVerifiers getVerifier
  rw [List.mem_filterMap, orPanic_eq_ok]
  constructor
  · rintro ⟨v, -, hrecord⟩
    rwa [hs v record hrecord]
  · intro hrecord
    exact ⟨_, hlists.mem hrecord, hrecord⟩

/-- The addresses of the returned records are the list. -/
theorem map_address_getAllVerifiers (hlists : Roster.Lists s.vList s.verifiers)
    (hs : Addressed s) : s.getAllVerifiers.map Verifier.address = s.vList := by
  have hpresent : ∀ v ∈ s.vList, (s.verifiers v).map Verifier.address = some v := by
    intro v hv
    obtain ⟨record, hrecord⟩ := Option.isSome_iff_exists.mp ((hlists.mem_iff v).mp hv)
    rw [hrecord]
    exact congrArg some (hs v record hrecord)
  unfold getAllVerifiers
  rw [List.map_filterMap, List.filterMap_congr hpresent]
  exact List.filterMap_some

end Records

end VerifierStake

namespace StakeLedger

variable {T : Type} {host : StakeHost T} {w : StakeLedger T} {tx : StakeTx host}
  {hist : List (StakeLedger T × StakeTx host)}

/-- The call that takes effect is the one that was made. -/
theorem accepted_call {env : Env} {external : ¬ env.Authorised host.address}
    {call call' : VerifierStake.Call}
    (h : accepted host w (.call env external call) = some call') : call' = call := by
  simp only [accepted] at h
  cases hexec : VerifierStake.exec host env w.contract w.tokens call with
  | ok r =>
      rw [hexec] at h
      exact (Option.some.inj h).symm
  | error p =>
      rw [hexec] at h
      cases h

/-- The accepted registrations of a history, in their order. -/
def registrations (host : StakeHost T) (hist : List (StakeLedger T × StakeTx host)) :
    List Address :=
  hist.filterMap fun p => (accepted host p.1 p.2).bind VerifierStake.Call.registered

theorem registrations_concat (hist : List (StakeLedger T × StakeTx host)) (w : StakeLedger T)
    (tx : StakeTx host) :
    registrations host (hist ++ [(w, tx)]) = registrations host hist ++
      ((accepted host w tx).bind VerifierStake.Call.registered).toList := by
  unfold registrations
  rw [List.filterMap_append]
  congr 1

/-- The list and the records after a history. -/
structure Kept (host : StakeHost T) (hist : List (StakeLedger T × StakeTx host))
    (w : StakeLedger T) : Prop where
  inOrder : Roster.InOrder (registrations host hist) w.contract.vList w.contract.verifiers
  addressed : w.contract.Addressed

theorem kept_genesis (host : StakeHost T) (tokens : T) : Kept host [] (genesis tokens) where
  inOrder :=
    { list_eq := rfl
      logged := fun v hv => by cases hv }
  addressed v record h := by cases h

theorem Kept.step (h : Kept host hist w) : Kept host (hist ++ [(w, tx)]) (apply host w tx) := by
  cases hcall : accepted host w tx with
  | none =>
      have hcontract := contract_of_not_accepted hcall
      refine ⟨?_, ?_⟩
      · rw [registrations_concat, hcall, hcontract]
        exact (List.append_nil _).symm ▸ h.inOrder
      · rw [hcontract]
        exact h.addressed
  | some call =>
      obtain ⟨env, -, -, hchange⟩ := change_of_accepted hcall
      refine ⟨?_, hchange.addressed h.addressed⟩
      rw [registrations_concat, hcall]
      exact hchange.inOrder h.inOrder

theorem kept_run (host : StakeHost T) (tokens : T) (ts : List (StakeTx host)) :
    Kept host (steps (apply host) (genesis tokens) ts)
      (run (apply host) (genesis tokens) ts) :=
  history_invariant (C := fun _ _ => True) (kept_genesis host tokens)
    (fun _ _ _ h _ => h.step) (fun _ _ => trivial)

/-- The list and the records agree; `log` are the registrations so far. -/
structure Consistent (log : List Address) (s : VerifierStake) : Prop where
  /-- the list holds the keys with a record, -/
  mem_iff : ∀ v, v ∈ s.vList ↔ s.isVerifier v = true
  /-- each once, -/
  nodup : s.vList.Nodup
  /-- in the order of their latest registrations -/
  order : s.vList = log.dedup.filter s.isVerifier
  addressed : ∀ v record, s.verifiers v = some record → record.address = v
  /-- one record for each listed address, in the order of the list -/
  all_addresses : s.getAllVerifiers.map Verifier.address = s.vList
  /-- and each is the one that `get_verifier` returns -/
  all_records : ∀ record,
    record ∈ s.getAllVerifiers ↔ s.getVerifier record.address = .ok record

/-- **The register is consistent** after every run, and a removal leaves the records of the
others. -/
theorem register_consistent (host : StakeHost T) (tokens : T) (ts : List (StakeTx host)) :
    Consistent (registrations host (steps (apply host) (genesis tokens) ts))
      (run (apply host) (genesis tokens) ts).contract ∧
    ∀ (env : Env) (external : ¬ env.Authorised host.address) (v u : Address), u ≠ v →
      (apply host (run (apply host) (genesis tokens) ts)
        (.call env external (.unregister v))).contract.verifiers u =
          (run (apply host) (genesis tokens) ts).contract.verifiers u := by
  have hkept := kept_run host tokens ts
  have hlists := hkept.inOrder.lists
  refine ⟨⟨hlists.mem_iff, hlists.nodup, hkept.inOrder.list_eq, hkept.addressed,
    VerifierStake.map_address_getAllVerifiers hlists hkept.addressed,
    fun _ => VerifierStake.mem_getAllVerifiers hlists hkept.addressed⟩, ?_⟩
  intro env external v u hu
  cases hcall : accepted host (run (apply host) (genesis tokens) ts)
      (.call env external (.unregister v)) with
  | none => rw [contract_of_not_accepted hcall]
  | some call =>
      obtain ⟨_, -, -, hchange⟩ := change_of_accepted hcall
      obtain rfl := accepted_call hcall
      refine hchange.verifiers_of_ne fun hv => hu ?_
      exact (Option.some.inj hv).symm

end StakeLedger

namespace Sample

/-- Accounts 1 and 2 register, and account 1 leaves after the cooldown and comes back. -/
def rejoined : List (StakeTx stakeHost) :=
  stakeSetup ++ [stakeCall 2 20 (.register (.account 2)),
    stakeCall 1 3000000 (.unregister (.account 1)), stakeCall 1 3000001 (.register (.account 1))]

/-- The list has the latest registrations in their order. -/
example : (run (StakeLedger.apply stakeHost) (StakeLedger.genesis stakeBalances)
    rejoined).contract.vList = [.account 2, .account 1] := by
  decide +kernel

end Sample

namespace StakeLedger

open Sample in
theorem register_consistent_rejoined :
    (apply stakeHost (run (apply stakeHost) (genesis stakeBalances) rejoined)
        (stakeCall 1 9000000 (.unregister (.account 1)))).contract.verifiers (.account 2) =
      (run (apply stakeHost) (genesis stakeBalances) rejoined).contract.verifiers
        (.account 2) :=
  (register_consistent stakeHost stakeBalances rejoined).2 _ _ (.account 1) (.account 2)
    (by decide)

end StakeLedger

end CarbonVeritas
