/-
# One import, one credit

The mint is a call of the registry, the mark is a write of the bridge, and the mark is
written last.  A transaction that panics in between leaves neither, so the two agree.

`bridge_dedup` : in every run a pair of a registry and a serial is imported at most once,
the marks are the pairs imported so far, and each import creates one credit of its own.
-/
import CarbonVeritas.Bridging

namespace CarbonVeritas

open Transition

namespace World

variable {T : Type} {ch : Chain T} {w w' : World T} {tx : Tx ch}

/-! ## The checks of an import -/

/-- What a call of `bridge_in` needs: the signature of the bridger, a proof up to the stored
root of the source registry, a pair without a mark, metadata that the registry accepts, and a
registry that has authorised the bridge. -/
structure MayImport (ch : Chain T) (w : World T) (tx : Tx ch) (bridger : Address)
    (sourceRegistry sourceSerial : SorobanString) (leaf : Bytes32) (merkleProof : List Bytes32)
    (metadata : CreditMetadata) : Prop where
  signed : bridger ∈ tx.signers
  proof : ∃ rootInfo, w.bridge.registryRoots sourceRegistry = some rootInfo ∧
    PairTree.fold (MerkleBridge.hashPair ch) leaf merkleProof = rootInfo.root
  fresh : w.bridge.bridged (sourceRegistry, sourceSerial) = false
  valid : CreditRegistry.ValidMetadata metadata
  bridge : ∃ r, w.bridge.creditRegistry = some r ∧ ch.isRegistry r = true ∧
    (w.registry r).bridges (ch.address .bridge) = true

/-- These checks are all that `bridge_in` needs. -/
theorem succeeds_bridgeIn_iff {bridger : Address} {sourceRegistry sourceSerial : SorobanString}
    {leaf : Bytes32} {merkleProof : List Bytes32} {metadata : CreditMetadata}
    (hcall : tx.call = .bridge
      (.bridgeIn bridger sourceRegistry sourceSerial leaf merkleProof metadata)) :
    Succeeds ch w tx ↔
      MayImport ch w tx bridger sourceRegistry sourceSerial leaf merkleProof metadata := by
  constructor
  · intro hsucc
    have hstep := exec_step hsucc.exec_eq
    rw [hcall] at hstep
    generalize apply ch w tx = w' at hstep
    cases hstep with
    | bridge hchange =>
        cases hchange with
        | keep _ _ hread => simp at hread
        | @bridgeIn _ _ _ _ _ _ r _ _ hchecks _ _ =>
            obtain ⟨-, hbridge, hvalid, -, -⟩ := CreditRegistry.mintBridged_eq_ok.mp hchecks.minted
            exact ⟨tx.env_authorised.mp hchecks.authorised, hchecks.proof, hchecks.fresh, hvalid,
              r, hchecks.wired, hchecks.isRegistry, hbridge⟩
  · rintro ⟨hsigned, hproof, hfresh, hvalid, r, hwired, hr, hbridge⟩
    have hin := MerkleBridge.bridgeIn_eq_ok.mpr ⟨r, _, ⟨tx.env_authorised.mpr hsigned, hproof,
      hfresh, hwired, hr, CreditRegistry.mintBridged_eq_ok.mpr
        ⟨Env.calledBy_authorised_self _ _, hbridge, hvalid, rfl, rfl⟩⟩, rfl, rfl⟩
    unfold Succeeds exec
    simp only [hcall, MerkleBridge.exec, hin]
    exact ⟨_, rfl⟩

/-! ## The credit of an import -/

/-- The credit that a call of `bridge_in` returns, with its registry. -/
def bridgedIn (ch : Chain T) (w : World T) (tx : Tx ch) : Option (Address × ℕ) :=
  match tx.call with
  | .bridge (.bridgeIn bridger sourceRegistry sourceSerial leaf merkleProof metadata) =>
      match w.bridge.creditRegistry, MerkleBridge.bridgeIn ch tx.env w.bridge w.ledger bridger
        sourceRegistry sourceSerial leaf merkleProof metadata with
      | some r, .ok (id, _, _) => some (r, id)
      | _, _ => none
  | _ => none

/-- The credits that the steps of a history import, in order. -/
def bridgedIns (ch : Chain T) (hist : List (World T × Tx ch)) : List (Address × ℕ) :=
  hist.filterMap fun p => bridgedIn ch p.1 p.2

theorem mem_bridgedIns {hist : List (World T × Tx ch)} {k : Address × ℕ} :
    k ∈ bridgedIns ch hist ↔ ∃ p ∈ hist, bridgedIn ch p.1 p.2 = some k :=
  List.mem_filterMap

theorem bridgedIns_concat (hist : List (World T × Tx ch)) (w : World T) (tx : Tx ch) :
    bridgedIns ch (hist ++ [(w, tx)]) = bridgedIns ch hist ++ (bridgedIn ch w tx).toList :=
  filterMap_concat _ _ _

/-- The registry at `r` gets the active credit `id` of `owner`; nothing else changes in the
credits, the owners and the votes. -/
structure Creates (w w' : World T) (r : Address) (id : ℕ) (owner : Address) : Prop where
  unused : (w.registry r).credits id = none ∧ (w.registry r).owners id = none
  credits : ∃ m, m.status = .active ∧
    (w'.registry r).credits = Function.update (w.registry r).credits id (some m)
  owners : (w'.registry r).owners = Function.update (w.registry r).owners id (some owner)
  approvals : (w'.registry r).approvals = (w.registry r).approvals
  others : ∀ r', r' ≠ r → w'.registry r' = w.registry r'

/-- What `mint_bridged` does to the registry at `r`. -/
theorem creates_of_mint {env : Env} {r bridge owner : Address} {metadata : CreditMetadata} {id : ℕ}
    {s : CreditRegistry} (hidx : (w.registry r).CreditsIndexed)
    (hmint : (w.registry r).mintBridged ch.sha256 env bridge owner metadata = .ok (id, s))
    (hledger : w'.ledger = w.ledger.writeRegistry r s) : Creates w w' r id owner := by
  obtain ⟨-, -, -, rfl, rfl⟩ := CreditRegistry.mintBridged_eq_ok.mp hmint
  have hother : ∀ r', r' ≠ r → w'.registry r' = w.registry r' := by
    intro r' hr'
    unfold registry
    rw [hledger, Ledger.registry_writeRegistry_ne hr']
  have hself : w'.registry r = w'.ledger.registries r := rfl
  rw [hledger, Ledger.registry_writeRegistry_self] at hself
  refine ⟨hidx.fresh, ⟨CreditRegistry.bridgedMetadata ch.sha256 env metadata
    ((w.registry r).creditCounter + 1), rfl, ?_⟩, ?_, ?_, hother⟩
  · rw [hself]
    simp
  · rw [hself]
    simp
  · rw [hself]
    simp

/-- An accepted import creates the credit that it returns, for the bridger. -/
theorem creates_of_bridgeIn {bridger : Address} {sourceRegistry sourceSerial : SorobanString}
    {leaf : Bytes32} {merkleProof : List Bytes32} {metadata : CreditMetadata}
    (hcall : tx.call = .bridge
      (.bridgeIn bridger sourceRegistry sourceSerial leaf merkleProof metadata))
    (hsucc : Succeeds ch w tx) (hidx : ∀ r, (w.registry r).CreditsIndexed) :
    ∃ r id, bridgedIn ch w tx = some (r, id) ∧ Creates w (apply ch w tx) r id bridger := by
  have hstep := exec_step hsucc.exec_eq
  unfold bridgedIn
  rw [hcall] at hstep ⊢
  generalize apply ch w tx = w' at hstep ⊢
  cases hstep with
  | bridge hchange =>
      cases hchange with
      | keep _ _ hread => simp at hread
      | @bridgeIn _ _ _ _ _ _ r id s hchecks _ hl =>
          have hin := MerkleBridge.bridgeIn_eq_ok.mpr ⟨r, s, hchecks, rfl, rfl⟩
          refine ⟨r, id, ?_, creates_of_mint (hidx r) hchecks.minted hl⟩
          simp only [hchecks.wired, hin]

/-- Only an accepted `bridge_in` returns a credit. -/
theorem bridgedIn_eq_some {k : Address × ℕ} (h : bridgedIn ch w tx = some k) :
    Succeeds ch w tx ∧ ∃ bridger sourceRegistry sourceSerial leaf merkleProof metadata,
      tx.call = .bridge
        (.bridgeIn bridger sourceRegistry sourceSerial leaf merkleProof metadata) := by
  unfold bridgedIn at h
  split at h
  · next bridger sourceRegistry sourceSerial leaf merkleProof metadata hcall =>
      refine ⟨?_, bridger, sourceRegistry, sourceSerial, leaf, merkleProof, metadata, hcall⟩
      split at h
      · next hin =>
          unfold Succeeds exec
          simp only [hcall, MerkleBridge.exec, hin]
          exact ⟨_, rfl⟩
      · cases h
  · cases h

/-- The credit that an import returns was not in use, and belongs to the bridger. -/
theorem creates_of_bridgedIn {k : Address × ℕ} (h : bridgedIn ch w tx = some k)
    (hidx : ∀ r, (w.registry r).CreditsIndexed) :
    ∃ owner, Creates w (apply ch w tx) k.1 k.2 owner := by
  obtain ⟨hsucc, bridger, _, _, _, _, _, hcall⟩ := bridgedIn_eq_some h
  obtain ⟨r, id, hin, hcreates⟩ := creates_of_bridgeIn hcall hsucc hidx
  rw [h] at hin
  obtain rfl := Option.some.inj hin
  exact ⟨bridger, hcreates⟩

/-! ## The marks -/

/-- A transaction adds the pair of its record to the marks, and nothing else. -/
theorem bridged_apply (w : World T) (tx : Tx ch) (key : SorobanString × SorobanString) :
    (apply ch w tx).bridge.bridged key = true ↔
      w.bridge.bridged key = true ∨ ∃ i, imported ch w tx = some i ∧ i.key = key := by
  by_cases hsucc : Succeeds ch w tx
  · rw [imported_of_ok hsucc.exec_eq]
    rcases exec_bridged hsucc.exec_eq with ⟨hnone, hsame⟩ | ⟨i, hsome, -, hset⟩
    · rw [hnone, hsame]
      simp
    · rw [hsome, hset]
      by_cases hkey : key = i.key
      · subst hkey
        simp
      · rw [Function.update_of_ne hkey]
        simp [Ne.symm hkey]
  · rw [apply_of_not_succeeds hsucc, imported_of_not_succeeds hsucc]
    simp

/-- The marks are the pairs imported so far. -/
theorem bridged_run (tokens : T) (ts : List (Tx ch)) (key : SorobanString × SorobanString) :
    (run (apply ch) (genesis tokens) ts).bridge.bridged key = true ↔
      key ∈ (imports ch (steps (apply ch) (genesis tokens) ts)).map Import.key := by
  refine history_invariant (C := fun _ _ => True)
    (I := fun hist (w : World T) => w.bridge.bridged key = true ↔
      key ∈ (imports ch hist).map Import.key) ?_ ?_ fun _ _ => trivial
  · show false = true ↔ key ∈ []
    simp
  · intro hist w tx ih _
    rw [bridged_apply, ih, imports_concat, List.map_append, List.mem_append]
    refine or_congr_right ?_
    cases imported ch w tx with
    | none => simp
    | some i => simp [eq_comm]

/-! ## The credits of a run -/

/-- No two imports share a credit. -/
theorem nodup_bridgedIns (tokens : T) (ts : List (Tx ch)) :
    (bridgedIns ch (steps (apply ch) (genesis tokens) ts)).Nodup := by
  refine nodup_log (J := fun w : World T => ∀ r, (w.registry r).CreditsIndexed)
    (P := fun w k => ∃ m, (w.registry k.1).credits k.2 = some m)
    (fun w tx hidx r => indexed_apply (hidx r)) ?_ ?_ (fun r => indexed_genesis r tokens) ts
  · -- an imported credit is stored, and it was not before
    intro w tx k hidx hin
    obtain ⟨owner, hcreates⟩ := creates_of_bridgedIn hin hidx
    constructor
    · rintro ⟨m, hm⟩
      rw [hcreates.unused.1] at hm
      cases hm
    · obtain ⟨m, -, hm⟩ := hcreates.credits
      exact ⟨m, by rw [hm, Function.update_self]⟩
  · rintro w tx k hidx ⟨m, hm⟩
    obtain ⟨m', hm', -⟩ := credit_reaches (hidx k.1) hm tx
    exact ⟨m', hm'⟩

/-! ## The main theorem -/

/-- **Bridge dedup.**  In every run of the four contracts: no pair of a registry and a serial
is imported twice, the marks are the pairs imported so far, and no two imports create the same
credit.  In each step: a transaction that panics changes nothing; a transaction adds the pair
of the record that it imports to the marks, and no other pair; and a call of `bridge_in` is
accepted exactly if it passes the checks, and then creates one credit, of the bridger. -/
theorem bridge_dedup (ch : Chain T) (tokens : T) (ts : List (Tx ch)) :
    (∀ key, ((imports ch (steps (apply ch) (genesis tokens) ts)).map Import.key).count key ≤ 1) ∧
      (∀ key, (run (apply ch) (genesis tokens) ts).bridge.bridged key = true ↔
        key ∈ (imports ch (steps (apply ch) (genesis tokens) ts)).map Import.key) ∧
      (bridgedIns ch (steps (apply ch) (genesis tokens) ts)).Nodup ∧
      ∀ p ∈ steps (apply ch) (genesis tokens) ts,
        (¬ Succeeds ch p.1 p.2 → apply ch p.1 p.2 = p.1) ∧
        (∀ key, (apply ch p.1 p.2).bridge.bridged key = true ↔
          p.1.bridge.bridged key = true ∨ ∃ i, imported ch p.1 p.2 = some i ∧ i.key = key) ∧
        ∀ bridger sourceRegistry sourceSerial leaf merkleProof metadata,
          p.2.call = .bridge
            (.bridgeIn bridger sourceRegistry sourceSerial leaf merkleProof metadata) →
          (Succeeds ch p.1 p.2 ↔ MayImport ch p.1 p.2 bridger sourceRegistry sourceSerial leaf
            merkleProof metadata) ∧
          (Succeeds ch p.1 p.2 → ∃ r id, bridgedIn ch p.1 p.2 = some (r, id) ∧
            Creates p.1 (apply ch p.1 p.2) r id bridger) := by
  refine ⟨List.nodup_iff_count.mp (nodup_keys tokens ts), bridged_run tokens ts,
    nodup_bridgedIns tokens ts, ?_⟩
  rintro ⟨w, tx⟩ hp
  obtain ⟨us, vs, -, hw⟩ := (mem_steps_iff _ _ _ _).mp hp
  have hidx : ∀ r, (w.registry r).CreditsIndexed := by
    intro r
    rw [show w = run (apply ch) (genesis tokens) us from hw]
    exact indexed_run tokens us r
  refine ⟨apply_of_not_succeeds, bridged_apply w tx, ?_⟩
  intro bridger sourceRegistry sourceSerial leaf merkleProof metadata hcall
  exact ⟨succeeds_bridgeIn_iff hcall, fun hsucc => creates_of_bridgeIn hcall hsucc hidx⟩

end World

end CarbonVeritas
