/-
# Where a bridged-out credit comes from

`bridge_out` asks the registry for the owner of a credit and retires it.  Neither knows
where the credit comes from: credits that were voted on, and credits of other bridges, have
the same ids, the same status and the same owners as those that the bridge has imported.

`bridged_out_origin_iff` : every credit that a run bridges out was imported by the bridge
before, exactly if none of them was voted on or minted by another bridge.
-/
import CarbonVeritas.BridgeDedup
import CarbonVeritas.Voting
import Mathlib.Data.List.Perm.Subperm

namespace CarbonVeritas

open Transition

namespace CreditRegistry

variable {sha256 : (n : ℕ) → BitVec n → Bytes32} {env : Env} {s s' s'' : CreditRegistry}

/-! ## The live credits of a registry -/

/-- From `s` to `s'`, a credit becomes live by votes only, and a live credit stays live and
gets no votes. -/
structure Evolves (s s' : CreditRegistry) : Prop where
  voted : ∀ id, Live s' id → Live s id ∨ s'.approvals id ≠ []
  kept : ∀ id, Live s id → Live s' id ∧ s'.approvals id = s.approvals id
  votes : ∀ id, s.approvals id ≠ [] → s'.approvals id ≠ []

/-- A registry that stays as it is evolves. -/
theorem Evolves.refl (s : CreditRegistry) : Evolves s s where
  voted _ := Or.inl
  kept _ h := ⟨h, rfl⟩
  votes _ h := h

/-- A registry evolves step by step. -/
theorem Evolves.trans (h : Evolves s s') (h' : Evolves s' s'') : Evolves s s'' where
  voted id hlive := by
    rcases h'.voted id hlive with hlive | hvotes
    · exact (h.voted id hlive).imp_right (h'.votes id)
    · exact Or.inr hvotes
  kept id hlive := by
    obtain ⟨hlive', hlog⟩ := h.kept id hlive
    obtain ⟨hlive'', hlog'⟩ := h'.kept id hlive'
    exact ⟨hlive'', hlog'.trans hlog⟩
  votes id hvotes := h'.votes id (h.votes id hvotes)

/-- A live credit stays live. -/
theorem Live.exec (hidx : CreditsIndexed s) {call : Call} (hexec : exec sha256 env s call = .ok s')
    {id : ℕ} (h : Live s id) : Live s' id := by
  obtain ⟨m, hm, hstatus⟩ := h
  obtain ⟨m', hm', -, hsame | hmove⟩ := (exec_creditChange hexec).metadata hidx hm
  · exact ⟨m', hm', by rwa [hsame]⟩
  · refine ⟨m', hm', ?_⟩
    rcases hstatus with hactive | hretired
    · rw [hactive] at hmove
      generalize m'.status = status at hmove ⊢
      cases hmove
      exact Or.inr rfl
    · exact absurd hretired hmove.not_final.2

/-- A live credit is not pending. -/
theorem Live.not_pending {id : ℕ} (h : Live s id) {m : CreditMetadata}
    (hm : s.credits id = some m) : m.status ≠ .pending := by
  obtain ⟨m', hm', hstatus⟩ := h
  obtain rfl : m = m' := Option.some.inj (hm.symm.trans hm')
  rcases hstatus with hstatus | hstatus
  · simp [hstatus]
  · simp [hstatus]

/-- A mint by vote leaves a vote. -/
theorem MintsByVote.log_ne_nil {call : Call} (hexec : exec sha256 env s call = .ok s') {id : ℕ}
    (h : MintsByVote sha256 (s, env, call) id) : s'.approvals id ≠ [] := by
  obtain ⟨verifier, comments, rfl⟩ := h.call
  cases exec_voteChange hexec with
  | other hcall _ _ => cases hcall
  | vote hcall _ _ _ _ hlog _ =>
      obtain rfl := Option.some.inj hcall
      rw [hlog, Function.update_self]
      simp

/-- Every call but `mint_bridged`. -/
theorem evolves_of_exec (hidx : CreditsIndexed s) {call : Call}
    (hexec : exec sha256 env s call = .ok s')
    (hcall : ∀ bridge toAddr metadata, call ≠ .mintBridged bridge toAddr metadata) :
    Evolves s s' := by
  constructor
  · intro id hlive
    rcases live_of_exec hexec hlive with hlive | hvote | hbridged
    · exact Or.inl hlive
    · exact Or.inr (hvote.log_ne_nil hexec)
    · obtain ⟨bridge, toAddr, metadata, heq⟩ := hbridged.call
      exact absurd heq (hcall bridge toAddr metadata)
  · intro id hlive
    refine ⟨hlive.exec hidx hexec, ?_⟩
    cases exec_voteChange hexec with
    | other _ hlog _ => rw [hlog]
    | vote _ hmay _ _ _ hlog _ =>
        -- votes are for pending credits
        rw [hlog, Function.update_of_ne]
        rintro rfl
        exact hlive.not_pending hmay.stored hmay.pending
  · intro id hvotes
    cases exec_voteChange hexec with
    | other _ hlog _ => rwa [hlog]
    | @vote b _ _ _ _ _ _ _ hlog _ =>
        rw [hlog]
        by_cases hid : id = b.creditId
        · subst hid
          rw [Function.update_self]
          simp
        · rwa [Function.update_of_ne hid]

end CreditRegistry

namespace World

variable {T : Type} {ch : Chain T} {w w' : World T} {tx : Tx ch}

/-! ## Mints of other bridges -/

/-- The credit that a direct call of `mint_bridged` returns, with its registry: the caller is
another authorised bridge. -/
def directMint (ch : Chain T) (w : World T) (tx : Tx ch) : Option (Address × ℕ) :=
  match tx.call with
  | .registry r (.mintBridged bridge toAddr metadata) =>
      match ch.isRegistry r,
        (w.registry r).mintBridged ch.sha256 tx.env bridge toAddr metadata with
      | true, .ok (id, _) => some (r, id)
      | _, _ => none
  | _ => none

/-- The credits that the steps of a history mint directly, in order. -/
def directMints (ch : Chain T) (hist : List (World T × Tx ch)) : List (Address × ℕ) :=
  hist.filterMap fun p => directMint ch p.1 p.2

/-- One more transaction adds what it mints by itself. -/
theorem directMints_concat (hist : List (World T × Tx ch)) (w : World T) (tx : Tx ch) :
    directMints ch (hist ++ [(w, tx)]) = directMints ch hist ++ (directMint ch w tx).toList :=
  filterMap_concat _ _ _

/-- A direct mint creates the credit that it returns. -/
theorem creates_of_directMint (hexec : exec ch w tx = .ok w') {r bridge owner : Address}
    {metadata : CreditMetadata} (hcall : tx.call = .registry r (.mintBridged bridge owner metadata))
    (hidx : ∀ r, (w.registry r).CreditsIndexed) :
    ∃ id, directMint ch w tx = some (r, id) ∧ Creates w w' r id owner := by
  have hstep := exec_step hexec
  unfold directMint
  rw [hcall] at hstep ⊢
  cases hstep with
  | registry hr h =>
      simp only [CreditRegistry.exec, map_eq_ok, Prod.exists] at h
      obtain ⟨id, s, hmint, rfl⟩ := h
      refine ⟨id, ?_, creates_of_mint (hidx r) hmint rfl⟩
      simp only [hr, hmint]

/-- Only an accepted direct call of `mint_bridged` returns a credit here. -/
theorem directMint_eq_some {k : Address × ℕ} (h : directMint ch w tx = some k) :
    Succeeds ch w tx ∧ ∃ bridge owner metadata,
      tx.call = .registry k.1 (.mintBridged bridge owner metadata) := by
  unfold directMint at h
  split at h
  · next r bridge owner metadata hcall =>
      split at h
      · next id s hr hmint =>
          obtain rfl := Option.some.inj h
          refine ⟨?_, bridge, owner, metadata, hcall⟩
          have hledger : w.ledger.callRegistry ch r (fun s =>
              (CreditRegistry.exec ch.sha256 tx.env s (.mintBridged bridge owner metadata)).map
                fun s => ((), s)) = .ok ((), w.ledger.writeRegistry r s) := by
            refine Ledger.callRegistry_eq_ok.mpr ⟨hr, s, ?_, rfl⟩
            unfold registry at hmint
            simp only [CreditRegistry.exec, hmint]
            rfl
          unfold Succeeds exec
          simp only [hcall, hledger]
          exact ⟨_, rfl⟩
      · cases h
  · cases h

/-- A transaction that fails mints nothing. -/
theorem directMint_of_not_succeeds (h : ¬ Succeeds ch w tx) : directMint ch w tx = none :=
  Option.eq_none_iff_forall_ne_some.mpr fun _ hsome => h (directMint_eq_some hsome).1

/-- A transaction that fails brings nothing in. -/
theorem bridgedIn_of_not_succeeds (h : ¬ Succeeds ch w tx) : bridgedIn ch w tx = none :=
  Option.eq_none_iff_forall_ne_some.mpr fun _ hsome => h (bridgedIn_eq_some hsome).1

/-! ## One step -/

/-- A transaction that mints no bridged credit. -/
theorem evolves_of_calls (hexec : exec ch w tx = .ok w') {r : Address}
    (hcalls : ∀ call, Makes tx tx.call r call →
      ∀ bridge toAddr metadata, call ≠ .mintBridged bridge toAddr metadata)
    (hidx : (w.registry r).CreditsIndexed) : (w.registry r).Evolves (w'.registry r) := by
  have hboth : ((apply ch w tx).registry r).CreditsIndexed ∧
      (w.registry r).Evolves ((apply ch w tx).registry r) := by
    refine apply_registry_rule (P := fun s => s.CreditsIndexed ∧ (w.registry r).Evolves s) ?_
      ⟨hidx, .refl _⟩
    rintro s call s' ⟨hs, hevolves⟩ hmakes hok
    exact ⟨hs.step hok, hevolves.trans (CreditRegistry.evolves_of_exec hs hok (hcalls call hmakes))⟩
  rw [apply_of_ok hexec] at hboth
  exact hboth.2

/-- A call of the bridge that is no import retires a credit or leaves the registries alone. -/
theorem evolves_of_bridge (hexec : exec ch w tx = .ok w') {c : MerkleBridge.Call}
    (hcall : tx.call = .bridge c) (hin : ∀ bridger sourceRegistry sourceSerial leaf merkleProof
      metadata, c ≠ .bridgeIn bridger sourceRegistry sourceSerial leaf merkleProof metadata)
    {r : Address} (hidx : (w.registry r).CreditsIndexed) :
    (w.registry r).Evolves (w'.registry r) := by
  have hstep := exec_step hexec
  rw [hcall] at hstep
  cases hstep with
  | bridge hchange =>
      cases hchange with
      | keep _ hl _ =>
          subst hl
          exact .refl _
      | init _ _ hl =>
          subst hl
          exact .refl _
      | updateRoot _ _ _ hl =>
          subst hl
          exact .refl _
      | bridgeIn _ _ _ => exact absurd rfl (hin _ _ _ _ _ _)
      | @bridgeOut owner id r₀ credit hchecks _ hl =>
          subst hl
          unfold registry
          by_cases hr : r = r₀
          · subst hr
            rw [Ledger.registry_writeRegistry_self]
            exact CreditRegistry.evolves_of_exec hidx hchecks.exec_eq nofun
          · rw [Ledger.registry_writeRegistry_ne hr]
            exact .refl _

/-- **Inversion.**  A transaction creates one credit, by an import or by a direct mint, or it
mints by votes only. -/
theorem exec_origin (hexec : exec ch w tx = .ok w') (hidx : ∀ r, (w.registry r).CreditsIndexed) :
    (bridgedIn ch w tx = none ∧ directMint ch w tx = none ∧
        ∀ r, (w.registry r).Evolves (w'.registry r)) ∨
      ∃ k owner, Creates w w' k.1 k.2 owner ∧
        (bridgedIn ch w tx = some k ∧ directMint ch w tx = none ∨
          bridgedIn ch w tx = none ∧ directMint ch w tx = some k) := by
  cases hcall : tx.call with
  | registry r call =>
      have hnoIn : bridgedIn ch w tx = none := by
        simp only [bridgedIn, hcall]
      -- only the direct mint creates a credit without votes
      by_cases hmint : ∃ bridge toAddr metadata, call = .mintBridged bridge toAddr metadata
      · obtain ⟨bridge, owner, metadata, rfl⟩ := hmint
        obtain ⟨id, hdirect, hcreates⟩ := creates_of_directMint hexec hcall hidx
        exact Or.inr ⟨(r, id), owner, hcreates, Or.inr ⟨hnoIn, hdirect⟩⟩
      · refine Or.inl ⟨hnoIn, ?_, fun r' =>
          evolves_of_calls hexec (fun call' hmakes => ?_) (hidx r')⟩
        · refine Option.eq_none_iff_forall_ne_some.mpr fun k hsome => ?_
          obtain ⟨-, bridge, owner, metadata, heq⟩ := directMint_eq_some hsome
          rw [hcall, Call.registry.injEq] at heq
          exact hmint ⟨bridge, owner, metadata, heq.2⟩
        · rw [hcall] at hmakes
          cases hmakes
          intro bridge toAddr metadata heq
          exact hmint ⟨bridge, toAddr, metadata, heq⟩
  -- an escrow moves a credit, and mints none
  | marketplace c =>
      refine Or.inl ⟨by simp only [bridgedIn, hcall], by simp only [directMint, hcall], fun r =>
        evolves_of_calls hexec (fun call hmakes => ?_) (hidx r)⟩
      rw [hcall] at hmakes
      cases hmakes
      simp
  | tracker c =>
      refine Or.inl ⟨by simp only [bridgedIn, hcall], by simp only [directMint, hcall], fun r =>
        evolves_of_calls hexec (fun call hmakes => ?_) (hidx r)⟩
      rw [hcall] at hmakes
      cases hmakes
      simp
  | bridge c =>
      have hnoMint : directMint ch w tx = none := by
        simp only [directMint, hcall]
      -- only an import creates a credit
      by_cases hin : ∃ bridger sourceRegistry sourceSerial leaf merkleProof metadata,
          c = .bridgeIn bridger sourceRegistry sourceSerial leaf merkleProof metadata
      · obtain ⟨bridger, _, _, _, _, _, rfl⟩ := hin
        obtain ⟨r, id, hsome, hcreates⟩ := creates_of_bridgeIn hcall ⟨w', hexec⟩ hidx
        rw [apply_of_ok hexec] at hcreates
        exact Or.inr ⟨(r, id), bridger, hcreates, Or.inl ⟨hsome, hnoMint⟩⟩
      · have hnoIn : bridgedIn ch w tx = none := by
          refine Option.eq_none_iff_forall_ne_some.mpr fun k hsome => ?_
          obtain ⟨-, bridger, a, b, leaf, proof, metadata, heq⟩ := bridgedIn_eq_some hsome
          rw [hcall, Call.bridge.injEq] at heq
          exact hin ⟨bridger, a, b, leaf, proof, metadata, heq⟩
        exact Or.inl ⟨hnoIn, hnoMint, fun r =>
          evolves_of_bridge hexec hcall (fun a b n leaf proof m heq =>
            hin ⟨a, b, n, leaf, proof, m, heq⟩) (hidx r)⟩

/-! ## The origin of the live credits -/

/-- A credit that is not the one created keeps its record and its votes. -/
theorem Creates.other {r : Address} {id : ℕ} {owner : Address} (h : Creates w w' r id owner)
    {r' : Address} {id' : ℕ} (hne : (r', id') ≠ (r, id)) :
    (w'.registry r').credits id' = (w.registry r').credits id' ∧
      (w'.registry r').approvals id' = (w.registry r').approvals id' := by
  by_cases hr : r' = r
  · subst hr
    have hid : id' ≠ id := by
      rintro rfl
      exact hne rfl
    obtain ⟨m, -, hcredits⟩ := h.credits
    rw [hcredits, h.approvals, Function.update_of_ne hid]
    exact ⟨rfl, rfl⟩
  · rw [h.others r' hr]
    exact ⟨rfl, rfl⟩

/-- The created credit is live. -/
theorem Creates.live {r : Address} {id : ℕ} {owner : Address} (h : Creates w w' r id owner) :
    (w'.registry r).Live id := by
  obtain ⟨m, hactive, hcredits⟩ := h.credits
  exact ⟨m, by rw [hcredits, Function.update_self], Or.inl hactive⟩

/-- What is created was not live before. -/
theorem Creates.not_live {r : Address} {id : ℕ} {owner : Address} (h : Creates w w' r id owner) :
    ¬ (w.registry r).Live id := by
  rintro ⟨m, hm, -⟩
  rw [h.unused.1] at hm
  cases hm

/-- A live credit was voted on, imported, or minted by another bridge; the last two have no
votes, and exclude each other. -/
structure Origins (ch : Chain T) (hist : List (World T × Tx ch)) (w : World T) : Prop where
  indexed : ∀ r, (w.registry r).CreditsIndexed
  stored : ∀ r, (w.registry r).LogsStored
  live : ∀ r id, (w.registry r).Live id → (w.registry r).approvals id ≠ [] ∨
    ((r, id) ∈ bridgedIns ch hist ∨ (r, id) ∈ directMints ch hist)
  minted : ∀ r id, (r, id) ∈ bridgedIns ch hist ∨ (r, id) ∈ directMints ch hist →
    (w.registry r).Live id ∧ (w.registry r).approvals id = []
  disjoint : ∀ k ∈ bridgedIns ch hist, k ∉ directMints ch hist

/-- At the start no credit is live. -/
theorem origins_genesis (ch : Chain T) (tokens : T) : Origins ch [] (genesis tokens) where
  indexed r := indexed_genesis r tokens
  stored _ := CreditRegistry.logsStored_empty
  live _ _ h := by
    obtain ⟨m, hm, -⟩ := h
    cases hm
  minted _ _ h := by
    rcases h with h | h
    · cases h
    · cases h
  disjoint := nofun

/-- Every transaction keeps the logs of the votes with their credits. -/
theorem logsStored_apply {r : Address} (hidx : (w.registry r).CreditsIndexed)
    (h : (w.registry r).LogsStored) : ((apply ch w tx).registry r).LogsStored := by
  have hboth : ((apply ch w tx).registry r).CreditsIndexed ∧
      ((apply ch w tx).registry r).LogsStored := by
    refine apply_registry_rule (P := fun s => s.CreditsIndexed ∧ s.LogsStored) ?_ ⟨hidx, h⟩
    rintro s call s' ⟨hs, hlogs⟩ - hok
    exact ⟨hs.step hok, hlogs.exec hs hok⟩
  exact hboth.2

/-- A step that mints by votes only. -/
theorem Origins.evolve {hist : List (World T × Tx ch)} (h : Origins ch hist w)
    (hin : bridgedIn ch w tx = none) (hdirect : directMint ch w tx = none)
    (hevolves : ∀ r, (w.registry r).Evolves ((apply ch w tx).registry r)) :
    Origins ch (hist ++ [(w, tx)]) (apply ch w tx) := by
  have hins : bridgedIns ch (hist ++ [(w, tx)]) = bridgedIns ch hist := by
    rw [bridgedIns_concat, hin, Option.toList_none, List.append_nil]
  have hdirects : directMints ch (hist ++ [(w, tx)]) = directMints ch hist := by
    rw [directMints_concat, hdirect, Option.toList_none, List.append_nil]
  refine ⟨fun r => indexed_apply (h.indexed r),
    fun r => logsStored_apply (h.indexed r) (h.stored r), fun r id hlive => ?_,
      fun r id hmem => ?_, ?_⟩
  · rw [hins, hdirects]
    rcases (hevolves r).voted id hlive with hlive | hvotes
    · exact (h.live r id hlive).imp_left ((hevolves r).votes id)
    · exact Or.inl hvotes
  · rw [hins, hdirects] at hmem
    obtain ⟨hlive, hempty⟩ := h.minted r id hmem
    obtain ⟨hlive', hlog⟩ := (hevolves r).kept id hlive
    exact ⟨hlive', hlog.trans hempty⟩
  · rw [hins, hdirects]
    exact h.disjoint

/-- A step that mints the bridged credit `k`. -/
theorem Origins.create {hist : List (World T × Tx ch)} (h : Origins ch hist w)
    {k : Address × ℕ} {owner : Address} (hcreates : Creates w (apply ch w tx) k.1 k.2 owner)
    (hkind : bridgedIn ch w tx = some k ∧ directMint ch w tx = none ∨
      bridgedIn ch w tx = none ∧ directMint ch w tx = some k) :
    Origins ch (hist ++ [(w, tx)]) (apply ch w tx) := by
  have hmem : ∀ x, x ∈ bridgedIns ch (hist ++ [(w, tx)]) ∨ x ∈ directMints ch (hist ++ [(w, tx)]) ↔
      (x ∈ bridgedIns ch hist ∨ x ∈ directMints ch hist) ∨ x = k := by
    intro x
    rw [bridgedIns_concat, directMints_concat]
    rcases hkind with ⟨hin, hdirect⟩ | ⟨hin, hdirect⟩
    · simp [hin, hdirect, or_right_comm]
    · simp [hin, hdirect, or_assoc]
  have hnew : ¬ (k ∈ bridgedIns ch hist ∨ k ∈ directMints ch hist) := fun hold =>
    hcreates.not_live (h.minted k.1 k.2 hold).1
  refine ⟨fun r => indexed_apply (h.indexed r),
    fun r => logsStored_apply (h.indexed r) (h.stored r), fun r id hlive => ?_,
      fun r id hk => ?_, ?_⟩
  · -- a live credit has votes, or it is old, or it is the new one
    rw [hmem]
    by_cases heq : (r, id) = k
    · exact Or.inr (Or.inr heq)
    · obtain ⟨hcredits, hlog⟩ := hcreates.other heq
      unfold CreditRegistry.Live at hlive
      rw [hcredits] at hlive
      rw [hlog]
      exact (h.live r id hlive).imp_right Or.inl
  · -- a mint leaves the logs of the credits minted before
    rcases (hmem (r, id)).mp hk with hold | rfl
    · have hne : (r, id) ≠ k := by
        rintro rfl
        exact hnew hold
      obtain ⟨hcredits, hlog⟩ := hcreates.other hne
      unfold CreditRegistry.Live
      rw [hcredits, hlog]
      exact h.minted r id hold
    · refine ⟨hcreates.live, ?_⟩
      rw [hcreates.approvals]
      exact h.stored r id hcreates.unused.1
  · -- the new credit is on one of the lists only
    intro x hx hx'
    rw [bridgedIns_concat] at hx
    rw [directMints_concat] at hx'
    rcases hkind with ⟨hin, hdirect⟩ | ⟨hin, hdirect⟩
    · rw [hdirect, Option.toList_none, List.append_nil] at hx'
      rw [hin, Option.toList_some] at hx
      rcases List.mem_append.mp hx with hx | hx
      · exact h.disjoint x hx hx'
      · rw [List.mem_singleton.mp hx] at hx'
        exact hnew (Or.inr hx')
    · rw [hin, Option.toList_none, List.append_nil] at hx
      rw [hdirect, Option.toList_some] at hx'
      rcases List.mem_append.mp hx' with hx' | hx'
      · exact h.disjoint x hx hx'
      · rw [List.mem_singleton.mp hx'] at hx
        exact hnew (Or.inl hx)

/-- After every transaction each live credit has its origin. -/
theorem Origins.step {hist : List (World T × Tx ch)} (h : Origins ch hist w) :
    Origins ch (hist ++ [(w, tx)]) (apply ch w tx) := by
  by_cases hsucc : Succeeds ch w tx
  · rcases exec_origin hsucc.exec_eq h.indexed with
      ⟨hin, hdirect, hevolves⟩ | ⟨k, owner, hcreates, hkind⟩
    · exact h.evolve hin hdirect hevolves
    · exact h.create hcreates hkind
  · refine h.evolve (bridgedIn_of_not_succeeds hsucc) (directMint_of_not_succeeds hsucc) fun r => ?_
    rw [apply_of_not_succeeds hsucc]
    exact .refl _

/-- In every run each live credit has its origin. -/
theorem origins_run (ch : Chain T) (tokens : T) (ts : List (Tx ch)) :
    Origins ch (steps (apply ch) (genesis tokens) ts) (run (apply ch) (genesis tokens) ts) :=
  history_invariant (C := fun _ _ => True) (I := Origins ch) (origins_genesis ch tokens)
    (fun _ _ _ h _ => h.step) fun _ _ => trivial

/-! ## Exports -/

/-- The credit that an accepted `bridge_out` retires, with its registry. -/
def bridgedOut (ch : Chain T) (w : World T) (tx : Tx ch) : Option (Address × ℕ) :=
  match exec ch w tx, tx.call, w.bridge.creditRegistry with
  | .ok _, .bridge (.bridgeOut _ id), some r => some (r, id)
  | _, _, _ => none

/-- The credits that the steps of a history bridge out, in order. -/
def bridgedOuts (ch : Chain T) (hist : List (World T × Tx ch)) : List (Address × ℕ) :=
  hist.filterMap fun p => bridgedOut ch p.1 p.2

/-- A credit that is bridged out is active before, and retired after. -/
theorem bridgedOut_eq_some {k : Address × ℕ} (h : bridgedOut ch w tx = some k) :
    (∃ m, (w.registry k.1).credits k.2 = some m ∧ m.status = .active) ∧
      ∃ m, ((apply ch w tx).registry k.1).credits k.2 = some m ∧ m.status = .retired := by
  unfold bridgedOut at h
  split at h
  · next w' owner id r hexec hcall hwired =>
      obtain rfl := Option.some.inj h
      rw [apply_of_ok hexec]
      have hstep := exec_step hexec
      rw [hcall] at hstep
      cases hstep with
      | bridge hchange =>
          cases hchange with
          | keep _ _ hread => simp at hread
          | @bridgeOut _ _ r' credit hchecks _ hl =>
              obtain rfl : r = r' := Option.some.inj (hwired.symm.trans hchecks.wired)
              refine ⟨⟨credit, hchecks.stored, hchecks.active⟩,
                { credit with status := .retired }, ?_, rfl⟩
              subst hl
              unfold registry
              rw [Ledger.registry_writeRegistry_self]
              simp
  · cases h

/-- No credit is bridged out twice. -/
theorem nodup_bridgedOuts (tokens : T) (ts : List (Tx ch)) :
    (bridgedOuts ch (steps (apply ch) (genesis tokens) ts)).Nodup := by
  refine nodup_log (J := fun w : World T => ∀ r, (w.registry r).CreditsIndexed)
    (P := fun w k => ∃ m, (w.registry k.1).credits k.2 = some m ∧ m.status = .retired)
    (fun w tx hidx r => indexed_apply (hidx r)) ?_ ?_ (fun r => indexed_genesis r tokens) ts
  · intro w tx k _ hout
    obtain ⟨⟨m, hm, hactive⟩, hafter⟩ := bridgedOut_eq_some hout
    refine ⟨?_, hafter⟩
    rintro ⟨m', hm', hretired⟩
    obtain rfl : m = m' := Option.some.inj (hm.symm.trans hm')
    rw [hactive] at hretired
    cases hretired
  · -- no status is left from `Retired`
    rintro w tx k hidx ⟨m, hm, hstatus⟩
    obtain ⟨m', hm', hreach⟩ := credit_reaches (hidx k.1) hm tx
    rw [hstatus] at hreach
    exact ⟨m', hm', CreditStatus.reaches_final (Or.inr rfl) hreach⟩

/-! ## The main theorem -/

/-- One exported credit: it was imported before, exactly if nobody has voted on it and no
other bridge has minted it. -/
theorem bridgedOut_origin {hist : List (World T × Tx ch)} (h : Origins ch hist w)
    {r : Address} {c : ℕ} (hout : bridgedOut ch w tx = some (r, c)) :
    (r, c) ∈ bridgedIns ch hist ↔
      (w.registry r).approvals c = [] ∧ (r, c) ∉ directMints ch hist := by
  obtain ⟨⟨m, hm, hactive⟩, -⟩ := bridgedOut_eq_some hout
  constructor
  · intro hin
    exact ⟨(h.minted r c (Or.inl hin)).2, h.disjoint _ hin⟩
  · rintro ⟨hlog, hdirect⟩
    rcases h.live r c ⟨m, hm, Or.inl hactive⟩ with hvotes | hin | hminted
    · exact absurd hlog hvotes
    · exact hin
    · exact absurd hminted hdirect

/-- If every exported credit was imported before, there are no more exports than imports. -/
theorem length_bridgedOuts_le {tokens : T} {us : List (Tx ch)}
    (h : ∀ us' tx vs, us = us' ++ tx :: vs → ∀ r c,
      bridgedOut ch (run (apply ch) (genesis tokens) us') tx = some (r, c) →
      (r, c) ∈ bridgedIns ch (steps (apply ch) (genesis tokens) us')) :
    (bridgedOuts ch (steps (apply ch) (genesis tokens) us)).length ≤
      (bridgedIns ch (steps (apply ch) (genesis tokens) us)).length := by
  have hsub : bridgedOuts ch (steps (apply ch) (genesis tokens) us) ⊆
      bridgedIns ch (steps (apply ch) (genesis tokens) us) := by
    intro k hk
    obtain ⟨⟨w, tx⟩, hp, hout⟩ := List.mem_filterMap.mp hk
    obtain ⟨us', vs, rfl, rfl⟩ := (mem_steps_iff _ _ _ _).mp hp
    have hin := h us' tx vs rfl k.1 k.2 hout
    obtain ⟨q, hq, hsome⟩ := mem_bridgedIns.mp hin
    rw [steps_append]
    exact mem_bridgedIns.mpr ⟨q, List.mem_append_left _ hq, hsome⟩
  exact (List.subperm_of_subset (nodup_bridgedOuts tokens us) hsub).length_le

/-- **Where exports come from.**  In a run of the four contracts, every credit that
`bridge_out` retires was created by an earlier `bridge_in`, and at no time are there more
exports than imports, if and only if nobody has voted on an exported credit and no other
bridge has minted one. -/
theorem bridged_out_origin_iff (ch : Chain T) (tokens : T) (ts : List (Tx ch)) :
    ((∀ us tx vs, ts = us ++ tx :: vs → ∀ r c,
        bridgedOut ch (run (apply ch) (genesis tokens) us) tx = some (r, c) →
        (r, c) ∈ bridgedIns ch (steps (apply ch) (genesis tokens) us)) ∧
      ∀ us vs, ts = us ++ vs → (bridgedOuts ch (steps (apply ch) (genesis tokens) us)).length ≤
        (bridgedIns ch (steps (apply ch) (genesis tokens) us)).length) ↔
      ∀ us tx vs, ts = us ++ tx :: vs → ∀ r c,
        bridgedOut ch (run (apply ch) (genesis tokens) us) tx = some (r, c) →
        ((run (apply ch) (genesis tokens) us).registry r).approvals c = [] ∧
          (r, c) ∉ directMints ch (steps (apply ch) (genesis tokens) us) := by
  constructor
  · rintro ⟨horigin, -⟩ us tx vs hts r c hout
    exact (bridgedOut_origin (origins_run ch tokens us) hout).mp (horigin us tx vs hts r c hout)
  · intro hnative
    have horigin : ∀ us tx vs, ts = us ++ tx :: vs → ∀ r c,
        bridgedOut ch (run (apply ch) (genesis tokens) us) tx = some (r, c) →
        (r, c) ∈ bridgedIns ch (steps (apply ch) (genesis tokens) us) := by
      intro us tx vs hts r c hout
      exact (bridgedOut_origin (origins_run ch tokens us) hout).mpr (hnative us tx vs hts r c hout)
    refine ⟨horigin, ?_⟩
    rintro us vs rfl
    refine length_bridgedOuts_le fun us' tx vs' hus r c hout => ?_
    exact horigin us' tx (vs' ++ vs) (by rw [hus]; simp) r c hout

/-- Account 2 bridges out credit 1, which a vote has minted; nothing was imported. -/
theorem bridged_out_native :
    ¬ ∀ (T : Type) (ch : Chain T) (tokens : T) (ts : List (Tx ch)),
      (∀ us tx vs, ts = us ++ tx :: vs → ∀ r c,
        ((run (apply ch) (genesis tokens) us).registry r).bridges (ch.address .bridge) = true →
        ((run (apply ch) (genesis tokens) us).registry r).retirers (ch.address .bridge) = true →
        bridgedOut ch (run (apply ch) (genesis tokens) us) tx = some (r, c) →
        (r, c) ∈ bridgedIns ch (steps (apply ch) (genesis tokens) us)) ∧
      ∀ us vs, ts = us ++ vs → (bridgedOuts ch (steps (apply ch) (genesis tokens) us)).length ≤
        (bridgedIns ch (steps (apply ch) (genesis tokens) us)).length := by
  intro h
  have hin := (h Sample.Balances Sample.chain (fun _ _ => 1000000)
    (Sample.setup ++ [Sample.bridgeOutOne])).1 Sample.setup Sample.bridgeOutOne [] rfl
    Sample.registry 1 (by rfl) (by rfl) (by rfl)
  exact absurd hin (by decide)

end World

end CarbonVeritas
