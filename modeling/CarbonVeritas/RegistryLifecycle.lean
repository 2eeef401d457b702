/-
# The lifecycle of a credit

Runs of the registry alone: any sequence of entry points, by any callers, from the
empty storage.  A call that panics changes nothing (`apply_rule`), and a call that
returns makes one of the changes of `CreditChange`, so every statement below is read
off that one inversion and carried along the run:

* `createdIds_eq` : the ids that the creations of a run return are `1, 2, 3, …`;
* `CreditChange.metadata` : a call moves the status of a stored credit along
  `Moves` or not at all, and rewrites no other field but the token id;
* `credit_lifecycle` : both, for whole runs.
-/
import CarbonVeritas.TransitionRun
import CarbonVeritas.CreditRegistrySpec
import Mathlib.Logic.Relation
import Mathlib.Data.List.Range

namespace CarbonVeritas

open Transition

/-! ## Statuses and fixed fields -/

/-- The moves of a credit's status. -/
inductive CreditStatus.Moves : CreditStatus → CreditStatus → Prop where
  | approve : Moves .pending .active
  | reject : Moves .pending .rejected
  | retire : Moves .active .retired

/-- No move leaves `Rejected` or `Retired`. -/
theorem CreditStatus.Moves.not_final {a b : CreditStatus} (h : Moves a b) :
    a ≠ .rejected ∧ a ≠ .retired := by
  cases h <;> simp

/-- No move goes back to `Pending`. -/
theorem CreditStatus.Moves.ne_pending {a b : CreditStatus} (h : Moves a b) : b ≠ .pending := by
  cases h <;> simp

theorem CreditStatus.reaches_final {a b : CreditStatus} (ha : a = .rejected ∨ a = .retired)
    (h : Relation.ReflTransGen Moves a b) : b = a := by
  induction h with
  | refl => rfl
  | tail _ hmove ih =>
      subst ih
      obtain ⟨h1, h2⟩ := hmove.not_final
      rcases ha with ha | ha
      · exact absurd ha h1
      · exact absurd ha h2

/-- `m'` differs from `m` in its status and its token id at most. -/
def CreditMetadata.SameRecord (m m' : CreditMetadata) : Prop :=
  m' = { m with status := m'.status, tokenId := m'.tokenId }

theorem CreditMetadata.SameRecord.refl (m : CreditMetadata) : m.SameRecord m := rfl

theorem CreditMetadata.SameRecord.trans {m m' m'' : CreditMetadata} (h : m.SameRecord m')
    (h' : m'.SameRecord m'') : m.SameRecord m'' := by
  unfold SameRecord at *
  rw [h', h]

namespace CreditRegistry

variable {sha256 : (n : ℕ) → BitVec n → Bytes32} {env : Env} {s s' : CreditRegistry}

/-! ## Transactions -/

/-- A transaction leaves the storage as it was, or its call returned. -/
theorem apply_rule {P : CreditRegistry → Prop} {tx : Env × Call} (hpanic : P s)
    (hok : ∀ s', exec sha256 tx.1 s tx.2 = .ok s' → P s') : P (apply sha256 s tx) := by
  unfold apply
  cases h : exec sha256 tx.1 s tx.2 with
  | error _ => exact hpanic
  | ok s' => exact hok s' h

theorem apply_of_ok {tx : Env × Call} (h : exec sha256 tx.1 s tx.2 = .ok s') :
    apply sha256 s tx = s' := by
  simp only [apply, h]

theorem CreditsIndexed.apply (h : CreditsIndexed s) (tx : Env × Call) :
    CreditsIndexed (apply sha256 s tx) :=
  apply_rule h fun _ hexec => h.step hexec

theorem CreditsIndexed.run (h : CreditsIndexed s) (ts : List (Env × Call)) :
    CreditsIndexed (run (CreditRegistry.apply sha256) s ts) :=
  run_invariant (C := fun _ _ => True) (fun _ tx hs _ => hs.apply tx) h fun _ _ => trivial

/-! ## What a call does to a stored credit -/

theorem CreditChange.metadata {call : Call} (h : CreditChange sha256 env s s' call)
    (hidx : CreditsIndexed s) {id : ℕ} {m : CreditMetadata} (hm : s.credits id = some m) :
    ∃ m', s'.credits id = some m' ∧ m.SameRecord m' ∧
      (m'.status = m.status ∨ m.status.Moves m'.status) := by
  -- a creation writes at an id that is not in use
  have hnew : id ≠ s.creditCounter + 1 := by
    have := (hidx.le_of_credit hm).2
    omega
  -- a decision and a retirement rewrite one credit, whose old status they have checked
  have hrewrite : ∀ {i : ℕ} {c c' : CreditMetadata}, s.credits i = some c →
      s'.credits = Function.update s.credits i (some c') → c.SameRecord c' →
      c.status.Moves c'.status → ∃ m', s'.credits id = some m' ∧ m.SameRecord m' ∧
        (m'.status = m.status ∨ m.status.Moves m'.status) := by
    intro i c c' hc hcredits hsame hmove
    rw [hcredits]
    by_cases hi : id = i
    · subst hi
      obtain rfl : c = m := Option.some.inj (hc.symm.trans hm)
      exact ⟨c', by simp, hsame, Or.inr hmove⟩
    · exact ⟨m, by rw [Function.update_of_ne hi, hm], .refl m, Or.inl rfl⟩
  cases h with
  | keep _ hcredits _ => exact ⟨m, by rw [hcredits, hm], .refl m, Or.inl rfl⟩
  | submit _ _ hcredits _ =>
      exact ⟨m, by rw [hcredits, Function.update_of_ne hnew, hm], .refl m, Or.inl rfl⟩
  | mint _ _ _ hcredits _ =>
      exact ⟨m, by rw [hcredits, Function.update_of_ne hnew, hm], .refl m, Or.inl rfl⟩
  | approve hvote _ hcredits _ =>
      exact hrewrite hvote.stored hcredits rfl (by rw [hvote.pending]; exact .approve)
  | reject hvote _ hcredits _ =>
      exact hrewrite hvote.stored hcredits rfl (by rw [hvote.pending]; exact .reject)
  | transfer _ _ _ _ _ hcredits _ => exact ⟨m, by rw [hcredits, hm], .refl m, Or.inl rfl⟩
  | retire _ _ hstored hactive _ hcredits _ =>
      exact hrewrite hstored hcredits rfl (by rw [hactive]; exact .retire)

/-- The same for a transaction, which may panic. -/
theorem apply_metadata (sha256 : (n : ℕ) → BitVec n → Bytes32) (hidx : CreditsIndexed s)
    (tx : Env × Call) {id : ℕ} {m : CreditMetadata} (hm : s.credits id = some m) :
    ∃ m', (apply sha256 s tx).credits id = some m' ∧ m.SameRecord m' ∧
      (m'.status = m.status ∨ m.status.Moves m'.status) :=
  apply_rule (P := fun s' => ∃ m', s'.credits id = some m' ∧ m.SameRecord m' ∧
      (m'.status = m.status ∨ m.status.Moves m'.status))
    ⟨m, hm, .refl m, Or.inl rfl⟩ fun _ h => (exec_creditChange h).metadata hidx hm

/-- Along a run a stored credit keeps its fixed fields and its status only moves. -/
theorem run_metadata (sha256 : (n : ℕ) → BitVec n → Bytes32) (hidx : CreditsIndexed s)
    (ts : List (Env × Call)) {id : ℕ} {m : CreditMetadata} (hm : s.credits id = some m) :
    ∃ m', (run (apply sha256) s ts).credits id = some m' ∧ m.SameRecord m' ∧
      Relation.ReflTransGen CreditStatus.Moves m.status m'.status := by
  induction ts generalizing s m with
  | nil => exact ⟨m, hm, .refl m, .refl⟩
  | cons tx ts ih =>
      obtain ⟨m₁, hm₁, hsame₁, hmove₁⟩ := apply_metadata sha256 hidx tx hm
      obtain ⟨m', hm', hsame', hreach⟩ := ih (hidx.apply tx) hm₁
      refine ⟨m', hm', hsame₁.trans hsame', ?_⟩
      rcases hmove₁ with heq | hmove
      · rwa [heq] at hreach
      · exact .head hmove hreach

/-! ## Creations -/

/-- The id that a creation returns; `none` for other calls and for calls that panic. -/
def createdId (sha256 : (n : ℕ) → BitVec n → Bytes32) (s : CreditRegistry) (tx : Env × Call) :
    Option ℕ :=
  match tx.2 with
  | .submitCredit issuer metadata ipfsHash =>
      match submitCredit tx.1 s issuer metadata ipfsHash with
      | .ok (id, _) => some id
      | .error _ => none
  | .mintBridged bridge toAddr metadata =>
      match mintBridged sha256 tx.1 s bridge toAddr metadata with
      | .ok (id, _) => some id
      | .error _ => none
  | _ => none

/-- The ids that the creations of a run return, in order. -/
def createdIds (sha256 : (n : ℕ) → BitVec n → Bytes32) (s : CreditRegistry)
    (ts : List (Env × Call)) : List ℕ :=
  (steps (apply sha256) s ts).filterMap fun p => createdId sha256 p.1 p.2

/-- The status that a creation stores. -/
def Call.startStatus : Call → CreditStatus
  | .mintBridged _ _ _ => .active
  | _ => .pending

/-- A creation returns the next id and stores a credit there. -/
theorem createdId_eq_some {tx : Env × Call} {id : ℕ} (h : createdId sha256 s tx = some id) :
    id = s.creditCounter + 1 ∧ (apply sha256 s tx).creditCounter = s.creditCounter + 1 ∧
      ∃ m, (apply sha256 s tx).credits id = some m ∧ m.status = tx.2.startStatus := by
  obtain ⟨env, call⟩ := tx
  unfold createdId at h
  split at h
  case h_1 issuer metadata ipfsHash hcall =>
    obtain rfl : call = .submitCredit issuer metadata ipfsHash := hcall
    split at h
    case h_1 i s' hok =>
      obtain rfl : i = id := Option.some.inj h
      have happly : apply sha256 s (env, .submitCredit issuer metadata ipfsHash) = s' :=
        apply_of_ok (by simp only [exec, map_eq_ok, Prod.exists]; exact ⟨_, _, hok, rfl⟩)
      obtain ⟨-, -, rfl, rfl⟩ := submitCredit_eq_ok.mp hok
      rw [happly]
      exact ⟨rfl, by simp, _, by simp; rfl, rfl⟩
    case h_2 => cases h
  case h_2 bridge toAddr metadata hcall =>
    obtain rfl : call = .mintBridged bridge toAddr metadata := hcall
    split at h
    case h_1 i s' hok =>
      obtain rfl : i = id := Option.some.inj h
      have happly : apply sha256 s (env, .mintBridged bridge toAddr metadata) = s' :=
        apply_of_ok (by simp only [exec, map_eq_ok, Prod.exists]; exact ⟨_, _, hok, rfl⟩)
      obtain ⟨-, -, -, rfl, rfl⟩ := mintBridged_eq_ok.mp hok
      rw [happly]
      exact ⟨rfl, by simp, _, by simp; rfl, rfl⟩
    case h_2 => cases h
  case h_3 => cases h

/-- Only a creation moves the counter. -/
theorem creditCounter_of_createdId_eq_none {tx : Env × Call} (h : createdId sha256 s tx = none) :
    (apply sha256 s tx).creditCounter = s.creditCounter := by
  obtain ⟨env, call⟩ := tx
  refine apply_rule (P := fun s' => s'.creditCounter = s.creditCounter) rfl fun s' hexec => ?_
  cases call
  case submitCredit issuer metadata ipfsHash =>
    obtain ⟨⟨i, _⟩, hok, -⟩ := map_eq_ok.mp hexec
    simp [createdId, hok] at h
  case mintBridged bridge toAddr metadata =>
    obtain ⟨⟨i, _⟩, hok, -⟩ := map_eq_ok.mp hexec
    simp [createdId, hok] at h
  all_goals
    cases exec_creditChange hexec <;> assumption

/-- **Ids in order.**  A run numbers its creations from the counter upwards. -/
theorem createdIds_eq (sha256 : (n : ℕ) → BitVec n → Bytes32) (s : CreditRegistry)
    (ts : List (Env × Call)) :
    createdIds sha256 s ts = List.range' (s.creditCounter + 1)
        ((run (apply sha256) s ts).creditCounter - s.creditCounter) ∧
      s.creditCounter ≤ (run (apply sha256) s ts).creditCounter := by
  induction ts generalizing s with
  | nil => simp [createdIds]
  | cons tx ts ih =>
      obtain ⟨hids, hle⟩ := ih (apply sha256 s tx)
      rw [run_cons]
      unfold createdIds at hids ⊢
      rw [steps_cons]
      cases hid : createdId sha256 s tx with
      | none =>
          have hcounter := creditCounter_of_createdId_eq_none hid
          rw [hcounter] at hids hle
          rw [List.filterMap_cons_none (by exact hid), hids]
          exact ⟨rfl, hle⟩
      | some id =>
          obtain ⟨rfl, hcounter, -⟩ := createdId_eq_some hid
          rw [hcounter] at hids hle
          rw [List.filterMap_cons_some (by exact hid), hids]
          refine ⟨?_, by omega⟩
          rw [show (run (apply sha256) (apply sha256 s tx) ts).creditCounter - s.creditCounter
              = (run (apply sha256) (apply sha256 s tx) ts).creditCounter
                - (s.creditCounter + 1) + 1 by omega, List.range'_succ]

/-! ## The main theorem -/

/-- **Credit lifecycle.**  In the state `s` that any run from the empty storage reaches:
the creations so far returned the ids `1, 2, …, creditCounter`, which fit a `u64` while
there are fewer than `2 ^ 64` of them; the next creation writes at an id that is free, with
the status its entry point starts from; the next call of any kind moves the status of a
stored credit along `Moves` if at all and changes no other field but the token id; and in
every later state the credit is still there, its fixed fields unchanged, its status reached
by moves, and unchanged if it was `Rejected` or `Retired`. -/
theorem credit_lifecycle (sha256 : (n : ℕ) → BitVec n → Bytes32) (ts : List (Env × Call)) :
    createdIds sha256 empty ts =
        List.range' 1 (run (apply sha256) empty ts).creditCounter ∧
      ((createdIds sha256 empty ts).length < 2 ^ 64 →
        ∀ id ∈ createdIds sha256 empty ts, id < 2 ^ 64) ∧
      (∀ tx id, createdId sha256 (run (apply sha256) empty ts) tx = some id →
        (run (apply sha256) empty ts).credits id = none ∧
        ∃ m, (apply sha256 (run (apply sha256) empty ts) tx).credits id = some m ∧
          m.status = tx.2.startStatus) ∧
      (∀ tx id m, (run (apply sha256) empty ts).credits id = some m →
        ∃ m', (apply sha256 (run (apply sha256) empty ts) tx).credits id = some m' ∧
          m.SameRecord m' ∧ (m'.status = m.status ∨ m.status.Moves m'.status)) ∧
      (∀ us id m, (run (apply sha256) empty ts).credits id = some m →
        ∃ m', (run (apply sha256) (run (apply sha256) empty ts) us).credits id = some m' ∧
          m.SameRecord m' ∧ Relation.ReflTransGen CreditStatus.Moves m.status m'.status ∧
          (m.status = .rejected ∨ m.status = .retired → m'.status = m.status)) := by
  have hidx : CreditsIndexed (run (apply sha256) empty ts) := creditsIndexed_empty.run ts
  have hids : createdIds sha256 empty ts =
      List.range' 1 (run (apply sha256) empty ts).creditCounter := by
    simpa [empty] using (createdIds_eq sha256 empty ts).1
  refine ⟨hids, ?_, ?_, fun tx id m hm => apply_metadata sha256 hidx tx hm, ?_⟩
  · intro hlen id hid
    rw [hids, List.length_range'] at hlen
    rw [hids, List.mem_range'_1] at hid
    omega
  · intro tx id hid
    obtain ⟨rfl, -, hstored⟩ := createdId_eq_some hid
    exact ⟨hidx.fresh.1, hstored⟩
  · intro us id m hm
    obtain ⟨m', hm', hsame, hreach⟩ := run_metadata sha256 hidx us hm
    exact ⟨m', hm', hsame, hreach, fun hfinal => CreditStatus.reaches_final hfinal hreach⟩

end CreditRegistry

end CarbonVeritas
