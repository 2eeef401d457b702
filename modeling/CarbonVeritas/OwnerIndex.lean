/-
# The indexes of the registry

The registry keeps the credits of an owner, and the credits that an issuer submitted, in
lists to which it only appends.  `exec_indexChange` says which calls append what.

A transfer appends the credit for the new owner and leaves it in the list of the old one, so
that the list of owned credits is right exactly in the runs without a transfer
(`owner_index_iff`).
-/
import CarbonVeritas.VoteOutcome

namespace CarbonVeritas

open Transition

namespace CreditRegistry

variable {sha256 : (n : ℕ) → BitVec n → Bytes32} {env : Env} {s s' : CreditRegistry}

/-! ## What a call does to the indexes -/

/-- The calls that change an owner. -/
def Call.transfers : Call → Bool
  | .transferCredit .. => true
  | _ => false

/-- The issuer of a submission. -/
def Call.submitter : Call → Option Address
  | .submitCredit issuer .. => some issuer
  | _ => none

/-- What a call that returns does to the owners and the indexes. -/
inductive IndexChange (s s' : CreditRegistry) : Call → Prop where
  | keep {call : Call} (htransfers : call.transfers = false) (hsubmitter : call.submitter = none)
      (hcounter : s'.creditCounter = s.creditCounter) (howners : s'.owners = s.owners)
      (howned : s'.ownerCredits = s.ownerCredits)
      (hissued : s'.issuerCredits = s.issuerCredits) : IndexChange s s' call
  | submit {issuer : Address} {metadata : CreditMetadata} {ipfsHash : SorobanString}
      (hcounter : s'.creditCounter = s.creditCounter + 1)
      (howners : s'.owners = Function.update s.owners (s.creditCounter + 1) (some issuer))
      (howned : s'.ownerCredits = Function.update s.ownerCredits issuer
        (s.ownerCredits issuer ++ [s.creditCounter + 1]))
      (hissued : s'.issuerCredits = Function.update s.issuerCredits issuer
        (s.issuerCredits issuer ++ [s.creditCounter + 1])) :
      IndexChange s s' (.submitCredit issuer metadata ipfsHash)
  | mint {bridge toAddr : Address} {metadata : CreditMetadata}
      (hcounter : s'.creditCounter = s.creditCounter + 1)
      (howners : s'.owners = Function.update s.owners (s.creditCounter + 1) (some toAddr))
      (howned : s'.ownerCredits = Function.update s.ownerCredits toAddr
        (s.ownerCredits toAddr ++ [s.creditCounter + 1]))
      (hissued : s'.issuerCredits = s.issuerCredits) :
      IndexChange s s' (.mintBridged bridge toAddr metadata)
  | transfer {fromAddr toAddr : Address} {id : ℕ} (howner : s.owners id = some fromAddr)
      (hcounter : s'.creditCounter = s.creditCounter)
      (howners : s'.owners = Function.update s.owners id (some toAddr))
      (howned : s'.ownerCredits = Function.update s.ownerCredits toAddr
        (s.ownerCredits toAddr ++ [id]))
      (hissued : s'.issuerCredits = s.issuerCredits) :
      IndexChange s s' (.transferCredit fromAddr toAddr id)

/-- **Inversion.** -/
theorem exec_indexChange {call : Call} (h : exec sha256 env s call = .ok s') :
    IndexChange s s' call := by
  cases exec_returns h with
  | submitCredit _ _ => exact .submit rfl rfl rfl rfl
  | mintBridged _ _ _ => exact .mint rfl rfl rfl rfl
  | transferCredit _ howner _ _ => exact .transfer howner rfl rfl rfl rfl
  | _ => exact .keep rfl rfl rfl rfl rfl rfl

/-! ## Owned credits -/

/-- The list of every address holds the credits that it owns, each once. -/
def OwnerIndexExact (s : CreditRegistry) : Prop :=
  ∀ a, (s.readCreditsByOwner a).Nodup ∧
    ∀ id, id ∈ s.readCreditsByOwner a ↔ s.getOwner id = .ok a

/-- The transaction is an accepted `transfer_credit`. -/
def TransferAccepted (sha256 : (n : ℕ) → BitVec n → Bytes32) (s : CreditRegistry)
    (tx : Env × Call) : Prop :=
  tx.2.transfers = true ∧ ∃ s', exec sha256 tx.1 s tx.2 = .ok s'

/-- What every run keeps: a credit is in the list of its owner, and no list holds an id that
is still to come. -/
structure OwnersListed (s : CreditRegistry) : Prop where
  indexed : s.CreditsIndexed
  owned : ∀ a id, s.owners id = some a → id ∈ s.ownerCredits a
  old : ∀ a, ∀ id ∈ s.ownerCredits a, id ≤ s.creditCounter

/-- An address has the credit in its list twice, or without owning it. -/
def Misplaced (s : CreditRegistry) (id : ℕ) (a : Address) : Prop :=
  id ∈ s.ownerCredits a ∧ (s.owners id ≠ some a ∨ ¬ (s.ownerCredits a).Nodup)

theorem ownerIndexExact_iff : OwnerIndexExact s ↔
    ∀ a, (s.ownerCredits a).Nodup ∧ ∀ id, id ∈ s.ownerCredits a ↔ s.owners id = some a := by
  simp only [OwnerIndexExact, getOwner_eq_ok, readCreditsByOwner]

theorem Misplaced.not_exact {id : ℕ} {a : Address} (h : Misplaced s id a) :
    ¬ OwnerIndexExact s := by
  intro hexact
  obtain ⟨hnodup, hmem⟩ := ownerIndexExact_iff.mp hexact a
  rcases h.2 with howner | hdup
  · exact howner ((hmem id).mp h.1)
  · exact hdup hnodup

/-- The list of one address grows by the id, which it owns from then on. -/
theorem mem_appended {a b : Address} {id i : ℕ} :
    i ∈ Function.update s.ownerCredits b (s.ownerCredits b ++ [id]) a ↔
      i ∈ s.ownerCredits a ∨ a = b ∧ i = id := by
  by_cases hab : a = b
  · subst hab
    rw [Function.update_self, List.mem_append, List.mem_singleton]
    simp only [true_and]
  · rw [Function.update_of_ne hab]
    simp only [hab, false_and, or_false]

theorem OwnersListed.append (h : OwnersListed s) {b : Address} {id : ℕ}
    (hindexed : s'.CreditsIndexed) (hcounter : s.creditCounter ≤ s'.creditCounter)
    (hid : id ≤ s'.creditCounter)
    (howners : s'.owners = Function.update s.owners id (some b))
    (howned : s'.ownerCredits = Function.update s.ownerCredits b (s.ownerCredits b ++ [id])) :
    OwnersListed s' := by
  refine ⟨hindexed, ?_, ?_⟩
  · intro a i hi
    rw [howned, mem_appended]
    rw [howners] at hi
    by_cases heq : i = id
    · subst heq
      rw [Function.update_self] at hi
      exact Or.inr ⟨(Option.some.inj hi).symm, rfl⟩
    · rw [Function.update_of_ne heq] at hi
      exact Or.inl (h.owned a i hi)
  · intro a i hi
    rw [howned, mem_appended] at hi
    rcases hi with hold | ⟨-, rfl⟩
    · exact (h.old a i hold).trans hcounter
    · exact hid

theorem OwnersListed.step (h : OwnersListed s) {call : Call}
    (hexec : exec sha256 env s call = .ok s') : OwnersListed s' := by
  have hindexed := h.indexed.step hexec
  cases exec_indexChange hexec with
  | keep _ _ hcounter howners howned _ =>
      refine ⟨hindexed, ?_, ?_⟩
      · rw [howners, howned]
        exact h.owned
      · rw [howned, hcounter]
        exact h.old
  | submit hcounter howners howned _ =>
      exact h.append hindexed (by omega) (by omega) howners howned
  | mint hcounter howners howned _ =>
      exact h.append hindexed (by omega) (by omega) howners howned
  | transfer howner hcounter howners howned _ =>
      have hle := (h.indexed.le_of_owner howner).2
      exact h.append hindexed (by omega) (by omega) howners howned

theorem OwnersListed.apply (h : OwnersListed s) (tx : Env × Call) :
    OwnersListed (apply sha256 s tx) :=
  apply_rule h fun _ hexec => h.step hexec

theorem ownersListed_empty : OwnersListed empty where
  indexed := creditsIndexed_empty
  owned := fun _ _ h => by cases h
  old := fun _ _ h => by cases h

/-! ## With and without transfers -/

/-- A creation puts a new id into one list. -/
theorem OwnerIndexExact.create (hexact : OwnerIndexExact s) (h : OwnersListed s) {b : Address}
    (howners : s'.owners = Function.update s.owners (s.creditCounter + 1) (some b))
    (howned : s'.ownerCredits = Function.update s.ownerCredits b
      (s.ownerCredits b ++ [s.creditCounter + 1])) : OwnerIndexExact s' := by
  rw [ownerIndexExact_iff] at hexact ⊢
  intro a
  have hnew : s.creditCounter + 1 ∉ s.ownerCredits a := by
    intro hmem
    have hle := h.old a _ hmem
    omega
  constructor
  · rw [howned]
    by_cases hab : a = b
    · subst hab
      rw [Function.update_self]
      refine List.nodup_append.mpr ⟨(hexact a).1, List.pairwise_singleton _ _, ?_⟩
      rintro i hi _ hmem rfl
      rw [List.mem_singleton.mp hmem] at hi
      exact hnew hi
    · rw [Function.update_of_ne hab]
      exact (hexact a).1
  · intro i
    rw [howned, howners, mem_appended]
    by_cases hi : i = s.creditCounter + 1
    · subst hi
      rw [Function.update_self, Option.some.injEq]
      constructor
      · rintro (hmem | ⟨rfl, -⟩)
        · exact absurd hmem hnew
        · rfl
      · rintro rfl
        exact Or.inr ⟨rfl, rfl⟩
    · rw [Function.update_of_ne hi, ← (hexact a).2 i]
      simp only [hi, and_false, or_false]

theorem OwnerIndexExact.apply (hexact : OwnerIndexExact s) (h : OwnersListed s) {tx : Env × Call}
    (hnone : ¬ TransferAccepted sha256 s tx) : OwnerIndexExact (apply sha256 s tx) := by
  refine apply_rule hexact fun s' hexec => ?_
  generalize hcall : tx.2 = call at hexec
  cases exec_indexChange hexec with
  | keep _ _ _ howners howned _ =>
      rw [ownerIndexExact_iff, howners, howned, ← ownerIndexExact_iff]
      exact hexact
  | submit _ howners howned _ => exact hexact.create h howners howned
  | mint _ howners howned _ => exact hexact.create h howners howned
  | transfer _ _ _ _ _ =>
      refine absurd ⟨?_, s', ?_⟩ hnone
      · rw [hcall]
        rfl
      · rw [hcall]
        exact hexec

/-- A transfer leaves the credit in the list of the old owner, or puts it there twice. -/
theorem OwnersListed.misplaced (h : OwnersListed s) {tx : Env × Call}
    (htransfer : TransferAccepted sha256 s tx) :
    ∃ id a, Misplaced (CreditRegistry.apply sha256 s tx) id a := by
  obtain ⟨htransfers, s', hexec⟩ := htransfer
  rw [apply_of_ok hexec]
  generalize tx.2 = call at hexec htransfers
  cases exec_indexChange hexec with
  | keep hnone _ _ _ _ _ =>
      rw [hnone] at htransfers
      cases htransfers
  | submit _ _ _ _ => cases htransfers
  | mint _ _ _ _ => cases htransfers
  | @transfer fromAddr toAddr id howner _ howners howned _ =>
      have hlisted := h.owned fromAddr id howner
      refine ⟨id, fromAddr, ?_, ?_⟩
      · rw [howned, mem_appended]
        exact Or.inl hlisted
      · by_cases hself : fromAddr = toAddr
        · right
          subst hself
          rw [howned, Function.update_self]
          intro hnodup
          exact (List.nodup_append.mp hnodup).2.2 id hlisted id List.mem_cons_self rfl
        · left
          rw [howners, Function.update_self]
          intro heq
          exact hself (Option.some.inj heq).symm

/-- No later call puts a misplaced credit right: the lists only grow. -/
theorem Misplaced.append {id : ℕ} {a : Address} (h : Misplaced s id a) {b : Address} {i : ℕ}
    (howners : s'.owners = Function.update s.owners i (some b))
    (howned : s'.ownerCredits = Function.update s.ownerCredits b (s.ownerCredits b ++ [i])) :
    Misplaced s' id a := by
  refine ⟨?_, ?_⟩
  · rw [howned, mem_appended]
    exact Or.inl h.1
  · by_cases hab : a = b
    · subst hab
      rw [howners, howned, Function.update_self]
      rcases h.2 with howner | hdup
      · by_cases hi : id = i
        · -- the credit comes back to a list that still has it
          right
          subst hi
          intro hnodup
          exact (List.nodup_append.mp hnodup).2.2 id h.1 id List.mem_cons_self rfl
        · left
          rw [Function.update_of_ne hi]
          exact howner
      · right
        intro hnodup
        exact hdup (List.nodup_append.mp hnodup).1
    · rw [howners, howned, Function.update_of_ne hab]
      rcases h.2 with howner | hdup
      · left
        by_cases hi : id = i
        · rw [hi, Function.update_self]
          intro heq
          exact hab (Option.some.inj heq).symm
        · rw [Function.update_of_ne hi]
          exact howner
      · exact Or.inr hdup

theorem Misplaced.apply {id : ℕ} {a : Address} (h : Misplaced s id a) (tx : Env × Call) :
    Misplaced (CreditRegistry.apply sha256 s tx) id a := by
  refine apply_rule (P := fun s' => Misplaced s' id a) h fun s' hexec => ?_
  generalize tx.2 = call at hexec
  cases exec_indexChange hexec with
  | keep _ _ _ howners howned _ =>
      unfold Misplaced
      rw [howners, howned]
      exact h
  | submit _ howners howned _ => exact h.append howners howned
  | mint _ howners howned _ => exact h.append howners howned
  | transfer _ _ howners howned _ => exact h.append howners howned

/-! ## The main theorem -/

theorem ownersListed_run (sha256 : (n : ℕ) → BitVec n → Bytes32) (ts : List (Env × Call)) :
    OwnersListed (run (apply sha256) empty ts) :=
  run_invariant (C := fun _ _ => True) (fun _ tx h _ => h.apply tx) ownersListed_empty
    fun _ _ => trivial

/-- After the first accepted transfer of a run, some credit stays misplaced. -/
theorem always_or_misplaced (sha256 : (n : ℕ) → BitVec n → Bytes32) (ts : List (Env × Call)) :
    Always (apply sha256) (fun s tx => ¬ TransferAccepted sha256 s tx) empty ts ∨
      ∃ id a, Misplaced (run (apply sha256) empty ts) id a := by
  induction ts using List.reverseRecOn with
  | nil => exact Or.inl (always_nil _ _)
  | append_singleton ts tx ih =>
      rw [run_concat, always_concat]
      rcases ih with hnone | ⟨id, a, hmis⟩
      · by_cases htx : TransferAccepted sha256 (run (apply sha256) empty ts) tx
        · exact Or.inr ((ownersListed_run sha256 ts).misplaced htx)
        · exact Or.inl ⟨hnone, htx⟩
      · exact Or.inr ⟨id, a, hmis.apply tx⟩

/-- **The owner index.**  After a run of the registry, the list of every address holds exactly
the credits that it owns, each once, if and only if the run accepted no transfer. -/
theorem owner_index_iff (sha256 : (n : ℕ) → BitVec n → Bytes32) (ts : List (Env × Call)) :
    OwnerIndexExact (run (apply sha256) empty ts) ↔
      Always (apply sha256) (fun s tx => ¬ TransferAccepted sha256 s tx) empty ts := by
  constructor
  · intro hexact
    rcases always_or_misplaced sha256 ts with hnone | ⟨id, a, hmis⟩
    · exact hnone
    · exact absurd hexact hmis.not_exact
  · intro hnone
    have hempty : OwnerIndexExact empty := by
      refine ownerIndexExact_iff.mpr fun a => ⟨List.nodup_nil, fun id => ?_⟩
      show id ∈ ([] : List ℕ) ↔ (none : Option Address) = some a
      simp only [List.not_mem_nil, reduceCtorEq]
    have hboth : OwnersListed (run (apply sha256) empty ts) ∧
        OwnerIndexExact (run (apply sha256) empty ts) := by
      refine run_invariant (I := fun s => OwnersListed s ∧ OwnerIndexExact s) ?_
        ⟨ownersListed_empty, hempty⟩ hnone
      rintro s tx ⟨hlisted, hexact⟩ htx
      exact ⟨hlisted.apply tx, hexact.apply hlisted htx⟩
    exact hboth.2

/-- Account 4 gives its credit to account 5, and still has it in its list. -/
theorem owner_index_stale :
    ¬ ∀ (sha256 : (n : ℕ) → BitVec n → Bytes32) (ts : List (Env × Call)),
      OwnerIndexExact (run (apply sha256) empty ts) := by
  intro h
  have hmem := (h (fun _ _ => 0#256) (Panel.setup ++
    [(Panel.signedBy 1, .approveAndMint (.account 1) 1 []),
     (Panel.signedBy 2, .approveAndMint (.account 2) 1 []),
     (Panel.signedBy 4, .transferCredit (.account 4) (.account 5) 1)]) (.account 4)).2 1
  exact absurd (hmem.mp (by decide)) (by decide)

end CreditRegistry

end CarbonVeritas
