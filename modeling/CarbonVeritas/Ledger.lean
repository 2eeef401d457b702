/-
# The contracts that the satellites call

`Marketplace`, `RetirementTracker` and `MerkleBridge` (the satellites) hold the address
of a `CreditRegistry` and call it; the marketplace also calls the settlement token of an
offer.  `Chain` fixes the surroundings of a run: the hash of the host, the `i128`
multiplication of the build, the tokens, and the addresses of the deployment.
`Ledger` is the storage outside the satellites.

The registries are the instances of `CreditRegistry` deployed at the addresses of
`Chain.isRegistry`; a call of any other address fails.
-/
import CarbonVeritas.CreditRegistrySpec

namespace CarbonVeritas

/-! ## Surroundings -/

/-- The contracts that are wired to a registry. -/
inductive Satellite where
  | marketplace
  | tracker
  | bridge
  deriving DecidableEq, Repr

/-- The fixed surroundings of a run; `T` is the storage of the settlement tokens. -/
structure Chain (T : Type) where
  /-- `env.crypto().sha256`, on the bits of its input -/
  sha256 : (n : ℕ) → BitVec n → Bytes32
  /-- `i128` multiplication: it wraps in the release profile, and is exact where `i128` is
  read as the integers -/
  mulI128 : ℤ → ℤ → ℤ
  /-- `token::Client::transfer` of a currency: the storage of the tokens after a transfer,
  or `none` if the token refuses it -/
  tokenTransfer : T → (currency fromAddr toAddr : Address) → ℤ → Option T
  /-- where a `CreditRegistry` is deployed -/
  isRegistry : Address → Bool
  /-- where the satellites are deployed -/
  address : Satellite → Address
  address_injective : Function.Injective address
  address_not_registry : ∀ k, isRegistry (address k) = false

/-- `a` is a contract of the deployment. -/
def Chain.Deployed {T : Type} (ch : Chain T) (a : Address) : Prop :=
  ch.isRegistry a = true ∨ ∃ k, ch.address k = a

theorem Chain.deployed_address {T : Type} (ch : Chain T) (k : Satellite) :
    ch.Deployed (ch.address k) :=
  Or.inr ⟨k, rfl⟩

/-- The storage outside the satellites. -/
structure Ledger (T : Type) where
  registries : Address → CreditRegistry := fun _ => .empty
  tokens : T

namespace Ledger

variable {T : Type} {α : Type} {ch : Chain T} {l l' : Ledger T} {r : Address}

/-! ## Calls -/

@[simps -fullyApplied] def writeRegistry (l : Ledger T) (r : Address) (s : CreditRegistry) :
    Ledger T :=
  { l with registries := Function.update l.registries r s }

theorem registry_writeRegistry_self (l : Ledger T) (r : Address) (s : CreditRegistry) :
    (l.writeRegistry r s).registries r = s := by
  rw [writeRegistry_registries, Function.update_self]

theorem registry_writeRegistry_ne {r' : Address} (hr : r' ≠ r) (l : Ledger T)
    (s : CreditRegistry) : (l.writeRegistry r s).registries r' = l.registries r' := by
  rw [writeRegistry_registries, Function.update_of_ne hr]

/-- A call of a function that reads the registry at `r`. -/
def readRegistry (ch : Chain T) (l : Ledger T) (r : Address) (f : CreditRegistry → Result α) :
    Result α :=
  if ch.isRegistry r then f (l.registries r) else .error .missing

/-- A call of a function that writes the registry at `r`. -/
def callRegistry (ch : Chain T) (l : Ledger T) (r : Address)
    (f : CreditRegistry → Result (α × CreditRegistry)) : Result (α × Ledger T) := do
  let (a, s) ← l.readRegistry ch r f
  return (a, l.writeRegistry r s)

/-- A call of `transfer` of the token at `currency`. -/
def transferToken (ch : Chain T) (l : Ledger T) (currency fromAddr toAddr : Address)
    (amount : ℤ) : Result (Ledger T) := do
  let tokens ← orPanic (ch.tokenTransfer l.tokens currency fromAddr toAddr amount) .token
  return { l with tokens := tokens }

@[simp] theorem readRegistry_eq_ok {f : CreditRegistry → Result α} {a : α} :
    l.readRegistry ch r f = .ok a ↔ ch.isRegistry r = true ∧ f (l.registries r) = .ok a := by
  unfold readRegistry
  split_ifs with hr
  · simp [hr]
  · simp [hr]

@[simp] theorem callRegistry_eq_ok {f : CreditRegistry → Result (α × CreditRegistry)} {a : α} :
    l.callRegistry ch r f = .ok (a, l') ↔
      ch.isRegistry r = true ∧ ∃ s, f (l.registries r) = .ok (a, s) ∧
        l' = l.writeRegistry r s := by
  simp only [callRegistry, bind_eq_ok, readRegistry_eq_ok, pure_eq_ok, Prod.exists, Prod.mk.injEq]
  constructor
  · rintro ⟨_, s, ⟨hr, hf⟩, rfl, rfl⟩
    exact ⟨hr, s, hf, rfl⟩
  · rintro ⟨hr, s, hf, rfl⟩
    exact ⟨a, s, ⟨hr, hf⟩, rfl, rfl⟩

@[simp] theorem transferToken_eq_ok {currency fromAddr toAddr : Address} {amount : ℤ} :
    l.transferToken ch currency fromAddr toAddr amount = .ok l' ↔
      ∃ tokens, ch.tokenTransfer l.tokens currency fromAddr toAddr amount = some tokens ∧
        l' = { l with tokens := tokens } := by
  simp only [transferToken, bind_eq_ok, orPanic_eq_ok, pure_eq_ok]
  constructor
  · rintro ⟨tokens, htokens, rfl⟩
    exact ⟨tokens, htokens, rfl⟩
  · rintro ⟨tokens, htokens, rfl⟩
    exact ⟨tokens, htokens, rfl⟩

end Ledger

end CarbonVeritas
