/-
# Contract invocations on the Soroban host

A contract function either returns or panics.  It is modelled as a function from
the storage before the call to `Result`, which holds the value returned and the
storage after the call, or the reason of the panic; since a panic carries no
storage, it rolls back every write of the transaction.

`Env` is what an invocation sees of its transaction: the addresses that authorised
it, the contract that makes the call, and the ledger header.  `require_auth` of an
address succeeds when the address authorised the transaction or is the calling
contract (`Env.Authorised`).
-/
import CarbonVeritas.SharedTypes

namespace CarbonVeritas

/-! ## Results -/

/-- Why an invocation panicked. -/
inductive Panic where
  /-- `panic_with_error!` -/
  | error (e : Error)
  /-- `require_auth` of an address that did not authorise the call -/
  | auth
  /-- `unwrap` of a missing storage entry -/
  | unwrap
  /-- a call of a registry at an address that has none -/
  | missing
  /-- a call of a settlement token failed -/
  | token
  /-- an argument that is not of its declared type -/
  | conversion
  deriving DecidableEq, Repr

/-- What an invocation gives: a value, or a panic. -/
abbrev Result (α : Type) := Except Panic α

variable {α β : Type}

@[simp] theorem bind_eq_ok {x : Result α} {f : α → Result β} {b : β} :
    (x >>= f) = .ok b ↔ ∃ a, x = .ok a ∧ f a = .ok b := by
  cases x with
  | error p => simp [bind, Except.bind]
  | ok a => simp [bind, Except.bind]

@[simp] theorem pure_eq_ok {a b : α} : (pure a : Result α) = .ok b ↔ a = b := by
  simp [pure, Except.pure]

@[simp] theorem map_eq_ok {x : Result α} {f : α → β} {b : β} :
    x.map f = .ok b ↔ ∃ a, x = .ok a ∧ f a = b := by
  cases x with
  | error p => simp [Except.map]
  | ok a => simp [Except.map]

/-- A loop whose every turn returns. -/
theorem mapM_eq_ok {f : α → Result β} {g : α → Option β} {l : List α}
    (h : ∀ a ∈ l, ∃ b, f a = .ok b ∧ g a = some b) : l.mapM f = .ok (l.filterMap g) := by
  induction l with
  | nil => rfl
  | cons a rest ih =>
      obtain ⟨b, hf, hg⟩ := h a List.mem_cons_self
      have hrest := ih fun a' ha' => h a' (List.mem_cons_of_mem a ha')
      rw [List.mapM_cons, hf, hrest, List.filterMap_cons_some hg]
      rfl

/-- `if c { panic_with_error!(e) }` -/
def panicIf (c : Prop) [Decidable c] (e : Error) : Result Unit :=
  if c then .error (.error e) else .ok ()

@[simp] theorem panicIf_eq_ok {c : Prop} [Decidable c] {e : Error} {u : Unit} :
    panicIf c e = .ok u ↔ ¬ c := by
  unfold panicIf
  split <;> simp_all

/-- `o.unwrap_or_else(|| panic)`, and `o.unwrap()` for the panic `unwrap`. -/
def orPanic (o : Option α) (p : Panic) : Result α :=
  match o with
  | some a => .ok a
  | none => .error p

@[simp] theorem orPanic_eq_ok {o : Option α} {p : Panic} {a : α} :
    orPanic o p = .ok a ↔ o = some a := by
  cases o with
  | none => simp [orPanic]
  | some b => simp [orPanic]

/-! ## The environment of an invocation -/

/-- What an invocation sees of its transaction. -/
structure Env where
  /-- the addresses that authorised the transaction -/
  signers : List Address
  /-- the contract making the call, if a contract makes it -/
  invoker : Option Address
  /-- `env.ledger().timestamp()` -/
  timestamp : ℕ
  /-- `env.ledger().sequence()` -/
  sequence : ℕ
  deriving Repr

/-- `a` authorised the transaction, or is the contract making the call. -/
def Env.Authorised (env : Env) (a : Address) : Prop :=
  a ∈ env.signers ∨ env.invoker = some a

instance (env : Env) (a : Address) : Decidable (env.Authorised a) :=
  inferInstanceAs (Decidable (_ ∨ _))

/-- `a.require_auth()` -/
def Env.requireAuth (env : Env) (a : Address) : Result Unit :=
  if env.Authorised a then .ok () else .error .auth

@[simp] theorem Env.requireAuth_eq_ok {env : Env} {a : Address} {u : Unit} :
    env.requireAuth a = .ok u ↔ env.Authorised a := by
  unfold Env.requireAuth
  split <;> simp_all

/-- The environment of a call that contract `c` makes within the transaction. -/
def Env.calledBy (env : Env) (c : Address) : Env := { env with invoker := some c }

@[simp] theorem Env.calledBy_signers (env : Env) (c : Address) :
    (env.calledBy c).signers = env.signers := rfl

@[simp] theorem Env.calledBy_invoker (env : Env) (c : Address) :
    (env.calledBy c).invoker = some c := rfl

/-- The calling contract needs no signature of its own. -/
@[simp] theorem Env.calledBy_authorised_self (env : Env) (c : Address) :
    (env.calledBy c).Authorised c :=
  Or.inr rfl

end CarbonVeritas
