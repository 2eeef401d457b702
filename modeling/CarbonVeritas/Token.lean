/-
# Tokens

The settlement tokens of the offers and the asset of the stakes are contracts outside the
repository, reached through `token::Client`.  A model takes their storage as a type and their
`transfer` as a parameter; what a result assumes of them is stated here.
-/
import CarbonVeritas.SharedTypes
import Mathlib.Logic.Function.Basic

namespace CarbonVeritas

/-- The transfer moves exactly the requested amount or fails; `balance` reads the storage, by
asset and holder. -/
def ExactTransfer {T : Type}
    (transfer : T → (asset fromAddr toAddr : Address) → ℤ → Option T)
    (balance : T → Address → Address → ℤ) : Prop :=
  ∀ t t' asset fromAddr toAddr x, transfer t asset fromAddr toAddr x = some t' →
    ∀ cur a, balance t' cur a = balance t cur a
      - (if cur = asset ∧ a = fromAddr then x else 0)
      + (if cur = asset ∧ a = toAddr then x else 0)

/-- The transfer never refuses an amount that the sender has. -/
def HonoursBalance {T : Type}
    (transfer : T → (asset fromAddr toAddr : Address) → ℤ → Option T)
    (balance : T → Address → Address → ℤ) : Prop :=
  ∀ t asset fromAddr toAddr x, 0 ≤ x → x ≤ balance t asset fromAddr →
    (transfer t asset fromAddr toAddr x).isSome = true

namespace Sample

/-- The balances of the holders in each currency. -/
abbrev Balances := Address → Address → ℤ

/-- A token that moves the amount asked for, or refuses. -/
def transfer (b : Balances) (currency fromAddr toAddr : Address) (amount : ℤ) :
    Option Balances :=
  if 0 ≤ amount ∧ amount ≤ b currency fromAddr then
    let debited := Function.update (b currency) fromAddr (b currency fromAddr - amount)
    some (Function.update b currency
      (Function.update debited toAddr (debited toAddr + amount)))
  else none

theorem transfer_exact : ExactTransfer transfer fun t => t := by
  intro t t' currency fromAddr toAddr x h cur a
  unfold transfer at h
  split_ifs at h
  obtain rfl := Option.some.inj h
  clear h
  dsimp only
  by_cases hcur : cur = currency
  · subst hcur
    rw [Function.update_self]
    by_cases hto : a = toAddr
    · subst hto
      rw [Function.update_self]
      by_cases hfrom : a = fromAddr
      · subst hfrom
        simp
      · simp [hfrom]
    · rw [Function.update_of_ne hto]
      by_cases hfrom : a = fromAddr
      · subst hfrom
        simp [hto]
      · simp [hfrom, hto]
  · rw [Function.update_of_ne hcur]
    simp [hcur]

end Sample

end CarbonVeritas
