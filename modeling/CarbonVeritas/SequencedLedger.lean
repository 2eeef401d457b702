/-
# Ledgers of numbered operations

A ledger takes operations from anybody and applies them one at a time.  An operation names an
account and carries a number: it is applied only when its number is the next one of its account,
and not after its expiry.  An operation that fails leaves the state as it was, but its number
is used.

The history of a ledger determines its state (`Consistent.state_eq`), and an operation with an
outcome took effect as one step of it (`Consistent.exec_of_outcome`).  An operation is applied at
most once however often it is submitted (`Consistent.position_unique`), and not before its number
is next (`Consistent.notMem_of_lt`).
-/
import Mathlib.Data.List.Basic
import Mathlib.Data.List.Infix
import Mathlib.Order.Basic
import Mathlib.Tactic.Common

namespace SequencedLedger

/-- The ledger's rules for the operations `Op` of the accounts `ι`. -/
structure Rules (σ ι Op Out : Type) where
  account : Op → ι
  number : Op → ℕ
  expiry : Op → ℕ
  /-- the effect at a time, if the operation does not fail -/
  exec : σ → Op → ℕ → Option (σ × Out)

/-- An applied operation; it failed if it has no outcome. -/
structure Entry (Op Out : Type) where
  op : Op
  time : ℕ
  outcome : Option Out

/-- A ledger with the operations that it has received. -/
structure State (σ ι Op Out : Type) where
  received : List Op
  state : σ
  number : ι → ℕ
  history : List (Entry Op Out)

variable {σ ι Op Out : Type} (R : Rules σ ι Op Out)

namespace Rules

/-- The state after an operation at a time. -/
def effect (s : σ) (op : Op) (time : ℕ) : σ :=
  match R.exec s op time with
  | some (s', _) => s'
  | none => s

/-- The state after the operations of a history. -/
def replay (s : σ) (history : List (Entry Op Out)) : σ :=
  history.foldl (fun s e => R.effect s e.op e.time) s

@[simp] theorem replay_nil (s : σ) : R.replay s [] = s := rfl

theorem replay_concat (s : σ) (history : List (Entry Op Out)) (e : Entry Op Out) :
    R.replay s (history ++ [e]) = R.effect (R.replay s history) e.op e.time := by
  unfold replay
  rw [List.foldl_append, List.foldl_cons, List.foldl_nil]

theorem effect_of_some {s s' : σ} {op : Op} {time : ℕ} {out : Out}
    (h : R.exec s op time = some (s', out)) : R.effect s op time = s' := by
  simp only [effect, h]

theorem effect_of_none {s : σ} {op : Op} {time : ℕ} (h : R.exec s op time = none) :
    R.effect s op time = s := by
  simp only [effect, h]

end Rules

def State.submit (l : State σ ι Op Out) (op : Op) : State σ ι Op Out :=
  { l with received := l.received ++ [op] }

/-! ## The history -/

/-- The ledger is what its history has made of the state `s₀`. -/
structure Consistent (s₀ : σ) (l : State σ ι Op Out) : Prop where
  state_eq : l.state = R.replay s₀ l.history
  received : ∀ e ∈ l.history, e.op ∈ l.received
  in_time : ∀ e ∈ l.history, e.time ≤ R.expiry e.op
  number_le : ∀ e ∈ l.history, R.number e.op ≤ l.number (R.account e.op)
  increasing : l.history.Pairwise fun e f =>
    R.account e.op = R.account f.op → R.number e.op < R.number f.op
  outcome_eq : ∀ before e after, l.history = before ++ e :: after →
    e.outcome = (R.exec (R.replay s₀ before) e.op e.time).map Prod.snd

variable {R} {s₀ : σ} {l : State σ ι Op Out}

theorem consistent_initial (received : List Op) (number : ι → ℕ) :
    Consistent R s₀ { received, state := s₀, number, history := [] } where
  state_eq := rfl
  received e he := absurd he (List.not_mem_nil)
  in_time e he := absurd he (List.not_mem_nil)
  number_le e he := absurd he (List.not_mem_nil)
  increasing := List.Pairwise.nil
  outcome_eq before e after h := by simp at h

theorem Consistent.submit (h : Consistent R s₀ l) (op : Op) : Consistent R s₀ (l.submit op) where
  state_eq := h.state_eq
  received e he := List.mem_append_left _ (h.received e he)
  in_time := h.in_time
  number_le := h.number_le
  increasing := h.increasing
  outcome_eq := h.outcome_eq

/-- An operation whose number is still to come has not been applied. -/
theorem Consistent.notMem_of_lt (h : Consistent R s₀ l) {op : Op}
    (hlt : l.number (R.account op) < R.number op) : ∀ e ∈ l.history, e.op ≠ op := by
  rintro e he rfl
  have hle := h.number_le e he
  omega

/-- **Once.**  An account's number is used at one place of the history. -/
theorem Consistent.position_unique (h : Consistent R s₀ l) {i j : ℕ} {e f : Entry Op Out}
    (hi : l.history[i]? = some e) (hj : l.history[j]? = some f)
    (hacc : R.account e.op = R.account f.op) (hnum : R.number e.op = R.number f.op) : i = j := by
  have hordered : ∀ i j : ℕ, ∀ e f : Entry Op Out, i < j → l.history[i]? = some e →
      l.history[j]? = some f → R.account e.op = R.account f.op →
      R.number e.op < R.number f.op := by
    intro i j e f hij hi hj hacc
    obtain ⟨hilt, rfl⟩ := List.getElem?_eq_some_iff.mp hi
    obtain ⟨hjlt, rfl⟩ := List.getElem?_eq_some_iff.mp hj
    exact List.pairwise_iff_getElem.mp h.increasing i j hilt hjlt hij hacc
  rcases lt_trichotomy i j with hij | rfl | hij
  · exact absurd hnum (hordered i j e f hij hi hj hacc).ne
  · rfl
  · exact absurd hnum.symm (hordered j i f e hij hj hi hacc.symm).ne

/-- The entry at a place of the history, with the history before it. -/
theorem Consistent.outcome_at (h : Consistent R s₀ l) {i : ℕ} {e : Entry Op Out}
    (hi : l.history[i]? = some e) :
    e.outcome = (R.exec (R.replay s₀ (l.history.take i)) e.op e.time).map Prod.snd := by
  obtain ⟨hlt, rfl⟩ := List.getElem?_eq_some_iff.mp hi
  refine h.outcome_eq _ _ (l.history.drop (i + 1)) ?_
  rw [List.getElem_cons_drop, List.take_append_drop]

theorem replay_take_succ {i : ℕ} {e : Entry Op Out} (hi : l.history[i]? = some e) :
    R.replay s₀ (l.history.take (i + 1)) =
      R.effect (R.replay s₀ (l.history.take i)) e.op e.time := by
  rw [List.take_add_one, hi, Option.toList_some, R.replay_concat]

/-- An operation with an outcome took effect as one step. -/
theorem Consistent.exec_of_outcome (h : Consistent R s₀ l) {i : ℕ} {e : Entry Op Out} {out : Out}
    (hi : l.history[i]? = some e) (hout : e.outcome = some out) :
    R.exec (R.replay s₀ (l.history.take i)) e.op e.time =
      some (R.replay s₀ (l.history.take (i + 1)), out) := by
  have hat := h.outcome_at hi
  rw [hout, eq_comm, Option.map_eq_some_iff] at hat
  obtain ⟨⟨s', out'⟩, hexec, rfl⟩ := hat
  rw [hexec, replay_take_succ hi, R.effect_of_some hexec]

/-- An operation without one had no effect. -/
theorem Consistent.exec_of_failure (h : Consistent R s₀ l) {i : ℕ} {e : Entry Op Out}
    (hi : l.history[i]? = some e) (hout : e.outcome = none) :
    R.exec (R.replay s₀ (l.history.take i)) e.op e.time = none ∧
      R.replay s₀ (l.history.take (i + 1)) = R.replay s₀ (l.history.take i) := by
  have hat := h.outcome_at hi
  rw [hout, eq_comm, Option.map_eq_none_iff] at hat
  exact ⟨hat, by rw [replay_take_succ hi, R.effect_of_none hat]⟩

/-! ## Applying operations -/

section Apply

variable [DecidableEq ι] (R l)

/-- The operation may be applied at the time. -/
def State.Admits (l : State σ ι Op Out) (op : Op) (time : ℕ) : Prop :=
  R.number op = l.number (R.account op) + 1 ∧ time ≤ R.expiry op

instance (l : State σ ι Op Out) (op : Op) (time : ℕ) : Decidable (l.Admits R op time) :=
  inferInstanceAs (Decidable (_ ∧ _))

/-- The ledger with the operation applied. -/
def State.applied (l : State σ ι Op Out) (op : Op) (time : ℕ) : State σ ι Op Out where
  received := l.received
  state := R.effect l.state op time
  number := Function.update l.number (R.account op) (R.number op)
  history := l.history ++ [⟨op, time, (R.exec l.state op time).map Prod.snd⟩]

/-- The `i`-th received operation is applied, where the rules admit it. -/
def State.close (l : State σ ι Op Out) (i time : ℕ) : State σ ι Op Out :=
  match l.received[i]? with
  | some op => if l.Admits R op time then l.applied R op time else l
  | none => l

/-- **Inversion.**  Closing applies a received operation that is admitted, or does nothing. -/
theorem close_cases (l : State σ ι Op Out) (i time : ℕ) :
    l.close R i time = l ∨ ∃ op ∈ l.received, l.Admits R op time ∧
      l.close R i time = l.applied R op time := by
  unfold State.close
  cases h : l.received[i]? with
  | none => exact Or.inl rfl
  | some op =>
      by_cases hadmits : l.Admits R op time
      · exact Or.inr ⟨op, List.mem_of_getElem? h, hadmits, if_pos hadmits⟩
      · exact Or.inl (if_neg hadmits)

theorem history_close_prefix (l : State σ ι Op Out) (i time : ℕ) :
    l.history <+: (l.close R i time).history := by
  rcases close_cases R l i time with h | ⟨op, -, -, h⟩
  · rw [h]
  · rw [h]
    exact List.prefix_append _ _

variable {R l}

/-- Applying an operation uses the next number of its account. -/
theorem Consistent.applied (h : Consistent R s₀ l) {op : Op} {time : ℕ} (hmem : op ∈ l.received)
    (hadmits : l.Admits R op time) : Consistent R s₀ (l.applied R op time) := by
  obtain ⟨hnext, htime⟩ := hadmits
  constructor
  case state_eq =>
    show R.effect l.state op time = R.replay s₀ (l.history ++ [_])
    rw [Rules.replay_concat, h.state_eq]
  case received =>
    intro e he
    rcases List.mem_append.mp he with he | he
    · exact h.received e he
    · rw [List.mem_singleton.mp he]
      exact hmem
  case in_time =>
    intro e he
    rcases List.mem_append.mp he with he | he
    · exact h.in_time e he
    · rw [List.mem_singleton.mp he]
      exact htime
  case number_le =>
    intro e he
    show R.number e.op ≤ Function.update l.number (R.account op) (R.number op) (R.account e.op)
    rcases List.mem_append.mp he with he | he
    · have hle := h.number_le e he
      by_cases hacc : R.account e.op = R.account op
      · rw [hacc, Function.update_self]
        rw [hacc] at hle
        omega
      · rw [Function.update_of_ne hacc]
        exact hle
    · rw [List.mem_singleton.mp he, Function.update_self]
  case increasing =>
    refine List.pairwise_append.mpr ⟨h.increasing, List.pairwise_singleton _ _, ?_⟩
    intro e he f hf hacc
    obtain rfl := List.mem_singleton.mp hf
    have hle := h.number_le e he
    rw [show R.account e.op = R.account op from hacc] at hle
    show R.number e.op < R.number op
    omega
  case outcome_eq =>
    intro before e after heq
    rcases List.eq_nil_or_concat after with rfl | ⟨after', last, rfl⟩
    · -- the entry is the new one
      obtain ⟨rfl, hlast⟩ := List.append_inj' heq rfl
      obtain rfl := List.singleton_inj.mp hlast
      rw [h.state_eq]
    · rw [List.concat_eq_append, ← List.cons_append, ← List.append_assoc] at heq
      obtain ⟨hhist, -⟩ := List.append_inj' heq rfl
      exact h.outcome_eq before e after' hhist

theorem Consistent.close (h : Consistent R s₀ l) (i time : ℕ) :
    Consistent R s₀ (l.close R i time) := by
  rcases close_cases R l i time with hsame | ⟨op, hmem, hadmits, heq⟩
  · rw [hsame]
    exact h
  · rw [heq]
    exact h.applied hmem hadmits

/-- The numbers of the accounts only grow. -/
theorem number_le_close (l : State σ ι Op Out) (i time : ℕ) (a : ι) :
    l.number a ≤ (l.close R i time).number a := by
  rcases close_cases R l i time with hsame | ⟨op, -, ⟨hnext, -⟩, heq⟩
  · rw [hsame]
  · rw [heq]
    show l.number a ≤ Function.update l.number (R.account op) (R.number op) a
    by_cases ha : a = R.account op
    · rw [ha, Function.update_self]
      omega
    · rw [Function.update_of_ne ha]

end Apply

end SequencedLedger
