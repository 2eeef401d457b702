/-
# Followers of a transition system

A transition system emits events as it steps, and a follower processes them one after the
other into a state of its own.  A follower may refuse an event, and then it processes no list
with that event at this place.

`Follows` says that the follower keeps up with a run: after every prefix it has processed all
the events so far, and its state agrees with the state of the system.  `follows_iff_always`
reduces this to single steps, with the exact condition that a step has to meet.
-/
import CarbonVeritas.TransitionRun

namespace Transition

variable {σ τ ε δ : Type*}

/-! ## Processing lists of events -/

/-- Processing a list of events, as a relation between the states before and after. -/
structure Follower (ε δ : Type*) where
  Processes : List ε → δ → δ → Prop
  processes_nil : ∀ d d', Processes [] d d' ↔ d' = d
  processes_append : ∀ es fs d d',
    Processes (es ++ fs) d d' ↔ ∃ d₁, Processes es d d₁ ∧ Processes fs d₁ d'
  functional : ∀ es d d₁ d₂, Processes es d d₁ → Processes es d d₂ → d₁ = d₂

/-- The events of a run, in the order of its steps. -/
def emitted (next : σ → τ → σ) (out : σ → τ → List ε) (s : σ) (ts : List τ) : List ε :=
  (steps next s ts).flatMap fun p => out p.1 p.2

section Emitted

variable (next : σ → τ → σ) (out : σ → τ → List ε) (s : σ)

@[simp] theorem emitted_nil : emitted next out s [] = [] := rfl

@[simp] theorem emitted_cons (t : τ) (ts : List τ) :
    emitted next out s (t :: ts) = out s t ++ emitted next out (next s t) ts := by
  unfold emitted
  rw [steps_cons, List.flatMap_cons]

end Emitted

namespace Follower

variable (F : Follower ε δ) (next : σ → τ → σ) (out : σ → τ → List ε) (A : σ → δ → Prop)

/-! ## Keeping up -/

/-- After every prefix of the run, the follower has processed the events so far and agrees with
the system. -/
def Follows (s : σ) (d : δ) (ts : List τ) : Prop :=
  ∀ us, us <+: ts → ∃ d', F.Processes (emitted next out s us) d d' ∧ A (run next s us) d'

variable {F next out A}

theorem Follows.start {s : σ} {d : δ} {ts : List τ} (h : F.Follows next out A s d ts) :
    A s d := by
  obtain ⟨d', hd', hA⟩ := h [] List.nil_prefix
  rw [(F.processes_nil d d').mp hd'] at hA
  exact hA

theorem follows_nil {s : σ} {d : δ} : F.Follows next out A s d [] ↔ A s d := by
  refine ⟨Follows.start, fun hA us hus => ?_⟩
  rw [List.prefix_nil.mp hus]
  exact ⟨d, (F.processes_nil d d).mpr rfl, hA⟩

theorem follows_cons {s : σ} {d : δ} {t : τ} {ts : List τ} :
    F.Follows next out A s d (t :: ts) ↔
      A s d ∧ ∃ d₁, F.Processes (out s t) d d₁ ∧ F.Follows next out A (next s t) d₁ ts := by
  constructor
  · intro h
    -- the state after the first step is the same for every longer prefix
    have hrest : ∀ us, us <+: ts → ∃ d₁ d', F.Processes (out s t) d d₁ ∧
        F.Processes (emitted next out (next s t) us) d₁ d' ∧ A (run next (next s t) us) d' := by
      intro us hus
      obtain ⟨d', hd', hA⟩ := h (t :: us) (List.cons_prefix_cons.mpr ⟨rfl, hus⟩)
      rw [emitted_cons, F.processes_append] at hd'
      obtain ⟨d₁, hd₁, hd'⟩ := hd'
      exact ⟨d₁, d', hd₁, hd', hA⟩
    obtain ⟨d₁, _, hd₁, -, -⟩ := hrest [] List.nil_prefix
    refine ⟨h.start, d₁, hd₁, fun us hus => ?_⟩
    obtain ⟨d₂, d', hd₂, hd', hA⟩ := hrest us hus
    rw [F.functional _ _ _ _ hd₂ hd₁] at hd'
    exact ⟨d', hd', hA⟩
  · rintro ⟨hA, d₁, hd₁, hrest⟩ us hus
    cases us with
    | nil => exact ⟨d, (F.processes_nil d d).mpr rfl, hA⟩
    | cons u us =>
        obtain ⟨rfl, htail⟩ := List.cons_prefix_cons.mp hus
        obtain ⟨d', hd', hA'⟩ := hrest us htail
        refine ⟨d', ?_, hA'⟩
        rw [emitted_cons, F.processes_append]
        exact ⟨d₁, hd₁, hd'⟩

/-- **Exact conditions.**  If, in the pairs of states with the invariant `J`, the follower
keeps up with one step exactly when the step meets `D`, then it keeps up with a run exactly
when all its steps meet `D`. -/
theorem follows_iff_always {C D : σ → τ → Prop} {J : σ → δ → Prop}
    (hJ : ∀ s t d d', J s d → C s t → F.Processes (out s t) d d' → J (next s t) d')
    (hstep : ∀ s t d, J s d → C s t → A s d →
      ((∃ d', F.Processes (out s t) d d' ∧ A (next s t) d') ↔ D s t))
    {s : σ} {d : δ} {ts : List τ} (hs : J s d) (hA : A s d) (h : Always next C s ts) :
    F.Follows next out A s d ts ↔ Always next D s ts := by
  induction ts generalizing s d with
  | nil => exact iff_of_true (follows_nil.mpr hA) (always_nil _ _)
  | cons t ts ih =>
      obtain ⟨hC, hts⟩ := always_cons.mp h
      have hone := hstep s t d hs hC hA
      rw [follows_cons, always_cons]
      constructor
      · rintro ⟨-, d₁, hd₁, hrest⟩
        have hA₁ : A (next s t) d₁ := hrest.start
        exact ⟨hone.mp ⟨d₁, hd₁, hA₁⟩, (ih (hJ s t d d₁ hs hC hd₁) hA₁ hts).mp hrest⟩
      · rintro ⟨hD, hrest⟩
        obtain ⟨d₁, hd₁, hA₁⟩ := hone.mpr hD
        exact ⟨hA, d₁, hd₁, (ih (hJ s t d d₁ hs hC hd₁) hA₁ hts).mpr hrest⟩

end Follower

end Transition
