/-
# Runs of a deterministic transition system

A transition system is a total function `next : σ → τ → σ` from a state and a
label to the next state; a label that the system refuses is modelled by a `next`
that returns the state it was given.  A run is a list of labels.

The file defines the state a run reaches (`run`), the steps it takes, each with
the state it was taken in (`steps`), the runs whose steps all meet a condition
(`Always`), and the properties of every state on the way (`Throughout`).  The
rules below reduce a statement about whole runs to a statement about one step:

* `run_hom` : a map of the states that commutes with the steps commutes with the runs;
* `run_invariant`, `always_invariant` : an invariant of the steps is an invariant
  of the run, and may be assumed in every later step;
* `throughout_iff_always` : a condition that is exact for one step is exact for runs;
* `history_invariant` : the same for a property that also reads the past steps;
* `sum_steps_eq` : a quantity that every step raises by its weight measures the
  sum of the weights;
* `length_add_rank_le` : steps that lower a rank are no more than the rank;
* `nodup_log` : events that mark what they happen to happen once;
* `LastOf` : the last step so far with a property.
-/
import Mathlib.Algebra.Order.Ring.Int
import Mathlib.Data.List.Basic
import Mathlib.Data.List.Infix
import Mathlib.Tactic.Common

namespace Transition

variable {σ τ : Type*} (next : σ → τ → σ)

/-! ## Runs and their steps -/

/-- The state reached from `s` by taking the labels of `ts` in order. -/
def run (s : σ) (ts : List τ) : σ := ts.foldl next s

@[simp] theorem run_nil (s : σ) : run next s [] = s := rfl

@[simp] theorem run_cons (s : σ) (t : τ) (ts : List τ) :
    run next s (t :: ts) = run next (next s t) ts := rfl

/-- A run goes on from where its first part ended. -/
theorem run_append (s : σ) (ts us : List τ) :
    run next s (ts ++ us) = run next (run next s ts) us := by
  unfold run
  rw [List.foldl_append]

/-- The last transition starts where the run before it ended. -/
theorem run_concat (s : σ) (ts : List τ) (t : τ) :
    run next s (ts ++ [t]) = next (run next s ts) t := by
  rw [run_append, run_cons, run_nil]

/-- The steps of a run: every label taken, with the state it was taken in. -/
def steps : σ → List τ → List (σ × τ)
  | _, [] => []
  | s, t :: ts => (s, t) :: steps (next s t) ts

@[simp] theorem steps_nil (s : σ) : steps next s [] = [] := rfl

@[simp] theorem steps_cons (s : σ) (t : τ) (ts : List τ) :
    steps next s (t :: ts) = (s, t) :: steps next (next s t) ts := rfl

/-- A run has as many steps as transitions. -/
theorem length_steps (s : σ) (ts : List τ) : (steps next s ts).length = ts.length := by
  induction ts generalizing s with
  | nil => rfl
  | cons t ts ih => rw [steps_cons, List.length_cons, List.length_cons, ih]

/-- The steps of a run are those of its parts. -/
theorem steps_append (s : σ) (ts us : List τ) :
    steps next s (ts ++ us) = steps next s ts ++ steps next (run next s ts) us := by
  induction ts generalizing s with
  | nil => rfl
  | cons t ts ih =>
      rw [List.cons_append, steps_cons, steps_cons, ih, run_cons, List.cons_append]

/-- The last step starts where the run before it ended. -/
theorem steps_concat (s : σ) (ts : List τ) (t : τ) :
    steps next s (ts ++ [t]) = steps next s ts ++ [(run next s ts, t)] := by
  rw [steps_append, steps_cons, steps_nil]

/-- A step of a run is a label of the list, taken in the state that the labels
before it lead to. -/
theorem mem_steps_iff (s : σ) (ts : List τ) (p : σ × τ) :
    p ∈ steps next s ts ↔
      ∃ us vs, ts = us ++ p.2 :: vs ∧ p.1 = run next s us := by
  constructor
  · intro hp
    induction ts generalizing s with
    | nil => simp at hp
    | cons t ts ih =>
        rcases List.mem_cons.mp hp with rfl | hp
        · exact ⟨[], ts, rfl, rfl⟩
        · obtain ⟨us, vs, hts, hs⟩ := ih (next s t) hp
          exact ⟨t :: us, vs, by rw [hts, List.cons_append], hs⟩
  · rintro ⟨us, vs, rfl, hs⟩
    rw [steps_append, steps_cons, ← hs]
    simp

/-! ## Two systems with the same labels -/

section Hom

variable {σ' : Type*} {next} {next' : σ' → τ → σ'} {f : σ → σ'} {ts : List τ}

/-- **Refinement.**  If a map of the states commutes with the steps, then it commutes with the
runs. -/
theorem run_hom (hstep : ∀ t ∈ ts, ∀ s, next' (f s) t = f (next s t)) (s : σ) :
    run next' (f s) ts = f (run next s ts) := by
  induction ts generalizing s with
  | nil => rfl
  | cons t ts ih =>
      obtain ⟨ht, hts⟩ := List.forall_mem_cons.mp hstep
      rw [run_cons, run_cons, ht s, ih hts]

/-- A map that commutes with the transitions maps the steps. -/
theorem steps_hom (hstep : ∀ t ∈ ts, ∀ s, next' (f s) t = f (next s t)) (s : σ) :
    steps next' (f s) ts = (steps next s ts).map (Prod.map f id) := by
  induction ts generalizing s with
  | nil => rfl
  | cons t ts ih =>
      obtain ⟨ht, hts⟩ := List.forall_mem_cons.mp hstep
      rw [steps_cons, steps_cons, List.map_cons, ht s, ih hts]
      rfl

/-- **Simulation.**  Where every step is, through a map of the states, a step of another system
or none, every run is a run of the other system. -/
theorem exists_run_of_steps {τ' : Type*} {next' : σ' → τ' → σ'} {M : τ → τ' → Prop}
    (hstep : ∀ s t, f (next s t) = f s ∨ ∃ t', M t t' ∧ f (next s t) = next' (f s) t')
    (s : σ) (ts : List τ) :
    ∃ ts', f (run next s ts) = run next' (f s) ts' ∧ ∀ t' ∈ ts', ∃ t ∈ ts, M t t' := by
  induction ts generalizing s with
  | nil => exact ⟨[], rfl, fun t' ht' => by cases ht'⟩
  | cons t ts ih =>
      obtain ⟨ts', hrun, hmem⟩ := ih (next s t)
      have hlift : ∀ t' ∈ ts', ∃ u ∈ t :: ts, M u t' := by
        intro t' ht'
        obtain ⟨u, hu, hM⟩ := hmem t' ht'
        exact ⟨u, List.mem_cons_of_mem _ hu, hM⟩
      rcases hstep s t with hsame | ⟨t', hM, hnext⟩
      · exact ⟨ts', by rw [run_cons, hrun, hsame], hlift⟩
      · refine ⟨t' :: ts', by rw [run_cons, run_cons, hrun, hnext], fun u hu => ?_⟩
        rcases List.mem_cons.mp hu with rfl | hu
        · exact ⟨t, List.mem_cons_self, hM⟩
        · exact hlift u hu

end Hom

/-! ## Conditions on every step -/

/-- Every step of the run meets the condition `C`. -/
def Always (C : σ → τ → Prop) (s : σ) (ts : List τ) : Prop :=
  ∀ p ∈ steps next s ts, C p.1 p.2

variable {next}

@[simp] theorem always_nil (C : σ → τ → Prop) (s : σ) : Always next C s [] := by
  intro p hp
  simp at hp

/-- A condition on every step holds of the first and of the rest. -/
theorem always_cons {C : σ → τ → Prop} {s : σ} {t : τ} {ts : List τ} :
    Always next C s (t :: ts) ↔ C s t ∧ Always next C (next s t) ts := by
  simp [Always]

/-- A condition on every step holds of both parts of a run. -/
theorem always_append {C : σ → τ → Prop} {s : σ} {ts us : List τ} :
    Always next C s (ts ++ us) ↔ Always next C s ts ∧ Always next C (run next s ts) us := by
  simp only [Always, steps_append, List.mem_append]
  constructor
  · intro h
    exact ⟨fun p hp => h p (Or.inl hp), fun p hp => h p (Or.inr hp)⟩
  · rintro ⟨hts, hus⟩ p (hp | hp)
    · exact hts p hp
    · exact hus p hp

/-- A condition on every step holds before the last step and of it. -/
theorem always_concat {C : σ → τ → Prop} {s : σ} {ts : List τ} {t : τ} :
    Always next C s (ts ++ [t]) ↔ Always next C s ts ∧ C (run next s ts) t := by
  rw [always_append, always_cons]
  simp

/-- A condition on the labels alone. -/
theorem always_of_forall_mem {C : σ → τ → Prop} {ts : List τ} (h : ∀ t ∈ ts, ∀ s, C s t) (s : σ) :
    Always next C s ts := by
  rintro ⟨u, t⟩ hp
  obtain ⟨us, vs, hts, -⟩ := (mem_steps_iff next s ts (u, t)).mp hp
  refine h t ?_ u
  rw [hts]
  exact List.mem_append_right us List.mem_cons_self

/-- For a condition on the labels alone, the states do not matter. -/
theorem always_labels_iff {D : τ → Prop} {s : σ} {ts : List τ} :
    Always next (fun _ t => D t) s ts ↔ ∀ t ∈ ts, D t := by
  refine ⟨fun h t ht => ?_, fun h => always_of_forall_mem (fun t ht _ => h t ht) s⟩
  obtain ⟨us, vs, rfl⟩ := List.append_of_mem ht
  exact (always_cons.mp (always_append.mp h).2).1

/-- A condition may be weakened. -/
theorem Always.mono {C D : σ → τ → Prop} (hCD : ∀ s t, C s t → D s t) {s : σ} {ts : List τ}
    (h : Always next C s ts) : Always next D s ts :=
  fun p hp => hCD p.1 p.2 (h p hp)

/-- Two conditions may be joined. -/
theorem Always.and {C D : σ → τ → Prop} {s : σ} {ts : List τ}
    (hC : Always next C s ts) (hD : Always next D s ts) :
    Always next (fun s t => C s t ∧ D s t) s ts :=
  fun p hp => ⟨hC p hp, hD p hp⟩

/-! ## Invariants -/

/-- **Run rule.**  What every admitted step preserves, every admitted run
preserves. -/
theorem run_invariant {C : σ → τ → Prop} {I : σ → Prop}
    (hstep : ∀ s t, I s → C s t → I (next s t)) {s : σ} {ts : List τ}
    (hs : I s) (h : Always next C s ts) : I (run next s ts) := by
  induction ts generalizing s with
  | nil => exact hs
  | cons t ts ih =>
      obtain ⟨hC, hts⟩ := always_cons.mp h
      exact ih (hstep s t hs hC) hts

/-- An invariant holds in the state of every step, so it may be assumed there. -/
theorem always_invariant {C : σ → τ → Prop} {I : σ → Prop}
    (hstep : ∀ s t, I s → C s t → I (next s t)) {s : σ} {ts : List τ}
    (hs : I s) (h : Always next C s ts) :
    Always next (fun s t => I s ∧ C s t) s ts := by
  induction ts generalizing s with
  | nil => exact always_nil _ _
  | cons t ts ih =>
      obtain ⟨hC, hts⟩ := always_cons.mp h
      exact always_cons.mpr ⟨⟨hs, hC⟩, ih (hstep s t hs hC) hts⟩

/-- **Run rule with a history.**  A property of the past steps and the present
state that every admitted step preserves holds at the end of every admitted
run. -/
theorem history_invariant {C : σ → τ → Prop} {I : List (σ × τ) → σ → Prop} {s : σ}
    (hinit : I [] s)
    (hstep : ∀ hist u t, I hist u → C u t → I (hist ++ [(u, t)]) (next u t)) {ts : List τ}
    (h : Always next C s ts) : I (steps next s ts) (run next s ts) := by
  induction ts using List.reverseRecOn with
  | nil => exact hinit
  | append_singleton ts t ih =>
      obtain ⟨hts, hC⟩ := always_concat.mp h
      rw [steps_concat, run_concat]
      exact hstep _ _ _ (ih hts) hC

/-! ## Every state on the way -/

variable (next)

/-- `P` holds in every state of the run, the first and the last included. -/
def Throughout (P : σ → Prop) (s : σ) (ts : List τ) : Prop :=
  ∀ us, us <+: ts → P (run next s us)

variable {next}

/-- What holds throughout holds at the start. -/
theorem Throughout.first {P : σ → Prop} {s : σ} {ts : List τ} (h : Throughout next P s ts) :
    P s :=
  h [] List.nil_prefix

/-- What holds throughout holds at the end. -/
theorem Throughout.last {P : σ → Prop} {s : σ} {ts : List τ} (h : Throughout next P s ts) :
    P (run next s ts) :=
  h ts List.prefix_rfl

/-- A property of every state holds in particular where the steps are taken. -/
theorem Throughout.always {P : σ → Prop} {s : σ} {ts : List τ} (h : Throughout next P s ts) :
    Always next (fun s _ => P s) s ts := by
  rintro ⟨u, t⟩ hp
  obtain ⟨us, vs, hts, hu⟩ := (mem_steps_iff next s ts (u, t)).mp hp
  have hprefix : us <+: ts := by
    rw [hts]
    exact List.prefix_append us _
  have hus := h us hprefix
  rw [← hu] at hus
  exact hus

/-- What holds throughout holds at the start and throughout the rest. -/
theorem throughout_cons {P : σ → Prop} {s : σ} {t : τ} {ts : List τ} :
    Throughout next P s (t :: ts) ↔ P s ∧ Throughout next P (next s t) ts := by
  constructor
  · intro h
    refine ⟨h.first, fun us hus => ?_⟩
    have hcons := h (t :: us) (List.cons_prefix_cons.mpr ⟨rfl, hus⟩)
    rwa [run_cons] at hcons
  · rintro ⟨hs, hts⟩ us hus
    cases us with
    | nil => exact hs
    | cons u us =>
        obtain ⟨rfl, htail⟩ := List.cons_prefix_cons.mp hus
        rw [run_cons]
        exact hts us htail

/-- **Exact conditions.**  If, in the states with the invariant `J`, a step keeps `P` exactly
when it meets `D`, then a run keeps `P` throughout exactly when all its steps meet `D`. -/
theorem throughout_iff_always {C D : σ → τ → Prop} {J P : σ → Prop}
    (hJ : ∀ s t, J s → C s t → J (next s t))
    (hstep : ∀ s t, J s → C s t → P s → (P (next s t) ↔ D s t)) {s : σ} {ts : List τ}
    (hs : J s) (hP : P s) (h : Always next C s ts) :
    Throughout next P s ts ↔ Always next D s ts := by
  induction ts generalizing s with
  | nil =>
      refine ⟨fun _ => always_nil _ _, fun _ us hus => ?_⟩
      rw [List.prefix_nil.mp hus]
      exact hP
  | cons t ts ih =>
      obtain ⟨hC, hts⟩ := always_cons.mp h
      have hnext := hstep s t hs hC hP
      have hJnext := hJ s t hs hC
      rw [throughout_cons, always_cons]
      constructor
      · rintro ⟨-, hrest⟩
        exact ⟨hnext.mp hrest.first, (ih hJnext hrest.first hts).mp hrest⟩
      · rintro ⟨hD, hrest⟩
        have hPnext := hnext.mpr hD
        exact ⟨hP, (ih hJnext hPnext hts).mpr hrest⟩

/-- An invariant holds throughout every admitted run. -/
theorem throughout_invariant {C : σ → τ → Prop} {I : σ → Prop}
    (hstep : ∀ s t, I s → C s t → I (next s t)) {s : σ} {ts : List τ}
    (hs : I s) (h : Always next C s ts) : Throughout next I s ts := by
  rintro us ⟨vs, rfl⟩
  exact run_invariant hstep hs (always_append.mp h).1

/-! ## Counting events -/

/-- **Telescoping.**  If every step raises `φ` by its weight `f`, then `φ` has grown
by the sum of the weights. -/
theorem sum_steps_eq {C : σ → τ → Prop} {φ : σ → ℕ} {f : σ → τ → ℕ}
    (hstep : ∀ s t, C s t → φ (next s t) = φ s + f s t) {s : σ} {ts : List τ}
    (h : Always next C s ts) :
    φ (run next s ts) = φ s + ((steps next s ts).map fun p => f p.1 p.2).sum := by
  induction ts generalizing s with
  | nil => simp
  | cons t ts ih =>
      obtain ⟨hC, hts⟩ := always_cons.mp h
      rw [run_cons, ih hts, hstep s t hC, steps_cons, List.map_cons, List.sum_cons, Nat.add_assoc]

/-- **Ranks.**  If no step raises the rank and the steps with the property `D` lower it, a run
has no more of these than the rank it starts with. -/
theorem length_add_rank_le (ρ : σ → ℕ) {D : σ → τ → Prop} (hle : ∀ s t, ρ (next s t) ≤ ρ s)
    (hlt : ∀ s t, D s t → ρ (next s t) < ρ s) {s : σ} {ts : List τ} {l : List (σ × τ)}
    (hsub : l.Sublist (steps next s ts)) (hD : ∀ p ∈ l, D p.1 p.2) :
    l.length + ρ (run next s ts) ≤ ρ s := by
  induction ts generalizing s l with
  | nil =>
      rw [List.sublist_nil.mp hsub]
      simp
  | cons t ts ih =>
      rw [run_cons]
      cases hsub with
      | cons _ hsub => exact le_trans (ih hsub hD) (hle s t)
      | cons_cons _ hsub =>
          obtain ⟨ht, hrest⟩ := List.forall_mem_cons.mp hD
          have htail := ih hsub hrest
          have hhead := hlt s t ht
          rw [List.length_cons]
          omega

/-! ## Logs -/

/-- What one more step adds to a log of the steps. -/
theorem filterMap_concat {α : Type*} (f : σ × τ → Option α) (hist : List (σ × τ)) (p : σ × τ) :
    (hist ++ [p]).filterMap f = hist.filterMap f ++ (f p).toList := by
  rw [List.filterMap_append]
  cases h : f p with
  | none => simp [h]
  | some a => simp [h]

/-- What one more step adds to a sum over the steps. -/
theorem sum_map_concat (f : σ × τ → ℤ) (hist : List (σ × τ)) (p : σ × τ) :
    ((hist ++ [p]).map f).sum = (hist.map f).sum + f p := by
  rw [List.map_append, List.sum_append, List.map_singleton, List.sum_singleton]

/-- **Events that happen once.**  If every event finds its object without the mark `P` and
leaves it marked, and no step removes a mark, then no object is logged twice. -/
theorem nodup_log {α : Type*} {f : σ × τ → Option α} {J : σ → Prop} {P : σ → α → Prop}
    (hJ : ∀ s t, J s → J (next s t))
    (hevent : ∀ s t a, J s → f (s, t) = some a → ¬ P s a ∧ P (next s t) a)
    (hkeep : ∀ s t a, J s → P s a → P (next s t) a) {s : σ} (hs : J s) (ts : List τ) :
    ((steps next s ts).filterMap f).Nodup := by
  have hinv : J (run next s ts) ∧ ((steps next s ts).filterMap f).Nodup ∧
      ∀ a ∈ (steps next s ts).filterMap f, P (run next s ts) a := by
    refine history_invariant (C := fun _ _ => True)
      (I := fun hist u => J u ∧ (hist.filterMap f).Nodup ∧ ∀ a ∈ hist.filterMap f, P u a)
      ⟨hs, List.nodup_nil, nofun⟩ ?_ fun _ _ => trivial
    rintro hist u t ⟨hu, hnodup, hmarked⟩ -
    have hold : ∀ a ∈ hist.filterMap f, P (next u t) a :=
      fun a ha => hkeep u t a hu (hmarked a ha)
    refine ⟨hJ u t hu, ?_⟩
    rw [filterMap_concat]
    cases hf : f (u, t) with
    | none =>
        rw [Option.toList_none, List.append_nil]
        exact ⟨hnodup, hold⟩
    | some a =>
        -- what is logged now was not marked, and everything logged before was
        obtain ⟨hfree, hmark⟩ := hevent u t a hu hf
        rw [Option.toList_some]
        constructor
        · refine List.nodup_append.mpr ⟨hnodup, List.pairwise_singleton _ _, ?_⟩
          rintro b hb _ hmem rfl
          obtain rfl := List.mem_singleton.mp hmem
          exact hfree (hmarked b hb)
        · intro b hb
          rcases List.mem_append.mp hb with hb | hb
          · exact hold b hb
          · rw [List.mem_singleton.mp hb]
            exact hmark
  exact hinv.2.1

/-! ## The last event of a history -/

/-- `p` is the last step of the history with the property `E`. -/
def LastOf (E : σ × τ → Prop) (hist : List (σ × τ)) (p : σ × τ) : Prop :=
  ∃ before after, hist = before ++ p :: after ∧ E p ∧ ∀ q ∈ after, ¬ E q

/-- A step with the property is the last one for now. -/
theorem lastOf_concat_self {E : σ × τ → Prop} {hist : List (σ × τ)} {p : σ × τ} (hp : E p) :
    LastOf E (hist ++ [p]) p := by
  refine ⟨hist, [], rfl, hp, ?_⟩
  intro q hq
  cases hq

/-- Another step leaves the last one as it was. -/
theorem LastOf.concat {E : σ × τ → Prop} {hist : List (σ × τ)} {p q : σ × τ}
    (h : LastOf E hist p) (hq : ¬ E q) : LastOf E (hist ++ [q]) p := by
  obtain ⟨before, after, rfl, hp, hafter⟩ := h
  refine ⟨before, after ++ [q], ?_, hp, ?_⟩
  · rw [List.append_assoc, List.cons_append]
  · intro r hr
    rcases List.mem_append.mp hr with hr | hr
    · exact hafter r hr
    · rw [List.mem_singleton.mp hr]
      exact hq

end Transition
