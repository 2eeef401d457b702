/-
# The queries of one program of a pool

A program of a pool is answered at states that the pool passes through one after the other.  What
a program of the pool has come to is what it makes of those answers (`exists_moments`), so that a
result of a program is read off its text, query by query, with the state that each query met:

* `after` : a program after queries that met the given states;
* `after_query_ret` : a program that has returned, step by step;
* `after_query_asks`, `Uses.after` : a program that is about to ask.
-/
import CarbonVeritas.Programs

namespace Program

open Transition

variable {Q : Type} {R : Q → Type} {ε α β δ : Type}
  {handle : (q : Q) → δ → Except ε (R q) × δ}

/-! ## A program and the states that it meets -/

/-- A program after queries that met these states. -/
def after (handle : (q : Q) → δ → Except ε (R q) × δ) :
    List δ → Program R ε α → Program R ε α
  | [], p => p
  | s :: l, .query q next => after handle l (resume next (handle q s).1)
  | _ :: _, .ret a => .ret a
  | _ :: _, .throw e => .throw e

@[simp] theorem after_nil (p : Program R ε α) : after handle [] p = p := rfl

@[simp] theorem after_query_cons (s : δ) (l : List δ) (q : Q) (next : R q → Program R ε α) :
    after handle (s :: l) (.query q next) = after handle l (resume next (handle q s).1) := rfl

@[simp] theorem after_ret (l : List δ) (a : α) :
    after handle l (.ret a : Program R ε α) = .ret a := by
  cases l <;> rfl

@[simp] theorem after_throw (l : List δ) (e : ε) :
    after handle l (.throw e : Program R ε α) = .throw e := by
  cases l <;> rfl

theorem after_append (l l' : List δ) (p : Program R ε α) :
    after handle (l ++ l') p = after handle l' (after handle l p) := by
  induction l generalizing p with
  | nil => rfl
  | cons s l ih =>
      cases p with
      | ret a => simp
      | throw e => simp
      | query q next => exact ih _

section Inversion

variable {l : List δ} {q : Q} {next : R q → Program R ε α}

/-- A query is still to be made, has failed, or was answered. -/
theorem after_query_cases (handle : (q : Q) → δ → Except ε (R q) × δ) (l : List δ) (q : Q)
    (next : R q → Program R ε α) :
    after handle l (.query q next) = .query q next ∨
      (∃ e, after handle l (.query q next) = .throw e) ∨
      ∃ s l' r, l = s :: l' ∧ (handle q s).1 = .ok r ∧
        after handle l (.query q next) = after handle l' (next r) := by
  cases l with
  | nil => exact Or.inl rfl
  | cons s l' =>
      rw [after_query_cons]
      cases hanswer : (handle q s).1 with
      | ok r => exact Or.inr (Or.inr ⟨s, l', r, rfl, hanswer, rfl⟩)
      | error e => exact Or.inr (Or.inl ⟨e, after_throw l' e⟩)

/-- A query that has returned was answered. -/
theorem after_query_ret {a : α} (h : after handle l (.query q next) = .ret a) :
    ∃ s l' r, l = s :: l' ∧ (handle q s).1 = .ok r ∧ after handle l' (next r) = .ret a := by
  rcases after_query_cases handle l q next with hasks | ⟨e, hfails⟩ |
      ⟨s, l', r, rfl, hanswer, hrest⟩
  · cases hasks.symm.trans h
  · cases hfails.symm.trans h
  · exact ⟨s, l', r, rfl, hanswer, hrest.symm.trans h⟩

/-- A query is still to be made, or was answered. -/
theorem after_query_asks {q' : Q} {next' : R q' → Program R ε α}
    (h : after handle l (.query q next) = .query q' next') :
    Program.query q next = .query q' next' ∨
      ∃ s l' r, l = s :: l' ∧ (handle q s).1 = .ok r ∧
        after handle l' (next r) = .query q' next' := by
  rcases after_query_cases handle l q next with hasks | ⟨e, hfails⟩ |
      ⟨s, l', r, rfl, hanswer, hrest⟩
  · exact Or.inl (hasks.symm.trans h)
  · cases hfails.symm.trans h
  · exact Or.inr ⟨s, l', r, rfl, hanswer, hrest.symm.trans h⟩

/-- What is left of a program makes no other queries. -/
theorem Uses.after {allowed : Q → Prop} {p : Program R ε α} (hp : p.Uses allowed) (l : List δ) :
    (Program.after handle l p).Uses allowed := by
  induction l generalizing p with
  | nil => exact hp
  | cons s l ih =>
      cases p with
      | ret a => trivial
      | throw e => trivial
      | query q next =>
          refine ih ?_
          cases (handle q s).1 with
          | ok r => exact hp.2 r
          | error e => trivial

theorem Uses.asks {allowed : Q → Prop} {p : Program R ε α} (hp : p.Uses allowed)
    (h : Program.after handle l p = .query q next) : allowed q := by
  have hafter : (Program.after handle l p).Uses allowed := hp.after l
  rw [h] at hafter
  exact hafter.1

end Inversion

/-! ## Pools -/

namespace Pool

variable {ι : Type} [DecidableEq ι]

/-- **Moments.**  A program has been answered in turns of its own, one after the other, at the
states in which the pool was. -/
theorem exists_moments (handle : (q : Q) → δ → Except ε (R q) × δ) (pool : Pool ι δ R ε α)
    (ts : List ι) (i : ι) :
    ∃ moments : List (List ι), moments.Pairwise (fun us vs => us ++ [i] <+: vs) ∧
      (∀ us ∈ moments, us ++ [i] <+: ts) ∧
      (∀ earlier us later, moments = earlier ++ us :: later →
        (run (next handle) pool us).programs i =
          after handle (earlier.map fun us => (run (next handle) pool us).state)
            (pool.programs i)) ∧
      (run (next handle) pool ts).programs i =
        after handle (moments.map fun us => (run (next handle) pool us).state)
          (pool.programs i) := by
  induction ts using List.reverseRecOn with
  | nil => exact ⟨[], List.Pairwise.nil, List.forall_mem_nil _, by simp, rfl⟩
  | append_singleton ts j ih =>
      obtain ⟨moments, hsorted, hwithin, hearlier, hprogram⟩ := ih
      have hlonger : ∀ us ∈ moments, us ++ [i] <+: ts ++ [j] := fun us hus =>
        (hwithin us hus).trans (List.prefix_append ts [j])
      rw [run_concat]
      rcases next_cases handle (run (next handle) pool ts) j with ⟨q, rest, hquery⟩ | hidle
      · by_cases hij : i = j
        · subst hij
          refine ⟨moments ++ [ts], ?_, ?_, ?_, ?_⟩
          · rw [List.pairwise_append]
            refine ⟨hsorted, List.pairwise_singleton _ _, fun us hus vs hvs => ?_⟩
            rw [List.mem_singleton.mp hvs]
            exact hwithin us hus
          · intro us hus
            rcases List.mem_append.mp hus with hold | hnew
            · exact hlonger us hold
            · rw [List.mem_singleton.mp hnew]
          · intro earlier us later hsplit
            rcases List.eq_nil_or_concat later with rfl | ⟨later', vs, rfl⟩
            · obtain ⟨rfl, hts⟩ := List.append_inj' hsplit rfl
              rw [← List.singleton_inj.mp hts]
              exact hprogram
            · rw [List.concat_eq_append, ← List.cons_append, ← List.append_assoc] at hsplit
              exact hearlier earlier us later' (List.append_inj' hsplit rfl).1
          · rw [List.map_append, after_append, ← hprogram, hquery, next_programs_self hquery]
            rfl
        · rw [next_programs_of_ne hij]
          exact ⟨moments, hsorted, hlonger, hearlier, hprogram⟩
      · rw [hidle]
        exact ⟨moments, hsorted, hlonger, hearlier, hprogram⟩

end Pool

end Program
