/-
# Programs among changes of the state

A program of `Programs` whose state changes between its queries, as the relation `rely` allows:
other programs take their turns, or the state has a life of its own.

* `Among` : the runs of a program, with its queries and the states that answered them;
* `among_of_exec` : a program that runs alone has such a run;
* `among_bind_ok` : a sequence that returns returns at both of its parts.
-/
import CarbonVeritas.Programs

namespace Program

variable {Q : Type} {R : Q → Type} {ε α β δ : Type}

/-- `Among handle rely p s asked out s'` : started in `s` the program comes to `out` in `s'`, and
`asked` lists its queries, each with the state in which it was answered. -/
inductive Among (handle : (q : Q) → δ → Except ε (R q) × δ) (rely : δ → δ → Prop) :
    Program R ε α → δ → List (Q × δ) → Except ε α → δ → Prop where
  | ret (a : α) (s : δ) : Among handle rely (.ret a) s [] (.ok a) s
  | throw (e : ε) (s : δ) : Among handle rely (.throw e) s [] (.error e) s
  | query_ok {q : Q} {next : R q → Program R ε α} {s u v s' : δ} {r : R q}
      {asked : List (Q × δ)} {out : Except ε α} (hrely : rely s u)
      (hanswer : handle q u = (.ok r, v)) (hrest : Among handle rely (next r) v asked out s') :
      Among handle rely (.query q next) s ((q, u) :: asked) out s'
  | query_error {q : Q} {next : R q → Program R ε α} {s u v : δ} {e : ε} (hrely : rely s u)
      (hanswer : handle q u = (.error e, v)) :
      Among handle rely (.query q next) s [(q, u)] (.error e) v

section Among

variable {handle : (q : Q) → δ → Except ε (R q) × δ} {rely : δ → δ → Prop}

/-- Where nothing has to change, a program can run alone. -/
theorem among_of_exec (hrefl : ∀ s, rely s s) (p : Program R ε α) (s : δ) :
    ∃ asked, Among handle rely p s asked (exec handle p s).1 (exec handle p s).2 := by
  induction p generalizing s with
  | ret a => exact ⟨[], .ret a s⟩
  | throw e => exact ⟨[], .throw e s⟩
  | query q next ih =>
      cases hanswer : handle q s with
      | mk answer v =>
          cases answer with
          | ok r =>
              obtain ⟨asked, hrest⟩ := ih r v
              rw [exec_query_ok hanswer]
              exact ⟨(q, s) :: asked, .query_ok (hrefl s) hanswer hrest⟩
          | error e =>
              rw [exec_query_error hanswer]
              exact ⟨[(q, s)], .query_error (hrefl s) hanswer⟩

/-- A sequence that returns returns at both of its parts, one after the other. -/
theorem among_bind_ok {p : Program R ε α} {f : α → Program R ε β} {s s' : δ}
    {asked : List (Q × δ)} {b : β} (h : Among handle rely (p >>= f) s asked (.ok b) s') :
    ∃ a u first rest, asked = first ++ rest ∧ Among handle rely p s first (.ok a) u ∧
      Among handle rely (f a) u rest (.ok b) s' := by
  induction p generalizing s asked with
  | ret a => exact ⟨a, s, [], asked, rfl, .ret a s, h⟩
  | throw e => cases h
  | query q next ih =>
      cases h with
      | query_ok hrely hanswer hrest =>
          obtain ⟨a, u, first, rest, rfl, hp, hf⟩ := ih _ hrest
          exact ⟨a, u, _, rest, rfl, .query_ok hrely hanswer hp, hf⟩

/-- One query is answered in one state. -/
theorem among_ask_ok {q : Q} {s s' : δ} {asked : List (Q × δ)} {r : R q}
    (h : Among handle rely (ask q) s asked (.ok r) s') :
    ∃ u, asked = [(q, u)] ∧ rely s u ∧ handle q u = (.ok r, s') := by
  cases h with
  | query_ok hrely hanswer hrest =>
      cases hrest
      exact ⟨_, rfl, hrely, hanswer⟩

theorem among_throwIf_ok {c : Prop} [Decidable c] {e : ε} {s s' : δ} {asked : List (Q × δ)}
    {x : Unit} (h : Among handle rely (throwIf c e : Program R ε Unit) s asked (.ok x) s') :
    ¬ c ∧ asked = [] ∧ s' = s := by
  unfold throwIf at h
  by_cases hc : c
  · rw [if_pos hc] at h
    cases h
  · rw [if_neg hc] at h
    cases h
    exact ⟨hc, rfl, rfl⟩

end Among

end Program
