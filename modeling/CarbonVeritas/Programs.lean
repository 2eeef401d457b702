/-
# Programs that query a shared state

A program asks one query after the other and goes on with each answer; a query that fails ends
the program.  A query is atomic: it reads and changes the state at once.  Between two queries
of a program other programs may take their turns.

* `Program` : the programs over a signature of queries, a monad;
* `exec` : a program that runs alone;
* `Pool` : programs that take turns, one query a turn, in any order;
* `run_unique` : when every program has to pass a query that finds a resource unspent and
  leaves it spent, at most one returns;
* `StopsAt` : the programs that cannot get past a query that fails;
* `run_frame` : a program that reads only what the others keep does what it does alone;
* `run_adds` : a quantity to which each program adds a fixed amount.
-/
import CarbonVeritas.TransitionRun
import Mathlib.Algebra.BigOperators.Group.Finset.Piecewise
import Mathlib.Logic.Function.Basic

/-- A program with queries `q`, of which each is answered by an `R q` or fails with an `ε`. -/
inductive Program {Q : Type} (R : Q → Type) (ε α : Type) where
  | ret (a : α)
  | throw (e : ε)
  | query (q : Q) (next : R q → Program R ε α)

namespace Program

variable {Q : Type} {R : Q → Type} {ε α β δ : Type}

/-! ## Sequencing -/

protected def bind : Program R ε α → (α → Program R ε β) → Program R ε β
  | .ret a, f => f a
  | .throw e, _ => .throw e
  | .query q next, f => .query q fun r => (next r).bind f

instance : Monad (Program R ε) where
  pure := .ret
  bind := Program.bind

@[simp] theorem pure_eq (a : α) : (pure a : Program R ε α) = .ret a := rfl

@[simp] theorem ret_bind (a : α) (f : α → Program R ε β) : (.ret a >>= f) = f a := rfl

/-- What follows a throw is not run. -/
@[simp] theorem throw_bind (e : ε) (f : α → Program R ε β) :
    ((.throw e : Program R ε α) >>= f) = .throw e := rfl

/-- What follows a program follows each of its answers. -/
@[simp] theorem query_bind (q : Q) (next : R q → Program R ε α) (f : α → Program R ε β) :
    (.query q next >>= f) = .query q fun r => next r >>= f := rfl

protected theorem bind_assoc {γ : Type} (p : Program R ε α) (f : α → Program R ε β)
    (g : β → Program R ε γ) : (p >>= f) >>= g = p >>= fun a => f a >>= g := by
  induction p with
  | ret a => rfl
  | throw e => rfl
  | query q next ih => exact congrArg (Program.query q) (funext ih)

/-- One query. -/
def ask (q : Q) : Program R ε (R q) := .query q .ret

@[simp] theorem ask_bind (q : Q) (f : R q → Program R ε β) : (ask q >>= f) = .query q f := rfl

/-- `if (c) throw e;` -/
def throwIf (c : Prop) [Decidable c] (e : ε) : Program R ε Unit := if c then .throw e else .ret ()

/-- A guard throws, or lets the rest run. -/
theorem throwIf_bind (c : Prop) [Decidable c] (e : ε) (f : Unit → Program R ε β) :
    (throwIf c e >>= f) = if c then .throw e else f () := by
  unfold throwIf
  split_ifs <;> rfl

/-- `if (!o) throw e;`, and `o` from there on. -/
def orThrow (o : Option α) (e : ε) : Program R ε α :=
  match o with
  | some a => .ret a
  | none => .throw e

@[simp] theorem orThrow_some (a : α) (e : ε) : (orThrow (some a) e : Program R ε α) = .ret a := rfl

@[simp] theorem orThrow_none (e : ε) : (orThrow none e : Program R ε α) = .throw e := rfl

/-- What a program that has returned returned. -/
def result : Program R ε α → Option α
  | .ret a => some a
  | _ => none

/-- A program has a result when it has returned. -/
theorem result_eq_some {p : Program R ε α} {a : α} : p.result = some a ↔ p = .ret a := by
  cases p <;> simp [result]

/-- The program has ended. -/
def Ended : Program R ε α → Prop
  | .query _ _ => False
  | _ => True

instance (p : Program R ε α) : Decidable p.Ended :=
  match p with
  | .ret _ => .isTrue trivial
  | .throw _ => .isTrue trivial
  | .query _ _ => .isFalse id

/-- What a program does with the answer of its query. -/
def resume {q : Q} (next : R q → Program R ε α) : Except ε (R q) → Program R ε α
  | .ok r => next r
  | .error e => .throw e

@[simp] theorem resume_ok {q : Q} (next : R q → Program R ε α) (r : R q) :
    resume next (.ok r) = next r := rfl

@[simp] theorem resume_error {q : Q} (next : R q → Program R ε α) (e : ε) :
    resume next (.error e) = .throw e := rfl

/-! ## The queries of a program -/

/-- Every query of the program is allowed, whatever the answers are. -/
def Uses (allowed : Q → Prop) : Program R ε α → Prop
  | .ret _ => True
  | .throw _ => True
  | .query q next => allowed q ∧ ∀ r, Uses allowed (next r)

section Uses

variable {allowed : Q → Prop}

/-- Every program uses some queries. -/
theorem uses_true (p : Program R ε α) : p.Uses fun _ => True := by
  induction p with
  | ret a => trivial
  | throw e => trivial
  | query q next ih => exact ⟨trivial, ih⟩

/-- What is allowed may be more. -/
theorem Uses.mono {allowed' : Q → Prop} (h : ∀ q, allowed q → allowed' q) {p : Program R ε α}
    (hp : p.Uses allowed) : p.Uses allowed' := by
  induction p with
  | ret a => trivial
  | throw e => trivial
  | query q next ih => exact ⟨h q hp.1, fun r => ih r (hp.2 r)⟩

/-- A sequence uses what its parts use. -/
theorem Uses.bind {p : Program R ε α} {f : α → Program R ε β} (hp : p.Uses allowed)
    (hf : ∀ a, (f a).Uses allowed) : (p >>= f).Uses allowed := by
  induction p with
  | ret a => exact hf a
  | throw e => trivial
  | query q next ih => exact ⟨hp.1, fun r => ih r (hp.2 r)⟩

/-- A single query uses itself. -/
theorem uses_query {q : Q} (h : allowed q) {f : R q → α} :
    (.query q fun r => .ret (f r) : Program R ε α).Uses allowed :=
  ⟨h, fun _ => trivial⟩

/-- A guard asks nothing. -/
theorem uses_throwIf (c : Prop) [Decidable c] (e : ε) :
    (throwIf c e : Program R ε Unit).Uses allowed := by
  unfold throwIf
  split_ifs <;> trivial

/-- Unpacking an option asks nothing. -/
theorem uses_orThrow (o : Option α) (e : ε) : (orThrow o e : Program R ε α).Uses allowed := by
  cases o <;> trivial

end Uses

/-! ## Running alone -/

section Execution

variable (handle : (q : Q) → δ → Except ε (R q) × δ)

/-- The result of a program that runs alone, and the state that it leaves. -/
def exec : Program R ε α → δ → Except ε α × δ
  | .ret a, s => (.ok a, s)
  | .throw e, s => (.error e, s)
  | .query q next, s =>
      match handle q s with
      | (.ok r, s') => exec (next r) s'
      | (.error e, s') => (.error e, s')

@[simp] theorem exec_ret (a : α) (s : δ) : exec handle (.ret a) s = (.ok a, s) := rfl

@[simp] theorem exec_throw (e : ε) (s : δ) :
    exec handle (.throw e : Program R ε α) s = (.error e, s) := rfl

variable {handle}

/-- After an answer the program goes on in the state that the answer left. -/
theorem exec_query_ok {q : Q} {next : R q → Program R ε α} {s s' : δ} {r : R q}
    (h : handle q s = (.ok r, s')) : exec handle (.query q next) s = exec handle (next r) s' := by
  rw [exec, h]

/-- A query that fails ends the program. -/
theorem exec_query_error {q : Q} {next : R q → Program R ε α} {s s' : δ} {e : ε}
    (h : handle q s = (.error e, s')) : exec handle (.query q next) s = (.error e, s') := by
  rw [exec, h]

/-- A program of one query is run by its answer. -/
theorem exec_ask (q : Q) (s : δ) : exec handle (ask q) s = handle q s := by
  show exec handle (.query q .ret) s = handle q s
  rw [exec]
  cases handle q s with
  | mk answer s' =>
      cases answer with
      | ok r => rfl
      | error e => rfl

/-- A sequence that returns returns at both of its parts. -/
theorem exec_bind_eq_ok {p : Program R ε α} {f : α → Program R ε β} {b : β} {s s' : δ} :
    exec handle (p >>= f) s = (.ok b, s') ↔
      ∃ a u, exec handle p s = (.ok a, u) ∧ exec handle (f a) u = (.ok b, s') := by
  induction p generalizing s with
  | ret a => simp
  | throw e => simp
  | query q next ih =>
      rw [query_bind, exec, exec]
      cases handle q s with
      | mk answer u =>
          cases answer with
          | ok r => exact ih r
          | error e => simp

/-- A sequence goes on with what its first part returns, or fails with it. -/
theorem exec_bind_cases (p : Program R ε α) (f : α → Program R ε β) (s : δ) :
    (∃ a u, exec handle p s = (.ok a, u) ∧ exec handle (p >>= f) s = exec handle (f a) u) ∨
      ∃ e u, exec handle p s = (.error e, u) ∧ exec handle (p >>= f) s = (.error e, u) := by
  induction p generalizing s with
  | ret a => exact Or.inl ⟨a, s, rfl, rfl⟩
  | throw e => exact Or.inr ⟨e, s, rfl, rfl⟩
  | query q next ih =>
      rw [query_bind, exec, exec]
      cases handle q s with
      | mk answer u =>
          cases answer with
          | ok r => exact ih r u
          | error e => exact Or.inr ⟨e, u, rfl, rfl⟩

/-- After the first part has returned, the second runs in the state it left. -/
theorem exec_bind_of_ok {p : Program R ε α} {f : α → Program R ε β} {a : α} {s u : δ}
    (h : exec handle p s = (.ok a, u)) : exec handle (p >>= f) s = exec handle (f a) u := by
  rcases exec_bind_cases p f s with ⟨b, v, hret, heq⟩ | ⟨e, v, hfail, -⟩
  · rw [h] at hret
    cases hret
    exact heq
  · rw [h] at hfail
    cases hfail

/-- When the first part fails, the second is not run. -/
theorem exec_bind_of_error {p : Program R ε α} {f : α → Program R ε β} {e : ε} {s u : δ}
    (h : exec handle p s = (.error e, u)) : exec handle (p >>= f) s = (.error e, u) := by
  rcases exec_bind_cases p f s with ⟨b, v, hret, -⟩ | ⟨e', v, hfail, heq⟩
  · rw [h] at hret
    cases hret
  · rw [h] at hfail
    cases hfail
    exact heq

/-- **Sequence rule.**  What holds when the first part fails, and of all that the second part does
after the first, holds of the sequence. -/
theorem exec_bind_rule {P : Except ε β × δ → Prop} {p : Program R ε α}
    {f : α → Program R ε β} {s : δ}
    (hok : ∀ a u, exec handle p s = (.ok a, u) → P (exec handle (f a) u))
    (herror : ∀ e u, exec handle p s = (.error e, u) → P (.error e, u)) :
    P (exec handle (p >>= f) s) := by
  rcases exec_bind_cases p f s with ⟨a, u, hret, heq⟩ | ⟨e, u, hfail, heq⟩
  · rw [heq]
    exact hok a u hret
  · rw [heq]
    exact herror e u hfail

/-- Mapping the result leaves the state. -/
theorem exec_bind_ret (p : Program R ε α) (f : α → β) (s : δ) :
    exec handle (p >>= fun a => .ret (f a)) s =
      ((exec handle p s).1.map f, (exec handle p s).2) := by
  rcases exec_bind_cases p (fun a => .ret (f a)) s with ⟨a, u, hret, heq⟩ | ⟨e, u, hfail, heq⟩
  · rw [heq, hret]
    rfl
  · rw [heq, hfail]
    rfl

/-- A guard lets pass what does not meet its condition. -/
theorem exec_throwIf_eq_ok {c : Prop} [Decidable c] {e : ε} {u : Unit} {s s' : δ} :
    exec handle (throwIf c e : Program R ε Unit) s = (.ok u, s') ↔ ¬ c ∧ s = s' := by
  unfold throwIf
  split_ifs with hc
  · simp [hc]
  · simp [hc]

/-- Unpacking an option returns what is in it. -/
theorem exec_orThrow_eq_ok {o : Option α} {e : ε} {a : α} {s s' : δ} :
    exec handle (orThrow o e : Program R ε α) s = (.ok a, s') ↔ o = some a ∧ s = s' := by
  cases o with
  | none => simp
  | some b => simp

/-- What every query of a program preserves, the program preserves. -/
theorem exec_invariant {allowed : Q → Prop} {I : δ → Prop}
    (hI : ∀ q s, allowed q → I s → I (handle q s).2) {p : Program R ε α} (hp : p.Uses allowed)
    {s : δ} (hs : I s) : I (exec handle p s).2 := by
  induction p generalizing s with
  | ret a => exact hs
  | throw e => exact hs
  | query q next ih =>
      have hstep := hI q s hp.1 hs
      rw [exec]
      cases h : handle q s with
      | mk answer s' =>
          rw [h] at hstep
          cases answer with
          | ok r => exact ih r (hp.2 r) hstep
          | error e => exact hstep

end Execution

/-! ## Taking turns -/

/-- Programs that share a state. -/
structure Pool (ι δ : Type) {Q : Type} (R : Q → Type) (ε α : Type) where
  state : δ
  programs : ι → Program R ε α

namespace Pool

open Transition

variable {ι : Type} [DecidableEq ι] (handle : (q : Q) → δ → Except ε (R q) × δ)

/-- A turn of the program `i`: its next query, if it has one. -/
def next (pool : Pool ι δ R ε α) (i : ι) : Pool ι δ R ε α :=
  match pool.programs i with
  | .query q next =>
      { state := (handle q pool.state).2
        programs := Function.update pool.programs i (resume next (handle q pool.state).1) }
  | _ => pool

variable {handle} {pool : Pool ι δ R ε α} {i : ι}

section Query

variable {q : Q} {next : R q → Program R ε α}

/-- A turn of a program answers its next query. -/
theorem next_query (h : pool.programs i = .query q next) :
    pool.next handle i =
      { state := (handle q pool.state).2
        programs := Function.update pool.programs i (resume next (handle q pool.state).1) } := by
  unfold Pool.next
  rw [h]

/-- The state after a turn is what the answer leaves. -/
theorem next_state (h : pool.programs i = .query q next) :
    (pool.next handle i).state = (handle q pool.state).2 := by
  rw [next_query h]

/-- The program whose turn it was goes on with the answer. -/
theorem next_programs_self (h : pool.programs i = .query q next) :
    (pool.next handle i).programs i = resume next (handle q pool.state).1 := by
  rw [next_query h]
  exact Function.update_self _ _ _

end Query

/-- The other programs wait. -/
theorem next_programs_of_ne {j : ι} (h : j ≠ i) :
    (pool.next handle i).programs j = pool.programs j := by
  unfold Pool.next
  split
  · exact Function.update_of_ne h _ _
  · rfl

/-- A turn is a query of the program, or does nothing. -/
theorem next_cases (handle : (q : Q) → δ → Except ε (R q) × δ) (pool : Pool ι δ R ε α) (i : ι) :
    (∃ q next, pool.programs i = .query q next) ∨ pool.next handle i = pool := by
  unfold Pool.next
  cases pool.programs i with
  | ret a => exact Or.inr rfl
  | throw e => exact Or.inr rfl
  | query q next => exact Or.inl ⟨q, next, rfl⟩

/-- The rest of a program makes no other queries. -/
theorem next_uses {allowed : Q → Prop} {j : ι} (huses : (pool.programs j).Uses allowed) :
    ((pool.next handle i).programs j).Uses allowed := by
  by_cases hji : j = i
  · subst hji
    rcases next_cases handle pool j with ⟨q, next, hquery⟩ | hidle
    · rw [hquery] at huses
      rw [next_programs_self hquery]
      cases (handle q pool.state).1 with
      | ok r => exact huses.2 r
      | error e => trivial
    · rwa [hidle]
  · rwa [next_programs_of_ne hji]

/-- What the queries of the programs preserve, every run preserves. -/
theorem run_state {allowed : Q → Prop} {I : δ → Prop}
    (hI : ∀ q s, allowed q → I s → I (handle q s).2)
    (huses : ∀ j, (pool.programs j).Uses allowed) (hstate : I pool.state) (turns : List ι) :
    I (run (next handle) pool turns).state := by
  have hinv : I (run (next handle) pool turns).state ∧
      ∀ j, ((run (next handle) pool turns).programs j).Uses allowed := by
    refine run_invariant (C := fun _ _ => True)
      (I := fun now : Pool ι δ R ε α => I now.state ∧ ∀ j, (now.programs j).Uses allowed) ?_
      ⟨hstate, huses⟩ (always_of_forall_mem (fun _ _ _ => trivial) pool)
    rintro now i ⟨hnow, hprograms⟩ -
    refine ⟨?_, fun j => next_uses (hprograms j)⟩
    rcases next_cases handle now i with ⟨q, next, hquery⟩ | hidle
    · have hq := hprograms i
      rw [hquery] at hq
      rw [next_state hquery]
      exact hI q _ hq.1 hnow
    · rwa [hidle]
  exact hinv.1

/-- **Running alone.**  Enough turns of one program in a row execute it. -/
theorem exists_run_alone (handle : (q : Q) → δ → Except ε (R q) × δ) (pool : Pool ι δ R ε α)
    (i : ι) : ∃ k, (run (next handle) pool (List.replicate k i)).state =
        (exec handle (pool.programs i) pool.state).2 ∧
      ((run (next handle) pool (List.replicate k i)).programs i).Ended ∧
      ∀ j, j ≠ i → (run (next handle) pool (List.replicate k i)).programs j = pool.programs j := by
  generalize hp : pool.programs i = p
  -- on the program: each query takes one turn
  induction p generalizing pool with
  | ret a => exact ⟨0, rfl, by rw [List.replicate_zero, run_nil, hp]; trivial, fun _ _ => rfl⟩
  | throw e => exact ⟨0, rfl, by rw [List.replicate_zero, run_nil, hp]; trivial, fun _ _ => rfl⟩
  | query q rest ih =>
      have hwait : ∀ j, j ≠ i → (pool.next handle i).programs j = pool.programs j :=
        fun j hj => next_programs_of_ne hj
      rw [exec]
      cases hanswer : handle q pool.state with
      | mk answer s' =>
          have hself : (pool.next handle i).programs i = resume rest (handle q pool.state).1 :=
            next_programs_self hp
          have hstate : (pool.next handle i).state = (handle q pool.state).2 := next_state hp
          rw [hanswer] at hself hstate
          cases answer with
          | ok r =>
              obtain ⟨k, hrun, hended, hothers⟩ := ih r (pool.next handle i) hself
              refine ⟨k + 1, ?_, ?_, fun j hj => ?_⟩
              · rw [List.replicate_succ, run_cons, hrun, hstate]
              · rw [List.replicate_succ, run_cons]
                exact hended
              · rw [List.replicate_succ, run_cons, hothers j hj]
                exact hwait j hj
          | error e =>
              refine ⟨1, hstate, ?_, hwait⟩
              show ((pool.next handle i).programs i).Ended
              rw [hself]
              trivial

/-- What every query preserves, every turn preserves. -/
theorem next_invariant {I : δ → Prop} (hI : ∀ q s, I s → I (handle q s).2)
    (hpool : I pool.state) : I (pool.next handle i).state := by
  rcases next_cases handle pool i with ⟨q, next, hquery⟩ | hidle
  · rw [next_state hquery]
    exact hI q _ hpool
  · rwa [hidle]

end Pool

/-! ## Stopping -/

section Stopping

variable {barred allowed : Q → Prop} {handle : (q : Q) → δ → Except ε (R q) × δ}

/-- The program throws or comes to a barred query, and asks only what is allowed until then. -/
def StopsAt (barred allowed : Q → Prop) : Program R ε α → Prop
  | .ret _ => False
  | .throw _ => True
  | .query q next => barred q ∨ allowed q ∧ ∀ r, StopsAt barred allowed (next r)

/-- A program that starts with a barred query stops there. -/
theorem stopsAt_query {q : Q} (h : barred q) (next : R q → Program R ε α) :
    (Program.query q next).StopsAt barred allowed := Or.inl h

/-- A sequence stops where its second part does. -/
theorem Uses.stopsAt {p : Program R ε α} {f : α → Program R ε β} (hp : p.Uses allowed)
    (hf : ∀ a, (f a).StopsAt barred allowed) : (p >>= f).StopsAt barred allowed := by
  induction p with
  | ret a => exact hf a
  | throw e => trivial
  | query q next ih => exact Or.inr ⟨hp.1, fun r => ih r (hp.2 r)⟩

/-- A sequence stops where its first part does. -/
theorem StopsAt.bind {p : Program R ε α} (hp : p.StopsAt barred allowed)
    (f : α → Program R ε β) : (p >>= f).StopsAt barred allowed := by
  induction p with
  | ret a => cases hp
  | throw e => trivial
  | query q next ih => exact hp.imp_right fun h => ⟨h.1, fun r => ih r (h.2 r)⟩

/-- **Stopping.**  Where the barred queries fail, a program that stops fails, and it keeps what the
queries that it asks keep. -/
theorem StopsAt.exec {I : δ → Prop}
    (hbarred : ∀ q s, barred q → I s → (∃ e, (handle q s).1 = .error e) ∧ I (handle q s).2)
    (hallowed : ∀ q s, allowed q → I s → I (handle q s).2) {p : Program R ε α}
    (hp : p.StopsAt barred allowed) {s : δ} (hs : I s) :
    (∃ e, (exec handle p s).1 = .error e) ∧ I (exec handle p s).2 := by
  induction p generalizing s with
  | ret a => cases hp
  | throw e => exact ⟨⟨e, rfl⟩, hs⟩
  | query q next ih =>
      rw [Program.exec]
      cases hanswer : handle q s with
      | mk answer s' =>
          cases answer with
          | error e =>
              refine ⟨⟨e, rfl⟩, ?_⟩
              rcases hp with hq | ⟨hq, -⟩
              · have hkept := (hbarred q s hq hs).2
                rwa [hanswer] at hkept
              · have hkept := hallowed q s hq hs
                rwa [hanswer] at hkept
          | ok r =>
              rcases hp with hq | ⟨hq, hnext⟩
              · obtain ⟨⟨e, hfails⟩, -⟩ := hbarred q s hq hs
                rw [hanswer] at hfails
                cases hfails
              · have hkept := hallowed q s hq hs
                rw [hanswer] at hkept
                exact ih r (hnext r) hkept

end Stopping

/-! ## Frames -/

section Frames

open Transition

variable {V : Type} (handle : (q : Q) → δ → Except ε (R q) × δ) (v : δ → V)

/-- The program never changes `v`. -/
def Keeps : Program R ε α → Prop
  | .ret _ => True
  | .throw _ => True
  | .query q next => ∀ s, v (handle q s).2 = v s ∧ ∀ r, (handle q s).1 = .ok r → Keeps (next r)

/-- What the query answers, and what it makes of `v`, depends on `v` alone. -/
def Reads (q : Q) : Prop :=
  ∀ s s', v s = v s' → (handle q s).1 = (handle q s').1 ∧ v (handle q s).2 = v (handle q s').2

variable {handle v}

/-- A sequence keeps what both its parts keep. -/
theorem Keeps.bind {p : Program R ε α} {f : α → Program R ε β} (hp : Keeps handle v p)
    (hf : ∀ a, Keeps handle v (f a)) : Keeps handle v (p >>= f) := by
  induction p with
  | ret a => exact hf a
  | throw e => trivial
  | query q next ih =>
      intro s
      obtain ⟨hv, hnext⟩ := hp s
      exact ⟨hv, fun r hr => ih r (hnext r hr)⟩

/-- A whole program keeps what each of its queries keeps. -/
theorem Keeps.exec {p : Program R ε α} (hp : Keeps handle v p) (s : δ) :
    v (exec handle p s).2 = v s := by
  induction p generalizing s with
  | ret a => rfl
  | throw e => rfl
  | query q next ih =>
      obtain ⟨hv, hnext⟩ := hp s
      rw [Program.exec]
      cases hanswer : handle q s with
      | mk answer s' =>
          rw [hanswer] at hv hnext
          cases answer with
          | ok r => exact (ih r (hnext r rfl) s').trans hv
          | error e => exact hv

/-- The rest of a program that keeps `v` keeps it. -/
theorem Keeps.turn {ι : Type} [DecidableEq ι] {pool : Pool ι δ R ε α} {i : ι}
    (h : Keeps handle v (pool.programs i)) :
    v (pool.next handle i).state = v pool.state ∧
      Keeps handle v ((pool.next handle i).programs i) := by
  rcases Pool.next_cases handle pool i with ⟨q, next, hquery⟩ | hidle
  · rw [hquery] at h
    obtain ⟨hv, hnext⟩ := h pool.state
    rw [Pool.next_state hquery, Pool.next_programs_self hquery]
    refine ⟨hv, ?_⟩
    cases hanswer : (handle q pool.state).1 with
    | ok r => exact hnext r hanswer
    | error e => trivial
  · rw [hidle]
    exact ⟨rfl, h⟩

/-- A program that reads only `v` does the same to states that agree on it. -/
theorem exec_congr {p : Program R ε α} (hp : p.Uses (Reads handle v)) {s s' : δ} (h : v s = v s') :
    v (exec handle p s).2 = v (exec handle p s').2 := by
  induction p generalizing s s' with
  | ret a => exact h
  | throw e => exact h
  | query q next ih =>
      obtain ⟨hanswer, hv⟩ := hp.1 s s' h
      rw [exec, exec]
      cases hq : handle q s with
      | mk answer u =>
          cases hq' : handle q s' with
          | mk answer' u' =>
              rw [hq, hq'] at hanswer hv
              obtain rfl : answer = answer' := hanswer
              cases answer with
              | ok r => exact ih r (hp.2 r) hv
              | error e => exact hv

/-- A program that has ended leaves the state. -/
theorem exec_ended {p : Program R ε α} (h : p.Ended) (s : δ) : (exec handle p s).2 = s := by
  cases p with
  | ret a => rfl
  | throw e => rfl
  | query q next => exact absurd h id

/-- **Frame rule.**  A program that reads only what the other programs keep does what it does
alone. -/
theorem run_frame {ι : Type} [DecidableEq ι] (pool : Pool ι δ R ε α) (i : ι)
    (hreads : (pool.programs i).Uses (Reads handle v))
    (hkeeps : ∀ j, j ≠ i → Keeps handle v (pool.programs j)) {turns : List ι}
    (hended : ((run (Pool.next handle) pool turns).programs i).Ended) :
    v (run (Pool.next handle) pool turns).state =
      v (exec handle (pool.programs i) pool.state).2 := by
  have hinv : v (exec handle ((run (Pool.next handle) pool turns).programs i)
        (run (Pool.next handle) pool turns).state).2 =
          v (exec handle (pool.programs i) pool.state).2 ∧
      ((run (Pool.next handle) pool turns).programs i).Uses (Reads handle v) ∧
      ∀ j, j ≠ i → Keeps handle v ((run (Pool.next handle) pool turns).programs j) := by
    refine run_invariant (C := fun _ _ => True) (I := fun now : Pool ι δ R ε α =>
      v (exec handle (now.programs i) now.state).2 =
          v (exec handle (pool.programs i) pool.state).2 ∧
        (now.programs i).Uses (Reads handle v) ∧
          ∀ j, j ≠ i → Keeps handle v (now.programs j)) ?_ ⟨rfl, hreads, hkeeps⟩
      (always_of_forall_mem (fun _ _ _ => trivial) pool)
    rintro now k ⟨hnow, huses, hothers⟩ -
    by_cases hki : k = i
    · -- the program itself goes on
      subst hki
      rcases Pool.next_cases handle now k with ⟨q, next, hquery⟩ | hidle
      · rw [hquery] at hnow huses
        refine ⟨?_, ?_, fun j hj => ?_⟩
        · rw [← hnow, Pool.next_state hquery, Pool.next_programs_self hquery, exec]
          cases handle q now.state with
          | mk answer s' => cases answer <;> rfl
        · rw [Pool.next_programs_self hquery]
          cases (handle q now.state).1 with
          | ok r => exact huses.2 r
          | error e => trivial
        · rw [Pool.next_programs_of_ne hj]
          exact hothers j hj
      · rw [hidle]
        exact ⟨hnow, huses, hothers⟩
    · -- another program keeps what it reads
      obtain ⟨hv, hrest⟩ := (hothers k hki).turn
      rw [Pool.next_programs_of_ne (Ne.symm hki)]
      refine ⟨(exec_congr huses hv).trans hnow, huses, fun j hj => ?_⟩
      by_cases hjk : j = k
      · rw [hjk]
        exact hrest
      · rw [Pool.next_programs_of_ne hjk]
        exact hothers j hj
  rw [← hinv.1, exec_ended hended]

end Frames

/-! ## Passing a query -/

section Passing

open Transition

variable (handle : (q : Q) → δ → Except ε (R q) × δ) (I : δ → Prop) (K : Q → δ → Prop)

/-- In states with the invariant `I`, the program returns only after a query `q` that finds a
state `s` with `K q s`. -/
def Passes : Program R ε α → Prop
  | .ret _ => False
  | .throw _ => True
  | .query q next => ∀ s r, I s → (handle q s).1 = .ok r → K q s ∨ Passes (next r)

variable {handle I K}

/-- The first query of a program that has to pass is what it has to pass, or it has to go on. -/
theorem Passes.resume {q : Q} {next : R q → Program R ε α}
    (h : Passes handle I K (.query q next)) {s : δ} (hs : I s) (hK : ¬ K q s) :
    Passes handle I K (resume next (handle q s).1) := by
  cases hanswer : (handle q s).1 with
  | ok r => exact (h s r hs hanswer).resolve_left hK
  | error e => trivial

/-- The part that has to pass comes first. -/
theorem Passes.bind_left {p : Program R ε α} (hp : Passes handle I K p)
    (f : α → Program R ε β) : Passes handle I K (p >>= f) := by
  induction p with
  | ret a => exact hp.elim
  | throw e => trivial
  | query q next ih =>
      intro s r hs hr
      exact (hp s r hs hr).imp_right (ih r)

/-- The part that has to pass comes later. -/
theorem Passes.bind_right (p : Program R ε α) {f : α → Program R ε β}
    (hf : ∀ a, Passes handle I K (f a)) : Passes handle I K (p >>= f) := by
  induction p with
  | ret a => exact hf a
  | throw e => trivial
  | query q next ih =>
      intro s r _ _
      exact Or.inr (ih r)

variable {ι : Type} [DecidableEq ι]

/-- **One winner.**  If some programs all have to pass a query that leaves a resource spent,
none of them makes it when the resource is spent, and it stays spent, then at most one of them
returns. -/
theorem run_unique {Spent : δ → Prop} {Contends : ι → Prop}
    (hI : ∀ q s, I s → I (handle q s).2) (hspent : ∀ q s, I s → Spent s → Spent (handle q s).2)
    (hK : ∀ q s, I s → K q s → Spent (handle q s).2)
    {pool : Pool ι δ R ε α} {ts : List ι} (hstart : I pool.state)
    (hpass : ∀ i, Contends i → Passes handle I K (pool.programs i))
    (halways : Always (Pool.next handle) (fun pool i => Contends i → ∀ q next,
      pool.programs i = .query q next → K q pool.state → ¬ Spent pool.state) pool ts)
    {i j : ι} (hi : Contends i) (hj : Contends j) {a b : α}
    (hreti : (run (Pool.next handle) pool ts).programs i = .ret a)
    (hretj : (run (Pool.next handle) pool ts).programs j = .ret b) : i = j := by
  -- all but the winner have to pass, and with a winner the resource is spent
  have hwinner : I (run (Pool.next handle) pool ts).state ∧ ∃ w : Option ι,
      (w.isSome = true → Spent (run (Pool.next handle) pool ts).state) ∧
        ∀ k, Contends k → some k ≠ w →
          Passes handle I K ((run (Pool.next handle) pool ts).programs k) := by
    refine run_invariant (I := fun pool : Pool ι δ R ε α => I pool.state ∧ ∃ w : Option ι,
      (w.isSome = true → Spent pool.state) ∧
        ∀ k, Contends k → some k ≠ w → Passes handle I K (pool.programs k))
      ?_ ⟨hstart, none, nofun, fun k hk _ => hpass k hk⟩ halways
    rintro pool k ⟨hstate, w, hw, hothers⟩ hfresh
    refine ⟨Pool.next_invariant hI hstate, ?_⟩
    rcases Pool.next_cases handle pool k with ⟨q, next, hquery⟩ | hidle
    · by_cases hwins : Contends k ∧ K q pool.state
      · have hnone : w = none := by
          by_contra hsome
          exact hfresh hwins.1 q next hquery hwins.2 (hw (Option.isSome_iff_ne_none.mpr hsome))
        refine ⟨some k, fun _ => ?_, fun l hl hne => ?_⟩
        · rw [Pool.next_state hquery]
          exact hK q _ hstate hwins.2
        · have hlk : l ≠ k := fun heq => hne (congrArg some heq)
          rw [Pool.next_programs_of_ne hlk]
          exact hothers l hl (by rw [hnone]; exact Option.some_ne_none l)
      · refine ⟨w, fun hsome => ?_, fun l hl hne => ?_⟩
        · rw [Pool.next_state hquery]
          exact hspent q _ hstate (hw hsome)
        · by_cases hlk : l = k
          · subst hlk
            have hnext := hothers l hl hne
            rw [hquery] at hnext
            rw [Pool.next_programs_self hquery]
            exact hnext.resume hstate fun hKq => hwins ⟨hl, hKq⟩
          · rw [Pool.next_programs_of_ne hlk]
            exact hothers l hl hne
    · rw [hidle]
      exact ⟨w, hw, hothers⟩
  obtain ⟨-, w, -, hothers⟩ := hwinner
  have hwins : ∀ k, Contends k → ∀ c : α,
      (run (Pool.next handle) pool ts).programs k = .ret c → some k = w := by
    intro k hk c hret
    by_contra hne
    have hpassed := hothers k hk hne
    rw [hret] at hpassed
    exact hpassed
  exact Option.some.inj ((hwins i hi a hreti).trans (hwins j hj b hretj).symm)

end Passing

/-! ## Adding to a quantity -/

section Adding

open Transition

variable {M : Type} [AddCommMonoid M] (handle : (q : Q) → δ → Except ε (R q) × δ)
  (I : δ → Prop) (K : Q → δ → Prop) (μ : δ → M)

/-- In states with the invariant `I`, which its queries preserve as long as they meet `K`, the
program adds `m` to `μ` until it ends, whatever other programs do in between. -/
def Adds : Program R ε α → M → Prop
  | .ret _, m => m = 0
  | .throw _, m => m = 0
  | .query q next, m => ∀ s, I s → K q s → I (handle q s).2 ∧ ∃ m₁ m₂, m = m₁ + m₂ ∧
      μ (handle q s).2 = μ s + m₁ ∧
        match (handle q s).1 with
        | .ok r => Adds (next r) m₂
        | .error _ => m₂ = 0

variable {handle I K μ}

/-- A program that has ended adds nothing. -/
theorem Adds.eq_zero {p : Program R ε α} {m : M} (h : Adds handle I K μ p m) (hp : p.Ended) :
    m = 0 := by
  cases p with
  | ret a => exact h
  | throw e => exact h
  | query q next => exact absurd hp id

/-- A turn of a program adds a part, and leaves the rest to be added. -/
theorem Adds.turn {q : Q} {next : R q → Program R ε α} {m : M} {s : δ}
    (h : Adds handle I K μ (.query q next) m) (hs : I s) (hK : K q s) :
    I (handle q s).2 ∧ ∃ m₁ m₂, m = m₁ + m₂ ∧ μ (handle q s).2 = μ s + m₁ ∧
      Adds handle I K μ (Program.resume next (handle q s).1) m₂ := by
  obtain ⟨hI, m₁, m₂, hm, hμ, hrest⟩ := h s hs hK
  refine ⟨hI, m₁, m₂, hm, hμ, ?_⟩
  cases hanswer : (handle q s).1 with
  | ok r =>
      rw [hanswer] at hrest
      exact hrest
  | error e =>
      rw [hanswer] at hrest
      exact hrest

/-- A query that adds `m₁`, and leaves `m₂` to the rest. -/
theorem adds_query {q : Q} {next : R q → Program R ε α} {m₁ m₂ : M}
    (h : ∀ s, I s → K q s → I (handle q s).2 ∧ μ (handle q s).2 = μ s + m₁)
    (hnext : ∀ s r, I s → K q s → (handle q s).1 = .ok r → Adds handle I K μ (next r) m₂)
    (herror : ∀ s e, I s → K q s → (handle q s).1 = .error e → m₂ = 0) :
    Adds handle I K μ (.query q next) (m₁ + m₂) := by
  intro s hs hK
  obtain ⟨hI, hμ⟩ := h s hs hK
  refine ⟨hI, m₁, m₂, rfl, hμ, ?_⟩
  cases hanswer : (handle q s).1 with
  | ok r => exact hnext s r hs hK hanswer
  | error e => exact herror s e hs hK hanswer

/-- A query that adds nothing. -/
theorem adds_keep {q : Q} {next : R q → Program R ε α} {m : M}
    (h : ∀ s, I s → K q s → I (handle q s).2 ∧ μ (handle q s).2 = μ s)
    (hnext : ∀ s r, I s → K q s → (handle q s).1 = .ok r → Adds handle I K μ (next r) m)
    (herror : ∀ s e, I s → K q s → (handle q s).1 = .error e → m = 0) :
    Adds handle I K μ (.query q next) m := by
  rw [← zero_add m]
  refine adds_query (fun s hs hK => ?_) hnext herror
  rw [add_zero]
  exact h s hs hK

/-- A sequence of which the second part adds nothing. -/
theorem Adds.bind {p : Program R ε α} {f : α → Program R ε β} {m : M}
    (hp : Adds handle I K μ p m) (hf : ∀ a, Adds handle I K μ (f a) 0) :
    Adds handle I K μ (p >>= f) m := by
  induction p generalizing m with
  | ret a =>
      rw [show m = 0 from hp]
      exact hf a
  | throw e => exact hp
  | query q next ih =>
      intro s hs hK
      obtain ⟨hI, m₁, m₂, hm, hμ, hrest⟩ := hp s hs hK
      refine ⟨hI, m₁, m₂, hm, hμ, ?_⟩
      cases hanswer : (handle q s).1 with
      | ok r =>
          rw [hanswer] at hrest
          exact ih r hrest
      | error e =>
          rw [hanswer] at hrest
          exact hrest

/-- A guard adds nothing. -/
theorem adds_throwIf {c : Prop} [Decidable c] {e : ε} :
    Adds handle I K μ (throwIf c e : Program R ε Unit) 0 := by
  unfold throwIf
  split_ifs <;> exact rfl

/-- What a program adds when it runs alone. -/
theorem Adds.exec {p : Program R ε α} {m : M} (h : Adds handle I (fun _ _ => True) μ p m) {s : δ}
    (hs : I s) : μ (exec handle p s).2 = μ s + m := by
  induction p generalizing m s with
  | ret a =>
      rw [show m = 0 from h, add_zero]
      rfl
  | throw e =>
      rw [show m = 0 from h, add_zero]
      rfl
  | query q next ih =>
      obtain ⟨hI, m₁, m₂, rfl, hμ, hrest⟩ := h s hs trivial
      rw [Program.exec]
      cases hanswer : handle q s with
      | mk answer s' =>
          rw [hanswer] at hI hμ hrest
          cases answer with
          | ok r =>
              rw [← add_assoc, ← show μ s' = _ from hμ]
              exact ih r hrest hI
          | error e =>
              rw [show m₂ = 0 from hrest, add_zero]
              exact hμ

/-- A program that keeps the quantity. -/
theorem adds_of_keeps {p : Program R ε α} (hp : Keeps handle μ p)
    (hI : ∀ q s, I s → I (handle q s).2) : Adds handle I K μ p 0 := by
  induction p with
  | ret a => exact rfl
  | throw e => exact rfl
  | query q next ih =>
      intro s hs _
      obtain ⟨hμ, hnext⟩ := hp s
      refine ⟨hI q s hs, 0, 0, (add_zero 0).symm, by rw [hμ, add_zero], ?_⟩
      cases hanswer : (handle q s).1 with
      | ok r => exact ih r (hnext r hanswer)
      | error e => rfl

variable {ι : Type}

/-- The next query of the program `i`, if it has one, meets the condition. -/
def Pool.NextMeets (K : ι → Q → δ → Prop) (pool : Pool ι δ R ε α) (i : ι) : Prop :=
  match pool.programs i with
  | .query q _ => K i q pool.state
  | _ => True

/-- The condition on the next query, at a program that asks one. -/
theorem Pool.NextMeets.query {K : ι → Q → δ → Prop} {pool : Pool ι δ R ε α} {i : ι} {q : Q}
    {next : R q → Program R ε α} (h : Pool.NextMeets K pool i)
    (hquery : pool.programs i = .query q next) : K i q pool.state := by
  unfold Pool.NextMeets at h
  rw [hquery] at h
  exact h

instance {K : ι → Q → δ → Prop} [∀ i q s, Decidable (K i q s)] (pool : Pool ι δ R ε α) (i : ι) :
    Decidable (Pool.NextMeets K pool i) :=
  match h : pool.programs i with
  | .query q _ => decidable_of_iff (K i q pool.state) (by rw [Pool.NextMeets, h])
  | .ret _ => .isTrue (by rw [Pool.NextMeets, h]; trivial)
  | .throw _ => .isTrue (by rw [Pool.NextMeets, h]; trivial)

variable [DecidableEq ι] [Fintype ι]

/-- **Sum.**  When all programs have ended, the quantity has grown by what they add. -/
theorem run_adds {K : ι → Q → δ → Prop} {pool : Pool ι δ R ε α} {ts : List ι} {amounts : ι → M}
    (hs : I pool.state) (hadds : ∀ i, Adds handle I (K i) μ (pool.programs i) (amounts i))
    (hmeets : Always (Pool.next handle) (Pool.NextMeets K) pool ts)
    (hended : ∀ i, ((run (Pool.next handle) pool ts).programs i).Ended) :
    I (run (Pool.next handle) pool ts).state ∧
      μ (run (Pool.next handle) pool ts).state = μ pool.state + ∑ i, amounts i := by
  have hrest : I (run (Pool.next handle) pool ts).state ∧ ∃ rest : ι → M,
      (∀ i, Adds handle I (K i) μ ((run (Pool.next handle) pool ts).programs i) (rest i)) ∧
        μ (run (Pool.next handle) pool ts).state + ∑ i, rest i =
          μ pool.state + ∑ i, amounts i := by
    -- what is still to be added, program by program
    refine run_invariant (I := fun now : Pool ι δ R ε α => I now.state ∧
      ∃ rest : ι → M, (∀ i, Adds handle I (K i) μ (now.programs i) (rest i)) ∧
        μ now.state + ∑ i, rest i = μ pool.state + ∑ i, amounts i)
      ?_ ⟨hs, amounts, hadds, rfl⟩ hmeets
    rintro now k ⟨hnow, rest, hrest, hsum⟩ hmeet
    rcases Pool.next_cases handle now k with ⟨q, next, hquery⟩ | hidle
    · have hk := hrest k
      rw [hquery] at hk
      obtain ⟨hI, m₁, m₂, hm, hμ, hnext⟩ := hk.turn hnow (hmeet.query hquery)
      refine ⟨?_, Function.update rest k m₂, fun i => ?_, ?_⟩
      · rw [Pool.next_state hquery]
        exact hI
      · by_cases hik : i = k
        · subst hik
          rw [Pool.next_programs_self hquery, Function.update_self]
          exact hnext
        · rw [Pool.next_programs_of_ne hik, Function.update_of_ne hik]
          exact hrest i
      · rw [← hsum, Pool.next_state hquery, hμ, Finset.sum_update_of_mem (Finset.mem_univ k),
          add_assoc]
        congr 1
        rw [← add_assoc, ← hm, ← Finset.add_sum_erase _ _ (Finset.mem_univ k),
          Finset.sdiff_singleton_eq_erase]
    · rw [hidle]
      exact ⟨hnow, rest, hrest, hsum⟩
  obtain ⟨hI, rest, hadds', hsum⟩ := hrest
  refine ⟨hI, ?_⟩
  rw [← hsum, Finset.sum_eq_zero fun i _ => (hadds' i).eq_zero (hended i), add_zero]

end Adding

end Program
