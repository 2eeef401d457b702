/-
# Programs that make one thing each

Some queries of a program make something.  A program is `Guarded` when it comes to such a query only
after another has made its condition true, and asks no second one.  If the conditions stay true,
whatever is asked, then a pool of guarded programs makes one thing for each program at most, in
every interleaving, and only for programs whose condition holds (`run_makes`).

`run_keeps` is the case of a value that no program changes.
-/
import CarbonVeritas.Programs

namespace Program

open Transition

variable {Q : Type} {R : Q → Type} {ε α β δ : Type}

/-! ## One program -/

section Guards

variable (handle : (q : Q) → δ → Except ε (R q) × δ) (I P : δ → Prop) (makes : Q → Bool)
  (D : Q → Prop)

/-- At most one query of the program makes something, and this query is a `D`. -/
def MakesOnce : Program R ε α → Prop
  | .ret _ => True
  | .throw _ => True
  | .query q next =>
      if makes q then D q ∧ ∀ r, (next r).Uses fun q => makes q = false
      else ∀ r, MakesOnce (next r)

/-- In states with the invariant `I`, the program makes nothing before `P` holds, and then at most
one thing. -/
def Guarded : Program R ε α → Prop
  | .ret _ => True
  | .throw _ => True
  | .query q next => makes q = false ∧ ∀ s r, I s → (handle q s).1 = .ok r →
      P (handle q s).2 ∧ MakesOnce makes D (next r) ∨ Guarded (next r)

variable {handle I P makes D}

/-- A program that makes nothing. -/
theorem Uses.makesOnce {p : Program R ε α} (hp : p.Uses fun q => makes q = false) :
    MakesOnce makes D p := by
  induction p with
  | ret a => trivial
  | throw e => trivial
  | query q next ih =>
      rw [MakesOnce, if_neg (Bool.not_eq_true _ ▸ hp.1)]
      exact fun r => ih r (hp.2 r)

/-- The part that makes something comes later. -/
theorem Uses.makesOnce_bind {p : Program R ε α} {f : α → Program R ε β}
    (hp : p.Uses fun q => makes q = false) (hf : ∀ a, MakesOnce makes D (f a)) :
    MakesOnce makes D (p >>= f) := by
  induction p with
  | ret a => exact hf a
  | throw e => trivial
  | query q next ih =>
      rw [query_bind, MakesOnce, if_neg (Bool.not_eq_true _ ▸ hp.1)]
      exact fun r => ih r (hp.2 r)

/-- The query that makes something, with a rest that makes nothing. -/
theorem makesOnce_query {q : Q} {next : R q → Program R ε α} (hq : makes q = true) (hD : D q)
    (hnext : ∀ r, (next r).Uses fun q => makes q = false) : MakesOnce makes D (.query q next) := by
  rw [MakesOnce, if_pos hq]
  exact ⟨hD, hnext⟩

theorem Uses.guarded {p : Program R ε α} (hp : p.Uses fun q => makes q = false) :
    Guarded handle I P makes D p := by
  induction p with
  | ret a => trivial
  | throw e => trivial
  | query q next ih => exact ⟨hp.1, fun s r _ _ => Or.inr (ih r (hp.2 r))⟩

/-- The part that is guarded comes later. -/
theorem Uses.guarded_bind {p : Program R ε α} {f : α → Program R ε β}
    (hp : p.Uses fun q => makes q = false) (hf : ∀ a, Guarded handle I P makes D (f a)) :
    Guarded handle I P makes D (p >>= f) := by
  induction p with
  | ret a => exact hf a
  | throw e => trivial
  | query q next ih => exact ⟨hp.1, fun s r _ _ => Or.inr (ih r (hp.2 r))⟩

/-- The query that makes the condition true. -/
theorem guarded_query {q : Q} {next : R q → Program R ε α} (hq : makes q = false)
    (hP : ∀ s r, I s → (handle q s).1 = .ok r → P (handle q s).2)
    (hnext : ∀ r, MakesOnce makes D (next r)) : Guarded handle I P makes D (.query q next) :=
  ⟨hq, fun s r hs hr => Or.inl ⟨hP s r hs hr, hnext r⟩⟩

/-- What a turn leaves of a program that makes at most one thing. -/
theorem MakesOnce.resume {q : Q} {next : R q → Program R ε α} (hq : makes q = false)
    (h : MakesOnce makes D (.query q next)) (answer : Except ε (R q)) :
    MakesOnce makes D (resume next answer) := by
  rw [MakesOnce, if_neg (Bool.not_eq_true _ ▸ hq)] at h
  cases answer with
  | ok r => exact h r
  | error e => trivial

/-- What a turn leaves of a guarded program. -/
theorem Guarded.resume {q : Q} {next : R q → Program R ε α} {s : δ}
    (h : Guarded handle I P makes D (.query q next)) (hs : I s) :
    P (handle q s).2 ∧ MakesOnce makes D (resume next (handle q s).1) ∨
      Guarded handle I P makes D (resume next (handle q s).1) := by
  cases hanswer : (handle q s).1 with
  | ok r => exact h.2 s r hs hanswer
  | error e => exact Or.inr trivial

end Guards

/-- A program with queries that keep a value keeps it. -/
theorem keeps_of_uses {handle : (q : Q) → δ → Except ε (R q) × δ} {V : Type} {v : δ → V}
    {allowed : Q → Prop} (hv : ∀ q, allowed q → ∀ s, v (handle q s).2 = v s)
    {p : Program R ε α} (hp : p.Uses allowed) : Keeps handle v p := by
  induction p with
  | ret a => trivial
  | throw e => trivial
  | query q next ih =>
      intro s
      exact ⟨hv q hp.1 s, fun r _ => ih r (hp.2 r)⟩

/-! ## Pools -/

section Pools

variable {ι : Type} [DecidableEq ι] {handle : (q : Q) → δ → Except ε (R q) × δ}

section Makers

variable {I : δ → Prop} {P : ι → δ → Prop} {makes : Q → Bool} {D : ι → Q → Prop}
  {made : δ → List β} {Makes : Q → β → Prop}

/-- The program `i` is guarded, or its condition holds and it makes at most one thing. -/
def Pool.Ready (handle : (q : Q) → δ → Except ε (R q) × δ) (I : δ → Prop) (P : ι → δ → Prop)
    (makes : Q → Bool) (D : ι → Q → Prop) (pool : Pool ι δ R ε α) (i : ι) : Prop :=
  Guarded handle I (P i) makes (D i) (pool.programs i) ∨
    P i pool.state ∧ MakesOnce makes (D i) (pool.programs i)

/-- A turn of the program itself. -/
theorem Pool.Ready.turn {pool : Pool ι δ R ε α} {i : ι} {q : Q} {next : R q → Program R ε α}
    (hP : ∀ q s, P i s → P i (handle q s).2) (hstate : I pool.state)
    (hquery : pool.programs i = .query q next) (h : pool.Ready handle I P makes D i) :
    (pool.next handle i).Ready handle I P makes D i := by
  unfold Pool.Ready at h ⊢
  rw [hquery] at h
  rw [Pool.next_state hquery, Pool.next_programs_self hquery]
  rcases h with hguard | ⟨hnow, honce⟩
  · exact (hguard.resume hstate).symm
  · refine Or.inr ⟨hP q _ hnow, ?_⟩
    by_cases hq : makes q = true
    · rw [MakesOnce, if_pos hq] at honce
      cases (handle q pool.state).1 with
      | ok r => exact (honce.2 r).makesOnce
      | error e => trivial
    · exact honce.resume ((Bool.not_eq_true _).mp hq) _

/-- A turn of another program. -/
theorem Pool.Ready.wait {pool : Pool ι δ R ε α} {i k : ι} (hik : i ≠ k)
    (hP : ∀ q s, P i s → P i (handle q s).2) (h : pool.Ready handle I P makes D i) :
    (pool.next handle k).Ready handle I P makes D i := by
  unfold Pool.Ready at h ⊢
  rw [Pool.next_programs_of_ne hik]
  exact h.imp_right fun ⟨hnow, honce⟩ => ⟨Pool.next_invariant hP hnow, honce⟩

omit [DecidableEq ι] in
/-- A program that makes something is ready for it. -/
theorem Pool.Ready.maker {pool : Pool ι δ R ε α} {i : ι} {q : Q} {next : R q → Program R ε α}
    (hquery : pool.programs i = .query q next) (hq : makes q = true)
    (h : pool.Ready handle I P makes D i) :
    P i pool.state ∧ D i q ∧ ∀ r, (next r).Uses fun q => makes q = false := by
  unfold Pool.Ready at h
  rw [hquery] at h
  rcases h with ⟨hquiet, -⟩ | ⟨hnow, honce⟩
  · rw [hq] at hquiet
    cases hquiet
  · rw [MakesOnce, if_pos hq] at honce
    exact ⟨hnow, honce⟩

/-- The makers are different programs, which make nothing more; each has made one of the new things,
and its condition holds. -/
structure Pool.Made (P : ι → δ → Prop) (makes : Q → Bool) (D : ι → Q → Prop) (made : δ → List β)
    (Makes : Q → β → Prop) (old : List β) (pool : Pool ι δ R ε α) (makers : List ι)
    (new : List β) : Prop where
  nodup : makers.Nodup
  done : ∀ i ∈ makers, (pool.programs i).Uses fun q => makes q = false
  made_eq : made pool.state = old ++ new
  each : List.Forall₂ (fun i b => P i pool.state ∧ ∃ q, D i q ∧ Makes q b) makers new

section Turn

variable {pool : Pool ι δ R ε α} {k : ι} {q : Q} {next : R q → Program R ε α} {old new : List β}
  {makers : List ι}

/-- A turn that adds nothing. -/
theorem Pool.Made.quiet (hP : ∀ i q s, P i s → P i (handle q s).2)
    (hquery : pool.programs k = .query q next)
    (hsame : made (handle q pool.state).2 = made pool.state)
    (h : pool.Made P makes D made Makes old makers new) :
    (pool.next handle k).Made P makes D made Makes old makers new where
  nodup := h.nodup
  done i hi := Pool.next_uses (h.done i hi)
  made_eq := by rw [Pool.next_state hquery, hsame, h.made_eq]
  each := h.each.imp fun i b hb => ⟨Pool.next_invariant (hP i) hb.1, hb.2⟩

/-- A turn that adds one thing: the program has added nothing before. -/
theorem Pool.Made.add {b : β} (hP : ∀ i q s, P i s → P i (handle q s).2)
    (hquery : pool.programs k = .query q next) (hq : makes q = true)
    (hready : pool.Ready handle I P makes D k)
    (hadded : made (handle q pool.state).2 = made pool.state ++ [b]) (hb : Makes q b)
    (h : pool.Made P makes D made Makes old makers new) :
    (pool.next handle k).Made P makes D made Makes old (makers ++ [k]) (new ++ [b]) := by
  obtain ⟨hcondition, hD, hrest⟩ := hready.maker hquery hq
  have hnew : k ∉ makers := by
    intro hk
    have huses := h.done k hk
    rw [hquery] at huses
    exact Bool.noConfusion (hq.symm.trans huses.1)
  constructor
  case nodup =>
    refine List.nodup_append.mpr ⟨h.nodup, List.nodup_singleton k, fun i hi j hj => ?_⟩
    rw [List.mem_singleton.mp hj]
    exact ne_of_mem_of_not_mem hi hnew
  case done =>
    intro i hi
    rcases List.mem_append.mp hi with hi | hi
    · exact Pool.next_uses (h.done i hi)
    · obtain rfl := List.mem_singleton.mp hi
      rw [Pool.next_programs_self hquery]
      cases (handle q pool.state).1 with
      | ok r => exact hrest r
      | error e => trivial
  case made_eq => rw [Pool.next_state hquery, hadded, h.made_eq, List.append_assoc]
  case each =>
    refine List.rel_append (h.each.imp fun i b hb => ⟨Pool.next_invariant (hP i) hb.1, hb.2⟩)
      (.cons ⟨?_, q, hD, hb⟩ .nil)
    exact Pool.next_invariant (hP k) hcondition

end Turn

/-- **One thing each.**  Let the queries keep the invariant and the conditions, and let a query add
at most one thing, and only if it makes something.  Then what a pool of guarded programs adds are
things of different programs, one each, whose conditions hold. -/
theorem run_makes (made : δ → List β) (pool : Pool ι δ R ε α)
    (hI : ∀ q s, I s → I (handle q s).2) (hP : ∀ i q s, P i s → P i (handle q s).2)
    (hquiet : ∀ q s, makes q = false → made (handle q s).2 = made s)
    (hmakes : ∀ q s, makes q = true → made (handle q s).2 = made s ∨
      ∃ b, made (handle q s).2 = made s ++ [b] ∧ Makes q b)
    (hstart : I pool.state)
    (hpool : ∀ i, Guarded handle I (P i) makes (D i) (pool.programs i)) (turns : List ι) :
    ∃ (makers : List ι) (new : List β), makers.Nodup ∧
      made (run (Pool.next handle) pool turns).state = made pool.state ++ new ∧
      List.Forall₂ (fun i b => P i (run (Pool.next handle) pool turns).state ∧
        ∃ q, D i q ∧ Makes q b) makers new := by
  have hinv : I (run (Pool.next handle) pool turns).state ∧
      (∀ i, (run (Pool.next handle) pool turns).Ready handle I P makes D i) ∧
      ∃ makers new, (run (Pool.next handle) pool turns).Made P makes D made Makes
        (made pool.state) makers new := by
    refine run_invariant (C := fun _ _ => True) (I := fun now : Pool ι δ R ε α =>
      I now.state ∧ (∀ i, now.Ready handle I P makes D i) ∧
        ∃ makers new, now.Made P makes D made Makes (made pool.state) makers new)
      ?_ ⟨hstart, fun i => Or.inl (hpool i), [], [],
        ⟨List.nodup_nil, nofun, (List.append_nil _).symm, .nil⟩⟩
      (always_of_forall_mem (fun _ _ _ => trivial) _)
    rintro now k ⟨hstate, hready, makers, new, hmade⟩ -
    rcases Pool.next_cases handle now k with ⟨q, next, hquery⟩ | hidle
    · refine ⟨Pool.next_invariant hI hstate, fun i => ?_, ?_⟩
      · by_cases hik : i = k
        · subst hik
          exact (hready i).turn (hP i) hstate hquery
        · exact (hready i).wait hik (hP i)
      · by_cases hq : makes q = true
        · rcases hmakes q now.state hq with hsame | ⟨b, hadded, hb⟩
          · exact ⟨makers, new, hmade.quiet hP hquery hsame⟩
          · exact ⟨_, _, hmade.add hP hquery hq (hready k) hadded hb⟩
        · exact ⟨makers, new, hmade.quiet hP hquery
            (hquiet q now.state ((Bool.not_eq_true _).mp hq))⟩
    · rw [hidle]
      exact ⟨hstate, hready, makers, new, hmade⟩
  obtain ⟨-, -, makers, new, hmade⟩ := hinv
  exact ⟨makers, new, hmade.nodup, hmade.made_eq, hmade.each⟩

end Makers

/-- What no program changes stays. -/
theorem run_keeps {V : Type} {v : δ → V} (pool : Pool ι δ R ε α)
    (h : ∀ i, Keeps handle v (pool.programs i)) (ts : List ι) :
    v (run (Pool.next handle) pool ts).state = v pool.state ∧
      ∀ i, Keeps handle v ((run (Pool.next handle) pool ts).programs i) := by
  refine run_invariant (C := fun _ _ => True) (I := fun now : Pool ι δ R ε α =>
    v now.state = v pool.state ∧ ∀ i, Keeps handle v (now.programs i))
    ?_ ⟨rfl, h⟩ (always_of_forall_mem (fun _ _ _ => trivial) _)
  rintro now k ⟨hv, hkeeps⟩ -
  obtain ⟨hturn, hrest⟩ := (hkeeps k).turn
  refine ⟨hturn.trans hv, fun i => ?_⟩
  by_cases hik : i = k
  · rw [hik]
    exact hrest
  · rw [Pool.next_programs_of_ne hik]
    exact hkeeps i

end Pools

end Program
