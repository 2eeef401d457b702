/-
# Concurrent logins with one challenge

Every call is a program, and the programs take turns in any order, one query a turn.
`exchangeToken` reads the row of its challenge, checks that it is unused, verifies the signature,
and marks the row as used by an update that does not look at the mark again.  Two calls that have
both read the row can therefore both go on (`not_consumedOnce`).

At most one of the calls that name a challenge returns if every update finds its row unmarked
(`consumedOnce`), which is what an update conditional on `usedAt: null` would ensure.
-/
import CarbonVeritas.Challenges

namespace CarbonVeritas

open Transition AuthService
open Program

namespace AuthHost

variable (host : AuthHost)

/-! ## The ids of the rows -/

/-- Every row has the id of an earlier query. -/
def Known (s : AuthState) : Prop :=
  ∀ row ∈ s.challenges, ∃ n < s.served, row.id = host.cuid n

/-- The challenge was issued, and no row of it is left unused. -/
def Consumed (id : String) (s : AuthState) : Prop :=
  (∃ n < s.served, id = host.cuid n) ∧ ∀ row ∈ s.challenges, row.id = id → row.usedAt.isSome

/-- The query marks the row of the challenge. -/
def MarksRow (id : String) (q : AuthQuery) (s : AuthState) : Prop :=
  (∃ usedAt, q = .markUsed id usedAt) ∧ ∃ r, (host.handle q s).1 = .ok r

section Ids

variable {host} {s : AuthState} {id : String}

/-- A query that creates a challenge adds a row with the id of the query, or nothing. -/
theorem handle_createChallenge (wallet : String) (tx : ChallengeTx) (expiresAt : ℕ) :
    ∀ row' ∈ (host.handle (.createChallenge wallet tx expiresAt) s).2.challenges,
      row' ∈ s.challenges ∨ row'.id = host.cuid s.served := by
  intro row' hrow'
  unfold handle at hrow'
  split_ifs at hrow' with houtage
  · exact Or.inl hrow'
  · simp only [answer] at hrow'
    split_ifs at hrow' with hrefused
    · exact Or.inl hrow'
    · rcases List.mem_append.mp hrow' with hrow' | hrow'
      · exact Or.inl hrow'
      · rw [List.mem_singleton.mp hrow']
        exact Or.inr rfl

theorem handle_known (q : AuthQuery) (h : host.Known s) : host.Known (host.handle q s).2 := by
  intro row' hrow'
  rw [handle_served]
  by_cases hq : q.Creates
  · cases q with
    | createChallenge wallet tx expiresAt =>
        rcases handle_createChallenge wallet tx expiresAt row' hrow' with hrow | hid
        · obtain ⟨n, hn, hid⟩ := h row' hrow
          exact ⟨n, Nat.lt_succ_of_lt hn, hid⟩
        · exact ⟨s.served, Nat.lt_succ_self _, hid⟩
    | _ => exact hq.elim
  · obtain ⟨row, hrow, hid, -⟩ := (handle_oldRows q hq s).row row' hrow'
    obtain ⟨n, hn, hrid⟩ := h row hrow
    exact ⟨n, Nat.lt_succ_of_lt hn, hid.trans hrid⟩

/-- A consumed challenge stays consumed: no row gets its id again. -/
theorem handle_consumed (q : AuthQuery) (h : host.Consumed id s) :
    host.Consumed id (host.handle q s).2 := by
  obtain ⟨⟨n, hn, hid⟩, hused⟩ := h
  refine ⟨⟨n, ?_, hid⟩, fun row' hrow' hrid => ?_⟩
  · rw [handle_served]
    exact Nat.lt_succ_of_lt hn
  by_cases hq : q.Creates
  · cases q with
    | createChallenge wallet tx expiresAt =>
        rcases handle_createChallenge wallet tx expiresAt row' hrow' with hrow | hfresh
        · exact hused row' hrow hrid
        · have hsame : n = s.served := host.cuid_injective (hid.symm.trans (hrid.symm.trans hfresh))
          omega
    | _ => exact hq.elim
  · obtain ⟨row, hrow, hrow_id, -, hmono⟩ := (handle_oldRows q hq s).row row' hrow'
    exact hmono (hused row hrow (hrow_id.symm.trans hrid))

/-- An update that does not fail finds a row. -/
theorem handle_markUsed {usedAt : ℕ} {r : Unit}
    (h : (host.handle (.markUsed id usedAt) s).1 = .ok r) :
    (∃ row, s.findChallenge id = some row) ∧
      (host.handle (.markUsed id usedAt) s).2 = (s.mark id usedAt).tick 1 := by
  unfold handle at h ⊢
  split_ifs at h ⊢ with houtage
  · simp only [answer] at h ⊢
    split_ifs at h ⊢ with hrow
    · exact ⟨Option.isSome_iff_exists.mp hrow, rfl⟩

/-- A mark that is set consumes the challenge. -/
theorem consumed_of_marksRow {q : AuthQuery} (hknown : host.Known s) (h : host.MarksRow id q s) :
    host.Consumed id (host.handle q s).2 := by
  obtain ⟨⟨usedAt, rfl⟩, r, hr⟩ := h
  obtain ⟨⟨row, hrow⟩, heq⟩ := handle_markUsed hr
  obtain ⟨hmem, hid⟩ := mem_of_findChallenge hrow
  obtain ⟨n, hn, hrid⟩ := hknown row hmem
  rw [heq]
  refine ⟨⟨n, Nat.lt_succ_of_lt hn, hid.symm.trans hrid⟩, fun row' hrow' hid' => ?_⟩
  obtain ⟨old, -, rfl⟩ := List.mem_map.mp hrow'
  have hold : old.id = id := by
    rw [← hid', AuthState.markRow]
    split_ifs <;> rfl
  rw [AuthState.markRow, if_pos hold]
  rfl

end Ids

/-! ## What an exchange has to pass -/

section Passing

variable {host} {id : String}

/-- An exchange returns only after it has marked the row of its challenge. -/
theorem passes_exchangeToken (wallet : String) (signed : Option Envelope) (id : String) :
    Passes host.handle host.Known (host.MarksRow id) (exchangeToken host wallet signed id) := by
  refine .bind_right _ fun _ => .bind_right _ fun _ => .bind_right _ fun _ => .bind_right _ fun _ =>
    .bind_right _ fun _ => .bind_right _ fun now => .bind_right _ fun _ => .bind_right _ fun _ =>
    .bind_right _ fun usedAt => .bind_left ?_ _
  intro s r _ hr
  exact Or.inl ⟨⟨usedAt, rfl⟩, r, hr⟩

theorem passes_program {call : AuthCall}
    (h : ∃ wallet signed, call = .exchangeToken wallet signed id) :
    Passes host.handle host.Known (host.MarksRow id) (call.program host) := by
  obtain ⟨wallet, signed, rfl⟩ := h
  exact (passes_exchangeToken wallet signed id).bind_left _

end Passing

/-! ## Taking turns -/

section Race

variable {ι : Type} [DecidableEq ι]

abbrev AuthPool (ι : Type) := Pool ι AuthState AuthQuery.Reply AuthError AuthReply

/-- The calls before the first turn. -/
def begin (calls : ι → AuthCall) : AuthPool ι where
  state := AuthState.initial
  programs i := (calls i).program host

/-- Of the calls that name a challenge, at most one has returned. -/
def ConsumedOnce (calls : ι → AuthCall) (pool : AuthPool ι) : Prop :=
  ∀ id i j, (∃ wallet signed, calls i = .exchangeToken wallet signed id) →
    (∃ wallet signed, calls j = .exchangeToken wallet signed id) →
      (pool.programs i).result.isSome → (pool.programs j).result.isSome → i = j

/-- The id of the row that the next query of the program marks. -/
def nextMark : AuthProgram AuthReply → Option String
  | .query (.markUsed id _) _ => some id
  | _ => none

/-- If the turn marks a row, the row is unused. -/
def FindsUnused (pool : AuthPool ι) (i : ι) : Prop :=
  ∀ id ∈ nextMark (pool.programs i), ∀ row ∈ pool.state.challenges, row.id = id → row.usedAt = none

instance (pool : AuthPool ι) (i : ι) : Decidable (FindsUnused pool i) :=
  inferInstanceAs (Decidable (∀ id ∈ nextMark (pool.programs i), _))

/-- **One login a row.**  In every run of calls that take turns, if every update of a row finds
it unused, at most one of the calls that name a challenge returns. -/
theorem consumedOnce (host : AuthHost) (calls : ι → AuthCall) (turns : List ι)
    (h : Always (Pool.next host.handle) FindsUnused (host.begin calls) turns) :
    ConsumedOnce calls (run (Pool.next host.handle) (host.begin calls) turns) := by
  intro id i j hi hj hreti hretj
  obtain ⟨a, ha⟩ := Option.isSome_iff_exists.mp hreti
  obtain ⟨b, hb⟩ := Option.isSome_iff_exists.mp hretj
  refine run_unique (I := host.Known) (K := host.MarksRow id)
    (fun q s => handle_known q) (fun q s _ => handle_consumed q)
    (fun q s => consumed_of_marksRow) ?_ (fun k hk => passes_program hk) ?_ hi hj
    (result_eq_some.mp ha) (result_eq_some.mp hb)
  · intro row hrow
    cases hrow
  · refine h.mono fun pool k hfinds _ q next hquery hmarks hconsumed => ?_
    obtain ⟨⟨usedAt, rfl⟩, r, hr⟩ := hmarks
    obtain ⟨⟨row, hrow⟩, -⟩ := handle_markUsed hr
    obtain ⟨hmem, hid⟩ := mem_of_findChallenge hrow
    have hused := hconsumed.2 row hmem hid
    rw [hfinds id (by rw [hquery]; rfl) row hmem hid] at hused
    exact absurd hused (by simp)

end Race

/-! ## A race -/

/-- One challenge, and two exchanges of its signed copy. -/
def raceCalls : Fin 3 → AuthCall
  | 0 => .generateChallenge sampleWallet
  | _ => .exchangeToken sampleWallet (some signedSample) (sample.cuid 5)

/-- Both exchanges check the row before either of them marks it. -/
def raceTurns : List (Fin 3) :=
  List.replicate 6 0 ++ List.replicate 6 1 ++ List.replicate 6 2 ++ List.replicate 5 1 ++
    List.replicate 4 2

theorem race_returns : ∀ i : Fin 3,
    ((run (Pool.next sample.handle) (sample.begin raceCalls)
      raceTurns).programs i).result.isSome := by
  decide +kernel

theorem not_consumedOnce : ¬ ∀ (host : AuthHost) (calls : Fin 3 → AuthCall) (turns : List (Fin 3)),
    ConsumedOnce calls (run (Pool.next host.handle) (host.begin calls) turns) := by
  intro h
  have hsame : (1 : Fin 3) = 2 := h sample raceCalls raceTurns (sample.cuid 5) 1 2
    ⟨sampleWallet, some signedSample, rfl⟩ ⟨sampleWallet, some signedSample, rfl⟩
    (race_returns 1) (race_returns 2)
  exact absurd hsame (by decide)

/-- The second exchange waits for the first. -/
def queueTurns : List (Fin 3) :=
  List.replicate 6 0 ++ List.replicate 11 1 ++ List.replicate 11 2

theorem consumedOnce_queue :
    ConsumedOnce raceCalls (run (Pool.next sample.handle) (sample.begin raceCalls) queueTurns) := by
  refine consumedOnce sample raceCalls queueTurns ?_
  show ∀ p ∈ steps (Pool.next sample.handle) (sample.begin raceCalls) queueTurns,
    FindsUnused p.1 p.2
  decide +kernel

end AuthHost

end CarbonVeritas
