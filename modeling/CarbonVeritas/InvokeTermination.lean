/-
# Termination of contract calls

The loop of `waitForReceipt` runs against the clock only.  Its timer leaves `pollMs` between two
requests, so an invocation makes at most 22 requests for its result and ends after finitely many
moves, whatever the server answers (`invoke_bounded`).
-/
import CarbonVeritas.SorobanRuns

namespace CarbonVeritas

open SequencedLedger Transition

namespace SorobanRun

open SorobanHost

variable {κ σ : Type} [DecidableEq κ] {host : SorobanHost σ} {options : κ → SorobanInvokeOptions}
  {s : SorobanRun κ σ}

/-! ## Ranks -/

/-- How often an invocation whose loop started at a time may still wait at the time `now`. -/
def waitsLeft (started now : ℕ) : ℕ := (timeoutMs + pollMs + started - now) / pollMs

/-- A bound on the requests of the loop that are still to come. -/
def requestsLeft (clock : ℕ) : Invocation → ℕ
  | .poll _ _ started => waitsLeft started clock + 1
  | .pollAnswered _ _ started _ => waitsLeft started clock
  | .wait _ _ started due => waitsLeft started due + 1
  | .ended _ _ => 0
  | _ => 22

/-- A bound on the moves of the invocation that are still to come. -/
def movesLeft (clock : ℕ) : Invocation → ℕ
  | .ready => 70
  | .account _ => 69
  | .accountAnswered _ _ => 68
  | .send _ => 67
  | .sendAnswered _ _ => 66
  | .poll _ _ started => 3 * waitsLeft started clock + 2
  | .pollAnswered _ _ started _ => 3 * waitsLeft started clock + 1
  | .wait _ _ started due => 3 * waitsLeft started due + 3
  | .ended _ _ => 0

theorem waitsLeft_anti (started : ℕ) {now later : ℕ} (h : now ≤ later) :
    waitsLeft started later ≤ waitsLeft started now :=
  Nat.div_le_div_right (Nat.sub_le_sub_left h _)

theorem waitsLeft_start (now : ℕ) : waitsLeft now now = 21 := by
  simp [waitsLeft, timeoutMs, pollMs]

/-- Each wait uses one up. -/
theorem waitsLeft_again {started now : ℕ} (h : now - started ≤ timeoutMs) :
    waitsLeft started (now + pollMs) + 1 = waitsLeft started now := by
  simp only [waitsLeft, timeoutMs, pollMs] at h ⊢
  omega

section Ranks

variable {o : SorobanInvokeOptions} {clock clock' : ℕ} {l l' : Network σ} {i i' : Invocation}

omit [DecidableEq κ]

theorem requestsLeft_anti (h : clock ≤ clock') (i : Invocation) :
    requestsLeft clock' i ≤ requestsLeft clock i := by
  cases i with
  | poll tx hash started => exact Nat.succ_le_succ (waitsLeft_anti started h)
  | pollAnswered tx hash started response => exact waitsLeft_anti started h
  | _ => exact le_rfl

theorem movesLeft_anti (h : clock ≤ clock') (i : Invocation) :
    movesLeft clock' i ≤ movesLeft clock i := by
  cases i with
  | poll tx hash started =>
      have hle := waitsLeft_anti started h
      show 3 * _ + 2 ≤ 3 * _ + 2
      omega
  | pollAnswered tx hash started response =>
      have hle := waitsLeft_anti started h
      show 3 * _ + 1 ≤ 3 * _ + 1
      omega
  | _ => exact le_rfl

/-- The code uses up a move, or stays where it is. -/
theorem resumes_rank (h : host.Resumes o clock i i') :
    requestsLeft clock i' ≤ requestsLeft clock i ∧
      (i' = i ∨ movesLeft clock i' < movesLeft clock i) := by
  cases h with
  | sent tx _ =>
      simp only [requestsLeft, movesLeft, waitsLeft_start]
      exact ⟨le_rfl, Or.inr (by decide)⟩
  | again tx hash hle =>
      rename_i started
      have hagain := waitsLeft_again hle
      simp only [requestsLeft, movesLeft]
      omega
  | fire tx hash started hdue =>
      have hanti := waitsLeft_anti started hdue
      simp only [requestsLeft, movesLeft]
      omega
  | stay => exact ⟨le_rfl, Or.inl rfl⟩
  | _ => simp [requestsLeft, movesLeft]

theorem Moves.rank (h : Moves host o clock l i l' i') :
    requestsLeft clock i' ≤ requestsLeft clock i ∧
      (i' = i ∨ movesLeft clock i' < movesLeft clock i) := by
  cases h with
  | resume hcode => exact resumes_rank hcode
  | _ => simp [requestsLeft, movesLeft]

/-- A request that is served or fails is used up. -/
theorem Moves.request {tx : Transaction} {hash : String} {started : ℕ}
    (h : Moves host o clock l (.poll tx hash started) l' i') (hne : i' ≠ .poll tx hash started) :
    requestsLeft clock i' < requestsLeft clock (.poll tx hash started) := by
  cases h with
  | serveTransaction => exact Nat.lt_succ_self _
  | failPoll => exact Nat.succ_pos _
  | resume hcode =>
      cases hcode with
      | stay => exact absurd rfl hne

end Ranks

/-- A turn leaves the invocation, or is one of its moves. -/
theorem next_rank (host : SorobanHost σ) (options : κ → SorobanInvokeOptions)
    (s : SorobanRun κ σ) (t : SorobanTurn κ) (k : κ) :
    s.clock ≤ (next host options s t).clock ∧
      ((next host options s t).calls k = s.calls k ∨
        (next host options s t).clock = s.clock ∧
          ∃ network, Moves host (options k) s.clock s.network (s.calls k) network
            ((next host options s t).calls k)) := by
  rcases next_cases host options s t with
    ⟨clock, network, hpass, hnext⟩ | ⟨j, network, i, hmove, hnext⟩
  · rw [hnext]
    exact ⟨hpass.clock_le, Or.inl rfl⟩
  · rw [hnext]
    refine ⟨le_rfl, ?_⟩
    by_cases hjk : k = j
    · subst hjk
      rw [setCall_calls]
      exact Or.inr ⟨rfl, network, hmove⟩
    · rw [setCall_calls_of_ne hjk]
      exact Or.inl rfl

/-- The turn moves the invocation `k`. -/
def MovesCall (host : SorobanHost σ) (options : κ → SorobanInvokeOptions) (k : κ)
    (s : SorobanRun κ σ) (t : SorobanTurn κ) : Prop :=
  (next host options s t).calls k ≠ s.calls k

/-- A request for the result of the invocation `k` is served, or fails. -/
def Requests (host : SorobanHost σ) (options : κ → SorobanInvokeOptions) (k : κ)
    (s : SorobanRun κ σ) (t : SorobanTurn κ) : Prop :=
  MovesCall host options k s t ∧ ∃ tx hash started, s.calls k = .poll tx hash started

theorem requestsLeft_next (s : SorobanRun κ σ) (t : SorobanTurn κ) (k : κ) :
    requestsLeft (next host options s t).clock ((next host options s t).calls k) ≤
      requestsLeft s.clock (s.calls k) := by
  obtain ⟨hclock, hsame | ⟨hclock', network, hmove⟩⟩ :=
    next_rank host options s t k
  · rw [hsame]
    exact requestsLeft_anti hclock _
  · rw [hclock']
    exact hmove.rank.1

theorem requestsLeft_lt {k : κ} {t : SorobanTurn κ} (h : Requests host options k s t) :
    requestsLeft (next host options s t).clock ((next host options s t).calls k) <
      requestsLeft s.clock (s.calls k) := by
  obtain ⟨hmoves, tx, hash, started, hcall⟩ := h
  obtain ⟨-, hsame | ⟨hclock, network, hmove⟩⟩ :=
    next_rank host options s t k
  · exact absurd hsame hmoves
  · unfold MovesCall at hmoves
    rw [hcall] at hmove hmoves ⊢
    rw [hclock]
    exact hmove.request hmoves

theorem movesLeft_lt {k : κ} {t : SorobanTurn κ} (h : MovesCall host options k s t) :
    movesLeft (next host options s t).clock ((next host options s t).calls k) <
      movesLeft s.clock (s.calls k) := by
  obtain ⟨-, hsame | ⟨hclock, network, hmove⟩⟩ :=
    next_rank host options s t k
  · exact absurd hsame h
  · rw [hclock]
    exact hmove.rank.2.resolve_left h

theorem movesLeft_next (s : SorobanRun κ σ) (t : SorobanTurn κ) (k : κ) :
    movesLeft (next host options s t).clock ((next host options s t).calls k) ≤
      movesLeft s.clock (s.calls k) := by
  by_cases h : (next host options s t).calls k = s.calls k
  · rw [h]
    exact movesLeft_anti (next_rank host options s t k).1 _
  · exact (movesLeft_lt h).le

/-- **Progress.**  An invocation that has not ended can be moved, some time later. -/
theorem exists_movesCall {k : κ} (h : ∀ tx result, s.calls k ≠ .ended tx result) :
    ∃ ms t, MovesCall host options k (next host options s (.tick ms)) t := by
  cases hcall : s.calls k with
  | ready =>
      refine ⟨0, .resume k, ?_⟩
      simp only [MovesCall, next, setCall_calls, hcall, resume]
      cases host.fromSecret (options k).signerSecret with
      | none => simp
      | some publicKey => cases host.isContractId (options k).contractId <;> simp
  | account publicKey =>
      refine ⟨0, .serveAccount k, ?_⟩
      simp [MovesCall, next, hcall]
  | accountAnswered publicKey sequence =>
      refine ⟨0, .resume k, ?_⟩
      simp [MovesCall, next, hcall, resume]
  | send tx =>
      refine ⟨0, .serveSend k .ERROR none, ?_⟩
      simp [MovesCall, next, hcall, serveSend]
  | sendAnswered tx response =>
      refine ⟨0, .resume k, ?_⟩
      simp only [MovesCall, next, setCall_calls, hcall, resume]
      by_cases herror : response.status = .ERROR <;> simp [herror]
  | poll tx hash started =>
      refine ⟨0, .serveTransaction k false none, ?_⟩
      simp [MovesCall, next, hcall]
  | pollAnswered tx hash started response =>
      refine ⟨0, .resume k, ?_⟩
      simp only [MovesCall, next, setCall_calls, hcall, resume]
      cases response with
      | success rv => simp
      | failed x => simp
      | notFound => by_cases htime : timeoutMs < s.clock - started <;> simp [htime]
  | wait tx hash started due =>
      -- the timer fires when it is due
      refine ⟨due, .resume k, ?_⟩
      simp [MovesCall, next, hcall, resume]
  | ended tx result => exact absurd hcall (h tx result)

/-- **Termination.**  In every run an invocation makes at most 22 requests for its result and at
most 70 moves, and until it has ended there is a next one. -/
theorem invoke_bounded (host : SorobanHost σ) (options : κ → SorobanInvokeOptions) (g : Origin σ)
    (ts : List (SorobanTurn κ)) (k : κ) :
    (∀ l : List (SorobanRun κ σ × SorobanTurn κ),
      l.Sublist (steps (next host options) (start g) ts) →
        (∀ p ∈ l, Requests host options k p.1 p.2) → l.length ≤ 22) ∧
    (∀ l : List (SorobanRun κ σ × SorobanTurn κ),
      l.Sublist (steps (next host options) (start g) ts) →
        (∀ p ∈ l, MovesCall host options k p.1 p.2) → l.length ≤ 70) ∧
    ((∀ tx result, (reached host options g ts).calls k ≠ .ended tx result) →
      ∃ ms t, MovesCall host options k
        (next host options (reached host options g ts) (.tick ms)) t) := by
  refine ⟨fun l hsub hD => ?_, fun l hsub hD => ?_, exists_movesCall⟩
  · have hrank := length_add_rank_le
      (fun s : SorobanRun κ σ => requestsLeft s.clock (s.calls k))
      (fun s t => requestsLeft_next s t k) (fun s t ht => requestsLeft_lt ht) hsub hD
    exact le_trans (Nat.le_add_right _ _) hrank
  · have hrank := length_add_rank_le
      (fun s : SorobanRun κ σ => movesLeft s.clock (s.calls k))
      (fun s t => movesLeft_next s t k) (fun s t ht => movesLeft_lt ht) hsub hD
    exact le_trans (Nat.le_add_right _ _) hrank

end SorobanRun

end CarbonVeritas
