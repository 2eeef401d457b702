/-
# Runs over a table of independent entries

A table is a function from keys to entries, and a label reads and writes the entry of its own
key only.  What a run does to one entry then depends on the labels of that key alone
(`run_entry`), and so does the entry that each of these labels finds (`steps_entry`).  A fair
schedule has any number of labels of each of finitely many keys
(`exists_forall_length_labelsOf`).
-/
import CarbonVeritas.TransitionRun
import Mathlib.Logic.Function.Basic

namespace Transition

variable {κ β τ : Type*} [DecidableEq κ] (key : τ → κ) (serve : β → τ → β)

/-- The table after a label. -/
def tableNext (table : κ → β) (t : τ) : κ → β :=
  Function.update table (key t) (serve (table (key t)) t)

/-- The labels of one key. -/
def labelsOf (k : κ) (ts : List τ) : List τ := ts.filter fun t => key t = k

variable {key} {serve}

theorem labelsOf_cons_same {k : κ} {t : τ} (hk : key t = k) (ts : List τ) :
    labelsOf key k (t :: ts) = t :: labelsOf key k ts :=
  List.filter_cons_of_pos (decide_eq_true hk)

theorem labelsOf_cons_other {k : κ} {t : τ} (hk : key t ≠ k) (ts : List τ) :
    labelsOf key k (t :: ts) = labelsOf key k ts :=
  List.filter_cons_of_neg (by rw [decide_eq_true_eq]; exact hk)

theorem tableNext_same {k : κ} {t : τ} (hk : key t = k) (table : κ → β) :
    tableNext key serve table t k = serve (table k) t := by
  rw [← hk]
  exact Function.update_self _ _ _

theorem tableNext_other {k : κ} {t : τ} (hk : key t ≠ k) (table : κ → β) :
    tableNext key serve table t k = table k :=
  Function.update_of_ne (Ne.symm hk) _ _

theorem mem_labelsOf_iff {k : κ} {t : τ} {ts : List τ} :
    t ∈ labelsOf key k ts ↔ t ∈ ts ∧ key t = k := by
  unfold labelsOf
  rw [List.mem_filter, decide_eq_true_eq]

theorem labelsOf_eq_nil_iff {k : κ} {ts : List τ} :
    labelsOf key k ts = [] ↔ ∀ t ∈ ts, key t ≠ k := by
  unfold labelsOf
  simp [List.filter_eq_nil_iff]

/-- The labels, key by key: every label has one key. -/
theorem perm_flatMap_labelsOf {ks : List κ} (hks : ks.Nodup) {ts : List τ}
    (hall : ∀ t ∈ ts, key t ∈ ks) : (ks.flatMap fun k => labelsOf key k ts).Perm ts := by
  induction ks generalizing ts with
  | nil =>
      cases ts with
      | nil => exact .nil
      | cons t ts => exact absurd (hall t List.mem_cons_self) List.not_mem_nil
  | cons k ks ih =>
      obtain ⟨hk, hks⟩ := List.nodup_cons.mp hks
      -- the labels of the other keys are those of the labels with another key
      have hothers : ks.flatMap (fun k' => labelsOf key k' ts) =
          ks.flatMap fun k' => labelsOf key k' (ts.filter fun t => !decide (key t = k)) := by
        refine congrArg List.flatten (List.map_congr_left fun k' hk' => ?_)
        unfold labelsOf
        rw [List.filter_filter]
        refine List.filter_congr fun t _ => ?_
        by_cases ht : key t = k'
        · have hne : key t ≠ k := fun he => hk (he ▸ ht ▸ hk')
          simp [ht, ht ▸ hne]
        · simp [ht]
      have hrest : ∀ t ∈ ts.filter fun t => !decide (key t = k), key t ∈ ks := by
        intro t ht
        obtain ⟨hmem, hne⟩ := List.mem_filter.mp ht
        exact (List.mem_cons.mp (hall t hmem)).resolve_left (by simpa using hne)
      rw [List.flatMap_cons, hothers]
      exact ((ih hks hrest).append_left _).trans
        (List.filter_append_perm (fun t => decide (key t = k)) ts)

/-- More of a schedule has more labels of a key. -/
theorem length_labelsOf_mono (k : κ) (schedule : ℕ → τ) {m n : ℕ} (h : m ≤ n) :
    (labelsOf key k ((List.range m).map schedule)).length ≤
      (labelsOf key k ((List.range n).map schedule)).length :=
  (((List.range_sublist.mpr h).map schedule).filter _).length_le

/-- A schedule that comes to a key again and again has any number of labels of it. -/
theorem exists_length_labelsOf {schedule : ℕ → τ} {k : κ}
    (hfair : ∀ n, ∃ m, n ≤ m ∧ key (schedule m) = k) (c : ℕ) :
    ∃ n, c ≤ (labelsOf key k ((List.range n).map schedule)).length := by
  induction c with
  | zero => exact ⟨0, Nat.zero_le _⟩
  | succ c ih =>
      obtain ⟨n, hn⟩ := ih
      obtain ⟨m, hnm, hm⟩ := hfair n
      refine ⟨m + 1, ?_⟩
      have hmono : (labelsOf key k ((List.range n).map schedule)).length ≤
          (labelsOf key k ((List.range m).map schedule)).length :=
        length_labelsOf_mono k schedule hnm
      have hlast : labelsOf key k ((List.range (m + 1)).map schedule) =
          labelsOf key k ((List.range m).map schedule) ++ [schedule m] := by
        unfold labelsOf
        rw [List.range_succ, List.map_append, List.filter_append]
        simp [hm]
      rw [hlast, List.length_append]
      simp only [List.length_singleton]
      omega

/-- **Fairness.**  From some step on, all of the keys have had so many labels. -/
theorem exists_forall_length_labelsOf {schedule : ℕ → τ} (ks : List κ)
    (hfair : ∀ k ∈ ks, ∀ n, ∃ m, n ≤ m ∧ key (schedule m) = k) (c : ℕ) :
    ∃ n, ∀ m, n ≤ m → ∀ k ∈ ks,
      c ≤ (labelsOf key k ((List.range m).map schedule)).length := by
  induction ks with
  | nil => exact ⟨0, fun m _ k hk => absurd hk List.not_mem_nil⟩
  | cons k ks ih =>
      obtain ⟨n, hn⟩ := exists_length_labelsOf (hfair k List.mem_cons_self) c
      obtain ⟨n', hn'⟩ := ih fun k' hk' => hfair k' (List.mem_cons_of_mem k hk')
      refine ⟨max n n', fun m hm k' hk' => ?_⟩
      rcases List.mem_cons.mp hk' with rfl | hk'
      · exact hn.trans (length_labelsOf_mono k' schedule ((le_max_left n n').trans hm))
      · exact hn' m ((le_max_right n n').trans hm) k' hk'

/-- The steps of a run take its labels. -/
theorem steps_map_snd {σ : Type*} (next : σ → τ → σ) (s : σ) (ts : List τ) :
    (steps next s ts).map Prod.snd = ts := by
  induction ts generalizing s with
  | nil => rfl
  | cons t ts ih => rw [steps_cons, List.map_cons, ih]

variable (key) (serve)

/-- An entry at the end of a run. -/
theorem run_entry (k : κ) (table : κ → β) (ts : List τ) :
    run (tableNext key serve) table ts k = run serve (table k) (labelsOf key k ts) := by
  induction ts generalizing table with
  | nil => rfl
  | cons t ts ih =>
      rw [run_cons, ih]
      by_cases hk : key t = k
      · rw [tableNext_same hk, labelsOf_cons_same hk, run_cons]
      · rw [tableNext_other hk, labelsOf_cons_other hk]

/-- **Independence.**  The entries that the labels of a key find in a run. -/
theorem steps_entry (k : κ) (table : κ → β) (ts : List τ) :
    ((steps (tableNext key serve) table ts).filter fun p => key p.2 = k).map
        (fun p => (p.1 k, p.2)) =
      steps serve (table k) (labelsOf key k ts) := by
  induction ts generalizing table with
  | nil => rfl
  | cons t ts ih =>
      rw [steps_cons, List.filter_cons]
      by_cases hk : key t = k
      · rw [if_pos (decide_eq_true hk), List.map_cons, ih, tableNext_same hk,
          labelsOf_cons_same hk, steps_cons]
      · rw [if_neg (by rw [decide_eq_true_eq]; exact hk), ih, tableNext_other hk,
          labelsOf_cons_other hk]

end Transition
