/-
# Fields joined with a separator

Texts joined with a separator that they may hold themselves.  The joined text determines the
parts between the separators (`splitOn_inj`), which are those of its fields in a row
(`splitOn_intercalate_eq_flatMap`), but not which of them belong to one field.

The layout here has a free field, a marked field, which is one part of a known form, and two free
fields.  They are determined if each of the last two is one part and no later part of the first
has the form of the mark (`layout_inj`), and in no other case (`exists_layout_eq`).
-/
import Mathlib.Data.List.Basic

namespace SeparatedFields

/-! ## The parts of a joined text -/

section Parts

variable {α : Type*} [DecidableEq α] {sep : α}

/-- Joining keeps the parts of the texts. -/
theorem splitOn_intercalate_eq_flatMap {fields : List (List α)} (hne : fields ≠ []) :
    ([sep].intercalate fields).splitOn sep = fields.flatMap fun field => field.splitOn sep := by
  induction fields with
  | nil => exact absurd rfl hne
  | cons field fields ih =>
      cases fields with
      | nil => simp
      | cons field' fields =>
          rw [List.intercalate_cons_cons, List.append_assoc, List.singleton_append,
            List.splitOn_append_cons_self, ih (List.cons_ne_nil _ _)]
          exact List.flatMap_cons.symm

theorem splitOn_inj {s t : List α} (h : s.splitOn sep = t.splitOn sep) : s = t := by
  have hjoin := congrArg (List.intercalate [sep]) h
  rwa [List.intercalate_splitOn, List.intercalate_splitOn] at hjoin

/-- The parts of a text hold no separator. -/
theorem notMem_of_mem_splitOn {s part : List α} (h : part ∈ s.splitOn sep) : sep ∉ part := by
  -- on the length of the text, cut at a separator
  induction hn : s.length using Nat.strongRecOn generalizing s with
  | _ n ih =>
      by_cases hmem : sep ∈ s
      · obtain ⟨before, after, rfl⟩ := List.append_of_mem hmem
        rw [List.length_append, List.length_cons] at hn
        rw [List.splitOn_append_cons_self, List.mem_append] at h
        rcases h with h | h
        · exact ih before.length (by omega) h rfl
        · exact ih after.length (by omega) h rfl
      · rw [List.splitOn_eq_singleton hmem, List.mem_singleton] at h
        rw [h]
        exact hmem

/-- A text of one part has no separator. -/
theorem length_splitOn_eq_one_iff {s : List α} : (s.splitOn sep).length = 1 ↔ sep ∉ s := by
  constructor
  · intro h hmem
    obtain ⟨before, after, rfl⟩ := List.append_of_mem hmem
    rw [List.splitOn_append_cons_self, List.length_append] at h
    have hbefore := List.length_pos_iff.mpr (List.splitOn_ne_nil sep before)
    have hafter := List.length_pos_iff.mpr (List.splitOn_ne_nil sep after)
    omega
  · intro h
    rw [List.splitOn_eq_singleton h]
    rfl

end Parts

/-! ## A mark between free fields -/

section Layout

variable {β : Type*} {Marked : β → Prop} {P B R : List β} {t : β}

/-- The parts of the four fields. -/
def layout (P : List β) (t : β) (B R : List β) : List β := P ++ t :: (B ++ R)

theorem layout_inj {P' B' R' : List β} {t' : β} (hB : B.length = 1) (hR : R.length = 1)
    (hP : ∀ p ∈ P.tail, ¬ Marked p) (hP' : P' ≠ []) (hB' : B' ≠ []) (hR' : R' ≠ [])
    (ht' : Marked t') (h : layout P t B R = layout P' t' B' R') :
    P = P' ∧ t = t' ∧ B = B' ∧ R = R' := by
  have hBpos := List.length_pos_iff.mpr hB'
  have hRpos := List.length_pos_iff.mpr hR'
  rcases List.append_eq_append_iff.mp h with ⟨as, hfirst, hrest⟩ | ⟨bs, hfirst, hrest⟩
  · cases as with
    | nil =>
        rw [List.append_nil] at hfirst
        obtain ⟨htag, hfree⟩ := List.cons.inj hrest
        have hlength := congrArg List.length hfree
        simp only [List.length_append] at hlength
        obtain ⟨hBeq, hReq⟩ := List.append_inj hfree (by omega)
        exact ⟨hfirst.symm, htag, hBeq, hReq⟩
    | cons a as =>
        -- too few parts are left for the mark and the two fields after it
        have hlength := congrArg List.length hrest
        simp only [List.length_append, List.length_cons] at hlength
        omega
  · cases bs with
    | nil =>
        rw [List.append_nil] at hfirst
        obtain ⟨htag, hfree⟩ := List.cons.inj hrest
        have hlength := congrArg List.length hfree
        simp only [List.length_append] at hlength
        obtain ⟨hBeq, hReq⟩ := List.append_inj hfree.symm (by omega)
        exact ⟨hfirst, htag.symm, hBeq, hReq⟩
    | cons b bs =>
        -- the mark is a later part of the first field
        obtain ⟨rfl, -⟩ := List.cons.inj hrest
        obtain ⟨p, ps, rfl⟩ := List.exists_cons_of_ne_nil hP'
        refine absurd ht' (hP t' ?_)
        rw [hfirst, List.cons_append, List.tail_cons]
        exact List.mem_append_right ps List.mem_cons_self

/-- A text of the layout that can be read in another way. -/
theorem exists_layout_eq (hB : B ≠ []) (hR : R ≠ []) (ht : Marked t)
    (h : ¬ (B.length = 1 ∧ R.length = 1 ∧ ∀ p ∈ P.tail, ¬ Marked p)) (hP : P ≠ []) :
    ∃ P' t' B' R', P' ≠ [] ∧ B' ≠ [] ∧ R' ≠ [] ∧ Marked t' ∧
      layout P t B R = layout P' t' B' R' ∧ ¬ (P = P' ∧ B = B') := by
  obtain ⟨p₀, ps, rfl⟩ := List.exists_cons_of_ne_nil hP
  obtain ⟨b, bs, rfl⟩ := List.exists_cons_of_ne_nil hB
  obtain ⟨r, rs, rfl⟩ := List.exists_cons_of_ne_nil hR
  by_cases hbs : bs = []
  · by_cases hrs : rs = []
    · -- a later part of the first field is read as the mark
      obtain ⟨p, hp, hmark⟩ : ∃ p ∈ ps, Marked p := by
        by_contra hnone
        push Not at hnone
        exact h ⟨by rw [hbs]; rfl, by rw [hrs]; rfl, hnone⟩
      obtain ⟨before, after, rfl⟩ := List.append_of_mem hp
      refine ⟨p₀ :: before, p, after ++ t :: b :: bs, r :: rs, List.cons_ne_nil _ _,
        by simp, List.cons_ne_nil _ _, hmark, ?_, ?_⟩
      · simp [layout]
      · rintro ⟨hPeq, -⟩
        simp at hPeq
    · -- the first part of the last field is read as part of the field before
      refine ⟨p₀ :: ps, t, b :: bs ++ [r], rs, hP, by simp, hrs, ht, ?_, ?_⟩
      · simp [layout]
      · rintro ⟨-, hBeq⟩
        simp at hBeq
  · -- all but the first part of the third field is read as part of the last
    refine ⟨p₀ :: ps, t, [b], bs ++ r :: rs, hP, List.cons_ne_nil _ _, by simp, ht, ?_, ?_⟩
    · simp [layout]
    · rintro ⟨-, hBeq⟩
      exact hbs (List.cons.inj hBeq).2

end Layout

end SeparatedFields
