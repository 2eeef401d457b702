/-
# Pages of a list

A reader that cannot be handed a whole list asks for it page by page.  `page l offset limit`
is what one request is meant to see; the requests at `0, n, 2n, ...` see the whole list, each
entry once and in order (`flatten_pages_of_le`, `flatten_reads`).

An implementation computes the end of a page in a type of bounded width, where a sum that is
too large saturates.  As long as the list itself fits in the type this makes no difference
(`drop_take_eq_page`).
-/
import Mathlib.Data.List.Basic
import Mathlib.Tactic.Common

namespace Pages

variable {α β : Type*}

/-- At most `limit` entries of the list, from the index `offset` on. -/
def page (l : List α) (offset limit : ℕ) : List α := (l.drop offset).take limit

theorem page_of_length_le {l : List α} {offset : ℕ} (h : l.length ≤ offset) (limit : ℕ) :
    page l offset limit = [] := by
  unfold page
  rw [List.drop_eq_nil_of_le h, List.take_nil]

theorem length_page_le (l : List α) (offset limit : ℕ) : (page l offset limit).length ≤ limit := by
  unfold page
  exact List.length_take_le _ _

theorem mem_of_mem_page {l : List α} {offset limit : ℕ} {a : α} (h : a ∈ page l offset limit) :
    a ∈ l :=
  List.mem_of_mem_drop (List.mem_of_mem_take h)

theorem page_map (f : α → β) (l : List α) (offset limit : ℕ) :
    page (l.map f) offset limit = (page l offset limit).map f := by
  unfold page
  rw [← List.map_drop, ← List.map_take]

/-! ## Computing the end of a page -/

/-- The entries from `offset` to `stop`, for an end that is `offset + limit` or past the list. -/
theorem drop_take_eq_page {l : List α} {offset limit stop : ℕ}
    (hstop : min stop l.length = min (offset + limit) l.length) :
    (l.take stop).drop offset = page l offset limit := by
  have htake : l.take stop = l.take (offset + limit) := by
    rw [List.take_eq_take_iff]
    exact hstop
  unfold page
  rw [htake, List.drop_take, Nat.add_sub_cancel_left]

/-- A sum that saturates at `bound` is past every list that fits in the type. -/
theorem drop_take_saturating {l : List α} {bound : ℕ} (hfits : l.length ≤ bound)
    (offset limit : ℕ) :
    (l.take (min (min (offset + limit) bound) l.length)).drop offset = page l offset limit := by
  apply drop_take_eq_page
  omega

/-- An end that is too early leaves entries of the page out, and never adds one. -/
theorem drop_take_prefix_page (l : List α) {offset limit stop : ℕ} (hstop : stop ≤ offset + limit) :
    (l.take stop).drop offset <+: page l offset limit := by
  unfold page
  rw [List.drop_take]
  exact List.take_prefix_take_left (by omega)

/-! ## All pages -/

/-- The first `k` pages show the first `k * n` entries. -/
theorem flatten_pages_eq_take (l : List α) (n k : ℕ) :
    ((List.range k).map fun i => page l (i * n) n).flatten = l.take (k * n) := by
  induction k with
  | zero => rw [Nat.zero_mul, List.take_zero]; rfl
  | succ k ih =>
      rw [List.range_succ, List.map_append, List.flatten_append, ih, List.map_singleton,
        List.flatten_singleton, Nat.succ_mul, List.take_add]
      rfl

/-- **All pages.**  As many pages as it takes, one after the other, are the list. -/
theorem flatten_pages_of_le {l : List α} {n k : ℕ} (h : l.length ≤ k * n) :
    ((List.range k).map fun i => page l (i * n) n).flatten = l := by
  rw [flatten_pages_eq_take, List.take_of_length_le h]

/-- A reader whose requests return pages of a list reads the whole list. -/
theorem flatten_reads {read : ℕ → ℕ → List α} {l : List α}
    (hread : ∀ offset limit, read offset limit = page l offset limit) {n k : ℕ}
    (h : l.length ≤ k * n) : ((List.range k).map fun i => read (i * n) n).flatten = l := by
  have hpages : (fun i => read (i * n) n) = fun i => page l (i * n) n := by
    funext i
    exact hread (i * n) n
  rw [hpages, flatten_pages_of_le h]

/-- The pages at the multiples of `n` up to the length of the list are enough. -/
theorem length_le_pages (l : List α) {n : ℕ} (hn : 0 < n) :
    l.length ≤ (l.length / n + 1) * n := by
  have hlt := Nat.lt_mul_div_succ l.length hn
  rw [Nat.mul_comm n] at hlt
  exact Nat.le_of_lt hlt

/-- The same for pages that look up the entries, and leave some of them out. -/
theorem flatten_filterMap_pages (f : α → Option β) {l : List α} {n k : ℕ}
    (h : l.length ≤ k * n) :
    ((List.range k).map fun i => (page l (i * n) n).filterMap f).flatten = l.filterMap f := by
  conv_rhs => rw [← flatten_pages_of_le h]
  rw [List.filterMap_flatten, List.map_map]
  rfl

end Pages
