import Mathlib.Algebra.BigOperators.Group.Finset.Basic
import Mathlib.Algebra.Order.Group.Multiset
import Mathlib.Tactic.Abel

/-!
# What a ring of cells holds

Every cell of a ring holds a multiset of things; together they hold the sum. Rewriting a cell moves
exactly what was in it and what is in it now, and a window outside of which the cells are empty
holds what its own cells hold. This is the book-keeping for resources that are handed from one owner
to the next: nothing is lost and nothing is duplicated when both sides of an equation between such
sums agree.
-/

namespace Shelf

variable {α : Type*} {N b n i : ℕ} {ring : ℕ → Multiset α}

/-- What the first `N` cells hold. -/
def total (N : ℕ) (ring : ℕ → Multiset α) : Multiset α := ∑ i ∈ Finset.range N, ring i

theorem mem_total {a : α} : a ∈ total N ring ↔ ∃ i < N, a ∈ ring i := by
  rw [total, Multiset.mem_sum]
  simp only [Finset.mem_range]

theorem total_congr {ring' : ℕ → Multiset α} (h : ∀ i < N, ring i = ring' i) :
    total N ring = total N ring' :=
  Finset.sum_congr rfl fun i hi => h i (Finset.mem_range.mp hi)

/-- A cell is rewritten. -/
theorem total_update (hi : i < N) (v : Multiset α) :
    total N (Function.update ring i v) + ring i = total N ring + v := by
  have hmem : i ∈ Finset.range N := Finset.mem_range.mpr hi
  have hrest : ∑ j ∈ (Finset.range N).erase i, Function.update ring i v j =
      ∑ j ∈ (Finset.range N).erase i, ring j :=
    Finset.sum_congr rfl fun j hj => Function.update_of_ne (Finset.ne_of_mem_erase hj) v ring
  rw [total, total, ← Finset.add_sum_erase _ _ hmem, ← Finset.add_sum_erase _ ring hmem, hrest,
    Function.update_self]
  abel

/-- A ring of empty cells. -/
theorem total_empty (h : ∀ i < N, ring i = 0) : total N ring = 0 :=
  Finset.sum_eq_zero fun i hi => h i (Finset.mem_range.mp hi)

end Shelf
