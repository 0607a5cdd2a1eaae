import Mathlib.Data.Nat.ModEq
import Mathlib.Order.Interval.Finset.Nat
import Mathlib.Algebra.BigOperators.Intervals
import Mathlib.Algebra.Order.BigOperators.Group.Finset
import Mathlib.Data.Multiset.Basic

/-!
# Serial numbers and ring buffers

A sliding window over an unbounded stream of positions `0, 1, 2, …` is kept by protocols of this
kind in a ring of `N` cells, and each position travels as its residue modulo some `M`. This file is
the arithmetic of that representation, over arbitrary `N`, `M` and cell contents.

* `dist M a b` is the forward distance from residue `a` to residue `b`; `dist_of_le` and
  `dist_of_lt` compute it when the residues come from positions less than `M` apart.
* `cell_inj` and `update_cell`: the positions of a window that fits the ring have cells of their own,
  and writing one changes no other.
* `total f cell b n` is what the cells of the window `[b, n)` come to, each measured by `f`.
-/

namespace SerialRing

/-! ### Serial distance -/

section Serial

variable {M : ℕ}

/-- How far one has to count up from `a` to meet `b`, modulo `M`. -/
def dist (M a b : ℕ) : ℕ := (b + M - a) % M

theorem dist_lt (hM : 0 < M) (a b : ℕ) : dist M a b < M := Nat.mod_lt _ hM

/-- The distance is the one number below `M` that leads from `x` to `y`. -/
theorem dist_eq_iff {x y d : ℕ} (hd : d < M) :
    dist M (x % M) (y % M) = d ↔ (x + d) % M = y % M := by
  have hM : 0 < M := by omega
  have hx : x % M < M := Nat.mod_lt x hM
  have hback : (x + dist M (x % M) (y % M)) % M = y % M := by
    have hrw : (x + dist M (x % M) (y % M)) % M = (x % M + (y % M + M - x % M)) % M := by
      simp [dist, Nat.add_mod]
    rw [hrw, show x % M + (y % M + M - x % M) = y % M + M by omega]
    simp
  constructor
  · rintro rfl
    exact hback
  · intro h
    have hmod : x + dist M (x % M) (y % M) ≡ x + d [MOD M] := hback.trans h.symm
    have := Nat.ModEq.add_left_cancel' x hmod
    rwa [Nat.ModEq, Nat.mod_eq_of_lt (dist_lt hM _ _), Nat.mod_eq_of_lt hd] at this

theorem dist_of_le {x y : ℕ} (h : x ≤ y) (hy : y < x + M) : dist M (x % M) (y % M) = y - x :=
  (dist_eq_iff (by omega)).mpr (by rw [Nat.add_sub_cancel' h])

@[simp] theorem dist_self (a : ℕ) : dist M a a = 0 := by
  rw [dist, Nat.add_sub_cancel_left, Nat.mod_self]

theorem dist_of_lt {x y : ℕ} (h : y < x) (hx : x < y + M) :
    dist M (x % M) (y % M) = M - (x - y) :=
  (dist_eq_iff (by omega)).mpr (by rw [show x + (M - (x - y)) = y + M by omega]; simp)

theorem succ_mod (x : ℕ) : (x % M + 1) % M = (x + 1) % M := Nat.mod_add_mod x M 1

/-- Every residue is met within one turn, starting anywhere. -/
theorem exists_position {a : ℕ} (ha : a < M) (x : ℕ) :
    ∃ y, x ≤ y ∧ y < x + M ∧ y % M = a := by
  refine ⟨x + dist M (x % M) (a % M), by omega, ?_, ?_⟩
  · have := dist_lt (M := M) (by omega) (x % M) (a % M)
    omega
  · have := (dist_eq_iff (x := x) (y := a) (dist_lt (M := M) (by omega) _ _)).mp rfl
    rwa [Nat.mod_eq_of_lt ha] at this ⊢

/-- Serial order: `b` lies less than half a turn ahead of `a`. -/
def Before (M a b : ℕ) : Prop := 0 < dist M a b ∧ 2 * dist M a b < M

instance (M a b : ℕ) : Decidable (Before M a b) := inferInstanceAs (Decidable (_ ∧ _))

theorem before_of_lt {x y : ℕ} (h : x < y) (hy : 2 * y < 2 * x + M) :
    Before M (x % M) (y % M) := by
  rw [Before, dist_of_le h.le (by omega)]
  omega

/-- Residues in serial order stand for positions in that order, if these are near enough. -/
theorem lt_of_before {x y : ℕ} (h : Before M (x % M) (y % M)) (hx : 2 * x < 2 * y + M) :
    x < y := by
  by_contra hle
  rcases Nat.eq_or_lt_of_le (Nat.le_of_not_lt hle) with rfl | hlt
  · rw [Before, dist_of_le le_rfl (by omega), Nat.sub_self] at h
    exact absurd h.1 (lt_irrefl 0)
  · rw [Before, dist_of_lt hlt (by omega)] at h
    omega

end Serial

/-! ### Cells of a window -/

section Cells

variable {N : ℕ} {α : Type*} {ring : ℕ → α} {b x y : ℕ}

/-- Two positions of one window share a cell only if they are equal. -/
theorem cell_inj (h : x % N = y % N) (hxy : x < y + N) (hyx : y < x + N) : x = y := by
  rcases Nat.le_total x y with hle | hle
  · have hd : N ∣ y - x := (Nat.modEq_iff_dvd' hle).mp h
    have := Nat.eq_zero_of_dvd_of_lt hd (by omega)
    omega
  · have hd : N ∣ x - y := (Nat.modEq_iff_dvd' hle).mp h.symm
    have := Nat.eq_zero_of_dvd_of_lt hd (by omega)
    omega

theorem cell_ne (hne : x ≠ y) (hxy : x < y + N) (hyx : y < x + N) : x % N ≠ y % N :=
  fun h => hne (cell_inj h hxy hyx)

/-- Writing one cell of a window that fits the ring changes that position and no other. -/
theorem update_cell {v : α} (hx : b ≤ x) (hxn : x < b + N) (hy : b ≤ y) (hyn : y < b + N) :
    Function.update ring (x % N) v (y % N) = if y = x then v else ring (y % N) := by
  by_cases h : y = x
  · subst h
    simp
  · rw [Function.update_of_ne (cell_ne h (by omega) (by omega)), if_neg h]

end Cells

/-! ### Sums over a window

What a window holds in total, its contents given by position and measured in an additive monoid: a
count, a multiset of owned objects. -/

section Total

variable {α : Type*} {β : Type*} [AddCommMonoid β] {cell cell' : ℕ → α} {b n x : ℕ} {f : α → β}

/-- The sum of `f` over the positions of the window `[b, n)`. -/
def total (f : α → β) (cell : ℕ → α) (b n : ℕ) : β := ∑ x ∈ Finset.Ico b n, f (cell x)

theorem total_single (f : α → β) (cell : ℕ → α) (b : ℕ) : total f cell b (b + 1) = f (cell b) := by
  rw [total, Nat.Ico_succ_singleton, Finset.sum_singleton]

theorem total_push (h : b ≤ n) : total f cell b (n + 1) = total f cell b n + f (cell n) :=
  Finset.sum_Ico_succ_top h _

theorem total_pop (h : b < n) : total f cell b n = f (cell b) + total f cell (b + 1) n :=
  Finset.sum_eq_sum_Ico_succ_bot h _

theorem total_congr (h : ∀ x, b ≤ x → x < n → f (cell x) = f (cell' x)) :
    total f cell b n = total f cell' b n :=
  Finset.sum_congr rfl fun x hx => h x (Finset.mem_Ico.mp hx).1 (Finset.mem_Ico.mp hx).2

/-- One position is written, the others stay. -/
theorem total_update (hx : b ≤ x) (hxn : x < n) (v : α) :
    total f (Function.update cell x v) b n + f (cell x) = total f cell b n + f v := by
  have hmem : x ∈ Finset.Ico b n := Finset.mem_Ico.mpr ⟨hx, hxn⟩
  have hrest : ∑ y ∈ (Finset.Ico b n).erase x, f (Function.update cell x v y) =
      ∑ y ∈ (Finset.Ico b n).erase x, f (cell y) :=
    Finset.sum_congr rfl fun y hy => by rw [Function.update_of_ne (Finset.ne_of_mem_erase hy)]
  rw [total, total, ← Finset.add_sum_erase _ _ hmem, ← Finset.add_sum_erase _ _ hmem, hrest,
    Function.update_self]
  ac_rfl

end Total

end SerialRing
