import Mathlib.Algebra.Order.Ring.Nat

/-!
# Maximal runs

The maximal runs of a predicate on an interval of positions, and the encoder that finds them in one
pass by comparing each position with the next: a run opens where the predicate rises and closes
where it falls.

* `Lists P b n l` says that `l` is the list of the maximal runs of `P` in `[b, n)`, in order.
* `Inside l x` says that `x` lies in one of the runs of `l`; `Lists.inside_iff` is what a list of all
  maximal runs is for.
* `Scanned P b i done left` is where the encoder stands at position `i`. Its rules are the four
  things that can happen between one position and the next, and `Scanned.lists` is the end of the
  pass.
-/

namespace Runs

variable {P : ℕ → Prop} {b i n x left : ℕ} {done l l' : List (ℕ × ℕ)} {r s : ℕ × ℕ}

/-- `r` is a run of `P` in `[b, n)`, and cannot be extended there. -/
structure IsRun (P : ℕ → Prop) (b n : ℕ) (r : ℕ × ℕ) : Prop where
  ge : b ≤ r.1
  le : r.1 ≤ r.2
  lt : r.2 < n
  all : ∀ x, r.1 ≤ x → x ≤ r.2 → P x
  left : r.1 = b ∨ ¬ P (r.1 - 1)
  right : r.2 + 1 = n ∨ ¬ P (r.2 + 1)

/-- All maximal runs of `P` in `[b, n)`, in order. -/
structure Lists (P : ℕ → Prop) (b n : ℕ) (l : List (ℕ × ℕ)) : Prop where
  sorted : l.Pairwise fun r s => r.2 < s.1
  mem_iff : ∀ r, r ∈ l ↔ IsRun P b n r

/-- `x` lies in one of the runs. -/
def Inside (l : List (ℕ × ℕ)) (x : ℕ) : Prop := ∃ r ∈ l, r.1 ≤ x ∧ x ≤ r.2

instance (l : List (ℕ × ℕ)) (x : ℕ) : Decidable (Inside l x) :=
  inferInstanceAs (Decidable (∃ r ∈ l, r.1 ≤ x ∧ x ≤ r.2))

/-- The encoder at position `i`: `done` are the runs that ended before it, and `left` is where the
run began that `i` is in, if it is in one. -/
structure Scanned (P : ℕ → Prop) (b i : ℕ) (done : List (ℕ × ℕ)) (left : ℕ) : Prop where
  sorted : done.Pairwise fun r s => r.2 < s.1
  mem_iff : ∀ r, r ∈ done ↔ IsRun P b i r ∧ ¬ P (r.2 + 1)
  pending : P i → IsRun P b (i + 1) (left, i)

theorem IsRun.closed_succ (h : IsRun P b i r) (hend : ¬ P (r.2 + 1)) : IsRun P b (i + 1) r :=
  ⟨h.ge, h.le, by have := h.lt; omega, h.all, h.left, .inr hend⟩

theorem IsRun.closed_of_succ (h : IsRun P b (i + 1) r) (hend : ¬ P (r.2 + 1)) (hne : r.2 ≠ i) :
    IsRun P b i r :=
  ⟨h.ge, h.le, by have := h.lt; omega, h.all, h.left, .inr hend⟩

/-- Two maximal runs that end together begin together. -/
theorem IsRun.left_unique (hr : IsRun P b n r) (hs : IsRun P b n s) (h : r.2 = s.2) :
    r.1 = s.1 := by
  have hnot : ∀ {r s : ℕ × ℕ}, IsRun P b n r → IsRun P b n s → r.2 = s.2 → ¬ r.1 < s.1 := by
    intro r s hr hs h hlt
    rcases hs.left with hb | hp
    · have := hr.ge
      omega
    · have := hs.le
      exact hp (hr.all (s.1 - 1) (by omega) (by omega))
  have h1 := hnot hr hs h
  have h2 := hnot hs hr h.symm
  omega

@[simp] theorem not_inside_nil : ¬ Inside [] x := by
  rintro ⟨r, hr, -⟩
  exact absurd hr List.not_mem_nil

theorem inside_cons : Inside (r :: l) x ↔ (r.1 ≤ x ∧ x ≤ r.2) ∨ Inside l x := by
  simp [Inside]

theorem inside_append : Inside (l ++ l') x ↔ Inside l x ∨ Inside l' x := by
  induction l with
  | nil => simp
  | cons r l ih => rw [List.cons_append, inside_cons, inside_cons, ih, or_assoc]

/-- How far `P` reaches down from `x`. -/
theorem exists_left (hb : b ≤ x) (hx : P x) :
    ∃ y, b ≤ y ∧ y ≤ x ∧ (∀ z, y ≤ z → z ≤ x → P z) ∧ (y = b ∨ ¬ P (y - 1)) := by
  induction x, hb using Nat.le_induction with
  | base =>
    refine ⟨b, le_rfl, le_rfl, fun z hz hz' => ?_, .inl rfl⟩
    rwa [le_antisymm hz' hz]
  | succ x hb ih =>
    by_cases hp : P x
    · obtain ⟨y, hby, hyx, hall, hend⟩ := ih hp
      refine ⟨y, hby, hyx.trans (Nat.le_succ x), fun z hz hz' => ?_, hend⟩
      rcases Nat.eq_or_lt_of_le hz' with rfl | hlt
      · exact hx
      · exact hall z hz (Nat.le_of_lt_succ hlt)
    · refine ⟨x + 1, hb.trans (Nat.le_succ x), le_rfl, fun z hz hz' => ?_, .inr hp⟩
      rwa [le_antisymm hz' hz]

/-- How far `P` reaches up from `x`. -/
theorem exists_right {k : ℕ} (hn : x + (k + 1) = n) (hx : P x) :
    ∃ y, x ≤ y ∧ y < n ∧ (∀ z, x ≤ z → z ≤ y → P z) ∧ (y + 1 = n ∨ ¬ P (y + 1)) := by
  have hself : ∀ z, x ≤ z → z ≤ x → P z := fun z hz hz' => le_antisymm hz hz' ▸ hx
  induction k generalizing x with
  | zero => exact ⟨x, le_rfl, by omega, hself, .inl hn⟩
  | succ k ih =>
    by_cases hp : P (x + 1)
    · obtain ⟨y, hxy, hyn, hall, hend⟩ := ih (x := x + 1) (by omega) hp
        fun z hz hz' => le_antisymm hz hz' ▸ hp
      refine ⟨y, by omega, hyn, fun z hz hz' => ?_, hend⟩
      rcases Nat.eq_or_lt_of_le hz with rfl | hlt
      · exact hx
      · exact hall z hlt hz'
    · exact ⟨x, le_rfl, by omega, hself, .inr hp⟩

/-- The positions of `P` are those of its maximal runs. -/
theorem Lists.inside_iff (h : Lists P b n l) (hb : b ≤ x) (hn : x < n) : Inside l x ↔ P x := by
  constructor
  · rintro ⟨r, hr, hrx, hxr⟩
    exact ((h.mem_iff r).mp hr).all x hrx hxr
  · intro hx
    obtain ⟨y, hby, hyx, hdown, hleft⟩ := exists_left hb hx
    obtain ⟨z, hxz, hzn, hup, hright⟩ :=
      exists_right (P := P) (show x + ((n - x - 1) + 1) = n by omega) hx
    refine ⟨(y, z), (h.mem_iff _).mpr ⟨hby, hyx.trans hxz, hzn, fun w hyw hwz => ?_, hleft, hright⟩,
      hyx, hxz⟩
    rcases Nat.le_total w x with hle | hge
    · exact hdown w hyw hle
    · exact hup w hge hwz

theorem Scanned.start (hb : ¬ P b) : Scanned P b b [] left where
  sorted := List.Pairwise.nil
  mem_iff r := by
    constructor
    · intro h
      exact absurd h List.not_mem_nil
    · rintro ⟨h, -⟩
      have := h.ge
      have := h.le
      have := h.lt
      omega
  pending h := absurd h hb

/-- No run ends at `i`. -/
theorem Scanned.mem_iff_succ (h : Scanned P b i done left) (hend : P i → P (i + 1)) (r : ℕ × ℕ) :
    r ∈ done ↔ IsRun P b (i + 1) r ∧ ¬ P (r.2 + 1) := by
  rw [h.mem_iff]
  constructor
  · rintro ⟨hr, hp⟩
    exact ⟨hr.closed_succ hp, hp⟩
  · rintro ⟨hr, hp⟩
    refine ⟨hr.closed_of_succ hp ?_, hp⟩
    rintro rfl
    exact hp (hend (hr.all r.2 hr.le le_rfl))

/-- The positions `i` and `i + 1` are both in a run, or neither is. -/
theorem Scanned.same (h : Scanned P b i done left) (hsame : P i ↔ P (i + 1)) :
    Scanned P b (i + 1) done left where
  sorted := h.sorted
  mem_iff := h.mem_iff_succ hsame.mp
  pending hp := by
    have hrun := h.pending (hsame.mpr hp)
    refine ⟨hrun.ge, hrun.le.trans (Nat.le_succ i), Nat.lt_succ_self _, fun x hx hi => ?_, hrun.left,
      .inl rfl⟩
    rcases Nat.eq_or_lt_of_le hi with rfl | hlt
    · exact hp
    · exact hrun.all x hx (Nat.le_of_lt_succ hlt)

/-- A run opens at `i + 1`. -/
theorem Scanned.rise (h : Scanned P b i done left) (hb : b ≤ i) (hi : ¬ P i) (hnext : P (i + 1)) :
    Scanned P b (i + 1) done (i + 1) where
  sorted := h.sorted
  mem_iff := h.mem_iff_succ fun hp => absurd hp hi
  pending _ := by
    refine ⟨by omega, le_rfl, Nat.lt_succ_self _, fun x hx hi' => ?_, .inr hi, .inl rfl⟩
    obtain rfl : x = i + 1 := le_antisymm hi' hx
    exact hnext

/-- The run that `i` is in ends there. -/
theorem Scanned.fall (h : Scanned P b i done left) (hi : P i) (hnext : ¬ P (i + 1)) :
    Scanned P b (i + 1) (done ++ [(left, i)]) left where
  sorted := by
    refine List.pairwise_append.mpr ⟨h.sorted, List.pairwise_singleton _ _, fun r hr s hs => ?_⟩
    obtain rfl := List.mem_singleton.mp hs
    -- an earlier run that reached into this one would go on after its end
    obtain ⟨hrun, hend⟩ := (h.mem_iff r).mp hr
    by_contra hle
    have hlt := hrun.lt
    exact hend ((h.pending hi).all (r.2 + 1) (by dsimp only at hle ⊢; omega) hlt)
  mem_iff r := by
    rw [List.mem_append, List.mem_singleton, h.mem_iff]
    constructor
    · rintro (⟨hr, hp⟩ | rfl)
      · exact ⟨hr.closed_succ hp, hp⟩
      · exact ⟨h.pending hi, hnext⟩
    · rintro ⟨hr, hp⟩
      by_cases hri : r.2 = i
      · exact .inr (Prod.ext (hr.left_unique (h.pending hi) hri) hri)
      · exact .inl ⟨hr.closed_of_succ hp hri, hp⟩
  pending hp := absurd hp hnext

/-- The pass ends outside of every run. -/
theorem Scanned.lists (h : Scanned P b n done left) (hn : ¬ P n) : Lists P b n done where
  sorted := h.sorted
  mem_iff r := by
    rw [h.mem_iff]
    constructor
    · exact And.left
    · intro hr
      refine ⟨hr, ?_⟩
      rcases hr.right with heq | hp
      · rwa [heq]
      · exact hp

end Runs
