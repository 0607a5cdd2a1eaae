import AndroidVendor.Lib.SerialRing

/-!
# Queues in a ring

A queue kept in a ring of `N` cells by two indices: `tail` is the cell of the oldest entry, `head`
the cell the next entry goes to. One cell stays free, so that equal indices mean an empty queue.

`contents N cell tail head` is the queue as a list, oldest first. Its rules are the moves of such a
queue: an entry is put in with room for it, or into a full ring which gives up its oldest entry, and
the oldest entry is taken out. Cells outside the queue may be overwritten.
-/

namespace RingQueue

open SerialRing

variable {α : Type*} {N : ℕ} {cell : ℕ → α} {tail head : ℕ}

/-- The entries from `tail` to before `head`. -/
def contents (N : ℕ) (cell : ℕ → α) (tail head : ℕ) : List α :=
  (List.range (dist N tail head)).map fun i => cell ((tail + i) % N)

@[simp] theorem contents_self (N : ℕ) (cell : ℕ → α) (i : ℕ) : contents N cell i i = [] := by
  simp [contents]

@[simp] theorem length_contents : (contents N cell tail head).length = dist N tail head := by
  simp [contents]

theorem dist_eq (ht : tail < N) (hh : head < N) :
    dist N tail head = if tail ≤ head then head - tail else head + N - tail := by
  rw [SerialRing.dist]
  split
  · next hle =>
    rw [show head + N - tail = head - tail + N by omega, Nat.add_mod_right, Nat.mod_eq_of_lt]
    omega
  · exact Nat.mod_eq_of_lt (by omega)

theorem succ_eq {i : ℕ} (hi : i < N) : (i + 1) % N = if i + 1 = N then 0 else i + 1 := by
  split
  · next heq => rw [heq, Nat.mod_self]
  · exact Nat.mod_eq_of_lt (by omega)

theorem succ_lt {i : ℕ} (hi : i < N) : (i + 1) % N < N := Nat.mod_lt _ (by omega)

/-- Moving `tail` on lowers the distance by one. -/
theorem dist_tail (ht : tail < N) (hh : head < N) (hne : tail ≠ head) :
    dist N tail head = dist N ((tail + 1) % N) head + 1 := by
  have hs := succ_eq ht
  rw [dist_eq ht hh, dist_eq (succ_lt ht) hh]
  split at hs <;> split <;> split <;> omega

/-- Moving `head` on raises the distance by one, unless the ring is full. -/
theorem dist_head (ht : tail < N) (hh : head < N) (hroom : (head + 1) % N ≠ tail) :
    dist N tail ((head + 1) % N) = dist N tail head + 1 := by
  have hs := succ_eq hh
  rw [dist_eq ht hh, dist_eq ht (succ_lt hh)]
  split at hs <;> split <;> split <;> omega

/-- The ring index of `head`, counted from `tail`. -/
theorem tail_add_dist (ht : tail < N) (hh : head < N) : (tail + dist N tail head) % N = head := by
  rw [dist_eq ht hh]
  split
  · rw [show tail + (head - tail) = head by omega, Nat.mod_eq_of_lt hh]
  · rw [show tail + (head + N - tail) = head + N by omega, Nat.add_mod_right, Nat.mod_eq_of_lt hh]

theorem contents_eq_nil (ht : tail < N) (hh : head < N) :
    contents N cell tail head = [] ↔ tail = head := by
  constructor
  · intro h
    by_contra hne
    have hlen := congrArg List.length h
    rw [length_contents, dist_tail ht hh hne] at hlen
    exact absurd hlen (Nat.succ_ne_zero _)
  · rintro rfl
    exact contents_self N cell tail

/-- The oldest entry, and the others. -/
theorem contents_cons (ht : tail < N) (hh : head < N) (hne : tail ≠ head) :
    contents N cell tail head = cell tail :: contents N cell ((tail + 1) % N) head := by
  rw [contents, dist_tail ht hh hne, List.range_succ_eq_map, List.map_cons, List.map_map, contents,
    Nat.add_zero, Nat.mod_eq_of_lt ht]
  refine congrArg _ (List.map_congr_left fun i _ => ?_)
  rw [Function.comp_apply, Nat.mod_add_mod, Nat.succ_eq_add_one]
  congr 2
  omega

/-- A cell that is not in the queue may hold anything. -/
theorem contents_update (ht : tail < N) {i : ℕ} (v : α) (hi : i < N)
    (hout : dist N tail head ≤ dist N tail i) :
    contents N (Function.update cell i v) tail head = contents N cell tail head := by
  refine List.map_congr_left fun j hj => Function.update_of_ne ?_ ..
  have hj : j < dist N tail head := List.mem_range.mp hj
  have hlt := dist_lt (show 0 < N by omega) tail i
  rintro rfl
  have heq := (dist_eq_iff (x := tail) (y := tail + j) (d := j) (M := N) (by omega)).mpr rfl
  rw [Nat.mod_eq_of_lt ht] at heq
  omega

/-- The cell of the entry that was taken out. -/
theorem contents_update_tail (ht : tail < N) (hh : head < N) (v : α) :
    contents N (Function.update cell tail v) ((tail + 1) % N) head =
      contents N cell ((tail + 1) % N) head := by
  refine contents_update (succ_lt ht) v ht ?_
  have hs := succ_eq ht
  rw [dist_eq (succ_lt ht) hh, dist_eq (succ_lt ht) ht]
  split at hs <;> split <;> split <;> omega

/-- An entry is put in. -/
theorem contents_push (ht : tail < N) (hh : head < N) (hroom : (head + 1) % N ≠ tail) (v : α) :
    contents N (Function.update cell head v) tail ((head + 1) % N) =
      contents N cell tail head ++ [v] := by
  rw [contents, dist_head ht hh hroom, List.range_succ, List.map_append, List.map_singleton,
    tail_add_dist ht hh, Function.update_self]
  exact congrArg (· ++ [v]) (contents_update ht v hh le_rfl)

/-- An entry is put into a full ring, which gives up its oldest. -/
theorem contents_push_full (ht : tail < N) (hh : head < N) (hN : 1 < N) (hfull : (head + 1) % N = tail)
    (v : α) :
    contents N (Function.update cell head v) ((tail + 1) % N) ((head + 1) % N) =
      (contents N cell tail head ++ [v]).tail := by
  have hne : tail ≠ head := by
    rw [← hfull, succ_eq hh]
    split <;> omega
  have hroom : (head + 1) % N ≠ (tail + 1) % N := by
    rw [hfull, succ_eq ht]
    split <;> omega
  rw [contents_push (succ_lt ht) hh hroom, contents_cons ht hh hne, List.cons_append, List.tail_cons]

/-! ### Walking along the queue -/

/-- The cells of the queue, from the oldest entry on. -/
def indices (N tail head : ℕ) : List ℕ := (List.range (dist N tail head)).map fun i => (tail + i) % N

theorem contents_eq_map : contents N cell tail head = (indices N tail head).map cell := by
  rw [contents, indices, List.map_map]
  rfl

theorem indices_lt (hN : 0 < N) : ∀ i ∈ indices N tail head, i < N := by
  intro i hi
  obtain ⟨j, -, rfl⟩ := List.mem_map.mp hi
  exact Nat.mod_lt _ hN

/-- An index of the queue lies behind `tail`, or the queue has gone on at the front of the ring. -/
theorem mem_indices (ht : tail < N) (hh : head < N) {i : ℕ} :
    i ∈ indices N tail head ↔
      (tail ≤ i ∧ i < N ∧ i < tail + dist N tail head) ∨ (head < tail ∧ i < head) := by
  have hdist := dist_eq ht hh
  have hlt := dist_lt (show 0 < N by omega) tail head
  rw [indices, List.mem_map]
  constructor
  · rintro ⟨k, hk, rfl⟩
    have hk := List.mem_range.mp hk
    rcases Nat.lt_or_ge (tail + k) N with hin | hover
    · rw [Nat.mod_eq_of_lt hin]
      exact .inl (by omega)
    · rw [Nat.mod_eq_sub_mod hover, Nat.mod_eq_of_lt (by omega)]
      split at hdist <;> exact .inr (by omega)
  · rintro (⟨hle, hin, hi⟩ | ⟨hwrap, hi⟩)
    · refine ⟨i - tail, List.mem_range.mpr (by omega), ?_⟩
      rw [Nat.add_sub_cancel' hle, Nat.mod_eq_of_lt hin]
    · refine ⟨i + N - tail, List.mem_range.mpr ?_, ?_⟩
      · rw [hdist, if_neg (by omega)]
        omega
      · rw [Nat.add_sub_cancel' (by omega), Nat.add_mod_right, Nat.mod_eq_of_lt (by omega)]

/-- The queue ends before the ring does. -/
theorem tail_add_dist_le (ht : tail < N) (hh : head < N) :
    tail + dist N tail head ≤ N ↔ tail ≤ head ∨ head = 0 := by
  rw [dist_eq ht hh]
  split <;> omega

/-- As long as they do not come to the end of the ring, the indices are counted up. -/
theorem range'_prefix_indices {m : ℕ} (hm : m ≤ dist N tail head) (hN : tail + m ≤ N) :
    List.range' tail m <+: indices N tail head := by
  obtain ⟨k, hk⟩ := Nat.exists_eq_add_of_le hm
  have hfront : (List.range m).map (fun i => (tail + i) % N) = List.range' tail m := by
    rw [List.range'_eq_map_range]
    refine List.map_congr_left fun i hi => Nat.mod_eq_of_lt ?_
    have := List.mem_range.mp hi
    omega
  rw [indices, hk, List.range_add, List.map_append, hfront]
  exact List.prefix_append _ _

section UpTo

variable {stop : ℕ → Bool} {n : ℕ}

/-- Up to the first that stops the walk, which is visited itself. -/
def upTo (stop : ℕ → Bool) : List ℕ → List ℕ
  | [] => []
  | i :: is => if stop i then [i] else i :: upTo stop is

theorem upTo_sublist (stop : ℕ → Bool) (is : List ℕ) : (upTo stop is).Sublist is := by
  induction is with
  | nil => exact .refl _
  | cons i is ih =>
    rw [upTo]
    split
    · exact (List.nil_sublist is).cons_cons i
    · exact ih.cons_cons i

theorem upTo_eq_self {is : List ℕ} (h : ∀ i ∈ is, stop i = false) : upTo stop is = is := by
  induction is with
  | nil => rfl
  | cons i is ih =>
    rw [upTo, h i List.mem_cons_self, if_neg Bool.false_ne_true,
      ih fun j hj => h j (List.mem_cons_of_mem i hj)]

theorem upTo_append {is js : List ℕ} : upTo stop (is ++ js) =
    if ∃ i ∈ is, stop i = true then upTo stop is else is ++ upTo stop js := by
  induction is with
  | nil => simp
  | cons i is ih =>
    rw [List.cons_append, upTo, upTo, ih]
    by_cases hi : stop i = true
    · rw [if_pos hi, if_pos hi, if_pos ⟨i, List.mem_cons_self, hi⟩]
    · have hiff : (∃ j ∈ i :: is, stop j = true) ↔ ∃ j ∈ is, stop j = true := by simp [hi]
      rw [if_neg hi, if_neg hi, if_congr hiff rfl rfl]
      split <;> rfl

/-- **A walk that counts on without the modulus** goes through the queue as long as it does not come
to the end of the ring: the queue ends before, or something stops the walk there. -/
theorem upTo_range'_iff (ht : tail < N) (hh : head < N) :
    (upTo stop (List.range' tail (dist N tail head)) = upTo stop (indices N tail head) ∧
        ∀ i ∈ upTo stop (List.range' tail (dist N tail head)), i < N) ↔
      tail ≤ head ∨ head = 0 ∨ ∃ i, tail ≤ i ∧ i < N ∧ stop i = true := by
  rw [← or_assoc, ← tail_add_dist_le ht hh]
  rcases Nat.lt_or_ge N (tail + dist N tail head) with hover | hin
  · -- the walk goes on to the cell `N`, unless it stops before
    obtain ⟨rest, hrest⟩ : List.range' tail (N - tail) <+: indices N tail head :=
      range'_prefix_indices (by omega) (by omega)
    obtain ⟨k, hk⟩ : ∃ k, dist N tail head = N - tail + (k + 1) :=
      ⟨dist N tail head - (N - tail) - 1, by omega⟩
    have hcut : List.range' tail (dist N tail head) =
        List.range' tail (N - tail) ++ N :: List.range' (N + 1) k := by
      rw [hk, ← List.range'_append_1, List.range'_succ, Nat.add_sub_cancel' ht.le]
    have hstop : (∃ i ∈ List.range' tail (N - tail), stop i = true) ↔
        ∃ i, tail ≤ i ∧ i < N ∧ stop i = true := by
      simp only [List.mem_range'_1, Nat.add_sub_cancel' ht.le, and_assoc]
    rw [or_iff_right (not_le.mpr hover), ← hrest, hcut, upTo_append, upTo_append, ← hstop]
    by_cases h : ∃ i ∈ List.range' tail (N - tail), stop i = true
    · rw [if_pos h, if_pos h]
      refine iff_of_true ⟨rfl, fun i hi => ?_⟩ h
      have := List.mem_range'_1.mp ((upTo_sublist stop _).subset hi)
      omega
    · rw [if_neg h, if_neg h]
      refine iff_of_false (fun hall => ?_) h
      have hN : N ∈ upTo stop (N :: List.range' (N + 1) k) := by
        rw [upTo]
        split <;> simp
      exact absurd (hall.2 N (List.mem_append_right _ hN)) (lt_irrefl N)
  · have heq : List.range' tail (dist N tail head) = indices N tail head :=
      (range'_prefix_indices le_rfl hin).eq_of_length (by simp [indices])
    rw [heq]
    refine iff_of_true ⟨rfl, fun i hi => ?_⟩ (.inl hin)
    exact indices_lt (by omega) i ((upTo_sublist stop _).subset hi)

end UpTo

end RingQueue
