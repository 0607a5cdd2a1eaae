import Mathlib.Logic.Relation
import Mathlib.Order.Basic

/-!
# Loops that may fail to end

A C `while` loop is run with a fuel bound. Running out of fuel is an answer of its own, `none`, so
a loop that never ends is never mistaken for one that stopped, and a body may itself give `none`.

Three rules are enough for every loop of the development: a partial-correctness rule (the
invariant survives a loop that answers), a total-correctness rule (a decreasing measure makes it
answer), and `whileLoop_steps`, which turns an answered loop into a chain of body steps so that an
invariant of the single step is an invariant of the loop.
-/

namespace Loop

variable {σ : Type*} {cond : σ → Prop} [DecidablePred cond] {body : σ → Option σ}

/-- `while (cond) body`, cut off after `fuel` rounds. -/
def whileLoop (cond : σ → Prop) [DecidablePred cond] (body : σ → Option σ) : ℕ → σ → Option σ
  | 0, s => if cond s then none else some s
  | n + 1, s => if cond s then (body s).bind (whileLoop cond body n) else some s

theorem whileLoop_of_not {s : σ} (h : ¬ cond s) (n : ℕ) : whileLoop cond body n s = some s := by
  cases n <;> simp [whileLoop, h]

theorem whileLoop_succ_of {s s' : σ} (h : cond s) (hb : body s = some s') (n : ℕ) :
    whileLoop cond body (n + 1) s = whileLoop cond body n s' := by
  simp [whileLoop, h, hb]

/-- An answered loop that is not over yet made a first round. -/
theorem whileLoop_eq_some_of {n : ℕ} {s t : σ} (h : cond s) (hw : whileLoop cond body n s = some t) :
    ∃ m s', n = m + 1 ∧ body s = some s' ∧ whileLoop cond body m s' = some t := by
  cases n with
  | zero => simp [whileLoop, h] at hw
  | succ m =>
    simp only [whileLoop, h, if_true] at hw
    obtain ⟨s', hs', ht⟩ := Option.bind_eq_some_iff.mp hw
    exact ⟨m, s', rfl, hs', ht⟩

/-- **Partial correctness.** An invariant of the body holds when the loop answers, and the loop
condition is over. -/
theorem whileLoop_inv (I : σ → Prop)
    (hstep : ∀ s s', I s → cond s → body s = some s' → I s') {n : ℕ} {s t : σ} (hs : I s)
    (hw : whileLoop cond body n s = some t) : I t ∧ ¬ cond t := by
  induction n generalizing s with
  | zero =>
    by_cases h : cond s
    · simp [whileLoop, h] at hw
    · simp only [whileLoop, h, if_false, Option.some.injEq] at hw
      exact hw ▸ ⟨hs, h⟩
  | succ n ih =>
    by_cases h : cond s
    · obtain ⟨m, s', hm, hb, ht⟩ := whileLoop_eq_some_of h hw
      obtain rfl : n = m := by omega
      exact ih (hstep s s' hs h hb) ht
    · rw [whileLoop_of_not h, Option.some.injEq] at hw
      exact hw ▸ ⟨hs, h⟩

/-- **Total correctness.** With an invariant under which the body answers and a measure that every
round lowers, fuel for the measure is fuel enough. -/
theorem whileLoop_total (I : σ → Prop) (μ : σ → ℕ)
    (hstep : ∀ s, I s → cond s → ∃ s', body s = some s' ∧ I s' ∧ μ s' < μ s) {n : ℕ} {s : σ}
    (hs : I s) (hn : μ s ≤ n) : ∃ t, whileLoop cond body n s = some t ∧ I t ∧ ¬ cond t := by
  induction n generalizing s with
  | zero =>
    by_cases h : cond s
    · obtain ⟨s', -, -, hlt⟩ := hstep s hs h
      omega
    · exact ⟨s, whileLoop_of_not h 0, hs, h⟩
  | succ n ih =>
    by_cases h : cond s
    · obtain ⟨s', hb, hI, hlt⟩ := hstep s hs h
      rw [whileLoop_succ_of h hb]
      exact ih hI (by omega)
    · exact ⟨s, whileLoop_of_not h _, hs, h⟩

/-- An answered loop is a chain of body steps, each taken while the condition held. -/
theorem whileLoop_steps {n : ℕ} {s t : σ} (hw : whileLoop cond body n s = some t) :
    Relation.ReflTransGen (fun a b => cond a ∧ body a = some b) s t := by
  induction n generalizing s with
  | zero =>
    by_cases h : cond s
    · simp [whileLoop, h] at hw
    · rw [whileLoop_of_not h, Option.some.injEq] at hw
      exact hw ▸ .refl
  | succ n ih =>
    by_cases h : cond s
    · obtain ⟨m, s', hm, hb, ht⟩ := whileLoop_eq_some_of h hw
      obtain rfl : n = m := by omega
      exact .head ⟨h, hb⟩ (ih ht)
    · rw [whileLoop_of_not h, Option.some.injEq] at hw
      exact hw ▸ .refl

/-- More fuel does not change an answer. -/
theorem whileLoop_mono {n m : ℕ} {s t : σ} (hnm : n ≤ m) (hw : whileLoop cond body n s = some t) :
    whileLoop cond body m s = some t := by
  induction n generalizing s m with
  | zero =>
    by_cases h : cond s
    · simp [whileLoop, h] at hw
    · rw [whileLoop_of_not h] at hw ⊢
      exact hw
  | succ n ih =>
    by_cases h : cond s
    · obtain ⟨k, s', hk, hb, ht⟩ := whileLoop_eq_some_of h hw
      obtain ⟨m, rfl⟩ : ∃ m', m = m' + 1 := ⟨m - 1, by omega⟩
      obtain rfl : n = k := by omega
      rw [whileLoop_succ_of h hb]
      exact ih (by omega) ht
    · rw [whileLoop_of_not h] at hw ⊢
      exact hw

end Loop
