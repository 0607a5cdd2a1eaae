import Mathlib.Data.List.Basic

/-!
# Framed streams

A stream is made of messages, the lists that satisfy `W`. It is `Whole` when nothing but whole
messages is in it, and `Framed` when the last message may be cut off. A message announces its length
in its first `k` items: then the first message of a framed stream is known from these items alone.

Where `first` tells how long the message is that a stream begins with, `messages` cuts the stream
up.
-/

namespace Framing

variable {α : Type*} {W : List α → Prop} {s t m p : List α}

/-- A concatenation of messages. -/
def Whole (W : List α → Prop) (s : List α) : Prop :=
  ∃ ms : List (List α), (∀ m ∈ ms, W m) ∧ s = ms.flatten

/-- Whole messages, and after them possibly the beginning of one more. -/
def Framed (W : List α → Prop) (s : List α) : Prop :=
  Whole W s ∨ ∃ t p m, Whole W t ∧ W m ∧ p <+: m ∧ s = t ++ p

theorem whole_nil : Whole W [] :=
  ⟨[], by simp, rfl⟩

theorem Whole.append (hs : Whole W s) (hm : W m) : Whole W (s ++ m) := by
  obtain ⟨ms, hms, rfl⟩ := hs
  refine ⟨ms ++ [m], ?_, by simp⟩
  intro m' hm'
  rcases List.mem_append.mp hm' with h | h
  · exact hms m' h
  · exact List.mem_singleton.mp h ▸ hm

theorem Whole.framed (hs : Whole W s) : Framed W s := .inl hs

theorem Whole.framed_append (hs : Whole W s) (hm : W m) (hp : p <+: m) : Framed W (s ++ p) :=
  .inr ⟨s, p, m, hs, hm, hp, rfl⟩

/-- A nonempty concatenation begins with a message. -/
theorem Whole.first (hs : Whole W s) (hne : s ≠ []) : ∃ m, W m ∧ m <+: s := by
  obtain ⟨ms, hms, rfl⟩ := hs
  cases ms with
  | nil => exact absurd rfl hne
  | cons m ms => exact ⟨m, hms m List.mem_cons_self, by simp⟩

/-- Where messages that begin alike are equally long, a framed stream that begins like the message
`m` and is long enough holds a message of that length. -/
theorem Framed.take {k : ℕ} (hk : ∀ m, W m → k ≤ m.length) (hpos : 0 < k)
    (hlen : ∀ m m', W m → W m' → m.take k = m'.take k → m.length = m'.length) (hs : Framed W s)
    (hm : W m) (hbegin : s.take k = m.take k) (hle : m.length ≤ s.length) :
    W (s.take m.length) := by
  have hfirst : ∀ m', W m' → m' <+: s → W (s.take m.length) := by
    intro m' hm' hpre
    have htake : m'.take k = s.take k := by
      obtain ⟨r, rfl⟩ := hpre
      rw [List.take_append_of_le_length (hk m' hm')]
    have hsame : m'.length = m.length := hlen m' m hm' hm (htake.trans hbegin)
    rw [← hsame, ← List.prefix_iff_eq_take.mp hpre]
    exact hm'
  have hsne : s ≠ [] := by
    rintro rfl
    exact absurd (Nat.lt_of_lt_of_le hpos (Nat.le_trans (hk m hm) hle)) (Nat.lt_irrefl 0)
  rcases hs with hs | ⟨t, p, m', ht, hm', hp, rfl⟩
  · obtain ⟨m', hm', hpre⟩ := hs.first hsne
    exact hfirst m' hm' hpre
  · by_cases hte : t = []
    · subst hte
      rw [List.nil_append] at *
      have hkp : k ≤ p.length := Nat.le_trans (hk m hm) hle
      have htake : m'.take k = p.take k := by
        obtain ⟨r, rfl⟩ := hp
        rw [List.take_append_of_le_length hkp]
      have hsame : m'.length = m.length := hlen m' m hm' hm (htake.trans hbegin)
      obtain rfl : p = m' := hp.eq_of_length_le (hsame ▸ hle)
      exact hfirst p hm' List.prefix_rfl
    · obtain ⟨m₁, hm₁, hpre⟩ := ht.first hte
      exact hfirst m₁ hm₁ (hpre.trans (List.prefix_append t p))

/-! ### Cutting a stream up -/

/-- Cut up to `k` messages off. -/
def cut (first : List α → Option ℕ) : ℕ → List α → List (List α)
  | 0, _ => []
  | k + 1, s =>
    match first s with
    | none => []
    | some n => s.take n :: cut first k (s.drop n)

/-- The messages of a stream, as far as they are complete. -/
def messages (first : List α → Option ℕ) (s : List α) : List (List α) :=
  cut first s.length s

/-- The length of the first message is that of a beginning of the stream, and depends on nothing
behind it. -/
structure Delimits (first : List α → Option ℕ) : Prop where
  pos : ∀ s n, first s = some n → 0 < n
  le : ∀ s n, first s = some n → n ≤ s.length
  own : ∀ s n t, first s = some n → first (s.take n ++ t) = some n

variable {first : List α → Option ℕ}

/-- Enough is enough. -/
theorem cut_congr (hf : Delimits first) {k l : ℕ} (hk : s.length ≤ k) (hl : s.length ≤ l) :
    cut first k s = cut first l s := by
  induction k generalizing s l with
  | zero =>
    obtain rfl : s = [] := List.length_eq_zero_iff.mp (Nat.le_zero.mp hk)
    have hnone : first [] = none := by
      cases hs : first ([] : List α) with
      | none => rfl
      | some n => exact absurd (hf.pos _ _ hs) (Nat.not_lt.mpr (hf.le _ _ hs))
    cases l with
    | zero => rfl
    | succ l => simp only [cut, hnone]
  | succ k ih =>
    cases hs : first s with
    | none =>
      cases l with
      | zero => simp only [cut, hs]
      | succ l => simp only [cut, hs]
    | some n =>
      have hpos := hf.pos s n hs
      have hle := hf.le s n hs
      have hdrop : (s.drop n).length = s.length - n := List.length_drop
      cases l with
      | zero => omega
      | succ l =>
        simp only [cut, hs]
        rw [ih (s := s.drop n) (l := l) (by omega) (by omega)]

theorem messages_of_none (hs : first s = none) : messages first s = [] := by
  rw [messages]
  cases s.length with
  | zero => rfl
  | succ l => simp only [cut, hs]

/-- A stream that begins with the message `m`. -/
theorem messages_append (hf : Delimits first) (hm : first m = some m.length) (t : List α) :
    messages first (m ++ t) = m :: messages first t := by
  have hmt : first (m ++ t) = some m.length := by
    have := hf.own m _ t hm
    rwa [List.take_length] at this
  have hpos := hf.pos m _ hm
  obtain ⟨l, hl⟩ : ∃ l, (m ++ t).length = l + 1 := ⟨(m ++ t).length - 1, by simp; omega⟩
  have hle : t.length ≤ l := by
    rw [List.length_append] at hl
    omega
  rw [messages, hl]
  simp only [cut, hmt]
  rw [List.take_left, List.drop_left, cut_congr hf hle (Nat.le_refl _), messages]

/-- What `first` finds is a message. -/
theorem Delimits.take (hf : Delimits first) {n : ℕ} (hs : first s = some n) :
    first (s.take n) = some (s.take n).length := by
  rw [List.length_take, Nat.min_eq_left (hf.le s n hs), ← List.append_nil (s.take n)]
  exact hf.own s n [] hs

end Framing
