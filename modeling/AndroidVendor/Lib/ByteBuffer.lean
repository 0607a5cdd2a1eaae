import Mathlib.Data.List.Basic

/-!
# Byte buffers with a position and a limit

The operations of a buffer that is filled and emptied in turn: `put` writes at the position, `flip`
turns what was written into what can be read, `get` reads on, and `compact` moves what was not read
to the front, to write behind it. A transfer that does not fit fails and leaves the buffer alone.

`Holds b p` and `Reads b p` say that a buffer is to be written to, or to be read from, and that `p`
is in it. The lemmas give what each operation makes of `p`.
-/

/-- `hb` are the elements, as many as the capacity. -/
structure ByteBuffer (α : Type*) where
  hb : List α
  position : ℕ
  limit : ℕ
  deriving DecidableEq

namespace ByteBuffer

variable {α : Type*} {b : ByteBuffer α} {p src : List α} {n : ℕ}

def allocate (capacity : ℕ) (a : α) : ByteBuffer α :=
  { hb := .replicate capacity a, position := 0, limit := capacity }

def capacity (b : ByteBuffer α) : ℕ := b.hb.length

def remaining (b : ByteBuffer α) : ℕ := b.limit - b.position

def clear (b : ByteBuffer α) : ByteBuffer α :=
  { b with position := 0, limit := b.capacity }

def flip (b : ByteBuffer α) : ByteBuffer α :=
  { b with position := 0, limit := b.position }

/-- Fails with an overflow. -/
def put (b : ByteBuffer α) (src : List α) : Option (ByteBuffer α) :=
  if src.length ≤ b.remaining then
    some { b with
      hb := b.hb.take b.position ++ src ++ b.hb.drop (b.position + src.length)
      position := b.position + src.length }
  else none

/-- Fails with an underflow. -/
def get (b : ByteBuffer α) (n : ℕ) : Option (List α × ByteBuffer α) :=
  if n ≤ b.remaining then
    some ((b.hb.drop b.position).take n, { b with position := b.position + n })
  else none

def compact (b : ByteBuffer α) : ByteBuffer α :=
  { hb := (b.hb.drop b.position).take b.remaining ++ b.hb.drop b.remaining
    position := b.remaining
    limit := b.capacity }

/-- To be written to; `p` has been written. -/
def Holds (b : ByteBuffer α) (p : List α) : Prop :=
  b.limit = b.capacity ∧ b.position ≤ b.capacity ∧ b.hb.take b.position = p

/-- To be read from; `p` is left to read. -/
def Reads (b : ByteBuffer α) (p : List α) : Prop :=
  b.limit ≤ b.capacity ∧ b.position ≤ b.limit ∧ (b.hb.drop b.position).take b.remaining = p

theorem holds_allocate (capacity : ℕ) (a : α) : (allocate capacity a).Holds [] := by
  refine ⟨?_, Nat.zero_le _, rfl⟩
  rw [allocate, ByteBuffer.capacity, List.length_replicate]

theorem Holds.length (h : b.Holds p) : p.length = b.position := by
  rw [← h.2.2, List.length_take]
  exact Nat.min_eq_left h.2.1

theorem Holds.put (h : b.Holds p) (hle : p.length + src.length ≤ b.capacity) :
    ∃ b', b.put src = some b' ∧ b'.Holds (p ++ src) ∧ b'.capacity = b.capacity := by
  have hlen := h.length
  have hrem : src.length ≤ b.remaining := by
    rw [remaining, h.1]
    omega
  have hcap : (b.hb.take b.position ++ src ++ b.hb.drop (b.position + src.length)).length =
      b.capacity := by
    rw [List.length_append, List.length_append, List.length_take, List.length_drop, ← capacity]
    omega
  have htake : (b.hb.take b.position ++ src).length = b.position + src.length := by
    rw [List.length_append, h.2.2, hlen]
  refine ⟨_, if_pos hrem, ⟨?_, ?_, ?_⟩, hcap⟩
  · rw [capacity, hcap, h.1]
  · rw [capacity, hcap]
    change b.position + src.length ≤ b.capacity
    omega
  · change List.take (b.position + src.length) _ = p ++ src
    rw [List.take_left' htake, h.2.2]

theorem Holds.flip (h : b.Holds p) : b.flip.Reads p := by
  refine ⟨h.2.1, Nat.zero_le _, ?_⟩
  exact h.2.2

theorem Reads.length (h : b.Reads p) : p.length = b.remaining := by
  have hcap : b.hb.length = b.capacity := rfl
  have := h.1
  rw [← h.2.2, List.length_take, List.length_drop, remaining, hcap]
  omega

theorem Reads.get (h : b.Reads p) (hle : n ≤ p.length) :
    ∃ b', b.get n = some (p.take n, b') ∧ b'.Reads (p.drop n) ∧ b'.capacity = b.capacity := by
  have hlen := h.length
  rw [hlen] at hle
  have hpos := h.2.1
  have hrem : b.limit - (b.position + n) = b.remaining - n := by
    rw [remaining]
    omega
  refine ⟨{ b with position := b.position + n }, ?_, ⟨h.1, ?_, ?_⟩, rfl⟩
  · rw [ByteBuffer.get, if_pos hle, ← h.2.2, List.take_take, Nat.min_eq_left hle]
  · rw [remaining] at hle
    change b.position + n ≤ b.limit
    omega
  · rw [← h.2.2, List.drop_take, List.drop_drop]
    exact congrArg (fun k => (b.hb.drop (b.position + n)).take k) hrem

theorem Reads.compact (h : b.Reads p) : b.compact.Holds p ∧ b.compact.capacity = b.capacity := by
  have hlim := h.1
  have hpos := h.2.1
  have hrem : b.remaining ≤ b.capacity := by
    rw [remaining]
    omega
  have hleft : ((b.hb.drop b.position).take b.remaining).length = b.remaining := by
    rw [h.2.2, h.length]
  have hcap : b.compact.capacity = b.capacity := by
    rw [capacity, ByteBuffer.compact, List.length_append, hleft, List.length_drop, ← capacity]
    omega
  refine ⟨⟨hcap.symm, hcap ▸ hrem, ?_⟩, hcap⟩
  rw [ByteBuffer.compact]
  change List.take b.remaining _ = p
  rw [List.take_left' hleft, h.2.2]

end ByteBuffer
