import Mathlib.Data.Int.Basic
import Mathlib.Order.CompletePartialOrder
import Mathlib.Data.Set.Lattice

/-!
# Planes in buffers, and passes over them

A plane is a number of rows of bytes in a buffer, one stride apart. A pass reads the planes of its
source and writes those of its destination, or copies a range of bytes. A pipeline of passes is
sound if every pass reads what the one before it has written, all planes of a pass are apart, and
all of them lie in their buffers.
-/

namespace Planes

variable {β κ : Type*}

/-- `rows` rows of `width` bytes; `content` says what the bytes are. -/
structure Plane (β κ : Type*) where
  content : κ
  buffer : β
  offset : ℤ
  stride : ℤ
  width : ℤ
  rows : ℤ
  deriving DecidableEq, Repr

/-- The bytes of a plane. -/
def Plane.bytes (p : Plane β κ) : Set (β × ℤ) :=
  {x | x.1 = p.buffer ∧ ∃ r c, 0 ≤ r ∧ r < p.rows ∧ 0 ≤ c ∧ c < p.width ∧
    x.2 = p.offset + r * p.stride + c}

/-- The bytes from `offset` on. -/
def range (buffer : β) (offset len : ℤ) : Set (β × ℤ) :=
  {x | x.1 = buffer ∧ offset ≤ x.2 ∧ x.2 < offset + len}

/-- A plane whose rows follow each other closely is a range. -/
theorem Plane.bytes_eq_range {p : Plane β κ} (hstride : p.rows = 0 ∨ p.stride = p.width)
    (hwidth : 0 ≤ p.width) : p.bytes = range p.buffer p.offset (p.rows * p.width) := by
  ext ⟨b, a⟩
  refine and_congr_right fun _ => ?_
  constructor
  · rintro ⟨r, c, hr, hrows, hc, hcw, ha⟩
    rcases hstride with hzero | hstride
    · omega
    · have hrow : (r + 1) * p.width ≤ p.rows * p.width := Int.mul_le_mul_of_nonneg_right hrows hwidth
      have hpos : 0 ≤ r * p.width := Int.mul_nonneg hr hwidth
      rw [Int.add_mul, Int.one_mul] at hrow
      rw [hstride] at ha
      change p.offset ≤ a ∧ a < p.offset + p.rows * p.width
      change a = _ at ha
      omega
  · rintro ⟨hlow, hhigh⟩
    change p.offset ≤ a at hlow
    change a < p.offset + p.rows * p.width at hhigh
    have hpos : 0 < p.width := by
      rcases hwidth.eq_or_lt with hzero | hpos
      · rw [← hzero, Int.mul_zero] at hhigh
        omega
      · exact hpos
    have hstride' : p.stride = p.width := by
      refine hstride.resolve_left fun hzero => ?_
      rw [hzero, Int.zero_mul] at hhigh
      omega
    refine ⟨(a - p.offset) / p.width, (a - p.offset) % p.width, Int.ediv_nonneg (by omega) hwidth,
      Int.ediv_lt_of_lt_mul hpos (by omega), Int.emod_nonneg _ hpos.ne', Int.emod_lt_of_pos _ hpos, ?_⟩
    have hdiv := Int.ediv_mul_add_emod (a - p.offset) p.width
    change a = _
    rw [hstride']
    omega

/-- All bytes lie in the buffer. -/
def Within (size : β → ℤ) (s : Set (β × ℤ)) : Prop := ∀ x ∈ s, 0 ≤ x.2 ∧ x.2 < size x.1

theorem within_range {size : β → ℤ} {b : β} {offset len : ℤ} (hoffset : 0 ≤ offset)
    (hlen : offset + len ≤ size b) : Within size (range b offset len) := by
  rintro ⟨b', a⟩ ⟨hb, hlow, hhigh⟩
  obtain rfl : b' = b := hb
  exact ⟨hoffset.trans hlow, hhigh.trans_le hlen⟩

/-- A range that is not empty ends in its buffer if it lies in it. -/
theorem Within.range_le {size : β → ℤ} {b : β} {offset len : ℤ} (h : Within size (range b offset len))
    (hlen : 0 < len) : offset + len ≤ size b := by
  have hlast := (h (b, offset + len - 1) ⟨rfl, by change offset ≤ offset + len - 1; omega,
    by change offset + len - 1 < offset + len; omega⟩).2
  change offset + len - 1 < size b at hlast
  omega

theorem disjoint_of_ne {p q : Plane β κ} (h : p.buffer ≠ q.buffer) : Disjoint p.bytes q.bytes :=
  Set.disjoint_left.mpr fun _ hp hq => h (hp.1.symm.trans hq.1)

theorem disjoint_range {b b' : β} {offset len offset' len' : ℤ} (h : offset + len ≤ offset') :
    Disjoint (range b offset len) (range b' offset' len') :=
  Set.disjoint_left.mpr fun _ hp hq => absurd hp.2.2 (not_lt.mpr (h.trans hq.2.1))

/-! ### Passes -/

/-- What a step of the pipeline does: a transformation, that makes an image of `width` by `height`,
or a copy. -/
inductive Pass (β κ : Type*)
  | transform (src dst : List (Plane β κ)) (width height : ℤ)
  | copy (src dst : Plane β κ)
  deriving DecidableEq, Repr

def Pass.src : Pass β κ → List (Plane β κ)
  | transform src _ _ _ => src
  | copy src _ => [src]

def Pass.dst : Pass β κ → List (Plane β κ)
  | transform _ dst _ _ => dst
  | copy _ dst => [dst]

/-- The bytes of an image. -/
def bytes (planes : List (Plane β κ)) : Set (β × ℤ) := {x | ∃ p ∈ planes, x ∈ p.bytes}

/-- A transformation reads exactly the planes it is given, a copy exactly their bytes. -/
def Pass.Takes (planes : List (Plane β κ)) : Pass β κ → Prop
  | transform src _ _ _ => src = planes
  | copy src _ => src.bytes = bytes planes

/-- The planes of a pass are apart, and lie in their buffers. -/
structure Pass.Safe (size : β → ℤ) (s : Pass β κ) : Prop where
  apart : (s.src ++ s.dst).Pairwise fun p q => Disjoint p.bytes q.bytes
  within : ∀ p ∈ s.src ++ s.dst, Within size p.bytes

/-- Every pass is safe and takes what the pass before it has made. -/
def Sound (size : β → ℤ) : List (Plane β κ) → List (Pass β κ) → Prop
  | _, [] => True
  | planes, s :: passes => s.Takes planes ∧ s.Safe size ∧ Sound size s.dst passes

/-- The planes that the last pass has made. -/
def made : List (Plane β κ) → List (Pass β κ) → List (Plane β κ)
  | planes, [] => planes
  | _, s :: passes => made s.dst passes

/-- The dimensions of what the last pass has made; a copy has those of its original. -/
def dimensions : ℤ × ℤ → List (Pass β κ) → ℤ × ℤ
  | d, [] => d
  | _, .transform _ _ width height :: passes => dimensions (width, height) passes
  | d, .copy _ _ :: passes => dimensions d passes

variable {size : β → ℤ} {planes : List (Plane β κ)} {passes : List (Pass β κ)} {s : Pass β κ}

theorem made_concat : made planes (passes ++ [s]) = s.dst := by
  induction passes generalizing planes with
  | nil => rfl
  | cons s' passes ih => exact ih

theorem sound_concat :
    Sound size planes (passes ++ [s]) ↔
      Sound size planes passes ∧ s.Takes (made planes passes) ∧ s.Safe size := by
  induction passes generalizing planes with
  | nil => simp [Sound, made]
  | cons s' passes ih =>
    rw [List.cons_append, Sound, Sound, ih, made, and_assoc, and_assoc]

theorem Sound.safe (h : Sound size planes passes) (hs : s ∈ passes) : s.Safe size := by
  induction passes generalizing planes with
  | nil => exact nomatch hs
  | cons s' passes ih =>
    rcases List.mem_cons.mp hs with rfl | hs
    · exact h.2.1
    · exact ih h.2.2 hs

theorem dimensions_transform {d : ℤ × ℤ} {src dst : List (Plane β κ)} {width height : ℤ} :
    dimensions d (passes ++ [.transform src dst width height]) = (width, height) := by
  induction passes generalizing d with
  | nil => rfl
  | cons s' passes ih => cases s' <;> exact ih

theorem dimensions_copy {d : ℤ × ℤ} {src dst : Plane β κ} :
    dimensions d (passes ++ [.copy src dst]) = dimensions d passes := by
  induction passes generalizing d with
  | nil => rfl
  | cons s' passes ih => cases s' <;> exact ih

/-- A pass from one buffer to another is safe if its planes are apart within either, and lie in the
buffers. -/
theorem Pass.safe_of_ne
    (hsrc : s.src.Pairwise fun p q => Disjoint p.bytes q.bytes)
    (hdst : s.dst.Pairwise fun p q => Disjoint p.bytes q.bytes)
    (hne : ∀ p ∈ s.src, ∀ q ∈ s.dst, p.buffer ≠ q.buffer)
    (hsrc' : ∀ p ∈ s.src, Within size p.bytes) (hdst' : ∀ p ∈ s.dst, Within size p.bytes) :
    s.Safe size where
  apart := List.pairwise_append.mpr
    ⟨hsrc, hdst, fun p hp q hq => disjoint_of_ne (hne p hp q hq)⟩
  within p hp := (List.mem_append.mp hp).elim (hsrc' p) (hdst' p)

/-! ### Images

The planes of an image follow each other closely from `lo` to `hi`.
-/

def Tiled (b : β) : ℤ → List (Plane β κ) → ℤ → Prop
  | lo, [], hi => lo = hi
  | lo, p :: ps, hi =>
    ∃ len, 0 ≤ len ∧ p.buffer = b ∧ p.bytes = range b lo len ∧ Tiled b (lo + len) ps hi

variable {b b' : β} {lo hi : ℤ} {ps qs : List (Plane β κ)}

theorem Tiled.le (h : Tiled b lo ps hi) : lo ≤ hi := by
  induction ps generalizing lo with
  | nil => exact h.le
  | cons p ps ih =>
    obtain ⟨len, hlen, -, -, hrest⟩ := h
    have hle := ih hrest
    omega

theorem Tiled.buffer {p : Plane β κ} (h : Tiled b lo ps hi) (hp : p ∈ ps) : p.buffer = b := by
  induction ps generalizing lo with
  | nil => exact nomatch hp
  | cons p' ps ih =>
    obtain ⟨len, -, hb, -, hrest⟩ := h
    rcases List.mem_cons.mp hp with rfl | hp
    · exact hb
    · exact ih hrest hp

/-- Together the planes are a range. -/
theorem Tiled.bytes_eq (h : Tiled b lo ps hi) : bytes ps = range b lo (hi - lo) := by
  induction ps generalizing lo with
  | nil =>
    obtain rfl : lo = hi := h
    ext x
    refine iff_of_false (fun ⟨p, hp, _⟩ => nomatch hp) fun ⟨_, hlow, hhigh⟩ => ?_
    omega
  | cons p ps ih =>
    obtain ⟨len, hlen, -, hp, hrest⟩ := h
    have hle := hrest.le
    have hps := ih hrest
    ext x
    have hx : x ∈ bytes (p :: ps) ↔ x ∈ p.bytes ∨ x ∈ bytes ps := by simp [bytes]
    rw [hx, hp, hps]
    constructor
    · rintro (⟨hb, hlow, hhigh⟩ | ⟨hb, hlow, hhigh⟩)
      · exact ⟨hb, hlow, by omega⟩
      · exact ⟨hb, by omega, by omega⟩
    · rintro ⟨hb, hlow, hhigh⟩
      by_cases hin : x.2 < lo + len
      · exact .inl ⟨hb, hlow, hin⟩
      · exact .inr ⟨hb, by omega, by omega⟩

theorem Tiled.pairwise (h : Tiled b lo ps hi) :
    ps.Pairwise fun p q => Disjoint p.bytes q.bytes := by
  induction ps generalizing lo with
  | nil => exact .nil
  | cons p ps ih =>
    obtain ⟨len, -, -, hp, hrest⟩ := h
    refine List.pairwise_cons.mpr ⟨fun q hq => ?_, ih hrest⟩
    have hq' : q.bytes ⊆ range b (lo + len) (hi - (lo + len)) := by
      rw [← hrest.bytes_eq]
      exact fun x hx => ⟨q, hq, hx⟩
    rw [hp]
    exact (disjoint_range le_rfl).mono_right hq'

theorem Tiled.within (h : Tiled b lo ps hi) (hlo : 0 ≤ lo) (hhi : hi ≤ size b) {p : Plane β κ}
    (hp : p ∈ ps) : Within size p.bytes := by
  have hsub : p.bytes ⊆ range b lo (hi - lo) := by
    rw [← h.bytes_eq]
    exact fun x hx => ⟨p, hp, hx⟩
  exact fun x hx => within_range hlo (by omega) x (hsub hx)

/-- An image whose planes lie in a buffer ends there. -/
theorem Tiled.le_size (h : Tiled b lo ps hi) (hin : ∀ p ∈ ps, Within size p.bytes) (hlt : lo < hi) :
    hi ≤ size b := by
  have hwithin : Within size (range b lo (hi - lo)) := by
    rw [← h.bytes_eq]
    rintro x ⟨p, hp, hx⟩
    exact hin p hp x hx
  have hle := hwithin.range_le (by omega)
  omega

/-- A pass from an image in one buffer to an image in another. -/
theorem Tiled.safe (hsrc : Tiled b 0 s.src lo) (hdst : Tiled b' 0 s.dst hi) (hne : b ≠ b')
    (hlo : lo ≤ size b) (hhi : hi ≤ size b') : s.Safe size :=
  Pass.safe_of_ne hsrc.pairwise hdst.pairwise
    (fun p hp q hq => by rw [hsrc.buffer hp, hdst.buffer hq]; exact hne)
    (fun _ hp => hsrc.within le_rfl hlo hp) fun _ hp => hdst.within le_rfl hhi hp

end Planes
