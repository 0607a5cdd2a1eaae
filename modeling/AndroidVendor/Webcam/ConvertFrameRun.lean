import Mathlib.Tactic.Ring
import AndroidVendor.Webcam.ConvertFrame
import AndroidVendor.Webcam.FlySocketRun

/-!
# Where the planes of a conversion lie

The planes of every image of even size follow each other closely from the start of its buffer, so
that a pass is safe as soon as both images have room. `Holds` says what is known of the image in
`temp1Data` after a pass; each pass takes it to the next.

## Main results

* `Holds.call`: what one pass keeps.
* `convertFrame_iff`: the conversions that stay inside their buffers.
-/

namespace AndroidVendor.Webcam

open Planes

variable {f : VideoFrame} {width height : UInt32} {area : Area} {chroma : Content} {a b m n : ℤ}

/-! ### Images of even size -/

/-- An NV12 or NV21 image of `2 * a` by `2 * b` pixels. -/
def biplanarOf (chroma : Content) (area : Area) (a b : ℤ) : List ImagePlane :=
  biplanar chroma area.start (2 * a) (area.start.add (4 * (a * b))) (2 * a) (2 * a) (2 * b)

def i420Of (area : Area) (a b : ℤ) : List ImagePlane :=
  Planar.planes
    { y := area.start
      strideY := 2 * a
      u := area.start.add (4 * (a * b))
      strideU := a
      v := (area.start.add (4 * (a * b))).add (a * b)
      strideV := a } (2 * a) (2 * b)

theorem plane_bytes {content : Content} {p : Pointer} {stride w rows len : ℤ}
    (hstride : rows = 0 ∨ stride = w) (hw : 0 ≤ w) (hlen : rows * w = len) :
    (plane content p stride w rows).bytes = range p.area p.offset len := by
  rw [Plane.bytes_eq_range hstride hw]
  change range p.area p.offset (rows * w) = _
  rw [hlen]

theorem tiled_biplanarOf (ha : 0 ≤ a) (hb : 0 ≤ b) :
    Tiled area 0 (biplanarOf chroma area a b) (6 * (a * b)) := by
  have hab : 0 ≤ a * b := Int.mul_nonneg ha hb
  have hwidth : (2 * a + 1) / 2 * 2 = 2 * a := by omega
  have hrows : (2 * b + 1) / 2 = b := by omega
  have hend : (0 : ℤ) + 4 * (a * b) + 2 * (a * b) = 6 * (a * b) := by ring
  refine ⟨4 * (a * b), by omega, rfl, plane_bytes (.inr rfl) (by omega) (by ring),
    2 * (a * b), by omega, rfl,
    ?_, hend⟩
  rw [hwidth, hrows]
  exact plane_bytes (.inr rfl) (by omega) (by ring)

theorem tiled_i420Of (ha : 0 ≤ a) (hb : 0 ≤ b) : Tiled area 0 (i420Of area a b) (6 * (a * b)) := by
  have hab : 0 ≤ a * b := Int.mul_nonneg ha hb
  have hwidth : (2 * a + 1) / 2 = a := by omega
  have hrows : (2 * b + 1) / 2 = b := by omega
  have hend : (0 : ℤ) + 4 * (a * b) + a * b + a * b = 6 * (a * b) := by ring
  refine ⟨4 * (a * b), by omega, rfl, plane_bytes (.inr rfl) (by omega) (by ring), a * b, hab, rfl, ?_,
    a * b, hab, rfl, ?_, hend⟩
  · rw [hwidth, hrows]
    exact plane_bytes (.inr rfl) ha (by ring)
  · rw [hwidth, hrows]
    exact plane_bytes (.inr rfl) ha (by ring)

theorem tiled_argb {stride : ℤ} (hstride : b = 0 ∨ stride = 2 * a * 4) (ha : 0 ≤ a) (hb : 0 ≤ b) :
    Tiled area 0 (argb area.start stride (2 * a) (2 * b)) (16 * (a * b)) := by
  have hab : 0 ≤ a * b := Int.mul_nonneg ha hb
  have hrows : 2 * b = 0 ∨ stride = 2 * a * 4 := hstride.imp_left fun hzero => by omega
  have hend : (0 : ℤ) + 16 * (a * b) = 16 * (a * b) := by ring
  exact ⟨16 * (a * b), by omega, rfl, plane_bytes hrows (by omega) (by ring), hend⟩

/-! ### One pass -/

/-- The passes leave an image of `2 * a` by `2 * b` pixels in the first `len` bytes of `area`, and
every pass was safe and took what it should. -/
structure Holds (f : VideoFrame) (passes : List ImagePass) (area : Area) (planes : List ImagePlane)
    (len a b : ℤ) : Prop where
  sound : Sound Area.size f.image passes
  made_eq : made f.image passes = planes
  size : dimensions (f.width, f.height) passes = (2 * a, 2 * b)
  tiled : Tiled area 0 planes len
  room : len ≤ area.size

variable {planes planes' : List ImagePlane} {c : Conversion} {s : ImagePass}
  {area' : Area} {len len' : ℤ}

/-- A transformation into another buffer. -/
theorem Holds.transform (h : Holds f c.passes area planes len a b) (hne : area ≠ area')
    (htiled : Tiled area' 0 planes' len') (hroom : len' ≤ area'.size)
    (hs : s = .transform planes planes' (2 * m) (2 * n)) :
    Holds f (c.call s).passes area' planes' len' m n := by
  subst hs
  exact ⟨sound_concat.mpr ⟨h.sound, h.made_eq.symm, Tiled.safe h.tiled htiled hne h.room hroom⟩,
    made_concat, dimensions_transform, htiled, hroom⟩

/-- A copy of all of the image. -/
theorem Holds.copy (h : Holds f c.passes area planes len a b) (hne : area ≠ area')
    (hroom : len ≤ area'.size) {n : ℕ} (hn : (n : ℤ) = len) :
    ∃ planes', Holds f (c.call (memcpy area'.start area.start n)).passes area' planes' len a b := by
  have htiled (area : Area) : Tiled area 0 [plane .raw area.start n n 1] len :=
    ⟨len, by omega, rfl, plane_bytes (.inr rfl) (by omega) (by omega), by change 0 + len = len; omega⟩
  have htakes : (memcpy area'.start area.start n).Takes (made f.image c.passes) := by
    rw [h.made_eq]
    change (plane .raw area.start n n 1).bytes = bytes planes
    rw [h.tiled.bytes_eq, plane_bytes (.inr rfl) (by omega) (by omega : 1 * (n : ℤ) = len)]
    congr 1
    omega
  exact ⟨[plane .raw area'.start n n 1],
    sound_concat.mpr ⟨h.sound, htakes, Tiled.safe (htiled area) (htiled area') hne h.room hroom⟩,
    made_concat, dimensions_copy.trans h.size, htiled area', hroom⟩

theorem Scratch.ne (t : Scratch) : t.temp1Data ≠ t.temp2Data := by
  rcases t.perm with ⟨h₁, h₂⟩ | ⟨h₁, h₂⟩ <;> rw [h₁, h₂] <;> decide

theorem Scratch.ne_data (t : Scratch) : Area.data ≠ t.temp1Data := by
  rcases t.perm with ⟨h, -⟩ | ⟨h, -⟩ <;> rw [h] <;> decide

theorem Scratch.ne_frame (t : Scratch) : t.temp1Data ≠ .frame := by
  rcases t.perm with ⟨h, -⟩ | ⟨h, -⟩ <;> rw [h] <;> decide

theorem Scratch.size_temp1Data (t : Scratch) : t.temp1Data.size = scratchSize := by
  rcases t.perm with ⟨h, -⟩ | ⟨h, -⟩ <;> rw [h] <;> rfl

theorem Scratch.size_temp2Data (t : Scratch) : t.temp2Data.size = scratchSize := t.swap.size_temp1Data

/-! ### The arguments of the passes -/

theorem toInt_of_lt {x : ℤ} (hx : 0 ≤ x) (hlt : x < 2 ^ 31) : toInt x = x := by
  exact Int.bmod_eq_of_le (by omega) (by omega)

/-- `f_width` and `f_height` are `2 * a` and `2 * b`, and their product is no overflow. -/
structure Sized (a b : ℤ) (c : Conversion) : Prop where
  fWidth : c.fWidth = 2 * a
  fHeight : c.fHeight = 2 * b
  nonneg : 0 ≤ a ∧ 0 ≤ b
  room : 4 * (a * b) < 2 ^ 31

theorem Sized.area_eq (h : Sized a b c) : c.area = 4 * (a * b) := by
  have hab : 0 ≤ a * b := Int.mul_nonneg h.nonneg.1 h.nonneg.2
  have hmul : 2 * a * (2 * b) = 4 * (a * b) := by ring
  rw [Conversion.area, h.fWidth, h.fHeight, hmul]
  exact toInt_of_lt (by omega) h.room

/-- The I420 image of the frame. -/
theorem Sized.planar_planes (h : Sized a b c) (hmn : m * n = a * b) :
    (c.planar area.start (2 * m)).planes (2 * m) (2 * n) = i420Of area m n := by
  have hquarter : (4 * (a * b)).tdiv 4 = a * b := Int.mul_tdiv_cancel_left _ (by decide)
  have hside : (2 * m + 1) / 2 = m := by omega
  rw [Conversion.planar, h.area_eq, hquarter, hside, i420Of, hmn]

/-- The requested size is `2 * m` by `2 * n`, each no overflow. -/
structure Requested (width height : UInt32) (m n : ℤ) : Prop where
  width_eq : (width.toNat : ℤ) = 2 * m
  height_eq : (height.toNat : ℤ) = 2 * n
  width_lt : width.toNat < 2 ^ 31
  height_lt : height.toNat < 2 ^ 31

theorem Requested.arg_width (h : Requested width height m n) : arg width = 2 * m := by
  have hlt := h.width_lt
  rw [arg, toInt_of_lt (by omega) (by omega), h.width_eq]

theorem Requested.arg_height (h : Requested width height m n) : arg height = 2 * n := by
  have hlt := h.height_lt
  rw [arg, toInt_of_lt (by omega) (by omega), h.height_eq]

theorem Requested.nonneg (h : Requested width height m n) : 0 ≤ m ∧ 0 ≤ n := by
  have hwidth := h.width_eq
  have hheight := h.height_eq
  omega

theorem Requested.mul_eq (h : Requested width height m n) :
    ((width.toNat * height.toNat : ℕ) : ℤ) = 4 * (m * n) := by
  rw [Nat.cast_mul, h.width_eq, h.height_eq]
  ring

theorem Requested.area_eq (h : Requested width height m n) (hroom : 4 * (m * n) < 2 ^ 31) :
    ((width * height).toNat : ℤ) = 4 * (m * n) := by
  have hmul := h.mul_eq
  rw [UInt32.toNat_mul, Nat.mod_eq_of_lt (by omega), hmul]

/-- `width * 4` is no overflow, or there is no row. -/
theorem Requested.arg_stride (h : Requested width height m n) (hroom : 16 * (m * n) ≤ scratchSize) :
    n = 0 ∨ arg (width * 4) = 2 * m * 4 := by
  have hscratch : (scratchSize : ℤ) = 16000000 := rfl
  have hwidth := h.width_eq
  refine or_iff_not_imp_left.mpr fun hn => ?_
  have hpos : 1 ≤ n := by
    have hnonneg := h.nonneg.2
    omega
  have hle := Int.mul_le_mul_of_nonneg_left hpos h.nonneg.1
  have hmul : (width * 4).toNat = width.toNat * 4 := by
    rw [UInt32.toNat_mul]
    change width.toNat * 4 % 2 ^ 32 = _
    exact Nat.mod_eq_of_lt (by omega)
  rw [arg, hmul, toInt_of_lt (by omega) (by omega)]
  omega

theorem Requested.len_eq (h : Requested width height m n) (hroom : 16 * (m * n) ≤ scratchSize) :
    ((width * height * 4).toNat : ℤ) = 16 * (m * n) := by
  have hscratch : (scratchSize : ℤ) = 16000000 := rfl
  have harea := h.area_eq (by omega)
  rw [UInt32.toNat_mul]
  change (((width * height).toNat * 4 % 2 ^ 32 : ℕ) : ℤ) = _
  omega

theorem Requested.planar_planes (h : Requested width height m n) (hroom : 4 * (m * n) < 2 ^ 31) :
    (planar area.start width height).planes (2 * m) (2 * n) = i420Of area m n := by
  have harea := h.area_eq hroom
  have hquarter : ((width * height / 4).toNat : ℤ) = m * n := by
    rw [UInt32.toNat_div]
    change (((width * height).toNat / 4 : ℕ) : ℤ) = m * n
    omega
  have hside : arg ((width + 1) / 2) = m := by
    have hlt := h.width_lt
    have hwidth := h.width_eq
    have hone : (width + 1).toNat = width.toNat + 1 := by
      rw [UInt32.toNat_add, Nat.mod_eq_of_lt]
      · rfl
      · change width.toNat + 1 < _
        omega
    rw [arg, UInt32.toNat_div, hone]
    change toInt ((width.toNat + 1) / 2 : ℕ) = m
    rw [toInt_of_lt (by omega) (by omega)]
    omega
  rw [planar, harea, hquarter, hside, h.arg_width, i420Of]

/-! ### Rotation and scaling -/

theorem Sized.swapSize (h : Sized a b c) : Sized b a (c.call s).swapData.swapSize :=
  ⟨h.fHeight, h.fWidth, h.nonneg.symm, by rw [Int.mul_comm b a]; exact h.room⟩

theorem Sized.call (h : Sized a b c) : Sized a b (c.call s).swapData :=
  ⟨h.fWidth, h.fHeight, h.nonneg, h.room⟩

/-- A pass from `temp1Data` to `temp2Data`, which are swapped after it. -/
theorem Holds.call (h : Holds f c.passes c.scratch.temp1Data planes len a b)
    (htiled : Tiled c.scratch.temp2Data 0 planes' len') (hroom : len' ≤ scratchSize)
    (hs : s = .transform planes planes' (2 * m) (2 * n)) :
    Holds f (c.call s).swapData.passes (c.call s).swapData.scratch.temp1Data planes' len' m n :=
  h.transform c.scratch.ne htiled (hroom.trans_eq c.scratch.size_temp2Data.symm) hs

/-- `temp1Data` holds the image of the frame or its turn, which is never higher than wide. -/
def Turned (f : VideoFrame) (image : Area → ℤ → ℤ → List ImagePlane) (len a b : ℤ) (c : Conversion) :
    Prop :=
  ∃ a' b', (a' = a ∧ b' = b ∨ a' = b ∧ b' = a) ∧ b' ≤ a' ∧ Sized a' b' c ∧
    Holds f c.passes c.scratch.temp1Data (image c.scratch.temp1Data a' b') len a' b'

theorem Holds.rotate {image : Area → ℤ → ℤ → List ImagePlane}
    (h : Holds f c.passes c.scratch.temp1Data (image c.scratch.temp1Data a b) len a b)
    (hc : Sized a b c) (hlen : len ≤ scratchSize)
    (hkeep : Tiled c.scratch.temp2Data 0 (image c.scratch.temp2Data a b) len)
    (hturn : Tiled c.scratch.temp2Data 0 (image c.scratch.temp2Data b a) len)
    {quarter : RotationMode → ImagePass} {half : ImagePass}
    (hquarter : ∀ mode, mode ≠ .rotate180 → quarter mode =
      .transform (image c.scratch.temp1Data a b) (image c.scratch.temp2Data b a) (2 * b) (2 * a))
    (hhalf : half =
      .transform (image c.scratch.temp1Data a b) (image c.scratch.temp2Data a b) (2 * a) (2 * b))
    (isRotate : Bool) :
    Turned f image len a b
      (if isRotate = false then
        if c.fHeight > c.fWidth then (c.call (quarter .rotate270)).swapData.swapSize else c
      else if c.fHeight > c.fWidth then (c.call (quarter .rotate90)).swapData.swapSize
      else (c.call half).swapData) := by
  have hwidth := hc.fWidth
  have hheight := hc.fHeight
  split
  · split
    · exact ⟨b, a, .inr ⟨rfl, rfl⟩, by omega, hc.swapSize,
        h.call hturn hlen (hquarter _ (by decide))⟩
    · exact ⟨a, b, .inl ⟨rfl, rfl⟩, by omega, hc, h⟩
  · split
    · exact ⟨b, a, .inr ⟨rfl, rfl⟩, by omega, hc.swapSize,
        h.call hturn hlen (hquarter _ (by decide))⟩
    · exact ⟨a, b, .inl ⟨rfl, rfl⟩, by omega, hc.call, h.call hkeep hlen hhalf⟩

theorem Holds.rotateI420
    (h : Holds f c.passes c.scratch.temp1Data (i420Of c.scratch.temp1Data a b) (6 * (a * b)) a b)
    (hc : Sized a b c) (hroom : 6 * (a * b) ≤ scratchSize) (isRotate : Bool) :
    Turned f i420Of (6 * (a * b)) a b (c.rotateI420 isRotate) := by
  obtain ⟨ha, hb⟩ := hc.nonneg
  have hsrc : (c.planar c.temp1Data (2 * a)).planes (2 * a) (2 * b) =
      i420Of c.scratch.temp1Data a b := hc.planar_planes rfl
  have hturn : (c.planar c.temp2Data (2 * b)).planes (2 * b) (2 * a) =
      i420Of c.scratch.temp2Data b a := hc.planar_planes (Int.mul_comm b a)
  have hkeep : (c.planar c.temp2Data (2 * a)).planes (2 * a) (2 * b) =
      i420Of c.scratch.temp2Data a b := hc.planar_planes rfl
  have hquarter (mode : RotationMode) (hmode : mode ≠ .rotate180) :
      i420Rotate (c.planar c.temp1Data c.fWidth) (c.planar c.temp2Data c.fHeight) c.fWidth c.fHeight
        mode = .transform (i420Of c.scratch.temp1Data a b) (i420Of c.scratch.temp2Data b a)
          (2 * b) (2 * a) := by
    rw [hc.fWidth, hc.fHeight]
    cases mode with
    | rotate180 => exact absurd rfl hmode
    | rotate90 | rotate270 =>
      rw [i420Rotate, hsrc, ← hturn]
      rfl
  have hhalf : i420Rotate (c.planar c.temp1Data c.fWidth) (c.planar c.temp2Data c.fWidth) c.fWidth
      c.fHeight .rotate180 = .transform (i420Of c.scratch.temp1Data a b)
        (i420Of c.scratch.temp2Data a b) (2 * a) (2 * b) := by
    rw [hc.fWidth, hc.fHeight, i420Rotate, hsrc, ← hkeep]
    rfl
  exact h.rotate hc hroom (tiled_i420Of ha hb) (by rw [Int.mul_comm a b]; exact tiled_i420Of hb ha)
    hquarter hhalf isRotate

/-- An image of four bytes a pixel. -/
def argbOf (area : Area) (a b : ℤ) : List ImagePlane := argb area.start (2 * a * 4) (2 * a) (2 * b)

theorem Holds.rotateARGB
    (h : Holds f c.passes c.scratch.temp1Data (argbOf c.scratch.temp1Data a b) (16 * (a * b)) a b)
    (hc : Sized a b c) (hroom : 16 * (a * b) ≤ scratchSize) (isRotate : Bool) :
    Turned f argbOf (16 * (a * b)) a b (c.rotateARGB isRotate) := by
  obtain ⟨ha, hb⟩ := hc.nonneg
  have hquarter (mode : RotationMode) (hmode : mode ≠ .rotate180) :
      argbRotate c.temp1Data (c.fWidth * 4) c.temp2Data (c.fHeight * 4) c.fWidth c.fHeight mode =
        .transform (argbOf c.scratch.temp1Data a b) (argbOf c.scratch.temp2Data b a)
          (2 * b) (2 * a) := by
    rw [hc.fWidth, hc.fHeight]
    cases mode with
    | rotate180 => exact absurd rfl hmode
    | rotate90 | rotate270 => rfl
  have hhalf : argbRotate c.temp1Data (c.fWidth * 4) c.temp2Data (c.fWidth * 4) c.fWidth c.fHeight
      .rotate180 = .transform (argbOf c.scratch.temp1Data a b) (argbOf c.scratch.temp2Data a b)
        (2 * a) (2 * b) := by
    rw [hc.fWidth, hc.fHeight]
    rfl
  exact h.rotate hc hroom (tiled_argb (.inr rfl) ha hb)
    (by rw [Int.mul_comm a b]; exact tiled_argb (.inr rfl) hb ha) hquarter hhalf isRotate

theorem Holds.scaleI420
    (h : Holds f c.passes c.scratch.temp1Data (i420Of c.scratch.temp1Data a b) len a b)
    (hc : Sized a b c) (hout : Requested width height m n) (hroom : 6 * (m * n) ≤ scratchSize) :
    ∃ len', Holds f (c.scaleI420 width height).passes (c.scaleI420 width height).scratch.temp1Data
      (i420Of (c.scaleI420 width height).scratch.temp1Data m n) len' m n := by
  have hscratch : (scratchSize : ℤ) = 16000000 := rfl
  have hsrc : (c.planar c.temp1Data (2 * a)).planes (2 * a) (2 * b) =
      i420Of c.scratch.temp1Data a b := hc.planar_planes rfl
  have hdst : (planar c.temp2Data width height).planes (2 * m) (2 * n) =
      i420Of c.scratch.temp2Data m n := hout.planar_planes (by omega)
  rw [Conversion.scaleI420]
  split
  · refine ⟨6 * (m * n), h.call (tiled_i420Of hout.nonneg.1 hout.nonneg.2) hroom ?_⟩
    rw [hc.fWidth, hc.fHeight, hout.arg_width, hout.arg_height, i420Scale, hsrc, hdst]
    rfl
  · next hsame =>
    rw [hc.fWidth, hc.fHeight, hout.width_eq, hout.height_eq] at hsame
    obtain rfl : a = m := by omega
    obtain rfl : b = n := by omega
    exact ⟨len, h⟩

/-- The scaling takes the longer side for the width. -/
theorem Holds.scaleARGB
    (h : Holds f c.passes c.scratch.temp1Data (argbOf c.scratch.temp1Data a b) (16 * (a * b)) a b)
    (hc : Sized a b c) (hba : b ≤ a) (hout : Requested width height m n)
    (hstride : n = 0 ∨ arg (width * 4) = 2 * m * 4) (hroom : 16 * (m * n) ≤ scratchSize) :
    ∃ planes, Holds f (c.scaleARGB width height).passes (c.scaleARGB width height).scratch.temp1Data
      planes (16 * (m * n)) m n := by
  have hlonger : (if c.fHeight > c.fWidth then c.fHeight else c.fWidth) = 2 * a := by
    rw [hc.fWidth, hc.fHeight, if_neg (by omega)]
  have hshorter : (if c.fHeight > c.fWidth then c.fWidth else c.fHeight) = 2 * b := by
    rw [hc.fWidth, hc.fHeight, if_neg (by omega)]
  rw [Conversion.scaleARGB]
  split
  · refine ⟨_, h.call (tiled_argb hstride hout.nonneg.1 hout.nonneg.2) hroom ?_⟩
    rw [hlonger, hshorter, hout.arg_width, hout.arg_height]
    rfl
  · next hsame =>
    rw [hc.fWidth, hc.fHeight, hout.width_eq, hout.height_eq] at hsame
    obtain rfl : a = m := by omega
    obtain rfl : b = n := by omega
    exact ⟨_, h⟩

/-! ### A conversion that fits -/

/-- The frame has even dimensions, `2 * a` by `2 * b`. -/
structure Even (f : VideoFrame) (a b : ℤ) : Prop where
  width_eq : (f.width : ℤ) = 2 * a
  height_eq : (f.height : ℤ) = 2 * b

theorem Even.image_eq (h : Even f a b) : f.image = biplanarOf .vu .data a b := by
  have hmul : 2 * a * (2 * b) = 4 * (a * b) := by ring
  rw [VideoFrame.image, h.width_eq, h.height_eq, hmul, biplanarOf]

theorem Even.sized (h : Even f a b) (t : Scratch) (hroom : 4 * (a * b) < 2 ^ 31) :
    Sized a b (t.start f) := by
  have hwidth := h.width_eq
  have hheight := h.height_eq
  exact ⟨h.width_eq, h.height_eq, by omega, hroom⟩

theorem Even.holds (h : Even f a b) (t : Scratch) (hroom : 6 * (a * b) ≤ frameDataSize) :
    Holds f (t.start f).passes .data (biplanarOf .vu .data a b) (6 * (a * b)) a b := by
  have hwidth := h.width_eq
  have hheight := h.height_eq
  refine ⟨trivial, h.image_eq, ?_, tiled_biplanarOf (by omega) (by omega), hroom⟩
  rw [← hwidth, ← hheight]
  rfl

/-- The source of the first pass. -/
theorem Sized.biplanar_eq {t : Scratch} (h : Sized a b (t.start f)) :
    biplanar .vu Area.data.start (t.start f).fWidth (Area.data.start.add (t.start f).area)
      (t.start f).fWidth (t.start f).fWidth (t.start f).fHeight = biplanarOf .vu .data a b := by
  rw [h.area_eq, h.fWidth, h.fHeight, biplanarOf]

/-- The destination of the last pass. -/
theorem Requested.biplanar_eq (h : Requested width height m n) (hroom : 4 * (m * n) < 2 ^ 31) :
    biplanar .uv Area.frame.start (arg width) (Area.frame.start.add (width * height).toNat) (arg width)
      (arg width) (arg height) = biplanarOf .uv .frame m n := by
  rw [h.area_eq hroom, h.arg_width, h.arg_height, biplanarOf]

theorem Holds.converts (h : Holds f c.passes area planes len m n) (hout : Requested width height m n) :
    Converts c f width height :=
  ⟨h.sound, by rw [hout.width_eq, hout.height_eq]; exact h.size⟩

theorem Even.nonneg (h : Even f a b) : 0 ≤ a ∧ 0 ≤ b := by
  have hwidth := h.width_eq
  have hheight := h.height_eq
  omega

theorem converts_yCbCr (t : Scratch) (isRotate : Bool) (hf : Even f a b)
    (hout : Requested width height m n) (hroom : 6 * (a * b) ≤ scratchSize)
    (hroom' : 6 * (m * n) ≤ scratchSize) :
    Converts (convertFrame t isRotate f .yCbCr420_888 width height) f width height := by
  have hscratch : (scratchSize : ℤ) = 16000000 := rfl
  have hdata : (frameDataSize : ℤ) = 25165824 := rfl
  have hc := hf.sized t (by omega)
  have hstart := hf.holds t (by omega)
  have hsrc := hc.biplanar_eq
  have hdst := hout.biplanar_eq (by omega)
  have htiled : Tiled .frame 0 (biplanarOf .uv .frame m n) (6 * (m * n)) :=
    tiled_biplanarOf hout.nonneg.1 hout.nonneg.2
  rw [convertFrame]
  dsimp only
  split
  · next hsame =>
    rw [Conversion.Same, hc.fWidth, hc.fHeight, hout.width_eq, hout.height_eq] at hsame
    obtain rfl : a = m := by omega
    obtain rfl : b = n := by omega
    refine Holds.converts (hstart.transform (by decide) htiled hroom' ?_) hout
    rw [hc.fWidth, hc.fHeight] at hsrc
    rw [hout.arg_width, hout.arg_height] at hdst
    rw [Conversion.dataToNV12, nv21ToNV12, hout.arg_width, hout.arg_height, hdst, hc.fWidth, hsrc]
  · have hfirst : Holds f ((t.start f).call (t.start f).dataToI420).passes t.temp1Data
        (i420Of t.temp1Data a b) (6 * (a * b)) a b := by
      refine hstart.transform t.ne_data (tiled_i420Of hf.nonneg.1 hf.nonneg.2)
        (hroom.trans_eq t.size_temp1Data.symm) ?_
      have hplanar : ((t.start f).planar (t.start f).temp1Data (2 * a)).planes (2 * a) (2 * b) =
          i420Of t.temp1Data a b := hc.planar_planes rfl
      rw [Conversion.dataToI420, nv21ToI420, hsrc, hc.fWidth, hc.fHeight, hplanar]
    obtain ⟨a', b', -, -, hc', hrotated⟩ := Holds.rotateI420 hfirst
      ⟨hc.fWidth, hc.fHeight, hc.nonneg, hc.room⟩ hroom isRotate
    obtain ⟨len, hscaled⟩ := hrotated.scaleI420 hc' hout hroom'
    refine Holds.converts (hscaled.transform (Scratch.ne_frame _) htiled hroom' ?_) hout
    have hplanar (c : Conversion) : (planar c.temp1Data width height).planes (2 * m) (2 * n) =
        i420Of c.scratch.temp1Data m n := hout.planar_planes (by omega)
    rw [Conversion.toNV12, i420ToNV12, hdst, hout.arg_width, hout.arg_height, hplanar]

theorem Holds.copied (h : Holds f c.passes c.scratch.temp1Data planes len m n)
    (hroom : len ≤ scratchSize) {k : ℕ} (hk : (k : ℤ) = len) (hout : Requested width height m n) :
    Converts (c.call (memcpy Area.frame.start c.temp1Data k)) f width height := by
  obtain ⟨planes', hcopy⟩ := h.copy c.scratch.ne_frame hroom hk
  exact hcopy.converts hout

theorem converts_argb (t : Scratch) (isRotate : Bool) (hf : Even f a b)
    (hout : Requested width height m n) (hroom : 16 * (a * b) ≤ scratchSize)
    (hroom' : 16 * (m * n) ≤ scratchSize) :
    Converts (convertFrame t isRotate f .rgba8888 width height) f width height := by
  have hscratch : (scratchSize : ℤ) = 16000000 := rfl
  have hdata : (frameDataSize : ℤ) = 25165824 := rfl
  have hab : 0 ≤ a * b := Int.mul_nonneg hf.nonneg.1 hf.nonneg.2
  have hc := hf.sized t (by omega)
  have hstart := hf.holds t (by omega)
  have hsrc := hc.biplanar_eq
  have hstride := hout.arg_stride hroom'
  rw [convertFrame]
  dsimp only
  split
  · next hsame =>
    rw [Conversion.Same, hc.fWidth, hc.fHeight, hout.width_eq, hout.height_eq] at hsame
    obtain rfl : a = m := by omega
    obtain rfl : b = n := by omega
    have htiled : Tiled .frame 0 (argb Area.frame.start (arg (width * 4)) (2 * a) (2 * b))
        (16 * (a * b)) := tiled_argb hstride hf.nonneg.1 hf.nonneg.2
    refine Holds.converts (hstart.transform (by decide) htiled hroom' ?_) hout
    rw [hc.fWidth, hc.fHeight] at hsrc
    rw [Conversion.dataToFrameARGB, nv21ToARGB, hout.arg_width, hout.arg_height, hc.fWidth, hsrc]
  · have hfirst : Holds f ((t.start f).call (t.start f).dataToARGB).passes t.temp1Data
        (argbOf t.temp1Data a b) (16 * (a * b)) a b := by
      refine hstart.transform t.ne_data (tiled_argb (.inr rfl) hf.nonneg.1 hf.nonneg.2)
        (hroom.trans_eq t.size_temp1Data.symm) ?_
      rw [Conversion.dataToARGB, nv21ToARGB, hsrc, hc.fWidth, hc.fHeight]
      rfl
    obtain ⟨a', b', hturn, hba, hc', hrotated⟩ := Holds.rotateARGB hfirst
      ⟨hc.fWidth, hc.fHeight, hc.nonneg, hc.room⟩ hroom isRotate
    have hlen : 16 * (a * b) = 16 * (a' * b') := by
      rcases hturn with ⟨rfl, rfl⟩ | ⟨rfl, rfl⟩
      · rfl
      · rw [Int.mul_comm b' a']
    rw [hlen] at hrotated
    obtain ⟨planes, hscaled⟩ := hrotated.scaleARGB hc' hba hout hstride hroom'
    exact hscaled.copied hroom' (hout.len_eq hroom') hout

theorem Even.frameSize_eq (h : Even f a b) (hroom : 6 * (a * b) ≤ scratchSize) :
    (frameSize f.width f.height : ℤ) = 6 * (a * b) := by
  have hscratch : (scratchSize : ℤ) = 16000000 := rfl
  have hmul : ((f.width * f.height : ℕ) : ℤ) = 4 * (a * b) := by
    rw [Nat.cast_mul, h.width_eq, h.height_eq]
    ring
  have hlt : f.width * f.height * 3 % 2 ^ 32 = f.width * f.height * 3 := Nat.mod_eq_of_lt (by omega)
  rw [frameSize, hlt, if_pos (by omega)]
  omega

theorem converts_blob (t : Scratch) (isRotate : Bool) (hf : Even f a b)
    (hout : Requested width height a b) (hroom : 6 * (a * b) ≤ scratchSize) :
    Converts (convertFrame t isRotate f .blob width height) f width height := by
  have hscratch : (scratchSize : ℤ) = 16000000 := rfl
  have hdata : (frameDataSize : ℤ) = 25165824 := rfl
  obtain ⟨planes', hcopy⟩ := (hf.holds t (by omega)).copy (show Area.data ≠ .frame by decide) hroom
    (hf.frameSize_eq hroom)
  exact hcopy.converts hout

/-! ### A conversion that keeps to its buffers -/

theorem within_dst {f : VideoFrame} (h : Converts c f width height) (hs : s ∈ c.passes) :
    ∀ p ∈ s.dst, Within Area.size p.bytes :=
  fun p hp => (h.sound.safe hs).within p (List.mem_append_right _ hp)

theorem Conversion.mem_call {s' : ImagePass} (hs : s ∈ c.passes) : s ∈ (c.call s').passes :=
  List.mem_append_left _ hs

theorem Conversion.mem_call_self : s ∈ (c.call s).passes :=
  List.mem_append_right _ (List.mem_singleton_self s)

theorem Conversion.mem_rotateI420 (hs : s ∈ c.passes) (isRotate : Bool) :
    s ∈ (c.rotateI420 isRotate).passes := by
  rw [Conversion.rotateI420]
  split <;> split <;> first | exact hs | exact Conversion.mem_call hs

theorem Conversion.mem_rotateARGB (hs : s ∈ c.passes) (isRotate : Bool) :
    s ∈ (c.rotateARGB isRotate).passes := by
  rw [Conversion.rotateARGB]
  split <;> split <;> first | exact hs | exact Conversion.mem_call hs

theorem Conversion.mem_scaleI420 (hs : s ∈ c.passes) : s ∈ (c.scaleI420 width height).passes := by
  rw [Conversion.scaleI420]
  split <;> first | exact hs | exact Conversion.mem_call hs

theorem Conversion.mem_scaleARGB (hs : s ∈ c.passes) : s ∈ (c.scaleARGB width height).passes := by
  rw [Conversion.scaleARGB]
  split <;> first | exact hs | exact Conversion.mem_call hs

theorem toInt_lt (x : ℤ) : toInt x < 2 ^ 31 := by
  have hlt := Int.bmod_lt (x := x) (m := 2 ^ 32) (by decide)
  exact hlt

/-- A last pass that makes the requested size is not given an overflow. -/
theorem requested_of_dimensions (hwidth : (width.toNat : ℤ) = 2 * m)
    (hheight : (height.toNat : ℤ) = 2 * n)
    (h : (arg width, arg height) = ((width.toNat : ℤ), (height.toNat : ℤ))) :
    Requested width height m n := by
  obtain ⟨hw, hh⟩ := Prod.mk.inj h
  have hwlt := toInt_lt width.toNat
  have hhlt := toInt_lt height.toNat
  change arg width < 2 ^ 31 at hwlt
  change arg height < 2 ^ 31 at hhlt
  exact ⟨hwidth, hheight, by omega, by omega⟩

/-- A luma plane in its buffer bounds the area. -/
theorem luma_le (ha : 0 ≤ a) (hb : 0 ≤ b)
    (h : Within Area.size (plane .y area.start (2 * a) (2 * a) (2 * b)).bytes)
    (harea : 0 ≤ area.size) :
    4 * (a * b) ≤ area.size := by
  have hab : 0 ≤ a * b := Int.mul_nonneg ha hb
  rw [plane_bytes (.inr rfl) (by omega) (by ring : 2 * b * (2 * a) = 4 * (a * b))] at h
  rcases hab.eq_or_lt with hzero | hpos
  · omega
  · have hle := h.range_le (by omega)
    change 0 + 4 * (a * b) ≤ area.size at hle
    omega

/-- So does a whole image. -/
theorem len_le (h : Tiled area 0 planes len) (hin : ∀ p ∈ planes, Within Area.size p.bytes)
    (harea : 0 ≤ area.size) : len ≤ area.size := by
  by_cases hpos : 0 < len
  · exact h.le_size hin hpos
  · omega

theorem room_of_frame (hout : Requested width height m n)
    (hin : ∀ p ∈ biplanar .uv Area.frame.start (arg width)
      (Area.frame.start.add (width * height).toNat) (arg width) (arg width) (arg height),
      Within Area.size p.bytes) : 6 * (m * n) ≤ scratchSize := by
  have hscratch : (scratchSize : ℤ) = 16000000 := rfl
  have hluma := hin _ List.mem_cons_self
  rw [hout.arg_width, hout.arg_height] at hluma
  have hle := luma_le hout.nonneg.1 hout.nonneg.2 hluma (by decide)
  change 4 * (m * n) ≤ scratchSize at hle
  rw [hout.biplanar_eq (by omega)] at hin
  exact len_le (tiled_biplanarOf hout.nonneg.1 hout.nonneg.2) hin (by decide)

theorem room_of_temp1 (t : Scratch) (hf : Even f a b)
    (hin : ∀ p ∈ (t.start f).dataToI420.dst, Within Area.size p.bytes) :
    6 * (a * b) ≤ scratchSize := by
  have hscratch : (scratchSize : ℤ) = 16000000 := rfl
  have hsize := t.size_temp1Data
  have hluma := hin _ List.mem_cons_self
  change Within Area.size (plane .y t.temp1Data.start f.width f.width f.height).bytes at hluma
  rw [hf.width_eq, hf.height_eq] at hluma
  have hle := luma_le hf.nonneg.1 hf.nonneg.2 hluma (by omega)
  have hc := hf.sized t (by omega)
  have hdst : (t.start f).dataToI420.dst = i420Of t.temp1Data a b := by
    have hplanar : ((t.start f).planar (t.start f).temp1Data (2 * a)).planes (2 * a) (2 * b) =
        i420Of t.temp1Data a b := hc.planar_planes rfl
    rw [← hplanar, ← hc.fWidth, ← hc.fHeight]
    rfl
  rw [hdst] at hin
  rw [← hsize]
  exact len_le (tiled_i420Of hf.nonneg.1 hf.nonneg.2) hin (by omega)

/-- A plane of four bytes a pixel in its buffer, where the stride is `width * 4`. -/
theorem argb_le (hout : Requested width height m n)
    (h : Within Area.size (plane .argb area.start (arg (width * 4)) (2 * m * 4) (2 * n)).bytes)
    (harea : area.size = scratchSize) : 16 * (m * n) ≤ scratchSize := by
  have hscratch : (scratchSize : ℤ) = 16000000 := rfl
  obtain ⟨hm, hn⟩ := hout.nonneg
  rcases hm.eq_or_lt with rfl | hm'
  · omega
  rcases hn.eq_or_lt with rfl | hn'
  · omega
  have hrow : (area, 2 * m * 4 - 1) ∈
      (plane .argb area.start (arg (width * 4)) (2 * m * 4) (2 * n)).bytes :=
    ⟨rfl, 0, 2 * m * 4 - 1, le_rfl, by change 0 < 2 * n; omega, by omega,
      by change 2 * m * 4 - 1 < 2 * m * 4; omega, by change 2 * m * 4 - 1 = 0 + 0 * _ + _; omega⟩
  have hlt : 2 * m * 4 - 1 < area.size := (h _ hrow).2
  have hwidth := hout.width_eq
  have hstride : arg (width * 4) = 2 * m * 4 := by
    have hmul : (width * 4).toNat = width.toNat * 4 := by
      rw [UInt32.toNat_mul]
      change width.toNat * 4 % 2 ^ 32 = _
      exact Nat.mod_eq_of_lt (by omega)
    rw [arg, hmul, toInt_of_lt (by omega) (by omega)]
    omega
  have hle := len_le (tiled_argb (.inr hstride) hm hn) (fun p hp => by
    rw [List.mem_singleton.mp hp]
    exact h) (by omega)
  omega

theorem room_of_temp1_argb (t : Scratch) (hf : Even f a b)
    (hin : ∀ p ∈ (t.start f).dataToARGB.dst, Within Area.size p.bytes) :
    16 * (a * b) ≤ scratchSize := by
  have hdst : (t.start f).dataToARGB.dst = argbOf t.temp1Data a b := by
    rw [argbOf, ← hf.width_eq, ← hf.height_eq]
    rfl
  rw [hdst] at hin
  rw [← t.size_temp1Data]
  exact len_le (tiled_argb (.inr rfl) hf.nonneg.1 hf.nonneg.2) hin (by rw [t.size_temp1Data]; decide)

theorem room_of_converts_yCbCr (t : Scratch) (isRotate : Bool) (hf : Even f a b)
    (hwidth : (width.toNat : ℤ) = 2 * m) (hheight : (height.toNat : ℤ) = 2 * n)
    (h : Converts (convertFrame t isRotate f .yCbCr420_888 width height) f width height) :
    Requested width height m n ∧ 6 * (a * b) ≤ scratchSize ∧ 6 * (m * n) ≤ scratchSize := by
  rw [convertFrame] at h
  dsimp only at h
  split at h
  · next hsame =>
    have hout := requested_of_dimensions hwidth hheight h.size
    have hroom := room_of_frame hout (within_dst h Conversion.mem_call_self)
    obtain ⟨hw, hh, -⟩ := hsame
    obtain rfl : a = m := by
      have hfw : (f.width : ℤ) = width.toNat := hw
      have hfw' := hf.width_eq
      omega
    obtain rfl : b = n := by
      have hfh : (f.height : ℤ) = height.toNat := hh
      have hfh' := hf.height_eq
      omega
    exact ⟨hout, hroom, hroom⟩
  · have hsize := h.size
    rw [Conversion.call, Conversion.toNV12, i420ToNV12, dimensions_transform] at hsize
    have hout := requested_of_dimensions hwidth hheight hsize
    refine ⟨hout, room_of_temp1 t hf (within_dst h ?_),
      room_of_frame hout (within_dst h Conversion.mem_call_self)⟩
    exact Conversion.mem_call (Conversion.mem_scaleI420
      (Conversion.mem_rotateI420 Conversion.mem_call_self isRotate))

theorem Conversion.rotateARGB_size (c : Conversion) (isRotate : Bool) :
    (c.rotateARGB isRotate).fWidth = c.fWidth ∧ (c.rotateARGB isRotate).fHeight = c.fHeight ∨
      (c.rotateARGB isRotate).fWidth = c.fHeight ∧ (c.rotateARGB isRotate).fHeight = c.fWidth := by
  rw [Conversion.rotateARGB]
  split <;> split <;> first | exact .inl ⟨rfl, rfl⟩ | exact .inr ⟨rfl, rfl⟩

/-- The destination of a scaling. -/
theorem Conversion.exists_scaleARGB
    (hscale : c.fWidth ≠ width.toNat ∨ c.fHeight ≠ height.toNat) :
    ∃ s ∈ (c.scaleARGB width height).passes,
      s.dst = argb c.temp2Data (arg (width * 4)) (arg width) (arg height) := by
  rw [Conversion.scaleARGB, if_pos hscale]
  exact ⟨_, Conversion.mem_call_self, rfl⟩

theorem room_of_converts_argb (t : Scratch) (isRotate : Bool) (hf : Even f a b)
    (hlt : f.width < 2 ^ 16 ∧ f.height < 2 ^ 16)
    (hwidth : (width.toNat : ℤ) = 2 * m) (hheight : (height.toNat : ℤ) = 2 * n)
    (h : Converts (convertFrame t isRotate f .rgba8888 width height) f width height) :
    Requested width height m n ∧ 16 * (a * b) ≤ scratchSize ∧ 16 * (m * n) ≤ scratchSize := by
  have hfw := hf.width_eq
  have hfh := hf.height_eq
  rw [convertFrame] at h
  dsimp only at h
  split at h
  · next hsame =>
    have hout := requested_of_dimensions hwidth hheight h.size
    have hplane := within_dst h Conversion.mem_call_self _ (List.mem_singleton_self _)
    rw [hout.arg_width, hout.arg_height] at hplane
    have hroom := argb_le hout hplane rfl
    obtain ⟨hw, hh, -⟩ := hsame
    obtain rfl : a = m := by
      have hw' : (f.width : ℤ) = width.toNat := hw
      omega
    obtain rfl : b = n := by
      have hh' : (f.height : ℤ) = height.toNat := hh
      omega
    exact ⟨hout, hroom, hroom⟩
  · have hfirst : 16 * (a * b) ≤ scratchSize := by
      refine room_of_temp1_argb t hf (within_dst h ?_)
      exact Conversion.mem_call (Conversion.mem_scaleARGB
        (Conversion.mem_rotateARGB Conversion.mem_call_self isRotate))
    have hsize := h.size
    rw [Conversion.call, Conversion.copyARGB, memcpy, dimensions_copy, Conversion.scaleARGB] at hsize
    by_cases hscale : (((t.start f).call (t.start f).dataToARGB).rotateARGB isRotate).fWidth ≠
        width.toNat ∨ (((t.start f).call (t.start f).dataToARGB).rotateARGB isRotate).fHeight ≠
        height.toNat
    · rw [if_pos hscale] at hsize
      have hout := requested_of_dimensions hwidth hheight (dimensions_transform.symm.trans hsize)
      obtain ⟨s, hs, hdst⟩ := Conversion.exists_scaleARGB hscale
      have hplane := within_dst h (Conversion.mem_call hs)
      rw [hdst, hout.arg_width, hout.arg_height] at hplane
      exact ⟨hout, hfirst,
        argb_le hout (hplane _ (List.mem_singleton_self _)) (Scratch.size_temp2Data _)⟩
    · push Not at hscale
      obtain ⟨hw, hh⟩ := hscale
      rcases ((t.start f).call (t.start f).dataToARGB).rotateARGB_size isRotate with
        ⟨hrw, hrh⟩ | ⟨hrw, hrh⟩
      · have hw' : (f.width : ℤ) = width.toNat := hrw.symm.trans hw
        have hh' : (f.height : ℤ) = height.toNat := hrh.symm.trans hh
        obtain rfl : a = m := by omega
        obtain rfl : b = n := by omega
        exact ⟨⟨hwidth, hheight, by omega, by omega⟩, hfirst, hfirst⟩
      · have hw' : (f.height : ℤ) = width.toNat := hrw.symm.trans hw
        have hh' : (f.width : ℤ) = height.toNat := hrh.symm.trans hh
        obtain rfl : b = m := by omega
        obtain rfl : a = n := by omega
        exact ⟨⟨hwidth, hheight, by omega, by omega⟩, hfirst, by rw [Int.mul_comm b a]; exact hfirst⟩

theorem range_len_le {b : Area} {lo len len' : ℤ} (h : range b lo len ⊆ range b lo len')
    (hpos : 0 < len) : len ≤ len' := by
  have hlast : lo + len - 1 < lo + len' :=
    (h (show (b, lo + len - 1) ∈ range b lo len from
      ⟨rfl, by change lo ≤ lo + len - 1; omega, by change lo + len - 1 < lo + len; omega⟩)).2.2
  omega

theorem room_of_converts_blob (t : Scratch) (isRotate : Bool) (hf : Even f a b)
    (h : Converts (convertFrame t isRotate f .blob width height) f width height) :
    6 * (a * b) ≤ scratchSize ∧ f.width = width.toNat ∧ f.height = height.toNat := by
  have hsize := h.size
  have hsound := h.sound
  rw [convertFrame] at hsize hsound
  rw [Conversion.call, memcpy, dimensions_copy] at hsize
  obtain ⟨hw, hh⟩ := Prod.mk.inj hsize
  refine ⟨?_, Nat.cast_injective hw, Nat.cast_injective hh⟩
  obtain ⟨htakes, hsafe, -⟩ := hsound
  by_cases hpos : 0 < 6 * (a * b)
  · set n := frameSize f.width f.height with hn
    have hraw (area : Area) : (plane .raw area.start n n 1).bytes = range area 0 n :=
      plane_bytes (.inr rfl) (by omega) (by omega)
    have hsrc : (plane .raw Area.data.start n n 1).bytes = bytes f.image := htakes
    rw [hraw, hf.image_eq, (tiled_biplanarOf hf.nonneg.1 hf.nonneg.2).bytes_eq] at hsrc
    have hlen : 6 * (a * b) - 0 ≤ n := range_len_le hsrc.ge (by omega)
    have hdst : Within Area.size (range .frame 0 n) := by
      rw [← hraw]
      exact hsafe.within _ (List.mem_append_right _ (List.mem_singleton_self _))
    have hroom := hdst.range_le (by omega)
    change 0 + (n : ℤ) ≤ scratchSize at hroom
    omega
  · have hscratch : (scratchSize : ℤ) = 16000000 := rfl
    omega

/-! ### The frames that are accepted -/

/-- The message that is being read. -/
def Pc.reading : Pc → Option Reading
  | .data r | .tail r => some r
  | .header | .clear | .exited => none

/-- The width and height of a message are two bytes each. -/
structure Short (s : State) : Prop where
  delivered : ∀ f ∈ s.delivered, f.width < 2 ^ 16 ∧ f.height < 2 ^ 16
  reading : ∀ r ∈ s.pc.reading, r.width < 2 ^ 16 ∧ r.height < 2 ^ 16

theorem byte_lt (readBuf : List UInt8) (k : ℕ) : byte readBuf k < 2 ^ 8 := UInt8.toNat_lt _

theorem reading_next {r r' : Reading} (h : r' ∈ r.next.reading) :
    r'.width = r.width ∧ r'.height = r.height := by
  rw [Reading.next] at h
  split at h
  · obtain rfl := Option.some.inj h
    exact ⟨rfl, rfl⟩
  · obtain rfl := Option.some.inj h
    exact ⟨rfl, rfl⟩

theorem Short.gotHeader {s : State} (h : Short s) (readBuf : List UInt8) :
    Short (s.gotHeader readBuf) := by
  have hwidth : width readBuf < 2 ^ 16 := by
    have hhigh := byte_lt readBuf 16
    have hlow := byte_lt readBuf 17
    rw [Webcam.width]
    omega
  have hheight : height readBuf < 2 ^ 16 := by
    have hhigh := byte_lt readBuf 18
    have hlow := byte_lt readBuf 19
    rw [Webcam.height]
    omega
  rw [State.gotHeader]
  split
  · exact h
  · split
    · refine ⟨h.delivered, fun r hr => ?_⟩
      cases hr
    · split
      · exact h
      · refine ⟨h.delivered, fun r hr => ?_⟩
        obtain ⟨hw, hh⟩ := reading_next hr
        rw [hw, hh]
        exact ⟨hwidth, hheight⟩

theorem Short.recv {s : State} {max n : ℕ} {x : List UInt8 × State} (h : Short s)
    (hx : s.recv max n = some x) : Short x.2 ∧ x.2.pc = s.pc := by
  rw [State.recv] at hx
  split at hx
  · obtain rfl := Option.some.inj hx
    exact ⟨⟨h.delivered, h.reading⟩, rfl⟩
  · cases hx

theorem Short.goto {s : State} (h : Short s) {pc : Pc} (hpc : pc.reading = none) :
    Short { s with pc := pc } :=
  ⟨h.delivered, fun r hr => nomatch (hpc ▸ hr : r ∈ none)⟩

theorem Short.gotData {s : State} {r : Reading} (h : Short s) (hr : r ∈ s.pc.reading)
    (readBuf : List UInt8) : Short (s.gotData r readBuf) := by
  refine ⟨h.delivered, fun r' hr' => ?_⟩
  obtain ⟨hw, hh⟩ := reading_next hr'
  rw [hw, hh]
  exact h.reading r hr

theorem Short.gotTail {s : State} {r : Reading} (h : Short s) (hr : r ∈ s.pc.reading)
    (readBuf : List UInt8) : Short (s.gotTail r readBuf) := by
  rw [State.gotTail]
  split
  · exact h.goto rfl
  · split
    · exact h.goto rfl
    · refine ⟨fun f hf => ?_, fun r' hr' => nomatch hr'⟩
      rcases List.mem_append.mp hf with hf | hf
      · exact h.delivered f hf
      · obtain rfl := List.mem_singleton.mp hf
        exact h.reading r hr

theorem Short.step {answer : Answer} {s s' : State} (h : Short s) (hs : answer.step s = some s') :
    Short s' := by
  cases hpc : s.pc with
  | header =>
    cases answer with
    | bytes n =>
      simp only [Answer.step, hpc] at hs
      obtain ⟨x, hx, rfl⟩ := Option.map_eq_some_iff.mp hs
      exact (h.recv hx).1.gotHeader x.1
    | again =>
      simp only [Answer.step, hpc] at hs
      exact Option.some.inj hs ▸ h
    | failed =>
      simp only [Answer.step, hpc] at hs
      exact Option.some.inj hs ▸ h.goto rfl
  | clear =>
    cases answer with
    | bytes n =>
      simp only [Answer.step, hpc] at hs
      obtain ⟨x, hx, rfl⟩ := Option.map_eq_some_iff.mp hs
      exact (h.recv hx).1
    | again | failed =>
      simp only [Answer.step, hpc] at hs
      exact Option.some.inj hs ▸ h.goto rfl
  | data r =>
    cases answer with
    | bytes n =>
      simp only [Answer.step, hpc] at hs
      obtain ⟨x, hx, rfl⟩ := Option.map_eq_some_iff.mp hs
      obtain ⟨hshort, hsame⟩ := h.recv hx
      exact hshort.gotData (by rw [hsame, hpc]; rfl) x.1
    | again =>
      simp only [Answer.step, hpc] at hs
      exact Option.some.inj hs ▸ h
    | failed =>
      simp only [Answer.step, hpc] at hs
      exact Option.some.inj hs ▸ h.goto rfl
  | tail r =>
    cases answer with
    | bytes n =>
      simp only [Answer.step, hpc] at hs
      obtain ⟨x, hx, rfl⟩ := Option.map_eq_some_iff.mp hs
      obtain ⟨hshort, hsame⟩ := h.recv hx
      exact hshort.gotTail (by rw [hsame, hpc]; rfl) x.1
    | again | failed =>
      simp only [Answer.step, hpc] at hs
      exact Option.some.inj hs ▸ h.goto rfl
  | exited =>
    simp only [Answer.step, hpc] at hs
    cases hs

theorem short_opened (input : List UInt8) : Short (.opened input) where
  delivered f hf := by
    change f ∈ [] at hf
    exact nomatch hf
  reading r hr := by
    change r ∈ none at hr
    exact nomatch hr

theorem Short.run {input : List UInt8} {answers : List Answer} {s : State}
    (hrun : Machine.run Answer.step answers (.opened input) = some s) : Short s :=
  Machine.run_inv (fun _ _ _ h hs => h.step hs) (short_opened input) hrun

/-! ### All conversions -/

/-- **A conversion stays inside its buffers, takes each image where it was put, and makes the
requested size**, if and only if the frame and the request have room. -/
theorem convertFrame_iff {input : List UInt8} {answers : List Answer} {s : State}
    (hrun : Machine.run Answer.step answers (.opened input) = some s) (hf : f ∈ s.delivered)
    (heven : f.width % 2 = 0 ∧ f.height % 2 = 0)
    (hout : width.toNat % 2 = 0 ∧ height.toNat % 2 = 0) (t : Scratch) (isRotate : Bool)
    (format : PixelFormat) :
    Converts (convertFrame t isRotate f format width height) f width height ↔
      Fits f width height format := by
  have hscratch : (scratchSize : ℤ) = 16000000 := rfl
  have hlt := (Short.run hrun).delivered f hf
  obtain ⟨a, ha⟩ : ∃ a : ℕ, f.width = 2 * a := ⟨f.width / 2, by omega⟩
  obtain ⟨b, hb⟩ : ∃ b : ℕ, f.height = 2 * b := ⟨f.height / 2, by omega⟩
  obtain ⟨m, hm⟩ : ∃ m : ℕ, width.toNat = 2 * m := ⟨width.toNat / 2, by omega⟩
  obtain ⟨n, hn⟩ : ∃ n : ℕ, height.toNat = 2 * n := ⟨height.toNat / 2, by omega⟩
  have hframe : Even f a b := ⟨by omega, by omega⟩
  have hwidth : (width.toNat : ℤ) = 2 * m := by omega
  have hheight : (height.toNat : ℤ) = 2 * n := by omega
  have harea : f.width * f.height = 4 * (a * b) := by
    rw [ha, hb]
    ring
  have hout' : width.toNat * height.toNat = 4 * (m * n) := by
    rw [hm, hn]
    ring
  have hab : ((a * b : ℕ) : ℤ) = a * b := Nat.cast_mul a b
  have hmn : ((m * n : ℕ) : ℤ) = m * n := Nat.cast_mul m n
  have hargb : Converts (convertFrame t isRotate f .rgba8888 width height) f width height ↔
      Fits f width height .rgba8888 := by
    rw [Fits, harea, hout']
    constructor
    · intro h
      obtain ⟨hreq, hroom, hroom'⟩ := room_of_converts_argb t isRotate hframe hlt hwidth hheight h
      exact ⟨by omega, by omega, hreq.width_lt, hreq.height_lt⟩
    · rintro ⟨hroom, hroom', hw, hh⟩
      exact converts_argb t isRotate hframe ⟨hwidth, hheight, hw, hh⟩ (by omega) (by omega)
  cases format with
  | yCbCr420_888 =>
    rw [Fits, harea, hout']
    constructor
    · intro h
      obtain ⟨hreq, hroom, hroom'⟩ := room_of_converts_yCbCr t isRotate hframe hwidth hheight h
      exact ⟨by omega, by omega, hreq.width_lt, hreq.height_lt⟩
    · rintro ⟨hroom, hroom', hw, hh⟩
      exact converts_yCbCr t isRotate hframe ⟨hwidth, hheight, hw, hh⟩ (by omega) (by omega)
  | blob =>
    rw [Fits, harea]
    constructor
    · intro h
      obtain ⟨hroom, hw, hh⟩ := room_of_converts_blob t isRotate hframe h
      exact ⟨by omega, hw, hh⟩
    · rintro ⟨hroom, hw, hh⟩
      exact converts_blob t isRotate hframe ⟨by omega, by omega, by omega, by omega⟩ (by omega)
  | implementationDefined => exact hargb
  | rgba8888 => exact hargb
  | other format => exact hargb

/-- One message, and nothing else. -/
theorem accepts_small : ∃ s, Machine.run Answer.step [.bytes 34, .bytes 2]
    (.opened (streamOf [smallMessage])) = some s ∧ smallMessage.frame ∈ s.delivered := by
  have hrun : (Machine.run Answer.step [.bytes 34, .bytes 2]
      (.opened (streamOf [smallMessage]))).map (·.delivered) = some [smallMessage.frame] := by
    decide +kernel
  obtain ⟨s, hs, hdelivered⟩ := Option.map_eq_some_iff.mp hrun
  exact ⟨s, hs, by rw [hdelivered]; exact List.mem_singleton_self _⟩

/-- A frame of two by two pixels, turned by half and doubled. -/
theorem convertFrame_small : Converts (convertFrame .opened true smallMessage.frame .yCbCr420_888 4 4)
    smallMessage.frame 4 4 := by
  obtain ⟨s, hs, hdelivered⟩ := accepts_small
  exact (convertFrame_iff hs hdelivered (by decide) (by decide) _ _ _).mpr (by decide)

/-- The scratch buffers have no room for 2048 by 2048 pixels of four bytes. -/
theorem convertFrame_large : ∃ s, Machine.run Answer.step [.bytes 34, .bytes 2]
    (.opened (streamOf [smallMessage])) = some s ∧ smallMessage.frame ∈ s.delivered ∧
      ¬ Converts (convertFrame .opened false smallMessage.frame .rgba8888 2048 2048)
        smallMessage.frame 2048 2048 := by
  obtain ⟨s, hs, hdelivered⟩ := accepts_small
  refine ⟨s, hs, hdelivered, fun h => ?_⟩
  obtain ⟨-, -, hroom⟩ := room_of_converts_argb .opened false (a := 1) (b := 1) (m := 1024) (n := 1024)
    ⟨rfl, rfl⟩ (by decide) rfl rfl h
  exact absurd hroom (by decide)

end AndroidVendor.Webcam
