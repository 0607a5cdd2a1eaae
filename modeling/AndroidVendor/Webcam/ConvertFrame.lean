import AndroidVendor.Lib.Planes
import AndroidVendor.Webcam.FlySocket

/-!
# Converting a frame

`FlySocket::convertFrame` makes an image of the requested size and format from the frame in
`videoFrame`, by passes of libyuv through two scratch buffers that it swaps after a pass. What is
kept of a pass is the planes that it reads and writes.

## Conventions

* `f_width` and `f_height` are `int`s, `width` and `height` are 32 bits wide. A product of `int`s
  that overflows wraps around.
* libyuv takes its strides and dimensions as `int`s, and touches the planes they give.
-/

namespace AndroidVendor.Webcam

open Planes

/-- The memory `convertFrame` works in: `videoFrame->data`, the two scratch buffers and the output
buffer. -/
inductive Area
  | data
  | scratch1
  | scratch2
  | frame
  deriving DecidableEq, Repr

/-- `2000 * 2000 * 4`. -/
def scratchSize : ℕ := 2000 * 2000 * 4

def Area.size : Area → ℤ
  | .data => frameDataSize
  | .scratch1 | .scratch2 | .frame => scratchSize

inductive Content
  | y
  | u
  | v
  | uv
  | vu
  | argb
  | raw
  deriving DecidableEq, Repr

structure Pointer where
  area : Area
  offset : ℤ
  deriving DecidableEq, Repr

def Pointer.add (p : Pointer) (n : ℤ) : Pointer := { p with offset := p.offset + n }

def Area.start (area : Area) : Pointer := ⟨area, 0⟩

/-- A value as an `int`. -/
def toInt (x : ℤ) : ℤ := x.bmod (2 ^ 32)

/-! ### libyuv -/

abbrev ImagePlane := Plane Area Content

def plane (content : Content) (p : Pointer) (stride width rows : ℤ) : ImagePlane :=
  ⟨content, p.area, p.offset, stride, width, rows⟩

/-- The planes of an NV12 or NV21 image. -/
def biplanar (chroma : Content) (y : Pointer) (strideY : ℤ) (c : Pointer) (strideC width height : ℤ) :
    List ImagePlane :=
  [plane .y y strideY width height, plane chroma c strideC ((width + 1) / 2 * 2) ((height + 1) / 2)]

/-- The pointers and strides of an I420 image. -/
structure Planar where
  y : Pointer
  strideY : ℤ
  u : Pointer
  strideU : ℤ
  v : Pointer
  strideV : ℤ

def Planar.planes (a : Planar) (width height : ℤ) : List ImagePlane :=
  [plane .y a.y a.strideY width height, plane .u a.u a.strideU ((width + 1) / 2) ((height + 1) / 2),
    plane .v a.v a.strideV ((width + 1) / 2) ((height + 1) / 2)]

def argb (p : Pointer) (stride width height : ℤ) : List ImagePlane :=
  [plane .argb p stride (width * 4) height]

inductive RotationMode
  | rotate90
  | rotate180
  | rotate270
  deriving DecidableEq, Repr

/-- What a rotation makes of a width and a height. -/
def RotationMode.turn (mode : RotationMode) (width height : ℤ) : ℤ × ℤ :=
  match mode with
  | .rotate180 => (width, height)
  | .rotate90 | .rotate270 => (height, width)

abbrev ImagePass := Pass Area Content

def nv21ToNV12 (srcY : Pointer) (srcStrideY : ℤ) (srcVU : Pointer) (srcStrideVU : ℤ) (dstY : Pointer)
    (dstStrideY : ℤ) (dstUV : Pointer) (dstStrideUV width height : ℤ) : ImagePass :=
  .transform (biplanar .vu srcY srcStrideY srcVU srcStrideVU width height)
    (biplanar .uv dstY dstStrideY dstUV dstStrideUV width height) width height

def nv21ToI420 (srcY : Pointer) (srcStrideY : ℤ) (srcVU : Pointer) (srcStrideVU : ℤ) (dst : Planar)
    (width height : ℤ) : ImagePass :=
  .transform (biplanar .vu srcY srcStrideY srcVU srcStrideVU width height) (dst.planes width height)
    width height

def i420Rotate (src dst : Planar) (width height : ℤ) (mode : RotationMode) : ImagePass :=
  let turned := mode.turn width height
  .transform (src.planes width height) (dst.planes turned.1 turned.2) turned.1 turned.2

def i420Scale (src : Planar) (srcWidth srcHeight : ℤ) (dst : Planar) (dstWidth dstHeight : ℤ) :
    ImagePass :=
  .transform (src.planes srcWidth srcHeight) (dst.planes dstWidth dstHeight) dstWidth dstHeight

def i420ToNV12 (src : Planar) (dstY : Pointer) (dstStrideY : ℤ) (dstUV : Pointer)
    (dstStrideUV width height : ℤ) : ImagePass :=
  .transform (src.planes width height) (biplanar .uv dstY dstStrideY dstUV dstStrideUV width height)
    width height

def nv21ToARGB (srcY : Pointer) (srcStrideY : ℤ) (srcVU : Pointer) (srcStrideVU : ℤ) (dst : Pointer)
    (dstStride width height : ℤ) : ImagePass :=
  .transform (biplanar .vu srcY srcStrideY srcVU srcStrideVU width height)
    (argb dst dstStride width height) width height

def argbRotate (src : Pointer) (srcStride : ℤ) (dst : Pointer) (dstStride width height : ℤ)
    (mode : RotationMode) : ImagePass :=
  let turned := mode.turn width height
  .transform (argb src srcStride width height) (argb dst dstStride turned.1 turned.2) turned.1 turned.2

def argbScale (src : Pointer) (srcStride srcWidth srcHeight : ℤ) (dst : Pointer)
    (dstStride dstWidth dstHeight : ℤ) : ImagePass :=
  .transform (argb src srcStride srcWidth srcHeight) (argb dst dstStride dstWidth dstHeight)
    dstWidth dstHeight

def memcpy (dst src : Pointer) (n : ℕ) : ImagePass :=
  .copy (plane .raw src n n 1) (plane .raw dst n n 1)

/-! ### `convertFrame` -/

/-- `temp1Data` and `temp2Data`: the scratch buffers, one each. -/
structure Scratch where
  temp1Data : Area
  temp2Data : Area
  perm : temp1Data = .scratch1 ∧ temp2Data = .scratch2 ∨ temp1Data = .scratch2 ∧ temp2Data = .scratch1

/-- The scratch buffers as `open` leaves them. -/
def Scratch.opened : Scratch := ⟨.scratch1, .scratch2, .inl ⟨rfl, rfl⟩⟩

def Scratch.swap (t : Scratch) : Scratch :=
  ⟨t.temp2Data, t.temp1Data, t.perm.symm.imp And.symm And.symm⟩

/-- The variables of `convertFrame`, and the passes it has made. -/
structure Conversion where
  scratch : Scratch
  fWidth : ℤ
  fHeight : ℤ
  passes : List ImagePass

namespace Conversion

def call (c : Conversion) (s : ImagePass) : Conversion := { c with passes := c.passes ++ [s] }

/-- `std::swap(temp1Data, temp2Data)`. -/
def swapData (c : Conversion) : Conversion := { c with scratch := c.scratch.swap }

/-- `std::swap(f_width, f_height)`. -/
def swapSize (c : Conversion) : Conversion := { c with fWidth := c.fHeight, fHeight := c.fWidth }

def temp1Data (c : Conversion) : Pointer := c.scratch.temp1Data.start

def temp2Data (c : Conversion) : Pointer := c.scratch.temp2Data.start

/-- `f_width * f_height`. -/
def area (c : Conversion) : ℤ := toInt (c.fWidth * c.fHeight)

/-- An I420 image at `base` for `f_width` and `f_height`, the luma stride `side`. -/
def planar (c : Conversion) (base : Pointer) (side : ℤ) : Planar where
  y := base
  strideY := side
  u := base.add c.area
  strideU := (side + 1) / 2
  v := (base.add c.area).add (c.area.tdiv 4)
  strideV := (side + 1) / 2

end Conversion

/-- An `unsigned` as an argument. -/
def arg (x : UInt32) : ℤ := toInt x.toNat

/-- An I420 image at `base` for `width` and `height`. -/
def planar (base : Pointer) (width height : UInt32) : Planar where
  y := base
  strideY := arg width
  u := base.add (width * height).toNat
  strideU := arg ((width + 1) / 2)
  v := (base.add (width * height).toNat).add (width * height / 4).toNat
  strideV := arg ((width + 1) / 2)

inductive PixelFormat
  | yCbCr420_888
  | blob
  | implementationDefined
  | rgba8888
  | other (format : ℤ)
  deriving DecidableEq, Repr

namespace Conversion

def rotateI420 (c : Conversion) (isRotate : Bool) : Conversion :=
  if isRotate = false then
    if c.fHeight > c.fWidth then
      (c.call (i420Rotate (c.planar c.temp1Data c.fWidth) (c.planar c.temp2Data c.fHeight)
        c.fWidth c.fHeight .rotate270)).swapData.swapSize
    else c
  else if c.fHeight > c.fWidth then
    (c.call (i420Rotate (c.planar c.temp1Data c.fWidth) (c.planar c.temp2Data c.fHeight)
      c.fWidth c.fHeight .rotate90)).swapData.swapSize
  else
    (c.call (i420Rotate (c.planar c.temp1Data c.fWidth) (c.planar c.temp2Data c.fWidth)
      c.fWidth c.fHeight .rotate180)).swapData

def scaleI420 (c : Conversion) (width height : UInt32) : Conversion :=
  if c.fWidth ≠ width.toNat ∨ c.fHeight ≠ height.toNat then
    (c.call (i420Scale (c.planar c.temp1Data c.fWidth) c.fWidth c.fHeight
      (Webcam.planar c.temp2Data width height) (arg width) (arg height))).swapData
  else c

def rotateARGB (c : Conversion) (isRotate : Bool) : Conversion :=
  if isRotate = false then
    if c.fHeight > c.fWidth then
      (c.call (argbRotate c.temp1Data (c.fWidth * 4) c.temp2Data (c.fHeight * 4) c.fWidth c.fHeight
        .rotate270)).swapData.swapSize
    else c
  else if c.fHeight > c.fWidth then
    (c.call (argbRotate c.temp1Data (c.fWidth * 4) c.temp2Data (c.fHeight * 4) c.fWidth c.fHeight
      .rotate90)).swapData.swapSize
  else
    (c.call (argbRotate c.temp1Data (c.fWidth * 4) c.temp2Data (c.fWidth * 4) c.fWidth c.fHeight
      .rotate180)).swapData

def scaleARGB (c : Conversion) (width height : UInt32) : Conversion :=
  if c.fWidth ≠ width.toNat ∨ c.fHeight ≠ height.toNat then
    let longer := if c.fHeight > c.fWidth then c.fHeight else c.fWidth
    let shorter := if c.fHeight > c.fWidth then c.fWidth else c.fHeight
    (c.call (argbScale c.temp1Data (longer * 4) longer shorter c.temp2Data (arg (width * 4))
      (arg width) (arg height))).swapData
  else c

end Conversion

namespace Conversion

/-- The frame is taken as it is. -/
def Same (c : Conversion) (isRotate : Bool) (width height : UInt32) : Prop :=
  c.fWidth = width.toNat ∧ c.fHeight = height.toNat ∧ isRotate = false

instance (c : Conversion) (isRotate : Bool) (width height : UInt32) :
    Decidable (c.Same isRotate width height) :=
  inferInstanceAs (Decidable (_ ∧ _))

/-- The calls of `convertFrame` that read `videoFrame->data` or write `frame`. -/
def dataToNV12 (c : Conversion) (width height : UInt32) : ImagePass :=
  nv21ToNV12 Area.data.start c.fWidth (Area.data.start.add c.area) c.fWidth Area.frame.start
    (arg width) (Area.frame.start.add (width * height).toNat) (arg width) (arg width) (arg height)

def dataToI420 (c : Conversion) : ImagePass :=
  nv21ToI420 Area.data.start c.fWidth (Area.data.start.add c.area) c.fWidth
    (c.planar c.temp1Data c.fWidth) c.fWidth c.fHeight

def toNV12 (c : Conversion) (width height : UInt32) : ImagePass :=
  i420ToNV12 (Webcam.planar c.temp1Data width height) Area.frame.start (arg width)
    (Area.frame.start.add (width * height).toNat) (arg width) (arg width) (arg height)

def dataToFrameARGB (c : Conversion) (width height : UInt32) : ImagePass :=
  nv21ToARGB Area.data.start c.fWidth (Area.data.start.add c.area) c.fWidth Area.frame.start
    (arg (width * 4)) (arg width) (arg height)

def dataToARGB (c : Conversion) : ImagePass :=
  nv21ToARGB Area.data.start c.fWidth (Area.data.start.add c.area) c.fWidth c.temp1Data (c.fWidth * 4)
    c.fWidth c.fHeight

def copyARGB (c : Conversion) (width height : UInt32) : ImagePass :=
  memcpy Area.frame.start c.temp1Data (width * height * 4).toNat

end Conversion

/-- The variables of `convertFrame` at its start. -/
def Scratch.start (t : Scratch) (videoFrame : VideoFrame) : Conversion where
  scratch := t
  fWidth := videoFrame.width
  fHeight := videoFrame.height
  passes := []

def convertFrame (scratch : Scratch) (isRotate : Bool) (videoFrame : VideoFrame)
    (format : PixelFormat) (width height : UInt32) : Conversion :=
  let c := scratch.start videoFrame
  match format with
  | .yCbCr420_888 =>
    if c.Same isRotate width height then c.call (c.dataToNV12 width height)
    else
      let c := ((c.call c.dataToI420).rotateI420 isRotate).scaleI420 width height
      c.call (c.toNV12 width height)
  | .blob =>
    c.call (memcpy Area.frame.start Area.data.start (frameSize videoFrame.width videoFrame.height))
  | .implementationDefined | .rgba8888 | .other _ =>
    if c.Same isRotate width height then c.call (c.dataToFrameARGB width height)
    else
      let c := ((c.call c.dataToARGB).rotateARGB isRotate).scaleARGB width height
      c.call (c.copyARGB width height)

/-- The image that the receive loop leaves in `videoFrame`. -/
def VideoFrame.image (f : VideoFrame) : List ImagePlane :=
  biplanar .vu Area.data.start f.width (Area.data.start.add (f.width * f.height)) f.width f.width
    f.height

/-- Every pass takes what the one before it has made, its planes are apart and lie in their buffers,
and the last one makes an image of the requested size. -/
structure Converts (c : Conversion) (f : VideoFrame) (width height : UInt32) : Prop where
  sound : Sound Area.size f.image c.passes
  size : dimensions (f.width, f.height) c.passes = ((width.toNat : ℤ), (height.toNat : ℤ))

/-- The frame and the image that is requested have room in the buffers. -/
def Fits (f : VideoFrame) (width height : UInt32) : PixelFormat → Prop
  | .yCbCr420_888 =>
    f.width * f.height * 3 / 2 ≤ scratchSize ∧ width.toNat * height.toNat * 3 / 2 ≤ scratchSize ∧
      width.toNat < 2 ^ 31 ∧ height.toNat < 2 ^ 31
  | .blob =>
    f.width * f.height * 3 / 2 ≤ scratchSize ∧ f.width = width.toNat ∧ f.height = height.toNat
  | .implementationDefined | .rgba8888 | .other _ =>
    f.width * f.height * 4 ≤ scratchSize ∧ width.toNat * height.toNat * 4 ≤ scratchSize ∧
      width.toNat < 2 ^ 31 ∧ height.toNat < 2 ^ 31

instance (f : VideoFrame) (width height : UInt32) : ∀ format, Decidable (Fits f width height format)
  | .yCbCr420_888 | .blob | .implementationDefined | .rgba8888 | .other _ =>
    inferInstanceAs (Decidable (_ ∧ _))

end AndroidVendor.Webcam
