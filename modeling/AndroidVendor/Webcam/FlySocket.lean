import Mathlib.Algebra.Group.Nat.Defs
import Mathlib.Algebra.Ring.Int.Defs
import Mathlib.Data.List.Basic
import AndroidVendor.Lib.Machine

/-!
# The video receive loop of the webcam

`FlySocket::run` puts video messages together again from what `recv` returns. A step is one `recv`
and what the loop does up to the next one; the answer is the environment's.

`input` is what the server has written and `recv` has not returned yet. `delivered` and `accesses`
are history variables: the frames that were copied to `videoFrame`, and where `memcpy` has written.
-/

namespace AndroidVendor.Webcam

/-- `4096 * 4`, the size of `readBuf`. -/
def readBufSize : ℕ := 4096 * 4

/-- `4096 * 4096 * 3 / 2`, the size of `videoFrame->data`. -/
def frameDataSize : ℕ := 4096 * 4096 * 3 / 2

/-- `4000 * 4000 * 3 / 2`. -/
def maxDataSize : ℕ := 4000 * 4000 * 3 / 2

/-- A write of `len` bytes at `offset` of a buffer of `size` bytes. -/
structure Access where
  size : ℕ
  offset : ℕ
  len : ℕ
  deriving DecidableEq, Repr

def Access.InBounds (a : Access) : Prop := a.offset + a.len ≤ a.size

instance (a : Access) : Decidable a.InBounds := inferInstanceAs (Decidable (_ ≤ _))

/-- `struct videoFrame`, the part of `data` that was copied. -/
structure VideoFrame where
  width : ℕ
  height : ℕ
  fTime : UInt64
  data : List UInt8
  deriving DecidableEq, Repr

/-- What `recv` returns: bytes, −1 with `errno` 11, or 0 or −1 with another `errno`. -/
inductive Answer
  | bytes (n : ℕ)
  | again
  | failed
  deriving DecidableEq, Repr

/-- The variables of a message that is being read; `temp` is what has been copied to `tempData`. -/
structure Reading where
  dataSize : ℕ
  width : ℕ
  height : ℕ
  fTime : UInt64
  temp : List UInt8
  recvLen : ℕ
  willReadLen : ℕ
  deriving DecidableEq, Repr

/-- The `recv` that is next. -/
inductive Pc
  | header
  | clear
  | data (r : Reading)
  | tail (r : Reading)
  | exited
  deriving DecidableEq, Repr

structure State where
  pc : Pc
  input : List UInt8
  delivered : List VideoFrame
  accesses : List Access
  deriving DecidableEq, Repr

def State.opened (input : List UInt8) : State where
  pc := .header
  input := input
  delivered := []
  accesses := []

/-! ### The fields of the header -/

def byte (readBuf : List UInt8) (k : ℕ) : ℕ := (readBuf.getD k 0).toNat

def dataSize (readBuf : List UInt8) : ℕ :=
  byte readBuf 2 * 2 ^ 24 + byte readBuf 3 * 2 ^ 16 + byte readBuf 4 * 2 ^ 8 + byte readBuf 5

def width (readBuf : List UInt8) : ℕ := byte readBuf 16 * 2 ^ 8 + byte readBuf 17

def height (readBuf : List UInt8) : ℕ := byte readBuf 18 * 2 ^ 8 + byte readBuf 19

/-- `b << n` as an `int`, extended to 64 bits. The language leaves a shift by 32 or more undefined;
the processor takes the count modulo 32. -/
def shiftInt (b : UInt8) (n : ℕ) : UInt64 :=
  .ofBitVec (((BitVec.ofNat 32 b.toNat) <<< (n % 32)).signExtend 64)

def fTime (readBuf : List UInt8) : UInt64 :=
  (shiftInt (readBuf.getD 20 0) 56 &&& 0xff00000000000000) +
    (shiftInt (readBuf.getD 21 0) 48 &&& 0x00ff000000000000) +
    (shiftInt (readBuf.getD 22 0) 40 &&& 0x0000ff0000000000) +
    (shiftInt (readBuf.getD 23 0) 32 &&& 0x000000ff00000000) +
    (shiftInt (readBuf.getD 24 0) 24 &&& 0x00000000ff000000) +
    (shiftInt (readBuf.getD 25 0) 16 &&& 0x0000000000ff0000) +
    (shiftInt (readBuf.getD 26 0) 8 &&& 0x000000000000ff00) +
    (shiftInt (readBuf.getD 27 0) 0 &&& 0x00000000000000ff)

/-- `width * height * 3 / 2`, an `int` that `memcpy` takes for a size; an overflow wraps around. -/
def frameSize (width height : ℕ) : ℕ :=
  let product := width * height * 3 % 2 ^ 32
  if product < 2 ^ 31 then product / 2 else (2 ^ 64 - (2 ^ 32 - product) / 2) % 2 ^ 64

/-- `dataSize - 30 + 4`, the size of `tempData`. -/
def tempSize (dataSize : ℕ) : ℕ := (dataSize + 2 ^ 32 - 26) % 2 ^ 32

/-! ### The loop -/

/-- `recv` of at most `max` bytes. -/
def State.recv (s : State) (max n : ℕ) : Option (List UInt8 × State) :=
  if 0 < n ∧ n ≤ max ∧ n ≤ s.input.length then
    some (s.input.take n, { s with input := s.input.drop n })
  else none

def Reading.copied (r : Reading) (bytes : List UInt8) : Reading :=
  { r with temp := r.temp ++ bytes, recvLen := r.recvLen + bytes.length }

/-- The test of the inner loop, and what it makes of `willReadLen`. -/
def Reading.next (r : Reading) : Pc :=
  if r.recvLen < r.dataSize + 2 then
    .data { r with willReadLen := min r.willReadLen (r.dataSize + 2 - r.recvLen) }
  else .tail r

/-- The loop body up to the first `recv` of the inner loop. -/
def State.gotHeader (s : State) (readBuf : List UInt8) : State :=
  if readBuf.length < 28 then s
  else if readBuf.getD 0 0 ≠ 0x7e ∨ readBuf.getD 1 0 ≠ 0xa5 then { s with pc := .clear }
  else if maxDataSize < dataSize readBuf then s
  else
    let size := dataSize readBuf
    let r : Reading :=
      { dataSize := size, width := width readBuf, height := height readBuf, fTime := fTime readBuf
        temp := readBuf.drop 28, recvLen := readBuf.length, willReadLen := readBufSize }
    { s with pc := r.next, accesses := s.accesses ++ [⟨tempSize size, 0, readBuf.length - 28⟩] }

def State.gotData (s : State) (r : Reading) (readBuf : List UInt8) : State :=
  { s with
    pc := (r.copied readBuf).next
    accesses := s.accesses ++ [⟨tempSize r.dataSize, r.temp.length, readBuf.length⟩] }

def State.gotTail (s : State) (r : Reading) (readBuf : List UInt8) : State :=
  if readBuf.length < 2 then { s with pc := .header }
  else if readBuf.getD 0 0 ≠ 0x7e ∨ readBuf.getD 1 0 ≠ 0x0d then { s with pc := .clear }
  else
    let size := frameSize r.width r.height
    { s with
      pc := .header
      delivered := s.delivered ++ [⟨r.width, r.height, r.fTime, r.temp.take size⟩]
      accesses := s.accesses ++ [⟨frameDataSize, 0, size⟩] }

/-- One `recv` of the loop. -/
def Answer.step (answer : Answer) (s : State) : Option State :=
  match s.pc, answer with
  | .header, .bytes n => (s.recv readBufSize n).map fun r => r.2.gotHeader r.1
  | .header, .again => some s
  | .header, .failed => some { s with pc := .exited }
  | .clear, .bytes n => (s.recv readBufSize n).map fun r => r.2
  | .clear, _ => some { s with pc := .header }
  | .data r, .bytes n => (s.recv r.willReadLen n).map fun x => x.2.gotData r x.1
  | .data _, .again => some s
  | .data _, .failed => some { s with pc := .header }
  | .tail r, .bytes n => (s.recv 2 n).map fun x => x.2.gotTail r x.1
  | .tail _, _ => some { s with pc := .header }
  | .exited, _ => none

/-! ### Video messages -/

/-- The high byte first. -/
def be16 (n : ℕ) : List UInt8 := [.ofNat (n >>> 8), .ofNat n]

def be32 (n : ℕ) : List UInt8 := be16 (n >>> 16) ++ be16 n

def be64 (n : ℕ) : List UInt8 := be32 (n >>> 32) ++ be32 n

/-- A well-formed video message; `middle` is version, message id, reserved bytes and format. -/
structure VideoMessage where
  middle : List UInt8
  width : ℕ
  height : ℕ
  time : UInt64
  payload : List UInt8
  middle_length : middle.length = 10
  width_lt : width < 2 ^ 16
  height_lt : height < 2 ^ 16
  payload_length : payload.length = width * height * 3 / 2
  size_lt : payload.length + 26 < 2 ^ 32

/-- Start mark, the length of all but four bytes, the other fields, the payload, end mark. -/
def VideoMessage.bytes (m : VideoMessage) : List UInt8 :=
  [0x7e, 0xa5] ++ be32 (m.payload.length + 26) ++ m.middle ++ be16 m.width ++ be16 m.height ++
    be64 m.time.toNat ++ m.payload ++ [0x7e, 0x0d]

def VideoMessage.frame (m : VideoMessage) : VideoFrame :=
  ⟨m.width, m.height, m.time, m.payload⟩

/-- The frames are delivered once each and in their order, all of them once the stream has been
read, and no write leaves its buffer. -/
def Delivers (ms : List VideoMessage) (s : State) : Prop :=
  s.delivered <+: ms.map VideoMessage.frame ∧
    (s.input = [] → s.delivered = ms.map VideoMessage.frame) ∧ ∀ a ∈ s.accesses, a.InBounds

end AndroidVendor.Webcam
