import Mathlib.Algebra.BigOperators.Intervals
import AndroidVendor.Lib.Loop
import AndroidVendor.Audio.OutWrite

/-!
# The audio input stream

The branch of `in_read` that reads from the audio server: it receives one message into `recv_buf`
and copies the samples in it to the caller. The message announces its own length and that of the
samples; the first drives the receive loop, the second the copy.

## Conventions

* `int` has 32 bits. Whether `char` is signed and how wide `long` and `size_t` are is up to the
  target: `Abi` says so. On ARM, `char` is unsigned, and the library is built for both widths.
* `Peer.answers` is what `recv` answers, call by call: `none` for −1 and `some n` for `n` bytes, or
  fewer where fewer were asked for or are there. An end of the stream reads as 0 bytes for ever.
* A call that touches `recv_buf` outside its bounds, or computes a `long` that does not fit, ends in
  `outOfRange`, and one that has not returned after `fuel` rounds of the receive loop in `none`.

## Main definitions

* `Abi`: the target.
* `Reception.loop`: the receive loop.
* `inRead`: one call.
-/

namespace AndroidVendor.Audio

/-- `SOCKET_BUFFER`, the size of `recv_buf`. -/
def socketBuffer : ℕ := 8192

/-- `sizeof(PC_SPEAK_DATA)`. -/
def speakDataSize : ℕ := 20

/-- `AUDIO_CHANNEL_IN_STEREO`. -/
def channelInStereo : UInt32 := 12

/-- `in->buffer_size` of `adev_open_input_stream`, what a client of this configuration reads. -/
def inBufferSize (channelMask sampleRate : UInt32) : ℕ :=
  let sampleRate := if sampleRate < 8000 then 8000 else sampleRate
  if channelMask = channelInStereo then (sampleRate * 80 / 1000).toNat
  else (sampleRate * 40 / 1000).toNat

/-- The server's end of `socket_cc`: the bytes that were not received yet, and the answers. -/
structure Peer where
  unread : List UInt8
  answers : ℕ → Option ℕ

def Peer.recv (p : Peer) (len : ℕ) : Option (List UInt8) × Peer :=
  ((p.answers 0).map fun n => p.unread.take (min n len),
    { unread := p.unread.drop (min ((p.answers 0).getD 0) len)
      answers := fun k => p.answers (k + 1) })

/-! ### The fields of a message -/

/-- What the target decides. -/
structure Abi where
  charSigned : Bool
  /-- `long` and `size_t` have 64 bits, or else 32. -/
  lp64 : Bool
  deriving DecidableEq, Repr

/-- A `char` as an `int`, taken for an `unsigned int`. -/
def Abi.charBits (abi : Abi) (b : UInt8) : UInt32 :=
  if abi.charSigned then b.toInt8.toInt32.toUInt32 else b.toUInt32

/-- Four bytes put together, the high byte first. The last one is added without a mask. -/
def Abi.field (abi : Abi) (buf : List UInt8) (k : ℕ) : UInt32 :=
  let b (i : ℕ) : UInt32 := abi.charBits (buf.getD (k + i) 0)
  ((b 0 <<< 24) &&& (0xFF000000 : UInt32)) + ((b 1 <<< 16) &&& (0xFF0000 : UInt32)) +
    ((b 2 <<< 8) &&& (0xFF00 : UInt32)) + b 3

/-- `allLen`, a `long`. -/
def Abi.allLen (abi : Abi) (buf : List UInt8) : ℤ :=
  if abi.lp64 then (abi.field buf 2).toNat else (abi.field buf 2).toInt32.toInt

/-- `allLen + 4` does not fit a `long`. -/
def Abi.Overflows (abi : Abi) (buf : List UInt8) : Prop :=
  abi.lp64 = false ∧ 2 ^ 31 ≤ abi.allLen buf + 4

instance (abi : Abi) (buf : List UInt8) : Decidable (abi.Overflows buf) :=
  inferInstanceAs (Decidable (_ ∧ _))

/-- `allLen + 4`, how many bytes the message is to have; none if that is negative. -/
def Abi.total (abi : Abi) (buf : List UInt8) : ℕ := (abi.allLen buf + 4).toNat

/-- `dataLen`, an `int` that is compared with a `size_t` and taken for one. -/
def Abi.dataLen (abi : Abi) (buf : List UInt8) : ℕ :=
  if abi.lp64 then (abi.field buf 14).toInt32.toInt64.toUInt64.toNat else (abi.field buf 14).toNat

/-- The two bytes at `k`. -/
def marked (buf : List UInt8) (k : ℕ) (a b : UInt8) : Bool :=
  buf.getD k 0 == a && buf.getD (k + 1) 0 == b

/-! ### Receiving -/

inductive Status
  | receiving
  | failed
  | outOfRange
  deriving DecidableEq, Repr

/-- The variables of the receive loop. -/
structure Reception where
  status : Status
  recvBuf : List UInt8
  recvLen : ℕ
  peer : Peer

/-- After `memset` and before the first `recv`. -/
def Reception.cleared (p : Peer) : Reception where
  status := .receiving
  recvBuf := .replicate socketBuffer 0
  recvLen := 0
  peer := p

/-- `recv` of at most `len` bytes to `recv_buf + recvLen`. -/
def Reception.recv (r : Reception) (len : ℕ) : Reception :=
  match r.peer.recv len with
  | (none, p) => { r with status := .failed, peer := p }
  | (some data, p) =>
    if r.recvLen + data.length ≤ r.recvBuf.length then
      { r with
        recvBuf := r.recvBuf.take r.recvLen ++ data ++ r.recvBuf.drop (r.recvLen + data.length)
        recvLen := r.recvLen + data.length
        peer := p }
    else { r with status := .outOfRange, peer := p }

/-- `while (recvLen < (allLen + 4))`, left where `recv` fails. -/
def Reception.Lacks (total : ℕ) (r : Reception) : Prop :=
  r.status = .receiving ∧ r.recvLen < total

instance (total : ℕ) (r : Reception) : Decidable (r.Lacks total) :=
  inferInstanceAs (Decidable (_ ∧ _))

def Reception.loop (total fuel : ℕ) (r : Reception) : Option Reception :=
  Loop.whileLoop (Reception.Lacks total) (fun r => some (r.recv (total - r.recvLen))) fuel r

/-! ### One call -/

/-- What a call leaves: the caller's buffer, how many bytes were copied to it, how many were
received, what is returned, and whether `sendOpenStream` was called. -/
structure Returned where
  buffer : List UInt8
  copied : ℕ
  recvLen : ℕ
  ret : ℤ
  opens : Bool
  deriving DecidableEq, Repr

inductive Outcome
  | outOfRange
  | returned (r : Returned)
  deriving DecidableEq, Repr

/-- A `size_t` returned as a `ssize_t`. -/
def Abi.ssize (abi : Abi) (n : ℕ) : ℤ :=
  if abi.lp64 then (BitVec.ofNat 64 n).toInt else (BitVec.ofNat 32 n).toInt

/-- `return 0` after `recvLen` bytes; the buffer is as `memset` left it. -/
def nothing (bytes recvLen : ℕ) (opens : Bool) : Outcome :=
  .returned
    { buffer := .replicate bytes 0, copied := 0, recvLen := recvLen, ret := 0, opens := opens }

/-- `memcpy` of `n` bytes to the buffer, and `return retLen`. -/
def Reception.copy (abi : Abi) (r : Reception) (bytes n retLen : ℕ) : Outcome :=
  if speakDataSize - 2 + n ≤ r.recvBuf.length then
    .returned
      { buffer := (r.recvBuf.drop (speakDataSize - 2)).take n ++ (List.replicate bytes 0).drop n
        copied := n, recvLen := r.recvLen, ret := abi.ssize retLen, opens := false }
  else .outOfRange

/-- What is done with a message that was received. -/
def Reception.handle (abi : Abi) (r : Reception) (bytes : ℕ) : Outcome :=
  if marked r.recvBuf 8 0x04 0x51 then
    if abi.dataLen r.recvBuf = bytes then r.copy abi bytes bytes bytes
    else if bytes < abi.dataLen r.recvBuf then r.copy abi bytes bytes bytes
    else r.copy abi bytes (abi.dataLen r.recvBuf) (abi.dataLen r.recvBuf)
  else if marked r.recvBuf 8 0x04 0x4e then nothing bytes r.recvLen true
  else nothing bytes r.recvLen false

/-- The end of the receive loop. -/
def Reception.finish (abi : Abi) (r : Reception) (bytes : ℕ) : Outcome :=
  match r.status with
  | .receiving => r.handle abi bytes
  | .failed => nothing bytes r.recvLen false
  | .outOfRange => .outOfRange

/-- The server branch of `in_read`. -/
def inRead (abi : Abi) (fuel : ℕ) (isConnectCc : Bool) (bytes : ℕ) (p : Peer) : Option Outcome :=
  if isConnectCc then
    let r := (Reception.cleared p).recv socketBuffer
    if r.status ≠ .receiving ∨ r.recvLen < 6 then some (nothing bytes r.recvLen false)
    else if marked r.recvBuf 0 0x7e 0xa5 then
      if abi.Overflows r.recvBuf then some .outOfRange
      else (r.loop (abi.total r.recvBuf) fuel).map fun r => r.finish abi bytes
    else some (nothing bytes r.recvLen false)
  else
    some (.returned
      { buffer := .replicate bytes 0, copied := 0, recvLen := 0, ret := abi.ssize bytes
        opens := false })

end AndroidVendor.Audio
