import Mathlib.Algebra.Group.Nat.Defs
import Mathlib.Algebra.Ring.Int.Defs
import Mathlib.Logic.Function.Basic
import AndroidVendor.Lib.Machine
import AndroidVendor.Lib.Framing

/-!
# The audio output stream

`out_write` sends one message in three non-blocking sends (head, samples, tail) under
`sendMutex_cc`; `sendOpenStream` sends its message in one. Both run on any number of threads,
`sendOpenStream` also on the thread that connects and closes `socket_cc`. A step is one access to
what the threads share, so the runs are the interleavings that the mutex permits.

## Conventions

* The answer to a `send` is `none` for −1 and `some n` for `n` bytes taken.
* `wire` is what has been written on the connection that `socket_cc` refers to, `closed` what was
  written on the ones before.
* `cut` is a history variable: a message on this connection was left unfinished.
-/

namespace AndroidVendor.Audio

/-- `AUDIO_FORMAT_PCM_16_BIT`. -/
def pcm16Bit : UInt32 := 1

/-- `struct stub_stream_out`, as far as the sends read it. -/
structure StubStreamOut where
  ptr : ℕ
  format : UInt32
  channelMask : UInt32
  sampleRate : UInt32
  deriving DecidableEq, Repr

/-- The arguments of `out_write`; `buffer` is `[]` where nothing is to be sent. -/
structure Write where
  out : StubStreamOut
  buffer : List UInt8
  deriving DecidableEq, Repr

/-- `send_head`, `send_play` and `send_tail` of `protocol.h`. -/
def sendHead : List UInt8 :=
  [0x7e, 0xa5, 0x00, 0x00, 0x00, 0x14, 0x00, 0x02,
    0x04, 0x4b, 0x00, 0x00, 0x00, 0x00, 0x00, 0x00,
    0x00, 0x00]

def sendPlay : List UInt8 :=
  [0x7e, 0xa5, 0x00, 0x00, 0x00, 0x12, 0x00, 0x02,
    0x04, 0x4a, 0x00, 0x00, 0x00, 0x00, 0x3e, 0x80,
    0x00, 0x02, 0x00, 0x02, 0x7e, 0x0d]

def sendTail : List UInt8 := [0x7e, 0x0d]

/-- `sizeof(PC_PLAY_DATA)`. -/
def playDataSize : ℕ := 20

/-- The assignments to `send_head`, in the order of the source. -/
def headFields (w : Write) : List (ℕ × UInt8) :=
  let bytes := w.buffer.length
  let allLen := (playDataSize + bytes - 4) % 2 ^ 32
  let channels : UInt8 := if w.out.channelMask = w.out.sampleRate then 0x01 else 0x02
  let format : UInt8 := if w.out.format = pcm16Bit then 0x02 else 0x01
  [(2, .ofNat (allLen >>> 24)), (3, .ofNat (allLen >>> 16)), (4, .ofNat (allLen >>> 8)),
    (5, .ofNat allLen), (10, 0x01), (11, ((channels <<< 4) &&& 0xF0) ||| (format &&& 0x0F)),
    (12, (w.out.sampleRate >>> 8).toUInt8), (13, w.out.sampleRate.toUInt8),
    (14, .ofNat (bytes >>> 24)), (15, .ofNat (bytes >>> 16)), (16, .ofNat (bytes >>> 8)),
    (17, .ofNat bytes)]

/-- Where a thread stands in `sendOpenStream`. -/
inductive OpenPc
  | enter
  | id
  | rateHigh
  | rateLow
  | send
  | leave
  deriving DecidableEq, Repr

/-- Where a thread stands in `out_write`, or in a `sendOpenStream` that returns to `next`. The head
is sent at `fill []`; `body` and `tail` remember which connection it was sent on. -/
inductive Pc
  | idle
  | count (w : Write)
  | choose (w : Write)
  | take (w : Write)
  | opening (pc : OpenPc) (next : Option Write)
  | compare (w : Write)
  | connected (w : Write)
  | lock (w : Write)
  | fill (todo : List (ℕ × UInt8)) (w : Write)
  | body (w : Write) (on : ℕ)
  | tail (w : Write) (on : ℕ)
  | unlock
  deriving DecidableEq, Repr

/-- Where `ccSocketThread` stands. -/
inductive CcPc
  | top
  | dial
  | linked
  | opening (pc : OpenPc)
  | check
  | closing
  | receive
  deriving DecidableEq, Repr

structure State where
  sendMutex : Bool
  sendHead : List UInt8
  sendPlay : List UInt8
  currentOut : StubStreamOut
  newOutStreamCount : Int32
  isConnectCc : Bool
  sendFailCount : Int32
  rtmpID : UInt8
  ccThread : CcPc
  thread : ℕ → Pc
  wire : Option (List UInt8)
  cut : Bool
  closed : List (List UInt8)

/-- After `adev_open`. -/
def State.opened (rtmpID : UInt8) (defaultOut : StubStreamOut) : State where
  sendMutex := false
  sendHead := Audio.sendHead
  sendPlay := Audio.sendPlay
  currentOut := defaultOut
  newOutStreamCount := 10
  isConnectCc := false
  sendFailCount := 0
  rtmpID := rtmpID
  ccThread := .top
  thread := fun _ => .idle
  wire := none
  cut := false
  closed := []

/-- The number of the connection that `socket_cc` refers to. -/
def State.conn (s : State) : ℕ := s.closed.length

def State.goto (s : State) (i : ℕ) (pc : Pc) : State :=
  { s with thread := Function.update s.thread i pc }

/-- `send(socket_cc, data, ...)`: what the answer adds to the stream. -/
def State.send (s : State) (data : List UInt8) : Option ℕ → Option State
  | none => some s
  | some n =>
    match s.wire with
    | none => none
    | some wire =>
      if n ≤ data.length then some { s with wire := some (wire ++ data.take n) } else none

/-- The result of `send` as an `int` is negative. -/
def failed : Option ℕ → Bool
  | none => true
  | some n => 2 ^ 31 ≤ n % 2 ^ 32

/-- The answer is less than what was to be sent. -/
def short (data : List UInt8) : Option ℕ → Bool
  | none => true
  | some n => n < data.length

/-- The answer has put something on the wire. -/
def writes : Option ℕ → Bool
  | none => false
  | some n => 0 < n

def State.countFailure (s : State) (answer : Option ℕ) : State :=
  if failed answer then { s with sendFailCount := s.sendFailCount + 1 } else s

/-- `sendOpenStream`; `none` as next place when it returns. It unlocks `sendMutex_cc` before and
after. -/
def State.openStep (s : State) (answer : Option ℕ) : OpenPc → Option (State × Option OpenPc)
  | .enter => some ({ s with sendMutex := false }, some .id)
  | .id => some ({ s with sendPlay := s.sendPlay.set 13 s.rtmpID }, some .rateHigh)
  | .rateHigh =>
    some ({ s with sendPlay := s.sendPlay.set 14 (s.currentOut.sampleRate >>> 8).toUInt8 },
      some .rateLow)
  | .rateLow =>
    some ({ s with sendPlay := s.sendPlay.set 15 s.currentOut.sampleRate.toUInt8 }, some .send)
  | .send =>
    (s.send s.sendPlay answer).map fun s' =>
      ({ s' with cut := s.cut || (writes answer && short s.sendPlay answer) }, some .leave)
  | .leave => some ({ s with sendMutex := false }, none)

/-- `sendOpenStream` called from `out_write`, or from `in_read` where nothing follows. -/
def afterOpen : Option Write → Option OpenPc → Pc
  | next, some pc => .opening pc next
  | some w, none => .compare w
  | none, none => .idle

/-- The next step of a thread in `out_write`. -/
def State.threadStep (s : State) (i : ℕ) (answer : Option ℕ) : Option State :=
  match s.thread i with
  | .idle => none
  | .count w =>
    if w.out.ptr ≠ s.currentOut.ptr then
      some ({ s with newOutStreamCount := s.newOutStreamCount + 1 }.goto i (.choose w))
    else
      some ({ s with newOutStreamCount := 0 }.goto i (.choose w))
  | .choose w => some (s.goto i (if 5 ≤ s.newOutStreamCount then .take w else .compare w))
  | .take w => some ({ s with currentOut := w.out }.goto i (.opening .enter (some w)))
  | .opening pc next => (s.openStep answer pc).map fun r => r.1.goto i (afterOpen next r.2)
  | .compare w => some (s.goto i (if w.out.ptr ≠ s.currentOut.ptr then .idle else .connected w))
  | .connected w => some (s.goto i (if s.isConnectCc && !w.buffer.isEmpty then .lock w else .idle))
  | .lock w =>
    if s.sendMutex then none
    else some ({ s with sendMutex := true }.goto i (.fill (headFields w) w))
  | .fill (f :: todo) w =>
    some ({ s with sendHead := s.sendHead.set f.1 f.2 }.goto i (.fill todo w))
  | .fill [] w =>
    (s.send s.sendHead answer).map fun s' =>
      ({ s' with cut := s.cut || (!failed answer && short s.sendHead answer) }.countFailure
        answer).goto i (if failed answer then .unlock else .body w s.conn)
  | .body w on =>
    (s.send w.buffer answer).map fun s' =>
      ({ s' with cut := s.cut || (on == s.conn && short w.buffer answer) }.countFailure answer).goto i
        (if failed answer then .unlock else .tail w on)
  | .tail _ on =>
    (s.send sendTail answer).map fun s' =>
      ({ s' with cut := s.cut || (on == s.conn && short sendTail answer) }.countFailure answer).goto i
        .unlock
  | .unlock => some ({ s with sendMutex := false }.goto i .idle)

/-- The next step of `ccSocketThread`. The answer at `dial` is whether `connect` succeeds, at
`receive` whether a replay message is read. -/
def State.ccStep (s : State) (answer : Option ℕ) : Option State :=
  match s.ccThread with
  | .top =>
    if s.isConnectCc then some { s with ccThread := .check }
    else some { s with sendFailCount := 0, ccThread := .dial }
  | .dial =>
    match answer with
    | some _ => some { s with wire := some [], ccThread := .linked }
    | none => some { s with isConnectCc := false, ccThread := .top }
  | .linked => some { s with isConnectCc := true, ccThread := .opening .enter }
  | .opening pc =>
    (s.openStep answer pc).map fun r => { r.1 with ccThread := (r.2.map .opening).getD .top }
  | .check =>
    if 5 < s.sendFailCount then some { s with isConnectCc := false, ccThread := .closing }
    else some { s with ccThread := .receive }
  | .closing =>
    some { s with wire := none, cut := false, closed := s.closed ++ s.wire.toList,
                  ccThread := .receive }
  | .receive =>
    if s.isConnectCc && answer.isSome then some { s with ccThread := .opening .enter }
    else some { s with ccThread := .top }

inductive Op
  | outWrite (i : ℕ) (w : Write)
  | openStream (i : ℕ)
  | thread (i : ℕ) (answer : Option ℕ)
  | cc (answer : Option ℕ)
  deriving DecidableEq, Repr

def Op.step : Op → State → Option State
  | .outWrite i w, s => if s.thread i = .idle then some (s.goto i (.count w)) else none
  | .openStream i, s =>
    if s.thread i = .idle then some (s.goto i (.opening .enter none)) else none
  | .thread i answer, s => s.threadStep i answer
  | .cc answer, s => s.ccStep answer

/-! ### Well-formed messages -/

/-- The length field, bytes 2 to 5, the high byte first. -/
def lengthField (m : List UInt8) : ℕ :=
  (m.getD 2 0).toNat * 2 ^ 24 + (m.getD 3 0).toNat * 2 ^ 16 + (m.getD 4 0).toNat * 2 ^ 8 +
    (m.getD 5 0).toNat

/-- Start mark, a length field that counts all but four bytes, body, end mark. -/
def WellFormed (m : List UInt8) : Prop :=
  8 ≤ m.length ∧ m.take 2 = [0x7e, 0xa5] ∧ lengthField m = m.length - 4 ∧
    m.drop (m.length - 2) = [0x7e, 0x0d]

instance (m : List UInt8) : Decidable (WellFormed m) :=
  inferInstanceAs (Decidable (_ ∧ _ ∧ _ ∧ _))

/-- On every connection, whole messages and possibly the beginning of one more. -/
def FramedStreams (s : State) : Prop :=
  ∀ stream ∈ s.closed ++ s.wire.toList, Framing.Framed WellFormed stream

end AndroidVendor.Audio
