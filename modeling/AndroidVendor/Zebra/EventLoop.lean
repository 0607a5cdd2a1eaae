import Mathlib.Algebra.Group.Nat.Defs
import Mathlib.Algebra.Ring.Int.Defs
import Mathlib.Logic.Function.Iterate
import AndroidVendor.Lib.ByteBuffer
import AndroidVendor.Lib.Framing
import AndroidVendor.Lib.Machine

/-!
# The input event loop of the zebra service

`notifyEvent` writes byte strings into `eventBuf`; the thread of `ZebraHidlCallBack.run` takes one
event at a time out of it. Both hold `mEventLock`, so the runs are the sequences of whole calls and
whole rounds of the loop. An exception leaves the round where it is thrown, with the buffer as it is
then; the loop goes on.

`received`, `taken` and `dispatched` are history variables: the bytes passed to `notifyEvent`, the
bytes that `get` has returned, and the events that were injected.
-/

namespace AndroidVendor.Zebra

open Framing

/-- What is injected: `sendTouchEvent` and `sendKeyEvent` with their arguments. -/
inductive Event
  | touch (action : ℕ) (fx fy : ℕ) (pressure : ℕ)
  | key (keycode : ℕ)
  deriving DecidableEq, Repr

/-- `MotionEvent.ACTION_DOWN`, `ACTION_UP` and `ACTION_MOVE`. -/
def actionDown : ℕ := 0
def actionUp : ℕ := 1
def actionMove : ℕ := 2

structure State where
  eventBuf : ByteBuffer UInt8
  received : List UInt8
  taken : List UInt8
  dispatched : List Event
  deriving DecidableEq

def State.new : State where
  eventBuf := .allocate 1024 0
  received := []
  taken := []
  dispatched := []

/-- Bytes `k` and `k + 1`, the high byte first. -/
def word (bytes : List UInt8) (k : ℕ) : ℕ :=
  (bytes.getD k 0).toNat <<< 8 ||| (bytes.getD (k + 1) 0).toNat

/-- The touch event of `tEvent`; dividing by a width or height of zero throws. -/
def touchEvent (tEvent : List UInt8) : Option Event :=
  let x := word tEvent 2
  let y := word tEvent 4
  let w := word tEvent 6
  let h := word tEvent 8
  if w = 0 ∨ h = 0 then none
  else
    match (tEvent.getD 1 0).toNat with
    | 0x00 => some (.touch actionDown (x * 1080 / w) (y * 2160 / h) 1)
    | 0x01 => some (.touch actionMove (x * 1080 / w) (y * 2160 / h) 1)
    | _ => some (.touch actionUp (x * 1080 / w) (y * 2160 / h) 0)

def keyEvent (kEvent : List UInt8) : Event :=
  let keycode := (kEvent.getD 1 0).toNat
  .key (if keycode = 158 then 4 else keycode)

def isTouch (head : List UInt8) : Bool := head.getD 2 0 == 0x03 && head.getD 3 0 == 0x01

def isKey (head : List UInt8) : Bool := head.getD 2 0 == 0x03 && head.getD 3 0 == 0x02

/-- A successful `get`. -/
def State.took (s : State) (bytes : List UInt8) (b : ByteBuffer UInt8) : State :=
  { s with eventBuf := b, taken := s.taken ++ bytes }

/-- The end of a round. -/
def State.compact (s : State) : State :=
  { s with eventBuf := s.eventBuf.compact }

def State.dispatch (s : State) (e : Event) : State :=
  { s with dispatched := s.dispatched ++ [e] }

/-- The part of the round after the head has been read. -/
def State.runBody (s : State) (head : List UInt8) : State :=
  if isTouch head then
    match s.eventBuf.get 10 with
    | none => s
    | some (tEvent, b) =>
      match touchEvent tEvent with
      | none => s.took tEvent b
      | some e => ((s.took tEvent b).dispatch e).compact
  else if isKey head then
    match s.eventBuf.get 2 with
    | none => s
    | some (kEvent, b) => ((s.took kEvent b).dispatch (keyEvent kEvent)).compact
  else s.compact

/-- One round of the loop in `run`. With nothing in the buffer the thread waits. -/
def State.runRound (s : State) : State :=
  if s.eventBuf.position = 0 then s
  else
    let b := s.eventBuf.flip
    match b.get 16 with
    | none => { s with eventBuf := b }
    | some (head, b) => (s.took head b).runBody head

/-- The buffer is cleared when its position is past 1024; an overflow is thrown to the caller. -/
def State.notifyEvent (s : State) (event : List UInt8) : State :=
  let b := if 1024 < s.eventBuf.position then s.eventBuf.clear else s.eventBuf
  let s := { s with eventBuf := b, received := s.received ++ event }
  match b.put event with
  | none => s
  | some b => { s with eventBuf := b }

inductive Op
  | notifyEvent (event : List UInt8)
  | runRound
  deriving DecidableEq, Repr

def Op.step : Op → State → Option State
  | .notifyEvent event, s => some (s.notifyEvent event)
  | .runRound, s => some s.runRound

/-! ### What the stream means -/

/-- The length field of a head. -/
def lengthField (head : List UInt8) : ℕ :=
  (head.getD 4 0).toNat * 2 ^ 24 + (head.getD 5 0).toNat * 2 ^ 16 + (head.getD 6 0).toNat * 2 ^ 8 +
    (head.getD 7 0).toNat

/-- The length of the event that begins with `head`: that of `INPUT_TOUCH` and `INPUT_KEY`, and for
another type 8 bytes and as many as its length field says. -/
def eventLength (head : List UInt8) : ℕ :=
  if isTouch head then 26 else if isKey head then 18 else 8 + lengthField head

/-- The length of the first event, if the stream has all of it. -/
def firstEvent (stream : List UInt8) : Option ℕ :=
  if 8 ≤ stream.length ∧ eventLength stream ≤ stream.length then some (eventLength stream)
  else none

/-- What is to be injected for an event; nothing for a touch event without extent and for other
types. -/
def toDispatch (event : List UInt8) : Option Event :=
  if isTouch event then touchEvent (event.drop 16)
  else if isKey event then some (keyEvent (event.drop 16))
  else none

/-- The complete touch and key events of a stream. -/
def events (stream : List UInt8) : List Event :=
  (messages firstEvent stream).filterMap toDispatch

/-- No byte is taken twice, the injected events are those of the stream in their order, and the loop
is bound to inject every complete event of it. -/
def Delivers (s : State) : Prop :=
  s.taken <+: s.received ∧ s.dispatched <+: events s.received ∧
    ∃ n, (State.runRound^[n] s).dispatched = events s.received

end AndroidVendor.Zebra
