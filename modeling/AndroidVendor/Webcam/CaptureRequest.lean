import Mathlib.Data.List.Basic
import Mathlib.Logic.Function.Basic
import AndroidVendor.Lib.Machine

/-!
# Capture requests

`EnqueueRequest` and `DequeueRequest` of `v4l2_wrapper.cpp`. Both work on `buffers_`, under the lock
`buffer_queue_lock_`: a call of `DequeueRequest` is one region of it, a call of `EnqueueRequest` is
several, with other calls between them.

## Conventions

* A step is a region, or the whole of `DequeueRequest`. A step that is not the next one of its call
  gives `none`; so does one that goes out of `buffers_` or through the pointer `request_context`
  while it is not set.
* The calls of `EnqueueRequest` that find a buffer are counted from 0 on, and each has a request of
  its own, known by the number of its call.
* The format is set, and `buffers_` does not change its size. `DequeueRequest` is called with a place
  for the request.
* `filled` and `phase` of a call say how far it is; `returned` is a history variable: what
  `DequeueRequest` returned, and whether all output buffers of it were filled then.
-/

namespace AndroidVendor.Webcam

structure RequestContext where
  active : Bool
  request : Option ℕ
  deriving DecidableEq, Repr

inductive Phase
  | underway
  | failed
  | succeeded
  deriving DecidableEq, Repr

/-- A call of `EnqueueRequest`, for a request with `streams` output buffers. -/
structure EnqueueCall where
  streams : ℕ
  index : ℕ
  filled : ℕ
  phase : Phase
  deriving DecidableEq, Repr

structure Returned where
  request : ℕ
  filled : Bool
  deriving DecidableEq, Repr

namespace CaptureRequest

structure State where
  size : ℕ
  buffers : ℕ → RequestContext
  calls : ℕ → EnqueueCall
  started : ℕ
  returned : List Returned

def State.init (size : ℕ) : State where
  size := size
  buffers := fun _ => ⟨false, none⟩
  calls := fun _ => ⟨0, 0, 0, .failed⟩
  started := 0
  returned := []

/-- The call is under way. -/
def State.Underway (s : State) (r : ℕ) : Prop := r < s.started ∧ (s.calls r).phase = .underway

instance (s : State) (r : ℕ) : Decidable (s.Underway r) := inferInstanceAs (Decidable (_ ∧ _))

/-- All output buffers of the request have been filled. -/
def State.allFilled (s : State) (r : ℕ) : Bool := (s.calls r).filled == (s.calls r).streams

/-- The first free buffer. -/
def State.freeIndex (s : State) : Option ℕ :=
  (List.range s.size).find? fun i => !(s.buffers i).active

def State.setCall (s : State) (r : ℕ) (c : EnqueueCall) : State :=
  { s with calls := Function.update s.calls r c }

def State.setBuffer (s : State) (i : ℕ) (b : RequestContext) : State :=
  { s with buffers := Function.update s.buffers i b }

/-- A call of `EnqueueRequest` begins: it looks for a free buffer. -/
def State.start (s : State) (streams : ℕ) : State :=
  match s.freeIndex with
  | none => s
  | some i => { s.setCall s.started ⟨streams, i, 0, .underway⟩ with started := s.started + 1 }

/-- `VIDIOC_QUERYBUF` fails. -/
def State.queryFails (s : State) (r : ℕ) : Option State :=
  let c := s.calls r
  if s.Underway r ∧ c.filled = 0 then
    some ((s.setBuffer c.index { s.buffers c.index with active := false }).setCall r
      { c with phase := .failed })
  else none

/-- The round of the loop for the next output buffer; `ok` says whether the buffer is there to be
filled. -/
def State.fill (s : State) (r : ℕ) (ok : Bool) : Option State :=
  let c := s.calls r
  if s.Underway r ∧ c.filled < c.streams then
    some ((s.setBuffer c.index { s.buffers c.index with request := some r }).setCall r
      (if ok then { c with filled := c.filled + 1 } else { c with phase := .failed }))
  else none

/-- The last region. -/
def State.finish (s : State) (r : ℕ) : Option State :=
  let c := s.calls r
  if s.Underway r ∧ s.allFilled r ∧ 0 < c.filled then
    some ((s.setBuffer c.index { s.buffers c.index with active := true }).setCall r
      { c with phase := .succeeded })
  else none

/-- `DequeueRequest`: `buffer.index` is 0 since the `memset`. -/
def State.dequeue (s : State) : Option State :=
  if 0 < s.size then
    some { s.setBuffer 0 ⟨false, none⟩ with
      returned := s.returned ++ (s.buffers 0).request.toList.map fun r => ⟨r, s.allFilled r⟩ }
  else none

inductive Op
  | start (streams : ℕ)
  | queryFails (r : ℕ)
  | fill (r : ℕ) (ok : Bool)
  | finish (r : ℕ)
  | dequeue
  deriving DecidableEq, Repr

def Op.step : Op → State → Option State
  | .start streams, s => some (s.start streams)
  | .queryFails r, s => s.queryFails r
  | .fill r ok, s => s.fill r ok
  | .finish r, s => s.finish r
  | .dequeue, s => s.dequeue

/-- How often the request was returned. -/
def State.timesReturned (s : State) (r : ℕ) : ℕ := (s.returned.map Returned.request).count r

/-- What is returned has been filled; each request whose call succeeded is returned exactly once by
the time that `DequeueRequest` has been called often enough. -/
structure State.Delivers (s : State) : Prop where
  filled : ∀ x ∈ s.returned, x.filled = true
  once : ∀ r < s.started, (s.calls r).phase = .succeeded →
    ∃ n t, Machine.run Op.step (List.replicate n .dequeue) s = some t ∧ t.timesReturned r = 1

end CaptureRequest

end AndroidVendor.Webcam
