import AndroidVendor.Lib.Loop
import AndroidVendor.Lib.RingQueue

/-!
# The queue of a subflow

`queue.c`: entries in a ring of `maxsize` cells, put in at `rear` and taken out at `front`, and
three loops that go from `front` to `rear`. The dispatcher of a subflow creates the queue and takes
its entries out; MPD puts them in, and looks through the queue for a buffer.

## Conventions

* `pBase` is what the memory holds from the array on, cell by cell: the array and whatever comes
  behind it. `none` is `NULL`, for it and for buffers.
* The three loops are one, `walk`, with what is done to the entry at `pBase + i`. They are cut off
  after `fuel` rounds, and then give no answer. `visited` is a history variable: the indices that
  the loop has used.
* Each function holds the semaphore of the queue while it runs. Signals, locks and log lines are
  left out.
-/

namespace AndroidVendor.Ratd

/-- `QUEUE_MAXSIZE`. -/
def queueMaxsize : ℕ := 1000 * 10

structure ElemType where
  fdIndex : ℤ
  bufferAddr : Option ℕ
  len : ℤ
  release : Bool
  justNotSend : Bool
  deriving DecidableEq, Repr

structure Queue where
  pBase : Option (ℕ → ElemType)
  front : ℕ
  rear : ℕ
  maxsize : ℕ
  quit : Bool

/-- What `memset` leaves of an entry. -/
def ElemType.zero : ElemType where
  fdIndex := 0
  bufferAddr := none
  len := 0
  release := false
  justNotSend := false

/-- `CreateQueue`, when there is memory for it; `heap` is what the memory holds. -/
def createQueue (maxsize : ℕ) (heap : ℕ → ElemType) : Queue where
  pBase := some fun i => if i < maxsize then .zero else heap i
  front := 0
  rear := 0
  maxsize := maxsize
  quit := false

namespace Queue

/-- `FullQueue`. -/
def full (Q : Queue) : Bool := Q.front == (Q.rear + 1) % Q.maxsize

/-- `EmptyQueue`. -/
def empty (Q : Queue) : Bool := Q.front == Q.rear

/-- `Enqueue`; `netStatus` is the entry of `g_netStatus` for the subflow. -/
def enqueue (Q : Queue) (netStatus : Bool) (val : ElemType) : Queue × Bool :=
  match Q.pBase with
  | none => (Q, false)
  | some cell =>
    if Q.full || !netStatus then (Q, false)
    else
      ({ Q with
          pBase := some (Function.update cell Q.rear { val with justNotSend := false })
          rear := (Q.rear + 1) % Q.maxsize }, true)

/-- `Dequeue`, with the entry that it copies to `val`. -/
def dequeue (Q : Queue) : Queue × Option ElemType :=
  match Q.pBase with
  | none => (Q, none)
  | some cell =>
    if Q.empty then (Q, none)
    else ({ Q with front := (Q.front + 1) % Q.maxsize }, some (cell Q.front))

/-! ### The loops -/

/-- A loop at the index `i`. -/
structure Walk where
  i : ℕ
  cell : ℕ → ElemType
  hits : List ElemType
  returned : Bool
  visited : List ℕ

/-- The loop's body. `hit` gives what becomes of an entry that the loop is looking for; `early` says
whether the function returns there. -/
def Walk.body (hit : ElemType → Option ElemType) (early : Bool) (w : Walk) : Walk :=
  match hit (w.cell w.i) with
  | none => { w with i := w.i + 1, visited := w.visited ++ [w.i] }
  | some e =>
    { i := w.i + 1
      cell := Function.update w.cell w.i e
      hits := w.hits ++ [w.cell w.i]
      returned := early
      visited := w.visited ++ [w.i] }

/-- `while (i % Q->maxsize != Q->rear)`, from `front` on. -/
def walk (Q : Queue) (cell : ℕ → ElemType) (hit : ElemType → Option ElemType) (early : Bool)
    (fuel : ℕ) : Option Walk :=
  Loop.whileLoop (fun w => ¬ w.returned ∧ w.i % Q.maxsize ≠ Q.rear)
    (fun w => some (w.body hit early)) fuel
    { i := Q.front, cell := cell, hits := [], returned := false, visited := [] }

/-- What a function leaves that goes through the queue, with the buffers that it has freed. -/
structure Outcome where
  queue : Queue
  found : Bool
  freed : List (Option ℕ)
  visited : List ℕ

/-- Nothing was looked at. -/
def untouched (Q : Queue) : Outcome where
  queue := Q
  found := false
  freed := []
  visited := []

/-- `ResetElemFlagInQueue`. -/
def resetElemFlagInQueue (Q : Queue) (buffer : Option ℕ) (release : Bool) (fuel : ℕ) :
    Option Outcome :=
  match Q.pBase with
  | none => some Q.untouched
  | some cell =>
    (Q.walk cell (fun e => if e.bufferAddr = buffer then some { e with release := release } else none)
      true fuel).map fun w =>
        { queue := { Q with pBase := some w.cell }
          found := w.returned
          freed := []
          visited := w.visited }

/-- `DequeFreeReTransBuffer`. -/
def dequeFreeReTransBuffer (Q : Queue) (buffer : Option ℕ) (fuel : ℕ) : Option Outcome :=
  match Q.pBase, buffer with
  | some cell, some _ =>
    (Q.walk cell (fun e =>
      if e.bufferAddr = buffer ∧ e.justNotSend = false then some { e with justNotSend := true }
      else none) false fuel).map fun w =>
        { queue := { Q with pBase := some w.cell }
          found := !w.hits.isEmpty
          freed := if w.hits = [] then [] else [buffer]
          visited := w.visited }
  | _, _ => some Q.untouched

/-- `ReleaseQueueBuffs`. -/
def releaseQueueBuffs (Q : Queue) (fuel : ℕ) : Option Outcome :=
  match Q.pBase with
  | none => some Q.untouched
  | some cell =>
    (Q.walk cell (fun e => if e.release = true then some e else none) false fuel).map fun w =>
      { queue := { Q with pBase := none }
        found := !w.hits.isEmpty
        freed := w.hits.map ElemType.bufferAddr
        visited := w.visited }

end Queue

end AndroidVendor.Ratd
