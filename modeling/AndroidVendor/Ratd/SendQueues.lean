import AndroidVendor.Mpd.StateIndRun
import AndroidVendor.Ratd.Queue

/-!
# MPD and the dispatchers of the subflows

What MPD asks for goes through `mp_data.c`: a packet to the queue of its subflow, a buffer to `free`
or, if copies of it may wait, to `DequeFreeReTransBuffer`. The dispatcher of a subflow
(`task_mpMsgQueueDispatch`) takes the entries out and writes them to the socket.

## Conventions

* MPD and the dispatchers run at the same time. A step is one action of MPD, one `Dequeue`, or one
  entry written; the queue functions hold the semaphore, and MPD makes one call at a time.
* `allocs` and `sends` are what the allocator and the queues answer during a call. The answers of the
  queues are foretold, and have to come true when the packets are put in.
* `elem` is the entry that the dispatcher has taken out and not yet written, `written` (a history
  variable) those that it is done with, whatever the socket said. `done` and `freed` are history
  variables as well.
* Queues are created before MPD starts, and destroyed after it ends.
-/

namespace AndroidVendor.Ratd.SendQueues

open Mpd

/-- The queue of a subflow and its dispatcher. -/
structure Flow where
  queue : Queue
  elem : Option ElemType
  written : List ElemType

/-- The session, what it still has to ask for in this call and what it has asked for, the subflows,
and the buffers that were freed. -/
structure System where
  user : UserInfo
  todo : List Action
  done : List Action
  flow : ℕ → Flow
  freed : List (Option ℕ)

namespace System

def setQueue (s : System) (f : ℕ) (Q : Queue) : System :=
  { s with flow := Function.update s.flow f { s.flow f with queue := Q } }

def free (s : System) (buffers : List (Option ℕ)) : System := { s with freed := s.freed ++ buffers }

/-- `MPC_putMsgToSendQueue`, and whether the packet was queued. A buffer that no queue takes is freed
at once if the queue was to free it, unless an entry with that buffer can be found. -/
def putMsgToSendQueue (s : System) (netStatus : Bool) (fdIndex : ℕ) (buffer : Option ℕ) (len : ℕ)
    (release : Bool) : Option (System × Bool) :=
  let Q := (s.flow fdIndex).queue
  let r := Q.enqueue netStatus ⟨fdIndex, buffer, len, release, false⟩
  if r.2 then some (s.setQueue fdIndex r.1, true)
  else if release then
    (Q.resetElemFlagInQueue buffer release Q.maxsize).map fun o =>
      ((s.setQueue fdIndex o.queue).free (if o.found then [] else [buffer]), false)
  else some (s, false)

/-- `Free_ResendBuf`. -/
def freeResendBuf (s : System) (buffer : Option ℕ) (subFlowFlag : ℕ) : Option System :=
  if subFlowFlag < 3 then
    let Q := (s.flow subFlowFlag).queue
    (Q.dequeFreeReTransBuffer buffer Q.maxsize).map fun o =>
      (s.setQueue subFlowFlag o.queue).free o.freed
  else some s

/-- One action of MPD. `none` stands for a queue that does not answer as foretold. -/
def perform (s : System) (netStatus : Bool) : Action → Option System
  | .free m => some (s.free [some m.addr])
  | .freeResend m flowId => s.freeResendBuf (some m.addr) flowId
  | .send deviceId m datalen release ok =>
    (s.putMsgToSendQueue netStatus (deviceId / 2) (some m.addr) datalen release).bind fun r =>
      if r.2 = ok then some r.1 else none
  | _ => some s

/-- The dispatcher takes the next entry out. An entry that is not to be sent is dropped. -/
def dequeue (s : System) (f : ℕ) : Option System :=
  let flow := s.flow f
  if flow.elem.isSome then none
  else
    let r := flow.queue.dequeue
    r.2.map fun e =>
      { s with
        flow := Function.update s.flow f
          { flow with queue := r.1, elem := if e.justNotSend then none else some e } }

/-- The dispatcher writes its entry to the socket. -/
def write (s : System) (f : ℕ) : Option System :=
  let flow := s.flow f
  flow.elem.map fun e =>
    { s with
      flow := Function.update s.flow f { flow with elem := none, written := flow.written ++ [e] }
      freed := s.freed ++ if e.release then [e.bufferAddr] else [] }

/-- The queues were created, and MPD has a new session. `heap` is what lies behind the arrays. -/
def start (u : UserInfo) (heap : ℕ → ℕ → ElemType) : System where
  user := u.created
  todo := []
  done := []
  flow f := ⟨createQueue queueMaxsize (heap f), none, []⟩
  freed := []

end System

inductive Event
  /-- MPD is called: traffic, a timer, or an indication. -/
  | call (e : Mpd.Event) (allocs : ℕ → Option ℕ) (sends : ℕ → Bool)
  /-- MPD asks for the next thing; `netStatus` is the entry of `g_netStatus` for the subflow. -/
  | act (netStatus : Bool)
  | dequeue (f : Fin 3)
  | write (f : Fin 3)

/-- One step; `none` when it cannot be taken. -/
def Event.step : Event → System → Option System
  | .call e allocs sends, s =>
    if s.todo = [] then
      (e.step { s.user with allocs := allocs, sends := sends }).map fun u =>
        { s with user := u, todo := u.out.drop s.user.out.length }
    else none
  | .act netStatus, s =>
    match s.todo with
    | [] => none
    | a :: todo =>
      (s.perform netStatus a).map fun t => { t with todo := todo, done := s.done ++ [a] }
  | .dequeue f, s => s.dequeue f
  | .write f, s => s.write f

end AndroidVendor.Ratd.SendQueues
