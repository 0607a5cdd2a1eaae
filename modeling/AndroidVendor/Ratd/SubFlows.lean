import AndroidVendor.Mpd.StateInd

/-!
# The subflows of ratd

The flow table of `mpcd.c`: how commands of the application and responses of the gateway change it,
start and stop the dispatcher threads and notify MPD.

A command is handled to its end, with the start-up notification of a thread it launches. Sockets,
routes and the echoed results are left out; where the code looks at one of them, the outcome is an
argument. The session of MPD is there: `CONFIG` was handled before.
-/

namespace AndroidVendor

namespace Ratd

open Mpd

/-- A dispatcher thread: `s_mp_dispatch[i]` is 0, or the thread is in its loop, or it has left the
loop and not yet set `s_mp_dispatch[i]` to 0. -/
inductive Dispatch
  | none
  | running
  | leaving
  deriving DecidableEq

/-- What ratd knows of a subflow. -/
structure SubFlow where
  /-- `status.sub_mp_status`: `NETWORK_DOWN` is 0, `NETWORK_UP` 1, `NETWORK_MP_DISABLE` 2 and
  `NETWORK_MP_ENABLE` 3. -/
  subMpStatus : ℕ := 0
  mpDispatch : Dispatch := .none
  /-- `Q_MP_DISPATCH[i].quit`. -/
  quit : Bool := false
  deriving DecidableEq

/-- `mpc_host`, and the session of MPD it notifies. -/
structure MpcHost where
  subflowNu : ℕ := 0
  flow : ℕ → SubFlow := fun _ => {}
  mpd : UserInfo

/-- `MP_STREAM_FLAG_4G`, `MP_STREAM_FLAG_MCWILL` and `MP_STREAM_FLAG_WIFI`, in the order the masks
are looked through. The subflow of a flag is its half. -/
def streamFlags : List ℕ := [2, 1, 4]

/-- The `fdIndex` of a mask: the last flag that is set decides. -/
def pickFlow (numberType : ℕ) : Option ℕ :=
  streamFlags.foldl (fun fdIndex flag => if flag &&& numberType ≠ 0 then some (flag / 2) else fdIndex)
    none

/-- `getNetTypeFromQ`. -/
def getNetTypeFromQ (fdIndex : ℕ) : ℕ := if fdIndex * 2 = 0 then 1 else fdIndex * 2

namespace MpcHost

def setFlow (h : MpcHost) (fdIndex : ℕ) (f : SubFlow) : MpcHost :=
  { h with flow := Function.update h.flow fdIndex f }

/-- `notifyMpdNetStatus`. -/
def notifyMpdNetStatus (h : MpcHost) (netType netStatus : ℕ) : Option MpcHost :=
  (h.mpd.doSubFlowStateInd netType netStatus).map fun u => { h with mpd := u }

/-- `updateCurrentSubFlowsNum`. -/
def updateCurrentSubFlowsNum (h : MpcHost) : MpcHost :=
  { h with subflowNu := [0, 1, 2].countP fun i => (h.flow i).subMpStatus = 3 }

/-- `removeSpecifiedSubFlow`. -/
def removeSpecifiedSubFlow (h : MpcHost) (fdIndex : ℕ) : MpcHost :=
  (h.setFlow fdIndex { h.flow fdIndex with quit := true, subMpStatus := 2 }).updateCurrentSubFlowsNum

/-- `removeSubFlowsEvent`. -/
def removeSubFlowsEvent (h : MpcHost) (numberType : ℕ) : MpcHost :=
  match pickFlow numberType with
  | none => h
  | some fdIndex => h.removeSpecifiedSubFlow fdIndex

/-- `removeAllSubFlowsEvent`. -/
def removeAllSubFlowsEvent (h : MpcHost) : MpcHost :=
  { h with
    subflowNu := 0
    flow := fun i => if i < 3 then { h.flow i with quit := true, subMpStatus := 2 } else h.flow i }

/-- A dispatcher thread that was started is told to leave. -/
def finishDispatch (h : MpcHost) (fdIndex : ℕ) : MpcHost :=
  if (h.flow fdIndex).mpDispatch = .none then h
  else h.setFlow fdIndex { h.flow fdIndex with quit := true }

/-- `finishsubflowDispathTask`. -/
def finishsubflowDispathTask (h : MpcHost) (numberType : ℕ) : MpcHost :=
  match pickFlow numberType with
  | none => h
  | some fdIndex => h.finishDispatch fdIndex

/-- `finishAllDisPathTask`. -/
def finishAllDisPathTask (h : MpcHost) : MpcHost := [0, 1, 2].foldl finishDispatch h

/-- `toReleaseMpResource`. `MP_STATE` is 0. -/
def toReleaseMpResource (h : MpcHost) : Option MpcHost :=
  h.removeAllSubFlowsEvent.finishAllDisPathTask.notifyMpdNetStatus 0 0

/-- `task_queue`, and the thread up to its loop. -/
def taskQueue (h : MpcHost) (fdIndex : ℕ) (created : Bool) : Option MpcHost :=
  if created then
    (h.setFlow fdIndex
      { h.flow fdIndex with mpDispatch := .running, quit := false }).notifyMpdNetStatus
      (getNetTypeFromQ fdIndex) 3
  else some h

/-- `commandDataRecvCallback` on `MESSAGE_TYPE_ADD_SUBFLOW_RSP`. `opened` says that there is a data
socket or that one could be opened, `created` that `pthread_create` succeeds; `none` for a subflow
outside of the table. -/
def addSubflowRsp (h : MpcHost) (netType result : ℕ) (opened created : Bool) : Option MpcHost :=
  if result ≠ 0 then some h
  else if 3 ≤ netType / 2 then none
  else if !opened then some h
  else
    (if (h.flow (netType / 2)).mpDispatch = .none then h.taskQueue (netType / 2) created
      else (h.setFlow (netType / 2) { h.flow (netType / 2) with quit := false }).notifyMpdNetStatus
        netType 3).map fun h =>
      (h.setFlow (netType / 2) { h.flow (netType / 2) with subMpStatus := 3 }).updateCurrentSubFlowsNum

/-- `processAppCommandBuffer` on `MESSAGE_TYPE_DEL_SUBFLOW_REQ`. -/
def delSubflow (h : MpcHost) (numberType : ℕ) : Option MpcHost :=
  if h.subflowNu ≤ 0 then some h
  else
    streamFlags.foldlM
      (fun h flag => if flag &&& numberType ≠ 0 then h.notifyMpdNetStatus flag 2 else some h)
      ((h.removeSubFlowsEvent numberType).finishsubflowDispathTask numberType)

end MpcHost

/-- The messages that ratd handles, and the steps of the dispatcher threads that the flow table
sees. -/
inductive Message
  /-- `MESSAGE_TYPE_ENABLE_MP_REQ`. -/
  | enable
  /-- `MESSAGE_TYPE_ADD_SUBFLOW_RSP`. -/
  | addSubflowRsp (netType result : ℕ) (opened created : Bool)
  /-- `MESSAGE_TYPE_DEL_SUBFLOW_REQ`. -/
  | delSubflow (numberType : ℕ)
  /-- `MESSAGE_TYPE_DISABLE_MP_REQ`. -/
  | disable
  /-- `MESSAGE_TYPE_RELEASE_MP_REQ`. It is passed on to the gateway. -/
  | release
  /-- `MESSAGE_TYPE_RELEASE_MP_RSP`. -/
  | releaseRsp (result : ℕ)
  /-- The loop of dispatcher `fdIndex` finds `quit` set. -/
  | leave (fdIndex : ℕ)
  /-- Dispatcher `fdIndex` ends. -/
  | exit (fdIndex : ℕ)
  deriving DecidableEq

/-- One message; `none` when it names a subflow outside of the table, when a loop of MPD does not
stop, or when the thread cannot take the step. -/
def Message.step : Message → MpcHost → Option MpcHost
  | .enable, h => h.notifyMpdNetStatus 0 1
  | .addSubflowRsp netType result opened created, h => h.addSubflowRsp netType result opened created
  | .delSubflow numberType, h => h.delSubflow numberType
  | .disable, h => h.toReleaseMpResource
  | .release, h => some h
  | .releaseRsp result, h => if result = 0 then h.toReleaseMpResource else some h
  | .leave fdIndex, h =>
    if (h.flow fdIndex).mpDispatch = .running ∧ (h.flow fdIndex).quit then
      some (h.setFlow fdIndex { h.flow fdIndex with mpDispatch := .leaving })
    else none
  | .exit fdIndex, h =>
    if (h.flow fdIndex).mpDispatch = .leaving then
      some (h.setFlow fdIndex { h.flow fdIndex with mpDispatch := .none })
    else none

end Ratd

end AndroidVendor
