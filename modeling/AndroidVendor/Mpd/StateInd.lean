import AndroidVendor.Mpd.Receive

/-!
# Subflow state indications

`MPD_DoSubFlowStateInd` (`mpd.c`), through which the session learns that a subflow has come or gone,
or that multipath as a whole was switched, and the session with its indications as a machine:
indications and traffic in any order.

The queue of packets waiting for the traffic control and the weights of the scheduler, which the
function resets as well, are not part of the session here.
-/

namespace AndroidVendor

namespace Mpd

/-- `g_dev2SfId`. -/
def dev2SfId : List (Option (Fin 3)) := [none, some 0, some 1, none, some 2]

/-- `MPD_GetSubFlowId`, `none` standing for -1. -/
def getSubFlowId (deviceId : ℕ) : Option (Fin 3) :=
  if 4 < deviceId then none else dev2SfId.getD deviceId none

namespace UserInfo

/-- The flags of all subflows, or-ed together. -/
def anyFlowValid (u : UserInfo) : Bool := [0, 1, 2].any (schdGetFlowValid u)

/-- `activeFlowNum`, counted anew. -/
def countActiveFlows (u : UserInfo) : UserInfo :=
  { u with activeFlowNum := [0, 1, 2].countP (schdGetFlowValid u) }

/-- `MPD_TrafficCtlInit`. -/
def trafficCtlInit (u : UserInfo) : UserInfo :=
  { u with trafficControl := fun i => if i < 3 then {} else u.trafficControl i }

/-- `MPD_ClearDataWin`, and the counters of the data stream. -/
def clearDataStream (u : UserInfo) : Option UserInfo :=
  u.clearDataWin.map fun u => { u with txDataSn := 0, rxDsnErr := 0 }

/-- The windows of a subflow that is there are cleared. -/
def clearValidFlow (u : UserInfo) (i : ℕ) : UserInfo :=
  if schdGetFlowValid u i then (u.clearTxWin i).clearSubWin i else u

/-- The branch of `MPD_DoSubFlowStateInd` for device 0: multipath as a whole was switched. The flags
of the subflows stay as they are. -/
def multipathInd (u : UserInfo) : Option UserInfo :=
  ([0, 1, 2].foldl clearValidFlow u).clearDataStream.map fun u =>
    { u.trafficCtlInit with activeFlowNum := 0 }

/-- What `MPD_DoSubFlowStateInd` does once a subflow was marked as gone. -/
def shutDown (u : UserInfo) (flowId : ℕ) (isChange flagOld : Bool) : Option UserInfo :=
  let u := ((u.clearTxWin flowId).clearSubWin flowId).changeDataWinFlowId flowId
  if isChange then
    (if u.anyFlowValid then some u else u.clearDataStream).map fun u =>
      if flagOld then u
      else { u with lastPackageTime := u32 (u.time + 6000), totalToAckNum := 0 }
  else some u

/-- `MPD_DoSubFlowStateInd`. `MP_ENABLE` is 3. -/
def doSubFlowStateInd (u : UserInfo) (deviceId state : ℕ) : Option UserInfo :=
  if deviceId = 0 then u.multipathInd
  else
    match getSubFlowId deviceId with
    | none => some u
    | some flowId =>
      let flowState := decide (state = 3)
      let v := u.schdSetFlowValid flowId flowState
      (if flowState then some v
        else v.shutDown flowId (schdGetFlowValid u flowId != flowState) u.anyFlowValid).map
          countActiveFlows

end UserInfo

/-- The steps that are traffic. New data goes out on a subflow that is there:
`MPD_SCHD_ChooseStream` passes over the others. -/
def Op.IsTraffic (u : UserInfo) : Op → Prop
  | .setFlowValid .. | .clearTxWin _ | .clearSubWin _ | .changeDataWinFlowId _ | .clearDataWin =>
    False
  | .send flowId _ _ => ∀ f ∈ flowId, schdGetFlowValid u f = true
  | _ => True

instance (u : UserInfo) : DecidablePred (Op.IsTraffic u)
  | .setFlowValid .. | .clearTxWin _ | .clearSubWin _ | .changeDataWinFlowId _ | .clearDataWin =>
    isFalse id
  | .send flowId _ _ => inferInstanceAs (Decidable (∀ f ∈ flowId, schdGetFlowValid u f = true))
  | .recv _ | .tick | .dataWinTimeOutCheck | .checkAck | .sackPeriodSend | .txWinRetransCheck =>
    isTrue trivial

/-- What can happen to a session that is told about its subflows. -/
inductive Event
  | traffic (op : Op)
  /-- `MPD_SubFlowStateInd`. -/
  | stateInd (deviceId state : ℕ)
  deriving DecidableEq

/-- One step of such a session; `none` when a loop of the code does not stop, or the operation is
not traffic. -/
def Event.step : Event → UserInfo → Option UserInfo
  | .traffic op, u => if op.IsTraffic u then op.step u else none
  | .stateInd deviceId state, u => u.doSubFlowStateInd deviceId state

/-- The indication that disables subflow `f`. -/
def Event.Disables (f : ℕ) : Event → Prop
  | .traffic _ => False
  | .stateInd deviceId state =>
    state ≠ 3 ∧ (getSubFlowId deviceId).map (·.val) = some f

instance (f : ℕ) : DecidablePred (Event.Disables f)
  | .traffic _ => isFalse id
  | .stateInd .. => inferInstanceAs (Decidable (_ ∧ _))

end Mpd

end AndroidVendor
