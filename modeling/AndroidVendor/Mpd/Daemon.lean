import AndroidVendor.Mpd.Measures
import AndroidVendor.Mpd.StateInd
import AndroidVendor.Mpd.Suspend

/-!
# MPD as a whole

What MPD offers to its callers (`mpd.c`): sessions are created and deleted, packets go in from both
sides, subflows come and go, and `MPD_periodCheck` makes its calls for every session once a tick.

`SessionOp` is what happens to one session. `DaemonOp` is what happens to the table `g_pUserInfo`
with `g_totalUserNum` and the clock `g_time`.

## Implementation notes

The build is that of `Android.mk`, without `MAG`: `MPD_periodCheck` calls `MPD_CheckNoTraffic`, and
`MPD_CheckTxWinPdata` is left out. Its entry points have no argument for the address; they work on
the one session that `MPD_Init` has created, at address 0. Those of a build with `MAG` take an
address, and do the same at any: the operations here are these, and a run of the device is one in
which a session is created first and every call is for address 0.

A session carries a copy of `g_time`; `MPD_periodCheck` sets the copies before it makes its calls.
`MPD_CreatUserSession` initialises memory as `malloc` returns it: `mem` is what it holds.
`ended` are the sessions that were deleted, as they were when their memory was freed.
-/

namespace AndroidVendor

namespace Mpd

namespace Session

def setTime (s : Session) (t : ℕ) : Session := s.setUser { s.user with time := t }

/-- The calls `MPD_periodCheck` makes for a session. -/
def periodTurn (s : Session) : Option Session :=
  let s := s.checkTxwinEmpty
  let s := s.setSchd s.schd.trafficControl
  let s := s.pktAvgUpdate.delayUpdate
  s.wait.doSendWaitQueueData.bind fun w =>
    let s := { s with wait := w }
    s.user.timeoutTxWinSuspend.dataWinTimeOutCheck.map fun u =>
      (s.setUser u.sackPeriodSend.checkAck.txWinRetransCheck).checkNoTraffic.rttUpdate

/-! ### State indications -/

/-- The subflows whose windows `MPD_DoSubFlowStateInd` clears. -/
def clearedFlows (s : Session) (deviceId state : ℕ) : List ℕ :=
  if deviceId = 0 then [0, 1, 2].filter (schdGetFlowValid s.user)
  else if state = 3 then []
  else (getSubFlowId deviceId).toList.map (·.val)

/-- With its windows a subflow loses what `MPD_CheckNoTraffic` has seen of them. -/
def forget (s : Session) (fs : List ℕ) : Session :=
  { s with flow := fun i =>
      if i ∈ fs then { s.flow i with lastTxBeginSsn := 0, lastRxBegin := 0 } else s.flow i }

/-- `MPD_DoSubFlowStateInd`, with all that the session consists of. -/
def stateInd (s : Session) (deviceId state : ℕ) : Option Session :=
  (s.user.doSubFlowStateInd deviceId state).bind fun u =>
    let t := (s.setUser u).forget (s.clearedFlows deviceId state)
    if deviceId = 0 then
      t.wait.clearWaitQueue.map fun w => { t with wait := { w with schd := w.schd.trafficCtlInit } }
    else some t

/-- What `MPD_DeleteUserSession` does before it frees the session. -/
def close (s : Session) : Option Session :=
  s.user.clearDataWin.map fun u =>
    s.setUser ([0, 1, 2].foldl (fun u i => if schdGetFlowValid u i then u.clearTxWin i else u) u)

/-- `MPD_UserInfoInit`, at the time `time`, of memory that holds `mem`. The scheduler's entries keep
two fields of what was there. `allocs`, `sends` and `rtts` of `mem` are the answers the environment
is going to give. -/
def userInfoInit (mem : Session) (uid time : ℕ) : Session where
  wait := {
    schd := {
      user := {
        uid := uid
        time := time
        sendSackTime := u32 (time + 1)
        lastPackageTime := u32 (time + 6000)
        allocs := mem.user.allocs
        sends := mem.user.sends }
      rate := fun i => { mem.schd.rate i with pktAvg := 128, pktChooseCnt := 0 }
      trafficCtlTime := mem.schd.trafficCtlTime
      g := mem.schd.g } }
  rtts := mem.rtts

end Session

/-- What happens to a session. -/
inductive SessionOp
  | parseMPData (m : Msg)
  /-- A packet is to be sent; its length is that of the data in the buffer. -/
  | sendNewTransData (data : Msg)
  | subFlowStateInd (deviceId state : ℕ)
  /-- `g_time` has become `time`, and `MPD_periodCheck` makes its calls. -/
  | periodCheck (time : ℕ)
  deriving DecidableEq

/-- One step of a session; `none` when a loop of the code does not stop. -/
def SessionOp.step : SessionOp → Session → Option Session
  | .parseMPData m, s => (s.user.doParseMPData m).map s.setUser
  | .sendNewTransData data, s =>
    some { s with wait := s.wait.transNewData data data.data.length }
  | .subFlowStateInd deviceId state, s => s.stateInd deviceId state
  | .periodCheck time, s => (s.setTime time).periodTurn

/-- The sessions of MPD. -/
structure Daemon where
  time : ℕ := 0
  pUserInfo : ℕ → Option Session := fun _ => none
  totalUserNum : ℕ := 0
  /-- What was asked for on behalf of no session. -/
  out : List Action := []
  ended : List Session := []

namespace Daemon

def setSession (d : Daemon) (idx : ℕ) (s : Option Session) : Daemon :=
  { d with pUserInfo := Function.update d.pUserInfo idx s }

/-- The first address that is free, of `MAX_USER_NUM`. -/
def freeIndex (d : Daemon) : Option ℕ := (List.range 100).find? fun idx => (d.pUserInfo idx).isNone

/-- `MPD_CreatUserSession`: the address it returns; `mem` is `none` when there is no memory. -/
def creatUserSession (d : Daemon) (uid : ℕ) (mem : Option Session) : ℕ × Daemon :=
  match d.freeIndex with
  | none => (4294967295, d)
  | some idx =>
    match mem with
    | none => (0, d)
    | some mem =>
      (idx, { d.setSession idx (some (mem.userInfoInit uid d.time)) with
        totalUserNum := u32 (d.totalUserNum + 1) })

/-- `MPD_DeleteUserSession`. -/
def deleteUserSession (d : Daemon) (addressID : ℕ) : Option Daemon :=
  if d.totalUserNum = 0 then some d
  else
    match d.pUserInfo addressID with
    | none => some d
    | some s =>
      s.close.map fun s =>
        { d.setSession addressID none with
          totalUserNum := d.totalUserNum - 1, ended := d.ended ++ [s] }

/-- A call for the session at an address. Without a session the buffers `lost` are freed. -/
def call (d : Daemon) (addressID : ℕ) (op : SessionOp) (lost : List Msg) : Option Daemon :=
  match d.pUserInfo addressID with
  | none => some { d with out := d.out ++ lost.map .free }
  | some s => (op.step s).map fun s => d.setSession addressID (some s)

/-- The loop of `MPD_periodCheck`, over the addresses `idxs`. -/
def periodLoop : List ℕ → ℕ → Daemon → Option Daemon
  | [], _, d => some d
  | idx :: idxs, userNum, d =>
    match d.pUserInfo idx with
    | none => periodLoop idxs userNum d
    | some s =>
      if d.totalUserNum ≤ userNum then some d
      else s.periodTurn.bind fun s => periodLoop idxs (userNum + 1) (d.setSession idx (some s))

/-- `g_time++`. -/
def tick (d : Daemon) : Daemon :=
  { d with
    time := u32 (d.time + 1)
    pUserInfo := fun idx => (d.pUserInfo idx).map fun s => s.setTime (u32 (d.time + 1)) }

/-- `MPD_periodCheck`. -/
def periodCheck (d : Daemon) : Option Daemon := periodLoop (List.range 100) 0 d.tick

end Daemon

/-- What happens to MPD. -/
inductive DaemonOp
  | creatUserSession (uid : ℕ) (mem : Option Session)
  | deleteUserSession (addressID : ℕ)
  | parseMPData (addressID : ℕ) (buffer : Msg)
  | sendNewTransData (addressID : ℕ) (data : Msg)
  | subFlowStateInd (addressID deviceId state : ℕ)
  | periodCheck

/-- One step of MPD; `none` when a loop of the code does not stop, or for an address outside of the
table. -/
def DaemonOp.step : DaemonOp → Daemon → Option Daemon
  | .creatUserSession uid mem, d => some (d.creatUserSession uid mem).2
  | .deleteUserSession addressID, d =>
    if addressID < 100 then d.deleteUserSession addressID else none
  | .parseMPData addressID buffer, d =>
    if addressID < 100 then d.call addressID (.parseMPData buffer) [buffer] else none
  | .sendNewTransData addressID data, d =>
    if addressID < 100 then d.call addressID (.sendNewTransData data) [data] else none
  | .subFlowStateInd addressID deviceId state, d =>
    if addressID < 100 then d.call addressID (.subFlowStateInd deviceId state) [] else none
  | .periodCheck, d => d.periodCheck

end Mpd

end AndroidVendor
