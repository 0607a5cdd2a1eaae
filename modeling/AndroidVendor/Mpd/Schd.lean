import AndroidVendor.Mpd.Outstanding

/-!
# The scheduler

`MPD_SCHD_ChooseStream` and `MPD_TrafficControl` (`mpd_schd.c`): on which subflow the next packet
goes, and how many packets a subflow under traffic control may take in a period of a second.

`SchdInfo` is the session with what the window code does not look at: the rest of the tables
`schdPara` and `trafficControl`, the flags of `stUserInfo` that both functions share, and the
globals. The globals are C `int`s that the code reads as `U32`s; here they are the latter.

`touched` is every index at which `MPD_SCHD_ChooseStream` has read or written a table of
`NUM_SUBFLOW` entries, `divisors` every number it has divided by. It looks into no table that these
do not name.

## Implementation notes

`INVALID_STREAM` is 255. The code uses the result as an index before it returns it, so the model
does: entry 255 of the functions below stands for the memory behind the tables.
-/

namespace AndroidVendor

namespace Mpd

/-- The fields of `stSchdStreamPara` that the scheduler reads or writes and the window code does
not. -/
structure SchdRate where
  pktAvg : ℕ := 128
  pktChooseCnt : ℕ := 0
  txWinEmptyCnt : ℕ := 0
  isSendPkt : Bool := false
  deriving DecidableEq, Repr

/-- The fields of `stTrafficControl` that the scheduler reads or writes and the window code does
not; as `MPD_TrafficCtlInit` sets them. -/
structure FlowTraffic where
  pktRatePre : ℕ := 0
  /-- Packets the flow was chosen for in this period. -/
  pktCntTx : ℕ := 0
  scaleFactor : ℕ := 120
  lossThrsh : ℕ := 5
  pktRateAvg : ℕ := 128
  throuputLimit : ℕ := 100
  ssnBegin : ℕ := 0
  acceleratedCnt : ℕ := 0
  quitTrafficCtlCnt : ℕ := 0
  isTrafficCtl : Bool := false
  isPktTxStop : Bool := false
  deriving DecidableEq, Repr

/-- The globals of `mpd_schd.c`. -/
structure SchdGlobals where
  isTrafficCtl : Bool := false
  inhertDelay : ℕ := 50
  isMdelayMin : Bool := true
  mminusPkt : ℕ := 0
  deriving DecidableEq, Repr

/-- The session as the scheduler sees it. -/
structure SchdInfo where
  user : UserInfo := {}
  rate : ℕ → SchdRate := fun _ => {}
  traffic : ℕ → FlowTraffic := fun _ => {}
  trafficCtlTime : ℕ := 0
  throuputTotal : ℕ := 500
  isAllFlowTrafficCtl : Bool := false
  isMpStopSched : Bool := false
  g : SchdGlobals := {}
  touched : List ℕ := []
  divisors : List ℕ := []

namespace SchdInfo

def setRate (s : SchdInfo) (flowId : ℕ) (r : SchdRate) : SchdInfo :=
  { s with rate := Function.update s.rate flowId r }

def setTraffic (s : SchdInfo) (flowId : ℕ) (t : FlowTraffic) : SchdInfo :=
  { s with traffic := Function.update s.traffic flowId t }

/-- Entry `flowId` of a table is looked at. -/
def touch (s : SchdInfo) (flowId : ℕ) : SchdInfo := { s with touched := s.touched ++ [flowId] }

/-- A division, and what is left of its result in 32 bits. -/
def divide (s : SchdInfo) (a d : ℕ) : ℕ × SchdInfo :=
  (u32 a / d, { s with divisors := s.divisors ++ [d] })

/-! ### Traffic control -/

/-- `MPD_TrafficCtlInit`, less the wait queue. -/
def trafficCtlInit (s : SchdInfo) : SchdInfo :=
  { s with
    traffic := fun i => if i < 3 then {} else s.traffic i
    user := { s.user with
      trafficControl := fun i => if i < 3 then {} else s.user.trafficControl i }
    throuputTotal := 500
    isAllFlowTrafficCtl := false
    isMpStopSched := false }

/-- `scaleFactor` of the next period. -/
def nextScaleFactor (t : FlowTraffic) (sackNum lossPktCnt sendPktCnt : ℕ) : ℕ :=
  let factor :=
    if sackNum ≠ 0 then
      if u32 (sendPktCnt * 19) < u32 (lossPktCnt * 100) then u32 (t.scaleFactor * 60) / 100
      else u32 (t.scaleFactor * 95) / 100
    else
      let tmp := u32 (t.scaleFactor * 105) / 100
      if u32 (t.scaleFactor + 5) < tmp then tmp else u32 (t.scaleFactor + 5)
  if factor < 90 then 90 else if 110 < factor then 110 else factor

/-- `pktRatePre` and `acceleratedCnt` are brought up to date, unless a limit is being held. -/
def accelerate (t : FlowTraffic) (pktRate : ℕ) : FlowTraffic :=
  if t.quitTrafficCtlCnt = 0 then
    let pktIncre := u32 (t.pktRatePre * 105 + 99) / 100
    let pktIncre1 := u32 (t.pktRatePre * 95 + 99) / 100
    { t with
      pktRatePre := pktRate
      acceleratedCnt :=
        if pktRate < pktIncre ∧ pktIncre1 < pktRate then u32 (t.acceleratedCnt + 1) else 0 }
  else t

/-- The last part of the check: whether the flow is under traffic control in the next period, and
its limit then. -/
def limitFlow (s : SchdInfo) (flowId rateAvg lossPktCnt sendPktCnt : ℕ) : SchdInfo :=
  let t := s.traffic flowId
  let limit := u32 (rateAvg * t.scaleFactor) / 100
  if (u32 (sendPktCnt * t.lossThrsh) < u32 (lossPktCnt * 100) ∧ 3 < lossPktCnt) ∨
      (2 < t.acceleratedCnt ∧ (s.rate flowId).txWinEmptyCnt = 0) then
    { s.setTraffic flowId
        { t with
          acceleratedCnt := 0, isTrafficCtl := true, quitTrafficCtlCnt := 1,
          throuputLimit := if limit < 10 then 10 else limit } with
      trafficCtlTime := s.user.time }
  else if 0 < t.quitTrafficCtlCnt then
    if t.quitTrafficCtlCnt < 10 then
      { s.setTraffic flowId
          { t with
            isTrafficCtl := true
            throuputLimit := if t.throuputLimit < limit then limit else t.throuputLimit
            quitTrafficCtlCnt := t.quitTrafficCtlCnt + 1 } with
        trafficCtlTime := s.user.time }
    else
      { s.setTraffic flowId { t with quitTrafficCtlCnt := 0 } with isAllFlowTrafficCtl := false }
  else { s with isAllFlowTrafficCtl := false }

/-- The loop body of `MPD_TrafficControl`, `g_isTrafficCtl` being set. The scale of the running
average, `g_schdCfg.scalePktV`, is 5. -/
def trafficControlFlow (s : SchdInfo) (flowId : ℕ) : SchdInfo :=
  if !schdGetFlowValid s.user flowId then s
  else
    let c := s.user.trafficControl flowId
    let t := { s.traffic flowId with isTrafficCtl := false, isPktTxStop := false }
    let lossPktCnt := c.pktLossCnt
    let sendPktCnt := distanceSN t.ssnBegin c.ssnEnd
    let t := { t with
      ssnBegin := c.ssnEnd
      scaleFactor := nextScaleFactor t c.sackNum lossPktCnt sendPktCnt }
    let t := accelerate t c.pktRate
    let rateAvg := u32 (t.pktRateAvg * 3 + 2 * c.pktRate) / 5
    let t := { t with pktRateAvg := rateAvg }
    let rateAvg := if rateAvg < c.pktRate then c.pktRate else rateAvg
    let s := (s.setTraffic flowId t).limitFlow flowId rateAvg lossPktCnt sendPktCnt
    let t := s.traffic flowId
    let s := s.setTraffic flowId { t with pktCntTx := 0 }
    { s with
      throuputTotal := u32 (s.throuputTotal + t.throuputLimit)
      user := s.user.setTrafficControl flowId { c with pktLossCnt := 0, pktRate := 0, sackNum := 0 } }

/-- The period of the check has come. -/
def PeriodCheck (s : SchdInfo) : Prop := s.user.time % 100 = s.user.uid % 100

instance (s : SchdInfo) : Decidable s.PeriodCheck := inferInstanceAs (Decidable (_ = _))

/-- `MPD_TrafficControl`. -/
def trafficControl (s : SchdInfo) : SchdInfo :=
  if !s.g.isTrafficCtl then
    { s with
      isAllFlowTrafficCtl := false
      throuputTotal := 0
      isMpStopSched := false
      traffic := fun i =>
        if i < 3 then { s.traffic i with isTrafficCtl := false, isPktTxStop := false }
        else s.traffic i }
  else if s.PeriodCheck then
    [0, 1, 2].foldl trafficControlFlow
      { s with isAllFlowTrafficCtl := true, throuputTotal := 0, isMpStopSched := false }
  else s

/-! ### Choosing a subflow -/

/-- `InhertDelay`, that of subflow 0 at most `g_InhertDelay` if `g_isMdelayMin` is set. -/
def baseDelay (s : SchdInfo) (flowId : ℕ) : ℕ :=
  let delay := (s.user.schdPara flowId).inhertDelay
  if flowId = 0 ∧ s.g.isMdelayMin ∧ s.g.inhertDelay < delay then s.g.inhertDelay else delay

/-- `wCntFlow`: how long the next packet would take on the subflow, `histNum` packets being ahead of
it. -/
def wCntFlow (s : SchdInfo) (flowId histNum : ℕ) : ℕ × SchdInfo :=
  let wCnt := s.baseDelay flowId
  let pktAvg := (s.rate flowId).pktAvg
  if 0 < pktAvg then
    let (wait, s) := s.divide (histNum * 1000) pktAvg
    let wCnt := u32 (wCnt + wait)
    if flowId = 0 ∧ s.g.mminusPkt ≠ 0 then
      let (tmp, s) := s.divide (s.g.mminusPkt * 1000) pktAvg
      (if tmp < wCnt then wCnt - tmp else 0, s)
    else (wCnt, s)
  else (wCnt, s)

/-- What the loop of `MPD_SCHD_ChooseStream` carries along. -/
structure Choice where
  info : SchdInfo
  result : ℕ
  minWCnt : ℕ

/-- What the loop does about the quota of a flow that is valid and not stopped. A flow that has used
it up is stopped, but stays in the running. -/
def checkQuota (s : SchdInfo) (flowId : ℕ) : SchdInfo :=
  let t := s.traffic flowId
  if t.isTrafficCtl then
    if t.throuputLimit ≤ t.pktCntTx then s.setTraffic flowId { t with isPktTxStop := true }
    else { s with isMpStopSched := false }
  else { s with isMpStopSched := false }

/-- The loop body of `MPD_SCHD_ChooseStream`. -/
def chooseFlow (c : Choice) (flowId : ℕ) : Choice :=
  let s := c.info.touch flowId
  if !schdGetFlowValid s.user flowId then { c with info := s }
  else if (s.traffic flowId).isTrafficCtl ∧ (s.traffic flowId).isPktTxStop then { c with info := s }
  else
    let s := s.checkQuota flowId
    let (histNum, user) := s.user.getHistAcnt flowId (s.rate flowId).pktAvg
    let (wCnt, s) := { s with user := user }.wCntFlow flowId histNum
    if wCnt < c.minWCnt then ⟨s, flowId, wCnt⟩ else { c with info := s }

/-- The flow that was chosen is counted. -/
def countChosen (s : SchdInfo) (result : ℕ) : SchdInfo :=
  let s := s.touch result
  let r := s.rate result
  let t := s.traffic result
  (s.setRate result { r with isSendPkt := true, pktChooseCnt := u32 (r.pktChooseCnt + 1) }).setTraffic
    result { t with pktCntTx := u32 (t.pktCntTx + 1) }

/-- `MPD_SCHD_ChooseStream`. -/
def chooseStream (s : SchdInfo) : ℕ × SchdInfo :=
  let c := [0, 1, 2].foldl chooseFlow ⟨{ s with isMpStopSched := true }, 255, 4294967295⟩
  (c.result, c.info.countChosen c.result)

end SchdInfo

end Mpd

end AndroidVendor
