import AndroidVendor.Mpd.WaitQueue

/-!
# Measuring the subflows

The functions of `mpd_schd.c` that keep the rate and the delay of every subflow, on which the
scheduler bases its choice, and `MPD_CheckNoTraffic` (`mpd.c`), which looks for a session that has
gone quiet.

`Session` is `stUserInfo` with all that the functions of MPD use. The modules before look at parts
of it: windows, scheduler, wait queue.

## Implementation notes

`T_PKT` is 50 and `g_schdCfg.scalePktV` is 5. `pktAvgUpdate` records what it divides by in
`divisors`, as `MPD_SCHD_ChooseStream` does.
-/

namespace AndroidVendor

namespace Mpd

/-- What `stSchdStreamPara`, `stTxWin` and `stRxSubWin` hold for the functions below only. -/
structure FlowMeasure where
  modifyFactor : ℕ := 100
  isPeriodRttUpdate : Bool := true
  /-- `SSN` of the oldest node, as `MPD_CheckNoTraffic` last saw it. -/
  lastTxBeginSsn : ℕ := 0
  /-- `RxBegin`, as `MPD_CheckNoTraffic` last saw it. -/
  lastRxBegin : ℕ := 0
  deriving DecidableEq, Repr

/-- `stUserInfo`. -/
structure Session where
  wait : WaitInfo := {}
  flow : ℕ → FlowMeasure := fun _ => {}
  /-- Answers `GetRTTC` is going to give. -/
  rtts : ℕ → ℕ := fun _ => 0

namespace Session

def schd (s : Session) : SchdInfo := s.wait.schd

def user (s : Session) : UserInfo := s.wait.schd.user

def setSchd (s : Session) (i : SchdInfo) : Session := { s with wait := { s.wait with schd := i } }

def setUser (s : Session) (u : UserInfo) : Session := { s with wait := s.wait.setUser u }

def setFlow (s : Session) (flowId : ℕ) (m : FlowMeasure) : Session :=
  { s with flow := Function.update s.flow flowId m }

@[simp] theorem schd_setSchd (s : Session) (i : SchdInfo) : (s.setSchd i).schd = i := rfl

/-- One of the checks that come every `n` ticks is due. -/
def Due (s : Session) (n : ℕ) : Prop := s.user.time % n = s.user.uid % n

instance (s : Session) (n : ℕ) : Decidable (s.Due n) := inferInstanceAs (Decidable (_ = _))

/-! ### Empty windows -/

/-- `MPD_isTxWinEmpty`, and what `MPD_CHECK_Txwin_Empty` does with the answer. -/
def checkTxwinEmptyFlow (s : Session) (flowId : ℕ) : Session :=
  let w := s.user.txWindow flowId
  let r := s.schd.rate flowId
  if schdGetFlowValid s.user flowId ∧ w.pTxBegin = w.pTxNext ∧ r.isSendPkt then
    s.setSchd (s.schd.setRate flowId
      { r with isSendPkt := false, txWinEmptyCnt := u32 (r.txWinEmptyCnt + 1) })
  else s

/-- `MPD_CHECK_Txwin_Empty`. -/
def checkTxwinEmpty (s : Session) : Session :=
  if s.Due 10 then [0, 1, 2].foldl checkTxwinEmptyFlow s else s

/-! ### The rate -/

/-- `PktAvg` after half a second in which `pktCnt` packets were confirmed. -/
def nextPktAvg (r : SchdRate) (pktCnt : ℕ) : ℕ :=
  let pktTmp := u32 (pktCnt * 100) / 50
  let pktAvg := u32 (r.pktAvg * 3 + 2 * pktTmp) / 5
  let avg :=
    -- a window that ran empty does not slow the flow down
    if 0 < r.txWinEmptyCnt then (if r.pktAvg < pktAvg then pktAvg else r.pktAvg) else pktAvg
  if avg < 38 then max (avg * 3 / 2) 38 else avg

/-- The loop body of `MPD_SCHD_PktAvgUpdate`. -/
def pktAvgUpdateFlow (s : Session) (flowId : ℕ) : Session :=
  if !schdGetFlowValid s.user flowId then s
  else
    let p := s.user.schdPara flowId
    let r := s.schd.rate flowId
    let avg := nextPktAvg r p.pktCnt
    let s :=
      if avg ≠ 0 then
        let pktAvgTmp := if 0 < r.txWinEmptyCnt then u32 (avg * 6) / 5 else avg
        let (factor, i) := s.schd.divide 10000 pktAvgTmp
        (s.setSchd i).setFlow flowId { s.flow flowId with modifyFactor := factor }
      else s
    let s := s.setSchd (s.schd.setRate flowId
      { r with pktAvg := avg, pktChooseCnt := 0, txWinEmptyCnt := 0 })
    s.setUser (s.user.setSchdPara flowId { p with pktCnt := 0, pktRetCnt := 0 })

/-- `MPD_SCHD_PktAvgUpdate`. -/
def pktAvgUpdate (s : Session) : Session :=
  if s.Due 50 then [0, 1, 2].foldl pktAvgUpdateFlow s else s

/-! ### The delay -/

/-- `InhertDelay` after a packet was confirmed that took `rtt` milliseconds. A delay grows slowly and
shrinks fast. -/
def nextInhertDelay (delay rtt : ℕ) : ℕ :=
  if delay = 0 then rtt
  else
    let delay := if delay ≤ rtt then u32 (delay * 9 + rtt) / 10 else u32 (delay + rtt) / 2
    if delay < 5 then 5 else delay

/-- The loop body of `MPD_SCHD_DelayUpdate`. -/
def delayUpdateFlow (s : Session) (flowId : ℕ) : Session :=
  let p := s.user.schdPara flowId
  if schdGetFlowValid s.user flowId ∧ p.isRttUpdate then
    (s.setUser (s.user.setSchdPara flowId
      { p with isRttUpdate := false, inhertDelay := nextInhertDelay p.inhertDelay (u32 (p.rttNew * 10)) })).setFlow
        flowId { s.flow flowId with isPeriodRttUpdate := true }
  else s

/-- `MPD_SCHD_DelayUpdate`. -/
def delayUpdate (s : Session) : Session :=
  if s.Due 50 then [0, 1, 2].foldl delayUpdateFlow s else s

/-- The loop body of `MPD_SCHD_RttUpdate`: where nothing was confirmed for a while, the delay is
that of the command channel. -/
def rttUpdateFlow (s : Session) (flowId : ℕ) : Session :=
  if !schdGetFlowValid s.user flowId then s
  else if (s.flow flowId).isPeriodRttUpdate then
    s.setFlow flowId { s.flow flowId with isPeriodRttUpdate := false }
  else
    let rtt := u32 (s.rtts 0)
    let s := { s with rtts := fun n => s.rtts (n + 1) }
    if 0 < rtt then
      s.setUser (s.user.setSchdPara flowId { s.user.schdPara flowId with inhertDelay := rtt })
    else s

/-- `MPD_SCHD_RttUpdate`. -/
def rttUpdate (s : Session) : Session :=
  if s.Due 150 then [0, 1, 2].foldl rttUpdateFlow s else s

/-! ### A quiet session -/

/-- The windows of the subflow, as `MPD_CheckNoTraffic` remembers them. -/
def mark (s : Session) (flowId : ℕ) : FlowMeasure :=
  { s.flow flowId with
    lastTxBeginSsn := (s.user.txWindow flowId).beginNode.ssn
    lastRxBegin := (s.user.rxSubWin flowId).rxBegin }

/-- The loop body of `MPD_CheckNoTraffic`, with `isNoTraffic`. -/
def checkNoTrafficFlow (c : Bool × Session) (flowId : ℕ) : Bool × Session :=
  let (isNoTraffic, s) := c
  let tx := s.user.txWindow flowId
  let rx := s.user.rxSubWin flowId
  if !schdGetFlowValid s.user flowId then c
  else if !isNoTraffic then (false, s.setFlow flowId (s.mark flowId))
  else if tx.pTxBegin ≠ tx.pTxNext ∨ tx.beginNode.ssn ≠ (s.flow flowId).lastTxBeginSsn then
    (false, s.setFlow flowId (s.mark flowId))
  else if rx.rxBegin ≠ rx.rxNext ∨ rx.rxBegin ≠ (s.flow flowId).lastRxBegin then
    (false, s.setFlow flowId { s.flow flowId with lastRxBegin := rx.rxBegin })
  else c

/-- `MPD_CheckNoTraffic`. A session in which nothing moves is reported with the code −6. -/
def checkNoTraffic (s : Session) : Session :=
  if s.user.time % 200 = 0 then
    let (isNoTraffic, s) := [0, 1, 2].foldl checkNoTrafficFlow (true, s)
    if isNoTraffic ∧ s.user.rxDataWin.rxBegin = s.user.rxDataWin.rxNext then
      s.setUser (s.user.emit [.exception 0 (-6)])
    else s
  else s

end Session

end Mpd

end AndroidVendor
