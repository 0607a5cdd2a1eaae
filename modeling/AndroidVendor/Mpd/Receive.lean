import AndroidVendor.Lib.Machine
import AndroidVendor.Mpd.DataWin
import AndroidVendor.Mpd.Sack

/-!
# The session

`MPD_DoParseMPData`, which takes every datagram apart, and the session as a machine: datagrams
arrive, data is sent, time passes, the timers of `MPD_periodCheck` run, subflows come and go. The
steps come in any order, so the order in which `MPD_periodCheck` and `MPD_DoSubFlowStateInd` make
their calls is one of those covered.
-/

namespace AndroidVendor

namespace Mpd

/-- The data packet in a datagram. -/
def Msg.node (m : Msg) : MPDNodeInfo where
  stream := m.header.stream
  fragment := m.header.fragment
  dsn := m.header.dsn
  ssn := m.header.ssn
  msgLen := u16 m.data.length
  mpdHeadLen := m.header.length * 4
  msgPtr := m

/-- The reads of the header: flag and the byte of bit fields, then the numbers, which only a packet
of an active subflow is asked for. -/
def Msg.headReads (m : Msg) (offs : List ℕ) : List Action :=
  offs.map fun i => .access (.read i m.data.length)

/-- The datagram is a header and nothing else. -/
def Msg.IsAck (m : Msg) : Prop := m.node.mpdHeadLen = m.data.length

instance (m : Msg) : Decidable m.IsAck := inferInstanceAs (Decidable (_ = _))

/-- `(mpdHeadLen - sizeof(stMPDHeader)) >= 8`, an unsigned difference. -/
def Msg.HasSack (m : Msg) : Prop := 8 ≤ u32 (m.node.mpdHeadLen + 4294967296 - 12)

instance (m : Msg) : Decidable m.HasSack := inferInstanceAs (Decidable (_ ≤ _))

namespace UserInfo

/-- The test at the top of `MPD_DoParseMPData`. -/
def Rejects (u : UserInfo) (m : Msg) : Prop :=
  m.header.flag ≠ 0x55 ∨ schdGetFlowValid u m.header.stream = false

instance (u : UserInfo) (m : Msg) : Decidable (u.Rejects m) := inferInstanceAs (Decidable (_ ∨ _))

/-- The sub window of the packet's subflow looks clear and the packet is not one of the first. -/
def TooLate (u : UserInfo) (m : Msg) : Prop :=
  (u.rxSubWin m.header.stream).looksClear ∧ 5 < m.header.ssn

instance (u : UserInfo) (m : Msg) : Decidable (u.TooLate m) := inferInstanceAs (Decidable (_ ∧ _))

/-- `MPD_DoParseMPData` from the acknowledgement on, for a datagram without data. -/
def parseAck (u : UserInfo) (m : Msg) : Option UserInfo :=
  let stream := m.header.stream
  let ack := m.header.ack
  let u := u.emit [.access (.sub m.node.mpdHeadLen 12)]
  (if m.HasSack then
    ((u.emit (m.headReads [14])).processACK stream ack (m.byte 14)).bind
      fun u => u.parserSACK stream m ack
  else u.processACK stream ack 1).map fun u => u.emit [.free m]

/-- `MPD_DoParseMPData` behind the acknowledgement, for a data packet. -/
def parseData (u : UserInfo) (m : Msg) : Option UserInfo :=
  let stream := m.header.stream
  if u.TooLate m then some (u.emit [.free m])
  else
    (u.dataWinAddNode m.node).bind fun r =>
      if r.2 then
        (r.1.setRxSubWin stream ((r.1.rxSubWin stream).addNode m.header.ssn)).dataWinRxBeginMove
          false
      else some r.1

/-- `MPD_DoParseMPData`. -/
def doParseMPData (u : UserInfo) (m : Msg) : Option UserInfo :=
  let u := u.emit (m.headReads [0, 1])
  let u := if m.header.flag = 0x55 then u.emit [.access (.flow m.header.stream)] else u
  if u.Rejects m then some (u.emit [.free m])
  else
    let u := { u.emit (m.headReads [2, 3, 4, 5, 6, 7]) with
      lastPackageTime := u32 (u.time + 6000) }
    if m.IsAck then u.parseAck m
    else (u.processACK m.header.stream m.header.ack 1).bind fun u => u.parseData m

/-- `MPD_ClearSubWin`. -/
def clearSubWin (u : UserInfo) (index : ℕ) : UserInfo := u.setRxSubWin index {}

/-- `MPD_SCHD_setFlowValid`. -/
def schdSetFlowValid (u : UserInfo) (flowId : ℕ) (flag : Bool) : UserInfo :=
  u.setSchdPara flowId { u.schdPara flowId with isValid := flag }

theorem schdSetFlowValid_self (u : UserInfo) (f : ℕ) (flag : Bool) :
    schdGetFlowValid (u.schdSetFlowValid f flag) f = flag := by
  simp [schdGetFlowValid, schdSetFlowValid, setSchdPara]

theorem schdSetFlowValid_of_ne (u : UserInfo) {f g : ℕ} (flag : Bool) (hne : g ≠ f) :
    schdGetFlowValid (u.schdSetFlowValid f flag) g = schdGetFlowValid u g := by
  simp only [schdGetFlowValid, schdSetFlowValid, setSchdPara, Function.update_of_ne hne]

end UserInfo

/-- What can happen to a session. -/
inductive Op
  /-- A datagram arrives. -/
  | recv (m : Msg)
  /-- `g_time++`. -/
  | tick
  | dataWinTimeOutCheck
  | checkAck
  | sackPeriodSend
  | txWinRetransCheck
  /-- New data, sent on the subflow the scheduler chose. -/
  | send (flowId : Option (Fin 3)) (data : Msg) (length : ℕ)
  | setFlowValid (flowId : Fin 3) (flag : Bool)
  | clearTxWin (flowId : Fin 3)
  | clearSubWin (flowId : Fin 3)
  | changeDataWinFlowId (flowId : Fin 3)
  | clearDataWin
  deriving DecidableEq

/-- One step of a session; `none` when a loop of the code does not stop. -/
def Op.step : Op → UserInfo → Option UserInfo
  | .recv m, u => u.doParseMPData m
  | .tick, u => some { u with time := u32 (u.time + 1) }
  | .dataWinTimeOutCheck, u => u.dataWinTimeOutCheck
  | .checkAck, u => some u.checkAck
  | .sackPeriodSend, u => some u.sackPeriodSend
  | .txWinRetransCheck, u => some u.txWinRetransCheck
  | .send flowId data length, u => some (u.doSendNewTransData (flowId.map (·.val)) data length).2
  | .setFlowValid flowId flag, u => some (u.schdSetFlowValid flowId flag)
  | .clearTxWin flowId, u => some (u.clearTxWin flowId)
  | .clearSubWin flowId, u => some (u.clearSubWin flowId)
  | .changeDataWinFlowId flowId, u => some (u.changeDataWinFlowId flowId)
  | .clearDataWin, u => u.clearDataWin

end Mpd

end AndroidVendor
