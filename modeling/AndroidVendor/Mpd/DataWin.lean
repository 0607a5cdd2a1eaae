import AndroidVendor.Mpd.SubWin

/-!
# The rx data window

`stRxDataWin` and its operations (`mpd_rx.c`): packets of all subflows wait here until they can be
handed to the transport in DSN order.

The functions that reach `MPD_DataWinRxBeginMove` answer `none` when its loop does not stop: the
loop looks only at the slot at `RxBegin`, never at `RxNext`. One turn of the ring is fuel enough,
for the slots do not change while it runs.
-/

namespace AndroidVendor

namespace Mpd

open Loop

/-- `stMPDNodeInfo`: a data packet on its way into the windows. -/
structure MPDNodeInfo where
  stream : ℕ
  fragment : ℕ
  dsn : ℕ
  ssn : ℕ
  msgLen : ℕ
  mpdHeadLen : ℕ
  msgPtr : Msg
  deriving DecidableEq, Repr

/-- The entry of `msgPtr` and `msgLen` the packet belongs in. -/
def MPDNodeInfo.fragIndex (node : MPDNodeInfo) : ℕ :=
  if node.fragment = 0 then 0 else node.fragment - 1

/-! ### One slot -/

namespace RxDataWinNode

/-- The buffers `MPD_DataWinFreeMsgPtr` frees: one for every bit of `fragment`. -/
def freePtrs (n : RxDataWinNode) : List Msg :=
  if n.status = .unReceived then []
  else if n.fragment = 0 then (n.msgPtr 0).toList
  else (List.range 2).flatMap fun i => if n.fragment.testBit i then (n.msgPtr i).toList else []

/-- The slot as `MPD_DataWinPutInNode` leaves it. -/
def put (n : RxDataWinNode) (node : MPDNodeInfo) (time : ℕ) : RxDataWinNode :=
  let fragment := if node.fragment = 0 then 0 else n.fragment ||| 1 <<< (node.fragment - 1)
  { n with
    flag := .unChecked
    status := if node.fragment = 0 ∨ fragment = 3 then .receiveComplete else .received
    fragment := fragment
    time := if node.fragment = 0 ∨ fragment = 3 then n.time else u32 (time + 30)
    dsn := node.dsn
    mpdHeadLen := node.mpdHeadLen
    stream := node.stream
    ssn := node.ssn
    msgPtr := Function.update n.msgPtr node.fragIndex (some node.msgPtr)
    msgLen := Function.update n.msgLen node.fragIndex node.msgLen }

/-- The buffer of an unfragmented packet, as it is posted. -/
def postHead (n : RxDataWinNode) (site : PostSite) : List Action :=
  (n.msgPtr 0).toList.map fun m => .post site n.dsn m (n.msgLen 0) n.mpdHeadLen

/-- The length of two merged fragments: both lengths are taken less the header length of the
fragment that came last. -/
def mergedLen (n : RxDataWinNode) : ℕ :=
  (((n.msgLen 0 : ℤ) + n.msgLen 1 - n.mpdHeadLen) % 65536).toNat

/-- The buffer two fragments are copied into: the header of the first, the rest of the first, the
rest of the second. -/
def merge (n : RxDataWinNode) (first second : Msg) (addr : ℕ) : Msg where
  addr := addr
  data := first.slice 0 n.mpdHeadLen ++ first.slice n.mpdHeadLen (n.msgLen 0 - n.mpdHeadLen) ++
    second.slice n.mpdHeadLen (n.msgLen 1 - n.mpdHeadLen)

/-- Merging and posting, into the buffer `MPD_MsgMemCreat` gave, if it gave one. -/
def postMerged (n : RxDataWinNode) (mem : Option ℕ) : List Action :=
  .access (.sub (n.msgLen 0) n.mpdHeadLen) :: .access (.sub (n.msgLen 1) n.mpdHeadLen) ::
    match mem, n.msgPtr 0, n.msgPtr 1 with
    | some addr, some first, some second =>
      [.postMerged n.dsn first second (n.merge first second addr) n.mergedLen n.mpdHeadLen]
    | _, _, _ => []

/-- The condition of the loop of `MPD_DataWinRxBeginMove`. -/
def Ready (n : RxDataWinNode) : Prop := n.status = .receiveComplete ∨ n.timeOut = true

instance : DecidablePred Ready := fun _ => inferInstanceAs (Decidable (_ ∨ _))

/-- The test for a duplicate. -/
def Duplicate (n : RxDataWinNode) (node : MPDNodeInfo) : Prop :=
  (n.status = .received ∧ node.fragment &&& n.fragment ≠ 0) ∨ n.status = .receiveComplete

instance (n : RxDataWinNode) (node : MPDNodeInfo) : Decidable (n.Duplicate node) :=
  inferInstanceAs (Decidable (_ ∨ _))

/-- What `MPD_CheckAck` asks of a packet: TCP, and nothing after the TCP header. -/
def LooksPureAck (n : RxDataWinNode) (m : Msg) : Prop :=
  let ipHead := n.mpdHeadLen
  let ipLen := m.byte ipHead % 16 * 4
  m.byte (ipHead + 9) = 6 ∧
    (m.word (ipHead + 2) : ℤ) - ipLen - m.byte (ipHead + ipLen + 12) / 16 * 4 = 0

instance (n : RxDataWinNode) (m : Msg) : Decidable (n.LooksPureAck m) :=
  inferInstanceAs (Decidable (_ ∧ _))

/-- The bytes `MPD_CheckAck` reads. -/
def checkReads (n : RxDataWinNode) (m : Msg) : List Action :=
  let ipHead := n.mpdHeadLen
  if m.byte (ipHead + 9) = 6 then
    [ipHead + 9, ipHead + 2, ipHead + 3, ipHead, ipHead + m.byte ipHead % 16 * 4 + 12].map
      fun i => .access (.read i m.data.length)
  else [.access (.read (ipHead + 9) m.data.length)]

end RxDataWinNode

namespace RxDataWin

/-- The slot at `RxBegin`. -/
def beginNode (w : RxDataWin) : RxDataWinNode := w.win w.rxBegin

/-- The slot at `RxNext`. -/
def nextNode (w : RxDataWin) : RxDataWinNode := w.win w.rxNext

/-- The window is empty at slot 0, DSN 0. The code takes this for a window that was cleared, but a
window that has delivered everything up to DSN 65535 looks the same. -/
def looksClear (w : RxDataWin) : Prop := w.rxBegin = 0 ∧ w.rxNext = 0 ∧ w.beginNode.dsn = 0

instance (w : RxDataWin) : Decidable w.looksClear := inferInstanceAs (Decidable (_ ∧ _ ∧ _))

/-- `dsn` lies behind `RxBegin`. -/
def Behind (w : RxDataWin) (dsn : ℕ) : Prop :=
  distanceSN dsn w.beginNode.dsn < distanceSN w.beginNode.dsn dsn

instance (w : RxDataWin) (dsn : ℕ) : Decidable (w.Behind dsn) :=
  inferInstanceAs (Decidable (_ < _))

/-- `dsn` lies at or beyond `RxNext`. -/
def Beyond (w : RxDataWin) (dsn : ℕ) : Prop :=
  distanceSN w.nextNode.dsn dsn ≤ distanceSN dsn w.nextNode.dsn

instance (w : RxDataWin) (dsn : ℕ) : Decidable (w.Beyond dsn) :=
  inferInstanceAs (Decidable (_ ≤ _))

end RxDataWin

namespace UserInfo

def setDataWinBegin (u : UserInfo) (i : ℕ) : UserInfo :=
  { u with rxDataWin := { u.rxDataWin with rxBegin := i } }

def setDataWinNext (u : UserInfo) (i : ℕ) : UserInfo :=
  { u with rxDataWin := { u.rxDataWin with rxNext := i } }

/-- `MPD_DataWinFreeMsgPtr`. -/
def dataWinFreeMsgPtr (u : UserInfo) (index : ℕ) : UserInfo :=
  u.emit ((u.rxDataWin.win index).freePtrs.map .free)

/-! ### Moving `RxBegin` -/

/-- `dataWinSSN` follows a packet that is handed over, if its subflow is still there. -/
def noteDataWinSSN (u : UserInfo) (n : RxDataWinNode) : UserInfo :=
  let u := u.emit [.access (.flow n.stream)]
  if schdGetFlowValid u n.stream then
    u.setRxSubWin n.stream { u.rxSubWin n.stream with dataWinSSN := ssnPlus n.ssn }
  else u

/-- One round of the loop of `MPD_DataWinRxBeginMove`: the slot at `RxBegin` is handed over or given
up, and `RxBegin` moves on. -/
def dataWinHeadOut (u : UserInfo) : UserInfo :=
  let n := u.rxDataWin.beginNode
  let u :=
    if n.status = .receiveComplete then
      if n.fragment = 0 then
        (if n.flag ≠ .sended then u.emit (n.postHead .inOrder) else u).noteDataWinSSN n
      else if n.fragment = 3 then
        let (mem, u) := msgMemCreat u
        ((u.emit (n.postMerged mem)).noteDataWinSSN n).dataWinFreeMsgPtr u.rxDataWin.rxBegin
      else u
    else u.dataWinFreeMsgPtr u.rxDataWin.rxBegin
  u.setDataWinBegin (dataWinPlus u.rxDataWin.rxBegin)

/-- The forced first move of `MPD_DataWinRxBeginMove`. -/
def dataWinForceMove (u : UserInfo) : UserInfo :=
  match u.rxDataWin.beginNode.status with
  | .unReceived => u.setDataWinBegin (dataWinPlus u.rxDataWin.rxBegin)
  | .received =>
    (u.dataWinFreeMsgPtr u.rxDataWin.rxBegin).setDataWinBegin (dataWinPlus u.rxDataWin.rxBegin)
  | .receiveComplete => u

/-- The last part of `MPD_DataWinRxBeginMove`: every sub window follows. -/
def driveSubWins (u : UserInfo) : Option UserInfo :=
  [0, 1, 2].foldlM (fun u i =>
    if schdGetFlowValid u i then (u.rxSubWin i).followDataWin.map (u.setRxSubWin i) else some u) u

/-- The loop of `MPD_DataWinRxBeginMove`. -/
def dataWinAdvance : UserInfo → Option UserInfo :=
  whileLoop (fun u => u.rxDataWin.beginNode.Ready) (fun u => some u.dataWinHeadOut) 4096

/-- `MPD_DataWinRxBeginMove`. -/
def dataWinRxBeginMove (u : UserInfo) (forceMove : Bool) : Option UserInfo :=
  (dataWinAdvance (if forceMove then u.dataWinForceMove else u)).bind driveSubWins

/-! ### Moving `RxNext` -/

/-- `MPD_DataWinRxNextMove`: one more slot; a full window moves `RxBegin` first. -/
def dataWinRxNextMove (u : UserInfo) : Option UserInfo :=
  let dsn := u.rxDataWin.nextNode.dsn
  let u := u.setDataWinNext (dataWinPlus u.rxDataWin.rxNext)
  (if u.rxDataWin.rxNext = u.rxDataWin.rxBegin then u.dataWinRxBeginMove true else some u).map
    fun u => u.setRxDataWinNode u.rxDataWin.rxNext { dsn := u16 (dsn + 1) }

/-- `MPD_DataWinPutInNode`. -/
def dataWinPutInNode (u : UserInfo) (index : ℕ) (node : MPDNodeInfo) : UserInfo :=
  let u := u.emit [.access (.frag node.fragIndex)]
  let u := u.setRxDataWinNode index ((u.rxDataWin.win index).put node u.time)
  if node.fragment = 0 then { u with rxDataWin := { u.rxDataWin with newData := true } } else u

/-! ### A packet arrives -/

/-- The loop of `MPD_DataWinAddNode` that extends the window up to the packet, which is at most 1999
slots away. -/
def dataWinExtend (dsn : ℕ) : UserInfo → Option UserInfo :=
  whileLoop (fun u => dsn ≠ u.rxDataWin.nextNode.dsn)
    (fun u => (u.setRxDataWinNode u.rxDataWin.rxNext
      { u.rxDataWin.nextNode with time := u32 (u.time + 30) }).dataWinRxNextMove) 1999

/-- The re-anchoring of a window that looks clear. The slot keeps whatever else it held. -/
def dataWinAnchor (u : UserInfo) (node : MPDNodeInfo) : UserInfo :=
  let index := node.dsn % 4096
  ((u.setDataWinBegin index).setDataWinNext index).setRxDataWinNode index
    { u.rxDataWin.win index with dsn := node.dsn, flag := .unChecked }

/-- A packet at most 1000 behind the window goes to the transport as it is. -/
def dataWinPostOld (u : UserInfo) (node : MPDNodeInfo) : UserInfo :=
  let u := u.emit [.post .outOfWindow node.dsn node.msgPtr node.msgLen node.mpdHeadLen]
  u.setRxSubWin node.stream { u.rxSubWin node.stream with dataWinSSN := ssnPlus node.ssn }

/-- A packet that does not fit is freed. -/
def dataWinRefuse (u : UserInfo) (node : MPDNodeInfo) (rxDsnErr : ℕ) : UserInfo :=
  { u.emit [.free node.msgPtr] with rxDsnErr := rxDsnErr }

/-- The three-way branch of `MPD_DataWinAddNode`; the answer says whether the packet was taken. -/
def dataWinPlace (u : UserInfo) (node : MPDNodeInfo) : Option (UserInfo × Bool) :=
  let index := node.dsn % 4096
  if u.rxDataWin.Behind node.dsn then
    if distanceSN node.dsn u.rxDataWin.beginNode.dsn ≤ 1000 then some (u.dataWinPostOld node, true)
    else some (u.dataWinRefuse node (u16 (u.rxDsnErr + 1)), false)
  else if u.rxDataWin.Beyond node.dsn then
    if 1999 < distanceSN u.rxDataWin.nextNode.dsn node.dsn then
      some (u.dataWinRefuse node (u16 (u.rxDsnErr + 1)), false)
    else
      ((dataWinExtend node.dsn u).bind fun u =>
        (u.dataWinPutInNode u.rxDataWin.rxNext node).dataWinRxNextMove).map
          fun u => ({ u with rxDsnErr := 0 }, true)
  else if (u.rxDataWin.win index).Duplicate node then some (u.dataWinRefuse node 0, false)
  else some ({ u.dataWinPutInNode index node with rxDsnErr := 0 }, true)

/-- The exception `MPD_DataWinAddNode` raises after 100 misplaced packets. -/
def reportDsnErr (u : UserInfo) : UserInfo :=
  if 100 < u.rxDsnErr then { u.emit [.exception 0 (-4)] with rxDsnErr := 0 } else u

/-- `MPD_DataWinAddNode`. -/
def dataWinAddNode (u : UserInfo) (node : MPDNodeInfo) : Option (UserInfo × Bool) :=
  (dataWinPlace (if u.rxDataWin.looksClear then u.dataWinAnchor node else u) node).map
    fun r => (r.1.reportDsnErr, r.2)

/-! ### Timers and clears -/

/-- The loop of `MPD_DataWinTimeOutCheck`, over `cnt` slots: it stops at the first incomplete slot
that is not due. The answer says whether a slot timed out. -/
def dataWinTimeOutScan : ℕ → ℕ → UserInfo → UserInfo × Bool
  | 0, _, u => (u, false)
  | cnt + 1, nodeIndex, u =>
    let n := u.rxDataWin.win nodeIndex
    if n.status ≠ .receiveComplete then
      if n.time ≤ u.time then
        let r := dataWinTimeOutScan cnt (dataWinPlus nodeIndex)
          (u.setRxDataWinNode nodeIndex { n with timeOut := true })
        (r.1, true)
      else (u, false)
    else dataWinTimeOutScan cnt (dataWinPlus nodeIndex) u

/-- How many slots lie from `RxBegin` to `RxNext`. -/
def nodeCnt (u : UserInfo) : ℕ := SerialRing.dist 4096 u.rxDataWin.rxBegin u.rxDataWin.rxNext

/-- `MPD_DataWinTimeOutCheck`. -/
def dataWinTimeOutCheck (u : UserInfo) : Option UserInfo :=
  let r := dataWinTimeOutScan u.nodeCnt u.rxDataWin.rxBegin u
  if r.2 then r.1.dataWinRxBeginMove false else some r.1

/-- `MPD_ClearDataWin`. -/
def clearDataWin (u : UserInfo) : Option UserInfo :=
  (whileLoop (fun u : UserInfo => u.rxDataWin.rxBegin ≠ u.rxDataWin.rxNext)
    (fun u => u.dataWinRxBeginMove true) 4096 u).map fun u => { u with rxDataWin := {} }

/-- The loop of `MPD_ChangeDataWinFlowId`, over `cnt` slots. -/
def changeFlowIdFrom (flowId : ℕ) : ℕ → ℕ → UserInfo → UserInfo
  | 0, _, u => u
  | cnt + 1, i, u =>
    let n := u.rxDataWin.win i
    changeFlowIdFrom flowId cnt (dataWinPlus i)
      (if n.status ≠ .unReceived ∧ n.stream = flowId then
        u.setRxDataWinNode i { n with stream := 3 } else u)

/-- `MPD_ChangeDataWinFlowId`: packets of a subflow that is gone are given to a subflow that does
not exist. -/
def changeDataWinFlowId (u : UserInfo) (flowId : ℕ) : UserInfo :=
  changeFlowIdFrom flowId u.nodeCnt u.rxDataWin.rxBegin u

/-- One round of `MPD_CheckAck`. -/
def checkAckNode (u : UserInfo) (i : ℕ) : UserInfo :=
  let n := u.rxDataWin.win i
  if n.status ≠ .receiveComplete ∨ n.flag ≠ .unChecked then u
  else
    match n.msgPtr 0 with
    | none => u.setRxDataWinNode i { n with flag := .checked }
    | some m =>
      let u := u.emit (n.checkReads m)
      if n.LooksPureAck m then
        (u.setRxDataWinNode i { n with flag := .sended }).emit (n.postHead .early)
      else u.setRxDataWinNode i { n with flag := .checked }

/-- The loop of `MPD_CheckAck`, over `cnt` slots. -/
def checkAckFrom : ℕ → ℕ → UserInfo → UserInfo
  | 0, _, u => u
  | cnt + 1, i, u => checkAckFrom cnt (dataWinPlus i) (u.checkAckNode i)

/-- `MPD_CheckAck`. -/
def checkAck (u : UserInfo) : UserInfo :=
  if u.rxDataWin.newData then
    let u := checkAckFrom u.nodeCnt u.rxDataWin.rxBegin u
    { u with rxDataWin := { u.rxDataWin with newData := false } }
  else u

end UserInfo

end Mpd

end AndroidVendor
