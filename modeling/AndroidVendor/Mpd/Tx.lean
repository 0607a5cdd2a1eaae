import AndroidVendor.Mpd.Basic

/-!
# The tx windows

`stTxWin` and its operations (`mpd_tx.c`): the packets sent on each subflow, kept until they are
acknowledged. `pTxBegin`, `pTxNext` and `pTxLast` point into the array of nodes; here they are the
indices of the nodes they point at, and moving one on is `txPlus`.

Which subflow a packet goes out on is the scheduler's choice. It enters as an argument, so what is
proved holds for every choice.
-/

namespace AndroidVendor

namespace Mpd

/-- Moving a pointer on by one node, from the last back to the first. -/
def txPlus (i : ℕ) : ℕ := if i = 1023 then 0 else i + 1

namespace TxWin

def setNode (w : TxWin) (i : ℕ) (n : DataNode) : TxWin :=
  { w with dataNode := Function.update w.dataNode i n }

/-- The node `pTxBegin` points at. -/
def beginNode (w : TxWin) : DataNode := w.dataNode w.pTxBegin

/-- The node `pTxNext` points at. -/
def nextNode (w : TxWin) : DataNode := w.dataNode w.pTxNext

/-- `MPD_txBeginInc`. -/
def beginInc (w : TxWin) : TxWin :=
  { w.setNode w.pTxBegin {} with pTxBegin := txPlus w.pTxBegin }

end TxWin

/-- How the buffer of a node is given back: a retransmitted one may still be waiting in the queue
of its subflow. -/
def DataNode.release (n : DataNode) (flowId : ℕ) (m : Msg) : Action :=
  if n.transState = .sacked then .freeResend m flowId else .free m

namespace UserInfo

/-- `MPD_freeTxBeginData`. -/
def freeTxBeginData (u : UserInfo) (flowId : ℕ) : UserInfo :=
  let w := u.txWindow flowId
  if w.beginNode.transState = .dataInit then u
  else
    match w.beginNode.pData with
    | none => u
    | some m =>
      (u.emit [w.beginNode.release flowId m]).setTxWindow flowId
        (w.setNode w.pTxBegin { w.beginNode with pData := none })

/-- `MPD_txBeginInc`. -/
def txBeginInc (u : UserInfo) (flowId : ℕ) : UserInfo :=
  u.setTxWindow flowId (u.txWindow flowId).beginInc

/-- `MPD_txNextInc`: a full window gives up its oldest node. -/
def txNextInc (u : UserInfo) (flowId : ℕ) : UserInfo :=
  let w := u.txWindow flowId
  let next := txPlus w.pTxNext
  let w := { w.setNode next { w.dataNode next with ssn := w.subflowSn } with pTxNext := next }
  let u := u.setTxWindow flowId w
  let u := if w.pTxNext = w.pTxBegin then (u.freeTxBeginData flowId).txBeginInc flowId else u
  let w := u.txWindow flowId
  u.setTxWindow flowId (w.setNode w.pTxNext { w.nextNode with ssn := w.subflowSn })

/-! ### New data -/

/-- The two buffers of a split packet (`stDataFragmentRec`). -/
structure DataFragment where
  first : Msg
  last : Msg
  deriving DecidableEq, Repr

/-- `MPD_SplitDataMem`: the answer is `none` when the packet need not or cannot be split. The first
twelve bytes of the last buffer are left for the header. -/
def splitDataMem (u : UserInfo) (dataAddr : Msg) (length : ℕ) : Option DataFragment × UserInfo :=
  if length < 1000 then (none, u)
  else
    let (firstAddr, u) := msgMemCreat u
    match firstAddr with
    | none => (none, u)
    | some firstAddr =>
      let first : Msg := ⟨firstAddr, dataAddr.slice 0 1012⟩
      let (lastAddr, u) := msgMemCreat u
      match lastAddr with
      | none => (none, u.emit [.free first])
      | some lastAddr =>
        let last : Msg := ⟨lastAddr, List.replicate 12 0 ++ dataAddr.slice 1012 (length - 1012)⟩
        (some ⟨first, last⟩, u.emit [.free dataAddr])

/-- `MPD_GetSubFlowAck`. -/
def getSubFlowAck (u : UserInfo) (index : ℕ) : ℕ × UserInfo :=
  let w := u.rxSubWin index
  let ack := (w.win w.rxBegin).ssn
  (ack, u.setRxSubWin index { w with sentAck := ack })

/-- `MPD_fillMPDHeader`: the buffer with its first twelve bytes written, and the session with both
sequence numbers used up. -/
def fillMPDHeader (u : UserInfo) (flowId : ℕ) (data : Msg) (frag : ℕ) : Msg × UserInfo :=
  let (ack, u) := u.getSubFlowAck flowId
  let w := u.txWindow flowId
  let header : MPDHeader :=
    { flag := 0x55, fragment := frag, stream := flowId, length := 3, dsn := u.txDataSn,
      ssn := w.subflowSn, ack := ack }
  ({ data with data := header.encode u.uid ++ data.data.drop 12 },
    { u.setTxWindow flowId { w with subflowSn := u16 (w.subflowSn + 1) } with
      txDataSn := u16 (u.txDataSn + 1) })

/-- `MPD_putDataToTxWin`: the index of the node the packet was put in, and the session. -/
def putDataToTxWin (u : UserInfo) (flowId : ℕ) (data : Msg) (dataLen : ℕ) : ℕ × UserInfo :=
  let w := u.txWindow flowId
  let ssn := data.header.ssn
  let index := ssn % 1024
  let node : DataNode :=
    { w.dataNode index with
      dsn := data.header.dsn, ssn := ssn, pData := some data, transState := .waitingSend,
      t1 := u.time, reTxCnt := 0, toDataAck := u32 (u.time + 500), toRetrans := u32 (u.time + 100),
      payloadLen := u16 dataLen }
  let w := { w.setNode index node with pTxLast := some index, timeOutRetCnt := 0 }
  let u := (u.setTxWindow flowId w).txNextInc flowId
  let w := u.txWindow flowId
  (index, u.setTxWindow flowId
    { w with
      lastSendPktTime := u.time
      histA := if w.lastTxTime = 0 then 1 else u32 (w.histA + 1) })

/-- `MPD_callMPCToSend`: whether the packet was queued. -/
def callMPCToSend (u : UserInfo) (flowId index : ℕ) : Bool × UserInfo :=
  let n := (u.txWindow flowId).dataNode index
  match n.pData with
  | none => (false, u)
  | some m =>
    let (ok, u) := onSendMPDataComplete u flowId m n.payloadLen false
    if ok then
      let w := u.txWindow flowId
      (true, u.setTxWindow flowId
        { w.setNode index { n with transState := .waitingAck } with
          ackTimeOutcnt := u16 (w.ackTimeOutcnt + 1) })
    else (false, u)

/-- `MPD_callMPCToRetrans`. Its callers do not look at the result. -/
def callMPCToRetrans (u : UserInfo) (flowId index : ℕ) : UserInfo :=
  let n := (u.txWindow flowId).dataNode index
  let u :=
    match n.pData with
    | none => u
    | some m => (onSendMPDataComplete u flowId m n.payloadLen false).2
  u.setTxWindow flowId { u.txWindow flowId with histA := u32 ((u.txWindow flowId).histA + 1) }

/-- One packet or fragment on its way out: header, tx window, subflow queue. -/
def sendBlock (u : UserInfo) (flowId : ℕ) (data : Msg) (len frag : ℕ) : Bool × UserInfo :=
  let (data, u) := u.fillMPDHeader flowId data frag
  let (index, u) := u.putDataToTxWin flowId data len
  u.callMPCToSend flowId index

/-- `MPD_DoSendNewTransData`, from where the subflow is chosen on: `flowId` is what
`MPD_SCHD_ChooseStream` answers, `none` standing for `INVALID_STREAM`. The result is 0, or the
negative number the code returns. -/
def doSendNewTransData (u : UserInfo) (flowId : Option ℕ) (data : Msg) (length : ℕ) :
    ℤ × UserInfo :=
  if length < 12 then (-1, u.emit [.free data])
  else
    match flowId with
    | none => (-2, u.emit [.free data])
    | some flowId =>
      let u := { u with lastPackageTime := u32 (u.time + 6000) }
      let (frag, u) := if 1480 ≤ length then u.splitDataMem data length else (none, u)
      let (ok, u) :=
        match frag with
        | none => u.sendBlock flowId data length 0
        | some frag =>
          let u := (u.sendBlock flowId frag.first 1012 1).2
          -- both fragments carry one DSN
          let u := { u with txDataSn := u16 (u.txDataSn + 65535) }
          u.sendBlock flowId frag.last (length - 1012 + 12) 2
      (if ok then 0 else -3, u)

/-! ### Retransmission of the newest packet, and clears -/

/-- `MPD_TxWinRetransCheck` for one subflow, once its period has come. -/
def txWinRetransFlow (u : UserInfo) (flowId : ℕ) : UserInfo :=
  let w := u.txWindow flowId
  if !schdGetFlowValid u flowId then u
  else if w.timeOutRetCnt = 0 then u.setTxWindow flowId { w with timeOutRetCnt := 1 }
  else
    match w.pTxLast with
    | none => u
    | some last =>
      let n := w.dataNode last
      let tm := u32 (u32 (w.timeOutRetCnt * (u.schdPara flowId).inhertDelay) / 4 + n.t1)
      if n.transState ≠ .dataInit ∧ w.timeOutRetCnt < 4 ∧ tm < u.time then
        let u := u.callMPCToRetrans flowId last
        let w := u.txWindow flowId
        u.setTxWindow flowId
          { w.setNode last
              { w.dataNode last with
                transState := .sacked
                toRetrans := u32 (u.time + if flowId = 0 then 10 else 6) } with
            timeOutRetCnt := u16 (w.timeOutRetCnt + 1) }
      else u

/-- `MPD_TxWinRetransCheck`. -/
def txWinRetransCheck (u : UserInfo) : UserInfo :=
  if u.time % 30 = u.uid % 30 then [0, 1, 2].foldl txWinRetransFlow u else u

/-- The loop of `MPD_clearTxWin`. -/
def clearTxNodes (flowId : ℕ) : ℕ → UserInfo → UserInfo
  | 0, u => u
  | k + 1, u =>
    if (u.txWindow flowId).pTxBegin ≠ (u.txWindow flowId).pTxNext then
      clearTxNodes flowId k ((u.freeTxBeginData flowId).txBeginInc flowId)
    else u

/-- `MPD_clearTxWin`. The loop meets `pTxNext` within one turn. -/
def clearTxWin (u : UserInfo) (flowId : ℕ) : UserInfo :=
  (clearTxNodes flowId 1024 u).setTxWindow flowId {}

end UserInfo

end Mpd

end AndroidVendor
