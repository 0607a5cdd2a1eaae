import AndroidVendor.Mpd.Tx

/-!
# Acknowledgements

Both ends of them: `MPD_processACK` and `MPD_parserSACK` (`mpd_sack.c`) release and retransmit what
the peer reports; `MPD_SubWinCreateSack` and `MPD_SubWinSendSackPacketMsg` (`mpd_rx.c`) write the
report.

The loops of `MPD_parserSACK` walk a cursor over the nodes of the tx window and compare SSNs only,
and no round changes an SSN; a loop that does not stop within one turn of the array never stops.
-/

namespace AndroidVendor

namespace Mpd

open Loop

namespace UserInfo

/-! ### Reading -/

/-- `MPD_SCHD_RTTFlowUpdate` for the node at `index`. -/
def schdRTTFlowUpdate (u : UserInfo) (flowId index : ℕ) : UserInfo :=
  let n := (u.txWindow flowId).dataNode index
  if n.transState = .waitingAck then
    u.setSchdPara flowId
      { u.schdPara flowId with rttNew := u32 (u.time + 4294967296 - n.t1), isRttUpdate := true }
  else u

/-- One packet more was confirmed: `pktRate` of the traffic control, `PktCnt` of the scheduler. -/
def countConfirmed (u : UserInfo) (flowId : ℕ) : UserInfo :=
  let t := u.trafficControl flowId
  let u := u.setTrafficControl flowId { t with pktRate := u32 (t.pktRate + 1) }
  let p := u.schdPara flowId
  u.setSchdPara flowId { p with pktCnt := u32 (p.pktCnt + 1) }

/-- `ssnEnd` of the traffic control does not stay behind the window. -/
def moveSsnEnd (u : UserInfo) (flowId beginSSN : ℕ) : UserInfo :=
  let t := u.trafficControl flowId
  let next := (u.txWindow flowId).nextNode.ssn
  if distanceSN beginSSN next < distanceSN t.ssnEnd next then
    u.setTrafficControl flowId { t with ssnEnd := beginSSN }
  else u

/-- One round of the loop of `MPD_processACK`: the oldest node is confirmed. -/
def ackOldest (u : UserInfo) (flowId : ℕ) : UserInfo :=
  let u := u.schdRTTFlowUpdate flowId (u.txWindow flowId).pTxBegin
  let u := if (u.txWindow flowId).beginNode.pData.isSome then u.countConfirmed flowId else u
  (u.freeTxBeginData flowId).txBeginInc flowId

/-- The oldest node is not confirmed yet. -/
def AckPending (sfId ackSSN : ℕ) (u : UserInfo) : Prop :=
  (u.txWindow sfId).pTxBegin ≠ (u.txWindow sfId).pTxNext ∧
    distanceSN (u.txWindow sfId).beginNode.ssn ackSSN ≠ 0

instance (sfId ackSSN : ℕ) : DecidablePred (AckPending sfId ackSSN) :=
  fun _ => inferInstanceAs (Decidable (_ ∧ _))

/-- The loop of `MPD_processACK`. The code tests the acknowledgement at the end of a round; that it
differs from the oldest SSN before the first is what the guard in front of the loop says. -/
def ackLoop (sfId ackSSN : ℕ) : UserInfo → Option UserInfo :=
  whileLoop (AckPending sfId ackSSN) (fun u => some (u.ackOldest sfId)) 1024

/-- The loop ends when its rounds lower a measure that starts within 1024. -/
theorem ackLoop_total {f ack : ℕ} {u : UserInfo} (I : UserInfo → Prop) (μ : UserInfo → ℕ)
    (hround : ∀ v, I v → AckPending f ack v → I (v.ackOldest f) ∧ μ (v.ackOldest f) < μ v)
    (hu : I u) (hn : μ u ≤ 1024) : ∃ v, ackLoop f ack u = some v ∧ I v ∧ ¬ AckPending f ack v :=
  whileLoop_total I μ (fun v hv hgo => ⟨_, rfl, hround v hv hgo⟩) hu hn

/-- `MPD_processACK`. -/
def processACK (u : UserInfo) (sfId ackSSN firstSack : ℕ) : Option UserInfo :=
  if 3 < sfId ∨ firstSack = 0 then some u
  else
    let u := u.setTxWindow sfId { u.txWindow sfId with ackTimeOutcnt := 0 }
    let w := u.txWindow sfId
    if distanceSN w.beginNode.ssn w.nextNode.ssn < distanceSN w.beginNode.ssn ackSSN ∨
        distanceSN w.beginNode.ssn ackSSN = 0 then some u
    else
      (ackLoop sfId ackSSN u).map fun u => u.moveSsnEnd sfId (u.txWindow sfId).beginNode.ssn

/-- One round of the loop of `MPD_parserSACK` over a gap: a node the peer has not received is sent
again, unless that was done a moment ago. -/
def sackGapNode (u : UserInfo) (sfId cur : ℕ) : UserInfo :=
  let n := (u.txWindow sfId).dataNode cur
  let u :=
    if n.transState = .waitingAck then
      let t := u.trafficControl sfId
      u.setTrafficControl sfId { t with pktLossCnt := u32 (t.pktLossCnt + 1) }
    else u
  if n.transState = .waitingAck ∨ (n.transState = .sacked ∧ n.toRetrans ≤ u.time) then
    let u := u.callMPCToRetrans sfId cur
    let w := u.txWindow sfId
    let u := u.setTxWindow sfId
      { w.setNode cur
          { w.dataNode cur with
            transState := .sacked
            toRetrans := u32 (u.time + if sfId = 0 then 10 else 6) } with
        retransCnt := u16 (w.retransCnt + 1) }
    let p := u.schdPara sfId
    u.setSchdPara sfId { p with pktRetCnt := u32 (p.pktRetCnt + 1) }
  else u

/-- One round of the loop of `MPD_parserSACK` over a block: a node the peer has received gives its
data back. -/
def sackBlockNode (u : UserInfo) (sfId cur : ℕ) : UserInfo :=
  let n := (u.txWindow sfId).dataNode cur
  if n.transState = .dataInit then u
  else
    match n.pData with
    | none => u
    | some m =>
      let u := (u.schdRTTFlowUpdate sfId cur).emit [n.release sfId m]
      (u.setTxWindow sfId
        ((u.txWindow sfId).setNode cur { n with pData := none, transState := .dataInit })
        ).countConfirmed sfId

/-- The SSN of the node the cursor is at. -/
def ssnAt (u : UserInfo) (sfId cur : ℕ) : ℕ := ((u.txWindow sfId).dataNode cur).ssn

/-- The cursor has not reached the left edge. -/
def InGap (sfId leftEdge : ℕ) (s : UserInfo × ℕ) : Prop :=
  distanceSN (s.1.ssnAt sfId s.2) leftEdge ≠ 0

instance (sfId leftEdge : ℕ) : DecidablePred (InGap sfId leftEdge) :=
  fun _ => inferInstanceAs (Decidable (_ ≠ _))

/-- The right edge is not behind the cursor. -/
def InBlock (sfId rightEdge : ℕ) (s : UserInfo × ℕ) : Prop :=
  distanceSN (s.1.ssnAt sfId s.2) rightEdge < 32767

instance (sfId rightEdge : ℕ) : DecidablePred (InBlock sfId rightEdge) :=
  fun _ => inferInstanceAs (Decidable (_ < _))

/-- The loop over a gap. -/
def sackGap (sfId leftEdge : ℕ) : UserInfo × ℕ → Option (UserInfo × ℕ) :=
  whileLoop (InGap sfId leftEdge) (fun s => some (s.1.sackGapNode sfId s.2, txPlus s.2)) 1024

@[inherit_doc ackLoop_total]
theorem sackGap_total {f l : ℕ} {z : UserInfo × ℕ} (I : UserInfo × ℕ → Prop) (μ : UserInfo × ℕ → ℕ)
    (hround : ∀ s, I s → InGap f l s →
      I (s.1.sackGapNode f s.2, txPlus s.2) ∧ μ (s.1.sackGapNode f s.2, txPlus s.2) < μ s)
    (hz : I z) (hn : μ z ≤ 1024) : ∃ t, sackGap f l z = some t ∧ I t ∧ ¬ InGap f l t :=
  whileLoop_total I μ (fun s hs hgo => ⟨_, rfl, hround s hs hgo⟩) hz hn

/-- The loop over a block. -/
def sackBlockRun (sfId rightEdge : ℕ) : UserInfo × ℕ → Option (UserInfo × ℕ) :=
  whileLoop (InBlock sfId rightEdge) (fun s => some (s.1.sackBlockNode sfId s.2, txPlus s.2)) 1024

@[inherit_doc ackLoop_total]
theorem sackBlockRun_total {f r : ℕ} {z : UserInfo × ℕ} (I : UserInfo × ℕ → Prop)
    (μ : UserInfo × ℕ → ℕ)
    (hround : ∀ s, I s → InBlock f r s →
      I (s.1.sackBlockNode f s.2, txPlus s.2) ∧ μ (s.1.sackBlockNode f s.2, txPlus s.2) < μ s)
    (hz : I z) (hn : μ z ≤ 1024) : ∃ t, sackBlockRun f r z = some t ∧ I t ∧ ¬ InBlock f r t :=
  whileLoop_total I μ (fun s hs hgo => ⟨_, rfl, hround s hs hgo⟩) hz hn

/-- One block of a SACK: the gap before it, and the block. The cursor stays behind the block. -/
def sackBlock (sfId : ℕ) (s : UserInfo × ℕ) (leftEdge rightEdge : ℕ) : Option (UserInfo × ℕ) :=
  let nextSSN := (s.1.txWindow sfId).nextNode.ssn
  let curSSN := s.1.ssnAt sfId s.2
  if distanceSN curSSN leftEdge < distanceSN curSSN nextSSN then
    (sackGap sfId leftEdge s).bind fun s =>
      if distanceSN (s.1.ssnAt sfId s.2) rightEdge < distanceSN (s.1.ssnAt sfId s.2) nextSSN then
        sackBlockRun sfId rightEdge s
      else some s
  else some s

/-- How many blocks a SACK of `length` bytes has: an arithmetic shift of a difference that may be
negative, stored into a `U8`. -/
def numSack (length : ℕ) : ℕ := (((length : ℤ) - 4) / 4 % 256).toNat

/-- What `MPD_parserSACK` reads of the datagram, the SACK starting behind the header. -/
def sackReads (m : Msg) (num : ℕ) : List Action :=
  (List.range (4 * num)).map fun i => .access (.read (16 + i) m.data.length)

/-- `MPD_parserSACK`, on the SACK at offset 12 of the datagram. -/
def parserSACK (u : UserInfo) (sfId : ℕ) (m : Msg) (ack : ℕ) : Option UserInfo :=
  if 3 ≤ sfId then some u
  else
    let t := u.trafficControl sfId
    let u := u.setTrafficControl sfId { t with sackNum := u32 (t.sackNum + 1) }
    let u := u.emit [.access (.read 12 m.data.length), .access (.read 13 m.data.length),
      .access (.read 14 m.data.length), .access (.sub (m.byte 13) 4)]
    let num := numSack (m.byte 13)
    if m.byte 12 ≠ 1 ∨ 11 < num ∨ num = 0 then some u
    else
      let u := u.emit (sackReads m num)
      let w := u.txWindow sfId
      let u := u.setTxWindow sfId { w with retransCnt := 0 }
      if m.byte 14 = 0 ∧ (w.dataNode (ack % 1024)).ssn ≠ ack then some u
      else
        let cur := if m.byte 14 = 0 then ack % 1024 else w.pTxBegin
        ((List.range num).foldlM
          (fun s i => sackBlock sfId s (m.word (16 + 4 * i)) (m.word (18 + 4 * i))) (u, cur)).map
            fun s => s.1.moveSsnEnd sfId (s.1.ssnAt sfId s.2)

/-! ### Writing -/

/-- One block, `stSackV`. -/
abbrev SackV := ℕ × ℕ

/-- The SACK option: tag, length, `firstSack`, a byte the receiver does not look at, the blocks. -/
def sackBytes (sack : List SackV) (firstSack : ℕ) : List UInt8 :=
  [1, UInt8.ofNat (4 + 4 * sack.length), UInt8.ofNat firstSack, 0] ++
    sack.flatMap fun b => bytes16 b.1 ++ bytes16 b.2

/-- `MPD_SubWinSendSackPacketMsg`. The length is a multiple of four as it stands. -/
def subWinSendSackPacketMsg (u : UserInfo) (ack : ℕ) (sack : List SackV) (index firstSack : ℕ) :
    UserInfo :=
  let sackLen := if sack.length ≠ 0 then 8 + (sack.length - 1) * 4 else 0
  let msgLen := (12 + sackLen + 3) / 4 * 4
  let (addr, u) := msgMemCreat u
  match addr with
  | none => u
  | some addr =>
    let header : MPDHeader :=
      { flag := 0x55, fragment := 0, stream := index, length := msgLen / 4, dsn := 0, ssn := 0,
        ack := ack }
    let msg : Msg := ⟨addr, header.encode u.uid ++
      if sack.length ≠ 0 then sackBytes sack firstSack else []⟩
    let u := (onSendMPDataComplete u index msg msgLen true).2
    u.setTxWindow index { u.txWindow index with lastSendAckTime := u.time }

/-- What the loop of `MPD_SubWinCreateSack` carries: the blocks that are complete, the left edge of
the one that is open, the acknowledgement and `firstSack` of the next message. -/
structure SackState where
  sack : List SackV := []
  left : ℕ := 0
  ack : ℕ
  firstSack : ℕ := 1

/-- One round of the loop of `MPD_SubWinCreateSack`, at the node `i`: a block opens where the next
node is received and this one is not, closes where it is the other way round, and eleven blocks make
a message. -/
def createSackNode (index i : ℕ) (s : UserInfo × SackState) : UserInfo × SackState :=
  let (u, s) := s
  let w := u.rxSubWin index
  let n := w.win i
  let next := w.win (subWinPlus i)
  if n.status = next.status then (u, s)
  else if next.status = .received then (u, { s with left := next.ssn })
  else
    let s := { s with sack := s.sack ++ [(s.left, n.ssn)] }
    if 11 ≤ s.sack.length then
      let u := u.subWinSendSackPacketMsg s.ack s.sack index s.firstSack
      let w := u.rxSubWin index
      let ack := (w.win (subWinPlus i)).ssn
      (u.setRxSubWin index { w with sentAck := ack },
        { s with sack := [], ack := ack, firstSack := 0 })
    else (u, s)

/-- The loop of `MPD_SubWinCreateSack`, over `cnt` nodes. -/
def createSackFrom (index : ℕ) : ℕ → ℕ → UserInfo × SackState → UserInfo × SackState
  | 0, _, s => s
  | cnt + 1, i, s => createSackFrom index cnt (subWinPlus i) (createSackNode index i s)

/-- The part of `MPD_SubWinCreateSack` that writes the messages. -/
def createSackMsgs (u : UserInfo) (index : ℕ) : UserInfo :=
  let w := u.rxSubWin index
  let ack := (w.win w.rxBegin).ssn
  let (u, s) :=
    createSackFrom index (SerialRing.dist 1024 w.rxBegin w.rxNext) w.rxBegin (u, { ack := ack })
  let u :=
    if 0 < s.sack.length ∨ s.firstSack ≠ 0 then
      u.subWinSendSackPacketMsg s.ack s.sack index s.firstSack
    else u
  let w := u.rxSubWin index
  u.setRxSubWin index { w with sentAck := (w.win w.rxBegin).ssn }

/-- The window is empty and its acknowledgement was sent: nothing new to say. -/
def sackQuiet (u : UserInfo) (index : ℕ) : Prop :=
  let w := u.rxSubWin index
  w.rxBegin = w.rxNext ∧ (w.win w.rxBegin).ssn = w.sentAck

instance (u : UserInfo) (index : ℕ) : Decidable (u.sackQuiet index) :=
  inferInstanceAs (Decidable (_ ∧ _))

/-- `MPD_SubWinCreateSack`. With nothing new to say it repeats itself rarely, and a limited number
of times. -/
def subWinCreateSack (u : UserInfo) (index : ℕ) : UserInfo :=
  let w := u.txWindow index
  if u.sackQuiet index then
    if u.time < u32 (w.lastSendPktTime + 100) then { u with totalToAckNum := 0 }
    else if u.time < u32 (w.lastSendAckTime + 100) then u
    else
      let u := { u with totalToAckNum := u32 (u.totalToAckNum + 1) }
      if u32 (u.activeFlowNum * 2) < u.totalToAckNum then u else u.createSackMsgs index
  else { u with totalToAckNum := 0 }.createSackMsgs index

/-- `MPD_SackPeriodSend`. -/
def sackPeriodSend (u : UserInfo) : UserInfo :=
  if u.time = u.sendSackTime then
    let u := [0, 1, 2].foldl
      (fun u i => if schdGetFlowValid u i then u.subWinCreateSack i else u) u
    { u with sendSackTime := u32 (u.time + 1) }
  else u

end UserInfo

end Mpd

end AndroidVendor
