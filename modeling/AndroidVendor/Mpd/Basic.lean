import AndroidVendor.Lib.Loop
import AndroidVendor.Lib.SerialRing

/-!
# The multipath daemon: data model

The state of one MPD user session (`stUserInfo` of `mpd.h`), the packets it exchanges and what it
asks of its environment.

## The build that is modelled

`lib-mpd` is built without `MAG`, with the switches `mpd.h` defines: `SSN_OPTIMIZE`,
`SACK_OPTIMIZE`, `RETRANS_OPTIMIZE`, `CHECK_ACK`, `SCHD_BALANCE`, `SCHD_BALANCE_NEW`, `SCHD_DELAY`
and `TRAFFIC_CTL`. `MYLOG` and `MPDLOG` expand to nothing there.

## Sizes

The macros of `mpd.h` stand as numerals: three subflows (`NUM_SUBFLOW`), 1024 nodes in a tx window
(`MAX_TX_WINDOW_SIZE`) and in an rx sub window (`RxSubWinMaxSize`), 4096 in the rx data window
(`RxDataWinMaxSize`), two fragments (`MaxFragNum`), sequence numbers modulo 65536 (`MAX_SN`), at
most 11 blocks in one SACK (`MAX_SACK_NUM`), a header of 12 bytes
(`LEN_MPD_HEADER_WITHOUT_SACK`).

## Implementation notes

Tables and windows are functions on `ℕ`; the code's own index arithmetic decides which entries
are touched. Pointers into a tx window are the indices of the nodes they point at. What the
session asks of its environment is appended to `out`; what the environment answers (the result of
an allocation, of handing a packet to a subflow queue) is read off the streams `allocs` and
`sends`, so a statement about every state is a statement about every answer.
-/

namespace AndroidVendor

namespace Mpd

/-! ### Arithmetic of the macros -/

/-- `DISTANCESN(a,b)`: how far `b` lies ahead of `a` among sequence numbers. -/
def distanceSN (a b : ℕ) : ℕ := SerialRing.dist 65536 a b

/-- `SsnPlus`. -/
def ssnPlus (n : ℕ) : ℕ := (n + 1) % 65536

/-- `SubWinPlus`. -/
def subWinPlus (n : ℕ) : ℕ := (n + 1) % 1024

/-- `DataWinPlus`. -/
def dataWinPlus (n : ℕ) : ℕ := (n + 1) % 4096

/-- Storing into a `U32`. -/
def u32 (n : ℕ) : ℕ := n % 4294967296

/-- Storing into a `U16`. -/
def u16 (n : ℕ) : ℕ := n % 65536

/-! ### Buffers and packet headers -/

/-- A message buffer: where it is and the bytes that were received or prepared in it. -/
structure Msg where
  addr : ℕ
  data : List UInt8
  deriving DecidableEq, Repr

/-- One byte of a buffer. Past the end of the data the buffer reads as zero: the receive buffer is
cleared before the datagram is read into it. -/
def Msg.byte (m : Msg) (i : ℕ) : ℕ := (m.data.getD i 0).toNat

/-- Two bytes in network order, as `(p[0]<<8)+p[1]`. -/
def Msg.word (m : Msg) (i : ℕ) : ℕ := m.byte i * 256 + m.byte (i + 1)

/-- `memcpy` of `len` bytes from offset `off`. -/
def Msg.slice (m : Msg) (off len : ℕ) : List UInt8 :=
  (List.range len).map fun i => m.data.getD (off + i) 0

/-- `stMPDHeader` less the `uid` the receiver never looks at. The bit fields `fragment`, `stream`,
`length` fill the second byte from its low end. -/
structure MPDHeader where
  flag : ℕ
  fragment : ℕ
  stream : ℕ
  length : ℕ
  dsn : ℕ
  ssn : ℕ
  ack : ℕ
  deriving DecidableEq, Repr

/-- The header at the start of a datagram. -/
def Msg.header (m : Msg) : MPDHeader where
  flag := m.byte 0
  fragment := m.byte 1 % 4
  stream := m.byte 1 / 4 % 4
  length := m.byte 1 / 16
  dsn := m.word 2
  ssn := m.word 4
  ack := m.word 6

/-- A `U16` as it is written into a packet: `p[0] = n>>8; p[1] = n`. -/
def bytes16 (n : ℕ) : List UInt8 := [UInt8.ofNat (n / 256), UInt8.ofNat n]

/-- The twelve bytes of a header. -/
def MPDHeader.encode (h : MPDHeader) (uid : ℕ) : List UInt8 :=
  [UInt8.ofNat h.flag, UInt8.ofNat (h.fragment % 4 + 4 * (h.stream % 4) + 16 * (h.length % 16))] ++
    bytes16 h.dsn ++ bytes16 h.ssn ++ bytes16 h.ack ++
    [UInt8.ofNat (uid / 16777216), UInt8.ofNat (uid / 65536), UInt8.ofNat (uid / 256),
      UInt8.ofNat uid]

@[simp] theorem length_bytes16 (n : ℕ) : (bytes16 n).length = 2 := rfl

@[simp] theorem MPDHeader.length_encode (h : MPDHeader) (uid : ℕ) : (h.encode uid).length = 12 :=
  rfl

theorem Msg.byte_lt (m : Msg) (i : ℕ) : m.byte i < 256 := UInt8.toNat_lt _

theorem Msg.word_lt (m : Msg) (i : ℕ) : m.word i < 65536 := by
  have h1 := m.byte_lt i
  have h2 := m.byte_lt (i + 1)
  unfold Msg.word
  omega

/-- A header is read back as it was written, each field cut to its width. -/
@[simp] theorem header_encode (h : MPDHeader) (uid addr : ℕ) (rest : List UInt8) :
    (⟨addr, h.encode uid ++ rest⟩ : Msg).header =
      ⟨h.flag % 256, h.fragment % 4, h.stream % 4, h.length % 16, h.dsn % 65536, h.ssn % 65536,
        h.ack % 65536⟩ := by
  have hbits : h.fragment % 4 + 4 * (h.stream % 4) + 16 * (h.length % 16) < 256 := by omega
  simp only [Msg.header, Msg.word, Msg.byte, MPDHeader.encode, bytes16, List.cons_append,
    List.nil_append, List.getD_cons_zero, List.getD_cons_succ, UInt8.toNat_ofNat']
  refine MPDHeader.mk.injEq .. |>.mpr ⟨?_, ?_, ?_, ?_, ?_, ?_, ?_⟩ <;> omega

@[simp] theorem Msg.length_slice (m : Msg) (off len : ℕ) : (m.slice off len).length = len := by
  simp [Msg.slice]

/-! ### Windows -/

/-- `eNodeStatus`. -/
inductive NodeStatus
  | unReceived
  | received
  | receiveComplete
  deriving DecidableEq, Repr

/-- `eAckFlag`. -/
inductive AckFlag
  | unChecked
  | checked
  | sended
  deriving DecidableEq, Repr

/-- `eTransState`. -/
inductive TransState
  | dataInit
  | waitingSend
  | waitingAck
  | sacked
  deriving DecidableEq, Repr

/-- `stRxSubWinNode`. -/
structure RxSubWinNode where
  status : NodeStatus := .unReceived
  ssn : ℕ := 0
  deriving DecidableEq, Repr

/-- `stRxSubWin`: what one subflow has received, by subflow sequence number. -/
structure RxSubWin where
  win : ℕ → RxSubWinNode := fun _ => {}
  /-- First node not received. -/
  rxBegin : ℕ := 0
  /-- One past the newest node received. -/
  rxNext : ℕ := 0
  /-- The acknowledgement last sent. -/
  sentAck : ℕ := 0
  /-- One past the SSN the data window last handed to the transport. -/
  dataWinSSN : ℕ := 0

/-- `stRxDataWinNode`. `fragment` has one bit for every fragment stored; `NoFrag` is 0, `AllFrag`
is 3. -/
structure RxDataWinNode where
  flag : AckFlag := .unChecked
  status : NodeStatus := .unReceived
  timeOut : Bool := false
  fragment : ℕ := 0
  mpdHeadLen : ℕ := 0
  stream : ℕ := 0
  ssn : ℕ := 0
  dsn : ℕ := 0
  msgLen : ℕ → ℕ := fun _ => 0
  time : ℕ := 0
  msgPtr : ℕ → Option Msg := fun _ => none

/-- `stRxDataWin`: the packets of all subflows, waiting to be delivered in DSN order. -/
structure RxDataWin where
  win : ℕ → RxDataWinNode := fun _ => {}
  rxBegin : ℕ := 0
  rxNext : ℕ := 0
  newData : Bool := false

/-- `stDataNode`: one packet of a tx window. -/
structure DataNode where
  dsn : ℕ := 0
  ssn : ℕ := 0
  pData : Option Msg := none
  transState : TransState := .dataInit
  /-- When the packet was put into the window. -/
  t1 : ℕ := 0
  toDataAck : ℕ := 0
  toRetrans : ℕ := 0
  reTxCnt : ℕ := 0
  payloadLen : ℕ := 0

/-- `stTxWin`: the packets sent on one subflow and not yet acknowledged. -/
structure TxWin where
  /-- Oldest node to be confirmed. -/
  pTxBegin : ℕ := 0
  /-- Where the next packet goes. -/
  pTxNext : ℕ := 0
  dataNode : ℕ → DataNode := fun _ => {}
  subflowSn : ℕ := 0
  ackTimeOutcnt : ℕ := 0
  retransCnt : ℕ := 0
  histA : ℕ := 0
  lastTxTime : ℕ := 0
  lastSendAckTime : ℕ := 0
  lastSendPktTime : ℕ := 0
  /-- The newest packet, if one was sent since the window was cleared. -/
  pTxLast : Option ℕ := none
  timeOutRetCnt : ℕ := 0

/-- The fields of `stSchdStreamPara` that the window code reads or writes. -/
structure SchdStreamPara where
  isValid : Bool := false
  rttNew : ℕ := 0
  inhertDelay : ℕ := 5
  pktCnt : ℕ := 0
  pktRetCnt : ℕ := 0
  isRttUpdate : Bool := false

/-- The fields of `stTrafficControl` that the window code reads or writes. -/
structure TrafficControl where
  pktRate : ℕ := 128
  pktLossCnt : ℕ := 0
  ssnEnd : ℕ := 0
  sackNum : ℕ := 0

/-! ### What the session asks of its environment -/

/-- A memory access whose index or length comes from a datagram. -/
inductive Access
  /-- A table of `NUM_SUBFLOW` entries. -/
  | flow (i : ℕ)
  /-- A table of `MaxFragNum` entries. -/
  | frag (i : ℕ)
  /-- One byte of a datagram of `len` bytes. -/
  | read (off len : ℕ)
  /-- A length computed as `a - b`. -/
  | sub (a b : ℕ)
  deriving DecidableEq, Repr

/-- The access stays inside its table, inside the datagram, at or above zero. -/
def Access.InRange : Access → Prop
  | .flow i => i < 3
  | .frag i => i < 2
  | .read off len => off < len
  | .sub a b => b ≤ a

instance : DecidablePred Access.InRange := fun a => by
  cases a <;> unfold Access.InRange <;> infer_instance

/-- The places that hand a received packet to the transport. -/
inductive PostSite
  /-- `MPD_DataWinRxBeginMove`, at the head of the data window. -/
  | inOrder
  /-- `MPD_DataWinAddNode`, for a packet behind the window. -/
  | outOfWindow
  /-- `MPD_CheckAck`, ahead of order. -/
  | early
  deriving DecidableEq, Repr

/-- The calls that leave the session. -/
inductive Action
  /-- `MPD_MsgMemfree`. -/
  | free (m : Msg)
  /-- `MPD_RetransMsgMemfree`: the buffer may still wait in the queue of subflow `flowId`. -/
  | freeResend (m : Msg) (flowId : ℕ)
  /-- `MPD_OnSendMPDataComplete` and its answer. -/
  | send (deviceId : ℕ) (m : Msg) (datalen : ℕ) (release : Bool) (ok : Bool)
  /-- `MPD_PostPreMPDataToTransport` of a received buffer; `dsn` is the DSN it was stored under. -/
  | post (site : PostSite) (dsn : ℕ) (m : Msg) (datalen offsize : ℕ)
  /-- `MPD_PostPreMPDataToTransport` of the buffer two fragments were copied into. -/
  | postMerged (dsn : ℕ) (first second : Msg) (buffer : Msg) (datalen offsize : ℕ)
  /-- `MPD_OnNotifyException`. -/
  | exception (netType : ℕ) (code : ℤ)
  | access (a : Access)
  deriving DecidableEq, Repr

/-- `stUserInfo`, with the clock `g_time` and the session's environment. -/
structure UserInfo where
  uid : ℕ := 0
  time : ℕ := 0
  lastPackageTime : ℕ := 0
  txWindow : ℕ → TxWin := fun _ => {}
  txDataSn : ℕ := 0
  rxDsnErr : ℕ := 0
  rxSubWin : ℕ → RxSubWin := fun _ => {}
  rxDataWin : RxDataWin := {}
  sendSackTime : ℕ := 1
  schdPara : ℕ → SchdStreamPara := fun _ => {}
  trafficControl : ℕ → TrafficControl := fun _ => {}
  totalToAckNum : ℕ := 0
  activeFlowNum : ℕ := 0
  /-- Everything the session has asked for so far. -/
  out : List Action := []
  /-- Answers `MPD_MsgMemCreat` is going to give: an address, or `none` for `NULL`. -/
  allocs : ℕ → Option ℕ := fun n => some n
  /-- Answers `MPD_OnSendMPDataComplete` is going to give: whether the packet was queued. -/
  sends : ℕ → Bool := fun _ => true

namespace UserInfo

/-- Ask for a list of actions. -/
def emit (u : UserInfo) (as : List Action) : UserInfo := { u with out := u.out ++ as }

def setTxWindow (u : UserInfo) (flowId : ℕ) (w : TxWin) : UserInfo :=
  { u with txWindow := Function.update u.txWindow flowId w }

def setRxSubWin (u : UserInfo) (index : ℕ) (w : RxSubWin) : UserInfo :=
  { u with rxSubWin := Function.update u.rxSubWin index w }

def setRxDataWinNode (u : UserInfo) (index : ℕ) (n : RxDataWinNode) : UserInfo :=
  { u with rxDataWin := { u.rxDataWin with win := Function.update u.rxDataWin.win index n } }

def setSchdPara (u : UserInfo) (flowId : ℕ) (p : SchdStreamPara) : UserInfo :=
  { u with schdPara := Function.update u.schdPara flowId p }

def setTrafficControl (u : UserInfo) (flowId : ℕ) (t : TrafficControl) : UserInfo :=
  { u with trafficControl := Function.update u.trafficControl flowId t }

end UserInfo

/-- `MPD_SCHD_getFlowValid`. The table has an entry for every subflow; entry 3, which a packet can
name, is the low byte of `RTTFlowMax` and reads zero in this build. -/
def schdGetFlowValid (u : UserInfo) (flowId : ℕ) : Bool := (u.schdPara flowId).isValid

/-- `MPD_GetDeviceId`, for a subflow. -/
def getDeviceId (flowId : ℕ) : ℕ := 2 ^ flowId

/-- `MPD_MsgMemCreat`: the address given, and the session with that answer used up. -/
def msgMemCreat (u : UserInfo) : Option ℕ × UserInfo :=
  (u.allocs 0, { u with allocs := fun n => u.allocs (n + 1) })

/-- `MPD_OnSendMPDataComplete`: whether the packet was queued. -/
def onSendMPDataComplete (u : UserInfo) (flowId : ℕ) (m : Msg) (datalen : ℕ) (release : Bool) :
    Bool × UserInfo :=
  (u.sends 0,
    { u.emit [.send (getDeviceId flowId) m datalen release (u.sends 0)] with
      sends := fun n => u.sends (n + 1) })

end Mpd

end AndroidVendor
