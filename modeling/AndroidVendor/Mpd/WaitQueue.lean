import AndroidVendor.Lib.RingQueue
import AndroidVendor.Mpd.Schd

/-!
# The wait queue

With traffic control on, packets that cannot be scheduled wait (`mpd_tx.c`):
`MPD_DoSendNewTransData` puts them into a ring of 512 nodes, which gives up its oldest packet when
it is full, `MPD_DoSendWaitQueueData` sends from it once a tick, and `MPD_clearWaitQueue` empties
it.

`MPD_DoSendWaitQueueData` keeps `isFragment` and `dataFrag` outside its loop. `DrainState` is its
local variables beside the session; `DrainState.turn` is one round, and `goesOn` says that no
`break` or `return` was met in it.

## Implementation notes

Lengths are `S32` in the code; negative ones are freed as too short, like every length below 12.
`dataFrag` is not initialised. It is read in a round that finds `isFragment` set, that is, after a
packet was split, and holds what is left of it then.
-/

namespace AndroidVendor

namespace Mpd

/-- `stWaitSendNode`. -/
structure WaitSendNode where
  pData : Option Msg := none
  len : ℕ := 0
  deriving DecidableEq, Repr

/-- The session with its wait queue. -/
structure WaitInfo where
  schd : SchdInfo := {}
  dataWaitQueue : ℕ → WaitSendNode := fun _ => {}
  /-- Where the next packet goes. -/
  pDataWaiteHead : ℕ := 0
  /-- The packet to be sent next. -/
  pDataWaiteTail : ℕ := 0

/-- `(i + 1)%DataWaitQueueSize`. -/
def waitPlus (i : ℕ) : ℕ := (i + 1) % 512

namespace WaitInfo

def setUser (s : WaitInfo) (u : UserInfo) : WaitInfo := { s with schd := { s.schd with user := u } }

def setNode (s : WaitInfo) (i : ℕ) (n : WaitSendNode) : WaitInfo :=
  { s with dataWaitQueue := Function.update s.dataWaitQueue i n }

/-- `MPD_MsgMemfree` of what a node points at. -/
def freeNode (s : WaitInfo) (i : ℕ) : WaitInfo :=
  (s.setUser (s.schd.user.emit ((s.dataWaitQueue i).pData.toList.map .free))).setNode i
    { s.dataWaitQueue i with pData := none }

/-! ### Putting a packet in -/

/-- The part of `MPD_DoSendNewTransData` that puts a packet into the queue. -/
def putWait (s : WaitInfo) (data : Msg) (length : ℕ) : WaitInfo :=
  let s := s.setNode s.pDataWaiteHead ⟨some data, length⟩
  let s := { s with pDataWaiteHead := waitPlus s.pDataWaiteHead }
  if s.pDataWaiteHead = s.pDataWaiteTail then
    -- the ring is full: the oldest packet goes
    { s.freeNode s.pDataWaiteTail with pDataWaiteTail := waitPlus s.pDataWaiteTail }
  else s

/-- Packets are waiting, or scheduling is stopped. -/
def Gated (s : WaitInfo) : Prop :=
  s.schd.g.isTrafficCtl = true ∧
    (s.pDataWaiteHead ≠ s.pDataWaiteTail ∨ s.schd.isMpStopSched = true)

instance (s : WaitInfo) : Decidable s.Gated := inferInstanceAs (Decidable (_ ∧ _))

/-- The answer of `MPD_SCHD_ChooseStream` as `doSendNewTransData` takes it. -/
def flowOf (flowId : ℕ) : Option ℕ := if flowId = 255 then none else some flowId

/-- `MPD_DoSendNewTransData`. -/
def transNewData (s : WaitInfo) (data : Msg) (length : ℕ) : WaitInfo :=
  if length < 12 then s.setUser (s.schd.user.emit [.free data])
  else if s.Gated then s.putWait data length
  else
    let (flowId, schd) := s.schd.chooseStream
    { s with schd := { schd with user := (schd.user.doSendNewTransData (flowOf flowId) data length).2 } }

/-! ### Sending from the queue -/

/-- The local variables of `MPD_DoSendWaitQueueData`. -/
structure DrainState where
  info : WaitInfo
  queueIdx : ℕ
  pktCnt : ℕ
  pktCntSend : ℕ := 0
  isFragment : Bool := false
  dataFrag : UserInfo.DataFragment := ⟨⟨0, []⟩, ⟨0, []⟩⟩
  lastBlockLength : ℕ := 0
  goesOn : Bool := true

/-- `MPD_SplitDataMem` into `dataFrag`: whether the packet was split. When the second allocation
fails, the first buffer is freed and left in `dataFrag`. -/
def DrainState.split (d : DrainState) (u : UserInfo) (data : Msg) (length : ℕ) :
    Bool × DrainState × UserInfo :=
  let (frag, u') := u.splitDataMem data length
  match frag with
  | some frag => (true, { d with dataFrag := frag, lastBlockLength := length - 1012 + 12 }, u')
  | none =>
    match u.allocs 0 with
    | some addr => (false, { d with dataFrag.first := ⟨addr, data.slice 0 1012⟩ }, u')
    | none => (false, d, u')

/-- A long packet is split, if there is memory. -/
def DrainState.prepare (d : DrainState) (u : UserInfo) (data : Msg) (length : ℕ) :
    DrainState × UserInfo :=
  if 1480 ≤ length then
    let (rst, d, u) := d.split u data length
    (if rst then { d with isFragment := true } else d, u)
  else (d, u)

/-- One packet or its two fragments on their way out. The result of the last send counts. -/
def DrainState.send (d : DrainState) (u : UserInfo) (flowId : ℕ) (data : Msg) (length : ℕ) :
    Bool × ℕ × UserInfo :=
  if !d.isFragment then
    let (ok, u) := u.sendBlock flowId data length 0
    (ok, 1, u)
  else
    let u := (u.sendBlock flowId d.dataFrag.first 1012 1).2
    -- both fragments carry one DSN
    let u := { u with txDataSn := u16 (u.txDataSn + 65535) }
    let (ok, u) := u.sendBlock flowId d.dataFrag.last d.lastBlockLength 2
    (ok, 2, u)

/-- One round of `MPD_DoSendWaitQueueData`. -/
def DrainState.turn (d : DrainState) : DrainState :=
  let node := d.info.dataWaitQueue d.queueIdx
  match node.pData with
  | none =>
    { d with
      info := { d.info with pDataWaiteTail := waitPlus d.info.pDataWaiteTail }
      goesOn := false }
  | some dataAddr =>
    let (flowId, schd) := d.info.schd.chooseStream
    if flowId = 255 then { d with info := { d.info with schd := schd }, goesOn := false }
    else
      let u := { schd.user with lastPackageTime := u32 (schd.user.time + 6000) }
      let (d, u) := d.prepare u dataAddr node.len
      let (ok, cnt, u) := d.send u flowId dataAddr node.len
      let info := { d.info with schd := { schd with user := u } }
      { d with
        info := { info.setNode d.queueIdx { node with pData := none } with
          pDataWaiteTail := waitPlus d.queueIdx }
        queueIdx := waitPlus d.queueIdx
        pktCntSend := d.pktCntSend + cnt
        goesOn := !schd.isMpStopSched && decide (d.pktCntSend + cnt < d.pktCnt) && ok }

/-- Another round is due. -/
def DrainState.Going (d : DrainState) : Prop :=
  d.goesOn = true ∧ d.info.pDataWaiteHead ≠ d.info.pDataWaiteTail

instance : DecidablePred DrainState.Going := fun _ => inferInstanceAs (Decidable (_ ∧ _))

/-- The variables as the loop finds them: up to nine packets a tick, or what all flows together may
send in one. -/
def drainStart (s : WaitInfo) : DrainState where
  info := s
  queueIdx := s.pDataWaiteTail
  pktCnt := if s.schd.isAllFlowTrafficCtl then u32 (s.schd.throuputTotal + 99) / 100 else 9

/-- `MPD_DoSendWaitQueueData`. The loop meets `pDataWaiteHead` within one turn of the ring. -/
def doSendWaitQueueData (s : WaitInfo) : Option WaitInfo :=
  if s.schd.isMpStopSched then some s
  else
    (Loop.whileLoop DrainState.Going (fun d => some d.turn) 512 s.drainStart).map (·.info)

/-! ### Emptying the queue -/

/-- The loop of `MPD_clearWaitQueue`. -/
def clearNodes (s : WaitInfo) : Option WaitInfo :=
  Loop.whileLoop (fun s => s.pDataWaiteHead ≠ s.pDataWaiteTail)
    (fun s => some { s.freeNode s.pDataWaiteTail with pDataWaiteTail := waitPlus s.pDataWaiteTail })
    512 s

/-- `MPD_clearWaitQueue`. -/
def clearWaitQueue (s : WaitInfo) : Option WaitInfo :=
  s.clearNodes.map fun s =>
    { s with dataWaitQueue := fun _ => {}, pDataWaiteHead := 0, pDataWaiteTail := 0 }

end WaitInfo

/-- What can happen to a session with a wait queue. -/
inductive WaitOp
  | session (op : Op)
  | setRate (flowId : Fin 3) (r : SchdRate)
  | trafficControl
  /-- The multipath service is switched off: `MPD_clearWaitQueue` and `MPD_TrafficCtlInit`. -/
  | clear
  /-- A packet is to be sent; its length is that of the data in the buffer. -/
  | transNewData (data : Msg)
  | doSendWaitQueueData
  deriving DecidableEq

def WaitOp.step : WaitOp → WaitInfo → Option WaitInfo
  | .session op, s => (op.step s.schd.user).map s.setUser
  | .setRate flowId r, s => some { s with schd := s.schd.setRate flowId r }
  | .trafficControl, s => some { s with schd := s.schd.trafficControl }
  | .clear, s => s.clearWaitQueue.map fun s => { s with schd := s.schd.trafficCtlInit }
  | .transNewData data, s => some (s.transNewData data data.data.length)
  | .doSendWaitQueueData, s => s.doSendWaitQueueData

end Mpd

end AndroidVendor
