import AndroidVendor.Mpd.Stores

/-!
# The two ends of a session

A sender with its tx windows, a receiver with its rx windows, and between them a channel that loses,
duplicates and reorders: whatever was handed to a subflow queue may arrive any number of times, at
any time, or never. Both ends run the code as it stands; the receiver has no data to send, so what
it puts on the channel are the messages of `MPD_SackPeriodSend`.

## Positions

The packets of a subflow are counted without wrapping: position `x` has the SSN `x % 65536`, and
the first packet of a session has position 65536, so that every SSN has a position before it. The
two ends keep SSNs only. What a position means at either end is on record beside them: how many
packets the sender has numbered, and where `RxBegin` of each sub window stands.

## Main definitions

* `Link`, `LinkOp.step` — the two ends and the channel, and what can happen to them
* `Link.Covered` — what entitles the sender to give up a packet
* `Link.Near`, `Link.Tame` — what is assumed of the channel, and when the code is safe on it
-/

namespace AndroidVendor

namespace Mpd

open UserInfo

/-! ### What is on its way -/

/-- A datagram on its way: its bytes, the subflow its header names, and the position it is about. -/
structure InTransit where
  flow : ℕ
  pos : ℕ
  data : List UInt8
  deriving DecidableEq, Repr

/-- The bytes a subflow queue took. -/
def Action.wire : Action → Option (List UInt8)
  | .send _ m datalen _ true => some (m.slice 0 datalen)
  | _ => none

/-- The header of a datagram, whatever buffer it is received in. -/
def wireHeader (data : List UInt8) : MPDHeader := (⟨0, data⟩ : Msg).header

/-- What was put on the channel, labelled with the positions that `pos` reads off the headers. -/
def onWire (pos : MPDHeader → ℕ) (out : List Action) : List InTransit :=
  (out.filterMap Action.wire).map fun data =>
    ⟨(wireHeader data).stream, pos (wireHeader data), data⟩

/-- The last position up to `count` with this SSN. -/
def lastPosition (count ssn : ℕ) : ℕ := count - distanceSN ssn (count % 65536)

/-! ### Into the sub window -/

/-- `MPD_SubWinAddNode` does not turn the packet away as one behind the window. -/
def RxSubWin.Takes (w : RxSubWin) (ssn : ℕ) : Prop :=
  w.looksClear ∨ ¬ distanceSN ssn w.beginNode.ssn < distanceSN w.beginNode.ssn ssn

instance (w : RxSubWin) (ssn : ℕ) : Decidable (w.Takes ssn) := inferInstanceAs (Decidable (_ ∨ _))

/-- What the environment answers during a step: what `MPD_MsgMemCreat` gives, and whether the subflow
queues take what they are handed. -/
structure Answers where
  allocs : ℕ → Option ℕ
  sends : ℕ → Bool

/-- It answers every request. -/
def Answers.granted : Answers where
  allocs k := some k
  sends _ := true

namespace UserInfo

/-- The session when it is going to get these answers. -/
def facing (u : UserInfo) (e : Answers) : UserInfo := { u with allocs := e.allocs, sends := e.sends }

/-- `MPD_DoParseMPData` up to the call of `MPD_SubWinAddNode`; the answer says whether it gets
there. -/
def offerPacket (u : UserInfo) (m : Msg) : Option (UserInfo × Bool) :=
  let u := u.emit (m.headReads [0, 1])
  let u := if m.header.flag = 0x55 then u.emit [.access (.flow m.header.stream)] else u
  if u.Rejects m then some (u.emit [.free m], false)
  else
    let u := { u.emit (m.headReads [2, 3, 4, 5, 6, 7]) with
      lastPackageTime := u32 (u.time + 6000) }
    if m.IsAck then (u.parseAck m).map (·, false)
    else
      (u.processACK m.header.stream m.header.ack 1).bind fun u =>
        if u.TooLate m then some (u.emit [.free m], false) else u.dataWinAddNode m.node

/-- The sub window `MPD_SubWinAddNode` finds, if it is called. -/
def offered (u : UserInfo) (m : Msg) : Option RxSubWin :=
  (u.offerPacket m).bind fun r => if r.2 then some (r.1.rxSubWin m.header.stream) else none

end UserInfo

/-! ### What is on record -/

/-- What came to a receiver: what arrived, each datagram in a buffer of its own, with its position,
and the subflow and position of what entered the sub windows. -/
structure RxRecord where
  arrived : List (ℕ × Msg)
  accepted : List (ℕ × ℕ)

namespace RxRecord

variable (R : RxRecord) (out : List Action)

/-- The packet that opened the sub window of `f`. -/
def firstAccepted (f : ℕ) : Option ℕ := (R.accepted.find? (·.1 = f)).map (·.2)

/-- The packet of `f` at position `p` arrived, and the data window handed it over. -/
def Posted (f p : ℕ) : Prop :=
  ∃ m, (p, m) ∈ R.arrived ∧ m.header.stream = f ∧ ∃ a ∈ out, m ∈ a.buffers

/-- What entitles the sender to give up position `x` of `f`: it entered the sub window, it precedes
the first one that did, the data window posted it or a later one, or the 1024 slots of the sub window
overflowed. -/
def Covered (f x : ℕ) : Prop :=
  (f, x) ∈ R.accepted ∨ (∃ y ∈ R.firstAccepted f, x < y) ∨ (∃ p, x ≤ p ∧ R.Posted out f p) ∨
    ∃ q, (f, q) ∈ R.accepted ∧ x + 1023 ≤ q

end RxRecord

/-! ### The link -/

/-- Both ends, the channel, and what is on record about them. -/
structure Link where
  sender : UserInfo
  receiver : UserInfo
  /-- Every data packet a queue of the sender took. -/
  packets : List InTransit
  /-- Every acknowledgement a queue of the receiver took. -/
  reports : List InTransit
  /-- The position of the next packet of each subflow. -/
  sent : ℕ → ℕ
  /-- The position of `RxBegin` of each sub window. -/
  front : ℕ → ℕ
  record : RxRecord
  /-- The subflow and the position of each packet the sender gave up on an acknowledgement. -/
  released : List (ℕ × ℕ)

/-- What can happen to the link. -/
inductive LinkOp
  /-- The sender is given data. -/
  | send (flowId : Option (Fin 3)) (data : Msg) (length : ℕ) (e : Answers)
  | txWinRetransCheck (e : Answers)
  /-- `g_time++` at the sender. -/
  | txTick
  /-- An acknowledgement arrives at the sender, in the buffer at `addr`. -/
  | report (i addr : ℕ) (e : Answers)
  /-- A packet arrives at the receiver. -/
  | packet (i : ℕ) (e : Answers)
  /-- `g_time++` at the receiver. -/
  | rxTick
  | dataWinTimeOutCheck (e : Answers)
  | checkAck
  | sackPeriodSend (e : Answers)

/-- The packet at position `x` is in the window and holds its data, `count` being the position of
the next one. -/
def TxWin.Holds (w : TxWin) (count x : ℕ) : Prop :=
  x < count ∧ count ≤ x + 1024 ∧ (w.dataNode (x % 1024)).pData.isSome

instance (w : TxWin) (count x : ℕ) : Decidable (w.Holds count x) :=
  inferInstanceAs (Decidable (_ ∧ _ ∧ _))

namespace Link

/-- Both ends at the beginning of a session, with cleared windows. -/
def start (sender receiver : UserInfo) : Link where
  sender := sender.cleared
  receiver := receiver.cleared
  packets := []
  reports := []
  sent _ := 65536
  front _ := 65536
  record := ⟨[], []⟩
  released := []

/-- The sender has become `v`: the SSNs it used up, and what it put on the channel. -/
def setSender (L : Link) (v : UserInfo) : Link :=
  let sent := fun f =>
    L.sent f + distanceSN (L.sender.txWindow f).subflowSn (v.txWindow f).subflowSn
  { L with
    sender := v
    sent := sent
    packets := L.packets ++ onWire (fun h => lastPosition (sent h.stream) h.ssn)
      (v.out.drop L.sender.out.length) }

/-- The receiver has become `v`: how far `RxBegin` went. -/
def setReceiver (L : Link) (v : UserInfo) : Link :=
  { L with
    receiver := v
    front := fun f => L.front f +
      distanceSN (L.receiver.rxSubWin f).beginNode.ssn (v.rxSubWin f).beginNode.ssn }

/-- The packets the sender gives up as it becomes `v`. -/
def givenUp (L : Link) (v : UserInfo) : List (ℕ × ℕ) :=
  (List.range 3).flatMap fun f =>
    ((List.range' (L.sent f - 1024) 1024).filter fun x =>
      (L.sender.txWindow f).Holds (L.sent f) x ∧ ¬ (v.txWindow f).Holds (L.sent f) x).map (f, ·)

/-- The datagram as the receiver finds it. -/
def received (L : Link) (p : InTransit) : Msg := ⟨L.record.arrived.length, p.data⟩

/-- The record once the packet has arrived. -/
def recorded (L : Link) (p : InTransit) (e : Answers) : RxRecord where
  arrived := L.record.arrived ++ [(p.pos, L.received p)]
  accepted := L.record.accepted ++
    if ∃ w ∈ (L.receiver.facing e).offered (L.received p), w.Takes (L.received p).header.ssn then
      [(p.flow, p.pos)] else []

/-- A packet arrives. -/
def deliver (L : Link) (p : InTransit) (e : Answers) : Option Link :=
  ((L.receiver.facing e).doParseMPData (L.received p)).map fun v =>
    { L.setReceiver v with record := L.recorded p e }

/-- An acknowledgement arrives. -/
def acknowledge (L : Link) (r : InTransit) (addr : ℕ) (e : Answers) : Option Link :=
  ((L.sender.facing e).doParseMPData ⟨addr, r.data⟩).map fun v =>
    { L.setSender v with released := L.released ++ L.givenUp v }

/-- `MPD_SackPeriodSend` at the receiver. -/
def askForAcks (L : Link) (e : Answers) : Link :=
  let v := (L.receiver.facing e).sackPeriodSend
  { L.setReceiver v with
    reports := L.reports ++ onWire (fun h => L.front h.stream) (v.out.drop L.receiver.out.length) }

end Link

/-- One step; `none` when a loop of the code does not stop, or nothing of that number is on the
channel. -/
def LinkOp.step : LinkOp → Link → Option Link
  | .send flowId data length e, L =>
    some (L.setSender
      ((L.sender.facing e).doSendNewTransData (flowId.map (·.val)) data length).2)
  | .txWinRetransCheck e, L => some (L.setSender (L.sender.facing e).txWinRetransCheck)
  | .txTick, L => some (L.setSender { L.sender with time := u32 (L.sender.time + 1) })
  | .report i addr e, L => L.reports[i]?.bind fun r => L.acknowledge r addr e
  | .packet i e, L => L.packets[i]?.bind fun p => L.deliver p e
  | .rxTick, L => some (L.setReceiver { L.receiver with time := u32 (L.receiver.time + 1) })
  | .dataWinTimeOutCheck e, L => (L.receiver.facing e).dataWinTimeOutCheck.map L.setReceiver
  | .checkAck, L => some (L.setReceiver L.receiver.checkAck)
  | .sackPeriodSend e, L => some (L.askForAcks e)

namespace Link

/-! ### Safety -/

/-- The sender is entitled to give up position `x` of `f`. -/
def Covered (L : Link) (f x : ℕ) : Prop := L.record.Covered L.receiver.out f x

/-- Whatever the sender gave up on an acknowledgement, it was entitled to. -/
def Safe (L : Link) : Prop := ∀ r ∈ L.released, L.Covered r.1 r.2

/-! ### The channel -/

/-- The position of `RxNext` of a sub window. -/
def next (L : Link) (f : ℕ) : ℕ := L.front f + (L.receiver.rxSubWin f).span

/-- What arrives lies within half a turn of the window it arrives at. -/
def Near (L : Link) : LinkOp → Prop
  | .packet i _ => ∀ p ∈ L.packets[i]?,
    p.pos < L.front p.flow + 32768 ∧ L.next p.flow < p.pos + 32768
  | .report i _ _ => ∀ r ∈ L.reports[i]?,
    r.pos < L.sent r.flow + 32768 ∧ L.sent r.flow < r.pos + 32768
  | _ => True

/-- An SSN on which the data window may drive the sub window of `f`: the one noted down, or one that
follows a packet in its slots. -/
def Drives (L : Link) (f ssn : ℕ) : Prop :=
  ssn = (L.receiver.rxSubWin f).dataWinSSN ∨
    ∃ i, (L.receiver.rxDataWin.win i).status ≠ .unReceived ∧
      (L.receiver.rxDataWin.win i).stream = f ∧ ssn = ssnPlus (L.receiver.rxDataWin.win i).ssn

/-- The SSN lies ahead of `RxNext` and will lie behind it when position `x` has entered. -/
def Overtaken (L : Link) (f x ssn : ℕ) : Prop :=
  0 < distanceSN (L.receiver.rxSubWin f).nextNode.ssn ssn ∧
    distanceSN (L.receiver.rxSubWin f).nextNode.ssn ssn ≤ x + 1 - L.next f

instance (L : Link) (f x ssn : ℕ) : Decidable (L.Overtaken f x ssn) :=
  inferInstanceAs (Decidable (_ ∧ _))

/-- The packet may arrive: a sub window that looks clear was cleared, or the packet is the one it
waits for; no SSN of the turn before is overtaken. -/
structure Admits (L : Link) (p : InTransit) (e : Answers) : Prop where
  anchor : ∀ w ∈ (L.receiver.facing e).offered (L.received p), w.looksClear →
    (∀ y, (p.flow, y) ∉ L.record.accepted) ∨ (wireHeader p.data).ssn = 0
  turn : ∀ ssn, L.Drives p.flow ssn → ¬ L.Overtaken p.flow p.pos ssn

/-- When the code is safe: an arriving packet finds a sub window that means what it looks like, and
two fragments that are merged find a buffer. -/
def Tame (L : Link) : LinkOp → Prop
  | .packet i e => (∀ p ∈ L.packets[i]?, L.Admits p e) ∧ ∀ k, (e.allocs k).isSome
  | .dataWinTimeOutCheck e => ∀ k, (e.allocs k).isSome
  | _ => True

end Link

end Mpd

end AndroidVendor
