import AndroidVendor.Mpd.InStep
import AndroidVendor.Mpd.LinkRun
import AndroidVendor.Mpd.LinkSend

/-!
# A packet that is acknowledged and never arrived

65536 packets go out on one subflow and arrive in order. The next one goes out in two parts, the first
of which is lost. When the second part arrives, the sub window is empty at slot 0, SSN 0, and
`MPD_SubWinAddNode` takes it for one that was cleared: it starts again behind the first part. The next
report acknowledges both parts, and the sender gives up the first.

## Main results

* `Link.Lockstep` — both ends after `k` packets
* `link_turn` — the run
-/

namespace AndroidVendor

namespace Mpd

open Machine UserInfo

namespace Link

variable {L L' : Link} {p : InTransit} {e : Answers} {v : UserInfo} {i k : ℕ}

theorem near_packet (hget : L.packets[i]? = some p)
    (h : p.pos < L.front p.flow + 32768 ∧ L.next p.flow < p.pos + 32768) : L.Near (.packet i e) := by
  intro q hq
  rw [hget] at hq
  cases hq
  exact h

theorem step_packet (hget : L.packets[i]? = some p)
    (hrecv : (L.receiver.facing e).doParseMPData (L.received p) = some v) :
    LinkOp.step (.packet i e) L = some { L.setReceiver v with record := L.recorded p e } := by
  show (L.packets[i]?).bind _ = _
  rw [hget]
  exact congrArg (Option.map _) hrecv

theorem arrived_recorded {r : ℕ × Msg} (hr : r ∈ (L.recorded p e).arrived) :
    r ∈ L.record.arrived ∨ r = (p.pos, L.received p) :=
  (List.mem_append.mp hr).imp_right List.mem_singleton.mp

theorem of_mem_accepted {r : ℕ × ℕ} (hr : r ∈ (L.recorded p e).accepted) :
    r ∈ L.record.accepted ∨ r = (p.flow, p.pos) := by
  refine (List.mem_append.mp hr).imp_right fun hr => ?_
  split at hr
  · exact List.mem_singleton.mp hr
  · cases hr

/-- The first `k` packets went out on subflow 0 and arrived in order, and nothing was reported. -/
structure Lockstep (L : Link) (k : ℕ) : Prop where
  stands : L.sender.Stands L.sent
  dsn : L.sender.txDataSn % 65536 = k % 65536
  flow : schdGetFlowValid L.sender 0 = true
  sent : L.sent 0 = 65536 + k
  packets : L.packets.length = k
  reports : L.reports = []
  receiver : L.receiver.InStep k
  front : L.front 0 = 65536 + k
  arrived : ∀ r ∈ L.record.arrived, r.1 < 65536 + k
  accepted : ∀ r ∈ L.record.accepted, r.2 < 65536 + k
  opened : 0 < k → ∃ y, (0, y) ∈ L.record.accepted

theorem lockstep_start : (start ready ready).Lockstep 0 where
  stands _ := ⟨65536, le_rfl, shape_start⟩
  dsn := rfl
  flow := rfl
  sent := rfl
  packets := rfl
  reports := rfl
  receiver := inStep_ready
  front := rfl
  arrived _ h := absurd h List.not_mem_nil
  accepted _ h := absurd h List.not_mem_nil
  opened h := absurd h (lt_irrefl 0)

/-! ### One round -/

/-- `j` positions of subflow 0 were used up. -/
def ahead (L : Link) (j : ℕ) : ℕ → ℕ := Function.update L.sent 0 (L.sent 0 + j)

theorem ahead_zero (L : Link) (j : ℕ) : L.ahead j 0 = L.sent 0 + j := Function.update_self ..

theorem sent_le_ahead (L : Link) {j : ℕ} (hj : j ≤ 2) (f : ℕ) :
    L.sent f ≤ L.ahead j f ∧ L.ahead j f < L.sent f + 65536 := by
  rw [ahead, Function.update_apply]
  split
  · next heq =>
    subst heq
    omega
  · omega

/-- The next packet goes out. -/
theorem Lockstep.send (h : L.Lockstep k) :
    ∃ (v : UserInfo) (m : Msg),
      LinkOp.step (.send (some 0) oneByte 13 .granted) L = some (L.setSender v) ∧ m.IsNth k ∧
      (L.setSender v).packets = L.packets ++ [⟨0, 65536 + k, m.data⟩] ∧
      v.Stands (L.setSender v).sent ∧ (L.setSender v).sent 0 = 65536 + (k + 1) ∧
      v.txDataSn % 65536 = (k + 1) % 65536 ∧ schdGetFlowValid v 0 = true := by
  have hstands : (L.sender.facing .granted).Stands L.sent := h.stands.congr rfl
  have hvalid := valid_doSendNewTransData (L.sender.facing .granted) (some 0) oneByte 13 0
  generalize hv : ((L.sender.facing .granted).doSendNewTransData (some 0) oneByte 13).2 = v at hvalid
  obtain ⟨m, as, hout, hwire, hpart, hvs, hdsn⟩ := send_whole hstands
    (by decide : 0 < 3) (show 12 ≤ oneByte.data.length by decide) (by decide) rfl hv
  have hcount := L.sent_le_ahead (show 1 ≤ 2 by decide)
  have hsent : (L.setSender v).sent = L.ahead 1 := setSender_sent h.stands hcount hvs
  have hdsn₀ : (L.sender.facing .granted).txDataSn % 65536 = k % 65536 := h.dsn
  refine ⟨v, m, congrArg (fun v => some (L.setSender v)) hv, ?_, ?_, ?_, ?_, ?_,
    hvalid.trans h.flow⟩
  · refine ⟨hpart.flag, hpart.fragment, hpart.stream, hpart.dsn.trans hdsn₀, ?_, hpart.not_isAck ?_⟩
    · rw [hpart.ssn, h.sent]
      omega
    · decide
  · rw [setSender_packets h.stands hcount hvs hout, onWire, hwire, ← h.sent]
    exact congrArg (L.packets ++ [·]) (hpart.inTransit (Nat.le_succ _) (by omega) (L.ahead_zero 1))
  · rw [hsent]
    exact hvs
  · rw [hsent, ahead_zero, h.sent]
    omega
  · rw [hdsn, u16]
    omega

/-- It arrives. -/
theorem Lockstep.round (h : L.Lockstep k) :
    ∃ L₁ L₂, LinkOp.step (.send (some 0) oneByte 13 .granted) L = some L₁ ∧
      L₁.Near (.packet k .granted) ∧ LinkOp.step (.packet k .granted) L₁ = some L₂ ∧
      L₂.Lockstep (k + 1) := by
  obtain ⟨v, m, hsend, hm, hpackets, hvs, hsent, hdsn, hvalid⟩ := h.send
  have hget : (L.setSender v).packets[k]? = some ⟨0, 65536 + k, m.data⟩ := by
    rw [hpackets, List.getElem?_append_right h.packets.le, h.packets, Nat.sub_self]
    rfl
  have hfront : (L.setSender v).front 0 = 65536 + k := h.front
  have hsub := h.receiver.arrived.sub
  have hnext : (L.setSender v).next 0 = 65536 + k := by
    have hspan : (L.receiver.rxSubWin 0).span = k - k := hsub.toSpans.span_eq
    show L.front 0 + (L.receiver.rxSubWin 0).span = _
    rw [hspan, h.front]
    omega
  obtain ⟨v', w, hrecv, hin, hoff, htakes⟩ :=
    (h.receiver.facing .granted).recv (hm.moved L.record.arrived.length)
  refine ⟨_, { (L.setSender v).setReceiver v' with
    record := (L.setSender v).recorded ⟨0, 65536 + k, m.data⟩ .granted }, hsend,
    near_packet hget (by dsimp only; omega), step_packet hget hrecv, ?_⟩
  have haccepted := accepted_recorded (L := L.setSender v) (p := ⟨0, 65536 + k, m.data⟩) hoff htakes
  refine
    { stands := hvs, dsn := hdsn, flow := hvalid, sent := hsent, packets := ?_, reports := h.reports
      receiver := hin, front := ?_, arrived := fun r hr => ?_, accepted := fun r hr => ?_
      opened := fun _ => ⟨65536 + k, ?_⟩ }
  · show (L.setSender v).packets.length = _
    rw [hpackets, List.length_append, h.packets]
    rfl
  · show L.front 0 + distanceSN (L.receiver.rxSubWin 0).beginNode.ssn
      (v'.rxSubWin 0).beginNode.ssn = _
    rw [hsub.begin_ssn, hin.arrived.sub.begin_ssn, distanceSN_of_le (Nat.le_succ k) (by omega),
      h.front]
    omega
  · rcases arrived_recorded hr with hr | rfl
    · have := h.arrived r hr
      omega
    · dsimp only
      omega
  · rcases of_mem_accepted hr with hr | rfl
    · have := h.accepted r hr
      omega
    · dsimp only
      omega
  · show _ ∈ ((L.setSender v).recorded ⟨0, 65536 + k, m.data⟩ .granted).accepted
    rw [haccepted]
    exact List.mem_append_right _ (List.mem_singleton.mpr rfl)

/-- A run over the channel of which nothing else is assumed. -/
def Reached (L : Link) : Prop :=
  ∃ ops, Guarded LinkOp.step (fun _ L op => L.Near op) (start ready ready) ops L

theorem Reached.step (h : L.Reached) {op : LinkOp} (hnear : L.Near op) (hs : op.step L = some L') :
    L'.Reached := by
  obtain ⟨ops, h⟩ := h
  exact ⟨_, h.concat hnear hs⟩

theorem lockstep_run (k : ℕ) : ∃ L : Link, L.Reached ∧ L.Lockstep k := by
  induction k with
  | zero => exact ⟨_, ⟨[], .nil⟩, lockstep_start⟩
  | succ k ih =>
    obtain ⟨L, hL, h⟩ := ih
    obtain ⟨L₁, L₂, hsend, hnear, hpacket, h₂⟩ := h.round
    have hL₁ : L₁.Reached :=
      hL.step (show L.Near (.send (some 0) oneByte 13 .granted) from trivial) hsend
    exact ⟨L₂, hL₁.step hnear hpacket, h₂⟩

/-! ### The second part without the first -/

/-- After a full turn a packet goes out in two parts. -/
theorem Lockstep.send_last (h : L.Lockstep 65536) :
    ∃ (v : UserInfo) (first last : Msg),
      LinkOp.step (.send (some 0) longPacket longPacket.data.length .granted) L =
        some (L.setSender v) ∧ Second last 65536 ∧
      (L.setSender v).packets = L.packets ++ [⟨0, 131072, first.data⟩, ⟨0, 131073, last.data⟩] ∧
      v.Stands (L.setSender v).sent ∧ (L.setSender v).sent 0 = 131074 ∧
      (v.txWindow 0).Holds 131074 131072 ∧ schdGetFlowValid v 0 = true := by
  have hstands : (L.sender.facing .granted).Stands L.sent := h.stands.congr rfl
  have hlo : 1480 ≤ longPacket.data.length := length_longPacket.ge
  have hhi : longPacket.data.length < 65536 := length_longPacket.trans_lt (by decide)
  have hvalid := valid_doSendNewTransData (L.sender.facing .granted) (some 0) longPacket
    longPacket.data.length 0
  generalize hv : ((L.sender.facing .granted).doSendNewTransData (some 0) longPacket
    longPacket.data.length).2 = v at hvalid
  obtain ⟨first, last, as, hout, hwire, hpart, hpart', hvs, hheld⟩ :=
    send_split hstands (by decide : 0 < 3) hlo hhi rfl rfl rfl rfl hv
  have hcount := L.sent_le_ahead (show 2 ≤ 2 from le_rfl)
  have hsent : (L.setSender v).sent = L.ahead 2 := setSender_sent h.stands hcount hvs
  have hdsn₀ : (L.sender.facing .granted).txDataSn % 65536 = 65536 % 65536 := h.dsn
  have hpos : L.sent 0 = 131072 := h.sent
  have hfirst := hpart.inTransit (Nat.le_add_right _ 2) (by omega) (L.ahead_zero 2)
  have hlast := hpart'.inTransit (Nat.le_succ _) (by omega) (L.ahead_zero 2)
  rw [hpos] at hheld hfirst hlast
  refine ⟨v, first, last, congrArg (fun v => some (L.setSender v)) hv, ?_, ?_, ?_, ?_, hheld,
    hvalid.trans h.flow⟩
  · refine ⟨hpart'.flag, hpart'.fragment, hpart'.stream, hpart'.dsn.trans hdsn₀, ?_,
      hpart'.not_isAck ?_⟩
    · rw [hpart'.ssn, hpos]
    · rw [← List.length_pos_iff, List.length_drop, List.length_drop, length_longPacket]
      decide
  · rw [setSender_packets h.stands hcount hvs hout, onWire, hwire]
    exact congrArg₂ (fun p q => L.packets ++ [p, q]) hfirst hlast
  · rw [hsent]
    exact hvs
  · rw [hsent, ahead_zero, hpos]

/-- The first packet of all stays the first. -/
theorem Lockstep.first (h : L.Lockstep k) (hk : 0 < k) {R : RxRecord} {l : List (ℕ × ℕ)}
    (hR : R.accepted = L.record.accepted ++ l) : ∀ y ∈ R.firstAccepted 0, y < 65536 + k := by
  intro y hy
  obtain ⟨y₀, hy₀⟩ := h.opened hk
  have hsome : (L.record.accepted.find? (·.1 = 0)).isSome :=
    List.find?_isSome.mpr ⟨_, hy₀, decide_eq_true rfl⟩
  obtain ⟨r, hr⟩ := Option.isSome_iff_exists.mp hsome
  rw [RxRecord.firstAccepted, hR, List.find?_append, hr, Option.some_or, Option.map_some,
    Option.mem_some_iff] at hy
  rw [← hy]
  exact h.accepted r (List.mem_of_find?_eq_some hr)

/-- The receiver has passed position 131072 without a reason. -/
structure Bypassed (R : RxRecord) : Prop where
  arrived : ∀ r ∈ R.arrived, r.1 < 131072 ∨ r.2.header.fragment ≠ 0
  accepted : ∀ r ∈ R.accepted, r.2 < 131072 ∨ r.2 = 131073
  first : ∀ y ∈ R.firstAccepted 0, y < 131072

theorem Bypassed.not_covered {R : RxRecord} {out : List Action} (h : Bypassed R)
    (hout : ∀ a ∈ out, HandsWhole a) : ¬ R.Covered out 0 131072 := by
  rintro (hacc | ⟨y, hy, hlt⟩ | ⟨p, hp, m, hm, -, a, ha, hbuf⟩ | ⟨q, hq, hle⟩)
  · have hpos : 131072 < 131072 ∨ 131072 = 131073 := h.accepted _ hacc
    omega
  · have hy := h.first y hy
    omega
  · rcases h.arrived _ hm with hlt | hne
    · exact absurd hlt hp.not_gt
    · exact hne (hout a ha m hbuf)
  · have hpos : q < 131072 ∨ q = 131073 := h.accepted _ hq
    omega

/-- Both ends when the second part of the packet has arrived. -/
structure Skipped (L : Link) : Prop where
  stands : L.sender.Stands L.sent
  sent : L.sent 0 = 131074
  held : (L.sender.txWindow 0).Holds 131074 131072
  flow : schdGetFlowValid L.sender 0 = true
  reports : L.reports = []
  rests : RxSubWin.Rests (L.receiver.rxSubWin 0) 65538 65538
  front : L.front 0 = 131074
  whole : ∀ a ∈ L.receiver.out, HandsWhole a
  silent : L.receiver.Silent
  rxFlow : schdGetFlowValid L.receiver 0 = true
  passed : Bypassed L.record

/-- The first part is lost, the second arrives. -/
theorem Lockstep.skip (h : L.Lockstep 65536) (hL : L.Reached) :
    ∃ L' : Link, L'.Reached ∧ L'.Skipped := by
  obtain ⟨v, first, last, hsend, hm, hpackets, hvs, hsent, hheld, hvalid⟩ := h.send_last
  have hL₁ : (L.setSender v).Reached :=
    hL.step (show L.Near (.send (some 0) longPacket longPacket.data.length .granted) from trivial) hsend
  have hget : (L.setSender v).packets[65537]? = some ⟨0, 131073, last.data⟩ := by
    rw [hpackets, List.getElem?_append_right (by rw [h.packets]; decide), h.packets]
    rfl
  have hsub := h.receiver.arrived.sub
  have hnext : (L.setSender v).next 0 = 131072 := by
    have hspan : (L.receiver.rxSubWin 0).span = 65536 - 65536 := hsub.toSpans.span_eq
    show L.front 0 + (L.receiver.rxSubWin 0).span = _
    rw [hspan, h.front]
  have hfront : (L.setSender v).front 0 = 131072 := h.front
  obtain ⟨v', hrecv, hunsplit, hsilent, -, hflow, hrests⟩ :=
    (h.receiver.facing .granted).recv_last (hm.moved L.record.arrived.length)
  have hnear : (L.setSender v).Near (.packet 65537 .granted) :=
    near_packet hget (by dsimp only; omega)
  refine ⟨_, hL₁.step hnear (step_packet hget hrecv), ?_⟩
  refine ⟨hvs, hsent, hheld, hvalid, h.reports, hrests, ?_, hunsplit.log, hsilent, hflow, ?_, ?_, ?_⟩
  · show L.front 0 + distanceSN (L.receiver.rxSubWin 0).beginNode.ssn
      (v'.rxSubWin 0).beginNode.ssn = _
    rw [hsub.begin_ssn, hrests.begin_ssn, h.front]
    decide
  · intro r hr
    rcases arrived_recorded hr with hr | rfl
    · exact .inl (h.arrived r hr)
    · right
      have hfragment : last.header.fragment = 2 := hm.fragment
      show last.header.fragment ≠ 0
      omega
  · intro r hr
    rcases of_mem_accepted hr with hr | rfl
    · exact .inl (h.accepted r hr)
    · exact .inr rfl
  · exact h.first (Nat.succ_pos _) rfl

end Link

/-! ### The report -/

/-- The header of a message with nothing but an acknowledgement. -/
def ackHeader (f ack : ℕ) : MPDHeader :=
  { flag := 0x55, fragment := 0, stream := f, length := 3, dsn := 0, ssn := 0, ack := ack }

namespace UserInfo

variable {u : UserInfo} {f b addr : ℕ}

/-- An empty sub window with something new to say. -/
theorem subWinCreateSack_empty (h : RxSubWin.Rests (u.rxSubWin f) b b)
    (hnew : b % 65536 ≠ (u.rxSubWin f).sentAck) (ha : u.allocs 0 = some addr)
    (hok : u.sends 0 = true) : (u.subWinCreateSack f).out = u.out ++
      [.send (getDeviceId f) ⟨addr, (ackHeader f (b % 65536)).encode u.uid⟩ 12 true true] := by
  have hquiet : ¬ u.sackQuiet f := fun hq => hnew (h.begin_ssn.symm.trans hq.2)
  have hdist : SerialRing.dist 1024 (u.rxSubWin f).rxBegin (u.rxSubWin f).rxNext = 0 := by
    rw [h.begin_eq, h.next_eq, SerialRing.dist_self]
  have hack : ((u.rxSubWin f).win (u.rxSubWin f).rxBegin).ssn = b % 65536 := h.begin_ssn
  rw [subWinCreateSack]
  dsimp only
  rw [if_neg hquiet, createSackMsgs]
  dsimp only
  rw [hdist, createSackFrom, hack]
  simp [subWinSendSackPacketMsg, msgMemCreat, ha, onSendMPDataComplete, hok, ackHeader,
    UserInfo.setRxSubWin, UserInfo.setTxWindow, UserInfo.emit]

/-- The sub window of subflow 0 is the first to be reported. -/
theorem sackPeriodSend_first (ht : u.time = u.sendSackTime) (hv : schdGetFlowValid u 0 = true) :
    ∃ as, u.sackPeriodSend.out = (u.subWinCreateSack 0).out ++ as := by
  have hmore : ∀ (v : UserInfo) (i : ℕ),
      ∃ as, (if schdGetFlowValid v i then v.subWinCreateSack i else v).out = v.out ++ as := by
    intro v i
    split
    · obtain ⟨as, has, -⟩ := ((AckStep.writer v).subWinCreateSack (f := i) trivial (.refl v)).out
      exact ⟨as, has⟩
    · exact ⟨[], (List.append_nil _).symm⟩
  rw [sackPeriodSend, if_pos ht]
  simp only [List.foldl_cons, List.foldl_nil, if_pos hv]
  obtain ⟨as, has⟩ := hmore (u.subWinCreateSack 0) 1
  obtain ⟨bs, hbs⟩ := hmore (if schdGetFlowValid (u.subWinCreateSack 0) 1 then
    (u.subWinCreateSack 0).subWinCreateSack 1 else u.subWinCreateSack 0) 2
  exact ⟨as ++ bs, by rw [hbs, has, List.append_assoc]⟩

end UserInfo

namespace Link

variable {L L' : Link} {k : ℕ}

/-- A report that acknowledges both parts is on its way. -/
structure Promised (L : Link) (r : InTransit) : Prop where
  stands : L.sender.Stands L.sent
  sent : L.sent 0 = 131074
  held : (L.sender.txWindow 0).Holds 131074 131072
  flow : schdGetFlowValid L.sender 0 = true
  report : L.reports[0]? = some r
  label : r.flow = 0 ∧ r.pos = 131074
  header : wireHeader r.data = ⟨0x55, 0, 0, 3, 0, 0, 2⟩
  length : r.data.length = 12
  whole : ∀ a ∈ L.receiver.out, HandsWhole a
  passed : Bypassed L.record

theorem wireHeader_ackHeader (ack uid : ℕ) (hack : ack < 65536) :
    wireHeader ((ackHeader 0 ack).encode uid) = ⟨0x55, 0, 0, 3, 0, 0, ack⟩ := by
  have hheader := header_encode (ackHeader 0 ack) uid 0 []
  rw [List.append_nil] at hheader
  rw [wireHeader, hheader]
  simp only [ackHeader, Nat.mod_eq_of_lt hack]

/-- The receiver reports what it has passed. -/
theorem Skipped.promise (h : L.Skipped) (hL : L.Reached) :
    ∃ (L' : Link) (r : InTransit), L'.Reached ∧ L'.Promised r := by
  set L₁ : Link := L.setReceiver { L.receiver with time := u32 (L.receiver.time + 1) } with hL₁
  have hreached : L₁.Reached := hL.step (show L.Near .rxTick from trivial) rfl
  set u := L₁.receiver.facing .granted with hu
  have htime : u.time = u.sendSackTime := by
    show u32 (L.receiver.time + 1) = L.receiver.sendSackTime
    rw [h.silent.time, h.silent.sendSackTime]
    rfl
  have hnew : 65538 % 65536 ≠ (u.rxSubWin 0).sentAck := by
    show 65538 % 65536 ≠ (L.receiver.rxSubWin 0).sentAck
    rw [h.silent.sentAck]
    decide
  have hfront : L₁.front 0 = 131074 := by
    show L.front 0 + distanceSN _ _ = _
    rw [h.front, distanceSN, SerialRing.dist_self]
  have hvalid : schdGetFlowValid u 0 = true := h.rxFlow
  obtain ⟨as, has⟩ := sackPeriodSend_first htime hvalid
  have hrests : RxSubWin.Rests (u.rxSubWin 0) 65538 65538 := h.rests
  rw [subWinCreateSack_empty hrests hnew rfl rfl] at has
  have hheader := wireHeader_ackHeader 2 u.uid (by decide)
  have hlength : ((ackHeader 0 2).encode u.uid).length = 12 := MPDHeader.length_encode ..
  refine ⟨L₁.askForAcks .granted, ⟨0, 131074, (ackHeader 0 2).encode u.uid⟩,
    hreached.step (show L₁.Near (.sackPeriodSend .granted) from trivial) rfl, h.stands, h.sent, h.held,
    h.flow, ?_, ⟨rfl, rfl⟩, hheader, hlength, ?_, h.passed⟩
  · have hwire : (Action.send (getDeviceId 0) ⟨0, (ackHeader 0 2).encode u.uid⟩ 12 true true).wire =
        some ((ackHeader 0 2).encode u.uid) := by
      show some ((⟨0, (ackHeader 0 2).encode u.uid⟩ : Msg).slice 0 12) = _
      rw [← hlength]
      exact congrArg some (slice_all _)
    show (L.reports ++ onWire (fun h => L₁.front h.stream)
      (u.sackPeriodSend.out.drop u.out.length))[0]? = _
    rw [h.reports, List.nil_append, has, List.append_assoc, List.drop_left, onWire,
      List.singleton_append, List.filterMap_cons_some hwire, List.map_cons, List.getElem?_cons_zero,
      hheader, hfront]
  · have hside := txSide_sackPeriodSend (F := fun _ => True) (B := fun _ => True) (u := u)
      fun _ _ => trivial
    obtain ⟨bs, hbs, hall⟩ := hside.out
    show ∀ a ∈ u.sackPeriodSend.out, HandsWhole a
    rw [hbs]
    intro a ha
    rcases List.mem_append.mp ha with ha | ha
    · exact h.whole a ha
    · exact (logRules_handsWhole _ _).other a (hall a ha)

/-- The report arrives, and the first part is given up. -/
theorem Promised.lost {r : InTransit} (h : L.Promised r) (hL : L.Reached) :
    ∃ L' : Link, L'.Reached ∧ (0, 131072) ∈ L'.released ∧ ¬ L'.Covered 0 131072 := by
  have hnear : L.Near (.report 0 7 .granted) := by
    intro r' hr'
    rw [h.report] at hr'
    cases hr'
    rw [h.label.1, h.label.2, h.sent]
    exact ⟨by decide, by decide⟩
  have hstands : (L.sender.facing .granted).Stands L.sent := h.stands.congr rfl
  set m : Msg := ⟨7, r.data⟩ with hm
  have hheader : m.header = ⟨0x55, 0, 0, 3, 0, 0, 2⟩ := h.header
  have hhead : m.node.mpdHeadLen = 12 := congrArg (fun h : MPDHeader => h.length * 4) hheader
  have hvalid : schdGetFlowValid (L.sender.facing .granted) m.header.stream = true := by
    rw [hheader]
    exact h.flow
  obtain ⟨v, hv, hgone⟩ := hstands.acknowledged (m := m) (by rw [hheader]) hvalid
    (hhead.trans h.length.symm) (by rw [Msg.HasSack, hhead]; decide) (by rw [hheader, h.sent])
  have hstream : m.header.stream = 0 := by rw [hheader]
  rw [hstream, h.sent] at hgone
  have hreport : LinkOp.step (.report 0 7 .granted) L =
      some { L.setSender v with released := L.released ++ L.givenUp v } := by
    show (L.reports[0]?).bind _ = _
    rw [h.report]
    exact congrArg (Option.map _) hv
  refine ⟨_, hL.step hnear hreport, ?_, h.passed.not_covered h.whole⟩
  refine List.mem_append_right _ (List.mem_flatMap.mpr ⟨0, by decide, ?_⟩)
  refine List.mem_map.mpr ⟨131072, List.mem_filter.mpr ⟨?_, ?_⟩, rfl⟩
  · rw [h.sent, List.mem_range']
    exact ⟨1022, by decide, by decide⟩
  · rw [h.sent]
    exact decide_eq_true ⟨h.held, hgone 131072⟩

end Link

/-- **A packet is acknowledged away.** On a channel on which everything that arrives is less than half
a turn off, the sender gives up a packet it is not entitled to. -/
theorem link_turn : ∃ (ops : List LinkOp) (L : Link),
    Guarded LinkOp.step (fun _ L op => L.Near op) (Link.start ready ready) ops L ∧
      (0, 131072) ∈ L.released ∧ ¬ L.Covered 0 131072 := by
  obtain ⟨L₀, hL₀, hstep⟩ := Link.lockstep_run 65536
  obtain ⟨L₁, hL₁, hskip⟩ := hstep.skip hL₀
  obtain ⟨L₂, r, hL₂, hpromise⟩ := hskip.promise hL₁
  obtain ⟨L, ⟨ops, hops⟩, hreleased, hnot⟩ := hpromise.lost hL₂
  exact ⟨ops, L, hops, hreleased, hnot⟩

end Mpd

end AndroidVendor
