import AndroidVendor.Mpd.Delivery
import AndroidVendor.Mpd.RxFrame

/-!
# Which packets are stored

A packet that is no duplicate and lies in the windows, or not far ahead, is put into the slot of its
DSN and its SSN into the sub window, whatever was lost before it. The one exception is the filter at
the start of `MPD_DoParseMPData`: it takes a sub window that is empty at slot 0, SSN 0 for one that
was just cleared, and refuses all but the first packets. After every 65536 packets of a subflow that
all arrived the window is in that state again.

## Main definitions

* `UserInfo.storePacket` — `MPD_DoParseMPData` up to where the packet is in both windows
* `Acceptable`, `Stores` — a packet that should be stored, and one that is

## Main results

* `stores_run` — in every state a session reaches, which acceptable packets are stored
* `stores_turn` — one that is not
-/

namespace AndroidVendor

namespace Mpd

open Loop Machine RxSubWin

/-! ### The sub windows meanwhile -/

namespace RxSubWin

variable {w w' w'' : RxSubWin} {b n : ℕ}

/-- `RxBegin` moves on inside the window. -/
def Drifts (w w' : RxSubWin) : Prop :=
  ∀ b n, Rests w b n → w.dataWinSSN < 65536 →
    w'.dataWinSSN < 65536 ∧ ∃ b', b ≤ b' ∧ b' ≤ n ∧ Rests w' b' n

theorem Drifts.refl (w : RxSubWin) : Drifts w w := fun b _ h hd => ⟨hd, b, le_rfl, h.le, h⟩

theorem Drifts.trans (h : Drifts w w') (h' : Drifts w' w'') : Drifts w w'' := by
  intro b n hw hd
  obtain ⟨hd', b', hb, -, hw'⟩ := h b n hw hd
  obtain ⟨hd'', b'', hb', hn', hw''⟩ := h' b' n hw' hd'
  exact ⟨hd'', b'', hb.trans hb', hn', hw''⟩

theorem drifts_posted (w : RxSubWin) (ssn : ℕ) : Drifts w { w with dataWinSSN := ssnPlus ssn } := by
  intro b n h _
  refine ⟨Nat.mod_lt _ (by decide), b, le_rfl, h.le, ?_⟩
  exact ⟨⟨h.begin_eq, h.next_eq, h.le, h.size, h.num, h.plain⟩, h.next_un, h.begin_un⟩

theorem drifts_followDataWin (hf : w.followDataWin = some w') : Drifts w w' := by
  intro b n h hd
  obtain ⟨b', hb, hn, heq, hrests, -⟩ := followDataWin_spec h hd
  obtain rfl := Option.some.inj (heq.symm.trans hf)
  exact ⟨hd, b', hb, hn, hrests⟩

end RxSubWin

namespace UserInfo

variable {u v : UserInfo}

theorem drifts_setRxSubWin {j : ℕ} {w : RxSubWin} (h : Drifts (u.rxSubWin j) w) (i : ℕ) :
    Drifts (u.rxSubWin i) ((u.setRxSubWin j w).rxSubWin i) := by
  simp only [setRxSubWin, Function.update_apply]
  split
  · next heq => exact heq ▸ h
  · exact .refl _

/-- The data window lets the sub windows drift. -/
theorem drifts_frame (u : UserInfo) :
    RxFrame (fun _ => True) (fun v => ∀ i, Drifts (u.rxSubWin i) (v.rxSubWin i)) where
  congr s v h hv i := by
    rw [hv.rxSubWin]
    exact h i
  flow _ _ _ _ := trivial
  posted v j ssn h _ i := (h i).trans (drifts_setRxSubWin (drifts_posted _ ssn) i)
  drive v j w h _ hw i := (h i).trans (drifts_setRxSubWin (drifts_followDataWin hw) i)

end UserInfo

/-! ### The slot of the packet -/

/-- The packet is in the slot. -/
structure RxDataWinNode.Has (n : RxDataWinNode) (node : MPDNodeInfo) : Prop where
  dsn : n.dsn = node.dsn
  status : n.status ≠ .unReceived
  ptr : n.msgPtr node.fragIndex = some node.msgPtr
  whole : node.fragment = 0 → n.status = .receiveComplete

theorem RxDataWinNode.has_put (n : RxDataWinNode) (node : MPDNodeInfo) (time : ℕ) :
    (n.put node time).Has node where
  dsn := rfl
  status := by
    have hstatus : (n.put node time).status = .receiveComplete ∨
        (n.put node time).status = .received := ite_eq_or_eq ..
    rcases hstatus with h | h <;> simp [h]
  ptr := Function.update_self ..
  whole h := if_pos (.inl h)

namespace UserInfo

variable {u v w : UserInfo} {T : Tape} {node : MPDNodeInfo} {m : Msg} {p : ℕ}

/-- A packet is stored at `RxNext`. -/
theorem push_has (hp : u.rxDataWin.rxNext = p % 4096)
    (h : (u.dataWinPutInNode u.rxDataWin.rxNext node).dataWinRxNextMove = some v) :
    (v.rxDataWin.win (p % 4096)).Has node := by
  have hnext : (u.dataWinPutInNode u.rxDataWin.rxNext node).rxDataWin.rxNext = p % 4096 := by
    rw [dataWinPutInNode]
    dsimp only
    split <;> exact hp
  rw [dataWinRxNextMove_win h, hp, dataWinPutInNode_win]
  · exact RxDataWinNode.has_put ..
  · rw [hnext, dataWinPlus_mod]
    exact SerialRing.cell_ne (by omega) (by omega) (by omega)

/-- **In a window that does not look clear** a packet that is no duplicate is stored, at a position
of the window or at most 1999 ahead of it. -/
theorem dataWinPlace_stores (h : AtRest u T) (hp : p % 65536 = node.dsn) (hb : T.rxBegin ≤ p)
    (hn : p ≤ T.rxNext + 1999) (hdup : p < T.rxNext → ¬ (T.cell p).Duplicate node) :
    ∃ v S, u.dataWinPlace node = some (v, true) ∧ Refines v S ∧ (S.cell S.rxNext).Blank ∧
      T.rxBegin ≤ S.rxBegin ∧ S.rxNext = max T.rxNext (p + 1) ∧
      (v.rxDataWin.win (p % 4096)).Has node := by
  have hsize := h.size
  have hle := h.le
  have hback : ¬ u.rxDataWin.Behind node.dsn := by
    rw [RxDataWin.Behind, h.begin_dsn, ← hp, distanceSN_of_le hb (by omega)]
    rcases Nat.eq_or_lt_of_le hb with rfl | hlt
    · rw [distanceSN_of_le le_rfl (by omega)]
      omega
    · rw [distanceSN_of_lt hlt (by omega)]
      omega
  rw [dataWinPlace]
  dsimp only
  rw [if_neg hback]
  rcases Nat.lt_or_ge p T.rxNext with hlt | hge
  · have hbeyond : ¬ u.rxDataWin.Beyond node.dsn := by
      rw [RxDataWin.Beyond, h.next_dsn, ← hp, distanceSN_of_lt hlt (by omega),
        distanceSN_of_le hlt.le (by omega)]
      omega
    have hidx : node.dsn % 4096 = p % 4096 := by omega
    rw [if_neg hbeyond, hidx, h.cell p hb hlt, if_neg (hdup hlt)]
    have hput := (h.toRefines.putInNode hb hlt.le hp).setRxDsnErr 0
    refine ⟨_, _, rfl, hput, ?_, le_rfl, ?_, ?_⟩
    · rw [Tape.put_rxNext, Tape.put_cell, if_neg (by omega)]
      exact h.next_blank
    · rw [Tape.put_rxNext]
      omega
    · show ((u.dataWinPutInNode (p % 4096) node).rxDataWin.win (p % 4096)).Has node
      rw [dataWinPutInNode_win]
      exact RxDataWinNode.has_put ..
  · have hbeyond : u.rxDataWin.Beyond node.dsn := by
      rw [RxDataWin.Beyond, h.next_dsn, ← hp, distanceSN_of_le hge (by omega)]
      rcases Nat.eq_or_lt_of_le hge with rfl | hlt
      · rw [distanceSN_of_le le_rfl (by omega)]
      · rw [distanceSN_of_lt hlt (by omega)]
        omega
    have hnear : ¬ 1999 < distanceSN u.rxDataWin.nextNode.dsn node.dsn := by
      rw [h.next_dsn, ← hp, distanceSN_of_le hge (by omega)]
      omega
    rw [if_pos hbeyond, if_neg hnear]
    obtain ⟨s, S, hext, hs, hwiden, hnext⟩ := dataWinExtend_spec (A := fun _ => True) h
      (show p - T.rxNext ≤ 1999 by omega) (by rw [Nat.add_sub_cancel' hge, hp])
    rw [Nat.add_sub_cancel' hge] at hnext
    obtain ⟨v, S', hpush, hv, hwiden', hnext', hblank, -⟩ :=
      pushNode_spec (A := fun _ => True) hs.toRefines
      (fun _ => hs.head_idle) (show (S.rxNext) % 65536 = node.dsn by rw [hnext, hp])
    have hhas : (v.rxDataWin.win (p % 4096)).Has node :=
      push_has (by rw [hs.next_eq, hnext]) hpush
    refine ⟨{ v with rxDsnErr := 0 }, S', ?_, hv.setRxDsnErr 0, hblank,
      hwiden.begin_le.trans hwiden'.begin_le, by omega, hhas⟩
    rw [hext, Option.bind_some, hpush, Option.map_some]

/-- `MPD_DataWinAddNode`, whatever the window looks like. -/
theorem dataWinAddNode_stores (h : AtRest u T) (hp : p % 65536 = node.dsn) (hb : T.rxBegin ≤ p)
    (hn : p ≤ T.rxNext + 1999) (hdup : p < T.rxNext → ¬ (T.cell p).Duplicate node) :
    ∃ v S, u.dataWinAddNode node = some (v, true) ∧ Refines v S ∧ (S.cell S.rxNext).Blank ∧
      T.rxBegin ≤ S.rxBegin ∧ S.rxNext = max T.rxNext (p + 1) ∧
      (v.rxDataWin.win (node.dsn % 4096)).Has node := by
  have hle := h.le
  have hidx : node.dsn % 4096 = p % 4096 := by omega
  obtain ⟨v, S, hplace, hv, hblank, hbegin, hnext, hhas⟩ : ∃ v S,
      (if u.rxDataWin.looksClear then u.dataWinAnchor node else u).dataWinPlace node =
        some (v, true) ∧ Refines v S ∧ (S.cell S.rxNext).Blank ∧
      T.rxBegin ≤ S.rxBegin ∧ S.rxNext = max T.rxNext (p + 1) ∧
        (v.rxDataWin.win (p % 4096)).Has node := by
    by_cases hc : u.rxDataWin.looksClear
    · obtain ⟨hempty, -⟩ := h.looksClear_iff.mp hc
      obtain ⟨v, hplace, hv⟩ := dataWinPlace_anchor h.toRefines node hp
      rw [if_pos hc]
      refine ⟨v, _, hplace, hv, ?_, hb, ?_, ?_⟩
      · rw [Tape.grow_rxNext, Tape.grow_cell_next]
        exact .wiped _
      · show p + 1 = max T.rxNext (p + 1)
        omega
      · have hcell := (hv.cell p le_rfl (Nat.lt_succ_self p)).trans (Tape.grow_cell_of_le
          ((T.anchor p node (u.rxDataWin.win (node.dsn % 4096))).put p node u.time) (le_refl p))
        rw [hcell, Tape.put_cell, if_pos rfl]
        exact RxDataWinNode.has_put ..
    · rw [if_neg hc]
      exact dataWinPlace_stores h hp hb hn hdup
  rw [dataWinAddNode, hplace, Option.map_some, hidx]
  by_cases herr : 100 < v.rxDsnErr
  · refine ⟨_, S.emit [.exception 0 (-4)], rfl, ?_, hblank, hbegin, hnext, ?_⟩
    · rw [reportDsnErr, if_pos herr]
      exact (hv.emit _).setRxDsnErr 0
    · rw [reportDsnErr, if_pos herr]
      exact hhas
  · refine ⟨_, S, rfl, ?_, hblank, hbegin, hnext, ?_⟩
    · rw [reportDsnErr, if_neg herr]
      exact hv
    · rw [reportDsnErr, if_neg herr]
      exact hhas

end UserInfo

/-! ### The packet in both windows -/

/-- `ssn` was received and is on record: it is marked in the window, or `RxBegin` has passed it. -/
def RxSubWin.Recorded (w : RxSubWin) (ssn : ℕ) : Prop :=
  w.HasReceived ssn ∨ (0 < distanceSN ssn w.beginNode.ssn ∧ distanceSN ssn w.beginNode.ssn ≤ 1024)

/-- `dsn` lies in the data window. -/
def RxDataWin.InWindow (w : RxDataWin) (dsn : ℕ) : Prop :=
  distanceSN w.beginNode.dsn dsn < distanceSN w.beginNode.dsn w.nextNode.dsn

instance (w : RxDataWin) (dsn : ℕ) : Decidable (w.InWindow dsn) := inferInstanceAs (Decidable (_ < _))

namespace UserInfo

/-- `MPD_DoParseMPData` up to its last call of `MPD_DataWinRxBeginMove`; the answer says whether the
packet was taken into the windows. -/
def storePacket (u : UserInfo) (m : Msg) : Option (UserInfo × Bool) :=
  let u := u.emit (m.headReads [0, 1])
  let u := if m.header.flag = 0x55 then u.emit [.access (.flow m.header.stream)] else u
  if u.Rejects m then some (u.emit [.free m], false)
  else
    let u := { u.emit (m.headReads [2, 3, 4, 5, 6, 7]) with
      lastPackageTime := u32 (u.time + 6000) }
    if m.IsAck then (u.parseAck m).map (·, false)
    else
      (u.processACK m.header.stream m.header.ack 1).bind fun u =>
        if u.TooLate m then some (u.emit [.free m], false)
        else
          (u.dataWinAddNode m.node).map fun r =>
            if r.2 then
              (r.1.setRxSubWin m.header.stream
                ((r.1.rxSubWin m.header.stream).addNode m.header.ssn), true)
            else (r.1, false)

/-- A well-formed data packet of a subflow that is there, no duplicate of one that is waiting, at or
ahead of its sub window by less than half a turn, and in the data window or not far ahead of it. -/
structure Acceptable (u : UserInfo) (m : Msg) : Prop where
  flag : m.header.flag = 0x55
  flow : schdGetFlowValid u m.header.stream = true
  fragment : m.header.fragment < 3
  data : ¬ m.IsAck
  fresh : u.rxDataWin.InWindow m.header.dsn →
    ¬ (u.rxDataWin.win (m.header.dsn % 4096)).Duplicate m.node
  ssn : distanceSN (u.rxSubWin m.header.stream).beginNode.ssn m.header.ssn < 32768
  dsn : u.rxDataWin.InWindow m.header.dsn ∨
    distanceSN u.rxDataWin.nextNode.dsn m.header.dsn ≤ 1999

/-- `MPD_DoParseMPData` takes the packet: on the way it is in the slot of its DSN, and its SSN is on
record. -/
def Stores (u : UserInfo) (m : Msg) : Prop :=
  ∃ v, u.storePacket m = some (v, true) ∧
    (v.rxDataWin.win (m.header.dsn % 4096)).Has m.node ∧
    (v.rxSubWin m.header.stream).Recorded m.header.ssn

variable {u v : UserInfo} {T : Tape} {m : Msg} {p : ℕ}

/-- The rest of `MPD_DoParseMPData`. -/
theorem doParseMPData_eq (u : UserInfo) (m : Msg) :
    u.doParseMPData m = (u.storePacket m).bind fun r =>
      if r.2 then r.1.dataWinRxBeginMove false else some r.1 := by
  rw [doParseMPData, storePacket]
  dsimp only
  generalize (if m.header.flag = 0x55 then
    (u.emit (m.headReads [0, 1])).emit [.access (.flow m.header.stream)]
    else u.emit (m.headReads [0, 1])) = u₁
  split
  · rfl
  split
  · cases UserInfo.parseAck _ m <;> rfl
  · rw [Option.bind_assoc]
    refine congrArg _ (funext fun s => ?_)
    rw [parseData]
    split
    · rfl
    · cases s.dataWinAddNode m.node with
      | none => rfl
      | some r =>
        obtain ⟨r, taken⟩ := r
        cases taken <;> rfl

/-! ### Where it is stored -/

/-- Position `t` is added to a sub window whose `RxBegin` was at `b₀` a moment ago. -/
theorem recorded_addNode {w : RxSubWin} {b₀ b n t : ℕ} (hw : Rests w b n) (hb : b₀ ≤ b)
    (hn : n < b₀ + 1024) (ht : b₀ ≤ t) (ht' : t < b₀ + 32768) :
    (w.addNode (t % 65536)).Recorded (t % 65536) := by
  have hle := hw.le
  have hbehind : ∀ {w' : RxSubWin} {b' n' : ℕ}, Rests w' b' n' → t < b' → b' ≤ t + 1024 →
      w'.Recorded (t % 65536) := by
    intro w' b' n' hw' hlt hnear
    refine .inr ?_
    rw [hw'.begin_ssn, distanceSN_of_le hlt.le (by omega)]
    omega
  by_cases hc : w.looksClear
  · exact hbehind (addNode_of_looksClear w hc t).1 (Nat.lt_succ_self t) (by omega)
  rcases Nat.lt_or_ge t b with hlt | hge
  · -- `RxBegin` has passed it meanwhile
    obtain ⟨b', n', hw', harr, -⟩ := addNode_spec hw hc (t := t + 65536) (by omega) (by omega)
    rw [Nat.add_mod_right] at hw'
    have hnext := harr.next_eq
    rw [if_neg (by omega)] at hnext
    have hle' := hw'.le
    exact hbehind hw' (hlt.trans_le harr.begin_le) (by omega)
  · obtain ⟨b', n', hw', harr, -⟩ := addNode_spec hw hc hge (by omega)
    have hnext := harr.next_eq
    rw [if_pos (by omega)] at hnext
    have hle' := hw'.le
    rcases Nat.lt_or_ge t b' with hlt | hge'
    · exact hbehind hw' hlt (by omega)
    · have hmark := (harr.marked t hge' (by omega)).mpr (.inr ⟨rfl, by omega⟩)
      exact .inl ((hw'.hasReceived_iff (Nat.mod_lt _ (by decide))).mpr
        ⟨t, hge', by omega, rfl, hmark⟩)

theorem AtRest.inWindow_iff (h : AtRest u T) {dsn : ℕ} (hd : dsn < 65536) :
    u.rxDataWin.InWindow dsn ↔ ∃ p, T.rxBegin ≤ p ∧ p < T.rxNext ∧ p % 65536 = dsn := by
  have hsize := h.size
  have hle := h.le
  obtain ⟨p, hb, hp, rfl⟩ := SerialRing.exists_position hd T.rxBegin
  rw [RxDataWin.InWindow, h.begin_dsn, h.next_dsn, distanceSN_of_le hb hp,
    distanceSN_of_le hle (by omega)]
  constructor
  · intro hlt
    exact ⟨p, hb, by omega, rfl⟩
  · rintro ⟨q, hq, hqn, hqp⟩
    obtain rfl := SerialRing.cell_inj hqp (by omega) (by omega)
    omega

/-- The position an acceptable packet is stored at. -/
theorem Acceptable.position (hm : u.Acceptable m) (h : AtRest u T) :
    ∃ p, p % 65536 = m.header.dsn ∧ T.rxBegin ≤ p ∧ p ≤ T.rxNext + 1999 ∧
      (p < T.rxNext → ¬ (T.cell p).Duplicate m.node) := by
  have hd : m.header.dsn < 65536 := m.word_lt 2
  have hsize := h.size
  have hle := h.le
  rcases hm.dsn with hin | hnear
  · obtain ⟨p, hb, hn, hp⟩ := (h.inWindow_iff hd).mp hin
    have hfresh := hm.fresh hin
    rw [show m.header.dsn % 4096 = p % 4096 by omega, h.cell p hb hn] at hfresh
    exact ⟨p, hp, hb, by omega, fun _ => hfresh⟩
  · obtain ⟨p, hb, hp, hmod⟩ := SerialRing.exists_position hd T.rxNext
    rw [h.next_dsn, ← hmod, distanceSN_of_le hb hp] at hnear
    exact ⟨p, hmod, hle.trans hb, by omega, fun hlt => absurd hlt (by omega)⟩

/-- What is done before the packet itself is looked at. -/
theorem storePacket_eq (htx : TxOk u) (hm : u.Acceptable m) :
    ∃ s, TxStep (fun _ => True) u s ∧ u.storePacket m =
      if s.TooLate m then some (s.emit [.free m], false)
      else (s.dataWinAddNode m.node).map fun r =>
        if r.2 then (r.1.setRxSubWin m.header.stream
          ((r.1.rxSubWin m.header.stream).addNode m.header.ssn), true) else (r.1, false) := by
  have hack : m.header.ack < 65536 := m.word_lt 6
  set s₀ : UserInfo := { ((u.emit (m.headReads [0, 1])).emit [.access (.flow m.header.stream)]).emit
    (m.headReads [2, 3, 4, 5, 6, 7]) with lastPackageTime := u32 (u.time + 6000) } with hs₀
  have hreads : ∀ v (is : List ℕ), TxStep (fun _ => True) v (v.emit (m.headReads is)) := by
    intro v is
    refine TxStep.emit v _ fun a ha => ?_
    obtain ⟨i, -, rfl⟩ := List.mem_map.mp ha
    trivial
  have hflow : TxStep (fun _ => True) (u.emit (m.headReads [0, 1]))
      ((u.emit (m.headReads [0, 1])).emit [.access (.flow m.header.stream)]) := by
    refine TxStep.emit _ _ fun a ha => ?_
    rw [List.mem_singleton.mp ha]
    trivial
  have hstep₀ : TxStep (fun _ => True) u s₀ := by
    have hall := ((hreads u [0, 1]).trans hflow).trans (hreads _ [2, 3, 4, 5, 6, 7])
    exact ⟨hall.rxSubWin, hall.rxDataWin, hall.rxDsnErr, hall.valid, hall.time, hall.sendSackTime,
      fun m' ⟨f, i, hm'⟩ => hall.holds m' ⟨f, i, hm'⟩, hall.out⟩
  have htx₀ : TxOk s₀ := htx.congr rfl
  obtain ⟨b, n, hsp⟩ := htx₀ m.header.stream
  obtain ⟨s, b', hs, hstep, -⟩ := processACK_spec (A := fun _ => True) 1 hsp hack
  refine ⟨s, hstep₀.trans hstep, ?_⟩
  have hrejects : ¬ ((u.emit (m.headReads [0, 1])).emit
      [.access (.flow m.header.stream)]).Rejects m := by
    rintro (hflag | hvalid)
    · exact hflag hm.flag
    · exact nomatch hm.flow.symm.trans hvalid
  rw [storePacket]
  dsimp only
  rw [if_pos hm.flag, if_neg hrejects, if_neg hm.data]
  exact congrArg (Option.bind · _) hs

/-- An acceptable packet that passes the filter. -/
theorem storePacket_spec (h : AtRest u T) (htx : TxOk u) (hm : u.Acceptable m)
    (hlate : ¬ u.TooLate m) :
    ∃ p v S w, p % 65536 = m.header.dsn ∧ T.rxBegin ≤ p ∧ p ≤ T.rxNext + 1999 ∧
      u.storePacket m = some (v, true) ∧ Refines v S ∧ (S.cell S.rxNext).Blank ∧
      T.rxBegin ≤ S.rxBegin ∧ S.rxNext = max T.rxNext (p + 1) ∧
      (v.rxDataWin.win (m.header.dsn % 4096)).Has m.node ∧
      Drifts (u.rxSubWin m.header.stream) w ∧
      v.rxSubWin m.header.stream = w.addNode m.header.ssn ∧
      ∀ i, schdGetFlowValid v i = schdGetFlowValid u i := by
  obtain ⟨s, hs, heq⟩ := storePacket_eq htx hm
  have hlate' : ¬ s.TooLate m := by
    rw [TooLate, hs.rxSubWin]
    exact hlate
  rw [if_neg hlate'] at heq
  obtain ⟨as, hrest, -⟩ := h.txStep (F := fun _ => True) (fun _ _ => trivial) hs
  obtain ⟨p, hp, hb, hn, hfresh⟩ := hm.position h
  obtain ⟨v, S, hadd, hv, hblank, hbegin, hnext, hhas⟩ :=
    dataWinAddNode_stores hrest (show p % 65536 = m.node.dsn from hp) hb hn hfresh
  rw [hadd, Option.map_some, if_pos rfl] at heq
  obtain ⟨hset, -⟩ := hv.toReads.addNode (A := fun _ => True) m.header.stream (m.word_lt 4)
  have hdrift := (drifts_frame s).dataWinAddNode (fun i => .refl _) trivial hadd m.header.stream
  rw [hs.rxSubWin] at hdrift
  have hvalid : v.schdPara = s.schdPara :=
    ((RxStep.frame s).dataWinAddNode (.refl s) trivial hadd).schdPara
  refine ⟨p, _, _, _, hp, hb, hn, heq, ⟨hset, hv.next_eq, hv.next_cell⟩, hblank, hbegin, hnext, hhas,
    hdrift, Function.update_self .., fun i => ?_⟩
  rw [schdGetFlowValid, schdGetFlowValid, ← hs.valid i, ← hvalid]
  rfl

theorem stores_iff (h : AtRest u T) (htx : TxOk u) (hm : u.Acceptable m) :
    u.Stores m ↔ ¬ u.TooLate m := by
  constructor
  · rintro ⟨v, hv, -⟩ hlate
    obtain ⟨s, hs, heq⟩ := storePacket_eq htx hm
    have hlate' : s.TooLate m := by
      rw [TooLate, hs.rxSubWin]
      exact hlate
    rw [if_pos hlate', hv] at heq
    cases heq
  · intro hlate
    obtain ⟨p, v, S, w, -, -, -, hstore, -, -, -, -, hhas, hdrift, hsub, -⟩ :=
      storePacket_spec h htx hm hlate
    obtain ⟨⟨b, n, hw⟩, hd⟩ := h.kept m.header.stream
    obtain ⟨-, b', hb, hn, hw'⟩ := hdrift b n hw hd
    have hssn : m.header.ssn < 65536 := m.word_lt 4
    obtain ⟨t, ht, ht', hmod⟩ := SerialRing.exists_position hssn b
    have hnear := hm.ssn
    rw [hw.begin_ssn, ← hmod, distanceSN_of_le ht ht'] at hnear
    refine ⟨v, hstore, hhas, ?_⟩
    rw [hsub, ← hmod]
    exact recorded_addNode hw' hb hw.size ht (by omega)

end UserInfo

/-- Every state a session reaches is at rest. -/
theorem reached_atRest {u₀ u : UserInfo} {ops : List Op} (h : run Op.step ops u₀.cleared = some u) :
    ∃ T, u.AtRest T ∧ u.TxOk := by
  have hown : ∀ v, UserInfo.Own (fun _ => True) v := fun _ _ _ => trivial
  refine run_inv (I := fun v => ∃ T, v.AtRest T ∧ v.TxOk) ?_ ?_ h
  · rintro op v v' ⟨T, hT, htx⟩ hs
    obtain ⟨T', hT', -, -, htx'⟩ := UserInfo.step_tape (t := op.label fun m => m.header.dsn) hT
      (hown v) htx (op.fits_true v) (fun m hm _ _ => by
        subst hm
        exact Nat.mod_eq_of_lt (m.word_lt 2)) hs
    exact ⟨T', hT', htx'⟩
  · exact ⟨_, UserInfo.atRest_cleared u₀, fun _ => ⟨0, 0, TxWin.spans_clear⟩⟩

/-- **Which packets are stored.** In every state a session reaches, an acceptable packet is stored
unless the sub window of its subflow looks clear and it is not one of the first of a turn. -/
theorem stores_run {u₀ u : UserInfo} {ops : List Op} {m : Msg}
    (h : run Op.step ops u₀.cleared = some u) (hm : u.Acceptable m) :
    u.Stores m ↔ ¬ u.TooLate m := by
  obtain ⟨T, hT, htx⟩ := reached_atRest h
  exact UserInfo.stores_iff hT htx hm

/-! ### A turn in which everything arrives -/

/-- Packet `x` of a session that uses subflow 0 alone. -/
def nthPacket (x : ℕ) : Msg := .packet 0 0 0 x x [0]

theorem header_nthPacket (x : ℕ) :
    (nthPacket x).header = ⟨0x55, 0, 0, 3, x % 65536, x % 65536, 0⟩ :=
  Msg.header_packet ..

/-- The datagram `m` is packet `x` of such a session, whatever it carries. -/
structure Msg.IsNth (m : Msg) (x : ℕ) : Prop where
  flag : m.header.flag = 0x55
  fragment : m.header.fragment = 0
  stream : m.header.stream = 0
  dsn : m.header.dsn = x % 65536
  ssn : m.header.ssn = x % 65536
  data : ¬ m.IsAck

theorem isNth_nthPacket (x : ℕ) : (nthPacket x).IsNth x := by
  refine ⟨?_, ?_, ?_, ?_, ?_, ?_⟩
  · rw [header_nthPacket]
  · rw [header_nthPacket]
  · rw [header_nthPacket]
  · rw [header_nthPacket]
  · rw [header_nthPacket]
  · show (nthPacket x).header.length * 4 ≠ 13
    simp only [header_nthPacket]
    omega

/-- The packet a window at rest waits for arrives. -/
theorem RxSubWin.Rests.addNode_next {w : RxSubWin} {n : ℕ} (h : Rests w n n)
    (hd : w.dataWinSSN < 65536) :
    Rests (w.addNode (n % 65536)) (n + 1) (n + 1) ∧ (w.addNode (n % 65536)).dataWinSSN < 65536 := by
  by_cases hc : w.looksClear
  · obtain ⟨hrests, hdw⟩ := addNode_of_looksClear w hc n
    exact ⟨hrests, hdw ▸ hd⟩
  · obtain ⟨b, n', hrests, harr, hdw⟩ := addNode_spec h hc le_rfl (by omega)
    obtain rfl : n' = n + 1 := by
      rw [harr.next_eq, if_pos (by omega)]
      omega
    obtain rfl : b = n + 1 := by
      have hb := harr.begin_le
      have hle := hrests.le
      by_contra hne
      obtain rfl : b = n := by omega
      exact hrests.begin_un ((harr.marked b le_rfl (by omega)).mpr (.inr ⟨rfl, by omega⟩))
    exact ⟨hrests, hdw ▸ hd⟩

/-- The first `k` packets arrived on subflow 0, in their order. -/
structure UserInfo.AllArrived (u : UserInfo) (k : ℕ) : Prop where
  window : ∃ T, u.AtRest T ∧ T.rxBegin = k ∧ T.rxNext = k
  tx : u.TxOk
  flow : schdGetFlowValid u 0 = true
  sub : Rests (u.rxSubWin 0) k k

namespace UserInfo

variable {u : UserInfo} {k : ℕ}

theorem allArrived_cleared : ready.cleared.AllArrived 0 where
  window := ⟨_, atRest_cleared ready, rfl, rfl⟩
  tx _ := ⟨0, 0, TxWin.spans_clear⟩
  flow := rfl
  sub := (by
    refine ⟨⟨rfl, rfl, le_rfl, by omega, fun x _ hx => ?_, fun x _ _ => nofun⟩, nofun, nofun⟩
    obtain rfl : x = 0 := by omega
    rfl)

/-- The next packets are acceptable, whichever of them comes first. -/
theorem AllArrived.acceptable (h : u.AllArrived k) {m : Msg} {d x : ℕ} (hm : m.IsNth x)
    (hd : d ≤ 1999) (hx : x % 65536 = (k + d) % 65536) : u.Acceptable m := by
  obtain ⟨T, hT, hb, hn⟩ := h.window
  have hahead : ∀ n, n = k % 65536 → distanceSN n (x % 65536) = d := by
    rintro n rfl
    rw [hx, distanceSN_of_le (by omega) (by omega), Nat.add_sub_cancel_left]
  constructor
  · exact hm.flag
  · rw [hm.stream]
    exact h.flow
  · rw [hm.fragment]
    decide
  · exact hm.data
  · intro hin
    obtain ⟨p, hp, hp', -⟩ := (hT.inWindow_iff (m.word_lt 2)).mp hin
    omega
  · rw [hm.stream, hm.ssn, hahead _ h.sub.begin_ssn]
    omega
  · right
    rw [hm.dsn, hahead _ (hn ▸ hT.next_dsn)]
    exact hd

/-- The filter lets the next packet pass. -/
theorem AllArrived.not_tooLate (h : u.AllArrived k) {m : Msg} (hm : m.IsNth k) : ¬ u.TooLate m := by
  rintro ⟨hc, hssn⟩
  rw [hm.stream] at hc
  rw [hm.ssn] at hssn
  obtain ⟨-, h0⟩ := h.sub.toSpans.of_looksClear hc
  omega

/-- One more packet arrives. -/
theorem AllArrived.recv (h : u.AllArrived k) {m : Msg} (hm : m.IsNth k) :
    ∃ v, u.doParseMPData m = some v ∧ v.AllArrived (k + 1) := by
  obtain ⟨T, hT, hb, hn⟩ := h.window
  have hlate := h.not_tooLate hm
  have hacc : u.Acceptable m := h.acceptable hm (Nat.zero_le _) (by rw [Nat.add_zero])
  obtain ⟨p, s, S, w, hp, hbp, hpn, hstore, hs, hblank, hbegin, hnext, hhas, hdrift, hsub, hvalid⟩ :=
    storePacket_spec hT h.tx hacc hlate
  rw [hm.dsn] at hp hhas
  rw [hm.stream] at hdrift hsub
  rw [hm.ssn] at hsub
  obtain rfl : p = k := SerialRing.cell_inj hp (by omega) (by omega)
  obtain ⟨v, T', hmove, hv, -, hsame⟩ := dataWinRxBeginMove_spec (A := fun _ => True) hs hblank
  have hrecv : u.doParseMPData m = some v := by
    rw [doParseMPData_eq, hstore, Option.bind_some]
    exact hmove
  have hnext' : T'.rxNext = p + 1 := by
    rw [hsame.tapeNext, hnext]
    omega
  refine ⟨v, hrecv, ⟨T', hv, ?_, hnext'⟩, h.tx.doParseMPData hrecv, ?_, ?_⟩
  · -- the slot of the packet is complete, so it is not the one at the front
    have hle := hv.le
    have hge := hsame.begin_le
    by_contra hne
    have hfront : T'.rxBegin = p := by omega
    refine hv.head_idle (.inl ?_)
    rw [Tape.head, ← hv.cell _ le_rfl (by omega), hsame.win, hfront,
      show p % 4096 = p % 65536 % 4096 by omega]
    exact hhas.whole hm.fragment
  · have hpara := ((RxStep.frame s).dataWinRxBeginMove (.refl s) hmove).schdPara
    rw [schdGetFlowValid, hpara]
    exact (hvalid 0).trans h.flow
  · obtain ⟨-, hd⟩ := hT.kept 0
    obtain ⟨hdw, b, hbb, hbn, hw⟩ := hdrift p p h.sub hd
    obtain rfl : b = p := by omega
    have hadd : Rests (s.rxSubWin 0) (b + 1) (b + 1) ∧ (s.rxSubWin 0).dataWinSSN < 65536 := by
      rw [hsub]
      exact hw.addNode_next hdw
    obtain ⟨-, b', hb', hbn', hrests⟩ :=
      (drifts_frame s).dataWinRxBeginMove (fun i => .refl _) hmove 0 _ _ hadd.1 hadd.2
    obtain rfl : b' = b + 1 := by omega
    exact hrests

/-- The first `k` packets of a session arrive. -/
theorem allArrived_run (k : ℕ) :
    ∃ u, run Op.step ((List.range k).map fun x => .recv (nthPacket x)) ready.cleared = some u ∧
      u.AllArrived k := by
  induction k with
  | zero => exact ⟨_, rfl, allArrived_cleared⟩
  | succ k ih =>
    obtain ⟨u, hu, hall⟩ := ih
    obtain ⟨v, hv, hall'⟩ := hall.recv (isNth_nthPacket k)
    refine ⟨v, ?_, hall'⟩
    rw [List.range_succ, List.map_append, List.map_singleton, run_concat, hu, Option.bind_some]
    exact hv

end UserInfo

/-- Packet 1 is lost, then packets 3 to 7; packet 8 is stored. -/
theorem stores_run_gap : ∃ u, run Op.step [.recv (nthPacket 0), .recv (nthPacket 2)]
    UserInfo.ready.cleared = some u ∧ u.Acceptable (nthPacket 8) ∧ u.Stores (nthPacket 8) := by
  have heval : (run Op.step [.recv (nthPacket 0), .recv (nthPacket 2)]
      UserInfo.ready.cleared).map (fun u => decide ((schdGetFlowValid u 0 = true ∧
        ¬ u.rxDataWin.InWindow 8 ∧ distanceSN (u.rxSubWin 0).beginNode.ssn 8 < 32768 ∧
          distanceSN u.rxDataWin.nextNode.dsn 8 ≤ 1999) ∧ ¬ u.TooLate (nthPacket 8))) =
            some true := by
    decide +kernel
  obtain ⟨u, hu, hproj⟩ := Option.map_eq_some_iff.mp heval
  obtain ⟨⟨hflow, hout, hssn, hdsn⟩, hlate⟩ := of_decide_eq_true hproj
  have hacc : u.Acceptable (nthPacket 8) :=
    ⟨rfl, hflow, by decide, by decide, fun hin => absurd hin hout, hssn, .inr hdsn⟩
  exact ⟨u, hu, hacc, (stores_run hu hacc).mpr hlate⟩

/-- Packets 0 to 65535 of subflow 0 arrive in order, then, after ten that were lost, a packet with
SSN 10 and DSN 10. It is not stored, though the first packet of the session was. -/
theorem stores_turn :
    UserInfo.ready.cleared.Acceptable (nthPacket 0) ∧ UserInfo.ready.cleared.Stores (nthPacket 0) ∧
      ∃ u, run Op.step ((List.range 65536).map fun x => .recv (nthPacket x))
        UserInfo.ready.cleared = some u ∧ u.Acceptable (nthPacket 10) ∧ ¬ u.Stores (nthPacket 10) := by
  have hstart := UserInfo.allArrived_cleared
  have hfirst : UserInfo.ready.cleared.Acceptable (nthPacket 0) :=
    hstart.acceptable (isNth_nthPacket 0) (Nat.zero_le _) rfl
  have hstores : UserInfo.ready.cleared.Stores (nthPacket 0) := by
    obtain ⟨T, hT, -⟩ := hstart.window
    refine (UserInfo.stores_iff hT hstart.tx hfirst).mpr ?_
    rintro ⟨-, hssn⟩
    rw [header_nthPacket] at hssn
    exact nomatch hssn
  refine ⟨hfirst, hstores, ?_⟩
  obtain ⟨u, hu, hall⟩ := UserInfo.allArrived_run 65536
  have hacc : u.Acceptable (nthPacket 10) :=
    hall.acceptable (isNth_nthPacket 10) (show 10 ≤ 1999 by omega) rfl
  refine ⟨u, hu, hacc, fun hst => ?_⟩
  obtain ⟨T, hT, -⟩ := hall.window
  refine (UserInfo.stores_iff hT hall.tx hacc).mp hst ⟨?_, ?_⟩
  · rw [header_nthPacket]
    refine ⟨hall.sub.begin_eq, hall.sub.next_eq, hall.sub.begin_ssn⟩
  · rw [header_nthPacket]
    decide

end Mpd

end AndroidVendor
