import AndroidVendor.Mpd.StateInd
import AndroidVendor.Mpd.TapeInvariant

/-!
# Steps that leave a subflow alone

Traffic touches the windows of subflows that are there, and of no other: datagrams of a subflow that
is gone are rejected, new data is not sent on it, the timers pass over it, and packets it brought
while it was there no longer move its sub window.

## Main results

* `Apart` — the frame of one subflow
* `Apart.traffic` — a step of traffic keeps it for every subflow that is not there
-/

namespace AndroidVendor

namespace Mpd

open Loop

namespace UserInfo

variable {u u' v : UserInfo} {f g : ℕ}

/-- The windows of subflow `f` are as they were, and so are the flags of all subflows. -/
structure Apart (f : ℕ) (u u' : UserInfo) : Prop where
  txWindow : u'.txWindow f = u.txWindow f
  rxSubWin : u'.rxSubWin f = u.rxSubWin f
  valid : ∀ i, schdGetFlowValid u' i = schdGetFlowValid u i

theorem Apart.refl (f : ℕ) (u : UserInfo) : Apart f u u := ⟨rfl, rfl, fun _ => rfl⟩

theorem Apart.trans (h : Apart f u u') (h' : Apart f u' v) : Apart f u v :=
  ⟨h'.txWindow.trans h.txWindow, h'.rxSubWin.trans h.rxSubWin,
    fun i => (h'.valid i).trans (h.valid i)⟩

/-- Fields that are not the windows' may change. -/
theorem Apart.congr (h : Apart f u u') (ht : v.txWindow = u'.txWindow)
    (hs : v.rxSubWin = u'.rxSubWin) (hp : v.schdPara = u'.schdPara) : Apart f u v :=
  h.trans ⟨congrFun ht f, congrFun hs f, fun i => by rw [schdGetFlowValid, hp]; rfl⟩

theorem Apart.emit (h : Apart f u u') (as : List Action) : Apart f u (u'.emit as) :=
  h.congr rfl rfl rfl

/-- The tx window of another subflow is rewritten. -/
theorem Apart.setTxWindow (h : Apart f u u') (hne : f ≠ g) (w : TxWin) :
    Apart f u (u'.setTxWindow g w) :=
  h.trans ⟨Function.update_of_ne hne _ _, rfl, fun _ => rfl⟩

/-- The sub window of another subflow is rewritten. -/
theorem Apart.setRxSubWin (h : Apart f u u') (hne : f ≠ g) (w : RxSubWin) :
    Apart f u (u'.setRxSubWin g w) :=
  h.trans ⟨rfl, Function.update_of_ne hne _ _, fun _ => rfl⟩

theorem Apart.msgMemCreat (h : Apart f u u') : Apart f u (msgMemCreat u').2 := h.congr rfl rfl rfl

theorem Apart.onSendMPDataComplete (h : Apart f u u') (g : ℕ) (m : Msg) (len : ℕ)
    (release : Bool) : Apart f u (onSendMPDataComplete u' g m len release).2 := h.congr rfl rfl rfl

/-- A subflow that is there is not one that is gone. -/
theorem ne_of_valid (hf : schdGetFlowValid u f = false) (hg : schdGetFlowValid u g = true) :
    f ≠ g := by
  rintro rfl
  rw [hf] at hg
  cases hg

theorem Apart.gone (h : Apart f u u') (hf : schdGetFlowValid u f = false) :
    schdGetFlowValid u' f = false := (h.valid f).trans hf

/-! ### The receive side -/

theorem Apart.blind (f : ℕ) (u : UserInfo) : RxBlind (Apart f u) :=
  ⟨fun _ _ h hv => h.congr hv.txWindow hv.rxSubWin hv.schdPara⟩

/-- Every operation of the data window keeps it, for a subflow that is not there. -/
theorem Apart.frame (hf : schdGetFlowValid u f = false) : RxFrame (f ≠ ·) (Apart f u) where
  toRxBlind := Apart.blind f u
  flow _ _ h hvalid := ne_of_valid (h.gone hf) hvalid
  posted _ _ _ h hne := h.setRxSubWin hne _
  drive _ _ _ h hne _ := h.setRxSubWin hne _

theorem Apart.parseData (h : Apart f u u') (hf : schdGetFlowValid u f = false) {m : Msg}
    (hne : f ≠ m.header.stream) (hp : u'.parseData m = some v) : Apart f u v := by
  rw [UserInfo.parseData] at hp
  split at hp
  · cases hp
    exact h.emit _
  obtain ⟨r, hr, hp⟩ := Option.bind_eq_some_iff.mp hp
  have h₁ : Apart f u r.1 := (Apart.frame hf).dataWinAddNode h hne hr
  split at hp
  · exact (Apart.frame hf).dataWinRxBeginMove (h₁.setRxSubWin hne _) hp
  · cases hp
    exact h₁

/-! ### The transmit side -/

/-- A step of the transmit side that leaves the tx window of `f` alone. -/
theorem Apart.txStep {A : Access → Prop} (h : Apart f u u') (hs : TxStep A u' v)
    (hw : v.txWindow f = u'.txWindow f) : Apart f u v :=
  h.trans ⟨hw, congrFun hs.rxSubWin f, hs.valid⟩

theorem Apart.processACK (h : Apart f u u') (htx : TxOk u') (hne : f ≠ g) {ack fs : ℕ}
    (hack : ack < 65536) (hp : u'.processACK g ack fs = some v) : Apart f u v := by
  obtain ⟨b, n, hs⟩ := htx g
  obtain ⟨s, b', hs', hstep, hoth, -⟩ := processACK_spec (A := fun _ => True) fs hs hack
  obtain rfl : s = v := Option.some.inj (hs'.symm.trans hp)
  exact h.txStep hstep (hoth f hne)

theorem Apart.parserSACK (h : Apart f u u') (htx : TxOk u') (hne : f ≠ g) {ack : ℕ} {m : Msg}
    (hp : u'.parserSACK g m ack = some v) : Apart f u v := by
  obtain ⟨b, n, hs⟩ := htx g
  have hsack := parserSACK_spec (A := fun _ => True) hs (fun _ _ => trivial) hp
  exact h.txStep hsack.step (hsack.others f hne)

theorem Apart.parseAck (h : Apart f u u') (htx : TxOk u') {m : Msg} (hne : f ≠ m.header.stream)
    (hp : u'.parseAck m = some v) : Apart f u v := by
  have hack : m.header.ack < 65536 := m.word_lt 6
  rw [UserInfo.parseAck] at hp
  obtain ⟨s, hs, rfl⟩ := Option.map_eq_some_iff.mp hp
  suffices hs' : Apart f u s from hs'.emit _
  have h₁ : Apart f u (u'.emit [.access (.sub m.node.mpdHeadLen 12)]) := h.emit _
  split at hs
  · obtain ⟨t, ht, hs⟩ := Option.bind_eq_some_iff.mp hs
    have htx₁ : TxOk ((u'.emit [.access (.sub m.node.mpdHeadLen 12)]).emit (m.headReads [14])) :=
      fun i => htx i
    exact ((h₁.emit _).processACK htx₁ hne hack ht).parserSACK (htx₁.processACK hack ht) hne hs
  · exact h₁.processACK (fun i => htx i) hne hack hs

/-- A datagram that is not rejected is of a subflow that is there. -/
theorem Apart.doParseMPData (hf : schdGetFlowValid u f = false) (htx : TxOk u) {m : Msg}
    (hp : u.doParseMPData m = some v) : Apart f u v := by
  have hack : m.header.ack < 65536 := m.word_lt 6
  rw [UserInfo.doParseMPData] at hp
  dsimp only at hp
  generalize hu₁ : (if m.header.flag = 0x55 then
    (u.emit (m.headReads [0, 1])).emit [.access (.flow m.header.stream)]
    else u.emit (m.headReads [0, 1])) = u₁ at hp
  have h₁ : Apart f u u₁ ∧ TxOk u₁ := by
    rw [← hu₁]
    split <;> exact ⟨(Apart.refl f u).congr rfl rfl rfl, htx.congr rfl⟩
  obtain ⟨h₁, htx₁⟩ := h₁
  split at hp
  · cases hp
    exact h₁.emit _
  next hrej =>
  have hne : f ≠ m.header.stream := by
    refine ne_of_valid (h₁.gone hf) ?_
    simpa using (not_or.mp hrej).2
  have h₂ : Apart f u { u₁.emit (m.headReads [2, 3, 4, 5, 6, 7]) with
      lastPackageTime := u32 (u₁.time + 6000) } := h₁.congr rfl rfl rfl
  split at hp
  · exact h₂.parseAck (fun i => htx₁ i) hne hp
  · obtain ⟨s, hs, hp⟩ := Option.bind_eq_some_iff.mp hp
    exact (h₂.processACK (fun i => htx₁ i) hne hack hs).parseData hf hne hp

theorem Apart.fillMPDHeader (h : Apart f u u') (hne : f ≠ g) (data : Msg) (frag : ℕ) :
    Apart f u (u'.fillMPDHeader g data frag).2 :=
  ((h.setRxSubWin hne _).setTxWindow hne _).congr rfl rfl rfl

theorem putDataToTxWin_frame (u : UserInfo) (g : ℕ) (data : Msg) (len : ℕ) :
    (u.putDataToTxWin g data len).2.rxSubWin = u.rxSubWin ∧
      ∀ i, schdGetFlowValid (u.putDataToTxWin g data len).2 i = schdGetFlowValid u i := by
  rw [putDataToTxWin]
  dsimp only
  generalize hv : u.setTxWindow g _ = v
  have hnext := TxStep.txNextInc (A := fun _ => True) v g
  rw [← hv] at hnext ⊢
  exact ⟨hnext.rxSubWin, hnext.valid⟩

theorem Apart.sendBlock (h : Apart f u u') (htx : TxOk u') (hne : f ≠ g) (data : Msg)
    (len frag : ℕ) : Apart f u (u'.sendBlock g data len frag).2 := by
  obtain ⟨b, n, hs⟩ := htx g
  obtain ⟨hoth, -⟩ := sendBlock_spec hs data len frag
  have hhead := (Apart.refl f u').fillMPDHeader hne data frag
  obtain ⟨hput, hvalid⟩ := putDataToTxWin_frame (u'.fillMPDHeader g data frag).2 g
    (u'.fillMPDHeader g data frag).1 len
  have hsend := TxStep.callMPCToSend (A := fun _ => True)
    ((u'.fillMPDHeader g data frag).2.putDataToTxWin g (u'.fillMPDHeader g data frag).1 len).2 g
    ((u'.fillMPDHeader g data frag).2.putDataToTxWin g (u'.fillMPDHeader g data frag).1 len).1
  refine h.trans ⟨hoth f hne, ?_, fun i => ?_⟩
  · exact (congrFun (hsend.rxSubWin.trans hput) f).trans hhead.rxSubWin
  · exact ((hsend.valid i).trans (hvalid i)).trans (hhead.valid i)

/-- New data goes out on one subflow, if on any. -/
theorem Apart.doSendNewTransData (htx : TxOk u) {flowId : Option ℕ}
    (hne : ∀ g ∈ flowId, f ≠ g) (data : Msg) (length : ℕ) :
    Apart f u (u.doSendNewTransData flowId data length).2 := by
  refine (doSendNewTransData_kept (P := fun v => Apart f u v ∧ TxOk v) ?_ ?_ ⟨.refl f u, htx⟩ data
    length).1
  · intro v w hv hw
    exact ⟨hv.1.congr hw.txWindow hw.rxSubWin hw.schdPara, hv.2.congr hw.txWindow⟩
  · intro g hg v data len frag hv
    exact ⟨hv.1.sendBlock hv.2 (hne g hg) data len frag, hv.2.sendBlock g data len frag⟩

theorem Apart.txWinRetransFlow (h : Apart f u u') (hf : schdGetFlowValid u f = false) (i : ℕ) :
    Apart f u (u'.txWinRetransFlow i) := by
  refine h.txStep (TxStep.txWinRetransFlow (A := fun _ => True) u' i) ?_
  rw [UserInfo.txWinRetransFlow]
  split
  · rfl
  next hi =>
  have hne : f ≠ i := ne_of_valid (h.gone hf) (by simpa using hi)
  split
  · exact txWindow_setTxWindow_of_ne _ _ hne
  split
  · rfl
  next last _ =>
  dsimp only
  split
  · obtain ⟨hist, hw⟩ := callMPCToRetrans_txWindow u' i last
    rw [txWindow_setTxWindow_of_ne _ _ hne, hw, Function.update_of_ne hne]
  · rfl

theorem Apart.txWinRetransCheck (h : Apart f u u') (hf : schdGetFlowValid u f = false) :
    Apart f u u'.txWinRetransCheck := by
  rw [UserInfo.txWinRetransCheck]
  split
  · exact ((h.txWinRetransFlow hf 0).txWinRetransFlow hf 1).txWinRetransFlow hf 2
  · exact h

theorem Apart.subWinSendSackPacketMsg (h : Apart f u u') (hne : f ≠ g) (ack : ℕ)
    (sack : List SackV) (first : ℕ) : Apart f u (u'.subWinSendSackPacketMsg ack sack g first) := by
  rw [UserInfo.subWinSendSackPacketMsg]
  dsimp only
  split
  · exact h.msgMemCreat
  · exact (h.msgMemCreat.onSendMPDataComplete _ _ _ _).setTxWindow hne _

theorem Apart.writer (f : ℕ) (u : UserInfo) : AckWriter (f ≠ ·) (Apart f u) where
  count _ _ h := h.congr rfl rfl rfl
  stamp _ _ h := h.congr rfl rfl rfl
  sentAck _ _ _ hne h := h.setRxSubWin hne _
  message _ ack sack _ first hne h := h.subWinSendSackPacketMsg hne ack sack first

theorem Apart.sackPeriodSend (h : Apart f u u') (hf : schdGetFlowValid u f = false) :
    Apart f u u'.sackPeriodSend :=
  (Apart.writer f u).sackPeriodSend (fun _ _ hv hi => ne_of_valid (hv.gone hf) hi) h

/-- **Traffic** leaves subflows that are not there alone. -/
theorem Apart.traffic (htx : TxOk u) (hf : schdGetFlowValid u f = false) {op : Op}
    (hop : op.IsTraffic u) (hs : op.step u = some v) : Apart f u v := by
  have h := Apart.refl f u
  cases op with
  | recv m => exact Apart.doParseMPData hf htx hs
  | tick =>
    cases hs
    exact h.congr rfl rfl rfl
  | dataWinTimeOutCheck => exact (Apart.frame hf).dataWinTimeOutCheck h hs
  | checkAck =>
    cases hs
    exact (Apart.blind f u).checkAck h
  | sackPeriodSend =>
    cases hs
    exact h.sackPeriodSend hf
  | txWinRetransCheck =>
    cases hs
    exact h.txWinRetransCheck hf
  | send flowId data length =>
    cases hs
    refine Apart.doSendNewTransData htx (fun g hg => ?_) data length
    obtain ⟨i, hi, rfl⟩ := Option.map_eq_some_iff.mp hg
    exact ne_of_valid hf (hop i hi)
  | setFlowValid => exact hop.elim
  | clearTxWin => exact hop.elim
  | clearSubWin => exact hop.elim
  | changeDataWinFlowId => exact hop.elim
  | clearDataWin => exact hop.elim

/-! ### The other subflows of a subflow that is cleared -/

theorem Apart.clearTxWin (h : Apart f u u') (hne : f ≠ g) : Apart f u (u'.clearTxWin g) := by
  refine h.txStep (TxStep.clearTxWin (A := fun _ => True) u' g) ?_
  rw [UserInfo.clearTxWin, txWindow_setTxWindow_of_ne _ _ hne, clearTxNodes_txWindow u' 1024 hne]

theorem Apart.clearSubWin (h : Apart f u u') (hne : f ≠ g) : Apart f u (u'.clearSubWin g) :=
  h.setRxSubWin hne _

theorem Apart.changeDataWinFlowId (h : Apart f u u') : Apart f u (u'.changeDataWinFlowId g) :=
  (Apart.blind f u).changeFlowIdFrom h _ _ _

end UserInfo

end Mpd

end AndroidVendor
