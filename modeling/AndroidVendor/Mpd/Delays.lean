import AndroidVendor.Mpd.Daemon
import AndroidVendor.Mpd.RxFrame

/-!
# The delay of a subflow is measured by nobody else

`InhertDelay` stands among the fields that the windows write: a packet that is confirmed leaves its
round-trip time there and is counted. None of the functions that move packets writes the delay
itself. `HasDelays D u` says that the delays are `D`; it survives all of them.

## Main results

* `HasDelays.doParseMPData`, `HasDelays.doSendNewTransData` and the rules for the timers
* `HasDelays.doSubFlowStateInd` — and the state indications
-/

namespace AndroidVendor

namespace Mpd

open Loop

namespace UserInfo

/-- The delays of the subflows are `D`. -/
def HasDelays (D : ℕ → ℕ) (u : UserInfo) : Prop := ∀ g, (u.schdPara g).inhertDelay = D g

variable {D : ℕ → ℕ} {u v : UserInfo} {f i : ℕ}

theorem hasDelays_self (u : UserInfo) : HasDelays (fun g => (u.schdPara g).inhertDelay) u :=
  fun _ => rfl

theorem HasDelays.congr (h : HasDelays D u) (hp : v.schdPara = u.schdPara) : HasDelays D v := by
  intro g
  rw [hp]
  exact h g

theorem HasDelays.setSchdPara (h : HasDelays D u) {p : SchdStreamPara}
    (hp : p.inhertDelay = (u.schdPara f).inhertDelay) : HasDelays D (u.setSchdPara f p) := by
  intro g
  rw [UserInfo.setSchdPara]
  dsimp only
  by_cases hg : g = f
  · rw [hg, Function.update_self, hp]
    exact h f
  · rw [Function.update_of_ne hg]
    exact h g

theorem HasDelays.rxFree (D : ℕ → ℕ) : RxFree (HasDelays D) where
  congr _ _ h hv := h.congr hv.schdPara
  sub _ _ _ h := h.congr rfl

/-! ### Sending -/

theorem freeTxBeginData_schdPara (u : UserInfo) (f : ℕ) :
    (u.freeTxBeginData f).schdPara = u.schdPara := by
  rw [freeTxBeginData]
  dsimp only
  split
  · rfl
  · split <;> rfl

theorem txNextInc_schdPara (u : UserInfo) (f : ℕ) : (u.txNextInc f).schdPara = u.schdPara := by
  rw [txNextInc]
  dsimp only
  split
  · exact freeTxBeginData_schdPara _ f
  · rfl

theorem callMPCToSend_schdPara (u : UserInfo) (f i : ℕ) :
    (u.callMPCToSend f i).2.schdPara = u.schdPara := by
  rw [callMPCToSend]
  dsimp only
  split
  · rfl
  · split <;> rfl

theorem callMPCToRetrans_schdPara (u : UserInfo) (f i : ℕ) :
    (u.callMPCToRetrans f i).schdPara = u.schdPara := by
  rw [callMPCToRetrans]
  dsimp only
  split <;> rfl

theorem sendBlock_schdPara (u : UserInfo) (f : ℕ) (data : Msg) (len frag : ℕ) :
    (u.sendBlock f data len frag).2.schdPara = u.schdPara := by
  rw [sendBlock]
  dsimp only
  rw [callMPCToSend_schdPara]
  exact txNextInc_schdPara _ f

theorem splitDataMem_schdPara (u : UserInfo) (data : Msg) (length : ℕ) :
    (u.splitDataMem data length).2.schdPara = u.schdPara := by
  rw [splitDataMem]
  dsimp only
  split
  · rfl
  · split
    · rfl
    · split <;> rfl

theorem doSendNewTransData_schdPara (u : UserInfo) (flowId : Option ℕ) (data : Msg) (length : ℕ) :
    (u.doSendNewTransData flowId data length).2.schdPara = u.schdPara := by
  rw [doSendNewTransData.eq_def]
  split
  · rfl
  cases flowId with
  | none => rfl
  | some f =>
    dsimp only
    have hsplit : (if 1480 ≤ length then
        splitDataMem { u with lastPackageTime := u32 (u.time + 6000) } data length
        else (none, { u with lastPackageTime := u32 (u.time + 6000) })).2.schdPara = u.schdPara := by
      split
      · exact splitDataMem_schdPara _ data length
      · rfl
    generalize (if 1480 ≤ length then
        splitDataMem { u with lastPackageTime := u32 (u.time + 6000) } data length
        else (none, { u with lastPackageTime := u32 (u.time + 6000) })) = r at hsplit
    obtain ⟨frag, s⟩ := r
    cases frag with
    | none => exact (sendBlock_schdPara s f data length 0).trans hsplit
    | some frag =>
      dsimp only
      rw [sendBlock_schdPara]
      exact (sendBlock_schdPara s f frag.first 1012 1).trans hsplit

theorem HasDelays.doSendNewTransData (h : HasDelays D u) (flowId : Option ℕ) (data : Msg)
    (length : ℕ) : HasDelays D (u.doSendNewTransData flowId data length).2 :=
  h.congr (doSendNewTransData_schdPara u flowId data length)

theorem txWinRetransFlow_schdPara (u : UserInfo) (f : ℕ) :
    (u.txWinRetransFlow f).schdPara = u.schdPara := by
  rw [txWinRetransFlow]
  dsimp only
  split
  · rfl
  split
  · rfl
  split
  · rfl
  split
  · exact callMPCToRetrans_schdPara u f _
  · rfl

theorem HasDelays.txWinRetransCheck (h : HasDelays D u) : HasDelays D u.txWinRetransCheck := by
  rw [UserInfo.txWinRetransCheck]
  split
  · refine h.congr ?_
    exact (txWinRetransFlow_schdPara _ 2).trans ((txWinRetransFlow_schdPara _ 1).trans
      (txWinRetransFlow_schdPara u 0))
  · exact h

theorem clearTxNodes_schdPara (f k : ℕ) (u : UserInfo) :
    (clearTxNodes f k u).schdPara = u.schdPara := by
  induction k generalizing u with
  | zero => rfl
  | succ k ih =>
    rw [clearTxNodes]
    split
    · rw [ih]
      exact freeTxBeginData_schdPara u f
    · rfl

theorem HasDelays.clearTxWin (h : HasDelays D u) (f : ℕ) : HasDelays D (u.clearTxWin f) :=
  h.congr (clearTxNodes_schdPara f 1024 u)

/-! ### Acknowledgements -/

theorem HasDelays.schdRTTFlowUpdate (h : HasDelays D u) (f i : ℕ) :
    HasDelays D (u.schdRTTFlowUpdate f i) := by
  rw [UserInfo.schdRTTFlowUpdate]
  split
  · exact h.setSchdPara rfl
  · exact h

theorem HasDelays.countConfirmed (h : HasDelays D u) (f : ℕ) : HasDelays D (u.countConfirmed f) := by
  rw [UserInfo.countConfirmed]
  have h₁ : HasDelays D (u.setTrafficControl f
      { u.trafficControl f with pktRate := u32 ((u.trafficControl f).pktRate + 1) }) := h.congr rfl
  exact h₁.setSchdPara rfl

theorem HasDelays.moveSsnEnd (h : HasDelays D u) (f ssn : ℕ) : HasDelays D (u.moveSsnEnd f ssn) := by
  rw [UserInfo.moveSsnEnd]
  split
  · exact h.congr rfl
  · exact h

theorem HasDelays.ackOldest (h : HasDelays D u) (f : ℕ) : HasDelays D (u.ackOldest f) := by
  rw [UserInfo.ackOldest]
  have h₁ := h.schdRTTFlowUpdate f (u.txWindow f).pTxBegin
  generalize u.schdRTTFlowUpdate f (u.txWindow f).pTxBegin = s at h₁ ⊢
  split
  · exact (h₁.countConfirmed f).congr (freeTxBeginData_schdPara _ f)
  · exact h₁.congr (freeTxBeginData_schdPara _ f)

theorem HasDelays.processACK {ack firstSack : ℕ} (h : HasDelays D u)
    (hp : u.processACK f ack firstSack = some v) : HasDelays D v := by
  rw [UserInfo.processACK] at hp
  split at hp
  · cases hp
    exact h
  dsimp only at hp
  split at hp
  · cases hp
    exact h.congr rfl
  · obtain ⟨s, hs, rfl⟩ := Option.map_eq_some_iff.mp hp
    have h₁ : HasDelays D (u.setTxWindow f { u.txWindow f with ackTimeOutcnt := 0 }) := h.congr rfl
    refine HasDelays.moveSsnEnd ?_ f _
    refine (whileLoop_inv (HasDelays D) (fun a a' ha _ hbody => ?_) h₁ hs).1
    cases hbody
    exact ha.ackOldest f

theorem HasDelays.sackGapNode (h : HasDelays D u) (f i : ℕ) : HasDelays D (u.sackGapNode f i) := by
  rw [UserInfo.sackGapNode]
  dsimp only
  have h₁ : HasDelays D (if ((u.txWindow f).dataNode i).transState = .waitingAck then
      u.setTrafficControl f { u.trafficControl f with
        pktLossCnt := u32 ((u.trafficControl f).pktLossCnt + 1) } else u) := by
    split
    · exact h.congr rfl
    · exact h
  generalize (if ((u.txWindow f).dataNode i).transState = .waitingAck then
    u.setTrafficControl f { u.trafficControl f with
      pktLossCnt := u32 ((u.trafficControl f).pktLossCnt + 1) } else u) = s at h₁ ⊢
  split
  · have h₂ := h₁.congr (callMPCToRetrans_schdPara s f i)
    generalize s.callMPCToRetrans f i = t at h₂ ⊢
    have h₃ : HasDelays D (t.setTxWindow f
        { (t.txWindow f).setNode i { (t.txWindow f).dataNode i with
            transState := .sacked, toRetrans := u32 (t.time + if f = 0 then 10 else 6) } with
          retransCnt := u16 ((t.txWindow f).retransCnt + 1) }) := h₂.congr rfl
    exact h₃.setSchdPara rfl
  · exact h₁

theorem HasDelays.sackBlockNode (h : HasDelays D u) (f i : ℕ) :
    HasDelays D (u.sackBlockNode f i) := by
  rw [UserInfo.sackBlockNode]
  dsimp only
  split
  · exact h
  split
  · exact h
  · refine HasDelays.countConfirmed ?_ f
    exact (h.schdRTTFlowUpdate f i).congr rfl

theorem HasDelays.sackBlock {s t : UserInfo × ℕ} {l r : ℕ} (h : HasDelays D s.1)
    (hs : UserInfo.sackBlock f s l r = some t) : HasDelays D t.1 := by
  rw [UserInfo.sackBlock] at hs
  split at hs
  · obtain ⟨s', hgap, hs⟩ := Option.bind_eq_some_iff.mp hs
    have h' : HasDelays D s'.1 := by
      refine (whileLoop_inv (fun s : UserInfo × ℕ => HasDelays D s.1)
        (fun a a' ha _ hbody => ?_) h hgap).1
      cases hbody
      exact ha.sackGapNode f _
    split at hs
    · refine (whileLoop_inv (fun s : UserInfo × ℕ => HasDelays D s.1)
        (fun a a' ha _ hbody => ?_) h' hs).1
      cases hbody
      exact ha.sackBlockNode f _
    · cases hs
      exact h'
  · cases hs
    exact h

theorem HasDelays.parserSACK {m : Msg} {ack : ℕ} (h : HasDelays D u)
    (hp : u.parserSACK f m ack = some v) : HasDelays D v := by
  rw [UserInfo.parserSACK] at hp
  split at hp
  · cases hp
    exact h
  dsimp only at hp
  split at hp
  · cases hp
    exact h.congr rfl
  split at hp
  · cases hp
    exact h.congr rfl
  · obtain ⟨s, hs, rfl⟩ := Option.map_eq_some_iff.mp hp
    refine HasDelays.moveSsnEnd ?_ f _
    have hfold : ∀ (is : List ℕ) (l r : ℕ → ℕ) (s t : UserInfo × ℕ), HasDelays D s.1 →
        is.foldlM (fun s i => UserInfo.sackBlock f s (l i) (r i)) s = some t → HasDelays D t.1 := by
      intro is l r s t hs ht
      induction is generalizing s with
      | nil =>
        cases ht
        exact hs
      | cons i is ih =>
        rw [List.foldlM_cons] at ht
        obtain ⟨s', hs', ht⟩ := Option.bind_eq_some_iff.mp ht
        exact ih s' (hs.sackBlock hs') ht
    exact hfold _ _ _ _ _ (h.congr rfl) hs

theorem HasDelays.doParseMPData {m : Msg} (h : HasDelays D u) (hp : u.doParseMPData m = some v) :
    HasDelays D v := by
  rw [UserInfo.doParseMPData] at hp
  dsimp only at hp
  have h₁ : HasDelays D (if m.header.flag = 0x55 then (u.emit (m.headReads [0, 1])).emit
      [.access (.flow m.header.stream)] else u.emit (m.headReads [0, 1])) := by
    split <;> exact h.congr rfl
  generalize (if m.header.flag = 0x55 then (u.emit (m.headReads [0, 1])).emit
    [.access (.flow m.header.stream)] else u.emit (m.headReads [0, 1])) = s at h₁ hp
  split at hp
  · cases hp
    exact h₁.congr rfl
  have h₂ : HasDelays D { s.emit (m.headReads [2, 3, 4, 5, 6, 7]) with
      lastPackageTime := u32 (s.time + 6000) } := h₁.congr rfl
  generalize ({ s.emit (m.headReads [2, 3, 4, 5, 6, 7]) with
    lastPackageTime := u32 (s.time + 6000) } : UserInfo) = t at h₂ hp
  split at hp
  · -- a datagram without data
    rw [parseAck] at hp
    have h₃ : HasDelays D (t.emit [.access (.sub m.node.mpdHeadLen 12)]) := h₂.congr rfl
    have h₄ : HasDelays D ((t.emit [.access (.sub m.node.mpdHeadLen 12)]).emit
      (m.headReads [14])) := h₃.congr rfl
    obtain ⟨w, hw, rfl⟩ := Option.map_eq_some_iff.mp hp
    have hw' : HasDelays D w := by
      split at hw
      · obtain ⟨s', hs', hw⟩ := Option.bind_eq_some_iff.mp hw
        exact (h₄.processACK hs').parserSACK hw
      · exact h₃.processACK hw
    exact hw'.congr rfl
  · obtain ⟨s', hs', hp⟩ := Option.bind_eq_some_iff.mp hp
    exact (HasDelays.rxFree D).parseData (h₂.processACK hs') hp

/-! ### Timers and indications -/

theorem HasDelays.writer (D : ℕ → ℕ) : AckWriter (fun _ => True) (HasDelays D) where
  count _ _ h := h.congr rfl
  stamp _ _ h := h.congr rfl
  sentAck _ _ _ _ h := h.congr rfl
  message u ack sack f first _ h := by
    refine h.congr ?_
    rw [subWinSendSackPacketMsg]
    dsimp only
    split <;> rfl

theorem HasDelays.sackPeriodSend (h : HasDelays D u) : HasDelays D u.sackPeriodSend :=
  (HasDelays.writer D).sackPeriodSend (fun _ _ _ _ => trivial) h

theorem HasDelays.clearDataWin (h : HasDelays D u) (hc : u.clearDataWin = some v) : HasDelays D v :=
  (HasDelays.rxFree D).frame.clearDataWin h hc

theorem HasDelays.multipathInd (h : HasDelays D u) (hp : u.multipathInd = some v) :
    HasDelays D v := by
  have hflow : ∀ (s : UserInfo) (i : ℕ), HasDelays D s → HasDelays D (s.clearValidFlow i) := by
    intro s i hs
    rw [clearValidFlow]
    split
    · exact (hs.clearTxWin i).congr rfl
    · exact hs
  rw [UserInfo.multipathInd] at hp
  obtain ⟨w, hw, rfl⟩ := Option.map_eq_some_iff.mp hp
  obtain ⟨w', hw', rfl⟩ := Option.map_eq_some_iff.mp hw
  have h₁ := hflow _ 2 (hflow _ 1 (hflow u 0 h))
  exact (h₁.clearDataWin hw').congr rfl

theorem HasDelays.shutDown {isChange flagOld : Bool} (h : HasDelays D u)
    (hp : u.shutDown f isChange flagOld = some v) : HasDelays D v := by
  have h₁ : HasDelays D ((u.clearTxWin f).clearSubWin f) := (h.clearTxWin f).congr rfl
  have h₂ : HasDelays D (((u.clearTxWin f).clearSubWin f).changeDataWinFlowId f) :=
    (HasDelays.rxFree D).changeFlowIdFrom h₁ f _ _
  rw [UserInfo.shutDown] at hp
  generalize ((u.clearTxWin f).clearSubWin f).changeDataWinFlowId f = s at h₂ hp
  split at hp
  · obtain ⟨w, hw, rfl⟩ := Option.map_eq_some_iff.mp hp
    have h₃ : HasDelays D w := by
      split at hw
      · cases hw
        exact h₂
      · obtain ⟨w', hw', rfl⟩ := Option.map_eq_some_iff.mp hw
        exact (h₂.clearDataWin hw').congr rfl
    split
    · exact h₃
    · exact h₃.congr rfl
  · cases hp
    exact h₂

theorem HasDelays.doSubFlowStateInd {deviceId state : ℕ} (h : HasDelays D u)
    (hp : u.doSubFlowStateInd deviceId state = some v) : HasDelays D v := by
  rw [UserInfo.doSubFlowStateInd] at hp
  split at hp
  · exact h.multipathInd hp
  split at hp
  · cases hp
    exact h
  next f _ =>
  have h₁ : HasDelays D (u.schdSetFlowValid f (decide (state = 3))) := h.setSchdPara rfl
  obtain ⟨w, hw, rfl⟩ := Option.map_eq_some_iff.mp hp
  have h₂ : HasDelays D w := by
    split at hw
    · cases hw
      exact h₁
    · exact h₁.shutDown hw
  exact h₂.congr rfl

end UserInfo

end Mpd

end AndroidVendor
