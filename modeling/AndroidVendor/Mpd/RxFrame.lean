import AndroidVendor.Mpd.Receive

/-!
# What the receive side does beside its data window

Outside of `rxDataWin` and the log the operations of the data window do two things only: they set
`dataWinSSN` of a sub window when a packet of it is handed over, and they move `RxBegin` of the sub
windows up to it. Whatever survives these two survives every operation. In the log they leave
nothing that hands a packet to a queue.

`Q` says which subflows may be concerned.

## Main results

* `RxFrame` — the two things, with a rule for each operation of the data window; `RxBlind` is enough
  for those that do neither
* `RxFree` — for what does not look at the receive side at all, the rule for a packet that is stored
-/

namespace AndroidVendor

namespace Mpd

open Loop UserInfo

/-- What the receive side asks for. -/
def Action.OfRx : Action → Prop
  | .send .. => False
  | .freeResend .. => False
  | _ => True

/-- Only the data window and the log are different. -/
structure RxOnly (u v : UserInfo) : Prop where
  rxSubWin : v.rxSubWin = u.rxSubWin
  txWindow : v.txWindow = u.txWindow
  schdPara : v.schdPara = u.schdPara
  time : v.time = u.time
  sendSackTime : v.sendSackTime = u.sendSackTime
  out : ∃ as, v.out = u.out ++ as ∧ ∀ a ∈ as, a.OfRx

theorem RxOnly.silent {u v : UserInfo} (hs : v.rxSubWin = u.rxSubWin) (hw : v.txWindow = u.txWindow)
    (hp : v.schdPara = u.schdPara) (ht : v.time = u.time) (hst : v.sendSackTime = u.sendSackTime)
    (ho : v.out = u.out) : RxOnly u v :=
  ⟨hs, hw, hp, ht, hst, [], by rw [ho, List.append_nil], fun _ ha => absurd ha List.not_mem_nil⟩

theorem rxOnly_emit (u : UserInfo) {as : List Action} (h : ∀ a ∈ as, a.OfRx) :
    RxOnly u (u.emit as) :=
  ⟨rfl, rfl, rfl, rfl, rfl, as, rfl, h⟩

namespace RxDataWinNode

variable {n : RxDataWinNode} {a : Action}

theorem ofRx_postHead {site : PostSite} (h : a ∈ n.postHead site) : a.OfRx := by
  obtain ⟨m, -, rfl⟩ := List.mem_map.mp h
  trivial

theorem ofRx_postMerged {mem : Option ℕ} (h : a ∈ n.postMerged mem) : a.OfRx := by
  rw [postMerged.eq_def] at h
  rcases List.mem_cons.mp h with rfl | h
  · trivial
  rcases List.mem_cons.mp h with rfl | h
  · trivial
  split at h
  · rw [List.mem_singleton.mp h]
    trivial
  · exact absurd h List.not_mem_nil

theorem ofRx_checkReads {m : Msg} (h : a ∈ n.checkReads m) : a.OfRx := by
  rw [checkReads] at h
  split at h
  · obtain ⟨i, -, rfl⟩ := List.mem_map.mp h
    trivial
  · rw [List.mem_singleton.mp h]
    trivial

end RxDataWinNode

theorem ofRx_frees {ms : List Msg} {a : Action} (h : a ∈ ms.map Action.free) : a.OfRx := by
  obtain ⟨m, -, rfl⟩ := List.mem_map.mp h
  trivial

/-- `P` does not look at the data window, nor for what the receive side asks. -/
structure RxBlind (P : UserInfo → Prop) : Prop where
  congr : ∀ u v, P u → RxOnly u v → P v

/-- Nor do the two things that are done to the sub windows of subflows of `Q` break it. -/
structure RxFrame (Q : ℕ → Prop) (P : UserInfo → Prop) : Prop extends RxBlind P where
  flow : ∀ u i, P u → schdGetFlowValid u i = true → Q i
  posted : ∀ u i ssn, P u → Q i →
    P (u.setRxSubWin i { u.rxSubWin i with dataWinSSN := ssnPlus ssn })
  drive : ∀ u i w, P u → Q i → (u.rxSubWin i).followDataWin = some w → P (u.setRxSubWin i w)

/-! ### What stays inside the data window -/

namespace RxBlind

variable {P : UserInfo → Prop} {u : UserInfo}

theorem emit (hP : RxBlind P) (h : P u) {as : List Action} (has : ∀ a ∈ as, a.OfRx) :
    P (u.emit as) :=
  hP.congr u _ h (rxOnly_emit u has)

theorem ask (hP : RxBlind P) (h : P u) {a : Action} (ha : a.OfRx) : P (u.emit [a]) :=
  hP.emit h fun _ hb => List.mem_singleton.mp hb ▸ ha

theorem silent {v : UserInfo} (hP : RxBlind P) (h : P u) (hs : v.rxSubWin = u.rxSubWin)
    (hw : v.txWindow = u.txWindow) (hp : v.schdPara = u.schdPara) (ht : v.time = u.time)
    (hst : v.sendSackTime = u.sendSackTime) (ho : v.out = u.out) : P v :=
  hP.congr u v h (.silent hs hw hp ht hst ho)

theorem setRxDataWinNode (hP : RxBlind P) (h : P u) (i : ℕ) (n : RxDataWinNode) :
    P (u.setRxDataWinNode i n) :=
  hP.silent h rfl rfl rfl rfl rfl rfl

theorem dataWinForceMove (hP : RxBlind P) (h : P u) : P u.dataWinForceMove := by
  rw [UserInfo.dataWinForceMove]
  split
  · exact hP.silent h rfl rfl rfl rfl rfl rfl
  · have hfree : P (u.dataWinFreeMsgPtr u.rxDataWin.rxBegin) := hP.emit h fun _ => ofRx_frees
    exact hP.silent hfree rfl rfl rfl rfl rfl rfl
  · exact h

theorem dataWinPutInNode (hP : RxBlind P) (h : P u) (index : ℕ) (node : MPDNodeInfo) :
    P (u.dataWinPutInNode index node) := by
  have hask := hP.ask h (show (Action.access (.frag node.fragIndex)).OfRx from trivial)
  rw [UserInfo.dataWinPutInNode]
  dsimp only
  split <;> exact hP.silent hask rfl rfl rfl rfl rfl rfl

theorem dataWinTimeOutScan (hP : RxBlind P) (h : P u) (cnt i : ℕ) :
    P (dataWinTimeOutScan cnt i u).1 := by
  induction cnt generalizing i u with
  | zero => exact h
  | succ cnt ih =>
    rw [UserInfo.dataWinTimeOutScan]
    dsimp only
    split
    · split
      · exact ih (hP.setRxDataWinNode h _ _) _
      · exact h
    · exact ih h _

theorem changeFlowIdFrom (hP : RxBlind P) (h : P u) (f cnt i : ℕ) :
    P (changeFlowIdFrom f cnt i u) := by
  induction cnt generalizing i u with
  | zero => exact h
  | succ cnt ih =>
    rw [UserInfo.changeFlowIdFrom]
    refine ih ?_ _
    split
    · exact hP.silent h rfl rfl rfl rfl rfl rfl
    · exact h

theorem checkAckNode (hP : RxBlind P) (h : P u) (i : ℕ) : P (u.checkAckNode i) := by
  rw [UserInfo.checkAckNode]
  dsimp only
  split
  · exact h
  split
  · exact hP.silent h rfl rfl rfl rfl rfl rfl
  · next m _ =>
    have hreads : P (u.emit ((u.rxDataWin.win i).checkReads m)) :=
      hP.emit h fun _ => RxDataWinNode.ofRx_checkReads
    split
    · refine hP.emit ?_ fun _ => RxDataWinNode.ofRx_postHead
      exact hP.silent hreads rfl rfl rfl rfl rfl rfl
    · exact hP.silent hreads rfl rfl rfl rfl rfl rfl

theorem checkAckFrom (hP : RxBlind P) (h : P u) (cnt i : ℕ) : P (checkAckFrom cnt i u) := by
  induction cnt generalizing i u with
  | zero => exact h
  | succ cnt ih => exact ih (hP.checkAckNode h i) _

theorem checkAck (hP : RxBlind P) (h : P u) : P u.checkAck := by
  rw [UserInfo.checkAck]
  split
  · have h₁ := hP.checkAckFrom h u.nodeCnt u.rxDataWin.rxBegin
    exact hP.silent h₁ rfl rfl rfl rfl rfl rfl
  · exact h

end RxBlind

namespace RxFrame

variable {Q : ℕ → Prop} {P : UserInfo → Prop} {u v : UserInfo}

/-! ### Moving the window -/

theorem noteDataWinSSN (hP : RxFrame Q P) (h : P u) (n : RxDataWinNode) : P (u.noteDataWinSSN n) := by
  rw [UserInfo.noteDataWinSSN]
  dsimp only
  have hemit := hP.ask h (show (Action.access (.flow n.stream)).OfRx from trivial)
  split
  · next hvalid => exact hP.posted _ _ _ hemit (hP.flow _ _ hemit hvalid)
  · exact hemit

theorem dataWinHeadOut (hP : RxFrame Q P) (h : P u) : P u.dataWinHeadOut := by
  rw [UserInfo.dataWinHeadOut]
  dsimp only
  suffices hout : ∀ v, P v → P (v.setDataWinBegin (dataWinPlus v.rxDataWin.rxBegin)) by
    refine hout _ ?_
    split
    · split
      · refine hP.noteDataWinSSN ?_ _
        split
        · exact hP.emit h fun _ => RxDataWinNode.ofRx_postHead
        · exact h
      · split
        · have hmem : P (msgMemCreat u).2 := hP.silent h rfl rfl rfl rfl rfl rfl
          have hpost : P ((msgMemCreat u).2.emit
              (u.rxDataWin.beginNode.postMerged (msgMemCreat u).1)) :=
            hP.emit hmem fun _ => RxDataWinNode.ofRx_postMerged
          exact hP.emit (hP.noteDataWinSSN hpost _) fun _ => ofRx_frees
        · exact h
    · exact hP.emit h fun _ => ofRx_frees
  exact fun v hv => hP.silent hv rfl rfl rfl rfl rfl rfl

theorem driveSubWins (hP : RxFrame Q P) (h : P u) (hd : u.driveSubWins = some v) : P v := by
  rw [UserInfo.driveSubWins] at hd
  generalize [0, 1, 2] = l at hd
  induction l generalizing u with
  | nil =>
    cases hd
    exact h
  | cons i l ih =>
    rw [List.foldlM_cons] at hd
    obtain ⟨s, hs, hd⟩ := Option.bind_eq_some_iff.mp hd
    refine ih ?_ hd
    split at hs
    · next hvalid =>
      obtain ⟨w, hw, rfl⟩ := Option.map_eq_some_iff.mp hs
      exact hP.drive u i w h (hP.flow u i h hvalid) hw
    · cases hs
      exact h

theorem dataWinRxBeginMove {force : Bool} (hP : RxFrame Q P) (h : P u)
    (hm : u.dataWinRxBeginMove force = some v) : P v := by
  obtain ⟨s, hs, hm⟩ := Option.bind_eq_some_iff.mp hm
  refine hP.driveSubWins ?_ hm
  refine (whileLoop_inv P (fun a a' ha _ hbody => ?_) ?_ hs).1
  · cases hbody
    exact hP.dataWinHeadOut ha
  · split
    · exact hP.dataWinForceMove h
    · exact h

theorem dataWinRxNextMove (hP : RxFrame Q P) (h : P u) (hm : u.dataWinRxNextMove = some v) : P v := by
  obtain ⟨s, hs, rfl⟩ := Option.map_eq_some_iff.mp hm
  have hnext : P (u.setDataWinNext (dataWinPlus u.rxDataWin.rxNext)) :=
    hP.silent h rfl rfl rfl rfl rfl rfl
  have hs' : P s := by
    split at hs
    · exact hP.dataWinRxBeginMove hnext hs
    · cases hs
      exact hnext
  exact hP.silent hs' rfl rfl rfl rfl rfl rfl

/-! ### A packet arrives -/

theorem dataWinPlace (hP : RxFrame Q P) (h : P u) {node : MPDNodeInfo} (hQ : Q node.stream)
    {r : UserInfo × Bool} (hr : u.dataWinPlace node = some r) : P r.1 := by
  have hrefuse : ∀ k, P (u.dataWinRefuse node k) := fun k =>
    hP.silent (hP.ask h (show (Action.free node.msgPtr).OfRx from trivial)) rfl rfl rfl rfl rfl rfl
  rw [UserInfo.dataWinPlace] at hr
  dsimp only at hr
  split at hr
  · split at hr
    · cases hr
      refine hP.posted _ _ _ (hP.ask h ?_) hQ
      trivial
    · cases hr
      exact hrefuse _
  split at hr
  · split at hr
    · cases hr
      exact hrefuse _
    · obtain ⟨t, ht, rfl⟩ := Option.map_eq_some_iff.mp hr
      obtain ⟨s, hs, ht⟩ := Option.bind_eq_some_iff.mp ht
      have h₁ : P s := by
        refine (whileLoop_inv P (fun a a' ha _ hbody => ?_) h hs).1
        exact hP.dataWinRxNextMove (hP.setRxDataWinNode ha _ _) hbody
      have h₂ : P t := hP.dataWinRxNextMove (hP.dataWinPutInNode h₁ _ node) ht
      exact hP.silent h₂ rfl rfl rfl rfl rfl rfl
  · split at hr
    · cases hr
      exact hrefuse _
    · cases hr
      have h₁ := hP.dataWinPutInNode h (node.dsn % 4096) node
      exact hP.silent h₁ rfl rfl rfl rfl rfl rfl

theorem dataWinAddNode (hP : RxFrame Q P) (h : P u) {node : MPDNodeInfo} (hQ : Q node.stream)
    {r : UserInfo × Bool} (hr : u.dataWinAddNode node = some r) : P r.1 := by
  obtain ⟨r', hr', rfl⟩ := Option.map_eq_some_iff.mp hr
  have h₁ : P (if u.rxDataWin.looksClear then u.dataWinAnchor node else u) := by
    split
    · exact hP.silent h rfl rfl rfl rfl rfl rfl
    · exact h
  have h₂ : P r'.1 := hP.dataWinPlace h₁ hQ hr'
  change P r'.1.reportDsnErr
  rw [reportDsnErr]
  split
  · have hask := hP.ask h₂ (show (Action.exception 0 (-4)).OfRx from trivial)
    exact hP.silent hask rfl rfl rfl rfl rfl rfl
  · exact h₂

/-! ### Timers and clears -/

theorem dataWinTimeOutCheck (hP : RxFrame Q P) (h : P u) (ht : u.dataWinTimeOutCheck = some v) :
    P v := by
  rw [UserInfo.dataWinTimeOutCheck] at ht
  have h₁ := hP.dataWinTimeOutScan h u.nodeCnt u.rxDataWin.rxBegin
  split at ht
  · exact hP.dataWinRxBeginMove h₁ ht
  · cases ht
    exact h₁

theorem clearDataWin (hP : RxFrame Q P) (h : P u) (hc : u.clearDataWin = some v) : P v := by
  obtain ⟨s, hs, rfl⟩ := Option.map_eq_some_iff.mp hc
  have h₁ : P s :=
    (whileLoop_inv P (fun a a' ha _ hbody => hP.dataWinRxBeginMove ha hbody) h hs).1
  exact hP.silent h₁ rfl rfl rfl rfl rfl rfl

end RxFrame

/-! ### A packet is stored -/

/-- `P` does not look at the sub windows either. -/
structure RxFree (P : UserInfo → Prop) : Prop extends RxBlind P where
  sub : ∀ u i w, P u → P (u.setRxSubWin i w)

namespace RxFree

variable {P : UserInfo → Prop} {u v : UserInfo}

theorem frame (hP : RxFree P) : RxFrame (fun _ => True) P where
  toRxBlind := hP.toRxBlind
  flow _ _ _ _ := trivial
  posted u i _ h _ := hP.sub u i _ h
  drive u i w h _ _ := hP.sub u i w h

theorem parseData (hP : RxFree P) (h : P u) {m : Msg} (hp : u.parseData m = some v) : P v := by
  rw [UserInfo.parseData] at hp
  split at hp
  · cases hp
    exact hP.ask h trivial
  · obtain ⟨r, hr, hp⟩ := Option.bind_eq_some_iff.mp hp
    have h₁ : P r.1 := hP.frame.dataWinAddNode h trivial hr
    split at hp
    · exact hP.frame.dataWinRxBeginMove (hP.sub _ _ _ h₁) hp
    · cases hp
      exact h₁

end RxFree

end Mpd

end AndroidVendor
