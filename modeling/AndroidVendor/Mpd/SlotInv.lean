import AndroidVendor.Mpd.Delivery

/-!
# What every slot of the ring satisfies

The ring has more slots than the window, and a window that looks clear is moved to a slot that is
not wiped first. So what the slots outside the window still hold matters. A slot gets its packets in
one place, `MPD_DataWinPutInNode`; from then on the code marks it, and wipes it when `RxNext` comes
to it. What a stored packet leaves true, and no mark changes, holds of every slot of every session.

## Main results

* `SlotInv.step`, `SlotInv.guarded` — the rule for a step, and for a run
-/

namespace AndroidVendor

namespace Mpd

open Loop Machine UserInfo

/-- A property of slots that does not look at clocks, marks and numbers, and that storing a packet
with the property `Q` keeps. -/
structure SlotInv (Q : MPDNodeInfo → Prop) (S : RxDataWinNode → Prop) : Prop where
  wiped : ∀ dsn, S { dsn := dsn }
  mark : ∀ (n : RxDataWinNode) flag timeOut stream dsn time, S n →
    S { n with flag := flag, timeOut := timeOut, stream := stream, dsn := dsn, time := time }
  put : ∀ (n : RxDataWinNode) node time, S n → Q node → S (n.put node time)

/-- Every slot satisfies `S`, in the window or not. -/
def AllSlots (S : RxDataWinNode → Prop) (u : UserInfo) : Prop := ∀ i, S (u.rxDataWin.win i)

section Slots

variable {Q : MPDNodeInfo → Prop} {S : RxDataWinNode → Prop} {u v : UserInfo} {node : MPDNodeInfo}

theorem AllSlots.congr (h : AllSlots S u) (hw : v.rxDataWin.win = u.rxDataWin.win) :
    AllSlots S v := by
  intro i
  rw [hw]
  exact h i

theorem AllSlots.setNode (h : AllSlots S u) (i : ℕ) {n : RxDataWinNode} (hn : S n) :
    AllSlots S (u.setRxDataWinNode i n) := by
  intro j
  show S (Function.update u.rxDataWin.win i n j)
  rw [Function.update_apply]
  split
  · exact hn
  · exact h j

namespace SlotInv

/-! ### A packet arrives -/

theorem dataWinRxNextMove (hS : SlotInv Q S) (h : AllSlots S u)
    (hm : u.dataWinRxNextMove = some v) : AllSlots S v := by
  obtain ⟨s, hs, rfl⟩ := Option.map_eq_some_iff.mp hm
  refine AllSlots.setNode ?_ _ (hS.wiped _)
  split at hs
  · exact h.congr (dataWinRxBeginMove_win hs).1
  · cases hs
    exact h

theorem dataWinPutInNode (hS : SlotInv Q S) (h : AllSlots S u) (hQ : Q node) (i : ℕ) :
    AllSlots S (u.dataWinPutInNode i node) := by
  have hput : AllSlots S (u.setRxDataWinNode i ((u.rxDataWin.win i).put node u.time)) :=
    h.setNode i (hS.put _ node _ (h i) hQ)
  rw [UserInfo.dataWinPutInNode]
  dsimp only
  split <;> exact hput.congr rfl

theorem dataWinExtend (hS : SlotInv Q S) (h : AllSlots S u) {dsn : ℕ}
    (he : UserInfo.dataWinExtend dsn u = some v) : AllSlots S v := by
  refine (whileLoop_inv (AllSlots S) (fun a a' ha _ hbody => ?_) h he).1
  exact hS.dataWinRxNextMove (ha.setNode _ (hS.mark _ _ _ _ _ _ (ha _))) hbody

theorem dataWinPlace (hS : SlotInv Q S) (h : AllSlots S u) (hQ : Q node) {r : UserInfo × Bool}
    (hr : u.dataWinPlace node = some r) : AllSlots S r.1 := by
  rw [UserInfo.dataWinPlace] at hr
  dsimp only at hr
  split at hr
  · split at hr <;> cases hr <;> exact h.congr rfl
  split at hr
  · split at hr
    · cases hr
      exact h.congr rfl
    · obtain ⟨t, ht, rfl⟩ := Option.map_eq_some_iff.mp hr
      obtain ⟨s, hs, ht⟩ := Option.bind_eq_some_iff.mp ht
      have hput := hS.dataWinPutInNode (hS.dataWinExtend h hs) hQ s.rxDataWin.rxNext
      exact (hS.dataWinRxNextMove hput ht).congr rfl
  · split at hr
    · cases hr
      exact h.congr rfl
    · cases hr
      exact (hS.dataWinPutInNode h hQ _).congr rfl

theorem dataWinAddNode (hS : SlotInv Q S) (h : AllSlots S u) (hQ : Q node) {r : UserInfo × Bool}
    (hr : u.dataWinAddNode node = some r) : AllSlots S r.1 := by
  obtain ⟨r', hr', rfl⟩ := Option.map_eq_some_iff.mp hr
  have h₁ : AllSlots S (if u.rxDataWin.looksClear then u.dataWinAnchor node else u) := by
    split
    · -- the slot the window is moved to keeps what it held
      exact AllSlots.setNode h _ (hS.mark _ _ _ _ _ _ (h _))
    · exact h
  refine (hS.dataWinPlace h₁ hQ hr').congr ?_
  show r'.1.reportDsnErr.rxDataWin.win = r'.1.rxDataWin.win
  rw [reportDsnErr]
  split <;> rfl

theorem parseData (hS : SlotInv Q S) (h : AllSlots S u) {m : Msg} (hQ : Q m.node)
    (hp : u.parseData m = some v) : AllSlots S v := by
  rw [UserInfo.parseData] at hp
  split at hp
  · cases hp
    exact h.congr rfl
  obtain ⟨r, hr, hp⟩ := Option.bind_eq_some_iff.mp hp
  have hrS := hS.dataWinAddNode h hQ hr
  split at hp
  · exact hrS.congr (dataWinRxBeginMove_win hp).1
  · cases hp
    exact hrS

/-! ### Timers and clears -/

theorem dataWinTimeOutScan (hS : SlotInv Q S) (h : AllSlots S u) (cnt i : ℕ) :
    AllSlots S (UserInfo.dataWinTimeOutScan cnt i u).1 := by
  induction cnt generalizing i u with
  | zero => exact h
  | succ cnt ih =>
    rw [UserInfo.dataWinTimeOutScan]
    dsimp only
    split
    · split
      · exact ih (h.setNode i (hS.mark _ _ _ _ _ _ (h i))) _
      · exact h
    · exact ih h _

theorem dataWinTimeOutCheck (hS : SlotInv Q S) (h : AllSlots S u)
    (ht : u.dataWinTimeOutCheck = some v) : AllSlots S v := by
  have hscan := hS.dataWinTimeOutScan h u.nodeCnt u.rxDataWin.rxBegin
  rw [UserInfo.dataWinTimeOutCheck] at ht
  split at ht
  · exact hscan.congr (dataWinRxBeginMove_win ht).1
  · cases ht
    exact hscan

theorem changeFlowIdFrom (hS : SlotInv Q S) (h : AllSlots S u) (f cnt i : ℕ) :
    AllSlots S (UserInfo.changeFlowIdFrom f cnt i u) := by
  induction cnt generalizing i u with
  | zero => exact h
  | succ cnt ih =>
    rw [UserInfo.changeFlowIdFrom]
    refine ih ?_ _
    split
    · exact h.setNode i (hS.mark _ _ _ _ _ _ (h i))
    · exact h

theorem checkAckNode (hS : SlotInv Q S) (h : AllSlots S u) (i : ℕ) :
    AllSlots S (u.checkAckNode i) := by
  have hmark : ∀ flag, S { u.rxDataWin.win i with flag := flag } :=
    fun flag => hS.mark _ flag _ _ _ _ (h i)
  rw [UserInfo.checkAckNode]
  dsimp only
  split
  · exact h
  split
  · exact h.setNode i (hmark _)
  · split
    · exact (h.setNode i (hmark .sended)).congr rfl
    · exact (h.setNode i (hmark .checked)).congr rfl

theorem checkAckFrom (hS : SlotInv Q S) (h : AllSlots S u) (cnt i : ℕ) :
    AllSlots S (UserInfo.checkAckFrom cnt i u) := by
  induction cnt generalizing i u with
  | zero => exact h
  | succ cnt ih => exact ih (hS.checkAckNode h i) _

theorem checkAck (hS : SlotInv Q S) (h : AllSlots S u) : AllSlots S u.checkAck := by
  rw [UserInfo.checkAck]
  split
  · exact (hS.checkAckFrom h u.nodeCnt u.rxDataWin.rxBegin).congr rfl
  · exact h

theorem clearDataWin (hS : SlotInv Q S) (hc : u.clearDataWin = some v) : AllSlots S v := by
  obtain ⟨s, -, rfl⟩ := Option.map_eq_some_iff.mp hc
  exact fun _ => hS.wiped 0

/-! ### The session -/

/-- **The rule.** Every step of the session, if a datagram that arrives has the property `Q`. `F`
are the addresses the transmit side uses. -/
theorem step {F : ℕ → Prop} {op : Op} (hS : SlotInv Q S) (h : AllSlots S u) (own : Own F u)
    (htx : TxOk u) (hrecv : ∀ m, op = .recv m → Q m.node)
    (hsend : ∀ flowId data length, op = .send flowId data length →
      F data.addr ∧ UserInfo.FreshAllocs F u)
    (hs : op.step u = some v) : AllSlots S v := by
  have htxSide : TxSide F (fun _ => True) u v → AllSlots S v :=
    fun hside => h.congr (by rw [hside.rxDataWin])
  cases op with
  | recv m =>
    obtain ⟨s, hstep, hcases⟩ := doParseMPData_cases (B := fun _ => True) htx (fun _ _ => trivial) hs
    have hs₁ : AllSlots S s := h.congr (by rw [hstep.rxDataWin])
    rcases hcases with rfl | ⟨-, -, hp⟩
    · exact hs₁.congr rfl
    · exact hS.parseData hs₁ (hrecv m rfl) hp
  | dataWinTimeOutCheck => exact hS.dataWinTimeOutCheck h hs
  | checkAck =>
    cases hs
    exact hS.checkAck h
  | sackPeriodSend =>
    cases hs
    exact htxSide (txSide_sackPeriodSend own)
  | txWinRetransCheck =>
    cases hs
    exact htxSide ((TxStep.txWinRetransCheck u).side own)
  | send flowId data length =>
    cases hs
    obtain ⟨hdata, hfresh⟩ := hsend flowId data length rfl
    exact htxSide (txSide_doSendNewTransData own (flowId.map (·.val)) hdata hfresh length)
  | clearTxWin flowId =>
    cases hs
    exact htxSide ((TxStep.clearTxWin u flowId).side own)
  | changeDataWinFlowId flowId =>
    cases hs
    exact hS.changeFlowIdFrom h _ _ _
  | clearDataWin => exact hS.clearDataWin hs
  | _ =>
    cases hs
    exact h.congr rfl

/-- Every step of a run from a cleared session finds slots that satisfy `S`. -/
theorem guarded {F : ℕ → Prop} {C : List Op → UserInfo → Op → Prop} {u₀ : UserInfo} {ops : List Op}
    (hS : SlotInv Q S) (hrecv : ∀ past u m, C past u (.recv m) → Q m.node)
    (hsend : ∀ past u flowId data length, C past u (.send flowId data length) →
      F data.addr ∧ UserInfo.FreshAllocs F u)
    (h : Guarded Op.step C u₀.cleared ops u) :
    Guarded Op.step (fun past u op => C past u op ∧ AllSlots S u) u₀.cleared ops u := by
  have hinv : Guarded Op.step (fun past u op => C past u op ∧
      ((∃ T, AtRest u T) ∧ Own F u ∧ TxOk u ∧ AllSlots S u)) u₀.cleared ops u := by
    refine h.and_inv (I := fun _ u => (∃ T, AtRest u T) ∧ Own F u ∧ TxOk u ∧ AllSlots S u)
      (fun past op u v hI hC hs => ?_) ⟨⟨_, atRest_cleared u₀⟩, ?_, ?_, fun _ => hS.wiped 0⟩
    · obtain ⟨⟨T, hT⟩, own, htx, hslots⟩ := hI
      have hsend' : ∀ flowId data length, op = .send flowId data length →
          F data.addr ∧ UserInfo.FreshAllocs F u :=
        fun flowId data length hop => hsend past u flowId data length (hop ▸ hC)
      have hlabel : ∀ m, op = .recv m → u.Accepts m → u.rxDataWin.looksClear →
          op.label (fun m => m.header.dsn) % 65536 = m.header.dsn := by
        rintro m rfl - -
        exact Nat.mod_eq_of_lt (m.word_lt 2)
      obtain ⟨T', hT', -, own', htx'⟩ := step_tape hT own htx (Op.fits_of_send hsend') hlabel hs
      exact ⟨⟨T', hT'⟩, own', htx',
        hS.step hslots own htx (fun m hm => hrecv past u m (hm ▸ hC)) hsend' hs⟩
    · rintro m ⟨f, i, hm⟩
      cases hm
    · exact fun _ => ⟨0, 0, TxWin.spans_clear⟩
  exact hinv.mono fun _ _ _ hC => ⟨hC.1, hC.2.2.2.2⟩

end SlotInv

end Slots

end Mpd

end AndroidVendor
