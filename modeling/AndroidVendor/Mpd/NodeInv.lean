import AndroidVendor.Mpd.AckFrame
import AndroidVendor.Mpd.SackRun

/-!
# What every node of a session satisfies

A node gets its data in one place, `MPD_putDataToTxWin`. From then on the code changes its state and
its time-out, and takes its data away. What holds of a node that data was just put in, and does not
look at these two, holds of every node of every session.

## Main results

* `txWinRetransFlow_cases` — what the timer does to a window
* `NodeInv.kept` — the rule
-/

namespace AndroidVendor

namespace Mpd

open Loop TxWin UserInfo

/-- `RETRANS_TO_MC` for subflow 0, `RETRANS_TO_OTHER` for the others. -/
def retransGap (flowId : ℕ) : ℕ := if flowId = 0 then 10 else 6

namespace UserInfo

variable {u v : UserInfo} {f : ℕ}

/-! ### The newest packet -/

/-- The newest packet of subflow `f`, at `i`, is sent again. -/
structure TailResend (f : ℕ) (u : UserInfo) (i : ℕ) (d : Msg) (as : List Action) (v : UserInfo) :
    Prop where
  pTxLast : (u.txWindow f).pTxLast = some i
  started : 0 < (u.txWindow f).timeOutRetCnt
  notDone : (u.txWindow f).timeOutRetCnt < 4
  data : ((u.txWindow f).dataNode i).pData = some d
  nodes : (v.txWindow f).dataNode = Function.update (u.txWindow f).dataNode i
    { (u.txWindow f).dataNode i with
      transState := .sacked
      toRetrans := u32 (u.time + retransGap f) }
  others : ∀ g, g ≠ f → v.txWindow g = u.txWindow g
  pTxBegin : (v.txWindow f).pTxBegin = (u.txWindow f).pTxBegin
  last_eq : (v.txWindow f).pTxLast = (u.txWindow f).pTxLast
  counted : (v.txWindow f).timeOutRetCnt = (u.txWindow f).timeOutRetCnt + 1
  time : v.time = u.time
  out : v.out = u.out ++ as
  sends : ∃ len ok, as = [.send (getDeviceId f) d len false ok]

theorem setTxWindow_self (u : UserInfo) (f : ℕ) : u.setTxWindow f (u.txWindow f) = u := by
  rw [UserInfo.setTxWindow, Function.update_eq_self]

/-- `MPD_TxWinRetransCheck` counts, or sends the newest packet again. -/
theorem txWinRetransFlow_cases (hd : ∀ i, Sound ((u.txWindow f).dataNode i)) :
    (∃ k, (u.txWindow f).timeOutRetCnt ≤ k ∧
        u.txWinRetransFlow f = u.setTxWindow f { u.txWindow f with timeOutRetCnt := k }) ∨
      ∃ i d as, TailResend f u i d as (u.txWinRetransFlow f) := by
  have hnothing : ∀ v, v = u → ∃ k, (u.txWindow f).timeOutRetCnt ≤ k ∧
      v = u.setTxWindow f { u.txWindow f with timeOutRetCnt := k } :=
    fun v hv => ⟨(u.txWindow f).timeOutRetCnt, le_rfl, hv.trans (setTxWindow_self u f).symm⟩
  rw [UserInfo.txWinRetransFlow]
  dsimp only
  split
  · exact .inl (hnothing _ rfl)
  split
  · next hzero => exact .inl ⟨1, by omega, rfl⟩
  next hstarted =>
  split
  · exact .inl (hnothing _ rfl)
  next i hlast =>
  split
  · next hgo =>
    obtain ⟨hstate, hcnt, -⟩ := hgo
    obtain ⟨d, hdata⟩ := Option.ne_none_iff_exists'.mp ((hd i).mp hstate)
    obtain ⟨hist, hwin⟩ := callMPCToRetrans_txWindow u f i
    have hwf : (u.callMPCToRetrans f i).txWindow f = { u.txWindow f with histA := hist } := by
      rw [hwin, Function.update_self]
    have hout : (u.callMPCToRetrans f i).out = u.out ++ [.send (getDeviceId f) d
        ((u.txWindow f).dataNode i).payloadLen false (u.sends 0)] := by
      rw [callMPCToRetrans]
      dsimp only
      rw [hdata]
      rfl
    have htime : (u.callMPCToRetrans f i).time = u.time :=
      (TxStep.callMPCToRetrans (A := fun _ => True) u f i).time
    refine .inr ⟨i, d, _, hlast, by omega, hcnt, hdata, ?_, ?_, ?_, ?_, ?_, htime, hout, _, _,
      rfl⟩
    · rw [txWindow_setTxWindow, hwf, htime]
      rfl
    · intro g hg
      rw [txWindow_setTxWindow_of_ne _ _ hg, hwin, Function.update_of_ne hg]
    · rw [txWindow_setTxWindow, hwf]
      rfl
    · rw [txWindow_setTxWindow, hwf]
      rfl
    · rw [txWindow_setTxWindow, hwf, u16]
      exact Nat.mod_eq_of_lt (show (u.txWindow f).timeOutRetCnt + 1 < 65536 by omega)
  · exact .inl (hnothing _ rfl)

/-! ### The rule -/

/-- A property of nodes that a node gets with its data and keeps as long as it has it. -/
structure NodeInv (I : ℕ → DataNode → Prop) : Prop where
  none : ∀ i d, d.pData = none → I i d
  mark : ∀ i (d : DataNode) state t, I i d → I i { d with transState := state, toRetrans := t }
  put : ∀ (d : DataNode) data time len state x, data.header.ssn = x % 65536 →
    I (x % 1024) { d.put data time len with transState := state }

section NodeInv

variable {I : ℕ → DataNode → Prop}

/-- Every node satisfies `I`. -/
def AllNodes (I : ℕ → DataNode → Prop) (u : UserInfo) : Prop :=
  ∀ f i, I i ((u.txWindow f).dataNode i)

theorem AllNodes.congr (h : AllNodes I u)
    (hw : ∀ f, (v.txWindow f).dataNode = (u.txWindow f).dataNode) : AllNodes I v := by
  intro f i
  rw [hw]
  exact h f i

/-- One node of one window changes. -/
theorem AllNodes.update (h : AllNodes I u) {i : ℕ} {e : DataNode}
    (hnodes : (v.txWindow f).dataNode = Function.update (u.txWindow f).dataNode i e)
    (hoth : ∀ g, g ≠ f → v.txWindow g = u.txWindow g) (he : I i e) : AllNodes I v := by
  intro g j
  by_cases hg : g = f
  · subst hg
    rw [hnodes, Function.update_apply]
    split
    · next heq => exact heq ▸ he
    · exact h g j
  · rw [hoth g hg]
    exact h g j

/-- What a datagram does to the window of its subflow. -/
theorem NodeInv.frame (hI : NodeInv I) (f : ℕ) :
    SackFrame f fun u => (∀ i, Sound ((u.txWindow f).dataNode i)) ∧ AllNodes I u where
  counts u v h hc := by
    refine ⟨fun i => ?_, h.2.congr fun g => (hc.windows g).nodes⟩
    rw [(hc.windows f).nodes]
    exact h.1 i
  sound u i h := h.1 i
  gives u i e v h he hsound hr := by
    refine ⟨fun j => ?_, h.2.update hr.nodes hr.others (hI.none i e he)⟩
    rw [hr.nodes, Function.update_apply]
    split
    · exact hsound
    · exact h.1 j
  again u i d len ok v h hdue hdata hr := by
    rw [DataNode.missed, if_pos hdue] at hr
    refine ⟨fun j => ?_, h.2.update hr.nodes hr.others (hI.mark i _ _ _ (h.2 f i))⟩
    rw [hr.nodes, Function.update_apply]
    split
    · simp [Sound, hdata]
    · exact h.1 j

theorem NodeInv.sendBlock (hI : NodeInv I) (htx : TxOk u) (h : AllNodes I u) (f : ℕ) (data : Msg)
    (len frag : ℕ) : AllNodes I (u.sendBlock f data len frag).2 := by
  obtain ⟨b, n, hs⟩ := htx f
  obtain ⟨hoth, -⟩ := sendBlock_spec hs data len frag
  obtain ⟨b', hpush⟩ := sendBlock_pushes hs data len frag
  intro g i
  by_cases hg : g = f
  · subst hg
    by_cases hi : i < 1024
    · obtain ⟨x, hbx, hx, rfl⟩ := SerialRing.exists_position hi b'
      rcases Nat.lt_trichotomy x n with hlt | rfl | hgt
      · rw [hpush.kept x hbx hlt]
        exact h g _
      · obtain ⟨d, data', len', state, hnode, hssn⟩ := hpush.newest
        rw [hnode]
        exact hI.put d data' _ len' state x hssn
      · exact hI.none _ _ (hpush.spans.idle x hgt hx)
    · rw [hpush.outside i (by omega)]
      exact h g i
  · rw [hoth g hg]
    exact h g i

theorem NodeInv.txWinRetransFlow (hI : NodeInv I) (htx : TxOk u) (h : AllNodes I u) (f : ℕ) :
    AllNodes I (u.txWinRetransFlow f) := by
  obtain ⟨b, n, hs⟩ := htx f
  rcases txWinRetransFlow_cases hs.sound with ⟨k, -, hv⟩ | ⟨i, d, as, hr⟩
  · refine h.congr fun g => ?_
    rw [hv]
    by_cases hg : g = f
    · rw [hg, txWindow_setTxWindow]
    · rw [txWindow_setTxWindow_of_ne _ _ hg]
  · exact h.update hr.nodes hr.others (hI.mark i _ _ _ (h f i))

/-- **The rule.** Whatever a session does. -/
theorem NodeInv.kept (hI : NodeInv I) : TxKept fun u => TxOk u ∧ AllNodes I u where
  congr u v h hw := ⟨h.1.congr hw, h.2.congr fun f => by rw [hw]⟩
  acks u v h hv := by
    refine ⟨hv.txOk h.1, h.2.congr fun f => ?_⟩
    obtain ⟨t, ht⟩ := hv.windows f
    rw [ht]
  processACK u v f ack fs h hack hp := by
    obtain ⟨b, n, hs⟩ := h.1 f
    exact ⟨h.1.processACK hack hp, ((hI.frame f).processACK ⟨hs.sound, h.2⟩ hp).2⟩
  parserSACK u v f m ack h hp := by
    obtain ⟨b, n, hs⟩ := h.1 f
    exact ⟨h.1.parserSACK hp, ((hI.frame f).parserSACK ⟨hs.sound, h.2⟩ hp).2⟩
  retrans u h := by
    have hflow : ∀ f v, TxOk v ∧ AllNodes I v →
        TxOk (v.txWinRetransFlow f) ∧ AllNodes I (v.txWinRetransFlow f) :=
      fun f v hv => ⟨hv.1.txWinRetransFlow f, hI.txWinRetransFlow hv.1 hv.2 f⟩
    rw [UserInfo.txWinRetransCheck]
    split
    · exact hflow 2 _ (hflow 1 _ (hflow 0 u h))
    · exact h
  send u flowId data length h := by
    refine doSendNewTransData_kept (P := fun v => TxOk v ∧ AllNodes I v) ?_ ?_ h data length
    · intro v w hv hw
      exact ⟨hv.1.congr hw.txWindow, hv.2.congr fun f => by rw [hw.txWindow]⟩
    · intro f _ v data len frag hv
      exact ⟨hv.1.sendBlock f data len frag, hI.sendBlock hv.1 hv.2 f data len frag⟩
  clear u f h := by
    refine ⟨h.1.clearTxWin f, fun g i => ?_⟩
    by_cases hg : g = f
    · rw [hg, UserInfo.clearTxWin, txWindow_setTxWindow]
      exact hI.none i _ rfl
    · rw [UserInfo.clearTxWin, txWindow_setTxWindow_of_ne _ _ hg, clearTxNodes_txWindow _ _ hg]
      exact h.2 g i

end NodeInv

end UserInfo

end Mpd

end AndroidVendor
