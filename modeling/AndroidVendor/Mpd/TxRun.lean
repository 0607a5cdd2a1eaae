import AndroidVendor.Mpd.RxFrame
import AndroidVendor.Mpd.TxSend

/-!
# The tx windows over a run of the session

The receive side does not touch the tx windows, so the invariant of `TxInvariant` is one of every
step of the session, whatever arrives and whenever the timers run.

## Main results

* `RxStep` — the frame of the receive side, for each of its operations
* `txWin_run` — the representation invariant of every tx window over every run, on the fields the
  code keeps, and what sending into a full window releases
-/

namespace AndroidVendor

namespace Mpd

open Loop TxWin

namespace UserInfo

variable {u u' u'' : UserInfo}

/-! ### What the receive side leaves alone -/

/-- A step of the receive side: the tx windows and the tables of the scheduler are as they were. -/
structure RxStep (u u' : UserInfo) : Prop where
  txWindow : u'.txWindow = u.txWindow
  schdPara : u'.schdPara = u.schdPara
  time : u'.time = u.time

theorem RxStep.refl (u : UserInfo) : RxStep u u := ⟨rfl, rfl, rfl⟩

theorem RxStep.trans (h : RxStep u u') (h' : RxStep u' u'') : RxStep u u'' :=
  ⟨h'.txWindow.trans h.txWindow, h'.schdPara.trans h.schdPara, h'.time.trans h.time⟩

/-- Fields that the transmit side does not look at may change. -/
theorem RxStep.congr {v : UserInfo} (h : RxStep u u') (hw : v.txWindow = u'.txWindow)
    (hp : v.schdPara = u'.schdPara) (ht : v.time = u'.time) : RxStep u v :=
  h.trans ⟨hw, hp, ht⟩

/-- Every operation of the receive side is one. -/
theorem RxStep.free (u : UserInfo) : RxFree (RxStep u) where
  congr _ _ h hv := h.congr hv.txWindow hv.schdPara hv.time
  sub _ _ _ h := h.congr rfl rfl rfl

theorem RxStep.frame (u : UserInfo) : RxFrame (fun _ => True) (RxStep u) := (RxStep.free u).frame

theorem RxStep.dataWinHeadOut (u : UserInfo) : RxStep u u.dataWinHeadOut :=
  (RxStep.frame u).dataWinHeadOut (.refl u)

theorem RxStep.parseData {m : Msg} (h : u.parseData m = some u') : RxStep u u' :=
  (RxStep.free u).parseData (.refl u) h

theorem RxStep.dataWinTimeOutCheck (h : u.dataWinTimeOutCheck = some u') : RxStep u u' :=
  (RxStep.frame u).dataWinTimeOutCheck (.refl u) h

theorem RxStep.clearDataWin (h : u.clearDataWin = some u') : RxStep u u' :=
  (RxStep.frame u).clearDataWin (.refl u) h

theorem RxStep.changeFlowIdFrom (f cnt i : ℕ) : RxStep u (changeFlowIdFrom f cnt i u) :=
  (RxStep.frame u).changeFlowIdFrom (.refl u) f cnt i

theorem RxStep.checkAck (u : UserInfo) : RxStep u u.checkAck := (RxStep.frame u).checkAck (.refl u)

/-! ### One step of the session -/

theorem TxOk.processACK (h : TxOk u) {f ack fs : ℕ} (hack : ack < 65536)
    (hp : u.processACK f ack fs = some u') : TxOk u' := by
  obtain ⟨b, n, hs⟩ := h f
  obtain ⟨v, b', hv, -, hoth, hrel, -⟩ := processACK_spec (A := fun _ => True) fs hs hack
  obtain rfl : v = u' := Option.some.inj (hv.symm.trans hp)
  exact h.of_flow hoth ⟨b', n, hrel.spans⟩

theorem TxOk.parserSACK (h : TxOk u) {f ack : ℕ} {m : Msg}
    (hp : u.parserSACK f m ack = some u') : TxOk u' := by
  obtain ⟨b, n, hs⟩ := h f
  have hsack := parserSACK_spec (A := fun _ => True) hs (fun _ _ => trivial) hp
  exact h.of_flow hsack.others ⟨b, n, hsack.spans⟩

theorem TxOk.parseAck (h : TxOk u) {m : Msg} (hp : u.parseAck m = some u') : TxOk u' := by
  have hack : m.header.ack < 65536 := m.word_lt 6
  rw [UserInfo.parseAck] at hp
  obtain ⟨v, hv, rfl⟩ := Option.map_eq_some_iff.mp hp
  suffices hv' : TxOk v from fun f => hv' f
  have h₁ : TxOk (u.emit [.access (.sub m.node.mpdHeadLen 12)]) := fun f => h f
  split at hv
  · obtain ⟨s, hs, hv⟩ := Option.bind_eq_some_iff.mp hv
    have h₂ : TxOk ((u.emit [.access (.sub m.node.mpdHeadLen 12)]).emit (m.headReads [14])) :=
      fun f => h f
    exact (h₂.processACK hack hs).parserSACK hv
  · exact h₁.processACK hack hv

theorem TxOk.doParseMPData (h : TxOk u) {m : Msg} (hp : u.doParseMPData m = some u') :
    TxOk u' := by
  have hack : m.header.ack < 65536 := m.word_lt 6
  rw [UserInfo.doParseMPData] at hp
  dsimp only at hp
  generalize hu₁ : (if m.header.flag = 0x55 then
    (u.emit (m.headReads [0, 1])).emit [.access (.flow m.header.stream)]
    else u.emit (m.headReads [0, 1])) = u₁ at hp
  have h₁ : TxOk u₁ := by
    rw [← hu₁]
    split <;> exact h.congr rfl
  split at hp
  · cases hp
    exact h₁.congr rfl
  have h₂ : TxOk { u₁.emit (m.headReads [2, 3, 4, 5, 6, 7]) with
      lastPackageTime := u32 (u₁.time + 6000) } := fun f => h₁ f
  split at hp
  · exact h₂.parseAck hp
  · obtain ⟨s, hs, hp⟩ := Option.bind_eq_some_iff.mp hp
    exact (h₂.processACK hack hs).congr (RxStep.parseData hp).txWindow

/-- Every step of the session keeps the tx windows in order. -/
theorem TxOk.step {op : Op} (h : TxOk u) (hs : op.step u = some u') : TxOk u' := by
  cases op with
  | recv m => exact h.doParseMPData hs
  | tick => cases hs; exact h.congr rfl
  | dataWinTimeOutCheck => exact h.congr (RxStep.dataWinTimeOutCheck hs).txWindow
  | checkAck => cases hs; exact h.congr (RxStep.checkAck u).txWindow
  | sackPeriodSend => cases hs; exact h.sackPeriodSend
  | txWinRetransCheck => cases hs; exact h.txWinRetransCheck
  | send flowId data length => cases hs; exact h.doSendNewTransData _ data length
  | setFlowValid flowId flag => cases hs; exact h.congr rfl
  | clearTxWin flowId => cases hs; exact h.clearTxWin flowId
  | clearSubWin flowId => cases hs; exact h.congr rfl
  | changeDataWinFlowId flowId =>
    cases hs
    exact h.congr (RxStep.changeFlowIdFrom _ _ _).txWindow
  | clearDataWin => exact h.congr (RxStep.clearDataWin hs).txWindow

end UserInfo

/-! ### The invariant on the fields of the code -/

namespace TxWin

variable {w : TxWin} {b n : ℕ}

/-- How many packets are outstanding. -/
def span (w : TxWin) : ℕ := SerialRing.dist 1024 w.pTxBegin w.pTxNext

/-- The representation invariant, on the fields of the window. -/
structure WellFormed (w : TxWin) : Prop where
  /-- `pTxNext` is the slot of `subflowSn`. -/
  next_eq : w.pTxNext = w.subflowSn % 1024
  /-- It carries `subflowSn`. -/
  next_ssn : w.nextNode.ssn = w.subflowSn
  sn_lt : w.subflowSn < 65536
  begin_lt : w.pTxBegin < 1024
  /-- Consecutive SSNs from `pTxBegin` to `pTxNext`. -/
  consecutive : ∀ i ≤ w.span,
    (w.dataNode ((w.pTxBegin + i) % 1024)).ssn = (w.beginNode.ssn + i) % 65536
  /-- Each node at its index. -/
  index : ∀ i ≤ w.span,
    (w.pTxBegin + i) % 1024 = (w.dataNode ((w.pTxBegin + i) % 1024)).ssn % 1024
  /-- The SSNs span no more than the nodes do. -/
  ordered : distanceSN w.beginNode.ssn w.subflowSn = w.span
  size : w.span ≤ 1023
  sound : ∀ i, (w.dataNode i).transState ≠ .dataInit ↔ (w.dataNode i).pData ≠ none
  /-- No slot outside `[pTxBegin, pTxNext)` holds data. -/
  idle : ∀ i < 1024, w.span ≤ SerialRing.dist 1024 w.pTxBegin i → (w.dataNode i).pData = none

theorem Spans.span_eq (h : Spans w b n) : w.span = n - b := by
  rw [span, h.begin_eq, h.next_eq]
  exact SerialRing.dist_of_le h.le h.size

theorem Spans.wellFormed (h : Spans w b n) : WellFormed w := by
  have hspan := h.span_eq
  have hsize := h.size
  have hle := h.le
  have hcell : ∀ i, (w.pTxBegin + i) % 1024 = (b + i) % 1024 := fun i => by
    rw [h.begin_eq]
    exact Nat.mod_add_mod b 1024 i
  have hnum : ∀ i ≤ w.span, (w.dataNode ((w.pTxBegin + i) % 1024)).ssn = (b + i) % 65536 := by
    intro i hi
    rw [hcell]
    exact h.num (b + i) (by omega) (by omega)
  constructor
  · rw [h.next_eq, h.sn_eq]
    omega
  · rw [h.next_ssn, h.sn_eq]
  · rw [h.sn_eq]
    omega
  · rw [h.begin_eq]
    omega
  · intro i hi
    rw [hnum i hi, h.begin_ssn]
    omega
  · intro i hi
    rw [hnum i hi, hcell]
    omega
  · rw [h.begin_ssn, h.sn_eq, hspan]
    exact distanceSN_of_le hle (by omega)
  · omega
  · exact h.sound
  · intro i hi hout
    obtain ⟨x, hbx, hxb, rfl⟩ := SerialRing.exists_position hi b
    rw [h.begin_eq, SerialRing.dist_of_le hbx hxb] at hout
    exact h.idle x (by omega) hxb

end TxWin

open UserInfo

/-- **The tx windows over a run.** However the session got where it is: every tx window is well
formed, and a packet sent into it releases the oldest node if 1023 are outstanding, nothing
otherwise; the data of all other outstanding packets stays. -/
theorem txWin_run (u₀ u : UserInfo) (ops : List Op) (h₀ : ∀ f, u₀.txWindow f = {})
    (hrun : Machine.run Op.step ops u₀ = some u) (f : ℕ) :
    (u.txWindow f).WellFormed ∧
      ∀ (data : Msg) (len frag : ℕ),
        let w := u.txWindow f
        let u' := (u.sendBlock f data len frag).2
        let w' := u'.txWindow f
        (∃ m len' ok, u'.out = u.out ++ (if w.span = 1023 then w.beginNode.releases f else []) ++
          [.send (getDeviceId f) m len' false ok]) ∧
        w'.pTxBegin = (if w.span = 1023 then txPlus w.pTxBegin else w.pTxBegin) ∧
        ∀ i < w.span, (w.span = 1023 → i ≠ 0) →
          (w'.dataNode ((w.pTxBegin + i) % 1024)).pData =
            (w.dataNode ((w.pTxBegin + i) % 1024)).pData := by
  have hok : TxOk u := by
    refine Machine.run_inv (fun op s s' hs hstep => TxOk.step hs hstep) (fun f => ?_) hrun
    rw [h₀ f]
    exact ⟨0, 0, spans_clear⟩
  obtain ⟨b, n, hs⟩ := hok f
  refine ⟨hs.wellFormed, fun data len frag => ?_⟩
  have hle := hs.le
  have hsize := hs.size
  obtain ⟨-, ⟨ok, hout⟩, b', hb', hs', hkept⟩ := sendBlock_spec hs data len frag
  have hfull : (u.txWindow f).span = 1023 ↔ n + 1 = b + 1024 := by
    rw [hs.span_eq]
    omega
  refine ⟨⟨(u.fillMPDHeader f data frag).1, u16 len, ok, ?_⟩, ?_, fun i hi hi0 => ?_⟩
  · simp only [hfull]
    exact hout
  · rw [hs'.begin_eq, hb', hs.begin_eq, txPlus_mod]
    simp only [hfull]
    split <;> rfl
  · rw [hs.begin_eq, Nat.mod_add_mod]
    rw [hs.span_eq] at hi
    refine hkept (b + i) ?_ (by omega)
    rw [hfull] at hi0
    split at hb'
    · next heq =>
      have := hi0 heq
      omega
    · omega

/-- A session whose subflows are all there. -/
def enabled : UserInfo := { schdPara := fun _ => { isValid := true } }

/-- Three packets on subflow `f`, of which the first two are acknowledged. -/
def twoAcked (f : Fin 3) : List Op :=
  [.send (some f) ⟨1, List.replicate 20 0⟩ 20, .send (some f) ⟨2, List.replicate 20 0⟩ 20,
    .send (some f) ⟨3, List.replicate 20 0⟩ 20,
    .recv ⟨4, MPDHeader.encode ⟨0x55, 0, 0, 3, 0, 0, 2⟩ 0⟩]

/-- Only the third is outstanding then, and the next one releases nothing. -/
theorem txWin_run_acked : ∃ u, Machine.run Op.step (twoAcked 0) enabled = some u ∧
    (u.txWindow 0).pTxBegin = 2 ∧ (u.txWindow 0).span = 1 ∧ (u.txWindow 0).WellFormed ∧
      ∃ m len ok, (u.sendBlock 0 ⟨5, List.replicate 20 0⟩ 20 0).2.out =
        u.out ++ [.send (getDeviceId 0) m len false ok] := by
  have heval : (Machine.run Op.step (twoAcked 0) enabled).map
      (fun u => ((u.txWindow 0).pTxBegin, (u.txWindow 0).span)) = some (2, 1) := by
    decide +kernel
  obtain ⟨u, hu, hproj⟩ := Option.map_eq_some_iff.mp heval
  obtain ⟨hbegin, hspan⟩ := Prod.mk.inj hproj
  obtain ⟨hform, hsend⟩ := txWin_run enabled u (twoAcked 0) (fun _ => rfl) hu 0
  obtain ⟨⟨m, len, ok, hout⟩, -⟩ := hsend ⟨5, List.replicate 20 0⟩ 20 0
  rw [if_neg (by rw [hspan]; decide), List.append_nil] at hout
  exact ⟨u, hu, hbegin, hspan, hform, m, len, ok, hout⟩

end Mpd

end AndroidVendor
