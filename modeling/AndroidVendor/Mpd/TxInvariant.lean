import AndroidVendor.Mpd.Sack
import AndroidVendor.Mpd.SubWinInvariant

/-!
# The representation invariant of a tx window

A tx window is read against the unbounded stream of SSNs of its subflow: `Spans w b n` says that the
nodes from `pTxBegin` to `pTxNext` stand for the positions `b, …, n`, that each of them holds data
or is in its initial state, and that no other node holds data. Everything the code does to a window
is one of four moves, and each has its lemma: the oldest node goes, a new one comes, a node gives
its data back, a node that holds data changes its state.

## Main results

* `Spans.release`, `Spans.push` — the two ends of the window
* `Spans.rewrite` — its middle
* `processACK_spec`, `parserSACK_spec` — what an acknowledgement and a SACK do
-/

namespace AndroidVendor

namespace Mpd

open Loop

theorem txPlus_mod (x : ℕ) : txPlus (x % 1024) = (x + 1) % 1024 := by
  unfold txPlus
  split <;> omega

namespace TxWin

variable {w : TxWin} {b n x : ℕ} {d : DataNode}

@[simp] theorem setNode_self (w : TxWin) (i : ℕ) (d : DataNode) : (w.setNode i d).dataNode i = d := by
  simp [setNode]

theorem setNode_of_ne {i j : ℕ} (w : TxWin) (hj : j ≠ i) (d : DataNode) :
    (w.setNode i d).dataNode j = w.dataNode j := by
  simp [setNode, hj]

/-- A node holds data exactly when it is not in its initial state. -/
def Sound (d : DataNode) : Prop := d.transState ≠ .dataInit ↔ d.pData ≠ none

/-- The nodes from `pTxBegin` to `pTxNext` stand for the positions `b, …, n` of the subflow. -/
structure Spans (w : TxWin) (b n : ℕ) : Prop where
  begin_eq : w.pTxBegin = b % 1024
  next_eq : w.pTxNext = n % 1024
  sn_eq : w.subflowSn = n % 65536
  le : b ≤ n
  size : n < b + 1024
  /-- Consecutive SSNs, each at its index; `pTxNext` carries the number of the next packet. -/
  num : ∀ x, b ≤ x → x ≤ n → (w.dataNode (x % 1024)).ssn = x % 65536
  sound : ∀ i, Sound (w.dataNode i)
  /-- No node outside the window holds data. -/
  idle : ∀ x, n ≤ x → x < b + 1024 → (w.dataNode (x % 1024)).pData = none

theorem Spans.begin_ssn (h : Spans w b n) : w.beginNode.ssn = b % 65536 := by
  rw [beginNode, h.begin_eq, h.num b le_rfl h.le]

theorem Spans.next_ssn (h : Spans w b n) : w.nextNode.ssn = n % 65536 := by
  rw [nextNode, h.next_eq, h.num n h.le le_rfl]

theorem sound_default : Sound {} := by simp [Sound]

theorem spans_clear : Spans {} 0 0 where
  begin_eq := rfl
  next_eq := rfl
  sn_eq := rfl
  le := le_rfl
  size := by omega
  num x _ hx := by simp [Nat.le_zero.mp hx]
  sound _ := sound_default
  idle _ _ _ := rfl

theorem Sound.none_iff (h : Sound d) : d.transState = .dataInit ↔ d.pData = none := by
  rw [Sound] at h
  tauto

/-- The oldest node goes. -/
theorem Spans.release (h : Spans w b n) (hlt : b < n) : Spans w.beginInc (b + 1) n where
  begin_eq := by simp only [beginInc, h.begin_eq, txPlus_mod]
  next_eq := h.next_eq
  sn_eq := h.sn_eq
  le := hlt
  size := by have := h.size; omega
  num x hb hn := by
    have hsize := h.size
    simp only [beginInc, setNode, h.begin_eq]
    rw [Function.update_of_ne (SerialRing.cell_ne (by omega) (by omega) (by omega))]
    exact h.num x (by omega) hn
  sound i := by
    simp only [beginInc, setNode, Function.update_apply]
    split
    · exact sound_default
    · exact h.sound i
  idle x hn hx := by
    have hle := h.le
    simp only [beginInc, setNode, h.begin_eq, Function.update_apply]
    split
    · rfl
    · next hne =>
      rcases Nat.lt_or_ge x (b + 1024) with hlt' | hge
      · exact h.idle x hn hlt'
      · exact absurd (by rw [show x = b + 1024 by omega]; simp) hne

/-- The window after a packet was put at `pTxNext` and the pointer moved on, with room for it. -/
def pushed (w : TxWin) (d : DataNode) (sn : ℕ) : TxWin :=
  let next := txPlus w.pTxNext
  let w := w.setNode w.pTxNext d
  { w.setNode next { w.dataNode next with ssn := sn } with pTxNext := next, subflowSn := sn }

theorem Spans.pushed_node (h : Spans w b n) (hroom : n + 1 < b + 1024) (hb : b ≤ x)
    (hx : x < b + 1024) (sn : ℕ) :
    (w.pushed d sn).dataNode (x % 1024) =
      if x = n + 1 then { w.dataNode ((n + 1) % 1024) with ssn := sn }
      else if x = n then d else w.dataNode (x % 1024) := by
  have hle := h.le
  simp only [pushed, setNode, h.next_eq, txPlus_mod]
  rw [SerialRing.update_cell (by omega) hroom hb hx,
    SerialRing.update_cell hle (by omega) hb hx,
    SerialRing.update_cell hle (by omega) (by omega) hroom]
  simp

theorem Spans.pushed_outside (h : Spans w b n) {i : ℕ} (hi : 1024 ≤ i) (sn : ℕ) :
    (w.pushed d sn).dataNode i = w.dataNode i := by
  simp only [pushed, setNode, h.next_eq, txPlus_mod]
  rw [Function.update_of_ne (by omega), Function.update_of_ne (by omega)]

/-- A new packet comes, into a window that has room for it. -/
theorem Spans.push (h : Spans w b n) (hroom : n + 1 < b + 1024) (hd : Sound d)
    (hs : d.ssn = n % 65536) : Spans (w.pushed d ((n + 1) % 65536)) b (n + 1) := by
  have hle := h.le
  refine ⟨h.begin_eq, by simp only [pushed, h.next_eq, txPlus_mod], rfl, by omega, hroom,
    fun x hb hn => ?_, fun i => ?_, fun x hn hx => ?_⟩
  · rw [h.pushed_node hroom hb (by omega)]
    split
    · next heq => rw [heq]
    · split
      · next heq => rw [hs, heq]
      · exact h.num x hb (by omega)
  · simp only [pushed, setNode, Function.update_apply]
    split
    · rw [Sound]
      split
      · exact hd
      · exact h.sound _
    · split
      · exact hd
      · exact h.sound i
  · rw [h.pushed_node hroom (by omega) hx]
    split
    · next heq => exact h.idle (n + 1) (by omega) (by omega)
    · rw [if_neg (by omega)]
      exact h.idle x (by omega) hx

/-- A node of the window is rewritten without touching its SSN, keeping its data or giving it
back. -/
theorem Spans.rewrite (h : Spans w b n) (i : ℕ) (hd : Sound d) (hs : d.ssn = (w.dataNode i).ssn)
    (hp : (w.dataNode i).pData = none → d.pData = none) : Spans (w.setNode i d) b n where
  begin_eq := h.begin_eq
  next_eq := h.next_eq
  sn_eq := h.sn_eq
  le := h.le
  size := h.size
  num x hb hn := by
    simp only [setNode, Function.update_apply]
    split
    · next heq => rw [hs, ← heq, h.num x hb hn]
    · exact h.num x hb hn
  sound j := by
    simp only [setNode, Function.update_apply]
    split
    · exact hd
    · exact h.sound j
  idle x hn hx := by
    simp only [setNode, Function.update_apply]
    split
    · next heq => exact hp (by rw [← heq]; exact h.idle x hn hx)
    · exact h.idle x hn hx

/-- Fields that are neither pointers nor nodes do not matter. -/
theorem Spans.congr {w' : TxWin} (h : Spans w b n) (hb : w'.pTxBegin = w.pTxBegin)
    (hn : w'.pTxNext = w.pTxNext) (hs : w'.subflowSn = w.subflowSn)
    (hd : w'.dataNode = w.dataNode) : Spans w' b n where
  begin_eq := hb.trans h.begin_eq
  next_eq := hn.trans h.next_eq
  sn_eq := hs.trans h.sn_eq
  le := h.le
  size := h.size
  num := by rw [hd]; exact h.num
  sound := by rw [hd]; exact h.sound
  idle := by rw [hd]; exact h.idle

/-- How far the oldest node has moved, when nothing but releases happened: the nodes that are left
hold what they held. -/
structure Released (w : TxWin) (b n : ℕ) (w' : TxWin) (b' : ℕ) : Prop where
  spans : Spans w' b' n
  begin_le : b ≤ b'
  kept : ∀ x, b' ≤ x → x < b + 1024 → w'.dataNode (x % 1024) = w.dataNode (x % 1024)

theorem Spans.released (h : Spans w b n) : Released w b n w b := ⟨h, le_rfl, fun _ _ _ => rfl⟩

theorem Released.release {w' : TxWin} {b' : ℕ} (h : Released w b n w' b') (hlt : b' < n) :
    Released w b n w'.beginInc (b' + 1) where
  spans := h.spans.release hlt
  begin_le := h.begin_le.trans (Nat.le_succ _)
  kept x hb hx := by
    have hbb := h.begin_le
    simp only [beginInc, setNode, h.spans.begin_eq]
    rw [Function.update_of_ne (SerialRing.cell_ne (by omega) (by omega) (by omega))]
    exact h.kept x (by omega) hx

end TxWin

open TxWin

/-- What releasing a node asks for. -/
def DataNode.releases (d : DataNode) (flowId : ℕ) : List Action :=
  if d.transState = .dataInit then [] else d.pData.toList.map (d.release flowId)

namespace UserInfo

variable {u u' u'' : UserInfo} {f b n : ℕ}

/-! ### What the transmit side leaves alone -/

/-- A buffer waits in some tx window. -/
def TxHolds (u : UserInfo) (m : Msg) : Prop := ∃ f i, ((u.txWindow f).dataNode i).pData = some m

/-- What the transmit side may ask for: sending, giving back a buffer of a tx window, and, while it
reads a SACK, the accesses of `A`. -/
def TxAction (A : Access → Prop) (u : UserInfo) : Action → Prop
  | .free m => u.TxHolds m
  | .freeResend m _ => u.TxHolds m
  | .send .. => True
  | .access a => A a
  | _ => False

/-- A step of the transmit side: the receive side is as it was, and the tx windows hold nothing
new. -/
structure TxStep (A : Access → Prop) (u u' : UserInfo) : Prop where
  rxSubWin : u'.rxSubWin = u.rxSubWin
  rxDataWin : u'.rxDataWin = u.rxDataWin
  rxDsnErr : u'.rxDsnErr = u.rxDsnErr
  valid : ∀ i, (u'.schdPara i).isValid = (u.schdPara i).isValid
  time : u'.time = u.time
  sendSackTime : u'.sendSackTime = u.sendSackTime
  holds : ∀ m, u'.TxHolds m → u.TxHolds m
  out : ∃ as, u'.out = u.out ++ as ∧ ∀ a ∈ as, TxAction A u a

variable {A : Access → Prop}

theorem TxStep.refl (u : UserInfo) : TxStep A u u :=
  ⟨rfl, rfl, rfl, fun _ => rfl, rfl, rfl, fun _ h => h, [], by simp, by simp⟩

theorem TxAction.imp {a : Action} (h : TxAction A u' a) (hh : ∀ m, u'.TxHolds m → u.TxHolds m) :
    TxAction A u a := by
  cases a <;> first | exact hh _ h | exact h

theorem TxStep.trans (h : TxStep A u u') (h' : TxStep A u' u'') : TxStep A u u'' where
  rxSubWin := h'.rxSubWin.trans h.rxSubWin
  rxDataWin := h'.rxDataWin.trans h.rxDataWin
  rxDsnErr := h'.rxDsnErr.trans h.rxDsnErr
  valid i := (h'.valid i).trans (h.valid i)
  time := h'.time.trans h.time
  sendSackTime := h'.sendSackTime.trans h.sendSackTime
  holds m hm := h.holds m (h'.holds m hm)
  out := by
    obtain ⟨as, has, hA⟩ := h.out
    obtain ⟨as', has', hA'⟩ := h'.out
    refine ⟨as ++ as', by rw [has', has, List.append_assoc], fun a ha => ?_⟩
    rcases List.mem_append.mp ha with ha | ha
    · exact hA a ha
    · exact (hA' a ha).imp h.holds

/-- A tx window is rewritten without new data. -/
theorem TxStep.setTxWindow (u : UserInfo) (f : ℕ) {w : TxWin}
    (hw : ∀ i m, (w.dataNode i).pData = some m → u.TxHolds m) :
    TxStep A u (u.setTxWindow f w) := by
  refine ⟨rfl, rfl, rfl, fun _ => rfl, rfl, rfl, ?_, [], by simp [UserInfo.setTxWindow], by simp⟩
  rintro m ⟨g, i, hm⟩
  simp only [UserInfo.setTxWindow, Function.update_apply] at hm
  split at hm
  · exact hw i m hm
  · exact ⟨g, i, hm⟩

theorem TxStep.emit (u : UserInfo) (as : List Action) (h : ∀ a ∈ as, TxAction A u a) :
    TxStep A u (u.emit as) :=
  ⟨rfl, rfl, rfl, fun _ => rfl, rfl, rfl, fun _ h => h, as, rfl, h⟩

theorem TxStep.setSchdPara (u : UserInfo) (f : ℕ) {p : SchdStreamPara}
    (hp : p.isValid = (u.schdPara f).isValid) : TxStep A u (u.setSchdPara f p) := by
  refine ⟨rfl, rfl, rfl, fun i => ?_, rfl, rfl, fun _ h => h, [], by simp [UserInfo.setSchdPara],
    by simp⟩
  simp only [UserInfo.setSchdPara, Function.update_apply]
  split
  · next heq => rw [hp, heq]
  · rfl

theorem TxStep.setTrafficControl (u : UserInfo) (f : ℕ) (t : TrafficControl) :
    TxStep A u (u.setTrafficControl f t) :=
  ⟨rfl, rfl, rfl, fun _ => rfl, rfl, rfl, fun _ h => h, [], by simp [UserInfo.setTrafficControl],
    by simp⟩

/-! ### Releasing the oldest node -/

theorem txHolds_node {i : ℕ} {m : Msg} (h : ((u.txWindow f).dataNode i).pData = some m) :
    u.TxHolds m := ⟨f, i, h⟩

theorem txRelease_txWindow (u : UserInfo) (f : ℕ) :
    ((u.freeTxBeginData f).txBeginInc f).txWindow =
      Function.update u.txWindow f (u.txWindow f).beginInc := by
  unfold freeTxBeginData
  dsimp only
  split
  · rfl
  · split
    · rfl
    · simp [txBeginInc, UserInfo.setTxWindow, UserInfo.emit, beginInc, setNode]

theorem txRelease_out (u : UserInfo) (f : ℕ) :
    ((u.freeTxBeginData f).txBeginInc f).out =
      u.out ++ (u.txWindow f).beginNode.releases f := by
  unfold freeTxBeginData DataNode.releases
  dsimp only
  split
  · simp [txBeginInc, UserInfo.setTxWindow]
  · split
    · next hp => simp [txBeginInc, UserInfo.setTxWindow, hp]
    · next m hp => simp [txBeginInc, UserInfo.setTxWindow, UserInfo.emit, hp]

theorem TxStep.freeTxBeginData (u : UserInfo) (f : ℕ) : TxStep A u (u.freeTxBeginData f) := by
  unfold UserInfo.freeTxBeginData
  dsimp only
  split
  · exact .refl u
  · split
    · exact .refl u
    · next m hm =>
      refine (TxStep.emit u [(u.txWindow f).beginNode.release f m] ?_).trans
        (TxStep.setTxWindow _ f ?_)
      · intro a ha
        obtain rfl := List.mem_singleton.mp ha
        unfold DataNode.release
        split <;> exact txHolds_node hm
      · intro i m' hm'
        simp only [setNode, Function.update_apply] at hm'
        split at hm'
        · exact absurd hm' (by simp)
        · exact txHolds_node (f := f) hm'

theorem TxStep.txBeginInc (u : UserInfo) (f : ℕ) : TxStep A u (u.txBeginInc f) := by
  refine TxStep.setTxWindow u f fun i m hm => ?_
  simp only [beginInc, setNode, Function.update_apply] at hm
  split at hm
  · exact absurd hm (by simp)
  · exact txHolds_node hm

theorem TxStep.release (u : UserInfo) (f : ℕ) :
    TxStep A u ((u.freeTxBeginData f).txBeginInc f) :=
  (TxStep.freeTxBeginData u f).trans (TxStep.txBeginInc _ f)

/-! ### `MPD_processACK` -/

@[simp] theorem schdRTTFlowUpdate_txWindow (u : UserInfo) (f i : ℕ) :
    (u.schdRTTFlowUpdate f i).txWindow = u.txWindow := by
  unfold schdRTTFlowUpdate
  dsimp only
  split <;> rfl

@[simp] theorem schdRTTFlowUpdate_out (u : UserInfo) (f i : ℕ) :
    (u.schdRTTFlowUpdate f i).out = u.out := by
  unfold schdRTTFlowUpdate
  dsimp only
  split <;> rfl

theorem TxStep.schdRTTFlowUpdate (u : UserInfo) (f i : ℕ) :
    TxStep A u (u.schdRTTFlowUpdate f i) := by
  unfold UserInfo.schdRTTFlowUpdate
  dsimp only
  split
  · exact TxStep.setSchdPara u f rfl
  · exact .refl u

@[simp] theorem countConfirmed_txWindow (u : UserInfo) (f : ℕ) :
    (u.countConfirmed f).txWindow = u.txWindow := rfl

@[simp] theorem countConfirmed_out (u : UserInfo) (f : ℕ) : (u.countConfirmed f).out = u.out := rfl

theorem TxStep.countConfirmed (u : UserInfo) (f : ℕ) : TxStep A u (u.countConfirmed f) :=
  (TxStep.setTrafficControl u f _).trans (TxStep.setSchdPara _ f rfl)

@[simp] theorem moveSsnEnd_txWindow (u : UserInfo) (f s : ℕ) :
    (u.moveSsnEnd f s).txWindow = u.txWindow := by
  unfold moveSsnEnd
  dsimp only
  split <;> rfl

theorem TxStep.moveSsnEnd (u : UserInfo) (f s : ℕ) : TxStep A u (u.moveSsnEnd f s) := by
  unfold UserInfo.moveSsnEnd
  dsimp only
  split
  · exact TxStep.setTrafficControl u f _
  · exact .refl u

/-- Everything `MPD_processACK` does to a node before it goes is bookkeeping. -/
theorem ackOldest_spec (u : UserInfo) (f : ℕ) :
    (u.ackOldest f).txWindow = Function.update u.txWindow f (u.txWindow f).beginInc ∧
      (u.ackOldest f).out = u.out ++ (u.txWindow f).beginNode.releases f ∧
      TxStep A u (u.ackOldest f) := by
  unfold ackOldest
  dsimp only
  split
  · rw [txRelease_txWindow, txRelease_out]
    refine ⟨by simp, by simp, ?_⟩
    exact ((TxStep.schdRTTFlowUpdate u f _).trans (TxStep.countConfirmed _ f)).trans
      (TxStep.release _ f)
  · rw [txRelease_txWindow, txRelease_out]
    refine ⟨by simp, by simp, ?_⟩
    exact (TxStep.schdRTTFlowUpdate u f _).trans (TxStep.release _ f)

theorem txWindow_setTxWindow_of_ne (u : UserInfo) {f i : ℕ} (w : TxWin) (h : i ≠ f) :
    (u.setTxWindow f w).txWindow i = u.txWindow i := Function.update_of_ne h _ _

@[simp] theorem txWindow_setTxWindow (u : UserInfo) (f : ℕ) (w : TxWin) :
    (u.setTxWindow f w).txWindow f = w := Function.update_self _ _ _

/-- The loop of `MPD_processACK` releases what lies before position `a`. -/
theorem ackLoop_spec {a : ℕ} {s : UserInfo} (h : Spans (u.txWindow f) b n) (hba : b ≤ a) (han : a ≤ n)
    (hstep : TxStep A u s) (hoth : ∀ i, i ≠ f → s.txWindow i = u.txWindow i)
    (hrel : Released (u.txWindow f) b n (s.txWindow f) b) :
    ∃ t, ackLoop f (a % 65536) s = some t ∧ TxStep A u t ∧
      (∀ i, i ≠ f → t.txWindow i = u.txWindow i) ∧
      Released (u.txWindow f) b n (t.txWindow f) a := by
  have hsize := h.size
  let I : UserInfo → ℕ → Prop := fun t c => c ≤ a ∧ TxStep A u t ∧
    (∀ i, i ≠ f → t.txWindow i = u.txWindow i) ∧ Released (u.txWindow f) b n (t.txWindow f) c
  have hdist : ∀ t c, I t c → distanceSN (t.txWindow f).beginNode.ssn (a % 65536) = a - c := by
    intro t c hI
    have := hI.2.2.2.begin_le
    rw [hI.2.2.2.spans.begin_ssn, distanceSN_of_le hI.1 (by omega)]
  have hround : ∀ t, (∃ c, I t c) → AckPending f (a % 65536) t → (∃ c, I (t.ackOldest f) c) ∧
      distanceSN ((t.ackOldest f).txWindow f).beginNode.ssn (a % 65536) <
        distanceSN (t.txWindow f).beginNode.ssn (a % 65536) := by
    rintro t ⟨c, hI⟩ ⟨-, hgo⟩
    rw [hdist t c hI] at hgo
    obtain ⟨hw, -, hst⟩ := ackOldest_spec (A := A) t f
    have hI' : I (t.ackOldest f) (c + 1) := by
      refine ⟨by omega, hI.2.1.trans hst, fun i hi => ?_, ?_⟩
      · rw [hw, Function.update_of_ne hi]
        exact hI.2.2.1 i hi
      · rw [hw, Function.update_self]
        exact hI.2.2.2.release (by omega)
    refine ⟨⟨c + 1, hI'⟩, ?_⟩
    rw [hdist t c hI, hdist _ _ hI']
    omega
  have hstart : I s b := ⟨hba, hstep, hoth, hrel⟩
  obtain ⟨t, ht, ⟨c, hI⟩, hdone⟩ := ackLoop_total (fun t => ∃ c, I t c)
    (fun t => distanceSN (t.txWindow f).beginNode.ssn (a % 65536)) hround ⟨b, hstart⟩
    (by rw [hdist s b hstart]; omega)
  obtain rfl : c = a := by
    have hsp := hI.2.2.2.spans
    have hcle := hsp.le
    have hcb := hI.2.2.2.begin_le
    have hca := hI.1
    rw [AckPending, hdist t c hI, hsp.begin_eq, hsp.next_eq] at hdone
    by_contra hne
    refine hdone ⟨SerialRing.cell_ne ?_ ?_ hsp.size, ?_⟩ <;> omega
  exact ⟨t, ht, hI.2⟩

/-- `MPD_processACK` answers. An acknowledgement of a position in `(b, n]` makes that the oldest
node; any other leaves the window alone. -/
theorem processACK_spec {ack : ℕ} (fs : ℕ) (h : Spans (u.txWindow f) b n) (hack : ack < 65536) :
    ∃ u' b', u.processACK f ack fs = some u' ∧ TxStep A u u' ∧
      (∀ i, i ≠ f → u'.txWindow i = u.txWindow i) ∧
      Released (u.txWindow f) b n (u'.txWindow f) b' ∧
      (b' = b ∨ b' % 65536 = ack) ∧
      (f ≤ 3 → fs ≠ 0 → ∀ a, b < a → a ≤ n → a % 65536 = ack → b' = a) := by
  have hsize := h.size
  have hle := h.le
  by_cases hskip : 3 < f ∨ fs = 0
  · refine ⟨u, b, by rw [processACK, if_pos hskip], .refl u, fun _ _ => rfl, h.released, .inl rfl,
      fun hf hfs => ?_⟩
    omega
  -- the window with the time-out counter reset
  let u₀ := u.setTxWindow f { u.txWindow f with ackTimeOutcnt := 0 }
  have hw₀ : u₀.txWindow f = { u.txWindow f with ackTimeOutcnt := 0 } := txWindow_setTxWindow ..
  have h₀ : Spans (u₀.txWindow f) b n := by
    rw [hw₀]
    exact h.congr rfl rfl rfl rfl
  have hstep₀ : TxStep A u u₀ := TxStep.setTxWindow u f fun i m hm => txHolds_node hm
  have hrel₀ : Released (u.txWindow f) b n (u₀.txWindow f) b :=
    ⟨h₀, le_rfl, fun _ _ _ => by rw [hw₀]⟩
  have hoth₀ : ∀ i, i ≠ f → u₀.txWindow i = u.txWindow i :=
    fun i hi => txWindow_setTxWindow_of_ne u _ hi
  obtain ⟨a, hba, hab, ha⟩ := SerialRing.exists_position hack b
  have hdist : distanceSN (b % 65536) ack = a - b := by
    rw [← ha, distanceSN_of_le hba hab]
  have hdistn : distanceSN (b % 65536) (n % 65536) = n - b := distanceSN_of_le hle (by omega)
  by_cases hout : distanceSN (u₀.txWindow f).beginNode.ssn (u₀.txWindow f).nextNode.ssn <
      distanceSN (u₀.txWindow f).beginNode.ssn ack ∨
      distanceSN (u₀.txWindow f).beginNode.ssn ack = 0
  · refine ⟨u₀, b, ?_, hstep₀, hoth₀, hrel₀, .inl rfl, fun _ _ a' hba' han' ha' => ?_⟩
    · rw [processACK, if_neg hskip]
      exact if_pos hout
    · rw [h₀.begin_ssn, h₀.next_ssn, hdist, hdistn] at hout
      obtain rfl : a = a' :=
        SerialRing.cell_inj (ha.trans ha'.symm) (by omega) (by omega)
      omega
  · have hout' := hout
    rw [h₀.begin_ssn, h₀.next_ssn, hdist, hdistn] at hout'
    obtain ⟨s, hs, hst, hoth, hrel⟩ := ackLoop_spec h hba (by omega) hstep₀ hoth₀ hrel₀
    rw [ha] at hs
    refine ⟨s.moveSsnEnd f (s.txWindow f).beginNode.ssn, a, ?_,
      hst.trans (TxStep.moveSsnEnd s f _), fun i hi => ?_, ?_, .inr ha,
      fun _ _ a' hba' han' ha' => ?_⟩
    · rw [processACK, if_neg hskip]
      refine (if_neg hout).trans ?_
      rw [hs, Option.map_some]
    · rw [moveSsnEnd_txWindow]
      exact hoth i hi
    · rw [moveSsnEnd_txWindow]
      exact hrel
    · exact SerialRing.cell_inj (ha.trans ha'.symm) (by omega) (by omega)

/-! ### `MPD_parserSACK` -/

theorem TxStep.callMPCToRetrans (u : UserInfo) (f i : ℕ) : TxStep A u (u.callMPCToRetrans f i) := by
  rw [UserInfo.callMPCToRetrans]
  dsimp only
  split
  · exact TxStep.setTxWindow u f fun j m hm => txHolds_node hm
  · next m hm =>
    refine TxStep.trans ?_ (TxStep.setTxWindow _ f fun j m hm => txHolds_node hm)
    have hout : ∀ a ∈ [Action.send (getDeviceId f) m ((u.txWindow f).dataNode i).payloadLen false
        (u.sends 0)], TxAction A u a := by
      intro a ha
      obtain rfl := List.mem_singleton.mp ha
      exact trivial
    exact ⟨rfl, rfl, rfl, fun _ => rfl, rfl, rfl, fun _ h => h, _, rfl, hout⟩

theorem callMPCToRetrans_txWindow (u : UserInfo) (f i : ℕ) :
    ∃ h, (u.callMPCToRetrans f i).txWindow =
      Function.update u.txWindow f { u.txWindow f with histA := h } := by
  rw [callMPCToRetrans]
  dsimp only
  split <;> exact ⟨_, rfl⟩

/-- A round over a gap changes the state of one node that holds data, if it changes any. -/
theorem sackGapNode_spec (u : UserInfo) (f i : ℕ) (h : Spans (u.txWindow f) b n) :
    TxStep A u (u.sackGapNode f i) ∧
      (∀ j, j ≠ f → (u.sackGapNode f i).txWindow j = u.txWindow j) ∧
      Spans ((u.sackGapNode f i).txWindow f) b n ∧
      ∀ j, (((u.sackGapNode f i).txWindow f).dataNode j).pData =
        ((u.txWindow f).dataNode j).pData := by
  rw [sackGapNode]
  dsimp only
  generalize hu₁ : (if ((u.txWindow f).dataNode i).transState = .waitingAck then
    u.setTrafficControl f { u.trafficControl f with
      pktLossCnt := u32 ((u.trafficControl f).pktLossCnt + 1) } else u) = u₁
  have hstep₁ : TxStep A u u₁ := by
    rw [← hu₁]
    split
    · exact TxStep.setTrafficControl u f _
    · exact .refl u
  have hw₁ : u₁.txWindow = u.txWindow := by
    rw [← hu₁]
    split <;> rfl
  split
  · next hstate =>
    obtain ⟨hist, hw₂⟩ := callMPCToRetrans_txWindow u₁ f i
    have hsnd : ((u.txWindow f).dataNode i).transState ≠ .dataInit := by
      rintro h0
      simp [h0] at hstate
    have hw₃ : (u₁.callMPCToRetrans f i).txWindow f = { u.txWindow f with histA := hist } := by
      rw [hw₂, Function.update_self, hw₁]
    refine ⟨?_, fun j hj => ?_, ?_, fun j => ?_⟩
    · refine (hstep₁.trans (TxStep.callMPCToRetrans u₁ f i)).trans
        (TxStep.trans (TxStep.setTxWindow _ f fun j m hm => ?_) (TxStep.setSchdPara _ f rfl))
      rw [hw₃] at hm
      simp only [setNode, Function.update_apply] at hm
      refine ⟨f, j, ?_⟩
      rw [hw₃]
      split at hm
      · next heq => exact heq ▸ hm
      · exact hm
    · simp only [UserInfo.setSchdPara]
      rw [txWindow_setTxWindow_of_ne _ _ hj, hw₂, Function.update_of_ne hj, hw₁]
    · simp only [UserInfo.setSchdPara, txWindow_setTxWindow, hw₃]
      refine (h.rewrite i
        (d := { (u.txWindow f).dataNode i with transState := .sacked, toRetrans := _ })
        ?_ rfl id).congr rfl rfl rfl rfl
      rw [Sound]
      exact ⟨fun _ => (h.sound i).mp hsnd, fun _ => by simp⟩
    · simp only [UserInfo.setSchdPara, txWindow_setTxWindow, hw₃, setNode, Function.update_apply]
      split
      · next heq => rw [heq]
      · rfl
  · exact ⟨hstep₁, fun j _ => by rw [hw₁], by rw [hw₁]; exact h, fun j => by rw [hw₁]⟩

/-- A round over a block leaves the node at the cursor without data, and no other is touched. -/
theorem sackBlockNode_spec (u : UserInfo) (f i : ℕ) (h : Spans (u.txWindow f) b n) :
    TxStep A u (u.sackBlockNode f i) ∧
      (∀ j, j ≠ f → (u.sackBlockNode f i).txWindow j = u.txWindow j) ∧
      Spans ((u.sackBlockNode f i).txWindow f) b n ∧
      ∀ j, (((u.sackBlockNode f i).txWindow f).dataNode j).pData =
        if j = i then none else ((u.txWindow f).dataNode j).pData := by
  rw [sackBlockNode]
  dsimp only
  split
  · next hinit =>
    refine ⟨.refl u, fun _ _ => rfl, h, fun j => ?_⟩
    split
    · next heq => rw [heq, ((h.sound i).none_iff).mp hinit]
    · rfl
  · split
    · next hnone =>
      refine ⟨.refl u, fun _ _ => rfl, h, fun j => ?_⟩
      split
      · next heq => rw [heq, hnone]
      · rfl
    · next m hm =>
      refine ⟨?_, fun j hj => ?_, ?_, fun j => ?_⟩
      · refine TxStep.trans ((TxStep.schdRTTFlowUpdate u f i).trans
          (TxStep.trans (TxStep.emit _ _ ?_) (TxStep.setTxWindow _ f fun j m' hm' => ?_)))
          (TxStep.countConfirmed _ f)
        · intro a ha
          obtain rfl := List.mem_singleton.mp ha
          have hh : (u.schdRTTFlowUpdate f i).TxHolds m :=
            ⟨f, i, by rw [schdRTTFlowUpdate_txWindow]; exact hm⟩
          rw [DataNode.release]
          split <;> exact hh
        · simp only [setNode, UserInfo.emit, Function.update_apply] at hm'
          split at hm'
          · exact absurd hm' (by simp)
          · exact txHolds_node (f := f) hm'
      · rw [countConfirmed_txWindow, txWindow_setTxWindow_of_ne _ _ hj]
        simp only [UserInfo.emit, schdRTTFlowUpdate_txWindow]
      · rw [countConfirmed_txWindow, txWindow_setTxWindow]
        simp only [UserInfo.emit, schdRTTFlowUpdate_txWindow]
        exact h.rewrite i (by simp [Sound]) rfl fun _ => rfl
      · rw [countConfirmed_txWindow, txWindow_setTxWindow]
        simp only [UserInfo.emit, schdRTTFlowUpdate_txWindow, setNode, Function.update_apply]
        split <;> rfl

/-- What a SACK leaves as it was: the receive side, the other tx windows, the ends of this one. -/
structure Sacked (A : Access → Prop) (u : UserInfo) (f b n : ℕ) (s : UserInfo) : Prop where
  step : TxStep A u s
  others : ∀ j, j ≠ f → s.txWindow j = u.txWindow j
  spans : Spans (s.txWindow f) b n

theorem Sacked.gapNode {s : UserInfo} (h : Sacked A u f b n s) (i : ℕ) :
    Sacked A u f b n (s.sackGapNode f i) := by
  obtain ⟨h1, h2, h3, -⟩ := sackGapNode_spec (A := A) s f i h.spans
  exact ⟨h.step.trans h1, fun j hj => (h2 j hj).trans (h.others j hj), h3⟩

theorem Sacked.blockNode {s : UserInfo} (h : Sacked A u f b n s) (i : ℕ) :
    Sacked A u f b n (s.sackBlockNode f i) := by
  obtain ⟨h1, h2, h3, -⟩ := sackBlockNode_spec (A := A) s f i h.spans
  exact ⟨h.step.trans h1, fun j hj => (h2 j hj).trans (h.others j hj), h3⟩

theorem Sacked.block {s t : UserInfo × ℕ} {l r : ℕ} (h : Sacked A u f b n s.1)
    (hs : sackBlock f s l r = some t) : Sacked A u f b n t.1 := by
  rw [sackBlock] at hs
  split at hs
  · obtain ⟨s', hgap, hs⟩ := Option.bind_eq_some_iff.mp hs
    have h' : Sacked A u f b n s'.1 :=
      (whileLoop_inv (fun s : UserInfo × ℕ => Sacked A u f b n s.1) (fun a a' ha _ hbody => by
        cases hbody
        exact ha.gapNode a.2) h hgap).1
    split at hs
    · exact (whileLoop_inv (fun s : UserInfo × ℕ => Sacked A u f b n s.1) (fun a a' ha _ hbody => by
        cases hbody
        exact ha.blockNode a.2) h' hs).1
    · cases hs
      exact h'
  · cases hs
    exact h

theorem Sacked.blocks {s t : UserInfo × ℕ} {is : List ℕ} {l r : ℕ → ℕ}
    (h : Sacked A u f b n s.1)
    (hs : is.foldlM (fun s i => sackBlock f s (l i) (r i)) s = some t) :
    Sacked A u f b n t.1 := by
  induction is generalizing s with
  | nil =>
    cases hs
    exact h
  | cons i is ih =>
    rw [List.foldlM_cons] at hs
    obtain ⟨s', hs', hs⟩ := Option.bind_eq_some_iff.mp hs
    exact ih (h.block hs') hs

/-- The accesses of `MPD_parserSACK`: tag, length and `firstSack`, and the blocks of a SACK that is
not turned away. -/
def sackAccesses (m : Msg) : List Access :=
  [.read 12 m.data.length, .read 13 m.data.length, .read 14 m.data.length, .sub (m.byte 13) 4] ++
    if m.byte 12 ≠ 1 ∨ 11 < numSack (m.byte 13) ∨ numSack (m.byte 13) = 0 then []
    else (List.range (4 * numSack (m.byte 13))).map fun i => .read (16 + i) m.data.length

/-- `MPD_parserSACK`, when it answers. `A` allows the accesses it makes. -/
theorem parserSACK_spec {m : Msg} {ack : ℕ} (h : Spans (u.txWindow f) b n)
    (hA : ∀ a ∈ sackAccesses m, A a) (hp : u.parserSACK f m ack = some u') :
    Sacked A u f b n u' := by
  rw [parserSACK] at hp
  split at hp
  · cases hp
    exact ⟨.refl u, fun _ _ => rfl, h⟩
  dsimp only at hp
  have h₁ : Sacked A u f b n ((u.setTrafficControl f { u.trafficControl f with
      sackNum := u32 ((u.trafficControl f).sackNum + 1) }).emit
      [.access (.read 12 m.data.length), .access (.read 13 m.data.length),
        .access (.read 14 m.data.length), .access (.sub (m.byte 13) 4)]) := by
    refine ⟨(TxStep.setTrafficControl u f _).trans (TxStep.emit _ _ fun a ha => ?_),
      fun _ _ => rfl, h⟩
    simp only [List.mem_cons, List.not_mem_nil, or_false] at ha
    rcases ha with rfl | rfl | rfl | rfl <;> exact hA _ (by simp [sackAccesses])
  split at hp
  · cases hp
    exact h₁
  next hblocks =>
    have h₂ : Sacked A u f b n ((((u.setTrafficControl f { u.trafficControl f with
        sackNum := u32 ((u.trafficControl f).sackNum + 1) }).emit
        [.access (.read 12 m.data.length), .access (.read 13 m.data.length),
          .access (.read 14 m.data.length), .access (.sub (m.byte 13) 4)]).emit
        (sackReads m (numSack (m.byte 13)))).setTxWindow f { u.txWindow f with retransCnt := 0 }) := by
      refine ⟨h₁.step.trans ((TxStep.emit _ _ fun a ha => ?_).trans
        (TxStep.setTxWindow _ f fun i m' hm => txHolds_node hm)), fun j hj => ?_, ?_⟩
      · obtain ⟨i, hi, rfl⟩ := List.mem_map.mp ha
        refine hA _ (List.mem_append_right _ ?_)
        rw [if_neg hblocks]
        exact List.mem_map.mpr ⟨i, hi, rfl⟩
      · exact txWindow_setTxWindow_of_ne _ _ hj
      · rw [txWindow_setTxWindow]
        exact h.congr rfl rfl rfl rfl
    split at hp
    · cases hp
      exact h₂
    · obtain ⟨s, hs, rfl⟩ := Option.map_eq_some_iff.mp hp
      have h₃ := Sacked.blocks h₂ hs
      refine ⟨h₃.step.trans (TxStep.moveSsnEnd _ f _), fun j hj => ?_, ?_⟩
      · rw [moveSsnEnd_txWindow]
        exact h₃.others j hj
      · rw [moveSsnEnd_txWindow]
        exact h₃.spans

end UserInfo

end Mpd

end AndroidVendor
