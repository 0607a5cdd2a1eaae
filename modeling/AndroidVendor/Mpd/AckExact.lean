import AndroidVendor.Mpd.TxRun

/-!
# What an acknowledgement does

`MPD_processACK` decides with wrapped distances whether an acknowledgement lies in the window, and
then walks the ring. Here is all it does to a window that is well formed, in the terms of the code:
the nodes it takes are counted from `pTxBegin`.

## Main results

* `TxWin.WellFormed.spans` — the fields of a well-formed window determine its positions
* `processACK_exact` — an acknowledgement inside `(txBegin.SSN, txNext.SSN]` and one outside
-/

namespace AndroidVendor

namespace Mpd

open Loop TxWin UserInfo

namespace TxWin

variable {w : TxWin} {b n i : ℕ}

/-- The node `i` places behind `pTxBegin`. -/
def nodeAt (w : TxWin) (i : ℕ) : DataNode := w.dataNode ((w.pTxBegin + i) % 1024)

/-- The `d` oldest nodes. -/
def oldest (w : TxWin) (d : ℕ) : List DataNode := (List.range d).map w.nodeAt

/-- How many of the `d` oldest nodes hold data. -/
def heldIn (w : TxWin) (d : ℕ) : ℕ := (w.oldest d).countP fun n => n.pData.isSome

theorem oldest_succ (w : TxWin) (d : ℕ) : w.oldest (d + 1) = w.oldest d ++ [w.nodeAt d] := by
  rw [oldest, List.range_succ, List.map_append, List.map_singleton]
  rfl

theorem Spans.nodeAt (h : Spans w b n) (i : ℕ) : w.nodeAt i = w.dataNode ((b + i) % 1024) := by
  rw [TxWin.nodeAt, h.begin_eq, Nat.mod_add_mod]

/-- The first position is the SSN of the oldest node. -/
theorem WellFormed.spans (h : WellFormed w) :
    Spans w w.beginNode.ssn (w.beginNode.ssn + w.span) := by
  have hbegin : w.pTxBegin = w.beginNode.ssn % 1024 := by
    have hidx := h.index 0 (Nat.zero_le _)
    rw [Nat.add_zero, Nat.mod_eq_of_lt h.begin_lt] at hidx
    exact hidx
  have hssn : w.beginNode.ssn % 65536 = w.beginNode.ssn := by
    have hcons := h.consecutive 0 (Nat.zero_le _)
    rw [Nat.add_zero, Nat.mod_eq_of_lt h.begin_lt] at hcons
    exact hcons.symm
  have hcell : ∀ i, (w.pTxBegin + i) % 1024 = (w.beginNode.ssn + i) % 1024 := fun i => by
    rw [hbegin, Nat.mod_add_mod]
  have hsn : w.subflowSn = (w.beginNode.ssn + w.span) % 65536 := by
    have hord := h.ordered
    have hsize := h.size
    rw [← hssn, ← Nat.mod_eq_of_lt h.sn_lt] at hord
    have hsum := (SerialRing.dist_eq_iff (by omega)).mp hord
    rw [hsum, Nat.mod_eq_of_lt h.sn_lt]
  refine ⟨hbegin, ?_, hsn, Nat.le_add_right _ _, by have := h.size; omega, fun x hbx hxn => ?_,
    h.sound, fun x hnx hx => ?_⟩
  · rw [h.next_eq, hsn]
    omega
  · obtain ⟨i, rfl⟩ := Nat.exists_eq_add_of_le hbx
    rw [← hcell, h.consecutive i (by omega)]
  · refine h.idle (x % 1024) (Nat.mod_lt _ (by decide)) ?_
    rw [hbegin, SerialRing.dist_of_le (by omega) (by omega)]
    omega

end TxWin

namespace UserInfo

variable {u s v : UserInfo} {f b n k : ℕ}

/-- The counters a round of `MPD_processACK` raises. -/
theorem ackOldest_counts (u : UserInfo) (f : ℕ) :
    ((u.ackOldest f).schdPara f).pktCnt =
        (if (u.txWindow f).beginNode.pData.isSome then u32 ((u.schdPara f).pktCnt + 1)
        else (u.schdPara f).pktCnt) ∧
      ((u.ackOldest f).trafficControl f).pktRate =
        if (u.txWindow f).beginNode.pData.isSome then u32 ((u.trafficControl f).pktRate + 1)
        else (u.trafficControl f).pktRate := by
  have hrelease : ∀ s : UserInfo,
      ((s.freeTxBeginData f).txBeginInc f).schdPara = s.schdPara ∧
        ((s.freeTxBeginData f).txBeginInc f).trafficControl = s.trafficControl := by
    intro s
    rw [freeTxBeginData]
    dsimp only
    split
    · exact ⟨rfl, rfl⟩
    · split <;> exact ⟨rfl, rfl⟩
  have hrtt : ∀ i, ((u.schdRTTFlowUpdate f i).schdPara f).pktCnt = (u.schdPara f).pktCnt ∧
      (u.schdRTTFlowUpdate f i).trafficControl = u.trafficControl := by
    intro i
    rw [schdRTTFlowUpdate]
    dsimp only
    split
    · simp [UserInfo.setSchdPara]
    · exact ⟨rfl, rfl⟩
  rw [ackOldest]
  rw [(hrelease _).1, (hrelease _).2, schdRTTFlowUpdate_txWindow]
  split
  · simp only [countConfirmed, UserInfo.setSchdPara, UserInfo.setTrafficControl,
      Function.update_self, (hrtt _).1, (hrtt _).2]
    exact ⟨trivial, trivial⟩
  · rw [(hrtt _).1, (hrtt _).2]
    exact ⟨rfl, rfl⟩

/-- After `k` rounds of the loop of `MPD_processACK`. -/
structure AckRounds (u : UserInfo) (f b n k : ℕ) (s : UserInfo) : Prop where
  released : Released (u.txWindow f) b n (s.txWindow f) (b + k)
  gone : ∀ i < k, (s.txWindow f).dataNode ((b + i) % 1024) = {}
  out : s.out = u.out ++ ((u.txWindow f).oldest k).flatMap (·.releases f)
  pktCnt : u32 (s.schdPara f).pktCnt = u32 ((u.schdPara f).pktCnt + (u.txWindow f).heldIn k)
  pktRate : u32 (s.trafficControl f).pktRate =
    u32 ((u.trafficControl f).pktRate + (u.txWindow f).heldIn k)

theorem AckRounds.next (hu : Spans (u.txWindow f) b n) (h : AckRounds u f b n k s)
    (hlt : b + k < n) : AckRounds u f b n (k + 1) (s.ackOldest f) := by
  have hsize := hu.size
  have hspans := h.released.spans
  obtain ⟨hw, hout, -⟩ := ackOldest_spec (A := fun _ => True) s f
  obtain ⟨hcnt, hrate⟩ := ackOldest_counts s f
  have hnode : (s.txWindow f).beginNode = (u.txWindow f).nodeAt k := by
    rw [beginNode, hspans.begin_eq, h.released.kept (b + k) le_rfl (by omega), hu.nodeAt]
  have hheld : (u.txWindow f).heldIn (k + 1) =
      (u.txWindow f).heldIn k + if ((u.txWindow f).nodeAt k).pData.isSome then 1 else 0 := by
    rw [heldIn, oldest_succ, List.countP_append, List.countP_singleton]
    rfl
  rw [hnode] at hout hcnt hrate
  refine ⟨?_, fun i hi => ?_, ?_, ?_, ?_⟩
  · rw [hw, Function.update_self, ← Nat.add_assoc]
    exact h.released.release hlt
  · rw [hw, Function.update_self, beginInc]
    change ((s.txWindow f).setNode _ _).dataNode _ = _
    rw [hspans.begin_eq]
    by_cases hik : i = k
    · rw [hik, setNode_self]
    · rw [setNode_of_ne _ (SerialRing.cell_ne (by omega) (by omega) (by omega))]
      exact h.gone i (by omega)
  · rw [hout, h.out, oldest_succ, List.flatMap_append, List.flatMap_singleton, List.append_assoc]
  · have hprev := h.pktCnt
    rw [hcnt, hheld]
    simp only [u32] at hprev ⊢
    split <;> omega
  · have hprev := h.pktRate
    rw [hrate, hheld]
    simp only [u32] at hprev ⊢
    split <;> omega

theorem moveSsnEnd_counts (u : UserInfo) (f ssn : ℕ) :
    (u.moveSsnEnd f ssn).out = u.out ∧ (u.moveSsnEnd f ssn).schdPara = u.schdPara ∧
      ((u.moveSsnEnd f ssn).trafficControl f).pktRate = (u.trafficControl f).pktRate := by
  rw [moveSsnEnd]
  split
  · refine ⟨rfl, rfl, ?_⟩
    simp [UserInfo.setTrafficControl]
  · exact ⟨rfl, rfl, rfl⟩

/-- The loop of `MPD_processACK` takes the nodes up to the one of the acknowledgement. -/
theorem ackLoop_rounds {d : ℕ} (hu : Spans (u.txWindow f) b n) (hsame : AckRounds u f b n 0 s)
    (hd : b + d ≤ n) :
    ∃ v, ackLoop f ((b + d) % 65536) s = some v ∧ AckRounds u f b n d v := by
  have hsize := hu.size
  have hdist : ∀ k v, k ≤ d → AckRounds u f b n k v →
      distanceSN (v.txWindow f).beginNode.ssn ((b + d) % 65536) = d - k := by
    intro k v hk hv
    rw [hv.released.spans.begin_ssn, distanceSN_of_le (by omega) (by omega)]
    omega
  obtain ⟨v, hv, ⟨k, hk, hI⟩, hdone⟩ := ackLoop_total
    (fun v => ∃ k ≤ d, AckRounds u f b n k v)
    (fun v => distanceSN (v.txWindow f).beginNode.ssn ((b + d) % 65536))
    (fun v ⟨k, hk, hI⟩ hgo => by
      have hlt : k < d := by
        have hgo' := hgo.2
        rw [hdist k v hk hI] at hgo'
        omega
      have hI' := hI.next hu (by omega)
      refine ⟨⟨k + 1, hlt, hI'⟩, ?_⟩
      rw [hdist k v hk hI, hdist (k + 1) _ hlt hI']
      omega)
    ⟨0, Nat.zero_le _, hsame⟩ (by rw [hdist 0 s (Nat.zero_le _) hsame]; omega)
  refine ⟨v, hv, ?_⟩
  have hspans := hI.released.spans
  have heq : k = d := by
    by_contra hne
    refine hdone ⟨?_, ?_⟩
    · rw [hspans.begin_eq, hspans.next_eq]
      exact SerialRing.cell_ne (by omega) (by omega) hspans.size
    · rw [hdist k v hk hI]
      omega
  rwa [heq] at hI

end UserInfo

/-- **Acknowledgements.** One in `(txBegin.SSN, txNext.SSN]` makes its node the oldest: the nodes
before it give back what they hold and are reset, the others stay, and the counters of the scheduler
and of the traffic control go up by the packets given back. Any other changes no node and no
bound. -/
theorem processACK_exact {u : UserInfo} {f ack fs : ℕ} (hu : (u.txWindow f).WellFormed)
    (hf : f < 3) (hack : ack < 65536) (hfs : fs ≠ 0) :
    let w := u.txWindow f
    let d := distanceSN w.beginNode.ssn ack
    ∃ v, u.processACK f ack fs = some v ∧
      (0 < d ∧ d ≤ w.span →
        (v.txWindow f).pTxBegin = (w.pTxBegin + d) % 1024 ∧
        (v.txWindow f).beginNode.ssn = ack ∧
        (v.txWindow f).pTxNext = w.pTxNext ∧
        v.out = u.out ++ (w.oldest d).flatMap (·.releases f) ∧
        (∀ i < 1024, (v.txWindow f).dataNode ((w.pTxBegin + i) % 1024) =
          if i < d then {} else w.nodeAt i) ∧
        u32 (v.schdPara f).pktCnt = u32 ((u.schdPara f).pktCnt + w.heldIn d) ∧
        u32 (v.trafficControl f).pktRate = u32 ((u.trafficControl f).pktRate + w.heldIn d)) ∧
      (¬ (0 < d ∧ d ≤ w.span) →
        (v.txWindow f).dataNode = w.dataNode ∧ (v.txWindow f).pTxBegin = w.pTxBegin ∧
        (v.txWindow f).pTxNext = w.pTxNext ∧ v.out = u.out) := by
  have h := hu.spans
  have hsize := hu.size
  dsimp only
  generalize hb : (u.txWindow f).beginNode.ssn = b at h ⊢
  generalize hspan : (u.txWindow f).span = m at h hsize ⊢
  generalize hd : distanceSN b ack = d
  have hb65536 : b < 65536 := by
    have hssn := h.begin_ssn
    omega
  have hdist : (b + d) % 65536 = ack := by
    have hlt : d < 65536 := by
      rw [← hd]
      exact SerialRing.dist_lt (by decide) _ _
    have hiff := SerialRing.dist_eq_iff (M := 65536) (x := b) (y := ack) hlt
    rw [Nat.mod_eq_of_lt hb65536, Nat.mod_eq_of_lt hack] at hiff
    exact hiff.mp hd
  have hnextSsn : (u.txWindow f).nextNode.ssn = (b + m) % 65536 := h.next_ssn
  have hdistn : distanceSN b ((b + m) % 65536) = m := by
    have hle := distanceSN_of_le (x := b) (y := b + m) (by omega) (by omega)
    rw [Nat.mod_eq_of_lt hb65536] at hle
    omega
  rw [processACK, if_neg (by omega)]
  dsimp only
  set u₀ := u.setTxWindow f { u.txWindow f with ackTimeOutcnt := 0 } with hu₀
  have hw₀ : u₀.txWindow f = { u.txWindow f with ackTimeOutcnt := 0 } := txWindow_setTxWindow ..
  have hbegin₀ : (u₀.txWindow f).beginNode.ssn = b := by
    rw [hw₀]
    exact hb
  have hnext₀ : (u₀.txWindow f).nextNode.ssn = (b + m) % 65536 := by
    rw [hw₀]
    exact hnextSsn
  rw [hbegin₀, hnext₀, hdistn, hd]
  split
  · next hout =>
    refine ⟨u₀, rfl, fun hin => by omega, fun _ => ?_⟩
    rw [hw₀]
    exact ⟨rfl, rfl, rfl, rfl⟩
  · next hin =>
    have hstart : AckRounds u f b (b + m) 0 u₀ := by
      refine ⟨⟨?_, le_rfl, fun x _ _ => by rw [hw₀]⟩, fun i hi => absurd hi (Nat.not_lt_zero i), ?_,
        rfl, rfl⟩
      · rw [hw₀]
        exact h.congr rfl rfl rfl rfl
      · rw [oldest, List.range_zero, List.map_nil, List.flatMap_nil, List.append_nil]
        rfl
    have hle : b + d ≤ b + m := by omega
    obtain ⟨v, hv, hrounds⟩ := ackLoop_rounds h hstart hle
    rw [hdist] at hv
    have hspans := hrounds.released.spans
    obtain ⟨hout, hpara, hrate⟩ := moveSsnEnd_counts v f (v.txWindow f).beginNode.ssn
    refine ⟨_, by rw [hv, Option.map_some], fun _ => ?_, fun hno => absurd ⟨by omega, by omega⟩ hno⟩
    rw [moveSsnEnd_txWindow, hout, hpara, hrate, hspans.begin_ssn, hspans.begin_eq, hspans.next_eq,
      h.begin_eq, h.next_eq, Nat.mod_add_mod]
    refine ⟨rfl, hdist, rfl, hrounds.out, fun i hi => ?_, hrounds.pktCnt, hrounds.pktRate⟩
    rw [Nat.mod_add_mod]
    split
    · next hlt => exact hrounds.gone i hlt
    · rw [hrounds.released.kept (b + i) (by omega) (by omega), h.nodeAt]

/-- A session with two packets outstanding, of which the first is acknowledged. -/
theorem processACK_exact_two :
    let u := ((({} : UserInfo).sendBlock 0 ⟨1, []⟩ 20 0).2.sendBlock 0 ⟨2, []⟩ 20 0).2
    ∃ v, u.processACK 0 1 1 = some v ∧ (v.txWindow 0).pTxBegin = 1 ∧
      v.out = u.out ++ ((u.txWindow 0).oldest 1).flatMap (·.releases 0) := by
  dsimp only
  obtain ⟨-, -, b₁, hb₁, h₁, -⟩ :=
    sendBlock_spec (u := {}) (f := 0) (b := 0) (n := 0) spans_clear ⟨1, []⟩ 20 0
  obtain ⟨-, -, b₂, hb₂, h₂, -⟩ := sendBlock_spec h₁ ⟨2, []⟩ 20 0
  rw [if_neg (by decide)] at hb₁
  subst hb₁
  rw [if_neg (by decide)] at hb₂
  subst hb₂
  obtain ⟨v, hv, hin, -⟩ :=
    @processACK_exact _ 0 1 1 h₂.wellFormed (by decide) (by decide) (by decide)
  rw [h₂.begin_ssn, h₂.span_eq, h₂.begin_eq] at hin
  obtain ⟨hbegin, -, -, hout, -⟩ := hin (by decide)
  exact ⟨v, hv, hbegin, hout⟩

end Mpd

end AndroidVendor
