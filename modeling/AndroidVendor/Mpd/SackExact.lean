import AndroidVendor.Mpd.AckExact
import AndroidVendor.Mpd.SendCustody

/-!
# What a SACK does

Started at a node of the window, the cursor of `MPD_parserSACK` never leaves the window and never
turns back. `SackTrace` says, from the ends of the window and the blocks alone, which nodes it
passes in a gap and which in a block; `Sweep` is what the code has done when it got there.

Positions are SSNs counted on from `txBegin.SSN` without wrapping.

## Main results

* `sackBlock_sweep` — one block: both loops end, where `SackTrace.block` says
* `parserSACK_exact` — a SACK with `firstSack` set
-/

namespace AndroidVendor

namespace Mpd

open Loop TxWin UserInfo

/-! ### What the code looks at -/

/-- The buffers handed to a subflow queue. -/
def queued (as : List Action) : List Msg :=
  as.filterMap fun
    | .send _ m _ _ _ => some m
    | _ => none

/-- The test of `MPD_parserSACK` for sending a node again. -/
def DataNode.Due (d : DataNode) (time : ℕ) : Prop :=
  d.transState = .waitingAck ∨ (d.transState = .sacked ∧ d.toRetrans ≤ time)

instance (d : DataNode) (time : ℕ) : Decidable (d.Due time) := inferInstanceAs (Decidable (_ ∨ _))

/-- A node that a gap was passed over. -/
def DataNode.missed (d : DataNode) (flowId time : ℕ) : DataNode :=
  if d.Due time then
    { d with
      transState := .sacked
      toRetrans := u32 (time + if flowId = 0 then 10 else 6) }
  else d

/-- A node that was reported as received. -/
def DataNode.cleared (d : DataNode) : DataNode := { d with pData := none, transState := .dataInit }

/-- What a missed node hands on. -/
def DataNode.resends (d : DataNode) (time : ℕ) : List Msg := if d.Due time then d.pData.toList else []

/-- The blocks `MPD_parserSACK` goes through: none if it turns the SACK away. -/
def Msg.sackBlocks (m : Msg) : List SackV :=
  if m.byte 12 ≠ 1 ∨ 11 < numSack (m.byte 13) ∨ numSack (m.byte 13) = 0 then []
  else (List.range (numSack (m.byte 13))).map fun i => (m.word (16 + 4 * i), m.word (18 + 4 * i))

/-- Where the cursor is, and the positions it passed in gaps and in blocks. -/
structure SackTrace where
  cursor : ℕ
  gaps : List ℕ := []
  blocks : List ℕ := []

/-- One block, in a window whose `txNext` is at position `n`. A block whose left edge is not ahead
in the window is passed over; of one whose right edge is not, only the gap counts. -/
def SackTrace.block (n : ℕ) (t : SackTrace) (edges : SackV) : SackTrace :=
  let left := t.cursor + distanceSN (t.cursor % 65536) edges.1
  let right := left + distanceSN edges.1 edges.2
  if left < n then
    let gaps := t.gaps ++ List.range' t.cursor (left - t.cursor)
    if right < n then ⟨right + 1, gaps, t.blocks ++ List.range' left (right + 1 - left)⟩
    else ⟨left, gaps, t.blocks⟩
  else t

/-- All blocks. -/
def SackTrace.run (n : ℕ) (t : SackTrace) (sack : List SackV) : SackTrace :=
  sack.foldl (SackTrace.block n) t

/-- The trace of a SACK with `firstSack` set. -/
def TxWin.sackTrace (w : TxWin) (m : Msg) : SackTrace :=
  SackTrace.run (w.beginNode.ssn + w.span) ⟨w.beginNode.ssn, [], []⟩ m.sackBlocks

section Queued

variable {as bs : List Action}

@[simp] theorem queued_append : queued (as ++ bs) = queued as ++ queued bs := List.filterMap_append ..

theorem queued_accesses {xs : List Access} : queued (xs.map .access) = [] := by
  rw [queued, List.filterMap_map]
  exact List.filterMap_eq_nil_iff.mpr fun _ _ => rfl

theorem queued_releases (d : DataNode) (f : ℕ) : queued (d.releases f) = [] := by
  rw [DataNode.releases]
  split
  · rfl
  · cases d.pData with
    | none => rfl
    | some m =>
      rw [Option.toList_some, List.map_singleton, DataNode.release]
      split <;> rfl

end Queued

namespace UserInfo

variable {u s : UserInfo} {f b n p i : ℕ} {gs bs : List ℕ} {z : UserInfo × ℕ}

/-! ### One node -/

/-- A node in a gap. -/
theorem sackGapNode_missed (hd : Sound ((s.txWindow f).dataNode i)) :
    ∃ as, (s.sackGapNode f i).out = s.out ++ as ∧
      queued as = ((s.txWindow f).dataNode i).resends s.time ∧ (∀ a ∈ as, a.frees = 0) ∧
      ((s.sackGapNode f i).txWindow f).dataNode = Function.update (s.txWindow f).dataNode i
        (((s.txWindow f).dataNode i).missed f s.time) ∧
      (s.sackGapNode f i).time = s.time := by
  rw [sackGapNode]
  dsimp only
  generalize hs₁ : (if ((s.txWindow f).dataNode i).transState = .waitingAck then
    s.setTrafficControl f { s.trafficControl f with
      pktLossCnt := u32 ((s.trafficControl f).pktLossCnt + 1) } else s) = s₁
  have hw₁ : s₁.txWindow = s.txWindow ∧ s₁.out = s.out ∧ s₁.time = s.time := by
    rw [← hs₁]
    split <;> exact ⟨rfl, rfl, rfl⟩
  obtain ⟨hw₁, hout₁, htime₁⟩ := hw₁
  split
  · next hstate =>
    have hdue : ((s.txWindow f).dataNode i).Due s.time := htime₁ ▸ hstate
    have hdata : ((s.txWindow f).dataNode i).transState ≠ .dataInit := by
      intro h0
      simp [h0] at hstate
    obtain ⟨m, hm⟩ := Option.ne_none_iff_exists'.mp (hd.mp hdata)
    have hsend : (s₁.callMPCToRetrans f i).out = s.out ++ [.send (getDeviceId f) m
        ((s.txWindow f).dataNode i).payloadLen false (s₁.sends 0)] ∧
        ((s₁.callMPCToRetrans f i).txWindow f).dataNode = (s.txWindow f).dataNode ∧
        (s₁.callMPCToRetrans f i).time = s.time := by
      rw [callMPCToRetrans, hw₁]
      dsimp only
      rw [hm]
      refine ⟨?_, ?_, htime₁⟩
      · rw [← hout₁]
        rfl
      · rw [txWindow_setTxWindow]
        change (s₁.txWindow f).dataNode = _
        rw [hw₁]
    obtain ⟨hout, hnodes, htime⟩ := hsend
    refine ⟨[.send (getDeviceId f) m ((s.txWindow f).dataNode i).payloadLen false (s₁.sends 0)], hout, ?_,
      fun a ha => ?_, ?_, htime⟩
    · rw [DataNode.resends, if_pos hdue, hm]
      rfl
    · obtain rfl := List.mem_singleton.mp ha
      rfl
    · simp only [UserInfo.setSchdPara, txWindow_setTxWindow, setNode, hnodes, htime]
      rw [DataNode.missed, if_pos hdue]
  · next hstate =>
    have hdue : ¬ ((s.txWindow f).dataNode i).Due s.time := htime₁ ▸ hstate
    refine ⟨[], ?_, ?_, fun _ h => absurd h List.not_mem_nil, ?_, htime₁⟩
    · rw [hout₁, List.append_nil]
    · rw [DataNode.resends, if_neg hdue]
      rfl
    · rw [hw₁, DataNode.missed, if_neg hdue, Function.update_eq_self]

/-- A node in a block. -/
theorem sackBlockNode_nodes (hd : Sound ((s.txWindow f).dataNode i)) :
    ((s.sackBlockNode f i).txWindow f).dataNode = Function.update (s.txWindow f).dataNode i
        ((s.txWindow f).dataNode i).cleared ∧
      (s.sackBlockNode f i).time = s.time := by
  rw [sackBlockNode]
  dsimp only
  split
  · next hinit =>
    have hnone := hd.none_iff.mp hinit
    refine ⟨?_, rfl⟩
    rw [eq_comm, Function.update_eq_iff]
    refine ⟨?_, fun _ _ => rfl⟩
    rw [DataNode.cleared, ← hnone, ← hinit]
  next hstate =>
  split
  · next hnone => exact absurd (hd.none_iff.mpr hnone) hstate
  · next m hm =>
    have htime : ∀ v : UserInfo, (v.schdRTTFlowUpdate f i).time = v.time := by
      intro v
      rw [schdRTTFlowUpdate]
      split <;> rfl
    refine ⟨?_, htime s⟩
    rw [countConfirmed_txWindow, txWindow_setTxWindow]
    simp [UserInfo.emit, setNode, DataNode.cleared]

/-! ### The cursor in the window -/

/-- What the node at position `x` has become, `gs` passed in gaps and `bs` in blocks. -/
def swept (u : UserInfo) (f : ℕ) (gs bs : List ℕ) (x : ℕ) : DataNode :=
  let d := (u.txWindow f).dataNode (x % 1024)
  if x ∈ gs then d.missed f u.time else if x ∈ bs then d.cleared else d

/-- The cursor stands at position `p` of the window `[b, n]`, and has passed `gs` in gaps and `bs`
in blocks. -/
structure Sweep (u : UserInfo) (f b n p : ℕ) (gs bs : List ℕ) (z : UserInfo × ℕ) : Prop where
  cell : z.2 = p % 1024
  le : p ≤ n
  spans : Spans (z.1.txWindow f) b n
  others : ∀ j, j ≠ f → z.1.txWindow j = u.txWindow j
  time : z.1.time = u.time
  passed : ∀ x ∈ gs ++ bs, b ≤ x ∧ x < p
  nodes : ∀ x, b ≤ x → x < b + 1024 → (z.1.txWindow f).dataNode (x % 1024) = swept u f gs bs x
  out : ∃ as, z.1.out = u.out ++ as ∧
    queued as = gs.flatMap (fun x => ((u.txWindow f).dataNode (x % 1024)).resends u.time) ∧
    ∀ a ∈ as, a.frees ≠ 0 → ∃ x ∈ bs, a ∈ ((u.txWindow f).dataNode (x % 1024)).releases f

/-- Nothing is swept by what hands nothing on and gives nothing back. -/
theorem sweep_nil (h : Spans (u.txWindow f) b n) (hn : p ≤ n) {w : UserInfo} {as : List Action}
    (hout : w.out = u.out ++ as) (hhanded : queued as = []) (hfrees : ∀ a ∈ as, a.frees = 0)
    (htime : w.time = u.time) (hoth : ∀ j, j ≠ f → w.txWindow j = u.txWindow j)
    (hw : ∃ c, w.txWindow f = { u.txWindow f with retransCnt := c }) :
    Sweep u f b n p [] [] (w, p % 1024) := by
  obtain ⟨c, hw⟩ := hw
  refine ⟨rfl, hn, ?_, hoth, htime, fun x hx => absurd hx List.not_mem_nil, fun x _ _ => ?_,
    as, hout, hhanded, fun a ha hfree => absurd (hfrees a ha) hfree⟩
  · rw [hw]
    exact h.congr rfl rfl rfl rfl
  · rw [hw]
    simp [swept]

theorem Sweep.node (h : Sweep u f b n p gs bs z) (hb : b ≤ p) (hp : p < b + 1024) :
    (z.1.txWindow f).dataNode z.2 = (u.txWindow f).dataNode (p % 1024) := by
  have hnot : p ∉ gs ++ bs := fun hmem => absurd (h.passed p hmem).2 (lt_irrefl p)
  rw [List.mem_append, not_or] at hnot
  rw [h.cell, h.nodes p hb hp, swept, if_neg hnot.1, if_neg hnot.2]

theorem Sweep.ssnAt (h : Sweep u f b n p gs bs z) (hb : b ≤ p) : z.1.ssnAt f z.2 = p % 65536 := by
  rw [UserInfo.ssnAt, h.cell, h.spans.num p hb h.le]

theorem Sweep.gapNode (h : Sweep u f b n p gs bs z) (hb : b ≤ p) (hlt : p < n) :
    Sweep u f b n (p + 1) (gs ++ [p]) bs (z.1.sackGapNode f z.2, txPlus z.2) := by
  have hsize := h.spans.size
  have hnode := h.node hb (by omega)
  obtain ⟨as, hout, hhanded, hfrees⟩ := h.out
  obtain ⟨as', hout', hhanded', hfrees', hnodes', htime'⟩ :=
    sackGapNode_missed (s := z.1) (f := f) (i := z.2) (h.spans.sound _)
  obtain ⟨-, hoth, hspans, -⟩ := sackGapNode_spec (A := fun _ => True) z.1 f z.2 h.spans
  rw [hnode, h.time] at hhanded' hnodes'
  refine ⟨?_, hlt, hspans, fun j hj => (hoth j hj).trans (h.others j hj), htime'.trans h.time,
    fun x hx => ?_, fun x hbx hx => ?_, as ++ as', ?_, ?_, fun a ha hfree => ?_⟩
  · rw [h.cell, txPlus_mod]
  · rw [List.append_assoc, List.mem_append, List.mem_append, List.mem_singleton] at hx
    rcases hx with hx | rfl | hx
    · have := h.passed x (List.mem_append_left _ hx)
      omega
    · omega
    · have := h.passed x (List.mem_append_right _ hx)
      omega
  · rw [hnodes', h.cell, SerialRing.update_cell hb (by omega) hbx hx, h.nodes x hbx hx]
    simp only [swept, List.mem_append, List.mem_singleton]
    split
    · next heq => rw [heq, if_pos (Or.inr rfl)]
    · next hne => simp [hne]
  · rw [hout', hout, List.append_assoc]
  · rw [queued_append, hhanded, hhanded', List.flatMap_append, List.flatMap_singleton]
  · rcases List.mem_append.mp ha with ha | ha
    · exact hfrees a ha hfree
    · exact absurd (hfrees' a ha) hfree

theorem Sweep.blockNode (h : Sweep u f b n p gs bs z) (hb : b ≤ p) (hlt : p < n) :
    Sweep u f b n (p + 1) gs (bs ++ [p]) (z.1.sackBlockNode f z.2, txPlus z.2) := by
  have hsize := h.spans.size
  have hnode := h.node hb (by omega)
  have hnot : p ∉ gs := fun hmem =>
    absurd (h.passed p (List.mem_append_left _ hmem)).2 (lt_irrefl p)
  obtain ⟨as, hout, hhanded, hfrees⟩ := h.out
  obtain ⟨hnodes', htime'⟩ := sackBlockNode_nodes (s := z.1) (f := f) (i := z.2) (h.spans.sound _)
  have hout' : (z.1.sackBlockNode f z.2).out =
      z.1.out ++ ((z.1.txWindow f).dataNode z.2).releases f := by
    rw [sackBlockNode, DataNode.releases]
    split
    · rw [List.append_nil]
    · split
      · next hnone => rw [hnone, Option.toList_none, List.map_nil, List.append_nil]
      · next m hm =>
        rw [hm]
        simp [UserInfo.emit, UserInfo.setTxWindow]
  obtain ⟨-, hoth, hspans, -⟩ := sackBlockNode_spec (A := fun _ => True) z.1 f z.2 h.spans
  rw [hnode] at hout' hnodes'
  refine ⟨?_, hlt, hspans, fun j hj => (hoth j hj).trans (h.others j hj), htime'.trans h.time,
    fun x hx => ?_, fun x hbx hx => ?_,
    as ++ ((u.txWindow f).dataNode (p % 1024)).releases f, ?_, ?_, fun a ha hfree => ?_⟩
  · rw [h.cell, txPlus_mod]
  · rw [← List.append_assoc, List.mem_append, List.mem_singleton] at hx
    rcases hx with hx | rfl
    · have := h.passed x hx
      omega
    · omega
  · rw [hnodes', h.cell, SerialRing.update_cell hb (by omega) hbx hx, h.nodes x hbx hx]
    simp only [swept, List.mem_append, List.mem_singleton]
    split
    · next heq => rw [heq, if_neg hnot, if_pos (Or.inr rfl)]
    · next hne => simp [hne]
  · rw [hout', hout, List.append_assoc]
  · rw [queued_append, hhanded, queued_releases, List.append_nil]
  · rcases List.mem_append.mp ha with ha | ha
    · obtain ⟨x, hx, hrel⟩ := hfrees a ha hfree
      exact ⟨x, List.mem_append_left _ hx, hrel⟩
    · exact ⟨p, List.mem_append_right _ (List.mem_singleton_self p), ha⟩

/-! ### The loops -/

/-- The loop over a gap ends at the left edge. -/
theorem Sweep.gap {e : ℕ} (h : Sweep u f b n p gs bs z) (hb : b ≤ p) (he : p + e < n) :
    ∃ y, sackGap f ((p + e) % 65536) z = some y ∧
      Sweep u f b n (p + e) (gs ++ List.range' p e) bs y := by
  have hsize := h.spans.size
  have hdist : ∀ k y, k ≤ e → Sweep u f b n (p + k) (gs ++ List.range' p k) bs y →
      distanceSN (y.1.ssnAt f y.2) ((p + e) % 65536) = e - k := by
    intro k y hk hy
    rw [hy.ssnAt (by omega), distanceSN_of_le (by omega) (by omega)]
    omega
  have hstart : Sweep u f b n (p + 0) (gs ++ List.range' p 0) bs z := by
    rwa [Nat.add_zero, List.range'_zero, List.append_nil]
  obtain ⟨y, hy, ⟨k, hk, hI⟩, hdone⟩ := sackGap_total
    (fun y => ∃ k ≤ e, Sweep u f b n (p + k) (gs ++ List.range' p k) bs y)
    (fun y => distanceSN (y.1.ssnAt f y.2) ((p + e) % 65536))
    (by
      rintro y ⟨k, hk, hI⟩ hgo
      have hlt : k < e := by
        rw [InGap, hdist k y hk hI] at hgo
        omega
      have hI' := hI.gapNode (by omega) (by omega)
      rw [List.append_assoc, ← List.range'_1_concat, Nat.add_assoc] at hI'
      refine ⟨⟨k + 1, hlt, hI'⟩, ?_⟩
      rw [hdist k y hk hI, hdist (k + 1) _ hlt hI']
      omega)
    ⟨0, Nat.zero_le _, hstart⟩ (by rw [hdist 0 z (Nat.zero_le _) hstart]; omega)
  refine ⟨y, hy, ?_⟩
  rw [InGap, hdist k y hk hI, not_not] at hdone
  have heq : k = e := by omega
  rwa [heq] at hI

/-- The loop over a block ends behind the right edge. -/
theorem Sweep.block {e : ℕ} (h : Sweep u f b n p gs bs z) (hb : b ≤ p) (he : p + e < n) :
    ∃ y, sackBlockRun f ((p + e) % 65536) z = some y ∧
      Sweep u f b n (p + (e + 1)) gs (bs ++ List.range' p (e + 1)) y := by
  have hsize := h.spans.size
  -- `k` nodes done; behind the right edge the distance wraps
  have hgoes : ∀ k y, k ≤ e + 1 → Sweep u f b n (p + k) gs (bs ++ List.range' p k) y →
      (InBlock f ((p + e) % 65536) y ↔ k ≤ e) := by
    intro k y hk hy
    rw [InBlock, hy.ssnAt (by omega)]
    rcases Nat.lt_or_ge e k with hlt | hge
    · rw [distanceSN_of_lt (by omega) (by omega)]
      omega
    · rw [distanceSN_of_le (by omega) (by omega)]
      omega
  have hstart : Sweep u f b n (p + 0) gs (bs ++ List.range' p 0) z := by
    rwa [Nat.add_zero, List.range'_zero, List.append_nil]
  have hmeasure : ∀ k y, k ≤ e + 1 → Sweep u f b n (p + k) gs (bs ++ List.range' p k) y →
      distanceSN (y.1.ssnAt f y.2) ((p + (e + 1)) % 65536) = e + 1 - k := by
    intro k y hk hy
    rw [hy.ssnAt (by omega), distanceSN_of_le (by omega) (by omega)]
    omega
  obtain ⟨y, hy, ⟨k, hk, hI⟩, hdone⟩ := sackBlockRun_total
    (fun y => ∃ k ≤ e + 1, Sweep u f b n (p + k) gs (bs ++ List.range' p k) y)
    (fun y => distanceSN (y.1.ssnAt f y.2) ((p + (e + 1)) % 65536))
    (by
      rintro y ⟨k, hk, hI⟩ hgo
      have hlt : k ≤ e := (hgoes k y hk hI).mp hgo
      have hI' := hI.blockNode (by omega) (by omega)
      rw [List.append_assoc, ← List.range'_1_concat, Nat.add_assoc] at hI'
      refine ⟨⟨k + 1, by omega, hI'⟩, ?_⟩
      rw [hmeasure k y hk hI, hmeasure (k + 1) _ (by omega) hI']
      omega)
    ⟨0, Nat.zero_le _, hstart⟩ (by rw [hmeasure 0 z (Nat.zero_le _) hstart]; omega)
  refine ⟨y, hy, ?_⟩
  rw [hgoes k y hk hI] at hdone
  have heq : k = e + 1 := by omega
  rwa [heq] at hI

/-- **One block.** -/
theorem sackBlock_sweep {t : SackTrace} {edges : SackV} (h : Sweep u f b n t.cursor t.gaps t.blocks z)
    (hb : b ≤ t.cursor) (hl : edges.1 < 65536) (hr : edges.2 < 65536) :
    ∃ y, sackBlock f z edges.1 edges.2 = some y ∧ b ≤ (t.block n edges).cursor ∧
      Sweep u f b n (t.block n edges).cursor (t.block n edges).gaps (t.block n edges).blocks y := by
  have hsize := h.spans.size
  have hle := h.le
  obtain ⟨left, hcl, hlc, hleft⟩ := SerialRing.exists_position hl t.cursor
  have hdl : distanceSN (t.cursor % 65536) edges.1 = left - t.cursor := by
    rw [← hleft, distanceSN_of_le hcl hlc]
  obtain ⟨right, hlr, hrl, hright⟩ := SerialRing.exists_position hr left
  have hdr : distanceSN edges.1 edges.2 = right - left := by
    rw [← hleft, ← hright, distanceSN_of_le hlr hrl]
  have hnext : distanceSN (t.cursor % 65536) (n % 65536) = n - t.cursor :=
    distanceSN_of_le hle (by omega)
  rw [sackBlock, SackTrace.block, h.ssnAt hb, h.spans.next_ssn, hdl, hdr, hnext]
  dsimp only
  rw [Nat.add_sub_cancel' hcl, Nat.add_sub_cancel' hlr]
  by_cases hgo : left < n
  · rw [if_pos (by omega), if_pos hgo]
    obtain ⟨y, hy, hsweep⟩ := h.gap hb (e := left - t.cursor) (by omega)
    rw [Nat.add_sub_cancel' hcl] at hy hsweep
    rw [← hleft, hy, Option.bind_some, hsweep.ssnAt (by omega), ← hright,
      distanceSN_of_le hlr hrl, distanceSN_of_le hgo.le (by omega)]
    by_cases hgo' : right < n
    · rw [if_pos (by omega), if_pos hgo']
      obtain ⟨x, hx, hsweep'⟩ := hsweep.block (by omega) (e := right - left) (by omega)
      rw [Nat.add_sub_cancel' hlr] at hx
      rw [show left + (right - left + 1) = right + 1 by omega,
        show right - left + 1 = right + 1 - left by omega] at hsweep'
      exact ⟨x, hx, by dsimp only; omega, hsweep'⟩
    · rw [if_neg (by omega), if_neg hgo']
      exact ⟨y, rfl, by dsimp only; omega, hsweep⟩
  · rw [if_neg (by omega), if_neg hgo]
    exact ⟨z, rfl, hb, h⟩

/-- All blocks. -/
theorem sackBlocks_sweep {sack : List SackV} {t : SackTrace}
    (h : Sweep u f b n t.cursor t.gaps t.blocks z) (hb : b ≤ t.cursor)
    (hedges : ∀ e ∈ sack, e.1 < 65536 ∧ e.2 < 65536) :
    ∃ y, sack.foldlM (fun s e => sackBlock f s e.1 e.2) z = some y ∧ b ≤ (t.run n sack).cursor ∧
      Sweep u f b n (t.run n sack).cursor (t.run n sack).gaps (t.run n sack).blocks y := by
  induction sack generalizing t z with
  | nil => exact ⟨z, rfl, hb, h⟩
  | cons e sack ih =>
    obtain ⟨hl, hr⟩ := hedges e (List.mem_cons_self ..)
    obtain ⟨y, hy, hb', hsweep⟩ := sackBlock_sweep h hb hl hr
    obtain ⟨x, hx, hb'', hsweep'⟩ := ih hsweep hb' fun e he => hedges e (List.mem_cons_of_mem _ he)
    exact ⟨x, by rw [List.foldlM_cons, hy]; exact hx, hb'', hsweep'⟩

theorem sackBlocks_lt {m : Msg} : ∀ e ∈ m.sackBlocks, e.1 < 65536 ∧ e.2 < 65536 := by
  intro e he
  rw [Msg.sackBlocks] at he
  split at he
  · exact absurd he List.not_mem_nil
  · obtain ⟨i, -, rfl⟩ := List.mem_map.mp he
    exact ⟨m.word_lt _, m.word_lt _⟩

/-- `MPD_parserSACK` from a node of the window: it ends, and has swept what the trace says. -/
theorem parserSACK_sweep {m : Msg} {ack p : ℕ} (h : Spans (u.txWindow f) b n) (hf : f < 3)
    (hb : b ≤ p) (hn : p ≤ n)
    (hcur : if m.byte 14 = 0 then ack = p % 65536 else p = b) :
    let t := SackTrace.run n ⟨p, [], []⟩ m.sackBlocks
    ∃ v, u.parserSACK f m ack = some v ∧
      Sweep u f b n t.cursor t.gaps t.blocks (v, t.cursor % 1024) := by
  dsimp only
  have hreads : ∀ xs : List Access, ∀ a ∈ xs.map Action.access, a.frees = 0 := by
    intro xs a ha
    obtain ⟨x, -, rfl⟩ := List.mem_map.mp ha
    rfl
  rw [parserSACK, if_neg (by omega)]
  dsimp only
  set u₁ := (u.setTrafficControl f { u.trafficControl f with
    sackNum := u32 ((u.trafficControl f).sackNum + 1) }).emit
    [.access (.read 12 m.data.length), .access (.read 13 m.data.length),
      .access (.read 14 m.data.length), .access (.sub (m.byte 13) 4)] with hu₁
  have hout₁ : u₁.out = u.out ++ ([.read 12 m.data.length, .read 13 m.data.length,
    .read 14 m.data.length, .sub (m.byte 13) 4] : List Access).map .access := rfl
  split
  · next hturned =>
    refine ⟨u₁, rfl, ?_⟩
    rw [Msg.sackBlocks, if_pos hturned]
    exact sweep_nil h hn hout₁ queued_accesses (hreads _) rfl (fun _ _ => rfl) ⟨_, rfl⟩
  next hblocks =>
  set u₂ := (u₁.emit (sackReads m (numSack (m.byte 13)))).setTxWindow f
    { u₁.txWindow f with retransCnt := 0 } with hu₂
  have hsackReads : sackReads m (numSack (m.byte 13)) =
      ((List.range (4 * numSack (m.byte 13))).map fun i => Access.read (16 + i) m.data.length).map
        .access := by
    rw [sackReads, List.map_map]
    rfl
  have hsweep₂ : Sweep u f b n p [] [] (u₂, p % 1024) := by
    refine sweep_nil h hn
      ((congrArg (· ++ sackReads m (numSack (m.byte 13))) hout₁).trans (List.append_assoc ..)) ?_
      (fun a ha => ?_) rfl (fun j hj => txWindow_setTxWindow_of_ne _ _ hj)
      ⟨0, txWindow_setTxWindow ..⟩
    · rw [queued_append, hsackReads, queued_accesses, queued_accesses, List.append_nil]
    · rw [hsackReads] at ha
      rcases List.mem_append.mp ha with ha | ha
      · exact hreads _ a ha
      · exact hreads _ a ha
  have hssn := h.num p hb hn
  rw [if_neg (by
    rintro ⟨hfirst, hne⟩
    rw [if_pos hfirst] at hcur
    refine hne ?_
    change ((u.txWindow f).dataNode _).ssn = ack
    rw [hcur, show p % 65536 % 1024 = p % 1024 by omega, hssn])]
  have hcell : (if m.byte 14 = 0 then ack % 1024 else (u.txWindow f).pTxBegin) = p % 1024 := by
    split at hcur
    · next hfirst => rw [if_pos hfirst, hcur, show p % 65536 % 1024 = p % 1024 by omega]
    · next hfirst => rw [if_neg hfirst, h.begin_eq, hcur]
  obtain ⟨y, hy, -, hsweep⟩ := sackBlocks_sweep (t := ⟨p, [], []⟩) hsweep₂ hb sackBlocks_lt
  rw [Msg.sackBlocks, if_neg hblocks, List.foldlM_map] at hy
  refine ⟨y.1.moveSsnEnd f (y.1.ssnAt f y.2), ?_, ?_⟩
  · change Option.map _ (List.foldlM _ (u₂, if m.byte 14 = 0 then ack % 1024
      else (u.txWindow f).pTxBegin) _) = _
    rw [hcell, hy, Option.map_some]
  · have htime : ∀ ssn, (y.1.moveSsnEnd f ssn).time = y.1.time := by
      intro ssn
      rw [moveSsnEnd]
      split <;> rfl
    refine ⟨rfl, hsweep.le, ?_, ?_, (htime _).trans hsweep.time, hsweep.passed, ?_, ?_⟩
    · rw [moveSsnEnd_txWindow]
      exact hsweep.spans
    · rw [moveSsnEnd_txWindow]
      exact hsweep.others
    · rw [moveSsnEnd_txWindow]
      exact hsweep.nodes
    · rw [(moveSsnEnd_counts _ _ _).1]
      exact hsweep.out

/-- The same, where the SACK says that its first block starts at the oldest node. -/
theorem parserSACK_sweep_oldest {m : Msg} (h : Spans (u.txWindow f) b n) (hf : f < 3)
    (hfirst : m.byte 14 ≠ 0) (ack : ℕ) :
    let t := SackTrace.run n ⟨b, [], []⟩ m.sackBlocks
    ∃ v, u.parserSACK f m ack = some v ∧
      Sweep u f b n t.cursor t.gaps t.blocks (v, t.cursor % 1024) :=
  parserSACK_sweep h hf le_rfl h.le (by rw [if_neg hfirst])

/-- A position that was passed in a block lies between the edges of one. -/
theorem SackTrace.run_blocks {sack : List SackV} {t : SackTrace} {x : ℕ}
    (hedges : ∀ e ∈ sack, e.1 < 65536 ∧ e.2 < 65536) (hx : x ∈ (t.run n sack).blocks) :
    x ∈ t.blocks ∨ ∃ e ∈ sack, distanceSN e.1 (x % 65536) ≤ distanceSN e.1 e.2 := by
  induction sack generalizing t with
  | nil => exact .inl hx
  | cons e sack ih =>
    have hrest : ∀ e' ∈ sack, e'.1 < 65536 ∧ e'.2 < 65536 :=
      fun e' he' => hedges e' (List.mem_cons_of_mem _ he')
    rcases ih hrest (t := t.block n e) hx with hin | ⟨e', he', hle⟩
    · obtain ⟨hl, hr⟩ := hedges e (List.mem_cons_self ..)
      obtain ⟨left, hcl, hlc, hleft⟩ := SerialRing.exists_position hl t.cursor
      have hdl : distanceSN (t.cursor % 65536) e.1 = left - t.cursor := by
        rw [← hleft, distanceSN_of_le hcl hlc]
      obtain ⟨right, hlr, hrl, hright⟩ := SerialRing.exists_position hr left
      have hdr : distanceSN e.1 e.2 = right - left := by
        rw [← hleft, ← hright, distanceSN_of_le hlr hrl]
      rw [SackTrace.block, hdl, hdr] at hin
      dsimp only at hin
      rw [Nat.add_sub_cancel' hcl, Nat.add_sub_cancel' hlr] at hin
      split at hin
      · split at hin
        · rcases List.mem_append.mp hin with hin | hin
          · exact .inl hin
          · rw [List.mem_range'_1] at hin
            refine .inr ⟨e, List.mem_cons_self .., ?_⟩
            rw [hdr, ← hleft, distanceSN_of_le hin.1 (by omega)]
            omega
        · exact .inl hin
      · exact .inl hin
    · exact .inr ⟨e', List.mem_cons_of_mem _ he', hle⟩

theorem flatMap_resends (w : TxWin) (time : ℕ) (gs : List ℕ) :
    gs.flatMap (fun x => (w.dataNode (x % 1024)).resends time) =
      ((gs.map fun x => w.dataNode (x % 1024)).filter (·.Due time)).filterMap (·.pData) := by
  induction gs with
  | nil => rfl
  | cons x gs ih =>
    rw [List.flatMap_cons, ih, List.map_cons, List.filter_cons, DataNode.resends]
    split
    · next hdue =>
      rw [if_pos (decide_eq_true hdue), List.filterMap_cons]
      cases (w.dataNode (x % 1024)).pData with
      | none => rfl
      | some m => rfl
    · next hdue => rw [if_neg (by simpa using hdue), List.nil_append]

end UserInfo

variable {u : UserInfo} {f ack : ℕ} {m : Msg}

/-- **A SACK with `firstSack` set.** Whatever its blocks are, `MPD_parserSACK` ends and leaves
`txBegin` and `txNext` where they are. Only outstanding nodes inside some block give their data
back, and of the nodes in the gaps passed over exactly those that are due are handed to the subflow
queue again, in order. -/
theorem parserSACK_exact (hu : (u.txWindow f).WellFormed) (hf : f < 3) (hfirst : m.byte 14 ≠ 0) :
    let w := u.txWindow f
    let t := w.sackTrace m
    ∃ v as, u.parserSACK f m ack = some v ∧ v.out = u.out ++ as ∧
      (v.txWindow f).pTxBegin = w.pTxBegin ∧ (v.txWindow f).pTxNext = w.pTxNext ∧
      (∀ a ∈ as, a.frees ≠ 0 →
        ∃ i < w.span, a ∈ (w.nodeAt i).releases f ∧ Reported m (w.nodeAt i)) ∧
      queued as =
        ((t.gaps.map fun x => w.dataNode (x % 1024)).filter (·.Due u.time)).filterMap (·.pData) ∧
      ∀ i < 1024, (v.txWindow f).dataNode ((w.pTxBegin + i) % 1024) =
        u.swept f t.gaps t.blocks (w.beginNode.ssn + i) := by
  have h := hu.spans
  dsimp only
  obtain ⟨v, hv, hsweep⟩ := parserSACK_sweep_oldest h hf hfirst ack
  rw [← TxWin.sackTrace] at hsweep
  have hreported : ∀ x ∈ ((u.txWindow f).sackTrace m).blocks, ∀ d : DataNode, d.ssn = x % 65536 →
      Reported m d := by
    intro x hx d hd
    rcases SackTrace.run_blocks sackBlocks_lt hx with hnil | ⟨e, he, hle⟩
    · exact absurd hnil List.not_mem_nil
    · rw [Msg.sackBlocks] at he
      split at he
      · exact absurd he List.not_mem_nil
      · obtain ⟨k, hk, rfl⟩ := List.mem_map.mp he
        refine ⟨k, List.mem_range.mp hk, ?_⟩
        rw [InEdges, hd]
        exact hle
  generalize (u.txWindow f).sackTrace m = t at hsweep hreported ⊢
  have hle := hsweep.le
  obtain ⟨as, hout, hhanded, hfrees⟩ := hsweep.out
  refine ⟨v, as, hv, hout, ?_, ?_, fun a ha hfree => ?_, ?_, fun i hi => ?_⟩
  · rw [hsweep.spans.begin_eq, h.begin_eq]
  · rw [hsweep.spans.next_eq, h.next_eq]
  · obtain ⟨x, hx, hrel⟩ := hfrees a ha hfree
    obtain ⟨hbx, hxc⟩ := hsweep.passed x (List.mem_append_right _ hx)
    obtain ⟨i, rfl⟩ := Nat.exists_eq_add_of_le hbx
    refine ⟨i, by omega, ?_, hreported _ hx _ ?_⟩
    · rw [h.nodeAt]
      exact hrel
    · rw [h.nodeAt, h.num _ hbx (by omega)]
  · rw [hhanded]
    exact flatMap_resends _ _ _
  · rw [h.begin_eq, Nat.mod_add_mod]
    exact hsweep.nodes _ (by omega) (by omega)

/-- Two packets are outstanding, and the second is reported. -/
theorem parserSACK_exact_two :
    let u := ((({} : UserInfo).sendBlock 0 ⟨1, []⟩ 20 0).2.sendBlock 0 ⟨2, []⟩ 20 0).2
    let m : Msg := ⟨3, List.replicate 12 0 ++ [1, 8, 1, 0, 0, 1, 0, 1]⟩
    ∃ v as, u.parserSACK 0 m 0 = some v ∧ v.out = u.out ++ as ∧ (v.txWindow 0).pTxBegin = 0 ∧
      (queued as).map (·.addr) = [1] := by
  dsimp only
  obtain ⟨-, -, b₁, hb₁, h₁, -⟩ :=
    sendBlock_spec (u := {}) (f := 0) (b := 0) (n := 0) spans_clear ⟨1, []⟩ 20 0
  obtain ⟨-, -, b₂, hb₂, h₂, -⟩ := sendBlock_spec h₁ ⟨2, []⟩ 20 0
  rw [if_neg (by decide)] at hb₁
  subst hb₁
  rw [if_neg (by decide)] at hb₂
  subst hb₂
  obtain ⟨v, as, hv, hout, hbegin, -, -, hhanded, -⟩ :=
    @parserSACK_exact _ 0 0 ⟨3, List.replicate 12 0 ++ [1, 8, 1, 0, 0, 1, 0, 1]⟩
      h₂.wellFormed (by decide) (by decide)
  refine ⟨v, as, hv, hout, by rw [hbegin, h₂.begin_eq], ?_⟩
  rw [hhanded]
  decide +kernel

end Mpd

end AndroidVendor
