import AndroidVendor.Mpd.SackExact

/-!
# What a datagram does to the tx window it acknowledges

`MPD_processACK` lets the oldest node go, over and over; `MPD_parserSACK` goes round the nodes with
its cursor, wherever that starts, and passes over a node in a gap or in a block. A round gives the
data of one node back, or hands it to the subflow queue again; beside the rounds the two functions
count, and read the datagram. Whatever survives the rounds and does not look at the counters
survives the datagram, up to the point where its data is stored.

## Main results

* `ackOldest_round`, `sackBlockNode_round`, `sackGapNode_round` — the three rounds
* `AckFrame`, `SackFrame` — what has to survive, with a rule for each function
* `doParseMPData_parts`, `AckFrame.doParseMPData` — a datagram, and the rule for it
-/

namespace AndroidVendor

namespace Mpd

open Loop TxWin

/-! ### Counters -/

/-- The windows differ in counters only. -/
structure TxWin.Alike (w w' : TxWin) : Prop where
  nodes : w'.dataNode = w.dataNode
  pTxBegin : w'.pTxBegin = w.pTxBegin
  pTxNext : w'.pTxNext = w.pTxNext
  subflowSn : w'.subflowSn = w.subflowSn
  pTxLast : w'.pTxLast = w.pTxLast
  timeOutRetCnt : w'.timeOutRetCnt = w.timeOutRetCnt

theorem TxWin.Alike.refl (w : TxWin) : w.Alike w := ⟨rfl, rfl, rfl, rfl, rfl, rfl⟩

theorem TxWin.Alike.trans {w w' w'' : TxWin} (h : w.Alike w') (h' : w'.Alike w'') : w.Alike w'' where
  nodes := h'.nodes.trans h.nodes
  pTxBegin := h'.pTxBegin.trans h.pTxBegin
  pTxNext := h'.pTxNext.trans h.pTxNext
  subflowSn := h'.subflowSn.trans h.subflowSn
  pTxLast := h'.pTxLast.trans h.pTxLast
  timeOutRetCnt := h'.timeOutRetCnt.trans h.timeOutRetCnt

theorem TxWin.Alike.spans {w w' : TxWin} {b n : ℕ} (h : w.Alike w') (hs : w.Spans b n) :
    w'.Spans b n :=
  hs.congr h.pTxBegin h.pTxNext h.subflowSn h.nodes

/-- What `MPD_DoParseMPData` passes to `MPD_processACK` as `firstSack`. -/
def Msg.firstSack (m : Msg) : ℕ := if m.IsAck ∧ m.HasSack then m.byte 14 else 1

namespace UserInfo

variable {P P' : UserInfo → Prop} {u v : UserInfo} {f ack fs : ℕ} {m : Msg}

/-- Counters and what was read are different, and nothing else that a tx window or a slot holds. -/
structure Counts (u v : UserInfo) : Prop where
  windows : ∀ g, (u.txWindow g).Alike (v.txWindow g)
  valid : ∀ g, schdGetFlowValid v g = schdGetFlowValid u g
  rxSubWin : v.rxSubWin = u.rxSubWin
  rxDataWin : v.rxDataWin = u.rxDataWin
  time : v.time = u.time
  out : ∃ as, v.out = u.out ++ as ∧ ∀ a ∈ as, ∃ x, a = .access x

theorem Counts.silent (hw : ∀ g, (u.txWindow g).Alike (v.txWindow g))
    (hv : ∀ g, schdGetFlowValid v g = schdGetFlowValid u g) (hs : v.rxSubWin = u.rxSubWin)
    (hd : v.rxDataWin = u.rxDataWin) (ht : v.time = u.time) (ho : v.out = u.out) : Counts u v :=
  ⟨hw, hv, hs, hd, ht, [], by rw [ho, List.append_nil], fun _ ha => absurd ha List.not_mem_nil⟩

theorem Counts.refl (u : UserInfo) : Counts u u :=
  .silent (fun _ => .refl _) (fun _ => rfl) rfl rfl rfl rfl

theorem Counts.trans {w : UserInfo} (h : Counts u v) (h' : Counts v w) : Counts u w := by
  obtain ⟨as, hout, has⟩ := h.out
  obtain ⟨bs, hout', hbs⟩ := h'.out
  refine ⟨fun g => (h.windows g).trans (h'.windows g), fun g => (h'.valid g).trans (h.valid g),
    h'.rxSubWin.trans h.rxSubWin, h'.rxDataWin.trans h.rxDataWin, h'.time.trans h.time, as ++ bs, ?_,
    fun a ha => ?_⟩
  · rw [hout', hout, List.append_assoc]
  · exact (List.mem_append.mp ha).elim (has a) (hbs a)

theorem counts_emit (u : UserInfo) {as : List Action} (has : ∀ a ∈ as, ∃ x, a = .access x) :
    Counts u (u.emit as) :=
  ⟨fun _ => .refl _, fun _ => rfl, rfl, rfl, rfl, as, rfl, has⟩

theorem counts_setTxWindow (u : UserInfo) (f : ℕ) {w : TxWin} (hw : (u.txWindow f).Alike w) :
    Counts u (u.setTxWindow f w) := by
  refine .silent (fun g => ?_) (fun _ => rfl) rfl rfl rfl rfl
  by_cases hg : g = f
  · rw [hg, txWindow_setTxWindow]
    exact hw
  · rw [txWindow_setTxWindow_of_ne _ _ hg]
    exact .refl _

theorem counts_setTrafficControl (u : UserInfo) (f : ℕ) (t : TrafficControl) :
    Counts u (u.setTrafficControl f t) :=
  .silent (fun _ => .refl _) (fun _ => rfl) rfl rfl rfl rfl

theorem counts_moveSsnEnd (u : UserInfo) (f ssn : ℕ) : Counts u (u.moveSsnEnd f ssn) := by
  rw [UserInfo.moveSsnEnd]
  split
  · exact counts_setTrafficControl u f _
  · exact .refl u

theorem access_of_mem_headReads {offs : List ℕ} {a : Action} (ha : a ∈ m.headReads offs) :
    ∃ x, a = .access x := by
  obtain ⟨i, -, rfl⟩ := List.mem_map.mp ha
  exact ⟨_, rfl⟩

/-! ### The rounds -/

/-- The node at `i` of the tx window of `f` becomes `e`, and `as` is asked for. -/
structure Round (f : ℕ) (u : UserInfo) (i : ℕ) (e : DataNode) (as : List Action) (v : UserInfo) :
    Prop where
  nodes : (v.txWindow f).dataNode = Function.update (u.txWindow f).dataNode i e
  others : ∀ g, g ≠ f → v.txWindow g = u.txWindow g
  pTxLast : (v.txWindow f).pTxLast = (u.txWindow f).pTxLast
  timeOutRetCnt : (v.txWindow f).timeOutRetCnt = (u.txWindow f).timeOutRetCnt
  valid : ∀ g, schdGetFlowValid v g = schdGetFlowValid u g
  time : v.time = u.time
  out : v.out = u.out ++ as

theorem ackOldest_round (u : UserInfo) (f : ℕ) :
    Round f u (u.txWindow f).pTxBegin {} ((u.txWindow f).beginNode.releases f) (u.ackOldest f) := by
  obtain ⟨hw, hout, hstep⟩ := ackOldest_spec (A := fun _ => True) u f
  have hwf : (u.ackOldest f).txWindow f = (u.txWindow f).beginInc := by rw [hw, Function.update_self]
  refine ⟨?_, ?_, ?_, ?_, hstep.valid, hstep.time, hout⟩
  · rw [hwf]
    rfl
  · intro g hg
    rw [hw, Function.update_of_ne hg]
  · rw [hwf]
    rfl
  · rw [hwf]
    rfl

theorem sackBlockNode_round {i : ℕ} (hd : Sound ((u.txWindow f).dataNode i)) :
    Round f u i ((u.txWindow f).dataNode i).cleared (((u.txWindow f).dataNode i).releases f)
      (u.sackBlockNode f i) := by
  obtain ⟨hnodes, htime⟩ := sackBlockNode_nodes hd
  generalize hv : u.sackBlockNode f i = v at hnodes htime ⊢
  rw [sackBlockNode] at hv
  dsimp only at hv
  split at hv
  · next hinit =>
    subst hv
    refine ⟨hnodes, fun _ _ => rfl, rfl, rfl, fun _ => rfl, htime, ?_⟩
    rw [DataNode.releases, if_pos hinit, List.append_nil]
  next hstate =>
  split at hv
  · next hnone => exact absurd (hd.none_iff.mpr hnone) hstate
  next m hm =>
  subst hv
  refine ⟨hnodes, ?_, ?_, ?_, ?_, htime, ?_⟩
  · intro g hg
    rw [countConfirmed_txWindow, txWindow_setTxWindow_of_ne _ _ hg]
    exact congrFun (schdRTTFlowUpdate_txWindow u f i) g
  · rw [countConfirmed_txWindow, txWindow_setTxWindow]
    exact congrArg (fun w => (w f).pTxLast) (schdRTTFlowUpdate_txWindow u f i)
  · rw [countConfirmed_txWindow, txWindow_setTxWindow]
    exact congrArg (fun w => (w f).timeOutRetCnt) (schdRTTFlowUpdate_txWindow u f i)
  · intro g
    exact ((TxStep.countConfirmed (A := fun _ => True) _ f).valid g).trans
      ((TxStep.schdRTTFlowUpdate (A := fun _ => True) u f i).valid g)
  · rw [DataNode.releases, if_neg hstate, hm]
    exact congrArg (· ++ [((u.txWindow f).dataNode i).release f m]) (schdRTTFlowUpdate_out u f i)

/-- A node in a gap is handed on again if that is due, and otherwise left alone. -/
theorem sackGapNode_round {i : ℕ} (hd : Sound ((u.txWindow f).dataNode i)) :
    (((u.txWindow f).dataNode i).Due u.time ∧ ∃ d len ok, ((u.txWindow f).dataNode i).pData = some d ∧
        Round f u i (((u.txWindow f).dataNode i).missed f u.time)
          [.send (getDeviceId f) d len false ok] (u.sackGapNode f i)) ∨
      Counts u (u.sackGapNode f i) := by
  obtain ⟨-, -, -, -, hnodes, htime⟩ := sackGapNode_missed hd
  generalize hv : u.sackGapNode f i = v at hnodes htime ⊢
  rw [sackGapNode] at hv
  dsimp only at hv
  -- the loss is counted
  have hcount : Counts u (if ((u.txWindow f).dataNode i).transState = .waitingAck then
      u.setTrafficControl f { u.trafficControl f with
        pktLossCnt := u32 ((u.trafficControl f).pktLossCnt + 1) } else u) := by
    split
    · exact counts_setTrafficControl u f _
    · exact .refl u
  have hsilent : (if ((u.txWindow f).dataNode i).transState = .waitingAck then
      u.setTrafficControl f { u.trafficControl f with
        pktLossCnt := u32 ((u.trafficControl f).pktLossCnt + 1) } else u).txWindow = u.txWindow ∧
      (if ((u.txWindow f).dataNode i).transState = .waitingAck then
        u.setTrafficControl f { u.trafficControl f with
          pktLossCnt := u32 ((u.trafficControl f).pktLossCnt + 1) } else u).out = u.out := by
    split <;> exact ⟨rfl, rfl⟩
  generalize (if ((u.txWindow f).dataNode i).transState = .waitingAck then
    u.setTrafficControl f { u.trafficControl f with
      pktLossCnt := u32 ((u.trafficControl f).pktLossCnt + 1) } else u) = u₁ at *
  obtain ⟨hw₁, hout₁⟩ := hsilent
  split at hv
  · next hstate =>
    left
    have hdue : ((u.txWindow f).dataNode i).Due u.time := hcount.time ▸ hstate
    have hdata : ((u.txWindow f).dataNode i).transState ≠ .dataInit := by
      intro h0
      simp [h0] at hstate
    obtain ⟨d, hd'⟩ := Option.ne_none_iff_exists'.mp (hd.mp hdata)
    obtain ⟨hist, hwin⟩ := callMPCToRetrans_txWindow u₁ f i
    have hkeep : ((u₁.callMPCToRetrans f i).txWindow f).pTxLast = (u.txWindow f).pTxLast ∧
        ((u₁.callMPCToRetrans f i).txWindow f).timeOutRetCnt = (u.txWindow f).timeOutRetCnt := by
      rw [hwin, Function.update_self, hw₁]
      exact ⟨rfl, rfl⟩
    have hpara : ∀ (w : UserInfo) (p : SchdStreamPara), p.isValid = (w.schdPara f).isValid →
        ∀ g, schdGetFlowValid (w.setSchdPara f p) g = schdGetFlowValid w g :=
      fun w p hp g => (TxStep.setSchdPara (A := fun _ => True) w f hp).valid g
    have hsend : (u₁.callMPCToRetrans f i).out = u.out ++ [.send (getDeviceId f) d
        ((u.txWindow f).dataNode i).payloadLen false (u₁.sends 0)] := by
      rw [callMPCToRetrans, hw₁]
      dsimp only
      rw [hd', ← hout₁]
      rfl
    subst hv
    refine ⟨hdue, d, _, _, hd', hnodes, ?_, ?_, ?_, ?_, htime, hsend⟩
    · intro g hg
      refine (txWindow_setTxWindow_of_ne _ _ hg).trans ?_
      rw [hwin, Function.update_of_ne hg, hw₁]
    · refine (congrArg TxWin.pTxLast (txWindow_setTxWindow ..)).trans ?_
      exact hkeep.1
    · refine (congrArg TxWin.timeOutRetCnt (txWindow_setTxWindow ..)).trans ?_
      exact hkeep.2
    · intro g
      refine (hpara _ _ ?_ g).trans ?_
      · rfl
      exact ((TxStep.callMPCToRetrans (A := fun _ => True) u₁ f i).valid g).trans (hcount.valid g)
  · right
    exact hv ▸ hcount

/-- What survives an acknowledgement: any node may give its data back. -/
structure AckFrame (f : ℕ) (P : UserInfo → Prop) : Prop where
  counts : ∀ u v, P u → Counts u v → P v
  sound : ∀ u i, P u → Sound ((u.txWindow f).dataNode i)
  gives : ∀ u i e v, P u → e.pData = none → Sound e →
    Round f u i e (((u.txWindow f).dataNode i).releases f) v → P v

/-- What survives a SACK: any node it is due for may be handed on again. -/
structure SackFrame (f : ℕ) (P : UserInfo → Prop) : Prop extends AckFrame f P where
  again : ∀ u i d len ok v, P u → ((u.txWindow f).dataNode i).Due u.time →
    ((u.txWindow f).dataNode i).pData = some d →
    Round f u i (((u.txWindow f).dataNode i).missed f u.time) [.send (getDeviceId f) d len false ok] v →
    P v

theorem AckFrame.ackOldest (hP : AckFrame f P) (h : P u) : P (u.ackOldest f) :=
  hP.gives u _ {} _ h rfl sound_default (ackOldest_round u f)

theorem AckFrame.blockNode (hP : AckFrame f P) (h : P u) (i : ℕ) : P (u.sackBlockNode f i) :=
  hP.gives u i _ _ h rfl (by simp [Sound, DataNode.cleared]) (sackBlockNode_round (hP.sound u i h))

theorem SackFrame.gapNode (hP : SackFrame f P) (h : P u) (i : ℕ) : P (u.sackGapNode f i) := by
  rcases sackGapNode_round (hP.sound u i h) with ⟨hdue, d, len, ok, hd, hround⟩ | hcount
  · exact hP.again u i d len ok _ h hdue hd hround
  · exact hP.counts u _ h hcount

/-! ### The two functions -/

theorem AckFrame.emit (hP : AckFrame f P) (h : P u) {as : List Action}
    (has : ∀ a ∈ as, ∃ x, a = .access x) : P (u.emit as) :=
  hP.counts u _ h (counts_emit u has)

theorem AckFrame.processACK (hP : AckFrame f P) (h : P u) (hp : u.processACK f ack fs = some v) :
    P v := by
  rw [UserInfo.processACK] at hp
  split at hp
  · cases hp
    exact h
  have h₁ : P (u.setTxWindow f { u.txWindow f with ackTimeOutcnt := 0 }) :=
    hP.counts u _ h (counts_setTxWindow u f ⟨rfl, rfl, rfl, rfl, rfl, rfl⟩)
  dsimp only at hp
  split at hp
  · cases hp
    exact h₁
  obtain ⟨s, hs, rfl⟩ := Option.map_eq_some_iff.mp hp
  refine hP.counts s _ ?_ (counts_moveSsnEnd s f _)
  refine (whileLoop_inv P (fun a a' ha _ hbody => ?_) h₁ hs).1
  cases hbody
  exact hP.ackOldest ha

theorem SackFrame.block (hP : SackFrame f P) {s t : UserInfo × ℕ} {l r : ℕ} (h : P s.1)
    (hs : sackBlock f s l r = some t) : P t.1 := by
  rw [sackBlock] at hs
  split at hs
  · obtain ⟨s', hgap, hs⟩ := Option.bind_eq_some_iff.mp hs
    have h' : P s'.1 := by
      refine (whileLoop_inv (fun s : UserInfo × ℕ => P s.1) (fun a a' ha _ hbody => ?_) h hgap).1
      cases hbody
      exact hP.gapNode ha _
    split at hs
    · refine (whileLoop_inv (fun s : UserInfo × ℕ => P s.1) (fun a a' ha _ hbody => ?_) h' hs).1
      cases hbody
      exact hP.blockNode ha _
    · cases hs
      exact h'
  · cases hs
    exact h

theorem SackFrame.blocks (hP : SackFrame f P) {s t : UserInfo × ℕ} {is : List ℕ} {l r : ℕ → ℕ}
    (h : P s.1) (hs : is.foldlM (fun s i => sackBlock f s (l i) (r i)) s = some t) : P t.1 := by
  induction is generalizing s with
  | nil =>
    cases hs
    exact h
  | cons i is ih =>
    rw [List.foldlM_cons] at hs
    obtain ⟨s', hs', hs⟩ := Option.bind_eq_some_iff.mp hs
    exact ih (hP.block h hs') hs

theorem SackFrame.parserSACK (hP : SackFrame f P) (h : P u) (hp : u.parserSACK f m ack = some v) :
    P v := by
  rw [UserInfo.parserSACK] at hp
  split at hp
  · cases hp
    exact h
  dsimp only at hp
  have h₁ : P ((u.setTrafficControl f { u.trafficControl f with
      sackNum := u32 ((u.trafficControl f).sackNum + 1) }).emit
      [.access (.read 12 m.data.length), .access (.read 13 m.data.length),
        .access (.read 14 m.data.length), .access (.sub (m.byte 13) 4)]) := by
    refine hP.emit (hP.counts u _ h (counts_setTrafficControl u f _)) fun a ha => ?_
    simp only [List.mem_cons, List.not_mem_nil, or_false] at ha
    rcases ha with rfl | rfl | rfl | rfl <;> exact ⟨_, rfl⟩
  split at hp
  · cases hp
    exact h₁
  generalize (u.setTrafficControl f { u.trafficControl f with
    sackNum := u32 ((u.trafficControl f).sackNum + 1) }).emit
    [.access (.read 12 m.data.length), .access (.read 13 m.data.length),
      .access (.read 14 m.data.length), .access (.sub (m.byte 13) 4)] = u₁ at h₁ hp
  have h₂ : P (u₁.emit (sackReads m (numSack (m.byte 13)))) := by
    refine hP.emit h₁ fun a ha => ?_
    obtain ⟨i, -, rfl⟩ := List.mem_map.mp ha
    exact ⟨_, rfl⟩
  have h₃ := hP.counts _ _ h₂ (counts_setTxWindow _ f (w := { (u₁.emit
    (sackReads m (numSack (m.byte 13)))).txWindow f with retransCnt := 0 })
    ⟨rfl, rfl, rfl, rfl, rfl, rfl⟩)
  split at hp
  · cases hp
    exact h₃
  · obtain ⟨s, hs, rfl⟩ := Option.map_eq_some_iff.mp hp
    exact hP.counts _ _ (hP.blocks h₃ hs) (counts_moveSsnEnd _ f _)

/-! ### A datagram -/

/-- `MPD_DoParseMPData`, part by part: the header is read, the acknowledgement is taken and then the
SACK, if the datagram brings one, and the buffer is given back or its data is stored. -/
theorem doParseMPData_parts (hp : u.doParseMPData m = some v) :
    ∃ u₁, Counts u u₁ ∧ ((u.Rejects m ∧ v = u₁.emit [.free m]) ∨
      (¬ u.Rejects m ∧ ∃ s t, u₁.processACK m.header.stream m.header.ack m.firstSack = some s ∧
        (t = s ∨ m.IsAck ∧ m.HasSack ∧ s.parserSACK m.header.stream m m.header.ack = some t) ∧
        (v = t.emit [.free m] ∨ t.parseData m = some v))) := by
  rw [UserInfo.doParseMPData] at hp
  dsimp only at hp
  have h₁ : Counts u (if m.header.flag = 0x55 then
      (u.emit (m.headReads [0, 1])).emit [.access (.flow m.header.stream)]
      else u.emit (m.headReads [0, 1])) := by
    have hread : Counts u (u.emit (m.headReads [0, 1])) :=
      counts_emit u fun _ => access_of_mem_headReads
    split
    · exact hread.trans (counts_emit _ fun _ ha => ⟨_, List.mem_singleton.mp ha⟩)
    · exact hread
  generalize (if m.header.flag = 0x55 then
    (u.emit (m.headReads [0, 1])).emit [.access (.flow m.header.stream)]
    else u.emit (m.headReads [0, 1])) = u₁ at hp h₁
  have hrej : u₁.Rejects m ↔ u.Rejects m := by rw [Rejects, Rejects, h₁.valid]
  split at hp
  · next hr =>
    cases hp
    exact ⟨u₁, h₁, .inl ⟨hrej.mp hr, rfl⟩⟩
  next hr =>
  have hr' : ¬ u.Rejects m := fun h => hr (hrej.mpr h)
  have hstamp : ∀ (w : UserInfo) (t : ℕ), Counts w { w with lastPackageTime := t } := fun w t =>
    .silent (fun _ => .refl _) (fun _ => rfl) rfl rfl rfl rfl
  have h₂ : Counts u { u₁.emit (m.headReads [2, 3, 4, 5, 6, 7]) with
      lastPackageTime := u32 (u₁.time + 6000) } :=
    (h₁.trans (counts_emit u₁ fun _ => access_of_mem_headReads)).trans (hstamp _ _)
  split at hp
  · next hisack =>
    rw [UserInfo.parseAck] at hp
    obtain ⟨t, ht, rfl⟩ := Option.map_eq_some_iff.mp hp
    have h₃ := h₂.trans (counts_emit _ fun a (ha : a ∈ [Action.access (.sub m.node.mpdHeadLen 12)]) =>
      ⟨_, List.mem_singleton.mp ha⟩)
    split at ht
    · next hhas =>
      obtain ⟨s, hs, ht⟩ := Option.bind_eq_some_iff.mp ht
      have h₄ := h₃.trans (counts_emit _ fun a (ha : a ∈ m.headReads [14]) =>
        access_of_mem_headReads ha)
      have hfirst : m.firstSack = m.byte 14 := if_pos ⟨hisack, hhas⟩
      rw [← hfirst] at hs
      exact ⟨_, h₄, .inr ⟨hr', s, t, hs, .inr ⟨hisack, hhas, ht⟩, .inl rfl⟩⟩
    · next hhas =>
      have hfirst : m.firstSack = 1 := if_neg fun h => hhas h.2
      rw [← hfirst] at ht
      exact ⟨_, h₃, .inr ⟨hr', t, t, ht, .inl rfl, .inl rfl⟩⟩
  · next hdata =>
    obtain ⟨s, hs, hp⟩ := Option.bind_eq_some_iff.mp hp
    have hfirst : m.firstSack = 1 := if_neg fun h => hdata h.1
    rw [← hfirst] at hs
    exact ⟨_, h₂, .inr ⟨hr', s, s, hs, .inl rfl, .inr hp⟩⟩

/-- What survives the acknowledgement, and the SACK if the datagram brings one, holds when the
buffer is given back or when its data is about to be stored. -/
theorem AckFrame.doParseMPData (hP : AckFrame m.header.stream P)
    (hsack : m.IsAck → m.HasSack → SackFrame m.header.stream P) (h : P u)
    (hp : u.doParseMPData m = some v) :
    ∃ s, P s ∧ (v = s.emit [.free m] ∨ s.parseData m = some v) := by
  obtain ⟨u₁, hu₁, ⟨-, hv⟩ | ⟨-, s, t, hs, ht, hv⟩⟩ := doParseMPData_parts hp
  · exact ⟨u₁, hP.counts u u₁ h hu₁, .inl hv⟩
  have hPs : P s := hP.processACK (hP.counts u u₁ h hu₁) hs
  rcases ht with rfl | ⟨hisack, hhas, ht⟩
  · exact ⟨t, hPs, hv⟩
  · exact ⟨t, (hsack hisack hhas).parserSACK hPs ht, hv⟩

end UserInfo

end Mpd

end AndroidVendor
