import AndroidVendor.Mpd.NodeInv
import AndroidVendor.Mpd.ResendTurn

/-!
# The oldest packet of a subflow

`MPD_timeoutTxWinSuspend` raises an exception for an active subflow when the time-out of its oldest
packet is the tick the clock shows. Which packet that is, other operations decide: it stays the
oldest until it is acknowledged or pushed out of a full window.

## Main results

* `timeoutTxWinSuspend` — the check, with `timeoutTxWinSuspend_exception` for what it raises
* `Op.promoted` — the packet that an operation makes the oldest of an active subflow
* `step_succeeds` — there is no other way to become the oldest, but to be sent
* `step_time` — only the tick moves the clock
-/

namespace AndroidVendor

namespace Mpd

open Loop TxWin UserInfo

namespace UserInfo

/-! ### The check -/

/-- `MPD_timeoutTxWinSuspend` for one subflow. -/
def timeoutTxWinSuspendFlow (u : UserInfo) (flowId : ℕ) : UserInfo :=
  let w := u.txWindow flowId
  if !schdGetFlowValid u flowId then u
  else if w.beginNode.transState ≠ .dataInit ∧ w.beginNode.toDataAck = u.time then
    u.emit [.exception flowId (-2)]
  else u

/-- `MPD_timeoutTxWinSuspend`. -/
def timeoutTxWinSuspend (u : UserInfo) : UserInfo := [0, 1, 2].foldl timeoutTxWinSuspendFlow u

/-- The check finds the oldest packet of `f` at its time-out. -/
def Expires (u : UserInfo) (f : ℕ) : Prop :=
  schdGetFlowValid u f = true ∧ (u.txWindow f).beginNode.transState ≠ .dataInit ∧
    (u.txWindow f).beginNode.toDataAck = u.time

instance (u : UserInfo) (f : ℕ) : Decidable (u.Expires f) := inferInstanceAs (Decidable (_ ∧ _ ∧ _))

variable {u v s : UserInfo} {op : Op} {f : ℕ} {m : Msg}

theorem timeoutTxWinSuspendFlow_eq (u : UserInfo) (f : ℕ) :
    u.timeoutTxWinSuspendFlow f = u.emit (if u.Expires f then [.exception f (-2)] else []) := by
  have hnothing : u.emit [] = u := by simp [emit]
  rw [timeoutTxWinSuspendFlow]
  cases hvalid : schdGetFlowValid u f with
  | false =>
    rw [if_neg fun h : u.Expires f => Bool.false_ne_true (hvalid.symm.trans h.1), hnothing]
    rfl
  | true =>
    by_cases hgo : (u.txWindow f).beginNode.transState ≠ .dataInit ∧
        (u.txWindow f).beginNode.toDataAck = u.time
    · rw [if_pos (show u.Expires f from ⟨hvalid, hgo⟩)]
      exact if_pos hgo
    · rw [if_neg fun h : u.Expires f => hgo h.2, hnothing]
      exact if_neg hgo

/-- The check asks for an exception for each subflow that it finds so, and does nothing else. -/
theorem timeoutTxWinSuspend_eq (u : UserInfo) :
    u.timeoutTxWinSuspend = u.emit ([0, 1, 2].flatMap fun f =>
      if u.Expires f then [.exception f (-2)] else []) := by
  have hfold : ∀ (fs : List ℕ) (v : UserInfo), fs.foldl timeoutTxWinSuspendFlow v =
      v.emit (fs.flatMap fun f => if v.Expires f then [.exception f (-2)] else []) := by
    intro fs
    induction fs with
    | nil =>
      intro v
      simp [emit]
    | cons f fs ih =>
      intro v
      rw [List.foldl_cons, timeoutTxWinSuspendFlow_eq, ih, List.flatMap_cons]
      -- what was asked for does not matter to the subflows that follow
      exact congrArg (fun as => { v with out := as }) (List.append_assoc ..)
  exact hfold [0, 1, 2] u

theorem timeoutTxWinSuspend_exception (u : UserInfo) :
    ∃ as, u.timeoutTxWinSuspend = u.emit as ∧
      ∀ f < 3, .exception f (-2) ∈ as ↔ u.Expires f := by
  refine ⟨_, timeoutTxWinSuspend_eq u, fun f hf => ?_⟩
  rw [List.mem_flatMap]
  constructor
  · rintro ⟨g, -, hmem⟩
    split at hmem
    · next hexpires =>
      obtain ⟨rfl, -⟩ := Action.exception.inj (List.mem_singleton.mp hmem)
      exact hexpires
    · exact absurd hmem List.not_mem_nil
  · intro hexpires
    refine ⟨f, ?_, by rw [if_pos hexpires]; exact List.mem_singleton_self _⟩
    simp only [List.mem_cons, List.not_mem_nil, or_false]
    omega

end UserInfo

/-! ### The succession -/

/-- The node that `op` makes the oldest of an active subflow without putting a packet into it: an
acknowledgement does so, sending into a window that gets too full, and a subflow that is
activated. -/
def Op.promoted (op : Op) (u : UserInfo) : Option (ℕ × ℕ) :=
  match op with
  | .recv m =>
    let w := u.txWindow m.header.stream
    let d := distanceSN w.beginNode.ssn m.header.ack
    if ¬ u.Rejects m ∧ m.firstSack ≠ 0 ∧ 0 < d ∧ d ≤ w.span then
      some (m.header.stream, m.header.ack % 1024)
    else none
  | .send (some flowId) _ length =>
    let w := u.txWindow flowId
    let n := w.span + u.sendCount length
    if schdGetFlowValid u flowId ∧ 12 ≤ length ∧ 1023 < n then
      some (flowId, (w.pTxBegin + (n - 1023)) % 1024)
    else none
  | .setFlowValid flowId true =>
    if schdGetFlowValid u flowId then none else some (flowId, (u.txWindow flowId).pTxBegin)
  | _ => none

/-- Both nodes hold the same packet, or data that was there before is gone. -/
structure DataNode.Keeps (d e : DataNode) : Prop where
  pData : e.pData ≠ none → e.pData = d.pData
  t1 : e.pData ≠ none → e.t1 = d.t1

/-- Where the oldest packet of an active subflow comes from: it was sent just now, or it was in the
window before, as the oldest packet already or made so by `op`. -/
def Op.Succeeds (op : Op) (u v : UserInfo) : Prop :=
  ∀ f, schdGetFlowValid v f = true → (v.txWindow f).beginNode.pData ≠ none →
    (v.txWindow f).beginNode.t1 = u.time ∨
      (((u.txWindow f).dataNode (v.txWindow f).pTxBegin).Keeps (v.txWindow f).beginNode ∧
        ((v.txWindow f).pTxBegin = (u.txWindow f).pTxBegin ∧ schdGetFlowValid u f = true ∨
          op.promoted u = some (f, (v.txWindow f).pTxBegin)))

section Succeeds

variable {u v s : UserInfo} {op : Op} {f : ℕ} {m : Msg}

theorem DataNode.Keeps.refl (d : DataNode) : d.Keeps d := ⟨fun _ => rfl, fun _ => rfl⟩

theorem DataNode.Keeps.trans {d e g : DataNode} (h : d.Keeps e) (h' : e.Keeps g) : d.Keeps g := by
  have hsome : g.pData ≠ none → e.pData ≠ none := by
    intro hg
    rwa [← h'.pData hg]
  exact ⟨fun hg => (h'.pData hg).trans (h.pData (hsome hg)),
    fun hg => (h'.t1 hg).trans (h.t1 (hsome hg))⟩

/-- The oldest nodes are where they were, and no packet was put anywhere. -/
structure Steady (u v : UserInfo) : Prop where
  pTxBegin : ∀ f, (v.txWindow f).pTxBegin = (u.txWindow f).pTxBegin
  keeps : ∀ f i, ((u.txWindow f).dataNode i).Keeps ((v.txWindow f).dataNode i)
  valid : ∀ f, schdGetFlowValid v f = schdGetFlowValid u f

theorem Steady.trans (h : Steady u s) (h' : Steady s v) : Steady u v where
  pTxBegin f := (h'.pTxBegin f).trans (h.pTxBegin f)
  keeps f i := (h.keeps f i).trans (h'.keeps f i)
  valid f := (h'.valid f).trans (h.valid f)

theorem steady_alike (hw : ∀ f, (u.txWindow f).Alike (v.txWindow f))
    (hv : ∀ f, schdGetFlowValid v f = schdGetFlowValid u f) : Steady u v where
  pTxBegin f := (hw f).pTxBegin
  keeps f i := by
    rw [(hw f).nodes]
    exact .refl _
  valid := hv

theorem Steady.succeeds (h : Steady u v) (op : Op) : op.Succeeds u v := by
  intro f hvalid _
  refine .inr ⟨?_, .inl ⟨h.pTxBegin f, (h.valid f).symm.trans hvalid⟩⟩
  exact h.keeps f _

/-! ### Operations that promote nothing -/

theorem steady_txWinRetransFlow (hd : ∀ i, Sound ((u.txWindow f).dataNode i)) :
    Steady u (u.txWinRetransFlow f) := by
  have hvalid := (TxStep.txWinRetransFlow (A := fun _ => True) u f).valid
  rcases txWinRetransFlow_cases hd with ⟨k, -, hv⟩ | ⟨i, d, as, hr⟩
  · rw [hv]
    constructor
    · intro g
      by_cases hg : g = f
      · rw [hg, txWindow_setTxWindow]
      · rw [txWindow_setTxWindow_of_ne _ _ hg]
    · intro g i
      by_cases hg : g = f
      · rw [hg, txWindow_setTxWindow]
        exact .refl _
      · rw [txWindow_setTxWindow_of_ne _ _ hg]
        exact .refl _
    · intro g
      rfl
  · constructor
    · intro g
      by_cases hg : g = f
      · rw [hg, hr.pTxBegin]
      · rw [hr.others g hg]
    · intro g j
      by_cases hg : g = f
      · rw [hg, hr.nodes, Function.update_apply]
        split
        · next heq =>
          rw [heq]
          exact ⟨fun _ => rfl, fun _ => rfl⟩
        · exact .refl _
      · rw [hr.others g hg]
        exact .refl _
    · exact hvalid

theorem steady_txWinRetransCheck (htx : TxOk u) : Steady u u.txWinRetransCheck := by
  have hsound : ∀ {v : UserInfo}, TxOk v → ∀ f i, Sound ((v.txWindow f).dataNode i) := by
    intro v hv f
    obtain ⟨b, n, hs⟩ := hv f
    exact hs.sound
  rw [UserInfo.txWinRetransCheck]
  split
  · have h₀ := steady_txWinRetransFlow (hsound htx 0)
    have h₁ := steady_txWinRetransFlow (hsound (htx.txWinRetransFlow 0) 1)
    have h₂ := steady_txWinRetransFlow (hsound ((htx.txWinRetransFlow 0).txWinRetransFlow 1) 2)
    exact (h₀.trans h₁).trans h₂
  · exact steady_alike (fun _ => .refl _) fun _ => rfl

theorem succeeds_setFlowValid (u : UserInfo) (f : Fin 3) (flag : Bool) :
    (Op.setFlowValid f flag).Succeeds u (u.schdSetFlowValid f flag) := by
  intro g hvalid _
  refine .inr ⟨.refl _, ?_⟩
  by_cases hg : g = f
  · subst hg
    rw [schdSetFlowValid_self] at hvalid
    subst hvalid
    cases hold : schdGetFlowValid u f with
    | true => exact .inl ⟨rfl, rfl⟩
    | false =>
      right
      rw [Op.promoted, if_neg (by simp [hold])]
      rfl
  · rw [schdSetFlowValid_of_ne u flag hg] at hvalid
    exact .inl ⟨rfl, hvalid⟩

theorem succeeds_clearTxWin (u : UserInfo) (f : Fin 3) :
    (Op.clearTxWin f).Succeeds u (u.clearTxWin f) := by
  intro g hvalid hsome
  have hold : schdGetFlowValid u g = true :=
    ((TxStep.clearTxWin (A := fun _ => True) u f).valid g).symm.trans hvalid
  by_cases hg : g = f
  · rw [hg, UserInfo.clearTxWin, txWindow_setTxWindow] at hsome
    exact absurd rfl hsome
  · have hw : (u.clearTxWin f).txWindow g = u.txWindow g := by
      rw [UserInfo.clearTxWin, txWindow_setTxWindow_of_ne _ _ hg, clearTxNodes_txWindow _ _ hg]
    rw [hw]
    exact .inr ⟨.refl _, .inl ⟨rfl, hold⟩⟩

/-! ### New data -/

theorem succeeds_send (htx : TxOk u) (flowId : Option (Fin 3)) (data : Msg) (length : ℕ) :
    (Op.send flowId data length).Succeeds u
      (u.doSendNewTransData (flowId.map (·.val)) data length).2 := by
  have hvalid := valid_doSendNewTransData u (flowId.map (·.val)) data length
  cases flowId with
  | none =>
    refine Steady.succeeds (steady_alike (fun f => ?_) hvalid) _
    rw [show (u.doSendNewTransData (Option.map (·.val) (none : Option (Fin 3))) data
      length).2.txWindow = u.txWindow by rw [doSendNewTransData.eq_def]; split <;> rfl]
    exact .refl _
  | some f =>
    obtain ⟨b, n, hs⟩ := htx f
    obtain ⟨k, as, b', hk, h⟩ := doSendNewTransData_sent hs data length
    rw [Option.map_some] at hvalid ⊢
    generalize (u.doSendNewTransData (some f.val) data length).2 = v at h hvalid ⊢
    intro g hg hsome
    have hold : schdGetFlowValid u g = true := (hvalid g).symm.trans hg
    by_cases hgf : g = f
    swap
    · rw [h.others g hgf]
      exact .inr ⟨.refl _, .inl ⟨rfl, hold⟩⟩
    subst hgf
    have hnew := h.spans
    have hle := hs.le
    have hsize := hs.size
    have hbegin := h.begin_le
    rw [beginNode, hnew.begin_eq] at hsome ⊢
    rcases Nat.lt_or_ge b' n with hlt | hge
    · -- a packet of the window before
      rw [h.kept b' le_rfl hlt]
      refine .inr ⟨.refl _, ?_⟩
      by_cases hsame : b' = b
      · exact .inl ⟨by rw [hsame, hs.begin_eq], hold⟩
      · have hfull := h.begin_eq.resolve_left hsame
        have hadd := h.begin_add
        obtain ⟨rfl, hlen⟩ := hk.resolve_left (by omega)
        right
        rw [Op.promoted, hs.span_eq, if_pos ⟨hold, hlen, by omega⟩, hs.begin_eq, Nat.mod_add_mod,
          show b + (n - b + u.sendCount length - 1023) = b' by omega]
    · -- a packet that was just sent
      rcases Nat.lt_or_ge b' (n + k) with hlt | hend
      · obtain ⟨-, -, -, ht⟩ := h.fresh b' le_rfl hge hlt
        exact .inl ht
      · exact absurd (hnew.idle b' hend (by omega)) hsome

/-! ### A datagram -/

/-- What a node was passed over for does not put a packet into it. -/
theorem keeps_frame (u : UserInfo) (f : ℕ) :
    SackFrame f fun v => (∀ i, Sound ((v.txWindow f).dataNode i)) ∧
      ∀ g i, ((u.txWindow g).dataNode i).Keeps ((v.txWindow g).dataNode i) := by
  have hupdate : ∀ {v w : UserInfo} {i : ℕ} {e : DataNode}, (∀ i, Sound ((v.txWindow f).dataNode i)) →
      (∀ g i, ((u.txWindow g).dataNode i).Keeps ((v.txWindow g).dataNode i)) →
      (w.txWindow f).dataNode = Function.update (v.txWindow f).dataNode i e →
      (∀ g, g ≠ f → w.txWindow g = v.txWindow g) → Sound e → ((v.txWindow f).dataNode i).Keeps e →
      (∀ i, Sound ((w.txWindow f).dataNode i)) ∧
        ∀ g i, ((u.txWindow g).dataNode i).Keeps ((w.txWindow g).dataNode i) := by
    intro v w i e hsound hkeeps hnodes hoth he hve
    refine ⟨fun j => ?_, fun g j => ?_⟩
    · rw [hnodes, Function.update_apply]
      split
      · exact he
      · exact hsound j
    · by_cases hg : g = f
      · rw [hg, hnodes, Function.update_apply]
        split
        · next heq =>
          rw [heq]
          exact (hkeeps f i).trans hve
        · exact hkeeps f j
      · rw [hoth g hg]
        exact hkeeps g j
  constructor
  · constructor
    · intro v w ⟨hsound, hkeeps⟩ hc
      refine ⟨fun i => ?_, fun g i => ?_⟩
      · rw [(hc.windows f).nodes]
        exact hsound i
      · rw [(hc.windows g).nodes]
        exact hkeeps g i
    · intro v i h
      exact h.1 i
    · intro v i e w ⟨hsound, hkeeps⟩ hnone he hr
      exact hupdate hsound hkeeps hr.nodes hr.others he
        ⟨fun hsome => absurd hnone hsome, fun hsome => absurd hnone hsome⟩
  · intro v i d len ok w ⟨hsound, hkeeps⟩ hdue hdata hr
    rw [DataNode.missed, if_pos hdue] at hr
    refine hupdate hsound hkeeps hr.nodes hr.others ?_ ⟨fun _ => rfl, fun _ => rfl⟩
    simp [Sound, hdata]

theorem steady_parserSACK {b n ack : ℕ} (hs : Spans (u.txWindow f) b n)
    (hp : u.parserSACK f m ack = some v) : Steady u v := by
  have hsack := parserSACK_spec (A := fun _ => True) hs (fun _ _ => trivial) hp
  constructor
  · intro g
    by_cases hg : g = f
    · rw [hg, hsack.spans.begin_eq, hs.begin_eq]
    · rw [hsack.others g hg]
  · exact ((keeps_frame u f).parserSACK ⟨hs.sound, fun _ _ => .refl _⟩ hp).2
  · exact hsack.step.valid

theorem succeeds_recv (htx : TxOk u) (hp : u.doParseMPData m = some v) :
    (Op.recv m).Succeeds u v := by
  obtain ⟨u₁, hcount, ⟨-, rfl⟩ | ⟨hrej, s, t, hs, ht, hv⟩⟩ := doParseMPData_parts hp
  · exact Steady.succeeds (steady_alike hcount.windows hcount.valid) _
  obtain ⟨b, n, hspans⟩ := htx m.header.stream
  have hspans₁ := (hcount.windows m.header.stream).spans hspans
  obtain ⟨s', b', hs', hstep, hoth, hrel, hack, -⟩ := processACK_spec (A := fun _ => True) m.firstSack
    hspans₁ (m.word_lt 6)
  obtain rfl : s' = s := Option.some.inj (hs'.symm.trans hs)
  have hafter : Steady s' t := by
    rcases ht with rfl | ⟨-, -, ht⟩
    · exact steady_alike (fun _ => .refl _) fun _ => rfl
    · exact steady_parserSACK hrel.spans ht
  have hstore : Steady t v := by
    rcases hv with rfl | hv
    · exact steady_alike (fun _ => .refl _) fun _ => rfl
    · have hside := RxStep.parseData hv
      refine steady_alike (fun g => ?_) fun g => ?_
      · rw [hside.txWindow]
        exact .refl _
      · rw [schdGetFlowValid, hside.schdPara]
        rfl
  have hrest := hafter.trans hstore
  have hsize := hspans.size
  have hle := hrel.spans.le
  have hbegin := hrel.begin_le
  intro g hvalid hsome
  have hold : schdGetFlowValid u g = true := by
    rw [← hcount.valid g, ← hvalid, hrest.valid g]
    exact (hstep.valid g).symm
  have hkeeps := hrest.keeps g (v.txWindow g).pTxBegin
  right
  by_cases hg : g = m.header.stream
  swap
  · rw [hrest.pTxBegin g, hoth g hg, (hcount.windows g).pTxBegin] at hkeeps ⊢
    rw [(hcount.windows g).nodes] at hkeeps
    refine ⟨?_, .inl ⟨rfl, hold⟩⟩
    rw [beginNode, hrest.pTxBegin g, hoth g hg, (hcount.windows g).pTxBegin]
    exact hkeeps
  subst hg
  have hidx : (v.txWindow m.header.stream).pTxBegin = b' % 1024 := by
    rw [hrest.pTxBegin, hrel.spans.begin_eq]
  rw [beginNode, hidx]
  rw [hidx, hrel.kept b' le_rfl (by omega), (hcount.windows m.header.stream).nodes] at hkeeps
  refine ⟨hkeeps, ?_⟩
  by_cases hsame : b' = b
  · exact .inl ⟨by rw [hsame, hspans.begin_eq], hold⟩
  · -- the acknowledgement made it the oldest
    have hackb : b' % 65536 = m.header.ack := hack.resolve_left hsame
    have hfirst : m.firstSack ≠ 0 := by
      intro hzero
      rw [UserInfo.processACK, if_pos (.inr hzero)] at hs
      obtain rfl := Option.some.inj hs
      have heq := hrel.spans.begin_eq.symm.trans hspans₁.begin_eq
      exact SerialRing.cell_ne (by omega) (by omega) (by omega) heq.symm
    right
    rw [Op.promoted, hspans.begin_ssn, ← hackb, distanceSN_of_le hbegin (by omega), hspans.span_eq,
      if_pos ⟨hrej, hfirst, by omega, by omega⟩, show b' % 65536 % 1024 = b' % 1024 by omega]

/-- **The succession.** Only a new packet, and the one that `op` promotes, become the oldest of an
active subflow. -/
theorem step_succeeds (htx : TxOk u) (hs : op.step u = some v) : op.Succeeds u v := by
  have hsilent : ∀ w : UserInfo, w.txWindow = u.txWindow → w.schdPara = u.schdPara →
      op.Succeeds u w := by
    intro w hw hpara
    refine Steady.succeeds (steady_alike (fun f => ?_) fun f => ?_) _
    · rw [hw]
      exact .refl _
    · rw [schdGetFlowValid, hpara]
      rfl
  have hside : ∀ w, RxStep u w → op.Succeeds u w := fun w hw => hsilent w hw.txWindow hw.schdPara
  cases op with
  | recv m => exact succeeds_recv htx hs
  | tick =>
    cases hs
    exact hsilent _ rfl rfl
  | dataWinTimeOutCheck => exact hside v (RxStep.dataWinTimeOutCheck hs)
  | checkAck =>
    cases hs
    exact hside _ (RxStep.checkAck u)
  | sackPeriodSend =>
    cases hs
    have hack := AckStep.sackPeriodSend u
    refine Steady.succeeds (steady_alike (fun f => ?_) fun f => ?_) _
    · obtain ⟨t, ht⟩ := hack.windows f
      rw [ht]
      exact ⟨rfl, rfl, rfl, rfl, rfl, rfl⟩
    · rw [schdGetFlowValid, hack.schdPara]
      rfl
  | txWinRetransCheck =>
    cases hs
    exact (steady_txWinRetransCheck htx).succeeds _
  | send flowId data length =>
    cases hs
    exact succeeds_send htx flowId data length
  | setFlowValid flowId flag =>
    cases hs
    exact succeeds_setFlowValid u flowId flag
  | clearTxWin flowId =>
    cases hs
    exact succeeds_clearTxWin u flowId
  | clearSubWin flowId =>
    cases hs
    exact hsilent _ rfl rfl
  | changeDataWinFlowId flowId =>
    cases hs
    exact hside _ (RxStep.changeFlowIdFrom _ _ _)
  | clearDataWin => exact hside v (RxStep.clearDataWin hs)

/-! ### The clock -/

theorem doParseMPData_time (htx : TxOk u) (hp : u.doParseMPData m = some v) : v.time = u.time := by
  obtain ⟨u₁, hcount, ⟨-, rfl⟩ | ⟨-, s, t, hs, ht, hv⟩⟩ := doParseMPData_parts hp
  · exact hcount.time
  obtain ⟨b, n, hspans⟩ := htx m.header.stream
  have hspans₁ := (hcount.windows m.header.stream).spans hspans
  obtain ⟨s', b', hs', hstep, -, hrel, -⟩ := processACK_spec (A := fun _ => True) m.firstSack hspans₁
    (m.word_lt 6)
  obtain rfl : s' = s := Option.some.inj (hs'.symm.trans hs)
  have hafter : t.time = s'.time := by
    rcases ht with rfl | ⟨-, -, ht⟩
    · rfl
    · exact (parserSACK_spec (A := fun _ => True) hrel.spans (fun _ _ => trivial) ht).step.time
  have hstore : v.time = t.time := by
    rcases hv with rfl | hv
    · rfl
    · exact (RxStep.parseData hv).time
  exact ((hstore.trans hafter).trans hstep.time).trans hcount.time

/-- Only the tick moves the clock. -/
theorem step_time (htx : TxOk u) (hop : op ≠ .tick) (hs : op.step u = some v) : v.time = u.time := by
  cases op with
  | recv m => exact doParseMPData_time htx hs
  | tick => exact absurd rfl hop
  | dataWinTimeOutCheck => exact (RxStep.dataWinTimeOutCheck hs).time
  | checkAck =>
    cases hs
    exact (RxStep.checkAck u).time
  | sackPeriodSend =>
    cases hs
    exact (AckStep.sackPeriodSend u).time
  | txWinRetransCheck =>
    cases hs
    exact (TxStep.txWinRetransCheck (A := fun _ => True) u).time
  | send flowId data length =>
    cases hs
    exact doSendNewTransData_time u _ data length
  | setFlowValid flowId flag =>
    cases hs
    rfl
  | clearTxWin flowId =>
    cases hs
    exact (TxStep.clearTxWin (A := fun _ => True) u flowId).time
  | clearSubWin flowId =>
    cases hs
    rfl
  | changeDataWinFlowId flowId =>
    cases hs
    exact (RxStep.changeFlowIdFrom _ _ _).time
  | clearDataWin => exact (RxStep.clearDataWin hs).time

end Succeeds

end Mpd

end AndroidVendor
