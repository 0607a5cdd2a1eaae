import AndroidVendor.Mpd.TapeArrival

/-!
# Timers and clears of the data window

`MPD_DataWinTimeOutCheck`, `MPD_CheckAck`, `MPD_ChangeDataWinFlowId` and `MPD_ClearDataWin` on the
tape. Their loops count slots, so they end; what they lead to is a window at rest again.

## Main results

* `dataWinTimeOutCheck_spec`, `checkAck_spec`, `changeDataWinFlowId_spec`, `clearDataWin_spec`
-/

namespace AndroidVendor

namespace Mpd

open Loop Relation

namespace UserInfo

variable {u u' : UserInfo} {T T' : Tape} {A : Action → Prop}

theorem Refines.nodeCnt_eq (h : Refines u T) : u.nodeCnt = T.rxNext - T.rxBegin := by
  rw [nodeCnt, h.begin_eq, h.next_eq]
  exact SerialRing.dist_of_le h.le h.size

/-! ### `MPD_DataWinTimeOutCheck` -/

/-- The slots that are looked at time out or stay as they are. -/
theorem dataWinTimeOutScan_spec {cnt p : ℕ} (h : Refines u T) (hblank : (T.cell T.rxNext).Blank)
    (hb : T.rxBegin ≤ p) (hn : p + cnt = T.rxNext) :
    ∃ T', Refines (dataWinTimeOutScan cnt (p % 4096) u).1 T' ∧ Tape.Steps A T T' ∧
      (T'.cell T'.rxNext).Blank ∧ ((dataWinTimeOutScan cnt (p % 4096) u).2 = false →
        (dataWinTimeOutScan cnt (p % 4096) u).1 = u) := by
  induction cnt generalizing u T p with
  | zero => exact ⟨T, h, .refl, hblank, fun _ => rfl⟩
  | succ cnt ih =>
    rw [dataWinTimeOutScan]
    dsimp only
    rw [dataWinPlus_mod, h.cell' hb (by omega)]
    split
    · split
      · have hsame : (T.cell p).Same { T.cell p with timeOut := true } :=
          ⟨rfl, rfl, rfl, rfl, rfl, rfl, rfl, Iff.rfl, id, fun _ => rfl, .inl rfl⟩
        have htouch := h.setNode hb (by omega) (n := { T.cell p with timeOut := true })
          (h.num p hb (by omega))
        obtain ⟨T', h', hsteps, hblank', -⟩ := ih htouch (Tape.setCell_next_blank (by omega) hblank)
          (p := p + 1) (Nat.le_succ_of_le hb) (by rw [Tape.setCell_rxNext]; omega)
        exact ⟨T', h', .head (.touch hb (by omega) hsame fun hne => absurd rfl hne) hsteps, hblank',
          by simp⟩
      · exact ⟨T, h, .refl, hblank, fun _ => rfl⟩
    · exact ih h hblank (Nat.le_succ_of_le hb) (by omega)

theorem dataWinTimeOutCheck_spec (h : AtRest u T) :
    ∃ u' T', u.dataWinTimeOutCheck = some u' ∧ AtRest u' T' ∧ Tape.Steps A T T' := by
  have hle := h.le
  obtain ⟨T₁, h₁, hsteps, hblank, hsame⟩ :=
    dataWinTimeOutScan_spec (A := A) h.toRefines h.next_blank le_rfl
      (Nat.add_sub_cancel' hle)
  rw [← h.toRefines.nodeCnt_eq, ← h.begin_eq] at h₁ hsame
  rw [dataWinTimeOutCheck]
  split
  · obtain ⟨u', T', hmove, h', hsteps', -⟩ := dataWinRxBeginMove_spec (A := A) h₁ hblank
    exact ⟨u', T', hmove, h', hsteps.trans hsteps'⟩
  · next hfalse => exact ⟨u, T, congrArg _ (hsame (by simpa using hfalse)), h, .refl⟩

/-! ### `MPD_CheckAck` -/

/-- One round of `MPD_CheckAck`. -/
theorem checkAckNode_spec {p : ℕ} (h : AtRest u T) (hb : T.rxBegin ≤ p) (hn : p < T.rxNext)
    (hA : T.Allows A p) :
    ∃ T', AtRest (u.checkAckNode (p % 4096)) T' ∧ ReflTransGen (Tape.Look A) T T' ∧
      T'.Allows A (p + 1) ∧ T'.rxBegin = T.rxBegin ∧ T'.rxNext = T.rxNext := by
  rw [checkAckNode]
  dsimp only
  rw [h.cell p hb hn]
  split
  · exact ⟨T, h, .refl, fun q m hq => hA q m (by omega), rfl, rfl⟩
  next hlook =>
  obtain ⟨hc, hf⟩ : (T.cell p).status = .receiveComplete ∧ (T.cell p).flag = .unChecked := by
    rw [not_or, not_not, not_not] at hlook
    exact hlook
  -- whatever becomes of the flag, the window is at rest
  have hrest : ∀ {v : UserInfo} {S : Tape}, AtRest v S → S.rxBegin = T.rxBegin →
      S.rxNext = T.rxNext → S.cell = T.cell → ∀ flag, AtRest
        (v.setRxDataWinNode (p % 4096) { T.cell p with flag := flag })
        (S.setCell p { T.cell p with flag := flag }) := by
    intro v S hv hSb hSn hSc flag
    refine ⟨hv.toRefines.setNode (by omega) (by omega) (h.num p hb hn.le), ?_, ?_⟩
    · exact Tape.setCell_next_blank (by omega) hv.next_blank
    · exact Tape.setCell_head_idle hv.head_idle (by rw [hSc]; exact id)
  have hsame : (T.cell p).Same { T.cell p with flag := .checked } := by
    refine ⟨rfl, rfl, rfl, rfl, rfl, rfl, rfl, ?_, fun _ => hf, fun hun => ?_, .inl rfl⟩
    · simp [hf]
    · rw [hc] at hun
      cases hun
  cases hm : (T.cell p).msgPtr 0 with
  | none =>
    exact ⟨_, hrest h rfl rfl rfl .checked,
      .single (.step (.touch hb hn.le hsame fun hne => absurd rfl hne)), hA.touched _, rfl, rfl⟩
  | some m =>
    have hreads : Tape.Step A T (T.emit ((T.cell p).checkReads m)) :=
      .other (hA p m le_rfl hn hc hf hm)
    have hemit : AtRest (u.emit ((T.cell p).checkReads m)) (T.emit ((T.cell p).checkReads m)) :=
      ⟨h.toRefines.emit _, h.next_blank, h.head_idle⟩
    dsimp only
    split
    · next hack =>
      have h₁ := hrest hemit rfl rfl rfl .sended
      refine ⟨(T.emit ((T.cell p).checkReads m)).early p,
        ⟨h₁.toRefines.emit _, h₁.next_blank, h₁.head_idle⟩, ?_, hA.touched _, rfl, rfl⟩
      exact (ReflTransGen.single (.step hreads)).tail (.early hb hn hc hf hm hack)
    · have h₁ := hrest hemit rfl rfl rfl .checked
      refine ⟨_, h₁, ?_, hA.touched _, rfl, rfl⟩
      exact (ReflTransGen.single (.step hreads)).tail
        (.step (.touch hb hn.le hsame fun hne => absurd rfl hne))

theorem checkAckFrom_spec {cnt p : ℕ} (h : AtRest u T) (hb : T.rxBegin ≤ p)
    (hn : p + cnt = T.rxNext) (hA : T.Allows A p) :
    ∃ T', AtRest (checkAckFrom cnt (p % 4096) u) T' ∧ ReflTransGen (Tape.Look A) T T' := by
  induction cnt generalizing u T p with
  | zero => exact ⟨T, h, .refl⟩
  | succ cnt ih =>
    rw [checkAckFrom, dataWinPlus_mod]
    obtain ⟨T₁, h₁, hlook, hA₁, hb₁, hn₁⟩ := checkAckNode_spec h hb (by omega) hA
    obtain ⟨T', h', hlook'⟩ := ih h₁ (p := p + 1) (by omega) (by omega) hA₁
    exact ⟨T', h', hlook.trans hlook'⟩

theorem checkAck_spec (h : AtRest u T) (hA : u.rxDataWin.newData → T.Allows A T.rxBegin) :
    ∃ T', AtRest u.checkAck T' ∧ ReflTransGen (Tape.Look A) T T' ∧
      (u.rxDataWin.newData = false → T' = T) := by
  rw [checkAck]
  split
  · next hnew =>
    specialize hA hnew
    obtain ⟨T', h', hlook⟩ := checkAckFrom_spec h le_rfl (Nat.add_sub_cancel' h.le) hA
    rw [← h.toRefines.nodeCnt_eq, ← h.begin_eq] at h'
    refine ⟨T', ⟨⟨⟨h'.begin_eq, h'.le, h'.size, h'.cell, h'.num, h'.sub, h'.valid, h'.out, h'.kept⟩,
      h'.next_eq, h'.next_cell⟩, h'.next_blank, h'.head_idle⟩, hlook, fun hold => ?_⟩
    rw [hold] at hnew
    cases hnew
  · exact ⟨T, h, .refl, fun _ => rfl⟩

/-! ### `MPD_ChangeDataWinFlowId` and `MPD_ClearDataWin` -/

theorem changeFlowIdFrom_spec {cnt p f : ℕ} (h : AtRest u T) (hb : T.rxBegin ≤ p)
    (hn : p + cnt = T.rxNext) (hA : ∀ q, p ≤ q → q < T.rxNext → (T.cell q).status ≠ .unReceived →
      (T.cell q).stream = f → A (.access (.flow 3))) :
    ∃ T', AtRest (changeFlowIdFrom f cnt (p % 4096) u) T' ∧ Tape.Steps A T T' := by
  induction cnt generalizing u T p with
  | zero => exact ⟨T, h, .refl⟩
  | succ cnt ih =>
    rw [changeFlowIdFrom, dataWinPlus_mod, h.cell p hb (by omega)]
    split
    · next hlost =>
      have hsame : (T.cell p).Same { T.cell p with stream := 3 } :=
        ⟨rfl, rfl, rfl, rfl, rfl, rfl, rfl, Iff.rfl, id, fun _ => rfl, .inr rfl⟩
      have h₁ : AtRest (u.setRxDataWinNode (p % 4096) { T.cell p with stream := 3 })
          (T.setCell p { T.cell p with stream := 3 }) :=
        ⟨h.toRefines.setNode hb (by omega) (h.num p hb (by omega)),
          Tape.setCell_next_blank (by omega) h.next_blank, Tape.setCell_head_idle h.head_idle id⟩
      obtain ⟨T', h', hsteps⟩ := ih h₁ (p := p + 1) (Nat.le_succ_of_le hb)
        (by rw [Tape.setCell_rxNext]; omega) fun q hq hqn hst hs => by
          rw [Tape.setCell_cell, if_neg (by omega)] at hst hs
          exact hA q (by omega) hqn hst hs
      exact ⟨T', h', .head (.touch hb (by omega) hsame fun _ => hA p le_rfl (by omega) hlost.1 hlost.2)
        hsteps⟩
    · exact ih h (p := p + 1) (Nat.le_succ_of_le hb) (by omega) fun q hq => hA q (by omega)

theorem changeDataWinFlowId_spec (h : AtRest u T) {f : ℕ} (hA : ∀ q, T.rxBegin ≤ q → q < T.rxNext →
    (T.cell q).status ≠ .unReceived → (T.cell q).stream = f → A (.access (.flow 3))) :
    ∃ T', AtRest (u.changeDataWinFlowId f) T' ∧ Tape.Steps A T T' := by
  rw [changeDataWinFlowId, h.toRefines.nodeCnt_eq, h.begin_eq]
  exact changeFlowIdFrom_spec h le_rfl (Nat.add_sub_cancel' h.le) hA

/-- One round of the loop of `MPD_ClearDataWin`. -/
theorem clearRound_spec (h : AtRest u T) (hlt : T.rxBegin < T.rxNext) :
    ∃ u' T', u.dataWinRxBeginMove true = some u' ∧ AtRest u' T' ∧ Tape.Steps A T T' ∧
      T.rxBegin < T'.rxBegin ∧ T'.rxNext = T.rxNext := by
  have hc : T.head.status ≠ .receiveComplete := fun hc => h.head_idle (.inl hc)
  have hdrop := h.toRefines.force hlt hc
  have hstop : ¬ (u.dataWinForceMove.rxDataWin.win (T.drop.rxNext % 4096)).Ready := by
    rw [hdrop.next_cell]
    exact h.next_blank.not_ready
  obtain ⟨u', T', hmove, hreads, hsteps, hsame, hidle⟩ := moveOn_spec (A := A) hdrop.toReads hstop
  have h' := hsame.refines hdrop hreads
  refine ⟨u', T', ?_, ⟨h', ?_, ?_⟩, .head (.drop hlt hc) hsteps, hsame.begin_le, hsame.tapeNext⟩
  · rw [dataWinRxBeginMove, if_pos rfl]
    exact hmove
  · rw [hsame.tapeNext, hsame.tapeCell]
    exact h.next_blank
  · rw [← h'.beginNode_eq]
    exact hidle

/-- A session with a cleared data window. -/
theorem AtRest.cleared (h : AtRest u T) : AtRest { u with rxDataWin := {} } T.clear := by
  refine ⟨⟨⟨rfl, le_rfl, ?_, ?_, ?_, h.sub, h.valid, h.out, h.kept⟩, rfl, rfl⟩, .wiped 0, ?_⟩
  · simp [Tape.clear]
  · intro p _ hp
    exact absurd hp (Nat.not_lt_zero p)
  · intro p _ hp
    rw [show p = 0 from Nat.le_zero.mp hp]
    rfl
  · simp [Tape.head, Tape.clear, RxDataWinNode.Ready]

/-- Where the loop of `MPD_ClearDataWin` is on its way. -/
def Clearing (A : Action → Prop) (T : Tape) (s : UserInfo) : Prop :=
  ∃ S, AtRest s S ∧ Tape.Steps A T S

theorem Clearing.round {s : UserInfo} (h : Clearing A T s)
    (hgo : s.rxDataWin.rxBegin ≠ s.rxDataWin.rxNext) :
    ∃ s', s.dataWinRxBeginMove true = some s' ∧ Clearing A T s' ∧ s'.nodeCnt < s.nodeCnt := by
  obtain ⟨S, hs, hsteps⟩ := h
  have hlt : S.rxBegin < S.rxNext := by
    refine lt_of_le_of_ne hs.le (fun heq => hgo ?_)
    rw [hs.begin_eq, hs.next_eq, heq]
  obtain ⟨s', S', hmove, hs', hsteps', hb, hn⟩ := clearRound_spec (A := A) hs hlt
  refine ⟨s', hmove, ⟨S', hs', hsteps.trans hsteps'⟩, ?_⟩
  rw [hs.toRefines.nodeCnt_eq, hs'.toRefines.nodeCnt_eq]
  omega

theorem clearDataWin_spec (h : AtRest u T) :
    ∃ u' T₁, u.clearDataWin = some u' ∧ Tape.Steps A T T₁ ∧ T₁.rxBegin = T₁.rxNext ∧
      (T₁.cell T₁.rxNext).Blank ∧ AtRest u' T₁.clear := by
  have hfuel : u.nodeCnt ≤ 4096 := by
    have hsize := h.size
    rw [h.toRefines.nodeCnt_eq]
    omega
  have hstart : Clearing A T u := ⟨T, h, .refl⟩
  obtain ⟨s, hloop, ⟨S, hs, hsteps⟩, hstop⟩ := whileLoop_total (Clearing A T) nodeCnt
    (fun s hs hgo => hs.round hgo) hstart hfuel
  refine ⟨_, S, ?_, hsteps, ?_, hs.next_blank, hs.cleared⟩
  · rw [clearDataWin, hloop, Option.map_some]
  · have hcnt := hs.toRefines.nodeCnt_eq
    rw [nodeCnt, not_not.mp hstop, SerialRing.dist_self] at hcnt
    have := hs.le
    omega

/-! ### What happens beside the data window -/

theorem AtRest.setTime (h : AtRest u T) (t : ℕ) : AtRest { u with time := t } T :=
  ⟨⟨⟨h.begin_eq, h.le, h.size, h.cell, h.num, h.sub, h.valid, h.out, h.kept⟩, h.next_eq,
    h.next_cell⟩, h.next_blank, h.head_idle⟩

theorem AtRest.setSub (h : AtRest u T) (i : ℕ) {w : RxSubWin} (hw : w.Kept) :
    AtRest (u.setRxSubWin i w) (T.setSub i w) :=
  ⟨⟨h.toReads.setSub i hw, h.next_eq, h.next_cell⟩, h.next_blank, h.head_idle⟩

theorem AtRest.setFlowValid (h : AtRest u T) (f : ℕ) (flag : Bool) :
    AtRest (u.schdSetFlowValid f flag)
      { T with valid := fun i => ((u.schdSetFlowValid f flag).schdPara i).isValid } :=
  ⟨⟨⟨h.begin_eq, h.le, h.size, h.cell, h.num, h.sub, rfl, h.out, h.kept⟩, h.next_eq,
    h.next_cell⟩, h.next_blank, h.head_idle⟩

end UserInfo

end Mpd

end AndroidVendor
