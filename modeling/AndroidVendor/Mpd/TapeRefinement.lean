import AndroidVendor.Mpd.Tape

/-!
# The data window refines the tape

`Refines u T` reads the ring of session `u` as the tape `T`: slot `p` of the window is the cell
`p % 4096` of the ring, and carries DSN `p % 65536`. The moves of the window are shown to answer and
to do to the tape what a sequence of tape steps does.

The loop of `MPD_DataWinRxBeginMove` looks at one slot at a time and never at `RxNext`. It stops
because the slot at `RxNext` is not ready: it is blank, or, while a full window makes room, it is
the slot that was at the front and was not ready there (`dataWinAdvance_spec`).

## Main results

* `dataWinRxBeginMove_spec`, `dataWinRxNextMove_spec` — the two moves, nested in one another
-/

namespace AndroidVendor

namespace Mpd

open Loop Relation

theorem dataWinPlus_mod (x : ℕ) : dataWinPlus (x % 4096) = (x + 1) % 4096 := SerialRing.succ_mod x

namespace UserInfo

variable {u u' : UserInfo} {T T' : Tape} {A : Action → Prop}

/-- The window `[rxBegin, rxNext)` of the tape is in the ring, and what is beside the window is the
same. What the ring holds at `rxNext` is left open. -/
structure Reads (u : UserInfo) (T : Tape) : Prop where
  begin_eq : u.rxDataWin.rxBegin = T.rxBegin % 4096
  le : T.rxBegin ≤ T.rxNext
  size : T.rxNext < T.rxBegin + 4096
  cell : ∀ p, T.rxBegin ≤ p → p < T.rxNext → u.rxDataWin.win (p % 4096) = T.cell p
  num : ∀ p, T.rxBegin ≤ p → p ≤ T.rxNext → (T.cell p).dsn = p % 65536
  sub : T.sub = u.rxSubWin
  valid : T.valid = fun i => (u.schdPara i).isValid
  out : T.out = u.out
  kept : ∀ i, (u.rxSubWin i).Kept

/-- The ring is the tape. -/
structure Refines (u : UserInfo) (T : Tape) : Prop extends Reads u T where
  next_eq : u.rxDataWin.rxNext = T.rxNext % 4096
  next_cell : u.rxDataWin.win (T.rxNext % 4096) = T.cell T.rxNext

/-- Between two steps of the session: the slot at `RxNext` is blank, the one at `RxBegin` is not
ready to leave. -/
structure AtRest (u : UserInfo) (T : Tape) : Prop extends Refines u T where
  next_blank : (T.cell T.rxNext).Blank
  head_idle : ¬ T.head.Ready

theorem Reads.beginNode_eq (h : Reads u T) (hlt : T.rxBegin < T.rxNext) :
    u.rxDataWin.beginNode = T.head := by
  rw [RxDataWin.beginNode, h.begin_eq, h.cell _ le_rfl hlt, Tape.head]

theorem Refines.cell' (h : Refines u T) {p : ℕ} (hb : T.rxBegin ≤ p) (hn : p ≤ T.rxNext) :
    u.rxDataWin.win (p % 4096) = T.cell p := by
  rcases Nat.eq_or_lt_of_le hn with rfl | hlt
  · exact h.next_cell
  · exact h.cell p hb hlt

theorem Refines.beginNode_eq (h : Refines u T) : u.rxDataWin.beginNode = T.head := by
  rw [RxDataWin.beginNode, h.begin_eq, h.cell' le_rfl h.le, Tape.head]

theorem Refines.nextNode_eq (h : Refines u T) : u.rxDataWin.nextNode = T.cell T.rxNext := by
  rw [RxDataWin.nextNode, h.next_eq, h.next_cell]

theorem Refines.begin_dsn (h : Refines u T) : u.rxDataWin.beginNode.dsn = T.rxBegin % 65536 := by
  rw [h.beginNode_eq, Tape.head, h.num _ le_rfl h.le]

theorem Refines.next_dsn (h : Refines u T) : u.rxDataWin.nextNode.dsn = T.rxNext % 65536 := by
  rw [h.nextNode_eq, h.num _ h.le le_rfl]

/-! ### One slot leaves -/

theorem noteDataWinSSN_rxDataWin (u : UserInfo) (n : RxDataWinNode) :
    (u.noteDataWinSSN n).rxDataWin = u.rxDataWin := by
  rw [noteDataWinSSN]
  dsimp only
  split <;> rfl

theorem noteDataWinSSN_schdPara (u : UserInfo) (n : RxDataWinNode) :
    (u.noteDataWinSSN n).schdPara = u.schdPara := by
  rw [noteDataWinSSN]
  dsimp only
  split <;> rfl

theorem noteDataWinSSN_out (u : UserInfo) (n : RxDataWinNode) :
    (u.noteDataWinSSN n).out = u.out ++ [.access (.flow n.stream)] := by
  rw [noteDataWinSSN]
  dsimp only
  split <;> rfl

theorem noteDataWinSSN_rxSubWin (u : UserInfo) (n : RxDataWinNode) :
    (u.noteDataWinSSN n).rxSubWin = if (u.schdPara n.stream).isValid then
      Function.update u.rxSubWin n.stream
        { u.rxSubWin n.stream with dataWinSSN := ssnPlus n.ssn } else u.rxSubWin := by
  by_cases hv : (u.schdPara n.stream).isValid
  · simp only [noteDataWinSSN, schdGetFlowValid, UserInfo.emit, hv, if_true]
    rfl
  · simp only [noteDataWinSSN, schdGetFlowValid, UserInfo.emit, hv]
    rfl

theorem dataWinHeadOut_rxDataWin (u : UserInfo) :
    u.dataWinHeadOut.rxDataWin =
      { u.rxDataWin with rxBegin := dataWinPlus u.rxDataWin.rxBegin } := by
  rw [dataWinHeadOut]
  dsimp only [setDataWinBegin]
  split
  · split
    · rw [noteDataWinSSN_rxDataWin]
      split <;> rfl
    · split
      · dsimp only [dataWinFreeMsgPtr, UserInfo.emit]
        rw [noteDataWinSSN_rxDataWin]
        rfl
      · rfl
  · rfl

theorem dataWinHeadOut_schdPara (u : UserInfo) : u.dataWinHeadOut.schdPara = u.schdPara := by
  rw [dataWinHeadOut]
  dsimp only [setDataWinBegin]
  split
  · split
    · rw [noteDataWinSSN_schdPara]
      split <;> rfl
    · split
      · dsimp only [dataWinFreeMsgPtr, UserInfo.emit]
        rw [noteDataWinSSN_schdPara]
        rfl
      · rfl
  · rfl

theorem dataWinHeadOut_out (u : UserInfo) :
    u.dataWinHeadOut.out = u.out ++
      if u.rxDataWin.beginNode.status = .receiveComplete then
        u.rxDataWin.beginNode.passActions (u.allocs 0)
      else u.rxDataWin.beginNode.freePtrs.map .free := by
  rw [dataWinHeadOut]
  dsimp only [setDataWinBegin]
  split
  · rw [RxDataWinNode.passActions]
    split
    · rw [noteDataWinSSN_out]
      split <;> simp [UserInfo.emit]
    · split
      · dsimp only [dataWinFreeMsgPtr, UserInfo.emit, msgMemCreat]
        rw [noteDataWinSSN_out, noteDataWinSSN_rxDataWin]
        simp [RxDataWin.beginNode]
      · simp
  · rfl

theorem dataWinHeadOut_rxSubWin (u : UserInfo) :
    u.dataWinHeadOut.rxSubWin =
      if u.rxDataWin.beginNode.status = .receiveComplete ∧
          (u.rxDataWin.beginNode.fragment = 0 ∨ u.rxDataWin.beginNode.fragment = 3) then
        (u.noteDataWinSSN u.rxDataWin.beginNode).rxSubWin
      else u.rxSubWin := by
  rw [dataWinHeadOut]
  dsimp only [setDataWinBegin]
  by_cases hc : u.rxDataWin.beginNode.status = .receiveComplete
  · rw [if_pos hc]
    by_cases h0 : u.rxDataWin.beginNode.fragment = 0
    · have hout : u.rxDataWin.beginNode.status = .receiveComplete ∧
          (u.rxDataWin.beginNode.fragment = 0 ∨ u.rxDataWin.beginNode.fragment = 3) :=
        ⟨hc, .inl h0⟩
      rw [if_pos h0, if_pos hout, noteDataWinSSN_rxSubWin, noteDataWinSSN_rxSubWin]
      by_cases hs : u.rxDataWin.beginNode.flag ≠ .sended
      · rw [if_pos hs]
        rfl
      · rw [if_neg hs]
    · rw [if_neg h0]
      by_cases h3 : u.rxDataWin.beginNode.fragment = 3
      · rw [if_pos h3, if_pos ⟨hc, .inr h3⟩]
        dsimp only [dataWinFreeMsgPtr, UserInfo.emit, msgMemCreat]
        rw [noteDataWinSSN_rxSubWin, noteDataWinSSN_rxSubWin]
      · rw [if_neg h3, if_neg (fun h => h.2.elim h0 h3)]
  · rw [if_neg hc, if_neg (fun h => hc h.1)]
    rfl

theorem kept_posted {w : RxSubWin} (h : w.Kept) (ssn : ℕ) :
    ({ w with dataWinSSN := ssnPlus ssn } : RxSubWin).Kept := by
  obtain ⟨⟨b, m, hr⟩, -⟩ := h
  exact ⟨⟨b, m, ⟨hr.begin_eq, hr.next_eq, hr.le, hr.size, hr.num, hr.plain⟩, hr.next_un,
    hr.begin_un⟩, Nat.mod_lt _ (by omega)⟩

theorem kept_note (h : ∀ i, (u.rxSubWin i).Kept) (n : RxDataWinNode) (i : ℕ) :
    ((u.noteDataWinSSN n).rxSubWin i).Kept := by
  rw [noteDataWinSSN_rxSubWin]
  split
  · rw [Function.update_apply]
    split
    · exact kept_posted (h n.stream) n.ssn
    · exact h i
  · exact h i

/-- The window without its first slot. -/
theorem Reads.advance (h : Reads u T) (hlt : T.rxBegin < T.rxNext)
    (hwin : u'.rxDataWin = { u.rxDataWin with rxBegin := dataWinPlus u.rxDataWin.rxBegin })
    (hbegin : T'.rxBegin = T.rxBegin + 1) (hnext : T'.rxNext = T.rxNext) (hcell : T'.cell = T.cell)
    (hsub : T'.sub = u'.rxSubWin) (hvalid : T'.valid = fun i => (u'.schdPara i).isValid)
    (hout : T'.out = u'.out) (hkept : ∀ i, (u'.rxSubWin i).Kept) : Reads u' T' := by
  have hsize := h.size
  refine ⟨?_, by omega, by omega, fun p hb hn => ?_, fun p hb hn => ?_, hsub, hvalid, hout, hkept⟩
  · rw [hwin, hbegin, h.begin_eq, dataWinPlus_mod]
  · rw [hwin, hcell]
    exact h.cell p (by omega) (by omega)
  · rw [hcell]
    exact h.num p (by omega) (by omega)

theorem Reads.pass (h : Reads u T) (hlt : T.rxBegin < T.rxNext)
    (hc : T.head.status = .receiveComplete) : Reads u.dataWinHeadOut (T.pass (u.allocs 0)) := by
  have hhead := h.beginNode_eq hlt
  have hsub : (T.pass (u.allocs 0)).sub = u.dataWinHeadOut.rxSubWin := by
    have hv : (u.schdPara T.head.stream).isValid = T.valid T.head.stream := by rw [h.valid]
    simp only [dataWinHeadOut_rxSubWin, hhead, noteDataWinSSN_rxSubWin, ← h.sub, Tape.pass_sub,
      Tape.note_sub, hv, hc, true_and]
  refine h.advance hlt (dataWinHeadOut_rxDataWin u) rfl (Tape.pass_rxNext T _)
    (Tape.pass_cell T _) hsub ?_ ?_ (fun i => ?_)
  · rw [dataWinHeadOut_schdPara, ← h.valid, Tape.pass_valid]
  · rw [dataWinHeadOut_out, hhead, if_pos hc, ← h.out, Tape.pass_out]
  · rw [dataWinHeadOut_rxSubWin]
    split
    · exact kept_note h.kept _ i
    · exact h.kept i

theorem Reads.drop (h : Reads u T) (hlt : T.rxBegin < T.rxNext)
    (hc : T.head.status ≠ .receiveComplete) : Reads u.dataWinHeadOut T.drop := by
  have hhead := h.beginNode_eq hlt
  have hsub : u.dataWinHeadOut.rxSubWin = u.rxSubWin := by
    rw [dataWinHeadOut_rxSubWin, hhead, if_neg (fun h => hc h.1)]
  refine h.advance hlt (dataWinHeadOut_rxDataWin u) rfl rfl rfl (h.sub.trans hsub.symm) ?_ ?_ ?_
  · rw [dataWinHeadOut_schdPara, ← h.valid]
    rfl
  · rw [dataWinHeadOut_out, hhead, if_neg hc, ← h.out]
    rfl
  · rw [hsub]
    exact h.kept

/-! ### `MPD_DataWinRxBeginMove` -/

/-- What leaving slots do not change. -/
structure SameSlots (u : UserInfo) (T : Tape) (u' : UserInfo) (T' : Tape) : Prop where
  win : u'.rxDataWin.win = u.rxDataWin.win
  rxNext : u'.rxDataWin.rxNext = u.rxDataWin.rxNext
  tapeNext : T'.rxNext = T.rxNext
  tapeCell : T'.cell = T.cell
  begin_le : T.rxBegin ≤ T'.rxBegin

theorem SameSlots.refl (u : UserInfo) (T : Tape) : SameSlots u T u T :=
  ⟨rfl, rfl, rfl, rfl, le_rfl⟩

theorem SameSlots.trans {u'' : UserInfo} {T'' : Tape} (h : SameSlots u T u' T')
    (h' : SameSlots u' T' u'' T'') : SameSlots u T u'' T'' :=
  ⟨h'.win.trans h.win, h'.rxNext.trans h.rxNext, h'.tapeNext.trans h.tapeNext,
    h'.tapeCell.trans h.tapeCell, h.begin_le.trans h'.begin_le⟩

/-- One round of the loop. -/
theorem dataWinHeadOut_spec (h : Reads u T) (hlt : T.rxBegin < T.rxNext) :
    ∃ T', Reads u.dataWinHeadOut T' ∧ Tape.Step A T T' ∧ SameSlots u T u.dataWinHeadOut T' ∧
      T'.rxBegin = T.rxBegin + 1 := by
  have hwin := dataWinHeadOut_rxDataWin u
  by_cases hc : T.head.status = .receiveComplete
  · refine ⟨_, h.pass hlt hc, .pass _ hlt hc, ⟨?_, ?_, ?_, ?_, ?_⟩, rfl⟩
    · rw [hwin]
    · rw [hwin]
    · exact Tape.pass_rxNext T _
    · exact Tape.pass_cell T _
    · exact Nat.le_succ _
  · refine ⟨_, h.drop hlt hc, .drop hlt hc, ⟨?_, ?_, rfl, rfl, Nat.le_succ _⟩, rfl⟩
    · rw [hwin]
    · rw [hwin]

/-- The loop ends, at `RxNext` at the latest, if the slot there is not ready. -/
theorem dataWinAdvance_spec (k : ℕ) (h : Reads u T) (hk : T.rxNext - T.rxBegin ≤ k)
    (hstop : ¬ (u.rxDataWin.win (T.rxNext % 4096)).Ready) :
    ∃ j u' T', j ≤ T.rxNext - T.rxBegin ∧ u' = dataWinHeadOut^[j] u ∧
      whileLoop (fun u => u.rxDataWin.beginNode.Ready) (fun u => some u.dataWinHeadOut) k u =
        some u' ∧
      Reads u' T' ∧ Tape.Steps A T T' ∧ SameSlots u T u' T' ∧
      ¬ u'.rxDataWin.beginNode.Ready := by
  induction k generalizing u T with
  | zero =>
    have heq : T.rxBegin = T.rxNext := by
      have hle := h.le
      omega
    have hidle : ¬ u.rxDataWin.beginNode.Ready := by
      rw [RxDataWin.beginNode, h.begin_eq, heq]
      exact hstop
    exact ⟨0, u, T, by omega, rfl, by rw [whileLoop, if_neg hidle], h, .refl, .refl u T, hidle⟩
  | succ k ih =>
    by_cases hready : u.rxDataWin.beginNode.Ready
    · have hlt : T.rxBegin < T.rxNext := by
        refine lt_of_le_of_ne h.le (fun heq => hstop ?_)
        rw [← heq, ← h.begin_eq]
        exact hready
      obtain ⟨T₁, h₁, hstep, hsame, hbegin⟩ := dataWinHeadOut_spec (A := A) h hlt
      have hstop₁ : ¬ (u.dataWinHeadOut.rxDataWin.win (T₁.rxNext % 4096)).Ready := by
        rw [hsame.win, hsame.tapeNext]
        exact hstop
      have hnext := hsame.tapeNext
      obtain ⟨j, u', T', hj, hu', hloop, h', hsteps, hsame', hidle⟩ := ih h₁ (by omega) hstop₁
      refine ⟨j + 1, u', T', by omega, hu', ?_, h', .head hstep hsteps, hsame.trans hsame', hidle⟩
      rw [whileLoop, if_pos hready, Option.bind_some]
      exact hloop
    · refine ⟨0, u, T, by omega, rfl, ?_, h, .refl, .refl u T, hready⟩
      rw [whileLoop, if_neg hready]

theorem Reads.setSub (h : Reads u T) (i : ℕ) {w : RxSubWin} (hw : w.Kept) :
    Reads (u.setRxSubWin i w) (T.setSub i w) where
  begin_eq := h.begin_eq
  le := h.le
  size := h.size
  cell := h.cell
  num := h.num
  sub := by rw [Tape.setSub, setRxSubWin, h.sub]
  valid := h.valid
  out := h.out
  kept j := by
    simp only [setRxSubWin, Function.update_apply]
    split
    · exact hw
    · exact h.kept j

/-- One of the operations of `SubWinOp` happens to one of the sub windows. -/
theorem Reads.subStep (h : Reads u T) (i : ℕ) (op : SubWinOp) :
    ∃ w, op.step (u.rxSubWin i) = some w ∧ Reads (u.setRxSubWin i w) (T.setSub i w) ∧
      Tape.Step A T (T.setSub i w) := by
  obtain ⟨w, hw, hkept, -⟩ := RxSubWin.step_kept op (h.kept i)
  exact ⟨w, hw, h.setSub i hkept, .sub op (by rw [h.sub]; exact hw)⟩

/-- The sub windows follow, whichever of them are asked to. -/
theorem driveSubWins_spec (h : Reads u T) :
    ∃ u' T', u.driveSubWins = some u' ∧ Reads u' T' ∧ Tape.Steps A T T' ∧ SameSlots u T u' T' ∧
      u'.rxDataWin = u.rxDataWin := by
  rw [driveSubWins]
  generalize [0, 1, 2] = l
  induction l generalizing u T with
  | nil => exact ⟨u, T, rfl, h, .refl, .refl u T, rfl⟩
  | cons i l ih =>
    rw [List.foldlM_cons]
    split
    · obtain ⟨w, hw, h₁, hstep⟩ := h.subStep (A := A) i .followDataWin
      obtain ⟨u', T', hu', h', hsteps, hsame, hwin⟩ := ih h₁
      have hset : SameSlots u T (u.setRxSubWin i w) (T.setSub i w) := ⟨rfl, rfl, rfl, rfl, le_rfl⟩
      refine ⟨u', T', ?_, h', .head hstep hsteps, hset.trans hsame, hwin⟩
      have hw' : (u.rxSubWin i).followDataWin = some w := hw
      rw [hw', Option.map_some]
      exact hu'
    · exact ih h

/-- `MPD_DataWinRxBeginMove` behind the forced move. -/
theorem moveOn_spec (h : Reads u T) (hstop : ¬ (u.rxDataWin.win (T.rxNext % 4096)).Ready) :
    ∃ u' T', (dataWinAdvance u).bind driveSubWins = some u' ∧ Reads u' T' ∧ Tape.Steps A T T' ∧
      SameSlots u T u' T' ∧ ¬ u'.rxDataWin.beginNode.Ready := by
  have hsize := h.size
  obtain ⟨j, u₁, T₁, -, -, hloop, h₁, hsteps₁, hsame₁, hidle⟩ :=
    dataWinAdvance_spec (A := A) 4096 h (by omega) hstop
  obtain ⟨u', T', hdrive, h', hsteps', hsame', hwin⟩ := driveSubWins_spec (A := A) h₁
  refine ⟨u', T', ?_, h', hsteps₁.trans hsteps', hsame₁.trans hsame', ?_⟩
  · rw [dataWinAdvance, hloop, Option.bind_some, hdrive]
  · rw [hwin]
    exact hidle

/-- `RxNext` and the slot there are as they were. -/
theorem SameSlots.refines (hsame : SameSlots u T u' T') (h : Refines u T) (h' : Reads u' T') :
    Refines u' T' where
  toReads := h'
  next_eq := by rw [hsame.rxNext, hsame.tapeNext, h.next_eq]
  next_cell := by rw [hsame.win, hsame.tapeNext, hsame.tapeCell, h.next_cell]

/-- `MPD_DataWinRxBeginMove` without force leaves the window at rest. -/
theorem dataWinRxBeginMove_spec (h : Refines u T) (hnext : (T.cell T.rxNext).Blank) :
    ∃ u' T', u.dataWinRxBeginMove false = some u' ∧ AtRest u' T' ∧ Tape.Steps A T T' ∧
      SameSlots u T u' T' := by
  have hstop : ¬ (u.rxDataWin.win (T.rxNext % 4096)).Ready := by
    rw [h.next_cell]
    exact hnext.not_ready
  obtain ⟨u', T', hmove, hreads, hsteps, hsame, hidle⟩ := moveOn_spec (A := A) h.toReads hstop
  have h' := hsame.refines h hreads
  refine ⟨u', T', hmove, ⟨h', ?_, ?_⟩, hsteps, hsame⟩
  · rw [hsame.tapeNext, hsame.tapeCell]
    exact hnext
  · rw [← h'.beginNode_eq]
    exact hidle

theorem dataWinForceMove_win (hc : u.rxDataWin.beginNode.status ≠ .receiveComplete) :
    u.dataWinForceMove.rxDataWin =
      { u.rxDataWin with rxBegin := dataWinPlus u.rxDataWin.rxBegin } := by
  rw [dataWinForceMove]
  split
  · rfl
  · rfl
  · next hs => exact absurd hs hc

/-- The forced move gives up the slot at the front, which is not complete. -/
theorem Reads.force (h : Reads u T) (hlt : T.rxBegin < T.rxNext)
    (hc : T.head.status ≠ .receiveComplete) : Reads u.dataWinForceMove T.drop := by
  have hhead := h.beginNode_eq hlt
  have hwin := dataWinForceMove_win (u := u) (by rw [hhead]; exact hc)
  have hsub : u.dataWinForceMove.rxSubWin = u.rxSubWin := by
    rw [dataWinForceMove]
    split <;> rfl
  have hout : u.dataWinForceMove.out = u.out ++ T.head.freePtrs.map .free := by
    rw [dataWinForceMove]
    split
    · next hs =>
      rw [hhead] at hs
      simp [RxDataWinNode.freePtrs, hs, setDataWinBegin]
    · rw [← hhead]
      rfl
    · next hs => exact absurd (hhead ▸ hs) hc
  refine h.advance hlt hwin rfl rfl rfl (h.sub.trans hsub.symm) ?_ ?_ ?_
  · rw [show u.dataWinForceMove.schdPara = u.schdPara by rw [dataWinForceMove]; split <;> rfl,
      ← h.valid]
    rfl
  · rw [hout, ← h.out]
    rfl
  · rw [hsub]
    exact h.kept

/-! ### `MPD_DataWinRxNextMove` -/

/-- The window reaches one slot further, and the slot there is wiped. -/
theorem Reads.wipe {n : ℕ} (h : Reads u T) (hn : T.rxNext = n + 1)
    (hnext : u.rxDataWin.rxNext = (n + 1) % 4096)
    (hcell : T.cell (n + 1) = { dsn := (n + 1) % 65536 }) :
    Refines (u.setRxDataWinNode u.rxDataWin.rxNext { dsn := (n + 1) % 65536 }) T where
  begin_eq := h.begin_eq
  le := h.le
  size := h.size
  cell p hb hp := by
    have hsize := h.size
    rw [← h.cell p hb hp]
    simp only [setRxDataWinNode, hnext]
    exact Function.update_of_ne (SerialRing.cell_ne (by omega) (by omega) (by omega)) _ _
  num := h.num
  sub := h.sub
  valid := h.valid
  out := h.out
  kept := h.kept
  next_eq := by rw [hn]; exact hnext
  next_cell := by
    rw [hn, hcell]
    simp [setRxDataWinNode, hnext]

theorem Refines.reads_grow (h : Refines u T) (hroom : T.rxNext + 1 < T.rxBegin + 4096) :
    Reads (u.setDataWinNext (dataWinPlus u.rxDataWin.rxNext)) T.grow where
  begin_eq := h.begin_eq
  le := by
    have hle := h.le
    exact hle.trans (Nat.le_succ _)
  size := hroom
  cell p hb hp := by
    have hlt : p < T.rxNext + 1 := hp
    rw [T.grow_cell_of_le (by omega)]
    exact h.cell' hb (by omega)
  num p hb hp := by
    rw [Tape.grow_cell]
    split
    · next heq => rw [heq]
    · next hne =>
      have hle : p ≤ T.rxNext + 1 := hp
      exact h.num p hb (by omega)
  sub := h.sub
  valid := h.valid
  out := h.out
  kept := h.kept

theorem dataWinForceMove_setDataWinNext (u : UserInfo) (i : ℕ) :
    (u.setDataWinNext i).dataWinForceMove = u.dataWinForceMove.setDataWinNext i := by
  have hhead : (u.setDataWinNext i).rxDataWin.beginNode = u.rxDataWin.beginNode := rfl
  rw [dataWinForceMove, dataWinForceMove, hhead]
  split <;> rfl

/-- The forced move, in a window whose next slot is known as well. -/
theorem Refines.force (h : Refines u T) (hlt : T.rxBegin < T.rxNext)
    (hc : T.head.status ≠ .receiveComplete) : Refines u.dataWinForceMove T.drop := by
  have hwin := dataWinForceMove_win (u := u) (by rw [h.beginNode_eq]; exact hc)
  refine ⟨h.toReads.force hlt hc, ?_, ?_⟩
  · rw [hwin]
    exact h.next_eq
  · rw [hwin]
    exact h.next_cell

/-- A full window, asked for one more slot, enters the loop of `MPD_DataWinRxBeginMove` without its
first slot; the slot at `RxNext` is the one that was at the front. -/
theorem Refines.reads_full (h : Refines u T) (hfull : T.rxNext + 1 = T.rxBegin + 4096)
    (hidle : ¬ T.head.Ready) :
    Reads (u.setDataWinNext (dataWinPlus u.rxDataWin.rxNext)).dataWinForceMove T.drop.grow ∧
      (u.setDataWinNext (dataWinPlus u.rxDataWin.rxNext)).dataWinForceMove.rxDataWin.rxNext =
        (T.rxNext + 1) % 4096 ∧
      ¬ ((u.setDataWinNext (dataWinPlus u.rxDataWin.rxNext)).dataWinForceMove.rxDataWin.win
        (T.drop.grow.rxNext % 4096)).Ready := by
  have hc : T.head.status ≠ .receiveComplete := fun hc => hidle (.inl hc)
  have hwrap : u.rxDataWin.rxBegin = (T.rxNext + 1) % 4096 := by
    rw [h.begin_eq, hfull]
    simp
  have hdrop := h.force (by omega) hc
  have hgrow := hdrop.reads_grow (by rw [Tape.drop_rxNext, Tape.drop_rxBegin]; omega)
  have hwin := dataWinForceMove_win (u := u) (by rw [h.beginNode_eq]; exact hc)
  have hnext : u.dataWinForceMove.rxDataWin.rxNext = u.rxDataWin.rxNext := by rw [hwin]
  rw [hnext] at hgrow
  rw [dataWinForceMove_setDataWinNext]
  refine ⟨hgrow, ?_, ?_⟩
  · simp only [setDataWinNext]
    rw [h.next_eq, dataWinPlus_mod]
  · have hslot : (u.dataWinForceMove.setDataWinNext
        (dataWinPlus u.rxDataWin.rxNext)).rxDataWin.win = u.rxDataWin.win := by
      simp only [setDataWinNext, hwin]
    have hfront : u.rxDataWin.win (T.drop.grow.rxNext % 4096) = u.rxDataWin.beginNode := by
      rw [RxDataWin.beginNode, hwrap]
      rfl
    rw [hslot, hfront, h.beginNode_eq]
    exact hidle

/-- `MPD_DataWinRxNextMove`. A full window gives up its first slot, which must not be ready to
leave, and the slots that are ready behind it. -/
theorem dataWinRxNextMove_spec (h : Refines u T)
    (hfull : T.rxNext + 1 = T.rxBegin + 4096 → ¬ T.head.Ready) :
    ∃ u' T', u.dataWinRxNextMove = some u' ∧ Refines u' T' ∧ Tape.Widens A T T' ∧
      T'.rxNext = T.rxNext + 1 ∧ T.rxBegin ≤ T'.rxBegin ∧
      T'.cell = T.grow.cell ∧ (¬ T.head.Ready → ¬ T'.head.Ready) ∧
      (T.rxNext + 1 < T.rxBegin + 4096 → T' = T.grow) := by
  have hsize := h.size
  have hle := h.le
  have hnext : (u.setDataWinNext (dataWinPlus u.rxDataWin.rxNext)).rxDataWin.rxNext =
      (T.rxNext + 1) % 4096 := by
    simp only [setDataWinNext]
    rw [h.next_eq, dataWinPlus_mod]
  have hdsn : u16 (u.rxDataWin.nextNode.dsn + 1) = (T.rxNext + 1) % 65536 := by
    rw [h.next_dsn, u16]
    omega
  by_cases hroom : T.rxNext + 1 = T.rxBegin + 4096
  · have hidle := hfull hroom
    have hc : T.head.status ≠ .receiveComplete := fun hc => hidle (.inl hc)
    have hwrap : u.rxDataWin.rxBegin = (T.rxNext + 1) % 4096 := by
      rw [h.begin_eq, hroom]
      simp
    obtain ⟨hgrow, hnext₁, hstop⟩ := h.reads_full hroom hidle
    obtain ⟨u₁, T', hmove, h₁, hsteps, hsame, hidle₁⟩ := moveOn_spec (A := A) hgrow hstop
    have hnext' : u₁.rxDataWin.rxNext = (T.rxNext + 1) % 4096 := hsame.rxNext.trans hnext₁
    have hcell : T'.cell = T.grow.cell := hsame.tapeCell
    have h' := h₁.wipe (n := T.rxNext) hsame.tapeNext hnext' (by rw [hcell, T.grow_cell_next])
    refine ⟨_, T', ?_, h', ?_, hsame.tapeNext, ?_, hcell, fun _ => ?_, fun hlt => by omega⟩
    · rw [dataWinRxNextMove, if_pos (by rw [hnext]; exact hwrap.symm), dataWinRxBeginMove, if_pos rfl,
        hmove, Option.map_some, hdsn]
    · exact .head (.step (.drop (by omega) hc))
        (.head (.grow (by rw [Tape.drop_rxNext, Tape.drop_rxBegin]; omega)) hsteps.widens)
    · have hb := hsame.begin_le
      exact (Nat.le_succ _).trans hb
    · rcases Nat.eq_or_lt_of_le h₁.le with heq | hlt
      · -- every slot has left: the blank one is at the front
        rw [Tape.head, heq, hsame.tapeNext, hcell, Tape.grow_rxNext, Tape.drop_rxNext,
          T.grow_cell_next]
        simp [RxDataWinNode.Ready]
      · rw [← h₁.beginNode_eq hlt]
        exact hidle₁
  · have hne : (T.rxNext + 1) % 4096 ≠ u.rxDataWin.rxBegin := by
      rw [h.begin_eq]
      exact SerialRing.cell_ne (by omega) (by omega) (by omega)
    have hgrow := h.reads_grow (by omega)
    have h' := hgrow.wipe rfl hnext T.grow_cell_next
    refine ⟨_, _, ?_, h', .single (.grow (by omega)), rfl, le_rfl, rfl, fun hidle => ?_,
      fun _ => rfl⟩
    · rw [dataWinRxNextMove, if_neg (by rw [hnext]; exact hne), Option.map_some, hdsn]
    · rw [Tape.head, Tape.grow_rxBegin, T.grow_cell_of_le hle]
      exact hidle

/-! ### The slots meanwhile -/

variable {v : UserInfo}

theorem driveSubWins_rxDataWin (h : u.driveSubWins = some v) : v.rxDataWin = u.rxDataWin := by
  rw [UserInfo.driveSubWins] at h
  generalize [0, 1, 2] = l at h
  induction l generalizing u with
  | nil =>
    cases h
    rfl
  | cons i l ih =>
    rw [List.foldlM_cons] at h
    obtain ⟨s, hs, h⟩ := Option.bind_eq_some_iff.mp h
    refine (ih h).trans ?_
    split at hs
    · obtain ⟨w, -, rfl⟩ := Option.map_eq_some_iff.mp hs
      rfl
    · cases hs
      rfl

/-- `MPD_DataWinRxBeginMove` leaves the slots and `RxNext` alone. -/
theorem dataWinRxBeginMove_win {force : Bool} (h : u.dataWinRxBeginMove force = some v) :
    v.rxDataWin.win = u.rxDataWin.win ∧ v.rxDataWin.rxNext = u.rxDataWin.rxNext := by
  obtain ⟨s, hs, h⟩ := Option.bind_eq_some_iff.mp h
  rw [driveSubWins_rxDataWin h]
  refine (whileLoop_inv (fun a => a.rxDataWin.win = u.rxDataWin.win ∧
    a.rxDataWin.rxNext = u.rxDataWin.rxNext) (fun a a' ha _ hbody => ?_) ?_ hs).1
  · cases hbody
    rw [dataWinHeadOut_rxDataWin]
    exact ha
  · split
    · rw [UserInfo.dataWinForceMove]
      split <;> exact ⟨rfl, rfl⟩
    · exact ⟨rfl, rfl⟩

/-- `MPD_DataWinRxNextMove` writes the slot at the new `RxNext` and no other. -/
theorem dataWinRxNextMove_win (h : u.dataWinRxNextMove = some v) {i : ℕ}
    (hi : i ≠ dataWinPlus u.rxDataWin.rxNext) : v.rxDataWin.win i = u.rxDataWin.win i := by
  obtain ⟨s, hs, rfl⟩ := Option.map_eq_some_iff.mp h
  have hwin : s.rxDataWin.win = u.rxDataWin.win ∧
      s.rxDataWin.rxNext = dataWinPlus u.rxDataWin.rxNext := by
    split at hs
    · exact dataWinRxBeginMove_win hs
    · cases hs
      exact ⟨rfl, rfl⟩
  rw [← hwin.1]
  refine Function.update_of_ne ?_ _ _
  rw [hwin.2]
  exact hi

end UserInfo

end Mpd

end AndroidVendor
