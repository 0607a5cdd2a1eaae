import AndroidVendor.Mpd.TapeTimers

/-!
# Runs of the rx data window

The operations the session performs on the data window, in any order and with any arguments: a data
packet arrives (`MPD_DataWinAddNode`, and unless it was refused its sub window and
`MPD_DataWinRxBeginMove`), the timers run, subflows come and go, the window is cleared.

`DataWinOp.Enters` lists the places where an operation enters the loop of
`MPD_DataWinRxBeginMove`, the ones inside `MPD_DataWinRxNextMove` on a full window among them.

## Main results

* `dataWin_run` — every run answers and keeps the representation invariant, stated on the fields the
  code keeps, and wherever the next operation enters the loop it stops at `RxNext` at the latest
-/

namespace AndroidVendor

namespace Mpd

open Loop Machine Relation UserInfo

/-- What happens to the rx data window of a session. -/
inductive DataWinOp
  /-- `MPD_DoParseMPData` behind the acknowledgement: a data packet arrives. -/
  | arrive (m : Msg)
  | timeOutCheck
  | checkAck
  | changeFlowId (flowId : Fin 3)
  | clear
  /-- `g_time++`. -/
  | tick
  | setFlowValid (flowId : Fin 3) (flag : Bool)
  | clearSubWin (flowId : Fin 3)
  deriving DecidableEq

def DataWinOp.step : DataWinOp → UserInfo → Option UserInfo
  | .arrive m, u => u.parseData m
  | .timeOutCheck, u => u.dataWinTimeOutCheck
  | .checkAck, u => some u.checkAck
  | .changeFlowId flowId, u => some (u.changeDataWinFlowId flowId)
  | .clear, u => u.clearDataWin
  | .tick, u => some { u with time := u32 (u.time + 1) }
  | .setFlowValid flowId flag, u => some (u.schdSetFlowValid flowId flag)
  | .clearSubWin flowId, u => some (u.clearSubWin flowId)

namespace RxDataWin

/-- How many slots lie from `RxBegin` to `RxNext`. -/
def span (w : RxDataWin) : ℕ := SerialRing.dist 4096 w.rxBegin w.rxNext

/-- The representation invariant, on the fields of the window. -/
structure WellFormed (w : RxDataWin) : Prop where
  begin_lt : w.rxBegin < 4096
  next_lt : w.rxNext < 4096
  /-- Consecutive DSNs from `RxBegin` to `RxNext`. -/
  consecutive : ∀ i ≤ w.span,
    (w.win ((w.rxBegin + i) % 4096)).dsn = (w.beginNode.dsn + i) % 65536
  /-- Each slot at its index. -/
  index : ∀ i ≤ w.span, (w.rxBegin + i) % 4096 = (w.win ((w.rxBegin + i) % 4096)).dsn % 4096
  /-- The DSNs span no more than the slots do, so `RxBegin` is not past `RxNext`. -/
  ordered : distanceSN w.beginNode.dsn w.nextNode.dsn = w.span
  size : w.span ≤ 4095
  /-- The slot at `RxNext` looks incomplete and not timed out. -/
  next_idle : ¬ w.nextNode.Ready

end RxDataWin

namespace UserInfo

variable {u u' : UserInfo} {T T' : Tape}

/-- The loop of `MPD_DataWinRxBeginMove` stops after at most as many rounds as there are slots up to
`RxNext`. -/
def AdvanceStops (u : UserInfo) : Prop :=
  ∃ k ≤ u.rxDataWin.span, dataWinAdvance u = some (dataWinHeadOut^[k] u)

theorem Refines.span_eq (h : Refines u T) : u.rxDataWin.span = T.rxNext - T.rxBegin := h.nodeCnt_eq

/-- A window at rest is well formed. -/
theorem AtRest.wellFormed (h : AtRest u T) : u.rxDataWin.WellFormed := by
  have hspan := h.toRefines.span_eq
  have hsize := h.size
  have hle := h.le
  have hcell : ∀ i, (u.rxDataWin.rxBegin + i) % 4096 = (T.rxBegin + i) % 4096 := fun i => by
    rw [h.begin_eq]
    exact Nat.mod_add_mod T.rxBegin 4096 i
  have hnum : ∀ i ≤ u.rxDataWin.span,
      (u.rxDataWin.win ((u.rxDataWin.rxBegin + i) % 4096)).dsn = (T.rxBegin + i) % 65536 := by
    intro i hi
    rw [hcell, h.toRefines.cell' (Nat.le_add_right _ i) (by omega)]
    exact h.num (T.rxBegin + i) (by omega) (by omega)
  refine ⟨?_, ?_, fun i hi => ?_, fun i hi => ?_, ?_, by omega, ?_⟩
  · rw [h.begin_eq]
    omega
  · rw [h.next_eq]
    omega
  · rw [hnum i hi, h.toRefines.begin_dsn]
    omega
  · rw [hnum i hi, hcell]
    omega
  · rw [h.toRefines.begin_dsn, h.toRefines.next_dsn, hspan]
    exact distanceSN_of_le hle (by omega)
  · rw [h.toRefines.nextNode_eq]
    exact h.next_blank.not_ready

/-- Where the slot at `RxNext` is not ready, the loop stops there at the latest. -/
theorem Reads.advanceStops (h : Reads u T) (hnext : u.rxDataWin.rxNext = T.rxNext % 4096)
    (hstop : ¬ (u.rxDataWin.win (T.rxNext % 4096)).Ready) : AdvanceStops u := by
  have hsize := h.size
  have hspan : u.rxDataWin.span = T.rxNext - T.rxBegin := by
    rw [RxDataWin.span, h.begin_eq, hnext]
    exact SerialRing.dist_of_le h.le h.size
  obtain ⟨k, u', T', hk, hu', hloop, -⟩ :=
    dataWinAdvance_spec (A := fun _ => True) 4096 h (by omega) hstop
  refine ⟨k, by omega, ?_⟩
  rw [dataWinAdvance, hloop, hu']

theorem Refines.advanceStops (h : Refines u T) (hblank : (T.cell T.rxNext).Blank) :
    AdvanceStops u := by
  refine h.toReads.advanceStops h.next_eq ?_
  rw [h.next_cell]
  exact hblank.not_ready

/-- `MPD_DataWinRxNextMove` finds the window full and enters the loop at `v`. -/
def NextMoveEnters (u v : UserInfo) : Prop :=
  dataWinPlus u.rxDataWin.rxNext = u.rxDataWin.rxBegin ∧
    v = (u.setDataWinNext (dataWinPlus u.rxDataWin.rxNext)).dataWinForceMove

theorem Refines.full_of_enters {v : UserInfo} (h : Refines u T) (hv : NextMoveEnters u v) :
    T.rxNext + 1 = T.rxBegin + 4096 := by
  have hsize := h.size
  have hle := h.le
  have hfull := hv.1
  rw [h.next_eq, h.begin_eq, dataWinPlus_mod] at hfull
  by_contra hne
  exact SerialRing.cell_ne (by omega) (by omega) (by omega) hfull

theorem Refines.advanceStops_full {v : UserInfo} (h : Refines u T)
    (hidle : T.rxBegin < T.rxNext → ¬ T.head.Ready) (hv : NextMoveEnters u v) :
    AdvanceStops v := by
  have hfull := h.full_of_enters hv
  obtain ⟨hreads, hnext, hstop⟩ := h.reads_full hfull (hidle (by omega))
  rw [hv.2]
  exact hreads.advanceStops hnext hstop

end UserInfo

/-- The session in which the loop that extends the window starts, if it does. -/
def anchored (u : UserInfo) (node : MPDNodeInfo) : UserInfo :=
  if u.rxDataWin.looksClear then u.dataWinAnchor node else u

/-- The packet lies at or beyond `RxNext`, near enough to be reached. -/
def InReach (u : UserInfo) (node : MPDNodeInfo) : Prop :=
  ¬ u.rxDataWin.Behind node.dsn ∧ u.rxDataWin.Beyond node.dsn ∧
    distanceSN u.rxDataWin.nextNode.dsn node.dsn ≤ 1999

/-- The sessions in which an operation on `u` enters the loop of `MPD_DataWinRxBeginMove`. -/
inductive DataWinOp.Enters (u : UserInfo) : DataWinOp → UserInfo → Prop
  /-- The packet was taken. -/
  | arrived {m : Msg} {v : UserInfo} (h : u.dataWinAddNode m.node = some (v, true)) :
    Enters u (.arrive m) (v.setRxSubWin m.header.stream
      ((v.rxSubWin m.header.stream).addNode m.header.ssn))
  /-- The window is being extended up to the packet, and is full. -/
  | extended {m : Msg} {s s' v : UserInfo} (h : InReach (anchored u m.node) m.node)
      (hs : ReflTransGen (fun a b => m.node.dsn ≠ a.rxDataWin.nextNode.dsn ∧
        (a.setRxDataWinNode a.rxDataWin.rxNext
          { a.rxDataWin.nextNode with time := u32 (a.time + 30) }).dataWinRxNextMove = some b)
        (anchored u m.node) s)
      (hgo : m.node.dsn ≠ s.rxDataWin.nextNode.dsn)
      (hs' : s' = s.setRxDataWinNode s.rxDataWin.rxNext
        { s.rxDataWin.nextNode with time := u32 (s.time + 30) })
      (hv : NextMoveEnters s' v) : Enters u (.arrive m) v
  /-- The packet was stored at `RxNext`, and the window is full. -/
  | pushed {m : Msg} {s v : UserInfo} (h : InReach (anchored u m.node) m.node)
      (hs : dataWinExtend m.node.dsn (anchored u m.node) = some s)
      (hv : NextMoveEnters (s.dataWinPutInNode s.rxDataWin.rxNext m.node) v) :
      Enters u (.arrive m) v
  /-- A slot timed out. -/
  | timedOut (h : (dataWinTimeOutScan u.nodeCnt u.rxDataWin.rxBegin u).2 = true) :
    Enters u .timeOutCheck (dataWinTimeOutScan u.nodeCnt u.rxDataWin.rxBegin u).1
  /-- The window is being cleared. -/
  | cleared {s : UserInfo} (hs : ReflTransGen (fun a b =>
        a.rxDataWin.rxBegin ≠ a.rxDataWin.rxNext ∧ a.dataWinRxBeginMove true = some b) u s)
      (hgo : s.rxDataWin.rxBegin ≠ s.rxDataWin.rxNext) : Enters u .clear s.dataWinForceMove

namespace UserInfo

variable {u u' v : UserInfo} {T T' : Tape}

/-- What every run keeps. -/
def Ordered (u : UserInfo) : Prop := ∃ T, AtRest u T

theorem ordered_cleared (u : UserInfo) :
    Ordered { u with rxDataWin := {}, rxSubWin := fun _ => {} } := by
  refine ⟨⟨0, 0, fun _ => {}, fun _ => {}, fun i => (u.schdPara i).isValid, u.out⟩,
    ⟨⟨⟨rfl, le_rfl, ?_, ?_, ?_, rfl, rfl, rfl, fun _ => RxSubWin.kept_clear⟩, rfl, rfl⟩,
      .wiped 0, ?_⟩⟩
  · exact Nat.zero_lt_succ 4095
  · intro p _ hp
    exact absurd hp (Nat.not_lt_zero p)
  · intro p _ hp
    rw [show p = 0 from Nat.le_zero.mp hp]
  · simp [Tape.head, RxDataWinNode.Ready]

/-- One operation. -/
theorem Ordered.step (h : Ordered u) (op : DataWinOp) :
    ∃ u', op.step u = some u' ∧ Ordered u' := by
  obtain ⟨T, hT⟩ := h
  cases op with
  | arrive m =>
    obtain ⟨u', T', hu', hT', -⟩ := parseData_spec (A := fun _ => True)
      (t := m.header.dsn) hT trivial m (fun _ _ => Nat.mod_eq_of_lt (m.word_lt 2))
    exact ⟨u', hu', T', hT'⟩
  | timeOutCheck =>
    obtain ⟨u', T', hu', hT', -⟩ := dataWinTimeOutCheck_spec (A := fun _ => True) hT
    exact ⟨u', hu', T', hT'⟩
  | checkAck =>
    obtain ⟨T', hT', -⟩ := checkAck_spec (A := fun _ => True) hT
      (fun _ _ _ _ _ _ _ _ _ _ => trivial)
    exact ⟨_, rfl, T', hT'⟩
  | changeFlowId flowId =>
    obtain ⟨T', hT', -⟩ := changeDataWinFlowId_spec (A := fun _ => True) hT
      fun _ _ _ _ _ => trivial
    exact ⟨_, rfl, T', hT'⟩
  | clear =>
    obtain ⟨u', T₁, hu', -, -, -, hT'⟩ := clearDataWin_spec (A := fun _ => True) hT
    exact ⟨u', hu', _, hT'⟩
  | tick => exact ⟨_, rfl, T, hT.setTime _⟩
  | setFlowValid flowId flag => exact ⟨_, rfl, _, hT.setFlowValid flowId flag⟩
  | clearSubWin flowId => exact ⟨_, rfl, _, hT.setSub flowId RxSubWin.kept_clear⟩

/-- The loop that extends the window starts in a session at rest, or where there is nothing for it
to do. -/
theorem AtRest.anchored_cases (hT : AtRest u T) {node : MPDNodeInfo} (hd : node.dsn < 65536) :
    anchored u node = u ∨ ∃ S, Refines (anchored u node) S ∧ S.rxBegin = S.rxNext ∧
      node.dsn = (anchored u node).rxDataWin.nextNode.dsn := by
  by_cases hc : u.rxDataWin.looksClear
  · have ha := hT.toRefines.anchor node (t := node.dsn) (Nat.mod_eq_of_lt hd)
    refine .inr ⟨_, by rw [anchored, if_pos hc]; exact ha, rfl, ?_⟩
    rw [anchored, if_pos hc, ha.next_dsn]
    exact (Nat.mod_eq_of_lt hd).symm
  · exact .inl (by rw [anchored, if_neg hc])

/-- Wherever the loop extending the window up to a packet within reach has got to, it is at rest. -/
theorem AtRest.extending {s : UserInfo} {node : MPDNodeInfo} (hT : AtRest u T)
    (hd : node.dsn < 65536) (h : InReach u node)
    (hs : ReflTransGen (fun a b => node.dsn ≠ a.rxDataWin.nextNode.dsn ∧
      (a.setRxDataWinNode a.rxDataWin.rxNext
        { a.rxDataWin.nextNode with time := u32 (a.time + 30) }).dataWinRxNextMove = some b) u s) :
    ∃ S, AtRest s S := by
  obtain ⟨t, ht, ht', hmod⟩ := SerialRing.exists_position hd T.rxNext
  have hk : t - T.rxNext ≤ 1999 := by
    have hnear := h.2.2
    rw [hT.toRefines.next_dsn, ← hmod, distanceSN_of_le ht ht'] at hnear
    exact hnear
  have hreach : (T.rxNext + (t - T.rxNext)) % 65536 = node.dsn := by
    rw [Nat.add_sub_cancel' ht, hmod]
  have hext : Extending (fun _ => True) T (t - T.rxNext) s := by
    induction hs with
    | refl => exact ⟨T, hT, .refl, le_rfl, by omega⟩
    | tail _ hstep ih =>
      obtain ⟨s', hs', hext, -⟩ := ih.round hk hreach hstep.1
      obtain rfl := Option.some.inj (hs'.symm.trans hstep.2)
      exact hext
  exact hext.imp fun S hS => hS.1

/-- Wherever the loop that clears the window has got to, it is at rest. -/
theorem AtRest.clearing {s : UserInfo} (hT : AtRest u T)
    (hs : ReflTransGen (fun a b => a.rxDataWin.rxBegin ≠ a.rxDataWin.rxNext ∧
      a.dataWinRxBeginMove true = some b) u s) : ∃ S, AtRest s S := by
  have hclear : Clearing (fun _ => True) T s := by
    induction hs with
    | refl => exact ⟨T, hT, .refl⟩
    | tail _ hstep ih =>
      obtain ⟨s', hs', hclear, -⟩ := ih.round hstep.1
      obtain rfl := Option.some.inj (hs'.symm.trans hstep.2)
      exact hclear
  exact hclear.imp fun S hS => hS.1

/-- Wherever an operation enters the loop, the loop stops in time. -/
theorem AtRest.advanceStops {op : DataWinOp} (hT : AtRest u T) (h : op.Enters u v) :
    AdvanceStops v := by
  cases h with
  | @arrived m v h =>
    have hd : m.node.dsn < 65536 := m.word_lt 2
    obtain ⟨v', taken, T₁, T', hadd, -, -, hT', hblank, -⟩ := dataWinAddNode_spec
      (A := fun _ => True) hT trivial hd (fun _ => Nat.mod_eq_of_lt hd)
    obtain rfl : v' = v := congrArg Prod.fst (Option.some.inj (hadd.symm.trans h))
    obtain ⟨h₁, -⟩ := hT'.toReads.addNode (A := fun _ => True) m.header.stream (m.word_lt 4)
    have hset : Refines _ _ := ⟨h₁, hT'.next_eq, hT'.next_cell⟩
    exact hset.advanceStops hblank
  | @extended m s s' v h hs hgo hs' hv =>
    have hd : m.node.dsn < 65536 := m.word_lt 2
    rcases hT.anchored_cases hd with heq | ⟨S, -, -, hend⟩
    · rw [heq] at h hs
      obtain ⟨S, hS⟩ := hT.extending hd h hs
      obtain ⟨h₁, -⟩ := hS.startClock (A := fun _ => True) (u32 (s.time + 30))
      rw [← hs'] at h₁
      exact h₁.toRefines.advanceStops_full (fun _ => h₁.head_idle) hv
    · -- the packet is at `RxNext`, so the loop makes no round
      rcases hs.cases_head with rfl | ⟨a, hstep, -⟩
      · exact absurd hend hgo
      · exact absurd hend hstep.1
  | @pushed m s v h hs hv =>
    have hd : m.node.dsn < 65536 := m.word_lt 2
    have hrounds := whileLoop_steps hs
    have hend : m.node.dsn = s.rxDataWin.nextNode.dsn :=
      not_not.mp (whileLoop_inv (fun _ => True) (fun _ _ _ _ _ => trivial) trivial hs).2
    obtain ⟨S, hS, hidle⟩ : ∃ S, Refines s S ∧ (S.rxBegin < S.rxNext → ¬ S.head.Ready) := by
      rcases hT.anchored_cases hd with heq | ⟨S, hS, hempty, hend⟩
      · rw [heq] at h hrounds
        obtain ⟨S, hS⟩ := hT.extending hd h hrounds
        exact ⟨S, hS.toRefines, fun _ => hS.head_idle⟩
      · rcases hrounds.cases_head with rfl | ⟨a, hstep, -⟩
        · exact ⟨S, hS, fun hlt => absurd hlt (by omega)⟩
        · exact absurd hend hstep.1
    have hput := hS.putInNode (p := S.rxNext) hS.le le_rfl (hS.next_dsn.symm.trans hend.symm)
    rw [← hS.next_eq] at hput
    refine hput.advanceStops_full (fun hlt => ?_) hv
    rw [Tape.put_rxBegin, Tape.put_rxNext] at hlt
    rw [Tape.head, Tape.put_rxBegin, Tape.put_cell, if_neg (by omega)]
    exact hidle hlt
  | timedOut h =>
    have hle := hT.le
    obtain ⟨T₁, h₁, -, hblank, -⟩ := dataWinTimeOutScan_spec (A := fun _ => True) hT.toRefines
      hT.next_blank le_rfl (Nat.add_sub_cancel' hle)
    rw [← hT.toRefines.nodeCnt_eq, ← hT.begin_eq] at h₁
    exact h₁.advanceStops hblank
  | @cleared s hs hgo =>
    obtain ⟨S, hS⟩ := hT.clearing hs
    have hlt : S.rxBegin < S.rxNext := by
      refine lt_of_le_of_ne hS.le (fun heq => hgo ?_)
      rw [hS.begin_eq, hS.next_eq, heq]
    have hdrop := hS.toRefines.force hlt (fun hc => hS.head_idle (.inl hc))
    exact hdrop.advanceStops hS.next_blank

end UserInfo

/-- **The data window over a run.** Starting with cleared windows, whatever happens to the session's
receive side in whatever order: every operation ends, the representation invariant holds, and
wherever the next operation enters the loop of `MPD_DataWinRxBeginMove`, the loop makes at most as
many rounds as there are slots between `RxBegin` and `RxNext`. -/
theorem dataWin_run (u₀ : UserInfo) (ops : List DataWinOp) :
    ∃ u, run DataWinOp.step ops { u₀ with rxDataWin := {}, rxSubWin := fun _ => {} } = some u ∧
      u.rxDataWin.WellFormed ∧ ∀ op v, DataWinOp.Enters u op v → AdvanceStops v := by
  obtain ⟨u, hrun, T, hT⟩ := run_total (fun op u hu => Ordered.step hu op) (ordered_cleared u₀) ops
  exact ⟨u, hrun, hT.wellFormed, fun op v hv => hT.advanceStops hv⟩

end Mpd

end AndroidVendor
