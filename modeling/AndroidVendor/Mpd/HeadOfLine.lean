import AndroidVendor.Mpd.DataWinRun
import AndroidVendor.Mpd.Delivery

/-!
# Head-of-line blocking

How long the data window waits for a slot. An incomplete slot is stamped with a time at most 30
ticks ahead when it comes into the window or a fragment comes into it. `MPD_DataWinTimeOutCheck`
marks the slots from `RxBegin` on whose time has come, up to the first that has to wait, and the
window moves past them.

Between two operations only the slot at `RxBegin` could still be marked, and the window would have
moved past that one: this is what carries the invariant, `RxDataWin.Waits`, through the moves in the
middle of an operation.

## Main results

* `waits_step` — every operation keeps the invariant
* `punctual_run` — what holds after every check of a run
-/

namespace AndroidVendor

namespace Mpd

open Loop Machine

/-! ### The slots of the window -/

theorem RxDataWinNode.put_time {n : RxDataWinNode} {node : MPDNodeInfo} {t : ℕ}
    (h : (n.put node t).status ≠ .receiveComplete) : (n.put node t).time = u32 (t + 30) := by
  have hwhole : ¬ (node.fragment = 0 ∨
      (if node.fragment = 0 then 0 else n.fragment ||| 1 <<< (node.fragment - 1)) = 3) :=
    fun hwhole => h (if_pos hwhole)
  exact if_neg hwhole

namespace RxDataWin

/-- Slot `k` of the window, counted from `RxBegin`. -/
def slot (w : RxDataWin) (k : ℕ) : RxDataWinNode := w.win ((w.rxBegin + k) % 4096)

/-- At time `t` no incomplete slot has more than 30 ticks to go, and none behind the first has timed
out. -/
structure Waits (w : RxDataWin) (t : ℕ) : Prop where
  stamp : ∀ k < w.span, (w.slot k).status ≠ .receiveComplete → (w.slot k).time ≤ t + 30
  ticking : ∀ k < w.span, 0 < k → (w.slot k).timeOut = false

variable {w : RxDataWin} {t t' : ℕ}

theorem waits_clear (t : ℕ) : Waits {} t := by
  constructor
  · intro k hk
    exact absurd hk (Nat.not_lt_zero k)
  · intro k hk
    exact absurd hk (Nat.not_lt_zero k)

theorem Waits.later (h : w.Waits t) (ht : t ≤ t') : w.Waits t' := by
  constructor
  · intro k hk hc
    exact (h.stamp k hk hc).trans (Nat.add_le_add_right ht 30)
  · exact h.ticking

/-- A packet is stored in a slot, wherever that is. -/
theorem Waits.put (h : w.Waits t) (i : ℕ) (node : MPDNodeInfo) :
    Waits { w with win := Function.update w.win i ((w.win i).put node t) } t := by
  have hslot : ∀ k, slot { w with win := Function.update w.win i ((w.win i).put node t) } k =
      w.slot k ∨ slot { w with win := Function.update w.win i ((w.win i).put node t) } k =
        (w.slot k).put node t := by
    intro k
    by_cases hi : (w.rxBegin + k) % 4096 = i
    · right
      simp only [slot, hi, Function.update_self]
    · left
      exact Function.update_of_ne hi _ _
  constructor
  · intro k hk hc
    rcases hslot k with heq | heq
    · rw [heq] at hc ⊢
      exact h.stamp k hk hc
    · rw [heq] at hc ⊢
      rw [RxDataWinNode.put_time hc]
      exact Nat.mod_le _ _
  · intro k hk h0
    rcases hslot k with heq | heq
    · rw [heq]
      exact h.ticking k hk h0
    · rw [heq]
      exact h.ticking k hk h0

end RxDataWin

/-- The same of the tape. -/
structure Tape.Waits (T : Tape) (t : ℕ) : Prop where
  stamp : ∀ p, T.rxBegin ≤ p → p < T.rxNext → (T.cell p).status ≠ .receiveComplete →
    (T.cell p).time ≤ t + 30
  ticking : ∀ p, T.rxBegin < p → p < T.rxNext → (T.cell p).timeOut = false

/-- Slots leave at the front. -/
theorem Tape.Waits.advance {T T' : Tape} {t : ℕ} (h : T.Waits t) (hb : T.rxBegin ≤ T'.rxBegin)
    (hn : T'.rxNext = T.rxNext) (hc : T'.cell = T.cell) : T'.Waits t := by
  constructor
  · intro p hp hpn
    rw [hc]
    exact h.stamp p (hb.trans hp) (hn ▸ hpn)
  · intro p hp hpn
    rw [hc]
    exact h.ticking p (hb.trans_lt hp) (hn ▸ hpn)

/-- The slot at `RxNext` comes into the window. -/
theorem Tape.Waits.grow {T T' : Tape} {t : ℕ} (h : T.Waits t) (hb : T.rxBegin ≤ T'.rxBegin)
    (hn : T'.rxNext = T.rxNext + 1) (hc : T'.cell = T.grow.cell)
    (hstamp : (T.cell T.rxNext).status ≠ .receiveComplete → (T.cell T.rxNext).time ≤ t + 30)
    (htick : T.rxBegin < T.rxNext → (T.cell T.rxNext).timeOut = false) : T'.Waits t := by
  constructor
  · intro p hp hpn
    rw [hc, T.grow_cell_of_le (by omega)]
    rcases Nat.lt_or_ge p T.rxNext with hlt | hge
    · exact h.stamp p (hb.trans hp) hlt
    · obtain rfl : p = T.rxNext := by omega
      exact hstamp
  · intro p hp hpn
    rw [hc, T.grow_cell_of_le (by omega)]
    rcases Nat.lt_or_ge p T.rxNext with hlt | hge
    · exact h.ticking p (hb.trans_lt hp) hlt
    · obtain rfl : p = T.rxNext := by omega
      exact htick (hb.trans_lt hp)

namespace UserInfo

variable {u v : UserInfo} {T T' : Tape} {t : ℕ} {node : MPDNodeInfo}

theorem Reads.slot_eq (h : Reads u T) {k : ℕ} (hk : k < T.rxNext - T.rxBegin) :
    u.rxDataWin.slot k = T.cell (T.rxBegin + k) := by
  rw [RxDataWin.slot, h.begin_eq, Nat.mod_add_mod]
  exact h.cell _ (Nat.le_add_right _ _) (by omega)

theorem Refines.waits_iff (h : Refines u T) : u.rxDataWin.Waits t ↔ T.Waits t := by
  have hspan := h.span_eq
  constructor
  · intro hw
    constructor
    · intro p hb hn
      have hp := hw.stamp (p - T.rxBegin) (by omega)
      rwa [h.toReads.slot_eq (by omega), Nat.add_sub_cancel' hb] at hp
    · intro p hb hn
      have hp := hw.ticking (p - T.rxBegin) (by omega) (by omega)
      rwa [h.toReads.slot_eq (by omega), Nat.add_sub_cancel' hb.le] at hp
  · intro hw
    constructor
    · intro k hk
      rw [h.toReads.slot_eq (by omega)]
      exact hw.stamp _ (by omega) (by omega)
    · intro k hk h0
      rw [h.toReads.slot_eq (by omega)]
      exact hw.ticking _ (by omega) (by omega)

/-! ### The moves of the window -/

theorem waits_dataWinRxBeginMove (h : Refines u T) (hblank : (T.cell T.rxNext).Blank)
    (hw : u.rxDataWin.Waits t) (hm : u.dataWinRxBeginMove false = some v) :
    v.rxDataWin.Waits t := by
  obtain ⟨v', T', hv, hT', -, hsame⟩ := dataWinRxBeginMove_spec (A := fun _ => True) h hblank
  obtain rfl := Option.some.inj (hv.symm.trans hm)
  exact hT'.toRefines.waits_iff.mpr
    ((h.waits_iff.mp hw).advance hsame.begin_le hsame.tapeNext hsame.tapeCell)

theorem waits_dataWinRxNextMove (h : Refines u T)
    (hfull : T.rxNext + 1 = T.rxBegin + 4096 → ¬ T.head.Ready) (hw : u.rxDataWin.Waits t)
    (hstamp : (T.cell T.rxNext).status ≠ .receiveComplete → (T.cell T.rxNext).time ≤ t + 30)
    (htick : T.rxBegin < T.rxNext → (T.cell T.rxNext).timeOut = false)
    (hm : u.dataWinRxNextMove = some v) : v.rxDataWin.Waits t := by
  obtain ⟨v', T', hv, hT', -, hnext, hbegin, hcell, -⟩ :=
    dataWinRxNextMove_spec (A := fun _ => True) h hfull
  obtain rfl := Option.some.inj (hv.symm.trans hm)
  exact hT'.waits_iff.mpr ((h.waits_iff.mp hw).grow hbegin hnext hcell hstamp htick)

/-- The loop that extends the window stamps what comes into it. -/
theorem waits_dataWinExtend (h : AtRest u T) (hw : u.rxDataWin.Waits u.time) {dsn : ℕ}
    (hm : dataWinExtend dsn u = some v) :
    v.time = u.time ∧ v.rxDataWin.Waits u.time ∧ ∃ S, AtRest v S := by
  refine (whileLoop_inv (fun s => s.time = u.time ∧ s.rxDataWin.Waits u.time ∧ ∃ S, AtRest s S)
    (fun s s' hs _ hbody => ?_) ⟨rfl, hw, T, h⟩ hm).1
  obtain ⟨htime, hws, S, hS⟩ := hs
  obtain ⟨hstart, -⟩ := hS.startClock (A := fun _ => True) (u32 (s.time + 30))
  obtain ⟨s'', S', hround, hS', -⟩ := extendRound_spec (A := fun _ => True) hS
  obtain rfl := Option.some.inj (hround.symm.trans hbody)
  refine ⟨?_, ?_, S', hS'⟩
  · exact (((RxStep.frame _).dataWinRxNextMove (.refl _) hbody).time).trans htime
  · have hstamp : u32 (s.time + 30) ≤ u.time + 30 := htime ▸ Nat.mod_le _ _
    refine waits_dataWinRxNextMove hstart.toRefines (fun _ => hstart.head_idle) ?_ ?_ ?_ hbody
    · -- the slot at `RxNext` is not one of the window yet
      refine hstart.toRefines.waits_iff.mpr ?_
      have hST := hS.toRefines.waits_iff.mp hws
      constructor
      · intro p hp hpn
        rw [Tape.setCell_rxNext] at hpn
        rw [Tape.setCell_cell, if_neg (by omega)]
        exact hST.stamp p hp hpn
      · intro p hp hpn
        rw [Tape.setCell_rxNext] at hpn
        rw [Tape.setCell_cell, if_neg (by omega)]
        exact hST.ticking p hp hpn
    · intro _
      rw [Tape.setCell_rxNext, Tape.setCell_cell, if_pos rfl]
      exact hstamp
    · intro _
      rw [Tape.setCell_rxNext, Tape.setCell_cell, if_pos rfl]
      exact hS.next_blank.timeOut

/-! ### A packet arrives -/

theorem waits_dataWinPutInNode (hw : u.rxDataWin.Waits u.time) (i : ℕ) (node : MPDNodeInfo) :
    (u.dataWinPutInNode i node).rxDataWin.Waits u.time := by
  have hput := hw.put i node
  rw [dataWinPutInNode]
  dsimp only
  split
  · exact ⟨hput.stamp, hput.ticking⟩
  · exact hput

/-- A packet is stored at `RxNext`. In an empty window its slot may be one that has timed out. -/
theorem waits_push (h : Refines u T) (hidle : T.rxBegin < T.rxNext → ¬ T.head.Ready)
    (htick : T.rxBegin < T.rxNext → (T.cell T.rxNext).timeOut = false)
    (hd : T.rxNext % 65536 = node.dsn) (hw : u.rxDataWin.Waits u.time)
    (hm : (u.dataWinPutInNode u.rxDataWin.rxNext node).dataWinRxNextMove = some v) :
    v.rxDataWin.Waits u.time := by
  have hle := h.le
  have hput := h.putInNode hle le_rfl hd
  rw [← h.next_eq] at hput
  refine waits_dataWinRxNextMove hput (fun hfull => ?_) (waits_dataWinPutInNode hw _ _) ?_ ?_ hm
  · rw [Tape.put_rxNext, Tape.put_rxBegin] at hfull
    rw [Tape.head, Tape.put_rxBegin, Tape.put_cell, if_neg (by omega)]
    exact hidle (by omega)
  · rw [Tape.put_rxNext, Tape.put_cell, if_pos rfl]
    intro hc
    rw [RxDataWinNode.put_time hc]
    exact Nat.mod_le _ _
  · rw [Tape.put_rxNext, Tape.put_cell, if_pos rfl]
    exact htick

/-- The three-way branch on where the packet lies. -/
theorem waits_dataWinPlace (h : AtRest u T) (hw : u.rxDataWin.Waits u.time) {r : UserInfo × Bool}
    (hr : u.dataWinPlace node = some r) : r.1.rxDataWin.Waits u.time := by
  rw [dataWinPlace] at hr
  dsimp only at hr
  split at hr
  · split at hr
    · cases hr
      exact hw
    · cases hr
      exact hw
  split at hr
  · split at hr
    · cases hr
      exact hw
    · obtain ⟨s', hs', rfl⟩ := Option.map_eq_some_iff.mp hr
      obtain ⟨s, hs, hs'⟩ := Option.bind_eq_some_iff.mp hs'
      obtain ⟨htime, hws, S, hS⟩ := waits_dataWinExtend h hw hs
      have hend : node.dsn = s.rxDataWin.nextNode.dsn :=
        not_not.mp (whileLoop_inv (fun _ => True) (fun _ _ _ _ _ => trivial) trivial hs).2
      have hs'w : s'.rxDataWin.Waits u.time := by
        rw [← htime] at hws ⊢
        exact waits_push hS.toRefines (fun _ => hS.head_idle) (fun _ => hS.next_blank.timeOut)
          (hS.next_dsn.symm.trans hend.symm) hws hs'
      exact hs'w
  · split at hr
    · cases hr
      exact hw
    · cases hr
      exact waits_dataWinPutInNode hw _ _

theorem waits_dataWinAddNode (h : AtRest u T) (hd : node.dsn < 65536)
    (hw : u.rxDataWin.Waits u.time) {r : UserInfo × Bool} (hr : u.dataWinAddNode node = some r) :
    r.1.rxDataWin.Waits u.time := by
  obtain ⟨r', hr', rfl⟩ := Option.map_eq_some_iff.mp hr
  suffices hr'w : r'.1.rxDataWin.Waits u.time by
    show r'.1.reportDsnErr.rxDataWin.Waits u.time
    rw [reportDsnErr]
    split <;> exact hr'w
  split at hr'
  · next hc =>
    -- the packet becomes the only slot of the window
    have ha := h.toRefines.anchor node (Nat.mod_eq_of_lt hd)
    obtain ⟨s, hplace, hs⟩ := dataWinPlace_anchor h.toRefines node (Nat.mod_eq_of_lt hd)
    obtain rfl : r' = (s, true) := Option.some.inj (hr'.symm.trans hplace)
    refine hs.waits_iff.mpr ?_
    constructor
    · intro p hp hpn
      obtain rfl : p = node.dsn := Nat.le_antisymm (Nat.lt_succ_iff.mp hpn) hp
      rw [Tape.grow_cell_of_le ((T.anchor _ node _).put _ node u.time) (le_refl node.dsn),
        Tape.put_cell, if_pos rfl]
      intro hc
      rw [RxDataWinNode.put_time hc]
      exact Nat.mod_le _ _
    · intro p hp hpn
      exact absurd (Nat.lt_succ_iff.mp hpn) (Nat.not_le_of_lt hp)
  · exact waits_dataWinPlace h hw hr'

theorem waits_parseData (h : AtRest u T) (hw : u.rxDataWin.Waits u.time) {m : Msg}
    (hp : u.parseData m = some v) : v.rxDataWin.Waits u.time := by
  have hd : m.node.dsn < 65536 := m.word_lt 2
  rw [parseData] at hp
  split at hp
  · cases hp
    exact hw
  obtain ⟨r, hr, hp⟩ := Option.bind_eq_some_iff.mp hp
  have hrw := waits_dataWinAddNode h hd hw hr
  split at hp
  · obtain ⟨s, taken, T₁, S, hadd, -, -, hS, hblank, -⟩ := dataWinAddNode_spec
      (A := fun _ => True) h trivial hd (fun _ => Nat.mod_eq_of_lt hd)
    obtain rfl : r = (s, taken) := Option.some.inj (hr.symm.trans hadd)
    obtain ⟨hset, -⟩ := hS.toReads.addNode (A := fun _ => True) m.header.stream (m.word_lt 4)
    have hset' : Refines _ _ := ⟨hset, hS.next_eq, hS.next_cell⟩
    exact waits_dataWinRxBeginMove hset' hblank hrw hp
  · cases hp
    exact hrw

/-! ### The check -/

/-- The loop of `MPD_DataWinRxBeginMove` does not get past a slot that is not ready. -/
theorem dataWinRxBeginMove_stops (h : Reads u T) (hm : u.dataWinRxBeginMove false = some v) {q : ℕ}
    (hb : T.rxBegin ≤ q) (hn : q < T.rxNext) (hidle : ¬ (T.cell q).Ready) :
    ∃ b, T.rxBegin ≤ b ∧ b ≤ q ∧ v.rxDataWin.rxBegin = b % 4096 := by
  obtain ⟨s, hs, hm⟩ := Option.bind_eq_some_iff.mp hm
  rw [driveSubWins_rxDataWin hm]
  have hinv : ∃ S, Reads s S ∧ S.cell = T.cell ∧ S.rxNext = T.rxNext ∧ T.rxBegin ≤ S.rxBegin ∧
      S.rxBegin ≤ q := by
    refine (whileLoop_inv (fun a => ∃ S, Reads a S ∧ S.cell = T.cell ∧ S.rxNext = T.rxNext ∧
      T.rxBegin ≤ S.rxBegin ∧ S.rxBegin ≤ q) (fun a a' ha hready hbody => ?_)
      ⟨T, h, rfl, rfl, le_rfl, hb⟩ hs).1
    obtain ⟨S, hS, hcell, hnext, hbegin, hq⟩ := ha
    cases hbody
    have hne : S.rxBegin ≠ q := by
      intro heq
      rw [hS.beginNode_eq (by omega), Tape.head, hcell, heq] at hready
      exact hidle hready
    obtain ⟨S', hS', -, hsame, hbegin'⟩ :=
      dataWinHeadOut_spec (A := fun _ => True) hS (show S.rxBegin < S.rxNext by omega)
    exact ⟨S', hS', hsame.tapeCell.trans hcell, hsame.tapeNext.trans hnext, by omega, by omega⟩
  obtain ⟨S, hS, -, -, hbegin, hq⟩ := hinv
  exact ⟨S.rxBegin, hbegin, hq, hS.begin_eq⟩

/-- The check makes the slots up to `q` ready, and `q` has to wait. -/
theorem dataWinTimeOutScan_upto {cnt p : ℕ} (h : Refines u T) (hb : T.rxBegin ≤ p)
    (hn : p + cnt = T.rxNext) :
    ∃ T' q, Refines (dataWinTimeOutScan cnt (p % 4096) u).1 T' ∧ T'.rxBegin = T.rxBegin ∧
      T'.rxNext = T.rxNext ∧ p ≤ q ∧ q ≤ T.rxNext ∧ (∀ x, p ≤ x → x < q → (T'.cell x).Ready) ∧
      (∀ x, x < p ∨ q ≤ x → T'.cell x = T.cell x) ∧
      (q < T.rxNext → (T.cell q).status ≠ .receiveComplete ∧ u.time < (T.cell q).time) ∧
      ((dataWinTimeOutScan cnt (p % 4096) u).2 = false →
        ∀ x, p ≤ x → x < q → (T.cell x).status = .receiveComplete) := by
  induction cnt generalizing u T p with
  | zero =>
    refine ⟨T, p, h, rfl, rfl, le_rfl, hn.le, ?_, fun _ _ => rfl, fun hlt => absurd hlt ?_, ?_⟩
    · intro x hx hx'
      exact absurd hx' (Nat.not_lt_of_le hx)
    · omega
    · intro _ x hx hx'
      exact absurd hx' (Nat.not_lt_of_le hx)
  | succ cnt ih =>
    rw [dataWinTimeOutScan]
    dsimp only
    rw [dataWinPlus_mod, h.cell' hb (by omega)]
    by_cases hc : (T.cell p).status ≠ .receiveComplete
    · rw [if_pos hc]
      by_cases hdue : (T.cell p).time ≤ u.time
      · rw [if_pos hdue]
        have htouch := h.setNode hb (by omega) (n := { T.cell p with timeOut := true })
          (h.num p hb (by omega))
        obtain ⟨T', q, hT', hbegin, hnext, hpq, hqn, hready, hsame, hwait, -⟩ :=
          ih htouch (p := p + 1) (Nat.le_succ_of_le hb) (by rw [Tape.setCell_rxNext]; omega)
        have hkept : ∀ x, p + 1 ≤ x → (T.setCell p { T.cell p with timeOut := true }).cell x =
            T.cell x := by
          intro x hx
          rw [Tape.setCell_cell, if_neg (by omega)]
        refine ⟨T', q, hT', hbegin, hnext, by omega, hqn, ?_, ?_, ?_, fun hfalse =>
          (Bool.false_ne_true hfalse.symm).elim⟩
        · intro x hx hxq
          rcases Nat.eq_or_lt_of_le hx with rfl | hlt
          · rw [hsame _ (.inl (Nat.lt_succ_self _)), Tape.setCell_cell, if_pos rfl]
            exact .inr rfl
          · exact hready x hlt hxq
        · intro x hx
          rw [hsame x (hx.imp_left (by omega)), Tape.setCell_cell, if_neg (by omega)]
        · intro hlt
          have hq := hwait hlt
          rwa [hkept q hpq] at hq
      · rw [if_neg hdue]
        refine ⟨T, p, h, rfl, rfl, le_rfl, by omega, ?_, fun _ _ => rfl,
          fun _ => ⟨hc, Nat.lt_of_not_le hdue⟩, ?_⟩
        · intro x hx hx'
          exact absurd hx' (Nat.not_lt_of_le hx)
        · intro _ x hx hx'
          exact absurd hx' (Nat.not_lt_of_le hx)
    · rw [if_neg hc]
      obtain ⟨T', q, hT', hbegin, hnext, hpq, hqn, hready, hsame, hwait, hcomplete⟩ :=
        ih h (p := p + 1) (Nat.le_succ_of_le hb) (by omega)
      have hcp : (T.cell p).status = .receiveComplete := not_not.mp hc
      refine ⟨T', q, hT', hbegin, hnext, by omega, hqn, ?_, ?_, hwait, ?_⟩
      · intro x hx hxq
        rcases Nat.eq_or_lt_of_le hx with rfl | hlt
        · rw [hsame _ (.inl (Nat.lt_succ_self _))]
          exact .inl hcp
        · exact hready x hlt hxq
      · intro x hx
        exact hsame x (hx.imp_left (by omega))
      · intro hfalse x hx hxq
        rcases Nat.eq_or_lt_of_le hx with rfl | hlt
        · exact hcp
        · exact hcomplete hfalse x hlt hxq

/-- What holds after a check. -/
structure Punctual (u : UserInfo) : Prop where
  /-- The window is empty, or its first slot has time left. -/
  head : u.rxDataWin.rxBegin = u.rxDataWin.rxNext ∨
    (u.rxDataWin.beginNode.status ≠ .receiveComplete ∧ u.time < u.rxDataWin.beginNode.time)
  stamp : ∀ n, u.InWindow n → n.status ≠ .receiveComplete → n.time ≤ u.time + 30
  ticking : ∀ n, u.InWindow n → n.timeOut = false

theorem AtRest.ticking (h : AtRest u T) (hw : u.rxDataWin.Waits t) {n : RxDataWinNode}
    (hn : u.InWindow n) : n.timeOut = false := by
  obtain ⟨k, hk, rfl⟩ := hn
  rcases Nat.eq_zero_or_pos k with rfl | h0
  · rw [h.toRefines.nodeCnt_eq] at hk
    have hhead := h.toReads.slot_eq hk
    rw [RxDataWin.slot] at hhead
    rw [hhead]
    exact Bool.eq_false_iff.mpr fun hto => h.head_idle (.inr hto)
  · exact hw.ticking k hk h0

/-- A window at rest whose first slot has time left. -/
theorem AtRest.punctual (h : AtRest u T) (hw : u.rxDataWin.Waits u.time)
    (hhead : T.rxBegin < T.rxNext → T.head.status ≠ .receiveComplete ∧ u.time < T.head.time) :
    u.Punctual := by
  constructor
  · rcases Nat.eq_or_lt_of_le h.le with heq | hlt
    · left
      rw [h.begin_eq, h.next_eq, heq]
    · right
      rw [h.toReads.beginNode_eq hlt]
      exact hhead hlt
  · rintro n ⟨k, hk, rfl⟩
    exact hw.stamp k hk
  · intro n hn
    exact h.ticking hw hn

/-- **`MPD_DataWinTimeOutCheck`.** -/
theorem punctual_check (h : AtRest u T) (hw : u.rxDataWin.Waits u.time)
    (hm : u.dataWinTimeOutCheck = some v) : v.rxDataWin.Waits v.time ∧ v.Punctual := by
  have hle := h.le
  have hsize := h.size
  have hT := h.toRefines.waits_iff.mp hw
  obtain ⟨T₁, q, h₁, hbegin, hnext, hbq, hqn, hready, hsame, hwait, hcomplete⟩ :=
    dataWinTimeOutScan_upto h.toRefines le_rfl (Nat.add_sub_cancel' hle)
  obtain ⟨-, -, -, -, hunmarked⟩ := dataWinTimeOutScan_spec (A := fun _ => True) h.toRefines
    h.next_blank le_rfl (Nat.add_sub_cancel' hle)
  have htime : v.time = u.time := (RxStep.dataWinTimeOutCheck hm).time
  rw [← h.toRefines.nodeCnt_eq, ← h.begin_eq] at h₁ hcomplete hunmarked
  rw [htime]
  rw [dataWinTimeOutCheck] at hm
  split at hm
  · -- the window moves to `q`
    have hblank : (T₁.cell T₁.rxNext).Blank := by
      rw [hnext, hsame _ (.inr hqn)]
      exact h.next_blank
    obtain ⟨v', T', hv, hT', -, hslots⟩ := dataWinRxBeginMove_spec (A := fun _ => True) h₁ hblank
    obtain rfl := Option.some.inj (hv.symm.trans hm)
    have hle' := hT'.le
    have hbegin' := hslots.begin_le
    have hnext' := hslots.tapeNext
    have hge : q ≤ T'.rxBegin := by
      by_contra hlt
      refine hT'.head_idle ?_
      rw [Tape.head, hslots.tapeCell]
      exact hready _ (by omega) (by omega)
    have hcell : ∀ x, T'.rxBegin ≤ x → T'.cell x = T.cell x := by
      intro x hx
      rw [hslots.tapeCell, hsame x (.inr (by omega))]
    have hw' : v'.rxDataWin.Waits u.time := by
      refine hT'.toRefines.waits_iff.mpr ?_
      constructor
      · intro p hp hpn
        rw [hcell p hp]
        exact hT.stamp p (by omega) (by omega)
      · intro p hp hpn
        rw [hcell p hp.le]
        exact hT.ticking p (by omega) (by omega)
    refine ⟨hw', hT'.punctual (htime ▸ hw') fun hlt => ?_⟩
    have hqlt : q < T.rxNext := by omega
    have hidle : ¬ (T₁.cell q).Ready := by
      rw [hsame q (.inr le_rfl)]
      rintro (hc | hto)
      · exact (hwait hqlt).1 hc
      · rcases Nat.eq_or_lt_of_le hbq with rfl | hlt'
        · exact h.head_idle (.inr hto)
        · exact absurd (hto.symm.trans (hT.ticking q hlt' hqlt)) (by decide)
    obtain ⟨b, hb, hbq', hmod⟩ := dataWinRxBeginMove_stops h₁.toReads hm (by omega) (by omega) hidle
    have hbT : T'.rxBegin = b :=
      SerialRing.cell_inj (hT'.begin_eq.symm.trans hmod) (by omega) (by omega)
    obtain rfl : T'.rxBegin = q := by omega
    rw [Tape.head, hcell _ le_rfl, htime]
    exact hwait hqlt
  · -- nothing was marked, so the first slot has to wait
    next hfalse =>
    have hfalse' : (dataWinTimeOutScan u.nodeCnt u.rxDataWin.rxBegin u).2 = false := by
      simpa using hfalse
    obtain rfl : u = v := (hunmarked hfalse').symm.trans (Option.some.inj hm)
    refine ⟨hw, h.punctual hw fun hlt => ?_⟩
    have hq : q = T.rxBegin := by
      by_contra hne
      exact h.head_idle (.inl (hcomplete hfalse' _ le_rfl (by omega)))
    rw [Tape.head, ← hq]
    exact hwait (by omega)

/-! ### Slots that are looked at -/

/-- Slots are marked, but not their clocks. -/
structure SameClocks (w w' : RxDataWin) : Prop where
  rxBegin : w'.rxBegin = w.rxBegin
  rxNext : w'.rxNext = w.rxNext
  status : ∀ i, (w'.win i).status = (w.win i).status
  time : ∀ i, (w'.win i).time = (w.win i).time
  timeOut : ∀ i, (w'.win i).timeOut = (w.win i).timeOut

theorem SameClocks.refl (w : RxDataWin) : SameClocks w w :=
  ⟨rfl, rfl, fun _ => rfl, fun _ => rfl, fun _ => rfl⟩

theorem SameClocks.setNode {w : RxDataWin} (h : SameClocks w u.rxDataWin) {i : ℕ}
    {n : RxDataWinNode} (hs : n.status = (u.rxDataWin.win i).status)
    (ht : n.time = (u.rxDataWin.win i).time) (hto : n.timeOut = (u.rxDataWin.win i).timeOut) :
    SameClocks w (u.setRxDataWinNode i n).rxDataWin := by
  have hset : ∀ {β : Type} (g : RxDataWinNode → β), g n = g (u.rxDataWin.win i) → ∀ j,
      g ((u.setRxDataWinNode i n).rxDataWin.win j) = g (u.rxDataWin.win j) := by
    intro β g hg j
    by_cases hj : j = i
    · subst hj
      have hnode : (u.setRxDataWinNode j n).rxDataWin.win j = n := Function.update_self ..
      rw [hnode, hg]
    · exact congrArg g (Function.update_of_ne hj _ _)
  constructor
  · exact h.rxBegin
  · exact h.rxNext
  · intro j
    exact (hset RxDataWinNode.status hs j).trans (h.status j)
  · intro j
    exact (hset RxDataWinNode.time ht j).trans (h.time j)
  · intro j
    exact (hset RxDataWinNode.timeOut hto j).trans (h.timeOut j)

theorem SameClocks.waits {w w' : RxDataWin} (h : SameClocks w w') (hw : w.Waits t) : w'.Waits t := by
  have hspan : w'.span = w.span := by rw [RxDataWin.span, RxDataWin.span, h.rxBegin, h.rxNext]
  constructor
  · intro k hk
    rw [hspan] at hk
    rw [RxDataWin.slot, h.rxBegin, h.status, h.time]
    exact hw.stamp k hk
  · intro k hk h0
    rw [hspan] at hk
    rw [RxDataWin.slot, h.rxBegin, h.timeOut]
    exact hw.ticking k hk h0

theorem sameClocks_changeFlowIdFrom {w : RxDataWin} (h : SameClocks w u.rxDataWin) (f cnt i : ℕ) :
    SameClocks w (changeFlowIdFrom f cnt i u).rxDataWin := by
  induction cnt generalizing u i with
  | zero => exact h
  | succ cnt ih =>
    rw [changeFlowIdFrom]
    refine ih ?_ _
    split
    · exact h.setNode rfl rfl rfl
    · exact h

theorem sameClocks_checkAckFrom {w : RxDataWin} (h : SameClocks w u.rxDataWin) (cnt i : ℕ) :
    SameClocks w (checkAckFrom cnt i u).rxDataWin := by
  induction cnt generalizing u i with
  | zero => exact h
  | succ cnt ih =>
    rw [checkAckFrom]
    refine ih ?_ _
    rw [checkAckNode]
    dsimp only
    split
    · exact h
    split
    · exact h.setNode rfl rfl rfl
    · split
      · exact h.setNode rfl rfl rfl
      · exact h.setNode rfl rfl rfl

theorem sameClocks_checkAck (u : UserInfo) : SameClocks u.rxDataWin u.checkAck.rxDataWin := by
  rw [checkAck]
  split
  · have h := sameClocks_checkAckFrom (.refl u.rxDataWin) u.nodeCnt u.rxDataWin.rxBegin
    exact ⟨h.rxBegin, h.rxNext, h.status, h.time, h.timeOut⟩
  · exact .refl _

/-! ### Runs -/

theorem waits_doParseMPData (h : AtRest u T) (htx : TxOk u) (hw : u.rxDataWin.Waits u.time) {m : Msg}
    (hp : u.doParseMPData m = some v) : v.time = u.time ∧ v.rxDataWin.Waits u.time := by
  obtain ⟨s, hs, hcases⟩ := doParseMPData_cases (B := fun _ => True) htx (fun _ _ => trivial) hp
  have hws : s.rxDataWin.Waits u.time := hs.rxDataWin ▸ hw
  rcases hcases with rfl | ⟨-, -, hparse⟩
  · exact ⟨hs.time, hws⟩
  · obtain ⟨as, hS, -⟩ := h.txStep (F := fun _ => True) (fun _ _ => trivial) hs
    rw [← hs.time] at hws ⊢
    exact ⟨(RxStep.parseData hparse).time, waits_parseData hS hws hparse⟩

end UserInfo

/-- What a run promises: the clock does not start anew, and a packet names one of the fragments. -/
def Op.Timely (_ : List Op) (u : UserInfo) : Op → Prop
  | .tick => u.time + 1 < 4294967296
  | .recv m => m.header.fragment < 3
  | _ => True

instance (past : List Op) (u : UserInfo) : DecidablePred (Op.Timely past u)
  | .tick => inferInstanceAs (Decidable (_ < _))
  | .recv _ => inferInstanceAs (Decidable (_ < _))
  | .dataWinTimeOutCheck | .checkAck | .sackPeriodSend | .txWinRetransCheck | .send .. |
    .setFlowValid .. | .clearTxWin _ | .clearSubWin _ | .changeDataWinFlowId _ | .clearDataWin =>
    isTrue trivial

open UserInfo

/-- **One operation.** -/
theorem waits_step {past : List Op} {u v : UserInfo} {T : Tape} {op : Op} (h : u.AtRest T)
    (htx : u.TxOk) (hw : u.rxDataWin.Waits u.time) (hop : op.Timely past u)
    (hs : op.step u = some v) : v.rxDataWin.Waits v.time := by
  cases op with
  | recv m =>
    obtain ⟨htime, hv⟩ := waits_doParseMPData h htx hw hs
    exact htime ▸ hv
  | tick =>
    cases hs
    have hle : u.time ≤ u32 (u.time + 1) := by
      rw [u32, Nat.mod_eq_of_lt hop]
      exact Nat.le_succ _
    exact hw.later hle
  | dataWinTimeOutCheck => exact (punctual_check h hw hs).1
  | checkAck =>
    cases hs
    rw [(RxStep.checkAck u).time]
    exact (sameClocks_checkAck u).waits hw
  | sackPeriodSend =>
    cases hs
    have hack := AckStep.sackPeriodSend u
    rw [hack.time, hack.rxDataWin]
    exact hw
  | txWinRetransCheck =>
    cases hs
    have hstep := TxStep.txWinRetransCheck (A := fun _ => True) u
    rw [hstep.time, hstep.rxDataWin]
    exact hw
  | send flowId data length =>
    cases hs
    have hown : Own (fun _ => True) u := fun _ _ => trivial
    have hside : TxSide (fun _ => True) (fun _ => True) u
        (u.doSendNewTransData (flowId.map (·.val)) data length).2 :=
      txSide_doSendNewTransData hown _ trivial (fun _ _ _ => trivial) _
    rw [doSendNewTransData_time, hside.rxDataWin]
    exact hw
  | setFlowValid flowId flag =>
    cases hs
    exact hw
  | clearTxWin flowId =>
    cases hs
    have hstep := TxStep.clearTxWin (A := fun _ => True) u flowId
    rw [hstep.time, hstep.rxDataWin]
    exact hw
  | clearSubWin flowId =>
    cases hs
    exact hw
  | changeDataWinFlowId flowId =>
    cases hs
    rw [changeDataWinFlowId, (RxStep.changeFlowIdFrom _ _ _).time]
    exact (sameClocks_changeFlowIdFrom (.refl _) _ _ _).waits hw
  | clearDataWin =>
    obtain ⟨s, -, rfl⟩ := Option.map_eq_some_iff.mp hs
    exact RxDataWin.waits_clear _

/-- **Head-of-line blocking.** In a run whose clock does not start anew, after every check: the
window is empty, or its first slot is incomplete with time left; no incomplete slot has more than 30
ticks left; and no slot that has timed out is still there. -/
theorem punctual_run {u₀ u v : UserInfo} {ops : List Op}
    (h : Guarded Op.step Op.Timely u₀.cleared ops u) (hv : u.dataWinTimeOutCheck = some v) :
    v.Punctual := by
  have hinv : (∃ T, u.AtRest T ∧ u.TxOk) ∧ u.rxDataWin.Waits u.time := by
    refine Guarded.inv (I := fun _ u => (∃ T, u.AtRest T ∧ u.TxOk) ∧ u.rxDataWin.Waits u.time) ?_ ?_ h
    · rintro ops op s s' ⟨⟨T, hT, htx⟩, hw⟩ hop hs
      obtain ⟨T', hT', -, -, htx'⟩ := step_tape (F := fun _ => True) (B := fun _ => True)
        (t := op.label fun m => m.header.dsn) hT (fun _ _ => trivial) htx (op.fits_true s)
        (fun m hm _ _ => by
          subst hm
          exact Nat.mod_eq_of_lt (m.word_lt 2)) hs
      exact ⟨⟨T', hT', htx'⟩, waits_step hT htx hw hop hs⟩
    · exact ⟨⟨_, atRest_cleared u₀, fun _ => ⟨0, 0, TxWin.spans_clear⟩⟩, RxDataWin.waits_clear _⟩
  obtain ⟨⟨T, hT, -⟩, hw⟩ := hinv
  exact (punctual_check hT hw hv).2

/-- The packet between two that arrived is waited for, while its 30 ticks are running. -/
theorem punctual_run_gap :
    ∃ u v, run Op.step [.recv (.packet 0 0 0 0 0 [0]), .recv (.packet 1 0 0 2 2 [0]), .tick]
      UserInfo.ready.cleared = some u ∧ u.dataWinTimeOutCheck = some v ∧ v.Punctual ∧
        v.nodeCnt = 2 := by
  have hcnt : (run Op.step [.recv (.packet 0 0 0 0 0 [0]), .recv (.packet 1 0 0 2 2 [0]), .tick]
      UserInfo.ready.cleared).bind (fun u => u.dataWinTimeOutCheck.map fun v => v.nodeCnt) =
        some 2 := by
    decide +kernel
  obtain ⟨u, hu, hcheck⟩ := Option.bind_eq_some_iff.mp hcnt
  obtain ⟨v, hv, hnodes⟩ := Option.map_eq_some_iff.mp hcheck
  have hmeets : Meets Op.step Op.Timely [] [.recv (.packet 0 0 0 0 0 [0]),
      .recv (.packet 1 0 0 2 2 [0]), .tick] UserInfo.ready.cleared := by
    decide +kernel
  exact ⟨u, v, hu, hv, punctual_run (hmeets.guarded hu) hv, hnodes⟩

end Mpd

end AndroidVendor
