import AndroidVendor.Mpd.Receive
import AndroidVendor.Mpd.TapeRefinement

/-!
# A packet arrives at the data window

`MPD_DataWinAddNode` on the tape: every packet is disposed of in one of the ways of `Tape.Arrives`,
and the window is in order afterwards. Which way is decided by the position the packet's DSN stands
for: the one that lies less than a turn ahead of `RxBegin`, or, in a window that looks clear, any
position with that DSN.

## Main results

* `dataWinAddNode_spec`, `parseData_spec` — an arrival answers, and what it does to the tape
-/

namespace AndroidVendor

namespace Mpd

open Loop Relation

namespace UserInfo

variable {u u' : UserInfo} {T T' : Tape} {A : Action → Prop}

theorem Refines.emit (h : Refines u T) (as : List Action) : Refines (u.emit as) (T.emit as) where
  begin_eq := h.begin_eq
  le := h.le
  size := h.size
  cell := h.cell
  num := h.num
  sub := h.sub
  valid := h.valid
  out := by rw [Tape.emit, UserInfo.emit, h.out]
  kept := h.kept
  next_eq := h.next_eq
  next_cell := h.next_cell

/-- One slot of the window is rewritten. -/
theorem Refines.setNode (h : Refines u T) {p : ℕ} (hb : T.rxBegin ≤ p) (hn : p ≤ T.rxNext)
    {n : RxDataWinNode} (hd : n.dsn = p % 65536) :
    Refines (u.setRxDataWinNode (p % 4096) n) (T.setCell p n) := by
  have hsize := h.size
  have hcell : ∀ q, T.rxBegin ≤ q → q ≤ T.rxNext →
      Function.update u.rxDataWin.win (p % 4096) n (q % 4096) = (T.setCell p n).cell q := by
    intro q hq hqn
    rw [SerialRing.update_cell hb (by omega) hq (by omega), Tape.setCell_cell, h.cell' hq hqn]
  refine ⟨⟨h.begin_eq, h.le, h.size, fun q hq hqn => hcell q hq hqn.le, fun q hq hqn => ?_, h.sub,
    h.valid, h.out, h.kept⟩, h.next_eq, hcell _ h.le le_rfl⟩
  rw [Tape.setCell_cell]
  split
  · next heq => rw [hd, heq]
  · exact h.num q hq hqn

theorem dataWinPutInNode_win (u : UserInfo) (i : ℕ) (node : MPDNodeInfo) :
    (u.dataWinPutInNode i node).rxDataWin.win i = (u.rxDataWin.win i).put node u.time := by
  rw [UserInfo.dataWinPutInNode]
  dsimp only [UserInfo.setRxDataWinNode, UserInfo.emit]
  split <;> exact Function.update_self _ _ _

theorem Refines.putInNode (h : Refines u T) {p : ℕ} (hb : T.rxBegin ≤ p) (hn : p ≤ T.rxNext)
    {node : MPDNodeInfo} (hd : p % 65536 = node.dsn) :
    Refines (u.dataWinPutInNode (p % 4096) node) (T.put p node u.time) := by
  have hput := (h.emit [.access (.frag node.fragIndex)]).setNode hb hn
    (n := (T.cell p).put node u.time) hd.symm
  rw [← h.cell' hb hn] at hput
  have htape : (T.emit [.access (.frag node.fragIndex)]).setCell p
      ((u.rxDataWin.win (p % 4096)).put node u.time) = T.put p node u.time := by
    rw [h.cell' hb hn, Tape.put]
  rw [htape] at hput
  rw [dataWinPutInNode]
  dsimp only
  split
  · exact ⟨⟨hput.begin_eq, hput.le, hput.size, hput.cell, hput.num, hput.sub, hput.valid, hput.out,
      hput.kept⟩, hput.next_eq, hput.next_cell⟩
  · exact hput

theorem Refines.setRxDsnErr (h : Refines u T) (k : ℕ) : Refines { u with rxDsnErr := k } T :=
  ⟨⟨h.begin_eq, h.le, h.size, h.cell, h.num, h.sub, h.valid, h.out, h.kept⟩, h.next_eq,
    h.next_cell⟩

/-- The clock of the slot at `RxNext` starts to run. -/
theorem AtRest.startClock (h : AtRest u T) (time : ℕ) :
    AtRest (u.setRxDataWinNode u.rxDataWin.rxNext { u.rxDataWin.nextNode with time := time })
        (T.setCell T.rxNext { T.cell T.rxNext with time := time }) ∧
      Tape.Step A T (T.setCell T.rxNext { T.cell T.rxNext with time := time }) := by
  have hle := h.le
  have hsame : (T.cell T.rxNext).Same { T.cell T.rxNext with time := time } :=
    ⟨rfl, rfl, rfl, rfl, rfl, rfl, rfl, Iff.rfl, id, fun _ => rfl, .inl rfl⟩
  have htouch := h.toRefines.setNode hle le_rfl
    (n := { T.cell T.rxNext with time := time }) (h.num _ hle le_rfl)
  have hblank : ({ T.cell T.rxNext with time := time } : RxDataWinNode).Blank :=
    ⟨h.next_blank.status, h.next_blank.timeOut, h.next_blank.fragment, h.next_blank.flag⟩
  rw [h.nextNode_eq, h.next_eq]
  refine ⟨⟨htouch, ?_, ?_⟩, .touch hle le_rfl hsame fun hne => absurd rfl hne⟩
  · rw [Tape.setCell_rxNext, Tape.setCell_cell, if_pos rfl]
    exact hblank
  · exact Tape.setCell_head_idle h.head_idle (fun _ => hblank.not_ready)

/-- One round of the loop that extends the window. -/
theorem extendRound_spec (h : AtRest u T) :
    ∃ u' T', (u.setRxDataWinNode u.rxDataWin.rxNext
        { u.rxDataWin.nextNode with time := u32 (u.time + 30) }).dataWinRxNextMove = some u' ∧
      AtRest u' T' ∧ Tape.Widens A T T' ∧ T'.rxNext = T.rxNext + 1 := by
  obtain ⟨h₁, hstep⟩ := h.startClock (A := A) (u32 (u.time + 30))
  obtain ⟨u', T', hmove, h', hsteps, hnext, -, hcell, hidle, -⟩ :=
    dataWinRxNextMove_spec (A := A) h₁.toRefines (fun _ => h₁.head_idle)
  refine ⟨u', T', hmove, ⟨h', ?_, hidle h₁.head_idle⟩, .head (.step hstep) hsteps, hnext⟩
  rw [hnext, hcell, Tape.grow_cell_next]
  exact .wiped _

/-- Where the loop that extends the window by `k` slots is on its way. -/
def Extending (A : Action → Prop) (T : Tape) (k : ℕ) (s : UserInfo) : Prop :=
  ∃ S, AtRest s S ∧ Tape.Widens A T S ∧ T.rxNext ≤ S.rxNext ∧ S.rxNext ≤ T.rxNext + k

theorem Extending.round {k dsn : ℕ} {s : UserInfo} (h : Extending A T k s) (hk : k ≤ 1999)
    (hdsn : (T.rxNext + k) % 65536 = dsn) (hgo : dsn ≠ s.rxDataWin.nextNode.dsn) :
    ∃ s', (s.setRxDataWinNode s.rxDataWin.rxNext
        { s.rxDataWin.nextNode with time := u32 (s.time + 30) }).dataWinRxNextMove = some s' ∧
      Extending A T k s' ∧
      distanceSN s'.rxDataWin.nextNode.dsn dsn < distanceSN s.rxDataWin.nextNode.dsn dsn := by
  obtain ⟨S, hs, hsteps, hle, hle'⟩ := h
  rw [hs.next_dsn, ← hdsn] at hgo
  have hlt : S.rxNext < T.rxNext + k := by
    refine lt_of_le_of_ne hle' (fun heq => hgo ?_)
    rw [heq]
  obtain ⟨s', S', hround, hs', hsteps', hnext⟩ := extendRound_spec (A := A) hs
  refine ⟨s', hround, ⟨S', hs', hsteps.trans hsteps', by omega, by omega⟩, ?_⟩
  rw [hs.next_dsn, hs'.next_dsn, ← hdsn, hnext, distanceSN_of_le (by omega) (by omega),
    distanceSN_of_le (by omega) (by omega)]
  omega

/-- The loop that extends the window reaches the packet. -/
theorem dataWinExtend_spec (h : AtRest u T) {k dsn : ℕ} (hk : k ≤ 1999)
    (hdsn : (T.rxNext + k) % 65536 = dsn) :
    ∃ u' T', dataWinExtend dsn u = some u' ∧ AtRest u' T' ∧ Tape.Widens A T T' ∧
      T'.rxNext = T.rxNext + k := by
  have hfuel : distanceSN u.rxDataWin.nextNode.dsn dsn ≤ 1999 := by
    rw [h.next_dsn, ← hdsn, distanceSN_of_le (by omega) (by omega)]
    omega
  have hstart : Extending A T k u := ⟨T, h, .refl, le_rfl, by omega⟩
  obtain ⟨u', hloop, ⟨T', h', hsteps, hle, hle'⟩, hend⟩ :=
    whileLoop_total (Extending A T k) (fun s => distanceSN s.rxDataWin.nextNode.dsn dsn)
      (fun s hs hgo => hs.round hk hdsn hgo) hstart hfuel
  refine ⟨u', T', hloop, h', hsteps, ?_⟩
  rw [not_not, h'.next_dsn, ← hdsn] at hend
  exact SerialRing.cell_inj hend.symm (by omega) (by omega)

variable {node : MPDNodeInfo}

/-- A packet is stored at `RxNext`, and the window moves past it. -/
theorem pushNode_spec (h : Refines u T) (hidle : T.rxBegin < T.rxNext → ¬ T.head.Ready)
    (hd : T.rxNext % 65536 = node.dsn) :
    ∃ u' T', (u.dataWinPutInNode u.rxDataWin.rxNext node).dataWinRxNextMove = some u' ∧
      Refines u' T' ∧ Tape.Widens A (T.put T.rxNext node u.time) T' ∧
      T'.rxNext = T.rxNext + 1 ∧ (T'.cell T'.rxNext).Blank ∧
      (T.rxNext + 1 < T.rxBegin + 4096 → T' = (T.put T.rxNext node u.time).grow) := by
  have hle := h.le
  have hput := h.putInNode hle le_rfl hd
  rw [← h.next_eq] at hput
  have hfull : T.rxNext + 1 = T.rxBegin + 4096 → ¬ (T.put T.rxNext node u.time).head.Ready := by
    intro hfull
    rw [Tape.head, Tape.put_rxBegin, Tape.put_cell, if_neg (by omega)]
    exact hidle (by omega)
  obtain ⟨u', T', hmove, h', hsteps, hnext, -, hcell, -, heq⟩ :=
    dataWinRxNextMove_spec (A := A) hput hfull
  refine ⟨u', T', hmove, h', hsteps, hnext, ?_, heq⟩
  rw [hnext, hcell, Tape.grow_cell_next]
  exact .wiped _

theorem AtRest.late (h : AtRest u T) (node : MPDNodeInfo) :
    AtRest (u.dataWinPostOld node) (T.late node) := by
  have hemit := h.toRefines.emit [.post .outOfWindow node.dsn node.msgPtr node.msgLen node.mpdHeadLen]
  have hset := hemit.toReads.setSub node.stream (kept_posted (h.kept node.stream) node.ssn)
  have htape : (T.emit [.post .outOfWindow node.dsn node.msgPtr node.msgLen
      node.mpdHeadLen]).setSub node.stream
      { u.rxSubWin node.stream with dataWinSSN := ssnPlus node.ssn } = T.late node := by
    rw [← h.sub]
    rfl
  rw [htape] at hset
  exact ⟨⟨hset, h.next_eq, h.next_cell⟩, h.next_blank, h.head_idle⟩

theorem AtRest.refuse (h : AtRest u T) (node : MPDNodeInfo) (k : ℕ) :
    AtRest (u.dataWinRefuse node k) (T.refuse node.msgPtr) :=
  ⟨(h.toRefines.emit _).setRxDsnErr k, h.next_blank, h.head_idle⟩

/-- How far it is back to the head from a position less than a turn ahead of it. -/
theorem distance_back {b t : ℕ} (ht : b ≤ t) (ht' : t < b + 65536) :
    distanceSN (t % 65536) (b % 65536) = if t = b then 0 else 65536 - (t - b) := by
  split
  · next heq => rw [heq, distanceSN_of_le le_rfl (by omega), Nat.sub_self]
  · exact distanceSN_of_lt (by omega) (by omega)

theorem AtRest.behind_iff {t : ℕ} (h : AtRest u T) (ht : T.rxBegin ≤ t) (ht' : t < T.rxBegin + 65536) :
    u.rxDataWin.Behind (t % 65536) ↔ T.rxBegin + 32768 < t := by
  rw [RxDataWin.Behind, h.begin_dsn, distance_back ht ht', distanceSN_of_le ht ht']
  split <;> omega

theorem AtRest.beyond_iff {t : ℕ} (h : AtRest u T) (ht : T.rxBegin ≤ t) (ht' : t ≤ T.rxBegin + 32768) :
    u.rxDataWin.Beyond (t % 65536) ↔ T.rxNext ≤ t := by
  have hsize := h.size
  have hle := h.le
  rw [RxDataWin.Beyond, h.next_dsn]
  rcases Nat.lt_trichotomy t T.rxNext with hlt | rfl | hlt
  · rw [distanceSN_of_lt hlt (by omega), distanceSN_of_le hlt.le (by omega)]
    omega
  · simp
  · rw [distanceSN_of_le hlt.le (by omega), distanceSN_of_lt hlt (by omega)]
    omega

/-- The three branches of `MPD_DataWinAddNode`. The DSN of the packet is the residue of one position
less than a turn ahead of `RxBegin`. -/
theorem dataWinPlace_spec (h : AtRest u T) (hc : ¬ T.LooksClear) (hd : node.dsn < 65536)
    (stale : RxDataWinNode) (a : ℕ) :
    ∃ u' taken T', u.dataWinPlace node = some (u', taken) ∧
      Tape.Arrives A node stale a T T' ∧ Refines u' T' ∧ (T'.cell T'.rxNext).Blank ∧
      (taken = false → ¬ T'.head.Ready) := by
  have hsize := h.size
  have hle := h.le
  obtain ⟨t, ht, ht', hmod⟩ := SerialRing.exists_position hd T.rxBegin
  have hbehind : u.rxDataWin.Behind node.dsn ↔ T.rxBegin + 32768 < t :=
    hmod ▸ h.behind_iff ht ht'
  have hbeyond : ¬ u.rxDataWin.Behind node.dsn →
      (u.rxDataWin.Beyond node.dsn ↔ T.rxNext ≤ t) := fun hb =>
    hmod ▸ h.beyond_iff ht (not_lt.mp (mt hbehind.mpr hb))
  rw [dataWinPlace]
  dsimp only
  by_cases hb : u.rxDataWin.Behind node.dsn
  · have hfar := hbehind.mp hb
    rw [if_pos hb]
    split
    · next hnear =>
      rw [h.begin_dsn, ← hmod, distance_back ht ht', if_neg (by omega)] at hnear
      have harr : Tape.Arrives A node stale a T (T.late node) :=
        .late (65536 - (t - T.rxBegin)) hc (by omega) hnear (by omega)
      have h' := h.late node
      exact ⟨_, _, _, rfl, harr, h'.toRefines, h'.next_blank, fun _ => h'.head_idle⟩
    · have h' := h.refuse node (u16 (u.rxDsnErr + 1))
      exact ⟨_, _, _, rfl, .refuse, h'.toRefines, h'.next_blank, fun _ => h'.head_idle⟩
  · rw [if_neg hb]
    by_cases hbd : u.rxDataWin.Beyond node.dsn
    · have hnext := (hbeyond hb).mp hbd
      rw [if_pos hbd, h.next_dsn, ← hmod, distanceSN_of_le hnext (by omega)]
      split
      · have h' := h.refuse node (u16 (u.rxDsnErr + 1))
        exact ⟨_, _, _, rfl, .refuse, h'.toRefines, h'.next_blank, fun _ => h'.head_idle⟩
      · next hnear =>
        have hreach : (T.rxNext + (t - T.rxNext)) % 65536 = t % 65536 := by
          rw [Nat.add_sub_cancel' hnext]
        obtain ⟨u₁, T₁, hext, h₁, hsteps₁, hnext₁⟩ :=
          dataWinExtend_spec (A := A) h (by omega) hreach
        have hd₁ : T₁.rxNext % 65536 = node.dsn := by
          rw [hnext₁, Nat.add_sub_cancel' hnext, hmod]
        obtain ⟨u', T', hpush, h', hsteps', hnext', hblank, -⟩ :=
          pushNode_spec (A := A) h₁.toRefines (fun _ => h₁.head_idle) hd₁
        refine ⟨{ u' with rxDsnErr := 0 }, true, T', ?_, ?_, h'.setRxDsnErr 0, hblank, by simp⟩
        · rw [hext, Option.bind_some, hpush, Option.map_some]
        · exact .extend hc hsteps₁ (by omega) (by omega) hd₁ h₁.next_blank hsteps' hnext'
    · have hlt : t < T.rxNext := by
        by_contra hge
        exact hbd ((hbeyond hb).mpr (by omega))
      have hidx : node.dsn % 4096 = t % 4096 := by omega
      rw [if_neg hbd, hidx, h.cell t ht hlt]
      split
      · have h' := h.refuse node 0
        exact ⟨_, _, _, rfl, .refuse, h'.toRefines, h'.next_blank, fun _ => h'.head_idle⟩
      · next hdup =>
        have hput := (h.toRefines.putInNode ht hlt.le hmod).setRxDsnErr 0
        refine ⟨_, true, _, rfl, .store ht hlt hmod hdup, hput, ?_, by simp⟩
        rw [Tape.put_rxNext, Tape.put_cell, if_neg (by omega)]
        exact h.next_blank

/-- A window that looks clear is empty, at a multiple of 65536. -/
theorem Refines.looksClear_iff (h : Refines u T) :
    u.rxDataWin.looksClear ↔ T.LooksClear := by
  have hsize := h.size
  have hle := h.le
  rw [RxDataWin.looksClear, h.begin_eq, h.next_eq, h.begin_dsn]
  constructor
  · rintro ⟨hb, hn, h0⟩
    exact ⟨by omega, h0⟩
  · rintro ⟨heq, h0⟩
    exact ⟨by omega, by omega, h0⟩

theorem Refines.anchor (h : Refines u T) (node : MPDNodeInfo) {t : ℕ} (ht : t % 65536 = node.dsn) :
    Refines (u.dataWinAnchor node) (T.anchor t node (u.rxDataWin.win (node.dsn % 4096))) := by
  have hidx : node.dsn % 4096 = t % 4096 := by omega
  refine ⟨⟨hidx, le_rfl, ?_, ?_, ?_, h.sub, h.valid, h.out, h.kept⟩, hidx, ?_⟩
  · exact Nat.lt_add_of_pos_right (by omega)
  · intro p hb hn
    exact absurd (hb.trans_lt hn) (lt_irrefl _)
  · intro p hb hn
    have hp : p = t := Nat.le_antisymm hn hb
    subst hp
    simp [Tape.anchor, Tape.setCell, ht]
  · simp [Tape.anchor, Tape.setCell, dataWinAnchor, setRxDataWinNode, setDataWinBegin,
      setDataWinNext, hidx]

/-- In a window that looks clear the packet is stored where it is, whichever position that is. -/
theorem dataWinPlace_anchor (h : Refines u T) (node : MPDNodeInfo) {t : ℕ}
    (ht : t % 65536 = node.dsn) :
    ∃ u', (u.dataWinAnchor node).dataWinPlace node = some (u', true) ∧
      Refines u' (((T.anchor t node (u.rxDataWin.win (node.dsn % 4096))).put t node u.time).grow) := by
  have ha := h.anchor node ht
  obtain ⟨u', T', hpush, h', -, -, -, heq⟩ := pushNode_spec (A := fun _ => True) ha
    (fun hlt => absurd hlt (lt_irrefl _)) ht
  have hroom : t + 1 < t + 4096 := by omega
  have hT' : T' = ((T.anchor t node (u.rxDataWin.win (node.dsn % 4096))).put t node u.time).grow :=
    heq hroom
  have hdist : distanceSN node.dsn node.dsn = 0 := by
    rw [← ht, distanceSN_of_le le_rfl (by omega), Nat.sub_self]
  have hbegin : (u.dataWinAnchor node).rxDataWin.beginNode.dsn = node.dsn :=
    ha.begin_dsn.trans ht
  have hnext : (u.dataWinAnchor node).rxDataWin.nextNode.dsn = node.dsn := ha.next_dsn.trans ht
  have hext : dataWinExtend node.dsn (u.dataWinAnchor node) = some (u.dataWinAnchor node) := by
    refine whileLoop_of_not ?_ _
    rw [hnext]
    exact not_not.mpr rfl
  refine ⟨{ u' with rxDsnErr := 0 }, ?_, hT' ▸ h'.setRxDsnErr 0⟩
  rw [dataWinPlace, if_neg, if_pos, if_neg, hext, Option.bind_some, hpush, Option.map_some]
  · rw [hnext, hdist]
    omega
  · rw [RxDataWin.Beyond, hnext]
  · rw [RxDataWin.Behind, hbegin]
    exact lt_irrefl _

/-- **`MPD_DataWinAddNode`.** The packet is disposed of, and unless it was refused `RxBegin` may
have to move. -/
theorem dataWinAddNode_spec (h : AtRest u T) (hA : A (.exception 0 (-4))) {t : ℕ}
    (hd : node.dsn < 65536) (ht : u.rxDataWin.looksClear → t % 65536 = node.dsn) :
    ∃ u' taken T₁ T', u.dataWinAddNode node = some (u', taken) ∧
      Tape.Arrives A node (u.rxDataWin.win (node.dsn % 4096)) t T T₁ ∧ Tape.Steps A T₁ T' ∧
      Refines u' T' ∧ (T'.cell T'.rxNext).Blank ∧ (taken = false → ¬ T'.head.Ready) := by
  obtain ⟨u₁, taken, T₁, hplace, harr, h₁, hblank, hidle⟩ : ∃ u₁ taken T₁,
      (if u.rxDataWin.looksClear then u.dataWinAnchor node else u).dataWinPlace node =
        some (u₁, taken) ∧
      Tape.Arrives A node (u.rxDataWin.win (node.dsn % 4096)) t T T₁ ∧ Refines u₁ T₁ ∧
      (T₁.cell T₁.rxNext).Blank ∧ (taken = false → ¬ T₁.head.Ready) := by
    by_cases hc : u.rxDataWin.looksClear
    · obtain ⟨u₁, hplace, h₁⟩ := dataWinPlace_anchor h.toRefines node (ht hc)
      rw [if_pos hc]
      refine ⟨u₁, true, _, hplace, .anchor (h.looksClear_iff.mp hc) (ht hc), h₁, ?_, by simp⟩
      rw [Tape.grow_rxNext, Tape.grow_cell_next]
      exact .wiped _
    · rw [if_neg hc]
      exact dataWinPlace_spec h (fun h' => hc (h.looksClear_iff.mpr h')) hd _ t
  have hreport : u.dataWinAddNode node = some (u₁.reportDsnErr, taken) := by
    rw [dataWinAddNode, hplace, Option.map_some]
  by_cases herr : 100 < u₁.rxDsnErr
  · refine ⟨_, taken, T₁, T₁.emit [.exception 0 (-4)], hreport, harr, .single (.other ?_), ?_,
      hblank, hidle⟩
    · intro a ha
      rw [List.mem_singleton.mp ha]
      exact hA
    · rw [reportDsnErr, if_pos herr]
      exact (h₁.emit _).setRxDsnErr 0
  · refine ⟨_, taken, T₁, T₁, hreport, harr, .refl, ?_, hblank, hidle⟩
    rw [reportDsnErr, if_neg herr]
    exact h₁

/-- The sub window of a packet that was taken. -/
theorem Reads.addNode (h : Reads u T) (i : ℕ) {ssn : ℕ} (hs : ssn < 65536) :
    Reads (u.setRxSubWin i ((u.rxSubWin i).addNode ssn))
        (T.setSub i ((u.rxSubWin i).addNode ssn)) ∧
      Tape.Step A T (T.setSub i ((u.rxSubWin i).addNode ssn)) := by
  obtain ⟨w, hw, h', hstep⟩ := h.subStep (A := A) i (.addNode (UInt16.ofNat ssn))
  have hssn : (UInt16.ofNat ssn).toNat = ssn := by
    rw [UInt16.toNat_ofNat']
    exact Nat.mod_eq_of_lt hs
  have hw' : w = (u.rxSubWin i).addNode ssn := by
    rw [← hssn]
    exact (Option.some.inj hw).symm
  exact hw' ▸ ⟨h', hstep⟩

/-- **`MPD_DoParseMPData`, behind the acknowledgement.** -/
theorem parseData_spec (h : AtRest u T) (hA : A (.exception 0 (-4))) (m : Msg) {t : ℕ}
    (ht : ¬ u.TooLate m → u.rxDataWin.looksClear → t % 65536 = m.header.dsn) :
    ∃ u' T', u.parseData m = some u' ∧ AtRest u' T' ∧
      ((u.TooLate m ∧ T' = T.refuse m) ∨ (¬ u.TooLate m ∧ ∃ T₁,
        Tape.Arrives A m.node (u.rxDataWin.win (m.header.dsn % 4096)) t T T₁ ∧
        Tape.Steps A T₁ T')) := by
  rw [parseData]
  split
  · next hlate =>
    have h' : AtRest (u.emit [.free m]) (T.refuse m) :=
      ⟨h.toRefines.emit _, h.next_blank, h.head_idle⟩
    exact ⟨_, _, rfl, h', .inl ⟨hlate, rfl⟩⟩
  · next hlate =>
    have hd : m.node.dsn < 65536 := m.word_lt 2
    obtain ⟨u₁, taken, T₁, T₂, hadd, harr, hsteps, h₂, hblank, hidle⟩ :=
      dataWinAddNode_spec (A := A) (t := t) h hA hd (ht hlate)
    rw [hadd, Option.bind_some]
    dsimp only
    cases taken with
    | false => exact ⟨u₁, T₂, rfl, ⟨h₂, hblank, hidle rfl⟩, .inr ⟨hlate, T₁, harr, hsteps⟩⟩
    | true =>
      obtain ⟨h₃, hstep⟩ := h₂.toReads.addNode (A := A) m.header.stream (m.word_lt 4)
      have hrefines : Refines (u₁.setRxSubWin m.header.stream
          ((u₁.rxSubWin m.header.stream).addNode m.header.ssn))
          (T₂.setSub m.header.stream ((u₁.rxSubWin m.header.stream).addNode m.header.ssn)) :=
        ⟨h₃, h₂.next_eq, h₂.next_cell⟩
      obtain ⟨u', T', hmove, h', hsteps', -⟩ :=
        dataWinRxBeginMove_spec (A := A) hrefines hblank
      refine ⟨u', T', ?_, h', .inr ⟨hlate, T₁, harr, (hsteps.tail hstep).trans hsteps'⟩⟩
      rw [if_pos rfl, hmove]

end UserInfo

end Mpd

end AndroidVendor
