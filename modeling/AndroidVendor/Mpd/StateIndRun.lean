import AndroidVendor.Mpd.Apart
import AndroidVendor.Mpd.DataWinRun
import AndroidVendor.Mpd.Delivery

/-!
# Runs with state indications

What a subflow state indication resets, and what it leaves alone, in any order of indications and
traffic. A packet that waits in the data window remembers the subflow it came on, and writes into
its sub window when it is handed over; `MPD_ChangeDataWinFlowId` makes it forget, and is called when
one subflow is disabled. When multipath as a whole is switched it is not, and the packets that
`MPD_ClearDataWin` hands over write into sub windows that were just cleared.

## Main results

* `UserInfo.Sound.step` — what every step keeps: windows of subflows that are not there are clear, and
  packets in the data window belong to subflows that were not disabled since
* `clearDataWin_dataWinSSN` — what clearing the data window leaves in a clear sub window
* `isolation_run` — when indications reset and isolate, over whole runs
-/

namespace AndroidVendor

namespace Mpd

open Loop Machine Relation

/-- A packet with the SSN and DSN of slot `n` was received on subflow `f`, which was not disabled
since. -/
def ReceivedSince (f : ℕ) (past : List Event) (n : RxDataWinNode) : Prop :=
  ∃ pre m post, past = pre ++ .traffic (.recv m) :: post ∧ m.header.stream = f ∧
    m.header.ssn = n.ssn ∧ m.header.dsn = n.dsn ∧ ∀ e ∈ post, ¬ e.Disables f

theorem ReceivedSince.concat {f : ℕ} {past : List Event} {n : RxDataWinNode} {e : Event}
    (h : ReceivedSince f past n) (he : ¬ e.Disables f) : ReceivedSince f (past ++ [e]) n := by
  obtain ⟨pre, m, post, rfl, hstream, hssn, hdsn, hpost⟩ := h
  refine ⟨pre, m, post ++ [e], by simp, hstream, hssn, hdsn, fun e' he' => ?_⟩
  rcases List.mem_append.mp he' with he' | he'
  · exact hpost e' he'
  · rwa [List.mem_singleton.mp he']

/-- The packet of a slot came on a subflow that was not disabled since, or the slot has lost its
subflow. -/
def Belongs (past : List Event) (_ : ℕ) (n : RxDataWinNode) : Prop :=
  n.status ≠ .unReceived → n.stream ≠ 3 → ReceivedSince n.stream past n

theorem steady_belongs (A : Action → Prop) (past : List Event) :
    Tape.Steady A (Belongs past) where
  same p n n' h hsame _ hst hlost := by
    rw [hsame.status] at hst
    have hstream : n'.stream = n.stream := hsame.stream.resolve_right hlost
    rw [hstream] at hlost ⊢
    have hback := h hst hlost
    rwa [ReceivedSince, ← hsame.ssn, ← hsame.dsn] at hback
  wiped _ _ h := absurd rfl h

theorem belongs_concat {past : List Event} {e : Event} {p : ℕ} {n : RxDataWinNode}
    (h : Belongs past p n) (he : n.status ≠ .unReceived → ¬ e.Disables n.stream) :
    Belongs (past ++ [e]) p n :=
  fun hst hlost => (h hst hlost).concat (he hst)

theorem belongs_put (past : List Event) (m : Msg) (p time : ℕ) (n : RxDataWinNode) :
    Belongs (past ++ [.traffic (.recv m)]) p (n.put m.node time) :=
  fun _ _ => ⟨past, m, [], rfl, rfl, rfl, rfl, fun _ he => absurd he List.not_mem_nil⟩

/-- A packet that arrives is stored as one that has just been received. -/
theorem cells_arrives {A : Action → Prop} {past : List Event} {m : Msg} {stale : RxDataWinNode}
    {t : ℕ} {T T' : Tape} (h : T.Cells (Belongs (past ++ [.traffic (.recv m)])))
    (hs : Tape.Arrives A m.node stale t T T') :
    T'.Cells (Belongs (past ++ [.traffic (.recv m)])) := by
  have hsteady := steady_belongs A (past ++ [.traffic (.recv m)])
  cases hs with
  | late => exact h
  | refuse => exact h
  | store => exact h.put (belongs_put _ _ _ _ _)
  | extend _ hT _ _ _ _ hT' => exact ((h.widens hsteady hT).put (belongs_put _ _ _ _ _)).widens hsteady hT'
  | anchor => exact Tape.Cells.anchor hsteady.wiped (belongs_put _ _ _ _ _)

namespace UserInfo

variable {u u' v : UserInfo} {f g : ℕ} {past : List Event} {T T' : Tape}

/-- The data window is in order, and its packets belong to subflows that were not disabled since
they came. -/
def Tidy (past : List Event) (u : UserInfo) : Prop :=
  (∃ T, AtRest u T ∧ T.Cells (Belongs past)) ∧ TxOk u

theorem Tidy.congr (h : Tidy past u) (hd : v.rxDataWin = u.rxDataWin)
    (hs : v.rxSubWin = u.rxSubWin) (hp : v.schdPara = u.schdPara) (ho : v.out = u.out)
    (ht : v.txWindow = u.txWindow) : Tidy past v := by
  obtain ⟨⟨T, hT, hcells⟩, htx⟩ := h
  exact ⟨⟨T, hT.congr hd hs hp ho, hcells⟩, htx.congr ht⟩

/-- Everything but a datagram. -/
theorem Tidy.quiet (h : Tidy past u) (op : Op) (hrecv : ∀ m, op ≠ .recv m)
    (hs : op.step u = some v) : Tidy past v := by
  obtain ⟨⟨T, hT, hcells⟩, htx⟩ := h
  have hown : Own (fun _ => True) u := fun _ _ => trivial
  obtain ⟨T', hT', hmoves, -, htx'⟩ := step_tape (t := 0) hT hown htx (op.fits_true u)
    (fun m hm => absurd hm (hrecv m)) hs
  refine ⟨⟨T', hT', ?_⟩, htx'⟩
  have hsteady := steady_belongs (SideAction (fun _ => True) fun _ => True) past
  have hkeeps : Tape.Keeps (SideAction (fun _ => True) fun _ => True)
      fun T => T.Cells (Belongs past) :=
    ⟨fun _ _ h hs => h.step hsteady hs, fun _ h _ => h.grow hsteady.wiped⟩
  refine hkeeps.quiet hcells hrecv (fun _ _ hlook => ?_) (fun _ S _ _ _ => ?_) hmoves
  · exact hkeeps.looks (fun S p m hS hb hn _ _ _ _ => hS.early (hS p hb hn.le)) hcells hlook
  · exact Tape.Cells.clear S hsteady.wiped

/-- A datagram. -/
theorem Tidy.recv (h : Tidy past u) {m : Msg} (hs : u.doParseMPData m = some v) :
    Tidy (past ++ [.traffic (.recv m)]) v := by
  obtain ⟨⟨T, hT, hcells⟩, htx⟩ := h
  have hown : Own (fun _ => True) u := fun _ _ => trivial
  obtain ⟨T', hT', hmoves, -, htx'⟩ := step_tape (t := m.header.dsn) hT hown htx
    (Op.fits_true (.recv m) u)
    (fun m' hm' _ _ => by cases hm'; exact Nat.mod_eq_of_lt (m.word_lt 2)) hs
  refine ⟨⟨T', hT', ?_⟩, htx'⟩
  have hsteady := steady_belongs (SideAction (fun _ => True) fun _ => True)
    (past ++ [.traffic (.recv m)])
  have hkeeps : Tape.Keeps (SideAction (fun _ => True) fun _ => True)
      fun T => T.Cells (Belongs (past ++ [.traffic (.recv m)])) :=
    ⟨fun _ _ h hs => h.step hsteady hs, fun _ h _ => h.grow hsteady.wiped⟩
  have hcells' : T.Cells (Belongs (past ++ [.traffic (.recv m)])) :=
    fun p hb hn => belongs_concat (hcells p hb hn) fun _ => not_false
  exact hkeeps.recv hkeeps hcells' (fun _ hS => hS)
    (fun _ _ _ hemit _ harr => cells_arrives hemit harr)
    hmoves

/-- An event that disables nothing a packet came on. -/
theorem Tidy.event (h : Tidy past u) {e : Event} (he : ∀ f, ¬ e.Disables f) :
    Tidy (past ++ [e]) u := by
  obtain ⟨⟨T, hT, hcells⟩, htx⟩ := h
  exact ⟨⟨T, hT, fun p hb hn => belongs_concat (hcells p hb hn) fun _ => he _⟩, htx⟩

theorem Tidy.traffic (h : Tidy past u) {op : Op} (hs : op.step u = some v) :
    Tidy (past ++ [.traffic op]) v := by
  by_cases hop : ∃ m, op = .recv m
  · obtain ⟨m, rfl⟩ := hop
    exact h.recv hs
  · exact (h.quiet op (fun m hm => hop ⟨m, hm⟩) hs).event fun _ => not_false

/-! ### Packets that lose their subflow -/

theorem changeFlowIdFrom_ends (u : UserInfo) (f cnt i : ℕ) :
    (changeFlowIdFrom f cnt i u).rxDataWin.rxBegin = u.rxDataWin.rxBegin ∧
      (changeFlowIdFrom f cnt i u).rxDataWin.rxNext = u.rxDataWin.rxNext := by
  induction cnt generalizing i u with
  | zero => exact ⟨rfl, rfl⟩
  | succ cnt ih =>
    rw [changeFlowIdFrom]
    obtain ⟨hb, hn⟩ := ih (if (u.rxDataWin.win i).status ≠ .unReceived ∧
        (u.rxDataWin.win i).stream = f then
      u.setRxDataWinNode i { u.rxDataWin.win i with stream := 3 } else u) (dataWinPlus i)
    rw [hb, hn]
    split <;> exact ⟨rfl, rfl⟩

/-- The slot holds no packet of subflow `f`. -/
def Rid (f : ℕ) (n : RxDataWinNode) : Prop := n.status ≠ .unReceived → n.stream ≠ f

theorem rid_setStream (h3 : f ≠ 3) (n : RxDataWinNode) : Rid f { n with stream := 3 } :=
  fun _ => h3.symm

theorem changeFlowIdFrom_keeps (h3 : f ≠ 3) {j : ℕ} (h : Rid f (u.rxDataWin.win j)) (cnt i : ℕ) :
    Rid f ((changeFlowIdFrom f cnt i u).rxDataWin.win j) := by
  induction cnt generalizing i u with
  | zero => exact h
  | succ cnt ih =>
    rw [changeFlowIdFrom]
    refine ih ?_ _
    split
    · simp only [setRxDataWinNode, Function.update_apply]
      split
      · exact rid_setStream h3 _
      · exact h
    · exact h

/-- The loop of `MPD_ChangeDataWinFlowId` leaves no packet of the subflow where it has been. -/
theorem changeFlowIdFrom_rid (h3 : f ≠ 3) (cnt p : ℕ) {k : ℕ} (hk : k < cnt) :
    Rid f ((changeFlowIdFrom f cnt (p % 4096) u).rxDataWin.win ((p + k) % 4096)) := by
  induction cnt generalizing p k u with
  | zero => exact absurd hk (Nat.not_lt_zero k)
  | succ cnt ih =>
    rw [changeFlowIdFrom, dataWinPlus_mod]
    cases k with
    | zero =>
      refine changeFlowIdFrom_keeps h3 ?_ _ _
      rw [Nat.add_zero]
      split
      · simp only [setRxDataWinNode, Function.update_self]
        exact rid_setStream h3 _
      · next hnot => exact fun hst hs => hnot ⟨hst, hs⟩
    | succ k =>
      rw [show p + (k + 1) = p + 1 + k by omega]
      exact ih (p + 1) (Nat.lt_of_succ_lt_succ hk)

theorem changeDataWinFlowId_rid (h3 : f ≠ 3) (hT : AtRest (u.changeDataWinFlowId f) T) {p : ℕ}
    (hb : T.rxBegin ≤ p) (hn : p ≤ T.rxNext) : Rid f (T.cell p) := by
  obtain ⟨hbegin, hnext⟩ := changeFlowIdFrom_ends u f u.nodeCnt u.rxDataWin.rxBegin
  have hcnt : (u.changeDataWinFlowId f).nodeCnt = u.nodeCnt := by
    rw [nodeCnt, changeDataWinFlowId, hbegin, hnext, nodeCnt]
  rcases Nat.eq_or_lt_of_le hn with rfl | hlt
  · exact fun hst => absurd hT.next_blank.status hst
  have hbmod : u.rxDataWin.rxBegin = T.rxBegin % 4096 := hbegin.symm.trans hT.begin_eq
  have hk : p - T.rxBegin < u.nodeCnt := by
    rw [← hcnt, hT.toRefines.nodeCnt_eq]
    omega
  have hrid := changeFlowIdFrom_rid (u := u) h3 u.nodeCnt T.rxBegin hk
  rw [Nat.add_sub_cancel' hb, ← hbmod] at hrid
  rw [← hT.cell p hb hlt]
  exact hrid

end UserInfo

/-! ### What clearing the data window writes back -/

/-- A complete packet that came on subflow `f`. -/
def RxDataWinNode.Carries (f : ℕ) (n : RxDataWinNode) : Prop :=
  n.status = .receiveComplete ∧ (n.fragment = 0 ∨ n.fragment = 3) ∧ n.stream = f

instance (f : ℕ) : DecidablePred (RxDataWinNode.Carries f) :=
  fun _ => inferInstanceAs (Decidable (_ ∧ _))

/-- `dataWinSSN` after the packets of `slots` were handed over, `d` before. -/
def ssnLeft (f d : ℕ) (slots : List RxDataWinNode) : ℕ :=
  (slots.filter (RxDataWinNode.Carries f ·)).getLast?.elim d fun n => ssnPlus n.ssn

@[simp] theorem ssnLeft_nil (f d : ℕ) : ssnLeft f d [] = d := rfl

theorem ssnLeft_cons (f d : ℕ) (n : RxDataWinNode) (slots : List RxDataWinNode) :
    ssnLeft f d (n :: slots) = ssnLeft f (if n.Carries f then ssnPlus n.ssn else d) slots := by
  rw [ssnLeft, ssnLeft, List.filter_cons]
  by_cases hn : n.Carries f
  · simp only [hn, decide_true, if_true, List.getLast?_cons]
    cases (slots.filter (RxDataWinNode.Carries f ·)).getLast? <;> rfl
  · simp [hn]

namespace UserInfo

variable {u u' v : UserInfo} {f g : ℕ} {past : List Event} {T T' : Tape}

/-- The slots from `RxBegin` to `RxNext`, oldest first. -/
def heldSlots (u : UserInfo) : List RxDataWinNode :=
  (List.range u.nodeCnt).map fun k => u.rxDataWin.win ((u.rxDataWin.rxBegin + k) % 4096)

theorem heldSlots_congr (h : v.rxDataWin = u.rxDataWin) : v.heldSlots = u.heldSlots := by
  rw [heldSlots, nodeCnt, h]
  rfl

theorem heldSlots_of_empty (h : u.rxDataWin.rxBegin = u.rxDataWin.rxNext) : u.heldSlots = [] := by
  rw [heldSlots, nodeCnt, h, SerialRing.dist_self]
  rfl

theorem heldSlots_cons (hb : u.rxDataWin.rxBegin < 4096) (hn : u.rxDataWin.rxNext < 4096)
    (hne : u.rxDataWin.rxBegin ≠ u.rxDataWin.rxNext) :
    u.heldSlots = u.rxDataWin.beginNode ::
      (u.setDataWinBegin (dataWinPlus u.rxDataWin.rxBegin)).heldSlots := by
  have hcnt : u.nodeCnt =
      (u.setDataWinBegin (dataWinPlus u.rxDataWin.rxBegin)).nodeCnt + 1 := by
    simp only [nodeCnt, setDataWinBegin, dataWinPlus, SerialRing.dist]
    omega
  rw [heldSlots, hcnt, List.range_succ_eq_map, List.map_cons, List.map_map, heldSlots]
  refine congrArg₂ List.cons ?_ (List.map_congr_left fun k _ => ?_)
  · rw [Nat.add_zero, Nat.mod_eq_of_lt hb, RxDataWin.beginNode]
  · simp only [Function.comp_apply, setDataWinBegin, dataWinPlus, Nat.mod_add_mod]
    rw [show u.rxDataWin.rxBegin + 1 + k = u.rxDataWin.rxBegin + (k + 1) by omega]

/-- A clear sub window stays where it is, whatever `dataWinSSN` says. -/
theorem followDataWin_clear {d : ℕ} (hd : d < 65536) :
    ({ dataWinSSN := d } : RxSubWin).followDataWin = some { dataWinSSN := d } := by
  rw [RxSubWin.followDataWin]
  by_cases h0 : d = 0
  · subst h0
    have hstop : ¬ RxSubWin.behindDataWin {} := fun h => h.1 rfl
    have hrest : ¬ (({} : RxSubWin).beginNode.status = .received ∧
        ({} : RxSubWin).rxBegin ≠ ({} : RxSubWin).rxNext) := fun h => h.2 rfl
    rw [if_neg (by decide), RxSubWin.chaseDataWin, whileLoop_of_not hstop, Option.map_some,
      RxSubWin.rxBeginMove, if_neg (by decide), RxSubWin.skipReceived, if_neg hrest]
  · have hahead : distanceSN 0 0 < distanceSN 0 d := by
      simp only [distanceSN, SerialRing.dist]
      omega
    exact if_pos hahead

/-- On its way to clear the data window `w`, the session has a sub window of `f` that is clear but
for `dataWinSSN`, which is going to be `d`. -/
structure WritesBack (w : RxDataWin) (f d : ℕ) (s : UserInfo) : Prop where
  win : s.rxDataWin.win = w.win
  next : s.rxDataWin.rxNext = w.rxNext
  begin_lt : s.rxDataWin.rxBegin < 4096
  valid : schdGetFlowValid s f = true
  sub : ∃ c < 65536, s.rxSubWin f = { dataWinSSN := c } ∧ ssnLeft f c s.heldSlots = d

variable {w : RxDataWin} {d : ℕ} {s t : UserInfo}

theorem WritesBack.headOut (h : WritesBack w f d s) (hn : w.rxNext < 4096)
    (hne : s.rxDataWin.rxBegin ≠ s.rxDataWin.rxNext) : WritesBack w f d s.dataWinHeadOut := by
  obtain ⟨c, hc, hsub, hleft⟩ := h.sub
  have hwin := dataWinHeadOut_rxDataWin s
  have hvalid : schdGetFlowValid s.dataWinHeadOut f = true := by
    rw [schdGetFlowValid, dataWinHeadOut_schdPara]
    exact h.valid
  refine ⟨?_, ?_, ?_, hvalid, if s.rxDataWin.beginNode.Carries f then
    ssnPlus s.rxDataWin.beginNode.ssn else c, ?_, ?_, ?_⟩
  · rw [hwin]
    exact h.win
  · rw [hwin]
    exact h.next
  · rw [hwin]
    exact Nat.mod_lt _ (by decide)
  · split
    · exact Nat.mod_lt _ (by decide)
    · exact hc
  · rw [dataWinHeadOut_rxSubWin]
    by_cases hgo : s.rxDataWin.beginNode.status = .receiveComplete ∧
        (s.rxDataWin.beginNode.fragment = 0 ∨ s.rxDataWin.beginNode.fragment = 3)
    · rw [if_pos hgo, noteDataWinSSN_rxSubWin]
      by_cases hstream : s.rxDataWin.beginNode.stream = f
      · have hcarries : s.rxDataWin.beginNode.Carries f := ⟨hgo.1, hgo.2, hstream⟩
        have hvalid' : (s.schdPara f).isValid = true := h.valid
        rw [if_pos hcarries, hstream, if_pos hvalid', Function.update_self, hsub]
      · have hcarries : ¬ s.rxDataWin.beginNode.Carries f := fun hc => hstream hc.2.2
        rw [if_neg hcarries]
        split
        · rw [Function.update_of_ne (Ne.symm hstream), hsub]
        · exact hsub
    · have hcarries : ¬ s.rxDataWin.beginNode.Carries f := fun hc => hgo ⟨hc.1, hc.2.1⟩
      rw [if_neg hgo, if_neg hcarries, hsub]
  · rw [heldSlots_congr (u := s.setDataWinBegin (dataWinPlus s.rxDataWin.rxBegin)) hwin,
      ← ssnLeft_cons, ← heldSlots_cons h.begin_lt (h.next ▸ hn) hne]
    exact hleft

theorem WritesBack.force (h : WritesBack w f d s) (hn : w.rxNext < 4096)
    (hne : s.rxDataWin.rxBegin ≠ s.rxDataWin.rxNext) : WritesBack w f d s.dataWinForceMove := by
  obtain ⟨c, hc, hsub, hleft⟩ := h.sub
  have hmoved : s.rxDataWin.beginNode.status ≠ .receiveComplete →
      ssnLeft f c (s.setDataWinBegin (dataWinPlus s.rxDataWin.rxBegin)).heldSlots = d := by
    intro hst
    rw [heldSlots_cons h.begin_lt (h.next ▸ hn) hne, ssnLeft_cons,
      if_neg fun hcarries => hst hcarries.1] at hleft
    exact hleft
  have hlt : dataWinPlus s.rxDataWin.rxBegin < 4096 := Nat.mod_lt _ (by decide)
  rw [dataWinForceMove]
  cases hst : s.rxDataWin.beginNode.status with
  | unReceived => exact ⟨h.win, h.next, hlt, h.valid, c, hc, hsub, hmoved (by simp [hst])⟩
  | received => exact ⟨h.win, h.next, hlt, h.valid, c, hc, hsub, hmoved (by simp [hst])⟩
  | receiveComplete => exact h

theorem WritesBack.drive (h : WritesBack w f d s) (hd : s.driveSubWins = some t) :
    WritesBack w f d t := by
  rw [driveSubWins] at hd
  generalize [0, 1, 2] = l at hd
  induction l generalizing s with
  | nil =>
    cases hd
    exact h
  | cons i l ih =>
    rw [List.foldlM_cons] at hd
    obtain ⟨a, ha, hd⟩ := Option.bind_eq_some_iff.mp hd
    refine ih ?_ hd
    split at ha
    · obtain ⟨x, hx, rfl⟩ := Option.map_eq_some_iff.mp ha
      obtain ⟨c, hc, hsub, hleft⟩ := h.sub
      refine ⟨h.win, h.next, h.begin_lt, h.valid, c, hc, ?_, hleft⟩
      simp only [setRxSubWin, Function.update_apply]
      split
      · next heq =>
        rw [← heq, hsub, followDataWin_clear hc] at hx
        exact (Option.some.inj hx).symm
      · exact hsub
    · cases ha
      exact h

theorem WritesBack.round (h : WritesBack w f d s) (hn : w.rxNext < 4096)
    (hidle : ¬ (w.win w.rxNext).Ready) (hne : s.rxDataWin.rxBegin ≠ s.rxDataWin.rxNext)
    (hm : s.dataWinRxBeginMove true = some t) : WritesBack w f d t := by
  obtain ⟨a, ha, hm⟩ := Option.bind_eq_some_iff.mp hm
  refine WritesBack.drive ?_ hm
  refine (whileLoop_inv (WritesBack w f d) (fun b b' hb hready hbody => ?_) (h.force hn hne) ha).1
  cases hbody
  refine hb.headOut hn fun heq => hidle ?_
  -- the slot at `RxNext` is not ready, so the loop has not come that far
  rw [← hb.win, ← hb.next, ← heq]
  exact hready

/-- **What clearing the data window leaves in a clear sub window**: the SSN behind the last packet
of the subflow that was handed over. -/
theorem clearDataWin_dataWinSSN (hT : AtRest u T) (hf : schdGetFlowValid u f = true)
    (hsub : u.rxSubWin f = {}) (hc : u.clearDataWin = some v) :
    v.rxSubWin f = { dataWinSSN := ssnLeft f 0 u.heldSlots } := by
  have hwell := hT.wellFormed
  have hstart : WritesBack u.rxDataWin f (ssnLeft f 0 u.heldSlots) u :=
    ⟨rfl, rfl, hwell.begin_lt, hf, 0, by decide, hsub, rfl⟩
  obtain ⟨a, ha, rfl⟩ := Option.map_eq_some_iff.mp hc
  obtain ⟨hend, hstop⟩ := whileLoop_inv (WritesBack u.rxDataWin f (ssnLeft f 0 u.heldSlots))
    (fun b b' hb hgo hbody => hb.round hwell.next_lt hwell.next_idle hgo hbody) hstart ha
  obtain ⟨c, -, hsub', hleft⟩ := hend.sub
  rw [heldSlots_of_empty (not_not.mp hstop), ssnLeft_nil] at hleft
  rw [← hleft]
  exact hsub'

/-! ### One indication -/

/-- Both windows of subflow `f` are as at the start of a session. -/
def Fresh (u : UserInfo) (f : ℕ) : Prop := u.txWindow f = {} ∧ u.rxSubWin f = {}

theorem Fresh.apart (h : u.Fresh f) (ha : Apart f u v) : v.Fresh f :=
  ⟨ha.txWindow.trans h.1, ha.rxSubWin.trans h.2⟩

/-- What every step keeps. -/
structure Sound (past : List Event) (u : UserInfo) : Prop where
  tidy : Tidy past u
  off : ∀ f, schdGetFlowValid u f = false → u.Fresh f
  bound : ∀ f, 3 ≤ f → schdGetFlowValid u f = false

theorem fresh_cleared (u : UserInfo) (f : ℕ) : ((u.clearTxWin f).clearSubWin f).Fresh f :=
  ⟨by rw [clearSubWin, clearTxWin]; exact Function.update_self _ _ _, Function.update_self _ _ _⟩

/-- `MPD_ClearDataWin` comes to its end, and the counters are back at zero. -/
theorem Tidy.clearDataStream (h : Tidy past u) :
    ∃ s v, u.clearDataWin = some s ∧ u.clearDataStream = some v ∧ Tidy past v ∧
      v.txWindow = s.txWindow ∧ v.rxSubWin = s.rxSubWin ∧ v.schdPara = s.schdPara ∧
      v.rxDataWin = {} ∧ v.txDataSn = 0 := by
  obtain ⟨⟨T, hT, -⟩, -⟩ := id h
  obtain ⟨s, -, hs, -⟩ := clearDataWin_spec (A := fun _ => True) hT
  have hwin : s.rxDataWin = {} := by
    obtain ⟨a, -, rfl⟩ := Option.map_eq_some_iff.mp hs
    rfl
  have htidy : Tidy past s := h.quiet .clearDataWin (fun _ => by simp) hs
  refine ⟨s, { s with txDataSn := 0, rxDsnErr := 0 }, hs, ?_, ?_, rfl, rfl, rfl, hwin, rfl⟩
  · rw [UserInfo.clearDataStream, hs, Option.map_some]
  · exact htidy.congr rfl rfl rfl rfl rfl

theorem Tidy.clearTxWin (h : Tidy past u) (f : Fin 3) : Tidy past (u.clearTxWin f) :=
  h.quiet (.clearTxWin f) (fun _ => by simp) rfl

theorem Tidy.clearSubWin (h : Tidy past u) (f : Fin 3) : Tidy past (u.clearSubWin f) :=
  h.quiet (.clearSubWin f) (fun _ => by simp) rfl

theorem Tidy.setFlowValid (h : Tidy past u) (f : Fin 3) (flag : Bool) :
    Tidy past (u.schdSetFlowValid f flag) :=
  h.quiet (.setFlowValid f flag) (fun _ => by simp) rfl

/-- The indication that disables `f` is past: no packet in the data window belongs to `f`. -/
theorem Tidy.changeDataWinFlowId (h : Tidy past u) (f : Fin 3) {e : Event}
    (he : ∀ g, e.Disables g → g = f) : Tidy (past ++ [e]) (u.changeDataWinFlowId f) := by
  have h3 : (f : ℕ) ≠ 3 := by omega
  obtain ⟨⟨T, hT, hcells⟩, htx⟩ : Tidy past (u.changeDataWinFlowId f) :=
    h.quiet (.changeDataWinFlowId f) (fun _ => by simp) rfl
  refine ⟨⟨T, hT, fun p hb hn => belongs_concat (hcells p hb hn) fun hst hdis => ?_⟩, htx⟩
  exact changeDataWinFlowId_rid h3 hT hb hn hst (he _ hdis)

theorem gone_of_anyFlowValid (hbound : ∀ g, 3 ≤ g → schdGetFlowValid u g = false)
    (hany : u.anyFlowValid = false) (g : ℕ) : schdGetFlowValid u g = false := by
  by_cases hg : g < 3
  · have hall := List.any_eq_false.mp hany g (by simp only [List.mem_cons, List.not_mem_nil]; omega)
    simpa using hall
  · exact hbound g (by omega)

theorem anyFlowValid_eq (hv : ∀ i, schdGetFlowValid v i = schdGetFlowValid u i) :
    v.anyFlowValid = u.anyFlowValid := by
  rw [anyFlowValid, anyFlowValid, funext hv]

/-- **A subflow is shut down.** -/
theorem Tidy.shutDown (h : Tidy past u) (hbound : ∀ g, 3 ≤ g → schdGetFlowValid u g = false)
    (f : Fin 3) (isChange flagOld : Bool) {e : Event}
    (he : ∀ g, e.Disables g → g = f) :
    ∃ v, u.shutDown f isChange flagOld = some v ∧ Tidy (past ++ [e]) v ∧ v.Fresh f ∧
      (∀ g, g ≠ (f : ℕ) → Apart g u v) ∧
      (isChange = true → u.anyFlowValid = false → v.rxDataWin = {} ∧ v.txDataSn = 0) := by
  set s := ((u.clearTxWin f).clearSubWin f).changeDataWinFlowId f with hs
  have htidy : Tidy (past ++ [e]) s :=
    ((h.clearTxWin f).clearSubWin f).changeDataWinFlowId f he
  have happ : ∀ g, g ≠ (f : ℕ) → Apart g u s := fun g hg =>
    (((Apart.refl g u).clearTxWin hg).clearSubWin hg).changeDataWinFlowId
  have hvalid : ∀ i, schdGetFlowValid s i = schdGetFlowValid u i := (happ 3 (by omega)).valid
  have hfresh : s.Fresh f :=
    (fresh_cleared u f).apart ((Apart.refl _ _).changeDataWinFlowId)
  rw [UserInfo.shutDown, ← hs]
  cases isChange with
  | false => exact ⟨s, rfl, htidy, hfresh, happ, fun h => by cases h⟩
  | true =>
    -- the data window is cleared if this was the last subflow
    obtain ⟨t, ht, htidy', hfresh', happ', hclear⟩ : ∃ t,
        (if s.anyFlowValid then some s else s.clearDataStream) = some t ∧ Tidy (past ++ [e]) t ∧
        t.Fresh f ∧ (∀ g, g ≠ (f : ℕ) → Apart g u t) ∧
        (u.anyFlowValid = false → t.rxDataWin = {} ∧ t.txDataSn = 0) := by
      rw [anyFlowValid_eq hvalid]
      cases hany : u.anyFlowValid with
      | true => exact ⟨s, rfl, htidy, hfresh, happ, fun h => by cases h⟩
      | false =>
        obtain ⟨a, v, ha, hv, htv, hw, hsub, hp, hempty, hzero⟩ := htidy.clearDataStream
        have hgone : ∀ g, Apart g s v := fun g =>
          ((Apart.frame ((hvalid g).trans (gone_of_anyFlowValid hbound hany g))).clearDataWin
            (.refl g s) ha).congr hw hsub hp
        exact ⟨v, hv, htv, hfresh.apart (hgone f), fun g hg => (happ g hg).trans (hgone g),
          fun _ => ⟨hempty, hzero⟩⟩
    simp only [if_true]
    rw [ht, Option.map_some]
    cases flagOld with
    | true => exact ⟨t, rfl, htidy', hfresh', happ', fun _ => hclear⟩
    | false =>
      generalize u32 (t.time + 6000) = last
      exact ⟨_, rfl, htidy'.congr rfl rfl rfl rfl rfl, hfresh',
        fun g hg => (happ' g hg).congr rfl rfl rfl, fun _ => hclear⟩

/-- The windows of one subflow on the way through the first loop of `MPD_DoSubFlowStateInd`. -/
theorem clearValidFlow_apart {i : ℕ} (hne : g ≠ i) : Apart g u (u.clearValidFlow i) := by
  rw [clearValidFlow]
  split
  · exact ((Apart.refl g u).clearTxWin hne).clearSubWin hne
  · exact .refl g u

theorem clearValidFlow_valid (u : UserInfo) (i j : ℕ) :
    schdGetFlowValid (u.clearValidFlow i) j = schdGetFlowValid u j :=
  (clearValidFlow_apart (u := u) (Nat.succ_ne_self i)).valid j

theorem clearValidFlow_fresh {i : ℕ} (h : schdGetFlowValid u i = false → u.Fresh i) :
    (u.clearValidFlow i).Fresh i := by
  rw [clearValidFlow]
  split
  · exact fresh_cleared u i
  · next hi => exact h (by simpa using hi)

/-- The subflows that are not visited have to be clear already. -/
theorem foldl_clearValidFlow_fresh (l : List ℕ) (hout : ∀ f, f ∉ l → u.Fresh f)
    (hoff : ∀ f, schdGetFlowValid u f = false → u.Fresh f) (f : ℕ) :
    (l.foldl clearValidFlow u).Fresh f := by
  induction l generalizing u with
  | nil => exact hout f List.not_mem_nil
  | cons i l ih =>
    have hstay : ∀ g, u.Fresh g → (u.clearValidFlow i).Fresh g := by
      intro g hg
      by_cases hne : g = i
      · rw [hne]
        exact clearValidFlow_fresh (hoff i)
      · exact hg.apart (clearValidFlow_apart hne)
    refine ih (fun g hg => ?_) (fun g hg => hstay g (hoff g ((clearValidFlow_valid u i g) ▸ hg)))
    by_cases hne : g = i
    · rw [hne]
      exact clearValidFlow_fresh (hoff i)
    · exact hstay g (hout g (by simp [hne, hg]))

theorem clearValidFlow_rxDataWin (u : UserInfo) (i : ℕ) :
    (u.clearValidFlow i).rxDataWin = u.rxDataWin := by
  rw [clearValidFlow]
  split
  · exact (TxStep.clearTxWin (A := fun _ => True) u i).rxDataWin
  · rfl

theorem Tidy.clearValidFlow (h : Tidy past u) (i : Fin 3) : Tidy past (u.clearValidFlow i) := by
  rw [UserInfo.clearValidFlow]
  split
  · exact (h.clearTxWin i).clearSubWin i
  · exact h

/-- **Multipath as a whole is switched.** Every window is cleared, and then the packets of subflows
that are still there write back. -/
theorem Sound.multipathInd (h : Sound past u) {e : Event} (he : ∀ f, ¬ e.Disables f) :
    ∃ v, u.multipathInd = some v ∧ Sound (past ++ [e]) v ∧ v.rxDataWin = {} ∧ v.txDataSn = 0 ∧
      (∀ f, v.txWindow f = {}) ∧ ∀ f, v.rxSubWin f =
        if schdGetFlowValid u f then { dataWinSSN := ssnLeft f 0 u.heldSlots } else {} := by
  set s := [0, 1, 2].foldl clearValidFlow u with hs
  have hvalid : ∀ i, schdGetFlowValid s i = schdGetFlowValid u i := fun i => by
    simp only [hs, List.foldl_cons, List.foldl_nil, clearValidFlow_valid]
  have hwin : s.rxDataWin = u.rxDataWin := by
    simp only [hs, List.foldl_cons, List.foldl_nil, clearValidFlow_rxDataWin]
  have htidy : Tidy past s := ((h.tidy.clearValidFlow 0).clearValidFlow 1).clearValidFlow 2
  have hfresh : ∀ f, s.Fresh f := by
    refine foldl_clearValidFlow_fresh [0, 1, 2] (fun f hf => h.off f (h.bound f ?_)) h.off
    simp only [List.mem_cons, List.not_mem_nil] at hf
    omega
  obtain ⟨a, v, hclear, hstream, htv, hw, hsub, hp, hempty, hzero⟩ := htidy.clearDataStream
  have htx : ∀ f, v.txWindow f = {} := fun f => by
    rw [hw, (RxStep.clearDataWin hclear).txWindow]
    exact (hfresh f).1
  have hrx : ∀ f, v.rxSubWin f =
      if schdGetFlowValid u f then { dataWinSSN := ssnLeft f 0 u.heldSlots } else {} := by
    intro f
    rw [hsub]
    obtain ⟨⟨T, hT, -⟩, -⟩ := htidy
    cases hf : schdGetFlowValid u f with
    | true =>
      rw [clearDataWin_dataWinSSN hT ((hvalid f).trans hf) (hfresh f).2 hclear,
        heldSlots_congr hwin, if_pos rfl]
    | false =>
      rw [((Apart.frame ((hvalid f).trans hf)).clearDataWin (.refl f s) hclear).rxSubWin, (hfresh f).2]
      rfl
  have hvalid' : ∀ f, schdGetFlowValid v f = schdGetFlowValid u f := fun f => by
    rw [schdGetFlowValid, hp, (RxStep.clearDataWin hclear).schdPara]
    exact hvalid f
  refine ⟨{ v.trafficCtlInit with activeFlowNum := 0 }, ?_, ⟨?_, fun f hf => ⟨htx f, ?_⟩, ?_⟩,
    hempty, hzero, htx, hrx⟩
  · rw [UserInfo.multipathInd, ← hs, hstream, Option.map_some]
  · exact Tidy.congr (htv.event he) rfl rfl rfl rfl rfl
  · have hoff : schdGetFlowValid u f = false := (hvalid' f).symm.trans hf
    refine (hrx f).trans ?_
    rw [hoff]
    rfl
  · exact fun f hf => (hvalid' f).trans (h.bound f hf)

/-- **A subflow is enabled.** -/
theorem Sound.enable (h : Sound past u) (f : Fin 3) {e : Event} (he : ∀ g, ¬ e.Disables g) :
    Sound (past ++ [e]) (u.schdSetFlowValid f true).countActiveFlows := by
  refine ⟨Tidy.congr ((h.tidy.setFlowValid f true).event he) rfl rfl rfl rfl rfl,
    fun g hg => ?_, fun g hg => ?_⟩
  · change schdGetFlowValid (u.schdSetFlowValid f true) g = false at hg
    refine h.off g ?_
    by_cases hne : g = f
    · rw [hne, schdSetFlowValid_self] at hg
      cases hg
    · rwa [schdSetFlowValid_of_ne u true hne] at hg
  · exact (schdSetFlowValid_of_ne u true (by omega)).trans (h.bound g hg)

/-- **A subflow is disabled.** -/
theorem Sound.disable (h : Sound past u) (f : Fin 3) (isChange flagOld : Bool) {e : Event}
    (he : ∀ g, e.Disables g → g = f) :
    ∃ v, ((u.schdSetFlowValid f false).shutDown f isChange flagOld).map countActiveFlows = some v ∧
      Sound (past ++ [e]) v ∧ v.Fresh f ∧
      (∀ g, g ≠ (f : ℕ) → v.txWindow g = u.txWindow g ∧ v.rxSubWin g = u.rxSubWin g) ∧
      (isChange = true → (∀ g, g ≠ (f : ℕ) → schdGetFlowValid u g = false) →
        v.rxDataWin = {} ∧ v.txDataSn = 0) := by
  set s := u.schdSetFlowValid f false with hs
  have hbound : ∀ g, 3 ≤ g → schdGetFlowValid s g = false := fun g hg =>
    (schdSetFlowValid_of_ne u false (by omega)).trans (h.bound g hg)
  obtain ⟨v, hv, htidy, hfresh, happ, hclear⟩ :=
    (h.tidy.setFlowValid f false).shutDown hbound f isChange flagOld he
  have hvalid : ∀ g, schdGetFlowValid v g = schdGetFlowValid s g := (happ 3 (by omega)).valid
  refine ⟨v.countActiveFlows, by rw [hv, Option.map_some],
    ⟨Tidy.congr htidy rfl rfl rfl rfl rfl, fun g hg => ?_,
      fun g hg => (hvalid g).trans (hbound g hg)⟩, hfresh,
    fun g hg => ⟨(happ g hg).txWindow, (happ g hg).rxSubWin⟩, fun hch hall => hclear hch ?_⟩
  · by_cases hne : g = f
    · exact hne ▸ hfresh
    · have hgone : schdGetFlowValid u g = false := by
        rw [← schdSetFlowValid_of_ne u false hne, ← hs, ← hvalid g]
        exact hg
      have hfr := h.off g hgone
      exact ⟨(happ g hne).txWindow.trans hfr.1, (happ g hne).rxSubWin.trans hfr.2⟩
  · refine List.any_eq_false.mpr fun g _ => ?_
    by_cases hne : g = f
    · rw [hne, schdSetFlowValid_self]
      simp
    · rw [schdSetFlowValid_of_ne u false hne, hall g hne]
      simp

/-- The round of the loop of `MPD_DataWinRxBeginMove` that hands over the packet of slot `i`. -/
def deliver (u : UserInfo) (i : ℕ) : UserInfo := (u.setDataWinBegin i).dataWinHeadOut

/-- A packet that is handed over changes the sub window of the subflow it belongs to, if any. -/
theorem Sound.deliver (h : Sound past u) {k : ℕ} (hk : k < u.nodeCnt) :
    (u.deliver ((u.rxDataWin.rxBegin + k) % 4096)).txWindow = u.txWindow ∧
      ∀ f, (u.deliver ((u.rxDataWin.rxBegin + k) % 4096)).rxSubWin f ≠ u.rxSubWin f →
        ReceivedSince f past (u.rxDataWin.win ((u.rxDataWin.rxBegin + k) % 4096)) := by
  set i := (u.rxDataWin.rxBegin + k) % 4096 with hi
  refine ⟨(RxStep.dataWinHeadOut (u.setDataWinBegin i)).txWindow, fun f hne => ?_⟩
  obtain ⟨⟨T, hT, hcells⟩, -⟩ := h.tidy
  have hcell : u.rxDataWin.win i = T.cell (T.rxBegin + k) := by
    rw [hT.toRefines.nodeCnt_eq] at hk
    rw [hi, hT.begin_eq, Nat.mod_add_mod]
    exact hT.cell _ (by omega) (by omega)
  have hbelongs : Belongs past (T.rxBegin + k) (u.rxDataWin.win i) := by
    rw [hT.toRefines.nodeCnt_eq] at hk
    rw [hcell]
    exact hcells _ (by omega) (by omega)
  rw [UserInfo.deliver, dataWinHeadOut_rxSubWin] at hne
  split at hne
  · next hgo =>
    have hst : (u.rxDataWin.win i).status ≠ .unReceived := by
      have hcomplete : (u.rxDataWin.win i).status = .receiveComplete := hgo.1
      rw [hcomplete]
      decide
    rw [noteDataWinSSN_rxSubWin] at hne
    change (if schdGetFlowValid u (u.rxDataWin.win i).stream then Function.update u.rxSubWin
      (u.rxDataWin.win i).stream _ else u.rxSubWin) f ≠ u.rxSubWin f at hne
    split at hne
    · next hvalid =>
      have hf : f = (u.rxDataWin.win i).stream := by
        by_contra hother
        exact hne (Function.update_of_ne hother _ _)
      have h3 : (u.rxDataWin.win i).stream ≠ 3 := by
        intro h3
        rw [h3, h.bound 3 le_rfl] at hvalid
        cases hvalid
      rw [hf]
      exact hbelongs hst h3
    · exact absurd rfl hne
  · exact absurd rfl hne

/-- A new session. -/
def created (u : UserInfo) : UserInfo :=
  { u.cleared with schdPara := fun _ => {}, txDataSn := 0 }

/-- The last packet of subflow `f` that waits in the data window, complete. -/
def lastPacket (u : UserInfo) (f : ℕ) : Option RxDataWinNode :=
  (u.heldSlots.filter (RxDataWinNode.Carries f ·)).getLast?

theorem sound_created (u : UserInfo) : Sound [] u.created where
  tidy := by
    refine ⟨⟨Tape.blank fun _ => false, ?_, fun _ _ _ h => absurd rfl h⟩,
      fun _ => ⟨0, 0, TxWin.spans_clear⟩⟩
    exact atRest_cleared { u with schdPara := fun _ => {}, txDataSn := 0 }
  off _ _ := ⟨rfl, rfl⟩
  bound _ _ := rfl

end UserInfo

open UserInfo

/-- What an indication promises. `t` is the session after event `e`, `s` the session before, `past`
the events before. -/
structure Isolated (past : List Event) (s : UserInfo) (e : Event) (t : UserInfo) : Prop where
  /-- When multipath as a whole is switched, everything is as at the start. -/
  reset : ∀ state, e = .stateInd 0 state →
    (∀ f, t.txWindow f = {} ∧ t.rxSubWin f = {}) ∧ t.rxDataWin = {} ∧ t.txDataSn = 0
  /-- The windows of a subflow that is disabled are as at the start, and those of every other
  subflow as they were. -/
  disabled : ∀ f, e.Disables f → (t.txWindow f = {} ∧ t.rxSubWin f = {}) ∧
    ∀ g, g ≠ f → t.txWindow g = s.txWindow g ∧ t.rxSubWin g = s.rxSubWin g
  /-- A packet of the data window that is handed over changes the windows of a subflow only if it
  was received on it after it was last disabled. -/
  old : ∀ k < t.nodeCnt,
    (t.deliver ((t.rxDataWin.rxBegin + k) % 4096)).txWindow = t.txWindow ∧
      ∀ f, (t.deliver ((t.rxDataWin.rxBegin + k) % 4096)).rxSubWin f ≠ t.rxSubWin f →
        ReceivedSince f (past ++ [e]) (t.rxDataWin.win ((t.rxDataWin.rxBegin + k) % 4096))
  /-- When the last subflow is disabled, the data stream is as at the start. -/
  last : ∀ f, e.Disables f → schdGetFlowValid s f = true →
    (∀ g, g ≠ f → schdGetFlowValid s g = false) → t.rxDataWin = {} ∧ t.txDataSn = 0

/-- The event keeps the promises; an indication is also answered. -/
def Event.Isolates (past : List Event) (s : UserInfo) (e : Event) : Prop :=
  (∀ deviceId state, e = .stateInd deviceId state → ∃ t, e.step s = some t) ∧
    ∀ t, e.step s = some t → Isolated past s e t

/-- Where multipath as a whole is switched, the data window holds no complete packet of a subflow
that is still there, or the last one has SSN 65535, so that 0 is written back. -/
def Event.LeavesNothing (_ : List Event) (s : UserInfo) (e : Event) : Prop :=
  ∀ state, e = .stateInd 0 state → ∀ f, schdGetFlowValid s f = true →
    ∀ n ∈ s.lastPacket f, ssnPlus n.ssn = 0

theorem disables_of_getSubFlowId {deviceId state g : ℕ} {f : Fin 3}
    (hf : getSubFlowId deviceId = some f) (h : (Event.stateInd deviceId state).Disables g) :
    g = f := by
  have hmap := h.2
  rw [hf] at hmap
  exact (Option.some.inj hmap).symm

theorem not_disables_zero (state g : ℕ) : ¬ (Event.stateInd 0 state).Disables g :=
  fun h => by cases h.2

/-- What is written back is the SSN behind the last packet. -/
theorem writtenBack_iff {s : UserInfo} {f : ℕ} :
    ({ dataWinSSN := ssnLeft f 0 s.heldSlots } : RxSubWin) = {} ↔
      ∀ n ∈ s.lastPacket f, ssnPlus n.ssn = 0 := by
  rw [ssnLeft, ← lastPacket]
  cases s.lastPacket f with
  | none => simp
  | some n =>
    constructor
    · intro h m hm
      cases hm
      exact congrArg RxSubWin.dataWinSSN h
    · intro h
      rw [Option.elim_some, h n rfl]

variable {past : List Event} {s t : UserInfo}

/-- **Traffic** promises nothing of its own. -/
theorem traffic_isolated {op : Op} (h : Sound past s)
    (hs : (Event.traffic op).step s = some t) :
    Sound (past ++ [.traffic op]) t ∧ Isolated past s (.traffic op) t := by
  rw [Event.step] at hs
  split at hs
  · next hop =>
    have happ : ∀ f, schdGetFlowValid s f = false → Apart f s t := fun f hf =>
      Apart.traffic h.tidy.2 hf hop hs
    have hvalid : ∀ i, schdGetFlowValid t i = schdGetFlowValid s i :=
      (happ 3 (h.bound 3 le_rfl)).valid
    have hsound : Sound (past ++ [.traffic op]) t :=
      ⟨h.tidy.traffic hs, fun f hf => (h.off f ((hvalid f).symm.trans hf)).apart
        (happ f ((hvalid f).symm.trans hf)), fun f hf => (hvalid f).trans (h.bound f hf)⟩
    have hno : ∀ f, ¬ (Event.traffic op).Disables f := fun _ => not_false
    exact ⟨hsound, ⟨fun _ he => (by cases he), fun f he => absurd he (hno f),
      fun k hk => hsound.deliver hk, fun f he => absurd he (hno f)⟩⟩
  · cases hs

/-- **An indication**: everything is promised but what is written back when multipath as a whole is
switched. -/
theorem stateInd_isolated (h : Sound past s) (deviceId state : ℕ) :
    ∃ t, (Event.stateInd deviceId state).step s = some t ∧
      Sound (past ++ [.stateInd deviceId state]) t ∧
      (Isolated past s (.stateInd deviceId state) t ↔
        Event.LeavesNothing past s (.stateInd deviceId state)) := by
  by_cases h0 : deviceId = 0
  · subst h0
    obtain ⟨t, ht, hsound, hempty, hzero, htx, hrx⟩ :=
      h.multipathInd (not_disables_zero state)
    refine ⟨t, ht, hsound, ?_⟩
    constructor
    · intro hiso state' he f hf
      rw [← writtenBack_iff]
      have hclear := ((hiso.reset state rfl).1 f).2
      rwa [hrx f, hf, if_pos rfl] at hclear
    · intro hnothing
      refine ⟨fun _ _ => ⟨fun f => ⟨htx f, ?_⟩, hempty, hzero⟩,
        fun f he => absurd he (not_disables_zero state f), fun k hk => hsound.deliver hk,
        fun f he => absurd he (not_disables_zero state f)⟩
      rw [hrx f]
      split
      · next hf => exact writtenBack_iff.mpr (hnothing state rfl f hf)
      · rfl
  have hnothing : Event.LeavesNothing past s (.stateInd deviceId state) := fun _ he => by
    cases he
    exact absurd rfl h0
  have hreset : ∀ t : UserInfo, ∀ state', Event.stateInd deviceId state = .stateInd 0 state' →
      (∀ f, t.txWindow f = {} ∧ t.rxSubWin f = {}) ∧ t.rxDataWin = {} ∧ t.txDataSn = 0 :=
    fun _ _ he => by
      cases he
      exact absurd rfl h0
  simp only [Event.step, doSubFlowStateInd, if_neg h0]
  cases hf : getSubFlowId deviceId with
  | none =>
    have hno : ∀ g, ¬ (Event.stateInd deviceId state).Disables g := fun g he => by
      have hmap := he.2
      rw [hf] at hmap
      cases hmap
    have hsound : Sound (past ++ [.stateInd deviceId state]) s :=
      ⟨h.tidy.event hno, h.off, h.bound⟩
    exact ⟨s, rfl, hsound, fun _ => hnothing, fun _ => ⟨hreset s, fun g he => absurd he (hno g),
      fun k hk => hsound.deliver hk, fun g he => absurd he (hno g)⟩⟩
  | some f =>
    by_cases hstate : state = 3
    · have hno : ∀ g, ¬ (Event.stateInd deviceId state).Disables g := fun g he => he.1 hstate
      have hsound := h.enable f hno
      simp only [hstate, decide_true, if_true] at hsound ⊢
      rw [hstate] at hnothing hreset hno
      exact ⟨_, rfl, hsound, fun _ => hnothing, fun _ => ⟨hreset _, fun g he => absurd he (hno g),
        fun k hk => hsound.deliver hk, fun g he => absurd he (hno g)⟩⟩
    · obtain ⟨t, ht, hsound, hfresh, hoth, hlast⟩ := h.disable f
        (schdGetFlowValid s f != false) s.anyFlowValid
        (fun g he => disables_of_getSubFlowId hf he)
      simp only [hstate, decide_false]
      refine ⟨t, ht, hsound, fun _ => hnothing, fun _ => ⟨hreset t, fun g he => ?_,
        fun k hk => hsound.deliver hk, fun g he hvalid hall => ?_⟩⟩
      · rw [disables_of_getSubFlowId hf he]
        exact ⟨hfresh, hoth⟩
      · rw [disables_of_getSubFlowId hf he] at hvalid hall
        exact hlast (by simp [hvalid]) hall

theorem UserInfo.Sound.step {e : Event} (h : Sound past s) (hs : e.step s = some t) :
    Sound (past ++ [e]) t := by
  cases e with
  | traffic op => exact (traffic_isolated h hs).1
  | stateInd deviceId state =>
    obtain ⟨t', ht', hsound, -⟩ := stateInd_isolated h deviceId state
    exact Option.some.inj (hs.symm.trans ht') ▸ hsound

theorem UserInfo.Sound.isolates_iff (h : Sound past s) (e : Event) :
    e.Isolates past s ↔ e.LeavesNothing past s := by
  cases e with
  | traffic op =>
    constructor
    · intro _ state he
      cases he
    · intro _
      refine ⟨fun _ _ he => ?_, fun t ht => (traffic_isolated h ht).2⟩
      cases he
  | stateInd deviceId state =>
    obtain ⟨t, ht, -, hiff⟩ := stateInd_isolated h deviceId state
    constructor
    · intro hiso
      exact hiff.mp (hiso.2 t ht)
    · intro hnothing
      refine ⟨fun _ _ _ => ⟨t, ht⟩, fun t' ht' => ?_⟩
      rw [← Option.some.inj (ht.symm.trans ht')]
      exact hiff.mpr hnothing

/-- **Reset and isolation.** In a run of indications and traffic from a new session on, every
indication keeps its promises exactly if none that switches multipath as a whole finds a complete
packet of a subflow that is still there (with an SSN other than 65535). -/
theorem isolation_run (u₀ : UserInfo) (events : List Event) :
    Meets Event.step Event.Isolates [] events u₀.created ↔
      Meets Event.step Event.LeavesNothing [] events u₀.created :=
  meets_iff_of_inv (I := Sound) (fun _ _ _ _ h hs => h.step hs)
    (fun _ _ e h => h.isolates_iff e) (sound_created u₀)

/-- Packet 2 waits for packet 1 when multipath as a whole is switched. It is handed over, and leaves
`dataWinSSN` at 3. -/
theorem isolation_writesBack :
    ¬ Meets Event.step Event.Isolates []
      ([.stateInd 1 3, .traffic (.recv (.packet 0 0 0 0 0 [0])),
        .traffic (.recv (.packet 1 0 0 2 2 [0]))] ++ [.stateInd 0 0]) ({} : UserInfo).created := by
  have hleft : (run Event.step ([.stateInd 1 3, .traffic (.recv (.packet 0 0 0 0 0 [0])),
      .traffic (.recv (.packet 1 0 0 2 2 [0]))] ++ [.stateInd 0 0]) ({} : UserInfo).created).map
        (fun t => (t.rxSubWin 0).dataWinSSN) = some 3 := by
    decide +kernel
  obtain ⟨t, ht, hssn⟩ := Option.map_eq_some_iff.mp hleft
  rw [run_concat] at ht
  obtain ⟨s, hs, ht⟩ := Option.bind_eq_some_iff.mp ht
  intro h
  have hclear := ((((Meets.last h hs).2 t ht).reset 0 rfl).1 0).2
  rw [hclear] at hssn
  cases hssn

end Mpd

end AndroidVendor
