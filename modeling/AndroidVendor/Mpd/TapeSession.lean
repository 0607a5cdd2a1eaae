import AndroidVendor.Mpd.TapeTimers
import AndroidVendor.Mpd.TxRun
import AndroidVendor.Mpd.TxSide

/-!
# The session refines the tape

Every step of the session on the tape: a datagram that arrives is disposed of, the timers let slots
time out, look at them and drop them, a clear empties the window, and everything else leaves the
window alone.

`F` is the set of addresses of the buffers the transmit side was given, `B` the set of accesses
that are made while a header or an acknowledgement is read.

## Main results

* `Op.Moves` — what each operation does to the tape
* `step_tape` — every step of the session is such a move
-/

namespace AndroidVendor

namespace Mpd

open Loop Relation

/-- The accesses `MPD_DoParseMPData` makes before it comes to the data of a datagram. -/
def UserInfo.recvAccesses (u : UserInfo) (m : Msg) : List Access :=
  [.read 0 m.data.length, .read 1 m.data.length] ++
    (if m.header.flag = 0x55 then [.flow m.header.stream] else []) ++
    if u.Rejects m then []
    else
      [2, 3, 4, 5, 6, 7].map (Access.read · m.data.length) ++
        if m.IsAck then
          .sub m.node.mpdHeadLen 12 ::
            if m.HasSack then .read 14 m.data.length :: UserInfo.sackAccesses m else []
        else []

/-- The datagram brings data that gets as far as the data window. -/
def UserInfo.Accepts (u : UserInfo) (m : Msg) : Prop :=
  ¬ u.Rejects m ∧ ¬ m.IsAck ∧ ¬ u.TooLate m

/-- `n` is a slot between `RxBegin` and `RxNext`. -/
def UserInfo.InWindow (u : UserInfo) (n : RxDataWinNode) : Prop :=
  ∃ k < u.nodeCnt, n = u.rxDataWin.win ((u.rxDataWin.rxBegin + k) % 4096)

/-- What the environment of a step promises: data comes in buffers of `F`. And what `B` allows: the
accesses that reading the datagram, or the slots `MPD_CheckAck` looks into, takes, and those of
slots that lose their subflow. -/
def Op.Fits (F : ℕ → Prop) (B : Access → Prop) (u : UserInfo) : Op → Prop
  | .recv m => ∀ a ∈ u.recvAccesses m, B a
  | .checkAck => u.rxDataWin.newData → ∀ n, u.InWindow n → n.status = .receiveComplete →
      n.flag = .unChecked → ∀ m, n.msgPtr 0 = some m → ∀ a ∈ n.checkReads m, SideAction F B a
  | .changeDataWinFlowId flowId => ∀ n, u.InWindow n → n.status ≠ .unReceived →
      n.stream = flowId → B (.flow 3)
  | .send _ data _ => F data.addr ∧ UserInfo.FreshAllocs F u
  | _ => True

/-- What an operation on `u` does to the tape. `t` is the position a packet is stored at that finds
the window looking clear. -/
def Op.Moves (A : Action → Prop) (u : UserInfo) (t : ℕ) : Op → Tape → Tape → Prop
  | .recv m, T, T' => ∃ as, (∀ a ∈ as, A a) ∧
      (T' = (T.emit as).refuse m ∨ (u.Accepts m ∧ ∃ T₁,
        Tape.Arrives A m.node (u.rxDataWin.win (m.header.dsn % 4096)) t (T.emit as) T₁ ∧
        Tape.Steps A T₁ T'))
  | .checkAck, T, T' => ReflTransGen (Tape.Look A) T T' ∧ (u.rxDataWin.newData = false → T' = T)
  | .clearDataWin, T, T' => ∃ T₁, Tape.Steps A T T₁ ∧ T₁.rxBegin = T₁.rxNext ∧
      (T₁.cell T₁.rxNext).Blank ∧ T' = T₁.clear
  | _, T, T' => Tape.Steps A T T'

namespace UserInfo

variable {u u' : UserInfo} {T T' : Tape} {F : ℕ → Prop} {B : Access → Prop}

/-- The receive side is as it was; the log need not be. -/
theorem AtRest.relog (h : AtRest u T) (hd : u'.rxDataWin = u.rxDataWin)
    (hs : u'.rxSubWin = u.rxSubWin) (hv : ∀ i, schdGetFlowValid u' i = schdGetFlowValid u i) :
    AtRest u' { T with out := u'.out } := by
  refine ⟨⟨⟨?_, h.le, h.size, ?_, h.num, h.sub.trans hs.symm, h.valid.trans (funext fun i => (hv i).symm),
    rfl, ?_⟩, ?_, ?_⟩, h.next_blank, h.head_idle⟩
  · rw [hd]
    exact h.begin_eq
  · rw [hd]
    exact h.cell
  · rw [hs]
    exact h.kept
  · rw [hd]
    exact h.next_eq
  · rw [hd]
    exact h.next_cell

theorem AtRest.congr (h : AtRest u T) (hd : u'.rxDataWin = u.rxDataWin)
    (hs : u'.rxSubWin = u.rxSubWin) (hp : u'.schdPara = u.schdPara) (ho : u'.out = u.out) :
    AtRest u' T := by
  have hrelog := h.relog hd hs fun i => by rw [schdGetFlowValid, schdGetFlowValid, hp]
  rwa [ho, ← h.out] at hrelog

/-- The transmit side asks for something. -/
theorem AtRest.txStep (h : AtRest u T) (own : Own F u) (hs : TxStep B u u') :
    ∃ as, AtRest u' (T.emit as) ∧ ∀ a ∈ as, SideAction F B a := by
  obtain ⟨as, has, hA⟩ := hs.out
  refine ⟨as, ?_, fun a ha => (hA a ha).side own⟩
  have hrelog := h.relog hs.rxDataWin hs.rxSubWin hs.valid
  rwa [has, ← h.out] at hrelog

/-- The transmit side asks for something and notes down the acknowledgements it sends. -/
theorem AtRest.txSide (h : AtRest u T) (hs : TxSide F B u u') :
    ∃ T', AtRest u' T' ∧ Tape.Steps (SideAction F B) T T' := by
  obtain ⟨ack, hsub⟩ := hs.sub
  obtain ⟨as, has, hA⟩ := hs.out
  have hsteps : Tape.Steps (SideAction F B) T
      (({ T with sub := fun i => { T.sub i with sentAck := ack i } } : Tape).emit as) :=
    .tail (.single (.acked ack)) (.other hA)
  refine ⟨({ T with sub := fun i => { T.sub i with sentAck := ack i } } : Tape).emit as,
    ⟨⟨⟨?_, h.le, h.size, ?_, h.num, ?_, ?_, ?_, fun i => ?_⟩, ?_, ?_⟩, h.next_blank,
    h.head_idle⟩, hsteps⟩
  · rw [hs.rxDataWin]
    exact h.begin_eq
  · rw [hs.rxDataWin]
    exact h.cell
  · rw [hsub, ← h.sub]
    rfl
  · exact h.valid.trans (funext fun i => (hs.valid i).symm)
  · rw [has, ← h.out]
    rfl
  · rw [hsub]
    obtain ⟨⟨b, n, hr⟩, hd⟩ := h.kept i
    exact ⟨⟨b, n, ⟨hr.begin_eq, hr.next_eq, hr.le, hr.size, hr.num, hr.plain⟩, hr.next_un,
      hr.begin_un⟩, hd⟩
  · rw [hs.rxDataWin]
    exact h.next_eq
  · rw [hs.rxDataWin]
    exact h.next_cell

/-- The receive side leaves the tx windows alone. -/
theorem Own.rxStep (own : Own F u) (hs : RxStep u u') : Own F u' := by
  rintro m ⟨f, i, hm⟩
  rw [hs.txWindow] at hm
  exact own m ⟨f, i, hm⟩

theorem AtRest.inWindow (h : AtRest u T) {q : ℕ} (hq : T.rxBegin ≤ q) (hqn : q < T.rxNext) :
    u.InWindow (T.cell q) := by
  refine ⟨q - T.rxBegin, ?_, ?_⟩
  · rw [h.toRefines.nodeCnt_eq]
    omega
  · rw [h.begin_eq, Nat.mod_add_mod, Nat.add_sub_cancel' hq]
    exact (h.cell q hq hqn).symm

/-! ### A datagram arrives -/

/-- The part of `MPD_DoParseMPData` that a datagram without data has to itself. -/
theorem parseAck_txStep {m : Msg} (htx : TxOk u)
    (hB : ∀ a ∈ Access.sub m.node.mpdHeadLen 12 ::
      if m.HasSack then .read 14 m.data.length :: sackAccesses m else [], B a)
    (hp : u.parseAck m = some u') :
    ∃ v, TxStep B u v ∧ u' = v.emit [.free m] := by
  have hack : m.header.ack < 65536 := m.word_lt 6
  rw [parseAck] at hp
  obtain ⟨v, hv, rfl⟩ := Option.map_eq_some_iff.mp hp
  refine ⟨v, ?_, rfl⟩
  have h₁ : TxStep B u (u.emit [.access (.sub m.node.mpdHeadLen 12)]) := by
    refine TxStep.emit u _ fun a ha => ?_
    rw [List.mem_singleton.mp ha]
    exact hB _ (List.mem_cons_self ..)
  have htx₁ : TxOk (u.emit [.access (.sub m.node.mpdHeadLen 12)]) := fun f => htx f
  split at hv
  · next hsack =>
    rw [if_pos hsack] at hB
    obtain ⟨s, hs, hv⟩ := Option.bind_eq_some_iff.mp hv
    have h₂ : TxStep B (u.emit [.access (.sub m.node.mpdHeadLen 12)])
        ((u.emit [.access (.sub m.node.mpdHeadLen 12)]).emit (m.headReads [14])) := by
      refine TxStep.emit _ _ fun a ha => ?_
      rw [List.mem_singleton.mp ha]
      exact hB _ (by simp)
    have htx₂ : TxOk ((u.emit [.access (.sub m.node.mpdHeadLen 12)]).emit (m.headReads [14])) :=
      fun f => htx f
    obtain ⟨b, n, hsp⟩ := htx₂ m.header.stream
    obtain ⟨s', b', hs', hstep, -⟩ := processACK_spec (A := B) (m.byte 14) hsp hack
    obtain rfl := Option.some.inj (hs'.symm.trans hs)
    obtain ⟨b, n, hsp'⟩ := htx₂.processACK hack hs m.header.stream
    have hsacked := parserSACK_spec (A := B) hsp'
      (fun a ha => hB a (List.mem_cons_of_mem _ (List.mem_cons_of_mem _ ha))) hv
    exact ((h₁.trans h₂).trans hstep).trans hsacked.step
  · obtain ⟨b, n, hsp⟩ := htx₁ m.header.stream
    obtain ⟨v', b', hv', hstep, -⟩ := processACK_spec (A := B) 1 hsp hack
    obtain rfl := Option.some.inj (hv'.symm.trans hv)
    exact h₁.trans hstep

/-- A datagram is freed, or brings data to the data window, after its header and its acknowledgement
were read. -/
theorem doParseMPData_cases (htx : TxOk u) {m : Msg} (hB : ∀ a ∈ u.recvAccesses m, B a)
    (hp : u.doParseMPData m = some u') :
    ∃ s, TxStep B u s ∧ (u' = s.emit [.free m] ∨
      (¬ u.Rejects m ∧ ¬ m.IsAck ∧ s.parseData m = some u')) := by
  have hack : m.header.ack < 65536 := m.word_lt 6
  -- the flag and the byte of bit fields are read, and the table of the subflow
  obtain ⟨u₁, hu₁, h₁⟩ : ∃ u₁, (if m.header.flag = 0x55 then
      (u.emit (m.headReads [0, 1])).emit [.access (.flow m.header.stream)]
      else u.emit (m.headReads [0, 1])) = u₁ ∧ TxStep B u u₁ := by
    refine ⟨_, rfl, ?_⟩
    have hhead : TxStep B u (u.emit (m.headReads [0, 1])) := by
      refine TxStep.emit u _ fun a ha => ?_
      obtain ⟨i, hi, rfl⟩ := List.mem_map.mp ha
      refine hB _ (List.mem_append_left _ (List.mem_append_left _ ?_))
      rcases List.mem_cons.mp hi with rfl | hi
      · exact List.mem_cons_self ..
      · rw [List.mem_singleton.mp hi]
        simp
    split
    · next hflag =>
      refine hhead.trans (TxStep.emit _ _ fun a ha => ?_)
      rw [List.mem_singleton.mp ha]
      refine hB _ (List.mem_append_left _ (List.mem_append_right _ ?_))
      rw [if_pos hflag]
      exact List.mem_cons_self ..
    · exact hhead
  have hrej : u₁.Rejects m ↔ u.Rejects m := by
    rw [Rejects, Rejects, schdGetFlowValid, schdGetFlowValid, h₁.valid]
  rw [doParseMPData] at hp
  simp only [hu₁] at hp
  by_cases hr : u₁.Rejects m
  · rw [if_pos hr] at hp
    cases hp
    exact ⟨u₁, h₁, .inl rfl⟩
  rw [if_neg hr] at hp
  have hr' : ¬ u.Rejects m := fun h => hr (hrej.mpr h)
  -- the sequence numbers are read
  have h₂ : TxStep B u { u₁.emit (m.headReads [2, 3, 4, 5, 6, 7]) with
      lastPackageTime := u32 (u₁.time + 6000) } := by
    have hreads : TxStep B u (u₁.emit (m.headReads [2, 3, 4, 5, 6, 7])) := by
      refine h₁.trans (TxStep.emit _ _ fun a ha => ?_)
      obtain ⟨i, hi, rfl⟩ := List.mem_map.mp ha
      refine hB _ (List.mem_append_right _ ?_)
      rw [if_neg hr']
      exact List.mem_append_left _ (List.mem_map.mpr ⟨i, hi, rfl⟩)
    refine ⟨hreads.rxSubWin, hreads.rxDataWin, hreads.rxDsnErr, hreads.valid, hreads.time,
      hreads.sendSackTime, fun m' hm' => ?_, hreads.out⟩
    obtain ⟨f, i, hm'⟩ := hm'
    exact hreads.holds m' ⟨f, i, hm'⟩
  have htx₂ : TxOk { u₁.emit (m.headReads [2, 3, 4, 5, 6, 7]) with
      lastPackageTime := u32 (u₁.time + 6000) } := by
    have htx₁ : TxOk u₁ := by
      rw [← hu₁]
      split <;> exact htx.congr rfl
    exact fun f => htx₁ f
  split at hp
  · next hisack =>
    have hB₂ : ∀ a ∈ Access.sub m.node.mpdHeadLen 12 ::
        if m.HasSack then .read 14 m.data.length :: sackAccesses m else [], B a := by
      intro a ha
      refine hB a (List.mem_append_right _ ?_)
      rw [if_neg hr', if_pos hisack]
      exact List.mem_append_right _ ha
    obtain ⟨v, hv, rfl⟩ := parseAck_txStep htx₂ hB₂ hp
    exact ⟨v, h₂.trans hv, .inl rfl⟩
  next hisack =>
    obtain ⟨s, hs, hp⟩ := Option.bind_eq_some_iff.mp hp
    obtain ⟨b, n, hsp⟩ := htx₂ m.header.stream
    obtain ⟨s', b', hs', hstep, -⟩ := processACK_spec (A := B) 1 hsp hack
    obtain rfl := Option.some.inj (hs'.symm.trans hs)
    exact ⟨s', h₂.trans hstep, .inr ⟨hr', hisack, hp⟩⟩

/-- **`MPD_DoParseMPData`.** -/
theorem doParseMPData_spec (h : AtRest u T) (own : Own F u) (htx : TxOk u) {m : Msg} {t : ℕ}
    (hB : ∀ a ∈ u.recvAccesses m, B a)
    (ht : u.Accepts m → u.rxDataWin.looksClear → t % 65536 = m.header.dsn)
    (hp : u.doParseMPData m = some u') :
    ∃ T', AtRest u' T' ∧ Op.Moves (SideAction F B) u t (.recv m) T T' ∧ Own F u' := by
  obtain ⟨s, hs, hcases⟩ := doParseMPData_cases htx hB hp
  obtain ⟨as, hT₁, hA⟩ := h.txStep own hs
  have hown : Own F s := fun m' hm' => own m' (hs.holds m' hm')
  rcases hcases with rfl | ⟨hr, hisack, hp⟩
  · have hfree : AtRest (s.emit [.free m]) ((T.emit as).refuse m) :=
      ⟨hT₁.toRefines.emit _, hT₁.next_blank, hT₁.head_idle⟩
    exact ⟨_, hfree, ⟨as, hA, .inl rfl⟩, hown⟩
  · have hlate : s.TooLate m ↔ u.TooLate m := by rw [TooLate, TooLate, hs.rxSubWin]
    obtain ⟨v, T', hv, hT', hmove⟩ := parseData_spec (A := SideAction F B) (t := t) hT₁ trivial m
      (fun hl hc => ht ⟨hr, hisack, fun h => hl (hlate.mpr h)⟩ (hs.rxDataWin ▸ hc))
    obtain rfl := Option.some.inj (hv.symm.trans hp)
    refine ⟨T', hT', ⟨as, hA, ?_⟩, hown.rxStep (RxStep.parseData hv)⟩
    rw [hs.rxDataWin] at hmove
    rcases hmove with ⟨-, hT'⟩ | ⟨hl, T₁, harr, hsteps⟩
    · exact .inl hT'
    · exact .inr ⟨⟨hr, hisack, fun h => hl (hlate.mpr h)⟩, T₁, harr, hsteps⟩

/-- **One step of the session.** -/
theorem step_tape {op : Op} {t : ℕ} (h : AtRest u T) (own : Own F u) (htx : TxOk u)
    (hfit : op.Fits F B u)
    (ht : ∀ m, op = .recv m → u.Accepts m → u.rxDataWin.looksClear → t % 65536 = m.header.dsn)
    (hs : op.step u = some u') :
    ∃ T', AtRest u' T' ∧ op.Moves (SideAction F B) u t T T' ∧ Own F u' ∧ TxOk u' := by
  have htx' : TxOk u' := htx.step hs
  suffices hmove : ∃ T', AtRest u' T' ∧ op.Moves (SideAction F B) u t T T' ∧ Own F u' by
    obtain ⟨T', hT', hm, hown⟩ := hmove
    exact ⟨T', hT', hm, hown, htx'⟩
  cases op with
  | recv m => exact doParseMPData_spec h own htx hfit (ht m rfl) hs
  | tick =>
    cases hs
    exact ⟨T, h.setTime _, .refl, own⟩
  | dataWinTimeOutCheck =>
    obtain ⟨v, T', hv, hT', hsteps⟩ := dataWinTimeOutCheck_spec (A := SideAction F B) h
    obtain rfl := Option.some.inj (hv.symm.trans hs)
    exact ⟨T', hT', hsteps, own.rxStep (RxStep.dataWinTimeOutCheck hv)⟩
  | checkAck =>
    cases hs
    have hA : u.rxDataWin.newData → T.Allows (SideAction F B) T.rxBegin :=
      fun hnew q m hq hqn hc hf hm => hfit hnew (T.cell q) (h.inWindow hq hqn) hc hf m hm
    obtain ⟨T', hT', hlook⟩ := checkAck_spec h hA
    exact ⟨T', hT', hlook, own.rxStep (RxStep.checkAck u)⟩
  | sackPeriodSend =>
    cases hs
    have hside := txSide_sackPeriodSend (B := B) own
    obtain ⟨T', hT', hsteps⟩ := h.txSide hside
    exact ⟨T', hT', hsteps, hside.own⟩
  | txWinRetransCheck =>
    cases hs
    have hside := (TxStep.txWinRetransCheck (A := B) u).side own
    obtain ⟨T', hT', hsteps⟩ := h.txSide hside
    exact ⟨T', hT', hsteps, hside.own⟩
  | send flowId data length =>
    cases hs
    have hside := txSide_doSendNewTransData (B := B) own (flowId.map (·.val)) hfit.1 hfit.2 length
    obtain ⟨T', hT', hsteps⟩ := h.txSide hside
    exact ⟨T', hT', hsteps, hside.own⟩
  | setFlowValid flowId flag =>
    cases hs
    exact ⟨_, h.setFlowValid flowId flag, .single (.flows _), own⟩
  | clearTxWin flowId =>
    cases hs
    have hside := (TxStep.clearTxWin (A := B) u flowId).side own
    obtain ⟨T', hT', hsteps⟩ := h.txSide hside
    exact ⟨T', hT', hsteps, hside.own⟩
  | clearSubWin flowId =>
    cases hs
    exact ⟨_, h.setSub flowId RxSubWin.kept_clear, .single (.sub .clear rfl), own⟩
  | changeDataWinFlowId flowId =>
    cases hs
    obtain ⟨T', hT', hsteps⟩ := changeDataWinFlowId_spec (A := SideAction F B) h
      fun q hq hqn hst hs => hfit (T.cell q) (h.inWindow hq hqn) hst hs
    exact ⟨T', hT', hsteps, own.rxStep (RxStep.changeFlowIdFrom _ _ _)⟩
  | clearDataWin =>
    obtain ⟨v, T₁, hv, hsteps, hempty, hblank, hT'⟩ := clearDataWin_spec (A := SideAction F B) h
    obtain rfl := Option.some.inj (hv.symm.trans hs)
    exact ⟨_, hT', ⟨T₁, hsteps, hempty, hblank, rfl⟩, own.rxStep (RxStep.clearDataWin hv)⟩

end UserInfo

end Mpd

end AndroidVendor
