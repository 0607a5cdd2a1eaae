import AndroidVendor.Mpd.Link
import AndroidVendor.Mpd.LinkArrival
import AndroidVendor.Mpd.SlotLog

/-!
# A receiver nothing is lost on the way to

Packet after packet arrives on subflow 0, none of them in two parts. Every one is accepted and handed
over at once, and the windows are empty again. After 65536 of them the sub window looks as if it had
been cleared.

## Main results

* `UserInfo.InStep` — the receiver after `k` packets; `InStep.recv` is the next one
* `InStep.recv_last` — the second part of a packet whose first part is lost
-/

namespace AndroidVendor

namespace Mpd

open Loop Machine RxSubWin

/-- The buffer does not matter. -/
theorem Msg.IsNth.moved {m : Msg} {k : ℕ} (hm : m.IsNth k) (addr : ℕ) :
    (⟨addr, m.data⟩ : Msg).IsNth k :=
  ⟨hm.flag, hm.fragment, hm.stream, hm.dsn, hm.ssn, hm.data⟩

/-! ### `sentAck` -/

namespace RxSubWin

variable {w w' : RxSubWin}

theorem skipReceived_sentAck (k : ℕ) (w : RxSubWin) : (skipReceived k w).sentAck = w.sentAck := by
  induction k generalizing w with
  | zero => rfl
  | succ k ih =>
    rw [skipReceived]
    split
    · exact ih _
    · rfl

theorem rxBeginMove_sentAck (w : RxSubWin) (force : Bool) :
    (w.rxBeginMove force).sentAck = w.sentAck := by
  rw [rxBeginMove, skipReceived_sentAck]
  split <;> rfl

theorem rxNextMove_sentAck (w : RxSubWin) : w.rxNextMove.sentAck = w.sentAck := by
  rw [rxNextMove]
  dsimp only [setNode]
  split
  · exact rxBeginMove_sentAck _ _
  · rfl

theorem extendTo_sentAck (ssn k : ℕ) (w : RxSubWin) : (extendTo ssn k w).sentAck = w.sentAck := by
  induction k generalizing w with
  | zero => rfl
  | succ k ih =>
    rw [extendTo]
    split
    · exact (ih _).trans (rxNextMove_sentAck w)
    · rfl

theorem addNode_sentAck (w : RxSubWin) (ssn : ℕ) : (w.addNode ssn).sentAck = w.sentAck := by
  have hplace : ∀ w : RxSubWin, (w.place ssn).sentAck = w.sentAck := by
    intro w
    rw [place]
    dsimp only
    split
    · rfl
    split
    · exact (rxNextMove_sentAck _).trans (extendTo_sentAck ..)
    · rfl
  rw [addNode, rxBeginMove_sentAck, hplace]
  split <;> rfl

theorem followDataWin_sentAck (hf : w.followDataWin = some w') : w'.sentAck = w.sentAck := by
  rw [followDataWin] at hf
  split at hf
  · cases hf
    rfl
  · obtain ⟨v, hv, rfl⟩ := Option.map_eq_some_iff.mp hf
    rw [rxBeginMove_sentAck]
    refine (whileLoop_inv (fun a : RxSubWin => a.sentAck = w.sentAck) (fun a a' ha _ hbody => ?_)
      rfl hv).1
    cases hbody
    exact ha

end RxSubWin

namespace UserInfo

variable {u v : UserInfo} {m : Msg} {T : Tape} {k : ℕ}

/-- The receiver has not reported anything yet, and the time to do so has not come. -/
structure Silent (u : UserInfo) : Prop where
  time : u.time = 0
  sendSackTime : u.sendSackTime = 1
  sentAck : (u.rxSubWin 0).sentAck = 0

theorem Silent.congr (h : u.Silent) (ht : v.time = u.time) (hst : v.sendSackTime = u.sendSackTime)
    (hs : (v.rxSubWin 0).sentAck = (u.rxSubWin 0).sentAck) : v.Silent :=
  ⟨ht.trans h.time, hst.trans h.sendSackTime, hs.trans h.sentAck⟩

theorem Silent.setRxSubWin (h : u.Silent) {i : ℕ} {w : RxSubWin}
    (hw : w.sentAck = (u.rxSubWin i).sentAck) : (u.setRxSubWin i w).Silent := by
  refine h.congr rfl rfl ?_
  simp only [UserInfo.setRxSubWin, Function.update_apply]
  split
  · next heq => rw [hw, heq]
  · rfl

theorem Silent.frame : RxFrame (fun _ => True) Silent where
  congr u v h hv := h.congr hv.time hv.sendSackTime (by rw [hv.rxSubWin])
  flow _ _ _ _ := trivial
  posted _ _ _ h _ := h.setRxSubWin rfl
  drive _ _ _ h _ hw := h.setRxSubWin (followDataWin_sentAck hw)

theorem Silent.parseData (h : u.Silent) (hp : u.parseData m = some v) : v.Silent := by
  rw [UserInfo.parseData] at hp
  split at hp
  · cases hp
    exact h.congr rfl rfl rfl
  · obtain ⟨r, hr, hp⟩ := Option.bind_eq_some_iff.mp hp
    have h₁ : r.1.Silent := frame.dataWinAddNode h trivial hr
    split at hp
    · exact frame.dataWinRxBeginMove (h₁.setRxSubWin (addNode_sentAck _ _)) hp
    · cases hp
      exact h₁

theorem Silent.doParseMPData (h : u.Silent) (htx : u.TxOk) (hp : u.doParseMPData m = some v) :
    v.Silent := by
  obtain ⟨s, hs, hcases⟩ := doParseMPData_cases (B := fun _ => True) htx (fun _ _ => trivial) hp
  have h₁ : s.Silent := h.congr hs.time hs.sendSackTime (by rw [hs.rxSubWin])
  rcases hcases with rfl | ⟨-, -, hdata⟩
  · exact h₁.congr rfl rfl rfl
  · exact h₁.parseData hdata

end UserInfo

/-! ### Nothing is merged -/

/-- The packet is not the first part of one. -/
def NoFirst (_ : ℕ) (node : MPDNodeInfo) : Prop :=
  node.fragment ≠ 1 ∧ node.msgPtr.header.fragment = node.fragment

/-- What is handed over arrived in one part. -/
def HandsWhole (a : Action) : Prop := ∀ m ∈ a.buffers, m.header.fragment = 0

theorem handsWhole_of_nil {a : Action} (h : a.buffers = []) : HandsWhole a := by
  intro m hm
  rw [h] at hm
  cases hm

theorem handsWhole_post {site : PostSite} {dsn len off : ℕ} {m : Msg} (h : m.header.fragment = 0) :
    HandsWhole (.post site dsn m len off) := by
  intro m' hm
  rw [List.mem_singleton.mp hm]
  exact h

/-- Without first parts two are never put together. -/
theorem logRules_handsWhole (F : ℕ → Prop) (B : Access → Prop) :
    LogRules (SideAction F B) NoFirst HandsWhole where
  other a ha := by
    refine handsWhole_of_nil ?_
    cases a with
    | post => exact ha.elim
    | postMerged => exact ha.elim
    | _ => rfl
  lost _ _ _ h := h
  free _ := handsWhole_of_nil rfl
  pass p n mem h hc a ha := by
    rcases h.passActions hc mem with ⟨hf, m, -, hq, heq⟩ | ⟨hf, first, second, -, -, hq, -⟩
    · have hwhole : m.header.fragment = 0 := hq.2.trans (by simp [RxDataWinNode.record, hf])
      rw [heq] at ha
      rcases List.mem_append.mp ha with ha | ha
      · split at ha
        · rw [List.mem_singleton.mp ha]
          exact handsWhole_post hwhole
        · cases ha
      · rw [List.mem_singleton.mp ha]
        exact handsWhole_of_nil rfl
    · exact absurd (by simp [RxDataWinNode.record, hf]) hq.1

namespace UserInfo

variable {u v : UserInfo} {m : Msg} {T : Tape} {k : ℕ}

/-- No first part of a packet is waiting, and everything handed over arrived in one part. -/
def Unsplit (u : UserInfo) : Prop := ∃ T, u.AtRest T ∧ LoggedAt NoFirst HandsWhole T

theorem Unsplit.log (h : u.Unsplit) : ∀ a ∈ u.out, HandsWhole a := by
  obtain ⟨T, hT, hlog⟩ := h
  rw [← hT.out]
  exact hlog.log

/-- A packet in one part arrives, or the second part of one that the data window waits for. -/
theorem Unsplit.recv (h : u.Unsplit) (htx : u.TxOk)
    (hm : m.header.fragment = 0 ∨ m.header.fragment = 2 ∧ ¬ u.HandsLate m ∧ u.FreshSlot m)
    (hp : u.doParseMPData m = some v) : v.Unsplit := by
  obtain ⟨T, hT, hlog⟩ := h
  have hown : u.Own fun _ => True := fun _ _ => trivial
  obtain ⟨T', hT', hmoves, -⟩ := doParseMPData_spec (B := fun _ => True) (t := m.header.dsn) hT hown
    htx (fun _ _ => trivial) (fun _ _ => Nat.mod_eq_of_lt (m.word_lt 2)) hp
  have hfragment : m.header.fragment < 3 ∧ m.header.fragment ≠ 1 := by omega
  refine ⟨T', hT', LoggedAt.recv (logRules_handsWhole _ _) hT hlog (fun _ => hfragment.1)
    (fun _ _ _ => ⟨hfragment.2, rfl⟩) (fun _ => handsWhole_of_nil rfl) (fun _ hlate => ?_)
    (fun _ _ _ _ _ _ _ _ _ _ hq => hq) (fun _ hclear h0 => ?_) hmoves⟩
  · rcases hm with h0 | ⟨-, hnot, -⟩
    · exact handsWhole_post h0
    · exact absurd hlate hnot
  · rcases hm with h0' | ⟨-, -, hfresh⟩
    · exact absurd h0' h0
    · exact hfresh hclear h0

/-! ### What a packet finds -/

theorem storePacket_offer (u : UserInfo) (m : Msg) :
    u.storePacket m = (u.offerPacket m).map fun r =>
      if r.2 then (r.1.setRxSubWin m.header.stream
        ((r.1.rxSubWin m.header.stream).addNode m.header.ssn), true) else (r.1, false) := by
  rw [storePacket, offerPacket]
  dsimp only
  generalize (if m.header.flag = 0x55 then
    (u.emit (m.headReads [0, 1])).emit [.access (.flow m.header.stream)]
    else u.emit (m.headReads [0, 1])) = u₁
  split
  · rfl
  split
  · cases UserInfo.parseAck _ m <;> rfl
  · rw [Option.map_bind]
    refine congrArg _ (funext fun s => ?_)
    rw [Function.comp_apply]
    split <;> rfl

/-- The sub window an acceptable packet finds. -/
theorem Acceptable.offered (hm : u.Acceptable m) (h : u.AtRest T) (htx : u.TxOk)
    (hlate : ¬ u.TooLate m) :
    ∃ w, u.offered m = some w ∧ Drifts (u.rxSubWin m.header.stream) w := by
  obtain ⟨-, v, -, -, -, -, -, hstore, -⟩ := storePacket_spec h htx hm hlate
  rw [storePacket_offer] at hstore
  obtain ⟨r, hr, htaken⟩ := Option.map_eq_some_iff.mp hstore
  have htrue : r.2 = true := by
    cases hr₂ : r.2 with
    | true => rfl
    | false =>
      rw [hr₂, if_neg (by decide)] at htaken
      cases htaken
  refine ⟨r.1.rxSubWin m.header.stream, ?_, ?_⟩
  · rw [UserInfo.offered, hr, Option.bind_some, if_pos htrue]
  obtain ⟨s, hs, rfl | ⟨-, -, hadd⟩⟩ := offerPacket_cases htx hr
  · cases htrue
  · rw [← hs.rxSubWin]
    exact (drifts_frame s).dataWinAddNode (fun _ => .refl _) trivial hadd m.header.stream

/-! ### In step -/

theorem AllArrived.congr (h : u.AllArrived k) (hd : v.rxDataWin = u.rxDataWin)
    (hs : v.rxSubWin = u.rxSubWin) (hp : v.schdPara = u.schdPara) (hw : v.txWindow = u.txWindow)
    (ho : v.out = u.out) : v.AllArrived k where
  window := by
    obtain ⟨T, hT, hb, hn⟩ := h.window
    exact ⟨T, hT.congr hd hs hp ho, hb, hn⟩
  tx := h.tx.congr hw
  flow := by
    rw [schdGetFlowValid, hp]
    exact h.flow
  sub := by
    rw [hs]
    exact h.sub

/-- The first `k` packets arrived, each in one part, and nothing was reported. -/
structure InStep (u : UserInfo) (k : ℕ) : Prop where
  arrived : u.AllArrived k
  unsplit : u.Unsplit
  silent : u.Silent

theorem inStep_ready : ready.cleared.InStep 0 where
  arrived := allArrived_cleared
  unsplit := ⟨_, atRest_cleared ready, LoggedAt.blank ..⟩
  silent := ⟨rfl, rfl, rfl⟩

theorem InStep.facing (h : u.InStep k) (e : Answers) : (u.facing e).InStep k where
  arrived := h.arrived.congr rfl rfl rfl rfl rfl
  unsplit := by
    obtain ⟨T, hT, hlog⟩ := h.unsplit
    exact ⟨T, hT.congr rfl rfl rfl rfl, hlog⟩
  silent := h.silent.congr rfl rfl rfl

/-- The next packet arrives, at a window that is not behind it. -/
theorem InStep.recv (h : u.InStep k) (hm : m.IsNth k) :
    ∃ v w, u.doParseMPData m = some v ∧ v.InStep (k + 1) ∧ u.offered m = some w ∧
      w.Takes m.header.ssn := by
  obtain ⟨T, hT, -, -⟩ := h.arrived.window
  have hacc : u.Acceptable m := h.arrived.acceptable hm (Nat.zero_le _) (by rw [Nat.add_zero])
  obtain ⟨v, hv, hall⟩ := h.arrived.recv hm
  obtain ⟨w, hw, hdrift⟩ := hacc.offered hT h.arrived.tx (h.arrived.not_tooLate hm)
  rw [hm.stream] at hdrift
  obtain ⟨-, b, hb, hbn, hrests⟩ := hdrift k k h.arrived.sub (hT.kept 0).2
  obtain rfl : b = k := le_antisymm hbn hb
  refine ⟨v, w, hv, ⟨hall, h.unsplit.recv h.arrived.tx (.inl hm.fragment) hv,
    h.silent.doParseMPData h.arrived.tx hv⟩, hw, .inr ?_⟩
  rw [hm.ssn, hrests.begin_ssn]
  exact lt_irrefl _

/-! ### The second part of a packet -/

/-- The datagram is the second part of packet `x`, whose first part has SSN `x`. -/
structure Second (m : Msg) (x : ℕ) : Prop where
  flag : m.header.flag = 0x55
  fragment : m.header.fragment = 2
  stream : m.header.stream = 0
  dsn : m.header.dsn = x % 65536
  ssn : m.header.ssn = (x + 1) % 65536
  data : ¬ m.IsAck

theorem Second.moved {x : ℕ} (hm : Second m x) (addr : ℕ) : Second ⟨addr, m.data⟩ x :=
  ⟨hm.flag, hm.fragment, hm.stream, hm.dsn, hm.ssn, hm.data⟩

theorem AllArrived.acceptable_second (h : u.AllArrived k) (hm : Second m k) : u.Acceptable m := by
  obtain ⟨T, hT, hb, hn⟩ := h.window
  constructor
  · exact hm.flag
  · rw [hm.stream]
    exact h.flow
  · rw [hm.fragment]
    decide
  · exact hm.data
  · intro hin
    obtain ⟨p, hp, hp', -⟩ := (hT.inWindow_iff (m.word_lt 2)).mp hin
    omega
  · rw [hm.stream, hm.ssn, h.sub.begin_ssn, distanceSN_of_le (by omega) (by omega)]
    omega
  · right
    rw [hm.dsn, hT.next_dsn, hn, distanceSN_of_le le_rfl (by omega)]
    omega

/-- After a full turn the second part of a packet arrives and its first part does not. The sub window
looks clear and is moved past both. -/
theorem InStep.recv_last (h : u.InStep 65536) (hm : Second m 65536) :
    ∃ v, u.doParseMPData m = some v ∧ v.Unsplit ∧ v.Silent ∧ v.TxOk ∧
      schdGetFlowValid v 0 = true ∧ Rests (v.rxSubWin 0) 65538 65538 := by
  obtain ⟨T, hT, hb, hn⟩ := h.arrived.window
  have hlate : ¬ u.TooLate m := by
    rintro ⟨-, hssn⟩
    rw [hm.ssn] at hssn
    omega
  have hacc := h.arrived.acceptable_second hm
  obtain ⟨-, s, S, w, -, -, -, hstore, hs, hblank, -, -, -, hdrift, hsub, hvalid⟩ :=
    storePacket_spec hT h.arrived.tx hacc hlate
  rw [hm.stream] at hdrift hsub
  obtain ⟨v, T', hmove, -⟩ := dataWinRxBeginMove_spec (A := fun _ => True) hs hblank
  have hv : u.doParseMPData m = some v := by
    rw [doParseMPData_eq, hstore, Option.bind_some]
    exact hmove
  have hnot : ¬ u.HandsLate m := by
    rintro ⟨-, hbehind, -⟩
    rw [RxDataWin.Behind, hT.begin_dsn, hm.dsn, hb] at hbehind
    exact lt_irrefl _ hbehind
  have hfresh : u.FreshSlot m := by
    rintro - -
    left
    rw [hm.dsn, show 65536 % 65536 % 4096 = T.rxNext % 4096 by omega, hT.next_cell]
    exact hT.next_blank.fragment
  refine ⟨v, hv, h.unsplit.recv h.arrived.tx (.inr ⟨hm.fragment, hnot, hfresh⟩) hv,
    h.silent.doParseMPData h.arrived.tx hv, h.arrived.tx.doParseMPData hv, ?_, ?_⟩
  · rw [schdGetFlowValid, ((RxStep.frame s).dataWinRxBeginMove (.refl s) hmove).schdPara]
    exact (hvalid 0).trans h.arrived.flow
  · obtain ⟨hdw, b, hbb, hbn, hw⟩ := hdrift _ _ h.arrived.sub (hT.kept 0).2
    obtain rfl : b = 65536 := le_antisymm hbn hbb
    have hclear : w.looksClear := ⟨hw.begin_eq, hw.next_eq, hw.begin_ssn⟩
    obtain ⟨hrests, hsame⟩ := addNode_of_looksClear w hclear 65537
    rw [hm.ssn] at hsub
    rw [← hsub] at hrests hsame
    obtain ⟨-, b', hb', hbn', hrests'⟩ :=
      (drifts_frame s).dataWinRxBeginMove (fun i => .refl _) hmove 0 _ _ hrests (hsame ▸ hdw)
    obtain rfl : b' = 65538 := le_antisymm hbn' hb'
    exact hrests'

end UserInfo

end Mpd

end AndroidVendor
