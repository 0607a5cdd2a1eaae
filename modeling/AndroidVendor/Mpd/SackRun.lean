import AndroidVendor.Mpd.SackExact

/-!
# SACKs in the states a session reaches

What a SACK finds: a tx window a run has led to, right after the acknowledgement of the same
datagram. One thing goes wrong there: a packet that the subflow queue refused when it was new is in a
state that no SACK looks for.

## Main results

* `TxKept.step` — what the calls of the transmit side keep, every step of a session keeps
* `sackResends_run` — which missing packets a SACK sends again
-/

namespace AndroidVendor

namespace Mpd

open Loop TxWin UserInfo

namespace UserInfo

variable {u v s : UserInfo} {f b n p : ℕ} {m : Msg}

/-! ### What a session keeps of its tx windows -/

/-- The calls that change a tx window keep `I`, and it speaks about tx windows only. -/
structure TxKept (I : UserInfo → Prop) : Prop where
  congr : ∀ u v, I u → v.txWindow = u.txWindow → I v
  acks : ∀ u v, I u → AckStep u v → I v
  processACK : ∀ u v f ack fs, I u → ack < 65536 → u.processACK f ack fs = some v → I v
  parserSACK : ∀ u v f m ack, I u → u.parserSACK f m ack = some v → I v
  retrans : ∀ u, I u → I u.txWinRetransCheck
  send : ∀ u (flowId : Option (Fin 3)) data length, I u →
    I (u.doSendNewTransData (flowId.map (·.val)) data length).2
  clear : ∀ u f, I u → I (u.clearTxWin f)

variable {I : UserInfo → Prop}

theorem TxKept.parseAck (hI : TxKept I) (h : I u) (hp : u.parseAck m = some v) : I v := by
  have hack : m.header.ack < 65536 := m.word_lt 6
  rw [UserInfo.parseAck] at hp
  obtain ⟨t, ht, rfl⟩ := Option.map_eq_some_iff.mp hp
  refine hI.congr t _ ?_ rfl
  have h₁ : I (u.emit [.access (.sub m.node.mpdHeadLen 12)]) := hI.congr u _ h rfl
  split at ht
  · obtain ⟨s, hs, ht⟩ := Option.bind_eq_some_iff.mp ht
    have h₂ : I ((u.emit [.access (.sub m.node.mpdHeadLen 12)]).emit (m.headReads [14])) :=
      hI.congr _ _ h₁ rfl
    exact hI.parserSACK _ _ _ _ _ (hI.processACK _ _ _ _ _ h₂ hack hs) ht
  · exact hI.processACK _ _ _ _ _ h₁ hack ht

theorem TxKept.doParseMPData (hI : TxKept I) (h : I u) (hp : u.doParseMPData m = some v) : I v := by
  have hack : m.header.ack < 65536 := m.word_lt 6
  rw [UserInfo.doParseMPData] at hp
  dsimp only at hp
  generalize hu₁ : (if m.header.flag = 0x55 then
    (u.emit (m.headReads [0, 1])).emit [.access (.flow m.header.stream)]
    else u.emit (m.headReads [0, 1])) = u₁ at hp
  have h₁ : I u₁ := by
    rw [← hu₁]
    split <;> exact hI.congr u _ h rfl
  split at hp
  · cases hp
    exact hI.congr u₁ _ h₁ rfl
  have h₂ : I { u₁.emit (m.headReads [2, 3, 4, 5, 6, 7]) with
      lastPackageTime := u32 (u₁.time + 6000) } := hI.congr u₁ _ h₁ rfl
  split at hp
  · exact hI.parseAck h₂ hp
  · obtain ⟨s, hs, hp⟩ := Option.bind_eq_some_iff.mp hp
    exact hI.congr s v (hI.processACK _ _ _ _ _ h₂ hack hs) (RxStep.parseData hp).txWindow

/-- Every step of a session. -/
theorem TxKept.step (hI : TxKept I) {op : Op} (h : I u) (hs : op.step u = some v) : I v := by
  cases op with
  | recv m => exact hI.doParseMPData h hs
  | tick => cases hs; exact hI.congr u _ h rfl
  | dataWinTimeOutCheck => exact hI.congr u v h (RxStep.dataWinTimeOutCheck hs).txWindow
  | checkAck => cases hs; exact hI.congr u _ h (RxStep.checkAck u).txWindow
  | sackPeriodSend => cases hs; exact hI.acks u _ h (AckStep.sackPeriodSend u)
  | txWinRetransCheck => cases hs; exact hI.retrans u h
  | send flowId data length => cases hs; exact hI.send u flowId data length h
  | setFlowValid flowId flag => cases hs; exact hI.congr u _ h rfl
  | clearTxWin flowId => cases hs; exact hI.clear u flowId h
  | clearSubWin flowId => cases hs; exact hI.congr u _ h rfl
  | changeDataWinFlowId flowId =>
    cases hs
    exact hI.congr u _ h (RxStep.changeFlowIdFrom _ _ _).txWindow
  | clearDataWin => exact hI.congr u v h (RxStep.clearDataWin hs).txWindow

theorem shapes_kept : TxKept Shapes where
  congr u v h hw f := by
    rw [hw]
    exact h f
  acks u v h hv f := by
    obtain ⟨b, n, hs⟩ := h f
    obtain ⟨t, ht⟩ := hv.windows f
    rw [ht]
    exact ⟨b, n, hs.congr rfl rfl rfl rfl rfl⟩
  processACK u v f ack fs h hack hp := by
    obtain ⟨b, n, hs⟩ := h f
    obtain ⟨as, b', -, hacct, hs'⟩ := processACK_acct hs hack hp
    exact h.of_flow hacct.others ⟨b', n, hs'⟩
  parserSACK u v f m ack h hp := by
    obtain ⟨b, n, hs⟩ := h f
    obtain ⟨as, hacct, hs'⟩ := parserSACK_acct hs hp
    exact h.of_flow hacct.others ⟨b, n, hs'⟩
  retrans u h := by
    obtain ⟨as, hledger⟩ := txWinRetransCheck_ledger h
    exact hledger.shapes
  send u flowId data length h := by
    obtain ⟨as, hledger⟩ := @doSendNewTransData_ledger _ h (flowId.map (·.val))
      (fun f hf => by
        obtain ⟨g, -, rfl⟩ := Option.map_eq_some_iff.mp hf
        exact g.isLt) data length
    exact hledger.shapes
  clear u f h := by
    obtain ⟨b, n, hs⟩ := h f
    obtain ⟨as, hacct, hs'⟩ := clearTxWin_acct hs
    exact h.of_flow hacct.others ⟨0, 0, hs'⟩

theorem shapes_clear (h : ∀ f, u.txWindow f = {}) : Shapes u := by
  intro f
  rw [h f]
  exact ⟨0, 0, shape_clear⟩

/-- A session whose tx windows were clear got to `s` and then took the acknowledgement of a
datagram: the state `MPD_parserSACK` finds. -/
structure Reaches (u₀ : UserInfo) (ops : List Op) (f ack fs : ℕ) (u : UserInfo) : Prop where
  clear : ∀ g, u₀.txWindow g = {}
  run : ∃ s, Machine.run Op.step ops u₀ = some s ∧ s.processACK f ack fs = some u
  ack_lt : ack < 65536

theorem Reaches.shapes {u₀ : UserInfo} {ops : List Op} {ack fs : ℕ} (h : Reaches u₀ ops f ack fs u) :
    Shapes u := by
  obtain ⟨s, hs, hu⟩ := h.run
  have hshapes : Shapes s := Machine.run_inv (fun op s s' hs hstep => shapes_kept.step hs hstep)
    (shapes_clear h.clear) hs
  exact shapes_kept.processACK s u f ack fs hshapes h.ack_lt hu

end UserInfo

/-! ### Packets reported as missing -/

/-- The node at position `x` was handed to its queue again on the way from `u` to `v`: its buffer is
among those handed over, and the node is marked. -/
def SentAgain (u v : UserInfo) (f x : ℕ) (d : Msg) : Prop :=
  d ∈ queued (v.out.drop u.out.length) ∧
    ((v.txWindow f).dataNode (x % 1024)).transState = .sacked

/-- The node was sent again within its retransmission time-out. -/
def DataNode.JustResent (d : DataNode) (time : ℕ) : Prop :=
  d.transState = .sacked ∧ time < d.toRetrans

/-- **Missing packets.** In every state a session reaches, a SACK with `firstSack` set that passes
over an outstanding packet in a gap sends it again, unless that was done a moment ago, exactly if
the packet is not still waiting for the subflow queue to take it for the first time. -/
theorem sackResends_run {u₀ u : UserInfo} {ops : List Op} {f ack fs x : ℕ} {m d : Msg}
    (hu : Reaches u₀ ops f ack fs u) (hf : f < 3) (hfirst : m.byte 14 ≠ 0)
    (hx : x ∈ ((u.txWindow f).sackTrace m).gaps)
    (hd : ((u.txWindow f).dataNode (x % 1024)).pData = some d) :
    ∃ v, u.parserSACK f m ack = some v ∧
      ((SentAgain u v f x d ∨ ((u.txWindow f).dataNode (x % 1024)).JustResent u.time) ↔
        ((u.txWindow f).dataNode (x % 1024)).transState ≠ .waitingSend) := by
  obtain ⟨b, n, hs⟩ := hu.shapes f
  have hspans := hs.toSpans.wellFormed.spans
  have hsound := hs.sound (x % 1024)
  obtain ⟨v, hv, hsweep⟩ := parserSACK_sweep_oldest hspans hf hfirst ack
  rw [← TxWin.sackTrace] at hsweep
  refine ⟨v, hv, ?_⟩
  obtain ⟨as, hout, hhanded, -⟩ := hsweep.out
  obtain ⟨hbx, hxc⟩ := hsweep.passed x (List.mem_append_left _ hx)
  have hle := hsweep.le
  have hsize := hspans.size
  have hnode := hsweep.nodes x hbx (by omega)
  rw [swept, if_pos hx] at hnode
  have hhanded' : queued (v.out.drop u.out.length) = queued as := by rw [hout, List.drop_left]
  rw [SentAgain, hhanded', hhanded, hnode, DataNode.JustResent]
  generalize hn : (u.txWindow f).dataNode (x % 1024) = node at *
  have hdue : node.Due u.time → d ∈ ((u.txWindow f).sackTrace m).gaps.flatMap
      (fun x => ((u.txWindow f).dataNode (x % 1024)).resends u.time) ∧
      (node.missed f u.time).transState = .sacked := by
    intro hdue
    refine ⟨List.mem_flatMap.mpr ⟨x, hx, ?_⟩, ?_⟩
    · rw [hn, DataNode.resends, if_pos hdue, hd]
      exact List.mem_singleton_self d
    · rw [DataNode.missed, if_pos hdue]
  cases hstate : node.transState with
  | dataInit => exact absurd (hsound.none_iff.mp hstate) (by simp [hd])
  | waitingSend =>
    have hnot : ¬ node.Due u.time := by simp [DataNode.Due, hstate]
    rw [DataNode.missed, if_neg hnot, hstate]
    simp
  | waitingAck =>
    refine ⟨fun _ => by simp, fun _ => .inl (hdue (.inl hstate))⟩
  | sacked =>
    refine ⟨fun _ => by simp, fun _ => ?_⟩
    rcases Nat.lt_or_ge u.time node.toRetrans with hlt | hge
    · exact .inr ⟨rfl, hlt⟩
    · exact .inl (hdue (.inr ⟨hstate, hge⟩))

/-- Two packets go out on subflow `f`. -/
def twoPackets (f : Fin 3) : List Op :=
  [.send (some f) ⟨1, List.replicate 12 0⟩ 12, .send (some f) ⟨2, List.replicate 12 0⟩ 12]

/-- A SACK with one block, from 1 to 1. -/
def secondReceived : Msg := ⟨3, List.replicate 12 0 ++ [1, 8, 1, 0, 0, 1, 0, 1]⟩

/-- The first of two packets is missing, and is sent again. -/
theorem sackResends_run_two : ∃ u v d, Reaches {} (twoPackets 0) 0 0 1 u ∧
    u.parserSACK 0 secondReceived 0 = some v ∧ SentAgain u v 0 0 d := by
  have heval : ((Machine.run Op.step (twoPackets 0) {}).bind fun s => s.processACK 0 0 1).map
      (fun u => (((u.txWindow 0).sackTrace secondReceived).gaps,
        ((u.txWindow 0).dataNode 0).pData.isSome, ((u.txWindow 0).dataNode 0).transState)) =
      some ([0], true, .waitingAck) := by decide +kernel
  obtain ⟨u, hu, hproj⟩ := Option.map_eq_some_iff.mp heval
  obtain ⟨s, hs, hack⟩ := Option.bind_eq_some_iff.mp hu
  simp only [Prod.mk.injEq] at hproj
  obtain ⟨hgaps, hdata, hstate⟩ := hproj
  obtain ⟨d, hd⟩ := Option.isSome_iff_exists.mp hdata
  have hreach : Reaches {} (twoPackets 0) 0 0 1 u := ⟨fun _ => rfl, ⟨s, hs, hack⟩, by decide⟩
  obtain ⟨v, hv, hiff⟩ := sackResends_run (x := 0) hreach (m := secondReceived) (by decide)
    (by decide) (by rw [hgaps]; exact List.mem_singleton_self 0) hd
  rw [hstate] at hiff
  rcases hiff.mpr (by decide) with hagain | hjust
  · exact ⟨u, v, d, hreach, hv, hagain⟩
  · exact absurd (hjust.1.symm.trans hstate) (by decide)

/-- The queue refuses the first of two packets. A SACK reports it as missing, and it is not sent
again, although it never was. -/
theorem sackResends_refused : ∃ u v d, Reaches { sends := fun n => n ≠ 0 } (twoPackets 0) 0 0 1 u ∧
    u.parserSACK 0 secondReceived 0 = some v ∧
    0 ∈ ((u.txWindow 0).sackTrace secondReceived).gaps ∧
    ((u.txWindow 0).dataNode 0).pData = some d ∧
    ¬ (SentAgain u v 0 0 d ∨ ((u.txWindow 0).dataNode 0).JustResent u.time) := by
  have heval : ((Machine.run Op.step (twoPackets 0) { sends := fun n => n ≠ 0 }).bind
      fun s => s.processACK 0 0 1).bind (fun u => (u.parserSACK 0 secondReceived 0).map fun v =>
        (((u.txWindow 0).sackTrace secondReceived).gaps,
          ((u.txWindow 0).dataNode 0).pData.isSome, ((u.txWindow 0).dataNode 0).transState,
          ((v.txWindow 0).dataNode 0).transState)) =
      some ([0], true, .waitingSend, .waitingSend) := by decide +kernel
  obtain ⟨u, hu, heval⟩ := Option.bind_eq_some_iff.mp heval
  obtain ⟨v, hv, hproj⟩ := Option.map_eq_some_iff.mp heval
  obtain ⟨s, hs, hack⟩ := Option.bind_eq_some_iff.mp hu
  simp only [Prod.mk.injEq] at hproj
  obtain ⟨hgaps, hdata, hstate, hstate'⟩ := hproj
  obtain ⟨d, hd⟩ := Option.isSome_iff_exists.mp hdata
  refine ⟨u, v, d, ⟨fun _ => rfl, ⟨s, hs, hack⟩, by decide⟩, hv,
    by rw [hgaps]; exact List.mem_singleton_self 0, hd, ?_⟩
  rintro (hagain | hjust)
  · exact absurd (hagain.2.symm.trans hstate') (by decide)
  · exact absurd (hjust.1.symm.trans hstate) (by decide)

end Mpd

end AndroidVendor
