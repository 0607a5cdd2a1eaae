import AndroidVendor.Mpd.Receive
import AndroidVendor.Mpd.TxSend

/-!
# What the transmit side leaves to the receive side

Sending, retransmitting, clearing and acknowledging do not touch the rx data window, and of the sub
windows only the acknowledgement last sent. What they free are the buffers they were given to send.

`F` is the set of addresses of such buffers: `Own F u` says that the tx windows hold no others, and
`SideAction F B` is what may be asked for under it, `B` being the accesses the reading of an
acknowledgement makes.

## Main results

* `TxSide` — the frame, with `txSide_doSendNewTransData`, `TxStep.clearTxWin`,
  `TxStep.txWinRetransCheck`, `txSide_sackPeriodSend` for the operations
-/

namespace AndroidVendor

namespace Mpd

open TxWin

/-- What may be asked for beside handing over received packets. -/
def SideAction (F : ℕ → Prop) (B : Access → Prop) : Action → Prop
  | .free m => F m.addr
  | .freeResend m _ => F m.addr
  | .send .. => True
  | .exception .. => True
  | .access a => B a
  | _ => False

namespace UserInfo

variable {u u' u'' : UserInfo} {f : ℕ} {F : ℕ → Prop} {A B : Access → Prop}

/-- The tx windows hold buffers of `F` only. -/
def Own (F : ℕ → Prop) (u : UserInfo) : Prop := ∀ m, u.TxHolds m → F m.addr

/-- A step of the transmit side, as the receive side sees it. -/
structure TxSide (F : ℕ → Prop) (B : Access → Prop) (u u' : UserInfo) : Prop where
  rxDataWin : u'.rxDataWin = u.rxDataWin
  sub : ∃ ack : ℕ → ℕ, u'.rxSubWin = fun i => { u.rxSubWin i with sentAck := ack i }
  valid : ∀ i, (u'.schdPara i).isValid = (u.schdPara i).isValid
  own : Own F u'
  out : ∃ as, u'.out = u.out ++ as ∧ ∀ a ∈ as, SideAction F B a

theorem TxSide.trans (h : TxSide F B u u') (h' : TxSide F B u' u'') : TxSide F B u u'' where
  rxDataWin := h'.rxDataWin.trans h.rxDataWin
  sub := by
    obtain ⟨ack, hsub⟩ := h.sub
    obtain ⟨ack', hsub'⟩ := h'.sub
    exact ⟨ack', by rw [hsub', hsub]⟩
  valid i := (h'.valid i).trans (h.valid i)
  own := h'.own
  out := by
    obtain ⟨as, has, hA⟩ := h.out
    obtain ⟨as', has', hA'⟩ := h'.out
    refine ⟨as ++ as', by rw [has', has, List.append_assoc], fun a ha => ?_⟩
    exact (List.mem_append.mp ha).elim (hA a) (hA' a)

theorem TxAction.side {a : Action} (h : TxAction B u a) (own : Own F u) : SideAction F B a := by
  cases a with
  | free m => exact own m h
  | freeResend m _ => exact own m h
  | send => exact trivial
  | access => exact h
  | post => exact h.elim
  | postMerged => exact h.elim
  | exception => exact h.elim

/-- A step that makes the tx windows hold nothing new. -/
theorem TxStep.side (h : TxStep B u u') (own : Own F u) : TxSide F B u u' where
  rxDataWin := h.rxDataWin
  sub := ⟨fun i => (u.rxSubWin i).sentAck, h.rxSubWin⟩
  valid := h.valid
  own m hm := own m (h.holds m hm)
  out := by
    obtain ⟨as, has, hA⟩ := h.out
    exact ⟨as, has, fun a ha => (hA a ha).side own⟩

theorem TxSide.refl (own : Own F u) : TxSide F B u u := (TxStep.refl u).side own

/-- Fields that neither side looks at may change. -/
theorem TxSide.congr {v : UserInfo} (h : TxSide F B u u') (hd : v.rxDataWin = u'.rxDataWin)
    (hs : v.rxSubWin = u'.rxSubWin) (hp : v.schdPara = u'.schdPara)
    (hw : v.txWindow = u'.txWindow) (ho : v.out = u'.out) : TxSide F B u v where
  rxDataWin := hd.trans h.rxDataWin
  sub := by
    rw [hs]
    exact h.sub
  valid i := by
    rw [hp]
    exact h.valid i
  own m hm := by
    obtain ⟨g, i, hm⟩ := hm
    rw [hw] at hm
    exact h.own m ⟨g, i, hm⟩
  out := by
    rw [ho]
    exact h.out

/-- An acknowledgement is noted down. -/
theorem TxSide.setSentAck (h : TxSide F B u u') (i ack : ℕ) :
    TxSide F B u (u'.setRxSubWin i { u'.rxSubWin i with sentAck := ack }) where
  rxDataWin := h.rxDataWin
  sub := by
    obtain ⟨acks, hsub⟩ := h.sub
    refine ⟨Function.update acks i ack, ?_⟩
    funext j
    simp only [setRxSubWin, Function.update_apply, hsub]
    split
    · next heq => rw [heq]
    · rfl
  valid := h.valid
  own := h.own
  out := h.out

/-! ### New data -/

/-- A tx window is rewritten and holds one buffer more at most. -/
theorem TxSide.putNode (own : Own F u) {w : TxWin} {data : Msg} (hF : F data.addr)
    (hw : ∀ i m, (w.dataNode i).pData = some m →
      ((u.txWindow f).dataNode i).pData = some m ∨ m = data) :
    TxSide F B u (u.setTxWindow f w) := by
  refine ⟨rfl, ⟨fun i => (u.rxSubWin i).sentAck, rfl⟩, fun _ => rfl, ?_, [], by simp [setTxWindow],
    by simp⟩
  rintro m ⟨g, i, hm⟩
  simp only [UserInfo.setTxWindow, Function.update_apply] at hm
  split at hm
  · rcases hw i m hm with hold | rfl
    · exact own m (txHolds_node hold)
    · exact hF
  · exact own m ⟨g, i, hm⟩

/-- Then a tx window is rewritten without new data. -/
theorem TxStep.andSet (h : TxStep A u u') {w : TxWin}
    (hw : ∀ i, (w.dataNode i).pData = ((u'.txWindow f).dataNode i).pData) :
    TxStep A u (u'.setTxWindow f w) :=
  h.trans (TxStep.setTxWindow u' f fun i _ hm => txHolds_node ((hw i).symm.trans hm))

theorem pData_setNode {w : TxWin} {i : ℕ} {n : DataNode} (hn : n.pData = (w.dataNode i).pData)
    (j : ℕ) : ((w.setNode i n).dataNode j).pData = (w.dataNode j).pData := by
  simp only [setNode, Function.update_apply]
  split
  · next heq => rw [heq, hn]
  · rfl

theorem TxSide.andStep (h : TxSide F B u u') (h' : TxStep B u' u'') : TxSide F B u u'' :=
  h.trans (h'.side h.own)

theorem TxSide.andSet (h : TxSide F B u u') {w : TxWin}
    (hw : ∀ i, (w.dataNode i).pData = ((u'.txWindow f).dataNode i).pData) :
    TxSide F B u (u'.setTxWindow f w) :=
  h.andStep ((TxStep.refl u').andSet hw)

theorem TxStep.txNextInc (u : UserInfo) (f : ℕ) : TxStep A u (u.txNextInc f) := by
  -- both writes stamp a node with an SSN
  have hstamp : ∀ (v : UserInfo) (i : ℕ) (n : DataNode), n.pData = ((v.txWindow f).dataNode i).pData →
      TxStep A u v → TxStep A u (v.setTxWindow f ((v.txWindow f).setNode i n)) :=
    fun v i n hn hv => hv.andSet (pData_setNode hn)
  rw [UserInfo.txNextInc]
  refine hstamp _ _ _ rfl ?_
  have hfirst : TxStep A u (u.setTxWindow f
      { (u.txWindow f).setNode (txPlus (u.txWindow f).pTxNext)
          { (u.txWindow f).dataNode (txPlus (u.txWindow f).pTxNext) with
            ssn := (u.txWindow f).subflowSn } with
        pTxNext := txPlus (u.txWindow f).pTxNext }) :=
    (TxStep.refl u).andSet (pData_setNode rfl)
  split
  · exact hfirst.trans (.release _ f)
  · exact hfirst

theorem TxStep.callMPCToSend (u : UserInfo) (f i : ℕ) : TxStep A u (u.callMPCToSend f i).2 := by
  rw [UserInfo.callMPCToSend]
  dsimp only
  split
  · exact .refl u
  next m hm =>
  generalize hr : onSendMPDataComplete u f m ((u.txWindow f).dataNode i).payloadLen false = r
  obtain ⟨ok, u₁⟩ := r
  have hsend : TxStep A u u₁ := by
    have hu₁ : u₁ = (onSendMPDataComplete u f m ((u.txWindow f).dataNode i).payloadLen false).2 :=
      (congrArg Prod.snd hr).symm
    rw [hu₁]
    refine ⟨rfl, rfl, rfl, fun _ => rfl, rfl, rfl, fun _ h => h, [_], rfl, fun a ha => ?_⟩
    rw [List.mem_singleton.mp ha]
    exact trivial
  have hw₁ : u₁.txWindow = u.txWindow := (congrArg (fun r => r.2.txWindow) hr).symm
  split
  · refine hsend.trans (TxStep.setTxWindow _ f (fun j m' hm' => ?_))
    simp only [setNode, Function.update_apply] at hm'
    split at hm'
    · refine txHolds_node (f := f) (i := i) ?_
      rw [hw₁, hm]
      rw [hm] at hm'
      exact hm'
    · exact txHolds_node hm'
  · exact hsend

theorem sendBlock_time (u : UserInfo) (f : ℕ) (data : Msg) (len frag : ℕ) :
    (u.sendBlock f data len frag).2.time = u.time := by
  have hput : ∀ (v : UserInfo) (m : Msg), (v.putDataToTxWin f m len).2.time = v.time := fun v m =>
    (TxStep.txNextInc (A := fun _ => True) _ f).time
  rw [sendBlock]
  exact (TxStep.callMPCToSend (A := fun _ => True) _ f _).time.trans (hput _ _)

theorem doSendNewTransData_time (u : UserInfo) (flowId : Option ℕ) (data : Msg) (length : ℕ) :
    (u.doSendNewTransData flowId data length).2.time = u.time :=
  doSendNewTransData_kept (P := fun v => v.time = u.time) (fun _ _ hv hw => hw.time.trans hv)
    (fun f _ v data len frag hv => (sendBlock_time v f data len frag).trans hv) rfl data length

/-- A packet is sent: the acknowledgement in its header is noted down, and the tx window holds
it. -/
theorem txSide_sendBlock (own : Own F u) (f : ℕ) {data : Msg} (hF : F data.addr) (len frag : ℕ) :
    TxSide F B u (u.sendBlock f data len frag).2 := by
  rw [sendBlock]
  generalize hr : u.fillMPDHeader f data frag = r
  obtain ⟨data', u₁⟩ := r
  have hF' : F data'.addr := by
    have haddr : data'.addr = data.addr := (congrArg (fun r => r.1.addr) hr).symm
    rw [haddr]
    exact hF
  have h₁ : TxSide F B u u₁ := by
    have hu₁ : u₁ = (u.fillMPDHeader f data frag).2 := (congrArg Prod.snd hr).symm
    have hack := (TxSide.refl (B := B) own).setSentAck f
      ((u.rxSubWin f).win (u.rxSubWin f).rxBegin).ssn
    have hput := TxSide.putNode (B := B) (f := f) hack.own hF
      (w := { u.txWindow f with subflowSn := u16 ((u.txWindow f).subflowSn + 1) })
      (fun i m hm => .inl hm)
    rw [hu₁]
    exact (hack.trans hput).congr rfl rfl rfl rfl rfl
  dsimp only
  generalize hr₂ : u₁.putDataToTxWin f data' len = r₂
  obtain ⟨index, u₂⟩ := r₂
  have h₂ : TxSide F B u u₂ := by
    have hu₂ : u₂ = (u₁.putDataToTxWin f data' len).2 := (congrArg Prod.snd hr₂).symm
    rw [hu₂, putDataToTxWin]
    refine TxSide.andSet (TxSide.andStep (h₁.trans (TxSide.putNode h₁.own hF' ?_))
      (.txNextInc _ f)) (fun _ => rfl)
    intro i m hm
    simp only [setNode, Function.update_apply] at hm
    split at hm
    · exact .inr (Option.some.inj hm).symm
    · exact .inl hm
  exact h₂.andStep (.callMPCToSend u₂ f index)

/-- A buffer that `MPD_MsgMemCreat` is about to give belongs to the transmit side. -/
def FreshAllocs (F : ℕ → Prop) (u : UserInfo) : Prop := ∀ n a, u.allocs n = some a → F a

/-- Splitting a packet gives its buffer back and answers with two new ones. -/
theorem txSide_splitDataMem (own : Own F u) {data : Msg} (hF : F data.addr)
    (hfresh : FreshAllocs F u) (length : ℕ) :
    TxSide F B u (u.splitDataMem data length).2 ∧
      ∀ frag, (u.splitDataMem data length).1 = some frag → F frag.first.addr ∧ F frag.last.addr := by
  have hself : TxSide F B u u := .refl own
  have hemit : ∀ (m : Msg) (v : UserInfo), F m.addr → TxSide F B u v →
      TxSide F B u (v.emit [.free m]) := by
    intro m v hm hv
    refine hv.trans ⟨rfl, ⟨fun i => (v.rxSubWin i).sentAck, rfl⟩, fun _ => rfl, hv.own, [.free m],
      rfl, fun a ha => ?_⟩
    rw [List.mem_singleton.mp ha]
    exact hm
  rw [splitDataMem]
  split
  · exact ⟨hself, by simp⟩
  simp only [msgMemCreat]
  split
  · exact ⟨hself.congr rfl rfl rfl rfl rfl, by simp⟩
  next first hfirst =>
  split
  · exact ⟨hemit _ _ (hfresh 0 first hfirst) (hself.congr rfl rfl rfl rfl rfl), by simp⟩
  next last hlast =>
  refine ⟨hemit _ _ hF (hself.congr rfl rfl rfl rfl rfl), fun frag hfrag => ?_⟩
  cases hfrag
  exact ⟨hfresh 0 first hfirst, hfresh 1 last hlast⟩

/-- New data is sent, or given back at once. -/
theorem txSide_doSendNewTransData (own : Own F u) (flowId : Option ℕ) {data : Msg}
    (hF : F data.addr) (hfresh : FreshAllocs F u) (length : ℕ) :
    TxSide F B u (u.doSendNewTransData flowId data length).2 := by
  have hfree : TxSide F B u (u.emit [.free data]) := by
    refine ⟨rfl, ⟨fun i => (u.rxSubWin i).sentAck, rfl⟩, fun _ => rfl, own, [.free data], rfl,
      fun a ha => ?_⟩
    rw [List.mem_singleton.mp ha]
    exact hF
  rw [doSendNewTransData.eq_def]
  split
  · exact hfree
  split
  · exact hfree
  next flow =>
  dsimp only
  have h₀ : TxSide F B u { u with lastPackageTime := u32 (u.time + 6000) } :=
    (TxSide.refl own).congr rfl rfl rfl rfl rfl
  have hsplit : TxSide F B u (if 1480 ≤ length then
        { u with lastPackageTime := u32 (u.time + 6000) }.splitDataMem data length
        else (none, { u with lastPackageTime := u32 (u.time + 6000) })).2 ∧
      ∀ frag, (if 1480 ≤ length then
        { u with lastPackageTime := u32 (u.time + 6000) }.splitDataMem data length
        else (none, { u with lastPackageTime := u32 (u.time + 6000) })).1 = some frag →
        F frag.first.addr ∧ F frag.last.addr := by
    split
    · obtain ⟨hs, hfrag⟩ := txSide_splitDataMem (B := B) h₀.own hF
        (fun n a ha => hfresh n a ha) length
      exact ⟨h₀.trans hs, hfrag⟩
    · exact ⟨h₀, by simp⟩
  generalize (if 1480 ≤ length then
      { u with lastPackageTime := u32 (u.time + 6000) }.splitDataMem data length
      else (none, { u with lastPackageTime := u32 (u.time + 6000) })) = r at hsplit
  obtain ⟨frag, u₁⟩ := r
  obtain ⟨h₁, hfrag⟩ := hsplit
  cases frag with
  | none => exact h₁.trans (txSide_sendBlock h₁.own flow hF length 0)
  | some frag =>
    obtain ⟨hfirst, hlast⟩ := hfrag frag rfl
    have h₂ := h₁.trans (txSide_sendBlock h₁.own flow hfirst 1012 1)
    have h₃ : TxSide F B u { (u₁.sendBlock flow frag.first 1012 1).2 with
        txDataSn := u16 ((u₁.sendBlock flow frag.first 1012 1).2.txDataSn + 65535) } :=
      h₂.congr rfl rfl rfl rfl rfl
    exact h₃.trans (txSide_sendBlock h₃.own flow hlast (length - 1012 + 12) 2)

theorem valid_doSendNewTransData (u : UserInfo) (flowId : Option ℕ) (data : Msg) (length g : ℕ) :
    schdGetFlowValid (u.doSendNewTransData flowId data length).2 g = schdGetFlowValid u g :=
  (txSide_doSendNewTransData (F := fun _ => True) (B := fun _ => True) (fun _ _ => trivial) flowId
    trivial (fun _ _ _ => trivial) length).valid g

/-! ### Retransmission, clears and acknowledgements -/

theorem TxStep.txWinRetransFlow (u : UserInfo) (f : ℕ) : TxStep A u (u.txWinRetransFlow f) := by
  rw [UserInfo.txWinRetransFlow]
  split
  · exact .refl u
  split
  · exact (TxStep.refl u).andSet fun _ => rfl
  split
  · exact .refl u
  next last _ =>
  dsimp only
  split
  · exact (TxStep.callMPCToRetrans u f last).andSet (pData_setNode rfl)
  · exact .refl u

theorem TxStep.txWinRetransCheck (u : UserInfo) : TxStep A u u.txWinRetransCheck := by
  rw [UserInfo.txWinRetransCheck]
  split
  · exact ((TxStep.txWinRetransFlow u 0).trans (.txWinRetransFlow _ 1)).trans (.txWinRetransFlow _ 2)
  · exact .refl u

theorem TxStep.clearTxNodes (u : UserInfo) (f k : ℕ) : TxStep A u (clearTxNodes f k u) := by
  induction k generalizing u with
  | zero => exact .refl u
  | succ k ih =>
    rw [UserInfo.clearTxNodes]
    split
    · exact (TxStep.release u f).trans (ih _)
    · exact .refl u

theorem TxStep.clearTxWin (u : UserInfo) (f : ℕ) : TxStep A u (u.clearTxWin f) := by
  rw [UserInfo.clearTxWin]
  refine (TxStep.clearTxNodes u f 1024).trans (TxStep.setTxWindow _ f fun i m hm => ?_)
  exact absurd hm (by simp)

theorem TxStep.subWinSendSackPacketMsg (u : UserInfo) (ack : ℕ) (sack : List SackV)
    (f first : ℕ) : TxStep A u (u.subWinSendSackPacketMsg ack sack f first) := by
  rw [UserInfo.subWinSendSackPacketMsg]
  dsimp only
  split
  · exact ⟨rfl, rfl, rfl, fun _ => rfl, rfl, rfl, fun _ h => h, [], by simp [msgMemCreat], by simp⟩
  · refine TxStep.andSet ?_ fun _ => rfl
    refine ⟨rfl, rfl, rfl, fun _ => rfl, rfl, rfl, fun _ h => h, [_], rfl, fun a ha => ?_⟩
    rw [List.mem_singleton.mp ha]
    exact trivial

theorem txSide_writer (u : UserInfo) : AckWriter (fun _ => True) (TxSide F B u) where
  count _ _ h := h.congr rfl rfl rfl rfl rfl
  stamp _ _ h := h.congr rfl rfl rfl rfl rfl
  sentAck _ f ack _ h := h.setSentAck f ack
  message v ack sack f first _ h := h.andStep (.subWinSendSackPacketMsg v ack sack f first)

theorem txSide_sackPeriodSend (own : Own F u) : TxSide F B u u.sackPeriodSend :=
  (txSide_writer u).sackPeriodSend (fun _ _ _ _ => trivial) (.refl own)

end UserInfo

end Mpd

end AndroidVendor
