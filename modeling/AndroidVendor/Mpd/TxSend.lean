import AndroidVendor.Mpd.TxInvariant

/-!
# Sending, retransmitting and clearing

The remaining operations on the tx windows: new data, the retransmission of the newest packet, the
clearing of a window. Together with `processACK_spec` and `parserSACK_spec` this is everything that
changes a tx window.

## Main results

* `sendBlock_spec` — a packet that is sent becomes the newest node; a full window releases its
  oldest, any other window releases nothing
* `TxOk.txWinRetransCheck`, `TxOk.clearTxWin`, `TxOk.doSendNewTransData` — the rest keeps the
  representation invariant
-/

namespace AndroidVendor

namespace Mpd

open Loop TxWin

/-- The node that a packet of `len` bytes was put in. -/
def DataNode.put (d : DataNode) (data : Msg) (time len : ℕ) : DataNode :=
  { d with
    dsn := data.header.dsn, ssn := data.header.ssn, pData := some data, transState := .waitingSend,
    t1 := time, reTxCnt := 0, toDataAck := u32 (time + 500), toRetrans := u32 (time + 100),
    payloadLen := u16 len }

namespace TxWin

/-- The window when the packet is put in at `i`, before `MPD_txNextInc`. -/
def taken (w : TxWin) (d : DataNode) (i sn : ℕ) : TxWin :=
  { ({ w with subflowSn := sn } : TxWin).setNode i d with pTxLast := some i, timeOutRetCnt := 0 }

/-- What `w'` has of `w` when `d` is its newest node. -/
structure Newest (w : TxWin) (b n : ℕ) (d : DataNode) (w' : TxWin) : Prop where
  spans : Spans w' b (n + 1)
  node : w'.dataNode (n % 1024) = d
  kept : ∀ x, b ≤ x → x < b + 1024 → x ≠ n → x ≠ n + 1 →
    w'.dataNode (x % 1024) = w.dataNode (x % 1024)
  outside : ∀ i, 1024 ≤ i → w'.dataNode i = w.dataNode i

section Newest

variable {w w' : TxWin} {b n : ℕ} {d : DataNode}

theorem Spans.newest (h : Spans w b n) (hroom : n + 1 < b + 1024) (hd : Sound d)
    (hs : d.ssn = n % 65536) (hbegin : w'.pTxBegin = w.pTxBegin)
    (hnext : w'.pTxNext = (n + 1) % 1024) (hsn : w'.subflowSn = (n + 1) % 65536)
    (hnodes : w'.dataNode = (w.pushed d ((n + 1) % 65536)).dataNode) : Newest w b n d w' where
  spans := by
    have hpushed : (w.pushed d ((n + 1) % 65536)).pTxNext = (n + 1) % 1024 := by
      simp only [pushed, h.next_eq, txPlus_mod]
    exact (h.push hroom hd hs).congr hbegin (hnext.trans hpushed.symm) hsn hnodes
  node := by
    rw [hnodes, h.pushed_node hroom h.le (by omega), if_neg (by omega), if_pos rfl]
  kept x hb hx hne hne' := by
    rw [hnodes, h.pushed_node hroom hb hx, if_neg hne', if_neg hne]
  outside i hi := by rw [hnodes, h.pushed_outside hi]

/-- There is room for another packet behind this one. -/
theorem Spans.taken_room (h : Spans w b n) (hroom : n + 1 < b + 1024) (hd : Sound d)
    (hs : d.ssn = n % 65536) :
    let w₁ := w.taken d (n % 1024) ((n + 1) % 65536)
    let next := txPlus w₁.pTxNext
    Newest w b n d
      { w₁.setNode next { w₁.dataNode next with ssn := w₁.subflowSn } with pTxNext := next } := by
  refine h.newest hroom hd hs rfl ?_ rfl ?_
  · simp only [taken, setNode, h.next_eq, txPlus_mod]
  · simp only [taken, pushed, setNode, h.next_eq]

/-- There is none: the oldest node goes, and its slot is the next to be used. -/
theorem Spans.taken_full (h : Spans w b n) (hfull : n + 1 = b + 1024) (hd : Sound d)
    (hs : d.ssn = n % 65536) :
    let w₁ := w.taken d (n % 1024) ((n + 1) % 65536)
    let next := txPlus w₁.pTxNext
    Newest w.beginInc (b + 1) n d (({ w₁.setNode next
      { w₁.dataNode next with ssn := w₁.subflowSn } with pTxNext := next } : TxWin).beginInc.setNode
        next { ssn := w₁.subflowSn }) := by
  have hb : (n + 1) % 1024 = b % 1024 := by rw [hfull]; simp
  have hne : (n + 1) % 1024 ≠ n % 1024 :=
    SerialRing.cell_ne (N := 1024) (by omega) (by omega) (by omega)
  refine (h.release (by omega)).newest (by omega) hd hs rfl ?_ rfl (funext fun i => ?_)
  · simp only [taken, beginInc, setNode, h.next_eq, txPlus_mod]
  · simp only [taken, beginInc, pushed, setNode, h.next_eq, h.begin_eq, txPlus_mod]
    by_cases hi : i = (n + 1) % 1024
    · rw [hi, Function.update_self, Function.update_self, Function.update_of_ne hne, hb,
        Function.update_self]
    · rw [Function.update_of_ne hi, Function.update_of_ne hi,
        Function.update_of_ne (by rw [← hb]; exact hi), Function.update_of_ne hi]
      by_cases hi' : i = n % 1024
      · rw [hi', Function.update_self, Function.update_self]
      · rw [Function.update_of_ne hi', Function.update_of_ne hi',
          Function.update_of_ne (by rw [← hb]; exact hi)]

theorem Spans.next_eq_begin (h : Spans w b n) (i sn : ℕ) :
    txPlus (w.taken d i sn).pTxNext = (w.taken d i sn).pTxBegin ↔ n + 1 = b + 1024 := by
  have hle := h.le
  have hsize := h.size
  simp only [taken, setNode, h.next_eq, h.begin_eq, txPlus_mod]
  constructor
  · intro heq
    by_contra hne
    exact SerialRing.cell_ne (by omega) (by omega) (by omega) heq
  · intro heq
    rw [heq, Nat.add_mod_right]

end Newest

end TxWin

namespace UserInfo

variable {u u' : UserInfo} {f b n : ℕ} {A : Access → Prop}

/-! ### New data -/

/-- What `MPD_fillMPDHeader` does to the buffer and to the tx windows. -/
theorem fillMPDHeader_spec (u : UserInfo) (f : ℕ) (data : Msg) (frag : ℕ) :
    (u.fillMPDHeader f data frag).1.header.ssn = (u.txWindow f).subflowSn % 65536 ∧
      (u.fillMPDHeader f data frag).1.header.dsn = u.txDataSn % 65536 ∧
      (u.fillMPDHeader f data frag).2.txWindow = Function.update u.txWindow f
        { u.txWindow f with subflowSn := u16 ((u.txWindow f).subflowSn + 1) } ∧
      (u.fillMPDHeader f data frag).2.out = u.out := by
  refine ⟨?_, ?_, rfl, rfl⟩ <;>
  · simp only [fillMPDHeader, getSubFlowAck, header_encode]
    rfl

/-- The window `MPD_txNextInc` leaves, whose node at `pTxNext` is already written. -/
theorem txNextInc_spec (u : UserInfo) (f : ℕ) {w : TxWin} (hw : u.txWindow f = w) :
    let next := txPlus w.pTxNext
    let w' := { w.setNode next { w.dataNode next with ssn := w.subflowSn } with pTxNext := next }
    (u.txNextInc f).txWindow = Function.update u.txWindow f
        (if next = w.pTxBegin then w'.beginInc.setNode next { ssn := w.subflowSn } else w') ∧
      (u.txNextInc f).out =
        u.out ++ (if next = w.pTxBegin then w.beginNode.releases f else []) := by
  subst hw
  rw [txNextInc]
  dsimp only
  split
  · next hfull =>
    have hfull' : txPlus (u.txWindow f).pTxNext = (u.txWindow f).pTxBegin := hfull
    rw [if_pos hfull', if_pos hfull']
    constructor
    · rw [txRelease_txWindow]
      simp only [UserInfo.setTxWindow, txRelease_txWindow, Function.update_self,
        Function.update_idem]
      congr 1
      simp [beginInc, setNode, nextNode, hfull']
    · simp only [UserInfo.setTxWindow, txRelease_out, Function.update_self]
      congr 1
      simp only [beginNode, setNode, hfull', Function.update_self]
      rfl
  · next hroom =>
    have hroom' : ¬ txPlus (u.txWindow f).pTxNext = (u.txWindow f).pTxBegin := hroom
    rw [if_neg hroom', if_neg hroom']
    constructor
    · simp only [UserInfo.setTxWindow, Function.update_self, Function.update_idem]
      congr 1
      simp [setNode, nextNode]
    · simp [UserInfo.setTxWindow]

/-- `MPD_putDataToTxWin` in one equation: the packet is put in, and `MPD_txNextInc` moves on. -/
theorem putDataToTxWin_eq {data : Msg} {w : TxWin} (len : ℕ)
    (hw : u.txWindow f = { w with subflowSn := (n + 1) % 65536 })
    (hssn : data.header.ssn = n % 65536) :
    let v := (u.setTxWindow f (w.taken ((w.dataNode (n % 1024)).put data u.time len) (n % 1024)
      ((n + 1) % 65536))).txNextInc f
    u.putDataToTxWin f data len = (n % 1024, v.setTxWindow f
      { v.txWindow f with
        lastSendPktTime := v.time
        histA := if (v.txWindow f).lastTxTime = 0 then 1 else u32 ((v.txWindow f).histA + 1) }) := by
  have hcell : n % 65536 % 1024 = n % 1024 := by omega
  rw [putDataToTxWin, DataNode.put, hssn]
  dsimp only
  rw [hw, hcell]
  rfl

/-- A packet that is put into a tx window becomes its newest node. A full window releases its
oldest node, and no other window releases anything. -/
theorem putDataToTxWin_nodes {data : Msg} {w : TxWin} (len : ℕ) (h : Spans w b n)
    (hw : u.txWindow f = { w with subflowSn := (n + 1) % 65536 })
    (hssn : data.header.ssn = n % 65536) :
    (u.putDataToTxWin f data len).1 = n % 1024 ∧
      (∀ j, j ≠ f → (u.putDataToTxWin f data len).2.txWindow j = u.txWindow j) ∧
      (u.putDataToTxWin f data len).2.out =
        u.out ++ (if n + 1 = b + 1024 then w.beginNode.releases f else []) ∧
      ∃ b', b' = (if n + 1 = b + 1024 then b + 1 else b) ∧
        Spans ((u.putDataToTxWin f data len).2.txWindow f) b' (n + 1) ∧
        ((u.putDataToTxWin f data len).2.txWindow f).dataNode (n % 1024) =
          (w.dataNode (n % 1024)).put data u.time len ∧
        ((u.putDataToTxWin f data len).2.txWindow f).pTxLast = some (n % 1024) ∧
        ((u.putDataToTxWin f data len).2.txWindow f).timeOutRetCnt = 0 ∧
        (∀ x, b' ≤ x → x < b + 1024 → x ≠ n → x ≠ n + 1 →
          ((u.putDataToTxWin f data len).2.txWindow f).dataNode (x % 1024) =
            w.dataNode (x % 1024)) ∧
        ∀ i, 1024 ≤ i →
          ((u.putDataToTxWin f data len).2.txWindow f).dataNode i = w.dataNode i := by
  obtain ⟨hwin, hout⟩ := txNextInc_spec
    (u.setTxWindow f (w.taken ((w.dataNode (n % 1024)).put data u.time len) (n % 1024)
      ((n + 1) % 65536))) f (txWindow_setTxWindow u f _)
  have hd : Sound ((w.dataNode (n % 1024)).put data u.time len) := by simp [Sound, DataNode.put]
  rw [putDataToTxWin_eq len hw hssn]
  dsimp only
  refine ⟨rfl, fun j hj => ?_, ?_, _, rfl, ?_⟩
  · rw [txWindow_setTxWindow_of_ne _ _ hj, hwin, Function.update_of_ne hj,
      txWindow_setTxWindow_of_ne _ _ hj]
  · rw [UserInfo.setTxWindow, hout]
    simp only [h.next_eq_begin, UserInfo.setTxWindow]
    split
    · next hfull =>
      have hne : b % 1024 ≠ n % 1024 := SerialRing.cell_ne (by omega) (by omega) (by omega)
      simp only [beginNode, taken, setNode, h.begin_eq, Function.update_of_ne hne]
    · rfl
  rw [txWindow_setTxWindow, hwin, Function.update_self]
  by_cases hfull : n + 1 = b + 1024
  · have hnew := h.taken_full hfull hd hssn
    rw [if_pos hfull, if_pos ((h.next_eq_begin _ _).mpr hfull)]
    refine ⟨hnew.spans.congr rfl rfl rfl rfl, hnew.node, rfl, rfl, fun x hb hx hne hne' => ?_,
      fun i hi => ?_⟩
    · refine (hnew.kept x hb (by omega) hne hne').trans ?_
      exact (h.released.release (by omega)).kept x hb hx
    · have hi' : i ≠ w.pTxBegin := by
        rw [h.begin_eq]
        omega
      exact (hnew.outside i hi).trans (setNode_of_ne w hi' _)
  · have hle := h.size
    have hnew := h.taken_room (by omega) hd hssn
    rw [if_neg hfull, if_neg fun heq => hfull ((h.next_eq_begin _ _).mp heq)]
    exact ⟨hnew.spans.congr rfl rfl rfl rfl, hnew.node, rfl, rfl, hnew.kept, hnew.outside⟩

/-- The same of what the node holds. -/
theorem putDataToTxWin_spec {data : Msg} {w : TxWin} (len : ℕ) (h : Spans w b n)
    (hw : u.txWindow f = { w with subflowSn := (n + 1) % 65536 })
    (hssn : data.header.ssn = n % 65536) :
    (u.putDataToTxWin f data len).1 = n % 1024 ∧
      (∀ j, j ≠ f → (u.putDataToTxWin f data len).2.txWindow j = u.txWindow j) ∧
      (u.putDataToTxWin f data len).2.out =
        u.out ++ (if n + 1 = b + 1024 then w.beginNode.releases f else []) ∧
      ∃ b', b' = (if n + 1 = b + 1024 then b + 1 else b) ∧
        Spans ((u.putDataToTxWin f data len).2.txWindow f) b' (n + 1) ∧
        (((u.putDataToTxWin f data len).2.txWindow f).dataNode (n % 1024)).pData = some data ∧
        (((u.putDataToTxWin f data len).2.txWindow f).dataNode (n % 1024)).payloadLen = u16 len ∧
        ((u.putDataToTxWin f data len).2.txWindow f).pTxLast = some (n % 1024) ∧
        ∀ x, b' ≤ x → x < b + 1024 → x ≠ n → x ≠ n + 1 →
          ((u.putDataToTxWin f data len).2.txWindow f).dataNode (x % 1024) =
            w.dataNode (x % 1024) := by
  obtain ⟨hidx, hoth, hout, b', hb', hs', hnode, hlast, -, hkept, -⟩ :=
    putDataToTxWin_nodes len h hw hssn
  refine ⟨hidx, hoth, hout, b', hb', hs', ?_, ?_, hlast, hkept⟩
  · rw [hnode]
    rfl
  · rw [hnode]
    rfl

/-- Handing a node to the subflow queue changes its state at most. -/
theorem callMPCToSend_spec {i : ℕ} {m : Msg} (h : Spans (u.txWindow f) b n)
    (hm : ((u.txWindow f).dataNode i).pData = some m) :
    (∀ j, j ≠ f → (u.callMPCToSend f i).2.txWindow j = u.txWindow j) ∧
      (∃ ok, (u.callMPCToSend f i).2.out =
        u.out ++ [.send (getDeviceId f) m ((u.txWindow f).dataNode i).payloadLen false ok]) ∧
      Spans ((u.callMPCToSend f i).2.txWindow f) b n ∧
      ∀ j, (((u.callMPCToSend f i).2.txWindow f).dataNode j).pData =
        ((u.txWindow f).dataNode j).pData := by
  have hsound : ((u.txWindow f).dataNode i).transState ≠ .dataInit :=
    (h.sound i).mpr (by simp [hm])
  rw [callMPCToSend]
  dsimp only
  rw [hm]
  dsimp only
  generalize hr : onSendMPDataComplete u f m ((u.txWindow f).dataNode i).payloadLen false = r
  obtain ⟨ok, u₁⟩ := r
  have hw₁ : u₁.txWindow = u.txWindow := (congrArg (fun r => r.2.txWindow) hr).symm
  have hout₁ : u₁.out = u.out ++ [.send (getDeviceId f) m ((u.txWindow f).dataNode i).payloadLen
      false (u.sends 0)] := (congrArg (fun r => r.2.out) hr).symm
  cases ok with
  | true =>
    refine ⟨fun j hj => ?_, ⟨_, hout₁⟩, ?_, fun j => ?_⟩
    · simp only [if_true]
      rw [txWindow_setTxWindow_of_ne _ _ hj, hw₁]
    · simp only [if_true, txWindow_setTxWindow, hw₁]
      refine (h.rewrite i (d := { (u.txWindow f).dataNode i with
        pData := some m, transState := .waitingAck }) ?_ rfl
        fun hnone => absurd (hm.symm.trans hnone) (by simp)).congr rfl rfl rfl rfl
      simp [Sound]
    · simp only [if_true, txWindow_setTxWindow, hw₁, setNode, Function.update_apply]
      split
      · next heq => rw [heq, hm]
      · rfl
  | false => exact ⟨fun _ _ => by simp [hw₁], ⟨_, hout₁⟩, by simpa [hw₁] using h, by simp [hw₁]⟩

/-- **A packet is sent.** It becomes the newest node. A window with 1023 packets outstanding
releases its oldest, and then only that; otherwise nothing is released. -/
theorem sendBlock_spec (h : Spans (u.txWindow f) b n) (data : Msg) (len frag : ℕ) :
    (∀ j, j ≠ f → (u.sendBlock f data len frag).2.txWindow j = u.txWindow j) ∧
      (∃ ok, (u.sendBlock f data len frag).2.out =
        u.out ++ (if n + 1 = b + 1024 then (u.txWindow f).beginNode.releases f else []) ++
          [.send (getDeviceId f) (u.fillMPDHeader f data frag).1 (u16 len) false ok]) ∧
      ∃ b', b' = (if n + 1 = b + 1024 then b + 1 else b) ∧
        Spans ((u.sendBlock f data len frag).2.txWindow f) b' (n + 1) ∧
        ∀ x, b' ≤ x → x < n →
          (((u.sendBlock f data len frag).2.txWindow f).dataNode (x % 1024)).pData =
            ((u.txWindow f).dataNode (x % 1024)).pData := by
  obtain ⟨hssn, -, hwin, hout⟩ := fillMPDHeader_spec u f data frag
  rw [sendBlock]
  generalize hr : u.fillMPDHeader f data frag = r at *
  obtain ⟨data', u₁⟩ := r
  dsimp only at hssn hwin hout ⊢
  have hsn : u16 ((u.txWindow f).subflowSn + 1) = (n + 1) % 65536 := by
    rw [h.sn_eq, u16]
    omega
  rw [hsn] at hwin
  have hw₁ : u₁.txWindow f = { u.txWindow f with subflowSn := (n + 1) % 65536 } := by
    rw [hwin, Function.update_self]
  have hssn' : data'.header.ssn = n % 65536 := by
    rw [hssn, h.sn_eq]
    omega
  obtain ⟨hidx, hoth₂, hout₂, b', hb', hs₂, hdata, hlen, -, hkept⟩ :=
    putDataToTxWin_spec len h hw₁ hssn'
  generalize hr₂ : u₁.putDataToTxWin f data' len = r₂ at *
  obtain ⟨index, u₂⟩ := r₂
  dsimp only at hidx hoth₂ hout₂ hs₂ hdata hlen hkept ⊢
  rw [← hidx] at hdata hlen
  obtain ⟨hoth₃, ⟨ok, hout₃⟩, hs₃, hdata₃⟩ := callMPCToSend_spec hs₂ hdata
  rw [hlen] at hout₃
  refine ⟨fun j hj => ?_, ⟨ok, ?_⟩, b', hb', hs₃, fun x hbx hxn => ?_⟩
  · rw [hoth₃ j hj, hoth₂ j hj, hwin, Function.update_of_ne hj]
  · rw [hout₃, hout₂, hout]
  · have hsize := h.size
    rw [hdata₃, hkept x hbx (by omega) (by omega) (by omega)]

/-- What a packet that is sent at `time` does to its window, the newest node being the one at
position `n`. -/
structure Pushes (w : TxWin) (b n time : ℕ) (w' : TxWin) (b' : ℕ) : Prop where
  begin_eq : b' = if n + 1 = b + 1024 then b + 1 else b
  spans : Spans w' b' (n + 1)
  newest : ∃ (d : DataNode) (data : Msg) (len : ℕ) (state : TransState),
    w'.dataNode (n % 1024) = { d.put data time len with transState := state } ∧
      data.header.ssn = n % 65536
  pTxLast : w'.pTxLast = some (n % 1024)
  timeOutRetCnt : w'.timeOutRetCnt = 0
  kept : ∀ x, b' ≤ x → x < n → w'.dataNode (x % 1024) = w.dataNode (x % 1024)
  outside : ∀ i, 1024 ≤ i → w'.dataNode i = w.dataNode i

theorem callMPCToSend_nodes {i : ℕ} {m : Msg} (hm : ((u.txWindow f).dataNode i).pData = some m) :
    (∃ state, ((u.callMPCToSend f i).2.txWindow f).dataNode = Function.update (u.txWindow f).dataNode i
        { (u.txWindow f).dataNode i with transState := state }) ∧
      ((u.callMPCToSend f i).2.txWindow f).pTxLast = (u.txWindow f).pTxLast ∧
      ((u.callMPCToSend f i).2.txWindow f).timeOutRetCnt = (u.txWindow f).timeOutRetCnt := by
  rw [callMPCToSend]
  dsimp only
  rw [hm]
  dsimp only
  generalize hr : onSendMPDataComplete u f m ((u.txWindow f).dataNode i).payloadLen false = r
  obtain ⟨ok, u₁⟩ := r
  have hw₁ : u₁.txWindow = u.txWindow := (congrArg (fun r => r.2.txWindow) hr).symm
  cases ok with
  | true =>
    simp only [if_true, txWindow_setTxWindow, hw₁, setNode]
    exact ⟨⟨.waitingAck, rfl⟩, trivial, trivial⟩
  | false =>
    simp only [Bool.false_eq_true, if_false, hw₁]
    refine ⟨⟨((u.txWindow f).dataNode i).transState, ?_⟩, trivial, trivial⟩
    rw [← hm, Function.update_eq_self]

theorem sendBlock_pushes (h : Spans (u.txWindow f) b n) (data : Msg) (len frag : ℕ) :
    ∃ b', Pushes (u.txWindow f) b n u.time ((u.sendBlock f data len frag).2.txWindow f) b' := by
  obtain ⟨hssn, -, hwin, -⟩ := fillMPDHeader_spec u f data frag
  obtain ⟨-, -, b', hb', hs', -⟩ := sendBlock_spec h data len frag
  rw [sendBlock] at hs' ⊢
  have htime : (u.fillMPDHeader f data frag).2.time = u.time := rfl
  generalize hr : u.fillMPDHeader f data frag = r at *
  obtain ⟨data', u₁⟩ := r
  dsimp only at hssn hwin htime hs' ⊢
  have hw₁ : u₁.txWindow f = { u.txWindow f with subflowSn := (n + 1) % 65536 } := by
    rw [hwin, Function.update_self, h.sn_eq, u16]
    congr 1
    omega
  have hssn' : data'.header.ssn = n % 65536 := by
    rw [hssn, h.sn_eq]
    omega
  obtain ⟨hidx, -, -, b'', hb'', -, hnode, hlast, hcnt, hkept, houtside⟩ :=
    putDataToTxWin_nodes len h hw₁ hssn'
  obtain rfl : b'' = b' := hb''.trans hb'.symm
  generalize hr₂ : u₁.putDataToTxWin f data' len = r₂ at *
  obtain ⟨index, u₂⟩ := r₂
  dsimp only at hidx hnode hlast hcnt hkept houtside hs' ⊢
  subst hidx
  have hdata : ((u₂.txWindow f).dataNode (n % 1024)).pData = some data' := by
    rw [hnode]
    rfl
  obtain ⟨⟨state, hnodes⟩, hlast', hcnt'⟩ := callMPCToSend_nodes hdata
  have hbb : b ≤ b'' := by
    rw [hb']
    split <;> omega
  have hsize := h.size
  refine ⟨b'', hb', hs', ⟨(u.txWindow f).dataNode (n % 1024), data', len, state, ?_, hssn'⟩,
    hlast'.trans hlast, hcnt'.trans hcnt, ?_, ?_⟩
  · rw [hnodes, Function.update_self, hnode, htime]
  · intro x hbx hxn
    rw [hnodes, Function.update_of_ne (SerialRing.cell_ne (by omega) (by omega) (by omega)),
      hkept x hbx (by omega) (by omega) (by omega)]
  · intro i hi
    rw [hnodes, Function.update_of_ne (by omega), houtside i hi]

/-- The tx windows of a session keep their representation invariant. -/
def TxOk (u : UserInfo) : Prop := ∀ f, ∃ b n, Spans (u.txWindow f) b n

theorem TxOk.of_flow (h : TxOk u) (hoth : ∀ j, j ≠ f → u'.txWindow j = u.txWindow j)
    (hf : ∃ b n, Spans (u'.txWindow f) b n) : TxOk u' := by
  intro j
  by_cases hj : j = f
  · exact hj ▸ hf
  · rw [hoth j hj]
    exact h j

theorem TxOk.congr (h : TxOk u) (hw : u'.txWindow = u.txWindow) : TxOk u' := by
  intro j
  rw [hw]
  exact h j

theorem TxOk.sendBlock (h : TxOk u) (f : ℕ) (data : Msg) (len frag : ℕ) :
    TxOk (u.sendBlock f data len frag).2 := by
  obtain ⟨b, n, hs⟩ := h f
  obtain ⟨hoth, -, b', -, hs', -⟩ := sendBlock_spec hs data len frag
  exact h.of_flow hoth ⟨b', n + 1, hs'⟩

/-- What `MPD_DoSendNewTransData` does beside the blocks it sends: it counts, and gives buffers
back. -/
structure Aside (u v : UserInfo) : Prop where
  txWindow : v.txWindow = u.txWindow
  rxSubWin : v.rxSubWin = u.rxSubWin
  rxDataWin : v.rxDataWin = u.rxDataWin
  schdPara : v.schdPara = u.schdPara
  time : v.time = u.time
  out : ∃ as, v.out = u.out ++ as ∧ ∀ a ∈ as, ∃ m, a = .free m

theorem Aside.of_out (hw : u'.txWindow = u.txWindow) (hs : u'.rxSubWin = u.rxSubWin)
    (hd : u'.rxDataWin = u.rxDataWin) (hp : u'.schdPara = u.schdPara) (ht : u'.time = u.time)
    (ho : u'.out = u.out) : Aside u u' :=
  ⟨hw, hs, hd, hp, ht, [], by rw [ho, List.append_nil], fun _ ha => absurd ha List.not_mem_nil⟩

theorem Aside.free {m : Msg} (hw : u'.txWindow = u.txWindow) (hs : u'.rxSubWin = u.rxSubWin)
    (hd : u'.rxDataWin = u.rxDataWin) (hp : u'.schdPara = u.schdPara) (ht : u'.time = u.time)
    (ho : u'.out = u.out ++ [.free m]) : Aside u u' :=
  ⟨hw, hs, hd, hp, ht, [.free m], ho, fun _ ha => ⟨m, List.mem_singleton.mp ha⟩⟩

theorem aside_splitDataMem (u : UserInfo) (data : Msg) (length : ℕ) :
    Aside u (u.splitDataMem data length).2 := by
  rw [splitDataMem]
  split
  · exact .of_out rfl rfl rfl rfl rfl rfl
  dsimp only [msgMemCreat]
  split
  · exact .of_out rfl rfl rfl rfl rfl rfl
  · split <;> exact .free rfl rfl rfl rfl rfl rfl

/-- How many packets a send makes: two when the data is long and both buffers are there. -/
def sendCount (u : UserInfo) (length : ℕ) : ℕ :=
  if 1480 ≤ length ∧ (u.allocs 0).isSome ∧ (u.allocs 1).isSome then 2 else 1

theorem sendCount_le (u : UserInfo) (length : ℕ) : u.sendCount length ≤ 2 := by
  rw [sendCount]
  split <;> omega

/-- Both buffers are there exactly if the packet was split. -/
theorem splitDataMem_count (u : UserInfo) (data : Msg) (length : ℕ) :
    (if 1480 ≤ length then u.splitDataMem data length else (none, u)).1.elim 1 (fun _ => 2) =
      u.sendCount length := by
  rw [sendCount]
  by_cases hlong : 1480 ≤ length
  · rw [if_pos hlong, splitDataMem, if_neg (by omega)]
    dsimp only [msgMemCreat]
    cases h₀ : u.allocs 0 with
    | none => simp
    | some first =>
      dsimp only
      cases h₁ : u.allocs (0 + 1) with
      | none => simp
      | some last => simp [hlong]
  · rw [if_neg hlong, if_neg fun h => hlong h.1]
    rfl

/-- `MPD_DoSendNewTransData` sends nothing, or as many blocks as there are buffers for; `P k` holds
when `k` blocks are out. -/
theorem doSendNewTransData_blocks {P : ℕ → UserInfo → Prop} {flowId : Option ℕ}
    (haside : ∀ k u v, P k u → Aside u v → P k v)
    (hsend : ∀ f ∈ flowId, ∀ k u data len frag, P k u → P (k + 1) (u.sendBlock f data len frag).2)
    (h : P 0 u) (data : Msg) (length : ℕ) :
    ∃ k, (k = 0 ∨ k = u.sendCount length ∧ 12 ≤ length) ∧
      P k (u.doSendNewTransData flowId data length).2 := by
  rw [UserInfo.doSendNewTransData.eq_def]
  split
  · exact ⟨0, .inl rfl, haside _ _ _ h (.free rfl rfl rfl rfl rfl rfl)⟩
  next hlen =>
  split
  · exact ⟨0, .inl rfl, haside _ _ _ h (.free rfl rfl rfl rfl rfl rfl)⟩
  next flow =>
  dsimp only
  have h₀ : P 0 { u with lastPackageTime := u32 (u.time + 6000) } :=
    haside _ _ _ h (.of_out rfl rfl rfl rfl rfl rfl)
  have h₁ : P 0 (if 1480 ≤ length then
      { u with lastPackageTime := u32 (u.time + 6000) }.splitDataMem data length
      else (none, { u with lastPackageTime := u32 (u.time + 6000) })).2 := by
    split
    · exact haside _ _ _ h₀ (aside_splitDataMem _ _ _)
    · exact h₀
  have hcount := splitDataMem_count { u with lastPackageTime := u32 (u.time + 6000) } data length
  rw [show sendCount { u with lastPackageTime := u32 (u.time + 6000) } length =
    u.sendCount length by rw [sendCount, sendCount]] at hcount
  generalize (if 1480 ≤ length then
      { u with lastPackageTime := u32 (u.time + 6000) }.splitDataMem data length
      else (none, { u with lastPackageTime := u32 (u.time + 6000) })) = r at h₁ hcount
  have hblock := hsend flow rfl
  split
  · next hnone =>
    rw [hnone, Option.elim_none] at hcount
    exact ⟨1, .inr ⟨hcount, by omega⟩, hblock _ _ _ _ _ h₁⟩
  · next frag hsome =>
    rw [hsome, Option.elim_some] at hcount
    refine ⟨2, .inr ⟨hcount, by omega⟩, hblock _ _ _ _ _ (haside _ _ _ (hblock _ _ frag.first 1012 1 h₁) ?_)⟩
    exact .of_out rfl rfl rfl rfl rfl rfl

/-- What the blocks that are sent keep, and what is done beside them keeps,
`MPD_DoSendNewTransData` keeps. -/
theorem doSendNewTransData_kept {P : UserInfo → Prop} {flowId : Option ℕ}
    (haside : ∀ u v, P u → Aside u v → P v)
    (hsend : ∀ f ∈ flowId, ∀ u data len frag, P u → P (u.sendBlock f data len frag).2)
    (h : P u) (data : Msg) (length : ℕ) : P (u.doSendNewTransData flowId data length).2 := by
  obtain ⟨-, -, hP⟩ := doSendNewTransData_blocks (P := fun _ => P) (fun _ => haside)
    (fun f hf _ => hsend f hf) h data length
  exact hP

theorem TxOk.doSendNewTransData (h : TxOk u) (flowId : Option ℕ) (data : Msg) (length : ℕ) :
    TxOk (u.doSendNewTransData flowId data length).2 :=
  doSendNewTransData_kept (fun _ _ hu hv => hu.congr hv.txWindow)
    (fun f _ _ data len frag hu => hu.sendBlock f data len frag) h data length

/-! ### Retransmission of the newest packet, and clears -/

theorem TxOk.txWinRetransFlow (h : TxOk u) (f : ℕ) : TxOk (u.txWinRetransFlow f) := by
  obtain ⟨b, n, hs⟩ := h f
  rw [UserInfo.txWinRetransFlow]
  split
  · exact h
  split
  · refine h.of_flow (f := f) (fun j hj => txWindow_setTxWindow_of_ne _ _ hj) ⟨b, n, ?_⟩
    rw [txWindow_setTxWindow]
    exact hs.congr rfl rfl rfl rfl
  split
  · exact h
  · next last _ =>
    dsimp only
    split
    · next hgo =>
      obtain ⟨hist, hw⟩ := callMPCToRetrans_txWindow u f last
      refine h.of_flow (f := f) (fun j hj => ?_) ⟨b, n, ?_⟩
      · rw [txWindow_setTxWindow_of_ne _ _ hj, hw, Function.update_of_ne hj]
      · rw [txWindow_setTxWindow, hw, Function.update_self]
        refine (hs.rewrite last (d := { (u.txWindow f).dataNode last with
          transState := .sacked, toRetrans := _ }) ?_ rfl id).congr rfl rfl rfl rfl
        rw [Sound]
        exact ⟨fun _ => (hs.sound last).mp hgo.1, fun _ => by simp⟩
    · exact h

theorem TxOk.txWinRetransCheck (h : TxOk u) : TxOk u.txWinRetransCheck := by
  rw [UserInfo.txWinRetransCheck]
  split
  · exact ((h.txWinRetransFlow 0).txWinRetransFlow 1).txWinRetransFlow 2
  · exact h

theorem clearTxNodes_txWindow (u : UserInfo) (k : ℕ) {j : ℕ} (hj : j ≠ f) :
    (clearTxNodes f k u).txWindow j = u.txWindow j := by
  induction k generalizing u with
  | zero => rfl
  | succ k ih =>
    rw [clearTxNodes]
    split
    · rw [ih, txRelease_txWindow, Function.update_of_ne hj]
    · rfl

theorem TxOk.clearTxWin (h : TxOk u) (f : ℕ) : TxOk (u.clearTxWin f) := by
  refine h.of_flow (f := f) (fun j hj => ?_) ⟨0, 0, ?_⟩
  · rw [UserInfo.clearTxWin, txWindow_setTxWindow_of_ne _ _ hj, clearTxNodes_txWindow _ _ hj]
  · rw [UserInfo.clearTxWin, txWindow_setTxWindow]
    exact spans_clear

/-! ### Acknowledging -/

/-- A step that only writes acknowledgements. -/
structure AckStep (u v : UserInfo) : Prop where
  time : v.time = u.time
  schdPara : v.schdPara = u.schdPara
  rxDataWin : v.rxDataWin = u.rxDataWin
  windows : ∀ f, ∃ t, v.txWindow f = { u.txWindow f with lastSendAckTime := t }
  out : ∃ as, v.out = u.out ++ as ∧ ∀ a ∈ as, ∃ dev m len ok, a = .send dev m len true ok

theorem AckStep.refl (u : UserInfo) : AckStep u u :=
  ⟨rfl, rfl, rfl, fun f => ⟨(u.txWindow f).lastSendAckTime, rfl⟩, [], (List.append_nil _).symm,
    fun _ h => absurd h List.not_mem_nil⟩

theorem AckStep.trans (h : AckStep u u') {v : UserInfo} (h' : AckStep u' v) : AckStep u v := by
  refine ⟨h'.time.trans h.time, h'.schdPara.trans h.schdPara, h'.rxDataWin.trans h.rxDataWin,
    fun f => ?_, ?_⟩
  · obtain ⟨t, ht⟩ := h.windows f
    obtain ⟨t', ht'⟩ := h'.windows f
    exact ⟨t', by rw [ht', ht]⟩
  · obtain ⟨as, hout, has⟩ := h.out
    obtain ⟨as', hout', has'⟩ := h'.out
    refine ⟨as ++ as', by rw [hout', hout, List.append_assoc], fun a ha => ?_⟩
    rcases List.mem_append.mp ha with ha | ha
    · exact has a ha
    · exact has' a ha

/-- Book-keeping that no one looks at. -/
theorem AckStep.congr (h : AckStep u u') {v : UserInfo} (htime : v.time = u'.time)
    (hpara : v.schdPara = u'.schdPara) (hdata : v.rxDataWin = u'.rxDataWin)
    (hw : v.txWindow = u'.txWindow) (hout : v.out = u'.out) : AckStep u v where
  time := htime.trans h.time
  schdPara := hpara.trans h.schdPara
  rxDataWin := hdata.trans h.rxDataWin
  windows := by
    rw [hw]
    exact h.windows
  out := by
    rw [hout]
    exact h.out

theorem AckStep.txOk (h : AckStep u u') (hu : TxOk u) : TxOk u' := by
  intro f
  obtain ⟨b, n, hs⟩ := hu f
  obtain ⟨t, ht⟩ := h.windows f
  rw [ht]
  exact ⟨b, n, hs.congr rfl rfl rfl rfl⟩

theorem AckStep.subWinSendSackPacketMsg (u : UserInfo) (ack : ℕ) (sack : List SackV)
    (f first : ℕ) : AckStep u (u.subWinSendSackPacketMsg ack sack f first) := by
  rw [UserInfo.subWinSendSackPacketMsg]
  dsimp only
  split
  · exact (AckStep.refl u).congr rfl rfl rfl rfl rfl
  · refine ⟨rfl, rfl, rfl, fun j => ?_, _, rfl, fun a ha => ?_⟩
    · by_cases hj : j = f
      · rw [hj, txWindow_setTxWindow]
        exact ⟨_, rfl⟩
      · rw [txWindow_setTxWindow_of_ne _ _ hj]
        exact ⟨(u.txWindow j).lastSendAckTime, rfl⟩
    · exact ⟨_, _, _, _, List.mem_singleton.mp ha⟩

/-- A property of sessions that survives the writing of acknowledgements for the subflows of `G`:
counting, noting down what was acknowledged, and the message. -/
structure AckWriter (G : ℕ → Prop) (P : UserInfo → Prop) : Prop where
  count : ∀ u k, P u → P { u with totalToAckNum := k }
  stamp : ∀ u t, P u → P { u with sendSackTime := t }
  sentAck : ∀ u f ack, G f → P u → P (u.setRxSubWin f { u.rxSubWin f with sentAck := ack })
  message : ∀ u ack sack f first, G f → P u → P (u.subWinSendSackPacketMsg ack sack f first)

namespace AckWriter

variable {G : ℕ → Prop} {P : UserInfo → Prop}

theorem createSackFrom (hP : AckWriter G P) (hf : G f) {s : UserInfo × SackState} (h : P s.1)
    (cnt i : ℕ) : P (UserInfo.createSackFrom f cnt i s).1 := by
  induction cnt generalizing i s with
  | zero => exact h
  | succ cnt ih =>
    rw [UserInfo.createSackFrom]
    refine ih ?_ _
    rw [createSackNode]
    dsimp only
    split
    · exact h
    split
    · exact h
    split
    · exact hP.sentAck _ f _ hf (hP.message _ _ _ f _ hf h)
    · exact h

theorem createSackMsgs (hP : AckWriter G P) (hf : G f) (h : P u) : P (u.createSackMsgs f) := by
  rw [UserInfo.createSackMsgs]
  dsimp only
  refine hP.sentAck _ f _ hf ?_
  have h₁ := hP.createSackFrom hf
    (s := (u, { ack := ((u.rxSubWin f).win (u.rxSubWin f).rxBegin).ssn })) h
    (SerialRing.dist 1024 (u.rxSubWin f).rxBegin (u.rxSubWin f).rxNext) (u.rxSubWin f).rxBegin
  split
  · exact hP.message _ _ _ f _ hf h₁
  · exact h₁

theorem subWinCreateSack (hP : AckWriter G P) (hf : G f) (h : P u) : P (u.subWinCreateSack f) := by
  rw [UserInfo.subWinCreateSack]
  dsimp only
  split
  · split
    · exact hP.count u 0 h
    split
    · exact h
    split
    · exact hP.count u _ h
    · exact hP.createSackMsgs hf (hP.count u _ h)
  · exact hP.createSackMsgs hf (hP.count u 0 h)

theorem sackPeriodSend (hP : AckWriter G P)
    (hG : ∀ v i, P v → schdGetFlowValid v i = true → G i) (h : P u) : P u.sackPeriodSend := by
  have hflow : ∀ (v : UserInfo) (i : ℕ), P v →
      P (if schdGetFlowValid v i then v.subWinCreateSack i else v) := by
    intro v i hv
    split
    · next hi => exact hP.subWinCreateSack (hG v i hv hi) hv
    · exact hv
  rw [UserInfo.sackPeriodSend]
  split
  · exact hP.stamp _ _ (hflow _ 2 (hflow _ 1 (hflow _ 0 h)))
  · exact h

end AckWriter

theorem AckStep.writer (u : UserInfo) : AckWriter (fun _ => True) (AckStep u) where
  count _ _ h := h.congr rfl rfl rfl rfl rfl
  stamp _ _ h := h.congr rfl rfl rfl rfl rfl
  sentAck _ _ _ _ h := h.congr rfl rfl rfl rfl rfl
  message v ack sack f first _ h := h.trans (.subWinSendSackPacketMsg v ack sack f first)

theorem AckStep.sackPeriodSend (u : UserInfo) : AckStep u u.sackPeriodSend :=
  (AckStep.writer u).sackPeriodSend (fun _ _ _ _ => trivial) (.refl u)

theorem TxOk.sackPeriodSend (h : TxOk u) : TxOk u.sackPeriodSend :=
  (AckStep.sackPeriodSend u).txOk h

end UserInfo

end Mpd

end AndroidVendor
