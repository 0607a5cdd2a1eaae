import AndroidVendor.Mpd.TxRun
import AndroidVendor.Mpd.WholePackets

/-!
# Fragments

A packet of 1480 bytes or more goes out in two parts. `Part` is what a part is when it leaves, and
what is left of it when it arrives: its header and the bytes behind. Two parts of one packet fill a
slot of the data window in either order, and the slot hands the packet over as it was.

The marks of the parts that are there are collected in `fragment`, so the slot must have none to
begin with. Slots that enter the window have none; the slot of a window that was taken for a cleared
one and moved to another place keeps what it had (`UserInfo.dataWinAnchor`), and then one part makes
the slot complete (`joined_old`).

## Main results

* `joined_put`, `Joined.headOut` — what a slot with two parts hands over
* `fragments_run` — from the transmit buffer to the transport, and what happens when the packet
  cannot be split
-/

namespace AndroidVendor

namespace Mpd

open TxWin

/-- What the transport is given. -/
def Action.slice : Action → Option (List UInt8)
  | .post _ _ m datalen offsize => some (m.posted datalen offsize)
  | .postMerged _ _ _ buffer datalen offsize => some (buffer.posted datalen offsize)
  | _ => none

/-- A packet that is handed to a subflow: the device, the buffer and the length. -/
def Action.sent : Action → Option (ℕ × Msg × ℕ)
  | .send deviceId m datalen _ _ => some (deviceId, m, datalen)
  | _ => none

/-- One that the queue of the subflow takes. -/
def Action.queued : Action → Option (ℕ × Msg × ℕ)
  | .send deviceId m datalen _ true => some (deviceId, m, datalen)
  | _ => none

/-- A part of a packet: its fragment mark, its subflow, its numbers, and the bytes behind a header
of twelve. -/
structure Part (m : Msg) (frag stream dsn ssn : ℕ) (bytes : List UInt8) : Prop where
  flag : m.header.flag = 0x55
  fragment : m.header.fragment = frag
  stream : m.header.stream = stream
  length : m.header.length = 3
  dsn : m.header.dsn = dsn
  ssn : m.header.ssn = ssn
  size : m.data.length = 12 + bytes.length
  bytes : m.data.drop 12 = bytes

section Slot

variable {n : RxDataWinNode} {first last m : Msg} {stream stream' dsn dsn' ssn ssn' : ℕ}
  {xs ys : List UInt8}

/-- The header is read off the bytes. -/
theorem Part.copy {m' : Msg} {frag : ℕ} (h : Part m frag stream dsn ssn xs) (hm : m'.data = m.data) :
    Part m' frag stream dsn ssn xs := by
  have hheader : m'.header = m.header := by
    simp only [Msg.header, Msg.word, Msg.byte, hm]
  refine ⟨?_, ?_, ?_, ?_, ?_, ?_, ?_, ?_⟩
  all_goals first
    | rw [hheader]
    | rw [hm]
  exacts [h.flag, h.fragment, h.stream, h.length, h.dsn, h.ssn, h.size, h.bytes]

theorem Part.mpdHeadLen {frag : ℕ} (h : Part m frag stream dsn ssn xs) : m.node.mpdHeadLen = 12 := by
  rw [Msg.node, h.length]

theorem Part.msgLen {frag : ℕ} (h : Part m frag stream dsn ssn xs) (hlen : 12 + xs.length < 65536) :
    m.node.msgLen = m.data.length := by
  have hsize := h.size
  rw [Msg.node]
  exact Nat.mod_eq_of_lt (by omega)

/-- A slot with both parts of a packet. -/
structure Joined (n : RxDataWinNode) (first last : Msg) (dsn : ℕ) (bytes : List UInt8) : Prop where
  status : n.status = .receiveComplete
  fragment : n.fragment = 3
  dsn : n.dsn = dsn
  ptr : n.msgPtr 0 = some first ∧ n.msgPtr 1 = some last
  len : n.mergedLen = 12 + bytes.length
  bytes : ∀ addr, (n.merge first last addr).posted n.mergedLen n.mpdHeadLen = bytes

/-- The bytes of two parts, put behind each other. -/
theorem merge_parts (hfirst : Part first 1 stream dsn ssn xs) (hlast : Part last 2 stream' dsn' ssn' ys)
    (hhead : n.mpdHeadLen = 12) (hlen₀ : n.msgLen 0 = first.data.length)
    (hlen₁ : n.msgLen 1 = last.data.length) (hsize : 12 + (xs ++ ys).length < 65536) (addr : ℕ) :
    n.mergedLen = 12 + (xs ++ ys).length ∧
      (n.merge first last addr).posted n.mergedLen n.mpdHeadLen = xs ++ ys := by
  have hx := hfirst.size
  have hy := hlast.size
  rw [List.length_append] at hsize ⊢
  have hmerged : n.mergedLen = 12 + (xs.length + ys.length) := by
    rw [RxDataWinNode.mergedLen, hhead, hlen₀, hlen₁]
    omega
  have hdata : (n.merge first last addr).data = first.data.take 12 ++ (xs ++ ys) := by
    rw [RxDataWinNode.merge, hhead, hlen₀, hlen₁]
    simp only []
    rw [Msg.slice_eq first (by omega), Msg.slice_eq first (by omega), Msg.slice_eq last (by omega),
      hfirst.bytes, hlast.bytes, List.drop_zero, List.take_of_length_le (l := xs) (by omega),
      List.take_of_length_le (l := ys) (by omega), List.append_assoc]
  refine ⟨hmerged, ?_⟩
  rw [Msg.posted, hdata, hmerged, hhead, List.take_of_length_le (by simp),
    List.drop_left' (by simp; omega)]

/-- The parts are stored in either order. -/
theorem joined_put (hfirst : Part first 1 stream dsn ssn xs) (hlast : Part last 2 stream dsn ssn' ys)
    (hsize : 12 + (xs ++ ys).length < 65536) (hempty : n.fragment = 0) (time time' : ℕ) :
    Joined ((n.put first.node time).put last.node time') first last dsn (xs ++ ys) ∧
      Joined ((n.put last.node time).put first.node time') first last dsn (xs ++ ys) := by
  have hf : first.node.fragment = 1 := hfirst.fragment
  have hl : last.node.fragment = 2 := hlast.fragment
  have hfi : first.node.fragIndex = 0 := by rw [MPDNodeInfo.fragIndex, hf]; rfl
  have hli : last.node.fragIndex = 1 := by rw [MPDNodeInfo.fragIndex, hl]; rfl
  have hlen : (xs ++ ys).length = xs.length + ys.length := List.length_append
  have hflen := hfirst.msgLen (by omega)
  have hllen := hlast.msgLen (by omega)
  have hff : (n.put first.node time).fragment = 1 := by
    rw [RxDataWinNode.put_fragment_alone (by omega) fun _ => .inl hempty, hf]
  have hlf : (n.put last.node time).fragment = 2 := by
    rw [RxDataWinNode.put_fragment_alone (by omega) fun _ => .inl hempty, hl]
  constructor
  · have hthree : ((n.put first.node time).put last.node time').fragment = 3 :=
      RxDataWinNode.put_fragment_join (by omega) (by omega) (.inl hff) (by omega)
    have hmerge := merge_parts (n := (n.put first.node time).put last.node time') hfirst hlast
      hlast.mpdHeadLen (by simp [RxDataWinNode.put, hfi, hli, hflen])
      (by simp [RxDataWinNode.put, hli, hllen]) hsize
    exact ⟨RxDataWinNode.put_status_of_whole (.inr hthree), hthree, hlast.dsn,
      ⟨by simp [RxDataWinNode.put, hfi, hli]; rfl, by simp [RxDataWinNode.put, hli]; rfl⟩,
      (hmerge 0).1, fun addr => (hmerge addr).2⟩
  · have hthree : ((n.put last.node time).put first.node time').fragment = 3 :=
      RxDataWinNode.put_fragment_join (by omega) (by omega) (.inr hlf) (by omega)
    have hmerge := merge_parts (n := (n.put last.node time).put first.node time') hfirst hlast
      hfirst.mpdHeadLen (by simp [RxDataWinNode.put, hfi, hflen])
      (by simp [RxDataWinNode.put, hfi, hli, hllen]) hsize
    exact ⟨RxDataWinNode.put_status_of_whole (.inr hthree), hthree, hfirst.dsn,
      ⟨by simp [RxDataWinNode.put, hfi]; rfl, by simp [RxDataWinNode.put, hfi, hli]; rfl⟩,
      (hmerge 0).1, fun addr => (hmerge addr).2⟩

/-- A slot with old marks: the first part of a packet is joined with what the slot has of an old
one. -/
theorem joined_old (hfirst : Part first 1 stream dsn ssn xs) (hold : Part last 2 stream' dsn' ssn' ys)
    (hsize : 12 + (xs ++ ys).length < 65536) (hmarks : n.fragment = 3)
    (hptr : n.msgPtr 1 = some last) (hlen : n.msgLen 1 = last.data.length) (time : ℕ) :
    Joined (n.put first.node time) first last dsn (xs ++ ys) := by
  have hf : first.node.fragment = 1 := hfirst.fragment
  have hfi : first.node.fragIndex = 0 := by rw [MPDNodeInfo.fragIndex, hf]; rfl
  have hlength : (xs ++ ys).length = xs.length + ys.length := List.length_append
  have hthree : (n.put first.node time).fragment = 3 := by
    simp only [RxDataWinNode.put, hf, hmarks]
    decide
  have hmerge := merge_parts (n := n.put first.node time) hfirst hold hfirst.mpdHeadLen
    (by simp [RxDataWinNode.put, hfi, hfirst.msgLen (by omega)])
    (by simp [RxDataWinNode.put, hfi, hlen]) hsize
  exact ⟨RxDataWinNode.put_status_of_whole (.inr hthree), hthree, hfirst.dsn,
    ⟨by simp [RxDataWinNode.put, hfi]; rfl, by simp [RxDataWinNode.put, hfi, hptr]⟩,
    (hmerge 0).1, fun addr => (hmerge addr).2⟩

/-- What the round of `MPD_DataWinRxBeginMove` hands over that finds such a slot at `RxBegin`: the
packet, if there is memory to put it together. -/
theorem Joined.headOut {w : UserInfo} (h : Joined w.rxDataWin.beginNode first last dsn xs) :
    w.rxDataWin.beginNode.Ready ∧ ∃ as, w.dataWinHeadOut.out = w.out ++ as ∧
      as.filterMap Action.slice = if (w.allocs 0).isSome then [xs] else [] := by
  refine ⟨.inl h.status, _, UserInfo.dataWinHeadOut_out w, ?_⟩
  have hfree : ∀ ms : List Msg, (ms.map Action.free).filterMap Action.slice = [] := fun ms =>
    List.filterMap_eq_nil_iff.mpr fun a ha => by
      obtain ⟨m, -, rfl⟩ := List.mem_map.mp ha
      rfl
  have hpost : ∀ mem : Option ℕ, (w.rxDataWin.beginNode.postMerged mem).filterMap Action.slice =
      if mem.isSome then [xs] else [] := by
    intro mem
    cases mem with
    | none => rfl
    | some addr =>
      simp only [RxDataWinNode.postMerged, h.ptr]
      exact congrArg (· :: []) (h.bytes addr)
  have hne : ¬ (3 : ℕ) = 0 := by decide
  rw [if_pos h.status, RxDataWinNode.passActions, h.fragment, if_neg hne, if_pos rfl,
    List.filterMap_append, List.filterMap_append, hfree, List.append_nil, hpost]
  exact List.append_nil _

end Slot

/-! ### Sending -/

theorem sent_releases (d : DataNode) (f : ℕ) :
    (d.releases f).filterMap Action.sent = [] ∧ (d.releases f).filterMap Action.queued = [] := by
  have hnone : ∀ a ∈ d.releases f, a.sent = none ∧ a.queued = none := by
    intro a ha
    rw [DataNode.releases] at ha
    split at ha
    · exact absurd ha List.not_mem_nil
    · obtain ⟨m, -, rfl⟩ := List.mem_map.mp ha
      rw [DataNode.release]
      split <;> exact ⟨rfl, rfl⟩
  exact ⟨List.filterMap_eq_nil_iff.mpr fun a ha => (hnone a ha).1,
    List.filterMap_eq_nil_iff.mpr fun a ha => (hnone a ha).2⟩

/-- The packet a full window gives up is not sent. -/
theorem sent_evicted (c : Prop) [Decidable c] (d : DataNode) (f : ℕ) :
    (if c then d.releases f else []).filterMap Action.sent = [] ∧
      (if c then d.releases f else []).filterMap Action.queued = [] := by
  split
  · exact sent_releases d f
  · exact ⟨rfl, rfl⟩

namespace UserInfo

variable {u : UserInfo} {f b n : ℕ} {data : Msg}

/-- A stamped buffer. -/
theorem fillMPDHeader_part (u : UserInfo) (data : Msg) {frag : ℕ} (hf : f < 3) (hfrag : frag < 3) :
    Part (u.fillMPDHeader f data frag).1 frag f (u.txDataSn % 65536)
        ((u.txWindow f).subflowSn % 65536) (data.data.drop 12) ∧
      (u.fillMPDHeader f data frag).1.addr = data.addr := by
  have hfrag' : frag % 4 = frag := Nat.mod_eq_of_lt (by omega)
  have hf' : f % 4 = f := Nat.mod_eq_of_lt (by omega)
  refine ⟨?_, rfl⟩
  rw [fillMPDHeader]
  refine ⟨?_, ?_, ?_, ?_, ?_, ?_, ?_, ?_⟩
  all_goals simp only [getSubFlowAck, header_encode, hfrag', hf']
  · rfl
  · rfl
  · simp only [List.length_append, MPDHeader.length_encode]
  · exact List.drop_left' (MPDHeader.length_encode _ _)

theorem freeTxBeginData_kept (u : UserInfo) (f : ℕ) :
    (u.freeTxBeginData f).txDataSn = u.txDataSn ∧ (u.freeTxBeginData f).sends = u.sends := by
  rw [freeTxBeginData]
  dsimp only
  split
  · exact ⟨rfl, rfl⟩
  · split <;> exact ⟨rfl, rfl⟩

theorem putDataToTxWin_kept (u : UserInfo) (f : ℕ) (data : Msg) (len : ℕ) :
    (u.putDataToTxWin f data len).2.txDataSn = u.txDataSn ∧
      (u.putDataToTxWin f data len).2.sends = u.sends := by
  rw [putDataToTxWin]
  dsimp only [UserInfo.setTxWindow]
  rw [txNextInc]
  dsimp only [UserInfo.setTxWindow]
  split
  · rw [txBeginInc]
    exact freeTxBeginData_kept _ _
  · exact ⟨rfl, rfl⟩

theorem callMPCToSend_txDataSn (u : UserInfo) (f i : ℕ) :
    (u.callMPCToSend f i).2.txDataSn = u.txDataSn := by
  rw [callMPCToSend]
  dsimp only [UserInfo.setTxWindow]
  split
  · rfl
  · split <;> rfl

/-- A packet that is handed over uses up one answer of the queues. -/
theorem callMPCToSend_answer {i : ℕ} {m : Msg} (hm : ((u.txWindow f).dataNode i).pData = some m) :
    (u.callMPCToSend f i).2.out = u.out ++
        [.send (getDeviceId f) m ((u.txWindow f).dataNode i).payloadLen false (u.sends 0)] ∧
      (u.callMPCToSend f i).2.sends = fun n => u.sends (n + 1) := by
  rw [callMPCToSend]
  dsimp only [UserInfo.setTxWindow, onSendMPDataComplete]
  rw [hm]
  dsimp only
  split <;> exact ⟨rfl, rfl⟩

/-- Every block that is sent uses up one DSN. -/
theorem sendBlock_txDataSn (u : UserInfo) (f : ℕ) (data : Msg) (len frag : ℕ) :
    (u.sendBlock f data len frag).2.txDataSn = u16 (u.txDataSn + 1) := by
  rw [sendBlock]
  dsimp only
  rw [callMPCToSend_txDataSn, (putDataToTxWin_kept _ _ _ _).1]
  rfl

/-- The last thing asked for is to send the block, and the next answer of the queues is its own. -/
theorem sendBlock_answer (h : Spans (u.txWindow f) b n) (data : Msg) (len frag : ℕ) :
    (∃ as m l, (u.sendBlock f data len frag).2.out =
        as ++ [.send (getDeviceId f) m l false (u.sends 0)]) ∧
      (u.sendBlock f data len frag).2.sends = fun n => u.sends (n + 1) := by
  obtain ⟨hssn, -, hwin, -⟩ := fillMPDHeader_spec u f data frag
  have hsends : (u.fillMPDHeader f data frag).2.sends = u.sends := rfl
  rw [sendBlock]
  generalize u.fillMPDHeader f data frag = r at *
  obtain ⟨data', u₁⟩ := r
  dsimp only at hssn hwin hsends ⊢
  have hsn : u16 ((u.txWindow f).subflowSn + 1) = (n + 1) % 65536 := by
    rw [h.sn_eq, u16]
    omega
  have hw₁ : u₁.txWindow f = { u.txWindow f with subflowSn := (n + 1) % 65536 } := by
    rw [hwin, hsn, Function.update_self]
  have hssn' : data'.header.ssn = n % 65536 := by
    rw [hssn, h.sn_eq]
    omega
  obtain ⟨hidx, -, -, _, -, -, hdata, -⟩ := putDataToTxWin_spec len h hw₁ hssn'
  have hkept := (putDataToTxWin_kept u₁ f data' len).2
  generalize u₁.putDataToTxWin f data' len = r₂ at *
  obtain ⟨index, u₂⟩ := r₂
  dsimp only at hidx hdata hkept ⊢
  rw [← hidx] at hdata
  obtain ⟨hout, hnext⟩ := callMPCToSend_answer hdata
  rw [hkept, hsends] at hout hnext
  exact ⟨⟨_, _, _, hout⟩, hnext⟩

/-- The header of a block that is sent. -/
theorem sendBlock_part {frag : ℕ} (h : Spans (u.txWindow f) b n) (hf : f < 3) (hfrag : frag < 3)
    (data : Msg) (len : ℕ) :
    ∃ m, (u.sendBlock f data len frag).2.out =
        u.out ++ (if n + 1 = b + 1024 then (u.txWindow f).beginNode.releases f else []) ++
          [.send (getDeviceId f) m (u16 len) false (u.sends 0)] ∧
      Part m frag f (u.txDataSn % 65536) (n % 65536) (data.data.drop 12) ∧ m.addr = data.addr ∧
      ∃ b', Spans ((u.sendBlock f data len frag).2.txWindow f) b' (n + 1) := by
  obtain ⟨-, ⟨ok, hout⟩, b', -, hs, -⟩ := sendBlock_spec h data len frag
  obtain ⟨⟨as, m, l, hlast⟩, -⟩ := sendBlock_answer h data len frag
  obtain ⟨hpart, haddr⟩ := fillMPDHeader_part u data hf hfrag
  have hok : ok = u.sends 0 := by
    have hsend := List.singleton_inj.mp (List.append_inj_right' (hout.symm.trans hlast) rfl)
    exact (Action.send.inj hsend).2.2.2.2
  rw [h.sn_eq, Nat.mod_mod] at hpart
  exact ⟨_, hok ▸ hout, hpart, haddr, b', hs⟩

/-- Two blocks that are sent with one DSN. -/
theorem sendBlock_twice (h : Spans (u.txWindow f) b n) (hf : f < 3) (first last : Msg) (len len' : ℕ) :
    ∃ m m' as,
      ({ (u.sendBlock f first len 1).2 with
        txDataSn := u16 ((u.sendBlock f first len 1).2.txDataSn + 65535) }.sendBlock f last len' 2).2.out =
          u.out ++ as ∧
      as.filterMap Action.sent = [(getDeviceId f, m, u16 len), (getDeviceId f, m', u16 len')] ∧
      (u.sends 0 = true → u.sends 1 = true → as.filterMap Action.queued =
        [(getDeviceId f, m, u16 len), (getDeviceId f, m', u16 len')]) ∧
      Part m 1 f (u.txDataSn % 65536) (n % 65536) (first.data.drop 12) ∧
      Part m' 2 f (u.txDataSn % 65536) ((n + 1) % 65536) (last.data.drop 12) ∧
      m.addr = first.addr ∧ m'.addr = last.addr := by
  obtain ⟨m, hout, hpart, haddr, b', hs⟩ := sendBlock_part h hf (by decide : 1 < 3) first len
  have hdsn := sendBlock_txDataSn u f first len 1
  have hsends := (sendBlock_answer h first len 1).2
  generalize (u.sendBlock f first len 1).2 = u₂ at hout hs hdsn hsends ⊢
  have hsame : u16 (u₂.txDataSn + 65535) % 65536 = u.txDataSn % 65536 := by
    rw [hdsn, u16, u16]
    omega
  generalize hv : ({ u₂ with txDataSn := u16 (u₂.txDataSn + 65535) } : UserInfo) = v
  have htx : v.txWindow = u₂.txWindow := by rw [← hv]
  have hvdsn : v.txDataSn = u16 (u₂.txDataSn + 65535) := by rw [← hv]
  have hvout : v.out = u₂.out := by rw [← hv]
  have hvsends : v.sends 0 = u.sends 1 := by rw [← hv, hsends]
  obtain ⟨m', hout', hpart', haddr', -⟩ :=
    sendBlock_part (htx ▸ hs) hf (by decide : 2 < 3) last len'
  rw [hvdsn, hsame] at hpart'
  rw [hvout, hout, hvsends] at hout'
  simp only [List.append_assoc] at hout'
  refine ⟨m, m', _, hout', ?_, fun hfirst hlast => ?_, hpart, hpart', haddr, haddr'⟩
  · simp only [List.filterMap_append, (sent_evicted _ _ _).1, List.nil_append]
    rfl
  · rw [hfirst, hlast]
    simp only [List.filterMap_append, (sent_evicted _ _ _).2, List.nil_append]
    rfl

/-- The two buffers of a split packet hold its bytes up to 1012 and from there on. -/
theorem splitDataMem_some {a b : ℕ} (ha : u.allocs 0 = some a) (hb : u.allocs 1 = some b)
    (hlen : 1480 ≤ data.data.length) :
    ∃ (first last : Msg) (u' : UserInfo),
      u.splitDataMem data data.data.length = (some ⟨first, last⟩, u') ∧
      u'.txWindow = u.txWindow ∧ u'.txDataSn = u.txDataSn ∧ u'.sends = u.sends ∧
      u'.out = u.out ++ [.free data] ∧ first.addr = a ∧ last.addr = b ∧
      first.data.drop 12 = (data.data.drop 12).take 1000 ∧
        last.data.drop 12 = (data.data.drop 12).drop 1000 := by
  refine ⟨⟨a, data.slice 0 1012⟩,
    ⟨b, List.replicate 12 0 ++ data.slice 1012 (data.data.length - 1012)⟩,
    { u with out := u.out ++ [.free data], allocs := fun n => u.allocs (n + 2) },
    ?_, rfl, rfl, rfl, rfl, rfl, rfl, ?_, ?_⟩
  · rw [splitDataMem, if_neg (by omega)]
    simp only [msgMemCreat, ha, hb, UserInfo.emit]
  · dsimp only
    rw [Msg.slice_eq data (by omega), List.drop_zero, List.drop_take]
  · dsimp only
    rw [List.drop_left' List.length_replicate, Msg.slice_eq data (by omega), List.drop_drop,
      List.take_of_length_le (by simp)]

/-- A packet that cannot be split is left alone; a first buffer is given back. -/
theorem splitDataMem_none (h : u.allocs 0 = none ∨ u.allocs 1 = none)
    (hlen : 1480 ≤ data.data.length) :
    ∃ u', u.splitDataMem data data.data.length = (none, u') ∧ u'.txWindow = u.txWindow ∧
      u'.txDataSn = u.txDataSn ∧
      u'.out = u.out ++ (u.allocs 0).toList.map fun a => .free ⟨a, data.slice 0 1012⟩ := by
  rw [splitDataMem, if_neg (by omega)]
  cases ha : u.allocs 0 with
  | none =>
    simp only [msgMemCreat, ha]
    exact ⟨_, rfl, rfl, rfl, (List.append_nil _).symm⟩
  | some a =>
    have hb : u.allocs 1 = none := h.resolve_left (by simp [ha])
    simp only [msgMemCreat, ha, hb]
    exact ⟨_, rfl, rfl, rfl, rfl⟩

end UserInfo

/-! ### From buffer to transport -/

/-- However copies of the parts arrive and are stored into a slot without marks, one in either order
and then the other: when the slot comes to the head of the data window, it is ready, and the round that
finds it there hands `bytes` over, unless there is no memory to put them together. -/
def Delivers (first last : Msg) (bytes : List UInt8) : Prop :=
  ∀ (v₁ v₂ w : UserInfo) (i : ℕ) (a b : Msg),
    (a.data = first.data ∧ b.data = last.data) ∨ (a.data = last.data ∧ b.data = first.data) →
    (v₁.rxDataWin.win i).fragment = 0 →
    v₂.rxDataWin.win i = (v₁.dataWinPutInNode i a.node).rxDataWin.win i →
    w.rxDataWin.win i = (v₂.dataWinPutInNode i b.node).rxDataWin.win i → w.rxDataWin.rxBegin = i →
    w.rxDataWin.beginNode.Ready ∧ ∃ as, w.dataWinHeadOut.out = w.out ++ as ∧
      as.filterMap Action.slice = if (w.allocs 0).isSome then [bytes] else []

theorem dataWinPutInNode_begin (u : UserInfo) (i : ℕ) (node : MPDNodeInfo) :
    (u.dataWinPutInNode i node).rxDataWin.rxBegin = u.rxDataWin.rxBegin ∧
      (u.dataWinPutInNode i node).allocs = u.allocs := by
  rw [UserInfo.dataWinPutInNode]
  split <;> exact ⟨rfl, rfl⟩

theorem delivers_parts {first last : Msg} {stream dsn ssn ssn' : ℕ} {xs ys : List UInt8}
    (hfirst : Part first 1 stream dsn ssn xs) (hlast : Part last 2 stream dsn ssn' ys)
    (hsize : 12 + (xs ++ ys).length < 65536) : Delivers first last (xs ++ ys) := by
  intro v₁ v₂ w i a b hab hempty h₂ hw hbegin
  have hslot : w.rxDataWin.beginNode = ((v₁.rxDataWin.win i).put a.node v₁.time).put b.node v₂.time := by
    rw [RxDataWin.beginNode, hbegin, hw, UserInfo.dataWinPutInNode_win, h₂,
      UserInfo.dataWinPutInNode_win]
  rcases hab with ⟨ha, hb⟩ | ⟨ha, hb⟩
  · have hjoined := (joined_put (hfirst.copy ha) (hlast.copy hb) hsize hempty v₁.time v₂.time).1
    rw [← hslot] at hjoined
    exact hjoined.headOut
  · have hjoined := (joined_put (hfirst.copy hb) (hlast.copy ha) hsize hempty v₁.time v₂.time).2
    rw [← hslot] at hjoined
    exact hjoined.headOut

namespace UserInfo

variable {u : UserInfo} {f b n : ℕ} {data : Msg}

/-- A long packet that can be split is sent in two parts, which deliver it. -/
theorem doSendNewTransData_split {a c : ℕ} (hs : Spans (u.txWindow f) b n) (hf : f < 3)
    (hlo : 1480 ≤ data.data.length) (hhi : data.data.length < 65536) (ha : u.allocs 0 = some a)
    (hc : u.allocs 1 = some c) :
    ∃ first last as,
      (u.doSendNewTransData (some f) data data.data.length).2.out = u.out ++ .free data :: as ∧
      as.filterMap Action.sent = [(getDeviceId f, first, 1012),
        (getDeviceId f, last, data.data.length - 1000)] ∧
      Part first 1 f (u.txDataSn % 65536) (n % 65536) ((data.data.drop 12).take 1000) ∧
      Part last 2 f (u.txDataSn % 65536) ((n + 1) % 65536) ((data.data.drop 12).drop 1000) ∧
      first.addr = a ∧ last.addr = c ∧ Delivers first last (data.data.drop 12) := by
  have hdrop : (data.data.drop 12).length = data.data.length - 12 := List.length_drop
  obtain ⟨first, last, v, hsplit, htx, hdsn, -, hout, hfa, hla, hfd, hld⟩ :=
    splitDataMem_some (u := { u with lastPackageTime := u32 (u.time + 6000) }) ha hc hlo
  have hsv : Spans (v.txWindow f) b n := by
    rw [htx]
    exact hs
  obtain ⟨m, m', as, hout', hsent, -, hpart, hpart', haddr, haddr'⟩ :=
    sendBlock_twice hsv hf first last 1012 (data.data.length - 1012 + 12)
  have hlen : u16 (data.data.length - 1012 + 12) = data.data.length - 1000 := by
    rw [u16]
    omega
  rw [hlen] at hsent
  have hjoin : first.data.drop 12 ++ last.data.drop 12 = data.data.drop 12 := by
    rw [hfd, hld, List.take_append_drop]
  rw [doSendNewTransData, if_neg (by omega)]
  simp only [if_pos hlo]
  rw [hsplit]
  dsimp only
  refine ⟨m, m', as, ?_, hsent, ?_, ?_, haddr.trans hfa, haddr'.trans hla, ?_⟩
  · rw [hout', hout, List.append_assoc]
    rfl
  · rw [← hfd, ← hdsn]
    exact hpart
  · rw [← hld, ← hdsn]
    exact hpart'
  · rw [← hjoin]
    refine delivers_parts hpart hpart' ?_
    rw [hjoin, hdrop]
    omega

/-- A long packet that cannot be split is sent as it is. -/
theorem doSendNewTransData_whole (hs : Spans (u.txWindow f) b n) (hf : f < 3)
    (hlo : 1480 ≤ data.data.length) (hhi : data.data.length < 65536)
    (hnone : u.allocs 0 = none ∨ u.allocs 1 = none) :
    ∃ m ok, (u.doSendNewTransData (some f) data data.data.length).2.out =
        u.out ++ ((u.allocs 0).toList.map fun a => .free ⟨a, data.slice 0 1012⟩) ++
          (if (u.txWindow f).span = 1023 then (u.txWindow f).beginNode.releases f else []) ++
            [.send (getDeviceId f) m data.data.length false ok] ∧
      Part m 0 f (u.txDataSn % 65536) (n % 65536) (data.data.drop 12) ∧ m.addr = data.addr := by
  obtain ⟨v, hsplit, htx, hdsn, hout⟩ :=
    splitDataMem_none (u := { u with lastPackageTime := u32 (u.time + 6000) }) hnone hlo
  have hsv : Spans (v.txWindow f) b n := by
    rw [htx]
    exact hs
  obtain ⟨m, hout', hpart, haddr, -⟩ :=
    sendBlock_part hsv hf (by decide : 0 < 3) data data.data.length
  have hfull : (u.txWindow f).span = 1023 ↔ n + 1 = b + 1024 := by
    have hle := hs.le
    rw [hs.span_eq]
    omega
  have hlen : u16 data.data.length = data.data.length := Nat.mod_eq_of_lt hhi
  rw [hlen, hout, htx] at hout'
  rw [doSendNewTransData, if_neg (by omega)]
  simp only [if_pos hlo]
  rw [hsplit]
  dsimp only
  refine ⟨m, v.sends 0, ?_, ?_, haddr⟩
  · simp only [hfull]
    exact hout'
  · rw [← hdsn]
    exact hpart

end UserInfo

/-- **From the transmit buffer to the transport.** In every session that a run reaches: a packet of
1480 bytes or more that can be split goes out in two parts, which carry one DSN and consecutive SSNs
and deliver the bytes behind the header of the packet. One that cannot be split is not freed and
goes out as it is. -/
theorem fragments_run (u₀ u : UserInfo) (ops : List Op) (h₀ : ∀ f, u₀.txWindow f = {})
    (hrun : Machine.run Op.step ops u₀ = some u) (f : Fin 3) (data : Msg)
    (hlo : 1480 ≤ data.data.length) (hhi : data.data.length < 65536) :
    let w := u.txWindow f
    let u' := (u.doSendNewTransData (some f) data data.data.length).2
    (∀ a b, u.allocs 0 = some a → u.allocs 1 = some b → ∃ first last as,
      u'.out = u.out ++ .free data :: as ∧
      as.filterMap Action.sent = [(getDeviceId f, first, 1012),
        (getDeviceId f, last, data.data.length - 1000)] ∧
      Part first 1 f (u.txDataSn % 65536) w.subflowSn ((data.data.drop 12).take 1000) ∧
      Part last 2 f (u.txDataSn % 65536) ((w.subflowSn + 1) % 65536) ((data.data.drop 12).drop 1000) ∧
      first.addr = a ∧ last.addr = b ∧ Delivers first last (data.data.drop 12)) ∧
    (u.allocs 0 = none ∨ u.allocs 1 = none → ∃ m ok,
      u'.out = u.out ++ ((u.allocs 0).toList.map fun a => .free ⟨a, data.slice 0 1012⟩) ++
        (if w.span = 1023 then w.beginNode.releases f else []) ++
          [.send (getDeviceId f) m data.data.length false ok] ∧
      Part m 0 f (u.txDataSn % 65536) w.subflowSn (data.data.drop 12) ∧ m.addr = data.addr) := by
  have hok : UserInfo.TxOk u := by
    refine Machine.run_inv (fun op s s' hs hstep => UserInfo.TxOk.step hs hstep) (fun f => ?_) hrun
    rw [h₀ f]
    exact ⟨0, 0, spans_clear⟩
  obtain ⟨b, n, hs⟩ := hok f
  dsimp only
  rw [hs.sn_eq, Nat.mod_add_mod]
  constructor
  · intro a c ha hc
    exact UserInfo.doSendNewTransData_split hs f.isLt hlo hhi ha hc
  · intro hnone
    exact UserInfo.doSendNewTransData_whole hs f.isLt hlo hhi hnone

/-- A packet of 1480 bytes. -/
def longPacket : Msg := ⟨7, .replicate 1480 1⟩

theorem length_longPacket : longPacket.data.length = 1480 := List.length_replicate

/-- It is sent by a new session. -/
theorem fragments_run_new : ∃ first last as,
    (({} : UserInfo).doSendNewTransData (some (0 : Fin 3)) longPacket longPacket.data.length).2.out =
      [] ++ .free longPacket :: as ∧
    as.filterMap Action.sent = [(getDeviceId (0 : Fin 3), first, 1012),
      (getDeviceId (0 : Fin 3), last, longPacket.data.length - 1000)] ∧
      Delivers first last (longPacket.data.drop 12) := by
  have hlo : 1480 ≤ longPacket.data.length := length_longPacket.ge
  have hhi : longPacket.data.length < 65536 := length_longPacket.trans_lt (by decide)
  obtain ⟨first, last, as, hout, hsent, -, -, -, -, hdel⟩ :=
    (fragments_run {} {} [] (fun _ => rfl) rfl 0 longPacket hlo hhi).1 0 1 rfl rfl
  exact ⟨first, last, as, hout, hsent, hdel⟩

/-- The second part of an old packet. -/
def oldPart : Msg :=
  ⟨9, MPDHeader.encode ⟨0x55, 2, 0, 3, 0, 1, 0⟩ 0 ++ .replicate 468 2⟩

/-- A slot as a packet in two parts leaves it. -/
def oldSlot : RxDataWinNode where
  status := .receiveComplete
  fragment := 3
  mpdHeadLen := 12
  msgLen := fun _ => oldPart.data.length
  msgPtr := fun _ => some oldPart

theorem part_oldPart : Part oldPart 2 0 0 1 (.replicate 468 2) := by
  have hlen : (MPDHeader.encode ⟨0x55, 2, 0, 3, 0, 1, 0⟩ 0).length = 12 := MPDHeader.length_encode _ _
  have hhead : oldPart.header = ⟨0x55, 2, 0, 3, 0, 1, 0⟩ := header_encode _ _ _ _
  refine ⟨?_, ?_, ?_, ?_, ?_, ?_, ?_, List.drop_left' hlen⟩
  on_goal 7 => rw [oldPart, List.length_append, hlen]
  all_goals rw [hhead]

/-- A receiver without memory for the whole packet drops it: the two parts are stored and ready, and
nothing is handed over. And a slot with the marks of an old packet is ready when the first part is
stored, and hands that over with the rest of the old packet. -/
theorem fragments_spoilt : ∃ first last as,
    (({} : UserInfo).doSendNewTransData (some 0) longPacket longPacket.data.length).2.out =
      [] ++ .free longPacket :: as ∧
    as.filterMap Action.sent = [(getDeviceId 0, first, 1012),
      (getDeviceId 0, last, longPacket.data.length - 1000)] ∧
    (let v : UserInfo := { allocs := fun _ => none }
      let w := (v.dataWinPutInNode 0 first.node).dataWinPutInNode 0 last.node
      w.rxDataWin.beginNode.Ready ∧ ∃ bs, w.dataWinHeadOut.out = w.out ++ bs ∧
        bs.filterMap Action.slice = []) ∧
    let v : UserInfo := { rxDataWin := { win := fun _ => oldSlot } }
    let w := v.dataWinPutInNode 0 first.node
    w.rxDataWin.beginNode.Ready ∧ ∃ bs, w.dataWinHeadOut.out = w.out ++ bs ∧
      bs.filterMap Action.slice = [(longPacket.data.drop 12).take 1000 ++ .replicate 468 2] ∧
      bs.filterMap Action.slice ≠ [longPacket.data.drop 12] := by
  have hlo : 1480 ≤ longPacket.data.length := length_longPacket.ge
  have hhi : longPacket.data.length < 65536 := length_longPacket.trans_lt (by decide)
  obtain ⟨first, last, as, hout, hsent, hpart, -, -, -, hdel⟩ :=
    UserInfo.doSendNewTransData_split (u := {}) (f := 0) spans_clear (by decide) hlo hhi rfl rfl
  refine ⟨first, last, as, hout, hsent, ?_, ?_⟩
  · have hput := dataWinPutInNode_begin
    obtain ⟨hready, bs, hbs, hslice⟩ := hdel { allocs := fun _ => none } _
      ((({ allocs := fun _ => none } : UserInfo).dataWinPutInNode 0 first.node).dataWinPutInNode 0
        last.node)
      0 first last (.inl ⟨rfl, rfl⟩) rfl rfl rfl (by rw [(hput _ _ _).1, (hput _ _ _).1])
    rw [(hput _ _ _).2, (hput _ _ _).2] at hslice
    exact ⟨hready, bs, hbs, hslice⟩
  · have hput := dataWinPutInNode_begin { rxDataWin := { win := fun _ => oldSlot } } 0 first.node
    have hjoined := joined_old (n := oldSlot) hpart part_oldPart (by
      rw [List.length_append, List.length_take, List.length_drop, length_longPacket,
        List.length_replicate]
      decide) rfl rfl rfl 0
    have hslot : (({ rxDataWin := { win := fun _ => oldSlot } } : UserInfo).dataWinPutInNode 0
        first.node).rxDataWin.beginNode = oldSlot.put first.node 0 := by
      rw [RxDataWin.beginNode, hput.1, UserInfo.dataWinPutInNode_win]
    rw [← hslot] at hjoined
    obtain ⟨hready, bs, hbs, hslice⟩ := hjoined.headOut
    rw [hput.2] at hslice
    replace hslice := hslice.trans (if_pos rfl)
    refine ⟨hready, bs, hbs, hslice, ?_⟩
    rw [hslice]
    decide +kernel

end Mpd

end AndroidVendor
