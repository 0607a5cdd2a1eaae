import AndroidVendor.Mpd.Fragments
import AndroidVendor.Mpd.LinkReport
import AndroidVendor.Mpd.LinkTx

/-!
# What a sender puts on the channel

A packet that goes out is on the channel with the position of its SSN, a long one as two parts at
consecutive positions. An acknowledgement of everything leaves nothing in the window.

## Main results

* `UserInfo.send_whole`, `UserInfo.send_split` — new data goes out
* `UserInfo.Stands.acknowledged` — an acknowledgement of everything
-/

namespace AndroidVendor

namespace Mpd

open TxWin

/-! ### The channel -/

theorem wire_eq (a : Action) : a.wire = a.queued.map fun q => q.2.1.slice 0 q.2.2 := by
  cases a with
  | send _ _ _ _ ok => cases ok <;> rfl
  | _ => rfl

theorem filterMap_wire (as : List Action) :
    as.filterMap Action.wire = (as.filterMap Action.queued).map fun q => q.2.1.slice 0 q.2.2 := by
  rw [List.map_filterMap]
  exact congrArg (List.filterMap · as) (funext wire_eq)

theorem lastPosition_of_le {x n : ℕ} (h : x ≤ n) (hn : n < x + 65536) :
    lastPosition n (x % 65536) = x := by
  rw [lastPosition, distanceSN_of_le h hn]
  omega

/-- A part on its way. -/
theorem Part.inTransit {m : Msg} {frag f dsn x n : ℕ} {bytes : List UInt8} {sent : ℕ → ℕ}
    (h : Part m frag f dsn (x % 65536) bytes) (hx : x ≤ n) (hn : n < x + 65536) (hsent : sent f = n) :
    (⟨(wireHeader m.data).stream, lastPosition (sent (wireHeader m.data).stream)
      (wireHeader m.data).ssn, m.data⟩ : InTransit) = ⟨f, x, m.data⟩ := by
  have hstream : (wireHeader m.data).stream = f := h.stream
  have hssn : (wireHeader m.data).ssn = x % 65536 := h.ssn
  rw [hstream, hssn, hsent, lastPosition_of_le hx hn]

/-- A part with data is not taken for an acknowledgement. -/
theorem Part.not_isAck {m : Msg} {frag f dsn ssn : ℕ} {bytes : List UInt8}
    (h : Part m frag f dsn ssn bytes) (hne : bytes ≠ []) : ¬ m.IsAck := by
  have hpos := List.length_pos_iff.mpr hne
  have hsize := h.size
  rw [Msg.IsAck, h.mpdHeadLen]
  omega

namespace UserInfo

variable {u v : UserInfo} {f len : ℕ} {count : ℕ → ℕ} {data m : Msg}

/-- A block a queue takes. -/
theorem sendBlock_wire {frag : ℕ} (h : u.Stands count) (hf : f < 3) (hfrag : frag < 3)
    (hlen : u16 len = data.data.length) (hhead : 12 ≤ data.data.length) (hok : u.sends 0 = true) :
    ∃ m as, (u.sendBlock f data len frag).2.out = u.out ++ as ∧ as.filterMap Action.wire = [m.data] ∧
      Part m frag f (u.txDataSn % 65536) (count f % 65536) (data.data.drop 12) := by
  obtain ⟨b, -, hs⟩ := h f
  obtain ⟨m, hout, hpart, -, -⟩ := sendBlock_part hs.toSpans hf hfrag data len
  refine ⟨m, _, by rw [hout, List.append_assoc], ?_, hpart⟩
  have hsize : m.data.length = u16 len := by
    rw [hpart.size, List.length_drop, hlen]
    omega
  rw [filterMap_wire, List.filterMap_append, (sent_evicted _ _ _).2, List.nil_append, hok]
  show [m.slice 0 (u16 len)] = _
  rw [← hsize, slice_all]

/-- The packet that went out last is in the window. -/
theorem sendBlock_holds (h : u.Stands count) (f : ℕ) (data : Msg) (len frag : ℕ) :
    ((u.sendBlock f data len frag).2.txWindow f).Holds (count f + 1) (count f) := by
  obtain ⟨b, -, hs⟩ := h f
  obtain ⟨-, -, -, -, -, -, -, -, -, hkept, -⟩ := sendBlock_acct hs data len frag rfl
  refine ⟨Nat.lt_succ_self _, by omega, ?_⟩
  rw [DataNode.kept] at hkept
  cases hdata : (((u.sendBlock f data len frag).2.txWindow f).dataNode (count f % 1024)).pData with
  | none =>
    rw [hdata] at hkept
    exact absurd hkept.symm (Multiset.singleton_ne_zero _)
  | some m => rfl

/-- One that is not the oldest of a full window stays there. -/
theorem sendBlock_keeps {x : ℕ} (h : u.Stands count) (hx : (u.txWindow f).Holds (count f) x)
    (hroom : count f < x + 1023) (data : Msg) (len frag : ℕ) :
    ((u.sendBlock f data len frag).2.txWindow f).Holds (count f + 1) x := by
  obtain ⟨b, -, hs⟩ := h f
  obtain ⟨hbx, -⟩ := hx.inside hs
  obtain ⟨hlt, -, hdata⟩ := hx
  obtain ⟨-, b', hb', -, -, -, -, -, -, -, hkeep⟩ := sendBlock_acct hs data len frag rfl
  have hbegin : b' ≤ x := by
    rw [hb']
    split <;> omega
  exact ⟨by omega, by omega, hkeep x hbegin hlt ▸ hdata⟩

/-- New data that fits into one packet. -/
theorem send_whole (h : u.Stands count) (hf : f < 3) (hlo : 12 ≤ data.data.length)
    (hhi : data.data.length < 1480) (hok : u.sends 0 = true)
    (hv : (u.doSendNewTransData (some f) data data.data.length).2 = v) :
    ∃ m as, v.out = u.out ++ as ∧ as.filterMap Action.wire = [m.data] ∧
      Part m 0 f (u.txDataSn % 65536) (count f % 65536) (data.data.drop 12) ∧
      v.Stands (Function.update count f (count f + 1)) ∧ v.txDataSn = u16 (u.txDataSn + 1) := by
  set u₀ : UserInfo := { u with lastPackageTime := u32 (u.time + 6000) } with hu₀
  have h₀ : u₀.Stands count := h.congr rfl
  have hblock : v = (u₀.sendBlock f data data.data.length 0).2 := by
    rw [← hv, doSendNewTransData, if_neg (by omega)]
    dsimp only
    rw [if_neg (by omega)]
  have hlen : u16 data.data.length = data.data.length := Nat.mod_eq_of_lt (by omega)
  obtain ⟨m, as, hout, hwire, hpart⟩ :=
    sendBlock_wire h₀ hf (show 0 < 3 by decide) hlen hlo (show u₀.sends 0 = true from hok)
  rw [hblock]
  exact ⟨m, as, hout, hwire, hpart, h₀.sendBlock f data _ 0, sendBlock_txDataSn ..⟩

/-- New data that goes out in two parts. -/
theorem send_split {a b : ℕ} (h : u.Stands count) (hf : f < 3) (hlo : 1480 ≤ data.data.length)
    (hhi : data.data.length < 65536) (ha : u.allocs 0 = some a) (hb : u.allocs 1 = some b)
    (hok : u.sends 0 = true) (hok' : u.sends 1 = true)
    (hv : (u.doSendNewTransData (some f) data data.data.length).2 = v) :
    ∃ first last as, v.out = u.out ++ as ∧ as.filterMap Action.wire = [first.data, last.data] ∧
      Part first 1 f (u.txDataSn % 65536) (count f % 65536) ((data.data.drop 12).take 1000) ∧
      Part last 2 f (u.txDataSn % 65536) ((count f + 1) % 65536) ((data.data.drop 12).drop 1000) ∧
      v.Stands (Function.update count f (count f + 2)) ∧
      (v.txWindow f).Holds (count f + 2) (count f) := by
  obtain ⟨first, last, u₁, hsplit, htx, hdsn, hsends, hout, -, -, hfirst, hlast⟩ :=
    splitDataMem_some (u := { u with lastPackageTime := u32 (u.time + 6000) }) ha hb hlo
  have h₁ : u₁.Stands count := h.congr htx
  have h₂ := h₁.sendBlock f first 1012 1
  have hheld := sendBlock_holds h₁ f first 1012 1
  obtain ⟨b, -, hs⟩ := h₁ f
  obtain ⟨m, m', as, hout', -, hqueued, hpart, hpart', -⟩ :=
    sendBlock_twice hs.toSpans hf first last 1012 (data.data.length - 1012 + 12)
  have hblocks : v = ({ (u₁.sendBlock f first 1012 1).2 with
      txDataSn := u16 ((u₁.sendBlock f first 1012 1).2.txDataSn + 65535) }.sendBlock f last
        (data.data.length - 1012 + 12) 2).2 := by
    rw [← hv, doSendNewTransData, if_neg (by omega)]
    simp only [if_pos hlo]
    rw [hsplit]
  rw [← hblocks] at hout'
  generalize hu₂ : ({ (u₁.sendBlock f first 1012 1).2 with
    txDataSn := u16 ((u₁.sendBlock f first 1012 1).2.txDataSn + 65535) } : UserInfo) = u₂ at hblocks
  have hcount : Function.update count f (count f + 1) f = count f + 1 := Function.update_self ..
  have h₃ : u₂.Stands (Function.update count f (count f + 1)) := h₂.congr (by rw [← hu₂])
  have hheld₃ : (u₂.txWindow f).Holds (Function.update count f (count f + 1) f) (count f) := by
    rw [hcount, ← hu₂]
    exact hheld
  have hkept := sendBlock_keeps h₃ hheld₃ (by omega) last (data.data.length - 1012 + 12) 2
  have hstands := h₃.sendBlock f last (data.data.length - 1012 + 12) 2
  rw [hcount] at hkept hstands
  rw [Function.update_idem] at hstands
  rw [← hblocks] at hkept hstands
  rw [hdsn, hfirst] at hpart
  rw [hdsn, hlast] at hpart'
  -- each of the two is as long as the queue was told
  have hsize : m.data.length = u16 1012 := by
    rw [hpart.size, List.length_take, List.length_drop, u16]
    omega
  have hsize' : m'.data.length = u16 (data.data.length - 1012 + 12) := by
    rw [hpart'.size, List.length_drop, List.length_drop, u16]
    omega
  refine ⟨m, m', .free data :: as, ?_, ?_, hpart, hpart', hstands, hkept⟩
  · rw [hout', hout, List.append_assoc]
    rfl
  · rw [List.filterMap_cons_none rfl, filterMap_wire,
      hqueued (hsends ▸ hok) (hsends ▸ hok')]
    show [m.slice 0 (u16 1012), m'.slice 0 (u16 (data.data.length - 1012 + 12))] = _
    rw [← hsize, ← hsize', slice_all, slice_all]

/-- An acknowledgement of everything leaves nothing in the window. -/
theorem Stands.acknowledged (h : u.Stands count) (hflag : m.header.flag = 0x55)
    (hvalid : schdGetFlowValid u m.header.stream = true) (hack : m.IsAck) (hsack : ¬ m.HasSack)
    (hall : m.header.ack = count m.header.stream % 65536) :
    ∃ v, u.doParseMPData m = some v ∧
      ∀ x, ¬ (v.txWindow m.header.stream).Holds (count m.header.stream) x := by
  obtain ⟨u₁, hw, -, heq⟩ := doParseMPData_ack hflag hvalid hack
  obtain ⟨b, -, hs⟩ := h m.header.stream
  rw [← hw] at hs
  have hfirst : m.firstSack = 1 := if_neg fun hboth => hsack hboth.2
  have hword : m.header.ack < 65536 := m.word_lt 6
  obtain ⟨v, b', hv, -, -, hrel, -, hto⟩ :=
    processACK_spec (A := fun _ => True) 1 hs.toSpans hword
  rw [hfirst, hv, Option.bind_some, if_neg hsack, Option.map_some] at heq
  refine ⟨_, heq, fun x hx => ?_⟩
  obtain ⟨hlt, hge, hdata⟩ := hx
  have hle := hs.le
  have hsize := hs.size
  have hstream : m.header.stream < 4 := Nat.mod_lt _ (by decide)
  have hend : b' = count m.header.stream := by
    rcases Nat.eq_or_lt_of_le hle with rfl | hlt
    · exact le_antisymm hrel.spans.le hrel.begin_le
    · exact hto (by omega) (by decide) _ hlt le_rfl hall.symm
  have hidle := hrel.spans.idle (x + 1024) hge (by omega)
  rw [Nat.add_mod_right] at hidle
  change ((v.txWindow m.header.stream).dataNode (x % 1024)).pData.isSome at hdata
  rw [hidle] at hdata
  cases hdata

end UserInfo

namespace Link

variable {L : Link} {v : UserInfo} {count : ℕ → ℕ}

/-- What went out while the sender became `v`. -/
theorem setSender_packets {as : List Action} (h : L.sender.Stands L.sent)
    (hcount : ∀ f, L.sent f ≤ count f ∧ count f < L.sent f + 65536) (hv : v.Stands count)
    (hout : v.out = L.sender.out ++ as) : (L.setSender v).packets =
      L.packets ++ onWire (fun h => lastPosition (count h.stream) h.ssn) as := by
  show L.packets ++ onWire (fun h => lastPosition ((L.setSender v).sent h.stream) h.ssn)
    (v.out.drop L.sender.out.length) = _
  rw [setSender_sent h hcount hv, hout, List.drop_left]

end Link

end Mpd

end AndroidVendor
