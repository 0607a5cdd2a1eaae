import AndroidVendor.Mpd.LinkReport
import AndroidVendor.Mpd.LinkTx
import AndroidVendor.Mpd.ResendTurn

/-!
# Release safety

The two ends of a link keep their invariants whatever the other end and the channel do, and between
them nothing is assumed but what the reports promise. A report that arrives makes the sender give up
what it acknowledges and what lies in its blocks; as long as it is less than half a turn old, these
are the positions it promised.

## Main results

* `Link.Settled` — the joint invariant
* `link_run` — in every run whose steps are tame the sender gives up what it is entitled to
-/

namespace AndroidVendor

namespace Mpd

open Machine UserInfo

namespace Link

variable {L L' : Link} {e : Answers} {u v : UserInfo} {R : RxRecord} {r p : InTransit}

/-- Both ends and everything that is on its way. -/
structure Settled (L : Link) : Prop where
  rx : L.RxSettled
  tx : L.TxSettled
  rxTx : L.receiver.TxOk
  promises : ∀ r ∈ L.reports, Promise L.record L.receiver.out r.flow r.pos ⟨0, r.data⟩
  safe : L.Safe

/-! ### The beginning -/

theorem rests_clear : RxSubWin.Rests {} 65536 65536 where
  begin_eq := rfl
  next_eq := rfl
  le := le_rfl
  size := by omega
  num x hb hn := by
    obtain rfl : x = 65536 := le_antisymm hn hb
    rfl
  plain _ _ _ h := by cases h
  next_un h := by cases h
  begin_un h := by cases h

theorem shape_start : TxWin.Shape {} 65536 65536 where
  begin_eq := rfl
  next_eq := rfl
  sn_eq := rfl
  le := le_rfl
  size := by omega
  num x hb hn := by
    obtain rfl : x = 65536 := le_antisymm hn hb
    rfl
  sound _ := TxWin.sound_default
  idle _ _ _ := rfl
  blank _ _ _ := rfl
  last _ h := by cases h

theorem settled_start (s r : UserInfo) : (start s r).Settled where
  rx := by
    have hspan : ({} : RxSubWin).span = 0 := by decide
    refine ⟨fun i => .wiped _ _ 0, fun f => ?_⟩
    have hnext : (start s r).next f = 65536 := by
      rw [next, show (start s r).receiver.rxSubWin f = {} from rfl, hspan]
      rfl
    rw [hnext]
    exact ⟨rests_clear, le_rfl, le_rfl, Nat.lt_add_of_pos_left (Nat.succ_pos _), .inl rfl,
      fun x hb hn => absurd hb hn.not_ge, fun x hb hn => absurd hb hn.not_ge, 65536, rfl, le_rfl,
      by omega, .inl rfl⟩
  tx := ⟨fun f => ⟨65536, le_rfl, shape_start⟩, fun p hp => absurd hp List.not_mem_nil⟩
  rxTx _ := ⟨0, 0, TxWin.spans_clear⟩
  promises _ hr := absurd hr List.not_mem_nil
  safe _ hr := absurd hr List.not_mem_nil

/-! ### One end at a time -/

/-- The sender has done something of its own. -/
theorem Settled.setSender {count : ℕ → ℕ} (h : L.Settled)
    (hcount : ∀ f, L.sent f ≤ count f ∧ count f < L.sent f + 65536) (hv : v.Stands count) :
    (L.setSender v).Settled :=
  ⟨⟨h.rx.slots, h.rx.subs⟩, h.tx.setSender hcount hv, h.rxTx, h.promises, h.safe⟩

/-- The receiver has done something. -/
theorem Settled.setReceiver (h : L.Settled)
    (hrx : ({ L.setReceiver v with record := R } : Link).RxSettled) (htx : v.TxOk)
    (hg : RxRecord.Grows L.record L.receiver.out R v.out) :
    ({ L.setReceiver v with record := R } : Link).Settled :=
  ⟨hrx, ⟨h.tx.windows, h.tx.packets⟩, htx, fun r hr => (h.promises r hr).mono hg,
    fun r hr => hg.covered (h.safe r hr)⟩

/-- The receiver has done something in which no packet arrives. -/
theorem Settled.quiet (h : L.Settled) (hrx : (L.setReceiver v).RxSettled)
    (htx : v.txWindow = L.receiver.txWindow) (hout : ∃ as, v.out = L.receiver.out ++ as) :
    (L.setReceiver v).Settled := by
  obtain ⟨as, hout⟩ := hout
  refine h.setReceiver (R := L.record) hrx (h.rxTx.congr htx) ?_
  rw [hout]
  exact .emit ..

/-- A packet arrives. -/
theorem Settled.deliver (h : L.Settled) (hp : p ∈ L.packets)
    (hnear : p.pos < L.front p.flow + 32768 ∧ L.next p.flow < p.pos + 32768)
    (hadm : L.Admits p e) (hmem : ∀ k, (e.allocs k).isSome) (hd : L.deliver p e = some L') :
    L'.Settled := by
  obtain ⟨hflow, hpos⟩ := h.tx.packets p hp
  have hrx := h.rx.deliver h.rxTx hflow hpos hnear hadm hmem hd
  obtain ⟨v, hv, rfl⟩ := Option.map_eq_some_iff.mp hd
  have htx : (L.receiver.facing e).TxOk := h.rxTx.congr rfl
  refine h.setReceiver hrx (htx.doParseMPData hv) ?_
  have hout : ∃ as, v.out = L.receiver.out ++ as := by
    obtain ⟨s, hs, hcases⟩ := doParseMPData_cases (B := fun _ => True) htx (fun _ _ => trivial) hv
    obtain ⟨as, has, -⟩ := hs.out
    rcases hcases with rfl | ⟨-, -, hdata⟩
    · exact ⟨as ++ [.free (L.received p)], by rw [← List.append_assoc, emit, has]; rfl⟩
    · obtain ⟨bs, hbs, -⟩ := ((rxAside_free s).parseData (.refl s) hdata).out
      exact ⟨as ++ bs, by rw [hbs, has, List.append_assoc]; rfl⟩
  obtain ⟨as, has⟩ := hout
  have hgrow := L.grows_recorded p e
  rw [has]
  exact ⟨hgrow.arrived, hgrow.accepted, List.subset_append_left ..⟩

/-- The receiver writes reports. -/
theorem Settled.askForAcks (h : L.Settled) (e : Answers) : (L.askForAcks e).Settled := by
  have hside := txSide_sackPeriodSend (F := fun _ => True) (B := fun _ => True)
    (u := L.receiver.facing e) fun _ _ => trivial
  have htx : (L.receiver.facing e).TxOk := h.rxTx.congr rfl
  obtain ⟨as, has, -⟩ := hside.out
  have hgrow : RxRecord.Grows L.record L.receiver.out L.record
      (L.receiver.facing e).sackPeriodSend.out := by
    rw [has]
    exact .emit ..
  have hset := h.setReceiver (R := L.record) h.rx.sackPeriodSend htx.sackPeriodSend hgrow
  refine ⟨⟨hset.rx.slots, hset.rx.subs⟩, ⟨h.tx.windows, h.tx.packets⟩, hset.rxTx, fun r hr => ?_,
    hset.safe⟩
  rcases List.mem_append.mp hr with hr | hr
  · exact hset.promises r hr
  · exact (h.rx.promises e r hr).mono hgrow

/-! ### A report arrives -/

/-- What is given up on a report was promised by it. -/
theorem Settled.given (h : L.Settled) (hr : r ∈ L.reports)
    (hnear : r.pos < L.sent r.flow + 32768 ∧ L.sent r.flow < r.pos + 32768) {addr : ℕ}
    (hv : (L.sender.facing e).doParseMPData ⟨addr, r.data⟩ = some v) :
    v.Stands L.sent ∧ ∀ x ∈ L.givenUp v, L.Covered x.1 x.2 := by
  have hpromise := (h.promises r hr).moved addr
  have hstands : (L.sender.facing e).Stands L.sent := h.tx.windows.congr rfl
  obtain ⟨hvs, hlost⟩ := hstands.doParseMPData hv
  refine ⟨hvs, fun z hz => ?_⟩
  obtain ⟨f, -, hz⟩ := List.mem_flatMap.mp hz
  obtain ⟨x, hx, rfl⟩ := List.mem_map.mp hz
  obtain ⟨hheld, hgone⟩ := of_decide_eq_true (List.mem_filter.mp hx).2
  obtain ⟨hf, hcases⟩ := hlost f x hheld hgone
  obtain rfl : f = r.flow := hf.trans hpromise.stream
  obtain ⟨b, hb, hs⟩ := hstands r.flow
  obtain ⟨hbx, -⟩ := TxWin.Holds.inside hheld hs
  obtain ⟨hlt, hle, -⟩ := hheld
  rcases hcases with ⟨hfirst, a, ha, hxa, han, hna⟩ | ⟨hhas, d, hd, hrep⟩
  · -- the position it acknowledges
    have hack := hpromise.ack hfirst
    obtain rfl : a = r.pos := SerialRing.cell_inj (ha.trans hack) (by omega) (by omega)
    exact hpromise.below x (by omega) hxa
  · -- a position in one of its blocks
    obtain ⟨y, hy, hyb, hyd, hacc⟩ := hpromise.blocks hhas d
      (by rw [hd]; exact Nat.mod_lt _ (by decide)) hrep
    obtain rfl : y = x := SerialRing.cell_inj (hyd.trans hd) (by omega) (by omega)
    exact .inl hacc

theorem Settled.acknowledge (h : L.Settled) (hr : r ∈ L.reports)
    (hnear : r.pos < L.sent r.flow + 32768 ∧ L.sent r.flow < r.pos + 32768) {addr : ℕ}
    (ha : L.acknowledge r addr e = some L') : L'.Settled := by
  obtain ⟨v, hv, rfl⟩ := Option.map_eq_some_iff.mp ha
  obtain ⟨hstands, hgiven⟩ := h.given hr hnear hv
  have hset := h.setSender (fun f => ⟨le_rfl, Nat.lt_add_of_pos_right (by decide)⟩) hstands
  refine ⟨⟨hset.rx.slots, hset.rx.subs⟩, ⟨hset.tx.windows, hset.tx.packets⟩, hset.rxTx,
    hset.promises, fun z hz => ?_⟩
  exact (List.mem_append.mp hz).elim (h.safe z) (hgiven z)

/-! ### Runs -/

/-- **One step of the link.** -/
theorem Settled.step {op : LinkOp} (h : L.Settled) (hnear : L.Near op) (htame : L.Tame op)
    (hs : op.step L = some L') : L'.Settled := by
  have hsame : ∀ f, L.sent f ≤ L.sent f ∧ L.sent f < L.sent f + 65536 :=
    fun f => ⟨le_rfl, Nat.lt_add_of_pos_right (by decide)⟩
  have hfacing : ∀ e, (L.sender.facing e).Stands L.sent := fun e => h.tx.windows.congr rfl
  cases op with
  | send flowId data length e =>
    cases hs
    obtain ⟨count, hcount, hv⟩ := (hfacing e).doSendNewTransData (flowId.map (·.val)) data length
    exact h.setSender (fun f => by have := hcount f; omega) hv
  | txWinRetransCheck e =>
    cases hs
    exact h.setSender hsame (hfacing e).txWinRetransCheck
  | txTick =>
    cases hs
    exact h.setSender hsame (h.tx.windows.congr rfl)
  | report i addr e =>
    obtain ⟨r, hr, hs⟩ := Option.bind_eq_some_iff.mp hs
    exact h.acknowledge (List.mem_of_getElem? hr) (hnear r hr) hs
  | packet i e =>
    obtain ⟨p, hp, hs⟩ := Option.bind_eq_some_iff.mp hs
    exact h.deliver (List.mem_of_getElem? hp) (hnear p hp) (htame.1 p hp) htame.2 hs
  | rxTick =>
    cases hs
    have hout : ∃ as, L.receiver.out = L.receiver.out ++ as := ⟨[], (List.append_nil _).symm⟩
    exact h.quiet (h.rx.same ⟨rfl, rfl, hout⟩) rfl hout
  | dataWinTimeOutCheck e =>
    obtain ⟨v, hv, rfl⟩ := Option.map_eq_some_iff.mp hs
    have hv' := (rxAside_free (L.receiver.facing e)).frame.dataWinTimeOutCheck (.refl _) hv
    obtain ⟨as, hout, -⟩ := hv'.out
    exact h.quiet (h.rx.timeOutCheck htame hv) hv'.txWindow ⟨as, hout⟩
  | checkAck =>
    cases hs
    have hv := (rxAside_free L.receiver).frame.checkAck (.refl _)
    obtain ⟨as, hout, -⟩ := hv.out
    exact h.quiet h.rx.checkAck hv.txWindow ⟨as, hout⟩
  | sackPeriodSend e =>
    cases hs
    exact h.askForAcks e

end Link

/-- **Release safety.** On a channel that loses, duplicates and reorders as it likes, as long as what
arrives is less than half a turn off: in every run whose steps are tame, whatever the sender gives up
on an acknowledgement it is entitled to. -/
theorem link_run (s r : UserInfo) {L : Link} {ops : List LinkOp}
    (h : Guarded LinkOp.step (fun _ L op => L.Near op ∧ L.Tame op) (Link.start s r) ops L) :
    L.Safe :=
  (h.inv (I := fun _ (L : Link) => L.Settled) (fun _ _ _ _ hI hC hs => hI.step hC.1 hC.2 hs)
    (Link.settled_start s r)).safe

/-- A packet with one byte of data. -/
def oneByte : Msg := ⟨0, List.replicate 13 0⟩

/-- It goes out and arrives, and a report comes back. -/
def thereAndBack : List LinkOp :=
  [.send (some ⟨0, Nat.succ_pos 2⟩) oneByte 13 .granted, .packet 0 .granted, .rxTick,
    .sackPeriodSend .granted, .report 0 7 .granted]

namespace Link

/-- At a receiver nothing came to any packet may arrive. -/
theorem tame_first (s r v : UserInfo) (i : ℕ) :
    ((start s r).setSender v).Tame (.packet i .granted) := by
  refine ⟨fun p _ => ⟨fun _ _ _ => .inl fun _ => List.not_mem_nil, fun ssn hdrives hover => ?_⟩,
    fun _ => rfl⟩
  have hssn : ssn = 0 := hdrives.resolve_right fun h => by
    obtain ⟨i, hst, -⟩ := h
    exact hst rfl
  subst hssn
  have hlt : 0 < distanceSN 0 0 := hover.1
  exact absurd hlt (by decide)

theorem next_first (s r v : UserInfo) (f : ℕ) : ((start s r).setSender v).next f = 65536 := by
  have hspan : ({} : RxSubWin).span = 0 := by decide
  show 65536 + ({} : RxSubWin).span = 65536
  rw [hspan]

end Link

theorem link_run_acked : ∃ L, run LinkOp.step thereAndBack (Link.start ready ready) = some L ∧
    L.released = [(0, 65536)] ∧ L.Safe := by
  have hpackets : (run LinkOp.step (thereAndBack.take 1) (Link.start ready ready)).map
      (fun L => L.packets.map (·.pos)) = some [65536] := by
    decide +kernel
  have hreports : (run LinkOp.step (thereAndBack.take 4) (Link.start ready ready)).map
      (fun L => L.reports.map fun r => (r.pos, L.sent r.flow)) = some [(65537, 65537)] := by
    decide +kernel
  have heval : (run LinkOp.step thereAndBack (Link.start ready ready)).map (·.released) =
      some [(0, 65536)] := by
    decide +kernel
  obtain ⟨L, hL, hreleased⟩ := Option.map_eq_some_iff.mp heval
  have hmeets : Meets LinkOp.step (fun _ L op => L.Near op ∧ L.Tame op) [] thereAndBack
      (Link.start ready ready) := by
    refine ⟨⟨trivial, trivial⟩, fun L₁ h₁ => ⟨⟨fun p hp => ?_, ?_⟩, fun L₂ h₂ => ⟨⟨trivial, trivial⟩,
      fun L₃ h₃ => ⟨⟨trivial, trivial⟩, fun L₄ h₄ => ⟨⟨fun r hr => ?_, trivial⟩, fun _ _ => trivial⟩⟩⟩⟩⟩
    · have hrun : run LinkOp.step (thereAndBack.take 1) (Link.start ready ready) = some L₁ :=
        Option.bind_eq_some_iff.mpr ⟨L₁, h₁, rfl⟩
      rw [hrun, Option.map_some, Option.some.injEq] at hpackets
      have hmem := List.mem_map_of_mem (f := InTransit.pos) (List.mem_of_getElem? hp)
      have hpos : p.pos = 65536 := List.mem_singleton.mp (hpackets ▸ hmem)
      cases h₁
      rw [hpos, Link.next_first]
      exact ⟨Nat.lt_add_of_pos_right (Nat.succ_pos _), Nat.lt_add_of_pos_right (Nat.succ_pos _)⟩
    · cases h₁
      exact Link.tame_first ..
    · have hrun : run LinkOp.step (thereAndBack.take 4) (Link.start ready ready) = some L₄ := by
        refine Option.bind_eq_some_iff.mpr ⟨L₁, h₁, Option.bind_eq_some_iff.mpr ⟨L₂, h₂, ?_⟩⟩
        exact Option.bind_eq_some_iff.mpr ⟨L₃, h₃, Option.bind_eq_some_iff.mpr ⟨L₄, h₄, rfl⟩⟩
      rw [hrun, Option.map_some, Option.some.injEq] at hreports
      have hmem := List.mem_map_of_mem (f := fun r => (r.pos, L₄.sent r.flow))
        (List.mem_of_getElem? hr)
      obtain ⟨hpos, hsent⟩ := Prod.mk.inj (List.mem_singleton.mp (hreports ▸ hmem))
      omega
  exact ⟨L, hL, hreleased, link_run ready ready (hmeets.guarded hL)⟩

end Mpd

end AndroidVendor
