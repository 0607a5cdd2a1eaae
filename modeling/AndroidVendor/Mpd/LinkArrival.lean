import AndroidVendor.Mpd.LinkRx

/-!
# A packet arrives at the receiving end

What `Tally.Backs` says while the code runs is said of a link at rest by `Link.RxSettled`: there
the positions on record are exactly where `RxBegin` and `RxNext` of the sub windows stand.

## Main results

* `Link.RxSettled` — the invariant of the receiver at rest
* `Link.RxSettled.deliver` — a packet that may arrive keeps it, as do the timers
-/

namespace AndroidVendor

namespace Mpd

open Loop RxSubWin

/-! ### What is done before the packet is stored -/

namespace UserInfo

variable {u v : UserInfo} {m : Msg} {r : UserInfo × Bool}

theorem ackOldest_allocs (u : UserInfo) (f : ℕ) : (u.ackOldest f).allocs = u.allocs := by
  have hfree : ∀ v : UserInfo, (v.freeTxBeginData f).allocs = v.allocs := by
    intro v
    rw [freeTxBeginData]
    dsimp only
    split
    · rfl
    · split <;> rfl
  have hrtt : ∀ i, (u.schdRTTFlowUpdate f i).allocs = u.allocs := by
    intro i
    rw [schdRTTFlowUpdate]
    dsimp only
    split <;> rfl
  rw [ackOldest]
  refine (hfree _).trans ?_
  split
  · exact hrtt _
  · exact hrtt _

theorem processACK_allocs {f ack fs : ℕ} (hp : u.processACK f ack fs = some v) :
    v.allocs = u.allocs := by
  rw [processACK] at hp
  split at hp
  · cases hp
    rfl
  dsimp only at hp
  split at hp
  · cases hp
    rfl
  obtain ⟨s, hs, rfl⟩ := Option.map_eq_some_iff.mp hp
  have hloop : s.allocs = u.allocs := by
    refine (whileLoop_inv (fun a => a.allocs = u.allocs) (fun a a' ha _ hbody => ?_) rfl hs).1
    cases hbody
    exact (ackOldest_allocs a f).trans ha
  rw [moveSsnEnd]
  split <;> exact hloop

/-- The rest of `MPD_DoParseMPData`. -/
theorem doParseMPData_offer (u : UserInfo) (m : Msg) :
    u.doParseMPData m = (u.offerPacket m).bind fun r =>
      if r.2 then
        (r.1.setRxSubWin m.header.stream
          ((r.1.rxSubWin m.header.stream).addNode m.header.ssn)).dataWinRxBeginMove false
      else some r.1 := by
  rw [doParseMPData, offerPacket]
  dsimp only
  generalize (if m.header.flag = 0x55 then
    (u.emit (m.headReads [0, 1])).emit [.access (.flow m.header.stream)]
    else u.emit (m.headReads [0, 1])) = u₁
  split
  · rfl
  split
  · cases UserInfo.parseAck _ m <;> rfl
  · rw [Option.bind_assoc]
    refine congrArg _ (funext fun s => ?_)
    rw [parseData]
    split <;> rfl

/-- The receive side is the same, and the log is longer. -/
structure RxSame (u v : UserInfo) : Prop where
  rxSubWin : v.rxSubWin = u.rxSubWin
  rxDataWin : v.rxDataWin = u.rxDataWin
  out : ∃ as, v.out = u.out ++ as

theorem RxSame.emit (h : RxSame u v) (as : List Action) : RxSame u (v.emit as) where
  rxSubWin := h.rxSubWin
  rxDataWin := h.rxDataWin
  out := by
    obtain ⟨bs, hbs⟩ := h.out
    exact ⟨bs ++ as, by rw [← List.append_assoc, ← hbs]; rfl⟩

theorem RxSame.refl (u : UserInfo) : RxSame u u := ⟨rfl, rfl, [], (List.append_nil _).symm⟩

theorem RxSame.tx (h : RxSame u v) {w : UserInfo} (hw : TxStep (fun _ => True) v w) : RxSame u w where
  rxSubWin := hw.rxSubWin.trans h.rxSubWin
  rxDataWin := hw.rxDataWin.trans h.rxDataWin
  out := by
    obtain ⟨as, has⟩ := h.out
    obtain ⟨bs, hbs, -⟩ := hw.out
    exact ⟨as ++ bs, by rw [← List.append_assoc, ← has, hbs]⟩

/-- Before the packet itself is looked at only the transmit side changes. -/
theorem offerPacket_cases (htx : TxOk u) (ho : u.offerPacket m = some r) :
    ∃ s, RxSame u s ∧ (r = (s, false) ∨
      (s.allocs = u.allocs ∧ ¬ s.TooLate m ∧ s.dataWinAddNode m.node = some r)) := by
  have hall := doParseMPData_offer u m
  rw [ho, Option.bind_some] at hall
  rw [offerPacket] at ho
  dsimp only at ho
  have h₁ : ∃ u₁, (if m.header.flag = 0x55 then
      (u.emit (m.headReads [0, 1])).emit [.access (.flow m.header.stream)]
      else u.emit (m.headReads [0, 1])) = u₁ ∧ RxSame u u₁ ∧ u₁.txWindow = u.txWindow ∧
        u₁.allocs = u.allocs := by
    refine ⟨_, rfl, ?_⟩
    split
    · exact ⟨((RxSame.refl u).emit _).emit _, rfl, rfl⟩
    · exact ⟨(RxSame.refl u).emit _, rfl, rfl⟩
  obtain ⟨u₁, heq, hsame, htx₁, hmem₁⟩ := h₁
  rw [heq] at ho
  split at ho
  · cases ho
    exact ⟨_, hsame.emit _, .inl rfl⟩
  split at ho
  · next hisack =>
    obtain ⟨v, hv, rfl⟩ := Option.map_eq_some_iff.mp ho
    obtain ⟨s, hstep, rfl | ⟨-, hdata, -⟩⟩ :=
      doParseMPData_cases (B := fun _ => True) htx (fun _ _ => trivial) hall
    · exact ⟨_, ((RxSame.refl u).tx hstep).emit _, .inl rfl⟩
    · exact absurd hisack hdata
  · obtain ⟨s, hs, ho⟩ := Option.bind_eq_some_iff.mp ho
    have hread : RxSame u ({ u₁.emit (m.headReads [2, 3, 4, 5, 6, 7]) with
        lastPackageTime := u32 (u₁.time + 6000) } : UserInfo) :=
      ⟨hsame.rxSubWin, hsame.rxDataWin, (hsame.emit (m.headReads [2, 3, 4, 5, 6, 7])).out⟩
    have hmem := processACK_allocs hs
    have htx' : TxOk ({ u₁.emit (m.headReads [2, 3, 4, 5, 6, 7]) with
        lastPackageTime := u32 (u₁.time + 6000) } : UserInfo) := htx.congr htx₁
    obtain ⟨b, n, hsp⟩ := htx' m.header.stream
    have hack : m.header.ack < 65536 := m.word_lt 6
    obtain ⟨s', b', hs', hstep, -⟩ := processACK_spec (A := fun _ => True) 1 hsp hack
    obtain rfl := Option.some.inj (hs'.symm.trans hs)
    split at ho
    · cases ho
      exact ⟨_, (hread.tx hstep).emit _, .inl rfl⟩
    · next hlate => exact ⟨s', hread.tx hstep, .inr ⟨hmem.trans hmem₁, hlate, ho⟩⟩

end UserInfo

/-! ### At rest -/

namespace Link

variable {L L' : Link} {f : ℕ} {p : InTransit} {e : Answers} {v : UserInfo}

/-- What is on record while nothing happens. -/
def tally (L : Link) : Tally where
  record := L.record
  front := L.front
  next := L.next
  top := L.next

/-- The invariant of the receiver at rest. -/
structure RxSettled (L : Link) : Prop where
  slots : ∀ i, L.tally.Stems L.receiver.out (L.receiver.rxDataWin.win i)
  subs : ∀ f, Justified L.record L.receiver.out f (L.next f) (L.receiver.rxSubWin f) (L.front f)
    (L.next f)

theorem RxSettled.backs (h : L.RxSettled) : L.tally.Backs L.receiver :=
  ⟨h.slots, fun f => ⟨L.front f, le_rfl, h.subs f⟩⟩

/-- An operation is over. -/
theorem RxSettled.setReceiver {K : Tally} (h : L.RxSettled) (hfront : K.front = L.front)
    (htop : K.top = K.next) (hnext : ∀ f, K.next f < L.front f + 65536) (hv : K.Backs v) :
    ({ L.setReceiver v with record := K.record } : Link).RxSettled := by
  have hsub : ∀ f, ∃ b, (L.setReceiver v).front f = b ∧ (L.setReceiver v).next f = K.next f ∧
      Justified K.record v.out f (K.next f) (v.rxSubWin f) b (K.next f) := by
    intro f
    obtain ⟨b, hb, hf⟩ := hv.subs f
    rw [hfront] at hb
    rw [htop] at hf
    have hle := hf.rests.le
    have hlt := hnext f
    have hdist : distanceSN (L.receiver.rxSubWin f).beginNode.ssn (v.rxSubWin f).beginNode.ssn =
        b - L.front f := by
      rw [(h.subs f).rests.begin_ssn, hf.rests.begin_ssn]
      exact distanceSN_of_le hb (by omega)
    have hspan : (v.rxSubWin f).span = K.next f - b := hf.rests.toSpans.span_eq
    refine ⟨b, ?_, ?_, hf⟩
    · show L.front f + distanceSN _ _ = b
      rw [hdist]
      omega
    · show L.front f + distanceSN _ _ + (v.rxSubWin f).span = K.next f
      rw [hdist, hspan]
      omega
  have hall : (L.setReceiver v).next = K.next := funext fun f => by
    obtain ⟨b, -, hn, -⟩ := hsub f
    exact hn
  refine ⟨fun i => ?_, fun f => ?_⟩
  · refine (hv.slots i).move (List.Subset.refl _) ?_
    rw [htop]
    exact hall
  · obtain ⟨b, hb, hn, hf⟩ := hsub f
    rw [← hn, ← hb] at hf
    exact hf

theorem RxSettled.next_lt (h : L.RxSettled) (f : ℕ) : L.next f < L.front f + 65536 := (h.subs f).turn

/-- What does not concern the receive side. -/
theorem RxSettled.same (h : L.RxSettled) (hv : UserInfo.RxSame L.receiver v) :
    (L.setReceiver v).RxSettled := by
  refine h.setReceiver (K := L.tally) rfl rfl h.next_lt ?_
  exact h.backs.congr (by rw [hv.rxDataWin]) hv.rxSubWin hv.out

theorem RxSettled.timeOutCheck (h : L.RxSettled) (hmem : ∀ k, (e.allocs k).isSome)
    (hv : (L.receiver.facing e).dataWinTimeOutCheck = some v) : (L.setReceiver v).RxSettled := by
  have hserves : L.tally.Serves (L.receiver.facing e) :=
    ⟨h.backs.congr rfl rfl ⟨[], (List.append_nil _).symm⟩, hmem⟩
  exact h.setReceiver (K := L.tally) rfl rfl h.next_lt (hserves.dataWinTimeOutCheck hv).toBacks

theorem RxSettled.checkAck (h : L.RxSettled) : (L.setReceiver L.receiver.checkAck).RxSettled :=
  h.setReceiver (K := L.tally) rfl rfl h.next_lt h.backs.checkAck

/-- The messages of `MPD_SackPeriodSend` leave `sentAck` behind. -/
theorem RxSettled.sackPeriodSend (h : L.RxSettled) :
    (L.setReceiver (L.receiver.facing e).sackPeriodSend).RxSettled := by
  have hside := UserInfo.txSide_sackPeriodSend (F := fun _ => True) (B := fun _ => True)
    (u := L.receiver.facing e) fun _ _ => trivial
  generalize (L.receiver.facing e).sackPeriodSend = v at hside
  obtain ⟨as, hout, -⟩ := hside.out
  obtain ⟨ack, hsub⟩ := hside.sub
  refine h.setReceiver (K := L.tally) rfl rfl h.next_lt ⟨fun i => ?_, fun f => ?_⟩
  · rw [hside.rxDataWin, hout]
    exact (h.slots i).mono (List.subset_append_left ..)
  · rw [hsub, hout]
    exact ⟨L.front f, le_rfl, ((h.subs f).mono (.emit ..)).sentAck _⟩

/-! ### The turn -/

/-- Whoever is less than a turn behind `RxNext`, and is not overtaken, stays less than a turn behind. -/
theorem turn_of_not_overtaken {d n x : ℕ} (hd : d ≤ n) (hn : n < d + 65536) (hx : x < n + 32768)
    (h : ¬ (0 < distanceSN (n % 65536) (d % 65536) ∧
      distanceSN (n % 65536) (d % 65536) ≤ x + 1 - n)) : max n (x + 1) < d + 65536 := by
  rcases Nat.eq_or_lt_of_le hd with rfl | hlt
  · omega
  · rw [distanceSN_of_lt hlt (by omega)] at h
    omega

/-- Where the windows reach when the packet has entered. -/
def reach (L : Link) (p : InTransit) : ℕ → ℕ :=
  Function.update L.next p.flow (max (L.next p.flow) (p.pos + 1))

theorem reach_self (L : Link) (p : InTransit) :
    L.reach p p.flow = max (L.next p.flow) (p.pos + 1) := Function.update_self ..

theorem reach_of_ne (L : Link) (p : InTransit) (hf : f ≠ p.flow) : L.reach p f = L.next f :=
  Function.update_of_ne hf ..

theorem next_le_reach (L : Link) (p : InTransit) (f : ℕ) : L.next f ≤ L.reach p f := by
  by_cases hf : f = p.flow
  · rw [hf, reach_self]
    exact le_max_left ..
  · exact (L.reach_of_ne p hf).ge

theorem RxSettled.reach_lt (h : L.RxSettled) (hnear : p.pos < L.front p.flow + 32768) (f : ℕ) :
    L.reach p f < L.front f + 65536 := by
  have hlt := h.next_lt f
  by_cases hf : f = p.flow
  · subst hf
    rw [reach_self]
    omega
  · rw [L.reach_of_ne p hf]
    exact hlt

/-- The receiver is ready for the packet. -/
theorem RxSettled.widen {R : RxRecord} (h : L.RxSettled)
    (hR : RxRecord.Grows L.record L.receiver.out R L.receiver.out)
    (hnear : p.pos < L.front p.flow + 32768) (hadm : L.Admits p e) :
    Tally.Backs ⟨R, L.front, L.next, L.reach p⟩ L.receiver := by
  have hover : ∀ d, d ≤ L.next p.flow → L.next p.flow < d + 65536 → L.Drives p.flow (d % 65536) →
      L.reach p p.flow < d + 65536 := by
    intro d hd hn hdrives
    have hfront := (h.subs p.flow).rests.le
    have hturn := hadm.turn _ hdrives
    rw [Overtaken, (h.subs p.flow).rests.next_ssn] at hturn
    rw [reach_self]
    exact turn_of_not_overtaken hd hn (by omega) hturn
  refine ⟨fun i => ?_, fun f => ⟨L.front f, le_rfl, ?_⟩⟩
  · have hslot := h.slots i
    refine ⟨hslot.ptrs, fun hst => ?_⟩
    obtain ⟨q, m, ⟨harr, hstream, hssn, hbelow, hturn⟩, hm⟩ := hslot.packet hst
    refine ⟨q, m, ⟨hR.arrived harr, hstream, hssn, hbelow.trans_le (L.next_le_reach p _), ?_⟩, hm⟩
    by_cases hflow : (L.receiver.rxDataWin.win i).stream = p.flow
    · rw [hflow] at hbelow hturn ⊢
      change L.next p.flow ≤ q + 65536 at hturn
      have hlt := hover (q + 1) hbelow (by omega)
        (.inr ⟨i, hst, hflow, by rw [← hssn, ssnPlus_mod]⟩)
      show L.reach p p.flow ≤ q + 65536
      omega
    · show L.reach p _ ≤ q + 65536
      rw [L.reach_of_ne p hflow]
      exact hturn
  · have hf := (h.subs f).mono hR
    obtain ⟨d, hd, hle, hlt, hposted⟩ := hf.driven
    refine ⟨hf.rests, hf.start, L.next_le_reach p f, h.reach_lt hnear f, hf.newest, hf.marked,
      hf.below, d, hd, hle.trans (L.next_le_reach p f), ?_, hposted⟩
    by_cases hflow : f = p.flow
    · subst hflow
      exact hover d hle hlt (.inl hd)
    · show L.reach p f < _
      rw [L.reach_of_ne p hflow]
      exact hlt

/-! ### A packet arrives -/

theorem RxSettled.grow {R : RxRecord} (h : L.RxSettled)
    (hR : RxRecord.Grows L.record L.receiver.out R L.receiver.out) :
    Tally.Backs ⟨R, L.front, L.next, L.next⟩ L.receiver := by
  exact ⟨fun i => (h.slots i).move hR.arrived rfl, fun f => ⟨L.front f, le_rfl, (h.subs f).mono hR⟩⟩

theorem grows_recorded (L : Link) (p : InTransit) (e : Answers) :
    RxRecord.Grows L.record L.receiver.out (L.recorded p e) L.receiver.out where
  arrived := List.subset_append_left ..
  accepted := List.prefix_append ..
  out := List.Subset.refl _

theorem accepted_recorded {w : RxSubWin} (hw : (L.receiver.facing e).offered (L.received p) = some w)
    (ht : w.Takes (L.received p).header.ssn) :
    (L.recorded p e).accepted = L.record.accepted ++ [(p.flow, p.pos)] := by
  rw [recorded]
  dsimp only
  rw [if_pos ⟨w, hw, ht⟩]

/-- A sub window in which nothing was accepted is as it was cleared. -/
theorem RxSettled.unopened (h : L.RxSettled) (hnone : ∀ y, (f, y) ∉ L.record.accepted) :
    L.next f = 65536 ∧ (L.receiver.rxSubWin f).looksClear := by
  have hf := h.subs f
  have hnext : L.next f = 65536 := hf.newest.resolve_right (hnone _)
  have hle := hf.rests.le
  have hstart := hf.start
  have hbegin := hf.rests.begin_eq
  have hrxNext := hf.rests.next_eq
  have hssn := hf.rests.begin_ssn
  refine ⟨hnext, ?_, ?_, ?_⟩ <;> omega

/-- The sub window after `MPD_SubWinAddNode`. -/
theorem RxSettled.enter {w : RxSubWin} {out : List Action} {b : ℕ} (h : L.RxSettled)
    (hssn : (L.received p).header.ssn = p.pos % 65536)
    (hnear : p.pos < L.front p.flow + 32768 ∧ L.next p.flow < p.pos + 32768)
    (hadm : L.Admits p e) (hoff : (L.receiver.facing e).offered (L.received p) = some w)
    (hlate : (L.receiver.rxSubWin p.flow).looksClear → p.pos % 65536 ≤ 5) (hb : L.front p.flow ≤ b)
    (hw : Justified (L.recorded p e) out p.flow (L.reach p p.flow) w b (L.next p.flow)) :
    ∃ b', b ≤ b' ∧ Justified (L.recorded p e) out p.flow (L.reach p p.flow)
      (w.addNode (p.pos % 65536)) b' (L.reach p p.flow) := by
  have htop := L.reach_self p
  have hacc : w.Takes (p.pos % 65536) → (p.flow, p.pos) ∈ (L.recorded p e).accepted := by
    intro ht
    rw [accepted_recorded hoff (hssn ▸ ht)]
    exact List.mem_append_right _ (List.mem_singleton.mpr rfl)
  by_cases hc : w.looksClear
  · refine hw.anchor hc htop (by omega) hnear.2 (hacc (.inl hc)) ?_
    rcases hadm.anchor w hoff hc with hnone | hzero
    · obtain ⟨hnext, hclear⟩ := h.unopened hnone
      refine .inl ⟨hnext, ?_, hlate hclear⟩
      have hfind : L.record.accepted.find? (·.1 = p.flow) = none := by
        refine List.find?_eq_none.mpr fun r hr heq => ?_
        rw [decide_eq_true_eq] at heq
        exact hnone r.2 (heq ▸ hr)
      rw [RxRecord.firstAccepted, accepted_recorded hoff (.inl hc), List.find?_append, hfind]
      simp
    · exact .inr (hssn.symm.trans hzero)
  · exact hw.addNode hc htop (by omega) hnear.2 hacc

/-- The packet is in the data window, and `MPD_SubWinAddNode` is called. -/
theorem RxSettled.entered {u : UserInfo} (h : L.RxSettled)
    (hserves : Tally.Serves ⟨L.recorded p e, L.front, L.next, L.reach p⟩ u)
    (hssn : (L.received p).header.ssn = p.pos % 65536)
    (hnear : p.pos < L.front p.flow + 32768 ∧ L.next p.flow < p.pos + 32768)
    (hadm : L.Admits p e)
    (hoff : (L.receiver.facing e).offered (L.received p) = some (u.rxSubWin p.flow))
    (hlate : (L.receiver.rxSubWin p.flow).looksClear → p.pos % 65536 ≤ 5) :
    Tally.Serves ⟨L.recorded p e, L.front, L.reach p, L.reach p⟩
      (u.setRxSubWin p.flow ((u.rxSubWin p.flow).addNode (p.pos % 65536))) := by
  obtain ⟨b, hb, hw⟩ := hserves.subs p.flow
  obtain ⟨b', hb', hw'⟩ := h.enter hssn hnear hadm hoff hlate hb hw
  refine ⟨⟨fun i => (hserves.slots i).move (List.Subset.refl _) rfl, fun g => ?_⟩,
    hserves.stocked⟩
  show ∃ c, L.front g ≤ c ∧ Justified (L.recorded p e) u.out g (L.reach p g)
    (Function.update u.rxSubWin p.flow _ g) c (L.reach p g)
  by_cases hg : g = p.flow
  · subst hg
    rw [Function.update_self]
    exact ⟨b', hb.trans hb', hw'⟩
  · rw [Function.update_of_ne hg]
    obtain ⟨c, hc, hg'⟩ := hserves.subs g
    change Justified _ _ g (L.reach p g) _ c (L.next g) at hg'
    rw [← L.reach_of_ne p hg] at hg'
    exact ⟨c, hc, hg'⟩

/-- **A packet arrives** that may arrive. -/
theorem RxSettled.deliver (h : L.RxSettled) (htx : L.receiver.TxOk)
    (hflow : p.flow = (wireHeader p.data).stream) (hpos : p.pos % 65536 = (wireHeader p.data).ssn)
    (hnear : p.pos < L.front p.flow + 32768 ∧ L.next p.flow < p.pos + 32768)
    (hadm : L.Admits p e) (hmem : ∀ k, (e.allocs k).isSome) (hd : L.deliver p e = some L') :
    L'.RxSettled := by
  obtain ⟨v, hv, rfl⟩ := Option.map_eq_some_iff.mp hd
  have hssn : (L.received p).header.ssn = p.pos % 65536 := hpos.symm
  have hstream : (L.received p).header.stream = p.flow := hflow.symm
  have hgrows := L.grows_recorded p e
  rw [UserInfo.doParseMPData_offer] at hv
  obtain ⟨r, hr, hv⟩ := Option.bind_eq_some_iff.mp hv
  have htx' : (L.receiver.facing e).TxOk := htx.congr rfl
  obtain ⟨s, hs, hcases⟩ := UserInfo.offerPacket_cases htx' hr
  have hsame : ∀ {K : Tally}, K.Backs L.receiver → K.Backs s := fun hK =>
    hK.congr (congrArg RxDataWin.win hs.rxDataWin) hs.rxSubWin hs.out
  have hnext_lt := h.next_lt
  rcases hcases with rfl | ⟨hallocs, hlate, hadd⟩
  · cases hv
    exact h.setReceiver (K := ⟨L.recorded p e, L.front, L.next, L.next⟩) rfl rfl hnext_lt
      (hsame (h.grow hgrows))
  have hstocked : ∀ k, (s.allocs k).isSome := by
    rw [hallocs]
    exact hmem
  cases htaken : r.2 with
  | false =>
    rw [htaken, if_neg (by decide)] at hv
    cases hv
    have hserves := Tally.Serves.dataWinAddNode ⟨hsame (h.grow hgrows), hstocked⟩ hadd
      (q := 0) fun ht => by rw [htaken] at ht; cases ht
    exact h.setReceiver (K := ⟨L.recorded p e, L.front, L.next, L.next⟩) rfl rfl hnext_lt
      hserves.toBacks
  | true =>
    rw [htaken, if_pos rfl] at hv
    have htop := L.reach_self p
    have hserves : Tally.Serves ⟨L.recorded p e, L.front, L.next, L.reach p⟩ r.1 := by
      refine Tally.Serves.dataWinAddNode ⟨hsame (h.widen hgrows hnear.1 hadm), hstocked⟩ hadd
        (q := p.pos) fun _ => ?_
      refine ⟨List.mem_append_right _ (List.mem_singleton.mpr rfl), rfl, hssn.symm, ?_, ?_⟩
      · show p.pos < L.reach p (L.received p).header.stream
        rw [hstream, htop]
        omega
      · show L.reach p (L.received p).header.stream ≤ p.pos + 65536
        rw [hstream, htop]
        omega
    have hoff : (L.receiver.facing e).offered (L.received p) = some (r.1.rxSubWin p.flow) := by
      rw [UserInfo.offered, hr, Option.bind_some, if_pos htaken, hstream]
    have hclear : (L.receiver.rxSubWin p.flow).looksClear → p.pos % 65536 ≤ 5 := by
      intro hc
      by_contra hgt
      refine hlate ⟨?_, by rw [hssn]; omega⟩
      rw [hs.rxSubWin, hstream]
      exact hc
    have hentered := h.entered hserves hssn hnear hadm hoff hclear
    rw [hstream, hssn] at hv
    exact h.setReceiver (K := ⟨L.recorded p e, L.front, L.reach p, L.reach p⟩) rfl rfl
      (h.reach_lt hnear.1) (hentered.dataWinRxBeginMove hv).toBacks

end Link

end Mpd

end AndroidVendor
