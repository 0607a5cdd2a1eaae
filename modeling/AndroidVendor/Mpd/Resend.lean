import AndroidVendor.Mpd.NodeInv

/-!
# Sending a packet again

Two parts of the code hand a packet to its subflow queue again: `MPD_parserSACK`, for the nodes it
passes over in a gap, and `MPD_TxWinRetransCheck`, for the newest one. What they do to a node shows
in the log, by its buffer; and a buffer is told from the others of its window by the SSN in its
header.

## Main results

* `tagged_kept` — buffers of a window carry different SSNs, in every session
* `Handing` — what a datagram has done to the window of its subflow, and `handing_sackFrame`, which
  keeps it from round to round
-/

namespace AndroidVendor

namespace Mpd

open Loop TxWin UserInfo

/-! ### The log -/

/-- The action hands the data packet `m` to the queue behind `dev`. -/
def Action.hands (dev : ℕ) (m : Msg) : Action → Bool
  | .send dev' m' _ false _ => dev' == dev && m' == m
  | _ => false

/-- The action gives `m` back. -/
def Action.GivesBack (m : Msg) : Action → Prop
  | .free m' => m' = m
  | .freeResend m' _ => m' = m
  | _ => False

/-- Nothing is handed on. -/
def Quiet (as : List Action) : Prop := ∀ a ∈ as, ∀ dev m, a.hands dev m = false

/-- No buffer is handed on after it was given back. -/
def Ordered (as : List Action) : Prop :=
  as.Pairwise fun a b => ∀ dev m, b.hands dev m = true → ¬ a.GivesBack m

/-- How often the buffer of a node of subflow `f` is handed on. -/
def DataNode.handed (d : DataNode) (f : ℕ) (as : List Action) : ℕ :=
  d.pData.elim 0 fun m => as.countP (Action.hands (getDeviceId f) m)

section Log

variable {as bs : List Action} {d : DataNode} {f g : ℕ} {m : Msg}

theorem quiet_nil : Quiet [] := fun _ ha => absurd ha List.not_mem_nil

theorem Quiet.append (h : Quiet as) (h' : Quiet bs) : Quiet (as ++ bs) := by
  intro a ha
  rcases List.mem_append.mp ha with ha | ha
  · exact h a ha
  · exact h' a ha

theorem Quiet.not_hands (h : Quiet as) {a : Action} (ha : a ∈ as) {dev : ℕ} {m : Msg} :
    ¬ a.hands dev m = true := by
  simp [h a ha dev m]

theorem ordered_quiet (h : Quiet as) : Ordered as := by
  refine List.Pairwise.imp_of_mem (fun _ hb _ dev m hhands => ?_)
    (List.pairwise_of_forall fun _ _ => trivial)
  exact absurd hhands (h.not_hands hb)

theorem Ordered.append_quiet (h : Ordered as) (hbs : Quiet bs) : Ordered (as ++ bs) := by
  refine List.pairwise_append.mpr ⟨h, ordered_quiet hbs, ?_⟩
  intro a _ b hb dev m hhands
  exact absurd hhands (hbs.not_hands hb)

theorem quiet_accesses (h : ∀ a ∈ as, ∃ x, a = .access x) : Quiet as := by
  intro a ha dev m
  obtain ⟨x, rfl⟩ := h a ha
  rfl

theorem quiet_ofRx (h : ∀ a ∈ as, a.OfRx) : Quiet as := by
  intro a ha dev m
  have hrx := h a ha
  cases a <;> first | rfl | exact hrx.elim

theorem mem_releases {a : Action} : a ∈ d.releases f → ∃ m, d.pData = some m ∧ a = d.release f m := by
  rw [DataNode.releases]
  split
  · intro ha
    exact absurd ha List.not_mem_nil
  · intro ha
    obtain ⟨m, hm, rfl⟩ := List.mem_map.mp ha
    exact ⟨m, Option.mem_toList.mp hm, rfl⟩

theorem quiet_releases (d : DataNode) (f : ℕ) : Quiet (d.releases f) := by
  intro a ha dev m
  obtain ⟨m', -, rfl⟩ := mem_releases ha
  rw [DataNode.release]
  split <;> rfl

theorem hands_send {dev len : ℕ} {m m' : Msg} {ok : Bool} {dev' : ℕ} :
    (Action.send dev' m' len false ok).hands dev m = true ↔ dev' = dev ∧ m' = m := by
  simp [Action.hands]

theorem getDeviceId_inj (h : getDeviceId f = getDeviceId g) : f = g :=
  Nat.pow_right_injective (le_refl 2) h

theorem DataNode.handed_append : d.handed f (as ++ bs) = d.handed f as + d.handed f bs := by
  rw [handed, handed, handed]
  cases d.pData with
  | none => rfl
  | some m => exact List.countP_append

theorem DataNode.handed_quiet (h : Quiet as) : d.handed f as = 0 := by
  rw [handed]
  cases d.pData with
  | none => rfl
  | some m => exact List.countP_eq_zero.mpr fun a ha => by simp [h a ha]

theorem DataNode.handed_send {len : ℕ} {ok : Bool} :
    d.handed f [.send (getDeviceId g) m len false ok] = if g = f ∧ d.pData = some m then 1 else 0 := by
  rw [handed]
  cases hd : d.pData with
  | none => simp
  | some m' =>
    rw [Option.elim_some, List.countP_singleton]
    refine if_congr ?_ rfl rfl
    rw [hands_send, Option.some.injEq]
    constructor
    · rintro ⟨hdev, rfl⟩
      exact ⟨getDeviceId_inj hdev, rfl⟩
    · rintro ⟨rfl, rfl⟩
      exact ⟨rfl, rfl⟩

theorem DataNode.data_of_handed (h : d.handed f as ≠ 0) : d.pData ≠ none := by
  intro hnone
  rw [handed, hnone] at h
  exact h rfl

end Log

/-! ### What an operation does to a node -/

/-- A node `d` of subflow `f` became `e` while `as` was asked for. It was handed on once at most,
and only if `Q` allowed it; where it still has its data it is marked if it was, and otherwise not
touched. -/
structure NodeTurn (Q : Prop) (f time : ℕ) (as : List Action) (d e : DataNode) : Prop where
  once : d.handed f as ≤ 1
  allowed : d.handed f as ≠ 0 → Q
  calm : e.pData = d.pData → d.pData ≠ none → d.handed f as = 0 →
    e.transState = d.transState ∧ e.toRetrans = d.toRetrans
  marked : e.pData = d.pData → d.handed f as ≠ 0 →
    e.transState = .sacked ∧ e.toRetrans = u32 (time + retransGap f)

section NodeTurn

variable {Q : Prop} {f time : ℕ} {as bs : List Action} {d e e' : DataNode}

theorem NodeTurn.quiet (h : Quiet as) (hd : e.pData = d.pData → d.pData ≠ none →
    e.transState = d.transState ∧ e.toRetrans = d.toRetrans) : NodeTurn Q f time as d e := by
  have hzero : d.handed f as = 0 := DataNode.handed_quiet h
  constructor
  · omega
  · intro hne
    exact absurd hzero hne
  · intro hdata hsome _
    exact hd hdata hsome
  · intro _ hne
    exact absurd hzero hne

/-- More is asked for, without this buffer being handed on. -/
theorem NodeTurn.more (h : NodeTurn Q f time as d e) (hbs : d.handed f bs = 0)
    (hd : e'.pData = d.pData → d.pData ≠ none →
      e'.pData = e.pData ∧ e'.transState = e.transState ∧ e'.toRetrans = e.toRetrans) :
    NodeTurn Q f time (as ++ bs) d e' := by
  have hcount : d.handed f (as ++ bs) = d.handed f as := by
    rw [DataNode.handed_append, hbs, Nat.add_zero]
  constructor
  · rw [hcount]
    exact h.once
  · rw [hcount]
    exact h.allowed
  · rw [hcount]
    intro hdata hsome hzero
    obtain ⟨hp, hs, ht⟩ := hd hdata hsome
    rw [hs, ht]
    exact h.calm (hp.symm.trans hdata) hsome hzero
  · rw [hcount]
    intro hdata hne
    obtain ⟨hp, hs, ht⟩ := hd hdata (DataNode.data_of_handed hne)
    rw [hs, ht]
    exact h.marked (hp.symm.trans hdata) hne

end NodeTurn

namespace UserInfo

variable {u v s t : UserInfo} {f : ℕ} {as bs : List Action}

/-! ### Telling buffers apart -/

/-- The buffer of a node carries the SSN of the node, which is the one of its index. -/
def Tagged (u : UserInfo) : Prop :=
  ∀ f i m, ((u.txWindow f).dataNode i).pData = some m →
    m.header.ssn = ((u.txWindow f).dataNode i).ssn ∧ i = m.header.ssn % 1024

theorem Tagged.index_eq (h : Tagged u) {i j : ℕ} {m : Msg}
    (hi : ((u.txWindow f).dataNode i).pData = some m)
    (hj : ((u.txWindow f).dataNode j).pData = some m) : i = j :=
  (h f i m hi).2.trans (h f j m hj).2.symm

/-- Where a buffer of a window lies. -/
theorem Tagged.position (h : Tagged u) {b n i : ℕ} {m : Msg} (hs : Spans (u.txWindow f) b n)
    (hi : ((u.txWindow f).dataNode i).pData = some m) :
    ∃ x, b ≤ x ∧ x < n ∧ i = x % 1024 ∧ m.header.ssn = x % 65536 := by
  obtain ⟨hssn, hidx⟩ := h f i m hi
  have hlt : i < 1024 := hidx ▸ Nat.mod_lt _ (by decide)
  obtain ⟨x, hbx, hx, rfl⟩ := SerialRing.exists_position hlt b
  have hxn : x < n := by
    by_contra hge
    have hnone := hs.idle x (by omega) hx
    rw [hnone] at hi
    cases hi
  exact ⟨x, hbx, hxn, rfl, hssn.trans (hs.num x hbx hxn.le)⟩

/-- Every session tags its buffers. -/
theorem tagged_nodeInv : NodeInv fun i d => ∀ m, d.pData = some m → m.header.ssn = d.ssn ∧
    i = m.header.ssn % 1024 where
  none i d hnone m hm := by
    rw [hnone] at hm
    cases hm
  mark _ _ _ _ h := h
  put d data time len state x hx m hm := by
    obtain rfl := Option.some.inj hm
    exact ⟨rfl, by omega⟩

theorem tagged_kept : TxKept fun u => TxOk u ∧ Tagged u := tagged_nodeInv.kept

/-! ### A datagram -/

/-- What the acknowledgement and the SACK of a datagram have done to the window of `f` so far,
asking for `as`. `Q` says whether there is a SACK. -/
structure Handing (Q : Prop) (u : UserInfo) (f : ℕ) (as : List Action) (s : UserInfo) : Prop where
  out : s.out = u.out ++ as
  time : s.time = u.time
  others : ∀ g, g ≠ f → (u.txWindow g).Alike (s.txWindow g)
  sound : ∀ i, Sound ((s.txWindow f).dataNode i)
  pTxLast : (s.txWindow f).pTxLast = (u.txWindow f).pTxLast
  timeOutRetCnt : (s.txWindow f).timeOutRetCnt = (u.txWindow f).timeOutRetCnt
  /-- What is still held was not given back. -/
  held : ∀ i m, ((s.txWindow f).dataNode i).pData = some m →
    ((u.txWindow f).dataNode i).pData = some m ∧ ∀ a ∈ as, ¬ a.GivesBack m
  nodes : ∀ i, NodeTurn (Q ∧ ((u.txWindow f).dataNode i).Due u.time) f u.time as
    ((u.txWindow f).dataNode i) ((s.txWindow f).dataNode i)
  sends : ∀ a ∈ as, ∀ dev m, a.hands dev m = true →
    dev = getDeviceId f ∧ ∃ i, ((u.txWindow f).dataNode i).pData = some m
  order : Mpd.Ordered as

section Handing

variable {Q : Prop}

theorem Handing.refl (hd : ∀ i, Sound ((u.txWindow f).dataNode i)) : Handing Q u f [] u where
  out := (List.append_nil _).symm
  time := rfl
  others _ _ := .refl _
  sound := hd
  pTxLast := rfl
  timeOutRetCnt := rfl
  held _ _ hm := ⟨hm, fun _ ha => absurd ha List.not_mem_nil⟩
  nodes _ := .quiet quiet_nil fun _ _ => ⟨rfl, rfl⟩
  sends _ ha := absurd ha List.not_mem_nil
  order := .nil

theorem Handing.sends_quiet (h : Handing Q u f as s) (hbs : Quiet bs) :
    ∀ a ∈ as ++ bs, ∀ dev m, a.hands dev m = true →
      dev = getDeviceId f ∧ ∃ i, ((u.txWindow f).dataNode i).pData = some m := by
  intro a ha dev m hhands
  rcases List.mem_append.mp ha with ha | ha
  · exact h.sends a ha dev m hhands
  · exact absurd hhands (hbs.not_hands ha)

theorem Handing.counts (h : Handing Q u f as s) (hc : Counts s t) : ∃ as, Handing Q u f as t := by
  obtain ⟨bs, hout, hbs⟩ := hc.out
  have hquiet : Quiet bs := quiet_accesses hbs
  have hw := hc.windows f
  refine ⟨as ++ bs, by rw [hout, h.out, List.append_assoc], hc.time.trans h.time, ?_, ?_,
    hw.pTxLast.trans h.pTxLast, hw.timeOutRetCnt.trans h.timeOutRetCnt, ?_, ?_, h.sends_quiet hquiet,
    h.order.append_quiet hquiet⟩
  · intro g hg
    exact (h.others g hg).trans (hc.windows g)
  · intro i
    rw [hw.nodes]
    exact h.sound i
  · intro i m hm
    rw [hw.nodes] at hm
    obtain ⟨hu, hfree⟩ := h.held i m hm
    refine ⟨hu, fun a ha => ?_⟩
    rcases List.mem_append.mp ha with ha | ha
    · exact hfree a ha
    · obtain ⟨x, rfl⟩ := hbs a ha
      exact id
  · intro i
    rw [hw.nodes]
    exact (h.nodes i).more (DataNode.handed_quiet hquiet) fun _ _ => ⟨rfl, rfl, rfl⟩

/-- A node gives its data back. -/
theorem Handing.gives (hu : Tagged u) (h : Handing Q u f as s) {i : ℕ} {e : DataNode}
    (he : e.pData = none) (hsound : Sound e)
    (hr : Round f s i e (((s.txWindow f).dataNode i).releases f) t) : ∃ as, Handing Q u f as t := by
  have hquiet := quiet_releases ((s.txWindow f).dataNode i) f
  refine ⟨as ++ ((s.txWindow f).dataNode i).releases f, by rw [hr.out, h.out, List.append_assoc],
    hr.time.trans h.time, ?_, ?_, hr.pTxLast.trans h.pTxLast,
    hr.timeOutRetCnt.trans h.timeOutRetCnt, ?_, ?_, h.sends_quiet hquiet, h.order.append_quiet hquiet⟩
  · intro g hg
    rw [hr.others g hg]
    exact h.others g hg
  · intro j
    rw [hr.nodes, Function.update_apply]
    split
    · exact hsound
    · exact h.sound j
  · intro j m hm
    rw [hr.nodes, Function.update_apply] at hm
    split at hm
    · rw [he] at hm
      cases hm
    next hne =>
    obtain ⟨hum, hfree⟩ := h.held j m hm
    refine ⟨hum, fun a ha hback => ?_⟩
    rcases List.mem_append.mp ha with ha | ha
    · exact hfree a ha hback
    · -- the buffer of the node at `i` is another one
      obtain ⟨d, hd, hda⟩ := mem_releases ha
      rw [hda, DataNode.release] at hback
      have hdm : d = m := by
        split at hback <;> exact hback
      exact hne (hu.index_eq hum (hdm ▸ (h.held i d hd).1))
  · intro j
    refine (h.nodes j).more (DataNode.handed_quiet hquiet) fun hdata hsome => ?_
    rw [hr.nodes, Function.update_apply] at hdata ⊢
    split at hdata
    · rw [he] at hdata
      exact absurd hdata.symm hsome
    · next hne =>
      rw [if_neg hne]
      exact ⟨rfl, rfl, rfl⟩

/-- A node that is due was not handed on so far. -/
theorem Handing.handed_eq_zero (hgap : u.time + retransGap f < 4294967296) (h : Handing Q u f as s)
    {i : ℕ} {d : Msg} (hdue : ((s.txWindow f).dataNode i).Due u.time)
    (hd : ((s.txWindow f).dataNode i).pData = some d) :
    ((u.txWindow f).dataNode i).handed f as = 0 := by
  by_contra hne
  obtain ⟨hstate, htime⟩ := (h.nodes i).marked (hd.trans (h.held i d hd).1.symm) hne
  have hlt : u32 (u.time + retransGap f) = u.time + retransGap f := Nat.mod_eq_of_lt hgap
  have hpos : 0 < retransGap f := by
    rw [retransGap]
    split <;> decide
  rcases hdue with hwait | ⟨-, hle⟩
  · rw [hstate] at hwait
    cases hwait
  · rw [htime, hlt] at hle
    omega

/-- It was due from the beginning. -/
theorem Handing.due (hgap : u.time + retransGap f < 4294967296) (h : Handing Q u f as s) {i : ℕ}
    {d : Msg} (hdue : ((s.txWindow f).dataNode i).Due u.time)
    (hd : ((s.txWindow f).dataNode i).pData = some d) : ((u.txWindow f).dataNode i).Due u.time := by
  have hud := (h.held i d hd).1
  obtain ⟨hstate, htime⟩ :=
    (h.nodes i).calm (hd.trans hud.symm) (by simp [hud]) (h.handed_eq_zero hgap hdue hd)
  rwa [DataNode.Due, hstate, htime] at hdue

/-- A node that is due is handed on. -/
theorem Handing.again (hu : Tagged u) (hgap : u.time + retransGap f < 4294967296) (hQ : Q)
    (h : Handing Q u f as s) {i len : ℕ} {d : Msg} {ok : Bool}
    (hdue : ((s.txWindow f).dataNode i).Due s.time) (hd : ((s.txWindow f).dataNode i).pData = some d)
    (hr : Round f s i (((s.txWindow f).dataNode i).missed f s.time)
      [.send (getDeviceId f) d len false ok] t) : ∃ as, Handing Q u f as t := by
  obtain ⟨hud, hfree⟩ := h.held i d hd
  rw [h.time] at hdue hr
  have hmissed : ((s.txWindow f).dataNode i).missed f u.time =
      { (s.txWindow f).dataNode i with
        transState := .sacked, toRetrans := u32 (u.time + retransGap f) } := by
    rw [DataNode.missed, if_pos hdue]
    rfl
  rw [hmissed] at hr
  have hzero := h.handed_eq_zero hgap hdue hd
  have hudue := h.due hgap hdue hd
  have hone : ∀ j, ((u.txWindow f).dataNode j).handed f [.send (getDeviceId f) d len false ok] =
      if j = i then 1 else 0 := by
    intro j
    rw [DataNode.handed_send]
    refine if_congr ⟨fun hj => hu.index_eq hj.2 hud, fun hj => ?_⟩ rfl rfl
    rw [hj]
    exact ⟨rfl, hud⟩
  refine ⟨as ++ [.send (getDeviceId f) d len false ok], by rw [hr.out, h.out, List.append_assoc],
    hr.time.trans h.time, ?_, ?_, hr.pTxLast.trans h.pTxLast,
    hr.timeOutRetCnt.trans h.timeOutRetCnt, ?_, ?_, ?_, ?_⟩
  · intro g hg
    rw [hr.others g hg]
    exact h.others g hg
  · intro j
    rw [hr.nodes, Function.update_apply]
    split
    · simp [Sound, hd]
    · exact h.sound j
  · intro j m hm
    have hm' : ((s.txWindow f).dataNode j).pData = some m := by
      rw [hr.nodes, Function.update_apply] at hm
      split at hm
      · next heq => exact heq ▸ hm
      · exact hm
    obtain ⟨hum, hfreem⟩ := h.held j m hm'
    refine ⟨hum, fun a ha => ?_⟩
    rcases List.mem_append.mp ha with ha | ha
    · exact hfreem a ha
    · rw [List.mem_singleton.mp ha]
      exact id
  · intro j
    by_cases hj : j = i
    · subst hj
      have hcount : ((u.txWindow f).dataNode j).handed f
          (as ++ [.send (getDeviceId f) d len false ok]) = 1 := by
        rw [DataNode.handed_append, hzero, hone, if_pos rfl]
      rw [hr.nodes, Function.update_self]
      constructor
      · rw [hcount]
      · intro _
        exact ⟨hQ, hudue⟩
      · intro _ _ hnone
        rw [hcount] at hnone
        cases hnone
      · intro _ _
        exact ⟨rfl, rfl⟩
    · rw [hr.nodes, Function.update_of_ne hj]
      exact (h.nodes j).more (by rw [hone, if_neg hj]) fun _ _ => ⟨rfl, rfl, rfl⟩
  · intro a ha dev m hhands
    rcases List.mem_append.mp ha with ha | ha
    · exact h.sends a ha dev m hhands
    · rw [List.mem_singleton.mp ha, hands_send] at hhands
      obtain ⟨rfl, rfl⟩ := hhands
      exact ⟨rfl, i, hud⟩
  · refine List.pairwise_append.mpr ⟨h.order, List.pairwise_singleton _ _, ?_⟩
    intro a ha b hb dev m hhands
    rw [List.mem_singleton.mp hb, hands_send] at hhands
    obtain ⟨rfl, rfl⟩ := hhands
    exact hfree a ha

theorem handing_ackFrame (hu : Tagged u) : AckFrame f fun s => ∃ as, Handing Q u f as s where
  counts _ _ h hc := by
    obtain ⟨as, h⟩ := h
    exact h.counts hc
  sound _ i h := by
    obtain ⟨as, h⟩ := h
    exact h.sound i
  gives _ _ _ _ h he hsound hr := by
    obtain ⟨as, h⟩ := h
    exact h.gives hu he hsound hr

theorem handing_sackFrame (hu : Tagged u) (hgap : u.time + retransGap f < 4294967296) (hQ : Q) :
    SackFrame f fun s => ∃ as, Handing Q u f as s where
  toAckFrame := handing_ackFrame hu
  again _ _ _ _ _ _ h hdue hd hr := by
    obtain ⟨as, h⟩ := h
    exact h.again hu hgap hQ hdue hd hr

end Handing

end UserInfo

end Mpd

end AndroidVendor
