import AndroidVendor.Mpd.Resend
import AndroidVendor.Mpd.TxSide

/-!
# What an operation sends again

`Turn` is what one operation of a session does to the nodes of the tx windows and, in the log, to
their buffers: which of them it hands on again, how a node is marked then, and that the counter of
the timer keeps up.

## Main results

* `turn_recv`, `turn_send`, `turn_txWinRetransCheck`, `turn_clearTxWin` — the operations that do
  something to a tx window
* `step_turn` — every operation
-/

namespace AndroidVendor

namespace Mpd

open Loop TxWin UserInfo

/-! ### One operation -/

/-- The nodes an operation may send again: those a SACK finds due, and the newest one of a subflow,
until the timer has come three times. -/
def Op.MayResend (op : Op) (u : UserInfo) (f i : ℕ) : Prop :=
  match op with
  | .recv m => m.IsAck ∧ m.HasSack ∧ f = m.header.stream ∧ ((u.txWindow f).dataNode i).Due u.time
  | .txWinRetransCheck => u.time % 30 = u.uid % 30 ∧ (u.txWindow f).pTxLast = some i ∧
      0 < (u.txWindow f).timeOutRetCnt ∧ (u.txWindow f).timeOutRetCnt < 4
  | _ => False

/-- The deadline of what the operation may send again is a 32-bit number. -/
def Op.InTime (op : Op) (u : UserInfo) : Prop :=
  match op with
  | .recv m => m.IsAck → m.HasSack → u.time + retransGap m.header.stream < 4294967296
  | .txWinRetransCheck => u.time % 30 = u.uid % 30 → u.time + 10 < 4294967296
  | .tick => u.time + 1 < 4294967296
  | _ => True

instance (op : Op) (u : UserInfo) : Decidable (op.InTime u) :=
  match op with
  | .recv _ => inferInstanceAs (Decidable (_ → _ → _ < _))
  | .txWinRetransCheck => inferInstanceAs (Decidable (_ = _ → _ < _))
  | .tick => inferInstanceAs (Decidable (_ < _))
  | .dataWinTimeOutCheck | .checkAck | .sackPeriodSend | .send .. | .setFlowValid .. | .clearTxWin _ |
    .clearSubWin _ | .changeDataWinFlowId _ | .clearDataWin => isTrue trivial

/-- What the timer counts of the packets that were sent again. -/
def Op.tail (op : Op) (k : ℕ) : ℕ :=
  match op with
  | .txWinRetransCheck => k
  | _ => 0

theorem Op.InTime.gap {op : Op} {u : UserInfo} {f i : ℕ} (h : op.InTime u) (hm : op.MayResend u f i) :
    u.time + retransGap f < 4294967296 := by
  cases op with
  | recv m =>
    obtain ⟨hack, hsack, rfl, -⟩ := hm
    exact h hack hsack
  | txWinRetransCheck =>
    have hlt := h hm.1
    rw [retransGap]
    split <;> omega
  | _ => exact hm.elim

namespace UserInfo

/-- What an operation that asked for `as` has done to the nodes. -/
structure Turn (op : Op) (u : UserInfo) (as : List Action) (v : UserInfo) : Prop where
  out : v.out = u.out ++ as
  time : u.time ≤ v.time
  nodes : ∀ f i, NodeTurn (op.MayResend u f i) f u.time as ((u.txWindow f).dataNode i)
    ((v.txWindow f).dataNode i)
  /-- The newest packet is a new one, or the counter has kept up. -/
  last : ∀ f i, (v.txWindow f).pTxLast = some i →
    ((v.txWindow f).dataNode i).pData ≠ ((u.txWindow f).dataNode i).pData ∨
      ((u.txWindow f).pTxLast = some i ∧
        (u.txWindow f).timeOutRetCnt + op.tail (((u.txWindow f).dataNode i).handed f as) ≤
          (v.txWindow f).timeOutRetCnt)

section Turn

variable {u v s : UserInfo} {op : Op} {as bs : List Action} {f : ℕ}

theorem tail_handed_quiet {d : DataNode} (h : Quiet as) : op.tail (d.handed f as) = 0 := by
  rw [DataNode.handed_quiet h]
  cases op <;> rfl

/-- Nothing is done to the nodes. -/
theorem turn_quiet (hw : ∀ f, (u.txWindow f).Alike (v.txWindow f)) (hout : v.out = u.out ++ as)
    (has : Quiet as) (htime : u.time ≤ v.time) : Turn op u as v where
  out := hout
  time := htime
  nodes f i := by
    rw [(hw f).nodes]
    exact .quiet has fun _ _ => ⟨rfl, rfl⟩
  last f i hlast := by
    right
    rw [tail_handed_quiet has, Nat.add_zero, (hw f).timeOutRetCnt]
    exact ⟨(hw f).pTxLast.symm.trans hlast, le_rfl⟩

/-- Nothing is done to the nodes afterwards. -/
theorem Turn.rest (h : Turn op u as s) (hw : ∀ f, (s.txWindow f).Alike (v.txWindow f))
    (hout : v.out = s.out ++ bs) (hbs : Quiet bs) (htime : s.time ≤ v.time) :
    Turn op u (as ++ bs) v where
  out := by rw [hout, h.out, List.append_assoc]
  time := h.time.trans htime
  nodes f i := by
    rw [(hw f).nodes]
    exact (h.nodes f i).more (DataNode.handed_quiet hbs) fun _ _ => ⟨rfl, rfl, rfl⟩
  last f i hlast := by
    rw [(hw f).nodes, (hw f).timeOutRetCnt, DataNode.handed_append, DataNode.handed_quiet hbs]
    exact h.last f i ((hw f).pTxLast.symm.trans hlast)

/-- The receive side has worked: nothing was handed on. -/
structure RxAside (u v : UserInfo) : Prop where
  txWindow : v.txWindow = u.txWindow
  time : v.time = u.time
  out : ∃ as, v.out = u.out ++ as ∧ ∀ a ∈ as, a.OfRx

theorem RxAside.refl (u : UserInfo) : RxAside u u :=
  ⟨rfl, rfl, [], (List.append_nil _).symm, fun _ ha => absurd ha List.not_mem_nil⟩

theorem rxAside_free (u : UserInfo) : RxFree (RxAside u) where
  congr v w h hw := by
    obtain ⟨as, hout, has⟩ := h.out
    obtain ⟨bs, hout', hbs⟩ := hw.out
    refine ⟨hw.txWindow.trans h.txWindow, hw.time.trans h.time, as ++ bs, ?_, fun a ha => ?_⟩
    · rw [hout', hout, List.append_assoc]
    · exact (List.mem_append.mp ha).elim (has a) (hbs a)
  sub _ _ _ h := ⟨h.txWindow, h.time, h.out⟩

theorem RxAside.turn (h : RxAside u v) : ∃ as, Turn op u as v ∧ Quiet as := by
  obtain ⟨as, hout, has⟩ := h.out
  refine ⟨as, turn_quiet (fun f => ?_) hout (quiet_ofRx has) h.time.ge, quiet_ofRx has⟩
  rw [h.txWindow]
  exact .refl _

/-- The acknowledgement and the SACK of a datagram. -/
theorem Handing.turn {m : Msg} (h : Handing (m.IsAck ∧ m.HasSack) u m.header.stream as v) :
    Turn (.recv m) u as v where
  out := h.out
  time := h.time.ge
  nodes f i := by
    by_cases hf : f = m.header.stream
    · subst hf
      have hnode := h.nodes i
      exact ⟨hnode.once, fun hne => ⟨(hnode.allowed hne).1.1, (hnode.allowed hne).1.2, rfl,
        (hnode.allowed hne).2⟩, hnode.calm, hnode.marked⟩
    · -- the queue is that of another subflow
      have hzero : ((u.txWindow f).dataNode i).handed f as = 0 := by
        rw [DataNode.handed]
        cases ((u.txWindow f).dataNode i).pData with
        | none => rfl
        | some d =>
          refine List.countP_eq_zero.mpr fun a ha hhands => ?_
          exact hf (getDeviceId_inj (h.sends a ha _ _ hhands).1)
      rw [(h.others f hf).nodes]
      constructor
      · omega
      · intro hne
        exact absurd hzero hne
      · intro _ _ _
        exact ⟨rfl, rfl⟩
      · intro _ hne
        exact absurd hzero hne
  last f i hlast := by
    right
    change _ ∧ (u.txWindow f).timeOutRetCnt + 0 ≤ _
    by_cases hf : f = m.header.stream
    · subst hf
      exact ⟨h.pTxLast.symm.trans hlast, h.timeOutRetCnt.ge⟩
    · exact ⟨(h.others f hf).pTxLast.symm.trans hlast, (h.others f hf).timeOutRetCnt.ge⟩

/-- No buffer is handed on that was not outstanding, and none after it was given back. -/
structure Orderly (u : UserInfo) (as : List Action) : Prop where
  held : ∀ a ∈ as, ∀ dev m, a.hands dev m = true →
    ∃ f i, dev = getDeviceId f ∧ ((u.txWindow f).dataNode i).pData = some m
  order : Mpd.Ordered as

theorem orderly_quiet (h : Quiet as) : Orderly u as where
  held _ ha _ _ hhands := absurd hhands (h.not_hands ha)
  order := ordered_quiet h

theorem Orderly.append_quiet (h : Orderly u as) (hbs : Quiet bs) : Orderly u (as ++ bs) where
  held a ha dev m hhands := by
    rcases List.mem_append.mp ha with ha | ha
    · exact h.held a ha dev m hhands
    · exact absurd hhands (hbs.not_hands ha)
  order := h.order.append_quiet hbs

theorem turn_recv {m : Msg} (htx : TxOk u) (hu : Tagged u) (hop : (Op.recv m).InTime u)
    (hs : u.doParseMPData m = some v) : ∃ as, Turn (.recv m) u as v ∧ Orderly u as := by
  obtain ⟨b, n, hspans⟩ := htx m.header.stream
  obtain ⟨t, ⟨as, ht⟩, hv⟩ := AckFrame.doParseMPData
    (P := fun s => ∃ as, Handing (m.IsAck ∧ m.HasSack) u m.header.stream as s)
    (handing_ackFrame hu) (fun hack hsack => handing_sackFrame hu (hop hack hsack) ⟨hack, hsack⟩)
    ⟨[], .refl hspans.sound⟩ hs
  have hrest : RxAside t v := by
    rcases hv with rfl | hv
    · exact (rxAside_free t).ask (.refl t) trivial
    · exact (rxAside_free t).parseData (.refl t) hv
  obtain ⟨bs, hout, hbs⟩ := hrest.out
  have hquiet := quiet_ofRx hbs
  refine ⟨as ++ bs, ht.turn.rest (fun f => ?_) hout hquiet hrest.time.ge, ?_⟩
  · rw [hrest.txWindow]
    exact .refl _
  · refine Orderly.append_quiet ⟨fun a ha dev d hhands => ?_, ht.order⟩ hquiet
    obtain ⟨hdev, i, hd⟩ := ht.sends a ha dev d hhands
    exact ⟨m.header.stream, i, hdev, hd⟩

/-! ### New data -/

/-- `k` packets have gone out on `f`, whose window was at positions `b, …, n`. -/
structure Sent (u : UserInfo) (f b n k : ℕ) (as : List Action) (s : UserInfo) (b' : ℕ) : Prop where
  out : s.out = u.out ++ as
  time : s.time = u.time
  others : ∀ g, g ≠ f → s.txWindow g = u.txWindow g
  begin_le : b ≤ b'
  begin_add : b' ≤ b + k
  begin_lt : 0 < k → b' < n + k
  begin_eq : b' = b ∨ b' + 1023 = n + k
  spans : Spans (s.txWindow f) b' (n + k)
  kept : ∀ x, b' ≤ x → x < n →
    (s.txWindow f).dataNode (x % 1024) = (u.txWindow f).dataNode (x % 1024)
  fresh : ∀ x, b' ≤ x → n ≤ x → x < n + k →
    ∃ m, ((s.txWindow f).dataNode (x % 1024)).pData = some m ∧ m.header.ssn = x % 65536 ∧
      ((s.txWindow f).dataNode (x % 1024)).t1 = u.time
  last : (k = 0 ∧ s.txWindow f = u.txWindow f) ∨
    (s.txWindow f).pTxLast = some ((n + k - 1) % 1024) ∧ 0 < k
  sends : ∀ a ∈ as, ∀ dev m, a.hands dev m = true →
    dev = getDeviceId f ∧ ∃ x, n ≤ x ∧ x < n + k ∧ m.header.ssn = x % 65536

theorem Sent.aside {b n k b' : ℕ} (h : Sent u f b n k as s b') (hv : Aside s v) :
    ∃ as, Sent u f b n k as v b' := by
  obtain ⟨bs, hout, hbs⟩ := hv.out
  refine ⟨as ++ bs, by rw [hout, h.out, List.append_assoc], hv.time.trans h.time, ?_, h.begin_le,
    h.begin_add, h.begin_lt, h.begin_eq, ?_, ?_, ?_, ?_, ?_⟩
  · intro g hg
    rw [hv.txWindow]
    exact h.others g hg
  · rw [hv.txWindow]
    exact h.spans
  · rw [hv.txWindow]
    exact h.kept
  · rw [hv.txWindow]
    exact h.fresh
  · rw [hv.txWindow]
    exact h.last
  · intro a ha dev m hhands
    rcases List.mem_append.mp ha with ha | ha
    · exact h.sends a ha dev m hhands
    · obtain ⟨d, rfl⟩ := hbs a ha
      cases hhands

theorem Sent.block {b n k b' : ℕ} (h : Sent u f b n k as s b') (data : Msg) (len frag : ℕ) :
    ∃ as b'', Sent u f b n (k + 1) as (s.sendBlock f data len frag).2 b'' := by
  have hs := h.spans
  obtain ⟨hssn, -⟩ := fillMPDHeader_spec s f data frag
  obtain ⟨hoth, ⟨ok, hout⟩, -⟩ := sendBlock_spec hs data len frag
  obtain ⟨b'', hpush⟩ := sendBlock_pushes hs data len frag
  have hle := hs.le
  have hbb : b' ≤ b'' ∧ b'' ≤ b' + 1 ∧ b'' ≤ n + k := by
    rw [hpush.begin_eq]
    split <;> omega
  have hbegin := h.begin_le
  have hadd := h.begin_add
  have heq : b'' = b ∨ b'' + 1023 = n + (k + 1) := by
    rw [hpush.begin_eq]
    split
    · omega
    · exact h.begin_eq.imp id fun hfull => by have := hpush.spans.size; omega
  refine ⟨_, b'', by rw [hout, h.out, List.append_assoc, List.append_assoc],
    (sendBlock_time s f data len frag).trans h.time, ?_, hbegin.trans hbb.1, by omega, by omega,
    heq, hpush.spans, ?_, ?_, ?_, ?_⟩
  · intro g hg
    rw [hoth g hg]
    exact h.others g hg
  · intro x hb hx
    rw [hpush.kept x hb (by omega)]
    exact h.kept x (by omega) hx
  · intro x hb hn hx
    rcases Nat.lt_or_ge x (n + k) with hlt | hge
    · rw [hpush.kept x hb hlt]
      exact h.fresh x (by omega) hn hlt
    · obtain rfl : x = n + k := by omega
      obtain ⟨d, data', len', state, hnode, hdata⟩ := hpush.newest
      refine ⟨data', by rw [hnode]; rfl, hdata, ?_⟩
      rw [hnode]
      exact h.time
  · right
    rw [hpush.pTxLast]
    exact ⟨rfl, Nat.succ_pos k⟩
  · intro a ha dev m hhands
    rcases List.mem_append.mp ha with ha | ha
    · obtain ⟨hdev, x, hnx, hx, hm⟩ := h.sends a ha dev m hhands
      exact ⟨hdev, x, hnx, by omega, hm⟩
    rcases List.mem_append.mp ha with ha | ha
    · refine absurd hhands (Quiet.not_hands ?_ ha)
      split
      · exact quiet_releases _ _
      · exact quiet_nil
    · rw [List.mem_singleton.mp ha, hands_send] at hhands
      obtain ⟨rfl, rfl⟩ := hhands
      refine ⟨rfl, n + k, by omega, by omega, ?_⟩
      rw [hssn, hs.sn_eq]
      omega

theorem Sent.turn {b n k b' : ℕ} {flowId : Option (Fin 3)} {data : Msg} {length : ℕ}
    (hu : Tagged u) (hs : Spans (u.txWindow f) b n) (hk : k ≤ 2) (h : Sent u f b n k as v b') :
    Turn (.send flowId data length) u as v := by
  have hsize := hs.size
  have hbegin := h.begin_le
  have hadd := h.begin_add
  have hnew := h.spans
  -- a buffer of the window before is not one of the new ones
  have hold : ∀ i d, ((u.txWindow f).dataNode i).pData = some d →
      ∀ y, n ≤ y → y < n + k → d.header.ssn ≠ y % 65536 := by
    intro i d hd y hny hy heq
    obtain ⟨x, hbx, hxn, -, hssn⟩ := hu.position hs hd
    omega
  have hcalm : ∀ i, ((v.txWindow f).dataNode i).pData = ((u.txWindow f).dataNode i).pData →
      ((u.txWindow f).dataNode i).pData ≠ none →
        (v.txWindow f).dataNode i = (u.txWindow f).dataNode i := by
    intro i hdata hsome
    obtain ⟨d, hd⟩ := Option.ne_none_iff_exists'.mp hsome
    obtain ⟨x, hbx, hxn, rfl, hssn⟩ := hu.position hs hd
    rcases Nat.lt_or_ge x b' with hlt | hge
    · -- the slot was given up, and is used for another position at most
      rw [hd, ← Nat.add_mod_right] at hdata
      rcases Nat.lt_or_ge (x + 1024) (n + k) with hy | hy
      · obtain ⟨m, hm, hmssn, -⟩ := h.fresh (x + 1024) (by omega) (by omega) hy
        rw [hm] at hdata
        obtain rfl := Option.some.inj hdata
        exact absurd hmssn (hold _ _ hd _ (by omega) hy)
      · rw [hnew.idle (x + 1024) hy (by omega)] at hdata
        cases hdata
    · exact h.kept x hge hxn
  refine ⟨h.out, h.time.ge, fun g i => ?_, fun g i hlast => ?_⟩
  · have hzero : ((u.txWindow g).dataNode i).handed g as = 0 := by
      rw [DataNode.handed]
      cases hd : ((u.txWindow g).dataNode i).pData with
      | none => rfl
      | some d =>
        refine List.countP_eq_zero.mpr fun a ha hhands => ?_
        obtain ⟨hdev, y, hny, hy, hssn⟩ := h.sends a ha _ _ hhands
        obtain rfl := getDeviceId_inj hdev
        exact hold i d hd y hny hy hssn
    constructor
    · omega
    · intro hne
      exact absurd hzero hne
    · intro hdata hsome _
      by_cases hg : g = f
      · subst hg
        rw [hcalm i hdata hsome]
        exact ⟨rfl, rfl⟩
      · rw [h.others g hg]
        exact ⟨rfl, rfl⟩
    · intro _ hne
      exact absurd hzero hne
  · change _ ∨ _ ∧ (u.txWindow g).timeOutRetCnt + 0 ≤ _
    by_cases hg : g = f
    · subst hg
      rcases h.last with ⟨-, hw⟩ | ⟨hnewest, hpos⟩
      · right
        rw [hw] at hlast ⊢
        exact ⟨hlast, le_rfl⟩
      · left
        rw [hnewest, Option.some.injEq] at hlast
        subst hlast
        have hlt := h.begin_lt hpos
        obtain ⟨m, hm, hmssn, -⟩ := h.fresh (n + k - 1) (by omega) (by omega) (by omega)
        rw [hm]
        intro heq
        exact hold _ m heq.symm (n + k - 1) (by omega) (by omega) hmssn
    · right
      rw [h.others g hg] at hlast ⊢
      exact ⟨hlast, le_rfl⟩

/-- `MPD_DoSendNewTransData` sends nothing, or as many packets as there are buffers for. -/
theorem doSendNewTransData_sent {b n : ℕ} (hs : Spans (u.txWindow f) b n) (data : Msg) (length : ℕ) :
    ∃ k as b', (k = 0 ∨ k = u.sendCount length ∧ 12 ≤ length) ∧
      Sent u f b n k as (u.doSendNewTransData (some f) data length).2 b' := by
  have haside : ∀ k s v, (∃ as b', Sent u f b n k as s b') → Aside s v →
      ∃ as b', Sent u f b n k as v b' := by
    rintro k s v ⟨as, b', h⟩ hv
    obtain ⟨bs, h'⟩ := h.aside hv
    exact ⟨bs, b', h'⟩
  have hsend : ∀ g ∈ some f, ∀ k s data len frag, (∃ as b', Sent u f b n k as s b') →
      ∃ as b', Sent u f b n (k + 1) as (s.sendBlock g data len frag).2 b' := by
    rintro g hg k s data len frag ⟨as, b', h⟩
    obtain rfl := Option.some.inj hg
    exact h.block data len frag
  have hzero : Sent u f b n 0 [] u b := by
    refine ⟨(List.append_nil _).symm, rfl, fun _ _ => rfl, le_rfl, le_rfl,
      fun h0 => absurd h0 (Nat.lt_irrefl 0), .inl rfl, hs, fun _ _ _ => rfl, fun x _ hn hx => ?_,
      .inl ⟨rfl, rfl⟩, fun _ ha => absurd ha List.not_mem_nil⟩
    exact absurd hx (Nat.not_lt_of_le hn)
  obtain ⟨k, hk, as, b', h⟩ := doSendNewTransData_blocks haside hsend ⟨[], b, hzero⟩ data length
  exact ⟨k, as, b', hk, h⟩

theorem turn_send (htx : TxOk u) (hu : Tagged u) (flowId : Option (Fin 3)) (data : Msg)
    (length : ℕ) :
    ∃ as, Turn (.send flowId data length) u as
      (u.doSendNewTransData (flowId.map (·.val)) data length).2 := by
  cases flowId with
  | none =>
    have haside : Aside u (u.doSendNewTransData (Option.map (·.val) (none : Option (Fin 3))) data
        length).2 := by
      rw [doSendNewTransData.eq_def]
      split <;> exact .free rfl rfl rfl rfl rfl rfl
    obtain ⟨as, hout, has⟩ := haside.out
    refine ⟨as, turn_quiet (fun f => ?_) hout (fun a ha dev m => ?_) haside.time.ge⟩
    · rw [haside.txWindow]
      exact .refl _
    · obtain ⟨d, rfl⟩ := has a ha
      rfl
  | some f =>
    obtain ⟨b, n, hs⟩ := htx f
    obtain ⟨k, as, b', hk, h⟩ := doSendNewTransData_sent hs data length
    have hle := u.sendCount_le length
    exact ⟨as, h.turn hu hs (by omega)⟩

/-! ### The timer -/

/-- The timer has been to the subflows of `l`. -/
structure Tailed (u : UserInfo) (l : List ℕ) (as : List Action) (s : UserInfo) : Prop where
  turn : Turn .txWinRetransCheck u as s
  time : s.time = u.time
  untouched : ∀ g, g ∉ l → s.txWindow g = u.txWindow g
  sends : ∀ a ∈ as, ∃ f ∈ l, ∃ i d len ok, ((u.txWindow f).dataNode i).pData = some d ∧
    a = .send (getDeviceId f) d len false ok

theorem Tailed.refl (u : UserInfo) : Tailed u [] [] u where
  turn := turn_quiet (fun _ => .refl _) (List.append_nil _).symm quiet_nil le_rfl
  time := rfl
  untouched _ _ := rfl
  sends _ ha := absurd ha List.not_mem_nil

theorem Tailed.handed {l : List ℕ} (h : Tailed u l as s) (hf : f ∉ l) (d : DataNode) :
    d.handed f as = 0 := by
  rw [DataNode.handed]
  cases d.pData with
  | none => rfl
  | some m =>
    refine List.countP_eq_zero.mpr fun a ha hhands => ?_
    obtain ⟨g, hg, i, d, len, ok, -, rfl⟩ := h.sends a ha
    obtain ⟨hdev, -⟩ := hands_send.mp hhands
    exact hf (getDeviceId_inj hdev ▸ hg)

theorem Tailed.orderly {l : List ℕ} (h : Tailed u l as s) : Orderly u as where
  held a ha dev m hhands := by
    obtain ⟨f, -, i, d, len, ok, hd, rfl⟩ := h.sends a ha
    obtain ⟨rfl, rfl⟩ := hands_send.mp hhands
    exact ⟨f, i, rfl, hd⟩
  order := by
    refine List.Pairwise.imp_of_mem (fun ha _ _ dev m _ => ?_)
      (List.pairwise_of_forall fun _ _ => trivial)
    obtain ⟨f, -, i, d, len, ok, -, rfl⟩ := h.sends _ ha
    exact id

/-- The timer only counts at the next subflow. -/
theorem Tailed.flow_count {l : List ℕ} {k : ℕ} (h : Tailed u l as s) (hf : f ∉ l)
    (hk : (u.txWindow f).timeOutRetCnt ≤ k)
    (hv : v = s.setTxWindow f { s.txWindow f with timeOutRetCnt := k }) :
    Tailed u (f :: l) as v := by
  have hw := h.untouched f hf
  have hoth : ∀ g, g ≠ f → v.txWindow g = s.txWindow g := by
    intro g hg
    rw [hv, txWindow_setTxWindow_of_ne _ _ hg]
  have hself : v.txWindow f = { u.txWindow f with timeOutRetCnt := k } := by
    rw [hv, txWindow_setTxWindow, hw]
  have htime : v.time = s.time := by
    rw [hv]
    rfl
  have hout : v.out = s.out := by
    rw [hv]
    rfl
  refine ⟨⟨hout.trans h.turn.out, h.turn.time.trans htime.ge, fun g j => ?_, fun g j hlast => ?_⟩,
    htime.trans h.time, fun g hg => ?_, fun a ha => ?_⟩
  · by_cases hg : g = f
    · subst hg
      have hnode := h.turn.nodes g j
      rw [hw] at hnode
      rw [hself]
      exact hnode
    · rw [hoth g hg]
      exact h.turn.nodes g j
  · by_cases hg : g = f
    · subst hg
      rw [hself] at hlast
      right
      rw [hself, h.handed hf]
      exact ⟨hlast, hk⟩
    · rw [hoth g hg] at hlast ⊢
      exact h.turn.last g j hlast
  · rw [List.mem_cons, not_or] at hg
    rw [hoth g hg.1, h.untouched g hg.2]
  · obtain ⟨g, hg, hrest⟩ := h.sends a ha
    exact ⟨g, List.mem_cons_of_mem f hg, hrest⟩

/-- It sends the newest packet of the next subflow again. -/
theorem Tailed.flow_resend {l : List ℕ} {i : ℕ} {d : Msg} (hu : Tagged u)
    (hperiod : u.time % 30 = u.uid % 30) (h : Tailed u l as s) (hf : f ∉ l)
    (hr : TailResend f s i d bs v) : Tailed u (f :: l) (as ++ bs) v := by
  have hw := h.untouched f hf
  have hlast := hr.pTxLast
  have hstart := hr.started
  have hdone := hr.notDone
  have hdata := hr.data
  have hnodes := hr.nodes
  have hcount := hr.counted
  have hlast' := hr.last_eq
  rw [hw] at hlast hstart hdone hdata hnodes hcount hlast'
  obtain ⟨len, ok, hbs⟩ := hr.sends
  have hone : ∀ g j, ((u.txWindow g).dataNode j).handed g bs = if g = f ∧ j = i then 1 else 0 := by
    intro g j
    rw [hbs, DataNode.handed_send]
    refine if_congr ⟨?_, ?_⟩ rfl rfl
    · rintro ⟨rfl, hj⟩
      exact ⟨rfl, hu.index_eq hj hdata⟩
    · rintro ⟨rfl, rfl⟩
      exact ⟨rfl, hdata⟩
  refine ⟨⟨by rw [hr.out, h.turn.out, List.append_assoc], h.turn.time.trans hr.time.ge,
    fun g j => ?_, fun g j hlastg => ?_⟩, hr.time.trans h.time, fun g hg => ?_, fun a ha => ?_⟩
  · by_cases hg : g = f
    · subst hg
      by_cases hj : j = i
      · subst hj
        have htotal : ((u.txWindow g).dataNode j).handed g (as ++ bs) = 1 := by
          rw [DataNode.handed_append, h.handed hf, hone, if_pos ⟨rfl, rfl⟩]
        rw [hnodes, Function.update_self, h.time]
        constructor
        · rw [htotal]
        · intro _
          exact ⟨hperiod, hlast, hstart, hdone⟩
        · intro _ _ hnone
          rw [htotal] at hnone
          cases hnone
        · intro _ _
          exact ⟨rfl, rfl⟩
      · have hnode := h.turn.nodes g j
        rw [hw] at hnode
        rw [hnodes, Function.update_of_ne hj]
        exact hnode.more (by rw [hone, if_neg (fun hc => hj hc.2)]) fun _ _ => ⟨rfl, rfl, rfl⟩
    · rw [hr.others g hg]
      exact (h.turn.nodes g j).more (by rw [hone, if_neg (fun hc => hg hc.1)])
        fun _ _ => ⟨rfl, rfl, rfl⟩
  · by_cases hg : g = f
    · subst hg
      right
      rw [hlast'] at hlastg
      obtain rfl : i = j := Option.some.inj (hlast.symm.trans hlastg)
      refine ⟨hlast, ?_⟩
      rw [hcount, DataNode.handed_append, h.handed hf, hone, if_pos ⟨rfl, rfl⟩]
      exact le_rfl
    · rw [hr.others g hg] at hlastg ⊢
      rw [DataNode.handed_append, hone, if_neg (fun hc => hg hc.1)]
      exact h.turn.last g j hlastg
  · rw [List.mem_cons, not_or] at hg
    rw [hr.others g hg.1, h.untouched g hg.2]
  · rcases List.mem_append.mp ha with ha | ha
    · obtain ⟨g, hg, hrest⟩ := h.sends a ha
      exact ⟨g, List.mem_cons_of_mem f hg, hrest⟩
    · rw [hbs] at ha
      exact ⟨f, List.mem_cons_self, i, d, len, ok, hdata, List.mem_singleton.mp ha⟩

theorem Tailed.flow {l : List ℕ} (htx : TxOk u) (hu : Tagged u) (hperiod : u.time % 30 = u.uid % 30)
    (h : Tailed u l as s) (hf : f ∉ l) : ∃ as, Tailed u (f :: l) as (s.txWinRetransFlow f) := by
  obtain ⟨b, n, hs⟩ := htx f
  have hw := h.untouched f hf
  rcases txWinRetransFlow_cases (u := s) (f := f) (by rw [hw]; exact hs.sound) with
    ⟨k, hk, hv⟩ | ⟨i, d, bs, hr⟩
  · exact ⟨as, h.flow_count hf (hw ▸ hk) hv⟩
  · exact ⟨as ++ bs, h.flow_resend hu hperiod hf hr⟩

theorem turn_txWinRetransCheck (htx : TxOk u) (hu : Tagged u) :
    ∃ as, Turn .txWinRetransCheck u as u.txWinRetransCheck ∧ Orderly u as := by
  rw [UserInfo.txWinRetransCheck]
  split
  · next hperiod =>
    obtain ⟨as₀, h₀⟩ := (Tailed.refl u).flow (f := 0) htx hu hperiod (by simp)
    obtain ⟨as₁, h₁⟩ := h₀.flow (f := 1) htx hu hperiod (by simp)
    obtain ⟨as₂, h₂⟩ := h₁.flow (f := 2) htx hu hperiod (by simp)
    exact ⟨as₂, h₂.turn, h₂.orderly⟩
  · exact ⟨[], (Tailed.refl u).turn, orderly_quiet quiet_nil⟩

/-! ### Every operation -/

theorem clearTxNodes_quiet (u : UserInfo) (f k : ℕ) :
    ∃ as, (clearTxNodes f k u).out = u.out ++ as ∧ Quiet as := by
  induction k generalizing u with
  | zero => exact ⟨[], (List.append_nil _).symm, quiet_nil⟩
  | succ k ih =>
    rw [clearTxNodes]
    split
    · obtain ⟨as, hout, has⟩ := ih ((u.freeTxBeginData f).txBeginInc f)
      refine ⟨(u.txWindow f).beginNode.releases f ++ as, ?_, (quiet_releases _ f).append has⟩
      rw [hout, txRelease_out, List.append_assoc]
    · exact ⟨[], (List.append_nil _).symm, quiet_nil⟩

theorem turn_clearTxWin (u : UserInfo) (g : Fin 3) :
    ∃ as, Turn (.clearTxWin g) u as (u.clearTxWin g) ∧ Quiet as := by
  obtain ⟨as, hout, has⟩ := clearTxNodes_quiet u g 1024
  have htime : (u.clearTxWin g).time = u.time := (TxStep.clearTxWin (A := fun _ => True) u g).time
  have hself : (u.clearTxWin g).txWindow g = {} := by
    rw [UserInfo.clearTxWin, txWindow_setTxWindow]
  have hoth : ∀ f : ℕ, f ≠ g → (u.clearTxWin g).txWindow f = u.txWindow f := by
    intro f hf
    rw [UserInfo.clearTxWin, txWindow_setTxWindow_of_ne _ _ hf, clearTxNodes_txWindow _ _ hf]
  refine ⟨as, ⟨hout, htime.ge, fun f i => .quiet has fun hdata hsome => ?_, fun f i hlast => ?_⟩, has⟩
  · by_cases hf : f = g
    · rw [hf, hself] at hdata
      rw [hf] at hsome
      exact absurd hdata.symm hsome
    · rw [hoth f hf]
      exact ⟨rfl, rfl⟩
  · by_cases hf : f = g
    · rw [hf, hself] at hlast
      cases hlast
    · right
      rw [hoth f hf] at hlast ⊢
      rw [tail_handed_quiet has]
      exact ⟨hlast, le_rfl⟩


/-- **One operation.** It is a turn, and unless it sends new data it hands on what is outstanding
and nothing else. -/
theorem step_turn (htx : TxOk u) (hu : Tagged u) (hop : op.InTime u) (hs : op.step u = some v) :
    ∃ as, Turn op u as v ∧ ((∀ f d l, op ≠ .send f d l) → Orderly u as) := by
  have hsilent : ∀ w : UserInfo, w.txWindow = u.txWindow → w.out = u.out → u.time ≤ w.time →
      ∃ as, Turn op u as w ∧ ((∀ f d l, op ≠ .send f d l) → Orderly u as) := by
    intro w hw hout htime
    refine ⟨[], turn_quiet (fun f => ?_) (by rw [hout, List.append_nil]) quiet_nil htime,
      fun _ => orderly_quiet quiet_nil⟩
    rw [hw]
    exact .refl _
  have haside : ∀ w, RxAside u w →
      ∃ as, Turn op u as w ∧ ((∀ f d l, op ≠ .send f d l) → Orderly u as) := by
    intro w hw
    obtain ⟨as, hturn, has⟩ := @RxAside.turn _ _ op hw
    exact ⟨as, hturn, fun _ => orderly_quiet has⟩
  have hfree := rxAside_free u
  have hself : RxAside u u := .refl u
  cases op with
  | recv m =>
    obtain ⟨as, hturn, horder⟩ := turn_recv htx hu hop hs
    exact ⟨as, hturn, fun _ => horder⟩
  | tick =>
    cases hs
    refine hsilent _ rfl rfl ?_
    change u.time ≤ u32 (u.time + 1)
    rw [u32, Nat.mod_eq_of_lt hop]
    exact Nat.le_succ _
  | dataWinTimeOutCheck => exact haside v (hfree.frame.dataWinTimeOutCheck hself hs)
  | checkAck =>
    cases hs
    exact haside _ (hfree.checkAck hself)
  | sackPeriodSend =>
    cases hs
    have hack := AckStep.sackPeriodSend u
    obtain ⟨as, hout, has⟩ := hack.out
    have hquiet : Quiet as := by
      intro a ha dev m
      obtain ⟨dev', m', len, ok, rfl⟩ := has a ha
      rfl
    refine ⟨as, turn_quiet (fun f => ?_) hout hquiet hack.time.ge, fun _ => orderly_quiet hquiet⟩
    obtain ⟨t, ht⟩ := hack.windows f
    rw [ht]
    exact ⟨rfl, rfl, rfl, rfl, rfl, rfl⟩
  | txWinRetransCheck =>
    cases hs
    obtain ⟨as, hturn, horder⟩ := turn_txWinRetransCheck htx hu
    exact ⟨as, hturn, fun _ => horder⟩
  | send flowId data length =>
    cases hs
    obtain ⟨as, hturn⟩ := turn_send htx hu flowId data length
    exact ⟨as, hturn, fun hne => absurd rfl (hne flowId data length)⟩
  | setFlowValid flowId flag =>
    cases hs
    exact hsilent _ rfl rfl le_rfl
  | clearTxWin flowId =>
    cases hs
    obtain ⟨as, hturn, has⟩ := turn_clearTxWin u flowId
    exact ⟨as, hturn, fun _ => orderly_quiet has⟩
  | clearSubWin flowId =>
    cases hs
    exact hsilent _ rfl rfl le_rfl
  | changeDataWinFlowId flowId =>
    cases hs
    exact haside _ (hfree.changeFlowIdFrom hself _ _ _)
  | clearDataWin => exact haside v (hfree.frame.clearDataWin hself hs)

end Turn

end UserInfo

end Mpd

end AndroidVendor
