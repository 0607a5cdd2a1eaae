import AndroidVendor.Mpd.RxLog

/-!
# The log of a session

Whatever happens to a session, its log stays told, and goes on saying of the buffers in the tx
windows what their nodes say.

The environment names buffers: a buffer that is handed in for sending, or allocated for a fragment,
has a name of `F` that the session has not heard, and a buffer that was received or is allocated for
an acknowledgement has none.

## Main results

* `Transmits.step`, `Transmits.event` — a step of the session, and an indication
-/

namespace AndroidVendor

namespace Mpd

open Loop Machine TxWin UserInfo

variable {F : ℕ → Prop} {u v : UserInfo} {f b n : ℕ}

/-! ### New data -/

/-- The newest node holds the packet as it was sent. -/
theorem sendBlock_newest (h : Spans (u.txWindow f) b n) (data : Msg) (len frag : ℕ) :
    (((u.sendBlock f data len frag).2.txWindow f).dataNode (n % 1024)).pData =
      some (u.fillMPDHeader f data frag).1 := by
  obtain ⟨hssn, -, hwin, -⟩ := fillMPDHeader_spec u f data frag
  rw [UserInfo.sendBlock]
  generalize u.fillMPDHeader f data frag = r at *
  obtain ⟨data', u₁⟩ := r
  dsimp only at hssn hwin ⊢
  have hw₁ : u₁.txWindow f = { u.txWindow f with subflowSn := (n + 1) % 65536 } := by
    rw [hwin, Function.update_self, h.sn_eq, u16]
    congr 1
    omega
  have hssn' : data'.header.ssn = n % 65536 := by
    rw [hssn, h.sn_eq]
    omega
  obtain ⟨hidx, -, -, -, -, -, hnode, -⟩ := putDataToTxWin_nodes len h hw₁ hssn'
  generalize u₁.putDataToTxWin f data' len = r₂ at *
  obtain ⟨index, u₂⟩ := r₂
  dsimp only at hidx hnode ⊢
  subst hidx
  have hdata : ((u₂.txWindow f).dataNode (n % 1024)).pData = some data' := by
    rw [hnode]
    rfl
  obtain ⟨⟨state, hnodes⟩, -⟩ := callMPCToSend_nodes hdata
  rw [hnodes, Function.update_self, hdata]

theorem unheard_of_ne {a c : ℕ} {x : Action} (h : u.Unheard a) (hne : a ≠ c)
    (hout : v.out = u.out ++ [x]) (hfrees : ∀ a ∈ freesOf [x], a = c)
    (hsends : ∀ a ∈ sendsOf [x], a = c) (hheld : v.HasBuffer a → u.HasBuffer a) : v.Unheard a where
  freed := by
    rw [hout, freesOf_append, Multiset.mem_add, not_or]
    exact ⟨h.freed, fun hmem => hne (hfrees a hmem)⟩
  sent := by
    rw [hout, sendsOf_append, Multiset.mem_add, not_or]
    exact ⟨h.sent, fun hmem => hne (hsends a hmem)⟩
  held hmem := h.held (hheld hmem)

/-- The oldest node goes. -/
theorem UserInfo.Story.release (h : Story F u) (hd : TxWin.Sound (u.txWindow f).beginNode) :
    Story F ((u.freeTxBeginData f).txBeginInc f) := by
  refine h.gives (f := f) (i := (u.txWindow f).pTxBegin) hd (e := {}) rfl
    (.of_nodes ?_ (fun g hg => ?_) (txRelease_out u f))
  · rw [txRelease_txWindow, Function.update_self]
    rfl
  · rw [txRelease_txWindow, Function.update_of_ne hg]

/-- And takes no buffer with it that the session has not heard of. -/
theorem unheard_release {a : ℕ} (h : u.Unheard a) (hd : TxWin.Sound (u.txWindow f).beginNode) :
    ((u.freeTxBeginData f).txBeginInc f).Unheard a where
  freed := by
    rw [txRelease_out, freesOf_append, freesOf_releases hd, Multiset.mem_add, not_or]
    exact ⟨h.freed, fun hmem => h.held ⟨f, _, hmem⟩⟩
  sent := by
    rw [txRelease_out, sendsOf_append, sendsOf_releases, add_zero]
    exact h.sent
  held := by
    rintro ⟨g, i, hmem⟩
    rw [txRelease_txWindow, Function.update_apply] at hmem
    split at hmem
    · next heq =>
      subst heq
      by_cases hi : i = (u.txWindow g).pTxBegin
      · rw [beginInc, hi] at hmem
        rw [show ((u.txWindow g).setNode (u.txWindow g).pTxBegin {}).dataNode (u.txWindow g).pTxBegin =
          {} from Function.update_self ..] at hmem
        exact Multiset.notMem_zero _ hmem
      · refine h.held ⟨g, i, ?_⟩
        rwa [beginInc, show ((u.txWindow g).setNode (u.txWindow g).pTxBegin {}).dataNode i =
          (u.txWindow g).dataNode i from Function.update_of_ne hi ..] at hmem
    · exact h.held ⟨g, i, hmem⟩

/-- **A packet is sent.** -/
theorem UserInfo.Story.sendBlock {data : Msg} (h : Story F u) (hs : Spans (u.txWindow f) b n) (hf : f < 3)
    (hF : F data.addr) (hnew : u.Unheard data.addr) (len frag : ℕ) :
    Story F (u.sendBlock f data len frag).2 ∧
      ∀ a, a ≠ data.addr → u.Unheard a → (u.sendBlock f data len frag).2.Unheard a := by
  have hle := hs.le
  have hsize := hs.size
  obtain ⟨hoth, ⟨ok, hout⟩, -⟩ := sendBlock_spec hs data len frag
  obtain ⟨b', hpush⟩ := sendBlock_pushes hs data len frag
  have hnewest := sendBlock_newest hs data len frag
  have haddr : (u.fillMPDHeader f data frag).1.addr = data.addr := rfl
  generalize (u.fillMPDHeader f data frag).1 = data' at *
  generalize (u.sendBlock f data len frag).2 = v at *
  -- first a full window gives up its oldest node
  obtain ⟨u₁, h₁, hun₁, hs₁, hout₁, hoth₁, hold₁⟩ : ∃ u₁, Story F u₁ ∧
      (∀ a, u.Unheard a → u₁.Unheard a) ∧ Spans (u₁.txWindow f) b' n ∧
      v.out = u₁.out ++ [.send (getDeviceId f) data' (u16 len) false ok] ∧
      (∀ g, g ≠ f → u₁.txWindow g = u.txWindow g) ∧
      ∀ i, i ≠ b % 1024 ∨ n + 1 ≠ b + 1024 →
        (u₁.txWindow f).dataNode i = (u.txWindow f).dataNode i := by
    have hb := hpush.begin_eq
    by_cases hfull : n + 1 = b + 1024
    · rw [if_pos hfull] at hout hb
      refine ⟨(u.freeTxBeginData f).txBeginInc f, h.release (hs.sound _),
        fun a ha => unheard_release ha (hs.sound _), ?_, ?_, fun g hg => ?_, fun i hi => ?_⟩
      · rw [txRelease_txWindow, Function.update_self, hb]
        exact hs.release (by omega)
      · rw [txRelease_out, hout]
      · rw [txRelease_txWindow, Function.update_of_ne hg]
      · rw [txRelease_txWindow, Function.update_self, beginInc]
        exact Function.update_of_ne (by rw [hs.begin_eq]; exact hi.resolve_right (not_not.mpr hfull)) ..
    · rw [if_neg hfull] at hout hb
      refine ⟨u, h, fun _ ha => ha, hb ▸ hs, ?_, fun _ _ => rfl, fun _ _ => rfl⟩
      rw [hout, List.append_nil]
  have hbb : b ≤ b' ∧ b' ≤ n := by
    rw [hpush.begin_eq]
    split <;> omega
  have hsize' := hs₁.size
  have hothers : ∀ g j, (g ≠ f ∨ j ≠ n % 1024) →
      ((u₁.txWindow g).dataNode j).SameBuffer ((v.txWindow g).dataNode j) := by
    intro g j hne
    by_cases hg : g = f
    · subst hg
      have hj : j ≠ n % 1024 := hne.resolve_left fun h => h rfl
      rcases Nat.lt_or_ge j 1024 with hlt | hge
      · obtain ⟨x, hbx, hx, rfl⟩ := SerialRing.exists_position hlt b'
        rcases Nat.lt_trichotomy x n with hxn | rfl | hxn
        · rw [hpush.kept x hbx hxn, hold₁ _ ?_]
          · exact .refl _
          · rw [or_iff_not_imp_right, not_not]
            intro hfull
            have hb := hpush.begin_eq
            rw [if_pos hfull] at hb
            exact SerialRing.cell_ne (by omega) (by omega) (by omega)
        · exact absurd rfl hj
        · exact .of_none (hs₁.idle x (by omega) hx) (hpush.spans.idle x hxn hx)
      · rw [hpush.outside j hge, hold₁ j (.inl (by omega))]
        exact .refl _
    · rw [hoth g hg, hoth₁ g hg]
      exact .refl _
  have hidle : ((u₁.txWindow f).dataNode (n % 1024)).pData = none := hs₁.idle n le_rfl (by omega)
  refine ⟨h₁.put (hun₁ _ (haddr ▸ hnew)) (haddr ▸ hF) hf (Nat.mod_lt n (by decide)) hidle
    (DataNode.kept_of_some hnewest) hothers hout₁, fun a hne ha => ?_⟩
  refine unheard_of_ne (c := data'.addr) (hun₁ a ha) (haddr ▸ hne) hout₁
    (fun a hmem => absurd hmem (Multiset.notMem_zero _)) (fun a hmem => Multiset.mem_singleton.mp hmem) ?_
  rintro ⟨g, j, hmem⟩
  by_cases hplace : g = f ∧ j = n % 1024
  · obtain ⟨rfl, rfl⟩ := hplace
    rw [DataNode.kept_of_some hnewest, Multiset.mem_singleton] at hmem
    exact absurd (hmem.trans haddr) hne
  · exact ⟨g, j, (hothers g j (not_and_or.mp hplace)).kept ▸ hmem⟩

namespace UserInfo

theorem SameBuffers.of_eq (hw : v.txWindow = u.txWindow) : SameBuffers u v := fun f i => by
  rw [hw]
  exact .refl _

theorem SameBuffers.setTxWindow {w : TxWin}
    (h : ∀ i, ((u.txWindow f).dataNode i).SameBuffer (w.dataNode i)) :
    SameBuffers u (u.setTxWindow f w) := by
  intro g i
  by_cases hg : g = f
  · rw [hg, txWindow_setTxWindow]
    exact h i
  · rw [txWindow_setTxWindow_of_ne _ _ hg]
    exact .refl _

/-- Nothing is asked for. -/
theorem Story.silent (h : Story F u) (hw : SameBuffers u v) (hout : v.out = u.out) : Story F v :=
  h.quiet hw (hout.trans (List.append_nil _).symm) fun _ hx => absurd hx List.not_mem_nil

theorem Story.congr (h : Story F u) (hw : v.txWindow = u.txWindow) (hout : v.out = u.out) :
    Story F v :=
  h.silent (.of_eq hw) hout

theorem Unheard.congr {a : ℕ} (h : u.Unheard a) (hw : v.txWindow = u.txWindow)
    (hout : v.out = u.out) : v.Unheard a :=
  ⟨hout ▸ h.freed, hout ▸ h.sent, fun hmem => h.held ((SameBuffers.of_eq hw).hasBuffer.mp hmem)⟩

/-- Another buffer is given back. -/
theorem Unheard.drop {a : ℕ} {m : Msg} (h : u.Unheard a) (hne : a ≠ m.addr)
    (hw : v.txWindow = u.txWindow) (hout : v.out = u.out ++ [.free m]) : v.Unheard a :=
  unheard_of_ne (c := m.addr) h hne hout (fun _ hmem => Multiset.mem_singleton.mp hmem)
    (fun _ hmem => absurd hmem (Multiset.notMem_zero _)) (SameBuffers.of_eq hw).hasBuffer.mp

/-- Names of buffers of `F` that the session has not heard, all different. -/
structure NewNames (F : ℕ → Prop) (u : UserInfo) (l : List ℕ) : Prop where
  nodup : l.Nodup
  own : ∀ a ∈ l, F a
  unheard : ∀ a ∈ l, u.Unheard a

/-- What the allocator answers twice, at most. -/
def twoAllocs (u : UserInfo) : List ℕ := (u.allocs 0).toList ++ (u.allocs 1).toList

theorem NewNames.first {a c : ℕ} (h : NewNames F u (a :: u.twoAllocs)) (hc : u.allocs 0 = some c) :
    F c ∧ u.Unheard c ∧ c ≠ a := by
  have hmem : c ∈ u.twoAllocs := List.mem_append_left _ (Option.mem_toList.mpr hc)
  exact ⟨h.own _ (List.mem_cons_of_mem _ hmem), h.unheard _ (List.mem_cons_of_mem _ hmem),
    fun heq => (List.nodup_cons.mp h.nodup).1 (heq ▸ hmem)⟩

theorem NewNames.second {a c d : ℕ} (h : NewNames F u (a :: u.twoAllocs)) (hc : u.allocs 0 = some c)
    (hd : u.allocs 1 = some d) : F d ∧ u.Unheard d ∧ d ≠ a ∧ d ≠ c := by
  have hmem : d ∈ u.twoAllocs := List.mem_append_right _ (Option.mem_toList.mpr hd)
  refine ⟨h.own _ (List.mem_cons_of_mem _ hmem), h.unheard _ (List.mem_cons_of_mem _ hmem),
    fun heq => (List.nodup_cons.mp h.nodup).1 (heq ▸ hmem), fun heq => ?_⟩
  have hnodup := (List.nodup_cons.mp h.nodup).2
  rw [twoAllocs, hc, hd, heq] at hnodup
  simp at hnodup

/-- **`MPD_DoSendNewTransData`.** -/
theorem Story.doSendNewTransData {flowId : Option ℕ} {data : Msg} (h : Story F u) (htx : TxOk u)
    (hf : ∀ f ∈ flowId, f < 3) (hnew : NewNames F u (data.addr :: u.twoAllocs)) (length : ℕ) :
    Story F (u.doSendNewTransData flowId data length).2 := by
  have hdata : u.Unheard data.addr := hnew.unheard _ List.mem_cons_self
  have hF : F data.addr := hnew.own _ List.mem_cons_self
  rw [UserInfo.doSendNewTransData.eq_def]
  split
  · exact h.drop hdata (.of_eq rfl) rfl
  split
  · exact h.drop hdata (.of_eq rfl) rfl
  next flow =>
  have hflow : flow < 3 := hf flow rfl
  dsimp only
  set u₀ : UserInfo := { u with lastPackageTime := u32 (u.time + 6000) } with hu₀
  have h₀ : Story F u₀ := h.congr rfl rfl
  have hun₀ : ∀ a, u.Unheard a → u₀.Unheard a := fun a ha => ha.congr rfl rfl
  have hsend : ∀ (s : UserInfo), Story F s → s.txWindow = u.txWindow → s.Unheard data.addr →
      Story F (s.sendBlock flow data length 0).2 := by
    intro s hs hw hun
    obtain ⟨b, n, hsp⟩ := htx.congr hw flow
    exact (hs.sendBlock hsp hflow hF hun length 0).1
  by_cases hlong : 1480 ≤ length
  · rw [if_pos hlong]
    rcases splitDataMem_cases u₀ data hlong with
      ⟨frag, s, hsplit, hw, hout, hfirst, hlast⟩ | ⟨bs, s, hsplit, hw, hout, hbs, -, -⟩
    · rw [hsplit]
      dsimp only
      obtain ⟨hFf, hunf, hnef⟩ := hnew.first hfirst
      obtain ⟨hFl, hunl, hnel, hne⟩ := hnew.second hfirst hlast
      have hs : Story F s := h₀.drop (hun₀ _ hdata) (.of_eq hw) hout
      obtain ⟨b, n, hsp⟩ := htx.congr hw flow
      obtain ⟨hs₁, hun₁⟩ := hs.sendBlock hsp hflow hFf ((hun₀ _ hunf).drop hnef hw hout) 1012 1
      obtain ⟨b', n', hsp'⟩ := (htx.congr hw).sendBlock flow frag.first 1012 1 flow
      have hun₂ := hun₁ frag.last.addr hne ((hun₀ _ hunl).drop hnel hw hout)
      -- the counter of the data stream is set back
      generalize (s.sendBlock flow frag.first 1012 1).2 = t at *
      generalize u16 (t.txDataSn + 65535) = dsn
      have hs₂ : Story F { t with txDataSn := dsn } := hs₁.congr rfl rfl
      exact (hs₂.sendBlock hsp' hflow hFl (hun₂.congr rfl rfl) _ 2).1
    · rw [hsplit]
      rcases hbs with rfl | ⟨m, rfl, hfirst⟩
      · rw [List.append_nil] at hout
        exact hsend s (h₀.congr hw hout) hw ((hun₀ _ hdata).congr hw hout)
      · -- the one buffer there was is given back, and the packet goes out whole
        obtain ⟨-, hunm, hne⟩ := hnew.first hfirst
        exact hsend s (h₀.drop (hun₀ _ hunm) (.of_eq hw) hout) hw ((hun₀ _ hdata).drop hne.symm hw hout)
  · rw [if_neg hlong]
    exact hsend _ h₀ rfl (hun₀ _ hdata)

/-! ### The newest packet, and clears -/

theorem Story.txWinRetransFlow (h : Story F u) (htx : TxOk u) (f : ℕ) :
    Story F (u.txWinRetransFlow f) := by
  obtain ⟨b, n, hs⟩ := htx f
  rcases txWinRetransFlow_cases hs.sound with ⟨k, -, heq⟩ | ⟨i, d, as, hr⟩
  · rw [heq]
    exact h.silent (.setTxWindow fun i => .refl _) rfl
  · obtain ⟨len, ok, rfl⟩ := hr.sends
    exact h.again hr.data (.of_nodes hr.nodes hr.others hr.out) hr.data rfl

theorem Story.txWinRetransCheck (h : Story F u) (htx : TxOk u) : Story F u.txWinRetransCheck := by
  rw [UserInfo.txWinRetransCheck]
  split
  · exact ((h.txWinRetransFlow htx 0).txWinRetransFlow (htx.txWinRetransFlow 0) 1).txWinRetransFlow
      ((htx.txWinRetransFlow 0).txWinRetransFlow 1) 2
  · exact h

/-- The loop of `MPD_clearTxWin` comes to its end: the window is empty. -/
theorem Story.clearTxNodes {k : ℕ} (h : Story F u) (hs : Spans (u.txWindow f) b n) (hk : n ≤ b + k) :
    Story F (clearTxNodes f k u) ∧ Spans ((clearTxNodes f k u).txWindow f) n n := by
  induction k generalizing u b with
  | zero =>
    obtain rfl : b = n := by
      have := hs.le
      omega
    exact ⟨h, hs⟩
  | succ k ih =>
    rw [UserInfo.clearTxNodes]
    split
    · next hne =>
      have hlt : b < n := by
        rcases Nat.lt_or_eq_of_le hs.le with hlt | rfl
        · exact hlt
        · exact absurd (hs.begin_eq.trans hs.next_eq.symm) hne
      refine ih (h.release (hs.sound _)) (b := b + 1) ?_ (by omega)
      rw [txRelease_txWindow, Function.update_self]
      exact hs.release hlt
    · next heq =>
      have hmod : b % 1024 = n % 1024 := by
        rw [← hs.begin_eq, ← hs.next_eq]
        exact not_not.mp heq
      obtain rfl : b = n := SerialRing.cell_inj hmod (by have := hs.le; omega) hs.size
      exact ⟨h, hs⟩

theorem Story.clearTxWin (h : Story F u) (htx : TxOk u) (f : ℕ) : Story F (u.clearTxWin f) := by
  obtain ⟨b, n, hs⟩ := htx f
  have hsize := hs.size
  obtain ⟨hc, hempty⟩ := h.clearTxNodes hs (k := 1024) (by omega)
  rw [UserInfo.clearTxWin]
  generalize UserInfo.clearTxNodes f 1024 u = v at *
  -- the loop left nothing in the window that is written over
  refine hc.silent (.setTxWindow fun i => .of_none ?_ rfl) rfl
  rcases Nat.lt_or_ge i 1024 with hlt | hge
  · obtain ⟨x, hx, hx', rfl⟩ := SerialRing.exists_position hlt n
    exact hempty.idle x hx hx'
  · by_contra hsome
    have := hc.inside f i fun h0 => hsome (DataNode.kept_eq_zero.mp h0)
    omega

/-! ### Acknowledgements that are sent -/

/-- An acknowledgement goes out in a buffer of its own. -/
theorem Story.ackWriter (F : ℕ → Prop) :
    AckWriter (fun _ => True) fun u => (∀ k a, u.allocs k = some a → ¬ F a) ∧ Story F u where
  count u k h := ⟨h.1, h.2.congr rfl rfl⟩
  stamp u t h := ⟨h.1, h.2.congr rfl rfl⟩
  sentAck u f ack _ h := ⟨h.1, h.2.congr rfl rfl⟩
  message u ack sack f first _ h := by
    rw [subWinSendSackPacketMsg]
    dsimp only [msgMemCreat]
    cases haddr : u.allocs 0 with
    | none => exact ⟨fun k => h.1 (k + 1), h.2.congr rfl rfl⟩
    | some addr =>
      dsimp only
      refine ⟨fun k => h.1 (k + 1), h.2.quiet (.setTxWindow fun i => .refl _) rfl fun x hx => ?_⟩
      rw [List.mem_singleton.mp hx]
      exact ⟨rfl, h.1 0 addr haddr⟩

theorem Story.sackPeriodSend (h : Story F u) (hallocs : ∀ k a, u.allocs k = some a → ¬ F a) :
    Story F u.sackPeriodSend :=
  ((Story.ackWriter F).sackPeriodSend (fun _ _ _ _ => trivial) ⟨hallocs, h⟩).2

/-! ### A datagram -/

/-- The receive side does something. -/
theorem Story.rxQuiet (h : Story F u) (hq : RxQuiet F u v) : Story F v := by
  obtain ⟨as, hout, has⟩ := hq.out
  exact h.quiet (.of_eq hq.txWindow) hout has

/-- **`MPD_DoParseMPData`.** -/
theorem Story.doParseMPData {T : Tape} {m : Msg} (h : Story F u) (hT : AtRest u T) (htx : TxOk u)
    (hslots : AllSlots (RxDataWinNode.Foreign F) u) (hm : ¬ F m.addr)
    (hp : u.doParseMPData m = some v) : Story F v := by
  have hack : m.header.ack < 65536 := m.word_lt 6
  have hfree : ∀ s : UserInfo, Story F s → Story F (s.emit [.free m]) := fun s hs =>
    hs.quiet (.of_eq rfl) rfl fun x hx => by
      rw [List.mem_singleton.mp hx]
      exact hm
  obtain ⟨u₁, hc, ⟨-, rfl⟩ | ⟨-, s, t, hs, ht, hv⟩⟩ := doParseMPData_parts hp
  · exact hfree u₁ (h.counts hc)
  have hframe := Story.frame F m.header.stream
  have hsound : ∀ i, TxWin.Sound ((u₁.txWindow m.header.stream).dataNode i) := fun i => by
    obtain ⟨b, n, hsp⟩ := htx m.header.stream
    rw [(hc.windows _).nodes]
    exact hsp.sound i
  have htx₁ : TxOk u₁ := fun g => by
    obtain ⟨b, n, hsp⟩ := htx g
    exact ⟨b, n, (hc.windows g).spans hsp⟩
  obtain ⟨b, n, hsp⟩ := htx₁ m.header.stream
  have hs' := hframe.toAckFrame.processACK ⟨hsound, h.counts hc⟩ hs
  obtain ⟨s', -, hs'', hstep, -⟩ := processACK_spec (A := fun _ => True) m.firstSack hsp hack
  obtain rfl : s' = s := Option.some.inj (hs''.symm.trans hs)
  -- the acknowledgement and the SACK leave the receive side as it was
  obtain ⟨hst, hrx⟩ : Story F t ∧ TxStep (fun _ => True) s' t := by
    rcases ht with rfl | ⟨-, -, ht⟩
    · exact ⟨hs'.2, .refl _⟩
    · obtain ⟨b', n', hsp'⟩ := htx₁.processACK hack hs m.header.stream
      exact ⟨(hframe.parserSACK hs' ht).2, (parserSACK_spec hsp' (fun _ _ => trivial) ht).step⟩
  rcases hv with rfl | hv
  · exact hfree t hst
  have hdata : t.rxDataWin = u.rxDataWin := (hrx.rxDataWin.trans hstep.rxDataWin).trans hc.rxDataWin
  have hrest : AtRest t { T with out := t.out } :=
    hT.relog hdata ((hrx.rxSubWin.trans hstep.rxSubWin).trans hc.rxSubWin)
      fun i => ((hrx.valid i).trans (hstep.valid i)).trans (hc.valid i)
  exact hst.rxQuiet (RxQuiet.parseData hrest (hslots.congr (by rw [hdata])) hm hv)

end UserInfo

/-! ### The session -/

/-- What the names of the buffers of an operation have to be. -/
def Op.Fresh (F : ℕ → Prop) (u : UserInfo) : Op → Prop
  | .recv m => ¬ F m.addr
  | .send _ data _ => NewNames F u (data.addr :: u.twoAllocs)
  | .sackPeriodSend => ∀ k a, u.allocs k = some a → ¬ F a
  | _ => True

/-- A session that is told about its subflows, between two steps; its log goes on from `log`. -/
structure Transmits (F : ℕ → Prop) (log : List Action) (u : UserInfo) : Prop where
  rest : ∃ T, AtRest u T
  tx : TxOk u
  slots : AllSlots (RxDataWinNode.Foreign F) u
  story : Story F u
  grown : log <+: u.out

namespace Transmits

variable {log : List Action}

theorem congr (h : Transmits F log u) (hd : v.rxDataWin = u.rxDataWin) (hs : v.rxSubWin = u.rxSubWin)
    (hv : ∀ i, schdGetFlowValid v i = schdGetFlowValid u i) (hw : v.txWindow = u.txWindow)
    (ho : v.out = u.out) : Transmits F log v where
  rest := by
    obtain ⟨T, hT⟩ := h.rest
    exact ⟨_, hT.relog hd hs hv⟩
  tx := h.tx.congr hw
  slots := h.slots.congr (by rw [hd])
  story := h.story.congr hw ho
  grown := ho ▸ h.grown

/-- **A step of the session.** -/
theorem step (op : Op) (h : Transmits F log u) (hf : op.Fresh F u) (hs : op.step u = some v) :
    Transmits F log v := by
  obtain ⟨T, hT⟩ := h.rest
  have own : Own (fun _ => True) u := fun _ _ => trivial
  have hfits := Op.fits_true op u
  obtain ⟨T', hT', hmoves, -, htx'⟩ := step_tape (t := op.label fun m => m.header.dsn) hT own h.tx
    hfits (fun m hm _ _ => by subst hm; exact Nat.mod_eq_of_lt (m.word_lt 2)) hs
  have hslots : AllSlots (RxDataWinNode.Foreign F) v := by
    refine (slotInv_foreign F).step h.slots own h.tx (fun m hm => ?_) (fun _ _ _ _ => ⟨trivial, fun _ _ _ => trivial⟩) hs
    subst hm
    exact hf
  have hgrown : log <+: v.out := by
    rw [← hT'.out]
    exact Tape.moves_log hmoves (hT.out.symm ▸ h.grown)
  refine ⟨⟨T', hT'⟩, htx', hslots, ?_, hgrown⟩
  cases op with
  | recv m => exact h.story.doParseMPData hT h.tx h.slots hf hs
  | tick => cases hs; exact h.story.congr rfl rfl
  | dataWinTimeOutCheck => exact h.story.rxQuiet (.dataWinTimeOutCheck hT h.slots hs)
  | checkAck => cases hs; exact h.story.rxQuiet (.checkAck hT h.slots)
  | sackPeriodSend => cases hs; exact h.story.sackPeriodSend hf
  | txWinRetransCheck => cases hs; exact h.story.txWinRetransCheck h.tx
  | send flowId data length =>
    cases hs
    refine h.story.doSendNewTransData h.tx (fun f hflow => ?_) hf length
    obtain ⟨g, -, rfl⟩ := Option.map_eq_some_iff.mp hflow
    exact g.isLt
  | setFlowValid flowId flag => cases hs; exact h.story.congr rfl rfl
  | clearTxWin flowId => cases hs; exact h.story.clearTxWin h.tx flowId
  | clearSubWin flowId => cases hs; exact h.story.congr rfl rfl
  | changeDataWinFlowId flowId =>
    cases hs
    exact h.story.rxQuiet (.changeDataWinFlowId hT h.slots flowId)
  | clearDataWin => exact h.story.rxQuiet (.clearDataWin hT h.slots hs)

theorem clearValidFlow (h : Transmits F log u) (i : Fin 3) : Transmits F log (u.clearValidFlow i) := by
  rw [UserInfo.clearValidFlow]
  split
  · exact (h.step (.clearTxWin i) trivial rfl).step (.clearSubWin i) trivial rfl
  · exact h

theorem clearDataStream (h : Transmits F log u) (hs : u.clearDataStream = some v) : Transmits F log v := by
  obtain ⟨s, ht, rfl⟩ := Option.map_eq_some_iff.mp hs
  have h' : Transmits F log s := h.step .clearDataWin trivial ht
  exact h'.congr rfl rfl (fun _ => rfl) rfl rfl

theorem multipathInd (h : Transmits F log u) (hs : u.multipathInd = some v) : Transmits F log v := by
  obtain ⟨s, ht, rfl⟩ := Option.map_eq_some_iff.mp hs
  have h' : Transmits F log s :=
    (((h.clearValidFlow 0).clearValidFlow 1).clearValidFlow 2).clearDataStream ht
  exact h'.congr rfl rfl (fun _ => rfl) rfl rfl

theorem shutDown (h : Transmits F log u) {f : Fin 3} {isChange flagOld : Bool}
    (hs : u.shutDown f isChange flagOld = some v) : Transmits F log v := by
  have h₁ : Transmits F log (((u.clearTxWin f).clearSubWin f).changeDataWinFlowId f) :=
    ((h.step (.clearTxWin f) trivial rfl).step (.clearSubWin f) trivial rfl).step
      (.changeDataWinFlowId f) trivial rfl
  rw [UserInfo.shutDown] at hs
  split at hs
  · obtain ⟨s, ht, rfl⟩ := Option.map_eq_some_iff.mp hs
    have h₂ : Transmits F log s := by
      split at ht
      · cases ht
        exact h₁
      · exact h₁.clearDataStream ht
    split
    · exact h₂
    · generalize u32 (s.time + 6000) = last
      exact h₂.congr rfl rfl (fun _ => rfl) rfl rfl
  · cases hs
    exact h₁

/-- **A step of a session that is told about its subflows.** -/
theorem event {e : Event} (h : Transmits F log u) (hf : ∀ op, e = .traffic op → op.Fresh F u)
    (hs : e.step u = some v) : Transmits F log v := by
  cases e with
  | traffic op =>
    rw [Event.step] at hs
    split at hs
    · exact h.step op (hf op rfl) hs
    · cases hs
  | stateInd deviceId state =>
    rw [Event.step, UserInfo.doSubFlowStateInd] at hs
    split at hs
    · exact h.multipathInd hs
    split at hs
    · cases hs
      exact h
    next f hflow =>
    obtain ⟨s, ht, rfl⟩ := Option.map_eq_some_iff.mp hs
    have hset : ∀ flag, Transmits F log (u.schdSetFlowValid f flag) := fun flag =>
      h.step (.setFlowValid f flag) trivial rfl
    have hshut : Transmits F log s := by
      split at ht
      · cases ht
        exact hset _
      · exact (hset _).shutDown ht
    exact hshut.congr rfl rfl (fun _ => rfl) rfl rfl

theorem created (F : ℕ → Prop) (u : UserInfo) : Transmits F [] u.created where
  rest := ⟨_, atRest_cleared { u with schdPara := fun _ => {}, txDataSn := 0 }⟩
  tx _ := ⟨0, 0, TxWin.spans_clear⟩
  slots _ _ _ hm := by cases hm
  story :=
    { told := told_nil
      inside := fun _ _ hne => absurd rfl hne
      custody := fun _ _ a ha => absurd ha (Multiset.notMem_zero a)
      apart := fun _ _ _ _ a ha => absurd ha (Multiset.notMem_zero a)
      settled := fun _ _ _ _ hmem => absurd hmem List.not_mem_nil }
  grown := List.nil_prefix

/-- No buffer has gone through the session yet. -/
theorem unheard (h : Transmits (fun _ => False) log u) (hout : u.out = []) (a : ℕ) : u.Unheard a where
  freed := by
    rw [hout]
    exact Multiset.notMem_zero a
  sent := by
    rw [hout]
    exact Multiset.notMem_zero a
  held := by
    rintro ⟨f, i, hmem⟩
    exact (h.story.custody f i a hmem).own

end Transmits

/-- What the names of the buffers of an event have to be. -/
def Event.Fresh (F : ℕ → Prop) (_ : List Event) (u : UserInfo) (e : Event) : Prop :=
  ∀ op, e = .traffic op → op.Fresh F u

/-- The log gives back the buffer, once, or the node at `i` of subflow `f` holds it, and no other
does. -/
def UserInfo.Accounts (u : UserInfo) (a : ℕ) : Prop :=
  ((freesOf u.out).count a = 1 ∧ ∀ f i, a ∉ ((u.txWindow f).dataNode i).kept) ∨
    ((freesOf u.out).count a = 0 ∧ ∃ f < 3, ∃ i < 1024, ((u.txWindow f).dataNode i).kept = {a} ∧
      (∀ x ∈ u.out, x.Plain f a) ∧ (((u.txWindow f).dataNode i).transState ≠ .sacked → copies a u.out ≤ 1) ∧
      ∀ g j, a ∈ ((u.txWindow g).dataNode j).kept → f = g ∧ i = j)

theorem UserInfo.Story.accounts {deviceId len : ℕ} {m : Msg} {ok : Bool} (h : Story F u)
    (hmem : .send deviceId m len false ok ∈ u.out) : u.Accounts m.addr := by
  have hF : F m.addr := by
    obtain ⟨pre, post, heq⟩ := List.append_of_mem hmem
    have hfair := h.told pre _ post heq
    rw [Action.Fair, if_neg Bool.false_ne_true] at hfair
    exact hfair.1
  rcases h.settled deviceId m len ok hmem with ⟨f, i, hheld⟩ | hback
  · have hcustody := h.custody f i _ hheld
    have hi : i < 1024 := h.inside f i fun h0 => by
      rw [h0] at hheld
      exact Multiset.notMem_zero _ hheld
    have hkept : ((u.txWindow f).dataNode i).kept = {m.addr} := by
      cases hdata : ((u.txWindow f).dataNode i).pData with
      | none =>
        rw [DataNode.kept_of_none hdata] at hheld
        exact absurd hheld (Multiset.notMem_zero _)
      | some d =>
        rw [DataNode.kept_of_some hdata, Multiset.mem_singleton] at hheld
        rw [DataNode.kept_of_some hdata, hheld]
    exact .inr ⟨Multiset.count_eq_zero.mpr hcustody.kept, f, hcustody.flow, i, hi, hkept,
      hcustody.plain, hcustody.once, fun g j hmem => h.apart f i g j _ hheld hmem⟩
  · refine .inl ⟨le_antisymm (h.told.count_freesOf_le hF) (Multiset.count_pos.mpr hback), ?_⟩
    exact fun f i hheld => (h.custody f i _ hheld).kept hback

/-- **Custody of what is sent.** Whatever is asked for a transmit buffer is right after what was asked
before, and a buffer that was handed to a queue is in one node of the tx windows, or was given back
once. -/
theorem transmit_run (F : ℕ → Prop) (u : UserInfo) {events : List Event}
    (h : Guarded Event.step (Event.Fresh F) u.created events v) :
    (∀ pre x post, v.out = pre ++ x :: post → x.Fair F pre) ∧
      ∀ deviceId m len ok, .send deviceId m len false ok ∈ v.out → v.Accounts m.addr := by
  have hend : Transmits F [] v :=
    h.inv (I := fun _ s => Transmits F [] s) (fun _ e _ _ hs hf hstep => hs.event (e := e) hf hstep)
      (.created F u)
  exact ⟨hend.story.told, fun _ _ _ _ hmem => hend.story.accounts hmem⟩

/-- A subflow is enabled, one packet is sent on `f`, and acknowledged. -/
def answered (f : Fin 3) : List Event :=
  [.stateInd 1 3, .traffic (.send (some f) ⟨1, List.replicate 20 0⟩ 20),
    .traffic (.recv ⟨2, MPDHeader.encode ⟨0x55, 0, 0, 3, 0, 0, 1⟩ 0⟩)]

theorem answered_fresh : Meets Event.step (Event.Fresh (· = 1)) [] (answered 0)
    ({ allocs := fun _ => none } : UserInfo).created := by
  refine ⟨nofun, fun u hu => ⟨?_, fun _ _ => ⟨?_, fun _ _ => trivial⟩⟩⟩
  · rintro op ⟨⟩
    have hstart : Transmits (fun _ => False) [] u :=
      (Transmits.created _ _).event (e := .stateInd 1 3) nofun hu
    obtain ⟨hallocs, hempty⟩ : u.twoAllocs = [] ∧ u.out = [] := by
      cases hu
      exact ⟨rfl, rfl⟩
    rw [Op.Fresh, hallocs]
    exact ⟨List.nodup_singleton 1, fun a ha => List.mem_singleton.mp ha,
      fun a _ => hstart.unheard hempty a⟩
  · rintro op ⟨⟩
    show (2 : ℕ) ≠ 1
    decide

/-- The buffer is given back once, and no node has it any more. -/
theorem transmit_run_answered : ∃ v : UserInfo,
    run Event.step (answered 0) ({ allocs := fun _ => none } : UserInfo).created = some v ∧
      (freesOf v.out).count 1 = 1 ∧ ∀ f i, 1 ∉ ((v.txWindow f).dataNode i).kept := by
  have heval : (run Event.step (answered 0) ({ allocs := fun _ => none } : UserInfo).created).map
      (fun v => decide (1 ∈ freesOf v.out ∧ .send 1 ⟨1, MPDHeader.encode ⟨0x55, 0, 0, 3, 0, 0, 0⟩ 0 ++
        List.replicate 8 0⟩ 20 false true ∈ v.out)) = some true := by
    decide +kernel
  obtain ⟨v, hrun, hproj⟩ := Option.map_eq_some_iff.mp heval
  obtain ⟨hback, hmem⟩ := of_decide_eq_true hproj
  rcases (transmit_run (· = 1) _ (answered_fresh.guarded hrun)).2 1 _ 20 true hmem with
    hfreed | ⟨hkept, -⟩
  · exact ⟨v, hrun, hfreed⟩
  · exact absurd hback (Multiset.count_eq_zero.mp hkept)

end Mpd

end AndroidVendor
