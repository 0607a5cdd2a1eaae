import AndroidVendor.Mpd.Delivery

/-!
# Delivery in order

`MPD_DataWinRxBeginMove` hands packets over at the head of the window, so their DSNs increase as
long as the head only moves forward. The one thing that takes it back is `MPD_DataWinAddNode`, when
it takes a window that has delivered everything up to DSN 65535 for one that was cleared, and the
packet that comes next is an old one.

## Main results

* `inOrder_run` — with every such packet ahead of what was handed over, DSNs are handed over in
  serial order
* `inOrder_goes_back` — an old packet there is handed over out of order
-/

namespace AndroidVendor

namespace Mpd

open Loop Machine Relation SerialRing

/-- If the window looks clear although packets have been handed over, the packet lies ahead of the
last of them. -/
def UserInfo.AheadOfLast (u : UserInfo) (m : Msg) : Prop :=
  u.rxDataWin.looksClear → ∀ dsn ∈ (inOrderDsns u.out).getLast?, Before 65536 dsn m.header.dsn

/-- A slot that holds something holds a buffer of the packet its position stands for, one that will
be handed over with it. -/
def Stored (v : Msg → ℕ) (p : ℕ) (n : RxDataWinNode) : Prop :=
  n.status ≠ .unReceived → n.dsn = p % 65536 ∧
    ∃ i m, i < 2 ∧ (n.fragment = 0 → i = 0) ∧ n.msgPtr i = some m ∧ v m = p

theorem steady_stored (A : Action → Prop) (v : Msg → ℕ) : Tape.Steady A (Stored v) where
  same p n n' h hsame _ hst := by
    rw [hsame.status] at hst
    obtain ⟨hdsn, i, m, hi, h0, hm, hv⟩ := h hst
    exact ⟨hsame.dsn ▸ hdsn, i, m, hi, by rw [hsame.fragment]; exact h0,
      by rw [hsame.msgPtr]; exact hm, hv⟩
  wiped p dsn hst := absurd rfl hst

theorem stored_put {v : Msg → ℕ} {p : ℕ} (n : RxDataWinNode) {node : MPDNodeInfo} (time : ℕ)
    (hf : node.fragment < 3) (hp : node.dsn = p % 65536) (hv : v node.msgPtr = p) :
    Stored v p (n.put node time) := by
  refine fun _ => ⟨hp, node.fragIndex, node.msgPtr, MPDNodeInfo.fragIndex_lt hf, fun h0 => ?_, ?_, hv⟩
  · have hnode : node.fragment = 0 := by
      by_contra hne
      exact n.put_fragment_ne_zero time hne h0
    rw [MPDNodeInfo.fragIndex, if_pos hnode]
  · simp [RxDataWinNode.put]

/-- A complete slot that leaves at the front hands over one packet in order, the one its position
stands for, or none. -/
theorem Stored.pass {v : Msg → ℕ} {p : ℕ} {n : RxDataWinNode} (h : Stored v p n)
    (hc : n.status = .receiveComplete) (mem : Option ℕ) :
    (∀ a ∈ n.passActions mem, a.inOrderDsn = none) ∨
      ∃ pre a post, n.passActions mem = pre ++ a :: post ∧
        (∀ b ∈ pre ++ post, b.inOrderDsn = none) ∧ a.inOrderDsn = some (p % 65536) ∧
        ∃ m ∈ a.buffers, v m = p := by
  obtain ⟨hdsn, i, m, hi, h0, hm, hv⟩ := h (by simp [hc])
  rw [RxDataWinNode.passActions]
  split
  · next hf =>
    -- an unfragmented packet
    obtain rfl := h0 hf
    split
    · refine .inr ⟨[], .post .inOrder n.dsn m (n.msgLen 0) n.mpdHeadLen,
        [.access (.flow n.stream)], ?_, ?_, congrArg some hdsn, m, List.mem_singleton_self m, hv⟩
      · simp [RxDataWinNode.postHead, hm]
      · simp [Action.inOrderDsn]
    · refine .inl fun a ha => ?_
      rw [List.nil_append, List.mem_singleton] at ha
      rw [ha]
      rfl
  split
  · -- two fragments
    have hafter : ∀ b ∈ Action.access (.flow n.stream) :: n.freePtrs.map Action.free,
        b.inOrderDsn = none := by
      simp only [List.mem_cons, List.mem_map]
      rintro b (rfl | ⟨m, -, rfl⟩) <;> rfl
    rcases n.postMerged_cases mem with heq | ⟨first, second, addr, hfirst, hsecond, heq⟩
    · refine .inl fun a ha => ?_
      rw [heq, List.append_assoc, List.mem_append] at ha
      exact ha.elim RxDataWinNode.mergeSubs_inOrderDsn (hafter a)
    · refine .inr ⟨n.mergeSubs, .postMerged n.dsn first second (n.merge first second addr)
        n.mergedLen n.mpdHeadLen, .access (.flow n.stream) :: n.freePtrs.map .free, ?_,
        fun b hb => ?_, congrArg some hdsn, m, ?_, hv⟩
      · rw [heq, List.append_assoc, List.append_assoc]
        rfl
      · exact (List.mem_append.mp hb).elim RxDataWinNode.mergeSubs_inOrderDsn (hafter b)
      · have : i = 0 ∨ i = 1 := by omega
        rcases this with rfl | rfl
        · rw [Option.some.inj (hm.symm.trans hfirst)]
          exact List.mem_cons_self ..
        · rw [Option.some.inj (hm.symm.trans hsecond)]
          exact List.mem_cons_of_mem _ (List.mem_singleton_self _)
  · exact .inl fun a ha => absurd ha List.not_mem_nil

/-- What the tape knows about the packets handed over in order, at positions `ps`. -/
structure InOrderAt (v : Msg → ℕ) (ps : List ℕ) (T : Tape) : Prop where
  window : T.Window
  stored : T.Cells (Stored v)
  posted : inOrderDsns T.out = ps.map (· % 65536)
  chain : ps.IsChain fun p q => p < q ∧ q < p + 32768
  passed : ∀ l ∈ ps.getLast?, l < T.rxBegin
  /-- What is stored is near enough to what was handed over last. -/
  near : ∀ l ∈ ps.getLast?, T.Cells fun p n => n.status ≠ .unReceived → p < l + 32768
  last : ∀ a ∈ lastInOrder T.out, ∃ l ∈ ps.getLast?, ∃ m ∈ a.buffers, v m = l

namespace InOrderAt

variable {v : Msg → ℕ} {ps : List ℕ} {T T' : Tape} {A : Action → Prop}

theorem steady_near (A : Action → Prop) (l : ℕ) :
    Tape.Steady A fun p n => n.status ≠ .unReceived → p < l + 32768 where
  same _ _ _ h hsame _ hst := h (hsame.status ▸ hst)
  wiped _ _ hst := absurd rfl hst

/-- The log grows by what is not handed over in order, and nothing else happens. -/
theorem emit {as : List Action} (h : InOrderAt v ps T) (has : ∀ a ∈ as, a.inOrderDsn = none) :
    InOrderAt v ps (T.emit as) where
  window := ⟨h.window.le, h.window.size⟩
  stored := h.stored
  posted := by
    rw [Tape.emit, inOrderDsns_append, inOrderDsns_of_none has, List.append_nil]
    exact h.posted
  chain := h.chain
  passed := h.passed
  near := h.near
  last := by
    rw [Tape.emit, lastInOrder_append_of_none has]
    exact h.last

/-- The window moves, nothing is handed over and the slots stay what they are. -/
theorem move (h : InOrderAt v ps T) (hb : T.rxBegin ≤ T'.rxBegin) (hw : T'.Window)
    (hout : T'.out = T.out)
    (hcells : ∀ P, Tape.Steady A P → T.Cells P → T'.Cells P) : InOrderAt v ps T' where
  window := hw
  stored := hcells _ (steady_stored A v) h.stored
  posted := hout ▸ h.posted
  chain := h.chain
  passed p hp := (h.passed p hp).trans_le hb
  near l hl := hcells _ (steady_near A l) (h.near l hl)
  last := hout ▸ h.last

/-- The log grows by a packet handed over in order, and the window is past it. -/
theorem handOver {p : ℕ} {pre post : List Action} {a : Action} (h : InOrderAt v ps T)
    (hp : T.rxBegin ≤ p) (hpn : p < T.rxNext) (hst : (T.cell p).status ≠ .unReceived)
    (hnone : ∀ b ∈ pre ++ post, b.inOrderDsn = none) (ha : a.inOrderDsn = some (p % 65536))
    (hm : ∃ m ∈ a.buffers, v m = p) (hcell : T'.cell = T.cell) (hb : T'.rxBegin = p + 1)
    (hn : T'.rxNext = T.rxNext) (hout : T'.out = T.out ++ (pre ++ a :: post)) :
    InOrderAt v (ps ++ [p]) T' where
  window := ⟨by omega, by have := h.window.size; omega⟩
  stored q hq hqn := by
    rw [hcell]
    exact h.stored q (by omega) (by omega)
  posted := by
    have hpost : inOrderDsns (pre ++ a :: post) = [p % 65536] := by
      rw [inOrderDsns_append, inOrderDsns_of_none fun b hb => hnone b (List.mem_append_left _ hb),
        List.nil_append, ← List.singleton_append, inOrderDsns_append,
        inOrderDsns_of_none fun b hb => hnone b (List.mem_append_right _ hb)]
      simp [inOrderDsns, ha]
    rw [hout, inOrderDsns_append, hpost, h.posted, List.map_append, List.map_singleton]
  chain := by
    refine List.isChain_append.mpr ⟨h.chain, List.isChain_singleton p, fun l hl q hq => ?_⟩
    obtain rfl : p = q := by simpa using hq
    exact ⟨(h.passed l hl).trans_le hp, h.near l hl p hp hpn.le hst⟩
  passed l hl := by
    obtain rfl : p = l := by simpa using hl
    omega
  near l hl := by
    obtain rfl : p = l := by simpa using hl
    intro q hq hqn _
    have := h.window.size
    omega
  last b hb := by
    refine ⟨p, by simp, ?_⟩
    have hlast : lastInOrder T'.out = some a := by
      rw [hout, ← List.append_assoc, ← List.singleton_append, ← List.append_assoc,
        lastInOrder_append_of_none fun b hb => hnone b (List.mem_append_right _ hb)]
      exact lastInOrder_concat (by simp [ha])
    rw [← Option.some.inj (hlast.symm.trans hb)]
    exact hm

/-- **A step of the tape.** Whatever is handed over in order lies in the window. -/
theorem step (hA : ∀ a, A a → a.inOrderDsn = none) (h : InOrderAt v ps T)
    (hs : Tape.Step A T T') :
    ∃ qs, InOrderAt v (ps ++ qs) T' ∧ ∀ q ∈ qs, T.rxBegin ≤ q := by
  have hw := hs.window h.window
  have hb := hs.bounds.1
  have hcells : ∀ P, Tape.Steady A P → T.Cells P → T'.Cells P := fun P hP hc => hc.step hP hs
  suffices (∃ as, T'.out = T.out ++ as ∧ ∀ a ∈ as, a.inOrderDsn = none) ∨
      InOrderAt v (ps ++ [T.rxBegin]) T' by
    rcases this with ⟨as, hout, has⟩ | h'
    · refine ⟨[], ?_, fun q hq => absurd hq List.not_mem_nil⟩
      rw [List.append_nil]
      exact (h.emit has).move hb hw hout fun P hP hc => hcells P hP hc
    · exact ⟨_, h', fun q hq => (List.mem_singleton.mp hq).ge⟩
  cases hs with
  | pass mem hlt hc =>
    have hst : T.head.status ≠ .unReceived := by simp [hc]
    rcases (h.stored T.rxBegin le_rfl hlt.le).pass hc mem with hnone |
      ⟨pre, a, post, heq, hnone, ha, hm⟩
    · exact .inl ⟨_, Tape.pass_out T mem, hnone⟩
    · refine .inr (h.handOver le_rfl hlt hst hnone ha hm (Tape.pass_cell T mem)
        (Tape.pass_rxBegin T mem) (Tape.pass_rxNext T mem) ?_)
      rw [← heq]
      exact Tape.pass_out T mem
  | drop hlt hc =>
    refine .inl ⟨_, rfl, fun a ha => ?_⟩
    obtain ⟨m, -, rfl⟩ := List.mem_map.mp ha
    rfl
  | other has => exact .inl ⟨_, rfl, fun a ha => hA a (has a ha)⟩
  | _ => exact .inl ⟨[], (List.append_nil _).symm, fun a ha => absurd ha List.not_mem_nil⟩

theorem widen (hA : ∀ a, A a → a.inOrderDsn = none) (h : InOrderAt v ps T)
    (hs : Tape.Widen A T T') :
    ∃ qs, InOrderAt v (ps ++ qs) T' ∧ ∀ q ∈ qs, T.rxBegin ≤ q := by
  cases hs with
  | step hs => exact h.step hA hs
  | grow hlt =>
    refine ⟨[], ?_, fun q hq => absurd hq List.not_mem_nil⟩
    rw [List.append_nil]
    exact h.move (A := A) le_rfl ((Tape.Widen.grow (A := A) hlt).window h.window) rfl
      fun P hP hc => hc.grow hP.wiped

theorem widens (hA : ∀ a, A a → a.inOrderDsn = none) (h : InOrderAt v ps T)
    (hs : Tape.Widens A T T') :
    ∃ qs, InOrderAt v (ps ++ qs) T' ∧ ∀ q ∈ qs, T.rxBegin ≤ q := by
  induction hs with
  | refl => exact ⟨[], by rwa [List.append_nil], fun q hq => absurd hq List.not_mem_nil⟩
  | tail hpre hs ih =>
    obtain ⟨qs, ih, hqs⟩ := ih
    obtain ⟨rs, h', hrs⟩ := ih.widen hA hs
    refine ⟨qs ++ rs, by rwa [← List.append_assoc], fun q hq => ?_⟩
    rcases List.mem_append.mp hq with hq | hq
    · exact hqs q hq
    · exact (Tape.Widens.begin_le hpre).trans (hrs q hq)

theorem steps (hA : ∀ a, A a → a.inOrderDsn = none) (h : InOrderAt v ps T)
    (hs : Tape.Steps A T T') :
    ∃ qs, InOrderAt v (ps ++ qs) T' ∧ ∀ q ∈ qs, T.rxBegin ≤ q := h.widens hA hs.widens

variable {node : MPDNodeInfo} {p time : ℕ}

/-- A packet is stored in the slot of its number. -/
theorem put (h : InOrderAt v ps T) (hf : node.fragment < 3) (hp : node.dsn = p % 65536)
    (hv : v node.msgPtr = p) (hnear : ∀ l ∈ ps.getLast?, p < l + 32768) :
    InOrderAt v ps (T.put p node time) := by
  have hemit : InOrderAt v ps (T.emit [.access (.frag node.fragIndex)]) :=
    h.emit fun a ha => by
      rw [List.mem_singleton.mp ha]
      rfl
  refine ⟨⟨h.window.le, h.window.size⟩, ?_, hemit.posted, h.chain, h.passed, fun l hl => ?_,
    hemit.last⟩
  · exact h.stored.put (stored_put _ time hf hp hv)
  · exact (h.near l hl).put fun _ => hnear l hl

/-- A packet is stored alone, ahead of all that was handed over. -/
theorem anchor {stale : RxDataWinNode} (h : InOrderAt v ps T) (hf : node.fragment < 3)
    (hp : node.dsn = p % 65536) (hv : v node.msgPtr = p) (hpassed : ∀ l ∈ ps.getLast?, l < p)
    (hnear : ∀ l ∈ ps.getLast?, p < l + 32768) :
    InOrderAt v ps (((T.anchor p node stale).put p node time).grow) := by
  have hemit : InOrderAt v ps (T.emit [.access (.frag node.fragIndex)]) :=
    h.emit fun a ha => by
      rw [List.mem_singleton.mp ha]
      rfl
  refine ⟨⟨Nat.le_succ p, by show p + 1 < p + 4096; omega⟩, ?_, hemit.posted, h.chain, hpassed,
    fun l hl => ?_, hemit.last⟩
  · exact Tape.Cells.anchor (fun p dsn hst => absurd rfl hst) (stored_put _ time hf hp hv)
  · exact Tape.Cells.anchor (fun p dsn hst => absurd rfl hst) fun _ => hnear l hl

/-- A packet is handed over ahead of order. -/
theorem early (h : InOrderAt v ps T) (hb : T.rxBegin ≤ p) (hn : p < T.rxNext) :
    InOrderAt v ps (T.early p) := by
  have hemit : InOrderAt v ps (T.emit ((T.cell p).postHead .early)) := by
    refine h.emit fun a ha => ?_
    obtain ⟨m, -, rfl⟩ := List.mem_map.mp ha
    rfl
  refine ⟨⟨h.window.le, h.window.size⟩, ?_, hemit.posted, h.chain, h.passed, fun l hl => ?_,
    hemit.last⟩
  · exact h.stored.early (h.stored p hb hn.le)
  · exact (h.near l hl).early (h.near l hl p hb hn.le)

end InOrderAt

/-- The window reaches no further than one past a packet that has arrived, and as long as nothing
was handed over one that has arrived does not lie ahead of it. -/
structure Reach (v : Msg → ℕ) (ops : List Op) (ps : List ℕ) (T : Tape) : Prop where
  next : ∃ m, .recv m ∈ ops ∧ ¬ m.IsAck ∧ T.rxNext ≤ v m + 1
  begin_ : ps = [] → ∃ m, .recv m ∈ ops ∧ ¬ m.IsAck ∧ v m ≤ T.rxBegin

/-- What the tape knows after the operations `ops`. -/
def InOrderInv (v : Msg → ℕ) (ops : List Op) (T : Tape) : Prop :=
  ∃ ps, InOrderAt v ps T ∧ ((T.LooksClear ∧ ps = []) ∨ Reach v ops ps T)

section Packet

variable {v : Msg → ℕ} {ops ops' : List Op} {ps qs : List ℕ} {T T' : Tape} {A : Action → Prop}

theorem Reach.mono (h : Reach v ops ps T) (hops : ops ⊆ ops') (hb : T.rxBegin ≤ T'.rxBegin)
    (hn : ∃ m, .recv m ∈ ops' ∧ ¬ m.IsAck ∧ T'.rxNext ≤ v m + 1) : Reach v ops' (ps ++ qs) T' where
  next := hn
  begin_ hnil := by
    obtain ⟨m, hm, hack, hle⟩ := h.begin_ (List.append_eq_nil_iff.mp hnil).1
    exact ⟨m, hops hm, hack, hle.trans hb⟩

/-- The window moves, and the log says how. -/
theorem InOrderInv.move (h : InOrderInv v ops T) (hops : ops ⊆ ops')
    (hb : T.rxBegin ≤ T'.rxBegin) (hn : T'.rxNext = T.rxNext)
    (hat : ∀ ps, InOrderAt v ps T →
      ∃ qs, InOrderAt v (ps ++ qs) T' ∧ ∀ q ∈ qs, T.rxBegin ≤ q) :
    InOrderInv v ops' T' := by
  obtain ⟨ps, hps, hreach⟩ := h
  obtain ⟨qs, hqs, hq⟩ := hat ps hps
  refine ⟨ps ++ qs, hqs, ?_⟩
  rcases hreach with ⟨⟨hempty, hzero⟩, rfl⟩ | hreach
  · have hsame : T'.rxBegin = T.rxBegin := by
      have := hqs.window.le
      omega
    refine .inl ⟨⟨by rw [hsame, hn, hempty], by rw [hsame, hzero]⟩, ?_⟩
    cases hlast : qs.getLast? with
    | none => exact List.getLast?_eq_none_iff.mp hlast
    | some q =>
      have := hq q (List.mem_of_getLast? hlast)
      have := hqs.passed q hlast
      omega
  · obtain ⟨m, hm, hack, hle⟩ := hreach.next
    exact .inr (hreach.mono hops hb ⟨m, hops hm, hack, hn ▸ hle⟩)

theorem InOrderInv.steps (hA : ∀ a, A a → a.inOrderDsn = none) (h : InOrderInv v ops T)
    (hops : ops ⊆ ops') (hs : Tape.Steps A T T') : InOrderInv v ops' T' :=
  h.move hops hs.bounds.1 hs.bounds.2 fun _ hat => hat.steps hA hs

/-- Looking for pure acknowledgements hands over nothing in order. -/
theorem InOrderInv.looks (hA : ∀ a, A a → a.inOrderDsn = none) (h : InOrderInv v ops T)
    (hops : ops ⊆ ops') (hs : ReflTransGen (Tape.Look A) T T') : InOrderInv v ops' T' := by
  induction hs with
  | refl => exact h.steps hA hops .refl
  | tail _ hs ih =>
    refine ih.move (List.Subset.refl _) ?_ ?_ fun ps hat => ?_
    · cases hs with
      | step hs => exact hs.bounds.1
      | early => exact le_rfl
    · cases hs with
      | step hs => exact hs.bounds.2
      | early => rfl
    · cases hs with
      | step hs => exact hat.step hA hs
      | early hb hn hc hf hm hack => exact ⟨[], by
          rw [List.append_nil]
          exact hat.early hb hn, fun q hq => absurd hq List.not_mem_nil⟩

/-- Where a packet lies that arrives while less than 32768 are in flight. -/
theorem InFlight.bounds {u : UserInfo} {m : Msg} (hfly : InFlight v ops u m)
    (hout : lastInOrder T.out = lastInOrder u.out) (hat : InOrderAt v ps T)
    (hreach : Reach v ops ps T) :
    T.rxNext ≤ v m + 32768 ∧ v m < T.rxBegin + 32768 ∧
      ∀ l ∈ ps.getLast?, v m < l + 32768 := by
  obtain ⟨m', hm', hack', hle⟩ := hreach.next
  have hlate := hfly.notLate m' hm' hack'
  have hlast : ∀ l ∈ ps.getLast?, v m < l + 32768 := by
    intro l hl
    have hne : inOrderDsns T.out ≠ [] := by
      rw [hat.posted]
      intro hnil
      rw [List.map_eq_nil_iff.mp hnil] at hl
      cases hl
    obtain ⟨a, ha⟩ := Option.ne_none_iff_exists'.mp fun h => hne (lastInOrder_eq_none_iff.mp h)
    obtain ⟨l', hl', m'', hm'', rfl⟩ := hat.last a ha
    obtain rfl := Option.some.inj (Option.mem_def.mp hl ▸ Option.mem_def.mp hl')
    exact hfly.notEarly a (hout ▸ ha) m'' hm''
  refine ⟨by omega, ?_, hlast⟩
  cases hps : ps.getLast? with
  | none =>
    rw [List.getLast?_eq_none_iff] at hps
    obtain ⟨m'', hm'', hack'', hle''⟩ := hreach.begin_ hps
    have hnone : lastInOrder u.out = none := by
      rw [← hout, lastInOrder_eq_none_iff, hat.posted, hps, List.map_nil]
    have := hfly.first hnone m'' hm'' hack''
    omega
  | some l =>
    have := hlast l hps
    have := hat.passed l hps
    omega

/-- The slot that has the packet's DSN is the slot of its number. -/
theorem InFlight.position {u : UserInfo} {m : Msg} (hfly : InFlight v ops u m) {p : ℕ}
    (hp : p % 65536 = m.header.dsn) (hle : p < v m + 65536) (hge : v m < p + 65536) : p = v m :=
  cell_inj (hp.trans hfly.dsn) hle hge

/-- The window is widened up to a packet, and then by it. -/
theorem InOrderAt.extend {u : UserInfo} {m : Msg} {T₁ : Tape} {time : ℕ}
    (hA : ∀ a, A a → a.inOrderDsn = none) (hat : InOrderAt v ps T) (hreach : Reach v ops ps T)
    (hout : lastInOrder T.out = lastInOrder u.out) (hfly : InFlight v ops u m)
    (hack : ¬ m.IsAck) (hf : m.header.fragment < 3) (hmem : .recv m ∈ ops') (hops : ops ⊆ ops')
    (hT : Tape.Widens A T T₁) (hle : T.rxNext ≤ T₁.rxNext) (hfar : T₁.rxNext ≤ T.rxNext + 1999)
    (hp : T₁.rxNext % 65536 = m.node.dsn)
    (hT' : Tape.Widens A (T₁.put T₁.rxNext m.node time) T') (hnext' : T'.rxNext = T₁.rxNext + 1) :
    InOrderInv v ops' T' := by
  obtain ⟨hnext, hbegin, hlast⟩ := hfly.bounds hout hat hreach
  have hw := hat.window.le
  have hpos := hfly.position hp (by omega) (by omega)
  obtain ⟨qs, hat₁, hqs⟩ := hat.widens hA hT
  have hlast₁ : ∀ l ∈ (ps ++ qs).getLast?, T₁.rxNext < l + 32768 := by
    intro l hl
    rw [hpos]
    rw [List.getLast?_append] at hl
    cases hq : qs.getLast? with
    | none =>
      rw [hq, Option.none_or] at hl
      exact hlast l hl
    | some q =>
      rw [hq, Option.some_or] at hl
      obtain rfl := Option.some.inj hl
      have := hqs q (List.mem_of_getLast? hq)
      omega
  have hat₂ : InOrderAt v (ps ++ qs) (T₁.put T₁.rxNext m.node time) :=
    hat₁.put hf hp.symm hpos.symm hlast₁
  obtain ⟨rs, hat', -⟩ := hat₂.widens hA hT'
  refine ⟨_, hat', .inr ?_⟩
  rw [List.append_assoc]
  have hput := Tape.Widens.begin_le hT'
  rw [Tape.put_rxBegin] at hput
  exact hreach.mono hops ((Tape.Widens.begin_le hT).trans hput)
    ⟨m, hmem, hack, (hnext'.trans (congrArg (· + 1) hpos)).le⟩

/-- A packet that anchors a window is ahead of what was handed over. -/
theorem InFlight.ahead {u : UserInfo} {m : Msg} (hfly : InFlight v ops u m)
    (hout : lastInOrder T.out = lastInOrder u.out) (hat : InOrderAt v ps T)
    (hreach : Reach v ops ps T)
    (hahead : ∀ dsn ∈ (inOrderDsns T.out).getLast?, Before 65536 dsn m.header.dsn) :
    (∀ l ∈ ps.getLast?, v m < l + 32768) ∧ ∀ l ∈ ps.getLast?, l < v m := by
  obtain ⟨hnext, hbegin, hlast⟩ := hfly.bounds hout hat hreach
  refine ⟨hlast, fun l hl => ?_⟩
  have hdsn : l % 65536 ∈ (inOrderDsns T.out).getLast? := by
    rw [hat.posted, List.getLast?_map, Option.mem_def.mp hl]
    exact Option.mem_some_self _
  have hbefore := hahead _ hdsn
  rw [hfly.dsn] at hbefore
  have := hat.passed l hl
  have := hat.window.le
  exact lt_of_before hbefore (by omega)

/-- **A packet arrives.** It is stored in the slot of its number, or a window that looks clear is
moved there, ahead of what was handed over. -/
theorem InOrderInv.arrives {u : UserInfo} {m : Msg} {t : ℕ} {stale : RxDataWinNode}
    (hA : ∀ a, A a → a.inOrderDsn = none) (h : InOrderInv v ops T)
    (hout : lastInOrder T.out = lastInOrder u.out) (hfly : InFlight v ops u m)
    (hack : ¬ m.IsAck) (hf : m.header.fragment < 3)
    (hahead : T.LooksClear → ∀ dsn ∈ (inOrderDsns T.out).getLast?, Before 65536 dsn m.header.dsn)
    (ht : t = v m) (hs : Tape.Arrives A m.node stale t T T') :
    InOrderInv v (ops ++ [.recv m]) T' := by
  have hops : ops ⊆ ops ++ [.recv m] := List.subset_append_left ..
  have hmem : .recv m ∈ ops ++ [.recv m] := by simp
  subst ht
  cases hs with
  | late d hc hd hd' hdsn =>
    refine h.move hops le_rfl rfl fun ps hat => ⟨[], ?_, fun q hq => absurd hq List.not_mem_nil⟩
    have hpost : InOrderAt v ps (T.emit [.post .outOfWindow m.node.dsn m.node.msgPtr m.node.msgLen
      m.node.mpdHeadLen]) := hat.emit (by simp [Action.inOrderDsn])
    rw [List.append_nil]
    exact hpost.move (A := A) le_rfl ⟨hat.window.le, hat.window.size⟩ rfl fun P _ hP => hP
  | refuse =>
    refine h.move hops le_rfl rfl fun ps hat => ⟨[], ?_, fun q hq => absurd hq List.not_mem_nil⟩
    rw [List.append_nil]
    exact hat.emit (by simp [Action.inOrderDsn])
  | @store p time hb hn hp hdup =>
    obtain ⟨ps, hat, ⟨⟨hempty, -⟩, -⟩ | hreach⟩ := h
    · omega
    obtain ⟨hnext, hbegin, hlast⟩ := hfly.bounds hout hat hreach
    obtain rfl := hfly.position hp (by omega) (by omega)
    refine ⟨ps, hat.put hf hp.symm rfl hlast, .inr ?_⟩
    obtain ⟨m', hm', hack', hle⟩ := hreach.next
    have hput : Reach v (ops ++ [.recv m]) (ps ++ []) (T.put (v m) m.node time) :=
      hreach.mono hops le_rfl ⟨m', hops hm', hack', hle⟩
    rwa [List.append_nil] at hput
  | @extend T₁ _ time hc hT hle hfar hp hblank hT' hnext' =>
    obtain ⟨ps, hat, ⟨hclear, -⟩ | hreach⟩ := h
    · exact absurd hclear hc
    exact hat.extend hA hreach hout hfly hack hf hmem hops hT hle hfar hp hT' hnext'
  | @anchor time hc ht =>
    obtain ⟨ps, hat, hreach⟩ := h
    obtain ⟨hlast, hpassed⟩ : (∀ l ∈ ps.getLast?, v m < l + 32768) ∧
        ∀ l ∈ ps.getLast?, l < v m := by
      rcases hreach with ⟨-, rfl⟩ | hreach
      · exact ⟨fun l hl => absurd hl (by simp), fun l hl => absurd hl (by simp)⟩
      exact hfly.ahead hout hat hreach (hahead hc)
    refine ⟨ps, hat.anchor hf hfly.dsn rfl hpassed hlast, .inr ⟨⟨m, hmem, hack, le_rfl⟩, fun _ => ?_⟩⟩
    exact ⟨m, hmem, hack, le_rfl⟩

end Packet

/-- What the network promises: nothing clears the windows, a data packet that is taken has a
fragment field below 3, and less than 32768 packets are in flight. -/
def NetworkInOrder (v : Msg → ℕ) (past : List Op) (u : UserInfo) (op : Op) : Prop :=
  op ≠ .clearDataWin ∧ ∀ m, op = .recv m → u.Accepts m →
    m.header.fragment < 3 ∧ InFlight v past u m

/-- What every step has to meet: the promise of the network, and that a packet which finds the
window looking clear lies ahead of what was handed over. -/
def StaysAhead (v : Msg → ℕ) (past : List Op) (u : UserInfo) (op : Op) : Prop :=
  NetworkInOrder v past u op ∧ ∀ m, op = .recv m → u.Accepts m → u.AheadOfLast m

theorem inOrderInv_blank (v : Msg → ℕ) (valid : ℕ → Bool) : InOrderInv v [] (Tape.blank valid) := by
  refine ⟨[], ⟨Tape.blank_window valid, ?_, rfl, .nil, ?_, ?_, ?_⟩, .inl ⟨⟨rfl, rfl⟩, rfl⟩⟩
  · exact fun p _ _ hst => absurd rfl hst
  · exact fun l hl => absurd hl (by simp)
  · exact fun l hl => absurd hl (by simp)
  · exact fun a ha => absurd ha (by simp [lastInOrder, Tape.blank])

/-- **A step of the session.** -/
theorem InOrderInv.step {v : Msg → ℕ} {ops : List Op} {u : UserInfo} {op : Op} {T T' : Tape}
    {A : Action → Prop} (hA : ∀ a, A a → a.inOrderDsn = none) (hT : UserInfo.AtRest u T)
    (h : InOrderInv v ops T) (hC : StaysAhead v ops u op)
    (hmoves : op.Moves A u (op.label v) T T') : InOrderInv v (ops ++ [op]) T' := by
  have hops : ops ⊆ ops ++ [op] := List.subset_append_left ..
  cases op with
  | recv m =>
    obtain ⟨as, has, hmove⟩ := hmoves
    have hemit : InOrderInv v ops (T.emit as) :=
      h.steps hA (List.Subset.refl _) (.single (.other has))
    rcases hmove with rfl | ⟨hacc, T₁, harr, hsteps⟩
    · refine hemit.move hops le_rfl rfl fun ps hat => ⟨[], ?_, fun q hq => absurd hq List.not_mem_nil⟩
      rw [List.append_nil]
      exact hat.emit (by simp [Action.inOrderDsn])
    · obtain ⟨hf, hfly⟩ := hC.1.2 m rfl hacc
      have hnone : ∀ a ∈ as, a.inOrderDsn = none := fun a ha => hA a (has a ha)
      have hlast : lastInOrder (T.emit as).out = lastInOrder u.out := by
        rw [Tape.emit, lastInOrder_append_of_none hnone, hT.out]
      refine (hemit.arrives hA hlast hfly hacc.2.1 hf (fun hc => ?_) rfl harr).steps hA
        (List.Subset.refl _) hsteps
      rw [Tape.emit, inOrderDsns_append, inOrderDsns_of_none hnone, List.append_nil, hT.out]
      exact hC.2 m rfl hacc (hT.looksClear_iff.mpr hc)
  | checkAck => exact h.looks hA hops hmoves.1
  | clearDataWin => exact absurd rfl hC.1.1
  | _ => exact h.steps hA hops hmoves

/-- **Delivery in order.** From a cleared window on, `MPD_DataWinRxBeginMove` hands packets over in
serial order, as long as every packet that finds the window looking clear lies ahead of those. -/
theorem inOrder_run (v : Msg → ℕ) (u₀ : UserInfo) {u : UserInfo} {ops : List Op}
    (h : Guarded Op.step (StaysAhead v) u₀.cleared ops u) :
    (inOrderDsns u.out).IsChain (Before 65536) := by
  obtain ⟨T, hT, ps, hps, -⟩ := UserInfo.guarded_tape (F := fun _ => True) (B := fun _ => True)
    (I := InOrderInv v) (fun _ _ => Op.label v) (fun _ u op _ => op.fits_true u)
    (fun _ _ m hC hacc _ => (hC.1.2 m rfl hacc).2.dsn.symm)
    (fun _ _ _ _ _ _ hT _ hI hC hmoves =>
      hI.step (fun _ => sideAction_inOrderDsn) hT hC hmoves)
    (inOrderInv_blank v) h
  rw [← hT.out, hps.posted, List.isChain_map]
  exact hps.chain.imp fun p q hpq => before_of_lt hpq.1 (by omega)

/-- Two packets around the wrap. The second finds the window looking clear. -/
theorem inOrder_run_wrap : ∃ u,
    run Op.step [.recv (.packet 0 0 0 65535 0 [0]), .recv (.packet 1 0 0 0 1 [0])]
      UserInfo.ready.cleared = some u ∧ (inOrderDsns u.out).IsChain (Before 65536) := by
  have h₁ : ((Op.recv (.packet 0 0 0 65535 0 [0])).step UserInfo.ready.cleared).map
      (lastInOrder ·.out) = some (some (.post .inOrder 65535 (.packet 0 0 0 65535 0 [0]) 13 12)) := by
    decide +kernel
  have hdsns : ((Op.recv (.packet 0 0 0 65535 0 [0])).step UserInfo.ready.cleared).map
      (inOrderDsns ·.out) = some [65535] := by
    decide +kernel
  have h₂ : (run Op.step [.recv (.packet 0 0 0 65535 0 [0]), .recv (.packet 1 0 0 0 1 [0])]
      UserInfo.ready.cleared).isSome := by
    decide +kernel
  obtain ⟨u, hu⟩ := Option.isSome_iff_exists.mp h₂
  have hmeets : Meets Op.step
      (StaysAhead fun m => if m.header.dsn = 0 then 65536 else m.header.dsn) []
      [.recv (.packet 0 0 0 65535 0 [0]), .recv (.packet 1 0 0 0 1 [0])] UserInfo.ready.cleared := by
    refine ⟨⟨⟨by decide, ?_⟩, ?_⟩, fun u₁ hu₁ => ⟨⟨⟨by decide, ?_⟩, ?_⟩, fun _ _ => trivial⟩⟩
    · rintro m ⟨⟩ -
      exact ⟨by simp, inFlight_first (by simp) rfl⟩
    · rintro m ⟨⟩ - - dsn hdsn
      exact absurd hdsn (by simp [inOrderDsns, UserInfo.cleared])
    · rintro m ⟨⟩ -
      refine ⟨by simp, by simp, by simp, fun a ha m' hm' => ?_, by simp⟩
      rw [hu₁] at h₁
      obtain rfl := Option.some.inj ((Option.some.inj h₁).symm.trans ha)
      obtain rfl := List.mem_singleton.mp hm'
      simp
    · rintro m ⟨⟩ - - dsn hdsn
      rw [hu₁] at hdsns
      have hone : inOrderDsns u₁.out = [65535] := Option.some.inj hdsns
      rw [hone] at hdsn
      obtain rfl := Option.some.inj hdsn
      simp
      decide
  exact ⟨u, hu, inOrder_run _ UserInfo.ready (hmeets.guarded hu)⟩

/-- **Out of order.** A window that has delivered DSN 65535 looks clear, and DSN 65534, which comes
next, is handed over behind it. -/
theorem inOrder_goes_back : ∃ u,
    Guarded Op.step (NetworkInOrder fun m => m.header.dsn) UserInfo.ready.cleared
      [.recv (.packet 0 0 0 65535 0 [0]), .recv (.packet 1 0 0 65534 1 [0])] u ∧
    inOrderDsns u.out = [65535, 65534] ∧ ¬ (inOrderDsns u.out).IsChain (Before 65536) := by
  have h₁ : ((Op.recv (.packet 0 0 0 65535 0 [0])).step UserInfo.ready.cleared).map
      (lastInOrder ·.out) = some (some (.post .inOrder 65535 (.packet 0 0 0 65535 0 [0]) 13 12)) := by
    decide +kernel
  have h₂ : (run Op.step [.recv (.packet 0 0 0 65535 0 [0]), .recv (.packet 1 0 0 65534 1 [0])]
      UserInfo.ready.cleared).map (inOrderDsns ·.out) = some [65535, 65534] := by
    decide +kernel
  obtain ⟨u, hu, hdsns⟩ := Option.map_eq_some_iff.mp h₂
  refine ⟨u, Meets.guarded ⟨⟨by decide, ?_⟩, fun u₁ hu₁ => ⟨⟨by decide, ?_⟩, fun _ _ => trivial⟩⟩ hu,
    hdsns, ?_⟩
  · rintro m ⟨⟩ -
    exact ⟨by simp, inFlight_first (by simp) rfl⟩
  · rintro m ⟨⟩ -
    refine ⟨by simp, by simp, by simp, fun a ha m' hm' => ?_, by simp⟩
    rw [hu₁] at h₁
    obtain rfl := Option.some.inj ((Option.some.inj h₁).symm.trans ha)
    obtain rfl := List.mem_singleton.mp hm'
    simp
  · rw [hdsns]
    decide

end Mpd

end AndroidVendor
