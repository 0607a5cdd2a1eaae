import AndroidVendor.Mpd.SlotLog

/-!
# Only whole packets are handed over

Everything the transport is given is the payload of one unfragmented packet or of the two fragments
of one DSN, first and second, put together.

## Main results

* `wholePackets_run` — in every run whose steps meet `KeepsWhole`
* `wholePackets_late` — a lone fragment behind the window is handed over
-/

namespace AndroidVendor

namespace Mpd

open Loop Machine Relation

/-- The bytes behind the header. -/
def Msg.payload (m : Msg) : List UInt8 := m.data.drop m.node.mpdHeadLen

/-- The slice of a buffer that the transport is given with `datalen` and `offsize`. -/
def Msg.posted (m : Msg) (datalen offsize : ℕ) : List UInt8 := (m.data.take datalen).drop offsize

/-- What is handed over is one unfragmented packet or two fragments, first and second, of one
DSN. -/
def Action.Whole : Action → Prop
  | .post _ dsn m datalen offsize =>
    m.header.fragment = 0 ∧ m.header.dsn = dsn ∧ m.posted datalen offsize = m.payload
  | .postMerged dsn first second buffer datalen offsize =>
    first.header.fragment = 1 ∧ second.header.fragment = 2 ∧ first.header.dsn = dsn ∧
      second.header.dsn = dsn ∧ buffer.posted datalen offsize = first.payload ++ second.payload
  | _ => True

/-- What a slot records of a packet is what the packet says. Datagrams have at most 1512 bytes. -/
structure Faithful (_ : ℕ) (node : MPDNodeInfo) : Prop where
  fragment : node.msgPtr.header.fragment = node.fragment
  dsn : node.msgPtr.header.dsn = node.dsn
  head : node.msgPtr.node.mpdHeadLen = node.mpdHeadLen
  len : node.msgPtr.data.length = node.msgLen
  size : node.msgLen ≤ 1512
  inside : node.fragment ≠ 0 → node.mpdHeadLen ≤ node.msgLen

theorem Msg.slice_eq (m : Msg) {off len : ℕ} (h : off + len ≤ m.data.length) :
    m.slice off len = (m.data.drop off).take len := by
  refine List.ext_getElem (by simp; omega) fun i hi _ => ?_
  rw [Msg.length_slice] at hi
  simp only [Msg.slice, List.getElem_map, List.getElem_range, List.getElem_take, List.getElem_drop]
  rw [List.getD_eq_getElem?_getD, List.getElem?_eq_getElem (by omega), Option.getD_some]

section Merge

variable {n : RxDataWinNode} {first second m : Msg} {p : ℕ}

/-- Two fragments in one slot have the header length of the one that came last. -/
theorem Faithful.merged (h₀ : Faithful p (n.record 0 first)) (h₁ : Faithful p (n.record 1 second))
    (hf : n.fragment = 3) :
    n.mpdHeadLen ≤ n.msgLen 0 ∧ n.mpdHeadLen ≤ n.msgLen 1 ∧
      first.data.length = n.msgLen 0 ∧ second.data.length = n.msgLen 1 ∧
      first.node.mpdHeadLen = n.mpdHeadLen ∧ second.node.mpdHeadLen = n.mpdHeadLen := by
  have hne : n.fragment ≠ 0 := by omega
  refine ⟨h₀.inside ?_, h₁.inside ?_, h₀.len, h₁.len, h₀.head, h₁.head⟩ <;>
    simp [RxDataWinNode.record, hne]

/-- The buffer of two fragments holds the first one and the payload of the second. -/
theorem Faithful.merge_data (h₀ : Faithful p (n.record 0 first))
    (h₁ : Faithful p (n.record 1 second)) (hf : n.fragment = 3) (addr : ℕ) :
    (n.merge first second addr).data = first.data ++ second.payload := by
  obtain ⟨hle₀, hle₁, hlen₀, hlen₁, -, hhead₁⟩ := h₀.merged h₁ hf
  have hfirst : first.slice 0 n.mpdHeadLen ++
      first.slice n.mpdHeadLen (n.msgLen 0 - n.mpdHeadLen) = first.data := by
    rw [Msg.slice_eq _ (by omega), Msg.slice_eq _ (by omega), List.drop_zero, ← hlen₀,
      ← List.length_drop, List.take_length, List.take_append_drop]
  have hsecond : second.slice n.mpdHeadLen (n.msgLen 1 - n.mpdHeadLen) = second.payload := by
    rw [Msg.slice_eq _ (by omega), ← hlen₁, ← List.length_drop, List.take_length, Msg.payload, hhead₁]
  rw [RxDataWinNode.merge, hfirst, hsecond]

/-- What a slot with two fragments hands over is whole. -/
theorem Faithful.whole_merged (h₀ : Faithful p (n.record 0 first))
    (h₁ : Faithful p (n.record 1 second)) (hf : n.fragment = 3) (addr : ℕ) :
    (Action.postMerged n.dsn first second (n.merge first second addr) n.mergedLen
      n.mpdHeadLen).Whole := by
  obtain ⟨hle₀, hle₁, hlen₀, hlen₁, hhead₀, hhead₁⟩ := h₀.merged h₁ hf
  have hsize₀ : n.msgLen 0 ≤ 1512 := h₀.size
  have hsize₁ : n.msgLen 1 ≤ 1512 := h₁.size
  have hmerged : n.mergedLen = (first.data ++ second.payload).length := by
    rw [List.length_append, Msg.payload, List.length_drop, RxDataWinNode.mergedLen]
    omega
  refine ⟨h₀.fragment.trans ?_, h₁.fragment.trans ?_, h₀.dsn, h₁.dsn, ?_⟩
  · simp [RxDataWinNode.record, hf]
  · simp [RxDataWinNode.record, hf]
  · rw [Msg.posted, h₀.merge_data h₁ hf addr, hmerged, List.take_length,
      List.drop_append_of_le_length (by omega)]
    simp only [Msg.payload, hhead₀, hhead₁]

/-- An unfragmented packet is whole wherever it is handed over. -/
theorem Faithful.whole_post (h : Faithful p (n.record 0 m)) (hf : n.fragment = 0) (site : PostSite) :
    (Action.post site n.dsn m (n.msgLen 0) n.mpdHeadLen).Whole := by
  have hlen : m.data.length = n.msgLen 0 := h.len
  have hhead : m.node.mpdHeadLen = n.mpdHeadLen := h.head
  refine ⟨h.fragment.trans ?_, h.dsn, ?_⟩
  · simp [RxDataWinNode.record, hf]
  · rw [Msg.posted, ← hlen, List.take_length, Msg.payload, hhead]

end Merge

theorem sideAction_whole {F : ℕ → Prop} {B : Access → Prop} {a : Action}
    (h : SideAction F B a) : a.Whole := by
  cases a with
  | post => exact h.elim
  | postMerged => exact h.elim
  | _ => trivial

theorem logRules_whole (F : ℕ → Prop) (B : Access → Prop) :
    LogRules (SideAction F B) Faithful Action.Whole where
  other _ := sideAction_whole
  lost _ _ _ h := ⟨h.fragment, h.dsn, h.head, h.len, h.size, h.inside⟩
  free _ := trivial
  pass p n mem h hc a ha := by
    rcases h.passActions hc mem with ⟨hf, m, -, hq, heq⟩ | ⟨hf, first, second, -, -, h₀, h₁, heq⟩
    · rw [heq] at ha
      rcases List.mem_append.mp ha with ha | ha
      · split at ha
        · rw [List.mem_singleton.mp ha]
          exact hq.whole_post hf _
        · cases ha
      · rw [List.mem_singleton.mp ha]
        trivial
    · rw [heq] at ha
      simp only [RxDataWinNode.mergeSubs, List.mem_append, List.mem_cons, List.not_mem_nil, or_false,
        List.mem_map] at ha
      rcases ha with (((rfl | rfl) | ⟨addr, -, rfl⟩) | rfl) | rfl | rfl
      exacts [trivial, trivial, h₀.whole_merged h₁ hf addr, trivial, trivial, trivial]

/-- What every step has to meet. A packet that is taken has a fragment field below 3; one behind the
window is not a fragment. A fragment has its header inside, finds the other one with a header of the
same length, and no remains of one in a window that looks clear; `MPD_CheckAck` does not find two
fragments the first of which looks like a pure acknowledgement. -/
structure KeepsWhole (_ : List Op) (u : UserInfo) (op : Op) : Prop where
  size : ∀ m, op = .recv m → m.data.length ≤ 1512
  fragment : ∀ m, op = .recv m → u.Accepts m → m.header.fragment < 3
  late : ∀ m, op = .recv m → u.Accepts m → u.HandsLate m → m.header.fragment = 0
  inside : ∀ m, op = .recv m → u.Accepts m → m.header.fragment ≠ 0 →
    m.node.mpdHeadLen ≤ m.data.length
  join : ∀ m, op = .recv m → u.Accepts m → m.header.fragment ≠ 0 → ∀ n, u.Meets m n →
    n.mpdHeadLen = m.node.mpdHeadLen
  fresh : ∀ m, op = .recv m → u.Accepts m → u.FreshSlot m
  check : op = .checkAck → u.NoEarlyFragment

/-- A packet as it arrives. -/
theorem faithful_node {m : Msg} {p : ℕ} (hsize : m.data.length ≤ 1512)
    (hinside : m.header.fragment ≠ 0 → m.node.mpdHeadLen ≤ m.data.length) : Faithful p m.node where
  fragment := rfl
  dsn := rfl
  head := rfl
  len := (Nat.mod_eq_of_lt (show m.data.length < 65536 by omega)).symm
  size := (Nat.mod_le _ _).trans hsize
  inside h := by
    have hlen : m.node.msgLen = m.data.length :=
      Nat.mod_eq_of_lt (show m.data.length < 65536 by omega)
    rw [hlen]
    exact hinside h

/-- **A step of the session.** -/
theorem wholePackets_step {F : ℕ → Prop} {B : Access → Prop} {ops : List Op} {u : UserInfo} {op : Op}
    {T T' : Tape} {t : ℕ} (hT : UserInfo.AtRest u T) (h : LoggedAt Faithful Action.Whole T)
    (hC : KeepsWhole ops u op) (hmoves : op.Moves (SideAction F B) u t T T') :
    LoggedAt Faithful Action.Whole T' := by
  have hR := logRules_whole F B
  by_cases hop : ∃ m, op = .recv m
  · obtain ⟨m, rfl⟩ := hop
    have hfaith : u.Accepts m → ∀ p, Faithful p m.node := fun hacc p =>
      faithful_node (hC.size m rfl) (hC.inside m rfl hacc)
    refine LoggedAt.recv hR hT h (hC.fragment m rfl) (fun hacc p _ => hfaith hacc p)
      (fun _ => trivial) (fun hacc hlate => ?_) (fun hacc p n hmeets h0 hst i m' hi hm' hq => ?_)
      (hC.fresh m rfl) hmoves
    · have hlen := (hfaith hacc 0).len
      refine ⟨hC.late m rfl hacc hlate, rfl, ?_⟩
      show (m.data.take m.node.msgLen).drop m.node.mpdHeadLen = m.payload
      rw [← hlen]
      show (m.data.take m.data.length).drop m.node.mpdHeadLen = m.payload
      rw [List.take_length, Msg.payload]
    · have hhead := hC.join m rfl hacc h0 n hmeets
      exact ⟨hq.fragment, hq.dsn, hq.head.trans hhead, hq.len, hq.size,
        fun h0 => hhead ▸ hq.inside h0⟩
  · refine LoggedAt.quiet hR h (fun m hm => hop ⟨m, hm⟩) (fun hcheck hnew hlook => ?_) hmoves
    refine (LoggedAt.keeps hR).looks_plain (fun S p m hS hb hn hc hf hm h0 => ?_) h
      (hT.plain (hC.check hcheck) hnew) hlook
    refine hS.early hb hn fun a ha => ?_
    obtain ⟨m', hm', hq⟩ :=
      (hS.filed p hb hn.le).ptr 0 (RxDataWinNode.holds_zero (by simp [hc]) h0)
    rw [RxDataWinNode.postHead, hm', Option.toList_some, List.map_singleton,
      List.mem_singleton] at ha
    rw [ha]
    exact hq.whole_post h0 _

/-- **Only whole packets are handed over**, in every run whose steps meet `KeepsWhole`. -/
theorem wholePackets_run (u₀ : UserInfo) {u : UserInfo} {ops : List Op}
    (h : Guarded Op.step KeepsWhole u₀.cleared ops u) : ∀ a ∈ u.out, a.Whole := by
  obtain ⟨T, hT, hlog⟩ := UserInfo.guarded_tape (F := fun _ => True) (B := fun _ => True)
    (I := fun _ => LoggedAt Faithful Action.Whole) (fun _ _ => Op.label fun m => m.header.dsn)
    (fun _ u op _ => op.fits_true u) (fun _ _ m _ _ _ => Nat.mod_eq_of_lt (m.word_lt 2))
    (fun _ _ _ _ _ _ hT _ hI hC hmoves => wholePackets_step hT hI hC hmoves)
    (LoggedAt.blank Faithful Action.Whole) h
  rw [← hT.out]
  exact hlog.log

/-- Two fragments of one packet, the second of which arrives first. -/
theorem wholePackets_run_fragments : ∃ u,
    run Op.step [.recv (.packet 0 2 0 0 1 [1]), .recv (.packet 1 1 0 0 0 [0])]
      UserInfo.ready.cleared = some u ∧ ∀ a ∈ u.out, a.Whole := by
  have hrun : (run Op.step [.recv (.packet 0 2 0 0 1 [1]), .recv (.packet 1 1 0 0 0 [0])]
      UserInfo.ready.cleared).isSome := by
    decide +kernel
  have h₁ : ((Op.recv (.packet 0 2 0 0 1 [1])).step UserInfo.ready.cleared).map
      (fun u => (u.rxDataWin.rxNext, u.nodeCnt, (u.rxDataWin.win u.rxDataWin.rxBegin).mpdHeadLen,
        u.rxDataWin.rxBegin, u.rxDataWin.beginNode.dsn)) = some (1, 1, 12, 0, 0) := by
    decide +kernel
  obtain ⟨u, hu⟩ := Option.isSome_iff_exists.mp hrun
  have hmeets : Meets Op.step KeepsWhole []
      [.recv (.packet 0 2 0 0 1 [1]), .recv (.packet 1 1 0 0 0 [0])] UserInfo.ready.cleared := by
    refine ⟨⟨?_, ?_, ?_, ?_, ?_, ?_, by simp⟩, fun u₁ hu₁ =>
      ⟨⟨?_, ?_, ?_, ?_, ?_, ?_, by simp⟩, fun _ _ => trivial⟩⟩
    · rintro m ⟨⟩
      decide
    · rintro m ⟨⟩ -
      decide
    · rintro m ⟨⟩ - hlate
      exact absurd ⟨rfl, rfl, rfl⟩ hlate.1
    · rintro m ⟨⟩ - -
      decide
    · rintro m ⟨⟩ - - n ⟨⟨k, hk, -⟩, -, -⟩
      exact absurd hk (Nat.not_lt_zero k)
    · rintro m ⟨⟩ - - -
      exact .inl rfl
    all_goals
      rw [hu₁, Option.map_some, Option.some.injEq, Prod.mk.injEq, Prod.mk.injEq, Prod.mk.injEq,
        Prod.mk.injEq] at h₁
      obtain ⟨hnext, hcnt, hhead, hbegin, hdsn⟩ := h₁
    · rintro m ⟨⟩
      decide
    · rintro m ⟨⟩ -
      decide
    · rintro m ⟨⟩ - ⟨-, hbehind, -⟩
      rw [RxDataWin.Behind, hdsn] at hbehind
      exact absurd hbehind (by decide)
    · rintro m ⟨⟩ - -
      decide
    · rintro m ⟨⟩ - - n ⟨⟨k, hk, rfl⟩, -, -⟩
      obtain rfl : k = 0 := by omega
      rw [hbegin] at hhead ⊢
      exact hhead
    · rintro m ⟨⟩ - hclear -
      exact absurd (hnext.symm.trans hclear.2.1) (by decide)
  exact ⟨u, hu, wholePackets_run UserInfo.ready (hmeets.guarded hu)⟩

/-- **A lone fragment behind the window** is handed over. -/
theorem wholePackets_late : ∃ u,
    run Op.step [.recv (.packet 0 0 0 1 0 [0]), .recv (.packet 1 1 0 0 1 [0])]
      UserInfo.ready.cleared = some u ∧
    .post .outOfWindow 0 (.packet 1 1 0 0 1 [0]) 13 12 ∈ u.out ∧ ¬ ∀ a ∈ u.out, a.Whole := by
  have hrun : (run Op.step [.recv (.packet 0 0 0 1 0 [0]), .recv (.packet 1 1 0 0 1 [0])]
      UserInfo.ready.cleared).map
      (fun u => decide (.post .outOfWindow 0 (.packet 1 1 0 0 1 [0]) 13 12 ∈ u.out)) = some true := by
    decide +kernel
  obtain ⟨u, hu, hpost⟩ := Option.map_eq_some_iff.mp hrun
  have hmem := of_decide_eq_true hpost
  refine ⟨u, hu, hmem, fun hwhole => ?_⟩
  have hfragment := (hwhole _ hmem).1
  simp at hfragment

end Mpd

end AndroidVendor
