import AndroidVendor.Mpd.SlotLog

/-!
# Malformed datagrams

The code takes the lengths of a datagram from its own fields, and compares them with what it
received only here and there. `WellSized` is what it relies on; a datagram that satisfies it is read
inside its bounds, and so is everything that is later made of it.

## Main results

* `robust_run` — in every run whose steps meet `KeepsInside`, every access is in range and every
  slice that is handed over lies inside its buffer
* `robust_short` — a datagram of one byte is read past its end
-/

namespace AndroidVendor

namespace Mpd

open Loop Machine Relation

/-- An access is in range; a slice that is handed over lies inside its buffer. -/
def Action.Inside : Action → Prop
  | .access a => a.InRange
  | .post _ _ m datalen offsize => offsize ≤ datalen ∧ datalen ≤ m.data.length
  | .postMerged _ _ _ buffer datalen offsize => offsize ≤ datalen ∧ datalen ≤ buffer.data.length
  | _ => True

/-- What a slot records of a packet fits its buffer, and its subflow the tables. -/
structure Fits (_ : ℕ) (node : MPDNodeInfo) : Prop where
  stream : node.stream < 3
  head : node.mpdHeadLen ≤ node.msgLen
  len : node.msgLen ≤ node.msgPtr.data.length
  size : node.msgLen ≤ 1512

namespace UserInfo

/-- The lengths a datagram speaks of lie inside it, as far as the session looks at them. -/
structure WellSized (u : UserInfo) (m : Msg) : Prop where
  two : 2 ≤ m.data.length
  flow : m.header.flag = 0x55 → m.header.stream < 3
  numbers : ¬ u.Rejects m → 8 ≤ m.data.length
  ack : ¬ u.Rejects m → m.IsAck → 12 ≤ m.node.mpdHeadLen
  sack : ¬ u.Rejects m → m.IsAck → m.HasSack → 4 ≤ m.byte 13
  blocks : ¬ u.Rejects m → m.IsAck → m.HasSack → m.byte 12 = 1 → numSack (m.byte 13) ≤ 11 →
    16 + 4 * numSack (m.byte 13) ≤ m.data.length


variable {u : UserInfo} {m : Msg}

theorem WellSized.sack_inside (h : u.WellSized m) (hr : ¬ u.Rejects m) (hack : m.IsAck)
    (hsack : m.HasSack) : 20 ≤ m.data.length := by
  have hhead := h.ack hr hack
  have hlen : m.node.mpdHeadLen = m.data.length := hack
  have hle : m.node.mpdHeadLen ≤ 60 := by
    have := m.byte_lt 1
    show m.byte 1 / 16 * 4 ≤ 60
    omega
  rw [Msg.HasSack, u32] at hsack
  omega

/-- **Everything that is read** of such a datagram lies inside it. -/
theorem WellSized.inRange (h : u.WellSized m) : ∀ a ∈ u.recvAccesses m, a.InRange := by
  have htwo := h.two
  intro a ha
  rw [recvAccesses] at ha
  simp only [List.mem_append] at ha
  rcases ha with (ha | ha) | ha
  · simp only [List.mem_cons, List.not_mem_nil, or_false] at ha
    rcases ha with rfl | rfl
    · show 0 < m.data.length
      omega
    · show 1 < m.data.length
      omega
  · split at ha
    · next hflag =>
      rw [List.mem_singleton.mp ha]
      exact h.flow hflag
    · cases ha
  split at ha
  · cases ha
  next hr =>
  have hnumbers := h.numbers hr
  rcases List.mem_append.mp ha with ha | ha
  · obtain ⟨i, hi, rfl⟩ := List.mem_map.mp ha
    show i < m.data.length
    simp only [List.mem_cons, List.not_mem_nil, or_false] at hi
    omega
  split at ha
  · next hack =>
    rcases List.mem_cons.mp ha with rfl | ha
    · exact h.ack hr hack
    split at ha
    · next hsack =>
      have hinside := h.sack_inside hr hack hsack
      rcases List.mem_cons.mp ha with rfl | ha
      · show 14 < m.data.length
        omega
      rw [sackAccesses] at ha
      rcases List.mem_append.mp ha with ha | ha
      · simp only [List.mem_cons, List.not_mem_nil, or_false] at ha
        rcases ha with rfl | rfl | rfl | rfl
        · show 12 < m.data.length
          omega
        · show 13 < m.data.length
          omega
        · show 14 < m.data.length
          omega
        · exact h.sack hr hack hsack
      · split at ha
        · cases ha
        · next hblocks =>
          rw [not_or, not_or, not_not, Nat.not_lt] at hblocks
          obtain ⟨i, hi, rfl⟩ := List.mem_map.mp ha
          have := h.blocks hr hack hsack hblocks.1 hblocks.2.1
          have := List.mem_range.mp hi
          show 16 + i < m.data.length
          omega
    · cases ha
  · cases ha

end UserInfo

/-- Two fragments that fit are merged into a buffer of just the length that is handed over. -/
theorem Fits.merged {n : RxDataWinNode} {first second : Msg} {p : ℕ}
    (h₀ : Fits p (n.record 0 first)) (h₁ : Fits p (n.record 1 second)) (addr : ℕ) :
    (Action.postMerged n.dsn first second (n.merge first second addr) n.mergedLen
      n.mpdHeadLen).Inside := by
  have hle₀ : n.mpdHeadLen ≤ n.msgLen 0 := h₀.head
  have hle₁ : n.mpdHeadLen ≤ n.msgLen 1 := h₁.head
  have hsize₀ : n.msgLen 0 ≤ 1512 := h₀.size
  have hsize₁ : n.msgLen 1 ≤ 1512 := h₁.size
  have hlen : n.mergedLen = n.msgLen 0 + n.msgLen 1 - n.mpdHeadLen := by
    rw [RxDataWinNode.mergedLen]
    omega
  refine ⟨?_, ?_⟩
  · omega
  · simp only [RxDataWinNode.merge, List.length_append, Msg.length_slice]
    omega

theorem logRules_inside (F : ℕ → Prop) :
    LogRules (SideAction F Access.InRange) Fits Action.Inside where
  other a h := by
    cases a with
    | post => exact h.elim
    | postMerged => exact h.elim
    | access a => exact h
    | _ => trivial
  lost _ _ h := absurd (show 3 < 3 from h) (by decide)
  free _ := trivial
  pass p n mem h hc a ha := by
    rcases h.passActions hc mem with ⟨hf, m, -, hq, heq⟩ | ⟨hf, first, second, -, -, h₀, h₁, heq⟩
    · rw [heq] at ha
      rcases List.mem_append.mp ha with ha | ha
      · split at ha
        · rw [List.mem_singleton.mp ha]
          exact ⟨hq.head, hq.len⟩
        · cases ha
      · rw [List.mem_singleton.mp ha]
        exact hq.stream
    · rw [heq] at ha
      simp only [RxDataWinNode.mergeSubs, List.mem_append, List.mem_cons, List.not_mem_nil, or_false,
        List.mem_map] at ha
      rcases ha with (((rfl | rfl) | ⟨addr, -, rfl⟩) | rfl) | rfl | rfl
      exacts [h₀.head, h₁.head, h₀.merged h₁ addr, h₀.stream, trivial, trivial]

/-- What every step has to meet. Datagrams have at most 1512 bytes, as they are read from the
socket. What a datagram says of its own lengths is true; a packet that is taken has its header
inside and a fragment field below 3; a fragment has a header no longer than the one in its slot has
bytes, and finds no remains of one in a window that looks clear. `MPD_CheckAck` finds packets with
their IP and TCP headers inside, and no subflow is taken from packets that wait. -/
structure KeepsInside (_ : List Op) (u : UserInfo) (op : Op) : Prop where
  size : ∀ m, op = .recv m → m.data.length ≤ 1512
  sized : ∀ m, op = .recv m → u.WellSized m
  fragment : ∀ m, op = .recv m → u.Accepts m → m.header.fragment < 3
  inside : ∀ m, op = .recv m → u.Accepts m → m.node.mpdHeadLen ≤ m.data.length
  join : ∀ m, op = .recv m → u.Accepts m → m.header.fragment ≠ 0 → ∀ n, u.Meets m n →
    ∀ i, n.Holds i → m.node.mpdHeadLen ≤ n.msgLen i
  fresh : ∀ m, op = .recv m → u.Accepts m → u.FreshSlot m
  check : op = .checkAck → u.rxDataWin.newData → ∀ n, u.InWindow n →
    n.status = .receiveComplete → n.flag = .unChecked → ∀ m, n.msgPtr 0 = some m →
    n.mpdHeadLen + 9 < m.data.length ∧ (m.byte (n.mpdHeadLen + 9) = 6 →
      n.mpdHeadLen + m.byte n.mpdHeadLen % 16 * 4 + 12 < m.data.length)
  lost : ∀ flowId, op = .changeDataWinFlowId flowId → ∀ n, u.InWindow n →
    n.status ≠ .unReceived → n.stream ≠ flowId

/-- What `MPD_CheckAck` reads of such a packet lies inside it. -/
theorem checkReads_inside {n : RxDataWinNode} {m : Msg} (h9 : n.mpdHeadLen + 9 < m.data.length)
    (htcp : m.byte (n.mpdHeadLen + 9) = 6 →
      n.mpdHeadLen + m.byte n.mpdHeadLen % 16 * 4 + 12 < m.data.length) :
    ∀ a ∈ n.checkReads m, SideAction F Access.InRange a := by
  intro a ha
  rw [RxDataWinNode.checkReads] at ha
  split at ha
  · next hsix =>
    have := htcp hsix
    obtain ⟨i, hi, rfl⟩ := List.mem_map.mp ha
    show i < m.data.length
    simp only [List.mem_cons, List.not_mem_nil, or_false] at hi
    omega
  · rw [List.mem_singleton.mp ha]
    exact h9

theorem KeepsInside.fits {past : List Op} {u : UserInfo} {op : Op} (h : KeepsInside past u op) :
    op.Fits (fun _ => True) Access.InRange u := by
  cases op with
  | recv m => exact (h.sized m rfl).inRange
  | checkAck =>
    intro hnew n hn hc hf m hm
    obtain ⟨h9, htcp⟩ := h.check rfl hnew n hn hc hf m hm
    exact checkReads_inside h9 htcp
  | changeDataWinFlowId flowId =>
    intro n hn hst hs
    exact absurd hs (h.lost flowId rfl n hn hst)
  | send => exact ⟨trivial, fun _ _ _ => trivial⟩
  | _ => trivial

/-- **A step of the session.** -/
theorem robust_step {ops : List Op} {u : UserInfo} {op : Op} {T T' : Tape} {t : ℕ}
    (hT : UserInfo.AtRest u T) (h : LoggedAt Fits Action.Inside T) (hC : KeepsInside ops u op)
    (hmoves : op.Moves (SideAction (fun _ => True) Access.InRange) u t T T') :
    LoggedAt Fits Action.Inside T' := by
  have hR := logRules_inside fun _ => True
  by_cases hop : ∃ m, op = .recv m
  · obtain ⟨m, rfl⟩ := hop
    have hsize := hC.size m rfl
    have hlen : m.node.msgLen = m.data.length :=
      Nat.mod_eq_of_lt (show m.data.length < 65536 by omega)
    have hstream : u.Accepts m → m.header.stream < 3 := fun hacc => by
      have hflag := hacc.1
      rw [UserInfo.Rejects, not_or, not_not] at hflag
      exact (hC.sized m rfl).flow hflag.1
    refine LoggedAt.recv hR hT h (hC.fragment m rfl) (fun hacc p _ => ?_) (fun hacc => ?_)
      (fun hacc _ => ?_) (fun hacc p n hmeets h0 hst i m' hi hm' hq => ?_) (hC.fresh m rfl) hmoves
    · exact ⟨hstream hacc, hlen ▸ hC.inside m rfl hacc, hlen.le, hlen ▸ hsize⟩
    · exact MPDNodeInfo.fragIndex_lt (hC.fragment m rfl hacc)
    · exact ⟨hlen ▸ hC.inside m rfl hacc, hlen.le⟩
    · exact ⟨hstream hacc, hC.join m rfl hacc h0 n hmeets i hi, hq.len, hq.size⟩
  · refine LoggedAt.quiet hR h (fun m hm => hop ⟨m, hm⟩) (fun hcheck hnew hlook => ?_) hmoves
    refine (LoggedAt.keeps hR).looks (fun S p m hS hb hn hc hf hm hack => ?_) h hlook
    refine hS.early hb hn fun a ha => ?_
    have hun : (S.cell p).status ≠ .unReceived := by simp [hc]
    have hholds : (S.cell p).Holds 0 := by
      rcases (hS.filed p hb hn.le).whole hc with h0 | h3
      · exact RxDataWinNode.holds_zero hun h0
      · exact RxDataWinNode.holds_three hun h3 (by decide)
    obtain ⟨m', hm', hq⟩ := (hS.filed p hb hn.le).ptr 0 hholds
    rw [RxDataWinNode.postHead, hm', Option.toList_some, List.map_singleton,
      List.mem_singleton] at ha
    rw [ha]
    exact ⟨hq.head, hq.len⟩

/-- **Robustness**, in every run whose steps meet `KeepsInside`: every access is in range, no length
that is subtracted wraps, and every slice handed over lies inside its buffer. -/
theorem robust_run (u₀ : UserInfo) {u : UserInfo} {ops : List Op}
    (h : Guarded Op.step KeepsInside u₀.cleared ops u) : ∀ a ∈ u.out, a.Inside := by
  obtain ⟨T, hT, hlog⟩ := UserInfo.guarded_tape (F := fun _ => True) (B := Access.InRange)
    (I := fun _ => LoggedAt Fits Action.Inside) (fun _ _ => Op.label fun m => m.header.dsn)
    (fun _ _ _ hC => hC.fits) (fun _ _ m _ _ _ => Nat.mod_eq_of_lt (m.word_lt 2))
    (fun _ _ _ _ _ _ hT _ hI hC hmoves => robust_step hT hI hC hmoves)
    (LoggedAt.blank Fits Action.Inside) h
  rw [← hT.out]
  exact hlog.log

/-- A packet with its IP header inside, and the check that follows it. -/
theorem robust_run_packet : ∃ u,
    run Op.step [.recv (.packet 0 0 0 5 0 [0])] UserInfo.ready.cleared = some u ∧
      ∀ a ∈ u.out, a.Inside := by
  have hrun : (run Op.step [.recv (.packet 0 0 0 5 0 [0])] UserInfo.ready.cleared).isSome := by
    decide +kernel
  obtain ⟨u, hu⟩ := Option.isSome_iff_exists.mp hrun
  have hmeets : Meets Op.step KeepsInside [] [.recv (.packet 0 0 0 5 0 [0])]
      UserInfo.ready.cleared := by
    refine ⟨⟨?_, ?_, ?_, ?_, ?_, ?_, by simp, by simp⟩, fun _ _ => trivial⟩
    · rintro m ⟨⟩
      decide
    · rintro m ⟨⟩
      refine ⟨by decide, by decide, fun _ => by decide, fun _ => by decide, fun _ hack => ?_,
        fun _ hack => ?_⟩
      · exact absurd hack (by decide)
      · exact absurd hack (by decide)
    · rintro m ⟨⟩ -
      decide
    · rintro m ⟨⟩ -
      decide
    · rintro m ⟨⟩ - - n ⟨⟨k, hk, -⟩, -, -⟩
      exact absurd hk (Nat.not_lt_zero k)
    · rintro m ⟨⟩ - - -
      exact .inl rfl
  exact ⟨u, hu, robust_run UserInfo.ready (hmeets.guarded hu)⟩

/-- **A datagram of one byte** is read past its end. -/
theorem robust_short : ∃ u,
    run Op.step [.recv ⟨0, [0x55]⟩] UserInfo.ready.cleared = some u ∧
      .access (.read 1 1) ∈ u.out ∧ ¬ ∀ a ∈ u.out, a.Inside := by
  have hrun : (run Op.step [.recv ⟨0, [0x55]⟩] UserInfo.ready.cleared).map
      (fun u => decide (.access (.read 1 1) ∈ u.out)) = some true := by
    decide +kernel
  obtain ⟨u, hu, hread⟩ := Option.map_eq_some_iff.mp hrun
  have hmem := of_decide_eq_true hread
  exact ⟨u, hu, hmem, fun hinside => absurd (show 1 < 1 from hinside _ hmem) (by decide)⟩

end Mpd

end AndroidVendor
