import AndroidVendor.Mpd.Delivery

/-!
# What a slot holds

A slot of the data window records packets: an unfragmented one, or up to two fragments of one.
`Filed Q` says that the records of a slot are in order, and that each of them is of a packet with
the property `Q`. Slots are kept that way by everything that happens to them, so a property of the
packets that are taken becomes a property of the packets that are handed over.

## Main results

* `Filed.put`, `Filed.put_stale` — storing a packet
* `Filed.passActions` — what a complete slot asks for when it leaves
-/

namespace AndroidVendor

namespace Mpd

open Relation

namespace RxDataWinNode

/-- The slot refers to the buffer at entry `i` of `msgPtr`. -/
def Holds (n : RxDataWinNode) (i : ℕ) : Prop :=
  n.status ≠ .unReceived ∧ if n.fragment = 0 then i = 0 else i < 2 ∧ n.fragment.testBit i

/-- What the slot records of the packet at entry `i`, which is in buffer `m`. -/
def record (n : RxDataWinNode) (i : ℕ) (m : Msg) : MPDNodeInfo where
  stream := n.stream
  fragment := if n.fragment = 0 then 0 else i + 1
  dsn := n.dsn
  ssn := n.ssn
  msgLen := n.msgLen i
  mpdHeadLen := n.mpdHeadLen
  msgPtr := m

theorem holds_zero {n : RxDataWinNode} (hst : n.status ≠ .unReceived) (h : n.fragment = 0) :
    n.Holds 0 := ⟨hst, by rw [if_pos h]⟩

theorem holds_three {n : RxDataWinNode} {i : ℕ} (hst : n.status ≠ .unReceived)
    (h : n.fragment = 3) (hi : i < 2) : n.Holds i := by
  refine ⟨hst, ?_⟩
  rw [h, if_neg (by decide)]
  have : i = 0 ∨ i = 1 := by omega
  rcases this with rfl | rfl <;> decide

/-- What merging two fragments asks for. -/
theorem postMerged_eq {n : RxDataWinNode} {first second : Msg} (mem : Option ℕ)
    (h₀ : n.msgPtr 0 = some first) (h₁ : n.msgPtr 1 = some second) :
    n.postMerged mem = n.mergeSubs ++ mem.toList.map fun addr =>
      .postMerged n.dsn first second (n.merge first second addr) n.mergedLen n.mpdHeadLen := by
  cases mem <;> simp [postMerged, mergeSubs, h₀, h₁]

/-! ### `MPD_DataWinPutInNode` -/

/-- The bit a fragment has in `fragment`. -/
theorem bit_eq {f : ℕ} (h0 : f ≠ 0) (hf : f < 3) : 1 <<< (f - 1) = f := by
  have : f = 1 ∨ f = 2 := by omega
  rcases this with rfl | rfl <;> rfl

theorem testBit_fragment {f i : ℕ} (h0 : f ≠ 0) (hf : f < 3) (hi : i < 2) :
    f.testBit i ↔ i = f - 1 := by
  have : f = 1 ∨ f = 2 := by omega
  have : i = 0 ∨ i = 1 := by omega
  rcases ‹f = 1 ∨ f = 2› with rfl | rfl <;> rcases ‹i = 0 ∨ i = 1› with rfl | rfl <;> decide

variable {n : RxDataWinNode} {node : MPDNodeInfo} {time : ℕ}

@[simp] theorem put_flag : (n.put node time).flag = .unChecked := rfl

theorem put_msgPtr_self : (n.put node time).msgPtr node.fragIndex = some node.msgPtr :=
  Function.update_self _ _ _

theorem put_msgPtr_of_ne {i : ℕ} (h : i ≠ node.fragIndex) :
    (n.put node time).msgPtr i = n.msgPtr i := Function.update_of_ne h _ _

theorem put_status_ne : (n.put node time).status ≠ .unReceived := by
  simp only [put]
  split <;> split <;> simp

/-- A packet that finds nothing, or its own earlier copy, is alone in its slot. -/
theorem put_fragment_alone (hf : node.fragment < 3)
    (hn : node.fragment ≠ 0 → n.fragment = 0 ∨ n.fragment = node.fragment) :
    (n.put node time).fragment = node.fragment := by
  by_cases h0 : node.fragment = 0
  · simp [put, h0]
  · simp only [put, if_neg h0, bit_eq h0 hf]
    rcases hn h0 with h | h <;> simp [h]

/-- A fragment that finds the other one completes the packet. -/
theorem put_fragment_join (h0 : node.fragment ≠ 0) (hf : node.fragment < 3)
    (hpart : n.fragment = 1 ∨ n.fragment = 2) (hn : n.fragment ≠ node.fragment) :
    (n.put node time).fragment = 3 := by
  simp only [put, if_neg h0, bit_eq h0 hf]
  have : node.fragment = 1 ∨ node.fragment = 2 := by omega
  rcases this with hone | htwo
  · rw [hone, show n.fragment = 2 by omega]
    rfl
  · rw [htwo, show n.fragment = 1 by omega]
    rfl

theorem put_status_of_lt (h0 : node.fragment ≠ 0) (hlt : (n.put node time).fragment < 3) :
    (n.put node time).status = .received := by
  have hne : (n.put node time).fragment ≠ 3 := by omega
  simp only [put, if_neg h0] at hne ⊢
  rw [if_neg (not_or.mpr ⟨h0, hne⟩)]

theorem put_status_of_whole
    (h : (n.put node time).fragment = 0 ∨ (n.put node time).fragment = 3) :
    (n.put node time).status = .receiveComplete := by
  by_cases h0 : node.fragment = 0
  · simp [put, h0]
  · have hthree : (n.put node time).fragment = 3 :=
      h.resolve_left (n.put_fragment_ne_zero time h0)
    simp only [put, if_neg h0] at hthree ⊢
    rw [if_pos (.inr hthree)]

end RxDataWinNode

/-- The records of the slot at position `p` are in order, and each is of a packet with the property
`Q`. -/
structure Filed (Q : ℕ → MPDNodeInfo → Prop) (p : ℕ) (n : RxDataWinNode) : Prop where
  idle : n.status = .unReceived → n.fragment = 0
  part : n.status = .received → n.fragment = 1 ∨ n.fragment = 2
  whole : n.status = .receiveComplete → n.fragment = 0 ∨ n.fragment = 3
  num : n.status ≠ .unReceived → n.dsn = p % 65536
  ptr : ∀ i, n.Holds i → ∃ m, n.msgPtr i = some m ∧ Q p (n.record i m)

namespace Filed

variable {Q : ℕ → MPDNodeInfo → Prop} {A : Action → Prop} {p : ℕ} {n n' : RxDataWinNode}
  {node : MPDNodeInfo} {time : ℕ}

theorem wiped (Q : ℕ → MPDNodeInfo → Prop) (p dsn : ℕ) : Filed Q p { dsn := dsn } where
  idle _ := rfl
  part h := by cases h
  whole h := by cases h
  num h := absurd rfl h
  ptr i h := absurd rfl h.1

theorem steady (hQ : ∀ p node, A (.access (.flow 3)) → Q p node → Q p { node with stream := 3 }) :
    Tape.Steady A (Filed Q) where
  same p n n' h hsame hlost := by
    refine ⟨fun hst => ?_, fun hst => ?_, fun hst => ?_, fun hst => ?_, fun i hi => ?_⟩
    · rw [hsame.fragment]
      exact h.idle (hsame.status ▸ hst)
    · rw [hsame.fragment]
      exact h.part (hsame.status ▸ hst)
    · rw [hsame.fragment]
      exact h.whole (hsame.status ▸ hst)
    · rw [hsame.dsn]
      exact h.num (hsame.status ▸ hst)
    · rw [RxDataWinNode.Holds, hsame.status, hsame.fragment] at hi
      obtain ⟨m, hm, hq⟩ := h.ptr i hi
      refine ⟨m, by rw [hsame.msgPtr, hm], ?_⟩
      have hrecord : n'.record i m = { n.record i m with stream := n'.stream } := by
        simp [RxDataWinNode.record, hsame.fragment, hsame.dsn, hsame.ssn, hsame.msgLen,
          hsame.mpdHeadLen]
      rw [hrecord]
      rcases hsame.stream with heq | heq
      · rw [heq]
        exact hq
      · by_cases hne : n'.stream = n.stream
        · rw [hne]
          exact hq
        · rw [heq]
          exact hQ p _ (hlost hne) hq
  wiped := wiped Q

/-- An unfragmented packet takes the slot, whatever was in it. -/
theorem put_whole (n : RxDataWinNode) (time : ℕ) (hf : node.fragment = 0)
    (hp : node.dsn = p % 65536) (hq : Q p node) : Filed Q p (n.put node time) := by
  have hfrag : (n.put node time).fragment = 0 := by
    rw [RxDataWinNode.put_fragment_alone (by omega) fun h0 => absurd hf h0, hf]
  have hst := RxDataWinNode.put_status_of_whole (.inl hfrag)
  refine ⟨fun h => ?_, fun h => ?_, fun _ => .inl hfrag, fun _ => hp, fun i hi => ?_⟩
  · rw [hst] at h
    cases h
  · rw [hst] at h
    cases h
  · obtain ⟨-, hi⟩ := hi
    rw [if_pos hfrag] at hi
    subst hi
    refine ⟨node.msgPtr, by simp [RxDataWinNode.put, MPDNodeInfo.fragIndex, hf], ?_⟩
    have hrecord : (n.put node time).record 0 node.msgPtr = node := by
      obtain ⟨stream, fragment, dsn, ssn, msgLen, mpdHeadLen, msgPtr⟩ := node
      obtain rfl : fragment = 0 := hf
      rfl
    rw [hrecord]
    exact hq

/-- A fragment alone in its slot. -/
theorem put_first (n : RxDataWinNode) (time : ℕ) (h0 : node.fragment ≠ 0) (hf : node.fragment < 3)
    (hn : n.fragment = 0 ∨ n.fragment = node.fragment) (hp : node.dsn = p % 65536) (hq : Q p node) :
    Filed Q p (n.put node time) := by
  have hfrag : (n.put node time).fragment = node.fragment :=
    RxDataWinNode.put_fragment_alone hf fun _ => hn
  have hst : (n.put node time).status = .received :=
    RxDataWinNode.put_status_of_lt h0 (hfrag ▸ hf)
  refine ⟨fun h => ?_, fun _ => by omega, fun h => ?_, fun _ => hp, fun i hi => ?_⟩
  · rw [hst] at h
    cases h
  · rw [hst] at h
    cases h
  · obtain ⟨-, hi⟩ := hi
    rw [hfrag, if_neg h0] at hi
    have hindex : i = node.fragIndex := by
      rw [MPDNodeInfo.fragIndex, if_neg h0]
      exact (RxDataWinNode.testBit_fragment h0 hf hi.1).mp hi.2
    subst hindex
    refine ⟨node.msgPtr, by simp [RxDataWinNode.put], ?_⟩
    have hrecord : (n.put node time).record node.fragIndex node.msgPtr = node := by
      rw [RxDataWinNode.record, hfrag, if_neg h0, MPDNodeInfo.fragIndex, if_neg h0]
      have : node.fragment - 1 + 1 = node.fragment := by omega
      simp [RxDataWinNode.put, MPDNodeInfo.fragIndex, h0, this]
    rw [hrecord]
    exact hq

/-- A fragment joins the other one. Its own header length, subflow and SSN take the place of those
recorded. -/
theorem put_second (h : Filed Q p n) (time : ℕ) (h0 : node.fragment ≠ 0) (hf : node.fragment < 3)
    (hst : n.status = .received) (hn : n.fragment ≠ node.fragment) (hp : node.dsn = p % 65536)
    (hq : Q p node) (hjoin : ∀ i m, n.Holds i → n.msgPtr i = some m → Q p (n.record i m) →
      Q p { n.record i m with
        stream := node.stream, ssn := node.ssn, mpdHeadLen := node.mpdHeadLen }) :
    Filed Q p (n.put node time) := by
  have hpart := h.part hst
  have hne : n.fragment ≠ 0 := by omega
  have hfrag : (n.put node time).fragment = 3 :=
    RxDataWinNode.put_fragment_join h0 hf hpart hn
  have hst' := RxDataWinNode.put_status_of_whole (.inr hfrag)
  refine ⟨fun h => ?_, fun h => ?_, fun _ => .inr hfrag, fun _ => hp, fun i hi => ?_⟩
  · rw [hst'] at h
    cases h
  · rw [hst'] at h
    cases h
  obtain ⟨-, hi⟩ := hi
  rw [hfrag, if_neg (by decide)] at hi
  by_cases hindex : i = node.fragIndex
  · subst hindex
    refine ⟨node.msgPtr, by simp [RxDataWinNode.put], ?_⟩
    have hrecord : (n.put node time).record node.fragIndex node.msgPtr = node := by
      rw [RxDataWinNode.record, hfrag, if_neg (by decide), MPDNodeInfo.fragIndex, if_neg h0]
      have : node.fragment - 1 + 1 = node.fragment := by omega
      simp [RxDataWinNode.put, MPDNodeInfo.fragIndex, h0, this]
    rw [hrecord]
    exact hq
  · -- the fragment that was there
    have hold : n.Holds i := by
      refine ⟨by simp [hst], ?_⟩
      rw [if_neg hne, RxDataWinNode.testBit_fragment hne (by omega) hi.1]
      rw [MPDNodeInfo.fragIndex, if_neg h0] at hindex
      exact ⟨hi.1, by omega⟩
    obtain ⟨m, hm, hqm⟩ := h.ptr i hold
    refine ⟨m, by simp [RxDataWinNode.put, Function.update_of_ne hindex, hm], ?_⟩
    have hrecord : (n.put node time).record i m = { n.record i m with
        stream := node.stream, ssn := node.ssn, mpdHeadLen := node.mpdHeadLen } := by
      rw [RxDataWinNode.record, hfrag, if_neg (by decide), RxDataWinNode.record, if_neg hne,
        h.num (by simp [hst]), ← hp]
      simp [RxDataWinNode.put, Function.update_of_ne hindex]
    rw [hrecord]
    exact hjoin i m hold hm hqm

/-- **A packet is stored** that the slot does not know. -/
theorem put (h : Filed Q p n) (time : ℕ) (hdup : ¬ n.Duplicate node) (hf : node.fragment < 3)
    (hp : node.dsn = p % 65536) (hq : Q p node) (hjoin : node.fragment ≠ 0 → n.status = .received →
      ∀ i m, n.Holds i → n.msgPtr i = some m → Q p (n.record i m) → Q p { n.record i m with
        stream := node.stream, ssn := node.ssn, mpdHeadLen := node.mpdHeadLen }) :
    Filed Q p (n.put node time) := by
  rw [RxDataWinNode.Duplicate, not_or, not_and, not_not] at hdup
  by_cases h0 : node.fragment = 0
  · exact put_whole n time h0 hp hq
  cases hst : n.status with
  | unReceived => exact put_first n time h0 hf (.inl (h.idle hst)) hp hq
  | received =>
    refine h.put_second time h0 hf hst (fun heq => ?_) hp hq (hjoin h0 hst)
    have hbit := hdup.1 hst
    rw [heq, Nat.and_self] at hbit
    exact h0 hbit
  | receiveComplete => exact absurd hst hdup.2

/-- A packet is stored in a slot that a window which looks clear is moved to. -/
theorem put_stale (n : RxDataWinNode) (time : ℕ) (hf : node.fragment < 3)
    (hn : node.fragment ≠ 0 → n.fragment = 0 ∨ n.fragment = node.fragment)
    (hp : node.dsn = p % 65536) (hq : Q p node) : Filed Q p (n.put node time) := by
  by_cases h0 : node.fragment = 0
  · exact put_whole n time h0 hp hq
  · exact put_first n time h0 hf (hn h0) hp hq

/-- **A complete slot leaves at the front.** It hands over the packet, unless that was done ahead of
order, or merges the two fragments and frees them. -/
theorem passActions (h : Filed Q p n) (hc : n.status = .receiveComplete) (mem : Option ℕ) :
    (n.fragment = 0 ∧ ∃ m, n.msgPtr 0 = some m ∧ Q p (n.record 0 m) ∧
      n.passActions mem = (if n.flag ≠ .sended then
        [.post .inOrder n.dsn m (n.msgLen 0) n.mpdHeadLen] else []) ++
          [.access (.flow n.stream)]) ∨
    (n.fragment = 3 ∧ ∃ first second, n.msgPtr 0 = some first ∧ n.msgPtr 1 = some second ∧
      Q p (n.record 0 first) ∧ Q p (n.record 1 second) ∧
      n.passActions mem = n.mergeSubs ++ (mem.toList.map fun addr => .postMerged n.dsn first second
        (n.merge first second addr) n.mergedLen n.mpdHeadLen) ++ [.access (.flow n.stream)] ++
          [.free first, .free second]) := by
  have hst : n.status ≠ .unReceived := by simp [hc]
  rcases h.whole hc with hf | hf
  · obtain ⟨m, hm, hq⟩ := h.ptr 0 (RxDataWinNode.holds_zero hst hf)
    refine .inl ⟨hf, m, hm, hq, ?_⟩
    simp [RxDataWinNode.passActions, RxDataWinNode.postHead, hf, hm]
  · obtain ⟨first, hfirst, hq₀⟩ := h.ptr 0 (RxDataWinNode.holds_three hst hf (by decide))
    obtain ⟨second, hsecond, hq₁⟩ := h.ptr 1 (RxDataWinNode.holds_three hst hf (by decide))
    refine .inr ⟨hf, first, second, hfirst, hsecond, hq₀, hq₁, ?_⟩
    have hfree : n.freePtrs = [first, second] := by
      simp [RxDataWinNode.freePtrs, hst, hf, hfirst, hsecond, List.range_succ]
      decide
    rw [RxDataWinNode.passActions, hf, if_neg (by decide), if_pos rfl,
      RxDataWinNode.postMerged_eq mem hfirst hsecond, hfree]
    rfl

end Filed

/-! ### The window a packet finds -/

namespace UserInfo

/-- The packet lies behind the window, near enough to be handed over all the same. -/
def HandsLate (u : UserInfo) (m : Msg) : Prop :=
  ¬ u.rxDataWin.looksClear ∧ u.rxDataWin.Behind m.header.dsn ∧
    distanceSN m.header.dsn u.rxDataWin.beginNode.dsn ≤ 1000

/-- The slot of a fragment that finds the window looking clear has no remains of the other one. -/
def FreshSlot (u : UserInfo) (m : Msg) : Prop :=
  u.rxDataWin.looksClear → m.header.fragment ≠ 0 →
    (u.rxDataWin.win (m.header.dsn % 4096)).fragment = 0 ∨
      (u.rxDataWin.win (m.header.dsn % 4096)).fragment = m.header.fragment

/-- The packet's slot is `n`, and holds a fragment. -/
def Meets (u : UserInfo) (m : Msg) (n : RxDataWinNode) : Prop :=
  u.InWindow n ∧ n.dsn = m.header.dsn ∧ n.status = .received

/-- `MPD_CheckAck` is not going to find two fragments of which the first looks like a pure
acknowledgement. -/
def NoEarlyFragment (u : UserInfo) : Prop :=
  u.rxDataWin.newData → ∀ n, u.InWindow n → n.status = .receiveComplete → n.flag = .unChecked →
    ∀ m, n.msgPtr 0 = some m → n.LooksPureAck m → n.fragment = 0

variable {u : UserInfo} {T : Tape} {m : Msg} {p d : ℕ}

theorem AtRest.handsLate (h : AtRest u T) (hc : ¬ T.LooksClear) (hd : 0 < d) (hd' : d ≤ 1000)
    (hdsn : (m.header.dsn + d) % 65536 = T.rxBegin % 65536) : u.HandsLate m := by
  have hlt : m.header.dsn < 65536 := m.word_lt 2
  have hto : distanceSN m.header.dsn u.rxDataWin.beginNode.dsn = d := by
    rw [h.begin_dsn]
    have hmod := (SerialRing.dist_eq_iff (x := m.header.dsn) (y := T.rxBegin) (M := 65536)
      (d := d) (by omega)).mpr hdsn
    rwa [Nat.mod_eq_of_lt hlt] at hmod
  refine ⟨fun h' => hc (h.looksClear_iff.mp h'), ?_, hto.trans_le hd'⟩
  have hfrom : distanceSN u.rxDataWin.beginNode.dsn m.header.dsn = 65536 - d := by
    rw [h.begin_dsn]
    have hmod := (SerialRing.dist_eq_iff (x := T.rxBegin) (y := m.header.dsn) (M := 65536)
      (d := 65536 - d) (by omega)).mpr (by omega)
    rwa [Nat.mod_eq_of_lt hlt] at hmod
  rw [RxDataWin.Behind, hto, hfrom]
  omega

theorem AtRest.meets (h : AtRest u T) (hb : T.rxBegin ≤ p) (hn : p < T.rxNext)
    (hp : p % 65536 = m.header.dsn) (hst : (T.cell p).status = .received) :
    u.Meets m (T.cell p) :=
  ⟨h.inWindow hb hn, (h.num p hb hn.le).trans hp, hst⟩

theorem AtRest.plain (h : AtRest u T) (hno : u.NoEarlyFragment) (hnew : u.rxDataWin.newData) :
    T.Cells Tape.Plain := by
  intro p hb hn hc hf m hm hack
  rcases Nat.eq_or_lt_of_le hn with rfl | hlt
  · rw [h.next_blank.status] at hc
    cases hc
  · exact hno hnew _ (h.inWindow hb hlt) hc hf m hm hack

end UserInfo

end Mpd

end AndroidVendor
