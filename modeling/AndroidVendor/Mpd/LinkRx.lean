import AndroidVendor.Mpd.Link
import AndroidVendor.Mpd.Slots

/-!
# The receiving end of a link

What `RxBegin` of a sub window passes entitles the sender to give it up: it was marked, or it
precedes the first packet, or it lies before an SSN that the data window noted down when it handed a
packet over. The last of these is where the two windows meet. The data window remembers packets by
their 16 bits, so the SSN it notes down means the packet it handed over only as long as the sub
window has not gone a full turn since that packet arrived.

`Tally` fixes what an operation does not change, the records and how far each sub window reaches
when the operation is over; `Tally.Backs` is the invariant of the receiver against it.

## Main results

* `RxSubWin.Justified` — the invariant of one sub window, kept by what the data window does to it
  (`Justified.followDataWin`, `Justified.noted`) and by an arrival (`Justified.addNode`)
* `Tally.Backs` — the invariant of the receiver, with a rule for each operation
-/

namespace AndroidVendor

namespace Mpd

open Loop RxSubWin

/-! ### Records -/

namespace RxRecord

variable {R R' : RxRecord} {out out' : List Action} {f p q x : ℕ}

/-- More arrived, more was accepted, more was handed over. -/
structure Grows (R : RxRecord) (out : List Action) (R' : RxRecord) (out' : List Action) : Prop where
  arrived : R.arrived ⊆ R'.arrived
  accepted : R.accepted <+: R'.accepted
  out : out ⊆ out'

theorem Grows.emit (R : RxRecord) (out as : List Action) : Grows R out R (out ++ as) :=
  ⟨List.Subset.refl _, List.prefix_refl _, List.subset_append_left ..⟩

theorem Grows.posted (h : Grows R out R' out') (hp : R.Posted out f p) : R'.Posted out' f p := by
  obtain ⟨m, hm, hf, a, ha, hma⟩ := hp
  exact ⟨m, h.arrived hm, hf, a, h.out ha, hma⟩

theorem Grows.firstAccepted (h : Grows R out R' out') (hx : x ∈ R.firstAccepted f) :
    x ∈ R'.firstAccepted f := by
  obtain ⟨l, hl⟩ := h.accepted
  obtain ⟨r, hr, rfl⟩ := Option.map_eq_some_iff.mp hx
  refine Option.map_eq_some_iff.mpr ⟨r, ?_, rfl⟩
  rw [← hl, List.find?_append, hr, Option.some_or]

theorem Grows.covered (h : Grows R out R' out') (hx : R.Covered out f x) : R'.Covered out' f x := by
  rcases hx with hacc | ⟨y, hy, hxy⟩ | ⟨p, hxp, hp⟩ | ⟨q, hq, hxq⟩
  · exact .inl (h.accepted.subset hacc)
  · exact .inr (.inl ⟨y, h.firstAccepted hy, hxy⟩)
  · exact .inr (.inr (.inl ⟨p, hxp, h.posted hp⟩))
  · exact .inr (.inr (.inr ⟨q, h.accepted.subset hq, hxq⟩))

end RxRecord

/-! ### One sub window -/

namespace RxSubWin

variable {R R' : RxRecord} {out out' : List Action} {f top b n : ℕ} {w : RxSubWin}

/-- The window of `f` stands at `b, n`, and whatever it passed or marked is on record; `top` is how
far it will reach when the packet that is being taken in has entered. -/
structure Justified (R : RxRecord) (out : List Action) (f top : ℕ) (w : RxSubWin) (b n : ℕ) :
    Prop where
  rests : Rests w b n
  start : 65536 ≤ b
  reach : n ≤ top
  turn : top < b + 65536
  newest : n = 65536 ∨ (f, n - 1) ∈ R.accepted
  marked : ∀ x, b ≤ x → x < n → Marked w x → (f, x) ∈ R.accepted
  below : ∀ x, 65536 ≤ x → x < b → R.Covered out f x
  /-- `dataWinSSN` follows a packet that was handed over, less than a turn ago. -/
  driven : ∃ d, d % 65536 = w.dataWinSSN ∧ d ≤ top ∧ top < d + 65536 ∧
    (d = 65536 ∨ R.Posted out f (d - 1))

theorem Justified.mono (h : Justified R out f top w b n) (hg : RxRecord.Grows R out R' out') :
    Justified R' out' f top w b n where
  rests := h.rests
  start := h.start
  reach := h.reach
  turn := h.turn
  newest := h.newest.imp_right (hg.accepted.subset ·)
  marked x hb hn hm := hg.accepted.subset (h.marked x hb hn hm)
  below x hx hb := hg.covered (h.below x hx hb)
  driven := by
    obtain ⟨d, hd, hle, hlt, hp⟩ := h.driven
    exact ⟨d, hd, hle, hlt, hp.imp_right hg.posted⟩

/-- `sentAck` is not looked at. -/
theorem Justified.sentAck (h : Justified R out f top w b n) (ack : ℕ) :
    Justified R out f top { w with sentAck := ack } b n := by
  obtain ⟨⟨⟨h₁, h₂, h₃, h₄, h₅, h₆⟩, h₇, h₈⟩, h₉, h₁₀, h₁₁, h₁₂, h₁₃, h₁₄, h₁₅⟩ := h
  exact ⟨⟨⟨h₁, h₂, h₃, h₄, h₅, h₆⟩, h₇, h₈⟩, h₉, h₁₀, h₁₁, h₁₂, h₁₃, h₁₄, h₁₅⟩

/-- The data window hands over the packet at `q`. -/
theorem Justified.noted {q : ℕ} (h : Justified R out f top w b n) (hq : R.Posted out f q)
    (hlt : q < top) (hturn : top ≤ q + 65536) :
    Justified R out f top { w with dataWinSSN := ssnPlus (q % 65536) } b n := by
  obtain ⟨⟨⟨h₁, h₂, h₃, h₄, h₅, h₆⟩, h₇, h₈⟩, h₉, h₁₀, h₁₁, h₁₂, h₁₃, h₁₄, -⟩ := h
  refine ⟨⟨⟨h₁, h₂, h₃, h₄, h₅, h₆⟩, h₇, h₈⟩, h₉, h₁₀, h₁₁, h₁₂, h₁₃, h₁₄,
    q + 1, (ssnPlus_mod q).symm, hlt, by omega, .inr ?_⟩
  rw [Nat.add_sub_cancel]
  exact hq

/-- The data window drives `RxBegin`: no further than past a packet it handed over. -/
theorem Justified.followDataWin {w' : RxSubWin} (h : Justified R out f top w b n)
    (hw : w.followDataWin = some w') : ∃ b', b ≤ b' ∧ Justified R out f top w' b' n := by
  obtain ⟨d, hd, hdtop, hdturn, hposted⟩ := h.driven
  have hturn := h.turn
  have hreach := h.reach
  have hlt : w.dataWinSSN < 65536 := by
    rw [← hd]
    exact Nat.mod_lt _ (by decide)
  obtain ⟨b', hb, hn, heq, hrests, hskip⟩ := followDataWin_spec h.rests hlt
  obtain rfl := Option.some.inj (heq.symm.trans hw)
  refine ⟨b', hb, hrests, h.start.trans hb, hreach, by omega, h.newest,
    fun x hx => h.marked x (hb.trans hx), fun x hx hxb => ?_, d, hd, hdtop, hdturn, hposted⟩
  rcases Nat.lt_or_ge x b with hold | hge
  · exact h.below x hx hold
  rcases hskip x hge hxb with hm | ⟨p, hp, hbp, hpn, hxp⟩
  · exact .inl (h.marked x hge (by omega) hm)
  · -- the one position of the window with this SSN is the one that was noted down
    obtain rfl : p = d := SerialRing.cell_inj (hp.trans hd.symm) (by omega) (by omega)
    have hstart := h.start
    exact .inr (.inr (.inl ⟨p - 1, by omega, hposted.resolve_left (by omega)⟩))

/-- The packet at `pos` enters the window, or lies behind it. -/
theorem Justified.addNode {pos : ℕ} (h : Justified R out f top w b n) (hc : ¬ w.looksClear)
    (htop : top = max n (pos + 1)) (hnear : pos < b + 32768) (hnear' : n < pos + 32768)
    (hacc : w.Takes (pos % 65536) → (f, pos) ∈ R.accepted) :
    ∃ b', b ≤ b' ∧ Justified R out f top (w.addNode (pos % 65536)) b' top := by
  have hstart := h.start
  have hle := h.rests.le
  have hsize := h.rests.size
  have hturn := h.turn
  -- the position of the SSN that lies less than a turn ahead of `RxBegin`
  obtain ⟨t, hbt, htb, ht, hin⟩ : ∃ t, b ≤ t ∧ t < b + 65536 ∧ t % 65536 = pos % 65536 ∧
      (t ≤ b + 32768 → t = pos) := by
    rcases Nat.lt_or_ge pos b with hlt | hge
    · exact ⟨pos + 65536, by omega, by omega, by omega, by omega⟩
    · exact ⟨pos, hge, by omega, rfl, fun _ => rfl⟩
  have htakes : t ≤ b + 32768 → (f, t) ∈ R.accepted := by
    intro hleft
    rw [hin hleft]
    refine hacc (.inr fun hlt => ?_)
    rw [h.rests.begin_ssn, ← ht] at hlt
    exact (behind_iff hbt htb).mp hlt hleft
  obtain ⟨b', n', hrests, harr, hdata⟩ := addNode_spec h.rests hc hbt htb
  rw [ht] at hrests harr hdata
  have hb := harr.begin_le
  have hn' : n' = top := by
    rw [harr.next_eq, htop]
    split
    · next hleft => rw [hin hleft]
    · next hleft => omega
  subst hn'
  refine ⟨b', hb, hrests, hstart.trans hb, le_rfl, by omega, ?_, fun x hx hxn hm => ?_,
    fun x hx hxb => ?_, ?_⟩
  · rcases Nat.lt_or_ge pos n with hlt | hge
    · rw [htop, max_eq_left (by omega)]
      exact h.newest
    · rw [htop, max_eq_right (by omega)]
      have hpos : t = pos := by
        rcases Nat.lt_or_ge pos b with hlt' | hge'
        · omega
        · exact SerialRing.cell_inj ht (by omega) (by omega)
      exact .inr (hpos ▸ htakes (by omega))
  · rcases (harr.marked x hx hxn).mp hm with ⟨hxn', hm'⟩ | ⟨rfl, hleft⟩
    · exact h.marked x (hb.trans hx) hxn' hm'
    · exact htakes hleft
  · rcases Nat.lt_or_ge x b with hold | hge
    · exact h.below x hx hold
    rcases harr.dropped x hge hxb with ⟨hxn', hm'⟩ | ⟨rfl, hleft⟩ | ⟨hover, hleft⟩
    · exact .inl (h.marked x hge hxn' hm')
    · exact .inl (htakes hleft)
    · -- the window overflowed: what fell out lies 1024 slots before its end
      refine .inr (.inr (.inr ?_))
      rcases Nat.lt_or_ge pos n with hlt | hge'
      · rw [htop, max_eq_left (by omega)] at hover
        omega
      · rw [htop, max_eq_right (by omega)] at hover
        exact ⟨pos, hin hleft ▸ htakes hleft, by omega⟩
  · rw [hdata]
    exact h.driven

/-- The packet at `pos` finds the window looking clear: it is the first one, or the one the window
waits for. -/
theorem Justified.anchor {pos : ℕ} (h : Justified R out f top w b n) (hc : w.looksClear)
    (htop : top = max n (pos + 1)) (hnear : pos < b + 32768) (hnear' : n < pos + 32768)
    (hacc : (f, pos) ∈ R.accepted)
    (hfirst : (n = 65536 ∧ R.firstAccepted f = some pos ∧ pos % 65536 ≤ 5) ∨ pos % 65536 = 0) :
    ∃ b', b ≤ b' ∧ Justified R out f top (w.addNode (pos % 65536)) b' top := by
  have hstart := h.start
  obtain ⟨hbn, hzero⟩ := h.rests.toSpans.of_looksClear hc
  have hturn := h.turn
  have hpos : b ≤ pos ∧ (pos = b ∨ (b = 65536 ∧ R.firstAccepted f = some pos)) := by
    rcases hfirst with ⟨hn, hfirst, hlow⟩ | hz
    · exact ⟨by omega, .inr ⟨by omega, hfirst⟩⟩
    · exact ⟨by omega, .inl (by omega)⟩
  obtain ⟨hge, hpos⟩ := hpos
  obtain ⟨hrests, hdata⟩ := addNode_of_looksClear w hc pos
  have htop' : top = pos + 1 := by
    rw [htop]
    omega
  subst htop'
  refine ⟨pos + 1, by omega, hrests, by omega, le_rfl, by omega, .inr hacc,
    fun x hx hxn => absurd hx (by omega), fun x hx hxb => ?_, ?_⟩
  · rcases Nat.eq_or_lt_of_le (Nat.le_of_lt_succ hxb) with rfl | hlt
    · exact .inl hacc
    rcases hpos with rfl | ⟨-, hpos⟩
    · exact h.below x hx hlt
    · exact .inr (.inl ⟨pos, hpos, hlt⟩)
  · rw [hdata]
    exact h.driven

end RxSubWin

/-! ### The receiver -/

/-- What an operation of the receiver does not change: what is on record when it is over, where
`RxBegin` of each sub window stood before, and how far each reaches before and after. -/
structure Tally where
  record : RxRecord
  front : ℕ → ℕ
  next : ℕ → ℕ
  top : ℕ → ℕ

/-- Packet `m` of subflow `f` arrived, at position `q` less than a turn ago. -/
structure Tally.Recent (K : Tally) (f ssn q : ℕ) (m : Msg) : Prop where
  arrived : (q, m) ∈ K.record.arrived
  stream : m.header.stream = f
  ssn : q % 65536 = ssn
  below : q < K.top f
  turn : K.top f ≤ q + 65536

/-- Packet `m` was handed over. -/
def Passed (out : List Action) (m : Msg) : Prop := ∃ a ∈ out, m ∈ a.buffers

/-- What is handed over when the complete slot leaves contains packet `m`, unless that was handed
over ahead of order. -/
def RxDataWinNode.Bears (n : RxDataWinNode) (out : List Action) (m : Msg) : Prop :=
  (n.fragment = 0 ∧ n.msgPtr 0 = some m ∧ (n.flag = .sended → Passed out m)) ∨
    (n.fragment = 3 ∧ (n.msgPtr 0 = some m ∨ n.msgPtr 1 = some m))

/-- A slot in use has the subflow and the SSN of a packet that arrived less than a turn ago. -/
structure Tally.Stems (K : Tally) (out : List Action) (n : RxDataWinNode) : Prop where
  ptrs : ∀ i < 2, n.fragment.testBit i → (n.msgPtr i).isSome
  packet : n.status ≠ .unReceived → ∃ q m, K.Recent n.stream n.ssn q m ∧
    (n.status = .receiveComplete → n.Bears out m)

/-- The invariant of the receiver. -/
structure Tally.Backs (K : Tally) (u : UserInfo) : Prop where
  slots : ∀ i, K.Stems u.out (u.rxDataWin.win i)
  subs : ∀ f, ∃ b, K.front f ≤ b ∧
    Justified K.record u.out f (K.top f) (u.rxSubWin f) b (K.next f)

/-- It holds, and there is memory for two fragments that are merged. -/
structure Tally.Serves (K : Tally) (u : UserInfo) : Prop extends K.Backs u where
  stocked : ∀ k, (u.allocs k).isSome

section Slots

variable {K : Tally} {out out' : List Action} {n : RxDataWinNode} {node : MPDNodeInfo} {q : ℕ}
  {m : Msg}

theorem RxDataWinNode.Bears.mono (h : n.Bears out m) (hout : out ⊆ out') : n.Bears out' m := by
  rcases h with ⟨hf, hm, hpassed⟩ | h
  · exact .inl ⟨hf, hm, fun hflag => (hpassed hflag).imp fun a ha => ⟨hout ha.1, ha.2⟩⟩
  · exact .inr h

theorem Tally.Stems.mono (h : K.Stems out n) (hout : out ⊆ out') : K.Stems out' n where
  ptrs := h.ptrs
  packet hst := by
    obtain ⟨q, m, hq, hm⟩ := h.packet hst
    exact ⟨q, m, hq, fun hc => (hm hc).mono hout⟩

/-- Only what arrived and how far the windows reach matters. -/
theorem Tally.Stems.move {K' : Tally} (h : K.Stems out n)
    (harr : K.record.arrived ⊆ K'.record.arrived) (htop : K'.top = K.top) : K'.Stems out n where
  ptrs := h.ptrs
  packet hst := by
    obtain ⟨q, m, ⟨hq, hstream, hssn, hbelow, hturn⟩, hm⟩ := h.packet hst
    rw [← htop] at hbelow hturn
    exact ⟨q, m, ⟨harr hq, hstream, hssn, hbelow, hturn⟩, hm⟩

theorem Tally.Stems.wiped (K : Tally) (out : List Action) (dsn : ℕ) : K.Stems out { dsn := dsn } where
  ptrs i _ hbit := by simp at hbit
  packet h := absurd rfl h

/-- Clocks and marks are not looked at, except the one that a packet was handed over. -/
theorem Tally.Stems.mark {n' : RxDataWinNode} (h : K.Stems out n) (hst : n'.status = n.status)
    (hf : n'.fragment = n.fragment) (hptr : n'.msgPtr = n.msgPtr) (hstream : n'.stream = n.stream)
    (hssn : n'.ssn = n.ssn) (hflag : n'.flag = .sended →
      n.flag = .sended ∨ ∀ m, n.msgPtr 0 = some m → Passed out m) : K.Stems out n' where
  ptrs := by
    rw [hf, hptr]
    exact h.ptrs
  packet hne := by
    rw [hst] at hne
    obtain ⟨q, m, hq, hm⟩ := h.packet hne
    rw [hst, hstream, hssn]
    refine ⟨q, m, hq, fun hc => ?_⟩
    rw [RxDataWinNode.Bears, hf, hptr]
    rcases hm hc with ⟨hf, hm, hpassed⟩ | hm
    · exact .inl ⟨hf, hm, fun hs => (hflag hs).elim hpassed (· m hm)⟩
    · exact .inr hm

/-- A packet is stored. -/
theorem Tally.Stems.put (h : K.Stems out n) (time : ℕ)
    (hq : K.Recent node.stream node.ssn q node.msgPtr) : K.Stems out (n.put node time) where
  ptrs i hi hbit := by
    simp only [RxDataWinNode.put, Function.update_apply] at hbit ⊢
    by_cases h0 : node.fragment = 0
    · simp [h0] at hbit
    · split
      · rfl
      · next hne =>
        rw [if_neg h0, Nat.testBit_or, Bool.or_eq_true] at hbit
        refine h.ptrs i hi (hbit.resolve_right fun hone => hne ?_)
        rw [Nat.one_shiftLeft, Nat.testBit_two_pow, decide_eq_true_eq] at hone
        rw [MPDNodeInfo.fragIndex, if_neg h0, hone]
  packet _ := by
    refine ⟨q, node.msgPtr, hq, fun hc => ?_⟩
    by_cases h0 : node.fragment = 0
    · refine .inl ⟨by simp [RxDataWinNode.put, h0], ?_, fun hs => by cases hs⟩
      simp [RxDataWinNode.put, MPDNodeInfo.fragIndex, h0]
    · have hthree : (n.put node time).fragment = 3 := by
        simp only [RxDataWinNode.put, if_neg h0] at hc ⊢
        by_contra hne
        rw [if_neg (not_or.mpr ⟨h0, hne⟩)] at hc
        cases hc
      refine .inr ⟨hthree, ?_⟩
      have hlow : node.fragment - 1 < 2 := by
        by_contra hge
        have hbit := congrArg (Nat.testBit · (node.fragment - 1)) hthree
        simp only [RxDataWinNode.put, if_neg h0, Nat.testBit_or, Nat.one_shiftLeft,
          Nat.testBit_two_pow_self, Bool.or_true] at hbit
        rw [Nat.testBit_lt_two_pow (show 3 < 2 ^ (node.fragment - 1) from
          lt_of_lt_of_le (by decide) (Nat.pow_le_pow_right (by decide) (Nat.le_of_not_lt hge)))]
          at hbit
        cases hbit
      have hself : (n.put node time).msgPtr (node.fragment - 1) = some node.msgPtr := by
        have hindex : node.fragIndex = node.fragment - 1 := if_neg h0
        rw [← hindex]
        exact RxDataWinNode.put_msgPtr_self
      have hcases : node.fragment - 1 = 0 ∨ node.fragment - 1 = 1 := by omega
      rcases hcases with heq | heq
      · exact .inl (heq ▸ hself)
      · exact .inr (heq ▸ hself)

/-- The packet is in what a slot that leaves hands over. -/
theorem RxDataWinNode.Bears.passed {mem : Option ℕ} (h : n.Bears out m) (hmem : mem.isSome)
    (hptrs : ∀ i < 2, n.fragment.testBit i → (n.msgPtr i).isSome) :
    Passed (out ++ n.passActions mem) m := by
  rcases h with ⟨hf, hm, hpassed⟩ | ⟨hf, hm⟩
  · by_cases hs : n.flag = .sended
    · obtain ⟨a, ha, hma⟩ := hpassed hs
      exact ⟨a, List.mem_append_left _ ha, hma⟩
    · refine ⟨.post .inOrder n.dsn m (n.msgLen 0) n.mpdHeadLen, ?_, List.mem_singleton.mpr rfl⟩
      simp [RxDataWinNode.passActions, hf, hs, RxDataWinNode.postHead, hm]
  · obtain ⟨first, h₀⟩ := Option.isSome_iff_exists.mp (hptrs 0 (by decide) (by rw [hf]; decide))
    obtain ⟨second, h₁⟩ := Option.isSome_iff_exists.mp (hptrs 1 (by decide) (by rw [hf]; decide))
    obtain ⟨addr, rfl⟩ := Option.isSome_iff_exists.mp hmem
    refine ⟨.postMerged n.dsn first second (n.merge first second addr) n.mergedLen n.mpdHeadLen, ?_,
      ?_⟩
    · simp [RxDataWinNode.passActions, hf, RxDataWinNode.postMerged, h₀, h₁]
    · rw [h₀, h₁] at hm
      show m ∈ [first, second]
      rcases hm with hm | hm <;> cases hm <;> simp

end Slots

/-! ### What stays inside the data window -/

namespace Tally

variable {K : Tally} {u v : UserInfo} {node : MPDNodeInfo} {q : ℕ} {m : Msg}

theorem Backs.congr (h : K.Backs u) (hwin : v.rxDataWin.win = u.rxDataWin.win)
    (hsub : v.rxSubWin = u.rxSubWin) (hout : ∃ as, v.out = u.out ++ as) : K.Backs v := by
  obtain ⟨as, hout⟩ := hout
  refine ⟨fun i => ?_, fun f => ?_⟩
  · rw [hwin, hout]
    exact (h.slots i).mono (List.subset_append_left ..)
  · obtain ⟨b, hb, hf⟩ := h.subs f
    rw [hsub, hout]
    exact ⟨b, hb, hf.mono (.emit ..)⟩

theorem Backs.emit (h : K.Backs u) (as : List Action) : K.Backs (u.emit as) :=
  h.congr rfl rfl ⟨as, rfl⟩

theorem Backs.setRxDataWinNode (h : K.Backs u) (i : ℕ) {n : RxDataWinNode} (hn : K.Stems u.out n) :
    K.Backs (u.setRxDataWinNode i n) where
  slots j := by
    show K.Stems u.out (Function.update u.rxDataWin.win i n j)
    rw [Function.update_apply]
    split
    · exact hn
    · exact h.slots j
  subs := h.subs

theorem Backs.setRxSubWin {f b : ℕ} {w : RxSubWin} (h : K.Backs u) (hb : K.front f ≤ b)
    (hw : Justified K.record u.out f (K.top f) w b (K.next f)) : K.Backs (u.setRxSubWin f w) where
  slots := h.slots
  subs g := by
    show ∃ c, K.front g ≤ c ∧
      Justified K.record u.out g (K.top g) (Function.update u.rxSubWin f w g) c (K.next g)
    by_cases hg : g = f
    · subst hg
      rw [Function.update_self]
      exact ⟨b, hb, hw⟩
    · rw [Function.update_of_ne hg]
      exact h.subs g

/-- `dataWinSSN` follows a packet that was handed over. -/
theorem Backs.posted {f ssn : ℕ} (h : K.Backs u) (hq : K.Recent f ssn q m) (hm : Passed u.out m) :
    K.Backs (u.setRxSubWin f { u.rxSubWin f with dataWinSSN := ssnPlus ssn }) := by
  obtain ⟨b, hb, hf⟩ := h.subs f
  obtain ⟨harr, hstream, rfl, hlt, hturn⟩ := hq
  exact h.setRxSubWin hb (hf.noted ⟨m, harr, hstream, hm⟩ hlt hturn)

theorem Backs.noteDataWinSSN {n : RxDataWinNode} (h : K.Backs u) (hq : K.Recent n.stream n.ssn q m)
    (hm : Passed u.out m) : K.Backs (u.noteDataWinSSN n) := by
  rw [UserInfo.noteDataWinSSN]
  dsimp only
  split
  · refine (h.emit _).posted hq ?_
    obtain ⟨a, ha, hma⟩ := hm
    exact ⟨a, List.mem_append_left _ ha, hma⟩
  · exact h.emit _

theorem Backs.dataWinTimeOutScan (h : K.Backs u) (cnt i : ℕ) :
    K.Backs (UserInfo.dataWinTimeOutScan cnt i u).1 := by
  induction cnt generalizing i u with
  | zero => exact h
  | succ cnt ih =>
    rw [UserInfo.dataWinTimeOutScan]
    dsimp only
    split
    · split
      · refine ih (h.setRxDataWinNode i (n := { u.rxDataWin.win i with timeOut := true }) ?_) _
        exact (h.slots i).mark rfl rfl rfl rfl rfl .inl
      · exact h
    · exact ih h _

theorem Backs.checkAckNode (h : K.Backs u) (i : ℕ) : K.Backs (u.checkAckNode i) := by
  rw [UserInfo.checkAckNode]
  dsimp only
  have hmark : ∀ flag, flag ≠ .sended →
      K.Stems u.out { u.rxDataWin.win i with flag := flag } := fun flag hne =>
    (h.slots i).mark rfl rfl rfl rfl rfl fun hs => absurd hs hne
  split
  · exact h
  split
  · exact h.setRxDataWinNode i (hmark .checked (by decide))
  · next m hm =>
    split
    · -- the packet is handed over ahead of order
      have hposts : Passed ((u.out ++ (u.rxDataWin.win i).checkReads m) ++
          (u.rxDataWin.win i).postHead .early) m := by
        refine ⟨.post .early (u.rxDataWin.win i).dsn m ((u.rxDataWin.win i).msgLen 0)
          (u.rxDataWin.win i).mpdHeadLen, List.mem_append_right _ ?_, List.mem_singleton.mpr rfl⟩
        simp [RxDataWinNode.postHead, hm]
      have hread := (h.emit ((u.rxDataWin.win i).checkReads m)).emit
        ((u.rxDataWin.win i).postHead .early)
      refine hread.setRxDataWinNode i (n := { u.rxDataWin.win i with flag := .sended }) ?_
      refine (hread.slots i).mark rfl rfl rfl rfl rfl fun _ => .inr fun m' hm' => ?_
      obtain rfl := Option.some.inj (hm.symm.trans hm')
      exact hposts
    · exact (h.emit _).setRxDataWinNode i ((hmark .checked (by decide)).mono
        (List.subset_append_left ..))

theorem Backs.checkAck (h : K.Backs u) : K.Backs u.checkAck := by
  have hfrom : ∀ cnt i u, K.Backs u → K.Backs (UserInfo.checkAckFrom cnt i u) := by
    intro cnt
    induction cnt with
    | zero => exact fun _ _ h => h
    | succ cnt ih => exact fun i u h => ih _ _ (h.checkAckNode i)
  rw [UserInfo.checkAck]
  split
  · exact (hfrom _ _ _ h).congr rfl rfl ⟨[], (List.append_nil _).symm⟩
  · exact h

/-! ### Moving `RxBegin` -/

/-- Memory is used up from the front. -/
def Draws (u v : UserInfo) : Prop := ∃ d, ∀ k, v.allocs k = u.allocs (k + d)

theorem Draws.of_eq (h : v.allocs = u.allocs) : Draws u v := ⟨0, fun _ => by rw [h, Nat.add_zero]⟩

theorem Serves.of_draws (hu : K.Serves u) (h : K.Backs v) (hd : Draws u v) : K.Serves v := by
  obtain ⟨d, hd⟩ := hd
  exact ⟨h, fun k => by rw [hd]; exact hu.stocked _⟩

theorem noteDataWinSSN_allocs (u : UserInfo) (n : RxDataWinNode) :
    (u.noteDataWinSSN n).allocs = u.allocs := by
  rw [UserInfo.noteDataWinSSN]
  dsimp only
  split <;> rfl

theorem draws_dataWinHeadOut (u : UserInfo) : Draws u u.dataWinHeadOut := by
  rw [UserInfo.dataWinHeadOut]
  dsimp only
  split
  · split
    · refine .of_eq ((noteDataWinSSN_allocs _ _).trans ?_)
      split <;> rfl
    · split
      · exact ⟨1, fun k => congrFun (noteDataWinSSN_allocs _ _) k⟩
      · exact .of_eq rfl
  · exact .of_eq rfl

/-- One round of the loop: the slot at `RxBegin` is handed over, or given up. -/
theorem Serves.dataWinHeadOut (h : K.Serves u) : K.Serves u.dataWinHeadOut := by
  refine h.of_draws ?_ (draws_dataWinHeadOut u)
  have hslot := h.slots u.rxDataWin.rxBegin
  have hout := UserInfo.dataWinHeadOut_out u
  have hsub := UserInfo.dataWinHeadOut_rxSubWin u
  have hwin := congrArg RxDataWin.win (UserInfo.dataWinHeadOut_rxDataWin u)
  rw [RxDataWin.beginNode] at hout hsub
  generalize u.rxDataWin.win u.rxDataWin.rxBegin = n at hslot hout hsub
  by_cases hc : n.status = .receiveComplete
  · obtain ⟨q, m, hq, hm⟩ := hslot.packet (by simp [hc])
    have hpassed := (hm hc).passed (h.stocked 0) hslot.ptrs
    have hwhole : n.fragment = 0 ∨ n.fragment = 3 := (hm hc).imp And.left And.left
    rw [if_pos ⟨hc, hwhole⟩, UserInfo.noteDataWinSSN_rxSubWin] at hsub
    rw [if_pos hc] at hout
    have hemit := h.emit (n.passActions (u.allocs 0))
    split at hsub
    · exact (hemit.posted hq hpassed).congr hwin hsub ⟨[], by rw [hout, List.append_nil]; rfl⟩
    · exact hemit.congr hwin hsub ⟨[], by rw [hout, List.append_nil]; rfl⟩
  · rw [if_neg fun h => hc h.1] at hsub
    exact h.congr hwin hsub ⟨_, hout⟩

theorem Serves.dataWinForceMove (h : K.Serves u) : K.Serves u.dataWinForceMove := by
  rw [UserInfo.dataWinForceMove]
  split
  · exact h.of_draws (h.congr rfl rfl ⟨[], (List.append_nil _).symm⟩) (.of_eq rfl)
  · exact h.of_draws (h.congr rfl rfl ⟨_, rfl⟩) (.of_eq rfl)
  · exact h

theorem Serves.driveSubWins (h : K.Serves u) (hd : u.driveSubWins = some v) : K.Serves v := by
  rw [UserInfo.driveSubWins] at hd
  generalize [0, 1, 2] = l at hd
  induction l generalizing u with
  | nil =>
    cases hd
    exact h
  | cons i l ih =>
    rw [List.foldlM_cons] at hd
    obtain ⟨s, hs, hd⟩ := Option.bind_eq_some_iff.mp hd
    refine ih ?_ hd
    split at hs
    · obtain ⟨w, hw, rfl⟩ := Option.map_eq_some_iff.mp hs
      obtain ⟨b, hb, hi⟩ := h.subs i
      obtain ⟨b', hb', hw'⟩ := hi.followDataWin hw
      exact h.of_draws (h.setRxSubWin (hb.trans hb') hw') (.of_eq rfl)
    · cases hs
      exact h

theorem Serves.dataWinRxBeginMove {force : Bool} (h : K.Serves u)
    (hm : u.dataWinRxBeginMove force = some v) : K.Serves v := by
  obtain ⟨s, hs, hm⟩ := Option.bind_eq_some_iff.mp hm
  refine Serves.driveSubWins ?_ hm
  refine (whileLoop_inv K.Serves (fun a a' ha _ hbody => ?_) ?_ hs).1
  · cases hbody
    exact ha.dataWinHeadOut
  · split
    · exact h.dataWinForceMove
    · exact h

theorem Serves.dataWinTimeOutCheck (h : K.Serves u) (ht : u.dataWinTimeOutCheck = some v) :
    K.Serves v := by
  have hallocs : ∀ cnt i u, (UserInfo.dataWinTimeOutScan cnt i u).1.allocs = u.allocs := by
    intro cnt
    induction cnt with
    | zero => exact fun _ _ => rfl
    | succ cnt ih =>
      intro i u
      rw [UserInfo.dataWinTimeOutScan]
      dsimp only
      split
      · split
        · exact ih _ _
        · rfl
      · exact ih _ _
  have hscan := h.of_draws (h.dataWinTimeOutScan u.nodeCnt u.rxDataWin.rxBegin)
    (.of_eq (hallocs _ _ _))
  rw [UserInfo.dataWinTimeOutCheck] at ht
  split at ht
  · exact hscan.dataWinRxBeginMove ht
  · cases ht
    exact hscan

/-! ### A packet arrives -/

theorem Serves.setRxDataWinNode (h : K.Serves u) (i : ℕ) {n : RxDataWinNode}
    (hn : K.Stems u.out n) : K.Serves (u.setRxDataWinNode i n) :=
  h.of_draws (h.toBacks.setRxDataWinNode i hn) (.of_eq rfl)

/-- The log is longer, fields that do not matter are different. -/
theorem Serves.congr (h : K.Serves u) (hwin : v.rxDataWin.win = u.rxDataWin.win)
    (hsub : v.rxSubWin = u.rxSubWin) (hout : ∃ as, v.out = u.out ++ as)
    (ha : v.allocs = u.allocs) : K.Serves v :=
  h.of_draws (h.toBacks.congr hwin hsub hout) (.of_eq ha)

theorem Serves.silent (h : K.Serves u) (hwin : v.rxDataWin.win = u.rxDataWin.win)
    (hsub : v.rxSubWin = u.rxSubWin) (hout : v.out = u.out) (ha : v.allocs = u.allocs) :
    K.Serves v :=
  h.congr hwin hsub ⟨[], by rw [hout, List.append_nil]⟩ ha

theorem Serves.dataWinRxNextMove (h : K.Serves u) (hm : u.dataWinRxNextMove = some v) :
    K.Serves v := by
  obtain ⟨s, hs, rfl⟩ := Option.map_eq_some_iff.mp hm
  have hnext : K.Serves (u.setDataWinNext (dataWinPlus u.rxDataWin.rxNext)) :=
    h.silent rfl rfl rfl rfl
  have hs' : K.Serves s := by
    split at hs
    · exact hnext.dataWinRxBeginMove hs
    · cases hs
      exact hnext
  exact hs'.setRxDataWinNode _ (.wiped K _ _)

theorem Serves.dataWinPutInNode (h : K.Serves u)
    (hq : K.Recent node.stream node.ssn q node.msgPtr) (i : ℕ) :
    K.Serves (u.dataWinPutInNode i node) := by
  have hask : K.Serves (u.emit [.access (.frag node.fragIndex)]) := h.congr rfl rfl ⟨_, rfl⟩ rfl
  have hput := hask.setRxDataWinNode i ((hask.slots i).put u.time hq)
  rw [UserInfo.dataWinPutInNode]
  dsimp only
  split <;> exact hput.silent rfl rfl rfl rfl

theorem Serves.dataWinExtend {dsn : ℕ} (h : K.Serves u)
    (he : UserInfo.dataWinExtend dsn u = some v) : K.Serves v := by
  refine (whileLoop_inv K.Serves (fun a a' ha _ hbody => ?_) h he).1
  refine Serves.dataWinRxNextMove (ha.setRxDataWinNode _ ?_) hbody
  exact (ha.slots a.rxDataWin.rxNext).mark rfl rfl rfl rfl rfl .inl

/-- The data window takes the packet, or refuses it. -/
theorem Serves.dataWinPlace {r : UserInfo × Bool} (h : K.Serves u)
    (hr : u.dataWinPlace node = some r)
    (hq : r.2 = true → K.Recent node.stream node.ssn q node.msgPtr) : K.Serves r.1 := by
  rw [UserInfo.dataWinPlace] at hr
  dsimp only at hr
  have hrefuse : ∀ k, K.Serves (u.dataWinRefuse node k) := fun _ => h.congr rfl rfl ⟨_, rfl⟩ rfl
  split at hr
  · split at hr
    · cases hr
      have hposts := h.emit [.post .outOfWindow node.dsn node.msgPtr node.msgLen node.mpdHeadLen]
      refine h.of_draws (hposts.posted (hq rfl) ⟨.post .outOfWindow node.dsn node.msgPtr node.msgLen
        node.mpdHeadLen, ?_, List.mem_singleton.mpr rfl⟩) (.of_eq rfl)
      exact List.mem_append_right _ (List.mem_singleton.mpr rfl)
    · cases hr
      exact hrefuse _
  split at hr
  · split at hr
    · cases hr
      exact hrefuse _
    · obtain ⟨t, ht, rfl⟩ := Option.map_eq_some_iff.mp hr
      obtain ⟨s, hs, ht⟩ := Option.bind_eq_some_iff.mp ht
      have hput := (h.dataWinExtend hs).dataWinPutInNode (hq rfl) s.rxDataWin.rxNext
      exact (hput.dataWinRxNextMove ht).silent rfl rfl rfl rfl
  · split at hr
    · cases hr
      exact hrefuse _
    · cases hr
      exact (h.dataWinPutInNode (hq rfl) _).silent rfl rfl rfl rfl

theorem Serves.dataWinAddNode {r : UserInfo × Bool} (h : K.Serves u)
    (hr : u.dataWinAddNode node = some r)
    (hq : r.2 = true → K.Recent node.stream node.ssn q node.msgPtr) : K.Serves r.1 := by
  obtain ⟨r', hr', rfl⟩ := Option.map_eq_some_iff.mp hr
  have h₁ : K.Serves (if u.rxDataWin.looksClear then u.dataWinAnchor node else u) := by
    split
    · have hmoved : K.Serves ((u.setDataWinBegin (node.dsn % 4096)).setDataWinNext
          (node.dsn % 4096)) := h.silent rfl rfl rfl rfl
      refine hmoved.setRxDataWinNode _ ?_
      exact (h.slots (node.dsn % 4096)).mark rfl rfl rfl rfl rfl fun hs => by cases hs
    · exact h
  have h₂ := h₁.dataWinPlace hr' hq
  change K.Serves r'.1.reportDsnErr
  rw [UserInfo.reportDsnErr]
  split
  · exact h₂.congr rfl rfl ⟨_, rfl⟩ rfl
  · exact h₂

end Tally

end Mpd

end AndroidVendor
