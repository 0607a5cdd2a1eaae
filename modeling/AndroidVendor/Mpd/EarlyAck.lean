import AndroidVendor.Mpd.Ownership
import AndroidVendor.Mpd.SlotInv

/-!
# Acknowledgements ahead of order

`MPD_CheckAck` hands a packet over before its turn when it looks like a TCP acknowledgement without
data. It looks at the bytes of the first buffer of a slot only: that the slot holds two fragments,
or that the packet is not of IP version 4, it does not see. Where it finds neither, what it posts
are such acknowledgements, and nobody uses their buffers again.

A ledger as in `Ownership`, for unfragmented packets only. It needs no assumption about fragments: a
fragment is never where an unfragmented packet is looked for, in whatever slot it ends up.

## Main results

* `earlyAck_run` — in every run whose checks find nothing else
* `earlyAck_mistaken` — what is posted otherwise
-/

namespace AndroidVendor

namespace Mpd

open Loop Machine Relation SerialRing

/-- An unfragmented packet of IP version 4 that carries TCP, and nothing after the TCP header. The
IP header starts at `ipHead`. -/
structure Msg.PureAck (m : Msg) (ipHead : ℕ) : Prop where
  fragment : m.header.fragment = 0
  version : m.byte ipHead / 16 = 4
  proto : m.byte (ipHead + 9) = 6
  len : m.word (ipHead + 2) =
    m.byte ipHead % 16 * 4 + m.byte (ipHead + m.byte ipHead % 16 * 4 + 12) / 16 * 4

/-- Buffer `m` is posted, copied from or freed. -/
def Action.Touches (m : Msg) : Action → Prop
  | .post _ _ m' _ _ => m' = m
  | .postMerged _ first second _ _ _ => first = m ∨ second = m
  | .free m' => m' = m
  | .freeResend m' _ => m' = m
  | _ => False

instance Action.instDecidableTouches (m : Msg) : DecidablePred (Action.Touches m)
  | .post _ _ m' _ _ => inferInstanceAs (Decidable (m' = m))
  | .postMerged _ first second _ _ _ => inferInstanceAs (Decidable (first = m ∨ second = m))
  | .free m' => inferInstanceAs (Decidable (m' = m))
  | .freeResend m' _ => inferInstanceAs (Decidable (m' = m))
  | .send .. => isFalse not_false
  | .exception .. => isFalse not_false
  | .access _ => isFalse not_false

/-- What is posted ahead of order is a pure acknowledgement, and left alone from then on. -/
structure EarlyAcks (out : List Action) : Prop where
  pure : ∀ dsn m len ipHead, .post .early dsn m len ipHead ∈ out → m.PureAck ipHead
  once : ∀ before dsn m len ipHead after, out = before ++ .post .early dsn m len ipHead :: after →
    ∀ a ∈ after, ¬ a.Touches m

/-- What `MPD_CheckAck` is going to take for pure acknowledgements are unfragmented packets of IP
version 4. -/
def UserInfo.ChecksAcks (u : UserInfo) : Prop :=
  u.rxDataWin.newData → ∀ n, u.InWindow n → n.status = .receiveComplete → n.flag = .unChecked →
    ∀ m, n.msgPtr 0 = some m → n.LooksPureAck m →
      n.fragment = 0 ∧ m.byte n.mpdHeadLen / 16 = 4

/-- How often buffer `m` is touched. -/
def touched (m : Msg) (out : List Action) : ℕ := out.countP fun a => a.Touches m

section Touched

variable {m : Msg} {out as : List Action}

@[simp] theorem touched_nil (m : Msg) : touched m [] = 0 := rfl

@[simp] theorem touched_append : touched m (out ++ as) = touched m out + touched m as :=
  List.countP_append

theorem touched_cons (a : Action) :
    touched m (a :: out) = touched m out + if a.Touches m then 1 else 0 := by
  simp [touched, List.countP_cons]

theorem touched_of_none (h : ∀ a ∈ as, ¬ a.Touches m) : touched m as = 0 := by
  simpa [touched] using h

theorem not_touches_of_touched (h : touched m as = 0) : ∀ a ∈ as, ¬ a.Touches m := by
  simpa [touched] using h

/-- One action that takes a buffer `m'` over. -/
theorem touched_singleton {a : Action} {m' : Msg} (h : a.Touches m ↔ m' = m) :
    touched m [a] = [m'].count m := by
  rw [touched_cons, touched_nil, Nat.zero_add, List.count_singleton]
  simp only [h, beq_iff_eq]

theorem sideAction_touches {F : ℕ → Prop} {B : Access → Prop} {a : Action} (hm : ¬ F m.addr)
    (h : SideAction F B a) : ¬ a.Touches m := by
  cases a with
  | post => exact h.elim
  | postMerged => exact h.elim
  | free m' =>
    rintro rfl
    exact hm h
  | freeResend m' _ =>
    rintro rfl
    exact hm h
  | _ => exact not_false

end Touched

/-! ### One slot -/

namespace RxDataWinNode

/-- Each packet a slot holds is where a packet of its kind belongs, and none is of the transmit
side. -/
structure InPlace (F : ℕ → Prop) (n : RxDataWinNode) : Prop where
  part : n.status = .received → n.fragment ≠ 0
  bit : ∀ i < 2, n.fragment.testBit i → ∃ m, n.msgPtr i = some m ∧ m.header.fragment = i + 1
  whole : n.status = .receiveComplete → n.fragment = 0 →
    ∃ m, n.msgPtr 0 = some m ∧ m.header.fragment = 0 ∧ ¬ F m.addr

/-- The unfragmented packet a slot has yet to hand over. -/
def waiting (n : RxDataWinNode) : List Msg :=
  if n.status = .receiveComplete ∧ n.fragment = 0 ∧ n.flag ≠ .sended then (n.msgPtr 0).toList else []

variable {F : ℕ → Prop} {n n' : RxDataWinNode} {node : MPDNodeInfo} {time : ℕ} {m : Msg}

theorem waiting_of_ne (h : n.status ≠ .receiveComplete) : n.waiting = [] :=
  if_neg fun hc => h hc.1

theorem waiting_same (h : n.Same n') : n'.waiting = n.waiting := by
  simp only [waiting, h.status, h.fragment, h.msgPtr, ne_eq, h.sended]

theorem inPlace_wiped (F : ℕ → Prop) (dsn : ℕ) : InPlace F { dsn := dsn } where
  part h := by cases h
  bit i _ h := by simp at h
  whole h := by cases h

/-- What was stored before stays, and the packet that comes has its own entry. -/
theorem InPlace.put (h : n.InPlace F) (time : ℕ)
    (hfrag : node.fragment = node.msgPtr.header.fragment) (hF : ¬ F node.msgPtr.addr) :
    (n.put node time).InPlace F := by
  have hself : (n.put node time).msgPtr node.fragIndex = some node.msgPtr := put_msgPtr_self
  by_cases h0 : node.fragment = 0
  · have hzero : (n.put node time).fragment = 0 := by simp [RxDataWinNode.put, h0]
    rw [MPDNodeInfo.fragIndex, if_pos h0] at hself
    refine ⟨fun hst => ?_, fun i _ hi => ?_, fun _ _ => ⟨node.msgPtr, hself, ?_, hF⟩⟩
    · rw [put_status_of_whole (.inl hzero)] at hst
      cases hst
    · rw [hzero, Nat.zero_testBit] at hi
      cases hi
    · exact hfrag.symm.trans h0
  · have hne := n.put_fragment_ne_zero time h0
    rw [MPDNodeInfo.fragIndex, if_neg h0] at hself
    refine ⟨fun _ => hne, fun i hi hbit => ?_, fun _ hzero => absurd hzero hne⟩
    by_cases hindex : i = node.fragment - 1
    · refine ⟨node.msgPtr, hindex ▸ hself, ?_⟩
      omega
    · -- the other bits are those of the slot
      have hold : n.fragment.testBit i := by
        simp only [RxDataWinNode.put, if_neg h0, Nat.testBit_or, Nat.one_shiftLeft,
          Nat.testBit_two_pow, Bool.or_eq_true, decide_eq_true_eq] at hbit
        exact hbit.resolve_right fun hnew => hindex hnew.symm
      rw [put_msgPtr_of_ne (by rwa [MPDNodeInfo.fragIndex, if_neg h0])]
      exact h.bit i hi hold

theorem slotInv_inPlace (F : ℕ → Prop) : SlotInv
    (fun node => node.fragment = node.msgPtr.header.fragment ∧ ¬ F node.msgPtr.addr)
    (InPlace F) where
  wiped := inPlace_wiped F
  mark _ _ _ _ _ _ h := ⟨h.part, h.bit, h.whole⟩
  put _ _ time h hQ := h.put time hQ.1 hQ.2

theorem steady_inPlace (F : ℕ → Prop) (A : Action → Prop) :
    Tape.Steady A fun _ => InPlace F where
  same p n n' h hsame _ := by
    refine ⟨?_, ?_, ?_⟩
    · rw [hsame.status, hsame.fragment]
      exact h.part
    · rw [hsame.fragment, hsame.msgPtr]
      exact h.bit
    · rw [hsame.status, hsame.fragment, hsame.msgPtr]
      exact h.whole
  wiped _ := inPlace_wiped F

/-- After a packet is stored, an unfragmented one is what the slot has to hand over. -/
theorem count_waiting_put (n : RxDataWinNode) (time : ℕ) (h0 : m.header.fragment = 0)
    (hfrag : node.fragment = node.msgPtr.header.fragment) :
    (n.put node time).waiting.count m = [node.msgPtr].count m := by
  by_cases hnode : node.fragment = 0
  · have hzero : (n.put node time).fragment = 0 := by simp [RxDataWinNode.put, hnode]
    have hself : (n.put node time).msgPtr node.fragIndex = some node.msgPtr := put_msgPtr_self
    rw [MPDNodeInfo.fragIndex, if_pos hnode] at hself
    rw [waiting, if_pos ⟨put_status_of_whole (.inl hzero), hzero, by simp⟩, hself]
    rfl
  · have hne := n.put_fragment_ne_zero time hnode
    have hother : node.msgPtr ≠ m := by
      rintro rfl
      exact hnode (hfrag.trans h0)
    rw [waiting, if_neg fun hw => hne hw.2.1]
    simp [hother]

/-- What a slot frees are fragments, unless it holds an unfragmented packet. -/
theorem InPlace.fragment_of_freed (h : n.InPlace F) (hne : n.status = .receiveComplete →
    n.fragment ≠ 0) (hm : m ∈ n.freePtrs) : m.header.fragment ≠ 0 := by
  rw [freePtrs] at hm
  split at hm
  · cases hm
  next hst =>
  split at hm
  · next hzero =>
    cases hs : n.status with
    | unReceived => exact absurd hs hst
    | received => exact absurd hzero (h.part hs)
    | receiveComplete => exact absurd hzero (hne hs)
  · obtain ⟨i, hi, hm⟩ := List.mem_flatMap.mp hm
    split at hm
    · next hbit =>
      obtain ⟨m', hm', hfrag⟩ := h.bit i (List.mem_range.mp hi) hbit
      rw [hm'] at hm
      obtain rfl : m = m' := by simpa using hm
      omega
    · cases hm

theorem InPlace.touched_frees (h : n.InPlace F)
    (hne : n.status = .receiveComplete → n.fragment ≠ 0) (h0 : m.header.fragment = 0) :
    touched m (n.freePtrs.map .free) = 0 := by
  refine touched_of_none fun a ha => ?_
  obtain ⟨m', hm', rfl⟩ := List.mem_map.mp ha
  rintro rfl
  exact h.fragment_of_freed hne hm' h0

/-- Merging copies from fragments only. -/
theorem InPlace.touched_postMerged (h : n.InPlace F) (hthree : n.fragment = 3) (mem : Option ℕ)
    (h0 : m.header.fragment = 0) : touched m (n.postMerged mem) = 0 := by
  obtain ⟨first, hfirst, hone⟩ := h.bit 0 (by decide) (by rw [hthree]; decide)
  obtain ⟨second, hsecond, htwo⟩ := h.bit 1 (by decide) (by rw [hthree]; decide)
  have hsubs : touched m n.mergeSubs = 0 := rfl
  rw [postMerged_eq mem hfirst hsecond, touched_append, hsubs, Nat.zero_add]
  refine touched_of_none fun a ha => ?_
  obtain ⟨addr, -, rfl⟩ := List.mem_map.mp ha
  rintro (rfl | rfl) <;> omega

/-- **A complete slot leaves at the front.** Of the unfragmented packets it touches the one it has
to hand over. -/
theorem InPlace.touched_passActions (h : n.InPlace F) (hc : n.status = .receiveComplete)
    (mem : Option ℕ) (h0 : m.header.fragment = 0) :
    touched m (n.passActions mem) = n.waiting.count m := by
  have hflow : touched m [.access (.flow n.stream)] = 0 := rfl
  by_cases hzero : n.fragment = 0
  · obtain ⟨m₀, hm₀, -⟩ := h.whole hc hzero
    by_cases hs : n.flag = .sended
    · rw [passActions, if_pos hzero, if_neg (not_not.mpr hs), waiting, if_neg fun hw => hw.2.2 hs]
      rfl
    · have hpost : touched m (n.postHead .inOrder) = [m₀].count m := by
        rw [postHead, hm₀]
        exact touched_singleton Iff.rfl
      rw [passActions, if_pos hzero, if_pos hs, waiting, if_pos ⟨hc, hzero, hs⟩, touched_append,
        hpost, hflow, hm₀]
      rfl
  · rw [waiting, if_neg fun hw => hzero hw.2.1, List.count_nil, passActions, if_neg hzero]
    split
    · next hthree =>
      rw [touched_append, touched_append, h.touched_postMerged hthree mem h0, hflow,
        h.touched_frees (fun _ => hzero) h0]
    · rfl

end RxDataWinNode

/-! ### The ledger -/

/-- The action does not post the wrong packet ahead of order. -/
def Action.EarlyPure (F : ℕ → Prop) : Action → Prop
  | .post .early _ m _ ipHead => m.PureAck ipHead ∧ ¬ F m.addr
  | _ => True

/-- How often the slots of the tape have buffer `m` to hand over, the one the next packet will take
included. -/
def Tape.waiting (T : Tape) (m : Msg) : ℕ :=
  total (fun n => n.waiting.count m) T.cell T.rxBegin (T.rxNext + 1)

/-- Each unfragmented packet in a buffer `m` that was received `k m` times waits in its slot, or was
touched. -/
structure AckLedger (F : ℕ → Prop) (k : Msg → ℕ) (T : Tape) : Prop where
  window : T.Window
  place : T.Cells fun _ => RxDataWinNode.InPlace F
  log : ∀ a ∈ T.out, a.EarlyPure F
  balance : ∀ m, m.header.fragment = 0 → ¬ F m.addr → T.waiting m + touched m T.out = k m

section EarlyPure

variable {F : ℕ → Prop} {B : Access → Prop} {a : Action}

theorem sideAction_earlyPure (h : SideAction F B a) : a.EarlyPure F := by
  cases a with
  | post => exact h.elim
  | _ => trivial

theorem earlyPure_free {ms : List Msg} (h : a ∈ ms.map Action.free) : a.EarlyPure F := by
  obtain ⟨m, -, rfl⟩ := List.mem_map.mp h
  trivial

/-- What leaves at the front does so in order. -/
theorem earlyPure_passActions {n : RxDataWinNode} {mem : Option ℕ} (h : a ∈ n.passActions mem) :
    a.EarlyPure F := by
  have hflow : ∀ {a}, a ∈ [Action.access (.flow n.stream)] → a.EarlyPure F := by
    intro a ha
    rw [List.mem_singleton.mp ha]
    trivial
  rw [RxDataWinNode.passActions] at h
  split at h
  · rcases List.mem_append.mp h with h | h
    · split at h
      · obtain ⟨m, -, rfl⟩ := List.mem_map.mp h
        trivial
      · cases h
    · exact hflow h
  split at h
  · rcases List.mem_append.mp h with h | h
    · rcases List.mem_append.mp h with h | h
      · rw [RxDataWinNode.postMerged.eq_def] at h
        rcases List.mem_cons.mp h with rfl | h
        · trivial
        rcases List.mem_cons.mp h with rfl | h
        · trivial
        split at h
        · rw [List.mem_singleton.mp h]
          trivial
        · cases h
      · exact hflow h
    · exact earlyPure_free h
  · cases h

end EarlyPure

namespace AckLedger

open RxDataWinNode

variable {F : ℕ → Prop} {B : Access → Prop} {k k' : Msg → ℕ} {p time : ℕ} {T T' : Tape}
  {node : MPDNodeInfo}

/-- The log grows, and some buffers were received. -/
theorem emit {as : List Action} (h : AckLedger F k T) (hlog : ∀ a ∈ as, a.EarlyPure F)
    (has : ∀ m, m.header.fragment = 0 → ¬ F m.addr → k' m = k m + touched m as) :
    AckLedger F k' (T.emit as) where
  window := ⟨h.window.le, h.window.size⟩
  place := h.place
  log a ha := (List.mem_append.mp ha).elim (h.log a) (hlog a)
  balance m h0 hF := by
    have hbalance := h.balance m h0 hF
    rw [has m h0 hF, Tape.emit, touched_append, ← hbalance]
    exact (Nat.add_assoc _ _ _).symm

/-- The slot at the front leaves, and what it has to hand over is touched. -/
theorem leave {as : List Action} (h : AckLedger F k T) (hlt : T.rxBegin < T.rxNext)
    (hout : T'.out = T.out ++ as) (hb : T'.rxBegin = T.rxBegin + 1) (hn : T'.rxNext = T.rxNext)
    (hcell : T'.cell = T.cell) (hlog : ∀ a ∈ as, a.EarlyPure F)
    (has : ∀ m, m.header.fragment = 0 → touched m as = T.head.waiting.count m) :
    AckLedger F k T' := by
  have hw := h.window
  refine ⟨⟨by omega, by have := hw.size; omega⟩, fun p hp hpn => ?_, fun a ha => ?_,
    fun m h0 hF => ?_⟩
  · rw [hcell]
    exact h.place p (by omega) (by omega)
  · rw [hout] at ha
    exact (List.mem_append.mp ha).elim (h.log a) (hlog a)
  · have hbalance := h.balance m h0 hF
    rw [Tape.waiting, total_pop (by omega)] at hbalance
    rw [Tape.waiting, hcell, hb, hn, hout, touched_append, has m h0, Tape.head]
    omega

/-- One slot is written. -/
theorem write {n : RxDataWinNode} {as : List Action} (h : AckLedger F k T) (hb : T.rxBegin ≤ p)
    (hn : p ≤ T.rxNext) (hplace : n.InPlace F) (hlog : ∀ a ∈ as, a.EarlyPure F)
    (hcount : ∀ m, m.header.fragment = 0 → ¬ F m.addr →
      n.waiting.count m + touched m as + k m = (T.cell p).waiting.count m + k' m) :
    AckLedger F k' ((T.setCell p n).emit as) := by
  refine ⟨⟨h.window.le, h.window.size⟩, fun q hq hqn => ?_, fun a ha => ?_, fun m h0 hF => ?_⟩
  · simp only [Tape.emit, Tape.setCell_cell]
    split
    · exact hplace
    · exact h.place q hq hqn
  · exact (List.mem_append.mp ha).elim (h.log a) (hlog a)
  · have hbalance := h.balance m h0 hF
    have hm := hcount m h0 hF
    have hupdate : total (fun n : RxDataWinNode => n.waiting.count m)
        (Function.update T.cell p n) T.rxBegin (T.rxNext + 1) + (T.cell p).waiting.count m =
          total (fun n => n.waiting.count m) T.cell T.rxBegin (T.rxNext + 1) + n.waiting.count m :=
      total_update hb (by omega) n
    rw [Tape.waiting] at hbalance
    simp only [Tape.waiting, Tape.emit, Tape.setCell, touched_append] at hupdate ⊢
    omega

theorem keeps : Tape.Keeps (SideAction F B) (AckLedger F k) where
  step T T' h hs := by
    have hplace := h.place.step (steady_inPlace F _) hs
    cases hs with
    | pass mem hlt hc =>
      exact h.leave hlt (Tape.pass_out T mem) rfl (Tape.pass_rxNext T mem) (Tape.pass_cell T mem)
        (fun _ => earlyPure_passActions)
        fun m h0 => (h.place _ le_rfl hlt.le).touched_passActions hc mem h0
    | drop hlt hc =>
      refine h.leave hlt rfl rfl rfl rfl (fun _ => earlyPure_free) fun m h0 => ?_
      have hhead : T.head.InPlace F := h.place _ le_rfl hlt.le
      rw [hhead.touched_frees (fun hc' => absurd hc' hc) h0, waiting_of_ne hc]
      rfl
    | @touch p n hb hn hsame hlost =>
      have hset : (T.setCell p n).cell p = n := by rw [Tape.setCell_cell, if_pos rfl]
      have hwrite : AckLedger F k ((T.setCell p n).emit []) := by
        refine h.write hb hn (hset ▸ hplace p hb hn) (fun _ ha => absurd ha List.not_mem_nil)
          fun m _ _ => ?_
        rw [waiting_same hsame, touched_nil]
        omega
      rwa [Tape.emit_nil] at hwrite
    | other has =>
      refine h.emit (fun a ha => sideAction_earlyPure (has a ha)) fun m _ hF => ?_
      rw [touched_of_none fun a ha => sideAction_touches hF (has a ha), Nat.add_zero]
    | _ => exact ⟨⟨h.window.le, h.window.size⟩, hplace, h.log, h.balance⟩
  grow T h hlt := by
    refine ⟨⟨h.window.le.trans (Nat.le_succ _), hlt⟩, h.place.grow fun _ => inPlace_wiped F, h.log,
      fun m h0 hF => ?_⟩
    have hle := h.window.le
    have hold : total (fun n => n.waiting.count m) T.grow.cell T.rxBegin (T.rxNext + 1) =
        T.waiting m :=
      total_congr fun x _ hx => by rw [Tape.grow_cell_of_le T (by omega)]
    rw [Tape.waiting, Tape.grow_rxBegin, Tape.grow_rxNext, total_push (by omega), hold,
      Tape.grow_cell_next]
    exact h.balance m h0 hF

/-- A buffer is freed as soon as it arrives. -/
theorem refuse (h : AckLedger F k T) (m₀ : Msg) :
    AckLedger F (fun m => k m + [m₀].count m) (T.refuse m₀) := by
  refine h.emit (fun a ha => ?_) fun m _ _ => ?_
  · rw [List.mem_singleton.mp ha]
    trivial
  · rw [touched_singleton Iff.rfl]

/-- A packet is stored that its slot does not know. -/
theorem put (h : AckLedger F k T) (hb : T.rxBegin ≤ p) (hn : p ≤ T.rxNext)
    (hfrag : node.fragment = node.msgPtr.header.fragment) (hF : ¬ F node.msgPtr.addr)
    (hdup : ¬ (T.cell p).Duplicate node) :
    AckLedger F (fun m => k m + [node.msgPtr].count m) (T.put p node time) := by
  show AckLedger F _ ((T.setCell p _).emit [.access (.frag node.fragIndex)])
  refine h.write hb hn ((h.place p hb hn).put time hfrag hF) (fun a ha => ?_) fun m h0 _ => ?_
  · rw [List.mem_singleton.mp ha]
    trivial
  · have hnone : touched m [.access (.frag node.fragIndex)] = 0 := rfl
    have hc : (T.cell p).status ≠ .receiveComplete := fun hc => hdup (.inr hc)
    rw [count_waiting_put _ time h0 hfrag, waiting_of_ne hc, List.count_nil, hnone]
    omega

/-- An acknowledgement is handed over ahead of order. -/
theorem early {m₀ : Msg} (h : AckLedger F k T) (hb : T.rxBegin ≤ p) (hn : p < T.rxNext)
    (hc : (T.cell p).status = .receiveComplete) (hf : (T.cell p).flag = .unChecked)
    (hm : (T.cell p).msgPtr 0 = some m₀) (hack : (T.cell p).LooksPureAck m₀)
    (h0 : (T.cell p).fragment = 0) (h4 : m₀.byte (T.cell p).mpdHeadLen / 16 = 4) :
    AckLedger F k (T.early p) := by
  obtain ⟨hpart, hbit, hwhole⟩ := h.place p hb hn.le
  obtain ⟨m', hm', hfrag, hF⟩ := hwhole hc h0
  obtain rfl := Option.some.inj (hm.symm.trans hm')
  obtain ⟨hproto, hlen⟩ := hack
  refine h.write hb hn.le ⟨hpart, hbit, hwhole⟩ (fun a ha => ?_) fun m _ _ => ?_
  · rw [RxDataWinNode.postHead, hm] at ha
    rw [List.mem_singleton.mp ha]
    refine ⟨⟨hfrag, h4, hproto, ?_⟩, hF⟩
    omega
  · have hpost : touched m ((T.cell p).postHead .early) = [m₀].count m := by
      rw [RxDataWinNode.postHead, hm]
      exact touched_singleton Iff.rfl
    have hafter : ({ T.cell p with flag := .sended } : RxDataWinNode).waiting = [] :=
      if_neg fun hw => hw.2.2 rfl
    have hbefore : (T.cell p).waiting = [m₀] := by
      rw [RxDataWinNode.waiting, if_pos ⟨hc, h0, by simp [hf]⟩, hm]
      rfl
    rw [hpost, hafter, hbefore, List.count_nil, Nat.zero_add]

/-- **A packet arrives.** What the slot still holds that an empty window is moved to does not
matter, as long as each packet there is where it belongs. -/
theorem arrives {m₀ : Msg} {t : ℕ} {stale : RxDataWinNode} (h : AckLedger F k T)
    (hblank : (T.cell T.rxNext).Blank) (hF : ¬ F m₀.addr) (hstale : stale.InPlace F)
    (hs : Tape.Arrives (SideAction F B) m₀.node stale t T T') :
    AckLedger F (fun m => k m + [m₀].count m) T' := by
  cases hs with
  | late d hc hd hd' hdsn =>
    have hpost : AckLedger F (fun m => k m + [m₀].count m)
        (T.emit [.post .outOfWindow m₀.node.dsn m₀ m₀.node.msgLen m₀.node.mpdHeadLen]) := by
      refine h.emit (fun a ha => ?_) fun m _ _ => by rw [touched_singleton Iff.rfl]
      rw [List.mem_singleton.mp ha]
      trivial
    exact ⟨⟨hpost.window.le, hpost.window.size⟩, hpost.place, hpost.log, hpost.balance⟩
  | refuse => exact h.refuse m₀
  | @store p time hb hn hp hdup => exact h.put hb hn.le rfl hF hdup
  | @extend T₁ _ time hc hT hle hfar hp hblank₁ hT' hnext =>
    have h₁ := keeps.widens h hT
    have hdup : ¬ (T₁.cell T₁.rxNext).Duplicate m₀.node := by
      simp [RxDataWinNode.Duplicate, hblank₁.status]
    exact keeps.widens (h₁.put h₁.window.le le_rfl rfl hF hdup) hT'
  | @anchor time hc ht =>
    have hslot : ((T.anchor t m₀.node stale).put t m₀.node time).cell t =
        ({ stale with dsn := m₀.node.dsn, flag := .unChecked } : RxDataWinNode).put m₀.node time := by
      rw [Tape.put_cell, if_pos rfl, Tape.anchor, Tape.setCell]
      dsimp only
      rw [Function.update_self]
    have hput : AckLedger F (fun m => k m + [m₀].count m)
        ((T.anchor t m₀.node stale).put t m₀.node time) := by
      refine ⟨⟨le_rfl, by show t < t + 4096; omega⟩, fun p hp hpn => ?_, fun a ha => ?_,
        fun m h0 hFm => ?_⟩
      · obtain rfl : p = t := Nat.le_antisymm hpn hp
        rw [hslot]
        exact InPlace.put ⟨hstale.part, hstale.bit, hstale.whole⟩ time rfl hF
      · refine (List.mem_append.mp ha).elim (h.log a) fun ha => ?_
        rw [List.mem_singleton.mp ha]
        trivial
      · -- nothing waits in an empty window
        have hbalance := h.balance m h0 hFm
        have hun : (T.cell T.rxNext).status ≠ .receiveComplete := by simp [hblank.status]
        rw [Tape.waiting, hc.1, total_single, waiting_of_ne hun, List.count_nil,
          Nat.zero_add] at hbalance
        have hwaiting : ((T.anchor t m₀.node stale).put t m₀.node time).waiting m =
            [m₀].count m := by
          rw [Tape.waiting]
          show total _ _ t (t + 1) = _
          rw [total_single, hslot]
          exact count_waiting_put _ time h0 rfl
        have hout : touched m ((T.anchor t m₀.node stale).put t m₀.node time).out = k m := by
          show touched m (T.out ++ [.access (.frag m₀.node.fragIndex)]) = k m
          rw [touched_append, hbalance]
          rfl
        rw [hwaiting, hout, Nat.add_comm]
    exact (keeps (B := B)).grow _ hput (by show t + 1 < t + 4096; omega)

end AckLedger

/-! ### Runs -/

/-- What every step has to meet: the environment hands every buffer in once, and what `MPD_CheckAck`
takes for pure acknowledgements are unfragmented packets of IP version 4. -/
structure KeepsAcks (F : ℕ → Prop) (past : List Op) (u : UserInfo) (op : Op) : Prop where
  own : OwnBuffers F past u op
  check : op = .checkAck → u.ChecksAcks

section Run

variable {F : ℕ → Prop} {B : Access → Prop} {T T' : Tape} {u : UserInfo} {ops : List Op}

/-- What is asked of a slot that is looked at. -/
def Tape.AcksPlain (_ : ℕ) (n : RxDataWinNode) : Prop :=
  n.status = .receiveComplete → n.flag = .unChecked → ∀ m, n.msgPtr 0 = some m →
    n.LooksPureAck m → n.fragment = 0 ∧ m.byte n.mpdHeadLen / 16 = 4

theorem steady_acksPlain (A : Action → Prop) : Tape.Steady A Tape.AcksPlain where
  same p n n' h hsame _ hc hf m hm hack := by
    rw [hsame.fragment, hsame.mpdHeadLen]
    refine h (hsame.status ▸ hc) (hsame.unChecked hf) m (hsame.msgPtr ▸ hm) ?_
    rwa [RxDataWinNode.LooksPureAck, hsame.mpdHeadLen] at hack
  wiped p dsn hc := by cases hc

theorem UserInfo.AtRest.acksPlain (h : UserInfo.AtRest u T) (hcheck : u.ChecksAcks)
    (hnew : u.rxDataWin.newData) : T.Cells Tape.AcksPlain := by
  intro p hb hn hc hf m hm hack
  rcases Nat.eq_or_lt_of_le hn with rfl | hlt
  · rw [h.next_blank.status] at hc
    cases hc
  · exact hcheck hnew _ (h.inWindow hb hlt) hc hf m hm hack

/-- **A step of the session.** -/
theorem AckLedger.step {op : Op} {t : ℕ} (hT : UserInfo.AtRest u T)
    (h : AckLedger F (fun m => (received ops).count m) T) (hC : KeepsAcks F ops u op)
    (hslots : AllSlots (RxDataWinNode.InPlace F) u)
    (hmoves : op.Moves (SideAction F B) u t T T') :
    AckLedger F (fun m => (received (ops ++ [op])).count m) T' := by
  simp only [received_concat, List.count_append]
  by_cases hop : ∃ m₀, op = .recv m₀
  · obtain ⟨m₀, rfl⟩ := hop
    have hF : ¬ F m₀.addr := (hC.own.new m₀ rfl).1
    exact keeps.recv keeps h (fun S hS => hS.refuse m₀)
      (fun as S has hemit _ harr => hemit.arrives hT.next_blank hF (hslots _) harr) hmoves
  · have hnone : op.received = [] := by
      cases op with
      | recv m₀ => exact absurd ⟨m₀, rfl⟩ hop
      | _ => rfl
    simp only [hnone, List.count_nil, Nat.add_zero]
    refine keeps.quiet h (fun m hm => hop ⟨m, hm⟩) (fun hcheck hnew hlook => ?_)
      (fun _ S hempty hblank hS => ?_) hmoves
    · refine keeps.looks_cells (steady_acksPlain _) (fun p n _ _ hsended => ?_)
        (fun S p m₀ hS hcells hb hn hc hf hm hack => ?_) h (hT.acksPlain (hC.check hcheck) hnew) hlook
      · cases hsended
      · obtain ⟨h0, h4⟩ := hcells p hb hn.le hc hf m₀ hm hack
        exact hS.early hb hn hc hf hm hack h0 h4
    · refine ⟨⟨le_rfl, Nat.zero_lt_succ 4095⟩,
        Tape.Cells.clear S fun _ => RxDataWinNode.inPlace_wiped F, hS.log, fun m h0 hF => ?_⟩
      have hbalance := hS.balance m h0 hF
      have hun : (S.cell S.rxNext).status ≠ .receiveComplete := by simp [hblank.status]
      rw [Tape.waiting, hempty, total_single, RxDataWinNode.waiting_of_ne hun,
        List.count_nil] at hbalance
      rw [← hbalance, Tape.waiting]
      show total _ _ 0 (0 + 1) + _ = _
      rw [total_single]
      rfl

/-- **Early posting is for pure acknowledgements.** After every run whose steps meet `KeepsAcks`,
each packet that was posted ahead of order is an unfragmented TCP acknowledgement of IP version 4
without data, and its buffer was not posted, copied from or freed since. -/
theorem earlyAck_run (F : ℕ → Prop) (u₀ : UserInfo) {u : UserInfo} {ops : List Op}
    (h : Guarded Op.step (KeepsAcks F) u₀.cleared ops u) : EarlyAcks u.out := by
  obtain ⟨hnodup, -⟩ := received_distinct (fun _ _ _ hC => hC.own) h
  have hslots := (RxDataWinNode.slotInv_inPlace F).guarded
    (fun past u m hC => ⟨rfl, (hC.own.new m rfl).1⟩)
    (fun past u flowId data length hC => hC.own.send flowId data length rfl) h
  obtain ⟨T, hT, hledger⟩ := UserInfo.guarded_tape (F := F) (B := fun _ => True)
    (I := fun ops T => AckLedger F (fun m => (received ops).count m) T)
    (fun _ _ => Op.label fun m => m.header.dsn) (fun _ u op hC => Op.fits_of_send hC.1.own.send)
    (fun _ _ m _ _ _ => Nat.mod_eq_of_lt (m.word_lt 2))
    (fun _ _ _ _ _ _ hT _ hI hC hmoves => hI.step hT hC.1 hC.2 hmoves)
    (fun valid => ⟨Tape.blank_window valid, fun p _ _ => RxDataWinNode.inPlace_wiped F 0,
      fun _ ha => absurd ha List.not_mem_nil, fun _ _ _ => rfl⟩) hslots
  rw [← hT.out]
  refine ⟨fun dsn m len ipHead hmem => (hledger.log _ hmem).1,
    fun before dsn m len ipHead after hout => ?_⟩
  obtain ⟨hpure, hF⟩ := hledger.log (.post .early dsn m len ipHead) (by rw [hout]; simp)
  have hbalance := hledger.balance m hpure.fragment hF
  have honce : (received ops).count m ≤ 1 := List.nodup_iff_count_le_one.mp hnodup m
  have hself : (Action.post .early dsn m len ipHead).Touches m := rfl
  rw [hout, touched_append, touched_cons, if_pos hself] at hbalance
  exact not_touches_of_touched (by omega)

end Run

/-! ### What is looked at -/

instance Tape.instDecidableAcksPlain (p : ℕ) (n : RxDataWinNode) : Decidable (Tape.AcksPlain p n) :=
  match h : n.msgPtr 0 with
  | none => isTrue fun _ _ m hm => absurd (h.symm.trans hm) (by simp)
  | some m => decidable_of_iff (n.status = .receiveComplete → n.flag = .unChecked →
      n.LooksPureAck m → n.fragment = 0 ∧ m.byte n.mpdHeadLen / 16 = 4) (by
        constructor
        · intro hn hc hf m' hm' hack
          obtain rfl := Option.some.inj (h.symm.trans hm')
          exact hn hc hf hack
        · exact fun hn hc hf hack => hn hc hf m h hack)

theorem UserInfo.checksAcks_iff (u : UserInfo) : u.ChecksAcks ↔ (u.rxDataWin.newData →
    ∀ k < u.nodeCnt, Tape.AcksPlain k (u.rxDataWin.win ((u.rxDataWin.rxBegin + k) % 4096))) := by
  refine forall_congr' fun _ => ⟨fun h k hk => h _ ⟨k, hk, rfl⟩, ?_⟩
  rintro h n ⟨k, hk, rfl⟩
  exact h k hk

instance (u : UserInfo) : Decidable u.ChecksAcks := decidable_of_iff _ u.checksAcks_iff.symm

/-- A TCP acknowledgement without data, IP header and TCP header of 20 bytes each. -/
def ackBytes : List UInt8 :=
  [0x45, 0, 0, 40, 0, 0, 0, 0, 64, 6, 0, 0, 10, 0, 0, 1, 10, 0, 0, 2] ++
    [0, 80, 0, 81, 0, 0, 0, 1, 0, 0, 0, 2, 0x50, 0x10, 0, 0, 0, 0, 0, 0]

/-- A packet of IP version 6, from fd06::1. -/
def ipv6Bytes : List UInt8 :=
  [0x60, 0, 0, 0, 0, 4, 17, 64] ++ [0xfd, 6, 0, 0, 0, 0, 0, 0, 0, 0, 0, 0, 0, 0, 0, 1] ++
    [0xfd, 6, 0, 0, 0, 0, 0, 0, 0, 0, 0, 0, 0, 0, 0, 2] ++ [1, 2, 3, 4]

/-- A buffer that arrives and was not there before. -/
theorem ownBuffers_recv {F : ℕ → Prop} {past : List Op} {u : UserInfo} {m : Msg} (hF : ¬ F m.addr)
    (hpast : .recv m ∉ past) : OwnBuffers F past u (.recv m) where
  new m' hm' := by
    cases hm'
    exact ⟨hF, hpast⟩
  send flowId data length hop := by cases hop

theorem ownBuffers_checkAck {F : ℕ → Prop} {past : List Op} {u : UserInfo} :
    OwnBuffers F past u .checkAck where
  new m hm := by cases hm
  send flowId data length hop := by cases hop

/-- An acknowledgement that has to wait for the second fragment of the packet before it is posted
ahead of order, and passed over when its turn comes. -/
theorem earlyAck_run_ack : ∃ u, run Op.step [.recv (.packet 0 1 0 0 0 [0]),
      .recv (.packet 1 0 0 1 1 ackBytes), .checkAck, .recv (.packet 2 2 0 0 2 [0])]
      UserInfo.ready.cleared = some u ∧
    (.post .early 1 (.packet 1 0 0 1 1 ackBytes) 52 12 ∈ u.out ∧ u.rxDataWin.rxBegin = 2) ∧
    EarlyAcks u.out := by
  have hrun : (run Op.step [.recv (.packet 0 1 0 0 0 [0]), .recv (.packet 1 0 0 1 1 ackBytes),
      .checkAck, .recv (.packet 2 2 0 0 2 [0])] UserInfo.ready.cleared).map (fun u =>
        decide (.post .early 1 (.packet 1 0 0 1 1 ackBytes) 52 12 ∈ u.out ∧
          u.rxDataWin.rxBegin = 2)) = some true := by
    decide +kernel
  have hcheck : (run Op.step [.recv (.packet 0 1 0 0 0 [0]), .recv (.packet 1 0 0 1 1 ackBytes)]
      UserInfo.ready.cleared).map (fun u => decide u.ChecksAcks) = some true := by
    decide +kernel
  obtain ⟨u, hu, hposted⟩ := Option.map_eq_some_iff.mp hrun
  refine ⟨u, hu, of_decide_eq_true hposted,
    earlyAck_run (100 ≤ ·) UserInfo.ready (Meets.guarded ?_ hu)⟩
  refine ⟨⟨ownBuffers_recv (by decide) (by decide), nofun⟩, fun u₁ hu₁ =>
    ⟨⟨ownBuffers_recv (by decide) (by decide), nofun⟩, fun u₂ hu₂ =>
      ⟨⟨ownBuffers_checkAck, fun _ => ?_⟩, fun u₃ hu₃ =>
        ⟨⟨ownBuffers_recv (by decide) (by decide), nofun⟩, fun _ _ => trivial⟩⟩⟩⟩
  rw [run, hu₁, Option.bind_some, run, hu₂, Option.bind_some, run_nil, Option.map_some,
    Option.some.injEq] at hcheck
  exact of_decide_eq_true hcheck

/-- **What is posted ahead of order by mistake**: the first of two fragments, which is freed when
its turn comes, and a packet of IP version 6. -/
theorem earlyAck_mistaken :
    (∃ u, Guarded Op.step (OwnBuffers (100 ≤ ·)) UserInfo.ready.cleared
      [.recv (.packet 0 1 0 0 0 [0]), .recv (.packet 1 1 0 1 1 ackBytes),
        .recv (.packet 2 2 0 1 2 [1]), .recv (.packet 3 0 0 2 3 [2]), .checkAck,
        .recv (.packet 4 2 0 0 4 [3])] u ∧
      (.post .early 1 (.packet 1 1 0 1 1 ackBytes) 52 12 ∈ u.out ∧
        .free (.packet 1 1 0 1 1 ackBytes) ∈ u.out) ∧ ¬ EarlyAcks u.out) ∧
    ∃ u, Guarded Op.step (OwnBuffers (100 ≤ ·)) UserInfo.ready.cleared
      [.recv (.packet 0 1 0 0 0 [0]), .recv (.packet 1 0 0 1 1 ipv6Bytes), .checkAck] u ∧
      .post .early 1 (.packet 1 0 0 1 1 ipv6Bytes) 56 12 ∈ u.out ∧ ¬ EarlyAcks u.out := by
  constructor
  · have hrun : (run Op.step [.recv (.packet 0 1 0 0 0 [0]), .recv (.packet 1 1 0 1 1 ackBytes),
        .recv (.packet 2 2 0 1 2 [1]), .recv (.packet 3 0 0 2 3 [2]), .checkAck,
        .recv (.packet 4 2 0 0 4 [3])] UserInfo.ready.cleared).map (fun u =>
          decide (.post .early 1 (.packet 1 1 0 1 1 ackBytes) 52 12 ∈ u.out ∧
            .free (.packet 1 1 0 1 1 ackBytes) ∈ u.out)) = some true := by
      decide +kernel
    obtain ⟨u, hu, hposted⟩ := Option.map_eq_some_iff.mp hrun
    have hmem := of_decide_eq_true hposted
    refine ⟨u, Meets.guarded ?_ hu, hmem, fun h => ?_⟩
    · exact ⟨ownBuffers_recv (by decide) (by decide), fun _ _ =>
        ⟨ownBuffers_recv (by decide) (by decide), fun _ _ =>
          ⟨ownBuffers_recv (by decide) (by decide), fun _ _ =>
            ⟨ownBuffers_recv (by decide) (by decide), fun _ _ =>
              ⟨ownBuffers_checkAck, fun _ _ =>
                ⟨ownBuffers_recv (by decide) (by decide), fun _ _ => trivial⟩⟩⟩⟩⟩⟩
    · have hfrag := (h.pure _ _ _ _ hmem.1).fragment
      rw [Msg.header_packet] at hfrag
      exact absurd hfrag (by decide)
  · have hrun : (run Op.step [.recv (.packet 0 1 0 0 0 [0]), .recv (.packet 1 0 0 1 1 ipv6Bytes),
        .checkAck] UserInfo.ready.cleared).map (fun u =>
          decide (.post .early 1 (.packet 1 0 0 1 1 ipv6Bytes) 56 12 ∈ u.out)) = some true := by
      decide +kernel
    obtain ⟨u, hu, hposted⟩ := Option.map_eq_some_iff.mp hrun
    have hmem := of_decide_eq_true hposted
    refine ⟨u, Meets.guarded ?_ hu, hmem, fun h => ?_⟩
    · exact ⟨ownBuffers_recv (by decide) (by decide), fun _ _ =>
        ⟨ownBuffers_recv (by decide) (by decide), fun _ _ =>
          ⟨ownBuffers_checkAck, fun _ _ => trivial⟩⟩⟩
    · have hversion := (h.pure _ _ _ _ hmem).version
      exact absurd hversion (by decide)

end Mpd

end AndroidVendor
