import AndroidVendor.Mpd.Slots

/-!
# Ownership of received buffers

A ledger over whole runs. A buffer that was received is in one of three places: a slot of the window
refers to it, the transport has it, or it was freed. Every step moves buffers between these places
and none gets lost, with the exceptions that `KeepsBuffers` names.

## Main results

* `ownership_run` — every received buffer is in exactly one place
* `ownership_lost` — a fragment whose slot an unfragmented packet takes is in none
-/

namespace AndroidVendor

namespace Mpd

open Loop Machine Relation SerialRing

/-- The received buffers that the transport is given with this, and will free. -/
def Action.handed : Action → List Msg
  | .post _ _ m _ _ => [m]
  | _ => []

/-- The buffers that are freed with this. -/
def Action.freed : Action → List Msg
  | .free m => [m]
  | .freeResend m _ => [m]
  | _ => []

/-- The buffers the transport has been given. -/
def handed (out : List Action) : List Msg := out.flatMap Action.handed

/-- The buffers that have been freed. -/
def freed (out : List Action) : List Msg := out.flatMap Action.freed

/-- How often buffer `m` has left the window, either way. -/
def settled (m : Msg) (out : List Action) : ℕ := (handed out).count m + (freed out).count m

/-- The buffers a slot is in charge of: those it would free, unless it was handed over already. -/
def RxDataWinNode.owned (n : RxDataWinNode) : List Msg :=
  if n.flag = .sended then [] else n.freePtrs

/-- How often the slots of the window refer to buffer `m`. -/
def UserInfo.held (u : UserInfo) (m : Msg) : ℕ :=
  ∑ k ∈ Finset.range u.nodeCnt,
    (u.rxDataWin.win ((u.rxDataWin.rxBegin + k) % 4096)).owned.count m

section Settled

variable {m : Msg} {out as : List Action}

@[simp] theorem settled_nil (m : Msg) : settled m [] = 0 := rfl

@[simp] theorem settled_append : settled m (out ++ as) = settled m out + settled m as := by
  simp only [settled, handed, freed, List.flatMap_append, List.count_append]
  omega

@[simp] theorem settled_free (ms : List Msg) : settled m (ms.map .free) = ms.count m := by
  induction ms with
  | nil => rfl
  | cons m' ms ih =>
    rw [List.map_cons, ← List.singleton_append, settled_append, ih, ← List.singleton_append (l := ms),
      List.count_append]
    simp [settled, handed, freed, Action.handed, Action.freed]

theorem settled_of_none (h : ∀ a ∈ as, m ∉ a.handed ∧ m ∉ a.freed) : settled m as = 0 := by
  simp only [settled, handed, freed, Nat.add_eq_zero_iff, List.count_eq_zero, List.mem_flatMap,
    not_exists, not_and]
  exact ⟨fun a ha => (h a ha).1, fun a ha => (h a ha).2⟩

/-- What the session does beside the receive side does not concern a buffer that is not among those
of the transmit side. -/
theorem sideAction_settled {F : ℕ → Prop} {B : Access → Prop} {a : Action} (hm : ¬ F m.addr)
    (h : SideAction F B a) : m ∉ a.handed ∧ m ∉ a.freed := by
  cases a with
  | post => exact h.elim
  | postMerged => exact h.elim
  | free m' =>
    refine ⟨List.not_mem_nil, fun hmem => hm ?_⟩
    rw [List.mem_singleton.mp hmem]
    exact h
  | freeResend m' flowId =>
    refine ⟨List.not_mem_nil, fun hmem => hm ?_⟩
    rw [List.mem_singleton.mp hmem]
    exact h
  | _ => exact ⟨List.not_mem_nil, List.not_mem_nil⟩

end Settled

/-! ### One slot -/

/-- A slot is marked as handed over only if it has an unfragmented packet. -/
def Marked (_ : ℕ) (n : RxDataWinNode) : Prop :=
  n.flag = .sended → n.status = .receiveComplete ∧ n.fragment = 0

theorem steady_marked (A : Action → Prop) : Tape.Steady A Marked where
  same p n n' h hsame _ hf := by
    rw [hsame.status, hsame.fragment]
    exact h (hsame.sended.mp hf)
  wiped p dsn hf := by cases hf

namespace RxDataWinNode

variable {n n' : RxDataWinNode} {node : MPDNodeInfo} {p : ℕ} {m : Msg}
  {Q : ℕ → MPDNodeInfo → Prop}

@[simp] theorem owned_wiped (dsn : ℕ) : ({ dsn := dsn } : RxDataWinNode).owned = [] := rfl

theorem owned_of_unReceived (h : n.status = .unReceived) : n.owned = [] := by
  rw [owned, freePtrs, if_pos h, ite_self]

theorem owned_same (h : n.Same n') : n'.owned = n.owned := by
  simp only [owned, freePtrs, h.status, h.fragment, h.msgPtr, h.sended]

theorem freePtrs_of_fragment (hst : n.status ≠ .unReceived) :
    (n.fragment = 0 → n.freePtrs = (n.msgPtr 0).toList) ∧
      (n.fragment = 1 → n.freePtrs = (n.msgPtr 0).toList) ∧
      (n.fragment = 2 → n.freePtrs = (n.msgPtr 1).toList) ∧
      (n.fragment = 3 → n.freePtrs = (n.msgPtr 0).toList ++ (n.msgPtr 1).toList) := by
  have hone : Nat.testBit 1 0 = true ∧ Nat.testBit 1 1 = false := by decide
  have htwo : Nat.testBit 2 0 = false ∧ Nat.testBit 2 1 = true := by decide
  have hthree : Nat.testBit 3 0 = true ∧ Nat.testBit 3 1 = true := by decide
  refine ⟨fun h => ?_, fun h => ?_, fun h => ?_, fun h => ?_⟩
  · rw [freePtrs, if_neg hst, if_pos h]
  · rw [freePtrs, if_neg hst, if_neg (by omega), h]
    simp [List.range_succ, hone]
  · rw [freePtrs, if_neg hst, if_neg (by omega), h]
    simp [List.range_succ, htwo]
  · rw [freePtrs, if_neg hst, if_neg (by omega), h]
    simp [List.range_succ, hthree]

/-- A packet that has its slot to itself is all the slot is in charge of. -/
theorem owned_put_alone (n : RxDataWinNode) (time : ℕ) (hf : node.fragment < 3)
    (hn : node.fragment ≠ 0 → n.fragment = 0 ∨ n.fragment = node.fragment) :
    (n.put node time).owned = [node.msgPtr] := by
  have hfrag : (n.put node time).fragment = node.fragment := put_fragment_alone hf hn
  have hself : (n.put node time).msgPtr node.fragIndex = some node.msgPtr := put_msgPtr_self
  obtain ⟨hzero, hone, htwo, -⟩ := freePtrs_of_fragment (n := n.put node time) put_status_ne
  rw [owned, put_flag, if_neg (by decide)]
  rw [MPDNodeInfo.fragIndex] at hself
  have : node.fragment = 0 ∨ node.fragment = 1 ∨ node.fragment = 2 := by omega
  rcases this with h | h | h
  · rw [hzero (hfrag.trans h)]
    rw [if_pos h] at hself
    rw [hself]
    rfl
  · rw [hone (hfrag.trans h)]
    rw [h, if_neg (by decide)] at hself
    rw [hself]
    rfl
  · rw [htwo (hfrag.trans h)]
    rw [h, if_neg (by decide)] at hself
    rw [hself]
    rfl

/-- A fragment that joins the other one comes on top of it. -/
theorem count_owned_put_join (h : Filed Q p n) (hmark : Marked p n) (time : ℕ)
    (h0 : node.fragment ≠ 0) (hf : node.fragment < 3) (hst : n.status = .received)
    (hn : n.fragment ≠ node.fragment) (m : Msg) :
    (n.put node time).owned.count m = n.owned.count m + [node.msgPtr].count m := by
  have hpart := h.part hst
  have hun : n.status ≠ .unReceived := by simp [hst]
  have hflag : n.flag ≠ .sended := fun hs => by
    rw [(hmark hs).1] at hst
    cases hst
  have hfrag : (n.put node time).fragment = 3 := put_fragment_join h0 hf hpart hn
  obtain ⟨-, -, -, hthree⟩ := freePtrs_of_fragment (n := n.put node time) put_status_ne
  obtain ⟨-, hone, htwo, -⟩ := freePtrs_of_fragment hun
  have hself : (n.put node time).msgPtr node.fragIndex = some node.msgPtr := put_msgPtr_self
  rw [owned, put_flag, if_neg (by decide), hthree hfrag, owned, if_neg hflag, List.count_append]
  rw [MPDNodeInfo.fragIndex, if_neg h0] at hself
  have : node.fragment = 1 ∨ node.fragment = 2 := by omega
  rcases this with h1 | h2
  · have hother : (n.put node time).msgPtr 1 = n.msgPtr 1 :=
      put_msgPtr_of_ne (by rw [MPDNodeInfo.fragIndex, if_neg h0, h1]; decide)
    rw [h1] at hself
    rw [hself, hother, htwo (by omega)]
    exact Nat.add_comm _ _
  · have hother : (n.put node time).msgPtr 0 = n.msgPtr 0 :=
      put_msgPtr_of_ne (by rw [MPDNodeInfo.fragIndex, if_neg h0, h2]; decide)
    rw [h2] at hself
    rw [hself, hother, hone (by omega)]
    rfl

/-- **A packet is stored** that the slot does not know, and that does not take the place of a
fragment. -/
theorem count_owned_put (h : Filed Q p n) (hmark : Marked p n) (time : ℕ)
    (hdup : ¬ n.Duplicate node) (hf : node.fragment < 3)
    (hwhole : n.status = .received → node.fragment ≠ 0) (m : Msg) :
    (n.put node time).owned.count m = n.owned.count m + [node.msgPtr].count m := by
  rw [Duplicate, not_or, not_and, not_not] at hdup
  cases hst : n.status with
  | unReceived =>
    rw [owned_put_alone n time hf fun _ => .inl (h.idle hst), owned_of_unReceived hst]
    simp
  | received =>
    refine count_owned_put_join h hmark time (hwhole hst) hf hst (fun heq => ?_) m
    have hbit := hdup.1 hst
    rw [heq, Nat.and_self] at hbit
    exact hwhole hst hbit
  | receiveComplete => exact absurd hst hdup.2

/-- **A complete slot leaves.** It settles what it is in charge of. -/
theorem settled_passActions (h : Filed Q p n) (hmark : Marked p n)
    (hc : n.status = .receiveComplete) (mem : Option ℕ) (m : Msg) :
    settled m (n.passActions mem) = n.owned.count m := by
  have hun : n.status ≠ .unReceived := by simp [hc]
  obtain ⟨hzero, -, -, hthree⟩ := freePtrs_of_fragment hun
  rcases h.passActions hc mem with ⟨hf, m₀, hm₀, -, heq⟩ | ⟨hf, first, second, h₀, h₁, -, -, heq⟩
  · rw [heq, owned, hzero hf, hm₀]
    by_cases hs : n.flag = .sended
    · rw [if_neg (not_not.mpr hs), if_pos hs]
      rfl
    · rw [if_pos hs, if_neg hs, settled_append]
      simp [settled, handed, freed, Action.handed, Action.freed]
  · have hs : n.flag ≠ .sended := fun hs => by
      rw [(hmark hs).2] at hf
      cases hf
    have hfree : settled m [.free first, .free second] = [first, second].count m :=
      settled_free [first, second]
    rw [heq, owned, if_neg hs, hthree hf, h₀, h₁, settled_append, settled_append, settled_append,
      hfree]
    have hsubs : settled m n.mergeSubs = 0 := rfl
    have hmerged : settled m (mem.toList.map fun addr => .postMerged n.dsn first second
        (n.merge first second addr) n.mergedLen n.mpdHeadLen) = 0 := by
      cases mem <;> rfl
    have hflow : settled m [.access (.flow n.stream)] = 0 := rfl
    simp only [hsubs, hmerged, hflow, Nat.zero_add]
    rfl

end RxDataWinNode

/-! ### The ledger -/

/-- How often the slots of the tape refer to buffer `m`, the one the next packet will take
included. -/
def Tape.held (T : Tape) (m : Msg) : ℕ :=
  total (fun n => n.owned.count m) T.cell T.rxBegin (T.rxNext + 1)

/-- Buffer `m` was received `k` times, and each of them is accounted for. -/
structure LedgerAt (m : Msg) (k : ℕ) (T : Tape) : Prop where
  window : T.Window
  filed : T.Cells (Filed fun _ _ => True)
  marked : T.Cells Marked
  balance : T.held m + settled m T.out = k

namespace LedgerAt

variable {m : Msg} {k p time : ℕ} {T T' : Tape} {A : Action → Prop} {node : MPDNodeInfo}

/-- The log grows by what does not concern the buffer. -/
theorem emit {as : List Action} (h : LedgerAt m k T) (has : settled m as = 0) :
    LedgerAt m k (T.emit as) where
  window := ⟨h.window.le, h.window.size⟩
  filed := h.filed
  marked := h.marked
  balance := by
    rw [Tape.emit, settled_append, has, Nat.add_zero]
    exact h.balance

/-- The slot at the front leaves, and its buffers are settled. -/
theorem leave {as : List Action} (h : LedgerAt m k T) (hlt : T.rxBegin < T.rxNext)
    (hout : T'.out = T.out ++ as) (hb : T'.rxBegin = T.rxBegin + 1) (hn : T'.rxNext = T.rxNext)
    (hcell : T'.cell = T.cell) (has : settled m as = T.head.owned.count m) : LedgerAt m k T' := by
  have hw := h.window
  refine ⟨⟨by omega, by have := hw.size; omega⟩, fun p hp hpn => ?_, fun p hp hpn => ?_, ?_⟩
  · rw [hcell]
    exact h.filed p (by omega) (by omega)
  · rw [hcell]
    exact h.marked p (by omega) (by omega)
  · have hbalance := h.balance
    rw [Tape.held, total_pop (by omega)] at hbalance
    rw [Tape.held, hcell, hb, hn, hout, settled_append, has, Tape.head]
    omega

/-- One slot is written. -/
theorem write {n : RxDataWinNode} {as : List Action} {k' : ℕ} (h : LedgerAt m k T)
    (hb : T.rxBegin ≤ p) (hn : p ≤ T.rxNext) (hfiled : Filed (fun _ _ => True) p n)
    (hmark : Marked p n)
    (hcount : n.owned.count m + settled m as + k = (T.cell p).owned.count m + k') :
    LedgerAt m k' ((T.setCell p n).emit as) := by
  refine ⟨⟨h.window.le, h.window.size⟩, fun q hq hqn => ?_, fun q hq hqn => ?_, ?_⟩
  · simp only [Tape.emit, Tape.setCell_cell]
    split
    · next heq => exact heq ▸ hfiled
    · exact h.filed q hq hqn
  · simp only [Tape.emit, Tape.setCell_cell]
    split
    · next heq => exact heq ▸ hmark
    · exact h.marked q hq hqn
  · have hbalance := h.balance
    have hupdate : total (fun n : RxDataWinNode => n.owned.count m)
        (Function.update T.cell p n) T.rxBegin (T.rxNext + 1) + (T.cell p).owned.count m =
          total (fun n => n.owned.count m) T.cell T.rxBegin (T.rxNext + 1) + n.owned.count m :=
      total_update hb (by omega) n
    rw [Tape.held] at hbalance
    simp only [Tape.held, Tape.emit, Tape.setCell, settled_append] at hupdate ⊢
    omega

theorem keeps (hA : ∀ a, A a → m ∉ a.handed ∧ m ∉ a.freed) : Tape.Keeps A (LedgerAt m k) where
  step T T' h hs := by
    have hfiled := h.filed.step (Filed.steady fun _ _ _ h => h) hs
    have hmarked := h.marked.step (steady_marked A) hs
    cases hs with
    | pass mem hlt hc =>
      refine h.leave hlt (Tape.pass_out T mem) rfl (Tape.pass_rxNext T mem) (Tape.pass_cell T mem) ?_
      exact RxDataWinNode.settled_passActions (h.filed _ le_rfl hlt.le) (h.marked _ le_rfl hlt.le) hc
        mem m
    | drop hlt hc =>
      refine h.leave hlt rfl rfl rfl rfl ?_
      have hflag : T.head.flag ≠ .sended := fun hs => hc (h.marked _ le_rfl hlt.le hs).1
      rw [settled_free, RxDataWinNode.owned, if_neg hflag]
    | @touch p n hb hn hsame hlost =>
      have hset : (T.setCell p n).cell p = n := by rw [Tape.setCell_cell, if_pos rfl]
      have hwrite : LedgerAt m k ((T.setCell p n).emit []) := by
        refine h.write hb hn (hset ▸ hfiled p hb hn) (hset ▸ hmarked p hb hn) ?_
        rw [RxDataWinNode.owned_same hsame, settled_nil]
        omega
      rwa [Tape.emit_nil] at hwrite
    | other has => exact h.emit (settled_of_none fun a ha => hA a (has a ha))
    | _ => exact ⟨⟨h.window.le, h.window.size⟩, hfiled, hmarked, h.balance⟩
  grow T h hlt := by
    refine ⟨⟨h.window.le.trans (Nat.le_succ _), hlt⟩, h.filed.grow (Filed.wiped _),
      h.marked.grow (steady_marked A).wiped, ?_⟩
    have hle := h.window.le
    have hold : total (fun n => n.owned.count m) T.grow.cell T.rxBegin (T.rxNext + 1) = T.held m :=
      total_congr fun x _ hx => by rw [Tape.grow_cell_of_le T (by omega)]
    rw [Tape.held, Tape.grow_rxBegin, Tape.grow_rxNext, total_push (by omega), hold,
      Tape.grow_cell_next, RxDataWinNode.owned_wiped]
    exact h.balance

/-- A packet that its slot does not know is stored, and does not take the place of a fragment. -/
theorem put (h : LedgerAt m k T) (hb : T.rxBegin ≤ p) (hn : p ≤ T.rxNext)
    (hf : node.fragment < 3) (hp : node.dsn = p % 65536) (hdup : ¬ (T.cell p).Duplicate node)
    (hwhole : (T.cell p).status = .received → node.fragment ≠ 0) :
    LedgerAt m (k + [node.msgPtr].count m) (T.put p node time) := by
  have hfiled := h.filed p hb hn
  have hmark := h.marked p hb hn
  show LedgerAt m _ ((T.setCell p _).emit [.access (.frag node.fragIndex)])
  refine h.write hb hn
    (hfiled.put time hdup hf hp trivial fun _ _ _ _ _ _ _ => trivial) (fun hs => by cases hs) ?_
  have hcount := RxDataWinNode.count_owned_put hfiled hmark time hdup hf hwhole m
  have hnone : settled m [.access (.frag node.fragIndex)] = 0 := rfl
  omega

/-- A packet is handed over ahead of order. -/
theorem early {m₀ : Msg} (h : LedgerAt m k T) (hb : T.rxBegin ≤ p) (hn : p < T.rxNext)
    (hc : (T.cell p).status = .receiveComplete) (hf : (T.cell p).flag = .unChecked)
    (hm : (T.cell p).msgPtr 0 = some m₀) (h0 : (T.cell p).fragment = 0) :
    LedgerAt m k (T.early p) := by
  have hun : (T.cell p).status ≠ .unReceived := by simp [hc]
  obtain ⟨hidle, hpart, hwhole, hnum, hptr⟩ := h.filed p hb hn.le
  refine h.write hb hn.le ⟨hidle, hpart, hwhole, hnum, hptr⟩ (fun _ => ⟨hc, h0⟩) ?_
  have hbefore : (T.cell p).owned = [m₀] := by
    rw [RxDataWinNode.owned, hf, if_neg (by decide),
      (RxDataWinNode.freePtrs_of_fragment hun).1 h0, hm]
    rfl
  have hafter : ({ T.cell p with flag := .sended } : RxDataWinNode).owned = [] := by
    rw [RxDataWinNode.owned, if_pos rfl]
  have hpost : settled m ((T.cell p).postHead .early) = [m₀].count m := by
    simp [RxDataWinNode.postHead, hm, settled, handed, freed, Action.handed, Action.freed]
  rw [hbefore, hafter, hpost, List.count_nil, Nat.zero_add]

/-- **A packet arrives.** -/
theorem arrives {m₀ : Msg} {t : ℕ} {stale : RxDataWinNode}
    (hA : ∀ a, A a → m ∉ a.handed ∧ m ∉ a.freed) (h : LedgerAt m k T)
    (hblank : (T.cell T.rxNext).Blank) (hf : m₀.header.fragment < 3)
    (hwhole : ∀ p, T.rxBegin ≤ p → p < T.rxNext → p % 65536 = m₀.header.dsn →
      (T.cell p).status = .received → m₀.header.fragment ≠ 0)
    (hfresh : T.LooksClear → m₀.header.fragment ≠ 0 →
      stale.fragment = 0 ∨ stale.fragment = m₀.header.fragment)
    (hs : Tape.Arrives A m₀.node stale t T T') : LedgerAt m (k + [m₀].count m) T' := by
  cases hs with
  | late d hc hd hd' hdsn =>
    refine ⟨⟨h.window.le, h.window.size⟩, h.filed, h.marked, ?_⟩
    show T.held m + settled m (T.out ++ [.post .outOfWindow _ m₀ _ _]) = _
    rw [settled_append, ← Nat.add_assoc, h.balance]
    rfl
  | refuse =>
    refine ⟨⟨h.window.le, h.window.size⟩, h.filed, h.marked, ?_⟩
    show T.held m + settled m (T.out ++ [.free m₀]) = _
    rw [settled_append, ← Nat.add_assoc, h.balance]
    exact congrArg _ (settled_free [m₀])
  | @store p time hb hn hp hdup => exact h.put hb hn.le hf hp.symm hdup (hwhole p hb hn hp)
  | @extend T₁ _ time hc hT hle hfar hp hblank₁ hT' hnext =>
    have h₁ := (keeps hA).widens h hT
    have hdup : ¬ (T₁.cell T₁.rxNext).Duplicate m₀.node := by
      simp [RxDataWinNode.Duplicate, hblank₁.status]
    have hput : LedgerAt m (k + [m₀].count m) (T₁.put T₁.rxNext m₀.node time) :=
      h₁.put h₁.window.le le_rfl hf hp.symm hdup fun hst => by
        rw [hblank₁.status] at hst
        cases hst
    exact (keeps hA).widens hput hT'
  | @anchor time hc ht =>
    have hslot : ((T.anchor t m₀.node stale).put t m₀.node time).cell t =
        ({ stale with dsn := m₀.node.dsn, flag := .unChecked } : RxDataWinNode).put m₀.node time := by
      rw [Tape.put_cell, if_pos rfl, Tape.anchor, Tape.setCell]
      dsimp only
      rw [Function.update_self]
    have hsettled : settled m T.out = k := by
      have hbalance := h.balance
      rw [Tape.held, hc.1, total_single, RxDataWinNode.owned_of_unReceived hblank.status,
        List.count_nil, Nat.zero_add] at hbalance
      exact hbalance
    have hput : LedgerAt m (k + [m₀].count m) ((T.anchor t m₀.node stale).put t m₀.node time) := by
      refine ⟨⟨le_rfl, by show t < t + 4096; omega⟩, fun p hp hpn => ?_, fun p hp hpn => ?_, ?_⟩
      · obtain rfl : p = t := Nat.le_antisymm hpn hp
        rw [hslot]
        exact Filed.put_stale _ time hf (hfresh hc) ht.symm trivial
      · obtain rfl : p = t := Nat.le_antisymm hpn hp
        rw [hslot]
        exact fun hs => by cases hs
      · have hheld : ((T.anchor t m₀.node stale).put t m₀.node time).held m = [m₀].count m := by
          rw [Tape.held]
          show total _ _ t (t + 1) = _
          rw [total_single, hslot, RxDataWinNode.owned_put_alone _ time hf (hfresh hc)]
          rfl
        have hout : settled m ((T.anchor t m₀.node stale).put t m₀.node time).out = k := by
          show settled m (T.out ++ [.access (.frag m₀.node.fragIndex)]) = k
          rw [settled_append, hsettled]
          rfl
        rw [hheld, hout, Nat.add_comm]
    exact (keeps hA).grow _ hput (by show t + 1 < t + 4096; omega)

end LedgerAt

/-! ### Runs -/

/-- The buffer that is received. -/
def Op.received : Op → List Msg
  | .recv m => [m]
  | _ => []

/-- The buffers that have been received. -/
def received (ops : List Op) : List Msg := ops.flatMap Op.received

@[simp] theorem received_concat (ops : List Op) (op : Op) :
    received (ops ++ [op]) = received ops ++ op.received := by
  simp [received]

theorem mem_received {ops : List Op} {m : Msg} : m ∈ received ops ↔ .recv m ∈ ops := by
  rw [received, List.mem_flatMap]
  constructor
  · rintro ⟨op, hop, hm⟩
    cases op with
    | recv m' => rwa [List.mem_singleton.mp hm]
    | _ => cases hm
  · exact fun h => ⟨_, h, List.mem_singleton_self m⟩

/-- The environment hands every buffer in once. `F` are the addresses the transmit side uses. -/
structure OwnBuffers (F : ℕ → Prop) (past : List Op) (u : UserInfo) (op : Op) : Prop where
  new : ∀ m, op = .recv m → ¬ F m.addr ∧ .recv m ∉ past
  send : ∀ flowId data length, op = .send flowId data length →
    F data.addr ∧ UserInfo.FreshAllocs F u

/-- What every step has to meet beside that. A packet that is taken has a fragment field below 3; an
unfragmented one does not find a fragment in its slot; a fragment that finds the window looking
clear finds no remains of the other one; and `MPD_CheckAck` does not find two fragments the first of
which looks like a pure acknowledgement. -/
structure KeepsBuffers (F : ℕ → Prop) (past : List Op) (u : UserInfo) (op : Op) : Prop where
  own : OwnBuffers F past u op
  fragment : ∀ m, op = .recv m → u.Accepts m → m.header.fragment < 3
  alone : ∀ m, op = .recv m → u.Accepts m → m.header.fragment = 0 → ∀ n, ¬ u.Meets m n
  fresh : ∀ m, op = .recv m → u.Accepts m → u.FreshSlot m
  check : op = .checkAck → u.NoEarlyFragment

section Run

variable {F : ℕ → Prop} {A : Action → Prop} {T T' : Tape} {u u₀ : UserInfo} {ops : List Op} {m : Msg}

/-- **A step of the session.** -/
theorem LedgerAt.step {op : Op} (hA : ∀ a, A a → m ∉ a.handed ∧ m ∉ a.freed)
    (hT : UserInfo.AtRest u T) (h : LedgerAt m ((received ops).count m) T)
    (hC : KeepsBuffers F ops u op) {t : ℕ}
    (hmoves : op.Moves A u t T T') : LedgerAt m ((received (ops ++ [op])).count m) T' := by
  have hkeeps : ∀ k, Tape.Keeps A (LedgerAt m k) := fun k => LedgerAt.keeps hA
  rw [received_concat, List.count_append]
  by_cases hop : ∃ m₀, op = .recv m₀
  · obtain ⟨m₀, rfl⟩ := hop
    refine (hkeeps _).recv (hkeeps _) h (fun S hS => ?_) (fun as S has hemit hacc harr => ?_) hmoves
    · refine ⟨⟨hS.window.le, hS.window.size⟩, hS.filed, hS.marked, ?_⟩
      show S.held m + settled m (S.out ++ [.free m₀]) = _
      rw [settled_append, ← Nat.add_assoc, hS.balance]
      exact congrArg _ (settled_free [m₀])
    · refine hemit.arrives hA hT.next_blank (hC.fragment m₀ rfl hacc) (fun p hb hn hp hst h0 => ?_)
        (fun hc => hC.fresh m₀ rfl hacc (hT.looksClear_iff.mpr hc)) harr
      exact hC.alone m₀ rfl hacc h0 _ (hT.meets hb hn hp hst)
  · have hnone : op.received.count m = 0 := by
      cases op with
      | recv m₀ => exact absurd ⟨m₀, rfl⟩ hop
      | _ => rfl
    rw [hnone, Nat.add_zero]
    refine (hkeeps _).quiet h (fun m hm => hop ⟨m, hm⟩) (fun hcheck hnew hlook => ?_)
      (fun _ S hempty hblank hS => ?_) hmoves
    · exact (hkeeps _).looks_plain
        (fun S p m₀ hS hb hn hc hf hm h0 => hS.early hb hn hc hf hm h0) h
        (hT.plain (hC.check hcheck) hnew) hlook
    · refine ⟨⟨le_rfl, Nat.zero_lt_succ 4095⟩, Tape.Cells.clear S (Filed.wiped _),
        Tape.Cells.clear S (steady_marked A).wiped, ?_⟩
      have hbalance := hS.balance
      rw [Tape.held, hempty, total_single, RxDataWinNode.owned_of_unReceived hblank.status,
        List.count_nil] at hbalance
      rw [← hbalance, Tape.held]
      show total _ _ 0 (0 + 1) + _ = _
      rw [total_single]
      rfl

/-- The slots of the window are in charge of what the tape says. -/
theorem held_eq (hT : UserInfo.AtRest u T) : u.held m = T.held m := by
  have hnext : (T.cell T.rxNext).owned.count m = 0 := by
    rw [RxDataWinNode.owned_of_unReceived hT.next_blank.status, List.count_nil]
  rw [Tape.held, total_push hT.le, hnext, Nat.add_zero, total, Finset.sum_Ico_eq_sum_range,
    UserInfo.held, hT.toRefines.nodeCnt_eq]
  refine Finset.sum_congr rfl fun k hk => ?_
  have hk' := Finset.mem_range.mp hk
  rw [hT.begin_eq, Nat.mod_add_mod, hT.cell _ (Nat.le_add_right _ _) (by omega)]

/-- The buffers that have been received are all different, and none is of the transmit side. -/
theorem received_distinct {C : List Op → UserInfo → Op → Prop}
    (hC : ∀ past u op, C past u op → OwnBuffers F past u op) (h : Guarded Op.step C u₀ ops u) :
    (received ops).Nodup ∧ ∀ m ∈ received ops, ¬ F m.addr := by
  refine Guarded.inv (I := fun ops _ => (received ops).Nodup ∧ ∀ m ∈ received ops, ¬ F m.addr)
    (fun ops op u u' hI hop _ => ?_) ⟨List.nodup_nil, fun m hm => absurd hm List.not_mem_nil⟩ h
  rw [received_concat]
  cases op with
  | recv m =>
    obtain ⟨hF, hpast⟩ := (hC _ _ _ hop).new m rfl
    refine ⟨List.nodup_append.mpr ⟨hI.1, List.nodup_singleton m, fun x hx y hy => ?_⟩, ?_⟩
    · rw [List.mem_singleton.mp hy]
      rintro rfl
      exact hpast (mem_received.mp hx)
    · intro x hx
      rcases List.mem_append.mp hx with hx | hx
      · exact hI.2 x hx
      · rw [List.mem_singleton.mp hx]
        exact hF
  | _ =>
    change (received ops ++ []).Nodup ∧ ∀ m ∈ received ops ++ [], ¬ F m.addr
    rw [List.append_nil]
    exact hI

/-- **Ownership of received buffers.** After every run whose steps meet `KeepsBuffers`, each buffer
that was received is in exactly one place: one slot of the window is in charge of it, or it was
handed to the transport once, or freed once. -/
theorem ownership_run (F : ℕ → Prop) (u₀ : UserInfo) {u : UserInfo} {ops : List Op}
    (h : Guarded Op.step (KeepsBuffers F) u₀.cleared ops u) {m : Msg} (hm : .recv m ∈ ops) :
    u.held m + (handed u.out).count m + (freed u.out).count m = 1 := by
  have hnew := received_distinct (fun _ _ _ hC => hC.own) h
  obtain ⟨T, hT, hledger⟩ := UserInfo.guarded_tape (F := F) (B := fun _ => True)
    (I := fun ops T => ∀ m, ¬ F m.addr → LedgerAt m ((received ops).count m) T)
    (fun _ _ => Op.label fun m => m.header.dsn) (fun _ u op hC => Op.fits_of_send hC.own.send)
    (fun _ _ m _ _ _ => Nat.mod_eq_of_lt (m.word_lt 2))
    (fun _ _ _ _ _ _ hT _ hI hC hmoves m hm => by
      exact (hI m hm).step (fun _ => sideAction_settled hm) hT hC hmoves)
    (fun valid m _ => ⟨Tape.blank_window valid, fun p _ _ => Filed.wiped _ p 0,
      fun p _ _ => (steady_marked fun _ => True).wiped p 0, rfl⟩) h
  have hmem := mem_received.mpr hm
  have hbalance := (hledger m (hnew.2 m hmem)).balance
  rw [List.count_eq_one_of_mem hnew.1 hmem, ← held_eq hT, hT.out, settled] at hbalance
  omega

end Run

/-- Two fragments of one packet, the second of which arrives first. -/
theorem ownership_run_fragments : ∃ u,
    run Op.step [.recv (.packet 0 2 0 0 1 [1]), .recv (.packet 1 1 0 0 0 [0])]
      UserInfo.ready.cleared = some u ∧
    u.held (.packet 0 2 0 0 1 [1]) + (handed u.out).count (.packet 0 2 0 0 1 [1]) +
      (freed u.out).count (.packet 0 2 0 0 1 [1]) = 1 := by
  have hrun : (run Op.step [.recv (.packet 0 2 0 0 1 [1]), .recv (.packet 1 1 0 0 0 [0])]
      UserInfo.ready.cleared).isSome := by
    decide +kernel
  have h₁ : ((Op.recv (.packet 0 2 0 0 1 [1])).step UserInfo.ready.cleared).map
      (fun u => (u.rxDataWin.rxBegin, u.rxDataWin.rxNext)) = some (0, 1) := by
    decide +kernel
  obtain ⟨u, hu⟩ := Option.isSome_iff_exists.mp hrun
  have hmeets : Meets Op.step (KeepsBuffers (2 ≤ ·)) []
      [.recv (.packet 0 2 0 0 1 [1]), .recv (.packet 1 1 0 0 0 [0])] UserInfo.ready.cleared := by
    refine ⟨⟨⟨?_, by simp⟩, ?_, ?_, ?_, by simp⟩, fun u₁ hu₁ =>
      ⟨⟨⟨?_, by simp⟩, ?_, ?_, ?_, by simp⟩, fun _ _ => trivial⟩⟩
    · rintro m ⟨⟩
      exact ⟨by decide, List.not_mem_nil⟩
    · rintro m ⟨⟩ -
      simp
    · rintro m ⟨⟩ - h0
      simp at h0
    · rintro m ⟨⟩ - - -
      exact .inl rfl
    · rintro m ⟨⟩
      exact ⟨by decide, by decide⟩
    · rintro m ⟨⟩ -
      simp
    · rintro m ⟨⟩ - h0
      simp at h0
    · rintro m ⟨⟩ - hclear -
      rw [hu₁, Option.map_some, Option.some.injEq, Prod.mk.injEq] at h₁
      exact absurd (h₁.2.symm.trans hclear.2.1) (by decide)
  exact ⟨u, hu, ownership_run (2 ≤ ·) UserInfo.ready (hmeets.guarded hu) (by simp)⟩

/-- **A fragment is lost** when an unfragmented packet takes its slot. -/
theorem ownership_lost : ∃ u,
    Guarded Op.step (OwnBuffers (2 ≤ ·)) UserInfo.ready.cleared
      [.recv (.packet 0 1 0 0 0 [0]), .recv (.packet 1 0 0 0 0 [0])] u ∧
    u.held (.packet 0 1 0 0 0 [0]) + (handed u.out).count (.packet 0 1 0 0 0 [0]) +
      (freed u.out).count (.packet 0 1 0 0 0 [0]) = 0 := by
  have hrun : (run Op.step [.recv (.packet 0 1 0 0 0 [0]), .recv (.packet 1 0 0 0 0 [0])]
      UserInfo.ready.cleared).map (fun u => u.held (.packet 0 1 0 0 0 [0]) +
        (handed u.out).count (.packet 0 1 0 0 0 [0]) +
        (freed u.out).count (.packet 0 1 0 0 0 [0])) = some 0 := by
    decide +kernel
  obtain ⟨u, hu, hzero⟩ := Option.map_eq_some_iff.mp hrun
  refine ⟨u, Meets.guarded ⟨⟨?_, by simp⟩, fun u₁ hu₁ => ⟨⟨?_, by simp⟩, fun _ _ => trivial⟩⟩ hu,
    hzero⟩
  · rintro m ⟨⟩
    exact ⟨by decide, List.not_mem_nil⟩
  · rintro m ⟨⟩
    exact ⟨by decide, by decide⟩

end Mpd

end AndroidVendor
