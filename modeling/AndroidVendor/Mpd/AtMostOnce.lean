import AndroidVendor.Mpd.InOrder
import AndroidVendor.Mpd.Slots

/-!
# Delivery at most once

While a packet's slot is in the window, a copy of it is found to be a duplicate. Behind the window
nothing is remembered: `MPD_DataWinAddNode` hands over whatever arrives there, first copy or not.
Nor is anything remembered by a window that is taken for one that was cleared.

## Main results

* `atMostOnce_run` — where no such packet was handed over before, none is handed over twice
* `atMostOnce_copy` — the copy of a delivered packet is delivered
-/

namespace AndroidVendor

namespace Mpd

open Loop Machine Relation SerialRing

/-- The number of the packet that is handed over. -/
def Action.posted (v : Msg → ℕ) : Action → List ℕ
  | .post _ _ m _ _ => [v m]
  | .postMerged _ first _ _ _ _ => [v first]
  | _ => []

/-- The numbers of the packets handed over, by whichever way. -/
def posted (v : Msg → ℕ) (out : List Action) : List ℕ := out.flatMap (Action.posted v)

section Posted

variable {v : Msg → ℕ} {out as : List Action}

@[simp] theorem posted_append : posted v (out ++ as) = posted v out ++ posted v as :=
  List.flatMap_append

theorem posted_of_none (h : ∀ a ∈ as, a.posted v = []) : posted v as = [] :=
  List.flatMap_eq_nil_iff.mpr h

@[simp] theorem posted_free (ms : List Msg) : posted v (ms.map .free) = [] :=
  posted_of_none fun a ha => by
    obtain ⟨m, -, rfl⟩ := List.mem_map.mp ha
    rfl

theorem sideAction_posted {F : ℕ → Prop} {B : Access → Prop} {a : Action}
    (h : SideAction F B a) : a.posted v = [] := by
  cases a with
  | post => exact h.elim
  | postMerged => exact h.elim
  | _ => rfl

end Posted

/-- The slot is of a packet that was handed over ahead of order. -/
structure HandedOver (n : RxDataWinNode) : Prop where
  status : n.status = .receiveComplete
  fragment : n.fragment = 0
  flag : n.flag = .sended

/-- What the tape knows about the packets handed over: they lie behind the window, or their slot
says so. -/
structure OnceAt (v : Msg → ℕ) (T : Tape) : Prop where
  window : T.Window
  filed : T.Cells (Filed fun p node => v node.msgPtr = p)
  nodup : (posted v T.out).Nodup
  seen : ∀ x ∈ posted v T.out, x < T.rxBegin ∨ (x < T.rxNext ∧ HandedOver (T.cell x))

namespace OnceAt

variable {v : Msg → ℕ} {T T' : Tape} {A : Action → Prop} {p time : ℕ} {node : MPDNodeInfo}

/-- What is in the window and not marked was not handed over. -/
theorem notMem (h : OnceAt v T) (hb : T.rxBegin ≤ p) (hn : ¬ HandedOver (T.cell p)) :
    p ∉ posted v T.out := by
  intro hp
  rcases h.seen p hp with hlt | ⟨-, hdone⟩
  · omega
  · exact hn hdone

/-- The log grows by what hands nothing over. -/
theorem emit {as : List Action} (h : OnceAt v T) (has : posted v as = []) :
    OnceAt v (T.emit as) where
  window := ⟨h.window.le, h.window.size⟩
  filed := h.filed
  nodup := by
    rw [Tape.emit, posted_append, has, List.append_nil]
    exact h.nodup
  seen x hx := by
    rw [Tape.emit, posted_append, has, List.append_nil] at hx
    exact h.seen x hx

/-- The window moves on, past what is handed over meanwhile. -/
theorem leave {as : List Action} (h : OnceAt v T) (hlt : T.rxBegin < T.rxNext)
    (hout : T'.out = T.out ++ as) (hb : T'.rxBegin = T.rxBegin + 1) (hn : T'.rxNext = T.rxNext)
    (hcell : T'.cell = T.cell)
    (has : posted v as = [] ∨ (posted v as = [T.rxBegin] ∧ ¬ HandedOver T.head)) :
    OnceAt v T' := by
  have hw := h.window
  have hold : ∀ x ∈ posted v T.out, x < T.rxBegin + 1 ∨ (x < T.rxNext ∧ HandedOver (T.cell x)) :=
    fun x hx => (h.seen x hx).imp_left Nat.lt_succ_of_lt
  refine ⟨⟨by omega, by have := hw.size; omega⟩, fun p hp hpn => ?_, ?_, ?_⟩
  · rw [hcell]
    exact h.filed p (by omega) (by omega)
  · rw [hout, posted_append]
    rcases has with has | ⟨has, hnew⟩
    · rw [has, List.append_nil]
      exact h.nodup
    · rw [has]
      exact List.nodup_append.mpr ⟨h.nodup, List.nodup_singleton _, fun x hx y hy => by
        rw [List.mem_singleton.mp hy]
        rintro rfl
        exact h.notMem le_rfl hnew hx⟩
  · rw [hout, posted_append, hb, hn, hcell]
    intro x hx
    rcases List.mem_append.mp hx with hx | hx
    · exact hold x hx
    · rcases has with has | ⟨has, -⟩
      · rw [has] at hx
        cases hx
      · rw [has, List.mem_singleton] at hx
        exact .inl (by omega)

theorem keeps (hA : ∀ a, A a → a.posted v = []) : Tape.Keeps A (OnceAt v) where
  step T T' h hs := by
    have hfiled : T'.Cells (Filed fun p node => v node.msgPtr = p) :=
      h.filed.step (Filed.steady fun _ _ _ h => h) hs
    cases hs with
    | pass mem hlt hc =>
      refine h.leave hlt (Tape.pass_out T mem) rfl (Tape.pass_rxNext T mem) (Tape.pass_cell T mem) ?_
      rcases (h.filed T.rxBegin le_rfl hlt.le).passActions hc mem with
        ⟨hf, m, -, hv, heq⟩ | ⟨hf, first, second, -, -, hv, -, heq⟩
      · rw [Tape.head, heq]
        split
        · next hflag => exact .inr ⟨congrArg (fun p => [p]) hv, fun hdone => hflag hdone.flag⟩
        · exact .inl rfl
      · rw [Tape.head, heq]
        cases mem with
        | none => exact .inl rfl
        | some addr =>
          refine .inr ⟨congrArg (fun p => [p]) hv, fun hdone => ?_⟩
          rw [hdone.fragment] at hf
          cases hf
    | drop hlt hc => exact h.leave hlt rfl rfl rfl rfl (.inl (posted_free _))
    | @touch p n hb hn hsame hlost =>
      refine ⟨⟨h.window.le, h.window.size⟩, hfiled, h.nodup, fun x hx => ?_⟩
      rcases h.seen x hx with hlt | ⟨hxn, hdone⟩
      · exact .inl hlt
      refine .inr ⟨hxn, ?_⟩
      rw [Tape.setCell_cell]
      split
      · next heq =>
        subst heq
        exact ⟨hsame.status.trans hdone.status, hsame.fragment.trans hdone.fragment,
          hsame.sended.mpr hdone.flag⟩
      · exact hdone
    | other has => exact h.emit (posted_of_none fun a ha => hA a (has a ha))
    | _ => exact ⟨⟨h.window.le, h.window.size⟩, hfiled, h.nodup, h.seen⟩
  grow T h hlt := by
    refine ⟨⟨h.window.le.trans (Nat.le_succ _), hlt⟩, h.filed.grow (Filed.wiped _), h.nodup,
      fun x hx => ?_⟩
    rcases h.seen x hx with hlt | ⟨hxn, hdone⟩
    · exact .inl hlt
    · refine .inr ⟨Nat.lt_succ_of_lt hxn, ?_⟩
      rwa [Tape.grow_cell_of_le T hxn.le]

/-- A packet is stored that its slot does not know. -/
theorem put (h : OnceAt v T) (hb : T.rxBegin ≤ p) (hn : p ≤ T.rxNext) (hf : node.fragment < 3)
    (hp : node.dsn = p % 65536) (hv : v node.msgPtr = p) (hdup : ¬ (T.cell p).Duplicate node) :
    OnceAt v (T.put p node time) := by
  have hemit : OnceAt v (T.emit [.access (.frag node.fragIndex)]) := h.emit rfl
  refine ⟨⟨h.window.le, h.window.size⟩, ?_, hemit.nodup, fun x hx => ?_⟩
  · exact h.filed.put ((h.filed p hb hn).put time hdup hf hp hv fun _ _ _ _ _ _ h => h)
  · rcases hemit.seen x hx with hlt | ⟨hxn, hdone⟩
    · exact .inl hlt
    refine .inr ⟨hxn, ?_⟩
    rw [Tape.put_cell]
    split
    · next heq =>
      subst heq
      exact absurd (.inr hdone.status) hdup
    · exact hdone

/-- A packet is handed over ahead of order. -/
theorem early {m : Msg} (h : OnceAt v T) (hb : T.rxBegin ≤ p) (hn : p < T.rxNext)
    (hc : (T.cell p).status = .receiveComplete) (hf : (T.cell p).flag = .unChecked)
    (hm : (T.cell p).msgPtr 0 = some m) (h0 : (T.cell p).fragment = 0) : OnceAt v (T.early p) := by
  have hv : v m = p := by
    obtain ⟨m', hm', hv⟩ := (h.filed p hb hn.le).ptr 0 (RxDataWinNode.holds_zero (by simp [hc]) h0)
    rw [Option.some.inj (hm.symm.trans hm')]
    exact hv
  have hpost : posted v ((T.cell p).postHead .early) = [p] := by
    simp [RxDataWinNode.postHead, hm, posted, Action.posted, hv]
  have hnew : p ∉ posted v T.out := h.notMem hb fun hdone => by
    rw [hdone.flag] at hf
    cases hf
  refine ⟨⟨h.window.le, h.window.size⟩, h.filed.early ?_, ?_, ?_⟩
  · obtain ⟨hidle, hpart, hwhole, hnum, hptr⟩ := h.filed p hb hn.le
    exact ⟨hidle, hpart, hwhole, hnum, hptr⟩
  · rw [Tape.early, Tape.emit, posted_append, hpost]
    exact List.nodup_append.mpr ⟨h.nodup, List.nodup_singleton _, fun x hx y hy => by
      rw [List.mem_singleton.mp hy]
      rintro rfl
      exact hnew hx⟩
  · rw [Tape.early, Tape.emit, posted_append, hpost]
    intro x hx
    have hmark : HandedOver ((T.setCell p { T.cell p with flag := .sended }).cell p) := by
      rw [Tape.setCell_cell, if_pos rfl]
      exact ⟨hc, h0, rfl⟩
    rcases List.mem_append.mp hx with hx | hx
    · rcases h.seen x hx with hlt | ⟨hxn, hdone⟩
      · exact .inl hlt
      refine .inr ⟨hxn, ?_⟩
      by_cases heq : x = p
      · exact heq ▸ hmark
      · rw [Tape.setCell_cell, if_neg heq]
        exact hdone
    · rw [List.mem_singleton.mp hx]
      exact .inr ⟨hn, hmark⟩

/-- **A packet arrives**, one that was not handed over before if it lies behind the window, and
ahead of all that were if the window looks clear. -/
theorem arrives {m : Msg} {stale : RxDataWinNode} (hA : ∀ a, A a → a.posted v = [])
    (h : OnceAt v T) (hdsn : m.header.dsn = v m % 65536) (hf : m.header.fragment < 3)
    (hpos : ¬ T.LooksClear → T.rxNext ≤ v m + 32768 ∧ v m < T.rxBegin + 32768)
    (hlate : ∀ d, ¬ T.LooksClear → 0 < d → d ≤ 1000 →
      (m.header.dsn + d) % 65536 = T.rxBegin % 65536 → v m ∉ posted v T.out)
    (hahead : T.LooksClear → ∀ x ∈ posted v T.out, x < v m)
    (hfresh : T.LooksClear → m.header.fragment ≠ 0 →
      stale.fragment = 0 ∨ stale.fragment = m.header.fragment)
    (hs : Tape.Arrives A m.node stale (v m) T T') : OnceAt v T' := by
  have hw := h.window.le
  cases hs with
  | late d hc hd hd' hdsn' =>
    obtain ⟨hnext, hbegin⟩ := hpos hc
    have hbehind : v m + d = T.rxBegin := by
      refine cell_inj (N := 65536) ?_ (by omega) (by omega)
      rw [← hdsn', show m.node.dsn = v m % 65536 from hdsn, Nat.mod_add_mod]
    refine ⟨⟨hw, h.window.size⟩, h.filed, ?_, fun x hx => ?_⟩
    · show (posted v (T.out ++ [.post .outOfWindow _ m _ _])).Nodup
      rw [posted_append]
      exact List.nodup_append.mpr ⟨h.nodup, List.nodup_singleton _, fun x hx y hy => by
        rw [List.mem_singleton.mp hy]
        rintro rfl
        exact hlate d hc hd hd' hdsn' hx⟩
    · change x ∈ posted v (T.out ++ [.post .outOfWindow _ m _ _]) at hx
      rw [posted_append] at hx
      rcases List.mem_append.mp hx with hx | hx
      · exact h.seen x hx
      · rw [List.mem_singleton.mp hx]
        refine .inl ?_
        show v m < T.rxBegin
        omega
  | refuse => exact h.emit rfl
  | @store p time hb hn hp hdup =>
    have hc : ¬ T.LooksClear := fun hc => by
      have := hc.1
      omega
    obtain ⟨hnext, hbegin⟩ := hpos hc
    have hpv : p = v m := cell_inj (hp.trans hdsn) (by omega) (by omega)
    exact h.put hb hn.le hf hp.symm hpv.symm hdup
  | @extend T₁ _ time hc hT hle hfar hp hblank hT' hnext' =>
    obtain ⟨hnext, hbegin⟩ := hpos hc
    have hpv : T₁.rxNext = v m := cell_inj (hp.trans hdsn) (by omega) (by omega)
    have h₁ := (keeps hA).widens h hT
    have hdup : ¬ (T₁.cell T₁.rxNext).Duplicate m.node := by
      simp [RxDataWinNode.Duplicate, hblank.status]
    exact (keeps hA).widens (h₁.put h₁.window.le le_rfl hf hp.symm hpv.symm hdup) hT'
  | @anchor time hc ht =>
    have hemit : OnceAt v (T.emit [.access (.frag m.node.fragIndex)]) := h.emit rfl
    have hput : posted v (T.emit [.access (.frag m.node.fragIndex)]).out = posted v T.out :=
      posted_append.trans (List.append_nil _)
    refine ⟨⟨Nat.le_succ _, by show v m + 1 < v m + 4096; omega⟩, ?_, ?_, fun x hx => ?_⟩
    · exact Tape.Cells.anchor (Filed.wiped _) (Filed.put_stale _ time hf (hfresh hc) hdsn rfl)
    · exact hemit.nodup
    · exact .inl (hahead hc x (by rwa [← hput]))

end OnceAt

/-- What every step has to meet, beside what delivery in order asks: a packet that is handed over
behind the window was not handed over before; one that finds the window looking clear lies ahead of
all that were, and if it is a fragment its slot has no remains of the other one; `MPD_CheckAck` does
not find two fragments the first of which looks like a pure acknowledgement. -/
structure NeverBefore (v : Msg → ℕ) (past : List Op) (u : UserInfo) (op : Op) : Prop where
  ahead : StaysAhead v past u op
  late : ∀ m, op = .recv m → u.Accepts m → u.HandsLate m → v m ∉ posted v u.out
  clear : ∀ m, op = .recv m → u.Accepts m → u.rxDataWin.looksClear → ∀ x ∈ posted v u.out, x < v m
  fresh : ∀ m, op = .recv m → u.Accepts m → u.FreshSlot m
  check : op = .checkAck → u.NoEarlyFragment

section Run

variable {v : Msg → ℕ} {T T' : Tape} {A : Action → Prop} {ops : List Op} {u : UserInfo}

theorem InOrderInv.bounds {m : Msg} (h : InOrderInv v ops T) (hfly : InFlight v ops u m)
    (hout : lastInOrder T.out = lastInOrder u.out) (hc : ¬ T.LooksClear) :
    T.rxNext ≤ v m + 32768 ∧ v m < T.rxBegin + 32768 := by
  obtain ⟨ps, hat, ⟨hclear, -⟩ | hreach⟩ := h
  · exact absurd hclear hc
  · obtain ⟨hnext, hbegin, -⟩ := hfly.bounds hout hat hreach
    exact ⟨hnext, hbegin⟩

/-- **A step of the session.** -/
theorem OnceAt.step {op : Op} (hA : ∀ a, A a → a.posted v = []) (hA' : ∀ a, A a → a.inOrderDsn = none)
    (hT : UserInfo.AtRest u T) (hin : InOrderInv v ops T) (h : OnceAt v T)
    (hC : NeverBefore v ops u op) (hmoves : op.Moves A u (op.label v) T T') : OnceAt v T' := by
  have hkeeps := OnceAt.keeps hA
  by_cases hop : ∃ m, op = .recv m
  · obtain ⟨m, rfl⟩ := hop
    refine hkeeps.recv hkeeps h (fun S hS => hS.emit rfl) (fun as S has hemit hacc harr => ?_) hmoves
    obtain ⟨hf, hfly⟩ := hC.ahead.1.2 m rfl hacc
    have hposted : posted v (T.emit as).out = posted v u.out := by
      rw [Tape.emit, posted_append, posted_of_none fun a ha => hA a (has a ha), List.append_nil,
        hT.out]
    have hlast : lastInOrder (T.emit as).out = lastInOrder u.out := by
      rw [Tape.emit, lastInOrder_append_of_none fun a ha => hA' a (has a ha), hT.out]
    refine hemit.arrives hA hfly.dsn hf (fun hc => ?_) (fun d hc hd hd' hdsn => ?_) (fun hc => ?_)
      (fun hc => ?_) harr
    · exact (hin.steps hA' (List.Subset.refl _) (.single (.other has))).bounds hfly hlast hc
    · rw [hposted]
      exact hC.late m rfl hacc (hT.handsLate hc hd hd' hdsn)
    · rw [hposted]
      exact hC.clear m rfl hacc (hT.looksClear_iff.mpr hc)
    · exact hC.fresh m rfl hacc (hT.looksClear_iff.mpr hc)
  · refine hkeeps.quiet h (fun m hm => hop ⟨m, hm⟩) (fun hcheck hnew hlook => ?_)
      (fun hclear => absurd hclear hC.ahead.1.1) hmoves
    exact hkeeps.looks_plain (fun S p m hS hb hn hc hf hm h0 => hS.early hb hn hc hf hm h0) h
      (hT.plain (hC.check hcheck) hnew) hlook

end Run

/-- **Delivery at most once.** From a cleared session on, no packet is handed over twice, by
whichever way, as long as every step meets `NeverBefore`. -/
theorem atMostOnce_run (v : Msg → ℕ) (u₀ : UserInfo) {u : UserInfo} {ops : List Op}
    (h : Guarded Op.step (NeverBefore v) u₀.cleared ops u) : (posted v u.out).Nodup := by
  obtain ⟨T, hT, -, hps⟩ := UserInfo.guarded_tape (F := fun _ => True) (B := fun _ => True)
    (I := fun ops T => InOrderInv v ops T ∧ OnceAt v T) (fun _ _ => Op.label v)
    (fun _ u op _ => op.fits_true u)
    (fun _ _ m hC hacc _ => (hC.ahead.1.2 m rfl hacc).2.dsn.symm)
    (fun _ _ _ _ _ _ hT _ hI hC hmoves =>
      ⟨hI.1.step (fun _ => sideAction_inOrderDsn) hT hC.ahead hmoves,
        hI.2.step (fun _ => sideAction_posted) (fun _ => sideAction_inOrderDsn) hT hI.1 hC hmoves⟩)
    (fun valid => ⟨inOrderInv_blank v valid, Tape.blank_window valid, fun p _ _ => Filed.wiped _ p 0,
      List.nodup_nil, fun x hx => absurd hx List.not_mem_nil⟩) h
  rw [← hT.out]
  exact hps.nodup

/-- Two packets that arrive in order. -/
theorem atMostOnce_run_two : ∃ u,
    run Op.step [.recv (.packet 0 0 0 5 0 [0]), .recv (.packet 1 0 0 6 1 [0])]
      UserInfo.ready.cleared = some u ∧ (posted (fun m => m.header.dsn) u.out).Nodup := by
  have h₁ : ((Op.recv (.packet 0 0 0 5 0 [0])).step UserInfo.ready.cleared).map
      (fun u => (lastInOrder u.out, inOrderDsns u.out, posted (fun m => m.header.dsn) u.out)) =
        some (some (.post .inOrder 5 (.packet 0 0 0 5 0 [0]) 13 12), [5], [5]) := by
    decide +kernel
  have h₂ : (run Op.step [.recv (.packet 0 0 0 5 0 [0]), .recv (.packet 1 0 0 6 1 [0])]
      UserInfo.ready.cleared).isSome := by
    decide +kernel
  obtain ⟨u, hu⟩ := Option.isSome_iff_exists.mp h₂
  have hmeets : Meets Op.step (NeverBefore fun m => m.header.dsn) []
      [.recv (.packet 0 0 0 5 0 [0]), .recv (.packet 1 0 0 6 1 [0])] UserInfo.ready.cleared := by
    refine ⟨⟨⟨⟨by decide, ?_⟩, ?_⟩, ?_, ?_, ?_, by simp⟩, fun u₁ hu₁ => ?_⟩
    · rintro m ⟨⟩ -
      exact ⟨by simp, inFlight_first (by simp) rfl⟩
    · rintro m ⟨⟩ - - dsn hdsn
      exact absurd hdsn (by simp [inOrderDsns, UserInfo.cleared])
    · rintro m ⟨⟩ - -
      exact List.not_mem_nil
    · rintro m ⟨⟩ - - x hx
      exact absurd hx List.not_mem_nil
    · rintro m ⟨⟩ - - hf
      exact absurd rfl hf
    rw [hu₁] at h₁
    obtain ⟨hlast, hdsns, hposted⟩ : lastInOrder u₁.out =
        some (.post .inOrder 5 (.packet 0 0 0 5 0 [0]) 13 12) ∧ inOrderDsns u₁.out = [5] ∧
          posted (fun m => m.header.dsn) u₁.out = [5] := by
      simpa using h₁
    refine ⟨⟨⟨⟨by decide, ?_⟩, ?_⟩, ?_, ?_, ?_, by simp⟩, fun _ _ => trivial⟩
    · rintro m ⟨⟩ -
      refine ⟨by simp, by simp, by simp, fun a ha m' hm' => ?_, by simp⟩
      obtain rfl := Option.some.inj (hlast.symm.trans ha)
      obtain rfl := List.mem_singleton.mp hm'
      simp
    · rintro m ⟨⟩ - - dsn hdsn
      rw [hdsns] at hdsn
      obtain rfl := Option.some.inj hdsn
      simp
      decide
    · rintro m ⟨⟩ - -
      simp [hposted]
    · rintro m ⟨⟩ - -
      simp [hposted]
    · rintro m ⟨⟩ - - hf
      exact absurd rfl hf
  exact ⟨u, hu, atMostOnce_run _ UserInfo.ready (hmeets.guarded hu)⟩

/-- **A copy of a packet that was delivered** is delivered again. -/
theorem atMostOnce_copy : ∃ u,
    Guarded Op.step (NetworkInOrder fun m => m.header.dsn) UserInfo.ready.cleared
      [.recv (.packet 0 0 0 0 0 [0]), .recv (.packet 1 0 0 0 0 [0])] u ∧
    posted (fun m => m.header.dsn) u.out = [0, 0] ∧
    ¬ (posted (fun m => m.header.dsn) u.out).Nodup := by
  have h₁ : ((Op.recv (.packet 0 0 0 0 0 [0])).step UserInfo.ready.cleared).map
      (lastInOrder ·.out) = some (some (.post .inOrder 0 (.packet 0 0 0 0 0 [0]) 13 12)) := by
    decide +kernel
  have h₂ : (run Op.step [.recv (.packet 0 0 0 0 0 [0]), .recv (.packet 1 0 0 0 0 [0])]
      UserInfo.ready.cleared).map (posted (fun m => m.header.dsn) ·.out) = some [0, 0] := by
    decide +kernel
  obtain ⟨u, hu, hposted⟩ := Option.map_eq_some_iff.mp h₂
  refine ⟨u, Meets.guarded ⟨⟨by decide, ?_⟩, fun u₁ hu₁ => ⟨⟨by decide, ?_⟩, fun _ _ => trivial⟩⟩ hu,
    hposted, ?_⟩
  · rintro m ⟨⟩ -
    exact ⟨by simp, inFlight_first (by simp) rfl⟩
  · rintro m ⟨⟩ -
    refine ⟨by simp, by simp, by simp, fun a ha m' hm' => ?_, by simp⟩
    rw [hu₁] at h₁
    obtain rfl := Option.some.inj ((Option.some.inj h₁).symm.trans ha)
    obtain rfl := List.mem_singleton.mp hm'
    simp
  · rw [hposted]
    decide

end Mpd

end AndroidVendor
